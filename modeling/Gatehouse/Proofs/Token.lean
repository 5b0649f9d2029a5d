import Gatehouse.Configuration
import Gatehouse.Proofs.Text
import Gatehouse.Session
import Mathlib.Data.List.DropRight
import Mathlib.Logic.Relation

/-! # Where the token is found

The pieces between the semicolons of all cookie headers are one list, and the first of them that
holds a value under the name decides. Only where there is none does the first `Authorization` header
count. Nothing else in a request matters. -/

namespace Gatehouse

/-! ## Cookies read back

A text of cookies is cut at every `;`, the pieces lose the white space at their ends, and each is
cut at its first `=`. What a pair that is written as `name=value` is read back as depends on the
value alone, as names hold no white space, no `=` and no `;`. -/

namespace Configuration

theorem exists_of_bind_eq_ok {ε α β : Type} {x : Except ε α} {f : α → Except ε β} {b : β}
    (bound : x >>= f = .ok b) : ∃ a, x = .ok a ∧ f a = .ok b := by
  cases x with
  | error e => cases bound
  | ok a => exact ⟨a, rfl, bound⟩

/-- The name in a configuration that was read is the one that the check on names let through. -/
theorem cookie_of_load {vars : Variables} {config : Configuration}
    (loaded : load vars = .ok config) : cookie vars = .ok config.cookieName := by
  obtain ⟨_, -, loaded⟩ := exists_of_bind_eq_ok loaded
  obtain ⟨_, -, loaded⟩ := exists_of_bind_eq_ok loaded
  obtain ⟨name, accepted, loaded⟩ := exists_of_bind_eq_ok loaded
  obtain ⟨_, -, loaded⟩ := exists_of_bind_eq_ok loaded
  obtain ⟨_, -, loaded⟩ := exists_of_bind_eq_ok loaded
  obtain rfl := Except.ok.inj loaded
  exact accepted

end Configuration

namespace Text

theorem trimEnd_trimEnd (cs : List Char) : trimEnd (trimEnd cs) = trimEnd cs :=
  List.rdropWhile_idempotent isBlank cs

theorem trimEnd_append_cons {c : Char} (solid : isBlank c = false) (before after : List Char) :
    trimEnd (before ++ c :: after) = before ++ c :: trimEnd after := by
  induction after using List.reverseRecOn with
  | nil => simp [trimEnd, solid]
  | append_singleton after last ih =>
      have inner : before ++ c :: (after ++ [last]) = (before ++ c :: after) ++ [last] := by simp
      change (before ++ c :: (after ++ [last])).rdropWhile isBlank =
        before ++ c :: (after ++ [last]).rdropWhile isBlank
      rw [inner, List.rdropWhile_concat, List.rdropWhile_concat]
      split
      · exact ih
      · simp

theorem mem_of_mem_trim {c : Char} {cs : List Char} (mem : c ∈ trim cs) : c ∈ cs :=
  (List.dropWhile_sublist isBlank).mem ((List.rdropWhile_prefix isBlank (trimStart cs)).mem mem)

end Text

namespace Token

/-! ### Pieces -/

theorem pieces_eq_splitOn (separator : Char) (cs : List Char) :
    pieces separator cs = cs.splitOn separator := by
  induction cs with
  | nil => simp [pieces]
  | cons c cs ih =>
      rw [List.splitOn_cons_eq_if_modifyHead, pieces, ih]
      by_cases here : c = separator
      · simp [here]
      · cases found : cs.splitOn separator with
        | nil => exact absurd found (List.splitOn_ne_nil separator cs)
        | cons piece rest => simp [here]

theorem pieces_ne_nil (separator : Char) (cs : List Char) : pieces separator cs ≠ [] := by
  rw [pieces_eq_splitOn]
  exact List.splitOn_ne_nil separator cs

theorem not_mem_of_mem_pieces {separator : Char} {cs piece : List Char}
    (mem : piece ∈ pieces separator cs) : separator ∉ piece := by
  induction cs generalizing piece with
  | nil => simp_all [pieces]
  | cons c cs ih =>
      rw [pieces] at mem
      split at mem
      · rcases List.mem_cons.mp mem with rfl | later
        · exact List.not_mem_nil
        · exact ih later
      · next other =>
        cases found : pieces separator cs with
        | nil => exact absurd found (pieces_ne_nil separator cs)
        | cons first rest =>
            rw [found] at mem ih
            rcases List.mem_cons.mp mem with rfl | later
            · simpa [Ne.symm other] using ih List.mem_cons_self
            · exact ih (List.mem_cons_of_mem _ later)

/-! ### The first separator -/

theorem splitOnce_append_cons {separator : Char} {before : List Char} (absent : separator ∉ before)
    (after : List Char) :
    splitOnce separator (before ++ separator :: after) = some (before, after) := by
  induction before with
  | nil => simp [splitOnce]
  | cons c before ih =>
      have other : c ≠ separator := fun same => absent (same ▸ List.mem_cons_self)
      simp [splitOnce, other, ih fun mem => absent (List.mem_cons_of_mem _ mem)]

theorem splitOnce_eq_some_iff {separator : Char} {cs before after : List Char} :
    splitOnce separator cs = some (before, after) ↔
      cs = before ++ separator :: after ∧ separator ∉ before := by
  constructor
  · intro found
    induction cs generalizing before with
    | nil => simp [splitOnce] at found
    | cons c cs ih =>
        rw [splitOnce] at found
        split at found
        · next same =>
          obtain ⟨rfl, rfl⟩ : [] = before ∧ cs = after := by simpa using found
          exact ⟨by simp [same], List.not_mem_nil⟩
        · next other =>
          obtain ⟨⟨shorter, rest⟩, later, same⟩ := Option.map_eq_some_iff.mp found
          obtain ⟨rfl, rfl⟩ : c :: shorter = before ∧ rest = after := by simpa using same
          obtain ⟨rfl, absent⟩ := ih later
          exact ⟨rfl, by simp [Ne.symm other, absent]⟩
  · rintro ⟨rfl, absent⟩
    exact splitOnce_append_cons absent after

/-! ### Names -/

structure IsName (name : List Char) : Prop where
  nonempty : name ≠ []
  solid : ∀ c ∈ name, Text.isBlank c = false
  equals : '=' ∉ name
  semicolon : ';' ∉ name

theorem isCookieName_iff {name : String} :
    Configuration.isCookieName name = true ↔ IsName name.toList := by
  simp only [Configuration.isCookieName, Bool.and_eq_true, Bool.not_eq_true',
    List.isEmpty_eq_false_iff, List.all_eq_true, decide_eq_true_eq]
  constructor
  · rintro ⟨nonempty, each⟩
    exact ⟨nonempty, fun c mem => (each c mem).1.1, fun mem => (each _ mem).1.2 rfl,
      fun mem => (each _ mem).2 rfl⟩
  · intro h
    exact ⟨h.nonempty, fun c mem =>
      ⟨⟨h.solid c mem, fun same => h.equals (same ▸ mem)⟩, fun same => h.semicolon (same ▸ mem)⟩⟩

theorem isName_of_load {vars : Variables} {config : Configuration}
    (loaded : Configuration.load vars = .ok config) : IsName config.cookieName.toList := by
  have accepted := Configuration.cookie_of_load loaded
  simp only [Configuration.cookie] at accepted
  split at accepted
  · next valid => exact isCookieName_iff.mp (Except.ok.inj accepted ▸ valid)
  · cases accepted

/-! ### Pairs -/

def written (name value : List Char) : List Char := name ++ '=' :: value

variable {name value : List Char}

theorem trim_written (h : IsName name) :
    Text.trim (written name value) = written name (Text.trimEnd value) := by
  obtain ⟨first, rest, rfl⟩ := List.exists_cons_of_ne_nil h.nonempty
  have kept : Text.trimStart (written (first :: rest) value) = written (first :: rest) value := by
    simp [written, Text.trimStart, h.solid first List.mem_cons_self]
  rw [Text.trim, kept, written, Text.trimEnd_append_cons (by decide)]
  rfl

theorem pair?_written (h : IsName name) :
    pair? (written name value) = some (name, Text.trimEnd value) := by
  rw [pair?, trim_written h, written, splitOnce_append_cons h.equals]

theorem pairs_of_not_mem {cookies : List Char} (absent : ';' ∉ cookies) :
    pairs cookies = (pair? cookies).toList := by
  rw [pairs, pieces_eq_splitOn, List.splitOn_eq_singleton absent]
  cases found : pair? cookies <;> simp [found]

theorem pairs_append_cons {piece : List Char} (absent : ';' ∉ piece) (rest : List Char) :
    pairs (piece ++ ';' :: rest) = (pair? piece).toList ++ pairs rest := by
  rw [pairs, pieces_eq_splitOn, List.splitOn_append_cons_self_of_not_mem absent, pairs,
    pieces_eq_splitOn]
  cases found : pair? piece <;> simp [found]

theorem not_mem_of_pair? {piece : List Char} {c : Char} (absent : c ∉ piece)
    (found : pair? piece = some (name, value)) : c ∉ value := by
  obtain ⟨trimmed, -⟩ := splitOnce_eq_some_iff.mp found
  intro mem
  refine absent (Text.mem_of_mem_trim ?_)
  rw [trimmed]
  exact List.mem_append_right name (List.mem_cons_of_mem '=' mem)

/-- No white space is left at the end of a value that was read. -/
theorem trimEnd_of_pair? {piece : List Char} (found : pair? piece = some (name, value)) :
    Text.trimEnd value = value := by
  obtain ⟨trimmed, -⟩ := splitOnce_eq_some_iff.mp found
  have stable : Text.trimEnd (name ++ '=' :: value) = name ++ '=' :: value := by
    rw [← trimmed, Text.trim, Text.trimEnd_trimEnd]
  rw [Text.trimEnd_append_cons (by decide)] at stable
  simpa using stable

end Token
end Gatehouse

namespace Gatehouse.Token

/-! ## Cookies -/

/-- The piece is the name, an `=` and the value, with white space around them. -/
structure Holds (piece name value : List Char) : Prop where
  trims : Text.Trims piece (name ++ '=' :: value)
  first : '=' ∉ name

variable {piece name value : List Char}

theorem pair?_eq_some_iff : pair? piece = some (name, value) ↔ Holds piece name value := by
  rw [pair?, splitOnce_eq_some_iff, Text.trim_eq_iff]
  exact ⟨fun h => ⟨h.1, h.2⟩, fun h => ⟨h.trims, h.first⟩⟩

def value? (name piece : List Char) : Option (List Char) :=
  (pair? piece).bind fun (other, value) =>
    if other = name ∧ value ≠ [] then some value else none

theorem value?_eq_some_iff :
    value? name piece = some value ↔ Holds piece name value ∧ value ≠ [] := by
  rw [← pair?_eq_some_iff, value?]
  cases pair? piece with
  | none => simp
  | some pair =>
      obtain ⟨other, found⟩ := pair
      simp only [Option.bind_some, Option.some.injEq, Prod.mk.injEq]
      constructor
      · intro kept
        split at kept
        · next same =>
          obtain rfl := Option.some.inj kept
          exact ⟨⟨same.1, rfl⟩, same.2⟩
        · cases kept
      · rintro ⟨⟨rfl, rfl⟩, nonempty⟩
        rw [if_pos ⟨rfl, nonempty⟩]

/-- The pieces between the semicolons of a header, if it holds cookies and can be read. -/
def cookiePieces (h : Http.Header) : List (List Char) :=
  if h.isNamed "cookie" then
    (Http.Header.text? h.value).elim [] fun text => text.toList.splitOn ';'
  else []

theorem pairs_of_headers (headers : List Http.Header) :
    (((headers.filter (·.isNamed "cookie")).filterMap fun h => Http.Header.text? h.value).flatMap
        fun text => pairs text.toList) =
      (headers.flatMap cookiePieces).filterMap pair? := by
  induction headers with
  | nil => rfl
  | cons h headers ih =>
      rw [List.flatMap_cons, List.filterMap_append, ← ih]
      cases named : h.isNamed "cookie" with
      | false => simp [cookiePieces, named]
      | true =>
          cases read : Http.Header.text? h.value with
          | none => simp [cookiePieces, named, read]
          | some text => simp [cookiePieces, named, read, pairs, pieces_eq_splitOn]

theorem find?_filterMap_pair? (name : List Char) (pieces : List (List Char)) :
    ((pieces.filterMap pair?).find? fun (other, value) => other = name && !value.isEmpty).map
        (·.2) = pieces.findSome? (value? name) := by
  induction pieces with
  | nil => rfl
  | cons piece pieces ih =>
      rw [List.filterMap_cons, List.findSome?_cons]
      cases found : pair? piece with
      | none => simpa [value?, found] using ih
      | some pair =>
          obtain ⟨other, value⟩ := pair
          by_cases same : other = name ∧ value ≠ []
          · simp [value?, found, same]
          · have passed : (decide (other = name) && !value.isEmpty) = false := by simpa using same
            have nothing : value? name piece = none := by simp [value?, found, same]
            simp only [List.find?_cons, passed, nothing, ih]

theorem inCookies_eq_findSome? (cookieName : String) (headers : List Http.Header) :
    inCookies cookieName headers =
      (headers.flatMap cookiePieces).findSome? (value? cookieName.toList) := by
  rw [inCookies, pairs_of_headers, find?_filterMap_pair?]

def HasCookie (name : List Char) (headers : List Http.Header) : Prop :=
  ∃ piece ∈ headers.flatMap cookiePieces, ∃ value, Holds piece name value ∧ value ≠ []

/-- The value is that of the first cookie with the name and a value that is not empty. -/
def FirstCookie (name : List Char) (headers : List Http.Header) (value : List Char) : Prop :=
  ∃ before piece after, headers.flatMap cookiePieces = before ++ piece :: after ∧
    Holds piece name value ∧ value ≠ [] ∧
    ∀ earlier ∈ before, ∀ other, Holds earlier name other → other = []

variable {cookieName : String} {headers : List Http.Header}

theorem value?_eq_none_iff :
    value? name piece = none ↔ ∀ value, Holds piece name value → value = [] := by
  simp only [Option.eq_none_iff_forall_ne_some, ne_eq, value?_eq_some_iff, not_and_not_right]

theorem inCookies_eq_some_iff :
    inCookies cookieName headers = some value ↔ FirstCookie cookieName.toList headers value := by
  simp only [inCookies_eq_findSome?, List.findSome?_eq_some_iff, value?_eq_some_iff,
    value?_eq_none_iff, and_assoc, FirstCookie]

theorem inCookies_eq_none_iff :
    inCookies cookieName headers = none ↔ ¬ HasCookie cookieName.toList headers := by
  simp only [inCookies_eq_findSome?, List.findSome?_eq_none_iff, value?_eq_none_iff, HasCookie]
  push Not
  rfl

/-! ## The `Authorization` header -/

/-- The first `Authorization` header can be read and holds the token behind `Bearer `. -/
def InBearer (headers : List Http.Header) (token : List Char) : Prop :=
  ∃ before h after text rest, headers = before ++ h :: after ∧
    (∀ earlier ∈ before, earlier.isNamed "authorization" = false) ∧
    h.isNamed "authorization" = true ∧ Http.Header.text? h.value = some text ∧
    text.toList = "Bearer ".toList ++ rest ∧ Text.Trims rest token ∧ token ≠ []

theorem afterBearer?_eq_some_iff {text rest : List Char} :
    afterBearer? text = some rest ↔ text = "Bearer ".toList ++ rest := by
  simp only [afterBearer?]
  split
  · next starts =>
    obtain ⟨behind, rfl⟩ := List.isPrefixOf_iff_prefix.mp starts
    rw [List.drop_left, Option.some.injEq, List.append_cancel_left_eq]
  · next otherwise =>
    refine ⟨nofun, ?_⟩
    rintro rfl
    exact absurd (List.isPrefixOf_iff_prefix.mpr (List.prefix_append _ rest)) otherwise

theorem inAuthorization_eq_some_iff :
    inAuthorization headers = some value ↔ InBearer headers value := by
  constructor
  · intro found
    simp only [inAuthorization, bind, Option.bind_eq_some_iff] at found
    obtain ⟨h, first, text, read, rest, behind, kept⟩ := found
    obtain ⟨named, before, after, split, earlier⟩ := List.find?_eq_some_iff_append.mp first
    split at kept
    · cases kept
    · next nonempty =>
      cases kept
      refine ⟨before, h, after, text, rest, split, ?_, named, read,
        afterBearer?_eq_some_iff.mp behind, Text.trims_trim rest, by simpa using nonempty⟩
      exact fun e mem => by simpa using earlier e mem
  · rintro ⟨before, h, after, text, rest, split, earlier, named, read, behind, trims, nonempty⟩
    have first : headers.find? (·.isNamed "authorization") = some h :=
      List.find?_eq_some_iff_append.mpr ⟨named, before, after, split, by simpa using earlier⟩
    have rest? := afterBearer?_eq_some_iff.mpr behind
    simp [inAuthorization, first, read, rest?, trims.trim_eq, nonempty]

/-! ## Both together -/

theorem extract_eq_some_iff {token : Secret} :
    extract cookieName headers = some token ↔
      FirstCookie cookieName.toList headers token.expose.toList ∨
        ¬ HasCookie cookieName.toList headers ∧ InBearer headers token.expose.toList := by
  rw [← inCookies_eq_some_iff, ← inCookies_eq_none_iff, ← inAuthorization_eq_some_iff,
    ← Option.or_eq_some_iff, extract, Option.map_eq_some_iff]
  constructor
  · rintro ⟨value, found, rfl⟩
    simpa using found
  · exact fun found => ⟨_, found, by simp⟩

theorem hasCookie_of_firstCookie {name : List Char} (first : FirstCookie name headers value) :
    HasCookie name headers := by
  obtain ⟨before, piece, after, split, holds, nonempty, -⟩ := first
  exact ⟨piece, by simp [split], value, holds, nonempty⟩

/-! ## What makes no difference -/

/-- The piece says nothing about the cookie of that name. -/
def Idle (name piece : List Char) : Prop :=
  '=' ∉ piece ∨ ∃ other value, Holds piece other value ∧ (other ≠ name ∨ value = [])

def withPieces (h : Http.Header) (pieces : List (List Char)) : Http.Header :=
  { h with value := (String.ofList ([';'].intercalate pieces)).toUTF8 }

/-- One header, or one piece of a cookie header, is put in that says nothing about the token. -/
inductive Inserted (name : List Char) : List Http.Header → List Http.Header → Prop where
  | other {h : Http.Header} (before after : List Http.Header)
    (notCookie : h.isNamed "cookie" = false)
    (notAuthorization : h.isNamed "authorization" = false) :
    Inserted name (before ++ after) (before ++ h :: after)
  | unreadable {h : Http.Header} (before after : List Http.Header)
    (cookie : h.isNamed "cookie" = true) (broken : Http.Header.text? h.value = none) :
    Inserted name (before ++ after) (before ++ h :: after)
  | piece {h : Http.Header} {text : String} {front back : List (List Char)} {piece : List Char}
    (before after : List Http.Header) (cookie : h.isNamed "cookie" = true)
    (read : Http.Header.text? h.value = some text)
    (split : text.toList.splitOn ';' = front ++ back)
    (single : ';' ∉ piece) (readable : ∀ c ∈ piece, Http.Header.IsReadable c)
    (idle : Idle name piece) :
    Inserted name (before ++ h :: after)
      (before ++ withPieces h (front ++ piece :: back) :: after)

theorem value?_of_idle (idle : Idle name piece) : value? name piece = none := by
  rw [value?_eq_none_iff]
  intro value holds
  rcases idle with absent | ⟨other, found, holds', irrelevant⟩
  · obtain ⟨before, after, rfl, -⟩ := holds.trims.around
    exact absurd (by simp) absent
  · have same := (pair?_eq_some_iff.mpr holds').symm.trans (pair?_eq_some_iff.mpr holds)
    obtain ⟨rfl, rfl⟩ : other = name ∧ found = value := by simpa using same
    exact irrelevant.resolve_left fun differ => differ rfl

theorem eq_or_mem_of_mem_intercalate {separator c : Char} {pieces : List (List Char)}
    (mem : c ∈ [separator].intercalate pieces) : c = separator ∨ ∃ piece ∈ pieces, c ∈ piece := by
  induction pieces with
  | nil => cases mem
  | cons first pieces ih =>
      by_cases last : pieces = []
      · subst last
        rw [List.intercalate_singleton] at mem
        exact .inr ⟨first, List.mem_cons_self, mem⟩
      · rw [List.intercalate_cons_of_ne_nil last, List.append_assoc, List.mem_append,
          List.singleton_append, List.mem_cons] at mem
        rcases mem with here | same | later
        · exact .inr ⟨first, List.mem_cons_self, here⟩
        · exact .inl same
        · exact (ih later).imp_right fun ⟨piece, mem, within⟩ =>
            ⟨piece, List.mem_cons_of_mem first mem, within⟩

theorem mem_of_mem_piece {separator c : Char} {cs piece : List Char}
    (mem : piece ∈ cs.splitOn separator) (within : c ∈ piece) : c ∈ cs := by
  have joined : ∀ pieces : List (List Char), piece ∈ pieces →
      c ∈ [separator].intercalate pieces := by
    intro pieces mem
    induction pieces with
    | nil => cases mem
    | cons first pieces ih =>
        by_cases last : pieces = []
        · subst last
          rw [List.intercalate_singleton, ← List.mem_singleton.mp mem]
          exact within
        · rw [List.intercalate_cons_of_ne_nil last, List.append_assoc, List.mem_append]
          rcases List.mem_cons.mp mem with rfl | later
          · exact .inl within
          · exact .inr (List.mem_append_right _ (ih later))
  have inside := joined _ mem
  rwa [List.intercalate_splitOn] at inside

theorem cookiePieces_withPieces {h : Http.Header} {pieces : List (List Char)}
    (cookie : h.isNamed "cookie" = true) (some : pieces ≠ [])
    (apart : ∀ p ∈ pieces, ';' ∉ p)
    (readable : ∀ p ∈ pieces, ∀ c ∈ p, Http.Header.IsReadable c) :
    cookiePieces (withPieces h pieces) = pieces := by
  let text := String.ofList ([';'].intercalate pieces)
  have read : Http.Header.text? text.toUTF8 = .some text := by
    refine Http.Header.text?_eq_some_iff.mpr ⟨rfl, ?_⟩
    intro c mem
    rw [String.toList_ofList] at mem
    rcases eq_or_mem_of_mem_intercalate mem with rfl | ⟨p, mem, within⟩
    · exact .inr (by decide)
    · exact readable p mem c within
  have named : (withPieces h pieces).isNamed "cookie" = true := cookie
  rw [cookiePieces, if_pos named, withPieces, read, Option.elim_some, String.toList_ofList,
    List.splitOn_intercalate ';' apart some]

theorem cookiePieces_inserted {h : Http.Header} {text : String} {front back : List (List Char)}
    (cookie : h.isNamed "cookie" = true) (read : Http.Header.text? h.value = some text)
    (split : text.toList.splitOn ';' = front ++ back) (single : ';' ∉ piece)
    (readable : ∀ c ∈ piece, Http.Header.IsReadable c) :
    cookiePieces (withPieces h (front ++ piece :: back)) = front ++ piece :: back := by
  have old : ∀ p ∈ front ++ piece :: back, p = piece ∨ p ∈ text.toList.splitOn ';' := by
    intro p mem
    rw [split]
    simp only [List.mem_append, List.mem_cons] at mem ⊢
    tauto
  refine cookiePieces_withPieces cookie (by simp) (fun p mem => ?_) (fun p mem c within => ?_)
  · rcases old p mem with rfl | earlier
    · exact single
    · exact not_mem_of_mem_pieces (pieces_eq_splitOn ';' text.toList ▸ earlier)
  · rcases old p mem with rfl | earlier
    · exact readable c within
    · exact (Http.Header.text?_eq_some_iff.mp read).2 c (mem_of_mem_piece earlier within)

theorem inCookies_inserted {others : List Http.Header}
    (inserted : Inserted cookieName.toList headers others) :
    inCookies cookieName others = inCookies cookieName headers := by
  simp only [inCookies_eq_findSome?]
  cases inserted with
  | other before after notCookie => simp [cookiePieces, notCookie]
  | unreadable before after cookie broken => simp [cookiePieces, cookie, broken]
  | @piece h text front back piece before after cookie read split single readable idle =>
      have old : cookiePieces h = front ++ back := by simp [cookiePieces, cookie, read, split]
      have new := cookiePieces_inserted cookie read split single readable
      simp [old, new, value?_of_idle idle]

theorem notAuthorization_of_cookie {h : Http.Header} (cookie : h.isNamed "cookie" = true) :
    h.isNamed "authorization" = false := by
  simp only [Http.Header.isNamed, decide_eq_true_eq, decide_eq_false_iff_not] at cookie ⊢
  rw [cookie]
  decide

theorem inAuthorization_inserted {name : List Char} {others : List Http.Header}
    (inserted : Inserted name headers others) :
    inAuthorization others = inAuthorization headers := by
  have first : others.find? (·.isNamed "authorization") =
      headers.find? (·.isNamed "authorization") := by
    cases inserted with
    | other before after _ notAuthorization => simp [notAuthorization]
    | unreadable before after cookie => simp [notAuthorization_of_cookie cookie]
    | @piece h _ front back piece before after cookie =>
        have old := notAuthorization_of_cookie cookie
        have new : (withPieces h (front ++ piece :: back)).isNamed "authorization" = false := old
        simp [old, new]
  rw [inAuthorization, first]
  rfl

/-- Nothing is changed by what says nothing about the token, however often it is put in. -/
theorem extract_inserted {others : List Http.Header}
    (inserted : Relation.ReflTransGen (Inserted cookieName.toList) headers others) :
    extract cookieName others = extract cookieName headers := by
  induction inserted with
  | refl => rfl
  | tail _ last ih =>
      rw [← ih, extract, extract, inCookies_inserted last, inAuthorization_inserted last]

/-! ## Main result -/

/-- The first cookie of the name with a value that is not empty gives the token, whatever the
`Authorization` headers are. Where no cookie does, the token is what the first `Authorization`
header holds behind `Bearer `, and there is none if it holds nothing there. Headers of other names,
unreadable cookie headers and other cookies can be put in anywhere without a difference. -/
theorem first_cookie_wins (cookieName : String) (headers : List Http.Header) :
    let name := cookieName.toList
    (HasCookie name headers →
        ∃ value, FirstCookie name headers value ∧
          extract cookieName headers = some ⟨.ofList value⟩) ∧
      (¬ HasCookie name headers → ∀ token, extract cookieName headers = some token ↔
        InBearer headers token.expose.toList) ∧
      ∀ others, Relation.ReflTransGen (Inserted name) headers others →
        extract cookieName others = extract cookieName headers := by
  intro name
  refine ⟨?cookie, ?bearer, fun others => extract_inserted⟩
  case cookie =>
    intro has
    cases found : inCookies cookieName headers with
    | none => exact absurd has (inCookies_eq_none_iff.mp found)
    | some value =>
        have first := inCookies_eq_some_iff.mp found
        refine ⟨value, first, extract_eq_some_iff.mpr (.inl ?_)⟩
        rw [String.toList_ofList]
        exact first
  case bearer =>
    intro none token
    rw [extract_eq_some_iff]
    constructor
    · rintro (first | ⟨-, bearer⟩)
      · exact absurd (hasCookie_of_firstCookie first) none
      · exact bearer
    · exact fun bearer => .inr ⟨none, bearer⟩

/-- A name ends before the first `=`, an empty value does not count, and a value may hold an `=`. With
no cookie left the other header is read. -/
theorem first_cookie_wins_second_header :
    let bare : List Http.Header :=
      [⟨"Authorization", "Bearer b ".toUTF8⟩, ⟨"Cookie", "t=; t =0".toUTF8⟩]
    let headers : List Http.Header := bare ++ [⟨"cookie", " t=a=1; t=c".toUTF8⟩]
    let others : List Http.Header := ⟨"X-Cookie", "t=z".toUTF8⟩ :: headers
    HasCookie "t".toList headers ∧ extract "t" headers = some ⟨"a=1"⟩ ∧
      FirstCookie "t".toList headers "a=1".toList ∧
      extract "t" others = some ⟨"a=1"⟩ ∧
      ¬ HasCookie "t".toList bare ∧ extract "t" bare = some ⟨"b"⟩ ∧ InBearer bare "b".toList := by
  intro bare headers others
  have has : HasCookie "t".toList headers := by
    by_contra none
    exact absurd (inCookies_eq_none_iff.mpr none) (by decide +kernel)
  have none : ¬ HasCookie "t".toList bare := inCookies_eq_none_iff.mp (by decide +kernel)
  obtain ⟨cookie, -, inserted⟩ := first_cookie_wins "t" headers
  obtain ⟨-, bearer, -⟩ := first_cookie_wins "t" bare
  have token : extract "t" headers = some ⟨"a=1"⟩ := by decide +kernel
  have token' : extract "t" bare = some ⟨"b"⟩ := by decide +kernel
  obtain ⟨value, first, extracted⟩ := cookie has
  obtain rfl : value = "a=1".toList := by
    have same := Secret.mk.inj (Option.some.inj (extracted.symm.trans token))
    rw [← same, String.toList_ofList]
  have step : Inserted "t".toList headers others :=
    .other [] headers (by decide +kernel) (by decide +kernel)
  exact ⟨has, token, first, (inserted others (.single step)).trans token, none, token',
    (bearer none ⟨"b"⟩).mp token'⟩

end Gatehouse.Token
