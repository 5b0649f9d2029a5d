import Gatehouse.Json
import Gatehouse.Proofs.Json.Numeral

/-! # Every JSON text is read

Which texts are JSON (RFC 8259) and which value each of them stands for is said first, without regard
to how they are read. The reader takes each of them. -/

/-! ## The grammar -/

namespace Gatehouse.Json

def Blank (cs : List Char) : Prop := ∀ c ∈ cs, isSpace c = true

theorem blank_nil : Blank [] := List.forall_mem_nil _

/-! ### String literals -/

inductive WritesPiece : List Char → Piece → Prop where
  | plain {c : Char} (notQuote : c ≠ '"') (notBackslash : c ≠ '\\') (printable : 0x20 ≤ c.toNat) :
    WritesPiece [c] (.char c)
  | short {c d : Char} (escape : simpleEscape? c = some d) : WritesPiece ['\\', c] (.char d)
  | code {a b c d : Char} {i j k l : Nat} (first : Text.hexDigit? a = some i)
    (second : Text.hexDigit? b = some j) (third : Text.hexDigit? c = some k)
    (fourth : Text.hexDigit? d = some l) :
    WritesPiece ['\\', 'u', a, b, c, d] (.ofCode (((i * 16 + j) * 16 + k) * 16 + l))

/-- The text of the pieces, in which every half of a surrogate pair has the other half. -/
inductive Spells : List Piece → List Char → Prop where
  | nil : Spells [] []
  | char {pieces : List Piece} {cs : List Char} (c : Char) (rest : Spells pieces cs) :
    Spells (.char c :: pieces) (c :: cs)
  | pair {pieces : List Piece} {cs : List Char} {high low : Nat} {c : Char}
    (joined : joinHalves? high low = some c) (rest : Spells pieces cs) :
    Spells (.half high :: .half low :: pieces) (c :: cs)

theorem Spells.append {pieces others : List Piece} {cs ds : List Char} (front : Spells pieces cs)
    (back : Spells others ds) : Spells (pieces ++ others) (cs ++ ds) := by
  induction front with
  | nil => exact back
  | char c rest ih => exact .char c ih
  | pair joined rest ih => exact .pair joined ih

theorem Spells.joinPieces {pieces : List Piece} {cs : List Char} (spells : Spells pieces cs)
    (earlier : List Piece) (text : List Char) :
    joinPieces (pieces.reverse ++ earlier) text = joinPieces earlier (cs ++ text) := by
  induction spells generalizing earlier with
  | nil => rfl
  | @char pieces cs c rest ih =>
      rw [List.reverse_cons, List.append_assoc, ih]
      rfl
  | @pair pieces cs high low c joined rest ih =>
      rw [List.reverse_cons, List.reverse_cons, List.append_assoc, List.append_assoc, ih]
      simp [Json.joinPieces, joined]

theorem spells_of_joinPieces {pieces : List Piece} {text cs : List Char}
    (joined : joinPieces pieces text = some cs) :
    ∃ front, cs = front ++ text ∧ Spells pieces.reverse front := by
  fun_induction joinPieces pieces text with
  | case1 text => exact ⟨[], (Option.some.inj joined).symm, .nil⟩
  | case2 c pieces text ih =>
      obtain ⟨front, rfl, spells⟩ := ih joined
      refine ⟨front ++ [c], by simp, ?_⟩
      rw [List.reverse_cons]
      exact spells.append (.char c .nil)
  | case3 low high pieces text ih =>
      obtain ⟨c, pair, joined⟩ := Option.bind_eq_some_iff.mp joined
      obtain ⟨front, rfl, spells⟩ := ih c joined
      refine ⟨front ++ [c], by simp, ?_⟩
      rw [List.reverse_cons, List.reverse_cons, List.append_assoc]
      exact spells.append (.pair pair .nil)
  | case4 => cases joined
  | case5 => cases joined

theorem spells_iff {pieces : List Piece} {cs : List Char} :
    Spells pieces cs ↔ joinPieces pieces.reverse [] = some cs := by
  constructor
  · intro spells
    have joined := spells.joinPieces [] []
    rwa [List.append_nil, List.append_nil, joinPieces] at joined
  · intro joined
    obtain ⟨front, rfl, spells⟩ := spells_of_joinPieces joined
    rwa [List.reverse_reverse, ← List.append_nil front] at spells

theorem Spells.unique {pieces : List Piece} {cs ds : List Char} (one : Spells pieces cs)
    (other : Spells pieces ds) : cs = ds :=
  Option.some.inj ((spells_iff.mp one).symm.trans (spells_iff.mp other))

inductive WritesLiteral : List Char → Literal → Prop where
  | mk {parts : List (List Char × Piece)} {literal : Literal}
    (pieces : ∀ p ∈ parts, WritesPiece p.1 p.2)
    (text : ∀ s, literal = some s ↔ Spells (parts.map (·.2)) s.toList) :
    WritesLiteral ('"' :: (parts.flatMap (·.1) ++ ['"'])) literal

/-! ### Values -/

structure WrittenMember where
  spelledName : List Char
  name : Literal
  spelledValue : List Char
  value : Json

def WrittenMember.text (m : WrittenMember) : List Char := m.spelledName ++ ':' :: m.spelledValue

inductive WritesName : List Char → Literal → Prop where
  | mk {before cs after : List Char} {name : Literal} (blankBefore : Blank before)
    (blankAfter : Blank after) (written : WritesLiteral cs name) :
    WritesName (before ++ (cs ++ after)) name

/-- The texts that stand for a value. -/
inductive Writes : List Char → Json → Prop where
  | null : Writes ['n', 'u', 'l', 'l'] .null
  | true : Writes ['t', 'r', 'u', 'e'] (.bool true)
  | false : Writes ['f', 'a', 'l', 's', 'e'] (.bool false)
  | number {cs : List Char} (numeral : IsNumeral cs) : Writes cs (.number cs)
  | string {cs : List Char} {literal : Literal} (written : WritesLiteral cs literal) :
    Writes cs (.string literal)
  | emptyArray {blank : List Char} (isBlank : Blank blank) :
    Writes ('[' :: (blank ++ [']'])) (.array [])
  | array {first : List Char × Json} {others : List (List Char × Json)}
    (all : ∀ p ∈ first :: others, Writes p.1 p.2) :
    Writes ('[' :: (first.1 ++ (others.flatMap (',' :: ·.1) ++ [']'])))
      (.array ((first :: others).map (·.2)))
  | emptyObject {blank : List Char} (isBlank : Blank blank) :
    Writes ('{' :: (blank ++ ['}'])) (.object [])
  | object {first : WrittenMember} {others : List WrittenMember}
    (names : ∀ m ∈ first :: others, WritesName m.spelledName m.name)
    (values : ∀ m ∈ first :: others, Writes m.spelledValue m.value) :
    Writes ('{' :: (first.text ++ (others.flatMap (',' :: ·.text) ++ ['}'])))
      (.object ((first :: others).map fun m => (m.name, m.value)))
  | padded {before cs after : List Char} {v : Json} (blankBefore : Blank before)
    (blankAfter : Blank after) (inside : Writes cs v) : Writes (before ++ (cs ++ after)) v

/-! ## The reader

The reader takes the text of a value and stands where it would stand if the value were handed to the
innermost open container. Only a number is not at its end before something else follows. -/

namespace Reader

variable {expected : Expected} {outer : List Container} {cs : List Char} {v : Json}

/-! ### Runs -/

@[simp]
theorem run_nil (r : Reader) : r.run [] = some r := rfl

@[simp]
theorem run_cons (r : Reader) (c : Char) (cs : List Char) :
    r.run (c :: cs) = (r.step c).bind (·.run cs) := rfl

@[simp]
theorem run_append (r : Reader) (cs ds : List Char) :
    r.run (cs ++ ds) = (r.run cs).bind (·.run ds) := List.foldlM_append

theorem run_blank (blank : Blank cs) (expected : Expected) (outer : List Container) :
    run ⟨expected, .between, outer⟩ cs = some ⟨expected, .between, outer⟩ := by
  induction cs with
  | nil => rfl
  | cons c cs ih =>
      obtain ⟨space, blank⟩ := List.forall_mem_cons.mp blank
      have stays : step ⟨expected, .between, outer⟩ c = some ⟨expected, .between, outer⟩ :=
        if_pos space
      rw [run_cons, stays, Option.bind_some, ih blank]

/-! ### String literals -/

theorem run_piece {p : Piece} (written : WritesPiece cs p) (pieces : List Piece) :
    run ⟨expected, .string pieces .outside, outer⟩ cs =
      some ⟨expected, .string (p :: pieces) .outside, outer⟩ := by
  cases written with
  | plain notQuote notBackslash printable =>
      simp [step, stepString, notQuote, notBackslash, printable]
  | @short c d escape =>
      have other : c ≠ 'u' := by
        rintro rfl
        cases escape
      simp [step, stepString, other, escape]
  | code first second third fourth =>
      simp [step, stepString, first, second, third, fourth]

theorem run_pieces {parts : List (List Char × Piece)} (written : ∀ p ∈ parts, WritesPiece p.1 p.2)
    (pieces : List Piece) :
    run ⟨expected, .string pieces .outside, outer⟩ (parts.flatMap (·.1)) =
      some ⟨expected, .string ((parts.map (·.2)).reverse ++ pieces) .outside, outer⟩ := by
  induction parts generalizing pieces with
  | nil => rfl
  | cons p parts ih =>
      obtain ⟨first, written⟩ := List.forall_mem_cons.mp written
      rw [List.flatMap_cons, run_append, run_piece first, Option.bind_some, ih written]
      simp

theorem run_literal {literal : Literal} (written : WritesLiteral cs literal) (expected : Expected)
    (outer : List Container) :
    ∃ body pieces, cs = '"' :: body ∧ (joinPieces pieces []).map String.ofList = literal ∧
      run ⟨expected, .string [] .outside, outer⟩ body =
        some (closeString expected pieces outer) := by
  cases written with
  | @mk parts _ written text =>
      refine ⟨_, (parts.map (·.2)).reverse ++ [], rfl, ?_, ?_⟩
      · rw [List.append_nil]
        cases joined : joinPieces (parts.map (·.2)).reverse [] with
        | none =>
            cases literal with
            | none => rfl
            | some s =>
                rw [spells_iff.mp ((text s).mp rfl)] at joined
                cases joined
        | some cs =>
            have spells := spells_iff.mpr joined
            rw [← String.toList_ofList (l := cs)] at spells
            exact ((text _).mpr spells).symm
      · rw [run_append, run_pieces written, Option.bind_some]
        rfl

/-! ### Numbers -/

theorem openValue_of_start {c : Char} {first : NumberPhase}
    (starts : NumberPhase.start c = some first) (outer : List Container) :
    openValue c outer = some ⟨.value, .number first [c], outer⟩ := by
  have other : ∀ d, NumberPhase.start d = none → c ≠ d := by
    rintro d none rfl
    rw [none] at starts
    cases starts
  simp [openValue, starts, other '[' rfl, other '{' rfl, other '"' rfl, other 't' rfl,
    other 'f' rfl, other 'n' rfl]

theorem isSpace_of_start {c : Char} {first : NumberPhase}
    (starts : NumberPhase.start c = some first) : isSpace c = false := by
  cases space : isSpace c with
  | false => rfl
  | true =>
      simp only [isSpace, Bool.or_eq_true, decide_eq_true_eq] at space
      rcases space with ((rfl | rfl) | rfl) | rfl <;> cases starts

theorem run_number {first last : NumberPhase} {cs : List Char}
    (goes : cs.foldlM NumberPhase.next first = some last) (spelling : List Char)
    (outer : List Container) :
    run ⟨.value, .number first spelling, outer⟩ cs =
      some ⟨.value, .number last (cs.reverse ++ spelling), outer⟩ := by
  induction cs generalizing first spelling with
  | nil =>
      cases goes
      rfl
  | cons c cs ih =>
      rw [List.foldlM_cons] at goes
      cases next : first.next c with
      | none =>
          rw [next] at goes
          cases goes
      | some phase =>
          rw [next] at goes
          have more := ih goes (c :: spelling)
          simp only [run_cons, step, next, Option.bind_some, more]
          simp

/-! ### Values -/

/-- The reader has read a value into the open containers. Whether a number is at its end shows
only later. -/
inductive HasRead (outer : List Container) : Json → Reader → Prop where
  | delivered (value : Json) : HasRead outer value (deliver value outer)
  | number {phase : NumberPhase} {spelling : List Char} (ends : phase.isFinal = true) :
    HasRead outer (.number spelling) ⟨.value, .number phase spelling.reverse, outer⟩

def isDelimiter (c : Char) : Bool := isSpace c || c = ',' || c = ']' || c = '}'

theorem isDelimiter_of_isSpace {c : Char} (space : isSpace c = true) : isDelimiter c = true := by
  simp [isDelimiter, space]

theorem next_delimiter {c : Char} (delimiter : isDelimiter c = true) (phase : NumberPhase) :
    phase.next c = none := by
  simp only [isDelimiter, isSpace, Bool.or_eq_true, decide_eq_true_eq] at delimiter
  rcases delimiter with (((((rfl | rfl) | rfl) | rfl) | rfl) | rfl) | rfl <;>
    cases phase <;> decide

theorem step_deliver (v : Json) (outer : List Container) (c : Char) :
    (deliver v outer).step c =
      stepBetween (deliver v outer).expected (deliver v outer).outer c := by
  cases outer with
  | nil => rfl
  | cons container outer => cases container <;> rfl

/-- A delimiter is taken after a number as it is taken after any other value. -/
theorem HasRead.step_delimiter {r : Reader} {c : Char} (h : HasRead outer v r)
    (delimiter : isDelimiter c = true) : r.step c = (deliver v outer).step c := by
  cases h with
  | delivered => rfl
  | @number phase spelling ends =>
      rw [step_deliver]
      simp [step, next_delimiter delimiter, ends]

theorem HasRead.run_blank {r : Reader} (h : HasRead outer v r) (blank : Blank cs) :
    ∃ r', r.run cs = some r' ∧ HasRead outer v r' := by
  cases cs with
  | nil => exact ⟨r, rfl, h⟩
  | cons c cs =>
      obtain ⟨space, blank'⟩ := List.forall_mem_cons.mp blank
      have first : r.run (c :: cs) = (deliver v outer).run (c :: cs) := by
        rw [run_cons, h.step_delimiter (isDelimiter_of_isSpace space), run_cons]
      refine ⟨_, ?_, .delivered v⟩
      rw [first]
      cases outer with
      | nil => exact Reader.run_blank blank _ _
      | cons container outer => cases container <;> exact Reader.run_blank blank _ _

theorem HasRead.finish {r : Reader} (h : HasRead [] v r) : r.finish = some v := by
  cases h with
  | delivered => rfl
  | number ends => simp [Reader.finish, ends]

/-- The text is read as the value wherever a value may stand. -/
def Reads (cs : List Char) (v : Json) : Prop :=
  ∀ outer, ∃ r, run ⟨.value, .between, outer⟩ cs = some r ∧ HasRead outer v r

theorem reads_number (numeral : IsNumeral cs) : Reads cs (.number cs) := by
  intro outer
  cases isNumber_iff.mpr numeral with
  | @mk c cs first last starts goes ends =>
      have opened : step ⟨.value, .between, outer⟩ c = some ⟨.value, .number first [c], outer⟩ := by
        simp [step, stepBetween, isSpace_of_start starts, openValue_of_start starts]
      refine ⟨⟨.value, .number last (c :: cs).reverse, outer⟩, ?_, .number ends⟩
      rw [run_cons, opened, Option.bind_some, run_number goes, List.reverse_cons]

theorem reads_string {literal : Literal} (written : WritesLiteral cs literal) :
    Reads cs (.string literal) := by
  intro outer
  obtain ⟨body, pieces, rfl, joined, closed⟩ := run_literal written .value outer
  refine ⟨_, ?_, .delivered _⟩
  have opened : step ⟨.value, .between, outer⟩ '"' =
      some ⟨.value, .string [] .outside, outer⟩ := rfl
  have delivered : closeString .value pieces outer = deliver (.string literal) outer := by
    rw [← joined]
    rfl
  rw [run_cons, opened, Option.bind_some, closed, delivered]

theorem reads_padded {before after : List Char} (blankBefore : Blank before)
    (blankAfter : Blank after) (reads : Reads cs v) : Reads (before ++ (cs ++ after)) v := by
  intro outer
  obtain ⟨r, ran, read⟩ := reads outer
  obtain ⟨r', ran', read'⟩ := read.run_blank blankAfter
  refine ⟨r', ?_, read'⟩
  rw [run_append, run_blank blankBefore, Option.bind_some, run_append, ran, Option.bind_some, ran']

/-! ### Arrays -/

theorem reads_emptyArray (blank : Blank cs) : Reads ('[' :: (cs ++ [']'])) (.array []) := by
  intro outer
  have opened : step ⟨.value, .between, outer⟩ '[' = some ⟨.firstItem, .between, outer⟩ := rfl
  have closed : run ⟨.firstItem, .between, outer⟩ [']'] = some (deliver (.array []) outer) := rfl
  refine ⟨_, ?_, .delivered _⟩
  rw [run_cons, opened, Option.bind_some, run_append, run_blank blank, Option.bind_some, closed]

theorem exists_blank_append (written : Writes cs v) :
    ∃ blank c rest, cs = blank ++ c :: rest ∧ Blank blank ∧ isSpace c = false ∧ c ≠ ']' := by
  induction written with
  | null | true | false => exact ⟨[], _, _, rfl, blank_nil, rfl, by decide⟩
  | emptyArray | array | emptyObject | object =>
      exact ⟨[], _, _, rfl, blank_nil, rfl, by decide⟩
  | number numeral =>
      cases isNumber_iff.mpr numeral with
      | @mk c cs first last starts goes ends =>
          refine ⟨[], c, cs, rfl, blank_nil, isSpace_of_start starts, ?_⟩
          rintro rfl
          cases starts
  | string written =>
      cases written
      exact ⟨[], _, _, rfl, blank_nil, rfl, by decide⟩
  | @padded before cs after v blankBefore _ _ ih =>
      obtain ⟨blank, c, rest, rfl, isBlank, notSpace, notEnd⟩ := ih
      refine ⟨before ++ blank, c, rest ++ after, by simp, ?_, notSpace, notEnd⟩
      exact List.forall_mem_append.mpr ⟨blankBefore, isBlank⟩

theorem run_firstItem (written : Writes cs v) (outer : List Container) :
    run ⟨.firstItem, .between, outer⟩ cs = run ⟨.value, .between, .array [] :: outer⟩ cs := by
  obtain ⟨blank, c, rest, rfl, isBlank, notSpace, notEnd⟩ := exists_blank_append written
  rw [run_append, run_append, run_blank isBlank, run_blank isBlank]
  simp [step, stepBetween, notSpace, notEnd]

theorem run_items {items : List (List Char × Json)} (all : ∀ p ∈ items, Reads p.1 p.2)
    {done : List Json} {r : Reader} (h : HasRead (.array done :: outer) v r) :
    run r (items.flatMap (',' :: ·.1) ++ [']']) =
      some (deliver (.array (done.reverse ++ v :: items.map (·.2))) outer) := by
  induction items generalizing done v r with
  | nil =>
      have closed : r.step ']' = some (deliver (.array (v :: done).reverse) outer) :=
        h.step_delimiter rfl
      rw [List.flatMap_nil, List.nil_append, run_cons, closed, List.reverse_cons]
      rfl
  | cons item items ih =>
      obtain ⟨reads, all⟩ := List.forall_mem_cons.mp all
      have comma : r.step ',' = some ⟨.value, .between, .array (v :: done) :: outer⟩ :=
        h.step_delimiter rfl
      obtain ⟨r', ran, read⟩ := reads (.array (v :: done) :: outer)
      have rest := ih all read
      rw [List.flatMap_cons, List.append_assoc, List.cons_append, run_cons, comma, Option.bind_some,
        run_append, ran, Option.bind_some, rest, List.reverse_cons, List.append_assoc]
      rfl

theorem reads_array {first : List Char × Json} {others : List (List Char × Json)}
    (written : Writes first.1 first.2) (all : ∀ p ∈ first :: others, Reads p.1 p.2) :
    Reads ('[' :: (first.1 ++ (others.flatMap (',' :: ·.1) ++ [']'])))
      (.array ((first :: others).map (·.2))) := by
  intro outer
  obtain ⟨reads, all⟩ := List.forall_mem_cons.mp all
  have opened : step ⟨.value, .between, outer⟩ '[' = some ⟨.firstItem, .between, outer⟩ := rfl
  obtain ⟨r, ran, read⟩ := reads (.array [] :: outer)
  refine ⟨_, ?_, .delivered _⟩
  rw [run_cons, opened, Option.bind_some, run_append, run_firstItem written, ran, Option.bind_some,
    run_items all read]
  rfl

/-! ### Objects -/

theorem reads_emptyObject (blank : Blank cs) : Reads ('{' :: (cs ++ ['}'])) (.object []) := by
  intro outer
  have opened : step ⟨.value, .between, outer⟩ '{' = some ⟨.firstName, .between, outer⟩ := rfl
  have closed : run ⟨.firstName, .between, outer⟩ ['}'] = some (deliver (.object []) outer) := rfl
  refine ⟨_, ?_, .delivered _⟩
  rw [run_cons, opened, Option.bind_some, run_append, run_blank blank, Option.bind_some, closed]

theorem run_name {done : List (Literal × Json)} {name : Literal}
    (opens : stepBetween expected outer '"' = some ⟨.name done, .string [] .outside, outer⟩)
    (written : WritesName cs name) :
    run ⟨expected, .between, outer⟩ cs = some ⟨.colon done name, .between, outer⟩ := by
  cases written with
  | @mk before cs after _ blankBefore blankAfter written =>
      obtain ⟨body, pieces, rfl, joined, closed⟩ := run_literal written (.name done) outer
      have opened : step ⟨expected, .between, outer⟩ '"' =
          some ⟨.name done, .string [] .outside, outer⟩ := opens
      have named : closeString (.name done) pieces outer = ⟨.colon done name, .between, outer⟩ := by
        rw [← joined]
        rfl
      rw [run_append, run_blank blankBefore, Option.bind_some, run_append, run_cons, opened,
        Option.bind_some, closed, Option.bind_some, named, run_blank blankAfter]

theorem run_member {done : List (Literal × Json)}
    (opens : stepBetween expected outer '"' = some ⟨.name done, .string [] .outside, outer⟩)
    {m : WrittenMember} (written : WritesName m.spelledName m.name)
    (reads : Reads m.spelledValue m.value) :
    ∃ r, run ⟨expected, .between, outer⟩ m.text = some r ∧
      HasRead (.object done m.name :: outer) m.value r := by
  obtain ⟨r, ran, read⟩ := reads (.object done m.name :: outer)
  refine ⟨r, ?_, read⟩
  have colon : step ⟨.colon done m.name, .between, outer⟩ ':' =
      some ⟨.value, .between, .object done m.name :: outer⟩ := rfl
  rw [WrittenMember.text, run_append, run_name opens written, Option.bind_some, run_cons, colon,
    Option.bind_some, ran]

theorem run_members {members : List WrittenMember}
    (names : ∀ m ∈ members, WritesName m.spelledName m.name)
    (values : ∀ m ∈ members, Reads m.spelledValue m.value)
    {done : List (Literal × Json)} {name : Literal} {r : Reader}
    (h : HasRead (.object done name :: outer) v r) :
    run r (members.flatMap (',' :: ·.text) ++ ['}']) =
      some (deliver (.object (done.reverse ++ (name, v) :: members.map fun m => (m.name, m.value)))
        outer) := by
  induction members generalizing done name v r with
  | nil =>
      have closed : r.step '}' = some (deliver (.object ((name, v) :: done).reverse) outer) :=
        h.step_delimiter rfl
      rw [List.flatMap_nil, List.nil_append, run_cons, closed, List.reverse_cons]
      rfl
  | cons member members ih =>
      obtain ⟨written, names⟩ := List.forall_mem_cons.mp names
      obtain ⟨reads, values⟩ := List.forall_mem_cons.mp values
      have comma : r.step ',' = some ⟨.name ((name, v) :: done), .between, outer⟩ :=
        h.step_delimiter rfl
      have opens : stepBetween (.name ((name, v) :: done)) outer '"' =
          some ⟨.name ((name, v) :: done), .string [] .outside, outer⟩ := rfl
      obtain ⟨r', ran, read⟩ := run_member opens written reads
      have rest := ih names values read
      rw [List.flatMap_cons, List.append_assoc, List.cons_append, run_cons, comma, Option.bind_some,
        run_append, ran, Option.bind_some, rest, List.reverse_cons, List.append_assoc]
      rfl

theorem reads_object {first : WrittenMember} {others : List WrittenMember}
    (names : ∀ m ∈ first :: others, WritesName m.spelledName m.name)
    (values : ∀ m ∈ first :: others, Reads m.spelledValue m.value) :
    Reads ('{' :: (first.text ++ (others.flatMap (',' :: ·.text) ++ ['}'])))
      (.object ((first :: others).map fun m => (m.name, m.value))) := by
  intro outer
  obtain ⟨written, names⟩ := List.forall_mem_cons.mp names
  obtain ⟨reads, values⟩ := List.forall_mem_cons.mp values
  have opened : step ⟨.value, .between, outer⟩ '{' = some ⟨.firstName, .between, outer⟩ := rfl
  have opens : stepBetween .firstName outer '"' =
      some ⟨.name [], .string [] .outside, outer⟩ := rfl
  obtain ⟨r, ran, read⟩ := run_member opens written reads
  refine ⟨_, ?_, .delivered _⟩
  rw [run_cons, opened, Option.bind_some, run_append, ran, Option.bind_some,
    run_members names values read]
  rfl

end Reader

/-! ### Texts -/

theorem Writes.reads {cs : List Char} {v : Json} (written : Writes cs v) : Reader.Reads cs v := by
  induction written with
  | null | true | false => exact fun outer => ⟨_, rfl, .delivered _⟩
  | number numeral => exact Reader.reads_number numeral
  | string written => exact Reader.reads_string written
  | emptyArray blank => exact Reader.reads_emptyArray blank
  | array all ih => exact Reader.reads_array (all _ List.mem_cons_self) ih
  | emptyObject blank => exact Reader.reads_emptyObject blank
  | object names values ih => exact Reader.reads_object names ih
  | padded blankBefore blankAfter inside ih => exact Reader.reads_padded blankBefore blankAfter ih

/-- Every JSON text is read, and as the value that it stands for. -/
theorem read?_of_writes {text : String} {v : Json} (written : Writes text.toList v) :
    read? text = some v := by
  obtain ⟨r, ran, read⟩ := written.reads []
  rw [read?, Reader.start, ran, Option.bind_some, read.finish]

end Gatehouse.Json
