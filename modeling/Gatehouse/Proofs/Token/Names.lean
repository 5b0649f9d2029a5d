import Gatehouse.Client
import Gatehouse.Proofs.Text
import Gatehouse.Proofs.Token

/-! # Cookies that are found and cookies that are sent

Not every cookie name that is accepted can be found, and not every token that is found is sent on as
one cookie. -/

namespace Gatehouse

/-! ## Usable cookie names

The configuration also accepts names with characters that no readable header can hold. Cookies of
such a name are never found, while those of all other names are found as they are. -/

namespace Text

theorem isBlank_of_visible {c : Char} (h : '!' ≤ c ∧ c ≤ '~') : isBlank c = false := by
  have low : 33 ≤ c.toNat := h.1
  have high : c.toNat ≤ 126 := h.2
  simp only [isBlank, inRanges, blankRanges, List.any_cons, List.any_nil, Bool.or_eq_false_iff,
    Bool.and_eq_false_iff, decide_eq_false_iff_not, and_true]
  omega

theorem visible_of_ne_space {c : Char} (printable : ' ' ≤ c ∧ c ≤ '~') (other : c ≠ ' ') :
    '!' ≤ c ∧ c ≤ '~' := by
  refine ⟨?_, printable.2⟩
  have least : 32 ≤ c.toNat := printable.1
  have notSpace : c.toNat ≠ 32 := fun space => other (Char.toNat_inj.mp space)
  exact (by omega : 33 ≤ c.toNat)

theorem visible_of_isReadable {c : Char} (readable : Http.Header.IsReadable c)
    (solid : isBlank c = false) : '!' ≤ c ∧ c ≤ '~' := by
  rcases readable with rfl | printable
  · exact absurd solid (by decide)
  · refine visible_of_ne_space printable ?_
    rintro rfl
    exact absurd solid (by decide)

end Text

namespace Token

variable {name : List Char} {headers : List Http.Header}

theorem isReadable_of_hasCookie (has : HasCookie name headers) :
    ∀ c ∈ name, Http.Header.IsReadable c := by
  obtain ⟨piece, mem, value, holds, -⟩ := has
  obtain ⟨h, -, mem⟩ := List.mem_flatMap.mp mem
  obtain ⟨before, after, rfl, -⟩ := holds.trims.around
  unfold cookiePieces at mem
  split at mem
  · cases read : Http.Header.text? h.value with
    | none =>
        rw [read] at mem
        cases mem
    | some text =>
        rw [read, Option.elim_some] at mem
        intro c within
        refine (Http.Header.text?_eq_some_iff.mp read).2 c (mem_of_mem_piece mem ?_)
        simp [within]
  · cases mem

theorem not_hasCookie_of_not_visible {cookieName : String} (isName : IsName cookieName.toList)
    (hidden : ¬ Text.Visible cookieName) : ¬ HasCookie cookieName.toList headers := by
  intro has
  refine hidden fun c mem => ?_
  exact Text.visible_of_isReadable (isReadable_of_hasCookie has c mem) (isName.solid c mem)

theorem firstCookie_of_visible {cookieName : String} {token : List Char} {h : Http.Header}
    (isName : IsName cookieName.toList) (visible : Text.Visible cookieName)
    (cookie : h.isNamed "cookie" = true)
    (bytes : h.value = (String.ofList (written cookieName.toList token)).toUTF8)
    (nonempty : token ≠ []) (printable : ∀ c ∈ token, ' ' ≤ c ∧ c ≤ '~') (single : ';' ∉ token)
    (last : token.getLast? ≠ some ' ') : FirstCookie cookieName.toList [h] token := by
  have read : Http.Header.text? h.value = some (.ofList (written cookieName.toList token)) := by
    refine Http.Header.text?_eq_some_iff.mpr ⟨bytes, fun c mem => ?_⟩
    rw [String.toList_ofList, written, List.mem_append, List.mem_cons] at mem
    rcases mem with inName | rfl | inToken
    · obtain ⟨low, high⟩ := visible c inName
      exact .inr ⟨Char.le_trans (by decide) low, high⟩
    · exact .inr (by decide)
    · exact .inr (printable c inToken)
  have whole : ';' ∉ written cookieName.toList token := by
    simp [written, isName.semicolon, single]
  have pieces : [h].flatMap cookiePieces = [] ++ written cookieName.toList token :: [] := by
    simp [cookiePieces, cookie, read, List.splitOn_eq_singleton whole]
  have solid : ∀ c ∈ token.getLast?, Text.isBlank c = false := by
    intro c isLast
    have other : c ≠ ' ' := by
      rintro rfl
      exact last isLast
    exact Text.isBlank_of_visible
      (Text.visible_of_ne_space (printable c (List.mem_of_getLast? isLast)) other)
  have trimmed : Text.trimEnd token = token :=
    Text.rdropWhile_eq_iff.mpr ⟨⟨[], by simp, List.forall_mem_nil _⟩, solid⟩
  have holds : Holds (written cookieName.toList token) cookieName.toList token := by
    rw [← pair?_eq_some_iff, pair?_written isName, trimmed]
  exact ⟨[], _, [], pieces, holds, nonempty, List.forall_mem_nil _⟩

/-- Of the names that the configuration accepts, just those of visible ASCII characters can be used:
a cookie of such a name is found, whatever printable token is in it. With any other name no request
whatsoever holds a cookie that is found. -/
theorem cookie_found_iff_visible {vars : Variables} {config : Configuration} {token : String}
    {h : Http.Header} (loaded : Configuration.load vars = .ok config)
    (cookie : h.isNamed "cookie" = true)
    (bytes : h.value = (config.cookieName ++ "=" ++ token).toUTF8) (nonempty : token ≠ "")
    (printable : ∀ c ∈ token.toList, ' ' ≤ c ∧ c ≤ '~') (single : ';' ∉ token.toList)
    (last : token.toList.getLast? ≠ some ' ') :
    (extract config.cookieName [h] = some ⟨token⟩ ↔ Text.Visible config.cookieName) ∧
      (¬ Text.Visible config.cookieName →
        ∀ headers, inCookies config.cookieName headers = none) := by
  have isName := isName_of_load loaded
  have hiddenNone : ¬ Text.Visible config.cookieName →
      ∀ headers, inCookies config.cookieName headers = none :=
    fun hidden _ => inCookies_eq_none_iff.mpr (not_hasCookie_of_not_visible isName hidden)
  refine ⟨⟨?found, ?visible⟩, hiddenNone⟩
  case found =>
    intro found
    by_contra hidden
    have noBearer : inAuthorization [h] = none := by
      simp [inAuthorization, notAuthorization_of_cookie cookie]
    rw [extract, hiddenNone hidden, noBearer] at found
    cases found
  case visible =>
    intro visible
    have text : config.cookieName ++ "=" ++ token =
        .ofList (written config.cookieName.toList token.toList) := by
      simp [written, ← String.toList_inj]
    rw [text] at bytes
    have nonempty' : token.toList ≠ [] := by simpa using nonempty
    exact extract_eq_some_iff.mpr
      (.inl (firstCookie_of_visible isName visible cookie bytes nonempty' printable single last))

/-- A token with a space and an `=` in it. -/
theorem cookie_found_iff_visible_standard :
    let config := Configuration.standard
    let h : Http.Header := ⟨"Cookie", "__Host-access_token=a b=1".toUTF8⟩
    Configuration.load (fun _ => none) = .ok config ∧
      extract config.cookieName [h] = some ⟨"a b=1"⟩ := by
  intro config h
  have loaded : Configuration.load (fun _ => none) = .ok config := by decide +kernel
  have printable : ∀ c ∈ "a b=1".toList, ' ' ≤ c ∧ c ≤ '~' := by simp
  have visible : Text.Visible config.cookieName := by
    simp [config, Configuration.standard, Text.Visible]
  have found : extract config.cookieName [h] = some ⟨"a b=1"⟩ ↔ Text.Visible config.cookieName :=
    (cookie_found_iff_visible loaded (by decide +kernel) (by decide +kernel) (by decide +kernel)
      printable (by decide +kernel) (by decide +kernel)).1
  exact ⟨loaded, found.mpr visible⟩

/-- A name with an accent is accepted, and its cookies can be sent, but none is found. -/
theorem cookie_of_accented_name_lost :
    let vars : Variables := fun name =>
      if name = Configuration.cookieNameVariable then some "é" else none
    let config := { Configuration.standard with cookieName := "é" }
    Configuration.load vars = .ok config ∧ Http.Header.isSendable "é=abc" = true ∧
      extract config.cookieName [⟨"Cookie", "é=abc".toUTF8⟩] = none := by
  decide +kernel

end Token

/-! ## The forwarded cookie

The token of a caller goes to the backend as a cookie. A token that was found in a cookie is read
back as it is. One from an `Authorization` header may hold a `;`, and then the backend reads a
shorter token and the cookies that the caller wrote behind it. -/

/-- What a backend with the gate's own rules reads from the cookies of a request. -/
def Http.Outbound.pairs (request : Http.Outbound) : List (List Char × List Char) :=
  request.cookie.elim [] fun text => Token.pairs text.toList

namespace Token

/-! ### Where a token comes from -/

variable {cookieName : String} {headers : List Http.Header} {value : List Char} {token : Secret}

theorem exists_pair_of_inCookies (found : inCookies cookieName headers = some value) :
    ∃ piece, ';' ∉ piece ∧ pair? piece = some (cookieName.toList, value) := by
  obtain ⟨⟨name, value⟩, first, rfl⟩ := Option.map_eq_some_iff.mp found
  obtain ⟨rfl, -⟩ : name = cookieName.toList ∧ value ≠ [] := by
    simpa using List.find?_some first
  obtain ⟨cookies, -, mem⟩ := List.mem_flatMap.mp (List.mem_of_find?_eq_some first)
  obtain ⟨piece, mem, read⟩ := List.mem_filterMap.mp mem
  exact ⟨piece, not_mem_of_mem_pieces mem, read⟩

theorem trimEnd_of_inAuthorization (found : inAuthorization headers = some value) :
    Text.trimEnd value = value := by
  simp only [inAuthorization, bind, Option.bind_eq_some_iff] at found
  obtain ⟨_, -, _, -, behind, -, kept⟩ := found
  split at kept
  · cases kept
  · cases kept
    exact Text.trimEnd_trimEnd _

theorem extract_eq_some (found : extract cookieName headers = some token) :
    inCookies cookieName headers = some token.expose.toList ∨
      inCookies cookieName headers = none ∧ inAuthorization headers = some token.expose.toList := by
  obtain ⟨value, either, rfl⟩ := Option.map_eq_some_iff.mp found
  simpa using Option.or_eq_some_iff.mp either

theorem trimEnd_of_extract (found : extract cookieName headers = some token) :
    Text.trimEnd token.expose.toList = token.expose.toList := by
  rcases extract_eq_some found with cookie | ⟨-, bearer⟩
  · obtain ⟨_, -, read⟩ := exists_pair_of_inCookies cookie
    exact trimEnd_of_pair? read
  · exact trimEnd_of_inAuthorization bearer

/-! ### The cookie read back -/

theorem pairs_written {name : List Char} (h : IsName name) (absent : ';' ∉ value) :
    pairs (written name value) = [(name, Text.trimEnd value)] := by
  have whole : ';' ∉ written name value := by simp [written, h.semicolon, absent]
  rw [pairs_of_not_mem whole, pair?_written h, Option.toList_some]

theorem pairs_written_append_cons {name before : List Char} (h : IsName name)
    (absent : ';' ∉ before) (after : List Char) :
    pairs (written name (before ++ ';' :: after)) = (name, Text.trimEnd before) :: pairs after := by
  have front : ';' ∉ written name before := by simp [written, h.semicolon, absent]
  have apart : written name (before ++ ';' :: after) = written name before ++ ';' :: after :=
    (List.append_assoc name ('=' :: before) (';' :: after)).symm
  rw [apart, pairs_append_cons front, pair?_written h, Option.toList_some, List.singleton_append]

theorem pairs_request (c : Client.Identity) (path : String) (token : Secret) :
    (c.request path (some token)).pairs =
      pairs (written c.cookieName.toList token.expose.toList) := by
  have text : (c.cookie token).toList = written c.cookieName.toList token.expose.toList := by
    simp [Client.Identity.cookie, written]
  rw [← text]
  rfl

/-- A token goes to the backend as one cookie of the configured name just if there is no `;` in it,
which holds of all tokens that came in a cookie. Otherwise the backend reads the token up to the
first `;`, and what the caller wrote behind it as further cookies. -/
theorem forwarded_alone_iff {vars : Variables} {config : Configuration} (c : Client.Identity)
    (path : String) (loaded : Configuration.load vars = .ok config)
    (named : c.cookieName = config.cookieName)
    (found : extract config.cookieName headers = some token) :
    let name := config.cookieName.toList
    let value := token.expose.toList
    let read := (c.request path (some token)).pairs
    (read = [(name, value)] ↔ ';' ∉ value) ∧
      (';' ∈ value → inCookies config.cookieName headers = none) ∧
      ∀ before after, value = before ++ ';' :: after → ';' ∉ before →
        read = (name, Text.trimEnd before) :: pairs after := by
  intro name value read
  have isName : IsName name := isName_of_load loaded
  have whole : read = pairs (written name value) := by
    rw [show read = _ from pairs_request c path token, named]
  have shorter : ∀ before after, value = before ++ ';' :: after → ';' ∉ before →
      read = (name, Text.trimEnd before) :: pairs after := by
    intro before after same absent
    rw [whole, same]
    exact pairs_written_append_cons isName absent after
  refine ⟨⟨?alone, ?plain⟩, ?source, shorter⟩
  case alone =>
    intro alone mem
    obtain ⟨before, after, same, absent⟩ := List.eq_append_cons_of_mem mem
    have cut : Text.trimEnd before = value := by
      have both := (shorter before after same absent).symm.trans alone
      simp only [List.cons.injEq, Prod.mk.injEq] at both
      exact both.1.2
    rw [← cut] at mem
    exact absent ((List.rdropWhile_prefix Text.isBlank before).mem mem)
  case plain =>
    intro absent
    rw [whole, pairs_written isName absent, trimEnd_of_extract found]
  case source =>
    intro mem
    rcases extract_eq_some found with cookie | ⟨none, -⟩
    · obtain ⟨_, absent, read⟩ := exists_pair_of_inCookies cookie
      exact absurd mem (not_mem_of_pair? absent read)
    · exact none

/-- The token of a cookie among others goes to the backend, and they do not. -/
theorem forwarded_alone_iff_among_others :
    let config := Configuration.standard
    let c : Client.Identity := ⟨config.apiBaseUrl, config.cookieName, config.showAllConfig⟩
    let headers : List Http.Header :=
      [⟨"Cookie", "theme=dark; __Host-access_token=a=1; lang=en".toUTF8⟩]
    Configuration.load (fun _ => none) = .ok config ∧
      extract config.cookieName headers = some ⟨"a=1"⟩ ∧
      (c.request Client.Identity.userPath (some ⟨"a=1"⟩)).pairs =
        [(config.cookieName.toList, "a=1".toList)] := by
  intro config c headers
  have loaded : Configuration.load (fun _ => none) = .ok config := by decide +kernel
  have found : extract config.cookieName headers = some ⟨"a=1"⟩ := by decide +kernel
  exact ⟨loaded, found, (forwarded_alone_iff c _ loaded rfl found).1.mpr (by decide)⟩

/-- A caller without a cookie writes one for the backend into the token. -/
theorem forwarded_with_cookie_of_caller :
    let config := Configuration.standard
    let c : Client.Identity := ⟨config.apiBaseUrl, config.cookieName, config.showAllConfig⟩
    let headers : List Http.Header := [⟨"Authorization", "Bearer a; admin=1".toUTF8⟩]
    Configuration.load (fun _ => none) = .ok config ∧
      extract config.cookieName headers = some ⟨"a; admin=1"⟩ ∧
      (c.request Client.Identity.userPath (some ⟨"a; admin=1"⟩)).pairs =
        [(config.cookieName.toList, "a".toList), ("admin".toList, "1".toList)] := by
  decide +kernel

end Token
end Gatehouse
