import Gatehouse.Proofs.Decimal.Unsigned
import Gatehouse.Proofs.Text
import Gatehouse.Proofs.Token

/-! # What a configuration is read from

Five of the nine variables can be invalid, each by its own text alone. A configuration is loaded
just if none of them is, and then it is what the variables spell. Otherwise the first invalid one is
reported, whatever stands in those behind it. -/

namespace Gatehouse.Configuration

/-! ## What texts stand for -/

/-- The text is the number in decimal digits, which is positive and has at most 64 bits. -/
def SpellsPositive (text : String) (n : Nat) : Prop :=
  Decimal.Spells text.toList n ∧ 1 ≤ n ∧ n ≤ 2 ^ 64 - 1

inductive SpellsBool : String → Bool → Prop where
  | true : SpellsBool "true" true
  | one : SpellsBool "1" true
  | false : SpellsBool "false" false
  | zero : SpellsBool "0" false

/-- The text is the URL with slashes behind it, and the URL itself has none at its end. -/
structure SpellsBase (text url : String) : Prop where
  slashes : ∃ cut, text.toList = url.toList ++ cut ∧ ∀ c ∈ cut, c = '/'
  plain : url.toList.getLast? ≠ some '/'

structure SpellsCookieName (text name : String) : Prop where
  same : name = text
  usable : Token.IsName text.toList

inductive Mistaken (text : String) : PositiveFault → Prop where
  | unreadable {fault : Decimal.UnsignedFault}
    (wrong : Decimal.Misspells (2 ^ 64 - 1) text.toList fault) :
    Mistaken text (.unreadable text fault)
  | zero (spelled : Decimal.Spells text.toList 0) : Mistaken text .zero

/-- What a variable stands for: what its text spells or, when it is absent, the default. -/
inductive Means {α : Type} (spells : String → α → Prop) (default : α) : Option String → α → Prop
    where
  | absent : Means spells default none default
  | held {text : String} {value : α} (spelled : spells text value) :
    Means spells default (some text) value

structure Describes (vars : Variables) (c : Configuration) : Prop where
  bindAddress : Means (fun text address => address = text) standard.bindAddress
    (vars bindAddressVariable) c.bindAddress
  apiBaseUrl : Means SpellsBase standard.apiBaseUrl (vars apiBaseUrlVariable) c.apiBaseUrl
  apiTimeout : Means SpellsPositive standard.apiTimeoutSeconds (vars apiTimeoutVariable)
    c.apiTimeoutSeconds
  showAll : Means SpellsBool standard.showAllConfig (vars showAllVariable) c.showAllConfig
  cookieName : Means SpellsCookieName standard.cookieName (vars cookieNameVariable) c.cookieName
  feedUrl : Means (fun text url => url = text) standard.feedUrl (vars feedUrlVariable) c.feedUrl
  feedTimeout : Means SpellsPositive standard.feedTimeoutMillis (vars feedTimeoutVariable)
    c.feedTimeoutMillis
  cacheTtl : Means SpellsPositive standard.cacheTtlSeconds (vars cacheTtlVariable)
    c.cacheTtlSeconds
  cacheDir : c.cacheDir = (vars cacheDirVariable).filter (· ≠ "")

/-! ## The checked variables -/

inductive Checked where
  | apiTimeout
  | showAll
  | cookieName
  | feedTimeout
  | cacheTtl

namespace Checked

def inOrder : List Checked := [.apiTimeout, .showAll, .cookieName, .feedTimeout, .cacheTtl]

def variableName : Checked → String
  | .apiTimeout => apiTimeoutVariable
  | .showAll => showAllVariable
  | .cookieName => cookieNameVariable
  | .feedTimeout => feedTimeoutVariable
  | .cacheTtl => cacheTtlVariable

def Accepts (text : String) : Checked → Prop
  | .apiTimeout | .feedTimeout | .cacheTtl => ∃ n, SpellsPositive text n
  | .showAll => text ∈ ["true", "1", "false", "0"]
  | .cookieName => Token.IsName text.toList

def Refuses (text : String) (error : ConfigurationError) : Checked → Prop
  | .apiTimeout => ∃ fault, Mistaken text fault ∧ error = .apiTimeout fault
  | .showAll => text ∉ ["true", "1", "false", "0"] ∧ error = .showAll text
  | .cookieName => ¬ Token.IsName text.toList ∧ error = .cookieName text
  | .feedTimeout => ∃ fault, Mistaken text fault ∧ error = .feedTimeout fault
  | .cacheTtl => ∃ fault, Mistaken text fault ∧ error = .cacheTtl fault

def Valid (vars : Variables) (v : Checked) : Prop :=
  ∀ text ∈ vars v.variableName, v.Accepts text

end Checked

/-! ## Single variables -/

theorem readPositive_eq_ok_iff {text : String} {n : Nat} :
    readPositive text = .ok n ↔ SpellsPositive text n := by
  have spelled {m : Nat} : Decimal.readUnsigned largest text.toList = .ok m ↔
      Decimal.Spells text.toList m ∧ m ≤ 2 ^ 64 - 1 := Decimal.readUnsigned_eq_ok_iff
  constructor
  · intro read
    unfold readPositive at read
    split at read
    · cases read
    · cases read
    · next m nonzero found =>
      cases read
      obtain ⟨spells, within⟩ := spelled.mp found
      exact ⟨spells, Nat.pos_of_ne_zero nonzero, within⟩
  · rintro ⟨spells, positive, within⟩
    rw [readPositive, spelled.mpr ⟨spells, within⟩]
    cases n with
    | zero => exact absurd positive (by decide)
    | succ n => rfl

theorem readPositive_eq_error_iff {text : String} {fault : PositiveFault} :
    readPositive text = .error fault ↔ Mistaken text fault := by
  constructor
  · intro failed
    unfold readPositive at failed
    split at failed
    · next wrong =>
      cases failed
      exact .unreadable (Decimal.readUnsigned_eq_error_iff.mp wrong)
    · next found =>
      cases failed
      exact .zero (Decimal.readUnsigned_eq_ok_iff.mp found).1
    · cases failed
  · rintro (wrong | spelled)
    · have failed : Decimal.readUnsigned largest text.toList = .error _ :=
        Decimal.readUnsigned_eq_error_iff.mpr wrong
      rw [readPositive, failed]
    · have found : Decimal.readUnsigned largest text.toList = .ok 0 :=
        Decimal.readUnsigned_eq_ok_iff.mpr ⟨spelled, Nat.zero_le _⟩
      rw [readPositive, found]
      rfl

theorem readBool_eq_some_iff {text : String} {b : Bool} :
    readBool text = some b ↔ SpellsBool text b := by
  constructor
  · intro read
    unfold readBool at read
    split at read
    · next yes =>
      cases read
      rcases yes with rfl | rfl
      · exact .true
      · exact .one
    · split at read
      · next no =>
        cases read
        rcases no with rfl | rfl
        · exact .false
        · exact .zero
      · cases read
  · rintro (_ | _ | _ | _) <;> decide +kernel

theorem readBool_eq_none_iff {text : String} :
    readBool text = none ↔ text ∉ ["true", "1", "false", "0"] := by
  unfold readBool
  split
  · next yes => rcases yes with rfl | rfl <;> simp
  · next notYes =>
    split
    · next no => rcases no with rfl | rfl <;> simp
    · next notNo => simp_all

theorem withoutTrailingSlashes_eq_iff {text url : String} :
    withoutTrailingSlashes text = url ↔ SpellsBase text url := by
  have cut : withoutTrailingSlashes text = url ↔
      text.toList.rdropWhile (· = '/') = url.toList := by
    rw [← String.toList_inj, withoutTrailingSlashes, String.toList_ofList]
    rfl
  rw [cut, Text.rdropWhile_eq_iff]
  simp only [decide_eq_true_eq, decide_eq_false_iff_not, Option.mem_def]
  constructor
  · rintro ⟨slashes, plain⟩
    exact ⟨slashes, fun last => plain '/' last rfl⟩
  · rintro ⟨slashes, plain⟩
    refine ⟨slashes, ?_⟩
    rintro c last rfl
    exact plain last

/-- What is read from a variable is told by its text alone: the value that it stands for, or the
error with which it is refused. -/
structure ReadFrom {α : Type} (held : Option String) (v : Checked) (spells : String → α → Prop)
    (default : α) (result : Except ConfigurationError α) : Prop where
  ok_iff : ∀ value, result = .ok value ↔ Means spells default held value
  error_iff : ∀ error, result = .error error ↔ ∃ text ∈ held, v.Refuses text error

variable {α : Type} {v : Checked} {spells : String → α → Prop}
  {read : String → Except ConfigurationError α}

theorem readFrom_elim (ok : ∀ text value, read text = .ok value ↔ spells text value)
    (error : ∀ text e, read text = .error e ↔ v.Refuses text e) (held : Option String)
    (default : α) : ReadFrom held v spells default (held.elim (.ok default) read) := by
  cases held with
  | none =>
      refine ⟨fun value => ⟨?_, ?_⟩, by simp⟩
      · rintro ⟨⟩
        exact .absent
      · rintro ⟨⟩
        rfl
  | some text =>
      refine ⟨fun value => ⟨?_, ?_⟩, by simp [error]⟩
      · exact fun found => .held ((ok text value).mp found)
      · rintro (_ | spelled)
        exact (ok text value).mpr spelled

section

variable (vars : Variables)

theorem readFrom_positive {wrap : PositiveFault → ConfigurationError}
    (refuses : ∀ text e, v.Refuses text e ↔ ∃ fault, Mistaken text fault ∧ e = wrap fault)
    (default : Nat) :
    ReadFrom (vars v.variableName) v SpellsPositive default
      (orFail wrap (positive vars v.variableName default)) := by
  have elim : orFail wrap (positive vars v.variableName default) =
      (vars v.variableName).elim (.ok default) fun text => orFail wrap (readPositive text) := by
    unfold positive
    cases vars v.variableName <;> rfl
  rw [elim]
  refine readFrom_elim (fun text n => ?_) (fun text e => ?_) _ default
  · rw [← readPositive_eq_ok_iff]
    cases readPositive text <;> simp [orFail]
  · simp only [refuses, ← readPositive_eq_error_iff]
    cases readPositive text <;> simp [orFail, eq_comm]

theorem readFrom_apiTimeout :
    ReadFrom (vars apiTimeoutVariable) .apiTimeout SpellsPositive standard.apiTimeoutSeconds
      (orFail .apiTimeout (positive vars apiTimeoutVariable standard.apiTimeoutSeconds)) :=
  readFrom_positive (v := .apiTimeout) vars (fun _ _ => Iff.rfl) _

theorem readFrom_feedTimeout :
    ReadFrom (vars feedTimeoutVariable) .feedTimeout SpellsPositive standard.feedTimeoutMillis
      (orFail .feedTimeout (positive vars feedTimeoutVariable standard.feedTimeoutMillis)) :=
  readFrom_positive (v := .feedTimeout) vars (fun _ _ => Iff.rfl) _

theorem readFrom_cacheTtl :
    ReadFrom (vars cacheTtlVariable) .cacheTtl SpellsPositive standard.cacheTtlSeconds
      (orFail .cacheTtl (positive vars cacheTtlVariable standard.cacheTtlSeconds)) :=
  readFrom_positive (v := .cacheTtl) vars (fun _ _ => Iff.rfl) _

theorem readFrom_showAll :
    ReadFrom (vars showAllVariable) .showAll SpellsBool standard.showAllConfig (showAll vars) := by
  have elim : showAll vars = (vars showAllVariable).elim (.ok standard.showAllConfig) fun text =>
      (readBool text).elim (.error (.showAll text)) .ok := by
    unfold showAll
    cases vars showAllVariable with
    | none => rfl
    | some text =>
        simp only [Option.elim_some]
        cases readBool text <;> rfl
  rw [elim]
  refine readFrom_elim (fun text b => ?_) (fun text e => ?_) _ _
  · rw [← readBool_eq_some_iff]
    cases readBool text <;> simp
  · rw [Checked.Refuses, ← readBool_eq_none_iff]
    cases readBool text <;> simp [eq_comm]

theorem readFrom_cookie :
    ReadFrom (vars cookieNameVariable) .cookieName SpellsCookieName standard.cookieName
      (cookie vars) := by
  have elim : cookie vars = (vars cookieNameVariable).elim (.ok standard.cookieName) fun text =>
      if isCookieName text then .ok text else .error (.cookieName text) := by
    unfold cookie
    cases vars cookieNameVariable with
    | none => decide +kernel
    | some text => rfl
  rw [elim]
  refine readFrom_elim (fun text name => ?_) (fun text e => ?_) _ _
  · cases valid : isCookieName text with
    | false => 
        have bad : ¬ Token.IsName text.toList := by simp [← Token.isCookieName_iff, valid]
        simp
        exact fun h => bad h.usable
    | true =>
        have usable := Token.isCookieName_iff.mp valid
        simp
        exact ⟨fun same => ⟨same.symm, usable⟩, fun h => h.same.symm⟩
  · rw [Checked.Refuses, ← Token.isCookieName_iff]
    cases isCookieName text <;> simp [eq_comm]

end

/-! ## All variables -/

theorem means_elim_iff {α : Type} {spells : String → α → Prop} {read : String → α}
    (exact : ∀ text value, read text = value ↔ spells text value) {held : Option String}
    {default value : α} : Means spells default held value ↔ value = held.elim default read := by
  cases held with
  | none =>
      constructor
      · rintro ⟨⟩
        rfl
      · rintro rfl
        exact .absent
  | some text =>
      constructor
      · rintro (_ | spelled)
        exact ((exact text value).mpr spelled).symm
      · rintro rfl
        exact .held ((exact text _).mp rfl)

theorem means_text_iff {held : Option String} {default value : String} :
    Means (fun text value => value = text) default held value ↔ value = held.getD default := by
  rw [means_elim_iff (fun _ _ => eq_comm)]
  cases held <;> rfl

theorem means_base_iff {held : Option String} {default url : String} :
    Means SpellsBase default held url ↔ url = held.elim default withoutTrailingSlashes :=
  means_elim_iff fun _ _ => withoutTrailingSlashes_eq_iff

/-- The configuration is loaded as what the variables stand for, and not otherwise. -/
theorem load_eq_ok_iff {vars : Variables} {config : Configuration} :
    load vars = .ok config ↔ Describes vars config := by
  constructor
  · intro loaded
    obtain ⟨_, apiTimeout, loaded⟩ := exists_of_bind_eq_ok loaded
    obtain ⟨_, showAll, loaded⟩ := exists_of_bind_eq_ok loaded
    obtain ⟨_, cookieName, loaded⟩ := exists_of_bind_eq_ok loaded
    obtain ⟨_, feedTimeout, loaded⟩ := exists_of_bind_eq_ok loaded
    obtain ⟨_, cacheTtl, loaded⟩ := exists_of_bind_eq_ok loaded
    obtain rfl := Except.ok.inj loaded
    exact {
      bindAddress := means_text_iff.mpr rfl
      apiBaseUrl := means_base_iff.mpr rfl
      apiTimeout := ((readFrom_apiTimeout vars).ok_iff _).mp apiTimeout
      showAll := ((readFrom_showAll vars).ok_iff _).mp showAll
      cookieName := ((readFrom_cookie vars).ok_iff _).mp cookieName
      feedUrl := means_text_iff.mpr rfl
      feedTimeout := ((readFrom_feedTimeout vars).ok_iff _).mp feedTimeout
      cacheTtl := ((readFrom_cacheTtl vars).ok_iff _).mp cacheTtl
      cacheDir := rfl }
  · intro h
    have apiTimeout := ((readFrom_apiTimeout vars).ok_iff _).mpr h.apiTimeout
    have showAll := ((readFrom_showAll vars).ok_iff _).mpr h.showAll
    have cookieName := ((readFrom_cookie vars).ok_iff _).mpr h.cookieName
    have feedTimeout := ((readFrom_feedTimeout vars).ok_iff _).mpr h.feedTimeout
    have cacheTtl := ((readFrom_cacheTtl vars).ok_iff _).mpr h.cacheTtl
    rw [load, apiTimeout, showAll, cookieName, feedTimeout, cacheTtl,
      ← means_text_iff.mp h.bindAddress, ← means_base_iff.mp h.apiBaseUrl,
      ← means_text_iff.mp h.feedUrl, ← h.cacheDir]
    rfl

/-! ## The first error -/

def errorOf {α : Type} : Except ConfigurationError α → Option ConfigurationError
  | .ok _ => none
  | .error e => some e

def fault? (vars : Variables) : Checked → Option ConfigurationError
  | .apiTimeout =>
    errorOf (orFail .apiTimeout (positive vars apiTimeoutVariable standard.apiTimeoutSeconds))
  | .showAll => errorOf (showAll vars)
  | .cookieName => errorOf (cookie vars)
  | .feedTimeout =>
    errorOf (orFail .feedTimeout (positive vars feedTimeoutVariable standard.feedTimeoutMillis))
  | .cacheTtl =>
    errorOf (orFail .cacheTtl (positive vars cacheTtlVariable standard.cacheTtlSeconds))

theorem errorOf_bind {α β : Type} (x : Except ConfigurationError α)
    {f : α → Except ConfigurationError β} {rest : Option ConfigurationError}
    (after : ∀ a, errorOf (f a) = rest) : errorOf (x >>= f) = (errorOf x).or rest := by
  cases x with
  | error e => rfl
  | ok a => exact after a

theorem findSome?_cons_eq_or {α β : Type} (f : α → Option β) (a : α) (as : List α) :
    (a :: as).findSome? f = (f a).or (as.findSome? f) := by
  rw [List.findSome?_cons]
  cases f a <;> rfl

/-- The variables are gone through until one is invalid. -/
theorem errorOf_load (vars : Variables) :
    errorOf (load vars) = Checked.inOrder.findSome? (fault? vars) := by
  simp only [Checked.inOrder, findSome?_cons_eq_or, List.findSome?_nil]
  exact errorOf_bind _ fun _ => errorOf_bind _ fun _ => errorOf_bind _ fun _ =>
    errorOf_bind _ fun _ => errorOf_bind _ fun _ => rfl

theorem errorOf_eq_some_iff {α : Type} {x : Except ConfigurationError α}
    {error : ConfigurationError} : errorOf x = some error ↔ x = .error error := by
  cases x <;> simp [errorOf]

theorem errorOf_eq_none_iff {α : Type} {x : Except ConfigurationError α} :
    errorOf x = none ↔ ∃ a, x = .ok a := by
  cases x <;> simp [errorOf]

theorem fault?_eq_some_iff {vars : Variables} {v : Checked} {error : ConfigurationError} :
    fault? vars v = some error ↔ ∃ text ∈ vars v.variableName, v.Refuses text error := by
  cases v with
  | apiTimeout => exact errorOf_eq_some_iff.trans ((readFrom_apiTimeout vars).error_iff error)
  | showAll => exact errorOf_eq_some_iff.trans ((readFrom_showAll vars).error_iff error)
  | cookieName => exact errorOf_eq_some_iff.trans ((readFrom_cookie vars).error_iff error)
  | feedTimeout => exact errorOf_eq_some_iff.trans ((readFrom_feedTimeout vars).error_iff error)
  | cacheTtl => exact errorOf_eq_some_iff.trans ((readFrom_cacheTtl vars).error_iff error)

theorem spellsPositive_iff_not_mistaken {text : String} :
    (∃ n, SpellsPositive text n) ↔ ∀ fault, ¬ Mistaken text fault := by
  simp only [← readPositive_eq_ok_iff, ← readPositive_eq_error_iff]
  cases readPositive text <;> simp

theorem Checked.accepts_iff {text : String} {v : Checked} :
    v.Accepts text ↔ ∀ error, ¬ v.Refuses text error := by
  have number (wrap : PositiveFault → ConfigurationError) :
      (∃ n, SpellsPositive text n) ↔
        ∀ error, ¬ ∃ fault, Mistaken text fault ∧ error = wrap fault := by
    rw [spellsPositive_iff_not_mistaken]
    constructor
    · rintro none error ⟨fault, mistaken, -⟩
      exact none fault mistaken
    · exact fun all fault mistaken => all _ ⟨fault, mistaken, rfl⟩
  have single (accepted : Prop) (e : ConfigurationError) :
      accepted ↔ ∀ error, ¬ (¬ accepted ∧ error = e) := by
    constructor
    · exact fun holds error refused => refused.1 holds
    · exact fun all => by_contra fun fails => all e ⟨fails, rfl⟩
  cases v with
  | apiTimeout => exact number _
  | showAll => exact single _ _
  | cookieName => exact single _ _
  | feedTimeout => exact number _
  | cacheTtl => exact number _

theorem fault?_eq_none_iff {vars : Variables} {v : Checked} :
    fault? vars v = none ↔ v.Valid vars := by
  simp only [Option.eq_none_iff_forall_ne_some, ne_eq, fault?_eq_some_iff, Checked.Valid,
    Checked.accepts_iff]
  constructor
  · intro none text held error refused
    exact none error ⟨text, held, refused⟩
  · rintro all error ⟨text, held, refused⟩
    exact all text held error refused

/-! ## Main result -/

theorem plain_of_means {held : Option String} {url : String}
    (means : Means SpellsBase standard.apiBaseUrl held url) : url.toList.getLast? ≠ some '/' := by
  cases means with
  | absent => decide +kernel
  | held spelled => exact spelled.plain

theorem load_congr {vars others : Variables}
    (agree : ∀ name ∈ variableNames, others name = vars name) : load others = load vars := by
  simp only [variableNames, List.forall_mem_cons] at agree
  obtain ⟨bind, api, timeout, shown, name, feed, feedTimeout, ttl, dir, -⟩ := agree
  simp only [load, positive, showAll, cookie, bind, api, timeout, shown, name, feed, feedTimeout,
    ttl, dir]

/-- Only the nine variables matter. The configuration is loaded just if all that are checked are
valid, and is then what the variables stand for, with a base URL that does not end in a slash.
Otherwise the error is that of the first invalid variable, whatever those behind it hold. -/
theorem load_valid_or_first_fault (vars : Variables) :
    (∀ others : Variables, (∀ name ∈ variableNames, others name = vars name) →
        load others = load vars) ∧
      ((∃ config, load vars = .ok config) ↔ ∀ v : Checked, v.Valid vars) ∧
      (∀ config, load vars = .ok config ↔ Describes vars config) ∧
      (∀ config, load vars = .ok config → config.apiBaseUrl.toList.getLast? ≠ some '/') ∧
      ∀ error, load vars = .error error ↔
        ∃ before v after, Checked.inOrder = before ++ v :: after ∧
          (∀ u ∈ before, u.Valid vars) ∧ ∃ text ∈ vars v.variableName, v.Refuses text error := by
  refine ⟨fun _ => load_congr, ?valid, fun _ => load_eq_ok_iff, ?plain, ?first⟩
  case valid =>
    rw [← errorOf_eq_none_iff, errorOf_load, List.findSome?_eq_none_iff]
    simp only [fault?_eq_none_iff]
    constructor
    · intro all v
      exact all v (by cases v <;> simp [Checked.inOrder])
    · exact fun all v _ => all v
  case plain =>
    intro config loaded
    exact plain_of_means (load_eq_ok_iff.mp loaded).apiBaseUrl
  case first =>
    intro error
    rw [← errorOf_eq_some_iff, errorOf_load, List.findSome?_eq_some_iff]
    simp only [fault?_eq_some_iff, fault?_eq_none_iff]
    refine exists_congr fun before => exists_congr fun v => exists_congr fun after => ?_
    exact and_congr_right fun _ => and_comm

end Gatehouse.Configuration
