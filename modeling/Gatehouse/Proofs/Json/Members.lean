import Gatehouse.Json
import Mathlib.Data.List.Forall2

/-! # Records among other members

Which object is read as a record, told by its members: a field is told by the one member of its
name, wherever that stands, and members of other names are told by nothing. -/

namespace Gatehouse.Json

variable {name : String} {names : List String} {members others : List (Literal × Json)}

/-! ## Single fields -/

/-- What stands under a name: nothing, or the value of the only member of that name. -/
inductive Stands (name : String) (members : List (Literal × Json)) : Option Json → Prop where
  | absent (nowhere : ∀ m ∈ members, m.1 ≠ some name) : Stands name members none
  | once {before after : List (Literal × Json)} {value : Json}
    (split : members = before ++ field name value :: after)
    (nowhereElse : ∀ m ∈ before ++ after, m.1 ≠ some name) : Stands name members (some value)

theorem Stands.mem {value : Json} (stands : Stands name members (some value)) :
    field name value ∈ members := by
  cases stands with
  | once split => simp [split]

theorem valuesOf_eq_nil_iff : valuesOf name members = [] ↔ ∀ m ∈ members, m.1 ≠ some name := by
  rw [valuesOf, List.filterMap_eq_nil_iff]
  refine forall₂_congr fun m _ => ?_
  by_cases same : m.1 = some name <;> simp [same]

theorem valuesOf_eq_singleton_iff {value : Json} :
    valuesOf name members = [value] ↔ Stands name members (some value) := by
  have only (m : Literal × Json) {v : Json} :
      (if m.1 = some name then some m.2 else none) = some v ↔ m = field name v := by
    obtain ⟨n, w⟩ := m
    by_cases same : n = some name <;> simp [same, field]
  constructor
  · intro values
    obtain ⟨before, m, after, split, front, this, back⟩ := List.filterMap_eq_cons_iff.mp values
    obtain rfl := (only m).mp this
    refine .once split fun m mem => ?_
    rcases List.mem_append.mp mem with inFront | inBack
    · exact valuesOf_eq_nil_iff.mp (List.filterMap_eq_nil_iff.mpr front) m inFront
    · exact valuesOf_eq_nil_iff.mp back m inBack
  · intro stands
    cases stands with
    | @once before after _ split nowhereElse =>
        obtain ⟨front, back⟩ := List.forall_mem_append.mp nowhereElse
        have here : valuesOf name (field name value :: after) = value :: valuesOf name after :=
          List.filterMap_cons_some ((only _).mpr rfl)
        have apart : valuesOf name members =
            valuesOf name before ++ valuesOf name (field name value :: after) := by
          rw [split]
          exact List.filterMap_append
        rw [apart, here, valuesOf_eq_nil_iff.mpr front, valuesOf_eq_nil_iff.mpr back,
          List.nil_append]

/-- A field is read just if its name stands there once or not at all. -/
theorem soleValue?_eq_some_iff {held : Option Json} :
    soleValue? name members = some held ↔ Stands name members held := by
  cases held with
  | none =>
      have absent : Stands name members none ↔ valuesOf name members = [] := by
        rw [valuesOf_eq_nil_iff]
        exact ⟨fun | .absent nowhere => nowhere, .absent⟩
      rw [absent, soleValue?]
      split <;> simp_all
  | some value =>
      rw [← valuesOf_eq_singleton_iff, soleValue?]
      split <;> simp_all

/-! ## All fields -/

theorem mapM_eq_some_iff {α β : Type} {f : α → Option β} {as : List α} {bs : List β} :
    as.mapM f = some bs ↔ List.Forall₂ (fun a b => f a = some b) as bs := by
  induction as generalizing bs with
  | nil => cases bs <;> simp
  | cons a as ih =>
      cases bs with
      | nil => simp [Option.bind_eq_some_iff]
      | cons b bs => simp [Option.bind_eq_some_iff, ← ih]

def Named (members : List (Literal × Json)) : Prop := ∀ m ∈ members, m.1.isSome

theorem any_isNone_iff : members.any (·.1.isNone) = true ↔ ¬ Named members := by
  simp [Named, Option.isSome_iff_ne_none]

theorem fields?_object_eq_some_iff {held : List (Option Json)} :
    fields? names (.object members) = some held ↔
      Named members ∧ List.Forall₂ (fun name value => Stands name members value) names held := by
  simp only [← soleValue?_eq_some_iff, ← mapM_eq_some_iff, fields?]
  split
  · next broken =>
    have unnamed := any_isNone_iff.mp broken
    simp [unnamed]
  · next texts =>
    have named : Named members := by_contra fun unnamed => texts (any_isNone_iff.mpr unnamed)
    simp [named]

def known (names : List String) (members : List (Literal × Json)) : List (Literal × Json) :=
  members.filter fun m => m.1.any (· ∈ names)

theorem valuesOf_known (listed : name ∈ names) (members : List (Literal × Json)) :
    valuesOf name (known names members) = valuesOf name members := by
  rw [valuesOf, known, List.filterMap_filter]
  refine List.filterMap_congr fun m _ => ?_
  by_cases this : m.1 = some name
  · simp [this, listed]
  · simp [this]

theorem soleValue?_of_perm (listed : name ∈ names)
    (same : (known names others).Perm (known names members)) :
    soleValue? name others = soleValue? name members := by
  have values : (valuesOf name others).Perm (valuesOf name members) := by
    rw [← valuesOf_known listed others, ← valuesOf_known listed members]
    exact same.filterMap _
  simp only [soleValue?]
  cases found : valuesOf name members with
  | nil => 
      rw [found] at values
      rw [values.eq_nil]
  | cons value rest =>
      rw [found] at values
      cases rest with
      | nil => rw [List.perm_singleton.mp values]
      | cons second rest =>
          cases given : valuesOf name others with
          | nil => simp [given] at values
          | cons first others =>
              cases others with
              | nil => simp [given] at values
              | cons second others => rfl

theorem fields?_congr (here : Named members) (there : Named others)
    (same : (known names others).Perm (known names members)) :
    fields? names (.object others) = fields? names (.object members) := by
  have each : ∀ part : List String, part ⊆ names →
      (part.mapM fun name => soleValue? name others) =
        part.mapM fun name => soleValue? name members := by
    intro part inside
    induction part with
    | nil => rfl
    | cons name part ih =>
        obtain ⟨listed, inside⟩ := List.cons_subset.mp inside
        simp only [List.mapM_cons, soleValue?_of_perm listed same, ih inside]
  simp only [fields?, any_isNone_iff, here, there, not_true_eq_false, if_false]
  exact each names (List.Subset.refl names)

/-! ## Fields of a record -/

variable {α : Type} {read : Json → Option α} {write : α → Json} {default a : α}

/-- A value is read just where it is written as the format has it. -/
def Exact (write : α → Json) (read : Json → Option α) : Prop :=
  ∀ v a, read v = some a ↔ v = write a

/-- The field is a member of the name that stands there once and holds the value. -/
def Required (write : α → Json) (name : String) (members : List (Literal × Json)) (a : α) : Prop :=
  Stands name members (some (write a))

/-- Likewise, or the name does not stand there and the value is the default. -/
inductive Defaulted (write : α → Json) (default : α) (name : String)
    (members : List (Literal × Json)) : α → Prop where
  | absent (nowhere : Stands name members none) : Defaulted write default name members default
  | given {a : α} (stands : Stands name members (some (write a))) :
    Defaulted write default name members a

theorem Exact.required_iff (exact : Exact write read) :
    (∃ held, Stands name members held ∧ required read held = some a) ↔
      Required write name members a := by
  simp only [required, Option.bind_eq_some_iff, exact _ _, Required]
  constructor
  · rintro ⟨_, stands, _, rfl, rfl⟩
    exact stands
  · exact fun stands => ⟨_, stands, _, rfl, rfl⟩

theorem Exact.defaulted_iff (exact : Exact write read) :
    (∃ held, Stands name members held ∧ defaulted read default held = some a) ↔
      Defaulted write default name members a := by
  constructor
  · rintro ⟨held, stands, found⟩
    cases held with
    | none =>
        obtain rfl := Option.some.inj found
        exact .absent stands
    | some v =>
        obtain rfl := (exact v a).mp found
        exact .given stands
  · rintro (nowhere | stands)
    · exact ⟨none, nowhere, rfl⟩
    · exact ⟨_, stands, (exact _ a).mpr rfl⟩

def Once (write : α → Json) (name : String) (members : List (Literal × Json)) : Prop :=
  ∃ a, Stands name members (some (write a))

def AtMostOnce (write : α → Json) (name : String) (members : List (Literal × Json)) : Prop :=
  Stands name members none ∨ Once write name members

theorem exists_defaulted_iff :
    (∃ a, Defaulted write default name members a) ↔ AtMostOnce write name members := by
  constructor
  · rintro ⟨a, nowhere | stands⟩
    · exact .inl nowhere
    · exact .inr ⟨_, stands⟩
  · rintro (nowhere | ⟨a, stands⟩)
    · exact ⟨default, .absent nowhere⟩
    · exact ⟨a, .given stands⟩

def nullable : Option String → Json
  | none => .null
  | some s => .text s

theorem exact_text : Exact .text text? := by
  rintro ⟨⟩ s <;> simp [text?, text]

theorem exact_nullable : Exact nullable nullableText? := by
  rintro ⟨⟩ (_ | s) <;> simp [nullableText?, text?, nullable, text]

theorem exact_bool : Exact .bool bool? := by
  rintro ⟨⟩ b <;> simp [bool?]

end Gatehouse.Json
