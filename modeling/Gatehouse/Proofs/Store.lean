import Gatehouse.Proofs.Files
import Gatehouse.Store

/-! # Stores that work and stores that fail

What may be relied on in a store that works for a key, and what is left where operations fail. -/

/-! ## Stores that work

A store works for a key as long as the operations on it succeed and do what they say. A store in
memory always works, and one in a folder does while the folder is there and holds a text, or
nothing, under the name of the key. -/

namespace Gatehouse.Store

/-- Wherever `ready` holds, the operations on the key succeed, and it still holds after them. -/
structure Working {σ : Type} [Store σ] (key : String) (ready : σ → Prop) : Prop where
  get : ∀ {store}, ready store → ∃ found, Store.get store key = .ok found
  /-- Any text can be stored. -/
  set : ∀ {store} (value : String), ready store →
    (Store.set store key value).1 = .ok () ∧ ready (Store.set store key value).2 ∧
      Store.get (Store.set store key value).2 key = .ok (some value)
  delete : ∀ {store}, ready store →
    (Store.delete store key).1 = .ok () ∧ ready (Store.delete store key).2 ∧
      Store.get (Store.delete store key).2 key = .ok none

/-! ### Memory -/

namespace Memory

theorem get?_erase (m : Memory) (key other : String) :
    (m.erase key).get? other = if other = key then none else m.get? other :=
  lookup_filter_ne m.entries key other

theorem get?_insert (m : Memory) (key value other : String) :
    (m.insert key value).get? other = if other = key then some value else m.get? other :=
  lookup_cons_filter_ne m.entries key other value

theorem working (key : String) : Working key fun _ : Memory => True where
  get := fun {m} _ => ⟨m.get? key, rfl⟩
  set := fun {m} value _ => by
    have stored := get?_insert m key value key
    rw [if_pos rfl] at stored
    exact ⟨rfl, trivial, congrArg Except.ok stored⟩
  delete := fun {m} _ => by
    have gone := get?_erase m key key
    rw [if_pos rfl] at gone
    exact ⟨rfl, trivial, congrArg Except.ok gone⟩

end Memory

/-! ### Folders -/

namespace Folder

def HoldsText (key : String) (es : Entries) : Prop :=
  es.node? (fileName key) = none ∨
    ∃ text : String, es.node? (fileName key) = some (.file text.toUTF8)

def Ready (key : String) (f : Folder) : Prop := ∃ es, f.entries = .ok es ∧ HoldsText key es

theorem temporaryName_ne_fileName {key : String} (valid : isKey key = true) (n : Nat) :
    Entries.temporaryName n ≠ fileName key := by
  intro same
  have chars := congrArg String.toList same
  simp only [Entries.temporaryName, fileName, String.toList_append] at chars
  simp only [isKey, Bool.and_eq_true, decide_eq_true_eq, List.all_eq_true] at valid
  cases letters : key.toList with
  | nil => exact valid.1 (String.toList_eq_nil_iff.mp letters)
  | cons c cs =>
      have hidden : c = '.' := by
        rw [letters] at chars
        exact (List.cons.inj chars).1.symm
      have letter := valid.2 c (by simp [letters])
      rw [hidden] at letter
      exact absurd letter (by decide)

section

variable {key : String} (valid : isKey key = true)
  (short : (fileName key).utf8ByteSize ≤ Entries.nameLimit) {es : Entries}

include valid short

theorem get_of_absent (absent : es.node? (fileName key) = none) :
    get ⟨.ok es⟩ key = .ok none := by
  have within : ¬ Entries.nameLimit < (fileName key).utf8ByteSize := Nat.not_lt.mpr short
  simp [get, read, Except.bind, valid, Entries.read, within, absent]

theorem get_of_text {text : String}
    (held : es.node? (fileName key) = some (.file text.toUTF8)) :
    get ⟨.ok es⟩ key = .ok (some text) := by
  have within : ¬ Entries.nameLimit < (fileName key).utf8ByteSize := Nat.not_lt.mpr short
  have decoded : String.fromUTF8? text.toUTF8 = some text := by
    rw [String.fromUTF8?, String.toUTF8_eq_toByteArray, dif_pos text.isValidUTF8]
    rfl
  rw [get, valid]
  simp only [read, Except.bind, Entries.read, within, held, if_false, Bool.not_true,
    Bool.false_eq_true, decoded]

/-- A text replaces a file or is put where nothing is. The temporary file is gone. -/
theorem set_of_holdsText (held : HoldsText key es) (value : String) :
    set ⟨.ok es⟩ key value =
      (.ok (), ⟨.ok ((es.erase es.freshName).put (fileName key) (.file value.toUTF8))⟩) := by
  have within : ¬ Entries.nameLimit < (fileName key).utf8ByteSize := Nat.not_lt.mpr short
  have other : fileName key ≠ es.freshName := (temporaryName_ne_fileName valid _).symm
  let written := es.put es.freshName (.file value.toUTF8)
  have source : written.node? es.freshName = some (.file value.toUTF8) :=
    Entries.node?_put_self ..
  have target : written.node? (fileName key) = es.node? (fileName key) :=
    Entries.node?_put_of_ne other ..
  have rest : written.erase es.freshName = es.erase es.freshName := Entries.erase_put _ _ _
  have renamed : written.rename es.freshName (fileName key) =
      .ok ((es.erase es.freshName).put (fileName key) (.file value.toUTF8)) := by
    rcases held with absent | ⟨text, held⟩
    · simp [Entries.rename, within, source, target, absent, rest]
    · simp [Entries.rename, within, source, target, held, rest]
  rw [set, if_neg (by simp [valid])]
  simp only [written] at renamed ⊢
  simp only [renamed]

theorem delete_of_holdsText (held : HoldsText key es) :
    delete ⟨.ok es⟩ key = (.ok (), ⟨.ok (es.erase (fileName key))⟩) := by
  have within : ¬ Entries.nameLimit < (fileName key).utf8ByteSize := Nat.not_lt.mpr short
  rcases held with absent | ⟨text, held⟩
  · have same := Entries.erase_of_forall_ne (Entries.node?_eq_none_iff.mp absent)
    simp [delete, Except.bind, valid, Entries.remove, within, absent, same]
  · simp [delete, Except.bind, valid, Entries.remove, within, held]

theorem working : Working key (Ready key) where
  get := by
    rintro ⟨_⟩ ⟨es, rfl, held⟩
    rcases held with absent | ⟨text, held⟩
    · exact ⟨none, get_of_absent valid short absent⟩
    · exact ⟨some text, get_of_text valid short held⟩
  set := by
    rintro ⟨_⟩ value ⟨es, rfl, held⟩
    change (set ⟨.ok es⟩ key value).1 = _ ∧ Ready key (set ⟨.ok es⟩ key value).2 ∧
      get (set ⟨.ok es⟩ key value).2 key = _
    rw [set_of_holdsText valid short held value]
    have stored := Entries.node?_put (es.erase es.freshName) (fileName key) (fileName key)
      (.file value.toUTF8)
    rw [if_pos rfl] at stored
    exact ⟨rfl, ⟨_, rfl, .inr ⟨value, stored⟩⟩, get_of_text valid short stored⟩
  delete := by
    rintro ⟨_⟩ ⟨es, rfl, held⟩
    change (delete ⟨.ok es⟩ key).1 = _ ∧ Ready key (delete ⟨.ok es⟩ key).2 ∧
      get (delete ⟨.ok es⟩ key).2 key = _
    rw [delete_of_holdsText valid short held]
    have gone := Entries.node?_erase es (fileName key) (fileName key)
    rw [if_pos rfl] at gone
    exact ⟨rfl, ⟨_, rfl, .inl gone⟩, get_of_absent valid short gone⟩

end

end Folder
end Gatehouse.Store

/-! ## The ways an operation on a folder can go

To store a text or to delete a key either fails, and then nothing has changed, or gives the file of
the key other bytes, or none. What is on the disk after an operation is read off the ways listed here.
-/

namespace Gatehouse.Store.Folder

theorem fileName_inj {key key' : String} (same : fileName key = fileName key') : key = key' := by
  have chars := congrArg String.toList same
  simp only [fileName, String.toList_append] at chars
  exact String.toList_inj.mp (List.append_cancel_right chars)

theorem get_of_not_isKey {key : String} (invalid : isKey key = false) (f : Folder) :
    f.get key = .error (.invalidKey key) := by
  simp [Folder.get, invalid]

theorem get_of_isKey {key : String} (valid : isKey key = true) (f : Folder) :
    (∃ found, f.get key = .ok found) ∨ ∃ reason, f.get key = .error (.io reason) := by
  rw [Folder.get, if_neg (by simp [valid])]
  split
  · exact .inl ⟨none, rfl⟩
  · exact .inr ⟨_, rfl⟩
  · split
    · exact .inl ⟨_, rfl⟩
    · exact .inr ⟨_, rfl⟩

theorem get_congr {es es' : Entries} {key : String}
    (same : es'.node? (fileName key) = es.node? (fileName key)) :
    Folder.get ⟨.ok es'⟩ key = Folder.get ⟨.ok es⟩ key := by
  simp only [Folder.get, Folder.read, Except.bind, Entries.read, same]

/-- The ways to give the file of a key other bytes, or none, each with the answer and the folder after
it. -/
inductive Course (f : Folder) (key : String) (bytes? : Option ByteArray) :
    Except StoreError Unit → Folder → Prop
  | refused (invalid : isKey key = false) : Course f key bytes? (.error (.invalidKey key)) f
  | failed (valid : isKey key = true) (reason : String) : Course f key bytes? (.error (.io reason)) f
  /-- There is no folder to remove a file from. -/
  | missing (valid : isKey key = true) (absent : f.entries = .error .missing) (nothing : bytes? = none) :
      Course f key bytes? (.ok ()) f
  | done {es es' : Entries} (valid : isKey key = true)
      (short : (fileName key).utf8ByteSize ≤ Entries.nameLimit) (here : f = ⟨.ok es⟩)
      (old : ∀ inner, es.node? (fileName key) ≠ some (.folder inner))
      (new : es'.node? (fileName key) = bytes?.map .file)
      (others : ∀ other, other ≠ fileName key → es'.node? other = es.node? other) :
      Course f key bytes? (.ok ()) ⟨.ok es'⟩

/-- The temporary file is gone in either case, and its name was no other file's. -/
theorem course_set (f : Folder) (key value : String) :
    Course f key (some value.toUTF8) (f.set key value).1 (f.set key value).2 := by
  cases valid : isKey key with
  | false =>
      rw [Folder.set, if_pos (by simp [valid])]
      exact .refused valid
  | true =>
      rw [Folder.set, if_neg (by simp [valid])]
      obtain ⟨_ | es⟩ := f
      · exact .failed valid _
      · have apart : fileName key ≠ es.freshName := (temporaryName_ne_fileName valid _).symm
        dsimp only
        split
        · next renamed =>
            obtain ⟨short, file, node, found, rfl⟩ := Entries.rename_eq_ok renamed
            rw [Entries.node?_put_self] at found
            cases found
            rw [Entries.node?_put_of_ne apart] at file
            rw [Entries.erase_put_freshName]
            exact .done valid short rfl file (Entries.node?_put_self ..) fun other different =>
              Entries.node?_put_of_ne different ..
        · rw [Entries.erase_put_freshName]
          exact .failed valid _

theorem course_delete (f : Folder) (key : String) :
    Course f key none (f.delete key).1 (f.delete key).2 := by
  cases valid : isKey key with
  | false =>
      rw [Folder.delete, if_pos (by simp [valid])]
      exact .refused valid
  | true =>
      rw [Folder.delete, if_neg (by simp [valid])]
      obtain ⟨fault | es⟩ := f
      · cases fault with
        | missing => exact .missing valid rfl rfl
        | _ => exact .failed valid _
      · dsimp only [Except.bind]
        rcases es.remove_cases (fileName key) with
          ⟨short, ⟨bytes, held⟩, removed⟩ | ⟨short, absent, removed⟩ | ⟨fault, found, removed⟩
        · rw [removed]
          exact .done valid short rfl (by simp [held]) (es.node?_erase_self _) fun other different =>
            Entries.node?_erase_of_ne different es
        · rw [removed]
          exact .done valid short rfl (by simp [absent]) absent fun _ _ => rfl
        · rw [removed]
          cases fault with
          | missing => exact absurd rfl found
          | _ => exact .failed valid _

/-- What is read after an operation that gave a key a text, or none. -/
theorem Course.get {f after : Folder} {key : String} {text? : Option String}
    {result : Except StoreError Unit}
    (course : Course f key (text?.map (·.toUTF8)) result after) (other : String) :
    after.get other = if result.isOk ∧ other = key then .ok text? else f.get other := by
  cases course with
  | refused | failed => simp [Except.isOk, Except.toBool]
  | missing valid absent nothing =>
      obtain ⟨entries⟩ := f
      obtain rfl : entries = .error .missing := absent
      obtain rfl := Option.map_eq_none_iff.mp nothing
      by_cases same : other = key
      · simp [Folder.get, Folder.read, Except.bind, valid, same]
      · simp [same]
  | done valid short here old new others =>
      subst here
      by_cases same : other = key
      · subst same
        rw [if_pos ⟨rfl, rfl⟩]
        cases text? with
        | none => exact get_of_absent valid short new
        | some text => exact get_of_text valid short new
      · rw [if_neg fun both => same both.2]
        exact get_congr (others _ fun names => same (fileName_inj names))

end Gatehouse.Store.Folder

/-! ## Operations that fail

A store never does half of what it is asked: an operation that succeeds does to its key what it says
and nothing to any other, and one that fails changes nothing. This holds of stores in memory, of those
made to fail, and of folders in whatever state they are. -/

namespace Gatehouse.Store

/-- What is under the keys of a store, whether or not a `get` can tell at the moment. -/
structure AllOrNothing (σ : Type) [Store σ] where
  held : σ → String → Except StoreError (Option String)
  get : ∀ {store key found}, Store.get store key = .ok found → held store key = .ok found
  set : ∀ store key value other, held (Store.set store key value).2 other =
    if (Store.set store key value).1.isOk ∧ other = key then .ok (some value)
    else held store other
  delete : ∀ store key other, held (Store.delete store key).2 other =
    if (Store.delete store key).1.isOk ∧ other = key then .ok none else held store other

/-! ### Memory -/

def Memory.allOrNothing : AllOrNothing Memory where
  held m key := .ok (m.get? key)
  get := id
  set := by
    intro m key value other
    have stored := congrArg (Except.ok (ε := StoreError)) (Memory.get?_insert m key value other)
    rw [apply_ite Except.ok] at stored
    simpa [Store.set, Except.isOk, Except.toBool] using stored
  delete := by
    intro m key other
    have gone := congrArg (Except.ok (ε := StoreError)) (Memory.get?_erase m key other)
    rw [apply_ite Except.ok] at gone
    simpa [Store.delete, Except.isOk, Except.toBool] using gone

def Faulty.allOrNothing : AllOrNothing Faulty where
  held f := Memory.allOrNothing.held f.memory
  get := by
    intro f key found got
    cases fails : f.getFails with
    | true => simp [Store.get, fails] at got
    | false => simpa [Store.get, fails, Memory.allOrNothing] using got
  set := by
    intro f key value other
    cases fails : f.setFails with
    | true => simp [Store.set, fails, Except.isOk, Except.toBool]
    | false =>
        simpa [Store.set, fails, Except.isOk, Except.toBool] using
          Memory.allOrNothing.set f.memory key value other
  delete := by
    intro f key other
    cases fails : f.deleteFails with
    | true => simp [Store.delete, fails, Except.isOk, Except.toBool]
    | false =>
        simpa [Store.delete, fails, Except.isOk, Except.toBool] using
          Memory.allOrNothing.delete f.memory key other

/-! ### Folders -/

namespace Folder

theorem get_set (f : Folder) (key value other : String) :
    (f.set key value).2.get other =
      if (f.set key value).1.isOk ∧ other = key then .ok (some value) else f.get other := by
  have course : Course f key ((some value).map (·.toUTF8)) _ _ := course_set f key value
  exact course.get other

theorem get_delete (f : Folder) (key other : String) :
    (f.delete key).2.get other =
      if (f.delete key).1.isOk ∧ other = key then .ok none else f.get other := by
  have course : Course f key ((none : Option String).map (·.toUTF8)) _ _ := course_delete f key
  exact course.get other

def allOrNothing : AllOrNothing Folder where
  held := Folder.get
  get := id
  set := get_set
  delete := get_delete

end Folder
end Gatehouse.Store
