import Gatehouse.Proofs.Store.Interleaving
import Gatehouse.Proofs.Store.Keys

/-! # What operations leave behind

An operation that fails leaves the disk as it was, wherever it breaks off, and one that succeeds
changes the file of its key alone. Temporary files belong to the calls that made them and are gone
when these have come to an end. -/

namespace Gatehouse.Store

namespace Folder

/-! ## Calls that come to an end -/

def Move.Settles (name : String) : Move → Prop
  | .rename call => fileName call.key = name
  | .delete key (.ok ()) => fileName key = name
  | _ => False

/-- A name has what it had at first, unless a call has its temporary file there. Then it had nothing.
-/
structure Lent (es : Entries) (name : String) (w : Shared) : Prop where
  lent : ∀ {call p}, w.progress call = some p → p.temporary = name → es.node? name = none
  kept : (∀ {call p}, w.progress call = some p → p.temporary ≠ name) →
    w.entries.node? name = es.node? name

theorem Lent.idle (es : Entries) (name : String) : Lent es name ⟨es, fun _ => none⟩ where
  lent := by
    intro call p begun
    cases begun
  kept := fun _ => rfl

/-- One call gets on. It may make its temporary file under the name if there was nothing at first, and
leaves nothing there when it gives the name back. -/
theorem Lent.update {es es' : Entries} {name : String} {w : Shared} (lent : Lent es name w)
    {call : SetCall} {next : Option Progress}
    (taken : ∀ {p}, next = some p → p.temporary = name → es.node? name = none)
    (returned : ∀ {p}, w.progress call = some p → p.temporary = name →
      (∀ {q}, next = some q → q.temporary ≠ name) → es'.node? name = none)
    (passed : (∀ {p}, w.progress call = some p → p.temporary ≠ name) →
      (∀ {q}, next = some q → q.temporary ≠ name) → es'.node? name = w.entries.node? name) :
    Lent es name ⟨es', Function.update w.progress call next⟩ where
  lent := by
    intro other p begun same
    rcases begun_of_update begun with ⟨rfl, now⟩ | ⟨-, before⟩
    · exact taken now same
    · exact lent.lent before same
  kept := by
    intro apart
    dsimp only at apart ⊢
    have next_apart : ∀ {q}, next = some q → q.temporary ≠ name := fun begun =>
      apart (by rw [Function.update_self]; exact begun)
    by_cases here : ∃ p, w.progress call = some p ∧ p.temporary = name
    · obtain ⟨p, begun, same⟩ := here
      rw [returned begun same next_apart, lent.lent begun same]
    · have call_apart : ∀ {p}, w.progress call = some p → p.temporary ≠ name :=
        fun begun same => here ⟨_, begun, same⟩
      rw [passed call_apart next_apart]
      refine lent.kept fun {other p} begun => ?_
      by_cases this : other = call
      · exact call_apart (this ▸ begun)
      · exact apart (by rw [Function.update_of_ne this]; exact begun)

theorem Lent.step {es : Entries} {name : String} {w w' : Shared} {move : Move}
    (lent : Lent es name w) (sound : Sound w) (step : Step w move w') (alive : move ≠ .crash)
    (other : ¬ move.Settles name) : Lent es name w' := by
  cases step with
  | @create call temporary valid idle unused apart =>
      refine lent.update ?_ ?_ ?_
      · rintro p ⟨⟩ rfl
        rw [← unused]
        exact (lent.kept fun begun => sound.temporary_ne begun unused).symm
      · intro p begun
        rw [idle] at begun
        cases begun
      · intro _ elsewhere
        exact Entries.node?_put_of_ne (elsewhere rfl).symm _ _
  | @write call temporary bytes piece rest begun held =>
      refine lent.update ?_ ?_ ?_
      · rintro p ⟨⟩ same
        exact lent.lent begun same
      · intro p begun' same elsewhere
        have away : temporary ≠ name := elsewhere rfl
        rw [begun] at begun'
        cases begun'
        exact absurd same away
      · intro _ elsewhere
        exact Entries.node?_put_of_ne (elsewhere rfl).symm _ _
  | @rename call temporary es' written renamed =>
      obtain ⟨-, -, node, -, rfl⟩ := Entries.rename_eq_ok renamed
      have target : name ≠ fileName call.key := fun same => other same.symm
      refine lent.update ?_ ?_ ?_
      · rintro p ⟨⟩
      · intro p begun same _
        rw [written] at begun
        cases begun
        rw [Entries.node?_put_of_ne target, ← same]
        exact Entries.node?_erase_self ..
      · intro elsewhere _
        rw [Entries.node?_put_of_ne target, Entries.node?_erase_of_ne (elsewhere written).symm]
  | @fail call p begun =>
      refine lent.update ?_ ?_ ?_
      · rintro q ⟨⟩
      · intro q begun' same _
        rw [begun] at begun'
        cases begun'
        rw [← same]
        exact Entries.node?_erase_self ..
      · intro elsewhere _
        exact Entries.node?_erase_of_ne (elsewhere begun).symm _
  | @delete key result es' deleted =>
      refine ⟨lent.lent, fun apart => ?_⟩
      rw [← lent.kept apart]
      rcases get_of_delete deleted with ⟨rfl, -, -, others⟩ | ⟨-, rfl⟩
      · exact others name fun same => other same.symm
      · rfl
  | get key => exact lent
  | crash => exact absurd rfl alive

theorem Lent.run {es : Entries} {name : String} {w w' : Shared} {moves : List Move}
    (lent : Lent es name w) (sound : Sound w) (run : Run w moves w') (alive : .crash ∉ moves)
    (others : ∀ move ∈ moves, ¬ move.Settles name) : Lent es name w' := by
  induction run with
  | nil => exact lent
  | cons step _ ih =>
      rw [List.mem_cons, not_or] at alive
      obtain ⟨other, others⟩ := List.forall_mem_cons.mp others
      exact ih (lent.step sound step (Ne.symm alive.1) other) (sound.step step) alive.2 others

/-- Calls overlap and break off anywhere. When all have come to an end, an entry is another than at
first only if a call has renamed its file to this name or has removed it from there. -/
theorem node?_of_run {es : Entries} {w : Shared} {moves : List Move}
    (run : Run ⟨es, fun _ => none⟩ moves w) (alive : .crash ∉ moves)
    (ended : ∀ call, w.progress call = none) {name : String}
    (others : ∀ move ∈ moves, ¬ move.Settles name) : w.entries.node? name = es.node? name := by
  have lent := (Lent.idle es name).run (.idle es) run alive others
  refine lent.kept fun {call p} begun => ?_
  rw [ended] at begun
  cases begun

end Folder

namespace AtPath

/-! ## Operations on the disk -/

section

variable {s after : AtPath} {key : String} {bytes? : Option ByteArray}
  {result : Except StoreError Unit} (course : s.Course key bytes? result after)

include course

theorem Course.unaltered_of_error {fault : StoreError} (failed : result = .error fault) :
    s.Unaltered after := by
  cases course with
  | refused _ same | failed _ _ same => exact same
  | missing | done => cases failed

theorem Course.of_ok (succeeded : result = .ok ()) :
    (bytes? = none ∧ s.Unaltered after) ∨ s.Altered (Folder.fileName key) bytes? after := by
  cases course with
  | refused | failed => cases succeeded
  | missing _ _ nothing same => exact .inl ⟨nothing, same⟩
  | done _ altered => exact .inr altered

theorem Course.itemAt_temporary (place : List String) (n : Nat) :
    after.files.itemAt (place ++ [Entries.temporaryName n]) =
      s.files.itemAt (place ++ [Entries.temporaryName n]) := by
  cases course with
  | refused _ same | failed _ _ same | missing _ _ _ same => rw [same.items]
  | done valid altered =>
      obtain ⟨place', -, items⟩ := altered.items
      have apart : place ++ [Entries.temporaryName n] ≠ place' ++ [Folder.fileName key] := by
        intro same
        exact Folder.temporaryName_ne_fileName valid n
          (List.singleton_inj.mp (List.append_inj' same rfl).2)
      rw [items, Function.update_of_ne apart]

end

/-- A `get` changes nothing, and neither does an operation that fails. One that succeeds changes the
file of its key alone, on all of the disk, and no temporary file is left behind. This holds of the
steps in which texts are stored, too: whatever calls overlap, and wherever they break off, what no
call has renamed or removed is as it was when all of them have come to an end. -/
theorem operations_touch_one_file (s : AtPath) (key value : String) :
    (Store.perform s (.get key)).2 = s ∧
      (∀ fault, (s.set key value).1 = .error fault → s.Unaltered (s.set key value).2) ∧
      ((s.set key value).1 = .ok () →
        s.Altered (key ++ ".json") (some value.toUTF8) (s.set key value).2) ∧
      (∀ fault, (s.delete key).1 = .error fault → s.Unaltered (s.delete key).2) ∧
      ((s.delete key).1 = .ok () →
        s.Unaltered (s.delete key).2 ∨ s.Altered (key ++ ".json") none (s.delete key).2) ∧
      (∀ place n,
        let temporary := place ++ [Entries.temporaryName n]
        (s.set key value).2.files.itemAt temporary = s.files.itemAt temporary ∧
          (s.delete key).2.files.itemAt temporary = s.files.itemAt temporary) ∧
      ∀ es, s.folder = ⟨.ok es⟩ → ∀ moves w, Folder.Run ⟨es, fun _ => none⟩ moves w →
        .crash ∉ moves → (∀ call, w.progress call = none) →
        ∀ name, (∀ move ∈ moves, ¬ move.Settles name) → w.entries.node? name = es.node? name := by
  have set := course_set s key value
  have delete := course_delete s key
  refine ⟨rfl, fun _ => set.unaltered_of_error, ?stored, fun _ => delete.unaltered_of_error, ?deleted,
    fun place n => ⟨set.itemAt_temporary place n, delete.itemAt_temporary place n⟩, ?steps⟩
  case stored =>
    intro succeeded
    rcases set.of_ok succeeded with ⟨nothing, -⟩ | altered
    · cases nothing
    · exact altered
  case deleted =>
    intro succeeded
    exact (delete.of_ok succeeded).imp_left And.right
  case steps =>
    intro es _ moves w run alive ended name others
    exact Folder.node?_of_run run alive ended others

/-- A folder in the place of one key's file, a file that is no text, and a call for a third key that
breaks off when half of its text is written. -/
theorem operations_touch_one_file_blocked :
    let held : Entries := [("k.json", .folder [("x", .file .empty)]), ("bad.json", .file ⟨#[255]⟩)]
    let s : AtPath := ⟨[("a", .folder held)], "a"⟩
    let call : Folder.SetCall := ⟨0, "third", "half"⟩
    let begun := Entries.temporaryName 0
    s.folder = ⟨.ok held⟩ ∧
      (s.set "k" "v").1 = .error (.io "Is a directory (os error 21)") ∧
      s.Unaltered (s.set "k" "v").2 ∧
      (s.set "bad" "né").1 = .ok () ∧
      s.Altered "bad.json" (some "né".toUTF8) (s.set "bad" "né").2 ∧
      (s.delete "k").1 = .error (.io "Is a directory (os error 21)") ∧
      s.Unaltered (s.delete "k").2 ∧
      (s.delete "bad").1 = .ok () ∧
      (s.Unaltered (s.delete "bad").2 ∨ s.Altered "bad.json" none (s.delete "bad").2) ∧
      ∃ w, Folder.Run ⟨held, fun _ => none⟩ [.create call, .write call "ha".toUTF8, .fail call] w ∧
        w.entries.node? begun = none := by
  intro held s call begun
  have steps : s.path.steps = [.into "a"] := by
    rw [path, FilePath.steps_ofText]
    decide
  have here : s.folder = ⟨.ok held⟩ := by
    rw [folder, spot, steps]
    rfl
  have reached {name : String} (room : 2 + name.utf8ByteSize ≤ FilePath.sizeLimit) :
      s.reaches name = true := reaches_of_size_le room
  have temporary : s.reaches (Entries.temporaryName 0) = true := reached (by decide)
  have set {key value : String} (room : 2 + (Folder.fileName key).utf8ByteSize ≤ FilePath.sizeLimit) :
      (s.set key value).1 = (Folder.set ⟨.ok held⟩ key value).1 := by
    rw [AtPath.set, if_pos (by simp [reachesKey, reached room, temporary]), here]
  have delete {key : String} (room : 2 + (Folder.fileName key).utf8ByteSize ≤ FilePath.sizeLimit) :
      (s.delete key).1 = (Folder.delete ⟨.ok held⟩ key).1 := by
    rw [AtPath.delete, if_pos (by simp [reachesKey, reached room]), here]
  obtain ⟨-, setFailed, -, deleteFailed, -⟩ := operations_touch_one_file s "k" "v"
  obtain ⟨-, -, stored, -, deleted, -, left⟩ := operations_touch_one_file s "bad" "né"
  have blocked : (s.set "k" "v").1 = .error (.io "Is a directory (os error 21)") := by
    rw [set (by decide)]
    decide +kernel
  have kept : (s.delete "k").1 = .error (.io "Is a directory (os error 21)") := by
    rw [delete (by decide)]
    decide +kernel
  have replaced : (s.set "bad" "né").1 = .ok () := by
    rw [set (by decide)]
    decide +kernel
  have removed : (s.delete "bad").1 = .ok () := by
    rw [delete (by decide)]
    decide +kernel
  have broken : Folder.joined ["ha".toUTF8] ++ "lf".toUTF8 = call.value.toUTF8 := by decide +kernel
  have run : Folder.Run ⟨held, fun _ => none⟩ [.create call, .write call "ha".toUTF8, .fail call]
      ⟨held, fun _ => none⟩ := Folder.run_broken_off (by decide) rfl broken
  have gone := left held here _ _ run (by simp) (fun _ => rfl) begun (by simp [Folder.Move.Settles])
  exact ⟨here, blocked, setFailed _ blocked, replaced, stored replaced, kept, deleteFailed _ kept,
    removed, deleted removed, _, run, gone⟩

end AtPath
end Gatehouse.Store
