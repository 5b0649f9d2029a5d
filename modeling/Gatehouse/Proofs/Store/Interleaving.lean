import Gatehouse.Proofs.Store.Mirror
import Mathlib.Logic.Function.Basic

/-! # Calls that are under way at the same time

A text is stored in steps: a temporary file is made, the bytes are written into it piece by piece,
and it is renamed. Steps of any number of calls come in any order, with removals and reads between
them, and a crash may end calls at any point. What is read of a key is always whole: it is the text
of the last call for this key that came to rename its file. -/

namespace Gatehouse

namespace Store.Folder

/-! ## Steps -/

structure SetCall where
  number : Nat
  key : String
  value : String
  deriving DecidableEq

/-- How far a call has come: its temporary file, and the bytes that are still to be written. -/
structure Progress where
  temporary : String
  rest : ByteArray

structure Shared where
  entries : Entries
  progress : SetCall → Option Progress

inductive Move where
  | create (call : SetCall)
  | write (call : SetCall) (piece : ByteArray)
  | rename (call : SetCall)
  | fail (call : SetCall)
  | delete (key : String) (result : Except StoreError Unit)
  | get (key : String) (result : Except StoreError (Option String))
  | crash

def Apart (name : String) : Prop := ∀ key, isKey key = true → name ≠ fileName key

/-- What can happen next. A temporary file has a name of its own when it is made, and a call that
fails removes it. A crash leaves all files as they are. -/
inductive Step : Shared → Move → Shared → Prop
  | create {w : Shared} {call : SetCall} (name : String) (valid : isKey call.key = true)
      (idle : w.progress call = none) (unused : w.entries.node? name = none) (apart : Apart name) :
      Step w (.create call)
        ⟨w.entries.put name (.file .empty),
          Function.update w.progress call (some ⟨name, call.value.toUTF8⟩)⟩
  | write {w : Shared} {call : SetCall} {name : String} {bytes piece rest : ByteArray}
      (begun : w.progress call = some ⟨name, piece ++ rest⟩)
      (held : w.entries.node? name = some (.file bytes)) :
      Step w (.write call piece)
        ⟨w.entries.put name (.file (bytes ++ piece)),
          Function.update w.progress call (some ⟨name, rest⟩)⟩
  | rename {w : Shared} {call : SetCall} {name : String} {es : Entries}
      (written : w.progress call = some ⟨name, .empty⟩)
      (renamed : w.entries.rename name (fileName call.key) = .ok es) :
      Step w (.rename call) ⟨es, Function.update w.progress call none⟩
  | fail {w : Shared} {call : SetCall} {p : Progress} (begun : w.progress call = some p) :
      Step w (.fail call)
        ⟨w.entries.erase p.temporary, Function.update w.progress call none⟩
  | delete {w : Shared} {key : String} {result : Except StoreError Unit} {es : Entries}
      (deleted : Folder.delete ⟨.ok w.entries⟩ key = (result, ⟨.ok es⟩)) :
      Step w (.delete key result) ⟨es, w.progress⟩
  | get {w : Shared} (key : String) :
      Step w (.get key (Folder.get ⟨.ok w.entries⟩ key)) w
  | crash {w : Shared} : Step w .crash ⟨w.entries, fun _ => none⟩

inductive Run : Shared → List Move → Shared → Prop
  | nil {w : Shared} : Run w [] w
  | cons {w w' w'' : Shared} {move : Move} {moves : List Move} (step : Step w move w')
      (rest : Run w' moves w'') : Run w (move :: moves) w''

theorem Run.append {w w' w'' : Shared} {moves more : List Move} (run : Run w moves w')
    (further : Run w' more w'') : Run w (moves ++ more) w'' := by
  induction run with
  | nil => exact further
  | cons step _ ih => exact .cons step (ih further)

theorem Run.of_append {w w'' : Shared} {moves more : List Move} (run : Run w (moves ++ more) w'') :
    ∃ w', Run w moves w' ∧ Run w' more w'' := by
  induction moves generalizing w with
  | nil => exact ⟨w, .nil, run⟩
  | cons move moves ih =>
      cases run with
      | cons step rest =>
          obtain ⟨w', first, second⟩ := ih rest
          exact ⟨w', .cons step first, second⟩

/-! ## A call that nothing comes between -/

def joined (pieces : List ByteArray) : ByteArray := pieces.foldr (· ++ ·) .empty

theorem run_write (es : Entries) (progress : SetCall → Option Progress) (call : SetCall)
    (name : String) (bytes : ByteArray) (pieces : List ByteArray) (rest : ByteArray) :
    Run ⟨es.put name (.file bytes),
        Function.update progress call (some ⟨name, joined pieces ++ rest⟩)⟩
      (pieces.map (.write call))
      ⟨es.put name (.file (bytes ++ joined pieces)),
        Function.update progress call (some ⟨name, rest⟩)⟩ := by
  induction pieces generalizing bytes with
  | nil =>
      rw [joined, List.foldr_nil, ByteArray.append_empty, ByteArray.empty_append]
      exact .nil
  | cons piece pieces ih =>
      have held : (es.put name (.file bytes)).node? name = some (.file bytes) :=
        Entries.node?_put_self es name _
      have step := Step.write (w := ⟨es.put name (.file bytes),
        Function.update progress call (some ⟨name, piece ++ (joined pieces ++ rest)⟩)⟩)
        (Function.update_self ..) held
      rw [Function.update_idem, Entries.put_put, ← ByteArray.append_assoc] at step
      have later := ih (bytes ++ piece)
      rw [ByteArray.append_assoc] at later
      exact .cons step later

def Shared.begun (w : Shared) (call : SetCall) (bytes rest : ByteArray) : Shared :=
  ⟨w.entries.put w.entries.freshName (.file bytes),
    Function.update w.progress call (some ⟨w.entries.freshName, rest⟩)⟩

section

variable {w : Shared} {call : SetCall} (valid : isKey call.key = true)
  (idle : w.progress call = none) {pieces : List ByteArray}

include valid idle

/-- Undisturbed, a call writes what it has to and comes to its end by one move more. -/
theorem run_until {rest : ByteArray} (whole : joined pieces ++ rest = call.value.toUTF8)
    {last : Move} {es : Entries}
    (step : Step (w.begun call (joined pieces) rest) last
      ⟨es, Function.update (w.begun call (joined pieces) rest).progress call none⟩) :
    Run w (.create call :: (pieces.map (.write call) ++ [last])) ⟨es, w.progress⟩ := by
  have create : Step w (.create call) (w.begun call .empty call.value.toUTF8) :=
    .create _ valid idle w.entries.node?_freshName fun key valid' =>
      temporaryName_ne_fileName valid' _
  have writes := run_write w.entries w.progress call w.entries.freshName .empty pieces rest
  rw [ByteArray.empty_append, whole] at writes
  have done : Function.update (w.begun call (joined pieces) rest).progress call none =
      w.progress := by
    rw [Shared.begun, Function.update_idem, ← idle, Function.update_eq_self]
  rw [done] at step
  exact .cons create (writes.append (.cons step .nil))

/-- A call that breaks off leaves no trace, however much it has written. -/
theorem run_broken_off {rest : ByteArray} (whole : joined pieces ++ rest = call.value.toUTF8) :
    Run w (.create call :: (pieces.map (.write call) ++ [.fail call])) w := by
  have run := run_until valid idle whole (.fail (Function.update_self ..))
  dsimp only [Shared.begun] at run
  rw [Entries.erase_put_freshName] at run
  exact run

/-- Undisturbed, the steps of a call do what storing the text at once does, whatever the pieces. -/
theorem run_set (whole : joined pieces = call.value.toUTF8) :
    match Folder.set ⟨.ok w.entries⟩ call.key call.value with
    | (.ok (), f) => ∃ es, f = ⟨.ok es⟩ ∧
        Run w (.create call :: (pieces.map (.write call) ++ [.rename call])) ⟨es, w.progress⟩
    | (.error _, f) => ∃ es, f = ⟨.ok es⟩ ∧
        Run w (.create call :: (pieces.map (.write call) ++ [.fail call])) ⟨es, w.progress⟩ := by
  have all : joined pieces ++ .empty = call.value.toUTF8 := by rw [ByteArray.append_empty, whole]
  rw [Folder.set, if_neg (by simp [valid]), ← whole]
  dsimp only
  cases renamed : (w.entries.put w.entries.freshName (.file (joined pieces))).rename
      w.entries.freshName (fileName call.key) with
  | ok es => exact ⟨es, rfl, run_until valid idle all (.rename (Function.update_self ..) renamed)⟩
  | error fault =>
      exact ⟨w.entries, by rw [Entries.erase_put_freshName], run_broken_off valid idle all⟩

end

/-! ## What is read -/

def Move.effect (key : String) (found : Except StoreError (Option String)) :
    Move → Except StoreError (Option String)
  | .rename call => if call.key = key then .ok (some call.value) else found
  | .delete other (.ok ()) => if other = key then .ok none else found
  | _ => found

/-- What is read of a key after the moves: the text of the last call that renamed its file, unless
the file was removed later, and what was there before where there is neither. -/
def latest (key : String) (before : Except StoreError (Option String)) (moves : List Move) :
    Except StoreError (Option String) :=
  moves.foldl (Move.effect key) before

theorem get_of_apart {es es' : Entries} {name : String} (apart : Apart name)
    (others : ∀ other, other ≠ name → es'.node? other = es.node? other) (key : String) :
    Folder.get ⟨.ok es'⟩ key = Folder.get ⟨.ok es⟩ key := by
  cases valid : isKey key with
  | false => rw [get_of_not_isKey valid, get_of_not_isKey valid]
  | true => exact get_congr (others _ (apart key valid).symm)

theorem get_put_of_apart {name : String} (apart : Apart name) (es : Entries) (node : FileNode)
    (key : String) : Folder.get ⟨.ok (es.put name node)⟩ key = Folder.get ⟨.ok es⟩ key :=
  get_of_apart apart (fun _ different => Entries.node?_put_of_ne different es node) key

theorem get_erase_of_apart {name : String} (apart : Apart name) (es : Entries) (key : String) :
    Folder.get ⟨.ok (es.erase name)⟩ key = Folder.get ⟨.ok es⟩ key :=
  get_of_apart apart (fun _ different => Entries.node?_erase_of_ne different es) key

theorem get_of_delete {es es' : Entries} {key : String} {result : Except StoreError Unit}
    (deleted : Folder.delete ⟨.ok es⟩ key = (result, ⟨.ok es'⟩)) :
    (result = .ok () ∧ isKey key = true ∧ Folder.get ⟨.ok es'⟩ key = .ok none ∧
        ∀ other, other ≠ fileName key → es'.node? other = es.node? other) ∨
      (∃ fault, result = .error fault) ∧ es' = es := by
  have course := course_delete ⟨.ok es⟩ key
  rw [deleted] at course
  cases course with
  | refused | failed => exact .inr ⟨⟨_, rfl⟩, rfl⟩
  | missing _ absent => cases absent
  | done valid short here old new others =>
      cases here
      exact .inl ⟨rfl, valid, get_of_absent valid short new, others⟩

theorem get_of_rename {es es' : Entries} {name key : String} {value : String}
    (valid : isKey key = true) (apart : Apart name)
    (held : es.node? name = some (.file value.toUTF8))
    (renamed : es.rename name (fileName key) = .ok es') (other : String) :
    Folder.get ⟨.ok es'⟩ other =
      if key = other then .ok (some value) else Folder.get ⟨.ok es⟩ other := by
  obtain ⟨short, -, node, found, rfl⟩ := Entries.rename_eq_ok renamed
  rw [held] at found
  cases found
  by_cases same : key = other
  · subst same
    rw [if_pos rfl]
    exact get_of_text valid short (Entries.node?_put_self ..)
  · have file : fileName other ≠ fileName key := fun names => same (fileName_inj names).symm
    rw [if_neg same]
    calc Folder.get ⟨.ok ((es.erase name).put (fileName key) (.file value.toUTF8))⟩ other
      _ = Folder.get ⟨.ok (es.erase name)⟩ other :=
          get_congr (Entries.node?_put_of_ne file _ _)
      _ = Folder.get ⟨.ok es⟩ other := get_erase_of_apart apart es other

/-! ## Calls and their temporary files -/

/-- The temporary file of a call is its own and holds what has been written so far. -/
structure Held (es : Entries) (call : SetCall) (p : Progress) : Prop where
  valid : isKey call.key = true
  apart : Apart p.temporary
  bytes : ∃ bytes, es.node? p.temporary = some (.file bytes) ∧ bytes ++ p.rest = call.value.toUTF8

theorem Held.of_node? {es es' : Entries} {call : SetCall} {p : Progress} (held : Held es call p)
    (same : es'.node? p.temporary = es.node? p.temporary) : Held es' call p :=
  ⟨held.valid, held.apart, by rw [same]; exact held.bytes⟩

/-- Every call under way has a temporary file, and no two of them share one. -/
structure Sound (w : Shared) : Prop where
  held : ∀ {call p}, w.progress call = some p → Held w.entries call p
  distinct : ∀ {call other p q}, w.progress call = some p → w.progress other = some q →
    other ≠ call → q.temporary ≠ p.temporary

theorem Sound.idle (es : Entries) : Sound ⟨es, fun _ => none⟩ where
  held := by
    intro call p begun
    cases begun
  distinct := by
    intro call other p q begun
    cases begun

theorem Sound.temporary_ne {w : Shared} (sound : Sound w) {call : SetCall} {p : Progress}
    (begun : w.progress call = some p) {name : String} (unused : w.entries.node? name = none) :
    p.temporary ≠ name := by
  intro same
  obtain ⟨bytes, held, -⟩ := (sound.held begun).bytes
  rw [same, unused] at held
  cases held

theorem begun_of_update {progress : SetCall → Option Progress} {call other : SetCall}
    {next : Option Progress} {p : Progress}
    (begun : Function.update progress call next other = some p) :
    (other = call ∧ next = some p) ∨ (other ≠ call ∧ progress other = some p) := by
  by_cases same : other = call
  · subst same
    rw [Function.update_self] at begun
    exact .inl ⟨rfl, begun⟩
  · rw [Function.update_of_ne same] at begun
    exact .inr ⟨same, begun⟩

/-- One call gets on, and the files of all others stay as they are. -/
theorem Sound.update {w : Shared} (sound : Sound w) {es : Entries} {call : SetCall}
    {next : Option Progress}
    (others : ∀ {other q}, w.progress other = some q → other ≠ call →
      es.node? q.temporary = w.entries.node? q.temporary)
    (own : ∀ {p}, next = some p → Held es call p ∧
      ∀ {other q}, w.progress other = some q → other ≠ call → q.temporary ≠ p.temporary) :
    Sound ⟨es, Function.update w.progress call next⟩ where
  held := by
    intro other p begun
    rcases begun_of_update begun with ⟨rfl, now⟩ | ⟨different, before⟩
    · exact (own now).1
    · exact (sound.held before).of_node? (others before different)
  distinct := by
    intro one other p q begun begun' different
    rcases begun_of_update begun with ⟨rfl, now⟩ | ⟨first, before⟩ <;>
      rcases begun_of_update begun' with ⟨rfl, now'⟩ | ⟨second, before'⟩
    · exact absurd rfl different
    · exact (own now).2 before' different
    · exact ((own now').2 before first).symm
    · exact sound.distinct before before' different

theorem Sound.step {w w' : Shared} {move : Move} (sound : Sound w) (step : Step w move w') :
    Sound w' := by
  cases step with
  | @create call name valid idle unused apart =>
      refine sound.update ?_ ?_
      · intro other q begun different
        exact Entries.node?_put_of_ne (sound.temporary_ne begun unused) _ _
      · rintro p ⟨⟩
        have held := w.entries.node?_put_self name (.file .empty)
        exact ⟨⟨valid, apart, .empty, held, ByteArray.empty_append⟩,
          fun begun _ => sound.temporary_ne begun unused⟩
  | @write call name bytes piece rest begun held =>
      have own := sound.held begun
      have distinct : ∀ {other q}, w.progress other = some q → other ≠ call → q.temporary ≠ name :=
        fun begun' different => sound.distinct begun begun' different
      refine sound.update ?_ ?_
      · intro other q begun' different
        exact Entries.node?_put_of_ne (distinct begun' different) _ _
      · rintro p ⟨⟩
        refine ⟨⟨own.valid, own.apart, bytes ++ piece, Entries.node?_put_self .., ?_⟩, distinct⟩
        obtain ⟨bytes', held', whole⟩ := own.bytes
        rw [held] at held'
        cases held'
        rw [ByteArray.append_assoc]
        exact whole
  | @rename call name es written renamed =>
      obtain ⟨-, -, node, -, rfl⟩ := Entries.rename_eq_ok renamed
      refine sound.update ?_ ?_
      · intro other q begun different
        have file := (sound.held begun).apart call.key (sound.held written).valid
        rw [Entries.node?_put_of_ne file,
          Entries.node?_erase_of_ne (sound.distinct written begun different)]
      · rintro p ⟨⟩
  | @fail call p begun =>
      refine sound.update ?_ ?_
      · intro other q begun' different
        exact Entries.node?_erase_of_ne (sound.distinct begun begun' different) _
      · rintro p ⟨⟩
  | @delete key result es deleted =>
      rcases get_of_delete deleted with ⟨-, valid, -, others⟩ | ⟨-, rfl⟩
      · refine ⟨?_, sound.distinct⟩
        intro call p begun
        have held := sound.held begun
        exact held.of_node? (others _ (held.apart key valid))
      · exact ⟨sound.held, sound.distinct⟩
  | get key => exact sound
  | crash => exact .idle _

/-! ## What a move does to what is read -/

theorem Sound.get_eq {w w' : Shared} {move : Move} (sound : Sound w) (step : Step w move w')
    (key : String) :
    Folder.get ⟨.ok w'.entries⟩ key = move.effect key (Folder.get ⟨.ok w.entries⟩ key) := by
  cases step with
  | @create call name valid idle unused apart => exact get_put_of_apart apart w.entries _ key
  | @write call name bytes piece rest begun held =>
      exact get_put_of_apart (sound.held begun).apart w.entries _ key
  | @rename call name es written renamed =>
      have own := sound.held written
      obtain ⟨bytes, held, whole⟩ := own.bytes
      rw [ByteArray.append_empty] at whole
      rw [whole] at held
      exact get_of_rename own.valid own.apart held renamed key
  | @fail call p begun => exact get_erase_of_apart (sound.held begun).apart w.entries key
  | @delete other result es deleted =>
      rcases get_of_delete deleted with ⟨rfl, -, gone, others⟩ | ⟨⟨fault, rfl⟩, rfl⟩
      · by_cases same : other = key
        · subst same
          rw [gone, Move.effect, if_pos rfl]
        · have file : fileName key ≠ fileName other := fun names => same (fileName_inj names).symm
          rw [Move.effect, if_neg same]
          exact get_congr (others _ file)
      · rfl
  | get other => rfl
  | crash => rfl

/-! ## Runs -/

theorem Sound.get_eq_latest {w w' : Shared} {moves : List Move} (sound : Sound w)
    (run : Run w moves w') (key : String) :
    Folder.get ⟨.ok w'.entries⟩ key = latest key (Folder.get ⟨.ok w.entries⟩ key) moves := by
  induction run with
  | nil => rfl
  | cons step _ ih =>
      rw [latest, List.foldl_cons, ← sound.get_eq step key]
      exact ih (sound.step step)

theorem Move.effect_cases (key : String) (found : Except StoreError (Option String)) (move : Move) :
    move.effect key found = .ok none ∨ move.effect key found = found ∨
      ∃ call, move = .rename call ∧ call.key = key ∧
        move.effect key found = .ok (some call.value) := by
  cases move with
  | rename call =>
      by_cases same : call.key = key
      · exact .inr (.inr ⟨call, rfl, same, if_pos same⟩)
      · exact .inr (.inl (if_neg same))
  | delete other result =>
      cases result with
      | error fault => exact .inr (.inl rfl)
      | ok =>
          by_cases same : other = key
          · exact .inl (if_pos same)
          · exact .inr (.inl (if_neg same))
  | create | write | fail | get | crash => exact .inr (.inl rfl)

theorem latest_cases (key : String) (before : Except StoreError (Option String))
    (moves : List Move) :
    latest key before moves = .ok none ∨ latest key before moves = before ∨
      ∃ call, .rename call ∈ moves ∧ call.key = key ∧
        latest key before moves = .ok (some call.value) := by
  induction moves generalizing before with
  | nil => exact .inr (.inl rfl)
  | cons move moves ih =>
      have next : latest key before (move :: moves) =
          latest key (move.effect key before) moves := rfl
      rw [next]
      rcases ih (move.effect key before) with gone | same | ⟨call, mem, own, text⟩
      · exact .inl gone
      · rw [same]
        rcases move.effect_cases key before with gone | same' | ⟨call, rfl, own, text⟩
        · exact .inl gone
        · exact .inr (.inl same')
        · exact .inr (.inr ⟨call, List.mem_cons_self, own, text⟩)
      · exact .inr (.inr ⟨call, List.mem_cons_of_mem move mem, own, text⟩)

/-- However the steps of calls come together, what is read of a key is the text of the last call for
it that renamed its file, or nothing once that was removed, or else what was there at first: never
anything in between, nor the text of a call that came to no end. -/
theorem get_never_torn {es : Entries} {moves : List Move} {w : Shared}
    (run : Run ⟨es, fun _ => none⟩ moves w) {earlier later : List Move} {key : String}
    {result : Except StoreError (Option String)}
    (got : moves = earlier ++ .get key result :: later) :
    result = latest key (Folder.get ⟨.ok es⟩ key) earlier ∧
      (result = .ok none ∨ result = Folder.get ⟨.ok es⟩ key ∨
        ∃ call, .rename call ∈ earlier ∧ call.key = key ∧ result = .ok (some call.value)) := by
  rw [got] at run
  obtain ⟨w', before, after⟩ := run.of_append
  have read : result = Folder.get ⟨.ok w'.entries⟩ key := by
    cases after with
    | cons step _ =>
        cases step
        rfl
  rw [read, (Sound.idle es).get_eq_latest before key]
  exact ⟨rfl, latest_cases key _ earlier⟩

/-- A call that has written half of its text is overtaken by another one for the same key, and then
the machine crashes. -/
theorem get_never_torn_overtaken :
    let es : Entries := [("k.json", .file "old".toUTF8)]
    let slow : SetCall := ⟨0, "k", "first"⟩
    let fast : SetCall := ⟨1, "k", "second"⟩
    let earlier : List Move :=
      [.create slow, .write slow "fir".toUTF8, .create fast, .write fast "second".toUTF8,
        .rename fast]
    ∃ result w, Run ⟨es, fun _ => none⟩ (earlier ++ .get "k" result :: [.crash]) w ∧
      Folder.get ⟨.ok es⟩ "k" = .ok (some "old") ∧ result = .ok (some "second") := by
  intro es slow fast earlier
  let name := Entries.temporaryName 0
  let begun : Shared :=
    ⟨es.put name (.file .empty),
      Function.update (fun _ => none) slow (some ⟨name, slow.value.toUTF8⟩)⟩
  let half : Shared :=
    ⟨begun.entries.put name (.file (.empty ++ "fir".toUTF8)),
      Function.update begun.progress slow (some ⟨name, "st".toUTF8⟩)⟩
  have create : Step ⟨es, fun _ => none⟩ (.create slow) begun :=
    .create name (by decide) rfl (by decide +kernel) fun key valid =>
      temporaryName_ne_fileName valid 0
  have pieces : slow.value.toUTF8 = "fir".toUTF8 ++ "st".toUTF8 := by decide +kernel
  have unwritten : begun.progress slow = some ⟨name, "fir".toUTF8 ++ "st".toUTF8⟩ := by
    rw [← pieces]
    simp only [begun, Function.update_self]
  have empty : begun.entries.node? name = some (.file .empty) := es.node?_put_self name _
  have write : Step begun (.write slow "fir".toUTF8) half := .write unwritten empty
  have idle : half.progress fast = none := by
    have other : fast ≠ slow := by decide
    simp only [half, begun, Function.update_of_ne other]
  have old : half.entries.node? (fileName "k") = some (.file "old".toUTF8) := by
    have other : fileName "k" ≠ name := by decide
    simp only [half, begun, Entries.node?_put_of_ne other]
    rfl
  have whole : joined [fast.value.toUTF8] = fast.value.toUTF8 := ByteArray.append_empty
  have overtaking := run_set (w := half) (by decide) idle whole
  rw [set_of_holdsText (by decide) (by decide) (.inr ⟨"old", old⟩) fast.value] at overtaking
  obtain ⟨after, -, overtaking⟩ := overtaking
  have run := (Run.cons create (.cons write overtaking)).append
    (.cons (.get "k") (.cons .crash .nil))
  refine ⟨_, _, run, ?_, (get_never_torn run rfl).1⟩
  exact get_of_text (by decide) (by decide) rfl

end Store.Folder
end Gatehouse
