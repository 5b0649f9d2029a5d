import Gatehouse.Proofs.Files.Items
import Gatehouse.Proofs.Store.Mirror

/-! # Keys and their files

Keys are short words of a fixed alphabet. No key leads out of the folder of the store or to a hidden
file, and no two of them share a file, so what is done under one key is not seen under another. -/

/-! ## What an operation changes on the disk

A store at a path is asked for a text to be stored or a key to be deleted. Of all that lies on the
disk, in the folder of the store or elsewhere, at most the file of the key is another afterwards.
-/

namespace Gatehouse.Store.AtPath

def place? (s : AtPath) : Option (List String) := (s.spot.map Spot.place).toOption

structure Unaltered (s after : AtPath) : Prop where
  written : after.written = s.written
  place : after.place? = s.place?
  folder : after.folder = s.folder
  items : after.files.itemAt = s.files.itemAt

/-- One file of the folder has got other bytes, or has come or gone. Nothing else on the disk
differs. -/
structure Altered (s : AtPath) (name : String) (bytes? : Option ByteArray) (after : AtPath) : Prop where
  written : after.written = s.written
  place : after.place? = s.place?
  folder : ∃ es es', s.folder = ⟨.ok es⟩ ∧ after.folder = ⟨.ok es'⟩ ∧
    es'.node? name = bytes?.map .file ∧ ∀ other, other ≠ name → es'.node? other = es.node? other
  items : ∃ place, s.place? = some place ∧
    after.files.itemAt = Function.update s.files.itemAt (place ++ [name]) (bytes?.map .file)

/-- The ways to give the file of a key other bytes, or none. -/
inductive Course (s : AtPath) (key : String) (bytes? : Option ByteArray) :
    Except StoreError Unit → AtPath → Prop
  | refused {after : AtPath} (invalid : Folder.isKey key = false) (same : s.Unaltered after) :
      Course s key bytes? (.error (.invalidKey key)) after
  | failed {after : AtPath} (valid : Folder.isKey key = true) (reason : String)
      (same : s.Unaltered after) : Course s key bytes? (.error (.io reason)) after
  /-- There is no folder to remove a file from. -/
  | missing {after : AtPath} (valid : Folder.isKey key = true) (absent : s.place? = none)
      (nothing : bytes? = none) (same : s.Unaltered after) : Course s key bytes? (.ok ()) after
  | done {after : AtPath} (valid : Folder.isKey key = true)
      (altered : s.Altered (Folder.fileName key) bytes? after) : Course s key bytes? (.ok ()) after

theorem Unaltered.refl (s : AtPath) : s.Unaltered s := ⟨rfl, rfl, rfl, rfl⟩

theorem place?_of_spot {s : AtPath} {spot : Spot} (found : s.spot = .ok spot) :
    s.place? = some spot.place := by
  rw [place?, found]
  rfl

theorem folder_of_spot {s : AtPath} {spot : Spot} (found : s.spot = .ok spot) :
    s.folder = ⟨.ok spot.entries⟩ := by
  rw [folder, found]
  rfl

theorem spot_withFolder {s : AtPath} {spot : Spot} {es : Entries} (leads : s.spot = .ok spot)
    (keeps : spot.entries.Keeps es) :
    ∃ spot', (s.withFolder ⟨.ok es⟩).spot = .ok spot' ∧ spot'.entries = es ∧
      spot'.place = spot.place := by
  obtain ⟨spot', leads', here, names⟩ := Entries.follow_change leads keeps
  rw [withFolder_of_follow leads]
  exact ⟨spot', leads', here, congrArg List.reverse names⟩

theorem unaltered_withFolder (s : AtPath) : s.Unaltered (s.withFolder s.folder) := by
  cases here : s.folder.entries with
  | error fault =>
      have same : s.withFolder s.folder = s := by
        rw [withFolder, here]
        split
        · next absurd => cases absurd
        · rfl
      rw [same]
      exact .refl s
  | ok es =>
      have here' : s.folder = ⟨.ok es⟩ := congrArg Folder.mk here
      obtain ⟨spot, leads, rfl⟩ := follow_of_folder here'
      obtain ⟨spot', found, entries, place⟩ := spot_withFolder leads fun _ there => there
      have lies := (Entries.follow_of_keeps (fun _ there => there) leads).1
      rw [here']
      refine ⟨by rw [withFolder_of_follow leads], ?_, ?_, ?_⟩
      · rw [place?_of_spot found, place?_of_spot leads, place]
      · rw [folder_of_spot found, entries, here']
      · rw [withFolder_of_follow leads]
        exact Spot.itemAt_change_self lies

theorem altered_withFolder {s : AtPath} {es es' : Entries} {name : String}
    {bytes? : Option ByteArray} (here : s.folder = ⟨.ok es⟩)
    (old : ∀ inner, es.node? name ≠ some (.folder inner))
    (new : es'.node? name = bytes?.map .file)
    (others : ∀ other, other ≠ name → es'.node? other = es.node? other) :
    s.Altered name bytes? (s.withFolder ⟨.ok es'⟩) := by
  have file : ∀ inner, es'.node? name ≠ some (.folder inner) := by
    intro inner held
    rw [new] at held
    cases bytes? <;> cases held
  obtain ⟨spot, leads, rfl⟩ := follow_of_folder here
  obtain ⟨spot', found, entries, place⟩ :=
    spot_withFolder leads (Entries.Keeps.of_others others old file)
  have lies := (Entries.follow_of_keeps (fun _ there => there) leads).1
  have shown := Spot.itemAt_change lies (Entries.itemAt_eq_update others old file)
  have item : (es'.node? name).map FileNode.item = bytes?.map .file := by
    rw [new, Option.map_map]
    rfl
  have place' : s.place? = some spot.place := place?_of_spot leads
  refine ⟨by rw [withFolder_of_follow leads], ?_, ⟨_, es', here, ?_, new, others⟩,
    ⟨spot.place, place', ?_⟩⟩
  · rw [place', place?_of_spot found, place]
  · rw [folder_of_spot found, entries]
  · rw [withFolder_of_follow leads, shown, item]

/-- What goes one way in the folder of the store goes this way on the disk. -/
theorem course_withFolder {s : AtPath} {key : String} {bytes? : Option ByteArray}
    {result : Except StoreError Unit} {f : Folder}
    (course : Folder.Course s.folder key bytes? result f) :
    s.Course key bytes? result (s.withFolder f) := by
  cases course with
  | refused invalid => exact .refused invalid (unaltered_withFolder s)
  | failed valid reason => exact .failed valid reason (unaltered_withFolder s)
  | missing valid absent nothing =>
      have nowhere : s.place? = none := by
        cases found : s.spot with
        | error fault =>
            rw [place?, found]
            rfl
        | ok spot =>
            rw [folder_of_spot found] at absent
            cases absent
      exact .missing valid nowhere nothing (unaltered_withFolder s)
  | done valid short here old new others => exact .done valid (altered_withFolder here old new others)

theorem course_set (s : AtPath) (key value : String) :
    s.Course key (some value.toUTF8) (s.set key value).1 (s.set key value).2 := by
  rw [AtPath.set]
  split
  · exact course_withFolder (Folder.course_set s.folder key value)
  · next far =>
      have valid : Folder.isKey key = true := by
        by_contra invalid
        exact far (by simp [reachesKey, invalid])
      exact .failed valid _ (.refl s)

theorem course_delete (s : AtPath) (key : String) :
    s.Course key none (s.delete key).1 (s.delete key).2 := by
  rw [AtPath.delete]
  split
  · exact course_withFolder (Folder.course_delete s.folder key)
  · next far =>
      have valid : Folder.isKey key = true := by
        by_contra invalid
        exact far (by simp [reachesKey, invalid])
      exact .failed valid _ (.refl s)

end Gatehouse.Store.AtPath

/-! ## Keys -/

namespace Gatehouse.Store

namespace Folder

def alphabet : String := "abcdefghijklmnopqrstuvwxyzABCDEFGHIJKLMNOPQRSTUVWXYZ0123456789_-"

/-- Not empty, and of no other characters than those of the alphabet. -/
def Plain (key : String) : Prop := key ≠ "" ∧ ∀ c ∈ key.toList, c ∈ alphabet.toList

theorem toNat_lt_of_isKeyChar {c : Char} (letter : isKeyChar c = true) : c.toNat < 128 := by
  change (((decide (65 ≤ c.val ∧ c.val ≤ 90) || (decide (97 ≤ c.val) && decide (c.val ≤ 122))) ||
    (decide (48 ≤ c.val) && decide (c.val ≤ 57))) || decide (c = '_') || decide (c = '-')) = true
    at letter
  simp only [Bool.or_eq_true, Bool.and_eq_true, decide_eq_true_eq, UInt32.le_iff_toNat_le] at letter
  change ((((65 ≤ c.toNat ∧ c.toNat ≤ 90) ∨ (97 ≤ c.toNat ∧ c.toNat ≤ 122)) ∨
    (48 ≤ c.toNat ∧ c.toNat ≤ 57)) ∨ c = '_') ∨ c = '-' at letter
  rcases letter with (((upper | lower) | digit) | rfl) | rfl
  · omega
  · omega
  · omega
  · decide
  · decide

theorem isKeyChar_iff (c : Char) : isKeyChar c = true ↔ c ∈ alphabet.toList := by
  have ascii : ∀ n < 128, isKeyChar (Char.ofNat n) = true → Char.ofNat n ∈ alphabet.toList := by
    decide +kernel
  have letters : alphabet.toList.all isKeyChar = true := by decide
  refine ⟨fun letter => ?_, List.all_eq_true.mp letters c⟩
  have listed := ascii c.toNat (toNat_lt_of_isKeyChar letter)
  rw [Char.ofNat_toNat] at listed
  exact listed letter

theorem isKey_iff_plain {key : String} : isKey key = true ↔ Plain key := by
  simp [isKey, Plain, isKeyChar_iff]

theorem mem_alphabet_or_suffix {key : String} (plain : Plain key) {c : Char}
    (mem : c ∈ (fileName key).toList) : c ∈ alphabet.toList ∨ c ∈ ".json".toList := by
  rw [fileName, String.toList_append, List.mem_append] at mem
  exact mem.imp_left (plain.2 c)

/-- A name that leads to a file in the folder itself, and to none that is hidden. -/
structure Direct (name : String) : Prop where
  separators : '/' ∉ name.toList
  terminators : '\x00' ∉ name.toList
  visible : name.toList.head? ≠ some '.'
  notHere : name ≠ "."
  notAbove : name ≠ ".."
  notTemporary : ∀ n, name ≠ Entries.temporaryName n

theorem direct_fileName {key : String} (plain : Plain key) : Direct (fileName key) := by
  have absent {c : Char} (foreign : c ∉ alphabet.toList ∧ c ∉ ".json".toList) :
      c ∉ (fileName key).toList := fun mem =>
    (mem_alphabet_or_suffix plain mem).elim foreign.1 foreign.2
  have visible : (fileName key).toList.head? ≠ some '.' := by
    intro hidden
    rw [fileName, String.toList_append,
      List.head?_append_of_ne_nil _ (by simpa using plain.1)] at hidden
    exact absurd (plain.2 _ (List.mem_of_head? hidden)) (by decide)
  refine ⟨absent (by decide), absent (by decide), visible, ?_, ?_, fun n => ?_⟩
  · intro here
    exact visible (by rw [here]; rfl)
  · intro above
    exact visible (by rw [above]; rfl)
  · exact (temporaryName_ne_fileName (isKey_iff_plain.mpr plain) n).symm

end Folder

namespace AtPath

/-! ### What is touched -/

/-- Nothing on the disk differs, but for the file of one name in the folder of the store. -/
def Touched (s : AtPath) (name : String) (after : AtPath) : Prop :=
  s.Unaltered after ∨ ∃ bytes?, s.Altered name bytes? after

def node? (s : AtPath) (name : String) : Option FileNode :=
  s.folder.entries?.bind (·.node? name)

section

variable {s after : AtPath} {key : String} {bytes? : Option ByteArray}
  {result : Except StoreError Unit} (course : s.Course key bytes? result after)

include course

theorem Course.invalidKey_iff (named : String) :
    result = .error (.invalidKey named) ↔ named = key ∧ ¬ Folder.Plain key := by
  rw [← Folder.isKey_iff_plain]
  cases course with
  | refused invalid same => simp [invalid, eq_comm]
  | failed valid | missing valid | done valid => simp [valid]

theorem Course.touched : s.Touched (Folder.fileName key) after := by
  cases course with
  | refused _ same | failed _ _ same | missing _ _ _ same => exact .inl same
  | done _ altered => exact .inr ⟨_, altered⟩

end

/-- The way to the folder of the store, with the fault where there is none. -/
def access (s : AtPath) : Except FileFault Unit := s.folder.entries.map fun _ => ()

/-- A `get` looks at nothing but the file of its key and the way there. -/
theorem get_congr {s s' : AtPath} {key : String} (written : s'.written = s.written)
    (access : s'.access = s.access)
    (file : s'.node? (Folder.fileName key) = s.node? (Folder.fileName key)) :
    s'.get key = s.get key := by
  have reached : s'.reachesKey key = s.reachesKey key := by
    rw [reachesKey, reachesKey, reaches, reaches, written]
  rw [AtPath.get, AtPath.get, reached]
  split
  · rw [node?, node?] at file
    rw [AtPath.access, AtPath.access] at access
    generalize s'.folder = f' at access file ⊢
    generalize s.folder = f at access file ⊢
    obtain ⟨fault' | es'⟩ := f' <;> obtain ⟨fault | es⟩ := f
    · obtain rfl : fault' = fault := Except.error.inj access
      rfl
    · cases access
    · cases access
    · exact Folder.get_congr file
  · rfl

theorem Touched.get_other {s after : AtPath} {key other : String}
    (touched : s.Touched (Folder.fileName key) after) (different : other ≠ key) :
    after.get other = s.get other := by
  rcases touched with same | ⟨bytes?, altered⟩
  · exact get_congr same.written (by rw [access, access, same.folder]) (by rw [node?, node?, same.folder])
  · obtain ⟨es, es', here, there, -, others⟩ := altered.folder
    refine get_congr altered.written (by rw [access, access, here, there]; rfl) ?_
    rw [node?, node?, here, there]
    exact others _ fun names => different (Folder.fileName_inj names)

theorem get_invalidKey_iff (s : AtPath) (key named : String) :
    s.get key = .error (.invalidKey named) ↔ named = key ∧ ¬ Folder.Plain key := by
  rw [← Folder.isKey_iff_plain]
  cases valid : Folder.isKey key with
  | false =>
      have reached : s.reachesKey key = true := by simp [reachesKey, valid]
      rw [AtPath.get, if_pos reached, Folder.get_of_not_isKey valid]
      simp [eq_comm]
  | true =>
      rw [AtPath.get]
      split
      · rcases Folder.get_of_isKey valid s.folder with ⟨found, got⟩ | ⟨reason, got⟩
        · simp [got]
        · simp [got]
      · simp [tooLong]

/-- A key is refused by all three operations, and named as the fault, exactly when it is no word of
the alphabet. The file of any other key is a direct child of the folder of the store, is never hidden,
and is all that the operations look at or change. No other key has the same file, so nothing that is
done under the one is seen under the other. -/
theorem keys_confined (s : AtPath) (key : String) :
    (∀ named value,
        (s.get key = .error (.invalidKey named) ↔ named = key ∧ ¬ Folder.Plain key) ∧
        ((s.set key value).1 = .error (.invalidKey named) ↔ named = key ∧ ¬ Folder.Plain key) ∧
        ((s.delete key).1 = .error (.invalidKey named) ↔ named = key ∧ ¬ Folder.Plain key)) ∧
      (Folder.Plain key →
        FilePath.ofText (joinPaths s.written (key ++ ".json")) =
            { s.path with steps := s.path.steps ++ [.into (key ++ ".json")] } ∧
          Folder.Direct (key ++ ".json") ∧
          (∀ s' : AtPath, s'.written = s.written →
            s'.access = s.access → s'.node? (key ++ ".json") = s.node? (key ++ ".json") →
            s'.get key = s.get key) ∧
          (∀ value, s.Touched (key ++ ".json") (s.set key value).2) ∧
          s.Touched (key ++ ".json") (s.delete key).2) ∧
      ∀ other, other ≠ key →
        other ++ ".json" ≠ key ++ ".json" ∧
          (∀ value, (s.set key value).2.get other = s.get other) ∧
          (s.delete key).2.get other = s.get other := by
  refine ⟨fun named value => ⟨?_, ?_, ?_⟩, fun plain => ⟨?_, ?_, ?_, ?_, ?_⟩,
    fun other different => ⟨?_, ?_, ?_⟩⟩
  · exact get_invalidKey_iff s key named
  · exact (course_set s key value).invalidKey_iff named
  · exact (course_delete s key).invalidKey_iff named
  · have direct : Folder.Direct (key ++ ".json") := Folder.direct_fileName plain
    have into : PathStep.ofText (key ++ ".json") = .into (key ++ ".json") := by
      rw [PathStep.ofText, if_neg direct.notHere, if_neg direct.notAbove]
    have named : key ++ ".json" ≠ "" := by
      intro empty
      have size := congrArg String.length empty
      simp at size
    exact FilePath.ofText_joinPaths s.written direct.separators into named
  · exact Folder.direct_fileName plain
  · intro s' written access file
    exact get_congr written access file
  · intro value
    exact (course_set s key value).touched
  · exact (course_delete s key).touched
  · intro names
    exact different (Folder.fileName_inj names)
  · intro value
    exact (course_set s key value).touched.get_other different
  · exact (course_delete s key).touched.get_other different

/-- Two keys of one store, and a text that would lead out of its folder. -/
theorem keys_confined_nested :
    let held : Entries := [("gate-1.json", .file "old".toUTF8), ("gate_2.json", .file "né".toUTF8)]
    let s : AtPath := ⟨[("a", .folder [("b", .folder held)])], "a/b"⟩
    s.get "../gate-1" = .error (.invalidKey "../gate-1") ∧
      Folder.Plain "gate-1" ∧
      (FilePath.ofText (joinPaths s.written "gate-1.json")).steps =
        s.path.steps ++ [.into "gate-1.json"] ∧
      s.Touched "gate-1.json" (s.set "gate-1" "new").2 ∧
      (s.set "gate-1" "new").2.get "gate_2" = s.get "gate_2" := by
  intro held s
  have outside : ¬ Folder.Plain "../gate-1" := by
    rw [← Folder.isKey_iff_plain]
    decide
  have plain : Folder.Plain "gate-1" := by
    rw [← Folder.isKey_iff_plain]
    decide
  have file : "gate-1" ++ ".json" = "gate-1.json" := by decide
  have refused := ((keys_confined s "../gate-1").1 "../gate-1" "").1.mpr ⟨rfl, outside⟩
  obtain ⟨-, confined, apart⟩ := keys_confined s "gate-1"
  obtain ⟨path, -, -, set, -⟩ := confined plain
  rw [file] at path set
  exact ⟨refused, plain, by rw [path], set "new", (apart "gate_2" (by decide)).2.1 "new"⟩

end AtPath
end Gatehouse.Store
