import Gatehouse.Proofs.Files
import Gatehouse.Proofs.Store
import Gatehouse.Store
import Mathlib.Data.List.Forall2

/-! # Folders that mirror a store in memory

A store in a folder that nobody else touches answers every call as a store in memory does, through
histories of any length in which it is also opened again. After each call the folder holds one file
for every key in memory, with the bytes of the text under it, and nothing else. -/

namespace Gatehouse.Store

/-! ## Histories of calls -/

class Reopening (σ : Type) extends Store σ where
  reopen : σ → Except FileFault Unit × σ

instance : Reopening Memory where
  reopen m := (.ok (), m)

instance : Reopening AtPath where
  reopen s :=
    match AtPath.openAt s.written s.files with
    | (.ok s, _) => (.ok (), s)
    | (.error fault, files) => (.error fault, { s with files })

inductive Call where
  | get (key : String)
  | set (key value : String)
  | delete (key : String)
  | reopen

inductive Reply where
  | found (result : Except StoreError (Option String))
  | done (result : Except StoreError Unit)
  | opened (result : Except FileFault Unit)

section

variable {σ : Type} [Reopening σ]

def perform (store : σ) : Call → Reply × σ
  | .get key => (.found (Store.get store key), store)
  | .set key value => (Store.set store key value).map .done id
  | .delete key => (Store.delete store key).map .done id
  | .reopen => (Reopening.reopen store).map .opened id

def history (store : σ) : List Call → List (Reply × σ)
  | [] => []
  | call :: calls => perform store call :: history (perform store call).2 calls

end

/-! ## Folders and memory -/

namespace Folder

theorem fileName_le_nameLimit {key : String} (short : key.utf8ByteSize ≤ 250) :
    (fileName key).utf8ByteSize ≤ Entries.nameLimit := by
  have suffix : ".json".utf8ByteSize = 5 := by decide
  rw [fileName, String.utf8ByteSize_append, suffix, Entries.nameLimit]
  omega

end Folder

namespace Memory

def OnlyKeys (m : Memory) : Prop := ∀ key, (m.get? key).isSome → Folder.isKey key = true

theorem OnlyKeys.insert {m : Memory} (keys : m.OnlyKeys) {key : String}
    (valid : Folder.isKey key = true) (value : String) : (m.insert key value).OnlyKeys := by
  intro other present
  rw [get?_insert] at present
  by_cases same : other = key
  · rw [same]
    exact valid
  · rw [if_neg same] at present
    exact keys other present

theorem OnlyKeys.erase {m : Memory} (keys : m.OnlyKeys) (key : String) :
    (m.erase key).OnlyKeys := by
  intro other present
  rw [get?_erase] at present
  by_cases same : other = key
  · rw [if_pos same] at present
    cases present
  · rw [if_neg same] at present
    exact keys other present

end Memory

/-- One file for every key in memory, with the bytes of the text under it, and nothing else. -/
structure Mirrors (m : Memory) (es : Entries) : Prop where
  entries : ∀ {name node}, (name, node) ∈ es ↔
    ∃ key value, m.get? key = some value ∧ name = Folder.fileName key ∧
      node = .file value.toUTF8
  once : es.names.Nodup

namespace Mirrors

theorem empty : Mirrors {} [] where
  entries := by simp [Memory.get?]
  once := List.nodup_nil

variable {m : Memory} {es : Entries} (mirrors : Mirrors m es)

include mirrors

theorem node?_of_some {key value : String} (held : m.get? key = some value) :
    es.node? (Folder.fileName key) = some (.file value.toUTF8) :=
  (Entries.node?_eq_some_iff mirrors.once).mpr (mirrors.entries.mpr ⟨key, value, held, rfl, rfl⟩)

theorem node?_of_none {key : String} (absent : m.get? key = none) :
    es.node? (Folder.fileName key) = none := by
  refine Entries.node?_eq_none_iff.mpr fun node mem => ?_
  obtain ⟨key', value, held, same, -⟩ := mirrors.entries.mp mem
  obtain rfl := Folder.fileName_inj same
  rw [absent] at held
  cases held

theorem holdsText (key : String) : Folder.HoldsText key es := by
  cases held : m.get? key with
  | none => exact .inl (mirrors.node?_of_none held)
  | some value => exact .inr ⟨value, mirrors.node?_of_some held⟩

theorem onlyFiles : es.OnlyFiles := by
  intro name inner held
  obtain ⟨key, value, -, -, file⟩ :=
    mirrors.entries.mp ((Entries.node?_eq_some_iff mirrors.once).mp held)
  cases file

theorem insert (key value : String) :
    Mirrors (m.insert key value) (es.put (Folder.fileName key) (.file value.toUTF8)) where
  entries := by
    intro name node
    rw [Entries.mem_put]
    constructor
    · rintro (⟨rfl, rfl⟩ | ⟨other, mem⟩)
      · exact ⟨key, value, by rw [Memory.get?_insert, if_pos rfl], rfl, rfl⟩
      · obtain ⟨key', value', held, rfl, rfl⟩ := mirrors.entries.mp mem
        have different : key' ≠ key := by
          rintro rfl
          exact other rfl
        exact ⟨key', value', by rw [Memory.get?_insert, if_neg different, held], rfl, rfl⟩
    · rintro ⟨key', value', held, rfl, rfl⟩
      rw [Memory.get?_insert] at held
      by_cases same : key' = key
      · rw [if_pos same] at held
        obtain rfl := Option.some.inj held
        exact .inl ⟨by rw [same], rfl⟩
      · rw [if_neg same] at held
        exact .inr ⟨fun names => same (Folder.fileName_inj names),
          mirrors.entries.mpr ⟨key', value', held, rfl, rfl⟩⟩
  once := Entries.nodup_names_put mirrors.once _ _

theorem erase (key : String) : Mirrors (m.erase key) (es.erase (Folder.fileName key)) where
  entries := by
    intro name node
    rw [Entries.mem_erase]
    constructor
    · rintro ⟨other, mem⟩
      obtain ⟨key', value, held, rfl, rfl⟩ := mirrors.entries.mp mem
      have different : key' ≠ key := by
        rintro rfl
        exact other rfl
      exact ⟨key', value, by rw [Memory.get?_erase, if_neg different, held], rfl, rfl⟩
    · rintro ⟨key', value, held, rfl, rfl⟩
      rw [Memory.get?_erase] at held
      by_cases same : key' = key
      · rw [if_pos same] at held
        cases held
      · rw [if_neg same] at held
        exact ⟨fun names => same (Folder.fileName_inj names),
          mirrors.entries.mpr ⟨key', value, held, rfl, rfl⟩⟩
  once := Entries.nodup_names_erase mirrors.once _

theorem erase_freshName (keys : m.OnlyKeys) :
    es.erase es.freshName = es := by
  refine Entries.erase_of_forall_ne fun node mem => ?_
  obtain ⟨key, value, held, same, -⟩ := mirrors.entries.mp mem
  have present : (m.get? key).isSome := by rw [held]; rfl
  exact Folder.temporaryName_ne_fileName (keys key present) _ same

theorem get {key : String} (valid : Folder.isKey key = true)
    (short : (Folder.fileName key).utf8ByteSize ≤ Entries.nameLimit) :
    Folder.get ⟨.ok es⟩ key = .ok (m.get? key) := by
  cases held : m.get? key with
  | none => exact Folder.get_of_absent valid short (mirrors.node?_of_none held)
  | some value => exact Folder.get_of_text valid short (mirrors.node?_of_some held)

end Mirrors

/-! ## The folder at a path -/

namespace AtPath

theorem withFolder_of_follow {s : AtPath} {spot : Spot}
    (leads : s.files.follow s.path.steps = .ok spot) (es : Entries) :
    s.withFolder ⟨.ok es⟩ = { s with files := spot.change es } := by
  simp [withFolder, AtPath.spot, leads]

section

variable {s : AtPath} {es : Entries} (here : s.folder = ⟨.ok es⟩)

include here

theorem follow_of_folder : ∃ spot, s.files.follow s.path.steps = .ok spot ∧ spot.entries = es := by
  have entries : s.spot.map (·.entries) = .ok es := congrArg Folder.entries here
  rw [AtPath.spot] at entries
  cases leads : s.files.follow s.path.steps with
  | error fault =>
      rw [leads] at entries
      cases entries
  | ok spot =>
      rw [leads] at entries
      exact ⟨spot, rfl, Except.ok.inj entries⟩

theorem withFolder_of_folder {es' : Entries} (keeps : es.Keeps es') :
    (s.withFolder ⟨.ok es'⟩).written = s.written ∧
      (s.withFolder ⟨.ok es'⟩).folder = ⟨.ok es'⟩ := by
  obtain ⟨spot, leads, rfl⟩ := follow_of_folder here
  rw [withFolder_of_follow leads]
  obtain ⟨spot', leads', rfl, -⟩ := Entries.follow_change leads keeps
  refine ⟨rfl, ?_⟩
  have found : (⟨spot.change spot'.entries, s.written⟩ : AtPath).spot = .ok spot' := leads'
  rw [folder, found]
  rfl

theorem openAt_of_folder (read : FilePath.read s.written = .ok s.path) :
    openAt s.written s.files = (.ok s, s.files) := by
  obtain ⟨spot, leads, -⟩ := follow_of_folder here
  rw [openAt, Folders.ensure_of_follow read leads]
  rfl

theorem reopen_of_folder (read : FilePath.read s.written = .ok s.path) :
    Reopening.reopen s = (.ok (), s) := by
  have opened := openAt_of_folder here read
  change (match openAt s.written s.files with
    | (.ok s, _) => ((.ok () : Except FileFault Unit), s)
    | (.error fault, files) => (.error fault, { s with files })) = _
  rw [opened]

end

theorem read_of_openAt {written : String} {files : Entries} {s : AtPath}
    (opened : (openAt written files).1 = .ok s) : FilePath.read s.written = .ok s.path := by
  cases made : Folders.ofTree.ensure written files with
  | mk result files' =>
      have result_ok : result.map (fun _ => (⟨files', written⟩ : AtPath)) = .ok s := by
        rw [openAt, made] at opened
        exact opened
      cases result with
      | error fault => cases result_ok
      | ok path =>
          obtain rfl := Except.ok.inj result_ok
          cases read : FilePath.read written with
          | error fault =>
              rw [Folders.ensure, read] at made
              cases made
          | ok path' => exact congrArg Except.ok (FilePath.eq_ofText_of_read read)

theorem reaches_of_size_le {s : AtPath} {name : String}
    (room : s.written.utf8ByteSize + 1 + name.utf8ByteSize ≤ FilePath.sizeLimit) :
    s.reaches name = true := by
  have slash : "/".utf8ByteSize = 1 := by decide
  refine decide_eq_true ?_
  rw [joinPaths]
  split
  · omega
  · split
    · rw [String.utf8ByteSize_append]
      omega
    · rw [String.utf8ByteSize_append, String.utf8ByteSize_append, slash]
      omega

/-- The keys for which no path and no name is too long. -/
structure Serves (s : AtPath) (key : String) : Prop where
  valid : Folder.isKey key = true
  short : key.utf8ByteSize ≤ 250
  reached : s.reaches (Folder.fileName key) = true

def Allows (s : AtPath) : Call → Prop
  | .get key | .delete key => s.Serves key
  | .set key _ => s.Serves key ∧ s.reaches (Entries.temporaryName 0) = true
  | .reopen => True

theorem Serves.reachesKey {s : AtPath} {key : String} (serves : s.Serves key) :
    s.reachesKey key = true := by
  rw [AtPath.reachesKey, serves.reached, Bool.or_true]

theorem Serves.of_written {s s' : AtPath} {key : String} (serves : s.Serves key)
    (same : s'.written = s.written) : s'.Serves key :=
  ⟨serves.valid, serves.short, by rw [reaches, same]; exact serves.reached⟩

theorem Allows.of_written {s s' : AtPath} {call : Call} (allowed : s.Allows call)
    (same : s'.written = s.written) : s'.Allows call := by
  cases call with
  | get key | delete key => exact Serves.of_written allowed same
  | set key value => exact ⟨allowed.1.of_written same, by rw [reaches, same]; exact allowed.2⟩
  | reopen => trivial

def Alike (here : Reply × AtPath) (there : Reply × Memory) : Prop :=
  here.1 = there.1 ∧ ∃ es, here.2.folder = ⟨.ok es⟩ ∧ Mirrors there.2 es

structure Follows (s : AtPath) (m : Memory) : Prop where
  read : FilePath.read s.written = .ok s.path
  folder : ∃ es, s.folder = ⟨.ok es⟩ ∧ Mirrors m es
  keys : m.OnlyKeys

namespace Follows

section

variable {s : AtPath} {m : Memory} (follows : s.Follows m)

include follows

theorem withFolder {m' : Memory} {es es' : Entries} (here : s.folder = ⟨.ok es⟩)
    (files : es.OnlyFiles) (mirrors : Mirrors m' es') (keys : m'.OnlyKeys) :
    (s.withFolder ⟨.ok es'⟩).written = s.written ∧ (s.withFolder ⟨.ok es'⟩).Follows m' := by
  obtain ⟨same, here'⟩ := withFolder_of_folder here (Entries.Keeps.of_onlyFiles files es')
  refine ⟨same, ?_, ⟨es', here', mirrors⟩, keys⟩
  rw [path, same]
  exact follows.read

theorem get {key : String} (serves : s.Serves key) : AtPath.get s key = .ok (m.get? key) := by
  obtain ⟨es, here, mirrors⟩ := follows.folder
  rw [AtPath.get, if_pos serves.reachesKey, here]
  exact mirrors.get serves.valid (Folder.fileName_le_nameLimit serves.short)

theorem set {key : String} (serves : s.Serves key)
    (room : s.reaches (Entries.temporaryName 0) = true) (value : String) :
    (AtPath.set s key value).1 = .ok () ∧ (AtPath.set s key value).2.written = s.written ∧
      (AtPath.set s key value).2.Follows (m.insert key value) := by
  obtain ⟨es, here, mirrors⟩ := follows.folder
  have stored := Folder.set_of_holdsText serves.valid (Folder.fileName_le_nameLimit serves.short)
    (mirrors.holdsText key) value
  rw [mirrors.erase_freshName follows.keys] at stored
  have reached : (s.reachesKey key && (!Folder.isKey key ||
      s.reaches (Entries.temporaryName 0))) = true := by
    rw [serves.reachesKey, room, Bool.or_true]
    rfl
  rw [AtPath.set, if_pos reached, here, stored]
  exact ⟨rfl, follows.withFolder here mirrors.onlyFiles (mirrors.insert key value)
    (follows.keys.insert serves.valid value)⟩

theorem delete {key : String} (serves : s.Serves key) :
    (AtPath.delete s key).1 = .ok () ∧ (AtPath.delete s key).2.written = s.written ∧
      (AtPath.delete s key).2.Follows (m.erase key) := by
  obtain ⟨es, here, mirrors⟩ := follows.folder
  have removed := Folder.delete_of_holdsText serves.valid
    (Folder.fileName_le_nameLimit serves.short) (mirrors.holdsText key)
  rw [AtPath.delete, if_pos serves.reachesKey, here, removed]
  exact ⟨rfl, follows.withFolder here mirrors.onlyFiles (mirrors.erase key)
    (follows.keys.erase key)⟩

theorem reopen : Reopening.reopen s = (.ok (), s) := by
  obtain ⟨es, here, -⟩ := follows.folder
  exact reopen_of_folder here follows.read

/-- The two give the same reply, and the one follows the other still. -/
theorem perform {call : Call} (allowed : s.Allows call) :
    (Store.perform s call).1 = (Store.perform m call).1 ∧
      (Store.perform s call).2.written = s.written ∧
      (Store.perform s call).2.Follows (Store.perform m call).2 := by
  cases call with
  | get key => exact ⟨congrArg Reply.found (follows.get allowed), rfl, follows⟩
  | set key value =>
      obtain ⟨result, written, next⟩ := follows.set allowed.1 allowed.2 value
      exact ⟨congrArg Reply.done result, written, next⟩
  | delete key =>
      obtain ⟨result, written, next⟩ := follows.delete allowed
      exact ⟨congrArg Reply.done result, written, next⟩
  | reopen =>
      have performed : Store.perform s .reopen = (.opened (.ok ()), s) :=
        congrArg (Prod.map Reply.opened id) follows.reopen
      rw [performed]
      exact ⟨rfl, rfl, follows⟩

end

theorem of_fresh {files : Entries} {written : String} {s : AtPath}
    (opened : (openAt written files).1 = .ok s) (fresh : s.folder = ⟨.ok []⟩) : s.Follows {} where
  read := read_of_openAt opened
  folder := ⟨[], fresh, Mirrors.empty⟩
  keys := fun _ present => by cases present

theorem history {s : AtPath} {m : Memory} (follows : s.Follows m) {calls : List Call}
    (allowed : ∀ call ∈ calls, s.Allows call) :
    List.Forall₂ Alike (Store.history s calls) (Store.history m calls) := by
  induction calls generalizing s m with
  | nil => exact .nil
  | cons call calls ih =>
      obtain ⟨first, rest⟩ := List.forall_mem_cons.mp allowed
      obtain ⟨same, written, next⟩ := follows.perform first
      refine .cons ⟨same, next.folder⟩ (ih next ?_)
      intro later mem
      exact (rest later mem).of_written written

end Follows

/-- Beside one in memory, a store in an empty folder gives the same answers, and the folder mirrors
the memory after every call. -/
theorem history_mirrors_memory {files : Entries} {written : String} {s : AtPath}
    (opened : (openAt written files).1 = .ok s) (fresh : s.folder = ⟨.ok []⟩)
    {calls : List Call} (allowed : ∀ call ∈ calls, s.Allows call) :
    List.Forall₂ Alike (history s calls) (history ({} : Memory) calls) :=
  (Follows.of_fresh opened fresh).history allowed

def nested : AtPath := ⟨[("a", .folder [("b", .folder [])])], "a/b"⟩

theorem openAt_nested : (openAt "a/b" []).1 = .ok nested ∧ nested.folder = ⟨.ok []⟩ := by
  have steps : (FilePath.ofText "a/b").steps = [.into "a", .into "b"] := by
    rw [FilePath.steps_ofText]
    decide
  constructor
  · have read : FilePath.read "a/b" = .ok (.ofText "a/b") := rfl
    rw [openAt, Folders.ensure, read]
    generalize FilePath.ofText "a/b" = path at steps
    cases path
    cases steps
    rfl
  · rw [folder, spot, path, nested, steps]
    rfl

/-- Both folders of the path are made. One text replaces another, outlives the store and is then
removed twice. -/
theorem history_mirrors_memory_nested :
    let s : AtPath := ⟨[("a", .folder [("b", .folder [])])], "a/b"⟩
    let calls : List Call :=
      [.get "gate-1", .set "gate-1" "\"old\"", .set "gate_2" "", .set "gate-1" "né", .reopen,
        .get "gate-1", .delete "gate-1", .delete "gate-1", .get "gate_2"]
    (openAt "a/b" []).1 = .ok s ∧ s.folder = ⟨.ok []⟩ ∧
      (∀ call ∈ calls, s.Allows call) ∧
      List.Forall₂ Alike (history s calls) (history ({} : Memory) calls) := by
  intro s calls
  obtain ⟨opened, fresh⟩ : (openAt "a/b" []).1 = .ok s ∧ s.folder = ⟨.ok []⟩ := openAt_nested
  have first : s.Serves "gate-1" := ⟨by decide, by decide, reaches_of_size_le (by decide)⟩
  have second : s.Serves "gate_2" := ⟨by decide, by decide, reaches_of_size_le (by decide)⟩
  have room : s.reaches (Entries.temporaryName 0) = true := reaches_of_size_le (by decide)
  have allowed : ∀ call ∈ calls, s.Allows call := by
    simp [calls, Allows, first, second, room]
  exact ⟨opened, fresh, allowed, history_mirrors_memory opened fresh allowed⟩

end AtPath
end Gatehouse.Store
