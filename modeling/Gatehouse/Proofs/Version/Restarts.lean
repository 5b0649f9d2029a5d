import Gatehouse.Launch
import Gatehouse.Proofs.Store.Mirror
import Gatehouse.Proofs.Version.Ideal

/-! # Restarts over one folder

A process ends, and another of the same build starts on the folder that is left. Neither an answer
nor a call of the feed tells when this happens, or whether it happens at all: processes that come
after one another do what a single one does, and what one does over a store in memory. -/

namespace Gatehouse

/-! ## The cache's file in a folder -/

namespace Store.AtPath

theorem size_joinPaths_le {folder name other : String} (relative : name.startsWith "/" = false)
    (relative' : other.startsWith "/" = false)
    (shorter : name.utf8ByteSize ≤ other.utf8ByteSize) :
    (joinPaths folder name).utf8ByteSize ≤ (joinPaths folder other).utf8ByteSize := by
  simp only [joinPaths, relative, relative', Bool.false_eq_true, if_false]
  split
  · simp only [String.utf8ByteSize_append]
    omega
  · simp only [String.utf8ByteSize_append]
    omega

theorem reaches_temporary {s : AtPath}
    (room : s.reaches (Folder.fileName Version.Cache.key) = true) :
    s.reaches (Entries.temporaryName 0) = true := by
  have shorter : (joinPaths s.written (Entries.temporaryName 0)).utf8ByteSize ≤
      (joinPaths s.written (Folder.fileName Version.Cache.key)).utf8ByteSize :=
    size_joinPaths_le (by decide +kernel) (by decide +kernel) (by decide)
  have fits : (joinPaths s.written (Folder.fileName Version.Cache.key)).utf8ByteSize ≤
      FilePath.sizeLimit := of_decide_eq_true room
  exact decide_eq_true (Nat.le_trans shorter fits)

def Mirroring (key : String) (s : AtPath) : Prop :=
  (∃ m, s.Follows m) ∧ s.Serves key ∧ s.reaches (Entries.temporaryName 0) = true

theorem working (key : String) : Working key (Mirroring key) where
  get := by
    rintro s ⟨⟨m, follows⟩, serves, -⟩
    exact ⟨_, follows.get serves⟩
  set := by
    rintro s value ⟨⟨m, follows⟩, serves, room⟩
    obtain ⟨result, written, next⟩ := follows.set serves room value
    have serves' := serves.of_written written
    have room' : (AtPath.set s key value).2.reaches (Entries.temporaryName 0) = true := by
      rw [reaches, written]
      exact room
    have stored := next.get serves'
    rw [Memory.get?_insert, if_pos rfl] at stored
    exact ⟨result, ⟨⟨_, next⟩, serves', room'⟩, stored⟩
  delete := by
    rintro s ⟨⟨m, follows⟩, serves, room⟩
    obtain ⟨result, written, next⟩ := follows.delete serves
    have serves' := serves.of_written written
    have room' : (AtPath.delete s key).2.reaches (Entries.temporaryName 0) = true := by
      rw [reaches, written]
      exact room
    have gone := next.get serves'
    rw [Memory.get?_erase, if_pos rfl] at gone
    exact ⟨result, ⟨⟨_, next⟩, serves', room'⟩, gone⟩

end Store.AtPath

namespace Version

/-! ## Processes that come after one another -/

def Process.after {σ : Type} (perform : Cache → Operation → Resources σ → Answer × Resources σ)
    (p : Process σ) : List Act → Process σ
  | [] => p
  | .moveClock now :: acts => after perform ⟨p.cache, { p.resources with clock := now }⟩ acts
  | .renew cache :: acts => after perform ⟨cache, p.resources⟩ acts
  | .operate operation :: acts =>
    after perform ⟨p.cache, (perform p.cache operation p.resources).2⟩ acts

theorem Process.history_append {σ : Type}
    (perform : Cache → Operation → Resources σ → Answer × Resources σ) (p : Process σ)
    (acts more : List Act) :
    p.history perform (acts ++ more) =
      p.history perform acts ++ (p.after perform acts).history perform more := by
  induction acts generalizing p with
  | nil => rfl
  | cons act acts ih =>
      cases act with
      | moveClock now => exact ih _
      | renew cache => exact ih _
      | operate operation =>
          simp only [List.cons_append, history, after, ih]

def Process.restart (p : Process Store.AtPath) : Except StoreError (Process Store.AtPath) :=
  let written := p.resources.store.written
  match Launch.amongFiles p.cache written p.resources.store.files with
  | (.ok (), files) => .ok ⟨p.cache, { p.resources with store := ⟨files, written⟩ }⟩
  | (.error fault, _) => .error fault

/-- The operations of processes that come after one another. Each of them starts on the folder as
the one before has left it, and fails where it cannot be opened. -/
def Process.lifetimes (p : Process Store.AtPath) :
    List (List Act) → Except StoreError (List (Performed Store.AtPath))
  | [] => .ok []
  | acts :: rest => do
    let started ← p.restart
    let later ← lifetimes (started.after Cache.perform acts) rest
    return started.history Cache.perform acts ++ later

def Performed.seen {σ : Type} (e : Performed σ) : Performed Unit :=
  ⟨e.cache, e.operation, { e.before with store := () }, e.answer, { e.after with store := () }⟩

theorem Performed.seen_typed {σ : Type} [Store σ] (e : Performed σ) : e.typed.seen = e.seen := rfl

namespace Process

/-- A process whose store holds no entry of another build is like one that has just started. -/
theorem restart_of_clean {p : Process Store.AtPath}
    (clean : p.Clean (Store.AtPath.Mirroring Cache.key)) : p.restart = .ok p := by
  obtain ⟨c, ⟨s, feed, clock⟩⟩ := p
  obtain ⟨usable, own⟩ := clean
  have purged : c.purgeIfUpgraded s = (false, s) :=
    Cache.purgeIfUpgraded_of_belongsTo (Store.AtPath.working Cache.key) usable own
  obtain ⟨⟨m, follows⟩, -⟩ := usable
  obtain ⟨es, here, -⟩ := follows.folder
  have opened := Store.AtPath.openAt_of_folder here follows.read
  have started : Launch.amongFiles c s.written s.files = (.ok (), s.files) := by
    simp only [Launch.amongFiles, bind, StateT.bind, opened]
    show (Except.ok (), (c.purgeIfUpgraded s).2.files) = _
    rw [purged]
  simp only [restart, started]

section

variable {σ : Type} [Store σ] {ready : σ → Prop} (working : Store.Working Cache.key ready)

include working

theorem Clean.after {p : Process σ} (clean : p.Clean ready) {acts : List Act}
    (same : ∀ other, .renew other ∈ acts → other = p.cache) :
    (p.after Cache.perform acts).Clean ready ∧ (p.after Cache.perform acts).cache = p.cache := by
  induction acts generalizing p with
  | nil => exact ⟨clean, rfl⟩
  | cons act acts ih =>
      have same' : ∀ other, .renew other ∈ acts → other = p.cache :=
        fun other mem => same other (List.mem_cons_of_mem act mem)
      cases act with
      | moveClock now => exact ih (p := ⟨p.cache, { p.resources with clock := now }⟩) clean same'
      | renew cache =>
          obtain rfl := same cache List.mem_cons_self
          exact ih clean same'
      | operate operation =>
          have next := Cache.belongsTo_perform working p.cache operation clean.1
          exact ih (p := ⟨p.cache, (p.cache.perform operation p.resources).2⟩) next same'

end

/-- Processes of one build that come after one another do what one process does. -/
theorem lifetimes_of_clean {p : Process Store.AtPath}
    (clean : p.Clean (Store.AtPath.Mirroring Cache.key)) {lives : List (List Act)}
    (same : ∀ acts ∈ lives, ∀ other, .renew other ∈ acts → other = p.cache) :
    p.lifetimes lives = .ok (p.history Cache.perform lives.flatten) := by
  induction lives generalizing p with
  | nil => rfl
  | cons acts lives ih =>
      obtain ⟨first, rest⟩ := List.forall_mem_cons.mp same
      obtain ⟨next, cache⟩ := clean.after (Store.AtPath.working Cache.key) first
      rw [← cache] at rest
      rw [lifetimes, restart_of_clean clean, List.flatten_cons, history_append]
      change (lifetimes (p.after Cache.perform acts) lives >>= fun later =>
        .ok (p.history Cache.perform acts ++ later)) = _
      rw [ih next rest]
      rfl

theorem seen_history_eq {σ τ : Type} [Store σ] [Store τ] {ready : σ → Prop} {ready' : τ → Prop}
    (working : Store.Working Cache.key ready) (working' : Store.Working Cache.key ready')
    {c : Cache} {r : Resources σ} {r' : Resources τ} (usable : ready r.store)
    (usable' : ready' r'.store) (alike : r.typed = r'.typed) (acts : List Act) :
    (history Cache.perform ⟨c, r⟩ acts).map Performed.seen =
      (history Cache.perform ⟨c, r'⟩ acts).map Performed.seen := by
  have here := history_typed working (p := ⟨c, r⟩) usable acts
  have there := history_typed working' (p := ⟨c, r'⟩) usable' acts
  have typed : (history Cache.perform ⟨c, r⟩ acts).map Performed.typed =
      (history Cache.perform ⟨c, r'⟩ acts).map Performed.typed := by
    rw [here, there, alike]
  simpa only [List.map_map, Function.comp_def, Performed.seen_typed] using
    congrArg (List.map Performed.seen) typed

open Store (AtPath Folder Memory) in
/-- However the acts of one build over an empty folder are divided among processes that come after
one another, all of them start, every operation goes as in a single process, with the same folder
left behind, and all that is seen of it is as over a store in memory. -/
theorem restarts_unseen {files : Entries} {written : String} {s : AtPath}
    (opened : (AtPath.openAt written files).1 = .ok s) (fresh : s.folder = ⟨.ok []⟩)
    (room : s.reaches (Folder.fileName Cache.key) = true) (c : Cache) (feed : Feed)
    (clock : Instant) (lives : List (List Act))
    (same : ∀ acts ∈ lives, ∀ other, .renew other ∈ acts → other = c) :
    let whole := history Cache.perform ⟨c, ⟨s, feed, clock⟩⟩ lives.flatten
    lifetimes ⟨c, ⟨s, feed, clock⟩⟩ lives = .ok whole ∧
      whole.map Performed.seen =
        (history Cache.perform ⟨c, ⟨({} : Memory), feed, clock⟩⟩ lives.flatten).map
          Performed.seen := by
  intro whole
  have serves : s.Serves Cache.key := ⟨by decide, by decide, room⟩
  have follows := AtPath.Follows.of_fresh opened fresh
  have usable : AtPath.Mirroring Cache.key s :=
    ⟨⟨{}, follows⟩, serves, AtPath.reaches_temporary room⟩
  have absent : Cache.storedText s = none := by
    have got : Store.get s Cache.key = .ok none := follows.get serves
    rw [Cache.storedText, got]
    rfl
  refine ⟨lifetimes_of_clean (p := ⟨c, ⟨s, feed, clock⟩⟩) ⟨usable, .inl absent⟩ same, ?_⟩
  refine seen_history_eq (AtPath.working Cache.key) (Memory.working Cache.key) usable trivial ?_ _
  have nothing : Cache.storedEntry ({} : Memory) = none := rfl
  simp only [Resources.typed, Cache.storedEntry_of_absent absent, nothing]

/-- Three starts. The second process answers by what the first has stored, and the last one falls
back on it and then asks anew. -/
theorem restarts_unseen_nested :
    let s := Store.AtPath.nested
    let c : Cache := ⟨"1.3.0", .ofSeconds 60⟩
    let feed := Feed.replaying [.ok "v1.4.0", .error .timeout, .ok "V1.5.0"]
    let lives : List (List Act) :=
      [[.operate .information, .moveClock 60000], [.operate .upToDate, .moveClock 60001],
        [.operate .newestVersion, .renew c, .operate .information]]
    (Store.AtPath.openAt "a/b" []).1 = .ok s ∧ s.folder = ⟨.ok []⟩ ∧
      s.reaches (Store.Folder.fileName Cache.key) = true ∧
      (∀ acts ∈ lives, ∀ other, .renew other ∈ acts → other = c) ∧
      ∃ operations, lifetimes ⟨c, ⟨s, feed, 0⟩⟩ lives = .ok operations ∧
        operations.map (fun e => (e.answer, e.after.feed.calls)) =
          [(.information ⟨"1.3.0", some "1.4.0", some false⟩, 1), (.upToDate false, 1),
            (.newestVersion "1.4.0", 2),
            (.information ⟨"1.3.0", some "1.5.0", some false⟩, 3)] := by
  intro s c feed lives
  obtain ⟨opened, fresh⟩ := Store.AtPath.openAt_nested
  have room : s.reaches (Store.Folder.fileName Cache.key) = true :=
    Store.AtPath.reaches_of_size_le (by decide)
  have same : ∀ acts ∈ lives, ∀ other, .renew other ∈ acts → other = c := by
    simp [lives]
  obtain ⟨ran, seen⟩ := restarts_unseen opened fresh room c feed 0 lives same
  refine ⟨opened, fresh, room, same, _, ran, ?_⟩
  let told (e : Performed Unit) : Answer × Nat := (e.answer, e.after.feed.calls)
  calc _ = ((history Cache.perform ⟨c, ⟨s, feed, 0⟩⟩ lives.flatten).map Performed.seen).map told :=
        (List.map_map ..).symm
    _ = ((history Cache.perform ⟨c, ⟨({} : Store.Memory), feed, 0⟩⟩ lives.flatten).map
          Performed.seen).map told := congrArg (List.map told) seen
    _ = _ := by decide +kernel

end Process
end Version
end Gatehouse
