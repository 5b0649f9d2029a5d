import Gatehouse.Proofs.Version.Cache

/-! # The version cache without texts

An ideal cache remembers an entry or none, and knows no texts, stores or keys. A cache over a store
that works answers every operation as the ideal one does, asks the feed when it does, and stores a
text that stands for what the ideal one remembers, through histories of any length. -/

namespace Gatehouse.Version

/-! ## The ideal cache -/

def Cache.tell (c : Cache) (newest : String) : Operation → Answer
  | .newestVersion => .newestVersion newest
  | .upToDate => .upToDate (newest = c.build)
  | .information => .information ⟨c.build, some newest, some (newest = c.build)⟩
  | .purge => .purge false

namespace Ideal

abbrev State := Resources (Option Entry)

def ask (c : Cache) (dropped : Option Entry) (s : State) : String × State :=
  let clock := s.feed.returnTime s.clock
  match s.feed.fetch with
  | (.ok tag, feed) => (ofTag tag, ⟨some ⟨ofTag tag, clock, c.build⟩, feed, clock⟩)
  | (.error _, feed) => ((dropped.map (·.newestVersion)).getD c.build, ⟨none, feed, clock⟩)

def lookup (c : Cache) (s : State) : String × State :=
  match s.store with
  | some entry =>
    if entry.isExpired s.clock c.ttl = false ∧ entry.lastCurrentVersion = c.build then
      (entry.newestVersion, s)
    else ask c (some entry) s
  | none => ask c none s

def purge (c : Cache) (s : State) : Bool × State :=
  match s.store with
  | some entry =>
    if entry.lastCurrentVersion = c.build then (false, s) else (true, { s with store := none })
  | none => (false, s)

def perform (c : Cache) (operation : Operation) (s : State) : Answer × State :=
  match operation with
  | .purge => (.purge (purge c s).1, (purge c s).2)
  | .upToDate =>
    let found := lookup c (purge c s).2
    (c.tell found.1 .upToDate, found.2)
  | operation =>
    let found := lookup c s
    (c.tell found.1 operation, found.2)

theorem ask_of_ok {c : Cache} {s : State} {tag : String}
    (fetched : s.feed.outcome s.feed.calls = .ok tag) (dropped : Option Entry) :
    ask c dropped s =
      (ofTag tag, ⟨some ⟨ofTag tag, s.feed.returnTime s.clock, c.build⟩, s.feed.fetch.2,
        s.feed.returnTime s.clock⟩) := by
  simp [ask, Feed.fetch, fetched]

theorem ask_of_error {c : Cache} {s : State} {fault : ClientError}
    (failed : s.feed.outcome s.feed.calls = .error fault) (dropped : Option Entry) :
    ask c dropped s =
      ((dropped.map (·.newestVersion)).getD c.build,
        ⟨none, s.feed.fetch.2, s.feed.returnTime s.clock⟩) := by
  simp [ask, Feed.fetch, failed]

/-- What is remembered after a lookup is valid by then, and it is what the lookup answered. -/
def Backed (c : Cache) (found : String × State) : Prop :=
  found.2.store = none ∨
    ∃ entry, found.2.store = some entry ∧
      entry.isValid found.2.clock c.ttl c.build = true ∧ found.1 = entry.newestVersion

theorem backed_ask (c : Cache) (dropped : Option Entry) (s : State) : Backed c (ask c dropped s) := by
  cases fetched : s.feed.outcome s.feed.calls with
  | error fault =>
      rw [ask_of_error fetched]
      exact .inl rfl
  | ok tag =>
      rw [ask_of_ok fetched]
      exact .inr ⟨_, rfl, Entry.isValid_iff.mpr ⟨Entry.isExpired_timestamp, rfl⟩, rfl⟩

theorem backed_lookup (c : Cache) (s : State) : Backed c (lookup c s) := by
  cases stored : s.store with
  | none =>
      simp only [lookup, stored]
      exact backed_ask c none s
  | some entry =>
      by_cases valid : entry.isExpired s.clock c.ttl = false ∧ entry.lastCurrentVersion = c.build
      · simp only [lookup, stored, if_pos valid]
        exact .inr ⟨entry, stored, Entry.isValid_iff.mpr valid, rfl⟩
      · simp only [lookup, stored, if_neg valid]
        exact backed_ask c (some entry) s

end Ideal

/-! ## Histories -/

/-- What happens to a process between its start and its end. A cache that is made anew takes over
what is stored as it is. -/
inductive Act where
  | moveClock (now : Instant)
  | operate (operation : Operation)
  | renew (cache : Cache)

structure Performed (σ : Type) where
  cache : Cache
  operation : Operation
  before : Resources σ
  answer : Answer
  after : Resources σ

def Process.history {σ : Type} (perform : Cache → Operation → Resources σ → Answer × Resources σ)
    (p : Process σ) : List Act → List (Performed σ)
  | [] => []
  | .moveClock now :: acts => history perform ⟨p.cache, { p.resources with clock := now }⟩ acts
  | .renew cache :: acts => history perform ⟨cache, p.resources⟩ acts
  | .operate operation :: acts =>
    let performed := perform p.cache operation p.resources
    ⟨p.cache, operation, p.resources, performed.1, performed.2⟩ ::
      history perform ⟨p.cache, performed.2⟩ acts

/-- What the clock and the renewals leave alone and every operation keeps holds at every operation of
a history, if it does at the beginning. -/
theorem Process.holds_throughout {σ : Type}
    {perform : Cache → Operation → Resources σ → Answer × Resources σ}
    {P : Cache → Resources σ → Prop} {p : Process σ} {acts : List Act}
    (clock : ∀ c r now, P c r → P c { r with clock := now })
    (renew : ∀ c r cache, .renew cache ∈ acts → P c r → P cache r)
    (operate : ∀ e ∈ p.history perform acts, .operate e.operation ∈ acts →
      perform e.cache e.operation e.before = (e.answer, e.after) →
      P e.cache e.before → P e.cache e.after)
    (start : P p.cache p.resources) :
    ∀ e ∈ p.history perform acts, .operate e.operation ∈ acts ∧
      perform e.cache e.operation e.before = (e.answer, e.after) ∧ P e.cache e.before := by
  induction acts generalizing p with
  | nil =>
      intro e mem
      cases mem
  | cons act acts ih =>
      have renew' : ∀ c r cache, .renew cache ∈ acts → P c r → P cache r :=
        fun c r cache mem => renew c r cache (List.mem_cons_of_mem act mem)
      have later : ∀ {q : Process σ}, P q.cache q.resources →
          (∀ e ∈ q.history perform acts, e ∈ p.history perform (act :: acts)) →
          ∀ e ∈ q.history perform acts, .operate e.operation ∈ act :: acts ∧
            perform e.cache e.operation e.before = (e.answer, e.after) ∧ P e.cache e.before := by
        intro q start' within e mem
        have kept := fun e mem act' => operate e (within e mem) (List.mem_cons_of_mem act act')
        obtain ⟨act', rest⟩ := ih renew' kept start' e mem
        exact ⟨List.mem_cons_of_mem act act', rest⟩
      cases act with
      | moveClock now =>
          exact later (q := ⟨p.cache, { p.resources with clock := now }⟩) (clock _ _ now start)
            fun e mem => mem
      | renew cache =>
          exact later (q := ⟨cache, p.resources⟩) (renew _ _ cache List.mem_cons_self start)
            fun e mem => mem
      | operate operation =>
          intro e mem
          rcases List.mem_cons.mp mem with rfl | rest
          · exact ⟨List.mem_cons_self, rfl, start⟩
          · have kept := operate _ List.mem_cons_self List.mem_cons_self rfl start
            exact later (q := ⟨p.cache, (perform p.cache operation p.resources).2⟩) kept
              (fun e mem => List.mem_cons_of_mem _ mem) e rest

/-! ## What a stored text stands for -/

section

variable {σ : Type} [Store σ]

def Resources.typed (r : Resources σ) : Ideal.State := ⟨Cache.storedEntry r.store, r.feed, r.clock⟩

def Performed.typed (e : Performed σ) : Performed (Option Entry) :=
  ⟨e.cache, e.operation, e.before.typed, e.answer, e.after.typed⟩

variable {ready : σ → Prop} (working : Store.Working Cache.key ready)

include working

namespace Cache

section

variable {r : Resources σ} (usable : ready r.store)

include usable

theorem refresh_typed (c : Cache) (dropped : Option Entry) (absent : storedText r.store = none) :
    Ideal.ask c dropped r.typed =
      ((c.refresh dropped r).newest, (c.refresh dropped r).after.typed) := by
  cases fetched : r.feed.outcome r.feed.calls with
  | error fault =>
      have failed : r.typed.feed.outcome r.typed.feed.calls = .error fault := fetched
      rw [refresh_of_error c dropped fetched, Ideal.ask_of_error failed]
      cases dropped <;> simp [Resources.typed, storedEntry_of_absent absent]
  | ok tag =>
      have fetched' : r.typed.feed.outcome r.typed.feed.calls = .ok tag := fetched
      rw [refresh_of_ok c dropped fetched, Ideal.ask_of_ok fetched']
      simp [Resources.typed, storedEntry_set working usable]

theorem newestVersion_typed (c : Cache) :
    Ideal.lookup c r.typed = ((c.newestVersion r).newest, (c.newestVersion r).after.typed) := by
  rcases newestVersion_cases working usable c with
    ⟨entry, stored, valid, answered⟩ | ⟨stale, store, usable', absent, answered⟩
  · rw [answered]
    have kept := Entry.isValid_iff.mp valid
    simp [Ideal.lookup, Resources.typed, stored, kept]
  · rw [answered, ← refresh_typed working usable' c _ absent]
    cases stored : storedEntry r.store with
    | none => simp only [Ideal.lookup, Resources.typed, stored, Ideal.ask]
    | some entry =>
        have invalid : ¬ (entry.isExpired r.clock c.ttl = false ∧
            entry.lastCurrentVersion = c.build) := by
          rw [← Entry.isValid_iff, stale entry stored]
          exact Bool.false_ne_true
        simp only [Ideal.lookup, Resources.typed, stored, if_neg invalid, Ideal.ask]

theorem purgeIfUpgraded_typed (c : Cache) :
    Ideal.purge c r.typed =
      ((c.purgeIfUpgraded r.store).1,
        ({ r with store := (c.purgeIfUpgraded r.store).2 } : Resources σ).typed) := by
  cases stored : storedEntry r.store with
  | none =>
      obtain ⟨rest, purged, -, absent⟩ := purgeIfUpgraded_of_none working usable c stored
      have nothing := storedEntry_of_absent absent
      simp [Ideal.purge, Resources.typed, stored, purged, nothing]
  | some entry =>
      by_cases own : entry.lastCurrentVersion = c.build
      · rw [purgeIfUpgraded_of_own working usable stored own]
        simp [Ideal.purge, Resources.typed, stored, own]
      · rw [purgeIfUpgraded_of_other working usable stored own]
        have nothing := storedEntry_of_absent (storedText_dropEntry working usable)
        simp [Ideal.purge, Resources.typed, stored, own, nothing]

theorem perform_typed (c : Cache) (operation : Operation) :
    Ideal.perform c operation r.typed =
      ((c.perform operation r).1, (c.perform operation r).2.typed) := by
  cases operation with
  | newestVersion => simp only [Ideal.perform, newestVersion_typed working usable, perform, tell]
  | information =>
      simp only [Ideal.perform, newestVersion_typed working usable, perform, tell, report,
        isUpToDate]
  | purge => simp only [Ideal.perform, purgeIfUpgraded_typed working usable, perform]
  | upToDate =>
      let purged : Resources σ := { r with store := (c.purgeIfUpgraded r.store).2 }
      have usable' : ready purged.store := (belongsTo_purgeIfUpgraded working usable c).1
      have looked : Ideal.lookup c purged.typed =
          ((c.lookupAfterPurge r).newest, (c.lookupAfterPurge r).after.typed) :=
        newestVersion_typed working usable' c
      simp only [Ideal.perform, purgeIfUpgraded_typed working usable, purged] at looked ⊢
      rw [looked]
      rfl

/-- A lookup leaves no text or that of a valid entry, by which it answered. -/
theorem perform_leaves (c : Cache) {operation : Operation} (lookup : operation ≠ .purge) :
    storedText (c.perform operation r).2.store = none ∨
      ∃ entry, storedEntry (c.perform operation r).2.store = some entry ∧
        entry.isValid (c.perform operation r).2.clock c.ttl c.build = true ∧
        (c.perform operation r).1 = c.tell entry.newestVersion operation := by
  have same := perform_typed working usable c operation
  have found : ∃ s, Ideal.perform c operation r.typed =
      (c.tell (Ideal.lookup c s).1 operation, (Ideal.lookup c s).2) := by
    cases operation with
    | newestVersion => exact ⟨_, rfl⟩
    | information => exact ⟨_, rfl⟩
    | upToDate => exact ⟨_, rfl⟩
    | purge => exact absurd rfl lookup
  obtain ⟨s, found⟩ := found
  rw [same, Prod.mk.injEq] at found
  obtain ⟨answer, after⟩ := found
  have clock : (c.perform operation r).2.clock = (Ideal.lookup c s).2.clock :=
    congrArg Resources.clock after
  have entry : storedEntry (c.perform operation r).2.store = (Ideal.lookup c s).2.store :=
    congrArg Resources.store after
  rw [answer, clock, entry]
  rcases Ideal.backed_lookup c s with nothing | ⟨kept, stored, valid, newest⟩
  · rcases (belongsTo_perform working c operation usable).2 with absent | ⟨kept, stored, -⟩
    · exact .inl absent
    · rw [entry, nothing] at stored
      cases stored
  · exact .inr ⟨kept, stored, valid, by rw [newest]⟩

end
end Cache

/-! ## Whole histories -/

theorem Process.performed_of_mem {p : Process σ} (usable : ready p.resources.store)
    {acts : List Act} {e : Performed σ} (mem : e ∈ p.history Cache.perform acts) :
    ready e.before.store ∧ e.cache.perform e.operation e.before = (e.answer, e.after) := by
  have kept : ∀ e ∈ p.history Cache.perform acts, .operate e.operation ∈ acts →
      e.cache.perform e.operation e.before = (e.answer, e.after) →
      ready e.before.store → ready e.after.store := by
    intro e _ _ performed usable
    have next := (Cache.belongsTo_perform working e.cache e.operation usable).1
    rwa [performed] at next
  obtain ⟨-, performed, usable'⟩ := holds_throughout (P := fun _ r => ready r.store)
    (fun _ _ _ usable => usable) (fun _ _ _ _ usable => usable) kept usable e mem
  exact ⟨usable', performed⟩

theorem Process.history_typed {p : Process σ} (usable : ready p.resources.store)
    (acts : List Act) :
    (p.history Cache.perform acts).map Performed.typed =
      Process.history Ideal.perform ⟨p.cache, p.resources.typed⟩ acts := by
  induction acts generalizing p with
  | nil => rfl
  | cons act acts ih =>
      cases act with
      | moveClock now => exact ih (p := ⟨p.cache, { p.resources with clock := now }⟩) usable
      | renew cache => exact ih (p := ⟨cache, p.resources⟩) usable
      | operate operation =>
          have usable' := (Cache.belongsTo_perform working p.cache operation usable).1
          have performed := Cache.perform_typed working usable p.cache operation
          have rest := ih (p := ⟨p.cache, (p.cache.perform operation p.resources).2⟩) usable'
          simp only [Process.history, List.map_cons, performed, rest]
          rfl

/-- Whatever is stored at first and whatever happens, a cache over a store goes through the same
answers, calls of the feed and remembered entries as the ideal cache. No text outlives a lookup but
that of an entry by which the lookup answered and which is still valid. -/
theorem Process.history_refines_ideal (c : Cache) (r : Resources σ) (usable : ready r.store)
    (acts : List Act) :
    let history := Process.history Cache.perform ⟨c, r⟩ acts
    history.map Performed.typed = Process.history Ideal.perform ⟨c, r.typed⟩ acts ∧
      ∀ e ∈ history, e.operation ≠ .purge →
        Cache.storedText e.after.store = none ∨
          ∃ entry, Cache.storedEntry e.after.store = some entry ∧
            entry.isValid e.after.clock e.cache.ttl e.cache.build = true ∧
            e.answer = e.cache.tell entry.newestVersion e.operation := by
  intro history
  refine ⟨history_typed working (p := ⟨c, r⟩) usable acts, ?_⟩
  intro e mem lookup
  obtain ⟨usable', performed⟩ := performed_of_mem working (p := ⟨c, r⟩) usable mem
  have left := Cache.perform_leaves working usable' e.cache lookup
  rw [performed] at left
  exact left

omit working in
/-- A file that holds no entry, an upgrade without a purge, and a clock that is put back. -/
theorem Process.history_refines_ideal_in_folder :
    let c : Cache := ⟨"1.3.0", .ofSeconds 60⟩
    let r : Resources Store.Folder :=
      ⟨⟨.ok [("version_cache.json", .file "{}".toUTF8)]⟩,
        .replaying [.ok "v1.4.0", .error .timeout], 0⟩
    let acts : List Act :=
      [.operate .information, .renew ⟨"1.4.0", .ofSeconds 60⟩, .moveClock (-5),
        .operate .newestVersion, .operate .upToDate, .operate .purge]
    let history := Process.history Cache.perform ⟨c, r⟩ acts
    Store.Folder.Ready Cache.key r.store ∧
      history.map (·.answer) =
        [.information ⟨"1.3.0", some "1.4.0", some false⟩, .newestVersion "1.4.0", .upToDate true,
          .purge false] ∧
      history.map Performed.typed = Process.history Ideal.perform ⟨c, r.typed⟩ acts := by
  intro c r acts history
  have usable : Store.Folder.Ready Cache.key r.store := ⟨_, rfl, .inr ⟨"{}", rfl⟩⟩
  have working : Store.Working Cache.key (Store.Folder.Ready Cache.key) :=
    Store.Folder.working (by decide +kernel) (by decide +kernel)
  exact ⟨usable, by decide +kernel, (history_refines_ideal working c r usable acts).1⟩

end

/-! ## Two ways to ask whether a build is up to date

The version block does not purge first. It can therefore name the version that another build has
left behind, where the feed fails and nothing better is known. Everywhere else it says the same as
the question whether the build is up to date. -/

/-! ### The ideal cache -/

namespace Ideal

/-- Only the entry of another build makes a purge matter. -/
theorem lookup_purge_of_own {c : Cache} {s : State}
    (own : ∀ entry, s.store = some entry → entry.lastCurrentVersion = c.build) :
    lookup c (purge c s).2 = lookup c s := by
  cases stored : s.store with
  | none => simp only [purge, stored]
  | some entry => simp only [purge, stored, if_pos (own entry stored)]

theorem lookup_of_other {c : Cache} {s : State} {entry : Entry} (stored : s.store = some entry)
    (other : entry.lastCurrentVersion ≠ c.build) :
    lookup c s = ask c (some entry) s ∧ lookup c (purge c s).2 = ask c none s := by
  constructor
  · simp [lookup, stored, other]
  · simp [purge, lookup, stored, other, ask]

end Ideal

/-! ### A cache over a store -/

section

variable {σ : Type} [Store σ]

/-- The entry of another build names another version, and the feed fails. -/
def Cache.FallsBackOnOther (c : Cache) (r : Resources σ) : Prop :=
  (∃ entry, storedEntry r.store = some entry ∧ entry.lastCurrentVersion ≠ c.build ∧
      entry.newestVersion ≠ c.build) ∧
    ∃ fault, r.feed.outcome r.feed.calls = .error fault

variable {ready : σ → Prop} (working : Store.Working Cache.key ready)

include working

/-- Whatever is stored, the version block says whether the build is up to date as the question does,
except where it falls back on the entry of another build. There the block reports the build
outdated, and the question says that it is up to date. -/
theorem Cache.information_agrees_iff (c : Cache) (r : Resources σ) (usable : ready r.store) :
    ∃ report current,
      (c.perform .information r).1 = .information report ∧
      (c.perform .upToDate r).1 = .upToDate current ∧
      (report.isUpToDate = some current ↔ ¬ c.FallsBackOnOther r) ∧
      (c.FallsBackOnOther r → report.isUpToDate = some false ∧ current = true) ∧
      (c.perform .information r).2.typed = (c.perform .upToDate r).2.typed := by
  have block := perform_typed working usable c .information
  have question := perform_typed working usable c .upToDate
  simp only [Ideal.perform, Prod.mk.injEq] at block question
  rw [← block.1, ← block.2, ← question.1, ← question.2]
  refine ⟨_, _, rfl, rfl, ?_⟩
  by_cases left : ∃ entry, storedEntry r.store = some entry ∧ entry.lastCurrentVersion ≠ c.build
  · obtain ⟨entry, stored, other⟩ := left
    have typed : r.typed.store = some entry := stored
    obtain ⟨looked, purged⟩ := Ideal.lookup_of_other typed other
    rw [looked, purged]
    cases fetched : r.feed.outcome r.feed.calls with
    | ok tag =>
        have agrees : ¬ c.FallsBackOnOther r := by simp [FallsBackOnOther, fetched]
        have fetched' : r.typed.feed.outcome r.typed.feed.calls = .ok tag := fetched
        simp [Ideal.ask_of_ok fetched', agrees]
    | error fault =>
        have failed : r.typed.feed.outcome r.typed.feed.calls = .error fault := fetched
        have falls : c.FallsBackOnOther r ↔ entry.newestVersion ≠ c.build := by
          simp [FallsBackOnOther, fetched, stored, other]
        simp [Ideal.ask_of_error failed, falls]
  · have agrees : ¬ c.FallsBackOnOther r := by
      rintro ⟨⟨entry, stored, other, -⟩, -⟩
      exact left ⟨entry, stored, other⟩
    have own : ∀ entry, r.typed.store = some entry → entry.lastCurrentVersion = c.build := by
      intro entry stored
      exact Decidable.byContradiction fun other => left ⟨entry, stored, other⟩
    simp [Ideal.lookup_purge_of_own own, agrees]

omit working in
/-- An older instance that shares the store has left its own version as the newest one. While the
feed cannot be reached, a newer instance shows itself outdated and says that it is up to date. -/
theorem Cache.information_disagrees_after_older :
    let c : Cache := ⟨"1.4.0", .ofSeconds 7200⟩
    let left : Entry := ⟨"1.3.0", 1700000000000, "1.3.0"⟩
    let r : Resources Store.Memory :=
      ⟨⟨[(key, left.encode)]⟩, .replaying [.error .timeout], 1700000000000⟩
    (c.perform .information r).1 = .information ⟨"1.4.0", some "1.3.0", some false⟩ ∧
      (c.perform .upToDate r).1 = .upToDate true := by
  decide +kernel

omit working in
/-- The same two instances, where the older one had heard of the release that is running now. -/
theorem Cache.information_agrees_iff_heard :
    let c : Cache := ⟨"1.4.0", .ofSeconds 7200⟩
    let left : Entry := ⟨"1.4.0", 1700000000000, "1.3.0"⟩
    let r : Resources Store.Memory :=
      ⟨⟨[(key, left.encode)]⟩, .replaying [.error .timeout], 1700000000000⟩
    storedEntry r.store = some left ∧
      ∃ report current,
        (c.perform .information r).1 = .information report ∧
        (c.perform .upToDate r).1 = .upToDate current ∧
        report.isUpToDate = some current := by
  intro c left r
  have stored : storedEntry r.store = some left := by decide +kernel
  have agrees : ¬ c.FallsBackOnOther r := by
    rintro ⟨⟨entry, stored', -, outdated⟩, -⟩
    obtain rfl : left = entry := Option.some.inj (stored.symm.trans stored')
    exact outdated rfl
  obtain ⟨report, current, block, question, iff, -⟩ :=
    information_agrees_iff (Store.Memory.working key) c r trivial
  exact ⟨stored, report, current, block, question, iff.mpr agrees⟩

end
end Gatehouse.Version
