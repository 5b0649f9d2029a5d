import Gatehouse.Proofs.Version.Ideal

/-! # How long a fetched release lasts

Once the feed has named a release, every operation of the same build answers by it until the time to
live is over, and no operation asks the feed before. This holds of the ideal cache, and so of a
cache over a store. -/

namespace Gatehouse.Version

namespace Performed

variable {σ : Type}

def Fetched (e : Performed σ) (tag : String) : Prop :=
  e.after.feed.calls = e.before.feed.calls + 1 ∧
    e.before.feed.outcome e.before.feed.calls = .ok tag

/-- The clock was not put back, neither while the feed was asked nor between two operations. -/
def Onward (history : List (Performed σ)) : Prop :=
  (∀ e ∈ history, e.before.clock ≤ e.after.clock) ∧
    history.Pairwise fun e later => e.after.clock ≤ later.before.clock

instance (history : List (Performed σ)) : Decidable (Onward history) :=
  inferInstanceAs (Decidable (_ ∧ _))

theorem Onward.tail {e : Performed σ} {rest : List (Performed σ)} (onward : Onward (e :: rest)) :
    Onward rest :=
  ⟨fun later mem => onward.1 later (List.mem_cons_of_mem e mem), (List.pairwise_cons.mp onward.2).2⟩

/-- How the operations after a fetch are bound to it. -/
def LastsFor (c : Cache) (e later : Performed σ) : Prop :=
  ∀ tag, e.Fetched tag →
    (∀ tag', later.Fetched tag' →
      (c.ttl.wholeMillis : Int) < later.after.clock.toInt - e.after.clock.toInt ∧
        (c.ttl.wholeMillis : Int) < Int64.maxValue.toInt) ∧
    (later.before.clock.toInt - e.after.clock.toInt ≤ c.ttl.wholeMillis →
      later.answer = c.tell (ofTag tag) later.operation ∧ later.after.feed = later.before.feed)

end Performed

namespace Ideal

/-! ## One operation -/

theorem purge_feed (c : Cache) (s : State) :
    (purge c s).2.feed = s.feed ∧ (purge c s).2.clock = s.clock := by
  unfold purge
  split
  · split
    · exact ⟨rfl, rfl⟩
    · exact ⟨rfl, rfl⟩
  · exact ⟨rfl, rfl⟩

theorem lookup_after (c : Cache) (s : State) :
    (lookup c s).2 = s ∨ ∃ dropped, (lookup c s).2 = (ask c dropped s).2 := by
  unfold lookup
  split
  · split
    · exact .inl rfl
    · exact .inr ⟨_, rfl⟩
  · exact .inr ⟨_, rfl⟩

theorem ask_feed (c : Cache) (dropped : Option Entry) (s : State) :
    (ask c dropped s).2.feed = s.feed.fetch.2 := by
  cases fetched : s.feed.outcome s.feed.calls with
  | error fault => rw [ask_of_error fetched]
  | ok tag => rw [ask_of_ok fetched]

theorem perform_after (c : Cache) (operation : Operation) (s : State) :
    (perform c operation s).2.feed = s.feed ∨
      ∃ dropped, (perform c operation s).2 = (ask c dropped s).2 := by
  cases operation with
  | purge => exact .inl (purge_feed c s).1
  | newestVersion | information =>
      rcases lookup_after c s with same | asked
      · exact .inl (congrArg Resources.feed same)
      · exact .inr asked
  | upToDate =>
      obtain ⟨feed, clock⟩ := purge_feed c s
      rcases lookup_after c (purge c s).2 with same | ⟨dropped, asked⟩
      · exact .inl ((congrArg Resources.feed same).trans feed)
      · refine .inr ⟨dropped, asked.trans ?_⟩
        simp only [ask, feed, clock]

theorem perform_of_unexpired {c : Cache} {s : State} {entry : Entry}
    (stored : s.store = some entry) (own : entry.lastCurrentVersion = c.build)
    (unexpired : entry.isExpired s.clock c.ttl = false) (operation : Operation) :
    perform c operation s = (c.tell entry.newestVersion operation, s) := by
  cases operation <;> simp [perform, lookup, purge, stored, own, unexpired, Cache.tell]

theorem store_of_fetched {c : Cache} {operation : Operation} {s : State} {tag : String}
    (asked : (perform c operation s).2.feed.calls = s.feed.calls + 1)
    (named : s.feed.outcome s.feed.calls = .ok tag) :
    (perform c operation s).2.store =
      some ⟨ofTag tag, (perform c operation s).2.clock, c.build⟩ := by
  rcases perform_after c operation s with same | ⟨dropped, after⟩
  · rw [same] at asked
    omega
  · rw [after, ask_of_ok named]

/-! ## Histories -/

/-- An entry of the build answers every operation until it expires. -/
theorem answered_until_expired {p : Process (Option Entry)} {entry : Entry}
    (stored : p.resources.store = some entry) (own : entry.lastCurrentVersion = p.cache.build)
    {acts : List Act} (same : ∀ cache, .renew cache ∈ acts → cache = p.cache)
    (onward : Performed.Onward (p.history perform acts)) :
    ∀ e ∈ p.history perform acts, entry.isExpired e.before.clock p.cache.ttl = false →
      e.answer = p.cache.tell entry.newestVersion e.operation ∧ e.after.feed = e.before.feed := by
  induction acts generalizing p with
  | nil =>
      intro e mem
      cases mem
  | cons act acts ih =>
      have same' : ∀ cache, .renew cache ∈ acts → cache = p.cache :=
        fun cache mem => same cache (List.mem_cons_of_mem act mem)
      cases act with
      | moveClock now =>
          exact ih (p := ⟨p.cache, { p.resources with clock := now }⟩) stored own same' onward
      | renew cache =>
          obtain rfl := same cache List.mem_cons_self
          exact ih stored own same' onward
      | operate operation =>
          intro e mem unexpired
          cases now : entry.isExpired p.resources.clock p.cache.ttl with
          | false =>
              have kept := perform_of_unexpired stored own now operation
              rw [Process.history, kept] at mem onward
              rcases List.mem_cons.mp mem with rfl | later
              · exact ⟨rfl, rfl⟩
              · exact ih stored own same' onward.tail e later unexpired
          | true =>
              rcases List.mem_cons.mp mem with rfl | later
              · rw [now] at unexpired
                cases unexpired
              · have during := onward.1 _ List.mem_cons_self
                have between := (List.pairwise_cons.mp onward.2).1 e later
                rw [Entry.isExpired_mono (Int64.le_trans during between) now] at unexpired
                cases unexpired

theorem lastsFor_of_head {c : Cache} {operation : Operation} {s : State} {acts : List Act}
    (same : ∀ cache, .renew cache ∈ acts → cache = c)
    (onward : Performed.Onward (Process.history perform ⟨c, s⟩ (.operate operation :: acts))) :
    let e : Performed (Option Entry) :=
      ⟨c, operation, s, (perform c operation s).1, (perform c operation s).2⟩
    ∀ later ∈ Process.history perform ⟨c, (perform c operation s).2⟩ acts, e.LastsFor c later := by
  rintro e later mem tag ⟨asked, named⟩
  have stored : e.after.store = some ⟨ofTag tag, e.after.clock, c.build⟩ :=
    store_of_fetched asked named
  have answered :=
    answered_until_expired (p := ⟨c, e.after⟩) stored rfl same onward.tail later mem
  refine ⟨?_, ?_⟩
  · rintro tag' ⟨asked', -⟩
    have during := Int64.le_iff_toInt_le.mp (onward.1 later (List.mem_cons_of_mem e mem))
    cases expired : Entry.isExpired ⟨ofTag tag, e.after.clock, c.build⟩ later.before.clock c.ttl with
    | false =>
        rw [(answered expired).2] at asked'
        omega
    | true =>
        have past := Entry.isExpired_iff.mp expired
        dsimp only at past
        omega
  · intro young
    refine answered ?_
    rw [Bool.eq_false_iff, Ne, Entry.isExpired_iff]
    dsimp only
    omega

theorem pairwise_lastsFor {c : Cache} {s : State} {acts : List Act}
    (same : ∀ cache, .renew cache ∈ acts → cache = c)
    (onward : Performed.Onward (Process.history perform ⟨c, s⟩ acts)) :
    (Process.history perform ⟨c, s⟩ acts).Pairwise (Performed.LastsFor c) := by
  induction acts generalizing s with
  | nil => exact .nil
  | cons act acts ih =>
      have same' : ∀ cache, .renew cache ∈ acts → cache = c :=
        fun cache mem => same cache (List.mem_cons_of_mem act mem)
      cases act with
      | moveClock now => exact ih same' onward
      | renew cache =>
          obtain rfl := same cache List.mem_cons_self
          exact ih same' onward
      | operate operation =>
          exact .cons (lastsFor_of_head same' onward) (ih same' onward.tail)

end Ideal

/-! ## A cache over a store -/

section

variable {σ : Type} [Store σ] {ready : σ → Prop} (working : Store.Working Cache.key ready)

include working

theorem Performed.onward_typed {p : Process σ} (usable : ready p.resources.store)
    {acts : List Act} (onward : Onward (p.history Cache.perform acts)) :
    Onward (Process.history Ideal.perform ⟨p.cache, p.resources.typed⟩ acts) := by
  rw [← Process.history_typed working usable acts]
  refine ⟨?_, List.pairwise_map.mpr onward.2⟩
  intro e mem
  obtain ⟨e', mem', rfl⟩ := List.mem_map.mp mem
  exact onward.1 e' mem'

/-- Whatever happens to a build whose clock is not put back, no operation asks the feed twice, two
fetches are more than the time to live apart, and until it is over every operation answers by the
release that was fetched and leaves the feed alone. -/
theorem Process.fetch_lasts_ttl (c : Cache) (r : Resources σ) (usable : ready r.store)
    (acts : List Act)
    (same : ∀ other, .renew other ∈ acts → other.build = c.build ∧ other.ttl = c.ttl)
    (onward : Performed.Onward (Process.history Cache.perform ⟨c, r⟩ acts)) :
    let history := Process.history Cache.perform ⟨c, r⟩ acts
    (∀ e ∈ history, e.after.feed = e.before.feed ∨ e.after.feed = e.before.feed.fetch.2) ∧
      history.Pairwise (Performed.LastsFor c) := by
  intro history
  have usable' : ready (⟨c, r⟩ : Process σ).resources.store := usable
  refine ⟨?_, ?_⟩
  · intro e mem
    obtain ⟨ready, performed⟩ := performed_of_mem working usable' mem
    have typed := Cache.perform_typed working ready e.cache e.operation
    rw [performed] at typed
    have after := Ideal.perform_after e.cache e.operation e.before.typed
    rw [typed] at after
    rcases after with untouched | ⟨dropped, asked⟩
    · exact .inl untouched
    · exact .inr ((congrArg Resources.feed asked).trans (Ideal.ask_feed _ _ _))
  · have equal : ∀ other, .renew other ∈ acts → other = c := by
      intro other mem
      obtain ⟨build, ttl⟩ := other
      obtain ⟨rfl, rfl⟩ := same _ mem
      rfl
    have lasting := Ideal.pairwise_lastsFor equal (Performed.onward_typed working usable' onward)
    rw [← history_typed working usable' acts] at lasting
    exact (List.pairwise_map.mp lasting).imp id

omit working in
/-- A fetch that takes two milliseconds, a lookup at the end of the time to live, one after it that
the feed fails, and another fetch. -/
theorem Process.fetch_lasts_ttl_refetched :
    let c : Cache := ⟨"1.3.0", .ofMillis 10⟩
    let feed := Feed.replaying [.ok "v1.4.0", .error .timeout, .ok "V1.5.0"]
    let r : Resources Store.Memory := ⟨{}, { feed with returned := fun _ now => now + 2 }, 0⟩
    let acts : List Act :=
      [.operate .information, .moveClock 12, .operate .upToDate, .renew ⟨"1.3.0", .ofMillis 10⟩,
        .operate .purge, .moveClock 13, .operate .newestVersion, .operate .newestVersion]
    let history := Process.history Cache.perform ⟨c, r⟩ acts
    (∀ other, .renew other ∈ acts → other.build = c.build ∧ other.ttl = c.ttl) ∧
      Performed.Onward history ∧
      history.map (·.answer) =
        [.information ⟨"1.3.0", some "1.4.0", some false⟩, .upToDate false, .purge false,
          .newestVersion "1.4.0", .newestVersion "1.5.0"] ∧
      history.map (·.after.clock) = [2, 12, 12, 15, 17] ∧
      history.Pairwise (Performed.LastsFor c) := by
  intro c feed r acts history
  have same : ∀ other, .renew other ∈ acts → other.build = c.build ∧ other.ttl = c.ttl := by
    simp [acts, c]
  have onward : Performed.Onward history := by decide +kernel
  exact ⟨same, onward, by decide +kernel, by decide +kernel,
    (fetch_lasts_ttl (Store.Memory.working Cache.key) c r trivial acts same onward).2⟩

end
end Gatehouse.Version
