import Gatehouse.Proofs.Store
import Gatehouse.Proofs.Version.Ideal

/-! # What a lookup takes from the store

A lookup reads one text and nothing else, whatever the store. The text decides, with the feed and
the clock, what is answered and whether the feed is asked. What becomes of the writes and removals is
never looked at. Over stores that work the text, the feed and the clock therefore decide about
everything that will ever be done. -/

namespace Gatehouse.Version

variable {σ τ : Type} [Store σ] [Store τ]

/-- The text takes the place of the store. There is none where it cannot be read. -/
def Resources.texted (r : Resources σ) : Resources (Option String) :=
  ⟨Cache.storedText r.store, r.feed, r.clock⟩

def Performed.texted (e : Performed σ) : Performed (Option String) :=
  ⟨e.cache, e.operation, e.before.texted, e.answer, e.after.texted⟩

theorem Resources.texted_eq_iff {r : Resources σ} {r' : Resources τ} :
    r.texted = r'.texted ↔
      Cache.storedText r.store = Cache.storedText r'.store ∧ r.feed = r'.feed ∧
        r.clock = r'.clock := by
  simp only [texted, Resources.mk.injEq]

namespace Cache

/-! ## The text that is read -/

theorem storedText_of_get {store : σ} {found : Option String}
    (got : Store.get store key = .ok found) : storedText store = found := by
  rw [storedText, got]
  rfl

theorem readEntry_eq (store : σ) :
    readEntry store = (storedEntry store,
      if storedText store ≠ none ∧ storedEntry store = none then dropEntry store else store) := by
  unfold readEntry storedEntry storedText
  cases Store.get store key with
  | error fault => rfl
  | ok found =>
      cases found with
      | none => rfl
      | some text =>
          cases decoded : Entry.decode? text with
          | none => simp [Except.toOption, decoded]
          | some entry => simp [Except.toOption, decoded]

def trusted? (c : Cache) (r : Resources σ) : Option Entry :=
  (storedEntry r.store).filter (·.isValid r.clock c.ttl c.build)

def rejects (c : Cache) (r : Resources σ) : Bool :=
  (storedText r.store).isSome && (c.trusted? r).isNone

def cleared (c : Cache) (r : Resources σ) : σ := if c.rejects r then dropEntry r.store else r.store

theorem newestVersion_of_trusted {c : Cache} {r : Resources σ} {entry : Entry}
    (trusted : c.trusted? r = some entry) :
    c.newestVersion r = ⟨entry.newestVersion, .hit, r⟩ := by
  obtain ⟨stored, valid⟩ := Option.filter_eq_some_iff.mp trusted
  simp [newestVersion, consult, readEntry_eq, stored, valid]

theorem newestVersion_of_untrusted {c : Cache} {r : Resources σ} (untrusted : c.trusted? r = none) :
    c.newestVersion r = c.refresh (storedEntry r.store) { r with store := c.cleared r } := by
  cases stored : storedEntry r.store with
  | none =>
      cases text : storedText r.store with
      | none => simp [newestVersion, consult, readEntry_eq, stored, cleared, rejects, text]
      | some text' =>
          simp [newestVersion, consult, readEntry_eq, stored, cleared, rejects, text, untrusted]
  | some entry =>
      have stale : entry.isValid r.clock c.ttl c.build = false := by
        simpa [trusted?, stored, Option.filter] using untrusted
      have text : (storedText r.store).isSome = true := by
        cases text : storedText r.store with
        | none =>
            rw [storedEntry_of_absent text] at stored
            cases stored
        | some text' => rfl
      simp [newestVersion, consult, readEntry_eq, stored, stale, cleared, rejects, text, untrusted]

/-! ## Two runs from one text -/

section

variable {r : Resources σ} {r' : Resources τ} (same : r.texted = r'.texted)

include same

theorem storedEntry_congr : storedEntry r.store = storedEntry r'.store := by
  rw [storedEntry, storedEntry, (Resources.texted_eq_iff.mp same).1]

theorem trusted?_congr (c : Cache) : c.trusted? r = c.trusted? r' := by
  rw [trusted?, trusted?, storedEntry_congr same, (Resources.texted_eq_iff.mp same).2.2]

/-- Whatever writes and removals do, the answer and the calls of the feed are the same. -/
theorem newestVersion_congr (c : Cache) :
    (c.newestVersion r).newest = (c.newestVersion r').newest ∧
      (c.newestVersion r).after.feed = (c.newestVersion r').after.feed ∧
      (c.newestVersion r).after.clock = (c.newestVersion r').after.clock := by
  obtain ⟨-, feed, clock⟩ := Resources.texted_eq_iff.mp same
  cases trusted : c.trusted? r with
  | some entry =>
      rw [newestVersion_of_trusted trusted,
        newestVersion_of_trusted ((trusted?_congr same c).symm.trans trusted)]
      exact ⟨rfl, feed, clock⟩
  | none =>
      rw [newestVersion_of_untrusted trusted,
        newestVersion_of_untrusted ((trusted?_congr same c).symm.trans trusted),
        storedEntry_congr same]
      simp only [refresh, feed, clock]
      split <;> exact ⟨rfl, rfl, rfl⟩

end

/-! ## Two runs over stores that work -/

section

variable {ready : σ → Prop} {ready' : τ → Prop} (working : Store.Working key ready)
  (working' : Store.Working key ready') {r : Resources σ} {r' : Resources τ}

include working

theorem cleared_of_untrusted (usable : ready r.store) {c : Cache}
    (untrusted : c.trusted? r = none) :
    ready (c.cleared r) ∧ storedText (c.cleared r) = none := by
  cases text : storedText r.store with
  | none =>
      have kept : c.cleared r = r.store := by simp [cleared, rejects, text]
      rw [kept]
      exact ⟨usable, text⟩
  | some text' =>
      have dropped : c.cleared r = dropEntry r.store := by
        simp [cleared, rejects, text, untrusted]
      rw [dropped]
      exact ⟨ready_dropEntry working usable, storedText_dropEntry working usable⟩

variable (usable : ready r.store) (usable' : ready' r'.store) (same : r.texted = r'.texted)

include working' usable usable' same

theorem newestVersion_texted (c : Cache) :
    (c.newestVersion r).newest = (c.newestVersion r').newest ∧
      (c.newestVersion r).after.texted = (c.newestVersion r').after.texted := by
  obtain ⟨newest, feed, clock⟩ := newestVersion_congr same c
  refine ⟨newest, Resources.texted_eq_iff.mpr ⟨?_, feed, clock⟩⟩
  obtain ⟨text, feed, clock⟩ := Resources.texted_eq_iff.mp same
  cases trusted : c.trusted? r with
  | some entry =>
      rw [newestVersion_of_trusted trusted,
        newestVersion_of_trusted ((trusted?_congr same c).symm.trans trusted)]
      exact text
  | none =>
      have untrusted := (trusted?_congr same c).symm.trans trusted
      obtain ⟨ready₁, absent₁⟩ := cleared_of_untrusted working usable trusted
      obtain ⟨ready₂, absent₂⟩ := cleared_of_untrusted working' usable' untrusted
      rw [newestVersion_of_untrusted trusted, newestVersion_of_untrusted untrusted]
      simp only [refresh, feed, clock]
      split
      · rw [storedText_set working ready₁, storedText_set working' ready₂]
      · rw [absent₁, absent₂]

theorem purgeIfUpgraded_texted (c : Cache) :
    (c.purgeIfUpgraded r.store).1 = (c.purgeIfUpgraded r'.store).1 ∧
      storedText (c.purgeIfUpgraded r.store).2 = storedText (c.purgeIfUpgraded r'.store).2 := by
  cases stored : storedEntry r.store with
  | none =>
      have stored' := (storedEntry_congr same).symm.trans stored
      obtain ⟨rest, purged, -, absent⟩ := purgeIfUpgraded_of_none working usable c stored
      obtain ⟨rest', purged', -, absent'⟩ := purgeIfUpgraded_of_none working' usable' c stored'
      rw [purged, purged']
      exact ⟨rfl, absent.trans absent'.symm⟩
  | some entry =>
      have stored' := (storedEntry_congr same).symm.trans stored
      by_cases own : entry.lastCurrentVersion = c.build
      · rw [purgeIfUpgraded_of_own working usable stored own,
          purgeIfUpgraded_of_own working' usable' stored' own]
        exact ⟨rfl, (Resources.texted_eq_iff.mp same).1⟩
      · rw [purgeIfUpgraded_of_other working usable stored own,
          purgeIfUpgraded_of_other working' usable' stored' own]
        exact ⟨rfl, (storedText_dropEntry working usable).trans
          (storedText_dropEntry working' usable').symm⟩

theorem perform_texted (c : Cache) (operation : Operation) :
    (c.perform operation r).1 = (c.perform operation r').1 ∧
      (c.perform operation r).2.texted = (c.perform operation r').2.texted := by
  obtain ⟨-, feed, clock⟩ := Resources.texted_eq_iff.mp same
  cases operation with
  | newestVersion =>
      obtain ⟨newest, after⟩ := newestVersion_texted working working' usable usable' same c
      exact ⟨congrArg Answer.newestVersion newest, after⟩
  | information =>
      obtain ⟨newest, after⟩ := newestVersion_texted working working' usable usable' same c
      exact ⟨by simp only [perform, report, isUpToDate, newest], after⟩
  | purge =>
      obtain ⟨dropped, text⟩ := purgeIfUpgraded_texted working working' usable usable' same c
      exact ⟨congrArg Answer.purge dropped, Resources.texted_eq_iff.mpr ⟨text, feed, clock⟩⟩
  | upToDate =>
      let purged : Resources σ := { r with store := (c.purgeIfUpgraded r.store).2 }
      let purged' : Resources τ := { r' with store := (c.purgeIfUpgraded r'.store).2 }
      have alike : purged.texted = purged'.texted := Resources.texted_eq_iff.mpr
        ⟨(purgeIfUpgraded_texted working working' usable usable' same c).2, feed, clock⟩
      have ready₁ : ready purged.store := (belongsTo_purgeIfUpgraded working usable c).1
      have ready₂ : ready' purged'.store := (belongsTo_purgeIfUpgraded working' usable' c).1
      obtain ⟨newest, after⟩ := newestVersion_texted working working' ready₁ ready₂ alike c
      exact ⟨congrArg (fun newest => Answer.upToDate (newest = c.build)) newest, after⟩

end
end Cache

/-- Stores with one text are never told apart, whatever happens. -/
theorem Process.history_texted {ready : σ → Prop} {ready' : τ → Prop}
    (working : Store.Working Cache.key ready) (working' : Store.Working Cache.key ready')
    {c : Cache} {r : Resources σ} {r' : Resources τ} (usable : ready r.store)
    (usable' : ready' r'.store) (same : r.texted = r'.texted) (acts : List Act) :
    (history Cache.perform ⟨c, r⟩ acts).map Performed.texted =
      (history Cache.perform ⟨c, r'⟩ acts).map Performed.texted := by
  induction acts generalizing c r r' with
  | nil => rfl
  | cons act acts ih =>
      obtain ⟨text, feed, clock⟩ := Resources.texted_eq_iff.mp same
      cases act with
      | moveClock now => exact ih usable usable' (Resources.texted_eq_iff.mpr ⟨text, feed, rfl⟩)
      | renew cache => exact ih usable usable' same
      | operate operation =>
          obtain ⟨answer, after⟩ :=
            Cache.perform_texted working working' usable usable' same c operation
          have ready₁ := (Cache.belongsTo_perform working c operation usable).1
          have ready₂ := (Cache.belongsTo_perform working' c operation usable').1
          simp only [history, List.map_cons, Performed.texted, answer, after, same,
            ih ready₁ ready₂ after]

end Gatehouse.Version

/-! ## Lookups over stores that fail

Any of the three operations of the store may fail during a lookup. What is answered depends on none
but the `get`, and a `get` that fails is as good as an empty store. What is left under the key follows
from which of the others went through, and no other key is touched. -/

namespace Gatehouse.Version.Cache

variable {σ : Type} [Store σ]

/-- The entry that a lookup has from the feed, where it asks the feed and gets an answer. -/
def fetched? (c : Cache) (r : Resources σ) : Option Entry :=
  match c.trusted? r, r.feed.outcome r.feed.calls with
  | none, .ok tag => some ⟨ofTag tag, r.feed.returnTime r.clock, c.build⟩
  | _, _ => none

def stored? (c : Cache) (r : Resources σ) : Option Entry :=
  (c.fetched? r).filter fun entry => (Store.set (c.cleared r) key entry.encode).1.isOk

theorem cleared_of_trusted {c : Cache} {r : Resources σ} {entry : Entry}
    (trusted : c.trusted? r = some entry) : c.cleared r = r.store := by
  simp [cleared, rejects, trusted]

/-- The feed is asked but where there is an entry to answer by, and what it answers goes to the store
once a rejected text has been dropped. -/
theorem after_newestVersion (c : Cache) (r : Resources σ) :
    (c.newestVersion r).after.feed = (if (c.trusted? r).isSome then r.feed else r.feed.fetch.2) ∧
      (c.newestVersion r).after.store =
        (c.fetched? r).elim (c.cleared r) fun entry =>
          (Store.set (c.cleared r) key entry.encode).2 := by
  cases trusted : c.trusted? r with
  | some entry =>
      rw [newestVersion_of_trusted trusted, cleared_of_trusted trusted]
      simp [fetched?, trusted]
  | none =>
      rw [newestVersion_of_untrusted trusted]
      cases answered : r.feed.outcome r.feed.calls with
      | ok tag => simp [refresh, Feed.fetch, fetched?, trusted, answered]
      | error fault => simp [refresh, Feed.fetch, fetched?, trusted, answered]

section

variable (view : Store.AllOrNothing σ)

include view

theorem held_cleared (c : Cache) (r : Resources σ) (other : String) :
    view.held (c.cleared r) other =
      if (c.rejects r ∧ (Store.delete r.store key).1.isOk) ∧ other = key then .ok none
      else view.held r.store other := by
  cases rejected : c.rejects r with
  | false => simp [cleared, rejected]
  | true =>
      have dropped : c.cleared r = (Store.delete r.store key).2 := by
        simp [cleared, rejected, dropEntry]
      rw [dropped, view.delete]
      simp

def left (c : Cache) (r : Resources σ) : Except StoreError (Option String) :=
  match c.stored? r with
  | some entry => .ok (some entry.encode)
  | none =>
    if c.rejects r ∧ (Store.delete r.store key).1.isOk then .ok none else view.held r.store key

theorem held_newestVersion (c : Cache) (r : Resources σ) (other : String) :
    view.held (c.newestVersion r).after.store other =
      if other = key then left view c r else view.held r.store other := by
  rw [(after_newestVersion c r).2, left, stored?]
  cases fetched : c.fetched? r with
  | none =>
      rw [Option.elim_none, held_cleared view]
      by_cases same : other = key <;> simp [same]
  | some entry =>
      rw [Option.elim_some, view.set, held_cleared view]
      by_cases same : other = key
      · cases stored : (Store.set (c.cleared r) key entry.encode).1.isOk <;>
          simp [same, Option.filter, stored]
      · simp [same]

/-- Whichever operations of the store fail, a lookup answers and asks the feed as over a store that
never fails and holds the text that was read, or none where the `get` failed. Only the text under the
key can change: to that of an entry that was fetched and stored, and else to none where a text was
rejected and could be removed. -/
theorem failures_absorbed (c : Cache) (r : Resources σ) {operation : Operation}
    (asks : operation = .newestVersion ∨ operation = .information) :
    let performed := c.perform operation r
    (∀ {τ : Type} [Store τ] (r' : Resources τ),
        Store.get r'.store key = .ok (storedText r.store) → r'.feed = r.feed → r'.clock = r.clock →
        performed.1 = (c.perform operation r').1 ∧
          performed.2.feed = (c.perform operation r').2.feed) ∧
      performed.2.feed = (if (c.trusted? r).isSome then r.feed else r.feed.fetch.2) ∧
      (∀ other, other ≠ key → view.held performed.2.store other = view.held r.store other) ∧
      view.held performed.2.store key = left view c r := by
  intro performed
  have after : performed.2 = (c.newestVersion r).after := by
    rcases asks with rfl | rfl <;> rfl
  rw [after]
  refine ⟨?_, (after_newestVersion c r).1, ?_, ?_⟩
  · intro τ _ r' found feed clock
    have same : r.texted = r'.texted :=
      Resources.texted_eq_iff.mpr ⟨(storedText_of_get found).symm, feed.symm, clock.symm⟩
    obtain ⟨newest, calls, -⟩ := newestVersion_congr same c
    rcases asks with rfl | rfl
    · exact ⟨congrArg Answer.newestVersion newest, calls⟩
    · exact ⟨by simp only [performed, perform, report, isUpToDate, newest], calls⟩
  · intro other different
    rw [held_newestVersion view, if_neg different]
  · rw [held_newestVersion view, if_pos rfl]

end

/-- The entry of another build can neither be removed nor be replaced. The feed is asked, and the
entry is there still, with all else in the store. -/
theorem failures_absorbed_after_upgrade :
    let c : Cache := ⟨"1.4.0", .ofSeconds 60⟩
    let old : Entry := ⟨"1.3.0", 0, "1.3.0"⟩
    let memory : Store.Memory := ⟨[("mode", "dark"), (key, old.encode)]⟩
    let feed := Feed.replaying [.ok "v1.5.0"]
    let r : Resources Store.Faulty := ⟨⟨memory, false, true, true⟩, feed, 5⟩
    (c.perform .information r).1 = .information ⟨"1.4.0", some "1.5.0", some false⟩ ∧
      (c.perform .information r).2.feed = feed.fetch.2 ∧
      (c.perform .information r).2.store.memory.get? "mode" = some "dark" ∧
      (c.perform .information r).2.store.memory.get? key = some old.encode := by
  intro c old memory feed r
  obtain ⟨alike, asked, others, own⟩ :=
    failures_absorbed Store.Faulty.allOrNothing c r (.inr rfl)
  have untrusted : c.trusted? r = none := by decide +kernel
  have found : Store.get memory key = .ok (storedText r.store) := by decide +kernel
  have held (f : Store.Faulty) (key : String) :
      Store.Faulty.allOrNothing.held f key = .ok (f.memory.get? key) := rfl
  have kept : left Store.Faulty.allOrNothing c r = .ok (some old.encode) := by decide +kernel
  refine ⟨?_, ?_, ?_, ?_⟩
  · rw [(alike ⟨memory, feed, 5⟩ found rfl rfl).1]
    decide +kernel
  · rw [asked, untrusted]
    rfl
  · have dark : memory.get? "mode" = some "dark" := by decide
    have same := others "mode" (by decide)
    simp only [held, Except.ok.injEq] at same
    exact same.trans dark
  · simp only [held, kept, Except.ok.injEq] at own
    exact own

end Gatehouse.Version.Cache
