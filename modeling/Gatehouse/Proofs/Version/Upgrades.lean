import Gatehouse.Proofs.Version.Lookups

/-! # What another build has left behind

An entry of another build, or a text that is no entry at all, is gone after a purge, and nothing tells
a store that held it from one that has always been empty. The question whether the build is up to date
begins with a purge, so it never sees such a text. The entry of the running build outlives a purge
untouched. -/

namespace Gatehouse.Version

/-- Whatever is stored, it is no entry of the running build. -/
def Cache.Foreign {σ : Type} [Store σ] (c : Cache) (store : σ) : Prop :=
  ∀ entry, storedEntry store = some entry → entry.lastCurrentVersion ≠ c.build

variable {σ τ : Type} [Store σ] [Store τ] {ready : σ → Prop} {ready' : τ → Prop}
  (working : Store.Working Cache.key ready) (working' : Store.Working Cache.key ready')

namespace Cache

section

include working

theorem storedText_purgeIfUpgraded_of_foreign {c : Cache} {store : σ} (usable : ready store)
    (foreign : c.Foreign store) : storedText (c.purgeIfUpgraded store).2 = none := by
  cases stored : storedEntry store with
  | none =>
      obtain ⟨rest, purged, -, absent⟩ := purgeIfUpgraded_of_none working usable c stored
      rw [purged]
      exact absent
  | some entry =>
      rw [purgeIfUpgraded_of_other working usable stored (foreign entry stored)]
      exact storedText_dropEntry working usable

theorem perform_upToDate_purged (c : Cache) {r : Resources σ} (usable : ready r.store) :
    c.perform .upToDate (c.perform .purge r).2 = c.perform .upToDate r := by
  obtain ⟨purged, own⟩ := belongsTo_purgeIfUpgraded working usable c
  have once : c.lookupAfterPurge (c.perform .purge r).2 = c.lookupAfterPurge r :=
    lookupAfterPurge_of_belongsTo working purged own
  simp only [perform] at once ⊢
  rw [once]

theorem perform_purge_of_absent (c : Cache) {r : Resources σ} (usable : ready r.store)
    (absent : storedText r.store = none) : c.perform .purge r = (.purge false, r) := by
  rw [perform, purgeIfUpgraded_of_belongsTo working usable (.inl absent)]

end

include working working'

/-- From a text of another build, or one that is no entry, the question whether the build is up to
date goes as from an empty store, and so does everything that is done after a purge. An entry of the
running build is no reason to purge, and the store stays what it was. -/
theorem foreign_texts_unseen (c : Cache) (r : Resources σ) (usable : ready r.store) (empty : τ)
    (usable' : ready' empty) (absent : storedText empty = none) :
    let r' : Resources τ := ⟨empty, r.feed, r.clock⟩
    (c.Foreign r.store →
        (c.perform .upToDate r).1 = (c.perform .upToDate r').1 ∧
        (c.perform .upToDate r).2.texted = (c.perform .upToDate r').2.texted ∧
        c.perform .purge r' = (.purge false, r') ∧
        ∀ acts : List Act,
          (Process.history perform ⟨c, (c.perform .purge r).2⟩ acts).map Performed.texted =
            (Process.history perform ⟨c, r'⟩ acts).map Performed.texted) ∧
      ∀ entry, storedEntry r.store = some entry → entry.lastCurrentVersion = c.build →
        c.perform .purge r = (.purge false, r) := by
  intro r'
  constructor
  · intro foreign
    have gone := storedText_purgeIfUpgraded_of_foreign working usable foreign
    have same : (c.perform .purge r).2.texted = r'.texted :=
      Resources.texted_eq_iff.mpr ⟨gone.trans absent.symm, rfl, rfl⟩
    have purged : ready (c.perform .purge r).2.store :=
      (belongsTo_purgeIfUpgraded working usable c).1
    obtain ⟨answer, after⟩ := perform_texted working working' purged usable' same c .upToDate
    rw [perform_upToDate_purged working c usable] at answer after
    exact ⟨answer, after, perform_purge_of_absent working' c usable' absent,
      Process.history_texted working working' purged usable' same⟩
  · intro entry stored own
    rw [perform, purgeIfUpgraded_of_own working usable stored own]

omit working working' in
/-- A file that an older build has left, with a version in it that it took for the newest, against a
memory that has always been empty. -/
theorem foreign_texts_unseen_in_folder :
    let c : Cache := ⟨"1.4.0", .ofSeconds 60⟩
    let old : Entry := ⟨"9.9.9", 0, "1.3.0"⟩
    let feed := Feed.replaying [.error .timeout, .ok "v1.5.0"]
    let r : Resources Store.Folder :=
      ⟨⟨.ok [("version_cache.json", .file old.encode.toUTF8)]⟩, feed, 0⟩
    let r' : Resources Store.Memory := ⟨{}, feed, 0⟩
    let acts : List Act := [.operate .newestVersion, .moveClock 7, .operate .information]
    storedEntry r.store = some old ∧ (c.perform .upToDate r).1 = .upToDate true ∧
      (c.perform .upToDate r).2.texted = (c.perform .upToDate r').2.texted ∧
      (Process.history perform ⟨c, (c.perform .purge r).2⟩ acts).map Performed.texted =
        (Process.history perform ⟨c, r'⟩ acts).map Performed.texted := by
  intro c old feed r r' acts
  have usable : Store.Folder.Ready key r.store := ⟨_, rfl, .inr ⟨old.encode, rfl⟩⟩
  have working : Store.Working key (Store.Folder.Ready key) :=
    Store.Folder.working (by decide +kernel) (by decide +kernel)
  have stored : storedEntry r.store = some old := by decide +kernel
  have foreign : c.Foreign r.store := by
    intro entry stored'
    obtain rfl : old = entry := Option.some.inj (stored.symm.trans stored')
    decide
  obtain ⟨answer, after, -, later⟩ :=
    (foreign_texts_unseen working (Store.Memory.working key) c r usable {} trivial rfl).1 foreign
  refine ⟨stored, ?_, after, later acts⟩
  rw [answer]
  decide +kernel

end Cache
end Gatehouse.Version

/-! ## What a purge reports

A purge reports the entries of other builds that it takes away. A text that is no entry goes as well,
while it is read, but is not reported. -/

namespace Gatehouse.Version.Cache

section

variable {σ : Type} [Store σ]

def Removed (before after : σ) : Prop := storedText before ≠ none ∧ storedText after = none

def Garbled (store : σ) : Prop := storedText store ≠ none ∧ storedEntry store = none

/-- The ways a purge can go, with what it reports and the store after it. -/
inductive PurgeCourse (c : Cache) (store : σ) : Bool → σ → Prop
  | nothing {rest : σ} (absent : storedText store = none) (empty : storedText rest = none) :
      PurgeCourse c store false rest
  | garbled {rest : σ} (garbled : Garbled store) (empty : storedText rest = none) :
      PurgeCourse c store false rest
  | own {entry : Entry} (stored : storedEntry store = some entry)
      (own : entry.lastCurrentVersion = c.build) : PurgeCourse c store false store
  | other {entry : Entry} {rest : σ} (stored : storedEntry store = some entry)
      (other : entry.lastCurrentVersion ≠ c.build) (empty : storedText rest = none) :
      PurgeCourse c store true rest

theorem present_of_storedEntry {store : σ} {entry : Entry}
    (stored : storedEntry store = some entry) : storedText store ≠ none := by
  intro absent
  rw [storedEntry_of_absent absent] at stored
  cases stored

variable {ready : σ → Prop} (working : Store.Working key ready) {store : σ} (usable : ready store)

include working usable

theorem purgeCourse_of_purgeIfUpgraded (c : Cache) :
    ∃ reported rest, c.purgeIfUpgraded store = (reported, rest) ∧
      PurgeCourse c store reported rest := by
  cases stored : storedEntry store with
  | none =>
      obtain ⟨rest, purged, -, empty⟩ := purgeIfUpgraded_of_none working usable c stored
      by_cases absent : storedText store = none
      · exact ⟨false, rest, purged, .nothing absent empty⟩
      · exact ⟨false, rest, purged, .garbled ⟨absent, stored⟩ empty⟩
  | some entry =>
      by_cases own : entry.lastCurrentVersion = c.build
      · exact ⟨false, store, purgeIfUpgraded_of_own working usable stored own, .own stored own⟩
      · exact ⟨true, _, purgeIfUpgraded_of_other working usable stored own,
          .other stored own (storedText_dropEntry working usable)⟩

/-- Whatever is stored, a purge reports true exactly when it removes what is stored, unless that is no
entry. Such a text is removed without a report. A purge removes all that does not belong to the
running build, and leaves what it does not remove as it was. -/
theorem purge_truthful_iff (c : Cache) :
    ∃ reported rest, c.purgeIfUpgraded store = (reported, rest) ∧
      ((reported = true ↔ Removed store rest) ↔ ¬ Garbled store) ∧
      (Garbled store → reported = false ∧ Removed store rest) ∧
      (Removed store rest ↔ storedText store ≠ none ∧ c.Foreign store) ∧
      (¬ Removed store rest → storedText rest = storedText store) := by
  obtain ⟨reported, rest, purged, course⟩ := purgeCourse_of_purgeIfUpgraded working usable c
  refine ⟨reported, rest, purged, ?_⟩
  cases course with
  | nothing absent empty => simp [Removed, Garbled, absent, empty]
  | garbled garbled empty =>
      obtain ⟨present, none⟩ := garbled
      simp [Removed, Garbled, Foreign, present, none, empty]
  | own stored own =>
      have present := present_of_storedEntry stored
      simp [Removed, Garbled, Foreign, present, stored, own]
  | other stored other empty =>
      have present := present_of_storedEntry stored
      simp [Removed, Garbled, Foreign, present, stored, other, empty]

omit working usable in
/-- A file with a text that is no entry. It is gone after the purge, which reports that there was
nothing to purge. -/
theorem purge_silent_when_garbled :
    let c : Cache := ⟨"1.4.0", .ofSeconds 7200⟩
    let store : Store.Memory := ⟨[(key, "not json")]⟩
    storedText store = some "not json" ∧ Removed store (c.purgeIfUpgraded store).2 ∧
      (c.purgeIfUpgraded store).1 = false := by
  intro c store
  exact ⟨by decide +kernel, ⟨by decide +kernel, by decide +kernel⟩, by decide +kernel⟩

omit working usable in
/-- An entry that an older build has left in a folder. -/
theorem purge_truthful_iff_older :
    let c : Cache := ⟨"1.4.0", .ofSeconds 7200⟩
    let old : Entry := ⟨"1.4.0", 1700000000000, "1.3.0"⟩
    let store : Store.Folder := ⟨.ok [("version_cache.json", .file old.encode.toUTF8)]⟩
    storedEntry store = some old ∧
      ∃ reported rest, c.purgeIfUpgraded store = (reported, rest) ∧ reported = true ∧
        Removed store rest := by
  intro c old store
  have usable : Store.Folder.Ready key store := ⟨_, rfl, .inr ⟨old.encode, rfl⟩⟩
  have working : Store.Working key (Store.Folder.Ready key) :=
    Store.Folder.working (by decide +kernel) (by decide +kernel)
  have stored : storedEntry store = some old := by decide +kernel
  obtain ⟨reported, rest, purged, truthful, -, removed, -⟩ := purge_truthful_iff working usable c
  have foreign : c.Foreign store := by
    intro entry stored'
    obtain rfl : old = entry := Option.some.inj (stored.symm.trans stored')
    decide
  have gone := removed.mpr ⟨present_of_storedEntry stored, foreign⟩
  have readable : ¬ Garbled store := by simp [Garbled, stored]
  exact ⟨stored, reported, rest, purged, (truthful.mpr readable).mpr gone, gone⟩

end
end Gatehouse.Version.Cache
