import Gatehouse.Proofs.Store
import Gatehouse.Proofs.WireFormats
import Gatehouse.Version

/-! # What the operations of the version cache do to the store

Over a store that works every operation is determined by the entry that is stored, and leaves
either no text at all or an entry of the running build. A text that is no entry does not outlive
the first operation. -/

/-! ## How long an entry is trusted

The age of an entry saturates and the time to live is capped, both at 64 bits. Together they tell
exactly what whole numbers of milliseconds would, except that a time to live at the cap never ends.
-/

namespace Gatehouse.Version.Entry

variable {e : Entry} {now later : Instant} {ttl : Duration} {build : String}

theorem isExpired_iff :
    e.isExpired now ttl = true ↔
      (ttl.wholeMillis : Int) < now.toInt - e.timestamp.toInt ∧
        (ttl.wholeMillis : Int) < Int64.maxValue.toInt := by
  have bounds : Int64.minValue.toInt < 0 ∧ 0 < Int64.maxValue.toInt := by decide
  rw [isExpired, decide_eq_true_iff, Duration.cappedMillis, Instant.since]
  omega

theorem isExpired_mono (onward : now ≤ later) (expired : e.isExpired now ttl = true) :
    e.isExpired later ttl = true := by
  rw [isExpired_iff] at expired ⊢
  have later := Int64.le_iff_toInt_le.mp onward
  omega

theorem isExpired_of_longer {longer : Duration} (shorter : ttl.nanoseconds ≤ longer.nanoseconds)
    (expired : e.isExpired now longer = true) : e.isExpired now ttl = true := by
  have millis : ttl.wholeMillis ≤ longer.wholeMillis := Nat.div_le_div_right shorter
  rw [isExpired_iff] at expired ⊢
  omega

theorem isExpired_eq_false_of_within
    (within : now.toInt ≤ e.timestamp.toInt + ttl.wholeMillis) : e.isExpired now ttl = false := by
  rw [Bool.eq_false_iff, Ne, isExpired_iff]
  omega

theorem isExpired_timestamp : e.isExpired e.timestamp ttl = false :=
  isExpired_eq_false_of_within (by omega)

theorem isValid_iff :
    e.isValid now ttl build = true ↔
      e.isExpired now ttl = false ∧ e.lastCurrentVersion = build := by
  simp [isValid, isOfBuild]

/-- Neither the saturated age nor the capped time to live ever flips an answer. Below the cap an entry
is expired exactly when it is older than its whole milliseconds, however far apart the two instants
are, and at the cap never. So time only ends its validity, a longer time to live only prolongs it, and
for its own build it lasts for all of the time it was given. -/
theorem expiry_exact (e : Entry) (now : Instant) (ttl : Duration) :
    ((ttl.wholeMillis : Int) < Int64.maxValue.toInt →
        (e.isExpired now ttl = true ↔
          (ttl.wholeMillis : Int) < now.toInt - e.timestamp.toInt)) ∧
      (Int64.maxValue.toInt ≤ ttl.wholeMillis → e.isExpired now ttl = false) ∧
      (∀ later, now ≤ later → e.isExpired now ttl = true → e.isExpired later ttl = true) ∧
      (∀ longer : Duration, ttl.nanoseconds ≤ longer.nanoseconds →
        e.isExpired now longer = true → e.isExpired now ttl = true) ∧
      (now.toInt ≤ e.timestamp.toInt + ttl.wholeMillis →
        e.isValid now ttl e.lastCurrentVersion = true) := by
  refine ⟨?exact, ?never, fun _ => isExpired_mono, fun _ => isExpired_of_longer, ?lasts⟩
  case exact =>
    intro below
    rw [isExpired_iff]
    exact and_iff_left below
  case never =>
    intro capped
    rw [Bool.eq_false_iff, Ne, isExpired_iff]
    omega
  case lasts =>
    intro within
    exact isValid_iff.mpr ⟨isExpired_eq_false_of_within within, rfl⟩

/-- From the first instant to the last, with a time to live that ends in a broken millisecond and with
one of as many seconds as 64 bits hold. -/
theorem expiry_exact_first_to_last :
    let e : Entry := ⟨"1.4.0", Int64.minValue, "1.4.0"⟩
    let minute : Duration := ⟨60000999999⟩
    let ages : Duration := .ofSeconds 18446744073709551615
    minute.wholeMillis = 60000 ∧ e.isExpired Int64.maxValue minute = true ∧
      e.isExpired Int64.maxValue (.ofSeconds 60) = true ∧ e.isExpired Int64.maxValue ages = false ∧
      e.isValid (Int64.minValue + 60000) minute "1.4.0" = true ∧
      e.isExpired (Int64.minValue + 60001) minute = true ∧
      e.isExpired (Int64.minValue + 60002) minute = true := by
  intro e minute ages
  obtain ⟨exact, -⟩ := expiry_exact e Int64.maxValue minute
  have last : e.isExpired Int64.maxValue minute = true := (exact (by decide)).mpr (by decide)
  have never := (expiry_exact e Int64.maxValue ages).2.1 (by decide)
  have lasts := (expiry_exact e (Int64.minValue + 60000) minute).2.2.2.2 (by decide)
  obtain ⟨exact', -, onward, -⟩ := expiry_exact e (Int64.minValue + 60001) minute
  have ends : e.isExpired (Int64.minValue + 60001) minute = true :=
    (exact' (by decide)).mpr (by decide)
  exact ⟨by decide, last,
    (expiry_exact e Int64.maxValue (.ofSeconds 60)).2.2.2.1 minute (by decide) last, never, lasts,
    ends, onward _ (by decide) ends⟩

end Gatehouse.Version.Entry

/-! ## Operations -/

namespace Gatehouse.Version.Cache

variable {σ : Type} [Store σ]

def storedText (store : σ) : Option String := (Store.get store key).toOption.join

def storedEntry (store : σ) : Option Entry := (storedText store).bind Entry.decode?

/-- Nothing is stored but an entry of the build. -/
def BelongsTo (build : String) (store : σ) : Prop :=
  storedText store = none ∨
    ∃ entry, storedEntry store = some entry ∧ entry.lastCurrentVersion = build

theorem storedEntry_of_absent {store : σ} (absent : storedText store = none) :
    storedEntry store = none := by
  rw [storedEntry, absent, Option.bind_none]

section

variable {ready : σ → Prop} (working : Store.Working key ready) {store : σ} (usable : ready store)

include working usable

/-! ### Store operations -/

theorem get_eq : Store.get store key = .ok (storedText store) := by
  obtain ⟨found, got⟩ := working.get usable
  rw [storedText, got]
  rfl

theorem storedText_set (value : String) :
    storedText (Store.set store key value).2 = some value := by
  rw [storedText, (working.set value usable).2.2]
  rfl

theorem storedText_dropEntry : storedText (dropEntry store) = none := by
  rw [storedText, dropEntry, (working.delete usable).2.2]
  rfl

theorem ready_dropEntry : ready (dropEntry store) := (working.delete usable).2.1

theorem storedEntry_set (entry : Entry) :
    storedEntry (Store.set store key entry.encode).2 = some entry := by
  rw [storedEntry, storedText_set working usable, Option.bind_some, Entry.decode?_encode]

/-! ### Reading the entry -/

theorem readEntry_of_absent (absent : storedText store = none) :
    readEntry store = (none, store) := by
  rw [readEntry, get_eq working usable, absent]

theorem readEntry_of_entry {entry : Entry} (stored : storedEntry store = some entry) :
    readEntry store = (some entry, store) := by
  rw [storedEntry] at stored
  cases text : storedText store with
  | none =>
      rw [text] at stored
      cases stored
  | some text' =>
      rw [text, Option.bind_some] at stored
      simp only [readEntry, get_eq working usable, text, stored]

/-- Where there is no entry, there is not even a text after reading. -/
theorem readEntry_of_none (stored : storedEntry store = none) :
    ∃ rest, readEntry store = (none, rest) ∧ ready rest ∧ storedText rest = none := by
  rw [storedEntry] at stored
  cases text : storedText store with
  | none => exact ⟨store, readEntry_of_absent working usable text, usable, text⟩
  | some text' =>
      rw [text, Option.bind_some] at stored
      refine ⟨dropEntry store, ?_, ready_dropEntry working usable,
        storedText_dropEntry working usable⟩
      simp only [readEntry, get_eq working usable, text, stored]

/-! ### The purge -/

theorem purgeIfUpgraded_of_none (c : Cache) (stored : storedEntry store = none) :
    ∃ rest, c.purgeIfUpgraded store = (false, rest) ∧ ready rest ∧ storedText rest = none := by
  obtain ⟨rest, read, usable', absent⟩ := readEntry_of_none working usable stored
  exact ⟨rest, by simp [purgeIfUpgraded, read], usable', absent⟩

theorem purgeIfUpgraded_of_own {c : Cache} {entry : Entry}
    (stored : storedEntry store = some entry) (own : entry.lastCurrentVersion = c.build) :
    c.purgeIfUpgraded store = (false, store) := by
  simp [purgeIfUpgraded, readEntry_of_entry working usable stored, Entry.isOfBuild, own]

theorem purgeIfUpgraded_of_other {c : Cache} {entry : Entry}
    (stored : storedEntry store = some entry) (other : entry.lastCurrentVersion ≠ c.build) :
    c.purgeIfUpgraded store = (true, dropEntry store) := by
  simp [purgeIfUpgraded, readEntry_of_entry working usable stored, Entry.isOfBuild, other]

theorem purgeIfUpgraded_of_belongsTo {c : Cache} (own : BelongsTo c.build store) :
    c.purgeIfUpgraded store = (false, store) := by
  rcases own with absent | ⟨entry, stored, build⟩
  · simp [purgeIfUpgraded, readEntry_of_absent working usable absent]
  · exact purgeIfUpgraded_of_own working usable stored build

theorem belongsTo_purgeIfUpgraded (c : Cache) :
    ready (c.purgeIfUpgraded store).2 ∧ BelongsTo c.build (c.purgeIfUpgraded store).2 := by
  cases stored : storedEntry store with
  | none =>
      obtain ⟨rest, purged, usable', absent⟩ := purgeIfUpgraded_of_none working usable c stored
      rw [purged]
      exact ⟨usable', .inl absent⟩
  | some entry =>
      by_cases own : entry.lastCurrentVersion = c.build
      · rw [purgeIfUpgraded_of_own working usable stored own]
        exact ⟨usable, .inr ⟨entry, stored, own⟩⟩
      · rw [purgeIfUpgraded_of_other working usable stored own]
        exact ⟨ready_dropEntry working usable, .inl (storedText_dropEntry working usable)⟩

end

/-! ### Lookups -/

theorem refresh_of_ok (c : Cache) (dropped : Option Entry) {r : Resources σ} {tag : String}
    (fetched : r.feed.outcome r.feed.calls = .ok tag) :
    let clock := r.feed.returnTime r.clock
    let entry : Entry := ⟨ofTag tag, clock, c.build⟩
    c.refresh dropped r =
      ⟨ofTag tag, .refreshed,
        ⟨(Store.set r.store key entry.encode).2, r.feed.fetch.2, clock⟩⟩ := by
  simp [refresh, Feed.fetch, fetched]

theorem refresh_of_error (c : Cache) (dropped : Option Entry) {r : Resources σ}
    {fault : ClientError} (failed : r.feed.outcome r.feed.calls = .error fault) :
    c.refresh dropped r =
      ⟨dropped.elim c.build (·.newestVersion), .fallback,
        ⟨r.store, r.feed.fetch.2, r.feed.returnTime r.clock⟩⟩ := by
  simp [refresh, Feed.fetch, failed]

theorem calls_refresh (c : Cache) (dropped : Option Entry) (r : Resources σ) :
    (c.refresh dropped r).after.feed.calls = r.feed.calls + 1 ∧
      (c.refresh dropped r).outcome ≠ .hit := by
  cases fetched : r.feed.outcome r.feed.calls with
  | ok tag =>
      rw [refresh_of_ok c dropped fetched]
      exact ⟨rfl, by simp⟩
  | error fault =>
      rw [refresh_of_error c dropped fetched]
      exact ⟨rfl, by simp⟩

theorem consult_cases (c : Cache) (r : Resources σ) :
    (∃ found, c.consult r = .fresh found ∧ found.outcome = .hit ∧ found.after.feed = r.feed) ∨
      ∃ dropped rest, c.consult r = .stale dropped rest ∧ rest.feed = r.feed := by
  unfold consult
  split
  · split
    · exact .inl ⟨_, rfl, rfl, rfl⟩
    · exact .inr ⟨_, _, rfl, rfl⟩
  · exact .inr ⟨_, _, rfl, rfl⟩

theorem calls_newestVersion (c : Cache) (r : Resources σ) :
    (c.newestVersion r).after.feed.calls =
      r.feed.calls + if (c.newestVersion r).outcome = .hit then 0 else 1 := by
  rcases c.consult_cases r with ⟨found, consulted, hit, feed⟩ | ⟨dropped, rest, consulted, feed⟩
  · simp [newestVersion, consulted, hit, feed]
  · have asked := calls_refresh c dropped rest
    simp only [newestVersion, consulted]
    rw [asked.1, if_neg asked.2, feed]

theorem taking_refresh (c : Cache) (dropped : Option Entry) (r : Resources σ) :
    (c.refresh dropped r).after.feed.taking = r.feed.taking := by
  cases fetched : r.feed.outcome r.feed.calls with
  | ok tag =>
      rw [refresh_of_ok c dropped fetched]
      rfl
  | error fault =>
      rw [refresh_of_error c dropped fetched]
      rfl

theorem taking_newestVersion (c : Cache) (r : Resources σ) :
    (c.newestVersion r).after.feed.taking = r.feed.taking := by
  rcases c.consult_cases r with ⟨found, consulted, -, feed⟩ | ⟨dropped, rest, consulted, feed⟩
  · simp only [newestVersion, consulted, feed]
  · simp only [newestVersion, consulted, taking_refresh, feed]

/-- A lookup that has to end in time either does or breaks off in a call of the feed that takes too
long. -/
theorem newestWithin_cases (c : Cache) (time : Duration) (r : Resources σ) :
    c.newestWithin time r = .ok (c.newestVersion r) ∨
      ∃ rest, c.newestWithin time r = .error rest ∧ rest.feed = r.feed.fetch.2 ∧
        ¬ r.feed.callTime < time := by
  rcases c.consult_cases r with ⟨found, consulted, -⟩ | ⟨dropped, rest, consulted, feed⟩
  · exact .inl (by simp [newestWithin, newestVersion, consulted])
  · by_cases prompt : r.feed.callTime < time
    · exact .inl (by simp [newestWithin, newestVersion, consulted, feed, prompt])
    · refine .inr ⟨{ rest with feed := r.feed.fetch.2 }, ?_, rfl, prompt⟩
      simp [newestWithin, consulted, feed, prompt]

section

variable {ready : σ → Prop} (working : Store.Working key ready) {r : Resources σ}
  (usable : ready r.store)

include working usable

/-- A valid entry answers. Any other is dropped before the feed is asked. -/
theorem newestVersion_cases (c : Cache) :
    (∃ entry, storedEntry r.store = some entry ∧
        entry.isValid r.clock c.ttl c.build = true ∧
        c.newestVersion r = ⟨entry.newestVersion, .hit, r⟩) ∨
      (∀ entry, storedEntry r.store = some entry →
          entry.isValid r.clock c.ttl c.build = false) ∧
        ∃ store, ready store ∧ storedText store = none ∧
          c.newestVersion r = c.refresh (storedEntry r.store) { r with store } := by
  cases stored : storedEntry r.store with
  | none =>
      obtain ⟨store, read, usable', absent⟩ := readEntry_of_none working usable stored
      refine .inr ⟨?_, store, usable', absent, by simp [newestVersion, consult, read]⟩
      intro entry same
      cases same
  | some entry =>
      have read := readEntry_of_entry working usable stored
      cases valid : entry.isValid r.clock c.ttl c.build with
      | true => exact .inl ⟨entry, rfl, valid, by simp [newestVersion, consult, read, valid]⟩
      | false =>
          refine .inr ⟨?_, dropEntry r.store, ready_dropEntry working usable,
            storedText_dropEntry working usable, by simp [newestVersion, consult, read, valid]⟩
          intro entry' same
          cases same
          exact valid

/-- Where nothing is stored, only the entry that the feed answers for is stored afterwards. -/
theorem belongsTo_refresh (c : Cache) (dropped : Option Entry)
    (absent : storedText r.store = none) :
    ready (c.refresh dropped r).after.store ∧
      BelongsTo c.build (c.refresh dropped r).after.store := by
  cases fetched : r.feed.outcome r.feed.calls with
  | error fault =>
      rw [refresh_of_error c dropped fetched]
      exact ⟨usable, .inl absent⟩
  | ok tag =>
      rw [refresh_of_ok c dropped fetched]
      exact ⟨(working.set _ usable).2.1, .inr ⟨_, storedEntry_set working usable _, rfl⟩⟩

theorem belongsTo_newestVersion (c : Cache) :
    ready (c.newestVersion r).after.store ∧
      BelongsTo c.build (c.newestVersion r).after.store := by
  rcases newestVersion_cases working usable c with
    ⟨entry, stored, valid, answered⟩ | ⟨-, store, usable', absent, answered⟩
  · rw [answered]
    exact ⟨usable, .inr ⟨entry, stored, (Entry.isValid_iff.mp valid).2⟩⟩
  · rw [answered]
    exact belongsTo_refresh working usable' c _ absent

theorem lookupAfterPurge_of_belongsTo {c : Cache} (own : BelongsTo c.build r.store) :
    c.lookupAfterPurge r = c.newestVersion r := by
  rw [lookupAfterPurge, purgeIfUpgraded_of_belongsTo working usable own]

end
end Gatehouse.Version.Cache

/-! ## Lifetimes of the version cache

Processes of different builds come after one another and share a store. Each of them begins with a
purge and then does anything in any order. What a build finds stored is its own from the first
purge on. -/

namespace Gatehouse.Version

inductive Operation where
  | newestVersion
  | upToDate
  | information
  | purge
  deriving DecidableEq, Repr

inductive Answer where
  | newestVersion (version : String)
  | upToDate (current : Bool)
  | information (report : Report)
  | purge (dropped : Bool)
  deriving DecidableEq, Repr

/-- What happens to a process. A restart begins the lifetime of the next one, with a build and a
time to live of its own. -/
inductive Event where
  | moveClock (now : Instant)
  | operate (operation : Operation)
  | restart (cache : Cache)

structure Process (σ : Type) where
  cache : Cache
  resources : Resources σ

section

variable {σ : Type} [Store σ]

def Cache.perform (c : Cache) (operation : Operation) (r : Resources σ) : Answer × Resources σ :=
  match operation with
  | .newestVersion =>
    let found := c.newestVersion r
    (.newestVersion found.newest, found.after)
  | .upToDate =>
    let found := c.lookupAfterPurge r
    (.upToDate (c.isUpToDate found), found.after)
  | .information =>
    let found := c.newestVersion r
    (.information (c.report found), found.after)
  | .purge =>
    let (dropped, store) := c.purgeIfUpgraded r.store
    (.purge dropped, { r with store })

namespace Process

def boot (c : Cache) (r : Resources σ) : Process σ :=
  ⟨c, { r with store := (c.purgeIfUpgraded r.store).2 }⟩

def step (p : Process σ) : Event → Process σ
  | .moveClock now => { p with resources := { p.resources with clock := now } }
  | .operate operation => { p with resources := (p.cache.perform operation p.resources).2 }
  | .restart cache => boot cache p.resources

def run (p : Process σ) (events : List Event) : Process σ := events.foldl step p

end Process

/-! ### Only the own entry is stored -/

variable {ready : σ → Prop} (working : Store.Working Cache.key ready)

include working

/-- Every operation leaves the store usable and without an entry of another build, even if there
was one before. -/
theorem Cache.belongsTo_perform (c : Cache) (operation : Operation) {r : Resources σ}
    (usable : ready r.store) :
    ready (c.perform operation r).2.store ∧
      BelongsTo c.build (c.perform operation r).2.store := by
  cases operation with
  | newestVersion => exact belongsTo_newestVersion working usable c
  | information => exact belongsTo_newestVersion working usable c
  | purge => exact belongsTo_purgeIfUpgraded working usable c
  | upToDate =>
      have purged := (belongsTo_purgeIfUpgraded working usable c).1
      let r' : Resources σ := { r with store := (c.purgeIfUpgraded r.store).2 }
      have usable' : ready r'.store := purged
      exact belongsTo_newestVersion working usable' c

namespace Process

def Clean (ready : σ → Prop) (p : Process σ) : Prop :=
  ready p.resources.store ∧ Cache.BelongsTo p.cache.build p.resources.store

theorem clean_boot (c : Cache) {r : Resources σ} (usable : ready r.store) :
    Clean ready (boot c r) :=
  Cache.belongsTo_purgeIfUpgraded working usable c

theorem Clean.step {p : Process σ} (clean : Clean ready p) (event : Event) :
    Clean ready (p.step event) := by
  cases event with
  | moveClock now => exact clean
  | operate operation => exact Cache.belongsTo_perform working p.cache operation clean.1
  | restart cache => exact clean_boot working cache clean.1

theorem Clean.run {p : Process σ} (clean : Clean ready p) (events : List Event) :
    Clean ready (p.run events) := by
  induction events generalizing p with
  | nil => exact clean
  | cons event events ih => exact ih (clean.step working event)

/-- Whatever was stored at first and whichever builds came and went, what is stored belongs to the
running one, and both ways to ask whether it is up to date agree and leave the same behind. -/
theorem no_version_crosses_upgrade (c : Cache) (r : Resources σ) (usable : ready r.store)
    (events : List Event) :
    let p := (boot c r).run events
    Cache.BelongsTo p.cache.build p.resources.store ∧
      ∃ report current after,
        p.cache.perform .information p.resources = (.information report, after) ∧
        p.cache.perform .upToDate p.resources = (.upToDate current, after) ∧
        report.isUpToDate = some current := by
  intro p
  have clean : Clean ready p := (clean_boot working c usable).run working events
  refine ⟨clean.2, ?_⟩
  have same := Cache.lookupAfterPurge_of_belongsTo working clean.1 clean.2
  let found := p.cache.newestVersion p.resources
  refine ⟨p.cache.report found, p.cache.isUpToDate found, found.after, rfl, ?_, rfl⟩
  rw [Cache.perform, same]

omit working in
/-- An upgrade and the way back, from a text that is no entry. -/
theorem no_version_crosses_upgrade_and_back :
    let r : Resources Store.Memory :=
      ⟨{ entries := [(Cache.key, "garbled")] }, .replaying [.ok "v1.4.0", .error .timeout], 0⟩
    let events : List Event :=
      [.operate .information, .restart ⟨"1.4.0", .ofSeconds 60⟩, .operate .newestVersion,
        .moveClock (-5), .restart ⟨"1.3.0", .ofSeconds 60⟩, .operate .upToDate]
    let p := (boot ⟨"1.3.0", .ofSeconds 60⟩ r).run events
    Cache.storedText r.store = some "garbled" ∧ Cache.storedEntry r.store = none ∧
      Cache.BelongsTo p.cache.build p.resources.store ∧
      ∃ report current after,
        p.cache.perform .information p.resources = (.information report, after) ∧
        p.cache.perform .upToDate p.resources = (.upToDate current, after) ∧
        report.isUpToDate = some current := by
  intro r events p
  exact ⟨by decide +kernel, by decide +kernel,
    no_version_crosses_upgrade (Store.Memory.working Cache.key) _ r trivial events⟩

end Process
end
end Gatehouse.Version
