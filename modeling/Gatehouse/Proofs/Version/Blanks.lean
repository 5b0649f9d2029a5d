import Gatehouse.Client
import Gatehouse.Proofs.Sessions
import Gatehouse.Proofs.Text
import Gatehouse.Proofs.Version.Lasting
import Gatehouse.Proofs.Version.Lookups

/-! # Blank versions

The release feed refuses a tag of nothing but white space. It looks at the tag as it came, and the
cache takes off the mark in front afterwards: a mark alone passes, and the version it names is blank.
Such tags are all that a blank version can come from. -/

namespace Gatehouse

def Text.Blank (text : String) : Prop := ∀ c ∈ text.toList, isBlank c = true

instance (text : String) : Decidable (Text.Blank text) := List.decidableBAll _ text.toList

namespace Version

/-- The mark of a release with nothing but white space behind it. -/
def BareMark (tag : String) : Prop :=
  ∃ mark rest, tag.toList = mark :: rest ∧ (mark = 'v' ∨ mark = 'V') ∧
    ∀ c ∈ rest, Text.isBlank c = true

theorem blank_ofTag_iff {tag : String} :
    Text.Blank (ofTag tag) ↔ Text.Blank tag ∨ BareMark tag := by
  cases chars : tag.toList with
  | nil => simp [ofTag, Text.Blank, BareMark, chars]
  | cons c rest =>
      by_cases marked : c = 'v' ∨ c = 'V'
      · have solid : Text.isBlank c = false := by rcases marked with rfl | rfl <;> decide
        simp [ofTag, Text.Blank, BareMark, chars, marked, solid]
      · simp [ofTag, Text.Blank, BareMark, chars, marked]

theorem BareMark.not_blank {tag : String} (bare : BareMark tag) : ¬ Text.Blank tag := by
  obtain ⟨mark, rest, chars, marked, -⟩ := bare
  intro blank
  have first := blank mark (by simp [chars])
  rcases marked with rfl | rfl <;> revert first <;> decide

end Version

/-! ## What the feed lets through -/

namespace Client.Release

theorem interpret_eq_ok_iff {exchange : Http.Exchange} {tag : String} :
    interpret exchange = .ok tag ↔
      Identity.Delivers tagOfJson? tag exchange ∧ ¬ Text.Blank tag := by
  have blank : (Text.trim tag.toList).isEmpty = true ↔ Text.Blank tag :=
    List.isEmpty_iff.trans Text.trim_eq_nil_iff
  constructor
  · intro interpreted
    cases exchange with
    | failed reason => cases interpreted
    | timedOut => cases interpreted
    | answered status body =>
        unfold interpret at interpreted
        dsimp only at interpreted
        split at interpreted
        · next success =>
          obtain ⟨low, high⟩ : 200 ≤ status ∧ status < 300 := by
            simpa [Http.isSuccess] using success
          cases body with
          | whole bytes =>
              dsimp only at interpreted
              split at interpreted
              · next found read =>
                split at interpreted
                · cases interpreted
                · next solid =>
                  cases interpreted
                  exact ⟨.success low high read, fun all => solid (blank.mpr all)⟩
              · cases interpreted
          | cut => cases interpreted
          | stalled => cases interpreted
        · cases interpreted
  · rintro ⟨⟨low, high, read⟩, solid⟩
    have kept : (Text.trim tag.toList).isEmpty = false := by
      rw [← Bool.not_eq_true, blank]
      exact solid
    simp [interpret, Http.isSuccess, low, high, read, kept]

end Client.Release

namespace Version

variable {σ : Type} [Store σ]

namespace Cache

/-! ## One lookup -/

theorem fetched?_eq_some_iff {c : Cache} {r : Resources σ} {entry : Entry} :
    c.fetched? r = some entry ↔
      c.trusted? r = none ∧ ∃ tag, r.feed.outcome r.feed.calls = .ok tag ∧
        entry = ⟨ofTag tag, r.feed.returnTime r.clock, c.build⟩ := by
  unfold fetched?
  cases c.trusted? r with
  | some trusted => simp
  | none =>
      cases r.feed.outcome r.feed.calls with
      | error fault => simp
      | ok tag => simp [eq_comm]

/-- A lookup answers by the entry it has from the feed, or else by the stored one. -/
theorem newest_eq (c : Cache) (r : Resources σ) :
    (c.newestVersion r).newest =
      ((c.fetched? r).or (storedEntry r.store)).elim c.build (·.newestVersion) := by
  cases trusted : c.trusted? r with
  | some entry =>
      have stored := (Option.filter_eq_some_iff.mp trusted).1
      simp [newestVersion_of_trusted trusted, fetched?, trusted, stored]
  | none =>
      rw [newestVersion_of_untrusted trusted]
      cases answered : r.feed.outcome r.feed.calls with
      | ok tag => simp [refresh, Feed.fetch, fetched?, trusted, answered]
      | error fault => simp [refresh, Feed.fetch, fetched?, trusted, answered]

theorem asked_iff {c : Cache} {r : Resources σ} :
    (c.newestVersion r).after.feed.calls = r.feed.calls + 1 ↔ c.trusted? r = none := by
  rw [(after_newestVersion c r).1]
  cases c.trusted? r with
  | some entry => simp
  | none => simp [Feed.fetch]

section

variable (view : Store.AllOrNothing σ)

/-- No entry in the store names a blank version, whether or not it can be read at the moment. -/
def Solid (store : σ) : Prop :=
  ∀ text entry, view.held store key = .ok (some text) → Entry.decode? text = some entry →
    ¬ Text.Blank entry.newestVersion

variable {view} {c : Cache} {r : Resources σ}

theorem Solid.of_stored {store : σ} (solid : Solid view store) {entry : Entry}
    (stored : storedEntry store = some entry) : ¬ Text.Blank entry.newestVersion := by
  obtain ⟨text, found, decoded⟩ := Option.bind_eq_some_iff.mp stored
  cases got : Store.get store key with
  | error fault => simp [storedText, got, Except.toOption] at found
  | ok held =>
      rw [storedText_of_get got] at found
      rw [found] at got
      exact solid text entry (view.get got) decoded

variable (solid : Solid view r.store)
  (fetched : ∀ entry, c.fetched? r = some entry → ¬ Text.Blank entry.newestVersion)

include solid fetched

theorem Solid.newestVersion : Solid view (c.newestVersion r).after.store := by
  intro text entry held decoded
  rw [held_newestVersion view, if_pos rfl, left] at held
  cases stored : c.stored? r with
  | some kept =>
      rw [stored] at held
      cases held
      have same : kept = entry := Option.some.inj ((Entry.decode?_encode kept).symm.trans decoded)
      exact same ▸ fetched kept (Option.filter_eq_some_iff.mp stored).1
  | none =>
      rw [stored] at held
      dsimp only at held
      split at held
      · cases held
      · exact solid text entry held decoded

theorem Solid.newest (named : ¬ Text.Blank c.build) :
    ¬ Text.Blank (c.newestVersion r).newest := by
  rw [newest_eq]
  cases answered : c.fetched? r with
  | some entry => exact fetched entry answered
  | none =>
      cases stored : storedEntry r.store with
      | some entry => exact solid.of_stored stored
      | none => exact named

end
end Cache

/-! ## Runs of lookups -/

def Answer.version? : Answer → Option String
  | .newestVersion version => some version
  | .information report => report.newestVersion
  | .upToDate _ | .purge _ => none

namespace Performed

/-- The operation returns a blank version, or what is stored after it is an entry that names one. -/
def ShowsBlank (e : Performed σ) : Prop :=
  (∃ version, e.answer.version? = some version ∧ Text.Blank version) ∨
    ∃ entry, Cache.storedEntry e.after.store = some entry ∧ Text.Blank entry.newestVersion

def FetchesBlank (e : Performed σ) : Prop :=
  ∃ entry, e.cache.fetched? e.before = some entry ∧ Text.Blank entry.newestVersion

omit [Store σ] in
/-- The operation asked for the latest release, and was told of one with this tag. -/
def Heard (e : Performed σ) (release : Client.Release) (nets : Nat → Http.Network) (tag : String) :
    Prop :=
  e.after.feed.calls = e.before.feed.calls + 1 ∧
    Client.Identity.Delivers Client.Release.tagOfJson? tag
      (nets e.before.feed.calls release.request)

section

variable {e : Performed σ} (asks : e.operation = .newestVersion ∨ e.operation = .information)
  (performed : e.cache.perform e.operation e.before = (e.answer, e.after))

include asks performed

theorem eq_newestVersion : e.answer.version? = some (e.cache.newestVersion e.before).newest ∧
    e.after = (e.cache.newestVersion e.before).after := by
  rcases asks with same | same
  all_goals
    rw [same] at performed
    obtain ⟨answer, after⟩ := Prod.mk.inj performed
    exact ⟨answer ▸ rfl, after.symm⟩

theorem ShowsBlank.of_fetchesBlank (fetches : e.FetchesBlank) : e.ShowsBlank := by
  obtain ⟨entry, fetched, blank⟩ := fetches
  refine .inl ⟨_, (eq_newestVersion asks performed).1, ?_⟩
  rw [Cache.newest_eq, fetched]
  exact blank

theorem fetchesBlank_iff {release : Client.Release} {nets : Nat → Http.Network}
    (feed : e.before.feed.outcome = (release.feed nets).outcome) :
    e.FetchesBlank ↔ ∃ tag, e.Heard release nets tag ∧ BareMark tag := by
  have asked : e.after.feed.calls = e.before.feed.calls + 1 ↔ e.cache.trusted? e.before = none := by
    rw [(eq_newestVersion asks performed).2, Cache.asked_iff]
  have named (tag : String) : e.before.feed.outcome e.before.feed.calls = .ok tag ↔
      Client.Identity.Delivers Client.Release.tagOfJson? tag
        (nets e.before.feed.calls release.request) ∧ ¬ Text.Blank tag := by
    rw [feed]
    exact Client.Release.interpret_eq_ok_iff
  constructor
  · rintro ⟨entry, fetched, blank⟩
    obtain ⟨untrusted, tag, outcome, rfl⟩ := Cache.fetched?_eq_some_iff.mp fetched
    obtain ⟨delivered, solid⟩ := (named tag).mp outcome
    exact ⟨tag, ⟨asked.mpr untrusted, delivered⟩, (blank_ofTag_iff.mp blank).resolve_left solid⟩
  · rintro ⟨tag, ⟨called, delivered⟩, bare⟩
    have outcome := (named tag).mpr ⟨delivered, bare.not_blank⟩
    exact ⟨_, Cache.fetched?_eq_some_iff.mpr ⟨asked.mp called, tag, outcome, rfl⟩,
      blank_ofTag_iff.mpr (.inr bare)⟩

end
end Performed

section

variable (view : Store.AllOrNothing σ) {p : Process σ} {acts : List Act}
  (named : ∀ cache, cache = p.cache ∨ .renew cache ∈ acts → ¬ Text.Blank cache.build)
  (asks : ∀ operation, .operate operation ∈ acts →
    operation = .newestVersion ∨ operation = .information)

include asks

theorem Process.feed_throughout : ∀ e ∈ p.history Cache.perform acts,
    .operate e.operation ∈ acts ∧
      e.cache.perform e.operation e.before = (e.answer, e.after) ∧
      e.before.feed.outcome = p.resources.feed.outcome := by
  refine holds_throughout (P := fun _ r => r.feed.outcome = p.resources.feed.outcome)
    (fun _ _ _ same => same) (fun _ _ _ _ same => same) (fun e _ act performed same => ?_) rfl
  rw [(Performed.eq_newestVersion (asks _ act) performed).2, (Cache.after_newestVersion _ _).1]
  split
  · exact same
  · exact same

include view named

/-- A run shows a blank version exactly if it fetches one. -/
theorem Process.showsBlank_iff (solid : Cache.Solid view p.resources.store) :
    (∃ e ∈ p.history Cache.perform acts, e.ShowsBlank) ↔
      ∃ e ∈ p.history Cache.perform acts, e.FetchesBlank := by
  constructor
  · intro shows
    by_contra never
    have fetched : ∀ e ∈ p.history Cache.perform acts, ∀ entry,
        e.cache.fetched? e.before = some entry → ¬ Text.Blank entry.newestVersion :=
      fun e mem entry fetched blank => never ⟨e, mem, entry, fetched, blank⟩
    have kept : ∀ e ∈ p.history Cache.perform acts, .operate e.operation ∈ acts →
        e.cache.perform e.operation e.before = (e.answer, e.after) →
        ¬ Text.Blank e.cache.build ∧ Cache.Solid view e.before.store →
        ¬ Text.Blank e.cache.build ∧ Cache.Solid view e.after.store := by
      rintro e mem act performed ⟨build, solid⟩
      rw [(Performed.eq_newestVersion (asks _ act) performed).2]
      exact ⟨build, solid.newestVersion (fetched e mem)⟩
    obtain ⟨e, mem, shown⟩ := shows
    obtain ⟨act, performed, build, solid'⟩ :=
      holds_throughout (P := fun c r => ¬ Text.Blank c.build ∧ Cache.Solid view r.store)
        (fun _ _ _ holds => holds) (fun _ _ _ given holds => ⟨named _ (.inr given), holds.2⟩) kept
        ⟨named _ (.inl rfl), solid⟩ e mem
    rcases shown with ⟨version, returned, blank⟩ | ⟨entry, stored, blank⟩
    · rw [(Performed.eq_newestVersion (asks _ act) performed).1] at returned
      cases returned
      exact solid'.newest (fetched e mem) build blank
    · exact (kept e mem act performed ⟨build, solid'⟩).2.of_stored stored blank
  · rintro ⟨e, mem, fetches⟩
    obtain ⟨act, performed, -⟩ := feed_throughout asks e mem
    exact ⟨e, mem, .of_fetchesBlank (asks _ act) performed fetches⟩

end

/-- Lookups that begin with nothing stored show a blank version, by what they return or what they
store, exactly if they hear of a release whose tag is a mark alone. This holds of all builds that are
not blank themselves, whatever the responses are and whichever operations of the store fail. -/
theorem Process.blank_shown_iff_bare_mark (view : Store.AllOrNothing σ) (release : Client.Release)
    (nets : Nat → Http.Network) (returned : Nat → Instant → Instant) (c : Cache) (store : σ)
    (now : Instant) (empty : view.held store Cache.key = .ok none) (acts : List Act)
    (named : ∀ cache, cache = c ∨ .renew cache ∈ acts → ¬ Text.Blank cache.build)
    (asks : ∀ operation, .operate operation ∈ acts →
      operation = .newestVersion ∨ operation = .information) :
    let r : Resources σ := ⟨store, { release.feed nets with returned }, now⟩
    let history := Process.history Cache.perform ⟨c, r⟩ acts
    (∃ e ∈ history, e.ShowsBlank) ↔
      ∃ e ∈ history, ∃ tag, e.Heard release nets tag ∧ BareMark tag := by
  intro r history
  have solid : Cache.Solid view r.store := by
    intro text entry held
    rw [empty] at held
    cases held
  rw [showsBlank_iff view (p := ⟨c, r⟩) named asks solid]
  refine exists_congr fun e => and_congr_right fun mem => ?_
  obtain ⟨act, performed, feed⟩ := feed_throughout (p := ⟨c, r⟩) asks e mem
  exact Performed.fetchesBlank_iff (asks _ act) performed feed

/-- A feed that times out at first, and then a mark with a wide space behind it that no `set` stores.
-/
theorem Process.blank_shown_iff_bare_mark_later :
    let release : Client.Release := ⟨"http://localhost:1411/latest"⟩
    let body : ByteArray := "\x7b\"tag_name\":\"V\u3000\"\x7d".toUTF8
    let nets : Nat → Http.Network := fun call _ =>
      if call = 0 then .timedOut else .answered 200 (.whole body)
    let c : Cache := ⟨"1.3.0", .ofSeconds 60⟩
    let store : Store.Faulty := { setFails := true }
    let acts : List Act :=
      [.operate .newestVersion, .moveClock 5, .renew ⟨"1.4.0", .ofSeconds 60⟩,
        .operate .information]
    let history := Process.history Cache.perform ⟨c, ⟨store, release.feed nets, 0⟩⟩ acts
    Store.Faulty.allOrNothing.held store Cache.key = .ok none ∧
      (∀ cache, cache = c ∨ .renew cache ∈ acts → ¬ Text.Blank cache.build) ∧
      (∀ operation, .operate operation ∈ acts →
        operation = .newestVersion ∨ operation = .information) ∧
      (∃ e ∈ history, ∃ tag, e.Heard release nets tag ∧ BareMark tag) ∧
      ∃ e ∈ history, e.ShowsBlank := by
  intro release body nets c store acts history
  have empty : Store.Faulty.allOrNothing.held store Cache.key = .ok none := rfl
  have named : ∀ cache, cache = c ∨ .renew cache ∈ acts → ¬ Text.Blank cache.build := by
    intro cache given
    obtain rfl | rfl : cache = c ∨ cache = ⟨"1.4.0", .ofSeconds 60⟩ := by simpa [acts] using given
    · decide +kernel
    · decide +kernel
  have asks : ∀ operation, .operate operation ∈ acts →
      operation = .newestVersion ∨ operation = .information := by
    simp [acts]
  have heard : ∃ e ∈ history, ∃ tag, e.Heard release nets tag ∧ BareMark tag := by
    refine ⟨_, List.mem_cons_of_mem _ List.mem_cons_self, "V\u3000", ⟨by decide +kernel, ?_⟩,
      'V', ['\u3000'], by decide +kernel, .inr rfl, List.forall_mem_singleton.mpr (by decide)⟩
    exact .success (by decide) (by decide) (by decide +kernel)
  have shown := (blank_shown_iff_bare_mark Store.Faulty.allOrNothing release nets (fun _ now => now)
    c store 0 empty acts named asks).mpr heard
  exact ⟨empty, named, asks, heard, shown⟩

/-- A release whose tag is the mark: the blank version is returned, stored, and returned from the
store. -/
theorem Process.bare_mark_reported :
    let release : Client.Release := ⟨"http://localhost:1411/latest"⟩
    let body : ByteArray := "\x7b\"tag_name\":\"v\"\x7d".toUTF8
    let nets : Nat → Http.Network := fun _ _ => .answered 200 (.whole body)
    let r : Resources Store.Memory := ⟨{}, release.feed nets, 0⟩
    let history := Process.history Cache.perform ⟨⟨"1.3.0", .ofSeconds 60⟩, r⟩
      [.operate .newestVersion, .operate .newestVersion]
    ¬ Text.Blank "1.3.0" ∧
      history.map (·.answer) = [.newestVersion "", .newestVersion ""] ∧
      history.map (fun e => Cache.storedEntry e.after.store) =
        [some ⟨"", 0, "1.3.0"⟩, some ⟨"", 0, "1.3.0"⟩] ∧
      history.map (·.after.feed.calls) = [1, 1] ∧ Text.Blank "" := by
  intro release body nets r history
  exact ⟨by decide +kernel, by decide +kernel, by decide +kernel, by decide +kernel,
    by decide +kernel⟩

end Version
end Gatehouse
