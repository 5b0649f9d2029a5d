import Gatehouse.Metrics
import Mathlib.Algebra.Order.BigOperators.Group.Finset
import Mathlib.Data.Finset.Prod
import Mathlib.Tactic.Ring

/-! # Sums and series

A counter is told apart by its labels into many samples. What they add up to is what was recorded, and
how many they are is bounded by the labels. -/

/-! ## Sums over samples

A counter is told apart by its labels into many samples. Summed up over some of them it has grown by
as many as were recorded with such labels, however long what was recorded took. -/

namespace Gatehouse.Metrics

namespace Totals

/-- How much the samples with a property have grown together. -/
def sumOver (t : Totals) (p : Sample → Bool) : Nat :=
  (t.counts.filter (p ·.1)).foldr (·.2 + ·) 0

theorem sumOver_increment (t : Totals) (s : Sample) (p : Sample → Bool) :
    sumOver ⟨increment s t.counts⟩ p = t.sumOver p + if p s then 1 else 0 := by
  unfold sumOver
  induction t.counts with
  | nil => cases taken : p s <;> simp [increment, taken]
  | cons first rest ih =>
      obtain ⟨other, n⟩ := first
      unfold increment
      split
      · next same =>
          subst same
          cases taken : p other <;> simp [taken]
          omega
      · next differs =>
          cases taken : p other <;> simp [taken, ih]
          omega

/-- A sum has grown by as often as samples of it were listed. -/
theorem sumOver_grow (t : Totals) (samples : List Sample) (p : Sample → Bool) :
    (t.grow samples).sumOver p = t.sumOver p + samples.countP p := by
  induction samples generalizing t with
  | nil => simp [grow]
  | cons first rest ih =>
      have step := ih ⟨increment first t.counts⟩
      rw [sumOver_increment] at step
      rw [List.countP_cons]
      exact step.trans (by omega)

def total (t : Totals) (name : String) : Nat := t.sumOver (·.name = name)

def labelled (t : Totals) (name : String) (label : String × String) : Nat :=
  t.sumOver fun s => s.name = name && s.labels.contains label

end Totals

/-! ### Recordings -/

/-- What grows by recordings of which each took its own time. -/
def samplesOf (recordings : List Recording) (durations : Nat → Duration) : List Sample :=
  recordings.zipIdx.flatMap fun (r, i) => r.samples ++ r.buckets (durations i)

def counterNames : List String :=
  ["gate_http_requests_total", "gate_navigation_decisions_total", "gate_bootstrap_total",
    "gate_version_cache_total"]

namespace Recording

def hasName (name : String) (r : Recording) : Bool := r.counter.name = name

def hasLabel (name : String) (label : String × String) (r : Recording) : Bool :=
  r.counter.name = name && r.counter.labels.contains label

theorem name_not_mem_of_histogram {r : Recording} {h : Histogram} (held : r.histogram? = some h)
    (duration : Duration) {s : Sample} (mem : s ∈ h.count :: h.bucketsOf duration) :
    s.name ∉ counterNames := by
  have names : s.name = h.name ++ "_count" ∨ s.name = h.name ++ "_bucket" := by
    simp only [Histogram.bucketsOf, List.mem_cons, List.mem_append, List.mem_map,
      List.not_mem_nil, or_false] at mem
    rcases mem with rfl | ⟨bucket, -, rfl⟩ | rfl
    · exact .inl rfl
    · exact .inr rfl
    · exact .inr rfl
  have apart : ∀ name ∈ ["gate_http_request_duration_seconds", "gate_bootstrap_duration_seconds"],
      name ++ "_count" ∉ counterNames ∧ name ++ "_bucket" ∉ counterNames := by decide
  have known : h.name ∈ ["gate_http_request_duration_seconds", "gate_bootstrap_duration_seconds"] := by
    cases r <;> cases held <;> simp
  rcases names with name | name
  · rw [name]
    exact (apart h.name known).1
  · rw [name]
    exact (apart h.name known).2

/-- Of the samples that grow by a recording only its counter is one. -/
theorem countP_samples {p : Sample → Bool} (counters : ∀ s, p s = true → s.name ∈ counterNames)
    (r : Recording) (duration : Duration) :
    (r.samples ++ r.buckets duration).countP p = if p r.counter then 1 else 0 := by
  have others : ∀ h, r.histogram? = some h → (h.count :: h.bucketsOf duration).countP p = 0 := by
    intro h held
    exact List.countP_eq_zero.mpr fun s mem taken =>
      name_not_mem_of_histogram held duration mem (counters s taken)
  rw [samples, buckets]
  cases held : r.histogram? with
  | none => simp [List.countP_cons]
  | some h =>
      have none := others h held
      rw [List.countP_cons] at none
      simp only [Option.map_some, Option.toList_some, Option.elim_some, List.cons_append,
        List.nil_append, List.countP_cons]
      omega

end Recording

theorem countP_samplesOf {p : Sample → Bool} (counters : ∀ s, p s = true → s.name ∈ counterNames)
    (recordings : List Recording) (durations : Nat → Duration) :
    (samplesOf recordings durations).countP p = recordings.countP (p ·.counter) := by
  -- the time that a recording took depends on its place, so the places count from anywhere
  have from_place : ∀ place, ((recordings.zipIdx place).flatMap fun (r, i) =>
      r.samples ++ r.buckets (durations i)).countP p = recordings.countP (p ·.counter) := by
    induction recordings with
    | nil => intro place; rfl
    | cons r recordings ih =>
        intro place
        rw [List.zipIdx_cons, List.flatMap_cons, List.countP_append, ih,
          Recording.countP_samples counters, List.countP_cons, Nat.add_comm]
  exact from_place 0

/-! ## How many label sets there are

Of what is recorded, the endpoint, the status and the class take their values from lists that are
fixed, and only the method is taken over from the request. The number of label sets is therefore
the number of methods, up to a constant factor. -/

/-- The metrics with labels. The durations of requests are told apart as their count is. -/
def labelledNames : List String := counterNames ++ ["gate_http_request_duration_seconds_count"]

def Totals.labelSets (t : Totals) : Finset Sample :=
  ((t.counts.map (·.1)).filter (·.name ∈ labelledNames)).toFinset

namespace Recording

def labelSets (r : Recording) : List Sample := r.samples.filter (·.name ∈ labelledNames)

def method? : Recording → Option String
  | .request method _ _ => some method
  | .navigation _ _ | .bootstrap _ _ | .lookup _ => none

end Recording

/-! ### Totals -/

theorem Totals.mem_increment {s other : Sample} {counts : List (Sample × Nat)} :
    other ∈ (increment s counts).map (·.1) ↔ other = s ∨ other ∈ counts.map (·.1) := by
  induction counts with
  | nil => simp [increment]
  | cons first counts ih =>
      obtain ⟨name, n⟩ := first
      unfold increment
      split
      · next same =>
          subst same
          simp
      · rw [List.map_cons, List.mem_cons, ih, List.map_cons, List.mem_cons]
        exact or_left_comm

theorem Totals.mem_grow {t : Totals} {samples : List Sample} {s : Sample} :
    s ∈ (t.grow samples).counts.map (·.1) ↔ s ∈ samples ∨ s ∈ t.counts.map (·.1) := by
  induction samples generalizing t with
  | nil => simp [grow]
  | cons first samples ih =>
      have rest := ih (t := ⟨increment first t.counts⟩)
      rw [mem_increment] at rest
      rw [List.mem_cons, or_assoc, or_left_comm]
      exact rest

theorem Recording.name_of_mem_buckets {r : Recording} {duration : Duration} {s : Sample}
    (mem : s ∈ r.buckets duration) : s.name ∉ labelledNames := by
  have named : ∃ h, r.histogram? = some h ∧ s.name = h.name ++ "_bucket" := by
    unfold Recording.buckets at mem
    cases held : r.histogram? with
    | none => simp [held] at mem
    | some h =>
        simp only [held, Option.elim_some, Histogram.bucketsOf, List.mem_append, List.mem_map,
          List.mem_singleton] at mem
        rcases mem with ⟨bucket, -, rfl⟩ | rfl
        · exact ⟨h, rfl, rfl⟩
        · exact ⟨h, rfl, rfl⟩
  have apart : ∀ name ∈ ["gate_http_request_duration_seconds", "gate_bootstrap_duration_seconds"],
      name ++ "_bucket" ∉ labelledNames := by decide
  obtain ⟨h, held, name⟩ := named
  rw [name]
  refine apart h.name ?_
  cases r <;> cases held <;> simp

theorem labelSets_grow (recordings : List Recording) (durations : Nat → Duration) :
    (Totals.grow {} (samplesOf recordings durations)).labelSets =
      (recordings.flatMap (·.labelSets)).toFinset := by
  ext s
  simp only [Totals.labelSets, List.mem_toFinset, List.mem_filter, decide_eq_true_eq,
    Totals.mem_grow, List.mem_flatMap, Recording.labelSets]
  constructor
  · rintro ⟨met | none, named⟩
    · simp only [samplesOf, List.mem_flatMap, List.mem_append] at met
      obtain ⟨⟨r, place⟩, listed, grows⟩ := met
      have recorded : r ∈ recordings := List.fst_mem_of_mem_zipIdx listed
      rcases grows with counted | bucket
      · exact ⟨r, recorded, counted, named⟩
      · exact absurd named (Recording.name_of_mem_buckets bucket)
    · cases none
  · rintro ⟨r, recorded, counted, named⟩
    obtain ⟨place, here⟩ := List.mem_iff_getElem?.mp recorded
    refine ⟨.inl ?_, named⟩
    simp only [samplesOf, List.mem_flatMap, List.mem_append]
    exact ⟨(r, place), List.mem_zipIdx_iff_getElem?.mpr here, .inl counted⟩

/-! ### Bounds -/

def endpoints : List String := "/" :: "/other" :: endpointFamilies

theorem endpoint_mem (path : String) : endpoint path ∈ endpoints := by
  unfold endpoint
  dsimp only
  split
  · exact List.mem_cons_self
  · cases found : endpointFamilies.find? (Path.isWithin · (Path.withoutQuery path)) with
    | none => exact List.mem_cons_of_mem _ List.mem_cons_self
    | some root =>
        have mem := List.mem_of_find?_eq_some found
        exact List.mem_cons_of_mem _ (List.mem_cons_of_mem _ mem)

theorem endpoint_of_mem {label : String} (mem : label ∈ endpoints) : endpoint label = label := by
  have all : ∀ label ∈ endpoints, endpoint label = label := by decide +kernel
  exact all label mem

def withoutMethod : List Recording :=
  [true, false].flatMap (fun present =>
    [true, false].map (.bootstrap present) ++
      [.signedOut, .everyone, .administrators, .users].map (.navigation · present)) ++
    [.hit, .refreshed, .fallback].map .lookup

theorem eq_request_of_not_mem {r : Recording} (apart : r ∉ withoutMethod) :
    ∃ method path status, r = .request method path status := by
  cases r with
  | request method path status => exact ⟨method, path, status, rfl⟩
  | navigation audience redirected =>
      exact absurd (by cases audience <;> cases redirected <;> decide) apart
  | bootstrap user config => exact absurd (by cases user <;> cases config <;> decide) apart
  | lookup outcome => exact absurd (by cases outcome <;> decide) apart

def methodsOf (recordings : List Recording) : Finset String :=
  (recordings.filterMap (·.method?)).toFinset

theorem mem_methodsOf {recordings : List Recording} {method : String} :
    method ∈ methodsOf recordings ↔
      ∃ path status, .request method path status ∈ recordings := by
  simp only [methodsOf, List.mem_toFinset, List.mem_filterMap]
  constructor
  · rintro ⟨r, recorded, named⟩
    cases r with
    | request method' path status =>
        obtain rfl : method' = method := Option.some.inj named
        exact ⟨path, status, recorded⟩
    | _ => cases named
  · rintro ⟨path, status, recorded⟩
    exact ⟨_, recorded, rfl⟩

section

variable (recordings : List Recording)

/-- Each method makes a label set of its own. -/
theorem card_methodsOf_le :
    (methodsOf recordings).card ≤ (recordings.flatMap (·.labelSets)).toFinset.card := by
  let methodOf (s : Sample) : String := (s.labels.lookup "method").getD ""
  have taken : methodsOf recordings ⊆
      (recordings.flatMap (·.labelSets)).toFinset.image methodOf := by
    intro method mem
    obtain ⟨path, status, recorded⟩ := mem_methodsOf.mp mem
    let r : Recording := .request method path status
    have counted : r.counter ∈ r.labelSets := by
      simp [r, Recording.labelSets, Recording.samples, Recording.counter, labelledNames,
        counterNames]
    have told : methodOf r.counter = method := by
      simp [methodOf, r, Recording.counter]
    refine Finset.mem_image.mpr ⟨r.counter, List.mem_toFinset.mpr ?_, told⟩
    exact List.mem_flatMap.mpr ⟨r, recorded, counted⟩
  exact (Finset.card_le_card taken).trans Finset.card_image_le

def countedAs (method endpoint : String) (status : Nat) : Sample :=
  ⟨"gate_http_requests_total",
    [("method", method), ("endpoint", endpoint), ("status_code", toString status)]⟩

def timedAs (method endpoint category : String) : Sample :=
  ⟨"gate_http_request_duration_seconds_count",
    [("method", method), ("endpoint", endpoint), ("status", category)]⟩

theorem Recording.mem_labelSets_request {method path : String} {status : Nat} {s : Sample}
    (mem : s ∈ (request method path status).labelSets) :
    s = countedAs method (endpoint path) status ∨
      s = timedAs method (endpoint path) (statusCategory status) := by
  have counted := List.mem_of_mem_filter mem
  simpa [samples, counter, histogram?, Histogram.count, countedAs, timedAs] using counted

/-- A method makes a label set for each endpoint and each status that there are, and one for each
endpoint and each way to end. All else that is recorded makes fifteen. -/
theorem card_labelSets_le {statuses : Finset Nat}
    (known : ∀ method path status, .request method path status ∈ recordings → status ∈ statuses) :
    (recordings.flatMap (·.labelSets)).toFinset.card ≤
      15 + 11 * (statuses.card + (statuses.image statusCategory).card) *
        (methodsOf recordings).card := by
  let counted := (methodsOf recordings ×ˢ endpoints.toFinset ×ˢ statuses).image fun q =>
    countedAs q.1 q.2.1 q.2.2
  let timed :=
    (methodsOf recordings ×ˢ endpoints.toFinset ×ˢ statuses.image statusCategory).image fun q =>
      timedAs q.1 q.2.1 q.2.2
  have covered : (recordings.flatMap (·.labelSets)).toFinset ⊆
      (withoutMethod.flatMap (·.labelSets)).toFinset ∪ (counted ∪ timed) := by
    intro s mem
    obtain ⟨r, recorded, adds⟩ := List.mem_flatMap.mp (List.mem_toFinset.mp mem)
    rw [Finset.mem_union, Finset.mem_union, List.mem_toFinset, List.mem_flatMap]
    by_cases other : r ∈ withoutMethod
    · exact .inl ⟨r, other, adds⟩
    · obtain ⟨method, path, status, rfl⟩ := eq_request_of_not_mem other
      have named : method ∈ methodsOf recordings := mem_methodsOf.mpr ⟨path, status, recorded⟩
      have family : endpoint path ∈ endpoints.toFinset := List.mem_toFinset.mpr (endpoint_mem path)
      have ended := known method path status recorded
      have category := Finset.mem_image_of_mem statusCategory ended
      rcases Recording.mem_labelSets_request adds with rfl | rfl
      · exact .inr (.inl (Finset.mem_image.mpr ⟨(method, endpoint path, status),
          Finset.mk_mem_product named (Finset.mk_mem_product family ended), rfl⟩))
      · exact .inr (.inr (Finset.mem_image.mpr ⟨(method, endpoint path, statusCategory status),
          Finset.mk_mem_product named (Finset.mk_mem_product family category), rfl⟩))
  have others : (withoutMethod.flatMap (·.labelSets)).toFinset.card ≤ 15 :=
    List.toFinset_card_le _
  have families : endpoints.toFinset.card = 11 := by decide
  have countedSize : counted.card ≤ (methodsOf recordings).card * (11 * statuses.card) := by
    refine Finset.card_image_le.trans ?_
    rw [Finset.card_product, Finset.card_product, families]
  have timedSize : timed.card ≤
      (methodsOf recordings).card * (11 * (statuses.image statusCategory).card) := by
    refine Finset.card_image_le.trans ?_
    rw [Finset.card_product, Finset.card_product, families]
  calc _ ≤ (withoutMethod.flatMap (·.labelSets)).toFinset.card + (counted ∪ timed).card :=
        (Finset.card_le_card covered).trans (Finset.card_union_le _ _)
    _ ≤ 15 + ((methodsOf recordings).card * (11 * statuses.card) +
          (methodsOf recordings).card * (11 * (statuses.image statusCategory).card)) :=
        Nat.add_le_add others
          ((Finset.card_union_le _ _).trans (Nat.add_le_add countedSize timedSize))
    _ = 15 + 11 * (statuses.card + (statuses.image statusCategory).card) *
          (methodsOf recordings).card := by ring

end
end Gatehouse.Metrics
