import Gatehouse.Proofs.Metrics
import Gatehouse.Proofs.Visits

/-! # What callers can do to the metrics

The gate answers with few statuses, so that a run makes as many label sets as it answers methods, up
to a constant factor. Anyone can send as many methods as there are names for them, and the number of
label sets has no bound. -/

namespace Gatehouse.Gate

variable {σ : Type} [Store σ]

/-! ## One request -/

def statuses : Finset Nat := {200, 303, 404, 405, 408}

namespace Course

variable {g : Gate} {b : Backend} {request : Http.Request} {before after : Version.Resources σ}
  {answer : Option Http.Response} {fresh : List Metrics.Recording}
  (course : Course g b request before answer fresh after)

include course

/-- An answered request is recorded with its method, and nothing else is. -/
theorem methods :
    fresh.filterMap (·.method?) = (answer.map fun _ => request.method).toList := by
  cases course <;> simp [entering, recorded, Metrics.Recording.method?]

theorem answer_of_request {method path : String} {status : Nat}
    (mem : .request method path status ∈ fresh) :
    ∃ response, answer = some response ∧ status = response.status := by
  cases course <;> simp_all [entering, recorded]

theorem status_mem {response : Http.Response} (answered : answer = some response) :
    response.status ∈ statuses := by
  have shows (page : Page) : ((pageResponse page).forMethod request.method).status ∈ statuses := by
    rcases status_pageResponse page request.method with status | status
    all_goals
      rw [status]
      decide
  cases course with
  | aside route served =>
      cases answered
      rcases status_of_asides served with status | status | status
      all_goals
        rw [status]
        decide
  | unanswered => cases answered
  | shown | reported =>
      cases answered
      exact shows _
  | redirected =>
      cases answered
      show 303 ∈ statuses
      decide
  | late | refused | cutOff =>
      cases answered
      decide

end Course

/-! ## Runs -/

def answeredMethods (g : Gate) (initial : State σ) (visits : List Visit) : List String :=
  (visits.zip (g.answers initial visits)).filterMap fun (v, answer) =>
    answer.map fun _ => v.request.method

theorem filterMap_method_after (g : Gate) (initial : State σ) (visits : List Visit) :
    (g.after initial visits).activity.recordings.filterMap (·.method?) =
      initial.activity.recordings.filterMap (·.method?) ++ g.answeredMethods initial visits := by
  induction visits generalizing initial with
  | nil => simp [after, answeredMethods]
  | cons v visits ih =>
      obtain ⟨-, -, fresh, recordings, course⟩ := course_of_visit g v initial
      have rest := ih (g.visit v initial).2
      rw [recordings, List.filterMap_append, course.methods, List.append_assoc] at rest
      refine rest.trans (congrArg _ ?_)
      cases given : (g.visit v initial).1 <;> simp [answeredMethods, answers, given]

theorem status_of_recorded (g : Gate) (initial : State σ) (visits : List Visit)
    (known : ∀ method path status,
      .request method path status ∈ initial.activity.recordings → status ∈ statuses) :
    ∀ method path status,
      .request method path status ∈ (g.after initial visits).activity.recordings →
        status ∈ statuses := by
  induction visits generalizing initial with
  | nil => exact known
  | cons v visits ih =>
      refine ih (g.visit v initial).2 fun method path status mem => ?_
      obtain ⟨-, -, fresh, recordings, course⟩ := course_of_visit g v initial
      rw [recordings] at mem
      rcases List.mem_append.mp mem with earlier | now
      · exact known method path status earlier
      · obtain ⟨response, answered, rfl⟩ := course.answer_of_request now
        exact course.status_mem answered

def labelSets (g : Gate) (r : Version.Resources σ) (visits : List Visit)
    (durations : Nat → Duration) : Finset Metrics.Sample :=
  ((g.after ⟨r, {}⟩ visits).activity.totals durations).labelSets

theorem methodsOf_after (g : Gate) (r : Version.Resources σ) (visits : List Visit) :
    Metrics.methodsOf (g.after ⟨r, {}⟩ visits).activity.recordings =
      (g.answeredMethods ⟨r, {}⟩ visits).toFinset := by
  rw [Metrics.methodsOf, filterMap_method_after]
  rfl

theorem card_answeredMethods_le (g : Gate) (r : Version.Resources σ) (visits : List Visit)
    (durations : Nat → Duration) :
    (g.answeredMethods ⟨r, {}⟩ visits).toFinset.card ≤ (g.labelSets r visits durations).card := by
  rw [← methodsOf_after, labelSets, Activity.totals, Metrics.labelSets_grow]
  exact Metrics.card_methodsOf_le _

/-- However long a run is and whatever is asked in it, it makes as many label sets as it answers
methods, up to a constant factor: no other label is in the hands of the callers. -/
theorem label_sets_follow_methods (g : Gate) (r : Version.Resources σ) (visits : List Visit)
    (durations : Nat → Duration) :
    let methods := (g.answeredMethods ⟨r, {}⟩ visits).toFinset
    methods.card ≤ (g.labelSets r visits durations).card ∧
      (g.labelSets r visits durations).card ≤ 15 + 88 * methods.card := by
  refine ⟨card_answeredMethods_le g r visits durations, ?_⟩
  have known : ∀ method path status,
      .request method path status ∈ (g.after ⟨r, {}⟩ visits).activity.recordings →
        status ∈ statuses :=
    status_of_recorded g ⟨r, {}⟩ visits fun method path status mem => absurd mem List.not_mem_nil
  have bound := Metrics.card_labelSets_le _ known
  rw [methodsOf_after] at bound
  rw [labelSets, Activity.totals, Metrics.labelSets_grow]
  exact bound

/-! ## No bound -/

def probeBy (letters : Nat) : Visit :=
  ⟨{ method := .ofList (List.replicate letters 'A'), target := "/health" },
    .constant (.error .unauthorized) (.ok (.ofEntries [])), 0⟩

theorem answeredMethods_probes (g : Gate) (initial : State σ) (lengths : List Nat) :
    g.answeredMethods initial (lengths.map probeBy) =
      lengths.map fun letters => String.ofList (List.replicate letters 'A') := by
  have answered (letters : Nat) (state : State σ) :
      (g.visit (probeBy letters) state).1 =
        some (healthResponse.forMethod (probeBy letters).request.method) := by
    have path : Route.ofPath (probeBy letters).request.path = .health := by
      show Route.ofPath (.ofList (Http.pathOf "/health".toList)) = .health
      decide +kernel
    rw [visit, answer, Gate.route, path]
  induction lengths generalizing initial with
  | nil => rfl
  | cons letters lengths ih =>
      have rest := ih (g.visit (probeBy letters) initial).2
      rw [answeredMethods] at rest
      simp only [answeredMethods, List.map_cons, answers, List.zip_cons_cons, List.filterMap_cons,
        answered, Option.map_some, rest]
      rfl

/-- Probes alone make any number of label sets, without a query, a header or a session, and by
methods that are all made of capital letters. -/
theorem label_sets_unbounded :
    let g : Gate := { rules := .standard, cookieName := "token", cache := ⟨"1.3.0", .ofSeconds 60⟩ }
    let r : Version.Resources Store.Memory := ⟨{}, .replaying [.ok "v1.4.0"], 0⟩
    ¬ ∃ bound, ∀ visits : List Visit,
      (∀ v ∈ visits, v.request.target = "/health" ∧ v.request.headers = [] ∧
        v.request.method ≠ "" ∧ v.request.method.toList.all Char.isUpper = true) →
      (g.labelSets r visits fun _ => ⟨0⟩).card ≤ bound := by
  rintro g r ⟨bound, bounded⟩
  let lengths := (List.range (bound + 1)).map (· + 1)
  have probes : ∀ v ∈ lengths.map probeBy, v.request.target = "/health" ∧ v.request.headers = [] ∧
      v.request.method ≠ "" ∧ v.request.method.toList.all Char.isUpper = true := by
    intro v mem
    simp only [lengths, List.mem_map] at mem
    obtain ⟨_, ⟨n, -, rfl⟩, rfl⟩ := mem
    refine ⟨rfl, rfl, ?_, ?_⟩
    · intro empty
      have letters := congrArg String.toList empty
      simp [probeBy, List.replicate_succ] at letters
    · simp [probeBy]
  have few := bounded _ probes
  have many := card_answeredMethods_le g r (lengths.map probeBy) fun _ => ⟨0⟩
  have distinct : (lengths.map fun letters =>
      String.ofList (List.replicate letters 'A')).Nodup := by
    refine (List.nodup_range.map fun _ _ same => Nat.succ.inj same).map fun m n same => ?_
    simpa using congrArg String.length same
  have count : lengths.length = bound + 1 := by simp [lengths]
  rw [answeredMethods_probes, List.toFinset_card_of_nodup distinct, List.length_map, count] at many
  omega

end Gatehouse.Gate
