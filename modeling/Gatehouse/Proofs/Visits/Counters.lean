import Gatehouse.Proofs.Visits

/-! # What the counters of a run add up to

Every course of a request moves each counter by a fixed amount, which the request and its answer
tell. Over a run the counters therefore agree with each other, with the answers that were given and
with the calls that were made, up to what was cut off. Where nothing is kept waiting nothing is. -/

namespace Gatehouse

namespace Gate

open Metrics.Recording (hasName hasLabel)

variable {σ : Type} [Store σ]

/-! ## One request -/

def isPage (v : Visit) : Bool := Route.ofPath v.request.path = .page

def isEstablished (v : Visit) : Bool := isPage v && v.backend.waitingTime < timeLimit

/-- The visit is to a page for which the backend takes too long. -/
def isLate (v : Visit) : Bool := isPage v && !(v.backend.waitingTime < timeLimit)

def readsSettings (g : Gate) (v : Visit) : Bool :=
  g.rules.decision v.request.path (g.session v.backend v.request) = .allow &&
    Http.isReading v.request.method && Page.isSettings v.request.path

def readsInTime (g : Gate) (v : Visit) : Bool := isEstablished v && g.readsSettings v

def isSentElsewhere (answer : Option Http.Response) : Bool := answer.any (·.status = 303)

def isTimedOut (answer : Option Http.Response) : Bool := answer.any (·.status = 408)

theorem isPage_of_readsSettings {g : Gate} {v : Visit} (reads : g.readsSettings v = true) :
    isPage v = true := by
  rw [readsSettings, Bool.and_eq_true] at reads
  exact decide_eq_true (Route.ofPath_of_settings reads.2)

theorem not_sentElsewhere_of_asides {g : Gate} {request : Http.Request} {response : Http.Response}
    (served : response ∈ g.asides request) : isSentElsewhere (some response) = false := by
  rcases status_of_asides served with status | status | status
  all_goals simp [isSentElsewhere, status]

theorem not_timedOut_of_asides {g : Gate} {request : Http.Request} {response : Http.Response}
    (served : response ∈ g.asides request) : isTimedOut (some response) = false := by
  rcases status_of_asides served with status | status | status
  all_goals simp [isTimedOut, status]

@[simp] theorem not_sentElsewhere_page (page : Page) (method : String) :
    isSentElsewhere (some ((pageResponse page).forMethod method)) = false := by
  rcases status_pageResponse page method with status | status
  all_goals simp [isSentElsewhere, status]

@[simp] theorem not_timedOut_page (page : Page) (method : String) :
    isTimedOut (some ((pageResponse page).forMethod method)) = false := by
  rcases status_pageResponse page method with status | status
  all_goals simp [isTimedOut, status]

namespace Course

variable {g : Gate} {v : Visit} {before after : Version.Resources σ}
  {answer : Option Http.Response} {fresh : List Metrics.Recording}
  (course : Course g v.backend v.request before answer fresh after)

include course

theorem requests :
    fresh.countP (hasName "gate_http_requests_total") = if answer.isSome then 1 else 0 := by
  cases course <;> simp [hasName, entering, recorded, Metrics.Recording.counter]

theorem pages {name : String}
    (ofPage : name = "gate_navigation_decisions_total" ∨ name = "gate_bootstrap_total") :
    fresh.countP (hasName name) = if isEstablished v then 1 else 0 := by
  rcases ofPage with rfl | rfl
  all_goals
    cases course <;>
      simp_all [hasName, entering, recorded, Metrics.Recording.counter, isEstablished, isPage]

theorem isSome_answer (login : Http.Header.isSendable g.rules.loginPath = true)
    (landing : Http.Header.isSendable g.rules.landingPath = true) : answer.isSome = true := by
  cases course with
  | unanswered route prompt decided unsendable =>
      rw [Rules.decisionFor_eq_redirect decided] at unsendable
      split at unsendable
      · simp [landing] at unsendable
      · simp [login] at unsendable
  | _ => rfl

theorem redirects (given : answer.isSome = true) :
    fresh.countP (hasLabel "gate_navigation_decisions_total" ("outcome", "redirect")) =
      if isSentElsewhere answer then 1 else 0 := by
  cases course with
  | aside route served =>
      simp [hasLabel, recorded, Metrics.Recording.counter, not_sentElsewhere_of_asides served]
  | late route slow =>
      simp [hasLabel, recorded, Metrics.Recording.counter, isSentElsewhere, timedOut]
  | redirected route prompt decided sendable =>
      simp [hasLabel, entering, recorded, Metrics.Recording.counter, isSentElsewhere,
        redirectResponse]
  | unanswered route prompt decided unsendable => cases given
  | refused route prompt decided writing =>
      simp [hasLabel, entering, recorded, Metrics.Recording.counter, isSentElsewhere,
        Http.Response.notAllowed]
  | shown | reported => simp [hasLabel, entering, recorded, Metrics.Recording.counter]
  | cutOff route prompt decided reading settings slow called =>
      simp [hasLabel, entering, recorded, Metrics.Recording.counter, isSentElsewhere, timedOut]

/-- A lookup that is due is recorded, unless it is cut off. -/
theorem lookups :
    fresh.countP (hasName "gate_version_cache_total") + (if isTimedOut answer then 1 else 0) =
      (if g.readsInTime v then 1 else 0) + if isLate v then 1 else 0 := by
  cases course with
  | aside route served =>
      simp [hasName, recorded, Metrics.Recording.counter, not_timedOut_of_asides served,
        readsInTime, isEstablished, isLate, isPage, route]
  | late route slow =>
      simp [hasName, recorded, Metrics.Recording.counter, isTimedOut, timedOut, readsInTime,
        isEstablished, isLate, isPage, route, slow]
  | redirected route prompt decided sendable =>
      simp [hasName, entering, recorded, Metrics.Recording.counter, isTimedOut, redirectResponse,
        readsInTime, readsSettings, isLate, prompt, decided]
  | unanswered route prompt decided unsendable =>
      simp [hasName, entering, Metrics.Recording.counter, isTimedOut, readsInTime, readsSettings,
        isLate, prompt, decided]
  | refused route prompt decided writing =>
      simp [hasName, entering, recorded, Metrics.Recording.counter, isTimedOut,
        Http.Response.notAllowed, readsInTime, readsSettings, isLate, prompt, writing]
  | shown route prompt decided reading elsewhere plain =>
      simp [hasName, entering, recorded, Metrics.Recording.counter, readsInTime, readsSettings,
        isLate, prompt, elsewhere]
  | reported route prompt decided reading settings lookup block =>
      simp [hasName, entering, recorded, Metrics.Recording.counter, readsInTime, isEstablished,
        readsSettings, isLate, isPage, route, prompt, decided, reading, settings]
  | cutOff route prompt decided reading settings slow called =>
      simp [hasName, entering, recorded, Metrics.Recording.counter, isTimedOut, timedOut,
        readsInTime, isEstablished, readsSettings, isLate, isPage, route, prompt, decided, reading,
        settings]

/-- The feed is called for what is recorded as refreshed or as a fallback, and for what is cut off
then. -/
theorem calls :
    after.feed.calls + (if isLate v then 1 else 0) = before.feed.calls +
      (fresh.countP (hasLabel "gate_version_cache_total" ("outcome", "refreshed")) +
        fresh.countP (hasLabel "gate_version_cache_total" ("outcome", "fallback"))) +
      if isTimedOut answer then 1 else 0 := by
  cases course with
  | aside route served =>
      simp [hasLabel, recorded, Metrics.Recording.counter, not_timedOut_of_asides served, isLate,
        isPage, route]
  | late route slow =>
      simp [hasLabel, recorded, Metrics.Recording.counter, isTimedOut, timedOut, isLate, isPage,
        route, slow]
  | redirected route prompt decided sendable =>
      simp [hasLabel, entering, recorded, Metrics.Recording.counter, isTimedOut, redirectResponse,
        isLate, prompt]
  | unanswered route prompt decided unsendable =>
      simp [hasLabel, entering, Metrics.Recording.counter, isTimedOut, isLate, prompt]
  | refused route prompt decided writing =>
      simp [hasLabel, entering, recorded, Metrics.Recording.counter, isTimedOut,
        Http.Response.notAllowed, isLate, prompt]
  | shown route prompt decided reading elsewhere plain =>
      simp [hasLabel, entering, recorded, Metrics.Recording.counter, isLate, prompt]
  | reported route prompt decided reading settings lookup block =>
      subst lookup
      rw [Version.Cache.calls_newestVersion]
      cases (g.cache.newestVersion before).outcome <;>
        simp [hasLabel, entering, recorded, Metrics.Recording.counter, Metrics.outcomeLabel, isLate,
          prompt]
  | cutOff route prompt decided reading settings slow called =>
      simp [hasLabel, entering, recorded, Metrics.Recording.counter, isTimedOut, timedOut, isLate,
        prompt, called, Version.Feed.fetch]

theorem not_timedOut (prompt : Prompt v.backend before.feed) : isTimedOut answer = false := by
  cases course with
  | aside route served => exact not_timedOut_of_asides served
  | late route slow => exact absurd prompt.backend slow
  | cutOff route _ decided reading settings slow called => exact absurd (prompt.feed _) slow
  | redirected | unanswered | refused => rfl
  | shown | reported => exact not_timedOut_page _ _

end Course

/-! ## Runs -/

def State.total (state : State σ) (durations : Nat → Duration) (name : String) : Nat :=
  (state.activity.totals durations).total name

def State.withOutcome (state : State σ) (durations : Nat → Duration) (name outcome : String) : Nat :=
  (state.activity.totals durations).labelled name ("outcome", outcome)

/-- What the counters say on the way from one state to another, against the visits and the answers
to them. -/
structure AddsUp (g : Gate) (durations : Nat → Duration) (visits : List Visit)
    (answers : List (Option Http.Response)) (before after : State σ) : Prop where
  requests : after.total durations "gate_http_requests_total" =
    before.total durations "gate_http_requests_total" + answers.countP (·.isSome)
  navigations : after.total durations "gate_navigation_decisions_total" =
    before.total durations "gate_navigation_decisions_total" + visits.countP isPage
  bootstraps : after.total durations "gate_bootstrap_total" =
    before.total durations "gate_bootstrap_total" + visits.countP isPage
  userLookups : after.activity.userLookups = before.activity.userLookups + visits.countP isPage
  configLookups :
    after.activity.configLookups = before.activity.configLookups + visits.countP isPage
  redirects : after.withOutcome durations "gate_navigation_decisions_total" "redirect" =
    before.withOutcome durations "gate_navigation_decisions_total" "redirect" +
      answers.countP isSentElsewhere
  lookups : after.total durations "gate_version_cache_total" =
    before.total durations "gate_version_cache_total" + visits.countP g.readsSettings
  /-- What is counted as refreshed or as a fallback has grown by the calls of the feed. -/
  calls : after.withOutcome durations "gate_version_cache_total" "refreshed" +
      after.withOutcome durations "gate_version_cache_total" "fallback" +
      before.resources.feed.calls =
    before.withOutcome durations "gate_version_cache_total" "refreshed" +
      before.withOutcome durations "gate_version_cache_total" "fallback" +
      after.resources.feed.calls

/-- The same where requests may be cut off. Neither a session nor a decision is recorded for a page
that the backend is too late for, though both lookups were made, and no version lookup for a page that
the feed is too late for, though it was called. -/
structure Balances (g : Gate) (durations : Nat → Duration) (visits : List Visit)
    (answers : List (Option Http.Response)) (before after : State σ) : Prop where
  requests : after.total durations "gate_http_requests_total" =
    before.total durations "gate_http_requests_total" + answers.countP (·.isSome)
  navigations : after.total durations "gate_navigation_decisions_total" =
    before.total durations "gate_navigation_decisions_total" + visits.countP isEstablished
  bootstraps : after.total durations "gate_bootstrap_total" =
    before.total durations "gate_bootstrap_total" + visits.countP isEstablished
  userLookups : after.activity.userLookups = before.activity.userLookups + visits.countP isPage
  configLookups :
    after.activity.configLookups = before.activity.configLookups + visits.countP isPage
  redirects : after.withOutcome durations "gate_navigation_decisions_total" "redirect" =
    before.withOutcome durations "gate_navigation_decisions_total" "redirect" +
      answers.countP isSentElsewhere
  lookups : after.total durations "gate_version_cache_total" + answers.countP isTimedOut =
    before.total durations "gate_version_cache_total" + visits.countP g.readsInTime +
      visits.countP isLate
  calls : after.withOutcome durations "gate_version_cache_total" "refreshed" +
      after.withOutcome durations "gate_version_cache_total" "fallback" +
      before.resources.feed.calls + answers.countP isTimedOut =
    before.withOutcome durations "gate_version_cache_total" "refreshed" +
      before.withOutcome durations "gate_version_cache_total" "fallback" +
      after.resources.feed.calls + visits.countP isLate

namespace Balances

variable {g : Gate} {durations : Nat → Duration}

omit [Store σ] in
theorem nil (state : State σ) : g.Balances durations [] [] state state := by
  constructor <;> rfl

omit [Store σ] in
theorem append {visits visits' : List Visit} {answers answers' : List (Option Http.Response)}
    {before between after : State σ} (first : g.Balances durations visits answers before between)
    (rest : g.Balances durations visits' answers' between after) :
    g.Balances durations (visits ++ visits') (answers ++ answers') before after where
  requests := by
    rw [rest.requests, first.requests, List.countP_append, Nat.add_assoc]
  navigations := by
    rw [rest.navigations, first.navigations, List.countP_append, Nat.add_assoc]
  bootstraps := by
    rw [rest.bootstraps, first.bootstraps, List.countP_append, Nat.add_assoc]
  userLookups := by
    rw [rest.userLookups, first.userLookups, List.countP_append, Nat.add_assoc]
  configLookups := by
    rw [rest.configLookups, first.configLookups, List.countP_append, Nat.add_assoc]
  redirects := by
    rw [rest.redirects, first.redirects, List.countP_append, Nat.add_assoc]
  lookups := by
    have one := first.lookups
    have other := rest.lookups
    simp only [List.countP_append]
    omega
  calls := by
    have one := first.calls
    have other := rest.calls
    simp only [List.countP_append]
    omega

omit [Store σ] in
theorem addsUp {visits : List Visit} {answers : List (Option Http.Response)}
    {before after : State σ} (balances : g.Balances durations visits answers before after)
    (prompt : ∀ v ∈ visits, v.backend.waitingTime < timeLimit)
    (ended : answers.countP isTimedOut = 0) : g.AddsUp durations visits answers before after := by
  have established : visits.countP isEstablished = visits.countP isPage :=
    List.countP_congr fun v mem => by simp [isEstablished, prompt v mem]
  have late : visits.countP isLate = 0 :=
    List.countP_eq_zero.mpr fun v mem => by simp [isLate, prompt v mem]
  have reads : visits.countP g.readsInTime = visits.countP g.readsSettings := by
    refine List.countP_congr fun v mem => ?_
    simp only [readsInTime, isEstablished, prompt v mem, decide_true, Bool.and_true,
      Bool.and_eq_true]
    exact ⟨And.right, fun reads => ⟨isPage_of_readsSettings reads, reads⟩⟩
  constructor
  case requests => exact balances.requests
  case navigations => rw [balances.navigations, established]
  case bootstraps => rw [balances.bootstraps, established]
  case userLookups => exact balances.userLookups
  case configLookups => exact balances.configLookups
  case redirects => exact balances.redirects
  case lookups =>
    have lookups := balances.lookups
    rwa [ended, late, reads] at lookups
  case calls =>
    have calls := balances.calls
    rwa [ended, late] at calls

end Balances

section

variable {g : Gate} (login : Http.Header.isSendable g.rules.loginPath = true)
  (landing : Http.Header.isSendable g.rules.landingPath = true) (durations : Nat → Duration)

include login landing

/-- Every visit is answered, and moves the counters by what it is. -/
theorem balances_visit (v : Visit) (state : State σ) :
    (g.visit v state).1.isSome = true ∧
      g.Balances durations [v] [(g.visit v state).1] state (g.visit v state).2 := by
  obtain ⟨users, configs, fresh, recordings, course⟩ := course_of_visit g v state
  have given := course.isSome_answer login landing
  have totals (name : String) (counter : name ∈ Metrics.counterNames) :
      (g.visit v state).2.total durations name =
        state.total durations name + fresh.countP (hasName name) :=
    Activity.total_append recordings counter durations
  have outcomes (name outcome : String) (counter : name ∈ Metrics.counterNames) :
      (g.visit v state).2.withOutcome durations name outcome =
        state.withOutcome durations name outcome +
          fresh.countP (hasLabel name ("outcome", outcome)) :=
    Activity.labelled_append recordings counter _ durations
  refine ⟨given, ?_⟩
  constructor
  case requests => rw [totals _ (by decide), course.requests, List.countP_singleton]
  case navigations => rw [totals _ (by decide), course.pages (.inl rfl), List.countP_singleton]
  case bootstraps => rw [totals _ (by decide), course.pages (.inr rfl), List.countP_singleton]
  case userLookups => simpa [isPage] using users
  case configLookups => simpa [isPage] using configs
  case redirects => rw [outcomes _ _ (by decide), course.redirects given, List.countP_singleton]
  case lookups =>
    have lookups := course.lookups
    rw [totals _ (by decide), List.countP_singleton, List.countP_singleton, List.countP_singleton]
    omega
  case calls =>
    have calls := course.calls
    rw [outcomes _ _ (by decide), outcomes _ _ (by decide), List.countP_singleton,
      List.countP_singleton]
    dsimp only at calls
    omega

theorem balances_run (initial : State σ) (visits : List Visit) :
    (∀ answer ∈ g.answers initial visits, answer.isSome = true) ∧
      g.Balances durations visits (g.answers initial visits) initial (g.after initial visits) := by
  induction visits generalizing initial with
  | nil => exact ⟨by simp [answers], Balances.nil initial⟩
  | cons v visits ih =>
      obtain ⟨given, first⟩ := balances_visit login landing durations v initial
      obtain ⟨allGiven, rest⟩ := ih (g.visit v initial).2
      exact ⟨List.forall_mem_cons.mpr ⟨given, allGiven⟩, first.append rest⟩

end

theorem countP_isTimedOut {g : Gate} {initial : State σ} {visits : List Visit}
    (prompt : ∀ v ∈ visits, Prompt v.backend initial.resources.feed) :
    (g.answers initial visits).countP isTimedOut = 0 := by
  induction visits generalizing initial with
  | nil => rfl
  | cons v visits ih =>
      obtain ⟨-, -, fresh, -, course⟩ := course_of_visit g v initial
      have ended := course.not_timedOut (prompt v List.mem_cons_self)
      have rest := ih fun other mem =>
        (prompt other (List.mem_cons_of_mem v mem)).after g [v]
      rw [answers, List.countP_cons_of_neg (by simp [ended])]
      exact rest

/-! ## Probes -/

def pageCounters : List String :=
  ["gate_navigation_decisions_total", "gate_bootstrap_total", "gate_version_cache_total"]

structure LeavesPagesAlone (durations : Nat → Duration) (before after : State σ) : Prop where
  counters : ∀ s : Metrics.Sample, s.name ∈ pageCounters →
    (after.activity.totals durations).count s = (before.activity.totals durations).count s
  userLookups : after.activity.userLookups = before.activity.userLookups
  configLookups : after.activity.configLookups = before.activity.configLookups
  calls : after.resources.feed.calls = before.resources.feed.calls

theorem Course.of_ne_page {g : Gate} {b : Backend} {request : Http.Request}
    {before after : Version.Resources σ} {answer : Option Http.Response}
    {fresh : List Metrics.Recording} (course : Course g b request before answer fresh after)
    (elsewhere : Route.ofPath request.path ≠ .page) :
    after = before ∧ ∃ response, fresh = [recorded request response] := by
  cases course with
  | aside route served => exact ⟨rfl, _, rfl⟩
  | late route | redirected route | unanswered route | refused route | shown route
  | reported route | cutOff route => exact absurd route elsewhere

theorem leavesPagesAlone_of_ne_page (g : Gate) (durations : Nat → Duration) {v : Visit}
    (elsewhere : Route.ofPath v.request.path ≠ .page) (state : State σ) :
    LeavesPagesAlone durations state (g.visit v state).2 := by
  obtain ⟨users, configs, fresh, recordings, course⟩ := course_of_visit g v state
  rw [if_neg elsewhere] at users configs
  obtain ⟨resources, response, rfl⟩ := course.of_ne_page elsewhere
  have counted : (recorded v.request response).counter.name ∉ pageCounters := by
    simp [recorded, Metrics.Recording.counter, pageCounters]
  constructor
  case counters =>
    intro s ofPage
    have counter : s.name ∈ Metrics.counterNames := List.mem_cons_of_mem _ ofPage
    refine Activity.count_of_unrecorded recordings counter (fun r mem same => counted ?_) durations
    rw [List.mem_singleton.mp mem] at same
    rw [same]
    exact ofPage
  case userLookups => exact users
  case configLookups => exact configs
  case calls => exact congrArg (·.feed.calls) resources

/-! ## Main result -/

/-- Over every run in which nothing is kept waiting the counters agree with the answers, with the
calls of the backend and with those of the feed, if the rules redirect to paths that fit into a
header. In any other run they do up to what was cut off. A probe or a request for the metrics moves no
counter but that of requests. -/
theorem counters_add_up (g : Gate) (login : Http.Header.isSendable g.rules.loginPath = true)
    (landing : Http.Header.isSendable g.rules.landingPath = true) (durations : Nat → Duration)
    (initial : State σ) (visits : List Visit) :
    (∀ answer ∈ g.answers initial visits, answer.isSome = true) ∧
      ((∀ v ∈ visits, Prompt v.backend initial.resources.feed) →
        g.AddsUp durations visits (g.answers initial visits) initial (g.after initial visits)) ∧
      g.Balances durations visits (g.answers initial visits) initial (g.after initial visits) ∧
      ∀ (i : Nat) (v : Visit), visits[i]? = some v → v.request.path ∈ Route.fixedPaths →
        LeavesPagesAlone durations (g.after initial (visits.take i))
          (g.after initial (visits.take (i + 1))) := by
  obtain ⟨given, balances⟩ := balances_run login landing durations initial visits
  refine ⟨given, fun prompt => ?_, balances, fun i v here fixed => ?_⟩
  · exact balances.addsUp (fun v mem => (prompt v mem).backend) (countP_isTimedOut prompt)
  · rw [after_take_succ here]
    exact leavesPagesAlone_of_ne_page g durations (Route.ofPath_of_fixed _ fixed) _

/-- A stranger is sent to the login page. A user then reads the settings twice, the second time after
the entry has expired, and writes to them in vain. At last a probe comes by POST. -/
theorem counters_add_up_settings :
    let g : Gate := { rules := .standard, cookieName := "token", cache := ⟨"1.3.0", .ofSeconds 60⟩ }
    let user : User := { id := ⟨"u1"⟩, username := "anna" }
    let stranger : Backend := .constant (.error .unauthorized) (.ok (.ofEntries []))
    let anna : Backend := .constant (.ok user) (.error .timeout)
    let initial : State Store.Memory := ⟨⟨{}, .replaying [.ok "v1.4.0"], 0⟩, {}⟩
    let visits : List Visit :=
      [⟨{ method := "GET", target := "/settings" }, stranger, 1⟩,
        ⟨{ method := "GET", target := "/settings?tab=1" }, anna, 2⟩,
        ⟨{ method := "HEAD", target := "/settings/account" }, anna, 70000⟩,
        ⟨{ method := "POST", target := "/settings" }, anna, 70001⟩,
        ⟨{ method := "POST", target := "/health" }, anna, 70002⟩]
    let durations : Nat → Duration := fun place => .ofSeconds place
    visits.countP isPage = 4 ∧ visits.countP g.readsSettings = 2 ∧
      (g.answers initial visits).countP isSentElsewhere = 1 ∧
      g.AddsUp durations visits (g.answers initial visits) initial (g.after initial visits) ∧
      LeavesPagesAlone durations (g.after initial (visits.take 4)) (g.after initial visits) := by
  intro g user stranger anna initial visits durations
  obtain ⟨-, adds, -, alone⟩ :=
    counters_add_up g (by decide +kernel) (by decide +kernel) durations initial visits
  have prompt : ∀ v ∈ visits, Prompt v.backend initial.resources.feed := by
    simp [visits, stranger, anna, initial, Prompt.of_constant]
  exact ⟨by decide +kernel, by decide +kernel, by decide +kernel, adds prompt,
    alone 4 _ rfl (by decide +kernel)⟩

/-- The backend is asked and not waited for. -/
example :
    let g : Gate := { rules := .standard, cookieName := "token", cache := ⟨"1.3.0", .ofSeconds 60⟩ }
    let fails : Backend := .constant (.error .timeout) (.error .timeout)
    let v : Visit :=
      ⟨{ method := "GET", target := "/settings" }, { fails with userTime := .ofSeconds 31 }, 1⟩
    let initial : State Store.Memory := ⟨⟨{}, .replaying [.ok "v1.4.0"], 0⟩, {}⟩
    let after := g.after initial [v]
    g.answers initial [v] = [some timedOut] ∧
      after.activity.userLookups = 1 ∧ after.activity.configLookups = 1 ∧
      after.activity.recordings = [.request "GET" "/settings" 408] := by
  decide +kernel

end Gate
end Gatehouse
