import Gatehouse.Gate
import Gatehouse.Proofs.Metrics
import Gatehouse.Proofs.Rules.Families
import Gatehouse.Proofs.Text
import Gatehouse.Proofs.Version.Cache
import Gatehouse.Store

/-! # Sequences of requests

A gate answers one request after the other and keeps nothing but its version cache. Answering takes
one of a few courses, each of which says what is answered and what is recorded on the way. Every page
is answered as the guard decides for the session of the request, whatever came before, except for the
probes and the metrics with a slash behind them, which nothing is served at. -/

namespace Gatehouse

/-- A request, with the backend as it answers then and the time at which the request comes. -/
structure Visit where
  request : Http.Request
  backend : Backend
  clock : Instant

/-! ## Paths and routes -/

theorem Http.pathOf_eq_of_slash {target : List Char} (origin : target.head? = some '/') :
    pathOf target = target.takeWhile fun c => c ≠ '?' && c ≠ '#' := by
  cases target with
  | nil => simp at origin
  | cons c rest =>
      obtain rfl : c = '/' := by simpa using origin
      simp [pathOf]

theorem Http.Request.head_path {request : Http.Request}
    (origin : request.target.toList.head? = some '/') :
    request.path.toList.head? = some '/' := by
  rw [Request.path, String.toList_ofList, pathOf_eq_of_slash origin, List.head?_takeWhile, origin]
  rfl

theorem Http.Response.status_forMethod (content : Http.Response) (method : String) :
    (content.forMethod method).status = content.status ∨ (content.forMethod method).status = 405 := by
  unfold forMethod
  split
  · exact .inl rfl
  · split
    · exact .inl rfl
    · exact .inr rfl

namespace Route

theorem ofPath_of_slashed : ∀ path ∈ slashedPaths, ofPath path = .nothing := by decide

theorem ofPath_of_fixed : ∀ path ∈ fixedPaths, ofPath path ≠ .page := by decide

theorem ofPath_of_page {path : String} (absolute : path.toList.head? = some '/')
    (unfixed : path ∉ fixedPaths) (slashed : path ∉ slashedPaths) : ofPath path = .page := by
  have unlisted : fixed.lookup path = none := by
    rw [List.lookup_eq_none_iff]
    intro entry mem
    rw [bne_iff_ne]
    rintro rfl
    exact unfixed (List.mem_map_of_mem mem)
  cases chars : path.toList with
  | nil => simp [chars] at absolute
  | cons c rest =>
      obtain rfl : c = '/' := by simpa [chars] using absolute
      simp [ofPath, unlisted, slashed, chars]

theorem ofPath_of_settings {path : String} (settings : Page.isSettings path = true) :
    ofPath path = .page := by
  have apart : ∀ other ∈ fixedPaths ++ slashedPaths, Page.isSettings other = false := by decide
  have others : ∀ other ∈ fixedPaths ++ slashedPaths, path ≠ other := by
    rintro other mem rfl
    exact Bool.false_ne_true ((apart _ mem).symm.trans settings)
  obtain ⟨rest, chars, -⟩ := Path.isWithin_iff_below.mp settings
  refine ofPath_of_page ?_ (fun mem => others _ (List.mem_append_left _ mem) rfl)
    (fun mem => others _ (List.mem_append_right _ mem) rfl)
  simp [chars]

end Route

/-! ## What has been counted -/

namespace Activity

/-- What has been counted, where each recording took a time of its own. -/
def totals (a : Activity) (durations : Nat → Duration) : Metrics.Totals :=
  Metrics.Totals.grow {} (Metrics.samplesOf a.recordings durations)

theorem sumOver_totals {p : Metrics.Sample → Bool}
    (counters : ∀ s, p s = true → s.name ∈ Metrics.counterNames) (a : Activity)
    (durations : Nat → Duration) :
    (a.totals durations).sumOver p = a.recordings.countP (p ·.counter) := by
  rw [totals, Metrics.Totals.sumOver_grow, Metrics.countP_samplesOf counters]
  exact Nat.zero_add _

theorem count_totals {s : Metrics.Sample} (counter : s.name ∈ Metrics.counterNames) (a : Activity)
    (durations : Nat → Duration) :
    (a.totals durations).count s = a.recordings.countP (·.counter == s) := by
  have counters : ∀ other, (other == s) = true → other.name ∈ Metrics.counterNames := by
    intro other same
    rw [eq_of_beq same]
    exact counter
  rw [totals, Metrics.Totals.count_grow, List.count, Metrics.countP_samplesOf counters]
  exact Nat.zero_add _

section

open Metrics.Recording (hasName hasLabel)

variable {before after : Activity} {fresh : List Metrics.Recording}
  (recordings : after.recordings = before.recordings ++ fresh)

include recordings

theorem sumOver_append {p : Metrics.Sample → Bool}
    (counters : ∀ s, p s = true → s.name ∈ Metrics.counterNames) (durations : Nat → Duration) :
    (after.totals durations).sumOver p =
      (before.totals durations).sumOver p + fresh.countP (p ·.counter) := by
  rw [sumOver_totals counters, recordings, List.countP_append, sumOver_totals counters]

theorem total_append {name : String} (counter : name ∈ Metrics.counterNames)
    (durations : Nat → Duration) :
    (after.totals durations).total name =
      (before.totals durations).total name + fresh.countP (hasName name) := by
  refine sumOver_append recordings (fun s named => ?_) durations
  rw [of_decide_eq_true named]
  exact counter

theorem labelled_append {name : String} (counter : name ∈ Metrics.counterNames)
    (label : String × String) (durations : Nat → Duration) :
    (after.totals durations).labelled name label =
      (before.totals durations).labelled name label + fresh.countP (hasLabel name label) := by
  refine sumOver_append recordings (fun s taken => ?_) durations
  rw [of_decide_eq_true (Bool.and_eq_true_iff.mp taken).1]
  exact counter

theorem count_of_unrecorded {s : Metrics.Sample} (counter : s.name ∈ Metrics.counterNames)
    (others : ∀ r ∈ fresh, r.counter.name ≠ s.name) (durations : Nat → Duration) :
    (after.totals durations).count s = (before.totals durations).count s := by
  have absent : fresh.countP (·.counter == s) = 0 := by
    refine List.countP_eq_zero.mpr fun r mem same => others r mem ?_
    rw [eq_of_beq same]
  rw [count_totals counter, recordings, List.countP_append, absent, count_totals counter]
  rfl

end
end Activity

namespace Gate

variable {σ : Type} [Store σ]

/-! ## The answer to one request -/

def session (g : Gate) (b : Backend) (request : Http.Request) : Session :=
  let token := Token.extract g.cookieName request.headers
  .ofLookups (b.currentUser token) (b.appConfig token)

/-- Neither the backend nor the feed keeps a request waiting until it is cut off. -/
structure Prompt (b : Backend) (feed : Version.Feed) : Prop where
  backend : b.waitingTime < timeLimit
  feed : ∀ call, feed.taking call < timeLimit.minus b.waitingTime

theorem Prompt.of_constant (user : Except ClientError User)
    (appConfig : Except ClientError AppConfig.Table) (outcomes : List (Except ClientError String)) :
    Prompt (.constant user appConfig) (.replaying outcomes) := by
  have atOnce : (Backend.constant user appConfig).waitingTime = ⟨0⟩ := rfl
  refine ⟨?_, fun call => ?_⟩
  · rw [atOnce]
    decide
  · show (⟨0⟩ : Duration) < _
    rw [atOnce]
    decide

def asides (g : Gate) (request : Http.Request) : List Http.Response :=
  [healthResponse.forMethod request.method, g.metricsResponse.forMethod request.method, notFound]

omit [Store σ] in
theorem status_of_asides {g : Gate} {request : Http.Request} {response : Http.Response}
    (served : response ∈ g.asides request) :
    response.status = 200 ∨ response.status = 404 ∨ response.status = 405 := by
  simp only [asides, List.mem_cons, List.not_mem_nil, or_false] at served
  rcases served with rfl | rfl | rfl
  · exact (Http.Response.status_forMethod healthResponse request.method).imp_right .inr
  · exact (Http.Response.status_forMethod g.metricsResponse request.method).imp_right .inr
  · exact .inr (.inl rfl)

theorem status_pageResponse (page : Page) (method : String) :
    ((pageResponse page).forMethod method).status = 200 ∨
      ((pageResponse page).forMethod method).status = 405 :=
  Http.Response.status_forMethod _ method

/-- What is recorded for every page before it is shown: the session and the guard's decision. -/
def entering (g : Gate) (b : Backend) (request : Http.Request) (redirected : Bool) :
    List Metrics.Recording :=
  [.bootstrap (g.session b request).user.isSome (g.session b request).appConfig.isSome,
    .navigation (g.rules.audience request.path) redirected]

def recorded (request : Http.Request) (response : Http.Response) : Metrics.Recording :=
  .request request.method request.path response.status

/-- What becomes of a request: each course with its conditions, the answer, the recordings in their
order, and the resources left. -/
inductive Course (g : Gate) (b : Backend) (request : Http.Request) (before : Version.Resources σ) :
    Option Http.Response → List Metrics.Recording → Version.Resources σ → Prop where
  | aside {response : Http.Response} (route : Route.ofPath request.path ≠ .page)
    (served : response ∈ g.asides request) :
    Course g b request before (some response) [recorded request response] before
  /-- The backend takes too long. -/
  | late (route : Route.ofPath request.path = .page) (slow : ¬ b.waitingTime < timeLimit) :
    Course g b request before (some timedOut) [recorded request timedOut] before
  | redirected {target : String} (route : Route.ofPath request.path = .page)
    (prompt : b.waitingTime < timeLimit)
    (decided : g.rules.decision request.path (g.session b request) = .redirect target)
    (sendable : Http.Header.isSendable target = true) :
    Course g b request before (some (redirectResponse target request.method))
      (g.entering b request true ++ [recorded request (redirectResponse target request.method)])
      before
  /-- The target of the redirect fits into no header. -/
  | unanswered {target : String} (route : Route.ofPath request.path = .page)
    (prompt : b.waitingTime < timeLimit)
    (decided : g.rules.decision request.path (g.session b request) = .redirect target)
    (unsendable : Http.Header.isSendable target = false) :
    Course g b request before none (g.entering b request true) before
  | refused (route : Route.ofPath request.path = .page) (prompt : b.waitingTime < timeLimit)
    (decided : g.rules.decision request.path (g.session b request) = .allow)
    (writing : Http.isReading request.method = false) :
    Course g b request before (some .notAllowed)
      (g.entering b request false ++ [recorded request .notAllowed]) before
  | shown {page : Page} (route : Route.ofPath request.path = .page)
    (prompt : b.waitingTime < timeLimit)
    (decided : g.rules.decision request.path (g.session b request) = .allow)
    (reading : Http.isReading request.method = true)
    (elsewhere : Page.isSettings request.path = false)
    (plain : page = .ofSession (g.session b request) none) :
    Course g b request before (some ((pageResponse page).forMethod request.method))
      (g.entering b request false ++
        [recorded request ((pageResponse page).forMethod request.method)])
      before
  | reported {page : Page} {found : Version.Lookup σ} (route : Route.ofPath request.path = .page)
    (prompt : b.waitingTime < timeLimit)
    (decided : g.rules.decision request.path (g.session b request) = .allow)
    (reading : Http.isReading request.method = true)
    (settings : Page.isSettings request.path = true)
    (lookup : found = g.cache.newestVersion before)
    (block : page = .ofSession (g.session b request) (some (g.cache.report found))) :
    Course g b request before (some ((pageResponse page).forMethod request.method))
      (g.entering b request false ++
        [.lookup found.outcome, recorded request ((pageResponse page).forMethod request.method)])
      found.after
  /-- The feed takes too long. -/
  | cutOff {rest : Version.Resources σ} (route : Route.ofPath request.path = .page)
    (prompt : b.waitingTime < timeLimit)
    (decided : g.rules.decision request.path (g.session b request) = .allow)
    (reading : Http.isReading request.method = true)
    (settings : Page.isSettings request.path = true)
    (slow : ¬ before.feed.callTime < timeLimit.minus b.waitingTime)
    (called : rest.feed = before.feed.fetch.2) :
    Course g b request before (some timedOut)
      (g.entering b request false ++ [recorded request timedOut]) rest

def entered (g : Gate) (b : Backend) (request : Http.Request) (redirected : Bool)
    (state : State σ) : State σ :=
  let token := Token.extract g.cookieName request.headers
  { state with
      activity :=
        (Session.establish b token state.activity).2.record
          (.navigation (g.rules.audience request.path) redirected) }

omit [Store σ] in
theorem recordings_entered (g : Gate) (b : Backend) (request : Http.Request) (redirected : Bool)
    (state : State σ) (rest : List Metrics.Recording) :
    (g.entered b request redirected state).activity.recordings ++ rest =
      state.activity.recordings ++ (g.entering b request redirected ++ rest) := by
  show ((state.activity.recordings ++ [_]) ++ [_]) ++ rest = _
  rw [List.append_assoc, List.append_assoc]
  rfl

section

variable {g : Gate} {b : Backend} {request : Http.Request}

theorem answer_of_route {state after : State σ} {response : Http.Response}
    (routed : g.route b request state = (some response, after)) :
    g.answer b request state =
      (some response, { after with
        activity := after.activity.record (recorded request response) }) := by
  rw [answer, routed]
  rfl

theorem visitPage_of_late (slow : ¬ b.waitingTime < timeLimit) (state : State σ) :
    g.visitPage b request state =
      (some timedOut, { state with
        activity := (b.ask (Token.extract g.cookieName request.headers) state.activity).2 }) := by
  rw [visitPage]
  simp only [if_neg slow]

theorem visitPage_of_prompt (prompt : b.waitingTime < timeLimit) (state : State σ) :
    g.visitPage b request state =
      g.answerPage request (g.session b request) (timeLimit.minus b.waitingTime)
        { state with
          activity :=
            (Session.establish b (Token.extract g.cookieName request.headers) state.activity).2 } := by
  rw [visitPage]
  simp only [if_pos prompt]
  rfl

theorem visitPage_of_redirect {target : String} (prompt : b.waitingTime < timeLimit)
    (decided : g.rules.decision request.path (g.session b request) = .redirect target)
    (state : State σ) :
    g.visitPage b request state =
      (if Http.Header.isSendable target then some (redirectResponse target request.method)
        else none, g.entered b request true state) := by
  rw [Rules.decision] at decided
  rw [visitPage_of_prompt prompt]
  simp only [answerPage, decided]
  split <;> rfl

theorem visitPage_of_allow (prompt : b.waitingTime < timeLimit)
    (decided : g.rules.decision request.path (g.session b request) = .allow) (state : State σ) :
    g.visitPage b request state =
      if Http.isReading request.method then
        let rendered := g.renderPage request.path (g.session b request)
          (timeLimit.minus b.waitingTime) (g.entered b request false state)
        (some (rendered.1.elim timedOut fun page => (pageResponse page).forMethod request.method),
          rendered.2)
      else (some .notAllowed, g.entered b request false state) := by
  rw [Rules.decision] at decided
  rw [visitPage_of_prompt prompt]
  simp only [answerPage, decided]
  rfl

end

theorem course_of_reading {g : Gate} {b : Backend} {request : Http.Request}
    (route : Route.ofPath request.path = .page) (prompt : b.waitingTime < timeLimit)
    (decided : g.rules.decision request.path (g.session b request) = .allow)
    (reading : Http.isReading request.method = true) (state : State σ) :
    let rendered := g.renderPage request.path (g.session b request)
      (timeLimit.minus b.waitingTime) (g.entered b request false state)
    let response :=
      rendered.1.elim timedOut fun page => (pageResponse page).forMethod request.method
    rendered.2.activity.userLookups = state.activity.userLookups + 1 ∧
      rendered.2.activity.configLookups = state.activity.configLookups + 1 ∧
      ∃ fresh,
        rendered.2.activity.recordings ++ [recorded request response] =
          state.activity.recordings ++ fresh ∧
        Course g b request state.resources (some response) fresh rendered.2.resources := by
  cases settings : Page.isSettings request.path with
  | false =>
      simp only [renderPage, settings]
      exact ⟨rfl, rfl, _, recordings_entered g b request false state _,
        .shown route prompt decided reading settings rfl⟩
  | true =>
      rcases g.cache.newestWithin_cases (timeLimit.minus b.waitingTime) state.resources with
        ended | ⟨rest, ended, called, slow⟩
      · simp only [renderPage, settings, if_true, entered, ended]
        refine ⟨rfl, rfl, _, ?_, .reported route prompt decided reading settings rfl rfl⟩
        rw [← recordings_entered]
        exact List.append_assoc ..
      · simp only [renderPage, settings, if_true, entered, ended]
        exact ⟨rfl, rfl, _, recordings_entered g b request false state _,
          .cutOff route prompt decided reading settings slow called⟩

/-- Answering takes a course. The caller and the configuration are asked for once for every page. -/
theorem course_of_answer (g : Gate) (b : Backend) (request : Http.Request) (state : State σ) :
    let after := (g.answer b request state).2
    let lookups := if Route.ofPath request.path = .page then 1 else 0
    after.activity.userLookups = state.activity.userLookups + lookups ∧
      after.activity.configLookups = state.activity.configLookups + lookups ∧
      ∃ fresh, after.activity.recordings = state.activity.recordings ++ fresh ∧
        Course g b request state.resources (g.answer b request state).1 fresh after.resources := by
  cases route : Route.ofPath request.path with
  | health | metrics | nothing =>
      have aside : Route.ofPath request.path ≠ .page := by simp [route]
      simp only [answer, Gate.route, route]
      exact ⟨rfl, rfl, _, rfl, .aside aside (by simp [asides])⟩
  | page =>
      by_cases prompt : b.waitingTime < timeLimit
      · cases decided : g.rules.decision request.path (g.session b request) with
        | redirect target =>
            cases sendable : Http.Header.isSendable target with
            | true =>
                simp only [answer, Gate.route, route, visitPage_of_redirect prompt decided, sendable]
                exact ⟨rfl, rfl, _, recordings_entered g b request true state _,
                  .redirected route prompt decided sendable⟩
            | false =>
                simp only [answer, Gate.route, route, visitPage_of_redirect prompt decided, sendable]
                have recordings := recordings_entered g b request true state []
                rw [List.append_nil, List.append_nil] at recordings
                exact ⟨rfl, rfl, _, recordings, .unanswered route prompt decided sendable⟩
        | allow =>
            cases reading : Http.isReading request.method with
            | false =>
                simp only [answer, Gate.route, route, visitPage_of_allow prompt decided, reading]
                exact ⟨rfl, rfl, _, recordings_entered g b request false state _,
                  .refused route prompt decided reading⟩
            | true =>
                have routed : g.route b request state = g.visitPage b request state := by
                  rw [Gate.route, route]
                have visited := (visitPage_of_allow prompt decided state).trans (if_pos reading)
                obtain ⟨users, configs, fresh, recordings, course⟩ :=
                  course_of_reading route prompt decided reading state
                rw [answer_of_route (routed.trans visited), if_pos rfl]
                simp only [Activity.userLookups_record, Activity.configLookups_record,
                  Activity.recordings_record]
                exact ⟨users, configs, fresh, recordings, course⟩
      · simp only [answer, Gate.route, route, visitPage_of_late prompt]
        exact ⟨rfl, rfl, _, rfl, .late route prompt⟩

theorem Course.taking {g : Gate} {b : Backend} {request : Http.Request}
    {before after : Version.Resources σ} {answer : Option Http.Response}
    {fresh : List Metrics.Recording} (course : Course g b request before answer fresh after) :
    after.feed.taking = before.feed.taking := by
  cases course with
  | reported route prompt decided reading settings lookup block =>
      rw [lookup, Version.Cache.taking_newestVersion]
  | cutOff route prompt decided reading settings slow called =>
      rw [called]
      rfl
  | _ => rfl

theorem answer_of_nothing {g : Gate} {b : Backend} {request : Http.Request}
    (route : Route.ofPath request.path = .nothing) (state : State σ) :
    (g.answer b request state).1 = some notFound ∧
      (g.answer b request state).2.resources = state.resources := by
  simp [answer, Gate.route, route]

/-! ## Runs -/

def State.at (state : State σ) (clock : Instant) : State σ :=
  { state with resources := { state.resources with clock } }

def visit (g : Gate) (v : Visit) (state : State σ) : Option Http.Response × State σ :=
  g.answer v.backend v.request (state.at v.clock)

def after (g : Gate) (state : State σ) (visits : List Visit) : State σ :=
  visits.foldl (fun state v => (g.visit v state).2) state

def answers (g : Gate) : State σ → List Visit → List (Option Http.Response)
  | _, [] => []
  | state, v :: visits => (g.visit v state).1 :: g.answers (g.visit v state).2 visits

theorem answers_getElem? {g : Gate} {state : State σ} {visits : List Visit} {i : Nat} {v : Visit}
    (here : visits[i]? = some v) :
    (g.answers state visits)[i]? = some (g.visit v (g.after state (visits.take i))).1 := by
  induction visits generalizing state i with
  | nil => simp at here
  | cons first visits ih =>
      cases i with
      | zero =>
          obtain rfl : first = v := by simpa using here
          rfl
      | succ i => exact ih (by simpa using here)

theorem after_take_succ {g : Gate} {state : State σ} {visits : List Visit} {i : Nat} {v : Visit}
    (here : visits[i]? = some v) :
    g.after state (visits.take (i + 1)) = (g.visit v (g.after state (visits.take i))).2 := by
  rw [after, List.take_add_one, here, Option.toList_some, List.foldl_append]
  rfl

theorem course_of_visit (g : Gate) (v : Visit) (state : State σ) :
    let after := (g.visit v state).2
    let lookups := if Route.ofPath v.request.path = .page then 1 else 0
    after.activity.userLookups = state.activity.userLookups + lookups ∧
      after.activity.configLookups = state.activity.configLookups + lookups ∧
      ∃ fresh, after.activity.recordings = state.activity.recordings ++ fresh ∧
        Course g v.backend v.request { state.resources with clock := v.clock } (g.visit v state).1
          fresh after.resources :=
  course_of_answer g v.backend v.request (state.at v.clock)

/-- How long the calls of the feed take is not up to the gate. -/
theorem taking_after (g : Gate) (state : State σ) (visits : List Visit) :
    (g.after state visits).resources.feed.taking = state.resources.feed.taking := by
  induction visits generalizing state with
  | nil => rfl
  | cons v visits ih =>
      obtain ⟨-, -, fresh, -, course⟩ := course_of_visit g v state
      exact (ih (g.visit v state).2).trans course.taking

theorem Prompt.after {b : Backend} {state : State σ} (prompt : Prompt b state.resources.feed)
    (g : Gate) (visits : List Visit) : Prompt b (g.after state visits).resources.feed where
  backend := prompt.backend
  feed := by
    rw [taking_after]
    exact prompt.feed

/-! ## Pages are answered as decided -/

/-- The guard decides for the session of the request. A caller who is sent elsewhere has nothing
looked up, and one who is let in is shown the page of the session. -/
structure AnsweredAsDecided (g : Gate) (v : Visit) (before after : State σ)
    (answer : Option Http.Response) : Prop where
  redirect : ∀ target,
    g.rules.decision v.request.path (g.session v.backend v.request) = .redirect target →
      (∃ response, answer = some response ∧ response.status = 303 ∧
        response.location = some target) ∧
      after.resources = before.resources
  /-- Only pages of the settings area have a version block. -/
  allow : g.rules.decision v.request.path (g.session v.backend v.request) = .allow →
    ∃ response version, answer = some response ∧ response.status = 200 ∧
      response.body =
        (Page.toJson (.ofSession (g.session v.backend v.request) version)).compact ∧
      (version.isSome = true ↔ Path.Below "/settings".toList v.request.path.toList)

/-- Two answers to one session that differ at most in what is in their version blocks. -/
def SameButVersion (s : Session) (one other : Option Http.Response) : Prop :=
  one = other ∨ ∃ report report' : Version.Report,
    one = some (pageResponse (.ofSession s (some report))) ∧
      other = some (pageResponse (.ofSession s (some report')))

theorem isSendable_of_decided {g : Gate} (login : Text.Visible g.rules.loginPath)
    (landing : Text.Visible g.rules.landingPath) {path target : String} {s : Session}
    (decided : g.rules.decision path s = .redirect target) :
    Http.Header.isSendable target = true := by
  rw [Rules.decisionFor_eq_redirect decided]
  split
  · exact Http.Header.isSendable_of_visible landing
  · exact Http.Header.isSendable_of_visible login

/-- A GET of a page that nothing keeps waiting is either sent elsewhere or shown the page. -/
theorem Course.of_prompt {g : Gate} {b : Backend} {request : Http.Request}
    {before after : Version.Resources σ} {answer : Option Http.Response}
    {fresh : List Metrics.Recording} (course : Course g b request before answer fresh after)
    (page : Route.ofPath request.path = .page) (get : request.method = "GET")
    (prompt : Prompt b before.feed) (login : Text.Visible g.rules.loginPath)
    (landing : Text.Visible g.rules.landingPath) :
    (∃ target, g.rules.decision request.path (g.session b request) = .redirect target ∧
        answer = some (redirectResponse target request.method) ∧ after = before) ∨
      g.rules.decision request.path (g.session b request) = .allow ∧
        ∃ version, answer = some (pageResponse (.ofSession (g.session b request) version)) ∧
          version.isSome = Page.isSettings request.path := by
  have whole (response : Http.Response) : response.forMethod request.method = response := by
    rw [get]
    rfl
  cases course with
  | aside route served => exact absurd page route
  | late route slow => exact absurd prompt.backend slow
  | redirected route _ decided sendable => exact .inl ⟨_, decided, rfl, rfl⟩
  | unanswered route _ decided unsendable =>
      rw [isSendable_of_decided login landing decided] at unsendable
      cases unsendable
  | refused route _ decided writing =>
      rw [get] at writing
      cases writing
  | shown route _ decided reading elsewhere plain =>
      exact .inr ⟨decided, none, by rw [whole, plain], elsewhere.symm⟩
  | reported route _ decided reading settings lookup block =>
      exact .inr ⟨decided, some _, by rw [whole, block], settings.symm⟩
  | cutOff route _ decided reading settings slow called => exact absurd (prompt.feed _) slow

theorem visit_page {g : Gate} (login : Text.Visible g.rules.loginPath)
    (landing : Text.Visible g.rules.landingPath) {v : Visit} (get : v.request.method = "GET")
    (route : Route.ofPath v.request.path = .page) {state : State σ}
    (prompt : Prompt v.backend state.resources.feed) :
    g.AnsweredAsDecided v (state.at v.clock) (g.visit v state).2 (g.visit v state).1 := by
  obtain ⟨-, -, fresh, -, course⟩ := course_of_visit g v state
  rcases course.of_prompt route get prompt login landing with
    ⟨target, decided, answered, same⟩ | ⟨decided, version, answered, settings⟩
  · refine ⟨fun target' decided' => ?_, fun decided' => ?_⟩
    · cases decided.symm.trans decided'
      exact ⟨⟨_, answered, rfl, rfl⟩, same⟩
    · cases decided.symm.trans decided'
  · refine ⟨fun target decided' => ?_, fun _ => ?_⟩
    · cases decided.symm.trans decided'
    · refine ⟨_, version, answered, rfl, rfl, ?_⟩
      rw [settings, Page.isSettings, Path.isWithin_iff_below]

theorem visit_slashed {g : Gate} {v : Visit} (slashed : v.request.path ∈ Route.slashedPaths)
    (state : State σ) :
    (g.visit v state).1 = some notFound ∧
      (g.visit v state).2.resources = (state.at v.clock).resources :=
  answer_of_nothing (Route.ofPath_of_slashed _ slashed) (state.at v.clock)

omit [Store σ] in
/-- Where nothing is found, a caller is neither sent elsewhere nor shown a page. -/
theorem not_answeredAsDecided_notFound {g : Gate} {v : Visit} {before after : State σ} :
    ¬ g.AnsweredAsDecided v before after (some notFound) := by
  intro answered
  cases decided : g.rules.decision v.request.path (g.session v.backend v.request) with
  | redirect target =>
      obtain ⟨⟨response, same, status, -⟩, -⟩ := answered.redirect target decided
      cases same
      cases status
  | allow =>
      obtain ⟨response, version, same, status, -⟩ := answered.allow decided
      cases same
      cases status

/-- What came before a visit shows in nothing but the version block. -/
theorem visit_sameButVersion {g : Gate} (login : Text.Visible g.rules.loginPath)
    (landing : Text.Visible g.rules.landingPath) {v v' : Visit} (get : v.request.method = "GET")
    (origin : v.request.target.toList.head? = some '/') (page : v.request.path ∉ Route.fixedPaths)
    (request : v'.request = v.request) (backend : v'.backend = v.backend) {state state' : State σ}
    (prompt : Prompt v.backend state.resources.feed)
    (prompt' : Prompt v.backend state'.resources.feed) :
    SameButVersion (g.session v.backend v.request) (g.visit v state).1 (g.visit v' state').1 := by
  by_cases slashed : v.request.path ∈ Route.slashedPaths
  · left
    rw [(visit_slashed slashed state).1, (visit_slashed (request ▸ slashed) state').1]
  · have route := Route.ofPath_of_page (Http.Request.head_path origin) page slashed
    obtain ⟨-, -, fresh, -, course⟩ := course_of_visit g v state
    obtain ⟨-, -, fresh', -, course'⟩ := course_of_visit g v' state'
    rw [request, backend] at course'
    rcases course.of_prompt route get prompt login landing with
      ⟨target, decided, answered, -⟩ | ⟨decided, version, answered, settings⟩
    all_goals
      rcases course'.of_prompt route get prompt' login landing with
        ⟨target', decided', answered', -⟩ | ⟨decided', version', answered', settings'⟩
    · cases decided.symm.trans decided'
      exact .inl (answered.trans answered'.symm)
    · cases decided.symm.trans decided'
    · cases decided.symm.trans decided'
    · have both : version.isSome = version'.isSome := settings.trans settings'.symm
      rw [answered, answered']
      cases version with
      | none =>
          obtain rfl : version' = none := by simpa using both
          exact .inl rfl
      | some report =>
          obtain ⟨report', rfl⟩ : ∃ report', version' = some report' :=
            Option.isSome_iff_exists.mp both.symm
          exact .inr ⟨report, report', rfl, rfl⟩

/-- In every run a GET for a page that is not kept waiting is answered as decided exactly where the
path is not that of a probe or of the metrics with a slash behind it. There nothing is found and
nothing is done. No answer depends on the requests before it but for what its version block holds. -/
theorem answers_as_decided (g : Gate) (login : Text.Visible g.rules.loginPath)
    (landing : Text.Visible g.rules.landingPath)
    (initial : State σ) (visits : List Visit) (i : Nat) (v : Visit) (here : visits[i]? = some v)
    (get : v.request.method = "GET") (origin : v.request.target.toList.head? = some '/')
    (page : v.request.path ∉ Route.fixedPaths) (prompt : Prompt v.backend initial.resources.feed) :
    let before := (g.after initial (visits.take i)).at v.clock
    let after := g.after initial (visits.take (i + 1))
    ∃ answer, (g.answers initial visits)[i]? = some answer ∧
      (g.AnsweredAsDecided v before after answer ↔ v.request.path ∉ Route.slashedPaths) ∧
      (v.request.path ∈ Route.slashedPaths →
        answer = some notFound ∧ after.resources = before.resources) ∧
      ∀ (initial' : State σ) (visits' : List Visit) (j : Nat) (v' : Visit),
        visits'[j]? = some v' → v'.request = v.request → v'.backend = v.backend →
        Prompt v.backend initial'.resources.feed →
        ∃ answer', (g.answers initial' visits')[j]? = some answer' ∧
          SameButVersion (g.session v.backend v.request) answer answer' := by
  intro before after
  have step : after = (g.visit v (g.after initial (visits.take i))).2 := after_take_succ here
  refine ⟨_, answers_getElem? here, ⟨?_, ?_⟩, ?_, ?_⟩
  · intro answered slashed
    rw [(visit_slashed slashed _).1] at answered
    exact not_answeredAsDecided_notFound answered
  · intro slashed
    rw [step]
    have route := Route.ofPath_of_page (Http.Request.head_path origin) page slashed
    exact visit_page login landing get route (prompt.after g _)
  · intro slashed
    rw [step]
    exact visit_slashed slashed _
  · intro initial' visits' j v' here' request backend prompt'
    exact ⟨_, answers_getElem? here',
      visit_sameButVersion login landing get origin page request backend (prompt.after g _)
        (prompt'.after g _)⟩

/-- A user opens the settings after a caller who is not signed in has asked for them. -/
theorem answers_as_decided_settings :
    let g : Gate := { rules := .standard, cookieName := "token", cache := ⟨"1.3.0", .ofSeconds 60⟩ }
    let user : User := { id := ⟨"u1"⟩, username := "anna" }
    let initial : State Store.Memory := ⟨⟨{}, .replaying [.ok "v1.4.0"], 0⟩, {}⟩
    let settings : Http.Request := { method := "GET", target := "/settings?tab=1" }
    let stranger : Visit := ⟨settings, .constant (.error .unauthorized) (.ok (.ofEntries [])), 5⟩
    let v : Visit := ⟨settings, .constant (.ok user) (.error .timeout), 3⟩
    let visits := [stranger, v]
    g.rules.decision v.request.path (g.session v.backend v.request) = .allow ∧
      ∃ answer, (g.answers initial visits)[1]? = some answer ∧
        g.AnsweredAsDecided v ((g.after initial (visits.take 1)).at v.clock)
          (g.after initial (visits.take 2)) answer := by
  intro g user initial settings stranger v visits
  have login : Text.Visible g.rules.loginPath := by simp [g, Rules.standard, Text.Visible]
  have landing : Text.Visible g.rules.landingPath := by simp [g, Rules.standard, Text.Visible]
  have origin : v.request.target.toList.head? = some '/' := by decide +kernel
  have page : v.request.path ∉ Route.fixedPaths := by decide +kernel
  have plain : v.request.path ∉ Route.slashedPaths := by decide +kernel
  have prompt : Prompt v.backend initial.resources.feed := .of_constant _ _ _
  obtain ⟨answer, given, decided, -⟩ :=
    answers_as_decided g login landing initial visits 1 v rfl rfl origin page prompt
  exact ⟨by decide +kernel, answer, given, decided.mpr plain⟩

/-- The probe with a slash behind it is a page for users. A caller who is not signed in is not sent
to the login page. -/
theorem slashed_probe_not_found :
    let g : Gate := { rules := .standard, cookieName := "token", cache := ⟨"1.3.0", .ofSeconds 60⟩ }
    let initial : State Store.Memory := ⟨⟨{}, .replaying [.ok "v1.4.0"], 0⟩, {}⟩
    let v : Visit :=
      ⟨{ method := "GET", target := "/health/" },
        .constant (.error .unauthorized) (.ok (.ofEntries [])), 0⟩
    g.rules.Accepted ∧ v.request.path ∉ Route.fixedPaths ∧
      g.rules.decision v.request.path (g.session v.backend v.request) = .redirect "/login" ∧
      g.answers initial [v] = [some notFound] ∧
      ¬ g.AnsweredAsDecided v (initial.at v.clock) (g.after initial [v]) (some notFound) := by
  intro g initial v
  exact ⟨.inl rfl, by decide +kernel, by decide +kernel, by decide +kernel,
    not_answeredAsDecided_notFound⟩

end Gate
end Gatehouse
