import Gatehouse.Proofs.Rules.Amendments
import Gatehouse.Proofs.Visits

/-! # Signed-out callers and the version cache

Whether a page shows versions is decided by its path, and whether a caller may see the page by the
rules. Under the standard rules the pages that show versions are all for signed-in callers, so a
caller who is not signed in never has a version looked up. -/

namespace Gatehouse

namespace Rules

/-- No page of the settings area is for callers who are not signed in. -/
theorem standard_settings_closed {path : String} (settings : Page.isSettings path = true)
    {s : Session} (out : s.isSignedIn = false) : standard.decision path s ≠ .allow := by
  rw [Page.isSettings, Path.isWithin_iff_below] at settings
  have below := settings.of_bare_root (by decide)
  have notSignedOut : standard.audience path ≠ .signedOut := by
    intro falls
    obtain ⟨root, mem, covers⟩ := (audience_eq_iff_below (.inl rfl) standard_unambiguous).mp falls
    have apart : ∀ root ∈ standard.rulesOf .signedOut,
        ¬ Path.Below "/settings".toList root.toList ∧
          ¬ Path.Below root.toList "/settings".toList := by
      simp only [← Path.covers_iff_below]
      decide
    rcases below.total covers with inner | outer
    · exact (apart root mem).1 inner
    · exact (apart root mem).2 outer
  have notPublic : standard.audience path ≠ .everyone := by
    intro falls
    have mem := (audience_eq_iff_takes standard_unambiguous (by decide)).mp falls
    have apart : ∀ rule ∈ standard.publicPaths,
        ¬ Path.Below "/settings".toList rule.toList := by
      simp only [← Path.covers_iff_below]
      decide
    refine apart _ mem ?_
    rw [Path.toList_withoutQuery]
    exact below
  rw [Ne, decision_eq_allow_iff]
  cases falls : standard.audience path with
  | signedOut => exact absurd falls notSignedOut
  | everyone => exact absurd falls notPublic
  | administrators =>
      intro admin
      exact Bool.false_ne_true (out.symm.trans (Session.isSignedIn_of_isAdmin admin))
  | users =>
      intro signedIn
      exact Bool.false_ne_true (out.symm.trans signedIn)

theorem standard_target_sendable {path target : String} {s : Session}
    (decided : standard.decision path s = .redirect target) :
    Http.Header.isSendable target = true := by
  rw [decisionFor_eq_redirect decided]
  cases s.isSignedIn <;> decide +kernel

end Rules

namespace Gate

variable {σ : Type} [Store σ]

/-- A response of the given content that has no version block: either no page data at all, or the
data of the session alone, which are left out in the answer to HEAD. -/
def ShowsNoVersion (s : Session) (response : Http.Response) : Prop :=
  response.contentType = some "application/json" →
    response.body = "" ∨ response.body = (Page.toJson (.ofSession s none)).compact

theorem showsNoVersion_pageResponse (s : Session) (method : String) :
    ShowsNoVersion s ((pageResponse (.ofSession s none)).forMethod method) := by
  intro page
  unfold Http.Response.forMethod at page ⊢
  split
  · exact .inr rfl
  · split
    · exact .inl rfl
    · exact .inl rfl

theorem contentType_forMethod {response : Http.Response} {method : String}
    (text : response.contentType ≠ some "application/json") :
    (response.forMethod method).contentType ≠ some "application/json" := by
  unfold Http.Response.forMethod
  split
  · exact text
  · split
    · exact text
    · simp [Http.Response.notAllowed]

omit [Store σ] in
theorem contentType_of_asides {g : Gate} {request : Http.Request} {response : Http.Response}
    (served : response ∈ g.asides request) : response.contentType ≠ some "application/json" := by
  simp only [asides, List.mem_cons, List.not_mem_nil, or_false] at served
  rcases served with rfl | rfl | rfl
  · exact contentType_forMethod (by simp [healthResponse])
  · exact contentType_forMethod (by simp [metricsResponse])
  · simp [notFound]

/-- The course of a request by a caller who is not signed in: no lookup, and nothing is done to the
store or the feed. -/
theorem Course.of_signedOut {g : Gate} (rules : g.rules = .standard) {b : Backend}
    {request : Http.Request} (out : (g.session b request).isSignedIn = false)
    {before after : Version.Resources σ} {answer : Option Http.Response}
    {fresh : List Metrics.Recording} (course : Course g b request before answer fresh after) :
    after = before ∧ (∀ outcome, .lookup outcome ∉ fresh) ∧
      ∃ response, answer = some response ∧ ShowsNoVersion (g.session b request) response := by
  cases course with
  | aside route served =>
      exact ⟨rfl, by simp [recorded], _, rfl, fun page => absurd page (contentType_of_asides served)⟩
  | late route slow => exact ⟨rfl, by simp [recorded], _, rfl, by simp [ShowsNoVersion, timedOut]⟩
  | redirected route prompt decided sendable =>
      exact ⟨rfl, by simp [entering, recorded], _, rfl, by simp [ShowsNoVersion, redirectResponse]⟩
  | unanswered route prompt decided unsendable =>
      rw [rules] at decided
      simp [Rules.standard_target_sendable decided] at unsendable
  | refused route prompt decided writing =>
      exact ⟨rfl, by simp [entering, recorded], _, rfl,
        by simp [ShowsNoVersion, Http.Response.notAllowed]⟩
  | shown route prompt decided reading elsewhere plain =>
      subst plain
      exact ⟨rfl, by simp [entering, recorded], _, rfl, showsNoVersion_pageResponse _ _⟩
  | reported route prompt decided reading settings =>
      rw [rules] at decided
      exact absurd decided (Rules.standard_settings_closed settings out)
  | cutOff route prompt decided reading settings =>
      rw [rules] at decided
      exact absurd decided (Rules.standard_settings_closed settings out)

/-- Under the standard rules a request whose user lookup fails leaves the feed uncalled, the store as
it is and every counter of version lookups where it was, and is answered without a version block,
whatever requests came before it. -/
theorem signed_out_never_looks_up (g : Gate) (rules : g.rules = .standard) (initial : State σ)
    (visits : List Visit) (i : Nat) (v : Visit) (here : visits[i]? = some v)
    (failed : ∃ fault, v.backend.currentUser (Token.extract g.cookieName v.request.headers) =
      .error fault)
    (durations : Nat → Duration) :
    let before := g.after initial (visits.take i)
    let after := g.after initial (visits.take (i + 1))
    after.resources.feed = before.resources.feed ∧
      after.resources.store = before.resources.store ∧
      (∀ s : Metrics.Sample, s.name = "gate_version_cache_total" →
        (after.activity.totals durations).count s = (before.activity.totals durations).count s) ∧
      ∃ response, (g.answers initial visits)[i]? = some (some response) ∧
        ShowsNoVersion (g.session v.backend v.request) response := by
  intro before after
  obtain ⟨fault, failed⟩ := failed
  have out : (g.session v.backend v.request).isSignedIn = false := by
    simp [session, Session.ofLookups, Session.isSignedIn, failed, Except.toOption]
  have step : after = (g.visit v before).2 := after_take_succ here
  obtain ⟨-, -, fresh, recordings, course⟩ := course_of_visit g v before
  rw [← step] at recordings course
  obtain ⟨resources, unasked, response, answered, plain⟩ := course.of_signedOut rules out
  refine ⟨by rw [resources], by rw [resources], fun s name => ?_, response, ?_, plain⟩
  · have counter : s.name ∈ Metrics.counterNames := by simp [name, Metrics.counterNames]
    refine Activity.count_of_unrecorded recordings counter (fun r mem same => ?_) durations
    rw [name] at same
    cases r with
    | lookup outcome => exact unasked outcome mem
    | request method path status => simp [Metrics.Recording.counter] at same
    | navigation audience redirected => simp [Metrics.Recording.counter] at same
    | bootstrap user config => simp [Metrics.Recording.counter] at same
  · rw [answers_getElem? here, answered]

/-- A stranger comes to a settings page after the entry that a user's visit has left has expired. -/
theorem signed_out_never_looks_up_expired :
    let g : Gate := { rules := .standard, cookieName := "token", cache := ⟨"1.3.0", .ofSeconds 60⟩ }
    let user : User := { id := ⟨"u1"⟩, username := "anna" }
    let initial : State Store.Memory := ⟨⟨{}, .replaying [.ok "v1.4.0"], 0⟩, {}⟩
    let first : Visit :=
      ⟨{ method := "GET", target := "/settings" }, .constant (.ok user) (.error .timeout), 5⟩
    let v : Visit :=
      ⟨{ method := "HEAD", target := "/settings//account?tab=1" },
        .constant (.error .timeout) (.ok (.ofEntries [])), 90000⟩
    let before := g.after initial [first]
    let after := g.after initial [first, v]
    (∃ fault, v.backend.currentUser (Token.extract g.cookieName v.request.headers) =
        .error fault) ∧
      before.resources.feed.calls = 1 ∧ before.resources.store ≠ initial.resources.store ∧
      after.resources.feed = before.resources.feed ∧
      after.resources.store = before.resources.store ∧
      ∃ response, (g.answers initial [first, v])[1]? = some (some response) ∧
        ShowsNoVersion (g.session v.backend v.request) response := by
  intro g user initial first v before after
  have failed : ∃ fault, v.backend.currentUser (Token.extract g.cookieName v.request.headers) =
      .error fault := ⟨.timeout, rfl⟩
  obtain ⟨feed, store, -, answered⟩ :=
    signed_out_never_looks_up g rfl initial [first, v] 1 v rfl failed fun _ => ⟨0⟩
  exact ⟨failed, by decide +kernel, by decide +kernel, feed, store, answered⟩

end Gate
end Gatehouse
