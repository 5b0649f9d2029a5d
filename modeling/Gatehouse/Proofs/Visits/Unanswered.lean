import Gatehouse.Proofs.Rules.Amendments
import Gatehouse.Proofs.Visits

/-! # Redirects that cannot be sent

A caller is sent to the login page or to the landing page, and under accepted rules there are callers
for both. The gate has no answer where the page that a caller is sent to fits into no header. Building
accepts such pages: what it asks of a path does not keep control characters out. -/

namespace Gatehouse

namespace Rules

section

variable {amendments : List Amendment} {r : Rules} (built : build amendments = .ok r) {s : Session}

include built

theorem decision_login (signedIn : s.isSignedIn = true) :
    r.decision "/login" s = .redirect r.landingPath := by
  have login : standard.audience "/login" = .signedOut := by decide +kernel
  have same : r.audience "/login" = standard.audience "/login" :=
    audience_of_standard built (by rw [login]; decide)
  rw [decision, same, login, decisionFor, if_pos signedIn]

theorem decision_administration (out : s.isSignedIn = false) :
    r.decision "/settings/admin" s = .redirect r.loginPath := by
  have admin : standard.audience "/settings/admin" = .administrators := by decide +kernel
  have same : r.audience "/settings/admin" = standard.audience "/settings/admin" :=
    audience_of_standard built (by rw [admin]; decide)
  simp [decision, same, admin, decisionFor, out]

theorem redirect_iff_mem {target : String} :
    (∃ path s, r.decision path s = .redirect target) ↔ target ∈ [r.loginPath, r.landingPath] := by
  simp only [List.mem_cons, List.not_mem_nil, or_false]
  constructor
  · rintro ⟨path, s, decided⟩
    rw [decisionFor_eq_redirect decided]
    cases s.isSignedIn
    · exact .inl rfl
    · exact .inr rfl
  · rintro (rfl | rfl)
    · exact ⟨_, {}, decision_administration built rfl⟩
    · exact ⟨_, { user := some { id := ⟨""⟩, username := "" } }, decision_login built rfl⟩

end
end Rules

namespace Gate

variable {σ : Type} [Store σ]

/-- The visit is to a page from which the caller is sent to a target with a control character, unless
the backend takes too long. -/
def Strands (g : Gate) (v : Visit) : Prop :=
  Route.ofPath v.request.path = .page ∧ v.backend.waitingTime < timeLimit ∧
    ∃ target, g.rules.decision v.request.path (g.session v.backend v.request) = .redirect target ∧
      ∃ c ∈ target.toList, ¬ Http.Header.IsSendable c

theorem Course.eq_none_iff {g : Gate} {v : Visit} {before after : Version.Resources σ}
    {answer : Option Http.Response} {fresh : List Metrics.Recording}
    (course : Course g v.backend v.request before answer fresh after) :
    answer = none ↔ g.Strands v := by
  cases course with
  | unanswered route prompt decided unsendable =>
      exact iff_of_true rfl
        ⟨route, prompt, _, decided, Http.Header.isSendable_eq_false_iff.mp unsendable⟩
  | aside route => exact iff_of_false nofun fun strands => route strands.1
  | late route slow => exact iff_of_false nofun fun strands => slow strands.2.1
  | redirected route prompt decided sendable =>
      refine iff_of_false nofun ?_
      rintro ⟨-, -, target, decided', unsendable⟩
      cases decided.symm.trans decided'
      rw [Http.Header.isSendable_eq_false_iff.mpr unsendable] at sendable
      cases sendable
  | refused route prompt decided | shown route prompt decided | reported route prompt decided
  | cutOff route prompt decided =>
      refine iff_of_false nofun ?_
      rintro ⟨-, -, target, decided', -⟩
      cases decided.symm.trans decided'

theorem visit_eq_none_iff {g : Gate} {v : Visit} {state : State σ} :
    (g.visit v state).1 = none ↔ g.Strands v := by
  obtain ⟨-, -, fresh, -, course⟩ := course_of_visit g v state
  exact course.eq_none_iff

theorem none_mem_answers_iff {g : Gate} {state : State σ} {visits : List Visit} :
    none ∈ g.answers state visits ↔ ∃ v ∈ visits, g.Strands v := by
  induction visits generalizing state with
  | nil => simp [answers]
  | cons v visits ih =>
      rw [answers, List.mem_cons, ih, eq_comm, visit_eq_none_iff]
      simp

theorem Strands.of_redirect {g : Gate} {v : Visit} {path target : String} {c : Char}
    (asked : v.request.path = path) (route : Route.ofPath path = .page)
    (prompt : v.backend.waitingTime < timeLimit)
    (decided : g.rules.decision path (g.session v.backend v.request) = .redirect target)
    (mem : c ∈ target.toList) (unsendable : ¬ Http.Header.IsSendable c) : g.Strands v := by
  subst asked
  exact ⟨route, prompt, target, decided, c, mem, unsendable⟩

theorem exists_strands {amendments : List Amendment} {g : Gate}
    (built : Rules.build amendments = .ok g.rules) {page : String}
    (given : page ∈ [g.rules.loginPath, g.rules.landingPath]) {c : Char} (mem : c ∈ page.toList)
    (unsendable : ¬ Http.Header.IsSendable c) : ∃ v, g.Strands v := by
  have atOnce (user : Except ClientError User) (appConfig : Except ClientError AppConfig.Table) :
      (Backend.constant user appConfig).waitingTime < timeLimit :=
    (Prompt.of_constant user appConfig []).backend
  simp only [List.mem_cons, List.not_mem_nil, or_false] at given
  rcases given with rfl | rfl
  · let stranger : Visit :=
      ⟨{ method := "GET", target := "/settings/admin" },
        .constant (.error .unauthorized) (.error .unauthorized), 0⟩
    have sent := Rules.decision_administration built
      (s := g.session stranger.backend stranger.request) rfl
    exact ⟨stranger, .of_redirect (by decide +kernel) (by decide +kernel)
      (atOnce _ _) sent mem unsendable⟩
  · let user : Visit :=
      ⟨{ method := "GET", target := "/login" },
        .constant (.ok { id := ⟨""⟩, username := "" }) (.error .unauthorized), 0⟩
    have sent := Rules.decision_login built (s := g.session user.backend user.request) rfl
    exact ⟨user, .of_redirect (by decide +kernel) (by decide +kernel) (atOnce _ _) sent mem
      unsendable⟩

/-- Under accepted rules every redirect can be sent exactly if neither the login page nor the landing
page has a control character in it, and exactly then every request of every run is answered. The
requests that are not are those from which the caller is sent to such a page. -/
theorem every_redirect_sent_iff (amendments : List Amendment) (g : Gate)
    (built : Rules.build amendments = .ok g.rules) (initial : State σ) :
    let sendable : Prop := ∀ page ∈ [g.rules.loginPath, g.rules.landingPath],
      ∀ c ∈ page.toList, Http.Header.IsSendable c
    ((∀ path s target, g.rules.decision path s = .redirect target →
        Http.Header.isSendable target = true) ↔ sendable) ∧
      ((∀ visits, none ∉ g.answers initial visits) ↔ sendable) ∧
      ∀ visits, none ∈ g.answers initial visits ↔ ∃ v ∈ visits, g.Strands v := by
  intro sendable
  refine ⟨⟨?_, ?_⟩, ⟨?_, ?_⟩, fun visits => none_mem_answers_iff⟩
  · intro sent page given
    obtain ⟨path, s, decided⟩ := (Rules.redirect_iff_mem built).mpr given
    exact Http.Header.isSendable_iff.mp (sent path s page decided)
  · intro each path s target decided
    have given := (Rules.redirect_iff_mem built).mp ⟨path, s, decided⟩
    exact Http.Header.isSendable_iff.mpr (each target given)
  · intro answered page given c mem
    by_contra unsendable
    obtain ⟨v, strands⟩ := exists_strands built given mem unsendable
    exact answered [v] (none_mem_answers_iff.mpr ⟨v, List.mem_singleton_self v, strands⟩)
  · intro each visits unanswered
    obtain ⟨v, -, -, -, target, decided, c, mem, unsendable⟩ :=
      none_mem_answers_iff.mp unanswered
    have given := (Rules.redirect_iff_mem built).mp ⟨_, _, decided⟩
    exact unsendable (each target given c mem)

/-- A landing page with letters beyond ASCII. -/
theorem every_redirect_sent_iff_accented :
    let g : Gate :=
      { rules := { Rules.standard with landingPath := "/préférences" }
        cookieName := "token"
        cache := ⟨"1.3.0", .ofSeconds 60⟩ }
    let initial : State Store.Memory := ⟨⟨{}, .replaying [.ok "v1.4.0"], 0⟩, {}⟩
    Rules.build [.setLanding "/préférences"] = .ok g.rules ∧
      (∀ path s target, g.rules.decision path s = .redirect target →
        Http.Header.isSendable target = true) ∧
      ∀ visits, none ∉ g.answers initial visits := by
  intro g initial
  have built : Rules.build [.setLanding "/préférences"] = .ok g.rules := by decide +kernel
  have sendable : ∀ page ∈ [g.rules.loginPath, g.rules.landingPath],
      Http.Header.isSendable page = true := by decide +kernel
  have each := fun page given => Http.Header.isSendable_iff.mp (sendable page given)
  obtain ⟨redirects, answered, -⟩ := every_redirect_sent_iff _ g built initial
  exact ⟨built, redirects.mpr each, answered.mpr each⟩

/-- A landing page that ends with its line is accepted. A user who opens the login page is sent there
and gets no answer. -/
theorem landing_with_line_end_accepted :
    let g : Gate :=
      { rules := { Rules.standard with landingPath := "/home\n" }
        cookieName := "token"
        cache := ⟨"1.3.0", .ofSeconds 60⟩ }
    let user : User := { id := ⟨"u1"⟩, username := "anna" }
    let initial : State Store.Memory := ⟨⟨{}, .replaying [.ok "v1.4.0"], 0⟩, {}⟩
    let v : Visit :=
      ⟨{ method := "GET", target := "/login" }, .constant (.ok user) (.ok (.ofEntries [])), 5⟩
    Rules.build [.setLanding "/home\n"] = .ok g.rules ∧
      g.rules.decision "/login" { user := some user } = .redirect "/home\n" ∧
      Http.Header.isSendable "/home\n" = false ∧
      g.answers initial [v] = [none] := by
  intro g user initial v
  exact ⟨by decide +kernel, by decide +kernel, by decide +kernel, by decide +kernel⟩

end Gate
end Gatehouse
