import Gatehouse.Proofs.Paths
import Gatehouse.Rules

/-! # The families of rules

Building compares rules two by two. The statements here are about all paths: a rule set is accepted
exactly when no path falls to two families, and then it makes no difference in which order the
families are asked, and redirects stop. -/

namespace Gatehouse

/-- A path that starts with `/` and has neither query nor fragment. -/
def Path.Absolute (path : String) : Prop :=
  path.toList.head? = some '/' ∧ '?' ∉ path.toList ∧ '#' ∉ path.toList

theorem Path.Absolute.withoutQuery_eq {path : String} (h : Absolute path) :
    withoutQuery path = path := withoutQuery_eq_self h.2.1 h.2.2

namespace Amendment

def rule? : Amendment → Option (Audience × String)
  | .addSignedOut root => some (.signedOut, root)
  | .addPublic path => some (.everyone, path)
  | .addAdmin root => some (.administrators, root)
  | .setLogin _ | .setLanding _ => none

def login? : Amendment → Option String
  | .setLogin path => some path
  | _ => none

def landing? : Amendment → Option String
  | .setLanding path => some path
  | _ => none

/-- What the amendments add to one family. -/
def added (a : Audience) (amendments : List Amendment) : List String :=
  ((amendments.filterMap rule?).filter (·.1 = a)).map (·.2)

theorem added_append (a : Audience) (amendments amendments' : List Amendment) :
    added a (amendments ++ amendments') = added a amendments ++ added a amendments' := by
  simp [added]

end Amendment

namespace Rules

/-- The family that a rule for the given audience belongs to takes the path. -/
def Takes (r : Rules) (path : String) : Audience → Prop
  | .signedOut => ∃ root ∈ r.signedOutRoots, Path.Below root.toList path.toList
  | .everyone => path ∈ r.publicPaths
  | .administrators => ∃ root ∈ r.adminRoots, Path.Below root.toList path.toList
  | .users => False

/-- The rules are paths, no path falls to two families, and no redirect target redirects again. -/
structure Unambiguous (r : Rules) : Prop where
  roots : ∀ root ∈ r.signedOutRoots ++ r.adminRoots, Path.Absolute root ∧ root ≠ "/"
  paths : ∀ path ∈ r.publicPaths ++ [r.loginPath, r.landingPath], Path.Absolute path
  disjoint : ∀ (path : String) (a b : Audience),
    r.Takes (Path.withoutQuery path) a → r.Takes (Path.withoutQuery path) b → a = b
  login : r.audience r.loginPath = .signedOut
  landing : r.audience r.landingPath = .users

/-! ## The single checks -/

theorem isWellFormed_iff {rule : String} : isWellFormed rule = true ↔ Path.Absolute rule := by
  unfold isWellFormed Path.Absolute
  cases rule.toList with
  | nil => simp
  | cons c rest =>
      by_cases slash : c = '/'
      · subst slash
        simp only [List.all_eq_true, Bool.and_eq_true, decide_eq_true_eq, List.head?_cons,
          List.mem_cons, Char.reduceEq, false_or, true_and, ne_eq]
        constructor
        · intro h
          exact ⟨fun mem => (h _ mem).1 rfl, fun mem => (h _ mem).2 rfl⟩
        · rintro ⟨query, fragment⟩ c mem
          exact ⟨fun same => query (same ▸ mem), fun same => fragment (same ▸ mem)⟩
      · simp [slash]

theorem isRoot_iff {rule : String} : isRoot rule = true ↔ Path.Absolute rule ∧ rule ≠ "/" := by
  simp [isRoot, isWellFormed_iff]

theorem isSignedOut_iff {r : Rules} {path : String} :
    r.isSignedOut path = true ↔ r.Takes path .signedOut := by
  simp [isSignedOut, Takes, Path.isWithin_iff_below]

theorem isPublic_iff {r : Rules} {path : String} :
    r.isPublic path = true ↔ r.Takes path .everyone := by
  simp [isPublic, Takes]

theorem isAdmin_iff {r : Rules} {path : String} :
    r.isAdmin path = true ↔ r.Takes path .administrators := by
  simp [isAdmin, Takes, Path.isWithin_iff_below]

theorem invalidRoot?_eq_none_iff {r : Rules} :
    r.invalidRoot? = none ↔
      ∀ root ∈ r.signedOutRoots ++ r.adminRoots, Path.Absolute root ∧ root ≠ "/" := by
  simp only [invalidRoot?, roots, Option.map_eq_none_iff, List.find?_eq_none, Bool.not_eq_true',
    Bool.not_eq_false, isRoot_iff]

theorem invalidPath?_eq_none_iff {r : Rules} :
    r.invalidPath? = none ↔
      ∀ path ∈ r.publicPaths ++ [r.loginPath, r.landingPath], Path.Absolute path := by
  simp only [invalidPath?, Option.map_eq_none_iff, List.find?_eq_none, Bool.not_eq_true',
    Bool.not_eq_false, isWellFormed_iff]

theorem nestedRoots?_eq_none_iff {r : Rules} :
    r.nestedRoots? = none ↔
      ∀ out ∈ r.signedOutRoots, ∀ admin ∈ r.adminRoots,
        ¬ Path.Below out.toList admin.toList ∧ ¬ Path.Below admin.toList out.toList := by
  simp only [nestedRoots?, List.findSome?_eq_none_iff, Option.map_eq_none_iff, List.find?_eq_none,
    Bool.or_eq_true, Path.isWithin_iff_below, not_or]

theorem coveredPublic?_eq_none_iff {r : Rules} :
    r.coveredPublic? = none ↔
      ∀ path ∈ r.publicPaths, ∀ root ∈ r.signedOutRoots ++ r.adminRoots,
        ¬ Path.Below root.toList path.toList := by
  simp only [coveredPublic?, roots, List.findSome?_eq_none_iff, Option.map_eq_none_iff,
    List.find?_eq_none, Path.isWithin_iff_below]

theorem loopingLogin?_eq_none_iff {r : Rules} :
    r.loopingLogin? = none ↔ r.audience r.loginPath = .signedOut := by
  simp [loopingLogin?]

theorem loopingLanding?_eq_none_iff {r : Rules} :
    r.loopingLanding? = none ↔ r.audience r.landingPath = .users := by
  simp [loopingLanding?]

theorem conflict?_eq_none_iff {r : Rules} :
    r.conflict? = none ↔
      r.invalidRoot? = none ∧ r.invalidPath? = none ∧ r.nestedRoots? = none ∧
        r.coveredPublic? = none ∧ r.loopingLogin? = none ∧ r.loopingLanding? = none := by
  simp [conflict?, Option.orElse_eq_or]

/-! ## Rules against rules, and rules against paths -/

theorem absolute_of_signedOut {r : Rules}
    (roots : ∀ root ∈ r.signedOutRoots ++ r.adminRoots, Path.Absolute root ∧ root ≠ "/")
    {root : String} (mem : root ∈ r.signedOutRoots) : Path.Absolute root :=
  (roots root (List.mem_append_left _ mem)).1

theorem absolute_of_admin {r : Rules}
    (roots : ∀ root ∈ r.signedOutRoots ++ r.adminRoots, Path.Absolute root ∧ root ≠ "/")
    {root : String} (mem : root ∈ r.adminRoots) : Path.Absolute root :=
  (roots root (List.mem_append_right _ mem)).1

/-- Where no rule lies within a rule of another family, no path falls to two families. -/
theorem disjoint_of_apart {r : Rules}
    (nested : ∀ out ∈ r.signedOutRoots, ∀ admin ∈ r.adminRoots,
      ¬ Path.Below out.toList admin.toList ∧ ¬ Path.Below admin.toList out.toList)
    (covered : ∀ path ∈ r.publicPaths, ∀ root ∈ r.signedOutRoots ++ r.adminRoots,
      ¬ Path.Below root.toList path.toList)
    {path : String} {a b : Audience} (ha : r.Takes path a) (hb : r.Takes path b) : a = b := by
  have roots : ∀ out ∈ r.signedOutRoots, ∀ admin ∈ r.adminRoots,
      Path.Below out.toList path.toList → ¬ Path.Below admin.toList path.toList := by
    intro out memOut admin memAdmin belowOut belowAdmin
    rcases belowOut.total belowAdmin with h | h
    · exact (nested out memOut admin memAdmin).1 h
    · exact (nested out memOut admin memAdmin).2 h
  have publics : ∀ root ∈ r.signedOutRoots ++ r.adminRoots,
      path ∈ r.publicPaths → ¬ Path.Below root.toList path.toList :=
    fun root memRoot memPath => covered path memPath root memRoot
  cases a <;> cases b <;> try rfl
  case signedOut.everyone =>
      obtain ⟨root, mem, below⟩ := ha
      exact (publics root (List.mem_append_left _ mem) hb below).elim
  case signedOut.administrators =>
      obtain ⟨out, memOut, belowOut⟩ := ha
      obtain ⟨admin, memAdmin, belowAdmin⟩ := hb
      exact (roots out memOut admin memAdmin belowOut belowAdmin).elim
  case everyone.signedOut =>
      obtain ⟨root, mem, below⟩ := hb
      exact (publics root (List.mem_append_left _ mem) ha below).elim
  case everyone.administrators =>
      obtain ⟨root, mem, below⟩ := hb
      exact (publics root (List.mem_append_right _ mem) ha below).elim
  case administrators.signedOut =>
      obtain ⟨admin, memAdmin, belowAdmin⟩ := ha
      obtain ⟨out, memOut, belowOut⟩ := hb
      exact (roots out memOut admin memAdmin belowOut belowAdmin).elim
  case administrators.everyone =>
      obtain ⟨root, mem, below⟩ := ha
      exact (publics root (List.mem_append_right _ mem) hb below).elim
  all_goals first | exact ha.elim | exact hb.elim

theorem nestedRoots?_eq_none {r : Rules} (h : r.Unambiguous) : r.nestedRoots? = none := by
  refine nestedRoots?_eq_none_iff.mpr fun out memOut admin memAdmin => ⟨?_, ?_⟩
  · intro below
    have rule := (absolute_of_admin h.roots memAdmin).withoutQuery_eq
    have both := h.disjoint admin .signedOut .administrators
    rw [rule] at both
    exact nomatch both ⟨out, memOut, below⟩ ⟨admin, memAdmin, Path.Below.refl _⟩
  · intro below
    have rule := (absolute_of_signedOut h.roots memOut).withoutQuery_eq
    have both := h.disjoint out .signedOut .administrators
    rw [rule] at both
    exact nomatch both ⟨out, memOut, Path.Below.refl _⟩ ⟨admin, memAdmin, below⟩

theorem coveredPublic?_eq_none {r : Rules} (h : r.Unambiguous) : r.coveredPublic? = none := by
  refine coveredPublic?_eq_none_iff.mpr fun path memPath root memRoot below => ?_
  have rule := (h.paths path (List.mem_append_left _ memPath)).withoutQuery_eq
  rcases List.mem_append.mp memRoot with out | admin
  · have both := h.disjoint path .signedOut .everyone
    rw [rule] at both
    exact nomatch both ⟨root, out, below⟩ memPath
  · have both := h.disjoint path .administrators .everyone
    rw [rule] at both
    exact nomatch both ⟨root, admin, below⟩ memPath

theorem conflict?_eq_none_iff_unambiguous {r : Rules} :
    r.conflict? = none ↔ r.Unambiguous := by
  rw [conflict?_eq_none_iff]
  constructor
  · rintro ⟨roots, paths, nested, covered, login, landing⟩
    exact
      { roots := invalidRoot?_eq_none_iff.mp roots
        paths := invalidPath?_eq_none_iff.mp paths
        disjoint := fun _ _ _ => disjoint_of_apart (nestedRoots?_eq_none_iff.mp nested)
          (coveredPublic?_eq_none_iff.mp covered)
        login := loopingLogin?_eq_none_iff.mp login
        landing := loopingLanding?_eq_none_iff.mp landing }
  · intro h
    exact ⟨invalidRoot?_eq_none_iff.mpr h.roots, invalidPath?_eq_none_iff.mpr h.paths,
      nestedRoots?_eq_none h, coveredPublic?_eq_none h, loopingLogin?_eq_none_iff.mpr h.login,
      loopingLanding?_eq_none_iff.mpr h.landing⟩

theorem build_eq_ok_iff {amendments : List Amendment} {r : Rules} :
    build amendments = .ok r ↔ amendments.foldl amend standard = r ∧ r.Unambiguous := by
  simp only [build]
  cases check : (amendments.foldl amend standard).conflict? with
  | none =>
      have clear := conflict?_eq_none_iff_unambiguous.mp check
      constructor
      · intro built
        cases built
        exact ⟨rfl, clear⟩
      · rintro ⟨rfl, -⟩
        rfl
  | some conflict =>
      constructor
      · intro built
        cases built
      · rintro ⟨rfl, clear⟩
        rw [conflict?_eq_none_iff_unambiguous.mpr clear] at check
        cases check

/-! ## The order of the families -/

def families : List Audience := [.signedOut, .everyone, .administrators]

def takes (r : Rules) (path : String) : Audience → Bool
  | .signedOut => r.isSignedOut path
  | .everyone => r.isPublic path
  | .administrators => r.isAdmin path
  | .users => false

/-- The first family in the given order that takes the path, or else the users. -/
def audienceInOrder (r : Rules) (order : List Audience) (path : String) : Audience :=
  (order.find? (r.takes (Path.withoutQuery path))).getD .users

theorem takes_iff {r : Rules} {path : String} {a : Audience} :
    r.takes path a = true ↔ r.Takes path a := by
  cases a with
  | signedOut => exact isSignedOut_iff
  | everyone => exact isPublic_iff
  | administrators => exact isAdmin_iff
  | users => simp [takes, Takes]

theorem audience_eq_inOrder (r : Rules) (path : String) :
    r.audience path = r.audienceInOrder families path := by
  simp only [audience, audienceInOrder, families, List.find?_cons, takes]
  repeat' split
  all_goals simp_all

/-- Where at most one family takes the path, all orders find it or none does. -/
theorem audienceInOrder_perm {r : Rules} {order order' : List Audience}
    (perm : order.Perm order') {path : String}
    (one : ∀ a b, r.Takes (Path.withoutQuery path) a → r.Takes (Path.withoutQuery path) b → a = b) :
    r.audienceInOrder order path = r.audienceInOrder order' path := by
  unfold audienceInOrder
  congr 1
  cases first : order'.find? (r.takes (Path.withoutQuery path)) with
  | none =>
      rw [List.find?_eq_none] at first ⊢
      exact fun a mem => first a (perm.mem_iff.mp mem)
  | some a =>
      have taken := takes_iff.mp (List.find?_some first)
      cases other : order.find? (r.takes (Path.withoutQuery path)) with
      | none =>
          have mem := perm.mem_iff.mpr (List.mem_of_find?_eq_some first)
          exact (List.find?_eq_none.mp other a mem (List.find?_some first)).elim
      | some b => rw [one b a (takes_iff.mp (List.find?_some other)) taken]

/-! ## Amendments -/

def rulesOf (r : Rules) : Audience → List String
  | .signedOut => r.signedOutRoots
  | .everyone => r.publicPaths
  | .administrators => r.adminRoots
  | .users => []

theorem rulesOf_amend (r : Rules) (amendment : Amendment) (a : Audience) :
    (r.amend amendment).rulesOf a = r.rulesOf a ++ Amendment.added a [amendment] := by
  cases amendment <;> cases a <;> simp [amend, rulesOf, Amendment.added, Amendment.rule?]

theorem rulesOf_foldl_amend (r : Rules) (amendments : List Amendment) (a : Audience) :
    (amendments.foldl amend r).rulesOf a = r.rulesOf a ++ Amendment.added a amendments := by
  induction amendments generalizing r with
  | nil => simp [Amendment.added]
  | cons amendment amendments ih =>
      rw [List.foldl_cons, ih, rulesOf_amend, List.append_assoc, ← Amendment.added_append,
        List.singleton_append]

theorem loginPath_foldl_amend (r : Rules) (amendments : List Amendment) :
    (amendments.foldl amend r).loginPath =
      (amendments.filterMap (·.login?)).getLastD r.loginPath := by
  induction amendments generalizing r with
  | nil => rfl
  | cons amendment amendments ih =>
      rw [List.foldl_cons, ih]
      cases amendment with
      | setLogin path => exact (List.getLastD_cons ..).symm
      | _ => rfl

theorem landingPath_foldl_amend (r : Rules) (amendments : List Amendment) :
    (amendments.foldl amend r).landingPath =
      (amendments.filterMap (·.landing?)).getLastD r.landingPath := by
  induction amendments generalizing r with
  | nil => rfl
  | cons amendment amendments ih =>
      rw [List.foldl_cons, ih]
      cases amendment with
      | setLanding path => exact (List.getLastD_cons ..).symm
      | _ => rfl

/-- Building takes the standard rules with the added ones behind them and the pages that were set
last. It accepts exactly the unambiguous rule sets, and an accepted one may ask its families in any
order. -/
theorem build_accepts_iff_unambiguous (amendments : List Amendment) :
    let rules := amendments.foldl amend standard
    (∀ a, rules.rulesOf a = standard.rulesOf a ++ Amendment.added a amendments) ∧
      rules.loginPath = (amendments.filterMap (·.login?)).getLastD standard.loginPath ∧
      rules.landingPath = (amendments.filterMap (·.landing?)).getLastD standard.landingPath ∧
      ((∃ r, build amendments = .ok r) ↔ rules.Unambiguous) ∧
      ∀ r, build amendments = .ok r →
        r = rules ∧
        ∀ order, order.Perm families → ∀ path, r.audienceInOrder order path = r.audience path := by
  refine ⟨rulesOf_foldl_amend standard amendments, loginPath_foldl_amend standard amendments,
    landingPath_foldl_amend standard amendments, ⟨?_, ?_⟩, ?_⟩
  · rintro ⟨r, built⟩
    obtain ⟨rfl, clear⟩ := build_eq_ok_iff.mp built
    exact clear
  · intro clear
    exact ⟨_, build_eq_ok_iff.mpr ⟨rfl, clear⟩⟩
  · intro r built
    obtain ⟨rfl, clear⟩ := build_eq_ok_iff.mp built
    refine ⟨rfl, fun order perm path => ?_⟩
    rw [audience_eq_inOrder]
    exact audienceInOrder_perm perm (clear.disjoint path)

/-- Roots with slashes at their end, and the families asked the other way round. -/
theorem build_accepts_trailing_slashes :
    let amendments : List Amendment :=
      [.addAdmin "/reports/", .addPublic "/about", .addSignedOut "/join//", .setLogin "/join//"]
    let rules := amendments.foldl amend standard
    build amendments = .ok rules ∧
      rules.rulesOf .administrators = ["/settings/admin", "/reports/"] ∧
      rules.loginPath = "/join//" ∧
      rules.audience "/reports//x?y" = .administrators ∧
      rules.audienceInOrder families.reverse "/reports//x?y" = .administrators := by
  intro amendments rules
  have built : build amendments = .ok rules := by decide +kernel
  have family : rules.audience "/reports//x?y" = .administrators := by decide +kernel
  obtain ⟨added, login, -, -, accepted⟩ := build_accepts_iff_unambiguous amendments
  have same := (accepted _ built).2 families.reverse (List.reverse_perm families) "/reports//x?y"
  exact ⟨built, (added .administrators).trans (by decide), login.trans (by decide), family,
    same.trans family⟩

end Rules

/-! ## Redirects stop

A caller who is sent to another page may go there. So following the guard takes at most one step,
whatever the rules are that were accepted, and whoever the caller is. -/

def Audience.Admits : Audience → Session → Prop
  | .signedOut, s => s.isSignedIn = false
  | .everyone, _ => True
  | .administrators, s => s.isAdmin = true
  | .users, s => s.isSignedIn = true

instance (a : Audience) (s : Session) : Decidable (a.Admits s) :=
  match a with
  | .signedOut => inferInstanceAs (Decidable (s.isSignedIn = false))
  | .everyone => inferInstanceAs (Decidable True)
  | .administrators => inferInstanceAs (Decidable (s.isAdmin = true))
  | .users => inferInstanceAs (Decidable (s.isSignedIn = true))

theorem Session.isSignedIn_of_isAdmin {s : Session} (admin : s.isAdmin = true) :
    s.isSignedIn = true := by
  cases user : s.user <;> simp_all [isAdmin, isSignedIn]

namespace Rules

/-- The rules a gate can have: the standard ones, and those that building accepts. -/
def Accepted (r : Rules) : Prop := r = standard ∨ ∃ amendments, build amendments = .ok r

theorem standard_unambiguous : standard.Unambiguous :=
  conflict?_eq_none_iff_unambiguous.mp (by decide +kernel)

theorem Accepted.unambiguous {r : Rules} (accepted : r.Accepted) : r.Unambiguous := by
  rcases accepted with rfl | ⟨amendments, built⟩
  · exact standard_unambiguous
  · exact (build_eq_ok_iff.mp built).2

/-- Signed-in callers are only sent to the landing page, and all others only to the login page. -/
theorem decisionFor_eq_redirect {r : Rules} {audience : Audience} {s : Session} {target : String}
    (h : r.decisionFor audience s = .redirect target) :
    target = if s.isSignedIn then r.landingPath else r.loginPath := by
  cases audience <;> cases signedIn : s.isSignedIn <;> cases admin : s.isAdmin <;>
    simp_all [decisionFor]

theorem decision_eq_allow_iff {r : Rules} {path : String} {s : Session} :
    r.decision path s = .allow ↔ (r.audience path).Admits s := by
  have signed := Session.isSignedIn_of_isAdmin (s := s)
  unfold decision decisionFor Audience.Admits
  cases r.audience path <;> cases signedIn : s.isSignedIn <;> cases admin : s.isAdmin <;> simp_all

/-- The page that a caller is sent to is for this caller. -/
theorem decision_target {r : Rules} (clear : r.Unambiguous) (s : Session) :
    r.decision (if s.isSignedIn then r.landingPath else r.loginPath) s = .allow := by
  cases signedIn : s.isSignedIn with
  | false => simp [decision, clear.login, decisionFor, signedIn]
  | true => simp [decision, clear.landing, decisionFor, signedIn]

/-- Where a caller ends who follows at most the given number of redirects. -/
def follow (r : Rules) (s : Session) : Nat → String → String
  | 0, path => path
  | steps + 1, path =>
    match r.decision path s with
    | .allow => path
    | .redirect target => follow r s steps target

theorem follow_of_allow {r : Rules} {s : Session} {path : String}
    (h : r.decision path s = .allow) (steps : Nat) : r.follow s steps path = path := by
  cases steps with
  | zero => rfl
  | succ steps => simp [follow, h]

theorem follow_of_redirect {r : Rules} (clear : r.Unambiguous) {s : Session}
    {path target : String} (h : r.decision path s = .redirect target) (steps : Nat) :
    r.follow s (steps + 1) path = target := by
  have allowed : r.decision target s = .allow := by
    rw [decisionFor_eq_redirect h]
    exact decision_target clear s
  simp only [follow, h]
  exact follow_of_allow allowed steps

/-- A redirect leads to the login or the landing page, where the same caller is let in, so that all
redirects are followed in one step. -/
theorem redirect_target_allowed (r : Rules) (accepted : r.Accepted) (s : Session) :
    (∀ path target, r.decision path s = .redirect target →
      (target = r.loginPath ∨ target = r.landingPath) ∧ r.decision target s = .allow) ∧
    ∀ path steps, r.follow s (steps + 1) path = r.follow s 1 path ∧
      r.decision (r.follow s (steps + 1) path) s = .allow := by
  have clear := accepted.unambiguous
  constructor
  · intro path target h
    have leads := decisionFor_eq_redirect h
    constructor
    · rw [leads]
      cases s.isSignedIn <;> simp
    · rw [leads]
      exact decision_target clear s
  · intro path steps
    cases h : r.decision path s with
    | allow =>
        rw [follow_of_allow h, follow_of_allow h]
        exact ⟨rfl, h⟩
    | redirect target =>
        rw [follow_of_redirect clear h, follow_of_redirect clear h]
        refine ⟨rfl, ?_⟩
        rw [decisionFor_eq_redirect h]
        exact decision_target clear s

/-- A user without rights at a page for administrators, under rules with pages of their own. -/
theorem redirect_target_allowed_custom :
    let r : Rules :=
      { standard with
        signedOutRoots := ["/login", "/lc", "/join"]
        loginPath := "/join/now"
        landingPath := "/home" }
    let s : Session := { user := some ⟨⟨"u1"⟩, "anna", none, "", none, false, none, false⟩ }
    r.Accepted ∧ r.decision "/settings/admin/users" s = .redirect "/home" ∧
      r.decision "/home" s = .allow := by
  intro r s
  have accepted : r.Accepted :=
    .inr ⟨[.addSignedOut "/join", .setLogin "/join/now", .setLanding "/home"], by decide +kernel⟩
  have sent : r.decision "/settings/admin/users" s = .redirect "/home" := by decide +kernel
  exact ⟨accepted, sent, ((redirect_target_allowed r accepted s).1 _ _ sent).2⟩

end Rules
end Gatehouse
