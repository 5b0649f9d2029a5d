import Gatehouse.Proofs.Rules.Families
import Mathlib.Algebra.Order.BigOperators.Group.List
import Mathlib.Algebra.Order.Group.Nat
import Mathlib.Data.List.DropRight

/-! # Amended rule sets

A custom rule set consists of the standard rules and those that were added to them. An accepted one
keeps what the standard rules say about a path, says something else only where an added rule takes
the path, and is the same whatever the order in which the rules were added. -/

namespace Gatehouse

namespace Rules

/-! ## Rules and what they take -/

/-- A rule of the given family takes the path: a root with all below it, a public path only itself.
-/
def Matches (a : Audience) (rule path : String) : Prop :=
  if a = .everyone then path = rule else Path.Below rule.toList path.toList

theorem takes_iff_matches {r : Rules} {path : String} {a : Audience} :
    r.Takes path a ↔ ∃ rule ∈ r.rulesOf a, Matches a rule path := by
  cases a <;> simp [Takes, rulesOf, Matches]

/-- Where no path falls to two families, the first that takes a path is the only one. -/
theorem audience_eq_iff_takes {r : Rules} (clear : r.Unambiguous) {a : Audience}
    (family : a ≠ .users) {path : String} :
    r.audience path = a ↔ r.Takes (Path.withoutQuery path) a := by
  rw [audience_eq_inOrder, audienceInOrder]
  cases first : families.find? (r.takes (Path.withoutQuery path)) with
  | none =>
      have untaken : ¬ r.Takes (Path.withoutQuery path) a := by
        intro taken
        have mem : a ∈ families := by cases a <;> simp_all [families]
        exact List.find?_eq_none.mp first a mem (takes_iff.mpr taken)
      simp [family.symm, untaken]
  | some b =>
      have taken := takes_iff.mp (List.find?_some first)
      constructor
      · rintro rfl
        exact taken
      · exact clear.disjoint path b a taken

/-! ## What amendments change -/

theorem Takes.foldl_amend {r : Rules} {path : String} {a : Audience} (taken : r.Takes path a)
    (amendments : List Amendment) : (amendments.foldl amend r).Takes path a := by
  rw [takes_iff_matches] at taken ⊢
  obtain ⟨rule, mem, takes⟩ := taken
  rw [rulesOf_foldl_amend]
  exact ⟨rule, List.mem_append_left _ mem, takes⟩

theorem audience_of_standard {amendments : List Amendment} {r : Rules}
    (built : build amendments = .ok r) {path : String} (family : standard.audience path ≠ .users) :
    r.audience path = standard.audience path := by
  obtain ⟨rfl, clear⟩ := build_eq_ok_iff.mp built
  have taken := (audience_eq_iff_takes standard_unambiguous family).mp rfl
  exact (audience_eq_iff_takes clear family).mpr (taken.foldl_amend amendments)

theorem added_of_audience_ne {amendments : List Amendment} {r : Rules}
    (built : build amendments = .ok r) {path : String}
    (differs : r.audience path ≠ standard.audience path) :
    standard.audience path = .users ∧
      ∃ rule ∈ Amendment.added (r.audience path) amendments,
        Matches (r.audience path) rule (Path.withoutQuery path) := by
  have users : standard.audience path = .users := by
    by_contra family
    exact differs (audience_of_standard built family)
  rw [users] at differs
  obtain ⟨rfl, clear⟩ := build_eq_ok_iff.mp built
  obtain ⟨rule, mem, takes⟩ := takes_iff_matches.mp ((audience_eq_iff_takes clear differs).mp rfl)
  rw [rulesOf_foldl_amend] at mem
  refine ⟨users, rule, ?_, takes⟩
  rcases List.mem_append.mp mem with old | new
  · have before := (audience_eq_iff_takes standard_unambiguous differs).mpr
      (takes_iff_matches.mpr ⟨rule, old, takes⟩)
    exact absurd (before.symm.trans users) differs
  · exact new

/-! ## The order of the amendments -/

/-- The same rules in every family, in whatever order, and the same two pages. -/
structure SameRules (r r' : Rules) : Prop where
  rules : ∀ a rule, rule ∈ r.rulesOf a ↔ rule ∈ r'.rulesOf a
  login : r.loginPath = r'.loginPath
  landing : r.landingPath = r'.landingPath

namespace SameRules

variable {r r' : Rules}

theorem symm (same : SameRules r r') : SameRules r' r :=
  ⟨fun a rule => (same.rules a rule).symm, same.login.symm, same.landing.symm⟩

theorem takes_iff (same : SameRules r r') {path : String} {a : Audience} :
    r.Takes path a ↔ r'.Takes path a := by
  simp only [takes_iff_matches, same.rules]

theorem audience_eq (same : SameRules r r') (path : String) : r.audience path = r'.audience path := by
  have takes : r.takes (Path.withoutQuery path) = r'.takes (Path.withoutQuery path) := by
    funext a
    rw [Bool.eq_iff_iff, Rules.takes_iff, Rules.takes_iff, same.takes_iff]
  rw [audience_eq_inOrder, audience_eq_inOrder, audienceInOrder, audienceInOrder, takes]

theorem decision_eq (same : SameRules r r') (path : String) (s : Session) :
    r.decision path s = r'.decision path s := by
  rw [decision, decision, same.audience_eq]
  cases r'.audience path <;> simp only [decisionFor, same.login, same.landing]

theorem unambiguous (same : SameRules r r') (clear : r.Unambiguous) : r'.Unambiguous where
  roots root mem := by
    have known : root ∈ r.signedOutRoots ++ r.adminRoots := by
      rcases List.mem_append.mp mem with out | admin
      · exact List.mem_append_left _ ((same.rules .signedOut root).mpr out)
      · exact List.mem_append_right _ ((same.rules .administrators root).mpr admin)
    exact clear.roots root known
  paths path mem := by
    have known : path ∈ r.publicPaths ++ [r.loginPath, r.landingPath] := by
      rw [same.login, same.landing]
      rcases List.mem_append.mp mem with listed | target
      · exact List.mem_append_left _ ((same.rules .everyone path).mpr listed)
      · exact List.mem_append_right _ target
    exact clear.paths path known
  disjoint path a b one other :=
    clear.disjoint path a b (same.takes_iff.mpr one) (same.takes_iff.mpr other)
  login := by rw [← same.audience_eq, ← same.login, clear.login]
  landing := by rw [← same.audience_eq, ← same.landing, clear.landing]

end SameRules

/-- Amendments that add the same rules in another order come to the same rules. -/
theorem sameRules_of_perm {amendments amendments' : List Amendment}
    (perm : (amendments.filterMap Amendment.rule?).Perm (amendments'.filterMap Amendment.rule?))
    (login : (amendments.foldl amend standard).loginPath =
      (amendments'.foldl amend standard).loginPath)
    (landing : (amendments.foldl amend standard).landingPath =
      (amendments'.foldl amend standard).landingPath) :
    SameRules (amendments.foldl amend standard) (amendments'.foldl amend standard) := by
  refine ⟨fun a rule => ?_, login, landing⟩
  have added : (Amendment.added a amendments).Perm (Amendment.added a amendments') :=
    (perm.filter _).map _
  rw [rulesOf_foldl_amend, rulesOf_foldl_amend, List.mem_append, List.mem_append, added.mem_iff]

theorem accepted_of_sameRules {amendments amendments' : List Amendment}
    (same : SameRules (amendments.foldl amend standard) (amendments'.foldl amend standard))
    (accepted : ∃ r, build amendments = .ok r) : ∃ r', build amendments' = .ok r' := by
  obtain ⟨r, built⟩ := accepted
  obtain ⟨rfl, clear⟩ := build_eq_ok_iff.mp built
  exact ⟨_, build_eq_ok_iff.mpr ⟨rfl, same.unambiguous clear⟩⟩

/-- Accepted amendments take nothing away from the standard rules, change the audience of no path
but those that the added rules of the new audience take, and may be made in any order. -/
theorem amended_extends_standard (amendments : List Amendment) :
    (∀ r, build amendments = .ok r → ∀ path,
      (standard.audience path ≠ .users → r.audience path = standard.audience path) ∧
      (r.audience path ≠ standard.audience path →
        standard.audience path = .users ∧
        ∃ rule ∈ Amendment.added (r.audience path) amendments,
          Matches (r.audience path) rule (Path.withoutQuery path))) ∧
    ∀ amendments',
      (amendments.filterMap Amendment.rule?).Perm (amendments'.filterMap Amendment.rule?) →
      (amendments.foldl amend standard).loginPath =
        (amendments'.foldl amend standard).loginPath →
      (amendments.foldl amend standard).landingPath =
        (amendments'.foldl amend standard).landingPath →
      ((∃ r, build amendments = .ok r) ↔ ∃ r', build amendments' = .ok r') ∧
        ∀ r r', build amendments = .ok r → build amendments' = .ok r' → ∀ path,
          r.audience path = r'.audience path ∧ ∀ s, r.decision path s = r'.decision path s := by
  constructor
  · intro r built path
    exact ⟨audience_of_standard built, added_of_audience_ne built⟩
  · intro amendments' perm login landing
    have same := sameRules_of_perm perm login landing
    refine ⟨⟨accepted_of_sameRules same, accepted_of_sameRules same.symm⟩, ?_⟩
    intro r r' built built' path
    obtain ⟨rfl, -⟩ := build_eq_ok_iff.mp built
    obtain ⟨rfl, -⟩ := build_eq_ok_iff.mp built'
    exact ⟨same.audience_eq path, same.decision_eq path⟩

/-- Rules in two orders, of which the second names the login page first. -/
theorem amended_extends_standard_reports :
    let amendments : List Amendment :=
      [.addAdmin "/reports", .addPublic "/about", .addSignedOut "/join", .setLogin "/join/now"]
    let amendments' : List Amendment :=
      [.setLogin "/join/now", .addSignedOut "/join", .addAdmin "/reports", .addPublic "/about"]
    let r := amendments.foldl amend standard
    let r' := amendments'.foldl amend standard
    build amendments = .ok r ∧ build amendments' = .ok r' ∧
      r.audience "/settings/admin/users" = standard.audience "/settings/admin/users" ∧
      standard.audience "/reports/q1?all" = .users ∧
      (∃ rule ∈ Amendment.added (r.audience "/reports/q1?all") amendments,
        Matches (r.audience "/reports/q1?all") rule (Path.withoutQuery "/reports/q1?all")) ∧
      ∀ s, r.decision "/reports/q1?all" s = r'.decision "/reports/q1?all" s := by
  intro amendments amendments' r r'
  have built : build amendments = .ok r := by decide +kernel
  have built' : build amendments' = .ok r' := by decide +kernel
  have family : standard.audience "/settings/admin/users" ≠ .users := by decide +kernel
  have differs : r.audience "/reports/q1?all" ≠ standard.audience "/reports/q1?all" := by
    decide +kernel
  obtain ⟨kept, reordered⟩ := amended_extends_standard amendments
  obtain ⟨users, rule⟩ := (kept r built "/reports/q1?all").2 differs
  have both := reordered amendments' (by decide +kernel) (by decide +kernel) (by decide +kernel)
  exact ⟨built, built', (kept r built _).1 family, users, rule,
    (both.2 r r' built built' "/reports/q1?all").2⟩

end Rules

/-! ## Areas of roots

A root stands for itself and all that lies below it. Where the root is written without a slash at
its end, that is what its family takes. Where it ends in a slash, the family takes the paths below
it only if the root without the slash falls to the family as well: a root is compared as it is
written, and what is below it has to go on with another slash. -/

namespace Path

def trimmed (root : String) : String := .ofList (root.toList.rdropWhile (· = '/'))

/-- The path is the root, or goes on with a slash behind the root. Slashes at the end of the root do
not count. -/
def InArea (root path : String) : Prop :=
  path = root ∨ ∃ text : String, path = trimmed root ++ "/" ++ text

theorem trimmed_eq_self {root : String} (plain : root.toList.getLast? ≠ some '/') :
    trimmed root = root := by
  have last : ∀ nonempty : root.toList ≠ [], ¬ decide (root.toList.getLast nonempty = '/') := by
    intro nonempty slash
    rw [List.getLast?_eq_getLast_of_ne_nil nonempty] at plain
    exact plain (congrArg some (of_decide_eq_true slash))
  rw [trimmed, List.rdropWhile_eq_self_iff.mpr last, String.ofList_toList]

theorem mem_of_mem_trimmed {root : String} {c : Char} (mem : c ∈ (trimmed root).toList) :
    c ∈ root.toList := by
  rw [trimmed, String.toList_ofList] at mem
  exact (List.rdropWhile_prefix _ _).subset mem

section

variable {root : String} (absolute : Absolute root)

include absolute

theorem bare_trimmed : bare (trimmed root).toList = (trimmed root).toList :=
  bare_eq_self (fun mem => absolute.2.1 (mem_of_mem_trimmed mem))
    (fun mem => absolute.2.2 (mem_of_mem_trimmed mem))

theorem bare_trimmed_append (text : String) :
    bare (trimmed root ++ "/" ++ text).toList =
      (trimmed root).toList ++ '/' :: bare text.toList := by
  have slash : bare ('/' :: text.toList) = '/' :: bare text.toList := by simp [bare]
  have chars : (trimmed root ++ "/" ++ text).toList =
      (trimmed root).toList ++ '/' :: text.toList := by simp
  rw [chars, ← slash, bare_append (bare_trimmed absolute)]

end

/-- A root that covers a path whose last segment is as long as the root, or longer, covers what stands
before that segment. -/
theorem Below.of_long_segment {root base segment : List Char}
    (below : Below root (base ++ '/' :: segment)) (flat : '/' ∉ segment)
    (long : root.length ≤ segment.length) : Below root base := by
  obtain ⟨rest, split, slash⟩ := below
  rcases List.append_eq_append_iff.mp split with ⟨added, rfl, tail⟩ | ⟨added, rfl, rfl⟩
  · cases added with
    | nil =>
        rw [List.append_nil]
        exact Below.refl base
    | cons c added =>
        obtain ⟨-, rfl⟩ : '/' = c ∧ segment = added ++ rest := by simpa using tail
        cases rest with
        | nil =>
            simp only [List.length_append, List.length_cons, List.length_nil] at long
            omega
        | cons d rest =>
            have : d = '/' := slash d rfl
            simp [this] at flat
  · refine ⟨added, rfl, fun c first => slash c ?_⟩
    cases added with
    | nil => simp at first
    | cons d added => exact first

end Path

namespace Rules

section

variable {r : Rules} {a : Audience} (roots : a = .signedOut ∨ a = .administrators)

include roots

theorem takes_iff_below {path : String} :
    r.Takes path a ↔ ∃ root ∈ r.rulesOf a, Path.Below root.toList path.toList := by
  rcases roots with rfl | rfl <;> rfl

theorem absolute_of_rulesOf (clear : r.Unambiguous) {root : String} (given : root ∈ r.rulesOf a) :
    Path.Absolute root := by
  rcases roots with rfl | rfl
  · exact absolute_of_signedOut clear.roots given
  · exact absolute_of_admin clear.roots given

theorem audience_eq_iff_below (clear : r.Unambiguous) {path : String} :
    r.audience path = a ↔
      ∃ root ∈ r.rulesOf a, Path.Below root.toList (Path.bare path.toList) := by
  have family : a ≠ .users := by rcases roots with rfl | rfl <;> decide
  rw [audience_eq_iff_takes clear family, takes_iff_below roots, Path.toList_withoutQuery]

variable (clear : r.Unambiguous) {root : String} (given : root ∈ r.rulesOf a)

include clear given

theorem audience_of_inArea (base : r.audience (Path.trimmed root) = a) {path : String}
    (area : Path.InArea root path) : r.audience path = a := by
  have absolute := absolute_of_rulesOf roots clear given
  rw [audience_eq_iff_below roots clear] at base ⊢
  rcases area with rfl | ⟨text, rfl⟩
  · rw [Path.bare_eq_self absolute.2.1 absolute.2.2]
    exact ⟨_, given, Path.Below.refl _⟩
  · obtain ⟨other, mem, below⟩ := base
    rw [Path.bare_trimmed absolute] at below
    rw [Path.bare_trimmed_append absolute]
    exact ⟨other, mem, below.trans ⟨'/' :: Path.bare text.toList, rfl, by simp⟩⟩

/-- If all that lies below a root falls to its family, so does the root without its slashes: no rule
takes just the paths below it. -/
theorem audience_trimmed (whole : ∀ path, Path.InArea root path → r.audience path = a) :
    r.audience (Path.trimmed root) = a := by
  have absolute := absolute_of_rulesOf roots clear given
  let size := ((r.rulesOf a).map (·.toList.length)).sum
  let segment := List.replicate size 'x'
  have inside := whole _ (.inr ⟨.ofList segment, rfl⟩)
  have bareSegment : Path.bare segment = segment :=
    Path.bare_eq_self (by simp [segment]) (by simp [segment])
  rw [audience_eq_iff_below roots clear] at inside ⊢
  obtain ⟨other, mem, below⟩ := inside
  rw [Path.bare_trimmed_append absolute, String.toList_ofList, bareSegment] at below
  have long : other.toList.length ≤ segment.length := by
    rw [List.length_replicate]
    exact List.single_le_sum (fun _ _ => Nat.zero_le _) _ (List.mem_map_of_mem mem)
  rw [Path.bare_trimmed absolute]
  exact ⟨other, mem, below.of_long_segment (by simp [segment]) long⟩

end

/-- All that lies below a root falls to its family exactly if the root without the slashes at its end
does, and so wherever it ends in no slash. A single path falls to the family exactly if it is a root
as it was written or goes on with a slash behind one, and then nobody else is let in. -/
theorem area_of_root (amendments : List Amendment) (r : Rules) (built : build amendments = .ok r)
    (a : Audience) (roots : a = .signedOut ∨ a = .administrators) (root : String)
    (given : root ∈ r.rulesOf a) :
    ((∀ path, Path.InArea root path → r.audience path = a) ↔
        r.audience (Path.trimmed root) = a) ∧
      (root.toList.getLast? ≠ some '/' → ∀ path, Path.InArea root path → r.audience path = a) ∧
      (∀ path, r.audience path = a ↔
        ∃ written ∈ r.rulesOf a, Path.Below written.toList (Path.bare path.toList)) ∧
      ∀ path, r.audience path = a → ∀ s, r.decision path s = .allow ↔ a.Admits s := by
  obtain ⟨-, clear⟩ := build_eq_ok_iff.mp built
  refine ⟨⟨audience_trimmed roots clear given, fun base path => ?_⟩, fun plain path area => ?_,
    fun path => audience_eq_iff_below roots clear, fun path falls s => ?_⟩
  · exact audience_of_inArea roots clear given base
  · have absolute := absolute_of_rulesOf roots clear given
    have base : r.audience (Path.trimmed root) = a := by
      rw [Path.trimmed_eq_self plain, audience_eq_iff_below roots clear,
        Path.bare_eq_self absolute.2.1 absolute.2.2]
      exact ⟨root, given, Path.Below.refl _⟩
    exact audience_of_inArea roots clear given base area
  · rw [decision_eq_allow_iff, falls]

/-- A root with a slash at its end beside the same root without it. -/
theorem area_of_root_twice :
    let amendments : List Amendment := [.addAdmin "/reports/", .addAdmin "/reports"]
    let r := amendments.foldl amend standard
    let s : Session := { user := some { id := ⟨"u1"⟩, username := "anna" } }
    build amendments = .ok r ∧ "/reports/" ∈ r.rulesOf .administrators ∧
      Path.InArea "/reports/" "/reports/q1?all" ∧
      r.audience "/reports/q1?all" = .administrators ∧ r.decision "/reports/q1?all" s ≠ .allow := by
  intro amendments r s
  have built : build amendments = .ok r := by decide +kernel
  have given : "/reports/" ∈ r.rulesOf .administrators := by decide +kernel
  have area : Path.InArea "/reports/" "/reports/q1?all" := .inr ⟨"q1?all", by decide +kernel⟩
  obtain ⟨whole, -, -, admitted⟩ :=
    area_of_root amendments r built .administrators (.inr rfl) "/reports/" given
  have falls := whole.mpr (by decide +kernel) "/reports/q1?all" area
  have kept : r.decision "/reports/q1?all" s ≠ .allow := by
    rw [Ne, admitted _ falls]
    decide
  exact ⟨built, given, area, falls, kept⟩

/-- A root that ends in a slash is accepted, and what lies below it is open to every user. A page for
signed-out callers below such a root is closed to them. -/
theorem area_open_behind_slash :
    let amendments : List Amendment := [.addAdmin "/reports/", .addSignedOut "/join/"]
    let r := amendments.foldl amend standard
    let s : Session := { user := some { id := ⟨"u1"⟩, username := "anna" } }
    build amendments = .ok r ∧ "/reports/" ∈ r.rulesOf .administrators ∧
      Path.InArea "/reports/" "/reports/q1" ∧ r.audience "/reports/q1" = .users ∧
      ¬ Audience.Admits .administrators s ∧ r.decision "/reports/q1" s = .allow ∧
      "/join/" ∈ r.rulesOf .signedOut ∧ Path.InArea "/join/" "/join/now" ∧
      r.audience "/join/now" = .users ∧ r.decision "/join/now" {} = .redirect "/login" := by
  intro amendments r s
  exact ⟨by decide +kernel, by decide +kernel, .inr ⟨"q1", by decide +kernel⟩, by decide +kernel,
    by decide, by decide +kernel, by decide +kernel, .inr ⟨"now", by decide +kernel⟩,
    by decide +kernel, by decide +kernel⟩

end Rules
end Gatehouse
