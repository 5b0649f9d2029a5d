import Gatehouse.Gate
import Gatehouse.Proofs.Metrics
import Gatehouse.Proofs.Rules.Amendments

/-! # Families of paths

A path is counted under the longest of the families that cover it, although the first of them is
taken: no family stands behind one that it lies below. So a path lies below a family just as its
endpoint does, and the endpoint alone tells whom the path is for under the standard rules and whether
it belongs to the settings. -/

namespace Gatehouse.Metrics

/-- What a path without a query is counted under: the longest family that covers it, or `/other` if
there is none. Only the root of all pages is counted as itself. -/
inductive FamilyOf (path : String) : String → Prop where
  | root (whole : path = "/") : FamilyOf path "/"
  | longest {family : String} (listed : family ∈ endpointFamilies)
    (covers : Path.Below family.toList path.toList)
    (longest : ∀ other ∈ endpointFamilies, Path.Below other.toList path.toList →
      other.length ≤ family.length) : FamilyOf path family
  | other (notRoot : path ≠ "/")
    (uncovered : ∀ family ∈ endpointFamilies, ¬ Path.Below family.toList path.toList) :
    FamilyOf path "/other"

/-! ## The first family that covers a path -/

/-- Where no root stands behind one that covers it, the first root that covers a path lies below all
the others that do. -/
theorem below_of_find? {roots : List String}
    (ordered : roots.Pairwise fun outer inner => Path.isWithin outer inner = false)
    {path first other : String} (found : roots.find? (Path.isWithin · path) = some first)
    (listed : other ∈ roots) (covers : Path.Below other.toList path.toList) :
    Path.Below other.toList first.toList := by
  obtain ⟨within, before, after, rfl, missed⟩ := List.find?_eq_some_iff_append.mp found
  rcases List.mem_append.mp listed with earlier | here
  · have uncovered := missed other earlier
    rw [Path.isWithin_iff_below.mpr covers] at uncovered
    cases uncovered
  rcases List.mem_cons.mp here with rfl | later
  · exact Path.Below.refl _
  · rcases covers.total (Path.isWithin_iff_below.mp within) with below | above
    · exact below
    · have apart := (List.pairwise_cons.mp (List.pairwise_append.mp ordered).2.1).1 other later
      rw [Path.isWithin_iff_below.mpr above] at apart
      cases apart

theorem endpointFamilies_ordered :
    endpointFamilies.Pairwise fun outer inner => Path.isWithin outer inner = false := by
  decide +kernel

theorem familyOf_endpoint (path : String) :
    FamilyOf (Path.withoutQuery path) (endpoint path) := by
  unfold endpoint
  dsimp only
  split
  · next whole => exact .root whole
  · next notRoot =>
    cases found : endpointFamilies.find? (Path.isWithin · (Path.withoutQuery path)) with
    | none =>
        refine .other notRoot fun family listed covers => ?_
        exact List.find?_eq_none.mp found family listed (Path.isWithin_iff_below.mpr covers)
    | some family =>
        have covers := Path.isWithin_iff_below.mp (List.find?_some (p := (Path.isWithin · _)) found)
        rw [Option.getD_some]
        refine .longest (List.mem_of_find?_eq_some found) covers fun other listed covers => ?_
        have below := below_of_find? endpointFamilies_ordered found listed covers
        simpa only [String.length_toList] using below.length_le

theorem not_below_of_outside {family label : String} (listed : family ∈ endpointFamilies)
    (outside : label = "/" ∨ label = "/other") : ¬ Path.Below family.toList label.toList := by
  have none : ∀ family ∈ endpointFamilies, ∀ label ∈ ["/", "/other"],
      Path.isWithin family label = false := by decide +kernel
  have apart := none family listed label (by simpa using outside)
  intro below
  rw [Path.isWithin_iff_below.mpr below] at apart
  cases apart

theorem below_endpoint_iff {family : String} (listed : family ∈ endpointFamilies) (path : String) :
    Path.Below family.toList (endpoint path).toList ↔
      Path.Below family.toList (Path.bare path.toList) := by
  have label := familyOf_endpoint path
  rw [← Path.toList_withoutQuery]
  generalize endpoint path = counted at label ⊢
  cases label with
  | root whole => rw [whole]
  | longest _ covers longest =>
      constructor
      · exact fun below => below.trans covers
      · intro below
        have le := longest family listed below
        simp only [← String.length_toList] at le
        exact below.of_longer covers le
  | other _ uncovered =>
      exact iff_of_false (not_below_of_outside listed (.inr rfl)) (uncovered family listed)

theorem FamilyOf.unique {path label other : String} (here : FamilyOf path label)
    (there : FamilyOf path other) : label = other := by
  cases here with
  | root whole =>
      subst whole
      cases there with
      | root => rfl
      | longest listed covers => exact absurd covers (not_below_of_outside listed (.inl rfl))
      | other notRoot => exact absurd rfl notRoot
  | longest listed covers longest =>
      cases there with
      | root whole =>
          subst whole
          exact absurd covers (not_below_of_outside listed (.inl rfl))
      | longest listed' covers' longest' =>
          have le := longest' _ listed covers
          have ge := longest _ listed' covers'
          simp only [← String.length_toList] at le ge
          have below := covers.of_longer covers' le
          exact String.toList_inj.mp (below.eq_of_length_le ge)
      | other _ uncovered => exact absurd covers (uncovered _ listed)
  | other notRoot uncovered =>
      cases there with
      | root whole => exact absurd whole notRoot
      | longest listed covers => exact absurd covers (uncovered _ listed)
      | other => rfl

theorem endpoint_eq_iff {path label : String} :
    endpoint path = label ↔ FamilyOf (Path.withoutQuery path) label := by
  constructor
  · rintro rfl
    exact familyOf_endpoint path
  · exact (familyOf_endpoint path).unique

/-! ## Audiences and the settings -/

theorem endpoint_mem_iff (family : String) (labels : List String)
    (listed : family ∈ endpointFamilies)
    (inside : ∀ label ∈ endpoints, Path.isWithin family label = true ↔ label ∈ labels)
    (path : String) :
    endpoint path ∈ labels ↔ Path.Below family.toList (Path.bare path.toList) := by
  rw [← below_endpoint_iff listed, ← Path.isWithin_iff_below, inside _ (endpoint_mem path)]

theorem endpoint_eq_administration_iff (path : String) :
    endpoint path = "/settings/admin" ↔ Rules.standard.audience path = .administrators := by
  have counted := endpoint_mem_iff "/settings/admin" ["/settings/admin"] (by decide)
    (by decide +kernel) path
  rw [← List.mem_singleton, counted,
    Rules.audience_eq_iff_below (.inr rfl) Rules.standard_unambiguous]
  simp [Rules.rulesOf, Rules.standard]

theorem endpoint_mem_signedOut_iff (path : String) :
    endpoint path ∈ ["/login", "/lc"] ↔ Rules.standard.audience path = .signedOut := by
  have login := endpoint_mem_iff "/login" ["/login"] (by decide) (by decide +kernel) path
  have code := endpoint_mem_iff "/lc" ["/lc"] (by decide) (by decide +kernel) path
  have either : endpoint path ∈ ["/login", "/lc"] ↔
      endpoint path ∈ ["/login"] ∨ endpoint path ∈ ["/lc"] := by simp
  rw [either, login, code, Rules.audience_eq_iff_below (.inl rfl) Rules.standard_unambiguous]
  simp [Rules.rulesOf, Rules.standard]

theorem endpoint_withoutQuery (path : String) :
    endpoint (Path.withoutQuery path) = endpoint path := by
  simp only [endpoint, Path.withoutQuery_withoutQuery]

theorem endpoint_of_everyone {path : String}
    (everyone : Rules.standard.audience path = .everyone) :
    endpoint path = Path.withoutQuery path := by
  have families : ∀ path ∈ Rules.standard.publicPaths, path ∈ endpoints := by decide
  have family : Audience.everyone ≠ .users := by decide
  have taken := (Rules.audience_eq_iff_takes Rules.standard_unambiguous family).mp everyone
  rw [← endpoint_withoutQuery]
  exact endpoint_of_mem (families _ taken)

theorem isSettings_iff_endpoint {path : String} (query : '?' ∉ path.toList)
    (fragment : '#' ∉ path.toList) :
    Page.isSettings path = true ↔ endpoint path ∈ ["/settings", "/settings/admin"] := by
  have counted := endpoint_mem_iff "/settings" ["/settings", "/settings/admin"] (by decide)
    (by decide +kernel) path
  rw [counted, Path.bare_eq_self query fragment]
  exact Path.isWithin_iff_below

/-- Under the standard rules the endpoint of a path tells whom the path is for, as far as it is for
administrators or for callers that are signed out, and is the path itself where that is public. It is
always the longest family that covers the path. Where there is no query, it tells the settings apart
as the page does. -/
theorem path_tests_agree (path : String) :
    (endpoint path = "/settings/admin" ↔ Rules.standard.audience path = .administrators) ∧
      (endpoint path ∈ ["/login", "/lc"] ↔ Rules.standard.audience path = .signedOut) ∧
      (Rules.standard.audience path = .everyone → endpoint path = Path.withoutQuery path) ∧
      (∀ label, endpoint path = label ↔ FamilyOf (Path.withoutQuery path) label) ∧
      ('?' ∉ path.toList → '#' ∉ path.toList →
        (Page.isSettings path = true ↔ endpoint path ∈ ["/settings", "/settings/admin"])) :=
  ⟨endpoint_eq_administration_iff path, endpoint_mem_signedOut_iff path, endpoint_of_everyone,
    fun _ => endpoint_eq_iff, isSettings_iff_endpoint⟩

/-- A public path with a query, and a page of the settings with two slashes in its path. -/
theorem path_tests_agree_device :
    Rules.standard.audience "/device?next=/login" = .everyone ∧
      endpoint "/device?next=/login" = "/device" ∧
      Page.isSettings "/settings//admin" = true ∧
      endpoint "/settings//admin" ∈ ["/settings", "/settings/admin"] := by
  have everyone : Rules.standard.audience "/device?next=/login" = .everyone := by decide +kernel
  obtain ⟨-, -, counted, -, -⟩ := path_tests_agree "/device?next=/login"
  obtain ⟨-, -, -, -, settings⟩ := path_tests_agree "/settings//admin"
  have shown : Page.isSettings "/settings//admin" = true := by decide +kernel
  have bare : Path.withoutQuery "/device?next=/login" = "/device" := by decide +kernel
  exact ⟨everyone, (counted everyone).trans bare, shown,
    (settings (by decide +kernel) (by decide +kernel)).mp shown⟩

end Gatehouse.Metrics
