import Gatehouse.Metrics
import Gatehouse.Rules
import Mathlib.Data.List.TakeWhile

/-! # Roots and the paths they cover

A root covers a path exactly when the path is the root or goes on with `/` behind it, and that is when
the segments of the root are the first ones of the path. -/

/-! ## Laws of covering

Covering is reflexive and transitive, and of two roots that cover one path one covers the other: to
compare the roots with each other is to compare them on all paths. -/

namespace Gatehouse.Path

/-- The path is the root, or goes on with `/` behind it. -/
def Below (root path : List Char) : Prop :=
  ∃ rest, path = root ++ rest ∧ ∀ c ∈ rest.head?, c = '/'

theorem covers_iff_below {root path : List Char} : covers root path = true ↔ Below root path := by
  induction root generalizing path with
  | nil =>
      cases path with
      | nil => simp [covers, Below]
      | cons c path => simp [covers, Below]
  | cons r root ih =>
      cases path with
      | nil => simp [covers, Below]
      | cons c path =>
          simp only [covers, Bool.and_eq_true, decide_eq_true_eq, ih, Below, List.cons_append,
            List.cons.injEq]
          constructor
          · rintro ⟨same, rest, split, slash⟩
            exact ⟨rest, ⟨same.symm, split⟩, slash⟩
          · rintro ⟨rest, ⟨same, split⟩, slash⟩
            exact ⟨same.symm, rest, split, slash⟩

theorem isWithin_iff_below {root path : String} :
    isWithin root path = true ↔ Below root.toList path.toList := covers_iff_below

theorem Below.refl (root : List Char) : Below root root := ⟨[], by simp, by simp⟩

theorem Below.trans {outer root path : List Char} (h₁ : Below outer root) (h₂ : Below root path) :
    Below outer path := by
  obtain ⟨rest₁, rfl, slash₁⟩ := h₁
  obtain ⟨rest₂, rfl, slash₂⟩ := h₂
  refine ⟨rest₁ ++ rest₂, List.append_assoc .., ?_⟩
  cases rest₁ with
  | nil => exact slash₂
  | cons c rest₁ => exact slash₁

theorem Below.length_le {root path : List Char} (below : Below root path) :
    root.length ≤ path.length := by
  obtain ⟨rest, rfl, -⟩ := below
  rw [List.length_append]
  exact Nat.le_add_right _ _

theorem Below.eq_of_length_le {root path : List Char} (below : Below root path)
    (le : path.length ≤ root.length) : root = path := by
  obtain ⟨rest, rfl, -⟩ := below
  have nothing : rest = [] := by
    rw [List.length_append] at le
    exact List.eq_nil_of_length_eq_zero (by omega)
  rw [nothing, List.append_nil]

/-- The shorter of two roots of one path covers the longer one. -/
theorem Below.of_longer {short long path : List Char} (hs : Below short path)
    (hl : Below long path) (le : short.length ≤ long.length) : Below short long := by
  obtain ⟨rest, rfl, slash⟩ := hs
  obtain ⟨tail, split, -⟩ := hl
  obtain ⟨added, rfl⟩ : short <+: long :=
    List.prefix_of_prefix_length_le (List.prefix_append short rest)
      (split ▸ List.prefix_append long tail) le
  refine ⟨added, rfl, fun c first => slash c ?_⟩
  rw [List.append_assoc, List.append_cancel_left_eq] at split
  rw [split]
  cases added with
  | nil => simp at first
  | cons a added => exact first

theorem Below.total {a b path : List Char} (ha : Below a path) (hb : Below b path) :
    Below a b ∨ Below b a :=
  (Nat.le_total a.length b.length).imp (ha.of_longer hb) (hb.of_longer ha)

/-! ### Queries -/

theorem bare_eq_self {path : List Char} (query : '?' ∉ path) (fragment : '#' ∉ path) :
    bare path = path := by
  refine List.takeWhile_eq_self_iff.mpr fun c mem => ?_
  have noQuery : c ≠ '?' := fun h => query (h ▸ mem)
  have noFragment : c ≠ '#' := fun h => fragment (h ▸ mem)
  simp [noQuery, noFragment]

theorem bare_append {front : List Char} (plain : bare front = front) (back : List Char) :
    bare (front ++ back) = front ++ bare back :=
  List.takeWhile_append_of_pos (List.takeWhile_eq_self_iff.mp plain)

theorem bare_bare (path : List Char) : bare (bare path) = bare path := List.takeWhile_idem

theorem Below.of_bare_root {root path : List Char} (plain : bare root = root)
    (below : Below root path) : Below root (bare path) := by
  obtain ⟨rest, rfl, slash⟩ := below
  refine ⟨bare rest, bare_append plain rest, ?_⟩
  cases rest with
  | nil => simp [bare]
  | cons c rest =>
      obtain rfl : c = '/' := slash c rfl
      simp [bare]

theorem toList_withoutQuery (path : String) : (withoutQuery path).toList = bare path.toList :=
  String.toList_ofList

theorem withoutQuery_withoutQuery (path : String) :
    withoutQuery (withoutQuery path) = withoutQuery path := by
  simp only [withoutQuery, String.toList_ofList, bare_bare]

theorem withoutQuery_eq_self {path : String} (query : '?' ∉ path.toList)
    (fragment : '#' ∉ path.toList) : withoutQuery path = path := by
  rw [withoutQuery, bare_eq_self query fragment, String.ofList_toList]

end Gatehouse.Path

/-! ## Covering by segments

The segments of a path are what its slashes separate, empty ones included. A root covers a path
exactly when its segments are the first ones of the path, so covering is ordered as lists are by what
they begin with. A query or fragment behind a path is never looked at, whatever it holds. -/

namespace Gatehouse

namespace Path

/-- What stands between the slashes, before the first of them and behind the last. -/
def segments (path : String) : List (List Char) := path.toList.splitOn '/'

theorem intercalate_append_cons {separator : Char} {front : List (List Char)} (nonempty : front ≠ [])
    (next : List Char) (back : List (List Char)) :
    [separator].intercalate (front ++ next :: back) =
      [separator].intercalate front ++ separator :: [separator].intercalate (next :: back) := by
  induction front with
  | nil => exact absurd rfl nonempty
  | cons first front ih =>
      have more : front ++ next :: back ≠ [] := by simp
      rw [List.cons_append, List.intercalate_cons_of_ne_nil more]
      cases front with
      | nil => simp
      | cons second front =>
          rw [ih (List.cons_ne_nil _ _), List.intercalate_cons_of_ne_nil (List.cons_ne_nil _ _)]
          simp only [List.append_assoc]

theorem below_iff_splitOn_prefix {root path : List Char} :
    Below root path ↔ root.splitOn '/' <+: path.splitOn '/' := by
  constructor
  · rintro ⟨rest, rfl, slash⟩
    cases rest with
    | nil => simp
    | cons c rest =>
        obtain rfl : c = '/' := slash c rfl
        rw [List.splitOn_append_cons_self]
        exact List.prefix_append _ _
  · rintro ⟨more, split⟩
    have whole := congrArg ['/'].intercalate split
    rw [List.intercalate_splitOn] at whole
    cases more with
    | nil =>
        rw [List.append_nil, List.intercalate_splitOn] at whole
        exact ⟨[], by rw [List.append_nil, whole], nofun⟩
    | cons next more =>
        rw [intercalate_append_cons (List.splitOn_ne_nil _ _), List.intercalate_splitOn] at whole
        refine ⟨_, whole.symm, ?_⟩
        rintro c ⟨⟩
        rfl

theorem isWithin_iff_segments {root path : String} :
    isWithin root path = true ↔ segments root <+: segments path :=
  isWithin_iff_below.trans below_iff_splitOn_prefix

/-! ### Queries -/

theorem bare_append_mark {mark : Char} (cuts : mark = '?' ∨ mark = '#') (path text : List Char) :
    bare (path ++ mark :: text) = bare path := by
  induction path with
  | nil => rcases cuts with rfl | rfl <;> rfl
  | cons c path ih =>
      simp only [bare, List.cons_append, List.takeWhile_cons] at ih ⊢
      rw [ih]

theorem withoutQuery_append {mark : String} (cuts : mark ∈ ["?", "#"]) (path text : String) :
    withoutQuery (path ++ mark ++ text) = withoutQuery path := by
  obtain ⟨c, cut, single⟩ : ∃ c, (c = '?' ∨ c = '#') ∧ mark.toList = [c] := by
    simp only [List.mem_cons, List.not_mem_nil, or_false] at cuts
    rcases cuts with rfl | rfl
    · exact ⟨'?', .inl rfl, rfl⟩
    · exact ⟨'#', .inr rfl, rfl⟩
  rw [withoutQuery, withoutQuery, String.toList_append, String.toList_append, single,
    List.append_assoc]
  exact congrArg String.ofList (bare_append_mark cut _ _)

end Path

theorem Rules.audience_congr {path path' : String}
    (same : Path.withoutQuery path = Path.withoutQuery path') (r : Rules) :
    r.audience path = r.audience path' := by
  simp only [audience, same]

theorem Metrics.endpoint_congr {path path' : String}
    (same : Path.withoutQuery path = Path.withoutQuery path') : endpoint path = endpoint path' := by
  simp only [endpoint, same]

/-- A root covers just those paths whose segments begin with its own. So every root covers itself and
all that is covered by what it covers, and of two roots of one path one covers the other. Neither
whom a path is for, nor the decision, nor the endpoint depends on a query or fragment. -/
theorem Path.covering_by_segments :
    (∀ root path, isWithin root path = true ↔ segments root <+: segments path) ∧
      (∀ root, isWithin root root = true) ∧
      (∀ outer root path, isWithin outer root = true → isWithin root path = true →
        isWithin outer path = true) ∧
      (∀ one other path, isWithin one path = true → isWithin other path = true →
        isWithin one other = true ∨ isWithin other one = true) ∧
      ∀ path text, ∀ mark ∈ ["?", "#"],
        (∀ r : Rules, r.audience (path ++ mark ++ text) = r.audience path ∧
          ∀ s, r.decision (path ++ mark ++ text) s = r.decision path s) ∧
        Metrics.endpoint (path ++ mark ++ text) = Metrics.endpoint path := by
  refine ⟨fun root path => isWithin_iff_segments, ?_, ?_, ?_, ?_⟩
  · intro root
    exact isWithin_iff_segments.mpr List.prefix_rfl
  · simp only [isWithin_iff_segments]
    exact fun outer root path => List.IsPrefix.trans
  · simp only [isWithin_iff_segments]
    exact fun one other path => List.prefix_or_prefix_of_prefix
  · intro path text mark cuts
    have same := withoutQuery_append cuts path text
    have audience := Rules.audience_congr same
    refine ⟨fun r => ⟨audience r, fun s => ?_⟩, Metrics.endpoint_congr same⟩
    rw [Rules.decision, audience, Rules.decision]

/-- Roots with slashes at their end, of which only the shorter one covers a page, and a query that
holds another path and a fragment. -/
theorem Path.covering_by_segments_slashes :
    isWithin "/a" "/a/" = true ∧ isWithin "/a/" "/a//b" = true ∧ isWithin "/a/" "/a/b" = false ∧
      segments "/a//b" = [[], ['a'], [], ['b']] ∧ isWithin "/a" "/a//b" = true ∧
      (isWithin "/a" "/a/" = true ∨ isWithin "/a/" "/a" = true) ∧
      Rules.standard.audience "/login?next=/settings/admin#top" = .signedOut := by
  obtain ⟨-, -, trans, total, queries⟩ := covering_by_segments
  have outer : isWithin "/a" "/a/" = true := by decide +kernel
  have inner : isWithin "/a/" "/a//b" = true := by decide +kernel
  have whole := trans _ _ _ outer inner
  have query := ((queries "/login" "next=/settings/admin#top" "?" (by decide)).1 .standard).1
  have login : Rules.standard.audience "/login" = .signedOut := by decide +kernel
  exact ⟨outer, inner, by decide +kernel, by decide +kernel, whole, total _ _ _ whole inner,
    query.trans login⟩

end Gatehouse
