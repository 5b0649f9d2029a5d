import Gatehouse.AppConfig
import Gatehouse.Gate
import Gatehouse.Proofs.AppConfig.Value
import Gatehouse.Proofs.Decimal.Shortest
import Gatehouse.Proofs.Decimal.Unsigned
import Gatehouse.Proofs.Json.Members
import Gatehouse.Proofs.Json.RoundTrip
import Gatehouse.Proofs.Text
import Gatehouse.Proofs.WireFormats
import Mathlib.Data.Finset.Card
import Mathlib.Data.List.Sort

/-! # Tables as maps

A table is told by what it holds under each key. What the table of a list of entries holds under a key
is told by the last entry that has the key, so that lists make the same table if they agree on the
order of the entries of every single key. -/

namespace Gatehouse.AppConfig

theorem lookup_row (k : String) (v : Value) (rows : List (String × Value)) (key : String) :
    ((k, v) :: rows).lookup key = if key = k then some v else rows.lookup key := by
  by_cases same : key = k
  · simp [same]
  · simp [List.lookup_cons, beq_eq_false_iff_ne.mpr same, same]

theorem lookup_put (key : String) (value : Value) (rows : List (String × Value)) (other : String) :
    (put key value rows).lookup other = if other = key then some value else rows.lookup other := by
  induction rows with
  | nil => simp [put, lookup_row]
  | cons first rest ih =>
      obtain ⟨k, v⟩ := first
      unfold put
      split
      · rw [lookup_row]
      split
      · next here =>
        subst here
        rw [lookup_row, lookup_row]
        split <;> rfl
      · next apart =>
        rw [lookup_row, ih, lookup_row]
        by_cases same : other = k
        · subst same
          rw [if_pos rfl, if_neg (Ne.symm apart), if_pos rfl]
        · rw [if_neg same, if_neg same]

theorem Value.spelled_toJson (v : Value) : Json.Spelled v.toJson := by
  cases v with
  | bool b => exact .bool b
  | number x =>
      cases text : x.text? with
      | none =>
          simp only [toJson, text, Option.elim_none]
          exact .null
      | some cs =>
          simp only [toJson, text, Option.elim_some]
          exact .number (Json.isNumber_iff.mpr (Decimal.Double.isNumeral_of_text? text))
  | text s => exact .string (some s)

namespace Table

variable {t : Table} {key : String} {value : Value}

/-! ## Lookups -/

theorem get?_insert (t : Table) (key : String) (value : Value) (other : String) :
    (t.insert key value).get? other = if other = key then some value else t.get? other :=
  lookup_put key value t.rows other

def keys (t : Table) : List String := t.rows.map (·.1)

theorem keys_ascending (t : Table) : t.keys.Pairwise (· < ·) :=
  List.pairwise_map.mpr t.ascending

theorem nodup_keys (t : Table) : t.keys.Nodup := by
  refine t.keys_ascending.imp fun less same => ?_
  subst same
  exact Std.lt_irrefl less

theorem get?_eq_some_iff : t.get? key = some value ↔ (key, value) ∈ t.rows := by
  rw [get?, List.lookup_eq_some_iff]
  constructor
  · rintro ⟨before, after, rows, -⟩
    simp [rows]
  · intro mem
    obtain ⟨before, after, rows⟩ := List.mem_iff_append.mp mem
    refine ⟨before, after, rows, fun row earlier => ?_⟩
    have sorted := t.ascending
    rw [rows] at sorted
    have less := (List.pairwise_append.mp sorted).2.2 row earlier (key, value) List.mem_cons_self
    refine bne_iff_ne.mpr fun same => ?_
    subst same
    exact Std.lt_irrefl less

theorem mem_keys_iff : key ∈ t.keys ↔ (t.get? key).isSome = true := by
  simp only [keys, List.mem_map, Option.isSome_iff_exists, get?_eq_some_iff]
  constructor
  · rintro ⟨⟨_, value⟩, mem, rfl⟩
    exact ⟨value, mem⟩
  · rintro ⟨value, mem⟩
    exact ⟨_, mem, rfl⟩

theorem ext_get? {t u : Table} (same : ∀ key, t.get? key = u.get? key) : t = u := by
  have antisymm : Std.Antisymm fun a b : String × Value => a.1 < b.1 :=
    ⟨fun _ _ less greater => absurd (Std.lt_trans less greater) Std.lt_irrefl⟩
  have irrefl : Std.Irrefl fun a b : String × Value => a.1 < b.1 := ⟨fun _ => Std.lt_irrefl⟩
  have rows : t.rows = u.rows := by
    refine t.ascending.eq_of_mem_iff u.ascending fun row => ?_
    rw [← get?_eq_some_iff, ← get?_eq_some_iff, same]
  cases t
  cases u
  simp only at rows
  subst rows
  rfl

/-! ## Entries -/

theorem ofEntries_concat (entries : List Entry) (e : Entry) :
    ofEntries (entries ++ [e]) = (ofEntries entries).insert e.key (.infer e.value) :=
  List.foldl_concat ..

def last? (entries : List Entry) (key : String) : Option Entry :=
  (entries.filter (·.key = key)).getLast?

theorem last?_append (entries later : List Entry) (key : String) :
    last? (entries ++ later) key = (last? later key).or (last? entries key) := by
  rw [last?, List.filter_append, List.getLast?_append]
  rfl

theorem isSome_last?_iff {entries : List Entry} :
    (last? entries key).isSome = true ↔ key ∈ entries.map (·.key) := by
  simp [last?]

/-- What a table holds under a key is told by the last entry with the key. -/
theorem get?_ofEntries (entries : List Entry) (key : String) :
    (ofEntries entries).get? key = (last? entries key).map fun e => .infer e.value := by
  induction entries using List.reverseRecOn with
  | nil => rfl
  | append_singleton entries e ih =>
      rw [ofEntries_concat, get?_insert, ih, last?_append]
      by_cases here : e.key = key
      · simp [last?, here]
      · simp [last?, here, Ne.symm here]

theorem mem_keys_ofEntries_iff {entries : List Entry} :
    key ∈ (ofEntries entries).keys ↔ key ∈ entries.map (·.key) := by
  rw [mem_keys_iff, get?_ofEntries, Option.isSome_map, isSome_last?_iff]

theorem size_ofEntries (entries : List Entry) :
    (ofEntries entries).size = (entries.map (·.key)).toFinset.card := by
  have same : (ofEntries entries).keys.toFinset = (entries.map (·.key)).toFinset := by
    ext key
    rw [List.mem_toFinset, List.mem_toFinset, mem_keys_ofEntries_iff]
  rw [← same, List.toFinset_card_of_nodup (nodup_keys _), keys, List.length_map, size]

theorem get?_ofEntries_append (entries later : List Entry) (key : String) :
    (ofEntries (entries ++ later)).get? key =
      ((ofEntries later).get? key).or ((ofEntries entries).get? key) := by
  rw [get?_ofEntries, get?_ofEntries, get?_ofEntries, last?_append, Option.map_or]

theorem ofEntries_congr {entries other : List Entry}
    (same : ∀ key, other.filter (·.key = key) = entries.filter (·.key = key)) :
    ofEntries other = ofEntries entries := by
  refine ext_get? fun key => ?_
  rw [get?_ofEntries, get?_ofEntries, last?, same]
  rfl

/-! ## Access by type -/

def typed (t : Table) (key : String) : List Bool :=
  [(t.bool? key).isSome, (t.number? key).isSome, (t.text? key).isSome]

theorem count_typed (t : Table) (key : String) :
    (t.typed key).count true = if key ∈ t.keys then 1 else 0 := by
  have present : key ∈ t.keys ↔ _ := mem_keys_iff
  rw [typed, bool?, number?, text?]
  cases held : t.get? key with
  | none =>
      have absent : key ∉ t.keys := by simp [present, held]
      rw [if_neg absent]
      rfl
  | some value =>
      have here : key ∈ t.keys := by simp [present, held]
      rw [if_pos here]
      cases value <;> rfl

/-! ## JSON -/

def members (t : Table) : List (Json.Literal × Json) :=
  t.rows.map fun row => Json.field row.1 row.2.toJson

theorem spelled_toJson (t : Table) : Json.Spelled t.toJson := by
  refine .object fun m mem => ?_
  obtain ⟨row, -, rfl⟩ := List.mem_map.mp mem
  exact row.2.spelled_toJson

theorem read?_compact_toJson (t : Table) : Json.read? t.toJson.compact = some (.object t.members) :=
  Json.read?_compact t.spelled_toJson

theorem members_names (t : Table) : t.members.map (·.1) = t.keys.map some := by
  rw [members, keys, List.map_map, List.map_map]
  rfl

/-! ## Main result -/

/-- Whatever the entries are, the table of them holds under each of their keys, and under no other,
what the last entry with the key is read as, and so has as many rows as there are keys. Its JSON has
one member for each key, in the order of the keys' bytes. Appended entries are laid over those before
them, and only the order of entries with one key matters. Each key has a value of just one type. -/
theorem ofEntries_last_wins (entries : List Entry) :
    (∀ key, (ofEntries entries).get? key =
      (entries.filter (·.key = key)).getLast?.map fun e => .infer e.value) ∧
    (∀ key, key ∈ (ofEntries entries).keys ↔ key ∈ entries.map (·.key)) ∧
    (ofEntries entries).size = (entries.map (·.key)).toFinset.card ∧
    (∃ members, Json.read? (ofEntries entries).toJson.compact = some (.object members) ∧
      members.map (·.1) = (ofEntries entries).keys.map some) ∧
    ((ofEntries entries).keys.Pairwise fun k l => k.toUTF8.toList < l.toUTF8.toList) ∧
    (∀ later key, (ofEntries (entries ++ later)).get? key =
      ((ofEntries later).get? key).or ((ofEntries entries).get? key)) ∧
    (∀ other, (∀ key, other.filter (·.key = key) = entries.filter (·.key = key)) →
      ofEntries other = ofEntries entries ∧
        (ofEntries other).toJson.compact = (ofEntries entries).toJson.compact) ∧
    ∀ key, ((ofEntries entries).typed key).count true =
      if key ∈ entries.map (·.key) then 1 else 0 := by
  refine ⟨get?_ofEntries entries, fun _ => mem_keys_ofEntries_iff, size_ofEntries entries,
    ⟨_, read?_compact_toJson _, members_names _⟩, ?_, get?_ofEntries_append entries,
    fun other same => ?_, fun key => ?_⟩
  · exact (keys_ascending _).imp Text.lt_iff_toUTF8_lt.mp
  · rw [ofEntries_congr same]
    exact ⟨rfl, rfl⟩
  · rw [count_typed]
    simp only [mem_keys_ofEntries_iff]

/-- Two entries with one key, and a third one that stands between them or before both. -/
theorem ofEntries_last_wins_moved :
    ofEntries [⟨"b", "boolean", "true"⟩, ⟨"a", "number", "1"⟩, ⟨"a", "string", "x"⟩] =
        ofEntries [⟨"a", "number", "1"⟩, ⟨"b", "boolean", "true"⟩, ⟨"a", "string", "x"⟩] ∧
      (ofEntries [⟨"a", "number", "1"⟩, ⟨"b", "boolean", "true"⟩, ⟨"a", "string", "x"⟩]).get? "a" =
        some (.text "x") := by
  have wins := ofEntries_last_wins
    [⟨"a", "number", "1"⟩, ⟨"b", "boolean", "true"⟩, ⟨"a", "string", "x"⟩]
  obtain ⟨held, -, -, -, -, -, moved, -⟩ := wins
  refine ⟨(moved _ fun key => ?_).1, (held "a").trans (by decide)⟩
  by_cases first : "a" = key
  · subst first
    decide
  · by_cases second : "b" = key
    · subst second
      decide
    · simp [first, second]

end Table
end Gatehouse.AppConfig

/-! ## The configuration as it is shown

A page shows the table as an object with one member for each key. What stands there is a boolean, a
number or a text, unless the last text under the key is a plain number beyond the range of
double-precision numbers. Such a number is read as an infinity, which JSON has no spelling for. -/

namespace Gatehouse

open Json (Stands)

theorem Json.stands_membersOf {fields : List (String × Option Json)} {name : String} {value : Json}
    (once : (fields.map (·.1)).Nodup) (mem : (name, some value) ∈ fields) :
    Stands name (membersOf fields) (some value) :=
  valuesOf_eq_singleton_iff.mp (valuesOf_membersOf once mem)

namespace AppConfig

variable {raw key : String} {cs whole fraction : List Char}

/-! ### Numbers beyond the range -/

/-- A plain number of at least the size that is rounded to an infinity, whatever its sign. -/
def IsBeyond (cs : List Char) : Prop :=
  ∃ whole fraction, Plain cs whole fraction ∧
    Decimal.overflowBound * 10 ^ fraction.length ≤ Decimal.placeValue (whole ++ fraction)

theorem Plain.isFinite_iff {x : Decimal.Double} (plain : Plain cs whole fraction)
    (read : Decimal.Double.ofText? cs = some x) :
    x.isFinite = true ↔
      Decimal.placeValue (whole ++ fraction) < Decimal.overflowBound * 10 ^ fraction.length := by
  obtain ⟨negative, spelled⟩ := plain.ofText?
  obtain rfl := Option.some.inj (read.symm.trans spelled)
  rw [magnitudeOf, Decimal.Double.isFinite_ofMagnitude_iff (Decimal.tenPow_pos _),
    Decimal.ofDigitChars_eq_placeValue]
  rfl

theorem isFinite_iff_not_isBeyond {x : Decimal.Double} (plain : IsPlain cs)
    (read : Decimal.Double.ofText? cs = some x) : x.isFinite = true ↔ ¬ IsBeyond cs := by
  constructor
  · rintro finite ⟨whole, fraction, split, beyond⟩
    exact absurd ((split.isFinite_iff read).mp finite) (Nat.not_lt.mpr beyond)
  · intro inRange
    obtain ⟨whole, fraction, split⟩ := plain
    refine (split.isFinite_iff read).mpr (Nat.lt_of_not_le fun beyond => ?_)
    exact inRange ⟨whole, fraction, split, beyond⟩

theorem IsBeyond.isPlain (beyond : IsBeyond cs) : IsPlain cs := by
  obtain ⟨whole, fraction, split, -⟩ := beyond
  exact ⟨whole, fraction, split⟩

/-! ### Values -/

/-- What is shown for a text. A plain number is shown as the double-precision number that it is read
as, which is written in decimal digits. -/
inductive Shows (raw : String) : Json → Prop where
  | bool {b : Bool} (word : raw = if b then "true" else "false") : Shows raw (.bool b)
  | number {spelling : List Char} (plain : IsPlain raw.toList) (inRange : ¬ IsBeyond raw.toList)
    (spelled : (Decimal.Double.ofText? raw.toList).bind Decimal.Double.text? = some spelling) :
    Shows raw (.number spelling)
  | null (beyond : IsBeyond raw.toList) : Shows raw .null
  | text (notTrue : raw ≠ "true") (notFalse : raw ≠ "false") (notPlain : ¬ IsPlain raw.toList) :
    Shows raw (.text raw)

theorem shows_toJson (raw : String) : Shows raw (Value.infer raw).toJson := by
  generalize told : Value.infer raw = value
  cases Value.infer_eq_iff.mp told with
  | bool word => exact .bool word
  | @number x plain read =>
      rw [Value.toJson]
      by_cases finite : x.isFinite = true
      · obtain ⟨spelling, text⟩ :=
          Option.isSome_iff_exists.mp (Decimal.Double.isSome_text?_iff.mpr finite)
        have spelled : (Decimal.Double.ofText? raw.toList).bind Decimal.Double.text? =
            some spelling := by
          rw [read, Option.bind_some, text]
        rw [text]
        exact .number plain ((isFinite_iff_not_isBeyond plain read).mp finite) spelled
      · have none : x.text? = none := by
          rw [← Option.not_isSome_iff_eq_none, Decimal.Double.isSome_text?_iff]
          exact finite
        rw [none]
        exact .null (not_not.mp (mt (isFinite_iff_not_isBeyond plain read).mpr finite))
  | text notTrue notFalse notPlain => exact .text notTrue notFalse notPlain

theorem Shows.eq_null_iff {value : Json} (shown : Shows raw value) :
    value = .null ↔ IsBeyond raw.toList := by
  cases shown with
  | @bool b word =>
      refine iff_of_false nofun fun beyond => Value.not_isPlain_of_word ?_ beyond.isPlain
      cases b
      · exact .inr word
      · exact .inl word
  | number plain inRange => exact iff_of_false nofun inRange
  | null beyond => exact iff_of_true rfl beyond
  | text notTrue notFalse notPlain =>
      exact iff_of_false nofun fun beyond => notPlain beyond.isPlain

theorem toJson_infer_eq_null_iff : (Value.infer raw).toJson = .null ↔ IsBeyond raw.toList :=
  (shows_toJson raw).eq_null_iff

/-! ### Tables -/

theorem Table.stands_members {t : Table} {value : Value} (held : t.get? key = some value) :
    Stands key t.members (some value.toJson) := by
  have fields : t.members =
      Json.membersOf (t.rows.map fun row => (row.1, some row.2.toJson)) := by
    rw [members, Json.membersOf, List.flatMap_map]
    exact List.map_eq_flatMap
  rw [fields]
  refine Json.stands_membersOf ?_ (List.mem_map.mpr ⟨_, get?_eq_some_iff.mp held, rfl⟩)
  rw [List.map_map]
  exact t.nodup_keys

end AppConfig

/-! ### Pages -/

namespace Version.Report

def fields (r : Report) : List (String × Option Json) :=
  [("currentVersion", some (.text r.currentVersion)),
    ("newestVersion", r.newestVersion.map .text), ("isUpToDate", r.isUpToDate.map .bool)]

theorem toJson_eq_record (r : Report) : r.toJson = Json.record r.fields := by
  simp [toJson, Json.record, Json.membersOf, fields, Json.optionalField]

theorem spelled_toJson (r : Report) : Json.Spelled r.toJson := by
  rw [toJson_eq_record]
  refine Json.spelled_record ?_
  simp only [fields, List.forall_mem_cons]
  exact ⟨Json.spelled_of_mem_some (.string _), Json.spelled_of_mem_map_text _,
    Json.spelled_of_mem_map .bool _, List.forall_mem_nil _⟩

end Version.Report

namespace Page

def fields (p : Page) : List (String × Option Json) :=
  [("user", some (p.user.elim .null User.toJson)),
    ("appConfig", some (p.appConfig.elim .null AppConfig.Table.toJson)),
    ("versionInformation", p.version.map Version.Report.toJson)]

theorem toJson_eq_record (p : Page) : p.toJson = Json.record p.fields := by
  simp [toJson, Json.record, Json.membersOf, fields, Json.optionalField]

theorem spelled_toJson (p : Page) : Json.Spelled p.toJson := by
  have nullable {α : Type} {write : α → Json} (spelled : ∀ a, Json.Spelled (write a))
      (held : Option α) : Json.Spelled (held.elim .null write) := by
    cases held with
    | none => exact .null
    | some a => exact spelled a
  rw [toJson_eq_record]
  refine Json.spelled_record ?_
  simp only [fields, List.forall_mem_cons]
  exact ⟨Json.spelled_of_mem_some (nullable User.spelled_toJson _),
    Json.spelled_of_mem_some (nullable AppConfig.Table.spelled_toJson _),
    Json.spelled_of_mem_map Version.Report.spelled_toJson _, List.forall_mem_nil _⟩

theorem read?_compact_toJson (p : Page) :
    Json.read? p.toJson.compact = some (.object (Json.membersOf p.fields)) :=
  (Json.read?_compact p.spelled_toJson).trans (congrArg some p.toJson_eq_record)

theorem stands_appConfig (p : Page) :
    Stands "appConfig" (Json.membersOf p.fields)
      (some (p.appConfig.elim .null AppConfig.Table.toJson)) :=
  Json.stands_membersOf (by simp [fields]) (by simp [fields])

end Page

/-! ### Main result -/

namespace AppConfig.Table

/-- Every key that occurs in the entries stands once in the object that the table is written as, and
in the one that a page shows. What stands there is told by the last text under the key: a boolean, a
number or the text itself, and `null` just for plain numbers beyond the range. -/
theorem shown_unless_beyond {entries : List Entry} {key : String}
    (present : key ∈ entries.map (·.key)) :
    ∃ members e value,
      Json.read? (ofEntries entries).toJson.compact = some (.object members) ∧
      (entries.filter (·.key = key)).getLast? = some e ∧
      Stands key members (some value) ∧ Shows e.value value ∧
      (value = .null ↔ IsBeyond e.value.toList) ∧
      ∀ user version, ∃ shown,
        Json.read? (Page.toJson ⟨user, some (ofEntries entries), version⟩).compact =
          some (.object shown) ∧
        Stands "appConfig" shown (some (.object members)) := by
  obtain ⟨e, last⟩ := Option.isSome_iff_exists.mp (isSome_last?_iff.mpr present)
  have held : (ofEntries entries).get? key = some (.infer e.value) := by
    rw [get?_ofEntries, last, Option.map_some]
  refine ⟨(ofEntries entries).members, e, _, read?_compact_toJson _, last, stands_members held,
    shows_toJson e.value, toJson_infer_eq_null_iff, fun user version => ?_⟩
  exact ⟨_, Page.read?_compact_toJson _, Page.stands_appConfig _⟩

theorem shown_unless_beyond_quota :
    ∃ members value,
      Json.read? (ofEntries [⟨"quota", "number", "2.50"⟩]).toJson.compact =
        some (.object members) ∧
      Stands "quota" members (some value) ∧ value ≠ .null := by
  have present : "quota" ∈ [(⟨"quota", "number", "2.50"⟩ : Entry)].map (·.key) := by decide
  obtain ⟨members, e, value, read, last, stands, -, null, -⟩ := shown_unless_beyond present
  obtain rfl : ⟨"quota", "number", "2.50"⟩ = e := Option.some.inj last
  refine ⟨members, value, read, stands, fun shown => ?_⟩
  have written := congrArg Json.compact (toJson_infer_eq_null_iff.mpr (null.mp shown))
  exact absurd written (by decide +kernel)

/-- A one with 309 zeros behind it is a plain number, and `null` is shown for it. -/
theorem huge_number_shown_as_null :
    IsPlain ('1' :: List.replicate 309 '0') ∧
      (ofEntries [⟨"quota", "number", .ofList ('1' :: List.replicate 309 '0')⟩]).toJson.compact =
        "\x7b\"quota\":null\x7d" := by
  generalize digits : '1' :: List.replicate 309 '0' = cs
  have plain : Plain cs cs [] :=
    .positive (.whole (Decimal.areDigits_iff.mp (by subst digits; decide +kernel)))
  have large : Decimal.overflowBound ≤ Decimal.placeValue cs := by
    subst digits
    decide +kernel
  have beyond : IsBeyond (String.ofList cs).toList := by
    rw [String.toList_ofList]
    exact ⟨cs, [], plain, by simpa using large⟩
  have row : (ofEntries [⟨"quota", "number", .ofList cs⟩]).toJson =
      .object [Json.field "quota" (Value.infer (.ofList cs)).toJson] := rfl
  rw [row, toJson_infer_eq_null_iff.mpr beyond]
  exact ⟨⟨cs, [], plain⟩, by decide⟩

end AppConfig.Table
end Gatehouse
