import Gatehouse.Decimal
import Gatehouse.Json

/-! # The application configuration

What the backend sends is a list of keys with texts. What a page is given is a table of keys with
values, whose types are read off the texts. -/

/-! ## Entries

One configuration value as the backend sends it: a key, the backend's own name for the type, and
the value as a text. -/

namespace Gatehouse.AppConfig

structure Entry where
  key : String
  type : String
  value : String
  deriving DecidableEq, Repr

namespace Entry

def fieldNames : List String := ["key", "type", "value"]

def ofJson? (v : Json) : Option Entry :=
  match v.fields? fieldNames with
  | some [key, type, value] => do
    return {
      key := ← Json.required Json.text? key
      type := ← Json.required Json.text? type
      value := ← Json.required Json.text? value }
  | _ => none

def toJson (e : Entry) : Json :=
  .object
    [Json.field "key" (.text e.key), Json.field "type" (.text e.type),
      Json.field "value" (.text e.value)]

def listOfJson? (v : Json) : Option (List Entry) := v.array?.bind (·.mapM ofJson?)

def listToJson (entries : List Entry) : Json := .array (entries.map toJson)

end Entry

/-! ## Values

The page wants switches as booleans and plain decimal numbers as numbers. -/

inductive Value where
  | bool (value : Bool)
  | number (value : Decimal.Double)
  | text (value : String)
  deriving DecidableEq, Repr

/-- Digits, and optionally a point with digits behind it. -/
def isUnsignedPlain (cs : List Char) : Bool :=
  Decimal.areDigits (cs.takeWhile Char.isDigit) &&
    match cs.dropWhile Char.isDigit with
    | [] => true
    | '.' :: fraction => Decimal.areDigits fraction
    | _ => false

/-- A plain decimal number, optionally after one `-`. Exponents are not plain. -/
def isPlain : List Char → Bool
  | '-' :: cs => isUnsignedPlain cs
  | cs => isUnsignedPlain cs

namespace Value

/-- Reads the type off the text. Whatever is neither a boolean nor a plain number stays text. -/
def infer (raw : String) : Value :=
  if raw = "true" then .bool true
  else if raw = "false" then .bool false
  else if isPlain raw.toList then
    match Decimal.Double.ofText? raw.toList with
    | some x => .number x
    | none => .text raw
  else .text raw

/-- A number without a finite value has no JSON spelling and is written as `null`. -/
def toJson : Value → Json
  | .bool b => .bool b
  | .number x => x.text?.elim .null .number
  | .text s => .text s

end Value

/-! ## The table

The typed values under their keys, every key once and in ascending order. Texts are compared by code
points, which is the order of their UTF-8 bytes. -/

def put (key : String) (value : Value) : List (String × Value) → List (String × Value)
  | [] => [(key, value)]
  | (k, v) :: rest =>
    if key < k then (key, value) :: (k, v) :: rest
    else if key = k then (key, value) :: rest
    else (k, v) :: put key value rest

theorem mem_put_iff {key : String} {value : Value} {rows : List (String × Value)}
    {row : String × Value} (mem : row ∈ put key value rows) : row.1 = key ∨ row ∈ rows := by
  induction rows with
  | nil => simp_all [put]
  | cons first rest ih =>
    unfold put at mem
    split at mem
    · simp_all only [List.mem_cons]
      rcases mem with rfl | h
      · exact .inl rfl
      · exact .inr h
    · split at mem
      · simp only [List.mem_cons] at mem ⊢
        rcases mem with rfl | h
        · exact .inl rfl
        · exact .inr (.inr h)
      · simp only [List.mem_cons] at mem ⊢
        rcases mem with h | h
        · exact .inr (.inl h)
        · rcases ih h with h | h
          · exact .inl h
          · exact .inr (.inr h)

abbrev Ascending (rows : List (String × Value)) : Prop := rows.Pairwise (·.1 < ·.1)

theorem Ascending.put {key : String} {value : Value} {rows : List (String × Value)}
    (sorted : Ascending rows) : Ascending (put key value rows) := by
  induction rows with
  | nil => simp [AppConfig.put, Ascending]
  | cons first rest ih =>
    obtain ⟨below, tail⟩ := List.pairwise_cons.1 sorted
    unfold AppConfig.put
    split
    · next before =>
      refine List.pairwise_cons.2 ⟨fun row mem => ?_, sorted⟩
      rcases List.mem_cons.1 mem with rfl | h
      · exact before
      · exact String.lt_trans before (below row h)
    · next notBefore =>
      split
      · next same =>
        subst same
        exact List.pairwise_cons.2 ⟨below, tail⟩
      · next differs =>
        refine List.pairwise_cons.2 ⟨fun row mem => ?_, ih tail⟩
        rcases mem_put_iff mem with h | h
        · rw [h]
          exact Std.lt_of_le_of_ne (String.not_lt.1 notBefore) (fun e => differs e.symm)
        · exact below row h

structure Table where
  rows : List (String × Value)
  ascending : Ascending rows

namespace Table

def empty : Table := ⟨[], .nil⟩

def insert (t : Table) (key : String) (value : Value) : Table :=
  ⟨put key value t.rows, t.ascending.put⟩

/-- Of two entries with one key the later one holds. -/
def ofEntries (entries : List Entry) : Table :=
  entries.foldl (fun t e => t.insert e.key (.infer e.value)) empty

def get? (t : Table) (key : String) : Option Value := t.rows.lookup key

def bool? (t : Table) (key : String) : Option Bool :=
  match t.get? key with
  | some (.bool b) => some b
  | _ => none

def number? (t : Table) (key : String) : Option Decimal.Double :=
  match t.get? key with
  | some (.number x) => some x
  | _ => none

def text? (t : Table) (key : String) : Option String :=
  match t.get? key with
  | some (.text s) => some s
  | _ => none

def size (t : Table) : Nat := t.rows.length

def isEmpty (t : Table) : Bool := t.rows.isEmpty

def toJson (t : Table) : Json :=
  .object (t.rows.map fun (key, value) => Json.field key value.toJson)

end Table
end Gatehouse.AppConfig
