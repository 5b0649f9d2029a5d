import Gatehouse.Json
import Gatehouse.Proofs.Json.Reading
import Gatehouse.Proofs.Text

/-! # JSON is read back as it was written

What is written for a value is a text of the grammar that stands for that value, and so it is read
as that value, from characters and from bytes. What is written for a record is read back as the record.
-/

namespace Gatehouse.Json

/-- The numbers in a value are numbers of the grammar, so that the value can be written. -/
inductive Spelled : Json → Prop where
  | null : Spelled .null
  | bool (value : Bool) : Spelled (.bool value)
  | number {spelling : List Char} (valid : IsNumber spelling) : Spelled (.number spelling)
  | string (literal : Literal) : Spelled (.string literal)
  | array {items : List Json} (all : ∀ item ∈ items, Spelled item) : Spelled (.array items)
  | object {members : List (Literal × Json)} (all : ∀ m ∈ members, Spelled m.2) :
    Spelled (.object members)

/-! ## String literals -/

theorem hexDigit?_digitChar {n : Nat} (small : n < 16) :
    Text.hexDigit? (Nat.digitChar n) = some n := by
  have all : ∀ n < 16, Text.hexDigit? (Nat.digitChar n) = some n := by decide
  exact all n small

theorem ofCode_toNat {c : Char} (control : c.toNat < 0x20) : Piece.ofCode c.toNat = .char c := by
  rw [Piece.ofCode, if_neg (by omega), Char.ofNat_toNat]

theorem writesPiece_hexPair {c : Char} (control : c.toNat < 0x20) :
    WritesPiece (['\\', 'u', '0', '0'] ++ hexPair c.toNat) (.char c) := by
  have zero : Text.hexDigit? '0' = some 0 := by decide
  have high := hexDigit?_digitChar (n := c.toNat / 16) (by omega)
  have low := hexDigit?_digitChar (n := c.toNat % 16) (by omega)
  have code : ((0 * 16 + 0) * 16 + c.toNat / 16) * 16 + c.toNat % 16 = c.toNat := by omega
  have piece := WritesPiece.code zero zero high low
  rwa [code, ofCode_toNat control] at piece

theorem writesPiece_escapeChar (c : Char) : WritesPiece (escapeChar c) (.char c) := by
  unfold escapeChar
  split
  · next quote => subst quote; exact .short rfl
  split
  · next backslash => subst backslash; exact .short rfl
  split
  · next backspace => subst backspace; exact .short rfl
  split
  · next tab => subst tab; exact .short rfl
  split
  · next newline => subst newline; exact .short rfl
  split
  · next feed => subst feed; exact .short rfl
  split
  · next carriage => subst carriage; exact .short rfl
  split
  · next control => exact writesPiece_hexPair control
  · next quote backslash _ _ _ _ _ printable => exact .plain quote backslash (by omega)

theorem spells_chars (cs : List Char) : Spells (cs.map .char) cs := by
  induction cs with
  | nil => exact .nil
  | cons c cs ih => exact .char c ih

theorem writesLiteral_render (literal : Literal) :
    WritesLiteral (renderLiteral literal) literal := by
  cases literal with
  | none =>
      have half : WritesPiece ['\\', 'u', 'd', '8', '0', '0'] (.half 0xD800) :=
        .code (i := 13) (j := 8) (k := 0) (l := 0) rfl rfl rfl rfl
      refine @WritesLiteral.mk [(_, _)] none (List.forall_mem_singleton.mpr half) fun s => ?_
      constructor
      · nofun
      · intro spells
        cases spells_iff.mp spells
  | some s =>
      let parts := s.toList.map fun c => (escapeChar c, Piece.char c)
      have escaped : s.toList.flatMap escapeChar = parts.flatMap (·.1) := by
        rw [List.flatMap_map]
      have chars : parts.map (·.2) = s.toList.map .char := List.map_map
      rw [renderLiteral, escaped]
      refine .mk (fun p mem => ?_) fun s' => ?_
      · obtain ⟨c, -, rfl⟩ := List.mem_map.mp mem
        exact writesPiece_escapeChar c
      · rw [chars, Option.some.injEq, ← String.toList_inj]
        constructor
        · rintro same
          rw [← same]
          exact spells_chars _
        · exact (spells_chars _).unique

/-! ## Values -/

def writtenItem (v : Json) : List Char × Json := (v.render, v)

theorem renderItems_eq (items : List Json) :
    renderItems items = (items.map writtenItem).flatMap (',' :: ·.1) ++ [']'] := by
  induction items with
  | nil => rfl
  | cons item items ih => simp [renderItems, ih, writtenItem]

theorem writes_render_array {items : List Json} (all : ∀ item ∈ items, Writes item.render item) :
    Writes (render (.array items)) (.array items) := by
  cases items with
  | nil => exact .emptyArray blank_nil
  | cons item items =>
      have written : ∀ p ∈ (item :: items).map writtenItem, Writes p.1 p.2 :=
        List.forall_mem_map.mpr all
      have array := Writes.array written
      have values : ((item :: items).map writtenItem).map (·.2) = item :: items := by
        rw [List.map_map]
        exact List.map_id _
      rwa [← List.map_cons, values, ← renderItems_eq] at array

def writtenMember (m : Literal × Json) : WrittenMember := ⟨renderLiteral m.1, m.1, m.2.render, m.2⟩

theorem renderMembers_eq (members : List (Literal × Json)) :
    renderMembers members = (members.map writtenMember).flatMap (',' :: ·.text) ++ ['}'] := by
  induction members with
  | nil => rfl
  | cons member members ih => simp [renderMembers, ih, writtenMember, WrittenMember.text]

theorem writes_render_object {members : List (Literal × Json)}
    (all : ∀ m ∈ members, Writes m.2.render m.2) :
    Writes (render (.object members)) (.object members) := by
  cases members with
  | nil => exact .emptyObject blank_nil
  | cons member members =>
      have names : ∀ m ∈ (member :: members).map writtenMember,
          WritesName m.spelledName m.name := by
        refine List.forall_mem_map.mpr fun m _ => ?_
        have name := WritesName.mk blank_nil blank_nil (writesLiteral_render m.1)
        rwa [List.append_nil] at name
      have values : ∀ m ∈ (member :: members).map writtenMember,
          Writes m.spelledValue m.value := List.forall_mem_map.mpr all
      have object := Writes.object names values
      have same : ((member :: members).map writtenMember).map (fun m => (m.name, m.value)) =
          member :: members := by
        rw [List.map_map]
        exact List.map_id _
      rw [← List.map_cons, same, ← renderMembers_eq] at object
      simpa [render, writtenMember, WrittenMember.text] using object

theorem Spelled.writes {v : Json} (spelled : Spelled v) : Writes v.render v := by
  induction spelled with
  | null => exact .null
  | bool value =>
      cases value with
      | true => exact .true
      | false => exact .false
  | number valid => exact .number (isNumber_iff.mp valid)
  | string literal => exact .string (writesLiteral_render literal)
  | array all ih => exact writes_render_array ih
  | object all ih => exact writes_render_object ih

/-! ## Texts -/

/-- A value is read back from its JSON text. -/
theorem read?_compact {v : Json} (spelled : Spelled v) : read? v.compact = some v := by
  refine read?_of_writes ?_
  rw [compact, String.toList_ofList]
  exact spelled.writes

end Gatehouse.Json

/-! ## Reading JSON from bytes

Bytes are read character by character, so that the bytes of a text are read as the text is. -/

namespace Gatehouse

theorem Text.character?_utf8EncodeChar (c : Char) (bytes : List UInt8) :
    character? (String.utf8EncodeChar c ++ bytes) = some c := by
  have short : (String.utf8EncodeChar c).length ≤ 4 := by
    rw [String.length_utf8EncodeChar]
    exact c.utf8Size_le_four
  rw [character?, List.take_append, List.take_of_length_le short, List.toByteArray_append]
  exact ByteArray.utf8DecodeChar?_utf8EncodeChar_append

namespace Json

namespace Reader

variable (stray : Reader → Option Reader)

/-- The rest of a character is passed over. -/
theorem runBytes_length (r : Reader) (due bytes : List UInt8) :
    runBytes stray due.length r (due ++ bytes) = runBytes stray 0 r bytes := by
  induction due with
  | nil => rfl
  | cons _ due ih => exact ih

theorem runBytes_utf8EncodeChar (r : Reader) (c : Char) (bytes : List UInt8) :
    runBytes stray 0 r (String.utf8EncodeChar c ++ bytes) =
      (r.step c).bind (runBytes stray 0 · bytes) := by
  have first := Text.character?_utf8EncodeChar c bytes
  have size := String.length_utf8EncodeChar c
  cases encoded : String.utf8EncodeChar c with
  | nil => exact absurd encoded String.utf8EncodeChar_ne_nil
  | cons byte due =>
      rw [encoded] at first size
      have rest : c.utf8Size - 1 = due.length := by
        rw [← size, List.length_cons, Nat.add_sub_cancel]
      rw [List.cons_append] at first ⊢
      simp only [runBytes, first, rest, runBytes_length]

theorem runBytes_flatMap (r : Reader) (cs : List Char) :
    runBytes stray 0 r (cs.flatMap String.utf8EncodeChar) = r.run cs := by
  induction cs generalizing r with
  | nil => rfl
  | cons c cs ih =>
      rw [List.flatMap_cons, runBytes_utf8EncodeChar]
      simp only [ih]
      rfl

end Reader

theorem readBytes?_toUTF8 (text : String) : readBytes? text.toUTF8 = read? text := by
  rw [readBytes?, Http.Header.toList_toUTF8, Reader.runBytes_flatMap, read?]

end Json
end Gatehouse

/-! ## Records are read back

A record is written field by field, and a field without a value is left out. Where no two fields have
one name, each of them is read back as it was, and one that was left out is missed by nobody else.
-/

namespace Gatehouse.Json

/-! ### Members -/

def membersOf (fields : List (String × Option Json)) : List (Literal × Json) :=
  fields.flatMap fun (name, value) => optionalField name value

def record (fields : List (String × Option Json)) : Json := .object (membersOf fields)

theorem valuesOf_optionalField (name other : String) (value : Option Json) :
    valuesOf name (optionalField other value) = if other = name then value.toList else [] := by
  cases value with
  | none => simp [optionalField, valuesOf]
  | some value => by_cases same : other = name <;> simp [optionalField, valuesOf, field, same]

theorem valuesOf_membersOf_cons (name other : String) (value : Option Json)
    (fields : List (String × Option Json)) :
    valuesOf name (membersOf ((other, value) :: fields)) =
      (if other = name then value.toList else []) ++ valuesOf name (membersOf fields) := by
  rw [← valuesOf_optionalField]
  exact List.filterMap_append

theorem valuesOf_membersOf_of_not_mem {fields : List (String × Option Json)} {name : String}
    (absent : name ∉ fields.map (·.1)) : valuesOf name (membersOf fields) = [] := by
  induction fields with
  | nil => rfl
  | cons first fields ih =>
      obtain ⟨other, value⟩ := first
      rw [List.map_cons, List.mem_cons, not_or] at absent
      obtain ⟨different, rest⟩ := absent
      rw [valuesOf_membersOf_cons, if_neg (Ne.symm different), ih rest]
      rfl

theorem valuesOf_membersOf {fields : List (String × Option Json)}
    (once : (fields.map (·.1)).Nodup) {name : String} {value : Option Json}
    (mem : (name, value) ∈ fields) : valuesOf name (membersOf fields) = value.toList := by
  induction fields with
  | nil => cases mem
  | cons first fields ih =>
      obtain ⟨other, value'⟩ := first
      obtain ⟨apart, once⟩ := List.nodup_cons.mp once
      rw [valuesOf_membersOf_cons]
      rcases List.mem_cons.mp mem with same | later
      · cases same
        rw [if_pos rfl, valuesOf_membersOf_of_not_mem apart, List.append_nil]
      · have different : other ≠ name := by
          rintro rfl
          exact apart (List.mem_map.mpr ⟨_, later, rfl⟩)
        rw [if_neg different, ih once later]
        rfl

theorem soleValue?_eq {name : String} {members : List (Literal × Json)} {value : Option Json}
    (values : valuesOf name members = value.toList) : soleValue? name members = some value := by
  cases value <;> simp [soleValue?, values]

theorem exists_field_of_mem {fields : List (String × Option Json)} {m : Literal × Json}
    (mem : m ∈ membersOf fields) :
    ∃ name value, (name, some value) ∈ fields ∧ m = field name value := by
  obtain ⟨⟨name, value⟩, listed, held⟩ := List.mem_flatMap.mp mem
  cases value with
  | none => cases held
  | some value => exact ⟨name, value, listed, List.mem_singleton.mp held⟩

/-! ### Records -/

theorem spelled_record {fields : List (String × Option Json)}
    (spelled : ∀ f ∈ fields, ∀ value ∈ f.2, Spelled value) : Spelled (record fields) := by
  refine .object fun m mem => ?_
  obtain ⟨name, value, listed, rfl⟩ := exists_field_of_mem mem
  exact spelled _ listed value rfl

theorem spelled_of_mem_some {value : Json} (spelled : Spelled value) :
    ∀ value' ∈ some value, Spelled value' := by
  rintro value' ⟨⟩
  exact spelled

theorem spelled_of_mem_map {α : Type} {write : α → Json} (spelled : ∀ a, Spelled (write a))
    (held : Option α) : ∀ value ∈ held.map write, Spelled value := by
  intro value mem
  obtain ⟨a, -, rfl⟩ := Option.map_eq_some_iff.mp mem
  exact spelled a

theorem spelled_of_mem_map_text (text : Option String) :
    ∀ value ∈ text.map Json.text, Spelled value :=
  spelled_of_mem_map (fun s => .string (some s)) text

/-- The fields of a record are read back, those that were left out as having no value. -/
theorem fields?_record {fields : List (String × Option Json)} {names : List String}
    (named : fields.map (·.1) = names) (once : names.Nodup) :
    (record fields).fields? names = some (fields.map (·.2)) := by
  subst named
  have texts : (membersOf fields).any (·.1.isNone) = false := by
    refine List.any_eq_false.mpr fun m mem => ?_
    obtain ⟨name, value, -, rfl⟩ := exists_field_of_mem mem
    simp [field]
  -- each name is looked up among all the members, so these stay while the fields are gone through
  have each : ∀ part : List (String × Option Json), part ⊆ fields →
      ((part.map (·.1)).mapM fun name => soleValue? name (membersOf fields)) =
        some (part.map (·.2)) := by
    intro part inside
    induction part with
    | nil => rfl
    | cons first part ih =>
        obtain ⟨listed, inside⟩ := List.cons_subset.mp inside
        have held := soleValue?_eq (valuesOf_membersOf once listed)
        simp [held, ih inside]
  rw [record, fields?, if_neg (by simp [texts]), each fields (List.Subset.refl _)]

theorem defaulted_nullableText? (text : Option String) :
    defaulted nullableText? none (text.map .text) = some text := by
  cases text <;> rfl

/-! ### Texts -/

/-- What is written is read back, from the text and from its bytes. -/
def RoundTrips {α : Type} (write : α → Json) (read : Json → Option α) : Prop :=
  ∀ a, (read? (write a).compact).bind read = some a ∧
    (readBytes? (write a).compact.toUTF8).bind read = some a

theorem roundTrips_of {α : Type} {write : α → Json} {read : Json → Option α}
    (spelled : ∀ a, Spelled (write a)) (back : ∀ a, read (write a) = some a) :
    RoundTrips write read := by
  intro a
  have text : (read? (write a).compact).bind read = some a := by
    rw [read?_compact (spelled a), Option.bind_some, back]
  exact ⟨text, by rw [readBytes?_toUTF8, text]⟩

/-- Writing what was read and reading it again makes no difference, whatever the text was. -/
theorem RoundTrips.reread {α : Type} {write : α → Json} {read : Json → Option α}
    (trips : RoundTrips write read) (text : String) :
    (((read? text).bind read).bind fun a => (read? (write a).compact).bind read) =
      (read? text).bind read := by
  cases (read? text).bind read with
  | none => rfl
  | some a => exact (trips a).1

end Gatehouse.Json
