import Gatehouse.Http
import Gatehouse.Text
import Mathlib.Data.List.DropRight
import Mathlib.Data.List.TakeWhile

/-! # Texts and their bytes

What is left of a text with its ends cut off, what of it fits into a header, and the order in which
texts stand. -/

/-! ## Texts with their ends cut off

What is left of a text is told by its ends: all that was cut off could be, and nothing more can. -/

namespace Gatehouse.Text

variable {p : Char → Bool} {cs kept : List Char}

theorem dropWhile_eq_iff :
    cs.dropWhile p = kept ↔
      (∃ cut, cs = cut ++ kept ∧ ∀ c ∈ cut, p c = true) ∧ ∀ c ∈ kept.head?, p c = false := by
  constructor
  · rintro rfl
    refine ⟨⟨cs.takeWhile p, List.takeWhile_append_dropWhile.symm,
      fun _ mem => List.mem_takeWhile_imp mem⟩, ?_⟩
    intro c first
    have stopped := List.head?_dropWhile_not p cs
    rw [Option.mem_def.mp first] at stopped
    exact stopped
  · rintro ⟨⟨cut, rfl, all⟩, stops⟩
    rw [List.dropWhile_append_of_pos all]
    cases kept with
    | nil => rfl
    | cons c kept => exact List.dropWhile_cons_of_neg (by simp [stops c rfl])

theorem rdropWhile_eq_iff :
    cs.rdropWhile p = kept ↔
      (∃ cut, cs = kept ++ cut ∧ ∀ c ∈ cut, p c = true) ∧ ∀ c ∈ kept.getLast?, p c = false := by
  have mirrored : cs.rdropWhile p = kept ↔ cs.reverse.dropWhile p = kept.reverse :=
    List.reverse_eq_iff
  rw [mirrored, dropWhile_eq_iff, List.head?_reverse]
  refine and_congr_left fun _ => ⟨?_, ?_⟩
  · rintro ⟨cut, whole, all⟩
    refine ⟨cut.reverse, ?_, fun c mem => all c (List.mem_reverse.mp mem)⟩
    simpa using congrArg List.reverse whole
  · rintro ⟨cut, rfl, all⟩
    exact ⟨cut.reverse, List.reverse_append, fun c mem => all c (List.mem_reverse.mp mem)⟩

/-- The text is what is kept with white space around it, and what is kept has none at its ends. -/
structure Trims (cs kept : List Char) : Prop where
  around : ∃ before after, cs = before ++ kept ++ after ∧
    (∀ c ∈ before, isBlank c = true) ∧ ∀ c ∈ after, isBlank c = true
  first : ∀ c ∈ kept.head?, isBlank c = false
  last : ∀ c ∈ kept.getLast?, isBlank c = false

theorem trims_trim (cs : List Char) : Trims cs (trim cs) := by
  obtain ⟨⟨before, split, blankBefore⟩, first⟩ := dropWhile_eq_iff.mp (rfl : trimStart cs = _)
  obtain ⟨⟨after, rest, blankAfter⟩, last⟩ := rdropWhile_eq_iff.mp (rfl : trim cs = _)
  refine ⟨⟨before, after, ?_, blankBefore, blankAfter⟩, ?_, last⟩
  · rw [List.append_assoc, ← rest]
    exact split
  · intro c head
    refine first c ?_
    rw [rest, List.head?_append, Option.mem_def.mp head]
    rfl

theorem Trims.trim_eq (h : Trims cs kept) : trim cs = kept := by
  obtain ⟨before, after, rfl, blankBefore, blankAfter⟩ := h.around
  cases kept with
  | nil =>
      have blank : ∀ c ∈ before ++ [] ++ after, isBlank c = true := by
        simpa [or_imp, forall_and] using ⟨blankBefore, blankAfter⟩
      rw [trim, trimStart, List.dropWhile_eq_nil_iff.mpr blank]
      rfl
  | cons c kept =>
      have start : trimStart (before ++ (c :: kept) ++ after) = c :: kept ++ after :=
        dropWhile_eq_iff.mpr ⟨⟨before, List.append_assoc _ _ _, blankBefore⟩, h.first⟩
      rw [trim, start]
      exact rdropWhile_eq_iff.mpr ⟨⟨after, rfl, blankAfter⟩, h.last⟩

theorem trim_eq_iff : trim cs = kept ↔ Trims cs kept :=
  ⟨fun same => same ▸ trims_trim cs, Trims.trim_eq⟩

theorem trim_eq_nil_iff : trim cs = [] ↔ ∀ c ∈ cs, isBlank c = true := by
  rw [trim_eq_iff]
  constructor
  · intro trims
    obtain ⟨before, after, rfl, blankBefore, blankAfter⟩ := trims.around
    simpa [or_imp, forall_and] using ⟨blankBefore, blankAfter⟩
  · intro blank
    exact ⟨⟨cs, [], by simp, blank, nofun⟩, nofun, nofun⟩

end Gatehouse.Text

/-! ## What fits into a header

The bytes of a text are those of its characters one after the other, so a text can be sent when each
of its characters can, and a value is read as a text when each of its characters can be read. -/

namespace Gatehouse

def Text.Visible (text : String) : Prop := ∀ c ∈ text.toList, '!' ≤ c ∧ c ≤ '~'

namespace Http.Header

private theorem toList_loop (bytes : ByteArray) (i : Nat) (read : List UInt8) :
    ByteArray.toList.loop bytes i read = read.reverse ++ bytes.data.toList.drop i := by
  fun_induction ByteArray.toList.loop bytes i read with
  | case1 i read within ih =>
      have inside : i < bytes.data.toList.length := within
      have byte : bytes.get! i = bytes.data.toList[i] := by
        simpa [ByteArray.get!] using getElem!_pos bytes.data i within
      rw [ih, List.drop_eq_getElem_cons inside, byte, List.reverse_cons, List.append_assoc,
        List.singleton_append]
  | case2 i read past =>
      have outside : bytes.data.toList.length ≤ i := Nat.le_of_not_lt past
      rw [List.drop_eq_nil_of_le outside, List.append_nil]

theorem toList_eq_data (bytes : ByteArray) : bytes.toList = bytes.data.toList := by
  rw [ByteArray.toList, toList_loop]
  rfl

theorem toList_toUTF8 (text : String) :
    text.toUTF8.toList = text.toList.flatMap String.utf8EncodeChar := by
  rw [toList_eq_data, String.toUTF8_eq_toByteArray, ← String.utf8Encode_toList, List.utf8Encode,
    List.toList_data_toByteArray]

/-! ### Characters and their bytes -/

theorem utf8EncodeChar_of_ascii {c : Char} (low : c.toNat < 0x80) :
    String.utf8EncodeChar c = [UInt8.ofNat c.toNat] :=
  if_pos (Nat.le_of_lt_succ low)

theorem high_of_mem_utf8EncodeChar {c : Char} (high : 0x80 ≤ c.toNat) {byte : UInt8}
    (mem : byte ∈ String.utf8EncodeChar c) : 0x80 ≤ byte.toNat := by
  have more : ¬ c.val.toNat ≤ 0x7F := Nat.not_le_of_lt high
  simp only [String.utf8EncodeChar, more, if_false] at mem
  repeat' split at mem
  all_goals
    simp only [List.mem_cons, List.not_mem_nil, or_false] at mem
    rcases mem with rfl | rfl | rfl | rfl
  all_goals
    rw [UInt8.toNat_ofNat']
    omega

theorem forall_mem_utf8EncodeChar_iff {p : UInt8 → Prop} {others : Prop}
    (alike : ∀ byte : UInt8, 0x80 ≤ byte.toNat → (p byte ↔ others)) (c : Char) :
    (∀ byte ∈ String.utf8EncodeChar c, p byte) ↔
      if c.toNat < 0x80 then p (UInt8.ofNat c.toNat) else others := by
  split
  · next low => rw [utf8EncodeChar_of_ascii low, List.forall_mem_singleton]
  · next notLow =>
    have high : ∀ byte ∈ String.utf8EncodeChar c, 0x80 ≤ byte.toNat :=
      fun byte mem => high_of_mem_utf8EncodeChar (Nat.le_of_not_lt notLow) mem
    obtain ⟨byte, mem⟩ := List.exists_mem_of_ne_nil _ (String.utf8EncodeChar_ne_nil (c := c))
    constructor
    · intro all
      exact (alike byte (high byte mem)).mp (all byte mem)
    · intro holds byte mem
      exact (alike byte (high byte mem)).mpr holds

/-! ### Sending -/

/-- The characters that can be sent in a header: all but control characters, of which only the tab
can be. Those beyond ASCII do not count as control characters here. -/
def IsSendable (c : Char) : Prop := c = '\t' ∨ ' ' ≤ c ∧ c ≠ '\x7F'

theorem isSendableByte_iff {b : UInt8} :
    isSendableByte b = true ↔ b.toNat = 9 ∨ 32 ≤ b.toNat ∧ b.toNat ≠ 127 := by
  simp only [isSendableByte, Bool.or_eq_true, decide_eq_true_eq, Bool.and_eq_true,
    UInt8.le_iff_toNat_le, ne_eq, ← UInt8.toNat_inj]
  rfl

theorem isSendable_char_iff {c : Char} :
    IsSendable c ↔ c.toNat = 9 ∨ 32 ≤ c.toNat ∧ c.toNat ≠ 127 := by
  rw [IsSendable, ne_eq, ← Char.toNat_inj, ← Char.toNat_inj]
  exact Iff.rfl

theorem all_isSendableByte_utf8EncodeChar (c : Char) :
    (∀ b ∈ String.utf8EncodeChar c, isSendableByte b = true) ↔ IsSendable c := by
  have alike : ∀ b : UInt8, 0x80 ≤ b.toNat → (isSendableByte b = true ↔ True) := by
    intro b high
    rw [isSendableByte_iff, iff_true]
    omega
  rw [forall_mem_utf8EncodeChar_iff alike, isSendable_char_iff]
  split
  · rw [isSendableByte_iff, UInt8.toNat_ofNat']
    omega
  · rw [true_iff]
    omega

/-- A text can be sent just if all of its characters can. -/
theorem isSendable_iff {text : String} :
    isSendable text = true ↔ ∀ c ∈ text.toList, IsSendable c := by
  simp only [isSendable, List.all_eq_true, toList_toUTF8, List.forall_mem_flatMap,
    all_isSendableByte_utf8EncodeChar]

theorem isSendable_eq_false_iff {text : String} :
    isSendable text = false ↔ ∃ c ∈ text.toList, ¬ IsSendable c := by
  rw [← Bool.not_eq_true, isSendable_iff]
  simp only [Classical.not_forall, exists_prop]

theorem isSendable_of_visible {text : String} (visible : Text.Visible text) :
    isSendable text = true := by
  refine isSendable_iff.mpr fun c mem => isSendable_char_iff.mpr (.inr ?_)
  obtain ⟨least, most⟩ := visible c mem
  have low : 33 ≤ c.toNat := least
  have high : c.toNat ≤ 126 := most
  omega

/-! ### Reading -/

def IsReadable (c : Char) : Prop := c = '\t' ∨ ' ' ≤ c ∧ c ≤ '~'

theorem isReadableByte_iff {b : UInt8} :
    isReadableByte b = true ↔ b.toNat = 9 ∨ 32 ≤ b.toNat ∧ b.toNat ≤ 126 := by
  simp only [isReadableByte, Bool.or_eq_true, decide_eq_true_eq, Bool.and_eq_true,
    UInt8.le_iff_toNat_le, ← UInt8.toNat_inj]
  rfl

theorem isReadable_iff {c : Char} :
    IsReadable c ↔ c.toNat = 9 ∨ 32 ≤ c.toNat ∧ c.toNat ≤ 126 := by
  have tab : c = '\t' ↔ c.toNat = 9 := by
    rw [← Char.toNat_inj]
    rfl
  rw [IsReadable, tab]
  exact Iff.rfl

theorem all_isReadableByte_utf8EncodeChar (c : Char) :
    (∀ b ∈ String.utf8EncodeChar c, isReadableByte b = true) ↔ IsReadable c := by
  have alike : ∀ b : UInt8, 0x80 ≤ b.toNat → (isReadableByte b = true ↔ False) := by
    intro b high
    rw [isReadableByte_iff, iff_false]
    omega
  rw [forall_mem_utf8EncodeChar_iff alike, isReadable_iff]
  split
  · rw [isReadableByte_iff, UInt8.toNat_ofNat']
    omega
  · rw [false_iff]
    omega

theorem fromUTF8?_eq_some_iff {value : ByteArray} {text : String} :
    String.fromUTF8? value = some text ↔ value = text.toUTF8 := by
  constructor
  · intro read
    unfold String.fromUTF8? at read
    split at read
    · obtain rfl := Option.some.inj read
      rfl
    · cases read
  · rintro rfl
    rw [String.fromUTF8?, String.toUTF8_eq_toByteArray, dif_pos text.isValidUTF8]
    rfl

/-- A value is read as a text just if it is that text and all of its characters can be read. -/
theorem text?_eq_some_iff {value : ByteArray} {text : String} :
    text? value = some text ↔ value = text.toUTF8 ∧ ∀ c ∈ text.toList, IsReadable c := by
  have readable : (text.toUTF8.toList.all isReadableByte) = true ↔
      ∀ c ∈ text.toList, IsReadable c := by
    simp only [List.all_eq_true, toList_toUTF8, List.forall_mem_flatMap,
      all_isReadableByte_utf8EncodeChar]
  unfold text?
  split
  · next all =>
    rw [fromUTF8?_eq_some_iff]
    refine ⟨?_, And.left⟩
    rintro rfl
    exact ⟨rfl, readable.mp all⟩
  · next notAll =>
    refine ⟨nofun, ?_⟩
    rintro ⟨rfl, each⟩
    exact absurd (readable.mpr each) notAll

end Http.Header
end Gatehouse

/-! ## The order of texts

Texts are compared character by character, and their bytes in UTF-8 byte by byte. Both orders are the
same: of two characters the lesser has the lesser bytes, and the bytes of no character go on as those
of another. -/

namespace Gatehouse.Text

open String (utf8EncodeChar)

/-! ### Characters -/

section

variable {m n : Nat} {cs ds : List UInt8}

theorem ofNat_cons_lt (less : m % 256 < n % 256) : UInt8.ofNat m :: cs < UInt8.ofNat n :: ds := by
  refine List.cons_lt_cons_iff.mpr (.inl ?_)
  rw [UInt8.lt_iff_toNat_lt, UInt8.toNat_ofNat', UInt8.toNat_ofNat']
  exact less

theorem ofNat_cons_lt_of_eq (same : m = n) (rest : cs < ds) :
    UInt8.ofNat m :: cs < UInt8.ofNat n :: ds :=
  List.cons_lt_cons_iff.mpr (.inr ⟨congrArg UInt8.ofNat same, rest⟩)

theorem last_lt (less : m < n) (above : m / 64 = n / 64) :
    UInt8.ofNat (m % 64 + 128) :: cs < UInt8.ofNat (n % 64 + 128) :: ds :=
  ofNat_cons_lt (by omega)

theorem lastTwo_lt (less : m < n) (above : m / 4096 = n / 4096) :
    UInt8.ofNat (m / 64 % 64 + 128) :: UInt8.ofNat (m % 64 + 128) :: cs <
      UInt8.ofNat (n / 64 % 64 + 128) :: UInt8.ofNat (n % 64 + 128) :: ds := by
  have split : m / 64 < n / 64 ∨ m / 64 = n / 64 := by omega
  rcases split with before | same
  · exact ofNat_cons_lt (by omega)
  · exact ofNat_cons_lt_of_eq (by omega) (last_lt less same)

theorem lastThree_lt (less : m < n) (above : m / 262144 = n / 262144) :
    UInt8.ofNat (m / 4096 % 64 + 128) :: UInt8.ofNat (m / 64 % 64 + 128) ::
        UInt8.ofNat (m % 64 + 128) :: cs <
      UInt8.ofNat (n / 4096 % 64 + 128) :: UInt8.ofNat (n / 64 % 64 + 128) ::
        UInt8.ofNat (n % 64 + 128) :: ds := by
  have split : m / 4096 < n / 4096 ∨ m / 4096 = n / 4096 := by omega
  rcases split with before | same
  · exact ofNat_cons_lt (by omega)
  · exact ofNat_cons_lt_of_eq (by omega) (lastTwo_lt less same)

end

/-- The bytes of a lesser character are less, whatever follows them. -/
theorem utf8EncodeChar_append_lt {c d : Char} (lt : c < d) (cs ds : List UInt8) :
    utf8EncodeChar c ++ cs < utf8EncodeChar d ++ ds := by
  have less : c.val.toNat < d.val.toNat := UInt32.lt_iff_toNat_lt.mp lt
  have bound : d.val.toNat < 0x110000 := by
    rcases d.valid with low | high
    · exact Nat.lt_trans low (by decide)
    · exact high.2
  unfold utf8EncodeChar
  dsimp only
  generalize c.val.toNat = m at *
  generalize d.val.toNat = n at *
  split
  · repeat' split
    all_goals exact ofNat_cons_lt (by omega)
  rw [if_neg (by omega : ¬ n ≤ 0x7F)]
  split
  · split
    · have split : m / 64 < n / 64 ∨ m / 64 = n / 64 := by omega
      rcases split with before | same
      · exact ofNat_cons_lt (by omega)
      · exact ofNat_cons_lt_of_eq (by omega) (last_lt less same)
    · split <;> exact ofNat_cons_lt (by omega)
  rw [if_neg (by omega : ¬ n ≤ 0x7FF)]
  split
  · split
    · have split : m / 4096 < n / 4096 ∨ m / 4096 = n / 4096 := by omega
      rcases split with before | same
      · exact ofNat_cons_lt (by omega)
      · exact ofNat_cons_lt_of_eq (by omega) (lastTwo_lt less same)
    · exact ofNat_cons_lt (by omega)
  rw [if_neg (by omega : ¬ n ≤ 0xFFFF)]
  have split : m / 262144 < n / 262144 ∨ m / 262144 = n / 262144 := by omega
  rcases split with before | same
  · exact ofNat_cons_lt (by omega)
  · exact ofNat_cons_lt_of_eq (by omega) (lastThree_lt less same)

/-! ### Texts -/

theorem flatMap_utf8EncodeChar_lt {cs ds : List Char} (lt : cs < ds) :
    cs.flatMap utf8EncodeChar < ds.flatMap utf8EncodeChar := by
  induction cs generalizing ds with
  | nil =>
      cases ds with
      | nil => exact absurd lt (List.not_lt_nil _)
      | cons d ds =>
          rw [List.flatMap_nil, List.flatMap_cons]
          cases bytes : utf8EncodeChar d with
          | nil => exact absurd bytes String.utf8EncodeChar_ne_nil
          | cons b bs => exact List.nil_lt_cons b _
  | cons c cs ih =>
      cases ds with
      | nil => exact absurd lt (List.not_lt_nil _)
      | cons d ds =>
          rw [List.flatMap_cons, List.flatMap_cons]
          rcases List.cons_lt_cons_iff.mp lt with before | ⟨rfl, rest⟩
          · exact utf8EncodeChar_append_lt before _ _
          · exact List.append_left_lt (ih rest)

theorem toUTF8_lt {s t : String} (lt : s < t) : s.toUTF8.toList < t.toUTF8.toList := by
  rw [Http.Header.toList_toUTF8, Http.Header.toList_toUTF8]
  exact flatMap_utf8EncodeChar_lt lt

/-- Texts are ordered as their bytes are. -/
theorem lt_iff_toUTF8_lt {s t : String} : s < t ↔ s.toUTF8.toList < t.toUTF8.toList := by
  refine ⟨toUTF8_lt, fun bytes => ?_⟩
  by_cases same : s = t
  · subst same
    exact absurd bytes (Std.lt_irrefl)
  · by_cases less : s < t
    · exact less
    · have greater : t < s := Std.lt_of_le_of_ne (String.not_lt.mp less) (Ne.symm same)
      exact absurd (Std.lt_trans bytes (toUTF8_lt greater)) Std.lt_irrefl

end Gatehouse.Text
