import Gatehouse.Proofs.Json.Reading
import Gatehouse.Proofs.Text

/-! # Nothing but JSON is read

From each state on, the reader is told by what it still takes: the rest of the lexeme under way and
then what it takes once that is complete. A text that it takes from the start is put together from
these, and so it is a text of the grammar. -/

namespace Gatehouse.Json
namespace Reader

variable {expected : Expected} {outer : List Container} {cs : List Char} {v : Json} {r : Reader}

/-- The rest of a text may be this, and then the text stands for the value. -/
def Takes (r : Reader) (cs : List Char) (v : Json) : Prop := (r.run cs).bind finish = some v

theorem takes_cons {c : Char} : r.Takes (c :: cs) v ↔ ∃ r', r.step c = some r' ∧ r'.Takes cs v := by
  rw [Takes, run_cons, Option.bind_assoc, Option.bind_eq_some_iff]
  rfl

/-! ## Lexemes -/

theorem takes_word {d : Char} {rest : List Char} {w : Json}
    (takes : Takes ⟨.value, .word (d :: rest) w, outer⟩ cs v) :
    ∃ es, cs = d :: rest ++ es ∧ (deliver w outer).Takes es v := by
  induction rest generalizing d cs with
  | nil =>
      cases cs with
      | nil => cases takes
      | cons c cs =>
          obtain ⟨r, step, rest⟩ := takes_cons.mp takes
          simp only [Reader.step] at step
          split at step
          · next same =>
            cases step
            exact ⟨cs, by rw [same]; rfl, rest⟩
          · cases step
  | cons d' rest ih =>
      cases cs with
      | nil => cases takes
      | cons c cs =>
          obtain ⟨r, step, rest⟩ := takes_cons.mp takes
          simp only [Reader.step] at step
          split at step
          · next same =>
            cases step
            obtain ⟨es, rfl, after⟩ := ih rest
            exact ⟨es, by rw [same]; rfl, after⟩
          · cases step

/-- The rest of a number. It ends where the next character cannot go on with it, which then is taken
as one behind the number. -/
theorem takes_number {phase : NumberPhase} {spelling : List Char}
    (takes : Takes ⟨.value, .number phase spelling, outer⟩ cs v) :
    ∃ ds es, cs = ds ++ es ∧ phase.Accepts ds ∧
      (deliver (.number (spelling.reverse ++ ds)) outer).Takes es v := by
  induction cs generalizing phase spelling with
  | nil =>
      cases outer with
      | cons container outer => cases takes
      | nil =>
          simp only [Takes, run_nil, Option.bind_some, finish] at takes
          split at takes
          · next ends =>
            exact ⟨[], [], rfl, NumberPhase.accepts_nil.mpr ends, by rwa [List.append_nil]⟩
          · cases takes
  | cons c cs ih =>
      obtain ⟨r, step, rest⟩ := takes_cons.mp takes
      simp only [Reader.step] at step
      split at step
      · next after next =>
        cases step
        obtain ⟨ds, es, rfl, accepts, rest⟩ := ih rest
        refine ⟨c :: ds, es, rfl, NumberPhase.accepts_cons.mpr ⟨after, next, accepts⟩, ?_⟩
        simpa using rest
      · split at step
        · next ends =>
          refine ⟨[], c :: cs, rfl, NumberPhase.accepts_nil.mpr ends, takes_cons.mpr ⟨r, ?_, rest⟩⟩
          rw [step_deliver, List.append_nil]
          exact step
        · cases step

theorem takes_hexDigit {pieces : List Piece} {count code : Nat}
    (takes : Takes ⟨expected, .string pieces (.hex count code), outer⟩ cs v) :
    ∃ c d es, cs = c :: es ∧ Text.hexDigit? c = some d ∧
      Takes (if count = 3 then ⟨expected, .string (.ofCode (code * 16 + d) :: pieces) .outside, outer⟩
        else ⟨expected, .string pieces (.hex (count + 1) (code * 16 + d)), outer⟩) es v := by
  cases cs with
  | nil => cases expected <;> cases takes
  | cons c cs =>
      obtain ⟨r, step, rest⟩ := takes_cons.mp takes
      obtain ⟨d, digit, rfl⟩ := Option.map_eq_some_iff.mp step
      exact ⟨c, d, cs, rfl, digit, rest⟩

theorem takes_code {pieces : List Piece}
    (takes : Takes ⟨expected, .string pieces (.hex 0 0), outer⟩ cs v) :
    ∃ ds p es, cs = ds ++ es ∧ WritesPiece ('\\' :: 'u' :: ds) p ∧
      Takes ⟨expected, .string (p :: pieces) .outside, outer⟩ es v := by
  obtain ⟨a, i, _, rfl, first, takes⟩ := takes_hexDigit takes
  obtain ⟨b, j, _, rfl, second, takes⟩ := takes_hexDigit takes
  obtain ⟨c, k, _, rfl, third, takes⟩ := takes_hexDigit takes
  obtain ⟨d, l, es, rfl, fourth, takes⟩ := takes_hexDigit takes
  rw [Nat.zero_mul, Nat.zero_add, Nat.zero_add] at takes
  exact ⟨[a, b, c, d], _, es, rfl, .code first second third fourth, takes⟩

theorem takes_piece {pieces : List Piece}
    (takes : Takes ⟨expected, .string pieces .outside, outer⟩ cs v) :
    (∃ es, cs = '"' :: es ∧ (closeString expected pieces outer).Takes es v) ∨
      ∃ ds p es, cs = ds ++ es ∧ ds ≠ [] ∧ WritesPiece ds p ∧
        Takes ⟨expected, .string (p :: pieces) .outside, outer⟩ es v := by
  cases cs with
  | nil => cases expected <;> cases takes
  | cons c cs =>
      obtain ⟨r, step, rest⟩ := takes_cons.mp takes
      simp only [Reader.step, stepString] at step
      split at step
      · next quote =>
        cases step
        exact .inl ⟨cs, by rw [quote], rest⟩
      split at step
      · next backslash =>
        cases step
        subst backslash
        right
        cases cs with
        | nil => cases expected <;> cases rest
        | cons c cs =>
            obtain ⟨r, step, rest⟩ := takes_cons.mp rest
            simp only [Reader.step, stepString] at step
            split at step
            · next code =>
              cases step
              subst code
              obtain ⟨ds, p, es, rfl, written, after⟩ := takes_code rest
              exact ⟨_, p, es, rfl, List.cons_ne_nil _ _, written, after⟩
            · obtain ⟨d, short, rfl⟩ := Option.map_eq_some_iff.mp step
              exact ⟨['\\', c], _, cs, rfl, List.cons_ne_nil _ _, .short short, rest⟩
      split at step
      · cases step
      · next notQuote notBackslash printable =>
        cases step
        have written := WritesPiece.plain notQuote notBackslash (Nat.le_of_not_lt printable)
        exact .inr ⟨[c], _, cs, rfl, List.cons_ne_nil _ _, written, rest⟩

/-- The rest of a string literal, up to its closing quote. -/
theorem takes_pieces {pieces : List Piece}
    (takes : Takes ⟨expected, .string pieces .outside, outer⟩ cs v) :
    ∃ (parts : List (List Char × Piece)) (es : List Char), cs = parts.flatMap (·.1) ++ '"' :: es ∧
      (∀ p ∈ parts, WritesPiece p.1 p.2) ∧
      (closeString expected ((parts.map (·.2)).reverse ++ pieces) outer).Takes es v := by
  induction size : cs.length using Nat.strongRecOn generalizing cs pieces with
  | ind n ih =>
      rcases takes_piece takes with ⟨es, rfl, closed⟩ | ⟨ds, p, es, rfl, nonempty, written, rest⟩
      · exact ⟨[], es, rfl, List.forall_mem_nil _, closed⟩
      · have shorter : es.length < n := by
          have := List.length_pos_iff.mpr nonempty
          simp only [List.length_append] at size
          omega
        obtain ⟨parts, es, rfl, all, closed⟩ := ih es.length shorter rest rfl
        refine ⟨(ds, p) :: parts, es, ?_, List.forall_mem_cons.mpr ⟨written, all⟩, ?_⟩
        · simp
        · simpa using closed

theorem writesLiteral_of_parts {parts : List (List Char × Piece)}
    (written : ∀ p ∈ parts, WritesPiece p.1 p.2) :
    WritesLiteral ('"' :: (parts.flatMap (·.1) ++ ['"']))
      ((joinPieces (parts.map (·.2)).reverse []).map String.ofList) := by
  refine .mk written fun s => ?_
  rw [spells_iff, Option.map_eq_some_iff]
  constructor
  · rintro ⟨text, joined, rfl⟩
    rwa [String.toList_ofList]
  · exact fun joined => ⟨_, joined, String.ofList_toList⟩

/-! ## Blanks -/

/-- What is taken between two lexemes begins with blanks. -/
theorem Takes.blank (takes : Takes ⟨expected, .between, outer⟩ cs v) :
    ∃ blank rest, cs = blank ++ rest ∧ Blank blank ∧ (∀ c ∈ rest.head?, isSpace c = false) ∧
      Takes ⟨expected, .between, outer⟩ rest v := by
  have cut : cs.dropWhile isSpace = cs.dropWhile isSpace := rfl
  obtain ⟨⟨blank, split, isBlank⟩, solid⟩ := Text.dropWhile_eq_iff.mp cut
  refine ⟨blank, _, split, isBlank, solid, ?_⟩
  rw [Takes, split, run_append, run_blank isBlank] at takes
  exact takes

theorem Takes.solid (takes : Takes ⟨expected, .between, outer⟩ cs v)
    (unfinished : ∀ v, expected ≠ .nothing v) :
    ∃ blank c rest, cs = blank ++ c :: rest ∧ Blank blank ∧ isSpace c = false ∧
      ∃ r, step ⟨expected, .between, outer⟩ c = some r ∧ r.Takes rest v := by
  obtain ⟨blank, rest, rfl, isBlank, solid, takes⟩ := takes.blank
  cases rest with
  | nil =>
      cases expected with
      | nothing w => exact absurd rfl (unfinished w)
      | _ => cases takes
  | cons c rest =>
      exact ⟨blank, c, rest, rfl, isBlank, solid c rfl, takes_cons.mp takes⟩

/-! ## Values -/

def TakesValue (outer : List Container) (cs : List Char) (v : Json) : Prop :=
  ∃ ds w es, cs = ds ++ es ∧ Writes ds w ∧ (deliver w outer).Takes es v

/-- Among fewer than `n` characters, what begins with a value is taken as that. -/
def TakesValues (n : Nat) : Prop :=
  ∀ cs v outer, cs.length < n → Takes ⟨.value, .between, outer⟩ cs v → TakesValue outer cs v

theorem TakesValue.padded {blank : List Char} (isBlank : Blank blank)
    (takes : TakesValue outer cs v) : TakesValue outer (blank ++ cs) v := by
  obtain ⟨ds, w, es, rfl, written, delivered⟩ := takes
  have padded := Writes.padded isBlank blank_nil written
  rw [List.append_nil] at padded
  exact ⟨blank ++ ds, w, es, (List.append_assoc ..).symm, padded, delivered⟩

theorem takesValue_string (takes : Takes ⟨.value, .string [] .outside, outer⟩ cs v) :
    TakesValue outer ('"' :: cs) v := by
  obtain ⟨parts, es, rfl, written, closed⟩ := takes_pieces takes
  rw [List.append_nil] at closed
  exact ⟨_, _, es, by simp, .string (writesLiteral_of_parts written), closed⟩

theorem takesValue_number {c : Char} {phase : NumberPhase}
    (starts : NumberPhase.start c = some phase)
    (takes : Takes ⟨.value, .number phase [c], outer⟩ cs v) : TakesValue outer (c :: cs) v := by
  obtain ⟨ds, es, rfl, ⟨last, goes, ends⟩, delivered⟩ := takes_number takes
  have numeral := isNumber_iff.mp (.mk starts goes ends)
  exact ⟨c :: ds, _, es, rfl, .number numeral, delivered⟩

theorem takesValue_word {c d : Char} {rest : List Char} {w : Json}
    (word : Writes (c :: d :: rest) w) (takes : Takes ⟨.value, .word (d :: rest) w, outer⟩ cs v) :
    TakesValue outer (c :: cs) v := by
  obtain ⟨es, rfl, delivered⟩ := takes_word takes
  exact ⟨_, w, es, rfl, word, delivered⟩

/-! ## Arrays -/

theorem takes_items {n : Nat} (values : TakesValues n) {done : List Json} (short : cs.length < n)
    (takes : Takes ⟨.moreItems done, .between, outer⟩ cs v) :
    ∃ (blank : List Char) (items : List (List Char × Json)) (es : List Char),
      cs = blank ++ (items.flatMap (',' :: ·.1) ++ ']' :: es) ∧ Blank blank ∧
      (∀ p ∈ items, Writes p.1 p.2) ∧
      (deliver (.array (done.reverse ++ items.map (·.2))) outer).Takes es v := by
  induction size : cs.length using Nat.strongRecOn generalizing cs done with
  | ind m ih =>
      obtain ⟨blank, c, cs, rfl, isBlank, solid, r, step, rest⟩ := takes.solid (by simp)
      simp only [Reader.step, stepBetween, solid, Bool.false_eq_true, if_false] at step
      rw [List.length_append, List.length_cons] at short size
      split at step
      · next ends =>
        cases step
        subst ends
        refine ⟨blank, [], cs, rfl, isBlank, List.forall_mem_nil _, ?_⟩
        rwa [List.map_nil, List.append_nil]
      split at step
      · next comma =>
        cases step
        subst comma
        obtain ⟨ds, w, es, rfl, written, delivered⟩ := values cs v _ (by omega) rest
        rw [List.length_append] at short size
        obtain ⟨blank', items, es, rfl, isBlank', all, closed⟩ :=
          ih es.length (by omega) (by omega) delivered rfl
        have padded := Writes.padded blank_nil isBlank' written
        refine ⟨blank, (ds ++ blank', w) :: items, es, by simp, isBlank,
          List.forall_mem_cons.mpr ⟨padded, all⟩, ?_⟩
        simpa using closed
      · cases step

theorem takesValue_array {n : Nat} (values : TakesValues n) (short : cs.length < n)
    (takes : Takes ⟨.firstItem, .between, outer⟩ cs v) : TakesValue outer ('[' :: cs) v := by
  obtain ⟨blank, c, cs, rfl, isBlank, solid, r, step, rest⟩ := takes.solid (by simp)
  simp only [Reader.step, stepBetween, solid, Bool.false_eq_true, if_false] at step
  split at step
  · next ends =>
    cases step
    subst ends
    exact ⟨_, _, cs, by simp, .emptyArray isBlank, rest⟩
  · have opens : Reader.step ⟨.value, .between, .array [] :: outer⟩ c = some r := by
      simpa only [Reader.step, stepBetween, solid, Bool.false_eq_true, if_false] using step
    rw [List.length_append] at short
    obtain ⟨ds, w, es, split, written, delivered⟩ :=
      values (c :: cs) v _ (by omega) (takes_cons.mpr ⟨r, opens, rest⟩)
    rw [split, List.length_append] at short
    obtain ⟨blank', items, es, rfl, isBlank', all, closed⟩ := takes_items values (by omega) delivered
    have padded := Writes.padded isBlank isBlank' written
    have all' : ∀ p ∈ (blank ++ (ds ++ blank'), w) :: items, Writes p.1 p.2 :=
      List.forall_mem_cons.mpr ⟨padded, all⟩
    refine ⟨_, _, es, ?_, .array all', closed⟩
    rw [split]
    simp

/-! ## Objects -/

theorem takes_name {done : List (Literal × Json)}
    (takes : Takes ⟨.name done, .between, outer⟩ cs v) :
    ∃ ds name es, cs = ds ++ ':' :: es ∧ WritesName ds name ∧
      Takes ⟨.value, .between, .object done name :: outer⟩ es v := by
  obtain ⟨blank, c, cs, rfl, isBlank, solid, r, step, rest⟩ := takes.solid (by simp)
  simp only [Reader.step, stepBetween, solid, Bool.false_eq_true, if_false] at step
  split at step
  · next quote =>
    cases step
    subst quote
    obtain ⟨parts, es, rfl, written, closed⟩ := takes_pieces rest
    rw [List.append_nil] at closed
    obtain ⟨blank', c, cs, rfl, isBlank', solid, r, step, after⟩ := closed.solid (by simp)
    simp only [Reader.step, stepBetween, solid, Bool.false_eq_true, if_false] at step
    split at step
    · next colon =>
      cases step
      subst colon
      have written := WritesName.mk isBlank isBlank' (writesLiteral_of_parts written)
      exact ⟨_, _, cs, by simp, written, after⟩
    · cases step
  · cases step

theorem takes_member {n : Nat} (values : TakesValues n) {done : List (Literal × Json)}
    (short : cs.length < n) (takes : Takes ⟨.name done, .between, outer⟩ cs v) :
    ∃ (m : WrittenMember) (es : List Char), cs = m.text ++ es ∧ WritesName m.spelledName m.name ∧
      Writes m.spelledValue m.value ∧
      Takes ⟨.moreMembers ((m.name, m.value) :: done), .between, outer⟩ es v := by
  obtain ⟨ds, name, es, rfl, named, rest⟩ := takes_name takes
  rw [List.length_append, List.length_cons] at short
  obtain ⟨ds', w, es, rfl, written, delivered⟩ := values es v _ (by omega) rest
  exact ⟨⟨ds, name, ds', w⟩, es, by simp [WrittenMember.text], named, written, delivered⟩

theorem takes_members {n : Nat} (values : TakesValues n) {done : List (Literal × Json)}
    (short : cs.length < n) (takes : Takes ⟨.moreMembers done, .between, outer⟩ cs v) :
    ∃ (blank : List Char) (members : List WrittenMember) (es : List Char),
      cs = blank ++ (members.flatMap (',' :: ·.text) ++ '}' :: es) ∧ Blank blank ∧
      (∀ m ∈ members, WritesName m.spelledName m.name) ∧
      (∀ m ∈ members, Writes m.spelledValue m.value) ∧
      (deliver (.object (done.reverse ++ members.map fun m => (m.name, m.value))) outer).Takes
        es v := by
  induction size : cs.length using Nat.strongRecOn generalizing cs done with
  | ind m ih =>
      obtain ⟨blank, c, cs, rfl, isBlank, solid, r, step, rest⟩ := takes.solid (by simp)
      simp only [Reader.step, stepBetween, solid, Bool.false_eq_true, if_false] at step
      rw [List.length_append, List.length_cons] at short size
      split at step
      · next ends =>
        cases step
        subst ends
        refine ⟨blank, [], cs, rfl, isBlank, List.forall_mem_nil _, List.forall_mem_nil _, ?_⟩
        rwa [List.map_nil, List.append_nil]
      split at step
      · next comma =>
        cases step
        subst comma
        obtain ⟨member, es, rfl, named, written, rest⟩ := takes_member values (by omega) rest
        rw [List.length_append] at short size
        obtain ⟨blank', members, es, rfl, isBlank', names, all, closed⟩ :=
          ih es.length (by omega) (by omega) rest rfl
        have padded := Writes.padded blank_nil isBlank' written
        refine ⟨blank, { member with spelledValue := member.spelledValue ++ blank' } :: members, es,
          by simp [WrittenMember.text], isBlank, List.forall_mem_cons.mpr ⟨named, names⟩,
          List.forall_mem_cons.mpr ⟨padded, all⟩, ?_⟩
        simpa using closed
      · cases step

theorem takesValue_object {n : Nat} (values : TakesValues n) (short : cs.length < n)
    (takes : Takes ⟨.firstName, .between, outer⟩ cs v) : TakesValue outer ('{' :: cs) v := by
  obtain ⟨blank, c, cs, rfl, isBlank, solid, r, step, rest⟩ := takes.solid (by simp)
  simp only [Reader.step, stepBetween, solid, Bool.false_eq_true, if_false] at step
  split at step
  · next ends =>
    cases step
    subst ends
    exact ⟨_, _, cs, by simp, .emptyObject isBlank, rest⟩
  split at step
  · next quote =>
    cases step
    subst quote
    have opens : Takes ⟨.name [], .between, outer⟩ (blank ++ '"' :: cs) v := by
      rw [Takes, run_append, run_blank isBlank]
      exact rest
    obtain ⟨first, es, split, named, written, after⟩ := takes_member values short opens
    rw [split, List.length_append] at short
    obtain ⟨blank', members, es, rfl, isBlank', names, all, closed⟩ :=
      takes_members values (by omega) after
    have padded := Writes.padded blank_nil isBlank' written
    let first' : WrittenMember := { first with spelledValue := first.spelledValue ++ blank' }
    have names' : ∀ m ∈ first' :: members, WritesName m.spelledName m.name :=
      List.forall_mem_cons.mpr ⟨named, names⟩
    have all' : ∀ m ∈ first' :: members, Writes m.spelledValue m.value :=
      List.forall_mem_cons.mpr ⟨padded, all⟩
    refine ⟨_, _, es, ?_, .object names' all', closed⟩
    rw [split]
    simp [first', WrittenMember.text]
  · cases step

/-! ## Texts -/

theorem takesValues (n : Nat) : TakesValues n := by
  -- behind its first character, what a container holds is shorter than the container
  induction n with
  | zero => exact fun cs v outer short => absurd short (Nat.not_lt_zero _)
  | succ n ih =>
      intro cs v outer short takes
      obtain ⟨blank, c, cs, rfl, isBlank, solid, r, step, rest⟩ := takes.solid (by simp)
      simp only [Reader.step, stepBetween, solid, Bool.false_eq_true, if_false] at step
      rw [List.length_append, List.length_cons] at short
      refine TakesValue.padded isBlank ?_
      unfold openValue at step
      split at step
      · next array =>
        cases step
        subst array
        exact takesValue_array ih (by omega) rest
      split at step
      · next object =>
        cases step
        subst object
        exact takesValue_object ih (by omega) rest
      split at step
      · next quote =>
        cases step
        subst quote
        exact takesValue_string rest
      split at step
      · next true =>
        cases step
        subst true
        exact takesValue_word .true rest
      split at step
      · next false =>
        cases step
        subst false
        exact takesValue_word .false rest
      split at step
      · next null =>
        cases step
        subst null
        exact takesValue_word .null rest
      · obtain ⟨phase, starts, rfl⟩ := Option.map_eq_some_iff.mp step
        exact takesValue_number starts rest

end Reader

/-- The reader takes the texts of the grammar and no others. -/
theorem read?_eq_some_iff {text : String} {v : Json} :
    read? text = some v ↔ Writes text.toList v := by
  constructor
  · intro read
    obtain ⟨ds, w, es, split, written, delivered⟩ :=
      Reader.takesValues _ _ v [] (Nat.lt_succ_self _) read
    obtain ⟨blank, rest, rfl, isBlank, solid, finished⟩ := Reader.Takes.blank delivered
    cases rest with
    | nil =>
        cases finished
        have padded := Writes.padded blank_nil isBlank written
        rw [split, List.append_nil]
        exact padded
    | cons c rest =>
        obtain ⟨r, step, -⟩ := Reader.takes_cons.mp finished
        simp [Reader.step, Reader.stepBetween, solid c rfl] at step
  · exact read?_of_writes

end Gatehouse.Json
