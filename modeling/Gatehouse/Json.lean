import Gatehouse.Decimal
import Gatehouse.Text

/-! # JSON

The tree of a JSON text (RFC 8259), how it is written and read, and how records stand in it. Members
keep their order and their repetitions, and a number keeps the spelling it was written with, so that
nothing is lost before someone asks for a field. -/

namespace Gatehouse

/-- What a string literal spells: its text, or `none` when an escape in it names half of a surrogate
pair alone or bytes in it are no character. Such a literal can be passed over and yet is no
Unicode text. -/
abbrev Json.Literal := Option String

inductive Json where
  | null
  | bool (value : Bool)
  | number (spelling : List Char)
  | string (literal : Json.Literal)
  | array (items : List Json)
  | object (members : List (Json.Literal × Json))
  deriving Inhabited

namespace Json

def text (s : String) : Json := .string (some s)

def field (name : String) (value : Json) : Literal × Json := (some name, value)

/-- A member that is left out when it has no value. -/
def optionalField (name : String) (value : Option Json) : List (Literal × Json) :=
  match value with
  | none => []
  | some v => [field name v]

end Json
end Gatehouse

/-! ## Spelling of numbers

The grammar of numbers as an automaton over characters, and the integers among the numbers. -/

namespace Gatehouse.Json

inductive NumberPhase where
  | minus
  | zero
  | whole
  | point
  | fraction
  | exponentMark
  | exponentSign
  | exponent
  deriving DecidableEq, Repr

namespace NumberPhase

/-- The phase after the first character of a number. -/
def start (c : Char) : Option NumberPhase :=
  if c = '-' then some .minus
  else if c = '0' then some .zero
  else if c.isDigit then some .whole
  else none

/-- The phase after one more character, when the number can go on with it. -/
def next : NumberPhase → Char → Option NumberPhase
  | .minus, c => if c = '0' then some .zero else if c.isDigit then some .whole else none
  | .zero, c => afterWhole c
  | .whole, c => if c.isDigit then some .whole else afterWhole c
  | .point, c => if c.isDigit then some .fraction else none
  | .fraction, c =>
    if c.isDigit then some .fraction
    else if c = 'e' ∨ c = 'E' then some .exponentMark
    else none
  | .exponentMark, c =>
    if c = '+' ∨ c = '-' then some .exponentSign else if c.isDigit then some .exponent else none
  | .exponentSign, c => if c.isDigit then some .exponent else none
  | .exponent, c => if c.isDigit then some .exponent else none
where
  afterWhole (c : Char) : Option NumberPhase :=
    if c = '.' then some .point else if c = 'e' ∨ c = 'E' then some .exponentMark else none

def isFinal : NumberPhase → Bool
  | .zero | .whole | .fraction | .exponent => true
  | .minus | .point | .exponentMark | .exponentSign => false

end NumberPhase

/-- Decimal digits read on from a value; `none` at anything that is no digit. -/
def readNatural : Nat → List Char → Option Nat
  | value, [] => some value
  | value, c :: cs => (Decimal.digit? c).bind fun d => readNatural (value * 10 + d) cs

/-- The integer a spelling without fraction and exponent stands for. A negative zero is none. -/
def integer? : List Char → Option Int
  | [] => none
  | ['-'] => none
  | '-' :: cs => (readNatural 0 cs).bind fun n => if n = 0 then none else some (-(n : Int))
  | cs => (readNatural 0 cs).map Int.ofNat

def spellInt (i : Int) : List Char :=
  if i < 0 then '-' :: Nat.toDigits 10 i.natAbs else Nat.toDigits 10 i.natAbs

/-! ## Writing

The shortest spelling: no blanks, and only those characters escaped that have to be. -/

def hexPair (n : Nat) : List Char := [Nat.digitChar (n / 16), Nat.digitChar (n % 16)]

def escapeChar (c : Char) : List Char :=
  if c = '"' then ['\\', '"']
  else if c = '\\' then ['\\', '\\']
  else if c = '\x08' then ['\\', 'b']
  else if c = '\t' then ['\\', 't']
  else if c = '\n' then ['\\', 'n']
  else if c = '\x0c' then ['\\', 'f']
  else if c = '\r' then ['\\', 'r']
  else if c.toNat < 0x20 then ['\\', 'u', '0', '0'] ++ hexPair c.toNat
  else [c]

/-- A string literal. One that spells no text is written as the half of a surrogate pair. -/
def renderLiteral : Literal → List Char
  | some s => '"' :: s.toList.flatMap escapeChar ++ ['"']
  | none => ['"', '\\', 'u', 'd', '8', '0', '0', '"']

mutual

def render : Json → List Char
  | .null => ['n', 'u', 'l', 'l']
  | .bool true => ['t', 'r', 'u', 'e']
  | .bool false => ['f', 'a', 'l', 's', 'e']
  | .number spelling => spelling
  | .string literal => renderLiteral literal
  | .array [] => ['[', ']']
  | .array (item :: items) => '[' :: render item ++ renderItems items
  | .object [] => ['{', '}']
  | .object ((name, value) :: members) =>
    '{' :: renderLiteral name ++ ':' :: render value ++ renderMembers members

def renderItems : List Json → List Char
  | [] => [']']
  | item :: items => ',' :: render item ++ renderItems items

def renderMembers : List (Literal × Json) → List Char
  | [] => ['}']
  | (name, value) :: members =>
    ',' :: renderLiteral name ++ ':' :: render value ++ renderMembers members

end

def compact (value : Json) : String := .ofList value.render

/-! ## Records

A record is written as an object, in which members that are not its fields are passed over, or as an
array of its fields in their order, from whose end fields may be missing. -/

def valuesOf (name : String) (members : List (Literal × Json)) : List Json :=
  members.filterMap fun (n, v) => if n = some name then some v else none

/-- The value of a field that occurs at most once: `some none` where it does not occur. -/
def soleValue? (name : String) (members : List (Literal × Json)) : Option (Option Json) :=
  match valuesOf name members with
  | [] => some none
  | [v] => some (some v)
  | _ => none

/-- For each field, in order, what the record holds for it. A repeated field, a name that is no text
and an array longer than the fields make the record unreadable. -/
def fields? (names : List String) : Json → Option (List (Option Json))
  | .object members =>
    if members.any fun (n, _) => n.isNone then none
    else names.mapM fun name => soleValue? name members
  | .array items =>
    if items.length ≤ names.length then
      some (items.map some ++ List.replicate (names.length - items.length) none)
    else none
  | _ => none

def text? : Json → Option String
  | .string literal => literal
  | _ => none

/-- The text of a string, or nothing for `null`. -/
def nullableText? : Json → Option (Option String)
  | .null => some none
  | v => v.text?.map some

def bool? : Json → Option Bool
  | .bool b => some b
  | _ => none

def int64? : Json → Option Int64
  | .number spelling =>
    (integer? spelling).bind fun i =>
      if Int64.minValue.toInt ≤ i ∧ i ≤ Int64.maxValue.toInt then some (Int64.ofInt i) else none
  | _ => none

def array? : Json → Option (List Json)
  | .array items => some items
  | _ => none

def required {α : Type} (read : Json → Option α) (value : Option Json) : Option α :=
  value.bind read

def defaulted {α : Type} (read : Json → Option α) (default : α) : Option Json → Option α
  | none => some default
  | some v => read v

/-! ## Reading

A pushdown automaton that takes one character at a time: what has been read of the current lexeme,
what may come next, and the containers that are still open. Nesting costs no recursion, so any depth
can be read, and reading a text in two parts is reading it in one. -/

def isSpace (c : Char) : Bool := c = ' ' || c = '\t' || c = '\n' || c = '\r'

/-- A piece of a string literal: a character, an escaped half of a surrogate pair, or bytes that are
no character. -/
inductive Piece where
  | char (c : Char)
  | half (code : Nat)
  | stray
  deriving DecidableEq, Repr

def Piece.ofCode (code : Nat) : Piece :=
  if 0xD800 ≤ code ∧ code < 0xE000 then .half code else .char (Char.ofNat code)

def joinHalves? (high low : Nat) : Option Char :=
  if high < 0xDC00 ∧ 0xDC00 ≤ low then
    some (Char.ofNat (0x10000 + (high - 0xD800) * 0x400 + (low - 0xDC00)))
  else none

/-- Puts the pieces, the last of them first, together in front of a text. -/
def joinPieces : List Piece → List Char → Option (List Char)
  | [], text => some text
  | .char c :: pieces, text => joinPieces pieces (c :: text)
  | .half low :: .half high :: pieces, text =>
    (joinHalves? high low).bind fun c => joinPieces pieces (c :: text)
  | .half _ :: _, _ => none
  | .stray :: _, _ => none

def simpleEscape? (c : Char) : Option Char :=
  if c = '"' ∨ c = '\\' ∨ c = '/' then some c
  else if c = 'b' then some '\x08'
  else if c = 't' then some '\t'
  else if c = 'n' then some '\n'
  else if c = 'f' then some '\x0c'
  else if c = 'r' then some '\r'
  else none

/-- Where the reader stands within an escape. -/
inductive Escape where
  | outside
  | started
  | hex (count code : Nat)
  deriving DecidableEq, Repr

/-- The lexeme under way. Pieces and spellings hold their last character first. -/
inductive Lexeme where
  | between
  | word (rest : List Char) (value : Json)
  | number (phase : NumberPhase) (spelling : List Char)
  | string (pieces : List Piece) (escape : Escape)

/-- An open container with what it holds so far, the last item first. -/
inductive Container where
  | array (items : List Json)
  | object (members : List (Literal × Json)) (name : Literal)

/-- What has to come next. -/
inductive Expected where
  | value
  | firstItem
  | moreItems (items : List Json)
  | firstName
  | name (members : List (Literal × Json))
  | colon (members : List (Literal × Json)) (name : Literal)
  | moreMembers (members : List (Literal × Json))
  | nothing (result : Json)

structure Reader where
  expected : Expected
  lexeme : Lexeme
  outer : List Container

namespace Reader

def start : Reader := ⟨.value, .between, []⟩

/-- A value is complete and goes into the innermost open container. -/
def deliver (value : Json) : List Container → Reader
  | [] => ⟨.nothing value, .between, []⟩
  | .array items :: outer => ⟨.moreItems (value :: items), .between, outer⟩
  | .object members name :: outer => ⟨.moreMembers ((name, value) :: members), .between, outer⟩

/-- The first character of a value. -/
def openValue (c : Char) (outer : List Container) : Option Reader :=
  if c = '[' then some ⟨.firstItem, .between, outer⟩
  else if c = '{' then some ⟨.firstName, .between, outer⟩
  else if c = '"' then some ⟨.value, .string [] .outside, outer⟩
  else if c = 't' then some ⟨.value, .word ['r', 'u', 'e'] (.bool true), outer⟩
  else if c = 'f' then some ⟨.value, .word ['a', 'l', 's', 'e'] (.bool false), outer⟩
  else if c = 'n' then some ⟨.value, .word ['u', 'l', 'l'] .null, outer⟩
  else (NumberPhase.start c).map fun phase => ⟨.value, .number phase [c], outer⟩

def stepBetween (expected : Expected) (outer : List Container) (c : Char) : Option Reader :=
  if isSpace c then some ⟨expected, .between, outer⟩
  else match expected with
    | .value => openValue c outer
    | .firstItem =>
      if c = ']' then some (deliver (.array []) outer) else openValue c (.array [] :: outer)
    | .moreItems items =>
      if c = ']' then some (deliver (.array items.reverse) outer)
      else if c = ',' then some ⟨.value, .between, .array items :: outer⟩
      else none
    | .firstName =>
      if c = '}' then some (deliver (.object []) outer)
      else if c = '"' then some ⟨.name [], .string [] .outside, outer⟩
      else none
    | .name members =>
      if c = '"' then some ⟨.name members, .string [] .outside, outer⟩ else none
    | .colon members name =>
      if c = ':' then some ⟨.value, .between, .object members name :: outer⟩ else none
    | .moreMembers members =>
      if c = '}' then some (deliver (.object members.reverse) outer)
      else if c = ',' then some ⟨.name members, .between, outer⟩
      else none
    | .nothing _ => none

/-- A string literal is complete: the name of a member or a value. -/
def closeString (expected : Expected) (pieces : List Piece) (outer : List Container) : Reader :=
  let literal := (joinPieces pieces []).map String.ofList
  match expected with
  | .name members => ⟨.colon members literal, .between, outer⟩
  | _ => deliver (.string literal) outer

def stepString (expected : Expected) (pieces : List Piece) (outer : List Container) (c : Char) :
    Escape → Option Reader
  | .outside =>
    if c = '"' then some (closeString expected pieces outer)
    else if c = '\\' then some ⟨expected, .string pieces .started, outer⟩
    else if c.toNat < 0x20 then none
    else some ⟨expected, .string (.char c :: pieces) .outside, outer⟩
  | .started =>
    if c = 'u' then some ⟨expected, .string pieces (.hex 0 0), outer⟩
    else (simpleEscape? c).map fun c => ⟨expected, .string (.char c :: pieces) .outside, outer⟩
  | .hex count code =>
    (Text.hexDigit? c).map fun d =>
      let code := code * 16 + d
      if count = 3 then ⟨expected, .string (.ofCode code :: pieces) .outside, outer⟩
      else ⟨expected, .string pieces (.hex (count + 1) code), outer⟩

def step (r : Reader) (c : Char) : Option Reader :=
  match r.lexeme with
  | .between => stepBetween r.expected r.outer c
  | .word [] _ => none
  | .word [last] value => if c = last then some (deliver value r.outer) else none
  | .word (due :: rest) value =>
    if c = due then some ⟨r.expected, .word rest value, r.outer⟩ else none
  | .number phase spelling =>
    match phase.next c with
    | some phase => some ⟨r.expected, .number phase (c :: spelling), r.outer⟩
    | none =>
      if phase.isFinal then
        let after := deliver (.number spelling.reverse) r.outer
        stepBetween after.expected after.outer c
      else none
  | .string pieces escape => stepString r.expected pieces r.outer c escape

/-- Bytes that are no character. They can only stand in a string literal, as themselves. -/
def stepStray (r : Reader) : Option Reader :=
  match r.lexeme with
  | .string pieces .outside => some ⟨r.expected, .string (.stray :: pieces) .outside, r.outer⟩
  | _ => none

/-- The value read, if the text may end here. -/
def finish (r : Reader) : Option Json :=
  match r.expected, r.lexeme, r.outer with
  | .nothing value, .between, [] => some value
  | .value, .number phase spelling, [] =>
    if phase.isFinal then some (.number spelling.reverse) else none
  | _, _, _ => none

def run (r : Reader) (cs : List Char) : Option Reader := cs.foldlM step r

/-- Reads UTF-8. Of a character, the first byte brings the step and the bytes due after it are
passed over, and so with bytes that are no character and only begin one. -/
def runBytes (stray : Reader → Option Reader) : Nat → Reader → List UInt8 → Option Reader
  | _, r, [] => some r
  | due + 1, r, _ :: bytes => runBytes stray due r bytes
  | 0, r, byte :: bytes =>
    match Text.character? (byte :: bytes) with
    | some c => (r.step c).bind fun r => runBytes stray (c.utf8Size - 1) r bytes
    | none =>
      (stray r).bind fun r => runBytes stray (Text.brokenLength (byte :: bytes) - 1) r bytes

end Reader

/-- The value of a JSON text that holds nothing else. -/
def read? (text : String) : Option Json :=
  (Reader.start.run text.toList).bind Reader.finish

/-- The value of a JSON text in UTF-8 that holds nothing else. Bytes that are no character spoil
only the literal that they stand in. -/
def readBytes? (bytes : ByteArray) : Option Json :=
  (Reader.runBytes Reader.stepStray 0 .start bytes.toList).bind Reader.finish

/-- Likewise, with U+FFFD in the place of bytes that are no character. -/
def readLossy? (bytes : ByteArray) : Option Json :=
  (Reader.runBytes (·.step '\uFFFD') 0 .start bytes.toList).bind Reader.finish

end Gatehouse.Json
