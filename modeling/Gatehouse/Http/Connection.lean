import Gatehouse.Decimal
import Gatehouse.Http
import Gatehouse.Text

/-! # Connections to other services

Where a URL leads, how a request is written onto a connection, and how the answer is read from the
bytes that came back on it. A connection serves one request. -/

namespace Gatehouse.Http

/-- A service, and what is asked of it. -/
structure Destination where
  host : String
  port : Nat
  target : String
  deriving DecidableEq, Repr

namespace Destination

def after? (start : String) (text : List Char) : Option (List Char) :=
  if start.toList.isPrefixOf text then some (text.drop start.length) else none

def port? : List Char → Option Nat
  | [] => some 80
  | c :: digits =>
    if c = ':' then (Decimal.readUnsigned 65535 digits).toOption else none

/-- The host, which is in brackets where it has colons of its own, and what follows it. -/
def splitHost : List Char → List Char × List Char
  | [] => ([], [])
  | '[' :: cs => (cs.takeWhile (· ≠ ']'), (cs.dropWhile (· ≠ ']')).drop 1)
  | cs => cs.span (· ≠ ':')

/-- What is asked of a service, without the fragment. Blanks and characters beyond ASCII have to be
escaped before. -/
def target? (text : List Char) : Option String :=
  let text := text.takeWhile (· ≠ '#')
  if text.all fun c => '!' ≤ c && c ≤ '~' then
    some <| .ofList <| match text with
      | '/' :: _ => text
      | _ => '/' :: text
  else none

/-- Where a URL leads. Connections are not encrypted, so that only `http` leads anywhere. -/
def ofUrl? (url : String) : Option Destination := do
  let rest ← after? "http://" url.toList
  let (authority, target) := rest.span fun c => c ≠ '/' && c ≠ '?' && c ≠ '#'
  let (host, port) := splitHost authority
  guard (!host.isEmpty)
  return ⟨.ofList host, ← port? port, ← target? target⟩

/-- Where a redirect leads: to another URL, or to another target of the same service. -/
def redirected? (d : Destination) (location : String) : Option Destination :=
  match location.toList with
  | '/' :: '/' :: _ => ofUrl? ("http:" ++ location)
  | '/' :: rest => (target? ('/' :: rest)).map fun target => { d with target }
  | _ => ofUrl? location

end Destination

def headerLine (name : String) (value : Option String) : String :=
  value.elim "" fun value => name ++ ": " ++ value ++ "\r\n"

def Outbound.written (o : Outbound) (d : Destination) : String :=
  "GET " ++ d.target ++ " HTTP/1.1\r\n"
    ++ headerLine "host" (some (d.host ++ ":" ++ toString d.port))
    ++ headerLine "accept" (some (o.accept.getD "*/*"))
    ++ headerLine "cookie" o.cookie
    ++ headerLine "user-agent" o.userAgent
    ++ headerLine "connection" (some "close")
    ++ "\r\n"

/-- The request that follows a redirect. A credential is not told to another service. -/
def Outbound.redirected (o : Outbound) (d other : Destination) : Outbound :=
  if d.host = other.host ∧ d.port = other.port then o else { o with cookie := none }

/-- What was received on a connection, and whether it has been closed since. -/
structure Received where
  bytes : List UInt8
  closed : Bool

namespace Received

def line? : List UInt8 → Option (List Char × List UInt8)
  | 13 :: 10 :: rest => some ([], rest)
  | b :: rest => (line? rest).map fun (cs, rest) => (Char.ofNat b.toNat :: cs, rest)
  | [] => none

/-- The lines up to the first empty one, of which there are at most `most`, and what follows. -/
def lines? : (most : Nat) → List UInt8 → Option (List (List Char) × List UInt8)
  | 0, _ => none
  | most + 1, bytes => do
    let (line, rest) ← line? bytes
    if line.isEmpty then return ([], rest)
    let (lines, rest) ← lines? most rest
    return (line :: lines, rest)

def headerLimit : Nat := 100

def field (line : List Char) : String × String :=
  let (name, value) := line.span (· ≠ ':')
  ((String.ofList name).toLower, .ofList ((value.drop 1).dropWhile (· = ' ')))

structure Head where
  status : Nat
  fields : List (String × String)

def statusOf? (line : List Char) : Option Nat := do
  let rest ← Destination.after? "HTTP/1." line
  ((rest.drop 2).take 3).foldlM (fun status c => (Decimal.digit? c).map (status * 10 + ·)) 0

def head? (bytes : List UInt8) : Option (Head × List UInt8) := do
  let (lines, rest) ← lines? headerLimit bytes
  return (⟨← statusOf? (← lines.head?), (lines.drop 1).map field⟩, rest)

namespace Head

def field? (h : Head) (name : String) : Option String := h.fields.lookup name

/-- The service that the answer sends the caller to. -/
def redirect? (h : Head) : Option String :=
  if h.status ∈ [301, 302, 303, 307, 308] then h.field? "location" else none

def isChunked (h : Head) : Bool :=
  (h.field? "transfer-encoding").any fun codings => codings.toLower = "chunked"

/-- How many bytes the body has, where the head tells. -/
def length? (h : Head) : Option Nat :=
  if h.status = 204 ∨ h.status = 304 then some 0
  else (h.field? "content-length").bind fun n =>
    (Decimal.readUnsigned 0xFFFFFFFFFFFFFFFF n.toList).toOption

end Head

/-- The size of a chunk, which is written in hexadecimal and can be followed by extensions. -/
def chunkSize? (line : List Char) : Option Nat :=
  match line.takeWhile fun c => c ≠ ';' && c ≠ ' ' with
  | [] => none
  | digits => digits.foldlM (fun size c => (Text.hexDigit? c).map (size * 16 + ·)) 0

/-- The bytes of a body in at most `most` chunks, of which the last one is empty. -/
def chunks? : (most : Nat) → List UInt8 → Option (List UInt8)
  | 0, _ => none
  | most + 1, bytes => do
    let (line, rest) ← line? bytes
    match ← chunkSize? line with
    | 0 => return []
    | size =>
      guard (size + 2 ≤ rest.length)
      return rest.take size ++ (← chunks? most (rest.drop (size + 2)))

/-- The bytes of a body, if all of them have been received. -/
def body? (h : Head) (rest : List UInt8) (closed : Bool) : Option (List UInt8) :=
  if h.isChunked then chunks? rest.length rest
  else match h.length? with
    | some length => if length ≤ rest.length then some (rest.take length) else none
    | none => if closed then some rest else none

/-- The exchange that has taken place, and where it is to be continued. There is nothing to tell
before the answer is complete, the connection is closed, or the time is up. -/
def exchange? (r : Received) (timeIsUp : Bool) : Option (Exchange × Option String) :=
  match head? r.bytes with
  | none =>
    if r.closed then some (.failed "connection closed before message completed", none)
    else if timeIsUp then some (.timedOut, none)
    else none
  | some (head, rest) =>
    match body? head rest r.closed with
    | some bytes => some (.answered head.status (.whole ⟨bytes.toArray⟩), head.redirect?)
    | none =>
      if r.closed then some (.answered head.status .cut, head.redirect?)
      else if timeIsUp then some (.answered head.status .stalled, head.redirect?)
      else none

end Received
end Gatehouse.Http
