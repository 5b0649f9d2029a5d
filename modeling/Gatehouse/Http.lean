/-! # Requests and responses

What the gate is asked and what it answers, and what it asks other services in turn. -/

/-! ## Header fields

Header values are bytes. Only those of tabs and visible ASCII characters can be read as text; all
but control characters can be sent. -/

namespace Gatehouse.Http

structure Header where
  name : String
  value : ByteArray

namespace Header

/-- Names are compared without regard to case; `name` is in lower case. -/
def isNamed (h : Header) (name : String) : Bool := h.name.toLower = name

def isReadableByte (b : UInt8) : Bool := b = 0x09 || (0x20 ≤ b && b ≤ 0x7E)

def text? (value : ByteArray) : Option String :=
  if value.toList.all isReadableByte then String.fromUTF8? value else none

def isSendableByte (b : UInt8) : Bool := b = 0x09 || (0x20 ≤ b && b ≠ 0x7F)

/-- Whether a text can be the value of a header. -/
def isSendable (text : String) : Bool := text.toUTF8.toList.all isSendableByte

end Header

/-! ## Messages -/

structure Request where
  method : String
  /-- The request target: a path with query, or an absolute URI. -/
  target : String
  headers : List Header := []

structure Response where
  status : Nat
  location : Option String := none
  contentType : Option String := none
  allow : Option String := none
  body : String := ""
  deriving DecidableEq, Repr

/-- What follows the first `://`. -/
def afterScheme? : List Char → Option (List Char)
  | [] => none
  | c :: cs =>
    match cs with
    | '/' :: '/' :: rest => if c = ':' then some rest else afterScheme? cs
    | _ => if c = '/' ∨ c = '?' ∨ c = '#' then none else afterScheme? cs

/-- The path of a request target, without query and fragment and as it is written. An absolute URI
without a path asks for `/`; a target that is only an authority has no path. -/
def pathOf (target : List Char) : List Char :=
  let cut := target.takeWhile fun c => c ≠ '?' && c ≠ '#'
  match cut with
  | '/' :: _ => cut
  | ['*'] => cut
  | _ =>
    match afterScheme? cut with
    | none => []
    | some rest =>
      match rest.dropWhile (· ≠ '/') with
      | [] => ['/']
      | path => path

def Request.path (r : Request) : String := .ofList (pathOf r.target.toList)

/-- GET and HEAD, which read a page without changing anything. -/
def isReading (method : String) : Bool := method = "GET" || method = "HEAD"

/-- The answer to a method that a page does not support. -/
def Response.notAllowed : Response where
  status := 405
  allow := some "GET,HEAD"

/-- The answer of a page that can only be read: to HEAD without its body, and to all other methods
but GET not at all. -/
def Response.forMethod (content : Response) (method : String) : Response :=
  if method = "GET" then content
  else if method = "HEAD" then { content with body := "" }
  else .notAllowed

/-! ## Exchanges with other services

A request that the gate sends, and how sending it turns out once redirects have been followed. -/

structure Outbound where
  url : String
  cookie : Option String := none
  accept : Option String := none
  userAgent : Option String := none
  deriving DecidableEq, Repr

/-- The texts that go into headers fit there. -/
def Outbound.isSendable (o : Outbound) : Bool :=
  [o.cookie, o.accept, o.userAgent].all (·.all Header.isSendable)

/-- The body of an answer, as far as it arrived. -/
inductive Body where
  | whole (bytes : ByteArray)
  /-- The connection ended before the body did. -/
  | cut
  /-- The body did not end within the time allowed. -/
  | stalled

inductive Exchange where
  /-- No answer: the request could not be sent or the connection failed. -/
  | failed (reason : String)
  | timedOut
  | answered (status : Nat) (body : Body)

abbrev Network := Outbound → Exchange

def Network.unreachable : Network := fun _ => .failed "connection refused"

/-- The network of exchanges that have taken place, on which nothing else can be sent. -/
def Network.ofExchanges (done : List (Outbound × Exchange)) : Network := fun request =>
  (done.lookup request).getD (unreachable request)

def reasonPhrase? : Nat → Option String
  | 100 => some "Continue"
  | 101 => some "Switching Protocols"
  | 102 => some "Processing"
  | 200 => some "OK"
  | 201 => some "Created"
  | 202 => some "Accepted"
  | 203 => some "Non Authoritative Information"
  | 204 => some "No Content"
  | 205 => some "Reset Content"
  | 206 => some "Partial Content"
  | 207 => some "Multi-Status"
  | 208 => some "Already Reported"
  | 226 => some "IM Used"
  | 300 => some "Multiple Choices"
  | 301 => some "Moved Permanently"
  | 302 => some "Found"
  | 303 => some "See Other"
  | 304 => some "Not Modified"
  | 305 => some "Use Proxy"
  | 307 => some "Temporary Redirect"
  | 308 => some "Permanent Redirect"
  | 400 => some "Bad Request"
  | 401 => some "Unauthorized"
  | 402 => some "Payment Required"
  | 403 => some "Forbidden"
  | 404 => some "Not Found"
  | 405 => some "Method Not Allowed"
  | 406 => some "Not Acceptable"
  | 407 => some "Proxy Authentication Required"
  | 408 => some "Request Timeout"
  | 409 => some "Conflict"
  | 410 => some "Gone"
  | 411 => some "Length Required"
  | 412 => some "Precondition Failed"
  | 413 => some "Payload Too Large"
  | 414 => some "URI Too Long"
  | 415 => some "Unsupported Media Type"
  | 416 => some "Range Not Satisfiable"
  | 417 => some "Expectation Failed"
  | 418 => some "I'm a teapot"
  | 421 => some "Misdirected Request"
  | 422 => some "Unprocessable Entity"
  | 423 => some "Locked"
  | 424 => some "Failed Dependency"
  | 426 => some "Upgrade Required"
  | 428 => some "Precondition Required"
  | 429 => some "Too Many Requests"
  | 431 => some "Request Header Fields Too Large"
  | 451 => some "Unavailable For Legal Reasons"
  | 500 => some "Internal Server Error"
  | 501 => some "Not Implemented"
  | 502 => some "Bad Gateway"
  | 503 => some "Service Unavailable"
  | 504 => some "Gateway Timeout"
  | 505 => some "HTTP Version Not Supported"
  | 506 => some "Variant Also Negotiates"
  | 507 => some "Insufficient Storage"
  | 508 => some "Loop Detected"
  | 510 => some "Not Extended"
  | 511 => some "Network Authentication Required"
  | _ => none

def reason (status : Nat) : String := (reasonPhrase? status).getD "unknown error"

def isSuccess (status : Nat) : Bool := 200 ≤ status && status < 300

end Gatehouse.Http

/-! ## Failures of exchanges

Why a call to another service brought no answer. -/

namespace Gatehouse

inductive ClientError where
  /-- The backend refused the caller's credentials. -/
  | unauthorized
  | network (reason : String)
  | timeout
  /-- The body of the answer did not have the expected shape. -/
  | malformed (reason : String)
  | status (code : Nat) (reason : String)
  deriving DecidableEq, Repr

namespace ClientError

def message : ClientError → String
  | .unauthorized => "Not signed in"
  | .network reason => s!"Network failure: {reason}"
  | .timeout => "Request timed out"
  | .malformed reason => s!"Malformed response: {reason}"
  | .status code reason => s!"Unexpected status {code}: {reason}"

/-- A short label from a closed set. -/
def kind : ClientError → String
  | .unauthorized => "unauthorized"
  | .network _ => "network"
  | .timeout => "timeout"
  | .malformed _ => "malformed"
  | .status _ _ => "status"

end ClientError
end Gatehouse
