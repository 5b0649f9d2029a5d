import Gatehouse.AppConfig
import Gatehouse.Http
import Gatehouse.Json
import Gatehouse.Text

/-! # Sessions

Who is calling, and the application configuration in force. A session is made anew for every
request and never changed. -/

namespace Gatehouse

/-! ## Secrets

A credential that is shown as its kind and never as itself, wherever it is written out for an
operator. -/

structure Secret where
  /-- The credential itself, for the one place where it goes onto the wire. -/
  expose : String
  deriving DecidableEq

def Secret.shown (_ : Secret) : String := "SecretBox<str>([REDACTED])"

end Gatehouse

/-! ## Access tokens in requests

The access token of a caller stands in a cookie, or else in an `Authorization` header with the
scheme `Bearer`. An empty token is no token. -/

namespace Gatehouse.Token

/-- The pieces of a text between the separators, of which there is always at least one. -/
def pieces (separator : Char) : List Char → List (List Char)
  | [] => [[]]
  | c :: cs =>
    if c = separator then [] :: pieces separator cs
    else match pieces separator cs with
      | [] => [[c]]
      | piece :: rest => (c :: piece) :: rest

def splitOnce (separator : Char) : List Char → Option (List Char × List Char)
  | [] => none
  | c :: cs =>
    if c = separator then some ([], cs)
    else (splitOnce separator cs).map fun (before, after) => (c :: before, after)

def pair? (piece : List Char) : Option (List Char × List Char) := splitOnce '=' (Text.trim piece)

def pairs (cookies : List Char) : List (List Char × List Char) :=
  (pieces ';' cookies).filterMap pair?

/-- The value of the first cookie of that name whose value is not empty. -/
def inCookies (cookieName : String) (headers : List Http.Header) : Option (List Char) :=
  let texts := (headers.filter (·.isNamed "cookie")).filterMap fun h => Http.Header.text? h.value
  ((texts.flatMap fun t => pairs t.toList).find?
    fun (name, value) => name = cookieName.toList && !value.isEmpty).map (·.2)

def afterBearer? (text : List Char) : Option (List Char) :=
  let scheme := "Bearer ".toList
  if scheme.isPrefixOf text then some (text.drop scheme.length) else none

/-- The token of the first `Authorization` header. -/
def inAuthorization (headers : List Http.Header) : Option (List Char) := do
  let header ← headers.find? (·.isNamed "authorization")
  let text ← Http.Header.text? header.value
  let token := Text.trim (← afterBearer? text.toList)
  if token.isEmpty then none else some token

def extract (cookieName : String) (headers : List Http.Header) : Option Secret :=
  ((inCookies cookieName headers).or (inAuthorization headers)).map fun t => ⟨.ofList t⟩

end Gatehouse.Token

/-! ## User accounts

An account as the identity backend describes it. Only its presence and `isAdmin` take part in
decisions; all else is handed on to the page. -/

namespace Gatehouse

/-- Identifier of an account, issued by the backend and only ever repeated. -/
structure UserId where
  text : String
  deriving DecidableEq, Repr

namespace UserId

def toJson (id : UserId) : Json := .text id.text

def ofJson? (v : Json) : Option UserId := v.text?.map UserId.mk

end UserId

structure User where
  id : UserId
  username : String
  email : Option String := none
  firstName : String := ""
  lastName : Option String := none
  isAdmin : Bool := false
  locale : Option String := none
  disabled : Bool := false
  deriving DecidableEq, Repr

namespace User

def fieldNames : List String :=
  ["id", "username", "email", "firstName", "lastName", "isAdmin", "locale", "disabled"]

def ofJson? (v : Json) : Option User :=
  match v.fields? fieldNames with
  | some [id, username, email, firstName, lastName, isAdmin, locale, disabled] => do
    return {
      id := ← Json.required UserId.ofJson? id
      username := ← Json.required Json.text? username
      email := ← Json.defaulted Json.nullableText? none email
      firstName := ← Json.defaulted Json.text? "" firstName
      lastName := ← Json.defaulted Json.nullableText? none lastName
      isAdmin := ← Json.defaulted Json.bool? false isAdmin
      locale := ← Json.defaulted Json.nullableText? none locale
      disabled := ← Json.defaulted Json.bool? false disabled }
  | _ => none

def toJson (u : User) : Json :=
  .object <|
    [Json.field "id" u.id.toJson, Json.field "username" (.text u.username)]
    ++ Json.optionalField "email" (u.email.map .text)
    ++ [Json.field "firstName" (.text u.firstName)]
    ++ Json.optionalField "lastName" (u.lastName.map .text)
    ++ [Json.field "isAdmin" (.bool u.isAdmin)]
    ++ Json.optionalField "locale" (u.locale.map .text)
    ++ [Json.field "disabled" (.bool u.disabled)]

end User

/-! ## Sessions -/

structure Session where
  /-- Nobody is signed in where there is no user. -/
  user : Option User := none
  /-- Absent when the configuration could not be fetched. -/
  appConfig : Option AppConfig.Table := none

namespace Session

def isSignedIn (s : Session) : Bool := s.user.isSome

def isAdmin (s : Session) : Bool := s.user.any (·.isAdmin)

def toJson (s : Session) : Json :=
  .object
    [Json.field "user" (s.user.elim .null User.toJson),
      Json.field "appConfig" (s.appConfig.elim .null AppConfig.Table.toJson)]

end Session
end Gatehouse
