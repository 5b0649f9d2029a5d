import Gatehouse.Http
import Gatehouse.Json
import Gatehouse.Session
import Gatehouse.Text
import Gatehouse.Time
import Gatehouse.Version

/-! # Calls to other services

The identity backend and the release feed, asked over HTTP. -/

namespace Gatehouse

/-! ## The identity backend

Who the caller is and what the application configuration is, asked from the backend's REST API. The
caller's access token is handed on as the cookie that the backend reads it from. -/

/-- The two lookups of a session, as functions of the access token, and the time that each takes. -/
structure Backend where
  currentUser : Option Secret → Except ClientError User
  appConfig : Option Secret → Except ClientError AppConfig.Table
  userTime : Duration := ⟨0⟩
  configTime : Duration := ⟨0⟩

def Backend.constant (user : Except ClientError User)
    (appConfig : Except ClientError AppConfig.Table) : Backend where
  currentUser _ := user
  appConfig _ := appConfig

namespace Client

def errorText? (body : Http.Body) : Option String :=
  match body with
  | .whole bytes => do
    let fields ← (← Json.readLossy? bytes).fields? ["error"]
    match fields with
    | [text] => Json.required Json.text? text
    | _ => none
  | .cut | .stalled => none

/-- A lookup: what it finds is known at once, or it is read from the exchange that a request leads
to. -/
inductive Query (α : Type) where
  | known (found : Except ClientError α)
  | ask (request : Http.Outbound) (read : Http.Exchange → Except ClientError α)

namespace Query

variable {α : Type}

def requests : Query α → List Http.Outbound
  | known _ => []
  | ask request _ => [request]

def run (net : Http.Network) : Query α → Except ClientError α
  | known found => found
  | ask request read => read (net request)

end Query

structure Identity where
  /-- The root of the API, to which the paths are appended. -/
  baseUrl : String
  cookieName : String
  /-- Ask for all of the configuration, and not only for its public part. -/
  showAll : Bool := false

namespace Identity

def userPath : String := "/users/me"

def configPath (c : Identity) : String :=
  if c.showAll then "/application-configuration/all" else "/application-configuration"

def cookie (c : Identity) (token : Secret) : String := c.cookieName ++ "=" ++ token.expose

def request (c : Identity) (path : String) (token : Option Secret) : Http.Outbound where
  url := c.baseUrl ++ path
  cookie := token.map c.cookie

def interpret {α : Type} (read : Json → Option α) : Http.Exchange → Except ClientError α
  | .failed reason => .error (.network reason)
  | .timedOut => .error .timeout
  | .answered status body =>
    if Http.isSuccess status then
      match body with
      | .whole bytes =>
        match (Json.readBytes? bytes).bind read with
        | some value => .ok value
        | none => .error (.malformed "error decoding response body")
      | .cut | .stalled => .error (.malformed "error decoding response body")
    else if status = 401 ∨ status = 403 then .error .unauthorized
    else .error (.status status ((errorText? body).getD (Http.reason status)))

/-- Asks for what is read from a body. A cookie that does not fit into a header is not sent. -/
def get {α : Type} (c : Identity) (path : String) (token : Option Secret)
    (read : Json → Option α) : Query α :=
  if (c.request path token).isSendable then .ask (c.request path token) (interpret read)
  else .known (.error (.network "invalid header value"))

/-- Without a token there is nobody to look up. -/
def userQuery (c : Identity) (token : Option Secret) : Query User :=
  if token.isNone then .known (.error .unauthorized) else c.get userPath token User.ofJson?

def configQuery (c : Identity) (token : Option Secret) : Query (List AppConfig.Entry) :=
  c.get c.configPath token AppConfig.Entry.listOfJson?

/-- The requests of the two lookups. -/
def requests (c : Identity) (token : Option Secret) : List Http.Outbound :=
  (c.userQuery token).requests ++ (c.configQuery token).requests

def currentUser (c : Identity) (net : Http.Network) (token : Option Secret) :
    Except ClientError User :=
  (c.userQuery token).run net

def appConfig (c : Identity) (net : Http.Network) (token : Option Secret) :
    Except ClientError AppConfig.Table :=
  ((c.configQuery token).run net).map .ofEntries

def backend (c : Identity) (net : Http.Network) : Backend where
  currentUser := c.currentUser net
  appConfig := c.appConfig net

end Identity
end Client
end Gatehouse

/-! ## The release feed over HTTP

The latest release is a JSON record, of which only the tag is used. A blank tag is refused. -/

namespace Gatehouse.Client

structure Release where
  url : String

namespace Release

def userAgent : String := "session-gate/0.1.0"

def request (c : Release) : Http.Outbound where
  url := c.url
  accept := some "application/json"
  userAgent := some userAgent

def tagOfJson? (v : Json) : Option String :=
  match v.fields? ["tag_name"] with
  | some [tag] => Json.required Json.text? tag
  | _ => none

def interpret : Http.Exchange → Except ClientError String
  | .failed reason => .error (.network reason)
  | .timedOut => .error .timeout
  | .answered status body =>
    if Http.isSuccess status then
      match body with
      | .whole bytes =>
        match (Json.readBytes? bytes).bind tagOfJson? with
        | some tag =>
          if (Text.trim tag.toList).isEmpty then .error (.malformed "empty tag_name") else .ok tag
        | none => .error (.malformed "error decoding response body")
      | .cut => .error (.malformed "error decoding response body")
      | .stalled => .error .timeout
    else .error (.status status (Http.reason status))

def latestTag (c : Release) (net : Http.Network) : Except ClientError String :=
  interpret (net c.request)

/-- The feed that a sequence of networks, one for each call, makes. -/
def feed (c : Release) (nets : Nat → Http.Network) : Version.Feed where
  outcome n := c.latestTag (nets n)

end Release
end Gatehouse.Client
