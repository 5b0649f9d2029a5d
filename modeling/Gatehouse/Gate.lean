import Gatehouse.Client
import Gatehouse.Http
import Gatehouse.Json
import Gatehouse.Metrics
import Gatehouse.Rules
import Gatehouse.Session
import Gatehouse.Version

/-! # The gate

Answers requests. The probes and the metrics are open to all; every other path is a page, for which
a session is established, the guard is asked, and the page is answered or the caller sent elsewhere.
What has no answer within a time limit is cut off wherever it stands. -/

namespace Gatehouse

/-! ## Page data

What a page is rendered from. Pages of the settings area also show the version block. -/

structure Page where
  user : Option User
  appConfig : Option AppConfig.Table
  version : Option Version.Report

namespace Page

def toJson (p : Page) : Json :=
  .object <|
    [Json.field "user" (p.user.elim .null User.toJson),
      Json.field "appConfig" (p.appConfig.elim .null AppConfig.Table.toJson)]
    ++ Json.optionalField "versionInformation" (p.version.map Version.Report.toJson)

def ofSession (s : Session) (version : Option Version.Report) : Page :=
  ⟨s.user, s.appConfig, version⟩

def isSettings (path : String) : Bool := Path.isWithin "/settings" path

end Page

/-! ## Answers -/

inductive Route where
  | health
  | metrics
  | page
  | nothing
  deriving DecidableEq, Repr

namespace Route

/-- What is registered under a path of its own. The page is registered for all paths. -/
def fixed : List (String × Route) :=
  [("/health", .health), ("/healthz", .health), ("/metrics", .metrics)]

def fixedPaths : List String := fixed.map (·.1)

def slashedPaths : List String := fixedPaths.map (· ++ "/")

/-- How a path is matched. It is compared as it is written and goes to the route of its own if it has
one. A slash behind such a path leads nowhere: what is registered for all paths does not take it. -/
def ofPath (path : String) : Route :=
  match fixed.lookup path with
  | some route => route
  | none =>
    if path ∈ slashedPaths then .nothing
    else match path.toList with
      | '/' :: _ => .page
      | _ => .nothing

end Route

/-- What the gate has done so far. -/
structure Activity where
  userLookups : Nat := 0
  configLookups : Nat := 0
  /-- The token of the latest user lookup. -/
  lastToken : Option Secret := none
  recordings : List Metrics.Recording := []

namespace Activity

def record (a : Activity) (r : Metrics.Recording) : Activity :=
  { a with recordings := a.recordings ++ [r] }

@[simp] theorem userLookups_record (a : Activity) (r : Metrics.Recording) :
    (a.record r).userLookups = a.userLookups := rfl

@[simp] theorem configLookups_record (a : Activity) (r : Metrics.Recording) :
    (a.record r).configLookups = a.configLookups := rfl

@[simp] theorem recordings_record (a : Activity) (r : Metrics.Recording) :
    (a.record r).recordings = a.recordings ++ [r] := rfl

end Activity

namespace Backend

def askUser (b : Backend) (token : Option Secret) : StateM Activity (Except ClientError User) :=
  fun a =>
    (b.currentUser token, { a with userLookups := a.userLookups + 1, lastToken := token })

def askConfig (b : Backend) (token : Option Secret) :
    StateM Activity (Except ClientError AppConfig.Table) :=
  fun a => (b.appConfig token, { a with configLookups := a.configLookups + 1 })

/-- Both lookups are made at the same time, and neither depends on the other. -/
def ask (b : Backend) (token : Option Secret) :
    StateM Activity (Except ClientError User × Except ClientError AppConfig.Table) := do
  return (← b.askUser token, ← b.askConfig token)

end Backend

namespace Session

/-- A lookup that fails leaves its part of the session empty. -/
def ofLookups (user : Except ClientError User) (appConfig : Except ClientError AppConfig.Table) :
    Session :=
  ⟨user.toOption, appConfig.toOption⟩

def establish (b : Backend) (token : Option Secret) : StateM Activity Session := do
  let (user, appConfig) ← b.ask token
  let session := ofLookups user appConfig
  modify fun a => a.record (.bootstrap session.user.isSome session.appConfig.isSome)
  return session

/-- How long a session takes to establish, by how long the two lookups take. -/
def waitingTime (user appConfig : Duration) : Duration :=
  ⟨max user.nanoseconds appConfig.nanoseconds⟩

end Session

def Backend.waitingTime (b : Backend) : Duration := Session.waitingTime b.userTime b.configTime

structure Gate where
  rules : Rules
  cookieName : String
  cache : Version.Cache
  /-- What is served to a collector of metrics. -/
  exposition : String := ""

structure Gate.State (σ : Type) where
  resources : Version.Resources σ
  activity : Activity := {}

namespace Gate

variable {σ : Type} [Store σ]

def healthResponse : Http.Response :=
  { status := 200, contentType := some "text/plain; charset=utf-8", body := "OK" }

def metricsResponse (g : Gate) : Http.Response :=
  { status := 200, contentType := some "text/plain; charset=utf-8", body := g.exposition }

def notFound : Http.Response := { status := 404 }

/-- The time within which a request has to be answered. -/
def timeLimit : Duration := .ofSeconds 30

def timedOut : Http.Response := { status := 408 }

def pageResponse (p : Page) : Http.Response :=
  { status := 200, contentType := some "application/json", body := p.toJson.compact }

/-- Sends the caller to another page. A response other than to GET and HEAD names these methods. -/
def redirectResponse (target method : String) : Http.Response where
  status := 303
  location := some target
  allow := if Http.isReading method then none else some "GET,HEAD"

/-- The page of a session at a path, if it is there within the given time. Pages of the settings area
look up the newest version. -/
def renderPage (g : Gate) (path : String) (s : Session) (time : Duration) (state : State σ) :
    Option Page × State σ :=
  if Page.isSettings path then
    match g.cache.newestWithin time state.resources with
    | .ok found =>
      (some (.ofSession s (some (g.cache.report found))),
        ⟨found.after, state.activity.record (.lookup found.outcome)⟩)
    | .error resources => (none, { state with resources })
  else (some (.ofSession s none), state)

/-- A page for a caller with the given session, in the time that is left. There is no answer where the
guard's target cannot be written into a header. -/
def answerPage (g : Gate) (request : Http.Request) (s : Session) (time : Duration)
    (state : State σ) : Option Http.Response × State σ :=
  let audience := g.rules.audience request.path
  let decision := g.rules.decisionFor audience s
  let state :=
    { state with activity := state.activity.record (.navigation audience decision.isRedirect) }
  match decision with
  | .redirect target =>
    if Http.Header.isSendable target then (some (redirectResponse target request.method), state)
    else (none, state)
  | .allow =>
    if Http.isReading request.method then
      let (page?, state) := g.renderPage request.path s time state
      (some (page?.elim timedOut fun page => (pageResponse page).forMethod request.method), state)
    else (some .notAllowed, state)

/-- Establishes the session of a caller and answers with the page. Where the backend takes too long
it has been asked, but there is no session. -/
def visitPage (g : Gate) (b : Backend) (request : Http.Request) (state : State σ) :
    Option Http.Response × State σ :=
  let token := Token.extract g.cookieName request.headers
  if b.waitingTime < timeLimit then
    let (session, activity) := Session.establish b token state.activity
    g.answerPage request session (timeLimit.minus b.waitingTime) { state with activity }
  else (some timedOut, { state with activity := (b.ask token state.activity).2 })

def route (g : Gate) (b : Backend) (request : Http.Request) (state : State σ) :
    Option Http.Response × State σ :=
  match Route.ofPath request.path with
  | .health => (some (healthResponse.forMethod request.method), state)
  | .metrics => (some (g.metricsResponse.forMethod request.method), state)
  | .nothing => (some notFound, state)
  | .page => g.visitPage b request state

/-- Answers a request and counts the answer. -/
def answer (g : Gate) (b : Backend) (request : Http.Request) (state : State σ) :
    Option Http.Response × State σ :=
  match g.route b request state with
  | (none, state) => (none, state)
  | (some response, state) =>
    (some response,
      { state with
          activity :=
            state.activity.record (.request request.method request.path response.status) })

/-- The requests to the backend that answering a request takes. -/
def outbound (g : Gate) (c : Client.Identity) (request : Http.Request) : List Http.Outbound :=
  if Route.ofPath request.path = .page then c.requests (Token.extract g.cookieName request.headers)
  else []

end Gate
end Gatehouse
