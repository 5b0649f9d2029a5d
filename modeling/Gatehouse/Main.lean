import Gatehouse.Client
import Gatehouse.Files
import Gatehouse.Gate
import Gatehouse.Http.Connection
import Gatehouse.Launch
import Gatehouse.Metrics
import Gatehouse.Store
import Std.Async.DNS
import Std.Async.Signal
import Std.Async.TCP
import Std.Http.Server

/-! # The program

Listens on the configured address and serves the gate over HTTP until it is asked to stop. What is
decided is decided elsewhere: here bytes, files and the time are only fetched and handed on. -/

namespace Gatehouse.Program

open Std.Async

/-! Files -/

def fault : IO.Error → FileFault
  | .noFileOrDirectory .. => .missing
  | .alreadyExists .. => .alreadyExists
  | .inappropriateType _ number reason | .invalidArgument _ number reason
  | .permissionDenied _ number reason | .resourceExhausted _ number reason =>
    .other s!"{reason} (os error {number})"
  | e => .other e.toString

def folders : Folders IO where
  make path := do
    try
      IO.FS.createDir path.text
      return .ok ()
    catch e => return .error (fault e)
  isFolder path := (System.mkFilePath [path.text]).isDir

def fileName : String := Store.Folder.fileName Version.Cache.key

/-- The entries of a folder, of which only the file of the version cache is of interest. -/
def readEntries (dir : String) : IO Entries := do
  try
    return [(fileName, .file (← IO.FS.readBinFile (joinPaths dir fileName)))]
  catch _ => return []

/-- Makes the changes between two states of a folder. -/
def update (dir : String) (before after : Store.Folder) : IO Unit := do
  let cached? (f : Store.Folder) := (f.read fileName).toOption
  let path := joinPaths dir fileName
  match cached? before, cached? after with
  | none, none => return
  | some _, none => IO.FS.removeFile path
  | old?, some new =>
    unless old? == some new do
      let temporary := joinPaths dir (Entries.temporaryName ((← IO.monoNanosNow) % 900000))
      IO.FS.writeBinFile temporary new
      try IO.FS.rename temporary path
      catch e =>
        IO.FS.removeFile temporary
        throw e

/-- Opening a store among the files of this machine. What cannot be purged stays. -/
def onDisk : Launch.Opening IO := fun cache dir => do
  match ← folders.ensure dir with
  | .error fault => return .error (.io fault.message)
  | .ok _ =>
    let before : Store.Folder := ⟨.ok (← readEntries dir)⟩
    try update dir before (cache.purgeIfUpgraded before).2 catch _ => pure ()
    return .ok ()

def systemTime : IO Instant := do
  return Int64.ofInt (← Std.Time.Timestamp.now).toMillisecondsSinceUnixEpoch.val

/-! Connections to other services -/

/-- Waits for something, but not past a point in time. -/
def untilTime {α : Type} (deadline : Nat) (selector : Selector α) : Async (Option α) := do
  let left := deadline - (← IO.monoMsNow)
  Selectable.one #[
    .case selector fun value => return some value,
    .case (← Selector.sleep (.ofNat left)) fun _ => return none]

def connect (d : Http.Destination) : Async TCP.Socket.Client := do
  let port := d.port.toUInt16
  for host in ← DNS.getAddrInfo d.host (toString d.port) do
    let socket ← TCP.Socket.Client.mk
    try
      match host with
      | .v4 addr => socket.connect (.v4 ⟨addr, port⟩)
      | .v6 addr => socket.connect (.v6 ⟨addr, port⟩)
      return socket
    catch _ => continue
  throw (.userError "no connection")

/-- Receives until there is something to tell about the exchange. -/
partial def receive (deadline : Nat) (socket : TCP.Socket.Client) (received : ByteArray) :
    Async (Http.Exchange × Option String) := do
  let piece ← untilTime deadline (socket.recvSelector 65536)
  let received := received ++ (piece.bind id).getD .empty
  let closed := piece.any (·.isNone)
  match Http.Received.exchange? ⟨received.toList, closed⟩ piece.isNone with
  | some result => return result
  | none => receive deadline socket received

/-- An exchange with a service, and with those that it redirects to, at most as many as given. -/
def follow (deadline redirects : Nat) (request : Http.Outbound) (d : Http.Destination) :
    Async Http.Exchange := do
  let socket ← connect d
  socket.send (request.written d).toUTF8
  match ← receive deadline socket .empty with
  | (exchange, none) => return exchange
  | (_, some location) =>
    match redirects, d.redirected? location with
    | 0, _ => return .failed "too many redirects"
    | _, none => return .failed "no service at this URL"
    | redirects + 1, some other => follow deadline redirects (request.redirected d other) other

/-- The whole exchange that a request leads to, which is given up after either of two times. -/
def exchange (limit other : Duration) (request : Http.Outbound) : Async Http.Exchange := do
  let limit := if other < limit then other else limit
  let deadline := (← IO.monoMsNow) + limit.wholeMillis + 1
  match Http.Destination.ofUrl? request.url with
  | none => return .failed "no service at this URL"
  | some d =>
    try
      follow deadline 10 request d
    catch e => return .failed e.toString

/-! Requests -/

/-- A gate at work, with the store that its version cache is kept in. -/
structure Service (σ : Type) where
  configuration : Configuration
  totals : IO.Ref Metrics.Totals
  load : IO σ
  save : σ → σ → IO Unit

namespace Service

variable {σ : Type} [Store σ]

def gate (s : Service σ) : IO Gate := do
  return {
    rules := .standard
    cookieName := s.configuration.cookieName
    cache := ⟨Version.thisBuild, s.configuration.cacheTtl⟩
    exposition := (← s.totals.get).exposition }

def identity (s : Service σ) : Client.Identity where
  baseUrl := s.configuration.apiBaseUrl
  cookieName := s.configuration.cookieName
  showAll := s.configuration.showAllConfig

def count (s : Service σ) (recordings : List Metrics.Recording) (bootstrap whole : Duration) :
    IO Unit :=
  s.totals.modify fun totals =>
    totals.grow <| recordings.flatMap fun recording =>
      let duration := match recording with
        | .bootstrap _ _ => bootstrap
        | _ => whole
      recording.samples ++ recording.buckets duration

/-- Answers a request. The release feed is asked only where the answer takes it. No service is waited
for past the time within which the request has to be answered. -/
def answer (s : Service σ) (request : Http.Request) : Async (Option Http.Response) := do
  let begun ← IO.monoNanosNow
  let elapsed : Async Duration := return ⟨(← IO.monoNanosNow) - begun⟩
  let gate ← s.gate
  let outbound := gate.outbound s.identity request
  let exchanges ← Async.concurrentlyAll
    (outbound.toArray.map (exchange s.configuration.apiTimeout Gate.timeLimit))
  let waited ← elapsed
  let answered := s.identity.backend (.ofExchanges (outbound.zip exchanges.toList))
  let backend : Backend := { answered with userTime := waited, configTime := waited }
  let before ← s.load
  let asked ← systemTime
  let attempt (feed : Version.Feed) : Option Http.Response × Gate.State σ :=
    gate.answer backend request ⟨⟨before, feed, asked⟩, {}⟩
  let unasked := attempt (.replaying [])
  let (response, after) ←
    if unasked.2.resources.feed.calls = 0 then pure unasked
    else do
      let release : Client.Release := ⟨s.configuration.feedUrl⟩
      let left := Gate.timeLimit.minus waited
      let tag := Client.Release.interpret
        (← exchange s.configuration.feedTimeout left release.request)
      let returned ← systemTime
      let taken := (← elapsed).minus waited
      pure (attempt { Version.Feed.replaying [tag] with
        returned := fun _ _ => returned
        taking := fun _ => taken })
  s.save before after.resources.store
  s.count after.activity.recordings waited (← elapsed)
  return response

end Service

def readRequest (head : Std.Http.Request.Head) : Http.Request where
  method := toString head.method
  target := toString head.uri
  headers := head.headers.toList.map fun (name, value) =>
    ⟨toString name, (toString value).toUTF8⟩

def writeResponse (r : Http.Response) : Async (Std.Http.Response Std.Http.Body.Any) := do
  let fields := [("location", r.location), ("content-type", r.contentType), ("allow", r.allow)]
  let builder := Std.Http.Response.withStatus
    ((Std.Http.Status.ofCode none r.status.toUInt16).getD .internalServerError)
  let builder := fields.foldl
    (fun builder (name, value) => ((value.bind (builder.header? name ·)).getD builder)) builder
  return (← builder.fromBytes r.body.toUTF8 : Std.Http.Response Std.Http.Body.Full)

instance {σ : Type} [Store σ] : Std.Http.Server.Handler (Service σ) where
  onRequest s request := do
    match ← s.answer (readRequest request.line) with
    | some response => writeResponse response
    | none => throw (.userError "the target of a redirect cannot be sent")

/-! Starting and stopping -/

def listenAddress (a : SocketAddress) : Std.Net.SocketAddress :=
  match a.host with
  | .four octets =>
    let octet (i : Nat) : UInt8 := (octets.getD i 0).toUInt8
    .v4 ⟨.ofParts (octet 0) (octet 1) (octet 2) (octet 3), a.port.toUInt16⟩
  | .six groups _ =>
    let group (i : Nat) : UInt16 := (groups.getD i 0).toUInt16
    .v6 ⟨.ofParts (group 0) (group 1) (group 2) (group 3) (group 4) (group 5) (group 6) (group 7),
      a.port.toUInt16⟩

/-- Serves until a signal to stop arrives. -/
def serve {σ : Type} [Store σ] (address : SocketAddress) (s : Service σ) : Async Unit := do
  let server ← Std.Http.Server.serve (listenAddress address) s
  let interrupt ← Signal.Waiter.mk .sigint false
  let terminate ← Signal.Waiter.mk .sigterm false
  Selectable.one #[.case interrupt.selector pure, .case terminate.selector pure]
  server.shutdownAndWait

def serveConfigured (c : Configuration) (address : SocketAddress) : Async Unit := do
  let totals ← IO.mkRef {}
  match c.cacheDir with
  | none =>
    let memory ← IO.mkRef ({} : Store.Memory)
    serve address ⟨c, totals, memory.get, fun _ after => memory.set after⟩
  | some dir =>
    let load := return ⟨.ok (← readEntries dir)⟩
    serve address ⟨c, totals, load, fun before after => do
      try update dir before after catch _ => return⟩

def environment : IO Variables := do
  let mut values : List (String × String) := []
  for name in Configuration.variableNames do
    if let some value ← IO.getEnv name then values := (name, value) :: values
  return (values.lookup ·)

/-- Starts and serves. A failure is reported and ends with 1. -/
def run : IO UInt32 := do
  let fail (e : LaunchError) : IO UInt32 := do
    IO.eprintln e.report
    return 1
  match ← Launch.start onDisk Version.thisBuild (← environment) with
  | .error e => fail e
  | .ok (c, address) =>
    try
      (serveConfigured c address).block
      return 0
    catch e => fail (.gate (.bind e.toString))

end Gatehouse.Program

def main : IO UInt32 := Gatehouse.Program.run
