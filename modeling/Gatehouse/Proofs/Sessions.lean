import Gatehouse.Gate
import Mathlib.Data.List.Basic
import Mathlib.Logic.Function.Basic

/-! # Establishing sessions

The two lookups of a session fail apart from each other. Each of them gives its part of the session
just if its request can be sent and leads to a success status and a body that can be read. -/

namespace Gatehouse

namespace Client.Identity

/-! ## One lookup -/

/-- An exchange ended with a success status and a body that is read as the value. -/
inductive Delivers {α : Type} (read : Json → Option α) (value : α) : Http.Exchange → Prop where
  | success {status : Nat} {bytes : ByteArray} (low : 200 ≤ status) (high : status < 300)
    (body : (Json.readBytes? bytes).bind read = some value) :
    Delivers read value (.answered status (.whole bytes))

variable {α : Type} {read : Json → Option α} {value : α}

theorem isSuccess_of_interpret {status : Nat} {body : Http.Body}
    (interpreted : interpret read (.answered status body) = .ok value) :
    Http.isSuccess status = true := by
  by_contra refused
  simp only [interpret, refused, if_false] at interpreted
  split at interpreted <;> cases interpreted

theorem interpret_eq_ok_iff {exchange : Http.Exchange} :
    interpret read exchange = .ok value ↔ Delivers read value exchange := by
  constructor
  · intro interpreted
    cases exchange with
    | failed reason => cases interpreted
    | timedOut => cases interpreted
    | answered status body =>
        have success := isSuccess_of_interpret interpreted
        obtain ⟨low, high⟩ : 200 ≤ status ∧ status < 300 := by
          simpa [Http.isSuccess] using success
        simp only [interpret, success, if_true] at interpreted
        cases body with
        | whole bytes =>
            dsimp only at interpreted
            split at interpreted
            · next found body =>
              obtain rfl : found = value := Except.ok.inj interpreted
              exact .success low high body
            · cases interpreted
        | cut => cases interpreted
        | stalled => cases interpreted
  · rintro ⟨low, high, body⟩
    simp [interpret, Http.isSuccess, low, high, body]

namespace Query

variable {net net' : Http.Network}

/-- What a lookup finds rests on the exchanges of its own requests alone. -/
theorem run_congr {query : Query α}
    (same : ∀ request ∈ query.requests, net' request = net request) :
    query.run net' = query.run net := by
  cases query with
  | known found => rfl
  | ask request read => exact congrArg read (same request (List.mem_singleton_self request))

theorem run_update {query : Query α} {request : Http.Outbound}
    (other : request ∉ query.requests) (exchange : Http.Exchange) :
    query.run (Function.update net request exchange) = query.run net := by
  refine run_congr fun request' mem => Function.update_of_ne ?_ exchange net
  rintro rfl
  exact other mem

end Query

variable {c : Client.Identity} {net net' : Http.Network} {token : Option Secret}

theorem requests_get {path : String} :
    (c.get path token read).requests =
      if (c.request path token).isSendable then [c.request path token] else [] := by
  unfold get
  split <;> rfl

theorem run_get_eq_ok_iff {path : String} :
    (c.get path token read).run net = .ok value ↔
      (c.request path token).isSendable = true ∧
        Delivers read value (net (c.request path token)) := by
  unfold get
  split
  · next sendable => simp [Query.run, sendable, interpret_eq_ok_iff]
  · next unsendable => simp [Query.run, unsendable]

theorem currentUser_eq_ok_iff {user : User} :
    c.currentUser net token = .ok user ↔
      token.isSome = true ∧ (c.request userPath token).isSendable = true ∧
        Delivers User.ofJson? user (net (c.request userPath token)) := by
  cases token with
  | none => simp [currentUser, userQuery, Query.run]
  | some token => simp [currentUser, userQuery, run_get_eq_ok_iff]

theorem appConfig_eq_ok_iff {table : AppConfig.Table} :
    c.appConfig net token = .ok table ↔
      (c.request c.configPath token).isSendable = true ∧
        ∃ entries, Delivers AppConfig.Entry.listOfJson? entries (net (c.request c.configPath token)) ∧
          table = .ofEntries entries := by
  have found (entries : List AppConfig.Entry) :
      (c.configQuery token).run net = .ok entries ↔ _ := run_get_eq_ok_iff
  rw [appConfig]
  constructor
  · intro mapped
    cases outcome : (c.configQuery token).run net with
    | error e =>
        rw [outcome] at mapped
        cases mapped
    | ok entries =>
        rw [outcome] at mapped
        obtain ⟨sendable, delivered⟩ := (found entries).mp outcome
        exact ⟨sendable, entries, delivered, (Except.ok.inj mapped).symm⟩
  · rintro ⟨sendable, entries, delivered, rfl⟩
    rw [(found entries).mpr ⟨sendable, delivered⟩]
    rfl

/-! ## The requests -/

theorem userUrl_ne_configUrl :
    (c.request userPath token).url ≠ (c.request c.configPath token).url := by
  intro same
  have paths : userPath.toList = c.configPath.toList := by
    simpa [request] using congrArg String.toList same
  revert paths
  unfold configPath
  cases c.showAll <;> decide

theorem request_ne : c.request userPath token ≠ c.request c.configPath token :=
  fun same => userUrl_ne_configUrl (congrArg Http.Outbound.url same)

theorem requests_userQuery :
    (c.userQuery token).requests =
      if token.isSome ∧ (c.request userPath token).isSendable then [c.request userPath token]
      else [] := by
  cases token with
  | none => rfl
  | some token => simp [userQuery, requests_get]

theorem requests_configQuery :
    (c.configQuery token).requests =
      if (c.request c.configPath token).isSendable then [c.request c.configPath token] else [] :=
  requests_get

theorem requests_none : c.requests none = [c.request c.configPath none] := rfl

theorem configRequest_not_mem :
    c.request c.configPath token ∉ (c.userQuery token).requests := by
  rw [requests_userQuery]
  split
  · exact fun mem => request_ne (List.mem_singleton.mp mem).symm
  · exact List.not_mem_nil

theorem userRequest_not_mem :
    c.request userPath token ∉ (c.configQuery token).requests := by
  rw [requests_configQuery]
  split
  · exact fun mem => request_ne (List.mem_singleton.mp mem)
  · exact List.not_mem_nil

end Client.Identity

namespace Session

open Client.Identity

variable {c : Client.Identity} {net net' : Http.Network} {token : Option Secret} {a : Activity}

theorem user_eq_some_iff {user : User} :
    (establish (c.backend net) token a).1.user = some user ↔
      token.isSome = true ∧ (c.request userPath token).isSendable = true ∧
        Delivers User.ofJson? user (net (c.request userPath token)) := by
  rw [← currentUser_eq_ok_iff]
  show (c.currentUser net token).toOption = some user ↔ _
  cases c.currentUser net token <;> simp [Except.toOption]

theorem appConfig_eq_some_iff {table : AppConfig.Table} :
    (establish (c.backend net) token a).1.appConfig = some table ↔
      (c.request c.configPath token).isSendable = true ∧
        ∃ entries, Delivers AppConfig.Entry.listOfJson? entries (net (c.request c.configPath token)) ∧
          table = .ofEntries entries := by
  rw [← appConfig_eq_ok_iff]
  show (c.appConfig net token).toOption = some table ↔ _
  cases c.appConfig net token <;> simp [Except.toOption]

theorem user_congr (same : (c.userQuery token).run net' = (c.userQuery token).run net) :
    (establish (c.backend net') token a).1.user = (establish (c.backend net) token a).1.user :=
  congrArg Except.toOption same

theorem appConfig_congr (same : (c.configQuery token).run net' = (c.configQuery token).run net) :
    (establish (c.backend net') token a).1.appConfig =
      (establish (c.backend net) token a).1.appConfig := by
  show ((c.appConfig net' token).toOption = (c.appConfig net token).toOption)
  rw [Client.Identity.appConfig, Client.Identity.appConfig, same]

theorem establish_congr (same : ∀ request ∈ c.requests token, net' request = net request) :
    (establish (c.backend net') token a).1 = (establish (c.backend net) token a).1 := by
  have user := user_congr (a := a) <| Query.run_congr fun request mem =>
    same request (List.mem_append_left _ mem)
  have appConfig := appConfig_congr (a := a) <| Query.run_congr fun request mem =>
    same request (List.mem_append_right _ mem)
  exact congrArg₂ Session.mk user appConfig

/-- The exchanges of the requests that were made stand for the network they were made on. -/
theorem establish_ofExchanges :
    let done := (c.requests token).map fun request => (request, net request)
    (establish (c.backend (.ofExchanges done)) token a).1 =
      (establish (c.backend net) token a).1 := by
  refine establish_congr fun request mem => ?_
  rw [Http.Network.ofExchanges, List.lookup_graph net mem]
  rfl

/-- A session has a user just if there is a token and the request for the user can be sent and
succeeds, and a configuration just if the request for that does. Neither depends on how the other
request ends, and no other request is made. Without a token only the configuration is asked for. -/
theorem establish_isolated (c : Client.Identity) (token : Option Secret) (a : Activity) :
    let session (net : Http.Network) := (establish (c.backend net) token a).1
    let userRequest := c.request userPath token
    let configRequest := c.request c.configPath token
    (∀ net user, (session net).user = some user ↔
        token.isSome = true ∧ userRequest.isSendable = true ∧
          Delivers User.ofJson? user (net userRequest)) ∧
      (∀ net table, (session net).appConfig = some table ↔
        configRequest.isSendable = true ∧
          ∃ entries, Delivers AppConfig.Entry.listOfJson? entries (net configRequest) ∧
            table = .ofEntries entries) ∧
      (∀ net exchange,
        (session (Function.update net configRequest exchange)).user = (session net).user) ∧
      (∀ net exchange,
        (session (Function.update net userRequest exchange)).appConfig =
          (session net).appConfig) ∧
      userRequest.url ≠ configRequest.url ∧
      c.requests token =
        (if token.isSome ∧ userRequest.isSendable then [userRequest] else []) ++
          (if configRequest.isSendable then [configRequest] else []) ∧
      (token = none → c.requests token = [configRequest]) ∧
      ∀ net net', (∀ request ∈ c.requests token, net' request = net request) →
        session net' = session net := by
  intro session userRequest configRequest
  refine ⟨fun _ _ => user_eq_some_iff, fun _ _ => appConfig_eq_some_iff, ?user, ?appConfig,
    userUrl_ne_configUrl, ?requests, ?alone, fun _ _ => establish_congr⟩
  case user =>
    intro net exchange
    exact user_congr (Query.run_update configRequest_not_mem exchange)
  case appConfig =>
    intro net exchange
    exact appConfig_congr (Query.run_update userRequest_not_mem exchange)
  case requests =>
    rw [Client.Identity.requests, requests_userQuery, requests_configQuery]
  case alone =>
    rintro rfl
    exact requests_none

/-- The backend knows the user and is too slow for the configuration. The same exchanges without a
token make a session of nobody. -/
theorem establish_isolated_outage :
    let c : Client.Identity := { baseUrl := "http://api", cookieName := "token" }
    let token : Secret := ⟨"t=1"⟩
    let anna : User := { id := ⟨"u1"⟩, username := "anna" }
    let net : Http.Network := fun request =>
      if request.url = "http://api/users/me" then
        .answered 203 (.whole "\x7b\"username\":\"anna\",\"id\":\"u1\"\x7d".toUTF8)
      else .timedOut
    let session := (establish (c.backend net) (some token) {}).1
    let signedOut := (establish (c.backend net) none {}).1
    session.user = some anna ∧ session.appConfig = none ∧
      c.requests (some token) =
        [⟨"http://api/users/me", some "token=t=1", none, none⟩,
          ⟨"http://api/application-configuration", some "token=t=1", none, none⟩] ∧
      signedOut.user = none ∧
      c.requests none = [⟨"http://api/application-configuration", none, none, none⟩] := by
  intro c token anna net session signedOut
  obtain ⟨user, appConfig, -, -, -, requests, -⟩ := establish_isolated c (some token) {}
  obtain ⟨noUser, -, -, -, -, -, alone, -⟩ := establish_isolated c none {}
  have sendable : (c.request userPath (some token)).isSendable = true := by decide +kernel
  have delivered : Delivers User.ofJson? anna (net (c.request userPath (some token))) :=
    .success (by decide) (by decide) (by decide +kernel)
  refine ⟨(user net anna).mpr ⟨rfl, sendable, delivered⟩, ?_, requests.trans (by decide +kernel), ?_,
    alone rfl⟩
  · refine Option.eq_none_iff_forall_ne_some.mpr fun table found => ?_
    obtain ⟨-, entries, delivered, -⟩ := (appConfig net table).mp found
    cases delivered
  · refine Option.eq_none_iff_forall_ne_some.mpr fun user found => ?_
    cases ((noUser net user).mp found).1

end Session
end Gatehouse
