import Gatehouse.Decimal
import Gatehouse.Text
import Gatehouse.Time

/-! # Configuration

What the gate is configured with, read from nine environment variables. Each of them may be absent.
Of several invalid ones the first is reported, in the order in which they are read here. -/

namespace Gatehouse

abbrev Variables := String → Option String

inductive PositiveFault where
  | unreadable (text : String) (fault : Decimal.UnsignedFault)
  | zero
  deriving DecidableEq, Repr

def PositiveFault.message (variableName : String) : PositiveFault → String
  | .unreadable text fault =>
    s!"{variableName} must be a valid positive integer, got '{text}': {fault.message}"
  | .zero => s!"{variableName} must be greater than 0"

inductive ConfigurationError where
  | apiTimeout (fault : PositiveFault)
  | showAll (text : String)
  | cookieName (text : String)
  | feedTimeout (fault : PositiveFault)
  | cacheTtl (fault : PositiveFault)
  deriving DecidableEq, Repr

structure Configuration where
  bindAddress : String
  /-- Without slashes at its end. -/
  apiBaseUrl : String
  apiTimeoutSeconds : Nat
  showAllConfig : Bool
  cookieName : String
  feedUrl : String
  feedTimeoutMillis : Nat
  cacheTtlSeconds : Nat
  /-- The folder of the version cache, which otherwise stays in memory. -/
  cacheDir : Option String
  deriving DecidableEq, Repr

namespace Configuration

def bindAddressVariable : String := "BIND_ADDRESS"
def apiBaseUrlVariable : String := "API_BASE_URL"
def apiTimeoutVariable : String := "API_REQUEST_TIMEOUT_SECONDS"
def showAllVariable : String := "APP_CONFIG_SHOW_ALL"
def cookieNameVariable : String := "ACCESS_TOKEN_COOKIE_NAME"
def feedUrlVariable : String := "RELEASE_FEED_URL"
def feedTimeoutVariable : String := "RELEASE_FEED_TIMEOUT_MS"
def cacheTtlVariable : String := "VERSION_CACHE_TTL_SECONDS"
def cacheDirVariable : String := "VERSION_CACHE_DIR"

def variableNames : List String :=
  [bindAddressVariable, apiBaseUrlVariable, apiTimeoutVariable, showAllVariable,
    cookieNameVariable, feedUrlVariable, feedTimeoutVariable, cacheTtlVariable, cacheDirVariable]

def standard : Configuration where
  bindAddress := "0.0.0.0:3000"
  apiBaseUrl := "http://localhost:1411/api"
  apiTimeoutSeconds := 10
  showAllConfig := false
  cookieName := "__Host-access_token"
  feedUrl := "https://api.github.com/repos/pocket-id/pocket-id/releases/latest"
  feedTimeoutMillis := 2000
  cacheTtlSeconds := 7200
  cacheDir := none

def largest : Nat := 0xFFFFFFFFFFFFFFFF

def readPositive (text : String) : Except PositiveFault Nat :=
  match Decimal.readUnsigned largest text.toList with
  | .error fault => .error (.unreadable text fault)
  | .ok 0 => .error .zero
  | .ok n => .ok n

def positive (vars : Variables) (variableName : String) (default : Nat) :
    Except PositiveFault Nat :=
  match vars variableName with
  | none => .ok default
  | some text => readPositive text

def readBool (text : String) : Option Bool :=
  if text = "true" ∨ text = "1" then some true
  else if text = "false" ∨ text = "0" then some false
  else none

/-- Cookies of this name can be told apart in a request. -/
def isCookieName (name : String) : Bool :=
  !name.toList.isEmpty && name.toList.all fun c => !Text.isBlank c && c ≠ '=' && c ≠ ';'

def withoutTrailingSlashes (url : String) : String :=
  .ofList (url.toList.reverse.dropWhile (· = '/')).reverse

def orFail {ε α : Type} (wrap : ε → ConfigurationError) : Except ε α → Except ConfigurationError α
  | .ok value => .ok value
  | .error fault => .error (wrap fault)

def showAll (vars : Variables) : Except ConfigurationError Bool :=
  match vars showAllVariable with
  | none => .ok standard.showAllConfig
  | some text =>
    match readBool text with
    | some b => .ok b
    | none => .error (.showAll text)

def cookie (vars : Variables) : Except ConfigurationError String :=
  let name := (vars cookieNameVariable).getD standard.cookieName
  if isCookieName name then .ok name else .error (.cookieName name)

def load (vars : Variables) : Except ConfigurationError Configuration := do
  let apiTimeoutSeconds ←
    orFail .apiTimeout (positive vars apiTimeoutVariable standard.apiTimeoutSeconds)
  let showAllConfig ← showAll vars
  let cookieName ← cookie vars
  let feedTimeoutMillis ←
    orFail .feedTimeout (positive vars feedTimeoutVariable standard.feedTimeoutMillis)
  let cacheTtlSeconds ← orFail .cacheTtl (positive vars cacheTtlVariable standard.cacheTtlSeconds)
  return {
    bindAddress := (vars bindAddressVariable).getD standard.bindAddress
    apiBaseUrl := (vars apiBaseUrlVariable).elim standard.apiBaseUrl withoutTrailingSlashes
    apiTimeoutSeconds
    showAllConfig
    cookieName
    feedUrl := (vars feedUrlVariable).getD standard.feedUrl
    feedTimeoutMillis
    cacheTtlSeconds
    cacheDir := (vars cacheDirVariable).filter (· ≠ "") }

def apiTimeout (c : Configuration) : Duration := .ofSeconds c.apiTimeoutSeconds

def feedTimeout (c : Configuration) : Duration := .ofMillis c.feedTimeoutMillis

def cacheTtl (c : Configuration) : Duration := .ofSeconds c.cacheTtlSeconds

/-- The configuration as an operator sees it. The backend's URL may hold credentials and stays
hidden. -/
def shown (c : Configuration) : String :=
  "Config \x7b bind_address: " ++ Text.quoted c.bindAddress
    ++ ", api_base_url: \"[REDACTED]\", api_request_timeout_seconds: "
    ++ toString c.apiTimeoutSeconds
    ++ ", app_config_show_all: " ++ toString c.showAllConfig
    ++ ", access_token_cookie_name: " ++ Text.quoted c.cookieName
    ++ ", release_feed_url: " ++ Text.quoted c.feedUrl
    ++ ", release_feed_timeout_ms: " ++ toString c.feedTimeoutMillis
    ++ ", version_cache_ttl_seconds: " ++ toString c.cacheTtlSeconds
    ++ ", version_cache_dir: "
    ++ c.cacheDir.elim "None" (fun dir => "Some(" ++ Text.quoted dir ++ ")")
    ++ " \x7d"

end Configuration

def ConfigurationError.message : ConfigurationError → String
  | .apiTimeout fault =>
    "Invalid API request timeout configuration: "
      ++ fault.message Configuration.apiTimeoutVariable
  | .showAll text => s!"Invalid boolean for {Configuration.showAllVariable}: {text}"
  | .cookieName text =>
    s!"Invalid access token cookie name: {Configuration.cookieNameVariable} "
      ++ s!"must be a non-empty cookie token, got '{text}'"
  | .feedTimeout fault =>
    "Invalid release feed timeout configuration: "
      ++ fault.message Configuration.feedTimeoutVariable
  | .cacheTtl fault =>
    "Invalid version cache TTL configuration: " ++ fault.message Configuration.cacheTtlVariable

end Gatehouse
