import Gatehouse.Session

/-! # Route rules

Whom a page is for. Three families of rules are given and all else is for signed-in users: roots
only for callers that are signed out, public paths, and roots for administrators. The rules also
name the page to sign in on and the page that signed-in callers are sent to. -/

/-! ## Paths

A path is compared segment by segment: a root covers itself and what lies below it, and never a path
that only begins with the same letters. Paths are taken as they are written, without decoding. -/

namespace Gatehouse.Path

/-- The path with its query and fragment cut off. -/
def bare (path : List Char) : List Char :=
  path.takeWhile fun c => c ≠ '?' && c ≠ '#'

/-- `covers root path`: the root begins the path, and the path ends there or goes on with `/`. -/
def covers : List Char → List Char → Bool
  | [], [] => true
  | [], c :: _ => c = '/'
  | _ :: _, [] => false
  | r :: root, c :: path => r = c && covers root path

def withoutQuery (path : String) : String := .ofList (bare path.toList)

def isWithin (root path : String) : Bool := covers root.toList path.toList

end Gatehouse.Path

/-! ## Rules and their families -/

namespace Gatehouse

inductive Audience where
  | signedOut
  | everyone
  | administrators
  | users
  deriving DecidableEq, Repr

/-- The name of an audience in metrics. -/
def Audience.label : Audience → String
  | .signedOut => "unauthenticated_only"
  | .everyone => "public"
  | .administrators => "admin_only"
  | .users => "protected"

structure Rules where
  /-- Roots that, with all below them, are for signed-out callers. -/
  signedOutRoots : List String
  /-- Paths for everyone, without what is below them. -/
  publicPaths : List String
  /-- Roots that, with all below them, are for administrators. -/
  adminRoots : List String
  loginPath : String
  landingPath : String
  deriving DecidableEq, Repr

namespace Rules

def standard : Rules where
  signedOutRoots := ["/login", "/lc"]
  publicPaths := ["/authorize", "/device", "/health", "/healthz"]
  adminRoots := ["/settings/admin"]
  loginPath := "/login"
  landingPath := "/settings"

/-- A path without query and fragment falls under a signed-out root. -/
def isSignedOut (r : Rules) (path : String) : Bool := r.signedOutRoots.any (Path.isWithin · path)

def isPublic (r : Rules) (path : String) : Bool := r.publicPaths.contains path

def isAdmin (r : Rules) (path : String) : Bool := r.adminRoots.any (Path.isWithin · path)

def audience (r : Rules) (path : String) : Audience :=
  let path := Path.withoutQuery path
  if r.isSignedOut path then .signedOut
  else if r.isPublic path then .everyone
  else if r.isAdmin path then .administrators
  else .users

end Rules

/-! ## Building rule sets

A custom rule set is the standard one with amendments. It is accepted only if no path can belong to
two families and neither redirect target redirects again; otherwise the first conflict is reported.
-/

inductive Amendment where
  | addSignedOut (root : String)
  | addPublic (path : String)
  | addAdmin (root : String)
  | setLogin (path : String)
  | setLanding (path : String)
  deriving DecidableEq, Repr

inductive RuleConflict where
  | invalid (rule : String)
  | overlap (one other : String)
  | redirectLoop (target : String)
  deriving DecidableEq, Repr

def RuleConflict.message : RuleConflict → String
  | .invalid rule =>
    s!"Invalid rule '{rule}': rules must be absolute paths without query or fragment"
  | .overlap one other => s!"Rules '{one}' and '{other}' overlap"
  | .redirectLoop target => s!"Redirect target '{target}' would redirect again"

namespace Rules

def amend (r : Rules) : Amendment → Rules
  | .addSignedOut root => { r with signedOutRoots := r.signedOutRoots ++ [root] }
  | .addPublic path => { r with publicPaths := r.publicPaths ++ [path] }
  | .addAdmin root => { r with adminRoots := r.adminRoots ++ [root] }
  | .setLogin path => { r with loginPath := path }
  | .setLanding path => { r with landingPath := path }

/-- An absolute path without query and fragment. -/
def isWellFormed (rule : String) : Bool :=
  match rule.toList with
  | '/' :: rest => rest.all fun c => c ≠ '?' && c ≠ '#'
  | _ => false

/-- A well-formed root other than `/`, under which everything would fall. -/
def isRoot (rule : String) : Bool := isWellFormed rule && rule ≠ "/"

def roots (r : Rules) : List String := r.signedOutRoots ++ r.adminRoots

def invalidRoot? (r : Rules) : Option RuleConflict :=
  (r.roots.find? (!isRoot ·)).map .invalid

def invalidPath? (r : Rules) : Option RuleConflict :=
  ((r.publicPaths ++ [r.loginPath, r.landingPath]).find? (!isWellFormed ·)).map .invalid

/-- Two roots of different families, of which one lies within the other. -/
def nestedRoots? (r : Rules) : Option RuleConflict :=
  r.signedOutRoots.findSome? fun out =>
    (r.adminRoots.find? fun admin => Path.isWithin out admin || Path.isWithin admin out).map
      (.overlap out)

def coveredPublic? (r : Rules) : Option RuleConflict :=
  r.publicPaths.findSome? fun path =>
    (r.roots.find? (Path.isWithin · path)).map (.overlap · path)

def loopingLogin? (r : Rules) : Option RuleConflict :=
  if r.audience r.loginPath = .signedOut then none else some (.redirectLoop r.loginPath)

def loopingLanding? (r : Rules) : Option RuleConflict :=
  if r.audience r.landingPath = .users then none else some (.redirectLoop r.landingPath)

/-- The first conflict, in the order in which the checks are made. -/
def conflict? (r : Rules) : Option RuleConflict :=
  r.invalidRoot? <|> r.invalidPath? <|> r.nestedRoots? <|> r.coveredPublic? <|> r.loopingLogin?
    <|> r.loopingLanding?

def build (amendments : List Amendment) : Except RuleConflict Rules :=
  let rules := amendments.foldl amend standard
  match rules.conflict? with
  | some conflict => .error conflict
  | none => .ok rules

end Rules

/-! ## The guard

Whether a caller may go to a page, as a function of the path and the session alone. -/

inductive Decision where
  | allow
  | redirect (target : String)
  deriving DecidableEq, Repr

def Decision.isRedirect : Decision → Bool
  | .allow => false
  | .redirect _ => true

namespace Rules

def decisionFor (r : Rules) (audience : Audience) (s : Session) : Decision :=
  match audience with
  | .everyone => .allow
  | .signedOut => if s.isSignedIn then .redirect r.landingPath else .allow
  | .administrators =>
    if !s.isSignedIn then .redirect r.loginPath
    else if s.isAdmin then .allow
    else .redirect r.landingPath
  | .users => if s.isSignedIn then .allow else .redirect r.loginPath

def decision (r : Rules) (path : String) (s : Session) : Decision :=
  r.decisionFor (r.audience path) s

end Rules
end Gatehouse
