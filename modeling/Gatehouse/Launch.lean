import Gatehouse.Configuration
import Gatehouse.Store
import Gatehouse.Text
import Gatehouse.Version

/-! # Starting the gate

The steps before the first request: the configuration is read, the store of the version cache is
opened, an entry of another build is dropped, and the address to listen on is read. The first step
that fails ends the start, and what the steps before it did to the files stays done. -/

namespace Gatehouse

/-! ## Socket addresses

The written form of an address to listen on: four numbers with points between them and a port, or
the groups of a longer address in brackets and a port. A host name is no address. -/

inductive Host where
  | four (octets : List Nat)
  | six (groups : List Nat) (zone : Nat)
  deriving DecidableEq, Repr

structure SocketAddress where
  host : Host
  port : Nat
  deriving DecidableEq, Repr

namespace SocketAddress

/-- Reads from the front of a text and leaves the rest of it. -/
abbrev Reading := StateT (List Char) Option

def digit? (radix : Nat) (c : Char) : Option Nat := (Text.hexDigit? c).filter (· < radix)

def digits (radix : Nat) : List Char → List Nat × List Char
  | [] => ([], [])
  | c :: cs =>
    match digit? radix c with
    | some d => let (ds, rest) := digits radix cs; (d :: ds, rest)
    | none => ([], c :: cs)

def number (radix limit : Nat) : Reading Nat := fun cs =>
  match digits radix cs with
  | ([], _) => none
  | (ds, rest) =>
    let n := ds.foldl (fun value d => value * radix + d) 0
    if n ≤ limit then some (n, rest) else none

def shortNumber (radix most limit : Nat) : Reading Nat := fun cs =>
  if (digits radix cs).1.length ≤ most then number radix limit cs else none

def expect (c : Char) : Reading Unit
  | d :: cs => if d = c then some ((), cs) else none
  | [] => none

/-- One octet, without zeros in front. -/
def octet : Reading Nat
  | '0' :: c :: cs =>
    if (digit? 10 c).isSome then none else shortNumber 10 3 255 ('0' :: c :: cs)
  | cs => shortNumber 10 3 255 cs

def octets : Reading (List Nat) := do
  let a ← octet
  expect '.'
  let b ← octet
  expect '.'
  let c ← octet
  expect '.'
  let d ← octet
  return [a, b, c, d]

/-- What one group is read by: a colon stands before every group but the first. -/
def afterColon {α : Type} (isFirst : Bool) (read : Reading α) : Reading α :=
  if isFirst then read else do expect ':'; read

/-- Up to `room` groups; two of them can be written as four octets, and are then the last ones. Also
tells whether they were. -/
def groups (isFirst : Bool) : (room : Nat) → List Char → List Nat × Bool × List Char
  | 0, cs => ([], false, cs)
  | room + 1, cs =>
    match if room = 0 then none else afterColon isFirst octets cs with
    | some ([a, b, c, d], rest) => ([a * 256 + b, c * 256 + d], true, rest)
    | _ =>
      match afterColon isFirst (shortNumber 16 4 0xFFFF) cs with
      | some (g, rest) =>
        let (gs, mixed, rest) := groups false room rest
        (g :: gs, mixed, rest)
      | none => ([], false, cs)

/-- Eight groups, or fewer around one `::`, which stands for at least one group of zeros. -/
def eightGroups : Reading (List Nat) := fun cs =>
  match groups true 8 cs with
  | (front, mixed, rest) =>
    if front.length = 8 then some (front, rest)
    else if mixed then none
    else match rest with
      | ':' :: ':' :: rest =>
        let (back, _, rest) := groups true (7 - front.length) rest
        some (front ++ List.replicate (8 - front.length - back.length) 0 ++ back, rest)
      | _ => none

def portNumber : Reading Nat := do
  expect ':'
  number 10 65535

def zoneNumber : Reading Nat := fun cs =>
  ((do expect '%'; number 10 0xFFFFFFFF : Reading Nat) cs).getD (0, cs)

def withOctets : Reading SocketAddress := do
  let host := Host.four (← octets)
  return ⟨host, ← portNumber⟩

def withGroups : Reading SocketAddress := do
  expect '['
  let gs ← eightGroups
  let host := Host.six gs (← zoneNumber)
  expect ']'
  return ⟨host, ← portNumber⟩

def parse? (text : String) : Option SocketAddress :=
  match (withOctets text.toList).or (withGroups text.toList) with
  | some (address, []) => some address
  | _ => none

end SocketAddress

/-! ## The start -/

/-- Failures of the process as a whole. -/
inductive GateError where
  | config (reason : String)
  | bind (reason : String)
  | metrics (reason : String)
  | serve (reason : String)
  deriving DecidableEq, Repr

def GateError.message : GateError → String
  | .config reason => s!"Configuration error: {reason}"
  | .bind reason => s!"Failed to bind listener: {reason}"
  | .metrics reason => s!"Metrics error: {reason}"
  | .serve reason => s!"Server error: {reason}"

inductive LaunchError where
  | gate (error : GateError)
  | store (error : StoreError)
  deriving DecidableEq, Repr

namespace LaunchError

/-- The name of the error and its reason in quotes. -/
def shown : LaunchError → String
  | .gate (.config reason) => "Config(" ++ Text.quoted reason ++ ")"
  | .gate (.bind reason) => "Bind(" ++ Text.quoted reason ++ ")"
  | .gate (.metrics reason) => "Metrics(" ++ Text.quoted reason ++ ")"
  | .gate (.serve reason) => "Serve(" ++ Text.quoted reason ++ ")"
  | .store (.io reason) => "Io(" ++ Text.quoted reason ++ ")"
  | .store (.invalidKey key) => "InvalidKey(" ++ Text.quoted key ++ ")"

def report (e : LaunchError) : String := "Error: " ++ e.shown

end LaunchError

namespace Launch

/-- Opening the store of a cache in the folder of the given path, which drops an entry of another
build. -/
abbrev Opening (m : Type → Type) := Version.Cache → String → m (Except StoreError Unit)

/-- Opens the store that is configured. A store in memory is empty and needs no purge. -/
def openStore {m : Type → Type} [Monad m] (opening : Opening m) (build : String)
    (c : Configuration) : m (Except StoreError Unit) :=
  match c.cacheDir with
  | none => return .ok ()
  | some dir => opening ⟨build, c.cacheTtl⟩ dir

def address (c : Configuration) : Except LaunchError SocketAddress :=
  match SocketAddress.parse? c.bindAddress with
  | some address => .ok address
  | none => .error (.gate (.bind (c.bindAddress ++ ": invalid socket address syntax")))

/-- All steps up to the address. -/
def start {m : Type → Type} [Monad m] (opening : Opening m) (build : String) (vars : Variables) :
    m (Except LaunchError (Configuration × SocketAddress)) := do
  match Configuration.load vars with
  | .error e => return .error (.gate (.config e.message))
  | .ok c =>
    match ← openStore opening build c with
    | .error e => return .error (.store e)
    | .ok () => return (address c).map fun address => (c, address)

/-- Opening a store among the given files. A fault leaves the folders that were made before it. -/
def amongFiles : Opening (StateM Entries) := fun cache dir => do
  match ← Store.AtPath.openAt dir with
  | .error fault => return .error (.io fault.message)
  | .ok store =>
    set (cache.purgeIfUpgraded store).2.files
    return .ok ()

end Launch
end Gatehouse
