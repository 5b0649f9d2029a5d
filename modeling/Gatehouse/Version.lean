import Gatehouse.Http
import Gatehouse.Json
import Gatehouse.Store
import Gatehouse.Time

/-! # The newest version

Which version is the newest, as the release feed has it and as it was last stored. -/

/-! ## Stored entries

The newest released version as it was last fetched, when that was, and which build fetched it. An
entry is trusted while it is young enough and the same build is running. -/

namespace Gatehouse.Version

structure Entry where
  newestVersion : String
  timestamp : Instant
  lastCurrentVersion : String
  deriving DecidableEq, Repr

namespace Entry

def fieldNames : List String := ["newestVersion", "timestamp", "lastCurrentVersion"]

def ofJson? (v : Json) : Option Entry :=
  match v.fields? fieldNames with
  | some [newestVersion, timestamp, lastCurrentVersion] => do
    return {
      newestVersion := ← Json.required Json.text? newestVersion
      timestamp := ← Json.required Json.int64? timestamp
      lastCurrentVersion := ← Json.required Json.text? lastCurrentVersion }
  | _ => none

def toJson (e : Entry) : Json :=
  .object
    [Json.field "newestVersion" (.text e.newestVersion),
      Json.field "timestamp" (.number (Json.spellInt e.timestamp.toInt)),
      Json.field "lastCurrentVersion" (.text e.lastCurrentVersion)]

/-- The entry a stored text holds. -/
def decode? (stored : String) : Option Entry := (Json.read? stored).bind ofJson?

def encode (e : Entry) : String := e.toJson.compact

/-- More than `ttl` has passed since the entry was written. -/
def isExpired (e : Entry) (now : Instant) (ttl : Duration) : Bool :=
  ttl.cappedMillis < Instant.since now e.timestamp

def isOfBuild (e : Entry) (build : String) : Bool := e.lastCurrentVersion = build

def isValid (e : Entry) (now : Instant) (ttl : Duration) (build : String) : Bool :=
  !e.isExpired now ttl && e.isOfBuild build

end Entry

/-! ## The release feed

Where the tag of the latest release comes from. A feed is the outcome of every call that will ever
be made to it, how long the call takes and what the clock shows then, and the number of calls made
so far. -/

structure Feed where
  outcome : Nat → Except ClientError String
  /-- What the clock shows when a call returns, by what it showed when the call was made. -/
  returned : Nat → Instant → Instant := fun _ now => now
  taking : Nat → Duration := fun _ => ⟨0⟩
  calls : Nat := 0

namespace Feed

def fetch (f : Feed) : Except ClientError String × Feed :=
  (f.outcome f.calls, { f with calls := f.calls + 1 })

def returnTime (f : Feed) (now : Instant) : Instant := f.returned f.calls now

/-- How long a call takes that is made now. -/
def callTime (f : Feed) : Duration := f.taking f.calls

/-- A feed that goes through the outcomes in order and repeats the last of them for ever. -/
def replaying (outcomes : List (Except ClientError String)) : Feed where
  outcome n := outcomes.getD (min n (outcomes.length - 1)) (.error (.network "no outcome"))

end Feed

/-- The version a release tag names: the tag without one leading `v` or `V`. -/
def ofTag (tag : String) : String :=
  match tag.toList with
  | c :: rest => if c = 'v' ∨ c = 'V' then .ofList rest else tag
  | [] => tag

/-! ## The version block

What the settings area shows about the running version and the newest one. -/

structure Report where
  currentVersion : String
  newestVersion : Option String
  isUpToDate : Option Bool
  deriving DecidableEq, Repr

def Report.toJson (r : Report) : Json :=
  .object <|
    [Json.field "currentVersion" (.text r.currentVersion)]
    ++ Json.optionalField "newestVersion" (r.newestVersion.map .text)
    ++ Json.optionalField "isUpToDate" (r.isUpToDate.map .bool)

/-! ## The cache

Asks the release feed only when no entry is fresh. The entry belongs to the build that wrote it:
after an upgrade it is dropped even if it is young, so that no build reports itself outdated against
a release it already runs. -/

/-- What a cache works with: the store of the entry, the feed, and the time. -/
structure Resources (σ : Type) where
  store : σ
  feed : Feed
  clock : Instant

inductive Outcome where
  | hit
  | refreshed
  | fallback
  deriving DecidableEq, Repr

structure Lookup (σ : Type) where
  newest : String
  outcome : Outcome
  after : Resources σ

/-- What the store alone answers: a lookup, or the entry that was dropped and what is left. -/
inductive Consulted (σ : Type) where
  | fresh (found : Lookup σ)
  | stale (dropped : Option Entry) (rest : Resources σ)

/-- A cache is the running build and how long its entries are trusted. -/
structure Cache where
  build : String
  ttl : Duration

namespace Cache

variable {σ : Type} [Store σ]

def key : String := "version_cache"

/-- A failing `delete` leaves the entry where it is. -/
def dropEntry (store : σ) : σ := (Store.delete store key).2

/-- The stored entry. A failing `get` is a miss; a text that is no entry is a miss and is dropped.
-/
def readEntry (store : σ) : Option Entry × σ :=
  match Store.get store key with
  | .error _ => (none, store)
  | .ok none => (none, store)
  | .ok (some text) =>
    match Entry.decode? text with
    | some entry => (some entry, store)
    | none => (none, dropEntry store)

/-- Asks the feed. The entry is dated when the answer is there. On failure the version of the dropped
entry serves, or else the running one. -/
def refresh (c : Cache) (dropped : Option Entry) (r : Resources σ) : Lookup σ :=
  let clock := r.feed.returnTime r.clock
  match r.feed.fetch with
  | (.ok tag, feed) =>
    let entry : Entry := ⟨ofTag tag, clock, c.build⟩
    ⟨entry.newestVersion, .refreshed,
      { store := (Store.set r.store key entry.encode).2, feed, clock }⟩
  | (.error _, feed) =>
    ⟨dropped.elim c.build (·.newestVersion), .fallback, { r with feed, clock }⟩

def consult (c : Cache) (r : Resources σ) : Consulted σ :=
  match readEntry r.store with
  | (some entry, store) =>
    if entry.isValid r.clock c.ttl c.build then
      .fresh ⟨entry.newestVersion, .hit, { r with store }⟩
    else .stale (some entry) { r with store := dropEntry store }
  | (none, store) => .stale none { r with store }

/-- The newest released version. Never fails. -/
def newestVersion (c : Cache) (r : Resources σ) : Lookup σ :=
  match c.consult r with
  | .fresh found => found
  | .stale dropped rest => c.refresh dropped rest

/-- The newest released version if it is found in less than the given time. Otherwise the lookup ends
while the feed is being called, and what it has done until then is done. -/
def newestWithin (c : Cache) (time : Duration) (r : Resources σ) :
    Except (Resources σ) (Lookup σ) :=
  match c.consult r with
  | .fresh found => .ok found
  | .stale dropped rest =>
    if rest.feed.callTime < time then .ok (c.refresh dropped rest)
    else .error { rest with feed := rest.feed.fetch.2 }

/-- Drops an entry of another build, and tells whether there was one. -/
def purgeIfUpgraded (c : Cache) (store : σ) : Bool × σ :=
  match readEntry store with
  | (some entry, store) =>
    if entry.isOfBuild c.build then (false, store) else (true, dropEntry store)
  | (none, store) => (false, store)

/-- A lookup after the purge of an entry of another build. -/
def lookupAfterPurge (c : Cache) (r : Resources σ) : Lookup σ :=
  c.newestVersion { r with store := (c.purgeIfUpgraded r.store).2 }

def isUpToDate (c : Cache) (found : Lookup σ) : Bool := found.newest = c.build

def report (c : Cache) (found : Lookup σ) : Report :=
  ⟨c.build, some found.newest, some (c.isUpToDate found)⟩

end Cache

def thisBuild : String := "0.1.0"

end Gatehouse.Version
