import Gatehouse.Rules
import Gatehouse.Time
import Gatehouse.Version

/-! # Metrics

What the gate counts: answered requests, decisions of the guard, session bootstraps and version
lookups. -/

/-! ## Samples

One time series: a name and labels with their values, written as in the text exposition format. -/

namespace Gatehouse.Metrics

structure Sample where
  name : String
  labels : List (String × String) := []
  deriving DecidableEq, Repr

/-- The value of a label as it is written: line ends, quotes and backslashes are escaped, and what
is escaped already stays as it is. Since a backslash may begin an escape it is held back until the
next character tells: a second one makes a pair of the two, a quote takes it over, and before any
other character and at the end it stands for itself. A line end is written at once, ahead of the
backslash that is held. -/
def escapeLabel (held : Bool) : List Char → List Char
  | [] => if held then ['\\', '\\'] else []
  | c :: rest =>
    if c = '\n' then '\\' :: 'n' :: escapeLabel held rest
    else if c = '"' then '\\' :: '"' :: escapeLabel false rest
    else if c = '\\' then (if held then ['\\', '\\'] else []) ++ escapeLabel (!held) rest
    else (if held then ['\\', '\\'] else []) ++ c :: escapeLabel false rest

def renderLabel (label : String × String) : String :=
  label.1 ++ "=\"" ++ String.ofList (escapeLabel false label.2.toList) ++ "\""

def Sample.render (s : Sample) : String :=
  if s.labels.isEmpty then s.name
  else s.name ++ "\x7b" ++ ",".intercalate (s.labels.map renderLabel) ++ "\x7d"

/-! ## Route families

Metrics tell requests apart by the family of their path, so that callers cannot add labels at will.
-/

/-- The families, the more specific ones first. -/
def endpointFamilies : List String :=
  ["/settings/admin", "/settings", "/login", "/lc", "/authorize", "/device", "/healthz", "/health",
    "/metrics"]

def endpoint (path : String) : String :=
  let path := Path.withoutQuery path
  if path = "/" then "/"
  else (endpointFamilies.find? (Path.isWithin · path)).getD "/other"

/-! ## Recordings

Every recording adds one to each of its samples. -/

/-- A histogram bucket counts the values up to its bound. -/
structure Bucket where
  label : String
  bound : Duration

def requestBuckets : List Bucket :=
  [⟨"0.005", .ofMillis 5⟩, ⟨"0.01", .ofMillis 10⟩, ⟨"0.025", .ofMillis 25⟩,
    ⟨"0.05", .ofMillis 50⟩, ⟨"0.1", .ofMillis 100⟩, ⟨"0.15", .ofMillis 150⟩,
    ⟨"0.2", .ofMillis 200⟩, ⟨"0.3", .ofMillis 300⟩, ⟨"0.5", .ofMillis 500⟩,
    ⟨"1", .ofMillis 1000⟩, ⟨"2", .ofMillis 2000⟩]

def bootstrapBuckets : List Bucket :=
  [⟨"0.005", .ofMillis 5⟩, ⟨"0.01", .ofMillis 10⟩, ⟨"0.025", .ofMillis 25⟩,
    ⟨"0.05", .ofMillis 50⟩, ⟨"0.1", .ofMillis 100⟩, ⟨"0.25", .ofMillis 250⟩,
    ⟨"0.5", .ofMillis 500⟩, ⟨"1", .ofMillis 1000⟩, ⟨"2.5", .ofMillis 2500⟩,
    ⟨"5", .ofMillis 5000⟩, ⟨"10", .ofMillis 10000⟩]

structure Histogram where
  name : String
  labels : List (String × String)
  buckets : List Bucket

namespace Histogram

def count (h : Histogram) : Sample := ⟨h.name ++ "_count", h.labels⟩

def bucketSample (h : Histogram) (bound : String) : Sample :=
  ⟨h.name ++ "_bucket", h.labels ++ [("le", bound)]⟩

/-- The buckets that count a value. The last one counts every value. -/
def bucketsOf (h : Histogram) (value : Duration) : List Sample :=
  (h.buckets.filter fun b => value.nanoseconds ≤ b.bound.nanoseconds).map
      (fun b => h.bucketSample b.label)
    ++ [h.bucketSample "+Inf"]

end Histogram

/-- How a request ended, by its status. Redirects are successes. -/
def statusCategory (status : Nat) : String :=
  if 200 ≤ status ∧ status ≤ 399 then "success"
  else if status = 408 ∨ status = 504 then "timeout"
  else "error"

def presence (present : Bool) : String := if present then "present" else "absent"

def outcomeLabel : Version.Outcome → String
  | .hit => "hit"
  | .refreshed => "refreshed"
  | .fallback => "fallback"

inductive Recording where
  | request (method path : String) (status : Nat)
  | navigation (audience : Audience) (redirected : Bool)
  | bootstrap (user config : Bool)
  | lookup (outcome : Version.Outcome)
  deriving DecidableEq, Repr

namespace Recording

def counter : Recording → Sample
  | .request method path status =>
    ⟨"gate_http_requests_total",
      [("method", method), ("endpoint", endpoint path), ("status_code", toString status)]⟩
  | .navigation audience redirected =>
    ⟨"gate_navigation_decisions_total",
      [("class", audience.label), ("outcome", if redirected then "redirect" else "allow")]⟩
  | .bootstrap user config =>
    ⟨"gate_bootstrap_total", [("user", presence user), ("config", presence config)]⟩
  | .lookup outcome => ⟨"gate_version_cache_total", [("outcome", outcomeLabel outcome)]⟩

/-- The histogram that takes the duration of what is recorded. -/
def histogram? : Recording → Option Histogram
  | .request method path status =>
    some
      ⟨"gate_http_request_duration_seconds",
        [("method", method), ("endpoint", endpoint path), ("status", statusCategory status)],
        requestBuckets⟩
  | .bootstrap _ _ => some ⟨"gate_bootstrap_duration_seconds", [], bootstrapBuckets⟩
  | .navigation _ _ | .lookup _ => none

/-- The samples that grow whatever the duration. -/
def samples (r : Recording) : List Sample :=
  r.counter :: (r.histogram?.map (·.count)).toList

def buckets (r : Recording) (duration : Duration) : List Sample :=
  r.histogram?.elim [] (·.bucketsOf duration)

end Recording

/-- Whether this process already records metrics. -/
structure Recorder where
  installed : Bool

/-- A process installs its recorder once. -/
def Recorder.install (r : Recorder) : Except String Recorder :=
  if r.installed then
    .error ("Failed to install Prometheus recorder: failed to install exporter as global recorder: "
      ++ "attempted to set a recorder after the metrics system was already initialized")
  else .ok ⟨true⟩

/-! ## Totals

How much every sample has grown, in the order in which the samples were first met. -/

structure Totals where
  counts : List (Sample × Nat) := []

namespace Totals

def increment (s : Sample) : List (Sample × Nat) → List (Sample × Nat)
  | [] => [(s, 1)]
  | (other, n) :: rest =>
    if other = s then (other, n + 1) :: rest else (other, n) :: increment s rest

def grow (t : Totals) (samples : List Sample) : Totals :=
  ⟨samples.foldl (fun counts s => increment s counts) t.counts⟩

def count (t : Totals) (s : Sample) : Nat := (t.counts.lookup s).getD 0

/-- One line for every sample, as a collector reads them. -/
def exposition (t : Totals) : String :=
  String.join (t.counts.map fun (s, n) => s.render ++ " " ++ toString n ++ "\n")

theorem lookup_increment (s other : Sample) (counts : List (Sample × Nat)) :
    ((increment s counts).lookup other).getD 0
      = (counts.lookup other).getD 0 + if other = s then 1 else 0 := by
  induction counts with
  | nil =>
    by_cases same : other = s
    · simp [increment, same]
    · simp [increment, same, List.lookup_cons, beq_eq_false_iff_ne.2 same]
  | cons first rest ih =>
    obtain ⟨name, n⟩ := first
    unfold increment
    split
    · next found =>
      subst found
      by_cases same : other = name
      · simp [same]
      · simp [same, List.lookup_cons, beq_eq_false_iff_ne.2 same]
    · next differs =>
      by_cases same : other = name
      · subst same
        simp [differs]
      · simp only [List.lookup_cons, beq_eq_false_iff_ne.2 same, ih]

/-- A sample has grown by as often as it was listed. -/
theorem count_grow (t : Totals) (samples : List Sample) (s : Sample) :
    (t.grow samples).count s = t.count s + samples.count s := by
  induction samples generalizing t with
  | nil => simp [grow]
  | cons first rest ih =>
    have step := ih ⟨increment first t.counts⟩
    simp only [grow, count, List.foldl_cons] at step ⊢
    rw [step, lookup_increment, List.count_cons]
    by_cases same : s = first
    · simp [same, Nat.add_assoc, Nat.add_comm]
    · have : (first == s) = false := beq_eq_false_iff_ne.2 fun e => same e.symm
      simp [same, this]

end Totals
end Gatehouse.Metrics
