/-! # Instants and durations

Instants are milliseconds since the Unix epoch in 64 bits, so that they can be stored and compared
across restarts. Durations are whole nanoseconds. -/

namespace Gatehouse

structure Duration where
  nanoseconds : Nat
  deriving DecidableEq, Repr

namespace Duration

instance : LT Duration := ⟨fun d other => d.nanoseconds < other.nanoseconds⟩

instance (d other : Duration) : Decidable (d < other) :=
  inferInstanceAs (Decidable (d.nanoseconds < other.nanoseconds))

/-- What remains of a duration after another. -/
def minus (d other : Duration) : Duration := ⟨d.nanoseconds - other.nanoseconds⟩

def ofSeconds (seconds : Nat) : Duration := ⟨seconds * 1000000000⟩

def ofMillis (millis : Nat) : Duration := ⟨millis * 1000000⟩

def wholeMillis (d : Duration) : Nat := d.nanoseconds / 1000000

/-- The whole milliseconds, or the largest number of 64 signed bits where they exceed it. -/
def cappedMillis (d : Duration) : Int := min (d.wholeMillis : Int) Int64.maxValue.toInt

end Duration

abbrev Instant := Int64

namespace Instant

/-- The milliseconds since `start`, held within 64 signed bits. -/
def since (now start : Instant) : Int :=
  max Int64.minValue.toInt (min Int64.maxValue.toInt (now.toInt - start.toInt))

/-- The instant after a duration. Past the last instant the clock starts again at the first. -/
def advance (now : Instant) (d : Duration) : Instant := now + Int64.ofInt d.cappedMillis

end Instant
end Gatehouse
