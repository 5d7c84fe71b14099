import ExchangeBench.Scalar

/-!
# Durations and the clock

A length of time in whole nanoseconds. The whole seconds of a duration fit in 64 bits.

The clock is monotonic, and read in nanoseconds. Its seconds are a signed 64-bit number, so the end of a
long duration may be a moment that no reading can show.
-/

namespace ExchangeBench

namespace Duration

/-- The nanoseconds of a second. -/
def nanosPerSecond : Nat := 1000000000

/-- The nanoseconds of a millisecond. -/
def nanosPerMilli : Nat := 1000000

/-- The first number of nanoseconds whose whole seconds do not fit in 64 bits. -/
def limit : Nat := UInt64.size * nanosPerSecond

end Duration

/-- A length of time. -/
structure Duration where
  nanos : Nat
  lt_limit : nanos < Duration.limit := by decide
  deriving DecidableEq

namespace Duration

/-- The duration of no length. -/
def zero : Duration := ⟨0, by decide⟩

instance : Inhabited Duration := ⟨zero⟩

/-- The duration of a number of nanoseconds, if its seconds fit in 64 bits. -/
def ofNanos? (n : Nat) : Option Duration :=
  if h : n < limit then some ⟨n, h⟩ else none

/-- Whole seconds. -/
def ofSecs (s : UInt64) : Duration :=
  ⟨s.toNat * nanosPerSecond, Nat.mul_lt_mul_of_pos_right s.toNat_lt_size (by decide)⟩

/-- Whole milliseconds. -/
def ofMillis (ms : UInt64) : Duration :=
  ⟨ms.toNat * nanosPerMilli, Nat.lt_of_lt_of_le
    (Nat.mul_lt_mul_of_pos_right ms.toNat_lt_size (by decide)) (by decide)⟩

/-- The whole seconds. -/
def secs (d : Duration) : Nat := d.nanos / nanosPerSecond

/-- The nanoseconds beyond the whole seconds. -/
def subsecNanos (d : Duration) : Nat := d.nanos % nanosPerSecond

/-- The whole milliseconds. -/
def millis (d : Duration) : Nat := d.nanos / nanosPerMilli

/-- Whether the duration has no length. -/
def isZero (d : Duration) : Bool := d.nanos == 0

/-- A duration that is not zero. -/
abbrev Positive := { d : Duration // d.isZero = false }

/-- Whether the duration is a whole number of seconds. -/
def isWhole (d : Duration) : Bool := d.subsecNanos == 0

/-- The length in seconds: the whole seconds plus the nanoseconds divided by those of a second. -/
def inSeconds {α : Type} [Scalar α] (d : Duration) : α :=
  Scalar.ofNat d.secs + Scalar.ofNat d.subsecNanos / Scalar.ofNat nanosPerSecond

theorem secs_ofSecs (s : UInt64) : (ofSecs s).secs = s.toNat := by
  simp [secs, ofSecs, nanosPerSecond]

theorem isWhole_ofSecs (s : UInt64) : (ofSecs s).isWhole = true := by
  simp [isWhole, subsecNanos, ofSecs, nanosPerSecond]

theorem nanos_eq (d : Duration) : d.nanos = d.secs * nanosPerSecond + d.subsecNanos := by
  unfold secs subsecNanos nanosPerSecond
  omega

end Duration

namespace Clock

/-- A moment, in nanoseconds on the clock. -/
abbrev Reading := Nat

/-- The first moment that the clock cannot show. -/
def limit : Reading := (1 <<< 63) * Duration.nanosPerSecond

/-- The moment a duration after another, if the clock can show it. -/
def after? (start : Reading) (d : Duration) : Option Reading :=
  if start + d.nanos < limit then some (start + d.nanos) else none

end Clock
end ExchangeBench
