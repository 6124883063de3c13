/-!
# Durations

A span of time in whole nanoseconds. Outside the library a duration is a number of whole
milliseconds that fits 64 bits.
-/

namespace Vitals

/-- A span of time. -/
structure Duration where
  nanos : Nat
  deriving DecidableEq, Repr, Inhabited

namespace Duration

def zero : Duration := ⟨0⟩

/-- The span of a number of milliseconds. -/
def ofMillis (count : Nat) : Duration := ⟨count * 1000000⟩

/-- The span of a number of microseconds. -/
def ofMicros (count : Nat) : Duration := ⟨count * 1000⟩

/-- The whole milliseconds of a span, reduced to 64 bits. -/
def millis (duration : Duration) : Nat := duration.nanos / 1000000 % UInt64.size

@[simp]
theorem nanos_zero : zero.nanos = 0 := rfl

@[simp]
theorem millis_ofMillis {count : Nat} (fits : count < UInt64.size) :
    (ofMillis count).millis = count := by
  unfold millis ofMillis
  rw [Nat.mul_div_cancel count (by decide), Nat.mod_eq_of_lt fits]

end Duration

end Vitals
