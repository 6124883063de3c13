/-!
# The times of background executions

When a timer is due for the first time, and when it is due next after a tick was handled, maybe
late. Times are natural numbers in a unit of which a second has a given number.
-/

namespace Vitals.Schedule

/-- The clock can tell this many seconds. -/
def clockSeconds : Nat := UInt64.size / 2

/-- The clock can tell an instant. -/
def tells (unit instant : Nat) : Bool := instant / unit < clockSeconds

/-- What the clock cannot tell is moved to this many seconds from now: thirty years of 365 days. -/
def farFuture : Nat := 86400 * 365 * 30

/-- The first tick of a timer: one period from now if the clock can tell it. A clock that cannot
tell the far future either is so close to its end that the first tick is now. -/
def firstTick (unit now period : Nat) : Nat :=
  if tells unit (now + period) then now + period
  else if tells unit (now + farFuture * unit) then now + farFuture * unit
  else now

/-- A tick may be handled this many milliseconds late and still count as in time. -/
def tolerance : Nat := 5

/-- The tick after the one due at `due` and handled at `handled`: one period later if it was
handled in time, else the first one of the series that lies behind `handled`.

This is the documented rule of an interval that skips the ticks it has missed, with nothing said
about a clock. It is relied on up to an instant that is `inReach`. -/
def nextTick (period due handled : Nat) : Nat :=
  if handled - due ≤ tolerance then due + period
  else handled + period - (handled - due) % period

/-- Up to an instant, the clock can tell whatever an interval has to look at: how late a tick may
be handled, and the next tick. -/
def inReach (period instant : Nat) : Bool := tells 1000 (instant + max period tolerance)

/-- Ticks move forward. -/
theorem lt_nextTick {period due handled : Nat} (period_pos : 0 < period) :
    due < nextTick period due handled := by
  unfold nextTick tolerance
  have remainder : (handled - due) % period < period := Nat.mod_lt _ period_pos
  split <;> omega

end Vitals.Schedule
