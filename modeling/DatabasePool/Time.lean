/-!
# Spans and moments

A span of time is a natural number of nanoseconds, and so is a moment of the
pool's clock, which starts at `0`.

Timers run in whole milliseconds: `Time.tick` is the first whole millisecond
at or after a moment.  The clock is bounded: `Time.later` is the moment a span
later, and it fails when the clock does not reach that far.  Who waits for a
span is not stopped by that: `Time.waited` is the moment at which the wait is
over, and it is far off where the clock does not reach the end of the span.
-/

namespace DatabasePool

/-- The greatest number that a 64-bit word holds. -/
def wordMax : Nat := 0xffffffffffffffff

/-- The greatest number that a 32-bit word holds. -/
def halfWordMax : Nat := 0xffffffff

namespace Time

/-- The nanoseconds of one millisecond. -/
def perMilli : Nat := 1000000

/-- The nanoseconds of one second. -/
def perSecond : Nat := 1000000000

/-! ## Spans -/

/-- A span of whole milliseconds. -/
def ofMillis (n : Nat) : Nat := n * perMilli

/-- A span of whole seconds. -/
def ofSeconds (n : Nat) : Nat := n * perSecond

/-- A span given as seconds and nanoseconds. -/
def ofParts (seconds nanos : Nat) : Nat := seconds * perSecond + nanos

/-- The whole seconds of a span. -/
def seconds (span : Nat) : Nat := span / perSecond

/-- The nanoseconds of a span beyond its whole seconds. -/
def subNanos (span : Nat) : Nat := span % perSecond

/-- The whole milliseconds of a span, rounded down. -/
def millis (span : Nat) : Nat := span / perMilli

/-- The whole milliseconds of a span, rounded down and at most one word. -/
def wordMillis (span : Nat) : Nat := min (millis span) wordMax

/-! ## Moments -/

/-- The clock shows no moment from here on. -/
def horizon : Nat := 0x7fffffffffffffff * perSecond

/-- A moment that the clock does not reach was asked for. -/
inductive Overflow where
  | pastHorizon
  deriving DecidableEq, Repr

/-- The text that is shown when the clock does not reach a moment. -/
def Overflow.message : Overflow → String
  | pastHorizon => "overflow when adding duration to instant"

/-- The moment a span after another one, if the clock reaches that far. -/
def later (moment span : Nat) : Except Overflow Nat :=
  if moment + span < horizon then .ok (moment + span)
  else .error .pastHorizon

/-- The span to a moment that counts as far off: thirty years. -/
def farOff : Nat := ofSeconds (86400 * 365 * 30)

/-- The moment at which a span has been waited for, from another moment on.  If
the clock does not reach that far, the wait is over at a moment that is far
off. -/
def waited (moment span : Nat) : Nat :=
  match later moment span with
  | .ok due => due
  | .error _ => moment + farOff

/-- How long ago a moment was.  A moment that is still to come was no time
ago. -/
def elapsed (moment now : Nat) : Nat := now - moment

/-- The first whole millisecond at or after a moment, in nanoseconds. -/
def tick (moment : Nat) : Nat :=
  (moment + (perMilli - 1)) / perMilli * perMilli

theorem later_eq_ok_iff {moment span result : Nat} :
    later moment span = .ok result ↔
      result = moment + span ∧ moment + span < horizon := by
  simp only [later]
  split <;> simp_all [eq_comm]

theorem le_waited (moment span : Nat) : moment ≤ waited moment span := by
  unfold waited
  split
  · next hlater =>
    obtain ⟨rfl, -⟩ := later_eq_ok_iff.1 hlater
    exact Nat.le_add_right ..
  · exact Nat.le_add_right ..

theorem le_tick (moment : Nat) : moment ≤ tick moment := by
  simp only [tick, perMilli]
  omega

end Time

end DatabasePool
