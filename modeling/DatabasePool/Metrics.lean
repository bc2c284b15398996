import DatabasePool.Time

/-!
# Metrics

Counters and totals that tell how the pool has been used, and the averages
that follow from them.  Each `record` function books one event.
-/

namespace DatabasePool

/-- What the pool has counted so far. -/
structure Metrics where
  /-- Connections handed out. -/
  requests : Nat := 0
  /-- Time from request to hand-out, summed over the hand-outs. -/
  requestTime : Nat := 0
  /-- Time for which connections were held, summed over the ended loans. -/
  checkoutTime : Nat := 0
  /-- Overdue connections that were taken back. -/
  overdueClaims : Nat := 0
  /-- Time for which the overdue ones had been held. -/
  overdueTime : Nat := 0
  /-- Decisions to wait for a connection. -/
  waits : Nat := 0
  /-- Time spent in waits that came to an end. -/
  waitTime : Nat := 0
  /-- Connections found bad. -/
  bad : Nat := 0
  deriving DecidableEq, Repr

namespace Metrics

/-! ## Averages -/

/-- A total shared out over a count, rounded down to a nanosecond and at most
one word of nanoseconds.  Without a count there is nothing to share out. -/
def average (total count : Nat) : Nat :=
  if count = 0 then 0 else min (total / count) wordMax

/-- The average time from request to hand-out. -/
def averageRequest (m : Metrics) : Nat := average m.requestTime m.requests

/-- The average time a connection was held, per hand-out. -/
def averageCheckout (m : Metrics) : Nat := average m.checkoutTime m.requests

/-- The average time an overdue connection had been held. -/
def averageOverdue (m : Metrics) : Nat := average m.overdueTime m.overdueClaims

/-- The average time of a wait. -/
def averageWait (m : Metrics) : Nat := average m.waitTime m.waits

/-! ## Booking -/

/-- A connection was handed out `latency` after the request for it. -/
def recordRequest (latency : Nat) (m : Metrics) : Metrics :=
  { m with requests := m.requests + 1, requestTime := m.requestTime + latency }

/-- A connection came back after it had been held for `held`. -/
def recordCheckout (held : Nat) (m : Metrics) : Metrics :=
  { m with checkoutTime := m.checkoutTime + held }

/-- A connection was taken back because it had been held for `held`. -/
def recordOverdue (held : Nat) (m : Metrics) : Metrics :=
  { m with
    overdueClaims := m.overdueClaims + 1
    overdueTime := m.overdueTime + held
    checkoutTime := m.checkoutTime + held }

/-- A request has to wait. -/
def recordHadToWait (m : Metrics) : Metrics :=
  { m with waits := m.waits + 1 }

/-- A wait came to its end after `waited`. -/
def recordWait (waited : Nat) (m : Metrics) : Metrics :=
  { m with waitTime := m.waitTime + waited }

/-- A connection was found bad. -/
def recordBad (m : Metrics) : Metrics :=
  { m with bad := m.bad + 1 }

end Metrics

end DatabasePool
