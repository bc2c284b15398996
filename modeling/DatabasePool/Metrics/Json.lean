import DatabasePool.Json
import DatabasePool.Metrics

/-!
# Metrics as JSON

The counters and totals under their names, totals in whole milliseconds.
-/

namespace DatabasePool.Metrics

/-- The metrics as a JSON object. -/
def toJson (m : Metrics) : Json :=
  let time (span : Nat) : Json := .nat (Time.wordMillis span)
  .object
    [("requestCount", .nat m.requests),
     ("accumulatedRequestTime", time m.requestTime),
     ("accumulatedCheckoutTime", time m.checkoutTime),
     ("claimedOverdueCount", .nat m.overdueClaims),
     ("accumulatedOverdueCheckoutTime", time m.overdueTime),
     ("hadToWaitCount", .nat m.waits),
     ("accumulatedWaitTime", time m.waitTime),
     ("badConnectionCount", .nat m.bad)]

end DatabasePool.Metrics
