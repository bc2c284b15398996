import DatabasePool.Config.Setting
import DatabasePool.Metrics.Json

/-!
# Snapshots of a pool

What a pool shows of itself at one instant, as a table for people and as JSON
for programs.  The time at which a snapshot was taken is handed in as a text,
since each of the two has its own way to write it.
-/

namespace DatabasePool

/-- What a pool shows of itself at one instant. -/
structure Snapshot where
  config : Config
  /-- The connections that are handed out. -/
  active : Nat
  /-- The connections that are kept for later. -/
  idle : Nat
  generation : Nat
  shutDown : Bool
  metrics : Metrics
  deriving DecidableEq, Repr

namespace Snapshot

/-- A text with blanks behind it until it is `width` characters long. -/
def padBlanks (width : Nat) (text : String) : String :=
  text ++ String.ofList (List.replicate (width - text.length) ' ')

/-- One row of the table: a name, and a value at the 33rd place. -/
def row (name value : String) : String :=
  " " ++ padBlanks 31 name ++ value

/-- The text of a flag. -/
def flagText (b : Bool) : String := if b then "true" else "false"

/-- The rows of the table that show the configuration. -/
def configRows (c : Config) : List String :=
  let time (span : Nat) : String := Text.numeral (Time.millis span)
  [row "maxActive" (Text.numeral c.maxActive),
   row "maxIdle" (Text.numeral c.maxIdle),
   row "maxCheckoutTime" (time c.timeouts.checkout),
   row "timeToWait" (time c.timeouts.wait),
   row "pingEnabled" (flagText c.ping.enabled),
   row "pingQuery" c.ping.query,
   row "pingNotUsedFor" (time c.ping.notUsedFor)]

/-- The rows of the table that show the state of the pool. -/
def statusRows (takenAt : String) (s : Snapshot) : List String :=
  let m := s.metrics
  let time (span : Nat) : String := Text.numeral (Time.millis span)
  [row "takenAt" takenAt,
   row "shutDown" (flagText s.shutDown),
   row "generation" (Text.numeral s.generation),
   row "activeConnections" (Text.numeral s.active),
   row "idleConnections" (Text.numeral s.idle),
   row "requestCount" (Text.numeral m.requests),
   row "averageRequestTime" (time m.averageRequest),
   row "averageCheckoutTime" (time m.averageCheckout),
   row "claimedOverdue" (Text.numeral m.overdueClaims),
   row "averageOverdueCheckoutTime" (time m.averageOverdue),
   row "hadToWait" (Text.numeral m.waits),
   row "averageWaitTime" (time m.averageWait),
   row "badConnectionCount" (Text.numeral m.bad)]

/-- The rows of the whole table. -/
def rows (takenAt : String) (s : Snapshot) : List String :=
  "===CONFIGURATION================================================" ::
    configRows s.config ++
  " ---STATUS-------------------------------------------------------" ::
    statusRows takenAt s ++
  ["================================================================"]

/-- The table of a snapshot. -/
def text (takenAt : String) (s : Snapshot) : String :=
  "\n".intercalate (s.rows takenAt)

/-- A snapshot as a JSON object. -/
def toJson (takenAt : String) (s : Snapshot) : Json :=
  .object
    [("takenAt", .string takenAt),
     ("config", s.config.toJson),
     ("activeConnections", .nat s.active),
     ("idleConnections", .nat s.idle),
     ("generation", .nat s.generation),
     ("shutDown", .bool s.shutDown),
     ("metrics", s.metrics.toJson)]

end Snapshot

end DatabasePool
