import DatabasePool.Error
import DatabasePool.Text.Blank

/-!
# Configuration of a pool

Limits on the number of connections, timeouts, and when a connection is tried
with a query before it is handed out.
-/

namespace DatabasePool

/-- How long things may take. -/
structure Timeouts where
  /-- A connection held for longer than this may be taken back. -/
  checkout : Nat := Time.ofSeconds 20
  /-- The longest time that a request waits for a connection. -/
  wait : Nat := Time.ofSeconds 20
  /-- The longest time that one attempt to open a connection takes. -/
  connect : Nat := Time.ofSeconds 10
  deriving DecidableEq, Repr

namespace Timeouts

/-- The timeouts with another checkout time, or with the usual one. -/
def withCheckout (t : Timeouts) (span : Option Nat) : Timeouts :=
  { t with checkout := span.getD (Time.ofSeconds 20) }

/-- The timeouts with another time to wait, or with the usual one. -/
def withWait (t : Timeouts) (span : Option Nat) : Timeouts :=
  { t with wait := span.getD (Time.ofSeconds 20) }

/-- The timeouts with another connect timeout, or with the usual one. -/
def withConnect (t : Timeouts) (span : Option Nat) : Timeouts :=
  { t with connect := span.getD (Time.ofSeconds 10) }

end Timeouts

/-- When a connection is tried with a query before it is handed out. -/
structure PingPolicy where
  enabled : Bool := false
  query : String := "NO PING QUERY SET"
  /-- Only a connection unused for longer than this is tried. -/
  notUsedFor : Nat := 0
  deriving DecidableEq, Repr

namespace PingPolicy

/-- Connections unused for longer than `notUsedFor` are tried with `query`. -/
def on (query : String) (notUsedFor : Nat) : PingPolicy :=
  { enabled := true, query, notUsedFor }

/-- A connection unused for `idle` has to be tried. -/
def isDue (p : PingPolicy) (idle : Nat) : Bool :=
  p.enabled && decide (p.notUsedFor < idle)

end PingPolicy

/-- The configuration of a pool. -/
structure Config where
  /-- The most connections that are in use or being made ready at once. -/
  maxActive : Nat := 10
  /-- The most connections that are kept for later. -/
  maxIdle : Nat := 5
  /-- Bad connections that one request puts up with beyond `maxIdle`. -/
  badTolerance : Nat := 3
  timeouts : Timeouts := {}
  ping : PingPolicy := {}
  deriving DecidableEq, Repr

/-- What makes a configuration unusable. -/
inductive ConfigFault where
  /-- The pool could never hand out anything. -/
  | noCapacity
  /-- Connections are to be tried with a query that says nothing. -/
  | blankQuery
  deriving DecidableEq, Repr

namespace ConfigFault

/-- The reason that is given for a refused configuration. -/
def reason : ConfigFault → String
  | noCapacity => "maxActive must be greater than 0"
  | blankQuery => "pingEnabled requires a pingQuery"

/-- The error with which a faulty configuration is refused. -/
def toError (fault : ConfigFault) : Error := .invalidConfig fault.reason

end ConfigFault

namespace Config

/-- The configuration with the given limits and the usual rest. -/
def ofLimits (maxActive maxIdle : Nat) : Config := { maxActive, maxIdle }

/-- The first fault of a configuration, if it has one. -/
def fault? (c : Config) : Option ConfigFault :=
  if c.maxActive = 0 then some .noCapacity
  else if c.ping.enabled && Text.isBlank c.ping.query then some .blankQuery
  else none

/-- The number of bad connections that a request puts up with.  It is added up
in a 64-bit word, and begins at zero again when it does not fit. -/
def badLimit (c : Config) : Nat :=
  (c.maxIdle + c.badTolerance) % (wordMax + 1)

end Config

end DatabasePool
