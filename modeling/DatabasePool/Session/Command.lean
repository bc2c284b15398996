import DatabasePool.Task

/-!
# Commands

The commands that a script is made of.  Operations that are under way and
connections that are held go by the names that the script gives them.  A line
of a script gives a name to what its command brings about, and it can point to
a connection that is held.
-/

namespace DatabasePool

/-- How an operation is to be carried out. -/
structure Manner where
  /-- The command does not wait for the operation to end. -/
  inBackground : Bool := false
  limit : Option Limit := none
  deriving DecidableEq, Repr

/-- Changes to one plan of the server.  What is left out stays as it is. -/
structure PlanChange where
  delay : Option Nat := none
  failures : Option Nat := none
  message : Option String := none
  deriving DecidableEq, Repr

/-- Changes to the server.  What is left out stays as it is. -/
structure ServerChange where
  connect : PlanChange := {}
  ping : PlanChange := {}
  rollback : PlanChange := {}
  close : PlanChange := {}
  manualCommit : Option Bool := none
  options : Option String := none
  deriving DecidableEq, Repr

/-- The plan after a change. -/
def PlanChange.apply (c : PlanChange) (p : Plan) : Plan :=
  { delay := c.delay.getD p.delay
    failures := c.failures.getD p.failures
    message := c.message.getD p.message }

/-- The server after a change. -/
def ServerChange.apply (c : ServerChange) (s : Server) : Server :=
  { s with
    connect := c.connect.apply s.connect
    ping := c.ping.apply s.ping
    rollback := c.rollback.apply s.rollback
    close := c.close.apply s.close
    manualCommit := c.manualCommit.getD s.manualCommit
    options := c.options.getD s.options }

/-- One command of a script. -/
inductive Command where
  | acquire (how : Manner)
  /-- The holder gives the connection back. -/
  | close (how : Manner)
  | ping (query : String) (how : Manner)
  | rollback (how : Manner)
  | closePhysical (how : Manner)
  | invalidate (how : Manner)
  | shutDown (how : Manner)
  | setOptions (options : String) (how : Manner)
  /-- The holder forgets the connection. -/
  | forget (outside : Bool)
  | inspect
  /-- Time goes by, in milliseconds. -/
  | sleep (span : Nat)
  /-- Wait for an operation in the background. -/
  | join (task : String)
  /-- Drop an operation in the background. -/
  | cancel (task : String)
  | changeServer (c : ServerChange)
  | markClosed (conn : Nat) (closed : Bool)
  | markManual (conn : Nat) (manual : Bool)
  | showOptions
  | showConfig
  | showSnapshot
  | showMetrics
  | unknown
  deriving DecidableEq, Repr

/-- One line of a script. -/
structure Line where
  name : String
  /-- The name of the connection that the command is about. -/
  held : Option String := none
  command : Command
  deriving DecidableEq, Repr

end DatabasePool
