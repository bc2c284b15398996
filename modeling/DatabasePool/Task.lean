import DatabasePool.Pool
import DatabasePool.Server

/-!
# Tasks

An operation on the pool is a task.  A task runs until it has to wait, and
what it does then is written down as its stage: what it waits for, and what it
has in hand meanwhile.  So everything that a task would leave behind if it
were dropped can be read off its stage.
-/

namespace DatabasePool

/-- A timer.  Timers that are due at the same time fire in the order in which
they were set. -/
structure Timer where
  /-- When the timer fires, in whole milliseconds. -/
  due : Nat
  /-- The number of the timer. -/
  order : Nat
  deriving DecidableEq, Repr

/-- A call that has begun and is answered when its timer fires. -/
structure Pending where
  call : Call
  timer : Timer
  deriving DecidableEq, Repr

/-- What users of the pool can ask for.  A holder of a connection is known by
the lease. -/
inductive Operation where
  /-- Get a connection. -/
  | acquire
  /-- Give a connection back. -/
  | close (lease : Nat)
  /-- Try the connection that one holds. -/
  | ping (lease : Nat) (query : String)
  /-- Undo what has not been committed on it. -/
  | rollback (lease : Nat)
  /-- Close it for good, past the pool. -/
  | closePhysical (lease : Nat)
  /-- Declare all connections out of date. -/
  | invalidate
  /-- End the pool. -/
  | shutDown
  /-- Open connections with other options from now on. -/
  | setOptions (options : String)
  deriving DecidableEq, Repr

/-- How an operation ended. -/
inductive Outcome where
  /-- With a connection, lent under this lease. -/
  | lent (lease : Nat)
  /-- Well, with nothing to show. -/
  | done
  | failed (e : Error)
  /-- The server refused, with its message. -/
  | refused (message : String)
  /-- It took too long and was dropped. -/
  | cancelled
  /-- The clock does not reach a moment that was needed. -/
  | beyond (o : Time.Overflow)
  deriving DecidableEq, Repr

/-- What a request for a connection keeps through all its attempts. -/
structure Request where
  /-- When the request was made. -/
  since : Nat
  /-- When it gives up. -/
  deadline : Nat
  /-- The bad connections it has met. -/
  bad : Nat
  deriving DecidableEq, Repr

/-- Where one attempt to get a connection stands.  In all stages but the first
and the last, the attempt has a slot. -/
inductive Attempt where
  /-- About to look at what the pool has. -/
  | looking
  /-- About to call the server for a new connection. -/
  | opening (r : Record String) (failures : Nat)
  /-- Waiting for a new connection, for a limited time. -/
  | connecting (r : Record String) (failures : Nat) (call : Pending)
      (limit : Option Timer)
  /-- About to look after a connection that was taken from its holder. -/
  | recovering (e : Entry)
  /-- Waiting for what its holder left to be undone. -/
  | undoing (e : Entry) (call : Pending)
  /-- About to check a connection. -/
  | checking (e : Entry)
  /-- Waiting for the connection to answer a query. -/
  | pinging (e : Entry) (call : Pending)
  /-- About to lend the connection. -/
  | lending (e : Entry)
  /-- Waiting for a connection to be closed.  It may have been bad. -/
  | discarding (call : Pending) (bad : Bool)
  /-- Waiting for a release. -/
  | waiting (since : Nat) (alarm : Timer)
  deriving DecidableEq, Repr

/-- Where the return of a connection stands.  In all stages but the first, the
return has a slot. -/
inductive Return where
  /-- About to end the loan. -/
  | starting (lease : Nat)
  /-- Waiting for what was not committed to be undone. -/
  | undoing (e : Entry) (call : Pending)
  /-- About to keep the connection. -/
  | storing (e : Entry)
  /-- Waiting for the connection to be closed. -/
  | discarding (call : Pending)
  deriving DecidableEq, Repr

/-- What a task is doing. -/
inductive Stage where
  /-- It has not begun. -/
  | start (op : Operation)
  /-- It gets a connection. -/
  | acquire (r : Request) (a : Attempt)
  /-- It gives a connection back. -/
  | giveBack (r : Return)
  /-- It waits for the answer to the call of a holder.  A raw answer is passed
  on as it is. -/
  | asking (call : Pending) (raw : Bool)
  /-- It closes connections, those of `todo` not yet begun. -/
  | closing (todo : List Nat) (calls : List Pending)
  deriving DecidableEq, Repr

/-- How a task goes on. -/
inductive Flow where
  /-- At once. -/
  | again (s : Stage)
  /-- When one of its timers fires or it is woken. -/
  | pause (s : Stage)
  /-- When all tasks that can go on have gone on. -/
  | yield (s : Stage)
  /-- Not at all. -/
  | finish (o : Outcome)
  deriving DecidableEq, Repr

/-- How long an operation may take. -/
structure Limit where
  span : Nat
  /-- What the operation leaves behind is dropped where no task can be
  started. -/
  outside : Bool
  timer : Option Timer := none
  deriving DecidableEq, Repr

/-- One operation, or one piece of work of the pool itself. -/
structure Task where
  id : Nat
  stage : Stage
  limit : Option Limit
  deriving DecidableEq, Repr

/-! ## What a task waits for and what it has in hand -/

namespace Attempt

/-- The timers that an attempt waits for. -/
def timers : Attempt → List Timer
  | connecting _ _ call limit => call.timer :: limit.toList
  | undoing _ call => [call.timer]
  | pinging _ call => [call.timer]
  | discarding call _ => [call.timer]
  | waiting _ alarm => [alarm]
  | _ => []

/-- The attempt has a slot. -/
def hasSlot : Attempt → Bool
  | looking => false
  | waiting _ _ => false
  | _ => true

/-- The entry in the slot of an attempt. -/
def entry? : Attempt → Option Entry
  | recovering e => some e
  | undoing e _ => some e
  | checking e => some e
  | pinging e _ => some e
  | lending e => some e
  | _ => none

/-- The attempt has joined the release signal. -/
def hasJoined : Attempt → Bool
  | looking => false
  | _ => true

/-- The attempt waits for a release. -/
def isWaiting : Attempt → Bool
  | waiting _ _ => true
  | _ => false

end Attempt

namespace Return

/-- The timers that a return waits for. -/
def timers : Return → List Timer
  | undoing _ call => [call.timer]
  | discarding call => [call.timer]
  | _ => []

/-- The return has a slot. -/
def hasSlot : Return → Bool
  | starting _ => false
  | _ => true

/-- The entry in the slot of a return. -/
def entry? : Return → Option Entry
  | undoing e _ => some e
  | storing e => some e
  | _ => none

end Return

namespace Stage

/-- The timers that a stage waits for. -/
def timers : Stage → List Timer
  | start _ => []
  | acquire _ a => a.timers
  | giveBack r => r.timers
  | asking call _ => [call.timer]
  | closing _ calls => calls.map (·.timer)

/-- A slot is taken in this stage. -/
def hasSlot : Stage → Bool
  | acquire _ a => a.hasSlot
  | giveBack r => r.hasSlot
  | _ => false

/-- The entry in the slot of a stage. -/
def entry? : Stage → Option Entry
  | acquire _ a => a.entry?
  | giveBack r => r.entry?
  | _ => none

/-- The task has joined the release signal. -/
def hasJoined : Stage → Bool
  | acquire _ a => a.hasJoined
  | _ => false

/-- The task waits for a release. -/
def isWaiting : Stage → Bool
  | acquire _ a => a.isWaiting
  | _ => false

end Stage

/-- All timers that a task waits for, its limit included. -/
def Task.timers (t : Task) : List Timer :=
  t.stage.timers ++ (t.limit.bind (·.timer)).toList

end DatabasePool
