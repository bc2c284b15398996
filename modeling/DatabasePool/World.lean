import DatabasePool.Signal
import DatabasePool.Task

/-!
# The world of a pool

The pool together with everything it lives among: the server, the holders of
connections, the clock, and the tasks that are under way.  All that happens is
written down in the history.

This module has the small changes that tasks make: to write something down,
to set a timer, to call the server and hear its answer, to ring the release
signal, to start a task and to give up a slot.
-/

namespace DatabasePool

/-- One connection as its holder has it. -/
structure Handle where
  conn : Nat
  /-- The record at the time of the loan. -/
  record : Record String
  /-- The pool has not taken the connection back. -/
  valid : Bool := true
  /-- The holder has begun to give the connection back. -/
  closed : Bool := false
  deriving DecidableEq, Repr

/-- What can happen. -/
inductive Event where
  /-- A call to the server began. -/
  | began (call : Call)
  /-- A call was answered, for the connection of this number. -/
  | answered (call : Call) (conn : Nat)
  /-- A call failed. -/
  | failed (call : Call)
  /-- A task ended. -/
  | ended (task : Nat) (outcome : Outcome)
  /-- A task was dropped. -/
  | dropped (task : Nat)
  /-- A connection was lent, so long after it was asked for. -/
  | lent (task lease conn latency : Nat)
  /-- A loan ended because the connection was given back. -/
  | returned (lease held : Nat)
  /-- A loan ended because it had lasted too long. -/
  | claimed (lease held : Nat)
  /-- A loan ended because the pool ended. -/
  | withdrawn (lease : Nat)
  /-- A task found a connection bad. -/
  | foundBad (task conn : Nat)
  /-- A connection was dropped where it could not be closed. -/
  | abandoned (conn : Nat)
  deriving DecidableEq, Repr

/-- A pool and all it lives among. -/
structure World where
  config : Config
  server : Server
  pool : Pool
  /-- The holders, by the number of their lease. -/
  handles : List Handle := []
  signal : Signal := {}
  /-- The time, always in whole milliseconds. -/
  now : Nat := 0
  tasks : List Task := []
  /-- The tasks that can go on, in the order in which they are to. -/
  ready : List Nat := []
  /-- The tasks that let all others go first, the last one in front. -/
  yielded : List Nat := []
  /-- The number of the next task. -/
  nextTask : Nat := 0
  /-- The number of the next timer. -/
  nextTimer : Nat := 0
  /-- What happened and when, the last thing in front. -/
  history : List (Nat × Event) := []
  deriving Repr

namespace World

/-- The world of a new pool. -/
def new (config : Config) (server : Server) : World :=
  { config, server, pool := { options := server.options } }

/-- Something happened. -/
def note (w : World) (e : Event) : World :=
  { w with history := (w.now, e) :: w.history }

/-! ## Tasks -/

/-- The task with the given number. -/
def task? (w : World) (id : Nat) : Option Task :=
  w.tasks.find? (·.id == id)

/-- A task comes to another stage. -/
def setStage (w : World) (id : Nat) (s : Stage) : World :=
  { w with
    tasks := w.tasks.map fun t => if t.id = id then { t with stage := s } else t }

/-- The timer of the limit of a task is set. -/
def setLimitTimer (w : World) (id : Nat) (timer : Timer) : World :=
  { w with
    tasks := w.tasks.map fun t =>
      if t.id = id then
        { t with limit := t.limit.map ({ · with timer := some timer }) }
      else t }

/-- A task is gone. -/
def removeTask (w : World) (id : Nat) : World :=
  { w with
    tasks := w.tasks.filter (·.id != id)
    ready := w.ready.filter (· != id)
    yielded := w.yielded.filter (· != id) }

/-- A task can go on, after all those that already can. -/
def wake (w : World) (id : Nat) : World :=
  if w.ready.contains id then w else { w with ready := w.ready ++ [id] }

/-- A task is started. -/
def spawn (w : World) (stage : Stage) (limit : Option Limit) : World :=
  { w with
    tasks := w.tasks ++ [⟨w.nextTask, stage, limit⟩]
    ready := w.ready ++ [w.nextTask]
    nextTask := w.nextTask + 1 }

/-! ## Timers -/

/-- A timer is set for a moment. -/
def setTimer (w : World) (moment : Nat) : Timer × World :=
  (⟨Time.tick moment, w.nextTimer⟩, { w with nextTimer := w.nextTimer + 1 })

/-- The timer has fired. -/
def isDue (w : World) (t : Timer) : Bool := t.due ≤ w.now

/-- A timer is set for the end of a wait that begins now. -/
def setWait (w : World) (span : Nat) : Timer × World :=
  w.setTimer (Time.waited w.now span)

/-! ## Calls -/

/-- A call to the server begins.  The answer comes when it has taken as long as
the server has planned. -/
def beginCall (w : World) (call : Call) : Pending × World :=
  let delay := Time.ofMillis (w.server.plan call).delay
  let (timer, w) := w.setTimer (w.now + delay)
  (⟨call, timer⟩, w.note (.began call))

/-- A call to the server is answered. -/
def hearAnswer (w : World) (call : Call) : Except String Nat × World :=
  let (result, server) := w.server.answer call
  let w := { w with server }
  match result with
  | .ok conn => (.ok conn, w.note (.answered call conn))
  | .error message => (.error message, w.note (.failed call))

/-! ## The release signal -/

/-- A task that waits for a release can go on. -/
def wakeWaiting (w : World) (id : Nat) : World :=
  match w.task? id with
  | some t => if t.stage.isWaiting then w.wake id else w
  | none => w

/-- A task joins the release signal. -/
def join (w : World) (id : Nat) : World :=
  { w with signal := w.signal.join id }

/-- The release signal rings. -/
def ring (w : World) : World :=
  let (told, signal) := w.signal.ring
  let w := { w with signal }
  told.elim w w.wakeWaiting

/-- The release signal rings for all at once. -/
def ringAll (w : World) : World :=
  let (told, signal) := w.signal.ringAll
  told.foldl wakeWaiting { w with signal }

/-- A task leaves the release signal. -/
def leave (w : World) (id : Nat) : World :=
  let (told, signal) := w.signal.leave id
  let w := { w with signal }
  told.elim w w.wakeWaiting

/-! ## Slots and leases -/

/-- A slot is given back, and that is told to one who waits. -/
def freeSlot (w : World) : World :=
  { w with pool := w.pool.free }.ring

/-- A connection is let go of.  It is closed by a task of its own, unless no
task can be started. -/
def letGo (w : World) (outside : Bool) (conn : Nat) : World :=
  if outside then w.note (.abandoned conn) else w.spawn (.closing [conn] []) none

/-- The lease is one under which a connection is held. -/
def isValid (w : World) (lease : Nat) : Bool :=
  (w.handles[lease]?.map (·.valid)).getD false

/-- A lease ends. -/
def revoke (w : World) (lease : Nat) : World :=
  { w with handles := w.handles.modify lease ({ · with valid := false }) }

/-- The holder begins to give the connection back. -/
def markClosed (w : World) (lease : Nat) : World :=
  { w with handles := w.handles.modify lease ({ · with closed := true }) }

end World

end DatabasePool
