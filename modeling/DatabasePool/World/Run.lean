import DatabasePool.Snapshot
import DatabasePool.World.Step

/-!
# Runs

A world is created with a configuration that has no fault.  Operations are
started in it, and then it runs: until it is at rest, until a task has ended,
or until a moment.  Each run is a number of steps with a bound that worlds do
not reach.
-/

namespace DatabasePool.World

/-- The world of a new pool, unless the configuration has a fault. -/
def create (config : Config) (server : Server) : Except Error World :=
  match config.fault? with
  | some fault => .error fault.toError
  | none => .ok (new config server)

/-- What the pool shows of itself. -/
def snapshot (w : World) : Snapshot :=
  { config := w.config
    active := w.pool.active.length
    idle := w.pool.idle.length
    generation := w.pool.generation
    shutDown := w.pool.shutDown
    metrics := w.pool.metrics }

/-- An operation is started.  It goes on after all that is ready already. -/
def start (w : World) (op : Operation) (limit : Option Limit) : Nat × World :=
  (w.nextTask, w.spawn (.start op) limit)

/-- More steps than a world takes to come to rest, and more stops than it
makes on its way to a moment. -/
def patience (w : World) : Nat :=
  let size := w.tasks.length + w.pool.idle.length + w.pool.active.length
  10000 * (size + 10) * (size + 10)

/-- The world after at most so many steps. -/
def steps : Nat → World → World
  | 0, w => w
  | n + 1, w =>
    match w.step with
    | none => w
    | some w => steps n w

/-- The world comes to rest. -/
def settle (w : World) : World := steps w.patience w

/-- The task is under way. -/
def isUnderWay (w : World) (id : Nat) : Bool := (w.task? id).isSome

/-- The world runs until a task has ended and all is at rest, with at most so
many stops. -/
def runToEndIn (id : Nat) : Nat → World → World
  | 0, w => w.settle
  | n + 1, w =>
    let w := w.settle
    if w.isUnderWay id then
      match w.nextDue with
      | none => w
      | some moment => runToEndIn id n (w.advanceTo moment)
    else w

/-- The world runs until a task has ended and all is at rest. -/
def runToEnd (w : World) (id : Nat) : World := runToEndIn id w.patience w

/-- The world runs until a moment, with at most so many stops. -/
def runUntilIn (moment : Nat) : Nat → World → World
  | 0, w => w.settle
  | n + 1, w =>
    let w := w.settle
    match w.nextDue with
    | none => { w with now := moment }
    | some due =>
      if due ≤ moment then runUntilIn moment n (w.advanceTo due)
      else { w with now := moment }

/-- The world runs until a moment, and what is due at that moment happens. -/
def runUntil (w : World) (moment : Nat) : World :=
  runUntilIn moment w.patience w

end DatabasePool.World
