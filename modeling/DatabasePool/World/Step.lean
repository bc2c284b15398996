import DatabasePool.World.Closing
import DatabasePool.World.Holder
import DatabasePool.World.Return

/-!
# Steps

A step lets the first of the ready tasks do one thing.  If the task goes on at
once, it stays the first one.  When no task is ready, those that let others go
first are, and when there are none of them either, the world is at rest.

At rest only time can bring something about.  `World.advance` moves the clock
to the next timer and wakes whom it concerns.
-/

namespace DatabasePool.World

/-! ## Beginning an operation -/

/-- What an operation does first. -/
def begin (w : World) : Operation → Flow × World
  | .acquire =>
    match Time.later w.now w.config.timeouts.wait with
    | .error o => (.finish (.beyond o), w)
    | .ok deadline => (.again (.acquire ⟨w.now, deadline, 0⟩ .looking), w)
  | .close lease => w.close lease
  | .ping lease query => w.ask lease (.ping · query) false
  | .rollback lease => w.rollback lease
  | .closePhysical lease => w.ask lease .close true
  | .invalidate => w.invalidate
  | .shutDown => w.shutDown
  | .setOptions options =>
    { w with server.options := options, pool.options := options }.invalidate

/-! ## Going on -/

/-- What a task does in a stage. -/
def resume (w : World) (id : Nat) : Stage → Flow × World
  | .start op => w.begin op
  | .acquire r a => w.resumeAcquire id r a
  | .giveBack r => w.resumeReturn r
  | .asking call raw => w.resumeAsking call raw
  | .closing todo calls => w.resumeClosing todo calls

/-- What is left behind when a task is dropped in a stage. -/
def dropStage (w : World) (outside : Bool) (id : Nat) : Stage → World
  | .acquire _ a => w.dropAcquire outside id a
  | .giveBack r => w.dropReturn outside r
  | _ => w

/-- A task is over. -/
def finish (w : World) (id : Nat) (o : Outcome) : World :=
  (w.removeTask id).note (.ended id o)

/-- A task is dropped in the stage it is in. -/
def dropTask (w : World) (outside : Bool) (t : Task) : World :=
  (w.dropStage outside t.id t.stage).removeTask t.id

/-- A task is dropped before it has ended. -/
def cancel (w : World) (id : Nat) : World :=
  match w.task? id with
  | some t => (w.dropTask false t).note (.dropped id)
  | none => w

/-- A task that cannot go on is held to its limit.  The time starts to run
when the task first comes to wait. -/
def checkLimit (w : World) (id : Nat) : World :=
  match w.task? id with
  | none => w
  | some t =>
    match t.limit with
    | none => w
    | some limit =>
      let (timer, w) :=
        match limit.timer with
        | some timer => (timer, w)
        | none =>
          let (timer, w) := w.setWait limit.span
          (timer, w.setLimitTimer id timer)
      if w.isDue timer then
        (w.dropTask limit.outside t).note (.ended id .cancelled)
      else w

/-- A task goes on as it is to. -/
def follow (w : World) (id : Nat) : Flow → World
  | .again s => { w.setStage id s with ready := id :: w.ready }
  | .pause s => (w.setStage id s).checkLimit id
  | .yield s => { w.setStage id s with yielded := id :: w.yielded }.checkLimit id
  | .finish o => w.finish id o

/-- A task does one thing. -/
def run (w : World) (id : Nat) : World :=
  match w.task? id with
  | none => w
  | some t =>
    let (flow, w) := w.resume id t.stage
    w.follow id flow

/-- The next thing that happens without time passing, if there is any. -/
def step (w : World) : Option World :=
  match w.ready with
  | id :: rest => some ({ w with ready := rest }.run id)
  | [] =>
    match w.yielded with
    | [] => none
    | yielded => some { w with ready := yielded, yielded := [] }

/-- Nothing can happen without time passing. -/
def atRest (w : World) : Bool := w.ready.isEmpty && w.yielded.isEmpty

/-! ## Time -/

/-- All timers that tasks wait for, with the tasks. -/
def timers (w : World) : List (Timer × Nat) :=
  w.tasks.flatMap fun t => t.timers.map fun timer => (timer, t.id)

/-- When the next timer fires. -/
def nextDue (w : World) : Option Nat :=
  (w.timers.map (·.1.due)).min?

/-- The clock comes to a moment.  The timers for that moment fire, in the
order in which they were set. -/
def advanceTo (w : World) (moment : Nat) : World :=
  let fired := w.timers.filter (·.1.due = moment)
  let fired := fired.mergeSort fun a b => a.1.order ≤ b.1.order
  fired.foldl (fun w (_, id) => w.wake id) { w with now := moment }

end DatabasePool.World
