import DatabasePool.World.Acquire

/-!
# Giving a connection back

A connection that comes back is kept for later if it is current, if there is
room for it, and if it is open.  What was not committed on it is undone first,
and when that is over there still has to be room.  Otherwise the connection is
closed.  Either way the slot is given back in the end.
-/

namespace DatabasePool.World

/-- The connection that came back is begun to be closed. -/
def discardReturn (w : World) (conn : Nat) : Flow × World :=
  let (call, w) := w.beginCall (.close conn)
  (.again (.giveBack (.discarding call)), w)

/-- Ends the loan.  If the pool has ended it already, there is nothing to give
back. -/
def startReturn (w : World) (lease : Nat) : Flow × World :=
  match w.pool.takeLoan? lease with
  | none => (.finish .done, w)
  | some (loan, pool) =>
    let record := loan.entry.record
    let metrics := pool.metrics.recordCheckout (loan.heldFor w.now)
    let metrics :=
      if record.options = pool.options then metrics else metrics.recordBad
    let keep :=
      pool.isCurrent record && pool.idle.length < w.config.maxIdle &&
        !w.server.isClosed loan.entry.conn
    let e : Entry := { loan.entry with record := record.giveBack w.now }
    let w := { w with pool := { pool with metrics }.reserve }
    let w := w.note (.returned lease (loan.heldFor w.now))
    if !keep then w.discardReturn e.conn
    else if w.server.isAutoCommit e.conn then
      (.again (.giveBack (.storing e)), w)
    else
      let (call, w) := w.beginCall (.rollback e.conn)
      (.again (.giveBack (.undoing e call)), w)

/-- Keeps the connection, if that is still possible. -/
def store (w : World) (e : Entry) : Flow × World :=
  match w.pool.store? w.config.maxIdle e with
  | some pool => (.finish .done, { w with pool }.ring)
  | none => w.discardReturn e.conn

/-- What a return does in a stage. -/
def resumeReturn (w : World) : Return → Flow × World
  | .starting lease => w.startReturn lease
  | .undoing e call =>
    if w.isDue call.timer then
      match w.hearAnswer call.call with
      | (.ok _, w) => (.again (.giveBack (.storing e)), w)
      | (.error _, w) => w.discardReturn e.conn
    else (.pause (.giveBack (.undoing e call)), w)
  | .storing e => w.store e
  | .discarding call =>
    if w.isDue call.timer then
      (.finish .done, (w.hearAnswer call.call).2.freeSlot)
    else (.pause (.giveBack (.discarding call)), w)

/-- What is left behind when a return is dropped. -/
def dropReturn (w : World) (outside : Bool) (r : Return) : World :=
  let w := r.entry?.elim w fun e => w.letGo outside e.conn
  if r.hasSlot then w.freeSlot else w

end DatabasePool.World
