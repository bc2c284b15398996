import DatabasePool.World

/-!
# Holders of connections

A holder can use a connection for as long as its lease is valid.  From then on
every use of it is refused, and to the holder the connection is closed and has
nothing left to commit.
-/

namespace DatabasePool.World

/-- The connection that is held, for as long as the lease is valid. -/
def physical (w : World) (lease : Nat) : Except Error Nat :=
  match w.handles[lease]? with
  | some h => if h.valid then .ok h.conn else .error .returned
  | none => .error .returned

/-- To the holder the connection is closed. -/
def isClosedFor (w : World) (lease : Nat) : Bool :=
  match w.physical lease with
  | .ok conn => w.server.isClosed conn
  | .error _ => true

/-- To the holder the connection commits by itself. -/
def isAutoCommitFor (w : World) (lease : Nat) : Bool :=
  match w.physical lease with
  | .ok conn => w.server.isAutoCommit conn
  | .error _ => true

/-- The holder makes a call on the connection.  A raw answer is passed on as
it is. -/
def ask (w : World) (lease : Nat) (call : Nat → Call) (raw : Bool) :
    Flow × World :=
  match w.physical lease with
  | .ok conn =>
    let (call, w) := w.beginCall (call conn)
    (.again (.asking call raw), w)
  | .error e => (.finish (.failed e), w)

/-- The holder undoes what has not been committed.  There is nothing to undo
on a connection that does not know about commits. -/
def rollback (w : World) (lease : Nat) : Flow × World :=
  if w.server.plain && w.isValid lease then (.finish .done, w)
  else w.ask lease .rollback false

/-- Goes on from the call of a holder. -/
def resumeAsking (w : World) (call : Pending) (raw : Bool) : Flow × World :=
  if w.isDue call.timer then
    match w.hearAnswer call.call with
    | (.ok _, w) => (.finish .done, w)
    | (.error message, w) =>
      if raw then (.finish (.refused message), w)
      else (.finish (.failed (.refused message)), w)
  else (.pause (.asking call raw), w)

/-- The holder gives a connection back.  That can be asked for once. -/
def close (w : World) (lease : Nat) : Flow × World :=
  match w.handles[lease]? with
  | some h =>
    if h.closed then (.finish (.failed .returned), w)
    else
      let w := w.markClosed lease
      if h.valid then
        (.again (.giveBack (.starting lease)), w.revoke lease)
      else (.finish .done, w)
  | none => (.finish (.failed .returned), w)

/-- A holder forgets a connection.  If it was not given back, that is done by
a task of its own, unless no task can be started. -/
def forget (w : World) (outside : Bool) (lease : Nat) : World :=
  if w.isValid lease then
    let w := w.revoke lease
    if outside then w else w.spawn (.giveBack (.starting lease)) none
  else w

end DatabasePool.World
