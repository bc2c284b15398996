import DatabasePool.World

/-!
# Closing many connections

To declare all connections out of date, and to end the pool, is to hand over
many connections at once to be closed.  Their closing is begun in order, all
at the same moment, and the task ends when the last of them has been answered.
-/

namespace DatabasePool.World

/-- The connections are begun to be closed, one after the other.  One that is
closed at once is done with before the next one. -/
def beginCloses (w : World) : List Nat → List Pending × World
  | [] => ([], w)
  | conn :: conns =>
    let (call, w) := w.beginCall (.close conn)
    if w.isDue call.timer then
      (w.hearAnswer call.call).2.beginCloses conns
    else
      let (calls, w) := w.beginCloses conns
      (call :: calls, w)

/-- The answers to those calls that are due are heard.  The other calls are
left. -/
def hearAnswers (w : World) : List Pending → List Pending × World
  | [] => ([], w)
  | call :: calls =>
    if w.isDue call.timer then
      (w.hearAnswer call.call).2.hearAnswers calls
    else
      let (calls, w) := w.hearAnswers calls
      (call :: calls, w)

/-- All connections are declared out of date. -/
def invalidate (w : World) : Flow × World :=
  let (entries, pool) := w.pool.invalidate
  (.again (.closing (entries.map (·.conn)) []), { w with pool })

/-- The pool ends. -/
def shutDown (w : World) : Flow × World :=
  if w.pool.shutDown then (.finish .done, w)
  else
    let (entries, loans, pool) := w.pool.close
    let w := { w with pool }.ringAll
    let w := loans.foldl
      (fun w loan => (w.revoke loan.lease).note (.withdrawn loan.lease)) w
    let conns := entries.map (·.conn) ++ loans.map (·.entry.conn)
    (.again (.closing conns []), w)

/-- Begins what has not begun, and hears what has been answered. -/
def resumeClosing (w : World) (todo : List Nat) (calls : List Pending) :
    Flow × World :=
  let (calls, w) := w.hearAnswers calls
  let (begun, w) := w.beginCloses todo
  match calls ++ begun with
  | [] => (.finish .done, w)
  | calls => (.pause (.closing [] calls), w)

end DatabasePool.World
