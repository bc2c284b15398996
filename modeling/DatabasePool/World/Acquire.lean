import DatabasePool.World

/-!
# Getting a connection

A request goes through attempts.  Each attempt joins the release signal and
then takes what the pool has for it.  A connection that was kept or taken back
is checked before it is lent.  A new one is lent as soon as it is open.  In
both cases the pool may have moved on meanwhile, and then the connection is
discarded and the next attempt begins.

`World.resumeAcquire` is what an attempt does from one stage to the next, and
`World.dropAcquire` is what it leaves behind when it is dropped.
-/

namespace DatabasePool

/-- How often an attempt to open a connection may fail before the last one. -/
def connectRetries : Nat := 3

namespace World

/-- The connection in the slot is begun to be closed. -/
def discardAttempt (w : World) (r : Request) (conn : Nat) (bad : Bool) :
    Flow × World :=
  let (call, w) := w.beginCall (.close conn)
  (.again (.acquire r (.discarding call bad)), w)

/-- The connection in the slot is bad. -/
def rejectAttempt (w : World) (id : Nat) (r : Request) (conn : Nat) :
    Flow × World :=
  let w := { w with pool.metrics := w.pool.metrics.recordBad }
  (w.note (.foundBad id conn)).discardAttempt r conn true

/-- The request ends with an error while it has a slot. -/
def failAttempt (w : World) (id : Nat) (o : Outcome) : Flow × World :=
  (.finish o, w.freeSlot.leave id)

/-- Looks at what the pool has. -/
def look (w : World) (id : Nat) (r : Request) : Flow × World :=
  let w := w.join id
  let (offer, pool) := w.pool.offer w.config w.now
  let w := { w with pool }
  match offer with
  | .shutDown => (.finish (.failed .shutDown), w.leave id)
  | .beyond o => (.finish (.beyond o), w.leave id)
  | .kept e => (.again (.acquire r (.checking e)), w)
  | .room record => (.again (.acquire r (.opening record 0)), w)
  | .overdue loan =>
    let w := w.revoke loan.lease
    let w := w.note (.claimed loan.lease (loan.heldFor w.now))
    let e := { loan.entry with record := loan.entry.record.takeBack }
    (.again (.acquire r (.recovering e)), w)
  | .nothing wake =>
    let (alarm, w) := w.setTimer (wake.elim r.deadline (min r.deadline))
    (.again (.acquire r (.waiting w.now alarm)), w)

/-- Goes on from a call for a new connection. -/
def connecting (w : World) (id : Nat) (r : Request) (record : Record String)
    (failures : Nat) (call : Pending) (limit : Option Timer) : Flow × World :=
  if w.isDue call.timer then
    match w.hearAnswer call.call with
    | (.ok conn, w) => (.again (.acquire r (.lending ⟨conn, record⟩)), w)
    | (.error message, w) =>
      if connectRetries ≤ failures then
        w.failAttempt id (.failed (.refused message))
      else (.yield (.acquire r (.opening record (failures + 1))), w)
  else
    let (timer, w) :=
      match limit with
      | some timer => (timer, w)
      | none => w.setWait w.config.timeouts.connect
    if w.isDue timer then w.failAttempt id (.failed .timeout)
    else (.pause (.acquire r (.connecting record failures call timer)), w)

/-- Looks after a connection that was taken from its holder. -/
def recover (w : World) (r : Request) (e : Entry) : Flow × World :=
  if w.server.isClosed e.conn then w.discardAttempt r e.conn false
  else if w.server.isAutoCommit e.conn then
    (.again (.acquire r (.checking e)), w)
  else
    let (call, w) := w.beginCall (.rollback e.conn)
    (.again (.acquire r (.undoing e call)), w)

/-- Checks a connection that was kept or taken back. -/
def check (w : World) (id : Nat) (r : Request) (e : Entry) : Flow × World :=
  if !w.pool.isCurrent e.record then w.discardAttempt r e.conn false
  else if w.server.isClosed e.conn then w.rejectAttempt id r e.conn
  else if w.config.ping.isDue (e.record.idleTime w.now) then
    let (call, w) := w.beginCall (.ping e.conn w.config.ping.query)
    (.again (.acquire r (.pinging e call)), w)
  else (.again (.acquire r (.lending e)), w)

/-- Lends a connection. -/
def lend (w : World) (id : Nat) (r : Request) (e : Entry) : Flow × World :=
  let lease := w.handles.length
  match w.pool.lend? lease r.since w.now e with
  | some pool =>
    let handle : Handle := { conn := e.conn, record := e.record.lend w.now }
    let w := { w with pool, handles := w.handles ++ [handle] }
    let w := w.note (.lent id lease e.conn (Time.elapsed r.since w.now))
    (.finish (.lent lease), w.leave id)
  | none => w.discardAttempt r e.conn false

/-- Goes on from a connection that was closed.  A bad one counts. -/
def discarded (w : World) (id : Nat) (r : Request) (bad : Bool) :
    Flow × World :=
  let w := w.freeSlot
  let r := if bad then { r with bad := r.bad + 1 } else r
  let w := w.leave id
  if bad && w.config.badLimit < r.bad then
    (.finish (.failed (.allBad r.bad)), w)
  else (.again (.acquire r .looking), w)

/-- Goes on from a wait for a release. -/
def waiting (w : World) (id : Nat) (r : Request) (since : Nat)
    (alarm : Timer) : Flow × World :=
  let told := w.signal.isTold id
  if told || w.isDue alarm then
    let w := if told then { w with signal := w.signal.listen id } else w
    let metrics := w.pool.metrics.recordWait (Time.elapsed since w.now)
    let w := { w with pool.metrics := metrics }
    let w := w.leave id
    if !told && r.deadline ≤ w.now then
      (.finish (.failed (.exhausted w.config.timeouts.wait)), w)
    else (.again (.acquire r .looking), w)
  else (.pause (.acquire r (.waiting since alarm)), w)

/-- What a request does in a stage. -/
def resumeAcquire (w : World) (id : Nat) (r : Request) : Attempt → Flow × World
  | .looking => w.look id r
  | .opening record failures =>
    let (call, w) := w.beginCall (.connect w.server.options)
    (.again (.acquire r (.connecting record failures call none)), w)
  | .connecting record failures call limit =>
    w.connecting id r record failures call limit
  | .recovering e => w.recover r e
  | .undoing e call =>
    if w.isDue call.timer then
      match w.hearAnswer call.call with
      | (.ok _, w) => (.again (.acquire r (.checking e)), w)
      | (.error _, w) => w.discardAttempt r e.conn false
    else (.pause (.acquire r (.undoing e call)), w)
  | .checking e => w.check id r e
  | .pinging e call =>
    if w.isDue call.timer then
      match w.hearAnswer call.call with
      | (.ok _, w) => (.again (.acquire r (.lending e)), w)
      | (.error _, w) => w.rejectAttempt id r e.conn
    else (.pause (.acquire r (.pinging e call)), w)
  | .lending e => w.lend id r e
  | .discarding call bad =>
    if w.isDue call.timer then (w.hearAnswer call.call).2.discarded id r bad
    else (.pause (.acquire r (.discarding call bad)), w)
  | .waiting since alarm => w.waiting id r since alarm

/-- What is left behind when a request is dropped: the connection in its slot
is let go of, then the slot is given back, and last it leaves the release
signal. -/
def dropAcquire (w : World) (outside : Bool) (id : Nat) (a : Attempt) : World :=
  let w := a.entry?.elim w fun e => w.letGo outside e.conn
  let w := if a.hasSlot then w.freeSlot else w
  if a.hasJoined then w.leave id else w

end World

end DatabasePool
