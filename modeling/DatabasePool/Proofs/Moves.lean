import DatabasePool.Proofs.Cases

/-!
# One move of a task

A task that does one thing takes one way through the code.  `World.Moves` has
one case for each of these ways, with all the conditions on it, the flow from
then on, and the world from then on put together from the small changes.  So
it says what the pool, the holders, the server and the history come to, and
what the task was told.

* `World.moves` says that there is no other way.

Later proofs go by these cases and do not open the definitions again.
-/

namespace DatabasePool

/-! ## What moves are put together from -/

/-- The call on the connection that a holder asks for: under which lease,
which call, and whether the answer is passed on as it is. -/
def Operation.asks? : Operation → Option (Nat × (Nat → Call) × Bool)
  | ping lease query => some (lease, (.ping · query), false)
  | rollback lease => some (lease, .rollback, false)
  | closePhysical lease => some (lease, .close, true)
  | _ => none

/-- The call that a task waits for, and for nothing else. -/
def Stage.awaits? : Stage → Option Pending
  | acquire _ (.undoing _ call) => some call
  | acquire _ (.pinging _ call) => some call
  | acquire _ (.discarding call _) => some call
  | giveBack (.undoing _ call) => some call
  | giveBack (.discarding call) => some call
  | asking call _ => some call
  | _ => none

/-- The request after a connection has been closed that was bad or not. -/
def Request.after (bad : Bool) (r : Request) : Request :=
  if bad then { r with bad := r.bad + 1 } else r

namespace World

/-- The pool as a request finds it that has joined the release signal. -/
def seen (w : World) (id : Nat) (p : Pool) : World :=
  { w.join id with pool := p }

/-- The timer that limits a call for a new connection. -/
def connectTimer (w : World) : Option Timer → Timer × World
  | some timer => (timer, w)
  | none => w.setWait w.config.timeouts.connect

/-- A connection has been found bad. -/
def reject (w : World) (id conn : Nat) : World :=
  { w with pool.metrics := w.pool.metrics.recordBad }.note (.foundBad id conn)

/-- A wait for a release is over. -/
def stopWaiting (w : World) (id since : Nat) : World :=
  { w with pool.metrics :=
      w.pool.metrics.recordWait (Time.elapsed since w.now) }.leave id

/-- A loan has ended that was taken out of the pool. -/
def endLoan (w : World) (loan : Loan) (q : Pool) : World :=
  let metrics := q.metrics.recordCheckout (loan.heldFor w.now)
  let metrics :=
    if loan.entry.record.options = q.options then metrics
    else metrics.recordBad
  { w with pool := { q with metrics }.reserve }.note
    (.returned loan.lease (loan.heldFor w.now))

/-- The connection that comes back may be kept. -/
def mayKeep (w : World) (loan : Loan) (q : Pool) : Bool :=
  q.isCurrent loan.entry.record && q.idle.length < w.config.maxIdle &&
    !w.server.isClosed loan.entry.conn

/-- The entry of a loan that comes back. -/
def backEntry (w : World) (loan : Loan) : Entry :=
  { loan.entry with record := loan.entry.record.giveBack w.now }

/-! ## Moves -/

/-- What a task can do in a stage. -/
inductive Moves (w : World) (id : Nat) : Stage → Flow → World → Prop where
  /- Operations begin. -/
  | request {deadline : Nat}
      (hlater : Time.later w.now w.config.timeouts.wait = .ok deadline) :
      Moves w id (.start .acquire)
        (.again (.acquire ⟨w.now, deadline, 0⟩ .looking)) w
  | tooFar {o : Time.Overflow}
      (hlater : Time.later w.now w.config.timeouts.wait = .error o) :
      Moves w id (.start .acquire) (.finish (.beyond o)) w
  | close {lease : Nat} {x : Handle} (hheld : w.handles[lease]? = some x)
      (hopen : x.closed = false) (hvalid : x.valid = true) :
      Moves w id (.start (.close lease))
        (.again (.giveBack (.starting lease)))
        ((w.markClosed lease).revoke lease)
  | closeLate {lease : Nat} {x : Handle} (hheld : w.handles[lease]? = some x)
      (hopen : x.closed = false) (hvalid : x.valid = false) :
      Moves w id (.start (.close lease)) (.finish .done) (w.markClosed lease)
  | closeAgain {lease : Nat}
      (hclosed : ∀ x, w.handles[lease]? = some x → x.closed = true) :
      Moves w id (.start (.close lease)) (.finish (.failed .returned)) w
  | ask {op : Operation} {lease conn : Nat} {call : Nat → Call} {raw : Bool}
      (hop : op.asks? = some (lease, call, raw))
      (hplain : op = .rollback lease → w.server.plain = false)
      (hheld : w.physical lease = .ok conn) :
      Moves w id (.start op)
        (.again (.asking (w.beginCall (call conn)).1 raw))
        (w.beginCall (call conn)).2
  | askLate {op : Operation} {lease : Nat} {call : Nat → Call} {raw : Bool}
      (hop : op.asks? = some (lease, call, raw))
      (hheld : w.physical lease = .error .returned) :
      Moves w id (.start op) (.finish (.failed .returned)) w
  | plain {lease : Nat} (hplain : w.server.plain = true)
      (hvalid : w.isValid lease = true) :
      Moves w id (.start (.rollback lease)) (.finish .done) w
  | invalidate :
      Moves w id (.start .invalidate)
        (.again (.closing (w.pool.invalidate.1.map (·.conn)) []))
        { w with pool := w.pool.invalidate.2 }
  | setOptions (options : String) :
      Moves w id (.start (.setOptions options))
        (.again (.closing (w.pool.invalidate.1.map (·.conn)) []))
        { w with
          server.options := options
          pool := { w.pool with options }.invalidate.2 }
  | shutDown (hup : w.pool.shutDown = false) :
      Moves w id (.start .shutDown)
        (.again (.closing (w.pool.close.1.map (·.conn) ++
          w.pool.close.2.1.map (·.entry.conn)) []))
        (w.pool.close.2.1.foldl
          (fun w loan => (w.revoke loan.lease).note (.withdrawn loan.lease))
          (ringAll { w with pool := w.pool.close.2.2 }))
  | shutDownAgain (hdown : w.pool.shutDown = true) :
      Moves w id (.start .shutDown) (.finish .done) w
  /- A request looks at what the pool has. -/
  | ended {r : Request} (hdown : w.pool.shutDown = true) :
      Moves w id (.acquire r .looking) (.finish (.failed .shutDown))
        ((w.seen id w.pool).leave id)
  | take {r : Request} {e : Entry} {rest : List Entry}
      (hup : w.pool.shutDown = false) (hidle : w.pool.idle = e :: rest) :
      Moves w id (.acquire r .looking) (.again (.acquire r (.checking e)))
        (w.seen id { w.pool with idle := rest }.reserve)
  | makeRoom {r : Request} (hup : w.pool.shutDown = false)
      (hidle : w.pool.idle = [])
      (hroom : w.pool.hasRoom w.config.maxActive = true) :
      Moves w id (.acquire r .looking)
        (.again (.acquire r (.opening (.fresh (w.pool.lastId + 1)
          w.pool.options w.pool.generation w.now) 0)))
        (w.seen id { w.pool with lastId := w.pool.lastId + 1 }.reserve)
  | claim {r : Request} {loan : Loan} {q : Pool}
      (hup : w.pool.shutDown = false) (hidle : w.pool.idle = [])
      (hfull : w.pool.hasRoom w.config.maxActive = false)
      (htake : w.pool.takeOverdue? w.config.timeouts.checkout w.now =
        some (loan, q)) :
      Moves w id (.acquire r .looking)
        (.again (.acquire r (.recovering
          { loan.entry with record := loan.entry.record.takeBack })))
        (((w.seen id { q with
          metrics := q.metrics.recordOverdue
            (loan.heldFor w.now) }.reserve).revoke loan.lease).note
              (.claimed loan.lease (loan.heldFor w.now)))
  | wait {r : Request} {wake : Option Nat} {alarm : Timer} {v : World}
      (hup : w.pool.shutDown = false) (hidle : w.pool.idle = [])
      (hfull : w.pool.hasRoom w.config.maxActive = false)
      (hnone : w.pool.takeOverdue? w.config.timeouts.checkout w.now = none)
      (hwake : w.pool.nextOverdue w.config.timeouts.checkout = .ok wake)
      (halarm : World.setTimer
        (w.seen id { w.pool with metrics := w.pool.metrics.recordHadToWait })
        (wake.elim r.deadline (min r.deadline)) = (alarm, v)) :
      Moves w id (.acquire r .looking)
        (.again (.acquire r (.waiting w.now alarm))) v
  | outOfReach {r : Request} {o : Time.Overflow}
      (hup : w.pool.shutDown = false) (hidle : w.pool.idle = [])
      (hfull : w.pool.hasRoom w.config.maxActive = false)
      (hnone : w.pool.takeOverdue? w.config.timeouts.checkout w.now = none)
      (hwake : w.pool.nextOverdue w.config.timeouts.checkout = .error o) :
      Moves w id (.acquire r .looking) (.finish (.beyond o))
        ((w.seen id { w.pool with
          metrics := w.pool.metrics.recordHadToWait }).leave id)
  /- A new connection is opened. -/
  | dial {r : Request} {record : Record String} {failures : Nat} :
      Moves w id (.acquire r (.opening record failures))
        (.again (.acquire r (.connecting record failures
          (w.beginCall (.connect w.server.options)).1 none)))
        (w.beginCall (.connect w.server.options)).2
  | connect {r : Request} {record : Record String} {failures conn : Nat}
      {call : Pending} {limit : Option Timer}
      (hdue : w.isDue call.timer = true)
      (hok : (w.hearAnswer call.call).1 = .ok conn) :
      Moves w id (.acquire r (.connecting record failures call limit))
        (.again (.acquire r (.lending ⟨conn, record⟩)))
        (w.hearAnswer call.call).2
  | retry {r : Request} {record : Record String} {failures : Nat}
      {call : Pending} {limit : Option Timer} {message : String}
      (hdue : w.isDue call.timer = true)
      (herr : (w.hearAnswer call.call).1 = .error message)
      (hfew : failures < connectRetries) :
      Moves w id (.acquire r (.connecting record failures call limit))
        (.yield (.acquire r (.opening record (failures + 1))))
        (w.hearAnswer call.call).2
  | refused {r : Request} {record : Record String} {failures : Nat}
      {call : Pending} {limit : Option Timer} {message : String}
      (hdue : w.isDue call.timer = true)
      (herr : (w.hearAnswer call.call).1 = .error message)
      (hmany : connectRetries ≤ failures) :
      Moves w id (.acquire r (.connecting record failures call limit))
        (.finish (.failed (.refused message)))
        ((w.hearAnswer call.call).2.freeSlot.leave id)
  | timeout {r : Request} {record : Record String} {failures : Nat}
      {call : Pending} {limit : Option Timer}
      (hnot : w.isDue call.timer = false)
      (hlate : w.isDue (w.connectTimer limit).1 = true) :
      Moves w id (.acquire r (.connecting record failures call limit))
        (.finish (.failed .timeout))
        ((w.connectTimer limit).2.freeSlot.leave id)
  | stayConnecting {r : Request} {record : Record String} {failures : Nat}
      {call : Pending} {limit : Option Timer}
      (hnot : w.isDue call.timer = false)
      (hearly : w.isDue (w.connectTimer limit).1 = false) :
      Moves w id (.acquire r (.connecting record failures call limit))
        (.pause (.acquire r (.connecting record failures call
          (w.connectTimer limit).1)))
        (w.connectTimer limit).2
  /- A connection that was taken from its holder is looked after. -/
  | recoverClosed {r : Request} {e : Entry}
      (hclosed : w.server.isClosed e.conn = true) :
      Moves w id (.acquire r (.recovering e))
        (.again (.acquire r
          (.discarding (w.beginCall (.close e.conn)).1 false)))
        (w.beginCall (.close e.conn)).2
  | recoverClean {r : Request} {e : Entry}
      (hopen : w.server.isClosed e.conn = false)
      (hauto : w.server.isAutoCommit e.conn = true) :
      Moves w id (.acquire r (.recovering e))
        (.again (.acquire r (.checking e))) w
  | recoverUndo {r : Request} {e : Entry}
      (hopen : w.server.isClosed e.conn = false)
      (hmanual : w.server.isAutoCommit e.conn = false) :
      Moves w id (.acquire r (.recovering e))
        (.again (.acquire r
          (.undoing e (w.beginCall (.rollback e.conn)).1)))
        (w.beginCall (.rollback e.conn)).2
  | undone {r : Request} {e : Entry} {call : Pending} {conn : Nat}
      (hdue : w.isDue call.timer = true)
      (hok : (w.hearAnswer call.call).1 = .ok conn) :
      Moves w id (.acquire r (.undoing e call))
        (.again (.acquire r (.checking e))) (w.hearAnswer call.call).2
  | notUndone {r : Request} {e : Entry} {call : Pending} {message : String}
      (hdue : w.isDue call.timer = true)
      (herr : (w.hearAnswer call.call).1 = .error message) :
      Moves w id (.acquire r (.undoing e call))
        (.again (.acquire r (.discarding
          ((w.hearAnswer call.call).2.beginCall (.close e.conn)).1 false)))
        ((w.hearAnswer call.call).2.beginCall (.close e.conn)).2
  /- A connection is checked. -/
  | stale {r : Request} {e : Entry}
      (hstale : w.pool.isCurrent e.record = false) :
      Moves w id (.acquire r (.checking e))
        (.again (.acquire r
          (.discarding (w.beginCall (.close e.conn)).1 false)))
        (w.beginCall (.close e.conn)).2
  | foundClosed {r : Request} {e : Entry}
      (hcurrent : w.pool.isCurrent e.record = true)
      (hclosed : w.server.isClosed e.conn = true) :
      Moves w id (.acquire r (.checking e))
        (.again (.acquire r (.discarding
          ((w.reject id e.conn).beginCall (.close e.conn)).1 true)))
        ((w.reject id e.conn).beginCall (.close e.conn)).2
  | ping {r : Request} {e : Entry}
      (hcurrent : w.pool.isCurrent e.record = true)
      (hopen : w.server.isClosed e.conn = false)
      (hneeded : w.config.ping.isDue (e.record.idleTime w.now) = true) :
      Moves w id (.acquire r (.checking e))
        (.again (.acquire r (.pinging e
          (w.beginCall (.ping e.conn w.config.ping.query)).1)))
        (w.beginCall (.ping e.conn w.config.ping.query)).2
  | good {r : Request} {e : Entry}
      (hcurrent : w.pool.isCurrent e.record = true)
      (hopen : w.server.isClosed e.conn = false)
      (hneeded : w.config.ping.isDue (e.record.idleTime w.now) = false) :
      Moves w id (.acquire r (.checking e))
        (.again (.acquire r (.lending e))) w
  | pinged {r : Request} {e : Entry} {call : Pending} {conn : Nat}
      (hdue : w.isDue call.timer = true)
      (hok : (w.hearAnswer call.call).1 = .ok conn) :
      Moves w id (.acquire r (.pinging e call))
        (.again (.acquire r (.lending e))) (w.hearAnswer call.call).2
  | notPinged {r : Request} {e : Entry} {call : Pending} {message : String}
      (hdue : w.isDue call.timer = true)
      (herr : (w.hearAnswer call.call).1 = .error message) :
      Moves w id (.acquire r (.pinging e call))
        (.again (.acquire r (.discarding
          (((w.hearAnswer call.call).2.reject id e.conn).beginCall
            (.close e.conn)).1 true)))
        (((w.hearAnswer call.call).2.reject id e.conn).beginCall
          (.close e.conn)).2
  /- A connection is lent, or is out of date by now. -/
  | lend {r : Request} {e : Entry} {p : Pool}
      (hlend : w.pool.lend? w.handles.length r.since w.now e = some p) :
      Moves w id (.acquire r (.lending e))
        (.finish (.lent w.handles.length))
        ((note { w with
            pool := p
            handles := w.handles ++
              [{ conn := e.conn, record := e.record.lend w.now }] }
          (.lent id w.handles.length e.conn
            (Time.elapsed r.since w.now))).leave id)
  | lendStale {r : Request} {e : Entry}
      (hstale : w.pool.lend? w.handles.length r.since w.now e = none) :
      Moves w id (.acquire r (.lending e))
        (.again (.acquire r
          (.discarding (w.beginCall (.close e.conn)).1 false)))
        (w.beginCall (.close e.conn)).2
  /- A connection has been closed. -/
  | allBad {r : Request} {call : Pending}
      (hdue : w.isDue call.timer = true)
      (hmany : w.config.badLimit < r.bad + 1) :
      Moves w id (.acquire r (.discarding call true))
        (.finish (.failed (.allBad (r.bad + 1))))
        ((w.hearAnswer call.call).2.freeSlot.leave id)
  | tryAgain {r : Request} {call : Pending} {bad : Bool}
      (hdue : w.isDue call.timer = true)
      (hfew : bad = true → r.bad + 1 ≤ w.config.badLimit) :
      Moves w id (.acquire r (.discarding call bad))
        (.again (.acquire (r.after bad) .looking))
        ((w.hearAnswer call.call).2.freeSlot.leave id)
  /- A request waits for a release. -/
  | stayWaiting {r : Request} {since : Nat} {alarm : Timer}
      (htold : w.signal.isTold id = false) (hdue : w.isDue alarm = false) :
      Moves w id (.acquire r (.waiting since alarm))
        (.pause (.acquire r (.waiting since alarm))) w
  | told {r : Request} {since : Nat} {alarm : Timer}
      (htold : w.signal.isTold id = true) :
      Moves w id (.acquire r (.waiting since alarm))
        (.again (.acquire r .looking))
        ({ w with signal := w.signal.listen id }.stopWaiting id since)
  | roused {r : Request} {since : Nat} {alarm : Timer}
      (htold : w.signal.isTold id = false) (hdue : w.isDue alarm = true)
      (hearly : w.now < r.deadline) :
      Moves w id (.acquire r (.waiting since alarm))
        (.again (.acquire r .looking)) (w.stopWaiting id since)
  | exhausted {r : Request} {since : Nat} {alarm : Timer}
      (htold : w.signal.isTold id = false) (hdue : w.isDue alarm = true)
      (hlate : r.deadline ≤ w.now) :
      Moves w id (.acquire r (.waiting since alarm))
        (.finish (.failed (.exhausted w.config.timeouts.wait)))
        (w.stopWaiting id since)
  /- A connection comes back. -/
  | tooLate {lease : Nat} (hnone : w.pool.takeLoan? lease = none) :
      Moves w id (.giveBack (.starting lease)) (.finish .done) w
  | turnAway {lease : Nat} {loan : Loan} {q : Pool}
      (htake : w.pool.takeLoan? lease = some (loan, q))
      (hkeep : w.mayKeep loan q = false) :
      Moves w id (.giveBack (.starting lease))
        (.again (.giveBack (.discarding
          ((w.endLoan loan q).beginCall (.close loan.entry.conn)).1)))
        ((w.endLoan loan q).beginCall (.close loan.entry.conn)).2
  | returnClean {lease : Nat} {loan : Loan} {q : Pool}
      (htake : w.pool.takeLoan? lease = some (loan, q))
      (hkeep : w.mayKeep loan q = true)
      (hauto : w.server.isAutoCommit loan.entry.conn = true) :
      Moves w id (.giveBack (.starting lease))
        (.again (.giveBack (.storing (w.backEntry loan))))
        (w.endLoan loan q)
  | returnUndo {lease : Nat} {loan : Loan} {q : Pool}
      (htake : w.pool.takeLoan? lease = some (loan, q))
      (hkeep : w.mayKeep loan q = true)
      (hmanual : w.server.isAutoCommit loan.entry.conn = false) :
      Moves w id (.giveBack (.starting lease))
        (.again (.giveBack (.undoing (w.backEntry loan)
          ((w.endLoan loan q).beginCall (.rollback loan.entry.conn)).1)))
        ((w.endLoan loan q).beginCall (.rollback loan.entry.conn)).2
  | returnUndone {e : Entry} {call : Pending} {conn : Nat}
      (hdue : w.isDue call.timer = true)
      (hok : (w.hearAnswer call.call).1 = .ok conn) :
      Moves w id (.giveBack (.undoing e call))
        (.again (.giveBack (.storing e))) (w.hearAnswer call.call).2
  | returnNotUndone {e : Entry} {call : Pending} {message : String}
      (hdue : w.isDue call.timer = true)
      (herr : (w.hearAnswer call.call).1 = .error message) :
      Moves w id (.giveBack (.undoing e call))
        (.again (.giveBack (.discarding
          ((w.hearAnswer call.call).2.beginCall (.close e.conn)).1)))
        ((w.hearAnswer call.call).2.beginCall (.close e.conn)).2
  | store {e : Entry} {p : Pool}
      (hstore : w.pool.store? w.config.maxIdle e = some p) :
      Moves w id (.giveBack (.storing e)) (.finish .done)
        { w with pool := p }.ring
  | noRoom {e : Entry} (hstore : w.pool.store? w.config.maxIdle e = none) :
      Moves w id (.giveBack (.storing e))
        (.again (.giveBack (.discarding (w.beginCall (.close e.conn)).1)))
        (w.beginCall (.close e.conn)).2
  | returnDiscarded {call : Pending} (hdue : w.isDue call.timer = true) :
      Moves w id (.giveBack (.discarding call)) (.finish .done)
        (w.hearAnswer call.call).2.freeSlot
  /- A call is answered to a holder, or is still to be answered. -/
  | answered {call : Pending} {raw : Bool} {conn : Nat}
      (hdue : w.isDue call.timer = true)
      (hok : (w.hearAnswer call.call).1 = .ok conn) :
      Moves w id (.asking call raw) (.finish .done) (w.hearAnswer call.call).2
  | denied {call : Pending} {raw : Bool} {message : String}
      (hdue : w.isDue call.timer = true)
      (herr : (w.hearAnswer call.call).1 = .error message) :
      Moves w id (.asking call raw)
        (.finish (if raw then .refused message
          else .failed (.refused message)))
        (w.hearAnswer call.call).2
  | awaits {s : Stage} {call : Pending} (hcall : s.awaits? = some call)
      (hnot : w.isDue call.timer = false) : Moves w id s (.pause s) w
  /- Many connections are closed. -/
  | closed {todo : List Nat} {calls : List Pending}
      (hnone : (w.hearAnswers calls).1 ++
        ((w.hearAnswers calls).2.beginCloses todo).1 = []) :
      Moves w id (.closing todo calls) (.finish .done)
        ((w.hearAnswers calls).2.beginCloses todo).2
  | closing {todo : List Nat} {calls calls' : List Pending}
      (hsome : (w.hearAnswers calls).1 ++
        ((w.hearAnswers calls).2.beginCloses todo).1 = calls')
      (hne : calls' ≠ []) :
      Moves w id (.closing todo calls) (.pause (.closing [] calls'))
        ((w.hearAnswers calls).2.beginCloses todo).2

section Completeness

variable {w : World} {id : Nat}

/-- What is refused to a holder is refused because the lease has ended. -/
theorem physical_error {lease : Nat} {e : Error}
    (h : w.physical lease = .error e) : e = .returned := by
  unfold physical at h
  split at h
  · split at h
    · cases h
    · exact (Except.error.inj h).symm
  · exact (Except.error.inj h).symm

theorem moves_ask {op : Operation} {lease : Nat} {call : Nat → Call}
    {raw : Bool} (hop : op.asks? = some (lease, call, raw))
    (hplain : op = .rollback lease → w.physical lease ≠ .error .returned →
      w.server.plain = false) :
    Moves w id (.start op) (w.ask lease call raw).1
      (w.ask lease call raw).2 := by
  unfold World.ask
  split
  · rename_i conn hheld
    exact .ask hop (fun ho => hplain ho (by simp [hheld])) hheld
  · rename_i e hheld
    obtain rfl := physical_error hheld
    exact .askLate hop hheld

theorem moves_begin (op : Operation) :
    Moves w id (.start op) (w.begin op).1 (w.begin op).2 := by
  cases op with
  | acquire =>
    simp only [begin]
    split
    · exact .tooFar ‹_›
    · exact .request ‹_›
  | close lease =>
    simp only [begin, World.close]
    split
    · rename_i x hheld
      cases hclosed : x.closed with
      | true =>
        refine .closeAgain fun y hy => ?_
        obtain rfl := Option.some.inj (hheld.symm.trans hy)
        exact hclosed
      | false =>
        cases hvalid : x.valid with
        | true => exact .close hheld hclosed hvalid
        | false => exact .closeLate hheld hclosed hvalid
    · rename_i hnone
      refine .closeAgain fun y hy => ?_
      cases hnone.symm.trans hy
  | ping lease query => exact moves_ask rfl (fun h => by cases h)
  | rollback lease =>
    simp only [begin, World.rollback]
    split
    · rename_i hc
      rw [Bool.and_eq_true] at hc
      exact .plain hc.1 hc.2
    · rename_i hc
      refine moves_ask rfl fun _ hheld => ?_
      have hvalid : w.isValid lease = true := by
        unfold physical at hheld
        unfold isValid
        split at hheld
        · rename_i x hx
          cases hv : x.valid with
          | true => simp [hx, hv]
          | false => simp [hv] at hheld
        · exact absurd rfl hheld
      simpa [hvalid] using hc
  | closePhysical lease => exact moves_ask rfl (fun h => by cases h)
  | invalidate => exact .invalidate
  | shutDown =>
    simp only [begin, World.shutDown]
    split
    · exact .shutDownAgain ‹_›
    · rename_i hup
      exact .shutDown (by simpa using hup)
  | setOptions options => exact .setOptions options

theorem moves_look (r : Request) :
    Moves w id (.acquire r .looking) (w.look id r).1 (w.look id r).2 := by
  unfold look
  dsimp only
  rcases hoffer : (w.join id).pool.offer (w.join id).config (w.join id).now
    with ⟨offer, p⟩
  cases Pool.offers hoffer with
  | shutDown hdown => exact .ended hdown
  | kept hup hidle => exact .take hup hidle
  | room hup hidle hroom => exact .makeRoom hup hidle hroom
  | overdue hup hidle hfull htake => exact .claim hup hidle hfull htake
  | nothing hup hidle hfull hnone hwake =>
    exact .wait hup hidle hfull hnone hwake rfl
  | beyond hup hidle hfull hnone hwake =>
    exact .outOfReach hup hidle hfull hnone hwake

/-- What a call is answered, as a pair. -/
theorem hearAnswer_eq {call : Call} {x : Except String Nat} {v : World}
    (h : w.hearAnswer call = (x, v)) :
    (w.hearAnswer call).1 = x ∧ v = (w.hearAnswer call).2 := by
  rw [h]
  exact ⟨rfl, rfl⟩

theorem moves_connecting (r : Request) (record : Record String)
    (failures : Nat) (call : Pending) (limit : Option Timer) :
    Moves w id (.acquire r (.connecting record failures call limit))
      (w.connecting id r record failures call limit).1
      (w.connecting id r record failures call limit).2 := by
  unfold connecting
  split
  · rename_i hdue
    split
    all_goals
      rename_i heq
      obtain ⟨hx, rfl⟩ := hearAnswer_eq heq
    · exact .connect hdue hx
    · split
      · exact .refused hdue hx ‹_›
      · exact .retry hdue hx (Nat.lt_of_not_le ‹_›)
  · rename_i hnot
    rw [Bool.not_eq_true] at hnot
    have hnow : (w.connectTimer limit).2.isDue = w.isDue := by
      cases limit <;> rfl
    show Moves w id _ (if (w.connectTimer limit).2.isDue
      (w.connectTimer limit).1 then _ else _ : Flow × World).1
      (if (w.connectTimer limit).2.isDue
        (w.connectTimer limit).1 then _ else _ : Flow × World).2
    rw [hnow]
    split
    · exact .timeout hnot ‹_›
    · exact .stayConnecting hnot (Bool.eq_false_iff.2 ‹_›)

theorem moves_check (r : Request) (e : Entry) :
    Moves w id (.acquire r (.checking e)) (w.check id r e).1
      (w.check id r e).2 := by
  unfold check
  cases hcurrent : w.pool.isCurrent e.record with
  | false => exact .stale hcurrent
  | true =>
    cases hclosed : w.server.isClosed e.conn with
    | true => exact .foundClosed hcurrent hclosed
    | false =>
      cases hneeded : w.config.ping.isDue (e.record.idleTime w.now) with
      | true => exact .ping hcurrent hclosed hneeded
      | false => exact .good hcurrent hclosed hneeded

theorem moves_recover (r : Request) (e : Entry) :
    Moves w id (.acquire r (.recovering e)) (w.recover r e).1
      (w.recover r e).2 := by
  unfold recover
  cases hclosed : w.server.isClosed e.conn with
  | true => exact .recoverClosed hclosed
  | false =>
    cases hauto : w.server.isAutoCommit e.conn with
    | true => exact .recoverClean hclosed hauto
    | false => exact .recoverUndo hclosed hauto

theorem moves_discarded {r : Request} {call : Pending} {bad : Bool}
    (hdue : w.isDue call.timer = true) :
    Moves w id (.acquire r (.discarding call bad))
      ((w.hearAnswer call.call).2.discarded id r bad).1
      ((w.hearAnswer call.call).2.discarded id r bad).2 := by
  have hconfig : ((w.hearAnswer call.call).2.freeSlot.leave id).config =
      w.config := by
    simp
  unfold discarded
  dsimp only
  rw [hconfig]
  cases bad with
  | false => exact .tryAgain hdue (fun h => by cases h)
  | true =>
    simp only [Bool.true_and, decide_eq_true_eq, if_true]
    split
    · exact .allBad hdue ‹_›
    · exact .tryAgain hdue fun _ => Nat.le_of_not_lt ‹_›

theorem moves_waiting (r : Request) (since : Nat) (alarm : Timer) :
    Moves w id (.acquire r (.waiting since alarm))
      (w.waiting id r since alarm).1 (w.waiting id r since alarm).2 := by
  unfold waiting
  cases htold : w.signal.isTold id with
  | true => exact .told htold
  | false =>
    cases hdue : w.isDue alarm with
    | false => exact .stayWaiting htold hdue
    | true =>
      have hstop : ∀ m, (leave { w with pool.metrics := m } id).config =
          w.config ∧ (leave { w with pool.metrics := m } id).now = w.now := by
        simp
      simp only [Bool.or_true, if_true, Bool.false_eq_true, if_false,
        Bool.not_false, Bool.true_and, decide_eq_true_eq]
      rw [(hstop _).1, (hstop _).2]
      split
      · exact .exhausted htold hdue ‹_›
      · exact .roused htold hdue (Nat.lt_of_not_le ‹_›)

theorem moves_resumeAcquire (r : Request) (a : Attempt) :
    Moves w id (.acquire r a) (w.resumeAcquire id r a).1
      (w.resumeAcquire id r a).2 := by
  cases a with
  | looking => exact moves_look r
  | opening record failures => exact .dial
  | connecting record failures call limit => exact moves_connecting ..
  | recovering e => exact moves_recover r e
  | checking e => exact moves_check r e
  | undoing e call =>
    simp only [resumeAcquire]
    split
    · split
      all_goals
        rename_i heq
        obtain ⟨hx, rfl⟩ := hearAnswer_eq heq
      · exact .undone ‹_› hx
      · exact .notUndone ‹_› hx
    · exact .awaits rfl (Bool.eq_false_iff.2 ‹_›)
  | pinging e call =>
    simp only [resumeAcquire]
    split
    · split
      all_goals
        rename_i heq
        obtain ⟨hx, rfl⟩ := hearAnswer_eq heq
      · exact .pinged ‹_› hx
      · exact .notPinged ‹_› hx
    · exact .awaits rfl (Bool.eq_false_iff.2 ‹_›)
  | lending e =>
    simp only [resumeAcquire, World.lend]
    split
    · exact .lend ‹_›
    · exact .lendStale ‹_›
  | discarding call bad =>
    simp only [resumeAcquire]
    split
    · exact moves_discarded ‹_›
    · exact .awaits rfl (Bool.eq_false_iff.2 ‹_›)
  | waiting since alarm => exact moves_waiting ..

/-- The end of a loan, put together from its parts. -/
theorem startReturn_eq {loan : Loan} {q : Pool}
    (htake : w.pool.takeLoan? loan.lease = some (loan, q)) :
    w.startReturn loan.lease =
      if !w.mayKeep loan q then
        (w.endLoan loan q).discardReturn loan.entry.conn
      else if w.server.isAutoCommit loan.entry.conn then
        (.again (.giveBack (.storing (w.backEntry loan))), w.endLoan loan q)
      else
        (.again (.giveBack (.undoing (w.backEntry loan)
          ((w.endLoan loan q).beginCall (.rollback loan.entry.conn)).1)),
          ((w.endLoan loan q).beginCall (.rollback loan.entry.conn)).2) := by
  simp only [startReturn, htake]
  rfl

theorem moves_startReturn (lease : Nat) :
    Moves w id (.giveBack (.starting lease)) (w.startReturn lease).1
      (w.startReturn lease).2 := by
  cases htake : w.pool.takeLoan? lease with
  | none =>
    simp only [startReturn, htake]
    exact .tooLate htake
  | some x =>
    obtain ⟨loan, q⟩ := x
    obtain ⟨rfl, -⟩ := Pool.takeLoan?_eq_some htake
    rw [startReturn_eq htake]
    cases hkeep : w.mayKeep loan q with
    | false => exact .turnAway htake hkeep
    | true =>
      cases hauto : w.server.isAutoCommit loan.entry.conn with
      | true => exact .returnClean htake hkeep hauto
      | false => exact .returnUndo htake hkeep hauto

theorem moves_resumeReturn (r : Return) :
    Moves w id (.giveBack r) (w.resumeReturn r).1 (w.resumeReturn r).2 := by
  cases r with
  | starting lease => exact moves_startReturn lease
  | undoing e call =>
    simp only [resumeReturn]
    split
    · split
      all_goals
        rename_i heq
        obtain ⟨hx, rfl⟩ := hearAnswer_eq heq
      · exact .returnUndone ‹_› hx
      · exact .returnNotUndone ‹_› hx
    · exact .awaits rfl (Bool.eq_false_iff.2 ‹_›)
  | storing e =>
    simp only [resumeReturn, World.store]
    split
    · exact .store ‹_›
    · exact .noRoom ‹_›
  | discarding call =>
    simp only [resumeReturn]
    split
    · exact .returnDiscarded ‹_›
    · exact .awaits rfl (Bool.eq_false_iff.2 ‹_›)

theorem moves_resumeClosing (todo : List Nat) (calls : List Pending) :
    Moves w id (.closing todo calls) (w.resumeClosing todo calls).1
      (w.resumeClosing todo calls).2 := by
  unfold resumeClosing
  dsimp only
  split
  · exact .closed ‹_›
  · rename_i hne
    exact .closing rfl fun h => hne h

/-- Whatever a task does is one of its moves. -/
theorem moves (w : World) (id : Nat) (s : Stage) :
    Moves w id s (w.resume id s).1 (w.resume id s).2 := by
  cases s with
  | start op => exact moves_begin op
  | acquire r a => exact moves_resumeAcquire r a
  | giveBack r => exact moves_resumeReturn r
  | asking call raw =>
    simp only [resume, resumeAsking]
    split
    · split
      all_goals
        rename_i heq
        obtain ⟨hx, rfl⟩ := hearAnswer_eq heq
      · exact .answered ‹_› hx
      · cases raw with
        | true => exact .denied ‹_› hx
        | false => exact .denied ‹_› hx
    · exact .awaits rfl (Bool.eq_false_iff.2 ‹_›)
  | closing todo calls => exact moves_resumeClosing todo calls

theorem moves_of_eq {s : Stage} {flow : Flow} {v : World}
    (h : w.resume id s = (flow, v)) : Moves w id s flow v := by
  have hm := moves w id s
  rwa [h] at hm

end Completeness

end World

end DatabasePool
