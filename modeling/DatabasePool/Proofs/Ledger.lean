import DatabasePool.Proofs.Tasks

/-!
# The ledger of a pool

Who has a connection can be told from the pool and from what each task has in
hand.  So a world is taken for its books, `World.books`, and for the hands of
its tasks, `World.hands`, and everything that happens in it is a sequence of
deals.  A deal changes the books and one hand, and `Deals` has one case for
each kind of deal.

Calls, timers, the release signal and the order of the tasks are no part of
this.  An account that is `Kept` by the deals is kept by all that happens.

* `Deals` is the list of all deals.
* `Kept` says what it takes for an account to be kept.
* `World.books_hearAnswer` and its like say which entries of the books a small
  change touches.
-/

namespace DatabasePool

/-! ## Hands -/

/-- What a task has in hand. -/
inductive Hand where
  | nothing
  /-- A lease that is to end. -/
  | lease (lease : Nat)
  /-- A slot, for a connection that is to be opened. -/
  | room (r : Record String)
  /-- A slot with a connection. -/
  | entry (e : Entry)
  /-- Connections to be closed, perhaps with a slot.  Their closing has not
  ended. -/
  | closing (slot : Bool) (conns : List Nat)
  deriving DecidableEq, Repr

/-- The connection that a call closes. -/
def Call.closes? : Call → Option Nat
  | .close conn => some conn
  | _ => none

/-- The connections that some calls close. -/
def toClose (calls : List Pending) : List Nat :=
  calls.filterMap (·.call.closes?)

@[simp] theorem toClose_nil : toClose [] = [] := rfl

theorem toClose_cons {call : Pending} {conn : Nat}
    (h : call.call = .close conn) (calls : List Pending) :
    toClose (call :: calls) = conn :: toClose calls := by
  rw [toClose, List.filterMap_cons_some (by rw [h]; rfl)]
  rfl

@[simp] theorem toClose_append (calls calls' : List Pending) :
    toClose (calls ++ calls') = toClose calls ++ toClose calls' :=
  List.filterMap_append ..

/-- The connection whose closing has ended, well or not. -/
def Event.closed? : Event → Option Nat
  | .answered call _ => call.closes?
  | .failed call => call.closes?
  | _ => none

namespace Hand

/-- There is a slot in the hand. -/
def hasSlot : Hand → Bool
  | room _ => true
  | entry _ => true
  | closing slot _ => slot
  | _ => false

/-- The connections in the hand. -/
def conns : Hand → List Nat
  | entry e => [e.conn]
  | closing _ conns => conns
  | _ => []

theorem conns_of :
    nothing.conns = [] ∧ (∀ l, (lease l).conns = []) ∧
      (∀ r, (room r).conns = []) ∧ (∀ e, (entry e).conns = [e.conn]) ∧
      ∀ slot conns, (closing slot conns).conns = conns := by
  simp [conns]

/-- The connections that are lost when the hand is dropped: no one closes
them. -/
def loses (outside : Bool) : Hand → List Nat
  | entry e => if outside then [e.conn] else []
  | closing _ conns => conns
  | _ => []

end Hand

/-- What an attempt has in hand. -/
def Attempt.hand : Attempt → Hand
  | looking => .nothing
  | opening r _ => .room r
  | connecting r _ _ _ => .room r
  | recovering e => .entry e
  | undoing e _ => .entry e
  | checking e => .entry e
  | pinging e _ => .entry e
  | lending e => .entry e
  | discarding call _ => .closing true (toClose [call])
  | waiting _ _ => .nothing

/-- What a return has in hand. -/
def Return.hand : Return → Hand
  | starting lease => .lease lease
  | undoing e _ => .entry e
  | storing e => .entry e
  | discarding call => .closing true (toClose [call])

/-- What a task has in hand. -/
def Stage.hand : Stage → Hand
  | start _ => .nothing
  | acquire _ a => a.hand
  | giveBack r => r.hand
  | asking _ _ => .nothing
  | closing todo calls => .closing false (toClose calls ++ todo)

/-- What a task has in hand from then on. -/
def Flow.hand : Flow → Hand
  | again s => s.hand
  | pause s => s.hand
  | yield s => s.hand
  | finish _ => .nothing

/-- A task has a slot exactly if there is one in its hand. -/
@[simp] theorem Stage.hasSlot_hand (s : Stage) : s.hand.hasSlot = s.hasSlot := by
  cases s with
  | acquire r a => cases a <;> rfl
  | giveBack r => cases r <;> rfl
  | _ => rfl

theorem Stage.hand_of_entry? {s : Stage} {e : Entry}
    (h : s.entry? = some e) : s.hand = .entry e := by
  cases s with
  | acquire r a => cases a <;> cases h <;> rfl
  | giveBack r => cases r <;> cases h <;> rfl
  | _ => cases h

theorem Stage.entry?_of_hand {s : Stage} {e : Entry}
    (h : s.hand = .entry e) : s.entry? = some e := by
  cases s with
  | acquire r a => cases a <;> cases h <;> rfl
  | giveBack r => cases r <;> cases h <;> rfl
  | _ => cases h

/-! ## Books -/

/-- Who has what, apart from the hands of the tasks. -/
structure Books where
  pool : Pool
  handles : List Handle
  /-- How many connections have been opened. -/
  opened : Nat
  /-- The connections whose closing has ended. -/
  closed : List Nat
  /-- The connections that no one closes any more. -/
  lost : List Nat

namespace Books

/-- The lease has ended. -/
def HasEnded (b : Books) (lease : Nat) : Prop :=
  ∀ h, b.handles[lease]? = some h → h.valid = false

end Books

/-- One deal: how the books change, and a hand with them. -/
inductive Deals (c : Config) : Books → Hand → Books → Hand → Prop where
  /-- Something is counted. -/
  | count {b : Books} {h : Hand} (m : Metrics) :
      Deals c b h { b with pool.metrics := m } h
  /-- Other options are set. -/
  | choose {b : Books} {h : Hand} (options : String) :
      Deals c b h { b with pool.options := options } h
  /-- A connection has been closed. -/
  | close {b : Books} {h : Hand} (conn : Nat) :
      Deals c b h { b with closed := conn :: b.closed } h
  /-- A lease ends. -/
  | revoke {b : Books} {h : Hand} (lease : Nat) :
      Deals c b h
        { b with handles := b.handles.modify lease ({ · with valid := false }) }
        h
  /-- A holder begins to give a connection back. -/
  | mark {b : Books} {h : Hand} (lease : Nat) :
      Deals c b h
        { b with handles := b.handles.modify lease ({ · with closed := true }) }
        h
  /-- A connection that was kept is taken. -/
  | take {b : Books} {e : Entry} {rest : List Entry}
      (hup : b.pool.shutDown = false) (hidle : b.pool.idle = e :: rest) :
      Deals c b .nothing
        { b with pool := { b.pool with idle := rest }.reserve } (.entry e)
  /-- Room is made for a new connection. -/
  | makeRoom {b : Books} (now : Nat) (hup : b.pool.shutDown = false)
      (hidle : b.pool.idle = []) (hroom : b.pool.hasRoom c.maxActive = true) :
      Deals c b .nothing
        { b with pool := { b.pool with lastId := b.pool.lastId + 1 }.reserve }
        (.room (.fresh (b.pool.lastId + 1) b.pool.options b.pool.generation now))
  /-- An overdue connection is taken from its holder. -/
  | claim {b : Books} {loan : Loan} {p : Pool} (now : Nat)
      (hup : b.pool.shutDown = false) (hidle : b.pool.idle = [])
      (hfull : b.pool.hasRoom c.maxActive = false)
      (htake : b.pool.takeOverdue? c.timeouts.checkout now = some (loan, p))
      (hended : b.HasEnded loan.lease) :
      Deals c b .nothing { b with pool := p.reserve }
        (.entry { loan.entry with record := loan.entry.record.takeBack })
  /-- A new connection is opened. -/
  | connect {b : Books} {r : Record String} :
      Deals c b (.room r) { b with opened := b.opened + 1 }
        (.entry ⟨b.opened, r⟩)
  /-- No connection is opened after all. -/
  | giveUp {b : Books} {r : Record String} :
      Deals c b (.room r) b (.closing true [])
  /-- A connection is lent. -/
  | lend {b : Books} {e : Entry} {p : Pool} (since now : Nat)
      (hlend : b.pool.lend? b.handles.length since now e = some p) :
      Deals c b (.entry e)
        { b with
          pool := p
          handles := b.handles ++
            [{ conn := e.conn, record := e.record.lend now }] }
        .nothing
  /-- A holder gives up the lease. -/
  | callIn {b : Books} {lease : Nat} (hlt : lease < b.handles.length)
      (hended : b.HasEnded lease) : Deals c b .nothing b (.lease lease)
  /-- There is nothing to give back under a lease, or no one to do it. -/
  | tooLate {b : Books} {lease : Nat} : Deals c b (.lease lease) b .nothing
  /-- The loan ends. -/
  | giveBack {b : Books} {lease : Nat} {loan : Loan} {p : Pool} (now : Nat)
      (htake : b.pool.takeLoan? lease = some (loan, p)) :
      Deals c b (.lease lease) { b with pool := p.reserve }
        (.entry { loan.entry with record := loan.entry.record.giveBack now })
  /-- A connection is kept for later. -/
  | store {b : Books} {e : Entry} {p : Pool}
      (hstore : b.pool.store? c.maxIdle e = some p) :
      Deals c b (.entry e) { b with pool := p } .nothing
  /-- A connection is to be closed. -/
  | discard {b : Books} {e : Entry} :
      Deals c b (.entry e) b (.closing true [e.conn])
  /-- One of the connections to be closed has been closed. -/
  | hear {b : Books} {slot : Bool} {conn : Nat} {conns rest : List Nat}
      (hclosed : conn ∈ b.closed) (hconns : conns.Perm (conn :: rest)) :
      Deals c b (.closing slot conns) b (.closing slot rest)
  /-- A slot is given back. -/
  | free {b : Books} {conns : List Nat} :
      Deals c b (.closing true conns) { b with pool := b.pool.free }
        (.closing false conns)
  /-- All is closed. -/
  | done {b : Books} : Deals c b (.closing false []) b .nothing
  /-- No one closes the connections any more. -/
  | lose {b : Books} {slot : Bool} {conns : List Nat} :
      Deals c b (.closing slot conns) { b with lost := conns ++ b.lost }
        (.closing slot [])
  /-- All connections are declared out of date. -/
  | invalidate {b : Books} :
      Deals c b .nothing { b with pool := b.pool.invalidate.2 }
        (.closing false (b.pool.invalidate.1.map (·.conn)))
  /-- The pool ends, once all its leases have ended. -/
  | shutDown {b : Books}
      (hended : ∀ loan ∈ b.pool.active, b.HasEnded loan.lease) :
      Deals c b .nothing { b with pool := b.pool.close.2.2 }
        (.closing false (b.pool.close.1.map (·.conn) ++
          b.pool.close.2.1.map (·.entry.conn)))

/-- An account of the books and of all hands is kept: the order of the hands
does not count, neither do empty hands, and no deal spoils it. -/
structure Kept (c : Config) (I : Books → List Hand → Prop) : Prop where
  perm {b : Books} {hs hs' : List Hand} (h : hs.Perm hs') (hi : I b hs) :
    I b hs'
  join {b : Books} {hs : List Hand} (hi : I b hs) : I b (.nothing :: hs)
  leave {b : Books} {hs : List Hand} (hi : I b (.nothing :: hs)) : I b hs
  deal {b b' : Books} {h h' : Hand} {hs : List Hand} (hd : Deals c b h b' h')
    (hi : I b (h :: hs)) : I b' (h' :: hs)

namespace World

/-! ## The books and the hands of a world -/

/-- The books of a world.  The connections that were lost are not to be seen
in a world, so they are added. -/
def books (w : World) (lost : List Nat) : Books where
  pool := w.pool
  handles := w.handles
  opened := w.server.connections.length
  closed := w.history.filterMap (·.2.closed?)
  lost := lost

/-- What the tasks of a world have in hand. -/
def hands (w : World) : List Hand := w.tasks.map (·.stage.hand)

/-- The hands are one hand and all the others. -/
theorem Distinct.perm_hands {w : World} (h : w.Distinct) {id : Nat} {t : Task}
    (ht : w.task? id = some t) :
    w.hands.Perm (t.stage.hand :: (w.others id).map (·.stage.hand)) := by
  obtain rfl := id_of_task? ht
  exact (h.perm_others (mem_of_task? ht)).map _

section Frame

variable (w : World) (lost : List Nat)

@[simp] theorem books_note (e : Event) :
    (w.note e).books lost =
      { w.books lost with
        closed := e.closed?.toList ++ (w.books lost).closed } := by
  cases he : e.closed? <;> simp [books, note, he]

@[simp] theorem books_beginCall (call : Call) :
    (w.beginCall call).2.books lost = w.books lost := by
  simp [books, Event.closed?]

@[simp] theorem books_setWait (span : Nat) :
    (w.setWait span).2.books lost = w.books lost := rfl

@[simp] theorem books_join (id : Nat) :
    (w.join id).books lost = w.books lost := by
  simp [books]

@[simp] theorem books_leave (id : Nat) :
    (w.leave id).books lost = w.books lost := by
  simp [books]

@[simp] theorem books_ring : w.ring.books lost = w.books lost := by
  simp [books]

@[simp] theorem books_freeSlot :
    w.freeSlot.books lost =
      { w.books lost with pool := (w.books lost).pool.free } := by
  simp [books]

@[simp] theorem books_revoke (lease : Nat) :
    (w.revoke lease).books lost =
      { w.books lost with
        handles := (w.books lost).handles.modify lease
          ({ · with valid := false }) } := by
  simp [books, revoke]

@[simp] theorem books_markClosed (lease : Nat) :
    (w.markClosed lease).books lost =
      { w.books lost with
        handles := (w.books lost).handles.modify lease
          ({ · with closed := true }) } := by
  simp [books, markClosed]

@[simp] theorem books_letGo (outside : Bool) (conn : Nat) :
    (w.letGo outside conn).books lost = w.books lost := by
  unfold letGo
  split
  · simp [Event.closed?]
  · rfl

/-- A task that is dropped gives its slot back, and that is all. -/
theorem books_dropStage (outside : Bool) (id : Nat) (s : Stage) :
    (w.dropStage outside id s).books lost =
      if s.hasSlot then
        { w.books lost with pool := (w.books lost).pool.free }
      else w.books lost := by
  cases s with
  | acquire r a =>
    show (w.dropAcquire outside id a).books lost =
      if a.hasSlot then _ else _
    unfold dropAcquire
    cases a.entry? <;> cases a.hasSlot <;> cases a.hasJoined <;> simp
  | giveBack r =>
    show (w.dropReturn outside r).books lost = if r.hasSlot then _ else _
    unfold dropReturn
    cases r.entry? <;> cases r.hasSlot <;> simp
  | _ => rfl

theorem books_timed {w v : World} {id : Nat} (h : Timed w id v) :
    v.books lost = w.books lost ∧ v.hands = w.hands := by
  obtain ⟨-, hserver, hpool, hhandles, -, -, -, -, hhistory⟩ := h.frame
  refine ⟨?_, ?_⟩
  · simp only [books, hserver, hpool, hhandles, hhistory]
  · have hmap := congrArg (List.map fun x => x.2.hand) h.map_stage
    simpa only [hands, List.map_map, Function.comp_def] using hmap

/-- The answer to a call for a new connection: there is one more, or not. -/
theorem books_hearAnswer_connect (options : String) :
    ((w.hearAnswer (.connect options)).1 = .ok (w.books lost).opened ∧
        (w.hearAnswer (.connect options)).2.books lost =
          { w.books lost with opened := (w.books lost).opened + 1 }) ∨
      (∃ message, (w.hearAnswer (.connect options)).1 = .error message) ∧
        (w.hearAnswer (.connect options)).2.books lost = w.books lost := by
  unfold hearAnswer
  have ha := w.server.answer_connect options
  rcases hs : w.server.answer (.connect options) with ⟨result, server⟩
  rw [hs] at ha
  obtain ⟨rfl, hlen⟩ | ⟨⟨message, rfl⟩, hlen⟩ := ha
  · exact .inl ⟨rfl, by simpa [books, Event.closed?, Call.closes?] using hlen⟩
  · exact .inr ⟨⟨message, rfl⟩,
      by simpa [books, Event.closed?, Call.closes?] using hlen⟩

/-- The answer to any other call: what it was to close has been closed. -/
theorem books_hearAnswer {call : Call}
    (h : ∀ options, call ≠ .connect options) :
    (w.hearAnswer call).2.books lost =
      { w.books lost with
        closed := call.closes?.toList ++ (w.books lost).closed } := by
  unfold hearAnswer
  have hlen := w.server.answer_length h
  rcases hs : w.server.answer call with ⟨_ | _, server⟩
  all_goals
    rw [hs] at hlen
    cases hc : call.closes? <;>
      simpa [books, Event.closed?, hc] using hlen

@[simp] theorem books_hearAnswer_rollback (conn : Nat) :
    (w.hearAnswer (.rollback conn)).2.books lost = w.books lost :=
  books_hearAnswer w lost (by simp)

@[simp] theorem books_hearAnswer_ping (conn : Nat) (query : String) :
    (w.hearAnswer (.ping conn query)).2.books lost = w.books lost :=
  books_hearAnswer w lost (by simp)

end Frame

end World

end DatabasePool
