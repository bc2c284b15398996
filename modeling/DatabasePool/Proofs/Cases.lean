import DatabasePool.Proofs.Frame

/-!
# What can happen at once

The pool and a task decide by cases, and here each decision is taken apart
once.  Later proofs go by these cases and do not open the definitions again.

* `Pool.Offers` has one case for each thing that the pool can have for a
  request, with all that is known about the pool then.
* `Pool.takeLoan?_eq_some` and `Pool.takeOverdue?_eq_some` say that one loan
  is taken out, and no other.  `Pool.lend?_eq_some` and `Pool.store?_eq_some`
  say when an entry is lent or kept.
* `World.Connects`, `World.Waits` and `World.StartsReturn` have one case for
  each way in which a task goes on from a stage with many outcomes.
-/

namespace DatabasePool

/-! ## The pool -/

theorem Record.isOverdue_eq {κ : Type} (r : Record κ) (timeout now : Nat) :
    r.isOverdue timeout now = decide (timeout < r.heldFor now) := by
  unfold isOverdue heldFor
  split <;> simp

namespace Pool

@[simp] theorem reserve_frame (p : Pool) :
    p.reserve.idle = p.idle ∧ p.reserve.active = p.active ∧
      p.reserve.inFlight = p.inFlight + 1 ∧
      p.reserve.generation = p.generation ∧ p.reserve.options = p.options ∧
      p.reserve.shutDown = p.shutDown ∧ p.reserve.lastId = p.lastId := by
  simp [reserve]

@[simp] theorem free_frame (p : Pool) :
    p.free.idle = p.idle ∧ p.free.active = p.active ∧
      p.free.inFlight = p.inFlight - 1 ∧
      p.free.generation = p.generation ∧ p.free.options = p.options ∧
      p.free.shutDown = p.shutDown ∧ p.free.lastId = p.lastId := by
  simp [free]

/-- The loan with the lease is taken out, and all other loans stay. -/
theorem takeLoan?_eq_some {lease : Nat} {p q : Pool} {loan : Loan}
    (h : p.takeLoan? lease = some (loan, q)) :
    loan.lease = lease ∧
      ∃ rest, (loan :: rest).Perm p.active ∧ q = { p with active := rest } := by
  simp only [takeLoan?, Option.bind_eq_bind, Option.bind_eq_some_iff,
    Option.some.injEq, Prod.mk.injEq] at h
  obtain ⟨i, hi, l, hl, rfl, rfl⟩ := h
  refine ⟨?_, removeFilling p.active i, removeFilling_perm hl, rfl⟩
  obtain ⟨hlt, hp, _⟩ := List.findIdx?_eq_some_iff_getElem.1 hi
  rw [List.getElem?_eq_getElem hlt, Option.some.injEq] at hl
  subst hl
  simpa using hp

/-- An overdue loan is taken out that has lasted as long as any, and all other
loans stay. -/
theorem takeOverdue?_eq_some {timeout now : Nat} {p q : Pool} {loan : Loan}
    (h : p.takeOverdue? timeout now = some (loan, q)) :
    loan.entry.record.isOverdue timeout now = true ∧
      (∀ l ∈ p.active, l.heldFor now ≤ loan.heldFor now) ∧
      ∃ rest, (loan :: rest).Perm p.active ∧ q = { p with active := rest } := by
  simp only [takeOverdue?, Option.bind_eq_bind, Option.bind_eq_some_iff] at h
  obtain ⟨⟨i, l⟩, hi, h⟩ := h
  split at h
  · rename_i hdue
    simp only [Option.some.injEq, Prod.mk.injEq] at h
    obtain ⟨rfl, rfl⟩ := h
    exact ⟨hdue, fun _ hm => le_of_lastMax? hi hm, removeFilling p.active i,
      removeFilling_perm (lastMax?_getElem? hi), rfl⟩
  · simp at h

/-- If no overdue loan is taken out, then there is none. -/
theorem takeOverdue?_eq_none {timeout now : Nat} {p : Pool}
    (h : p.takeOverdue? timeout now = none) :
    ∀ l ∈ p.active, l.entry.record.isOverdue timeout now = false := by
  intro l hl
  simp only [takeOverdue?, Option.bind_eq_bind] at h
  rcases hlast : lastMax? (Loan.heldFor now) p.active with _ | ⟨i, m⟩
  · rw [lastMax?_eq_none_iff.1 hlast] at hl
    cases hl
  · rw [hlast] at h
    have hm : m.entry.record.isOverdue timeout now = false := by
      simpa using h
    have hle : l.heldFor now ≤ m.heldFor now := le_of_lastMax? hlast hl
    rw [Record.isOverdue_eq, decide_eq_false_iff_not] at hm ⊢
    exact fun hlt => hm (Nat.lt_of_lt_of_le hlt hle)

theorem lend?_eq_some {lease since now : Nat} {e : Entry} {p q : Pool}
    (h : p.lend? lease since now e = some q) :
    p.isCurrent e.record = true ∧
      q = { p.free with
        active := p.active ++
          [⟨{ e with record := e.record.lend now }, lease⟩]
        metrics := p.metrics.recordRequest (Time.elapsed since now) } := by
  simp only [lend?] at h
  split at h
  · exact ⟨‹_›, (Option.some.inj h).symm⟩
  · cases h

theorem store?_eq_some {maxIdle : Nat} {e : Entry} {p q : Pool}
    (h : p.store? maxIdle e = some q) :
    p.idle.length < maxIdle ∧ p.isCurrent e.record = true ∧
      q = { p.free with idle := e :: p.idle } := by
  simp only [store?] at h
  split at h
  · rename_i hkeep
    simp only [Bool.and_eq_true, decide_eq_true_eq] at hkeep
    exact ⟨hkeep.1, hkeep.2, (Option.some.inj h).symm⟩
  · cases h

/-- What the pool can have for a request. -/
inductive Offers (c : Config) (now : Nat) (p : Pool) : Offer → Pool → Prop where
  | shutDown (hdown : p.shutDown = true) : Offers c now p .shutDown p
  | kept {e : Entry} {rest : List Entry} (hup : p.shutDown = false)
      (hidle : p.idle = e :: rest) :
      Offers c now p (.kept e) { p with idle := rest }.reserve
  | room (hup : p.shutDown = false) (hidle : p.idle = [])
      (hroom : p.hasRoom c.maxActive = true) :
      Offers c now p
        (.room (.fresh (p.lastId + 1) p.options p.generation now))
        { p with lastId := p.lastId + 1 }.reserve
  | overdue {loan : Loan} {q : Pool} (hup : p.shutDown = false)
      (hidle : p.idle = []) (hfull : p.hasRoom c.maxActive = false)
      (htake : p.takeOverdue? c.timeouts.checkout now = some (loan, q)) :
      Offers c now p (.overdue loan)
        { q with
          metrics := q.metrics.recordOverdue (loan.heldFor now) }.reserve
  | nothing {wake : Option Nat} (hup : p.shutDown = false)
      (hidle : p.idle = []) (hfull : p.hasRoom c.maxActive = false)
      (hnone : p.takeOverdue? c.timeouts.checkout now = none)
      (hwake : p.nextOverdue c.timeouts.checkout = .ok wake) :
      Offers c now p (.nothing wake)
        { p with metrics := p.metrics.recordHadToWait }
  | beyond {o : Time.Overflow} (hup : p.shutDown = false)
      (hidle : p.idle = []) (hfull : p.hasRoom c.maxActive = false)
      (hnone : p.takeOverdue? c.timeouts.checkout now = none)
      (hwake : p.nextOverdue c.timeouts.checkout = .error o) :
      Offers c now p (.beyond o)
        { p with metrics := p.metrics.recordHadToWait }

theorem offers {c : Config} {now : Nat} {p p' : Pool} {offer : Offer}
    (h : p.offer c now = (offer, p')) : Offers c now p offer p' := by
  suffices hs : Offers c now p (p.offer c now).1 (p.offer c now).2 by
    rwa [h] at hs
  unfold Pool.offer
  split
  · exact .shutDown ‹_›
  · rename_i hup
    rw [Bool.not_eq_true] at hup
    split
    · exact .kept hup ‹_›
    · rename_i hidle
      split
      · exact .room hup hidle ‹_›
      · rename_i hfull
        rw [Bool.not_eq_true] at hfull
        split
        · exact .overdue hup hidle hfull ‹_›
        · rename_i hnone
          dsimp only
          split
          · exact .nothing hup hidle hfull hnone ‹_›
          · exact .beyond hup hidle hfull hnone ‹_›

end Pool

namespace World

/-! ## Stages with many outcomes -/

/-- What a slot was used for is closed, and the slot is given back in one way
for bad connections and others. -/
theorem discarded_eq (w : World) (id : Nat) (r : Request) (bad : Bool) :
    ∃ r', w.discarded id r bad =
        (.again (.acquire r' .looking), w.freeSlot.leave id) ∨
      w.discarded id r bad =
        (.finish (.failed (.allBad r'.bad)), w.freeSlot.leave id) := by
  unfold discarded
  generalize (if bad then { r with bad := r.bad + 1 } else r) = r'
  refine ⟨r', ?_⟩
  dsimp only
  split
  · exact .inr rfl
  · exact .inl rfl

/-- What a call for a new connection can come to. -/
inductive Connects (w : World) (id : Nat) (r : Request)
    (record : Record String) (failures : Nat) (call : Pending) :
    Flow → World → Prop where
  | opened {conn : Nat} (hdue : w.isDue call.timer = true)
      (hok : (w.hearAnswer call.call).1 = .ok conn) :
      Connects w id r record failures call
        (.again (.acquire r (.lending ⟨conn, record⟩)))
        (w.hearAnswer call.call).2
  | retry {message : String} (hdue : w.isDue call.timer = true)
      (herr : (w.hearAnswer call.call).1 = .error message) :
      Connects w id r record failures call
        (.yield (.acquire r (.opening record (failures + 1))))
        (w.hearAnswer call.call).2
  | refused {message : String} (hdue : w.isDue call.timer = true)
      (herr : (w.hearAnswer call.call).1 = .error message) :
      Connects w id r record failures call
        (.finish (.failed (.refused message)))
        ((w.hearAnswer call.call).2.freeSlot.leave id)
  | timeout {v : World} (hv : v = w ∨ ∃ span, v = (w.setWait span).2) :
      Connects w id r record failures call
        (.finish (.failed .timeout)) (v.freeSlot.leave id)
  | wait {v : World} {limit : Timer}
      (hv : v = w ∨ ∃ span, v = (w.setWait span).2) :
      Connects w id r record failures call
        (.pause (.acquire r (.connecting record failures call limit))) v

theorem connects {w w' : World} {id : Nat} {r : Request}
    {record : Record String} {failures : Nat} {call : Pending}
    {limit : Option Timer} {flow : Flow}
    (h : w.connecting id r record failures call limit = (flow, w')) :
    Connects w id r record failures call flow w' := by
  suffices hs : Connects w id r record failures call
      (w.connecting id r record failures call limit).1
      (w.connecting id r record failures call limit).2 by
    rwa [h] at hs
  unfold connecting
  split
  · rename_i hdue
    cases hanswer : (w.hearAnswer call.call).1 with
    | ok conn =>
      rw [show w.hearAnswer call.call =
        (.ok conn, (w.hearAnswer call.call).2) by rw [← hanswer]]
      exact .opened hdue hanswer
    | error message =>
      rw [show w.hearAnswer call.call =
        (.error message, (w.hearAnswer call.call).2) by rw [← hanswer]]
      dsimp only
      split
      · exact .refused hdue hanswer
      · exact .retry hdue hanswer
  · cases limit with
    | none =>
      dsimp only
      split
      · exact .timeout (.inr ⟨w.config.timeouts.connect, rfl⟩)
      · exact .wait (.inr ⟨w.config.timeouts.connect, rfl⟩)
    | some limit =>
      dsimp only
      split
      · exact .timeout (.inl rfl)
      · exact .wait (.inl rfl)

/-- What a wait for a release can come to. -/
inductive Waits (w : World) (id : Nat) (r : Request) (since : Nat)
    (alarm : Timer) : Flow → World → Prop where
  | on (htold : w.signal.isTold id = false) (hdue : w.isDue alarm = false) :
      Waits w id r since alarm (.pause (.acquire r (.waiting since alarm))) w
  | told {m : Metrics} (htold : w.signal.isTold id = true) :
      Waits w id r since alarm (.again (.acquire r .looking))
        (leave { w with
          signal := w.signal.listen id, pool.metrics := m } id)
  | roused {m : Metrics} (htold : w.signal.isTold id = false)
      (hdue : w.isDue alarm = true) (hearly : w.now < r.deadline) :
      Waits w id r since alarm (.again (.acquire r .looking))
        (leave { w with pool.metrics := m } id)
  | exhausted {m : Metrics} (htold : w.signal.isTold id = false)
      (hdue : w.isDue alarm = true) (hlate : r.deadline ≤ w.now) :
      Waits w id r since alarm
        (.finish (.failed (.exhausted w.config.timeouts.wait)))
        (leave { w with pool.metrics := m } id)

theorem waits {w w' : World} {id : Nat} {r : Request} {since : Nat}
    {alarm : Timer} {flow : Flow}
    (h : w.waiting id r since alarm = (flow, w')) :
    Waits w id r since alarm flow w' := by
  suffices hs : Waits w id r since alarm (w.waiting id r since alarm).1
      (w.waiting id r since alarm).2 by
    rwa [h] at hs
  unfold waiting
  cases htold : w.signal.isTold id with
  | true => exact .told htold
  | false =>
    dsimp only
    simp only [Bool.false_or, Bool.false_eq_true, if_false, Bool.not_false,
      Bool.true_and, decide_eq_true_eq]
    split
    · rename_i hdue
      have hwait : ∀ m, ({ w with pool.metrics := m }.leave id).config = w.config ∧
          ({ w with pool.metrics := m }.leave id).now = w.now := by simp
      rw [(hwait _).1, (hwait _).2]
      split
      · exact .exhausted htold hdue ‹_›
      · exact .roused htold hdue (Nat.lt_of_not_le ‹_›)
    · rename_i hdue
      exact .on htold (by simpa using hdue)

/-- What the beginning of a return can come to, once the loan is ended. -/
inductive StartsReturn (w : World) (lease : Nat) : Flow → World → Prop where
  | tooLate (hnone : w.pool.takeLoan? lease = none) :
      StartsReturn w lease (.finish .done) w
  | discard {loan : Loan} {q : Pool} {m : Metrics}
      (htake : w.pool.takeLoan? lease = some (loan, q)) :
      StartsReturn w lease
        (({ w with pool := { q with metrics := m }.reserve }.note
          (.returned lease (loan.heldFor w.now))).discardReturn
            loan.entry.conn).1
        (({ w with pool := { q with metrics := m }.reserve }.note
          (.returned lease (loan.heldFor w.now))).discardReturn
            loan.entry.conn).2
  | store {loan : Loan} {q : Pool} {m : Metrics}
      (htake : w.pool.takeLoan? lease = some (loan, q)) :
      StartsReturn w lease
        (.again (.giveBack (.storing { loan.entry with
          record := loan.entry.record.giveBack w.now })))
        ({ w with pool := { q with metrics := m }.reserve }.note
          (.returned lease (loan.heldFor w.now)))
  | undo {loan : Loan} {q : Pool} {m : Metrics} {call : Pending}
      (htake : w.pool.takeLoan? lease = some (loan, q))
      (hcall : call.call = .rollback loan.entry.conn) :
      StartsReturn w lease
        (.again (.giveBack (.undoing { loan.entry with
          record := loan.entry.record.giveBack w.now } call)))
        (({ w with pool := { q with metrics := m }.reserve }.note
          (.returned lease (loan.heldFor w.now))).beginCall
            (.rollback loan.entry.conn)).2

theorem startsReturn {w w' : World} {lease : Nat} {flow : Flow}
    (h : w.startReturn lease = (flow, w')) : StartsReturn w lease flow w' := by
  suffices hs : StartsReturn w lease (w.startReturn lease).1
      (w.startReturn lease).2 by
    rwa [h] at hs
  unfold startReturn
  split
  · exact .tooLate ‹_›
  · rename_i loan q htake
    dsimp only
    generalize (if loan.entry.record.options = q.options then _ else _) = m
    split
    · exact .discard htake
    · split
      · exact .store htake
      · exact .undo htake rfl

end World

end DatabasePool
