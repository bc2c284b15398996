import DatabasePool.Proofs.Records

/-!
# The history of each checkout

A checkout begins when a request ends with a connection, under the next lease.
It ends at most once: the connection comes back, or a request claims it, or the
pool ends.  `World.checkouts` reads all this off the history.  The book does
not look at what the pool has counted.

The tally of a world is what the pool has counted about hand-outs and loans,
next to the loans that there are and to the book.

* `Moves.tallies` says what a task does to the tally.
* `World.enters` says what an action does to it: nothing, or it begins one
  checkout, or it ends one, or the pool ends all of them.
-/

namespace DatabasePool

/-! ## Checkouts -/

/-- How a checkout ended. -/
inductive Ending where
  /-- The connection came back. -/
  | returned
  /-- A request claimed it because it was overdue. -/
  | claimed
  /-- The pool ended. -/
  | withdrawn
  deriving DecidableEq, Repr

/-- What became of a connection that was handed out. -/
structure Checkout where
  lease : Nat
  /-- The task that asked for the connection. -/
  task : Nat
  /-- When it was handed out. -/
  lent : Nat
  /-- How and when the checkout ended, if it has. -/
  ended : Option (Ending × Nat) := none
  deriving DecidableEq, Repr

namespace Checkout

/-- The checkout has not ended. -/
def isOpen (x : Checkout) : Bool := x.ended.isNone

/-- The checkout ended in this way. -/
def endedBy (k : Ending) (x : Checkout) : Bool := x.ended.any (·.1 = k)

/-- How long the checkout lasted, if it has ended. -/
def lasted (x : Checkout) : Nat :=
  x.ended.elim 0 fun e => Time.elapsed x.lent e.2

/-- The checkout ends. -/
def finish (k : Ending) (moment : Nat) (x : Checkout) : Checkout :=
  { x with ended := some (k, moment) }

@[simp] theorem lasted_finish (k : Ending) (moment : Nat) (x : Checkout) :
    (x.finish k moment).lasted = moment - x.lent := rfl

/-- A checkout that has not ended did not end in any way. -/
theorem endedBy_of_isOpen {x : Checkout} (h : x.isOpen = true) (k : Ending) :
    x.endedBy k = false := by
  rw [isOpen, Option.isNone_iff_eq_none] at h
  rw [endedBy, h, Option.any_none]

end Checkout

/-- The checkout under a lease ends. -/
def finishIn (lease : Nat) (k : Ending) (moment : Nat) (book : List Checkout) :
    List Checkout :=
  book.modify lease (·.finish k moment)

/-- The checkouts under the leases of some loans are ended by the pool. -/
def withdrawIn (loans : List Loan) (moment : Nat) (book : List Checkout) :
    List Checkout :=
  loans.foldl (fun book loan => finishIn loan.lease .withdrawn moment book) book

/-- An event is entered in the book: a checkout begins or ends, or nothing is
to be entered. -/
def Event.enter (moment : Nat) : Event → List Checkout → List Checkout
  | ended task (.lent lease), book => book ++ [{ lease, task, lent := moment }]
  | returned lease _, book => finishIn lease .returned moment book
  | claimed lease _, book => finishIn lease .claimed moment book
  | withdrawn lease, book => finishIn lease .withdrawn moment book
  | _, book => book

/-- All checkouts so far, the first one in front. -/
def World.checkouts (w : World) : List Checkout :=
  w.history.foldr (fun x book => x.2.enter x.1 book) []

/-! ## The tally -/

/-- The counts of hand-outs and of loans, without those of waits and of bad
connections. -/
def Metrics.usage (m : Metrics) : Metrics :=
  { m with waits := 0, waitTime := 0, bad := 0 }

/-- What is counted when a checkout ends. -/
def Ending.record (held : Nat) (m : Metrics) : Ending → Metrics
  | returned => m.recordCheckout held
  | claimed => m.recordOverdue held
  | withdrawn => m

/-- What the pool has counted, the loans, the number of leases, and the
checkouts. -/
structure Tally where
  metrics : Metrics := {}
  active : List Loan := []
  leases : Nat := 0
  book : List Checkout := []

namespace Tally

/-- A connection is lent to a request that was made at `since`. -/
def lend (t : Tally) (since now : Nat) (e : Entry) : Tally :=
  { t with
    metrics := t.metrics.recordRequest (Time.elapsed since now)
    active := t.active ++ [⟨{ e with record := e.record.lend now }, t.leases⟩]
    leases := t.leases + 1 }

/-- A checkout is entered that begins. -/
def enter (t : Tally) (x : Checkout) : Tally :=
  { t with book := t.book ++ [x] }

/-- The checkout of a loan ends, and the other loans are left. -/
def finish (t : Tally) (k : Ending) (now : Nat) (loan : Loan)
    (rest : List Loan) : Tally where
  metrics := k.record (loan.heldFor now) t.metrics
  active := rest
  leases := t.leases
  book := finishIn loan.lease k now t.book

/-- The checkouts of some loans end, and no loan is left. -/
def withdraw (t : Tally) (now : Nat) (loans : List Loan) : Tally :=
  { t with active := [], book := withdrawIn loans now t.book }

end Tally

/-- A loan that there is can be taken out of the pool. -/
theorem Pool.takeLoan?_ne_none {p : Pool} {loan : Loan}
    (hl : loan ∈ p.active) : p.takeLoan? loan.lease ≠ none := by
  intro hnone
  cases hi : p.active.findIdx? (·.lease == loan.lease) with
  | none =>
    have hne := List.findIdx?_eq_none_iff.1 hi loan hl
    simp at hne
  | some i =>
    obtain ⟨hlt, -⟩ := List.findIdx?_eq_some_iff_getElem.1 hi
    simp [takeLoan?, hi, List.getElem?_eq_getElem hlt] at hnone

namespace World

/-- The tally of a world. -/
def tally (w : World) : Tally :=
  ⟨w.pool.metrics.usage, w.pool.active, w.handles.length, w.checkouts⟩

theorem checkouts_of_tally {w v : World} (h : v.tally = w.tally) :
    v.checkouts = w.checkouts := congrArg Tally.book h

section Frame

variable (w : World)

/-- An event with nothing to enter leaves the tally alone. -/
theorem tally_note {e : Event}
    (he : ∀ moment book, e.enter moment book = book) :
    (w.note e).tally = w.tally := by
  simp [tally, checkouts, he]

@[simp] theorem tally_beginCall (call : Call) :
    (w.beginCall call).2.tally = w.tally := by
  simp [tally, checkouts, Event.enter]

@[simp] theorem tally_hearAnswer (call : Call) :
    (w.hearAnswer call).2.tally = w.tally := by
  unfold hearAnswer
  rcases w.server.answer call with ⟨_ | _, _⟩
  all_goals exact tally_note _ fun _ _ => rfl

@[simp] theorem tally_leave (id : Nat) : (w.leave id).tally = w.tally := by
  simp [tally, checkouts]

@[simp] theorem tally_ring : w.ring.tally = w.tally := by
  simp [tally, checkouts]

@[simp] theorem tally_ringAll : w.ringAll.tally = w.tally := by
  simp [tally, checkouts]

@[simp] theorem tally_freeSlot : w.freeSlot.tally = w.tally := by
  simp [tally, checkouts, Pool.free]

@[simp] theorem tally_revoke (lease : Nat) :
    (w.revoke lease).tally = w.tally := by
  simp [tally, checkouts, revoke]

@[simp] theorem tally_markClosed (lease : Nat) :
    (w.markClosed lease).tally = w.tally := by
  simp [tally, checkouts, markClosed]

@[simp] theorem tally_spawn (s : Stage) (limit : Option Limit) :
    (w.spawn s limit).tally = w.tally := rfl

@[simp] theorem tally_letGo (outside : Bool) (conn : Nat) :
    (w.letGo outside conn).tally = w.tally := by
  cases outside with
  | true => exact tally_note w fun _ _ => rfl
  | false => rfl

@[simp] theorem tally_connectTimer (limit : Option Timer) :
    (w.connectTimer limit).2.tally = w.tally := by
  cases limit <;> rfl

@[simp] theorem tally_reject (id conn : Nat) :
    (w.reject id conn).tally = w.tally :=
  tally_note { w with pool.metrics := w.pool.metrics.recordBad } fun _ _ => rfl

@[simp] theorem tally_stopWaiting (id since : Nat) :
    (w.stopWaiting id since).tally = w.tally := by
  rw [stopWaiting, tally_leave]
  rfl

@[simp] theorem tally_hearAnswers (calls : List Pending) :
    (w.hearAnswers calls).2.tally = w.tally :=
  hearAnswers_rel (R := fun w v => v.tally = w.tally) (fun _ => rfl)
    (fun h h' => h'.trans h) tally_hearAnswer calls w

@[simp] theorem tally_beginCloses (conns : List Nat) :
    (w.beginCloses conns).2.tally = w.tally :=
  beginCloses_rel (R := fun w v => v.tally = w.tally) (fun _ => rfl)
    (fun h h' => h'.trans h) tally_hearAnswer
    (fun w _ => tally_beginCall w _) conns w

/-- What a task leaves behind is no matter of the tally. -/
theorem tally_dropStage (outside : Bool) (id : Nat) (s : Stage) :
    (w.dropStage outside id s).tally = w.tally :=
  dropStage_induct (P := fun v => v.tally = w.tally) rfl
    (w.tally_letGo outside) (fun v hv => v.tally_freeSlot.trans hv)
    (fun v hv => (v.tally_leave id).trans hv)

theorem tally_dropTask (outside : Bool) (t : Task) :
    (w.dropTask outside t).tally = w.tally :=
  tally_dropStage w outside t.id t.stage

/-- A connection that is lent is counted, but not entered yet. -/
theorem tally_lend {since : Nat} {e : Entry} {p : Pool}
    (hlend : w.pool.lend? w.handles.length since w.now e = some p)
    (x : Handle) (id lease latency : Nat) :
    (note { w with pool := p, handles := w.handles ++ [x] }
      (.lent id lease e.conn latency)).tally = w.tally.lend since w.now e := by
  obtain ⟨-, rfl⟩ := Pool.lend?_eq_some hlend
  rw [tally_note _ fun _ _ => rfl]
  simp only [tally, Tally.lend, List.length_append, List.length_singleton]
  rfl

/-- A claim is counted and entered. -/
theorem tally_claim {loan : Loan} {q : Pool} {rest : List Loan}
    (hq : q = { w.pool with active := rest }) (id : Nat) :
    (((w.seen id { q with
        metrics := q.metrics.recordOverdue
          (loan.heldFor w.now) }.reserve).revoke loan.lease).note
      (.claimed loan.lease (loan.heldFor w.now))).tally =
        w.tally.finish .claimed w.now loan rest := by
  subst hq
  simp only [tally, Tally.finish, note, revoke, List.length_modify]
  rfl

/-- The end of a loan is counted and entered. -/
theorem tally_endLoan {loan : Loan} {q : Pool} {rest : List Loan}
    (hq : q = { w.pool with active := rest }) :
    (w.endLoan loan q).tally = w.tally.finish .returned w.now loan rest := by
  subst hq
  unfold endLoan
  dsimp only
  split <;> rfl

/-- All loans are called in. -/
theorem tally_withdraw (loans : List Loan) (hnone : w.pool.active = []) :
    (loans.foldl (fun w loan =>
      (w.revoke loan.lease).note (.withdrawn loan.lease)) w).tally =
        w.tally.withdraw w.now loans := by
  induction loans generalizing w with
  | nil => simp only [List.foldl_nil, Tally.withdraw, withdrawIn, tally, hnone]
  | cons loan loans ih =>
    rw [List.foldl_cons]
    refine (ih ((w.revoke loan.lease).note
      (.withdrawn loan.lease)) hnone).trans ?_
    simp [Tally.withdraw, withdrawIn, tally, checkouts, Event.enter, revoke]

end Frame

/-! ## What a task does -/

/-- What a task that does one thing at a stage does to the tally.  A checkout
begins when the task ends, and is entered then. -/
inductive Tallies (w : World) : Stage → Flow → Tally → Prop where
  | same {s : Stage} {flow : Flow} (hlends : flow.lends? = none) :
      Tallies w s flow w.tally
  | lend {q : Request} {e : Entry} :
      Tallies w (.acquire q (.lending e)) (.finish (.lent w.handles.length))
        (w.tally.lend q.since w.now e)
  | giveBack {flow : Flow} {loan : Loan} {rest : List Loan}
      (hperm : (loan :: rest).Perm w.pool.active)
      (hlends : flow.lends? = none) :
      Tallies w (.giveBack (.starting loan.lease)) flow
        (w.tally.finish .returned w.now loan rest)
  | claim {q : Request} {flow : Flow} {loan : Loan} {rest : List Loan}
      (hperm : (loan :: rest).Perm w.pool.active)
      (hoverdue : w.config.timeouts.checkout < loan.heldFor w.now)
      (hlends : flow.lends? = none) :
      Tallies w (.acquire q .looking) flow
        (w.tally.finish .claimed w.now loan rest)
  | shutDown {flow : Flow} (hlends : flow.lends? = none) :
      Tallies w (.start .shutDown) flow
        (w.tally.withdraw w.now w.pool.active)

/-- A task does nothing else to the tally. -/
theorem Moves.tallies {w v : World} {id : Nat} {s : Stage} {flow : Flow}
    (h : Moves w id s flow v) : Tallies w s flow v.tally := by
  have hsame : v.tally = w.tally → flow.lends? = none →
      Tallies w s flow v.tally := fun he hlends => he ▸ .same hlends
  cases h with
  | lend hlend =>
    rw [tally_leave, tally_lend _ hlend]
    exact .lend
  | claim _ _ _ htake =>
    obtain ⟨hdue, -, rest, hperm, hq⟩ := Pool.takeOverdue?_eq_some htake
    rw [tally_claim _ hq]
    refine .claim hperm ?_ rfl
    simpa [Record.isOverdue_eq, Loan.heldFor] using hdue
  | shutDown =>
    rw [tally_withdraw _ _ (by simp [Pool.close]), tally_ringAll,
      (ringAll_frame _).2.2.2.2.2.1]
    exact .shutDown rfl
  | turnAway htake =>
    obtain ⟨rfl, rest, hperm, hq⟩ := Pool.takeLoan?_eq_some htake
    rw [tally_beginCall, tally_endLoan _ hq]
    exact .giveBack hperm rfl
  | returnClean htake =>
    obtain ⟨rfl, rest, hperm, hq⟩ := Pool.takeLoan?_eq_some htake
    rw [tally_endLoan _ hq]
    exact .giveBack hperm rfl
  | returnUndo htake =>
    obtain ⟨rfl, rest, hperm, hq⟩ := Pool.takeLoan?_eq_some htake
    rw [tally_beginCall, tally_endLoan _ hq]
    exact .giveBack hperm rfl
  | wait _ _ _ _ _ halarm =>
    obtain ⟨-, rfl⟩ := Prod.mk.inj halarm
    exact hsame rfl rfl
  | ended | outOfReach =>
    refine hsame ?_ rfl
    rw [tally_leave]
    rfl
  | store hstore =>
    obtain ⟨-, -, rfl⟩ := Pool.store?_eq_some hstore
    refine hsame ?_ rfl
    rw [tally_ring]
    rfl
  | @denied _ raw =>
    refine hsame (tally_hearAnswer ..) ?_
    cases raw <;> rfl
  | told => exact hsame (tally_stopWaiting ..) rfl
  | invalidate | setOptions | take | makeRoom | awaits => exact hsame rfl rfl
  | _ => exact hsame (by simp) rfl

/-- A connection that comes back ends its checkout at once, whatever is to be
done with it then. -/
theorem Moves.returns {w v : World} {id : Nat} {loan : Loan} {flow : Flow}
    (h : Moves w id (.giveBack (.starting loan.lease)) flow v)
    (hl : loan ∈ w.pool.active) :
    flow.lends? = none ∧ v.checkouts =
      finishIn loan.lease .returned w.now w.checkouts := by
  have hends : ∀ {l : Loan} {q : Pool},
      w.pool.takeLoan? loan.lease = some (l, q) →
      (w.endLoan l q).checkouts =
        finishIn loan.lease .returned w.now w.checkouts := by
    intro l q htake
    obtain ⟨hlease, rest, -, hq⟩ := Pool.takeLoan?_eq_some htake
    rw [← hlease]
    exact congrArg Tally.book (tally_endLoan w hq)
  cases h with
  | tooLate hnone => exact absurd hnone (Pool.takeLoan?_ne_none hl)
  | turnAway htake | returnUndo htake =>
    refine ⟨rfl, Eq.trans ?_ (hends htake)⟩
    exact checkouts_of_tally (tally_beginCall ..)
  | returnClean htake => exact ⟨rfl, hends htake⟩
  | awaits hcall => cases hcall

/-! ## What an action does -/

theorem Alike.tally {v z : World} (h : Alike v z) : z.tally = v.tally := by
  simp only [World.tally, checkouts, h.pool, h.handles, h.history]

/-- A checkout is entered when a task ends with a connection, and nothing else
is when a task goes on. -/
theorem Follows.tally {v w' : World} {t : Task} {flow : Flow}
    (h : Follows v t flow w') :
    w'.tally = flow.lends?.elim v.tally fun lease =>
      v.tally.enter { lease, task := t.id, lent := v.now } := by
  have hwaits : ∀ {s : Stage}, flow.waits? = some s → flow.lends? = none := by
    intro s hs
    cases flow <;> first | rfl | cases hs
  cases h with
  | again s => rfl
  | waits hs hz =>
    rw [hwaits hs]
    exact hz.toAlike.tally
  | @cutOff _ _ z outside hs hz =>
    rw [hwaits hs, tally_note _ fun _ _ => rfl, tally_dropTask]
    exact hz.toAlike.tally
  | finish o => cases o <;> rfl

/-- What an action does to the tally. -/
inductive Enters (w : World) : Action → Tally → Prop where
  | same {a : Action} : Enters w a w.tally
  | lend {id : Nat} {q : Request} {e : Entry}
      (hmem : (id, .acquire q (.lending e)) ∈ w.roll) :
      Enters w (.run id) ((w.tally.lend q.since w.now e).enter
        { lease := w.handles.length, task := id, lent := w.now })
  | giveBack {id : Nat} {loan : Loan} {rest : List Loan}
      (hmem : (id, .giveBack (.starting loan.lease)) ∈ w.roll)
      (hperm : (loan :: rest).Perm w.pool.active) :
      Enters w (.run id) (w.tally.finish .returned w.now loan rest)
  | claim {id : Nat} {q : Request} {loan : Loan} {rest : List Loan}
      (hmem : (id, .acquire q .looking) ∈ w.roll)
      (hperm : (loan :: rest).Perm w.pool.active)
      (hoverdue : w.config.timeouts.checkout < loan.heldFor w.now) :
      Enters w (.run id) (w.tally.finish .claimed w.now loan rest)
  | shutDown {id : Nat} (hmem : (id, .start .shutDown) ∈ w.roll) :
      Enters w (.run id) (w.tally.withdraw w.now w.pool.active)

/-- An action does nothing else to the tally. -/
theorem enters {w w' : World} {a : Action} (hd : w.Distinct)
    (ha : w.act a = some w') : Enters w a w'.tally := by
  have hsame : w'.tally = w.tally → Enters w a w'.tally := fun he => he ▸ .same
  cases acts hd ha with
  | @run t flow v _ ht hmove _ _ _ hf =>
    have hmem := mem_roll_of_task? ht
    have hmoves := moves_of_eq hmove
    have hnow := hmoves.writes.1
    have htallies := hmoves.tallies
    rw [hf.tally]
    generalize v.tally = u at htallies
    generalize t.stage = s at hmem htallies
    cases htallies with
    | same hlends =>
      rw [hlends]
      exact .same
    | lend =>
      rw [hnow]
      exact .lend hmem
    | giveBack hperm hlends =>
      rw [hlends]
      exact .giveBack hmem hperm
    | claim hperm hoverdue hlends =>
      rw [hlends]
      exact .claim hmem hperm hoverdue
    | shutDown hlends =>
      rw [hlends]
      exact .shutDown hmem
  | @cancel t outside =>
    refine hsame ?_
    rw [tally_note _ fun _ _ => rfl, tally_dropTask]
  | @forget lease =>
    exact hsame ((tally_spawn ..).trans (tally_revoke w lease))
  | forgetOutside => exact hsame (tally_revoke ..)
  | _ => exact hsame rfl

/-! ## What is not counted -/

/-- The metrics do not change when a task is dropped. -/
theorem metrics_dropTask (w : World) (outside : Bool) (t : Task) :
    (w.dropTask outside t).pool.metrics = w.pool.metrics := by
  have hpool := congrArg Books.pool (books_dropStage w [] outside t.id t.stage)
  show (w.dropStage outside t.id t.stage).pool.metrics = w.pool.metrics
  change (w.dropStage outside t.id t.stage).pool = _ at hpool
  rw [hpool]
  split <;> rfl

/-- The metrics do not change when a task goes on. -/
theorem Follows.metrics {v w' : World} {t : Task} {flow : Flow}
    (h : Follows v t flow w') : w'.pool.metrics = v.pool.metrics := by
  cases h with
  | again | finish => rfl
  | waits _ hz => rw [hz.pool]
  | @cutOff _ _ z outside _ hz =>
    refine (metrics_dropTask z outside _).trans ?_
    rw [hz.pool]

/-- A connection is given back or forgotten by its holder. -/
inductive GivesBack (w : World) (lease : Nat) : Action → Prop where
  | close {id : Nat} (hmem : (id, .start (.close lease)) ∈ w.roll) :
      GivesBack w lease (.run id)
  | giveBack {id : Nat} (hmem : (id, .giveBack (.starting lease)) ∈ w.roll) :
      GivesBack w lease (.run id)
  | forget (outside : Bool) : GivesBack w lease (.forget outside lease)

/-- Nothing is counted when a connection comes back that is not on loan. -/
theorem metrics_late {w w' : World} {a : Action} {lease : Nat}
    (hd : w.Distinct) (ha : w.act a = some w') (hgives : w.GivesBack lease a)
    (hoff : ∀ loan ∈ w.pool.active, loan.lease ≠ lease) :
    w'.pool.metrics = w.pool.metrics := by
  cases hgives with
  | close hmem =>
    obtain ⟨t, ht, hstage⟩ := hd.task?_of_roll hmem
    obtain rfl := id_of_task? ht
    obtain ⟨flow, v, hmove, -, hf⟩ := act_task hd ht ha
    rw [hstage] at hmove
    rw [hf.metrics]
    cases hmove with
    | close | closeLate | closeAgain | awaits => rfl
    | ask hop | askLate hop => cases hop
  | giveBack hmem =>
    obtain ⟨t, ht, hstage⟩ := hd.task?_of_roll hmem
    obtain rfl := id_of_task? ht
    obtain ⟨flow, v, hmove, -, hf⟩ := act_task hd ht ha
    rw [hstage] at hmove
    rw [hf.metrics]
    cases hmove with
    | tooLate | awaits => rfl
    | turnAway htake | returnClean htake | returnUndo htake =>
      obtain ⟨hlease, rest, hperm, -⟩ := Pool.takeLoan?_eq_some htake
      exact absurd hlease (hoff _ (hperm.subset List.mem_cons_self))
  | forget outside =>
    cases acts hd ha with
    | forgetLate | forget | forgetOutside => rfl

end World

end DatabasePool
