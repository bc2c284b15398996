import DatabasePool.Proofs.Records

/-!
# What is remarked on connections

Three kinds of events tell what the pool thinks of connections: a request has
found one bad, one has come back, or a ping has begun.  `World.remarks` picks
them out of the history.  The findings of a world are all of them, next to the
number of bad connections that the pool has counted.

A request keeps its own count, and a connection that was found bad counts from
when it is being closed on: `Stage.met`.

* `Moves.reports` says what a task does to the findings.
* `World.reported` says what an action does to them.
-/

namespace DatabasePool

/-- What an event says about a connection. -/
inductive Remark where
  /-- The task has found a connection bad. -/
  | verdict (task : Nat)
  /-- The connection that was lent under this lease has come back. -/
  | back (lease : Nat)
  /-- A ping of the connection has begun. -/
  | ping (conn : Nat) (query : String)
  deriving DecidableEq, Repr

/-- The remark that an event is, if it is one. -/
def Event.remark? : Event → Option Remark
  | foundBad task _ => some (.verdict task)
  | returned lease _ => some (.back lease)
  | began (.ping conn query) => some (.ping conn query)
  | _ => none

/-- How many bad connections the request of a task has met, with the one that
is being closed. -/
def Stage.met : Stage → Nat
  | acquire q (.discarding _ true) => q.bad + 1
  | acquire q _ => q.bad
  | _ => 0

/-- The bad connections that the pool has counted, and all remarks, the last
one in front. -/
structure Findings where
  bad : Nat
  remarks : List Remark

namespace Findings

/-- A ping begins. -/
def ping (r : Findings) (conn : Nat) (query : String) : Findings :=
  { r with remarks := .ping conn query :: r.remarks }

/-- A task finds a connection bad. -/
def condemn (r : Findings) (task : Nat) : Findings :=
  ⟨r.bad + 1, .verdict task :: r.remarks⟩

/-- A connection comes back.  It counts as a bad one if it does not match. -/
def giveBack (r : Findings) (lease : Nat) (fits : Bool) : Findings :=
  ⟨if fits then r.bad else r.bad + 1, .back lease :: r.remarks⟩

end Findings

namespace World

/-- All remarks, the last one in front. -/
def remarks (w : World) : List Remark := w.history.filterMap (·.2.remark?)

/-- The findings of a world. -/
def findings (w : World) : Findings := ⟨w.pool.metrics.bad, w.remarks⟩

section Frame

variable (w : World)

/-- An event that is no remark is not reported. -/
theorem findings_note {e : Event} (he : e.remark? = none) :
    (w.note e).findings = w.findings := by
  simp [findings, remarks, he]

theorem findings_beginCall {call : Call}
    (hcall : (Event.began call).remark? = none) :
    (w.beginCall call).2.findings = w.findings := by
  simp [findings, remarks, hcall]

@[simp] theorem findings_close (conn : Nat) :
    (w.beginCall (.close conn)).2.findings = w.findings :=
  w.findings_beginCall rfl

@[simp] theorem findings_ping (conn : Nat) (query : String) :
    (w.beginCall (.ping conn query)).2.findings = w.findings.ping conn query := by
  simp [findings, remarks, Event.remark?, Findings.ping]

@[simp] theorem findings_hearAnswer (call : Call) :
    (w.hearAnswer call).2.findings = w.findings := by
  unfold hearAnswer
  rcases w.server.answer call with ⟨_ | _, _⟩
  all_goals exact findings_note _ rfl

@[simp] theorem findings_leave (id : Nat) : (w.leave id).findings = w.findings := by
  simp [findings, remarks]

@[simp] theorem findings_ring : w.ring.findings = w.findings := by
  simp [findings, remarks]

@[simp] theorem findings_ringAll : w.ringAll.findings = w.findings := by
  simp [findings, remarks]

@[simp] theorem findings_freeSlot : w.freeSlot.findings = w.findings := by
  simp [findings, remarks, Pool.free]

@[simp] theorem findings_revoke (lease : Nat) :
    (w.revoke lease).findings = w.findings := rfl

@[simp] theorem findings_markClosed (lease : Nat) :
    (w.markClosed lease).findings = w.findings := rfl

@[simp] theorem findings_spawn (s : Stage) (limit : Option Limit) :
    (w.spawn s limit).findings = w.findings := rfl

@[simp] theorem findings_letGo (outside : Bool) (conn : Nat) :
    (w.letGo outside conn).findings = w.findings := by
  cases outside with
  | true => exact findings_note w rfl
  | false => rfl

@[simp] theorem findings_connectTimer (limit : Option Timer) :
    (w.connectTimer limit).2.findings = w.findings := by
  cases limit <;> rfl

@[simp] theorem findings_stopWaiting (id since : Nat) :
    (w.stopWaiting id since).findings = w.findings := by
  rw [stopWaiting, findings_leave]
  rfl

@[simp] theorem findings_reject (id conn : Nat) :
    (w.reject id conn).findings = w.findings.condemn id := by
  simp only [findings, remarks, reject, note, List.filterMap_cons]
  rfl

theorem findings_endLoan {loan : Loan} {q : Pool} {rest : List Loan}
    (hq : q = { w.pool with active := rest }) :
    (w.endLoan loan q).findings = w.findings.giveBack loan.lease
      (loan.entry.record.options = w.pool.options) := by
  subst hq
  simp only [endLoan, findings, remarks, note, List.filterMap_cons,
    Findings.giveBack, decide_eq_true_eq]
  split <;> rfl

@[simp] theorem findings_hearAnswers (calls : List Pending) :
    (w.hearAnswers calls).2.findings = w.findings :=
  hearAnswers_rel (R := fun w v => v.findings = w.findings) (fun _ => rfl)
    (fun h h' => h'.trans h) findings_hearAnswer calls w

@[simp] theorem findings_beginCloses (conns : List Nat) :
    (w.beginCloses conns).2.findings = w.findings :=
  beginCloses_rel (R := fun w v => v.findings = w.findings) (fun _ => rfl)
    (fun h h' => h'.trans h) findings_hearAnswer findings_close conns w

@[simp] theorem findings_withdraw (loans : List Loan) :
    (loans.foldl (fun w loan =>
      (w.revoke loan.lease).note (.withdrawn loan.lease)) w).findings =
        w.findings := by
  refine withdraw_rel (R := fun w v => v.findings = w.findings) (fun _ => rfl)
    (fun h h' => h'.trans h) (fun w lease => ?_) loans w
  rw [findings_note _ rfl, findings_revoke]

theorem findings_dropTask (outside : Bool) (t : Task) :
    (w.dropTask outside t).findings = w.findings :=
  dropStage_induct (P := fun v => v.findings = w.findings) rfl
    (w.findings_letGo outside) (fun v hv => v.findings_freeSlot.trans hv)
    (fun v hv => (v.findings_leave t.id).trans hv)

end Frame

/-! ## What a task does -/

/-- What a task that does one thing at a stage does to the findings. -/
inductive Reports (w : World) (id : Nat) : Stage → Flow → Findings → Prop where
  | same {s : Stage} {flow : Flow}
      (hmet : ∀ s', flow.stage? = some s' → s'.met = s.met) :
      Reports w id s flow w.findings
  /-- A holder asks for a ping. -/
  | ask {lease conn : Nat} {query : String} {call : Pending}
      (hheld : w.physical lease = .ok conn) :
      Reports w id (.start (.ping lease query)) (.again (.asking call false))
        (w.findings.ping conn query)
  | ping {q : Request} {e : Entry} {call : Pending}
      (hcurrent : w.pool.isCurrent e.record = true)
      (hopen : w.server.isClosed e.conn = false)
      (hneeded : w.config.ping.isDue (e.record.idleTime w.now) = true) :
      Reports w id (.acquire q (.checking e)) (.again (.acquire q (.pinging e call)))
        (w.findings.ping e.conn w.config.ping.query)
  | foundClosed {q : Request} {e : Entry}
      (hcurrent : w.pool.isCurrent e.record = true)
      (hclosed : w.server.isClosed e.conn = true) :
      Reports w id (.acquire q (.checking e))
        (.again (.acquire q (.discarding
          ((w.reject id e.conn).beginCall (.close e.conn)).1 true)))
        (w.findings.condemn id)
  | notPinged {q : Request} {e : Entry} {call : Pending} {message : String}
      (hdue : w.isDue call.timer = true)
      (herr : (w.server.answer call.call).1 = .error message) :
      Reports w id (.acquire q (.pinging e call))
        (.again (.acquire q (.discarding
          (((w.hearAnswer call.call).2.reject id e.conn).beginCall
            (.close e.conn)).1 true)))
        (w.findings.condemn id)
  | back {loan : Loan} {rest : List Loan} {flow : Flow}
      (hperm : (loan :: rest).Perm w.pool.active)
      (hmet : ∀ s', flow.stage? = some s' → s'.met = 0) :
      Reports w id (.giveBack (.starting loan.lease)) flow
        (w.findings.giveBack loan.lease
          (loan.entry.record.options = w.pool.options))

/-- A task does nothing else to the findings. -/
theorem Moves.reports {w v : World} {id : Nat} {s : Stage} {flow : Flow}
    (h : Moves w id s flow v) : Reports w id s flow v.findings := by
  have hsame : v.findings = w.findings →
      (∀ s', flow.stage? = some s' → s'.met = s.met) →
      Reports w id s flow v.findings := fun he hmet => he ▸ .same hmet
  have hon : ∀ {s' : Stage} {n : Nat}, flow.stage? = some s' → s'.met = n →
      ∀ s', flow.stage? = some s' → s'.met = n := by
    intro s' n hs hmet x hx
    rw [← hmet, Option.some.inj (hx.symm.trans hs)]
  cases h with
  | @ask op lease conn call raw hop _ hheld =>
    cases op with
    | ping lease' query =>
      cases hop
      rw [findings_ping]
      exact .ask hheld
    | rollback lease' | closePhysical lease' =>
      cases hop
      exact hsame (findings_beginCall w rfl) (hon rfl rfl)
    | _ => cases hop
  | shutDown =>
    refine hsame ?_ (hon rfl rfl)
    rw [findings_withdraw, findings_ringAll]
    rfl
  | ended | outOfReach =>
    refine hsame ?_ fun s' hs => by cases hs
    rw [findings_leave]
    rfl
  | wait _ _ _ _ _ halarm =>
    obtain ⟨-, rfl⟩ := Prod.mk.inj halarm
    exact hsame rfl (hon rfl rfl)
  | claim _ _ _ htake =>
    obtain ⟨-, -, rest, -, rfl⟩ := Pool.takeOverdue?_eq_some htake
    refine hsame ?_ (hon rfl rfl)
    rw [findings_note _ rfl]
    rfl
  | dial => exact hsame (findings_beginCall w rfl) (hon rfl rfl)
  | recoverUndo => exact hsame (findings_beginCall w rfl) (hon rfl rfl)
  | ping hcurrent hopen hneeded =>
    rw [findings_ping]
    exact .ping hcurrent hopen hneeded
  | foundClosed hcurrent hclosed =>
    rw [findings_close, findings_reject]
    exact .foundClosed hcurrent hclosed
  | notPinged hdue herr =>
    rw [findings_close, findings_reject, findings_hearAnswer]
    exact .notPinged hdue ((hearAnswer_frame w _).2.1 ▸ herr)
  | lend hlend =>
    obtain ⟨-, rfl⟩ := Pool.lend?_eq_some hlend
    refine hsame ?_ fun s' hs => by cases hs
    rw [findings_leave, findings_note _ rfl]
    rfl
  | @tryAgain r call bad =>
    refine hsame (by simp) (hon rfl ?_)
    cases bad <;> rfl
  | turnAway htake =>
    obtain ⟨rfl, rest, hperm, hq⟩ := Pool.takeLoan?_eq_some htake
    rw [findings_close, findings_endLoan _ hq]
    exact .back hperm (hon rfl rfl)
  | returnClean htake =>
    obtain ⟨rfl, rest, hperm, hq⟩ := Pool.takeLoan?_eq_some htake
    rw [findings_endLoan _ hq]
    exact .back hperm (hon rfl rfl)
  | returnUndo htake =>
    obtain ⟨rfl, rest, hperm, hq⟩ := Pool.takeLoan?_eq_some htake
    rw [findings_beginCall _ rfl, findings_endLoan _ hq]
    exact .back hperm (hon rfl rfl)
  | store hstore =>
    obtain ⟨-, -, rfl⟩ := Pool.store?_eq_some hstore
    refine hsame ?_ fun s' hs => by cases hs
    rw [findings_ring]
    rfl
  | told => exact hsame (findings_stopWaiting ..) (hon rfl rfl)
  | setOptions | invalidate | take | makeRoom | awaits =>
    exact hsame rfl (hon rfl rfl)
  | _ => exact hsame (by simp) fun s' hs => by cases hs <;> rfl

/-! ## What an action does -/

theorem Alike.findings {v z : World} (h : Alike v z) : z.findings = v.findings := by
  simp only [World.findings, remarks, h.pool, h.history]

/-- Nothing more is reported when a task goes on. -/
theorem Follows.findings {v w' : World} {t : Task} {flow : Flow}
    (h : Follows v t flow w') : w'.findings = v.findings := by
  cases h with
  | again s => rfl
  | waits _ hz => exact hz.toAlike.findings
  | @cutOff _ _ z outside _ hz =>
    rw [findings_note _ rfl, findings_dropTask]
    exact hz.toAlike.findings
  | finish o => exact findings_note _ rfl

/-- Only a task at work has something to report. -/
theorem reported {w w' : World} {a : Action} (hd : w.Distinct)
    (ha : w.act a = some w') :
    w'.findings = w.findings ∨ ∃ id s flow, a = .run id ∧ (id, s) ∈ w.roll ∧
      (w.pick id).Reports id s flow w'.findings := by
  cases acts hd ha with
  | @run t flow v _ ht hmove _ _ _ hf =>
    refine .inr ⟨t.id, t.stage, flow, rfl, mem_roll_of_task? ht, ?_⟩
    rw [hf.findings]
    exact (moves_of_eq hmove).reports
  | @cancel t outside =>
    refine .inl ?_
    rw [findings_note _ rfl, findings_dropTask]
  | _ => exact .inl rfl

end World

end DatabasePool
