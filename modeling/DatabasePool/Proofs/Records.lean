import DatabasePool.Proofs.Happenings
import DatabasePool.Proofs.Moves

/-!
# What an action writes down

The history of a world says what happened and when, and it only ever gets
longer.  A task that does one thing writes down the calls that it begins and
the answers that it hears, and what it does with loans.  That it has ended is
written down when it is gone.

* `Happens.changes` says what an action does to holders and to what the pool
  has.
* `Moves.writes` says what a task can write down.
* `World.follows` says how the world goes on once a task has done one thing.
* `World.acts` says what becomes of a world in an action, and later proofs go
  by its cases.
* `World.stage_act` says where a task after an action comes from, and
  `Run.tells` where an event comes from.
* `Run.is_over` says that a task that has ended is gone for good.
-/

namespace DatabasePool

/-! ## Events -/

/-- The task that is over with the event. -/
def Event.over? : Event → Option Nat
  | ended task _ => some task
  | dropped task => some task
  | _ => none

/-- The task has just been started: it is to begin an operation, to give a
connection back, or to close one. -/
def Stage.IsFresh (s : Stage) : Prop :=
  (∃ op, s = .start op) ∨ (∃ lease, s = .giveBack (.starting lease)) ∨
    ∃ conn, s = .closing [conn] []

/-- The connection on which a rollback begins. -/
def Event.rollsBack? : Event → Option Nat
  | began (.rollback conn) => some conn
  | _ => none

/-- A holder is to undo what was not committed. -/
def Stage.rollsBack : Stage → Bool
  | start (.rollback _) => true
  | _ => false

/-- The entry in the slot of a task that waits for what was not committed to
be undone, and the call that it waits for. -/
def Stage.undoing? : Stage → Option (Entry × Pending)
  | acquire _ (.undoing e call) => some (e, call)
  | giveBack (.undoing e call) => some (e, call)
  | _ => none

/-- The answer to a call that is not for a new connection is about the
connection of that call. -/
theorem Server.answer_rollback {s : Server} {conn c : Nat}
    (h : (s.answer (.rollback conn)).1 = .ok c) : c = conn := by
  simp only [answer] at h
  split at h
  · cases h
  · exact (Except.ok.inj h).symm

/-! ## Tasks to which nothing happens -/

/-- An action that is about a task is one thing that it does, or drops it. -/
theorem Action.eq_of_task? {a : Action} {id : Nat} (ha : a.task? = some id) :
    a = .run id ∨ ∃ outside, a = .cancel outside id := by
  cases a with
  | run i => exact .inl (congrArg _ (Option.some.inj ha))
  | cancel outside i =>
    exact .inr ⟨outside, congrArg _ (Option.some.inj ha)⟩
  | _ => cases ha

/-- A task to which nothing happens stays at its stage. -/
theorem Happens.remains {c : Config} {w w' : World} {a : Action}
    {closes : List Nat} (h : Happens c w w' a closes) {x : Nat × Stage}
    (hx : x ∈ w.roll) (hne : a.task? ≠ some x.1) : x ∈ w'.roll := by
  have hrest : ∀ {id : Nat} {s : Stage} {rest : List (Nat × Stage)},
      a.task? = some id → w.roll.Perm ((id, s) :: rest) → x ∈ rest := by
    intro id s rest hid hbefore
    rcases List.mem_cons.1 (hbefore.mem_iff.1 hx) with rfl | hmem
    · exact absurd hid hne
    · exact hmem
  cases h with
  | work hbefore _ hafter | cutOff hbefore _ _ _ _ hafter
  | drop hbefore _ _ hafter =>
    exact hafter.mem_iff.2 (List.mem_append_right _ (hrest rfl hbefore))
  | start _ hafter | forget _ hafter =>
    exact hafter.mem_iff.2 (List.mem_cons_of_mem _ hx)
  | forgetOutside _ hafter | change _ hafter | pass _ _ hafter
  | quiet _ hafter =>
    exact hafter ▸ hx

/-! ## What only tasks and holders change -/

/-- The holders are the same in both scenes, and so is what is kept and what is
lent, and whether the pool has ended. -/
structure Scene.Keeps (V V' : Scene) : Prop where
  handles : V'.handles = V.handles
  idle : V'.pool.idle = V.pool.idle
  active : V'.pool.active = V.pool.active
  shutDown : V'.pool.shutDown = V.pool.shutDown

theorem Scene.Keeps.handle {V V' : Scene} (h : V.Keeps V') (lease : Nat) :
    V'.handles[lease]? = V.handles[lease]? :=
  congrArg (·[lease]?) h.handles

theorem Scene.keeps_drop (V : Scene) (outside : Bool) (s : Stage) :
    V.Keeps (V.drop outside s) := by
  unfold drop
  split <;> exact ⟨rfl, rfl, rfl, rfl⟩

/-- What changes in an action, seen from afar: a task does one thing, a lease
ends because its holder forgets the connection, or nothing. -/
inductive World.Changes (c : Config) (w w' : World) : Action → Prop where
  | deed {id : Nat} {s : Stage} {flow : Flow} {closes : List Nat} {V : Scene}
      (hmem : (id, s) ∈ w.roll) (hdoes : Does c w.scene s flow closes V)
      (hkeeps : V.Keeps w'.scene) : Changes c w w' (.run id)
  | forget {outside : Bool} {lease : Nat} (hpool : w'.scene.pool = w.scene.pool)
      (hhandles :
        w'.handles = w.handles.modify lease ({ · with valid := false })) :
      Changes c w w' (.forget outside lease)
  | same {a : Action} (hkeeps : w.scene.Keeps w'.scene) : Changes c w w' a

theorem Happens.changes {c : Config} {w w' : World} {a : Action}
    {closes : List Nat} (h : Happens c w w' a closes) :
    w.Changes c w' a := by
  cases h with
  | work hbefore hdoes =>
    exact .deed (hbefore.mem_iff.2 List.mem_cons_self) hdoes
      ⟨rfl, rfl, rfl, rfl⟩
  | cutOff hbefore hdoes _ _ hscene =>
    exact .deed (hbefore.mem_iff.2 List.mem_cons_self) hdoes
      (hscene ▸ Scene.keeps_drop ..)
  | forget hscene | forgetOutside hscene =>
    have hpool := congrArg Scene.pool hscene
    exact .forget hpool (congrArg Scene.handles hscene)
  | drop _ _ hscene => exact .same (hscene ▸ Scene.keeps_drop ..)
  | start hscene | change hscene | pass _ hscene | quiet hscene =>
    exact .same (hscene ▸ ⟨rfl, rfl, rfl, rfl⟩)

namespace World

/-- What has been written down since, all of it at this time. -/
def Adds (w v : World) (P : Event → Prop) : Prop :=
  ∃ evs : List Event,
    v.history = evs.map (w.now, ·) ++ w.history ∧ ∀ e ∈ evs, P e

/-- The same, and no time has gone by. -/
def Writes (w v : World) (P : Event → Prop) : Prop :=
  v.now = w.now ∧ Adds w v P

namespace Writes

variable {w v u : World} {P : Event → Prop}

theorem same (hnow : v.now = w.now) (hhistory : v.history = w.history) :
    Writes w v P :=
  ⟨hnow, [], hhistory, fun _ h => by cases h⟩

theorem refl (w : World) : Writes w w P := same rfl rfl

theorem trans (h : Writes w v P) (h' : Writes v u P) : Writes w u P := by
  obtain ⟨hnow, evs, hhistory, hevs⟩ := h
  obtain ⟨hnow', evs', hhistory', hevs'⟩ := h'
  refine ⟨hnow'.trans hnow, evs' ++ evs, ?_, fun e he => ?_⟩
  · rw [hhistory', hhistory, hnow, List.map_append, List.append_assoc]
  · exact (List.mem_append.1 he).elim (hevs' e) (hevs e)

theorem note {e : Event} (he : P e) : Writes w (w.note e) P := by
  refine ⟨rfl, [e], rfl, fun x hx => ?_⟩
  obtain rfl := List.mem_singleton.1 hx
  exact he

theorem beginCall {call : Call} (he : P (.began call)) :
    Writes w (w.beginCall call).2 P := by
  refine ⟨by simp, [.began call], by simp, fun x hx => ?_⟩
  obtain rfl := List.mem_singleton.1 hx
  exact he

theorem hearAnswer {call : Call} (hok : ∀ conn, P (.answered call conn))
    (herr : P (.failed call)) : Writes w (w.hearAnswer call).2 P := by
  unfold World.hearAnswer
  rcases w.server.answer call with ⟨_ | conn, server⟩
  · exact (same rfl rfl).trans (note herr)
  · exact (same rfl rfl).trans (note (hok conn))

end Writes

/-- A task has begun to undo what was not committed on a connection that does
not commit by itself, and is to wait for that. -/
def StartsUndo (w : World) (flow : Flow) (conn : Nat) : Prop :=
  w.server.isAutoCommit conn = false ∧ ∃ s e call, flow = .again s ∧
    s.undoing? = some (e, call) ∧ e.conn = conn

/-- What a task can write down when it is at a stage and goes on as it is
to. -/
def Writable (w : World) (s : Stage) (flow : Flow) (e : Event) : Prop :=
  e.over? = none ∧ ∀ conn, e.rollsBack? = some conn →
    s.rollsBack = true ∨ w.StartsUndo flow conn

section Moves

variable {w v : World} {id : Nat} {s : Stage} {flow : Flow}

/-- An event that is neither the end of a task nor the beginning of a
rollback. -/
theorem Writable.of_none {e : Event} (ho : e.over? = none)
    (hr : e.rollsBack? = none) : w.Writable s flow e :=
  ⟨ho, fun _ h => by cases hr.symm.trans h⟩

theorem writes_hearAnswer (u : World) (call : Call) :
    Writes u (u.hearAnswer call).2 (w.Writable s flow) :=
  .hearAnswer (fun _ => .of_none rfl rfl) (.of_none rfl rfl)

theorem writes_close (u : World) (conn : Nat) :
    Writes u (u.beginCall (.close conn)).2 (w.Writable s flow) :=
  .beginCall (.of_none rfl rfl)

theorem writes_hearAnswers (calls : List Pending) (u : World) :
    Writes u (u.hearAnswers calls).2 (w.Writable s flow) :=
  hearAnswers_rel (R := (Writes · · (w.Writable s flow))) .refl .trans
    writes_hearAnswer calls u

theorem writes_beginCloses (conns : List Nat) (u : World) :
    Writes u (u.beginCloses conns).2 (w.Writable s flow) :=
  beginCloses_rel (R := (Writes · · (w.Writable s flow))) .refl .trans
    writes_hearAnswer writes_close conns u

theorem writes_withdraw (loans : List Loan) (u : World) :
    Writes u (loans.foldl (fun w loan =>
      (w.revoke loan.lease).note (.withdrawn loan.lease)) u)
      (w.Writable s flow) := by
  refine withdraw_rel (R := (Writes · · (w.Writable s flow))) .refl .trans
    (fun u lease => ?_) loans u
  have hr : Writes u (u.revoke lease) (w.Writable s flow) := .same rfl rfl
  exact hr.trans (.note (.of_none rfl rfl))

theorem writes_reject (u : World) (conn : Nat) :
    Writes u (u.reject id conn) (w.Writable s flow) := by
  have hm : Writes u { u with pool.metrics := u.pool.metrics.recordBad }
      (w.Writable s flow) := .same rfl rfl
  exact hm.trans (.note (.of_none rfl rfl))

theorem writes_endLoan (u : World) (loan : Loan) (q : Pool) :
    Writes u (u.endLoan loan q) (w.Writable s flow) := by
  unfold endLoan
  refine Writes.trans (v := { u with pool := _ }) (.same rfl rfl) ?_
  exact .note (.of_none rfl rfl)

theorem writes_freeSlot (u : World) :
    Writes u u.freeSlot (w.Writable s flow) := by
  refine .same ?_ ?_
  all_goals simp

theorem writes_leave (u : World) :
    Writes u (u.leave id) (w.Writable s flow) := by
  refine .same ?_ ?_
  all_goals simp

theorem writes_freeSlot_leave (u : World) :
    Writes u (u.freeSlot.leave id) (w.Writable s flow) := by
  refine .same ?_ ?_
  all_goals simp

theorem writes_connectTimer (u : World) (limit : Option Timer) :
    Writes u (u.connectTimer limit).2 (w.Writable s flow) := by
  cases limit <;> exact .same rfl rfl

/-- A task writes down what it does, but not that it is over.  It begins a
rollback only on a connection that does not commit by itself, and then waits
for it, unless a holder asked for it. -/
theorem Moves.writes (h : Moves w id s flow v) :
    Writes w v (w.Writable s flow) := by
  cases h with
  | @ask op _ _ _ _ hop =>
    refine .beginCall ⟨rfl, fun conn hroll => .inl ?_⟩
    cases op with
    | rollback lease => rfl
    | ping lease query | closePhysical lease =>
      cases hop
      cases hroll
    | _ => cases hop
  | shutDown hup =>
    refine Writes.trans (.same ?_ ?_) (writes_withdraw _ _)
    all_goals simp
  | claim =>
    refine Writes.trans (.same ?_ ?_) (.note (.of_none rfl rfl))
    all_goals simp [seen]
  | wait _ _ _ _ _ halarm =>
    obtain ⟨-, rfl⟩ := Prod.mk.inj halarm
    exact .same rfl rfl
  | dial => exact .beginCall (.of_none rfl rfl)
  | connect | retry | undone | pinged | returnUndone | answered | denied =>
    exact writes_hearAnswer ..
  | refused | allBad | tryAgain =>
    exact (writes_hearAnswer ..).trans (writes_freeSlot_leave ..)
  | returnDiscarded =>
    exact (writes_hearAnswer ..).trans (writes_freeSlot ..)
  | timeout =>
    exact (writes_connectTimer ..).trans (writes_freeSlot_leave ..)
  | stayConnecting => exact writes_connectTimer ..
  | recoverClosed | stale | lendStale | noRoom => exact writes_close ..
  | @recoverUndo _ e _ hmanual =>
    refine .beginCall ⟨rfl, fun conn hroll => .inr ?_⟩
    cases hroll
    exact ⟨hmanual, _, e, _, rfl, rfl, rfl⟩
  | notUndone | returnNotUndone =>
    exact (writes_hearAnswer ..).trans (writes_close ..)
  | foundClosed => exact (writes_reject ..).trans (writes_close ..)
  | ping => exact .beginCall (.of_none rfl rfl)
  | notPinged =>
    exact ((writes_hearAnswer ..).trans (writes_reject ..)).trans
      (writes_close ..)
  | lend =>
    refine Writes.trans (.trans (.same ?_ ?_) (.note (.of_none rfl rfl)))
      (writes_leave _)
    all_goals rfl
  | turnAway => exact (writes_endLoan ..).trans (writes_close ..)
  | returnClean => exact writes_endLoan ..
  | returnUndo _ _ hmanual =>
    refine (writes_endLoan ..).trans (.beginCall ⟨rfl, fun conn hroll => .inr ?_⟩)
    cases hroll
    exact ⟨hmanual, _, _, _, rfl, rfl, rfl⟩
  | closed | closing =>
    exact (writes_hearAnswers ..).trans (writes_beginCloses ..)
  | _ =>
    refine .same ?_ ?_
    all_goals simp [seen, stopWaiting]

end Moves

/-- A connection may be given up where it cannot be closed when a task is
dropped, and that is all that is written down then. -/
theorem writes_dropStage (w : World) (outside : Bool) (id : Nat) (s : Stage) :
    Writes w (w.dropStage outside id s) (∃ conn, · = .abandoned conn) := by
  refine dropStage_induct (P := (Writes w · _)) (.refl w) (fun conn => ?_)
    (fun v hv => hv.trans (.same (by simp) (by simp)))
    (fun v hv => hv.trans (.same (by simp) (by simp)))
  unfold letGo
  split
  · exact .note ⟨conn, rfl⟩
  · exact .same rfl rfl

/-! ## How the world goes on -/

/-- A task is picked from those that can go on. -/
def pick (w : World) (id : Nat) : World :=
  { w with ready := w.ready.erase id }

/-- The two worlds differ only in their tasks and in who can go on. -/
structure Alike (v z : World) : Prop where
  config : z.config = v.config
  server : z.server = v.server
  pool : z.pool = v.pool
  handles : z.handles = v.handles
  signal : z.signal = v.signal
  now : z.now = v.now
  history : z.history = v.history

theorem Alike.scene {v z : World} (h : Alike v z) : z.scene = v.scene := by
  simp only [World.scene, opened, begun, abandoned, h.server, h.pool,
    h.handles, h.now, h.history]

/-- A task has come to wait at a stage. -/
structure Halts (v : World) (t : Task) (s : Stage) (z : World) : Prop
    extends Alike v z where
  distinct : z.Distinct
  nextTask : z.nextTask = v.nextTask
  others : z.others t.id = v.others t.id
  task : ∃ limit, z.task? t.id = some { t with stage := s, limit }

/-- What becomes of the world when a task goes on as it is to. -/
inductive Follows (v : World) (t : Task) : Flow → World → Prop where
  | again (s : Stage) :
      Follows v t (.again s)
        { v.setStage t.id s with ready := t.id :: v.ready }
  | waits {flow : Flow} {s : Stage} {z : World}
      (hwaits : flow.waits? = some s) (hz : Halts v t s z) :
      Follows v t flow z
  | cutOff {flow : Flow} {s : Stage} {z : World} {outside : Bool}
      (hwaits : flow.waits? = some s) (hz : Halts v t s z) :
      Follows v t flow
        ((z.dropTask outside { t with stage := s }).note
          (.ended t.id .cancelled))
  | finish (o : Outcome) : Follows v t (.finish o) (v.finish t.id o)

/-- Nothing else can become of it. -/
theorem follows {v : World} {t : Task} (hd : v.Distinct)
    (ht : v.task? t.id = some t) (flow : Flow) :
    Follows v t flow (v.follow t.id flow) := by
  have hchecks : ∀ {s : Stage} {u : World}, flow.waits? = some s →
      Alike v u → u.Distinct → u.nextTask = v.nextTask →
      u.others t.id = v.others t.id →
      u.task? t.id = some { t with stage := s } →
      Follows v t flow (u.checkLimit t.id) := by
    intro s u hwaits hu hdu hnext hothers htask
    have hhalts : ∀ {z : World}, Timed u t.id z → Halts v t s z := by
      intro z hz
      obtain ⟨hconfig, hserver, hpool, hhandles, hsignal, hnow, -, -,
        hhistory⟩ := hz.frame
      exact
        { config := hconfig.trans hu.config
          server := hserver.trans hu.server
          pool := hpool.trans hu.pool
          handles := hhandles.trans hu.handles
          signal := hsignal.trans hu.signal
          now := hnow.trans hu.now
          history := hhistory.trans hu.history
          distinct := hdu.of_map_id hz.map_id (Nat.le_of_eq hz.nextTask.symm)
          nextTask := hz.nextTask.trans hnext
          others := hz.others.trans hothers
          task := hz.task? htask }
    have hx := checks htask
    generalize u.checkLimit t.id = y at hx
    cases hx with
    | stays hz => exact .waits hwaits (hhalts hz)
    | dropped hz => exact .cutOff hwaits (hhalts hz)
  have hset : ∀ s, (v.setStage t.id s).Distinct := fun s =>
    hd.of_map_id (map_id_setStage ..) (Nat.le_refl _)
  cases flow with
  | again s => exact .again s
  | pause s =>
    exact hchecks rfl ⟨rfl, rfl, rfl, rfl, rfl, rfl, rfl⟩ (hset s) rfl
      (others_setStage ..) (task?_setStage s ht)
  | yield s =>
    exact hchecks (u := { v.setStage t.id s with
      yielded := t.id :: v.yielded }) rfl ⟨rfl, rfl, rfl, rfl, rfl, rfl, rfl⟩
      ((hset s).of_queues _ _) rfl (others_setStage ..) (task?_setStage s ht)
  | finish o => exact .finish o

namespace Follows

variable {v w' : World} {t : Task} {flow : Flow}

/-- A task that is still there has come to the stage of its flow, and nothing
else has changed.  All others were there before, or one is new that closes
what the task had. -/
theorem mem_roll (h : Follows v t flow w') (hd : v.Distinct)
    (ht : v.task? t.id = some t) {x : Nat × Stage} (hx : x ∈ w'.roll) :
    x ∈ (v.others t.id).map tag ∨
      (x.1 = t.id ∧ flow.stage? = some x.2 ∧ Alike v w') ∨
      x.1 = v.nextTask ∧ ∃ conn, x.2 = .closing [conn] [] := by
  have hstays : ∀ {z : World} {s : Stage} {limit : Option Limit},
      z.Distinct → z.task? t.id = some { t with stage := s, limit } →
      z.others t.id = v.others t.id → x ∈ z.roll →
      x ∈ (v.others t.id).map tag ∨ x = (t.id, s) := by
    intro z s limit hz htask hothers hmem
    have hp := hz.perm_roll htask
    rw [hothers] at hp
    exact (List.mem_cons.1 (hp.mem_iff.1 hmem)).symm
  cases h with
  | again s =>
    have hset : (v.setStage t.id s).Distinct :=
      hd.of_map_id (map_id_setStage ..) (Nat.le_refl _)
    rcases hstays (hset.of_queues _ _) (task?_setStage s ht)
      (others_setStage v t.id s) hx with hx | rfl
    · exact .inl hx
    · exact .inr (.inl ⟨rfl, rfl, rfl, rfl, rfl, rfl, rfl, rfl, rfl⟩)
  | waits hwaits hz =>
    obtain ⟨limit, htask⟩ := hz.task
    rcases hstays hz.distinct htask hz.others hx with hx | rfl
    · exact .inl hx
    · exact .inr (.inl ⟨rfl, Flow.stage?_of_waits? hwaits, hz.toAlike⟩)
  | @cutOff _ s z outside hwaits hz =>
    have hlt : t.id < z.nextTask := by
      rw [hz.nextTask]
      exact hd.lt t (mem_of_task? ht)
    have hroll := roll_dropTask outside (t := { t with stage := s }) hlt
    rw [hz.others] at hroll
    have hx : x ∈ (z.dropTask outside { t with stage := s }).roll := hx
    rw [hroll, List.mem_append] at hx
    refine hx.imp_right fun hx => .inr ?_
    obtain ⟨s', hs', rfl⟩ := List.mem_map.1 hx
    exact ⟨hz.nextTask, Stage.mem_strays hs'⟩
  | finish o => exact .inl hx

/-- The end of a task is written down, and nothing else but what was given up
where it could not be closed. -/
theorem adds (h : Follows v t flow w') :
    Adds v w' fun e => (∃ conn, e = .abandoned conn) ∨
      (∃ o, flow = .finish o ∧ e = .ended t.id o) ∨
        (∃ s, flow.waits? = some s) ∧ e = .ended t.id .cancelled := by
  cases h with
  | again s => exact ⟨[], rfl, fun _ he => by cases he⟩
  | waits _ hz => exact ⟨[], hz.history, fun _ he => by cases he⟩
  | @cutOff _ s z outside hwaits hz =>
    obtain ⟨hnow, evs, hevs, hall⟩ := writes_dropStage z outside t.id s
    refine ⟨.ended t.id .cancelled :: evs, ?_, fun e he => ?_⟩
    · show ((z.dropStage outside t.id s).now, _) ::
        (z.dropStage outside t.id s).history = _
      rw [hnow, hevs, hz.now, hz.history]
      rfl
    · rcases List.mem_cons.1 he with rfl | he
      · exact .inr (.inr ⟨⟨s, hwaits⟩, rfl⟩)
      · exact .inl (hall e he)
  | finish o =>
    refine ⟨[.ended t.id o], rfl, fun e he => ?_⟩
    exact .inr (.inl ⟨o, rfl, List.mem_singleton.1 he⟩)

/-- A task that ends does nothing more. -/
theorem eq_finish {o : Outcome} (h : Follows v t (.finish o) w') :
    w' = v.finish t.id o := by
  cases h with
  | finish => rfl
  | waits hwaits | cutOff hwaits => cases hwaits

/-- A task that goes on at once is at its next stage, and nothing else has
changed. -/
theorem of_again {s : Stage} (hv : v.task? t.id = some t)
    (h : Follows v t (.again s) w') : (t.id, s) ∈ w'.roll ∧ Alike v w' := by
  cases h with
  | again =>
    have hmem := mem_of_task? (task?_setStage s hv)
    exact ⟨List.mem_map_of_mem (f := tag) hmem, rfl, rfl, rfl, rfl, rfl, rfl, rfl⟩
  | waits hwaits | cutOff hwaits => cases hwaits

/-- The holders are as the task has left them. -/
theorem handles (h : Follows v t flow w') : w'.handles = v.handles := by
  cases h with
  | again | finish => rfl
  | waits _ hz => exact hz.handles
  | @cutOff _ s z outside _ hz =>
    have hscene := scene_dropTask z outside { t with stage := s }
    exact (congrArg Scene.handles hscene).trans hz.handles

/-- Nobody comes to wait for a release that was told before. -/
theorem waiting_subset (h : Follows v t flow w') :
    w'.signal.waiting ⊆ v.signal.waiting := by
  cases h with
  | again | finish => exact fun _ hi => hi
  | waits _ hz => exact fun _ hi => hz.signal ▸ hi
  | @cutOff _ s z outside _ hz =>
    have hsub := (passes_dropStage t.id z outside s).waiting
    exact fun _ hi => hz.signal ▸ hsub hi

end Follows

/-! ## Actions -/

/-- A task that can go on does one thing, if it is still there. -/
theorem act_run {w w' : World} {id : Nat} (hd : w.Distinct)
    (ha : w.act (.run id) = some w') :
    (w.task? id = none ∧ w' = w.pick id) ∨ ∃ t flow v,
      w.task? id = some t ∧ (w.pick id).resume id t.stage = (flow, v) ∧
        v.Distinct ∧ v.task? id = some t ∧ v.others id = w.others id ∧
          Follows v t flow w' := by
  simp only [act] at ha
  split at ha
  · obtain rfl : (w.pick id).run id = w' := Option.some.inj ha
    cases ht : w.task? id with
    | none =>
      refine .inl ⟨rfl, ?_⟩
      rw [run, show (w.pick id).task? id = none from ht]
    | some t =>
      obtain rfl := id_of_task? ht
      have hu := untouched_resume (w.pick t.id) t.id t.stage
      have hrun : (w.pick t.id).run t.id =
          ((w.pick t.id).resume t.id t.stage).2.follow t.id
            ((w.pick t.id).resume t.id t.stage).1 := by
        rw [run, show (w.pick t.id).task? t.id = some t from ht]
      rw [hrun]
      generalize hmove : (w.pick t.id).resume t.id t.stage = x at hu
      have htask : x.2.task? t.id = some t := by
        rw [task?, hu.tasks]
        exact ht
      have hothers : x.2.others t.id = w.others t.id := by
        rw [others, hu.tasks]
        rfl
      have hdu : x.2.Distinct := (hd.of_queues _ _).of_untouched hu
      exact .inr ⟨t, x.1, x.2, rfl, hmove, hdu, htask, hothers,
        follows hdu htask x.1⟩
  · cases ha

/-- What becomes of a world in an action. -/
inductive Acts (w : World) : Action → World → Prop where
  | run {t : Task} {flow : Flow} {v w' : World}
      (ht : w.task? t.id = some t)
      (hmove : (w.pick t.id).resume t.id t.stage = (flow, v))
      (hd : v.Distinct) (hv : v.task? t.id = some t)
      (hothers : v.others t.id = w.others t.id)
      (hfollows : Follows v t flow w') : Acts w (.run t.id) w'
  | gone {id : Nat} (hnone : w.task? id = none) :
      Acts w (.run id) (w.pick id)
  | rouse (hready : w.ready = []) :
      Acts w .rouse { w with ready := w.yielded, yielded := [] }
  | start (op : Operation) (limit : Option Limit) :
      Acts w (.start op limit) (w.spawn (.start op) limit)
  | cancel {t : Task} (outside : Bool) (ht : w.task? t.id = some t)
      (hsuspended : t.stage.isSuspended = true) :
      Acts w (.cancel outside t.id)
        ((w.dropTask outside t).note (.dropped t.id))
  | forgetLate (outside : Bool) {lease : Nat}
      (hended : w.isValid lease = false) : Acts w (.forget outside lease) w
  | forget {lease : Nat} (hvalid : w.isValid lease = true) :
      Acts w (.forget false lease)
        ((w.revoke lease).spawn (.giveBack (.starting lease)) none)
  | forgetOutside {lease : Nat} (hvalid : w.isValid lease = true) :
      Acts w (.forget true lease) (w.revoke lease)
  | changeServer (ch : ServerChange) :
      Acts w (.changeServer ch) { w with server := ch.apply w.server }
  | markClosed (conn : Nat) (closed : Bool) :
      Acts w (.markClosed conn closed)
        { w with server := w.server.markClosed conn closed }
  | markManual (conn : Nat) (manual : Bool) :
      Acts w (.markManual conn manual)
        { w with server := w.server.markManual conn manual }
  | advance {moment : Nat} (ready : List Nat) (hrest : w.atRest = true) :
      Acts w (.advance moment) { w with now := moment, ready := ready }

/-- Nothing else can become of it. -/
theorem acts {w w' : World} {a : Action} (hd : w.Distinct)
    (ha : w.act a = some w') : Acts w a w' := by
  cases a with
  | run id =>
    obtain ⟨hnone, rfl⟩ | ⟨t, flow, v, ht, hmove, hdv, hv, ho, hf⟩ :=
      act_run hd ha
    · exact .gone hnone
    · obtain rfl := id_of_task? ht
      exact .run ht hmove hdv hv ho hf
  | rouse =>
    simp only [act] at ha
    split at ha
    · rename_i hready
      cases ha
      exact .rouse hready
    · cases ha
  | start op limit =>
    simp only [act, World.start] at ha
    split at ha
    · cases ha
      exact .start op limit
    · cases ha
  | cancel outside id =>
    simp only [act] at ha
    split at ha
    · cases ha
    · rename_i t ht
      obtain rfl := id_of_task? ht
      split at ha
      · rename_i hsuspended
        cases ha
        exact .cancel outside ht hsuspended
      · cases ha
  | forget outside lease =>
    cases ha
    unfold World.forget
    cases hvalid : w.isValid lease with
    | false => exact .forgetLate outside hvalid
    | true =>
      cases outside with
      | false => exact .forget hvalid
      | true => exact .forgetOutside hvalid
  | changeServer ch =>
    cases ha
    exact .changeServer ch
  | markClosed conn closed =>
    cases ha
    exact .markClosed conn closed
  | markManual conn manual =>
    cases ha
    exact .markManual conn manual
  | advance moment =>
    simp only [act] at ha
    split at ha
    · rename_i hc
      cases ha
      simp only [Bool.and_eq_true] at hc
      obtain ⟨ready, he⟩ := advanceTo_eq w moment
      rw [he]
      exact .advance ready hc.1.1.1
    · cases ha

/-- A task is at one stage only. -/
theorem Distinct.stage_unique {w : World} (h : w.Distinct) {id : Nat}
    {s s' : Stage} (hs : (id, s) ∈ w.roll) (hs' : (id, s') ∈ w.roll) :
    s = s' := by
  obtain ⟨t, ht, rfl⟩ := h.task?_of_roll hs
  obtain ⟨u, hu, rfl⟩ := h.task?_of_roll hs'
  rw [Option.some.inj (ht.symm.trans hu)]

theorem mem_roll_of_task? {w : World} {id : Nat} {t : Task}
    (ht : w.task? id = some t) : (id, t.stage) ∈ w.roll := by
  obtain rfl := id_of_task? ht
  exact List.mem_map_of_mem (mem_of_task? ht)

/-- A task of which the stage is known makes one of the moves from there. -/
theorem act_task {w w' : World} {t : Task} (hd : w.Distinct)
    (ht : w.task? t.id = some t) (ha : w.act (.run t.id) = some w') :
    ∃ flow v, (w.pick t.id).Moves t.id t.stage flow v ∧
      v.task? t.id = some t ∧ Follows v t flow w' := by
  obtain ⟨hnone, -⟩ | ⟨u, flow, v, hu, hmove, -, hv, -, hf⟩ := act_run hd ha
  · cases ht.symm.trans hnone
  · obtain rfl : u = t := Option.some.inj (hu.symm.trans ht)
    exact ⟨flow, v, moves_of_eq hmove, hv, hf⟩

/-- A task that is on the roll at a stage does what it does in that stage. -/
theorem act_roll {w w' : World} {id : Nat} {s : Stage} (hd : w.Distinct)
    (hmem : (id, s) ∈ w.roll) (ha : w.act (.run id) = some w') :
    ∃ limit flow v, w.task? id = some ⟨id, s, limit⟩ ∧
      (w.pick id).resume id s = (flow, v) ∧
      v.task? id = some ⟨id, s, limit⟩ ∧ Follows v ⟨id, s, limit⟩ flow w' := by
  obtain ⟨t, ht, rfl⟩ := hd.task?_of_roll hmem
  obtain rfl := id_of_task? ht
  obtain ⟨hnone, -⟩ | ⟨u, flow, v, hu, hmove, -, hv, -, hf⟩ := act_run hd ha
  · cases ht.symm.trans hnone
  · obtain rfl : u = t := Option.some.inj (hu.symm.trans ht)
    exact ⟨u.limit, flow, v, ht, hmove, hv, hf⟩

/-- The answer to a call does not depend on who can go on. -/
theorem answer_pick (w : World) (id : Nat) (call : Call) :
    ((w.pick id).hearAnswer call).1 = (w.server.answer call).1 :=
  (hearAnswer_frame (w.pick id) call).2.1

/-! ## What is written down -/

/-- What an action can write down. -/
inductive Tells (w : World) : Action → Event → Prop where
  /-- A task at work writes something down. -/
  | writes {t : Task} {flow : Flow} {v : World} {e : Event}
      (ht : w.task? t.id = some t)
      (hmove : (w.pick t.id).resume t.id t.stage = (flow, v))
      (he : w.Writable t.stage flow e) : Tells w (.run t.id) e
  /-- A task has ended. -/
  | ended {t : Task} {v : World} {o : Outcome} (ht : w.task? t.id = some t)
      (hmove : (w.pick t.id).resume t.id t.stage = (.finish o, v)) :
      Tells w (.run t.id) (.ended t.id o)
  /-- A task has come to wait and is dropped because of its limit. -/
  | cutOff {t : Task} {flow : Flow} {v : World} {s : Stage}
      (ht : w.task? t.id = some t)
      (hmove : (w.pick t.id).resume t.id t.stage = (flow, v))
      (hwaits : flow.waits? = some s) :
      Tells w (.run t.id) (.ended t.id .cancelled)
  /-- A task has been dropped. -/
  | dropped {t : Task} {outside : Bool} (ht : w.task? t.id = some t) :
      Tells w (.cancel outside t.id) (.dropped t.id)
  /-- A connection has been given up where it could not be closed. -/
  | abandoned {a : Action} {conn : Nat} : Tells w a (.abandoned conn)

/-- Whatever an action writes down is of this kind. -/
theorem adds_act {w w' : World} {a : Action} (hd : w.Distinct)
    (ha : w.act a = some w') : Adds w w' (w.Tells a) := by
  cases acts hd ha with
  | @run t flow v _ ht hmove _ _ _ hf =>
    obtain ⟨hnow, evs, hevs, hall⟩ := (moves_of_eq hmove).writes
    obtain ⟨evs', hevs', hall'⟩ := hf.adds
    refine ⟨evs' ++ evs, ?_, fun e he => ?_⟩
    · rw [hevs', hevs, hnow, List.map_append, List.append_assoc]
      rfl
    · rcases List.mem_append.1 he with he | he
      · obtain ⟨conn, rfl⟩ | ⟨o, rfl, rfl⟩ | ⟨⟨s, hwaits⟩, rfl⟩ := hall' e he
        · exact .abandoned
        · exact .ended ht hmove
        · exact .cutOff ht hmove hwaits
      · exact .writes ht hmove (hall e he)
  | @cancel t outside ht =>
    obtain ⟨hnow, evs, hevs, hall⟩ := writes_dropStage w outside t.id t.stage
    refine ⟨.dropped t.id :: evs, ?_, fun e he => ?_⟩
    · show ((w.dropStage outside t.id t.stage).now, _) ::
        (w.dropStage outside t.id t.stage).history = _
      rw [hnow, hevs]
      rfl
    · rcases List.mem_cons.1 he with rfl | he
      · exact .dropped ht
      · obtain ⟨conn, rfl⟩ := hall e he
        exact .abandoned
  | _ => exact ⟨[], rfl, fun _ he => by cases he⟩

/-! ## Where tasks come from -/

/-- Where a task after an action comes from: nothing happened to it, or it is
new, or it has done one thing, and apart from tasks the world is as that left
it. -/
theorem stage_act {w w' : World} {a : Action} (hd : w.Distinct)
    (ha : w.act a = some w') {x : Nat × Stage} (hx : x ∈ w'.roll) :
    (x ∈ w.roll ∧ a.task? ≠ some x.1) ∨
      (x.1 = w.nextTask ∧ x.2.IsFresh) ∨ ∃ t flow v, a = .run x.1 ∧
        w.task? x.1 = some t ∧ (w.pick x.1).resume x.1 t.stage = (flow, v) ∧
        flow.stage? = some x.2 ∧ Alike v w' := by
  have hothers : ∀ {id : Nat}, a.task? = some id →
      x ∈ (w.others id).map tag → x ∈ w.roll ∧ a.task? ≠ some x.1 := by
    intro id hid hmem
    obtain ⟨t, ht, rfl⟩ := List.mem_map.1 hmem
    obtain ⟨hmem, hne⟩ := mem_others.1 ht
    refine ⟨List.mem_map_of_mem hmem, fun he => hne ?_⟩
    exact (Option.some.inj (hid.symm.trans he)).symm
  have hsame : a.task? = none → x ∈ w.roll →
      x ∈ w.roll ∧ a.task? ≠ some x.1 := fun hnone hmem =>
    ⟨hmem, fun he => by cases hnone.symm.trans he⟩
  have hspawn : ∀ {v : World} {s : Stage} {limit : Option Limit},
      a.task? = none → v.tasks = w.tasks → v.nextTask = w.nextTask →
      s.IsFresh → x ∈ (v.spawn s limit).roll →
      (x ∈ w.roll ∧ a.task? ≠ some x.1) ∨
        x.1 = w.nextTask ∧ x.2.IsFresh := by
    intro v s limit hnone htasks hnext hfresh hmem
    rw [roll, World.spawn, List.map_append, List.mem_append, htasks] at hmem
    refine hmem.imp (hsame hnone) fun hmem => ?_
    obtain rfl := List.mem_singleton.1 hmem
    exact ⟨hnext, hfresh⟩
  cases acts hd ha with
  | @run t flow v _ ht hmove hdv hv ho hf =>
    rcases hf.mem_roll hdv hv hx with hx | ⟨hid, hs, halike⟩ | ⟨hid, c, hc⟩
    · rw [ho] at hx
      exact .inl (hothers rfl hx)
    · refine .inr (.inr ⟨t, flow, v, ?_, ?_, ?_, hs, halike⟩)
      all_goals rw [hid]
      · exact ht
      · exact hmove
    · have hu := untouched_resume (w.pick t.id) t.id t.stage
      rw [hmove] at hu
      exact .inr (.inl ⟨hid.trans hu.nextTask, .inr (.inr ⟨c, hc⟩)⟩)
  | gone hnone =>
    refine .inl ⟨hx, fun he => ?_⟩
    cases he
    obtain ⟨t, ht, -⟩ := hd.task?_of_roll hx
    cases hnone.symm.trans ht
  | start op limit =>
    exact (hspawn rfl rfl rfl (.inl ⟨op, rfl⟩) hx).imp_right .inl
  | @cancel t outside ht =>
    have hroll := roll_dropTask outside (hd.lt t (mem_of_task? ht))
    have hx : x ∈ (w.dropTask outside t).roll := hx
    rw [hroll, List.mem_append] at hx
    refine hx.imp (hothers rfl) fun hx => .inl ?_
    obtain ⟨s', hs', rfl⟩ := List.mem_map.1 hx
    exact ⟨rfl, .inr (.inr (Stage.mem_strays hs'))⟩
  | @forget lease =>
    exact (hspawn rfl rfl rfl (.inr (.inl ⟨lease, rfl⟩)) hx).imp_right .inl
  | _ => exact .inl (hsame rfl hx)

theorem Follows.nextTask_le {v w' : World} {t : Task} {flow : Flow}
    (h : Follows v t flow w') : v.nextTask ≤ w'.nextTask := by
  cases h with
  | again s | finish o => exact Nat.le_refl _
  | waits _ hz => exact Nat.le_of_eq hz.nextTask.symm
  | @cutOff _ s z outside _ hz =>
    have hle := (dropStage_tasks z outside t.id s).2.1
    rw [hz.nextTask] at hle
    exact hle

/-- The numbers of tasks only go up. -/
theorem nextTask_act {w w' : World} {a : Action} (hd : w.Distinct)
    (ha : w.act a = some w') : w.nextTask ≤ w'.nextTask := by
  cases acts hd ha with
  | @run t flow v _ _ hmove _ _ _ hf =>
    have hu := untouched_resume (w.pick t.id) t.id t.stage
    rw [hmove] at hu
    exact Nat.le_trans (Nat.le_of_eq hu.nextTask.symm) hf.nextTask_le
  | start | forget => exact Nat.le_succ _
  | @cancel t outside => exact (dropStage_tasks w outside t.id t.stage).2.1
  | _ => exact Nat.le_refl _

/-- Nobody but the task at work comes to wait for a release. -/
theorem waiting_act {w w' : World} {a : Action} (hd : w.Distinct)
    (ha : w.act a = some w') {i : Nat} (hne : a.task? ≠ some i)
    (hi : i ∈ w'.signal.waiting) : i ∈ w.signal.waiting := by
  cases acts hd ha with
  | @run t flow v _ _ hmove _ _ _ hf =>
    have hturn := (Turn.resume (w.pick t.id) t.id t.stage).waiting i
    rw [hmove] at hturn
    exact hturn (hf.waiting_subset hi) fun he => hne (congrArg some he.symm)
  | @cancel t outside =>
    exact (passes_dropStage t.id w outside t.stage).waiting hi
  | _ => exact hi

/-! ## Tasks that are over -/

/-- A task that is over is not there, and its number is not given again. -/
def Over (w : World) (id : Nat) : Prop :=
  id < w.nextTask ∧ ∀ x ∈ w.roll, x.1 ≠ id

/-- A task that is over stays so. -/
theorem Over.act {w w' : World} {a : Action} {id : Nat} (h : w.Over id)
    (hd : w.Distinct) (ha : w.act a = some w') : w'.Over id := by
  refine ⟨Nat.lt_of_lt_of_le h.1 (nextTask_act hd ha), fun x hx => ?_⟩
  obtain ⟨hx, -⟩ | ⟨hid, -⟩ | ⟨t, -, -, -, ht, -⟩ := stage_act hd ha hx
  · exact h.2 x hx
  · have := h.1
    omega
  · have hne := h.2 (tag t) (List.mem_map_of_mem (mem_of_task? ht))
    rwa [tag, id_of_task? ht] at hne

/-- A task that is over is not found. -/
theorem Over.task?_eq {w : World} {id : Nat} (h : w.Over id) :
    w.task? id = none := by
  rw [task?, List.find?_eq_none]
  intro t ht
  have hne : t.id ≠ id := h.2 (tag t) (List.mem_map_of_mem ht)
  simpa using hne

/-- A task is over with the action after which it is not there. -/
theorem over_of_gone {w w' : World} {a : Action} {t : Task} (hd : w.Distinct)
    (ht : w.task? t.id = some t) (ha : w.act a = some w')
    (hgone : ∀ st, (t.id, st) ∉ w'.roll) : w'.Over t.id := by
  have hlt := hd.lt t (mem_of_task? ht)
  refine ⟨Nat.lt_of_lt_of_le hlt (nextTask_act hd ha), ?_⟩
  rintro ⟨i, st⟩ hx rfl
  exact hgone st hx

end World

namespace Run

variable {c : Config} {s : Server} {as later : List Action} {a : Action}
  {w w' : World}

/-- The history only gets longer. -/
theorem history_suffix (h : Run c s as w) (h' : Run c s (later ++ as) w') :
    w.history <:+ w'.history := by
  induction later generalizing w' with
  | nil =>
    cases h.unique h'
    exact List.suffix_refl _
  | cons a later ih =>
    cases h' with
    | @act _ _ v _ h' ha =>
      obtain ⟨evs, hevs, -⟩ := World.adds_act (World.distinct_of_run h') ha
      exact (ih h').trans ⟨_, hevs.symm⟩

/-- An event was written down before, or the action tells it. -/
theorem tells (h : Run c s as w) (ha : w.act a = some w') {m : Nat}
    {e : Event} (hmem : (m, e) ∈ w'.history) :
    (m, e) ∈ w.history ∨ m = w.now ∧ w.Tells a e := by
  obtain ⟨evs, hevs, hall⟩ := World.adds_act (World.distinct_of_run h) ha
  rw [hevs, List.mem_append] at hmem
  refine hmem.symm.imp_right fun hmem => ?_
  obtain ⟨e', he', heq⟩ := List.mem_map.1 hmem
  cases heq
  exact ⟨rfl, hall _ he'⟩

/-- With the action that tells that a task is over, it is gone. -/
theorem over_of_tells (h : Run c s as w) (ha : w.act a = some w') {m id : Nat}
    {e : Event} (hmem : (m, e) ∈ w'.history) (hnew : (m, e) ∉ w.history)
    (he : e.over? = some id) : w'.Over id := by
  have hd := World.distinct_of_run h
  obtain ⟨-, htells⟩ := (h.tells ha hmem).resolve_left hnew
  have hgone : ∀ {t : Task}, w.task? t.id = some t → a.task? = some t.id →
      (∀ flow v, a = .run t.id →
        (w.pick t.id).resume t.id t.stage = (flow, v) →
          (m, e) ∈ v.history → flow.stage? = none) → w'.Over t.id := by
    intro t ht htask hnone
    have hlt := hd.lt t (World.mem_of_task? ht)
    refine World.over_of_gone hd ht ha fun s' hx => ?_
    obtain ⟨-, hne⟩ | ⟨hid, -⟩ | ⟨u, flow, v, hrun, hu, hmove, hs, halike⟩ :=
      World.stage_act hd ha hx
    · exact hne htask
    · exact absurd hid (Nat.ne_of_lt hlt)
    · cases ht.symm.trans hu
      rw [hnone flow v hrun hmove (halike.history ▸ hmem)] at hs
      cases hs
  cases htells with
  | writes _ _ hw => cases hw.1.symm.trans he
  | abandoned => cases he
  | ended ht hmove =>
    cases he
    refine hgone ht rfl fun flow v _ hmove' _ => ?_
    cases hmove.symm.trans hmove'
    rfl
  | cutOff ht hmove hwaits =>
    cases he
    refine hgone ht rfl fun flow v _ hmove' hv => ?_
    obtain ⟨-, evs, hevs, hall⟩ := (World.moves_of_eq hmove').writes
    rw [hevs, List.mem_append] at hv
    obtain ⟨e, he, heq⟩ := List.mem_map.1 (hv.resolve_right hnew)
    cases heq
    cases (hall _ he).1
  | dropped ht =>
    cases he
    refine hgone ht rfl fun flow v hrun => ?_
    cases hrun

/-- A task of which it is written down that it is over is not there. -/
theorem is_over (h : Run c s as w) {m id : Nat} {e : Event}
    (hmem : (m, e) ∈ w.history) (he : e.over? = some id) : w.Over id := by
  induction h with
  | new hs hw =>
    obtain ⟨-, -, rfl⟩ := Run.new_iff.1 (.new hs hw)
    cases hmem
  | @act as a w w' h ha ih =>
    by_cases hold : (m, e) ∈ w.history
    · exact (ih hold).act (World.distinct_of_run h) ha
    · exact h.over_of_tells ha hmem hold he

end Run

end DatabasePool
