import DatabasePool.Proofs.Dialling
import DatabasePool.Proofs.Numbers
import DatabasePool.Proofs.Overdue

/-!
# Opening a connection

When there is room in the pool, a request opens a connection.  It takes a slot
and a number for it, and calls the server.  If the server refuses, it calls
again, up to four times.  If an answer takes too long, the request ends.

* `Dials` says where an opening stands, and `EndsOpening` how it ends.
* `Opening` follows one opening through a run, and `opening_of_run` says what
  becomes of it.
-/

namespace DatabasePool

/-! ## Where an opening stands -/

namespace World

/-- A request gives back the room that it had for a new connection, and leaves
what is kept and what is lent as it is. -/
structure GivesRoomBack (w w' : World) : Prop where
  idle : w'.pool.idle = w.pool.idle
  active : w'.pool.active = w.pool.active
  inFlight : w'.pool.inFlight + 1 = w.pool.inFlight

/-- The task that waits for a call since this moment is held to the time that
the call may take, from its first look at the call on. -/
inductive KeepsTime (c : Config) (w : World) (begun id : Nat) :
    Option Timer → Prop where
  | atOnce (hnow : w.now = begun) (hready : id ∈ w.ready) :
      KeepsTime c w begun id none
  | timed {t : Timer} (hdue : t.due = c.connectLate begun)
      (hearly : w.now ≤ c.connectLate begun) : KeepsTime c w begun id (some t)

end World

/-- Where an opening stands after these actions, with what it has had to do
with the server so far. -/
inductive Dials (c : Config) (s : Server) (as : List Action) (start id : Nat)
    (r : Record String) (w : World) (log : List (Nat × Dialling)) :
    Attempt → Prop where
  | calling {messages : List String}
      (hlog : Dialled c start log (.calling w.now messages))
      (hfew : messages.length ≤ connectRetries)
      (hqueue : id ∈ w.ready ∨ id ∈ w.yielded) :
      Dials c s as start id r w log (.opening r messages.length)
  | waiting {messages : List String} {begun delay : Nat} {options : String}
      {timer : Timer} {limit : Option Timer}
      (hlog : Dialled c start log (.waiting begun delay messages))
      (hdue : timer.due = Time.answered begun delay)
      (hearly : w.now ≤ Time.answered begun delay)
      (hlimit : w.KeepsTime c begun id limit) :
      Dials c s as start id r w log
        (.connecting r messages.length ⟨.connect options, timer⟩ limit)
  | opened {conn : Nat} (hlog : Dialled c start log (.opened conn))
      (honly : OnlyFor c s as r.id (· = conn)) (hready : id ∈ w.ready) :
      Dials c s as start id r w log (.lending ⟨conn, r⟩)

/-- How an opening ends with an action. -/
inductive EndsOpening (c : Config) (s : Server) (as : List Action)
    (start id : Nat) (q : Request) (r : Record String) (w w' : World)
    (log : List (Nat × Dialling)) : Prop where
  /-- The connection is lent. -/
  | lent {conn : Nat} (hlog : Dialled c start log (.opened conn))
      (hcurrent : w.pool.isCurrent r = true)
      (hlent : w'.handles = w.handles ++ [{ conn, record := r.lend w.now }])
      (hended : (w.now, .ended id (.lent w.handles.length)) ∈ w'.history)
      (honly : OnlyFor c s as r.id (· = conn)) :
      EndsOpening c s as start id q r w w' log
  /-- The pool has moved on meanwhile, and the connection is to be closed. -/
  | outdated {conn : Nat} {call : Pending}
      (hlog : Dialled c start log (.opened conn))
      (hstale : w.pool.isCurrent r = false) (hcall : call.call = .close conn)
      (hstage : (id, .acquire q (.discarding call false)) ∈ w'.roll)
      (honly : OnlyFor c s as r.id (· = conn)) :
      EndsOpening c s as start id q r w w' log
  /-- The call takes too long. -/
  | late {begun delay : Nat} {messages : List String}
      (hlog : Dialled c start log (.waiting begun delay messages))
      (hnow : w.now = c.connectLate begun)
      (hlate : c.connectLate begun < Time.answered begun delay)
      (hended : (w.now, .ended id (.failed .timeout)) ∈ w'.history)
      (hback : w.GivesRoomBack w')
      (honly : OnlyFor c s as r.id fun _ => False) :
      EndsOpening c s as start id q r w w' log
  /-- The server has refused for the last time. -/
  | refused {message : String} {messages : List String}
      (hlog : Dialled c start log (.calling w.now (message :: messages)))
      (hfour : messages.length = connectRetries)
      (hended : (w.now, .ended id (.failed (.refused message))) ∈ w'.history)
      (hback : w.GivesRoomBack w')
      (honly : OnlyFor c s as r.id fun _ => False) :
      EndsOpening c s as start id q r w w' log
  /-- The request is dropped, by itself or because of its limit. -/
  | dropped {phase : Phase} {e : Event} (hlog : Dialled c start log phase)
      (hphase : ∀ conn, phase ≠ .opened conn) (hover : e.over? = some id)
      (hcut : ∀ o, e = .ended id o → o = .cancelled)
      (hended : (w.now, e) ∈ w'.history) (hback : w.GivesRoomBack w')
      (honly : OnlyFor c s as r.id fun _ => False) :
      EndsOpening c s as start id q r w w' log

/-- What the request itself makes of an opening with an action.  It goes on,
and has left the pool alone, or it ends. -/
inductive Proceeds (c : Config) (s : Server) (as : List Action)
    (start id : Nat) (q : Request) (r : Record String) (w w' : World)
    (log : List (Nat × Dialling)) : Prop where
  | goesOn {x : Attempt} (hpool : w'.pool = w.pool)
      (hmem : (id, .acquire q x) ∈ w'.roll)
      (hdials : Dials c s as start id r w' log x) :
      Proceeds c s as start id q r w w' log
  | ends (hends : EndsOpening c s as start id q r w w' log) :
      Proceeds c s as start id q r w w' log

/-! ## What one action does -/

section Steps

variable {c : Config} {s : Server} {as : List Action} {a : Action}
  {v w w' : World} {id start : Nat} {q : Request} {r : Record String}
  {x : Attempt} {log : List (Nat × Dialling)}

namespace World

/-- The pool when a task with a slot is dropped. -/
theorem pool_dropTask {t : Task} (outside : Bool)
    (hslot : t.stage.hasSlot = true) :
    (w.dropTask outside t).pool = w.pool.free := by
  have hbooks := books_dropStage w [] outside t.id t.stage
  rw [if_pos hslot] at hbooks
  exact congrArg Books.pool hbooks

end World

/-- A request ends while it has room for a new connection.  It gives the room
back, it is gone, and no connection ever has the number. -/
theorem Run.givesUp (h : Run c s as w) (ha : w.act a = some w')
    (hid : a.task? = some id) (hmem : (id, .acquire q x) ∈ w.roll)
    (hroom : x.hand = .room r) (hpool : w'.pool = w.pool.free)
    (hhandles : w'.handles = w.handles) {m : Nat} {e : Event}
    (hended : (m, e) ∈ w'.history) (he : e.over? = some id) :
    w.GivesRoomBack w' ∧ OnlyFor c s (a :: as) r.id fun _ => False := by
  have hgone := ((h.act ha).is_over hended he).2
  obtain ⟨t, ht, hstage⟩ := (World.distinct_of_run h).task?_of_roll hmem
  have hslot : t.stage.hasSlot = true := by
    rw [hstage, ← Stage.hasSlot_hand]
    show x.hand.hasSlot = true
    rw [hroom]
    rfl
  have hpos := inFlight_pos_of_run h (World.mem_of_task? ht) hslot
  have hidle : w'.pool.idle = w.pool.idle := by rw [hpool, Pool.free]
  have hactive : w'.pool.active = w.pool.active := by rw [hpool, Pool.free]
  have hlast : w'.pool.lastId = w.pool.lastId := by rw [hpool, Pool.free]
  have hslots : w'.pool.inFlight + 1 = w.pool.inFlight := by
    rw [hpool, Pool.free]
    exact Nat.sub_add_cancel hpos
  have hspent : Spent r.id (fun _ => False) (w'.books []) w'.hands :=
    h.spent_act ha hid hmem hroom hidle hactive hlast hhandles
      fun st' hmem' => absurd rfl (hgone _ hmem')
  exact ⟨⟨hidle, hactive, hslots⟩,
    h.onlyFor ha (World.mem_rooms hmem hroom) hspent⟩

/-- What a task does makes the world go on as it is to. -/
theorem World.act_follow {t : Task} {flow : Flow} (ht : w.task? id = some t)
    (hmove : (w.pick id).resume id t.stage = (flow, v))
    (ha : w.act (.run id) = some w') : w' = v.follow id flow := by
  simp only [act] at ha
  split at ha
  · obtain rfl : (w.pick id).run id = w' := Option.some.inj ha
    rw [run, show (w.pick id).task? id = some t from ht]
    dsimp only
    rw [hmove]
  · cases ha

/-- A task that goes on at once can do so. -/
theorem World.mem_ready_of_again {t : Task} {st : Stage}
    (ht : w.task? id = some t)
    (hmove : (w.pick id).resume id t.stage = (.again st, v))
    (ha : w.act (.run id) = some w') : id ∈ w'.ready := by
  rw [act_follow ht hmove ha]
  exact List.mem_cons_self

/-- A request that has room for a new connection and comes to wait does so, or
it is dropped because of its limit. -/
theorem Run.proceeds_of_waits (h : Run c s as w)
    (ha : w.act (.run id) = some w') (hmem : (id, .acquire q x) ∈ w.roll)
    (hroom : x.hand = .room r) {evs : List (Nat × Event)}
    (hl : w.Leaves v evs) {limit : Option Limit} {flow : Flow} {y : Attempt}
    (hf : World.Follows v ⟨id, .acquire q x, limit⟩ flow w')
    (hwaits : flow.waits? = some (.acquire q y)) (hy : y.hasSlot = true)
    {phase : Phase} (hlog : Dialled c start log phase)
    (hphase : ∀ conn, phase ≠ .opened conn)
    (hdials : w'.now = w.now → (id, .acquire q y) ∈ w'.roll →
      Dials c s (.run id :: as) start id r w' log y) :
    Proceeds c s (.run id :: as) start id q r w w' log := by
  have hkept := hf.handles.trans hl.handles
  cases hf with
  | again | finish => cases hwaits
  | waits hwaits' hz =>
    cases hwaits'.symm.trans hwaits
    obtain ⟨limit, hthere⟩ := hz.task
    have hmem' := World.mem_roll_of_task? hthere
    exact .goesOn (hz.pool.trans hl.pool) hmem'
      (hdials (hz.now.trans hl.now) hmem')
  | @cutOff _ _ z outside hwaits' hz =>
    cases hwaits'.symm.trans hwaits
    obtain ⟨hdrop, -⟩ := World.writes_dropStage z outside id (.acquire q y)
    have hended : (w.now, Event.ended id .cancelled) ∈ ((z.dropTask outside
        ⟨id, .acquire q y, limit⟩).note (.ended id .cancelled)).history := by
      rw [← hl.now, ← hz.now, ← hdrop]
      exact List.mem_cons_self
    have hpool : ((z.dropTask outside ⟨id, .acquire q y, limit⟩).note
        (.ended id .cancelled)).pool = w.pool.free := by
      refine (World.pool_dropTask (w := z) (t := ⟨id, .acquire q y, limit⟩)
        outside hy).trans ?_
      rw [hz.pool, hl.pool]
    obtain ⟨hback, honly⟩ :=
      h.givesUp ha rfl hmem hroom hpool hkept hended rfl
    refine .ends (.dropped hlog hphase rfl (fun o ho => ?_) hended hback honly)
    exact (Event.ended.inj ho).2.symm

/-! ## What the request does -/

/-- The request calls the server. -/
theorem Run.dials_call (h : Run c s as w) {messages : List String}
    (hmem : (id, .acquire q (.opening r messages.length)) ∈ w.roll)
    (hlog : Dialled c start log (.calling w.now messages))
    (hfew : messages.length ≤ connectRetries)
    (ha : w.act (.run id) = some w') :
    Proceeds c s (.run id :: as) start id q r w w'
      (w.diallingBy id (.run id) w' ++ log) := by
  obtain ⟨limit, flow, v, ht, hmove, hv, hf⟩ :=
    World.act_roll (World.distinct_of_run h) hmem ha
  cases World.moves_of_eq hmove with
  | dial =>
    obtain ⟨hthere, halike⟩ := hf.of_again hv
    have hl := w.leaves_beginCall id (.connect w.server.options)
    rw [World.diallingBy_eq hl.history hf]
    refine .goesOn halike.pool hthere ?_
    refine .waiting (hlog.call hfew w.server.connect.delay) rfl ?_ ?_
    · rw [halike.now]
      exact Time.le_answered ..
    · exact .atOnce halike.now (World.mem_ready_of_again ht hmove ha)
  | awaits hcall => cases hcall

/-- The call has not taken too long so far. -/
theorem World.KeepsTime.now_le {begun : Nat} {limit : Option Timer}
    (h : w.KeepsTime c begun id limit) : w.now ≤ c.connectLate begun := by
  cases h with
  | atOnce hnow => exact hnow ▸ c.le_connectLate _
  | timed hdue hearly => exact hearly

/-- The timer of a call is set when the request first looks at the call, and
that is at once. -/
theorem World.KeepsTime.connectTimer {begun : Nat} {limit : Option Timer}
    (h : w.KeepsTime c begun id limit) (hconfig : w.config = c) :
    ((w.pick id).connectTimer limit).1.due = c.connectLate begun := by
  cases h with
  | atOnce hnow =>
    show w.config.connectLate w.now = _
    rw [hnow, hconfig]
  | timed hdue => exact hdue

/-- The request hears that there is a connection. -/
theorem Run.dials_connect (h : Run c s as w) (ha : w.act (.run id) = some w')
    (hmem : (id, .acquire q x) ∈ w.roll) (hroom : x.hand = .room r)
    {begun delay conn : Nat} {messages : List String} {options : String}
    (hlog : Dialled c start log (.waiting begun delay messages))
    (hnow : w.now = Time.answered begun delay)
    (hearly : Time.answered begun delay ≤ c.connectLate begun)
    {lim : Option Limit} (hv : v.task? id = some ⟨id, .acquire q x, lim⟩)
    (hl : w.Leaves v [(w.now, .answered (.connect options) conn)])
    (hf : World.Follows v ⟨id, .acquire q x, lim⟩
      (.again (.acquire q (.lending ⟨conn, r⟩))) w')
    (hready : id ∈ w'.ready) :
    Proceeds c s (.run id :: as) start id q r w w'
      (w.diallingBy id (.run id) w' ++ log) := by
  obtain ⟨hthere, halike⟩ := hf.of_again hv
  have hpool : w'.pool = w.pool := halike.pool.trans hl.pool
  have hhas : r.id ∈ w.hands.flatMap (·.rooms) := World.mem_rooms hmem hroom
  have hspent : Spent r.id (· = conn) (w'.books []) w'.hands := by
    refine h.spent_act ha rfl hmem hroom (congrArg Pool.idle hpool)
      (congrArg Pool.active hpool) (congrArg Pool.lastId hpool)
      (halike.handles.trans hl.handles) fun st' hmem' => ?_
    obtain rfl := (World.distinct_of_run (h.act ha)).stage_unique hmem' hthere
    refine ⟨rfl, fun x hx => ?_⟩
    obtain rfl := List.mem_singleton.1 hx
    rfl
  rw [World.diallingBy_eq hl.history hf, hnow]
  exact .goesOn hpool hthere
    (.opened (hlog.connect hearly conn) (h.onlyFor ha hhas hspent) hready)

/-- The request hears that there is none, and is to call again. -/
theorem Run.dials_refuse (h : Run c s as w) (ha : w.act (.run id) = some w')
    (hmem : (id, .acquire q x) ∈ w.roll) (hroom : x.hand = .room r)
    {begun delay : Nat} {messages : List String} {options : String}
    (hlog : Dialled c start log (.waiting begun delay messages))
    (hnow : w.now = Time.answered begun delay)
    (hearly : Time.answered begun delay ≤ c.connectLate begun)
    (hfew : messages.length < connectRetries)
    {lim : Option Limit} (hv : v.task? id = some ⟨id, .acquire q x, lim⟩)
    (hl : w.Leaves v [(w.now, .failed (.connect options))])
    (hf : World.Follows v ⟨id, .acquire q x, lim⟩
      (.yield (.acquire q (.opening r (messages.length + 1)))) w')
    (hw' : w' = v.follow id
      (.yield (.acquire q (.opening r (messages.length + 1))))) :
    Proceeds c s (.run id :: as) start id q r w w'
      (w.diallingBy id (.run id) w' ++ log) := by
  have hlog' := hlog.refuse hearly w.server.connect.message
  rw [World.diallingBy_eq hl.history hf, hnow]
  refine h.proceeds_of_waits ha hmem hroom hl hf rfl rfl hlog'
    (fun _ hphase => by cases hphase) fun hsame hthere => ?_
  rw [← hnow, ← hsame] at hlog' ⊢
  refine .calling hlog' hfew (.inr ?_)
  rw [hw'] at hthere ⊢
  exact World.mem_yielded_of_yield (t := ⟨id, _, lim⟩) hv ⟨_, hthere, rfl⟩

/-- The request ends while it has room for a new connection. -/
theorem Run.givesUp_of_finish (h : Run c s as w)
    (ha : w.act (.run id) = some w') (hmem : (id, .acquire q x) ∈ w.roll)
    (hroom : x.hand = .room r) {evs : List (Nat × Event)}
    (hl : w.Leaves v evs) {lim : Option Limit} {o : Outcome}
    (hf : World.Follows (v.freeSlot.leave id) ⟨id, .acquire q x, lim⟩
      (.finish o) w') :
    (w.diallingBy id (.run id) w' = evs.filterMap fun x =>
      (x.2.dialling? w.server.connect).map (x.1, ·)) ∧
      (w.now, .ended id o) ∈ w'.history ∧ w.GivesRoomBack w' ∧
        OnlyFor c s (.run id :: as) r.id fun _ => False := by
  have hfree : (v.freeSlot.leave id).pool = w.pool.free ∧
      (v.freeSlot.leave id).handles = w.handles ∧
      (v.freeSlot.leave id).now = w.now ∧
      (v.freeSlot.leave id).history = evs ++ w.history := by
    simp [hl.pool, hl.handles, hl.now, hl.history]
  obtain ⟨hpool, hkept, hnow, hhistory⟩ := hfree
  have hhandles := hf.handles.trans hkept
  refine ⟨World.diallingBy_eq hhistory hf, ?_⟩
  obtain rfl := hf.eq_finish
  have hended : (w.now, Event.ended id o) ∈
      ((v.freeSlot.leave id).finish id o).history := by
    rw [← hnow]
    exact List.mem_cons_self
  exact ⟨hended, h.givesUp ha rfl hmem hroom hpool hhandles hended rfl⟩

/-- The request looks at the call that it waits for. -/
theorem Run.dials_wait (h : Run c s as w) (ha : w.act (.run id) = some w')
    {messages : List String} {begun delay : Nat} {options : String}
    {timer : Timer} {limit : Option Timer}
    (hmem : (id, .acquire q (.connecting r messages.length
      ⟨.connect options, timer⟩ limit)) ∈ w.roll)
    (hlog : Dialled c start log (.waiting begun delay messages))
    (hdue : timer.due = Time.answered begun delay)
    (hearly : w.now ≤ Time.answered begun delay)
    (hlimit : w.KeepsTime c begun id limit) :
    Proceeds c s (.run id :: as) start id q r w w'
      (w.diallingBy id (.run id) w' ++ log) := by
  obtain ⟨lim, flow, v, ht, hmove, hv, hf⟩ :=
    World.act_roll (World.distinct_of_run h) hmem ha
  have hnow : (w.pick id).isDue timer = true →
      w.now = Time.answered begun delay := fun hd =>
    Nat.le_antisymm hearly (hdue ▸ of_decide_eq_true hd)
  have hlate := hlimit.connectTimer h.config_fits.1
  have hnot : (w.pick id).isDue timer = false →
      w.now < Time.answered begun delay := fun hd =>
    hdue ▸ Nat.lt_of_not_le (of_decide_eq_false hd)
  cases World.moves_of_eq hmove with
  | connect hd hok =>
    have hready := World.mem_ready_of_again ht hmove ha
    exact h.dials_connect ha hmem rfl hlog (hnow hd)
      (hnow hd ▸ hlimit.now_le) hv (World.leaves_answered hok) hf hready
  | retry hd herr hfew =>
    exact h.dials_refuse ha hmem rfl hlog (hnow hd) (hnow hd ▸ hlimit.now_le)
      hfew hv (World.leaves_denied herr) hf (World.act_follow ht hmove ha)
  | refused hd herr hmany =>
    obtain ⟨hdid, hended, hback, honly⟩ :=
      h.givesUp_of_finish ha hmem rfl (World.leaves_denied herr) hf
    have hlog' := hlog.refuse (hnow hd ▸ hlimit.now_le) w.server.connect.message
    rw [← hnow hd] at hlog'
    rw [(World.denied herr).2] at hended
    rw [hdid]
    have hfew := hlog.countP_calls.2
    exact .ends (.refused hlog' (Nat.le_antisymm hfew hmany) hended hback honly)
  | timeout hd htoo =>
    obtain ⟨hdid, hended, hback, honly⟩ :=
      h.givesUp_of_finish ha hmem rfl (w.leaves_connectTimer id limit) hf
    have hthen : w.now = c.connectLate begun :=
      Nat.le_antisymm hlimit.now_le (hlate ▸ of_decide_eq_true htoo)
    rw [hdid]
    exact .ends (.late hlog hthen (hthen ▸ hnot hd) hended hback honly)
  | stayConnecting hd hstill =>
    have hl := w.leaves_connectTimer id limit
    rw [World.diallingBy_eq hl.history hf]
    refine h.proceeds_of_waits ha hmem rfl hl hf rfl rfl hlog
      (fun _ hphase => by cases hphase) fun hsame hthere => ?_
    refine .waiting hlog hdue (hsame ▸ hearly) (.timed hlate ?_)
    rw [hsame]
    exact hlimit.now_le
  | awaits hcall => cases hcall

/-- The request is about to lend the connection that it has opened. -/
theorem Run.dials_lend (h : Run c s as w) (ha : w.act (.run id) = some w')
    {conn : Nat} (hmem : (id, .acquire q (.lending ⟨conn, r⟩)) ∈ w.roll)
    (hlog : Dialled c start log (.opened conn))
    (honly : OnlyFor c s as r.id (· = conn)) :
    EndsOpening c s (.run id :: as) start id q r w w'
      (w.diallingBy id (.run id) w' ++ log) := by
  obtain ⟨lim, flow, v, ht, hmove, hv, hf⟩ :=
    World.act_roll (World.distinct_of_run h) hmem ha
  cases World.moves_of_eq hmove with
  | lend hlend =>
    obtain ⟨hcurrent, rfl⟩ := Pool.lend?_eq_some hlend
    have hdid := @World.diallingBy_eq w _ w' id _ _ [(w.now, .lent id
      w.handles.length conn (Time.elapsed q.since w.now))]
      (by simp [World.note, World.pick]) hf
    rw [hdid]
    have hhandles := hf.handles
    refine .lent hlog hcurrent (hhandles.trans ?_) ?_ (honly.cons _)
    · simp [World.note, World.pick]
    · rw [hf.eq_finish]
      refine List.mem_cons.2 (.inl ?_)
      simp [World.note, World.pick, World.removeTask]
  | lendStale hstale =>
    obtain ⟨hthere, halike⟩ := hf.of_again hv
    have hnot : w.pool.isCurrent r = false := by
      refine Bool.eq_false_iff.2 fun hcurrent => ?_
      have hcurrent : (w.pick id).pool.isCurrent r = true := hcurrent
      simp only [Pool.lend?, hcurrent] at hstale
      cases hstale
    have hl := w.leaves_beginCall id (.close conn)
    rw [World.diallingBy_eq hl.history hf]
    exact .outdated hlog hnot rfl hthere (honly.cons _)
  | awaits hcall => cases hcall

/-- The request does one thing: the opening goes on or ends. -/
theorem Dials.own (hi : Dials c s as start id r w log x) (h : Run c s as w)
    (ha : w.act (.run id) = some w') (hmem : (id, .acquire q x) ∈ w.roll) :
    Proceeds c s (.run id :: as) start id q r w w'
      (w.diallingBy id (.run id) w' ++ log) := by
  cases hi with
  | calling hlog hfew => exact h.dials_call hmem hlog hfew ha
  | waiting hlog hdue hearly hlimit =>
    exact h.dials_wait ha hmem hlog hdue hearly hlimit
  | opened hlog honly _ => exact .ends (h.dials_lend ha hmem hlog honly)

/-- What others do, and time that goes by, leaves an opening where it is.  No
time goes by past the moment at which one of its timers fires. -/
theorem Dials.others (hi : Dials c s as start id r w log x) (h : Run c s as w)
    (ha : w.act a = some w') (hmem : (id, .acquire q x) ∈ w.roll)
    (hne : a.task? ≠ some id) : Dials c s (a :: as) start id r w' log x := by
  have hnow : w'.now = w.now ∨ ∃ moment, a = .advance moment :=
    (h.happens ha).loans.2.1
  have hqueued : id ∈ w.ready ∨ id ∈ w.yielded → w'.now = w.now := fun hq =>
    hnow.resolve_right fun ⟨moment, hm⟩ => World.ne_advance ha hq moment hm
  cases hi with
  | calling hlog hfew hqueue =>
    refine .calling ?_ hfew (World.mem_queues_act ha hqueue hne)
    rw [hqueued hqueue]
    exact hlog
  | @waiting messages begun delay options timer limit hlog hdue hearly hlimit =>
    have htimer : ∀ t ∈ timer :: limit.toList, w.now ≤ t.due →
        w'.now ≤ t.due := by
      intro t ht hle
      rcases hnow with hsame | ⟨moment, rfl⟩
      · rwa [hsame]
      · obtain ⟨u, hu, htag⟩ := List.mem_map.1 hmem
        obtain ⟨-, -, hmoment, htimers⟩ := World.act_advance ha
        rw [hmoment]
        refine (htimers u hu t ?_).1
        rw [(Prod.mk.inj htag).2]
        exact ht
    refine .waiting hlog hdue ?_ ?_
    · rw [← hdue] at hearly ⊢
      exact htimer timer List.mem_cons_self hearly
    · cases hlimit with
      | atOnce hbegun hready =>
        exact .atOnce ((hqueued (.inl hready)).trans hbegun)
          (World.mem_ready_act ha hready hne)
      | @timed t hlate hin =>
        refine .timed hlate ?_
        rw [← hlate] at hin ⊢
        exact htimer t (List.mem_cons_of_mem _ List.mem_cons_self) hin
  | opened hlog honly hready =>
    exact .opened hlog (honly.cons a) (World.mem_ready_act ha hready hne)

/-- An opening ends when the request is dropped. -/
theorem Dials.cancelled (hi : Dials c s as start id r w log x)
    (h : Run c s as w) {outside : Bool}
    (ha : w.act (.cancel outside id) = some w')
    (hmem : (id, .acquire q x) ∈ w.roll) :
    EndsOpening c s (.cancel outside id :: as) start id q r w w' log := by
  have hd := World.distinct_of_run h
  obtain ⟨t, ht, hstage⟩ := hd.task?_of_roll hmem
  obtain ⟨hsuspended, hw'⟩ : t.stage.isSuspended = true ∧
      w' = (w.dropTask outside t).note (.dropped id) := by
    simp only [World.act, ht] at ha
    split at ha
    · exact ⟨‹_›, (Option.some.inj ha).symm⟩
    · cases ha
  rw [hstage] at hsuspended
  have hdrop := (World.writes_dropStage w outside t.id t.stage).1
  have hended : (w.now, Event.dropped id) ∈ w'.history := by
    rw [hw', ← hdrop]
    exact List.mem_cons_self
  have hhandles : w'.handles = w.handles := by
    rw [hw']
    exact congrArg Scene.handles (World.scene_dropTask w outside t)
  have hgives : x.hand = .room r → x.hasSlot = true → w.GivesRoomBack w' ∧
      OnlyFor c s (.cancel outside id :: as) r.id fun _ => False := by
    intro hroom hslot
    refine h.givesUp ha rfl hmem hroom ?_ hhandles hended rfl
    rw [hw']
    refine World.pool_dropTask outside ?_
    rw [hstage]
    exact hslot
  cases hi with
  | calling hlog | waiting hlog =>
    obtain ⟨hback, honly⟩ := hgives rfl rfl
    refine .dropped hlog (fun _ hphase => by cases hphase) rfl
      (fun _ ho => by cases ho) hended hback honly
  | opened => cases hsuspended

/-- There are four calls at most. -/
theorem Dials.calls_le (hi : Dials c s as start id r w log x) :
    log.countP (·.2.isCall) ≤ 4 := by
  cases hi with
  | calling hlog | waiting hlog | opened hlog => exact hlog.calls_le

theorem EndsOpening.calls_le
    (hi : EndsOpening c s as start id q r w w' log) :
    log.countP (·.2.isCall) ≤ 4 := by
  cases hi with
  | lent hlog | outdated hlog | late hlog | refused hlog | dropped hlog =>
    exact hlog.calls_le

end Steps

/-! ## One opening through a run -/

/-- In a run of some actions after others, a task has left the pool alone. -/
def HandsOff (c : Config) (s : Server) (as later : List Action) (id : Nat) :
    Prop :=
  ∀ u u', DoneIn c s as later id u u' → u'.pool = u.pool

/-- What becomes of an opening that has begun with the actions `as`, in the
world `v`, when later actions have led to the world `w`. -/
inductive Opening (c : Config) (s : Server) (as later : List Action)
    (v : World) (id : Nat) (q : Request) (r : Record String) (start : Nat)
    (w : World) : Prop where
  | underWay {x : Attempt} (hquiet : HandsOff c s as later id)
      (hmem : (id, .acquire q x) ∈ w.roll)
      (hdials : Dials c s (later ++ as) start id r w (v.dialling id later) x) :
      Opening c s as later v id q r start w
  | ended {between after : List Action} {a : Action} {u u' : World}
      (hlater : later = after ++ a :: between)
      (hu : Run c s (between ++ as) u) (hact : u.act a = some u')
      (hid : a.task? = some id) (hquiet : HandsOff c s as between id)
      (hends : EndsOpening c s (a :: (between ++ as)) start id q r u u'
        (v.dialling id (a :: between))) :
      Opening c s as later v id q r start w

section Runs

variable {c : Config} {s : Server} {as later : List Action} {a : Action}
  {v v' w w' : World} {id start : Nat} {q : Request} {r : Record String}

/-- A task keeps its hands off the pool with one more action of others, or of
its own that leaves the pool alone. -/
theorem HandsOff.cons (hq : HandsOff c s as later id)
    (h : Run c s (later ++ as) w)
    (hown : ∀ w', a = .run id → w.act a = some w' → w'.pool = w.pool) :
    HandsOff c s as (a :: later) id := by
  intro u u' hdone
  rcases h.doneIn_cons hdone with hdone | ⟨rfl, rfl, ha⟩
  · exact hq u u' hdone
  · exact hown u' rfl ha

/-- An opening takes its course with one more action. -/
theorem Opening.act (hi : Opening c s as later v id q r start w)
    (h : Run c s as v) (h' : Run c s (later ++ as) w)
    (ha : w.act a = some w') : Opening c s as (a :: later) v id q r start w' := by
  have hlog : v.dialling id (a :: later) =
      w.diallingBy id a w' ++ v.dialling id later := h.dialling_cons h' ha
  cases hi with
  | @ended between after b u u' hlater hu hact hid hquiet hends =>
    have hlater' : a :: later = (a :: after) ++ b :: between :=
      congrArg _ hlater
    exact .ended hlater' hu hact hid hquiet hends
  | underWay hquiet hmem hdials =>
    by_cases hid : a.task? = some id
    · obtain rfl | ⟨outside, rfl⟩ := Action.eq_of_task? hid
      · have hgoes := hdials.own h' ha hmem
        rw [← hlog] at hgoes
        cases hgoes with
        | goesOn hpool hthere hdials' =>
          refine .underWay (hquiet.cons h' fun u' _ hact => ?_) hthere hdials'
          obtain rfl := Option.some.inj (ha.symm.trans hact)
          exact hpool
        | ends hends =>
          exact .ended (List.nil_append _).symm h' ha hid hquiet hends
      · have hends := hdials.cancelled h' ha hmem
        have hnothing : v.dialling id (.cancel outside id :: later) =
            v.dialling id later := hlog
        rw [← hnothing] at hends
        exact .ended (List.nil_append _).symm h' ha hid hquiet hends
    · have hne : a ≠ .run id := fun he => hid (by rw [he]; rfl)
      rw [World.diallingBy, if_neg hne, List.nil_append] at hlog
      refine .underWay (hquiet.cons h' fun _ he => absurd he hne)
        ((h'.happens ha).remains hmem hid) ?_
      rw [hlog]
      exact hdials.others h' ha hmem hid

/-- So it does with all that happens. -/
theorem Run.opening (h : Run c s as v) {x : Attempt}
    (hmem : (id, .acquire q x) ∈ v.roll)
    (hdials : Dials c s as start id r v [] x)
    (h' : Run c s (later ++ as) w) :
    Opening c s as later v id q r start w := by
  induction later generalizing w with
  | nil =>
    obtain rfl := h.unique h'
    refine .underWay ?_ hmem hdials
    rintro u u' ⟨before, after, heq, -⟩
    cases after <;> cases heq
  | cons a later ih =>
    cases h' with
    | act h' ha => exact (ih h').act h h' ha

end Runs

end DatabasePool
