import DatabasePool.Proofs.Checkouts
import DatabasePool.Proofs.Finality
import DatabasePool.Proofs.Slots
import DatabasePool.Proofs.Undoing

/-!
# What becomes of a connection that comes back

A return decides twice.  At the start the connection has to be one that may be
kept, and then what was not committed on it is undone.  That can take a while,
and meanwhile other connections come back, or the pool moves on.  So in the
end there has to be room still, and the connection has to be current still.
Then it is kept, and otherwise it is closed.

* `World.StartsBack` says what a return does first, and `World.GoesBack` what
  it does from then on.
* `Course` follows one return through a run.
* `one_outcome_of_run` says how it ends: with the connection kept or closed,
  and with one slot given back and one ring of the release signal.
-/

namespace DatabasePool

/-- In a run of some actions after others, the task did one thing, and that
made the one world the other. -/
def DoneIn (c : Config) (s : Server) (as later : List Action) (id : Nat)
    (u u' : World) : Prop :=
  ∃ before after, later = after ++ .run id :: before ∧
    Run c s (before ++ as) u ∧ u.act (.run id) = some u'

namespace World

/-- The connection can be kept for later: it is current, and there is room for
it. -/
def CanStore (w : World) (r : Record String) : Prop :=
  w.pool.isCurrent r = true ∧ w.pool.idle.length < w.config.maxIdle

/-- A task does one thing and goes on.  The pool stays the same, nobody is told
of a release, and no rollback begins. -/
structure Calm (w : World) (id : Nat) (w' : World) : Prop where
  pool : w'.pool = w.pool
  signal : w'.signal = w.signal
  rollbacks : w.rollbacksBegun (.run id) w' = []

/-- A return ends well.  It gives its slot back and rings the release signal
once. -/
structure EndsReturn (w : World) (id : Nat) (w' : World) : Prop where
  inFlight : w'.pool.inFlight + 1 = w.pool.inFlight
  signal : w'.signal = w.signal.ring.2
  rollbacks : w.rollbacksBegun (.run id) w' = []
  ended : w'.history.head? = some (w.now, .ended id .done)

/-- A return begins to close its connection. -/
structure Shuts (w : World) (id conn : Nat) (w' : World) : Prop where
  begun : conn ∈ w.closesBegun (.run id) w'
  stage : ∃ call, call.call = .close conn ∧
    (id, .giveBack (.discarding call)) ∈ w'.roll

/-- What a return does first. -/
inductive StartsBack (w : World) (id : Nat) (loan : Loan) (w' : World) :
    Prop where
  | turnAway (hnot : ¬(w.CanStore loan.entry.record ∧
        w.server.isClosed loan.entry.conn = false))
      (hroll : w.rollbacksBegun (.run id) w' = [])
      (hshuts : w.Shuts id loan.entry.conn w') : StartsBack w id loan w'
  | clean (hkeep : w.CanStore loan.entry.record ∧
        w.server.isClosed loan.entry.conn = false)
      (hauto : w.server.isAutoCommit loan.entry.conn = true)
      (hroll : w.rollbacksBegun (.run id) w' = [])
      (hmem : (id, .giveBack (.storing (w.backEntry loan))) ∈ w'.roll) :
      StartsBack w id loan w'
  | undo (hkeep : w.CanStore loan.entry.record ∧
        w.server.isClosed loan.entry.conn = false)
      (hmanual : w.server.isAutoCommit loan.entry.conn = false)
      (hroll : w.rollbacksBegun (.run id) w' = [loan.entry.conn])
      {call : Pending}
      (hmem : (id, .giveBack (.undoing (w.backEntry loan) call)) ∈ w'.roll) :
      StartsBack w id loan w'

/-- What a return does from then on. -/
inductive GoesBack (w : World) (id : Nat) (w' : World) : Return → Prop where
  | waits {g : Return} (hcalm : w.Calm id w')
      (hmem : (id, .giveBack g) ∈ w'.roll) (hstore : ∀ e, g ≠ .storing e) :
      GoesBack w id w' g
  | undone {e : Entry} {call : Pending} (hcalm : w.Calm id w')
      (hends : w.EndsUndo id (.giveBack (.undoing e call)) e.conn w')
      (hmem : (id, .giveBack (.storing e)) ∈ w'.roll) :
      GoesBack w id w' (.undoing e call)
  | notUndone {e : Entry} {call : Pending} (hcalm : w.Calm id w')
      (hshuts : w.Shuts id e.conn w') : GoesBack w id w' (.undoing e call)
  | noRoom {e : Entry} (hcalm : w.Calm id w') (hnot : ¬w.CanStore e.record)
      (hshuts : w.Shuts id e.conn w') : GoesBack w id w' (.storing e)
  | store {e : Entry} (hcan : w.CanStore e.record)
      (hidle : w'.pool.idle = e :: w.pool.idle)
      (hends : w.EndsReturn id w') : GoesBack w id w' (.storing e)
  | closed {call : Pending} (hdue : w.isDue call.timer = true)
      (hidle : w'.pool.idle = w.pool.idle) (hends : w.EndsReturn id w') :
      GoesBack w id w' (.discarding call)
  | cutOff {g : Return} {m : Nat} (hcut : (m, .ended id .cancelled) ∈ w'.history) :
      GoesBack w id w' g

section Moves

variable {w v w' : World} {id : Nat} {s : Stage} {limit : Option Limit}
  {flow : Flow}

/-- The rollbacks that begin in an action are those that are written down, if
no holder asks for one. -/
theorem rollbacksBegun_eq {a : Action} {evs : List (Nat × Event)}
    (hst : (a.task?.bind w.task?).any (·.stage.rollsBack) = false)
    (hhistory : w'.history = evs ++ w.history) :
    w.rollbacksBegun a w' = evs.filterMap (·.2.rollsBack?) := by
  rw [rollbacksBegun, if_neg (Bool.eq_false_iff.1 hst), hhistory,
    List.length_append, Nat.add_sub_cancel, List.take_left]

/-- A task that does not come to wait for a rollback begins none. -/
theorem rollbacksBegun_eq_nil {a : Action} (hd : w.Distinct)
    (ht : w.task? id = some ⟨id, s, limit⟩) (hrun : a = .run id)
    (hmove : (w.pick id).resume id s = (flow, v))
    (ha : w.act a = some w') (hs : s.rollsBack = false)
    (hflow : ∀ s', flow = .again s' → s'.undoing? = none) :
    w.rollbacksBegun a w' = [] := by
  obtain ⟨evs, hevs, htells⟩ := adds_act hd ha
  rw [rollbacksBegun_eq (by simp [hrun, Action.task?, ht, hs]) hevs]
  refine List.filterMap_eq_nil_iff.2 fun x hx => ?_
  obtain ⟨e, he, rfl⟩ := List.mem_map.1 hx
  cases htells e he with
  | @writes u _ _ _ hu hmove' hw =>
    have hid : u.id = id := Action.run.inj hrun
    rw [hid] at hu hmove'
    obtain rfl := Option.some.inj (ht.symm.trans hu)
    obtain rfl := (Prod.mk.inj (hmove.symm.trans hmove')).1
    refine Option.eq_none_iff_forall_ne_some.2 fun conn hconn => ?_
    rcases hw.2 conn hconn with hholder | ⟨-, s', e, call, hs', he', -⟩
    · cases hs.symm.trans hholder
    · cases (hflow s' hs').symm.trans he'
  | _ => rfl

/-- A task that has begun to close a connection, and is not to do so for a
holder, does so for the pool. -/
theorem shuts_of_again (ht : w.task? id = some ⟨id, s, limit⟩)
    (hv : v.task? id = some ⟨id, s, limit⟩) (hs : s.closesPhysical = false)
    {u : World} {conn : Nat} (hu : u.begun = w.begun)
    (hbegin : v = (u.beginCall (.close conn)).2)
    (hflow : flow = .again (.giveBack (.discarding
      (u.beginCall (.close conn)).1)))
    (hf : Follows v ⟨id, s, limit⟩ flow w') : w.Shuts id conn w' := by
  subst hflow
  obtain ⟨hmem, halike⟩ := hf.of_again hv
  refine ⟨mem_closesBegun (by simp [Action.task?, ht, hs]) ?_, _, rfl, hmem⟩
  refine (congrArg Scene.begun halike.scene).trans ?_
  rw [hbegin, scene_beginCall]
  exact congrArg (conn :: ·) hu

/-- A return ends well that gives its slot back and rings the signal. -/
theorem endsReturn_of_finish {z : World} (hw' : w' = z.finish id .done)
    (hpos : 0 < w.pool.inFlight)
    (hslots : z.pool.inFlight = w.pool.inFlight - 1)
    (hsignal : z.signal = w.signal.ring.2) (hnow : z.now = w.now)
    (hroll : w.rollbacksBegun (.run id) w' = []) : w.EndsReturn id w' := by
  subst hw'
  refine ⟨?_, hsignal, hroll, congrArg (fun m => some (m, _)) hnow⟩
  show z.pool.inFlight + 1 = w.pool.inFlight
  omega

theorem begun_endLoan (w : World) (loan : Loan) (q : Pool) :
    (w.endLoan loan q).begun = w.begun := by
  simp [endLoan, begun, Event.begins?]

theorem begun_hearAnswer (w : World) {call : Call}
    (h : ∀ options, call ≠ .connect options) :
    (w.hearAnswer call).2.begun = w.begun :=
  congrArg Scene.begun (w.scene_hearAnswer h)

theorem mayKeep_iff {loan : Loan} {q : Pool} {rest : List Loan}
    (hq : q = { w.pool with active := rest }) :
    w.mayKeep loan q = true ↔ w.CanStore loan.entry.record ∧
      w.server.isClosed loan.entry.conn = false := by
  subst hq
  simp only [mayKeep, CanStore, Bool.and_eq_true, decide_eq_true_eq,
    Bool.not_eq_true']
  exact Iff.rfl

end Moves

end World

section Runs

variable {c : Config} {s : Server} {as later : List Action} {a : Action}
  {w w' : World} {id : Nat}

/-- A loan that is taken out under its lease is that loan. -/
theorem Run.takes_loan (h : Run c s as w) {loan l : Loan} {q : Pool}
    (hl : loan ∈ w.pool.active)
    (htake : w.pool.takeLoan? loan.lease = some (l, q)) :
    l = loan ∧ ∃ rest, q = { w.pool with active := rest } := by
  obtain ⟨hlease, rest, hperm, hq⟩ := Pool.takeLoan?_eq_some htake
  have hl' := hperm.subset List.mem_cons_self
  exact ⟨List.inj_on_of_nodup_map (leased_of_run h).leases hl' hl hlease,
    rest, hq⟩

/-- A return ends its loan, and then stores the connection, or begins to undo
what was not committed, or begins to close it. -/
theorem Run.startsBack (h : Run c s as w) {loan : Loan}
    (hmem : (id, .giveBack (.starting loan.lease)) ∈ w.roll)
    (hl : loan ∈ w.pool.active) (ha : w.act (.run id) = some w') :
    w.StartsBack id loan w' ∧ w'.pool.inFlight = w.pool.inFlight + 1 ∧
      w'.signal = w.signal := by
  have hd := World.distinct_of_run h
  obtain ⟨limit, flow, v, ht, hmove, hv, hf⟩ := World.act_roll hd hmem ha
  have hnil := World.rollbacksBegun_eq_nil hd ht rfl hmove ha rfl
  have hmoves := World.moves_of_eq hmove
  have hgo : ∀ {s'}, flow = .again s' → (id, s') ∈ w'.roll ∧
      World.Alike v w' ∧
        (s'.undoing? = none → w.rollbacksBegun (.run id) w' = []) := by
    rintro s' rfl
    refine ⟨(hf.of_again hv).1, (hf.of_again hv).2, fun hnone => hnil ?_⟩
    rintro s'' hs
    cases hs
    exact hnone
  generalize hstage : Stage.giveBack (.starting loan.lease) = st at hmoves
  cases hmoves with
  | tooLate hnone =>
    cases hstage
    exact absurd hnone (Pool.takeLoan?_ne_none hl)
  | turnAway htake hkeep =>
    cases hstage
    obtain ⟨rfl, rest, hq⟩ := h.takes_loan hl htake
    obtain ⟨-, halike, hroll⟩ := hgo rfl
    have hnot : ¬(w.CanStore _ ∧ w.server.isClosed _ = false) := fun hx =>
      Bool.eq_false_iff.1 hkeep ((World.mayKeep_iff hq).2 hx)
    refine ⟨.turnAway hnot (hroll rfl) ?_, ?_, ?_⟩
    · exact World.shuts_of_again ht hv rfl
        (World.begun_endLoan (w.pick id) ..) rfl rfl hf
    · rw [halike.pool, hq]
      rfl
    · rw [halike.signal]
      rfl
  | returnClean htake hkeep hauto =>
    cases hstage
    obtain ⟨rfl, rest, hq⟩ := h.takes_loan hl htake
    obtain ⟨hthere, halike, hroll⟩ := hgo rfl
    refine ⟨.clean ((World.mayKeep_iff hq).1 hkeep) hauto (hroll rfl) hthere,
      ?_, ?_⟩
    · rw [halike.pool, hq]
      rfl
    · rw [halike.signal]
      rfl
  | returnUndo htake hkeep hmanual =>
    cases hstage
    obtain ⟨rfl, rest, hq⟩ := h.takes_loan hl htake
    obtain ⟨hthere, halike, -⟩ := hgo rfl
    refine ⟨.undo ((World.mayKeep_iff hq).1 hkeep) hmanual ?_ hthere, ?_, ?_⟩
    · have hhistory : w'.history = [(w.now, .began (.rollback _)),
          (w.now, .returned _ _)] ++ w.history := halike.history
      exact World.rollbacksBegun_eq (by simp [Action.task?, ht, Stage.rollsBack]) hhistory
    · rw [halike.pool, hq]
      rfl
    · rw [halike.signal]
      rfl
  | awaits hcall =>
    cases hstage
    cases hcall
  | _ => cases hstage

/-- A return that has begun goes on waiting, or it goes on to what is next, or
it ends. -/
theorem Run.goesBack (h : Run c s as w) {g : Return}
    (hmem : (id, .giveBack g) ∈ w.roll) (hg : ∀ lease, g ≠ .starting lease)
    (ha : w.act (.run id) = some w') : w.GoesBack id w' g := by
  have hd := World.distinct_of_run h
  obtain ⟨limit, flow, v, ht, hmove, hv, hf⟩ := World.act_roll hd hmem ha
  have hnil := World.rollbacksBegun_eq_nil hd ht rfl hmove ha rfl
  have hfits := h.config_fits.2 _ (World.mem_of_task? ht)
  have hmoves := World.moves_of_eq hmove
  have hgo : ∀ {s'}, flow = .again s' → (id, s') ∈ w'.roll ∧
      World.Alike v w' ∧ (s'.undoing? = none → v.pool = w.pool →
        v.signal = w.signal → w.Calm id w') := by
    rintro s' rfl
    obtain ⟨hthere, halike⟩ := hf.of_again hv
    refine ⟨hthere, halike, fun hnone hpool hsignal => ⟨halike.pool.trans hpool,
      halike.signal.trans hsignal, hnil ?_⟩⟩
    rintro s'' hs
    cases hs
    exact hnone
  have hpos := inFlight_pos_of_run h (World.mem_of_task? ht)
  generalize hstage : Stage.giveBack g = st at hmoves
  cases hmoves with
  | tooLate | turnAway | returnClean | returnUndo =>
    cases hstage
    exact absurd rfl (hg _)
  | @returnUndone e call n hdue hok =>
    cases hstage
    obtain ⟨hthere, halike, hcalm⟩ := hgo rfl
    have hheard := World.hearAnswer_frame (w.pick id) call.call
    have hcall : call.call = .rollback e.conn := hfits
    refine .undone (hcalm rfl hheard.2.2.2.1 hheard.2.2.2.2.2.1)
      ⟨ha, hmem, ?_⟩ hthere
    rw [halike.history]
    rw [hcall] at hok ⊢
    rw [World.answered_rollback hok]
    rfl
  | @returnNotUndone e call message hdue herr =>
    cases hstage
    obtain ⟨-, -, hcalm⟩ := hgo rfl
    have hheard := World.hearAnswer_frame (w.pick id) call.call
    have hcall : call.call = .rollback e.conn := hfits
    refine .notUndone (hcalm rfl hheard.2.2.2.1 hheard.2.2.2.2.2.1) ?_
    refine World.shuts_of_again ht hv rfl
      (World.begun_hearAnswer (w.pick id) ?_) rfl rfl hf
    exact fun _ he => by cases hcall.symm.trans he
  | @store e p hstore =>
    cases hstage
    obtain ⟨hroom, hcurrent, rfl⟩ := Pool.store?_eq_some hstore
    have hrung := World.ring_frame { w.pick id with
      pool := { w.pool.free with idle := e :: w.pool.idle } }
    refine .store ⟨hcurrent, hroom⟩ ?_ ?_
    · rw [hf.eq_finish]
      exact congrArg Pool.idle hrung.2.2.1
    · refine World.endsReturn_of_finish hf.eq_finish (hpos rfl)
        (congrArg Pool.inFlight hrung.2.2.1) hrung.2.2.2.2.1
        hrung.2.2.2.2.2.1 (hnil fun s' hs => ?_)
      cases hs
  | noRoom hstore =>
    cases hstage
    obtain ⟨-, -, hcalm⟩ := hgo rfl
    refine .noRoom (hcalm rfl rfl rfl) ?_ ?_
    · rintro ⟨hcurrent, hroom⟩
      have hroom : (w.pick id).pool.idle.length <
        (w.pick id).config.maxIdle := hroom
      have hcurrent : (w.pick id).pool.isCurrent _ = true := hcurrent
      rw [Pool.store?, hcurrent, decide_eq_true hroom] at hstore
      cases hstore
    · exact World.shuts_of_again (u := w.pick id) ht hv rfl rfl rfl
        rfl hf
  | @returnDiscarded call hdue =>
    cases hstage
    have hheard := World.hearAnswer_frame (w.pick id) call.call
    have hfree := World.freeSlot_frame ((w.pick id).hearAnswer call.call).2
    have hpool : ((w.pick id).hearAnswer call.call).2.freeSlot.pool =
        w.pool.free := hfree.2.2.1.trans (congrArg Pool.free hheard.2.2.2.1)
    have hidle : ((w.pick id).hearAnswer call.call).2.freeSlot.pool.idle =
        w.pool.idle := by rw [hpool, Pool.free]
    refine .closed hdue ?_ ?_
    · rw [hf.eq_finish]
      exact hidle
    · refine World.endsReturn_of_finish hf.eq_finish (hpos rfl)
        (congrArg Pool.inFlight hpool) ?_ ?_ (hnil fun s' hs => ?_)
      · rw [hfree.2.2.2.2.1, hheard.2.2.2.2.2.1]
        rfl
      · exact hfree.2.2.2.2.2.1.trans hheard.2.2.2.2.2.2.1
      · cases hs
  | awaits hcall hnot =>
    cases hf with
    | waits hwaits hz =>
      cases hwaits
      obtain ⟨limit, hthere⟩ := hz.task
      refine .waits ⟨hz.pool, hz.signal, hnil fun s' hs => ?_⟩
        (hstage ▸ World.mem_roll_of_task? hthere) ?_
      · cases hs
      · rintro e rfl
        cases hstage
        cases hcall
    | cutOff => exact .cutOff List.mem_cons_self
  | _ => cases hstage

/-! ## How a task is over -/

/-- How it is told that a task is over: it has ended, or has come to wait and
is dropped because of its limit, or it is dropped. -/
theorem World.Tells.over {e : Event} (h : w.Tells a e)
    (he : e.over? = some id) :
    (a = .run id ∧ ∃ t flow v, w.task? id = some t ∧
      (w.pick id).resume id t.stage = (flow, v) ∧
        ((∃ o, flow = .finish o ∧ e = .ended id o) ∨
          (∃ st, flow.waits? = some st) ∧ e = .ended id .cancelled)) ∨
      (∃ outside, a = .cancel outside id) ∧ e = .dropped id := by
  cases h with
  | writes _ _ hw => cases hw.1.symm.trans he
  | abandoned => cases he
  | ended ht hmove =>
    cases he
    exact .inl ⟨rfl, _, _, _, ht, hmove, .inl ⟨_, rfl, rfl⟩⟩
  | cutOff ht hmove hwaits =>
    cases he
    exact .inl ⟨rfl, _, _, _, ht, hmove, .inr ⟨⟨_, hwaits⟩, rfl⟩⟩
  | @dropped t outside ht =>
    cases he
    exact .inr ⟨⟨outside, rfl⟩, rfl⟩

/-- There are no two ways in which a task is over. -/
theorem Run.over_unique (h : Run c s as w) {m m' : Nat} {e e' : Event}
    (he : (m, e) ∈ w.history) (he' : (m', e') ∈ w.history)
    (ho : e.over? = some id) (ho' : e'.over? = some id) : e = e' := by
  induction h with
  | new hs hw =>
    obtain ⟨-, -, rfl⟩ := Run.new_iff.1 (.new hs hw)
    cases he
  | @act as a w w' h ha ih =>
    have hlate : ∀ {m : Nat} {e e' : Event}, (m, e) ∈ w.history →
        w.Tells a e' → e.over? = some id → e'.over? = some id → False := by
      intro m e e' hold htells ho ho'
      have hover := h.is_over hold ho
      rcases htells.over ho' with ⟨-, t, -, -, ht, -⟩ | ⟨⟨outside, rfl⟩, -⟩
      · exact hover.2 _ (World.mem_roll_of_task? ht) rfl
      · simp only [World.act] at ha
        split at ha
        · cases ha
        · rename_i t ht
          exact hover.2 _ (World.mem_roll_of_task? ht) rfl
    rcases h.tells ha he with hold | ⟨-, htells⟩
    · rcases h.tells ha he' with hold' | ⟨-, htells'⟩
      · exact ih hold hold'
      · exact (hlate hold htells' ho ho').elim
    · rcases h.tells ha he' with hold' | ⟨-, htells'⟩
      · exact (hlate hold' htells ho' ho).elim
      · rcases htells.over ho with ⟨hrun, t, flow, v, ht, hmove, hway⟩ |
          ⟨⟨outside, hcancel⟩, rfl⟩
        · rcases htells'.over ho' with ⟨-, t', flow', v', ht', hmove', hway'⟩ |
            ⟨⟨outside, hcancel⟩, -⟩
          · cases ht.symm.trans ht'
            obtain rfl := (Prod.mk.inj (hmove.symm.trans hmove')).1
            obtain ⟨o, rfl, rfl⟩ | ⟨⟨st, hwaits⟩, rfl⟩ := hway
            · obtain ⟨o', hflow, rfl⟩ | ⟨⟨st, hwaits⟩, -⟩ := hway'
              · cases hflow
                rfl
              · cases hwaits
            · obtain ⟨o', rfl, -⟩ | ⟨-, rfl⟩ := hway'
              · cases hwaits
              · rfl
          · cases hrun.symm.trans hcancel
        · rcases htells'.over ho' with ⟨hrun, -⟩ | ⟨-, rfl⟩
          · cases hcancel.symm.trans hrun
          · rfl

end Runs

/-! ## One return through a run -/

section Returns

variable {c : Config} {s : Server} {as later : List Action} {a : Action}
  {v w w' u u' : World} {id : Nat} {loan : Loan}

theorem DoneIn.cons (h : DoneIn c s as later id u u') (a : Action) :
    DoneIn c s as (a :: later) id u u' := by
  obtain ⟨before, after, rfl, hu⟩ := h
  exact ⟨before, a :: after, rfl, hu⟩

/-- What a task has done with one more action, it had done before, or it does
it with this one. -/
theorem Run.doneIn_cons (h : Run c s (later ++ as) w)
    (hdone : DoneIn c s as (a :: later) id u u') :
    DoneIn c s as later id u u' ∨
      a = .run id ∧ u = w ∧ w.act (.run id) = some u' := by
  obtain ⟨before, after, heq, hu, ha⟩ := hdone
  cases after with
  | nil =>
    obtain ⟨rfl, rfl⟩ := List.cons.inj heq
    obtain rfl := h.unique hu
    exact .inr ⟨rfl, rfl, ha⟩
  | cons b after =>
    obtain ⟨rfl, rfl⟩ := List.cons.inj heq
    exact .inl ⟨before, after, rfl, hu, ha⟩

/-- When a return begins, its connection may be kept: it is current, there is
room for it, and it is open. -/
def World.MayStay (w : World) (loan : Loan) : Prop :=
  w.CanStore loan.entry.record ∧ w.server.isClosed loan.entry.conn = false

/-- In a run of some actions after others, the return has heard that its
rollback went well. -/
def HeardUndone (c : Config) (s : Server) (as later : List Action)
    (id conn : Nat) : Prop :=
  ∃ u u' e call, DoneIn c s as later id u u' ∧
    u.EndsUndo id (.giveBack (.undoing e call)) conn u'

/-- In a run of some actions after others, the return came to store the
connection when that was possible. -/
def CouldStore (c : Config) (s : Server) (as later : List Action) (id : Nat)
    (e : Entry) : Prop :=
  ∃ u u', DoneIn c s as later id u u' ∧ (id, .giveBack (.storing e)) ∈ u.roll ∧
    u.CanStore e.record

/-- The return has left the pool alone so far. -/
def LeftAlone (c : Config) (s : Server) (as later : List Action) (id : Nat) :
    Prop :=
  ∀ u u', DoneIn c s as later id u u' → u.Calm id u' ∧
    ∀ e, (id, .giveBack (.storing e)) ∈ u.roll → ¬u.CanStore e.record

/-- What was not committed has been dealt with: there was nothing of that, or
it has been undone. -/
def Settled (c : Config) (s : Server) (as later : List Action) (v : World)
    (id conn : Nat) : Prop :=
  v.server.isAutoCommit conn = true ∨ HeardUndone c s as later id conn

/-- The return has come to its end, with the last action between two worlds. -/
inductive Finishes (c : Config) (s : Server) (as later : List Action)
    (v : World) (id : Nat) (loan : Loan) (u u' : World) : Prop where
  | kept (hkeep : v.MayStay loan)
      (hsettled : Settled c s as later v id loan.entry.conn)
      (hmem : (id, .giveBack (.storing (v.backEntry loan))) ∈ u.roll)
      (hcan : u.CanStore loan.entry.record)
      (hidle : u'.pool.idle = v.backEntry loan :: u.pool.idle) :
      Finishes c s as later v id loan u u'
  | closed {call : Pending}
      (hmem : (id, .giveBack (.discarding call)) ∈ u.roll)
      (hcall : call.call = .close loan.entry.conn)
      (hdue : u.isDue call.timer = true)
      (hbegun : loan.entry.conn ∈ (World.new c s).closesBegunIn (later ++ as))
      (hidle : u'.pool.idle = u.pool.idle) : Finishes c s as later v id loan u u'

/-- Where a return stands that began after some actions, `as`, in the world
`v`, when later actions have led to the world `w`. -/
inductive Course (c : Config) (s : Server) (as later : List Action)
    (v : World) (id : Nat) (loan : Loan) (w : World) : Prop where
  | undoing {call : Pending} (hquiet : LeftAlone c s as later id)
      (hkeep : v.MayStay loan)
      (hmem : (id, .giveBack (.undoing (v.backEntry loan) call)) ∈ w.roll) :
      Course c s as later v id loan w
  | storing (hquiet : LeftAlone c s as later id) (hkeep : v.MayStay loan)
      (hsettled : Settled c s as later v id loan.entry.conn)
      (hmem : (id, .giveBack (.storing (v.backEntry loan))) ∈ w.roll) :
      Course c s as later v id loan w
  | shut {call : Pending} (hquiet : LeftAlone c s as later id)
      (hcall : call.call = .close loan.entry.conn)
      (hbegun : loan.entry.conn ∈ (World.new c s).closesBegunIn (later ++ as))
      (hmem : (id, .giveBack (.discarding call)) ∈ w.roll) :
      Course c s as later v id loan w
  | finished {between after : List Action} {u u' : World}
      (hlater : later = after ++ .run id :: between)
      (hu : Run c s (between ++ as) u) (hact : u.act (.run id) = some u')
      (hquiet : LeftAlone c s as between id) (hends : u.EndsReturn id u')
      (hfinish : Finishes c s as between v id loan u u')
      (hended : (u.now, .ended id .done) ∈ w.history) :
      Course c s as later v id loan w
  | dropped {m : Nat} {e : Event} (hmem : (m, e) ∈ w.history)
      (hover : e.over? = some id) (hcut : ∀ o, e = .ended id o → o = .cancelled) :
      Course c s as later v id loan w

theorem HeardUndone.cons {conn : Nat} (h : HeardUndone c s as later id conn)
    (a : Action) : HeardUndone c s as (a :: later) id conn := by
  obtain ⟨u, u', e, call, hdone, hends⟩ := h
  exact ⟨u, u', e, call, hdone.cons a, hends⟩

theorem Settled.cons {conn : Nat} (h : Settled c s as later v id conn)
    (a : Action) : Settled c s as (a :: later) v id conn :=
  h.imp_right (·.cons a)

/-- A return stays quiet when others act. -/
theorem LeftAlone.others (hq : LeftAlone c s as later id)
    (h : Run c s (later ++ as) w) (hne : a ≠ .run id) :
    LeftAlone c s as (a :: later) id := by
  intro u u' hdone
  rcases h.doneIn_cons hdone with hdone | ⟨ha, -⟩
  · exact hq u u' hdone
  · exact absurd ha hne

/-- A return stays quiet when it does what leaves the pool alone. -/
theorem LeftAlone.calm (hq : LeftAlone c s as later id)
    (h : Run c s (later ++ as) w) (ha : w.act (.run id) = some w')
    (hcalm : w.Calm id w') (hnot : ∀ e,
      (id, .giveBack (.storing e)) ∈ w.roll → ¬w.CanStore e.record) :
    LeftAlone c s as (.run id :: later) id := by
  intro u u' hdone
  rcases h.doneIn_cons hdone with hdone | ⟨-, rfl, ha'⟩
  · exact hq u u' hdone
  · obtain rfl := Option.some.inj (ha.symm.trans ha')
    exact ⟨hcalm, hnot⟩

/-- A return that has begun goes on by itself only. -/
theorem Course.own (hi : Course c s as later v id loan w)
    (h : Run c s (later ++ as) w) (ha : w.act (.run id) = some w') :
    Course c s as (.run id :: later) v id loan w' := by
  have hd := World.distinct_of_run h
  have hclose : ∀ {conn : Nat}, conn ∈ w.closesBegun (.run id) w' →
      conn ∈ (World.new c s).closesBegunIn (.run id :: later ++ as) := by
    intro conn hmem
    rw [World.closesBegunIn, List.cons_append, h.along_cons _ ha]
    exact List.mem_append_left _ hmem
  have hpast : ∀ {conn : Nat},
      conn ∈ (World.new c s).closesBegunIn (later ++ as) →
      conn ∈ (World.new c s).closesBegunIn (.run id :: later ++ as) := by
    intro conn hmem
    rw [World.closesBegunIn, List.cons_append, h.along_cons _ ha]
    exact List.mem_append_right _ hmem
  have hcut : ∀ {m : Nat}, (m, .ended id .cancelled) ∈ w'.history →
      Course c s as (.run id :: later) v id loan w' := fun hmem =>
    .dropped hmem rfl fun _ he => (Event.ended.inj he).2.symm
  have hnot : ∀ {g : Return}, (id, .giveBack g) ∈ w.roll →
      (∀ e, g ≠ .storing e) → ∀ e, (id, .giveBack (.storing e)) ∈ w.roll →
        ¬w.CanStore e.record := by
    intro g hmem hg e hstoring
    exact absurd (Stage.giveBack.inj (hd.stage_unique hmem hstoring)) (hg e)
  cases hi with
  | @undoing call hquiet hkeep hmem =>
    have hgo := h.goesBack hmem (fun _ he => by cases he) ha
    have hnot := hnot hmem fun _ he => by cases he
    cases hgo with
    | waits hcalm hmem' => exact .undoing (hquiet.calm h ha hcalm hnot) hkeep hmem'
    | undone hcalm hends hmem' =>
      refine .storing (hquiet.calm h ha hcalm hnot) hkeep (.inr ?_) hmem'
      exact ⟨w, w', _, _, ⟨later, [], rfl, h, ha⟩, hends⟩
    | notUndone hcalm hshuts =>
      obtain ⟨call, hcall, hmem'⟩ := hshuts.stage
      exact .shut (hquiet.calm h ha hcalm hnot) hcall (hclose hshuts.begun) hmem'
    | cutOff hmem' => exact hcut hmem'
  | storing hquiet hkeep hsettled hmem =>
    have hgo := h.goesBack hmem (fun _ he => by cases he) ha
    cases hgo with
    | waits _ _ hstore => exact absurd rfl (hstore _)
    | noRoom hcalm hfull hshuts =>
      obtain ⟨call, hcall, hmem'⟩ := hshuts.stage
      refine .shut (hquiet.calm h ha hcalm fun e hstoring => ?_) hcall
        (hclose hshuts.begun) hmem'
      cases hd.stage_unique hmem hstoring
      exact hfull
    | store hcan hidle hends =>
      exact .finished (List.nil_append _).symm h ha hquiet hends
        (.kept hkeep hsettled hmem hcan hidle)
        (List.mem_of_mem_head? hends.ended)
    | cutOff hmem' => exact hcut hmem'
  | shut hquiet hcall hbegun hmem =>
    have hgo := h.goesBack hmem (fun _ he => by cases he) ha
    cases hgo with
    | waits hcalm hmem' =>
      exact .shut (hquiet.calm h ha hcalm (hnot hmem fun _ he => by cases he))
        hcall (hpast hbegun) hmem'
    | closed hdue hidle hends =>
      exact .finished (List.nil_append _).symm h ha hquiet hends
        (.closed hmem hcall hdue hbegun hidle)
        (List.mem_of_mem_head? hends.ended)
    | cutOff hmem' => exact hcut hmem'
  | @finished between after u u' hlater hu hact hquiet hends hfinish hended =>
    have hlater' : Action.run id :: later =
        (.run id :: after) ++ .run id :: between := congrArg _ hlater
    exact .finished hlater' hu hact hquiet hends hfinish (h.history_act ha hended)
  | dropped hmem hover hcut => exact .dropped (h.history_act ha hmem) hover hcut

/-- What others do does not change the course of a return, unless it is
dropped. -/
theorem Course.act (hi : Course c s as later v id loan w)
    (h : Run c s (later ++ as) w) (ha : w.act a = some w') :
    Course c s as (a :: later) v id loan w' := by
  by_cases hrun : a = .run id
  · subst hrun
    exact hi.own h ha
  have hpast : ∀ {conn : Nat},
      conn ∈ (World.new c s).closesBegunIn (later ++ as) →
      conn ∈ (World.new c s).closesBegunIn (a :: later ++ as) := by
    intro conn hmem
    rw [World.closesBegunIn, List.cons_append, h.along_cons _ ha]
    exact List.mem_append_right _ hmem
  have hstays : ∀ {st : Stage}, (id, st) ∈ w.roll →
      (id, st) ∈ w'.roll ∨ Course c s as (a :: later) v id loan w' := by
    intro st hmem
    by_cases hid : a.task? = some id
    · obtain ⟨outside, rfl⟩ := (Action.eq_of_task? hid).resolve_left hrun
      refine .inr ?_
      obtain ⟨t, ht, rfl⟩ := (World.distinct_of_run h).task?_of_roll hmem
      cases World.acts (World.distinct_of_run h) ha with
      | cancel _ hu =>
        exact .dropped List.mem_cons_self rfl fun _ he => by cases he
    · exact .inl ((h.happens ha).remains hmem hid)
  cases hi with
  | undoing hquiet hkeep hmem =>
    rcases hstays hmem with hmem' | hi
    · exact .undoing (hquiet.others h hrun) hkeep hmem'
    · exact hi
  | storing hquiet hkeep hsettled hmem =>
    rcases hstays hmem with hmem' | hi
    · exact .storing (hquiet.others h hrun) hkeep (hsettled.cons a) hmem'
    · exact hi
  | shut hquiet hcall hbegun hmem =>
    rcases hstays hmem with hmem' | hi
    · exact .shut (hquiet.others h hrun) hcall (hpast hbegun) hmem'
    · exact hi
  | @finished between after u u' hlater hu hact hquiet hends hfinish hended =>
    have hlater' : a :: later = (a :: after) ++ .run id :: between :=
      congrArg _ hlater
    exact .finished hlater' hu hact hquiet hends hfinish (h.history_act ha hended)
  | dropped hmem hover hcut => exact .dropped (h.history_act ha hmem) hover hcut

/-- A return takes its course from its first action on. -/
theorem Course.start (h : Run c s as v)
    (hmem : (id, .giveBack (.starting loan.lease)) ∈ v.roll)
    (hl : loan ∈ v.pool.active) (ha : v.act (.run id) = some w) :
    Course c s (.run id :: as) [] v id loan w := by
  have hquiet : LeftAlone c s (.run id :: as) [] id := by
    rintro u u' ⟨before, after, heq, -⟩
    cases after <;> cases heq
  cases (h.startsBack hmem hl ha).1 with
  | turnAway _ _ hshuts =>
    obtain ⟨call, hcall, hmem'⟩ := hshuts.stage
    refine .shut hquiet hcall ?_ hmem'
    rw [List.nil_append, World.closesBegunIn, h.along_cons _ ha]
    exact List.mem_append_left _ hshuts.begun
  | clean hkeep hauto _ hmem' => exact .storing hquiet hkeep (.inl hauto) hmem'
  | undo hkeep _ _ hmem' => exact .undoing hquiet hkeep hmem'

theorem Run.course (h : Run c s as v)
    (hmem : (id, .giveBack (.starting loan.lease)) ∈ v.roll)
    (hl : loan ∈ v.pool.active) (ha : v.act (.run id) = some v')
    (h' : Run c s (later ++ .run id :: as) w) :
    Course c s (.run id :: as) later v id loan w := by
  induction later generalizing w with
  | nil =>
    cases (h.act ha).unique h'
    exact Course.start h hmem hl ha
  | cons a later ih =>
    cases h' with
    | act h' ha' => exact (ih h').act h' ha'

/-! ## The two ways in which a return ends -/

/-- With an action, the pool has kept the connection as the next one to be used
again, and has not begun to close it before. -/
structure KeptLast (c : Config) (s : Server) (as : List Action) (e : Entry)
    (u u' : World) : Prop where
  idle : u'.pool.idle = e :: u.pool.idle
  unclosed : e.conn ∉ (World.new c s).closesBegunIn as

/-- The pool has called for the connection to be closed once.  With an action,
a task has heard the answer, and the connection is gone for good: the pool does
not have it, and it is never lent again. -/
structure ClosedOnce (c : Config) (s : Server) (as : List Action)
    (id conn : Nat) (u u' : World) : Prop where
  idle : u'.pool.idle = u.pool.idle
  once : ((World.new c s).closesBegunIn as).count conn = 1
  heard : ∃ call, (id, .giveBack (.discarding call)) ∈ u.roll ∧
    call.call = .close conn ∧ u.isDue call.timer = true
  gone : ∀ later w, Run c s (later ++ as) w → w.presence conn = 0 ∧
    ∀ lease x, u'.handles.length ≤ lease → w.handles[lease]? = some x →
      x.conn ≠ conn

theorem Run.presence_eq_zero {conn : Nat} (h : Run c s as w)
    (hd : Discarded c s as w conn) : w.presence conn = 0 := by
  rw [w.presence_eq]
  exact (spread_of_run h).count_eq_zero (discarded_iff.1 hd)

/-- A connection that is kept is not one that the pool has begun to close. -/
theorem Run.not_begun_of_idle (h : Run c s as w) {e : Entry}
    (he : e ∈ w.pool.idle) : e.conn ∉ (World.new c s).closesBegunIn as := by
  intro hmem
  have hzero := h.presence_eq_zero (.inl hmem)
  have hpos : 0 < (w.pool.idle.map (·.conn)).count e.conn :=
    List.count_pos_iff.2 (List.mem_map_of_mem he)
  unfold World.presence at hzero
  omega

/-- The pool does not begin to close a connection twice. -/
theorem Run.count_begun {conn : Nat} (h : Run c s as w)
    (hmem : conn ∈ (World.new c s).closesBegunIn as) :
    ((World.new c s).closesBegunIn as).count conn = 1 := by
  have hcount := (spread_of_run h).count_eq conn
  have hone := List.nodup_iff_count_le_one.1
    (List.nodup_range (n := w.scene.total)) conn
  have hpos := List.count_pos_iff.2 hmem
  omega

/-- A connection comes back whose loan has not ended.  When its return runs to
its end and is not dropped before, it ends well, and in one of two ways: the
connection is kept as the next one to be used again, or it is closed once and
gone.  It is kept if and only if, at the start, it was current and open and
there was room for it, and what was not committed was undone, and, when it came
to be stored, it was current still and there was room for it.  A rollback
begins at the start, exactly if the connection may be kept and does not commit
by itself.  Either way the return takes one slot at the start, leaves the pool
and the release signal alone until its last action, and with that one gives the
slot back and rings the signal once. -/
theorem one_outcome_of_run (h : Run c s as v)
    (hmem : (id, .giveBack (.starting loan.lease)) ∈ v.roll)
    (hl : loan ∈ v.pool.active) (ha : v.act (.run id) = some v')
    (h' : Run c s (later ++ .run id :: as) w) {m : Nat} {o : Outcome}
    (hended : (m, .ended id o) ∈ w.history) (ho : o ≠ .cancelled) :
    o = .done ∧
    ((v.MayStay loan ∧ v.server.isAutoCommit loan.entry.conn = false ∧
        v.rollbacksBegun (.run id) v' = [loan.entry.conn]) ∨
      ¬(v.MayStay loan ∧ v.server.isAutoCommit loan.entry.conn = false) ∧
        v.rollbacksBegun (.run id) v' = []) ∧
    v'.pool.inFlight = v.pool.inFlight + 1 ∧ v'.signal = v.signal ∧
    ∃ between after u u', later = after ++ .run id :: between ∧
      Run c s (between ++ .run id :: as) u ∧ u.act (.run id) = some u' ∧
      (∀ z z', DoneIn c s (.run id :: as) between id z z' → z.Calm id z') ∧
      u.EndsReturn id u' ∧
      (KeptLast c s (.run id :: (between ++ .run id :: as))
          (v.backEntry loan) u u' ∨
        ClosedOnce c s (.run id :: (between ++ .run id :: as)) id
          loan.entry.conn u u') ∧
      (u'.pool.idle = v.backEntry loan :: u.pool.idle ↔
        v.MayStay loan ∧
        (v.server.isAutoCommit loan.entry.conn = true ∨
          HeardUndone c s (.run id :: as) between id loan.entry.conn) ∧
        CouldStore c s (.run id :: as) (.run id :: between) id
          (v.backEntry loan)) := by
  have hlate : ∀ {m : Nat} {e : Event}, (m, e) ∈ w.history →
      e.over? = some id → e = .ended id o := fun hmem hover =>
    h'.over_unique hmem hended hover rfl
  have hgone : ∀ {st : Stage}, (id, st) ∉ w.roll := fun hmem =>
    (h'.is_over hended rfl).2 _ hmem rfl
  obtain ⟨hstart, hslot, hsignal⟩ := h.startsBack hmem hl ha
  have hroll : (v.MayStay loan ∧
      v.server.isAutoCommit loan.entry.conn = false ∧
        v.rollbacksBegun (.run id) v' = [loan.entry.conn]) ∨
      ¬(v.MayStay loan ∧ v.server.isAutoCommit loan.entry.conn = false) ∧
        v.rollbacksBegun (.run id) v' = [] := by
    cases hstart with
    | turnAway hnot hnil => exact .inr ⟨fun hx => hnot hx.1, hnil⟩
    | clean _ hauto hnil =>
      exact .inr ⟨fun hx => Bool.noConfusion (hauto.symm.trans hx.2), hnil⟩
    | undo hkeep hmanual hone => exact .inl ⟨hkeep, hmanual, hone⟩
  cases h.course hmem hl ha h' with
  | undoing _ _ hmem' => exact absurd hmem' hgone
  | storing _ _ _ hmem' => exact absurd hmem' hgone
  | shut _ _ _ hmem' => exact absurd hmem' hgone
  | dropped hmem' hover hcut => exact absurd (hcut o (hlate hmem' hover)) ho
  | @finished between after u u' hlater hu hact hquiet hends hfinish hdone =>
    obtain rfl := (Event.ended.inj (hlate hdone rfl)).2
    refine ⟨rfl, hroll, hslot, hsignal, between, after, u, u', hlater, hu, hact,
      fun z z' hz => (hquiet z z' hz).1, hends, ?_, ?_⟩
    · cases hfinish with
      | kept _ _ _ _ hidle =>
        refine .inl ⟨hidle, (hu.act hact).not_begun_of_idle (e := v.backEntry loan) ?_⟩
        rw [hidle]
        exact List.mem_cons_self
      | @closed call hmem' hcall hdue hbegun hidle =>
        have hbegun' : loan.entry.conn ∈ (World.new c s).closesBegunIn
            (.run id :: (between ++ .run id :: as)) := by
          rw [World.closesBegunIn, hu.along_cons _ hact]
          exact List.mem_append_right _ hbegun
        refine .inr ⟨hidle, (hu.act hact).count_begun hbegun',
          ⟨call, hmem', hcall, hdue⟩, fun more z hz => ?_⟩
        obtain ⟨hdiscarded, hlent⟩ :=
          (hu.act hact).never_again (.inl hbegun') hz
        exact ⟨hz.presence_eq_zero hdiscarded, hlent⟩
    · cases hfinish with
      | kept hkeep hsettled hmem' hcan hidle =>
        refine ⟨fun _ => ⟨hkeep, hsettled, u, u', ?_, hmem', hcan⟩,
          fun _ => hidle⟩
        exact ⟨between, [], rfl, hu, hact⟩
      | closed hmem' _ _ _ hidle =>
        constructor
        · intro heq
          rw [hidle] at heq
          exact absurd heq (List.ne_cons_self)
        · rintro ⟨-, -, z, z', hz, hstoring, hcan⟩
          rcases hu.doneIn_cons hz with hz | ⟨-, rfl, -⟩
          · exact absurd hcan ((hquiet z z' hz).2 _ hstoring)
          · cases (World.distinct_of_run hu).stage_unique hmem' hstoring

end Returns

/-- Two connections are lent, and one is kept. -/
def oneKept : Config := { maxActive := 2, maxIdle := 1 }

/-- The server takes a while to undo what was not committed. -/
def lateRollbacks : Server :=
  { rollback := { delay := 100, message := "rollback failed" } }

/-- Two connections are lent.  The first one has something to be undone, and
its return is about to begin. -/
def beforeReturn : List Action :=
  [.run 2, .start (.close 0) none, .markManual 0 true,
    .run 1, .run 1, .run 1, .run 1, .run 1, .start .acquire none,
    .run 0, .run 0, .run 0, .run 0, .run 0, .start .acquire none]

/-- While the first connection is being undone, the second one is kept. -/
def overtaken : List Action :=
  [.run 2, .run 2, .run 2, .advance (Time.ofMillis 100),
    .run 3, .run 3, .run 3, .start (.close 1) none, .run 2]

/-- The loan that ends. -/
def firstLoan : Loan := ⟨⟨0, (Record.fresh 1 "db" 0 0).lend 0⟩, 0⟩

/-- The first connection could be kept when its return began, but in the end
there is no room for it, and so it is closed. -/
theorem one_outcome_overtaken :
    ∃ v w, Run oneKept lateRollbacks beforeReturn v ∧
      Run oneKept lateRollbacks (overtaken ++ .run 2 :: beforeReturn) w ∧
      v.MayStay firstLoan ∧ (w.now, .ended 2 .done) ∈ w.history ∧
      ∃ between after u u', overtaken = after ++ .run 2 :: between ∧
        ClosedOnce oneKept lateRollbacks
          (.run 2 :: (between ++ .run 2 :: beforeReturn)) 2 0 u u' := by
  have hv : ∃ v, Run oneKept lateRollbacks beforeReturn v ∧
      ((2, .giveBack (.starting 0)) ∈ v.roll ∧ firstLoan ∈ v.pool.active) ∧
      (v.pool.isCurrent firstLoan.entry.record = true ∧
        v.pool.idle.length < v.config.maxIdle) ∧
        v.server.isClosed firstLoan.entry.conn = false :=
    Run.exists_of_replay rfl rfl (by decide +kernel)
  have hw : ∃ w, Run oneKept lateRollbacks
      (overtaken ++ .run 2 :: beforeReturn) w ∧
      (w.now, .ended 2 .done) ∈ w.history :=
    Run.exists_of_replay rfl rfl (by decide +kernel)
  have hstart : ∃ v', Run oneKept lateRollbacks (.run 2 :: beforeReturn) v' ∧
      True := Run.exists_of_replay rfl rfl (by decide +kernel)
  have hnever : ∀ n ≤ overtaken.length, ((World.new oneKept lateRollbacks).replay
      (overtaken.drop n ++ .run 2 :: beforeReturn)).any
        (fun x => decide (x.pool.idle.head?.map (·.conn) ≠ some 0)) = true := by
    decide +kernel
  obtain ⟨v, h, ⟨hmem, hl⟩, hkeep⟩ := hv
  obtain ⟨w, h', hended⟩ := hw
  obtain ⟨v', hv', -⟩ := hstart
  cases hv' with
  | act hv ha =>
    obtain rfl := h.unique hv
    have hmem : (2, .giveBack (.starting firstLoan.lease)) ∈ v.roll := hmem
    obtain ⟨-, -, -, -, between, after, u, u', heq, hu, hact, -, -, hway, -⟩ :=
      one_outcome_of_run h hmem hl ha h' hended fun ho => by cases ho
    refine ⟨v, w, h, h', hkeep, hended, between, after, u, u', heq, ?_⟩
    refine hway.resolve_left fun hkept => ?_
    have hdrop : overtaken.drop after.length = .run 2 :: between := by
      rw [heq, List.drop_left]
    have hle : after.length ≤ overtaken.length := by
      rw [heq, List.length_append]
      omega
    obtain ⟨x, hx, hne⟩ := Run.exists_of_replay rfl rfl (hnever _ hle)
    rw [hdrop] at hx
    obtain rfl := hx.unique (hu.act hact)
    rw [hkept.idle] at hne
    exact hne rfl

end DatabasePool
