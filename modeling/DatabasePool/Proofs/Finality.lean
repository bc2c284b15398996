import DatabasePool.Proofs.Leases
import DatabasePool.Proofs.Release

/-!
# The end of a pool

Once a pool has ended it stays so.  It has nothing, and it gets nothing any
more: whatever is under way finds out that the pool has ended before it could
keep or lend a connection.  Requests that waited for a release when the pool
ended fail at that very moment, and so do all requests from then on.  The task
that ended the pool closes all that the pool had.

* `down_upheld` says that the pool stays as it was left.
* `Run.ending` says what ends a pool, and what comes of it.
* `Fails.act` and `Roused.act` say that requests fail at once.
* `final_of_run` puts the end of a pool together.
-/

namespace DatabasePool

/-! ## A pool that has ended -/

/-- The pool has ended and has nothing. -/
structure Pool.IsDown (p : Pool) : Prop where
  shutDown : p.shutDown = true
  idle : p.idle = []
  active : p.active = []

theorem Pool.isCurrent_of_down {p : Pool} (h : p.shutDown = true)
    (r : Record String) : p.isCurrent r = false := by
  simp [isCurrent, h]

/-- Only a task that is to end the pool does so. -/
theorem Does.down {c : Config} {V V' : Scene} {s : Stage} {flow : Flow}
    {closes : List Nat} (h : Does c V s flow closes V')
    (hup : V.pool.shutDown = false) (hdown : V'.pool.shutDown = true) :
    s = .start .shutDown := by
  cases h with
  | shutDown => rfl
  | _ => cases hup.symm.trans hdown

theorem Happens.down {c : Config} {w w' : World} {a : Action}
    {closes : List Nat} (h : Happens c w w' a closes)
    (hup : w.pool.shutDown = false) (hdown : w'.pool.shutDown = true) :
    ∃ id, a = .run id ∧ (id, .start .shutDown) ∈ w.roll := by
  cases h.changes with
  | deed hmem hdoes hkeeps =>
    obtain rfl := hdoes.down hup (hkeeps.shutDown.symm.trans hdown)
    exact ⟨_, rfl, hmem⟩
  | forget hpool =>
    cases hup.symm.trans ((congrArg Pool.shutDown hpool).symm.trans hdown)
  | same hkeeps => cases hup.symm.trans (hkeeps.shutDown.symm.trans hdown)

/-! ## Requests that fail -/

namespace World

/-- The request fails at the moment because the pool has ended: it has failed,
or it looks at the pool right now. -/
def Fails (w : World) (id moment : Nat) : Prop :=
  (moment, .ended id (.failed .shutDown)) ∈ w.history ∨
    w.now = moment ∧ w.atRest = false ∧ ∃ r, (id, .acquire r .looking) ∈ w.roll

/-- The request is roused at the moment because the pool has ended, and it
fails unless it is dropped before. -/
def Roused (w : World) (id moment : Nat) : Prop :=
  w.Fails id moment ∨ (moment, .dropped id) ∈ w.history ∨
    w.now = moment ∧ w.atRest = false ∧ id ∉ w.signal.waiting ∧
      ∃ r since alarm, (id, .acquire r (.waiting since alarm)) ∈ w.roll

end World

section Runs

variable {c : Config} {s : Server} {as later : List Action} {a : Action}
  {v w w' : World} {id moment : Nat}

/-- A world is not at rest if a task is there that has not handed over to
others, or has been told to go on. -/
theorem Run.not_atRest (h : Run c s as w) {st : Stage}
    (hmem : (id, st) ∈ w.roll) (hgo : st.isSuspended = true →
      st.isWaiting = true ∧ id ∉ w.signal.waiting) : w.atRest = false := by
  refine Bool.eq_false_iff.2 fun hrest => ?_
  obtain ⟨t, ht, rfl⟩ := (World.distinct_of_run h).task?_of_roll hmem
  obtain rfl := World.id_of_task? ht
  obtain ⟨hsuspended, hwaits⟩ :=
    (World.fair_of_run h).suspended hrest (World.mem_of_task? ht)
  obtain ⟨hwaiting, htold⟩ := hgo hsuspended
  exact htold (hwaits hwaiting)

/-- No time goes by before all is at rest. -/
theorem Run.now_eq (h : Run c s as w) (ha : w.act a = some w')
    (hrest : w.atRest = false) : w'.now = w.now := by
  rcases (h.happens ha).loans.2.1 with he | ⟨m, rfl⟩
  · exact he
  · cases World.acts (World.distinct_of_run h) ha with
    | advance ready hrest' => cases hrest.symm.trans hrest'

/-- Only a task that has handed over to others is dropped. -/
theorem Run.suspended (h : Run c s as w) {outside : Bool}
    (ha : w.act (.cancel outside id) = some w') {st : Stage}
    (hmem : (id, st) ∈ w.roll) : st.isSuspended = true := by
  obtain ⟨t, ht, rfl⟩ := (World.distinct_of_run h).task?_of_roll hmem
  cases World.acts (World.distinct_of_run h) ha with
  | @cancel u _ hu hsuspended =>
    obtain rfl := Option.some.inj (ht.symm.trans hu)
    exact hsuspended

theorem Run.history_act (h : Run c s as w) (ha : w.act a = some w') {m : Nat}
    {e : Event} (he : (m, e) ∈ w.history) : (m, e) ∈ w'.history := by
  have h' : Run c s ([a] ++ as) w' := .act h ha
  exact (h.history_suffix h').subset he

/-- A request that looks at a pool that has ended fails. -/
theorem Run.look_down (h : Run c s as w) {t : Task}
    (ht : w.task? t.id = some t) (hdown : w.pool.shutDown = true) {r : Request}
    (hstage : t.stage = .acquire r .looking)
    (ha : w.act (.run t.id) = some w') :
    w'.pool = w.pool ∧
      w'.history.head? = some (w.now, .ended t.id (.failed .shutDown)) := by
  obtain ⟨flow, v, hmove, -, hf⟩ := World.act_task (World.distinct_of_run h) ht ha
  rw [hstage] at hmove
  cases hmove with
  | ended =>
    have hleave : ∀ u : World, (u.leave t.id).pool = u.pool ∧
        (u.leave t.id).now = u.now := fun u => by simp
    obtain ⟨hpool, hnow⟩ := hleave ((w.pick t.id).seen t.id w.pool)
    rw [hf.eq_finish]
    exact ⟨hpool, congrArg (fun m => some (m, _)) hnow⟩
  | take hup | makeRoom hup | claim hup | wait hup | outOfReach hup =>
    cases hup.symm.trans hdown
  | awaits hcall => cases hcall

theorem World.Fails.act (h : Run c s as w) (ha : w.act a = some w')
    (hdown : w.pool.shutDown = true) (hf : w.Fails id moment) :
    w'.Fails id moment := by
  rcases hf with he | ⟨hnow, hrest, r, hmem⟩
  · exact .inl (h.history_act ha he)
  by_cases hid : a.task? = some id
  · rcases Action.eq_of_task? hid with rfl | ⟨outside, rfl⟩
    · obtain ⟨t, ht, hstage⟩ := (World.distinct_of_run h).task?_of_roll hmem
      obtain rfl := World.id_of_task? ht
      obtain ⟨-, hhead⟩ := h.look_down ht hdown hstage ha
      exact .inl (hnow ▸ List.mem_of_mem_head? hhead)
    · cases h.suspended ha hmem
  · have h' : Run c s (a :: as) w' := .act h ha
    have hmem' := (h.happens ha).remains hmem hid
    refine .inr ⟨(h.now_eq ha hrest).trans hnow, ?_, r, hmem'⟩
    exact h'.not_atRest hmem' fun hsuspended => by cases hsuspended

theorem World.Roused.act (h : Run c s as w) (ha : w.act a = some w')
    (hdown : w.pool.shutDown = true) (hf : w.Roused id moment) :
    w'.Roused id moment := by
  have hd := World.distinct_of_run h
  have h' : Run c s (a :: as) w' := .act h ha
  rcases hf with hf | he | ⟨hnow, hrest, htold, r, since, alarm, hmem⟩
  · exact .inl (hf.act h ha hdown)
  · exact .inr (.inl (h.history_act ha he))
  have hnow' := (h.now_eq ha hrest).trans hnow
  by_cases hid : a.task? = some id
  · rcases Action.eq_of_task? hid with rfl | ⟨outside, rfl⟩
    · obtain ⟨t, ht, hstage⟩ := hd.task?_of_roll hmem
      obtain rfl := World.id_of_task? ht
      have htold' : w.signal.isTold t.id = true := by
        simpa [Signal.isTold] using htold
      obtain ⟨flow, v, hmove, hv, hf⟩ := World.act_task hd ht ha
      rw [hstage] at hmove
      cases hmove with
      | told =>
        have hmem' := (hf.of_again hv).1
        refine .inl (.inr ⟨hnow', h'.not_atRest hmem' fun hs => ?_, r, hmem'⟩)
        cases hs
      | stayWaiting hnot | roused hnot | exhausted hnot =>
        cases htold'.symm.trans hnot
      | awaits hcall => cases hcall
    · cases World.acts hd ha with
      | @cancel t _ ht =>
        refine .inr (.inl (List.mem_cons.2 (.inl ?_)))
        obtain ⟨he, -⟩ := World.writes_dropStage w outside t.id t.stage
        exact Prod.ext (he.trans hnow).symm rfl
  · have hmem' := (h.happens ha).remains hmem hid
    have htold' := mt (World.waiting_act hd ha hid) htold
    refine .inr (.inr ⟨hnow', ?_, htold', r, since, alarm, hmem'⟩)
    exact h'.not_atRest hmem' fun _ => ⟨rfl, htold'⟩

/-! ## What ends a pool -/

/-- The connections of a pool, in the order in which they are closed when it
ends. -/
def Pool.conns (p : Pool) : List Nat :=
  p.idle.reverse.map (·.conn) ++ p.active.map (·.entry.conn)

/-- A pool is ended by a task that is to do so and goes on to close all that
the pool had.  Whoever waits for a release is told. -/
theorem Run.ending (h : Run c s as v) (ha : v.act a = some w)
    (hup : v.pool.shutDown = false) (hdown : w.pool.shutDown = true) :
    ∃ id, a = .run id ∧ (id, .start .shutDown) ∈ v.roll ∧
      (id, .closing v.pool.conns []) ∈ w.roll ∧ w.now = v.now ∧
      w.signal.waiting = [] ∧ w.pool.IsDown ∧
      w.handles.length = v.handles.length := by
  have hd := World.distinct_of_run h
  obtain ⟨id, rfl, hmem⟩ := (h.happens ha).down hup hdown
  obtain ⟨t, ht, hstage⟩ := hd.task?_of_roll hmem
  obtain rfl := World.id_of_task? ht
  obtain ⟨flow, u, hmove, hu, hf⟩ := World.act_task hd ht ha
  rw [hstage] at hmove
  cases hmove with
  | shutDown =>
    obtain ⟨hroll, halike⟩ := hf.of_again hu
    have hscene := halike.scene
    rw [Doing.withdraw, World.scene_ringAll] at hscene
    have hwaiting := (World.passes_withdraw t.id v.pool.active
      (World.ringAll { v.pick t.id with pool := v.pool.close.2.2 })).waiting
    have hlen := congrArg List.length
      (Handle.map_grant_withdraw v.pool.active v.handles)
    rw [List.length_map, List.length_map] at hlen
    refine ⟨t.id, rfl, hmem, hroll, congrArg Scene.now hscene, ?_, ⟨?_, ?_, ?_⟩,
      (congrArg (·.handles.length) hscene).trans hlen⟩
    · rw [halike.signal]
      refine List.subset_nil.1 (List.Subset.trans hwaiting ?_)
      simp [Signal.ringAll]
    · exact congrArg (·.pool.shutDown) hscene
    · exact congrArg (·.pool.idle) hscene
    · exact congrArg (·.pool.active) hscene
  | shutDownAgain hdown' => cases hup.symm.trans hdown'
  | ask hop | askLate hop => cases hop
  | awaits hcall => cases hcall

/-! ## What is closed with it -/

/-- A task that is to close connections begins to close all of them. -/
theorem Does.closes_all {c : Config} {V V' : Scene} {todo : List Nat}
    {calls : List Pending} {flow : Flow} {closes : List Nat}
    (h : Does c V (.closing todo calls) flow closes V') (hne : todo ≠ []) :
    closes = todo.reverse := by
  cases h with
  | close => rfl
  | stay _ htodo => exact absurd htodo.1 hne
  | giveUp hroom => cases hroom
  | discard hentry => cases hentry
  | free hclosing => cases hclosing

/-- In a run of these actions, the task has begun at the moment to close these
connections, one after the other and in one go. -/
def ClosedAll (c : Config) (s : Server) (as : List Action) (id moment : Nat)
    (conns : List Nat) : Prop :=
  ∃ later before w w', as = later ++ .run id :: before ∧ Run c s before w ∧
    w.act (.run id) = some w' ∧ w.now = moment ∧
      w.closesBegun (.run id) w' = conns.reverse

/-- The task is about to begin to close these connections, and time cannot go
by before it does. -/
def World.IsClosing (w : World) (id moment : Nat) (conns : List Nat) : Prop :=
  w.now = moment ∧ w.atRest = false ∧ (id, .closing conns []) ∈ w.roll

theorem World.IsClosing.act {conns : List Nat} (h : Run c s as w)
    (ha : w.act a = some w') (hne : conns ≠ [])
    (hi : w.IsClosing id moment conns) :
    w'.IsClosing id moment conns ∨ ClosedAll c s (a :: as) id moment conns := by
  obtain ⟨hnow, hrest, hmem⟩ := hi
  have hsuspended : (Stage.closing conns []).isSuspended ≠ true := by
    simpa [Stage.isSuspended] using hne
  by_cases hid : a.task? = some id
  · rcases Action.eq_of_task? hid with rfl | ⟨outside, rfl⟩
    · refine .inr ⟨[], as, w, w', rfl, h, ha, hnow, ?_⟩
      have hd := World.distinct_of_run h
      have hhappens := h.happens ha
      generalize w.closesBegun (.run id) w' = closes at hhappens
      have hcloses : ∀ {st : Stage} {rest : List (Nat × Stage)} {flow : Flow}
          {V : Scene}, w.roll.Perm ((id, st) :: rest) →
          Does c w.scene st flow closes V → closes = conns.reverse := by
        intro st rest flow V hbefore hdoes
        have hst := hbefore.mem_iff.2 List.mem_cons_self
        obtain rfl := hd.stage_unique hst hmem
        exact hdoes.closes_all hne
      cases hhappens with
      | work hbefore hdoes => exact hcloses hbefore hdoes
      | cutOff hbefore hdoes => exact hcloses hbefore hdoes
      | quiet _ _ hnone =>
        obtain ⟨t, ht, -⟩ := hd.task?_of_roll hmem
        cases (hnone id rfl).symm.trans ht
    · exact absurd (h.suspended ha hmem) hsuspended
  · have h' : Run c s (a :: as) w' := .act h ha
    have hmem' := (h.happens ha).remains hmem hid
    refine .inl ⟨(h.now_eq ha hrest).trans hnow, ?_, hmem'⟩
    exact h'.not_atRest hmem' fun hs => absurd hs hsuspended

/-- The task begins to close the connections before time goes by. -/
theorem Run.closing {conns : List Nat} (h : Run c s as w)
    (h' : Run c s (later ++ as) w') (hi : w.IsClosing id moment conns)
    (hne : conns ≠ []) :
    w'.IsClosing id moment conns ∨
      ClosedAll c s (later ++ as) id moment conns := by
  induction later generalizing w' with
  | nil =>
    cases h.unique h'
    exact .inl hi
  | cons a later ih =>
    cases h' with
    | act h' ha =>
      rcases ih h' with hi | ⟨after, before, u, u', he, hclosed⟩
      · exact hi.act h' ha hne
      · refine .inr ⟨a :: after, before, u, u', ?_, hclosed⟩
        exact congrArg (a :: ·) he

/-! ## Requests that come later -/

/-- In a run of these actions, a task began to make a request at the moment
when the pool had ended already.  The clock reaches the end of its wait. -/
def RequestedLate (c : Config) (s : Server) (as : List Action)
    (id moment : Nat) : Prop :=
  ∃ later before w w' t, as = later ++ .run id :: before ∧ Run c s before w ∧
    w.act (.run id) = some w' ∧ w.task? id = some t ∧
      t.stage = .start .acquire ∧ w.now = moment ∧ w.pool.shutDown = true ∧
        ∃ deadline, Time.later moment c.timeouts.wait = .ok deadline

/-- A request that fails does so in the rest of a run, too. -/
theorem Run.fails (h : Run c s as w) (h' : Run c s (later ++ as) w')
    (hdown : w.pool.shutDown = true) (hf : w.Fails id moment) :
    w'.Fails id moment := by
  induction later generalizing w' with
  | nil =>
    cases h.unique h'
    exact hf
  | cons a later ih =>
    cases h' with
    | act h' ha => exact (ih h').act h' ha ((Run.ages h h').2 hdown)

theorem Run.roused (h : Run c s as w) (h' : Run c s (later ++ as) w')
    (hdown : w.pool.shutDown = true) (hf : w.Roused id moment) :
    w'.Roused id moment := by
  induction later generalizing w' with
  | nil =>
    cases h.unique h'
    exact hf
  | cons a later ih =>
    cases h' with
    | act h' ha => exact (ih h').act h' ha ((Run.ages h h').2 hdown)

/-- A request that comes when the pool has ended fails at once. -/
theorem Run.requested (h : Run c s as w)
    (hr : RequestedLate c s as id moment) : w.Fails id moment := by
  obtain ⟨later, before, u, u', t, rfl, hu, ha, ht, hstage, rfl, hdown,
    deadline, hlater⟩ := hr
  obtain rfl := World.id_of_task? ht
  have hu' : Run c s (.run t.id :: before) u' := .act hu ha
  obtain ⟨flow, x, hmove, hx, hf⟩ :=
    World.act_task (World.distinct_of_run hu) ht ha
  rw [hstage] at hmove
  cases hmove with
  | request =>
    obtain ⟨hroll, halike⟩ := hf.of_again hx
    refine Run.fails hu' h (halike.pool ▸ hdown) (.inr ⟨halike.now, ?_, _, hroll⟩)
    exact hu'.not_atRest hroll fun hs => by cases hs
  | tooFar hlate =>
    rw [← hu.config_fits.1] at hlater
    cases hlater.symm.trans hlate
  | ask hop | askLate hop => cases hop
  | awaits hcall => cases hcall

/-! ## What a pool that has ended does -/

/-- A connection is lent by a task that has it in hand, and not when the pool
has ended. -/
theorem World.Moves.lends {x : World} {st : Stage} {flow : Flow} {lease : Nat}
    (h : w.Moves id st flow x) (hflow : flow = .finish (.lent lease)) :
    w.pool.shutDown = false ∧ ∃ r e, st = .acquire r (.lending e) := by
  cases h with
  | lend hlend =>
    refine ⟨Bool.eq_false_iff.2 fun hdown => ?_, _, _, rfl⟩
    simp [Pool.lend?, Pool.isCurrent_of_down hdown] at hlend
  | denied => split at hflow <;> cases hflow
  | _ => cases hflow

/-- An action after which the pool has ended lends nothing. -/
theorem Run.lent_act (h : Run c s as w) (ha : w.act a = some w')
    (hdown : w'.pool.shutDown = true) {m lease : Nat}
    (he : (m, .ended id (.lent lease)) ∈ w'.history) :
    (m, .ended id (.lent lease)) ∈ w.history := by
  refine (h.tells ha he).resolve_right fun ⟨_, htells⟩ => ?_
  generalize hev : Event.ended id (.lent lease) = e at htells
  cases htells with
  | writes _ _ hw =>
    subst hev
    cases hw.1
  | @ended t _ _ ht hmove =>
    cases hev
    obtain ⟨hup, r, e, hstage⟩ := (World.moves_of_eq hmove).lends rfl
    obtain ⟨i, hrun, hmem⟩ := (h.happens ha).down hup hdown
    obtain rfl : t.id = i := Action.run.inj hrun
    have hd := World.distinct_of_run h
    cases hstage.symm.trans
      (hd.stage_unique (World.mem_roll_of_task? ht) hmem)
  | cutOff | dropped | abandoned => cases hev

end Runs

end DatabasePool
