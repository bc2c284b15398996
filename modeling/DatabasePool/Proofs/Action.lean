import DatabasePool.Session.Command
import DatabasePool.World.Run

/-!
# Runs

All that can happen to a world is one of nine actions: a task does one thing,
those that yielded may go on, an operation is started, a task is dropped, a
holder forgets a connection, the server changes in one of three ways, and time
goes by.  `World.act` carries out an action, if it can happen.

A run is a list of actions that happened to a new world, one after the other.
Any of the ready tasks may be the next one to do something, so runs are not
bound to the order in which `World.step` takes them.  `act_of_step` says that
what `World.step` does is one of the actions.

A task can be dropped where it has handed over to others: before it has begun,
or while it waits.  That is what `Stage.isSuspended` says.  In between, nobody
gets hold of it.
-/

namespace DatabasePool

/-! ## Where a task can be dropped -/

/-- The attempt has handed over to others. -/
def Attempt.isSuspended : Attempt → Bool
  | looking => false
  | opening _ failures => decide (0 < failures)
  | recovering _ => false
  | checking _ => false
  | lending _ => false
  | _ => true

/-- The return has handed over to others. -/
def Return.isSuspended : Return → Bool
  | starting _ => false
  | storing _ => false
  | _ => true

/-- The task has handed over to others. -/
def Stage.isSuspended : Stage → Bool
  | start _ => true
  | acquire _ a => a.isSuspended
  | giveBack r => r.isSuspended
  | asking _ _ => true
  | closing todo _ => todo.isEmpty

/-! ## Actions -/

/-- What can happen to a world. -/
inductive Action where
  /-- A task that can go on does one thing. -/
  | run (id : Nat)
  /-- The tasks that let all others go first can go on. -/
  | rouse
  /-- An operation is started. -/
  | start (op : Operation) (limit : Option Limit)
  /-- A task is dropped, perhaps where no task can be started. -/
  | cancel (outside : Bool) (id : Nat)
  /-- A holder forgets a connection, perhaps where no task can be started. -/
  | forget (outside : Bool) (lease : Nat)
  /-- The server answers in another way from now on. -/
  | changeServer (c : ServerChange)
  | markClosed (conn : Nat) (closed : Bool)
  | markManual (conn : Nat) (manual : Bool)
  /-- Time goes by until a moment. -/
  | advance (moment : Nat)
  deriving DecidableEq, Repr

/-- The action drops nothing where no task can be started. -/
def Action.isInside : Action → Bool
  | start _ limit => !(limit.map (·.outside)).getD false
  | cancel outside _ => !outside
  | forget outside _ => !outside
  | _ => true

namespace World

/-- The world after an action, if that action can happen.  Time goes by in
whole milliseconds, only at rest, and never past a timer. -/
def act (w : World) : Action → Option World
  | .run id =>
    if id ∈ w.ready then some ({ w with ready := w.ready.erase id }.run id)
    else none
  | .rouse =>
    if w.ready = [] then some { w with ready := w.yielded, yielded := [] }
    else none
  | .start op limit =>
    if (limit.bind (·.timer)).isNone then some (w.start op limit).2 else none
  | .cancel outside id =>
    match w.task? id with
    | none => none
    | some t =>
      if t.stage.isSuspended then
        some ((w.dropTask outside t).note (.dropped id))
      else none
  | .forget outside lease => some (w.forget outside lease)
  | .changeServer c => some { w with server := c.apply w.server }
  | .markClosed conn closed =>
    some { w with server := w.server.markClosed conn closed }
  | .markManual conn manual =>
    some { w with server := w.server.markManual conn manual }
  | .advance moment =>
    if w.atRest && moment % Time.perMilli = 0 && w.now ≤ moment &&
        w.timers.all (moment ≤ ·.1.due) then
      some (w.advanceTo moment)
    else none

theorem atRest_iff {w : World} :
    w.atRest = true ↔ w.ready = [] ∧ w.yielded = [] := by
  simp only [atRest, Bool.and_eq_true, List.isEmpty_iff]

/-- What `World.step` does is an action. -/
theorem act_of_step {w w' : World} (h : w.step = some w') :
    ∃ a, w.act a = some w' := by
  rw [step] at h
  cases hready : w.ready with
  | nil =>
    rw [hready] at h
    cases hyielded : w.yielded with
    | nil => simp [hyielded] at h
    | cons id rest =>
      simp only [hyielded, Option.some.injEq] at h
      refine ⟨.rouse, ?_⟩
      simp only [act, hready, if_true, hyielded, Option.some.injEq]
      exact h
  | cons id rest =>
    simp only [hready, Option.some.injEq] at h
    refine ⟨.run id, ?_⟩
    simp only [act, hready, List.mem_cons_self, if_true,
      List.erase_cons_head, Option.some.injEq]
    exact h

/-- The world after some actions, the last one in front, if they can happen. -/
def replay (w : World) : List Action → Option World
  | [] => some w
  | a :: as => (w.replay as).bind (·.act a)

end World

/-! ## Runs -/

/-- The actions happened to the world of a new pool, the last one in front.
No connection had been opened on its server before. -/
inductive Run (c : Config) (s : Server) : List Action → World → Prop where
  | new {w : World} (hs : s.connections = []) (hw : World.create c s = .ok w) :
      Run c s [] w
  | act {as : List Action} {a : Action} {w w' : World} (h : Run c s as w)
      (ha : w.act a = some w') : Run c s (a :: as) w'

namespace Run

/-- A run begins with the world of a new pool that has no fault in its
configuration. -/
theorem new_iff {c : Config} {s : Server} {w : World} :
    Run c s [] w ↔
      s.connections = [] ∧ c.fault? = none ∧ w = World.new c s := by
  constructor
  · rintro ⟨hs, hw⟩
    cases hc : c.fault? with
    | none =>
      simp only [World.create, hc, Except.ok.injEq] at hw
      exact ⟨hs, rfl, hw.symm⟩
    | some fault => simp [World.create, hc] at hw
  · rintro ⟨hs, hc, rfl⟩
    exact .new hs (by simp only [World.create, hc])

/-- Actions that can happen to a new world make up a run. -/
theorem of_replay {c : Config} {s : Server} {as : List Action} {w : World}
    (hs : s.connections = []) (hc : c.fault? = none)
    (h : (World.new c s).replay as = some w) : Run c s as w := by
  induction as generalizing w with
  | nil => exact new_iff.2 ⟨hs, hc, (Option.some.inj h).symm⟩
  | cons a as ih =>
    obtain ⟨v, hv, ha⟩ := Option.bind_eq_some_iff.1 h
    exact .act (ih hv) ha

/-- There are runs with a property if one is found by trying. -/
theorem exists_of_replay {c : Config} {s : Server} {as : List Action}
    {p : World → Prop} [DecidablePred p] (hs : s.connections = [])
    (hc : c.fault? = none)
    (h : ((World.new c s).replay as).any (fun w => decide (p w)) = true) :
    ∃ w, Run c s as w ∧ p w := by
  obtain ⟨w, hw, hp⟩ := (Option.any_eq_true ..).mp h
  exact ⟨w, of_replay hs hc hw, of_decide_eq_true hp⟩

/-- What holds of a new world and is kept by every action holds after every
run. -/
theorem induct {c : Config} {s : Server} {P : World → Prop}
    (hnew : s.connections = [] → c.fault? = none → P (World.new c s))
    (hact : ∀ {w w' : World} {a : Action}, P w → w.act a = some w' → P w')
    {as : List Action} {w : World} (h : Run c s as w) : P w := by
  induction h with
  | new hs hw =>
    obtain ⟨hs, hc, rfl⟩ := new_iff.1 (.new hs hw)
    exact hnew hs hc
  | act _ ha ih => exact hact ih ha

end Run

end DatabasePool
