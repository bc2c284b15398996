import DatabasePool.Proofs.Deeds

/-!
# What can happen

Each action changes the scene of a world and the roll of its tasks, which says
what stage each task is in.  `Happens` has one case for each way in which an
action can do so: a task does one thing, and is perhaps dropped right after it
because of its limit; a task is dropped; a task is started; and little else.
Each case also has the connections that the pool begins to close by that.

* `World.happens` says that there is no other way.
* `Happens.scene` says what it takes for something to hold of the scene after
  an action, and `Happens.mem_roll` says where the tasks after it come from.
* `Upheld.act` says what it takes for a property of scene and roll to be kept
  by whatever happens, and `Upheld.run` says so about runs.
* `World.along` collects something from all actions of a run.
-/

namespace DatabasePool

/-! ## Tasks that are dropped -/

/-- What is seen when a task is dropped in a stage. -/
def Scene.drop (V : Scene) (outside : Bool) (s : Stage) : Scene :=
  { V with
    pool := if s.hasSlot then V.pool.free else V.pool
    abandoned :=
      (if outside then s.entry?.toList.map (·.conn) else []) ++ V.abandoned }

/-- The stage of the task that is started because another one is dropped: it
closes what the other one had in its slot. -/
def Stage.strays (s : Stage) (outside : Bool) : List Stage :=
  if outside then []
  else s.entry?.toList.map fun e => .closing [e.conn] []

/-- The task that is started because another one is dropped closes a
connection. -/
theorem Stage.mem_strays {s s' : Stage} {outside : Bool}
    (h : s' ∈ s.strays outside) : ∃ conn, s' = .closing [conn] [] := by
  unfold strays at h
  split at h
  · cases h
  · obtain ⟨e, -, rfl⟩ := List.mem_map.1 h
    exact ⟨e.conn, rfl⟩

/-- The stage in which a task comes to wait is that in which it goes on. -/
theorem Flow.stage?_of_waits? {f : Flow} {s : Stage} (h : f.waits? = some s) :
    f.stage? = some s := by
  cases f with
  | pause _ | yield _ => exact h
  | _ => cases h

namespace World

theorem scene_dropStage (w : World) (outside : Bool) (id : Nat) (s : Stage) :
    (w.dropStage outside id s).scene = w.scene.drop outside s := by
  have hslot : ∀ (e : Option Entry) (slot : Bool),
      let v := e.elim w fun e => w.letGo outside e.conn
      (if slot then v.freeSlot else v).scene =
        { w.scene with
          pool := if slot then w.scene.pool.free else w.scene.pool
          abandoned :=
            (if outside then e.toList.map (·.conn) else []) ++
              w.scene.abandoned } := by
    intro e slot v
    have hv : v.scene = { w.scene with
        abandoned := (if outside then e.toList.map (·.conn) else []) ++
          w.scene.abandoned } := by
      cases e with
      | none => cases outside <;> rfl
      | some e =>
        refine (scene_letGo w outside e.conn).trans ?_
        cases outside <;> rfl
    cases slot with
    | false => exact hv
    | true => exact (scene_freeSlot v).trans (by rw [hv]; rfl)
  cases s with
  | acquire r a =>
    show (w.dropAcquire outside id a).scene = _
    unfold dropAcquire
    dsimp only
    split
    · exact (scene_leave ..).trans (hslot a.entry? a.hasSlot)
    · exact hslot a.entry? a.hasSlot
  | giveBack r => exact hslot r.entry? r.hasSlot
  | _ => cases outside <;> rfl

/-- What is seen when a task is dropped. -/
theorem scene_dropTask (w : World) (outside : Bool) (t : Task) :
    (w.dropTask outside t).scene = w.scene.drop outside t.stage :=
  scene_dropStage w outside t.id t.stage

/-! ## The roll of the tasks -/

/-- The number of a task and its stage. -/
def tag (t : Task) : Nat × Stage := (t.id, t.stage)

/-- What stage each task is in. -/
def roll (w : World) : List (Nat × Stage) := w.tasks.map tag

/-- The roll is that of one task and of all the others. -/
theorem Distinct.perm_roll {w : World} (h : w.Distinct) {id : Nat} {t : Task}
    (ht : w.task? id = some t) :
    w.roll.Perm ((id, t.stage) :: (w.others id).map tag) := by
  obtain rfl := id_of_task? ht
  exact (h.perm_others (mem_of_task? ht)).map tag

/-- The stage of a task that is known by its number. -/
theorem Distinct.task?_of_roll {w : World} (h : w.Distinct) {id : Nat}
    {s : Stage} (hs : (id, s) ∈ w.roll) :
    ∃ t, w.task? id = some t ∧ t.stage = s := by
  obtain ⟨t, ht, he⟩ := List.mem_map.1 hs
  cases he
  exact ⟨t, h.task?_eq ht, rfl⟩

theorem roll_eq_of_timed {w v : World} {id : Nat} (h : Timed w id v) :
    v.roll = w.roll := h.map_stage

theorem scene_eq_of_timed {w v : World} {id : Nat} (h : Timed w id v) :
    v.scene = w.scene := by
  obtain ⟨-, hserver, hpool, hhandles, -, hnow, -, -, hhistory⟩ := h.frame
  simp only [scene, opened, begun, abandoned, hserver, hpool, hhandles, hnow,
    hhistory]

/-- When a task is dropped, there is perhaps one that closes what it had. -/
theorem roll_dropTask {w : World} (outside : Bool) {t : Task}
    (ht : t.id < w.nextTask) :
    (w.dropTask outside t).roll =
      (w.others t.id).map tag ++
        (t.stage.strays outside).map (w.nextTask, ·) := by
  rw [roll, dropTask_tasks outside ht, List.map_append]
  refine congrArg (_ ++ ·) ?_
  unfold strays Stage.strays
  cases outside with
  | true => rfl
  | false => cases t.stage.entry? <;> rfl

end World

/-! ## Requests -/

/-- The request that a task is about. -/
def Stage.request? : Stage → Option Request
  | acquire r _ => some r
  | _ => none

def Flow.request? (f : Flow) : Option Request := f.stage?.bind (·.request?)

namespace World

/-- A request stays the same through all its attempts, but for the bad
connections that it has met. -/
theorem request_resumeAcquire (w : World) (id : Nat) (q : Request)
    (a : Attempt) {r : Request}
    (h : (w.resumeAcquire id q a).1.request? = some r) :
    r.since = q.since ∧ r.deadline = q.deadline := by
  have hgo : ∀ {flow : Flow} {b : Attempt},
      flow.stage? = some (.acquire q b) → flow.request? = some r →
      r.since = q.since ∧ r.deadline = q.deadline := by
    intro flow b hb hx
    rw [Flow.request?, hb] at hx
    cases hx
    exact ⟨rfl, rfl⟩
  cases a with
  | looking =>
    simp only [resumeAcquire, look] at h
    split at h
    all_goals first | exact hgo rfl h | cases h
  | opening record failures => exact hgo rfl h
  | connecting record failures call limit =>
    rcases hx : w.connecting id q record failures call limit with ⟨flow, v⟩
    rw [resumeAcquire, hx] at h
    cases connects hx with
    | opened | retry | wait => exact hgo rfl h
    | refused | timeout => cases h
  | recovering e =>
    simp only [resumeAcquire, recover] at h
    split at h
    · exact hgo rfl h
    · split at h <;> exact hgo rfl h
  | checking e =>
    simp only [resumeAcquire, check] at h
    split at h
    · exact hgo rfl h
    · split at h
      · exact hgo rfl h
      · split at h <;> exact hgo rfl h
  | undoing e call | pinging e call =>
    simp only [resumeAcquire] at h
    split at h
    · split at h <;> exact hgo rfl h
    · exact hgo rfl h
  | lending e =>
    simp only [resumeAcquire, lend] at h
    split at h
    · cases h
    · exact hgo rfl h
  | discarding call bad =>
    simp only [resumeAcquire] at h
    split at h
    · unfold discarded at h
      dsimp only at h
      generalize hp : (if bad then { q with bad := q.bad + 1 } else q) = p at h
      have hkeep : p.since = q.since ∧ p.deadline = q.deadline := by
        rw [← hp]
        split <;> exact ⟨rfl, rfl⟩
      split at h
      · cases h
      · cases h
        exact hkeep
    · exact hgo rfl h
  | waiting since alarm =>
    rcases hx : w.waiting id q since alarm with ⟨flow, v⟩
    rw [resumeAcquire, hx] at h
    cases waits hx with
    | on | told | roused => exact hgo rfl h
    | exhausted => cases h

/-- A task makes a request now or goes on with the one it had. -/
theorem request_resume (w : World) (id : Nat) (s : Stage) {r : Request}
    (h : (w.resume id s).1.request? = some r) :
    (r.since = w.now ∧ r.deadline = w.now + w.config.timeouts.wait) ∨
      ∃ q, s.request? = some q ∧ r.since = q.since ∧
        r.deadline = q.deadline := by
  cases s with
  | start op =>
    left
    simp only [resume] at h
    cases op with
    | acquire =>
      simp only [begin] at h
      split at h
      · cases h
      · rename_i deadline hlater
        obtain ⟨rfl, -⟩ := Time.later_eq_ok_iff.1 hlater
        cases h
        exact ⟨rfl, rfl⟩
    | close lease =>
      simp only [begin, close] at h
      split at h
      · split at h
        · cases h
        · split at h <;> cases h
      · cases h
    | ping lease query | closePhysical lease =>
      simp only [begin, ask] at h
      split at h <;> cases h
    | rollback lease =>
      simp only [begin, rollback, ask] at h
      split at h
      · cases h
      · split at h <;> cases h
    | invalidate => cases h
    | shutDown =>
      simp only [begin, shutDown] at h
      split at h <;> cases h
    | setOptions options => cases h
  | acquire q a => exact .inr ⟨q, rfl, request_resumeAcquire w id q a h⟩
  | giveBack g =>
    cases g with
    | starting lease =>
      rcases hx : w.startReturn lease with ⟨flow, v⟩
      rw [resume, resumeReturn, hx] at h
      cases startsReturn hx <;> cases h
    | undoing e call =>
      simp only [resume, resumeReturn] at h
      split at h
      · split at h <;> cases h
      · cases h
    | storing e =>
      simp only [resume, resumeReturn, store] at h
      split at h <;> cases h
    | discarding call =>
      simp only [resume, resumeReturn] at h
      split at h <;> cases h
  | asking call raw =>
    simp only [resume, resumeAsking] at h
    split at h
    · split at h
      · cases h
      · split at h <;> cases h
    · cases h
  | closing todo calls =>
    simp only [resume, resumeClosing] at h
    split at h <;> cases h

end World

/-! ## Happenings -/

/-- The task that an action is about. -/
def Action.task? : Action → Option Nat
  | run id => some id
  | cancel _ id => some id
  | _ => none

/-- How an action changes the scene and the roll.  The numbers are those of
the connections that the pool begins to close, the last one in front. -/
inductive Happens (c : Config) (w w' : World) : Action → List Nat → Prop where
  /-- A task does one thing. -/
  | work {id : Nat} {s : Stage} {flow : Flow} {closes : List Nat}
      {rest : List (Nat × Stage)} (hbefore : w.roll.Perm ((id, s) :: rest))
      (hdoes : Does c w.scene s flow closes w'.scene)
      (hafter : w'.roll.Perm (flow.stage?.toList.map (id, ·) ++ rest))
      (hended : ∀ o, flow = .finish o →
        w'.history.head? = some (w.now, .ended id o))
      (hready : ∀ s', flow = .again s' → id ∈ w'.ready)
      (hasks : ∀ r, flow.request? = some r →
        (r.since = w.now ∧ r.deadline = w.now + c.timeouts.wait) ∨
          ∃ q, s.request? = some q ∧ r.since = q.since ∧
            r.deadline = q.deadline) :
      Happens c w w' (.run id) closes
  /-- A task does one thing, comes to wait, and is dropped because of its
  limit. -/
  | cutOff {id n : Nat} {s s' : Stage} {flow : Flow} {closes : List Nat}
      {V : Scene} {outside : Bool} {rest : List (Nat × Stage)}
      (hbefore : w.roll.Perm ((id, s) :: rest))
      (hdoes : Does c w.scene s flow closes V) (hwaits : flow.waits? = some s')
      (hsuspended : s'.isSuspended = true)
      (hscene : w'.scene = V.drop outside s')
      (hafter : w'.roll.Perm ((s'.strays outside).map (n, ·) ++ rest)) :
      Happens c w w' (.run id) closes
  /-- A task is dropped. -/
  | drop {id n : Nat} {s : Stage} {outside : Bool} {rest : List (Nat × Stage)}
      (hbefore : w.roll.Perm ((id, s) :: rest))
      (hsuspended : s.isSuspended = true)
      (hscene : w'.scene = w.scene.drop outside s)
      (hafter : w'.roll.Perm ((s.strays outside).map (n, ·) ++ rest)) :
      Happens c w w' (.cancel outside id) []
  /-- An operation is started. -/
  | start {n : Nat} {op : Operation} {limit : Option Limit}
      (hscene : w'.scene = w.scene)
      (hafter : w'.roll.Perm ((n, .start op) :: w.roll)) :
      Happens c w w' (.start op limit) []
  /-- A holder forgets a connection, and a task gives it back. -/
  | forget {n lease : Nat}
      (hscene : w'.scene = { w.scene with
        handles := w.scene.handles.modify lease ({ · with valid := false }) })
      (hafter : w'.roll.Perm ((n, .giveBack (.starting lease)) :: w.roll)) :
      Happens c w w' (.forget false lease) []
  /-- A holder forgets a connection where no task can be started. -/
  | forgetOutside {lease : Nat}
      (hscene : w'.scene = { w.scene with
        handles := w.scene.handles.modify lease ({ · with valid := false }) })
      (hafter : w'.roll = w.roll) : Happens c w w' (.forget true lease) []
  /-- The server changes. -/
  | change {ch : ServerChange}
      (hscene : w'.scene = { w.scene with
        options := ch.options.getD w.scene.options })
      (hafter : w'.roll = w.roll) : Happens c w w' (.changeServer ch) []
  /-- Time goes by. -/
  | pass {moment : Nat} (hle : w.now ≤ moment)
      (hscene : w'.scene = { w.scene with now := moment })
      (hafter : w'.roll = w.roll) : Happens c w w' (.advance moment) []
  /-- Nothing is to be seen of it, and no task is there to do something. -/
  | quiet {a : Action} (hscene : w'.scene = w.scene)
      (hafter : w'.roll = w.roll)
      (hnone : ∀ id, a.task? = some id → w.task? id = none) :
      Happens c w w' a []

namespace World

/-- A task goes on as it is to, after it has done one thing. -/
theorem happens_follow {c : Config} {w v : World} {t : Task} {flow : Flow}
    {closes : List Nat} (hd : v.Distinct)
    (hbefore : w.roll.Perm ((t.id, t.stage) :: (v.others t.id).map tag))
    (hnow : v.now = w.now) (ht : v.task? t.id = some t)
    (hdoes : Does c w.scene t.stage flow closes v.scene)
    (hsuspends : ∀ s, flow.waits? = some s → s.isSuspended = true)
    (hasks : ∀ r, flow.request? = some r →
      (r.since = w.now ∧ r.deadline = w.now + c.timeouts.wait) ∨
        ∃ q, t.stage.request? = some q ∧ r.since = q.since ∧
          r.deadline = q.deadline) :
    Happens c w (v.follow t.id flow) (.run t.id) closes := by
  have hset : ∀ s, (v.setStage t.id s).Distinct := fun s =>
    hd.of_map_id (map_id_setStage ..) (Nat.le_refl _)
  have hroll : ∀ s, (v.setStage t.id s).roll.Perm
      ((t.id, s) :: (v.others t.id).map tag) := by
    intro s
    have hp := (hset s).perm_roll (task?_setStage s ht)
    rwa [others_setStage] at hp
  have hchecks : ∀ {s : Stage} {u : World}, flow.waits? = some s →
      u.scene = v.scene → u.Distinct →
      u.roll.Perm ((t.id, s) :: (v.others t.id).map tag) →
      u.others t.id = v.others t.id →
      u.task? t.id = some { t with stage := s } →
      Happens c w (u.checkLimit t.id) (.run t.id) closes := by
    intro s u hwaits hscene hdu hu hothers htask
    have hx := checks htask
    generalize u.checkLimit t.id = y at hx
    cases hx with
    | stays hv =>
      rw [← hscene, ← scene_eq_of_timed hv] at hdoes
      refine .work hbefore hdoes ?_ ?_ ?_ hasks
      · rw [roll_eq_of_timed hv, Flow.stage?_of_waits? hwaits]
        exact hu
      · rintro o rfl
        cases hwaits
      · rintro s' rfl
        cases hwaits
    | @dropped z outside hv =>
      have hlt : t.id < z.nextTask := by
        have hlt := hdu.lt _ (mem_of_task? htask)
        rwa [hv.nextTask]
      have hr := (List.Perm.of_eq (roll_dropTask outside
        (t := { t with stage := s }) hlt)).trans List.perm_append_comm
      rw [hv.others, hothers] at hr
      have hdrop : (z.dropTask outside { t with stage := s }).scene =
          v.scene.drop outside s := by
        rw [scene_dropTask, scene_eq_of_timed hv, hscene]
      refine .cutOff hbefore hdoes hwaits (hsuspends s hwaits) ?_ hr
      rw [scene_note, hdrop]
      rfl
  cases flow with
  | again s =>
    exact .work hbefore hdoes (hroll s) (fun o ho => by cases ho)
      (fun _ _ => List.mem_cons_self) hasks
  | pause s =>
    exact hchecks rfl rfl (hset s) (hroll s) (others_setStage ..)
      (task?_setStage s ht)
  | yield s =>
    exact hchecks (u := { v.setStage t.id s with
        yielded := t.id :: v.yielded }) rfl rfl ((hset s).of_queues _ _)
      (hroll s) (others_setStage ..) (task?_setStage s ht)
  | finish o =>
    have hs : (v.finish t.id o).scene = v.scene :=
      scene_note (v.removeTask t.id) (.ended t.id o)
    rw [← hs] at hdoes
    refine .work hbefore hdoes (List.Perm.refl _) ?_ (fun _ h => by cases h)
      hasks
    intro o' ho
    cases ho
    show some (v.now, Event.ended t.id o) = _
    rw [hnow]

/-- Some way in which the action happens. -/
theorem exists_happens {w w' : World} {a : Action} (hd : w.Distinct)
    (hf : ∀ t ∈ w.tasks, t.stage.Fits) (ha : w.act a = some w') :
    ∃ closes, Happens w.config w w' a closes := by
  cases a with
  | run id =>
    simp only [act] at ha
    split at ha
    · cases ha
      let u : World := { w with ready := w.ready.erase id }
      have hdu : u.Distinct := hd.of_queues _ _
      show ∃ closes, Happens w.config w (u.run id) _ closes
      unfold run
      cases ht : u.task? id with
      | none =>
        refine ⟨[], .quiet rfl rfl fun i hi => ?_⟩
        cases hi
        exact ht
      | some t =>
        obtain rfl := id_of_task? ht
        obtain ⟨closes, hdoes⟩ := Doing.resume u t.id (hf t (mem_of_task? ht))
        have hu := untouched_resume u t.id t.stage
        have hsuspends := (Turn.resume u t.id t.stage).suspends
        have hasks := fun r => request_resume u t.id t.stage (r := r)
        dsimp only
        generalize u.resume t.id t.stage = x at hdoes hu hsuspends hasks ⊢
        have hothers : x.2.others t.id = w.others t.id := by
          simp only [others, hu.tasks]
          rfl
        have ht' : x.2.task? t.id = some t := by
          simpa only [task?, hu.tasks] using ht
        refine ⟨closes, happens_follow (hdu.of_untouched hu) ?_ hu.now ht'
          hdoes (fun s hs => (hsuspends s hs).1) hasks⟩
        rw [hothers]
        exact hd.perm_roll ht
    · cases ha
  | rouse =>
    simp only [act] at ha
    split at ha
    · cases ha
      exact ⟨[], .quiet rfl rfl fun _ h => by cases h⟩
    · cases ha
  | start op limit =>
    simp only [act, World.start] at ha
    split at ha
    · cases ha
      refine ⟨[], .start (n := w.nextTask) rfl ?_⟩
      rw [roll, spawn, List.map_append]
      exact List.perm_append_comm
    · cases ha
  | cancel outside id =>
    simp only [act] at ha
    split at ha
    · cases ha
    · rename_i t ht
      obtain rfl := id_of_task? ht
      split at ha
      · rename_i hsuspended
        cases ha
        refine ⟨[], .drop (n := w.nextTask) (hd.perm_roll ht) hsuspended ?_ ?_⟩
        · rw [scene_note, scene_dropTask]
          rfl
        · have hr := roll_dropTask outside (hd.lt t (mem_of_task? ht))
          exact (List.Perm.of_eq hr).trans List.perm_append_comm
      · cases ha
  | forget outside lease =>
    cases ha
    unfold World.forget
    split
    · dsimp only
      split
      · rename_i ho
        subst ho
        exact ⟨[], .forgetOutside (scene_revoke w lease) rfl⟩
      · rename_i ho
        obtain rfl : outside = false := by simpa using ho
        refine ⟨[], .forget (n := w.nextTask) (scene_revoke w lease) ?_⟩
        rw [roll, spawn, List.map_append]
        exact List.perm_append_comm
    · exact ⟨[], .quiet rfl rfl fun _ h => by cases h⟩
  | changeServer ch =>
    cases ha
    refine ⟨[], .change ?_ rfl⟩
    rw [scene_setServer]
    rfl
  | markClosed conn closed =>
    cases ha
    refine ⟨[], .quiet ?_ rfl fun _ h => by cases h⟩
    rw [scene_setServer, Server.markClosed_length]
    rfl
  | markManual conn manual =>
    cases ha
    refine ⟨[], .quiet ?_ rfl fun _ h => by cases h⟩
    rw [scene_setServer, Server.markManual_length]
    rfl
  | advance moment =>
    simp only [act] at ha
    split at ha
    · rename_i hc
      cases ha
      obtain ⟨ready, he⟩ := advanceTo_eq w moment
      simp only [Bool.and_eq_true, decide_eq_true_eq] at hc
      rw [he]
      exact ⟨[], .pass hc.1.2 rfl rfl⟩
    · cases ha

end World

/-! ## Scene and roll after an action -/

/-- What holds of a scene after every deed and after all else that can happen,
holds after an action. -/
theorem Happens.scene {c : Config} {w w' : World} {a : Action}
    {closes : List Nat} {P : Scene → Prop} (h : Happens c w w' a closes)
    (hself : P w.scene)
    (hdeed : ∀ {s : Stage} {flow : Flow} {closes : List Nat} {V : Scene},
      Does c w.scene s flow closes V → P V)
    (hdrop : ∀ {V : Scene} (outside : Bool) (s : Stage), P V →
      P (V.drop outside s))
    (hhandles : ∀ handles, P { w.scene with handles })
    (hoptions : ∀ options, P { w.scene with options })
    (hpass : ∀ {moment : Nat}, a = .advance moment → w.now ≤ moment →
      P { w.scene with now := moment }) : P w'.scene := by
  cases h with
  | work _ hdoes => exact hdeed hdoes
  | cutOff _ hdoes _ _ hscene => exact hscene ▸ hdrop _ _ (hdeed hdoes)
  | drop _ _ hscene => exact hscene ▸ hdrop _ _ hself
  | start hscene | quiet hscene => exact hscene ▸ hself
  | forget hscene | forgetOutside hscene => exact hscene ▸ hhandles _
  | change hscene => exact hscene ▸ hoptions _
  | pass hle hscene => exact hscene ▸ hpass rfl hle

/-- Where a task comes from: nothing happened to it, or it is new and has no
request, or it did one thing. -/
theorem Happens.mem_roll {c : Config} {w w' : World} {a : Action}
    {closes : List Nat} (h : Happens c w w' a closes) (hd : w.Distinct)
    {x : Nat × Stage} (hx : x ∈ w'.roll) :
    (x ∈ w.roll ∧ a.task? ≠ some x.1) ∨ x.2.request? = none ∨
      ∃ s flow V, a = .run x.1 ∧ (x.1, s) ∈ w.roll ∧
        Does c w.scene s flow closes V ∧ flow.stage? = some x.2 ∧
        (∀ s', flow = .again s' → x.1 ∈ w'.ready) ∧
        ∀ r, x.2.request? = some r →
          (r.since = w.now ∧ r.deadline = w.now + c.timeouts.wait) ∨
            ∃ q, s.request? = some q ∧ r.since = q.since ∧
              r.deadline = q.deadline := by
  have hother : ∀ {id : Nat} {s : Stage} {rest : List (Nat × Stage)},
      a.task? = some id → w.roll.Perm ((id, s) :: rest) → x ∈ rest →
      x ∈ w.roll ∧ a.task? ≠ some x.1 := by
    intro id s rest ha hbefore hmem
    refine ⟨hbefore.mem_iff.2 (List.mem_cons_of_mem _ hmem), fun ha' => ?_⟩
    have hnodup : (w.roll.map Prod.fst).Nodup := by
      rw [World.roll, List.map_map]
      exact hd.nodup
    rw [(hbefore.map Prod.fst).nodup_iff, List.map_cons,
      List.nodup_cons] at hnodup
    obtain rfl : id = x.1 := Option.some.inj (ha.symm.trans ha')
    exact hnodup.1 (List.mem_map.2 ⟨x, hmem, rfl⟩)
  have hnobody : a.task? = none → a.task? ≠ some x.1 :=
    fun hnone ha => by cases hnone.symm.trans ha
  cases h with
  | work hbefore hdoes hafter _ hready hasks =>
    rcases List.mem_append.1 (hafter.mem_iff.1 hx) with hx | hx
    · obtain ⟨s', hs', rfl⟩ := List.mem_map.1 hx
      have hstage := Option.mem_toList.1 hs'
      refine .inr (.inr ⟨_, _, _, rfl, hbefore.mem_iff.2 List.mem_cons_self,
        hdoes, hstage, hready, fun r hr => hasks r ?_⟩)
      rw [Flow.request?, hstage]
      exact hr
    · exact .inl (hother rfl hbefore hx)
  | cutOff hbefore _ _ _ _ hafter | drop hbefore _ _ hafter =>
    rcases List.mem_append.1 (hafter.mem_iff.1 hx) with hx | hx
    · obtain ⟨s', hs', rfl⟩ := List.mem_map.1 hx
      obtain ⟨conn, rfl⟩ := Stage.mem_strays hs'
      exact .inr (.inl rfl)
    · exact .inl (hother rfl hbefore hx)
  | start _ hafter | forget _ hafter =>
    rcases List.mem_cons.1 (hafter.mem_iff.1 hx) with rfl | hx
    · exact .inr (.inl rfl)
    · exact .inl ⟨hx, hnobody rfl⟩
  | forgetOutside _ hafter | change _ hafter | pass _ _ hafter =>
    exact .inl ⟨hafter ▸ hx, hnobody rfl⟩
  | quiet _ hafter hnone =>
    rw [hafter] at hx
    obtain ⟨t, ht, -⟩ := hd.task?_of_roll hx
    exact .inl ⟨hx, fun ha => by cases (hnone x.1 ha).symm.trans ht⟩

/-! ## Closes that the pool begins -/

/-- The connections that the pool began to close in an action, the last one in
front.  What a holder closes for good does not count. -/
def World.closesBegun (w : World) (a : Action) (w' : World) : List Nat :=
  if (a.task?.bind w.task?).any (·.stage.closesPhysical) then []
  else w'.begun.take (w'.begun.length - w.begun.length)

/-- Only a task that has begun to work on a connection, or is to close many,
begins to close one for the pool. -/
theorem Does.begun_eq {c : Config} {V V' : Scene} {s : Stage} {flow : Flow}
    {closes : List Nat} (h : Does c V s flow closes V') :
    closes = if s.closesPhysical then []
      else V'.begun.take (V'.begun.length - V.begun.length) := by
  cases h with
  | closePhysical => rfl
  | discard hentry =>
    have hs : s.closesPhysical = false := by
      cases s with
      | start op => cases hentry
      | _ => rfl
    simp [hs]
  | close =>
    rw [if_neg (by simp [Stage.closesPhysical])]
    simp
  | turnAway => simp [Stage.closesPhysical]
  | _ => simp

/-- The closes that happen are those that the pool began. -/
theorem Happens.closes_eq {c : Config} {w w' : World} {a : Action}
    {closes : List Nat} (h : Happens c w w' a closes) (hd : w.Distinct) :
    closes = w.closesBegun a w' := by
  have hnone : w'.begun = w.begun → [] = w.closesBegun a w' := by
    intro he
    simp [World.closesBegun, he]
  have hsome : ∀ {id : Nat} {s : Stage} {flow : Flow} {V : Scene}
      {rest : List (Nat × Stage)}, a = .run id →
      w.roll.Perm ((id, s) :: rest) → Does c w.scene s flow closes V →
      w'.begun = V.begun → closes = w.closesBegun a w' := by
    rintro id s flow V rest rfl hbefore hdoes he
    obtain ⟨t, ht, rfl⟩ :=
      hd.task?_of_roll (hbefore.mem_iff.2 List.mem_cons_self)
    have hb := hdoes.begun_eq
    rw [← he] at hb
    simp only [World.closesBegun, Action.task?, Option.bind_some, ht,
      Option.any_some]
    exact hb
  cases h with
  | work hbefore hdoes => exact hsome rfl hbefore hdoes rfl
  | cutOff hbefore hdoes _ _ hscene =>
    exact hsome rfl hbefore hdoes (congrArg Scene.begun hscene)
  | drop _ _ hscene => exact hnone (congrArg Scene.begun hscene)
  | start hscene => exact hnone (congrArg Scene.begun hscene)
  | forget hscene => exact hnone (congrArg Scene.begun hscene)
  | forgetOutside hscene => exact hnone (congrArg Scene.begun hscene)
  | change hscene => exact hnone (congrArg Scene.begun hscene)
  | pass _ hscene => exact hnone (congrArg Scene.begun hscene)
  | quiet hscene => exact hnone (congrArg Scene.begun hscene)

/-- Whatever can happen is in the list. -/
theorem World.happens {w w' : World} {a : Action} (hd : w.Distinct)
    (hf : ∀ t ∈ w.tasks, t.stage.Fits) (ha : w.act a = some w') :
    Happens w.config w w' a (w.closesBegun a w') := by
  obtain ⟨closes, h⟩ := World.exists_happens hd hf ha
  rwa [← h.closes_eq hd]

/-! ## Loans that begin -/

/-- What was lent to a holder: the connection and its record at that time. -/
def Handle.grant (h : Handle) : Nat × Record String := (h.conn, h.record)

/-- What has been lent to holders, by the number of the lease. -/
def Scene.grants (V : Scene) : List (Nat × Record String) :=
  V.handles.map (·.grant)

/-- A holder changes, but not what was lent. -/
theorem Handle.map_grant_modify {f : Handle → Handle}
    (hf : ∀ x, (f x).grant = x.grant) (handles : List Handle) (lease : Nat) :
    (handles.modify lease f).map (·.grant) = handles.map (·.grant) := by
  refine List.ext_getElem? fun i => ?_
  rw [List.getElem?_map, List.getElem?_map, List.getElem?_modify]
  cases handles[i]? with
  | none => rfl
  | some x =>
    simp only [Option.map_eq_map, Option.map_some, Option.some.injEq]
    split
    · exact hf x
    · rfl

/-- Leases that end do not change what was lent. -/
theorem Handle.map_grant_withdraw (loans : List Loan)
    (handles : List Handle) :
    (loans.foldl (fun handles loan =>
      handles.modify loan.lease ({ · with valid := false })) handles).map
        (·.grant) = handles.map (·.grant) := by
  induction loans generalizing handles with
  | nil => rfl
  | cons loan loans ih =>
    rw [List.foldl_cons, ih]
    refine map_grant_modify ?_ ..
    exact fun _ => rfl

/-- A task lends one connection, under the next lease and while it is current,
or it lends none. -/
theorem Does.grants {c : Config} {V V' : Scene} {s : Stage} {flow : Flow}
    {closes : List Nat} (h : Does c V s flow closes V') :
    V'.grants = V.grants ∨ ∃ q e, s = .acquire q (.lending e) ∧
      flow = .finish (.lent V.handles.length) ∧
      V.pool.isCurrent e.record = true ∧
      V'.pool.isCurrent e.record = true ∧ V'.opened = V.opened ∧
      V'.grants = V.grants ++ [(e.conn, e.record.lend V.now)] := by
  cases h with
  | lend hcurrent =>
    refine .inr ⟨_, _, rfl, rfl, hcurrent, hcurrent, rfl, ?_⟩
    simp only [Scene.grants, List.map_append, List.map_cons, List.map_nil]
    rfl
  | mark | claim =>
    refine .inl (Handle.map_grant_modify ?_ ..)
    exact fun _ => rfl
  | callIn =>
    refine .inl ((Handle.map_grant_modify ?_ ..).trans
      (Handle.map_grant_modify ?_ ..))
    all_goals exact fun _ => rfl
  | shutDown hup => exact .inl (Handle.map_grant_withdraw ..)
  | _ => exact .inl rfl

/-- A connection is lent by a task that ends with that, or none is lent. -/
theorem Happens.grants {c : Config} {w w' : World} {a : Action}
    {closes : List Nat} (h : Happens c w w' a closes) :
    w'.scene.grants = w.scene.grants ∨ ∃ id q e, a = .run id ∧
      (id, .acquire q (.lending e)) ∈ w.roll ∧
      w.pool.isCurrent e.record = true ∧ w'.pool.isCurrent e.record = true ∧
      w'.opened = w.opened ∧
      w'.history.head? = some (w.now, .ended id (.lent w.handles.length)) ∧
      w'.scene.grants =
        w.scene.grants ++ [(e.conn, e.record.lend w.now)] := by
  have hnone : ∀ {handles : List Handle}, w'.scene.handles = handles →
      handles.map (·.grant) = w.scene.grants →
      w'.scene.grants = w.scene.grants := by
    rintro handles rfl hx
    exact hx
  cases h with
  | work hbefore hdoes _ hended =>
    rcases hdoes.grants with hx | ⟨q, e, rfl, hflow, hc, hc', ho, hx⟩
    · exact .inl hx
    · exact .inr ⟨_, q, e, rfl, hbefore.mem_iff.2 List.mem_cons_self, hc, hc',
        ho, hended _ hflow, hx⟩
  | cutOff _ hdoes hwaits _ hscene =>
    rcases hdoes.grants with hx | ⟨q, e, -, rfl, -⟩
    · exact .inl (hnone (congrArg Scene.handles hscene) hx)
    · cases hwaits
  | forget hscene | forgetOutside hscene =>
    refine .inl (hnone (congrArg Scene.handles hscene)
      (Handle.map_grant_modify ?_ ..))
    exact fun _ => rfl
  | drop _ _ hscene => exact .inl (hnone (congrArg Scene.handles hscene) rfl)
  | start hscene => exact .inl (hnone (congrArg Scene.handles hscene) rfl)
  | change hscene => exact .inl (hnone (congrArg Scene.handles hscene) rfl)
  | pass _ hscene => exact .inl (hnone (congrArg Scene.handles hscene) rfl)
  | quiet hscene => exact .inl (hnone (congrArg Scene.handles hscene) rfl)

/-! ## Runs -/

namespace World

/-- What an action brings to a list, for all actions of a run, the last one in
front. -/
def along {α : Type} (f : World → Action → World → List α) (w : World) :
    List Action → List α
  | [] => []
  | a :: as =>
    match w.replay as with
    | none => []
    | some v => ((v.act a).elim [] (f v a)) ++ w.along f as

/-- One more action brings what it does. -/
theorem along_cons {α : Type} (f : World → Action → World → List α)
    {v w w' : World} {as : List Action} {a : Action}
    (h : v.replay as = some w) (ha : w.act a = some w') :
    v.along f (a :: as) = f w a w' ++ v.along f as := by
  rw [along, h]
  dsimp only
  rw [ha]
  rfl

end World

namespace Run

variable {c : Config} {s : Server} {as : List Action} {a : Action}
  {w w' : World}

theorem replay_eq (h : Run c s as w) : (World.new c s).replay as = some w := by
  induction h with
  | new hs hw =>
    obtain ⟨-, -, rfl⟩ := new_iff.1 (.new hs hw)
    rfl
  | act _ ha ih =>
    rw [World.replay, ih]
    exact ha

theorem along_cons {α : Type} (f : World → Action → World → List α)
    (h : Run c s as w) (ha : w.act a = some w') :
    (World.new c s).along f (a :: as) =
      f w a w' ++ (World.new c s).along f as :=
  World.along_cons f h.replay_eq ha

/-- What happens after a run leads from where the run has led. -/
theorem replay_append {later : List Action} (h : Run c s as w)
    (h' : Run c s (later ++ as) w') : w.replay later = some w' := by
  induction later generalizing w' with
  | nil => rw [h.unique h', World.replay]
  | cons a later ih =>
    cases h' with
    | act h' ha =>
      rw [World.replay, ih h']
      exact ha

/-- No connection had been opened before. -/
theorem connections_eq (h : Run c s as w) : s.connections = [] := by
  induction h with
  | new hs hw => exact hs
  | act _ _ ih => exact ih

/-- A run began with fewer actions. -/
theorem of_append {later : List Action} (h : Run c s (later ++ as) w) :
    ∃ v, Run c s as v := by
  induction later generalizing w with
  | nil => exact ⟨w, h⟩
  | cons a later ih =>
    cases h with
    | act h ha => exact ih h

/-- The configuration stays, and all calls fit. -/
theorem config_fits (h : Run c s as w) :
    w.config = c ∧ ∀ t ∈ w.tasks, t.stage.Fits := by
  have hI : Kept c fun _ _ => True := by
    constructor <;> intros <;> trivial
  obtain ⟨lost, -, hsound⟩ := hI.run (fun _ => trivial) h
  exact ⟨hsound.config, hsound.fits⟩

/-- Whatever happens after a run is in the list. -/
theorem happens (h : Run c s as w) (ha : w.act a = some w') :
    Happens c w w' a (w.closesBegun a w') := by
  obtain ⟨rfl, hf⟩ := h.config_fits
  exact World.happens (World.distinct_of_run h) hf ha

end Run

/-! ## What is upheld -/

/-- A property of the closes that the pool has begun, of the scene and of the
roll, which is kept by whatever tasks do and whatever happens to them. -/
structure Upheld (c : Config)
    (I : List Nat → Scene → List (Nat × Stage) → Prop) : Prop where
  perm {B : List Nat} {V : Scene} {roll roll' : List (Nat × Stage)}
    (h : roll.Perm roll') (hi : I B V roll) : I B V roll'
  deed {B closes : List Nat} {V V' : Scene} {id : Nat} {s : Stage}
    {flow : Flow} {rest : List (Nat × Stage)}
    (hdoes : Does c V s flow closes V') (hi : I B V ((id, s) :: rest)) :
    I (closes ++ B) V' (flow.stage?.toList.map (id, ·) ++ rest)
  drop {B : List Nat} {V : Scene} {id n : Nat} {s : Stage} {outside : Bool}
    {rest : List (Nat × Stage)} (hsuspended : s.isSuspended = true)
    (hi : I B V ((id, s) :: rest)) :
    I B (V.drop outside s) ((s.strays outside).map (n, ·) ++ rest)
  start {B : List Nat} {V : Scene} {n : Nat} {op : Operation}
    {roll : List (Nat × Stage)} (hi : I B V roll) :
    I B V ((n, .start op) :: roll)
  giveBack {B : List Nat} {V : Scene} {n lease : Nat}
    {roll : List (Nat × Stage)} (hi : I B V roll) :
    I B V ((n, .giveBack (.starting lease)) :: roll)
  revoke {B : List Nat} {V : Scene} {lease : Nat} {roll : List (Nat × Stage)}
    (hi : I B V roll) :
    I B { V with
      handles := V.handles.modify lease ({ · with valid := false }) } roll
  pass {B : List Nat} {V : Scene} {moment : Nat} {roll : List (Nat × Stage)}
    (hle : V.now ≤ moment) (hi : I B V roll) : I B { V with now := moment } roll

/-- The action sets other options on the server itself. -/
def Action.setsOptions : Action → Bool
  | changeServer ch => ch.options.isSome
  | _ => false

namespace Upheld

variable {c : Config} {I : List Nat → Scene → List (Nat × Stage) → Prop}

theorem act (hI : Upheld c I) {w w' : World} {a : Action}
    {B closes : List Nat} (h : Happens c w w' a closes)
    (hset : a.setsOptions = true → ∀ {B : List Nat} {V : Scene}
      {roll : List (Nat × Stage)} (options : String), I B V roll →
        I B { V with options } roll)
    (hi : I B w.scene w.roll) : I (closes ++ B) w'.scene w'.roll := by
  cases h with
  | work hbefore hdoes hafter =>
    exact hI.perm hafter.symm (hI.deed hdoes (hI.perm hbefore hi))
  | @cutOff id n s s' flow _ V outside rest hbefore hdoes hwaits hsuspended
      hscene hafter =>
    have hstage := Flow.stage?_of_waits? hwaits
    have hd := hI.deed hdoes (hI.perm hbefore hi)
    rw [hstage] at hd
    rw [hscene]
    exact hI.perm hafter.symm (hI.drop hsuspended hd)
  | drop hbefore hsuspended hscene hafter =>
    rw [hscene]
    exact hI.perm hafter.symm (hI.drop hsuspended (hI.perm hbefore hi))
  | start hscene hafter =>
    rw [hscene]
    exact hI.perm hafter.symm (hI.start hi)
  | forget hscene hafter =>
    rw [hscene]
    exact hI.perm hafter.symm (hI.giveBack (hI.revoke hi))
  | forgetOutside hscene hafter =>
    rw [hscene, hafter]
    exact hI.revoke hi
  | @change ch hscene hafter =>
    rw [hscene, hafter]
    cases ho : ch.options with
    | none => exact hi
    | some options =>
      exact hset (by simp [Action.setsOptions, ho]) options hi
  | pass hle hscene hafter =>
    rw [hscene, hafter]
    exact hI.pass hle hi
  | quiet hscene hafter =>
    rw [hscene, hafter]
    exact hi

/-- What is upheld and right after a run stays right. -/
theorem extend (hI : Upheld c I) {s : Server} {as later : List Action}
    {w w' : World} (h : Run c s as w) (h' : Run c s (later ++ as) w')
    (hset : later.any (·.setsOptions) = true → ∀ {B : List Nat} {V : Scene}
      {roll : List (Nat × Stage)} (options : String), I B V roll →
        I B { V with options } roll)
    (hi : I ((World.new c s).along World.closesBegun as) w.scene w.roll) :
    I ((World.new c s).along World.closesBegun (later ++ as)) w'.scene
      w'.roll := by
  induction later generalizing w' with
  | nil =>
    cases h.unique h'
    exact hi
  | cons a later ih =>
    rw [List.any_cons, Bool.or_eq_true] at hset
    cases h' with
    | @act _ _ v _ h' ha =>
      have h' : Run c s (later ++ as) v := h'
      rw [List.cons_append, h'.along_cons _ ha]
      exact hI.act (h'.happens ha) (fun hx => hset (.inl hx))
        (ih h' fun hx => hset (.inr hx))

/-- What is upheld and right in the beginning is right after every run. -/
theorem run (hI : Upheld c I) {s : Server} {as : List Action} {w : World}
    (h : Run c s as w) (hnew : I [] (World.new c s).scene [])
    (hset : as.any (·.setsOptions) = true → ∀ {B : List Nat} {V : Scene}
      {roll : List (Nat × Stage)} (options : String), I B V roll →
        I B { V with options } roll) :
    I ((World.new c s).along World.closesBegun as) w.scene w.roll := by
  rw [← List.append_nil as] at h ⊢
  obtain ⟨v, hv⟩ := h.of_append
  obtain ⟨-, -, rfl⟩ := Run.new_iff.1 hv
  exact hI.extend hv h hset hnew

end Upheld

end DatabasePool
