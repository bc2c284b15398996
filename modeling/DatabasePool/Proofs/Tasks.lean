import DatabasePool.Proofs.Action
import DatabasePool.Proofs.Cases

/-!
# The tasks of a world

No two tasks of a world have the same number, and no number is used again:
`World.Distinct` holds after every run.  So the tasks of a world are one task
and all the others, `World.others`, and what one task does leaves the others
as they are.

* `untouched_resume` says that a task at work changes no task, neither the
  clock nor the configuration.
* `checks` says what it means that a task is held to its limit: it stays, with
  a timer perhaps, or it is dropped where `World.hitsLimit?` says so.
* `drops` says what a task that is dropped leaves behind.
-/

namespace DatabasePool

/-- The stage in which a task comes to wait, if it does. -/
def Flow.waits? : Flow → Option Stage
  | pause s => some s
  | yield s => some s
  | _ => none

namespace World

/-! ## One task and all others -/

/-- All tasks but one. -/
def others (w : World) (id : Nat) : List Task := w.tasks.filter (·.id != id)

/-- No two tasks have the same number, and all numbers have been given. -/
structure Distinct (w : World) : Prop where
  nodup : (w.tasks.map (·.id)).Nodup
  lt : ∀ t ∈ w.tasks, t.id < w.nextTask

theorem mem_of_task? {w : World} {id : Nat} {t : Task}
    (h : w.task? id = some t) : t ∈ w.tasks :=
  List.mem_of_find?_eq_some h

theorem id_of_task? {w : World} {id : Nat} {t : Task}
    (h : w.task? id = some t) : t.id = id := by
  simpa using List.find?_some h

theorem mem_others {w : World} {id : Nat} {t : Task} :
    t ∈ w.others id ↔ t ∈ w.tasks ∧ t.id ≠ id := by
  simp [others]

private theorem perm_others_aux {ts : List Task} {t : Task}
    (hn : (ts.map (·.id)).Nodup) (ht : t ∈ ts) :
    ts.Perm (t :: ts.filter (·.id != t.id)) := by
  induction ts with
  | nil => simp at ht
  | cons u ts ih =>
    simp only [List.map_cons, List.nodup_cons, List.mem_map] at hn
    obtain ⟨hu, hn⟩ := hn
    rcases List.mem_cons.1 ht with rfl | ht
    · have hall : ts.filter (·.id != t.id) = ts := by
        refine List.filter_eq_self.2 fun v hv => ?_
        simp only [bne_iff_ne, ne_eq]
        exact fun he => hu ⟨v, hv, he⟩
      simp [hall]
    · have hne : u.id ≠ t.id := fun he => hu ⟨t, ht, he.symm⟩
      rw [List.filter_cons_of_pos (by simpa using hne)]
      exact ((ih hn ht).cons u).trans (List.Perm.swap ..)

/-- The tasks are one task and all the others. -/
theorem Distinct.perm_others {w : World} {t : Task} (h : w.Distinct)
    (ht : t ∈ w.tasks) : w.tasks.Perm (t :: w.others t.id) :=
  perm_others_aux h.nodup ht

/-- A task is found by its number. -/
theorem Distinct.task?_eq {w : World} {t : Task} (h : w.Distinct)
    (ht : t ∈ w.tasks) : w.task? t.id = some t := by
  have hsome : (w.task? t.id).isSome := by
    simp only [task?, List.find?_isSome]
    exact ⟨t, ht, by simp⟩
  obtain ⟨u, hu⟩ := Option.isSome_iff_exists.1 hsome
  have hperm := h.perm_others ht
  rcases List.mem_cons.1 (hperm.mem_iff.1 (mem_of_task? hu)) with rfl | hmem
  · exact hu
  · exact absurd (id_of_task? hu) (mem_others.1 hmem).2

private theorem map_stage_aux {ts : List Task} {id : Nat} {f : Task → Task}
    (hf : ∀ u, u.id ≠ id → f u = u) (hid : ∀ u, (f u).id = u.id) :
    (ts.map f).filter (·.id != id) = ts.filter (·.id != id) := by
  induction ts with
  | nil => rfl
  | cons u ts ih =>
    rw [List.map_cons]
    by_cases hu : u.id = id
    · rw [List.filter_cons_of_neg (by simp [hid, hu]),
        List.filter_cons_of_neg (by simp [hu]), ih]
    · rw [List.filter_cons_of_pos (by simp [hid, hu]),
        List.filter_cons_of_pos (by simp [hu]), ih, hf u hu]

@[simp] theorem others_setStage (w : World) (id : Nat) (s : Stage) :
    (w.setStage id s).others id = w.others id := by
  refine map_stage_aux (fun u hu => if_neg hu) fun u => ?_
  split <;> rfl

@[simp] theorem others_setLimitTimer (w : World) (id : Nat) (timer : Timer) :
    (w.setLimitTimer id timer).others id = w.others id := by
  refine map_stage_aux (fun u hu => if_neg hu) fun u => ?_
  split <;> rfl

theorem task?_setStage {w : World} {id : Nat} {t : Task} (s : Stage)
    (h : w.task? id = some t) :
    (w.setStage id s).task? id = some { t with stage := s } := by
  have hid := id_of_task? h
  simp only [task?, setStage, List.find?_map] at h ⊢
  have hp : ((fun u : Task => u.id == id) ∘ fun u =>
      if u.id = id then { u with stage := s } else u) =
        fun u => u.id == id := by
    funext u
    simp only [Function.comp]
    split <;> rfl
  rw [hp, h]
  simp [hid]

theorem task?_setLimitTimer {w : World} {id : Nat} {t : Task} (timer : Timer)
    (h : w.task? id = some t) :
    (w.setLimitTimer id timer).task? id =
      some { t with limit := t.limit.map ({ · with timer := some timer }) } := by
  have hid := id_of_task? h
  simp only [task?, setLimitTimer, List.find?_map] at h ⊢
  have hp : ((fun u : Task => u.id == id) ∘ fun u =>
      if u.id = id then
        { u with limit := u.limit.map ({ · with timer := some timer }) }
      else u) = fun u => u.id == id := by
    funext u
    simp only [Function.comp]
    split <;> rfl
  rw [hp, h]
  simp [hid]

/-! ## A task at work -/

/-- What a task at work leaves alone. -/
structure Untouched (w w' : World) : Prop where
  config : w'.config = w.config
  now : w'.now = w.now
  tasks : w'.tasks = w.tasks
  yielded : w'.yielded = w.yielded
  nextTask : w'.nextTask = w.nextTask

theorem Untouched.refl (w : World) : Untouched w w :=
  ⟨rfl, rfl, rfl, rfl, rfl⟩

theorem Untouched.trans {w₁ w₂ w₃ : World} (h : Untouched w₁ w₂)
    (h' : Untouched w₂ w₃) : Untouched w₁ w₃ where
  config := h'.config.trans h.config
  now := h'.now.trans h.now
  tasks := h'.tasks.trans h.tasks
  yielded := h'.yielded.trans h.yielded
  nextTask := h'.nextTask.trans h.nextTask

theorem untouched_hearAnswer (w : World) (call : Call) :
    Untouched w (w.hearAnswer call).2 := by
  constructor <;> simp

theorem untouched_setWait (w : World) (span : Nat) :
    Untouched w (w.setWait span).2 := by
  constructor <;> simp

/-- Giving up a slot and leaving the signal touches no task. -/
theorem untouched_freeSlot_leave (w : World) (id : Nat) :
    Untouched w (w.freeSlot.leave id) := by
  constructor <;> simp

theorem untouched_look (w : World) (id : Nat) (r : Request) :
    Untouched w (w.look id r).2 := by
  simp only [look]
  split <;> constructor <;> simp

theorem untouched_connecting (w : World) (id : Nat) (r : Request)
    (record : Record String) (failures : Nat) (call : Pending)
    (limit : Option Timer) :
    Untouched w (w.connecting id r record failures call limit).2 := by
  have ha := untouched_hearAnswer w call.call
  have hv : ∀ {v : World}, (v = w ∨ ∃ span, v = (w.setWait span).2) →
      Untouched w v := by
    rintro v (rfl | ⟨span, rfl⟩)
    · exact .refl v
    · exact untouched_setWait w span
  rcases hc : w.connecting id r record failures call limit with ⟨flow, v⟩
  cases connects hc with
  | opened => exact ha
  | retry => exact ha
  | refused => exact ha.trans (untouched_freeSlot_leave ..)
  | timeout h => exact (hv h).trans (untouched_freeSlot_leave ..)
  | wait h => exact hv h

theorem untouched_discardAttempt (w : World) (r : Request) (conn : Nat)
    (bad : Bool) : Untouched w (w.discardAttempt r conn bad).2 := by
  constructor <;> simp [discardAttempt]

theorem untouched_rejectAttempt (w : World) (id : Nat) (r : Request)
    (conn : Nat) : Untouched w (w.rejectAttempt id r conn).2 := by
  constructor <;> simp [rejectAttempt, discardAttempt]

theorem untouched_resumeAcquire (w : World) (id : Nat) (r : Request)
    (a : Attempt) : Untouched w (w.resumeAcquire id r a).2 := by
  cases a with
  | looking => exact untouched_look w id r
  | opening record failures => constructor <;> simp [resumeAcquire]
  | connecting record failures call limit =>
    exact untouched_connecting w id r record failures call limit
  | recovering e =>
    simp only [resumeAcquire, recover]
    split
    · exact untouched_discardAttempt ..
    · split <;> constructor <;> simp
  | undoing e call =>
    have ha := untouched_hearAnswer w call.call
    simp only [resumeAcquire]
    split
    · split
      all_goals
        rename_i heq
        rw [heq] at ha
      · exact ha
      · exact ha.trans (untouched_discardAttempt ..)
    · exact .refl w
  | checking e =>
    simp only [resumeAcquire, check]
    split
    · exact untouched_discardAttempt ..
    · split
      · exact untouched_rejectAttempt ..
      · split <;> constructor <;> simp
  | pinging e call =>
    have ha := untouched_hearAnswer w call.call
    simp only [resumeAcquire]
    split
    · split
      all_goals
        rename_i heq
        rw [heq] at ha
      · exact ha
      · exact ha.trans (untouched_rejectAttempt ..)
    · exact .refl w
  | lending e =>
    simp only [resumeAcquire, lend]
    split
    · constructor <;> simp
    · exact untouched_discardAttempt ..
  | discarding call bad =>
    simp only [resumeAcquire]
    split
    · obtain ⟨r', h | h⟩ :=
        discarded_eq (w.hearAnswer call.call).2 id r bad
      all_goals
        rw [h]
        exact (untouched_hearAnswer ..).trans (untouched_freeSlot_leave ..)
    · exact .refl w
  | waiting since alarm =>
    rw [resumeAcquire]
    rcases hw : w.waiting id r since alarm with ⟨flow, v⟩
    cases waits hw with
    | on => exact .refl w
    | told => constructor <;> simp
    | roused => constructor <;> simp
    | exhausted => constructor <;> simp

theorem untouched_discardReturn (w : World) (conn : Nat) :
    Untouched w (w.discardReturn conn).2 := by
  constructor <;> simp [discardReturn]

theorem untouched_resumeReturn (w : World) (r : Return) :
    Untouched w (w.resumeReturn r).2 := by
  cases r with
  | starting lease =>
    rw [resumeReturn]
    rcases hs : w.startReturn lease with ⟨flow, v⟩
    cases startsReturn hs with
    | tooLate => exact .refl w
    | discard => constructor <;> simp [discardReturn]
    | store => constructor <;> simp
    | undo => constructor <;> simp
  | undoing e call =>
    have ha := untouched_hearAnswer w call.call
    simp only [resumeReturn]
    split
    · split
      all_goals
        rename_i heq
        rw [heq] at ha
      · exact ha
      · exact ha.trans (untouched_discardReturn ..)
    · exact .refl w
  | storing e =>
    simp only [resumeReturn, store]
    split
    · constructor <;> simp
    · exact untouched_discardReturn ..
  | discarding call =>
    simp only [resumeReturn]
    split
    · constructor <;> simp
    · exact .refl w

theorem untouched_hearAnswers (calls : List Pending) (w : World) :
    Untouched w (w.hearAnswers calls).2 :=
  hearAnswers_rel .refl .trans untouched_hearAnswer calls w

theorem untouched_beginCloses (conns : List Nat) (w : World) :
    Untouched w (w.beginCloses conns).2 := by
  have hbegin : ∀ (w : World) (conn : Nat),
      Untouched w (w.beginCall (.close conn)).2 := by
    intro w conn
    constructor <;> simp
  exact beginCloses_rel .refl .trans untouched_hearAnswer hbegin conns w

/-- The loans are called in one after the other. -/
theorem untouched_withdraw (loans : List Loan) (w : World) :
    Untouched w (loans.foldl (fun w loan =>
      (w.revoke loan.lease).note (.withdrawn loan.lease)) w) := by
  refine withdraw_rel .refl .trans (fun w lease => ?_) loans w
  constructor <;> simp

theorem untouched_shutDown (w : World) : Untouched w w.shutDown.2 := by
  simp only [shutDown]
  split
  · exact .refl w
  · refine Untouched.trans ?_ (untouched_withdraw _ _)
    constructor <;> simp

theorem untouched_ask (w : World) (lease : Nat) (call : Nat → Call)
    (raw : Bool) : Untouched w (w.ask lease call raw).2 := by
  simp only [ask]
  split <;> constructor <;> simp

theorem untouched_begin (w : World) (op : Operation) :
    Untouched w (w.begin op).2 := by
  cases op with
  | acquire =>
    simp only [begin]
    split <;> exact .refl w
  | close lease =>
    simp only [begin, close]
    split
    · split
      · exact .refl w
      · split <;> constructor <;> simp
    · exact .refl w
  | ping lease query => exact untouched_ask ..
  | rollback lease =>
    simp only [begin, rollback]
    split
    · exact .refl w
    · exact untouched_ask ..
  | closePhysical lease => exact untouched_ask ..
  | invalidate => exact ⟨rfl, rfl, rfl, rfl, rfl⟩
  | shutDown => exact untouched_shutDown w
  | setOptions options => exact ⟨rfl, rfl, rfl, rfl, rfl⟩

/-- A task at work changes no task, neither the clock nor the configuration. -/
theorem untouched_resume (w : World) (id : Nat) (s : Stage) :
    Untouched w (w.resume id s).2 := by
  cases s with
  | start op => exact untouched_begin w op
  | acquire r a => exact untouched_resumeAcquire w id r a
  | giveBack r => exact untouched_resumeReturn w r
  | asking call raw =>
    have ha := untouched_hearAnswer w call.call
    simp only [resume, resumeAsking]
    split
    · split
      all_goals
        rename_i heq
        rw [heq] at ha
      · exact ha
      · split <;> exact ha
    · exact .refl w
  | closing todo calls =>
    simp only [resume, resumeClosing]
    split
    all_goals
      exact (untouched_hearAnswers ..).trans (untouched_beginCloses ..)

/-! ## Tasks held to their limit -/

/-- A task that has come to wait is dropped because of its limit.  The value
says whether that is where no task can be started. -/
def hitsLimit? (w : World) (limit : Option Limit) : Option Bool := do
  let limit ← limit
  let timer := limit.timer.getD (w.setWait limit.span).1
  if w.isDue timer then some limit.outside else none

/-- A timer has been set for the limit of a task, unless there was one or none
was needed. -/
inductive Timed (w : World) (id : Nat) : World → Prop where
  | same : Timed w id w
  | set (span : Nat) (timer : Timer) :
      Timed w id ((w.setWait span).2.setLimitTimer id timer)

/-- What it can come to that a task is held to its limit. -/
inductive Checks (w : World) (t : Task) : World → Prop where
  | stays {v : World} (hv : Timed w t.id v)
      (hlimit : w.hitsLimit? t.limit = none) : Checks w t v
  | dropped {v : World} {outside : Bool} (hv : Timed w t.id v)
      (hlimit : w.hitsLimit? t.limit = some outside) :
      Checks w t ((v.dropTask outside t).note (.ended t.id .cancelled))

theorem checks {w : World} {id : Nat} {t : Task} (h : w.task? id = some t) :
    Checks w t (w.checkLimit id) := by
  obtain rfl := id_of_task? h
  cases hlimit : t.limit with
  | none =>
    simp only [checkLimit, h, hlimit]
    exact .stays .same (by simp [hitsLimit?, hlimit])
  | some limit =>
    cases htimer : limit.timer with
    | some timer =>
      simp only [checkLimit, h, hlimit, htimer]
      split
      · rename_i hdue
        exact .dropped .same (by simp [hitsLimit?, hlimit, htimer, hdue])
      · rename_i hdue
        exact .stays .same (by simp [hitsLimit?, hlimit, htimer, hdue])
    | none =>
      have hnow : ((w.setWait limit.span).2.setLimitTimer t.id
          (w.setWait limit.span).1).isDue (w.setWait limit.span).1 =
            w.isDue (w.setWait limit.span).1 := rfl
      simp only [checkLimit, h, hlimit, htimer, hnow]
      split
      · rename_i hdue
        exact .dropped (.set ..) (by simp [hitsLimit?, hlimit, htimer, hdue])
      · rename_i hdue
        exact .stays (.set ..) (by simp [hitsLimit?, hlimit, htimer, hdue])

@[simp] theorem map_id_setStage (w : World) (id : Nat) (s : Stage) :
    (w.setStage id s).tasks.map (·.id) = w.tasks.map (·.id) := by
  simp only [setStage, List.map_map]
  refine List.map_congr_left fun t _ => ?_
  simp only [Function.comp]
  split <;> rfl

namespace Timed

variable {w v : World} {id : Nat}

/-- A timer for a limit leaves all but the limit of one task alone. -/
theorem frame (h : Timed w id v) :
    v.config = w.config ∧ v.server = w.server ∧ v.pool = w.pool ∧
      v.handles = w.handles ∧ v.signal = w.signal ∧ v.now = w.now ∧
      v.ready = w.ready ∧ v.yielded = w.yielded ∧
      v.history = w.history := by
  cases h <;> simp [setLimitTimer]

theorem nextTask (h : Timed w id v) : v.nextTask = w.nextTask := by
  cases h <;> simp [setLimitTimer]

theorem others (h : Timed w id v) : v.others id = w.others id := by
  cases h with
  | same => rfl
  | set => exact (others_setLimitTimer ..).trans (by simp [World.others])

/-- No task gets another number or comes to another stage. -/
theorem map_stage (h : Timed w id v) :
    v.tasks.map (fun t => (t.id, t.stage)) =
      w.tasks.map fun t => (t.id, t.stage) := by
  cases h with
  | same => rfl
  | set =>
    simp only [setLimitTimer, List.map_map, setWait_frame]
    refine List.map_congr_left fun t _ => ?_
    simp only [Function.comp]
    split <;> rfl

theorem map_id (h : Timed w id v) :
    v.tasks.map (·.id) = w.tasks.map (·.id) := by
  have hmap := congrArg (List.map Prod.fst) h.map_stage
  simpa only [List.map_map, Function.comp_def] using hmap

theorem task? {t : Task} (h : Timed w id v) (ht : w.task? id = some t) :
    ∃ limit, v.task? id = some { t with limit } := by
  cases h with
  | same => exact ⟨_, ht⟩
  | set => exact ⟨_, task?_setLimitTimer _ ht⟩

end Timed

/-! ## Tasks that are dropped -/

/-- The task that is started because another one is dropped in a stage: it
closes what the other one had in its slot. -/
def strays (w : World) (outside : Bool) (s : Stage) : List Task :=
  if outside then []
  else s.entry?.toList.map fun e => ⟨w.nextTask, .closing [e.conn] [], none⟩

@[simp] theorem letGo_frame (w : World) (outside : Bool) (conn : Nat) :
    (w.letGo outside conn).config = w.config ∧
      (w.letGo outside conn).server = w.server ∧
      (w.letGo outside conn).pool = w.pool ∧
      (w.letGo outside conn).handles = w.handles ∧
      (w.letGo outside conn).signal = w.signal ∧
      (w.letGo outside conn).now = w.now ∧
      (w.letGo outside conn).yielded = w.yielded := by
  unfold letGo
  split <;> simp [spawn]

/-- What a task that is dropped leaves alone. -/
theorem dropStage_frame (w : World) (outside : Bool) (id : Nat) (s : Stage) :
    (w.dropStage outside id s).config = w.config ∧
      (w.dropStage outside id s).server = w.server ∧
      (w.dropStage outside id s).handles = w.handles ∧
      (w.dropStage outside id s).now = w.now ∧
      (w.dropStage outside id s).yielded = w.yielded := by
  cases s with
  | acquire r a =>
    simp only [dropStage, dropAcquire, Option.elim]
    split <;> split <;> split <;> simp
  | giveBack r =>
    simp only [dropStage, dropReturn, Option.elim]
    split <;> split <;> simp
  | _ => simp [dropStage]

/-- A task that is dropped lets go of a connection, gives a slot back and leaves
the release signal, in this order and as far as it has them. -/
theorem dropStage_induct {P : World → Prop} {w : World} {outside : Bool}
    {id : Nat} {s : Stage} (hw : P w)
    (hletGo : ∀ conn, P (w.letGo outside conn))
    (hfree : ∀ v, P v → P v.freeSlot) (hleave : ∀ v, P v → P (v.leave id)) :
    P (w.dropStage outside id s) := by
  have hslot : ∀ (e : Option Entry) (slot : Bool),
      let v := e.elim w fun e => w.letGo outside e.conn
      P (if slot then v.freeSlot else v) := by
    intro e slot v
    have hv : P v := by
      cases e with
      | none => exact hw
      | some e => exact hletGo e.conn
    cases slot with
    | false => exact hv
    | true => exact hfree v hv
  cases s with
  | acquire r a =>
    have hv := hslot a.entry? a.hasSlot
    simp only [dropStage, dropAcquire]
    split
    · exact hleave _ hv
    · exact hv
  | giveBack r => exact hslot r.entry? r.hasSlot
  | _ => exact hw

/-- What was in the slot of a task that is dropped is closed by another task,
if one can be started. -/
theorem dropStage_tasks (w : World) (outside : Bool) (id : Nat) (s : Stage) :
    (w.dropStage outside id s).tasks = w.tasks ++ w.strays outside s ∧
      w.nextTask ≤ (w.dropStage outside id s).nextTask ∧
      ∀ t ∈ w.strays outside s, t.id < (w.dropStage outside id s).nextTask := by
  cases s with
  | acquire r a =>
    simp only [dropStage, dropAcquire, strays, Stage.entry?]
    cases a.entry? <;> cases outside <;> cases a.hasSlot <;>
      cases a.hasJoined <;> simp [letGo, spawn]
  | giveBack r =>
    simp only [dropStage, dropReturn, strays, Stage.entry?]
    cases r.entry? <;> cases outside <;> cases r.hasSlot <;>
      simp [letGo, spawn]
  | _ => cases outside <;> simp [dropStage, strays, Stage.entry?]

/-- Of the tasks, the one that is dropped is gone, and there is perhaps one
more that closes what it had. -/
theorem dropTask_tasks {w : World} (outside : Bool) {t : Task}
    (ht : t.id < w.nextTask) :
    (w.dropTask outside t).tasks =
      w.others t.id ++ w.strays outside t.stage := by
  show (w.dropStage outside t.id t.stage).tasks.filter (·.id != t.id) = _
  rw [(dropStage_tasks w outside t.id t.stage).1, List.filter_append]
  refine congrArg (w.others t.id ++ ·) (List.filter_eq_self.2 ?_)
  intro u hu
  simp only [strays] at hu
  split at hu
  · simp at hu
  · obtain ⟨e, -, rfl⟩ := List.mem_map.1 hu
    simp only [bne_iff_ne, ne_eq]
    omega

/-! ## Numbers of tasks -/

theorem Distinct.of_map_id {w w' : World} (h : w.Distinct)
    (htasks : w'.tasks.map (·.id) = w.tasks.map (·.id))
    (hnext : w.nextTask ≤ w'.nextTask) : w'.Distinct where
  nodup := htasks ▸ h.nodup
  lt := by
    intro t ht
    have hmem : t.id ∈ w.tasks.map (·.id) :=
      htasks ▸ List.mem_map_of_mem ht
    obtain ⟨u, hu, he⟩ := List.mem_map.1 hmem
    have := h.lt u hu
    omega

/-- Who goes on next does not matter. -/
theorem Distinct.of_queues {w : World} (h : w.Distinct)
    (ready yielded : List Nat) : { w with ready, yielded }.Distinct :=
  h.of_map_id rfl (Nat.le_refl _)

theorem Distinct.of_untouched {w w' : World} (h : w.Distinct)
    (hw : Untouched w w') : w'.Distinct :=
  h.of_map_id (by rw [hw.tasks]) (Nat.le_of_eq hw.nextTask.symm)

theorem Distinct.removeTask {w : World} (h : w.Distinct) (id : Nat) :
    (w.removeTask id).Distinct where
  nodup := h.nodup.sublist (List.filter_sublist.map _)
  lt := fun t ht => h.lt t (List.mem_filter.1 ht).1

theorem Distinct.spawn {w : World} (h : w.Distinct) (s : Stage)
    (limit : Option Limit) : (w.spawn s limit).Distinct where
  nodup := by
    simp only [World.spawn, List.map_append, List.map_cons, List.map_nil]
    refine List.nodup_append.2 ⟨h.nodup, List.pairwise_singleton .., ?_⟩
    intro i hi j hj
    obtain ⟨t, ht, rfl⟩ := List.mem_map.1 hi
    have := h.lt t ht
    simp only [List.mem_singleton] at hj
    omega
  lt := by
    intro t ht
    simp only [World.spawn, List.mem_append, List.mem_singleton] at ht ⊢
    rcases ht with ht | rfl
    · have := h.lt t ht
      omega
    · exact Nat.lt_succ_self _

theorem Distinct.dropTask {w : World} (h : w.Distinct) (outside : Bool)
    (t : Task) : (w.dropTask outside t).Distinct := by
  refine Distinct.removeTask ⟨?_, ?_⟩ t.id
  · rw [(dropStage_tasks w outside t.id t.stage).1, List.map_append]
    have hstrays : ∀ i ∈ (w.strays outside t.stage).map (·.id),
        i = w.nextTask := by
      simp only [strays]
      split <;> simp +contextual
    refine List.nodup_append.2 ⟨h.nodup, ?_, ?_⟩
    · simp only [strays]
      split
      · simp
      · cases t.stage.entry? <;> simp
    · intro i hi j hj
      obtain ⟨u, hu, rfl⟩ := List.mem_map.1 hi
      have := h.lt u hu
      have := hstrays j hj
      omega
  · obtain ⟨htasks, hnext, hstrays⟩ := dropStage_tasks w outside t.id t.stage
    rw [htasks]
    intro u hu
    rcases List.mem_append.1 hu with hu | hu
    · exact Nat.lt_of_lt_of_le (h.lt u hu) hnext
    · exact hstrays u hu

theorem Distinct.of_checks {w v : World} {t : Task} (h : w.Distinct)
    (hv : Checks w t v) : v.Distinct := by
  cases hv with
  | stays hv => exact h.of_map_id hv.map_id (Nat.le_of_eq hv.nextTask.symm)
  | dropped hv =>
    have hd := h.of_map_id hv.map_id (Nat.le_of_eq hv.nextTask.symm)
    exact (hd.dropTask _ t).of_map_id rfl (Nat.le_refl _)

theorem Distinct.of_follow {w : World} (h : w.Distinct) {t : Task}
    (ht : w.task? t.id = some t) (flow : Flow) :
    (w.follow t.id flow).Distinct := by
  have hset : ∀ s, (w.setStage t.id s).Distinct := fun s =>
    h.of_map_id (map_id_setStage ..) (Nat.le_refl _)
  cases flow with
  | again s => exact (hset s).of_map_id rfl (Nat.le_refl _)
  | pause s => exact (hset s).of_checks (checks (task?_setStage s ht))
  | yield s =>
    have ht' : ({ w.setStage t.id s with
        yielded := t.id :: w.yielded } : World).task? t.id =
          some { t with stage := s } := task?_setStage s ht
    exact ((hset s).of_queues _ _).of_checks (checks ht')
  | finish o => exact (h.removeTask t.id).of_map_id rfl (Nat.le_refl _)

theorem Distinct.of_run {w : World} (h : w.Distinct) (id : Nat) :
    (w.run id).Distinct := by
  unfold run
  split
  · exact h
  · rename_i t ht
    obtain rfl := id_of_task? ht
    have hu := untouched_resume w t.id t.stage
    refine (h.of_untouched hu).of_follow ?_ _
    simpa only [task?, hu.tasks] using ht

private theorem foldl_wake_aux (fired : List (Timer × Nat)) (w : World) :
    ∃ ready, fired.foldl (fun w (_, id) => w.wake id) w =
      { w with ready } := by
  induction fired generalizing w with
  | nil => exact ⟨w.ready, rfl⟩
  | cons x fired ih =>
    obtain ⟨ready, h⟩ := ih (w.wake x.2)
    rw [List.foldl_cons, h]
    unfold wake
    split
    · exact ⟨ready, rfl⟩
    · exact ⟨ready, rfl⟩

/-- Time changes nothing but the clock and who can go on. -/
theorem advanceTo_eq (w : World) (moment : Nat) :
    ∃ ready, w.advanceTo moment = { w with now := moment, ready } :=
  foldl_wake_aux ..

theorem Distinct.of_act {w w' : World} {a : Action} (h : w.Distinct)
    (ha : w.act a = some w') : w'.Distinct := by
  cases a with
  | run id =>
    simp only [act] at ha
    split at ha
    · cases ha
      exact (h.of_queues _ _).of_run id
    · cases ha
  | rouse =>
    simp only [act] at ha
    split at ha
    · cases ha
      exact h.of_map_id rfl (Nat.le_refl _)
    · cases ha
  | start op limit =>
    simp only [act, World.start] at ha
    split at ha
    · cases ha
      exact h.spawn ..
    · cases ha
  | cancel outside id =>
    simp only [act] at ha
    split at ha
    · cases ha
    · split at ha
      · cases ha
        exact (h.dropTask outside _).of_map_id rfl (Nat.le_refl _)
      · cases ha
  | forget outside lease =>
    cases ha
    unfold forget
    split
    · dsimp only
      split
      · exact h.of_map_id (by simp) (by simp)
      · exact Distinct.spawn (h.of_map_id (by simp) (by simp)) ..
    · exact h
  | changeServer c =>
    cases ha
    exact h.of_map_id rfl (Nat.le_refl _)
  | markClosed conn closed =>
    cases ha
    exact h.of_map_id rfl (Nat.le_refl _)
  | markManual conn manual =>
    cases ha
    exact h.of_map_id rfl (Nat.le_refl _)
  | advance moment =>
    simp only [act] at ha
    split at ha
    · cases ha
      obtain ⟨ready, he⟩ := advanceTo_eq w moment
      rw [he]
      exact h.of_map_id rfl (Nat.le_refl _)
    · cases ha

/-- The tasks have different numbers after every run. -/
theorem distinct_of_run {c : Config} {s : Server} {as : List Action}
    {w : World} (h : Run c s as w) : w.Distinct :=
  h.induct (fun _ _ => ⟨List.Pairwise.nil, by simp [World.new]⟩)
    Distinct.of_act

end World

end DatabasePool
