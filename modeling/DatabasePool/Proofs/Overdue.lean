import DatabasePool.Proofs.Capacity
import DatabasePool.Proofs.Except
import DatabasePool.Proofs.Happenings

/-!
# Overdue loans and those who wait

A task that finds nothing to be had sets an alarm and waits.  The alarm is set
once, for the deadline of the task or for the first moment at which some loan
will be overdue, whichever comes first.  A loan that begins later becomes
overdue later than those that there were then, so the alarm goes off in time
for it as well.

But if there was no loan at all when the wait began, because all slots were
taken by connections that were being opened, tried or closed, then the alarm is
set for the deadline alone.  Nobody sets it anew when these are lent.

* `Happens.loans` and `Run.loans` say which loans there can be.
* `World.mem_ready_act` says that who is ready stays so, and
  `World.mem_queues_act` the same of those that let others go first.
* `began_of_run` says that each wait has begun at some time, and that no alarm
  is passed over.
* `Began.due_le` says when the alarm is in time for all loans.
* `in_time_of_run` says when a task that waits is woken as soon as a loan is
  overdue.
* `exists_waiting_with_overdue` is a run in which it is not.
-/

namespace DatabasePool

/-! ## The alarm -/

/-- A whole millisecond is not passed by a moment before it. -/
theorem Time.tick_le {moment whole : Nat} (hle : moment ≤ whole)
    (hwhole : whole % perMilli = 0) : tick moment ≤ whole := by
  simp only [tick, perMilli] at *
  omega

/-- When a connection on loan counts as overdue. -/
theorem Record.overdueAt_eq {κ : Type} {r : Record κ} {timeout out : Nat}
    {due : Option Nat} (ho : r.checkedOut = some out)
    (h : r.overdueAt timeout = .ok due) :
    due = some (out + timeout + Time.perMilli) := by
  rw [overdueAt, ho] at h
  obtain ⟨past, hpast, h⟩ := bind_eq_ok h
  obtain ⟨moment, hmoment, h⟩ := bind_eq_ok h
  rw [(Time.later_eq_ok_iff.1 hpast).1] at hmoment
  rw [← Except.ok.inj h, (Time.later_eq_ok_iff.1 hmoment).1]

/-- No loan counts as overdue before the moment that is found. -/
theorem Pool.nextOverdue_le {timeout out : Nat} {p : Pool} {wake : Option Nat}
    (h : p.nextOverdue timeout = .ok wake) {loan : Loan}
    (hl : loan ∈ p.active) (ho : loan.entry.record.checkedOut = some out) :
    ∃ moment, wake = some moment ∧
      moment ≤ out + timeout + Time.perMilli := by
  obtain ⟨dues, hdues, h⟩ := bind_eq_ok h
  obtain rfl : (dues.filterMap id).min? = wake := Except.ok.inj h
  obtain ⟨due, hmem, hdue⟩ := mem_of_mapM_eq_ok hdues hl
  obtain rfl := Record.overdueAt_eq ho hdue
  have hin : out + timeout + Time.perMilli ∈ dues.filterMap id :=
    List.mem_filterMap.2 ⟨_, hmem, rfl⟩
  cases hmin : (dues.filterMap id).min? with
  | none =>
    rw [List.min?_eq_none_iff.1 hmin] at hin
    cases hin
  | some moment =>
    exact ⟨moment, rfl, (List.min?_eq_some_iff.1 hmin).2 _ hin⟩

/-! ## The loans that there can be -/

/-- A loan that there is after a task has done one thing was there before or
begins now. -/
theorem Does.loans {c : Config} {V V' : Scene} {s : Stage} {flow : Flow}
    {closes : List Nat} (h : Does c V s flow closes V') :
    V'.now = V.now ∧ ∀ loan ∈ V'.pool.active, loan ∈ V.pool.active ∨
      loan.entry.record.checkedOut = some V.now := by
  cases h with
  | claim _ _ _ hperm | giveBack hperm | turnAway hperm =>
    exact ⟨rfl, fun loan hl =>
      .inl (hperm.subset (List.mem_cons_of_mem _ hl))⟩
  | lend =>
    refine ⟨rfl, fun loan hl => ?_⟩
    rcases List.mem_append.1 hl with hl | hl
    · exact .inl hl
    · obtain rfl := List.mem_singleton.1 hl
      exact .inr rfl
  | shutDown => exact ⟨rfl, fun _ hl => by cases hl⟩
  | _ => exact ⟨rfl, fun _ hl => .inl hl⟩

/-- No loan ends when a task is dropped. -/
theorem Scene.active_drop (V : Scene) (outside : Bool) (s : Stage) :
    (V.drop outside s).pool.active = V.pool.active := by
  simp only [drop]
  split <;> rfl

/-- The clock is never set back, and only time that goes by sets it.  A loan
that there is was there before or begins now. -/
theorem Happens.loans {c : Config} {w w' : World} {a : Action}
    {closes : List Nat} (h : Happens c w w' a closes) :
    w.now ≤ w'.now ∧ (w'.now = w.now ∨ ∃ moment, a = .advance moment) ∧
      ∀ loan ∈ w'.pool.active, loan ∈ w.pool.active ∨
        loan.entry.record.checkedOut = some w.now := by
  refine h.scene (P := fun V => w.now ≤ V.now ∧
    (V.now = w.now ∨ ∃ moment, a = .advance moment) ∧
    ∀ loan ∈ V.pool.active, loan ∈ w.pool.active ∨
      loan.entry.record.checkedOut = some w.now) ?self ?deed ?drop ?handles
    ?options ?pass
  case deed =>
    intro s flow closes V hdoes
    obtain ⟨hnow, hloans⟩ := hdoes.loans
    exact ⟨Nat.le_of_eq hnow.symm, .inl hnow, hloans⟩
  case drop =>
    intro V outside s hV
    rwa [V.active_drop]
  case pass =>
    exact fun ha hle => ⟨hle, .inr ⟨_, ha⟩, fun _ hl => .inl hl⟩
  case self => exact ⟨Nat.le_refl _, .inl rfl, fun _ hl => .inl hl⟩
  case handles | options =>
    exact fun _ => ⟨Nat.le_refl _, .inl rfl, fun _ hl => .inl hl⟩

/-! ## Who is ready -/

namespace World

private theorem foldl_wake_subset (fired : List (Timer × Nat)) (w : World) :
    w.ready ⊆ (fired.foldl (fun w (_, id) => w.wake id) w).ready ∧
      ∀ x ∈ fired, x.2 ∈ (fired.foldl (fun w (_, id) => w.wake id) w).ready := by
  induction fired generalizing w with
  | nil => exact ⟨List.Subset.refl _, fun _ hx => by cases hx⟩
  | cons y fired ih =>
    obtain ⟨hsub, hfired⟩ := ih (w.wake y.2)
    refine ⟨List.Subset.trans (ready_subset_wake w y.2) hsub, fun x hx => ?_⟩
    rcases List.mem_cons.1 hx with rfl | hx
    · exact hsub (mem_wake w x.2)
    · exact hfired x hx

/-- Time goes by at rest, until no later than any alarm goes off, and those
whose alarm goes off then are ready. -/
theorem act_advance {w w' : World} {moment : Nat}
    (ha : w.act (.advance moment) = some w') :
    w.ready = [] ∧ moment % Time.perMilli = 0 ∧ w'.now = moment ∧
      ∀ t ∈ w.tasks, ∀ alarm ∈ t.stage.timers,
        moment ≤ alarm.due ∧ (alarm.due = moment → t.id ∈ w'.ready) := by
  simp only [act] at ha
  split at ha
  · rename_i hc
    cases ha
    simp only [atRest, Bool.and_eq_true, decide_eq_true_eq, List.all_eq_true,
      List.isEmpty_iff] at hc
    obtain ⟨⟨⟨⟨hready, -⟩, hwhole⟩, -⟩, htimers⟩ := hc
    obtain ⟨ready, he⟩ := advanceTo_eq w moment
    refine ⟨hready, hwhole, by rw [he], fun t ht alarm halarm => ?_⟩
    have hmem : (alarm, t.id) ∈ w.timers :=
      List.mem_flatMap.2 ⟨t, ht, List.mem_map.2
        ⟨alarm, List.mem_append_left _ halarm, rfl⟩⟩
    refine ⟨htimers _ hmem, fun hdue => ?_⟩
    refine (foldl_wake_subset _ _).2 (alarm, t.id) ?_
    rw [List.mem_mergeSort]
    exact List.mem_filter.2 ⟨hmem, by simpa using hdue⟩
  · cases ha

/-- Who is ready stays so when another task is dropped. -/
theorem mem_ready_dropTask {w : World} {t : Task} {i : Nat} (outside : Bool)
    (hi : i ∈ w.ready) (hne : i ≠ t.id) :
    i ∈ (w.dropTask outside t).ready :=
  List.mem_filter.2 ⟨(passes_dropStage t.id w outside t.stage).ready hi,
    by simpa using hne⟩

/-- Who is ready stays so when another task goes on. -/
theorem mem_ready_follow {w : World} {t : Task} {i : Nat} (flow : Flow)
    (ht : w.task? t.id = some t) (hi : i ∈ w.ready) (hne : i ≠ t.id) :
    i ∈ (w.follow t.id flow).ready := by
  have hchecks : ∀ {u : World} {s : Stage}, i ∈ u.ready →
      u.task? t.id = some { t with stage := s } →
      i ∈ (u.checkLimit t.id).ready := by
    intro u s hu htask
    have hx := checks htask
    generalize u.checkLimit t.id = v at hx
    cases hx with
    | stays hv =>
      rw [hv.frame.2.2.2.2.2.2.1]
      exact hu
    | dropped hv =>
      refine mem_ready_dropTask (t := { t with stage := s }) _ ?_ hne
      rw [hv.frame.2.2.2.2.2.2.1]
      exact hu
  cases flow with
  | again s => exact List.mem_cons_of_mem _ hi
  | pause s | yield s => exact hchecks hi (task?_setStage s ht)
  | finish o => exact List.mem_filter.2 ⟨hi, by simpa using hne⟩

/-- Who is ready stays so until it does something or is dropped. -/
theorem mem_ready_act {w w' : World} {a : Action} (ha : w.act a = some w')
    {i : Nat} (hi : i ∈ w.ready) (hne : a.task? ≠ some i) :
    i ∈ w'.ready := by
  cases a with
  | run id =>
    have hid : i ≠ id := fun he => hne (congrArg some he.symm)
    simp only [act] at ha
    split at ha
    · cases ha
      let u : World := { w with ready := w.ready.erase id }
      have hi' : i ∈ u.ready := (List.mem_erase_of_ne hid).2 hi
      show i ∈ (u.run id).ready
      unfold run
      cases ht : u.task? id with
      | none => exact hi'
      | some t =>
        obtain rfl := id_of_task? ht
        have hu := untouched_resume u t.id t.stage
        have hready := (Turn.resume u t.id t.stage).ready hi'
        dsimp only
        generalize u.resume t.id t.stage = x at hu hready
        refine mem_ready_follow x.1 ?_ hready hid
        simpa only [task?, hu.tasks] using ht
    · cases ha
  | rouse =>
    simp only [act] at ha
    split at ha
    · rename_i hready
      rw [hready] at hi
      cases hi
    · cases ha
  | start op limit =>
    simp only [act, World.start] at ha
    split at ha
    · cases ha
      exact List.mem_append_left _ hi
    · cases ha
  | cancel outside id =>
    simp only [act] at ha
    split at ha
    · cases ha
    · rename_i t ht
      obtain rfl := id_of_task? ht
      split at ha
      · cases ha
        exact mem_ready_dropTask outside hi fun he => hne (he ▸ rfl)
      · cases ha
  | forget outside lease =>
    cases ha
    unfold World.forget
    split
    · dsimp only
      split
      · exact hi
      · exact List.mem_append_left _ hi
    · exact hi
  | changeServer _ | markClosed _ _ | markManual _ _ =>
    cases ha
    exact hi
  | advance moment =>
    rw [(act_advance ha).1] at hi
    cases hi

/-- Who lets others go first still does so when another task goes on. -/
theorem mem_yielded_follow {w : World} {t : Task} {i : Nat} (flow : Flow)
    (ht : w.task? t.id = some t) (hi : i ∈ w.yielded) (hne : i ≠ t.id) :
    i ∈ (w.follow t.id flow).yielded := by
  have hkeep : ∀ {is : List Nat}, i ∈ is → i ∈ is.filter (· != t.id) :=
    fun hi => List.mem_filter.2 ⟨hi, by simpa using hne⟩
  have hchecks : ∀ {u : World} {s : Stage}, i ∈ u.yielded →
      u.task? t.id = some { t with stage := s } →
      i ∈ (u.checkLimit t.id).yielded := by
    intro u s hu htask
    have hx := checks htask
    generalize u.checkLimit t.id = v at hx
    cases hx with
    | stays hv =>
      rw [hv.frame.2.2.2.2.2.2.2.1]
      exact hu
    | dropped hv =>
      refine hkeep ?_
      rw [(dropStage_frame ..).2.2.2.2, hv.frame.2.2.2.2.2.2.2.1]
      exact hu
  cases flow with
  | again s => exact hi
  | pause s => exact hchecks hi (task?_setStage s ht)
  | yield s =>
    refine hchecks (u := { w.setStage t.id s with
      yielded := t.id :: w.yielded }) ?_ (task?_setStage s ht)
    exact List.mem_cons_of_mem _ hi
  | finish o => exact hkeep hi

/-- No time goes by while somebody is in one of the queues. -/
theorem ne_advance {w w' : World} {a : Action} (ha : w.act a = some w')
    {i : Nat} (hi : i ∈ w.ready ∨ i ∈ w.yielded) (moment : Nat) :
    a ≠ .advance moment := by
  rintro rfl
  simp only [act] at ha
  split at ha
  · rename_i hc
    simp only [Bool.and_eq_true] at hc
    obtain ⟨hready, hyielded⟩ := atRest_iff.1 hc.1.1.1
    simp [hready, hyielded] at hi
  · cases ha

/-- Who can go on, or lets others go first, is in one of the queues until it
does something or is dropped. -/
theorem mem_queues_act {w w' : World} {a : Action} (ha : w.act a = some w')
    {i : Nat} (hi : i ∈ w.ready ∨ i ∈ w.yielded) (hne : a.task? ≠ some i) :
    i ∈ w'.ready ∨ i ∈ w'.yielded := by
  rcases hi with hi | hi
  · exact .inl (mem_ready_act ha hi hne)
  cases a with
  | run id =>
    have hid : i ≠ id := fun he => hne (congrArg some he.symm)
    simp only [act] at ha
    split at ha
    · cases ha
      refine .inr ?_
      unfold run
      cases ht : ({ w with ready := w.ready.erase id } : World).task? id with
      | none => exact hi
      | some t =>
        obtain rfl := id_of_task? ht
        have hu := untouched_resume { w with ready := w.ready.erase t.id } t.id
          t.stage
        dsimp only
        generalize { w with ready := w.ready.erase t.id }.resume t.id
          t.stage = x at hu
        refine mem_yielded_follow x.1 ?_ (hu.yielded ▸ hi) hid
        simpa only [task?, hu.tasks] using ht
    · cases ha
  | rouse =>
    simp only [act] at ha
    split at ha
    · cases ha
      exact .inl hi
    · cases ha
  | start op limit =>
    simp only [act, World.start] at ha
    split at ha
    · cases ha
      exact .inr hi
    · cases ha
  | cancel outside id =>
    simp only [act] at ha
    split at ha
    · cases ha
    · rename_i t ht
      obtain rfl := id_of_task? ht
      split at ha
      · cases ha
        refine .inr (List.mem_filter.2 ⟨?_, ?_⟩)
        · rwa [(dropStage_frame ..).2.2.2.2]
        · simpa using fun he : i = t.id => hne (congrArg some he.symm)
      · cases ha
  | forget outside lease =>
    cases ha
    unfold World.forget
    split
    · dsimp only
      split
      · exact .inr hi
      · exact .inr hi
    · exact .inr hi
  | changeServer _ | markClosed _ _ | markManual _ _ =>
    cases ha
    exact .inr hi
  | advance moment => exact absurd rfl (ne_advance ha (.inr hi) moment)

/-- A task that is to let others go first does so, if it is still there. -/
theorem mem_yielded_of_yield {v : World} {t : Task} {s : Stage}
    (ht : v.task? t.id = some t)
    (hmem : ∃ x ∈ (v.follow t.id (.yield s)).roll, x.1 = t.id) :
    t.id ∈ (v.follow t.id (.yield s)).yielded := by
  have htask := task?_setStage s ht
  have hx := checks (w := { v.setStage t.id s with
    yielded := t.id :: v.yielded }) htask
  show t.id ∈ (checkLimit _ t.id).yielded
  have hmem : ∃ x ∈ (checkLimit { v.setStage t.id s with
    yielded := t.id :: v.yielded } t.id).roll, x.1 = t.id := hmem
  generalize checkLimit _ t.id = z at hx hmem
  cases hx with
  | stays hz =>
    rw [hz.frame.2.2.2.2.2.2.2.1]
    exact List.mem_cons_self
  | dropped hz =>
    obtain ⟨x, hx, hid⟩ := hmem
    obtain ⟨u, hu, rfl⟩ := List.mem_map.1 hx
    have hne : u.id ≠ t.id := by simpa using (List.mem_filter.1 hu).2
    exact absurd hid hne

end World

/-! ## Waits -/

/-- There is nothing to be had for the request, and the alarm is set. -/
structure SetsAlarm (c : Config) (V : Scene) (q : Request) (alarm : Timer) :
    Prop where
  full : V.pool.hasRoom c.maxActive = false
  prompt : ∀ loan ∈ V.pool.active,
    loan.entry.record.isOverdue c.timeouts.checkout V.now = false
  due : ∃ wake, V.pool.nextOverdue c.timeouts.checkout = .ok wake ∧
    alarm.due = Time.tick (wake.elim q.deadline (min q.deadline))

/-- A task that waits did so before, and its alarm has not gone off, or it
looked and found nothing. -/
theorem Does.waits {c : Config} {V V' : Scene} {s : Stage} {flow : Flow}
    {closes : List Nat} (h : Does c V s flow closes V') {q : Request}
    {since : Nat} {alarm : Timer}
    (hx : flow.stage? = some (.acquire q (.waiting since alarm))) :
    (s = .acquire q (.waiting since alarm) ∧ V.now < alarm.due) ∨
      (∃ s', flow = .again s') ∧ s = .acquire q .looking ∧ V.now = since ∧
        SetsAlarm c V q alarm := by
  have hwaits : flow.isWaiting = true := by
    rw [Flow.isWaiting, hx]
    rfl
  have hhand : flow.hand = .nothing := by
    cases flow <;> cases hx <;> rfl
  cases h with
  | stay _ _ _ _ hpause =>
    obtain ⟨rfl, htimers⟩ := hpause hwaits
    cases hx
    exact .inl ⟨rfl, htimers alarm List.mem_cons_self⟩
  | wait hup hidle hfull hnone hwake =>
    cases hx
    exact .inr ⟨⟨_, rfl⟩, rfl, rfl, hfull, hnone, _, hwake, rfl⟩
  | free _ _ _ hnot => cases hnot.symm.trans hwaits
  | discard _ hclosing | turnAway _ hclosing =>
    cases hclosing.symm.trans hhand
  | giveBack _ hentry => cases hentry.symm.trans hhand
  | close hflow => obtain rfl | ⟨calls, rfl⟩ := hflow <;> cases hx
  | _ => cases hx

/-- A task that waits did so before, and nothing happened to it but that it
looked at its alarm, or it looked at the pool and found nothing. -/
theorem Happens.waits {c : Config} {w w' : World} {a : Action}
    {closes : List Nat} (h : Happens c w w' a closes) (hd : w.Distinct)
    {id : Nat} {q : Request} {since : Nat} {alarm : Timer}
    (hx : (id, .acquire q (.waiting since alarm)) ∈ w'.roll) :
    ((id, .acquire q (.waiting since alarm)) ∈ w.roll ∧
        (a.task? = some id → a = .run id ∧ w.now < alarm.due)) ∨
      a = .run id ∧ id ∈ w'.ready ∧ (id, .acquire q .looking) ∈ w.roll ∧
        w.now = since ∧ SetsAlarm c w.scene q alarm := by
  rcases h.mem_roll hd hx with ⟨hmem, hne⟩ | hnone |
    ⟨s, flow, V, rfl, hmem, hdoes, hstage, hready, -⟩
  · exact .inl ⟨hmem, fun ha => absurd ha hne⟩
  · cases hnone
  · rcases hdoes.waits hstage with ⟨rfl, hlt⟩ |
      ⟨⟨s', hflow⟩, rfl, hnow, hset⟩
    · exact .inl ⟨hmem, fun _ => ⟨rfl, hlt⟩⟩
    · exact .inr ⟨rfl, hready s' hflow, hmem, hnow, hset⟩

/-! ## Runs -/

namespace Run

variable {c : Config} {s : Server} {as : List Action} {w : World}

/-- The clock shows whole milliseconds, and each loan began at one. -/
theorem dated (h : Run c s as w) :
    w.now % Time.perMilli = 0 ∧ ∀ loan ∈ w.pool.active,
      ∃ out, loan.entry.record.checkedOut = some out ∧ out ≤ w.now ∧
        out % Time.perMilli = 0 := by
  induction h with
  | new hs hw =>
    obtain ⟨-, -, rfl⟩ := Run.new_iff.1 (.new hs hw)
    exact ⟨rfl, fun _ hl => by cases hl⟩
  | @act as a w w' h ha ih =>
    obtain ⟨hle, hnow, hloans⟩ := (h.happens ha).loans
    have hwhole : w'.now % Time.perMilli = 0 := by
      rcases hnow with he | ⟨moment, rfl⟩
      · rw [he]
        exact ih.1
      · obtain ⟨-, hwhole, rfl, -⟩ := World.act_advance ha
        exact hwhole
    refine ⟨hwhole, fun loan hl => ?_⟩
    rcases hloans loan hl with hl | ho
    · obtain ⟨out, ho, hout, hwhole⟩ := ih.2 loan hl
      exact ⟨out, ho, Nat.le_trans hout hle, hwhole⟩
    · exact ⟨w.now, ho, hle, ih.1⟩

/-- A loan that there is after a run was there earlier or has begun since. -/
theorem loans {later : List Action} {v : World} (h : Run c s as v)
    (h' : Run c s (later ++ as) w) :
    v.now ≤ w.now ∧ ∀ loan ∈ w.pool.active, loan ∈ v.pool.active ∨
      ∃ out, loan.entry.record.checkedOut = some out ∧ v.now ≤ out := by
  induction later generalizing w with
  | nil =>
    cases h.unique h'
    exact ⟨Nat.le_refl _, fun _ hl => .inl hl⟩
  | cons a later ih =>
    cases h' with
    | @act _ _ u _ h' ha =>
      obtain ⟨hle, hearlier⟩ := ih h'
      obtain ⟨hle', -, hloans⟩ := (h'.happens ha).loans
      refine ⟨Nat.le_trans hle hle', fun loan hl => ?_⟩
      rcases hloans loan hl with hl | ho
      · exact hearlier loan hl
      · exact .inr ⟨u.now, ho, hle⟩

/-- A request is made at a whole millisecond and gives up when it has waited
for as long as it may. -/
theorem requests (h : Run c s as w) :
    ∀ x ∈ w.roll, ∀ q, x.2.request? = some q →
      q.since ≤ w.now ∧ q.since % Time.perMilli = 0 ∧
        q.deadline = q.since + c.timeouts.wait := by
  induction h with
  | new hs hw =>
    obtain ⟨-, -, rfl⟩ := Run.new_iff.1 (.new hs hw)
    exact fun _ hx => by cases hx
  | @act as a w w' h ha ih =>
    have hhappens := h.happens ha
    have hle := hhappens.loans.1
    intro x hx q hq
    have hold : ∀ y ∈ w.roll, ∀ p, y.2.request? = some p →
        q.since = p.since → q.deadline = p.deadline →
        q.since ≤ w'.now ∧ q.since % Time.perMilli = 0 ∧
          q.deadline = q.since + c.timeouts.wait := by
      intro y hy p hp hsince hdeadline
      obtain ⟨hle', hrest⟩ := ih y hy p hp
      rw [hsince, hdeadline]
      exact ⟨Nat.le_trans hle' hle, hrest⟩
    rcases hhappens.mem_roll (World.distinct_of_run h) hx with ⟨hmem, -⟩ |
      hnone | ⟨s, flow, V, -, hmem, -, -, -, hasks⟩
    · exact hold x hmem q hq rfl rfl
    · cases hnone.symm.trans hq
    · rcases hasks q hq with ⟨hsince, hdeadline⟩ | ⟨p, hp, hsince, hdeadline⟩
      · rw [hsince, hdeadline]
        exact ⟨hle, h.dated.1, rfl⟩
      · exact hold _ hmem p hp hsince hdeadline

end Run

/-- The task began the wait that it is in when it looked at the pool in the
world `v`. -/
structure Began (c : Config) (s : Server) (as : List Action) (id : Nat)
    (q : Request) (since : Nat) (alarm : Timer) (v : World) : Prop where
  run : ∃ before, .run id :: before <:+ as ∧ Run c s before v
  looking : (id, .acquire q .looking) ∈ v.roll
  waiting : ∃ v', v.act (.run id) = some v' ∧
    (id, .acquire q (.waiting since alarm)) ∈ v'.roll
  now : v.now = since

section Waits

variable {c : Config} {s : Server} {as : List Action} {w v : World}
  {id since : Nat} {q : Request} {alarm : Timer}

/-- More may happen afterwards. -/
theorem Began.cons (h : Began c s as id q since alarm v) (a : Action) :
    Began c s (a :: as) id q since alarm v := by
  obtain ⟨⟨before, hsuffix, hrun⟩, hlooking, hwaiting, hnow⟩ := h
  exact ⟨⟨before, hsuffix.trans (List.suffix_cons a as), hrun⟩, hlooking,
    hwaiting, hnow⟩

/-- A loan that there is was there when the wait began, or has begun since. -/
theorem Began.loans (hbegan : Began c s as id q since alarm v)
    (h : Run c s as w) : ∀ loan ∈ w.pool.active, loan ∈ v.pool.active ∨
      ∃ out, loan.entry.record.checkedOut = some out ∧ since ≤ out := by
  obtain ⟨⟨before, ⟨later, rfl⟩, hrun⟩, -, -, rfl⟩ := hbegan
  have h' : Run c s ((later ++ [.run id]) ++ before) w := by
    rw [List.append_assoc]
    exact h
  exact (hrun.loans h').2

/-- A task that waits began to do so at some time.  It is ready, or its alarm
has not gone off.  If time has gone by since, then not past its alarm. -/
theorem began_of_run (h : Run c s as w)
    (hx : (id, .acquire q (.waiting since alarm)) ∈ w.roll) :
    ∃ v, Began c s as id q since alarm v ∧ SetsAlarm c v.scene q alarm ∧
      (id ∈ w.ready ∨ w.now < alarm.due) ∧
      (w.now = since ∨ w.now ≤ alarm.due) := by
  induction h with
  | new hs hw =>
    obtain ⟨-, -, rfl⟩ := Run.new_iff.1 (.new hs hw)
    cases hx
  | @act as a w w' h ha ih =>
    have hhappens := h.happens ha
    have hd := World.distinct_of_run h
    rcases hhappens.waits hd hx with ⟨hmem, hself⟩ |
      ⟨rfl, hready, hlooking, rfl, hset⟩
    · obtain ⟨v, hbegan, hset, halert, hpast⟩ := ih hmem
      refine ⟨v, hbegan.cons a, hset, ?_⟩
      by_cases hid : a.task? = some id
      · obtain ⟨rfl, hlt⟩ := hself hid
        rcases hhappens.loans.2.1 with he | ⟨moment, he⟩
        · rw [he]
          exact ⟨.inr hlt, hpast⟩
        · cases he
      · rcases hhappens.loans.2.1 with he | ⟨moment, rfl⟩
        · rw [he]
          exact ⟨halert.imp_left (World.mem_ready_act ha · hid), hpast⟩
        · obtain ⟨-, -, hnow, htimers⟩ := World.act_advance ha
          obtain ⟨t, ht, hstage⟩ := hd.task?_of_roll hmem
          obtain ⟨hle, hfires⟩ := htimers t (World.mem_of_task? ht) alarm
            (by rw [hstage]; exact List.mem_cons_self)
          rw [World.id_of_task? ht] at hfires
          rw [hnow]
          exact ⟨(Nat.eq_or_lt_of_le hle).imp_left fun he => hfires he.symm,
            .inr hle⟩
    · refine ⟨w, ⟨⟨as, List.suffix_refl _, h⟩, hlooking, ⟨w', ha, hx⟩, rfl⟩,
        hset, .inl hready, .inl ?_⟩
      rcases hhappens.loans.2.1 with he | ⟨moment, he⟩
      · exact he
      · cases he

/-- At rest nobody is ready, so the alarm of a task that waits is still to go
off. -/
theorem Run.now_lt_alarm (h : Run c s as w)
    (hx : (id, .acquire q (.waiting since alarm)) ∈ w.roll)
    (hrest : w.atRest = true) : w.now < alarm.due := by
  obtain ⟨v, -, -, halert, -⟩ := began_of_run h hx
  refine halert.resolve_left fun hmem => ?_
  rw [(World.atRest_iff.1 hrest).1] at hmem
  cases hmem

/-- How long a connection has been on loan. -/
theorem Loan.heldFor_eq {loan : Loan} {out : Nat}
    (ho : loan.entry.record.checkedOut = some out) (now : Nat) :
    loan.heldFor now = now - out := by
  simp only [heldFor, Record.heldFor, ho, Time.elapsed]

/-- If there was a loan when the wait began, or if no request waits for longer
than a loan may last, then the alarm is set for a millisecond after a loan may
last at the latest, for each loan that there is now; and when the wait began,
none of them was overdue.  The alarm is in time for the loans that there were,
and so for those that began later. -/
theorem Began.due_le (hbegan : Began c s as id q since alarm v)
    (hset : SetsAlarm c v.scene q alarm) (h : Run c s as w)
    (hwhole : c.timeouts.checkout % Time.perMilli = 0)
    (hcase : v.pool.active ≠ [] ∨ c.timeouts.wait ≤ c.timeouts.checkout) :
    ∀ loan ∈ w.pool.active, ∀ out, loan.entry.record.checkedOut = some out →
      alarm.due ≤ out + c.timeouts.checkout + Time.perMilli ∧
        since ≤ out + c.timeouts.checkout := by
  have hloans := hbegan.loans h
  obtain ⟨⟨before, -, hrun⟩, hlooking, -, rfl⟩ := hbegan
  obtain ⟨wake, hwake, hdue⟩ := hset.due
  obtain ⟨hnow, hdated⟩ := hrun.dated
  have hthen : ∀ loan ∈ v.pool.active, ∃ out,
      loan.entry.record.checkedOut = some out ∧ out ≤ v.now ∧
        alarm.due ≤ out + c.timeouts.checkout + Time.perMilli := by
    intro loan hl
    obtain ⟨out, ho, hle, hout⟩ := hdated loan hl
    obtain ⟨moment, rfl, hmoment⟩ := Pool.nextOverdue_le hwake hl ho
    refine ⟨out, ho, hle, hdue ▸ Time.tick_le ?_ ?_⟩
    · exact Nat.le_trans (Nat.min_le_right ..) hmoment
    · rw [Nat.add_mod, Nat.add_mod out, hout, hwhole]
      rfl
  have hlater : alarm.due ≤ v.now + c.timeouts.checkout + Time.perMilli := by
    rcases hcase with hsome | hshort
    · obtain ⟨loan, hl⟩ := List.exists_mem_of_ne_nil _ hsome
      obtain ⟨out, -, hle, hbound⟩ := hthen loan hl
      omega
    · obtain ⟨hle, -, hdeadline⟩ := hrun.requests _ hlooking q rfl
      have hmin : wake.elim q.deadline (min q.deadline) ≤ q.deadline := by
        cases wake with
        | none => exact Nat.le_refl _
        | some moment => exact Nat.min_le_left ..
      have hend : (v.now + c.timeouts.checkout) % Time.perMilli = 0 := by
        rw [Nat.add_mod, hnow, hwhole]
        rfl
      have htick := Time.tick_le (show wake.elim q.deadline (min q.deadline) ≤
        v.now + c.timeouts.checkout by omega) hend
      omega
  intro loan hl out ho
  rcases hloans loan hl with hv | ⟨out', ho', hle⟩
  · obtain ⟨out', ho', hle, hbound⟩ := hthen loan hv
    obtain rfl : out' = out := Option.some.inj (ho'.symm.trans ho)
    have hprompt := hset.prompt loan hv
    rw [Record.isOverdue_eq, decide_eq_false_iff_not] at hprompt
    have hheld : loan.entry.record.heldFor v.scene.now = v.now - out' :=
      Loan.heldFor_eq ho v.now
    exact ⟨hbound, by omega⟩
  · obtain rfl : out' = out := Option.some.inj (ho'.symm.trans ho)
    exact ⟨by omega, by omega⟩

/-- If there was no loan when the wait began, then all slots were taken, and
the alarm is set for the deadline alone. -/
theorem Began.full (hbegan : Began c s as id q since alarm v)
    (hset : SetsAlarm c v.scene q alarm) (hnil : v.pool.active = []) :
    v.pool.inFlight = c.maxActive ∧ alarm.due = Time.tick q.deadline := by
  obtain ⟨⟨before, -, hrun⟩, -⟩ := hbegan
  constructor
  · have hfull : ¬v.pool.active.length + v.pool.inFlight < c.maxActive :=
      of_decide_eq_false hset.full
    have hbound := (bounded_of_run hrun).1
    rw [hnil, List.length_nil] at hfull hbound
    omega
  · obtain ⟨wake, hwake, hdue⟩ := hset.due
    have hnone : v.pool.nextOverdue c.timeouts.checkout = .ok none := by
      rw [Pool.nextOverdue, hnil]
      rfl
    obtain rfl := Except.ok.inj (hwake.symm.trans hnone)
    exact hdue

/-- A task that waits began to do so when it looked at the pool and found
nothing to be had.  If some connection was on loan then, or if no request may
wait for longer than a loan may last, then no loan is overdue whenever the
world is at rest, and none was overdue at any earlier millisecond, whatever
happened meanwhile.  If no connection was on loan then, all slots were taken,
and the alarm is set for the deadline of the request alone, although
connections may have been lent since. -/
theorem in_time_of_run (hwhole : c.timeouts.checkout % Time.perMilli = 0)
    (h : Run c s as w) {t : Task} (ht : t ∈ w.tasks)
    (hstage : t.stage = .acquire q (.waiting since alarm)) :
    ∃ v, Began c s as t.id q since alarm v ∧
      (v.pool.active ≠ [] ∨ c.timeouts.wait ≤ c.timeouts.checkout →
        (w.atRest = true → ∀ loan ∈ w.pool.active,
          loan.heldFor w.now ≤ c.timeouts.checkout) ∧
        ∀ moment < w.now, moment % Time.perMilli = 0 →
          ∀ loan ∈ w.pool.active,
            loan.heldFor moment ≤ c.timeouts.checkout) ∧
      (v.pool.active = [] → v.pool.inFlight = c.maxActive ∧
        alarm.due = Time.tick q.deadline ∧
        ∀ loan ∈ w.pool.active, ∃ out,
          loan.entry.record.checkedOut = some out ∧ since ≤ out) := by
  have hx : (t.id, .acquire q (.waiting since alarm)) ∈ w.roll :=
    List.mem_map.2 ⟨t, ht, by rw [World.tag, hstage]⟩
  obtain ⟨v, hbegan, hset, -, hpast⟩ := began_of_run h hx
  obtain ⟨hnow, hdated⟩ := h.dated
  refine ⟨v, hbegan, fun hcase => ⟨fun hrest => ?_, fun moment hlt hm => ?_⟩,
    fun hnil => ?_⟩
  · have hlt := h.now_lt_alarm hx hrest
    intro loan hl
    obtain ⟨out, ho, -, hout⟩ := hdated loan hl
    obtain ⟨hdue, -⟩ := hbegan.due_le hset h hwhole hcase loan hl out ho
    rw [Loan.heldFor_eq ho]
    simp only [Time.perMilli] at hnow hout hwhole hdue
    omega
  · intro loan hl
    obtain ⟨out, ho, -, hout⟩ := hdated loan hl
    obtain ⟨hdue, hprompt⟩ := hbegan.due_le hset h hwhole hcase loan hl out ho
    rw [Loan.heldFor_eq ho]
    simp only [Time.perMilli] at hm hout hwhole hdue
    omega
  · obtain ⟨hfull, hdue⟩ := hbegan.full hset hnil
    refine ⟨hfull, hdue, fun loan hl => ?_⟩
    exact (hbegan.loans h loan hl).resolve_left fun hv => by
      rw [hnil] at hv
      cases hv

/-- One connection at most, which may be held for a moment, while a request
may wait for longer. -/
def briefLoans : Config :=
  { maxActive := 1, maxIdle := 1
    timeouts := { wait := Time.ofMillis 300, checkout := Time.ofMillis 50 } }

/-- A connection is lent, and then a task waits for a release until the loan
has lasted for as long as it may. -/
def lentAndWaiting : List Action :=
  [.advance (Time.ofMillis 50), .run 1, .run 1, .run 1, .start .acquire none,
    .run 0, .run 0, .run 0, .run 0, .run 0, .start .acquire none]

/-- The alarm goes off in a millisecond, and not before. -/
theorem in_time_lentAndWaiting :
    ∃ w v, Run briefLoans {} lentAndWaiting w ∧
      Began briefLoans {} lentAndWaiting 1 ⟨0, Time.ofMillis 300, 0⟩ 0
        ⟨Time.ofMillis 51, 1⟩ v ∧
      v.pool.active ≠ [] ∧ w.atRest = true ∧ w.now = Time.ofMillis 50 ∧
      ∀ loan ∈ w.pool.active, loan.heldFor w.now ≤ Time.ofMillis 50 := by
  have hex : ∃ w, Run briefLoans {} lentAndWaiting w ∧
      w.atRest = true ∧ w.now = Time.ofMillis 50 ∧
      ∃ t ∈ w.tasks, t.id = 1 ∧ t.stage =
        .acquire ⟨0, Time.ofMillis 300, 0⟩
          (.waiting 0 ⟨Time.ofMillis 51, 1⟩) :=
    Run.exists_of_replay rfl rfl (by decide +kernel)
  obtain ⟨w, h, hrest, hnow, t, ht, hid, hstage⟩ := hex
  obtain ⟨v, hbegan, hsome, hnone⟩ := in_time_of_run rfl h ht hstage
  have hlent : v.pool.active ≠ [] := fun hnil =>
    absurd (hnone hnil).2.1 (by decide)
  rw [hid] at hbegan
  exact ⟨w, v, h, hbegan, hlent, hrest, hnow, (hsome (.inl hlent)).1 hrest⟩

/-- A task waits for a release while the server opens the only connection for
another one, and until that has been lent for longer than it may be. -/
def waitingBeforeLent : List Action :=
  [.advance (Time.ofMillis 151), .run 0, .run 0, .advance (Time.ofMillis 100),
    .run 1, .run 1, .run 1, .start .acquire none,
    .run 0, .run 0, .run 0, .run 0, .start .acquire none,
    .changeServer { connect := { delay := some 100 } }]

/-- The one who waits does not take the connection, and fails in the end. -/
theorem exists_waiting_with_overdue :
    (∃ w, Run briefLoans {} waitingBeforeLent w ∧
      w.atRest = true ∧ w.now = Time.ofMillis 151 ∧
      (∃ t ∈ w.tasks, t.stage.isWaiting = true) ∧
      ∃ loan ∈ w.pool.active,
        briefLoans.timeouts.checkout < loan.heldFor w.now) ∧
    ∃ w, Run briefLoans {} (.advance (Time.ofMillis 300) :: waitingBeforeLent)
        w ∧
      (∃ loan ∈ w.pool.active,
        briefLoans.timeouts.checkout < loan.heldFor (Time.ofMillis 151)) ∧
      ∃ t ∈ w.tasks, t.stage.isWaiting = true ∧
        (w.resume t.id t.stage).1 =
          .finish (.failed (.exhausted (Time.ofMillis 300))) :=
  ⟨Run.exists_of_replay rfl rfl (by decide +kernel),
    Run.exists_of_replay rfl rfl (by decide +kernel)⟩

end Waits

end DatabasePool
