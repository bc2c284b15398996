import DatabasePool.Proofs.Capacity
import DatabasePool.Proofs.Turns

/-!
# Those who wait for a release

A task that waits for a release goes on when it is told by a ring.  A ring
goes to the task that has joined the signal first, and that may be one that
does not wait for a release at all, because it waits for the server.  Such a
task holds on to the ring until it is done, whatever comes back meanwhile.

So it may happen that a task waits while the pool has room for it, and even a
connection.  `Fair` says how far that can go: a place that is not taken is
owed to a ring that some task holds, or to a task that is about to look.

* `Fair.act` says that this is kept by all that happens.
* `free_le_told_of_run` is what it comes to when the world is at rest.
* `exists_waiting_with_idle` is a run in which a task waits while a connection
  is kept for later.
-/

namespace DatabasePool

/-- A task that has handed over to others, and is told when it waits for a
release, does not look at the pool. -/
theorem Stage.not_looking_of_suspended {s : Stage}
    (h : s.isSuspended = true) : s.isLooking = false := by
  cases s with
  | acquire r a => cases a <;> first | rfl | cases h
  | _ => rfl

/-- A task that has joined the signal and does not wait for a release has a
slot. -/
theorem Stage.hasSlot_of_hasJoined {s : Stage} (hj : s.hasJoined = true)
    (hw : s.isWaiting = false) : s.hasSlot = true := by
  cases s with
  | acquire r a =>
    cases a with
    | looking => cases hj
    | waiting since alarm => cases hw
    | _ => rfl
  | _ => cases hj

namespace World

/-- The number of tasks that are about to look at the pool. -/
def lookers (w : World) : Nat := w.tasks.countP (·.stage.isLooking)

/-- The task goes on in time: it can go on now, or it waits for something and
has not been told by a ring. -/
def Serves (w : World) (t : Task) : Prop :=
  t.id ∈ w.ready ∨ t.id ∈ w.yielded ∨
    t.stage.isSuspended = true ∧
      (t.stage.isWaiting = true → t.id ∈ w.signal.waiting)

/-- The task waits for a release and has not been told by a ring. -/
def Lacks (w : World) (t : Task) : Prop :=
  t.stage.isWaiting = true ∧ t.id ∈ w.signal.waiting

/-- All rings are accounted for: who is told goes on, those who have joined
the signal are there, and while one lacks a release, the places that are not
taken are owed to those who hold a ring or are about to look. -/
structure Fair (c : Config) (w : World) : Prop where
  distinct : w.Distinct
  config : w.config = c
  serves : ∀ t ∈ w.tasks, w.Serves t
  joined : ∀ t ∈ w.tasks, w.signal.members t.id ≤ t.stage.hasJoined.toNat
  known : ∀ i, 0 < w.signal.members i → ∃ t ∈ w.tasks, t.id = i
  owed : w.pool.shutDown = false → (∃ t ∈ w.tasks, w.Lacks t) →
    c.maxActive ≤ w.owed + w.lookers

/-- The same of a world in which one task is at work, with what that task is
to do next. -/
structure Midway (c : Config) (w : World) (t : Task) (flow : Flow) : Prop where
  distinct : w.Distinct
  config : w.config = c
  task : w.task? t.id = some t
  serves : ∀ u ∈ w.others t.id, w.Serves u
  members : ∀ u ∈ w.others t.id,
    w.signal.members u.id ≤ u.stage.hasJoined.toNat
  joined : w.signal.members t.id ≤ flow.hasJoined.toNat
  known : ∀ i ≠ t.id, 0 < w.signal.members i → ∃ u ∈ w.others t.id, u.id = i
  owed : w.pool.shutDown = false →
    (∃ u ∈ w.others t.id, w.Lacks u) ∨
      flow.isWaiting = true ∧ t.id ∈ w.signal.waiting →
    c.maxActive ≤ w.owed + (w.others t.id).countP (·.stage.isLooking) +
      flow.isLooking.toNat
  suspends : ∀ s, flow.waits? = some s → s.isSuspended = true ∧
    (s.isWaiting = true → t.id ∈ w.signal.waiting)

theorem lookers_eq {w : World} (h : w.Distinct) {t : Task} (ht : t ∈ w.tasks) :
    w.lookers =
      (w.others t.id).countP (·.stage.isLooking) + t.stage.isLooking.toNat := by
  rw [lookers, (h.perm_others ht).countP_eq, List.countP_cons]
  cases t.stage.isLooking <;> rfl

/-- A task still goes on in time if it is woken when it is told. -/
theorem Serves.imp {w v : World} {t : Task} (h : w.Serves t)
    (hready : t.id ∈ w.ready → t.id ∈ v.ready)
    (hyielded : t.id ∈ w.yielded → t.id ∈ v.yielded)
    (hwoken : t.stage.isWaiting = true → t.id ∈ w.signal.waiting →
      t.id ∈ v.signal.waiting ∨ t.id ∈ v.ready) : v.Serves t := by
  rcases h with hr | hy | ⟨hsusp, hwaits⟩
  · exact .inl (hready hr)
  · exact .inr (.inl (hyielded hy))
  · cases hw : t.stage.isWaiting with
    | false => exact .inr (.inr ⟨hsusp, by simp [hw]⟩)
    | true =>
      rcases hwoken hw (hwaits hw) with hm | hr
      · exact .inr (.inr ⟨hsusp, fun _ => hm⟩)
      · exact .inl hr

/-- A task does one thing in a world in which all rings are accounted for. -/
theorem Fair.midway {c : Config} {w : World} {t : Task} (h : w.Fair c)
    (ht : w.task? t.id = some t) :
    Midway c ({ w with ready := w.ready.erase t.id }.resume t.id t.stage).2 t
      ({ w with ready := w.ready.erase t.id }.resume t.id t.stage).1 := by
  have hturn := Turn.resume { w with ready := w.ready.erase t.id } t.id t.stage
  have hu := untouched_resume { w with ready := w.ready.erase t.id } t.id
    t.stage
  have hd : ({ w with ready := w.ready.erase t.id } : World).Distinct :=
    h.distinct.of_queues _ _
  have htmem := mem_of_task? ht
  generalize { w with ready := w.ready.erase t.id }.resume t.id t.stage = x
    at hturn hu
  have hothers : x.2.others t.id = w.others t.id := by
    simp only [others, hu.tasks]
  refine ⟨hd.of_untouched hu, hu.config.trans h.config, ?task, ?serves,
    ?members, ?joined, ?known, ?owed, hturn.suspends⟩
  case task =>
    simpa only [task?, hu.tasks] using ht
  case serves =>
    rw [hothers]
    intro u hu'
    obtain ⟨humem, hne⟩ := mem_others.1 hu'
    refine (h.serves u humem).imp (fun hr => ?_) (fun hy => hu.yielded ▸ hy)
      fun hw hm => hturn.woken hd u humem hne hw hm
    exact hturn.ready ((List.mem_erase_of_ne hne).2 hr)
  case members =>
    rw [hothers]
    intro u hu'
    obtain ⟨humem, hne⟩ := mem_others.1 hu'
    exact Nat.le_trans (hturn.members u.id hne) (h.joined u humem)
  case joined =>
    exact hturn.joined (h.joined t htmem)
  case known =>
    intro i hne hpos
    obtain ⟨u, humem, rfl⟩ := h.known i
      (Nat.lt_of_lt_of_le hpos (hturn.members i hne))
    exact ⟨u, hothers ▸ mem_others.2 ⟨humem, hne⟩, rfl⟩
  case owed =>
    rw [hothers]
    intro hup hlacks
    have hup' : w.pool.shutDown = false := by
      cases hdown : w.pool.shutDown with
      | false => rfl
      | true => exact absurd (hturn.shutDown hdown) (by simp [hup])
    have hne : x.2.signal.waiting ≠ [] := by
      rcases hlacks with ⟨u, -, -, hm⟩ | ⟨-, hm⟩
      · exact List.ne_nil_of_mem hm
      · exact List.ne_nil_of_mem hm
    rcases hturn.owed hne hup with hfull | ⟨hle, hwaits⟩
    · have hfull' : c.maxActive ≤ x.2.pool.load := h.config ▸ hfull
      rw [World.owed]
      omega
    · have hbefore : ∃ u ∈ w.tasks, w.Lacks u := by
        rcases hlacks with ⟨u, hu', hw, hm⟩ | ⟨hw, hm⟩
        · obtain ⟨humem, hne⟩ := mem_others.1 hu'
          exact ⟨u, humem, hw, hturn.waiting u.id hm hne⟩
        · obtain ⟨hw', hsignal⟩ := hwaits hw
          exact ⟨t, htmem, hw', hsignal ▸ hm⟩
      have howed := h.owed hup' hbefore
      rw [lookers_eq h.distinct htmem] at howed
      have hself : ({ w with ready := w.ready.erase t.id } : World).owed =
          w.owed := rfl
      omega

namespace Midway

variable {c : Config} {w : World} {t : Task}

/-- The task goes on in another stage. -/
theorem setStage {flow : Flow} {s : Stage} {ready yielded : List Nat}
    (h : Midway c w t flow) (hs : flow.stage? = some s)
    (hready : w.ready ⊆ ready) (hyielded : w.yielded ⊆ yielded)
    (hserves : t.id ∈ ready ∨ t.id ∈ yielded ∨ s.isSuspended = true ∧
      (s.isWaiting = true → t.id ∈ w.signal.waiting)) :
    Fair c { w.setStage t.id s with ready, yielded } := by
  have hd : (w.setStage t.id s).Distinct :=
    h.distinct.of_map_id (map_id_setStage ..) (Nat.le_refl _)
  have htask := task?_setStage s h.task
  have hmem : ∀ u ∈ (w.setStage t.id s).tasks,
      u = { t with stage := s } ∨ u ∈ w.others t.id := by
    intro u hu
    have hp := hd.perm_others (mem_of_task? htask)
    rw [others_setStage] at hp
    exact List.mem_cons.1 (hp.subset hu)
  have hback : ∀ u ∈ w.others t.id, u ∈ (w.setStage t.id s).tasks := by
    intro u hu
    rw [← others_setStage w t.id s] at hu
    exact (mem_others.1 hu).1
  refine ⟨hd.of_queues ready yielded, h.config, ?serves, ?joined, ?known,
    ?owed⟩
  case serves =>
    intro u hu
    rcases hmem u hu with rfl | hu
    · exact hserves
    · exact (h.serves u hu).imp (hready ·) (hyielded ·) fun _ hm => .inl hm
  case joined =>
    intro u hu
    rcases hmem u hu with rfl | hu
    · have hj := h.joined
      rwa [Flow.hasJoined, hs] at hj
    · exact h.members u hu
  case known =>
    intro i hpos
    by_cases hi : i = t.id
    · exact ⟨_, mem_of_task? htask, hi.symm⟩
    · obtain ⟨u, hu, he⟩ := h.known i hi hpos
      exact ⟨u, hback u hu, he⟩
  case owed =>
    rintro hup ⟨u, hu, hw, hm⟩
    have hlook : (w.setStage t.id s).lookers =
        (w.others t.id).countP (·.stage.isLooking) + flow.isLooking.toNat := by
      rw [lookers_eq hd (mem_of_task? htask), others_setStage,
        Flow.isLooking, hs]
      rfl
    have hle := h.owed hup (by
      rcases hmem u hu with rfl | hu
      · exact .inr ⟨by rw [Flow.isWaiting, hs]; exact hw, hm⟩
      · exact .inl ⟨u, hu, hw, hm⟩)
    rw [Nat.add_assoc, ← hlook] at hle
    exact hle

/-- The task is over. -/
theorem finish {o : Outcome} (h : Midway c w t (.finish o)) :
    Fair c (w.finish t.id o) := by
  refine ⟨(h.distinct.removeTask t.id).of_map_id rfl (Nat.le_refl _),
    h.config, ?serves, h.members, ?known, ?owed⟩
  case serves =>
    intro u hu
    have hne := (mem_others.1 hu).2
    refine (h.serves u hu).imp (fun hr => ?_) (fun hy => ?_)
      fun _ hm => .inl hm
    · exact List.mem_filter.2 ⟨hr, by simpa using hne⟩
    · exact List.mem_filter.2 ⟨hy, by simpa using hne⟩
  case known =>
    intro i hpos
    refine h.known i ?_ hpos
    rintro rfl
    exact Nat.lt_irrefl 0 (Nat.lt_of_lt_of_le hpos h.joined)
  case owed =>
    exact fun hup hlacks => h.owed hup (.inl hlacks)

end Midway

namespace Fair

variable {c : Config} {w : World}

/-- Only what is read here matters. -/
theorem of_eq {v : World} (h : w.Fair c) (hconfig : v.config = w.config)
    (hnext : v.nextTask = w.nextTask)
    (htasks : v.tasks.map (fun t => (t.id, t.stage)) =
      w.tasks.map (fun t => (t.id, t.stage)))
    (hgoes : ∀ t ∈ w.tasks, t.id ∈ w.ready ∨ t.id ∈ w.yielded →
      t.id ∈ v.ready ∨ t.id ∈ v.yielded)
    (hsignal : v.signal = w.signal) (hpool : v.pool = w.pool) : v.Fair c := by
  have hmem : ∀ u ∈ v.tasks, ∃ t ∈ w.tasks,
      t.id = u.id ∧ t.stage = u.stage := by
    intro u hu
    have hu' : (u.id, u.stage) ∈ w.tasks.map fun t => (t.id, t.stage) :=
      htasks ▸ List.mem_map.2 ⟨u, hu, rfl⟩
    obtain ⟨t, ht, he⟩ := List.mem_map.1 hu'
    exact ⟨t, ht, Prod.mk.inj he⟩
  have hids : v.tasks.map (·.id) = w.tasks.map (·.id) := by
    have hmap := congrArg (List.map Prod.fst) htasks
    simpa only [List.map_map, Function.comp_def] using hmap
  have hlookers : v.lookers = w.lookers := by
    have hcount := congrArg (List.countP fun x => x.2.isLooking) htasks
    simpa only [lookers, List.countP_map, Function.comp_def] using hcount
  refine ⟨h.distinct.of_map_id hids (Nat.le_of_eq hnext.symm),
    hconfig.trans h.config, ?serves, ?joined, ?known, ?owed⟩
  case serves =>
    intro u hu
    obtain ⟨t, ht, hid, hstage⟩ := hmem u hu
    have hs := or_assoc.1 ((or_assoc.2 (h.serves t ht)).imp_left (hgoes t ht))
    rw [hid, hstage] at hs
    rw [Serves, hsignal]
    exact hs
  case joined =>
    intro u hu
    obtain ⟨t, ht, hid, hstage⟩ := hmem u hu
    rw [hsignal, ← hid, ← hstage]
    exact h.joined t ht
  case known =>
    intro i hpos
    rw [hsignal] at hpos
    obtain ⟨t, ht, rfl⟩ := h.known i hpos
    have ht' : t.id ∈ v.tasks.map (·.id) := hids ▸ List.mem_map_of_mem ht
    obtain ⟨u, hu, he⟩ := List.mem_map.1 ht'
    exact ⟨u, hu, he⟩
  case owed =>
    rintro hup ⟨u, hu, hw, hm⟩
    obtain ⟨t, ht, hid, hstage⟩ := hmem u hu
    rw [hpool] at hup
    rw [hsignal, ← hid] at hm
    rw [hlookers, World.owed, hpool, hsignal]
    exact h.owed hup ⟨t, ht, hstage ▸ hw, hm⟩

theorem note (h : w.Fair c) (e : Event) : (w.note e).Fair c :=
  h.of_eq rfl rfl rfl (fun _ _ hgo => hgo) rfl rfl

theorem timed {v : World} {id : Nat} (h : w.Fair c) (hv : Timed w id v) :
    v.Fair c := by
  obtain ⟨hconfig, -, hpool, -, hsignal, -, hready, hyielded, -⟩ := hv.frame
  refine h.of_eq hconfig hv.nextTask hv.map_stage (fun t _ hgo => ?_) hsignal
    hpool
  rwa [hready, hyielded]

/-- A number that has not been given is not among those who joined. -/
theorem members_nextTask (h : w.Fair c) :
    w.signal.members w.nextTask = 0 := by
  refine Nat.eq_zero_of_not_pos fun hpos => ?_
  obtain ⟨t, ht, he⟩ := h.known w.nextTask hpos
  exact Nat.lt_irrefl _ (he ▸ h.distinct.lt t ht)

theorem spawn (h : w.Fair c) {s : Stage} (limit : Option Limit)
    (hw : s.isWaiting = false) : (w.spawn s limit).Fair c := by
  refine ⟨h.distinct.spawn s limit, h.config, ?serves, ?joined, ?known,
    ?owed⟩
  case serves =>
    intro u hu
    rcases List.mem_append.1 hu with hu | hu
    · exact (h.serves u hu).imp_left (List.mem_append_left _ ·)
    · obtain rfl := List.mem_singleton.1 hu
      exact .inl (List.mem_append_right _ List.mem_cons_self)
  case joined =>
    intro u hu
    rcases List.mem_append.1 hu with hu | hu
    · exact h.joined u hu
    · obtain rfl := List.mem_singleton.1 hu
      exact Nat.le_trans (Nat.le_of_eq h.members_nextTask) (Nat.zero_le _)
  case known =>
    intro i hpos
    obtain ⟨t, ht, he⟩ := h.known i hpos
    exact ⟨t, List.mem_append_left _ ht, he⟩
  case owed =>
    rintro hup ⟨u, hu, huw, hm⟩
    have hle : w.lookers ≤ (w.spawn s limit).lookers := by
      rw [lookers, lookers, World.spawn, List.countP_append]
      exact Nat.le_add_right ..
    rcases List.mem_append.1 hu with hu | hu
    · exact Nat.le_trans (h.owed hup ⟨u, hu, huw, hm⟩)
        (Nat.add_le_add_left hle _)
    · obtain rfl := List.mem_singleton.1 hu
      rw [hw] at huw
      cases huw

/-- A task is dropped that has handed over to others. -/
theorem dropTask (h : w.Fair c) {t : Task} (ht : w.task? t.id = some t)
    (hsusp : t.stage.isSuspended = true) (outside : Bool) :
    (w.dropTask outside t).Fair c := by
  have hp := passes_dropStage t.id w outside t.stage
  have htmem := mem_of_task? ht
  have hzero := members_dropStage outside (h.joined t htmem)
  have htasks := dropTask_tasks outside (h.distinct.lt t htmem)
  have hstray : ∀ u ∈ w.strays outside t.stage,
      u.id = w.nextTask ∧ u.stage.isWaiting = false := by
    intro u hu
    unfold strays at hu
    split at hu
    · cases hu
    · obtain ⟨e, -, rfl⟩ := List.mem_map.1 hu
      exact ⟨rfl, rfl⟩
  have hkeep : ∀ {i : Nat} {is : List Nat}, i ≠ t.id → i ∈ is →
      i ∈ is.filter (· != t.id) :=
    fun hne hi => List.mem_filter.2 ⟨hi, by simpa using hne⟩
  have hlt := h.distinct.lt t htmem
  refine ⟨h.distinct.dropTask outside t,
    (dropStage_frame w outside t.id t.stage).1.trans h.config, ?serves,
    ?joined, ?known, ?owed⟩
  case serves =>
    rw [htasks]
    intro u hu
    rcases List.mem_append.1 hu with hu | hu
    · obtain ⟨humem, hne⟩ := mem_others.1 hu
      refine (h.serves u humem).imp (fun hr => hkeep hne (hp.ready hr))
        (fun hy => hkeep hne ?_) fun hw hm => ?_
      · rwa [(dropStage_frame w outside t.id t.stage).2.2.2.2]
      · exact (hp.woken h.distinct u humem hne hw hm).imp_right (hkeep hne)
    · have hne : u.id ≠ t.id := by
        rw [(hstray u hu).1]
        omega
      exact .inl (hkeep hne (strays_ready t.id w outside t.stage u hu))
  case joined =>
    rw [htasks]
    intro u hu
    rcases List.mem_append.1 hu with hu | hu
    · exact Nat.le_trans (hp.members u.id) (h.joined u (mem_others.1 hu).1)
    · refine Nat.le_trans (hp.members u.id) ?_
      rw [(hstray u hu).1, h.members_nextTask]
      exact Nat.zero_le _
  case known =>
    intro i hpos
    obtain ⟨u, hu, rfl⟩ := h.known i (Nat.lt_of_lt_of_le hpos (hp.members i))
    have hne : u.id ≠ t.id := fun he => Nat.ne_of_gt hpos (he ▸ hzero)
    exact ⟨u, htasks ▸ List.mem_append_left _ (mem_others.2 ⟨hu, hne⟩), rfl⟩
  case owed =>
    rw [htasks]
    rintro hup ⟨u, hu, hw, hm⟩
    have hup' : w.pool.shutDown = false := by
      cases hdown : w.pool.shutDown with
      | false => rfl
      | true => cases (hp.shutDown hdown).symm.trans hup
    rcases List.mem_append.1 hu with hu | hu
    · have hle := h.owed hup' ⟨u, (mem_others.1 hu).1, hw, hp.waiting hm⟩
      have howed := hp.owed (List.ne_nil_of_mem hm)
      rw [lookers_eq h.distinct htmem,
        Stage.not_looking_of_suspended hsusp] at hle
      have hlook : (w.others t.id).countP (·.stage.isLooking) ≤
          (w.dropTask outside t).lookers := by
        rw [lookers, htasks, List.countP_append]
        exact Nat.le_add_right ..
      have hsame : (w.dropTask outside t).owed =
          (w.dropStage outside t.id t.stage).owed := rfl
      simp only [Bool.toNat_false] at hle
      omega
    · rw [(hstray u hu).2] at hw
      cases hw

theorem checkLimit (h : w.Fair c) {t : Task} (ht : w.task? t.id = some t)
    (hsusp : t.stage.isSuspended = true) : (w.checkLimit t.id).Fair c := by
  have hx := checks ht
  generalize w.checkLimit t.id = v at hx
  cases hx with
  | stays hv => exact h.timed hv
  | dropped hv =>
    obtain ⟨limit, hu⟩ := hv.task? ht
    exact ((h.timed hv).dropTask (t := { t with limit }) hu hsusp _).note _

/-- A task does one thing. -/
theorem run (h : w.Fair c) {t : Task} (ht : w.task? t.id = some t) :
    ({ w with ready := w.ready.erase t.id }.run t.id).Fair c := by
  have hm := h.midway ht
  have htask : ({ w with ready := w.ready.erase t.id } : World).task? t.id =
    some t := ht
  unfold World.run
  rw [htask]
  dsimp only
  generalize { w with ready := w.ready.erase t.id }.resume t.id t.stage = x
    at hm
  obtain ⟨flow, v⟩ := x
  cases flow with
  | again s =>
    exact hm.setStage rfl (List.subset_cons_self ..) (List.Subset.refl _)
      (.inl List.mem_cons_self)
  | pause s =>
    have hs := hm.setStage rfl (List.Subset.refl _) (List.Subset.refl _)
      (.inr (.inr (hm.suspends s rfl)))
    exact hs.checkLimit (t := { t with stage := s })
      (task?_setStage s hm.task) (hm.suspends s rfl).1
  | yield s =>
    have hs : Fair c { v.setStage t.id s with yielded := t.id :: v.yielded } :=
      hm.setStage rfl (List.Subset.refl _) (List.subset_cons_self ..)
        (.inr (.inl List.mem_cons_self))
    exact hs.checkLimit (t := { t with stage := s })
      (task?_setStage s hm.task) (hm.suspends s rfl).1
  | finish o => exact hm.finish

theorem act {w' : World} {a : Action} (h : w.Fair c)
    (ha : w.act a = some w') : w'.Fair c := by
  cases a with
  | run id =>
    simp only [World.act] at ha
    split at ha
    · cases ha
      cases ht : w.task? id with
      | none =>
        have htask : ({ w with ready := w.ready.erase id } : World).task? id =
          none := ht
        unfold World.run
        rw [htask]
        refine h.of_eq rfl rfl rfl (fun t htmem hgo => ?_) rfl rfl
        have hne : t.id ≠ id := by
          rintro rfl
          rw [h.distinct.task?_eq htmem] at ht
          cases ht
        exact hgo.imp_left (List.mem_erase_of_ne hne).2
      | some t =>
        obtain rfl := id_of_task? ht
        exact h.run ht
    · cases ha
  | rouse =>
    simp only [World.act] at ha
    split at ha
    · rename_i hready
      cases ha
      refine h.of_eq rfl rfl rfl (fun t _ hgo => ?_) rfl rfl
      rw [hready] at hgo
      exact .inl (hgo.resolve_left List.not_mem_nil)
    · cases ha
  | start op limit =>
    simp only [World.act, World.start] at ha
    split at ha
    · cases ha
      exact h.spawn limit rfl
    · cases ha
  | cancel outside id =>
    simp only [World.act] at ha
    split at ha
    · cases ha
    · rename_i t ht
      split at ha
      · rename_i hsusp
        cases ha
        obtain rfl := id_of_task? ht
        exact (h.dropTask ht hsusp outside).note _
      · cases ha
  | forget outside lease =>
    cases ha
    have hrevoke : (w.revoke lease).Fair c :=
      h.of_eq rfl rfl rfl (fun _ _ hgo => hgo) rfl rfl
    unfold forget
    split
    · dsimp only
      split
      · exact hrevoke
      · exact hrevoke.spawn none rfl
    · exact h
  | changeServer _ | markClosed _ _ | markManual _ _ =>
    cases ha
    exact h.of_eq rfl rfl rfl (fun _ _ hgo => hgo) rfl rfl
  | advance moment =>
    simp only [World.act] at ha
    split at ha
    · rename_i hrest
      cases ha
      obtain ⟨ready, he⟩ := advanceTo_eq w moment
      rw [he]
      refine h.of_eq rfl rfl rfl (fun t _ hgo => ?_) rfl rfl
      simp only [atRest, Bool.and_eq_true, List.isEmpty_iff] at hrest
      rw [hrest.1.1.1.1, hrest.1.1.1.2] at hgo
      simp at hgo
    · cases ha

end Fair

/-- All rings are accounted for after every run. -/
theorem fair_of_run {s : Server} {c : Config} {as : List Action} {w : World}
    (h : Run c s as w) : w.Fair c := by
  refine h.induct (fun _ _ => ?_) Fair.act
  refine ⟨⟨List.Pairwise.nil, by simp [World.new]⟩, rfl, by simp [World.new],
    by simp [World.new], by simp [World.new, Signal.members], ?_⟩
  rintro - ⟨t, ht, -⟩
  cases ht

/-- When all is at rest, each task has handed over to others, and has not been
told if it waits for a release. -/
theorem Fair.suspended {c : Config} {w : World} (h : w.Fair c)
    (hrest : w.atRest = true) {t : Task} (ht : t ∈ w.tasks) :
    t.stage.isSuspended = true ∧
      (t.stage.isWaiting = true → t.id ∈ w.signal.waiting) := by
  obtain ⟨hready, hyielded⟩ := atRest_iff.1 hrest
  rcases h.serves t ht with hr | hy | hs
  · rw [hready] at hr
    cases hr
  · rw [hyielded] at hy
    cases hy
  · exact hs

/-- When all is at rest, the rings are held by tasks that have joined the
signal and do not wait for a release. -/
theorem Fair.told {c : Config} {w : World} (h : w.Fair c)
    (hrest : w.atRest = true) {i : Nat} (hi : i ∈ w.signal.told) :
    ∃ u ∈ w.tasks, u.id = i ∧ u.stage.hasJoined = true ∧
      u.stage.isWaiting = false := by
  have htold : 0 < w.signal.told.count i := List.count_pos_iff.2 hi
  have hpos : 0 < w.signal.members i := Nat.lt_of_lt_of_le htold
    (Nat.le_add_left ..)
  obtain ⟨u, hu, rfl⟩ := h.known i hpos
  have hle := h.joined u hu
  refine ⟨u, hu, rfl, ?_, ?_⟩
  · cases hj : u.stage.hasJoined with
    | true => rfl
    | false =>
      rw [hj] at hle
      exact absurd hpos (Nat.not_lt.2 hle)
  · cases hw : u.stage.isWaiting with
    | false => rfl
    | true =>
      have hmem := List.count_pos_iff.2 ((h.suspended hrest hu).2 hw)
      have hone := Bool.toNat_le u.stage.hasJoined
      rw [Signal.members] at hle
      omega

/-- When all is at rest, no task looks at the pool. -/
theorem Fair.lookers_eq_zero {c : Config} {w : World} (h : w.Fair c)
    (hrest : w.atRest = true) : w.lookers = 0 := by
  rw [lookers, List.countP_eq_zero]
  intro t ht
  have hs := (h.suspended hrest ht).1
  simp [Stage.not_looking_of_suspended hs]

end World

/-- When all is at rest, each ring that is held is held by a task that has a
slot.  No task holds two, so they are not more than the slots. -/
theorem told_length_le {c : Config} {s : Server} {as : List Action}
    {w : World} (h : Run c s as w) (hrest : w.atRest = true) :
    w.signal.told.length ≤ w.pool.inFlight := by
  have hfair := World.fair_of_run h
  have hnodup : w.signal.told.Nodup := by
    refine List.nodup_iff_count_le_one.2 fun i => ?_
    by_cases hi : i ∈ w.signal.told
    · obtain ⟨u, hu, rfl, -⟩ := hfair.told hrest hi
      have hle := hfair.joined u hu
      have hone := Bool.toNat_le u.stage.hasJoined
      rw [Signal.members] at hle
      omega
    · rw [List.count_eq_zero_of_not_mem hi]
      exact Nat.zero_le 1
  have hsub : w.signal.told ⊆
      (w.tasks.filter (·.stage.hasSlot)).map (·.id) := by
    intro i hi
    obtain ⟨u, hu, rfl, hjoined, hwaits⟩ := hfair.told hrest hi
    exact List.mem_map_of_mem (List.mem_filter.2
      ⟨hu, Stage.hasSlot_of_hasJoined hjoined hwaits⟩)
  have hle := (List.Nodup.subperm hnodup hsub).length_le
  have hslots := (capped_of_run h).slots
  rw [List.length_map, ← List.countP_eq_length_filter] at hle
  simp only [World.books, World.hands, List.countP_map, Function.comp_def,
    Stage.hasSlot_hand] at hslots
  omega

/-- When all is at rest and a task waits for a release, then the places that
are not taken are no more than the rings held by tasks that do not wait for
one; so if there are none of these, no connection is kept and all places are
taken.  That is always so if there is but one place.  And when a task is about
to fail because its time is over, then the connections that are kept are no
more than the rings that are held and the tasks that are about to look. -/
theorem free_le_told_of_run {c : Config} {s : Server} {as : List Action}
    {w : World} (h : Run c s as w) (hup : w.pool.shutDown = false) {t : Task}
    (ht : t ∈ w.tasks) :
    (w.atRest = true → t.stage.isWaiting = true →
      (∀ i ∈ w.signal.told, ∃ u ∈ w.tasks, u.id = i ∧
        u.stage.hasJoined = true ∧ u.stage.isWaiting = false) ∧
      w.signal.told.length ≤ w.pool.inFlight ∧
      c.maxActive ≤
        w.pool.active.length + w.pool.inFlight + w.signal.told.length ∧
      (w.signal.told = [] ∨ c.maxActive = 1 → w.pool.idle = [] ∧
        w.pool.active.length + w.pool.inFlight = c.maxActive)) ∧
    (∀ span, (w.resume t.id t.stage).1 = .finish (.failed (.exhausted span)) →
      w.pool.idle.length ≤ w.signal.told.length + w.lookers) := by
  have hfair := World.fair_of_run h
  obtain ⟨-, -, htotal, -⟩ := bounded_of_run h
  constructor
  · intro hrest hwaits
    have hslots := told_length_le h hrest
    have hlacks := (hfair.suspended hrest ht).2 hwaits
    have howed := hfair.owed hup ⟨t, ht, hwaits, hlacks⟩
    rw [hfair.lookers_eq_zero hrest] at howed
    simp only [World.owed, Pool.load] at howed
    refine ⟨fun i hi => hfair.told hrest hi, hslots, howed, fun hfew => ?_⟩
    have hfull : c.maxActive ≤ w.pool.active.length + w.pool.inFlight := by
      rcases hfew with hnil | hone
      · rw [hnil, List.length_nil] at howed
        exact howed
      · omega
    have hidle : w.pool.idle.length = 0 := by omega
    exact ⟨List.length_eq_zero_iff.1 hidle, by omega⟩
  · intro span hover
    have hlacks := (World.Turn.resume w t.id t.stage).exhausted span hover
    have howed := hfair.owed hup ⟨t, ht, hlacks⟩
    simp only [World.owed, Pool.load] at howed
    omega

/-- Two connections at most, and no request waits for more than a moment. -/
def twoAtMost : Config :=
  { maxActive := 2, maxIdle := 1, timeouts := { wait := Time.ofMillis 100 } }

/-- The server takes half a second to open a connection. -/
def slowToConnect : ServerChange := { connect := { delay := some 500 } }

/-- A connection is lent.  Then a task waits for the server to open another
one, and a third task waits for a release. -/
def openingAndWaiting : List Action :=
  [.run 2, .run 2, .run 2, .start .acquire none,
    .run 1, .run 1, .run 1, .run 1, .start .acquire none,
    .changeServer slowToConnect,
    .run 0, .run 0, .run 0, .run 0, .run 0, .start .acquire none]

/-- As long as nothing comes back, the one who waits does so for good
reason. -/
theorem free_le_told_openingAndWaiting :
    ∃ w, Run twoAtMost {} openingAndWaiting w ∧
      (∃ t ∈ w.tasks, t.stage.isWaiting = true) ∧ w.pool.idle = [] ∧
        w.pool.active.length + w.pool.inFlight = 2 := by
  have hex : ∃ w, Run twoAtMost {} openingAndWaiting w ∧
      w.pool.shutDown = false ∧ w.atRest = true ∧ w.signal.told = [] ∧
        ∃ t ∈ w.tasks, t.stage.isWaiting = true :=
    Run.exists_of_replay rfl rfl (by decide)
  obtain ⟨w, h, hup, hrest, hnil, t, ht, hwaits⟩ := hex
  have hfull := (free_le_told_of_run h hup ht).1 hrest hwaits
  exact ⟨w, h, ⟨t, ht, hwaits⟩, hfull.2.2.2 (.inl hnil)⟩

/-- And then the connection comes back. -/
def givenBackTooEarly : List Action :=
  .run 3 :: .run 3 :: .run 3 :: .start (.close 0) none :: openingAndWaiting

/-- The ring goes to the task that waits for the server.  The other one goes
on waiting, and fails in the end, while the connection is there. -/
theorem exists_waiting_with_idle :
    (∃ w, Run twoAtMost {} givenBackTooEarly w ∧
      w.atRest = true ∧ w.pool.shutDown = false ∧
      (∃ t ∈ w.tasks, t.stage.isWaiting = true) ∧
      w.pool.idle ≠ [] ∧ w.pool.active.length + w.pool.inFlight < 2) ∧
    ∃ w, Run twoAtMost {} (.advance (Time.ofMillis 100) :: givenBackTooEarly)
        w ∧ w.pool.idle ≠ [] ∧
      ∃ t ∈ w.tasks, (w.resume t.id t.stage).1 =
        .finish (.failed (.exhausted (Time.ofMillis 100))) :=
  ⟨Run.exists_of_replay rfl rfl (by decide),
    Run.exists_of_replay rfl rfl (by decide +kernel)⟩

end DatabasePool
