import DatabasePool.Proofs.Capacity
import DatabasePool.Proofs.Happenings

/-!
# Slots are taken and given back

A task takes a slot for a connection that is in neither list of the pool, and
however the task ends, it gives that slot back: with a loan, with an error, or
by being dropped.  The pool only counts, so a slot that is given back twice
would give room to one connection too many, and one that is never given back
would take it away for good.

* `Does.inFlight_eq` says that a task which does one thing changes the count
  just as it takes or gives back a slot itself.
* `slots_of_run` says that the count is right after every run, and that each
  task has given back what it took, apart from the slot that it has.
-/

namespace DatabasePool

/-- A slot is taken in the stage in which the task goes on. -/
def Flow.hasSlot (f : Flow) : Bool := f.hand.hasSlot

/-- A task changes the count as it takes a slot or gives one back. -/
theorem Does.inFlight_eq {c : Config} {V V' : Scene} {s : Stage} {flow : Flow}
    {closes : List Nat} (h : Does c V s flow closes V')
    (hpos : s.hasSlot = true → 0 < V.pool.inFlight) :
    V'.pool.inFlight + s.hasSlot.toNat =
      V.pool.inFlight + flow.hasSlot.toNat := by
  have hfree : s.hand.hasSlot = true → flow.hand.hasSlot = false →
      V.pool.inFlight - 1 + s.hasSlot.toNat =
        V.pool.inFlight + flow.hasSlot.toNat := by
    intro hs hf
    rw [Stage.hasSlot_hand] at hs
    have := hpos hs
    rw [Flow.hasSlot, hs, hf, Bool.toNat_true, Bool.toNat_false]
    omega
  cases h with
  | stay hhand => rw [Flow.hasSlot, hhand, Stage.hasSlot_hand]
  | closePhysical | mark | callIn | dial | wait | tooLate | connect => rfl
  | take | makeRoom | claim => rfl
  | giveUp hroom => exact hfree (by rw [hroom]; rfl) rfl
  | lend => exact hfree rfl rfl
  | discard hentry hclosing =>
    rw [Flow.hasSlot, hclosing, ← Stage.hasSlot_hand, hentry]
    rfl
  | free hclosing hnothing =>
    exact hfree (by rw [hclosing]; rfl) (by rw [hnothing]; rfl)
  | giveBack hperm hentry =>
    rw [Flow.hasSlot, hentry]
    rfl
  | turnAway hperm hclosing =>
    rw [Flow.hasSlot, hclosing]
    rfl
  | store => exact hfree rfl rfl
  | invalidate | setOptions | shutDown => rfl
  | close hflow =>
    obtain rfl | ⟨calls, rfl⟩ := hflow <;> rfl

/-- A task that is dropped gives its slot back. -/
theorem Scene.inFlight_drop {V : Scene} {s : Stage} (outside : Bool)
    (hpos : s.hasSlot = true → 0 < V.pool.inFlight) :
    (V.drop outside s).pool.inFlight + s.hasSlot.toNat = V.pool.inFlight := by
  cases hs : s.hasSlot with
  | false => simp [Scene.drop, hs]
  | true =>
    have := hpos hs
    simp only [Scene.drop, hs, if_true, Pool.free, Bool.toNat_true]
    omega

/-! ## The slots of one task -/

/-- The number of slots that a task has, by the roll. -/
def slotsIn (id : Nat) (roll : List (Nat × Stage)) : Nat :=
  roll.countP fun x => x.1 == id && x.2.hasSlot

theorem slotsIn_cons (id i : Nat) (s : Stage) (roll : List (Nat × Stage)) :
    slotsIn id ((i, s) :: roll) =
      slotsIn id roll + if i = id then s.hasSlot.toNat else 0 := by
  rw [slotsIn, List.countP_cons, ← slotsIn]
  cases hs : s.hasSlot <;> simp

theorem slotsIn_flow (id i : Nat) (flow : Flow) (roll : List (Nat × Stage)) :
    slotsIn id (flow.stage?.toList.map (i, ·) ++ roll) =
      slotsIn id roll + if i = id then flow.hasSlot.toNat else 0 := by
  have hcons : ∀ s : Stage, s.hand.hasSlot = flow.hasSlot →
      slotsIn id ((i, s) :: roll) =
        slotsIn id roll + if i = id then flow.hasSlot.toNat else 0 := by
    intro s hs
    rw [slotsIn_cons, ← hs, Stage.hasSlot_hand]
  cases flow with
  | finish o => simp [Flow.stage?, Flow.hasSlot, Flow.hand, Hand.hasSlot]
  | again s | pause s | yield s => exact hcons s rfl

/-- The task that closes what another one had has no slot. -/
theorem slotsIn_strays (id n : Nat) (s : Stage) (outside : Bool)
    (roll : List (Nat × Stage)) :
    slotsIn id ((s.strays outside).map (n, ·) ++ roll) = slotsIn id roll := by
  have hzero : slotsIn id ((s.strays outside).map (n, ·)) = 0 := by
    refine List.countP_eq_zero.2 fun y hy => ?_
    obtain ⟨s', hs', rfl⟩ := List.mem_map.1 hy
    obtain ⟨conn, rfl⟩ := Stage.mem_strays hs'
    simp [Stage.hasSlot]
  rw [slotsIn, List.countP_append, ← slotsIn, hzero, Nat.zero_add]
  rfl

namespace World

/-- The number of slots that a task has. -/
def slotsOf (w : World) (id : Nat) : Nat :=
  w.tasks.countP fun t => t.id == id && t.stage.hasSlot

/-- The number of slots of the task that an action is about. -/
def slotsBy (w : World) (a : Action) : Nat := a.task?.elim 0 w.slotsOf

theorem slotsOf_eq (w : World) (id : Nat) :
    w.slotsOf id = slotsIn id w.roll := by
  rw [slotsIn, roll, List.countP_map]
  rfl

end World

/-- An action changes the count as the task that it is about takes a slot or
gives one back, and no other task takes a slot or gives one back. -/
theorem Happens.slots {c : Config} {w w' : World} {a : Action}
    {closes : List Nat} (h : Happens c w w' a closes)
    (hpos : ∀ x ∈ w.roll, x.2.hasSlot = true → 0 < w.pool.inFlight) :
    w'.pool.inFlight + w.slotsBy a = w.pool.inFlight + w'.slotsBy a ∧
      ∀ id, a.task? ≠ some id → w'.slotsOf id = w.slotsOf id := by
  have hone : ∀ {i : Nat} {b : Bool} {s : Stage} {rest : List (Nat × Stage)},
      a.task? = some i → w.roll.Perm ((i, s) :: rest) →
      (∀ id, slotsIn id w'.roll =
        slotsIn id rest + if i = id then b.toNat else 0) →
      w'.pool.inFlight + s.hasSlot.toNat = w.pool.inFlight + b.toNat →
      w'.pool.inFlight + w.slotsBy a = w.pool.inFlight + w'.slotsBy a ∧
        ∀ id, a.task? ≠ some id → w'.slotsOf id = w.slotsOf id := by
    intro i b s rest ha hbefore hafter hcount
    have hroll : ∀ id, slotsIn id w.roll =
        slotsIn id rest + if i = id then s.hasSlot.toNat else 0 := fun id => by
      rw [slotsIn, hbefore.countP_eq, ← slotsIn, slotsIn_cons]
    constructor
    · simp only [World.slotsBy, ha, Option.elim, World.slotsOf_eq, hroll i,
        hafter i, if_true]
      omega
    · intro id hne
      have hi : i ≠ id := fun he => hne (he ▸ ha)
      rw [World.slotsOf_eq, World.slotsOf_eq, hroll, hafter, if_neg hi,
        if_neg hi]
  have hnone : (∀ id, slotsIn id w'.roll = slotsIn id w.roll) →
      w'.pool.inFlight = w.pool.inFlight →
      w'.pool.inFlight + w.slotsBy a = w.pool.inFlight + w'.slotsBy a ∧
        ∀ id, a.task? ≠ some id → w'.slotsOf id = w.slotsOf id := by
    intro hroll hcount
    have hslots : ∀ id, w'.slotsOf id = w.slotsOf id := fun id => by
      rw [World.slotsOf_eq, World.slotsOf_eq, hroll]
    refine ⟨?_, fun id _ => hslots id⟩
    cases ha : a.task? <;>
      simp only [World.slotsBy, ha, Option.elim, hslots, hcount]
  have hpool : ∀ {V : Scene}, w'.scene = V →
      w'.pool.inFlight = V.pool.inFlight := by
    rintro V rfl
    rfl
  cases h with
  | @work i s flow _ rest hbefore hdoes hafter =>
    have hs := hpos _ (hbefore.mem_iff.2 List.mem_cons_self)
    refine hone rfl hbefore (fun id => ?_) (hdoes.inFlight_eq hs)
    rw [slotsIn, hafter.countP_eq, ← slotsIn, slotsIn_flow]
  | @cutOff i n s s' flow _ V outside rest hbefore hdoes hwaits _ hscene
      hafter =>
    have hs := hpos _ (hbefore.mem_iff.2 List.mem_cons_self)
    have hcount : V.pool.inFlight + s.hasSlot.toNat =
        w.pool.inFlight + flow.hasSlot.toNat := hdoes.inFlight_eq hs
    have hslot : flow.hasSlot = s'.hasSlot := by
      rw [← s'.hasSlot_hand]
      cases flow with
      | pause _ | yield _ => cases hwaits; rfl
      | _ => cases hwaits
    refine hone (b := false) rfl hbefore (fun id => ?_) ?_
    · rw [slotsIn, hafter.countP_eq, ← slotsIn, slotsIn_strays]
      simp
    · rw [hslot] at hcount
      have hpos' : s'.hasSlot = true → 0 < V.pool.inFlight := by
        intro hs'
        rw [hs', Bool.toNat_true] at hcount
        cases hb : s.hasSlot with
        | false =>
          rw [hb, Bool.toNat_false] at hcount
          omega
        | true =>
          have := hs hb
          rw [hb, Bool.toNat_true] at hcount
          omega
      have hdrop := V.inFlight_drop outside hpos'
      rw [hpool hscene, Bool.toNat_false]
      omega
  | @drop i n s outside rest hbefore _ hscene hafter =>
    have hs := hpos _ (hbefore.mem_iff.2 List.mem_cons_self)
    refine hone (b := false) rfl hbefore (fun id => ?_) ?_
    · rw [slotsIn, hafter.countP_eq, ← slotsIn, slotsIn_strays]
      simp
    · rw [hpool hscene]
      exact Scene.inFlight_drop outside hs
  | start hscene hafter =>
    refine hnone (fun id => ?_) (hpool hscene)
    rw [slotsIn, hafter.countP_eq, ← slotsIn, slotsIn_cons]
    simp [Stage.hasSlot]
  | forget hscene hafter =>
    refine hnone (fun id => ?_) (hpool hscene)
    rw [slotsIn, hafter.countP_eq, ← slotsIn, slotsIn_cons]
    simp [Stage.hasSlot, Return.hasSlot]
  | forgetOutside hscene hafter | change hscene hafter
  | pass _ hscene hafter | quiet hscene hafter =>
    exact hnone (fun id => by rw [hafter]) (hpool hscene)

/-! ## Runs -/

namespace World

/-- An action by which the count went up: the task that did it, once for each
slot. -/
def slotsTakenBy (w : World) (a : Action) (w' : World) : List Nat :=
  a.task?.toList.flatMap
    (List.replicate (w'.pool.inFlight - w.pool.inFlight))

/-- An action by which the count went down: the task that did it or was
dropped, once for each slot. -/
def slotsGivenBackBy (w : World) (a : Action) (w' : World) : List Nat :=
  a.task?.toList.flatMap
    (List.replicate (w.pool.inFlight - w'.pool.inFlight))

/-- The tasks that took slots in a run, the last one in front. -/
def slotsTaken (w : World) (as : List Action) : List Nat :=
  w.along slotsTakenBy as

/-- The tasks that gave back slots in a run, the last one in front. -/
def slotsGivenBack (w : World) (as : List Action) : List Nat :=
  w.along slotsGivenBackBy as

end World

section Runs

variable {c : Config} {s : Server} {as : List Action} {w : World}

/-- The count is that of the tasks with slots. -/
theorem inFlight_eq_of_run (h : Run c s as w) :
    w.pool.inFlight = w.tasks.countP (·.stage.hasSlot) := by
  have hslots := (capped_of_run h).slots
  simp only [World.hands, List.countP_map] at hslots
  rw [show w.pool.inFlight = _ from hslots]
  exact List.countP_congr fun t _ => by
    simp only [Function.comp_apply, Stage.hasSlot_hand]

theorem inFlight_pos_of_run (h : Run c s as w) {t : Task} (ht : t ∈ w.tasks)
    (hs : t.stage.hasSlot = true) : 0 < w.pool.inFlight := by
  rw [inFlight_eq_of_run h]
  exact List.countP_pos_iff.2 ⟨t, ht, hs⟩

/-- An action changes the count by the slot of its own task. -/
theorem slots_of_act (h : Run c s as w) {a : Action} {w' : World}
    (ha : w.act a = some w') :
    w'.pool.inFlight + w.slotsBy a = w.pool.inFlight + w'.slotsBy a ∧
      ∀ id, a.task? ≠ some id → w'.slotsOf id = w.slotsOf id := by
  refine (h.happens ha).slots fun x hx hs => ?_
  obtain ⟨t, ht, rfl⟩ := List.mem_map.1 hx
  exact inFlight_pos_of_run h ht hs

/-- What a task has taken it has given back, apart from the slot it has. -/
theorem taken_eq_of_run (h : Run c s as w) (id : Nat) :
    ((World.new c s).slotsTaken as).count id =
      ((World.new c s).slotsGivenBack as).count id + w.slotsOf id := by
  induction h with
  | new hs hw =>
    obtain ⟨-, -, rfl⟩ := Run.new_iff.1 (.new hs hw)
    rfl
  | @act as a w w' h ha ih =>
    obtain ⟨hby, hothers⟩ := slots_of_act h ha
    rw [World.slotsTaken, World.slotsGivenBack] at ih ⊢
    rw [h.along_cons _ ha, h.along_cons _ ha, List.count_append,
      List.count_append, ih]
    by_cases hid : a.task? = some id
    · simp only [World.slotsBy, World.slotsTakenBy, World.slotsGivenBackBy,
        hid, Option.elim, Option.toList_some, List.flatMap_singleton,
        List.count_replicate_self] at hby ⊢
      omega
    · have hnone : ∀ n, (a.task?.toList.flatMap
          (List.replicate n)).count id = 0 := by
        intro n
        rw [List.count_eq_zero]
        intro hmem
        obtain ⟨i, hi, hmem⟩ := List.mem_flatMap.1 hmem
        rw [List.eq_of_mem_replicate hmem] at hid
        exact hid (Option.mem_toList.1 hi)
      rw [hothers id hid, World.slotsTakenBy, World.slotsGivenBackBy, hnone,
        hnone]
      omega

/-- After every run the slots that are counted are those that tasks have, and
the next action changes the count just as its own task takes a slot or gives
one back: nothing is taken from zero.  Each task has given back what it has
taken, apart from the slot that it has; so a task that is over has given back
everything, and no slot is taken when no task is left. -/
theorem slots_of_run (h : Run c s as w) :
    (w.pool.inFlight = w.tasks.countP (·.stage.hasSlot) ∧
      ∀ t ∈ w.tasks, t.stage.hasSlot = true → 0 < w.pool.inFlight) ∧
    (∀ a w', w.act a = some w' →
      w'.pool.inFlight + w.slotsBy a = w.pool.inFlight + w'.slotsBy a ∧
        ∀ id, a.task? ≠ some id → w'.slotsOf id = w.slotsOf id) ∧
    (∀ id, w.slotsOf id ≤ 1 ∧
      ((World.new c s).slotsTaken as).count id =
        ((World.new c s).slotsGivenBack as).count id + w.slotsOf id) ∧
    (∀ id, w.task? id = none →
      ((World.new c s).slotsTaken as).count id =
        ((World.new c s).slotsGivenBack as).count id) ∧
    (w.tasks = [] → w.pool.inFlight = 0) := by
  have hcount := inFlight_eq_of_run h
  refine ⟨⟨hcount, fun _ => inFlight_pos_of_run h⟩, fun _ _ => slots_of_act h,
    fun id => ⟨?_, taken_eq_of_run h id⟩, fun id hid => ?_, fun hnil => ?_⟩
  · have hnodup := (World.distinct_of_run h).nodup
    have hle : w.slotsOf id ≤ (w.tasks.map (·.id)).count id := by
      rw [List.count, List.countP_map, World.slotsOf]
      refine List.countP_mono_left fun t _ ht => ?_
      exact (Bool.and_eq_true_iff.1 ht).1
    exact Nat.le_trans hle (List.nodup_iff_count_le_one.1 hnodup id)
  · have hzero : w.slotsOf id = 0 := by
      refine List.countP_eq_zero.2 fun t ht => ?_
      have hne := List.find?_eq_none.1 hid t ht
      simp_all
    rw [taken_eq_of_run h id, hzero, Nat.add_zero]
  · rw [hcount, hnil]
    rfl

/-- A connection is lent, and a task that waits for another one to be opened
is dropped. -/
def lentAndDropped : List Action := .cancel true 1 :: lentAndOpening

/-- Both tasks have given back the slots that they took. -/
theorem slots_lentAndDropped :
    ∃ w, Run { maxActive := 2 } {} lentAndDropped w ∧
      w.tasks = [] ∧
      (World.new { maxActive := 2 } {}).slotsTaken lentAndDropped = [1, 0] ∧
      w.pool.inFlight = 0 ∧
      ∀ id, ((World.new { maxActive := 2 } {}).slotsGivenBack
        lentAndDropped).count id = [1, 0].count id := by
  have hex : ∃ w, Run { maxActive := 2 } {} lentAndDropped w ∧
      w.tasks = [] := Run.exists_of_replay rfl rfl (by decide)
  have htaken : (World.new { maxActive := 2 } {}).slotsTaken lentAndDropped =
      [1, 0] := by decide
  obtain ⟨w, h, hnil⟩ := hex
  obtain ⟨-, -, -, hover, hzero⟩ := slots_of_run h
  refine ⟨w, h, hnil, htaken, hzero hnil, fun id => ?_⟩
  rw [← hover id (by simp [World.task?, hnil]), htaken]

end Runs

end DatabasePool
