import DatabasePool.Proofs.Records

/-!
# Who can go on

A task that does one thing can wake others: those that wait for a release, when
it rings.  It wakes nobody else, and nobody who is not there.  So whoever can
go on, or lets others go first, is the number of a task that is under way.

* `World.Stirs` says that none but waiting tasks are woken, and `Moves.stirs`
  that this is so for all that a task does.
* `Run.enrolled` says that only tasks that are under way can go on.
-/

namespace DatabasePool

namespace World

/-- The tasks are the same, and none of them can go on from now on but some
that wait for a release. -/
structure Stirs (w v : World) : Prop where
  tasks : v.tasks = w.tasks
  ready : ∀ i ∈ v.ready, i ∈ w.ready ∨
    ∃ t ∈ w.tasks, t.id = i ∧ t.stage.isWaiting = true

namespace Stirs

variable {w v u : World}

theorem same (htasks : v.tasks = w.tasks) (hready : v.ready = w.ready) :
    Stirs w v :=
  ⟨htasks, fun _ hi => .inl (hready ▸ hi)⟩

theorem refl (w : World) : Stirs w w := same rfl rfl

theorem trans (h : Stirs w v) (h' : Stirs v u) : Stirs w u where
  tasks := h'.tasks.trans h.tasks
  ready i hi := by
    rcases h'.ready i hi with hi | hwaits
    · exact h.ready i hi
    · exact .inr (h.tasks ▸ hwaits)

theorem after (h : Stirs v u) (htasks : v.tasks = w.tasks)
    (hready : v.ready = w.ready) : Stirs w u :=
  (same htasks hready).trans h

end Stirs

/-! ## What a task does -/

section Changes

variable (w : World)

theorem stirs_wakeWaiting (id : Nat) : Stirs w (w.wakeWaiting id) := by
  refine ⟨by simp, fun i hi => ?_⟩
  unfold wakeWaiting at hi
  split at hi
  · rename_i t ht
    split at hi
    · rename_i hwaits
      unfold wake at hi
      split at hi
      · exact .inl hi
      · refine (List.mem_append.1 hi).imp_right fun hi => ?_
        obtain rfl := List.mem_singleton.1 hi
        exact ⟨t, mem_of_task? ht, id_of_task? ht, hwaits⟩
    · exact .inl hi
  · exact .inl hi

theorem stirs_elim (told : Option Nat) :
    Stirs w (told.elim w w.wakeWaiting) := by
  cases told with
  | none => exact .refl w
  | some id => exact stirs_wakeWaiting w id

theorem stirs_ring : Stirs w w.ring :=
  (stirs_elim { w with signal := w.signal.ring.2 } w.signal.ring.1).after
    rfl rfl

theorem stirs_leave (id : Nat) : Stirs w (w.leave id) :=
  (stirs_elim { w with signal := (w.signal.leave id).2 }
    (w.signal.leave id).1).after rfl rfl

theorem stirs_freeSlot : Stirs w w.freeSlot :=
  (stirs_ring { w with pool := w.pool.free }).after rfl rfl

theorem stirs_freeSlot_leave (id : Nat) : Stirs w (w.freeSlot.leave id) :=
  (stirs_freeSlot w).trans (stirs_leave _ id)

theorem stirs_foldl (ids : List Nat) : Stirs w (ids.foldl wakeWaiting w) := by
  induction ids generalizing w with
  | nil => exact .refl w
  | cons id ids ih => exact (stirs_wakeWaiting w id).trans (ih _)

theorem stirs_ringAll : Stirs w w.ringAll :=
  (stirs_foldl { w with signal := w.signal.ringAll.2 }
    w.signal.waiting).after rfl rfl

theorem stirs_hearAnswer (call : Call) : Stirs w (w.hearAnswer call).2 :=
  .same (by simp) (by simp)

theorem stirs_beginCall (call : Call) : Stirs w (w.beginCall call).2 :=
  .same rfl rfl

theorem stirs_connectTimer (limit : Option Timer) :
    Stirs w (w.connectTimer limit).2 := by
  cases limit <;> exact .same rfl rfl

theorem stirs_hearAnswers (calls : List Pending) :
    Stirs w (w.hearAnswers calls).2 :=
  hearAnswers_rel .refl .trans stirs_hearAnswer calls w

theorem stirs_beginCloses (conns : List Nat) :
    Stirs w (w.beginCloses conns).2 :=
  beginCloses_rel .refl .trans stirs_hearAnswer
    (fun w _ => stirs_beginCall w _) conns w

theorem stirs_withdraw (loans : List Loan) :
    Stirs w (loans.foldl (fun w loan =>
      (w.revoke loan.lease).note (.withdrawn loan.lease)) w) :=
  withdraw_rel .refl .trans (fun _ _ => .same rfl rfl) loans w

end Changes

/-- Whatever a task does, it wakes none but those that wait for a release. -/
theorem Moves.stirs {w v : World} {id : Nat} {s : Stage} {flow : Flow}
    (h : Moves w id s flow v) : Stirs w v := by
  cases h with
  | shutDown =>
    refine Stirs.trans ?_ (stirs_withdraw _ _)
    exact (stirs_ringAll _).after rfl rfl
  | ended | outOfReach => exact (stirs_leave _ id).after rfl rfl
  | wait _ _ _ _ _ halarm =>
    cases halarm
    exact .same rfl rfl
  | retry | connect | undone | pinged | returnUndone | answered | denied =>
    exact stirs_hearAnswer ..
  | refused | allBad | tryAgain =>
    exact (stirs_hearAnswer ..).trans (stirs_freeSlot_leave _ id)
  | timeout => exact (stirs_connectTimer ..).trans (stirs_freeSlot_leave _ id)
  | stayConnecting => exact stirs_connectTimer ..
  | notUndone | notPinged | returnNotUndone =>
    exact (stirs_hearAnswer ..).trans (.same rfl rfl)
  | lend | told | roused | exhausted =>
    exact (stirs_leave _ id).after rfl rfl
  | store => exact (stirs_ring _).after rfl rfl
  | returnDiscarded => exact (stirs_hearAnswer ..).trans (stirs_freeSlot _)
  | closed | closing =>
    exact (stirs_hearAnswers ..).trans (stirs_beginCloses ..)
  | _ => exact .same rfl rfl

/-- A task that can go on alone is not woken again by its timers. -/
theorem ready_wakes {w : World} {id : Nat} (hready : w.ready = [id])
    {fired : List (Timer × Nat)} (hids : ∀ x ∈ fired, x.2 = id) :
    (fired.foldl (fun w (_, id) => w.wake id) w).ready = [id] := by
  induction fired generalizing w with
  | nil => exact hready
  | cons x fired ih =>
    refine ih (w := w.wake x.2) ?_ fun y hy => hids y (List.mem_cons_of_mem _ hy)
    rw [hids x List.mem_cons_self, wake, if_pos (by simp [hready]), hready]

/-! ## Who is there -/

/-- Whoever can go on, or lets others go first, is there. -/
def Enrolled (w : World) : Prop :=
  ∀ i, i ∈ w.ready ∨ i ∈ w.yielded → ∃ t ∈ w.tasks, t.id = i

namespace Enrolled

variable {w v : World}

/-- The queues of a world without tasks are empty. -/
theorem atRest (h : w.Enrolled) (hnone : w.tasks = []) :
    w.ready = [] ∧ w.yielded = [] := by
  have hnot : ∀ i, ¬(i ∈ w.ready ∨ i ∈ w.yielded) := by
    intro i hi
    obtain ⟨t, ht, -⟩ := h i hi
    rw [hnone] at ht
    cases ht
  exact ⟨List.eq_nil_iff_forall_not_mem.2 fun i hi => hnot i (.inl hi),
    List.eq_nil_iff_forall_not_mem.2 fun i hi => hnot i (.inr hi)⟩

/-- No new number is in the queues, and all tasks are still there. -/
theorem of_subset (h : w.Enrolled) (hready : v.ready ⊆ w.ready)
    (hyielded : v.yielded ⊆ w.yielded)
    (hids : w.tasks.map (·.id) ⊆ v.tasks.map (·.id)) : v.Enrolled := by
  intro i hi
  obtain ⟨t, ht, rfl⟩ := h i (hi.imp (hready ·) (hyielded ·))
  exact List.mem_map.1 (hids (List.mem_map_of_mem ht))

theorem of_stirs (h : w.Enrolled) (hs : Stirs w v)
    (hyielded : v.yielded = w.yielded) : v.Enrolled := by
  intro i hi
  rw [hs.tasks]
  rcases hi with hi | hi
  · rcases hs.ready i hi with hi | ⟨t, ht, hid, -⟩
    · exact h i (.inl hi)
    · exact ⟨t, ht, hid⟩
  · exact h i (.inr (hyielded ▸ hi))

theorem spawn (h : w.Enrolled) (s : Stage) (limit : Option Limit) :
    (w.spawn s limit).Enrolled := by
  have hold : ∀ i, i ∈ w.ready ∨ i ∈ w.yielded →
      ∃ t ∈ (w.spawn s limit).tasks, t.id = i := by
    intro i hi
    obtain ⟨t, ht, hid⟩ := h i hi
    exact ⟨t, List.mem_append_left _ ht, hid⟩
  rintro i (hi | hi)
  · rcases List.mem_append.1 hi with hi | hi
    · exact hold i (.inl hi)
    · exact ⟨_, List.mem_append_right _ List.mem_cons_self,
        (List.mem_singleton.1 hi).symm⟩
  · exact hold i (.inr hi)

theorem letGo (h : w.Enrolled) (outside : Bool) (conn : Nat) :
    (w.letGo outside conn).Enrolled := by
  unfold World.letGo
  split
  · exact h
  · exact h.spawn _ _

theorem removeTask (h : w.Enrolled) (id : Nat) :
    (w.removeTask id).Enrolled := by
  have hrest : ∀ {ids : List Nat} {i : Nat}, i ∈ ids.filter (· != id) →
      (i ∈ ids → i ∈ w.ready ∨ i ∈ w.yielded) →
        ∃ t ∈ (w.removeTask id).tasks, t.id = i := by
    intro ids i hi hmem
    obtain ⟨hi, hne⟩ := List.mem_filter.1 hi
    obtain ⟨t, ht, rfl⟩ := h i (hmem hi)
    exact ⟨t, List.mem_filter.2 ⟨ht, hne⟩, rfl⟩
  rintro i (hi | hi)
  · exact hrest hi .inl
  · exact hrest hi .inr

/-- Whoever is woken by a task that is dropped is there. -/
theorem dropStage (h : w.Enrolled) (outside : Bool) (id : Nat) (s : Stage) :
    (w.dropStage outside id s).Enrolled :=
  dropStage_induct h (h.letGo outside)
    (fun v hv => hv.of_stirs (stirs_freeSlot v) (by simp))
    (fun v hv => hv.of_stirs (stirs_leave v id) (by simp))

theorem dropTask (h : w.Enrolled) (outside : Bool) (t : Task) :
    (w.dropTask outside t).Enrolled :=
  (h.dropStage outside t.id t.stage).removeTask t.id

theorem of_timed {id : Nat} (h : w.Enrolled) (hv : Timed w id v) :
    v.Enrolled := by
  obtain ⟨-, -, -, -, -, -, hready, hyielded, -⟩ := hv.frame
  refine h.of_subset ?_ ?_ ?_
  · exact fun _ hi => hready ▸ hi
  · exact fun _ hi => hyielded ▸ hi
  · exact fun _ hi => hv.map_id.symm ▸ hi

theorem checkLimit (h : w.Enrolled) {id : Nat} {t : Task}
    (ht : w.task? id = some t) : (w.checkLimit id).Enrolled := by
  have hx := checks ht
  generalize w.checkLimit id = v at hx
  cases hx with
  | stays hv => exact h.of_timed hv
  | dropped hv => exact (h.of_timed hv).dropTask _ t

theorem setStage (h : w.Enrolled) (id : Nat) (s : Stage) :
    (w.setStage id s).Enrolled :=
  h.of_subset (List.Subset.refl _) (List.Subset.refl _)
    fun _ hi => (map_id_setStage w id s).symm ▸ hi

theorem follow (h : w.Enrolled) {t : Task} (ht : w.task? t.id = some t)
    (flow : Flow) : (w.follow t.id flow).Enrolled := by
  have hset : ∀ s, (w.setStage t.id s).task? t.id = some { t with stage := s } :=
    fun s => task?_setStage s ht
  cases flow with
  | again s =>
    rintro i (hi | hi)
    · rcases List.mem_cons.1 hi with rfl | hi
      · exact ⟨_, mem_of_task? (hset s), rfl⟩
      · exact h.setStage t.id s i (.inl hi)
    · exact h.setStage t.id s i (.inr hi)
  | pause s => exact (h.setStage t.id s).checkLimit (hset s)
  | yield s =>
    refine checkLimit (w := { w.setStage t.id s with
      yielded := t.id :: w.yielded }) ?_ (hset s)
    rintro i (hi | hi)
    · exact h.setStage t.id s i (.inl hi)
    · rcases List.mem_cons.1 hi with rfl | hi
      · exact ⟨_, mem_of_task? (hset s), rfl⟩
      · exact h.setStage t.id s i (.inr hi)
  | finish o => exact h.removeTask t.id

/-- Nobody is woken that is not there. -/
theorem wakes (h : w.Enrolled) {fired : List (Timer × Nat)}
    (hfired : ∀ x ∈ fired, ∃ t ∈ w.tasks, t.id = x.2) :
    (fired.foldl (fun w (_, id) => w.wake id) w).Enrolled := by
  induction fired generalizing w with
  | nil => exact h
  | cons x fired ih =>
    refine ih (w := w.wake x.2) ?_ fun y hy => ?_
    · intro i hi
      rw [(wake_frame w x.2).2.2.2.2.2.2.1]
      rcases hi with hi | hi
      · unfold wake at hi
        split at hi
        · exact h i (.inl hi)
        · rcases List.mem_append.1 hi with hi | hi
          · exact h i (.inl hi)
          · obtain rfl := List.mem_singleton.1 hi
            exact hfired x List.mem_cons_self
      · exact h i (.inr ((wake_frame w x.2).2.2.2.2.2.2.2.1 ▸ hi))
    · rw [(wake_frame w x.2).2.2.2.2.2.2.1]
      exact hfired y (List.mem_cons_of_mem _ hy)

theorem act (h : w.Enrolled) {a : Action} (ha : w.act a = some v) :
    v.Enrolled := by
  cases a with
  | run id =>
    simp only [World.act] at ha
    split at ha
    · cases ha
      have hpick : (w.pick id).Enrolled :=
        h.of_subset (fun _ hi => List.mem_of_mem_erase hi)
          (List.Subset.refl _) (List.Subset.refl _)
      show ((w.pick id).run id).Enrolled
      unfold World.run
      cases ht : (w.pick id).task? id with
      | none => exact hpick
      | some t =>
        obtain rfl := id_of_task? ht
        have hu := untouched_resume (w.pick t.id) t.id t.stage
        have hs := (moves (w.pick t.id) t.id t.stage).stirs
        refine (hpick.of_stirs hs hu.yielded).follow ?_ _
        simpa only [task?, hs.tasks] using ht
    · cases ha
  | rouse =>
    simp only [World.act] at ha
    split at ha
    · cases ha
      rintro i (hi | hi)
      · exact h i (.inr hi)
      · cases hi
    · cases ha
  | start op limit =>
    simp only [World.act] at ha
    split at ha
    · cases ha
      exact h.spawn _ _
    · cases ha
  | cancel outside id =>
    simp only [World.act] at ha
    split at ha
    · cases ha
    · split at ha
      · cases ha
        exact h.dropTask outside _
      · cases ha
  | forget outside lease =>
    cases ha
    unfold World.forget
    split
    · dsimp only
      split
      · exact h
      · exact Enrolled.spawn (w := w.revoke lease) h _ _
    · exact h
  | changeServer _ | markClosed _ _ | markManual _ _ =>
    cases ha
    exact h
  | advance moment =>
    simp only [World.act] at ha
    split at ha
    · cases ha
      refine wakes (w := { w with now := moment }) h fun x hx => ?_
      obtain ⟨hx, -⟩ := List.mem_filter.1 (List.mem_mergeSort.1 hx)
      obtain ⟨t, ht, hx⟩ := List.mem_flatMap.1 hx
      obtain ⟨timer, -, rfl⟩ := List.mem_map.1 hx
      exact ⟨t, ht, rfl⟩
    · cases ha

end Enrolled

end World

end DatabasePool
