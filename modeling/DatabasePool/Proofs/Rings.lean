import DatabasePool.Proofs.Tasks

/-!
# No ring gets lost

The release signal rings when a slot is given back or a connection is kept for
later.  As long as some task waits for a release, a ring goes to a task and is
held by that task until it listens or passes the ring on.  So the places that
are taken and the rings that are held make up a number, `World.owed`, which
does not go down.

* `World.Passes` is what the changes that a task makes have in common: rings
  are passed on, and who is told is woken.
* `World.passes_ring` and `World.passes_leave` are about the release signal
  itself.
-/

namespace DatabasePool

/-! ## The release signal -/

namespace Signal

/-- How often a task is among those who have joined. -/
def members (s : Signal) (id : Nat) : Nat :=
  s.waiting.count id + s.told.count id

theorem members_join_le (s : Signal) (id i : Nat) :
    (s.join id).members i ≤ s.members i + if i = id then 1 else 0 := by
  unfold join
  split
  · exact Nat.le_add_right ..
  · simp only [members, List.count_append]
    by_cases hi : i = id
    · subst hi
      rw [List.count_singleton_self, if_pos rfl]
      omega
    · have hzero : [id].count i = 0 :=
        List.count_eq_zero_of_not_mem (by simpa using hi)
      rw [hzero, if_neg hi]
      omega

@[simp] theorem members_ring (s : Signal) (i : Nat) :
    s.ring.2.members i = s.members i := by
  unfold ring
  split
  · rfl
  · rename_i id rest h
    simp only [members, h, List.count_cons]
    omega

theorem members_ringAll_le (s : Signal) (i : Nat) :
    s.ringAll.2.members i ≤ s.members i := by
  simp [ringAll, members]

theorem members_listen_le (s : Signal) (id i : Nat) :
    (s.listen id).members i ≤ s.members i := by
  have := (List.erase_sublist (a := id) (l := s.told)).count_le i
  simp only [listen, members]
  omega

theorem members_leave (s : Signal) (id i : Nat) :
    (s.leave id).2.members i = s.members i - if i = id then 1 else 0 := by
  unfold leave
  split
  · rename_i h
    rw [List.contains_iff_mem] at h
    have hpos := List.count_pos_iff.2 h
    rw [members_ring]
    simp only [members]
    by_cases hi : i = id
    · subst hi
      rw [List.count_erase_self, if_pos rfl]
      omega
    · rw [List.count_erase_of_ne hi, if_neg hi, Nat.sub_zero]
  · rename_i h
    rw [List.contains_iff_mem] at h
    have hzero := List.count_eq_zero_of_not_mem h
    simp only [members]
    by_cases hi : i = id
    · subst hi
      rw [List.count_erase_self, if_pos rfl]
      omega
    · rw [List.count_erase_of_ne hi, if_neg hi, Nat.sub_zero]

theorem ring_waiting_subset (s : Signal) : s.ring.2.waiting ⊆ s.waiting := by
  unfold ring
  split
  · exact List.Subset.refl _
  · rename_i id rest h
    rw [h]
    exact List.subset_cons_self ..

theorem leave_waiting_subset (s : Signal) (id : Nat) :
    (s.leave id).2.waiting ⊆ s.waiting := by
  unfold leave
  split
  · exact ring_waiting_subset { s with told := s.told.erase id }
  · exact List.erase_subset

/-- While someone waits, a ring is held by one more. -/
theorem told_ring {s : Signal} (h : s.ring.2.waiting ≠ []) :
    s.ring.2.told.length = s.told.length + 1 := by
  unfold ring at h ⊢
  split at h
  · exact absurd ‹_› h
  · rfl

/-- While someone waits, a ring that was not listened to is passed on. -/
theorem told_leave {s : Signal} {id : Nat}
    (h : (s.leave id).2.waiting ≠ []) :
    (s.leave id).2.told.length = s.told.length := by
  revert h
  unfold leave
  split
  · rename_i hmem
    intro h
    rw [List.contains_iff_mem] at hmem
    have hpos := List.length_pos_of_mem hmem
    rw [told_ring h, List.length_erase_of_mem hmem]
    omega
  · exact fun _ => rfl

theorem told_listen (s : Signal) (id : Nat) :
    s.told.length ≤ (s.listen id).told.length + 1 := by
  simp only [listen, List.length_erase]
  split <;> omega

theorem ring_tells (s : Signal) {i : Nat} (hi : i ∈ s.waiting) :
    i ∈ s.ring.2.waiting ∨ s.ring.1 = some i := by
  unfold ring
  split
  · rename_i h
    rw [h] at hi
    cases hi
  · rename_i id rest h
    rw [h] at hi
    rcases List.mem_cons.1 hi with rfl | hi
    · exact .inr rfl
    · exact .inl hi

theorem leave_tells (s : Signal) {id i : Nat} (hi : i ∈ s.waiting)
    (hne : i ≠ id) :
    i ∈ (s.leave id).2.waiting ∨ (s.leave id).1 = some i := by
  unfold leave
  split
  · exact ring_tells { s with told := s.told.erase id } hi
  · exact .inl ((List.mem_erase_of_ne hne).2 hi)

end Signal

/-- The places that are taken, by loans or by slots. -/
def Pool.load (p : Pool) : Nat := p.active.length + p.inFlight

namespace World

/-- The places that are taken and the rings that are held. -/
def owed (w : World) : Nat := w.pool.load + w.signal.told.length

/-! ## Who is told is woken -/

theorem mem_wake (w : World) (id : Nat) : id ∈ (w.wake id).ready := by
  unfold wake
  split
  · rename_i h
    simpa using h
  · simp

theorem ready_subset_wake (w : World) (id : Nat) :
    w.ready ⊆ (w.wake id).ready := by
  unfold wake
  split
  · exact List.Subset.refl _
  · exact List.subset_append_left ..

theorem ready_subset_wakeWaiting (w : World) (id : Nat) :
    w.ready ⊆ (w.wakeWaiting id).ready := by
  unfold wakeWaiting
  split
  · split
    · exact ready_subset_wake w id
    · exact List.Subset.refl _
  · exact List.Subset.refl _

theorem ready_subset_elim (told : Option Nat) (w : World) :
    w.ready ⊆ (told.elim w w.wakeWaiting).ready := by
  cases told with
  | none => exact List.Subset.refl _
  | some id => exact ready_subset_wakeWaiting w id

/-- A task that waits for a release is woken when it is told. -/
theorem Distinct.mem_elim {w : World} (h : w.Distinct) {told : Option Nat}
    {t : Task} (ht : t ∈ w.tasks) (hwaits : t.stage.isWaiting = true)
    (htold : told = some t.id) :
    t.id ∈ (told.elim w w.wakeWaiting).ready := by
  subst htold
  simp only [Option.elim, wakeWaiting, h.task?_eq ht, hwaits, if_true]
  exact mem_wake w t.id

/-- What the changes that a task makes have in common: nobody else has to
leave the release signal without being woken, and rings are passed on. -/
structure Passes (id : Nat) (w w' : World) : Prop where
  distinct : w.Distinct → w'.Distinct
  tasks : w.tasks ⊆ w'.tasks
  ready : w.ready ⊆ w'.ready
  waiting : w'.signal.waiting ⊆ w.signal.waiting
  woken : w.Distinct → ∀ t ∈ w.tasks, t.id ≠ id → t.stage.isWaiting = true →
    t.id ∈ w.signal.waiting →
      t.id ∈ w'.signal.waiting ∨ t.id ∈ w'.ready
  members : ∀ i, w'.signal.members i ≤ w.signal.members i
  owed : w'.signal.waiting ≠ [] → w.owed ≤ w'.owed
  shutDown : w.pool.shutDown = true → w'.pool.shutDown = true

theorem Passes.trans {id : Nat} {w₁ w₂ w₃ : World} (h : Passes id w₁ w₂)
    (h' : Passes id w₂ w₃) : Passes id w₁ w₃ where
  distinct hd := h'.distinct (h.distinct hd)
  tasks := List.Subset.trans h.tasks h'.tasks
  ready := List.Subset.trans h.ready h'.ready
  waiting := List.Subset.trans h'.waiting h.waiting
  woken hd t ht hne hwaits hmem := by
    rcases h.woken hd t ht hne hwaits hmem with hmem | hmem
    · exact h'.woken (h.distinct hd) t (h.tasks ht) hne hwaits hmem
    · exact .inr (h'.ready hmem)
  members i := Nat.le_trans (h'.members i) (h.members i)
  owed hne := by
    have hne₂ : w₂.signal.waiting ≠ [] := fun hnil =>
      hne (List.subset_nil.1 (hnil ▸ h'.waiting))
    exact Nat.le_trans (h.owed hne₂) (h'.owed hne)
  shutDown hs := h'.shutDown (h.shutDown hs)

/-- The signal and the tasks that can go on stay as they are, and no place is
given back. -/
theorem Passes.of_same {id : Nat} {w w' : World}
    (htasks : w'.tasks = w.tasks) (hnext : w'.nextTask = w.nextTask)
    (hready : w'.ready = w.ready) (hsignal : w'.signal = w.signal)
    (hload : w.pool.load ≤ w'.pool.load)
    (hdown : w'.pool.shutDown = w.pool.shutDown) : Passes id w w' where
  distinct hd := hd.of_map_id (by rw [htasks]) (Nat.le_of_eq hnext.symm)
  tasks _ ht := by rwa [htasks]
  ready _ hmem := by rwa [hready]
  waiting _ hmem := by rwa [hsignal] at hmem
  woken _ _ _ _ _ hmem := .inl (by rwa [hsignal])
  members i := Nat.le_of_eq (by rw [hsignal])
  owed _ := by
    simp only [World.owed, hsignal]
    omega
  shutDown hs := by rwa [hdown]

theorem Passes.refl (id : Nat) (w : World) : Passes id w w :=
  .of_same rfl rfl rfl rfl (Nat.le_refl _) rfl

/-- One place is given back, and the signal rings for it. -/
theorem passes_ring (id : Nat) {w : World} {p : Pool}
    (hload : w.pool.load ≤ p.load + 1)
    (hdown : p.shutDown = w.pool.shutDown) :
    Passes id w (ring { w with pool := p }) where
  distinct hd := hd.of_map_id (by simp) (by simp)
  tasks := by simp
  ready := ready_subset_elim w.signal.ring.1
    { w with pool := p, signal := w.signal.ring.2 }
  waiting := by
    simpa using w.signal.ring_waiting_subset
  woken hd t ht _ hwaits hmem := by
    rcases w.signal.ring_tells hmem with hmem | htold
    · exact .inl (by simpa using hmem)
    · have hd' : ({ w with pool := p, signal := w.signal.ring.2 } :
          World).Distinct := hd.of_map_id rfl (Nat.le_refl _)
      exact .inr (hd'.mem_elim ht hwaits htold)
  members i := by simp
  owed hne := by
    have htold := Signal.told_ring (s := w.signal) (by simpa using hne)
    simp only [World.owed, ring_frame, htold]
    omega
  shutDown hs := by simpa [hdown] using hs

/-- A task leaves the signal. -/
theorem passes_leave (id : Nat) (w : World) : Passes id w (w.leave id) where
  distinct hd := hd.of_map_id (by simp) (by simp)
  tasks := by simp
  ready := ready_subset_elim (w.signal.leave id).1
    { w with signal := (w.signal.leave id).2 }
  waiting := by
    simpa using w.signal.leave_waiting_subset id
  woken hd t ht hne hwaits hmem := by
    rcases w.signal.leave_tells hmem hne with hmem | htold
    · exact .inl (by simpa using hmem)
    · have hd' : ({ w with signal := (w.signal.leave id).2 } :
          World).Distinct := hd.of_map_id rfl (Nat.le_refl _)
      exact .inr (hd'.mem_elim ht hwaits htold)
  members i := by
    rw [(leave_frame w id).2.2.2.2.1, Signal.members_leave]
    exact Nat.sub_le ..
  owed hne := by
    have htold := Signal.told_leave (by simpa using hne)
    simp only [World.owed, leave_frame, htold]
    exact Nat.le_refl _
  shutDown hs := by simpa using hs

theorem ready_subset_foldl (ids : List Nat) (w : World) :
    w.ready ⊆ (ids.foldl wakeWaiting w).ready := by
  induction ids generalizing w with
  | nil => exact List.Subset.refl _
  | cons id ids ih =>
    exact List.Subset.trans (ready_subset_wakeWaiting w id) (ih _)

/-- All that wait for a release are woken when they are told. -/
theorem Distinct.mem_foldl {w : World} (h : w.Distinct) {ids : List Nat}
    {t : Task} (ht : t ∈ w.tasks) (hwaits : t.stage.isWaiting = true)
    (hmem : t.id ∈ ids) : t.id ∈ (ids.foldl wakeWaiting w).ready := by
  induction ids generalizing w with
  | nil => cases hmem
  | cons id ids ih =>
    rw [List.foldl_cons]
    rcases List.mem_cons.1 hmem with rfl | hmem
    · exact ready_subset_foldl ids _ (h.mem_elim ht hwaits rfl)
    · exact ih (h.of_map_id (by simp) (by simp)) (by simpa using ht) hmem

/-- The pool ends, and all who wait are told. -/
theorem passes_ringAll (id : Nat) {w : World} {p : Pool}
    (hdown : p.shutDown = true) :
    Passes id w (ringAll { w with pool := p }) where
  distinct hd := hd.of_map_id (by simp) (by simp)
  tasks := by simp
  ready := ready_subset_foldl w.signal.waiting
    { w with pool := p, signal := w.signal.ringAll.2 }
  waiting := by simp [Signal.ringAll]
  woken hd t ht _ hwaits hmem := by
    have hd' : ({ w with pool := p, signal := w.signal.ringAll.2 } :
        World).Distinct := hd.of_map_id rfl (Nat.le_refl _)
    exact .inr (hd'.mem_foldl ht hwaits hmem)
  members i := by
    simpa using w.signal.members_ringAll_le i
  owed hne := absurd (by simp [Signal.ringAll]) hne
  shutDown _ := by simpa using hdown

/-- A slot is given back. -/
theorem passes_freeSlot (id : Nat) (w : World) : Passes id w w.freeSlot := by
  refine passes_ring id ?_ (by simp)
  simp only [Pool.load, Pool.free_frame]
  omega

end World

end DatabasePool
