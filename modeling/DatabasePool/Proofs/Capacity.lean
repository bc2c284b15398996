import DatabasePool.Proofs.Exclusive
import Mathlib.Data.List.Perm.Subperm

/-!
# The bounds of a pool

A connection that was kept is taken without a look at `maxActive`, so that
bound alone is not kept by what happens.  But the connections in both lists and
all slots together stay within `maxActive`, and the slots are exactly those
that tasks have in hand: `Capped`.

* `bounded_of_run` says that the pool stays within its bounds.
-/

namespace DatabasePool

/-- The pool stays within its bounds, and its slots are those in the hands of
tasks. -/
structure Capped (c : Config) (b : Books) (hs : List Hand) : Prop where
  slots : b.pool.inFlight = hs.countP (·.hasSlot)
  total : b.pool.idle.length + b.pool.active.length + b.pool.inFlight ≤
    c.maxActive
  idle : b.pool.idle.length ≤ c.maxIdle

/-- The bounds are kept by every deal.  `maxActive` is not checked when a
connection is taken that was kept, but that connection makes room for the
slot. -/
theorem Capped.deal {c : Config} {b b' : Books} {h h' : Hand}
    {hs : List Hand} (hd : Deals c b h b' h') (hi : Capped c b (h :: hs)) :
    Capped c b' (h' :: hs) := by
  obtain ⟨hslots, htotal, hidle⟩ := hi
  rw [List.countP_cons] at hslots
  suffices hn : b'.pool.inFlight =
        hs.countP (·.hasSlot) + (if h'.hasSlot then 1 else 0) ∧
      b'.pool.idle.length + b'.pool.active.length + b'.pool.inFlight ≤
        c.maxActive ∧
      b'.pool.idle.length ≤ c.maxIdle by
    obtain ⟨hslots', htotal', hidle'⟩ := hn
    exact ⟨by rw [List.countP_cons]; exact hslots', htotal', hidle'⟩
  cases hd with
  | count | choose | close | revoke | mark | lose =>
    exact ⟨hslots, htotal, hidle⟩
  | connect | giveUp | callIn | tooLate | discard | hear | done =>
    exact ⟨hslots, htotal, hidle⟩
  | take hup he =>
    rw [he, List.length_cons] at htotal hidle
    simp only [Hand.hasSlot, Pool.reserve_frame, if_true,
      Bool.false_eq_true, if_false] at hslots ⊢
    omega
  | makeRoom now hup he hroom =>
    simp only [Pool.hasRoom, decide_eq_true_eq] at hroom
    simp only [he, List.length_nil, Hand.hasSlot, Pool.reserve_frame, if_true,
      Bool.false_eq_true, if_false] at hslots ⊢
    omega
  | claim now hup he hfull htake =>
    obtain ⟨-, -, rest, hperm, rfl⟩ := Pool.takeOverdue?_eq_some htake
    have hlen := hperm.length_eq
    rw [List.length_cons] at hlen
    simp only [Hand.hasSlot, Pool.reserve_frame, if_true,
      Bool.false_eq_true, if_false] at hslots ⊢
    omega
  | lend since now hlend =>
    obtain ⟨-, rfl⟩ := Pool.lend?_eq_some hlend
    simp only [Hand.hasSlot, Pool.free_frame, if_true, Bool.false_eq_true,
      if_false, List.length_append, List.length_singleton] at hslots ⊢
    omega
  | giveBack now htake =>
    obtain ⟨-, rest, hperm, rfl⟩ := Pool.takeLoan?_eq_some htake
    have hlen := hperm.length_eq
    rw [List.length_cons] at hlen
    simp only [Hand.hasSlot, Pool.reserve_frame, if_true,
      Bool.false_eq_true, if_false] at hslots ⊢
    omega
  | store hstore =>
    obtain ⟨hlt, -, rfl⟩ := Pool.store?_eq_some hstore
    simp only [Hand.hasSlot, Pool.free_frame, if_true, Bool.false_eq_true,
      if_false, List.length_cons] at hslots ⊢
    omega
  | free =>
    simp only [Hand.hasSlot, Pool.free_frame, if_true, Bool.false_eq_true,
      if_false] at hslots ⊢
    omega
  | invalidate =>
    simp only [Hand.hasSlot, Pool.invalidate, List.length_nil,
      Bool.false_eq_true, if_false] at hslots ⊢
    omega
  | shutDown =>
    simp only [Hand.hasSlot, Pool.close, List.length_nil,
      Bool.false_eq_true, if_false] at hslots ⊢
    omega

theorem capped_kept (c : Config) : Kept c (Capped c) where
  perm h hi := ⟨by rw [hi.slots, h.countP_eq], hi.total, hi.idle⟩
  join hi := ⟨by simp [hi.slots, Hand.hasSlot], hi.total, hi.idle⟩
  leave hi := ⟨by simpa [Hand.hasSlot] using hi.slots, hi.total, hi.idle⟩
  deal := Capped.deal

/-- The pool stays within its bounds after every run. -/
theorem capped_of_run {c : Config} {s : Server} {as : List Action}
    {w : World} (h : Run c s as w) :
    Capped c (w.books []) w.hands := by
  have hnew : Capped c ((World.new c s).books []) [] :=
    ⟨rfl, Nat.zero_le _, Nat.zero_le _⟩
  obtain ⟨lost, -, hsound⟩ := (capped_kept c).run (fun _ => hnew) h
  exact ⟨hsound.kept.slots, hsound.kept.total, hsound.kept.idle⟩

/-- The number of valid leases. -/
def World.validLeases (w : World) : Nat :=
  (List.range w.handles.length).countP (w.isValid ·)

/-- Each valid lease has its loan. -/
theorem validLeases_le {c : Config} {s : Server} {as : List Action}
    {w : World} (h : Run c s as w) : w.validLeases ≤ w.pool.active.length := by
  have hl := leased_of_run h
  have hnodup : ((List.range w.handles.length).filter (w.isValid ·)).Nodup :=
    List.nodup_range.filter _
  have hsub : (List.range w.handles.length).filter (w.isValid ·) ⊆
      w.pool.active.map (·.lease) := by
    intro i hi
    have hv := (List.mem_filter.1 hi).2
    unfold World.isValid at hv
    cases hx : w.handles[i]? with
    | none => simp [hx] at hv
    | some x =>
      rw [hx] at hv
      obtain ⟨loan, hmem, rfl⟩ := hl.valid i x hx hv
      exact List.mem_map_of_mem hmem
  have hle := (List.Nodup.subperm hnodup hsub).length_le
  rw [List.length_map] at hle
  rw [World.validLeases, List.countP_eq_length_filter]
  exact hle

/-- The pool stays within its bounds in every run, and no more leases are
valid than it may lend connections. -/
theorem bounded_of_run {c : Config} {s : Server} {as : List Action}
    {w : World} (h : Run c s as w) :
    w.pool.active.length + w.pool.inFlight ≤ c.maxActive ∧
      w.pool.idle.length ≤ c.maxIdle ∧
      w.pool.idle.length + w.pool.active.length + w.pool.inFlight ≤
        c.maxActive ∧
      w.validLeases ≤ c.maxActive := by
  obtain ⟨-, htotal, hidle⟩ := capped_of_run h
  have hvalid := validLeases_le h
  simp only [World.books] at htotal hidle
  exact ⟨by omega, hidle, htotal, by omega⟩

/-- One connection is lent and another one is being opened. -/
def lentAndOpening : List Action :=
  [.run 1, .run 1, .run 1, .start .acquire none,
    .run 0, .run 0, .run 0, .run 0, .run 0, .start .acquire none]

/-- The bound is reached. -/
theorem bounded_lentAndOpening :
    ∃ w, Run { maxActive := 2 } {} lentAndOpening w ∧
      (w.pool.active.length = 1 ∧ w.pool.inFlight = 1) ∧
      w.pool.active.length + w.pool.inFlight ≤ 2 ∧
        w.pool.idle.length ≤ 5 ∧
        w.pool.idle.length + w.pool.active.length + w.pool.inFlight ≤ 2 ∧
        w.validLeases ≤ 2 := by
  have hex : ∃ w, Run { maxActive := 2 } {} lentAndOpening w ∧
      w.pool.active.length = 1 ∧ w.pool.inFlight = 1 :=
    Run.exists_of_replay rfl rfl (by decide)
  obtain ⟨w, h, hfull⟩ := hex
  exact ⟨w, h, hfull, bounded_of_run h⟩

end DatabasePool
