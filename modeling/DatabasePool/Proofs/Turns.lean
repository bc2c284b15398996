import DatabasePool.Proofs.Rings

/-!
# What a task does for those who wait

A task that does one thing may join the release signal or leave it, may take a
place in the pool or give one back.  `World.Turn` says what others can rely on
whatever it does: whoever is told is woken, and the places that are taken
together with the rings that are held become fewer only if the pool is full or
if the task goes back to look at the pool again.

* `Turn.resume` says that this holds for everything a task can do.
* `passes_dropStage` says what holds when a task is dropped.
-/

namespace DatabasePool

/-! ## Who looks at the pool -/

/-- The attempt is about to look at what the pool has. -/
def Attempt.isLooking : Attempt → Bool
  | looking => true
  | _ => false

/-- The task is about to look at what the pool has. -/
def Stage.isLooking : Stage → Bool
  | acquire _ a => a.isLooking
  | _ => false

namespace Flow

/-- The stage in which a task goes on, if it does. -/
def stage? : Flow → Option Stage
  | again s => some s
  | pause s => some s
  | yield s => some s
  | finish _ => none

def isLooking (f : Flow) : Bool := f.stage?.any (·.isLooking)

def hasJoined (f : Flow) : Bool := f.stage?.any (·.hasJoined)

def isWaiting (f : Flow) : Bool := f.stage?.any (·.isWaiting)

end Flow

namespace World

/-- What others can rely on when a task does one thing. -/
structure Turn (w : World) (id : Nat) (s : Stage) (x : Flow × World) :
    Prop where
  ready : w.ready ⊆ x.2.ready
  waiting : ∀ i ∈ x.2.signal.waiting, i ≠ id → i ∈ w.signal.waiting
  woken : w.Distinct → ∀ t ∈ w.tasks, t.id ≠ id → t.stage.isWaiting = true →
    t.id ∈ w.signal.waiting →
      t.id ∈ x.2.signal.waiting ∨ t.id ∈ x.2.ready
  members : ∀ i ≠ id, x.2.signal.members i ≤ w.signal.members i
  joined : w.signal.members id ≤ s.hasJoined.toNat →
    x.2.signal.members id ≤ x.1.hasJoined.toNat
  shutDown : w.pool.shutDown = true → x.2.pool.shutDown = true
  owed : x.2.signal.waiting ≠ [] → x.2.pool.shutDown = false →
    w.config.maxActive ≤ x.2.pool.load ∨
      w.owed + s.isLooking.toNat ≤ x.2.owed + x.1.isLooking.toNat ∧
        (x.1.isWaiting = true → s.isWaiting = true ∧
          x.2.signal = w.signal)
  suspends : ∀ s', x.1.waits? = some s' → s'.isSuspended = true ∧
    (s'.isWaiting = true → id ∈ x.2.signal.waiting)
  exhausted : ∀ span, x.1 = .finish (.failed (.exhausted span)) →
    s.isWaiting = true ∧ id ∈ w.signal.waiting

section Passing

variable (id : Nat) (w : World)

theorem passes_note (e : Event) : Passes id w (w.note e) := by
  apply Passes.of_same <;> simp

theorem passes_beginCall (call : Call) : Passes id w (w.beginCall call).2 := by
  apply Passes.of_same <;> simp

theorem passes_hearAnswer (call : Call) :
    Passes id w (w.hearAnswer call).2 := by
  apply Passes.of_same <;> simp

theorem passes_setWait (span : Nat) : Passes id w (w.setWait span).2 := by
  apply Passes.of_same <;> simp

theorem passes_revoke (lease : Nat) : Passes id w (w.revoke lease) := by
  apply Passes.of_same <;> simp

theorem passes_markClosed (lease : Nat) : Passes id w (w.markClosed lease) := by
  apply Passes.of_same <;> simp

theorem passes_setPool {p : Pool} (hload : w.pool.load ≤ p.load)
    (hdown : p.shutDown = w.pool.shutDown) :
    Passes id w { w with pool := p } :=
  .of_same rfl rfl rfl rfl hload hdown

end Passing

namespace Turn

variable {w v : World} {id : Nat} {s s' : Stage} {flow : Flow} {o : Outcome}

/-- A task that does not look at the pool and does not come to wait for a
release passes rings on. -/
theorem of_passes (hp : Passes id w v) (hs : s.isLooking = false)
    (hw : flow.isWaiting = false)
    (hj : w.signal.members id ≤ s.hasJoined.toNat →
      v.signal.members id ≤ flow.hasJoined.toNat)
    (hsusp : ∀ s', flow.waits? = some s' →
      s'.isSuspended = true ∧ s'.isWaiting = false)
    (ho : ∀ span, flow ≠ .finish (.failed (.exhausted span))) :
    Turn w id s (flow, v) where
  ready := hp.ready
  waiting _ hmem _ := hp.waiting hmem
  woken := hp.woken
  members i _ := hp.members i
  joined := hj
  shutDown := hp.shutDown
  owed hne _ := by
    have := hp.owed hne
    refine .inr ⟨?_, by simp [hw]⟩
    show w.owed + s.isLooking.toNat ≤ v.owed + flow.isLooking.toNat
    rw [hs, Bool.toNat_false]
    omega
  suspends s' h := ⟨(hsusp s' h).1, by simp [(hsusp s' h).2]⟩
  exhausted span h := absurd h (ho span)

/-- A task goes on at once, and stays with the signal if it has joined. -/
theorem again (hp : Passes id w v) (hs : s.isLooking = false)
    (hw : s'.isWaiting = false)
    (hj : s.hasJoined = true → s'.hasJoined = true) :
    Turn w id s (.again s', v) := by
  refine .of_passes hp hs (by simp [Flow.isWaiting, Flow.stage?, hw]) ?_
    (by simp [Flow.waits?]) (by simp)
  intro h
  refine Nat.le_trans (hp.members id) (Nat.le_trans h ?_)
  simp only [Flow.hasJoined, Flow.stage?, Option.any_some]
  cases hsj : s.hasJoined with
  | false => exact Nat.zero_le _
  | true => simp [hj hsj]

/-- A task leaves the signal and then goes on at once, or not at all. -/
theorem leave (hp : Passes id w v) (hs : s.isLooking = false)
    (hw : flow.isWaiting = false) (hf : flow.waits? = none)
    (ho : ∀ span, flow ≠ .finish (.failed (.exhausted span))) :
    Turn w id s (flow, v.leave id) := by
  refine .of_passes (hp.trans (passes_leave id v)) hs hw ?_ (by simp [hf]) ho
  intro h
  have hle := hp.members id
  have hone := Bool.toNat_le s.hasJoined
  rw [(leave_frame v id).2.2.2.2.1, Signal.members_leave, if_pos rfl]
  omega

/-- A task that has not joined the signal is over. -/
theorem finish (hp : Passes id w v) (hs : s.hasJoined = false)
    (hl : s.isLooking = false)
    (ho : ∀ span, o ≠ .failed (.exhausted span)) :
    Turn w id s (.finish o, v) := by
  refine .of_passes hp hl rfl ?_ (by simp [Flow.waits?]) (by simpa using ho)
  intro h
  rw [hs] at h
  exact Nat.le_trans (hp.members id) h

/-- A task goes on waiting. -/
theorem pause (hsusp : s.isSuspended = true)
    (hw : s.isWaiting = true → id ∈ w.signal.waiting) :
    Turn w id s (.pause s, w) where
  ready := List.Subset.refl _
  waiting _ hmem _ := hmem
  woken _ _ _ _ _ hmem := .inl hmem
  members _ _ := Nat.le_refl _
  joined h := h
  shutDown h := h
  owed _ _ := .inr ⟨Nat.le_refl _, fun h => ⟨h, rfl⟩⟩
  suspends s' h := by
    obtain rfl := Option.some.inj h
    exact ⟨hsusp, hw⟩
  exhausted span h := by cases h

section Joining

variable {u : World}

theorem waiting_of_join (hsignal : u.signal = w.signal.join id) {i : Nat}
    (hmem : i ∈ u.signal.waiting) (hne : i ≠ id) : i ∈ w.signal.waiting := by
  rw [hsignal] at hmem
  unfold Signal.join at hmem
  split at hmem
  · exact hmem
  · simpa [hne] using hmem

theorem mem_of_join (hsignal : u.signal = w.signal.join id) {i : Nat}
    (hmem : i ∈ w.signal.waiting) : i ∈ u.signal.waiting := by
  rw [hsignal]
  unfold Signal.join
  split
  · exact hmem
  · exact List.mem_append_left _ hmem

theorem members_of_join (hsignal : u.signal = w.signal.join id) (i : Nat) :
    u.signal.members i ≤ w.signal.members i + if i = id then 1 else 0 := by
  rw [hsignal]
  exact Signal.members_join_le ..

/-- A task that has joined the signal takes a place, or finds none. -/
theorem join (r : Request) (hready : u.ready = w.ready)
    (hsignal : u.signal = w.signal.join id)
    (hdown : u.pool.shutDown = w.pool.shutDown)
    (hload : w.config.maxActive ≤ u.pool.load ∨
      s'.isWaiting = false ∧ w.pool.load + 1 ≤ u.pool.load)
    (hj : s'.hasJoined = true) :
    Turn w id (.acquire r .looking) (.again s', u) where
  ready _ hmem := by rwa [hready]
  waiting _ hmem hne := waiting_of_join hsignal hmem hne
  woken _ _ _ _ _ hmem := .inl (mem_of_join hsignal hmem)
  members i hne := by
    have hle := members_of_join hsignal i
    rwa [if_neg hne] at hle
  joined h := by
    have hle := members_of_join hsignal id
    rw [if_pos rfl] at hle
    show u.signal.members id ≤ s'.hasJoined.toNat
    rw [hj]
    exact Nat.le_trans hle (Nat.succ_le_succ h)
  shutDown h := by rwa [hdown]
  owed _ _ := by
    refine hload.imp_right fun ⟨hw, hle⟩ => ⟨?_, ?_⟩
    · have htold : u.signal.told = w.signal.told := by
        rw [hsignal, Signal.join]
        split <;> rfl
      show w.owed + 1 ≤ u.owed + s'.isLooking.toNat
      simp only [World.owed, htold]
      omega
    · simp [Flow.isWaiting, Flow.stage?, hw]
  suspends _ h := by cases h
  exhausted _ h := by cases h

/-- A task that has joined the signal finds the pool full or gone for good,
and leaves. -/
theorem joinLeave (r : Request) (hd : w.Distinct → u.Distinct)
    (htasks : u.tasks = w.tasks) (hready : u.ready = w.ready)
    (hsignal : u.signal = w.signal.join id)
    (hdown : u.pool.shutDown = w.pool.shutDown)
    (hload : w.config.maxActive ≤ u.pool.load ∨ u.pool.shutDown = true)
    (ho : ∀ span, o ≠ .failed (.exhausted span)) :
    Turn w id (.acquire r .looking) (.finish o, u.leave id) := by
  have hp := passes_leave id u
  have hmem : ∀ i, (u.leave id).signal.members i =
      u.signal.members i - if i = id then 1 else 0 := by
    intro i
    rw [(leave_frame u id).2.2.2.2.1, Signal.members_leave]
  have hpool : (u.leave id).pool = u.pool := by simp
  refine ⟨hready ▸ hp.ready, ?_, ?_, ?_, ?_, ?_, ?_, ?_, ?_⟩
  · exact fun i hi hne => waiting_of_join hsignal (hp.waiting hi) hne
  · exact fun h t ht hne hwaits hi =>
      hp.woken (hd h) t (htasks ▸ ht) hne hwaits (mem_of_join hsignal hi)
  · intro i hne
    have hle := members_of_join hsignal i
    rw [if_neg hne] at hle
    exact Nat.le_trans (hp.members i) hle
  · intro h
    have hle := members_of_join hsignal id
    rw [if_pos rfl] at hle
    have hzero : w.signal.members id = 0 := Nat.le_zero.1 h
    show (u.leave id).signal.members id ≤ 0
    rw [hmem, if_pos rfl]
    omega
  · exact fun h => hp.shutDown (hdown ▸ h)
  · intro _ hup
    rw [hpool] at hup ⊢
    refine .inl (hload.resolve_right ?_)
    simp [hup]
  · exact fun _ h => by cases h
  · exact fun span h => absurd (Flow.finish.inj h) (ho span)

end Joining

end Turn

/-! ## Requests -/

theorem turn_discardAttempt {w v : World} {id : Nat} {s : Stage}
    (hp : Passes id w v) (hs : s.isLooking = false) (r : Request) (conn : Nat)
    (bad : Bool) : Turn w id s (v.discardAttempt r conn bad) :=
  .again (hp.trans (passes_beginCall id v _)) hs rfl fun _ => rfl

theorem turn_rejectAttempt {w v : World} {id : Nat} {s : Stage}
    (hp : Passes id w v) (hs : s.isLooking = false) (r : Request)
    (conn : Nat) : Turn w id s (v.rejectAttempt id r conn) := by
  have hm : Passes id v
      { v with pool.metrics := v.pool.metrics.recordBad } :=
    passes_setPool id v (Nat.le_refl _) rfl
  exact turn_discardAttempt ((hp.trans hm).trans (passes_note id _ _)) hs r
    conn true

theorem turn_look (w : World) (id : Nat) (r : Request) :
    Turn w id (.acquire r .looking) (w.look id r) := by
  have hfull : ∀ {p : Pool}, p.hasRoom w.config.maxActive = false →
      w.config.maxActive ≤ p.load := by
    intro p h
    simpa [Pool.hasRoom, Pool.load] using h
  unfold look
  dsimp only
  rcases hoffer : (w.join id).pool.offer (w.join id).config (w.join id).now
    with ⟨offer, p⟩
  cases Pool.offers hoffer with
  | shutDown hdown =>
    exact .joinLeave r (fun h => h.of_map_id rfl (Nat.le_refl _)) rfl rfl rfl
      rfl (.inr hdown) (by simp)
  | kept hup hidle =>
    refine .join r rfl rfl rfl (.inr ⟨rfl, ?_⟩) rfl
    simp only [Pool.load, Pool.reserve_frame]
    exact Nat.le_refl _
  | room hup hidle hroom =>
    refine .join r rfl rfl rfl (.inr ⟨rfl, ?_⟩) rfl
    simp only [Pool.load, Pool.reserve_frame]
    exact Nat.le_refl _
  | @overdue loan q hup hidle hroom htake =>
    obtain ⟨-, -, rest, hperm, rfl⟩ := Pool.takeOverdue?_eq_some htake
    have hle := hfull hroom
    have hlen := hperm.length_eq
    refine .join r (by simp) (by simp) (by simp) (.inl ?_) rfl
    simp only [Pool.load, List.length_cons, join_frame, note_frame,
      revoke_frame, Pool.reserve_frame] at hle hlen ⊢
    omega
  | nothing hup hidle hroom =>
    exact .join r rfl rfl rfl (.inl (hfull hroom)) rfl
  | beyond hup hidle hroom =>
    exact .joinLeave r (fun h => h.of_map_id rfl (Nat.le_refl _)) rfl rfl rfl
      rfl (.inl (hfull hroom)) (by simp)

theorem turn_connecting (w : World) (id : Nat) (r : Request)
    (record : Record String) (failures : Nat) (call : Pending)
    (limit : Option Timer) :
    Turn w id (.acquire r (.connecting record failures call limit))
      (w.connecting id r record failures call limit) := by
  have hv : ∀ {v : World}, (v = w ∨ ∃ span, v = (w.setWait span).2) →
      Passes id w v := by
    rintro v (rfl | ⟨span, rfl⟩)
    · exact .refl id v
    · exact passes_setWait id w span
  have ha := passes_hearAnswer id w call.call
  rcases hx : w.connecting id r record failures call limit with ⟨flow, v⟩
  cases connects hx with
  | opened => exact .again ha rfl rfl fun _ => rfl
  | retry =>
    refine .of_passes ha rfl rfl (fun h => Nat.le_trans (ha.members id) h) ?_
      (by simp)
    intro s' h
    obtain rfl := Option.some.inj h
    exact ⟨by simp [Stage.isSuspended, Attempt.isSuspended], rfl⟩
  | refused =>
    exact .leave (ha.trans (passes_freeSlot id _)) rfl rfl rfl (by simp)
  | timeout h =>
    exact .leave ((hv h).trans (passes_freeSlot id _)) rfl rfl rfl (by simp)
  | wait h =>
    refine .of_passes (hv h) rfl rfl
      (fun hm => Nat.le_trans ((hv h).members id) hm) ?_ (by simp)
    intro s' h
    obtain rfl := Option.some.inj h
    exact ⟨rfl, rfl⟩

/-- A request that waits goes on waiting, or it looks again: that makes up for
the ring that it has listened to. -/
theorem turn_waiting (w : World) (id : Nat) (r : Request) (since : Nat)
    (alarm : Timer) :
    Turn w id (.acquire r (.waiting since alarm))
      (w.waiting id r since alarm) := by
  have htold : ∀ {b : Bool}, w.signal.isTold id = b →
      (id ∈ w.signal.waiting ↔ b = false) := by
    rintro b rfl
    simp [Signal.isTold]
  rcases hx : w.waiting id r since alarm with ⟨flow, v⟩
  cases waits hx with
  | on hnot => exact .pause rfl fun _ => (htold hnot).2 rfl
  | @told m =>
    let u : World := { w with signal := w.signal.listen id, pool.metrics := m }
    have hp := passes_leave id u
    have hmem : ∀ i, u.signal.members i ≤ w.signal.members i :=
      w.signal.members_listen_le id
    refine ⟨hp.ready, ?_, ?_, ?_, ?_, hp.shutDown, ?_, ?_, ?_⟩
    · exact fun i hi _ => hp.waiting hi
    · exact fun hd => hp.woken (hd.of_map_id rfl (Nat.le_refl _))
    · exact fun i _ => Nat.le_trans (hp.members i) (hmem i)
    · intro h
      show (u.leave id).signal.members id ≤ 0
      have hle := Nat.le_trans (hmem id) h
      have hone := Bool.toNat_le (Stage.hasJoined
        (.acquire r (.waiting since alarm)))
      rw [(leave_frame u id).2.2.2.2.1, Signal.members_leave, if_pos rfl]
      omega
    · intro hne _
      have hle := hp.owed hne
      have hlisten := w.signal.told_listen id
      refine .inr ⟨?_, fun h => by cases h⟩
      show w.owed + 0 ≤ (u.leave id).owed + 1
      refine Nat.le_trans ?_ (Nat.succ_le_succ hle)
      exact Nat.add_le_add_left hlisten w.pool.load
    · exact fun _ h => by cases h
    · exact fun _ h => by cases h
  | @roused m hnot =>
    have hm : Passes id w { w with pool.metrics := m } :=
      passes_setPool id w (Nat.le_refl _) rfl
    exact .leave hm rfl rfl rfl (by simp)
  | @exhausted m hnot =>
    have hm : Passes id w { w with pool.metrics := m } :=
      passes_setPool id w (Nat.le_refl _) rfl
    have ht : Turn w id (.acquire r (.waiting since alarm))
        (.finish .done, World.leave { w with pool.metrics := m } id) :=
      .leave hm rfl rfl rfl (by simp)
    exact { ht with exhausted := fun _ _ => ⟨rfl, (htold hnot).2 rfl⟩ }

theorem turn_resumeAcquire (w : World) (id : Nat) (r : Request)
    (a : Attempt) : Turn w id (.acquire r a) (w.resumeAcquire id r a) := by
  have hself := Passes.refl id w
  cases a with
  | looking => exact turn_look w id r
  | opening record failures =>
    exact .again (passes_beginCall id w _) rfl rfl fun _ => rfl
  | connecting record failures call limit => exact turn_connecting ..
  | recovering e =>
    simp only [resumeAcquire, recover]
    split
    · exact turn_discardAttempt hself rfl r e.conn false
    · split
      · exact .again hself rfl rfl fun _ => rfl
      · exact .again (passes_beginCall id w _) rfl rfl fun _ => rfl
  | undoing e call =>
    have ha := passes_hearAnswer id w call.call
    simp only [resumeAcquire]
    split
    · split
      all_goals
        rename_i heq
        rw [heq] at ha
      · exact .again ha rfl rfl fun _ => rfl
      · exact turn_discardAttempt ha rfl r e.conn false
    · exact .pause rfl fun h => by cases h
  | checking e =>
    simp only [resumeAcquire, check]
    split
    · exact turn_discardAttempt hself rfl r e.conn false
    · split
      · exact turn_rejectAttempt hself rfl r e.conn
      · split
        · exact .again (passes_beginCall id w _) rfl rfl fun _ => rfl
        · exact .again hself rfl rfl fun _ => rfl
  | pinging e call =>
    have ha := passes_hearAnswer id w call.call
    simp only [resumeAcquire]
    split
    · split
      all_goals
        rename_i heq
        rw [heq] at ha
      · exact .again ha rfl rfl fun _ => rfl
      · exact turn_rejectAttempt ha rfl r e.conn
    · exact .pause rfl fun h => by cases h
  | lending e =>
    simp only [resumeAcquire, lend]
    split
    · rename_i p hlend
      obtain ⟨-, rfl⟩ := Pool.lend?_eq_some hlend
      refine .leave (.of_same ?_ ?_ ?_ ?_ ?_ ?_) rfl rfl rfl (by simp)
      case refine_5 =>
        simp only [note_frame, Pool.load, Pool.free_frame, List.length_append,
          List.length_singleton]
        omega
      all_goals simp
    · exact turn_discardAttempt hself rfl r e.conn false
  | discarding call bad =>
    simp only [resumeAcquire]
    split
    · have hf := (passes_hearAnswer id w call.call).trans
        (passes_freeSlot id _)
      obtain ⟨r', h | h⟩ :=
        discarded_eq (w.hearAnswer call.call).2 id r bad
      all_goals
        rw [h]
        exact .leave hf rfl rfl rfl (by simp)
    · exact .pause rfl fun h => by cases h
  | waiting since alarm => exact turn_waiting w id r since alarm

/-! ## Returns -/

theorem turn_discardReturn {w v : World} {id : Nat} {s : Stage}
    (hp : Passes id w v) (hs : s.isLooking = false) (hj : s.hasJoined = false)
    (conn : Nat) : Turn w id s (v.discardReturn conn) :=
  .again (hp.trans (passes_beginCall id v _)) hs rfl (by simp [hj])

theorem turn_startReturn (w : World) (id lease : Nat) :
    Turn w id (.giveBack (.starting lease)) (w.startReturn lease) := by
  have htaken : ∀ {loan : Loan} {q : Pool} (m : Metrics) (e : Event),
      w.pool.takeLoan? lease = some (loan, q) →
      Passes id w (note { w with pool := { q with metrics := m }.reserve }
        e) := by
    intro loan q m e htake
    obtain ⟨-, rest, hperm, rfl⟩ := Pool.takeLoan?_eq_some htake
    have hlen := hperm.length_eq
    refine Passes.trans (passes_setPool id w ?_ (by simp)) (passes_note id _ e)
    simp only [Pool.load, Pool.reserve_frame, List.length_cons] at hlen ⊢
    omega
  rcases hx : w.startReturn lease with ⟨flow, v⟩
  cases startsReturn hx with
  | tooLate => exact .finish (.refl id w) rfl rfl (by simp)
  | discard htake => exact turn_discardReturn (htaken _ _ htake) rfl rfl _
  | store htake =>
    exact .again (htaken _ _ htake) rfl rfl (by simp [Stage.hasJoined])
  | undo htake =>
    exact .again ((htaken _ _ htake).trans (passes_beginCall id _ _)) rfl rfl
      (by simp [Stage.hasJoined])

theorem turn_resumeReturn (w : World) (id : Nat) (r : Return) :
    Turn w id (.giveBack r) (w.resumeReturn r) := by
  cases r with
  | starting lease => exact turn_startReturn w id lease
  | undoing e call =>
    have ha := passes_hearAnswer id w call.call
    simp only [resumeReturn]
    split
    · split
      all_goals
        rename_i heq
        rw [heq] at ha
      · exact .again ha rfl rfl (by simp [Stage.hasJoined])
      · exact turn_discardReturn ha rfl rfl e.conn
    · exact .pause rfl fun h => by cases h
  | storing e =>
    simp only [resumeReturn, store]
    split
    · rename_i p hstore
      obtain ⟨-, -, rfl⟩ := Pool.store?_eq_some hstore
      refine .finish (passes_ring id ?_ (by simp)) rfl rfl (by simp)
      simp only [Pool.load, Pool.free_frame]
      omega
    · exact turn_discardReturn (.refl id w) rfl rfl e.conn
  | discarding call =>
    simp only [resumeReturn]
    split
    · exact .finish ((passes_hearAnswer id w call.call).trans
        (passes_freeSlot id _)) rfl rfl (by simp)
    · exact .pause rfl fun h => by cases h

/-! ## Other tasks -/

theorem passes_withdraw (id : Nat) (loans : List Loan) (w : World) :
    Passes id w (loans.foldl (fun w loan =>
      (w.revoke loan.lease).note (.withdrawn loan.lease)) w) :=
  withdraw_rel (.refl id) .trans
    (fun w lease => (passes_revoke id w lease).trans (passes_note id _ _))
    loans w

theorem turn_ask (w : World) (id lease : Nat) (op : Operation)
    (call : Nat → Call) (raw : Bool) :
    Turn w id (.start op) (w.ask lease call raw) := by
  unfold ask
  split
  · exact .again (passes_beginCall id w _) rfl rfl (by simp [Stage.hasJoined])
  · rename_i e herr
    refine .finish (.refl id w) rfl rfl ?_
    unfold physical at herr
    split at herr
    · split at herr
      · cases herr
      · cases herr
        simp
    · cases herr
      simp

theorem turn_begin (w : World) (id : Nat) (op : Operation) :
    Turn w id (.start op) (w.begin op) := by
  have hself := Passes.refl id w
  cases op with
  | acquire =>
    simp only [begin]
    split
    · exact .finish hself rfl rfl (by simp)
    · exact .again hself rfl rfl (by simp [Stage.hasJoined])
  | close lease =>
    have hm := passes_markClosed id w lease
    simp only [begin, close]
    split
    · split
      · exact .finish hself rfl rfl (by simp)
      · split
        · exact .again (hm.trans (passes_revoke id _ lease)) rfl rfl
            (by simp [Stage.hasJoined])
        · exact .finish hm rfl rfl (by simp)
    · exact .finish hself rfl rfl (by simp)
  | ping lease query => exact turn_ask ..
  | rollback lease =>
    simp only [begin, rollback]
    split
    · exact .finish hself rfl rfl (by simp)
    · exact turn_ask ..
  | closePhysical lease => exact turn_ask ..
  | invalidate =>
    exact .again (passes_setPool id w (Nat.le_refl _) rfl) rfl rfl
      (by simp [Stage.hasJoined])
  | shutDown =>
    simp only [begin, shutDown]
    split
    · exact .finish hself rfl rfl (by simp)
    · exact .again ((passes_ringAll id rfl).trans (passes_withdraw id _ _))
        rfl rfl (by simp [Stage.hasJoined])
  | setOptions options =>
    refine .again ?_ rfl rfl (by simp [Stage.hasJoined])
    exact .of_same rfl rfl rfl rfl (Nat.le_refl _) rfl

theorem passes_hearAnswers (id : Nat) (calls : List Pending) (w : World) :
    Passes id w (w.hearAnswers calls).2 :=
  hearAnswers_rel (.refl id) .trans (passes_hearAnswer id) calls w

theorem passes_beginCloses (id : Nat) (conns : List Nat) (w : World) :
    Passes id w (w.beginCloses conns).2 :=
  beginCloses_rel (.refl id) .trans (passes_hearAnswer id)
    (fun w _ => passes_beginCall id w _) conns w

/-- Whatever a task does, others can rely on its turn. -/
theorem Turn.resume (w : World) (id : Nat) (s : Stage) :
    Turn w id s (w.resume id s) := by
  cases s with
  | start op => exact turn_begin w id op
  | acquire r a => exact turn_resumeAcquire w id r a
  | giveBack r => exact turn_resumeReturn w id r
  | asking call raw =>
    have ha := passes_hearAnswer id w call.call
    simp only [World.resume, resumeAsking]
    split
    · split
      all_goals
        rename_i heq
        rw [heq] at ha
      · exact .finish ha rfl rfl (by simp)
      · split
        · exact .finish ha rfl rfl (by simp)
        · exact .finish ha rfl rfl (by simp)
    · exact .pause rfl fun h => by cases h
  | closing todo calls =>
    have hp := (passes_hearAnswers id calls w).trans
      (passes_beginCloses id todo _)
    simp only [World.resume, resumeClosing]
    split
    · exact .finish hp rfl rfl (by simp)
    · refine .of_passes hp rfl rfl (fun h => Nat.le_trans (hp.members id) h)
        ?_ (by simp)
      intro s' h
      obtain rfl := Option.some.inj h
      exact ⟨rfl, rfl⟩

/-! ## Tasks that are dropped -/

theorem passes_letGo (id : Nat) (w : World) (outside : Bool) (conn : Nat) :
    Passes id w (w.letGo outside conn) := by
  unfold letGo
  split
  · exact passes_note id w _
  · exact
      { distinct := fun hd => hd.spawn _ _
        tasks := List.subset_append_left ..
        ready := List.subset_append_left ..
        waiting := List.Subset.refl _
        woken := fun _ _ _ _ _ hmem => .inl hmem
        members := fun _ => Nat.le_refl _
        owed := fun _ => Nat.le_refl _
        shutDown := fun h => h }

/-- What a task has is let go of before it leaves the signal. -/
theorem dropStage_cases (id : Nat) (w : World) (outside : Bool) (s : Stage) :
    ∃ v, Passes id w v ∧ (∀ t ∈ w.strays outside s, t.id ∈ v.ready) ∧
      w.dropStage outside id s = if s.hasJoined then v.leave id else v := by
  have hslot : ∀ (e : Option Entry) (slot : Bool),
      let v := e.elim w fun e => w.letGo outside e.conn
      Passes id w (if slot then v.freeSlot else v) ∧
        (outside = false → e.isSome = true →
          w.nextTask ∈ (if slot then v.freeSlot else v).ready) := by
    intro e slot v
    have he : Passes id w v ∧
        (outside = false → e.isSome = true → w.nextTask ∈ v.ready) := by
      cases e with
      | none => exact ⟨.refl id w, by simp⟩
      | some e =>
        refine ⟨passes_letGo id w outside e.conn, ?_⟩
        rintro rfl -
        exact List.mem_append_right _ List.mem_cons_self
    cases slot
    · exact he
    · have hf := passes_freeSlot id v
      exact ⟨he.1.trans hf, fun ho hs => hf.ready (he.2 ho hs)⟩
  have hstray : ∀ t ∈ w.strays outside s,
      outside = false ∧ s.entry?.isSome = true ∧ t.id = w.nextTask := by
    intro t ht
    unfold strays at ht
    split at ht
    · cases ht
    · rename_i hinside
      obtain ⟨e, he, rfl⟩ := List.mem_map.1 ht
      rw [Option.mem_toList] at he
      exact ⟨by simpa using hinside, by rw [he]; rfl, rfl⟩
  cases s with
  | acquire r a =>
    obtain ⟨hp, hr⟩ := hslot a.entry? a.hasSlot
    refine ⟨_, hp, fun t ht => ?_, rfl⟩
    obtain ⟨ho, he, hid⟩ := hstray t ht
    exact hid ▸ hr ho he
  | giveBack r =>
    obtain ⟨hp, hr⟩ := hslot r.entry? r.hasSlot
    refine ⟨_, hp, fun t ht => ?_, rfl⟩
    obtain ⟨ho, he, hid⟩ := hstray t ht
    exact hid ▸ hr ho he
  | _ =>
    refine ⟨w, .refl id w, fun t ht => ?_, rfl⟩
    cases (hstray t ht).2.1

/-- The task that closes what was in the slot of another one can go on. -/
theorem strays_ready (id : Nat) (w : World) (outside : Bool) (s : Stage) :
    ∀ t ∈ w.strays outside s, t.id ∈ (w.dropStage outside id s).ready := by
  obtain ⟨v, -, hr, he⟩ := dropStage_cases id w outside s
  intro t ht
  rw [he]
  split
  · exact (passes_leave id v).ready (hr t ht)
  · exact hr t ht

/-- A task that is dropped passes rings on. -/
theorem passes_dropStage (id : Nat) (w : World) (outside : Bool) (s : Stage) :
    Passes id w (w.dropStage outside id s) := by
  obtain ⟨v, hp, -, he⟩ := dropStage_cases id w outside s
  rw [he]
  split
  · exact hp.trans (passes_leave id v)
  · exact hp

/-- A task that is dropped leaves the signal. -/
theorem members_dropStage {w : World} {id : Nat} {s : Stage} (outside : Bool)
    (h : w.signal.members id ≤ s.hasJoined.toNat) :
    (w.dropStage outside id s).signal.members id = 0 := by
  obtain ⟨v, hp, -, he⟩ := dropStage_cases id w outside s
  have hle := Nat.le_trans (hp.members id) h
  rw [he]
  cases hj : s.hasJoined with
  | false =>
    rw [if_neg (by simp)]
    rw [hj] at hle
    exact Nat.le_zero.1 hle
  | true =>
    rw [if_pos rfl, (leave_frame v id).2.2.2.2.1, Signal.members_leave,
      if_pos rfl]
    rw [hj, Bool.toNat_true] at hle
    omega

end World

end DatabasePool
