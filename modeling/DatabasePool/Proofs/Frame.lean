import DatabasePool.World.Step

/-!
# What the small changes leave alone

Each lemma here is about one of the small changes that tasks make to a world,
and says which parts of the world stay as they were.  They are stated as
conjunctions so that `simp` takes all their parts.

The release signal wakes tasks, and that changes `ready` and nothing else.  A
call changes the server and the history, and the number of connections opened
so far goes up by one when a new connection is answered.

`hearAnswers_rel`, `beginCloses_rel` and `withdraw_rel` are about tasks that do
one small change after the other.
-/

namespace DatabasePool

/-! ## The server -/

namespace Server

@[simp] theorem setPlan_connections (s : Server) (call : Call) (plan : Plan) :
    (s.setPlan call plan).connections = s.connections := by
  cases call <;> rfl

@[simp] theorem markClosed_length (s : Server) (conn : Nat) (closed : Bool) :
    (s.markClosed conn closed).connections.length = s.connections.length :=
  List.length_modify ..

@[simp] theorem markManual_length (s : Server) (conn : Nat) (manual : Bool) :
    (s.markManual conn manual).connections.length = s.connections.length :=
  List.length_modify ..

/-- A new connection has the next number, and one more is open from then on. -/
theorem answer_connect (s : Server) (options : String) :
    ((s.answer (.connect options)).1 = .ok s.connections.length ∧
        (s.answer (.connect options)).2.connections.length =
          s.connections.length + 1) ∨
      (∃ message, (s.answer (.connect options)).1 = .error message) ∧
        (s.answer (.connect options)).2.connections.length =
          s.connections.length := by
  simp only [answer]
  split
  · exact .inr ⟨⟨_, rfl⟩, by rw [setPlan_connections]⟩
  · exact .inl ⟨rfl, by simp⟩

/-- The answer to any other call opens nothing. -/
theorem answer_length (s : Server) {call : Call}
    (h : ∀ options, call ≠ .connect options) :
    (s.answer call).2.connections.length = s.connections.length := by
  simp only [answer]
  split
  · rw [setPlan_connections]
  · cases call with
    | connect options => exact absurd rfl (h options)
    | ping conn query => rfl
    | rollback conn => rfl
    | close conn => exact markClosed_length ..

end Server

namespace World

/-! ## Waking -/

@[simp] theorem wake_frame (w : World) (id : Nat) :
    (w.wake id).config = w.config ∧ (w.wake id).server = w.server ∧
      (w.wake id).pool = w.pool ∧ (w.wake id).handles = w.handles ∧
      (w.wake id).signal = w.signal ∧ (w.wake id).now = w.now ∧
      (w.wake id).tasks = w.tasks ∧ (w.wake id).yielded = w.yielded ∧
      (w.wake id).nextTask = w.nextTask ∧ (w.wake id).history = w.history := by
  unfold wake
  split <;> simp

@[simp] theorem wakeWaiting_frame (w : World) (id : Nat) :
    (w.wakeWaiting id).config = w.config ∧
      (w.wakeWaiting id).server = w.server ∧
      (w.wakeWaiting id).pool = w.pool ∧
      (w.wakeWaiting id).handles = w.handles ∧
      (w.wakeWaiting id).signal = w.signal ∧
      (w.wakeWaiting id).now = w.now ∧
      (w.wakeWaiting id).tasks = w.tasks ∧
      (w.wakeWaiting id).yielded = w.yielded ∧
      (w.wakeWaiting id).nextTask = w.nextTask ∧
      (w.wakeWaiting id).history = w.history := by
  unfold wakeWaiting
  split
  · split <;> simp
  · simp

private theorem elim_wakeWaiting_frame (told : Option Nat) (w : World) :
    (told.elim w w.wakeWaiting).config = w.config ∧
      (told.elim w w.wakeWaiting).server = w.server ∧
      (told.elim w w.wakeWaiting).pool = w.pool ∧
      (told.elim w w.wakeWaiting).handles = w.handles ∧
      (told.elim w w.wakeWaiting).signal = w.signal ∧
      (told.elim w w.wakeWaiting).now = w.now ∧
      (told.elim w w.wakeWaiting).tasks = w.tasks ∧
      (told.elim w w.wakeWaiting).yielded = w.yielded ∧
      (told.elim w w.wakeWaiting).nextTask = w.nextTask ∧
      (told.elim w w.wakeWaiting).history = w.history := by
  cases told <;> simp

/-! ## The release signal -/

@[simp] theorem join_frame (w : World) (id : Nat) :
    (w.join id).config = w.config ∧ (w.join id).server = w.server ∧
      (w.join id).pool = w.pool ∧ (w.join id).handles = w.handles ∧
      (w.join id).signal = w.signal.join id ∧ (w.join id).now = w.now ∧
      (w.join id).tasks = w.tasks ∧ (w.join id).ready = w.ready ∧
      (w.join id).yielded = w.yielded ∧
      (w.join id).nextTask = w.nextTask ∧
      (w.join id).history = w.history := by
  simp [join]

@[simp] theorem ring_frame (w : World) :
    w.ring.config = w.config ∧ w.ring.server = w.server ∧
      w.ring.pool = w.pool ∧ w.ring.handles = w.handles ∧
      w.ring.signal = w.signal.ring.2 ∧ w.ring.now = w.now ∧
      w.ring.tasks = w.tasks ∧ w.ring.yielded = w.yielded ∧
      w.ring.nextTask = w.nextTask ∧ w.ring.history = w.history := by
  unfold ring
  simpa using elim_wakeWaiting_frame _ _

@[simp] theorem leave_frame (w : World) (id : Nat) :
    (w.leave id).config = w.config ∧ (w.leave id).server = w.server ∧
      (w.leave id).pool = w.pool ∧ (w.leave id).handles = w.handles ∧
      (w.leave id).signal = (w.signal.leave id).2 ∧
      (w.leave id).now = w.now ∧ (w.leave id).tasks = w.tasks ∧
      (w.leave id).yielded = w.yielded ∧
      (w.leave id).nextTask = w.nextTask ∧
      (w.leave id).history = w.history := by
  unfold leave
  simpa using elim_wakeWaiting_frame _ _

private theorem foldl_wakeWaiting_frame (ids : List Nat) (w : World) :
    (ids.foldl wakeWaiting w).config = w.config ∧
      (ids.foldl wakeWaiting w).server = w.server ∧
      (ids.foldl wakeWaiting w).pool = w.pool ∧
      (ids.foldl wakeWaiting w).handles = w.handles ∧
      (ids.foldl wakeWaiting w).signal = w.signal ∧
      (ids.foldl wakeWaiting w).now = w.now ∧
      (ids.foldl wakeWaiting w).tasks = w.tasks ∧
      (ids.foldl wakeWaiting w).yielded = w.yielded ∧
      (ids.foldl wakeWaiting w).nextTask = w.nextTask ∧
      (ids.foldl wakeWaiting w).history = w.history := by
  induction ids generalizing w with
  | nil => simp
  | cons id ids ih =>
    rw [List.foldl_cons]
    simpa using ih (w.wakeWaiting id)

@[simp] theorem ringAll_frame (w : World) :
    w.ringAll.config = w.config ∧ w.ringAll.server = w.server ∧
      w.ringAll.pool = w.pool ∧ w.ringAll.handles = w.handles ∧
      w.ringAll.signal = w.signal.ringAll.2 ∧ w.ringAll.now = w.now ∧
      w.ringAll.tasks = w.tasks ∧ w.ringAll.yielded = w.yielded ∧
      w.ringAll.nextTask = w.nextTask ∧ w.ringAll.history = w.history := by
  unfold ringAll
  simpa using foldl_wakeWaiting_frame _ _

/-! ## Slots and leases -/

@[simp] theorem freeSlot_frame (w : World) :
    w.freeSlot.config = w.config ∧ w.freeSlot.server = w.server ∧
      w.freeSlot.pool = w.pool.free ∧ w.freeSlot.handles = w.handles ∧
      w.freeSlot.signal = w.signal.ring.2 ∧ w.freeSlot.now = w.now ∧
      w.freeSlot.tasks = w.tasks ∧ w.freeSlot.yielded = w.yielded ∧
      w.freeSlot.nextTask = w.nextTask ∧
      w.freeSlot.history = w.history := by
  simp [freeSlot]

@[simp] theorem revoke_frame (w : World) (lease : Nat) :
    (w.revoke lease).config = w.config ∧
      (w.revoke lease).server = w.server ∧
      (w.revoke lease).pool = w.pool ∧
      (w.revoke lease).signal = w.signal ∧ (w.revoke lease).now = w.now ∧
      (w.revoke lease).tasks = w.tasks ∧ (w.revoke lease).ready = w.ready ∧
      (w.revoke lease).yielded = w.yielded ∧
      (w.revoke lease).nextTask = w.nextTask ∧
      (w.revoke lease).history = w.history := by
  simp [revoke]

@[simp] theorem markClosed_frame (w : World) (lease : Nat) :
    (w.markClosed lease).config = w.config ∧
      (w.markClosed lease).server = w.server ∧
      (w.markClosed lease).pool = w.pool ∧
      (w.markClosed lease).signal = w.signal ∧
      (w.markClosed lease).now = w.now ∧
      (w.markClosed lease).tasks = w.tasks ∧
      (w.markClosed lease).ready = w.ready ∧
      (w.markClosed lease).yielded = w.yielded ∧
      (w.markClosed lease).nextTask = w.nextTask ∧
      (w.markClosed lease).history = w.history := by
  simp [markClosed]

/-! ## Calls -/

@[simp] theorem note_frame (w : World) (e : Event) :
    (w.note e).config = w.config ∧ (w.note e).server = w.server ∧
      (w.note e).pool = w.pool ∧ (w.note e).handles = w.handles ∧
      (w.note e).signal = w.signal ∧ (w.note e).now = w.now ∧
      (w.note e).tasks = w.tasks ∧ (w.note e).ready = w.ready ∧
      (w.note e).yielded = w.yielded ∧ (w.note e).nextTask = w.nextTask ∧
      (w.note e).history = (w.now, e) :: w.history := by
  simp [note]

@[simp] theorem setTimer_frame (w : World) (moment : Nat) :
    (w.setTimer moment).2.config = w.config ∧
      (w.setTimer moment).2.server = w.server ∧
      (w.setTimer moment).2.pool = w.pool ∧
      (w.setTimer moment).2.handles = w.handles ∧
      (w.setTimer moment).2.signal = w.signal ∧
      (w.setTimer moment).2.now = w.now ∧
      (w.setTimer moment).2.tasks = w.tasks ∧
      (w.setTimer moment).2.ready = w.ready ∧
      (w.setTimer moment).2.yielded = w.yielded ∧
      (w.setTimer moment).2.nextTask = w.nextTask ∧
      (w.setTimer moment).2.history = w.history := by
  simp [setTimer]

@[simp] theorem setWait_frame (w : World) (span : Nat) :
    (w.setWait span).2.config = w.config ∧
      (w.setWait span).2.server = w.server ∧
      (w.setWait span).2.pool = w.pool ∧
      (w.setWait span).2.handles = w.handles ∧
      (w.setWait span).2.signal = w.signal ∧
      (w.setWait span).2.now = w.now ∧
      (w.setWait span).2.tasks = w.tasks ∧
      (w.setWait span).2.ready = w.ready ∧
      (w.setWait span).2.yielded = w.yielded ∧
      (w.setWait span).2.nextTask = w.nextTask ∧
      (w.setWait span).2.history = w.history := by
  simp [setWait]

@[simp] theorem beginCall_frame (w : World) (call : Call) :
    (w.beginCall call).2.config = w.config ∧
      (w.beginCall call).2.server = w.server ∧
      (w.beginCall call).2.pool = w.pool ∧
      (w.beginCall call).2.handles = w.handles ∧
      (w.beginCall call).2.signal = w.signal ∧
      (w.beginCall call).2.now = w.now ∧
      (w.beginCall call).2.tasks = w.tasks ∧
      (w.beginCall call).2.ready = w.ready ∧
      (w.beginCall call).2.yielded = w.yielded ∧
      (w.beginCall call).2.nextTask = w.nextTask ∧
      (w.beginCall call).2.history = (w.now, .began call) :: w.history := by
  simp [beginCall]

@[simp] theorem beginCall_call (w : World) (call : Call) :
    (w.beginCall call).1.call = call := rfl

@[simp] theorem hearAnswer_frame (w : World) (call : Call) :
    (w.hearAnswer call).2.config = w.config ∧
      (w.hearAnswer call).1 = (w.server.answer call).1 ∧
      (w.hearAnswer call).2.server = (w.server.answer call).2 ∧
      (w.hearAnswer call).2.pool = w.pool ∧
      (w.hearAnswer call).2.handles = w.handles ∧
      (w.hearAnswer call).2.signal = w.signal ∧
      (w.hearAnswer call).2.now = w.now ∧
      (w.hearAnswer call).2.tasks = w.tasks ∧
      (w.hearAnswer call).2.ready = w.ready ∧
      (w.hearAnswer call).2.yielded = w.yielded ∧
      (w.hearAnswer call).2.nextTask = w.nextTask := by
  unfold hearAnswer
  rcases w.server.answer call with ⟨_ | _, _⟩ <;> simp

/-! ## One call or loan after the other -/

section Loops

variable {R : World → World → Prop} (hrefl : ∀ w, R w w)
  (htrans : ∀ {u v w}, R u v → R v w → R u w)

include hrefl htrans

/-- What holds between a world and the one after an answer also holds when
several answers are heard. -/
theorem hearAnswers_rel (hhear : ∀ w call, R w (w.hearAnswer call).2)
    (calls : List Pending) (w : World) : R w (w.hearAnswers calls).2 := by
  induction calls generalizing w with
  | nil => exact hrefl w
  | cons call calls ih =>
    simp only [hearAnswers]
    split
    · exact htrans (hhear w call.call) (ih _)
    · exact ih w

/-- The same when several calls begin, and those that are answered at once are
heard. -/
theorem beginCloses_rel (hhear : ∀ w call, R w (w.hearAnswer call).2)
    (hbegin : ∀ w conn, R w (w.beginCall (.close conn)).2)
    (conns : List Nat) (w : World) : R w (w.beginCloses conns).2 := by
  induction conns generalizing w with
  | nil => exact hrefl w
  | cons conn conns ih =>
    simp only [beginCloses]
    split
    · exact htrans (htrans (hbegin w conn) (hhear ..)) (ih _)
    · exact htrans (hbegin w conn) (ih _)

/-- The same when several loans are called in. -/
theorem withdraw_rel
    (hone : ∀ w lease, R w ((w.revoke lease).note (.withdrawn lease)))
    (loans : List Loan) (w : World) :
    R w (loans.foldl (fun w loan =>
      (w.revoke loan.lease).note (.withdrawn loan.lease)) w) :=
  loans.foldlRecOn _ (hrefl w) fun v hv loan _ =>
    htrans hv (hone v loan.lease)

end Loops

end World

end DatabasePool
