import DatabasePool.Proofs.Trying

/-!
# What a task has to do with the server about new connections

A task that opens a connection calls the server, and is told that there is none
or which one it is.  All of that is written down in the history, but not by
whom.  So it is read off the history as the task acts.

* `World.dialling` is what a task had to do with the server, read off a run.
* `Dialled` is the rule for the calls of one opening: what may follow on what,
  and when.
* `World.diallingBy_eq` says what one action brings, from what the task has
  written down, and `Run.dialling_of_over` that a task that is over brings
  nothing.
-/

namespace DatabasePool

/-! ## What a task has to do with the server -/

/-- When a call is answered that has begun at a moment, and of which the answer
takes so many milliseconds.  Timers run in whole milliseconds. -/
def Time.answered (begun delay : Nat) : Nat := tick (begun + ofMillis delay)

theorem Time.le_answered (begun delay : Nat) : begun ≤ answered begun delay :=
  Nat.le_trans (Nat.le_add_right ..) (le_tick _)

/-- When a call for a new connection that has begun at a moment has taken too
long: when the connect timeout has been waited for. -/
def Config.connectLate (c : Config) (begun : Nat) : Nat :=
  Time.tick (Time.waited begun c.timeouts.connect)

theorem Config.le_connectLate (c : Config) (begun : Nat) :
    begun ≤ c.connectLate begun :=
  Nat.le_trans (Time.le_waited ..) (Time.le_tick _)

/-- What a task has to do with the server about a new connection. -/
inductive Dialling where
  /-- It calls the server.  The answer is to take so many milliseconds. -/
  | called (delay : Nat)
  /-- It is told that there is none, with a message. -/
  | refused (message : String)
  /-- It is told the connection. -/
  | opened (conn : Nat)
  deriving DecidableEq, Repr

/-- A call begins. -/
def Dialling.isCall : Dialling → Bool
  | called _ => true
  | _ => false

/-- What an event has to do with new connections.  The delay of a call and the
message of a refusal are those of the plan that the server has then. -/
def Event.dialling? (plan : Plan) : Event → Option Dialling
  | began (.connect _) => some (.called plan.delay)
  | failed (.connect _) => some (.refused plan.message)
  | answered (.connect _) conn => some (.opened conn)
  | _ => none

namespace World

/-- What a task had to do with the server about new connections in an action,
and when, the last thing in front. -/
def diallingBy (id : Nat) (w : World) (a : Action) (w' : World) :
    List (Nat × Dialling) :=
  if a = .run id then
    (w'.history.take (w'.history.length - w.history.length)).filterMap fun x =>
      (x.2.dialling? w.server.connect).map (x.1, ·)
  else []

/-- The same for all actions from this world on. -/
def dialling (w : World) (id : Nat) (as : List Action) :
    List (Nat × Dialling) :=
  w.along (diallingBy id) as

end World

/-! ## The rule for the calls of an opening -/

/-- Where the calls of an opening stand. -/
inductive Phase where
  /-- The next call is to begin at this moment.  The calls so far were refused
  with these messages, the last one in front. -/
  | calling (now : Nat) (messages : List String)
  /-- A call has begun at this moment, and the answer takes so long. -/
  | waiting (begun delay : Nat) (messages : List String)
  /-- The connection is there. -/
  | opened (conn : Nat)
  deriving DecidableEq, Repr

/-- The rule for the calls of an opening that begins at a moment.  A call
begins at the moment when the one before was refused, if no more than three
were refused so far, and its answer is heard at the moment when it is due, and
only if it is not late.  Nothing is left to be done when the answer is a
connection. -/
inductive Dialled (c : Config) (start : Nat) :
    List (Nat × Dialling) → Phase → Prop where
  | start : Dialled c start [] (.calling start [])
  | call {log : List (Nat × Dialling)} {now : Nat} {messages : List String}
      (h : Dialled c start log (.calling now messages))
      (hfew : messages.length ≤ connectRetries) (delay : Nat) :
      Dialled c start ((now, .called delay) :: log) (.waiting now delay messages)
  | refuse {log : List (Nat × Dialling)} {begun delay : Nat}
      {messages : List String}
      (h : Dialled c start log (.waiting begun delay messages))
      (hearly : Time.answered begun delay ≤ c.connectLate begun)
      (message : String) :
      Dialled c start ((Time.answered begun delay, .refused message) :: log)
        (.calling (Time.answered begun delay) (message :: messages))
  | connect {log : List (Nat × Dialling)} {begun delay : Nat}
      {messages : List String}
      (h : Dialled c start log (.waiting begun delay messages))
      (hearly : Time.answered begun delay ≤ c.connectLate begun)
      (conn : Nat) :
      Dialled c start ((Time.answered begun delay, .opened conn) :: log)
        (.opened conn)

/-- The calls so far are as many as were refused, and one more unless the next
one is still to begin. -/
theorem Dialled.countP_calls {c : Config} {start : Nat}
    {log : List (Nat × Dialling)} {phase : Phase}
    (h : Dialled c start log phase) :
    match phase with
    | .calling _ messages => log.countP (·.2.isCall) = messages.length ∧
        messages.length ≤ connectRetries + 1
    | .waiting _ _ messages => log.countP (·.2.isCall) = messages.length + 1 ∧
        messages.length ≤ connectRetries
    | .opened _ => log.countP (·.2.isCall) ≤ connectRetries + 1 := by
  induction h with
  | start => exact ⟨rfl, Nat.zero_le _⟩
  | call h hfew delay ih =>
    refine ⟨?_, hfew⟩
    rw [List.countP_cons_of_pos rfl, ih.1]
  | refuse h hearly message ih =>
    refine ⟨?_, Nat.succ_le_succ ih.2⟩
    rw [List.countP_cons_of_neg (by simp [Dialling.isCall]), ih.1]
    rfl
  | connect h hearly conn ih =>
    rw [List.countP_cons_of_neg (by simp [Dialling.isCall]), ih.1]
    exact Nat.succ_le_succ ih.2

/-- There are four calls at most. -/
theorem Dialled.calls_le {c : Config} {start : Nat}
    {log : List (Nat × Dialling)} {phase : Phase}
    (h : Dialled c start log phase) :
    log.countP (·.2.isCall) ≤ connectRetries + 1 := by
  have hcount := h.countP_calls
  cases phase with
  | calling now messages => exact hcount.1 ▸ hcount.2
  | waiting begun delay messages => exact hcount.1 ▸ Nat.succ_le_succ hcount.2
  | opened conn => exact hcount

/-! ## What is read off the history -/

/-- A call that fails is told the message of its plan. -/
theorem Server.message_of_error (s : Server) {call : Call} {message : String}
    (h : (s.answer call).1 = .error message) :
    message = (s.plan call).message := by
  simp only [answer] at h
  split at h
  · exact (Except.error.inj h).symm
  · cases call <;> cases h

namespace World

section Writing

variable {w v w' : World} {id : Nat}

/-- What a task has written down itself is what it had to do with the server.
What is written down when it ends is not. -/
theorem diallingBy_eq {t : Task} {flow : Flow} {evs : List (Nat × Event)}
    (hhistory : v.history = evs ++ w.history) (hf : Follows v t flow w') :
    w.diallingBy id (.run id) w' = evs.filterMap fun x =>
      (x.2.dialling? w.server.connect).map (x.1, ·) := by
  obtain ⟨more, hmore, hends⟩ := hf.adds
  have hlen : w'.history.length - w.history.length =
      (more.map (v.now, ·) ++ evs).length := by
    rw [hmore, hhistory, ← List.append_assoc, List.length_append,
      Nat.add_sub_cancel]
  rw [diallingBy, if_pos rfl, hlen, hmore, hhistory, ← List.append_assoc,
    List.take_left, List.filterMap_append]
  have hnone : (more.map (v.now, ·)).filterMap (fun x =>
      (x.2.dialling? w.server.connect).map (x.1, ·)) = [] := by
    refine List.filterMap_eq_nil_iff.2 fun x hx => ?_
    obtain ⟨e, he, rfl⟩ := List.mem_map.1 hx
    rcases hends e he with ⟨conn, rfl⟩ | ⟨o, -, rfl⟩ | ⟨-, rfl⟩ <;> rfl
  rw [hnone, List.nil_append]

/-- A call that fails is written down, and its message is that of the plan. -/
theorem denied {u : World} {call : Call} {message : String}
    (h : (u.hearAnswer call).1 = .error message) :
    (u.hearAnswer call).2.history = (u.now, .failed call) :: u.history ∧
      message = (u.server.plan call).message := by
  have hmessage : ∀ {message : String}, (u.server.answer call).1 =
      .error message → message = (u.server.plan call).message :=
    fun h => u.server.message_of_error h
  unfold hearAnswer at h ⊢
  generalize u.server.answer call = x at h hmessage ⊢
  rcases x with ⟨_ | n, server⟩
  · cases h
    exact ⟨rfl, hmessage rfl⟩
  · cases h

/-- A task has written this down, and has left the pool, the holders and the
clock alone. -/
structure Leaves (w v : World) (evs : List (Nat × Event)) : Prop where
  pool : v.pool = w.pool
  handles : v.handles = w.handles
  now : v.now = w.now
  history : v.history = evs ++ w.history

theorem leaves_beginCall (w : World) (id : Nat) (call : Call) :
    w.Leaves ((w.pick id).beginCall call).2 [(w.now, .began call)] :=
  ⟨rfl, rfl, rfl, rfl⟩

theorem leaves_answered {call : Call} {conn : Nat}
    (h : ((w.pick id).hearAnswer call).1 = .ok conn) :
    w.Leaves ((w.pick id).hearAnswer call).2 [(w.now, .answered call conn)] := by
  have hheard := hearAnswer_frame (w.pick id) call
  exact ⟨hheard.2.2.2.1, hheard.2.2.2.2.1, hheard.2.2.2.2.2.2.1, answered h⟩

theorem leaves_denied {call : Call} {message : String}
    (h : ((w.pick id).hearAnswer call).1 = .error message) :
    w.Leaves ((w.pick id).hearAnswer call).2 [(w.now, .failed call)] := by
  have hheard := hearAnswer_frame (w.pick id) call
  exact ⟨hheard.2.2.2.1, hheard.2.2.2.2.1, hheard.2.2.2.2.2.2.1, (denied h).1⟩

theorem leaves_connectTimer (w : World) (id : Nat) (limit : Option Timer) :
    w.Leaves ((w.pick id).connectTimer limit).2 [] := by
  cases limit <;> exact ⟨rfl, rfl, rfl, rfl⟩

end Writing

end World

section Runs

variable {c : Config} {s : Server} {as later : List Action} {a : Action}
  {v w w' : World} {id : Nat}

/-- One more action brings to what a task had to do with the server what it
does. -/
theorem Run.dialling_cons (h : Run c s as v) (h' : Run c s (later ++ as) w)
    (ha : w.act a = some w') : v.dialling id (a :: later) =
      w.diallingBy id a w' ++ v.dialling id later :=
  World.along_cons _ (h.replay_append h') ha

end Runs

end DatabasePool
