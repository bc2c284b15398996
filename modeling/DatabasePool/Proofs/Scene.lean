import DatabasePool.Proofs.Bookkeeping
import DatabasePool.Proofs.Turns

/-!
# What can be seen of a world

Of a world, a scene shows the time, the pool without its counts, the holders,
the options of the server, and which connections have been opened, begun to be
closed or abandoned.  Timers, rings and the order of the tasks are not to be
seen in it.

Each lemma here is about one of the small changes that tasks make to a world,
and says what of it can be seen.
-/

namespace DatabasePool

/-- The answer to a call does not change the options. -/
theorem Server.answer_options (s : Server) (call : Call) :
    (s.answer call).2.options = s.options := by
  simp only [answer]
  split
  · cases call <;> rfl
  · cases call <;> rfl

/-! ## Scenes -/

namespace Event

/-- The connection that was opened, and the options of the call for it. -/
def opens? : Event → Option (Nat × String)
  | answered (.connect options) conn => some (conn, options)
  | _ => none

/-- The connection that was begun to be closed. -/
def begins? : Event → Option Nat
  | began call => call.closes?
  | _ => none

/-- The connection that was dropped where it could not be closed. -/
def abandons? : Event → Option Nat
  | abandoned conn => some conn
  | _ => none

end Event

/-- What is to be seen of a world. -/
structure Scene where
  now : Nat
  /-- The pool without its counts. -/
  pool : Pool
  handles : List Handle
  /-- The options that the server opens connections with. -/
  options : String
  /-- How many connections the server has. -/
  total : Nat
  /-- The connections that have been opened, each with the options of the
  call for it, the last one in front. -/
  opened : List (Nat × String)
  /-- The connections that have been begun to be closed. -/
  begun : List Nat
  /-- The connections that have been dropped where they could not be closed. -/
  abandoned : List Nat

namespace World

/-- The connections that have been opened, each with the options of the call
for it, the last one in front. -/
def opened (w : World) : List (Nat × String) :=
  w.history.filterMap (·.2.opens?)

/-- The connections that have been begun to be closed, by the pool or by a
holder, the last one in front. -/
def begun (w : World) : List Nat := w.history.filterMap (·.2.begins?)

/-- The connections that have been dropped where they could not be closed. -/
def abandoned (w : World) : List Nat :=
  w.history.filterMap (·.2.abandons?)

/-- What is to be seen of the world. -/
def scene (w : World) : Scene where
  now := w.now
  pool := { w.pool with metrics := {} }
  handles := w.handles
  options := w.server.options
  total := w.server.connections.length
  opened := w.opened
  begun := w.begun
  abandoned := w.abandoned

section Frame

variable (w : World)

@[simp] theorem scene_note (e : Event) :
    (w.note e).scene =
      { w.scene with
        opened := e.opens?.toList ++ w.scene.opened
        begun := e.begins?.toList ++ w.scene.begun
        abandoned := e.abandons?.toList ++ w.scene.abandoned } := by
  cases ho : e.opens? <;> cases hb : e.begins? <;>
    cases ha : e.abandons? <;>
      simp [scene, opened, begun, abandoned, note, ho, hb, ha]

@[simp] theorem scene_setTimer (moment : Nat) :
    (w.setTimer moment).2.scene = w.scene := rfl

@[simp] theorem scene_setWait (span : Nat) :
    (w.setWait span).2.scene = w.scene := rfl

@[simp] theorem scene_beginCall (call : Call) :
    (w.beginCall call).2.scene =
      { w.scene with begun := call.closes?.toList ++ w.scene.begun } := by
  simp only [beginCall]
  rw [scene_note, scene_setTimer]
  rfl

@[simp] theorem scene_join (id : Nat) : (w.join id).scene = w.scene := rfl

@[simp] theorem scene_leave (id : Nat) : (w.leave id).scene = w.scene := by
  simp [scene, opened, begun, abandoned]

@[simp] theorem scene_ring : w.ring.scene = w.scene := by
  simp [scene, opened, begun, abandoned]

@[simp] theorem scene_ringAll : w.ringAll.scene = w.scene := by
  simp [scene, opened, begun, abandoned]

@[simp] theorem scene_freeSlot :
    w.freeSlot.scene = { w.scene with pool := w.scene.pool.free } := by
  simp [freeSlot, scene, opened, begun, abandoned, Pool.free]

@[simp] theorem scene_revoke (lease : Nat) :
    (w.revoke lease).scene =
      { w.scene with
        handles := w.scene.handles.modify lease
          ({ · with valid := false }) } := rfl

@[simp] theorem scene_letGo (outside : Bool) (conn : Nat) :
    (w.letGo outside conn).scene =
      if outside then
        { w.scene with abandoned := conn :: w.scene.abandoned }
      else w.scene := by
  unfold letGo
  split
  · rw [scene_note]
    rfl
  · rfl

/-- The counts of the pool are not to be seen. -/
@[simp] theorem scene_setMetrics (m : Metrics) :
    scene { w with pool.metrics := m } = w.scene := rfl

theorem scene_setServer (s : Server) :
    scene { w with server := s } =
      { w.scene with
        options := s.options
        total := s.connections.length } := rfl

/-- The answer to a call for a new connection: there is one more, or not. -/
theorem scene_hearAnswer_connect (options : String) :
    ((w.hearAnswer (.connect options)).1 = .ok w.scene.total ∧
        (w.hearAnswer (.connect options)).2.scene =
          { w.scene with
            total := w.scene.total + 1
            opened := (w.scene.total, options) :: w.scene.opened }) ∨
      (∃ message, (w.hearAnswer (.connect options)).1 = .error message) ∧
        (w.hearAnswer (.connect options)).2.scene = w.scene := by
  unfold hearAnswer
  have ha := w.server.answer_connect options
  have hoptions := w.server.answer_options (.connect options)
  rcases hs : w.server.answer (.connect options) with ⟨result, server⟩
  rw [hs] at ha hoptions
  dsimp only at ha hoptions
  obtain ⟨rfl, hlen⟩ | ⟨⟨message, rfl⟩, hlen⟩ := ha
  · refine .inl ⟨rfl, ?_⟩
    rw [scene_note, scene_setServer, hlen, hoptions]
    rfl
  · refine .inr ⟨⟨message, rfl⟩, ?_⟩
    rw [scene_note, scene_setServer, hlen, hoptions]
    rfl

/-- The answer to any other call is not to be seen. -/
theorem scene_hearAnswer {call : Call}
    (h : ∀ options, call ≠ .connect options) :
    (w.hearAnswer call).2.scene = w.scene := by
  unfold hearAnswer
  have hlen := w.server.answer_length h
  have hoptions := w.server.answer_options call
  have hopens : ∀ conn, (Event.answered call conn).opens? = none := by
    intro conn
    cases call with
    | connect options => exact absurd rfl (h options)
    | _ => rfl
  rcases hs : w.server.answer call with ⟨_ | _, server⟩
  all_goals
    rw [hs] at hlen hoptions
    dsimp only at hlen hoptions ⊢
    rw [scene_note, scene_setServer, hlen, hoptions]
  · rfl
  · rw [hopens]
    rfl

end Frame

end World

end DatabasePool
