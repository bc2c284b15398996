import DatabasePool.Proofs.Records
import Mathlib.Data.List.Basic

/-!
# The same story told in another way

Worlds can go the same way without being the same: what happened before is
another story, tasks have other numbers, and one holder may have begun to give
the connection back in only one of them.  Then one world is a retelling of the
other, and so it stays, since all that a task does depends neither on numbers,
other than through their being the same, nor on the history, nor on that mark
of a holder, unless it begins a close for that holder.

* `Retelling.world` and `Retelling.action` retell a world and an action.
* For each change there is to a world, one lemma says that it can be made
  before the world is retold or after.  The lemmas have the names of the
  changes.
* `Retelling.Suits` says to which worlds that applies.
* `Retelling.Suits.act` puts this together: an action as it is retold leads to
  the retelling of where the action leads, and can happen just when that can.
* `Retelling.exists_action` says that nothing else can happen.
-/

namespace DatabasePool

/-- What is changed when a story is told in another way. -/
structure Retelling where
  /-- Tasks from this number on have other numbers. -/
  first : Nat
  /-- How far their numbers are moved. -/
  gap : Nat
  /-- The lease of a holder who has begun to give the connection back. -/
  closer : Option Nat
  /-- What happened before. -/
  before : List (Nat × Event)

namespace Retelling

variable (r : Retelling)

/-- The number of a task. -/
def number (k : Nat) : Nat := if k < r.first then k else k + r.gap

/-- An event, which may be about a task. -/
def event : Event → Event
  | .ended id o => .ended (r.number id) o
  | .dropped id => .dropped (r.number id)
  | .lent id lease conn latency => .lent (r.number id) lease conn latency
  | .foundBad id conn => .foundBad (r.number id) conn
  | e => e

/-- A line of the history. -/
def line (x : Nat × Event) : Nat × Event := (x.1, r.event x.2)

/-- A task. -/
def task (t : Task) : Task := { t with id := r.number t.id }

/-- Those who have joined the release signal. -/
def signal (s : Signal) : Signal :=
  { s with
    waiting := s.waiting.map r.number
    told := s.told.map r.number }

/-- The holders, one of whom may be marked. -/
def handles (hs : List Handle) : List Handle :=
  r.closer.elim hs fun lease => hs.modify lease ({ · with closed := true })

/-- An action, which may be one of a task. -/
def action : Action → Action
  | .run id => .run (r.number id)
  | .cancel outside id => .cancel outside (r.number id)
  | a => a

/-- A world. -/
def world (w : World) : World :=
  { w with
    handles := r.handles w.handles
    signal := r.signal w.signal
    tasks := w.tasks.map r.task
    ready := w.ready.map r.number
    yielded := w.yielded.map r.number
    nextTask := w.nextTask + r.gap
    history := w.history.map r.line ++ r.before }

/-- What comes of a change, and the world after it. -/
def both {α : Type} (x : α × World) : α × World := (x.1, r.world x.2)

/-- No two tasks get the same number. -/
theorem number_inj {i j : Nat} : r.number i = r.number j ↔ i = j := by
  simp only [number]
  split <;> split <;> omega

theorem number_of_le {k : Nat} (h : r.first ≤ k) : r.number k = k + r.gap :=
  if_neg (Nat.not_lt.2 h)

theorem beq_number (i j : Nat) : (r.number i == r.number j) = (i == j) := by
  rw [Bool.eq_iff_iff, beq_iff_eq, beq_iff_eq, r.number_inj]

theorem bne_number (i j : Nat) : (r.number i != r.number j) = (i != j) :=
  congrArg not (r.beq_number i j)

variable (ids : List Nat) (w : World) (id : Nat)

theorem contains_number :
    (ids.map r.number).contains (r.number id) = ids.contains id := by
  rw [List.contains_map, List.contains_eq_any_beq]
  simp only [r.beq_number]

theorem erase_number :
    (ids.map r.number).erase (r.number id) = (ids.erase id).map r.number :=
  (List.map_erase (fun _ _ => r.number_inj.1) ids).symm

theorem filter_number :
    (ids.map r.number).filter (· != r.number id) =
      (ids.filter (· != id)).map r.number := by
  simp only [List.filter_map, Function.comp_def, r.bne_number]

/-! ## Small changes -/

/-- What is read from a world as it is retold. -/
@[simp] theorem frame :
    (r.world w).config = w.config ∧ (r.world w).server = w.server ∧
      (r.world w).pool = w.pool ∧
      (r.world w).handles = r.handles w.handles ∧
      (r.world w).signal = r.signal w.signal ∧ (r.world w).now = w.now :=
  ⟨rfl, rfl, rfl, rfl, rfl, rfl⟩

theorem isDue (timer : Timer) : (r.world w).isDue timer = w.isDue timer := rfl

theorem note (e : Event) :
    (r.world w).note (r.event e) = r.world (w.note e) := rfl

theorem task? :
    (r.world w).task? (r.number id) = (w.task? id).map r.task := by
  simp only [World.task?, world, List.find?_map, Function.comp_def, task,
    r.beq_number]

theorem setStage (s : Stage) :
    (r.world w).setStage (r.number id) s = r.world (w.setStage id s) := by
  simp only [World.setStage, world, List.map_map, Function.comp_def, task,
    r.number_inj]
  congr 1
  refine List.map_congr_left fun t _ => ?_
  split <;> rfl

theorem setLimitTimer (timer : Timer) :
    (r.world w).setLimitTimer (r.number id) timer =
      r.world (w.setLimitTimer id timer) := by
  simp only [World.setLimitTimer, world, List.map_map, Function.comp_def, task,
    r.number_inj]
  congr 1
  refine List.map_congr_left fun t _ => ?_
  split <;> rfl

theorem removeTask :
    (r.world w).removeTask (r.number id) = r.world (w.removeTask id) := by
  simp only [World.removeTask, world, r.filter_number, List.filter_map,
    Function.comp_def, task, r.bne_number]

theorem wake : (r.world w).wake (r.number id) = r.world (w.wake id) := by
  unfold World.wake
  rw [show (r.world w).ready = w.ready.map r.number from rfl,
    r.contains_number]
  split
  · rfl
  · simp only [world, List.map_append, List.map_cons, List.map_nil]

/-- A task that is started is one of those whose numbers are moved. -/
theorem spawn (h : r.first ≤ w.nextTask) (s : Stage) (limit : Option Limit) :
    (r.world w).spawn s limit = r.world (w.spawn s limit) := by
  simp only [World.spawn, world, List.map_append, List.map_cons, List.map_nil,
    task, r.number_of_le h, Nat.add_right_comm]

theorem setWait (span : Nat) :
    (r.world w).setWait span = r.both (w.setWait span) := rfl

theorem beginCall (call : Call) :
    (r.world w).beginCall call = r.both (w.beginCall call) := rfl

theorem hearAnswer (call : Call) :
    (r.world w).hearAnswer call = r.both (w.hearAnswer call) := by
  unfold World.hearAnswer
  rw [show (r.world w).server = w.server from rfl]
  rcases w.server.answer call with ⟨_ | conn, server⟩ <;> rfl

/-! ## The release signal -/

theorem wakeWaiting :
    (r.world w).wakeWaiting (r.number id) = r.world (w.wakeWaiting id) := by
  simp only [World.wakeWaiting, r.task?]
  cases w.task? id with
  | none => rfl
  | some t =>
    cases hwaits : t.stage.isWaiting <;>
      simp [task, hwaits, r.wake]

theorem elim_wakeWaiting (told : Option Nat) :
    (told.map r.number).elim (r.world w) (r.world w).wakeWaiting =
      r.world (told.elim w w.wakeWaiting) := by
  cases told with
  | none => rfl
  | some id => exact r.wakeWaiting w id

theorem foldl_wakeWaiting :
    (ids.map r.number).foldl World.wakeWaiting (r.world w) =
      r.world (ids.foldl World.wakeWaiting w) := by
  induction ids generalizing w with
  | nil => rfl
  | cons id ids ih =>
    simp only [List.map_cons, List.foldl_cons, r.wakeWaiting, ih]

theorem signal_join (s : Signal) :
    (r.signal s).join (r.number id) = r.signal (s.join id) := by
  rcases s with ⟨waiting, told, _ | _⟩
  · simp [Signal.join, signal]
  · rfl

theorem join : (r.world w).join (r.number id) = r.world (w.join id) := by
  unfold World.join
  rw [show (r.world w).signal = r.signal w.signal from rfl, r.signal_join]
  rfl

theorem signal_ring (s : Signal) :
    (r.signal s).ring = (s.ring.1.map r.number, r.signal s.ring.2) := by
  rcases s with ⟨_ | ⟨i, rest⟩, told, kept⟩ <;> rfl

theorem ring : (r.world w).ring = r.world w.ring := by
  unfold World.ring
  rw [show (r.world w).signal = r.signal w.signal from rfl, r.signal_ring]
  exact r.elim_wakeWaiting { w with signal := w.signal.ring.2 } w.signal.ring.1

theorem ringAll : (r.world w).ringAll = r.world w.ringAll :=
  r.foldl_wakeWaiting w.signal.waiting { w with signal := w.signal.ringAll.2 }

theorem signal_leave (s : Signal) :
    (r.signal s).leave (r.number id) =
      ((s.leave id).1.map r.number, r.signal (s.leave id).2) := by
  unfold Signal.leave
  rw [show (r.signal s).told = s.told.map r.number from rfl, r.contains_number,
    r.erase_number]
  split
  · exact r.signal_ring { s with told := s.told.erase id }
  · simp only [signal, r.erase_number, Option.map_none]

theorem leave : (r.world w).leave (r.number id) = r.world (w.leave id) := by
  unfold World.leave
  rw [show (r.world w).signal = r.signal w.signal from rfl, r.signal_leave]
  exact r.elim_wakeWaiting { w with signal := (w.signal.leave id).2 }
    (w.signal.leave id).1

/-- One has been told if the other one has. -/
theorem isTold :
    (r.signal w.signal).isTold (r.number id) = w.signal.isTold id :=
  congrArg not (r.contains_number ..)

theorem listen (s : Signal) :
    (r.signal s).listen (r.number id) = r.signal (s.listen id) := by
  simp only [Signal.listen, signal, r.erase_number]

theorem freeSlot : (r.world w).freeSlot = r.world w.freeSlot :=
  r.ring { w with pool := w.pool.free }

theorem letGo (h : r.first ≤ w.nextTask) (outside : Bool) (conn : Nat) :
    (r.world w).letGo outside conn = r.world (w.letGo outside conn) := by
  unfold World.letGo
  split
  · rfl
  · exact r.spawn w h ..

/-! ## Holders -/

@[simp] theorem length_handles (hs : List Handle) :
    (r.handles hs).length = hs.length := by
  unfold handles
  cases r.closer with
  | none => rfl
  | some lease => exact List.length_modify ..

/-- What is known of a holder. -/
theorem getElem?_handles (hs : List Handle) (lease : Nat) :
    (r.handles hs)[lease]? = hs[lease]?.map fun x =>
      if r.closer = some lease then { x with closed := true } else x := by
  unfold handles
  cases r.closer with
  | none => simp
  | some i => simp [List.getElem?_modify]

/-- The holder who is marked is not one who comes later. -/
theorem handles_append {hs : List Handle} (x : Handle)
    (h : ∀ lease, r.closer = some lease → lease < hs.length) :
    r.handles (hs ++ [x]) = r.handles hs ++ [x] := by
  refine List.ext_getElem? fun i => ?_
  rw [r.getElem?_handles]
  rcases Nat.lt_or_ge i hs.length with hlt | hge
  · rw [List.getElem?_append_left hlt,
      List.getElem?_append_left (by rwa [r.length_handles]),
      r.getElem?_handles]
  · have hother : r.closer ≠ some i := fun hc => Nat.not_lt.2 hge (h i hc)
    rw [List.getElem?_append_right hge,
      List.getElem?_append_right (by rwa [r.length_handles]), r.length_handles]
    simp only [hother, if_false, Option.map_id']

/-- A change that has nothing to do with the mark can be made to holders who
are marked as well. -/
theorem handles_modify (hs : List Handle) (lease : Nat)
    {f : Handle → Handle}
    (hf : ∀ x, f { x with closed := true } = { f x with closed := true }) :
    (r.handles hs).modify lease f = r.handles (hs.modify lease f) := by
  refine List.ext_getElem? fun i => ?_
  simp only [List.getElem?_modify, r.getElem?_handles]
  cases hs[i]? with
  | none => rfl
  | some x =>
    simp only [Option.map_some, Option.map_eq_map]
    split <;> split <;> simp [hf]

theorem revoke (lease : Nat) :
    (r.world w).revoke lease = r.world (w.revoke lease) := by
  simp only [World.revoke, world]
  rw [r.handles_modify]
  exact fun _ => rfl

theorem markClosed (lease : Nat) :
    (r.world w).markClosed lease = r.world (w.markClosed lease) := by
  simp only [World.markClosed, world]
  rw [r.handles_modify]
  exact fun _ => rfl

/-- The mark says nothing about the lease. -/
theorem isValid (lease : Nat) :
    (r.world w).isValid lease = w.isValid lease := by
  simp only [World.isValid, world, r.getElem?_handles]
  cases w.handles[lease]? with
  | none => rfl
  | some x =>
    simp only [Option.map_some]
    split <;> rfl

theorem physical (lease : Nat) :
    (r.world w).physical lease = w.physical lease := by
  simp only [World.physical, world, r.getElem?_handles]
  cases w.handles[lease]? with
  | none => rfl
  | some x =>
    simp only [Option.map_some]
    split <;> rfl

theorem ask (lease : Nat) (call : Nat → Call) (raw : Bool) :
    (r.world w).ask lease call raw = r.both (w.ask lease call raw) := by
  simp only [World.ask, r.physical]
  cases w.physical lease <;> rfl

theorem rollback (lease : Nat) :
    (r.world w).rollback lease = r.both (w.rollback lease) := by
  simp only [World.rollback, r.isValid, r.ask]
  rw [show (r.world w).server = w.server from rfl]
  split <;> rfl

theorem resumeAsking (call : Pending) (raw : Bool) :
    (r.world w).resumeAsking call raw = r.both (w.resumeAsking call raw) := by
  simp only [World.resumeAsking, r.hearAnswer]
  rw [show (r.world w).isDue call.timer = w.isDue call.timer from rfl]
  split
  · rcases w.hearAnswer call.call with ⟨_ | _, v⟩
    · cases raw <;> rfl
    · rfl
  · rfl

/-- It is only for the holder who is marked that a close would go another
way. -/
theorem close {lease : Nat} (h : r.closer ≠ some lease) :
    (r.world w).close lease = r.both (w.close lease) := by
  have hget : (r.world w).handles[lease]? = w.handles[lease]? := by
    simp [world, r.getElem?_handles, h]
  simp only [World.close, hget, r.markClosed, r.revoke]
  cases w.handles[lease]? with
  | none => rfl
  | some x =>
    dsimp only
    split
    · rfl
    · split <;> rfl

theorem forget (h : r.first ≤ w.nextTask) (outside : Bool) (lease : Nat) :
    (r.world w).forget outside lease = r.world (w.forget outside lease) := by
  simp only [World.forget, r.isValid, r.revoke]
  split
  · split
    · rfl
    · exact r.spawn (w.revoke lease) h ..
  · rfl

/-! ## What tasks do -/

section Requests

variable (q : Request)

theorem discardAttempt (conn : Nat) (bad : Bool) :
    (r.world w).discardAttempt q conn bad =
      r.both (w.discardAttempt q conn bad) := rfl

theorem rejectAttempt (conn : Nat) :
    (r.world w).rejectAttempt (r.number id) q conn =
      r.both (w.rejectAttempt id q conn) := rfl

theorem failAttempt (o : Outcome) :
    (r.world w).failAttempt (r.number id) o =
      r.both (w.failAttempt id o) := by
  simp only [World.failAttempt, r.freeSlot, r.leave]
  rfl

theorem look :
    (r.world w).look (r.number id) q = r.both (w.look id q) := by
  simp only [World.look, r.join]
  have hoffer : (r.world (w.join id)).pool.offer (r.world (w.join id)).config
      (r.world (w.join id)).now =
        (w.join id).pool.offer (w.join id).config (w.join id).now := rfl
  rw [hoffer]
  rcases (w.join id).pool.offer (w.join id).config (w.join id).now with
    ⟨offer, pool⟩
  have hseen : { r.world (w.join id) with pool } =
      r.world { w.join id with pool } := rfl
  simp only [hseen]
  cases offer with
  | shutDown | beyond => exact congrArg (Prod.mk _) (r.leave ..)
  | overdue loan =>
    simp only [r.revoke]
    rfl
  | _ => rfl

theorem connecting (record : Record String) (failures : Nat) (call : Pending)
    (limit : Option Timer) :
    (r.world w).connecting (r.number id) q record failures call limit =
      r.both (w.connecting id q record failures call limit) := by
  simp only [World.connecting, r.isDue, r.hearAnswer]
  split
  · rcases w.hearAnswer call.call with ⟨_ | _, v⟩
    · dsimp only [both]
      split
      · exact r.failAttempt ..
      · rfl
    · rfl
  · cases limit with
    | some timer | none =>
      rw [apply_ite r.both, ← r.failAttempt]
      rfl

theorem recover (e : Entry) :
    (r.world w).recover q e = r.both (w.recover q e) := by
  simp only [World.recover, r.discardAttempt, r.beginCall]
  rw [show (r.world w).server = w.server from rfl]
  split
  · rfl
  · split <;> rfl

theorem check (e : Entry) :
    (r.world w).check (r.number id) q e = r.both (w.check id q e) := by
  simp only [World.check, r.discardAttempt, r.rejectAttempt, r.beginCall]
  rw [show (r.world w).server = w.server from rfl,
    show (r.world w).pool = w.pool from rfl,
    show (r.world w).config = w.config from rfl,
    show (r.world w).now = w.now from rfl]
  split
  · rfl
  · split
    · rfl
    · split <;> rfl

theorem lend (e : Entry)
    (h : ∀ lease, r.closer = some lease → lease < w.handles.length) :
    (r.world w).lend (r.number id) q e = r.both (w.lend id q e) := by
  have hlease : (r.world w).handles.length = w.handles.length :=
    r.length_handles w.handles
  simp only [World.lend, hlease]
  rw [show (r.world w).pool = w.pool from rfl,
    show (r.world w).now = w.now from rfl]
  cases w.pool.lend? w.handles.length q.since w.now e with
  | none => rfl
  | some pool =>
    refine congrArg (Prod.mk _) (Eq.trans ?_ (r.leave _ id))
    refine congrArg (World.leave · (r.number id)) ?_
    simp only [world, World.note, r.handles_append _ h]
    rfl

theorem discarded (bad : Bool) :
    (r.world w).discarded (r.number id) q bad =
      r.both (w.discarded id q bad) := by
  simp only [World.discarded, r.freeSlot, r.leave, r.frame]
  generalize (if bad then { q with bad := q.bad + 1 } else q) = q'
  split <;> rfl

theorem stopWaiting (since : Nat) :
    (r.world w).stopWaiting (r.number id) since =
      r.world (w.stopWaiting id since) :=
  r.leave { w with pool.metrics :=
    w.pool.metrics.recordWait (Time.elapsed since w.now) } id

theorem waiting (since : Nat) (alarm : Timer) :
    (r.world w).waiting (r.number id) q since alarm =
      r.both (w.waiting id q since alarm) := by
  have htold : (r.world w).signal.isTold (r.number id) = w.signal.isTold id :=
    r.isTold w id
  simp only [World.waiting, htold, r.isDue]
  cases w.signal.isTold id with
  | true =>
    refine congrArg (Prod.mk _) (Eq.trans ?_ (r.stopWaiting _ id since))
    refine congrArg (World.stopWaiting · (r.number id) since) ?_
    exact congrArg (fun s => { r.world w with signal := s })
      (r.listen id w.signal)
  | false =>
    simp only [Bool.false_or, Bool.not_false, Bool.true_and, Bool.false_eq_true,
      if_false]
    split
    · have hstop := r.stopWaiting w id since
      unfold World.stopWaiting at hstop
      rw [hstop, apply_ite r.both]
      rfl
    · rfl

theorem resumeAcquire (a : Attempt)
    (h : ∀ lease, r.closer = some lease → lease < w.handles.length) :
    (r.world w).resumeAcquire (r.number id) q a =
      r.both (w.resumeAcquire id q a) := by
  cases a with
  | looking => exact r.look w id q
  | opening => rfl
  | connecting => exact r.connecting ..
  | recovering e => exact r.recover w q e
  | undoing e call =>
    simp only [World.resumeAcquire, r.isDue, r.hearAnswer]
    split
    · rcases w.hearAnswer call.call with ⟨_ | _, v⟩ <;> rfl
    · rfl
  | checking e => exact r.check w id q e
  | pinging e call =>
    simp only [World.resumeAcquire, r.isDue, r.hearAnswer]
    split
    · rcases w.hearAnswer call.call with ⟨_ | _, v⟩ <;> rfl
    · rfl
  | lending e => exact r.lend w id q e h
  | discarding call bad =>
    simp only [World.resumeAcquire, r.isDue, r.hearAnswer]
    split
    · exact r.discarded ..
    · rfl
  | waiting since alarm => exact r.waiting ..

theorem dropAcquire (h : r.first ≤ w.nextTask) (outside : Bool)
    (a : Attempt) :
    (r.world w).dropAcquire outside (r.number id) a =
      r.world (w.dropAcquire outside id a) := by
  have hgo : (a.entry?.elim (r.world w) fun e =>
      (r.world w).letGo outside e.conn) =
        r.world (a.entry?.elim w fun e => w.letGo outside e.conn) := by
    cases a.entry? with
    | none => rfl
    | some e => exact r.letGo w h ..
  simp only [World.dropAcquire, hgo, r.freeSlot]
  split <;> split <;> simp only [r.leave]

end Requests

section Returns

theorem startReturn (lease : Nat) :
    (r.world w).startReturn lease = r.both (w.startReturn lease) := by
  unfold World.startReturn
  rw [show (r.world w).pool = w.pool from rfl]
  rcases w.pool.takeLoan? lease with _ | ⟨loan, q⟩
  · rfl
  · dsimp only
    rw [apply_ite r.both, apply_ite r.both]
    rfl

theorem store (e : Entry) :
    (r.world w).store e = r.both (w.store e) := by
  simp only [World.store, r.frame]
  cases w.pool.store? w.config.maxIdle e with
  | none => rfl
  | some pool => exact congrArg (Prod.mk _) (r.ring { w with pool })

theorem resumeReturn (g : Return) :
    (r.world w).resumeReturn g = r.both (w.resumeReturn g) := by
  cases g with
  | starting lease => exact r.startReturn w lease
  | undoing e call =>
    simp only [World.resumeReturn, r.isDue, r.hearAnswer]
    split
    · rcases w.hearAnswer call.call with ⟨_ | _, v⟩ <;> rfl
    · rfl
  | storing e => exact r.store w e
  | discarding call =>
    simp only [World.resumeReturn, r.isDue, r.hearAnswer]
    split
    · exact congrArg (Prod.mk _) (r.freeSlot _)
    · rfl

theorem dropReturn (h : r.first ≤ w.nextTask) (outside : Bool) (g : Return) :
    (r.world w).dropReturn outside g = r.world (w.dropReturn outside g) := by
  have hgo : (g.entry?.elim (r.world w) fun e =>
      (r.world w).letGo outside e.conn) =
        r.world (g.entry?.elim w fun e => w.letGo outside e.conn) := by
    cases g.entry? with
    | none => rfl
    | some e => exact r.letGo w h ..
  simp only [World.dropReturn, hgo, r.freeSlot]
  split <;> rfl

end Returns

section Closing

theorem beginCloses (conns : List Nat) :
    (r.world w).beginCloses conns = r.both (w.beginCloses conns) := by
  induction conns generalizing w with
  | nil => rfl
  | cons conn conns ih =>
    simp only [World.beginCloses, r.beginCall, both, r.isDue, r.hearAnswer, ih]
    split <;> rfl

theorem hearAnswers (calls : List Pending) :
    (r.world w).hearAnswers calls = r.both (w.hearAnswers calls) := by
  induction calls generalizing w with
  | nil => rfl
  | cons call calls ih =>
    simp only [World.hearAnswers, r.isDue, r.hearAnswer, both, ih]
    split <;> rfl

theorem withdraw (loans : List Loan) :
    loans.foldl (fun w loan =>
      (w.revoke loan.lease).note (.withdrawn loan.lease)) (r.world w) =
        r.world (loans.foldl (fun w loan =>
          (w.revoke loan.lease).note (.withdrawn loan.lease)) w) := by
  induction loans generalizing w with
  | nil => rfl
  | cons loan loans ih =>
    simp only [List.foldl_cons, r.revoke]
    exact ih ((w.revoke loan.lease).note (.withdrawn loan.lease))

theorem shutDown : (r.world w).shutDown = r.both w.shutDown := by
  simp only [World.shutDown, r.frame]
  split
  · rfl
  · refine congrArg (Prod.mk _) ?_
    rw [← r.withdraw, ← r.ringAll]
    rfl

theorem resumeClosing (todo : List Nat) (calls : List Pending) :
    (r.world w).resumeClosing todo calls =
      r.both (w.resumeClosing todo calls) := by
  simp only [World.resumeClosing, r.hearAnswers, both, r.beginCloses]
  cases (w.hearAnswers calls).1 ++
    ((w.hearAnswers calls).2.beginCloses todo).1 <;> rfl

end Closing

/-- Any operation begins as it would, if it is not that close. -/
theorem begin (op : Operation)
    (h : ∀ lease, r.closer = some lease → op ≠ .close lease) :
    (r.world w).begin op = r.both (w.begin op) := by
  cases op with
  | acquire =>
    simp only [World.begin]
    rw [show (r.world w).now = w.now from rfl,
      show (r.world w).config = w.config from rfl]
    cases Time.later w.now w.config.timeouts.wait <;> rfl
  | close lease => exact r.close w fun hc => h lease hc rfl
  | ping lease query => exact r.ask ..
  | rollback lease => exact r.rollback ..
  | closePhysical lease => exact r.ask ..
  | invalidate => rfl
  | shutDown => exact r.shutDown w
  | setOptions options => rfl

/-- A task goes on as it would. -/
theorem resume (st : Stage)
    (hheld : ∀ lease, r.closer = some lease → lease < w.handles.length)
    (hopen : ∀ lease, r.closer = some lease → st ≠ .start (.close lease)) :
    (r.world w).resume (r.number id) st = r.both (w.resume id st) := by
  cases st with
  | start op =>
    exact r.begin w op fun lease hc he => hopen lease hc (congrArg _ he)
  | acquire q a => exact r.resumeAcquire w id q a hheld
  | giveBack g => exact r.resumeReturn w g
  | asking call raw => exact r.resumeAsking ..
  | closing todo calls => exact r.resumeClosing ..

section Steps

theorem dropStage (h : r.first ≤ w.nextTask) (outside : Bool) (st : Stage) :
    (r.world w).dropStage outside (r.number id) st =
      r.world (w.dropStage outside id st) := by
  cases st with
  | acquire q a => exact r.dropAcquire w id h outside a
  | giveBack g => exact r.dropReturn w h outside g
  | _ => rfl

theorem dropTask (h : r.first ≤ w.nextTask) (outside : Bool) (t : Task) :
    (r.world w).dropTask outside (r.task t) =
      r.world (w.dropTask outside t) := by
  refine Eq.trans ?_ (r.removeTask _ t.id)
  exact congrArg (World.removeTask · (r.number t.id))
    (r.dropStage w t.id h outside t.stage)

/-- A task is held to its limit when the timer of that is set. -/
theorem checkLimit (h : r.first ≤ w.nextTask) :
    (r.world w).checkLimit (r.number id) = r.world (w.checkLimit id) := by
  have hholds : ∀ (v : World) (outside : Bool) (t : Task) (timer : Timer),
      r.first ≤ v.nextTask →
      (if (r.world v).isDue timer then
        ((r.world v).dropTask outside (r.task t)).note
          (.ended (r.number id) .cancelled)
      else r.world v) =
        r.world (if v.isDue timer then
          (v.dropTask outside t).note (.ended id .cancelled)
        else v) := by
    intro v outside t timer h
    rw [apply_ite r.world, ← r.note, ← r.dropTask v h]
    rfl
  unfold World.checkLimit
  rw [r.task?]
  cases w.task? id with
  | none => rfl
  | some t =>
    simp only [Option.map_some, show (r.task t).limit = t.limit from rfl]
    rcases t.limit with _ | ⟨span, outside, _ | timer⟩
    · rfl
    · simp only [r.setWait, both, r.setLimitTimer]
      exact hholds _ outside t _ h
    · exact hholds w outside t timer h

theorem follow (h : r.first ≤ w.nextTask) (flow : Flow) :
    (r.world w).follow (r.number id) flow = r.world (w.follow id flow) := by
  cases flow with
  | again st =>
    simp only [World.follow, r.setStage]
    rfl
  | pause st =>
    simp only [World.follow, r.setStage]
    exact r.checkLimit _ id h
  | yield st =>
    simp only [World.follow, r.setStage]
    exact r.checkLimit { w.setStage id st with yielded := id :: w.yielded } id h
  | finish o =>
    simp only [World.follow, World.finish, r.removeTask]
    rfl

/-- The timers are those that there were. -/
theorem timers :
    (r.world w).timers = w.timers.map fun x => (x.1, r.number x.2) := by
  simp only [World.timers, world, List.flatMap_map, List.map_flatMap,
    List.map_map, Function.comp_def, task, Task.timers]

/-- Timers that fire wake the same tasks in the same order. -/
theorem advanceTo (moment : Nat) :
    (r.world w).advanceTo moment = r.world (w.advanceTo moment) := by
  have hfold : ∀ (fired : List (Timer × Nat)) (v : World),
      (fired.map fun x => (x.1, r.number x.2)).foldl
          (fun w x => w.wake x.2) (r.world v) =
        r.world (fired.foldl (fun w x => w.wake x.2) v) := by
    intro fired
    induction fired with
    | nil => exact fun _ => rfl
    | cons x fired ih =>
      intro v
      simp only [List.map_cons, List.foldl_cons, r.wake, ih]
  have hsort : ∀ fired : List (Timer × Nat),
      (fired.map fun x => (x.1, r.number x.2)).mergeSort
          (fun a b => a.1.order ≤ b.1.order) =
        (fired.mergeSort fun a b => a.1.order ≤ b.1.order).map
          fun x => (x.1, r.number x.2) := by
    intro fired
    refine (List.map_mergeSort ?_).symm
    exact fun _ _ _ _ => rfl
  simp only [World.advanceTo, r.timers, List.filter_map, hsort]
  exact hfold _ { w with now := moment }

end Steps

/-! ## Actions -/

/-- The world can go on as it is retold: numbers that are given are moved,
the holder is there already, and none of its closes is still to begin. -/
structure Suits (w : World) : Prop where
  first : r.first ≤ w.nextTask
  held : ∀ lease, r.closer = some lease → lease < w.handles.length
  done : ∀ lease, r.closer = some lease →
    ∀ t ∈ w.tasks, t.stage ≠ .start (.close lease)

variable {r w}

/-- A task does what it would do. -/
theorem Suits.run (h : r.Suits w) :
    (r.world w).run (r.number id) = r.world (w.run id) := by
  unfold World.run
  rw [r.task?]
  cases ht : w.task? id with
  | none => rfl
  | some t =>
    have hopen : ∀ lease, r.closer = some lease →
        t.stage ≠ .start (.close lease) :=
      fun lease hc => h.done lease hc t (World.mem_of_task? ht)
    have hresume := r.resume w id t.stage h.held hopen
    have hnext := (World.untouched_resume w id t.stage).nextTask
    simp only [Option.map_some, show (r.task t).stage = t.stage from rfl,
      hresume]
    exact r.follow _ id (hnext ▸ h.first) _

/-- An action can happen as it is retold just when it can happen, and leads
to the retelling of where it leads. -/
theorem Suits.act (h : r.Suits w) (a : Action) :
    (r.world w).act (r.action a) = (w.act a).map r.world := by
  cases a with
  | run id =>
    have hpick : r.Suits { w with ready := w.ready.erase id } :=
      ⟨h.first, h.held, h.done⟩
    have hrun : ({ r.world w with
        ready := (r.world w).ready.erase (r.number id) } : World).run
          (r.number id) =
        r.world (World.run { w with ready := w.ready.erase id } id) := by
      rw [← hpick.run]
      refine congrArg (World.run · (r.number id)) ?_
      exact congrArg (fun ready => { r.world w with ready })
        (r.erase_number w.ready id)
    have hready : r.number id ∈ (r.world w).ready ↔ id ∈ w.ready :=
      List.mem_map_of_injective fun _ _ => r.number_inj.1
    simp only [World.act, action, hready, hrun]
    split <;> rfl
  | rouse =>
    have hready : (r.world w).ready = [] ↔ w.ready = [] := List.map_eq_nil_iff
    simp only [World.act, action, hready]
    split <;> rfl
  | start op limit =>
    simp only [World.act, action, World.start, r.spawn w h.first]
    split <;> rfl
  | cancel outside id =>
    simp only [World.act, action, r.task?]
    cases w.task? id with
    | none => rfl
    | some t =>
      simp only [Option.map_some, show (r.task t).stage = t.stage from rfl,
        r.dropTask w h.first]
      split <;> rfl
  | forget outside lease =>
    simp only [World.act, action, r.forget w h.first, Option.map_some]
  | changeServer | markClosed | markManual => rfl
  | advance moment =>
    have hrest : (r.world w).atRest = w.atRest := by
      simp only [World.atRest, world, List.isEmpty_map]
    have htimers : (r.world w).timers.all (moment ≤ ·.1.due) =
        w.timers.all (moment ≤ ·.1.due) := by
      rw [r.timers, List.all_map]
      rfl
    simp only [World.act, action, hrest, htimers, r.advanceTo, r.frame]
    split <;> rfl

/-- What can happen to the world as it is retold is the retelling of
something. -/
theorem exists_action {b : Action} {v : World}
    (hb : (r.world w).act b = some v) : ∃ a, b = r.action a := by
  cases b with
  | run i =>
    simp only [World.act] at hb
    split at hb
    · rename_i hready
      obtain ⟨id, -, rfl⟩ := List.mem_map.1 hready
      exact ⟨.run id, rfl⟩
    · cases hb
  | cancel outside i =>
    simp only [World.act] at hb
    split at hb
    · cases hb
    · rename_i t ht
      obtain ⟨u, -, rfl⟩ := List.mem_map.1 (World.mem_of_task? ht)
      obtain rfl := World.id_of_task? ht
      exact ⟨.cancel outside u.id, rfl⟩
  | rouse => exact ⟨.rouse, rfl⟩
  | start op limit => exact ⟨.start op limit, rfl⟩
  | forget outside lease => exact ⟨.forget outside lease, rfl⟩
  | changeServer ch => exact ⟨.changeServer ch, rfl⟩
  | markClosed conn closed => exact ⟨.markClosed conn closed, rfl⟩
  | markManual conn manual => exact ⟨.markManual conn manual, rfl⟩
  | advance moment => exact ⟨.advance moment, rfl⟩

end Retelling

end DatabasePool
