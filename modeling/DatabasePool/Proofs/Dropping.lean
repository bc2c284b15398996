import DatabasePool.Proofs.Holders
import DatabasePool.Proofs.Release
import DatabasePool.Proofs.Requests
import DatabasePool.Proofs.Retelling

/-!
# To forget a connection is to give it back

A holder can give its connection back, and that is an operation, or forget it,
and then a task is started that does the same.  From a moment of rest on, both
lead to the same pool.  If the lease is valid, the task that is started stands
from the beginning where the close stands after its first step.  If the lease
has ended already, nothing is to be given back: nothing happens when the
connection is forgotten, and the close ends at once, so that only its number
is missing later.

* `World.closedInstead` is how the story of the one is told as that of the
  other.
* `Run.close_eq_world` says that the first step of the close leads to the
  world as it is retold.
* `Retelling.Suits.replay_eq` and `Retelling.Suits.exists_replay` say that
  from there on the one story goes on as the other does, and in no other way.
* `drop_eq_close_of_run` puts this together, with `Retelling.Retells` for what
  is the same in both.
-/

namespace DatabasePool

variable {c : Config} {s : Server} {as later : List Action} {a : Action}
  {w w' u v story : World} {id lease : Nat} {r : Retelling}
  {past : List (Nat × Event)}

/-! ## What is known of closes -/

/-- A task that has not begun can go on. -/
theorem Run.mem_ready_of_start (h : Run c s as w) {op : Operation}
    (hmem : (id, .start op) ∈ w.roll) : id ∈ w.ready := by
  induction h with
  | new hs hw =>
    obtain ⟨-, -, rfl⟩ := Run.new_iff.1 (.new hs hw)
    cases hmem
  | act h ha ih =>
    rcases World.start_act (World.distinct_of_run h) ha hmem with
      ⟨hold, hne⟩ | ⟨rfl, limit, rfl⟩
    · exact World.mem_ready_act ha (ih hold) hne
    · cases World.acts (World.distinct_of_run h) ha
      exact List.mem_append_right _ List.mem_cons_self

/-- By a close the lease ends, if it was valid still. -/
theorem World.BeginsClose.ended {t : Task} {x : Handle}
    (h : w.BeginsClose t lease w') (hd : w.Distinct)
    (hx : w.handles[lease]? = some x) (hopen : x.closed = false) :
    w'.isValid lease = false := by
  have hmarked : (w.markClosed lease).handles[lease]? =
      some { x with closed := true } :=
    (Handle.getElem?_modify hx).trans (congrArg some (if_pos rfl))
  obtain ⟨hclosed, -⟩ | ⟨-, hended, rfl⟩ | ⟨-, -, hf⟩ := h.cases hd hx
  · cases hopen.symm.trans hclosed
  · exact (World.isValid_eq hmarked).trans hended
  · refine World.isValid_eq (x := { x with valid := false, closed := true }) ?_
    rw [hf.handles]
    exact (Handle.getElem?_modify hmarked).trans (congrArg some (if_pos rfl))

/-- A holder who has begun to give the connection back has no lease any
more. -/
theorem Run.open_of_valid (h : Run c s as w) {x : Handle}
    (hx : w.handles[lease]? = some x) (hvalid : x.valid = true) :
    x.closed = false := by
  induction h generalizing x with
  | new hs hw =>
    obtain ⟨-, -, rfl⟩ := Run.new_iff.1 (.new hs hw)
    cases hx
  | @act as a w w' h ha ih =>
    rcases Nat.lt_or_ge lease w.handles.length with hlt | hge
    · obtain ⟨y, hy⟩ : ∃ y, w.handles[lease]? = some y :=
        ⟨_, List.getElem?_eq_getElem hlt⟩
      obtain ⟨hbecomes, rfl | halters⟩ := h.handle_act ha hy hx
      · exact ih hy hvalid
      · cases halters with
        | forget => cases hvalid
        | deed hmem hdoes =>
          cases hdoes with
          | callIn | shutDown | claim => cases hvalid
          | mark =>
            have hd := World.distinct_of_run h
            obtain ⟨t, ht, hstage⟩ := hd.task?_of_roll hmem
            obtain rfl := World.id_of_task? ht
            have hended := World.BeginsClose.ended ⟨ht, hstage, ha⟩ hd hy
              (ih hy hvalid)
            rw [World.isValid_eq hx, hvalid] at hended
            cases hended
    · exact ((h.happens ha).new_handle hge hx).2

/-! ## Where the two stories part -/

namespace Retelling

/-- Numbers that had been given are kept. -/
theorem number_of_lt {k : Nat} (h : k < r.first) : r.number k = k := if_pos h

theorem map_number {ids : List Nat} (h : ∀ k ∈ ids, r.number k = k) :
    ids.map r.number = ids :=
  (List.map_congr_left h).trans (List.map_id' ids)

/-- A world that is told as it is, but for its past and for one holder. -/
theorem world_of_kept (htasks : ∀ t ∈ w.tasks, r.number t.id = t.id)
    (hsignal : ∀ k, 0 < w.signal.members k → r.number k = k)
    (hready : ∀ k ∈ w.ready, r.number k = k)
    (hyielded : ∀ k ∈ w.yielded, r.number k = k) :
    r.world { w with history := [] } =
      { w with
        handles := r.handles w.handles
        nextTask := w.nextTask + r.gap
        history := r.before } := by
  have htask : w.tasks.map r.task = w.tasks :=
    (List.map_congr_left fun t ht => by rw [task, htasks t ht]).trans
      (List.map_id' w.tasks)
  have hwaiting : w.signal.waiting.map r.number = w.signal.waiting :=
    map_number fun k hk =>
      hsignal k (Nat.add_pos_left (List.count_pos_iff.2 hk) _)
  have htold : w.signal.told.map r.number = w.signal.told :=
    map_number fun k hk =>
      hsignal k (Nat.add_pos_right _ (List.count_pos_iff.2 hk))
  simp only [world, signal, htask, hwaiting, htold, map_number hready,
    map_number hyielded, List.map_nil, List.nil_append]

end Retelling

/-- How a close ends at once where there is nothing to give back. -/
def Handle.lateClose (x : Handle) : Outcome :=
  if x.closed then .failed .returned else .done

/-- How the connection is given back, as a retelling of how it is forgotten.
A lease that is valid is ended by one task in both.  Otherwise there is a task
in one of them only, and that has ended already. -/
def World.closedInstead (w : World) (lease : Nat) : Retelling where
  first := w.nextTask
  gap := if w.isValid lease then 0 else 1
  closer := some lease
  before :=
    if w.isValid lease then w.history
    else
      (w.now, .ended w.nextTask
        ((w.handles[lease]?.map (·.lateClose)).getD (.failed .returned))) ::
          w.history

namespace World

/-- An operation that ends as soon as it begins leaves nothing but its number
and a line. -/
theorem finish_start (hd : w.Distinct) (hrest : w.atRest = true)
    (op : Operation) (limit : Option Limit) (o : Outcome) :
    ((w.start op limit).2.pick w.nextTask).finish w.nextTask o =
      { w with
        nextTask := w.nextTask + 1
        history := (w.now, .ended w.nextTask o) :: w.history } := by
  obtain ⟨hready, hyielded⟩ := World.atRest_iff.1 hrest
  have hother : w.tasks.filter (·.id != w.nextTask) = w.tasks := by
    refine List.filter_eq_self.2 fun t ht => ?_
    simpa using Nat.ne_of_lt (hd.lt t ht)
  simp [finish, removeTask, note, pick, start, spawn, hready, hyielded, hother]

/-- What an operation comes to at once can as well be what is started. -/
theorem start_again (hd : w.Distinct) (hrest : w.atRest = true)
    (op : Operation) (limit : Option Limit) (st : Stage) :
    ((w.start op limit).2.pick w.nextTask).follow w.nextTask (.again st) =
      w.spawn st limit := by
  obtain ⟨hready, hyielded⟩ := World.atRest_iff.1 hrest
  have hother : w.tasks.map (fun t =>
      if t.id = w.nextTask then { t with stage := st } else t) = w.tasks := by
    refine (List.map_congr_left fun t ht => ?_).trans (List.map_id' w.tasks)
    exact if_neg (Nat.ne_of_lt (hd.lt t ht))
  simp [follow, setStage, pick, start, spawn, hready, hother]

/-- To mark a holder again changes nothing. -/
theorem markClosed_of_closed {x : Handle} (hx : w.handles[lease]? = some x)
    (hclosed : x.closed = true) : w.markClosed lease = w := by
  have hsame : w.handles.modify lease ({ · with closed := true }) =
      w.handles := by
    refine List.ext_getElem? fun i => ?_
    rw [List.getElem?_modify]
    split
    · rename_i hi
      rw [← hi, hx]
      simp [← hclosed]
    · simp
  rw [markClosed, hsame]

end World

theorem World.revoke_markClosed :
    (w.markClosed lease).revoke lease = (w.revoke lease).markClosed lease := by
  simp only [markClosed, revoke, List.modify_modify_eq]
  rfl

/-- Nothing happens when a connection is forgotten that is not held any
more. -/
theorem World.forget_of_ended (hended : w.isValid lease = false) :
    w.forget false lease = w := by
  rw [forget, hended]
  exact if_neg Bool.false_ne_true

theorem World.forget_of_valid (hvalid : w.isValid lease = true) :
    w.forget false lease =
      (w.revoke lease).spawn (.giveBack (.starting lease)) none := by
  rw [forget, hvalid]
  rfl

/-- If the lease has ended, the other story has one task more. -/
theorem Run.closedInstead_of_ended (h : Run c s as w) (hrest : w.atRest = true)
    (hended : w.isValid lease = false) :
    (w.closedInstead lease).world { w with history := [] } =
      { w.markClosed lease with
        nextTask := w.nextTask + 1
        history := (w.now, .ended w.nextTask
          ((w.handles[lease]?.map (·.lateClose)).getD (.failed .returned))) ::
            w.history } := by
  obtain ⟨hready, hyielded⟩ := World.atRest_iff.1 hrest
  have hd := World.distinct_of_run h
  rw [Retelling.world_of_kept]
  · simp only [World.closedInstead, hended]
    rfl
  · exact fun t ht => Retelling.number_of_lt (hd.lt t ht)
  · intro k hk
    obtain ⟨t, ht, rfl⟩ := (World.fair_of_run h).known k hk
    exact Retelling.number_of_lt (hd.lt t ht)
  · simp [hready]
  · simp [hyielded]

/-- If the lease is valid, the other story differs in the mark only. -/
theorem World.closedInstead_of_valid (hvalid : w.isValid lease = true) :
    (w.closedInstead lease).world { v with history := [] } =
      { v.markClosed lease with history := w.history } := by
  have hnumber : ∀ k, (w.closedInstead lease).number k = k := by
    intro k
    simp [Retelling.number, World.closedInstead, hvalid]
  rw [Retelling.world_of_kept]
  · simp only [World.closedInstead, hvalid]
    rfl
  all_goals
    intros
    exact hnumber _

/-- At rest, a close that is started goes on next. -/
theorem Run.begins_close (h : Run c s as w) (lease : Nat)
    (hrest : w.atRest = true) :
    ∃ v, (w.start (.close lease) none).2.step = some v ∧
      (w.start (.close lease) none).2.BeginsClose
        ⟨w.nextTask, .start (.close lease), none⟩ lease v := by
  obtain ⟨hready, -⟩ := World.atRest_iff.1 hrest
  have hd := World.distinct_of_run (h.act (a := .start (.close lease) none) rfl)
  refine ⟨((w.start (.close lease) none).2.pick w.nextTask).run w.nextTask,
    ?_, hd.task?_eq ?_, rfl, if_pos ?_⟩
  · simp only [World.step, World.start, World.spawn, World.pick, hready,
      List.nil_append, List.erase_cons_head]
  all_goals exact List.mem_append_right _ List.mem_cons_self

/-- The first step of a close that is started at rest leads to the world that
is told in the other way. -/
theorem Run.close_eq_world (h : Run c s as w) (hrest : w.atRest = true)
    (hlease : lease < w.handles.length) :
    (w.start (.close lease) none).2.step =
      some ((w.closedInstead lease).world
        { w.forget false lease with history := [] }) := by
  obtain ⟨x, hx⟩ : ∃ x, w.handles[lease]? = some x :=
    ⟨_, List.getElem?_eq_getElem hlease⟩
  have hd := World.distinct_of_run h
  have hd' := World.distinct_of_run (h.act (a := .start (.close lease) none) rfl)
  have hvalid := World.isValid_eq hx
  obtain ⟨v, hstep, hbegins⟩ := h.begins_close lease hrest
  rw [hstep]
  refine congrArg some ?_
  obtain ⟨hclosed, rfl⟩ | ⟨hopen, hended, rfl⟩ | ⟨hopen, hheld, hf⟩ :=
    hbegins.cases hd' hx
  · have hended : w.isValid lease = false := by
      refine hvalid.trans (Bool.eq_false_iff.2 fun hheld => ?_)
      cases hclosed.symm.trans (h.open_of_valid hx hheld)
    rw [World.forget_of_ended hended, h.closedInstead_of_ended hrest hended,
      World.markClosed_of_closed hx hclosed, hx]
    refine (World.finish_start hd hrest ..).trans ?_
    simp only [Option.map_some, Option.getD_some, Handle.lateClose, hclosed,
      if_true]
  · have hended := hvalid.trans hended
    rw [World.forget_of_ended hended, h.closedInstead_of_ended hrest hended, hx]
    simp only [Option.map_some, Option.getD_some, Handle.lateClose, hopen,
      Bool.false_eq_true, if_false]
    exact World.finish_start (w := w.markClosed lease) ⟨hd.nodup, hd.lt⟩ hrest
      (.close lease) none .done
  · have hheld := hvalid.trans hheld
    have hagain := World.start_again (w := (w.markClosed lease).revoke lease)
      ⟨hd.nodup, hd.lt⟩ hrest (.close lease) none (.giveBack (.starting lease))
    rw [World.forget_of_valid hheld, World.closedInstead_of_valid hheld]
    cases hf with
    | again =>
      refine hagain.trans ?_
      rw [World.revoke_markClosed]
      rfl
    | waits hwaits => cases hwaits
    | cutOff hwaits => cases hwaits

/-! ## How the two stories go on -/

/-- A world with a longer past. -/
def World.after (w : World) (past : List (Nat × Event)) : World :=
  { w with history := w.history ++ past }

/-- The past has nothing to do with what can happen. -/
theorem World.act_after :
    (w.after past).act a = (w.act a).map (·.after past) := by
  let r : Retelling := ⟨0, 0, none, past⟩
  have hline : r.line = id := by
    funext x
    obtain ⟨moment, e⟩ := x
    cases e <;> rfl
  have hworld : r.world = (·.after past) := by
    funext w
    have htask : r.task = id := rfl
    have hnumber : r.number = id := rfl
    simp only [Retelling.world, Retelling.signal, hline, htask, hnumber,
      List.map_id]
    rfl
  have haction : r.action a = a := by cases a <;> rfl
  have hsuits : r.Suits w := by
    refine ⟨Nat.zero_le _, ?_, ?_⟩ <;> rintro _ ⟨⟩
  have hact := hsuits.act a
  rw [haction, hworld] at hact
  exact hact

/-- By none of these actions the holder who is marked begins another close. -/
def Retelling.Spares (r : Retelling) (later : List Action) : Prop :=
  ∀ a ∈ later, ∀ lease limit, r.closer = some lease →
    a ≠ .start (.close lease) limit

theorem Retelling.spares_cons :
    r.Spares (a :: later) ↔
      (∀ lease limit, r.closer = some lease → a ≠ .start (.close lease) limit) ∧
        r.Spares later :=
  List.forall_mem_cons

/-- A world that can go on as it is retold still can after an action, if the
holder who is marked does not begin another close. -/
theorem Retelling.Suits.next (hi : r.Suits w) (h : Run c s as w)
    (ha : w.act a = some w') (hopen : ∀ lease limit, r.closer = some lease →
      a ≠ .start (.close lease) limit) : r.Suits w' := by
  have hd := World.distinct_of_run h
  refine ⟨Nat.le_trans hi.first (World.nextTask_act hd ha), ?_, ?_⟩
  · intro lease hc
    obtain ⟨y, hy, -⟩ := (h.happens ha).alters
      (List.getElem?_eq_getElem (hi.held lease hc))
    exact (List.getElem?_eq_some_iff.1 hy).1
  · intro lease hc t ht hstage
    have hmem : (t.id, .start (.close lease)) ∈ w'.roll :=
      hstage ▸ List.mem_map_of_mem ht
    rcases World.start_act hd ha hmem with ⟨hold, -⟩ | ⟨-, limit, rfl⟩
    · obtain ⟨u, hu, he⟩ := List.mem_map.1 hold
      exact hi.done lease hc u hu (congrArg Prod.snd he)
    · exact hopen lease limit hc rfl

theorem World.replay_after :
    (w.after past).replay later = (w.replay later).map (·.after past) := by
  induction later with
  | nil => rfl
  | cons a later ih =>
    rw [replay, ih, replay]
    cases w.replay later with
    | none => rfl
    | some v => exact act_after

namespace Retelling

theorem suits_after : r.Suits (w.after past) ↔ r.Suits w :=
  ⟨fun h => ⟨h.first, h.held, h.done⟩, fun h => ⟨h.first, h.held, h.done⟩⟩

/-- A story that has gone on for a while can still be retold. -/
theorem Suits.replay (hi : r.Suits story) (h : Run c s as (story.after past))
    (hspares : r.Spares later) (hv : story.replay later = some v) :
    r.Suits v ∧ Run c s (later ++ as) (v.after past) := by
  induction later generalizing v with
  | nil =>
    cases hv
    exact ⟨hi, h⟩
  | cons a later ih =>
    obtain ⟨hopen, hspares⟩ := spares_cons.1 hspares
    obtain ⟨u, hu, ha⟩ := Option.bind_eq_some_iff.1 hv
    obtain ⟨hsuits, hrun⟩ := ih hspares hu
    have ha : (u.after past).act a = some (v.after past) := by
      rw [World.act_after, ha]
      rfl
    have hnext := (suits_after.2 hsuits).next hrun ha hopen
    exact ⟨suits_after.1 hnext, .act hrun ha⟩

/-- As it is retold, a story goes on as it does. -/
theorem Suits.replay_eq (hi : r.Suits story)
    (h : Run c s as (story.after past)) (hspares : r.Spares later) :
    (r.world story).replay (later.map r.action) =
      (story.replay later).map r.world := by
  induction later with
  | nil => rfl
  | cons a later ih =>
    obtain ⟨-, hspares⟩ := spares_cons.1 hspares
    rw [List.map_cons, World.replay, ih hspares, World.replay]
    cases hu : story.replay later with
    | none => rfl
    | some u => exact (hi.replay h hspares hu).1.act a

/-- As it is retold, a story goes on in no other way. -/
theorem Suits.exists_replay (hi : r.Suits story)
    (h : Run c s as (story.after past)) (hspares : r.Spares later)
    (hv : (r.world story).replay later = some v) :
    ∃ forth, forth.map r.action = later ∧ r.Spares forth := by
  induction later generalizing v with
  | nil => exact ⟨[], rfl, hspares⟩
  | cons b later ih =>
    obtain ⟨hopen, hspares⟩ := spares_cons.1 hspares
    obtain ⟨z, hz, hb⟩ := Option.bind_eq_some_iff.1 hv
    obtain ⟨forth, rfl, hforth⟩ := ih hspares hz
    rw [hi.replay_eq h hforth] at hz
    obtain ⟨u, -, rfl⟩ := Option.map_eq_some_iff.1 hz
    obtain ⟨a, rfl⟩ := exists_action hb
    refine ⟨a :: forth, rfl, spares_cons.2 ⟨fun lease limit hc he => ?_, hforth⟩⟩
    subst he
    exact hopen lease limit hc rfl

end Retelling

/-! ## What is the same in both -/

/-- The event is about a call to the server. -/
def Event.isCall : Event → Bool
  | began _ => true
  | answered _ _ => true
  | failed _ => true
  | _ => false

/-- The calls to the server, with the moments at which they began and were
answered. -/
def callsIn (history : List (Nat × Event)) : List (Nat × Event) :=
  history.filter (·.2.isCall)

namespace Retelling

/-- A call to the server is about no task. -/
theorem callsIn_map_line (history : List (Nat × Event)) :
    callsIn (history.map r.line) = callsIn history := by
  induction history with
  | nil => rfl
  | cons x history ih =>
    obtain ⟨moment, e⟩ := x
    simp only [callsIn, List.map_cons, List.filter_cons, line] at ih ⊢
    rw [ih]
    cases e <;> rfl

/-- What two worlds have in common when one of them goes on from some past
and the other one is its retelling.  The pool and the server are the same, and
so are the calls to the server and their moments.  The same tasks wait for the
same, they are told and woken in the same order, and the same has happened
since at the same moments, up to the numbers of tasks. -/
structure Retells (r : Retelling) (past : List (Nat × Event)) (w w' : World) :
    Prop where
  config : w'.config = w.config
  server : w'.server = w.server
  pool : w'.pool = w.pool
  now : w'.now = w.now
  isValid : ∀ lease, w'.isValid lease = w.isValid lease
  tasks : w'.tasks = w.tasks.map r.task
  signal : w'.signal = r.signal w.signal
  ready : w'.ready = w.ready.map r.number
  yielded : w'.yielded = w.yielded.map r.number
  calls : callsIn w'.history = callsIn w.history
  history : ∃ since, w.history = since ++ past ∧
    w'.history = since.map r.line ++ r.before

/-- A story and its retelling, if no call is missing from what was before. -/
theorem retells (hcalls : callsIn r.before = callsIn past) (story : World) :
    r.Retells past (story.after past) (r.world story) where
  config := rfl
  server := rfl
  pool := rfl
  now := rfl
  isValid lease := r.isValid story lease
  tasks := rfl
  signal := rfl
  ready := rfl
  yielded := rfl
  calls := by
    have hsince := r.callsIn_map_line story.history
    simp only [callsIn] at hsince hcalls
    simp only [callsIn, world, World.after, List.filter_append, hsince, hcalls]
  history := ⟨story.history, rfl, rfl⟩

end Retelling

/-- The end of a task that has nothing to do is no call. -/
theorem World.callsIn_before :
    callsIn (w.closedInstead lease).before = callsIn w.history := by
  simp only [closedInstead]
  split <;> rfl

/-- At rest, all that is to come can be told in the other way. -/
theorem Run.suits (h : Run c s as w) (hrest : w.atRest = true)
    (hlease : lease < w.handles.length) :
    (w.closedInstead lease).Suits w where
  first := Nat.le_refl _
  held := by
    rintro _ ⟨⟩
    exact hlease
  done := by
    rintro _ ⟨⟩ t ht hstage
    have hmem : (t.id, .start (.close lease)) ∈ w.roll :=
      hstage ▸ List.mem_map_of_mem ht
    obtain ⟨hready, -⟩ := World.atRest_iff.1 hrest
    have hgoes := h.mem_ready_of_start hmem
    rw [hready] at hgoes
    cases hgoes

theorem World.forget_history (outside : Bool) :
    (w.forget outside lease).history = w.history := by
  unfold forget
  split
  · split <;> rfl
  · rfl

/-- To forget a connection and to give it back lead to the same pool.  At
rest, and whatever has become of the connection and of its lease, nothing
happens when it is forgotten after the lease has ended.  And the first step of
a close leads to where all that can follow when the connection is forgotten
can follow as well, and nothing else can, as long as its holder does not try
to give it back once more.  What follows is the same for the pool, for the
server and for all who wait. -/
theorem drop_eq_close_of_run (h : Run c s as w) (hrest : w.atRest = true)
    (hlease : lease < w.handles.length) :
    (w.isValid lease = false → w.forget false lease = w) ∧
    ∃ v, (w.start (.close lease) none).2.step = some v ∧
      ∀ later, (∀ limit, .start (.close lease) limit ∉ later) →
        (∀ u, (w.forget false lease).replay later = some u →
          ∃ u', v.replay (later.map (w.closedInstead lease).action) =
            some u' ∧ (w.closedInstead lease).Retells w.history u u') ∧
        ∀ u', v.replay later = some u' →
          ∃ forth u, forth.map (w.closedInstead lease).action = later ∧
            (w.forget false lease).replay forth = some u ∧
              (w.closedInstead lease).Retells w.history u u' := by
  let r := w.closedInstead lease
  let story : World := { w.forget false lease with history := [] }
  have hforget : story.after w.history = w.forget false lease := by
    have hhistory : (w.forget false lease).history = w.history :=
      World.forget_history false
    simp only [story, World.after, List.nil_append, ← hhistory]
  have hrun : Run c s (.forget false lease :: as) (story.after w.history) :=
    hforget ▸ .act h rfl
  have hsuits : r.Suits story := by
    have hnext := (h.suits hrest hlease).next h (a := .forget false lease) rfl
      fun _ _ _ => Action.noConfusion
    exact Retelling.suits_after.1 (hforget ▸ hnext)
  refine ⟨World.forget_of_ended, r.world story, h.close_eq_world hrest hlease,
    fun later hopen => ?_⟩
  have hspares : r.Spares later := by
    rintro _ hmem _ limit ⟨⟩ rfl
    exact hopen limit hmem
  refine ⟨fun u hu => ?_, fun u' hu' => ?_⟩
  · rw [← hforget, World.replay_after] at hu
    obtain ⟨v, hv, rfl⟩ := Option.map_eq_some_iff.1 hu
    refine ⟨r.world v, ?_, Retelling.retells World.callsIn_before v⟩
    rw [hsuits.replay_eq hrun hspares, hv]
    rfl
  · obtain ⟨forth, rfl, hforth⟩ := hsuits.exists_replay hrun hspares hu'
    rw [hsuits.replay_eq hrun hforth] at hu'
    obtain ⟨v, hv, rfl⟩ := Option.map_eq_some_iff.1 hu'
    refine ⟨forth, v.after w.history, rfl, ?_,
      Retelling.retells World.callsIn_before v⟩
    rw [← hforget, World.replay_after, hv]
    rfl

/-- A connection comes back with something to undo, and the request that
waits gets it. -/
def undoneAndLent : List Action :=
  [.run 1, .run 1, .run 1, .run 1, .run 2, .run 2, .run 2]

/-- One more request is made while the connection is lent to another holder
than the one that it was taken from. -/
def askedAfterClaim : List Action :=
  [.run 2, .run 2, .start .acquire none]

/-- What is undone in the one story is undone in the other.  And after a
connection was taken back, the next request waits in both, in the one under the
number that the close has in the other. -/
theorem drop_eq_close_undoneAndLent :
    (∃ w v u u', Run briefLoans {} (.markManual 0 true :: lentAndWaiting) w ∧
      w.atRest = true ∧ 0 < w.handles.length ∧
      (w.start (.close 0) none).2.step = some v ∧
      (∀ limit, .start (.close 0) limit ∉ undoneAndLent) ∧
      (w.forget false 0).replay undoneAndLent = some u ∧
      v.replay (undoneAndLent.map (w.closedInstead 0).action) = some u' ∧
      (w.closedInstead 0).Retells w.history u u' ∧
      (Time.ofMillis 50, .began (.rollback 0)) ∈ u.history ∧
      u.pool.active.map (·.lease) = [1] ∧ u'.pool = u.pool) ∧
    ∃ w v u u', Run briefLoans {} (.run 1 :: .run 1 :: .run 1 :: lentAndClaimed)
        w ∧
      w.atRest = true ∧ 0 < w.handles.length ∧
      w.forget false 0 = w ∧ (w.start (.close 0) none).2.step = some v ∧
      (∀ limit, .start (.close 0) limit ∉ askedAfterClaim) ∧
      w.replay askedAfterClaim = some u ∧
      v.replay [.run 3, .run 3, .start .acquire none] = some u' ∧
      u.signal.waiting = [2] ∧ u'.signal.waiting = [3] ∧ u'.pool = u.pool := by
  constructor
  · have hex : ∃ w, Run briefLoans {} (.markManual 0 true :: lentAndWaiting) w ∧
        w.atRest = true ∧ 0 < w.handles.length ∧
        ((w.forget false 0).replay undoneAndLent).any (fun u =>
          decide ((Time.ofMillis 50, .began (.rollback 0)) ∈ u.history ∧
            u.pool.active.map (·.lease) = [1])) = true :=
      Run.exists_of_replay rfl rfl (by decide +kernel)
    obtain ⟨w, h, hrest, hlease, hu⟩ := hex
    obtain ⟨u, hu, hshown⟩ := (Option.any_eq_true ..).mp hu
    obtain ⟨hundone, hlent⟩ := of_decide_eq_true hshown
    have hopen : ∀ limit, .start (.close 0) limit ∉ undoneAndLent := by
      simp [undoneAndLent]
    obtain ⟨-, v, hstep, hgoes⟩ := drop_eq_close_of_run h hrest hlease
    obtain ⟨u', hu', hretells⟩ := (hgoes undoneAndLent hopen).1 u hu
    exact ⟨w, v, u, u', h, hrest, hlease, hstep, hopen, hu, hu', hretells,
      hundone, hlent, hretells.pool⟩
  · have hex : ∃ w,
        Run briefLoans {} (.run 1 :: .run 1 :: .run 1 :: lentAndClaimed) w ∧
        w.atRest = true ∧ 0 < w.handles.length ∧ w.isValid 0 = false ∧
        w.nextTask = 2 ∧
        (w.replay askedAfterClaim).any
          (fun u => decide (u.signal.waiting = [2])) = true :=
      Run.exists_of_replay rfl rfl (by decide +kernel)
    obtain ⟨w, h, hrest, hlease, hended, hnext, hu⟩ := hex
    obtain ⟨u, hu, hshown⟩ := (Option.any_eq_true ..).mp hu
    have hwaits := of_decide_eq_true hshown
    have hopen : ∀ limit, .start (.close 0) limit ∉ askedAfterClaim := by
      simp [askedAfterClaim]
    obtain ⟨hsame, v, hstep, hgoes⟩ := drop_eq_close_of_run h hrest hlease
    have hsame := hsame hended
    rw [hsame] at hgoes
    obtain ⟨u', hu', hretells⟩ := (hgoes askedAfterClaim hopen).1 u hu
    have hnumber : (w.closedInstead 0).number 2 = 3 := by
      simp [Retelling.number, World.closedInstead, hnext, hended]
    have hactions : askedAfterClaim.map (w.closedInstead 0).action =
        [.run 3, .run 3, .start .acquire none] := by
      simp [askedAfterClaim, Retelling.action, hnumber]
    rw [hactions] at hu'
    have hwaits' : u'.signal.waiting = [3] := by
      rw [hretells.signal, Retelling.signal, hwaits, ← hnumber]
      rfl
    exact ⟨w, v, u, u', h, hrest, hlease, hsame, hstep, hopen, hu, hu',
      hwaits, hwaits', hretells.pool⟩

end DatabasePool
