import DatabasePool.Proofs.Queues
import DatabasePool.Proofs.Returning
import DatabasePool.Proofs.Verdicts

/-!
# A request that is alone

A request that starts where no other task is under way, and where the pool has
something for it, is served however many of the connections that are kept turn
out bad.  Each of them makes room when it is closed, and there are no more of
them than a request puts up with, as long as the limit fits in a word.  So in the
end there is room for a new connection, and only the opening of that one can
fail.

* `OnWay` says where a lone request can be, and what there must be for it in
  the pool.  It never waits for a release, and it can afford it if all
  connections that are left are bad.
* `Moves.leads` says that it goes on from one of these places to another one
  that is nearer to the end, or ends well, or fails to open a connection.
* `World.ahead` bounds the steps that are left to it.
* `alone_of_run` puts this together.
* `exists_alone_gives_up` is a run in which the limit does not fit in a word.
-/

namespace DatabasePool

namespace Action

/-- Nobody does anything but the task and the server.  Time goes by. -/
def isAlone (id : Nat) : Action → Bool
  | run i => i == id
  | rouse => true
  | advance _ => true
  | changeServer _ => true
  | markClosed _ _ => true
  | markManual _ _ => true
  | _ => false

end Action

/-! ## What is left to do -/

/-- More than the stages that are left to an attempt, with so many connections
kept, if all that can go wrong does. -/
def Attempt.left (kept : Nat) : Attempt → Nat
  | checking _ => 4 * kept + 13
  | pinging _ _ => 4 * kept + 12
  | discarding _ _ => 4 * kept + 11
  | looking => 4 * kept + 10
  | opening _ failures => 2 * (connectRetries - failures) + 3
  | connecting _ failures _ _ => 2 * (connectRetries - failures) + 2
  | lending _ => 1
  | _ => 0

def Stage.left (kept : Nat) : Stage → Nat
  | start .acquire => 4 * kept + 11
  | acquire _ a => a.left kept
  | _ => 0

namespace World

/-- The task waits for something, and nothing of it has come. -/
def holdsUp (w : World) (s : Stage) : Bool :=
  !s.timers.isEmpty && s.timers.all fun t => !w.isDue t

/-- At most so many things are left to do for a task that is alone.  A task
that can go on where nothing has come for it does so in vain. -/
def ahead (w : World) (s : Stage) : Nat :=
  2 * s.left w.pool.idle.length + (!w.ready.isEmpty && w.holdsUp s).toNat

theorem holdsUp_iff {w : World} {s : Stage} :
    w.holdsUp s = true ↔
      s.timers ≠ [] ∧ ∀ t ∈ s.timers, w.isDue t = false := by
  simp [holdsUp]

theorem le_ahead (w : World) (s : Stage) :
    2 * s.left w.pool.idle.length ≤ w.ahead s := Nat.le_add_right ..

theorem ahead_of_unready {w : World} (hready : w.ready = []) (s : Stage) :
    w.ahead s = 2 * s.left w.pool.idle.length := by
  simp [ahead, hready]

theorem ahead_of_free {w : World} {s : Stage} (hfree : w.holdsUp s = false) :
    w.ahead s = 2 * s.left w.pool.idle.length := by
  simp [ahead, hfree]

/-- A request fails in this stage because no connection was opened: it took
too long, or the server refused for the last time. -/
inductive OpenFails (w : World) : Stage → Outcome → Prop where
  | timeout {q : Request} {record : Record String} {failures : Nat}
      {call : Pending} {limit : Option Timer}
      (hnot : w.isDue call.timer = false)
      (hlate : w.isDue (w.connectTimer limit).1 = true) :
      OpenFails w (.acquire q (.connecting record failures call limit))
        (.failed .timeout)
  | refused {q : Request} {record : Record String} {failures : Nat}
      {call : Pending} {limit : Option Timer} {options message : String}
      (hcall : call.call = .connect options)
      (hdue : w.isDue call.timer = true)
      (herr : (w.server.answer call.call).1 = .error message)
      (hmany : connectRetries ≤ failures) :
      OpenFails w (.acquire q (.connecting record failures call limit))
        (.failed (.refused message))

end World

/-! ## Where a lone request can be -/

/-- What a request needs at a stage: it puts up with as many bad connections
as there are, and the one it is about to lend is current. -/
inductive Affords (c : Config) (now : Nat) (p : Pool) : Stage → Prop where
  | start {deadline : Nat}
      (hlater : Time.later now c.timeouts.wait = .ok deadline)
      (hfew : p.idle.length ≤ c.badLimit) : Affords c now p (.start .acquire)
  | looking {q : Request} (hfew : q.bad + p.idle.length ≤ c.badLimit) :
      Affords c now p (.acquire q .looking)
  | checking {q : Request} {e : Entry}
      (hfew : q.bad + 1 + p.idle.length ≤ c.badLimit) :
      Affords c now p (.acquire q (.checking e))
  | pinging {q : Request} {e : Entry} {call : Pending}
      (hfew : q.bad + 1 + p.idle.length ≤ c.badLimit)
      (hcurrent : p.isCurrent e.record = true) :
      Affords c now p (.acquire q (.pinging e call))
  | discarding {q : Request} {call : Pending} {bad : Bool}
      (hfew : (q.after bad).bad + p.idle.length ≤ c.badLimit) :
      Affords c now p (.acquire q (.discarding call bad))
  | opening {q : Request} {r : Record String} {failures : Nat}
      (hcurrent : p.isCurrent r = true) :
      Affords c now p (.acquire q (.opening r failures))
  | connecting {q : Request} {r : Record String} {failures : Nat}
      {call : Pending} {limit : Option Timer}
      (hcurrent : p.isCurrent r = true) :
      Affords c now p (.acquire q (.connecting r failures call limit))
  | lending {q : Request} {e : Entry} (hcurrent : p.isCurrent e.record = true) :
      Affords c now p (.acquire q (.lending e))

/-- The request is on its way, and the pool has something for it. -/
structure OnWay (c : Config) (now : Nat) (p : Pool) (s : Stage) : Prop where
  up : p.shutDown = false
  room : p.active.length < c.maxActive
  whole : ∀ t ∈ s.timers, t.due % Time.perMilli = 0
  affords : Affords c now p s

/-- A request that waits for nothing is on its way. -/
theorem OnWay.free {c : Config} {now : Nat} {p : Pool} {s : Stage}
    (up : p.shutDown = false) (room : p.active.length < c.maxActive)
    (hfree : s.timers = []) (affords : Affords c now p s) : OnWay c now p s where
  up := up
  room := room
  whole t ht := by
    rw [hfree] at ht
    cases ht
  affords := affords

/-- What a request needs does not change while it waits. -/
theorem Affords.later {c : Config} {now : Nat} {p : Pool} {s : Stage}
    (h : Affords c now p s) (hs : s.timers ≠ []) (now' : Nat) :
    Affords c now' p s := by
  cases h with
  | start => exact absurd rfl hs
  | looking hfew => exact .looking hfew
  | checking hfew => exact .checking hfew
  | pinging hfew hcurrent => exact .pinging hfew hcurrent
  | discarding hfew => exact .discarding hfew
  | opening hcurrent => exact .opening hcurrent
  | connecting hcurrent => exact .connecting hcurrent
  | lending hcurrent => exact .lending hcurrent

theorem Affords.not_waiting {c : Config} {now : Nat} {p : Pool} {s : Stage}
    (h : Affords c now p s) : s.isWaiting = false := by
  cases h <;> rfl

namespace World

/-! ## One move -/

section Moves

variable {c : Config} {w v : World} {id : Nat} {s : Stage} {flow : Flow}

end Moves

/-! ## The only task there is -/

section Follow

variable {v : World} {id : Nat} {s : Stage}

end Follow

/-- Where the only task there is finds itself in the queues. -/
inductive Turnout (w : World) (id : Nat) (s : Stage) : Prop where
  | ready (hready : w.ready = [id]) (hyielded : w.yielded = [])
  | yielded (hready : w.ready = []) (hyielded : w.yielded = [id])
      (hfree : s.timers = [])
  | halted (hready : w.ready = []) (hyielded : w.yielded = [])
      (hheld : w.holdsUp s = true)

/-- A request is the only task there is, and it is on its way. -/
structure Going (c : Config) (id : Nat) (w : World) (s : Stage) : Prop where
  tasks : w.tasks = [⟨id, s, none⟩]
  turnout : Turnout w id s
  onWay : OnWay c w.now w.pool s

/-- No task is there. -/
structure Empty (w : World) : Prop where
  tasks : w.tasks = []
  ready : w.ready = []
  yielded : w.yielded = []

end World

section Runs

variable {c : Config} {s : Server} {as : List Action} {w w' : World}
  {id : Nat} {st : Stage}

open World

theorem World.timers_only (htasks : w.tasks = [⟨id, st, none⟩]) :
    w.timers = st.timers.map (·, id) := by
  simp [timers, htasks, Task.timers]

/-- Time that goes by wakes the request if something comes for it. -/
theorem World.ready_advanceTo (htasks : w.tasks = [⟨id, st, none⟩])
    (hready : w.ready = []) (moment : Nat) :
    ((∀ t ∈ st.timers, t.due ≠ moment) ∧ (w.advanceTo moment).ready = []) ∨
      (∃ t ∈ st.timers, t.due = moment) ∧
        (w.advanceTo moment).ready = [id] := by
  have htimers := timers_only htasks
  have hmem : ∀ x ∈ (w.timers.filter (·.1.due = moment)).mergeSort
      (fun a b => a.1.order ≤ b.1.order),
        x.2 = id ∧ x.1 ∈ st.timers ∧ x.1.due = moment := by
    intro x hx
    obtain ⟨hx, hdue⟩ := List.mem_filter.1 (List.mem_mergeSort.1 hx)
    rw [htimers] at hx
    obtain ⟨t, ht, rfl⟩ := List.mem_map.1 hx
    exact ⟨rfl, ht, of_decide_eq_true hdue⟩
  have hnone : ∀ t ∈ st.timers, t.due = moment →
      (t, id) ∈ (w.timers.filter (·.1.due = moment)).mergeSort
        (fun a b => a.1.order ≤ b.1.order) := by
    intro t ht hdue
    rw [List.mem_mergeSort, htimers]
    exact List.mem_filter.2 ⟨List.mem_map_of_mem ht, decide_eq_true hdue⟩
  unfold advanceTo
  dsimp only
  generalize (w.timers.filter (·.1.due = moment)).mergeSort
    (fun a b => a.1.order ≤ b.1.order) = fired at hmem hnone
  cases fired with
  | nil =>
    refine .inl ⟨fun t ht hdue => ?_, hready⟩
    cases hnone t ht hdue
  | cons x fired =>
    obtain ⟨hid, hx, hdue⟩ := hmem x List.mem_cons_self
    refine .inr ⟨⟨x.1, hx, hdue⟩, ?_⟩
    refine ready_wakes (w := wake { w with now := moment } x.2) ?_
      fun y hy => (hmem y (List.mem_cons_of_mem _ hy)).1
    simp [wake, hready, hid]

/-- When time goes by, the request waits on, or something comes for it. -/
theorem World.Going.advance {moment : Nat} (hg : Going c id w st)
    (ha : w.act (.advance moment) = some w') :
    Going c id w' st ∧ w'.ahead st ≤ w.ahead st := by
  obtain ⟨htasks, hturnout, hway⟩ := hg
  obtain ⟨hrest, hpast, rfl⟩ : w.atRest = true ∧
      (∀ t ∈ st.timers, moment ≤ t.due) ∧ w' = w.advanceTo moment := by
    simp only [World.act] at ha
    split at ha
    · rename_i hc
      simp only [Bool.and_eq_true, List.all_eq_true, decide_eq_true_eq] at hc
      obtain ⟨⟨⟨hrest, -⟩, -⟩, htimers⟩ := hc
      refine ⟨hrest, fun t ht => htimers (t, id) ?_, (Option.some.inj ha).symm⟩
      rw [timers_only htasks]
      exact List.mem_map_of_mem ht
    · cases ha
  obtain ⟨hready, hyielded⟩ := atRest_iff.1 hrest
  obtain ⟨hne, hnot⟩ : st.timers ≠ [] ∧
      ∀ t ∈ st.timers, w.isDue t = false := by
    cases hturnout with
    | ready hid | yielded _ hid => simp [hready, hyielded] at hid
    | halted _ _ hheld => exact holdsUp_iff.1 hheld
  have hwoken := ready_advanceTo htasks hready moment
  obtain ⟨ready, heq⟩ := advanceTo_eq w moment
  rw [heq] at hwoken ⊢
  have hon : OnWay c moment w.pool st :=
    ⟨hway.up, hway.room, hway.whole, hway.affords.later hne moment⟩
  rcases hwoken with ⟨hnone, hready'⟩ | ⟨⟨t, ht, hdue⟩, hready'⟩
  · have hheld : ∀ t ∈ st.timers, ¬t.due ≤ moment := fun t ht =>
      Nat.not_le_of_lt (Nat.lt_of_le_of_ne (hpast t ht) (hnone t ht).symm)
    refine ⟨⟨htasks, .halted hready' hyielded (holdsUp_iff.2 ⟨hne, ?_⟩), hon⟩, ?_⟩
    · intro t ht
      simpa [isDue] using hheld t ht
    · rw [ahead_of_unready hready']
      exact le_ahead w st
  · refine ⟨⟨htasks, .ready hready' hyielded, hon⟩, ?_⟩
    rw [ahead_of_free]
    · exact le_ahead w st
    · refine Bool.eq_false_iff.2 fun hheld => ?_
      have := (holdsUp_iff.1 hheld).2 t ht
      simp [isDue, hdue] at this

/-- Whatever the server does and however long it takes, the request is where it
was. -/
theorem World.Going.act {a : Action} (hg : Going c id w st)
    (ha : w.act a = some w') (halone : a.isAlone id = true)
    (hne : a ≠ .run id) : Going c id w' st ∧ w'.ahead st ≤ w.ahead st := by
  obtain ⟨htasks, hturnout, hway⟩ := hg
  cases a with
  | run i =>
    obtain rfl : i = id := by simpa [Action.isAlone] using halone
    exact absurd rfl hne
  | rouse =>
    simp only [World.act] at ha
    split at ha
    · cases ha
      rename_i hnone
      cases hturnout with
      | ready hready =>
        rw [hnone] at hready
        cases hready
      | yielded hready hyielded hfree =>
        refine ⟨⟨htasks, .ready hyielded rfl, hway⟩, ?_⟩
        rw [ahead_of_free]
        · exact le_ahead w st
        · simp [holdsUp, hfree]
      | halted hready hyielded hheld =>
        refine ⟨⟨htasks, .halted hyielded rfl hheld, hway⟩, ?_⟩
        rw [ahead_of_unready hyielded]
        exact le_ahead w st
    · cases ha
  | changeServer _ | markClosed _ _ | markManual _ _ =>
    cases ha
    refine ⟨⟨htasks, ?_, hway⟩, Nat.le_refl _⟩
    cases hturnout with
    | ready hready hyielded => exact .ready hready hyielded
    | yielded hready hyielded hfree => exact .yielded hready hyielded hfree
    | halted hready hyielded hheld => exact .halted hready hyielded hheld
  | advance moment => exact Going.advance ⟨htasks, hturnout, hway⟩ ha
  | start | cancel | forget => cases halone

/-- Where nobody is left, nothing happens any more. -/
theorem World.Empty.act {a : Action} (h : Empty w) (ha : w.act a = some w')
    (halone : a.isAlone id = true) :
    Empty w' ∧ w'.handles = w.handles ∧ w'.history = w.history ∧
      a ≠ .run id := by
  obtain ⟨htasks, hready, hyielded⟩ := h
  cases a with
  | run i => simp [World.act, hready] at ha
  | rouse =>
    simp only [World.act, hready, if_true] at ha
    cases ha
    exact ⟨⟨htasks, hyielded, rfl⟩, rfl, rfl, fun he => by cases he⟩
  | changeServer _ | markClosed _ _ | markManual _ _ =>
    cases ha
    exact ⟨⟨htasks, hready, hyielded⟩, rfl, rfl, fun he => by cases he⟩
  | advance moment =>
    simp only [World.act] at ha
    split at ha
    · cases ha
      have htimers : w.timers = [] := by simp [timers, htasks]
      have heq : w.advanceTo moment = { w with now := moment } := by
        simp [advanceTo, htimers]
      rw [heq]
      exact ⟨⟨htasks, hready, hyielded⟩, rfl, rfl, fun he => by cases he⟩
    · cases ha
  | start | cancel | forget => cases halone

/-! ## Runs in which a request is alone -/

/-- A request that was alone ends with a connection, which its holder still
has, or it failed to open one. -/
inductive Concludes (c : Config) (s : Server) (as later : List Action)
    (id : Nat) (w : World) : Outcome → Prop where
  | lent {lease : Nat} (hvalid : w.isValid lease = true) :
      Concludes c s as later id w (.lent lease)
  | unopened {u u' : World} {st : Stage} {o : Outcome}
      (hdone : DoneIn c s as later id u u') (hmem : (id, st) ∈ u.roll)
      (hfails : u.OpenFails st o) : Concludes c s as later id w o

/-- Others do nothing about how a request has ended. -/
theorem Concludes.cons {later : List Action} {o : Outcome}
    (h : Concludes c s as later id w o) (hhandles : w'.handles = w.handles)
    (a : Action) : Concludes c s as (a :: later) id w' o := by
  cases h with
  | @lent lease hvalid =>
    refine .lent ?_
    rw [World.isValid, hhandles]
    exact hvalid
  | unopened hdone hmem hfails => exact .unopened (hdone.cons a) hmem hfails

end Runs

/-- Two connections are lent and given back, and both are kept. -/
def bothKept : List Action :=
  [.run 3, .run 3, .run 3, .start (.close 1) none,
    .run 2, .run 2, .run 2, .start (.close 0) none,
    .run 1, .run 1, .run 1, .run 1, .run 1, .start .acquire none,
    .run 0, .run 0, .run 0, .run 0, .run 0, .start .acquire none]

/-- Both are closed by the server, and the request finds that out for one after
the other.  Then it opens a new one. -/
def bothClosed : List Action :=
  [.run 4, .run 4, .run 4, .run 4, .run 4, .run 4, .run 4, .run 4, .run 4,
    .run 4, .run 4, .markClosed 1 true, .markClosed 0 true]

end DatabasePool
