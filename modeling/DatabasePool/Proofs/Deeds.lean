import DatabasePool.Proofs.Scene

/-!
# What a task can do

A task at work does one of a few things to the scene, and this module lists
them.  Each has one case in `Does`, with all that is known about the pool then
and with the stage of the task before and its flow after.

* `Doing.resume` says that there is nothing else that a task can do.

Later proofs go by the cases of `Does` and do not look at the functions again.
-/

namespace DatabasePool

/-! ## What is read off a stage -/

/-- The call for a new connection that a task waits for, with the record of
that connection. -/
def Stage.dials? : Stage → Option (Record String × Call)
  | acquire _ (.connecting r _ call _) => some (r, call.call)
  | _ => none

/-- The connections that a task is to begin to close. -/
def Stage.todo : Stage → List Nat
  | closing todo _ => todo
  | _ => []

/-- A holder is to close the connection for good. -/
def Stage.closesPhysical : Stage → Bool
  | start (.closePhysical _) => true
  | _ => false

namespace Flow

def dials? (f : Flow) : Option (Record String × Call) :=
  f.stage?.bind (·.dials?)

def todo (f : Flow) : List Nat := f.stage?.elim [] (·.todo)

/-- The lease under which a connection is lent. -/
def lends? : Flow → Option Nat
  | finish (.lent lease) => some lease
  | _ => none

end Flow

theorem Stage.hand_of_dials? {s : Stage} {r : Record String} {call : Call}
    (h : s.dials? = some (r, call)) : s.hand = .room r := by
  cases s with
  | acquire q a =>
    cases a with
    | connecting _ _ _ _ =>
      cases h
      rfl
    | _ => cases h
  | _ => cases h

/-! ## Deeds -/

/-- One thing that a task does: from one scene and stage to another scene and
the flow from then on.  The numbers are those of the connections that the pool
begins to close, the last one in front. -/
inductive Does (c : Config) :
    Scene → Stage → Flow → List Nat → Scene → Prop where
  /-- Nothing is to be seen of it. -/
  | stay {V : Scene} {s : Stage} {flow : Flow} (hhand : flow.hand = s.hand)
      (htodo : s.todo = [] ∧ flow.todo = [])
      (hdials : ∀ x, flow.dials? = some x → s.dials? = some x)
      (hlends : flow.lends? = none)
      (hwaits : flow.isWaiting = true →
        flow = .pause s ∧ ∀ alarm ∈ s.timers, V.now < alarm.due) :
      Does c V s flow [] V
  /-- A holder begins to close a connection for good. -/
  | closePhysical {V : Scene} {lease conn : Nat} {call : Pending} :
      Does c V (.start (.closePhysical lease)) (.again (.asking call true)) []
        { V with begun := conn :: V.begun }
  /-- A holder gives back what the pool has taken back. -/
  | mark {V : Scene} {lease : Nat} :
      Does c V (.start (.close lease)) (.finish .done) []
        { V with
          handles := V.handles.modify lease ({ · with closed := true }) }
  /-- A holder gives up the lease. -/
  | callIn {V : Scene} {lease : Nat} :
      Does c V (.start (.close lease))
        (.again (.giveBack (.starting lease))) []
        { V with
          handles :=
            (V.handles.modify lease ({ · with closed := true })).modify lease
              ({ · with valid := false }) }
  /-- A call for a new connection begins. -/
  | dial {V : Scene} {q : Request} {r : Record String} {failures : Nat}
      {call : Pending} (hcall : call.call = .connect V.options) :
      Does c V (.acquire q (.opening r failures))
        (.again (.acquire q (.connecting r failures call none))) [] V
  /-- A connection that was kept is taken. -/
  | take {V : Scene} {q : Request} {e : Entry} {rest : List Entry}
      (hup : V.pool.shutDown = false) (hidle : V.pool.idle = e :: rest) :
      Does c V (.acquire q .looking) (.again (.acquire q (.checking e))) []
        { V with pool := { V.pool with idle := rest }.reserve }
  /-- Room is made for a new connection. -/
  | makeRoom {V : Scene} {q : Request} (hup : V.pool.shutDown = false)
      (hidle : V.pool.idle = []) (hroom : V.pool.hasRoom c.maxActive = true) :
      Does c V (.acquire q .looking)
        (.again (.acquire q (.opening (.fresh (V.pool.lastId + 1)
          V.pool.options V.pool.generation V.now) 0))) []
        { V with pool := { V.pool with lastId := V.pool.lastId + 1 }.reserve }
  /-- An overdue connection is taken from its holder. -/
  | claim {V : Scene} {q : Request} {loan : Loan} {rest : List Loan}
      (hup : V.pool.shutDown = false) (hidle : V.pool.idle = [])
      (hfull : V.pool.hasRoom c.maxActive = false)
      (hperm : (loan :: rest).Perm V.pool.active)
      (hdue : loan.entry.record.isOverdue c.timeouts.checkout V.now = true)
      (hmax : ∀ l ∈ V.pool.active, l.heldFor V.now ≤ loan.heldFor V.now) :
      Does c V (.acquire q .looking)
        (.again (.acquire q (.recovering
          { loan.entry with record := loan.entry.record.takeBack }))) []
        { V with
          pool := { V.pool with active := rest }.reserve
          handles := V.handles.modify loan.lease
            ({ · with valid := false }) }
  /-- There is nothing to be had, and a wait for a release begins. -/
  | wait {V : Scene} {q : Request} {wake : Option Nat} {order : Nat}
      (hup : V.pool.shutDown = false) (hidle : V.pool.idle = [])
      (hfull : V.pool.hasRoom c.maxActive = false)
      (hnone : ∀ loan ∈ V.pool.active,
        loan.entry.record.isOverdue c.timeouts.checkout V.now = false)
      (hwake : V.pool.nextOverdue c.timeouts.checkout = .ok wake) :
      Does c V (.acquire q .looking)
        (.again (.acquire q (.waiting V.now
          ⟨Time.tick (wake.elim q.deadline (min q.deadline)), order⟩))) [] V
  /-- A new connection is opened. -/
  | connect {V : Scene} {q : Request} {r : Record String} {failures : Nat}
      {call : Pending} {limit : Option Timer} {options : String}
      (hcall : call.call = .connect options) :
      Does c V (.acquire q (.connecting r failures call limit))
        (.again (.acquire q (.lending ⟨V.total, r⟩))) []
        { V with
          total := V.total + 1
          opened := (V.total, options) :: V.opened }
  /-- No connection is opened after all. -/
  | giveUp {V : Scene} {s : Stage} {r : Record String} {e : Error}
      (hroom : s.hand = .room r) :
      Does c V s (.finish (.failed e)) [] { V with pool := V.pool.free }
  /-- A connection is lent. -/
  | lend {V : Scene} {q : Request} {e : Entry}
      (hcurrent : V.pool.isCurrent e.record = true) :
      Does c V (.acquire q (.lending e)) (.finish (.lent V.handles.length)) []
        { V with
          pool := { V.pool.free with
            active := V.pool.active ++
              [⟨{ e with record := e.record.lend V.now }, V.handles.length⟩] }
          handles := V.handles ++
            [{ conn := e.conn, record := e.record.lend V.now }] }
  /-- A connection is begun to be closed. -/
  | discard {V : Scene} {s : Stage} {flow : Flow} {e : Entry}
      (hentry : s.hand = .entry e)
      (hclosing : flow.hand = .closing true [e.conn]) :
      Does c V s flow [e.conn] { V with begun := e.conn :: V.begun }
  /-- A connection has been closed, and its slot is given back. -/
  | free {V : Scene} {s : Stage} {flow : Flow} {conns : List Nat}
      (hclosing : s.hand = .closing true conns)
      (hnothing : flow.hand = .nothing) (hlends : flow.lends? = none)
      (hwaits : flow.isWaiting = false) :
      Does c V s flow [] { V with pool := V.pool.free }
  /-- The pool has ended the loan already. -/
  | tooLate {V : Scene} {lease : Nat} :
      Does c V (.giveBack (.starting lease)) (.finish .done) [] V
  /-- The loan ends, and its connection may be kept. -/
  | giveBack {V : Scene} {flow : Flow} {loan : Loan} {rest : List Loan}
      (hperm : (loan :: rest).Perm V.pool.active)
      (hentry : flow.hand = .entry
        { loan.entry with record := loan.entry.record.giveBack V.now }) :
      Does c V (.giveBack (.starting loan.lease)) flow []
        { V with pool := { V.pool with active := rest }.reserve }
  /-- The loan ends, and its connection is begun to be closed. -/
  | turnAway {V : Scene} {flow : Flow} {loan : Loan} {rest : List Loan}
      (hperm : (loan :: rest).Perm V.pool.active)
      (hclosing : flow.hand = .closing true [loan.entry.conn]) :
      Does c V (.giveBack (.starting loan.lease)) flow [loan.entry.conn]
        { V with
          pool := { V.pool with active := rest }.reserve
          begun := loan.entry.conn :: V.begun }
  /-- A connection is kept for later. -/
  | store {V : Scene} {e : Entry} (hroom : V.pool.idle.length < c.maxIdle)
      (hcurrent : V.pool.isCurrent e.record = true) :
      Does c V (.giveBack (.storing e)) (.finish .done) []
        { V with pool := { V.pool.free with idle := e :: V.pool.idle } }
  /-- All connections are declared out of date. -/
  | invalidate {V : Scene} :
      Does c V (.start .invalidate)
        (.again (.closing (V.pool.invalidate.1.map (·.conn)) [])) []
        { V with pool := V.pool.invalidate.2 }
  /-- Other options are set, and all connections are out of date by that. -/
  | setOptions {V : Scene} (options : String) :
      Does c V (.start (.setOptions options))
        (.again (.closing (V.pool.invalidate.1.map (·.conn)) [])) []
        { V with
          options := options
          pool := { V.pool with options := options }.invalidate.2 }
  /-- The pool ends. -/
  | shutDown {V : Scene} (hup : V.pool.shutDown = false) :
      Does c V (.start .shutDown)
        (.again (.closing (V.pool.close.1.map (·.conn) ++
          V.pool.close.2.1.map (·.entry.conn)) [])) []
        { V with
          pool := V.pool.close.2.2
          handles := V.pool.active.foldl (fun handles loan =>
            handles.modify loan.lease ({ · with valid := false }))
            V.handles }
  /-- All connections that are to be closed are begun to be. -/
  | close {V : Scene} {todo : List Nat} {calls : List Pending} {flow : Flow}
      (hflow : flow = .finish .done ∨
        ∃ calls', flow = .pause (.closing [] calls')) :
      Does c V (.closing todo calls) flow todo.reverse
        { V with begun := todo.reverse ++ V.begun }

/-- There is a thing of the list that the task does in this way. -/
def Doing (c : Config) (V : Scene) (s : Stage) (x : Flow × World) : Prop :=
  ∃ closes, Does c V s x.1 closes x.2.scene

namespace Doing

open World

variable {c : Config} {V : Scene} {w : World} {s s' : Stage}

/-- The task goes on at once with the same in hand. -/
theorem again (hw : w.scene = V) (hhand : s'.hand = s.hand)
    (htodo : s.todo = [] ∧ s'.todo = []) (hdials : s'.dials? = none)
    (hwaits : s'.isWaiting = false) : Doing c V s (.again s', w) := by
  refine ⟨[], hw ▸ .stay hhand htodo ?_ rfl ?_⟩
  · intro x hx
    cases hdials.symm.trans hx
  · intro h
    cases hwaits.symm.trans h

/-- The task goes on waiting. -/
theorem pause (hw : w.scene = V) (htodo : s.todo = [])
    (hwaits : s.isWaiting = true → ∀ alarm ∈ s.timers, V.now < alarm.due) :
    Doing c V s (.pause s, w) :=
  ⟨[], hw ▸ .stay rfl ⟨htodo, htodo⟩ (fun _ h => h) rfl
    fun h => ⟨rfl, hw ▸ hwaits h⟩⟩

/-- The task is over and had nothing in hand. -/
theorem finish {o : Outcome} (hw : w.scene = V) (hhand : s.hand = .nothing)
    (htodo : s.todo = []) (hlends : (Flow.finish o).lends? = none) :
    Doing c V s (.finish o, w) :=
  ⟨[], hw ▸ .stay hhand.symm ⟨htodo, rfl⟩ (fun _ h => by cases h) hlends
    fun h => by cases h⟩

/-- A slot with nothing in it is given back. -/
theorem free {conns : List Nat} {flow : Flow}
    (hw : w.scene = { V with pool := V.pool.free })
    (hclosing : s.hand = .closing true conns) (hnothing : flow.hand = .nothing)
    (hlends : flow.lends? = none) (hwaits : flow.isWaiting = false) :
    Doing c V s (flow, w) :=
  ⟨[], hw ▸ .free hclosing hnothing hlends hwaits⟩

/-! ## Requests -/

theorem scene_discardAttempt (w : World) (r : Request) (conn : Nat)
    (bad : Bool) :
    (w.discardAttempt r conn bad).2.scene =
      { w.scene with begun := conn :: w.scene.begun } :=
  scene_beginCall w (.close conn)

theorem discardAttempt {e : Entry} {r : Request} {bad : Bool}
    (hw : w.scene = V) (hentry : s.hand = .entry e) :
    Doing c V s (w.discardAttempt r e.conn bad) := by
  refine ⟨[e.conn], ?_⟩
  rw [scene_discardAttempt, hw]
  exact .discard hentry rfl

theorem rejectAttempt {e : Entry} {id : Nat} {r : Request}
    (hw : w.scene = V) (hentry : s.hand = .entry e) :
    Doing c V s (w.rejectAttempt id r e.conn) := by
  refine discardAttempt ?_ hentry
  rw [scene_note, scene_setMetrics, hw]
  rfl

theorem look (id : Nat) (r : Request) :
    Doing w.config w.scene (.acquire r .looking) (w.look id r) := by
  have hj : (w.join id).scene = w.scene ∧ (w.join id).config = w.config ∧
      (w.join id).now = w.now ∧ (w.join id).pool = w.pool := by
    simp
  unfold World.look
  generalize w.join id = v at hj
  obtain ⟨hscene, hconfig, hnow, hpool⟩ := hj
  rw [← hscene, ← hconfig]
  dsimp only
  rcases hoffer : v.pool.offer v.config v.now with ⟨offer, p⟩
  cases Pool.offers hoffer with
  | shutDown =>
    exact finish (by rw [scene_leave]) rfl rfl rfl
  | kept hup hidle => exact ⟨[], .take hup hidle⟩
  | room hup hidle hroom => exact ⟨[], .makeRoom hup hidle hroom⟩
  | overdue hup hidle hfull htake =>
    obtain ⟨hdue, hmax, rest, hperm, rfl⟩ := Pool.takeOverdue?_eq_some htake
    refine ⟨[], ?_⟩
    show Does _ _ _ _ _ (World.scene (note _ _))
    rw [scene_note]
    exact .claim hup hidle hfull hperm hdue hmax
  | nothing hup hidle hfull hnone hwake =>
    have hnone := Pool.takeOverdue?_eq_none hnone
    exact ⟨[], .wait hup hidle hfull hnone hwake⟩
  | beyond => exact finish (by rw [scene_leave]; rfl) rfl rfl rfl

theorem connecting (id : Nat) (r : Request) {record : Record String}
    {failures : Nat} {call : Pending} {limit : Option Timer}
    (hf : ∃ options, call.call = .connect options) :
    Doing w.config w.scene (.acquire r (.connecting record failures call limit))
      (w.connecting id r record failures call limit) := by
  have hv : ∀ {v : World}, (v = w ∨ ∃ span, v = (w.setWait span).2) →
      v.scene = w.scene := by
    rintro v (rfl | ⟨span, rfl⟩)
    · rfl
    · exact scene_setWait w span
  have hfree : ∀ {v : World}, v.scene = w.scene →
      (v.freeSlot.leave id).scene =
        { w.scene with pool := w.scene.pool.free } := by
    intro v hv
    rw [scene_leave, scene_freeSlot, hv]
  obtain ⟨options, hcall⟩ := hf
  have ha := scene_hearAnswer_connect w options
  rw [← hcall] at ha
  rcases hx : w.connecting id r record failures call limit with ⟨flow, v⟩
  cases connects hx with
  | opened hdue hok =>
    rw [hok] at ha
    obtain ⟨he, hb⟩ | ⟨⟨message, he⟩, -⟩ := ha
    · refine ⟨[], ?_⟩
      rw [hb, Except.ok.inj he]
      exact .connect hcall
    · cases he
  | retry hdue herr =>
    rw [herr] at ha
    obtain ⟨he, -⟩ | ⟨-, hb⟩ := ha
    · cases he
    · exact ⟨[], hb ▸ .stay rfl ⟨rfl, rfl⟩ (fun _ h => by cases h) rfl
        fun h => by cases h⟩
  | refused hdue herr =>
    rw [herr] at ha
    obtain ⟨he, -⟩ | ⟨-, hb⟩ := ha
    · cases he
    · exact ⟨[], hfree hb ▸ .giveUp rfl⟩
  | timeout h => exact ⟨[], hfree (hv h) ▸ .giveUp rfl⟩
  | wait h =>
    exact ⟨[], hv h ▸ .stay rfl ⟨rfl, rfl⟩ (fun _ h => h) rfl
      fun h => by cases h⟩

theorem recover (r : Request) (e : Entry) :
    Doing c w.scene (.acquire r (.recovering e)) (w.recover r e) := by
  unfold World.recover
  split
  · exact discardAttempt rfl rfl
  · split
    · exact again rfl rfl ⟨rfl, rfl⟩ rfl rfl
    · exact again (scene_beginCall ..) rfl ⟨rfl, rfl⟩ rfl rfl

theorem check (id : Nat) (r : Request) (e : Entry) :
    Doing c w.scene (.acquire r (.checking e)) (w.check id r e) := by
  unfold World.check
  split
  · exact discardAttempt rfl rfl
  · split
    · exact rejectAttempt rfl rfl
    · split
      · exact again (scene_beginCall ..) rfl ⟨rfl, rfl⟩ rfl rfl
      · exact again rfl rfl ⟨rfl, rfl⟩ rfl rfl

theorem lend (id : Nat) (r : Request) (e : Entry) :
    Doing c w.scene (.acquire r (.lending e)) (w.lend id r e) := by
  unfold World.lend
  dsimp only
  split
  · rename_i p hlend
    obtain ⟨hcurrent, rfl⟩ := Pool.lend?_eq_some hlend
    refine ⟨[], ?_⟩
    show Does _ _ _ _ _ (World.scene (World.leave _ id))
    rw [scene_leave, scene_note]
    exact .lend hcurrent
  · exact discardAttempt rfl rfl

/-- The answer to a call other than one for a new connection is heard. -/
theorem heard {call : Call} (h : ∀ options, call ≠ .connect options)
    {x : Except String Nat} {v : World} (hx : w.hearAnswer call = (x, v)) :
    v.scene = w.scene := by
  have hs := scene_hearAnswer w h
  rwa [hx] at hs

theorem discarded {conns : List Nat} (id : Nat) (r : Request) (bad : Bool)
    (hw : w.scene = V) (hclosing : s.hand = .closing true conns) :
    Doing c V s (w.discarded id r bad) := by
  have hfree : (w.freeSlot.leave id).scene =
      { V with pool := V.pool.free } := by
    rw [scene_leave, scene_freeSlot, hw]
  obtain ⟨r', h | h⟩ := discarded_eq w id r bad
  all_goals
    rw [h]
    exact free hfree hclosing rfl rfl rfl

theorem waiting (id : Nat) (r : Request) (since : Nat) (alarm : Timer) :
    Doing c w.scene (.acquire r (.waiting since alarm))
      (w.waiting id r since alarm) := by
  rcases hx : w.waiting id r since alarm with ⟨flow, v⟩
  cases waits hx with
  | on htold hdue =>
    refine pause rfl rfl fun _ t ht => ?_
    obtain rfl := List.mem_singleton.1 ht
    have hlt : w.now < t.due := by simpa [isDue] using hdue
    exact hlt
  | told | roused =>
    exact again (by rw [scene_leave]; rfl) rfl ⟨rfl, rfl⟩ rfl rfl
  | exhausted => exact finish (by rw [scene_leave]; rfl) rfl rfl rfl

theorem resumeAcquire (id : Nat) (r : Request) {a : Attempt} (hf : a.Fits) :
    Doing w.config w.scene (.acquire r a) (w.resumeAcquire id r a) := by
  cases a with
  | looking => exact look id r
  | opening record failures =>
    refine ⟨[], ?_⟩
    show Does _ _ _ _ _ (w.beginCall (.connect w.server.options)).2.scene
    rw [scene_beginCall]
    exact .dial rfl
  | connecting record failures call limit => exact connecting id r hf
  | recovering e => exact recover r e
  | undoing e call =>
    have hcall : call.call = .rollback e.conn := hf
    simp only [World.resumeAcquire]
    split
    · split
      all_goals
        rename_i heq
        have ha := heard (by simp [hcall]) heq
      · exact again ha rfl ⟨rfl, rfl⟩ rfl rfl
      · exact discardAttempt ha rfl
    · exact pause rfl rfl fun h => by cases h
  | checking e => exact check id r e
  | pinging e call =>
    obtain ⟨query, hcall⟩ := hf
    simp only [World.resumeAcquire]
    split
    · split
      all_goals
        rename_i heq
        have ha := heard (by simp [hcall]) heq
      · exact again ha rfl ⟨rfl, rfl⟩ rfl rfl
      · exact rejectAttempt ha rfl
    · exact pause rfl rfl fun h => by cases h
  | lending e => exact lend id r e
  | discarding call bad =>
    obtain ⟨conn, hcall⟩ := hf
    simp only [World.resumeAcquire]
    split
    · exact discarded id r bad (scene_hearAnswer w (by simp [hcall])) rfl
    · exact pause rfl rfl fun h => by cases h
  | waiting since alarm => exact waiting id r since alarm

/-! ## Returns -/

theorem scene_discardReturn (w : World) (conn : Nat) :
    (w.discardReturn conn).2.scene =
      { w.scene with begun := conn :: w.scene.begun } :=
  scene_beginCall w (.close conn)

theorem discardReturn {e : Entry} (hw : w.scene = V)
    (hentry : s.hand = .entry e) : Doing c V s (w.discardReturn e.conn) := by
  refine ⟨[e.conn], ?_⟩
  rw [scene_discardReturn, hw]
  exact .discard hentry rfl

theorem startReturn (lease : Nat) :
    Doing c w.scene (.giveBack (.starting lease)) (w.startReturn lease) := by
  rcases hx : w.startReturn lease with ⟨flow, v⟩
  cases startsReturn hx with
  | tooLate => exact ⟨[], .tooLate⟩
  | @discard loan _ _ htake =>
    obtain ⟨rfl, rest, hperm, rfl⟩ := Pool.takeLoan?_eq_some htake
    refine ⟨[loan.entry.conn], ?_⟩
    dsimp only
    rw [scene_discardReturn, scene_note]
    exact .turnAway hperm rfl
  | store htake =>
    obtain ⟨rfl, rest, hperm, rfl⟩ := Pool.takeLoan?_eq_some htake
    refine ⟨[], ?_⟩
    rw [scene_note]
    exact .giveBack hperm rfl
  | undo htake hcall =>
    obtain ⟨rfl, rest, hperm, rfl⟩ := Pool.takeLoan?_eq_some htake
    refine ⟨[], ?_⟩
    rw [scene_beginCall, scene_note]
    exact .giveBack hperm rfl

theorem store (e : Entry) :
    Doing w.config w.scene (.giveBack (.storing e)) (w.store e) := by
  unfold World.store
  split
  · rename_i p hstore
    obtain ⟨hroom, hcurrent, rfl⟩ := Pool.store?_eq_some hstore
    refine ⟨[], ?_⟩
    show Does _ _ _ _ _ (World.scene (World.ring _))
    rw [scene_ring]
    exact .store hroom hcurrent
  · exact discardReturn rfl rfl

theorem resumeReturn {r : Return} (hf : r.Fits) :
    Doing w.config w.scene (.giveBack r) (w.resumeReturn r) := by
  cases r with
  | starting lease => exact startReturn lease
  | undoing e call =>
    have hcall : call.call = .rollback e.conn := hf
    simp only [World.resumeReturn]
    split
    · split
      all_goals
        rename_i heq
        have ha := heard (by simp [hcall]) heq
      · exact again ha rfl ⟨rfl, rfl⟩ rfl rfl
      · exact discardReturn ha rfl
    · exact pause rfl rfl fun h => by cases h
  | storing e => exact store e
  | discarding call =>
    obtain ⟨conn, hcall⟩ := hf
    have ha := scene_hearAnswer w (show ∀ options, call.call ≠ .connect options
      by simp [hcall])
    simp only [World.resumeReturn]
    split
    · refine free ?_ rfl rfl rfl rfl
      rw [scene_freeSlot, ha]
    · exact pause rfl rfl fun h => by cases h

/-! ## Many connections at once -/

theorem hearAnswers (calls : List Pending) (w : World)
    (hf : ∀ call ∈ calls, ∃ conn, call.call = .close conn) :
    (w.hearAnswers calls).2.scene = w.scene := by
  induction calls generalizing w with
  | nil => rfl
  | cons call calls ih =>
    obtain ⟨conn, hcall⟩ := hf call List.mem_cons_self
    have hf' := fun call h => hf call (List.mem_cons_of_mem _ h)
    have ha := scene_hearAnswer w (show ∀ options, call.call ≠ .connect options
      by simp [hcall])
    simp only [World.hearAnswers]
    split
    · exact (ih _ hf').trans ha
    · exact ih w hf'

theorem beginCloses (conns : List Nat) (w : World) :
    (w.beginCloses conns).2.scene =
      { w.scene with begun := conns.reverse ++ w.scene.begun } := by
  induction conns generalizing w with
  | nil => rfl
  | cons conn conns ih =>
    have hb : (w.beginCall (.close conn)).2.scene =
        { w.scene with begun := conn :: w.scene.begun } :=
      scene_beginCall w (.close conn)
    simp only [World.beginCloses]
    split
    · rw [ih, scene_hearAnswer _ (by simp), hb]
      simp
    · rw [ih, hb]
      simp

theorem resumeClosing {todo : List Nat} {calls : List Pending}
    (hf : ∀ call ∈ calls, ∃ conn, call.call = .close conn) :
    Doing c w.scene (.closing todo calls) (w.resumeClosing todo calls) := by
  have hscene : ((w.hearAnswers calls).2.beginCloses todo).2.scene =
      { w.scene with begun := todo.reverse ++ w.scene.begun } := by
    rw [beginCloses, hearAnswers calls w hf]
  refine ⟨todo.reverse, ?_⟩
  unfold World.resumeClosing
  dsimp only
  split
  · rw [hscene]
    exact .close (.inl rfl)
  · rw [hscene]
    exact .close (.inr ⟨_, rfl⟩)

/-- The leases of some loans end, one after the other. -/
theorem withdraw (loans : List Loan) (w : World) :
    (loans.foldl (fun w loan =>
      (w.revoke loan.lease).note (.withdrawn loan.lease)) w).scene =
    { w.scene with
      handles := loans.foldl (fun handles loan =>
        handles.modify loan.lease ({ · with valid := false }))
        w.scene.handles } := by
  induction loans generalizing w with
  | nil => rfl
  | cons loan loans ih =>
    rw [List.foldl_cons, ih, scene_note, scene_revoke]
    rfl

theorem shutDown : Doing c w.scene (.start .shutDown) w.shutDown := by
  unfold World.shutDown
  split
  · exact finish rfl rfl rfl rfl
  · rename_i hup
    refine ⟨[], ?_⟩
    show Does _ _ _ _ _ (World.scene (List.foldl _ _ _))
    rw [withdraw, scene_ringAll]
    have hup' : w.pool.shutDown = false := by simpa using hup
    exact .shutDown hup'

/-! ## Holders -/

theorem ask (lease : Nat) {op : Operation} {call : Nat → Call} {raw : Bool}
    (hf : ∀ conn, (call conn).closes? = none) :
    Doing c w.scene (.start op) (w.ask lease call raw) := by
  unfold World.ask
  split
  · rename_i conn _
    have hb := scene_beginCall w (call conn)
    rw [hf] at hb
    exact again hb rfl ⟨rfl, rfl⟩ rfl rfl
  · exact finish rfl rfl rfl rfl

theorem closePhysical (lease : Nat) :
    Doing c w.scene (.start (.closePhysical lease))
      (w.ask lease .close true) := by
  unfold World.ask
  split
  · refine ⟨[], ?_⟩
    show Does _ _ _ _ _ (World.beginCall _ (.close _)).2.scene
    rw [scene_beginCall]
    exact .closePhysical
  · exact finish rfl rfl rfl rfl

theorem resumeAsking {call : Pending} {raw : Bool}
    (hf : ∀ options, call.call ≠ .connect options) :
    Doing c w.scene (.asking call raw) (w.resumeAsking call raw) := by
  unfold World.resumeAsking
  split
  · split
    all_goals
      rename_i heq
      have ha := heard hf heq
    · exact finish ha rfl rfl rfl
    · split <;> exact finish ha rfl rfl rfl
  · exact pause rfl rfl fun h => by cases h

theorem close (lease : Nat) :
    Doing c w.scene (.start (.close lease)) (w.close lease) := by
  unfold World.close
  split
  · split
    · exact finish rfl rfl rfl rfl
    · dsimp only
      split
      · exact ⟨[], .callIn⟩
      · exact ⟨[], .mark⟩
  · exact finish rfl rfl rfl rfl

/-! ## Any task -/

theorem begin (op : Operation) :
    Doing w.config w.scene (.start op) (w.begin op) := by
  cases op with
  | acquire =>
    simp only [World.begin]
    split
    · exact finish rfl rfl rfl rfl
    · exact again rfl rfl ⟨rfl, rfl⟩ rfl rfl
  | close lease => exact close lease
  | ping lease query => exact ask lease fun _ => rfl
  | rollback lease =>
    simp only [World.begin, World.rollback]
    split
    · exact finish rfl rfl rfl rfl
    · exact ask lease fun _ => rfl
  | closePhysical lease => exact closePhysical lease
  | invalidate => exact ⟨[], .invalidate⟩
  | shutDown => exact shutDown
  | setOptions options => exact ⟨[], .setOptions options⟩

/-- Whatever a task does is one of the deeds. -/
theorem resume (w : World) (id : Nat) {s : Stage} (hf : s.Fits) :
    Doing w.config w.scene s (w.resume id s) := by
  cases s with
  | start op => exact begin op
  | acquire r a => exact resumeAcquire id r hf
  | giveBack r => exact resumeReturn hf
  | asking call raw => exact resumeAsking hf
  | closing todo calls => exact resumeClosing hf

end Doing

end DatabasePool
