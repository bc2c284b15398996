import DatabasePool.Proofs.Custody
import DatabasePool.Proofs.Leases

/-!
# What was not committed is undone

What one holder has not committed does not reach the next one.  When a
connection comes back or is claimed, the task that has it then finds that it
commits by itself, or begins to undo what was not committed.  If that fails or
is cut off, the connection is discarded.  So a connection that is kept, or is
about to be lent, is clean of all its holders.

* `Moves.clean` and `Moves.undoing` say how a task comes to have a connection
  that is clean, or is being cleaned.
* `washed_of_run` says that all connections are clean that have to be.
* `Run.undoing_act` says what becomes of a connection that is being cleaned,
  and `Run.begins` says when the pool begins that.
* `undone_of_run` says that nothing is lent that is not clean.
-/

namespace DatabasePool

/-! ## Tasks that undo -/

/-- The entry in the slot of a task that has nothing left to undo. -/
def Stage.clean? : Stage → Option Entry
  | acquire _ (.checking e) => some e
  | acquire _ (.pinging e _) => some e
  | acquire _ (.lending e) => some e
  | giveBack (.storing e) => some e
  | _ => none

theorem Stage.eq_of_undoing? {st : Stage} {e : Entry} {call : Pending}
    (h : st.undoing? = some (e, call)) :
    (∃ r, st = .acquire r (.undoing e call)) ∨
      st = .giveBack (.undoing e call) := by
  cases st with
  | acquire r a =>
    cases a with
    | undoing =>
      cases h
      exact .inl ⟨r, rfl⟩
    | _ => cases h
  | giveBack g =>
    cases g with
    | undoing =>
      cases h
      exact .inr rfl
    | _ => cases h
  | _ => cases h

/-- Such a task has the connection in its slot, and if it closes it, it does
so for the pool. -/
theorem Stage.of_undoing? {st : Stage} {e : Entry} {call : Pending}
    (h : st.undoing? = some (e, call)) :
    st.entry? = some e ∧ st.closesPhysical = false := by
  rcases eq_of_undoing? h with ⟨r, rfl⟩ | rfl
  all_goals exact ⟨rfl, rfl⟩

theorem Stage.entry?_of_clean? {st : Stage} {e : Entry}
    (h : st.clean? = some e) : st.entry? = some e := by
  cases st with
  | acquire r a =>
    cases a with
    | checking | pinging | lending =>
      cases h
      rfl
    | _ => cases h
  | giveBack g =>
    cases g with
    | storing =>
      cases h
      rfl
    | _ => cases h
  | _ => cases h

/-- A task at this stage is to see whether something was not committed on the
connection: it has claimed it, or is about to end its loan. -/
def Pool.Examines (p : Pool) (st : Stage) (conn : Nat) : Prop :=
  (∃ r e, st = .acquire r (.recovering e) ∧ e.conn = conn) ∨
    ∃ loan ∈ p.active, st = .giveBack (.starting loan.lease) ∧
      loan.entry.conn = conn

namespace World

/-- The connections on which the pool began a rollback in an action, the last
one in front.  What a holder asks for does not count. -/
def rollbacksBegun (w : World) (a : Action) (w' : World) : List Nat :=
  if (a.task?.bind w.task?).any (·.stage.rollsBack) then []
  else (w'.history.take (w'.history.length - w.history.length)).filterMap
    (·.2.rollsBack?)

/-- A task of the pool begins a rollback and comes to wait for the answer. -/
structure BeginsUndo (w : World) (id : Nat) (st : Stage) (conn : Nat)
    (w' : World) : Prop where
  act : w.act (.run id) = some w'
  begun : conn ∈ w.rollbacksBegun (.run id) w'
  stage : (id, st) ∈ w'.roll
  undoing : ∃ e call, st.undoing? = some (e, call) ∧ e.conn = conn

/-- A task that waits for a rollback hears that it went well. -/
structure EndsUndo (w : World) (id : Nat) (st : Stage) (conn : Nat)
    (w' : World) : Prop where
  act : w.act (.run id) = some w'
  stage : (id, st) ∈ w.roll
  answered :
    w'.history.head? = some (w.now, .answered (.rollback conn) conn)

/-- The pool has the connection itself, for later or in the slot of a task. -/
def Holds (w : World) (conn : Nat) : Prop :=
  conn ∈ w.pool.idle.map (·.conn) ∨ conn ∈ w.guarded

theorem holds_of_entry {w : World} {id : Nat} {st : Stage} {e : Entry}
    (hmem : (id, st) ∈ w.roll) (he : st.entry? = some e) : w.Holds e.conn := by
  obtain ⟨t, ht, hid⟩ := List.mem_map.1 hmem
  cases hid
  refine .inr (List.mem_flatMap.2 ⟨t, ht, ?_⟩)
  rw [he]
  exact List.mem_singleton.2 rfl

end World

/-- In a run of these actions, a task has begun a rollback on the connection
after the lease had ended, and that went well. -/
def Undone (c : Config) (s : Server) (as : List Action) (lease conn : Nat) :
    Prop :=
  ∃ later between before id st v v' u u',
    as = later ++ .run id :: (between ++ .run id :: before) ∧
      Run c s before v ∧ lease < v.handles.length ∧
      v.isValid lease = false ∧ v.BeginsUndo id st conn v' ∧
      Run c s (between ++ .run id :: before) u ∧ u.EndsUndo id st conn u'

/-- In a run of these actions, a task that was to see whether something was
not committed on the connection, after the lease had ended, has found that the
connection commits by itself. -/
def FoundCommitted (c : Config) (s : Server) (as : List Action)
    (lease conn : Nat) : Prop :=
  ∃ later before id st v v', as = later ++ .run id :: before ∧
    Run c s before v ∧ v.act (.run id) = some v' ∧ (id, st) ∈ v.roll ∧
      v.pool.Examines st conn ∧ lease < v.handles.length ∧
      v.isValid lease = false ∧ v.server.isAutoCommit conn = true

/-- The connection is clean of all its holders: after the lease of each had
ended, nothing was left to undo or it was undone. -/
def Clean (c : Config) (s : Server) (as : List Action) (w : World)
    (conn : Nat) : Prop :=
  ∀ i x, w.handles[i]? = some x → x.conn = conn →
    Undone c s as i conn ∨ FoundCommitted c s as i conn

/-- In a run of these actions, the task began a rollback on the connection
when the leases of all its holders had ended. -/
def UndoBegun (c : Config) (s : Server) (as : List Action) (w : World)
    (id : Nat) (st : Stage) (conn : Nat) : Prop :=
  ∃ later before v v', as = later ++ .run id :: before ∧ Run c s before v ∧
    v.BeginsUndo id st conn v' ∧ ∀ i x, w.handles[i]? = some x →
      x.conn = conn → i < v.handles.length ∧ v.isValid i = false

/-- What is kept and what is about to be lent is clean, and what is being
cleaned will be. -/
structure Washed (c : Config) (s : Server) (as : List Action) (w : World) :
    Prop where
  idle : ∀ e ∈ w.pool.idle, Clean c s as w e.conn
  slot : ∀ id st e, (id, st) ∈ w.roll → st.clean? = some e →
    Clean c s as w e.conn
  undoing : ∀ id st e call, (id, st) ∈ w.roll →
    st.undoing? = some (e, call) → UndoBegun c s as w id st e.conn

/-! ## Leases of what the pool has -/

section Runs

variable {c : Config} {s : Server} {as later : List Action} {a : Action}
  {w w' : World} {id conn i : Nat} {st : Stage} {x : Handle}

/-- A valid lease is that of a loan of the same connection. -/
theorem Run.loan_of_valid (h : Run c s as w) (hx : w.handles[i]? = some x)
    (hvalid : x.valid = true) :
    ∃ loan ∈ w.pool.active, loan.lease = i ∧ loan.entry.conn = x.conn := by
  obtain ⟨loan, hl, rfl⟩ := (leased_of_run h).valid i x hx hvalid
  obtain ⟨y, hy, hconn, -⟩ := (leased_of_run h).loans loan hl
  obtain rfl := Option.some.inj (hx.symm.trans hy)
  exact ⟨loan, hl, rfl, hconn.symm⟩

/-- A connection is in one place at most. -/
theorem Run.presence_le (h : Run c s as w) (conn : Nat) :
    w.presence conn ≤ 1 := by
  have hcount := (spread_of_run h).count_eq conn
  have hone := List.nodup_iff_count_le_one.1
    (List.nodup_range (n := w.scene.total)) conn
  rw [w.presence_eq]
  omega

/-- What the pool has, or has lent, has been opened. -/
theorem Run.lt_of_presence (h : Run c s as w)
    (hpos : 0 < w.presence conn) : conn < w.server.connections.length := by
  have hcount := (spread_of_run h).count_eq conn
  rw [w.presence_eq] at hpos
  have hmem : 0 < (List.range w.scene.total).count conn := by omega
  exact List.mem_range.1 (List.count_pos_iff.1 hmem)

theorem Run.lt_of_lent (h : Run c s as w) {loan : Loan}
    (hl : loan ∈ w.pool.active) :
    loan.entry.conn < w.server.connections.length := by
  have hpos := List.count_pos_iff.2 (List.mem_map_of_mem
    (f := (·.entry.conn)) hl)
  refine h.lt_of_presence ?_
  unfold World.presence
  omega

theorem World.Holds.presence_pos (h : w.Holds conn) :
    0 < w.presence conn := by
  have hown := h.imp List.count_pos_iff.2 List.count_pos_iff.2
  unfold presence
  omega

/-- The server only gets more connections. -/
theorem Run.connections_le (h : Run c s as w) (ha : w.act a = some w') :
    w.server.connections.length ≤ w'.server.connections.length := by
  refine (h.happens ha).scene (P := fun V => w.scene.total ≤ V.total) ?self
    ?deed ?drop ?handles ?options ?pass
  case deed =>
    intro st flow closes V hdoes
    cases hdoes with
    | connect => exact Nat.le_succ _
    | _ => exact Nat.le_refl _
  case drop =>
    intro V outside st hle
    unfold Scene.drop
    split <;> exact hle
  case self => exact Nat.le_refl _
  case handles | options => exact fun _ => Nat.le_refl _
  case pass => exact fun _ _ => Nat.le_refl _

/-- What the pool has itself is not on loan. -/
theorem Run.conn_ne_of_holds (h : Run c s as w) (hholds : w.Holds conn)
    {loan : Loan} (hl : loan ∈ w.pool.active) : loan.entry.conn ≠ conn := by
  intro hconn
  have hactive : 0 < (w.pool.active.map (·.entry.conn)).count conn :=
    List.count_pos_iff.2 (List.mem_map.2 ⟨loan, hl, hconn⟩)
  have hown := hholds.imp List.count_pos_iff.2 List.count_pos_iff.2
  have hone := h.presence_le conn
  unfold World.presence at hone
  omega

/-- Nobody else has what the pool has itself. -/
theorem Run.ended_of_holds (h : Run c s as w) (hholds : w.Holds conn)
    (hx : w.handles[i]? = some x) (hconn : x.conn = conn) :
    x.valid = false := by
  refine Bool.eq_false_iff.2 fun hvalid => ?_
  obtain ⟨loan, hl, -, hloan⟩ := h.loan_of_valid hx hvalid
  exact h.conn_ne_of_holds hholds hl (hloan.trans hconn)

/-- Two loans are not of the same connection. -/
theorem Run.nodup_active (h : Run c s as w) :
    (w.pool.active.map (·.entry.conn)).Nodup := by
  refine List.nodup_iff_count_le_one.2 fun conn => ?_
  have hone := h.presence_le conn
  unfold World.presence at hone
  omega

/-- No holder has a connection on which a task is to see whether something
was not committed. -/
theorem Run.ended_of_examines (h : Run c s as w) (hmem : (id, st) ∈ w.roll)
    (hexamines : w.pool.Examines st conn) (hx : w.handles[i]? = some x)
    (hconn : x.conn = conn) : x.valid = false := by
  rcases hexamines with ⟨r, e, rfl, rfl⟩ | ⟨loan, hl, rfl, hloan⟩
  · exact h.ended_of_holds (World.holds_of_entry hmem rfl) hx hconn
  · refine Bool.eq_false_iff.2 fun hvalid => ?_
    obtain ⟨l, hl', rfl, hconn'⟩ := h.loan_of_valid hx hvalid
    obtain rfl : l = loan := List.inj_on_of_nodup_map h.nodup_active hl' hl
      (hconn'.trans (hconn.trans hloan.symm))
    obtain ⟨t, ht, he⟩ := List.mem_map.1 hmem
    have hhand : .lease l.lease ∈ w.hands := by
      refine List.mem_map.2 ⟨t, ht, ?_⟩
      rw [(Prod.mk.inj he).2]
      rfl
    have hended := ((leased_of_run h).ended l.lease hhand).2
    exact Bool.eq_false_iff.1 (hended x hx) hvalid

/-- What the pool has itself after an action has no new holder. -/
theorem Run.old_of_holds (h : Run c s as w) (ha : w.act a = some w')
    (hholds : w'.Holds conn) (hx : w'.handles[i]? = some x)
    (hconn : x.conn = conn) :
    ∃ y, w.handles[i]? = some y ∧ y.conn = conn := by
  have h' : Run c s (a :: as) w' := .act h ha
  have hlt : i < w.handles.length := by
    refine Nat.lt_of_not_le fun hle => ?_
    cases ((h.happens ha).new_handle hle hx).1.symm.trans
      (h'.ended_of_holds hholds hx hconn)
  have hget := List.getElem?_eq_getElem hlt
  exact ⟨_, hget, (h.handle_act ha hget hx).1.conn.symm.trans hconn⟩

/-! ## More actions -/

theorem Undone.act (hi : Undone c s as i conn) (a : Action) :
    Undone c s (a :: as) i conn := by
  obtain ⟨later, between, before, id, st, v, v', u, u', he, hi⟩ := hi
  exact ⟨a :: later, between, before, id, st, v, v', u, u',
    congrArg (a :: ·) he, hi⟩

theorem FoundCommitted.act (hi : FoundCommitted c s as i conn) (a : Action) :
    FoundCommitted c s (a :: as) i conn := by
  obtain ⟨later, before, id, st, v, v', he, hi⟩ := hi
  exact ⟨a :: later, before, id, st, v, v', congrArg (a :: ·) he, hi⟩

/-- What is clean stays so for as long as the pool has it itself. -/
theorem Clean.act (h : Run c s as w) (ha : w.act a = some w')
    (hholds : w'.Holds conn) (hi : Clean c s as w conn) :
    Clean c s (a :: as) w' conn := by
  intro i x hx hconn
  obtain ⟨y, hy, hyconn⟩ := h.old_of_holds ha hholds hx hconn
  exact (hi i y hy hyconn).imp (·.act a) (·.act a)

theorem UndoBegun.act (h : Run c s as w) (ha : w.act a = some w')
    (hholds : w'.Holds conn) (hi : UndoBegun c s as w id st conn) :
    UndoBegun c s (a :: as) w' id st conn := by
  obtain ⟨later, before, v, v', he, hv, hbegins, hended⟩ := hi
  refine ⟨a :: later, before, v, v', congrArg (a :: ·) he, hv, hbegins,
    fun i x hx hconn => ?_⟩
  obtain ⟨y, hy, hyconn⟩ := h.old_of_holds ha hholds hx hconn
  exact hended i y hy hyconn

/-- A connection is clean when a task finds that it commits by itself. -/
theorem Run.clean_of_committed (h : Run c s as w)
    (ha : w.act (.run id) = some w') (hmem : (id, st) ∈ w.roll)
    (hexamines : w.pool.Examines st conn)
    (hauto : w.server.isAutoCommit conn = true) (hholds : w'.Holds conn) :
    Clean c s (.run id :: as) w' conn := by
  intro i x hx hconn
  obtain ⟨y, hy, hyconn⟩ := h.old_of_holds ha hholds hx hconn
  have hended := h.ended_of_examines hmem hexamines hy hyconn
  exact .inr ⟨[], as, id, st, w, w', rfl, h, ha, hmem, hexamines,
    (List.getElem?_eq_some_iff.1 hy).1, (World.isValid_eq hy).trans hended,
    hauto⟩

/-- A connection is clean when what was not committed on it has been undone. -/
theorem Run.clean_of_undone (h : Run c s as w)
    (hbegun : UndoBegun c s as w id st conn)
    (hends : w.EndsUndo id st conn w') (hholds : w'.Holds conn) :
    Clean c s (.run id :: as) w' conn := by
  intro i x hx hconn
  obtain ⟨y, hy, hyconn⟩ := h.old_of_holds hends.act hholds hx hconn
  obtain ⟨later, before, v, v', rfl, hv, hbegins, hended⟩ := hbegun
  obtain ⟨hlt, hvalid⟩ := hended i y hy hyconn
  exact .inl ⟨[], later, before, id, st, v, v', w, w', rfl, hv, hlt, hvalid,
    hbegins, h, hends⟩

/-- A rollback begins when the leases of all holders have ended. -/
theorem Run.undoBegun (h : Run c s as w) {st' : Stage}
    (hmem : (id, st) ∈ w.roll) (hexamines : w.pool.Examines st conn)
    (hbegins : w.BeginsUndo id st' conn w') (hholds : w'.Holds conn) :
    UndoBegun c s (.run id :: as) w' id st' conn := by
  refine ⟨[], as, w, w', rfl, h, hbegins, fun i x hx hconn => ?_⟩
  obtain ⟨y, hy, hyconn⟩ := h.old_of_holds hbegins.act hholds hx hconn
  have hended := h.ended_of_examines hmem hexamines hy hyconn
  exact ⟨(List.getElem?_eq_some_iff.1 hy).1,
    (World.isValid_eq hy).trans hended⟩

/-! ## How a task comes to have a connection -/

namespace World

variable {v : World} {flow : Flow} {e : Entry} {st' : Stage}

/-- How a task comes to have a connection that is clean: it was kept, or the
task had it already, or it has found that it commits by itself, or what was
not committed has been undone, or it is new. -/
inductive Cleans (w : World) (st : Stage) (e : Entry) (v : World) : Prop where
  | kept (he : e ∈ w.pool.idle)
  | had (he : st.clean? = some e)
  | committed (hexamines : w.pool.Examines st e.conn)
      (hauto : w.server.isAutoCommit e.conn = true)
  | undone {call : Pending} {conn : Nat}
      (he : st.undoing? = some (e, call))
      (hok : (w.hearAnswer call.call).1 = .ok conn)
      (hv : v = (w.hearAnswer call.call).2)
  | opened {q : Request} {r : Record String} {failures : Nat}
      {call : Pending} {limit : Option Timer}
      (hst : st = .acquire q (.connecting r failures call limit))
      (hok : (w.hearAnswer call.call).1 = .ok e.conn)

theorem Moves.clean (h : w.Moves id st flow v) (hs : flow.stage? = some st')
    (he : st'.clean? = some e) : w.Cleans st e v := by
  cases h with
  | take _ hidle =>
    cases hs
    cases he
    exact .kept (hidle ▸ List.mem_cons_self)
  | recoverClean _ hauto =>
    cases hs
    cases he
    exact .committed (.inl ⟨_, _, rfl, rfl⟩) hauto
  | returnClean htake _ hauto =>
    cases hs
    cases he
    obtain ⟨rfl, rest, hperm, -⟩ := Pool.takeLoan?_eq_some htake
    exact .committed
      (.inr ⟨_, hperm.subset List.mem_cons_self, rfl, rfl⟩) hauto
  | undone _ hok | returnUndone _ hok =>
    cases hs
    cases he
    exact .undone rfl hok rfl
  | connect _ hok =>
    cases hs
    cases he
    exact .opened rfl hok
  | ping | good | pinged =>
    cases hs
    cases he
    exact .had rfl
  | awaits =>
    cases hs
    exact .had he
  | _ => cases hs <;> cases he

/-- A task that waits for a rollback has waited for it before, or it has just
begun it because something was not committed. -/
theorem Moves.undoing {call : Pending} (h : w.Moves id st flow v)
    (hs : flow.stage? = some st') (he : st'.undoing? = some (e, call)) :
    st = st' ∨ w.pool.Examines st e.conn ∧
      ∃ rest, v.history = (w.now, .began (.rollback e.conn)) :: rest ∧
        w.history <:+ rest := by
  cases h with
  | recoverUndo =>
    cases hs
    cases he
    exact .inr ⟨.inl ⟨_, _, rfl, rfl⟩, _, rfl, List.suffix_refl _⟩
  | returnUndo htake =>
    cases hs
    cases he
    obtain ⟨rfl, rest, hperm, -⟩ := Pool.takeLoan?_eq_some htake
    exact .inr ⟨.inr ⟨_, hperm.subset List.mem_cons_self, rfl, rfl⟩, _, rfl,
      List.suffix_cons ..⟩
  | awaits =>
    cases hs
    exact .inl rfl
  | _ => cases hs <;> cases he

/-- The pool begins a rollback in an action if a task that is not to do so for
a holder writes that down. -/
theorem mem_rollbacksBegun {x : Nat × Event} {rest : List (Nat × Event)}
    (hst : (a.task?.bind w.task?).any (·.stage.rollsBack) = false)
    (hhistory : w'.history = x :: rest) (hsuffix : w.history <:+ rest)
    (hx : x.2.rollsBack? = some conn) : conn ∈ w.rollbacksBegun a w' := by
  obtain ⟨new, rfl⟩ := hsuffix
  rw [rollbacksBegun, if_neg (Bool.eq_false_iff.1 hst), hhistory]
  refine List.mem_filterMap.2 ⟨x, ?_, hx⟩
  have hlen : (x :: (new ++ w.history)).length - w.history.length =
      new.length + 1 := by
    simp only [List.length_cons, List.length_append]
    omega
  rw [hlen]
  exact List.mem_cons_self

/-- A rollback that goes well is about the connection of the call. -/
theorem answered_rollback {u : World} {n : Nat}
    (h : (u.hearAnswer (.rollback conn)).1 = .ok n) :
    (u.hearAnswer (.rollback conn)).2.history =
      (u.now, .answered (.rollback conn) conn) :: u.history := by
  have hanswer := @Server.answer_rollback u.server conn n
  unfold hearAnswer at h ⊢
  generalize u.server.answer (.rollback conn) = y at h hanswer ⊢
  rcases y with ⟨_ | m, server⟩
  · cases h
  · cases h
    obtain rfl := hanswer rfl
    rfl

end World

/-! ## What is kept -/

/-- A task takes something away from what is kept, or puts what it has in hand
in front. -/
theorem Does.stores {V V' : Scene} {flow : Flow} {closes : List Nat}
    (h : Does c V st flow closes V') :
    V'.pool.idle.Sublist V.pool.idle ∨
      ∃ e, st = .giveBack (.storing e) ∧ V'.pool.idle = e :: V.pool.idle := by
  cases h with
  | take _ hidle =>
    refine .inl ?_
    rw [hidle]
    exact List.sublist_cons_self ..
  | store => exact .inr ⟨_, rfl, rfl⟩
  | invalidate | setOptions | shutDown => exact .inl (List.nil_sublist _)
  | _ => exact .inl (List.Sublist.refl _)

/-- An action takes something away from what is kept, or a task that is about
to store a connection does so. -/
theorem Happens.stores {closes : List Nat} (h : Happens c w w' a closes) :
    w'.pool.idle.Sublist w.pool.idle ∨
      ∃ id e, a = .run id ∧ (id, .giveBack (.storing e)) ∈ w.roll ∧
        w'.pool.idle = e :: w.pool.idle := by
  cases h.changes with
  | @deed id _ _ _ V hmem hdoes hkeeps =>
    have hkept : w'.pool.idle = V.pool.idle := hkeeps.idle
    rw [hkept]
    rcases hdoes.stores with hsub | ⟨e, rfl, he⟩
    · exact .inl hsub
    · exact .inr ⟨id, e, rfl, hmem, he⟩
  | forget hpool =>
    have hidle := congrArg Pool.idle hpool
    have hidle : w'.pool.idle = w.pool.idle := hidle
    exact .inl (hidle ▸ List.Sublist.refl _)
  | same hkeeps =>
    have hidle : w'.pool.idle = w.pool.idle := hkeeps.idle
    exact .inl (hidle ▸ List.Sublist.refl _)

/-- What is kept was kept before, or a task has had it and has stored it. -/
theorem Happens.idle {closes : List Nat} (h : Happens c w w' a closes)
    {e : Entry} (he : e ∈ w'.pool.idle) :
    e ∈ w.pool.idle ∨
      ∃ id, a = .run id ∧ (id, .giveBack (.storing e)) ∈ w.roll := by
  rcases h.stores with hsub | ⟨id, e', ha, hmem, hidle⟩
  · exact .inl (hsub.subset he)
  · rw [hidle] at he
    rcases List.mem_cons.1 he with rfl | he
    · exact .inr ⟨id, ha, hmem⟩
    · exact .inl he

/-! ## All that has to be clean is -/

/-- A connection that has just been opened has had no holder. -/
theorem Run.clean_of_opened (h : Run c s as w) (ha : w.act a = some w')
    (hholds : w'.Holds conn) (hnew : w.server.connections.length ≤ conn) :
    Clean c s (a :: as) w' conn := by
  intro i x hx hconn
  obtain ⟨y, hy, rfl⟩ := h.old_of_holds ha hholds hx hconn
  have hbound := (named_of_run h).bound y.name
    (Books.handle_mem_names (List.mem_of_getElem? hy))
  exact absurd hbound.1 (Nat.not_lt.2 hnew)

theorem Pool.Examines.rollsBack {p : Pool} (h : p.Examines st conn) :
    st.rollsBack = false := by
  rcases h with ⟨r, e, rfl, -⟩ | ⟨loan, -, rfl, -⟩
  all_goals rfl

theorem Stage.IsFresh.not_clean (h : st.IsFresh) :
    st.clean? = none ∧ st.undoing? = none := by
  rcases h with ⟨op, rfl⟩ | ⟨lease, rfl⟩ | ⟨conn, rfl⟩
  all_goals exact ⟨rfl, rfl⟩

/-- The call of a task that waits for a rollback is for its connection. -/
theorem Stage.Fits.undoing {e : Entry} {call : Pending} (h : st.Fits)
    (he : st.undoing? = some (e, call)) : call.call = .rollback e.conn := by
  rcases Stage.eq_of_undoing? he with ⟨r, rfl⟩ | rfl
  all_goals exact h

/-- What a task has in its slot and is clean, is clean of all holders. -/
theorem Washed.slot_act (hi : Washed c s as w) (h : Run c s as w)
    (ha : w.act a = some w') {e : Entry} (hmem : (id, st) ∈ w'.roll)
    (he : st.clean? = some e) : Clean c s (a :: as) w' e.conn := by
  have hholds := World.holds_of_entry hmem (Stage.entry?_of_clean? he)
  obtain ⟨hmem, -⟩ | ⟨-, hfresh⟩ | ⟨t, flow, v, rfl, ht, hmove, hs, halike⟩ :=
    World.stage_act (World.distinct_of_run h) ha hmem
  · exact (hi.slot id st e hmem he).act h ha hholds
  · cases hfresh.not_clean.1.symm.trans he
  · have hthere := World.mem_roll_of_task? ht
    have hfits := h.config_fits.2 t (World.mem_of_task? ht)
    cases (World.moves_of_eq hmove).clean hs he with
    | kept he => exact (hi.idle e he).act h ha hholds
    | had he => exact (hi.slot id _ e hthere he).act h ha hholds
    | committed hexamines hauto =>
      exact h.clean_of_committed ha hthere hexamines hauto hholds
    | undone hundoing hok hv =>
      have hbegun := hi.undoing id _ e _ hthere hundoing
      refine h.clean_of_undone hbegun ⟨ha, hthere, ?_⟩ hholds
      rw [halike.history, hv]
      rw [hfits.undoing hundoing] at hok ⊢
      rw [World.answered_rollback hok]
      rfl
    | opened hst hok =>
      rw [hst] at hfits
      obtain ⟨options, hcall⟩ := hfits
      rw [hcall] at hok
      refine h.clean_of_opened ha hholds ?_
      obtain ⟨hnew, -⟩ | ⟨⟨message, herr⟩, -⟩ :=
        World.scene_hearAnswer_connect (w.pick id) options
      · exact Nat.le_of_eq (Except.ok.inj (hnew.symm.trans hok))
      · cases herr.symm.trans hok

theorem Washed.undoing_act (hi : Washed c s as w) (h : Run c s as w)
    (ha : w.act a = some w') {e : Entry} {call : Pending}
    (hmem : (id, st) ∈ w'.roll) (he : st.undoing? = some (e, call)) :
    UndoBegun c s (a :: as) w' id st e.conn := by
  have hholds := World.holds_of_entry hmem (Stage.of_undoing? he).1
  obtain ⟨hmem, -⟩ | ⟨-, hfresh⟩ | ⟨t, flow, v, rfl, ht, hmove, hs, halike⟩ :=
    World.stage_act (World.distinct_of_run h) ha hmem
  · exact (hi.undoing id st e call hmem he).act h ha hholds
  · cases hfresh.not_clean.2.symm.trans he
  · have hthere := World.mem_roll_of_task? ht
    obtain hst | ⟨hexamines, rest, hhistory, hsuffix⟩ :=
      (World.moves_of_eq hmove).undoing hs he
    · rw [hst] at hthere
      exact (hi.undoing id st e call hthere he).act h ha hholds
    · have hundoing : ∃ e' call', st.undoing? = some (e', call') ∧
        e'.conn = e.conn := ⟨e, call, he, rfl⟩
      refine h.undoBegun hthere hexamines ⟨ha, ?_, hmem, hundoing⟩ hholds
      refine World.mem_rollbacksBegun ?_ (halike.history.trans hhistory) hsuffix
        rfl
      simp [Action.task?, ht, hexamines.rollsBack]

/-- Whatever happens, all is clean that has to be. -/
theorem Washed.act (hi : Washed c s as w) (h : Run c s as w)
    (ha : w.act a = some w') : Washed c s (a :: as) w' where
  idle e he := by
    have hholds : w'.Holds e.conn := .inl (List.mem_map_of_mem he)
    rcases (h.happens ha).idle he with he | ⟨id, rfl, hmem⟩
    · exact (hi.idle e he).act h ha hholds
    · exact (hi.slot id _ e hmem rfl).act h ha hholds
  slot _ _ _ hmem he := hi.slot_act h ha hmem he
  undoing _ _ _ _ hmem he := hi.undoing_act h ha hmem he

theorem washed_of_run (h : Run c s as w) : Washed c s as w := by
  induction h with
  | new hs hw =>
    obtain ⟨-, -, rfl⟩ := Run.new_iff.1 (.new hs hw)
    refine ⟨?_, ?_, ?_⟩
    · intro e he
      cases he
    · intro id st e hmem
      cases hmem
    · intro id st e call hmem
      cases hmem
  | act h ha ih => exact ih.act h ha

/-! ## What becomes of what is not undone -/

namespace World

variable {v : World} {flow : Flow} {e : Entry}

/-- A connection is discarded if the task that has it in its slot is dropped. -/
theorem lost_dropTask {z : World} {t : Task} {e : Entry} (outside : Bool)
    (hlt : t.id < z.nextTask) (he : t.stage.entry? = some e) :
    e.conn ∈ (z.dropTask outside t).todo ∨
      e.conn ∈ (z.dropTask outside t).abandoned := by
  cases outside with
  | true =>
    refine .inr ?_
    show e.conn ∈ (z.dropTask true t).scene.abandoned
    simp [scene_dropTask, Scene.drop, he]
  | false =>
    have hroll := roll_dropTask false hlt
    have hmem : (z.nextTask, .closing [e.conn] []) ∈
        (z.dropTask false t).roll := by
      rw [hroll]
      refine List.mem_append_right _ (List.mem_map.2 ⟨_, ?_, rfl⟩)
      simp [Stage.strays, he]
    obtain ⟨u, hu, heq⟩ := List.mem_map.1 hmem
    refine .inl (List.mem_flatMap.2 ⟨u, hu, ?_⟩)
    rw [(Prod.mk.inj heq).2]
    exact List.mem_singleton.2 rfl

/-- What a task that waits for a rollback can do. -/
theorem Moves.undoes {call : Pending} (h : w.Moves id st flow v)
    (he : st.undoing? = some (e, call)) :
    (flow = .pause st ∧ v = w) ∨ (∃ st', flow = .again st') ∧
      ((∃ n, (w.hearAnswer call.call).1 = .ok n ∧
          v = (w.hearAnswer call.call).2) ∨
        v = ((w.hearAnswer call.call).2.beginCall (.close e.conn)).2) := by
  cases h with
  | undone _ hok | returnUndone _ hok =>
    cases he
    exact .inr ⟨⟨_, rfl⟩, .inl ⟨_, hok, rfl⟩⟩
  | notUndone | returnNotUndone =>
    cases he
    exact .inr ⟨⟨_, rfl⟩, .inr rfl⟩
  | awaits => exact .inl ⟨rfl, rfl⟩
  | _ => cases he

/-- The pool begins to close a connection in an action if a task that is not
to do so for a holder does. -/
theorem mem_closesBegun
    (hst : (a.task?.bind w.task?).any (·.stage.closesPhysical) = false)
    (hbegun : w'.begun = conn :: w.begun) : conn ∈ w.closesBegun a w' := by
  rw [closesBegun, if_neg (Bool.eq_false_iff.1 hst), hbegun]
  simp

end World

/-- When a task that waits for a rollback goes on, it goes on waiting, or it
hears that the rollback went well, or it begins to close the connection, or it
is dropped because of its limit. -/
theorem Run.undoing_run {t : Task} (h : Run c s as w)
    (ht : w.task? t.id = some t) (ha : w.act (.run t.id) = some w') {e : Entry}
    {call : Pending} (he : t.stage.undoing? = some (e, call)) :
    (t.id, t.stage) ∈ w'.roll ∨ w.EndsUndo t.id t.stage e.conn w' ∨
      Discarded c s (.run t.id :: as) w' e.conn := by
  have hd := World.distinct_of_run h
  obtain ⟨hentry, hcloses⟩ := Stage.of_undoing? he
  have hfits := (h.config_fits.2 t (World.mem_of_task? ht)).undoing he
  obtain ⟨flow, v, hmove, hv, hf⟩ := World.act_task hd ht ha
  obtain ⟨rfl, rfl⟩ | ⟨⟨st', rfl⟩, hanswer⟩ := hmove.undoes he
  · cases hf with
    | waits hwaits hz =>
      cases hwaits
      obtain ⟨limit, hthere⟩ := hz.task
      have hstill := World.mem_roll_of_task? hthere
      exact .inl hstill
    | @cutOff _ _ z outside hwaits hz =>
      cases hwaits
      have hlt : t.id < z.nextTask := by
        rw [hz.nextTask]
        exact hd.lt t (World.mem_of_task? ht)
      refine .inr (.inr (.inr ?_))
      exact World.lost_dropTask outside hlt hentry
  · have halike := (hf.of_again hv).2
    rw [hfits] at hanswer
    obtain ⟨n, hok, rfl⟩ | rfl := hanswer
    · refine .inr (.inl ⟨ha, World.mem_roll_of_task? ht, ?_⟩)
      rw [halike.history, World.answered_rollback hok]
      rfl
    · have hbegun : w'.begun = e.conn :: w.begun := by
        refine (congrArg Scene.begun halike.scene).trans ?_
        rw [World.scene_beginCall, World.scene_hearAnswer]
        · rfl
        · exact fun _ hcall => by cases hcall
      refine .inr (.inr (.inl ?_))
      rw [World.closesBegunIn, h.along_cons _ ha]
      refine List.mem_append_left _ (World.mem_closesBegun ?_ hbegun)
      simp [Action.task?, ht, hcloses]

/-- A task that waits for a rollback goes on waiting, or hears that it went
well, or the connection is discarded. -/
theorem Run.undoing_act (h : Run c s as w) (ha : w.act a = some w')
    {e : Entry} {call : Pending} (hmem : (id, st) ∈ w.roll)
    (he : st.undoing? = some (e, call)) :
    (id, st) ∈ w'.roll ∨ (a = .run id ∧ w.EndsUndo id st e.conn w') ∨
      Discarded c s (a :: as) w' e.conn := by
  have hd := World.distinct_of_run h
  by_cases hid : a.task? = some id
  · obtain ⟨t, ht, rfl⟩ := hd.task?_of_roll hmem
    rcases Action.eq_of_task? hid with rfl | ⟨outside, rfl⟩
    · obtain rfl := World.id_of_task? ht
      exact (h.undoing_run ht ha he).imp_right (·.imp_left (⟨rfl, ·⟩))
    · cases World.acts hd ha with
      | @cancel u _ hu =>
        obtain rfl := Option.some.inj (ht.symm.trans hu)
        have hlt := hd.lt t (World.mem_of_task? ht)
        refine .inr (.inr (.inr ?_))
        exact World.lost_dropTask outside hlt (Stage.of_undoing? he).1
  · exact .inl ((h.happens ha).remains hmem hid)

/-! ## Nothing reaches the next holder -/

/-- The pool begins a rollback only on a connection that does not commit by
itself, and a task comes to wait for it. -/
theorem Run.begins (h : Run c s as w) (ha : w.act a = some w')
    (hmem : conn ∈ w.rollbacksBegun a w') :
    w.server.isAutoCommit conn = false ∧
      ∃ id st, a = .run id ∧ w.BeginsUndo id st conn w' := by
  have hd := World.distinct_of_run h
  obtain ⟨evs, hevs, htells⟩ := World.adds_act hd ha
  have hbegun := hmem
  unfold World.rollbacksBegun at hmem
  split at hmem
  · cases hmem
  · next hst =>
    have hlen : w'.history.length - w.history.length =
        (evs.map (w.now, ·)).length := by
      rw [hevs, List.length_append, Nat.add_sub_cancel]
    rw [hlen, hevs, List.take_left] at hmem
    obtain ⟨x, hx, hrolls⟩ := List.mem_filterMap.1 hmem
    obtain ⟨e, he, rfl⟩ := List.mem_map.1 hx
    cases htells e he with
    | @writes t flow v _ ht hmove hwrites =>
      have hown : ¬t.stage.rollsBack = true := fun hholder => hst (by
        simp [Action.task?, ht, hholder])
      obtain ⟨hmanual, st, e, call, rfl, he, rfl⟩ :=
        (hwrites.2 conn hrolls).resolve_left hown
      obtain ⟨hnone, -⟩ | ⟨u, flow, v, hu, hmove', -, hv, -, hfollows⟩ :=
        World.act_run hd ha
      · cases ht.symm.trans hnone
      · obtain rfl := Option.some.inj (ht.symm.trans hu)
        obtain rfl := (Prod.mk.inj (hmove.symm.trans hmove')).1
        exact ⟨hmanual, _, st, rfl, ha, hbegun, (hfollows.of_again hv).1, e,
          call, he, rfl⟩
    | _ => cases hrolls

/-- A connection that was discarded stays so and is never lent again. -/
theorem Run.never_again (h : Run c s as w) (hd : Discarded c s as w conn)
    (h' : Run c s (later ++ as) w') :
    Discarded c s (later ++ as) w' conn ∧
      ∀ lease x, w.handles.length ≤ lease → w'.handles[lease]? = some x →
        x.conn ≠ conn := by
  have hlen : w.scene.grants.length = w.handles.length := List.length_map ..
  have hgone : Gone w.handles.length conn
      ((World.new c s).closesBegunIn as) w.scene w.roll := by
    refine ⟨spread_of_run h, discarded_iff.1 hd, Nat.le_of_eq hlen.symm,
      fun lease x hle hx => ?_⟩
    have hlt := (List.getElem?_eq_some_iff.1 hx).1
    omega
  obtain ⟨-, hdone, -, hlent⟩ := (gone_upheld c _ conn).extend h h'
    (fun _ _ _ _ _ hi => hi.of_grants hi.spread hi.done rfl) hgone
  refine ⟨discarded_iff.2 hdone, fun lease x hle hx => ?_⟩
  refine hlent lease x.grant hle ?_
  simp only [Scene.grants, World.scene, List.getElem?_map, hx, Option.map_some]

/-- What a holder has not committed does not reach the next one.  When a
connection is lent again, all its leases have ended, and for each of them the
pool has since begun to undo what was not committed and that went well, or it
has since found that the connection commits by itself.  A task that waits for a
rollback goes on waiting until it hears that it went well, or the connection is
discarded and never lent again.  And the pool begins a rollback only on a
connection that does not commit by itself, and a task comes to wait for it. -/
theorem undone_of_run (h : Run c s as w) (ha : w.act a = some w') :
    (∀ i j x y, w.handles[i]? = some x → w.handles.length ≤ j →
      w'.handles[j]? = some y → x.conn = y.conn → x.valid = false ∧
        (Undone c s as i x.conn ∨ FoundCommitted c s as i x.conn)) ∧
    (∀ id st e call, (id, st) ∈ w.roll → st.undoing? = some (e, call) →
      (id, st) ∈ w'.roll ∨ (a = .run id ∧ w.EndsUndo id st e.conn w') ∨
        ∀ later u, Run c s (later ++ a :: as) u →
          Discarded c s (later ++ a :: as) u e.conn ∧ ∀ lease x,
            w'.handles.length ≤ lease → u.handles[lease]? = some x →
              x.conn ≠ e.conn) ∧
    ∀ conn ∈ w.rollbacksBegun a w', w.server.isAutoCommit conn = false ∧
      ∃ id st, a = .run id ∧ w.BeginsUndo id st conn w' := by
  refine ⟨?_, ?_, fun conn hmem => h.begins ha hmem⟩
  · intro i j x y hx hle hy hconn
    obtain ⟨id, r, e, -, hlending, -, -, -, -, hlent, -⟩ := h.lends ha hle hy
    have hsame := hconn.trans hlent
    have hholds := World.holds_of_entry hlending rfl
    refine ⟨h.ended_of_holds hholds hx hsame, ?_⟩
    have hclean := (washed_of_run h).slot id _ e hlending rfl
    rw [hsame]
    exact hclean i x hx hsame
  · intro id st e call hmem he
    refine (h.undoing_act ha hmem he).imp_right (·.imp_right ?_)
    exact fun hd later u h' => (Run.act h ha).never_again hd h'

end Runs

/-- A connection is lent and given back, and a second request has it. -/
def lentAndAsked : List Action :=
  [.run 2, .run 2, .run 2, .start .acquire none,
    .run 1, .run 1, .run 1, .run 1, .start (.close 0) none,
    .run 0, .run 0, .run 0, .run 0, .run 0, .start .acquire none]

/-- When the connection is lent again, what its first holder had not committed
has been undone. -/
theorem undone_lentAndAsked :
    ∃ w w', Run {} { manualCommit := true } lentAndAsked w ∧
      w.act (.run 2) = some w' ∧ w'.handles[1]?.map (·.conn) = some 0 ∧
      w.isValid 0 = false ∧
      Undone {} { manualCommit := true } lentAndAsked 0 0 := by
  have hw : ∃ w, Run {} { manualCommit := true } lentAndAsked w ∧
      w.handles[0]?.map (·.conn) = some 0 ∧ w.handles.length = 1 :=
    Run.exists_of_replay rfl rfl (by decide +kernel)
  have hw' : ∃ w', Run {} { manualCommit := true } (.run 2 :: lentAndAsked) w' ∧
      w'.handles[1]?.map (·.conn) = some 0 :=
    Run.exists_of_replay rfl rfl (by decide +kernel)
  have hmanual : ∀ n ≤ lentAndAsked.length,
      ((World.new {} { manualCommit := true }).replay (lentAndAsked.drop n)).any
        (fun v => decide (v.handles = [] ∨ v.server.isAutoCommit 0 = false)) =
          true := by
    decide +kernel
  obtain ⟨w, h, hconn, hlen⟩ := hw
  obtain ⟨w', h', hconn'⟩ := hw'
  obtain ⟨x, hx, hxconn⟩ := Option.map_eq_some_iff.1 hconn
  obtain ⟨y, hy, hyconn⟩ := Option.map_eq_some_iff.1 hconn'
  cases h' with
  | act hv ha =>
    obtain rfl := h.unique hv
    obtain ⟨hlent, -, -⟩ := undone_of_run h ha
    obtain ⟨hvalid, hundone⟩ :=
      hlent 0 1 x y hx (Nat.le_of_eq hlen) hy (hxconn.trans hyconn.symm)
    rw [hxconn] at hundone
    refine ⟨w, w', h, ha, hconn', (World.isValid_eq hx).trans hvalid,
      hundone.resolve_right ?_⟩
    rintro ⟨later, before, id, st, v, -, has, hv, -, -, -, hlt, -, hauto⟩
    have hdrop : lentAndAsked.drop (later.length + 1) = before := by
      rw [has, List.drop_append, List.drop_of_length_le (Nat.le_succ _)]
      simp
    have hle : later.length + 1 ≤ lentAndAsked.length := by
      rw [has, List.length_append, List.length_cons]
      omega
    obtain ⟨u, hu, hor⟩ := Run.exists_of_replay rfl rfl (hmanual _ hle)
    rw [hdrop] at hu
    obtain rfl := hu.unique hv
    rcases hor with hnil | hfalse
    · rw [hnil] at hlt
      cases hlt
    · cases hfalse.symm.trans hauto

end DatabasePool
