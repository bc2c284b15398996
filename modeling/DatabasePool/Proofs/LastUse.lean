import DatabasePool.Proofs.Checkouts
import DatabasePool.Proofs.Undoing
import DatabasePool.Proofs.Verdicts

/-!
# When a connection was last used

The record of a connection says when it was last used, and the time until it
has to be pinged counts from then.  The pool writes that down when the
connection comes back, and when its opening is decided.  It leaves it alone
when it lends the connection, takes it from its holder, undoes what was not
committed, or stores it.  So as long as a connection is in play, its record
says when it last came back, or if it never has, when its opening was decided.

* `World.returnsIn` is the list of all returns in a run.
* `Run.comes_back` says what a return does to it and to the loans.
* `World.Brings` says where a task gets what it has in its slot.
* `Dated.act` says that the records stay right whatever happens, and
  `dated_of_run` that they always are.
-/

namespace DatabasePool

namespace World

/-- The connection that came back in an action, and when. -/
def returnsBy (w : World) (_ : Action) (w' : World) : List (Nat × Nat) :=
  (w'.findings.backs.take
    (w'.findings.backs.length - w.findings.backs.length)).filterMap
      fun lease => w.handles[lease]?.map fun x => (x.conn, w.now)

/-- The connections that came back in a run, and when, the last one in
front. -/
def returnsIn (w : World) (as : List Action) : List (Nat × Nat) :=
  w.along returnsBy as

end World

/-- The opening of the connection was decided when it was last used. -/
def Record.Unused (c : Config) (s : Server) (as : List Action)
    (r : Record String) : Prop :=
  ∃ later id before v v', as = later ++ .run id :: before ∧
    Decided c s (r.stamp none) later id before v v' ∧ r.lastUsed = v.now

/-- The record says when the connection last came back, or when its opening was
decided if it has not come back yet. -/
def Entry.LastUsed (c : Config) (s : Server) (as : List Action) (e : Entry) :
    Prop :=
  ((World.new c s).returnsIn as).lookup e.conn = some e.record.lastUsed ∨
    ((World.new c s).returnsIn as).lookup e.conn = none ∧
      e.record.Unused c s as

/-- Wherever a connection is, its record says when it was last used.  No
connection has come back that was not opened. -/
structure World.Dated (c : Config) (s : Server) (as : List Action) (w : World) :
    Prop where
  idle : ∀ e ∈ w.pool.idle, e.LastUsed c s as
  lent : ∀ loan ∈ w.pool.active, loan.entry.LastUsed c s as
  slot : ∀ id st e, (id, st) ∈ w.roll → st.entry? = some e →
    e.LastUsed c s as
  room : ∀ id st r, (id, st) ∈ w.roll → st.hand = .room r → r.Unused c s as
  known : ∀ x ∈ (World.new c s).returnsIn as,
    x.1 < w.server.connections.length

/-! ## Where a task gets what it has -/

namespace World

variable {w v : World} {id : Nat} {st st' : Stage} {flow : Flow} {e : Entry}

/-- Where a task gets what it has in its slot: it had that already, or it has
taken it from those that are kept or from its holder, or it has ended its loan,
or it has opened it. -/
inductive Brings (w : World) (st : Stage) (e : Entry) : Prop where
  | had (he : st.entry? = some e)
  | kept (he : e ∈ w.pool.idle)
  | claimed {q : Request} {loan : Loan} (hst : st = .acquire q .looking)
      (hl : loan ∈ w.pool.active)
      (he : e = { loan.entry with record := loan.entry.record.takeBack })
  | back {loan : Loan} (hst : st = .giveBack (.starting loan.lease))
      (hl : loan ∈ w.pool.active) (he : e = w.backEntry loan)
  | opened {q : Request} {failures : Nat} {call : Pending}
      {limit : Option Timer}
      (hst : st = .acquire q (.connecting e.record failures call limit))
      (hok : (w.hearAnswer call.call).1 = .ok e.conn)

theorem Moves.brings (h : w.Moves id st flow v) (hs : flow.stage? = some st')
    (he : st'.entry? = some e) : w.Brings st e := by
  cases h with
  | take _ hidle =>
    cases hs
    cases he
    exact .kept (hidle ▸ List.mem_cons_self)
  | claim _ _ _ htake =>
    cases hs
    cases he
    obtain ⟨-, -, rest, hperm, -⟩ := Pool.takeOverdue?_eq_some htake
    exact .claimed rfl (hperm.subset List.mem_cons_self) rfl
  | connect _ hok =>
    cases hs
    cases he
    exact .opened rfl hok
  | returnClean htake | returnUndo htake =>
    cases hs
    cases he
    obtain ⟨rfl, rest, hperm, -⟩ := Pool.takeLoan?_eq_some htake
    exact .back rfl (hperm.subset List.mem_cons_self) rfl
  | recoverClean | recoverUndo | undone | ping | good | pinged
  | returnUndone =>
    cases hs
    cases he
    exact .had rfl
  | awaits =>
    cases hs
    exact .had he
  | _ => cases hs <;> cases he

/-- A task that has room for a connection had it already, or has just got
it. -/
theorem Moves.room {r : Record String} (h : w.Moves id st flow v)
    (hs : flow.stage? = some st') (hr : st'.hand = .room r) :
    st.hand = .room r ∨
      r = .fresh (w.pool.lastId + 1) w.pool.options w.pool.generation w.now ∧
        v.pool.lastId = w.pool.lastId + 1 := by
  cases h with
  | makeRoom =>
    cases hs
    cases hr
    exact .inr ⟨rfl, rfl⟩
  | dial | retry | stayConnecting | awaits =>
    cases hs
    exact .inl hr
  | _ => cases hs <;> cases hr

/-- A return that finds its loan goes on at once.  The loan is over, and the
connection comes back. -/
theorem Moves.ends_loan {loan : Loan}
    (h : w.Moves id (.giveBack (.starting loan.lease)) flow v)
    (hl : loan ∈ w.pool.active)
    (hleases : (w.pool.active.map (·.lease)).Nodup) :
    (∃ st', flow = .again st') ∧ (loan :: v.pool.active).Perm w.pool.active ∧
      v.findings.backs = loan.lease :: w.findings.backs := by
  have hends : ∀ {l : Loan} {q : Pool},
      w.pool.takeLoan? loan.lease = some (l, q) →
      (loan :: (w.endLoan l q).pool.active).Perm w.pool.active ∧
        (w.endLoan l q).findings.backs = loan.lease :: w.findings.backs := by
    intro l q htake
    obtain ⟨hlease, rest, hperm, rfl⟩ := Pool.takeLoan?_eq_some htake
    obtain rfl := List.inj_on_of_nodup_map hleases
      (hperm.subset List.mem_cons_self) hl hlease
    refine ⟨hperm, ?_⟩
    rw [findings_endLoan _ rfl]
    rfl
  cases h with
  | tooLate hnone => exact absurd hnone (Pool.takeLoan?_ne_none hl)
  | turnAway htake =>
    refine ⟨⟨_, rfl⟩, (hends htake).1, ?_⟩
    rw [findings_close]
    exact (hends htake).2
  | returnClean htake => exact ⟨⟨_, rfl⟩, hends htake⟩
  | returnUndo htake =>
    refine ⟨⟨_, rfl⟩, (hends htake).1, ?_⟩
    rw [findings_beginCall _ rfl]
    exact (hends htake).2
  | awaits hcall => cases hcall

/-- What is on loan after an action was so before, or a request that had it in
its slot has lent it. -/
theorem lent_act {w' : World} {a : Action} (hd : w.Distinct)
    (ha : w.act a = some w') {loan : Loan} (hl : loan ∈ w'.pool.active) :
    loan ∈ w.pool.active ∨ ∃ id q e, (id, .acquire q (.lending e)) ∈ w.roll ∧
      loan.entry = { e with record := e.record.lend w.now } := by
  have henters := enters hd ha
  have hl : loan ∈ w'.tally.active := hl
  generalize w'.tally = t at henters hl
  cases henters with
  | same => exact .inl hl
  | @lend id q e hmem =>
    refine (List.mem_append.1 hl).imp_right fun hl => ?_
    obtain rfl := List.mem_singleton.1 hl
    exact ⟨id, q, e, hmem, rfl⟩
  | giveBack _ hperm | claim _ hperm =>
    exact .inl (hperm.subset (List.mem_cons_of_mem _ hl))
  | shutDown => cases hl

end World

section Runs

variable {c : Config} {s : Server} {as : List Action} {a : Action}
  {w w' : World} {id conn : Nat} {st : Stage} {loan : Loan} {e : Entry}

/-! ## Returns -/

/-- A return ends its loan, and the connection comes back. -/
theorem Run.comes_back (h : Run c s as w) (hl : loan ∈ w.pool.active)
    (hmem : (id, .giveBack (.starting loan.lease)) ∈ w.roll)
    (ha : w.act (.run id) = some w') :
    (loan :: w'.pool.active).Perm w.pool.active ∧
      w.returnsBy (.run id) w' = [(loan.entry.conn, w.now)] := by
  obtain ⟨limit, flow, v, -, hmove, hv, hf⟩ :=
    World.act_roll (World.distinct_of_run h) hmem ha
  obtain ⟨⟨st', rfl⟩, hperm, hbacks⟩ :=
    (World.moves_of_eq hmove).ends_loan hl (leased_of_run h).leases
  have halike := (hf.of_again hv).2
  have hbacks : w'.findings.backs = loan.lease :: w.findings.backs :=
    (congrArg Findings.backs halike.findings).trans hbacks
  obtain ⟨x, hx, hconn, -⟩ := h.holder_of_loan hl
  refine ⟨halike.pool ▸ hperm, ?_⟩
  rw [World.returnsBy, Findings.take_backs hbacks, List.filterMap_cons, hx]
  exact congrArg (fun conn => [(conn, w.now)]) hconn

/-- Nothing else comes back in an action. -/
theorem Run.returnsBy_cases (h : Run c s as w) (ha : w.act a = some w') :
    w.returnsBy a w' = [] ∨ ∃ id loan, a = .run id ∧ loan ∈ w.pool.active ∧
      (id, .giveBack (.starting loan.lease)) ∈ w.roll ∧
        w.returnsBy a w' = [(loan.entry.conn, w.now)] := by
  have hquiet : w'.findings.backs = w.findings.backs → w.returnsBy a w' = [] := by
    intro he
    rw [World.returnsBy, Findings.take_backs_same he, List.filterMap_nil]
  obtain he | ⟨i, st, flow, rfl, hmem, hreports⟩ :=
    World.reported (World.distinct_of_run h) ha
  · exact .inl (hquiet (congrArg Findings.backs he))
  · generalize w'.findings = r at hquiet hreports
    cases hreports with
    | @back loan _ _ hperm =>
      have hl := hperm.subset List.mem_cons_self
      exact .inr ⟨i, loan, rfl, hl, hmem, (h.comes_back hl hmem ha).2⟩
    | _ => exact .inl (hquiet rfl)

/-- The connection does not come back in the action. -/
def World.NoReturn (w : World) (a : Action) (conn : Nat) : Prop :=
  ∀ id loan, a = .run id → loan ∈ w.pool.active →
    (id, .giveBack (.starting loan.lease)) ∈ w.roll → loan.entry.conn ≠ conn

/-- What the pool has itself does not come back. -/
theorem World.Holds.noReturn (hholds : w.Holds conn) (h : Run c s as w)
    (a : Action) : w.NoReturn a conn :=
  fun _ _ _ hl _ => h.conn_ne_of_holds hholds hl

/-- Nothing comes back from a task that does something else. -/
theorem Run.noReturn_of_stage (h : Run c s as w) (hmem : (id, st) ∈ w.roll)
    (hst : ∀ lease, st ≠ .giveBack (.starting lease)) (conn : Nat) :
    w.NoReturn (.run id) conn := by
  rintro i loan hi - hback -
  cases hi
  exact hst _ ((World.distinct_of_run h).stage_unique hmem hback)

/-- What is still on loan after an action has not come back in it. -/
theorem Run.noReturn_of_lent (h : Run c s as w) (ha : w.act a = some w')
    (hl : loan ∈ w'.pool.active) : w.NoReturn a loan.entry.conn := by
  rintro id l rfl hl' hmem hconn
  have hperm := (h.comes_back hl' hmem ha).1
  have hnodup := h.nodup_active
  rw [← (hperm.map (·.entry.conn)).nodup_iff, List.map_cons,
    List.nodup_cons] at hnodup
  exact hnodup.1 (List.mem_map.2 ⟨loan, hl, hconn.symm⟩)

/-- When the connection last came back is the same after an action in which it
does not. -/
theorem Run.lookup_act (h : Run c s as w) (ha : w.act a = some w')
    (hnot : w.NoReturn a conn) :
    ((World.new c s).returnsIn (a :: as)).lookup conn =
      ((World.new c s).returnsIn as).lookup conn := by
  rw [World.returnsIn, h.along_cons _ ha]
  obtain hnone | ⟨id, loan, rfl, hl, hmem, hback⟩ := h.returnsBy_cases ha
  · rw [hnone]
    rfl
  · rw [hback, List.singleton_append, List.lookup_cons,
      beq_false_of_ne (hnot id loan rfl hl hmem).symm]
    rfl

/-! ## Records stay right -/

theorem Record.Unused.act {r : Record String} (hi : r.Unused c s as)
    (a : Action) : r.Unused c s (a :: as) := by
  obtain ⟨later, id, before, v, v', rfl, hd, hused⟩ := hi
  exact ⟨a :: later, id, before, v, v', rfl,
    ⟨hd.run, hd.act, hd.number, hd.generation, hd.options⟩, hused⟩

theorem Entry.LastUsed.act (hi : e.LastUsed c s as) (h : Run c s as w)
    (ha : w.act a = some w') (hnot : w.NoReturn a e.conn) :
    e.LastUsed c s (a :: as) := by
  rw [Entry.LastUsed, h.lookup_act ha hnot]
  exact hi.imp_right fun hi => ⟨hi.1, hi.2.act a⟩

namespace World.Dated

/-- No connection comes back that was not opened. -/
theorem known_act (hi : w.Dated c s as) (h : Run c s as w)
    (ha : w.act a = some w') :
    ∀ x ∈ (World.new c s).returnsIn (a :: as),
      x.1 < w'.server.connections.length := by
  intro x hx
  refine Nat.lt_of_lt_of_le ?_ (h.connections_le ha)
  rw [World.returnsIn, h.along_cons _ ha] at hx
  rcases List.mem_append.1 hx with hx | hx
  · obtain hnone | ⟨id, loan, rfl, hl, hmem, hback⟩ := h.returnsBy_cases ha
    · rw [hnone] at hx
      cases hx
    · rw [hback] at hx
      obtain rfl := List.mem_singleton.1 hx
      exact h.lt_of_lent hl
  · exact hi.known x hx

/-- What a task has in its slot after an action. -/
theorem slot_act (hi : w.Dated c s as) (h : Run c s as w)
    (ha : w.act a = some w') (hmem : (id, st) ∈ w'.roll)
    (he : st.entry? = some e) : e.LastUsed c s (a :: as) := by
  obtain ⟨hmem, -⟩ | ⟨-, hfresh⟩ | ⟨t, flow, v, rfl, ht, hmove, hs, halike⟩ :=
    World.stage_act (World.distinct_of_run h) ha hmem
  · exact (hi.slot id st e hmem he).act h ha
      ((World.holds_of_entry hmem he).noReturn h a)
  · obtain ⟨_, rfl⟩ | ⟨_, rfl⟩ | ⟨_, rfl⟩ := hfresh
    all_goals cases he
  · have hthere := World.mem_roll_of_task? ht
    have hfits := h.config_fits.2 t (World.mem_of_task? ht)
    generalize t.stage = st₀ at hthere hfits hmove
    cases (World.moves_of_eq hmove).brings hs he with
    | had he =>
      exact (hi.slot id st₀ e hthere he).act h ha
        ((World.holds_of_entry hthere he).noReturn h _)
    | kept he =>
      refine (hi.idle e he).act h ha (World.Holds.noReturn (.inl ?_) h _)
      exact List.mem_map_of_mem he
    | @claimed q loan hst hl he =>
      subst hst he
      refine (hi.lent loan hl).act h ha (h.noReturn_of_stage hthere ?_ _)
      intro lease hlease
      cases hlease
    | @back loan hst hl he =>
      subst hst he
      refine .inl ?_
      rw [World.returnsIn, h.along_cons _ ha, (h.comes_back hl hthere ha).2]
      exact List.lookup_cons_self
    | @opened q failures call limit hst hok =>
      subst hst
      obtain ⟨options, hcall⟩ := hfits
      have hnew : e.conn = w.server.connections.length := by
        rw [hcall] at hok
        obtain ⟨hnew, -⟩ | ⟨⟨message, herr⟩, -⟩ :=
          World.scene_hearAnswer_connect (w.pick id) options
        · exact Except.ok.inj (hok.symm.trans hnew)
        · cases herr.symm.trans hok
      refine .inr ⟨?_, (hi.room id _ _ hthere rfl).act _⟩
      rw [h.lookup_act ha (h.noReturn_of_stage hthere (fun _ he => by cases he) _)]
      refine List.lookup_eq_none_iff.2 fun x hx => ?_
      have hlt := hi.known x hx
      rw [← hnew] at hlt
      exact bne_iff_ne.2 (Nat.ne_of_gt hlt)

/-- A task that has room for a connection after an action. -/
theorem room_act (hi : w.Dated c s as) (h : Run c s as w)
    (ha : w.act a = some w') {r : Record String} (hmem : (id, st) ∈ w'.roll)
    (hr : st.hand = .room r) : r.Unused c s (a :: as) := by
  obtain ⟨hmem, -⟩ | ⟨-, hfresh⟩ | ⟨t, flow, v, rfl, ht, hmove, hs, halike⟩ :=
    World.stage_act (World.distinct_of_run h) ha hmem
  · exact (hi.room id st r hmem hr).act a
  · obtain ⟨op, rfl⟩ | ⟨_, rfl⟩ | ⟨_, rfl⟩ := hfresh
    all_goals cases hr
  · rcases (World.moves_of_eq hmove).room hs hr with hr | ⟨rfl, hlast⟩
    · exact (hi.room id _ r (World.mem_roll_of_task? ht) hr).act _
    · have hlast : w'.pool.lastId = w.pool.lastId + 1 :=
        (congrArg Pool.lastId halike.pool).trans hlast
      exact ⟨[], id, as, w, w', rfl, ⟨h, ha, ⟨hlast, hlast.symm⟩, rfl, rfl⟩, rfl⟩

/-- What is on loan after an action. -/
theorem lent_act (hi : w.Dated c s as) (h : Run c s as w)
    (ha : w.act a = some w') (hl : loan ∈ w'.pool.active) :
    loan.entry.LastUsed c s (a :: as) := by
  have hnot := h.noReturn_of_lent ha hl
  obtain hl | ⟨id, q, e, hmem, he⟩ :=
    World.lent_act (World.distinct_of_run h) ha hl
  · exact (hi.lent loan hl).act h ha hnot
  · rw [he] at hnot ⊢
    exact Entry.LastUsed.act (e := e) (hi.slot id _ e hmem rfl) h ha hnot

/-- Whatever happens, the records stay right. -/
theorem act (hi : w.Dated c s as) (h : Run c s as w)
    (ha : w.act a = some w') : w'.Dated c s (a :: as) where
  idle e he := by
    rcases (h.happens ha).idle he with he | ⟨id, rfl, hmem⟩
    · refine (hi.idle e he).act h ha (World.Holds.noReturn (.inl ?_) h a)
      exact List.mem_map_of_mem he
    · exact (hi.slot id _ e hmem rfl).act h ha
        ((World.holds_of_entry hmem rfl).noReturn h _)
  lent _ hl := hi.lent_act h ha hl
  slot _ _ _ hmem he := hi.slot_act h ha hmem he
  room _ _ _ hmem hr := hi.room_act h ha hmem hr
  known := hi.known_act h ha

end World.Dated

theorem dated_of_run (h : Run c s as w) : w.Dated c s as := by
  induction h with
  | new hs hw =>
    obtain ⟨-, -, rfl⟩ := Run.new_iff.1 (.new hs hw)
    refine ⟨?_, ?_, ?_, ?_, ?_⟩
    · intro e he
      cases he
    · intro loan hl
      cases hl
    · intro id st e hmem
      cases hmem
    · intro id st r hmem
      cases hmem
    · intro x hx
      cases hx
  | act h ha ih => exact ih.act h ha

end Runs

end DatabasePool
