import DatabasePool.Proofs.Requests
import DatabasePool.Proofs.Slots

/-!
# Moments that the clock does not reach

A request computes two moments: its deadline, when it begins, and the moment
at which some loan will be overdue, when there is nothing to be had.  If the
clock does not reach that moment, the request breaks off.  A configuration has
no fault because of its times, however long they are, so this does happen.

* `Pool.nextOverdue_eq_error_iff` says for which loans it happens.
* `Moves.beyond_iff` says that it happens nowhere else.
* `in_range_of_run` says when a request breaks off, and that nothing else that
  is counted goes out of range.
* `exists_beyond_horizon` has a run for each of the two moments in which a
  request breaks off.
-/

namespace DatabasePool

/-! ## The two moments -/

theorem Time.later_eq_error_iff {moment span : Nat} {o : Overflow} :
    later moment span = .error o ↔ horizon ≤ moment + span := by
  cases o
  simp only [later]
  split <;> simp_all

/-- The clock does not reach the moment at which a connection on loan counts as
overdue. -/
theorem Record.overdueAt_eq_error_iff {κ : Type} {r : Record κ}
    {timeout : Nat} {o : Time.Overflow} :
    r.overdueAt timeout = .error o ↔ ∃ out, r.checkedOut = some out ∧
      Time.horizon ≤ out + timeout + Time.perMilli := by
  cases hout : r.checkedOut with
  | none => simp [overdueAt, hout]
  | some out =>
    simp only [overdueAt, hout, bind_eq_error_iff, Time.later_eq_error_iff,
      Time.later_eq_ok_iff, reduceCtorEq, and_false, exists_false, or_false,
      Option.some.injEq, exists_eq_left']
    constructor
    · rintro (hlate | ⟨_, ⟨rfl, -⟩, hlate⟩)
      · exact Nat.le_add_right_of_le hlate
      · exact hlate
    · intro hlate
      rcases Nat.lt_or_ge (out + timeout) Time.horizon with hin | hpast
      · exact .inr ⟨_, ⟨rfl, hin⟩, hlate⟩
      · exact .inl hpast

/-- The clock does not reach the moment at which some loan is overdue. -/
theorem Pool.nextOverdue_eq_error_iff {timeout : Nat} {p : Pool}
    {o : Time.Overflow} :
    p.nextOverdue timeout = .error o ↔ ∃ loan ∈ p.active, ∃ out,
      loan.entry.record.checkedOut = some out ∧
        Time.horizon ≤ out + timeout + Time.perMilli := by
  simp only [← Record.overdueAt_eq_error_iff (o := o)]
  unfold nextOverdue
  cases hdues : p.active.mapM (·.entry.record.overdueAt timeout) with
  | error o' =>
    obtain ⟨loan, hl, ho⟩ := exists_of_mapM_eq_error hdues
    cases o
    cases o'
    exact iff_of_true rfl ⟨loan, hl, ho⟩
  | ok dues =>
    refine iff_of_false nofun ?_
    rintro ⟨loan, hl, ho⟩
    obtain ⟨due, -, hdue⟩ := mem_of_mapM_eq_ok hdues hl
    cases hdue.symm.trans ho

/-! ## Requests that break off -/

/-- A task at this stage asks for a moment that the clock does not reach: for
its deadline, or, when there is nothing to be had, for the moment at which some
loan is overdue. -/
inductive AsksBeyond (c : Config) (now : Nat) (p : Pool) : Stage → Prop where
  | deadline (hlate : Time.horizon ≤ now + c.timeouts.wait) :
      AsksBeyond c now p (.start .acquire)
  | overdue {q : Request} {loan : Loan} {out : Nat} (hup : p.shutDown = false)
      (hidle : p.idle = []) (hfull : p.hasRoom c.maxActive = false)
      (hnone : ∀ l ∈ p.active,
        l.entry.record.isOverdue c.timeouts.checkout now = false)
      (hl : loan ∈ p.active) (hout : loan.entry.record.checkedOut = some out)
      (hlate : Time.horizon ≤ out + c.timeouts.checkout + Time.perMilli) :
      AsksBeyond c now p (.acquire q .looking)

/-- A task breaks off if it asks for a moment that the clock does not reach,
and otherwise not. -/
theorem World.Moves.beyond_iff {w v : World} {id : Nat} {st : Stage}
    {flow : Flow} (h : w.Moves id st flow v) :
    (∃ o, flow = .finish (.beyond o)) ↔
      AsksBeyond w.config w.now w.pool st := by
  constructor
  · rintro ⟨o, hflow⟩
    cases h with
    | tooFar hlater => exact .deadline (Time.later_eq_error_iff.1 hlater)
    | outOfReach hup hidle hfull hnone hwake =>
      obtain ⟨loan, hl, out, hout, hlate⟩ :=
        Pool.nextOverdue_eq_error_iff.1 hwake
      exact .overdue hup hidle hfull (Pool.takeOverdue?_eq_none hnone) hl hout
        hlate
    | @denied _ raw => cases raw <;> cases hflow
    | _ => cases hflow
  · rintro (hlate | ⟨hup, hidle, hfull, hnone, hl, hout, hlate⟩)
    · cases h with
      | tooFar => exact ⟨_, rfl⟩
      | request hlater =>
        have hlt := (Time.later_eq_ok_iff.1 hlater).2
        omega
      | ask hop | askLate hop => cases hop
      | awaits hcall => cases hcall
    · cases h with
      | outOfReach => exact ⟨_, rfl⟩
      | ended hdown => cases hup.symm.trans hdown
      | take _ hkept => cases hidle.symm.trans hkept
      | makeRoom _ _ hroom => cases hfull.symm.trans hroom
      | claim _ _ _ htake =>
        obtain ⟨hdue, -, rest, hperm, -⟩ := Pool.takeOverdue?_eq_some htake
        have hmem := hperm.subset List.mem_cons_self
        cases (hnone _ hmem).symm.trans hdue
      | wait _ _ _ _ hwake =>
        have hbeyond := (Pool.nextOverdue_eq_error_iff (o := .pastHorizon)).2
          ⟨_, hl, _, hout, hlate⟩
        cases hwake.symm.trans hbeyond
      | awaits hcall => cases hcall

section Runs

variable {c : Config} {s : Server} {as : List Action} {w w' : World}
  {id : Nat} {st : Stage}

/-- When it is written down that a task breaks off, it has asked for a moment
that the clock does not reach. -/
theorem Run.beyond_tells (h : Run c s as w) {a : Action} {o : Time.Overflow}
    (htells : w.Tells a (.ended id (.beyond o))) :
    ∃ st, (id, st) ∈ w.roll ∧ AsksBeyond c w.now w.pool st := by
  have hconfig : w.config = c := h.config_fits.1
  generalize hev : Event.ended id (.beyond o) = e at htells
  cases htells with
  | writes _ _ hw =>
    subst hev
    cases hw.1
  | @ended t _ _ ht hmove =>
    cases hev
    refine ⟨t.stage, World.mem_roll_of_task? ht, ?_⟩
    rw [← hconfig]
    exact (World.moves_of_eq hmove).beyond_iff.1 ⟨_, rfl⟩
  | cutOff | dropped | abandoned => cases hev

/-- When a task does one thing, it breaks off if it asks for a moment that the
clock does not reach, and otherwise not. -/
theorem Run.beyond_iff (h : Run c s as w) (hmem : (id, st) ∈ w.roll)
    (ha : w.act (.run id) = some w') :
    (∃ o, (w.now, .ended id (.beyond o)) ∈ w'.history) ↔
      AsksBeyond c w.now w.pool st := by
  have hd := World.distinct_of_run h
  constructor
  · rintro ⟨o, he⟩
    rcases h.tells ha he with hold | ⟨-, htells⟩
    · exact absurd rfl ((h.is_over hold rfl).2 _ hmem)
    · obtain ⟨st', hmem', hasks⟩ := h.beyond_tells htells
      exact hd.stage_unique hmem hmem' ▸ hasks
  · intro hasks
    have hconfig : w.config = c := h.config_fits.1
    rw [← hconfig] at hasks
    obtain ⟨t, ht, rfl⟩ := hd.task?_of_roll hmem
    obtain rfl := World.id_of_task? ht
    obtain ⟨flow, v, hmove, -, hf⟩ := World.act_task hd ht ha
    have hnow : v.now = w.now := hmove.writes.1
    obtain ⟨o, rfl⟩ := hmove.beyond_iff.2 hasks
    rw [hf.eq_finish, ← hnow]
    exact ⟨o, List.mem_cons_self⟩

/-- A request that broke off asked for a moment that the clock does not
reach. -/
theorem Run.beyond_le (h : Run c s as w) {moment : Nat} {o : Time.Overflow}
    (he : (moment, .ended id (.beyond o)) ∈ w.history) :
    Time.horizon ≤ moment + c.timeouts.wait ∨
      Time.horizon ≤ moment + c.timeouts.checkout + Time.perMilli := by
  induction h with
  | new hs hw =>
    obtain ⟨-, -, rfl⟩ := Run.new_iff.1 (.new hs hw)
    cases he
  | act h ha ih =>
    rcases h.tells ha he with hold | ⟨rfl, htells⟩
    · exact ih hold
    · obtain ⟨st, -, hasks⟩ := h.beyond_tells htells
      cases hasks with
      | deadline hlate => exact .inl hlate
      | overdue _ _ _ _ hl hout hlate =>
        obtain ⟨out, hout', hpast, -⟩ := h.dated.2 _ hl
        obtain rfl := Option.some.inj (hout.symm.trans hout')
        refine .inr (Nat.le_trans hlate ?_)
        omega

/-- A task breaks off when it asks for its deadline, or for the moment at which
a loan is overdue, and the clock does not reach that, and never otherwise.
Slots are given back only by tasks that have one, so nothing is taken from zero,
and the averages are in the range of a word. -/
theorem in_range_of_run (h : Run c s as w) :
    (∀ id st w', (id, st) ∈ w.roll → w.act (.run id) = some w' →
      ((∃ o, (w.now, .ended id (.beyond o)) ∈ w'.history) ↔
        AsksBeyond c w.now w.pool st)) ∧
    (∀ moment id o, (moment, .ended id (.beyond o)) ∈ w.history →
      Time.horizon ≤ moment + c.timeouts.wait ∨
        Time.horizon ≤ moment + c.timeouts.checkout + Time.perMilli) ∧
    ((∀ t ∈ w.tasks, t.stage.hasSlot = true → 0 < w.pool.inFlight) ∧
      ∀ a w', w.act a = some w' →
        w'.pool.inFlight + w.slotsBy a = w.pool.inFlight + w'.slotsBy a) ∧
    w.pool.metrics.averageRequest ≤ wordMax ∧
    w.pool.metrics.averageCheckout ≤ wordMax ∧
    w.pool.metrics.averageOverdue ≤ wordMax ∧
    w.pool.metrics.averageWait ≤ wordMax := by
  have haverage : ∀ total count, Metrics.average total count ≤ wordMax := by
    intro total count
    unfold Metrics.average
    split
    · exact Nat.zero_le _
    · exact Nat.min_le_right ..
  refine ⟨fun _ _ _ hmem ha => h.beyond_iff hmem ha,
    fun _ _ _ he => h.beyond_le he,
    ⟨fun _ => inFlight_pos_of_run h, fun _ _ ha => (slots_of_act h ha).1⟩,
    haverage .., haverage .., haverage .., haverage ..⟩

/-- A connection may be held for as long as a span can be. -/
def endlessLoans : Config :=
  { maxActive := 1, maxIdle := 1
    timeouts := { checkout := Time.ofSeconds wordMax } }

/-- The only connection is lent, and a second request is about to look. -/
def lentForever : List Action :=
  [.run 1, .start .acquire none,
    .run 0, .run 0, .run 0, .run 0, .run 0, .start .acquire none]

/-- The second request breaks off, because the clock does not reach the moment
at which the loan is overdue. -/
theorem in_range_lentForever :
    ∃ w w' o, Run endlessLoans {} lentForever w ∧
      w.act (.run 1) = some w' ∧
      (0, .ended 1 (.beyond o)) ∈ w'.history ∧
      Time.horizon ≤ 0 + endlessLoans.timeouts.checkout + Time.perMilli := by
  have hw : ∃ w, Run endlessLoans {} lentForever w ∧ w.now = 0 ∧
      (1, .acquire ⟨0, Time.ofMillis 20000, 0⟩ .looking) ∈ w.roll ∧
      w.pool.shutDown = false ∧ w.pool.idle = [] ∧
      w.pool.hasRoom endlessLoans.maxActive = false ∧
      (∀ l ∈ w.pool.active, l.entry.record.isOverdue
        endlessLoans.timeouts.checkout w.now = false) ∧
      (∃ l ∈ w.pool.active, l.entry.record.checkedOut = some 0) ∧
      1 ∈ w.ready :=
    Run.exists_of_replay rfl rfl (by decide +kernel)
  obtain ⟨w, h, hnow, hmem, hup, hidle, hfull, hnone, ⟨l, hl, hout⟩, hready⟩ :=
    hw
  have hlate : Time.horizon ≤
      0 + endlessLoans.timeouts.checkout + Time.perMilli := by decide
  obtain ⟨hiff, -⟩ := in_range_of_run h
  have ha : w.act (.run 1) = some _ := if_pos hready
  obtain ⟨o, he⟩ := (hiff 1 _ _ hmem ha).2
    (.overdue hup hidle hfull hnone hl hout hlate)
  exact ⟨w, _, o, h, ha, hnow ▸ he, hlate⟩

/-- A configuration without a fault in which a request breaks off when it
begins, and another one in which a request breaks off when it finds nothing. -/
theorem exists_beyond_horizon :
    (∃ w, Run { timeouts := { wait := Time.ofSeconds wordMax } } {}
        [.run 0, .start .acquire none] w ∧
      (0, .ended 0 (.beyond .pastHorizon)) ∈ w.history) ∧
    ∃ w, Run endlessLoans {} (.run 1 :: lentForever) w ∧
      (0, .ended 1 (.beyond .pastHorizon)) ∈ w.history :=
  ⟨Run.exists_of_replay rfl rfl (by decide +kernel),
    Run.exists_of_replay rfl rfl (by decide +kernel)⟩

end Runs

end DatabasePool
