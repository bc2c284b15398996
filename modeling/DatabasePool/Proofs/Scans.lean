import DatabasePool.Proofs.Horizon
import DatabasePool.Proofs.Overdue

/-!
# The scan for overdue loans and the alarm

A request that finds neither a connection nor room scans the loans.  If the
loan that has lasted longest is overdue, it is claimed.  If not, the request
sets its alarm for the first moment at which some loan will be overdue.  The
scan compares spans, and the alarm is the least of the moments at which the
loans began, each put off by the span of a loan and a millisecond.  On a clock
of whole milliseconds the two agree.

* `Pool.lt_alarm` says that the alarm is never set for a moment that has come
  already, unless the request has reached its deadline.
* `Pool.scan_agrees` says that a loan is claimed exactly when the alarm would
  be due, and which one it is.
* `Run.dates` says that this holds of the pool in every run.
-/

namespace DatabasePool

/-- Each connection has been on loan since a whole millisecond, and the clock
reaches the moment at which its loan is overdue. -/
def Pool.Dates (timeout : Nat) (p : Pool) : Prop :=
  ∀ loan ∈ p.active, ∃ out, loan.entry.record.checkedOut = some out ∧
    out % Time.perMilli = 0 ∧ out + timeout + Time.perMilli < Time.horizon

namespace Pool

variable {timeout now moment : Nat} {p : Pool}

/-! ## The alarm -/

/-- The moment that is found is the one at which some loan is overdue. -/
theorem nextOverdue_eq_some (h : p.nextOverdue timeout = .ok (some moment)) :
    ∃ loan ∈ p.active, ∃ out, loan.entry.record.checkedOut = some out ∧
      moment = out + timeout + Time.perMilli := by
  obtain ⟨dues, hdues, h⟩ := bind_eq_ok h
  have hmin : (dues.filterMap id).min? = some moment := Except.ok.inj h
  obtain ⟨due, hmem, rfl⟩ :=
    List.mem_filterMap.1 (List.min?_eq_some_iff.1 hmin).1
  obtain ⟨loan, hl, hdue⟩ := exists_of_mapM_eq_ok hdues hmem
  refine ⟨loan, hl, ?_⟩
  cases hout : loan.entry.record.checkedOut with
  | none =>
    simp only [Record.overdueAt, hout] at hdue
    cases hdue
  | some out => exact ⟨out, rfl, Option.some.inj (Record.overdueAt_eq hout hdue)⟩

/-- If no loan is overdue, then the moment at which one will be is still to
come. -/
theorem lt_nextOverdue
    (hnone : ∀ l ∈ p.active, l.entry.record.isOverdue timeout now = false)
    (h : p.nextOverdue timeout = .ok (some moment)) : now < moment := by
  obtain ⟨loan, hl, out, hout, rfl⟩ := nextOverdue_eq_some h
  have hprompt := hnone loan hl
  rw [Record.isOverdue_eq, decide_eq_false_iff_not] at hprompt
  have hheld : loan.entry.record.heldFor now = now - out :=
    Loan.heldFor_eq hout now
  have : 0 < Time.perMilli := by decide
  omega

/-- The alarm of a request that has not reached its deadline is set for a moment
to come. -/
theorem lt_alarm
    (hnone : ∀ l ∈ p.active, l.entry.record.isOverdue timeout now = false)
    {wake : Option Nat} (h : p.nextOverdue timeout = .ok wake) {deadline : Nat}
    (hearly : now < deadline) : now < wake.elim deadline (min deadline) := by
  cases wake with
  | none => exact hearly
  | some moment => exact Nat.lt_min.2 ⟨hearly, lt_nextOverdue hnone h⟩

/-- There is no such moment exactly if there is no loan. -/
theorem Dates.nextOverdue_eq_none_iff (hp : p.Dates timeout)
    {wake : Option Nat} (h : p.nextOverdue timeout = .ok wake) :
    wake = none ↔ p.active = [] := by
  constructor
  · rintro rfl
    rw [List.eq_nil_iff_forall_not_mem]
    intro loan hl
    obtain ⟨out, hout, -⟩ := hp loan hl
    obtain ⟨_, hsome, -⟩ := nextOverdue_le h hl hout
    cases hsome
  · intro hnil
    rw [nextOverdue, hnil] at h
    exact (Except.ok.inj h).symm

/-- The moment is found if the clock reaches it. -/
theorem Dates.exists_nextOverdue (hp : p.Dates timeout) :
    ∃ wake, p.nextOverdue timeout = .ok wake := by
  cases h : p.nextOverdue timeout with
  | ok wake => exact ⟨wake, rfl⟩
  | error o =>
    obtain ⟨loan, hl, out, hout, hlate⟩ := nextOverdue_eq_error_iff.1 h
    obtain ⟨out', hout', -, hin⟩ := hp loan hl
    obtain rfl : out' = out := Option.some.inj (hout'.symm.trans hout)
    omega

/-! ## The scan -/

/-- On a clock of whole milliseconds, the moment at which a loan is overdue has
come if the loan has lasted for too long: that is by a millisecond at least. -/
theorem Dates.le_of_lt_heldFor (hp : p.Dates timeout)
    (htimeout : timeout % Time.perMilli = 0) (hnow : now % Time.perMilli = 0)
    {loan : Loan} (hl : loan ∈ p.active) (hlong : timeout < loan.heldFor now)
    {wake : Option Nat} (h : p.nextOverdue timeout = .ok wake) :
    ∃ moment, wake = some moment ∧ moment ≤ now := by
  obtain ⟨out, hout, hwhole, -⟩ := hp loan hl
  obtain ⟨moment, hwake, hle⟩ := nextOverdue_le h hl hout
  rw [Loan.heldFor_eq hout] at hlong
  refine ⟨moment, hwake, Nat.le_trans hle ?_⟩
  simp only [Time.perMilli] at htimeout hnow hwhole ⊢
  omega

/-- The scan claims a loan exactly if some loan has lasted for longer than it
may, and exactly if the moment for which the alarm would be set has come.  The
loan has lasted as long as any, and all others stay as they are.  If none is
claimed, then the loans stay as they are, whatever the pool has for the request,
and the alarm is set for a moment to come unless there is no loan at all. -/
theorem scan_agrees (htimeout : timeout % Time.perMilli = 0)
    (hnow : now % Time.perMilli = 0) (hp : p.Dates timeout) :
    ∃ wake, p.nextOverdue timeout = .ok wake ∧
      ((p.takeOverdue? timeout now).isSome ↔
        ∃ loan ∈ p.active, timeout < loan.heldFor now) ∧
      ((p.takeOverdue? timeout now).isSome ↔
        ∃ moment, wake = some moment ∧ moment ≤ now) ∧
      (∀ loan q, p.takeOverdue? timeout now = some (loan, q) →
        timeout < loan.heldFor now ∧
          (∀ l ∈ p.active, l.heldFor now ≤ loan.heldFor now) ∧
          ∃ rest, (loan :: rest).Perm p.active ∧
            q = { p with active := rest }) ∧
      (p.takeOverdue? timeout now = none →
        (∀ c : Config, c.timeouts.checkout = timeout →
          (p.offer c now).2.active = p.active) ∧
        (wake = none ↔ p.active = []) ∧
        ∀ moment, wake = some moment → now < moment) := by
  obtain ⟨wake, hwake⟩ := hp.exists_nextOverdue
  refine ⟨wake, hwake, ?_⟩
  cases htake : p.takeOverdue? timeout now with
  | none =>
    have hprompt : ¬∃ loan ∈ p.active, timeout < loan.heldFor now := by
      rintro ⟨loan, hl, hlong⟩
      have hnot := takeOverdue?_eq_none htake loan hl
      rw [Record.isOverdue_eq, decide_eq_false_iff_not] at hnot
      exact hnot hlong
    have hearly : ∀ moment, wake = some moment → now < moment := by
      rintro moment rfl
      exact lt_nextOverdue (takeOverdue?_eq_none htake) hwake
    refine ⟨iff_of_false nofun hprompt, iff_of_false nofun ?_, nofun,
      fun _ => ⟨fun c hc => ?_, hp.nextOverdue_eq_none_iff hwake, hearly⟩⟩
    · rintro ⟨moment, hsome, hle⟩
      have := hearly moment hsome
      omega
    · cases hx : p.offer c now with
      | mk offer p' =>
        cases offers hx with
        | overdue _ _ _ hsome =>
          rw [hc, htake] at hsome
          cases hsome
        | _ => rfl
  | some x =>
    obtain ⟨loan, q⟩ := x
    obtain ⟨hdue, hmax, rest, hperm, hq⟩ := takeOverdue?_eq_some htake
    rw [Record.isOverdue_eq, decide_eq_true_eq] at hdue
    have hl : loan ∈ p.active := hperm.subset List.mem_cons_self
    refine ⟨iff_of_true rfl ⟨loan, hl, hdue⟩,
      iff_of_true rfl (hp.le_of_lt_heldFor htimeout hnow hl hdue hwake), ?_,
      nofun⟩
    intro loan' q' he
    cases he
    exact ⟨hdue, hmax, rest, hperm, hq⟩

/-- Three loans, two of which began together and before the third. -/
def threeLoans : Pool :=
  { options := "db"
    active := [0, 10, 0].mapIdx fun i out =>
      ⟨⟨i, (Record.fresh (i + 1) "db" 0 0).lend (Time.ofMillis out)⟩, i⟩ }

/-- When the first two have lasted for as long as they may, the alarm is set
for the next millisecond, and then one of them is claimed. -/
theorem scan_agrees_threeLoans :
    threeLoans.Dates (Time.ofMillis 50) ∧
      threeLoans.takeOverdue? (Time.ofMillis 50) (Time.ofMillis 50) = none ∧
      ∃ moment, threeLoans.nextOverdue (Time.ofMillis 50) =
          .ok (some moment) ∧
        Time.ofMillis 50 < moment ∧ moment ≤ Time.ofMillis 51 ∧
        ∃ loan q, threeLoans.takeOverdue? (Time.ofMillis 50)
            (Time.ofMillis 51) = some (loan, q) ∧
          loan.heldFor (Time.ofMillis 51) = Time.ofMillis 51 ∧
          q.active.length = 2 := by
  have hp : threeLoans.Dates (Time.ofMillis 50) := by
    intro loan hl
    simp only [threeLoans, List.mapIdx_cons, List.mapIdx_nil,
      List.mem_cons, List.not_mem_nil, or_false] at hl
    rcases hl with rfl | rfl | rfl <;> exact ⟨_, rfl, by decide, by decide⟩
  have hfifty : Time.ofMillis 50 % Time.perMilli = 0 := rfl
  have hnext : Time.ofMillis 51 % Time.perMilli = 0 := rfl
  obtain ⟨wake, hwake, -, -, -, hearly⟩ := scan_agrees hfifty hfifty hp
  obtain ⟨-, -, hlt⟩ := hearly rfl
  obtain ⟨wake', hwake', -, hscan, -, -⟩ := scan_agrees hfifty hnext hp
  obtain rfl : wake = wake' := Except.ok.inj (hwake.symm.trans hwake')
  obtain ⟨moment, rfl, hle⟩ := hscan.1 rfl
  exact ⟨hp, rfl, moment, hwake, hlt moment rfl, hle, _, _, rfl, rfl, rfl⟩

end Pool

/-- In every run the loans are dated so, unless a request would break off
because the clock does not reach the moment of its alarm. -/
theorem Run.dates {c : Config} {s : Server} {as : List Action} {w : World}
    (h : Run c s as w)
    (hin : ∀ o, w.pool.nextOverdue c.timeouts.checkout ≠ .error o) :
    w.pool.Dates c.timeouts.checkout := by
  intro loan hl
  obtain ⟨out, hout, -, hwhole⟩ := h.dated.2 loan hl
  refine ⟨out, hout, hwhole, Nat.lt_of_not_le fun hlate => ?_⟩
  exact hin .pastHorizon
    (Pool.nextOverdue_eq_error_iff.2 ⟨loan, hl, out, hout, hlate⟩)

end DatabasePool
