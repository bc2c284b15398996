import DatabasePool.Proofs.Overdue
import DatabasePool.Proofs.Totals

/-!
# The averages keep to the limits

A wait is counted when it begins, and the time it took when it is over.  A task
that is dropped while it waits has been counted, and its time never is.  So the
total is at most the limit for each wait that has been counted, and if the
limit is set aside for each task that still waits, the same holds with these
set aside.  The time of an overdue loan is counted together with the claim.

* `Metrics.average_le` and `Metrics.le_average` bound an average by its total.
* `Moves.delays` and `World.delays` say what a task and an action do to the
  counts of waits and to those who wait.
* `Run.now_le_since` says that no wait is longer than the limit.
* `averages_of_run` says how the averages keep to the limits.
-/

namespace DatabasePool

/-! ## Averages and their totals -/

namespace Metrics

variable {total count bound : Nat}

theorem average_le (h : total ≤ count * bound) : average total count ≤ bound := by
  unfold average
  split
  · exact Nat.zero_le _
  · rename_i hcount
    apply Nat.le_trans (Nat.min_le_left ..)
    exact Nat.div_le_of_le_mul h

theorem le_average (hcount : 0 < count) (h : count * bound ≤ total)
    (hword : bound ≤ wordMax) : bound ≤ average total count := by
  rw [average, if_neg (by omega)]
  refine Nat.le_min.2 ⟨(Nat.le_div_iff_mul_le hcount).2 ?_, hword⟩
  rwa [Nat.mul_comm]

end Metrics

namespace World

/-! ## Waits that are counted -/

/-- The number of tasks that wait for a release. -/
def waiters (w : World) : Nat := w.roll.countP (·.2.isWaiting)

/-- What the pool has counted of waits: how many there have been, and how long
those took that are over. -/
def waitCounts (w : World) : Nat × Nat :=
  (w.pool.metrics.waits, w.pool.metrics.waitTime)

/-- What a task that does one thing does to the counts of waits. -/
inductive MoveDelays (w : World) : Stage → Flow → Nat × Nat → Prop where
  | same {s : Stage} {flow : Flow}
      (hwaits : flow.isWaiting = true → s.isWaiting = true) :
      MoveDelays w s flow w.waitCounts
  | begins {s : Stage} {flow : Flow} :
      MoveDelays w s flow (w.waitCounts.1 + 1, w.waitCounts.2)
  | ends {q : Request} {since : Nat} {alarm : Timer} {flow : Flow}
      (hstops : flow.isWaiting = false) :
      MoveDelays w (.acquire q (.waiting since alarm)) flow
        (w.waitCounts.1, w.waitCounts.2 + (w.now - since))

theorem waitCounts_withdraw (loans : List Loan) (w : World) :
    (loans.foldl (fun w loan =>
      (w.revoke loan.lease).note (.withdrawn loan.lease)) w).waitCounts =
        w.waitCounts :=
  withdraw_rel (R := fun w v => v.waitCounts = w.waitCounts) (fun _ => rfl)
    (fun h h' => h'.trans h) (fun _ _ => rfl) loans w

theorem waitCounts_hearAnswer (w : World) (call : Call) :
    (w.hearAnswer call).2.waitCounts = w.waitCounts := by
  simp [waitCounts]

theorem waitCounts_hearAnswers (calls : List Pending) (w : World) :
    (w.hearAnswers calls).2.waitCounts = w.waitCounts :=
  hearAnswers_rel (R := fun w v => v.waitCounts = w.waitCounts) (fun _ => rfl)
    (fun h h' => h'.trans h) waitCounts_hearAnswer calls w

theorem waitCounts_beginCloses (conns : List Nat) (w : World) :
    (w.beginCloses conns).2.waitCounts = w.waitCounts :=
  beginCloses_rel (R := fun w v => v.waitCounts = w.waitCounts) (fun _ => rfl)
    (fun h h' => h'.trans h) waitCounts_hearAnswer (fun _ _ => rfl) conns w

theorem waitCounts_endLoan (w : World) {lease : Nat} {loan : Loan} {q : Pool}
    (htake : w.pool.takeLoan? lease = some (loan, q)) :
    (w.endLoan loan q).waitCounts = w.waitCounts := by
  obtain ⟨-, rest, -, rfl⟩ := Pool.takeLoan?_eq_some htake
  unfold endLoan
  dsimp only
  split <;> rfl

/-- A task does nothing else to the counts of waits. -/
theorem Moves.delays {w v : World} {id : Nat} {s : Stage} {flow : Flow}
    (h : Moves w id s flow v) : w.MoveDelays s flow v.waitCounts := by
  have hsame : v.waitCounts = w.waitCounts → flow.isWaiting = false →
      w.MoveDelays s flow v.waitCounts := fun he hcalm =>
    he ▸ .same fun hwaits => absurd (hcalm.symm.trans hwaits) Bool.false_ne_true
  cases h with
  | wait _ _ _ _ _ halarm =>
    obtain ⟨-, rfl⟩ := Prod.mk.inj halarm
    exact .begins
  | outOfReach =>
    simp only [waitCounts, leave_frame]
    exact .begins
  | told | roused | exhausted =>
    simp only [waitCounts, stopWaiting, leave_frame]
    exact .ends rfl
  | stayWaiting | awaits => exact .same fun hwaits => hwaits
  | lend hlend =>
    obtain ⟨-, rfl⟩ := Pool.lend?_eq_some hlend
    refine hsame ?_ rfl
    simp [waitCounts, Pool.free, Metrics.recordRequest]
  | claim _ _ _ htake =>
    obtain ⟨-, -, rest, -, rfl⟩ := Pool.takeOverdue?_eq_some htake
    exact hsame rfl rfl
  | store hstore =>
    obtain ⟨-, -, rfl⟩ := Pool.store?_eq_some hstore
    refine hsame ?_ rfl
    simp [waitCounts, Pool.free]
  | shutDown =>
    refine hsame ?_ rfl
    rw [waitCounts_withdraw]
    simp [waitCounts, Pool.close]
  | turnAway htake | returnUndo htake =>
    refine hsame ?_ rfl
    rw [← waitCounts_endLoan w htake]
    simp [waitCounts]
  | returnClean htake => exact hsame (waitCounts_endLoan w htake) rfl
  | closed | closing =>
    refine hsame ?_ rfl
    rw [waitCounts_beginCloses, waitCounts_hearAnswers]
  | @denied _ raw =>
    refine hsame (by simp [waitCounts]) ?_
    cases raw <;> rfl
  | @stayConnecting _ _ _ _ limit | @timeout _ _ _ _ limit =>
    refine hsame ?_ rfl
    cases limit <;> simp [waitCounts, connectTimer, setWait, setTimer, Pool.free]
  | invalidate | setOptions | take | makeRoom => exact hsame rfl rfl
  | _ =>
    refine hsame ?_ rfl
    simp [waitCounts, seen, Pool.free, reject, Metrics.recordBad]

/-! ## Those who wait -/

/-- The task that closes what another one had does not wait. -/
theorem countP_strays (n : Nat) (s : Stage) (outside : Bool) :
    ((s.strays outside).map (n, ·)).countP (·.2.isWaiting) = 0 := by
  refine List.countP_eq_zero.2 fun x hx => ?_
  obtain ⟨s', hs', rfl⟩ := List.mem_map.1 hx
  obtain ⟨conn, rfl⟩ := Stage.mem_strays hs'
  exact nofun

theorem Distinct.waiters_eq {w : World} (hd : w.Distinct) {id : Nat} {t : Task}
    (ht : w.task? id = some t) :
    w.waiters = ((w.others id).map tag).countP (·.2.isWaiting) +
      t.stage.isWaiting.toNat := by
  rw [waiters, (hd.perm_roll ht).countP_eq, List.countP_cons]
  cases t.stage.isWaiting <;> rfl

/-- A task that is dropped does not wait any more. -/
theorem waiters_dropTask {w : World} {t : Task} (outside : Bool)
    (hlt : t.id < w.nextTask) :
    (w.dropTask outside t).waiters =
      ((w.others t.id).map tag).countP (·.2.isWaiting) := by
  rw [waiters, roll_dropTask outside hlt, List.countP_append, countP_strays]
  rfl

/-- A task waits after it has done one thing only if it has come to wait. -/
theorem Follows.waiters_le {v w' : World} {t : Task} {flow : Flow}
    (h : Follows v t flow w') (hd : v.Distinct)
    (ht : v.task? t.id = some t) :
    w'.waiters ≤ ((v.others t.id).map tag).countP (·.2.isWaiting) +
      flow.isWaiting.toNat := by
  cases h with
  | again s =>
    have hset : (v.setStage t.id s).Distinct :=
      hd.of_map_id (map_id_setStage ..) (Nat.le_refl _)
    refine Nat.le_of_eq ((hset.of_queues _ _).waiters_eq
      (task?_setStage s ht) |>.trans ?_)
    exact congrArg (fun ts => (List.map tag ts).countP (·.2.isWaiting) + _)
      (others_setStage v t.id s)
  | @waits _ s _ hwaits hz =>
    obtain ⟨limit, htask⟩ := hz.task
    rw [hz.distinct.waiters_eq htask, hz.others, Flow.isWaiting,
      Flow.stage?_of_waits? hwaits]
    exact Nat.le_refl _
  | @cutOff _ s z outside hwaits hz =>
    have hlt : t.id < z.nextTask := by
      rw [hz.nextTask]
      exact hd.lt t (mem_of_task? ht)
    have hdrop := waiters_dropTask outside (t := { t with stage := s }) hlt
    rw [hz.others] at hdrop
    exact Nat.le_trans (Nat.le_of_eq hdrop) (Nat.le_add_right ..)
  | finish o => exact Nat.le_add_right ..

theorem waiters_spawn (w : World) {s : Stage} (hs : s.isWaiting = false)
    (limit : Option Limit) : (w.spawn s limit).waiters = w.waiters := by
  simp [waiters, roll, spawn, tag, hs]

/-- What an action does to the counts of waits and to those who wait. -/
inductive Delays (w w' : World) : Prop where
  | same (hcounts : w'.waitCounts = w.waitCounts)
      (hwaiters : w'.waiters ≤ w.waiters)
  | begins (hcounts : w'.waitCounts = (w.waitCounts.1 + 1, w.waitCounts.2))
      (hwaiters : w'.waiters ≤ w.waiters + 1)
  | ends {id : Nat} {q : Request} {since : Nat} {alarm : Timer}
      (hmem : (id, .acquire q (.waiting since alarm)) ∈ w.roll)
      (hcounts : w'.waitCounts =
        (w.waitCounts.1, w.waitCounts.2 + (w.now - since)))
      (hwaiters : w'.waiters + 1 ≤ w.waiters)

/-- An action does nothing else to them. -/
theorem delays {w w' : World} {a : Action} (hd : w.Distinct)
    (ha : w.act a = some w') : w.Delays w' := by
  cases acts hd ha with
  | @run t flow v _ ht hmove hdv hv ho hf =>
    have hbefore := hd.waiters_eq ht
    have hafter := hf.waiters_le hdv hv
    have hcounts : w'.waitCounts = v.waitCounts := by
      simp only [waitCounts, hf.metrics]
    have hmem := mem_roll_of_task? ht
    have hdelays := (moves_of_eq hmove).delays
    rw [ho] at hafter
    rw [← hcounts] at hdelays
    generalize t.stage = s at hbefore hmem hdelays
    generalize hx : w'.waitCounts = x at hdelays
    cases hdelays with
    | same hwaits =>
      refine .same hx ?_
      have hle : flow.isWaiting.toNat ≤ s.isWaiting.toNat := by
        cases hflow : flow.isWaiting with
        | false => exact Nat.zero_le _
        | true => exact Nat.le_of_eq (congrArg Bool.toNat (hwaits hflow)).symm
      omega
    | begins =>
      refine .begins hx ?_
      have hle := Bool.toNat_le flow.isWaiting
      omega
    | ends hstops =>
      refine .ends hmem hx ?_
      rw [hstops] at hafter
      simp only [Stage.isWaiting, Attempt.isWaiting, Bool.toNat_true,
        Bool.toNat_false] at hbefore hafter
      omega
  | @cancel t outside ht =>
    refine .same ?_ ?_
    · show (w.dropTask outside t).waitCounts = _
      simp only [waitCounts, metrics_dropTask]
    · rw [hd.waiters_eq ht]
      exact Nat.le_trans (Nat.le_of_eq
        (waiters_dropTask outside (hd.lt t (mem_of_task? ht))))
        (Nat.le_add_right ..)
  | start op limit => exact .same rfl (Nat.le_of_eq (waiters_spawn w rfl limit))
  | forget => exact .same rfl (Nat.le_of_eq (waiters_spawn _ rfl none))
  | _ => exact .same rfl (Nat.le_refl _)

end World

section Runs

variable {c : Config} {s : Server} {as : List Action} {w : World}

namespace Run

/-- No wait is longer than the limit, however many waits a request has.  The
deadline is a whole millisecond, so the alarm is not put off past it. -/
theorem now_le_since (hwhole : c.timeouts.wait % Time.perMilli = 0)
    (h : Run c s as w) {id since : Nat} {q : Request} {alarm : Timer}
    (hmem : (id, .acquire q (.waiting since alarm)) ∈ w.roll) :
    w.now ≤ since + c.timeouts.wait := by
  obtain ⟨v, hbegan, hset, -, hpast⟩ := began_of_run h hmem
  obtain ⟨⟨before, -, hrun⟩, hlooking, -, rfl⟩ := hbegan
  obtain ⟨hsince, hmade, hdeadline⟩ := hrun.requests _ hlooking q rfl
  obtain ⟨wake, -, hdue⟩ := hset.due
  have hmin : wake.elim q.deadline (min q.deadline) ≤ q.deadline := by
    cases wake with
    | none => exact Nat.le_refl _
    | some moment => exact Nat.min_le_left ..
  have hend : q.deadline % Time.perMilli = 0 := by
    rw [hdeadline, Nat.add_mod, hmade, hwhole]
    rfl
  have halarm : alarm.due ≤ q.deadline := hdue ▸ Time.tick_le hmin hend
  omega

/-- The total time of all waits is at most the limit for each wait, and so it
stays when the tasks that still wait have waited for as long as they may. -/
theorem waits_le (hwhole : c.timeouts.wait % Time.perMilli = 0)
    (h : Run c s as w) :
    w.pool.metrics.waitTime + w.waiters * c.timeouts.wait ≤
      w.pool.metrics.waits * c.timeouts.wait := by
  induction h with
  | new hs hw =>
    obtain ⟨-, -, rfl⟩ := Run.new_iff.1 (.new hs hw)
    exact Nat.le_of_eq (by simp [World.new, World.waiters, World.roll])
  | @act as a w w' h ha ih =>
    have hmul : ∀ {m n : Nat}, m ≤ n →
        m * c.timeouts.wait ≤ n * c.timeouts.wait :=
      Nat.mul_le_mul_right _
    cases World.delays (World.distinct_of_run h) ha with
    | same hcounts hwaiters =>
      obtain ⟨hwaits, htime⟩ := Prod.mk.inj hcounts
      have hle := hmul hwaiters
      rw [hwaits, htime]
      omega
    | begins hcounts hwaiters =>
      obtain ⟨hwaits, htime⟩ := Prod.mk.inj hcounts
      have hle := hmul hwaiters
      simp only [World.waitCounts] at hwaits htime
      rw [Nat.succ_mul] at hle
      rw [hwaits, htime, Nat.succ_mul]
      omega
    | ends hmem hcounts hwaiters =>
      obtain ⟨hwaits, htime⟩ := Prod.mk.inj hcounts
      have hlong := h.now_le_since hwhole hmem
      have hle := hmul hwaiters
      simp only [World.waitCounts] at hwaits htime
      rw [Nat.succ_mul] at hle
      rw [hwaits, htime]
      omega

/-- Each claim counts for longer than a loan may last, and what is counted of
claims is counted of all loans as well. -/
theorem claims_le (h : Run c s as w) :
    w.pool.metrics.overdueClaims * c.timeouts.checkout ≤
        w.pool.metrics.overdueTime ∧
      w.pool.metrics.overdueTime ≤ w.pool.metrics.checkoutTime := by
  induction h with
  | new hs hw =>
    obtain ⟨-, -, rfl⟩ := Run.new_iff.1 (.new hs hw)
    simp [World.new]
  | @act as a w w' h ha ih =>
    have henters := World.enters (World.distinct_of_run h) ha
    have hconfig : w.config = c := h.config_fits.1
    show w'.tally.metrics.overdueClaims * _ ≤ w'.tally.metrics.overdueTime ∧
      w'.tally.metrics.overdueTime ≤ w'.tally.metrics.checkoutTime
    generalize w'.tally = t at henters
    cases henters with
    | same | lend | shutDown => exact ih
    | giveBack => exact ⟨ih.1, Nat.le_add_right_of_le ih.2⟩
    | @claim _ _ loan _ _ _ hoverdue =>
      rw [hconfig] at hoverdue
      show (w.pool.metrics.overdueClaims + 1) * _ ≤
          w.pool.metrics.overdueTime + loan.heldFor w.now ∧
        w.pool.metrics.overdueTime + loan.heldFor w.now ≤
          w.pool.metrics.checkoutTime + loan.heldFor w.now
      rw [Nat.succ_mul]
      omega

end Run

/-- What the pool shows of its averages keeps to the limits, however often each
request has waited, whoever took what it was told of, and whoever was dropped
while it waited.  No average wait is longer than a request may wait.  If some
loan has been claimed, then claimed loans lasted on average for at least as
long as a loan may last, if that is not more than a word.  They lasted no longer
than all loans together, and they and the present loans are no more than have
been handed out. -/
theorem averages_of_run (hwhole : c.timeouts.wait % Time.perMilli = 0)
    (h : Run c s as w) :
    w.snapshot.metrics.averageWait ≤ c.timeouts.wait ∧
      (0 < w.snapshot.metrics.overdueClaims →
        c.timeouts.checkout ≤ wordMax →
          c.timeouts.checkout ≤ w.snapshot.metrics.averageOverdue) ∧
      w.snapshot.metrics.overdueTime ≤ w.snapshot.metrics.checkoutTime ∧
      w.snapshot.metrics.overdueClaims + w.snapshot.active ≤
        w.snapshot.metrics.requests := by
  obtain ⟨hclaims, htotal⟩ := h.claims_le
  refine ⟨Metrics.average_le ?_, fun hsome hword =>
    Metrics.le_average hsome hclaims hword, htotal, ?_⟩
  · exact Nat.le_trans (Nat.le_add_right ..) (h.waits_le hwhole)
  · have hsplit := h.exactLedger.split
    show w.pool.metrics.overdueClaims + w.pool.active.length ≤
      w.pool.metrics.requests
    omega

/-- A connection is lent, and two tasks wait for it.  One of them is dropped,
and the other one claims the connection as soon as it is overdue. -/
def claimedAfterWait : List Action :=
  [.run 1, .run 1, .run 1, .run 1, .run 1, .advance (Time.ofMillis 51),
    .cancel false 2, .run 2, .run 2, .run 2, .start .acquire none,
    .run 1, .run 1, .run 1, .start .acquire none,
    .run 0, .run 0, .run 0, .run 0, .run 0, .start .acquire none]

/-- The wait of the task that was dropped takes part in the average, and has no
time of its own. -/
theorem averages_claimedAfterWait :
    ∃ w, Run briefLoans {} claimedAfterWait w ∧
      w.snapshot.metrics.waits = 2 ∧
      w.snapshot.metrics.waitTime = Time.ofMillis 51 ∧
      w.snapshot.metrics.averageWait ≤ Time.ofMillis 300 ∧
      0 < w.snapshot.metrics.overdueClaims ∧
      Time.ofMillis 50 ≤ w.snapshot.metrics.averageOverdue ∧
      w.snapshot.metrics.overdueClaims + w.snapshot.active ≤
        w.snapshot.metrics.requests := by
  have hex : ∃ w, Run briefLoans {} claimedAfterWait w ∧
      w.snapshot.metrics.waits = 2 ∧
      w.snapshot.metrics.waitTime = Time.ofMillis 51 ∧
      0 < w.snapshot.metrics.overdueClaims :=
    Run.exists_of_replay rfl rfl (by decide +kernel)
  obtain ⟨w, h, hwaits, htime, hclaims⟩ := hex
  obtain ⟨hwait, hoverdue, -, hrequests⟩ := averages_of_run rfl h
  exact ⟨w, h, hwaits, htime, hwait, hclaims, hoverdue hclaims (by decide),
    hrequests⟩

end Runs

end DatabasePool
