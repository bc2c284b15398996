import DatabasePool.Proofs.Alone
import DatabasePool.Proofs.Release
import DatabasePool.Proofs.Scans

/-!
# A request never spins

A request looks at the pool again whenever a connection turned out bad or out
of date, and whenever a wait was over.  As long as no time goes by and nobody
else does anything, it cannot go on like that.  Each connection that is kept is
taken once.  When one has been closed there is room, so no loan is claimed and
nothing is waited for afterwards.  A ring that was kept is used up by the first
wait, and the alarm of a wait is set for a moment to come.

* `World.looksLeft` says how often a request looks at most, from the stage it
  is in, and `World.stepsLeft` how many steps it makes at most before it has to
  wait for something that has not come.
* `Moves.looksLeft_le` and `Moves.stepsLeft_lt` say that these go down.
* `Run.paced` follows a request through a stretch in which only it goes on.
* `never_spins_of_run` puts this together.
-/

namespace DatabasePool

/-- Nobody does anything but the task and the server, and no time goes by. -/
def Action.isStill (id : Nat) : Action → Bool
  | run i => i == id
  | rouse => true
  | changeServer _ => true
  | markClosed _ _ => true
  | markManual _ _ => true
  | _ => false

/-- The task gets a connection. -/
def Stage.isRequest : Stage → Bool
  | start .acquire => true
  | acquire _ _ => true
  | _ => false

/-! ## Rings -/

namespace Signal

/-- One who joins and has been told at once has used up the ring that was
kept. -/
theorem kept_of_told_join {s : Signal} {id : Nat}
    (h : (s.join id).isTold id = true) :
    s.kept = true ∧ (s.join id).kept = false := by
  unfold join at h ⊢
  split
  · exact ⟨‹_›, rfl⟩
  · rename_i hkept
    rw [if_neg hkept] at h
    simp [isTold] at h

/-- One who goes away without a ring passes none on. -/
theorem kept_leave {s : Signal} {id : Nat} (h : id ∉ s.told) :
    (s.leave id).2.kept = s.kept := by
  rw [leave, if_neg (by simpa using h)]

/-- One who has listened has no ring any more. -/
theorem not_mem_told_listen {s : Signal} {id : Nat} (h : s.members id ≤ 1) :
    id ∉ (s.listen id).told := by
  rw [← List.count_eq_zero, listen, List.count_erase_self]
  rw [members] at h
  omega

/-- One who has not been told has no ring. -/
theorem not_mem_told {s : Signal} {id : Nat} (h : s.members id ≤ 1)
    (htold : s.isTold id = false) : id ∉ s.told := by
  have hmem : id ∈ s.waiting := by simpa [isTold] using htold
  have hpos := List.count_pos_iff.2 hmem
  rw [members] at h
  rw [← List.count_eq_zero]
  omega

end Signal

namespace World

/-! ## How often a request looks -/

/-- Some loan is overdue. -/
def hasOverdue (w : World) : Bool :=
  w.pool.active.any
    (·.entry.record.isOverdue w.config.timeouts.checkout w.now)

/-- Where there is no room, a request can look once more when it has claimed a
loan, or when it was told at once by a ring that was kept. -/
def spare (w : World) : Nat :=
  if w.pool.hasRoom w.config.maxActive then 0
  else if w.hasOverdue then 1
  else w.signal.kept.toNat

/-- How often a request looks at most that is about to look: once for each
connection that is kept, and for room. -/
def looksFrom (w : World) : Nat := w.pool.idle.length + 1 + w.spare

/-- How often a request looks at most that is about to lend the connection of a
record: one that is current is lent. -/
def looksAfter (w : World) (r : Record String) : Nat :=
  if w.pool.isCurrent r then 0 else w.pool.idle.length + 1

/-- The wait is over, and not because of the deadline. -/
def isRoused (w : World) (id : Nat) (q : Request) (alarm : Timer) : Bool :=
  w.signal.isTold id || (w.isDue alarm && w.now < q.deadline)

/-- How often a request looks at most from a stage on, if only it goes on. -/
def looksLeft (w : World) (id : Nat) : Stage → Nat
  | .start .acquire => w.looksFrom
  | .acquire _ .looking => w.looksFrom
  | .acquire _ (.opening r _) => w.looksAfter r
  | .acquire _ (.connecting r _ _ _) => w.looksAfter r
  | .acquire _ (.lending e) => w.looksAfter e.record
  | .acquire q (.waiting _ alarm) =>
    if w.isRoused id q alarm then w.looksFrom else 0
  | .acquire _ _ => w.pool.idle.length + 1
  | _ => 0

/-- What is known of a task in every run: the pool has not more connections
than it may, the slot of the task is counted, and the task has joined the
release signal once at most. -/
structure Tidy (w : World) (id : Nat) (s : Stage) : Prop where
  total : w.pool.idle.length + w.pool.active.length + w.pool.inFlight ≤
    w.config.maxActive
  slot : s.hasSlot = true → 0 < w.pool.inFlight
  members : w.signal.members id ≤ s.hasJoined.toNat

section Looks

variable {w v : World} {id : Nat} {s s' : Stage} {flow : Flow}

theorem looksAfter_le (w : World) (r : Record String) :
    w.looksAfter r ≤ w.pool.idle.length + 1 := by
  unfold looksAfter
  split
  · exact Nat.zero_le _
  · exact Nat.le_refl _

theorem looksFrom_le (w : World) :
    w.looksFrom ≤ w.pool.idle.length + 2 := by
  have hspare : w.spare ≤ 1 := by
    unfold spare
    split
    · exact Nat.zero_le _
    · split
      · exact Nat.le_refl _
      · exact Bool.toNat_le _
  unfold looksFrom
  omega

theorem looksLeft_le (w : World) (id : Nat) (s : Stage) :
    w.looksLeft id s ≤ w.pool.idle.length + 2 := by
  have hfrom := w.looksFrom_le
  unfold looksLeft
  split
  · exact hfrom
  · exact hfrom
  · exact Nat.le_succ_of_le (looksAfter_le ..)
  · exact Nat.le_succ_of_le (looksAfter_le ..)
  · exact Nat.le_succ_of_le (looksAfter_le ..)
  · split
    · exact hfrom
    · exact Nat.zero_le _
  · exact Nat.le_succ _
  · exact Nat.zero_le _

/-- A request that is about to look can look. -/
theorem isLooking_le (w : World) (id : Nat) (s : Stage) :
    s.isLooking.toNat ≤ w.looksLeft id s := by
  cases s with
  | acquire q a =>
    cases a with
    | looking =>
      show 1 ≤ w.looksFrom
      unfold looksFrom
      omega
    | _ => exact Nat.zero_le _
  | _ => exact Nat.zero_le _

/-- A wait that is over leaves what there is to be had as it was. -/
theorem looksFrom_stopWaiting (hkept : (w.signal.leave id).2.kept =
    w.signal.kept) (since : Nat) :
    (w.stopWaiting id since).looksFrom = w.looksFrom := by
  have hsignal : (w.stopWaiting id since).signal = (w.signal.leave id).2 := by
    simp [stopWaiting]
  simp only [looksFrom, spare, hsignal, hkept]
  simp [hasOverdue, Pool.hasRoom, stopWaiting]

/-- When a connection has been closed there is room. -/
theorem Tidy.looksFrom_freed (h : w.Tidy id s) (hs : s.hasSlot = true)
    (hconfig : v.config = w.config) (hidle : v.pool.idle = w.pool.idle)
    (hactive : v.pool.active = w.pool.active)
    (hslots : v.pool.inFlight = w.pool.inFlight - 1) :
    v.looksFrom = w.pool.idle.length + 1 := by
  have htotal := h.total
  have hpos := h.slot hs
  have hroom : v.pool.hasRoom v.config.maxActive = true := by
    rw [Pool.hasRoom, hconfig, hactive, hslots, decide_eq_true_eq]
    omega
  rw [looksFrom, spare, if_pos hroom, hidle]

/-- One who finds nothing to be had looks again only if it is told at once, and
then it can look once less. -/
theorem looksLeft_wait {q : Request} {wake : Option Nat} {alarm : Timer}
    {m : Metrics} (hfull : w.pool.hasRoom w.config.maxActive = false)
    (hnone : ∀ l ∈ w.pool.active,
      l.entry.record.isOverdue w.config.timeouts.checkout w.now = false)
    (hwake : w.pool.nextOverdue w.config.timeouts.checkout = .ok wake)
    (hdue : alarm.due = Time.tick (wake.elim q.deadline (min q.deadline)))
    (hconfig : v.config = w.config)
    (hpool : v.pool = { w.pool with metrics := m })
    (hsignal : v.signal = w.signal.join id) (hnow : v.now = w.now) :
    v.looksLeft id (.acquire q (.waiting w.now alarm)) + 1 ≤ w.looksFrom := by
  have hnever : (v.isDue alarm && v.now < q.deadline) = false := by
    rw [Bool.and_eq_false_iff, isDue, hnow, decide_eq_false_iff_not,
      decide_eq_false_iff_not]
    by_cases hearly : w.now < q.deadline
    · have hlt := Pool.lt_alarm hnone hwake hearly
      have hle := Time.le_tick (wake.elim q.deadline (min q.deadline))
      omega
    · exact .inr hearly
  have hspare : ∀ u : World, u.config = w.config →
      u.pool.active = w.pool.active → u.pool.inFlight = w.pool.inFlight →
      u.now = w.now → u.spare = u.signal.kept.toNat := by
    intro u huconfig huactive hslots hunow
    have hprompt : u.hasOverdue = false := by
      rw [hasOverdue, huconfig, huactive, hunow, List.any_eq_false]
      intro l hl
      rw [hnone l hl]
      exact Bool.false_ne_true
    have hfull' : u.pool.hasRoom u.config.maxActive = false := by
      rw [Pool.hasRoom, huconfig, huactive, hslots]
      exact hfull
    rw [spare, hfull', hprompt]
    rfl
  simp only [looksLeft, isRoused, hnever, Bool.or_false]
  split
  · rename_i htold
    rw [hsignal] at htold
    obtain ⟨hkept, hused⟩ := Signal.kept_of_told_join htold
    rw [looksFrom, looksFrom, hspare w rfl rfl rfl rfl,
      hspare v hconfig (by rw [hpool]) (by rw [hpool]) hnow, hpool, hsignal,
      hkept, hused]
    exact Nat.le_refl _
  · unfold looksFrom
    omega

/-- A request that goes on can look less often afterwards if it has looked, and
not more often otherwise. -/
theorem Moves.looksLeft_le {q : Request} {a : Attempt}
    (h : Moves w id (.acquire q a) flow v) (hw : w.Tidy id (.acquire q a))
    (hs : flow.stage? = some s') :
    v.looksLeft id s' + (Stage.acquire q a).isLooking.toNat ≤
      w.looksLeft id (.acquire q a) := by
  cases h with
  | ended | outOfReach | refused | timeout | lend | allBad | exhausted =>
    cases hs
  | @take _ e rest hup hidle =>
    cases hs
    show rest.length + 1 + 1 ≤ w.pool.idle.length + 1 + w.spare
    rw [hidle, List.length_cons]
    omega
  | makeRoom hup =>
    cases hs
    show looksAfter _ _ + 1 ≤ w.pool.idle.length + 1 + w.spare
    rw [looksAfter, if_pos (by simp [Pool.isCurrent, seen, Pool.reserve,
      Record.fresh, hup])]
    omega
  | @claim _ loan _ hup hidle hfull htake =>
    cases hs
    obtain ⟨hdue, -, rest, hperm, rfl⟩ := Pool.takeOverdue?_eq_some htake
    have hoverdue : w.hasOverdue = true :=
      List.any_eq_true.2 ⟨loan, hperm.subset List.mem_cons_self, hdue⟩
    show w.pool.idle.length + 1 + 1 ≤ w.pool.idle.length + 1 + w.spare
    refine Nat.le_of_eq ?_
    rw [spare, if_neg (by simp [hfull]), if_pos hoverdue]
  | @wait _ wake _ _ hup hidle hfull hnone hwake halarm =>
    cases hs
    obtain ⟨rfl, rfl⟩ := Prod.mk.inj halarm
    exact looksLeft_wait hfull (Pool.takeOverdue?_eq_none hnone) hwake rfl rfl
      rfl rfl rfl
  | dial | connect | retry =>
    cases hs
    show looksAfter _ _ + 0 ≤ looksAfter _ _
    simp [looksAfter]
  | @stayConnecting _ _ _ _ limit =>
    cases hs
    cases limit <;> exact Nat.le_refl _
  | recoverClosed | recoverClean | recoverUndo | undone | notUndone | stale
  | foundClosed | ping | notPinged =>
    cases hs
    show _ + 1 + 0 ≤ w.pool.idle.length + 1
    simp [reject]
  | good | pinged =>
    cases hs
    show looksAfter _ _ + 0 ≤ w.pool.idle.length + 1
    refine Nat.le_trans (looksAfter_le ..) ?_
    simp
  | lendStale hstale =>
    cases hs
    show w.pool.idle.length + 1 ≤ w.looksAfter _
    refine Nat.le_of_eq ?_
    rw [looksAfter, if_neg]
    intro hcurrent
    simp [Pool.lend?, hcurrent] at hstale
  | tryAgain =>
    cases hs
    refine Nat.le_of_eq (hw.looksFrom_freed rfl ?_ ?_ ?_ ?_)
    all_goals simp [Pool.free]
  | stayWaiting =>
    cases hs
    exact Nat.le_refl _
  | @told _ since alarm htold =>
    cases hs
    have hone : w.signal.members id ≤ 1 := hw.members
    have hkept : ((w.signal.listen id).leave id).2.kept = w.signal.kept :=
      Signal.kept_leave (Signal.not_mem_told_listen hone)
    have hfrom := looksFrom_stopWaiting
      (w := { w with signal := w.signal.listen id }) hkept since
    show looksFrom _ + 0 ≤
      if w.isRoused id q alarm then w.looksFrom else 0
    rw [hfrom, isRoused, htold]
    exact Nat.le_refl _
  | @roused _ since alarm htold hdue hearly =>
    cases hs
    have hone : w.signal.members id ≤ 1 := hw.members
    have hkept : (w.signal.leave id).2.kept = w.signal.kept :=
      Signal.kept_leave (Signal.not_mem_told hone htold)
    have hfrom := looksFrom_stopWaiting hkept since
    show looksFrom _ + 0 ≤
      if w.isRoused id q alarm then w.looksFrom else 0
    rw [hfrom, isRoused, hdue, decide_eq_true hearly, Bool.and_true,
      Bool.or_true]
    exact Nat.le_refl _
  | awaits hcall =>
    cases hs
    cases a with
    | looking => cases hcall
    | _ => exact Nat.le_refl _

end Looks

end World

/-! ## How many steps a request makes -/

/-- More than the stages that are left to an attempt until it looks again or
ends. -/
def Attempt.rank : Attempt → Nat
  | looking => 0
  | discarding _ _ => 1
  | waiting _ _ => 1
  | lending _ => 2
  | pinging _ _ => 4
  | checking _ => 5
  | undoing _ _ => 6
  | recovering _ => 7
  | connecting _ failures _ _ => 2 * (connectRetries - failures) + 3
  | opening _ failures => 2 * (connectRetries - failures) + 4

def Stage.rank : Stage → Nat
  | start .acquire => 1
  | acquire _ a => a.rank
  | _ => 0

theorem Stage.rank_le (s : Stage) : s.rank ≤ 10 := by
  cases s with
  | start op => cases op <;> simp [rank]
  | acquire q a =>
    cases a <;> simp only [rank, Attempt.rank, connectRetries] <;> omega
  | _ => exact Nat.zero_le _

namespace World

/-- The task waits for a call, a timer or a release, and nothing of it has
come. -/
def isHeld (w : World) (id : Nat) (s : Stage) : Bool :=
  w.holdsUp s && !(s.isWaiting && w.signal.isTold id)

/-- How many steps a request makes at most, if only it goes on, before it is
over or waits for something that has not come. -/
def stepsLeft (w : World) (id : Nat) (s : Stage) : Nat :=
  11 * w.looksLeft id s + s.rank

section Steps

variable {w v : World} {id : Nat} {s s' : Stage} {flow : Flow} {q : Request}
  {a : Attempt}

theorem stepsLeft_le (w : World) (id : Nat) (s : Stage) :
    w.stepsLeft id s ≤ 11 * w.pool.idle.length + 32 := by
  have hlooks := w.looksLeft_le id s
  have hrank := s.rank_le
  unfold stepsLeft
  omega

/-- A request that comes to a pause waits for something that has not come. -/
theorem Moves.held_of_pause (h : Moves w id (.acquire q a) (.pause s') v) :
    w.isHeld id (.acquire q a) = true := by
  cases h with
  | @stayConnecting _ _ _ call limit hnot hearly =>
    cases limit with
    | none =>
      simp [isHeld, holdsUp, Stage.timers, Attempt.timers, Stage.isWaiting,
        Attempt.isWaiting, hnot]
    | some timer =>
      have hearly : w.isDue timer = false := hearly
      simp [isHeld, holdsUp, Stage.timers, Attempt.timers, Stage.isWaiting,
        Attempt.isWaiting, hnot, hearly]
  | stayWaiting htold hdue =>
    simp [isHeld, holdsUp, Stage.timers, Attempt.timers, htold, hdue]
  | awaits hcall hnot =>
    cases a with
    | undoing | pinging | discarding =>
      obtain rfl := Option.some.inj hcall
      simp [isHeld, holdsUp, Stage.timers, Attempt.timers, Stage.isWaiting,
        Attempt.isWaiting, hnot]
    | _ => cases hcall

/-- A request that does not look is nearer to its next look or its end
afterwards, unless nothing has come of what it waits for. -/
theorem Moves.rank_lt (h : Moves w id (.acquire q a) flow v)
    (hfree : w.isHeld id (.acquire q a) = false) (hlook : a ≠ .looking)
    (hs : flow.stage? = some s') : s'.rank < a.rank := by
  have hpause : ∀ s'', flow ≠ .pause s'' := by
    rintro s'' rfl
    cases h.held_of_pause.symm.trans hfree
  cases h with
  | ended | take | makeRoom | claim | wait | outOfReach =>
    exact absurd rfl hlook
  | stayConnecting | stayWaiting | awaits => exact absurd rfl (hpause _)
  | refused | timeout | lend | allBad | exhausted => cases hs
  | retry _ _ hfew =>
    cases hs
    simp only [Stage.rank, Attempt.rank]
    omega
  | _ =>
    cases hs
    simp [Stage.rank, Attempt.rank]

/-- A request that goes on makes fewer steps afterwards, unless nothing has
come of what it waits for. -/
theorem Moves.stepsLeft_lt (h : Moves w id (.acquire q a) flow v)
    (hw : w.Tidy id (.acquire q a))
    (hfree : w.isHeld id (.acquire q a) = false)
    (hs : flow.stage? = some s') :
    v.stepsLeft id s' < w.stepsLeft id (.acquire q a) := by
  have hlooks := h.looksLeft_le hw hs
  by_cases hlook : a = .looking
  · subst hlook
    have hrank := s'.rank_le
    simp only [Stage.isLooking, Attempt.isLooking, Bool.toNat_true] at hlooks
    unfold stepsLeft
    omega
  · have hrank : s'.rank < (Stage.acquire q a).rank :=
      h.rank_lt hfree hlook hs
    unfold stepsLeft
    omega

/-- A request that waits for something that has not come still does so
afterwards. -/
theorem Moves.held_on (h : Moves w id (.acquire q a) flow v)
    (hheld : w.isHeld id (.acquire q a) = true)
    (hs : flow.stage? = some s') : v.isHeld id s' = true := by
  rw [isHeld, Bool.and_eq_true, holdsUp_iff] at hheld
  obtain ⟨⟨htimers, hnot⟩, htold⟩ := hheld
  cases h with
  | stayWaiting | awaits =>
    cases hs
    rw [isHeld, Bool.and_eq_true, holdsUp_iff]
    exact ⟨⟨htimers, hnot⟩, htold⟩
  | @stayConnecting _ _ _ call limit hcall hearly =>
    cases hs
    have hdue : ∀ t, (w.connectTimer limit).2.isDue t = w.isDue t := by
      intro t
      cases limit <;> rfl
    simp [isHeld, holdsUp, Stage.timers, Attempt.timers, Stage.isWaiting,
      Attempt.isWaiting, hdue, hcall, hearly]
  | told hring => simp [Stage.isWaiting, Attempt.isWaiting, hring] at htold
  | roused _ hdue | exhausted _ hdue | connect hdue | retry hdue | refused hdue
  | undone hdue | notUndone hdue | pinged hdue | notPinged hdue | allBad hdue
  | tryAgain hdue =>
    have hearly := hnot _ List.mem_cons_self
    cases hearly.symm.trans hdue
  | timeout => cases hs
  | _ => exact absurd rfl htimers

end Steps

/-! ## Who has no need to wait -/

/-- The request has a slot, or it is about to look and there is room. -/
inductive Provided (w : World) : Stage → Prop where
  | slot {q : Request} {a : Attempt} (hslot : a.hasSlot = true) :
      Provided w (.acquire q a)
  | looking {q : Request}
      (hroom : w.pool.idle.length + w.pool.active.length + w.pool.inFlight <
        w.config.maxActive) : Provided w (.acquire q .looking)

theorem Provided.not_waiting {w : World} {s : Stage} (h : w.Provided s) :
    s.isWaiting = false := by
  cases h with
  | @slot q a hslot =>
    cases a with
    | waiting => cases hslot
    | _ => rfl
  | looking => rfl

/-- A request that has no need to wait takes what is kept, or makes room, and
when it has closed a connection there is room again. -/
theorem Moves.provided {w v : World} {id : Nat} {s' : Stage} {flow : Flow}
    {q : Request} {a : Attempt} (h : Moves w id (.acquire q a) flow v)
    (hw : w.Tidy id (.acquire q a)) (hp : w.Provided (.acquire q a))
    (hs : flow.stage? = some s') : v.Provided s' := by
  have hroom : a = .looking → w.pool.idle.length + w.pool.active.length +
      w.pool.inFlight < w.config.maxActive := by
    rintro rfl
    cases hp with
    | slot hslot => cases hslot
    | looking hroom => exact hroom
  cases h with
  | ended | outOfReach | refused | timeout | lend | allBad | exhausted =>
    cases hs
  | claim _ _ hfull | wait _ _ hfull =>
    have := hroom rfl
    rw [Pool.hasRoom, decide_eq_false_iff_not] at hfull
    omega
  | tryAgain =>
    cases hs
    have htotal := hw.total
    have hpos := hw.slot rfl
    refine .looking ?_
    simp only [leave_frame, freeSlot_frame, hearAnswer_frame, Pool.free]
    omega
  | stayWaiting | told | roused => cases hp.not_waiting
  | awaits hcall =>
    cases hs
    exact hp
  | _ =>
    cases hs
    exact .slot rfl

/-! ## One step -/

/-- A request has made a step, and is at another stage now. -/
structure Paces (w : World) (id : Nat) (s : Stage) (v : World) (s' : Stage) :
    Prop where
  request : s'.isRequest = true
  looks : v.looksLeft id s' + s.isLooking.toNat ≤ w.looksLeft id s
  steps : w.isHeld id s = false → v.stepsLeft id s' < w.stepsLeft id s
  held : w.isHeld id s = true → v.isHeld id s' = true
  provided : w.Provided s → v.Provided s'

theorem Moves.paces {w v : World} {id : Nat} {s s' : Stage} {flow : Flow}
    (h : Moves w id s flow v) (hreq : s.isRequest = true) (hw : w.Tidy id s)
    (hs : flow.stage? = some s') : w.Paces id s v s' := by
  cases s with
  | start op =>
    cases op with
    | acquire =>
      cases h with
      | request =>
        cases hs
        refine ⟨rfl, Nat.le_refl _, fun _ => Nat.lt_succ_self _, ?_, ?_⟩
        all_goals exact nofun
      | tooFar => cases hs
      | ask hop | askLate hop => cases hop
      | awaits hcall => cases hcall
    | _ => cases hreq
  | acquire q a =>
    have hreq' : s'.isRequest = true := by
      cases h <;> cases hs <;> rfl
    exact ⟨hreq', h.looksLeft_le hw hs,
      fun hfree => h.stepsLeft_lt hw hfree hs,
      fun hheld => h.held_on hheld hs, fun hp => h.provided hw hp hs⟩
  | _ => cases hreq

/-- Both worlds are the same to a request, but for the server and the other
tasks. -/
structure SameView (w v : World) : Prop where
  config : v.config = w.config
  pool : v.pool = w.pool
  signal : v.signal = w.signal
  now : v.now = w.now

theorem Alike.sameView {w v : World} (h : Alike w v) : w.SameView v :=
  ⟨h.config, h.pool, h.signal, h.now⟩

namespace SameView

variable {w v : World}

theorem symm (h : w.SameView v) : v.SameView w :=
  ⟨h.config.symm, h.pool.symm, h.signal.symm, h.now.symm⟩

theorem looksLeft (h : w.SameView v) (id : Nat) (s : Stage) :
    v.looksLeft id s = w.looksLeft id s := by
  obtain ⟨hconfig, hpool, hsignal, hnow⟩ := h
  obtain ⟨config, server, pool, handles, signal, now, _, _, _, _, _, _⟩ := v
  subst hconfig hpool hsignal hnow
  rfl

theorem stepsLeft (h : w.SameView v) (id : Nat) (s : Stage) :
    v.stepsLeft id s = w.stepsLeft id s := by
  rw [World.stepsLeft, World.stepsLeft, h.looksLeft]

theorem isHeld (h : w.SameView v) (id : Nat) (s : Stage) :
    v.isHeld id s = w.isHeld id s := by
  simp only [World.isHeld, holdsUp, isDue, h.signal, h.now]

theorem provided (h : w.SameView v) {s : Stage} (hp : w.Provided s) :
    v.Provided s := by
  cases hp with
  | slot hslot => exact .slot hslot
  | looking hroom => exact .looking (by rw [h.pool, h.config]; exact hroom)

end SameView

/-- A step is the same to a request from a world and to a world that are the
same to it. -/
theorem Paces.congr {u w v v' : World} {id : Nat} {s s' : Stage}
    (h : w.Paces id s v s') (hw : w.SameView u) (hv : v.SameView v') :
    u.Paces id s v' s' where
  request := h.request
  looks := by
    rw [hv.looksLeft, hw.looksLeft]
    exact h.looks
  steps := by
    rw [hw.isHeld, hv.stepsLeft, hw.stepsLeft]
    exact h.steps
  held := by
    rw [hw.isHeld, hv.isHeld]
    exact h.held
  provided hp := hv.provided (h.provided (hw.symm.provided hp))

/-- A task that does one thing is over, or it is at the next stage, and apart
from tasks the world is as that left it. -/
theorem over_or_at {w w' : World} {id : Nat} {s : Stage} (hd : w.Distinct)
    (hmem : (id, s) ∈ w.roll) (ha : w.act (.run id) = some w') :
    w'.Over id ∨ ∃ flow v s', (w.pick id).Moves id s flow v ∧
      flow.stage? = some s' ∧ (id, s') ∈ w'.roll ∧ Alike v w' := by
  obtain ⟨t, ht, rfl⟩ := hd.task?_of_roll hmem
  obtain rfl := id_of_task? ht
  by_cases hthere : ∃ s', (t.id, s') ∈ w'.roll
  · obtain ⟨s', hs'⟩ := hthere
    rcases stage_act hd ha hs' with ⟨-, hne⟩ | ⟨hid, -⟩ |
      ⟨u, flow, v, -, hu, hmove, hs, halike⟩
    · exact absurd rfl hne
    · exact absurd hid (Nat.ne_of_lt (hd.lt t (mem_of_task? ht)))
    · obtain rfl := Option.some.inj (ht.symm.trans hu)
      exact .inr ⟨flow, v, s', moves_of_eq hmove, hs, hs', halike⟩
  · exact .inl (over_of_gone hd ht ha (not_exists.1 hthere))

/-- What the task and the server do not do changes nothing for a request. -/
theorem sameView_act {w w' : World} {a : Action} {id : Nat}
    (ha : w.act a = some w') (hstill : a.isStill id = true)
    (hne : a ≠ .run id) : w.SameView w' ∧ w'.roll = w.roll := by
  cases a with
  | run i =>
    have hid : i = id := by simpa [Action.isStill] using hstill
    exact absurd (congrArg Action.run hid) hne
  | rouse =>
    simp only [act] at ha
    split at ha
    · cases ha
      exact ⟨⟨rfl, rfl, rfl, rfl⟩, rfl⟩
    · cases ha
  | changeServer | markClosed | markManual =>
    cases ha
    exact ⟨⟨rfl, rfl, rfl, rfl⟩, rfl⟩
  | _ => cases hstill

/-! ## Looks in a run -/

/-- An action by which a request looks at the pool: the task that does so. -/
def looksBy (w : World) (a : Action) (_ : World) : List Nat :=
  match a with
  | .run id => if (w.task? id).any (·.stage.isLooking) then [id] else []
  | _ => []

/-- The tasks that looked at the pool in a run, once for each look, the last
one in front. -/
def looks (w : World) (as : List Action) : List Nat := w.along looksBy as

theorem count_looksBy {w : World} (hd : w.Distinct) {id : Nat} {s : Stage}
    (hmem : (id, s) ∈ w.roll) (w' : World) :
    (w.looksBy (.run id) w').count id = s.isLooking.toNat := by
  obtain ⟨t, ht, rfl⟩ := hd.task?_of_roll hmem
  rw [looksBy, ht, Option.any_some]
  cases t.stage.isLooking <;> simp

theorem count_looksBy_ne {w : World} {a : Action} {id : Nat} (hne : a ≠ .run id)
    (w' : World) : (w.looksBy a w').count id = 0 := by
  rw [List.count_eq_zero]
  intro hmem
  cases a with
  | run i =>
    simp only [looksBy] at hmem
    split at hmem
    · rw [List.mem_singleton.1 hmem] at hne
      exact hne rfl
    · cases hmem
  | _ => cases hmem

theorem Over.count_looksBy {w : World} {id : Nat} (h : w.Over id)
    (a : Action) (w' : World) : (w.looksBy a w').count id = 0 := by
  by_cases ha : a = .run id
  · subst ha
    rw [looksBy, h.task?_eq]
    rfl
  · exact count_looksBy_ne ha w'

end World

section Runs

variable {c : Config} {s : Server} {as later : List Action} {a : Action}
  {w w' : World} {id : Nat} {st : Stage}

theorem Run.looks_cons (h : Run c s as w) (ha : w.act a = some w') (id : Nat) :
    ((World.new c s).looks (a :: as)).count id =
      (w.looksBy a w').count id + ((World.new c s).looks as).count id := by
  rw [World.looks, h.along_cons _ ha, List.count_append]
  rfl

theorem Run.tidy (h : Run c s as w) (hmem : (id, st) ∈ w.roll) :
    w.Tidy id st := by
  obtain ⟨t, ht, rfl⟩ := (World.distinct_of_run h).task?_of_roll hmem
  obtain rfl := World.id_of_task? ht
  have ht := World.mem_of_task? ht
  refine ⟨?_, inFlight_pos_of_run h ht, (World.fair_of_run h).joined t ht⟩
  rw [h.config_fits.1]
  exact (bounded_of_run h).2.2.1

/-- A request that does one thing is over, or it has made a step. -/
theorem Run.paces (h : Run c s as w) (hmem : (id, st) ∈ w.roll)
    (hreq : st.isRequest = true) (ha : w.act (.run id) = some w') :
    w'.Over id ∨ ∃ st', (id, st') ∈ w'.roll ∧ w.Paces id st w' st' := by
  rcases World.over_or_at (World.distinct_of_run h) hmem ha with hover |
    ⟨flow, v, st', hmoves, hs, hmem', halike⟩
  · exact .inl hover
  · obtain ⟨htotal, hslot, hmembers⟩ := h.tidy hmem
    have hpaces := hmoves.paces hreq ⟨htotal, hslot, hmembers⟩ hs
    exact .inr ⟨st', hmem',
      hpaces.congr ⟨rfl, rfl, rfl, rfl⟩ halike.sameView⟩

/-- A request has come to a stage in a stretch in which only it went on. -/
structure Pace (c : Config) (s : Server) (as later : List Action) (id : Nat)
    (st : Stage) (w : World) (st' : Stage) (w' : World) : Prop where
  request : st'.isRequest = true
  /-- It has looked as often as it could, and can look so often again. -/
  looks : ((World.new c s).looks (later ++ as)).count id +
      w'.looksLeft id st' ≤
    ((World.new c s).looks as).count id + w.looksLeft id st
  /-- It waits for something that has not come, or each of its steps has
  brought it nearer to that. -/
  steps : w'.isHeld id st' = true ∨
    later.count (.run id) + w'.stepsLeft id st' ≤ w.stepsLeft id st
  provided : w.Provided st → w'.Provided st'

/-- A request that goes on keeps its pace. -/
theorem Pace.own {u u' : World} {st' st'' : Stage}
    (h : Pace c s as later id st w st' u) (hu : Run c s (later ++ as) u)
    (hmem : (id, st') ∈ u.roll) (ha : u.act (.run id) = some u')
    (hp : u.Paces id st' u' st'') :
    Pace c s as (.run id :: later) id st w st'' u' where
  request := hp.request
  looks := by
    have hlooks := h.looks
    have hnext := hp.looks
    rw [List.cons_append, hu.looks_cons ha,
      World.count_looksBy (World.distinct_of_run hu) hmem]
    omega
  steps := by
    cases hheld : u.isHeld id st' with
    | true => exact .inl (hp.held hheld)
    | false =>
      have hsteps := h.steps.resolve_left (by rw [hheld]; exact nofun)
      have hnext := hp.steps hheld
      refine .inr ?_
      rw [List.count_cons_self]
      omega
  provided hfirst := hp.provided (h.provided hfirst)

/-- What others do is no matter to the pace of a request. -/
theorem Pace.other {u u' : World} {st' : Stage}
    (h : Pace c s as later id st w st' u) (hu : Run c s (later ++ as) u)
    (ha : u.act a = some u') (hne : a ≠ .run id) (hview : u.SameView u') :
    Pace c s as (a :: later) id st w st' u' where
  request := h.request
  looks := by
    rw [List.cons_append, hu.looks_cons ha, World.count_looksBy_ne hne,
      Nat.zero_add, hview.looksLeft]
    exact h.looks
  steps := by
    rw [hview.isHeld, hview.stepsLeft, List.count_cons_of_ne hne]
    exact h.steps
  provided hfirst := hview.provided (h.provided hfirst)

/-- In a stretch in which only it goes on, a request keeps its pace until it is
over. -/
theorem Run.paced (h : Run c s as w) (hmem : (id, st) ∈ w.roll)
    (hreq : st.isRequest = true) (h' : Run c s (later ++ as) w')
    (hstill : ∀ a ∈ later, a.isStill id = true) :
    (w'.Over id ∧ ((World.new c s).looks (later ++ as)).count id ≤
        ((World.new c s).looks as).count id + w.looksLeft id st) ∨
      ∃ st', (id, st') ∈ w'.roll ∧ Pace c s as later id st w st' w' := by
  induction later generalizing w' with
  | nil =>
    cases h.unique h'
    exact .inr ⟨st, hmem, hreq, Nat.le_refl _, .inr (by simp), fun hp => hp⟩
  | cons a later ih =>
    cases h' with
    | @act _ _ u _ hu ha =>
      have hu : Run c s (later ++ as) u := hu
      have hd := World.distinct_of_run hu
      have hfirst := hstill a List.mem_cons_self
      rcases ih hu fun b hb => hstill b (List.mem_cons_of_mem _ hb) with
        ⟨hover, hlooks⟩ | ⟨st', hmem', hpace⟩
      · refine .inl ⟨hover.act hd ha, ?_⟩
        rw [List.cons_append, hu.looks_cons ha, hover.count_looksBy,
          Nat.zero_add]
        exact hlooks
      · by_cases hne : a = .run id
        · subst hne
          rcases hu.paces hmem' hpace.request ha with hover |
            ⟨st'', hmem'', hpaces⟩
          · have hlooks := hpace.looks
            have hlast := World.isLooking_le u id st'
            refine .inl ⟨hover, ?_⟩
            rw [List.cons_append, hu.looks_cons ha,
              World.count_looksBy hd hmem']
            omega
          · exact .inr ⟨st'', hmem'', hpace.own hu hmem' ha hpaces⟩
        · obtain ⟨hview, hroll⟩ := World.sameView_act ha hfirst hne
          exact .inr ⟨st', hroll ▸ hmem', hpace.other hu ha hne hview⟩

/-- A request never spins.  In a stretch in which no time goes by and only it
and the server do anything, it looks at the pool at most once for each
connection that is kept, and twice more.  After so many steps it is over, or it
waits for a call, a timer or a release, and nothing of that has come.  If it has
a slot, as it has while it closes a connection, then it does not come to wait
for a release at all, so no ring of its own keeps it going.  And a wait never
begins with an alarm for a moment that has come already, unless the deadline
has come. -/
theorem never_spins_of_run (h : Run c s as w) (hmem : (id, st) ∈ w.roll)
    (hreq : st.isRequest = true) :
    (∀ later w', Run c s (later ++ as) w' →
      (∀ a ∈ later, a.isStill id = true) →
        ((World.new c s).looks (later ++ as)).count id ≤
            ((World.new c s).looks as).count id + w.pool.idle.length + 2 ∧
          (11 * w.pool.idle.length + 32 < later.count (.run id) →
            w'.Over id ∨
              ∃ st', (id, st') ∈ w'.roll ∧ w'.isHeld id st' = true) ∧
          (st.hasSlot = true →
            ∀ st', (id, st') ∈ w'.roll → st'.isWaiting = false)) ∧
      ∀ q since alarm, st = .acquire q (.waiting since alarm) →
        ∃ v wake, Began c s as id q since alarm v ∧
          v.pool.nextOverdue c.timeouts.checkout = .ok wake ∧
          alarm.due = Time.tick (wake.elim q.deadline (min q.deadline)) ∧
          (since < wake.elim q.deadline (min q.deadline) ∨
            q.deadline ≤ since) := by
  refine ⟨fun later w' h' hstill => ?_, ?_⟩
  · have hleft := w.looksLeft_le id st
    rcases h.paced hmem hreq h' hstill with ⟨hover, hlooks⟩ |
      ⟨st', hmem', hpace⟩
    · refine ⟨by omega, fun _ => .inl hover, fun _ st' hmem' => ?_⟩
      exact absurd rfl (hover.2 _ hmem')
    · have hlooks := hpace.looks
      refine ⟨by omega, fun hmany => .inr ⟨st', hmem', ?_⟩,
        fun hslot st'' hmem'' => ?_⟩
      · rcases hpace.steps with hheld | hsteps
        · exact hheld
        · have hbound := w.stepsLeft_le id st
          omega
      · obtain rfl :=
          (World.distinct_of_run h').stage_unique hmem' hmem''
        refine (hpace.provided ?_).not_waiting
        cases st with
        | acquire q a => exact .slot hslot
        | start => cases hslot
        | _ => cases hreq
  · rintro q since alarm rfl
    obtain ⟨v, hbegan, hset, -, -⟩ := began_of_run h hmem
    obtain ⟨wake, hwake, hdue⟩ := hset.due
    refine ⟨v, wake, hbegan, hwake, hdue, ?_⟩
    rw [← hbegan.now]
    by_cases hearly : v.now < q.deadline
    · exact .inl (Pool.lt_alarm hset.prompt hwake hearly)
    · exact .inr (Nat.le_of_not_lt hearly)

end Runs

/-- A request that finds two connections closed looks once for each of them, and
once for the room that is left then. -/
theorem never_spins_bothClosed :
    ∃ w w', Run { maxActive := 2 } {} (.start .acquire none :: bothKept) w ∧
      (4, .start .acquire) ∈ w.roll ∧ w.pool.idle.length = 2 ∧
      (∀ a ∈ bothClosed, a.isStill 4 = true) ∧
      Run { maxActive := 2 } {}
        (bothClosed ++ .start .acquire none :: bothKept) w' ∧
      w'.tasks = [] ∧
      ((World.new { maxActive := 2 } {}).looks
        (.start .acquire none :: bothKept)).count 4 = 0 ∧
      ((World.new { maxActive := 2 } {}).looks
        (bothClosed ++ .start .acquire none :: bothKept)).count 4 = 3 ∧
      ((World.new { maxActive := 2 } {}).looks
        (bothClosed ++ .start .acquire none :: bothKept)).count 4 ≤
          0 + 2 + 2 := by
  have hw : ∃ w, Run { maxActive := 2 } {} (.start .acquire none :: bothKept) w ∧
      (4, .start .acquire) ∈ w.roll ∧ w.pool.idle.length = 2 :=
    Run.exists_of_replay rfl rfl (by decide +kernel)
  have hw' : ∃ w', Run { maxActive := 2 } {}
        (bothClosed ++ .start .acquire none :: bothKept) w' ∧
      w'.tasks = [] :=
    Run.exists_of_replay rfl rfl (by decide +kernel)
  have hstill : ∀ a ∈ bothClosed, a.isStill 4 = true := by decide
  have hbefore : ((World.new { maxActive := 2 } {}).looks
      (.start .acquire none :: bothKept)).count 4 = 0 := by decide +kernel
  have hafter : ((World.new { maxActive := 2 } {}).looks
      (bothClosed ++ .start .acquire none :: bothKept)).count 4 = 3 := by
    decide +kernel
  obtain ⟨w, h, hmem, hidle⟩ := hw
  obtain ⟨w', h', hover⟩ := hw'
  obtain ⟨hlooks, -⟩ := (never_spins_of_run h hmem rfl).1 _ _ h' hstill
  rw [hbefore, hidle] at hlooks
  exact ⟨w, w', h, hmem, hidle, hstill, h', hover, hbefore, hafter, hlooks⟩

end DatabasePool
