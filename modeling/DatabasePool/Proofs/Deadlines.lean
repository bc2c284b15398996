import DatabasePool.Proofs.Requests

/-!
# Waits and their deadlines

A request that finds nothing to be had sets an alarm and waits, and it may do
so any number of times: it is told of a release and comes too late for what was
released, or it is roused because a loan is overdue and another one takes that.
Between two waits it may open, try and discard connections for as long as the
server takes.  All its alarms are set for its deadline at the latest, and it
fails only if it has reached that.

* `World.Moves.exhausts` says when a task fails because of its deadline.
* `SetsAlarm.due_le` says that no alarm is set for later than the deadline.
* `deadline_of_run` says that no request fails early and none waits for too
  long.
-/

namespace DatabasePool

/-- A task that fails because it has waited for too long was waiting, and its
deadline has come. -/
theorem World.Moves.exhausts {w v : World} {id span : Nat} {s : Stage}
    (h : w.Moves id s (.finish (.failed (.exhausted span))) v) :
    span = w.config.timeouts.wait ∧ ∃ q since alarm,
      s = .acquire q (.waiting since alarm) ∧ q.deadline ≤ w.now := by
  generalize hflow : Flow.finish (.failed (.exhausted span)) = flow at h
  cases h with
  | exhausted _ _ hlate =>
    cases hflow
    exact ⟨rfl, _, _, _, rfl, hlate⟩
  | @denied _ raw => cases raw <;> cases hflow
  | _ => cases hflow

/-- No alarm is set for later than the deadline. -/
theorem SetsAlarm.due_le {c : Config} {V : Scene} {q : Request} {alarm : Timer}
    (h : SetsAlarm c V q alarm) (hwhole : q.deadline % Time.perMilli = 0) :
    alarm.due ≤ q.deadline := by
  obtain ⟨wake, -, hdue⟩ := h.due
  have hmin : wake.elim q.deadline (min q.deadline) ≤ q.deadline := by
    cases wake with
    | none => exact Nat.le_refl _
    | some moment => exact Nat.min_le_left ..
  rw [hdue]
  exact Time.tick_le hmin hwhole

section Runs

variable {c : Config} {s : Server} {as : List Action} {w : World}

/-- The deadline of a request is the moment at which it was made and the time
for which it may wait. -/
theorem Run.deadline_eq (h : Run c s as w) {id : Nat} {q : Request}
    {b : Attempt} (hx : (id, .acquire q b) ∈ w.roll) :
    (id, (World.new c s).askedIn as id) ∈ (World.new c s).requestsIn as ∧
      q.deadline = (World.new c s).askedIn as id + c.timeouts.wait ∧
        (World.new c s).askedIn as id % Time.perMilli = 0 := by
  have hcall := h.keeps_requests.acquire id q b hx
  have hasked : (World.new c s).askedIn as id = q.since := h.askedIn_eq hcall
  obtain ⟨-, hwhole, hdeadline⟩ := h.requests _ hx q rfl
  rw [hasked]
  exact ⟨hcall, hdeadline, hwhole⟩

/-- A request that was made is found again after more actions. -/
theorem Run.askedIn_cons (h : Run c s as w) {a : Action} {w' : World}
    (ha : w.act a = some w') {id asked : Nat}
    (hx : (id, asked) ∈ (World.new c s).requestsIn as) :
    (id, asked) ∈ (World.new c s).requestsIn (a :: as) ∧
      (World.new c s).askedIn (a :: as) id = asked := by
  have hmem : (id, asked) ∈ (World.new c s).requestsIn (a :: as) := by
    rw [World.requestsIn, h.along_cons _ ha]
    exact List.mem_append_right _ hx
  exact ⟨hmem, (Run.act h ha).askedIn_eq hmem⟩

/-- A request that has failed because it waited for too long was made, and had
waited for as long as it may. -/
theorem Run.exhausted (h : Run c s as w) {moment id span : Nat}
    (hmem : (moment, .ended id (.failed (.exhausted span))) ∈ w.history) :
    span = c.timeouts.wait ∧
      (id, (World.new c s).askedIn as id) ∈ (World.new c s).requestsIn as ∧
        (World.new c s).askedIn as id + c.timeouts.wait ≤ moment := by
  induction h with
  | new hs hw =>
    obtain ⟨-, -, rfl⟩ := Run.new_iff.1 (.new hs hw)
    cases hmem
  | @act as a w w' h ha ih =>
    have hlater : ∀ {asked : Nat},
        (id, asked) ∈ (World.new c s).requestsIn as →
        asked + c.timeouts.wait ≤ moment →
        (id, (World.new c s).askedIn (a :: as) id) ∈
            (World.new c s).requestsIn (a :: as) ∧
          (World.new c s).askedIn (a :: as) id + c.timeouts.wait ≤ moment := by
      intro asked hcall hle
      obtain ⟨hcall', hasked⟩ := h.askedIn_cons ha hcall
      rw [hasked]
      exact ⟨hcall', hle⟩
    rcases h.tells ha hmem with hold | ⟨rfl, htells⟩
    · obtain ⟨hspan, hcall, hle⟩ := ih hold
      exact ⟨hspan, hlater hcall hle⟩
    · cases htells with
      | writes _ _ he => cases he.1
      | ended ht hmove =>
        obtain ⟨hspan, q, since, alarm, hstage, hlate⟩ :=
          (World.moves_of_eq hmove).exhausts
        have hroll := World.mem_roll_of_task? ht
        rw [hstage] at hroll
        obtain ⟨hcall, hdeadline, -⟩ := h.deadline_eq hroll
        have hconfig : w.config = c := h.config_fits.1
        refine ⟨?_, hlater hcall ?_⟩
        · rw [← hconfig]
          exact hspan
        · rw [← hdeadline]
          exact hlate

/-- A request that fails because it has waited for too long is told for how
long it may wait, and it was made at least so long ago.  With times to wait in
whole milliseconds, a request that waits has not reached its deadline whenever
the world is at rest, and no time goes by past its deadline while it waits,
whatever it has done and whoever has woken it before. -/
theorem deadline_of_run (hwhole : c.timeouts.wait % Time.perMilli = 0)
    (h : Run c s as w) :
    (∀ moment id span,
      (moment, .ended id (.failed (.exhausted span))) ∈ w.history →
        span = c.timeouts.wait ∧
        (id, (World.new c s).askedIn as id) ∈ (World.new c s).requestsIn as ∧
        (World.new c s).askedIn as id + c.timeouts.wait ≤ moment) ∧
    ∀ t ∈ w.tasks, ∀ q since alarm,
      t.stage = .acquire q (.waiting since alarm) →
        (t.id, (World.new c s).askedIn as t.id) ∈
          (World.new c s).requestsIn as ∧
        (w.atRest = true →
          w.now < (World.new c s).askedIn as t.id + c.timeouts.wait) ∧
        (w.now = since ∨
          w.now ≤ (World.new c s).askedIn as t.id + c.timeouts.wait) := by
  refine ⟨fun _ _ _ => h.exhausted, fun t ht q since alarm hstage => ?_⟩
  have hx : (t.id, .acquire q (.waiting since alarm)) ∈ w.roll :=
    List.mem_map.2 ⟨t, ht, by rw [World.tag, hstage]⟩
  obtain ⟨hcall, hdeadline, hasked⟩ := h.deadline_eq hx
  obtain ⟨v, -, hset, -, hpast⟩ := began_of_run h hx
  have hdue : alarm.due ≤ q.deadline := by
    refine hset.due_le ?_
    rw [hdeadline, Nat.add_mod, hasked, hwhole]
    rfl
  rw [← hdeadline]
  refine ⟨hcall, fun hrest => ?_, hpast.imp_right (Nat.le_trans · hdue)⟩
  exact Nat.lt_of_lt_of_le (h.now_lt_alarm hx hrest) hdue

/-- One connection at most, for which a request may wait for a moment. -/
def briefWaits : Config :=
  { maxActive := 1, maxIdle := 1
    timeouts := { wait := Time.ofMillis 100 } }

/-- A request waits, and what is given back meanwhile is lent to another one.
So it waits again. -/
def toldInVain : List Action :=
  [.run 1, .run 1, .run 1, .run 3, .run 3, .run 3, .run 3, .run 2, .run 2,
    .run 2, .start .acquire none, .start (.close 0) none,
    .advance (Time.ofMillis 50), .run 1, .run 1, .run 1, .start .acquire none,
    .run 0, .run 0, .run 0, .run 0, .run 0, .start .acquire none]

/-- It waits for the second time before its deadline, and fails then. -/
theorem deadline_toldInVain :
    briefWaits.timeouts.wait % Time.perMilli = 0 ∧
    (∃ w, Run briefWaits {} toldInVain w ∧ w.atRest = true ∧
      (∃ t ∈ w.tasks, t.id = 1 ∧ t.stage =
        .acquire ⟨0, Time.ofMillis 100, 0⟩
          (.waiting (Time.ofMillis 50) ⟨Time.ofMillis 100, 2⟩)) ∧
      w.now < Time.ofMillis 0 + briefWaits.timeouts.wait) ∧
    ∃ w, Run briefWaits {}
        (.run 1 :: .advance (Time.ofMillis 100) :: toldInVain) w ∧
      (Time.ofMillis 100,
        .ended 1 (.failed (.exhausted (Time.ofMillis 100)))) ∈ w.history ∧
      Time.ofMillis 100 = briefWaits.timeouts.wait ∧
      Time.ofMillis 0 + briefWaits.timeouts.wait ≤ Time.ofMillis 100 := by
  have hwhole : briefWaits.timeouts.wait % Time.perMilli = 0 := by decide
  refine ⟨hwhole, ?_, ?_⟩
  · have hex : ∃ w, Run briefWaits {} toldInVain w ∧ w.atRest = true ∧
        ∃ t ∈ w.tasks, t.id = 1 ∧ t.stage =
          .acquire ⟨0, Time.ofMillis 100, 0⟩
            (.waiting (Time.ofMillis 50) ⟨Time.ofMillis 100, 2⟩) :=
      Run.exists_of_replay rfl rfl (by decide +kernel)
    have hasked : (World.new briefWaits {}).askedIn toldInVain 1 =
        Time.ofMillis 0 := by decide +kernel
    obtain ⟨w, h, hrest, t, ht, hid, hstage⟩ := hex
    obtain ⟨-, hlt, -⟩ := (deadline_of_run hwhole h).2 t ht _ _ _ hstage
    rw [hid, hasked] at hlt
    exact ⟨w, h, hrest, ⟨t, ht, hid, hstage⟩, hlt hrest⟩
  · have hex : ∃ w, Run briefWaits {}
        (.run 1 :: .advance (Time.ofMillis 100) :: toldInVain) w ∧
        (Time.ofMillis 100,
          .ended 1 (.failed (.exhausted (Time.ofMillis 100)))) ∈ w.history :=
      Run.exists_of_replay rfl rfl (by decide +kernel)
    have hasked : (World.new briefWaits {}).askedIn
        (.run 1 :: .advance (Time.ofMillis 100) :: toldInVain) 1 =
        Time.ofMillis 0 := by decide +kernel
    obtain ⟨w, h, hmem⟩ := hex
    obtain ⟨hspan, -, hle⟩ := (deadline_of_run hwhole h).1 _ _ _ hmem
    rw [hasked] at hle
    exact ⟨w, h, hmem, hspan, hle⟩

end Runs

end DatabasePool
