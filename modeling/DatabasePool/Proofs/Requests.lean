import DatabasePool.Proofs.Overdue
import DatabasePool.Proofs.Records

/-!
# When requests are made

A request is made when an operation is started that is to get a connection.
Its task can go on at once, and no time goes by before it does, so the moment
that the task keeps is the one at which the request was made.

* `World.requestsIn` are the requests of a run.
* `World.start_act` says that an operation is begun only after it was started.
* `Moves.asked` says that a task keeps the moment of its request.
* `Run.keeps_requests` puts this together.
-/

namespace DatabasePool

namespace World

/-- The request that an action makes: the number of its task, and the
moment. -/
def requestMade (w : World) (a : Action) (_ : World) : List (Nat × Nat) :=
  match a with
  | .start .acquire _ => [(w.nextTask, w.now)]
  | _ => []

/-- The requests of a run, the last one in front. -/
def requestsIn (w : World) (as : List Action) : List (Nat × Nat) :=
  w.along requestMade as

/-- When the task made its request. -/
def askedIn (w : World) (as : List Action) (task : Nat) : Nat :=
  ((w.requestsIn as).lookup task).getD 0

/-! ## Where tasks come from that have not begun -/

/-- A task that has begun does not begin again. -/
theorem Moves.stage?_ne_start {w v : World} {id : Nat} {s : Stage}
    {flow : Flow} (h : Moves w id s flow v) (op : Operation) :
    flow.stage? ≠ some (.start op) := by
  intro hstage
  cases h with
  | awaits hcall =>
    cases hstage
    cases hcall
  | _ => cases hstage

/-- A task that is started comes last on the roll. -/
theorem mem_roll_spawn {w : World} {s : Stage} {limit : Option Limit}
    {x : Nat × Stage} (hx : x ∈ (w.spawn s limit).roll) :
    x ∈ w.roll ∨ x = (w.nextTask, s) := by
  rw [roll, spawn, List.map_append, List.mem_append] at hx
  exact hx.imp_right List.mem_singleton.1

/-- A task that has not begun was there before, and nothing happened to it, or
its operation is started right now. -/
theorem start_act {w w' : World} {a : Action} (hd : w.Distinct)
    (ha : w.act a = some w') {id : Nat} {op : Operation}
    (hx : (id, .start op) ∈ w'.roll) :
    ((id, .start op) ∈ w.roll ∧ a.task? ≠ some id) ∨
      id = w.nextTask ∧ ∃ limit, a = .start op limit := by
  rcases stage_act hd ha hx with hold | ⟨hid, -⟩ |
    ⟨t, flow, v, -, -, hmove, hstage, -⟩
  · exact .inl hold
  · refine .inr ⟨hid, ?_⟩
    have hlt : ∀ x ∈ w.roll, x.1 < w.nextTask := by
      intro x hmem
      obtain ⟨t, ht, rfl⟩ := List.mem_map.1 hmem
      exact hd.lt t ht
    have hnot : (id, .start op) ∉ w.roll := fun hmem =>
      absurd hid (Nat.ne_of_lt (hlt _ hmem))
    cases acts hd ha with
    | start op' limit =>
      cases (mem_roll_spawn hx).resolve_left hnot
      exact ⟨limit, rfl⟩
    | forget => cases (mem_roll_spawn hx).resolve_left hnot
    | @run t _ v _ ht hmove hdv hv hothers hf =>
      rcases hf.mem_roll hdv hv hx with hmem | ⟨he, -⟩ | ⟨-, conn, hconn⟩
      · obtain ⟨u, hu, he⟩ := List.mem_map.1 hmem
        rw [hothers] at hu
        exact absurd (he ▸ List.mem_map_of_mem (mem_others.1 hu).1) hnot
      · have := hlt _ (mem_roll_of_task? ht)
        have he : id = t.id := he
        omega
      · cases hconn
    | @cancel t outside ht =>
      have hroll := roll_dropTask outside (hd.lt t (mem_of_task? ht))
      have hx : (id, .start op) ∈ (w.dropTask outside t).roll := hx
      rw [hroll, List.mem_append] at hx
      rcases hx with hmem | hmem
      · obtain ⟨u, hu, he⟩ := List.mem_map.1 hmem
        exact absurd (he ▸ List.mem_map_of_mem (mem_others.1 hu).1) hnot
      · obtain ⟨s', hs', he⟩ := List.mem_map.1 hmem
        obtain ⟨conn, rfl⟩ := Stage.mem_strays hs'
        cases he
    | _ => exact absurd hx hnot
  · exact absurd hstage ((moves_of_eq hmove).stage?_ne_start op)

/-! ## What a task keeps -/

/-- A request is made when its task begins, and is kept from then on. -/
theorem Moves.asked {w v : World} {id : Nat} {s : Stage} {flow : Flow}
    (h : Moves w id s flow v) {q : Request} {b : Attempt}
    (hstage : flow.stage? = some (.acquire q b)) :
    (s = .start .acquire ∧ q.since = w.now) ∨
      ∃ p b', s = .acquire p b' ∧ p.since = q.since := by
  cases h with
  | request =>
    cases hstage
    exact .inl ⟨rfl, rfl⟩
  | @tryAgain r _ bad =>
    cases hstage
    refine .inr ⟨r, _, rfl, ?_⟩
    cases bad <;> rfl
  | awaits =>
    cases hstage
    exact .inr ⟨q, b, rfl, rfl⟩
  | _ => cases hstage <;> exact .inr ⟨_, _, rfl, rfl⟩

end World

/-! ## Runs -/

/-- The requests of a run, and what the tasks know of them. -/
structure Requested (calls : List (Nat × Nat)) (w : World) : Prop where
  nodup : (calls.map (·.1)).Nodup
  lt : ∀ x ∈ calls, x.1 < w.nextTask
  /-- A task that has not begun can go on, and time stands still. -/
  start : ∀ id, (id, .start .acquire) ∈ w.roll →
    (id, w.now) ∈ calls ∧ id ∈ w.ready
  acquire : ∀ (id : Nat) (q : Request) (b : Attempt),
    (id, .acquire q b) ∈ w.roll → (id, q.since) ∈ calls

namespace Run

variable {c : Config} {s : Server} {as : List Action} {w : World}

/-- A task has the number under which its request was made, and keeps the
moment at which that was. -/
theorem keeps_requests (h : Run c s as w) :
    Requested ((World.new c s).requestsIn as) w := by
  induction h with
  | new hs hw =>
    obtain ⟨-, -, rfl⟩ := Run.new_iff.1 (.new hs hw)
    constructor
    case nodup => exact List.nodup_nil
    all_goals
      intros
      contradiction
  | @act as a w w' h ha ih =>
    have hd := World.distinct_of_run h
    rw [World.requestsIn, h.along_cons _ ha]
    change Requested (w.requestMade a w' ++ (World.new c s).requestsIn as) w'
    generalize (World.new c s).requestsIn as = calls at ih
    have hold : ∀ {x : Nat × Nat}, x ∈ calls →
        x ∈ w.requestMade a w' ++ calls := List.mem_append_right _
    have hlt : ∀ x ∈ calls, x.1 < w'.nextTask := fun x hx =>
      Nat.lt_of_lt_of_le (ih.lt x hx) (World.nextTask_act hd ha)
    have hmade : w.requestMade a w' = [] ∨
        w.requestMade a w' = [(w.nextTask, w.now)] ∧
          w.nextTask < w'.nextTask := by
      cases World.acts hd ha with
      | start op limit =>
        cases op with
        | acquire => exact .inr ⟨rfl, Nat.lt_succ_self _⟩
        | _ => exact .inl rfl
      | _ => exact .inl rfl
    constructor
    case nodup =>
      rcases hmade with he | ⟨he, -⟩
      · rw [he]
        exact ih.nodup
      · rw [he, List.singleton_append, List.map_cons, List.nodup_cons]
        refine ⟨fun hmem => ?_, ih.nodup⟩
        obtain ⟨x, hx, hid⟩ := List.mem_map.1 hmem
        exact absurd hid (Nat.ne_of_lt (ih.lt x hx))
    case lt =>
      intro x hx
      rcases List.mem_append.1 hx with hx | hx
      · rcases hmade with he | ⟨he, hnext⟩
        · rw [he] at hx
          cases hx
        · rw [he] at hx
          obtain rfl := List.mem_singleton.1 hx
          exact hnext
      · exact hlt x hx
    case start =>
      intro id hx
      rcases World.start_act hd ha hx with ⟨hmem, hne⟩ | ⟨rfl, limit, rfl⟩
      · obtain ⟨hcall, hready⟩ := ih.start id hmem
        refine ⟨?_, World.mem_ready_act ha hready hne⟩
        rcases (h.happens ha).loans.2.1 with he | ⟨moment, rfl⟩
        · rw [he]
          exact hold hcall
        · rw [(World.act_advance ha).1] at hready
          cases hready
      · cases World.acts hd ha with
        | start =>
          exact ⟨List.mem_cons_self,
            List.mem_append_right _ List.mem_cons_self⟩
    case acquire =>
      intro id q b hx
      rcases World.stage_act hd ha hx with ⟨hmem, -⟩ | ⟨-, hfresh⟩ |
        ⟨t, flow, v, -, ht, hmove, hstage, -⟩
      · exact hold (ih.acquire id q b hmem)
      · obtain ⟨op, he⟩ | ⟨lease, he⟩ | ⟨conn, he⟩ := hfresh <;> cases he
      · have hmem := World.mem_roll_of_task? ht
        rcases (World.moves_of_eq hmove).asked hstage with ⟨hs, hsince⟩ |
          ⟨p, b', hs, hsince⟩
        · rw [hs] at hmem
          rw [hsince]
          exact hold (ih.start id hmem).1
        · rw [hs] at hmem
          rw [← hsince]
          exact hold (ih.acquire id p b' hmem)

/-- Each request of a run is found under its number. -/
theorem askedIn_eq (h : Run c s as w) {x : Nat × Nat}
    (hx : x ∈ (World.new c s).requestsIn as) :
    (World.new c s).askedIn as x.1 = x.2 := by
  have hnodup := h.keeps_requests.nodup
  rw [World.askedIn]
  generalize (World.new c s).requestsIn as = calls at hx hnodup
  induction calls with
  | nil => cases hx
  | cons y calls ih =>
    obtain ⟨id, moment⟩ := y
    rw [List.map_cons, List.nodup_cons] at hnodup
    rcases List.mem_cons.1 hx with rfl | hx
    · rw [List.lookup_cons_self]
      rfl
    · have hne : x.1 ≠ id := fun he =>
        hnodup.1 (List.mem_map.2 ⟨x, hx, he⟩)
      rw [List.lookup_cons, beq_eq_false_iff_ne.2 hne]
      exact ih hx hnodup.2

end Run

end DatabasePool
