import DatabasePool.Proofs.Entries
import Mathlib.Data.List.Nodup

/-!
# One place for each connection

The pool keeps a connection, has lent it, has it in a slot, or is done with
it.  It is done with a connection when it has begun to close it, when a task
is to begin that, or when the connection was dropped where no task could be
started.  Nothing brings such a connection back.

* `Does.charge` says for each thing that a task does how it moves connections
  from place to place.
* `one_place_of_run` says that each connection that was ever opened is in one
  place, and that there is no way back for those that are discarded.
-/

namespace DatabasePool

/-! ## What a task is in charge of -/

/-- The connections that a task is in charge of: the one in its slot, and
those that it is to begin to close. -/
def Stage.charge (s : Stage) : List Nat :=
  s.hand.entry?.toList.map (·.conn) ++ s.todo

/-- The connections that a task is in charge of from then on. -/
def Flow.charge (f : Flow) : List Nat :=
  f.hand.entry?.toList.map (·.conn) ++ f.todo

theorem Flow.flatMap_charge (f : Flow) (id : Nat) :
    (f.stage?.toList.map (id, ·)).flatMap (·.2.charge) = f.charge := by
  cases f with
  | finish o => rfl
  | _ => exact List.append_nil _

/-- The connections that no task is in charge of: those that are kept, those
that are lent, those of which the pool has begun to close, and those that were
dropped where they could not be closed. -/
def Scene.shelved (V : Scene) (B : List Nat) : List Nat :=
  V.entries.map (·.conn) ++ (B ++ V.abandoned)

theorem Does.abandoned {c : Config} {V V' : Scene} {s : Stage} {flow : Flow}
    {closes : List Nat} (h : Does c V s flow closes V') :
    V'.abandoned = V.abandoned := by
  cases h <;> rfl

/-- A task moves connections from place to place.  A new one comes to its
first place when it is opened. -/
theorem Does.charge {c : Config} {V V' : Scene} {s : Stage} {flow : Flow}
    {closes : List Nat} (h : Does c V s flow closes V') (B : List Nat)
    (conn : Nat) :
    (V'.shelved (closes ++ B)).count conn + flow.charge.count conn +
        (List.range V.total).count conn =
      (V.shelved B).count conn + s.charge.count conn +
        (List.range V'.total).count conn := by
  obtain ⟨gone, fresh, ht⟩ := h.entries (f := (·.conn))
    ⟨fun _ _ => rfl, fun _ => rfl, fun _ _ => rfl⟩
  have hentries := ht.entries.count_eq conn
  have hcloses := ht.closes.count_eq conn
  simp only [List.map_append, List.count_append] at hentries hcloses
  simp only [Scene.shelved, Stage.charge, Flow.charge, h.abandoned, ht.total,
    List.count_append]
  omega

/-! ## Each connection is in one place -/

/-- Each connection that was ever opened is in one place, and no other one is
in any. -/
def Spread (B : List Nat) (V : Scene) (roll : List (Nat × Stage)) : Prop :=
  (V.shelved B ++ roll.flatMap (·.2.charge)).Perm (List.range V.total)

/-- What a task that is dropped was in charge of goes to another task, or is
dropped for good. -/
theorem Stage.charge_strays {s : Stage} (h : s.isSuspended = true)
    (outside : Bool) (n : Nat) :
    (((s.strays outside).map (n, ·)).flatMap (·.2.charge) ++
      if outside then s.entry?.toList.map (·.conn) else []) = s.charge := by
  have htodo : s.todo = [] := by
    cases s with
    | closing todo calls => exact List.isEmpty_iff.1 h
    | _ => rfl
  rw [charge, htodo, ← entry?_eq, List.append_nil]
  cases outside with
  | true => rfl
  | false =>
    rw [strays, if_neg Bool.false_ne_true]
    cases s.entry? <;> rfl

theorem spread_upheld (c : Config) : Upheld c Spread where
  perm h hi := ((h.flatMap_right _).symm.append_left _).trans hi
  deed {B closes V V' id s flow rest} hdoes hi := by
    refine List.perm_iff_count.2 fun conn => ?_
    have hcount := List.perm_iff_count.1 hi conn
    have hcharge := hdoes.charge B conn
    simp only [List.flatMap_cons, List.flatMap_append, Flow.flatMap_charge,
      List.count_append] at hcount ⊢
    omega
  drop {B V id n s outside rest} hsuspended hi := by
    refine List.Perm.trans ?_ hi
    refine List.perm_iff_count.2 fun conn => ?_
    have hcharge :=
      congrArg (List.count conn) (s.charge_strays hsuspended outside n)
    rw [List.count_append] at hcharge
    simp only [Scene.shelved, Scene.entries_drop, List.flatMap_cons,
      List.flatMap_append, List.count_append]
    show _ + (_ + (_ ++ V.abandoned).count conn) + _ = _
    rw [List.count_append]
    omega
  start hi := hi
  giveBack hi := hi
  revoke hi := hi
  pass _ hi := hi

/-! ## There is no way back -/

/-- The pool is done with the connection: it has begun to close it, a task is
to begin that, or the connection was dropped where it could not be closed. -/
def Done (conn : Nat) (B : List Nat) (V : Scene)
    (roll : List (Nat × Stage)) : Prop :=
  conn ∈ B ∨ conn ∈ roll.flatMap (·.2.todo) ∨ conn ∈ V.abandoned

/-- A task that is to begin to close a connection does so. -/
theorem Does.closes_todo {c : Config} {V V' : Scene} {s : Stage} {flow : Flow}
    {closes : List Nat} (h : Does c V s flow closes V') :
    ∀ conn ∈ s.todo, conn ∈ closes := by
  have hnil : s.todo = [] → ∀ conn ∈ s.todo, conn ∈ closes := by
    intro hs conn hmem
    rw [hs] at hmem
    cases hmem
  cases h with
  | stay _ htodo => exact hnil htodo.1
  | giveUp hroom => exact hnil (Stage.todo_eq_nil (by simp [hroom]))
  | discard hentry => exact hnil (Stage.todo_eq_nil (by simp [hentry]))
  | free hclosing => exact hnil (Stage.todo_eq_nil (by simp [hclosing]))
  | close => exact fun _ hmem => List.mem_reverse.2 hmem
  | _ => exact hnil rfl

theorem done_upheld (c : Config) (conn : Nat) : Upheld c (Done conn) where
  perm h hi := hi.imp_right (Or.imp_left (h.flatMap_right _).mem_iff.1)
  deed {B closes V V' id s flow rest} hdoes hi := by
    unfold Done at hi ⊢
    rw [hdoes.abandoned, List.mem_append, List.flatMap_append, List.mem_append]
    rw [List.flatMap_cons, List.mem_append] at hi
    rcases hi with hmem | (hmem | hmem) | hmem
    · exact .inl (.inr hmem)
    · exact .inl (.inl (hdoes.closes_todo conn hmem))
    · exact .inr (.inl (.inr hmem))
    · exact .inr (.inr hmem)
  drop {B V id n s outside rest} hsuspended hi := by
    have htodo : s.todo = [] := by
      cases s with
      | closing todo calls => exact List.isEmpty_iff.1 hsuspended
      | _ => rfl
    unfold Done at hi ⊢
    rw [List.flatMap_cons, htodo, List.nil_append] at hi
    rw [List.flatMap_append, List.mem_append]
    exact hi.imp_right (Or.imp .inr (List.mem_append_right _))
  start hi := hi
  giveBack hi := hi
  revoke hi := hi
  pass _ hi := hi

/-- The places of a connection, one by one. -/
theorem Spread.count_eq {B : List Nat} {V : Scene} {roll : List (Nat × Stage)}
    (h : Spread B V roll) (conn : Nat) :
    (V.pool.idle.map (·.conn)).count conn +
        (V.pool.active.map (·.entry.conn)).count conn +
        (roll.flatMap (·.2.hand.entry?.toList.map (·.conn))).count conn +
        (B.count conn + (roll.flatMap (·.2.todo)).count conn +
          V.abandoned.count conn) =
      (List.range V.total).count conn := by
  have hcharge : (roll.flatMap (·.2.charge)).count conn =
      (roll.flatMap (·.2.hand.entry?.toList.map (·.conn))).count conn +
        (roll.flatMap (·.2.todo)).count conn := by
    clear h
    induction roll with
    | nil => rfl
    | cons x roll ih =>
      simp only [List.flatMap_cons, List.count_append, ih]
      rw [Stage.charge, List.count_append]
      omega
  have hcount := List.Perm.count_eq h conn
  rw [List.count_append, hcharge] at hcount
  simp only [Scene.shelved, Scene.count_entries, List.count_append] at hcount
  omega

theorem done_iff {conn : Nat} {B : List Nat} {V : Scene}
    {roll : List (Nat × Stage)} : Done conn B V roll ↔
      0 < B.count conn + (roll.flatMap (·.2.todo)).count conn +
        V.abandoned.count conn := by
  rw [Done, ← List.count_pos_iff, ← List.count_pos_iff, ← List.count_pos_iff]
  omega

/-- What the pool is done with is in no other place. -/
theorem Spread.count_eq_zero {B : List Nat} {V : Scene}
    {roll : List (Nat × Stage)} (h : Spread B V roll) {conn : Nat}
    (hd : Done conn B V roll) :
    (V.pool.idle.map (·.conn)).count conn +
      (V.pool.active.map (·.entry.conn)).count conn +
      (roll.flatMap (·.2.hand.entry?.toList.map (·.conn))).count conn = 0 := by
  have hcount := h.count_eq conn
  have hpos := done_iff.1 hd
  have hle := List.nodup_iff_count_le_one.1 (List.nodup_range (n := V.total)) conn
  omega

/-- The pool is done with the connection, and has not lent it since there were
`n` leases. -/
structure Gone (n conn : Nat) (B : List Nat) (V : Scene)
    (roll : List (Nat × Stage)) : Prop where
  spread : Spread B V roll
  done : Done conn B V roll
  le : n ≤ V.grants.length
  lent : ∀ lease x, n ≤ lease → V.grants[lease]? = some x → x.1 ≠ conn

namespace Gone

variable {n conn : Nat} {B B' : List Nat} {V V' : Scene}
  {roll roll' : List (Nat × Stage)}

/-- The same has been lent. -/
theorem of_grants (hi : Gone n conn B V roll) (hspread : Spread B' V' roll')
    (hdone : Done conn B' V' roll') (h : V'.grants = V.grants) :
    Gone n conn B' V' roll' :=
  ⟨hspread, hdone, h ▸ hi.le, h ▸ hi.lent⟩

end Gone

/-- A connection that is gone stays so.  One that is lent was in the slot of a
task, so it is not that one. -/
theorem gone_upheld (c : Config) (n conn : Nat) :
    Upheld c (Gone n conn) where
  perm h hi := hi.of_grants ((spread_upheld c).perm h hi.spread)
    ((done_upheld c conn).perm h hi.done) rfl
  deed {B closes V V' id s flow rest} hdoes hi := by
    have hspread := (spread_upheld c).deed hdoes hi.spread
    have hdone := (done_upheld c conn).deed hdoes hi.done
    obtain he | ⟨q, e, rfl, -, -, -, -, he⟩ := hdoes.grants
    · exact hi.of_grants hspread hdone he
    · have hlen : V'.grants.length = V.grants.length + 1 := by
        rw [he, List.length_append, List.length_singleton]
      refine ⟨hspread, hdone, by have := hi.le; omega, ?_⟩
      intro lease x hle hx
      rw [he, List.getElem?_append] at hx
      split at hx
      · exact hi.lent lease x hle hx
      · have hzero := hi.spread.count_eq_zero hi.done
        rw [List.flatMap_cons, List.count_append] at hzero
        obtain rfl : x = (e.conn, e.record.lend V.now) := by
          have hmem := List.mem_of_getElem? hx
          exact List.mem_singleton.1 hmem
        rintro rfl
        have hone : List.count e.conn ([e].map (·.conn)) = 1 := by simp
        exact absurd hzero (by
          show _ + (List.count e.conn ([e].map (·.conn)) + _) ≠ 0
          omega)
  drop hsuspended hi := hi.of_grants
    ((spread_upheld c).drop hsuspended hi.spread)
    ((done_upheld c conn).drop hsuspended hi.done) rfl
  start hi := hi.of_grants ((spread_upheld c).start hi.spread)
    ((done_upheld c conn).start hi.done) rfl
  giveBack hi := hi.of_grants ((spread_upheld c).giveBack hi.spread)
    ((done_upheld c conn).giveBack hi.done) rfl
  revoke hi := by
    refine hi.of_grants ((spread_upheld c).revoke hi.spread)
      ((done_upheld c conn).revoke hi.done) (Handle.map_grant_modify ?_ ..)
    exact fun _ => rfl
  pass hle hi := hi.of_grants ((spread_upheld c).pass hle hi.spread)
    ((done_upheld c conn).pass hle hi.done) rfl

/-! ## After every run -/

namespace World

/-- The connections in the slots of tasks. -/
def guarded (w : World) : List Nat :=
  w.tasks.flatMap fun t => t.stage.entry?.toList.map (·.conn)

/-- The connections that tasks are to begin to close. -/
def todo (w : World) : List Nat := w.tasks.flatMap (·.stage.todo)

/-- How often the connection is among those that are kept, those that are lent
and those in the slots of tasks. -/
def presence (w : World) (conn : Nat) : Nat :=
  (w.pool.idle.map (·.conn)).count conn +
    (w.pool.active.map (·.entry.conn)).count conn + w.guarded.count conn

/-- The connections that the pool began to close in a run, the last one in
front.  A connection is in the list once for each call. -/
def closesBegunIn (w : World) (as : List Action) : List Nat :=
  w.along closesBegun as

end World

/-- A connection was discarded in a run: the pool began to close it, a task is
to begin that, or it was dropped where no task could be started. -/
def Discarded (c : Config) (s : Server) (as : List Action) (w : World)
    (conn : Nat) : Prop :=
  conn ∈ (World.new c s).closesBegunIn as ∨ conn ∈ w.todo ∨
    conn ∈ w.abandoned

section Runs

variable {c : Config} {s : Server} {as : List Action} {w : World}

theorem World.presence_eq (w : World) (conn : Nat) :
    w.presence conn = (w.scene.pool.idle.map (·.conn)).count conn +
      (w.scene.pool.active.map (·.entry.conn)).count conn +
        (w.roll.flatMap (·.2.hand.entry?.toList.map (·.conn))).count conn := by
  simp only [presence, guarded, Stage.entry?_eq, roll, List.flatMap_map]
  rfl

theorem discarded_iff {conn : Nat} : Discarded c s as w conn ↔
    Done conn ((World.new c s).closesBegunIn as) w.scene w.roll := by
  simp only [Discarded, Done, World.todo, World.roll, List.flatMap_map]
  rfl

theorem spread_of_run (h : Run c s as w) :
    Spread ((World.new c s).closesBegunIn as) w.scene w.roll := by
  have hnew : Spread [] (World.new c s).scene [] := by
    have hlen : (World.new c s).scene.total = 0 := by
      simp [World.scene, World.new, h.connections_eq]
    rw [Spread, hlen]
    exact List.Perm.nil
  exact (spread_upheld c).run h hnew fun _ _ _ _ _ hi => hi

/-- Each connection that was ever opened is kept, lent, in the slot of one
task, or discarded, and only one of these.  A connection that was discarded
stays so and is never lent again.  The pool begins to close a connection once
at most, and only when it is neither kept nor lent nor in a slot. -/
theorem one_place_of_run (h : Run c s as w) :
    (∀ conn < w.server.connections.length,
      w.presence conn = 1 ∧ ¬Discarded c s as w conn ∨
        w.presence conn = 0 ∧ Discarded c s as w conn) ∧
    (∀ conn, Discarded c s as w conn → ∀ later w',
      Run c s (later ++ as) w' →
        Discarded c s (later ++ as) w' conn ∧ w'.presence conn = 0 ∧
          ∀ lease x, w.handles.length ≤ lease →
            w'.handles[lease]? = some x → x.conn ≠ conn) ∧
    ((World.new c s).closesBegunIn as).Nodup ∧
    ∀ conn ∈ (World.new c s).closesBegunIn as, w.presence conn = 0 := by
  have hspread := spread_of_run h
  have hzero : ∀ conn, Discarded c s as w conn → w.presence conn = 0 := by
    intro conn hd
    rw [w.presence_eq]
    exact hspread.count_eq_zero (discarded_iff.1 hd)
  refine ⟨?_, ?_, ?_, fun conn hmem => hzero conn (.inl hmem)⟩
  · intro conn hconn
    by_cases hd : Discarded c s as w conn
    · exact .inr ⟨hzero conn hd, hd⟩
    · have hcount := hspread.count_eq conn
      have hone : (List.range w.scene.total).count conn = 1 :=
        List.count_eq_one_of_mem List.nodup_range (List.mem_range.2 hconn)
      have hzero := Nat.eq_zero_of_not_pos fun hpos =>
        hd (discarded_iff.2 (done_iff.2 hpos))
      rw [hone, hzero, ← w.presence_eq] at hcount
      exact .inl ⟨by omega, hd⟩
  · intro conn hd later w' h'
    have hgone : Gone w.handles.length conn
        ((World.new c s).closesBegunIn as) w.scene w.roll := by
      refine ⟨hspread, discarded_iff.1 hd, ?_, fun lease x hle hx => ?_⟩
      · simp [Scene.grants, World.scene]
      · have hlt := (List.getElem?_eq_some_iff.1 hx).1
        simp only [Scene.grants, World.scene, List.length_map] at hlt
        omega
    obtain ⟨hspread', hdone', -, hlent⟩ := (gone_upheld c _ conn).extend h h'
      (fun _ _ _ _ _ hi => hi.of_grants hi.spread hi.done rfl) hgone
    refine ⟨discarded_iff.2 hdone', ?_, fun lease x hle hx => ?_⟩
    · rw [w'.presence_eq]
      exact hspread'.count_eq_zero hdone'
    · refine hlent lease x.grant hle ?_
      simp only [Scene.grants, World.scene, List.getElem?_map, hx,
        Option.map_some]
  · have hnodup := hspread.nodup_iff.2 List.nodup_range
    refine hnodup.sublist ?_
    refine List.Sublist.trans ?_ (List.sublist_append_left ..)
    refine List.Sublist.trans ?_ (List.sublist_append_right ..)
    exact List.sublist_append_left ..

/-- One connection is lent, out of date, and given back.  Then another one is
opened. -/
def closedAndOpened : List Action :=
  [.run 3, .run 3, .run 3, .run 3, .start .acquire none,
    .run 2, .run 2, .run 2, .start (.close 0) none,
    .run 1, .run 1, .start .invalidate none,
    .run 0, .run 0, .run 0, .run 0, .run 0, .start .acquire none]

/-- The first connection is discarded, and the other one is in a slot. -/
theorem one_place_closedAndOpened :
    ∃ w, Run {} {} closedAndOpened w ∧
      (w.server.connections.length = 2 ∧ w.guarded = [1] ∧
        (World.new {} {}).closesBegunIn closedAndOpened = [0]) ∧
      (w.presence 0 = 0 ∧ Discarded {} {} closedAndOpened w 0) ∧
        w.presence 1 = 1 ∧ ¬Discarded {} {} closedAndOpened w 1 := by
  have hex : ∃ w, Run {} {} closedAndOpened w ∧
      w.server.connections.length = 2 ∧ w.guarded = [1] :=
    Run.exists_of_replay rfl rfl (by decide +kernel)
  obtain ⟨w, h, hlen, hguarded⟩ := hex
  have hcloses : (World.new {} {}).closesBegunIn closedAndOpened = [0] := by
    decide +kernel
  obtain ⟨hplaces, -, -, hzero⟩ := one_place_of_run h
  refine ⟨w, h, ⟨hlen, hguarded, hcloses⟩,
    ⟨hzero 0 (by simp [hcloses]), .inl (by simp [hcloses])⟩, ?_⟩
  refine (hplaces 1 (by omega)).resolve_right fun hx => ?_
  have hpos : 0 < w.presence 1 := by simp [World.presence, hguarded]
  omega

end Runs

end DatabasePool
