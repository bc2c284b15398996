import DatabasePool.Proofs.Finality
import DatabasePool.Proofs.Undoing

/-!
# Which connection is used again

The pool lends the connection again that it has stored last.  Connections are
stored one after the other, so those that are kept are in the order of that.
But a connection counts as last used from when its return began, and there may
be a rollback between that and its being stored.  So one connection can be
lent before another one that was used after it: if both came back at the same
time and the rollback of the first one took longer.  There is no other way.

* `Happens.storesBy` says what an action does to the order of what is kept.
* `Recent.act` says that what is kept stays in the order of being stored, and
  that a rollback goes on from the last use until then.
* `recent_of_run` says what that comes to when a request takes a connection.
* `exists_taken_before_used` is a run in which a request takes one connection
  and leaves another one that was used after it.
-/

namespace DatabasePool

/-! ## Connections that come back -/

/-- From its last use until the moment, what was not committed on the
connection was being undone. -/
def Entry.UndoneAt (history : List (Nat × Event)) (moment : Nat) (e : Entry) :
    Prop :=
  (e.record.lastUsed, .began (.rollback e.conn)) ∈ history ∧
    (moment, .answered (.rollback e.conn) e.conn) ∈ history

/-- The connection has come back by the moment.  Its return began when it was
last used, and only a rollback took time since. -/
structure Entry.CameBack (history : List (Nat × Event)) (moment : Nat)
    (e : Entry) : Prop where
  le : e.record.lastUsed ≤ moment
  undone : e.record.lastUsed = moment ∨ e.UndoneAt history moment

/-- One connection was last used before another one, but its rollback went on
until the other one had come back, too. -/
def Entry.Outlasts (history : List (Nat × Event)) (e e' : Entry) : Prop :=
  e.record.lastUsed < e'.record.lastUsed ∧ ∃ moment moment',
    moment' ≤ moment ∧ e.UndoneAt history moment ∧ e'.CameBack history moment'

namespace World

/-- What an action stores, and when. -/
def storesBy (w : World) (_ : Action) (w' : World) : List (Nat × Entry) :=
  if w.pool.idle.length < w'.pool.idle.length then
    w'.pool.idle.head?.toList.map (w.now, ·)
  else []

/-- All that was stored in a run of these actions, the last one in front. -/
def storesIn (w : World) (as : List Action) : List (Nat × Entry) :=
  w.along storesBy as

/-- What is kept was stored in this order, and all that was stored had come
back.  A connection that is about to be stored comes back now, and one that is
being undone is so since it was last used. -/
structure Recent (stores : List (Nat × Entry)) (w : World) : Prop where
  idle : w.pool.idle.Sublist (stores.map (·.2))
  order : stores.Pairwise fun x y => y.1 ≤ x.1
  stored : ∀ x ∈ stores, x.1 ≤ w.now ∧ x.2.CameBack w.history x.1
  storing : ∀ id e, (id, .giveBack (.storing e)) ∈ w.roll →
    e.CameBack w.history w.now
  undoing : ∀ id e call, (id, .giveBack (.undoing e call)) ∈ w.roll →
    e.record.lastUsed ≤ w.now ∧
      (e.record.lastUsed, .began (.rollback e.conn)) ∈ w.history

end World

/-! ## What is stored -/

/-- An action that stores a connection puts it in front of those that are
kept, and any other action leaves those in their order. -/
theorem Happens.storesBy {c : Config} {w w' : World} {a : Action}
    {closes : List Nat} (h : Happens c w w' a closes) :
    (w'.pool.idle.Sublist w.pool.idle ∧ w.storesBy a w' = []) ∨
      ∃ id e, (id, .giveBack (.storing e)) ∈ w.roll ∧
        w'.pool.idle = e :: w.pool.idle ∧
          w.storesBy a w' = [(w.now, e)] := by
  rcases h.stores with hsub | ⟨id, e, -, hmem, hidle⟩
  · exact .inl ⟨hsub, if_neg (Nat.not_lt.2 hsub.length_le)⟩
  · refine .inr ⟨id, e, hmem, hidle, ?_⟩
    simp [World.storesBy, hidle]

/-! ## How a connection comes back -/

namespace World.Moves

variable {w v : World} {id : Nat} {st : Stage} {flow : Flow} {e : Entry}

/-- A task that comes to store a connection has ended its loan, or has waited
for its rollback. -/
theorem storing (h : w.Moves id st flow v)
    (hs : flow.stage? = some (.giveBack (.storing e))) :
    e.record.lastUsed = w.now ∨ ∃ call conn,
      st = .giveBack (.undoing e call) ∧
        (w.hearAnswer call.call).1 = .ok conn ∧
          v = (w.hearAnswer call.call).2 := by
  cases h with
  | returnClean =>
    cases hs
    exact .inl rfl
  | returnUndone _ hok =>
    cases hs
    exact .inr ⟨_, _, rfl, hok, rfl⟩
  | awaits hcall =>
    cases hs
    cases hcall
  | _ => cases hs

/-- A task that waits for the rollback of a connection that comes back did so
before, or has ended the loan and has begun the rollback. -/
theorem undoingReturn {call : Pending} (h : w.Moves id st flow v)
    (hs : flow.stage? = some (.giveBack (.undoing e call))) :
    st = .giveBack (.undoing e call) ∨ e.record.lastUsed = w.now ∧
      v.history.head? = some (w.now, .began (.rollback e.conn)) := by
  cases h with
  | returnUndo =>
    cases hs
    refine .inr ⟨rfl, ?_⟩
    simp [endLoan, backEntry]
  | awaits =>
    cases hs
    exact .inl rfl
  | _ => cases hs

/-- A request that comes to check a connection right after it has looked has
taken the first one of those that were kept. -/
theorem takes {q r : Request} (h : w.Moves id st flow v)
    (hst : st = .acquire q .looking)
    (hs : flow.stage? = some (.acquire r (.checking e))) :
    w.pool.idle = e :: v.pool.idle := by
  cases h with
  | take _ hidle =>
    cases hs
    exact hidle
  | awaits hcall =>
    cases hst
    cases hcall
  | recoverClean | undone => cases hst
  | _ => cases hs

end World.Moves

section Runs

variable {c : Config} {s : Server} {as : List Action} {a : Action}
  {w w' : World} {id : Nat} {e : Entry} {stores : List (Nat × Entry)}

theorem Entry.UndoneAt.act (h : Run c s as w) (ha : w.act a = some w')
    {moment : Nat} (hi : e.UndoneAt w.history moment) :
    e.UndoneAt w'.history moment :=
  ⟨h.history_act ha hi.1, h.history_act ha hi.2⟩

/-- A connection that has come back has done so for good. -/
theorem Entry.CameBack.act (h : Run c s as w) (ha : w.act a = some w')
    {moment : Nat} (hi : e.CameBack w.history moment) :
    e.CameBack w'.history moment :=
  ⟨hi.le, hi.undone.imp_right (·.act h ha)⟩

namespace World.Recent

/-- A connection that is about to be stored after an action comes back now: a
task that is to store one does so before time goes by. -/
theorem storing_act (hi : w.Recent stores) (h : Run c s as w)
    (ha : w.act a = some w')
    (hmem : (id, .giveBack (.storing e)) ∈ w'.roll) :
    e.CameBack w'.history w'.now := by
  obtain ⟨hmem, -⟩ | ⟨-, hfresh⟩ | ⟨t, flow, v, -, ht, hmove, hs, halike⟩ :=
    World.stage_act (World.distinct_of_run h) ha hmem
  · have hrest := h.not_atRest hmem fun hsuspended => by cases hsuspended
    rw [h.now_eq ha hrest]
    exact (hi.storing id e hmem).act h ha
  · obtain ⟨_, hst⟩ | ⟨_, hst⟩ | ⟨_, hst⟩ := hfresh
    all_goals cases hst
  · have hnow : w'.now = w.now := by
      have hu := untouched_resume (w.pick id) id t.stage
      rw [hmove] at hu
      exact halike.now.trans hu.now
    rw [hnow]
    rcases (World.moves_of_eq hmove).storing hs with
      hused | ⟨call, conn, hst, hok, rfl⟩
    · have hused : e.record.lastUsed = w.now := hused
      exact ⟨Nat.le_of_eq hused, .inl hused⟩
    · have hthere := World.mem_roll_of_task? ht
      have hfits := h.config_fits.2 t (World.mem_of_task? ht)
      rw [hst] at hthere hfits
      obtain ⟨hle, hbegan⟩ := hi.undoing id e call hthere
      refine ⟨hle, .inr ⟨h.history_act ha hbegan, ?_⟩⟩
      rw [hfits.undoing rfl] at hok halike
      rw [halike.history, World.answered_rollback hok]
      exact List.mem_cons_self

/-- A connection that is being undone is so since it was last used. -/
theorem undoing_act (hi : w.Recent stores) (h : Run c s as w)
    (ha : w.act a = some w') {call : Pending}
    (hmem : (id, .giveBack (.undoing e call)) ∈ w'.roll) :
    e.record.lastUsed ≤ w'.now ∧
      (e.record.lastUsed, .began (.rollback e.conn)) ∈ w'.history := by
  have hle : w.now ≤ w'.now := (h.happens ha).loans.1
  have hbefore : (id, .giveBack (.undoing e call)) ∈ w.roll →
      e.record.lastUsed ≤ w'.now ∧
        (e.record.lastUsed, .began (.rollback e.conn)) ∈ w'.history := by
    intro hmem
    obtain ⟨hused, hbegan⟩ := hi.undoing id e call hmem
    exact ⟨Nat.le_trans hused hle, h.history_act ha hbegan⟩
  obtain ⟨hmem, -⟩ | ⟨-, hfresh⟩ | ⟨t, flow, v, -, ht, hmove, hs, halike⟩ :=
    World.stage_act (World.distinct_of_run h) ha hmem
  · exact hbefore hmem
  · obtain ⟨_, hst⟩ | ⟨_, hst⟩ | ⟨_, hst⟩ := hfresh
    all_goals cases hst
  · rcases (World.moves_of_eq hmove).undoingReturn hs with hst | ⟨hused, hhead⟩
    · exact hbefore (hst ▸ World.mem_roll_of_task? ht)
    · have hused : e.record.lastUsed = w.now := hused
      have hhead : v.history.head? =
        some (w.now, .began (.rollback e.conn)) := hhead
      rw [hused, halike.history]
      exact ⟨hle, List.mem_of_mem_head? hhead⟩

/-- Whatever happens, what is kept stays in the order of being stored. -/
theorem act (hi : w.Recent stores) (h : Run c s as w)
    (ha : w.act a = some w') : w'.Recent (w.storesBy a w' ++ stores) := by
  have hle : w.now ≤ w'.now := (h.happens ha).loans.1
  have hstored : ∀ x ∈ stores,
      x.1 ≤ w'.now ∧ x.2.CameBack w'.history x.1 := by
    intro x hx
    obtain ⟨hpast, hback⟩ := hi.stored x hx
    exact ⟨Nat.le_trans hpast hle, hback.act h ha⟩
  have hstoring : ∀ i x, (i, .giveBack (.storing x)) ∈ w'.roll →
      x.CameBack w'.history w'.now := fun _ _ => hi.storing_act h ha
  have hundoing : ∀ i x call, (i, .giveBack (.undoing x call)) ∈ w'.roll →
      x.record.lastUsed ≤ w'.now ∧
        (x.record.lastUsed, .began (.rollback x.conn)) ∈ w'.history :=
    fun _ _ _ => hi.undoing_act h ha
  rcases (h.happens ha).storesBy with ⟨hsub, hnone⟩ | ⟨i, x, hmem, hidle, hnew⟩
  · rw [hnone]
    exact ⟨hsub.trans hi.idle, hi.order, hstored, hstoring, hundoing⟩
  · rw [hnew]
    refine ⟨?_, ?_, ?_, hstoring, hundoing⟩
    · rw [hidle]
      exact hi.idle.cons_cons _
    · exact List.pairwise_cons.2 ⟨fun y hy => (hi.stored y hy).1, hi.order⟩
    · intro y hy
      rcases List.mem_cons.1 hy with rfl | hy
      · exact ⟨hle, (hi.storing i x hmem).act h ha⟩
      · exact hstored y hy

/-- Of two connections that were stored, the one that was stored later was
used later, or its rollback went on until the other one had come back. -/
theorem pairwise (hi : w.Recent stores) :
    w.pool.idle.Pairwise fun e e' =>
      e'.record.lastUsed ≤ e.record.lastUsed ∨ e.Outlasts w.history e' := by
  refine List.Pairwise.sublist hi.idle (List.pairwise_map.2 ?_)
  refine hi.order.imp_of_mem ?_
  intro x y hx hy horder
  obtain ⟨-, hback⟩ := hi.stored x hx
  obtain ⟨-, hback'⟩ := hi.stored y hy
  refine (Nat.lt_or_ge x.2.record.lastUsed y.2.record.lastUsed).symm.imp_right
    fun hlt => ⟨hlt, x.1, y.1, horder, ?_, hback'⟩
  refine hback.undone.resolve_left fun hused => ?_
  have hused' := hback'.le
  omega

end World.Recent

theorem World.recent_of_storesIn (h : Run c s as w) :
    w.Recent ((World.new c s).storesIn as) := by
  induction h with
  | new hs hw =>
    obtain ⟨-, -, rfl⟩ := Run.new_iff.1 (.new hs hw)
    refine ⟨List.Sublist.refl _, .nil, ?_, ?_, ?_⟩
    · intro x hx
      cases hx
    · intro id e hmem
      cases hmem
    · intro id e call hmem
      cases hmem
  | act h ha ih =>
    rw [World.storesIn, h.along_cons _ ha]
    exact ih.act h ha

/-- A request that looks takes the first one of those that are kept. -/
theorem Run.takes (h : Run c s as w) {q r : Request}
    (hlooks : (id, .acquire q .looking) ∈ w.roll)
    (ha : w.act (.run id) = some w')
    (hmem : (id, .acquire r (.checking e)) ∈ w'.roll) :
    w.pool.idle = e :: w'.pool.idle := by
  have hd := World.distinct_of_run h
  obtain ⟨-, hne⟩ | ⟨-, hfresh⟩ | ⟨t, flow, v, -, ht, hmove, hs, halike⟩ :=
    World.stage_act hd ha hmem
  · exact absurd rfl hne
  · obtain ⟨_, hst⟩ | ⟨_, hst⟩ | ⟨_, hst⟩ := hfresh
    all_goals cases hst
  · have hst := hd.stage_unique (World.mem_roll_of_task? ht) hlooks
    rw [halike.pool]
    exact (World.moves_of_eq hmove).takes hst hs

/-- What is kept is in the order of being stored, the one stored last in front,
and it is also in the order of last use, but for connections whose rollback
went on until others had come back.  A request that looks takes the first one.
So it has not been idle for longer than any other one that is left, unless its
rollback went on until that one had come back. -/
theorem recent_of_run (h : Run c s as w) :
    (w.pool.idle.Sublist (((World.new c s).storesIn as).map (·.2)) ∧
      ((World.new c s).storesIn as).Pairwise fun x y => y.1 ≤ x.1) ∧
    (w.pool.idle.Pairwise fun e e' =>
      e'.record.lastUsed ≤ e.record.lastUsed ∨ e.Outlasts w.history e') ∧
    ∀ id q r e w', (id, .acquire q .looking) ∈ w.roll →
      w.act (.run id) = some w' → (id, .acquire r (.checking e)) ∈ w'.roll →
        w.pool.idle = e :: w'.pool.idle ∧ ∀ e' ∈ w'.pool.idle,
          e.record.idleTime w.now ≤ e'.record.idleTime w.now ∨
            e.Outlasts w.history e' := by
  have hrecent := World.recent_of_storesIn h
  refine ⟨⟨hrecent.idle, hrecent.order⟩, hrecent.pairwise, ?_⟩
  intro id q r e w' hlooks ha hmem
  have hidle := h.takes hlooks ha hmem
  refine ⟨hidle, fun e' he' => ?_⟩
  have hpair := hrecent.pairwise
  rw [hidle] at hpair
  refine ((List.pairwise_cons.1 hpair).1 e' he').imp_left fun hle => ?_
  exact Nat.sub_le_sub_left hle _

end Runs

/-- Two connections, both of which may be kept. -/
def twoKept : Config := { maxActive := 2, maxIdle := 2 }

/-- The server takes a while to undo what was not committed. -/
def slowRollbacks : Server :=
  { rollback := { delay := 100, message := "rollback failed" } }

/-- Two connections are lent.  The first one has something to be undone and
comes back first, but the second one is stored first.  Then a request comes
to look. -/
def overlappingReturns : List Action :=
  [.run 4, .start .acquire none,
    .run 2, .run 2, .advance (Time.ofMillis 100),
    .run 3, .run 3, .run 3, .start (.close 1) none,
    .advance (Time.ofMillis 50),
    .run 2, .run 2, .run 2, .start (.close 0) none, .markManual 0 true,
    .run 1, .run 1, .run 1, .run 1, .run 1, .start .acquire none,
    .run 0, .run 0, .run 0, .run 0, .run 0, .start .acquire none]

/-- The request that looks in the end. -/
def lateRequest : Request :=
  ⟨Time.ofMillis 100, Time.ofMillis 20100, 0⟩

/-- The first connection when its return began, and the second one half of a
rollback later. -/
def firstBack : Entry := ⟨0, (Record.fresh 1 "db" 0 0).giveBack 0⟩

def secondBack : Entry :=
  ⟨1, (Record.fresh 2 "db" 0 0).giveBack (Time.ofMillis 50)⟩

/-- The request takes the connection that was stored last, and its rollback
went on until the other one had come back. -/
theorem recent_overlappingReturns :
    ∃ w w', Run twoKept slowRollbacks overlappingReturns w ∧
      w.act (.run 4) = some w' ∧
      (4, .acquire lateRequest (.checking firstBack)) ∈ w'.roll ∧
      w.pool.idle = firstBack :: w'.pool.idle ∧
      secondBack ∈ w'.pool.idle ∧ firstBack.Outlasts w.history secondBack := by
  have hw : ∃ w, Run twoKept slowRollbacks overlappingReturns w ∧
      (4, .acquire lateRequest .looking) ∈ w.roll ∧
      w.now = Time.ofMillis 100 :=
    Run.exists_of_replay rfl rfl (by decide +kernel)
  have hw' : ∃ w',
      Run twoKept slowRollbacks (.run 4 :: overlappingReturns) w' ∧
      (4, .acquire lateRequest (.checking firstBack)) ∈ w'.roll ∧
      secondBack ∈ w'.pool.idle :=
    Run.exists_of_replay rfl rfl (by decide +kernel)
  obtain ⟨w, h, hlooks, hnow⟩ := hw
  obtain ⟨w', h', hmem, hleft⟩ := hw'
  cases h' with
  | act hv ha =>
    obtain rfl := h.unique hv
    obtain ⟨-, -, htakes⟩ := recent_of_run h
    obtain ⟨hidle, horder⟩ := htakes _ _ _ _ _ hlooks ha hmem
    refine ⟨w, w', h, ha, hmem, hidle, hleft, ?_⟩
    refine (horder _ hleft).resolve_left fun hle => ?_
    rw [hnow] at hle
    exact absurd hle (by decide)

/-- What is kept is not in the order of last use, and the request takes a
connection that was used before one that it leaves. -/
theorem exists_taken_before_used :
    (∃ w, Run twoKept slowRollbacks overlappingReturns w ∧
      ¬w.pool.idle.Pairwise fun e e' =>
        e'.record.lastUsed ≤ e.record.lastUsed) ∧
    ∃ w, Run twoKept slowRollbacks (.run 4 :: overlappingReturns) w ∧
      (4, .acquire lateRequest (.checking firstBack)) ∈ w.roll ∧
      ∃ e' ∈ w.pool.idle,
        e'.record.idleTime w.now < firstBack.record.idleTime w.now :=
  ⟨Run.exists_of_replay rfl rfl (by decide +kernel),
    Run.exists_of_replay rfl rfl (by decide +kernel)⟩

end DatabasePool
