import DatabasePool.Proofs.Bookkeeping

/-!
# Where connections are

A connection is kept for later, or lent, or in the hand of a task, and it is
in one of these places only once.  A deal moves connections from place to
place.  A connection comes to the first place when it is opened, and it leaves
the last one when it has been closed or when it is lost.

* `Deals.moves` says this about each deal.
* `accounted_of_run` says of each connection that was ever opened that it is
  in its one place, has been closed, or is lost.
* `idle_or_active_or_closed_iff` is about worlds in which no task is left.
-/

namespace DatabasePool

/-- The places at which there are connections. -/
def Books.places (b : Books) (hs : List Hand) : List Nat :=
  b.pool.idle.map (·.conn) ++ b.pool.active.map (·.entry.conn) ++
    hs.flatMap (·.conns)

/-- At how many places a connection is. -/
def Books.held (b : Books) (hs : List Hand) (conn : Nat) : Nat :=
  (b.places hs).count conn

theorem Books.held_cons (b : Books) (h : Hand) (hs : List Hand) (conn : Nat) :
    b.held (h :: hs) conn =
      (b.pool.idle.map (·.conn)).count conn +
        (b.pool.active.map (·.entry.conn)).count conn +
        h.conns.count conn + (hs.flatMap (·.conns)).count conn := by
  simp only [held, places, List.flatMap_cons, List.count_append]
  omega

theorem Books.held_eq_of_perm (b : Books) {hs hs' : List Hand}
    (h : hs.Perm hs') (conn : Nat) : b.held hs conn = b.held hs' conn :=
  ((h.flatMap_right _).append_left _).count_eq conn

/-- What a deal does to the places of connections. -/
inductive Moves (b b' : Books) (before after : Nat → Nat) : Prop where
  /-- Connections are moved at most. -/
  | same (hopened : b'.opened = b.opened) (hclosed : b.closed ⊆ b'.closed)
      (hlost : b'.lost = b.lost) (hheld : ∀ conn, after conn = before conn)
  /-- A connection is opened. -/
  | opened (hopened : b'.opened = b.opened + 1)
      (hclosed : b'.closed = b.closed) (hlost : b'.lost = b.lost)
      (hheld : ∀ conn, after conn = before conn + [b.opened].count conn)
  /-- Connections go that have been closed or are lost. -/
  | gone (conns : List Nat) (hopened : b'.opened = b.opened)
      (hclosed : b'.closed = b.closed)
      (hlost : conns ⊆ b.closed ∧ b'.lost = b.lost ∨
        b'.lost = conns ++ b.lost)
      (hheld : ∀ conn, before conn = after conn + conns.count conn)

theorem Deals.moves {c : Config} {b b' : Books} {h h' : Hand}
    (hd : Deals c b h b' h') (hs : List Hand) :
    Moves b b' (b.held (h :: hs)) (b'.held (h' :: hs)) := by
  have hsame : ∀ {b' : Books}, b'.opened = b.opened → b.closed = b'.closed →
      b'.lost = b.lost →
      (∀ conn, b'.held (h' :: hs) conn = b.held (h :: hs) conn) →
      Moves b b' (b.held (h :: hs)) (b'.held (h' :: hs)) :=
    fun ho hc hl hh => .same ho (hc ▸ List.Subset.refl _) hl hh
  cases hd with
  | count | choose | revoke | mark =>
    exact hsame rfl rfl rfl fun _ => rfl
  | close conn =>
    exact .same rfl (List.subset_cons_self ..) rfl fun _ => rfl
  | giveUp | callIn | tooLate | done => exact hsame rfl rfl rfl fun _ => rfl
  | take hup he =>
    refine hsame rfl rfl rfl fun conn => ?_
    simp only [Books.held_cons, Pool.reserve_frame, he, Hand.conns_of,
      List.map_cons, List.count_cons, List.count_nil]
    omega
  | makeRoom now =>
    refine hsame rfl rfl rfl fun conn => ?_
    simp only [Books.held_cons, Pool.reserve_frame, Hand.conns_of]
  | claim now hup he hfull htake =>
    obtain ⟨-, -, rest, hperm, rfl⟩ := Pool.takeOverdue?_eq_some htake
    refine hsame rfl rfl rfl fun conn => ?_
    have hcount := (hperm.map (·.entry.conn)).count_eq conn
    simp only [List.map_cons, List.count_cons] at hcount
    simp only [Books.held_cons, Pool.reserve_frame, Hand.conns_of,
      List.count_cons, List.count_nil]
    omega
  | connect =>
    refine .opened rfl rfl rfl fun conn => ?_
    simp only [Books.held_cons, Hand.conns_of, List.count_nil]
    omega
  | lend since now hlend =>
    obtain ⟨-, rfl⟩ := Pool.lend?_eq_some hlend
    refine hsame rfl rfl rfl fun conn => ?_
    simp only [Books.held_cons, Pool.free_frame, Hand.conns_of, List.map_append,
      List.map_cons, List.map_nil, List.count_append, List.count_cons,
      List.count_nil]
    omega
  | giveBack now htake =>
    obtain ⟨-, rest, hperm, rfl⟩ := Pool.takeLoan?_eq_some htake
    refine hsame rfl rfl rfl fun conn => ?_
    have hcount := (hperm.map (·.entry.conn)).count_eq conn
    simp only [List.map_cons, List.count_cons] at hcount
    simp only [Books.held_cons, Pool.reserve_frame, Hand.conns_of,
      List.count_cons, List.count_nil]
    omega
  | store hstore =>
    obtain ⟨-, -, rfl⟩ := Pool.store?_eq_some hstore
    refine hsame rfl rfl rfl fun conn => ?_
    simp only [Books.held_cons, Pool.free_frame, Hand.conns_of, List.map_cons,
      List.count_cons, List.count_nil]
    omega
  | discard => exact hsame rfl rfl rfl fun _ => rfl
  | free =>
    refine hsame rfl rfl rfl fun conn => ?_
    simp only [Books.held_cons, Pool.free_frame, Hand.conns_of]
  | @hear _ conn conns rest hclosed hconns =>
    refine .gone [conn] rfl rfl (.inl ⟨by simpa, rfl⟩) fun x => ?_
    have hcount := hconns.count_eq x
    simp only [Books.held_cons, Hand.conns_of, hcount, List.count_cons,
      List.count_nil]
    omega
  | @lose _ conns =>
    refine .gone conns rfl rfl (.inr rfl) fun x => ?_
    simp only [Books.held_cons, Hand.conns_of, List.count_nil]
    omega
  | invalidate =>
    refine hsame rfl rfl rfl fun conn => ?_
    simp only [Books.held_cons, Pool.invalidate, Hand.conns_of, List.map_reverse,
      List.count_reverse, List.map_nil, List.count_nil]
    omega
  | shutDown =>
    refine hsame rfl rfl rfl fun conn => ?_
    simp only [Books.held_cons, Pool.close, Hand.conns_of, List.map_reverse,
      List.count_append, List.count_reverse, List.map_nil, List.count_nil]
    omega

/-! ## Every connection is accounted for -/

/-- Each connection is in one place at most, and if it is in none, then it has
been closed or is lost. -/
structure Accounted (b : Books) (hs : List Hand) : Prop where
  once : ∀ conn, b.held hs conn ≤ 1
  opened : ∀ conn, 0 < b.held hs conn → conn < b.opened
  lost : ∀ conn ∈ b.lost, conn < b.opened ∧ b.held hs conn = 0
  all : ∀ conn < b.opened,
    0 < b.held hs conn ∨ conn ∈ b.closed ∨ conn ∈ b.lost

/-- Each connection stays in one place with every deal.  The number of a new one
was in no place before. -/
theorem Accounted.deal {c : Config} {b b' : Books} {h h' : Hand}
    {hs : List Hand} (hd : Deals c b h b' h')
    (hi : Accounted b (h :: hs)) : Accounted b' (h' :: hs) := by
  obtain ⟨honce, hopen, hlost, hall⟩ := hi
  cases hd.moves hs with
  | same ho hc hl hh =>
    refine ⟨?_, ?_, ?_, ?_⟩
    · simpa only [hh] using honce
    · simpa only [hh, ho] using hopen
    · simpa only [hh, ho, hl] using hlost
    · intro conn hlt
      rw [hh, hl]
      exact (hall conn (ho ▸ hlt)).imp_right (.imp_left (hc ·))
  | opened ho hc hl hh =>
    have hnew : b.held (h :: hs) b.opened = 0 :=
      Nat.eq_zero_of_not_pos fun hpos => Nat.lt_irrefl _ (hopen _ hpos)
    simp only [List.count_singleton, beq_iff_eq] at hh
    refine ⟨?_, ?_, ?_, ?_⟩
    · intro conn
      have := honce conn
      rw [hh]
      split
      · subst conn
        omega
      · omega
    · intro conn hpos
      rw [hh] at hpos
      split at hpos
      · omega
      · have := hopen conn hpos
        omega
    · rw [hl]
      intro conn hmem
      obtain ⟨hlt, hzero⟩ := hlost conn hmem
      refine ⟨by omega, ?_⟩
      rw [hh, hzero, if_neg (by omega)]
    · intro conn hlt
      rw [hc, hl, hh]
      split
      · exact .inl (by omega)
      · exact hall conn (by omega)
  | gone conns ho hc hl hh =>
    have hle : ∀ conn, b'.held (h' :: hs) conn ≤ b.held (h :: hs) conn := by
      intro conn
      rw [hh]
      omega
    have hgone : ∀ conn ∈ conns, 0 < b.held (h :: hs) conn ∧
        b'.held (h' :: hs) conn = 0 := by
      intro conn hmem
      have hpos := List.count_pos_iff.2 hmem
      have := hh conn
      have := honce conn
      omega
    refine ⟨?_, ?_, ?_, ?_⟩
    · exact fun conn => Nat.le_trans (hle conn) (honce conn)
    · intro conn hpos
      rw [ho]
      exact hopen conn (Nat.lt_of_lt_of_le hpos (hle conn))
    · have hold : ∀ conn ∈ b.lost, conn < b'.opened ∧
          b'.held (h' :: hs) conn = 0 := by
        intro conn hmem
        obtain ⟨hlt, hzero⟩ := hlost conn hmem
        exact ⟨ho ▸ hlt, Nat.le_zero.1 (hzero ▸ hle conn)⟩
      intro conn hmem
      rcases hl with ⟨-, hl⟩ | hl
      · exact hold conn (hl ▸ hmem)
      · rw [hl, List.mem_append] at hmem
        rcases hmem with hmem | hmem
        · obtain ⟨hpos, hzero⟩ := hgone conn hmem
          exact ⟨ho ▸ hopen conn hpos, hzero⟩
        · exact hold conn hmem
    · intro conn hlt
      rw [hc]
      by_cases hmem : conn ∈ conns
      · rcases hl with ⟨hclosed, -⟩ | hl
        · exact .inr (.inl (hclosed hmem))
        · exact .inr (.inr (hl ▸ List.mem_append_left _ hmem))
      · have hcount := List.count_eq_zero_of_not_mem hmem
        have hheld := hh conn
        rcases hall conn (ho ▸ hlt) with hpos | hclosed | hmem
        · exact .inl (by omega)
        · exact .inr (.inl hclosed)
        · rcases hl with ⟨-, hl⟩ | hl
          · exact .inr (.inr (hl ▸ hmem))
          · exact .inr (.inr (hl ▸ List.mem_append_right _ hmem))

theorem accounted_kept (c : Config) : Kept c Accounted where
  perm {b hs hs'} h hi := by
    have hh : ∀ conn, b.held hs' conn = b.held hs conn :=
      fun conn => (b.held_eq_of_perm h conn).symm
    obtain ⟨honce, hopen, hlost, hall⟩ := hi
    constructor <;> simpa only [hh]
  join hi := ⟨hi.once, hi.opened, hi.lost, hi.all⟩
  leave hi := ⟨hi.once, hi.opened, hi.lost, hi.all⟩
  deal := Accounted.deal

/-- Every connection is accounted for after every run. -/
theorem accounted_of_run {c : Config} {s : Server} {as : List Action}
    {w : World} (h : Run c s as w) :
    ∃ lost, (∀ conn, conn ∈ lost ↔ Lost c s as conn) ∧
      Accounted (w.books lost) w.hands := by
  have hnew : s.connections = [] →
      Accounted ((World.new c s).books []) [] := by
    intro hs
    have hzero : ∀ conn, ((World.new c s).books []).held [] conn = 0 :=
      fun _ => rfl
    refine ⟨?_, ?_, by simp [World.books], by simp [World.books, World.new, hs]⟩
    · exact fun conn => hzero conn ▸ Nat.zero_le 1
    · exact fun conn hpos => absurd (hzero conn) (Nat.ne_of_gt hpos)
  obtain ⟨lost, hlost, hsound⟩ := (accounted_kept c).run hnew h
  exact ⟨lost, hlost, hsound.kept⟩

/-! ## What is left in the end -/

namespace World

/-- A call to close the connection has ended, well or not. -/
def HasClosed (w : World) (conn : Nat) : Prop :=
  ∃ x ∈ w.history, x.2.closed? = some conn

instance (w : World) (conn : Nat) : Decidable (w.HasClosed conn) :=
  inferInstanceAs (Decidable (∃ x ∈ w.history, x.2.closed? = some conn))

/-- The connection is kept for later. -/
def IsIdle (w : World) (conn : Nat) : Prop := ∃ e ∈ w.pool.idle, e.conn = conn

instance (w : World) (conn : Nat) : Decidable (w.IsIdle conn) :=
  inferInstanceAs (Decidable (∃ e ∈ w.pool.idle, e.conn = conn))

/-- The connection is lent. -/
def IsActive (w : World) (conn : Nat) : Prop :=
  ∃ loan ∈ w.pool.active, loan.entry.conn = conn

instance (w : World) (conn : Nat) : Decidable (w.IsActive conn) :=
  inferInstanceAs (Decidable (∃ loan ∈ w.pool.active, loan.entry.conn = conn))

end World

/-- When no task is left, a connection that was ever opened is kept for later,
or lent, or a call to close it has ended.  The only exceptions are connections
that were lost because a task was dropped that was to close them. -/
theorem idle_or_active_or_closed_iff {c : Config} {s : Server}
    {as : List Action} {w : World} (h : Run c s as w) (hdone : w.tasks = [])
    {conn : Nat} (hconn : conn < w.server.connections.length) :
    (w.IsIdle conn ∨ w.IsActive conn ∨ w.HasClosed conn) ↔
      (Lost c s as conn → w.HasClosed conn) := by
  obtain ⟨lost, hlost, ha⟩ := accounted_of_run h
  have hhands : w.hands = [] := by rw [World.hands, hdone, List.map_nil]
  have hclosed : conn ∈ (w.books lost).closed ↔ w.HasClosed conn :=
    List.mem_filterMap
  have hheld : 0 < (w.books lost).held w.hands conn ↔
      w.IsIdle conn ∨ w.IsActive conn := by
    rw [Books.held, List.count_pos_iff, Books.places, hhands]
    simp [World.books, World.IsIdle, World.IsActive]
  rw [← hlost, ← or_assoc, ← hheld]
  constructor
  · rintro (hpos | hc) hmem
    · exact absurd (ha.lost conn hmem).2 (Nat.ne_of_gt hpos)
    · exact hc
  · intro hl
    rcases ha.all conn hconn with hpos | hc | hmem
    · exact .inl hpos
    · exact .inr (hclosed.1 hc)
    · exact .inr (hl hmem)

/-- A server on which a call to close a connection takes half a second. -/
def slowToClose : Server :=
  { close := { delay := 500, message := "close failed" } }

/-- A connection is lent, and its return is dropped while the connection is
being closed. -/
def closeCutOff : List Action :=
  [.cancel false 1, .run 1, .run 1, .run 1, .start (.close 0) none,
    .run 0, .run 0, .run 0, .run 0, .run 0, .start .acquire none]

/-- The connection is nowhere and no call to close it ends, although a task
could have been started at any time. -/
theorem exists_neither_idle_nor_active_nor_closed :
    closeCutOff.all (·.isInside) = true ∧
      ∃ w, Run { maxActive := 1, maxIdle := 0 } slowToClose closeCutOff w ∧
        w.tasks = [] ∧ 0 < w.server.connections.length ∧
        ¬(w.IsIdle 0 ∨ w.IsActive 0 ∨ w.HasClosed 0) :=
  ⟨by decide, Run.exists_of_replay rfl rfl (by decide)⟩

/-- The exception does occur. -/
theorem lost_closeCutOff :
    ∃ w, Run { maxActive := 1, maxIdle := 0 } slowToClose closeCutOff w ∧
      (w.tasks = [] ∧ 0 < w.server.connections.length) ∧
      ((w.IsIdle 0 ∨ w.IsActive 0 ∨ w.HasClosed 0) ↔
        (Lost { maxActive := 1, maxIdle := 0 } slowToClose closeCutOff 0 →
          w.HasClosed 0)) := by
  have hex : ∃ w,
      Run { maxActive := 1, maxIdle := 0 } slowToClose closeCutOff w ∧
        w.tasks = [] ∧ 0 < w.server.connections.length :=
    Run.exists_of_replay rfl rfl (by decide)
  obtain ⟨w, h, hdone, hconn⟩ := hex
  exact ⟨w, h, ⟨hdone, hconn⟩, idle_or_active_or_closed_iff h hdone hconn⟩

end DatabasePool
