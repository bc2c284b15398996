import DatabasePool.Proofs.LastUse
import DatabasePool.Proofs.Returning

/-!
# What is tried before it is lent

A request that takes a connection from the pool, or from its holder, first has
to find it current and open.  If the connection has not been used for long, it
has to answer a ping as well.  A connection that the request has opened itself
is lent as it is.

All of this happens in one attempt, from when the request looks at the pool to
when it lends the connection.

* `Tried` says what a request has done with a connection that it has taken, and
  `Opened` what it has done to get a new one.
* `Stands` says where an attempt is, and `Run.stands` that it is nowhere else.
* `World.Unfit` says when a task finds a connection unfit, and
  `Run.unfit_discarded` that it is discarded then.
* `Looked.lastUsed` says that the record of what is taken says when that was
  last used.
* `tried_of_run` puts this together.
-/

namespace DatabasePool

/-! ## Pings -/

/-- The connection of which the remark says that it is pinged, and the
query. -/
def Remark.ping? : Remark → Option (Nat × String)
  | ping conn query => some (conn, query)
  | _ => none

/-- A holder is to ping a connection. -/
def Stage.pings : Stage → Bool
  | start (.ping _ _) => true
  | _ => false

namespace Findings

/-- All pings that have begun, the last one in front. -/
def pings (r : Findings) : List (Nat × String) := r.remarks.filterMap (·.ping?)

/-- The pings of one connection. -/
def pingsOf (r : Findings) (conn : Nat) : List (Nat × String) :=
  r.pings.filter (·.1 = conn)

variable (r : Findings)

@[simp] theorem pings_ping (conn : Nat) (query : String) :
    (r.ping conn query).pings = (conn, query) :: r.pings := rfl

@[simp] theorem pings_condemn (task : Nat) :
    (r.condemn task).pings = r.pings := rfl

@[simp] theorem pings_giveBack (lease : Nat) (fits : Bool) :
    (r.giveBack lease fits).pings = r.pings := rfl

theorem pingsOf_ping_self (conn : Nat) (query : String) :
    (r.ping conn query).pingsOf conn = (conn, query) :: r.pingsOf conn := by
  simp [pingsOf]

theorem pingsOf_ping {conn other : Nat} (hne : other ≠ conn) (query : String) :
    (r.ping other query).pingsOf conn = r.pingsOf conn := by
  simp [pingsOf, hne]

end Findings

namespace World

/-- The pings of a connection that have begun, the last one in front. -/
def pingsOf (w : World) (conn : Nat) : List (Nat × String) :=
  w.findings.pingsOf conn

/-- The pings that the pool began in an action.  What a holder asks for does
not count. -/
def pingsBegun (w : World) (a : Action) (w' : World) : List (Nat × String) :=
  if (a.task?.bind w.task?).any (·.stage.pings) then []
  else w'.findings.pings.take (w'.findings.pings.length - w.findings.pings.length)

/-- What is held is held under a valid lease. -/
theorem physical_eq_ok {w : World} {lease conn : Nat}
    (h : w.physical lease = .ok conn) :
    ∃ x, w.handles[lease]? = some x ∧ x.valid = true ∧ x.conn = conn := by
  unfold physical at h
  split at h
  · rename_i x hx
    split at h
    · exact ⟨x, hx, ‹_›, Except.ok.inj h⟩
    · cases h
  · cases h

/-- A call that goes well is answered for the connection that is told. -/
theorem answered {u : World} {call : Call} {conn : Nat}
    (h : (u.hearAnswer call).1 = .ok conn) :
    (u.hearAnswer call).2.history = (u.now, .answered call conn) :: u.history := by
  unfold hearAnswer at h ⊢
  generalize u.server.answer call = x at h ⊢
  rcases x with ⟨_ | n, server⟩
  · cases h
  · cases h
    rfl

end World

theorem Server.answer_ping {s : Server} {conn n : Nat} {query : String}
    (h : (s.answer (.ping conn query)).1 = .ok n) : n = conn := by
  simp only [answer] at h
  split at h
  · cases h
  · exact (Except.ok.inj h).symm

/-- A ping of the entry is due: pings are enabled, and the connection has not
been used for longer than it may be without one. -/
def Config.PingDue (c : Config) (now : Nat) (e : Entry) : Prop :=
  c.ping.enabled = true ∧
    c.ping.notUsedFor < Time.elapsed e.record.lastUsed now

theorem Config.pingDue_iff {c : Config} {now : Nat} {e : Entry} :
    c.PingDue now e ↔ c.ping.isDue (e.record.idleTime now) = true := by
  rw [PingPolicy.isDue, Bool.and_eq_true, decide_eq_true_eq]
  exact Iff.rfl

/-! ## Attempts -/

/-- The request has looked at the pool right after the actions `before`, in the
world `v`, and has not done so again in the actions `later`. -/
structure Looked (c : Config) (s : Server) (before later : List Action)
    (id : Nat) (q : Request) (v v' : World) : Prop where
  run : Run c s before v
  act : v.act (.run id) = some v'
  looks : (id, .acquire q .looking) ∈ v.roll
  once : ∀ u u', DoneIn c s (.run id :: before) later id u u' →
    ∀ r, (id, .acquire r .looking) ∉ u.roll

/-- A request that looks takes an entry: the first one of those that are kept,
or one that is on loan for too long. -/
inductive World.Takes (w : World) (e : Entry) (w' : World) : Prop where
  | kept (hidle : w.pool.idle = e :: w'.pool.idle)
  | claimed {loan : Loan}
      (hperm : (loan :: w'.pool.active).Perm w.pool.active)
      (hoverdue : w.config.timeouts.checkout < loan.heldFor w.now)
      (he : e = { loan.entry with record := loan.entry.record.takeBack })

/-- A request that looks gets room for a new connection with this record. -/
structure World.MakesRoom (w : World) (r : Record String) : Prop where
  idle : w.pool.idle = []
  room : w.pool.hasRoom w.config.maxActive = true
  record : r =
    .fresh (w.pool.lastId + 1) w.pool.options w.pool.generation w.now

/-- In the attempt, the request has checked the entry in the world `u` and has
found it current and open. -/
def FoundGood (c : Config) (s : Server) (before later : List Action)
    (id : Nat) (q : Request) (e : Entry) (u : World) : Prop :=
  ∃ u', DoneIn c s (.run id :: before) later id u u' ∧
    (id, .acquire q (.checking e)) ∈ u.roll ∧
      u.pool.isCurrent e.record = true ∧ u.server.isClosed e.conn = false

/-- In the attempt, the request has heard that the connection has answered a
ping with the query. -/
def HeardPing (c : Config) (s : Server) (before later : List Action)
    (id : Nat) (q : Request) (e : Entry) (query : String) : Prop :=
  ∃ u u' call, DoneIn c s (.run id :: before) later id u u' ∧
    (id, .acquire q (.pinging e call)) ∈ u.roll ∧
      u'.history.head? = some (u.now, .answered (.ping e.conn query) e.conn)

/-- In the attempt, the request has found the entry current and open, and has
pinged it once if that was due then. -/
inductive Tried (c : Config) (s : Server) (before later : List Action)
    (id : Nat) (q : Request) (v : World) (e : Entry) (w : World) : Prop where
  | early {u : World} (hgood : FoundGood c s before later id q e u)
      (hearly : ¬c.PingDue u.now e)
      (hpings : w.pingsOf e.conn = v.pingsOf e.conn) :
      Tried c s before later id q v e w
  | pinged {u : World} (hgood : FoundGood c s before later id q e u)
      (hdue : c.PingDue u.now e)
      (hpings : w.pingsOf e.conn =
        (e.conn, c.ping.query) :: v.pingsOf e.conn)
      (hheard : HeardPing c s before later id q e c.ping.query) :
      Tried c s before later id q v e w

/-- In the attempt, the request has opened the connection, and it has never
been pinged. -/
structure Opened (c : Config) (s : Server) (before later : List Action)
    (id : Nat) (q : Request) (e : Entry) (w : World) : Prop where
  opened : ∃ u u' failures call limit options,
    DoneIn c s (.run id :: before) later id u u' ∧
      (id, .acquire q (.connecting e.record failures call limit)) ∈ u.roll ∧
      u'.history.head? = some (u.now, .answered (.connect options) e.conn) ∧
      u.server.connections.length = e.conn
  unpinged : w.pingsOf e.conn = []

/-- Where an attempt stands that began after the actions `before`, in the world
`v`, when later actions have led to the world `w`. -/
inductive Stands (c : Config) (s : Server) (before later : List Action)
    (id : Nat) (q : Request) (v v' w : World) : Attempt → Prop where
  | opening {r : Record String} {failures : Nat} (hroom : v.MakesRoom r) :
      Stands c s before later id q v v' w (.opening r failures)
  | connecting {r : Record String} {failures : Nat} {call : Pending}
      {limit : Option Timer} (hroom : v.MakesRoom r) :
      Stands c s before later id q v v' w (.connecting r failures call limit)
  | recovering {e : Entry} (htakes : v.Takes e v')
      (hpings : w.pingsOf e.conn = v.pingsOf e.conn) :
      Stands c s before later id q v v' w (.recovering e)
  | undoing {e : Entry} {call : Pending} (htakes : v.Takes e v')
      (hpings : w.pingsOf e.conn = v.pingsOf e.conn) :
      Stands c s before later id q v v' w (.undoing e call)
  | checking {e : Entry} (htakes : v.Takes e v')
      (hpings : w.pingsOf e.conn = v.pingsOf e.conn) :
      Stands c s before later id q v v' w (.checking e)
  | pinging {e : Entry} {call : Pending} {u : World} (htakes : v.Takes e v')
      (hgood : FoundGood c s before later id q e u)
      (hdue : c.PingDue u.now e)
      (hpings : w.pingsOf e.conn = (e.conn, c.ping.query) :: v.pingsOf e.conn)
      (hcall : call.call = .ping e.conn c.ping.query) :
      Stands c s before later id q v v' w (.pinging e call)
  | lendNew {e : Entry} (hroom : v.MakesRoom e.record)
      (hopened : Opened c s before later id q e w) :
      Stands c s before later id q v v' w (.lending e)
  | lend {e : Entry} (htakes : v.Takes e v')
      (htried : Tried c s before later id q v e w) :
      Stands c s before later id q v v' w (.lending e)
  | discarding {call : Pending} {bad : Bool} :
      Stands c s before later id q v v' w (.discarding call bad)
  | waiting {since : Nat} {alarm : Timer} :
      Stands c s before later id q v v' w (.waiting since alarm)

/-- An attempt that has begun stands somewhere after these actions. -/
def Attempts (c : Config) (s : Server) (as : List Action) (id : Nat)
    (q : Request) (w : World) (a : Attempt) : Prop :=
  ∃ before later v v', as = later ++ .run id :: before ∧
    Looked c s before later id q v v' ∧
      Stands c s before later id q v v' w a

section Runs

variable {c : Config} {s : Server} {as before later : List Action}
  {a : Action} {v v' w w' : World} {id : Nat} {q : Request} {st : Stage}
  {e : Entry}

/-! ## Whose connection is pinged -/

/-- No connection is in the slots of two tasks. -/
theorem Run.slot_unique (h : Run c s as w) {i : Nat} {st' : Stage} {e' : Entry}
    (hmem : (id, st) ∈ w.roll) (he : st.entry? = some e)
    (hmem' : (i, st') ∈ w.roll) (he' : st'.entry? = some e')
    (hconn : e'.conn = e.conn) : i = id := by
  have hnodup : w.guarded.Nodup := by
    refine List.nodup_iff_count_le_one.2 fun conn => ?_
    have hone := h.presence_le conn
    unfold World.presence at hone
    omega
  obtain ⟨t, ht, heq⟩ := List.mem_map.1 hmem
  obtain ⟨u, hu, heq'⟩ := List.mem_map.1 hmem'
  cases heq
  cases heq'
  by_contra hne
  have hperm := ((World.distinct_of_run h).perm_others ht).flatMap_right
    fun t => t.stage.entry?.toList.map (·.conn)
  rw [List.flatMap_cons] at hperm
  obtain ⟨-, -, hdisjoint⟩ := List.nodup_append.1 (hperm.nodup_iff.1 hnodup)
  refine hdisjoint e.conn ?_ e'.conn ?_ hconn.symm
  · simp [he]
  · exact List.mem_flatMap.2 ⟨u, World.mem_others.2 ⟨hu, hne⟩, by simp [he']⟩

/-- Nobody else pings what a task has in its slot. -/
theorem Run.pingsOf_others (h : Run c s as w) (ha : w.act a = some w')
    (hmem : (id, st) ∈ w.roll) (he : st.entry? = some e)
    (hne : a.task? ≠ some id) : w'.pingsOf e.conn = w.pingsOf e.conn := by
  obtain hsame | ⟨i, st', flow, rfl, hmem', hreports⟩ :=
    World.reported (World.distinct_of_run h) ha
  · exact congrArg (·.pingsOf e.conn) hsame
  · rw [World.pingsOf]
    generalize w'.findings = r at hreports
    cases hreports with
    | same | foundClosed | notPinged | back => rfl
    | @ask lease conn _ _ hheld =>
      refine Findings.pingsOf_ping _ ?_ _
      rintro rfl
      obtain ⟨x, hx, hvalid, hconn⟩ := World.physical_eq_ok hheld
      cases hvalid.symm.trans
        (h.ended_of_holds (World.holds_of_entry hmem he) hx hconn)
    | ping =>
      refine Findings.pingsOf_ping _ (fun hconn => ?_) _
      have hid := h.slot_unique hmem he hmem' rfl hconn
      exact hne (congrArg some hid)

/-! ## More actions -/

/-- The same attempt goes on unless the request looks again. -/
theorem Looked.cons (hl : Looked c s before later id q v v')
    (h : Run c s (later ++ .run id :: before) w)
    (hnot : a = .run id → ∀ r, (id, .acquire r .looking) ∉ w.roll) :
    Looked c s before (a :: later) id q v v' := by
  refine ⟨hl.run, hl.act, hl.looks, fun u u' hdone r => ?_⟩
  obtain hdone | ⟨ha, rfl, -⟩ := h.doneIn_cons hdone
  · exact hl.once u u' hdone r
  · exact hnot ha r

theorem FoundGood.cons {u : World} (hg : FoundGood c s before later id q e u)
    (a : Action) : FoundGood c s before (a :: later) id q e u := by
  obtain ⟨u', hdone, hg⟩ := hg
  exact ⟨u', hdone.cons a, hg⟩

theorem HeardPing.cons {query : String}
    (hp : HeardPing c s before later id q e query) (a : Action) :
    HeardPing c s before (a :: later) id q e query := by
  obtain ⟨u, u', call, hdone, hp⟩ := hp
  exact ⟨u, u', call, hdone.cons a, hp⟩

theorem Tried.cons (ht : Tried c s before later id q v e w)
    (hpings : w'.pingsOf e.conn = w.pingsOf e.conn) (a : Action) :
    Tried c s before (a :: later) id q v e w' := by
  cases ht with
  | early hgood hearly hsame =>
    exact .early (hgood.cons a) hearly (hpings.trans hsame)
  | pinged hgood hdue hmore hheard =>
    exact .pinged (hgood.cons a) hdue (hpings.trans hmore) (hheard.cons a)

theorem Opened.cons (ho : Opened c s before later id q e w)
    (hpings : w'.pingsOf e.conn = w.pingsOf e.conn) (a : Action) :
    Opened c s before (a :: later) id q e w' := by
  obtain ⟨⟨u, u', failures, call, limit, options, hdone, ho⟩, hnone⟩ := ho
  exact ⟨⟨u, u', failures, call, limit, options, hdone.cons a, ho⟩,
    hpings.trans hnone⟩

/-- An attempt stands where it is for as long as nobody pings what it has. -/
theorem Stands.cons {x : Attempt} (hi : Stands c s before later id q v v' w x)
    (hpings : ∀ e, x.entry? = some e →
      w'.pingsOf e.conn = w.pingsOf e.conn) (a : Action) :
    Stands c s before (a :: later) id q v v' w' x := by
  cases hi with
  | opening hroom => exact .opening hroom
  | connecting hroom => exact .connecting hroom
  | recovering htakes hsame =>
    exact .recovering htakes ((hpings _ rfl).trans hsame)
  | undoing htakes hsame => exact .undoing htakes ((hpings _ rfl).trans hsame)
  | checking htakes hsame => exact .checking htakes ((hpings _ rfl).trans hsame)
  | pinging htakes hgood hdue hmore hcall =>
    exact .pinging htakes (hgood.cons a) hdue ((hpings _ rfl).trans hmore) hcall
  | lendNew hroom hopened => exact .lendNew hroom (hopened.cons (hpings _ rfl) a)
  | lend htakes htried => exact .lend htakes (htried.cons (hpings _ rfl) a)
  | discarding => exact .discarding
  | waiting => exact .waiting

/-- Only a connection is pinged that has been opened. -/
theorem Run.pings_lt (h : Run c s as w) :
    ∀ p ∈ w.findings.pings, p.1 < w.server.connections.length := by
  induction h with
  | new hs hw =>
    obtain ⟨-, -, rfl⟩ := Run.new_iff.1 (.new hs hw)
    intro p hp
    cases hp
  | @act as a w w' h ha ih =>
    have hle := h.connections_le ha
    have hold : ∀ p ∈ w.findings.pings, p.1 < w'.server.connections.length :=
      fun p hp => Nat.lt_of_lt_of_le (ih p hp) hle
    have hnew : ∀ {conn : Nat} {query : String},
        conn < w.server.connections.length →
        ∀ p ∈ (w.findings.ping conn query).pings,
          p.1 < w'.server.connections.length := by
      intro conn query hlt p hp
      rcases List.mem_cons.1 hp with rfl | hp
      · exact Nat.lt_of_lt_of_le hlt hle
      · exact hold p hp
    obtain hsame | ⟨i, st, flow, rfl, hmem, hreports⟩ :=
      World.reported (World.distinct_of_run h) ha
    · exact hsame ▸ hold
    · generalize w'.findings = r at hreports
      cases hreports with
      | same | foundClosed | notPinged | back => exact hold
      | ask hheld =>
        obtain ⟨x, hx, hvalid, rfl⟩ := World.physical_eq_ok hheld
        obtain ⟨loan, hl, -, hconn⟩ := h.loan_of_valid hx hvalid
        exact hnew (hconn ▸ h.lt_of_lent hl)
      | ping =>
        exact hnew (h.lt_of_presence (World.holds_of_entry hmem rfl).presence_pos)

/-- A connection that is about to be opened has never been pinged. -/
theorem Run.pingsOf_new (h : Run c s as w) :
    w.pingsOf w.server.connections.length = [] := by
  refine List.filter_eq_nil_iff.2 fun p hp => ?_
  have hlt := h.pings_lt p hp
  simpa using Nat.ne_of_lt hlt

/-! ## Where an attempt stands -/

/-- A task goes on with an attempt if it was at one before, or if it is about
to look at the pool for the first time. -/
theorem World.Moves.of_acquire {u : World} {flow : Flow} {x : Attempt}
    (h : w.Moves id st flow u) (hs : flow.stage? = some (.acquire q x)) :
    (∃ r y, st = .acquire r y) ∨ x = .looking := by
  cases h with
  | request =>
    cases hs
    exact .inr rfl
  | _ => cases hs <;> exact .inl ⟨_, _, rfl⟩

/-- An attempt begins when a request looks at the pool. -/
theorem Run.stands_new (h : Run c s as w) (ha : w.act (.run id) = some w')
    {x : Attempt} (hlooks : (id, .acquire q .looking) ∈ w.roll)
    (hstands : Stands c s as [] id q w w' w' x) :
    Attempts c s (.run id :: as) id q w' x := by
  refine ⟨as, [], w, w', rfl, ⟨h, ha, hlooks, ?_⟩, hstands⟩
  rintro u u' ⟨before, after, heq, -⟩
  cases after <;> cases heq

/-- The request looks at the pool. -/
theorem Run.stands_look (h : Run c s as w) (ha : w.act (.run id) = some w')
    {flow : Flow} {u : World} {x : Attempt} {r : Request}
    (hlooks : (id, .acquire r .looking) ∈ w.roll)
    (hmove : (w.pick id).Moves id (.acquire r .looking) flow u)
    (hs : flow.stage? = some (.acquire q x)) (halike : World.Alike u w') :
    Attempts c s (.run id :: as) id q w' x := by
  have hpings : u.findings = w.findings →
      ∀ conn, w'.pingsOf conn = w.pingsOf conn := fun hu conn =>
    congrArg (·.pingsOf conn) (halike.findings.trans hu)
  cases hmove with
  | take _ hidle =>
    cases hs
    refine h.stands_new ha hlooks (.checking (.kept ?_) (hpings rfl _))
    rw [halike.pool]
    exact hidle
  | makeRoom _ hidle hroom =>
    cases hs
    exact h.stands_new ha hlooks (.opening ⟨hidle, hroom, rfl⟩)
  | @claim _ loan _ _ _ _ htake =>
    cases hs
    obtain ⟨hdue, -, rest, hperm, rfl⟩ := Pool.takeOverdue?_eq_some htake
    have hdue : loan.entry.record.isOverdue w.config.timeouts.checkout
      w.now = true := hdue
    refine h.stands_new ha hlooks (.recovering (.claimed ?_ ?_ rfl) ?_)
    · rw [halike.pool]
      exact hperm
    · simpa [Record.isOverdue_eq, Loan.heldFor] using hdue
    · exact hpings (World.findings_note _ rfl) _
  | wait =>
    cases hs
    exact h.stands_new ha hlooks .waiting
  | awaits hcall => cases hcall
  | ended | outOfReach => cases hs

/-- The attempt goes on, and it is the same one. -/
theorem Run.stands_on (h : Run c s as w) (ha : w.act (.run id) = some w')
    {flow : Flow} {u : World} {x y : Attempt} {r : Request}
    (hmem : (id, .acquire r x) ∈ w.roll) (hx : x ≠ .looking)
    (hfits : x.Fits)
    (hi : Attempts c s as id r w x)
    (hmove : (w.pick id).Moves id (.acquire r x) flow u)
    (hs : flow.stage? = some (.acquire q y)) (hy : y ≠ .looking)
    (halike : World.Alike u w') : Attempts c s (.run id :: as) id q w' y := by
  obtain ⟨before, later, v, v', rfl, hlooked, hstands⟩ := hi
  have hconfig : (w.pick id).config = c := h.config_fits.1
  have hnot : ∀ r', (id, .acquire r' .looking) ∉ w.roll := by
    intro r' hlooking
    have hst := (World.distinct_of_run h).stage_unique hmem hlooking
    exact hx (Stage.acquire.inj hst).2
  have hdone : DoneIn c s (.run id :: before) (.run id :: later) id w w' :=
    ⟨later, [], rfl, h, ha⟩
  have hgo : r = q → Stands c s before (.run id :: later) id r v v' w' y →
      Attempts c s (.run id :: (later ++ .run id :: before)) id q w' y := by
    rintro rfl hy
    exact ⟨before, .run id :: later, v, v', rfl,
      hlooked.cons h fun _ => hnot, hy⟩
  have hpings : u.findings = w.findings →
      ∀ conn, w'.pingsOf conn = w.pingsOf conn := fun hu conn =>
    congrArg (·.pingsOf conn) (halike.findings.trans hu)
  cases hmove with
  | ended | take | makeRoom | claim | wait | outOfReach => exact absurd rfl hx
  | dial =>
    cases hs
    cases hstands with
    | opening hroom => exact hgo rfl (.connecting hroom)
  | @connect r record failures conn call limit hdue hok =>
    cases hs
    obtain ⟨options, hcall⟩ := hfits
    rw [hcall] at hok halike
    have hnew : conn = w.server.connections.length := by
      obtain ⟨hnew, -⟩ | ⟨⟨message, herr⟩, -⟩ :=
        World.scene_hearAnswer_connect (w.pick id) options
      · exact Except.ok.inj (hok.symm.trans hnew)
      · cases herr.symm.trans hok
    subst hnew
    cases hstands with
    | connecting hroom =>
      refine hgo rfl (.lendNew hroom ⟨⟨w, w', failures, call, limit, options,
        hdone, hmem, ?_, rfl⟩, ?_⟩)
      · rw [halike.history, World.answered hok]
        rfl
      · exact (hpings (World.findings_hearAnswer ..) _).trans h.pingsOf_new
  | retry =>
    cases hs
    cases hstands with
    | connecting hroom => exact hgo rfl (.opening hroom)
  | stayConnecting =>
    cases hs
    cases hstands with
    | connecting hroom => exact hgo rfl (.connecting hroom)
  | recoverClosed | notUndone | stale | foundClosed | notPinged | lendStale =>
    cases hs
    exact hgo rfl .discarding
  | recoverClean =>
    cases hs
    cases hstands with
    | recovering htakes hsame =>
      exact hgo rfl (.checking htakes ((hpings rfl _).trans hsame))
  | recoverUndo =>
    cases hs
    cases hstands with
    | recovering htakes hsame =>
      refine hgo rfl (.undoing htakes (Eq.trans (hpings ?_ _) hsame))
      exact World.findings_beginCall _ rfl
  | undone =>
    cases hs
    cases hstands with
    | undoing htakes hsame =>
      refine hgo rfl (.checking htakes (Eq.trans (hpings ?_ _) hsame))
      exact World.findings_hearAnswer ..
  | @ping r e hcurrent hopen hneeded =>
    cases hs
    cases hstands with
    | checking htakes hsame =>
      rw [hconfig] at halike hneeded hgo ⊢
      refine hgo rfl (.pinging htakes ⟨w', hdone, hmem, hcurrent, hopen⟩
        (Config.pingDue_iff.2 hneeded) ?_ rfl)
      rw [World.pingsOf, halike.findings, World.findings_ping,
        Findings.pingsOf_ping_self]
      exact congrArg _ hsame
  | good hcurrent hopen hneeded =>
    cases hs
    cases hstands with
    | checking htakes hsame =>
      rw [hconfig] at hneeded
      refine hgo rfl (.lend htakes (.early ⟨w', hdone, hmem, hcurrent, hopen⟩
        (fun hdue => ?_) ((hpings rfl _).trans hsame)))
      exact Bool.eq_false_iff.1 hneeded (Config.pingDue_iff.1 hdue)
  | @pinged r e call conn hdue hok =>
    cases hs
    cases hstands with
    | pinging htakes hgood hneeded hmore hcall =>
      rw [hcall] at hok halike
      obtain rfl := Server.answer_ping ((World.answer_pick ..).symm.trans hok)
      refine hgo rfl (.lend htakes (.pinged (hgood.cons _) hneeded
        ((hpings (World.findings_hearAnswer ..) _).trans hmore)
        ⟨w, w', call, hdone, hmem, ?_⟩))
      rw [halike.history, World.answered hok]
      rfl
  | tryAgain | told | roused =>
    cases hs
    exact absurd rfl hy
  | stayWaiting | awaits =>
    cases hs
    exact hgo rfl (hstands.cons (fun _ _ => hpings rfl _) _)
  | refused | timeout | lend | allBad | exhausted => cases hs

/-- An attempt that goes on after an action stands somewhere. -/
theorem Run.stands_act (h : Run c s as w) (ha : w.act a = some w')
    (ih : ∀ {id q x}, (id, .acquire q x) ∈ w.roll → x ≠ .looking →
      Attempts c s as id q w x)
    {x : Attempt} (hmem : (id, .acquire q x) ∈ w'.roll) (hx : x ≠ .looking) :
    Attempts c s (a :: as) id q w' x := by
  have hd := World.distinct_of_run h
  obtain ⟨hmem, hne⟩ | ⟨-, hfresh⟩ | ⟨t, flow, u, rfl, ht, hmove, hs, halike⟩ :=
    World.stage_act hd ha hmem
  · obtain ⟨before, later, v, v', rfl, hlooked, hstands⟩ := ih hmem hx
    refine ⟨before, a :: later, v, v', rfl, hlooked.cons h ?_,
      hstands.cons (fun e he => ?_) a⟩
    · rintro rfl
      exact absurd rfl hne
    · exact h.pingsOf_others ha hmem (e := e) he hne
  · obtain ⟨_, hst⟩ | ⟨_, hst⟩ | ⟨_, hst⟩ := hfresh
    all_goals cases hst
  · have hthere := World.mem_roll_of_task? ht
    have hfits := h.config_fits.2 t (World.mem_of_task? ht)
    have hmoves := World.moves_of_eq hmove
    generalize t.stage = st at hthere hfits hmoves
    obtain ⟨r, y, rfl⟩ | hstart := hmoves.of_acquire hs
    · by_cases hy : y = .looking
      · subst hy
        exact h.stands_look ha hthere hmoves hs halike
      · exact h.stands_on ha hthere hy hfits (ih hthere hy) hmoves hs hx halike
    · exact absurd hstart hx

theorem Run.stands (h : Run c s as w) {x : Attempt}
    (hmem : (id, .acquire q x) ∈ w.roll) (hx : x ≠ .looking) :
    Attempts c s as id q w x := by
  induction h generalizing id q x with
  | new hs hw =>
    obtain ⟨-, -, rfl⟩ := Run.new_iff.1 (.new hs hw)
    cases hmem
  | act h ha ih => exact h.stands_act ha ih hmem hx

/-- The pool begins a ping only for a request that checks a connection and
finds that a ping is due. -/
theorem Run.pings_due (h : Run c s as w) (ha : w.act a = some w') {conn : Nat}
    {query : String} (hmem : (conn, query) ∈ w.pingsBegun a w') :
    query = c.ping.query ∧ ∃ id q e, a = .run id ∧ e.conn = conn ∧
      (id, .acquire q (.checking e)) ∈ w.roll ∧
      w.pool.isCurrent e.record = true ∧ w.server.isClosed e.conn = false ∧
        c.PingDue w.now e := by
  have hd := World.distinct_of_run h
  unfold World.pingsBegun at hmem
  split at hmem
  · cases hmem
  · next hown =>
    have hnone : w'.findings.pings ≠ w.findings.pings := by
      intro he
      rw [he, Nat.sub_self, List.take_zero] at hmem
      cases hmem
    obtain hsame | ⟨i, st, flow, rfl, hthere, hreports⟩ := World.reported hd ha
    · exact absurd (congrArg _ hsame) hnone
    · generalize w'.findings = r at hmem hnone hreports
      cases hreports with
      | same | foundClosed | notPinged | back => exact absurd rfl hnone
      | ask =>
        obtain ⟨t, ht, hst⟩ := hd.task?_of_roll hthere
        exact absurd (by simp [Action.task?, ht, hst, Stage.pings]) hown
      | @ping q e call hcurrent hopen hneeded =>
        have hconfig : (w.pick i).config = c := h.config_fits.1
        rw [hconfig] at hmem hneeded
        have hone : (conn, query) ∈ [(e.conn, c.ping.query)] := by
          have hlen : (((w.pick i).findings.ping e.conn c.ping.query).pings.length -
              w.findings.pings.length) = 1 := by
            exact Nat.add_sub_cancel_left w.findings.pings.length 1
          rwa [hlen] at hmem
        cases List.mem_singleton.1 hone
        exact ⟨rfl, i, q, e, rfl, rfl, hthere, hcurrent, hopen,
          Config.pingDue_iff.2 hneeded⟩

/-! ## What is unfit -/

/-- A task at this stage is about to find that the connection is unfit: it is
out of date, or closed, or does not answer a ping. -/
inductive World.Unfit (w : World) : Stage → Nat → Prop where
  | stale {q : Request} {e : Entry}
      (hstale : w.pool.isCurrent e.record = false) :
      Unfit w (.acquire q (.checking e)) e.conn
  | lendStale {q : Request} {e : Entry}
      (hstale : w.pool.isCurrent e.record = false) :
      Unfit w (.acquire q (.lending e)) e.conn
  | closed {q : Request} {e : Entry}
      (hclosed : w.server.isClosed e.conn = true) :
      Unfit w (.acquire q (.checking e)) e.conn
  | claimClosed {q : Request} {e : Entry}
      (hclosed : w.server.isClosed e.conn = true) :
      Unfit w (.acquire q (.recovering e)) e.conn
  | notPinged {q : Request} {e : Entry} {call : Pending} {message : String}
      (hdue : w.isDue call.timer = true)
      (herr : (w.server.answer call.call).1 = .error message) :
      Unfit w (.acquire q (.pinging e call)) e.conn
  | returned {loan : Loan} (hl : loan ∈ w.pool.active)
      (hunfit : w.pool.isCurrent loan.entry.record = false ∨
        w.server.isClosed loan.entry.conn = true) :
      Unfit w (.giveBack (.starting loan.lease)) loan.entry.conn
  | stored {e : Entry} (hstale : w.pool.isCurrent e.record = false) :
      Unfit w (.giveBack (.storing e)) e.conn

theorem World.Unfit.closesPhysical {conn : Nat} (h : w.Unfit st conn) :
    st.closesPhysical = false := by
  cases h <;> rfl

/-- A task begins to close a connection that is unfit.  If it is to end a loan
first, it has more to do with that. -/
theorem World.Moves.closes_unfit {u : World} {flow : Flow} {conn : Nat}
    (h : (w.pick id).Moves id st flow u) (hfits : st.Fits)
    (hunfit : w.Unfit st conn) (hst : ∀ lease, st ≠ .giveBack (.starting lease)) :
    ∃ (s' : Stage) (z : World), flow = .again s' ∧
      u = (z.beginCall (.close conn)).2 ∧ z.begun = w.begun := by
  have hreject : ∀ (z : World) conn, (z.reject id conn).begun = z.begun :=
    fun _ _ => rfl
  cases hunfit with
  | stale hstale =>
    cases h with
    | stale => exact ⟨_, _, rfl, rfl, rfl⟩
    | foundClosed hcurrent | ping hcurrent | good hcurrent =>
      cases hstale.symm.trans hcurrent
    | awaits hcall => cases hcall
  | lendStale hstale =>
    cases h with
    | lendStale => exact ⟨_, _, rfl, rfl, rfl⟩
    | lend hlend => cases hstale.symm.trans (Pool.lend?_eq_some hlend).1
    | awaits hcall => cases hcall
  | closed hclosed =>
    cases h with
    | stale | foundClosed => exact ⟨_, _, rfl, rfl, rfl⟩
    | ping _ hopen | good _ hopen => cases hclosed.symm.trans hopen
    | awaits hcall => cases hcall
  | claimClosed hclosed =>
    cases h with
    | recoverClosed => exact ⟨_, _, rfl, rfl, rfl⟩
    | recoverClean hopen | recoverUndo hopen => cases hclosed.symm.trans hopen
    | awaits hcall => cases hcall
  | @notPinged _ _ call _ hdue herr =>
    cases h with
    | notPinged =>
      obtain ⟨query, hcall⟩ := hfits
      refine ⟨_, _, rfl, rfl, (hreject _ _).trans ?_⟩
      exact World.begun_hearAnswer (w.pick id) fun _ he => by cases hcall.symm.trans he
    | pinged _ hok =>
      rw [World.answer_pick] at hok
      cases herr.symm.trans hok
    | awaits hcall hnot =>
      cases hcall
      cases hdue.symm.trans hnot
  | returned => exact absurd rfl (hst _)
  | stored hstale =>
    cases h with
    | noRoom => exact ⟨_, _, rfl, rfl, rfl⟩
    | store hstore =>
      cases hstale.symm.trans (Pool.store?_eq_some hstore).2.1
    | awaits hcall => cases hcall

/-- A connection that is found unfit is discarded. -/
theorem Run.unfit_discarded (h : Run c s as w) {conn : Nat}
    (hmem : (id, st) ∈ w.roll) (hunfit : w.Unfit st conn)
    (ha : w.act (.run id) = some w') :
    Discarded c s (.run id :: as) w' conn := by
  suffices hbegun : conn ∈ w.closesBegun (.run id) w' by
    refine .inl ?_
    rw [World.closesBegunIn, h.along_cons _ ha]
    exact List.mem_append_left _ hbegun
  by_cases hstarting : ∃ lease, st = .giveBack (.starting lease)
  · obtain ⟨lease, rfl⟩ := hstarting
    cases hunfit with
    | @returned loan hl hunfit =>
      have hnot : ¬w.MayStay loan := by
        rintro ⟨⟨hcurrent, -⟩, hopen⟩
        rcases hunfit with hstale | hclosed
        · cases hstale.symm.trans hcurrent
        · cases hclosed.symm.trans hopen
      cases (h.startsBack hmem hl ha).1 with
      | turnAway _ _ hshuts => exact hshuts.begun
      | clean hkeep | undo hkeep => exact absurd hkeep hnot
  · obtain ⟨limit, flow, u, ht, hmove, hu, hf⟩ :=
      World.act_roll (World.distinct_of_run h) hmem ha
    have hfits := h.config_fits.2 _ (World.mem_of_task? ht)
    obtain ⟨s', z, rfl, hz, hbegun⟩ :=
      (World.moves_of_eq hmove).closes_unfit hfits hunfit
        fun lease he => hstarting ⟨lease, he⟩
    refine World.mem_closesBegun ?_ ?_
    · simp [Action.task?, ht, hunfit.closesPhysical]
    · refine (congrArg Scene.begun (hf.of_again hu).2.scene).trans ?_
      rw [hz, World.scene_beginCall]
      exact congrArg (conn :: ·) hbegun

/-- What a request takes has a record that says when it was last used. -/
theorem Looked.lastUsed (hl : Looked c s before later id q v v')
    (htakes : v.Takes e v') : e.LastUsed c s before := by
  have hdated := dated_of_run hl.run
  cases htakes with
  | kept hidle => exact hdated.idle e (hidle ▸ List.mem_cons_self)
  | claimed hperm _ he =>
    subst he
    exact hdated.lent _ (hperm.subset List.mem_cons_self)

/-- What is tried before it is lent.  When an action lends a connection, then in
the same attempt the request has either got room for a new connection and has
opened this one, and it has never been pinged; or it has taken this one from
those that are kept, or from its holder who had it for too long, and has found
it current and open, and has pinged it once with the query of the pool and got
an answer if a ping was due then, and not at all if none was due.  Whether a
ping was due counts from when the connection last came back, or if it never
had, from when its opening was decided.  When an action finds a connection
unfit, that is discarded and never lent again.  And the pool begins a ping only
of a connection that it has taken in this way, for an attempt that has found it
current and open, when a ping is due. -/
theorem tried_of_run (h : Run c s as w) (ha : w.act a = some w') :
    (∀ lease x, w.handles.length ≤ lease → w'.handles[lease]? = some x →
      ∃ id q e before later v v', a = .run id ∧ x.conn = e.conn ∧
        x.record = e.record.lend w.now ∧
        w'.history.head? = some (w.now, .ended id (.lent lease)) ∧
        as = later ++ .run id :: before ∧
        Looked c s before later id q v v' ∧
        (id, .acquire q (.lending e)) ∈ w.roll ∧
        (v.MakesRoom e.record ∧ Opened c s before later id q e w ∨
          v.Takes e v' ∧ e.LastUsed c s before ∧
            Tried c s before later id q v e w) ∧
        w'.findings.pings = w.findings.pings) ∧
    (∀ id st conn, a = .run id → (id, st) ∈ w.roll → w.Unfit st conn →
      ∀ later u, Run c s (later ++ a :: as) u →
        Discarded c s (later ++ a :: as) u conn ∧ ∀ lease x,
          w'.handles.length ≤ lease → u.handles[lease]? = some x →
            x.conn ≠ conn) ∧
    ∀ conn query, (conn, query) ∈ w.pingsBegun a w' →
      query = c.ping.query ∧
      ∃ id q e before later v v', a = .run id ∧ e.conn = conn ∧
        as = later ++ .run id :: before ∧
        Looked c s before later id q v v' ∧ v.Takes e v' ∧
        e.LastUsed c s before ∧
        (id, .acquire q (.checking e)) ∈ w.roll ∧
        w.pool.isCurrent e.record = true ∧ w.server.isClosed e.conn = false ∧
          c.PingDue w.now e := by
  refine ⟨?_, ?_, ?_⟩
  · intro lease x hle hx
    obtain ⟨id, q, e, rfl, hmem, -, -, -, hended, hconn, hrecord⟩ :=
      h.lends ha hle hx
    obtain ⟨before, later, v, v', has, hlooked, hstands⟩ :=
      h.stands hmem fun he => by cases he
    refine ⟨id, q, e, before, later, v, v', rfl, hconn, hrecord, hended, has,
      hlooked, hmem, ?_, ?_⟩
    · cases hstands with
      | lendNew hroom hopened => exact .inl ⟨hroom, hopened⟩
      | lend htakes htried =>
        exact .inr ⟨htakes, hlooked.lastUsed htakes, htried⟩
    · obtain hsame | ⟨i, st, flow, hi, hthere, hreports⟩ :=
        World.reported (World.distinct_of_run h) ha
      · exact congrArg _ hsame
      · cases hi
        cases (World.distinct_of_run h).stage_unique hthere hmem
        generalize w'.findings = r at hreports
        cases hreports
        rfl
  · rintro id st conn rfl hmem hunfit later u h'
    exact (h.act ha).never_again (h.unfit_discarded hmem hunfit ha) h'
  · intro conn query hping
    obtain ⟨hquery, id, q, e, rfl, hconn, hmem, hcurrent, hopen, hdue⟩ :=
      h.pings_due ha hping
    obtain ⟨before, later, v, v', has, hlooked, hstands⟩ :=
      h.stands hmem fun he => by cases he
    cases hstands with
    | checking htakes =>
      exact ⟨hquery, id, q, e, before, later, v, v', rfl, hconn, has, hlooked,
        htakes, hlooked.lastUsed htakes, hmem, hcurrent, hopen, hdue⟩

end Runs

/-- A connection that has not been used for a tenth of a second is pinged. -/
def pingStale : Config := { ping := .on "SELECT 1" (Time.ofMillis 100) }

/-- A connection is lent and given back after a while.  Later a second request
takes it and pings it. -/
def keptAndPinged : List Action :=
  [.run 2, .run 2, .run 2, .run 2, .start .acquire none,
    .advance (Time.ofMillis 200), .run 1, .run 1, .run 1, .start (.close 0) none,
    .advance (Time.ofMillis 50),
    .run 0, .run 0, .run 0, .run 0, .run 0, .start .acquire none]

/-- The second request has tried the connection before it lends it, which was
last used when it came back. -/
theorem tried_keptAndPinged :
    ∃ w w', Run pingStale {} keptAndPinged w ∧ w.act (.run 2) = some w' ∧
      w'.handles[1]?.map (·.conn) = some 0 ∧
      w.pingsOf 0 = [(0, "SELECT 1")] ∧
      (World.new pingStale {}).returnsIn keptAndPinged =
        [(0, Time.ofMillis 50)] ∧
      ∃ q e before later v v', keptAndPinged = later ++ .run 2 :: before ∧
        Looked pingStale {} before later 2 q v v' ∧ v.Takes e v' ∧
          e.LastUsed pingStale {} before ∧
            Tried pingStale {} before later 2 q v e w := by
  have hw : ∃ w, Run pingStale {} keptAndPinged w ∧
      w.handles.length = 1 ∧ w.pingsOf 0 = [(0, "SELECT 1")] :=
    Run.exists_of_replay rfl rfl (by decide +kernel)
  have hw' : ∃ w', Run pingStale {} (.run 2 :: keptAndPinged) w' ∧
      w'.handles[1]?.map (·.conn) = some 0 :=
    Run.exists_of_replay rfl rfl (by decide +kernel)
  have hreturns : (World.new pingStale {}).returnsIn keptAndPinged =
      [(0, Time.ofMillis 50)] := by decide +kernel
  obtain ⟨w, h, hlen, hpings⟩ := hw
  obtain ⟨w', h', hconn'⟩ := hw'
  obtain ⟨x, hx, hxconn⟩ := Option.map_eq_some_iff.1 hconn'
  cases h' with
  | act hv ha =>
    obtain rfl := h.unique hv
    obtain ⟨hlent, -, -⟩ := tried_of_run h ha
    obtain ⟨id, q, e, before, later, v, v', hid, hconn, -, -, has, hlooked, -,
      hway, -⟩ := hlent 1 x (Nat.le_of_eq hlen) hx
    cases hid
    refine ⟨w, w', h, ha, hconn', hpings, hreturns, q, e, before, later, v, v',
      has, hlooked, hway.resolve_left ?_⟩
    rintro ⟨-, hopened⟩
    have hnone := hopened.unpinged
    rw [← hconn, hxconn, hpings] at hnone
    cases hnone

end DatabasePool
