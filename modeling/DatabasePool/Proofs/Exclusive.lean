import DatabasePool.Proofs.Names
import DatabasePool.Proofs.Places
import Mathlib.Data.List.Nodup

/-!
# One holder for each connection

A lease is valid from the loan of a connection to the end of that loan, and
the connection may be lent again under another lease long before the first
holder is done with it.

* `Leased` ties leases to loans: each valid lease is the lease of one loan.
* `exclusive_of_run` says that no two holders with valid leases hold the same
  connection.
-/

namespace DatabasePool

/-! ## Leases and loans -/

/-- Each loan has a lease of its own, each valid lease has its loan, and what
is known of the connection to its holder is what the pool knows of it. -/
structure Leased (b : Books) (hs : List Hand) : Prop where
  leases : (b.pool.active.map (·.lease)).Nodup
  loans : ∀ loan ∈ b.pool.active, ∃ h, b.handles[loan.lease]? = some h ∧
    h.conn = loan.entry.conn ∧ h.record.id = loan.entry.record.id
  valid : ∀ lease h, b.handles[lease]? = some h → h.valid = true →
    ∃ loan ∈ b.pool.active, loan.lease = lease
  ended : ∀ lease, .lease lease ∈ hs →
    lease < b.handles.length ∧ b.HasEnded lease

namespace Leased

variable {b : Books} {h h' : Hand} {hs hs' : List Hand}

/-- The hands matter only for the leases in them. -/
theorem of_hands (hi : Leased b hs)
    (hh : ∀ lease, .lease lease ∈ hs' → .lease lease ∈ hs) : Leased b hs' :=
  ⟨hi.leases, hi.loans, hi.valid, fun lease hmem =>
    hi.ended lease (hh lease hmem)⟩

theorem of_hand (hi : Leased b (h :: hs)) (h' : Hand)
    (hh : ∀ lease, h' ≠ .lease lease) : Leased b (h' :: hs) := by
  refine hi.of_hands fun lease hmem => ?_
  rcases List.mem_cons.1 hmem with he | hmem
  · exact absurd he.symm (hh lease)
  · exact List.mem_cons_of_mem _ hmem

/-- Only loans and holders matter. -/
theorem of_eq (hi : Leased b hs) {b' : Books}
    (hactive : b'.pool.active = b.pool.active)
    (hhandles : b'.handles = b.handles) : Leased b' hs := by
  obtain ⟨hleases, hloans, hvalid, hended⟩ := hi
  constructor <;> simpa only [hactive, hhandles, Books.HasEnded]

/-- A holder changes, but not the connection, and the lease does not begin
again. -/
theorem modify (hi : Leased b hs) (lease : Nat) {f : Handle → Handle}
    (hconn : ∀ x, (f x).conn = x.conn) (hrecord : ∀ x, (f x).record = x.record)
    (hf : ∀ x, (f x).valid = true → x.valid = true) :
    Leased { b with handles := b.handles.modify lease f } hs := by
  have hget : ∀ {i : Nat} {x : Handle},
      (b.handles.modify lease f)[i]? = some x →
      ∃ y, b.handles[i]? = some y ∧ (x.valid = true → y.valid = true) := by
    intro i x hx
    rw [List.getElem?_modify] at hx
    obtain ⟨y, hy, rfl⟩ := Option.map_eq_some_iff.1 hx
    refine ⟨y, hy, ?_⟩
    split
    · exact hf y
    · exact id
  refine ⟨hi.leases, ?_, ?_, ?_⟩
  · intro loan hmem
    obtain ⟨y, hy, hc, hr⟩ := hi.loans loan hmem
    refine ⟨_, by rw [List.getElem?_modify, hy]; rfl, ?_⟩
    split
    · exact ⟨(hconn y).trans hc, (congrArg _ (hrecord y)).trans hr⟩
    · exact ⟨hc, hr⟩
  · intro i x hx hv
    obtain ⟨y, hy, hyv⟩ := hget hx
    exact hi.valid i y hy (hyv hv)
  · intro i hmem
    obtain ⟨hlt, hend⟩ := hi.ended i hmem
    refine ⟨by simpa using hlt, fun x hx => ?_⟩
    obtain ⟨y, hy, hyv⟩ := hget hx
    have hyf := hend y hy
    cases hxv : x.valid with
    | false => rfl
    | true => exact absurd (hyv hxv) (by simp [hyf])

/-- A loan ends after its lease. -/
theorem endLoan (hi : Leased b hs) {loan : Loan} {rest : List Loan} {p : Pool}
    (hperm : (loan :: rest).Perm b.pool.active) (hp : p.active = rest)
    (hend : b.HasEnded loan.lease) : Leased { b with pool := p } hs := by
  have hmem : ∀ x ∈ rest, x ∈ b.pool.active := fun x hx =>
    hperm.subset (List.mem_cons_of_mem _ hx)
  refine ⟨?_, ?_, ?_, hi.ended⟩
  · have hn := (hperm.map (·.lease)).nodup_iff.2 hi.leases
    rw [hp]
    exact (List.nodup_cons.1 hn).2
  · rw [hp]
    exact fun x hx => hi.loans x (hmem x hx)
  · intro lease x hx hv
    obtain ⟨y, hy, rfl⟩ := hi.valid lease x hx hv
    rcases List.mem_cons.1 (hperm.symm.subset hy) with rfl | hy
    · rw [hend x hx] at hv
      cases hv
    · exact ⟨y, hp ▸ hy, rfl⟩

/-- All loans end after their leases. -/
theorem endAll (hi : Leased b hs) {p : Pool} (hp : p.active = [])
    (hend : ∀ loan ∈ b.pool.active, b.HasEnded loan.lease) :
    Leased { b with pool := p } hs := by
  refine ⟨by simp [hp], by simp [hp], ?_, hi.ended⟩
  intro lease x hx hv
  obtain ⟨loan, hmem, rfl⟩ := hi.valid lease x hx hv
  rw [hend loan hmem x hx] at hv
  cases hv

/-- A loan begins under a new lease. -/
theorem lend (hi : Leased b hs) {p : Pool} {loan : Loan} {x : Handle}
    (hp : p.active = b.pool.active ++ [loan])
    (hlease : loan.lease = b.handles.length)
    (hx : x.conn = loan.entry.conn ∧ x.record.id = loan.entry.record.id) :
    Leased { b with pool := p, handles := b.handles ++ [x] } hs := by
  have hlt : ∀ y ∈ b.pool.active, y.lease < b.handles.length := by
    intro y hy
    obtain ⟨z, hz, -⟩ := hi.loans y hy
    exact (List.getElem?_eq_some_iff.1 hz).1
  have hnew : (b.handles ++ [x])[b.handles.length]? = some x := by simp
  have hold : ∀ {i : Nat}, i < b.handles.length →
      (b.handles ++ [x])[i]? = b.handles[i]? := fun hi =>
    List.getElem?_append_left hi
  refine ⟨?_, ?_, ?_, ?_⟩
  · rw [hp, List.map_append, List.map_singleton]
    refine List.nodup_append.2 ⟨hi.leases, List.pairwise_singleton .., ?_⟩
    intro i hmem j hj
    obtain ⟨y, hy, rfl⟩ := List.mem_map.1 hmem
    rw [List.mem_singleton] at hj
    have := hlt y hy
    omega
  · rw [hp]
    intro y hy
    rcases List.mem_append.1 hy with hy | hy
    · obtain ⟨z, hz, hzc⟩ := hi.loans y hy
      exact ⟨z, (hold (hlt y hy)).trans hz, hzc⟩
    · rw [List.mem_singleton] at hy
      subst hy
      exact ⟨x, hlease ▸ hnew, hx⟩
  · intro i z hz hv
    rw [hp]
    by_cases hi' : i < b.handles.length
    · rw [hold hi'] at hz
      obtain ⟨y, hy, he⟩ := hi.valid i z hz hv
      exact ⟨y, List.mem_append_left _ hy, he⟩
    · have hlen := (List.getElem?_eq_some_iff.1 hz).1
      simp only [List.length_append, List.length_singleton] at hlen
      exact ⟨loan, List.mem_append_right _ List.mem_cons_self, by omega⟩
  · intro i hmem
    obtain ⟨hlt, hend⟩ := hi.ended i hmem
    refine ⟨by simp only [List.length_append]; omega, fun z hz => ?_⟩
    rw [hold hlt] at hz
    exact hend z hz

theorem deal {c : Config} {b' : Books} (hd : Deals c b h b' h')
    (hi : Leased b (h :: hs)) : Leased b' (h' :: hs) := by
  cases hd with
  | count | choose | close => exact hi.of_eq rfl rfl
  | revoke lease | mark lease =>
    exact hi.modify lease (fun _ => rfl) (fun _ => rfl) (by simp)
  | take | makeRoom => exact (hi.of_hand _ (by simp)).of_eq (by simp) rfl
  | claim now hup he hfull htake hended =>
    obtain ⟨-, -, rest, hperm, rfl⟩ := Pool.takeOverdue?_eq_some htake
    exact (hi.of_hand _ (by simp)).endLoan hperm (by simp) hended
  | connect | lose | invalidate =>
    exact (hi.of_hand _ (by simp)).of_eq rfl rfl
  | giveUp | tooLate | discard | hear | done => exact hi.of_hand _ (by simp)
  | lend since now hlend =>
    obtain ⟨-, rfl⟩ := Pool.lend?_eq_some hlend
    exact (hi.of_hand _ (by simp)).lend rfl rfl ⟨rfl, rfl⟩
  | callIn hlt hended =>
    refine ⟨hi.leases, hi.loans, hi.valid, fun lease hmem => ?_⟩
    rcases List.mem_cons.1 hmem with he | hmem
    · cases he
      exact ⟨hlt, hended⟩
    · exact hi.ended lease (List.mem_cons_of_mem _ hmem)
  | giveBack now htake =>
    obtain ⟨rfl, rest, hperm, rfl⟩ := Pool.takeLoan?_eq_some htake
    have hended := (hi.ended _ List.mem_cons_self).2
    exact (hi.of_hand _ (by simp)).endLoan hperm (by simp) hended
  | store hstore =>
    obtain ⟨-, -, rfl⟩ := Pool.store?_eq_some hstore
    exact (hi.of_hand _ (by simp)).of_eq (by simp) rfl
  | free => exact (hi.of_hand _ (by simp)).of_eq (by simp) rfl
  | shutDown hended => exact (hi.of_hand _ (by simp)).endAll rfl hended

end Leased

theorem leased_kept (c : Config) : Kept c Leased where
  perm h hi := hi.of_hands fun _ hmem => h.symm.subset hmem
  join hi := hi.of_hands fun _ hmem => by simpa using hmem
  leave hi := hi.of_hands fun _ hmem => List.mem_cons_of_mem _ hmem
  deal := Leased.deal

theorem leased_of_run {c : Config} {s : Server} {as : List Action}
    {w : World} (h : Run c s as w) : Leased (w.books []) w.hands := by
  have hnew : Leased ((World.new c s).books []) [] := by
    constructor <;> simp [World.books, World.new]
  obtain ⟨lost, -, hsound⟩ := (leased_kept c).run (fun _ => hnew) h
  exact hsound.kept.of_eq rfl rfl

/-! ## Holders -/

namespace World

/-- No connection is in use by two holders at once, and the pool knows who
has it. -/
structure Exclusive (w : World) : Prop where
  /-- Valid leases are for different connections. -/
  conn {i j : Nat} {x y : Handle} (hx : w.handles[i]? = some x)
    (hy : w.handles[j]? = some y) (hxv : x.valid = true)
    (hyv : y.valid = true) (hconn : x.conn = y.conn) : i = j
  /-- A valid lease is that of one loan, of the same connection. -/
  loan {i : Nat} {x : Handle} (hx : w.handles[i]? = some x)
    (hxv : x.valid = true) : (w.pool.active.map (·.lease)).count i = 1 ∧
      ∀ loan ∈ w.pool.active, loan.lease = i →
        loan.entry.conn = x.conn ∧ loan.entry.record.id = x.record.id
  /-- No two loans have the same lease. -/
  leases : (w.pool.active.map (·.lease)).Nodup
  /-- Holders, whenever they got their connections, see the same number
  exactly if they have the same connection. -/
  number {i j : Nat} {x y : Handle} (hx : w.handles[i]? = some x)
    (hy : w.handles[j]? = some y) :
    x.record.id = y.record.id ↔ x.conn = y.conn

end World

/-- Every run leaves each connection to one holder at a time. -/
theorem exclusive_of_run {c : Config} {s : Server} {as : List Action}
    {w : World} (h : Run c s as w) : w.Exclusive := by
  have hl := leased_of_run h
  have hn := named_of_run h
  obtain ⟨lost, -, ha⟩ := accounted_of_run h
  have hplaces : (w.pool.active.map (·.entry.conn)).Nodup := by
    refine List.nodup_iff_count_le_one.2 fun conn => ?_
    refine Nat.le_trans ?_ (ha.once conn)
    rw [Books.held, Books.places, List.count_append, List.count_append]
    exact Nat.le_trans (Nat.le_add_left ..) (Nat.le_add_right ..)
  have hloan : ∀ {i : Nat} {x : Handle}, w.handles[i]? = some x →
      ∀ loan ∈ w.pool.active, loan.lease = i →
        loan.entry.conn = x.conn ∧ loan.entry.record.id = x.record.id := by
    rintro i x hx loan hmem rfl
    obtain ⟨y, hy, hconn, hid⟩ := hl.loans loan hmem
    obtain rfl : x = y := Option.some.inj (hx.symm.trans hy)
    exact ⟨hconn.symm, hid.symm⟩
  constructor
  case conn =>
    intro i j x y hx hy hxv hyv hconn
    obtain ⟨l, hlmem, rfl⟩ := hl.valid i x hx hxv
    obtain ⟨m, hmmem, rfl⟩ := hl.valid j y hy hyv
    have hlm : l.entry.conn = m.entry.conn := by
      rw [(hloan hx l hlmem rfl).1, (hloan hy m hmmem rfl).1, hconn]
    rw [List.inj_on_of_nodup_map hplaces hlmem hmmem hlm]
  case loan =>
    intro i x hx hxv
    obtain ⟨l, hlmem, rfl⟩ := hl.valid i x hx hxv
    exact ⟨List.count_eq_one_of_mem hl.leases (List.mem_map_of_mem hlmem),
      hloan hx⟩
  case leases => exact hl.leases
  case number =>
    intro i j x y hx hy
    have hmem : ∀ {i : Nat} {x : Handle}, w.handles[i]? = some x →
        x.name ∈ (w.books []).names w.hands := fun hx =>
      Books.handle_mem_names (List.mem_of_getElem? hx)
    exact (hn.agree x.name (hmem hx) y.name (hmem hy)).symm

/-- A connection is lent, comes back, and is lent again. -/
def lentTwice : List Action :=
  [.run 2, .run 2, .run 2, .run 2, .start .acquire none,
    .run 1, .run 1, .run 1, .start (.close 0) none,
    .run 0, .run 0, .run 0, .run 0, .run 0, .start .acquire none]

/-- The same connection may have had two holders, one after the other. -/
theorem exclusive_lentTwice :
    ∃ w, Run {} {} lentTwice w ∧
      w.handles.map (·.name) = [(0, 1), (0, 1)] ∧ w.Exclusive := by
  have hex : ∃ w, Run {} {} lentTwice w ∧
      w.handles.map (·.name) = [(0, 1), (0, 1)] :=
    Run.exists_of_replay rfl rfl (by decide)
  obtain ⟨w, h, hnames⟩ := hex
  exact ⟨w, h, hnames, exclusive_of_run h⟩

end DatabasePool
