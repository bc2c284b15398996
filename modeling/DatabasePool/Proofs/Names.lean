import DatabasePool.Proofs.Bookkeeping

/-!
# The numbers of connections

The pool numbers connections before they are opened, and the server numbers
them when they are.  A connection that the pool has under its number keeps it
for good, in the lists, in the hands of tasks and with its holders.

* `Deals.renames` says what a deal does to the numbers that are written down.
* `Named` says that the two numberings agree wherever they are written down.
* `named_of_run` says that this is so after every run.
-/

namespace DatabasePool

/-- The number of a connection, and its number within the pool. -/
def Entry.name (e : Entry) : Nat × Nat := (e.conn, e.record.id)

/-- The number of a connection, and its number within the pool. -/
def Handle.name (h : Handle) : Nat × Nat := (h.conn, h.record.id)

namespace Hand

/-- The names of the connections in the hand. -/
def names : Hand → List (Nat × Nat)
  | entry e => [e.name]
  | _ => []

/-- The numbers that are given to connections before they are opened. -/
def rooms : Hand → List Nat
  | room r => [r.id]
  | _ => []

theorem names_of :
    nothing.names = [] ∧ (∀ l, (lease l).names = []) ∧
      (∀ r, (room r).names = []) ∧ (∀ e, (entry e).names = [e.name]) ∧
      ∀ slot conns, (closing slot conns).names = [] := by
  simp [names]

end Hand

namespace Books

/-- All names that are written down. -/
def names (b : Books) (hs : List Hand) : List (Nat × Nat) :=
  b.pool.idle.map (·.name) ++ b.pool.active.map (·.entry.name) ++
    hs.flatMap (·.names) ++ b.handles.map (·.name)

theorem mem_names {b : Books} {hs : List Hand} {x : Nat × Nat} :
    x ∈ b.names hs ↔
      x ∈ b.pool.idle.map (·.name) ∨ x ∈ b.pool.active.map (·.entry.name) ∨
        x ∈ hs.flatMap (·.names) ∨ x ∈ b.handles.map (·.name) := by
  simp only [names, List.mem_append, or_assoc]

section Members

variable {b b' : Books} {h h' : Hand} {hs : List Hand}

theorem idle_mem_names {e : Entry} (he : e ∈ b.pool.idle) :
    e.name ∈ b.names hs :=
  mem_names.2 (.inl (List.mem_map_of_mem he))

theorem active_mem_names {loan : Loan} (hl : loan ∈ b.pool.active) :
    loan.entry.name ∈ b.names hs :=
  mem_names.2 (.inr (.inl (List.mem_map.2 ⟨loan, hl, rfl⟩)))

theorem hand_mem_names {x : Nat × Nat} (hx : x ∈ h.names) :
    x ∈ b.names (h :: hs) :=
  mem_names.2 (.inr (.inr (.inl (List.mem_append_left _ hx))))

theorem handle_mem_names {x : Handle} (hx : x ∈ b.handles) :
    x.name ∈ b.names hs :=
  mem_names.2 (.inr (.inr (.inr (List.mem_map_of_mem hx))))

/-- No name is new if none is new in the pool, in the hand or with holders. -/
theorem names_subset
    (hidle : ∀ e ∈ b'.pool.idle, e.name ∈ b.names (h :: hs))
    (hactive : ∀ loan ∈ b'.pool.active, loan.entry.name ∈ b.names (h :: hs))
    (hhand : ∀ x ∈ h'.names, x ∈ b.names (h :: hs))
    (hhandles : ∀ x ∈ b'.handles, x.name ∈ b.names (h :: hs)) :
    b'.names (h' :: hs) ⊆ b.names (h :: hs) := by
  intro x hx
  rcases mem_names.1 hx with hx | hx | hx | hx
  · obtain ⟨e, he, rfl⟩ := List.mem_map.1 hx
    exact hidle e he
  · obtain ⟨loan, hl, rfl⟩ := List.mem_map.1 hx
    exact hactive loan hl
  · rcases List.mem_append.1 hx with hx | hx
    · exact hhand x hx
    · exact mem_names.2 (.inr (.inr (.inl (List.mem_append_right _ hx))))
  · obtain ⟨y, hy, rfl⟩ := List.mem_map.1 hx
    exact hhandles y hy

/-- A holder changes, but keeps the name. -/
theorem names_modify {f : Handle → Handle} (hf : ∀ x, (f x).name = x.name)
    (lease : Nat) :
    ({ b with handles := b.handles.modify lease f } : Books).names hs =
      b.names hs := by
  have hmap : (b.handles.modify lease f).map (·.name) =
      b.handles.map (·.name) := by
    refine List.ext_getElem? fun i => ?_
    rw [List.getElem?_map, List.getElem?_map, List.getElem?_modify]
    cases b.handles[i]? with
    | none => rfl
    | some x =>
      simp only [Option.map_eq_map, Option.map_some, Option.some.injEq]
      split
      · exact hf x
      · rfl
  simp only [names, hmap]

end Members

end Books

/-! ## What a deal does to names -/

/-- What a deal does to the names: they are forgotten at most, or a number is
given to a connection that is to be opened, or one is opened under the number
that was given to it. -/
inductive Renames (b : Books) (hs : List Hand) : Hand → Books → Hand → Prop
    where
  | forgets {b' : Books} {h h' : Hand}
      (hnames : b'.names (h' :: hs) ⊆ b.names (h :: hs))
      (hopened : b'.opened = b.opened)
      (hlast : b'.pool.lastId = b.pool.lastId)
      (hrooms : h'.rooms.Sublist h.rooms) : Renames b hs h b' h'
  | gives {b' : Books} {r : Record String} (hr : r.id = b.pool.lastId + 1)
      (hopened : b'.opened = b.opened)
      (hlast : b'.pool.lastId = b.pool.lastId + 1)
      (hnames : b'.names (.room r :: hs) ⊆ b.names (.nothing :: hs)) :
      Renames b hs .nothing b' (.room r)
  | opens {r : Record String} :
      Renames b hs (.room r) { b with opened := b.opened + 1 }
        (.entry ⟨b.opened, r⟩)

namespace Renames

variable {b b' : Books} {h h' : Hand} {hs : List Hand}

/-- The pool or a hand changes, and names are forgotten at most. -/
theorem of_deal {p : Pool}
    (hidle : ∀ e ∈ p.idle, e.name ∈ b.names (h :: hs))
    (hactive : ∀ loan ∈ p.active, loan.entry.name ∈ b.names (h :: hs))
    (hlast : p.lastId = b.pool.lastId)
    (hhand : ∀ x ∈ h'.names, x ∈ b.names (h :: hs))
    (hroom : h'.rooms = []) : Renames b hs h { b with pool := p } h' :=
  .forgets (Books.names_subset hidle hactive hhand fun _ hmem =>
    Books.handle_mem_names hmem) rfl hlast (hroom ▸ List.nil_sublist _)

/-- Only the hand changes. -/
theorem of_hand (hhand : h'.names = []) (hroom : h'.rooms = []) :
    Renames b hs h b h' :=
  of_deal (fun _ => Books.idle_mem_names) (fun _ => Books.active_mem_names) rfl
    (by simp [hhand]) hroom

/-- A holder changes, but keeps the name. -/
theorem modify {f : Handle → Handle} (lease : Nat)
    (hf : ∀ x, (f x).name = x.name) :
    Renames b hs h { b with handles := b.handles.modify lease f } h := by
  refine .forgets ?_ rfl rfl (List.Sublist.refl _)
  rw [Books.names_modify hf]
  exact List.Subset.refl _

end Renames

/-- A deal does nothing else to names. -/
theorem Deals.renames {c : Config} {b b' : Books} {h h' : Hand}
    (hd : Deals c b h b' h') (hs : List Hand) : Renames b hs h b' h' := by
  cases hd with
  | count | choose | close | lose =>
    exact .forgets (List.Subset.refl _) rfl rfl (List.Sublist.refl _)
  | revoke lease | mark lease =>
    exact .modify lease fun _ => rfl
  | take hup he =>
    refine .of_deal ?_ (fun _ => Books.active_mem_names) rfl ?_ rfl
    · exact fun e hmem => Books.idle_mem_names
        (he ▸ List.mem_cons_of_mem _ hmem)
    · intro x hx
      obtain rfl := List.mem_singleton.1 hx
      exact Books.idle_mem_names (he ▸ List.mem_cons_self)
  | makeRoom now =>
    exact .gives rfl rfl rfl (Books.names_subset
      (fun _ => Books.idle_mem_names) (fun _ => Books.active_mem_names)
      (by simp [Hand.names]) (fun _ => Books.handle_mem_names))
  | @claim loan _ now hup he hfull htake =>
    obtain ⟨-, -, rest, hperm, rfl⟩ := Pool.takeOverdue?_eq_some htake
    refine .of_deal (fun _ => Books.idle_mem_names) ?_ rfl ?_ rfl
    · exact fun _ hmem => Books.active_mem_names
        (hperm.subset (List.mem_cons_of_mem _ hmem))
    · intro x hx
      obtain rfl := List.mem_singleton.1 hx
      exact Books.active_mem_names (hperm.subset List.mem_cons_self)
  | connect => exact .opens
  | giveUp | callIn | tooLate | discard | hear | done =>
    exact .of_hand rfl rfl
  | @lend e _ since now hlend =>
    obtain ⟨-, rfl⟩ := Pool.lend?_eq_some hlend
    have hname : e.name ∈ b.names (.entry e :: hs) :=
      Books.hand_mem_names List.mem_cons_self
    refine .forgets (Books.names_subset
      (fun _ hmem => Books.idle_mem_names hmem) ?_ (by simp [Hand.names]) ?_)
      rfl rfl (List.Sublist.refl _)
    · intro loan hmem
      rcases List.mem_append.1 hmem with hmem | hmem
      · exact Books.active_mem_names hmem
      · obtain rfl := List.mem_singleton.1 hmem
        exact hname
    · intro x hmem
      rcases List.mem_append.1 hmem with hmem | hmem
      · exact Books.handle_mem_names hmem
      · obtain rfl := List.mem_singleton.1 hmem
        exact hname
  | giveBack now htake =>
    obtain ⟨rfl, rest, hperm, rfl⟩ := Pool.takeLoan?_eq_some htake
    refine .of_deal (fun _ => Books.idle_mem_names) ?_ rfl ?_ rfl
    · exact fun _ hmem => Books.active_mem_names
        (hperm.subset (List.mem_cons_of_mem _ hmem))
    · intro x hx
      obtain rfl := List.mem_singleton.1 hx
      exact Books.active_mem_names (hperm.subset List.mem_cons_self)
  | @store e _ hstore =>
    obtain ⟨-, -, rfl⟩ := Pool.store?_eq_some hstore
    refine .of_deal ?_ (fun _ => Books.active_mem_names) rfl
      (by simp [Hand.names]) rfl
    intro x hmem
    rcases List.mem_cons.1 hmem with rfl | hmem
    · exact Books.hand_mem_names List.mem_cons_self
    · exact Books.idle_mem_names hmem
  | free =>
    exact .of_deal (fun _ => Books.idle_mem_names)
      (fun _ => Books.active_mem_names) rfl (by simp [Hand.names]) rfl
  | invalidate =>
    exact .of_deal (by simp [Pool.invalidate])
      (fun _ => Books.active_mem_names) rfl (by simp [Hand.names]) rfl
  | shutDown =>
    exact .of_deal (by simp [Pool.close]) (by simp [Pool.close]) rfl
      (by simp [Hand.names]) rfl

/-! ## The two numberings -/

/-- The two numberings agree wherever they are written down, and the numbers
of connections that are still to be opened are new. -/
structure Named (b : Books) (hs : List Hand) : Prop where
  agree : ∀ x ∈ b.names hs, ∀ y ∈ b.names hs, x.1 = y.1 ↔ x.2 = y.2
  bound : ∀ x ∈ b.names hs, x.1 < b.opened ∧ x.2 ≤ b.pool.lastId
  rooms : (hs.flatMap (·.rooms)).Nodup
  fresh : ∀ id ∈ hs.flatMap (·.rooms),
    id ≤ b.pool.lastId ∧ ∀ x ∈ b.names hs, x.2 ≠ id

namespace Named

variable {b b' : Books} {h h' : Hand} {hs hs' : List Hand}

/-- Names are forgotten at most. -/
theorem mono (hi : Named b hs) (hnames : b'.names hs' ⊆ b.names hs)
    (hopened : b.opened ≤ b'.opened) (hlast : b.pool.lastId ≤ b'.pool.lastId)
    (hrooms : (hs'.flatMap (·.rooms)).Nodup)
    (hsub : hs'.flatMap (·.rooms) ⊆ hs.flatMap (·.rooms)) :
    Named b' hs' := by
  refine ⟨?_, ?_, hrooms, ?_⟩
  · exact fun x hx y hy => hi.agree x (hnames hx) y (hnames hy)
  · intro x hx
    obtain ⟨hlt, hle⟩ := hi.bound x (hnames hx)
    exact ⟨Nat.lt_of_lt_of_le hlt hopened, Nat.le_trans hle hlast⟩
  · intro id hid
    obtain ⟨hle, hne⟩ := hi.fresh id (hsub hid)
    exact ⟨Nat.le_trans hle hlast, fun x hx => hne x (hnames hx)⟩

/-- A number is given to a connection that is to be opened. -/
theorem makeRoom (hi : Named b (.nothing :: hs)) {r : Record String}
    (hr : r.id = b.pool.lastId + 1) (hopened : b'.opened = b.opened)
    (hlast : b'.pool.lastId = b.pool.lastId + 1)
    (hnames : b'.names (.room r :: hs) ⊆ b.names (.nothing :: hs)) :
    Named b' (.room r :: hs) := by
  refine ⟨?_, ?_, ?_, ?_⟩
  · exact fun x hx y hy => hi.agree x (hnames hx) y (hnames hy)
  · intro x hx
    obtain ⟨hlt, hle⟩ := hi.bound x (hnames hx)
    exact ⟨hopened ▸ hlt, by omega⟩
  · refine List.nodup_cons.2 ⟨fun hmem => ?_, hi.rooms⟩
    have := (hi.fresh r.id hmem).1
    omega
  · intro id hid
    rcases List.mem_cons.1 hid with rfl | hid
    · refine ⟨by omega, fun x hx => ?_⟩
      have := (hi.bound x (hnames hx)).2
      omega
    · obtain ⟨hle, hne⟩ := hi.fresh id hid
      exact ⟨by omega, fun x hx => hne x (hnames hx)⟩

/-- A connection is opened under the number that was given to it.  Nothing like
its name has been there before. -/
theorem connect (hi : Named b (.room r :: hs)) :
    Named { b with opened := b.opened + 1 }
      (.entry ⟨b.opened, r⟩ :: hs) := by
  have hnames : ∀ x,
      x ∈ ({ b with opened := b.opened + 1 } : Books).names
        (.entry ⟨b.opened, r⟩ :: hs) ↔
      x = (b.opened, r.id) ∨ x ∈ b.names (.room r :: hs) := by
    intro x
    simp only [Books.mem_names, List.flatMap_cons, Hand.names_of,
      List.mem_append, List.mem_singleton, List.not_mem_nil, false_or]
    rw [show (Entry.mk b.opened r).name = (b.opened, r.id) from rfl]
    grind
  have hnew := hi.fresh r.id (List.mem_append_left _ List.mem_cons_self)
  have hnodup : r.id ∉ hs.flatMap (·.rooms) ∧ (hs.flatMap (·.rooms)).Nodup :=
    List.nodup_cons.1 hi.rooms
  refine ⟨?_, ?_, hnodup.2, ?_⟩
  · intro x hx y hy
    rcases (hnames x).1 hx with rfl | hx <;>
      rcases (hnames y).1 hy with rfl | hy
    · simp
    · have := (hi.bound y hy).1
      have := hnew.2 y hy
      constructor <;> omega
    · have := (hi.bound x hx).1
      have := hnew.2 x hx
      constructor <;> omega
    · exact hi.agree x hx y hy
  · intro x hx
    rcases (hnames x).1 hx with rfl | hx
    · exact ⟨Nat.lt_succ_self _, hnew.1⟩
    · obtain ⟨hlt, hle⟩ := hi.bound x hx
      exact ⟨Nat.lt_succ_of_lt hlt, hle⟩
  · intro id hid
    obtain ⟨hle, hne⟩ := hi.fresh id (List.mem_append_right _ hid)
    refine ⟨hle, fun x hx => ?_⟩
    rcases (hnames x).1 hx with rfl | hx
    · rintro rfl
      exact hnodup.1 hid
    · exact hne x hx

theorem deal {c : Config} (hd : Deals c b h b' h')
    (hi : Named b (h :: hs)) : Named b' (h' :: hs) := by
  cases hd.renames hs with
  | forgets hnames hopened hlast hrooms =>
    have hsub := hrooms.append_right (hs.flatMap (·.rooms))
    exact hi.mono hnames (Nat.le_of_eq hopened.symm) (Nat.le_of_eq hlast.symm)
      (hi.rooms.sublist hsub) hsub.subset
  | gives hr hopened hlast hnames => exact hi.makeRoom hr hopened hlast hnames
  | opens => exact hi.connect

end Named

theorem named_kept (c : Config) : Kept c Named where
  perm {b hs hs'} h hi := by
    have hnames : (b.names hs').Perm (b.names hs) :=
      ((h.symm.flatMap_right _).append_left _).append_right _
    have hrooms := h.symm.flatMap_right Hand.rooms
    exact hi.mono hnames.subset (Nat.le_refl _) (Nat.le_refl _)
      (hrooms.nodup_iff.2 hi.rooms) hrooms.subset
  join hi := ⟨hi.agree, hi.bound, hi.rooms, hi.fresh⟩
  leave hi := ⟨hi.agree, hi.bound, hi.rooms, hi.fresh⟩
  deal := Named.deal

/-- The two numberings agree after every run. -/
theorem named_of_run {c : Config} {s : Server} {as : List Action} {w : World}
    (h : Run c s as w) : Named (w.books []) w.hands := by
  have hnew : Named ((World.new c s).books []) [] := by
    constructor <;> simp [World.books, World.new, Books.names]
  obtain ⟨lost, -, hsound⟩ := (named_kept c).run (fun _ => hnew) h
  have hi := hsound.kept
  exact ⟨hi.agree, hi.bound, hi.rooms, hi.fresh⟩

end DatabasePool
