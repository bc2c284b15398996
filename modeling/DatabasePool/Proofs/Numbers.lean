import DatabasePool.Proofs.Names
import DatabasePool.Proofs.Records

/-!
# Numbers are given once

The pool gives a number to a connection that is to be opened.  Until then no
connection has it.  If the connection is opened, it has the number alone, and
if it is not, the number is never given again and no connection ever has it.

* `World.Bears` says that a connection has a number within the pool.
* `Run.unnamed` says that no connection has had the number of one that is
  still to be opened.
* `Spent` says that a number has been given, and `Run.spent` that it stays so.
* `Run.onlyFor` says who ever has the number, from what one action does.
-/

namespace DatabasePool

/-- The number has been given, no connection that is still to be opened has it,
and none has it but of this kind. -/
structure Spent (n : Nat) (P : Nat → Prop) (b : Books) (hs : List Hand) :
    Prop where
  given : n ≤ b.pool.lastId
  rooms : n ∉ hs.flatMap (·.rooms)
  names : ∀ x ∈ b.names hs, x.2 = n → P x.1

namespace Spent

variable {n : Nat} {P : Nat → Prop} {b b' : Books} {h h' : Hand}
  {hs : List Hand}

/-- Numbers that are given from now on are other ones. -/
theorem deal {c : Config} (hd : Deals c b h b' h')
    (hi : Spent n P b (h :: hs)) : Spent n P b' (h' :: hs) := by
  obtain ⟨hgiven, hrooms, hnames⟩ := hi
  cases hd.renames hs with
  | forgets hsub _ hlast hroom =>
    refine ⟨hlast ▸ hgiven, fun hmem => hrooms ?_, fun x hx => hnames x (hsub hx)⟩
    exact (hroom.append_right _).subset hmem
  | gives hr _ hlast hsub =>
    refine ⟨by omega, fun hmem => ?_, fun x hx => hnames x (hsub hx)⟩
    rcases List.mem_cons.1 hmem with rfl | hmem
    · omega
    · exact hrooms hmem
  | @opens r =>
    have hne : r.id ≠ n := fun he =>
      hrooms (List.mem_append_left _ (he ▸ List.mem_cons_self))
    refine ⟨hgiven, fun hmem => hrooms (List.mem_append_right _ hmem), ?_⟩
    intro x hx hxn
    rcases Books.mem_names.1 hx with hx | hx | hx | hx
    · exact hnames x (Books.mem_names.2 (.inl hx)) hxn
    · exact hnames x (Books.mem_names.2 (.inr (.inl hx))) hxn
    · rcases List.mem_append.1 hx with hx | hx
      · obtain rfl := List.mem_singleton.1 hx
        exact absurd hxn hne
      · refine hnames x (Books.mem_names.2 (.inr (.inr (.inl ?_)))) hxn
        exact List.mem_append_right _ hx
    · exact hnames x (Books.mem_names.2 (.inr (.inr (.inr hx)))) hxn

end Spent

theorem spent_kept (c : Config) (n : Nat) (P : Nat → Prop) :
    Kept c (Spent n P) where
  perm {b hs hs'} h hi := by
    have hnames : (b.names hs').Perm (b.names hs) :=
      ((h.symm.flatMap_right _).append_left _).append_right _
    have hrooms := h.symm.flatMap_right Hand.rooms
    exact ⟨hi.given, fun hmem => hi.rooms (hrooms.subset hmem),
      fun x hx => hi.names x (hnames.subset hx)⟩
  join hi := ⟨hi.given, hi.rooms, hi.names⟩
  leave hi := ⟨hi.given, hi.rooms, hi.names⟩
  deal := Spent.deal

namespace World

/-- The connection has the number within the pool: it is kept or lent under
that number, a task has it, or it was lent under that number before. -/
def Bears (w : World) (conn n : Nat) : Prop :=
  (conn, n) ∈ (w.books []).names w.hands

/-- The hands are those of the tasks on the roll. -/
theorem hands_eq (w : World) : w.hands = w.roll.map (·.2.hand) := by
  simp only [hands, roll, List.map_map]
  rfl

/-- What is in the hands of tasks is in the hand of a task on the roll. -/
theorem mem_hands {α : Type} {w : World} {f : Hand → List α} {y : α} :
    y ∈ w.hands.flatMap f ↔ ∃ x ∈ w.roll, y ∈ f x.2.hand := by
  rw [hands_eq, List.flatMap_map, List.mem_flatMap]

/-- The number that a task has for a new connection is that of one that is
still to be opened. -/
theorem mem_rooms {w : World} {id : Nat} {st : Stage} {r : Record String}
    (hmem : (id, st) ∈ w.roll) (hroom : st.hand = .room r) :
    r.id ∈ w.hands.flatMap (·.rooms) := by
  refine mem_hands.2 ⟨_, hmem, ?_⟩
  rw [hroom]
  exact List.mem_cons_self

end World

/-- A task that has just been started has no connection, and no number for
one. -/
theorem Stage.IsFresh.nameless {st : Stage} (h : st.IsFresh) :
    st.hand.rooms = [] ∧ st.hand.names = [] := by
  rcases h with ⟨op, rfl⟩ | ⟨lease, rfl⟩ | ⟨conn, rfl⟩
  all_goals exact ⟨rfl, rfl⟩

/-- Whatever has happened, and whatever happens, no connections have the number
within the pool but of this kind. -/
def OnlyFor (c : Config) (s : Server) (as : List Action) (n : Nat)
    (P : Nat → Prop) : Prop :=
  ∀ bs z conn, Run c s bs z → bs <:+ as ∨ as <:+ bs → z.Bears conn n → P conn

section Runs

variable {c : Config} {s : Server} {as later bs : List Action} {a : Action}
  {w w' z : World} {id n conn : Nat} {st : Stage} {r : Record String}
  {P : Nat → Prop}

/-- A number that has been given stays so. -/
theorem Run.spent (h : Run c s as w) (hi : Spent n P (w.books []) w.hands)
    (h' : Run c s (later ++ as) w') : Spent n P (w'.books []) w'.hands := by
  suffices ∃ lost, Sound c (Spent n P) lost w' by
    obtain ⟨lost, hsound⟩ := this
    exact ⟨hsound.kept.given, hsound.kept.rooms, hsound.kept.names⟩
  induction later generalizing w' with
  | nil =>
    obtain rfl := h.unique h'
    obtain ⟨hconfig, hfits⟩ := h.config_fits
    exact ⟨[], hconfig, World.distinct_of_run h, hfits, hi⟩
  | cons a later ih =>
    cases h' with
    | act h' ha =>
      obtain ⟨lost, hsound⟩ := ih h'
      exact ⟨_, hsound.act (spent_kept c n P) ha⟩

/-- No connection has had the number of one that is still to be opened. -/
theorem Run.unnamed (h : Run c s as w) (hroom : n ∈ w.hands.flatMap (·.rooms))
    (hz : Run c s bs z) (hsub : bs <:+ as) : ¬z.Bears conn n := by
  intro hbears
  obtain ⟨later, rfl⟩ := hsub
  have hle : n ≤ z.pool.lastId := ((named_of_run hz).bound _ hbears).2
  have hroom' : n ∈ z.hands.flatMap (·.rooms) := by
    refine Decidable.byContradiction fun hnot => ?_
    have hspent : Spent n (fun _ => True) (z.books []) z.hands :=
      ⟨hle, hnot, fun _ _ _ => trivial⟩
    exact (hz.spent hspent h).rooms hroom
  exact ((named_of_run hz).fresh n hroom').2 _ hbears rfl

/-- No two tasks have room under the same number. -/
theorem Run.room_unique (h : Run c s as w) (hmem : (id, st) ∈ w.roll)
    (hroom : st.hand = .room r) {x : Nat × Stage} (hx : x ∈ w.roll)
    (hne : x.1 ≠ id) : r.id ∉ x.2.hand.rooms := by
  intro hin
  have hd := World.distinct_of_run h
  obtain ⟨t, ht, rfl⟩ := hd.task?_of_roll hmem
  have hperm := ((hd.perm_roll ht).map (·.2.hand)).flatMap_right Hand.rooms
  have hnodup : (w.hands.flatMap (·.rooms)).Nodup := (named_of_run h).rooms
  rw [w.hands_eq, hperm.nodup_iff, List.map_cons, List.flatMap_cons,
    hroom] at hnodup
  refine (List.nodup_cons.1 hnodup).1 (List.mem_flatMap.2 ⟨_, ?_, hin⟩)
  refine List.mem_map_of_mem ((List.mem_cons.1
    ((hd.perm_roll ht).mem_iff.1 hx)).resolve_left ?_)
  rintro rfl
  exact hne rfl

/-- A task gives up the room that it had for a new connection, or fills it.
From then on the number is only for what the task has. -/
theorem Run.spent_act (h : Run c s as w) (ha : w.act a = some w')
    (hid : a.task? = some id) (hmem : (id, st) ∈ w.roll)
    (hroom : st.hand = .room r) (hidle : w'.pool.idle = w.pool.idle)
    (hactive : w'.pool.active = w.pool.active)
    (hlast : w'.pool.lastId = w.pool.lastId)
    (hhandles : w'.handles = w.handles)
    (hown : ∀ st', (id, st') ∈ w'.roll →
      st'.hand.rooms = [] ∧ ∀ x ∈ st'.hand.names, P x.1) :
    Spent r.id P (w'.books []) w'.hands := by
  obtain ⟨hgiven, hfresh⟩ :=
    (named_of_run h).fresh r.id (World.mem_rooms hmem hroom)
  have hwhere : ∀ x ∈ w'.roll, (x ∈ w.roll ∧ x.1 ≠ id) ∨
      x.2.hand.rooms = [] ∧ ∀ y ∈ x.2.hand.names, P y.1 := by
    intro x hx
    obtain ⟨hx, hne⟩ | ⟨-, hfresh⟩ | ⟨t, flow, v, rfl, -⟩ :=
      World.stage_act (World.distinct_of_run h) ha hx
    · exact .inl ⟨hx, fun he => hne (hid.trans (congrArg some he.symm))⟩
    · obtain ⟨hrooms, hnames⟩ := hfresh.nameless
      exact .inr ⟨hrooms, fun y hy => by rw [hnames] at hy; cases hy⟩
    · obtain rfl : x.1 = id := Option.some.inj hid
      exact .inr (hown _ hx)
  refine ⟨hlast ▸ hgiven, fun hin => ?_, fun y hy hyn => ?_⟩
  · obtain ⟨x, hx, hin⟩ := World.mem_hands.1 hin
    rcases hwhere x hx with ⟨hx, hne⟩ | ⟨hnone, -⟩
    · exact h.room_unique hmem hroom hx hne hin
    · rw [hnone] at hin
      cases hin
  · have hold : y ∈ (w.books []).names w.hands → P y.1 := fun hy =>
      absurd hyn (hfresh y hy)
    rcases Books.mem_names.1 hy with hy | hy | hy | hy
    · exact hold (Books.mem_names.2 (.inl (hidle ▸ hy)))
    · exact hold (Books.mem_names.2 (.inr (.inl (hactive ▸ hy))))
    · obtain ⟨x, hx, hin⟩ := World.mem_hands.1 hy
      rcases hwhere x hx with ⟨hx, -⟩ | ⟨-, hP⟩
      · refine hold (Books.mem_names.2 (.inr (.inr (.inl ?_))))
        exact World.mem_hands.2 ⟨x, hx, hin⟩
      · exact hP y hin
    · have hy : y ∈ w'.handles.map (·.name) := hy
      rw [hhandles] at hy
      exact hold (Books.mem_names.2 (.inr (.inr (.inr hy))))

/-- The number was for a connection that was still to be opened, and with an
action it is only for these. -/
theorem Run.onlyFor (h : Run c s as w) (ha : w.act a = some w')
    (hroom : n ∈ w.hands.flatMap (·.rooms))
    (hi : Spent n P (w'.books []) w'.hands) : OnlyFor c s (a :: as) n P := by
  rintro bs z conn hz (hsub | ⟨later, rfl⟩) hbears
  · rcases List.suffix_cons_iff.1 hsub with rfl | hsub
    · cases (h.act ha).unique hz
      exact hi.names _ hbears rfl
    · exact absurd hbears (h.unnamed hroom hz hsub)
  · exact ((h.act ha).spent hi hz).names _ hbears rfl

/-- This is about everything that happens, so it does not matter when it is
said. -/
theorem OnlyFor.cons (hi : OnlyFor c s as n P) (a : Action) :
    OnlyFor c s (a :: as) n P := by
  intro bs z conn hz hor hbears
  refine hi bs z conn hz ?_ hbears
  rcases hor with hsub | hsub
  · rcases List.suffix_cons_iff.1 hsub with rfl | hsub
    · exact .inr (List.suffix_cons ..)
    · exact .inl hsub
  · exact .inr ((List.suffix_cons ..).trans hsub)

end Runs

end DatabasePool
