import DatabasePool.Proofs.Entries
import Mathlib.Data.List.Nodup

/-!
# Connections that are out of date

When the opening of a connection is decided, its record is stamped with the
generation and the options of the pool at that time.  To declare all
connections out of date is to begin another generation.  So a connection is
current exactly if it was opened with the options of today and nothing has
been declared out of date since its opening was decided, and only such a
connection is kept or lent.

* `Does.stamps` says where the stamps of connections come from.
* `current_upheld` says what is always true of the stamps in play.
* `decided_of_run` says at which action the opening of a connection was
  decided.
* `current_of_run` says that no connection is lent that is out of date.
-/

namespace DatabasePool

/-! ## Stamps -/

/-- What a record was stamped with, and the connection once it is open. -/
structure Stamp where
  id : Nat
  generation : Nat
  options : String
  conn : Option Nat
  deriving DecidableEq

/-- The stamp of a record for the connection. -/
def Record.stamp (r : Record String) (conn : Option Nat) : Stamp :=
  ⟨r.id, r.generation, r.options, conn⟩

def Entry.stamp (e : Entry) : Stamp := e.record.stamp (some e.conn)

/-- The stamp in a hand. -/
def Hand.stamp? : Hand → Option Stamp
  | room r => some (r.stamp none)
  | entry e => some e.stamp
  | _ => none

theorem Hand.mem_stamp {h : Hand} {x : Stamp} :
    x ∈ h.stamp?.toList ↔ (∃ r, h = .room r ∧ x = r.stamp none) ∨
      x ∈ h.entry?.toList.map (·.stamp) := by
  cases h <;> simp [stamp?, entry?]

/-- The stamps of the connections that are kept and of those that are lent. -/
def Scene.stamps (V : Scene) : List Stamp :=
  V.entries.map (·.stamp)

/-- The stamp that is made next. -/
def Pool.nextStamp (p : Pool) : Stamp :=
  ⟨p.lastId + 1, p.generation, p.options, none⟩

/-- A task moves stamps from place to place, or makes the next one, or adds
the connection to the one in its hand. -/
theorem Does.stamps {c : Config} {V V' : Scene} {s : Stage} {flow : Flow}
    {closes : List Nat} (h : Does c V s flow closes V') {x : Stamp}
    (hx : x ∈ V'.stamps ++ flow.hand.stamp?.toList) :
    x ∈ V.stamps ++ s.hand.stamp?.toList ∨
      (x = V.pool.nextStamp ∧ V'.pool.lastId = V.pool.lastId + 1) ∨
      ∃ r conn options, s.dials? = some (r, .connect options) ∧
        (conn, options) ∈ V'.opened ∧ x = r.stamp (some conn) := by
  rw [List.mem_append, Hand.mem_stamp, or_left_comm] at hx
  rcases hx with ⟨r, hr, rfl⟩ | hx
  · rcases h.room hr with hs | ⟨rfl, hlast⟩
    · exact .inl (List.mem_append_right _
        (Hand.mem_stamp.2 (.inl ⟨r, hs, rfl⟩)))
    · exact .inr (.inl ⟨rfl, hlast⟩)
  · obtain ⟨gone, fresh, ht⟩ := h.entries (f := (·.stamp))
      ⟨fun _ _ => rfl, fun _ => rfl, fun _ _ => rfl⟩
    have hmem := ht.entries.mem_iff (a := x)
    simp only [List.map_append, List.mem_append] at hmem
    rcases hmem.1 (.inl hx) with (hx | hx) | hx
    · exact .inl (List.mem_append_left _ hx)
    · exact .inl (List.mem_append_right _ (Hand.mem_stamp.2 (.inr hx)))
    · obtain ⟨e, he, rfl⟩ := List.mem_map.1 hx
      obtain ⟨options, hd, ho⟩ := ht.opened e he
      exact .inr (.inr ⟨_, _, options, hd, ho, rfl⟩)

/-- A new connection gets the next number. -/
theorem Does.opened {c : Config} {V V' : Scene} {s : Stage} {flow : Flow}
    {closes : List Nat} (h : Does c V s flow closes V') :
    V.opened ⊆ V'.opened ∧ (V.opened.map (·.1) = (List.range V.total).reverse →
      V'.opened.map (·.1) = (List.range V'.total).reverse) := by
  cases h with
  | connect =>
    refine ⟨List.subset_cons_self .., fun he => ?_⟩
    rw [List.map_cons, he, List.range_succ, List.reverse_append]
    rfl
  | _ => exact ⟨List.Subset.refl _, id⟩

/-! ## Generations -/

/-- The pool goes on in the same generation, or begins the next one and keeps
no connection. -/
theorem Does.ages {c : Config} {V V' : Scene} {s : Stage} {flow : Flow}
    {closes : List Nat} (h : Does c V s flow closes V') :
    (V'.pool.generation = V.pool.generation ∧
      V'.pool.options = V.pool.options ∧ V'.options = V.options ∧
      V'.pool.shutDown = V.pool.shutDown ∧
      ∀ e ∈ V'.pool.idle,
        e ∈ V.pool.idle ∨ V.pool.isCurrent e.record = true) ∨
    V'.pool.generation = V.pool.generation + 1 ∧ V'.pool.idle = [] ∧
      (V.options = V.pool.options → V'.options = V'.pool.options) ∧
      (V.pool.shutDown = true → V'.pool.shutDown = true) ∧
      flow.dials? = none := by
  cases h with
  | invalidate => exact .inr ⟨rfl, rfl, id, id, rfl⟩
  | setOptions options => exact .inr ⟨rfl, rfl, fun _ => rfl, id, rfl⟩
  | shutDown hup => exact .inr ⟨rfl, rfl, id, fun _ => rfl, rfl⟩
  | take hup hidle =>
    refine .inl ⟨rfl, rfl, rfl, rfl, fun e he => .inl ?_⟩
    rw [hidle]
    exact List.mem_cons_of_mem _ he
  | store hroom hcurrent =>
    refine .inl ⟨rfl, rfl, rfl, rfl, fun e he => ?_⟩
    rcases List.mem_cons.1 he with rfl | he
    · exact .inr hcurrent
    · exact .inl he
  | _ => exact .inl ⟨rfl, rfl, rfl, rfl, fun _ he => .inl he⟩

theorem Flow.hand_of_dials? {f : Flow} {r : Record String} {call : Call}
    (h : f.dials? = some (r, call)) : f.hand = .room r := by
  cases f with
  | finish o => cases h
  | _ => exact Stage.hand_of_dials? h

/-- A call for a new connection begins with the options of the server. -/
theorem Does.dials {c : Config} {V V' : Scene} {s : Stage} {flow : Flow}
    {closes : List Nat} (h : Does c V s flow closes V') {r : Record String}
    {call : Call} (hx : flow.dials? = some (r, call)) :
    s.dials? = some (r, call) ∨ call = .connect V.options := by
  have hhand := Flow.hand_of_dials? hx
  cases h with
  | stay _ _ hdials => exact .inl (hdials _ hx)
  | dial hcall =>
    cases hx
    exact .inr hcall
  | discard _ h' | turnAway _ h' | free _ h' | giveBack _ h' =>
    rw [hhand] at h'
    cases h'
  | close hflow => obtain rfl | ⟨calls, rfl⟩ := hflow <;> cases hx
  | _ => cases hx

/-! ## What is true of the stamps in play -/

/-- What a task that is dropped leaves alone. -/
theorem Scene.drop_frame (V : Scene) (outside : Bool) (s : Stage) :
    (V.drop outside s).pool.generation = V.pool.generation ∧
      (V.drop outside s).pool.options = V.pool.options ∧
      (V.drop outside s).pool.shutDown = V.pool.shutDown ∧
      (V.drop outside s).pool.idle = V.pool.idle ∧
      (V.drop outside s).pool.lastId = V.pool.lastId ∧
      (V.drop outside s).stamps = V.stamps := by
  rw [stamps, entries_drop]
  simp only [drop]
  split <;> exact ⟨rfl, rfl, rfl, rfl, rfl, rfl⟩

theorem Flow.flatMap_stamp (f : Flow) (id : Nat) :
    (f.stage?.toList.map (id, ·)).flatMap (·.2.hand.stamp?.toList) =
      f.hand.stamp?.toList := by
  cases f with
  | finish o => rfl
  | _ => exact List.append_nil _

/-- The task that closes what another one had has no stamp. -/
theorem Stage.flatMap_stamp_strays (s : Stage) (outside : Bool) (n : Nat) :
    ((s.strays outside).map (n, ·)).flatMap (·.2.hand.stamp?.toList) = [] ∧
      ∀ y ∈ (s.strays outside).map (n, ·), y.2.dials? = none := by
  have hcloses : ∀ y ∈ (s.strays outside).map (n, ·),
      y.2.hand.stamp?.toList = [] ∧ y.2.dials? = none := by
    intro y hy
    obtain ⟨s', hs', rfl⟩ := List.mem_map.1 hy
    obtain ⟨conn, rfl⟩ := mem_strays hs'
    exact ⟨rfl, rfl⟩
  exact ⟨List.flatMap_eq_nil_iff.2 fun y hy => (hcloses y hy).1,
    fun y hy => (hcloses y hy).2⟩

/-- The stamp is not from a generation to come.  If it is from this one, then
it has the options of the pool, and if the connection is open, it was opened
with them. -/
def Scene.Dates (V : Scene) (x : Stamp) : Prop :=
  x.generation ≤ V.pool.generation ∧
    (x.generation = V.pool.generation → x.options = V.pool.options ∧
      ∀ conn, x.conn = some conn → (conn, V.pool.options) ∈ V.opened)

/-- All stamps in play are right, what is kept is current, calls for
connections of this generation have the options of the pool, and no connection
was opened twice. -/
structure Current (V : Scene) (roll : List (Nat × Stage)) : Prop where
  options : V.options = V.pool.options
  idle : ∀ e ∈ V.pool.idle, V.pool.isCurrent e.record = true
  stamps : ∀ x ∈ V.stamps ++ roll.flatMap (·.2.hand.stamp?.toList),
    V.Dates x
  dials : ∀ y ∈ roll, ∀ r call, y.2.dials? = some (r, call) →
    r.generation = V.pool.generation → call = .connect V.pool.options
  opened : V.opened.map (·.1) = (List.range V.total).reverse

namespace Current

variable {V V' : Scene} {roll : List (Nat × Stage)}

/-- A stamp stays right in the same generation. -/
theorem dates_mono {x : Stamp} (hx : V.Dates x)
    (hgeneration : V'.pool.generation = V.pool.generation)
    (hoptions : V'.pool.options = V.pool.options)
    (hopened : V.opened ⊆ V'.opened) : V'.Dates x := by
  refine ⟨hgeneration ▸ hx.1, fun he => ?_⟩
  obtain ⟨ho, hconn⟩ := hx.2 (he.trans hgeneration)
  rw [hoptions]
  exact ⟨ho, fun conn hc => hopened (hconn conn hc)⟩

/-- A stamp is right in the next generation. -/
theorem dates_next {x : Stamp} (hx : x.generation ≤ V.pool.generation)
    (hgeneration : V'.pool.generation = V.pool.generation + 1) :
    V'.Dates x := by
  refine ⟨by omega, fun he => ?_⟩
  omega

section Deed

variable {c : Config} {id : Nat} {s : Stage} {flow : Flow}
  {closes : List Nat} {rest : List (Nat × Stage)}

/-- The call for a new connection has its record in the hand. -/
theorem dates_of_dials (hi : Current V roll) {y : Nat × Stage} (hy : y ∈ roll)
    {r : Record String} {call : Call} (hd : y.2.dials? = some (r, call)) :
    V.Dates (r.stamp none) := by
  refine hi.stamps _ (List.mem_append_right _ (List.mem_flatMap.2 ⟨y, hy, ?_⟩))
  rw [Stage.hand_of_dials? hd]
  exact List.mem_singleton_self _

/-- The stamps in play after a task has done one thing are those that it has
to do with and those of the other tasks. -/
theorem mem_stamps_of_deed {x : Stamp}
    (hx : x ∈ V'.stamps ++
      (flow.stage?.toList.map (id, ·) ++ rest).flatMap
        (·.2.hand.stamp?.toList)) :
    x ∈ V'.stamps ++ flow.hand.stamp?.toList ∨
      x ∈ V.stamps ++ rest.flatMap (·.2.hand.stamp?.toList) := by
  rw [List.flatMap_append, Flow.flatMap_stamp, ← List.append_assoc] at hx
  exact (List.mem_append.1 hx).imp_right (List.mem_append_right _)

/-- A stamp that was in play before is right: one that the task has to do
with, or one of another task. -/
theorem dates_before (hi : Current V ((id, s) :: rest)) {x : Stamp}
    (hx : x ∈ V.stamps ++ s.hand.stamp?.toList ∨
      x ∈ V.stamps ++ rest.flatMap (·.2.hand.stamp?.toList)) : V.Dates x := by
  refine hi.stamps x ?_
  simp only [List.flatMap_cons, List.mem_append] at hx ⊢
  grind

/-- The task does one thing, and the generation stays the same.  If it opens a
connection for a record of this generation, then the call was for the options
of the pool. -/
theorem deed_same (hdoes : Does c V s flow closes V')
    (hi : Current V ((id, s) :: rest))
    (hgen : V'.pool.generation = V.pool.generation)
    (hopts : V'.pool.options = V.pool.options)
    (hserver : V'.options = V.options)
    (hdown : V'.pool.shutDown = V.pool.shutDown)
    (hidle : ∀ e ∈ V'.pool.idle,
      e ∈ V.pool.idle ∨ V.pool.isCurrent e.record = true) :
    Current V' (flow.stage?.toList.map (id, ·) ++ rest) := by
  obtain ⟨hsub, hopened⟩ := hdoes.opened
  have hold : ∀ {x}, V.Dates x → V'.Dates x := fun hx =>
    dates_mono hx hgen hopts hsub
  refine ⟨by rw [hserver, hopts, hi.options], ?_, ?_, ?_, hopened hi.opened⟩
  · intro e he
    have hc : V.pool.isCurrent e.record = true :=
      (hidle e he).elim (hi.idle e) fun h => h
    simpa only [Pool.isCurrent, hgen, hopts, hdown] using hc
  · intro x hx
    rcases mem_stamps_of_deed hx with hx | hx
    · rcases hdoes.stamps hx with hx | ⟨rfl, -⟩ | ⟨r, _, options, hd, ho, rfl⟩
      · exact hold (hi.dates_before (.inl hx))
      · exact ⟨Nat.le_of_eq hgen.symm, fun _ => ⟨hopts.symm,
          fun _ hc => by cases hc⟩⟩
      · have hr := hold (hi.dates_of_dials List.mem_cons_self hd)
        refine ⟨hr.1, fun he => ⟨(hr.2 he).1, fun conn hc => ?_⟩⟩
        have hcall := hi.dials (id, s) List.mem_cons_self r _ hd
          (he.trans hgen)
        cases hc
        cases hcall
        rwa [hopts]
    · exact hold (hi.dates_before (.inr hx))
  · intro y hy r call hd he
    rw [hopts]
    rw [hgen] at he
    rcases List.mem_append.1 hy with hy | hy
    · obtain ⟨s', hs', rfl⟩ := List.mem_map.1 hy
      have hflow : flow.dials? = some (r, call) := by
        rw [Flow.dials?, Option.mem_toList.1 hs']
        exact hd
      rcases hdoes.dials hflow with hd | rfl
      · exact hi.dials _ List.mem_cons_self r call hd he
      · rw [hi.options]
    · exact hi.dials y (List.mem_cons_of_mem _ hy) r call hd he

/-- The task does one thing, and the next generation begins. -/
theorem deed_next (hdoes : Does c V s flow closes V')
    (hi : Current V ((id, s) :: rest))
    (hgen : V'.pool.generation = V.pool.generation + 1)
    (hidle : V'.pool.idle = []) (hoptions : V'.options = V'.pool.options)
    (hnone : flow.dials? = none) :
    Current V' (flow.stage?.toList.map (id, ·) ++ rest) := by
  have hold : ∀ {x : Stamp}, x.generation ≤ V.pool.generation →
      V'.Dates x := fun hx => dates_next hx hgen
  refine ⟨hoptions, by simp [hidle], ?_, ?_, hdoes.opened.2 hi.opened⟩
  · intro x hx
    rcases mem_stamps_of_deed hx with hx | hx
    · rcases hdoes.stamps hx with hx | ⟨rfl, -⟩ | ⟨r, _, options, hd, ho, rfl⟩
      · exact hold (hi.dates_before (.inl hx)).1
      · exact hold (Nat.le_refl _)
      · exact hold (hi.dates_of_dials List.mem_cons_self hd).1
    · exact hold (hi.dates_before (.inr hx)).1
  · intro y hy r call hd he
    rcases List.mem_append.1 hy with hy | hy
    · obtain ⟨s', hs', rfl⟩ := List.mem_map.1 hy
      rw [Flow.dials?, Option.mem_toList.1 hs'] at hnone
      cases hd.symm.trans hnone
    · have hlt : r.generation ≤ V.pool.generation :=
        (hi.dates_of_dials (List.mem_cons_of_mem _ hy) hd).1
      omega

theorem deed (hdoes : Does c V s flow closes V')
    (hi : Current V ((id, s) :: rest)) :
    Current V' (flow.stage?.toList.map (id, ·) ++ rest) := by
  rcases hdoes.ages with ⟨hgen, hopts, hserver, hdown, hidle⟩ |
      ⟨hgen, hidle, hserver, -, hnone⟩
  · exact deed_same hdoes hi hgen hopts hserver hdown hidle
  · exact deed_next hdoes hi hgen hidle (hserver hi.options) hnone

/-- A task is dropped. -/
theorem drop (outside : Bool) (n : Nat) (hi : Current V ((id, s) :: rest)) :
    Current (V.drop outside s) ((s.strays outside).map (n, ·) ++ rest) := by
  obtain ⟨hstamps, hdials⟩ := s.flatMap_stamp_strays outside n
  obtain ⟨hgen, hopts, hdown, hidle, -, hkept⟩ := V.drop_frame outside s
  refine ⟨hopts ▸ hi.options, ?_, ?_, ?_, hi.opened⟩
  · intro e he
    rw [hidle] at he
    simpa only [Pool.isCurrent, hgen, hopts, hdown] using hi.idle e he
  · intro x hx
    rw [List.flatMap_append, hstamps, List.nil_append, hkept] at hx
    exact dates_mono (hi.dates_before (.inr hx)) hgen hopts
      (List.Subset.refl _)
  · intro y hy r call hd he
    rcases List.mem_append.1 hy with hy | hy
    · cases (hdials y hy).symm.trans hd
    · rw [hopts]
      exact hi.dials y (List.mem_cons_of_mem _ hy) r call hd (he.trans hgen)

end Deed

/-- A task comes that has no connection. -/
theorem cons (hi : Current V roll) (n : Nat) {s : Stage}
    (hs : s.hand.stamp? = none) (hd : s.dials? = none) :
    Current V ((n, s) :: roll) := by
  refine ⟨hi.options, hi.idle, ?_, ?_, hi.opened⟩
  · rw [List.flatMap_cons, hs]
    exact hi.stamps
  · intro y hy r call hy'
    rcases List.mem_cons.1 hy with rfl | hy
    · cases hd.symm.trans hy'
    · exact hi.dials y hy r call hy'

end Current

theorem current_upheld (c : Config) : Upheld c fun _ => Current where
  perm h hi := by
    refine ⟨hi.options, hi.idle, ?_, ?_, hi.opened⟩
    · intro x hx
      refine hi.stamps x ?_
      rwa [((h.flatMap_right _).append_left _).mem_iff]
    · exact fun y hy => hi.dials y (h.mem_iff.2 hy)
  deed := Current.deed
  drop _ hi := hi.drop _ _
  start hi := hi.cons _ rfl rfl
  giveBack hi := hi.cons _ rfl rfl
  revoke hi := ⟨hi.options, hi.idle, hi.stamps, hi.dials, hi.opened⟩
  pass _ hi := ⟨hi.options, hi.idle, hi.stamps, hi.dials, hi.opened⟩

/-- What is true of the stamps in play, as long as options are set through the
pool only. -/
theorem stamps_of_run {c : Config} {s : Server} {as : List Action}
    {w : World} (h : Run c s as w)
    (hset : as.any (·.setsOptions) = false) : Current w.scene w.roll := by
  refine (current_upheld c).run h ?_ fun hx => ?_
  · refine ⟨rfl, ?_, ?_, ?_, ?_⟩
    · exact fun _ he => by cases he
    · exact fun _ hx => by cases hx
    · exact fun _ hy => by cases hy
    · simp [World.scene, World.opened, World.new, h.connections_eq]
  · rw [hset] at hx
    cases hx

/-! ## When an opening was decided -/

namespace World

/-- All stamps in play. -/
def stamps (w : World) : List Stamp :=
  w.scene.stamps ++ w.roll.flatMap (·.2.hand.stamp?.toList)

end World

/-- Both stamps are of one decision to open a connection. -/
structure Stamp.Same (x y : Stamp) : Prop where
  id : x.id = y.id
  generation : x.generation = y.generation
  options : x.options = y.options

/-- A stamp in play was in play before, perhaps without the connection, or it
was made in this action. -/
theorem Happens.stamps {c : Config} {w w' : World} {a : Action}
    {closes : List Nat} (h : Happens c w w' a closes) {x : Stamp}
    (hx : x ∈ w'.stamps) :
    (∃ y ∈ w.stamps, x.Same y) ∨
      x = w.pool.nextStamp ∧ w'.pool.lastId = w.pool.lastId + 1 ∧
        ∃ id, a = .run id := by
  have hself : x ∈ w.stamps → (∃ y ∈ w.stamps, x.Same y) ∨
      x = w.pool.nextStamp ∧ w'.pool.lastId = w.pool.lastId + 1 ∧
        ∃ id, a = .run id :=
    fun hx => .inl ⟨x, hx, rfl, rfl, rfl⟩
  have hdeed : ∀ {id : Nat} {s : Stage} {flow : Flow} {V : Scene}
      {rest : List (Nat × Stage)}, a = .run id →
      w.roll.Perm ((id, s) :: rest) → Does c w.scene s flow closes V →
      w'.pool.lastId = V.pool.lastId →
      x ∈ V.stamps ++ flow.hand.stamp?.toList ∨
        x ∈ w.scene.stamps ++ rest.flatMap (·.2.hand.stamp?.toList) →
      (∃ y ∈ w.stamps, x.Same y) ∨
        x = w.pool.nextStamp ∧ w'.pool.lastId = w.pool.lastId + 1 ∧
          ∃ id, a = .run id := by
    intro id s flow V rest ha hbefore hdoes hlast hx
    have hmem : ∀ {y}, y ∈ w.scene.stamps ++ s.hand.stamp?.toList ∨
        y ∈ w.scene.stamps ++ rest.flatMap (·.2.hand.stamp?.toList) →
        y ∈ w.stamps := by
      intro y hy
      have hroll := (hbefore.flatMap_right fun y : Nat × Stage =>
        y.2.hand.stamp?.toList).mem_iff (a := y)
      rw [World.stamps, List.mem_append, hroll, List.flatMap_cons]
      simp only [List.mem_append] at hy ⊢
      grind
    rcases hx with hx | hx
    · rcases hdoes.stamps hx with hx | ⟨rfl, hnext⟩ | ⟨r, _, _, hd, -, rfl⟩
      · exact hself (hmem (.inl hx))
      · exact .inr ⟨rfl, hlast.trans hnext, id, ha⟩
      · refine .inl ⟨r.stamp none, hmem (.inl ?_), rfl, rfl, rfl⟩
        rw [Stage.hand_of_dials? hd]
        exact List.mem_append_right _ (List.mem_singleton_self _)
    · exact hself (hmem (.inr hx))
  have hold : ∀ {V : Scene} {roll : List (Nat × Stage)}, w'.scene = V →
      V.stamps = w.scene.stamps → w'.roll.Perm roll →
      roll.flatMap (·.2.hand.stamp?.toList) ⊆
        w.roll.flatMap (·.2.hand.stamp?.toList) → x ∈ w.stamps := by
    rintro V roll rfl hV hroll hsub
    rw [World.stamps, hV] at hx
    rcases List.mem_append.1 hx with hx | hx
    · exact List.mem_append_left _ hx
    · exact List.mem_append_right _ (hsub ((hroll.flatMap_right _).mem_iff.1 hx))
  cases h with
  | @work id s flow _ rest hbefore hdoes hafter =>
    have hx := ((hafter.flatMap_right _).append_left _).mem_iff.1 hx
    exact hdeed rfl hbefore hdoes rfl (Current.mem_stamps_of_deed hx)
  | @cutOff id n s s' flow _ V outside rest hbefore hdoes _ _ hscene hafter =>
    obtain ⟨-, -, -, -, hlast, hkept⟩ := V.drop_frame outside s'
    rw [← hscene] at hlast hkept
    refine hdeed rfl hbefore hdoes hlast ?_
    have hx := ((hafter.flatMap_right _).append_left _).mem_iff.1 hx
    rw [List.flatMap_append, (s'.flatMap_stamp_strays outside n).1,
      List.nil_append, hkept] at hx
    exact (List.mem_append.1 hx).imp (List.mem_append_left _)
      (List.mem_append_right _)
  | @drop id n s outside rest hbefore _ hscene hafter =>
    obtain ⟨-, -, -, -, -, hkept⟩ := w.scene.drop_frame outside s
    refine hself (hold hscene hkept hafter ?_)
    rw [List.flatMap_append, (s.flatMap_stamp_strays outside n).1,
      List.nil_append]
    intro y hy
    rw [(hbefore.flatMap_right _).mem_iff]
    exact List.mem_append_right _ hy
  | start hscene hafter | forget hscene hafter =>
    exact hself (hold hscene rfl hafter fun _ hy => hy)
  | forgetOutside hscene hafter | change hscene hafter
  | pass _ hscene hafter | quiet hscene hafter =>
    exact hself (hold hscene rfl (.of_eq hafter) (List.Subset.refl _))

/-- The opening of a connection was decided in a run right after the actions
`before`, and the stamp says how the pool was then. -/
structure Decided (c : Config) (s : Server) (x : Stamp) (later : List Action)
    (id : Nat) (before : List Action) (v v' : World) : Prop where
  run : Run c s before v
  act : v.act (.run id) = some v'
  number : v'.pool.lastId = v.pool.lastId + 1 ∧ x.id = v'.pool.lastId
  generation : x.generation = v.pool.generation
  options : x.options = v.pool.options

/-- The opening of each connection in play was decided at some action. -/
theorem decided_of_run {c : Config} {s : Server} {as : List Action}
    {w : World} (h : Run c s as w) {x : Stamp} (hx : x ∈ w.stamps) :
    ∃ later id before v v', as = later ++ .run id :: before ∧
      Decided c s x later id before v v' := by
  induction h generalizing x with
  | new hs hw =>
    obtain ⟨-, -, rfl⟩ := Run.new_iff.1 (.new hs hw)
    cases hx
  | @act as a w w' h ha ih =>
    rcases (h.happens ha).stamps hx with ⟨y, hy, hxy⟩ |
        ⟨rfl, hlast, id, rfl⟩
    · obtain ⟨later, id, before, v, v', rfl, hd⟩ := ih hy
      exact ⟨a :: later, id, before, v, v', rfl, hd.run, hd.act,
        hxy.id ▸ hd.number, hxy.generation ▸ hd.generation,
        hxy.options ▸ hd.options⟩
    · exact ⟨[], id, as, w, w', rfl, h, ha, ⟨hlast, hlast.symm⟩, rfl, rfl⟩

/-! ## What declares connections out of date -/

/-- The operation declares all connections out of date. -/
def Operation.outdates : Operation → Bool
  | invalidate => true
  | setOptions _ => true
  | shutDown => true
  | _ => false

/-- In this action a task declares all connections out of date. -/
def World.outdates (w : World) (a : Action) : Bool :=
  match a with
  | .run id =>
    match w.task? id with
    | some ⟨_, .start op, _⟩ => op.outdates
    | _ => false
  | _ => false

theorem World.shutDown_pool (w : World) :
    w.shutDown.2.pool.shutDown = true := by
  unfold World.shutDown
  split
  · assumption
  · have hs := Doing.withdraw w.pool.close.2.1
      { w with pool := w.pool.close.2.2 }.ringAll
    have hd := congrArg (fun V : Scene => V.pool.shutDown) hs
    refine hd.trans ?_
    show ({ w with pool := w.pool.close.2.2 } : World).ringAll.pool.shutDown =
      true
    rw [(World.ringAll_frame _).2.2.1]
    rfl

/-- After such a beginning there is another generation, or the pool is at its
end, and the task does not come to wait. -/
theorem World.outdates_begin (w : World) {op : Operation}
    (h : op.outdates = true) :
    (w.pool.generation < (w.begin op).2.pool.generation ∨
        (w.begin op).2.pool.shutDown = true) ∧
      (w.begin op).1.waits? = none := by
  cases op with
  | invalidate => exact ⟨.inl (Nat.lt_succ_self _), rfl⟩
  | setOptions options => exact ⟨.inl (Nat.lt_succ_self _), rfl⟩
  | shutDown =>
    refine ⟨.inr w.shutDown_pool, ?_⟩
    show w.shutDown.1.waits? = none
    unfold World.shutDown
    split <;> rfl
  | _ => cases h

theorem World.follow_pool {flow : Flow} (h : flow.waits? = none) (w : World)
    (id : Nat) : (w.follow id flow).pool = w.pool := by
  cases flow with
  | again s | finish o => rfl
  | _ => cases h

/-- After such an action there is another generation, or the pool is at its
end. -/
theorem World.outdates_act {w w' : World} {a : Action}
    (h : w.outdates a = true) (ha : w.act a = some w') :
    w.pool.generation < w'.pool.generation ∨ w'.pool.shutDown = true := by
  cases a with
  | run id =>
    simp only [World.act] at ha
    split at ha
    · cases ha
      simp only [World.outdates] at h
      split at h
      · rename_i i op limit ht
        have hrun : World.run { w with ready := w.ready.erase id } id =
            (World.begin { w with ready := w.ready.erase id } op).2.follow id
              (World.begin { w with ready := w.ready.erase id } op).1 := by
          unfold World.run
          rw [show World.task? { w with ready := w.ready.erase id } id = _
            from ht]
          rfl
        obtain ⟨hb, hwaits⟩ := World.outdates_begin
          { w with ready := w.ready.erase id } h
        rw [hrun, World.follow_pool hwaits]
        exact hb
      · cases h
    · cases ha
  | _ => cases h

/-- Generations only go up, and the end of the pool is for good. -/
theorem Happens.ages {c : Config} {w w' : World} {a : Action}
    {closes : List Nat} (h : Happens c w w' a closes) :
    w.pool.generation ≤ w'.pool.generation ∧
      (w.pool.shutDown = true → w'.pool.shutDown = true) := by
  refine h.scene (P := fun V => w.pool.generation ≤ V.pool.generation ∧
    (w.pool.shutDown = true → V.pool.shutDown = true)) ?self ?deed ?drop
    ?handles ?options ?pass
  case deed =>
    intro s flow closes V hdoes
    rcases hdoes.ages with ⟨hgen, -, -, hdown, -⟩ | ⟨hgen, -, -, hdown, -⟩
    · exact ⟨Nat.le_of_eq hgen.symm, fun hs => hdown.trans hs⟩
    · exact ⟨Nat.le_trans (Nat.le_succ _) (Nat.le_of_eq hgen.symm), hdown⟩
  case drop =>
    intro V outside s hV
    obtain ⟨hgen, -, hdown, -⟩ := V.drop_frame outside s
    rwa [hgen, hdown]
  case self => exact ⟨Nat.le_refl _, id⟩
  case handles | options => exact fun _ => ⟨Nat.le_refl _, id⟩
  case pass => exact fun _ _ => ⟨Nat.le_refl _, id⟩

/-- The same for many actions. -/
theorem Run.ages {c : Config} {s : Server} {as later : List Action}
    {w w' : World} (h : Run c s as w) (h' : Run c s (later ++ as) w') :
    w.pool.generation ≤ w'.pool.generation ∧
      (w.pool.shutDown = true → w'.pool.shutDown = true) := by
  induction later generalizing w' with
  | nil =>
    cases h.unique h'
    exact ⟨Nat.le_refl _, id⟩
  | cons a later ih =>
    cases h' with
    | @act _ _ v _ h' ha =>
      have h' : Run c s (later ++ as) v := h'
      obtain ⟨hle, hdown⟩ := ih h'
      obtain ⟨hle', hdown'⟩ := (h'.happens ha).ages
      exact ⟨Nat.le_trans hle hle', fun hs => hdown' (hdown hs)⟩

/-! ## Connections that are lent -/

/-- None of the later actions declares connections out of date. -/
def Quiet (c : Config) (s : Server) (later before : List Action) : Prop :=
  ∀ l₁ b l₂ u, later = l₂ ++ b :: l₁ → Run c s (l₁ ++ before) u →
    u.outdates b = false

/-- A connection is of the generation of the pool only if nothing has been
declared out of date since its opening was decided. -/
theorem Decided.quiet {c : Config} {s : Server} {x : Stamp}
    {later before : List Action} {id : Nat} {v v' w : World}
    (hd : Decided c s x later id before v v')
    (h : Run c s (later ++ .run id :: before) w)
    (hgen : x.generation = w.pool.generation)
    (hup : w.pool.shutDown = false) : Quiet c s later (.run id :: before) := by
  intro l₁ b l₂ u hl hu
  cases hb : u.outdates b with
  | false => rfl
  | true =>
    have h : Run c s (l₂ ++ b :: (l₁ ++ .run id :: before)) w := by
      rw [hl] at h
      simpa only [List.append_assoc, List.cons_append] using h
    obtain ⟨u', hu'⟩ := h.of_append
    cases hu' with
    | @act _ _ t _ ht ha =>
      cases hu.unique ht
      have hu' : Run c s ((l₁ ++ [.run id]) ++ before) u := by
        rw [List.append_assoc]
        exact hu
      have hearly := hd.run.ages hu'
      have hlate := Run.ages (.act hu ha) h
      rcases World.outdates_act hb ha with hlt | hdown
      · have := hd.generation
        omega
      · cases hup.symm.trans (hlate.2 hdown)

theorem World.mem_opened {w : World} {conn : Nat} {options : String} :
    (conn, options) ∈ w.opened ↔
      ∃ t, (t, .answered (.connect options) conn) ∈ w.history := by
  simp only [World.opened, List.mem_filterMap]
  constructor
  · rintro ⟨⟨t, e⟩, hmem, he⟩
    refine ⟨t, ?_⟩
    cases e with
    | answered call conn' =>
      cases call <;> cases he
      exact hmem
    | _ => cases he
  · rintro ⟨t, hmem⟩
    exact ⟨_, hmem, rfl⟩

/-- No connection was opened with two options. -/
theorem Current.options_unique {V : Scene} {roll : List (Nat × Stage)}
    (hi : Current V roll) {conn : Nat} {o o' : String}
    (h : (conn, o) ∈ V.opened) (h' : (conn, o') ∈ V.opened) : o = o' := by
  have hnodup : (V.opened.map (·.1)).Nodup := by
    rw [hi.opened, List.nodup_reverse]
    exact List.nodup_range
  exact congrArg Prod.snd (List.inj_on_of_nodup_map hnodup h h' rfl)

/-- A lease that is new after an action was given to the task that did it, for
the connection in its slot. -/
theorem Run.lends {c : Config} {s : Server} {as : List Action} {a : Action}
    {v w : World} (hv : Run c s as v) (ha : v.act a = some w) {lease : Nat}
    {x : Handle} (hle : v.handles.length ≤ lease)
    (hx : w.handles[lease]? = some x) :
    ∃ id q e, a = .run id ∧ (id, .acquire q (.lending e)) ∈ v.roll ∧
      v.pool.isCurrent e.record = true ∧ w.pool.isCurrent e.record = true ∧
      w.opened = v.opened ∧
      w.history.head? = some (v.now, .ended id (.lent lease)) ∧
      x.conn = e.conn ∧ x.record = e.record.lend v.now := by
  have hlen : ∀ u : World, u.scene.grants.length = u.handles.length :=
    fun u => List.length_map ..
  have hlt := (List.getElem?_eq_some_iff.1 hx).1
  have hgrant : w.scene.grants[lease]? = some x.grant := by
    simp only [Scene.grants, World.scene, List.getElem?_map, hx,
      Option.map_some]
  rcases (hv.happens ha).grants with he |
      ⟨id, q, e, rfl, hmem, hc, hc', ho, hhist, he⟩
  · have hsame := congrArg List.length he
    rw [hlen, hlen] at hsame
    omega
  · obtain rfl : lease = v.handles.length := by
      have hone := congrArg List.length he
      rw [List.length_append, hlen, hlen, List.length_singleton] at hone
      omega
    rw [he, ← hlen, List.getElem?_append_right (Nat.le_refl _),
      Nat.sub_self] at hgrant
    have hx : (e.conn, e.record.lend v.now) = x.grant :=
      Option.some.inj hgrant
    exact ⟨id, q, e, rfl, hmem, hc, hc', ho, hhist,
      (congrArg Prod.fst hx).symm, (congrArg Prod.snd hx).symm⟩

/-- Options are set through the pool only. -/
def SetInside (as : List Action) : Prop := ∀ a ∈ as, a.setsOptions = false

instance (as : List Action) : Decidable (SetInside as) :=
  inferInstanceAs (Decidable (∀ a ∈ as, a.setsOptions = false))

/-- No connection is lent that is out of date, as long as options are set
through the pool only.  After each action, what is kept is of the generation
and the options of the pool.  And if the action lends a connection, then a
task has got it that ends with that, the pool has not ended, the record has
the generation and the options of the pool, the connection was opened with the
options that the server has now and with no others, and since its opening was
decided, nothing has been declared out of date. -/
theorem current_of_run {c : Config} {s : Server} {as : List Action}
    {w : World} (h : Run c s as w) (hset : SetInside as) :
    (∀ e ∈ w.pool.idle, e.record.generation = w.pool.generation ∧
      e.record.options = w.pool.options) ∧
    ∀ a as' v lease x, as = a :: as' → Run c s as' v →
      v.handles.length ≤ lease → w.handles[lease]? = some x →
      (∃ id, a = .run id ∧
        w.history.head? = some (v.now, .ended id (.lent lease))) ∧
      w.pool.shutDown = false ∧
      x.record.generation = w.pool.generation ∧
      x.record.options = w.pool.options ∧
      (∀ options, (∃ t, (t, .answered (.connect options) x.conn) ∈ w.history) ↔
        options = w.server.options) ∧
      ∃ later id before u u', as' = later ++ .run id :: before ∧
        Run c s before u ∧ u.act (.run id) = some u' ∧
        u'.pool.lastId = u.pool.lastId + 1 ∧
        x.record.id = u'.pool.lastId ∧
        Quiet c s later (.run id :: before) := by
  have hany : ∀ {bs : List Action}, (∀ b ∈ bs, b ∈ as) →
      bs.any (·.setsOptions) = false := by
    intro bs hsub
    rw [List.any_eq_false]
    exact fun b hb => by simp [hset b (hsub b hb)]
  have hnow := stamps_of_run h (hany fun _ hb => hb)
  constructor
  · intro e he
    have hc := hnow.idle e he
    simp only [Pool.isCurrent, Bool.and_eq_true, decide_eq_true_eq] at hc
    exact ⟨hc.1.2, hc.2⟩
  · rintro a as' v lease x rfl hv hle hx
    have hbefore := stamps_of_run hv (hany fun _ => List.mem_cons_of_mem _)
    cases h with
    | @act _ _ t _ ht ha =>
      cases hv.unique ht
      obtain ⟨i, q, e, rfl, hmem, hc, hc', ho, hhist, hconn, hrecord⟩ :=
        hv.lends ha hle hx
      have hstamp : e.stamp ∈ v.stamps :=
        List.mem_append_right _ (List.mem_flatMap.2
          ⟨_, hmem, List.mem_singleton_self _⟩)
      simp only [Pool.isCurrent, Bool.and_eq_true, Bool.not_eq_true',
        decide_eq_true_eq] at hc hc'
      obtain ⟨⟨hup, hgen⟩, -⟩ := hc
      obtain ⟨⟨hup', hgen'⟩, hopts'⟩ := hc'
      have hwith : (e.conn, w.server.options) ∈ w.opened := by
        have hdates := (hbefore.stamps _ hstamp).2 hgen
        rw [ho, show w.server.options = w.pool.options from hnow.options,
          ← hopts', show e.record.options = _ from hdates.1]
        exact hdates.2 _ rfl
      obtain ⟨later, id, before, u, u', rfl, hd⟩ := decided_of_run hv hstamp
      refine ⟨⟨i, rfl, hhist⟩, hup', ?_, ?_, ?_,
        later, id, before, u, u', rfl, hd.run, hd.act, hd.number.1, ?_,
        hd.quiet hv hgen hup⟩
      · rw [hrecord]
        exact hgen'
      · rw [hrecord]
        exact hopts'
      · intro options
        rw [← World.mem_opened, hconn]
        refine ⟨fun h => hnow.options_unique h hwith, ?_⟩
        rintro rfl
        exact hwith
      · rw [hrecord]
        exact hd.number.2

/-- A server that takes half a second to open a connection. -/
def slowToOpen : Server :=
  { connect := { delay := 500, message := "connection refused" } }

/-- While a connection is opened, other options are set.  That connection is
closed, and another one is opened. -/
def changedWhileOpening : List Action :=
  [.run 0, .advance (Time.ofMillis 1000),
    .run 0, .run 0, .run 0, .run 0, .run 0, .run 0,
    .advance (Time.ofMillis 500),
    .run 1, .run 1, .start (.setOptions "other") none,
    .run 0, .run 0, .run 0, .run 0, .start .acquire none]

/-- The other one is lent. -/
theorem current_changedWhileOpening :
    SetInside (.run 0 :: changedWhileOpening) ∧
    ∃ w, Run {} slowToOpen (.run 0 :: changedWhileOpening) w ∧
      w.opened = [(1, "other"), (0, "db")] ∧ w.server.options = "other" ∧
      ∃ x, w.handles[0]? = some x ∧
        x.record.generation = w.pool.generation ∧
        ∃ t, (t, .answered (.connect "other") x.conn) ∈ w.history := by
  have hset : SetInside (.run 0 :: changedWhileOpening) := by decide
  have hex : ∃ v, Run {} slowToOpen changedWhileOpening v ∧
      v.handles = [] ∧ (v.act (.run 0)).any (fun w => decide (
        w.opened = [(1, "other"), (0, "db")] ∧ w.server.options = "other" ∧
          w.handles.length = 1)) = true :=
    Run.exists_of_replay rfl rfl (by decide +kernel)
  obtain ⟨v, hv, hnone, hact⟩ := hex
  obtain ⟨w, ha, hw⟩ := (Option.any_eq_true ..).mp hact
  obtain ⟨hopened, hoptions, hlen⟩ := of_decide_eq_true hw
  have hx : w.handles[0]? = some w.handles[0] :=
    List.getElem?_eq_getElem (by omega)
  have h : Run {} slowToOpen (.run 0 :: changedWhileOpening) w := .act hv ha
  obtain ⟨-, hlent⟩ := current_of_run h hset
  obtain ⟨-, -, hgen, -, hwith, -⟩ :=
    hlent _ _ v 0 w.handles[0] rfl hv (by simp [hnone]) hx
  exact ⟨hset, w, h, hopened, hoptions, _, hx, hgen,
    (hwith "other").2 hoptions.symm⟩

end DatabasePool
