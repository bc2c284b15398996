import DatabasePool.Proofs.Leases

/-!
# What is left to a holder

A holder whose lease has ended can do nothing any more.  Every use of the
connection is refused at once, and no call is made.  The connection can still
be given back once: the first close that is not dropped ends well, whatever
has become of the connection meanwhile, and every other one is refused.  When
the pool has taken the connection back already, nothing changes by that.

* `Stays.act` says what it takes for a task to stay within some stages and to
  end in some ways only.
* `Run.closed_iff` says that the mark on a holder tells of a close.
* `Run.taken_back` says when the pool has taken a connection back.
* `life_of_run` puts the life of a holder together.
-/

namespace DatabasePool

namespace World

/-! ## Tasks that stay within some stages -/

/-- A task is in one of some stages for as long as it is there, and ends in
one of some ways, unless it is dropped. -/
structure Stays (P : Stage → Prop) (Q : Outcome → Prop) (w : World)
    (id : Nat) : Prop where
  lt : id < w.nextTask
  stage : ∀ s, (id, s) ∈ w.roll → P s
  outcome : ∀ m o, (m, .ended id o) ∈ w.history → Q o ∨ o = .cancelled

/-- What a task that does one thing comes to. -/
theorem stays_act {P : Stage → Prop} {Q : Outcome → Prop} {w w' : World}
    {a : Action} {id : Nat} (hd : w.Distinct) (ha : w.act a = some w')
    (hlt : id < w.nextTask)
    (hstage : a.task? ≠ some id → ∀ s, (id, s) ∈ w.roll → P s)
    (houtcome : ∀ m o, (m, .ended id o) ∈ w.history → Q o ∨ o = .cancelled)
    (hmoves : ∀ t flow v, w.task? id = some t →
      (w.pick id).Moves id t.stage flow v →
        (∀ s, flow.stage? = some s → P s) ∧ ∀ o, flow = .finish o → Q o) :
    Stays P Q w' id := by
  refine ⟨Nat.lt_of_lt_of_le hlt (nextTask_act hd ha), fun s hs => ?_,
    fun m o hmem => ?_⟩
  · obtain ⟨hs, hne⟩ | ⟨hid, -⟩ | ⟨t, flow, v, -, ht, hmove, hs, -⟩ :=
      stage_act hd ha hs
    · exact hstage hne s hs
    · exact absurd hid (Nat.ne_of_lt hlt)
    · exact (hmoves t flow v ht (moves_of_eq hmove)).1 s hs
  · obtain ⟨evs, hevs, hall⟩ := adds_act hd ha
    rw [hevs, List.mem_append] at hmem
    rcases hmem with hmem | hmem
    · obtain ⟨e, he, heq⟩ := List.mem_map.1 hmem
      cases heq
      generalize hev : Event.ended id o = e at he
      cases hall e he with
      | writes _ _ hw =>
        subst hev
        cases hw.1
      | ended ht hmove =>
        cases hev
        exact .inl ((hmoves _ _ _ ht (moves_of_eq hmove)).2 _ rfl)
      | cutOff =>
        cases hev
        exact .inr rfl
      | dropped | abandoned => cases hev
    · exact houtcome m o hmem

/-- A connection that is given back is so in the end, and that goes well. -/
theorem Moves.of_giveBack {w v : World} {id : Nat} {g : Return} {flow : Flow}
    (h : w.Moves id (.giveBack g) flow v) :
    (∀ s, flow.stage? = some s → ∃ g', s = .giveBack g') ∧
      ∀ o, flow = .finish o → o = .done := by
  cases h with
  | tooLate | store | returnDiscarded =>
    constructor
    · intro s hs
      cases hs
    · intro o ho
      cases ho
      rfl
  | _ =>
    constructor
    · intro s hs
      cases hs
      exact ⟨_, rfl⟩
    · intro o ho
      cases ho

/-! ## Closes -/

/-- A task begins to give the connection back for its holder. -/
structure BeginsClose (w : World) (t : Task) (lease : Nat) (w' : World) :
    Prop where
  task : w.task? t.id = some t
  stage : t.stage = .start (.close lease)
  act : w.act (.run t.id) = some w'

/-- What it comes to that a close begins: it is not the first one and is
refused, or there is nothing left to do, or the lease ends by that. -/
theorem BeginsClose.cases {w w' : World} {t : Task} {lease : Nat} {x : Handle}
    (h : w.BeginsClose t lease w') (hd : w.Distinct)
    (hx : w.handles[lease]? = some x) :
    (x.closed = true ∧ w' = (w.pick t.id).finish t.id (.failed .returned)) ∨
      (x.closed = false ∧ x.valid = false ∧
        w' = ((w.pick t.id).markClosed lease).finish t.id .done) ∨
      x.closed = false ∧ x.valid = true ∧
        Follows (((w.pick t.id).markClosed lease).revoke lease) t
          (.again (.giveBack (.starting lease))) w' := by
  obtain ⟨flow, v, hmove, -, hf⟩ := act_task hd h.task h.act
  rw [h.stage] at hmove
  cases hmove with
  | close hheld hopen hvalid =>
    obtain rfl := Option.some.inj (hx.symm.trans hheld)
    exact .inr (.inr ⟨hopen, hvalid, hf⟩)
  | closeLate hheld hopen hvalid =>
    obtain rfl := Option.some.inj (hx.symm.trans hheld)
    exact .inr (.inl ⟨hopen, hvalid, hf.eq_finish⟩)
  | closeAgain hclosed => exact .inl ⟨hclosed x hx, hf.eq_finish⟩
  | ask hop | askLate hop => cases hop
  | awaits hcall => cases hcall

/-- The holder is marked by that. -/
theorem BeginsClose.closed {w w' : World} {t : Task} {lease : Nat} {x : Handle}
    (h : w.BeginsClose t lease w') (hd : w.Distinct)
    (hx : w.handles[lease]? = some x) :
    ∃ y, w'.handles[lease]? = some y ∧ y.closed = true := by
  have hmarked : (w.markClosed lease).handles[lease]? =
      some { x with closed := true } :=
    (Handle.getElem?_modify hx).trans (congrArg some (if_pos rfl))
  obtain ⟨hclosed, rfl⟩ | ⟨-, -, rfl⟩ | ⟨-, -, hf⟩ := h.cases hd hx
  · exact ⟨x, hx, hclosed⟩
  · exact ⟨_, hmarked, rfl⟩
  · refine ⟨{ x with valid := false, closed := true }, ?_, rfl⟩
    rw [hf.handles]
    exact (Handle.getElem?_modify hmarked).trans (congrArg some (if_pos rfl))

end World

/-- In a run of these actions, some task has begun to give the connection back
for its holder. -/
def CloseBegun (c : Config) (s : Server) (as : List Action) (lease : Nat) :
    Prop :=
  ∃ later before v t v', as = later ++ .run t.id :: before ∧
    Run c s before v ∧ lease < v.handles.length ∧ v.BeginsClose t lease v'

/-- The holder is marked if a close has begun, and only then. -/
theorem Run.closed_iff {c : Config} {s : Server} {as : List Action}
    {w : World} (h : Run c s as w) {lease : Nat} {x : Handle}
    (hx : w.handles[lease]? = some x) :
    x.closed = true ↔ CloseBegun c s as lease := by
  constructor
  · intro hclosed
    induction h generalizing x with
    | new hs hw =>
      obtain ⟨-, -, rfl⟩ := Run.new_iff.1 (.new hs hw)
      cases hx
    | @act as a w w' h ha ih =>
      have hlt : lease < w.handles.length := by
        refine Nat.lt_of_not_le fun hle => ?_
        cases ((h.happens ha).new_handle hle hx).2.symm.trans hclosed
      have hget := List.getElem?_eq_getElem hlt
      have hbegins : ∀ {id : Nat},
          (id, .start (.close lease)) ∈ w.roll → a = .run id →
          CloseBegun c s (a :: as) lease := by
        rintro id hmem rfl
        have hd := World.distinct_of_run h
        obtain ⟨t, ht, hstage⟩ := hd.task?_of_roll hmem
        obtain rfl := World.id_of_task? ht
        exact ⟨[], as, w, t, w', rfl, h, hlt, ht, hstage, ha⟩
      cases hold : w.handles[lease].closed with
      | true =>
        obtain ⟨later, before, v, t, v', rfl, hbegun⟩ := ih hget hold
        exact ⟨a :: later, before, v, t, v', rfl, hbegun⟩
      | false =>
        obtain ⟨-, rfl | halters⟩ := h.handle_act ha hget hx
        · cases hold.symm.trans hclosed
        · cases halters with
          | forget => cases hold.symm.trans hclosed
          | deed hmem hdoes =>
            cases hdoes with
            | mark | callIn => exact hbegins hmem rfl
            | shutDown | claim => cases hold.symm.trans hclosed
  · rintro ⟨later, before, v, t, v', rfl, hv, hlt, hbegins⟩
    obtain ⟨y, hy, hmarked⟩ := hbegins.closed (World.distinct_of_run hv)
      (List.getElem?_eq_getElem hlt)
    obtain ⟨z, hz, hbecomes⟩ := Run.handle (.act hv hbegins.act) h hy
    obtain rfl := Option.some.inj (hz.symm.trans hx)
    exact hbecomes.closed hmarked

/-! ## Connections that the pool has taken back -/

/-- The pool has the connection on loan under no such lease any more. -/
def OffLoan (lease : Nat) (V : Scene) : Prop :=
  lease < V.handles.length ∧ ∀ loan ∈ V.pool.active, loan.lease ≠ lease

theorem offLoan_upheld (c : Config) (lease : Nat) :
    Upheld c fun _ V _ => OffLoan lease V where
  perm _ hi := hi
  deed {B closes V V' id s flow rest} hdoes hi := by
    obtain ⟨hlt, hno⟩ := hi
    obtain ⟨y, hy, -⟩ := hdoes.alters (List.getElem?_eq_getElem hlt)
    refine ⟨(List.getElem?_eq_some_iff.1 hy).1, ?_⟩
    cases hdoes with
    | claim _ _ _ hperm | giveBack hperm | turnAway hperm =>
      exact fun l hl => hno l (hperm.subset (List.mem_cons_of_mem _ hl))
    | lend =>
      intro l hl
      rcases List.mem_append.1 hl with hl | hl
      · exact hno l hl
      · obtain rfl := List.mem_singleton.1 hl
        exact (Nat.ne_of_lt hlt).symm
    | shutDown => exact fun l hl => by cases hl
    | _ => exact hno
  drop _ hi := by
    refine ⟨hi.1, fun l hl => ?_⟩
    rw [Scene.active_drop] at hl
    exact hi.2 l hl
  start hi := hi
  giveBack hi := hi
  revoke hi := ⟨by simpa using hi.1, hi.2⟩
  pass _ hi := hi

/-- When a lease ends and its holder has not begun to give the connection
back, the pool has taken it back. -/
theorem Does.offLoan {c : Config} {V V' : Scene} {s : Stage} {flow : Flow}
    {closes : List Nat} (h : Does c V s flow closes V') {lease : Nat}
    {x y : Handle} (hnodup : (V.pool.active.map (·.lease)).Nodup)
    (hx : V.handles[lease]? = some x) (hy : V'.handles[lease]? = some y)
    (hvalid : x.valid = true) (hended : y.valid = false)
    (hopen : y.closed = false) : OffLoan lease V' := by
  have hlt := (List.getElem?_eq_some_iff.1 hy).1
  have hsame : y ≠ x := by
    rintro rfl
    cases hvalid.symm.trans hended
  cases h with
  | mark =>
    obtain rfl := Option.some.inj ((Handle.getElem?_modify hx).symm.trans hy)
    split at hended <;> cases hvalid.symm.trans hended
  | @callIn i =>
    obtain rfl := Option.some.inj
      ((Handle.getElem?_modify (Handle.getElem?_modify hx)).symm.trans hy)
    by_cases hi : i = lease
    · simp [hi] at hopen
    · simp [hi] at hsame
  | @claim q loan rest _ _ _ hperm =>
    obtain rfl := Option.some.inj ((Handle.getElem?_modify hx).symm.trans hy)
    split at hsame
    · rename_i hlease
      subst hlease
      rw [← (hperm.map (·.lease)).nodup_iff, List.map_cons,
        List.nodup_cons] at hnodup
      refine ⟨hlt, fun l hl he => hnodup.1 ?_⟩
      exact List.mem_map.2 ⟨l, hl, he⟩
    · exact absurd rfl hsame
  | lend =>
    rw [List.getElem?_append_left (List.getElem?_eq_some_iff.1 hx).1] at hy
    exact absurd (Option.some.inj (hy.symm.trans hx)) hsame
  | shutDown => exact ⟨hlt, fun l hl => by cases hl⟩
  | _ => exact absurd (Option.some.inj (hy.symm.trans hx)) hsame

theorem Happens.offLoan {c : Config} {w w' : World} {a : Action}
    {closes : List Nat} (h : Happens c w w' a closes) {lease : Nat}
    {x y : Handle} (hnodup : (w.pool.active.map (·.lease)).Nodup)
    (hx : w.handles[lease]? = some x) (hy : w'.handles[lease]? = some y)
    (hvalid : x.valid = true) (hended : y.valid = false)
    (hopen : y.closed = false) (hkept : ∀ outside, a ≠ .forget outside lease) :
    OffLoan lease w'.scene := by
  have hsame : w'.handles[lease]? = w.handles[lease]? →
      OffLoan lease w'.scene := by
    intro he
    obtain rfl := Option.some.inj (hx.symm.trans (he.symm.trans hy))
    cases hvalid.symm.trans hended
  cases h.changes with
  | deed _ hdoes hkeeps =>
    obtain ⟨hlt, hno⟩ :=
      hdoes.offLoan hnodup hx ((hkeeps.handle lease).symm.trans hy) hvalid hended
        hopen
    exact ⟨hkeeps.handles ▸ hlt, fun l hl => hno l (hkeeps.active ▸ hl)⟩
  | @forget _ i _ hhandles =>
    have hne : i ≠ lease := by
      rintro rfl
      exact hkept _ rfl
    exact hsame (hhandles ▸ List.getElem?_modify_ne _ _ hne)
  | same hkeeps => exact hsame (hkeeps.handle lease)

section Runs

variable {c : Config} {s : Server} {as later : List Action} {w v : World}
  {lease : Nat}

/-- The pool has taken the connection back if the lease has ended, but its
holder neither has begun to give the connection back nor has forgotten it. -/
theorem Run.taken_back (h : Run c s as w) {x : Handle}
    (hx : w.handles[lease]? = some x) (hended : x.valid = false)
    (hopen : x.closed = false) (hkept : ∀ outside, .forget outside lease ∉ as) :
    OffLoan lease w.scene := by
  induction h generalizing x with
  | new hs hw =>
    obtain ⟨-, -, rfl⟩ := Run.new_iff.1 (.new hs hw)
    cases hx
  | @act as a w w' h ha ih =>
    have hhappens := h.happens ha
    have hlt : lease < w.handles.length := by
      refine Nat.lt_of_not_le fun hle => ?_
      cases (hhappens.new_handle hle hx).1.symm.trans hended
    have hget := List.getElem?_eq_getElem hlt
    cases hvalid : w.handles[lease].valid with
    | true =>
      refine hhappens.offLoan (leased_of_run h).leases hget hx hvalid hended
        hopen fun outside he => ?_
      exact hkept outside (he ▸ List.mem_cons_self)
    | false =>
      have hbecomes := (h.handle_act ha hget hx).1
      have hbefore : w.handles[lease].closed = false :=
        Bool.eq_false_iff.2 fun hc => Bool.eq_false_iff.1 hopen
          (hbecomes.closed hc)
      exact (offLoan_upheld c lease).act hhappens (B := [])
        (fun _ _ _ _ _ hi => hi) (ih hget hvalid hbefore fun outside hmem =>
          hkept outside (List.mem_cons_of_mem _ hmem))

/-- A connection that has been taken back is so from then on. -/
theorem Run.offLoan (h : Run c s as w) (h' : Run c s (later ++ as) v)
    (hoff : OffLoan lease w.scene) : OffLoan lease v.scene :=
  (offLoan_upheld c lease).extend h h' (fun _ _ _ _ _ hi => hi) hoff

/-- The lease of a connection that has been taken back has ended. -/
theorem Run.not_valid (h : Run c s as w) (hoff : OffLoan lease w.scene) :
    w.isValid lease = false := by
  have hget := List.getElem?_eq_getElem (show lease < w.handles.length from hoff.1)
  rw [World.isValid_eq hget, Bool.eq_false_iff]
  intro hvalid
  obtain ⟨loan, hl, he⟩ := (leased_of_run h).valid lease _ hget hvalid
  exact hoff.2 loan hl he

end Runs

/-! ## The life of a holder -/

namespace World

/-- To the holder the connection is closed and has nothing left to commit, and
a call on it is refused at once and not made. -/
structure IsSpent (w : World) (lease : Nat) : Prop where
  valid : w.isValid lease = false
  physical : w.physical lease = .error .returned
  closed : w.isClosedFor lease = true
  autoCommit : w.isAutoCommitFor lease = true
  refused : ∀ t op call raw w', w.task? t.id = some t → t.stage = .start op →
    op.asks? = some (lease, call, raw) → w.act (.run t.id) = some w' →
      w' = (w.pick t.id).finish t.id (.failed .returned)

/-- The lease has ended for the pool, too: to forget the connection or to give
it back changes nothing but the mark on the holder. -/
structure IsOver (w : World) (lease : Nat) : Prop where
  offLoan : OffLoan lease w.scene
  forget : ∀ outside, w.act (.forget outside lease) = some w
  close : ∀ t w', w.BeginsClose t lease w' →
    w' = (w.pick t.id).finish t.id (.failed .returned) ∨
      w' = ((w.pick t.id).markClosed lease).finish t.id .done
  giveBack : ∀ t w', w.task? t.id = some t →
    t.stage = .giveBack (.starting lease) → w.act (.run t.id) = some w' →
      w' = (w.pick t.id).finish t.id .done

section Ends

variable {w : World} {lease : Nat}

theorem isSpent (hd : w.Distinct) (hv : w.isValid lease = false) :
    w.IsSpent lease := by
  have hphysical : w.physical lease = .error .returned := by
    unfold isValid at hv
    unfold physical
    cases hx : w.handles[lease]? with
    | none => rfl
    | some x =>
      rw [hx] at hv
      exact if_neg (Bool.eq_false_iff.1 hv)
  refine ⟨hv, hphysical, ?_, ?_, fun t op call raw w' ht hstage hop ha => ?_⟩
  · rw [isClosedFor, hphysical]
  · rw [isAutoCommitFor, hphysical]
  · obtain ⟨flow, v, hmove, -, hf⟩ := act_task hd ht ha
    rw [hstage] at hmove
    cases hmove with
    | ask hop' _ hheld =>
      cases hop.symm.trans hop'
      cases hphysical.symm.trans hheld
    | askLate => exact hf.eq_finish
    | plain _ hvalid =>
      cases hop
      cases hv.symm.trans hvalid
    | awaits hcall => cases hcall
    | _ => cases hop

theorem isOver (hd : w.Distinct) (hv : w.isValid lease = false)
    (hoff : OffLoan lease w.scene) : w.IsOver lease := by
  have hlt : lease < w.handles.length := hoff.1
  refine ⟨hoff, fun outside => ?_, fun t w' h => ?_, fun t w' ht hstage ha => ?_⟩
  · exact congrArg some (if_neg (Bool.eq_false_iff.1 hv))
  · have hget := List.getElem?_eq_getElem hlt
    obtain ⟨-, he⟩ | ⟨-, -, he⟩ | ⟨-, hvalid, -⟩ := h.cases hd hget
    · exact .inl he
    · exact .inr he
    · cases ((isValid_eq hget).symm.trans hv).symm.trans hvalid
  · obtain ⟨flow, v, hmove, -, hf⟩ := act_task hd ht ha
    rw [hstage] at hmove
    cases hmove with
    | tooLate => exact hf.eq_finish
    | turnAway htake | returnClean htake | returnUndo htake =>
      obtain ⟨he, rest, hperm, -⟩ := Pool.takeLoan?_eq_some htake
      exact absurd he (hoff.2 _ (hperm.subset List.mem_cons_self))
    | awaits hcall => cases hcall

end Ends

/-- The first close of a holder ends well if it ends and is not dropped. -/
theorem BeginsClose.stays {w w' : World} {t : Task} {lease : Nat} {x : Handle}
    (h : w.BeginsClose t lease w') (hd : w.Distinct)
    (hx : w.handles[lease]? = some x) (hopen : x.closed = false)
    (hnew : ∀ m o, (m, .ended t.id o) ∉ w.history) :
    Stays (fun s => ∃ g, s = .giveBack g) (· = .done) w' t.id := by
  refine stays_act hd h.act (hd.lt t (mem_of_task? h.task)) (absurd rfl)
    (fun m o hmem => absurd hmem (hnew m o)) fun u flow v hu hmove => ?_
  obtain rfl := Option.some.inj (h.task.symm.trans hu)
  rw [h.stage] at hmove
  cases hmove with
  | close =>
    refine ⟨fun s hs => ?_, (fun o ho => by cases ho)⟩
    cases hs
    exact ⟨_, rfl⟩
  | closeLate =>
    refine ⟨(fun s hs => by cases hs), fun o ho => ?_⟩
    cases ho
    rfl
  | closeAgain hclosed => cases hopen.symm.trans (hclosed x hx)
  | ask hop | askLate hop => cases hop
  | awaits hcall => cases hcall

end World

section Runs

variable {c : Config} {s : Server} {as later : List Action} {w v : World}

/-- A task that gives a connection back stays one. -/
theorem Run.stays_giveBack {id : Nat} (h : Run c s as w)
    (h' : Run c s (later ++ as) v)
    (hi : w.Stays (fun s => ∃ g, s = .giveBack g) (· = .done) id) :
    v.Stays (fun s => ∃ g, s = .giveBack g) (· = .done) id := by
  induction later generalizing v with
  | nil =>
    cases h.unique h'
    exact hi
  | cons a later ih =>
    cases h' with
    | @act _ _ u _ h' ha =>
      have hu := ih h'
      refine World.stays_act (World.distinct_of_run h') ha hu.lt
        (fun _ => hu.stage) hu.outcome fun t flow z ht hmove => ?_
      obtain rfl := World.id_of_task? ht
      obtain ⟨g, hg⟩ := hu.stage _ (List.mem_map_of_mem (World.mem_of_task? ht))
      exact (hg ▸ hmove).of_giveBack

/-- The life of a holder.  Once its lease has ended, the connection is gone
for it for good.  The first close that begins ends well if it ends and is not
dropped, and every other one is refused at once and changes nothing.  And once
the pool has taken the connection back, which it has when the lease has ended
without the holder, neither to give the connection back nor to forget it
changes anything from then on. -/
theorem life_of_run (h : Run c s as w) {lease : Nat}
    (hlease : lease < w.handles.length) :
    (w.isValid lease = false → ∀ later v, Run c s (later ++ as) v →
      v.IsSpent lease) ∧
    (∀ t w', w.BeginsClose t lease w' →
      (¬CloseBegun c s as lease → ∀ later v,
        Run c s (later ++ .run t.id :: as) v → ∀ m o,
          (m, .ended t.id o) ∈ v.history → o = .done ∨ o = .cancelled) ∧
      (CloseBegun c s as lease →
        w' = (w.pick t.id).finish t.id (.failed .returned))) ∧
    (w.isValid lease = false → ¬CloseBegun c s as lease →
      (∀ outside, .forget outside lease ∉ as) → OffLoan lease w.scene) ∧
    (OffLoan lease w.scene → ∀ later v, Run c s (later ++ as) v →
      v.IsOver lease) := by
  have hget := List.getElem?_eq_getElem hlease
  have hd := World.distinct_of_run h
  refine ⟨fun hv later v h' => ?_, fun t w' hbegins => ⟨?_, ?_⟩, ?_, ?_⟩
  · obtain ⟨y, hy, hbecomes⟩ := Run.handle h h' hget
    refine World.isSpent (World.distinct_of_run h') ?_
    rw [World.isValid_eq hget] at hv
    rw [World.isValid_eq hy, Bool.eq_false_iff]
    exact fun hvalid => Bool.eq_false_iff.1 hv (hbecomes.valid hvalid)
  · intro hfirst later v h' m o hmem
    have hopen := Bool.eq_false_iff.2 (hfirst ∘ (h.closed_iff hget).1)
    have hi := hbegins.stays hd hget hopen fun m o hmem =>
      (h.is_over hmem rfl).2 _
        (List.mem_map_of_mem (World.mem_of_task? hbegins.task)) rfl
    exact (Run.stays_giveBack (.act h hbegins.act) h' hi).outcome m o hmem
  · intro hbegun
    have hclosed := (h.closed_iff hget).2 hbegun
    obtain ⟨-, he⟩ | ⟨hopen, -⟩ | ⟨hopen, -⟩ := hbegins.cases hd hget
    · exact he
    · cases hopen.symm.trans hclosed
    · cases hopen.symm.trans hclosed
  · intro hv hfirst hkept
    rw [World.isValid_eq hget] at hv
    have hopen := Bool.eq_false_iff.2 (hfirst ∘ (h.closed_iff hget).1)
    exact h.taken_back hget hv hopen hkept
  · intro hoff later v h'
    have hoff' := Run.offLoan h h' hoff
    exact World.isOver (World.distinct_of_run h') (h'.not_valid hoff') hoff'

end Runs

/-- A connection is claimed and lent again, and its first holder is about to
give it back. -/
def closeAfterClaim : List Action :=
  [.start (.close 0) none, .run 1, .run 1, .run 1] ++ lentAndClaimed

/-- The first holder can do nothing any more, and its first close ends well
and changes nothing.  The second holder has the connection. -/
theorem life_closeAfterClaim :
    ∃ w t w', Run briefLoans {} closeAfterClaim w ∧
      w.handles.map (fun x => (x.conn, x.valid)) = [(0, false), (0, true)] ∧
      w.IsSpent 0 ∧ w.IsOver 0 ∧ w.BeginsClose t 0 w' ∧
      w' = ((w.pick t.id).markClosed 0).finish t.id .done ∧
      ∀ u w'', w'.BeginsClose u 0 w'' →
        w'' = (w'.pick u.id).finish u.id (.failed .returned) := by
  have hex : ∃ w, Run briefLoans {} closeAfterClaim w ∧
      w.handles.map (fun x => (x.conn, x.valid)) = [(0, false), (0, true)] ∧
      w.isValid 0 = false ∧ w.handles[0]?.map (·.closed) = some false ∧
      (w.task? 2).map (·.stage) = some (.start (.close 0)) ∧
      2 ∈ w.ready := Run.exists_of_replay rfl rfl (by decide +kernel)
  obtain ⟨w, h, hhandles, hvalid, hmark, htask, hready⟩ := hex
  obtain ⟨x, hx, hopen⟩ := Option.map_eq_some_iff.1 hmark
  obtain ⟨t, ht, hstage⟩ := Option.map_eq_some_iff.1 htask
  have hlease := (List.getElem?_eq_some_iff.1 hx).1
  have hid := World.id_of_task? ht
  obtain ⟨hspent, hclose, hback, hover⟩ := life_of_run h hlease
  have hfirst : ¬CloseBegun briefLoans {} closeAfterClaim 0 := fun hbegun => by
    cases hopen.symm.trans ((h.closed_iff hx).2 hbegun)
  have ha : w.act (.run t.id) = some ((w.pick t.id).run t.id) :=
    if_pos (hid ▸ hready)
  have hbegins : w.BeginsClose t 0 ((w.pick t.id).run t.id) :=
    ⟨hid ▸ ht, hstage, ha⟩
  have h' : Run briefLoans {} ([] ++ .run t.id :: closeAfterClaim) _ := .act h ha
  have hover : w.IsOver 0 :=
    hover (hback hvalid hfirst (by decide)) [] w h
  have hdone : (w.pick t.id).run t.id =
      ((w.pick t.id).markClosed 0).finish t.id .done := by
    refine (hover.close t _ hbegins).resolve_left fun he => ?_
    have hmem : (w.now, .ended t.id (.failed .returned)) ∈
        ((w.pick t.id).run t.id).history := he ▸ List.mem_cons_self
    obtain ho | ho := (hclose t _ hbegins).1 hfirst [] _ h' _ _ hmem
    all_goals cases ho
  obtain ⟨y, hy, -⟩ := hbegins.closed (World.distinct_of_run h) hx
  obtain ⟨-, hagain, -⟩ := life_of_run h' (List.getElem?_eq_some_iff.1 hy).1
  exact ⟨w, t, _, h, hhandles, hspent hvalid [] w h, hover, hbegins, hdone,
    fun u w'' hu => (hagain u w'' hu).2
      ⟨[], _, w, t, _, rfl, h, hlease, hbegins⟩⟩

end DatabasePool
