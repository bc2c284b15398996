import DatabasePool.Proofs.Happenings

/-!
# How entries move

A task takes an entry from where it is kept or lent into its hand, and from
there it is kept, lent or let go of.  Apart from that there is only the entry
of a connection that is new.  On its way an entry changes in what its record
says about the loan, and in nothing else.

* `Does.entries` says this for each thing that a task does.
* `Does.room` says where the record of a connection that is not yet open comes
  from.
-/

namespace DatabasePool

/-! ## Entries in hands -/

/-- The entry in the slot of a hand. -/
def Hand.entry? : Hand → Option Entry
  | entry e => some e
  | _ => none

theorem Stage.entry?_eq (s : Stage) : s.entry? = s.hand.entry? := by
  cases s with
  | acquire r a => cases a <;> rfl
  | giveBack r => cases r <;> rfl
  | _ => rfl

/-- Only a task that closes many connections is to begin to close some. -/
theorem Stage.todo_eq_nil {s : Stage}
    (h : ∀ conns, s.hand ≠ .closing false conns) : s.todo = [] := by
  cases s with
  | closing todo calls => exact absurd rfl (h _)
  | _ => rfl

theorem Flow.todo_eq_nil {f : Flow}
    (h : ∀ conns, f.hand ≠ .closing false conns) : f.todo = [] := by
  cases f with
  | finish o => rfl
  | _ => exact Stage.todo_eq_nil h

/-! ## Entries on the move -/

/-- The entries of the connections that are kept and of those that are lent. -/
def Scene.entries (V : Scene) : List Entry :=
  V.pool.idle ++ V.pool.active.map (·.entry)

/-- How often something is read off the entries. -/
theorem Scene.count_entries {α : Type} [DecidableEq α] (V : Scene)
    (f : Entry → α) (a : α) :
    (V.entries.map f).count a =
      (V.pool.idle.map f).count a + (V.pool.active.map (f ·.entry)).count a := by
  rw [entries, List.map_append, List.count_append, List.map_map]
  rfl

/-- The entry of a task that is dropped is not among these. -/
theorem Scene.entries_drop (V : Scene) (outside : Bool) (s : Stage) :
    (V.drop outside s).entries = V.entries := by
  simp only [entries, drop]
  split <;> rfl

/-- What `f` reads off an entry is not about its loan. -/
structure Lasting {α : Type} (f : Entry → α) : Prop where
  lend (e : Entry) (now : Nat) : f { e with record := e.record.lend now } = f e
  takeBack (e : Entry) : f { e with record := e.record.takeBack } = f e
  giveBack (e : Entry) (now : Nat) :
    f { e with record := e.record.giveBack now } = f e

/-- From one scene to the next the entries stay, but that some are gone and
some are fresh.  Those that are gone are closed, now or later, and those that
are fresh are of connections that the task has opened. -/
structure Turnover {α : Type} (f : Entry → α) (V V' : Scene) (s : Stage)
    (flow : Flow) (closes : List Nat) (gone fresh : List Entry) : Prop where
  entries : ((V'.entries ++ flow.hand.entry?.toList ++ gone).map f).Perm
    ((V.entries ++ s.hand.entry?.toList ++ fresh).map f)
  closes : (closes ++ flow.todo).Perm (gone.map (·.conn) ++ s.todo)
  total : List.range V'.total = List.range V.total ++ fresh.map (·.conn)
  opened : ∀ e ∈ fresh, ∃ options,
    s.dials? = some (e.record, .connect options) ∧
      (e.conn, options) ∈ V'.opened

/-- No connection is opened. -/
theorem Turnover.of_gone {α : Type} [DecidableEq α] {f : Entry → α}
    {V V' : Scene} {s : Stage} {flow : Flow} {closes : List Nat}
    (gone : List Entry) (htotal : V'.total = V.total)
    (hcloses : (closes ++ flow.todo).Perm (gone.map (·.conn) ++ s.todo))
    (hentries : ∀ a, (V'.pool.idle.map f).count a +
          (V'.pool.active.map (f ·.entry)).count a +
          (flow.hand.entry?.toList.map f).count a + (gone.map f).count a =
        (V.pool.idle.map f).count a + (V.pool.active.map (f ·.entry)).count a +
          (s.hand.entry?.toList.map f).count a) :
    ∃ gone fresh, Turnover f V V' s flow closes gone fresh := by
  refine ⟨gone, [], List.perm_iff_count.2 fun a => ?_, hcloses, ?_,
    fun _ he => by cases he⟩
  · simp only [List.map_append, List.count_append, Scene.count_entries,
      hentries, List.map_nil, List.count_nil, Nat.add_zero]
  · rw [htotal, List.map_nil, List.append_nil]

/-- A task moves entries from place to place. -/
theorem Does.entries {α : Type} [DecidableEq α] {f : Entry → α}
    (hf : Lasting f) {c : Config} {V V' : Scene} {s : Stage} {flow : Flow}
    {closes : List Nat} (h : Does c V s flow closes V') :
    ∃ gone fresh, Turnover f V V' s flow closes gone fresh := by
  have hactive : ∀ {loan : Loan} {rest : List Loan},
      (loan :: rest).Perm V.pool.active → ∀ a,
      (V.pool.active.map (f ·.entry)).count a =
        (rest.map (f ·.entry)).count a + [f loan.entry].count a := by
    intro loan rest hperm a
    rw [← (hperm.map (f ·.entry)).count_eq a]
    simp only [List.map_cons, List.count_cons, List.count_nil, Nat.zero_add]
  cases h with
  | stay hhand htodo =>
    refine Turnover.of_gone [] rfl ?_ fun a => by rw [hhand]; rfl
    rw [htodo.1, htodo.2]
    exact .refl _
  | closePhysical | mark | callIn | dial | makeRoom | wait | tooLate =>
    exact Turnover.of_gone [] rfl (.refl _) fun _ => rfl
  | @take q e rest hup hidle =>
    refine Turnover.of_gone [] rfl (.refl _) fun a => ?_
    show (rest.map f).count a + (V.pool.active.map (f ·.entry)).count a +
      [f e].count a + 0 = _ + 0
    simp only [hidle, List.map_cons, List.count_cons, List.count_nil]
    omega
  | @claim q loan rest hup hidle hfull hperm =>
    refine Turnover.of_gone [] rfl (.refl _) fun a => ?_
    have hloan := hactive hperm a
    show (V.pool.idle.map f).count a + (rest.map (f ·.entry)).count a +
      [f _].count a + 0 = _ + 0
    rw [hf.takeBack]
    omega
  | @connect q r failures call limit options hcall =>
    have hdials : Stage.dials? (.acquire q (.connecting r failures call limit)) =
        some (r, .connect options) := by
      simp only [Stage.dials?, hcall]
    refine ⟨[], [⟨V.total, r⟩], ?_, .refl _, List.range_succ, ?_⟩
    · show ((V.entries ++ [_] ++ []).map f).Perm
        ((V.entries ++ [] ++ [_]).map f)
      rw [List.append_nil, List.append_nil]
    · intro e he
      obtain rfl := List.mem_singleton.1 he
      exact ⟨options, hdials, List.mem_cons_self⟩
  | giveUp hroom =>
    refine Turnover.of_gone [] rfl ?_ fun a => by rw [hroom]; rfl
    rw [Stage.todo_eq_nil (s := s) (by simp [hroom])]
    exact .refl _
  | @lend q e hcurrent =>
    refine Turnover.of_gone [] rfl (.refl _) fun a => ?_
    show (V.pool.idle.map f).count a + (List.map (fun l : Loan => f l.entry)
      (V.pool.active ++ [(⟨{ e with record := e.record.lend V.now }, _⟩ : Loan)])
        ).count a + 0 + 0 = _ + [f e].count a
    simp only [List.map_append, List.count_append, List.map_cons, List.map_nil,
      hf.lend]
    omega
  | @discard s flow e hentry hclosing =>
    refine Turnover.of_gone [e] rfl ?_ fun a => by rw [hentry, hclosing]; rfl
    rw [Stage.todo_eq_nil (s := s) (by simp [hentry]),
      Flow.todo_eq_nil (f := flow) (by simp [hclosing])]
    exact .refl _
  | @free s flow conns hclosing hnothing =>
    refine Turnover.of_gone [] rfl ?_ fun a => by rw [hclosing, hnothing]; rfl
    rw [Stage.todo_eq_nil (s := s) (by simp [hclosing]),
      Flow.todo_eq_nil (f := flow) (by simp [hnothing])]
    exact .refl _
  | @giveBack flow loan rest hperm hentry =>
    refine Turnover.of_gone [] rfl ?_ fun a => ?_
    · rw [Flow.todo_eq_nil (f := flow) (by simp [hentry])]
      exact .refl _
    · have hloan := hactive hperm a
      rw [hentry]
      show (V.pool.idle.map f).count a + (rest.map (f ·.entry)).count a +
        [f _].count a + 0 = _ + 0
      rw [hf.giveBack]
      omega
  | @turnAway flow loan rest hperm hclosing =>
    refine Turnover.of_gone [loan.entry] rfl ?_ fun a => ?_
    · rw [Flow.todo_eq_nil (f := flow) (by simp [hclosing])]
      exact .refl _
    · have hloan := hactive hperm a
      rw [hclosing]
      show (V.pool.idle.map f).count a + (rest.map (f ·.entry)).count a + 0 +
        [f _].count a = _ + 0
      omega
  | @store e hroom hcurrent =>
    refine Turnover.of_gone [] rfl (.refl _) fun a => ?_
    show ((e :: V.pool.idle).map f).count a +
      (V.pool.active.map (f ·.entry)).count a + 0 + 0 = _ + [f e].count a
    rw [List.map_cons, List.count_cons, List.count_singleton]
    omega
  | invalidate | setOptions _ =>
    refine Turnover.of_gone V.pool.idle.reverse rfl
      (.of_eq (List.append_nil _).symm) fun a => ?_
    show 0 + (V.pool.active.map (f ·.entry)).count a + 0 +
      (V.pool.idle.reverse.map f).count a = _ + 0
    rw [List.map_reverse, List.count_reverse]
    omega
  | shutDown hup =>
    refine Turnover.of_gone (V.pool.idle.reverse ++ V.pool.active.map (·.entry))
      rfl (.of_eq ?_) fun a => ?_
    · show _ ++ _ = _ ++ []
      rw [List.append_nil, List.map_append, List.map_map]
      rfl
    · have hmap : (V.pool.active.map (·.entry)).map f =
          V.pool.active.map (f ·.entry) := List.map_map ..
      show 0 + 0 + 0 + _ = _ + 0
      rw [List.map_append, List.map_reverse, hmap, List.count_append,
        List.count_reverse]
      omega
  | @close todo calls flow hflow =>
    have hperm : (todo.reverse ++ []).Perm todo := by
      rw [List.append_nil]
      exact List.reverse_perm todo
    obtain rfl | ⟨calls', rfl⟩ := hflow <;>
      exact Turnover.of_gone [] rfl hperm fun _ => rfl

/-- The record of a connection that is not yet open was there before, or it is
the next one. -/
theorem Does.room {c : Config} {V V' : Scene} {s : Stage} {flow : Flow}
    {closes : List Nat} (h : Does c V s flow closes V') {r : Record String}
    (hr : flow.hand = .room r) :
    s.hand = .room r ∨
      r = .fresh (V.pool.lastId + 1) V.pool.options V.pool.generation V.now ∧
        V'.pool.lastId = V.pool.lastId + 1 := by
  cases h with
  | stay hhand => exact .inl (hhand.symm.trans hr)
  | dial => exact .inl hr
  | makeRoom =>
    cases hr
    exact .inr ⟨rfl, rfl⟩
  | discard _ h' | turnAway _ h' | free _ h' | giveBack _ h' =>
    cases h'.symm.trans hr
  | close hflow => obtain rfl | ⟨calls, rfl⟩ := hflow <;> cases hr
  | _ => cases hr

end DatabasePool
