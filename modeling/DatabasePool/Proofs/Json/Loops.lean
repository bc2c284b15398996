import DatabasePool.Proofs.Json.Numeral
import DatabasePool.Proofs.Json.Quoted

/-!
# Arrays and objects, read item by item

The two loops of a reader leave to their caller what is done with an item or a
member.  If the caller's reader makes a step for every value that is spelled,
then the loop makes these steps one after the other; if it goes well for
spelled values only, then so does the loop.

* `itemLoop_append` and `memberLoop_append` are about what is spelled.
* `items_of_itemLoop` and `members_of_memberLoop` are about what is read.
-/

namespace DatabasePool.Json

/-! ## Blanks -/

theorem skipBlank_append {bs : List Char} (hb : AllBlank bs)
    (cs : List Char) : skipBlank (bs ++ cs) = skipBlank cs :=
  List.dropWhile_append_of_pos hb

theorem skipBlank_cons {c : Char} (hc : isBlank c = false) (cs : List Char) :
    skipBlank (c :: cs) = c :: cs :=
  List.dropWhile_cons_of_neg (by simp [hc])

theorem skipBlank_lead {c : Char} {bs cs : List Char} (hb : AllBlank bs)
    (hc : isBlank c = false) : skipBlank (bs ++ c :: cs) = c :: cs := by
  rw [skipBlank_append hb, skipBlank_cons hc]

theorem skipBlank_eq_nil {bs : List Char} (hb : AllBlank bs) :
    skipBlank bs = [] :=
  List.dropWhile_eq_nil_iff.2 hb

/-- What is skipped is blank. -/
theorem exists_blank (cs : List Char) :
    ∃ bs, AllBlank bs ∧ cs = bs ++ skipBlank cs :=
  ⟨cs.takeWhile isBlank, fun _ hc => List.mem_takeWhile_imp hc,
    List.takeWhile_append_dropWhile.symm⟩

theorem AllBlank.append {bs bs' : List Char} (hb : AllBlank bs)
    (hb' : AllBlank bs') : AllBlank (bs ++ bs') := by
  intro c hc
  exact (List.mem_append.1 hc).elim (hb c) (hb' c)

/-- More blanks may follow. -/
theorem Lead.append {first : Bool} {lead bs : List Char}
    (h : Lead first lead) (hb : AllBlank bs) : Lead first (lead ++ bs) := by
  cases h with
  | first hb' => exact .first (hb'.append hb)
  | next hb' hb'' =>
    rw [List.append_assoc, List.cons_append]
    exact .next hb' (hb''.append hb)

/-! ## What comes before an item or a member -/

section
variable {first : Bool} {lead bs cs rest : List Char}

theorem nextItem_close (hb : AllBlank bs) :
    nextItem first (bs ++ ']' :: cs) = .ok (false, cs) := by
  rw [nextItem, skipBlank_lead hb (by decide)]
  rfl

theorem nextItem_lead {c : Char} (h : Lead first lead) (hc : Begins c) :
    nextItem first (lead ++ c :: cs) = .ok (true, c :: cs) := by
  obtain ⟨hc, hne⟩ := hc
  cases h with
  | first hb =>
    rw [nextItem, skipBlank_lead hb hc]
    split
    · rename_i heq
      cases heq
    · rename_i heq
      cases heq
      exact absurd rfl hne
    · rename_i heq
      cases heq
      rfl
  | @next bs bs' hb hb' =>
    rw [nextItem, List.append_assoc, List.cons_append,
      skipBlank_lead hb (by decide)]
    split
    · rename_i heq
      cases heq
    · rename_i heq
      simp at heq
    · rename_i heq
      cases heq
      rw [if_neg Bool.false_ne_true, if_pos rfl, skipBlank_lead hb' hc]
      split
      · rename_i heq
        cases heq
      · rename_i heq
        cases heq
        exact absurd rfl hne
      · rfl

theorem close_of_nextItem (h : nextItem first cs = .ok (false, rest)) :
    ∃ bs, AllBlank bs ∧ cs = bs ++ ']' :: rest := by
  obtain ⟨bs, hb, hcs⟩ := exists_blank cs
  unfold nextItem at h
  split at h
  · cases h
  · rename_i heq
    cases h
    exact ⟨bs, hb, heq ▸ hcs⟩
  · split at h
    · cases h
    · split at h
      · split at h <;> cases h
      · cases h

theorem lead_of_nextItem (h : nextItem first cs = .ok (true, rest)) :
    ∃ lead, Lead first lead ∧ cs = lead ++ rest := by
  obtain ⟨bs, hb, hcs⟩ := exists_blank cs
  unfold nextItem at h
  split at h
  · cases h
  · cases h
  · rename_i c cs' _ heq
    split at h
    · rename_i hfirst
      cases h
      exact ⟨bs, hfirst ▸ .first hb, heq ▸ hcs⟩
    · rename_i hfirst
      obtain ⟨bs', hb', hcs'⟩ := exists_blank cs'
      split at h
      · rename_i hc
        split at h
        · cases h
        · cases h
        · cases h
          refine ⟨bs ++ ',' :: bs', ?_, ?_⟩
          · rw [Bool.eq_false_iff.2 hfirst]
            exact .next hb hb'
          · rw [hcs, heq, hc, List.append_assoc, List.cons_append, ← hcs']
      · cases h

theorem nextMember_close (hb : AllBlank bs) :
    nextMember first (bs ++ '}' :: cs) = .ok (false, cs) := by
  rw [nextMember, skipBlank_lead hb (by decide)]
  rfl

theorem nextMember_lead (h : Lead first lead) :
    nextMember first (lead ++ '"' :: cs) = .ok (true, cs) := by
  cases h with
  | first hb =>
    rw [nextMember, skipBlank_lead hb (by decide)]
    rfl
  | @next bs bs' hb hb' =>
    rw [nextMember, List.append_assoc, List.cons_append,
      skipBlank_lead hb (by decide)]
    simp [skipBlank_lead hb' (by decide : isBlank '"' = false)]

theorem close_of_nextMember (h : nextMember first cs = .ok (false, rest)) :
    ∃ bs, AllBlank bs ∧ cs = bs ++ '}' :: rest := by
  obtain ⟨bs, hb, hcs⟩ := exists_blank cs
  unfold nextMember at h
  split at h
  · cases h
  · rename_i heq
    cases h
    exact ⟨bs, hb, heq ▸ hcs⟩
  · split at h <;> cases h
  · split at h
    · split at h <;> cases h
    · cases h

theorem lead_of_nextMember (h : nextMember first cs = .ok (true, rest)) :
    ∃ lead, Lead first lead ∧ cs = lead ++ '"' :: rest := by
  obtain ⟨bs, hb, hcs⟩ := exists_blank cs
  unfold nextMember at h
  split at h
  · cases h
  · cases h
  · rename_i heq
    split at h
    · rename_i hfirst
      cases h
      exact ⟨bs, hfirst ▸ .first hb, heq ▸ hcs⟩
    · cases h
  · rename_i c cs' _ _ heq
    split at h
    · rename_i hnext
      simp only [Bool.and_eq_true, decide_eq_true_eq,
        Bool.not_eq_eq_eq_not, Bool.not_true] at hnext
      obtain ⟨rfl, rfl⟩ := hnext
      obtain ⟨bs', hb', hcs'⟩ := exists_blank cs'
      split at h
      · cases h
      · rename_i heq'
        cases h
        refine ⟨bs ++ ',' :: bs', .next hb hb', ?_⟩
        rw [hcs, heq, List.append_assoc, List.cons_append, ← heq', ← hcs']
      · cases h
    · cases h

theorem colon_append (hb : AllBlank bs) (cs : List Char) :
    colon (bs ++ ':' :: cs) = .ok cs := by
  rw [colon, skipBlank_lead hb (by decide)]
  rfl

theorem blank_of_colon (h : colon cs = .ok rest) :
    ∃ bs, AllBlank bs ∧ cs = bs ++ ':' :: rest := by
  obtain ⟨bs, hb, hcs⟩ := exists_blank cs
  unfold colon at h
  split at h
  · cases h
  · rename_i heq
    cases h
    exact ⟨bs, hb, heq ▸ hcs⟩
  · cases h

end

/-! ## What comes behind an item or a member -/

theorem Lead.apart {lead : List Char} (h : Lead false lead)
    (cs : List Char) : Apart (lead ++ cs) := by
  cases h with
  | @next bs bs' hb hb' =>
    rw [List.append_assoc]
    refine Apart.blank hb fun c hc => ?_
    cases hc
    exact .inr (.inl rfl)

section
variable {R : Json → List Char → Prop} {text : List Char}

theorem Items.apart {vs : List Json} (h : Items R false vs text)
    (rest : List Char) : Apart (text ++ rest) := by
  cases h with
  | close hb =>
    rw [List.append_assoc]
    refine Apart.blank hb fun c hc => ?_
    cases hc
    exact .inr (.inr (.inl rfl))
  | item hlead =>
    rw [List.append_assoc]
    exact hlead.apart _

theorem Members.apart {ms : List (String × Json)}
    (h : Members R false ms text) (rest : List Char) :
    Apart (text ++ rest) := by
  cases h with
  | close hb =>
    rw [List.append_assoc]
    refine Apart.blank hb fun c hc => ?_
    cases hc
    exact .inr (.inr (.inr rfl))
  | member hlead =>
    rw [List.append_assoc]
    exact hlead.apart _

end

/-! ## The loops over what is spelled -/

section
variable {σ ν : Type} {R : Json → List Char → Prop}

/-- A loop over the items of an array makes a step for each of them. -/
theorem itemLoop_append (item : σ → Scan σ)
    (step : σ → Json → Except Fault σ)
    (hbegins : ∀ {v : Json} {text : List Char}, R v text →
      ∃ c cs, text = c :: cs ∧ Begins c)
    (hitem : ∀ {v : Json} {text rest : List Char} (state : σ), R v text →
      Apart rest → item state (text ++ rest) = (step state v).map (·, rest))
    {first : Bool} {vs : List Json} {text : List Char}
    (h : Items R first vs text) {n : Nat} (hn : text.length < n) (state : σ)
    (rest : List Char) :
    itemLoop item n first state (text ++ rest) =
      (vs.foldlM step state).map (·, rest) := by
  induction h generalizing n state with
  | close hb =>
    obtain ⟨n, rfl⟩ := Nat.exists_eq_add_one_of_ne_zero (Nat.ne_of_gt
      (Nat.lt_of_le_of_lt (Nat.zero_le _) hn))
    rw [itemLoop, List.append_assoc, List.cons_append, nextItem_close hb]
    rfl
  | @item first v vs lead text tail hlead hv hvs ih =>
    obtain ⟨n, rfl⟩ := Nat.exists_eq_add_one_of_ne_zero (Nat.ne_of_gt
      (Nat.lt_of_le_of_lt (Nat.zero_le _) hn))
    obtain ⟨c, cs, htext, hc⟩ := hbegins hv
    have htail : tail.length < n := by
      simp only [htext, List.length_append, List.length_cons] at hn
      omega
    have hnext : nextItem first (lead ++ (text ++ (tail ++ rest))) =
        .ok (true, text ++ (tail ++ rest)) := by
      rw [htext]
      exact nextItem_lead hlead hc
    rw [itemLoop, List.append_assoc, List.append_assoc, hnext]
    dsimp only
    rw [hitem state hv (hvs.apart rest), List.foldlM_cons]
    cases step state v with
    | error => rfl
    | ok state => exact ih htail state

/-- A loop over the members of an object makes a step for each of them. -/
theorem memberLoop_append (name : Scan ν) (label : String → ν)
    (member : σ → ν → Scan σ) (step : σ → String × Json → Except Fault σ)
    (hname : ∀ {s : String} {inner : List Char}, SpellsChars s.toList inner →
      ∀ rest, name (inner ++ '"' :: rest) = .ok (label s, rest))
    (hmember : ∀ {s : String} {v : Json} {bs bs' text rest : List Char}
      (state : σ), AllBlank bs → AllBlank bs' → R v text → Apart rest →
      member state (label s) (bs ++ ':' :: (bs' ++ (text ++ rest))) =
        (step state (s, v)).map (·, rest))
    {first : Bool} {ms : List (String × Json)} {text : List Char}
    (h : Members R first ms text) {n : Nat} (hn : text.length < n) (state : σ)
    (rest : List Char) :
    memberLoop name member n first state (text ++ rest) =
      (ms.foldlM step state).map (·, rest) := by
  induction h generalizing n state with
  | close hb =>
    obtain ⟨n, rfl⟩ := Nat.exists_eq_add_one_of_ne_zero (Nat.ne_of_gt
      (Nat.lt_of_le_of_lt (Nat.zero_le _) hn))
    rw [memberLoop, List.append_assoc, List.cons_append, nextMember_close hb]
    rfl
  | @member first s v ms lead inner bs bs' text tail hlead hs hb hb' hv hms
      ih =>
    obtain ⟨n, rfl⟩ := Nat.exists_eq_add_one_of_ne_zero (Nat.ne_of_gt
      (Nat.lt_of_le_of_lt (Nat.zero_le _) hn))
    have htail : tail.length < n := by
      simp only [List.length_append, List.length_cons] at hn
      omega
    rw [memberLoop]
    simp only [List.append_assoc, List.cons_append]
    rw [nextMember_lead hlead]
    dsimp only
    rw [hname hs]
    dsimp only
    rw [hmember state hb hb' hv (hms.apart rest), List.foldlM_cons]
    cases step state (s, v) with
    | error => rfl
    | ok state => exact ih htail state

theorem items_append (item : σ → Scan σ) (step : σ → Json → Except Fault σ)
    (hbegins : ∀ {v : Json} {text : List Char}, R v text →
      ∃ c cs, text = c :: cs ∧ Begins c)
    (hitem : ∀ {v : Json} {text rest : List Char} (state : σ), R v text →
      Apart rest → item state (text ++ rest) = (step state v).map (·, rest))
    {vs : List Json} {text : List Char} (h : Items R true vs text) (state : σ)
    (rest : List Char) :
    items item state (text ++ rest) =
      (vs.foldlM step state).map (·, rest) :=
  itemLoop_append item step hbegins hitem h
    (by rw [List.length_append]; omega) state rest

theorem members_append (name : Scan ν) (label : String → ν)
    (member : σ → ν → Scan σ) (step : σ → String × Json → Except Fault σ)
    (hname : ∀ {s : String} {inner : List Char}, SpellsChars s.toList inner →
      ∀ rest, name (inner ++ '"' :: rest) = .ok (label s, rest))
    (hmember : ∀ {s : String} {v : Json} {bs bs' text rest : List Char}
      (state : σ), AllBlank bs → AllBlank bs' → R v text → Apart rest →
      member state (label s) (bs ++ ':' :: (bs' ++ (text ++ rest))) =
        (step state (s, v)).map (·, rest))
    {ms : List (String × Json)} {text : List Char}
    (h : Members R true ms text) (state : σ) (rest : List Char) :
    members name member state (text ++ rest) =
      (ms.foldlM step state).map (·, rest) :=
  memberLoop_append name label member step hname hmember h
    (by rw [List.length_append]; omega) state rest

/-! ## The loops over what is read -/

/-- A loop that went well has gone over the items of an array, and it made a
step for each of them. -/
theorem items_of_itemLoop (item : σ → Scan σ)
    (step : σ → Json → Except Fault σ)
    (hitem : ∀ {state state' : σ} {cs rest : List Char},
      item state cs = .ok (state', rest) → ∃ v bs text, AllBlank bs ∧
        R v text ∧ cs = bs ++ (text ++ rest) ∧ step state v = .ok state')
    {n : Nat} {first : Bool} {state state' : σ} {cs rest : List Char}
    (h : itemLoop item n first state cs = .ok (state', rest)) :
    ∃ vs text, Items R first vs text ∧ cs = text ++ rest ∧
      vs.foldlM step state = .ok state' := by
  induction n generalizing first state cs with
  | zero => cases h
  | succ n ih =>
    rw [itemLoop] at h
    split at h
    · cases h
    · rename_i hnext
      cases h
      obtain ⟨bs, hb, rfl⟩ := close_of_nextItem hnext
      exact ⟨[], bs ++ [']'], .close hb, by simp, rfl⟩
    · rename_i hnext
      obtain ⟨lead, hlead, rfl⟩ := lead_of_nextItem hnext
      split at h
      · cases h
      · rename_i hread
        obtain ⟨v, bs, text, hb, hv, rfl, hstep⟩ := hitem hread
        obtain ⟨vs, tail, hvs, rfl, hfold⟩ := ih h
        refine ⟨v :: vs, (lead ++ bs) ++ (text ++ tail),
          .item (hlead.append hb) hv hvs, by simp, ?_⟩
        rw [List.foldlM_cons, hstep]
        exact hfold

/-- A loop that went well has gone over the members of an object, and it made
a step for each of them. -/
theorem members_of_memberLoop (member : σ → String → Scan σ)
    (step : σ → String × Json → Except Fault σ)
    (hmember : ∀ {state state' : σ} {s : String} {cs rest : List Char},
      member state s cs = .ok (state', rest) → ∃ v bs bs' text, AllBlank bs ∧
        AllBlank bs' ∧ R v text ∧ cs = bs ++ ':' :: (bs' ++ (text ++ rest)) ∧
        step state (s, v) = .ok state')
    {n : Nat} {first : Bool} {state state' : σ} {cs rest : List Char}
    (h : memberLoop readQuoted member n first state cs =
      .ok (state', rest)) :
    ∃ ms text, Members R first ms text ∧ cs = text ++ rest ∧
      ms.foldlM step state = .ok state' := by
  induction n generalizing first state cs with
  | zero => cases h
  | succ n ih =>
    rw [memberLoop] at h
    split at h
    · cases h
    · rename_i hnext
      cases h
      obtain ⟨bs, hb, rfl⟩ := close_of_nextMember hnext
      exact ⟨[], bs ++ ['}'], .close hb, by simp, rfl⟩
    · rename_i hnext
      obtain ⟨lead, hlead, rfl⟩ := lead_of_nextMember hnext
      split at h
      · cases h
      · rename_i hname
        obtain ⟨inner, hs, rfl⟩ := spells_of_readQuoted hname
        split at h
        · cases h
        · rename_i hread
          obtain ⟨v, bs, bs', text, hb, hb', hv, rfl, hstep⟩ := hmember hread
          obtain ⟨ms, tail, hms, rfl, hfold⟩ := ih h
          refine ⟨_ :: ms, _, .member hlead hs hb hb' hv hms, by simp, ?_⟩
          rw [List.foldlM_cons, hstep]
          exact hfold

/-- What every member keeps, the loop keeps. -/
theorem memberLoop_preserves (P : σ → Prop) {name : Scan ν}
    {member : σ → ν → Scan σ}
    (hmember : ∀ {state state' : σ} {key : ν} {cs rest : List Char},
      P state → member state key cs = .ok (state', rest) → P state')
    {n : Nat} {first : Bool} {state state' : σ} {cs rest : List Char}
    (hstate : P state)
    (h : memberLoop name member n first state cs = .ok (state', rest)) :
    P state' := by
  induction n generalizing first state cs with
  | zero => cases h
  | succ n ih =>
    rw [memberLoop] at h
    split at h
    · cases h
    · cases h
      exact hstate
    · split at h
      · cases h
      · split at h
        · cases h
        · rename_i hread
          exact ih (hmember hstate hread) h

end

end DatabasePool.Json
