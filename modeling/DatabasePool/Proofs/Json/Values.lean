import DatabasePool.Proofs.Json.Loops

/-!
# Values, read and passed over

* `readValue_append` and `spells_of_readValue` say that strict reading goes
  well for what is spelled within the limits, and for nothing else.
* `skipValue_append` says that such a value is also passed over.
* `parse_eq_ok_iff` says the same of whole documents.
-/

namespace DatabasePool.Json

/-! ## Values without parts -/

theorem literal_append {α : Type} (a : α) (es rest : List Char) :
    literal a es (es ++ rest) = .ok (a, rest) := by
  induction es with
  | nil => rfl
  | cons e es ih =>
    rw [List.cons_append, literal, if_pos rfl]
    exact ih

theorem eq_of_literal {α : Type} {a b : α} {es cs rest : List Char}
    (h : literal a es cs = .ok (b, rest)) : b = a ∧ cs = es ++ rest := by
  induction es generalizing cs with
  | nil =>
    cases h
    exact ⟨rfl, rfl⟩
  | cons e es ih =>
    cases cs with
    | nil => cases h
    | cons c cs =>
      rw [literal] at h
      split at h
      · rename_i hc
        obtain ⟨hb, rfl⟩ := ih h
        exact ⟨hb, by rw [hc, List.cons_append]⟩
      · cases h

/-- A number does not begin like a word or a string. -/
theorem no_word {c : Char} (hc : c = '-' ∨ c.isDigit = true) :
    c ≠ 'n' ∧ c ≠ 't' ∧ c ≠ 'f' ∧ c ≠ '"' := by
  refine ⟨?_, ?_, ?_, ?_⟩
  all_goals
    rintro rfl
    revert hc
    decide

section
variable {c : Char} {cs rest : List Char} {v : Json}

theorem scalarFrom_append (h : SpellsScalar v (c :: cs))
    (hrest : Apart rest) : scalarFrom c (cs ++ rest) = .ok (v, rest) := by
  cases h with
  | null => exact literal_append _ _ _
  | true => exact literal_append _ _ _
  | false => exact literal_append _ _ _
  | @number n _ hn hfinite =>
    obtain ⟨c', cs', heq, hc⟩ := hn.begins
    obtain ⟨rfl, rfl⟩ := List.cons.inj heq
    have hread := readNumeral_append hn hfinite hrest
    rw [List.cons_append] at hread
    have hmark : (c = '-' || c.isDigit) = Bool.true := by simpa using hc
    obtain ⟨hn', ht', hf', hq'⟩ := no_word hc
    rw [scalarFrom, if_neg hn', if_neg ht', if_neg hf', if_neg hq',
      if_pos hmark, hread]
    rfl
  | @string s inner hs =>
    show (readQuoted ((inner ++ ['"']) ++ rest)).map _ = _
    rw [List.append_assoc, List.singleton_append, readQuoted_append hs]
    rfl

theorem spells_of_scalarFrom (h : scalarFrom c cs = .ok (v, rest)) :
    ∃ text, SpellsScalar v (c :: text) ∧ cs = text ++ rest := by
  unfold scalarFrom at h
  split at h
  · rename_i hc
    obtain ⟨rfl, rfl⟩ := eq_of_literal h
    exact ⟨_, hc ▸ .null, rfl⟩
  · split at h
    · rename_i hc
      obtain ⟨rfl, rfl⟩ := eq_of_literal h
      exact ⟨_, hc ▸ .true, rfl⟩
    · split at h
      · rename_i hc
        obtain ⟨rfl, rfl⟩ := eq_of_literal h
        exact ⟨_, hc ▸ .false, rfl⟩
      · split at h
        · rename_i hc
          obtain ⟨⟨s, rest'⟩, hread, heq⟩ := map_eq_ok h
          cases heq
          obtain ⟨inner, hs, rfl⟩ := spells_of_readQuoted hread
          exact ⟨inner ++ ['"'], hc ▸ .string hs, by simp⟩
        · split at h
          · obtain ⟨⟨n, rest'⟩, hread, heq⟩ := map_eq_ok h
            cases heq
            obtain ⟨text, hn, hcs⟩ := spells_of_readNumeral hread
            obtain ⟨c', text, rfl, -⟩ := hn.begins
            obtain ⟨rfl, rfl⟩ := List.cons.inj hcs
            exact ⟨text, hn, rfl⟩
          · cases h

theorem skipScalarFrom_append (h : SpellsScalar v (c :: cs))
    (hrest : Apart rest) :
    skipScalarFrom c (cs ++ rest) = .ok ((), rest) := by
  cases h with
  | null => exact literal_append _ _ _
  | true => exact literal_append _ _ _
  | false => exact literal_append _ _ _
  | @number n _ hn hfinite =>
    obtain ⟨c', cs', heq, hc⟩ := hn.begins
    obtain ⟨rfl, rfl⟩ := List.cons.inj heq
    have hskip := skipNumeral_append hn hrest
    rw [List.cons_append] at hskip
    have hmark : (c = '-' || c.isDigit) = Bool.true := by simpa using hc
    obtain ⟨hn', ht', hf', hq'⟩ := no_word hc
    rw [skipScalarFrom, if_neg hn', if_neg ht', if_neg hf', if_neg hq',
      if_pos hmark, hskip]
  | @string s inner hs =>
    show skipQuoted ((inner ++ ['"']) ++ rest) = _
    rw [List.append_assoc, List.singleton_append, skipQuoted_append hs]

/-- A value without parts begins neither with a blank nor with a bracket. -/
theorem SpellsScalar.first (h : SpellsScalar v (c :: cs)) :
    isBlank c = Bool.false ∧ c ≠ '[' ∧ c ≠ '{' := by
  cases h with
  | null | true | false | string => exact ⟨by decide, by decide, by decide⟩
  | number hn =>
    obtain ⟨c', cs', heq, hc⟩ := hn.begins
    obtain ⟨rfl, rfl⟩ := List.cons.inj heq
    refine ⟨?_, ?_, ?_⟩
    · rcases hc with rfl | hc
      · decide
      · exact (begins_digit hc).1
    all_goals
      rintro rfl
      revert hc
      decide

end

/-! ## Strict reading -/

section
variable {c : Char} {bs cs text rest : List Char} {v : Json}

theorem readValue_blank (hb : AllBlank bs) (depth : Nat) (cs : List Char) :
    readValue depth (bs ++ cs) = readValue depth cs := by
  unfold readValue
  rw [skipBlank_append hb]

theorem readValue_scalar (hc : isBlank c = false ∧ c ≠ '[' ∧ c ≠ '{')
    (depth : Nat) (cs : List Char) :
    readValue depth (c :: cs) = scalarFrom c cs := by
  unfold readValue
  rw [skipBlank_cons hc.1]
  split
  · rename_i heq
    cases heq
  · rename_i heq
    exact absurd (List.cons.inj heq).1 hc.2.1
  · rename_i heq
    exact absurd (List.cons.inj heq).1 hc.2.2
  · rename_i heq
    cases heq
    rfl

/-- Pushing what is read onto what was read before goes well. -/
theorem foldlM_push {α : Type} (vs done : List α) :
    vs.foldlM (fun done v => (.ok (v :: done) : Except Fault (List α))) done =
      .ok (vs.reverse ++ done) := by
  induction vs generalizing done with
  | nil => rfl
  | cons v vs ih =>
    rw [List.foldlM_cons]
    show vs.foldlM _ (v :: done) = _
    rw [ih, List.reverse_cons, List.append_assoc, List.singleton_append]

/-- A value within the limits is read. -/
theorem readValue_append {depth : Nat} (h : Spells depth v text)
    (hrest : Apart rest) : readValue depth (text ++ rest) = .ok (v, rest) := by
  induction depth generalizing v text rest with
  | zero =>
    obtain ⟨c, cs, rfl, -⟩ := SpellsScalar.begins h
    rw [List.cons_append, readValue_scalar (SpellsScalar.first h)]
    exact scalarFrom_append h hrest
  | succ depth ih =>
    cases h with
    | scalar hv =>
      obtain ⟨c, cs, rfl, -⟩ := hv.begins
      rw [List.cons_append, readValue_scalar hv.first]
      exact scalarFrom_append hv hrest
    | @array vs text hvs =>
      have hread := items_append
        (fun done cs => (readValue depth cs).map fun x => (x.1 :: done, x.2))
        (fun done v => .ok (v :: done)) Spells.begins
        (fun done hv hrest => by rw [ih hv hrest]; rfl) hvs [] rest
      refine (congrArg (Except.map _) hread).trans ?_
      rw [foldlM_push]
      simp [Except.map]
    | @object ms text hms =>
      have hread := members_append readQuoted id
        (fun done name cs => do
          let cs ← colon cs
          let x ← readValue depth cs
          .ok ((name, x.1) :: done, x.2))
        (fun done m => .ok (m :: done))
        (fun hs rest => readQuoted_append hs rest)
        (fun done hb hb' hv hrest => by
          rw [colon_append hb]
          show (readValue depth _ >>= _) = _
          rw [readValue_blank hb', ih hv hrest]
          rfl) hms [] rest
      refine (congrArg (Except.map _) hread).trans ?_
      rw [foldlM_push]
      simp [Except.map]

/-- Nothing but a value within the limits is read. -/
theorem spells_of_readValue {depth : Nat}
    (h : readValue depth cs = .ok (v, rest)) :
    ∃ bs text, AllBlank bs ∧ Spells depth v text ∧
      cs = bs ++ (text ++ rest) := by
  obtain ⟨bs, hb, hcs⟩ := exists_blank cs
  induction depth generalizing v cs rest bs with
  | zero =>
    unfold readValue at h
    split at h
    · cases h
    · cases h
    · cases h
    · rename_i c cs' _ _ heq
      obtain ⟨text, hv, rfl⟩ := spells_of_scalarFrom h
      exact ⟨bs, c :: text, hb, hv, by rw [hcs, heq, List.cons_append]⟩
  | succ depth ih =>
    unfold readValue at h
    split at h
    · cases h
    · rename_i cs' heq
      obtain ⟨⟨done, rest'⟩, hread, hdone⟩ := map_eq_ok h
      cases hdone
      obtain ⟨vs, text, hvs, rfl, hfold⟩ := items_of_itemLoop _
        (fun done v => .ok (v :: done)) (fun {done done' cs rest} hitem => by
          obtain ⟨⟨v, rest'⟩, hread, heq⟩ := map_eq_ok hitem
          cases heq
          obtain ⟨bs, hb, hcs⟩ := exists_blank cs
          obtain ⟨bs, text, hb, hv, rfl⟩ := ih hread bs hb hcs
          exact ⟨v, bs, text, hb, hv, rfl, rfl⟩) hread
      rw [foldlM_push] at hfold
      cases hfold
      refine ⟨bs, '[' :: text, hb, ?_, by rw [hcs, heq, List.cons_append]⟩
      rw [List.append_nil, List.reverse_reverse]
      exact .array hvs
    · rename_i cs' heq
      obtain ⟨⟨done, rest'⟩, hread, hdone⟩ := map_eq_ok h
      cases hdone
      obtain ⟨ms, text, hms, rfl, hfold⟩ := members_of_memberLoop _
        (fun done m => .ok (m :: done))
        (fun {done done' s cs rest} hmember => by
          obtain ⟨cs', hcolon, hmember⟩ := bind_eq_ok hmember
          obtain ⟨⟨v, rest'⟩, hread, heq⟩ := bind_eq_ok hmember
          cases heq
          obtain ⟨bs, hb, rfl⟩ := blank_of_colon hcolon
          obtain ⟨bs', hb', hcs'⟩ := exists_blank cs'
          obtain ⟨bs', text, hb', hv, rfl⟩ := ih hread bs' hb' hcs'
          exact ⟨v, bs, bs', text, hb, hb', hv, rfl, rfl⟩) hread
      rw [foldlM_push] at hfold
      cases hfold
      refine ⟨bs, '{' :: text, hb, ?_, by rw [hcs, heq, List.cons_append]⟩
      rw [List.append_nil, List.reverse_reverse]
      exact .object hms
    · rename_i c cs' _ _ heq
      obtain ⟨text, hv, rfl⟩ := spells_of_scalarFrom h
      exact ⟨bs, c :: text, hb, SpellsNested.scalar hv,
        by rw [hcs, heq, List.cons_append]⟩

/-! ## Loose reading -/

theorem skipLevels_blank (hb : AllBlank bs) (depth : Nat) (cs : List Char) :
    skipLevels depth (bs ++ cs) = skipLevels depth cs := by
  unfold skipLevels
  rw [skipBlank_append hb]

theorem skipLevels_scalar (hc : isBlank c = false ∧ c ≠ '[' ∧ c ≠ '{')
    (depth : Nat) (cs : List Char) :
    skipLevels depth (c :: cs) = skipScalarFrom c cs := by
  unfold skipLevels
  rw [skipBlank_cons hc.1]
  split
  · rename_i heq
    cases heq
  · rename_i heq
    exact absurd (List.cons.inj heq).1 hc.2.1
  · rename_i heq
    exact absurd (List.cons.inj heq).1 hc.2.2
  · rename_i heq
    cases heq
    rfl

/-- Doing nothing with each of a list goes well. -/
theorem foldlM_idle {α : Type} (vs : List α) :
    vs.foldlM (fun _ _ => (.ok () : Except Fault Unit)) () = .ok () := by
  induction vs with
  | nil => rfl
  | cons v vs ih => exact ih

theorem skipLevels_append {depth : Nat} (h : Spells depth v text)
    (hrest : Apart rest) :
    skipLevels depth (text ++ rest) = .ok ((), rest) := by
  induction depth generalizing v text rest with
  | zero =>
    obtain ⟨c, cs, rfl, -⟩ := SpellsScalar.begins h
    rw [List.cons_append, skipLevels_scalar (SpellsScalar.first h),
      skipScalarFrom_append h hrest]
  | succ depth ih =>
    cases h with
    | scalar hv =>
      obtain ⟨c, cs, rfl, -⟩ := hv.begins
      rw [List.cons_append, skipLevels_scalar hv.first,
        skipScalarFrom_append hv hrest]
    | @array vs text hvs =>
      have hskip := items_append (fun _ => skipLevels depth)
        (fun _ _ => .ok ()) Spells.begins
        (fun _ hv hrest => by rw [ih hv hrest]; rfl) hvs () rest
      rw [foldlM_idle] at hskip
      exact hskip
    | @object ms text hms =>
      have hskip := members_append skipQuoted (fun _ => ())
        (fun _ _ cs => colon cs >>= skipLevels depth) (fun _ _ => .ok ())
        (fun hs rest => skipQuoted_append hs rest)
        (fun _ hb hb' hv hrest => by
          rw [colon_append hb]
          show skipLevels depth _ = _
          rw [skipLevels_blank hb', ih hv hrest]
          rfl) hms () rest
      rw [foldlM_idle] at hskip
      exact hskip

/-- A value within the limits is passed over, whatever the depth. -/
theorem skipValue_append {depth : Nat} (h : Spells depth v text)
    (hb : AllBlank bs) (hrest : Apart rest) :
    skipValue (bs ++ (text ++ rest)) = .ok ((), rest) := by
  rw [skipValue, skipLevels_blank hb]
  exact skipLevels_append (h.of_length (by simp; omega)) hrest

end

/-! ## Documents -/

theorem atEnd_blank {α : Type} (a : α) {bs : List Char} (hb : AllBlank bs) :
    atEnd (a, bs) = .ok a := by
  rw [atEnd, skipBlank_eq_nil hb]

theorem blank_of_atEnd {α : Type} {a b : α} {rest : List Char}
    (h : atEnd (a, rest) = .ok b) : a = b ∧ AllBlank rest := by
  obtain ⟨bs, hb, hrest⟩ := exists_blank rest
  simp only [atEnd] at h
  split at h
  · rename_i heq
    rw [heq, List.append_nil] at hrest
    exact ⟨Except.ok.inj h, hrest ▸ hb⟩
  · cases h

/-- A document is read to its value, and nothing else is read as one. -/
theorem parse_eq_ok_iff {text : String} {v : Json} :
    parse text = .ok v ↔ Document v text := by
  constructor
  · intro h
    obtain ⟨⟨v', rest⟩, hread, hend⟩ := bind_eq_ok h
    obtain ⟨rfl, hrest⟩ := blank_of_atEnd hend
    obtain ⟨bs, inner, hb, hv, htext⟩ := spells_of_readValue hread
    exact ⟨bs, inner, rest, hb, hv, hrest, htext⟩
  · rintro ⟨bs, inner, bs', hb, hv, hb', htext⟩
    have hapart : Apart (bs' ++ []) := Apart.blank hb' (by simp [Apart])
    rw [List.append_nil] at hapart
    rw [parse, htext, readValue_blank hb, readValue_append hv hapart]
    exact atEnd_blank v hb'

end DatabasePool.Json
