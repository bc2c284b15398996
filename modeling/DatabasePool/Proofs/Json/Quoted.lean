import DatabasePool.Proofs.Json.Grammar

/-!
# Strings in quotes, read and passed over

A string is read in two steps: its text is taken apart into pieces, and the
pieces are put together.  `SpellsPieces` stands between the two.

* `pieces_append` and `spells_of_pieces` are about the first step,
  `exists_pieces` and `SpellsPieces.join` about the second.
* `readQuoted_append` says that a spelled string is read to its end, and
  `spells_of_readQuoted` that nothing else is read as a string.
-/

namespace DatabasePool.Json

/-! ## Pieces -/

/-- The ways to write a piece of a string. -/
inductive SpellsPiece : Piece → List Char → Prop where
  | plain {x : Char} (hctl : 32 ≤ x.toNat) (hquote : x ≠ '"')
      (hslash : x ≠ '\\') : SpellsPiece (.char x) [x]
  | short {x e : Char} (he : shortEscape? e = some x) :
      SpellsPiece (.char x) ['\\', e]
  | unit {n : Nat} {a b c d : Char} (hn : hexFour? a b c d = some n) :
      SpellsPiece (.unit n) ['\\', 'u', a, b, c, d]

/-- The ways to write pieces, one after the other. -/
inductive SpellsPieces : List Piece → List Char → Prop where
  | nil : SpellsPieces [] []
  | cons {p : Piece} {ps : List Piece} {text rest : List Char}
      (hp : SpellsPiece p text) (hps : SpellsPieces ps rest) :
      SpellsPieces (p :: ps) (text ++ rest)

/-- A piece is taken off the front of a string. -/
theorem pieces_piece {p : Piece} {text : List Char} (h : SpellsPiece p text)
    (cs : List Char) :
    pieces (text ++ cs) = (p :: (pieces cs).1, (pieces cs).2) := by
  cases h with
  | @plain x hctl hquote hslash =>
    show pieces (x :: cs) = _
    rw [pieces]
    · rw [if_neg (Nat.not_lt.2 hctl)]
    · exact hquote
    all_goals
      intros
      exact absurd ‹_› hslash
  | @short x e he =>
    show pieces ('\\' :: e :: cs) = _
    have hu : e ≠ 'u' := by
      rintro rfl
      cases he
    rw [pieces]
    · rw [he]
    all_goals
      intros
      exact absurd ‹_› hu
  | @unit n a b c d hn =>
    show pieces ('\\' :: 'u' :: a :: b :: c :: d :: cs) = _
    rw [pieces, hn]

theorem pieces_append {ps : List Piece} {text : List Char}
    (h : SpellsPieces ps text) (rest : List Char) :
    pieces (text ++ '"' :: rest) = (ps, .ok rest) := by
  induction h with
  | nil => rfl
  | cons hp _ ih => rw [List.append_assoc, pieces_piece hp, ih]

theorem spells_of_pieces {cs rest : List Char} {ps : List Piece}
    (h : pieces cs = (ps, .ok rest)) :
    ∃ text, SpellsPieces ps text ∧ cs = text ++ '"' :: rest := by
  fun_induction pieces cs generalizing ps with
  | case1 | case3 | case4 | case6 | case7 | case9 => cases h
  | case2 =>
    cases h
    exact ⟨[], .nil, rfl⟩
  | case5 a b c d cs n hn qs ending heq ih =>
    cases h
    obtain ⟨text, hps, rfl⟩ := ih heq
    exact ⟨_, .cons (.unit hn) hps, rfl⟩
  | case8 e cs _ _ x hx qs ending heq ih =>
    cases h
    obtain ⟨text, hps, rfl⟩ := ih heq
    exact ⟨_, .cons (.short hx) hps, rfl⟩
  | case10 x cs hquote hend _ _ hescape hctl qs ending heq ih =>
    cases h
    obtain ⟨text, hps, rfl⟩ := ih heq
    have hslash : x ≠ '\\' := by
      intro hx
      cases text with
      | nil => exact hescape _ _ hx rfl
      | cons e text => exact hescape _ _ hx rfl
    exact ⟨_, .cons (.plain (Nat.le_of_not_lt hctl) hquote hslash) hps, rfl⟩

/-! ## Code units -/

theorem hexValue?_lt {c : Char} {n : Nat} (h : hexValue? c = some n) :
    n < 16 := by
  unfold hexValue? at h
  simp only [Char.le_def, UInt32.le_iff_toNat_le] at h
  split at h
  · rename_i hc
    obtain ⟨-, hhigh⟩ := hc
    obtain rfl := Option.some.inj h
    change c.toNat ≤ 57 at hhigh
    omega
  · split at h
    · rename_i hc
      obtain ⟨-, hhigh⟩ := hc
      obtain rfl := Option.some.inj h
      change c.toNat ≤ 102 at hhigh
      omega
    · split at h
      · rename_i hc
        obtain ⟨-, hhigh⟩ := hc
        obtain rfl := Option.some.inj h
        change c.toNat ≤ 70 at hhigh
        omega
      · cases h

theorem hexFour?_eq_some {a b c d : Char} {n : Nat}
    (h : hexFour? a b c d = some n) : n < 65536 := by
  simp only [hexFour?, Option.bind_eq_bind, Option.bind_eq_some_iff,
    Option.some.injEq] at h
  obtain ⟨i, hi, j, hj, k, hk, l, hl, rfl⟩ := h
  have := hexValue?_lt hi
  have := hexValue?_lt hj
  have := hexValue?_lt hk
  have := hexValue?_lt hl
  omega

/-- The character with the number of a character has that number. -/
theorem toNat_ofNat_of_valid {n : Nat} (hn : n.isValidChar) :
    (Char.ofNat n).toNat = n := by
  rw [Char.ofNat, dif_pos hn]
  rfl

/-- A unit that is no surrogate is the number of a character. -/
theorem toNat_of_unit {n : Nat} (hn : n < 65536) (hlow : ¬isLow n = true)
    (hhigh : ¬isHigh n = true) : (Char.ofNat n).toNat = n := by
  refine toNat_ofNat_of_valid ?_
  simp only [isLow, isHigh, Bool.and_eq_true, decide_eq_true_eq] at hlow hhigh
  show n < 0xd800 ∨ 0xdfff < n ∧ n < 0x110000
  omega

/-- No character has the number of a surrogate. -/
theorem not_surrogate (x : Char) :
    ¬isLow x.toNat = true ∧ ¬isHigh x.toNat = true := by
  have hvalid : x.toNat < 0xd800 ∨ 0xdfff < x.toNat ∧ x.toNat < 0x110000 :=
    x.valid
  simp only [isLow, isHigh, Bool.and_eq_true, decide_eq_true_eq]
  omega

theorem toNat_pairChar {high low : Nat} (hhigh : isHigh high = true)
    (hlow : isLow low = true) : (pairChar high low).toNat =
      (high - 0xD800) * 0x400 + (low - 0xDC00) + 0x10000 := by
  refine toNat_ofNat_of_valid ?_
  simp only [isLow, isHigh, Bool.and_eq_true, decide_eq_true_eq] at hlow hhigh
  refine .inr ⟨?_, ?_⟩ <;> omega

/-! ## Putting pieces together -/

theorem Joined.cons_eq_whole {x : Char} {j : Joined} {xs : List Char}
    (h : j.cons x = .whole xs) : ∃ ys, j = .whole ys ∧ xs = x :: ys := by
  cases j with
  | whole ys =>
    cases h
    exact ⟨ys, rfl, rfl⟩
  | dangling | broken => cases h

/-- A unit that is the number of a character stands for it. -/
theorem join_unit (x : Char) (ps : List Piece) :
    join (.unit x.toNat :: ps) = (join ps).cons x := by
  obtain ⟨hlow, hhigh⟩ := not_surrogate x
  rcases ps with _ | ⟨p | m, ps⟩
  · simp only [join, if_neg hlow, if_neg hhigh, Char.ofNat_toNat, Joined.cons]
  · have hnot : ¬(isLow x.toNat || isHigh x.toNat) = true := by
      simp [hlow, hhigh]
    simp only [join, if_neg hnot, Char.ofNat_toNat]
  · rw [join, if_neg hlow, if_neg hhigh, Char.ofNat_toNat]

/-- A spelled character is one piece or two. -/
theorem exists_pieces {xs text : List Char} (h : SpellsChars xs text) :
    ∃ ps, SpellsPieces ps text ∧ join ps = .whole xs := by
  induction h with
  | nil => exact ⟨[], .nil, rfl⟩
  | @cons x xs part rest hx _ ih =>
    obtain ⟨ps, hps, hjoin⟩ := ih
    cases hx with
    | plain hctl hquote hslash =>
      refine ⟨_, .cons (.plain hctl hquote hslash) hps, ?_⟩
      rw [join, hjoin, Joined.cons]
    | short he =>
      refine ⟨_, .cons (.short he) hps, ?_⟩
      rw [join, hjoin, Joined.cons]
    | unit hn =>
      refine ⟨_, .cons (.unit hn) hps, ?_⟩
      rw [join_unit, hjoin, Joined.cons]
    | @pair a b c d a' b' c' d' high low hhigh hlow hhigh' hlow' hx =>
      have hhigh'' : isHigh high = true := by simpa [isHigh] using hhigh'
      have hlow'' : isLow low = true := by simpa [isLow] using hlow'
      have hnot : ¬isLow high = true := by
        simp only [isLow, Bool.and_eq_true, decide_eq_true_eq]
        omega
      have hunits := SpellsPieces.cons (.unit hhigh) (.cons (.unit hlow) hps)
      refine ⟨_, hunits, ?_⟩
      rw [join, if_neg hnot, if_pos hhigh'', if_pos hlow'', hjoin, pairChar,
        ← hx, Char.ofNat_toNat, Joined.cons]

theorem SpellsPiece.char {x : Char} {text : List Char}
    (h : SpellsPiece (.char x) text) : SpellsChar x text := by
  cases h with
  | plain hctl hquote hslash => exact .plain hctl hquote hslash
  | short he => exact .short he

/-- Pieces that make characters spell them. -/
theorem SpellsPieces.join {ps : List Piece} {text xs : List Char}
    (h : SpellsPieces ps text) (hjoin : Json.join ps = .whole xs) :
    SpellsChars xs text := by
  fun_induction Json.join ps generalizing text xs with
  | case1 =>
    cases h
    cases hjoin
    exact .nil
  | case2 x ps ih =>
    obtain ⟨ys, hps, rfl⟩ := Joined.cons_eq_whole hjoin
    cases h with
    | cons hp h => exact .cons hp.char (ih h hps)
  | case3 | case4 | case6 | case8 | case10 => cases hjoin
  | case5 n hlow hhigh =>
    cases hjoin
    cases h with
    | cons hp h =>
      cases h
      cases hp with
      | unit hn =>
        refine .cons (.unit ?_) .nil
        rw [toNat_of_unit (hexFour?_eq_some hn) hlow hhigh, hn]
  | case7 n m ps _ hhigh hlow ih =>
    obtain ⟨ys, hps, rfl⟩ := Joined.cons_eq_whole hjoin
    cases h with
    | cons hp h =>
      cases h with
      | cons hp' h =>
        cases hp with
        | unit hn =>
          cases hp' with
          | unit hm =>
            have hpair := SpellsChar.pair hn hm (by simpa [isHigh] using hhigh)
              (by simpa [isLow] using hlow) (toNat_pairChar hhigh hlow)
            have hchars := SpellsChars.cons hpair (ih h hps)
            exact hchars
  | case9 n m ps hlow hhigh ih =>
    obtain ⟨ys, hps, rfl⟩ := Joined.cons_eq_whole hjoin
    cases h with
    | cons hp h =>
      cases hp with
      | unit hn =>
        refine .cons (.unit ?_) (ih h hps)
        rw [toNat_of_unit (hexFour?_eq_some hn) hlow hhigh, hn]
  | case11 n c ps hnot ih =>
    obtain ⟨ys, hps, rfl⟩ := Joined.cons_eq_whole hjoin
    obtain ⟨hlow, hhigh⟩ : ¬isLow n = true ∧ ¬isHigh n = true := by
      simpa using hnot
    cases h with
    | cons hp h =>
      cases hp with
      | unit hn =>
        refine .cons (.unit ?_) (ih h hps)
        rw [toNat_of_unit (hexFour?_eq_some hn) hlow hhigh, hn]

/-! ## Strings -/

theorem readQuoted_append {s : String} {inner : List Char}
    (h : SpellsChars s.toList inner) (rest : List Char) :
    readQuoted (inner ++ '"' :: rest) = .ok (s, rest) := by
  obtain ⟨ps, hps, hjoin⟩ := exists_pieces h
  simp only [readQuoted, pieces_append hps, hjoin, String.ofList_toList]

theorem skipQuoted_append {s : String} {inner : List Char}
    (h : SpellsChars s.toList inner) (rest : List Char) :
    skipQuoted (inner ++ '"' :: rest) = .ok ((), rest) := by
  obtain ⟨ps, hps, -⟩ := exists_pieces h
  rw [skipQuoted, pieces_append hps]
  rfl

theorem spells_of_readQuoted {s : String} {cs rest : List Char}
    (h : readQuoted cs = .ok (s, rest)) :
    ∃ inner, SpellsChars s.toList inner ∧ cs = inner ++ '"' :: rest := by
  simp only [readQuoted] at h
  split at h
  · rename_i xs rest' hjoin hend
    cases h
    have hpieces : pieces cs = ((pieces cs).1, .ok rest) := by rw [← hend]
    obtain ⟨text, hps, rfl⟩ := spells_of_pieces hpieces
    exact ⟨text, by simpa using hps.join hjoin, rfl⟩
  all_goals cases h

end DatabasePool.Json
