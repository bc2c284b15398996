import DatabasePool.Proofs.Except
import DatabasePool.Proofs.Json.Grammar
import Mathlib.Data.List.TakeDrop
import Mathlib.Data.List.TakeWhile

/-!
# Numerals, read and passed over

A numeral is read to its end, and nothing else is read as a numeral.  What
comes behind a value in a text is `Apart` from it: it can be no part of a
number.

* `numeral_append` says that a spelled numeral is read, and
  `spells_of_numeral` that what is read was spelled.
* `readNumeral_append` and `skipNumeral_append` say so for numbers.
* `spellsNumeral_decimal` says that the decimal digits of a natural number are
  one way to write it, and `value_decimal` which number that is.
-/

namespace DatabasePool.Json

/-- What can come behind a value: nothing, a blank, a comma or the end of an
array or object. -/
def Apart (rest : List Char) : Prop :=
  ∀ c ∈ rest.head?, isBlank c = true ∨ c = ',' ∨ c = ']' ∨ c = '}'

/-- What is apart cannot go on a number. -/
theorem Apart.not_numeral {rest : List Char} (h : Apart rest) :
    ∀ c ∈ rest.head?, c.isDigit = false ∧ c ≠ '.' ∧ c ≠ 'e' ∧ c ≠ 'E' := by
  intro c hc
  rcases h c hc with hb | rfl | rfl | rfl
  · simp only [isBlank, Bool.or_eq_true, decide_eq_true_eq] at hb
    rcases hb with ((rfl | rfl) | rfl) | rfl <;> decide
  all_goals decide

theorem Apart.blank {bs rest : List Char} (hb : AllBlank bs)
    (h : Apart rest) : Apart (bs ++ rest) := by
  cases bs with
  | nil => exact h
  | cons b bs =>
    intro c hc
    obtain rfl : b = c := Option.some.inj hc
    exact .inl (hb b List.mem_cons_self)

/-! ## Digits -/

/-- No digit comes next. -/
def NoDigit (rest : List Char) : Prop := ∀ c ∈ rest.head?, c.isDigit = false

theorem digits_append {ds rest : List Char} (hds : IsDigits ds)
    (hrest : NoDigit rest) : digits (ds ++ rest) = .ok (ds, rest) := by
  have hspan : (ds ++ rest).span Char.isDigit = (ds, rest) := by
    rw [List.span_eq_takeWhile_dropWhile,
      List.takeWhile_append_of_pos hds.isDigit,
      List.dropWhile_append_of_pos hds.isDigit]
    cases rest with
    | nil => simp
    | cons c rest =>
      have hc := hrest c rfl
      simp [hc]
  obtain ⟨d, ds', rfl⟩ := List.exists_cons_of_ne_nil hds.ne_nil
  rw [digits, hspan]

theorem isDigits_of_digits {cs ds rest : List Char}
    (h : digits cs = .ok (ds, rest)) : IsDigits ds ∧ cs = ds ++ rest := by
  unfold digits at h
  rw [List.span_eq_takeWhile_dropWhile] at h
  have hall : ∀ d ∈ cs.takeWhile Char.isDigit, d.isDigit = true :=
    fun d hd => List.mem_takeWhile_imp hd
  have happend := (List.takeWhile_append_dropWhile
    (p := Char.isDigit) (l := cs)).symm
  split at h
  · cases h
  · rename_i ds' rest' hne heq
    cases h
    cases heq
    exact ⟨⟨fun hnil => hne hnil, hall⟩, happend⟩

theorem wholeDigits_append {ds rest : List Char} (hds : IsDigits ds)
    (hzero : ds.head? = some '0' → ds = ['0']) (hrest : NoDigit rest) :
    wholeDigits (ds ++ rest) = .ok (ds, rest) := by
  have hplain := digits_append hds hrest
  unfold wholeDigits
  split
  · rename_i c cs heq
    have hd : ds = ['0'] := by
      refine hzero ?_
      obtain ⟨d, ds', rfl⟩ := List.exists_cons_of_ne_nil hds.ne_nil
      exact congrArg List.head? heq
    subst hd
    obtain rfl : rest = c :: cs := (List.cons.inj heq).2
    rw [if_neg (by simp [hrest c rfl])]
  · exact hplain

/-- The digits of a whole number.  A zero stands alone, since no digit may come
behind it. -/
theorem isDigits_of_wholeDigits {cs ds rest : List Char}
    (h : wholeDigits cs = .ok (ds, rest)) :
    IsDigits ds ∧ (ds.head? = some '0' → ds = ['0']) ∧ cs = ds ++ rest := by
  unfold wholeDigits at h
  split at h
  · split at h
    · cases h
    · cases h
      refine ⟨⟨List.cons_ne_nil _ _, fun d hd => ?_⟩, fun _ => rfl, rfl⟩
      obtain rfl := List.mem_singleton.1 hd
      rfl
  · rename_i hne
    obtain ⟨hds, rfl⟩ := isDigits_of_digits h
    refine ⟨hds, fun hzero => ?_, rfl⟩
    obtain ⟨d, ds, rfl⟩ := List.exists_cons_of_ne_nil hds.ne_nil
    obtain rfl : d = '0' := Option.some.inj hzero
    cases ds with
    | nil => rfl
    | cons c ds => exact absurd rfl (hne c (ds ++ rest))

/-! ## Numerals -/

theorem fractionPart_append {fraction : Option (List Char)}
    {text rest : List Char} (h : SpellsFraction fraction text)
    (hrest : ∀ c ∈ rest.head?, c.isDigit = false ∧ c ≠ '.') :
    fractionPart (text ++ rest) = .ok (fraction, rest) := by
  cases h with
  | none =>
    unfold fractionPart
    split
    · rename_i heq
      have heq : rest = _ := heq
      subst heq
      exact absurd rfl (hrest '.' rfl).2
    · rfl
  | some hds =>
    show (digits (_ ++ rest)).map _ = _
    rw [digits_append hds fun c hc => (hrest c hc).1]
    rfl

theorem spells_of_fractionPart {fraction : Option (List Char)}
    {cs rest : List Char} (h : fractionPart cs = .ok (fraction, rest)) :
    ∃ text, SpellsFraction fraction text ∧ cs = text ++ rest := by
  unfold fractionPart at h
  split at h
  · obtain ⟨⟨ds, rest'⟩, hread, he⟩ := map_eq_ok h
    cases he
    obtain ⟨hds, rfl⟩ := isDigits_of_digits hread
    exact ⟨_, .some hds, rfl⟩
  · cases h
    exact ⟨[], .none, rfl⟩

theorem exponentPart_append {exponent : Option (Bool × List Char)}
    {text rest : List Char} (h : SpellsExponent exponent text)
    (hrest : ∀ c ∈ rest.head?, c.isDigit = false ∧ c ≠ 'e' ∧ c ≠ 'E') :
    exponentPart (text ++ rest) = .ok (exponent, rest) := by
  have hdigits : ∀ {ds : List Char}, IsDigits ds →
      digits (ds ++ rest) = .ok (ds, rest) :=
    fun hds => digits_append hds fun c hc => (hrest c hc).1
  have hmark : ∀ {e : Char}, e = 'e' ∨ e = 'E' →
      (e = 'e' || e = 'E') = true := by simp
  cases h with
  | none =>
    cases rest with
    | nil => rfl
    | cons c rest =>
      obtain ⟨-, he, hE⟩ := hrest c rfl
      show (if (c = 'e' || c = 'E') = true then _ else _) = _
      rw [if_neg (by simp [he, hE])]
  | @bare e ds he hds =>
    show (if (e = 'e' || e = 'E') = true then _ else _) = _
    rw [if_pos (hmark he)]
    obtain ⟨d, ds', rfl⟩ := List.exists_cons_of_ne_nil hds.ne_nil
    have hd := hds.isDigit d List.mem_cons_self
    split
    · rename_i heq
      cases heq
      cases hd
    · rename_i heq
      cases heq
      cases hd
    · show (digits (d :: ds' ++ rest)).map _ = _
      rw [hdigits hds]
      rfl
  | @plus e ds he hds =>
    show (if (e = 'e' || e = 'E') = true then (digits (ds ++ rest)).map _
      else _) = _
    rw [if_pos (hmark he), hdigits hds]
    rfl
  | @minus e ds he hds =>
    show (if (e = 'e' || e = 'E') = true then (digits (ds ++ rest)).map _
      else _) = _
    rw [if_pos (hmark he), hdigits hds]
    rfl

theorem spells_of_exponentPart {exponent : Option (Bool × List Char)}
    {cs rest : List Char} (h : exponentPart cs = .ok (exponent, rest)) :
    ∃ text, SpellsExponent exponent text ∧ cs = text ++ rest := by
  unfold exponentPart at h
  split at h
  · split at h
    · rename_i hmark
      simp only [Bool.or_eq_true, decide_eq_true_eq] at hmark
      split at h
      all_goals
        obtain ⟨⟨ds, rest'⟩, hread, he⟩ := map_eq_ok h
        cases he
        obtain ⟨hds, rfl⟩ := isDigits_of_digits hread
      · exact ⟨_, .plus hmark hds, rfl⟩
      · exact ⟨_, .minus hmark hds, rfl⟩
      · exact ⟨_, .bare hmark hds, rfl⟩
    · cases h
      exact ⟨[], .none, rfl⟩
  · cases h
    exact ⟨[], .none, rfl⟩

/-- A numeral is read to its end. -/
theorem numeral_append {n : Numeral} {text rest : List Char}
    (h : SpellsNumeral n text) (hrest : Apart rest) :
    numeral (text ++ rest) = .ok (n, rest) := by
  obtain ⟨negative, whole, frac, exp⟩ := n
  cases h with
  | @mk fraction exponent hwhole hzero hfraction hexponent =>
    have hend := hrest.not_numeral
    have hexp := exponentPart_append hexponent
      fun c hc => ⟨(hend c hc).1, (hend c hc).2.2⟩
    have hmark : ∀ c ∈ (exponent ++ rest).head?,
        c.isDigit = false ∧ c ≠ '.' := by
      cases hexponent with
      | none => exact fun c hc => ⟨(hend c hc).1, (hend c hc).2.1⟩
      | bare he | plus he | minus he =>
        intro c hc
        cases hc
        rcases he with rfl | rfl <;> decide
    have hpoint : NoDigit (fraction ++ (exponent ++ rest)) := by
      cases hfraction with
      | none => exact fun c hc => (hmark c hc).1
      | some =>
        intro c hc
        cases hc
        decide
    have hunsigned : unsigned negative
        (whole ++ (fraction ++ (exponent ++ rest))) =
          .ok (⟨negative, whole, frac, exp⟩, rest) := by
      rw [unsigned, wholeDigits_append hwhole hzero hpoint]
      show (fractionPart (fraction ++ (exponent ++ rest)) >>= _) = _
      rw [fractionPart_append hfraction hmark]
      show (exponentPart (exponent ++ rest) >>= _) = _
      rw [hexp]
      rfl
    simp only [List.append_assoc]
    cases negative with
    | true => exact hunsigned
    | false =>
      obtain ⟨d, ds, rfl⟩ := List.exists_cons_of_ne_nil hwhole.ne_nil
      have hd := hwhole.isDigit d List.mem_cons_self
      show numeral (d :: _) = _
      unfold numeral
      split
      · rename_i heq
        cases heq
        cases hd
      · exact hunsigned

/-- Nothing but a numeral is read as one. -/
theorem spells_of_numeral {n : Numeral} {cs rest : List Char}
    (h : numeral cs = .ok (n, rest)) :
    ∃ text, SpellsNumeral n text ∧ cs = text ++ rest := by
  have hunsigned : ∀ {negative : Bool} {cs : List Char},
      unsigned negative cs = .ok (n, rest) → ∃ text, SpellsNumeral n text ∧
        (if negative then ['-'] else []) ++ cs = text ++ rest := by
    intro negative cs h
    obtain ⟨⟨whole, cs₁⟩, hread, h⟩ := bind_eq_ok h
    obtain ⟨⟨fraction, cs₂⟩, hread', h⟩ := bind_eq_ok h
    obtain ⟨⟨exponent, cs₃⟩, hread'', h⟩ := bind_eq_ok h
    cases h
    obtain ⟨hwhole, hzero, rfl⟩ := isDigits_of_wholeDigits hread
    obtain ⟨text, hfraction, rfl⟩ := spells_of_fractionPart hread'
    obtain ⟨text', hexponent, rfl⟩ := spells_of_exponentPart hread''
    exact ⟨_, .mk hwhole hzero hfraction hexponent, by simp⟩
  unfold numeral at h
  split at h
  · exact hunsigned h
  · exact hunsigned h

theorem readNumeral_append {n : Numeral} {text rest : List Char}
    (h : SpellsNumeral n text) (hfinite : n.isFinite = true)
    (hrest : Apart rest) :
    readNumeral (text ++ rest) = .ok (n.value, rest) := by
  rw [readNumeral, numeral_append h hrest]
  exact if_pos hfinite

theorem spells_of_readNumeral {x : Number} {cs rest : List Char}
    (h : readNumeral cs = .ok (x, rest)) :
    ∃ text, SpellsScalar (.number x) text ∧ cs = text ++ rest := by
  obtain ⟨⟨n, rest'⟩, hread, hvalue⟩ := bind_eq_ok h
  obtain ⟨text, hn, rfl⟩ := spells_of_numeral hread
  dsimp only at hvalue
  split at hvalue
  · cases hvalue
    exact ⟨text, .number hn ‹_›, rfl⟩
  · cases hvalue

theorem skipNumeral_append {n : Numeral} {text rest : List Char}
    (h : SpellsNumeral n text) (hrest : Apart rest) :
    skipNumeral (text ++ rest) = .ok ((), rest) := by
  rw [skipNumeral, numeral_append h hrest]

/-! ## Decimal digits -/

/-- The decimal digits of a natural number, as a numeral. -/
def decimal (n : Nat) : Numeral := ⟨false, Nat.toDigits 10 n, none, none⟩

theorem digitsValue_toDigits (n : Nat) :
    digitsValue (Nat.toDigits 10 n) = n := by
  have h : Nat.ofDigitChars 10 (Nat.toDigits 10 n) 0 = n :=
    Nat.ofDigitChars_ten_toDigits
  simp only [Nat.ofDigitChars_eq_foldl, Nat.mul_comm] at h
  exact h

/-- A natural number other than zero has no zero in front. -/
theorem toDigits_of_head_zero {n : Nat}
    (h : (Nat.toDigits 10 n).head? = some '0') :
    Nat.toDigits 10 n = ['0'] := by
  induction n using Nat.base_induction 10 (by decide) with
  | single m hm =>
    rw [Nat.toDigits_of_lt_base hm] at h ⊢
    rw [Option.some.inj h]
  | digit m k hk hm ih =>
    have hzero : (Nat.toDigits 10 m).head? = some '0' := by
      obtain ⟨d, ds, hds⟩ :=
        List.exists_cons_of_ne_nil (Nat.toDigits_ne_nil (n := m) (b := 10))
      rw [← Nat.toDigits_append_toDigits (by decide) hm hk, hds] at h
      rw [hds]
      exact h
    have hm0 := digitsValue_toDigits m
    rw [ih hzero] at hm0
    exact absurd hm0 (Nat.ne_of_lt hm)

theorem spellsNumeral_decimal (n : Nat) :
    SpellsNumeral (decimal n) (Nat.toDigits 10 n) := by
  have hdigits : IsDigits (Nat.toDigits 10 n) :=
    ⟨Nat.toDigits_ne_nil, fun d hd =>
      Nat.isDigit_of_mem_toDigits (by decide) (by decide) hd⟩
  have h := SpellsNumeral.mk (n := decimal n) hdigits toDigits_of_head_zero
    .none .none
  simpa [decimal] using h

/-- The number of digits is not less than it was before the last ones. -/
theorem le_digitsValue (ds : List Char) (n : Nat) :
    n ≤ ds.foldl (fun n d => n * 10 + (d.toNat - 48)) n := by
  induction ds generalizing n with
  | nil => exact Nat.le_refl n
  | cons d ds ih =>
    refine Nat.le_trans ?_ (ih _)
    show n ≤ n * 10 + _
    omega

/-- Digits that fit a word are all among the leading ones. -/
theorem Numeral.leading_eq {ds : List Char} {n : Nat}
    (h : ds.foldl (fun n d => n * 10 + (d.toNat - 48)) n ≤ wordMax) :
    leading ds n =
      (ds.foldl (fun n d => n * 10 + (d.toNat - 48)) n, 0) := by
  induction ds generalizing n with
  | nil => rfl
  | cons d ds ih =>
    rw [List.foldl_cons] at h
    rw [leading, if_pos (Nat.le_trans (le_digitsValue ds _) h), ih h]
    rfl

theorem isFinite_decimal {n : Nat} (hn : n ≤ wordMax) :
    (decimal n).isFinite = true := by
  have hvalue := digitsValue_toDigits n
  have hlead : Numeral.leading (Nat.toDigits 10 n) 0 = (n, 0) := by
    rw [Numeral.leading_eq] <;> rw [← digitsValue, hvalue]
    exact hn
  simp [Numeral.isFinite, decimal, hlead, Numeral.trailing,
    Numeral.exponentValue, Numeral.safePower]

theorem value_decimal {n : Nat} (hn : n ≤ wordMax) :
    (decimal n).value = .whole n := by
  simp [Numeral.value, decimal, Numeral.mantissaDigits, digitsValue_toDigits,
    hn]

end DatabasePool.Json
