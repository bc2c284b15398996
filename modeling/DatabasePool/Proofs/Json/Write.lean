import DatabasePool.Proofs.Json.Values
import Mathlib.Tactic.SplitIfs

/-!
# Values, written and read

The compact text of an object is one of its texts, if its members are strings,
flags and numbers that a word can hold.

* `spellsChars_escape` is about strings, `Plain.spells` about values.
* `document_render` is about objects.
-/

namespace DatabasePool.Json

/-! ## Strings -/

theorem hexValue?_hexDigit {n : Nat} (hn : n < 16) :
    hexValue? (hexDigit n) = some n := by
  revert n
  decide

/-- The character with this number is no other one. -/
theorem eq_of_toNat {c : Char} {n : Nat} (h : c.toNat = n) :
    c = Char.ofNat n := by
  rw [← h, Char.ofNat_toNat]

/-- An escaped character is one way to write it. -/
theorem spellsChar_escape (c : Char) : SpellsChar c (escapeChar c) := by
  unfold escapeChar
  split_ifs with hquote hslash hback htab hline hfeed hreturn hctl
  · exact .short (by rw [hquote]; rfl)
  · exact .short (by rw [hslash]; rfl)
  · exact .short (by rw [eq_of_toNat hback]; rfl)
  · exact .short (by rw [htab]; rfl)
  · exact .short (by rw [hline]; rfl)
  · exact .short (by rw [eq_of_toNat hfeed]; rfl)
  · exact .short (by rw [hreturn]; rfl)
  · refine .unit ?_
    have hzero : hexValue? '0' = some 0 := by decide
    have hhigh : hexValue? (hexDigit (c.toNat / 16)) = some (c.toNat / 16) :=
      hexValue?_hexDigit (by omega)
    have hlow : hexValue? (hexDigit (c.toNat % 16)) = some (c.toNat % 16) :=
      hexValue?_hexDigit (by omega)
    simp only [hexFour?, hzero, hhigh, hlow, Option.bind_eq_bind,
      Option.bind_some, Option.some.injEq]
    omega
  · exact .plain (Nat.le_of_not_lt hctl) hquote hslash

theorem spellsChars_escape (cs : List Char) :
    SpellsChars cs (cs.flatMap escapeChar) := by
  induction cs with
  | nil => exact .nil
  | cons c cs ih => exact .cons (spellsChar_escape c) ih

/-! ## Values -/

/-- The value is a string, a flag or a number that a word can hold. -/
inductive Plain : Json → Prop where
  | nat {n : Nat} (hn : n ≤ wordMax) : Plain (.nat n)
  | bool {b : Bool} : Plain (.bool b)
  | string {s : String} : Plain (.string s)

theorem numberChars_whole (n : Nat) :
    numberChars (.whole n) = Nat.toDigits 10 n := by
  show (Int.repr (Int.ofNat n)).toList = _
  rw [Int.repr, Nat.repr, String.toList_ofList]

/-- The compact text of a plain value is one of its texts. -/
theorem Plain.spells {v : Json} (h : Plain v) : SpellsScalar v v.chars := by
  cases h with
  | @nat n hn =>
    have hnumber := SpellsScalar.number (spellsNumeral_decimal n)
      (isFinite_decimal hn)
    rw [value_decimal hn] at hnumber
    rw [Json.nat, chars, numberChars_whole]
    exact hnumber
  | @bool b =>
    cases b with
    | true =>
      rw [chars]
      exact .true
    | false =>
      rw [chars]
      exact .false
  | @string s =>
    rw [chars, quoted]
    exact .string (spellsChars_escape s.toList)

/-! ## Objects -/

theorem AllBlank.nil : AllBlank [] := by simp [AllBlank]

theorem Members.closed {R : Json → List Char → Prop} {first : Bool} :
    Members R first [] ['}'] := by
  rw [← List.nil_append ['}']]
  exact .close .nil

/-- A member as it is written, without blanks. -/
theorem Members.written {R : Json → List Char → Prop} {first : Bool}
    {name : String} {v : Json} {ms : List (String × Json)}
    {lead rest : List Char} (hlead : Lead first lead) (hv : R v v.chars)
    (hms : Members R false ms rest) :
    Members R first ((name, v) :: ms)
      (lead ++ (quoted name ++ ':' :: v.chars ++ rest)) := by
  have h := Members.member hlead (spellsChars_escape name.toList) .nil .nil hv
    hms
  simpa [quoted] using h

theorem members_memberChars {R : Json → List Char → Prop}
    {ms : List (String × Json)} (h : ∀ m ∈ ms, R m.2 m.2.chars) :
    Members R false ms (memberChars ms) := by
  induction ms with
  | nil =>
    rw [memberChars]
    exact .closed
  | cons m ms ih =>
    obtain ⟨name, v⟩ := m
    rw [memberChars]
    have hms := ih fun m hm => h m (List.mem_cons_of_mem _ hm)
    exact .written (.next .nil .nil) (h _ List.mem_cons_self) hms

/-- The compact text of an object of plain values is one of its texts. -/
theorem document_render {ms : List (String × Json)}
    (h : ∀ m ∈ ms, Plain m.2) :
    Document (.object ms) (Json.object ms).render := by
  have hv : ∀ m ∈ ms, Spells (maxDepth - 1) m.2 m.2.chars :=
    fun m hm => .scalar (h m hm).spells _
  refine ⟨[], (Json.object ms).chars, [], .nil, ?_, .nil, by simp [render]⟩
  cases ms with
  | nil =>
    rw [chars]
    exact SpellsNested.object .closed
  | cons m ms =>
    obtain ⟨name, v⟩ := m
    rw [chars]
    have hms := members_memberChars fun m hm =>
      hv m (List.mem_cons_of_mem _ hm)
    exact SpellsNested.object
      (.written (.first .nil) (hv _ List.mem_cons_self) hms)

end DatabasePool.Json
