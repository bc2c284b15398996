import DatabasePool.Json.Read

/-!
# The grammar of JSON

Which texts are JSON and what values they denote, said without a reader.  A
value can be spelled in many ways: with blanks between its parts, with
escapes, and with its members in the order in which it holds them.

The grammar has the limits of strict reading: surrogates come in pairs,
numbers are such that double precision can hold them, and nesting is bounded.

* `SpellsChar`, `SpellsNumeral` and `SpellsScalar` are the parts of a text
  that have no parts of their own.
* `Items` and `Members` are arrays and objects from behind the opening bracket
  on, over any way to spell what is in them.
* `Spells` puts them together, with the levels of nesting that are allowed.
* `Document` is a whole text.
-/

namespace DatabasePool.Json

/-! ## Blanks -/

/-- There is nothing but blanks. -/
def AllBlank (cs : List Char) : Prop := ∀ c ∈ cs, isBlank c = true

/-- What stands before an item or a member: blanks, and among them a comma
unless it is the first one. -/
inductive Lead : Bool → List Char → Prop where
  | first {bs : List Char} (hb : AllBlank bs) : Lead true bs
  | next {bs bs' : List Char} (hb : AllBlank bs) (hb' : AllBlank bs') :
      Lead false (bs ++ ',' :: bs')

/-! ## Strings -/

/-- The ways to write a character in a string. -/
inductive SpellsChar (x : Char) : List Char → Prop where
  /-- As it is. -/
  | plain (hctl : 32 ≤ x.toNat) (hquote : x ≠ '"') (hslash : x ≠ '\\') :
      SpellsChar x [x]
  /-- As an escape of one letter. -/
  | short {e : Char} (he : shortEscape? e = some x) : SpellsChar x ['\\', e]
  /-- As the four digits of its number. -/
  | unit {a b c d : Char} (hx : hexFour? a b c d = some x.toNat) :
      SpellsChar x ['\\', 'u', a, b, c, d]
  /-- As a pair of surrogates. -/
  | pair {a b c d a' b' c' d' : Char} {high low : Nat}
      (hhigh : hexFour? a b c d = some high)
      (hlow : hexFour? a' b' c' d' = some low)
      (hhigh' : 0xD800 ≤ high ∧ high ≤ 0xDBFF)
      (hlow' : 0xDC00 ≤ low ∧ low ≤ 0xDFFF)
      (hx : x.toNat = (high - 0xD800) * 0x400 + (low - 0xDC00) + 0x10000) :
      SpellsChar x ['\\', 'u', a, b, c, d, '\\', 'u', a', b', c', d']

/-- The ways to write characters in a string, one after the other. -/
inductive SpellsChars : List Char → List Char → Prop where
  | nil : SpellsChars [] []
  | cons {x : Char} {xs text rest : List Char} (hx : SpellsChar x text)
      (hxs : SpellsChars xs rest) : SpellsChars (x :: xs) (text ++ rest)

/-! ## Numbers -/

/-- There are digits, and nothing else. -/
structure IsDigits (ds : List Char) : Prop where
  ne_nil : ds ≠ []
  isDigit : ∀ d ∈ ds, d.isDigit = true

/-- The ways to write the fraction of a numeral. -/
inductive SpellsFraction : Option (List Char) → List Char → Prop where
  | none : SpellsFraction none []
  | some {ds : List Char} (hds : IsDigits ds) :
      SpellsFraction (some ds) ('.' :: ds)

/-- The ways to write the exponent of a numeral. -/
inductive SpellsExponent : Option (Bool × List Char) → List Char → Prop where
  | none : SpellsExponent none []
  | bare {e : Char} {ds : List Char} (he : e = 'e' ∨ e = 'E')
      (hds : IsDigits ds) : SpellsExponent (some (false, ds)) (e :: ds)
  | plus {e : Char} {ds : List Char} (he : e = 'e' ∨ e = 'E')
      (hds : IsDigits ds) : SpellsExponent (some (false, ds)) (e :: '+' :: ds)
  | minus {e : Char} {ds : List Char} (he : e = 'e' ∨ e = 'E')
      (hds : IsDigits ds) : SpellsExponent (some (true, ds)) (e :: '-' :: ds)

/-- The ways to write a numeral.  It does not begin with a zero that could be
left out. -/
inductive SpellsNumeral (n : Numeral) : List Char → Prop where
  | mk {fraction exponent : List Char} (hwhole : IsDigits n.whole)
      (hzero : n.whole.head? = some '0' → n.whole = ['0'])
      (hfraction : SpellsFraction n.fraction fraction)
      (hexponent : SpellsExponent n.exponent exponent) :
      SpellsNumeral n ((if n.negative then ['-'] else []) ++
        (n.whole ++ (fraction ++ exponent)))

/-! ## Values -/

/-- The ways to write a value that is neither array nor object. -/
inductive SpellsScalar : Json → List Char → Prop where
  | null : SpellsScalar .null ['n', 'u', 'l', 'l']
  | true : SpellsScalar (.bool true) ['t', 'r', 'u', 'e']
  | false : SpellsScalar (.bool false) ['f', 'a', 'l', 's', 'e']
  | number {n : Numeral} {text : List Char} (hn : SpellsNumeral n text)
      (hfinite : n.isFinite = Bool.true) : SpellsScalar (.number n.value) text
  | string {s : String} {inner : List Char} (hs : SpellsChars s.toList inner) :
      SpellsScalar (.string s) ('"' :: (inner ++ ['"']))

section
variable (R : Json → List Char → Prop)

/-- The ways to write the items of an array from behind its opening bracket
on, or from behind one of the items on. -/
inductive Items : Bool → List Json → List Char → Prop where
  | close {first : Bool} {bs : List Char} (hb : AllBlank bs) :
      Items first [] (bs ++ [']'])
  | item {first : Bool} {v : Json} {vs : List Json}
      {lead text rest : List Char} (hlead : Lead first lead) (hv : R v text)
      (hvs : Items false vs rest) :
      Items first (v :: vs) (lead ++ (text ++ rest))

/-- The ways to write the members of an object from behind its opening brace
on, or from behind one of the members on. -/
inductive Members : Bool → List (String × Json) → List Char → Prop where
  | close {first : Bool} {bs : List Char} (hb : AllBlank bs) :
      Members first [] (bs ++ ['}'])
  | member {first : Bool} {name : String} {v : Json}
      {ms : List (String × Json)} {lead inner bs bs' text rest : List Char}
      (hlead : Lead first lead) (hname : SpellsChars name.toList inner)
      (hb : AllBlank bs) (hb' : AllBlank bs') (hv : R v text)
      (hms : Members false ms rest) :
      Members first ((name, v) :: ms)
        (lead ++ '"' :: (inner ++ '"' :: (bs ++ ':' ::
          (bs' ++ (text ++ rest)))))

/-- The ways to write a value, over the ways to write what is in it. -/
inductive SpellsNested : Json → List Char → Prop where
  | scalar {v : Json} {text : List Char} (hv : SpellsScalar v text) :
      SpellsNested v text
  | array {items : List Json} {text : List Char}
      (hitems : Items R true items text) :
      SpellsNested (.array items) ('[' :: text)
  | object {members : List (String × Json)} {text : List Char}
      (hmembers : Members R true members text) :
      SpellsNested (.object members) ('{' :: text)

end

/-- The ways to write a value with at most so many levels of nesting. -/
def Spells : Nat → Json → List Char → Prop
  | 0 => SpellsScalar
  | depth + 1 => SpellsNested (Spells depth)

/-- The text is that of the value, perhaps with blanks around it. -/
def Document (v : Json) (text : String) : Prop :=
  ∃ bs inner bs', AllBlank bs ∧ Spells maxDepth v inner ∧ AllBlank bs' ∧
    text.toList = bs ++ (inner ++ bs')

/-! ## What a spelled value begins with -/

/-- A value begins with this character or with none: it is neither a blank nor
the end of an array. -/
def Begins (c : Char) : Prop := isBlank c = false ∧ c ≠ ']'

theorem begins_digit {c : Char} (h : c.isDigit = true) : Begins c := by
  refine ⟨?_, ?_⟩
  · refine Bool.eq_false_iff.2 fun hb => ?_
    simp only [isBlank, Bool.or_eq_true, decide_eq_true_eq] at hb
    rcases hb with ((rfl | rfl) | rfl) | rfl <;> cases h
  · rintro rfl
    cases h

theorem SpellsNumeral.begins {n : Numeral} {text : List Char}
    (h : SpellsNumeral n text) :
    ∃ c cs, text = c :: cs ∧ (c = '-' ∨ c.isDigit = true) := by
  cases h with
  | @mk fraction exponent hwhole hzero hfraction hexponent =>
    obtain ⟨d, ds, hds⟩ := List.exists_cons_of_ne_nil hwhole.ne_nil
    rw [hds]
    cases n.negative with
    | true => exact ⟨'-', _, rfl, .inl rfl⟩
    | false =>
      exact ⟨d, _, rfl, .inr (hwhole.isDigit d (hds ▸ List.mem_cons_self))⟩

theorem SpellsScalar.begins {v : Json} {text : List Char}
    (h : SpellsScalar v text) : ∃ c cs, text = c :: cs ∧ Begins c := by
  cases h with
  | null | true | false | string => exact ⟨_, _, rfl, by decide, by decide⟩
  | number hn =>
    obtain ⟨c, cs, he, rfl | hc⟩ := hn.begins
    · exact ⟨'-', cs, he, by decide, by decide⟩
    · exact ⟨c, cs, he, begins_digit hc⟩

theorem Spells.begins {depth : Nat} {v : Json} {text : List Char}
    (h : Spells depth v text) : ∃ c cs, text = c :: cs ∧ Begins c := by
  cases depth with
  | zero => exact SpellsScalar.begins h
  | succ depth =>
    cases h with
    | scalar hv => exact hv.begins
    | array | object => exact ⟨_, _, rfl, by decide, by decide⟩

/-! ## How deep a value is nested -/

theorem Spells.scalar {v : Json} {text : List Char} (h : SpellsScalar v text)
    (depth : Nat) : Spells depth v text := by
  cases depth with
  | zero => exact h
  | succ depth => exact SpellsNested.scalar h

section
variable {R R' : Json → List Char → Prop} {first : Bool} {text : List Char}

/-- Whatever is in an array is spelled in a part of its text. -/
theorem Items.imp {vs : List Json} (h : Items R first vs text)
    (himp : ∀ {v : Json} {part : List Char}, part.length ≤ text.length →
      R v part → R' v part) : Items R' first vs text := by
  induction h with
  | close hb => exact .close hb
  | item hlead hv _ ih =>
    refine .item hlead (himp ?_ hv) (ih fun hle => himp ?_)
    · simp only [List.length_append]
      omega
    · simp only [List.length_append]
      omega

/-- Whatever is in an object is spelled in a part of its text. -/
theorem Members.imp {ms : List (String × Json)} (h : Members R first ms text)
    (himp : ∀ {v : Json} {part : List Char}, part.length ≤ text.length →
      R v part → R' v part) : Members R' first ms text := by
  induction h with
  | close hb => exact .close hb
  | member hlead hname hb hb' hv _ ih =>
    refine .member hlead hname hb hb' (himp ?_ hv) (ih fun hle => himp ?_)
    · simp only [List.length_append, List.length_cons]
      omega
    · simp only [List.length_append, List.length_cons]
      omega

end

/-- Every level of nesting takes a character. -/
theorem Spells.of_length {depth n : Nat} {v : Json} {text : List Char}
    (h : Spells depth v text) (hle : text.length ≤ n) : Spells n v text := by
  induction depth generalizing n v text with
  | zero => exact .scalar h n
  | succ depth ih =>
    cases h with
    | scalar hv => exact .scalar hv n
    | array hitems =>
      obtain ⟨n, rfl⟩ := Nat.exists_eq_add_one_of_ne_zero
        (Nat.ne_of_gt (Nat.lt_of_lt_of_le (Nat.succ_pos _) hle))
      have hle := Nat.le_of_succ_le_succ hle
      exact .array (hitems.imp fun hpart hv => ih hv (Nat.le_trans hpart hle))
    | object hmembers =>
      obtain ⟨n, rfl⟩ := Nat.exists_eq_add_one_of_ne_zero
        (Nat.ne_of_gt (Nat.lt_of_lt_of_le (Nat.succ_pos _) hle))
      have hle := Nat.le_of_succ_le_succ hle
      refine .object (hmembers.imp fun hpart hv => ?_)
      exact ih hv (Nat.le_trans hpart hle)

end DatabasePool.Json
