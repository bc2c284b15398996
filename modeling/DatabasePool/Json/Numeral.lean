import DatabasePool.Json
import DatabasePool.Json.Fault
import DatabasePool.Time

/-!
# Numerals

A numeral is first taken apart into its sign, digits, fraction and exponent.
`skipNumeral` is content with that.  `readNumeral` also wants the number to
be one that double precision can hold.

The size is that of the number as it is computed from the digits: the leading
digits that fit a word, rounded to 53 bits, times a rounded power of ten.
-/

namespace DatabasePool.Json

/-- A numeral as it is written. -/
structure Numeral where
  negative : Bool
  /-- The digits before the point. -/
  whole : List Char
  /-- The digits after the point. -/
  fraction : Option (List Char)
  /-- The exponent: whether it is negative, and its digits. -/
  exponent : Option (Bool × List Char)
  deriving DecidableEq, Repr

/-- The fault of a digit that is not there. -/
def digitFault : List Char → Fault
  | [] => .truncated
  | _ :: _ => .malformed

/-- Reads one or more digits. -/
def digits : Scan (List Char) := fun cs =>
  match cs.span Char.isDigit with
  | ([], rest) => .error (digitFault rest)
  | (ds, rest) => .ok (ds, rest)

/-- Reads the digits before the point.  A zero stands alone. -/
def wholeDigits : Scan (List Char)
  | '0' :: c :: rest =>
    if c.isDigit then .error .malformed else .ok (['0'], c :: rest)
  | cs => digits cs

/-- Reads a point and the digits after it, if a point is there. -/
def fractionPart : Scan (Option (List Char))
  | '.' :: cs => (digits cs).map fun (ds, rest) => (some ds, rest)
  | cs => .ok (none, cs)

/-- Reads an exponent, if one is there. -/
def exponentPart : Scan (Option (Bool × List Char))
  | c :: cs =>
    if c = 'e' || c = 'E' then
      match cs with
      | '+' :: cs => (digits cs).map fun (ds, rest) => (some (false, ds), rest)
      | '-' :: cs => (digits cs).map fun (ds, rest) => (some (true, ds), rest)
      | cs => (digits cs).map fun (ds, rest) => (some (false, ds), rest)
    else .ok (none, c :: cs)
  | [] => .ok (none, [])

/-- Reads the parts of a numeral behind its sign. -/
def unsigned (negative : Bool) : Scan Numeral := fun cs => do
  let (whole, cs) ← wholeDigits cs
  let (fraction, cs) ← fractionPart cs
  let (exponent, cs) ← exponentPart cs
  .ok (⟨negative, whole, fraction, exponent⟩, cs)

/-- Reads the parts of a numeral. -/
def numeral : Scan Numeral
  | '-' :: cs => unsigned true cs
  | cs => unsigned false cs

/-! ## The number of a numeral -/

/-- The number that a row of digits denotes. -/
def digitsValue (ds : List Char) : Nat :=
  ds.foldl (fun n d => n * 10 + (d.toNat - 48)) 0

namespace Numeral

/-- The exponent of a numeral as a number. -/
def exponentValue (n : Numeral) : Int :=
  match n.exponent with
  | none => 0
  | some (false, ds) => digitsValue ds
  | some (true, ds) => -(digitsValue ds : Int)

/-- All digits of a numeral without its point. -/
def mantissaDigits (n : Numeral) : List Char := n.whole ++ n.fraction.getD []

/-- The number of a numeral.  It is a plain whole number when it has neither
fraction nor exponent, is not a negative zero, and fits 64 bits. -/
def value (n : Numeral) : Number :=
  let size := digitsValue n.mantissaDigits
  let plain := n.fraction.isNone && n.exponent.isNone
  let sign : Int := if n.negative then -1 else 1
  let fits :=
    if n.negative then 1 ≤ size && size ≤ 0x8000000000000000
    else decide (size ≤ wordMax)
  if plain && fits then .whole (sign * size)
  else .decimal (sign * size) (n.exponentValue - (n.fraction.getD []).length)

/-! ## Its size -/

/-- The digits before the point: the number of those that fit a word, and how
many more there are. -/
def leading : List Char → Nat → Nat × Nat
  | [], n => (n, 0)
  | d :: ds, n =>
    let m := n * 10 + (d.toNat - 48)
    if m ≤ wordMax then leading ds m else (n, ds.length + 1)

/-- The digits after the point, put behind the leading ones as long as the
number fits a word, and how many of them did. -/
def trailing : List Char → Nat → Nat → Nat × Nat
  | [], n, k => (n, k)
  | d :: ds, n, k =>
    let m := n * 10 + (d.toNat - 48)
    if m ≤ wordMax then trailing ds m (k + 1) else (n, k)

/-- A natural number rounded to 53 significant bits, half to even. -/
def roundBits (n : Nat) : Nat :=
  let excess := n.log2 + 1 - 53
  let unit := Nat.pow 2 excess
  let low := n / unit
  let rest := n % unit
  if 2 * rest < unit || (2 * rest = unit && low % 2 = 0) then low * unit
  else (low + 1) * unit

/-- From here on a number is rounded to infinity. -/
def infinityFrom : Nat := Nat.pow 2 1024 - Nat.pow 2 970

/-- The powers of ten that no word makes too large, up to this one. -/
def safePower : Int := 288

/-- The greatest power of ten that double precision can hold. -/
def maxPower : Int := 308

/-- The numeral denotes a number that double precision can hold. -/
def isFinite (n : Numeral) : Bool :=
  let (whole, more) := leading n.whole 0
  let (significand, taken) := trailing (n.fraction.getD []) whole 0
  let power : Int := n.exponentValue + more - taken
  if significand = 0 || power ≤ safePower then true
  else if maxPower < power then false
  else
    roundBits significand * roundBits (Nat.pow 10 power.toNat) < infinityFrom

end Numeral

/-- Reads a number. -/
def readNumeral : Scan Number := fun cs => do
  let (n, rest) ← numeral cs
  if n.isFinite then .ok (n.value, rest) else .error .malformed

/-- Passes over a number.  Whatever is missing, the numeral is malformed. -/
def skipNumeral : Scan Unit := fun cs =>
  match numeral cs with
  | .ok (_, rest) => .ok ((), rest)
  | .error _ => .error .malformed

end DatabasePool.Json
