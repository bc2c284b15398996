/-!
# Decimal numerals

Numerals with leading zeros, and fractions written with the fewest digits
that are exact.
-/

namespace DatabasePool.Text

/-- The decimal numeral of a natural number. -/
def numeral (n : Nat) : String := toString n

/-- A text with zeros put in front until it is `width` characters long. -/
def padZeros (width : Nat) (text : String) : String :=
  String.ofList (List.replicate (width - text.length) '0') ++ text

/-- The numeral of `n` with at least `width` digits. -/
def paddedNumeral (width n : Nat) : String := padZeros width (numeral n)

/-- A text without the zeros that it ends in. -/
def dropTrailingZeros (text : String) : String :=
  String.ofList (text.toList.reverse.dropWhile (· == '0')).reverse

/-- The digits after a decimal point: `part` in units of `10 ^ -width`, with
the fewest digits that are exact.  A whole number has no fraction and no
point. -/
def fraction (width part : Nat) : String :=
  if part = 0 then "" else "." ++ dropTrailingZeros (paddedNumeral width part)

end DatabasePool.Text
