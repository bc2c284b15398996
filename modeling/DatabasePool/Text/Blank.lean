/-!
# Blank text

A text is blank when all its characters are white space.  White space is the
Unicode property `White_Space`, not the few characters that ASCII has.
-/

namespace DatabasePool.Text

/-- The code points with the property `White_Space`, as ranges. -/
def blankRanges : List (Nat × Nat) :=
  [(0x09, 0x0D), (0x20, 0x20), (0x85, 0x85), (0xA0, 0xA0), (0x1680, 0x1680),
   (0x2000, 0x200A), (0x2028, 0x2029), (0x202F, 0x202F), (0x205F, 0x205F),
   (0x3000, 0x3000)]

/-- The character is white space. -/
def isBlankChar (c : Char) : Bool :=
  blankRanges.any fun (low, high) => low ≤ c.toNat && c.toNat ≤ high

/-- The text has nothing but white space in it. -/
def isBlank (text : String) : Bool := text.toList.all isBlankChar

end DatabasePool.Text
