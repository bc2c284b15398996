import DatabasePool.Text.Decimal

/-!
# JSON values and their compact text

The value type, and the one text that a value is written as: no blanks,
members in the order they are held, and only those characters escaped that a
string may not hold as they are.
-/

namespace DatabasePool

/-- A JSON number.  A whole number of at most 64 bits that was written as
plain digits is told apart from all others. -/
inductive Number where
  /-- A plain whole number. -/
  | whole (value : Int)
  /-- `mantissa * 10 ^ exponent`, written with a point or an exponent, with
  too many digits for a word, or as a negative zero. -/
  | decimal (mantissa exponent : Int)
  deriving DecidableEq, Repr

/-- A JSON value.  An object holds its members in order, repeated names
included. -/
inductive Json where
  | null
  | bool (b : Bool)
  | number (n : Number)
  | string (s : String)
  | array (items : List Json)
  | object (members : List (String × Json))
  deriving Repr

namespace Json

/-- A plain whole number. -/
def nat (n : Nat) : Json := .number (.whole n)

/-! ## Looking into a value -/

/-- The last member of an object that has the given name. -/
def member? (name : String) : Json → Option Json
  | .object members => (members.reverse.find? (·.1 == name)).map (·.2)
  | _ => none

/-- The plain whole number that a value is. -/
def int? : Json → Option Int
  | .number (.whole n) => some n
  | _ => none

/-- The natural number that a value is. -/
def nat? (v : Json) : Option Nat :=
  v.int?.bind fun n => if 0 ≤ n then some n.toNat else none

/-- The flag that a value is. -/
def bool? : Json → Option Bool
  | .bool b => some b
  | _ => none

/-- The string that a value is. -/
def string? : Json → Option String
  | .string s => some s
  | _ => none

/-- The items of the array that a value is. -/
def array? : Json → Option (List Json)
  | .array items => some items
  | _ => none

/-! ## Writing -/

/-- The hexadecimal digit of a number below sixteen. -/
def hexDigit (n : Nat) : Char :=
  if n < 10 then Char.ofNat (48 + n) else Char.ofNat (87 + n)

/-- A character as it stands in a string: a quote, a backslash and the
characters below the space are escaped, all others stand for themselves. -/
def escapeChar (c : Char) : List Char :=
  if c = '"' then ['\\', '"']
  else if c = '\\' then ['\\', '\\']
  else if c.toNat = 8 then ['\\', 'b']
  else if c = '\t' then ['\\', 't']
  else if c = '\n' then ['\\', 'n']
  else if c.toNat = 12 then ['\\', 'f']
  else if c = '\r' then ['\\', 'r']
  else if c.toNat < 32 then
    ['\\', 'u', '0', '0', hexDigit (c.toNat / 16), hexDigit (c.toNat % 16)]
  else [c]

/-- A string between its quotes. -/
def quoted (s : String) : List Char :=
  '"' :: s.toList.flatMap escapeChar ++ ['"']

/-- The digits of a number. -/
def numberChars : Number → List Char
  | .whole value => (toString value).toList
  | .decimal mantissa exponent =>
    (toString mantissa).toList ++ 'e' :: (toString exponent).toList

mutual

/-- The text of a value. -/
def chars : Json → List Char
  | .null => "null".toList
  | .bool true => "true".toList
  | .bool false => "false".toList
  | .number n => numberChars n
  | .string s => quoted s
  | .array [] => ['[', ']']
  | .array (item :: items) => '[' :: chars item ++ itemChars items
  | .object [] => ['{', '}']
  | .object ((name, value) :: members) =>
    '{' :: quoted name ++ ':' :: chars value ++ memberChars members

/-- The rest of an array after one of its items. -/
def itemChars : List Json → List Char
  | [] => [']']
  | item :: items => ',' :: chars item ++ itemChars items

/-- The rest of an object after one of its members. -/
def memberChars : List (String × Json) → List Char
  | [] => ['}']
  | (name, value) :: members =>
    ',' :: quoted name ++ ':' :: chars value ++ memberChars members

end

/-- The compact text of a value. -/
def render (v : Json) : String := String.ofList v.chars

end Json

end DatabasePool
