import DatabasePool.Json.Fault

/-!
# Strings in quotes

A string is first taken apart into pieces, each a character or one code unit
that was written as four hexadecimal digits.  The pieces are then put
together: a high and a low surrogate are one character, and a surrogate
without its partner is no character at all.

`skipQuoted` only looks for the end of the string, so a lone surrogate does
not trouble it.  `readQuoted` also puts the pieces together.  If both a lone
surrogate and a broken end are there, the one that comes first decides.
-/

namespace DatabasePool.Json

/-- One part of a string. -/
inductive Piece where
  /-- A character, as it is or as a short escape. -/
  | char (c : Char)
  /-- A code unit of sixteen bits. -/
  | unit (n : Nat)
  deriving DecidableEq, Repr

/-- The value of a hexadecimal digit. -/
def hexValue? (c : Char) : Option Nat :=
  if '0' ≤ c ∧ c ≤ '9' then some (c.toNat - 48)
  else if 'a' ≤ c ∧ c ≤ 'f' then some (c.toNat - 87)
  else if 'A' ≤ c ∧ c ≤ 'F' then some (c.toNat - 55)
  else none

/-- The value of four hexadecimal digits. -/
def hexFour? (a b c d : Char) : Option Nat := do
  let a ← hexValue? a
  let b ← hexValue? b
  let c ← hexValue? c
  let d ← hexValue? d
  some (((a * 16 + b) * 16 + c) * 16 + d)

/-- The character that a backslash and this character stand for. -/
def shortEscape? (c : Char) : Option Char :=
  if c = '"' then some '"'
  else if c = '\\' then some '\\'
  else if c = '/' then some '/'
  else if c = 'b' then some (Char.ofNat 8)
  else if c = 'f' then some (Char.ofNat 12)
  else if c = 'n' then some '\n'
  else if c = 'r' then some '\r'
  else if c = 't' then some '\t'
  else none

/-- The number of bytes of a text in UTF-8. -/
def byteCount (cs : List Char) : Nat :=
  cs.foldl (fun n c => n + c.utf8Size) 0

/-- The fault of four hexadecimal digits that are not there: the text is too
short to hold four bytes, or it holds something else. -/
def hexFault (cs : List Char) : Fault :=
  if byteCount cs < 4 then .truncated else .malformed

/-- The pieces of a string from behind its opening quote on, and the text
behind its closing quote or the fault that keeps it from being closed. -/
def pieces : List Char → List Piece × Except Fault (List Char)
  | [] => ([], .error .truncated)
  | '"' :: cs => ([], .ok cs)
  | '\\' :: [] => ([], .error .truncated)
  | '\\' :: 'u' :: a :: b :: c :: d :: cs =>
    match hexFour? a b c d with
    | none => ([], .error .malformed)
    | some n =>
      let (ps, ending) := pieces cs
      (.unit n :: ps, ending)
  | '\\' :: 'u' :: cs => ([], .error (hexFault cs))
  | '\\' :: e :: cs =>
    match shortEscape? e with
    | none => ([], .error .malformed)
    | some c =>
      let (ps, ending) := pieces cs
      (.char c :: ps, ending)
  | c :: cs =>
    if c.toNat < 32 then ([], .error .malformed)
    else
      let (ps, ending) := pieces cs
      (.char c :: ps, ending)

/-- The unit is the first half of a pair. -/
def isHigh (n : Nat) : Bool := 0xD800 ≤ n && n ≤ 0xDBFF

/-- The unit is the second half of a pair. -/
def isLow (n : Nat) : Bool := 0xDC00 ≤ n && n ≤ 0xDFFF

/-- The character of a pair of surrogates. -/
def pairChar (high low : Nat) : Char :=
  Char.ofNat ((high - 0xD800) * 0x400 + (low - 0xDC00) + 0x10000)

/-- What pieces make when they are put together. -/
inductive Joined where
  /-- These characters. -/
  | whole (cs : List Char)
  /-- The last piece is the first half of a pair. -/
  | dangling
  /-- Some surrogate has no partner. -/
  | broken
  deriving DecidableEq, Repr

/-- The joined pieces with one more character in front. -/
def Joined.cons (c : Char) : Joined → Joined
  | .whole cs => .whole (c :: cs)
  | j => j

/-- Puts pieces together. -/
def join : List Piece → Joined
  | [] => .whole []
  | .char c :: ps => (join ps).cons c
  | [.unit n] =>
    if isLow n then .broken
    else if isHigh n then .dangling
    else .whole [Char.ofNat n]
  | .unit n :: .unit m :: ps =>
    if isLow n then .broken
    else if isHigh n then
      if isLow m then (join ps).cons (pairChar n m) else .broken
    else (join (.unit m :: ps)).cons (Char.ofNat n)
  | .unit n :: .char c :: ps =>
    if isLow n || isHigh n then .broken
    else (join (.char c :: ps)).cons (Char.ofNat n)

/-- Reads a string from behind its opening quote on. -/
def readQuoted : Scan String := fun cs =>
  let (ps, ending) := pieces cs
  match join ps, ending with
  | .whole text, .ok rest => .ok (String.ofList text, rest)
  | .whole _, .error fault => .error fault
  | .dangling, .ok _ => .error .malformed
  | .dangling, .error fault => .error fault
  | .broken, _ => .error .malformed

/-- Passes over a string from behind its opening quote on. -/
def skipQuoted : Scan Unit := fun cs =>
  (pieces cs).2.map fun rest => ((), rest)

end DatabasePool.Json
