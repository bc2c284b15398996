import DatabasePool.Json.Numeral
import DatabasePool.Json.Quoted

/-!
# Reading JSON

The grammar of arrays and objects is written once, as loops over items and
members that leave to their caller what is done with each of them.

A value is read with one of two kinds of care.  Read strictly, its strings
and numbers have to be sound and its nesting is limited.  Read loosely, only
its shape counts.
-/

namespace DatabasePool.Json

/-! ## Items and members -/

/-- What stands before the next item of an array: `none` behind the closing
bracket, or the text from the item on. -/
def nextItem (first : Bool) (cs : List Char) :
    Except Fault (Bool × List Char) :=
  match skipBlank cs with
  | [] => .error .truncated
  | ']' :: rest => .ok (false, rest)
  | c :: rest =>
    if first then .ok (true, c :: rest)
    else if c = ',' then
      match skipBlank rest with
      | [] => .error .truncated
      | ']' :: _ => .error .malformed
      | rest => .ok (true, rest)
    else .error .malformed

/-- What stands before the next member of an object: the text behind the
opening quote of its name, or the text behind the closing brace. -/
def nextMember (first : Bool) (cs : List Char) :
    Except Fault (Bool × List Char) :=
  match skipBlank cs with
  | [] => .error .truncated
  | '}' :: rest => .ok (false, rest)
  | '"' :: rest => if first then .ok (true, rest) else .error .malformed
  | c :: rest =>
    if c = ',' && !first then
      match skipBlank rest with
      | [] => .error .truncated
      | '"' :: rest => .ok (true, rest)
      | _ => .error .malformed
    else .error .malformed

/-- Reads the colon between the name and the value of a member. -/
def colon (cs : List Char) : Except Fault (List Char) :=
  match skipBlank cs with
  | [] => .error .truncated
  | ':' :: rest => .ok rest
  | _ => .error .malformed

section
variable {σ : Type}

/-- Reads the items of an array from behind its opening bracket on, each with
`item`.  The number bounds the items; there are fewer than characters. -/
def itemLoop (item : σ → Scan σ) : Nat → Bool → σ → Scan σ
  | 0, _, _, _ => .error .truncated
  | n + 1, first, state, cs =>
    match nextItem first cs with
    | .error fault => .error fault
    | .ok (false, rest) => .ok (state, rest)
    | .ok (true, rest) =>
      match item state rest with
      | .error fault => .error fault
      | .ok (state, rest) => itemLoop item n false state rest

/-- Reads the members of an object from behind its opening brace on.  The
name is read with `name`, and `member` starts behind the name. -/
def memberLoop {ν : Type} (name : Scan ν) (member : σ → ν → Scan σ) :
    Nat → Bool → σ → Scan σ
  | 0, _, _, _ => .error .truncated
  | n + 1, first, state, cs =>
    match nextMember first cs with
    | .error fault => .error fault
    | .ok (false, rest) => .ok (state, rest)
    | .ok (true, rest) =>
      match name rest with
      | .error fault => .error fault
      | .ok (key, rest) =>
        match member state key rest with
        | .error fault => .error fault
        | .ok (state, rest) => memberLoop name member n false state rest

/-- Reads the items of an array. -/
def items (item : σ → Scan σ) (state : σ) : Scan σ := fun cs =>
  itemLoop item (cs.length + 1) true state cs

/-- Reads the members of an object. -/
def members {ν : Type} (name : Scan ν) (member : σ → ν → Scan σ)
    (state : σ) : Scan σ := fun cs =>
  memberLoop name member (cs.length + 1) true state cs

end

/-! ## Values -/

/-- Reads a value that is neither array nor object, which starts with the
character `c`. -/
def scalarFrom (c : Char) : Scan Json := fun cs =>
  if c = 'n' then literal .null ['u', 'l', 'l'] cs
  else if c = 't' then literal (.bool true) ['r', 'u', 'e'] cs
  else if c = 'f' then literal (.bool false) ['a', 'l', 's', 'e'] cs
  else if c = '"' then (readQuoted cs).map fun (s, rest) => (.string s, rest)
  else if c = '-' || c.isDigit then
    (readNumeral (c :: cs)).map fun (n, rest) => (.number n, rest)
  else .error .malformed

/-- Reads a value with at most `depth` levels of nesting. -/
def readValue (depth : Nat) : Scan Json := fun cs =>
  match skipBlank cs with
  | [] => .error .truncated
  | '[' :: cs =>
    match depth with
    | 0 => .error .malformed
    | depth + 1 =>
      let item (done : List Json) : Scan (List Json) := fun cs =>
        (readValue depth cs).map fun (v, rest) => (v :: done, rest)
      (items item [] cs).map fun (done, rest) => (.array done.reverse, rest)
  | '{' :: cs =>
    match depth with
    | 0 => .error .malformed
    | depth + 1 =>
      let member (done : List (String × Json)) (name : String) :
          Scan (List (String × Json)) := fun cs => do
        let cs ← colon cs
        let (v, rest) ← readValue depth cs
        .ok ((name, v) :: done, rest)
      (members readQuoted member [] cs).map fun (done, rest) =>
        (.object done.reverse, rest)
  | c :: cs => scalarFrom c cs

/-- Passes over a value that is neither array nor object. -/
def skipScalarFrom (c : Char) : Scan Unit := fun cs =>
  if c = 'n' then literal () ['u', 'l', 'l'] cs
  else if c = 't' then literal () ['r', 'u', 'e'] cs
  else if c = 'f' then literal () ['a', 'l', 's', 'e'] cs
  else if c = '"' then skipQuoted cs
  else if c = '-' || c.isDigit then skipNumeral (c :: cs)
  else .error .malformed

/-- Passes over a value with at most `depth` levels of nesting. -/
def skipLevels (depth : Nat) : Scan Unit := fun cs =>
  match skipBlank cs with
  | [] => .error .truncated
  | '[' :: cs =>
    match depth with
    | 0 => .error .malformed
    | depth + 1 => items (fun _ => skipLevels depth) () cs
  | '{' :: cs =>
    match depth with
    | 0 => .error .malformed
    | depth + 1 =>
      members skipQuoted (fun _ _ cs => colon cs >>= skipLevels depth) () cs
  | c :: cs => skipScalarFrom c cs

/-- Passes over a value, however deep it is nested: every level takes a
character. -/
def skipValue : Scan Unit := fun cs => skipLevels cs.length cs

/-! ## Documents -/

/-- The levels of nesting that are read strictly. -/
def maxDepth : Nat := 127

/-- Only blanks are left of a document. -/
def atEnd {α : Type} : α × List Char → Except Fault α
  | (value, rest) =>
    match skipBlank rest with
    | [] => .ok value
    | _ :: _ => .error .malformed

/-- Reads a document that is one value. -/
def parse (text : String) : Except Fault Json :=
  readValue maxDepth text.toList >>= atEnd

end DatabasePool.Json
