/-!
# Why a text cannot be decoded

Decoding goes through a text from its first character on, and the first
problem decides.
-/

namespace DatabasePool.Json

/-- What is wrong with a text. -/
inductive Fault where
  /-- The text ends inside a value, or before one. -/
  | truncated
  /-- The text is not JSON, or it goes beyond what is read as JSON. -/
  | malformed
  /-- The text is JSON of another shape than the one asked for. -/
  | mismatch
  deriving DecidableEq, Repr

/-- A way to read one thing from the front of a text: the thing and the rest
of the text, or what is wrong. -/
abbrev Scan (α : Type) := List Char → Except Fault (α × List Char)

/-- The characters that may stand between the parts of a JSON text. -/
def isBlank (c : Char) : Bool :=
  c = ' ' || c = '\n' || c = '\t' || c = '\r'

/-- The text from its first character that is no blank. -/
def skipBlank (cs : List Char) : List Char := cs.dropWhile isBlank

/-- Reads the letters that are left of a literal word. -/
def literal {α : Type} (value : α) : List Char → Scan α
  | [], cs => .ok (value, cs)
  | _ :: _, [] => .error .truncated
  | e :: es, c :: cs =>
    if c = e then literal value es cs else .error .malformed

end DatabasePool.Json
