import DatabasePool.Config.Setting
import DatabasePool.Json.Read

/-!
# Decoding configurations

A whole configuration is read from an object.  The limits are checked as they
are read.  The other settings are laid aside with everything unknown, and they
are checked when the object has been read to its end.

Timeouts and a ping policy can also be read on their own.  Then each of their
settings is checked as it is read, everything unknown is passed over loosely,
and an array of the values in order is as good as an object.

In all of them a setting may be chosen only once.
-/

namespace DatabasePool

open Json (Scan Fault skipBlank)

namespace Choices

/-- The choices with one more, if it is the first one for its setting and its
value is of the right kind. -/
def add (cs : Choices) (s : Setting) (v : Json) : Except Fault Choices :=
  if cs.has s || !s.accepts v then .error .mismatch else .ok ((s, v) :: cs)

/-- Reads a value of the wrong kind: only a fault in its own text comes before
the mismatch, and an array or object is not looked into. -/
def wrongKind {α : Type} (c : Char) (cs : List Char) : Except Fault α :=
  if c = '[' || c = '{' then .error .mismatch
  else
    match Json.scalarFrom c cs with
    | .error fault => .error fault
    | .ok _ => .error .mismatch

/-- Reads the value of a setting and chooses it. -/
def scan (s : Setting) (cs : Choices) : Scan Choices := fun text =>
  match skipBlank text with
  | [] => .error .truncated
  | c :: text =>
    if c = '[' || c = '{' then .error .mismatch
    else
      match Json.scalarFrom c text with
      | .error fault => .error fault
      | .ok (v, rest) => (cs.add s v).map fun cs => (cs, rest)

/-- Reads the rest of a member whose name is that of a setting.  A second
choice is refused before its value is looked at. -/
def scanMember (s : Setting) (cs : Choices) : Scan Choices := fun text =>
  if cs.has s then .error .mismatch
  else Json.colon text >>= cs.scan s

/-- Makes the choices that were laid aside. -/
def addAll (cs : Choices) (aside : List (String × Json)) :
    Except Fault Choices :=
  aside.foldlM
    (fun cs (name, v) =>
      match Setting.ofName? name with
      | some s => cs.add s v
      | none => .ok cs)
    cs

end Choices

/-! ## Whole configurations -/

namespace Config

/-- A configuration that is being read. -/
structure Draft where
  /-- The limits read so far. -/
  chosen : Choices
  /-- All other members, the last one first. -/
  aside : List (String × Json)

/-- Reads the rest of a member of a configuration. -/
def scanMember (p : Draft) (name : String) : Scan Draft := fun text =>
  match (Setting.ofName? name).filter (· ∈ Setting.limits) with
  | some s =>
    (p.chosen.scanMember s text).map fun (cs, rest) =>
      ({ p with chosen := cs }, rest)
  | none => do
    let text ← Json.colon text
    let (v, rest) ← Json.readValue (Json.maxDepth - 1) text
    .ok ({ p with aside := (name, v) :: p.aside }, rest)

/-- Reads the choices for a configuration. -/
def scan : Scan Choices := fun text =>
  match skipBlank text with
  | [] => .error .truncated
  | '{' :: text => do
    let (p, rest) ← Json.members Json.readQuoted scanMember ⟨[], []⟩ text
    let cs ← p.chosen.addAll p.aside.reverse
    .ok (cs, rest)
  | c :: text => Choices.wrongKind c text

/-- Decodes a configuration. -/
def decode (text : String) : Except Fault Config := do
  let cs ← scan text.toList >>= Json.atEnd
  .ok (.ofChoices cs)

/-- Makes a configuration of a JSON value. -/
def ofJson : Json → Except Fault Config
  | .object members => do
    let cs ← Choices.addAll [] members
    .ok (.ofChoices cs)
  | _ => .error .mismatch

end Config

/-! ## Groups of settings on their own -/

namespace Choices

/-- Reads the rest of a member when only the settings of `group` count. -/
def scanGroupMember (group : List Setting) (cs : Choices) (name : String) :
    Scan Choices := fun text =>
  match (Setting.ofName? name).filter (· ∈ group) with
  | some s => cs.scanMember s text
  | none =>
    (Json.colon text >>= Json.skipValue).map fun (_, rest) => (cs, rest)

/-- Reads the items of an array as the values of settings in order. -/
def scanItems : List Setting → Bool → Choices → Scan Choices
  | [], _, cs, text =>
    match skipBlank text with
    | [] => .error .truncated
    | ']' :: rest => .ok (cs, rest)
    | _ => .error .malformed
  | s :: group, first, cs, text =>
    match Json.nextItem first text with
    | .error fault => .error fault
    | .ok (false, rest) => .ok (cs, rest)
    | .ok (true, rest) =>
      match cs.scan s rest with
      | .error fault => .error fault
      | .ok (cs, rest) => scanItems group false cs rest

/-- Reads choices for a group of settings. -/
def scanGroup (group : List Setting) : Scan Choices := fun text =>
  match skipBlank text with
  | [] => .error .truncated
  | '[' :: text => scanItems group true [] text
  | '{' :: text =>
    Json.members Json.readQuoted (scanGroupMember group) [] text
  | c :: text => wrongKind c text

/-- Decodes choices for a group of settings. -/
def decodeGroup (group : List Setting) (text : String) :
    Except Fault Choices :=
  scanGroup group text.toList >>= Json.atEnd

end Choices

/-- Decodes timeouts. -/
def Timeouts.decode (text : String) : Except Fault Timeouts :=
  (Choices.decodeGroup Setting.timeouts text).map .ofChoices

/-- Decodes a ping policy. -/
def PingPolicy.decode (text : String) : Except Fault PingPolicy :=
  (Choices.decodeGroup Setting.ping text).map .ofChoices

end DatabasePool
