import DatabasePool.Config
import DatabasePool.Json

/-!
# Settings

A configuration is written as nine settings in one flat object.  Spans are
written in whole milliseconds.  `Choices` are settings with values, and a
configuration is what they make of the usual one: a setting that is not chosen
keeps its usual value.
-/

namespace DatabasePool

/-- The settings of a configuration, in the order in which they are written. -/
inductive Setting where
  | maxActive
  | maxIdle
  | badTolerance
  | checkout
  | wait
  | connect
  | pingEnabled
  | pingQuery
  | pingNotUsedFor
  deriving DecidableEq, Repr

namespace Setting

/-- All settings, in the order in which they are written. -/
def all : List Setting :=
  [maxActive, maxIdle, badTolerance, checkout, wait, connect, pingEnabled,
   pingQuery, pingNotUsedFor]

/-- The settings of the limits. -/
def limits : List Setting := [maxActive, maxIdle, badTolerance]

/-- The settings of the timeouts. -/
def timeouts : List Setting := [checkout, wait, connect]

/-- The settings of the ping policy. -/
def ping : List Setting := [pingEnabled, pingQuery, pingNotUsedFor]

/-- The name under which a setting is written. -/
def name : Setting → String
  | maxActive => "maxActive"
  | maxIdle => "maxIdle"
  | badTolerance => "badConnectionTolerance"
  | checkout => "maxCheckoutTime"
  | wait => "timeToWait"
  | connect => "connectTimeout"
  | pingEnabled => "pingEnabled"
  | pingQuery => "pingQuery"
  | pingNotUsedFor => "pingNotUsedFor"

/-- The setting with the given name. -/
def ofName? (s : String) : Option Setting := all.find? (·.name == s)

/-- What kind of value a setting takes. -/
inductive Kind where
  /-- A whole number from 0 up to the given one. -/
  | upTo (limit : Nat)
  /-- True or false. -/
  | flag
  /-- Any string. -/
  | text
  deriving DecidableEq, Repr

/-- The kind of value that a setting takes. -/
def kind : Setting → Kind
  | badTolerance => .upTo halfWordMax
  | pingEnabled => .flag
  | pingQuery => .text
  | _ => .upTo wordMax

/-- The value is of the kind. -/
def Kind.accepts : Kind → Json → Bool
  | .upTo limit, .number (.whole n) => 0 ≤ n && n ≤ limit
  | .flag, .bool _ => true
  | .text, .string _ => true
  | _, _ => false

/-- The value is one that the setting can take. -/
def accepts (s : Setting) (v : Json) : Bool := s.kind.accepts v

theorem ofName?_name (s : Setting) : ofName? s.name = some s := by
  cases s <;> decide

theorem mem_all (s : Setting) : s ∈ all := by cases s <;> decide

end Setting

/-- Settings with the values chosen for them. -/
abbrev Choices := List (Setting × Json)

namespace Choices

/-- The value chosen for a setting. -/
def value? (cs : Choices) (s : Setting) : Option Json :=
  (cs.find? (·.1 == s)).map (·.2)

/-- A value is chosen for the setting. -/
def has (cs : Choices) (s : Setting) : Bool := cs.any (·.1 == s)

/-- The number chosen for a setting, or else `usual`. -/
def nat (cs : Choices) (s : Setting) (usual : Nat) : Nat :=
  match cs.value? s with
  | some (.number (.whole n)) => n.toNat
  | _ => usual

/-- The span chosen for a setting, or else `usual`. -/
def span (cs : Choices) (s : Setting) (usual : Nat) : Nat :=
  match cs.value? s with
  | some (.number (.whole n)) => Time.ofMillis n.toNat
  | _ => usual

/-- The flag chosen for a setting, or else `usual`. -/
def flag (cs : Choices) (s : Setting) (usual : Bool) : Bool :=
  match cs.value? s with
  | some (.bool b) => b
  | _ => usual

/-- The string chosen for a setting, or else `usual`. -/
def text (cs : Choices) (s : Setting) (usual : String) : String :=
  match cs.value? s with
  | some (.string t) => t
  | _ => usual

/-- The object that has the choices as its members. -/
def toJson (cs : Choices) : Json :=
  .object (cs.map fun (s, v) => (s.name, v))

end Choices

namespace Timeouts

/-- The usual timeouts with the choices made. -/
def ofChoices (cs : Choices) : Timeouts :=
  let usual : Timeouts := {}
  { checkout := cs.span .checkout usual.checkout
    wait := cs.span .wait usual.wait
    connect := cs.span .connect usual.connect }

/-- The timeouts as choices. -/
def choices (t : Timeouts) : Choices :=
  [(.checkout, .nat (Time.wordMillis t.checkout)),
   (.wait, .nat (Time.wordMillis t.wait)),
   (.connect, .nat (Time.wordMillis t.connect))]

end Timeouts

namespace PingPolicy

/-- The usual ping policy with the choices made. -/
def ofChoices (cs : Choices) : PingPolicy :=
  let usual : PingPolicy := {}
  { enabled := cs.flag .pingEnabled usual.enabled
    query := cs.text .pingQuery usual.query
    notUsedFor := cs.span .pingNotUsedFor usual.notUsedFor }

/-- The ping policy as choices. -/
def choices (p : PingPolicy) : Choices :=
  [(.pingEnabled, .bool p.enabled),
   (.pingQuery, .string p.query),
   (.pingNotUsedFor, .nat (Time.wordMillis p.notUsedFor))]

end PingPolicy

namespace Config

/-- The usual configuration with the choices made. -/
def ofChoices (cs : Choices) : Config :=
  let usual : Config := {}
  { maxActive := cs.nat .maxActive usual.maxActive
    maxIdle := cs.nat .maxIdle usual.maxIdle
    badTolerance := cs.nat .badTolerance usual.badTolerance
    timeouts := .ofChoices cs
    ping := .ofChoices cs }

/-- A configuration as choices: every setting, in order. -/
def choices (c : Config) : Choices :=
  [(.maxActive, .nat c.maxActive),
   (.maxIdle, .nat c.maxIdle),
   (.badTolerance, .nat c.badTolerance)] ++
    c.timeouts.choices ++ c.ping.choices

/-- A configuration as a JSON object. -/
def toJson (c : Config) : Json := c.choices.toJson

end Config

end DatabasePool
