import DatabasePool.Snapshot

/-!
# Replies

What a command of a script is answered with.
-/

namespace DatabasePool

/-- What a holder can see of a connection. -/
structure Inspection where
  id : Nat
  /-- The number of the options it was opened with, in the order in which
  different options were shown. -/
  kind : Nat
  generation : Nat
  age : Nat
  idleTime : Nat
  heldFor : Nat
  valid : Bool
  closed : Bool
  autoCommit : Bool
  /-- Whether the connection itself is closed, and whether it commits by
  itself, as long as the holder may know. -/
  physical : Except Error (Bool × Bool)
  deriving Repr

namespace Inspection

/-- The fields that stand for a connection in a printout. -/
def fields (i : Inspection) : List (String × String) :=
  [("id", Text.numeral i.id), ("generation", Text.numeral i.generation),
   ("valid", Snapshot.flagText i.valid)]

/-- A connection printed on one line. -/
def line (i : Inspection) : String :=
  "PooledConnection \x7b " ++
    ", ".intercalate (i.fields.map fun (name, value) => name ++ ": " ++ value) ++
    " \x7d"

/-- A connection printed with one line for each field. -/
def lines (i : Inspection) : String :=
  "PooledConnection \x7b\n" ++
    String.join
      (i.fields.map fun (name, value) => "    " ++ name ++ ": " ++ value ++ ",\n") ++
    "\x7d"

end Inspection

/-- The reply to a command. -/
inductive Reply where
  | ok
  /-- The operation has not ended. -/
  | pending
  | cancelled
  /-- A connection was lent. -/
  | lent (id kind generation : Nat)
  | failed (e : Error)
  | refused (message : String)
  | beyond (o : Time.Overflow)
  | inspection (i : Inspection)
  | options (s : String)
  | config (c : Config)
  | snapshot (s : Snapshot)
  | metrics (m : Metrics)
  | nameInUse
  | noSuchConnection
  | noSuchTask
  /-- An operation on the connection is under way. -/
  | busy
  | badStep
  deriving Repr

end DatabasePool
