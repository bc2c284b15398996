import DatabasePool.Time.Text

/-!
# What the pool can refuse

The causes for which the pool refuses a request, and one text for each.
-/

namespace DatabasePool

/-- Why a request to the pool failed. -/
inductive Error where
  /-- No connection became free within the time to wait. -/
  | exhausted (wait : Nat)
  /-- Opening a connection took longer than the connect timeout. -/
  | timeout
  /-- The database refused, with its message. -/
  | refused (message : String)
  /-- This many connections in a row turned out bad. -/
  | allBad (count : Nat)
  /-- The connection was given back, or the pool took it back. -/
  | returned
  /-- The pool is shut down. -/
  | shutDown
  /-- A configuration was not accepted. -/
  | invalidConfig (reason : String)
  deriving DecidableEq, Repr

namespace Error

/-- The kinds of errors that a caller can tell apart. -/
inductive Kind where
  | exhausted
  | timeout
  | connection
  | connectionClosed
  | shutdown
  | invalidConfig
  deriving DecidableEq, Repr

/-- The kind of an error.  A refusal of the database and a run of bad
connections are of one kind. -/
def kind : Error → Kind
  | exhausted _ => .exhausted
  | timeout => .timeout
  | refused _ => .connection
  | allBad _ => .connection
  | returned => .connectionClosed
  | shutDown => .shutdown
  | invalidConfig _ => .invalidConfig

/-- The text that is shown for an error. -/
def message : Error → String
  | exhausted wait => "no connection became available within " ++ Time.text wait
  | timeout => "timeout while connecting"
  | refused message =>
    "failed to get a good connection to the database: " ++ message
  | allBad count =>
    "failed to get a good connection to the database: " ++
      Text.numeral count ++ " consecutive bad connections"
  | returned => "connection was already returned to the pool"
  | shutDown => "connection pool is shut down"
  | invalidConfig reason => "invalid pool configuration: " ++ reason

/-- The same request can succeed later. -/
def isRecoverable (e : Error) : Bool :=
  match e.kind with
  | .exhausted => true
  | .timeout => true
  | _ => false

end Error

end DatabasePool
