import DatabasePool.Time

/-!
# The record of a connection

Who a connection is, and the moments in its life that count: when it was
opened, when it was last put to use, and since when it is on loan.
-/

namespace DatabasePool

/-- The record of a connection that was opened with options of type `κ`. -/
structure Record (κ : Type) where
  /-- The number of the connection within its pool. -/
  id : Nat
  /-- The options that it was opened with. -/
  options : κ
  /-- The generation of the pool in which its opening was decided. -/
  generation : Nat
  created : Nat
  lastUsed : Nat
  /-- Since when it is on loan, if it is. -/
  checkedOut : Option Nat
  deriving DecidableEq, Repr

namespace Record

variable {κ : Type}

/-- The record of a connection that is opened at `now`. -/
def fresh (id : Nat) (options : κ) (generation now : Nat) : Record κ :=
  { id, options, generation, created := now, lastUsed := now,
    checkedOut := none }

/-- The connection is on loan. -/
def isCheckedOut (r : Record κ) : Bool := r.checkedOut.isSome

/-- How long ago the connection was opened. -/
def age (r : Record κ) (now : Nat) : Nat := Time.elapsed r.created now

/-- How long ago the connection was last put to use. -/
def idleTime (r : Record κ) (now : Nat) : Nat := Time.elapsed r.lastUsed now

/-- How long the connection has been on loan: no time if it is not. -/
def heldFor (r : Record κ) (now : Nat) : Nat :=
  match r.checkedOut with
  | some since => Time.elapsed since now
  | none => 0

/-- The connection has been on loan for longer than `timeout`. -/
def isOverdue (r : Record κ) (timeout now : Nat) : Bool :=
  match r.checkedOut with
  | some since => decide (timeout < Time.elapsed since now)
  | none => false

/-- From when on the loan counts as overdue, if the connection is on loan: a
millisecond after `timeout` has passed. -/
def overdueAt (r : Record κ) (timeout : Nat) :
    Except Time.Overflow (Option Nat) :=
  match r.checkedOut with
  | some since => do
    let due ← Time.later since timeout
    let due ← Time.later due Time.perMilli
    .ok (some due)
  | none => .ok none

/-- The record of a connection that is lent at `now`. -/
def lend (r : Record κ) (now : Nat) : Record κ :=
  { r with checkedOut := some now }

/-- The record of a connection that comes back at `now`. -/
def giveBack (r : Record κ) (now : Nat) : Record κ :=
  { r with lastUsed := now, checkedOut := none }

/-- The record of a connection that is taken back from its holder.  It keeps
the moment at which it was last put to use. -/
def takeBack (r : Record κ) : Record κ := { r with checkedOut := none }

end Record

end DatabasePool
