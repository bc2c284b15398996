import DatabasePool.Config
import DatabasePool.Metrics
import DatabasePool.Record
import DatabasePool.Unordered

/-!
# The pool

Which connections the pool keeps, which ones it has lent, and how many slots
are taken by connections that are being opened, tried, rolled back or closed
and so are in neither list.  A slot counts against `maxActive` just as a loan
does.

Every operation here is one that happens at once.  `Pool.offer` decides how a
request goes on, `Pool.lend?` ends a request with a loan, `Pool.takeLoan?` ends
a loan, and `Pool.store?` keeps a connection for later.
-/

namespace DatabasePool

/-- A connection in the hands of the pool: which one, and its record. -/
structure Entry where
  /-- The number of the physical connection. -/
  conn : Nat
  record : Record String
  deriving DecidableEq, Repr

/-- A connection on loan.  The lease tells this loan from all others. -/
structure Loan where
  entry : Entry
  lease : Nat
  deriving DecidableEq, Repr

/-- How long a loan has lasted. -/
def Loan.heldFor (now : Nat) (l : Loan) : Nat := l.entry.record.heldFor now

/-- Who has which connection. -/
structure Pool where
  /-- The connections kept for later, the one that came back last in front. -/
  idle : List Entry := []
  /-- The connections on loan. -/
  active : List Loan := []
  /-- The slots taken by connections that are in neither list. -/
  inFlight : Nat := 0
  /-- How often all connections have been declared out of date. -/
  generation : Nat := 0
  /-- The options that connections have to be opened with. -/
  options : String
  shutDown : Bool := false
  metrics : Metrics := {}
  /-- The number of the connection numbered last. -/
  lastId : Nat := 0
  deriving DecidableEq, Repr

namespace Pool

/-! ## Slots -/

/-- A slot is taken. -/
def reserve (p : Pool) : Pool := { p with inFlight := p.inFlight + 1 }

/-- A slot is given back. -/
def free (p : Pool) : Pool := { p with inFlight := p.inFlight - 1 }

/-- There is room for one more connection. -/
def hasRoom (maxActive : Nat) (p : Pool) : Bool :=
  p.active.length + p.inFlight < maxActive

/-- The connection was opened with the options and in the generation of the
pool as it is now. -/
def isCurrent (p : Pool) (r : Record String) : Bool :=
  !p.shutDown && r.generation = p.generation && r.options = p.options

/-! ## Loans -/

/-- The loan with the given lease, and the pool without it. -/
def takeLoan? (lease : Nat) (p : Pool) : Option (Loan × Pool) := do
  let i ← p.active.findIdx? (·.lease == lease)
  let loan ← p.active[i]?
  some (loan, { p with active := removeFilling p.active i })

/-- The loan that has lasted longest, and the pool without it, if that loan
has lasted longer than `timeout`. -/
def takeOverdue? (timeout now : Nat) (p : Pool) : Option (Loan × Pool) := do
  let (i, loan) ← lastMax? (Loan.heldFor now) p.active
  if loan.entry.record.isOverdue timeout now then
    some (loan, { p with active := removeFilling p.active i })
  else none

/-- The first moment at which some loan counts as overdue, if there is any
loan. -/
def nextOverdue (timeout : Nat) (p : Pool) :
    Except Time.Overflow (Option Nat) := do
  let dues ← p.active.mapM fun l => l.entry.record.overdueAt timeout
  .ok (dues.filterMap id).min?

/-- The entry is lent under a lease, if it is still current.  The slot it was
in is given back. -/
def lend? (lease requested now : Nat) (e : Entry) (p : Pool) : Option Pool :=
  if p.isCurrent e.record then
    let loan : Loan := ⟨{ e with record := e.record.lend now }, lease⟩
    some { p.free with
      active := p.active ++ [loan]
      metrics := p.metrics.recordRequest (Time.elapsed requested now) }
  else none

/-- The entry is kept for later, if there is room for it and it is still
current.  The slot it was in is given back. -/
def store? (maxIdle : Nat) (e : Entry) (p : Pool) : Option Pool :=
  if p.idle.length < maxIdle && p.isCurrent e.record then
    some { p.free with idle := e :: p.idle }
  else none

/-! ## How a request goes on -/

/-- What the pool has for a request. -/
inductive Offer where
  /-- Nothing, now and forever. -/
  | shutDown
  /-- A connection that was kept. -/
  | kept (e : Entry)
  /-- Room for a new connection, and the record for it. -/
  | room (r : Record String)
  /-- A connection whose holder had it for too long.  Its slot is taken, and
  its lease ends here. -/
  | overdue (loan : Loan)
  /-- Nothing at present.  Some loan will be overdue at the moment given. -/
  | nothing (wake : Option Nat)
  /-- Nothing at present, and the clock does not reach the moment at which
  some loan is overdue. -/
  | beyond (o : Time.Overflow)
  deriving DecidableEq, Repr

/-- What the pool has for a request, and the pool from then on: first a
connection that was kept, then room for a new one, then an overdue one. -/
def offer (c : Config) (now : Nat) (p : Pool) : Offer × Pool :=
  if p.shutDown then (.shutDown, p)
  else
    match p.idle with
    | e :: rest => (.kept e, { p with idle := rest }.reserve)
    | [] =>
      if p.hasRoom c.maxActive then
        let r := .fresh (p.lastId + 1) p.options p.generation now
        (.room r, { p with lastId := p.lastId + 1 }.reserve)
      else
        match p.takeOverdue? c.timeouts.checkout now with
        | some (loan, p) =>
          let m := p.metrics.recordOverdue (loan.heldFor now)
          (.overdue loan, { p with metrics := m }.reserve)
        | none =>
          let p := { p with metrics := p.metrics.recordHadToWait }
          match p.nextOverdue c.timeouts.checkout with
          | .ok wake => (.nothing wake, p)
          | .error o => (.beyond o, p)

/-! ## All connections at once -/

/-- All connections are out of date.  Those that were kept are handed over to
be closed, the one that came back first in front. -/
def invalidate (p : Pool) : List Entry × Pool :=
  (p.idle.reverse, { p with generation := p.generation + 1, idle := [] })

/-- The pool ends.  All connections it kept are handed over to be closed, and
all loans are called in. -/
def close (p : Pool) : List Entry × List Loan × Pool :=
  (p.idle.reverse, p.active,
    { p with
      shutDown := true
      generation := p.generation + 1
      idle := []
      active := [] })

end Pool

end DatabasePool
