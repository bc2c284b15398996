/-!
# The release signal

Whoever needs a connection joins the signal before looking at the pool, so
that nothing given back in between is missed.  Giving something back rings the
signal: the one who has waited longest is told, and if nobody waits the ring
is kept for the next one to join.  At most one ring is kept.

One who was told and goes away without having listened rings again for the
next one.
-/

namespace DatabasePool

/-- Who waits for the release of a connection. -/
structure Signal where
  /-- Those who have joined and have not been told, in order. -/
  waiting : List Nat := []
  /-- Those who have been told by a ring and have not yet listened. -/
  told : List Nat := []
  /-- A ring is kept for the next one to join. -/
  kept : Bool := false
  deriving DecidableEq, Repr

namespace Signal

/-- One more joins.  A ring that was kept is used up by that. -/
def join (id : Nat) (s : Signal) : Signal :=
  if s.kept then { s with kept := false }
  else { s with waiting := s.waiting ++ [id] }

/-- The first one who waits is told, or else the ring is kept. -/
def ring (s : Signal) : Option Nat × Signal :=
  match s.waiting with
  | [] => (none, { s with kept := true })
  | id :: rest => (some id, { s with waiting := rest, told := id :: s.told })

/-- All who wait are told.  This is no ring: nothing is kept of it, and it is
not passed on. -/
def ringAll (s : Signal) : List Nat × Signal :=
  (s.waiting, { s with waiting := [] })

/-- One who has joined has been told. -/
def isTold (id : Nat) (s : Signal) : Bool := !s.waiting.contains id

/-- One who has been told listens. -/
def listen (id : Nat) (s : Signal) : Signal :=
  { s with told := s.told.erase id }

/-- One goes away, and a ring that was not listened to is passed on. -/
def leave (id : Nat) (s : Signal) : Option Nat × Signal :=
  if s.told.contains id then { s with told := s.told.erase id }.ring
  else (none, { s with waiting := s.waiting.erase id })

end Signal

end DatabasePool
