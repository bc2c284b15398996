/-!
# The database server

The server answers four kinds of calls.  For each kind a plan says how long an
answer takes and how many of the next calls fail.  The delay is read when a
call begins, and everything else when it is answered.
-/

namespace DatabasePool

/-- A call to the server. -/
inductive Call where
  /-- Open a connection with the given options. -/
  | connect (options : String)
  /-- Try a connection with a query. -/
  | ping (conn : Nat) (query : String)
  /-- Undo what has not been committed. -/
  | rollback (conn : Nat)
  /-- Close a connection. -/
  | close (conn : Nat)
  deriving DecidableEq, Repr

/-- How calls of one kind are answered. -/
structure Plan where
  /-- The milliseconds that an answer takes. -/
  delay : Nat := 0
  /-- The number of calls that fail from here on. -/
  failures : Nat := 0
  /-- What a failing call is told. -/
  message : String
  deriving DecidableEq, Repr

/-- One connection as the server sees it. -/
structure Physical where
  closed : Bool := false
  /-- Changes have to be committed by hand. -/
  manual : Bool := false
  deriving DecidableEq, Repr

/-- The server and all connections ever opened on it. -/
structure Server where
  connect : Plan := { message := "connection refused" }
  ping : Plan := { message := "ping failed" }
  rollback : Plan := { message := "rollback failed" }
  close : Plan := { message := "close failed" }
  /-- New connections have to be committed by hand. -/
  manualCommit : Bool := false
  /-- The options that connections are opened with. -/
  options : String := "db"
  /-- Connections do not know about commits: they always commit by
  themselves. -/
  plain : Bool := false
  connections : List Physical := []
  deriving DecidableEq, Repr

namespace Server

/-- The plan for a call. -/
def plan (s : Server) : Call → Plan
  | .connect _ => s.connect
  | .ping _ _ => s.ping
  | .rollback _ => s.rollback
  | .close _ => s.close

/-- The server with another plan for calls of the kind of `call`. -/
def setPlan (s : Server) (call : Call) (plan : Plan) : Server :=
  match call with
  | .connect _ => { s with connect := plan }
  | .ping _ _ => { s with ping := plan }
  | .rollback _ => { s with rollback := plan }
  | .close _ => { s with close := plan }

/-- The connection with the given number has been closed. -/
def isClosed (s : Server) (conn : Nat) : Bool :=
  (s.connections[conn]?.map (·.closed)).getD false

/-- The connection with the given number commits by itself. -/
def isAutoCommit (s : Server) (conn : Nat) : Bool :=
  s.plain || !(s.connections[conn]?.map (·.manual)).getD false

/-- A connection is marked as closed, or as open again. -/
def markClosed (s : Server) (conn : Nat) (closed : Bool) : Server :=
  { s with connections := s.connections.modify conn ({ · with closed }) }

/-- A connection is marked as one to be committed by hand, or not. -/
def markManual (s : Server) (conn : Nat) (manual : Bool) : Server :=
  { s with connections := s.connections.modify conn ({ · with manual }) }

/-- The answer to a call: the number of the connection it was about, or the
message of a failure. -/
def answer (s : Server) (call : Call) : Except String Nat × Server :=
  let plan := s.plan call
  if 0 < plan.failures then
    (.error plan.message,
      s.setPlan call { plan with failures := plan.failures - 1 })
  else
    match call with
    | .connect _ =>
      (.ok s.connections.length,
        { s with
          connections := s.connections ++ [{ manual := s.manualCommit }] })
    | .ping conn _ => (.ok conn, s)
    | .rollback conn => (.ok conn, s)
    | .close conn => (.ok conn, s.markClosed conn true)

end Server

end DatabasePool
