import DatabasePool.Session.Command
import DatabasePool.Session.Reply
import DatabasePool.World.Run

/-!
# Sessions

A session plays a script on a world, line by line.  Operations that are under
way and connections that are held go by names, and no two of them have the
same name.  Each command is answered by a reply, together with a report on
what has happened meanwhile.
-/

namespace DatabasePool

/-- An operation under way. -/
structure Job where
  name : String
  task : Nat
  /-- The connection that the operation is about. -/
  lease : Option Nat
  deriving DecidableEq, Repr

/-- A world, and the names that a script has given to things in it. -/
structure Session where
  world : World
  /-- The names of all operations ever started. -/
  names : List (Nat × String) := []
  /-- The operations that are under way. -/
  jobs : List Job := []
  /-- The connections that are held, with their leases. -/
  held : List (String × Nat) := []
  /-- The options that connections shown so far were opened with. -/
  shown : List String := []
  deriving Repr

/-- What has happened since a command was given. -/
structure Report where
  reply : Reply
  /-- The time at the end, in milliseconds. -/
  time : Nat
  /-- The operations that ended meanwhile, except the one of the command. -/
  ended : List (String × Reply)
  /-- One line for each thing that happened. -/
  lines : List String
  snapshot : Snapshot

namespace Session

/-- The session with a new pool, unless the configuration has a fault. -/
def create (config : Config) (server : Server) : Except Error Session :=
  (World.create config server).map fun world => { world }

/-! ## Names -/

/-- The name belongs to an operation under way or to a held connection. -/
def isInUse (s : Session) (name : String) : Bool :=
  s.jobs.any (·.name == name) || s.held.any (·.1 == name)

/-- The lease of a held connection. -/
def lease? (s : Session) (name : String) : Option Nat :=
  (s.held.find? (·.1 == name)).map (·.2)

/-- The number of some options among all that were shown. -/
def kindOf (s : Session) (options : String) : Nat × Session :=
  match s.shown.findIdx? (· == options) with
  | some i => (i, s)
  | none => (s.shown.length, { s with shown := s.shown ++ [options] })

/-! ## What has happened -/

/-- The words for a call: its name, and what it is about. -/
def callWords : Call → String × String
  | .connect options => ("connect", options)
  | .ping conn query => ("ping", "c" ++ Text.numeral conn ++ " " ++ query)
  | .rollback conn => ("rollback", "c" ++ Text.numeral conn)
  | .close conn => ("close", "c" ++ Text.numeral conn)

/-- The words for something that happened, if it is told at all. -/
def eventWords (s : Session) : Event → Option String
  | .began call =>
    let (name, about) := callWords call
    some (name ++ " begin " ++ about)
  | .answered call conn =>
    let (name, about) := callWords call
    match call with
    | .connect _ => some (name ++ " ok c" ++ Text.numeral conn ++ " " ++ about)
    | _ => some (name ++ " ok " ++ about)
  | .failed call =>
    let (name, about) := callWords call
    some (name ++ " err " ++ about)
  | .ended task _ =>
    (s.names.find? (·.1 == task)).map fun (_, name) => "done " ++ name
  | _ => none

/-- The line for something that happened at a moment. -/
def eventLine (s : Session) (moment : Nat) (e : Event) : Option String :=
  (s.eventWords e).map fun words =>
    Text.numeral (Time.millis moment) ++ " " ++ words

/-- The reply for an outcome.  A connection that was lent is now held. -/
def ofOutcome (s : Session) (name : String) : Outcome → Reply × Session
  | .done => (.ok, s)
  | .failed e => (.failed e, s)
  | .refused message => (.refused message, s)
  | .cancelled => (.cancelled, s)
  | .beyond o => (.beyond o, s)
  | .lent lease =>
    match s.world.handles[lease]? with
    | none => (.ok, s)
    | some h =>
      let (kind, s) := s.kindOf h.record.options
      (.lent h.record.id kind h.record.generation,
        { s with held := s.held ++ [(name, lease)] })

/-- Takes notice of operations that have ended. -/
def collect (s : Session) : List Event → List (String × Reply) × Session
  | [] => ([], s)
  | .ended task outcome :: events =>
    match s.jobs.find? (·.task == task) with
    | none => s.collect events
    | some job =>
      let s := { s with jobs := s.jobs.filter (·.task != task) }
      let (reply, s) := s.ofOutcome job.name outcome
      let (replies, s) := s.collect events
      ((job.name, reply) :: replies, s)
  | _ :: events => s.collect events

/-! ## Commands -/

/-- Starts an operation under a name.  The reply is that of the operation,
once it has ended. -/
def operate (s : Session) (name : String) (op : Operation)
    (lease : Option Nat) (how : Manner) : Option Reply × Session :=
  let (task, w) := s.world.start op how.limit
  let w := if how.inBackground then w.settle else w.runToEnd task
  (none,
    { s with
      world := w
      names := s.names ++ [(task, name)]
      jobs := s.jobs ++ [⟨name, task, lease⟩] })

/-- Starts an operation on a held connection, which has to be pointed to. -/
def operateOn (s : Session) (name : String) (lease : Option Nat)
    (op : Nat → Operation) (how : Manner) : Option Reply × Session :=
  match lease with
  | none => (some .badStep, s)
  | some lease => s.operate name (op lease) (some lease) how

/-- Shows what a holder can see of a connection. -/
def inspect (s : Session) (lease : Nat) : Reply × Session :=
  match s.world.handles[lease]? with
  | none => (.noSuchConnection, s)
  | some h =>
    let w := s.world
    let (kind, s) := s.kindOf h.record.options
    (.inspection
      { id := h.record.id
        kind
        generation := h.record.generation
        age := h.record.age w.now
        idleTime := h.record.idleTime w.now
        heldFor := h.record.heldFor w.now
        valid := w.isValid lease
        closed := w.isClosedFor lease
        autoCommit := w.isAutoCommitFor lease
        physical := (w.physical lease).map fun conn =>
          (w.server.isClosed conn, w.server.isAutoCommit conn) }, s)

/-- Marks a connection of the server, if there is one with that number. -/
def mark (s : Session) (conn : Nat) (change : Server → Server) :
    Option Reply × Session :=
  if conn < s.world.server.connections.length then
    (some .ok, { s with world.server := change s.world.server })
  else (some .noSuchConnection, s)

/-- Carries out a command about the connection with the given lease.  There
is no reply yet if the command started an operation or waited for one. -/
def obey (s : Session) (name : String) (lease : Option Nat) :
    Command → Option Reply × Session
  | .acquire how => s.operate name .acquire none how
  | .close how => s.operateOn name lease .close how
  | .ping query how => s.operateOn name lease (.ping · query) how
  | .rollback how => s.operateOn name lease .rollback how
  | .closePhysical how => s.operateOn name lease .closePhysical how
  | .invalidate how => s.operate name .invalidate none how
  | .shutDown how => s.operate name .shutDown none how
  | .setOptions options how => s.operate name (.setOptions options) none how
  | .forget outside =>
    match lease with
    | none => (some .badStep, s)
    | some lease =>
      if s.jobs.any (·.lease == some lease) then (some .busy, s)
      else
        (some .ok,
          { s with
            world := (s.world.forget outside lease).settle
            held := s.held.filter (·.2 != lease) })
  | .inspect =>
    match lease with
    | none => (some .badStep, s)
    | some lease =>
      let (reply, s) := s.inspect lease
      (some reply, s)
  | .sleep span =>
    let moment := Time.waited s.world.now (Time.ofMillis span)
    (some .ok, { s with world := s.world.runUntil moment })
  | .join task =>
    match s.jobs.find? (·.name == task) with
    | none => (some .noSuchTask, s)
    | some job => (none, { s with world := s.world.runToEnd job.task })
  | .cancel task =>
    match s.jobs.find? (·.name == task) with
    | none => (some .noSuchTask, s)
    | some job =>
      (some .ok,
        { s with
          world := (s.world.cancel job.task).settle
          jobs := s.jobs.filter (·.name != task) })
  | .changeServer c =>
    (some .ok, { s with world.server := c.apply s.world.server })
  | .markClosed conn closed => s.mark conn (·.markClosed conn closed)
  | .markManual conn manual => s.mark conn (·.markManual conn manual)
  | .showOptions => (some (.options s.world.server.options), s)
  | .showConfig => (some (.config s.world.config), s)
  | .showSnapshot => (some (.snapshot s.world.snapshot), s)
  | .showMetrics => (some (.metrics s.world.pool.metrics), s)
  | .unknown => (some .badStep, s)

/-- Carries out a line, if its name is free and the connection that it points
to is held. -/
def follow (s : Session) (line : Line) : Option Reply × Session :=
  if s.isInUse line.name then (some .nameInUse, s)
  else
    match line.held with
    | none => s.obey line.name none line.command
    | some held =>
      match s.lease? held with
      | none => (some .noSuchConnection, s)
      | some lease => s.obey line.name (some lease) line.command

/-- The name of the operation that a line waits for. -/
def waitedFor (line : Line) : String :=
  match line.command with
  | .join task => task
  | _ => line.name

/-- Carries out a line and reports. -/
def perform (s : Session) (line : Line) : Report × Session :=
  let before := s.world.history.length
  let (reply, s) := s.follow line
  let new := s.world.history.length - before
  let events := (s.world.history.take new).reverse
  let (ended, s) := s.collect (events.map (·.2))
  let (reply, ended) :=
    match reply with
    | some reply => (reply, ended)
    | none =>
      let own := waitedFor line
      (((ended.find? (·.1 == own)).map (·.2)).getD .pending,
        ended.filter (·.1 != own))
  ({ reply
     time := Time.millis s.world.now
     ended
     lines := events.filterMap fun (moment, e) => s.eventLine moment e
     snapshot := s.world.snapshot }, s)

/-- Carries out the lines of a script. -/
def play (s : Session) : List Line → List Report
  | [] => []
  | line :: rest =>
    let (report, s) := s.perform line
    report :: s.play rest

end Session

end DatabasePool
