import Jolt.Dialogue
import Jolt.Document
import Jolt.Folder
import Jolt.SessionId

/-!
# The service

Clients connect to the service; each connection is a session with variables of its own. A text message is a source to run
and gets a reply. A message over the limit ends its connection, other messages get no reply.
-/

namespace Jolt

/-- The answer to one source. -/
structure Reply where
  session : Text
  results : List Text
  error : Option Text
deriving DecidableEq

/-- A reply as it is sent. -/
def Reply.document (r : Reply) : Document :=
  .object ([(utf8 "session", .string r.session), (utf8 "results", .array (r.results.map .string))]
    ++ match r.error with
      | some e => [(utf8 "error", .string e)]
      | none => [])

/-- A reply on the wire. -/
def Reply.text (r : Reply) : Text :=
  r.document.compact ++ utf8 "\n"

namespace Service

/-- An open connection of a client. -/
structure Connection where
  client : Text
  session : Text
  vars : Variables

/-- What can happen to a service. -/
inductive Event where
  | connect (client : Text)
  | message (client : Text) (source : Text)
  | binary (client : Text) (content : Text)
  /-- The client closes its connection with a code. -/
  | close (client : Text) (code : Int)
  /-- The client is gone without a word. -/
  | drop (client : Text)
  /-- A request that asks for no connection. -/
  | get (path : Text)

/-- What a client sees of an event. -/
inductive Answer where
  | nothing
  | reply (r : Reply)
  | closed (code : Int) (reason : Text)
  | page (status : Int) (body : Text)

end Service

/-- A service: its settings, its connections with the newest first, and how many there have been. -/
structure Service where
  /-- The longest message in bytes, zero for any length. -/
  readLimit : Int
  recorder : Recorder
  /-- The identifier of a session before which so many others were opened. -/
  identify : Nat → Text
  connections : List Service.Connection
  connected : Nat

namespace Service

/-- What an event does: the answer, and what is recorded and logged. -/
structure Effect where
  answer : Answer
  utterances : List Utterance
  log : Text

/-- A service nobody has connected to, with a source of identifiers. -/
def startWith (identify : Nat → Text) (readLimit : Int) (recorder : Recorder) : Service :=
  ⟨readLimit, recorder, identify, [], 0⟩

/-- A service nobody has connected to, whose identifiers are handed out in turn. -/
def start (readLimit : Int) (recorder : Recorder) : Service :=
  startWith (fun n => SessionId.nth (n + 1)) readLimit recorder

/-- The connection of a client. -/
def connection? (service : Service) (client : Text) : Option Connection :=
  service.connections.find? (·.client = client)

/-- Puts a connection in the place of the one of the same session. -/
def update (service : Service) (c : Connection) : Service :=
  { service with connections := service.connections.map fun d => if d.session = c.session then c else d }

/-- Ends a connection. -/
def remove (service : Service) (c : Connection) : Service :=
  { service with connections := service.connections.filter (·.session ≠ c.session) }

/-- The number of open sessions. -/
def sessions (service : Service) : Nat :=
  service.connections.length

/-- A log entry about a session. -/
def sessionLog (c : Connection) (message : Text) : Text :=
  logEntry (utf8 "server: session " ++ c.session ++ utf8 ": " ++ message)

/-- Runs a source over the variables of a connection. -/
def evaluate (c : Connection) (source : Text) : Reply × Connection :=
  match c.vars.emit source [] with
  | (.ok results, vars) => (⟨c.session, results.map (·.unwrap.text), none⟩, { c with vars := vars })
  | (.error d, vars) => (⟨c.session, [], some d.render⟩, { c with vars := vars })

/-- Whether a message is over the limit. -/
def exceeds (service : Service) (message : Text) : Bool :=
  0 < service.readLimit && service.readLimit < message.length

/-- The names of the codes with which a connection is closed. -/
def codeName (code : Int) : Text :=
  if code = 1002 then utf8 " (protocol error)"
  else if code = 1003 then utf8 " (unsupported data)"
  else if code = 1007 then utf8 " (invalid payload data)"
  else if code = 1008 then utf8 " (policy violation)"
  else if code = 1009 then utf8 " (message too big)"
  else if code = 1010 then utf8 " (mandatory extension missing)"
  else if code = 1011 then utf8 " (internal server error)"
  else []

/-- What is logged when a client closes. The two ordinary codes go without saying. -/
def closeLog (c : Connection) (code : Int) : Text :=
  if code = 1000 ∨ code = 1001 then []
  else sessionLog c (utf8 "websocket: close " ++ Text.ofInt code ++ codeName code)

/-- The place a request is for, without what follows a question mark or a hash. -/
def requested (path : Text) : Text :=
  Path.clean (path.takeWhile fun b => b ≠ Byte.question && b ≠ 35)

/-- Whether a request is for the place where connections are made. A slash at its end makes it another place. -/
def isRepl (path : Text) : Bool :=
  let place := path.takeWhile fun b => b ≠ Byte.question && b ≠ 35
  place.getLast? ≠ some Byte.slash && requested path = utf8 "/repl"

/-- What is logged of a request that asks for no connection where connections are made. -/
def upgradeLog : Text :=
  logEntry (utf8 "server: upgrade: websocket: the client is not using the websocket protocol: "
    ++ utf8 "'upgrade' token not found in 'Connection' header")

/-- A message over the limit ends the connection. -/
def overLimit (service : Service) (c : Connection) (answer : Answer) : Effect × Service :=
  (⟨answer, [], sessionLog c (utf8 "websocket: read limit exceeded")⟩, service.remove c)

/-- What an event does to a service. An event of a client without connection does nothing. -/
def step (service : Service) : Event → Effect × Service
  | .connect client =>
    let c : Connection := ⟨client, service.identify service.connected, .empty⟩
    (⟨.nothing, [], []⟩,
      { service with connections := c :: service.connections, connected := service.connected + 1 })
  | .message client source =>
    match service.connection? client with
    | none => (⟨.nothing, [], []⟩, service)
    | some c =>
      if service.exceeds source then service.overLimit c (.closed 1009 [])
      else
        let (reply, c) := evaluate c source
        let u : Utterance := ⟨c.session, source, reply.error.isSome⟩
        let log := (service.recorder.complaint u).flatMap fun t => logEntry (utf8 "server: " ++ t)
        (⟨.reply reply, service.recorder.note u, log⟩, service.update c)
  | .binary client content =>
    match service.connection? client with
    | none => (⟨.nothing, [], []⟩, service)
    | some c => if service.exceeds content then service.overLimit c .nothing else (⟨.nothing, [], []⟩, service)
  | .close client code =>
    match service.connection? client with
    | none => (⟨.nothing, [], []⟩, service)
    | some c => (⟨.closed code [], [], closeLog c code⟩, service.remove c)
  | .drop client =>
    match service.connection? client with
    | none => (⟨.nothing, [], []⟩, service)
    | some c =>
      (⟨.nothing, [], sessionLog c (utf8 "websocket: close 1006 (abnormal closure): unexpected EOF")⟩,
        service.remove c)
  | .get path =>
    if isRepl path then (⟨.page 400 (utf8 "Bad Request\n"), [], upgradeLog⟩, service)
    else (⟨.page 404 (utf8 "404 page not found\n"), [], []⟩, service)

/-- What events do one after another. -/
def run : List Event → Service → List Effect × Service
  | [], service => ([], service)
  | e :: rest, service =>
    let (effect, service) := service.step e
    let (more, service) := run rest service
    (effect :: more, service)

/-- What a client is told when the service shuts down. -/
def shutdown : Answer :=
  .closed 1001 (utf8 "server shutting down")

end Service

end Jolt
