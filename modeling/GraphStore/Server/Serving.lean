import GraphStore.Query.Execution
import GraphStore.Server.Connection
import GraphStore.Server.Settings
import GraphStore.Wire.Client

/-!
# Serving clients

A server opens its database, listens at an address, and carries out the queries of its clients in
one collection.
-/

set_option autoImplicit false

namespace GraphStore

/-- What the network of a host does with the wish to listen at an address: it gives the address at
which the host then listens. -/
structure Network where
  listen : SocketAddress → (backlog : UInt32) → Except OsError SocketAddress

/-- Why a server does not serve. -/
inductive ServerFault where
  | system (cause : OsError)
  | settings (fault : SettingsFault)
  | engine (error : Error)
deriving Repr, DecidableEq

namespace ServerFault

/-- The stable code of a fault. -/
def code : ServerFault → String
  | system _ => "IO"
  | settings fault => fault.code
  | engine error => error.code

/-- The message of a fault, where the code does not say all. -/
def message? : ServerFault → Option String
  | system _ => none
  | settings fault => fault.message?
  | engine error => some error.message

end ServerFault

namespace Settings

/-- Opens the database of a server and makes its collection if it is missing. -/
def openDatabase (settings : Settings) (now : Int64) : Action Engine := do
  let engine ←
    Engine.openAt (Path.ofText settings.dataDirectory) settings.engineOptions now
  if engine.hasCollection settings.collection then return engine
  let (made, engine) ← ExceptT.lift (engine.createCollection now settings.collection)
  match made with
  | .ok () => return engine
  | .error (.collectionExists _) => return engine
  | .error error => throw error

def bind (settings : Settings) (network : Network) : Except ServerFault SocketAddress := do
  settings.check.mapError .settings
  (network.listen settings.address settings.backlog).mapError .system

def service (settings : Settings) (engine : Engine) (now : Timestamp) : Service FileSystem where
  separator := settings.separator
  now
  execute query system :=
    (Query.execute engine settings.collection settings.separator now query).run system

end Settings

/-!
## Visits
-/

/-- The visit of one client, from its connection to the end of its stream. -/
structure Visit where
  server : ServerState FileSystem
  /-- The place of the client's connection. -/
  place : Nat
  /-- Reads the frames that the client sends. -/
  incoming : LineDecoder
  /-- Reads the frames that the server sends. -/
  outgoing : LineDecoder

/-- What a client does. -/
inductive ClientAction where
  | send (query : String)
  | sendBytes (bytes : List UInt8)
  /-- Sends a query and waits for a response. -/
  | execute (query : String)
  | receive
deriving Repr, DecidableEq

/-- What a client sees of what it does. -/
inductive ClientEvent where
  | sent
  | received (response : Except ClientFault Response)

namespace Visit

def start (settings : Settings) (server : ServerState FileSystem) : Visit where
  server := { server with connections := server.connections ++ [{}] }
  place := server.connections.length
  incoming := .fresh settings.maxFrameLength
  outgoing := .fresh Client.responseLimit

def written (visit : Visit) : List Response :=
  (visit.server.connections[visit.place]?.map Connection.written).getD []

def arrive (service : Service FileSystem) (frames : List Frame) (visit : Visit) : Visit :=
  let arrived (connection : Connection) : Connection :=
    { connection with arrived := connection.arrived ++ frames }
  let connections := visit.server.connections.modify visit.place arrived
  let server := { visit.server with connections }.settle service
  let later := { visit with server }
  let responses := later.written.drop visit.written.length
  { later with outgoing := visit.outgoing.push (responses.flatMap Client.reply) }

/-- Lets bytes arrive and the server answer the frames that they complete. -/
def deliver (service : Service FileSystem) (bytes : List UInt8) (visit : Visit) : Visit :=
  let (frames, incoming) := visit.incoming.feed bytes
  { visit with incoming }.arrive service frames

/-- Lets the client wait for the next response. The server has answered all that has arrived, so
that no response means that there will be none. -/
def receive (visit : Visit) : ClientEvent × Visit :=
  match visit.outgoing.next with
  | (some frame, outgoing) => (.received (Client.read frame), { visit with outgoing })
  | (none, outgoing) => (.received (.error .connectionClosed), { visit with outgoing })

def act (service : Service FileSystem) (visit : Visit) : ClientAction → ClientEvent × Visit
  | .send query =>
      match Client.send query with
      | .ok bytes => (.sent, visit.deliver service bytes)
      | .error fault => (.received (.error fault), visit)
  | .sendBytes bytes => (.sent, visit.deliver service bytes)
  | .execute query =>
      match Client.send query with
      | .ok bytes => (visit.deliver service bytes).receive
      | .error fault => (.received (.error fault), visit)
  | .receive => visit.receive

/-- Ends the stream of the client, which then reads what the server still has to send. -/
def finish (service : Service FileSystem) (visit : Visit) :
    List ClientEvent × ServerState FileSystem :=
  let last := visit.arrive service visit.incoming.drainAtEnd
  ((Client.readAll last.outgoing).map .received, last.server)

/-- What a client sees that does some things and then ends its stream. -/
def all (settings : Settings) (service : Service FileSystem) (server : ServerState FileSystem)
    (actions : List ClientAction) : List ClientEvent × ServerState FileSystem :=
  let (events, visit) := actions.foldl
    (fun (events, visit) action =>
      let (event, visit) := visit.act service action
      (events ++ [event], visit))
    ([], start settings server)
  let (later, server) := visit.finish service
  (events ++ later, server)

def eachOf (settings : Settings) (service : Service FileSystem) (server : ServerState FileSystem) :
    List (List ClientAction) → List (List ClientEvent) × ServerState FileSystem
  | [] => ([], server)
  | actions :: rest =>
      let (events, server) := all settings service server actions
      let (later, server) := eachOf settings service server rest
      (events :: later, server)

end Visit

end GraphStore
