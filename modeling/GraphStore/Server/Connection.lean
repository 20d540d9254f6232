import GraphStore.Query.Lexer
import GraphStore.Response
import GraphStore.Server.WorkQueue
import GraphStore.Wire.Frame

/-!
# Connections at work

Every connection has a reader and a writer. The reader takes the frames in the order in which they
arrive, hands each query to the queue that all connections share, and announces its answer to the
writer. The one worker carries out the queries, and the writer sends the answers in the order in
which they were announced. Each of them moves whenever it can, and what they do together is a
sequence of such moves in any order.
-/

set_option autoImplicit false

namespace GraphStore

/-- The greatest number of announced answers that the writer of a connection has not taken. -/
def maxAnnounced : Nat := 32

/-- A query on its way through the queue. -/
structure Job where
  /-- The place of the connection that it came from. -/
  connection : Nat
  /-- The number of frames that were read before it on its connection. -/
  number : Nat
  query : String
deriving Repr, DecidableEq

/-- What the reader of a connection has in hand. -/
inductive ReaderState where
  | free
  /-- A query that the queue has not accepted yet. -/
  | submitting (number : Nat) (query : String)
  /-- An answer that the writer does not know of yet. -/
  | announcing (number : Nat)
deriving Repr, DecidableEq, Inhabited

/-- A connection. Its answers go by the number of frames that were read before theirs. -/
structure Connection where
  /-- The frames that have arrived and are not read yet. -/
  arrived : List Frame := []
  /-- How many frames have been read. -/
  frameCount : Nat := 0
  reader : ReaderState := .free
  /-- The announced answers that the writer has not taken, the oldest first. -/
  announced : List Nat := []
  /-- The answer for which the writer waits. -/
  writer : Option Nat := none
  /-- The answers that are known. -/
  answers : List (Nat × Response) := []
  /-- The responses that have been sent, the oldest first. -/
  written : List Response := []
deriving Repr, DecidableEq, Inhabited

/-- What the server does for its clients. `execute` carries out a query on a store. -/
structure Service (σ : Type) where
  separator : Query.Separator
  now : Timestamp
  execute : String → σ → Response × σ

namespace Service

variable {σ : Type}

/-- The query in a frame. The line break that ended the frame ends its last statement, too. -/
def queryOf (service : Service σ) (text : String) : String :=
  if service.separator.acceptsNewline then text ++ "\n" else text

def refusal (service : Service σ) (fault : FrameFault) : Response :=
  .ofFailure service.now fault.code fault.message

end Service

/-- All connections of a server, with the queue and the store that they share. -/
structure ServerState (σ : Type) where
  store : σ
  queue : WorkQueue Job
  connections : List Connection

/-- A move of a reader, a writer or the worker. -/
inductive Move where
  | read (connection : Nat)
  | submit (connection : Nat)
  | announce (connection : Nat)
  | start
  | finish
  | take (connection : Nat)
  | write (connection : Nat)
deriving Repr, DecidableEq

namespace Connection

variable {σ : Type}

/-- Reads the next frame. A frame that is no text is answered at once. -/
def read? (service : Service σ) (connection : Connection) : Option Connection :=
  match connection.reader, connection.arrived with
  | .free, frame :: rest =>
      let number := connection.frameCount
      let further : Connection := { connection with arrived := rest, frameCount := number + 1 }
      match frame with
      | .text text => some { further with reader := .submitting number (service.queryOf text) }
      | .rejected fault =>
          some {
            further with
            reader := .announcing number
            answers := (number, service.refusal fault) :: connection.answers }
  | _, _ => none

/-- Announces an answer, if the writer is not too far behind. -/
def announce? (connection : Connection) : Option Connection :=
  match connection.reader with
  | .announcing number =>
      if connection.announced.length < maxAnnounced then
        some { connection with reader := .free, announced := connection.announced ++ [number] }
      else none
  | _ => none

/-- Lets the writer take the oldest announced answer. -/
def take? (connection : Connection) : Option Connection :=
  match connection.writer, connection.announced with
  | none, number :: rest => some { connection with writer := some number, announced := rest }
  | _, _ => none

/-- Sends the answer for which the writer waits, once it is known. -/
def write? (connection : Connection) : Option Connection := do
  let number ← connection.writer
  let response ← connection.answers.lookup number
  return { connection with writer := none, written := connection.written ++ [response] }

end Connection

namespace ServerState

variable {σ : Type}

/-- A server without connections. -/
def fresh (store : σ) (capacity : Nat) : ServerState σ :=
  { store, queue := .fresh capacity, connections := [] }

def change? (state : ServerState σ) (place : Nat) (change : Connection → Option Connection) :
    Option (ServerState σ) := do
  let changed ← change (← state.connections[place]?)
  return { state with connections := state.connections.set place changed }

def submit? (state : ServerState σ) (place : Nat) : Option (ServerState σ) := do
  let connection ← state.connections[place]?
  match connection.reader with
  | .submitting number query =>
      let queue ← state.queue.after? (.accept ⟨place, number, query⟩)
      let changed : Connection := { connection with reader := .announcing number }
      return { state with queue, connections := state.connections.set place changed }
  | _ => none

/-- Carries out the query that the worker has started, and makes its answer known. -/
def finish? (service : Service σ) (state : ServerState σ) : Option (ServerState σ) := do
  let job ← state.queue.running
  let queue ← state.queue.after? (.finish .completed)
  let (response, store) := service.execute job.query state.store
  let answered (connection : Connection) : Connection :=
    { connection with answers := (job.number, response) :: connection.answers }
  return { store, queue, connections := state.connections.modify job.connection answered }

def after? (service : Service σ) (state : ServerState σ) : Move → Option (ServerState σ)
  | .read place => state.change? place (Connection.read? service)
  | .submit place => state.submit? place
  | .announce place => state.change? place Connection.announce?
  | .start => do return { state with queue := ← state.queue.after? .start }
  | .finish => state.finish? service
  | .take place => state.change? place Connection.take?
  | .write place => state.change? place Connection.write?

def moves (state : ServerState σ) : List Move :=
  [.finish, .start] ++ (List.range state.connections.length).flatMap fun place =>
    [.write place, .take place, .announce place, .submit place, .read place]

/-- Makes up to `count` moves, each of them the first that is possible. -/
def runFor (service : Service σ) : (count : Nat) → ServerState σ → ServerState σ
  | 0, state => state
  | count + 1, state =>
      match state.moves.findSome? (state.after? service) with
      | some next => runFor service count next
      | none => state

/-- A bound for the number of moves that are left: a frame takes seven. -/
def movesLeft (state : ServerState σ) : Nat :=
  let frames := state.connections.foldl
    (fun count connection => count + connection.arrived.length + connection.announced.length + 2)
    (state.queue.waiting.length + 1)
  7 * frames

/-- Makes moves until none is possible. -/
def settle (service : Service σ) (state : ServerState σ) : ServerState σ :=
  state.runFor service state.movesLeft

end ServerState

end GraphStore
