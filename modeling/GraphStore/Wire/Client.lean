import GraphStore.Json.Reader
import GraphStore.Response
import GraphStore.Wire.Frame

/-!
# Clients

A client sends queries as lines and reads responses as lines. Responses come in the order of the
queries, so that several may be sent before the first response is read.
-/

set_option autoImplicit false

namespace GraphStore

/-- Why a client has no response. -/
inductive ClientFault where
  | system (cause : OsError)
  | frame (fault : FrameFault)
  /-- A line that was received is no response. -/
  | invalidResponse
  | connectionClosed
deriving Repr, DecidableEq

namespace ClientFault

/-- The stable code of a fault. -/
def code : ClientFault → String
  | system _ => "IO"
  | frame fault => fault.code
  | invalidResponse => "INVALID_RESPONSE"
  | connectionClosed => "CONNECTION_CLOSED"

/-- The message of a fault, where the code does not say all. -/
def message? : ClientFault → Option String
  | system _ => none
  | frame fault => some fault.message
  | invalidResponse => none
  | connectionClosed => some "Connection closed by peer"

end ClientFault

namespace Client

/-- The greatest number of bytes of a response. -/
def responseLimit : Nat := 16 * 1024 * 1024

def send (query : String) : Except ClientFault (List UInt8) :=
  (Frame.encode query).mapError .frame

/-- The bytes that carry a response. A document in JSON has no line break. -/
def reply (response : Response) : List UInt8 := (Frame.encode response.line).toOption.getD []

def read : Frame → Except ClientFault Response
  | .text line =>
      match (Json.parse? line).bind Response.ofJson? with
      | some response => .ok response
      | none => .error .invalidResponse
  | .rejected fault => .error (.frame fault)

/-- What a client reads from a stream up to its end, which it is told by a fault. -/
def readAll (decoder : LineDecoder) : List (Except ClientFault Response) :=
  decoder.drainAtEnd.map read ++ [.error .connectionClosed]

/-- What a client reads from a server that sends some bytes and closes the connection. -/
def readStream (stream : List UInt8) : List (Except ClientFault Response) :=
  readAll ((LineDecoder.fresh responseLimit).push stream)

end Client

end GraphStore
