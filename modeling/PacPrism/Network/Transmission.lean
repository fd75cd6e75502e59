import Mathlib.Logic.Relation
import PacPrism.Foundations.Framing
import PacPrism.Network.Router

/-!
# Network/Transmission — `ServerTrans`: connections and the operations pending on them

The state is what the asynchronous operations hold: one accept, and for each connection a read with
its buffer, or a write with its response.  A step is the completion of one of them, together with
what its handler does; any pending operation may complete next.

Ghost state records what a connection is sent and which requests were handed to `response_builder`,
each with the position in the stream its first byte was read at.
-/

namespace PacPrism

/-- What `response_builder` relies on: the responses the router may return to a request, whether it
may throw (or hand out what cannot be sent), and which responses keep the connection alive. -/
structure Service (ρ : Type) where
  answers : Request → ρ → Prop
  throws : Request → Prop
  keepAlive : ρ → Bool

/-- The request is answered, and by no response that closes the connection. -/
def Service.KeepsAlive {ρ : Type} (service : Service ρ) (request : Request) : Prop :=
  (∃ response, service.answers request response) ∧
    ∀ response, service.answers request response → service.keepAlive response = true

/-- The response the pointer leads to keeps the connection alive.  There is no such response behind
the null pointer. -/
def RouterResponse.keepAlive : RouterResponse → Bool
  | .stringBody response => response.any Response.keepAlive
  | .fileBody response => response.any Response.keepAlive
  | .emptyBody response => response.any Response.keepAlive

/-- The router as a service, in any state of the server.  To send what the null pointer leads to is
undefined: that is no answer, and ends the server as an exception does. -/
def Router.service {σ : Type} (sys : System σ) (nlohmann : Nlohmann) (router : Router) :
    Service RouterResponse where
  answers request answer :=
    answer.NonNull ∧ ∃ s s', router.globalRouter sys nlohmann request s = .ok answer s'
  throws request := ∃ s, (∃ e s', router.globalRouter sys nlohmann request s = .error e s')
    ∨ ∃ answer s', router.globalRouter sys nlohmann request s = .ok answer s' ∧ ¬ answer.NonNull
  keepAlive := RouterResponse.keepAlive

/-! ## A connection -/

/-- The operation pending on a connection. -/
inductive Pending (ρ : Type) where
  /-- `async_read`, with what its buffer holds. -/
  | read (buffer : Bytes)
  /-- `async_write`. -/
  | write (response : ρ)
  /-- None: the connection is closed. -/
  | none

/-- A connection: what the network delivers, cut into reads, and what is left of it; the pending
operation; the number of bytes read, and the requests handled. -/
structure Connection (ρ : Type) where
  stream : List Bytes
  incoming : List Bytes
  pending : Pending ρ
  delivered : Nat := 0
  handled : List (Nat × Bytes) := []

/-- `read_from_connection` on a socket just accepted. -/
def Connection.accepted {ρ : Type} (stream : List Bytes) : Connection ρ where
  stream := stream
  incoming := stream
  pending := .read []

/-- The error that a read ends with. -/
inductive ReadError where
  /-- The peer has closed the connection, and nothing of a request was read. -/
  | endOfStream
  /-- The parser refuses the bytes, or the body is over its limit. -/
  | badRequest
  /-- Any other error, of the socket. -/
  | socket (code : Nat)
  deriving DecidableEq

/-- The overload of `remote_endpoint` without an error code. -/
def remoteEndpoint (connected : Bool) : Except Exn Unit :=
  if connected then .ok ()
  else .error ⟨.beastSystemError, lit "remote_endpoint: Transport endpoint is not connected"⟩

/-- What `read_from_connection` does with an error, before it closes the socket. -/
def logReadError (error : ReadError) (connected : Bool) : Except Exn Unit := do
  if error ≠ .endOfStream then
    remoteEndpoint connected

/-- What completes on a connection. -/
inductive Event where
  /-- The socket delivers to a pending read. -/
  | received
  /-- A read ends with a request. -/
  | requested
  /-- A read ends with an error, on a socket that may be disconnected by then. -/
  | readFailed (error : ReadError) (connected : Bool)
  /-- A write ends. -/
  | written
  | writeFailed
  /-- A read ends with a request on which the router throws, or hands out the null pointer. -/
  | threw
  deriving DecidableEq

namespace Event

/-- An exception leaves the completion handler: that of the router, or one met when the error of a
read is logged. -/
def escapes : Event → Bool
  | .readFailed error connected => !(logReadError error connected).isOk
  | .threw => true
  | _ => false

example : (readFailed .badRequest false).escapes = true := rfl

/-- Nothing has failed: no error on the socket, no exception of the router.  A client may well have
sent what is no request. -/
def smooth : Event → Bool
  | .readFailed error _ => error = .badRequest
  | .writeFailed => false
  | .threw => false
  | _ => true

end Event

namespace Connection

variable {ρ : Type} (framing : Framing Request) (service : Service ρ)

/-- A completion, and what its handler does. -/
inductive Step : Connection ρ → Event → Connection ρ → Prop
  /-- `async_read` asks for more while the buffer holds no request. -/
  | receive {c : Connection ρ} {buffer segment : Bytes} {rest : List Bytes}
      (hpending : c.pending = .read buffer) (hmore : framing.scan buffer = .needMore)
      (hincoming : c.incoming = segment :: rest) :
      Step c .received { c with
        incoming := rest
        pending := .read (buffer ++ segment)
        delivered := c.delivered + segment.length }
  /-- The request is routed and its response sent.  The buffer is not passed on: what follows the
  request in it is lost. -/
  | request {c : Connection ρ} {buffer : Bytes} {n : Nat} {response : ρ}
      (hpending : c.pending = .read buffer) (hcomplete : framing.scan buffer = .complete n)
      (hanswer : service.answers (framing.decode (buffer.take n)) response) :
      Step c .requested { c with
        pending := .write response
        handled := c.handled ++ [(c.delivered - buffer.length, buffer.take n)] }
  | reject {c : Connection ρ} {buffer : Bytes} (connected : Bool)
      (hpending : c.pending = .read buffer) (hmalformed : framing.scan buffer = .malformed) :
      Step c (.readFailed .badRequest connected) { c with pending := .none }
  | failRead {c : Connection ρ} {buffer : Bytes} {error : ReadError} (connected : Bool)
      (hsocket : error ≠ .badRequest) (hpending : c.pending = .read buffer) :
      Step c (.readFailed error connected) { c with pending := .none }
  /-- The next read gets a new buffer and a new parser. -/
  | write {c : Connection ρ} {response : ρ} (hpending : c.pending = .write response) :
      Step c .written { c with
        pending := if service.keepAlive response then .read [] else .none }
  | failWrite {c : Connection ρ} {response : ρ} (hpending : c.pending = .write response) :
      Step c .writeFailed { c with pending := .none }
  | throw {c : Connection ρ} {buffer : Bytes} {n : Nat}
      (hpending : c.pending = .read buffer) (hcomplete : framing.scan buffer = .complete n)
      (hthrows : service.throws (framing.decode (buffer.take n))) :
      Step c .threw { c with
        pending := .none
        handled := c.handled ++ [(c.delivered - buffer.length, buffer.take n)] }

end Connection

/-! ## The server -/

/-- What completes on the server. -/
inductive Completion where
  /-- An accept, with a connection. -/
  | accepted
  | acceptFailed
  /-- An operation of the connection that was accepted as number `i`. -/
  | onConnection (i : Nat) (event : Event)

/-- Nothing fails on connection `i`. -/
def Completion.SmoothOn (i : Nat) (completion : Completion) : Prop :=
  ∀ event, completion = .onConnection i event → event.smooth = true

/-- The server: the number of accepts pending, the connections accepted so far, and whether
`io_context::run` has been left by an exception. -/
structure ServerTrans (ρ : Type) where
  accepting : Nat := 1
  connections : List (Connection ρ) := []
  escaped : Bool := false

/-- A completion on the server, and what its handler does. -/
inductive ServerTrans.Step {ρ : Type} (framing : Framing Request) (service : Service ρ) :
    ServerTrans ρ → Completion → ServerTrans ρ → Prop
  /-- The handler starts to read, and to accept the next connection. -/
  | accept {s : ServerTrans ρ} (stream : List Bytes)
      (hrunning : s.escaped = false) (haccepting : 0 < s.accepting) :
      Step framing service s .accepted
        { s with connections := s.connections ++ [.accepted stream] }
  /-- The handler logs the error. -/
  | failAccept {s : ServerTrans ρ} (hrunning : s.escaped = false) (haccepting : 0 < s.accepting) :
      Step framing service s .acceptFailed { s with accepting := s.accepting - 1 }
  | complete {s : ServerTrans ρ} {i : Nat} {c c' : Connection ρ} {event : Event}
      (hrunning : s.escaped = false) (hconnection : s.connections[i]? = some c)
      (hstep : Connection.Step framing service c event c') :
      Step framing service s (.onConnection i event)
        { s with connections := s.connections.set i c', escaped := event.escapes }

end PacPrism
