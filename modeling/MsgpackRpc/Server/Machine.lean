import MsgpackRpc.Dgram.Handler
import MsgpackRpc.Server.Request

/-!
# A server and its requests

`server_impl` (`server.cc`) over the sockets of both transports. Each request that is received
becomes a `request_impl` with something to answer through: the `stream_handler` of its TCP
connection, or a `response_sender` (`dgram_handler.cc:11`), which has a copy of the endpoint that the
datagram came from. The dispatcher may keep a request and answer it later, more than once and through
any copy of the handle, since all copies share the `request_impl`.

The steps are the messages handed over by the connections and by the UDP socket, and the calls that
answer requests. A UDP socket receives the next datagram, which overwrites `m_remote`, only after
`on_read` has handed over all messages of the one before. What goes wrong in an `on_read` is a step of
its own: a connection may be closed at any time, and the messages left of a datagram may be dropped.
The calls on one request are made one after the other, in any order and at any time.
-/

namespace MsgpackRpc

namespace Server

/-- Where a message comes from or goes to: a TCP connection, by number, or a UDP endpoint. -/
inductive Peer where
  | connection (n : Nat)
  | endpoint (ep : Endpoint)
  deriving DecidableEq, Repr

/-- `message_sendable`, as a request holds it. -/
inductive Sendable where
  | streamHandler (n : Nat)
  | responseSender (remote : Endpoint)
  deriving DecidableEq, Repr

/-- `stream_handler::get_response_sender` (`stream_handler.h:26`) returns the handler of the
connection itself, `dgram_handler::get_response_sender` (`dgram_handler.cc:52`) a new
`response_sender` with a copy of the endpoint. -/
def getResponseSender : Peer → Sendable
  | .connection n => .streamHandler n
  | .endpoint ep => .responseSender ep

/-- A `request_impl`; `ms` is the sendable it was constructed with, which it holds as long as
`impl.ms` says so. The message it was built from and the peer that sent it are not in the source. -/
structure Request where
  impl : RequestImpl
  ms : Option Sendable
  message : Message
  peer : Peer
  deriving DecidableEq, Repr

/-- A call of one of the `result` and `error` functions, and whether its send threw. -/
structure Answer where
  request : Nat
  res : Object
  err : Object
  threw : Bool
  deriving DecidableEq, Repr

/-- A response that was sent. -/
structure Response where
  request : Nat
  dest : Peer
  msg : Object
  deriving DecidableEq, Repr

/-- The sockets of a server and its requests. `connections` says which TCP connections are open,
`remote` is the `m_remote` of the UDP socket, and `datagram` the sender of the datagram that `on_read`
is handling with the messages still to be handed over. `log` records the calls that answer requests
and `sent` the responses. -/
structure State where
  connections : List Bool := []
  receiving : Bool := true
  remote : Endpoint := default
  datagram : Endpoint × List Message := (default, [])
  requests : List Request := []
  log : List Answer := []
  sent : List Response := []
  deriving DecidableEq, Repr

/-- How `send_data` of a sendable ends: the response is sent; the socket is closed and nothing is
done; the write fails, which stops the connection (unless `stop` itself fails); or it throws. -/
inductive SendResult where
  | sent
  | dropped
  | failed (stopped : Bool)
  | threw
  deriving DecidableEq, Repr

namespace State

/-- `server_impl::on_request` (`server.cc:79`), up to the dispatcher. -/
def onRequest (s : State) (peer : Peer) (ms : Sendable) (msgid : MsgId) (method params : Object) :
    State :=
  { s with
    requests := s.requests ++ [{
      impl := { msgid, method, params, sentBy := s.requests.length }
      ms := some ms
      message := .request msgid method params
      peer }] }

/-- `server_impl::on_notify` (`server.cc:88`), up to the dispatcher: the request has nothing to
answer through. -/
def onNotify (s : State) (peer : Peer) (method params : Object) : State :=
  { s with
    requests := s.requests ++ [{
      impl := { msgid := 0, method, params, ms := false, sentBy := s.requests.length }
      ms := none
      message := .notify method params
      peer }] }

/-- The virtual functions of `tcp::server_socket` (`tcp.cc:345`) and `udp::server_socket`
(`udp.cc:235`). A response is a type error. -/
def onMessage (s : State) (peer : Peer) (ms : Sendable) : Message → State
  | .request msgid method params => s.onRequest peer ms msgid method params
  | .notify method params => s.onNotify peer method params
  | .response .. => s

/-- `stream_handler::send_data` (`stream_handler.cc:91`), which does not throw, and
`dgram_handler::send_data` (`dgram_handler.cc:106`) for the endpoint of the `response_sender`: the
peer that the bytes are sent to, if they are. A result that `send_data` cannot have is `none`. -/
def sendData (s : State) : Sendable → SendResult → Option (State × Option Peer)
  | .streamHandler n, result =>
    match s.connections[n]?, result with
    | some true, .sent => some (s, some (.connection n))
    | some true, .failed stopped =>
      some ({ s with connections := s.connections.set n (!stopped) }, none)
    | some false, .dropped => some (s, none)
    | _, _ => none
  | .responseSender remote, .sent => some (s, some (.endpoint remote))
  | .responseSender _, _ => none

/-- `request::call` (`request.h:123`), which all `result` and `error` functions end in, and
`request_impl::send_data` (`request_impl.h:56`): when the send throws, the sendable is kept. -/
def call (s : State) (r : Nat) (res err : Object) (result : SendResult) : Option State := do
  let req ← s.requests[r]?
  let answered (threw : Bool) : State := { s with log := s.log ++ [⟨r, res, err, threw⟩] }
  if req.impl.isSent then
    return answered false
  match (← req.ms), result with
  | .responseSender _, .threw => return answered true
  | ms, result =>
    let (s, dest) ← (answered false).sendData ms result
    let (impl, msg) := req.impl.call res err
    return { s with
      requests := s.requests.set r { req with impl }
      sent := s.sent ++ (dest.bind fun dest => msg.map fun msg => ⟨r, dest, msg⟩).toList }

end State

/-- The steps. -/
inductive Event where
  | accept
  | close (n : Nat)
  | onMessage (n : Nat) (m : Message)
  -- a datagram is received and `on_read` called; it hands over the next message; it arms the next
  -- receive, or fails
  | receive (sender : Endpoint) (msgs : List Message)
  | onDgramMessage
  | start
  | onReadFailed
  | call (r : Nat) (res err : Object) (result : SendResult)
  deriving DecidableEq, Repr

/-- One step; `none` when it is not possible. -/
def step (s : State) : Event → Option State
  | .accept => some { s with connections := s.connections ++ [true] }
  | .close n => some { s with connections := s.connections.set n false }
  | .onMessage n m =>
    if n < s.connections.length then
      some (s.onMessage (.connection n) (getResponseSender (.connection n)) m)
    else none
  | .receive sender msgs =>
    if s.receiving then
      some { s with receiving := false, remote := sender, datagram := (sender, msgs) }
    else none
  | .onDgramMessage =>
    match s.datagram with
    | (_, []) => none
    | (sender, m :: msgs) =>
      some ({ s with datagram := (sender, msgs) }.onMessage (.endpoint sender)
        (getResponseSender (.endpoint s.remote)) m)
  | .start =>
    if s.receiving = false ∧ s.datagram.2 = [] then some { s with receiving := true } else none
  | .onReadFailed => some { s with datagram := (s.datagram.1, []) }
  | .call r res err result => s.call r res err result

/-- A sequence of steps. -/
def run (s : State) : List Event → Option State
  | [] => some s
  | e :: es => (step s e).bind fun s => run s es

/-- The responses to a request that were sent. -/
def State.responses (s : State) (r : Nat) : List Response :=
  s.sent.filter fun e => e.request = r

/-- The first call on a request whose send did not throw. -/
def State.firstAnswer (s : State) (r : Nat) : Option Answer :=
  s.log.find? fun a => a.request = r ∧ a.threw = false

end Server

end MsgpackRpc
