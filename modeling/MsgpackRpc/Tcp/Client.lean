import MsgpackRpc.Lib.Threads
import MsgpackRpc.Session.Conserved

/-!
# The TCP client transport

`client_transport` and `client_socket` (`transport/tcp.cc`) over `stream_handler`
(`transport/stream_handler.cc`) and the session, as a system of threads. A thread sends a request
(insert, flush, connect if the socket is closed, write), or runs a handler that the loop delivers:
`on_read`, `on_timeout`, a tick of the step timer, a callback that was posted. Every place where
another thread can come in between is a step of its own, so `on_system_error` is the sweep of the
session, the completions with their callbacks, the test of `is_open` and the close.

Of Boost.Asio: one `client_socket` serves all connections one after the other; closing it completes
its outstanding reads with `operation_aborted`; `cancel` and `expires_from_now` queue a waiting timer
handler, and `cancel` keeps `expires_at`; queued handlers are delivered at any later time and in any
order. The strand of the socket is not modelled: all orders that it excludes are allowed too.
Connections are numbered in the order in which they are made; a read completion carries the number
of its connection and a timer handler the attempt that armed it, although the program has neither.
-/

namespace MsgpackRpc

open Threads

namespace Tcp

/-- A call of `client_transport::connect`: the call that is being sent, and the number of futures
inserted when the timer was armed. -/
structure Attempt where
  call : Nat
  inserted : Nat
  deriving DecidableEq, Repr

/-- What takes futures out of the table: a response, a tick, `on_system_error` called by an `on_read`
of a connection or by a failed write, and `on_connect_failed` called by `try_connect` or by the
`on_timeout` of an attempt. -/
inductive Origin where
  | response
  | stepTimer
  | onRead (n : Nat)
  | sendData (c : Nat)
  | tryConnect (c : Nat)
  | onTimeout (a : Attempt)
  deriving DecidableEq, Repr

/-- The socket of the `client_socket`. It is open but not connected while a connect is under way and
after it has failed. -/
inductive Socket where
  | closed
  | opened
  | connected (n : Nat)
  deriving DecidableEq, Repr

def Socket.isOpen : Socket → Bool
  | .closed => false
  | _ => true

/-- The connection of a socket. -/
def Socket.conn : Socket → Option Nat
  | .connected n => some n
  | _ => none

/-- What `on_read` is called with: the responses in the bytes received and whether handling the bytes
throws in the end (bytes that are no message, a message that is no response, a message that is too
large), or an error code. -/
inductive ReadResult where
  | data (responses : List (MsgId × Object × Object)) (failed : Bool)
  | error (err : Nat)
  deriving DecidableEq, Repr

/-- The reads that make `on_read` call `on_system_error`. -/
def ReadResult.fails : ReadResult → Bool
  | .data _ failed => failed
  | .error _ => true

def EBADF : Nat := 9
def ENOTCONN : Nat := 107
def ETIMEDOUT : Nat := 110
def OPERATION_ABORTED : Nat := 125

/-- The record of a close: the connection, who closed it, and the number of futures inserted by
then. -/
structure Closing where
  conn : Nat
  closer : Origin
  inserted : Nat
  deriving DecidableEq, Repr

/-- A `client_transport` with its session, socket, timer and mutex, the outstanding reads, and the
handlers that are queued. `conns` counts the connections made; `connectedBy`, `written` and `closed`
record the calls that made a connection, the messages written with their connection, and the
connections closed. -/
structure Client where
  session : Session Origin := {}
  socket : Socket := .closed
  reads : List Nat := []
  completed : List (Nat × ReadResult) := []
  waiting : Option Attempt := none
  expiresAt : Int := 0
  timeouts : List Attempt := []
  clock : Int := 0
  locked : Bool := false
  connecting : Int := 0
  connectTimeout : Int := 10
  reconnectLimit : Int := 3
  conns : Nat := 0
  connectedBy : List Nat := []
  written : List (Nat × Nat) := []
  closed : List Closing := []

/-- The operations; the comments name the source of those that are not named after it. -/
inductive Op where
  -- users
  | sendRequest (method params : Object)
  | attachCallback (f : FutureId) (func : Callback)
  -- handlers of the loop
  | onRead (i : Nat)
  | onTimeout (i : Nat)
  | stepTimerHandler
  | runPosted
  -- the network and the clock
  | readCompletes (i : Nat) (result : ReadResult)
  | timerExpires
  | tick
  -- sending
  | sendRequestImpl (c : Nat)
  | flush
  | sendData (c : Nat)
  | connect (c : Nat)
  | tryConnect (c : Nat)
  | socketConnect (c : Nat)
  | onConnectSuccess (c n : Nat)
  | setNoDelay (c n : Nat)
  | onConnectFailed (c err : Nat)
  -- the test of `is_open` at the end of `connect`
  | checkConnected (c : Nat)
  | unlock
  -- `stream_handler::send_data`, up to and from the test of `is_open`
  | checkWrite (c : Nat)
  | write (c : Nat)
  -- the second test of `on_timeout`
  | checkExpired (a : Attempt)
  | start (n : Nat)
  -- `session_impl::on_system_error` and `session_impl::on_connect_failed`
  | sweep (o : Origin)
  | checkClose (o : Origin)
  | close (o : Origin)
  | onResponse (msgid : MsgId) (result error : Object)
  | setResult (d : Completion Origin)
  deriving DecidableEq, Repr

/-- The handlers that a loop runs. -/
def Op.handler : Op → Bool
  | .onRead _ | .onTimeout _ | .stepTimerHandler | .runPosted => true
  | _ => false

/-- The operations that start a thread. -/
def Op.entry : Op → Bool
  | .sendRequest _ _ | .attachCallback _ _ | .readCompletes _ _ | .timerExpires | .tick => true
  | op => op.handler

/-- What an operation does not determine: the order in which it walks the table, what a callback
calls or a flush delivers, and whether a system call succeeds or with which code it fails. -/
structure Choice where
  it : List Reqtable.Entry := []
  calls : List Op := []
  ok : Bool := true
  err : Nat := 111
  deriving DecidableEq, Repr

namespace Client

/-- `m_timer.cancel()`: the waiting handler is queued. -/
def cancelTimer (s : Client) : Client :=
  { s with waiting := none, timeouts := s.timeouts ++ s.waiting.toList }

/-- `m_timer.expires_from_now` and `async_wait` (`tcp.cc:246`). -/
def armTimer (s : Client) (a : Attempt) : Client :=
  { s.cancelTimer with expiresAt := s.clock + s.connectTimeout, waiting := some a }

/-- `socket().close()`. -/
def closeSocket (s : Client) (o : Origin) : Client :=
  { s with
    socket := .closed
    reads := []
    completed := s.completed ++ s.reads.map fun n => (n, .error OPERATION_ABORTED)
    closed := s.closed ++ s.socket.conn.toList.map fun n => ⟨n, o, s.session.futures.length⟩ }

/-- `stream_handler::start` (`stream_handler.cc:28`), called for connection `n`: the read is one of
the connection that the socket has now. -/
def start (s : Client) (n : Nat) : Client :=
  match s.socket with
  | .connected m => { s with reads := s.reads ++ [m] }
  | .opened => { s with completed := s.completed ++ [(n, .error ENOTCONN)] }
  | .closed => { s with completed := s.completed ++ [(n, .error EBADF)] }

/-- The test of `client_transport::on_connect_failed` (`tcp.cc:188`). -/
def retries (s : Client) (err : Nat) : Bool :=
  decide (err ≠ ETIMEDOUT ∧ s.connecting < s.reconnectLimit)

/-- The connect succeeds. -/
def establish (s : Client) (c : Nat) : Client :=
  { s with
    socket := .connected s.conns, conns := s.conns + 1, connectedBy := s.connectedBy ++ [c] }

end Client

/-- `client_socket::on_system_error` (`tcp.cc:145`). -/
def onSystemError (o : Origin) : List Op := [.sweep o, .checkClose o]

/-- `client_transport::on_connect_failed` (`tcp.cc:186`) when it gives up, after `m_timer.cancel()`. -/
def connectFailed (o : Origin) : List Op := [.close o, .sweep o]

/-- The rest of `stream_handler::on_read` (`stream_handler.cc:53`) for a read of connection `n`. It
tests neither for `operation_aborted` nor which connection the socket has. -/
def onReadResult (n : Nat) : ReadResult → List Op
  | .data responses failed =>
    responses.map (fun r => .onResponse r.1 r.2.1 r.2.2) ++
      if failed then onSystemError (.onRead n) else [.start n]
  | .error _ => onSystemError (.onRead n)

/-- What a callback calls, if one is run. -/
def callbackCalls (x : Choice) : Option Callback → Option (List Op)
  | none => some []
  | some _ => if x.calls.all Op.entry then some x.calls else none

/-- The completions of an operation on the session that walks the table. -/
def Client.walk (s : Client) (x : Choice)
    (op : List Reqtable.Entry → Session Origin × List (Completion Origin)) :
    Option (Client × List Op) :=
  if x.it.Perm s.session.reqtable.entries then
    some ({ s with session := (op x.it).1 }, (op x.it).2.map .setResult)
  else none

/-- The client as a system of threads. -/
def machine : System Client Op Choice where
  entry := Op.entry
  exec s op x :=
    match op with
    | .sendRequest method params =>
      some ({ s with session := s.session.sendRequest method params },
        [.sendRequestImpl s.session.calls.length])
    | .attachCallback f func => some ({ s with session := s.session.attachCallback f func }, [])
    | .onRead i =>
      s.completed[i]?.map fun (n, result) =>
        ({ s with completed := s.completed.eraseIdx i }, onReadResult n result)
    | .onTimeout i =>
      s.timeouts[i]?.map fun a =>
        ({ s with timeouts := s.timeouts.eraseIdx i },
          if s.socket.isOpen then [] else [.checkExpired a])
    | .stepTimerHandler => s.walk x (s.session.stepTimerHandler .stepTimer)
    | .runPosted =>
      (callbackCalls x (s.session.posted.head?.map Prod.fst)).map fun calls =>
        ({ s with session := s.session.runPosted }, calls)
    | .readCompletes i result =>
      s.reads[i]?.map fun n =>
        ({ s with reads := s.reads.eraseIdx i, completed := s.completed ++ [(n, result)] }, [])
    | .timerExpires => if s.expiresAt ≤ s.clock then some (s.cancelTimer, []) else none
    | .tick => some ({ s with clock := s.clock + 1 }, [])
    | .sendRequestImpl c =>
      s.session.calls[c]?.map fun call =>
        ({ s with session := s.session.sendRequestImpl c call }, [.flush, .sendData c])
    | .flush => if x.calls.all Op.handler then some (s, x.calls) else none
    | .sendData c =>
      if s.locked then none
      else if s.socket.isOpen then some (s, [.checkWrite c])
      else some ({ s with locked := true }, [.connect c])
    | .connect c =>
      some ({ s.armTimer ⟨c, s.session.futures.length⟩ with connecting := 0 },
        [.flush, .tryConnect c])
    | .tryConnect c =>
      let s := { s with connecting := s.connecting + 1 }
      if s.socket.isOpen then some (s, [.socketConnect c])
      else if x.ok then some ({ s with socket := .opened }, [.socketConnect c])
      else some (s, [.onConnectFailed c x.err])
    | .socketConnect c =>
      if x.ok ∧ s.socket = .opened then some (s.establish c, [.onConnectSuccess c s.conns])
      else some (s, [.onConnectFailed c x.err])
    | .onConnectSuccess c n => some (s.cancelTimer, [.setNoDelay c n])
    | .setNoDelay c n =>
      some (s, if s.socket.isOpen then [.start n, .checkConnected c] else [.unlock])
    | .onConnectFailed c err =>
      if s.retries err then some (s, [.flush, .tryConnect c])
      else some (s.cancelTimer, connectFailed (.tryConnect c) ++ [.checkConnected c])
    | .checkConnected c =>
      some (s, if s.socket.isOpen then [.unlock, .checkWrite c] else [.unlock])
    | .unlock => some ({ s with locked := false }, [])
    | .checkWrite c => some (s, if s.socket.isOpen then [.write c] else [])
    | .write c =>
      match s.socket.conn, x.ok with
      | some n, true => some ({ s with written := s.written ++ [(c, n)] }, [])
      | _, _ => some (s, onSystemError (.sendData c))
    | .checkExpired a =>
      if s.expiresAt ≤ s.clock then some (s.cancelTimer, connectFailed (.onTimeout a))
      else some (s, [])
    | .start n => some (s.start n, [])
    | .sweep o => s.walk x (s.session.sweep o CONNECT_ERROR)
    | .checkClose o => some (s, if s.socket.isOpen then [.close o] else [])
    | .close o => some (s.closeSocket o, [])
    | .onResponse msgid result error =>
      let (session, cs) := s.session.onResponse .response msgid result error
      some ({ s with session }, cs.map .setResult)
    | .setResult d =>
      let (session, callback) := s.session.setResult d
      (callbackCalls x callback).map fun calls => ({ s with session }, calls)

/-- A client that has sent nothing. -/
def init (connectTimeout reconnectLimit : Int) (timeout : BitVec 32) : Config Client Op :=
  ⟨{ session := { timeout }, connectTimeout, reconnectLimit }, []⟩

end Tcp

end MsgpackRpc
