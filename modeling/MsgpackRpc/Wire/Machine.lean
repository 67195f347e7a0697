import MsgpackRpc.Lib.Threads
import MsgpackRpc.Server.Request
import MsgpackRpc.Session.Basic
import MsgpackRpc.Stream.Handler

/-!
# A connection, byte by byte

One client session and one server, joined by a TCP connection whose two ends are stream handlers. A
message is written with one system call, which writes all of it or fails after a part; a read gets
any number of the bytes that the other end has written and that have not been read, or fails. The
messages in what has been read are found by the loop of `on_read`, a round at a time, so that other
threads run in between: users who send requests and notifications, the dispatcher, the timer, and the
handling of an error at this or the other end, which closes the socket.

What a client sends after the connection has been closed is not written to it: it opens another one.

The session and the server are there for as long as the connection is, so the sockets throw no
`closed_exception`, and no wait for a future runs out (`future_impl::timed_wait`): that would complete a
future which stays in the table.
-/

namespace MsgpackRpc

open Threads Unpack

namespace Wire

/-- What completes a future: a response, a tick, or the failure of the connection. -/
inductive Cause where
  | response
  | stepTimer
  | failure
  deriving DecidableEq, Repr

/-- The ends of the connection, `tcp::client_socket` and `tcp::server_socket`. -/
inductive End where
  | client
  | server
  deriving DecidableEq, Repr

/-- The other end. -/
def End.peer : End → End
  | .client => .server
  | .server => .client

/-- One end: its handler, whether a write has failed, after which the system writes nothing more, and
the number of the bytes written that the other end has read. -/
structure Side where
  handler : StreamHandler := StreamHandler.start { isOpen := true }
  broken : Bool := false
  taken : Nat := 0
  deriving DecidableEq, Repr

/-- The bytes on their way to the other end. -/
def Side.unread (a : Side) : List UInt8 := a.handler.written.drop a.taken

/-- The session, the connection, and the requests of the server, whose `sentBy` is not known. -/
structure State where
  session : Session Cause := {}
  side : End → Side := fun _ => {}
  requests : List RequestImpl := []

/-- One end changes. -/
def State.onSide (s : State) (e : End) (f : Side → Side) : State :=
  { s with side := Function.update s.side e (f (s.side e)) }

/-- The operations. -/
inductive Op where
  | sendRequest (method params : Object)
  | sendRequestImpl (c : Nat)
  | sendData (c : Nat)
  | notify (method params : Object)
  | onRead (e : End)
  | drain (e : End)
  | answer (request : Nat) (res err : Object)
  | stepTimerHandler
  | onSystemError
  | setResult (c : Completion Cause)
  | close (e : End)
  | removeNonparsedBuffer (e : End)
  deriving DecidableEq, Repr

/-- The operations that users, the dispatcher and the loops start. -/
def Op.entry : Op → Bool
  | .sendRequest .. | .notify .. | .onRead _ | .answer .. | .stepTimerHandler => true
  | _ => false

/-- What the operations do not determine: the order in which the table is walked, whether a system
call fails and how many bytes it transfers, and what the dispatcher throws. -/
structure Choice where
  it : List Reqtable.Entry := []
  fails : Bool := false
  bytes : Nat := 0
  throws : Option (List UInt8) := none
  deriving DecidableEq, Repr

/-- `client_socket::on_system_error` (`tcp.cc:145`), which reports to the session before it closes
the socket, and the part of `server_socket::on_system_error` (`tcp.cc:371`) that concerns the
connection. -/
def onSystemError : End → List Op
  | .client => [.onSystemError, .close .client]
  | .server => [.close .server]

/-- `stream_handler::send_data` (`stream_handler.cc:91`). A socket that is closed after it has been
found open fails the write. -/
def write (s : State) (e : End) (bytes : List UInt8) (x : Choice) : Option (State × List Op) :=
  if (s.side e).handler.isOpen = false then some (s, if x.fails then onSystemError e else [])
  else if x.fails then
    if x.bytes < bytes.length ∧ ((s.side e).broken = true → x.bytes = 0) then
      some (s.onSide e fun a =>
        { a with handler := a.handler.sendData (bytes.take x.bytes), broken := true },
        onSystemError e)
    else none
  else if (s.side e).broken then none
  else some (s.onSide e fun a => { a with handler := a.handler.sendData bytes }, [])

/-- A read of an end completes with `n` bytes (`stream_handler.cc:58`). -/
def transfer (s : State) (e : End) (n : Nat) : State :=
  (s.onSide e fun a => { a with handler := { a.handler with
    reads := a.handler.reads - 1
    pac := a.handler.pac.feed ((s.side e.peer).unread.take n) } }).onSide e.peer
      fun a => { a with taken := a.taken + n }

/-- The end of `on_read` after an exception (`stream_handler.cc:74`). -/
def raise (s : State) (e : End) (exn : Exn) : State × List Op :=
  (s.onSide e fun a => { a with handler := { a.handler with raised := a.handler.raised ++ [exn] } },
    onSystemError e ++ [.removeNonparsedBuffer e])

/-- What an end does with a message, and the exception that this ends with: `on_request`,
`on_response` and `on_notify` of `client_socket` (`tcp.cc:119`) with `session_impl::on_response`, and
of `server_socket` (`tcp.cc:345`) with `server_impl::on_request` (`server.cc:79`), which builds the
request before the dispatcher is called. `session_impl::on_notify` does nothing. -/
def receive (s : State) (x : Choice) : End → Message → (State × List Op) × Option Exn
  | .client, .response msgid result error =>
    let (session, cs) := s.session.onResponse .response msgid result error
    (({ s with session }, cs.map .setResult), none)
  | .client, .notify _ _ => ((s, []), none)
  | .client, .request .. => ((s, []), some .typeError)
  | .server, .request msgid method params =>
    (({ s with requests := s.requests ++ [{ msgid, method, params, sentBy := 0 }] }, []),
      x.throws.map .dispatcher)
  | .server, .notify _ _ => ((s, []), x.throws.map .dispatcher)
  | .server, .response .. => ((s, []), some .typeError)

/-- After a message the loop goes on, unless there was an exception. -/
def afterMessage (r : (State × List Op) × Option Exn) (e : End) : State × List Op :=
  match r with
  | ((s, k), none) => (s, k ++ [.drain e])
  | ((s, k), some exn) => ((raise s e exn).1, k ++ (raise s e exn).2)

/-- The message of a call. -/
def request (call : Call) : Message := .request call.msgid call.method call.params

section
variable (d : Decoder UInt8 Object) (enc : Object → List UInt8)

/-- One round of the loop of `on_read` (`stream_handler.cc:58`), and what follows the last one. -/
def round (s : State) (x : Choice) (e : End) : State × List Op :=
  let h := (s.side e).handler
  match next d h.pac.parsed h.pac.received with
  | .none u =>
    let s := s.onSide e fun a => { a with handler := { a.handler with pac := u } }
    if u.messageSize > maxMessageSize then raise s e .messageTooLarge
    else (s.onSide e fun a => { a with handler := a.handler.start }, [])
  | .bad u =>
    raise (s.onSide e fun a => { a with handler := { a.handler with pac := u } }) e .parseError
  | .value msg u =>
    let s := s.onSide e fun a => { a with handler := { a.handler with
      pac := u, dispatched := a.handler.dispatched ++ [msg] } }
    match onMessage msg with
    | .error exn => raise s e exn
    | .ok m =>
      let s := s.onSide e fun a => { a with handler := { a.handler with
        calls := a.handler.calls ++ [m] } }
      afterMessage (receive s x e m) e

/-- The connection as a system of threads, where `d` is the unpacker's format and `enc` the bytes that
`msgpack::pack` writes. -/
def machine : System State Op Choice where
  entry := Op.entry
  exec s op x :=
    match op with
    | .sendRequest method params =>
      some ({ s with session := s.session.sendRequest method params },
        [.sendRequestImpl s.session.calls.length])
    | .sendRequestImpl c =>
      s.session.calls[c]?.map fun call =>
        ({ s with session := s.session.sendRequestImpl c call }, [.sendData c])
    | .sendData c =>
      s.session.calls[c]?.bind fun call => write s .client (enc (request call).pack) x
    | .notify method params => write s .client (enc (Message.notify method params).pack) x
    | .onRead e =>
      if (s.side e).handler.reads = 0 then none
      else if x.fails then
        some (s.onSide e fun a =>
          { a with handler := { a.handler with reads := a.handler.reads - 1 } },
          onSystemError e ++ [.removeNonparsedBuffer e])
      else if 0 < x.bytes ∧ x.bytes ≤ (s.side e.peer).unread.length then
        some (transfer s e x.bytes, [.drain e])
      else none
    | .drain e => some (round d s x e)
    | .answer r res err =>
      s.requests[r]?.bind fun req =>
        let s := { s with requests := s.requests.set r (req.call res err).1 }
        match (req.call res err).2 with
        | none => some (s, [])
        | some msg => write s .server (enc msg) x
    | .stepTimerHandler =>
      if x.it.Perm s.session.reqtable.entries then
        let (session, cs) := s.session.stepTimerHandler .stepTimer x.it
        some ({ s with session }, cs.map .setResult)
      else none
    | .onSystemError =>
      if x.it.Perm s.session.reqtable.entries then
        let (session, cs) := s.session.onSystemError .failure x.it
        some ({ s with session }, cs.map .setResult)
      else none
    | .setResult c => some ({ s with session := (s.session.setResult c).1 }, [])
    | .close e =>
      some (s.onSide e fun a => { a with handler := a.handler.onSystemError }, [])
    | .removeNonparsedBuffer e =>
      some (s.onSide e fun a => { a with handler := { a.handler with
        pac := a.handler.pac.removeNonparsedBuffer } }, [])

end

/-- The connection has just been opened. -/
def init : Config State Op := ⟨{}, []⟩

/-! ## A read that is left alone -/

/-- What the handler of an end calls, where `throwing` is what the dispatcher throws. -/
def receiver (throwing : Nat → Message → Option (List UInt8)) : End → Receiver
  | .client => Tcp.ClientSocket.receiver fun _ => true
  | .server => Tcp.ServerSocket.receiver (fun _ => true) fun i m => (throwing i m).map .dispatcher

/-- One end gets another handler. -/
def State.withHandler (s : State) (e : End) (h : StreamHandler) : End → Side :=
  Function.update s.side e { s.side e with handler := h }

section
variable {d : Decoder UInt8 Object} {enc : Object → List UInt8} {s : State} {e : End}

theorem withHandler_trans {s' : State} {h h' : StreamHandler} (hs : s'.side = s.withHandler e h) :
    s'.withHandler e h' = s.withHandler e h' := by
  rw [State.withHandler, hs, State.withHandler, State.withHandler, Function.update_idem,
    Function.update_self]

theorem side_of_withHandler {s' : State} {h : StreamHandler} (hs : s'.side = s.withHandler e h) :
    (s'.side e).handler = h := by
  rw [hs, State.withHandler, Function.update_self]

variable (d enc)

theorem setResults_alone (s : State) (cs : List (Completion Cause)) (rest : List Op) :
    ∃ s', (machine d enc).Alone s (cs.map .setResult ++ rest) s' rest ∧ s'.side = s.side := by
  induction cs generalizing s with
  | nil => exact ⟨s, .refl _ _, rfl⟩
  | cons c cs ih =>
    obtain ⟨s', halone, hside⟩ := ih { s with session := (s.session.setResult c).1 }
    exact ⟨s', .exec (k := []) {} rfl halone, hside⟩

theorem onSystemError_alone (s : State) (e : End) (rest : List Op) :
    ∃ s', (machine d enc).Alone s (onSystemError e ++ rest) s' rest ∧
      s'.side = s.withHandler e (s.side e).handler.onSystemError := by
  cases e with
  | server => exact ⟨_, .exec (k := []) {} rfl (.refl _ _), rfl⟩
  | client =>
    obtain ⟨s', halone, hside⟩ := setResults_alone d enc
      { s with session := (s.session.onSystemError .failure s.session.reqtable.entries).1 }
      (s.session.onSystemError .failure s.session.reqtable.entries).2 (.close .client :: rest)
    have hx : (machine d enc).exec s .onSystemError { it := s.session.reqtable.entries } = some
        ({ s with session := (s.session.onSystemError .failure s.session.reqtable.entries).1 },
          (s.session.onSystemError .failure s.session.reqtable.entries).2.map .setResult) :=
      if_pos (List.Perm.refl _)
    refine ⟨_, .exec _ hx (halone.trans (.exec (k := []) {} rfl (.refl _ _))), ?_⟩
    simp [State.onSide, State.withHandler, hside]

/-- The end of an `on_read` that has failed. -/
theorem onReadFailed_alone (s : State) (e : End) :
    ∃ s', (machine d enc).Alone s (onSystemError e ++ [.removeNonparsedBuffer e]) s' [] ∧
      s'.side = s.withHandler e (s.side e).handler.onReadFailed := by
  obtain ⟨s', halone, hside⟩ := onSystemError_alone d enc s e [.removeNonparsedBuffer e]
  refine ⟨_, halone.trans (.exec (k := []) {} rfl (.refl _ _)), ?_⟩
  rw [← withHandler_trans hside]
  show s'.withHandler e { (s'.side e).handler with
    pac := (s'.side e).handler.pac.removeNonparsedBuffer } = _
  rw [side_of_withHandler hside]
  rfl

theorem raise_alone (s : State) (e : End) (exn : Exn) :
    ∃ s', (machine d enc).Alone (raise s e exn).1 (raise s e exn).2 s' [] ∧
      s'.side = s.withHandler e (StreamHandler.finishRead ((s.side e).handler, some exn)) := by
  obtain ⟨s', halone, hside⟩ := onReadFailed_alone d enc (raise s e exn).1 e
  refine ⟨s', halone, ?_⟩
  have hraise : (raise s e exn).1.side = s.withHandler e
      { (s.side e).handler with raised := (s.side e).handler.raised ++ [exn] } := rfl
  rw [hside, withHandler_trans hraise, side_of_withHandler hraise]
  rfl

/-- A message is received, and what follows is done. -/
theorem receive_alone (s : State) (throwing : Nat → Message → Option (List UInt8)) (i : Nat) (e : End)
    (m : Message) :
    (receive s { throws := throwing i m } e m).2 = receiver throwing e i m ∧
      ∀ rest, ∃ s', (machine d enc).Alone (receive s { throws := throwing i m } e m).1.1
        ((receive s { throws := throwing i m } e m).1.2 ++ rest) s' rest ∧ s'.side = s.side := by
  refine ⟨by cases e <;> cases m <;> rfl, fun rest => ?_⟩
  cases e with
  | server => cases m <;> exact ⟨_, .refl _ _, rfl⟩
  | client =>
    cases m with
    | response msgid result error => exact setResults_alone d enc _ _ rest
    | request | notify => exact ⟨_, .refl _ _, rfl⟩

/-- What follows a message: the next round, or the end of the loop. -/
theorem afterMessage_alone (s : State) (throwing : Nat → Message → Option (List UInt8)) (i : Nat)
    (e : End) (m : Message) {side : End → Side}
    (hnext : receiver throwing e i m = none → ∀ s', s'.side = s.side →
      ∃ s'', (machine d enc).Alone s' [.drain e] s'' [] ∧ s''.side = side)
    (hraise : ∀ exn, receiver throwing e i m = some exn →
      s.withHandler e (StreamHandler.finishRead ((s.side e).handler, some exn)) = side) :
    ∃ s', (machine d enc).Alone (afterMessage (receive s { throws := throwing i m } e m) e).1
      (afterMessage (receive s { throws := throwing i m } e m) e).2 s' [] ∧ s'.side = side := by
  obtain ⟨hexn, hrest⟩ := receive_alone d enc s throwing i e m
  cases hr : receiver throwing e i m with
  | none =>
    obtain ⟨s', halone, hs'⟩ := hrest [.drain e]
    obtain ⟨s'', halone', hside⟩ := hnext hr s' hs'
    refine ⟨s'', ?_, hside⟩
    rcases hrec : receive s { throws := throwing i m } e m with ⟨⟨s₁, k⟩, exn⟩
    rw [hrec] at halone hexn
    obtain rfl : exn = none := hexn.trans hr
    exact halone.trans halone'
  | some exn =>
    have hops : (receive s { throws := throwing i m } e m).1.2 = [] ∧
        (receive s { throws := throwing i m } e m).1.1.side = s.side := by
      rw [hr] at hexn
      cases e <;> cases m <;> first | exact ⟨rfl, rfl⟩ | cases hexn
    rcases hrec : receive s { throws := throwing i m } e m with ⟨⟨s₁, k⟩, exn'⟩
    rw [hrec] at hexn hops
    obtain rfl : exn' = some exn := hexn.trans hr
    obtain ⟨rfl, hside⟩ : k = [] ∧ s₁.side = s.side := hops
    obtain ⟨s', halone, hs'⟩ := raise_alone d enc s₁ e exn
    refine ⟨s', halone, ?_⟩
    rw [hs', ← hraise exn hr, State.withHandler, State.withHandler, hside]

/-- One round of the loop, and what follows it. -/
theorem drain_alone_step {x : Choice} {P : State → Prop}
    (h : ∃ s', (machine d enc).Alone (round d s x e).1 (round d s x e).2 s' [] ∧ P s') :
    ∃ s', (machine d enc).Alone s [.drain e] s' [] ∧ P s' := by
  obtain ⟨s', halone, hs'⟩ := h
  rw [← List.append_nil (round d s x e).2] at halone
  exact ⟨s', .exec x rfl halone, hs'⟩

/-- The loop of an `on_read` and what comes after it. -/
theorem drain_alone (s : State) (throwing : Nat → Message → Option (List UInt8)) (e : End) :
    ∃ s', (machine d enc).Alone s [.drain e] s' [] ∧ s'.side = s.withHandler e
      (StreamHandler.finishRead ((s.side e).handler.drainRead d (receiver throwing e) [])) := by
  -- a round that hands over a message leaves fewer bytes
  generalize hn : (s.side e).handler.pac.received.length = n
  induction n using Nat.strong_induction_on generalizing s with
  | h n ih =>
    rw [StreamHandler.drainRead_next]
    cases hnext : next d (s.side e).handler.pac.parsed (s.side e).handler.pac.received with
    | none u =>
      refine drain_alone_step d enc (x := {}) ?_
      rw [round]
      dsimp only
      rw [hnext]
      dsimp only
      have hside : (s.onSide e fun a => { a with handler := { a.handler with pac := u } }).side =
        s.withHandler e { (s.side e).handler with pac := u } := rfl
      split
      · obtain ⟨s', halone, hs'⟩ := raise_alone d enc _ e .messageTooLarge
        refine ⟨s', halone, ?_⟩
        rw [hs', withHandler_trans hside, side_of_withHandler hside]
      · refine ⟨_, .refl _ _, ?_⟩
        show State.withHandler _ e (State.side _ e).handler.start = _
        rw [withHandler_trans hside, side_of_withHandler hside]
        rfl
    | bad u =>
      refine drain_alone_step d enc (x := {}) ?_
      rw [round]
      dsimp only
      rw [hnext]
      dsimp only
      have hside : (s.onSide e fun a => { a with handler := { a.handler with pac := u } }).side =
        s.withHandler e { (s.side e).handler with pac := u } := rfl
      obtain ⟨s', halone, hs'⟩ := raise_alone d enc _ e .parseError
      refine ⟨s', halone, ?_⟩
      rw [hs', withHandler_trans hside, side_of_withHandler hside]
    | value msg u =>
      have hlt := next_value hnext
      cases hm : onMessage msg with
      | error exn =>
        refine drain_alone_step d enc (x := {}) ?_
        rw [round]
        dsimp only
        rw [hnext]
        dsimp only
        rw [hm]
        simp only [StreamHandler.onMessage, handOver, hm]
        have hside : (s.onSide e fun a => { a with handler := { a.handler with
            pac := u, dispatched := a.handler.dispatched ++ [msg] } }).side =
          s.withHandler e { (s.side e).handler with
            pac := u, dispatched := (s.side e).handler.dispatched ++ [msg] } := rfl
        obtain ⟨s', halone, hs'⟩ := raise_alone d enc _ e exn
        refine ⟨s', halone, ?_⟩
        rw [hs', withHandler_trans hside, side_of_withHandler hside]
      | ok m =>
        refine drain_alone_step d enc
          (x := { throws := throwing (s.side e).handler.calls.length m }) ?_
        rw [round]
        dsimp only
        rw [hnext]
        dsimp only
        rw [hm]
        simp only [StreamHandler.onMessage, handOver, hm, id_eq]
        have hside : ((s.onSide e fun a => { a with handler := { a.handler with
            pac := u, dispatched := a.handler.dispatched ++ [msg] } }).onSide e fun a =>
              { a with handler := { a.handler with calls := a.handler.calls ++ [m] } }).side =
          s.withHandler e { (s.side e).handler with
            pac := u
            dispatched := (s.side e).handler.dispatched ++ [msg]
            calls := (s.side e).handler.calls ++ [m] } := by
          simp [State.onSide, State.withHandler]
        refine afterMessage_alone d enc _ throwing _ e m ?_ ?_
        · intro hr s' hs'
          rw [hside] at hs'
          unfold Unpacker.messageSize at hlt
          obtain ⟨s'', halone, hs''⟩ := ih u.received.length (by omega) s'
            (by rw [side_of_withHandler hs'])
          refine ⟨s'', halone, ?_⟩
          rw [hs'', withHandler_trans hs', side_of_withHandler hs', hr]
        · intro exn hr
          rw [withHandler_trans hside, side_of_withHandler hside, hr]

/-- **A read that is left alone** does to its end what `stream_handler::on_read` does, and leaves the
handler of the other end as it is. -/
theorem onRead_alone (s : State) (throwing : Nat → Message → Option (List UInt8)) (e : End)
    (hreads : 0 < (s.side e).handler.reads) {n : Nat} (hpos : 0 < n)
    (hn : n ≤ (s.side e.peer).unread.length) :
    ∃ s', (machine d enc).Alone s [.onRead e] s' [] ∧
      (s'.side e).handler = (s.side e).handler.onRead d (receiver throwing e)
        (.ok ((s.side e.peer).unread.take n)) ∧
      (s'.side e.peer).handler = (s.side e.peer).handler := by
  obtain ⟨s', halone, hs'⟩ := drain_alone d enc (transfer s e n) throwing e
  have hx : (machine d enc).exec s (.onRead e) { bytes := n } =
      some (transfer s e n, [.drain e]) := by
    simp only [machine]
    rw [if_neg (Nat.ne_of_gt hreads), if_neg Bool.false_ne_true, if_pos ⟨hpos, hn⟩]
  refine ⟨s', .exec _ hx halone, ?_, ?_⟩
  · rw [side_of_withHandler hs', StreamHandler.onRead_finishRead]
    cases e <;> rfl
  · rw [hs']
    cases e <;> rfl

end

end Wire

end MsgpackRpc
