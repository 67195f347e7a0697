import MsgpackRpc.Dgram.Handler
import MsgpackRpc.Session.Machine

/-!
# Sending a request over UDP

`session_impl::send_request_impl` (`session.cc:67`) with the `udp::client_transport` (`udp.cc:147`).
The future is inserted in the table first; then the transport connects the socket again if it is
closed, and the handler sends the datagram. Each step can fail: `connect` closes the socket and
returns, `set_option`, `remote_endpoint` and `send_to` throw, and a socket that is closed makes
`dgram_handler::send_data` return. None of them takes the future out of the table again.
-/

namespace MsgpackRpc

open Threads

namespace Udp

/-- A packed request: `sbuffer`, or the `iovec`s of a `vrefbuffer`. -/
inductive Buffer where
  | sbuf (data : List UInt8)
  | vbuf (vector : List (List UInt8))
  deriving DecidableEq, Repr

/-- The bytes of a buffer. -/
def Buffer.bytes : Buffer → List UInt8
  | .sbuf data => data
  | .vbuf vector => vector.flatten

/-- What the calls on the socket do: whether `connect` reports no error, and whether the two
`set_option`s, `remote_endpoint` and `send_to` return. -/
structure Outcomes where
  connect : Bool := true
  reuseAddress : Bool := true
  broadcast : Bool := true
  remoteEndpoint : Bool := true
  sendTo : Bool := true
  deriving DecidableEq, Repr

/-- Which call threw a `boost::system::system_error`. -/
inductive SystemError where
  | setOption
  | remoteEndpoint
  | sendTo
  deriving DecidableEq, Repr

/-- A session with its `udp::client_transport`, and the datagrams handed to `send_to`. -/
structure Client where
  session : Session Session.Source := {}
  conn : DgramHandler := {}
  broadcast : Bool := false
  isRunning : Bool := false
  sent : List (List UInt8) := []

namespace Client

/-- `udp::client_socket::connect` (`udp.cc:87`). -/
def connect (c : Client) (o : Outcomes) : Client × Option SystemError :=
  if o.connect then
    let c := { c with conn := { c.conn with isOpen := true } }
    if !o.reuseAddress then (c, some .setOption)
    else if c.broadcast && !o.broadcast then (c, some .setOption)
    else ({ c with conn := c.conn.start }, none)
  else ({ c with conn := { c.conn with isOpen := false } }, none)

/-- `dgram_handler::send_data` to an endpoint (`dgram_handler.cc:106`). -/
def sendTo (c : Client) (o : Outcomes) (buf : Buffer) : Client × Option SystemError :=
  if o.sendTo then ({ c with sent := c.sent ++ [buf.bytes] }, none) else (c, some .sendTo)

/-- `dgram_handler::send_data` (`dgram_handler.cc:98`). -/
def handlerSendData (c : Client) (o : Outcomes) (buf : Buffer) : Client × Option SystemError :=
  if !c.conn.isOpen then (c, none)
  else if !o.remoteEndpoint then (c, some .remoteEndpoint)
  else c.sendTo o buf

/-- The session when `send_data` is called: the id is allocated and the future inserted. -/
def inserted (c : Client) (method params : Object) : Session Session.Source :=
  (c.session.sendRequest method params).sendRequestImpl c.session.calls.length
    ⟨c.session.msgidRr, method, params⟩

section
variable (poll : Session Session.Source → Session Session.Source)

/-- `udp::client_transport::send_data` (`udp.cc:147`). `poll` is what the handlers that the flush runs
do to the session. -/
def sendData (c : Client) (o : Outcomes) (buf : Buffer) : Client × Option SystemError :=
  let c := if c.isRunning then c else { c with session := poll c.session }
  if c.conn.isOpen then c.handlerSendData o buf
  else
    match c.connect o with
    | (c, some e) => (c, some e)
    | (c, none) => c.handlerSendData o buf

/-- `session::send_request` (`session.h:74`) with `session_impl::send_request_impl` (`session.cc:67`):
the exception, or the future that is returned. -/
def sendRequest (c : Client) (o : Outcomes) (method params : Object) (buf : Buffer) :
    Client × Except SystemError FutureId :=
  match ({ c with session := c.inserted method params } : Client).sendData poll o buf with
  | (c', some e) => (c', .error e)
  | (c', none) => (c', .ok c.session.futures.length)

end

/-- What `send_request` should do: when it throws, the table is as it was before; when it returns a
future that is not ready, the datagram was handed to `send_to`. -/
def SendsOrLeavesNoTrace (c : Client) (buf : Buffer) : Client × Except SystemError FutureId → Prop
  | (c', .error _) => c'.session.reqtable = c.session.reqtable
  | (c', .ok f) => ∀ fut, c'.session.futures[f]? = some fut → fut.isReady = false →
    c'.sent = c.sent ++ [buf.bytes]

/-- No step fails: the socket is open or can be connected, and sending does not throw. -/
structure Succeeds (c : Client) (o : Outcomes) : Prop where
  isOpen : c.conn.isOpen = true ∨
    o.connect = true ∧ o.reuseAddress = true ∧ (c.broadcast = true → o.broadcast = true)
  remoteEndpoint : o.remoteEndpoint = true
  sendTo : o.sendTo = true

/-- The steps of `dgram_handler::send_data`: the datagram is sent when none fails. -/
theorem handlerSendData_spec (c : Client) (o : Outcomes) (buf : Buffer) :
    (c.handlerSendData o buf).1.session = c.session ∧
      (c.conn.isOpen = true → o.remoteEndpoint = true → o.sendTo = true →
        c.handlerSendData o buf = ({ c with sent := c.sent ++ [buf.bytes] }, none)) ∧
      (¬ (c.conn.isOpen = true ∧ o.remoteEndpoint = true ∧ o.sendTo = true) →
        (c.handlerSendData o buf).1.sent = c.sent) := by
  unfold handlerSendData sendTo
  cases c.conn.isOpen <;> cases o.remoteEndpoint <;> cases o.sendTo <;> simp

/-- Connecting changes the socket only. -/
theorem connect_frame (c : Client) (o : Outcomes) :
    (c.connect o).1 = { c with conn := (c.connect o).1.conn } := by
  unfold connect
  split
  · dsimp only
    split
    · rfl
    · split <;> rfl
  · rfl

/-- `connect` returns with the socket open when none of its steps fails. -/
theorem connect_isOpen (c : Client) (o : Outcomes) :
    (c.connect o).2 = none ∧ (c.connect o).1.conn.isOpen = true ↔
      o.connect = true ∧ o.reuseAddress = true ∧ (c.broadcast = true → o.broadcast = true) := by
  unfold connect
  cases o.connect <;> cases o.reuseAddress <;> cases c.broadcast <;> cases o.broadcast <;>
    simp [DgramHandler.start]

/-- **What `send_data` does**: apart from the handlers that the flush runs it leaves the session
alone, and it sends the datagram exactly when no step fails. -/
theorem sendData_spec (poll : Session Session.Source → Session Session.Source) (c : Client)
    (o : Outcomes) (buf : Buffer) :
    (c.sendData poll o buf).1.session = (if c.isRunning then c.session else poll c.session) ∧
      (c.Succeeds o → (c.sendData poll o buf).2 = none ∧
        (c.sendData poll o buf).1.sent = c.sent ++ [buf.bytes]) ∧
      (¬ c.Succeeds o → (c.sendData poll o buf).1.sent = c.sent) := by
  -- the flush comes first and only touches the session
  obtain ⟨d, hd, hsession, hconn, hbroadcast, hsent⟩ : ∃ d : Client,
      d = (if c.isRunning then c else { c with session := poll c.session }) ∧
      d.session = (if c.isRunning then c.session else poll c.session) ∧ d.conn = c.conn ∧
      d.broadcast = c.broadcast ∧ d.sent = c.sent := by
    refine ⟨_, rfl, ?_⟩
    cases c.isRunning <;> simp
  have hsucc : c.Succeeds o ↔ d.Succeeds o := by
    constructor <;> intro h <;> refine ⟨?_, h.remoteEndpoint, h.sendTo⟩
    · rw [hconn, hbroadcast]
      exact h.isOpen
    · rw [← hconn, ← hbroadcast]
      exact h.isOpen
  rw [← hsession, ← hsent, hsucc]
  unfold sendData
  rw [← hd]
  dsimp only
  by_cases hopen : d.conn.isOpen = true
  · obtain ⟨h1, h2, h3⟩ := handlerSendData_spec d o buf
    rw [if_pos hopen]
    refine ⟨h1, ?_, ?_⟩
    · intro h
      rw [h2 hopen h.remoteEndpoint h.sendTo]
      exact ⟨rfl, rfl⟩
    · intro h
      exact h3 fun h' => h ⟨.inl hopen, h'.2.1, h'.2.2⟩
  · rw [if_neg hopen]
    have hframe := connect_frame d o
    have hok := connect_isOpen d o
    rcases hcon : d.connect o with ⟨e, _ | err⟩
    · rw [hcon] at hframe hok
      dsimp only at hframe hok ⊢
      obtain ⟨h1, h2, h3⟩ := handlerSendData_spec e o buf
      rw [hframe] at h1 h2 h3 ⊢
      refine ⟨h1, ?_, ?_⟩
      · intro h
        obtain ⟨-, hopen'⟩ := hok.2 (h.isOpen.resolve_left hopen)
        rw [h2 hopen' h.remoteEndpoint h.sendTo]
        exact ⟨rfl, rfl⟩
      · intro h
        exact h3 fun h' => h ⟨.inr (hok.1 ⟨rfl, h'.1⟩), h'.2.1, h'.2.2⟩
    · rw [hcon] at hframe hok
      dsimp only at hframe hok ⊢
      rw [hframe]
      refine ⟨rfl, ?_, fun _ => rfl⟩
      intro h
      cases (hok.2 (h.isOpen.resolve_left hopen)).1

/-- **A UDP send sends, or leaves no trace, exactly when no step fails.** For every reachable table,
both forms of a message and every outcome of the steps: when the socket is open or can be connected
and sending does not throw, `send_request` does what it should, whatever handlers the flush runs;
otherwise it does not, unless a handler that the flush runs happens to take the new future away. -/
theorem sends_or_leaves_no_trace {ls : List (Label Session.Op Session.Choice)}
    {cfg : Config (Session Session.Source) Session.Op}
    (hrun : Session.machine.run Session.init ls = some cfg) {c : Client} (hc : c.session = cfg.shared)
    (poll : Session Session.Source → Session Session.Source) (o : Outcomes) (method params : Object)
    (buf : Buffer) :
    (c.Succeeds o → c.SendsOrLeavesNoTrace buf (c.sendRequest poll o method params buf)) ∧
      (c.isRunning = true ∨ poll (c.inserted method params) = c.inserted method params →
        c.SendsOrLeavesNoTrace buf (c.sendRequest poll o method params buf) → c.Succeeds o) := by
  obtain ⟨hsession, hsent, hunsent⟩ :=
    sendData_spec poll { c with session := c.inserted method params } o buf
  have hsucc : ({ c with session := c.inserted method params } : Client).Succeeds o ↔
      c.Succeeds o :=
    ⟨fun h => ⟨h.isOpen, h.remoteEndpoint, h.sendTo⟩, fun h => ⟨h.isOpen, h.remoteEndpoint, h.sendTo⟩⟩
  rw [hsucc] at hsent hunsent
  -- without a flush, or with one that runs no handler of the session, the new future stays
  have hkeep (hpoll : c.isRunning = true ∨
      poll (c.inserted method params) = c.inserted method params) :
      (({ c with session := c.inserted method params } : Client).sendData poll o buf).1.session =
        c.inserted method params := by
    rw [hsession]
    rcases hpoll with hpoll | hpoll
    · rw [if_pos hpoll]
    · rw [hpoll, ite_self]
  unfold sendRequest
  rcases hr : ({ c with session := c.inserted method params } : Client).sendData poll o buf with
    ⟨c', _ | e⟩
  · rw [hr] at hkeep hsent hunsent
    refine ⟨fun h _ _ _ => (hsent h).2, ?_⟩
    intro hpoll h
    by_contra hfail
    have hlost := h { msgid := c.session.msgidRr, call := c.session.calls.length
                      timeout := c.session.timeout } (by
      rw [hkeep hpoll]
      simp [inserted, Session.sendRequestImpl, Session.sendRequest, Session.nextMsgid]) rfl
    have hlen := congrArg List.length (hlost.symm.trans (hunsent hfail))
    simp at hlen
  · rw [hr] at hkeep hsent hunsent
    refine ⟨fun h => absurd (hsent h).1 (by simp), ?_⟩
    intro hpoll h
    -- the entry of the new future is still there, and was not before
    have hnew : c'.session.reqtable.lookup c.session.msgidRr = some c.session.futures.length := by
      rw [hkeep hpoll]
      exact Reqtable.lookup_insert _ _ _
    have hold : c'.session.reqtable = c.session.reqtable := h
    rw [hold] at hnew
    have hcons := Session.conserved_run hrun
    rw [← hc] at hcons
    exact absurd (hcons.lt_length (Reqtable.mem_values.2 ⟨_, hnew⟩)) (Nat.lt_irrefl _)

/-- A pending request of the session. -/
def onePending : List (Label Session.Op Session.Choice) :=
  [.spawn (.sendRequest (.str [0x66]) .nil), .exec 0 {}, .exec 0 {}]

/-- A client with a pending request whose socket was closed. -/
def reconnecting : Client :=
  { session := ((Session.machine.run Session.init onePending).getD Session.init).shared
    broadcast := true }

/-- Its second request, in two pieces. -/
def secondRequest : Buffer := .vbuf [[0x94, 0x00], [0x02, 0xa1, 0x67, 0xc0]]

/-- The socket can be connected, and the second request is sent. -/
theorem sends_or_leaves_no_trace_reconnecting :
    reconnecting.SendsOrLeavesNoTrace secondRequest
        (reconnecting.sendRequest id {} (.str [0x67]) .nil secondRequest) ∧
      (reconnecting.sendRequest id {} (.str [0x67]) .nil secondRequest).1.sent =
        [[0x94, 0x00, 0x02, 0xa1, 0x67, 0xc0]] :=
  ⟨(sends_or_leaves_no_trace (rfl : Session.machine.run Session.init onePending = some _)
    (rfl : reconnecting.session = _) id {} (.str [0x67]) .nil secondRequest).1
      ⟨.inr ⟨rfl, rfl, fun _ => rfl⟩, rfl, rfl⟩, rfl⟩

/-- When the socket is closed and cannot be connected, `send_request` returns a pending future, leaves
it in the table and sends nothing; when `send_to` throws, the future stays in the table too. -/
theorem send_leaves_trace :
    (∃ c', ({} : Client).sendRequest id { connect := false } (.str [0x66]) .nil
        (.sbuf [0x94, 0x00, 0x01, 0xa1, 0x66, 0xc0]) = (c', .ok 0) ∧
      c'.session.reqtable.lookup 1 = some 0 ∧ c'.sent = []) ∧
      (∃ c', ({} : Client).sendRequest id { sendTo := false } (.str [0x66]) .nil
          (.vbuf [[0x94, 0x00], [0x01, 0xa1, 0x66, 0xc0]]) = (c', .error .sendTo) ∧
        c'.session.reqtable.lookup 1 = some 0) ∧
      ¬ ({} : Client).SendsOrLeavesNoTrace (.sbuf [0x94, 0x00, 0x01, 0xa1, 0x66, 0xc0])
        (({} : Client).sendRequest id { connect := false } (.str [0x66]) .nil
          (.sbuf [0x94, 0x00, 0x01, 0xa1, 0x66, 0xc0])) := by
  refine ⟨⟨_, rfl, rfl, rfl⟩, ⟨_, rfl, rfl⟩, ?_⟩
  intro h
  have hsent := h _ rfl rfl
  cases hsent

end Client

end Udp

end MsgpackRpc
