import MsgpackRpc.Lib.Channel
import MsgpackRpc.Server.Request
import MsgpackRpc.Udp.Send

/-!
# Clients and a server over UDP

Any number of clients, each with a session and a connected socket, and one server, whose socket all
of them send to. The network keeps every datagram that was sent and delivers any of them at any time:
so datagrams are lost, repeated and overtaken. A response goes to the endpoint that the request came
from, which the server takes from the datagram.

A receive gets as much of a datagram as there is room for in the unpacker's buffer, and each end may
stop receiving for good, after an error or an exception. The sessions and the server are there all the
time, and no wait for a future runs out (`future_impl::timed_wait`): that would complete a future which
stays in the table.
-/

namespace MsgpackRpc

open Threads Unpack

namespace Udp

namespace Network

/-- The clients by their endpoints, the server with its requests, each with the endpoint that it was
received from, and the responses that were sent. Which call a request comes from is not known
(`sentBy`), and the datagrams that a client has sent are in its `sent`. The handlers that a flush runs
are threads of their own. -/
structure State where
  client : Endpoint → Client := fun _ => { isRunning := true }
  server : DgramHandler := DgramHandler.start { isOpen := true }
  requests : List (RequestImpl × Endpoint) := []
  sent : List (Endpoint × List UInt8) := []

/-- A client changes. -/
def State.onClient (s : State) (ep : Endpoint) (f : Client → Client) : State :=
  { s with client := Function.update s.client ep (f (s.client ep)) }

@[simp] theorem onClient_self (s : State) (ep : Endpoint) (f : Client → Client) :
    (s.onClient ep f).client ep = f (s.client ep) := Function.update_self ..

theorem onClient_of_ne (s : State) {ep ep' : Endpoint} (hne : ep' ≠ ep) (f : Client → Client) :
    (s.onClient ep f).client ep' = s.client ep' := Function.update_of_ne hne ..

@[simp] theorem onClient_requests (s : State) (ep : Endpoint) (f : Client → Client) :
    (s.onClient ep f).requests = s.requests := rfl

/-- A session changes. -/
def State.onSession (s : State) (ep : Endpoint)
    (f : Session Session.Source → Session Session.Source) : State :=
  s.onClient ep fun c => { c with session := f c.session }

/-- The operations. -/
inductive Op where
  | connect (ep : Endpoint)
  | sendRequest (ep : Endpoint) (method params : Object)
  | sendRequestImpl (ep : Endpoint) (c : Nat)
  | sendData (ep : Endpoint) (c : Nat)
  | notify (ep : Endpoint) (method params : Object)
  | serverOnRead
  | answer (request : Nat) (res err : Object)
  | clientOnRead (ep : Endpoint)
  | onMessage (ep : Endpoint) (m : Message)
  | stepTimerHandler (ep : Endpoint)
  | setResult (ep : Endpoint) (c : Completion Session.Source)
  deriving DecidableEq, Repr

/-- The operations that users, the dispatcher and the loops start. -/
def Op.entry : Op → Bool
  | .sendRequestImpl .. | .sendData .. | .onMessage .. | .setResult .. => false
  | _ => true

/-- What the operations do not determine: the order in which the table is walked, what the calls on
the socket do, which datagram arrives, of which sender, and how much of it there is room for, and what
the dispatcher throws. -/
structure Choice where
  it : List Reqtable.Entry := []
  outcomes : Outcomes := {}
  fails : Bool := false
  sender : Endpoint := default
  datagram : Nat := 0
  room : Nat := 0
  throws : Option (List UInt8) := none
  deriving DecidableEq, Repr

/-- The message of a call. -/
def request (call : Call) : Message := .request call.msgid call.method call.params

/-- What the server socket does with a message: `server_impl::on_request` (`server.cc:79`) builds the
request before the dispatcher is called. -/
def serverReceiver (x : Choice) : Receiver :=
  ServerSocket.receiver (fun _ => true) fun _ _ => x.throws.map .dispatcher

/-- What the client socket does with a message. -/
def clientReceiver : Receiver := ClientSocket.receiver fun _ => true

/-- The request that is built when `on_request` is called with an endpoint. -/
def toRequest : Message × Option Endpoint → Option (RequestImpl × Endpoint)
  | (.request msgid method params, some ep) => some ({ msgid, method, params, sentBy := 0 }, ep)
  | _ => none

section
variable (d : Decoder UInt8 Object) (enc : Object → List UInt8)

/-- `on_read` of the server socket. -/
def serverOnRead (s : State) (x : Choice) (bytes : List UInt8) : State :=
  let server := s.server.onRead d (serverReceiver x) (.ok (bytes.take x.room) x.sender)
  { s with
    server
    requests := s.requests ++
      (server.calls.drop s.server.calls.length).filterMap toRequest }

/-- `on_read` of a client socket, and the messages that it hands to the session. -/
def clientOnRead (s : State) (ep : Endpoint) (x : Choice) (bytes : List UInt8) : State × List Op :=
  let conn := (s.client ep).conn.onRead d clientReceiver (.ok (bytes.take x.room) x.sender)
  (s.onClient ep fun c => { c with conn },
    (conn.calls.drop (s.client ep).conn.calls.length).map fun call => .onMessage ep call.1)

/-- The network as a system of threads. `connect` is the constructor of `client_transport`
(`udp.cc:134`), which connects the socket. -/
def machine : System State Op Choice where
  entry := Op.entry
  exec s op x :=
    match op with
    | .connect ep =>
      if (s.client ep).conn.isOpen then none
      else some (s.onClient ep fun c => (c.connect x.outcomes).1, [])
    | .sendRequest ep method params =>
      some (s.onSession ep fun ss => ss.sendRequest method params,
        [.sendRequestImpl ep (s.client ep).session.calls.length])
    | .sendRequestImpl ep c =>
      (s.client ep).session.calls[c]?.map fun call =>
        (s.onSession ep fun ss => ss.sendRequestImpl c call, [.sendData ep c])
    | .sendData ep c =>
      (s.client ep).session.calls[c]?.map fun call =>
        (s.onClient ep fun cl => (cl.sendData id x.outcomes (.sbuf (enc (request call).pack))).1, [])
    | .notify ep method params =>
      some (s.onClient ep fun cl =>
        (cl.sendData id x.outcomes (.sbuf (enc (Message.notify method params).pack))).1, [])
    | .serverOnRead =>
      if s.server.receives = 0 then none
      else if x.fails then
        some ({ s with server := s.server.onRead d (serverReceiver x) (.error 1) }, [])
      else (s.client x.sender).sent[x.datagram]?.map fun bytes => (serverOnRead d s x bytes, [])
    | .answer r res err =>
      s.requests[r]?.map fun q =>
        let (req, sent) := q.1.call res err
        ({ s with
          requests := s.requests.set r (req, q.2)
          sent := s.sent ++
            if x.outcomes.sendTo then sent.toList.map fun msg => (q.2, enc msg) else [] }, [])
    | .clientOnRead ep =>
      if (s.client ep).conn.receives = 0 then none
      else if x.fails then
        some (s.onClient ep fun c =>
          { c with conn := c.conn.onRead d clientReceiver (.error 1) }, [])
      else
        s.sent[x.datagram]?.bind fun p =>
          if p.1 = ep then some (clientOnRead d s ep x p.2) else none
    | .onMessage ep m =>
      match m with
      | .response msgid result error =>
        let (session, cs) := (s.client ep).session.onResponse .response msgid result error
        some (s.onSession ep fun _ => session, cs.map (.setResult ep))
      | .request .. | .notify .. => some (s, [])
    | .stepTimerHandler ep =>
      if x.it.Perm (s.client ep).session.reqtable.entries then
        let (session, cs) := (s.client ep).session.stepTimerHandler .stepTimer x.it
        some (s.onSession ep fun _ => session, cs.map (.setResult ep))
      else none
    | .setResult ep c => some (s.onSession ep fun ss => (ss.setResult c).1, [])

end

/-- Nothing has been sent. -/
def init : Config State Op := ⟨{}, []⟩

/-! ## Datagrams -/

section
variable {d : Decoder UInt8 Object} {enc : Object → List UInt8}

/-- **A datagram that is one message** makes one call, and leaves nothing in the unpacker. -/
theorem onRead_whole (recv : Receiver) {h : DgramHandler} (hpac : h.pac = .empty)
    {bytes : List UInt8} {m : Message} (he : Encodes d bytes m.pack) (ep : Endpoint) :
    (h.onRead d recv (.ok bytes ep)).pac = .empty ∧
      (h.onRead d recv (.ok bytes ep)).calls = h.calls ++ [DgramHandler.attributed ep m] ∧
      (h.onRead d recv (.ok bytes ep)).raised = h.raised ++ (recv h.calls.length m).toList := by
  have hdrain : drain d (DgramHandler.onMessage recv ep) .parseError (h.dispatched, h.calls) [] bytes =
      (.empty, (h.dispatched ++ [m.pack], h.calls ++ [DgramHandler.attributed ep m]),
        recv h.calls.length m) := by
    rw [drain_next, next_of_encodes he]
    dsimp only
    rw [DgramHandler.onMessage_ok ep _ (onMessage_pack m)]
    cases recv h.calls.length m <;> rfl
  unfold DgramHandler.onRead
  rw [hpac]
  simp only [Unpacker.feed, Unpacker.empty, List.nil_append]
  rw [hdrain]
  cases recv h.calls.length m with
  | none => exact ⟨rfl, rfl, (List.append_nil _).symm⟩
  | some exn => exact ⟨rfl, rfl, rfl⟩

/-- `c'` is `c` after its socket has been connected or a datagram has been sent: what it has received
and its session are the same. -/
structure SameReader (c c' : Client) : Prop where
  session : c'.session = c.session
  pac : c'.conn.pac = c.conn.pac
  raised : c'.conn.raised = c.conn.raised

theorem sameReader_connect (c : Client) (o : Outcomes) : SameReader c (c.connect o).1 := by
  unfold Client.connect
  split
  · dsimp only
    split
    · exact ⟨rfl, rfl, rfl⟩
    · split <;> exact ⟨rfl, rfl, rfl⟩
  · exact ⟨rfl, rfl, rfl⟩

/-- What a client has sent after `send_data`. -/
theorem sendData_reader (c : Client) (o : Outcomes) (buf : Buffer) :
    SameReader c (c.sendData id o buf).1 ∧
      ∀ bytes ∈ (c.sendData id o buf).1.sent, bytes ∈ c.sent ∨ bytes = buf.bytes := by
  have hsend (c : Client) : SameReader c (c.handlerSendData o buf).1 ∧
      ∀ bytes ∈ (c.handlerSendData o buf).1.sent, bytes ∈ c.sent ∨ bytes = buf.bytes := by
    unfold Client.handlerSendData Client.sendTo
    split
    · exact ⟨⟨rfl, rfl, rfl⟩, fun _ => .inl⟩
    · split
      · exact ⟨⟨rfl, rfl, rfl⟩, fun _ => .inl⟩
      · split
        · exact ⟨⟨rfl, rfl, rfl⟩, fun bytes hb => by simpa using hb⟩
        · exact ⟨⟨rfl, rfl, rfl⟩, fun _ => .inl⟩
  unfold Client.sendData
  simp only [id_eq, ite_self]
  split
  · exact hsend c
  · have hconnect := sameReader_connect c o
    have hframe := Client.connect_frame c o
    rcases hc : c.connect o with ⟨c', _ | e⟩ <;> rw [hc] at hconnect hframe
    · obtain ⟨⟨h1, h2, h3⟩, hsent⟩ := hsend c'
      refine ⟨⟨h1.trans hconnect.session, h2.trans hconnect.pac, h3.trans hconnect.raised⟩, ?_⟩
      intro bytes hb
      have hsame : c'.sent = c.sent := by
        have hsent' := congrArg Client.sent hframe
        exact hsent'
      rw [← hsame]
      exact hsent bytes hb
    · exact ⟨hconnect, fun bytes hb => .inl (congrArg Client.sent hframe ▸ hb)⟩

end

/-! ## Steps -/

/-- Nothing that the users see happens: no call is made, no request is answered, and no future is
completed. -/
structure Quiet (s s' : State) : Prop where
  calls : ∀ ep, (s'.client ep).session.calls = (s.client ep).session.calls
  completions : ∀ ep, (s'.client ep).session.completions = (s.client ep).session.completions
  futures : ∀ ep, (s.client ep).session.futures.map Future.call <+:
    (s'.client ep).session.futures.map Future.call
  requests : ∃ new, s'.requests = s.requests ++ new ∧ ∀ q ∈ new, q.1.answers = []

/-- What an operation does for the users. -/
inductive Steps (s : State) : Op → State → Prop where
  | sendRequest (ep : Endpoint) (method params : Object) :
    Steps s (.sendRequest ep method params)
      (s.onSession ep fun ss => ss.sendRequest method params)
  | answer {r : Nat} {req : RequestImpl} {ep : Endpoint} (res err : Object)
    (sent : List (Endpoint × List UInt8)) : s.requests[r]? = some (req, ep) →
    Steps s (.answer r res err)
      { s with requests := s.requests.set r ((req.call res err).1, ep), sent }
  | setResult (ep : Endpoint) (c : Completion Session.Source) :
    Steps s (.setResult ep c) (s.onSession ep fun ss => (ss.setResult c).1)
  | quiet {op : Op} {s' : State} : Quiet s s' → Steps s op s'

/-- A client changes in a way that its user does not see. -/
theorem quiet_onClient (s : State) {ep : Endpoint} {f : Client → Client}
    (hcalls : (f (s.client ep)).session.calls = (s.client ep).session.calls)
    (hcs : (f (s.client ep)).session.completions = (s.client ep).session.completions)
    (hfut : (s.client ep).session.futures.map Future.call <+:
      (f (s.client ep)).session.futures.map Future.call) : Quiet s (s.onClient ep f) := by
  refine ⟨?_, ?_, ?_, [], (List.append_nil _).symm, nofun⟩ <;> intro ep' <;>
    rcases eq_or_ne ep' ep with rfl | hne
  · rwa [onClient_self]
  · rw [onClient_of_ne s hne]
  · rwa [onClient_self]
  · rw [onClient_of_ne s hne]
  · rwa [onClient_self]
  · simp [onClient_of_ne s hne]

theorem quiet_of_session (s : State) {ep : Endpoint} {f : Client → Client}
    (hs : (f (s.client ep)).session = (s.client ep).session) : Quiet s (s.onClient ep f) :=
  quiet_onClient s (by rw [hs]) (by rw [hs]) (by simp [hs])

theorem quiet_hands (s : State) {ep : Endpoint} {session : Session Session.Source}
    {cs : List (Completion Session.Source)} (hs : (s.client ep).session.Hands session cs) :
    Quiet s (s.onSession ep fun _ => session) := by
  have hfut := Future.map_eq_of_untimed (g := Future.call) (fun _ => rfl) hs.futures
  exact quiet_onClient s (by rw [hs.frame]) (by rw [hs.frame]) (by simp [hfut])

theorem quiet_server (s : State) (server : DgramHandler) : Quiet s { s with server } :=
  ⟨fun _ => rfl, fun _ => rfl, fun _ => List.prefix_refl _, [], (List.append_nil _).symm, by simp⟩

/-- The server receives something. -/
theorem quiet_receive (s : State) (server : DgramHandler) (calls : List (Message × Option Endpoint)) :
    Quiet s { s with server, requests := s.requests ++ calls.filterMap toRequest } := by
  refine ⟨fun _ => rfl, fun _ => rfl, fun _ => List.prefix_refl _, _, rfl, ?_⟩
  intro q hq
  obtain ⟨⟨m, ep⟩, -, hm⟩ := List.mem_filterMap.1 hq
  cases m with
  | request msgid method params =>
    cases ep with
    | none => cases hm
    | some ep =>
      cases hm
      rfl
  | response | notify => cases hm

theorem exec_steps {d : Decoder UInt8 Object} {enc : Object → List UInt8} {s s' : State} {op : Op}
    {x : Choice} {k : List Op} (hx : (machine d enc).exec s op x = some (s', k)) : Steps s op s' := by
  cases op with
  | connect ep =>
    simp only [machine] at hx
    split at hx
    · cases hx
    · cases hx
      exact .quiet (quiet_of_session s (sameReader_connect _ _).session)
  | sendRequest ep method params =>
    cases hx
    exact .sendRequest ep method params
  | sendRequestImpl ep c =>
    obtain ⟨call, hcall, hx⟩ := Option.map_eq_some_iff.1 hx
    cases hx
    refine .quiet (quiet_onClient s rfl rfl ?_)
    simp only [Session.sendRequestImpl, List.map_append]
    exact List.prefix_append _ _
  | sendData ep c =>
    obtain ⟨call, hcall, hx⟩ := Option.map_eq_some_iff.1 hx
    cases hx
    exact .quiet (quiet_of_session s (sendData_reader _ _ _).1.session)
  | notify ep method params =>
    cases hx
    exact .quiet (quiet_of_session s (sendData_reader _ _ _).1.session)
  | serverOnRead =>
    simp only [machine] at hx
    split at hx
    · cases hx
    · split at hx
      · cases hx
        exact .quiet (quiet_server s _)
      · obtain ⟨bytes, hb, hx⟩ := Option.map_eq_some_iff.1 hx
        cases hx
        exact .quiet (quiet_receive s _ _)
  | answer r res err =>
    obtain ⟨⟨req, ep⟩, hreq, hx⟩ := Option.map_eq_some_iff.1 hx
    cases hx
    exact .answer res err _ hreq
  | clientOnRead ep =>
    simp only [machine] at hx
    split at hx
    · cases hx
    · split at hx
      · cases hx
        exact .quiet (quiet_of_session s rfl)
      · obtain ⟨p, -, hx⟩ := Option.bind_eq_some_iff.1 hx
        split at hx
        · cases hx
          exact .quiet (quiet_of_session s rfl)
        · cases hx
  | onMessage ep m =>
    cases m with
    | response msgid result error =>
      have hhands := Session.hands_onResponse (s.client ep).session .response msgid result error
      cases hx
      exact .quiet (quiet_hands s hhands)
    | request | notify =>
      cases hx
      exact .quiet (quiet_server s s.server)
  | stepTimerHandler ep =>
    simp only [machine] at hx
    split at hx
    · next hp =>
      cases hx
      exact .quiet (quiet_hands s (Session.hands_stepTimerHandler _ .stepTimer hp))
    · cases hx
  | setResult ep c =>
    cases hx
    exact .setResult ep c

end Network

end Udp

end MsgpackRpc
