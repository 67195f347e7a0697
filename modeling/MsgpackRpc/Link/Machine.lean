import MsgpackRpc.Lib.Threads
import MsgpackRpc.Server.Request
import MsgpackRpc.Session.Conserved

/-!
# A client session and a server connection

One client session and one server connection, joined by a reliable stream of messages in each
direction. Client threads send requests, in three steps: the id is allocated, the future is
inserted, and the message is written. The server builds a `request_impl` from each request that it
receives, and the dispatcher answers any of them at any time, in any order and any number of times.
Responses are delivered to the session; in between the step timer ticks, and the connection may be
reported as failed.

Two things are left out. No wait for a future runs out (`future_impl::timed_wait`): that would complete a
future which stays in the table, where a response or a tick completes it again. And the streams survive a
reported failure: what is in them still arrives, although over TCP the report comes with a close of the
socket that loses it.

`answers_correlated` says that this is a remote procedure call: a future is completed with the first
answer to its own request, and a response finds its future unless a timeout or a failure took it.
-/

namespace MsgpackRpc

open Threads

namespace Link

/-- What completes a future: the response to a request of the server, by number, a tick, or the
failure of the connection. -/
inductive Origin where
  | response (request : Nat)
  | stepTimer
  | failure
  deriving DecidableEq, Repr

/-- The two sides and the messages between them, a request with the number of its call and a
response with the number of the request it answers. `delivered` records the requests whose response
has been delivered. -/
structure State where
  client : Session Origin := {}
  toServer : List (Object × Nat) := []
  requests : List RequestImpl := []
  toClient : List (Object × Nat) := []
  delivered : List Nat := []

/-- The operations. -/
inductive Op where
  | sendRequest (method params : Object)
  | sendRequestImpl (c : Nat)
  | sendData (c : Nat)
  | onRequest
  | answer (request : Nat) (res err : Object)
  | onResponse
  | stepTimerHandler
  | connectionFailed
  | setResult (c : Completion Origin)
  deriving DecidableEq, Repr

/-- The operations that users, the dispatcher and the loops start. -/
def Op.entry : Op → Bool
  | .sendRequestImpl _ | .sendData _ | .setResult _ => false
  | _ => true

/-- The message of a call. -/
def request (call : Call) : Object :=
  (Message.request call.msgid call.method call.params).pack

/-- The link as a system of threads. The choice is the order in which the table is walked. -/
def machine : System State Op (List Reqtable.Entry) where
  entry := Op.entry
  exec s op it :=
    match op with
    | .sendRequest method params =>
      some ({ s with client := s.client.sendRequest method params },
        [.sendRequestImpl s.client.calls.length])
    | .sendRequestImpl c =>
      s.client.calls[c]?.map fun call =>
        ({ s with client := s.client.sendRequestImpl c call }, [.sendData c])
    | .sendData c =>
      s.client.calls[c]?.map fun call =>
        ({ s with toServer := s.toServer ++ [(request call, c)] }, [])
    | .onRequest =>
      match s.toServer with
      | [] => none
      | (msg, c) :: toServer =>
        match onMessage msg with
        | .ok (.request msgid method params) =>
          some ({ s with
            toServer
            requests := s.requests ++ [{ msgid, method, params, sentBy := c }] }, [])
        | _ => none
    | .answer r res err =>
      s.requests[r]?.map fun req =>
        let (req, sent) := req.call res err
        ({ s with
          requests := s.requests.set r req
          toClient := s.toClient ++ sent.toList.map fun msg => (msg, r) }, [])
    | .onResponse =>
      match s.toClient with
      | [] => none
      | (msg, r) :: toClient =>
        match onMessage msg with
        | .ok (.response msgid result error) =>
          let (client, cs) := s.client.onResponse (.response r) msgid result error
          some ({ s with client, toClient, delivered := s.delivered ++ [r] }, cs.map .setResult)
        | _ => none
    | .stepTimerHandler =>
      if it.Perm s.client.reqtable.entries then
        let (client, cs) := s.client.stepTimerHandler .stepTimer it
        some ({ s with client }, cs.map .setResult)
      else none
    | .connectionFailed =>
      if it.Perm s.client.reqtable.entries then
        let (client, cs) := s.client.onSystemError .failure it
        some ({ s with client }, cs.map .setResult)
      else none
    | .setResult c => some ({ s with client := (s.client.setResult c).1 }, [])

/-- Nothing has been sent. -/
def init : Config State Op := ⟨{}, []⟩

/-- The completion that an operation makes. -/
def Op.completion : Op → Option (Completion Origin)
  | .setResult c => some c
  | _ => none

/-- The call whose future an operation inserts. -/
def Op.insertion : Op → Option Nat
  | .sendRequestImpl c => some c
  | _ => none

/-- The call whose message an operation writes. -/
def Op.write : Op → Option Nat
  | .sendData c => some c
  | _ => none

/-! ## Steps -/

/-- What an operation does to the link, and what its thread does next. -/
inductive Steps (s : State) : Op → State → List Op → Prop where
  | sendRequest (method params : Object) :
    Steps s (.sendRequest method params) { s with client := s.client.sendRequest method params }
      [.sendRequestImpl s.client.calls.length]
  | sendRequestImpl {c : Nat} {call : Call} : s.client.calls[c]? = some call →
    Steps s (.sendRequestImpl c) { s with client := s.client.sendRequestImpl c call } [.sendData c]
  | sendData {c : Nat} {call : Call} : s.client.calls[c]? = some call →
    Steps s (.sendData c) { s with toServer := s.toServer ++ [(request call, c)] } []
  | onRequest {msg : Object} {c : Nat} {toServer : List (Object × Nat)} {msgid : MsgId}
    {method params : Object} : s.toServer = (msg, c) :: toServer →
    onMessage msg = .ok (.request msgid method params) →
    Steps s .onRequest { s with
      toServer
      requests := s.requests ++ [{ msgid, method, params, sentBy := c }] } []
  | answer {r : Nat} {req : RequestImpl} (res err : Object) : s.requests[r]? = some req →
    Steps s (.answer r res err) { s with
      requests := s.requests.set r (req.call res err).1
      toClient := s.toClient ++ (req.call res err).2.toList.map fun msg => (msg, r) } []
  | onResponse {msg : Object} {r : Nat} {toClient : List (Object × Nat)} {msgid : MsgId}
    {result error : Object} : s.toClient = (msg, r) :: toClient →
    onMessage msg = .ok (.response msgid result error) →
    Steps s .onResponse { s with
      client := (s.client.onResponse (.response r) msgid result error).1
      toClient
      delivered := s.delivered ++ [r] }
      ((s.client.onResponse (.response r) msgid result error).2.map .setResult)
  | take {op : Op} {client : Session Origin} {cs : List (Completion Origin)} : op.entry = true →
    s.client.Hands client cs → (∀ d ∈ cs, ∀ r, d.origin ≠ .response r) →
    Steps s op { s with client } (cs.map .setResult)
  | setResult (c : Completion Origin) :
    Steps s (.setResult c) { s with client := (s.client.setResult c).1 } []

theorem exec_steps {s s' : State} {op : Op} {it : List Reqtable.Entry} {k : List Op}
    (hx : machine.exec s op it = some (s', k)) : Steps s op s' k := by
  cases op with
  | sendRequest method params =>
    cases hx
    exact .sendRequest method params
  | sendRequestImpl c =>
    obtain ⟨call, hcall, hs⟩ := Option.map_eq_some_iff.1 hx
    cases hs
    exact .sendRequestImpl hcall
  | sendData c =>
    obtain ⟨call, hcall, hs⟩ := Option.map_eq_some_iff.1 hx
    cases hs
    exact .sendData hcall
  | onRequest =>
    simp only [machine] at hx
    split at hx
    · cases hx
    · next hs =>
      split at hx
      · next hmsg =>
        cases hx
        exact .onRequest hs hmsg
      · cases hx
  | answer r res err =>
    obtain ⟨req, hreq, hs⟩ := Option.map_eq_some_iff.1 hx
    obtain ⟨rfl, rfl⟩ := Prod.mk.inj hs
    exact .answer res err hreq
  | onResponse =>
    simp only [machine] at hx
    split at hx
    · cases hx
    · next hs =>
      split at hx
      · next hmsg =>
        obtain ⟨rfl, rfl⟩ := Prod.mk.inj (Option.some.inj hx)
        exact .onResponse hs hmsg
      · cases hx
  | stepTimerHandler =>
    simp only [machine] at hx
    split at hx
    · next hp =>
      cases hx
      refine .take rfl (Session.hands_stepTimerHandler s.client .stepTimer hp) ?_
      intro d hd r
      rw [(Session.hand_origin hd).1]
      simp
    · cases hx
  | connectionFailed =>
    simp only [machine] at hx
    split at hx
    · next hp =>
      cases hx
      refine .take rfl (Session.hands_sweep s.client .failure CONNECT_ERROR hp).1 ?_
      intro d hd r
      rw [(Session.hand_origin hd).1]
      simp
    · cases hx
  | setResult c =>
    cases hx
    exact .setResult c

end Link

end MsgpackRpc
