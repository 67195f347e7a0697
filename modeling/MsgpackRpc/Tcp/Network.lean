import Mathlib.Data.Multiset.Count
import MsgpackRpc.Tcp.Reading

/-!
# A TCP client and the servers of its connections

A client that makes connections and loses them, and what is at their other ends. A connection is a
stream of messages in each direction: they arrive in the order in which they are written, perhaps not
all of them, and perhaps after the client has closed the connection or made another one. At the other
end of a connection a `server_socket` builds a request from each message that it receives; the
dispatcher answers any request at any time, in any order and any number of times; and a response is
sent on the connection that the request came from, if it can still be.

Only whole messages are read. What a connection that is lost within a message leaves in the unpacker
of the client is the subject of `Stream.Reconnect`. No wait for a future runs out
(`future_impl::timed_wait`): that would complete a future which stays in the table, where a response or a
tick completes it again (`Session.timedWait_overwritten`).
-/

namespace MsgpackRpc

open Threads

namespace Tcp

namespace Network

/-- What there is on connection `n`, of things that are each on one. -/
def onConnection {α : Type} (n : Nat) (l : List (α × Nat)) : List α :=
  l.filterMap fun p => if p.2 = n then some p.1 else none

/-- The client; the requests that have been built and the responses that have been sent, each with
its connection; and how many of the responses on a connection have been read. -/
structure State where
  client : Client := {}
  requests : List (RequestImpl × Nat) := []
  sent : List (Object × Nat) := []
  delivered : Nat → Nat := fun _ => 0

/-- The operations: those of the client, a read of the client that completes with the next `k`
responses, and those of the servers. -/
inductive Op where
  | client (op : Tcp.Op)
  | readCompletes (i k : Nat) (failed : Bool)
  | onRequest (n : Nat)
  | answer (request : Nat) (res err : Object)
  deriving DecidableEq, Repr

/-- The operations that users, the dispatcher, the loops and the network start. -/
def Op.entry : Op → Bool
  | .client op => op.entry
  | _ => true

/-- `server_impl::on_request` (`server.cc:79`), called by `on_message` with the message of call `c`. -/
def toRequest (c : Nat) (msg : Object) : Option RequestImpl :=
  match onMessage msg with
  | .ok (.request msgid method params) => some { msgid, method, params, sentBy := c }
  | _ => none

/-- That request. -/
def built (c : Nat) (call : Call) : RequestImpl :=
  { msgid := call.msgid, method := call.method, params := call.params, sentBy := c }

/-- The arguments that `on_message` calls `on_response` with. -/
def toResponse (msg : Object) : Option (MsgId × Object × Object) :=
  match onMessage msg with
  | .ok (.response msgid result error) => some (msgid, result, error)
  | _ => none

/-- The next `k` responses on a connection. -/
def State.next (s : State) (n k : Nat) : List (MsgId × Object × Object) :=
  (((onConnection n s.sent).drop (s.delivered n)).take k).filterMap toResponse

/-- The client and the servers as a system of threads. The responses that the client reads come from
the servers. -/
def machine : System State Op Choice where
  entry := Op.entry
  exec s op x :=
    match op with
    | .client op =>
      if op.received = [] then
        (Tcp.machine.exec s.client op x).map fun r => ({ s with client := r.1 }, r.2.map .client)
      else none
    | .readCompletes i k failed =>
      s.client.reads[i]?.bind fun n =>
        if s.delivered n + k ≤ (onConnection n s.sent).length then
          (Tcp.machine.exec s.client (.readCompletes i (.data (s.next n k) failed)) x).map fun r =>
            ({ s with
              client := r.1
              delivered := Function.update s.delivered n (s.delivered n + k) }, [])
        else none
    | .onRequest n =>
      (onConnection n s.client.written)[(onConnection n s.requests).length]?.bind fun c =>
        s.client.session.calls[c]?.bind fun call =>
          (toRequest c (Link.request call)).map fun req =>
            ({ s with requests := s.requests ++ [(req, n)] }, [])
    | .answer r res err =>
      s.requests[r]?.map fun q =>
        let (req, sent) := q.1.call res err
        ({ s with
          requests := s.requests.set r (req, q.2)
          sent := s.sent ++ if x.ok then sent.toList.map fun msg => (msg, q.2) else [] }, [])

/-- A client that has sent nothing. -/
def init (connectTimeout reconnectLimit : Int) (timeout : BitVec 32) : Config State Op :=
  ⟨{ client := (Tcp.init connectTimeout reconnectLimit timeout).shared }, []⟩

/-! ## Steps -/

/-- What an operation does. -/
inductive Steps (s : State) : Op → State → List Op → Prop where
  | client {op : Tcp.Op} {x : Choice} {client : Client} {k : List Tcp.Op} : op.received = [] →
    Tcp.machine.exec s.client op x = some (client, k) →
    Steps s (.client op) { s with client } (k.map .client)
  | readCompletes {i n k : Nat} {failed : Bool} {x : Choice} {client : Client} :
    s.client.reads[i]? = some n →
    Tcp.machine.exec s.client (.readCompletes i (.data (s.next n k) failed)) x = some (client, []) →
    Steps s (.readCompletes i k failed)
      { s with client, delivered := Function.update s.delivered n (s.delivered n + k) } []
  | onRequest {n c : Nat} {call : Call} :
    (onConnection n s.client.written)[(onConnection n s.requests).length]? = some c →
    s.client.session.calls[c]? = some call →
    Steps s (.onRequest n) { s with requests := s.requests ++ [(built c call, n)] } []
  | answer {r n : Nat} {req : RequestImpl} (res err : Object) (ok : Bool) :
    s.requests[r]? = some (req, n) →
    Steps s (.answer r res err)
      { s with
        requests := s.requests.set r ((req.call res err).1, n)
        sent := s.sent ++
          if ok then (req.call res err).2.toList.map fun msg => (msg, n) else [] } []

theorem toRequest_request (c : Nat) (call : Call) :
    toRequest c (Link.request call) = some (built c call) := by
  rw [toRequest, Link.request, onMessage_pack]
  rfl

theorem toResponse_pack (msgid : MsgId) (result error : Object) :
    toResponse (Message.response msgid result error).pack = some (msgid, result, error) := by
  rw [toResponse, onMessage_pack]

theorem exec_steps {s s' : State} {op : Op} {x : Choice} {k : List Op}
    (hx : machine.exec s op x = some (s', k)) : Steps s op s' k := by
  cases op with
  | client op =>
    simp only [machine] at hx
    split at hx
    · next hreceived =>
      obtain ⟨⟨client, k⟩, hexec, hs⟩ := Option.map_eq_some_iff.1 hx
      cases hs
      exact .client hreceived hexec
    · cases hx
  | readCompletes i k failed =>
    obtain ⟨n, hn, hx⟩ := Option.bind_eq_some_iff.1 hx
    split at hx
    · obtain ⟨⟨client, ops⟩, hexec, hs⟩ := Option.map_eq_some_iff.1 hx
      cases hs
      obtain rfl : ops = [] := by
        obtain ⟨m, -, hm⟩ := Option.map_eq_some_iff.1 hexec
        exact (Prod.mk.inj hm).2.symm
      exact .readCompletes hn hexec
    · cases hx
  | onRequest n =>
    obtain ⟨c, hc, hx⟩ := Option.bind_eq_some_iff.1 hx
    obtain ⟨call, hcall, hx⟩ := Option.bind_eq_some_iff.1 hx
    rw [toRequest_request] at hx
    cases hx
    exact .onRequest hc hcall
  | answer r res err =>
    obtain ⟨⟨req, n⟩, hreq, hs⟩ := Option.map_eq_some_iff.1 hx
    cases hs
    exact .answer res err x.ok hreq

/-! ## Connections -/

section
variable {α : Type}

theorem onConnection_append (n : Nat) (l l' : List (α × Nat)) :
    onConnection n (l ++ l') = onConnection n l ++ onConnection n l' :=
  List.filterMap_append ..

theorem onConnection_map {β : Type} (f : α → β) (n : Nat) (l : List (α × Nat)) :
    (onConnection n l).map f = onConnection n (l.map fun p => (f p.1, p.2)) := by
  rw [onConnection, onConnection, List.map_filterMap, List.filterMap_map]
  congr 1
  funext p
  rw [Function.comp_apply]
  split <;> simp_all

theorem mem_onConnection {n : Nat} {l : List (α × Nat)} {a : α} :
    a ∈ onConnection n l ↔ (a, n) ∈ l := by
  rw [onConnection, List.mem_filterMap]
  constructor
  · rintro ⟨⟨b, m⟩, hmem, hb⟩
    split at hb
    · next hm =>
      cases hb
      cases hm
      exact hmem
    · cases hb
  · exact fun hmem => ⟨(a, n), hmem, if_pos rfl⟩

/-- Things on connections, counted one connection at a time. -/
theorem count_onConnection [DecidableEq α] (n : Nat) (l : List (α × Nat)) (a : α) :
    (↑(onConnection n l) : Multiset α).count a = (↑l : Multiset (α × Nat)).count (a, n) := by
  induction l with
  | nil => rfl
  | cons p l ih =>
    obtain ⟨b, m⟩ := p
    have hcons : onConnection n ((b, m) :: l) =
        if m = n then b :: onConnection n l else onConnection n l := by
      unfold onConnection
      rw [List.filterMap_cons]
      split <;> simp_all
    rw [hcons, ← Multiset.cons_coe, Multiset.count_cons, ← ih]
    split
    · next hm =>
      rw [← Multiset.cons_coe, Multiset.count_cons]
      simp [hm]
    · next hm => simp [Ne.symm hm]

/-- If each connection has part of what it has in another list, so do all connections together. -/
theorem le_of_onConnection [DecidableEq α] {l l' : List (α × Nat)}
    (h : ∀ n, (onConnection n l).Sublist (onConnection n l')) :
    (↑l : Multiset (α × Nat)) ≤ ↑l' := by
  refine Multiset.le_iff_count.2 fun ⟨a, n⟩ => ?_
  rw [← count_onConnection, ← count_onConnection]
  exact Multiset.count_le_of_le a (Multiset.coe_le.2 (h n).subperm)

end

end Network

end Tcp

end MsgpackRpc
