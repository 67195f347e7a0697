import MsgpackRpc.Format.RoundTrip
import MsgpackRpc.Link.Correlation
import MsgpackRpc.Udp.Network

/-!
# Answers over UDP

Datagrams may be lost, repeated and overtaken, and the ids of different clients are the same numbers.
Still a future that a response completes has an answer to its own call (`datagrams_correlated`): a
datagram of a client is the message of one of its calls, the server sends the answer to the endpoint
that the request came from, and a repeated response finds no future. What the network can do is to
make the server build several requests from one call, each of which is answered. As in `Udp.Network`, no
wait for a future runs out.

`Served` is what a client keeps to, and `Sound` all of them with the server.
-/

namespace MsgpackRpc

open Threads Unpack
open RequestImpl (Answered unsent_set answered_of_call)

namespace Udp

namespace Network

/-- The completion of a client's future that an operation makes. -/
def Op.completion (ep : Endpoint) : Op → Option (Completion Session.Source)
  | .setResult ep' c => if ep' = ep then some c else none
  | _ => none

/-- The call of a client whose future an operation inserts. -/
def Op.insertion (ep : Endpoint) : Op → Option Nat
  | .sendRequestImpl ep' c => if ep' = ep then some c else none
  | _ => none

/-- A request has been built from the message of a call of the session. -/
def Stems (session : Session Session.Source) (req : RequestImpl) : Prop :=
  ∃ call ∈ session.calls, req.msgid = call.msgid ∧ req.method = call.method ∧
    req.params = call.params

/-- What a session sends: the messages of its calls, and notifications. -/
def Written (session : Session Session.Source) (m : Message) : Prop :=
  (∃ call ∈ session.calls, m = request call) ∨ ∃ method params, m = .notify method params

/-- A client of the server. -/
structure Served (d : Decoder UInt8 Object) (requests : List (RequestImpl × Endpoint))
    (ep : Endpoint) (c : Client) (completions : Multiset (Completion Session.Source))
    (insertions : Multiset Nat) : Prop where
  client : Link.Client c.session completions insertions
  pac : c.conn.pac = .empty
  raised : c.conn.raised = []
  sent : ∀ bytes ∈ c.sent, ∃ m, Encodes d bytes m.pack ∧ Written c.session m
  handed : ∀ e ∈ c.session.handed, e.origin = .response → ∃ i call,
    (c.session.futures.map Future.call)[e.future]? = some i ∧ c.session.calls[i]? = some call ∧
      Answered requests ep call.msgid (e.result, e.error)

/-- The clients and the server. -/
structure Sound (d : Decoder UInt8 Object) (s : State) (ops : Multiset Op) : Prop where
  clients : ∀ ep, Served d s.requests ep (s.client ep) (ops.filterMap (Op.completion ep))
    (ops.filterMap (Op.insertion ep))
  pac : s.server.pac = .empty
  raised : ∀ exn ∈ s.server.raised, ∃ what, exn = .dispatcher what
  requests : ∀ q ∈ s.requests, Stems (s.client q.2).session q.1
  unsent : ∀ q ∈ s.requests, q.1.ms = true ↔ q.1.answers = []
  sent : ∀ p ∈ s.sent, ∃ msgid a, Encodes d p.2 (Message.response msgid a.1 a.2).pack ∧
    Answered s.requests p.1 msgid a
  delivered : ∀ ep msgid result error, .onMessage ep (.response msgid result error) ∈ ops →
    Answered s.requests ep msgid (result, error)

/-! ## A client -/

section
variable {d : Decoder UInt8 Object} {requests : List (RequestImpl × Endpoint)} {ep : Endpoint}
  {c : Client} {completions : Multiset (Completion Session.Source)} {insertions : Multiset Nat}

theorem served_init : Served d [] ep { isRunning := true } 0 0 :=
  ⟨Link.client_init, rfl, rfl, nofun, nofun⟩

theorem Written.mono {session session' : Session Session.Source} {m : Message}
    (h : Written session m) (hcalls : ∀ call ∈ session.calls, call ∈ session'.calls) :
    Written session' m :=
  h.imp_left fun ⟨call, hcall, hm⟩ => ⟨call, hcalls call hcall, hm⟩

/-- The answers to its requests are still there when the requests change. -/
theorem Served.mono (h : Served d requests ep c completions insertions)
    {requests' : List (RequestImpl × Endpoint)}
    (hreq : ∀ msgid a, Answered requests ep msgid a → Answered requests' ep msgid a) :
    Served d requests' ep c completions insertions := by
  refine ⟨h.client, h.pac, h.raised, h.sent, ?_⟩
  intro e he ho
  obtain ⟨i, call, hi, hcall, ha⟩ := h.handed e he ho
  exact ⟨i, call, hi, hcall, hreq _ _ ha⟩

/-- The session changes, and what it hands out is an answer if it comes from a response. -/
theorem Served.session (h : Served d requests ep c completions insertions)
    {session : Session Session.Source} {completions' : Multiset (Completion Session.Source)}
    {insertions' : Multiset Nat} (hclient : Link.Client session completions' insertions')
    (hcalls : ∀ (i : Nat) call, c.session.calls[i]? = some call → session.calls[i]? = some call)
    (hfut : ∀ (f : FutureId) i, (c.session.futures.map Future.call)[f]? = some i →
      (session.futures.map Future.call)[f]? = some i)
    (hhanded : ∀ e ∈ session.handed, e ∈ c.session.handed ∨ (e.origin = .response → ∃ i call,
      (session.futures.map Future.call)[e.future]? = some i ∧ session.calls[i]? = some call ∧
        Answered requests ep call.msgid (e.result, e.error))) :
    Served d requests ep { c with session } completions' insertions' := by
  refine ⟨hclient, h.pac, h.raised, ?_, ?_⟩
  · intro bytes hb
    obtain ⟨m, he, hm⟩ := h.sent bytes hb
    refine ⟨m, he, hm.mono fun call hcall => ?_⟩
    obtain ⟨i, hi⟩ := List.mem_iff_getElem?.1 hcall
    exact List.mem_of_getElem? (hcalls i call hi)
  · intro e he ho
    rcases hhanded e he with he | he
    · obtain ⟨i, call, hi, hcall, ha⟩ := h.handed e he ho
      exact ⟨i, call, hfut _ _ hi, hcalls _ _ hcall, ha⟩
    · exact he ho

theorem Served.sendRequest (h : Served d requests ep c completions insertions)
    (method params : Object) :
    Served d requests ep { c with session := c.session.sendRequest method params } completions
      (c.session.calls.length ::ₘ insertions) := by
  refine h.session (h.client.sendRequest method params) ?_ (fun _ _ => id) fun _ => .inl
  intro i call hcall
  simp only [Session.sendRequest, Session.nextMsgid]
  rw [List.getElem?_append_left (List.getElem?_eq_some_iff.1 hcall).1]
  exact hcall

theorem Served.sendRequestImpl {i : Nat} {call : Call}
    (h : Served d requests ep c completions (i ::ₘ insertions))
    (hcall : c.session.calls[i]? = some call) (hlt : c.session.calls.length < 2 ^ 32) :
    Served d requests ep { c with session := c.session.sendRequestImpl i call } completions
      insertions := by
  refine h.session (h.client.sendRequestImpl hcall hlt) (fun _ _ => id) ?_ fun _ => .inl
  intro f j hf
  simp only [Session.sendRequestImpl, List.map_append]
  rw [List.getElem?_append_left (List.getElem?_eq_some_iff.1 hf).1]
  exact hf

/-- Futures are taken out of the table. -/
theorem Served.hands (h : Served d requests ep c completions insertions)
    {session : Session Session.Source} {cs : List (Completion Session.Source)}
    (hs : c.session.Hands session cs)
    (hcs : ∀ e ∈ cs, e.origin = .response → ∃ i call,
      (c.session.futures.map Future.call)[e.future]? = some i ∧ c.session.calls[i]? = some call ∧
        Answered requests ep call.msgid (e.result, e.error)) :
    Served d requests ep { c with session } (↑cs + completions) insertions := by
  have hfut := Future.map_eq_of_untimed (g := Future.call) (fun _ => rfl) hs.futures
  refine h.session (h.client.hands hs) (by rw [hs.frame]; exact fun _ _ => id)
    (by rw [hfut]; exact fun _ _ => id) ?_
  intro e he
  rw [hfut, hs.frame]
  rw [hs.frame] at he
  exact (List.mem_append.1 he).imp_right (hcs e)

theorem Served.setResult {e : Completion Session.Source}
    (h : Served d requests ep c (e ::ₘ completions) insertions) :
    Served d requests ep { c with session := (c.session.setResult e).1 } completions
      insertions := by
  have hfut := Session.setResult_futures (g := Future.call) (fun _ _ _ => rfl) c.session e
  refine h.session h.client.setResult ?_ (by rw [hfut]; exact fun _ _ => id) ?_ <;>
    rw [Session.setResult_frame]
  · exact fun _ _ => id
  · exact fun _ => .inl

/-- A response to a request completes the future of the call that the request stems from. -/
theorem Served.onResponse (h : Served d requests ep c completions insertions)
    (hlt : c.session.calls.length < 2 ^ 32) {msgid : MsgId} {result error : Object}
    (ha : Answered requests ep msgid (result, error))
    (hstems : ∀ req, (req, ep) ∈ requests → Stems c.session req) :
    Served d requests ep
      { c with session := (c.session.onResponse .response msgid result error).1 }
      (↑(c.session.onResponse .response msgid result error).2 + completions) insertions := by
  refine h.hands (Session.hands_onResponse c.session .response msgid result error) ?_
  intro e he _
  obtain ⟨⟨-, hresult, herror⟩, hl⟩ := Session.onResponse_origin he
  obtain ⟨req, hreq, hid, hans⟩ := ha
  obtain ⟨call, hcall, hid', -⟩ := hstems req hreq
  obtain ⟨i, hi⟩ := List.mem_iff_getElem?.1 hcall
  refine ⟨i, call, h.client.lookup_call hlt hi ?_, hi, req, hreq, hid', ?_⟩
  · rw [← hid', hid]
    exact hl
  · rw [hresult, herror]
    exact hans

/-- The client sends a datagram, or connects its socket. -/
theorem Served.writes (h : Served d requests ep c completions insertions) {c' : Client}
    (hs : SameReader c c') (hsent : ∀ bytes ∈ c'.sent, bytes ∈ c.sent ∨
      ∃ m, Encodes d bytes m.pack ∧ Written c.session m) :
    Served d requests ep c' completions insertions := by
  refine ⟨by rw [hs.session]; exact h.client, hs.pac.trans h.pac, hs.raised.trans h.raised, ?_,
    by rw [hs.session]; exact h.handed⟩
  intro bytes hb
  rw [hs.session]
  exact (hsent bytes hb).elim (h.sent bytes) id

end

/-! ## The network -/

/-- An operation that neither completes nor inserts. -/
def Op.Silent (op : Op) : Prop := ∀ ep, op.completion ep = none ∧ op.insertion ep = none

theorem silent_of_entry {op : Op} (hop : op.entry = true) : op.Silent := by
  intro ep
  cases op <;> first | exact ⟨rfl, rfl⟩ | cases hop

theorem Op.Silent.filterMap {op : Op} (hop : op.Silent) (ep : Endpoint) (ops : Multiset Op) :
    (op ::ₘ ops).filterMap (Op.completion ep) = ops.filterMap (Op.completion ep) ∧
      (op ::ₘ ops).filterMap (Op.insertion ep) = ops.filterMap (Op.insertion ep) :=
  ⟨Multiset.filterMap_cons_none _ _ (hop ep).1, Multiset.filterMap_cons_none _ _ (hop ep).2⟩

section
variable {d : Decoder UInt8 Object} {s : State} {op : Op} {ops : Multiset Op} {ep : Endpoint}

theorem sound_init : Sound d {} 0 :=
  ⟨fun _ => served_init, rfl, nofun, nofun, nofun, nofun, nofun⟩

theorem Sound.tail (h : Sound d s (op ::ₘ ops)) (hop : op.Silent) : Sound d s ops := by
  refine ⟨fun ep => ?_, h.pac, h.raised, h.requests, h.unsent, h.sent, ?_⟩
  · have hc := h.clients ep
    rwa [(hop.filterMap ep ops).1, (hop.filterMap ep ops).2] at hc
  · intro ep msgid result error hmem
    exact h.delivered ep msgid result error (Multiset.mem_cons_of_mem hmem)

theorem Sound.cons (h : Sound d s ops) (hop : op.Silent)
    (hm : ∀ ep msgid result error, op = .onMessage ep (.response msgid result error) →
      Answered s.requests ep msgid (result, error)) : Sound d s (op ::ₘ ops) := by
  refine ⟨fun ep => ?_, h.pac, h.raised, h.requests, h.unsent, h.sent, ?_⟩
  · rw [(hop.filterMap ep ops).1, (hop.filterMap ep ops).2]
    exact h.clients ep
  · intro ep msgid result error hmem
    rcases Multiset.mem_cons.1 hmem with hmem | hmem
    · exact hm ep msgid result error hmem.symm
    · exact h.delivered ep msgid result error hmem

/-- A client changes. -/
theorem Sound.onClient (h : Sound d s ops) {f : Client → Client} {ops' : Multiset Op}
    (hc : Served d s.requests ep (f (s.client ep)) (ops'.filterMap (Op.completion ep))
      (ops'.filterMap (Op.insertion ep)))
    (hops : ∀ ep', ep' ≠ ep → ops'.filterMap (Op.completion ep') = ops.filterMap (Op.completion ep') ∧
      ops'.filterMap (Op.insertion ep') = ops.filterMap (Op.insertion ep'))
    (hcalls : ∀ call ∈ (s.client ep).session.calls, call ∈ (f (s.client ep)).session.calls)
    (hd : ∀ ep' msgid result error, .onMessage ep' (.response msgid result error) ∈ ops' →
      .onMessage ep' (.response msgid result error) ∈ ops) : Sound d (s.onClient ep f) ops' := by
  refine ⟨?_, h.pac, h.raised, ?_, h.unsent, h.sent,
    fun ep' msgid result error hmem => h.delivered ep' msgid result error (hd _ _ _ _ hmem)⟩
  · intro ep'
    rcases eq_or_ne ep' ep with rfl | hne
    · rw [onClient_self]
      exact hc
    · rw [onClient_of_ne s hne, (hops ep' hne).1, (hops ep' hne).2]
      exact h.clients ep'
  · intro q hq
    obtain ⟨call, hcall, hrest⟩ := h.requests q hq
    refine ⟨call, ?_, hrest⟩
    rcases eq_or_ne q.2 ep with he | hne
    · rw [he] at hcall
      rw [he, onClient_self]
      exact hcalls call hcall
    · rw [onClient_of_ne s hne]
      exact hcall

theorem Sound.sendRequest (h : Sound d s ops) (method params : Object) :
    Sound d (s.onSession ep fun ss => ss.sendRequest method params)
      (.sendRequestImpl ep (s.client ep).session.calls.length ::ₘ ops) := by
  refine h.onClient ?_ ?_ ?_ ?_
  · simpa [Multiset.filterMap_cons, Op.completion, Op.insertion] using
      (h.clients ep).sendRequest method params
  · intro ep' hne
    simp [Multiset.filterMap_cons, Op.completion, Op.insertion, hne.symm]
  · intro call hcall
    exact List.mem_append_left _ hcall
  · simp

theorem Sound.sendRequestImpl {i : Nat} {call : Call}
    (h : Sound d s (.sendRequestImpl ep i ::ₘ ops))
    (hcall : (s.client ep).session.calls[i]? = some call)
    (hlt : (s.client ep).session.calls.length < 2 ^ 32) :
    Sound d (s.onSession ep fun ss => ss.sendRequestImpl i call) (.sendData ep i ::ₘ ops) := by
  have hc := h.clients ep
  simp only [Multiset.filterMap_cons, Op.completion, Op.insertion, if_true, Option.map_some,
    Option.map_none, Option.getD_some, Option.getD_none, zero_add, Multiset.singleton_add] at hc
  refine h.onClient ?_ ?_ (fun _ => id) (by simp)
  · simpa [Multiset.filterMap_cons, Op.completion, Op.insertion] using
      hc.sendRequestImpl hcall hlt
  · intro ep' hne
    simp [Multiset.filterMap_cons, Op.completion, Op.insertion, hne.symm]

/-- A client of which a completion is to be made. -/
theorem Sound.client_of_setResult {e : Completion Session.Source}
    (h : Sound d s (.setResult ep e ::ₘ ops)) :
    Served d s.requests ep (s.client ep) (e ::ₘ ops.filterMap (Op.completion ep))
      (ops.filterMap (Op.insertion ep)) := by
  have hc := h.clients ep
  simp only [Multiset.filterMap_cons, Op.completion, Op.insertion, if_true, Option.map_some,
    Option.map_none, Option.getD_some, Option.getD_none, zero_add, Multiset.singleton_add] at hc
  exact hc

theorem Sound.setResult {e : Completion Session.Source} (h : Sound d s (.setResult ep e ::ₘ ops)) :
    Sound d (s.onSession ep fun ss => (ss.setResult e).1) ops := by
  refine h.onClient h.client_of_setResult.setResult ?_ ?_ (by simp)
  · intro ep' hne
    simp [Multiset.filterMap_cons, Op.completion, Op.insertion, hne.symm]
  · intro call hcall
    dsimp only
    rw [Session.setResult_frame]
    exact hcall

/-- Futures of a client are taken out of its table. -/
theorem Sound.hands (h : Sound d s ops) {session : Session Session.Source}
    {cs : List (Completion Session.Source)}
    (hc : Served d s.requests ep { s.client ep with session }
      (↑cs + ops.filterMap (Op.completion ep)) (ops.filterMap (Op.insertion ep)))
    (hcalls : session.calls = (s.client ep).session.calls) :
    Sound d (s.onSession ep fun _ => session) (↑(cs.map (Op.setResult ep)) + ops) := by
  refine h.onClient ?_ ?_ ?_ ?_
  · simpa [List.filterMap_map, Function.comp_def, Op.completion, Op.insertion] using hc
  · intro ep' hne
    simp [List.filterMap_map, Function.comp_def, Op.completion, Op.insertion, hne.symm]
  · intro call hcall
    dsimp only
    rwa [hcalls]
  · intro ep' msgid result error hmem
    rcases Multiset.mem_add.1 hmem with hmem | hmem
    · simp at hmem
    · exact hmem

/-- A client sends a datagram, or connects its socket. -/
theorem Sound.writes (h : Sound d s ops) {f : Client → Client}
    (hs : SameReader (s.client ep) (f (s.client ep)))
    (hsent : ∀ bytes ∈ (f (s.client ep)).sent, bytes ∈ (s.client ep).sent ∨
      ∃ m, Encodes d bytes m.pack ∧ Written (s.client ep).session m) :
    Sound d (s.onClient ep f) ops :=
  h.onClient ((h.clients ep).writes hs hsent) (fun _ _ => ⟨rfl, rfl⟩)
    (fun call hcall => by rwa [hs.session]) fun _ _ _ _ => id

/-- The server has received something. -/
theorem Sound.addRequests (h : Sound d s ops) {server : DgramHandler} (hpac : server.pac = .empty)
    (hraised : ∀ exn ∈ server.raised, ∃ what, exn = .dispatcher what)
    {new : List (RequestImpl × Endpoint)}
    (hnew : ∀ q ∈ new, Stems (s.client q.2).session q.1 ∧ q.1.ms = true ∧ q.1.answers = []) :
    Sound d { s with server, requests := s.requests ++ new } ops := by
  have hmono {ep : Endpoint} {msgid : MsgId} {a : Object × Object}
      (ha : Answered s.requests ep msgid a) : Answered (s.requests ++ new) ep msgid a :=
    ha.imp fun _ hreq => hreq.imp_left (List.mem_append_left _)
  refine ⟨fun ep => (h.clients ep).mono fun _ _ => hmono, hpac, hraised, ?_, ?_, ?_,
    fun ep msgid result error hmem => hmono (h.delivered ep msgid result error hmem)⟩
  · intro q hq
    exact (List.mem_append.1 hq).elim (h.requests q) fun hq => (hnew q hq).1
  · intro q hq
    rcases List.mem_append.1 hq with hq | hq
    · exact h.unsent q hq
    · exact iff_of_true (hnew q hq).2.1 (hnew q hq).2.2
  · intro p hp
    obtain ⟨msgid, a, he, ha⟩ := h.sent p hp
    exact ⟨msgid, a, he, hmono ha⟩

/-- A datagram of a client arrives at the server. -/
theorem Sound.serverOnRead (h : Sound d s ops) {x : Choice} {bytes : List UInt8}
    (hb : bytes ∈ (s.client x.sender).sent) (hroom : bytes.length ≤ x.room) :
    Sound d (serverOnRead d s x bytes) ops := by
  obtain ⟨m, he, hm⟩ := (h.clients x.sender).sent bytes hb
  obtain ⟨hpac, hcalls, hraised⟩ := onRead_whole (serverReceiver x) h.pac he x.sender
  rw [Network.serverOnRead, List.take_of_length_le hroom, hcalls, List.drop_left]
  have hthrows : ∀ exn ∈ (s.server.onRead d (serverReceiver x) (.ok bytes x.sender)).raised,
      ∃ what, exn = .dispatcher what := by
    intro exn hexn
    rw [hraised] at hexn
    rcases List.mem_append.1 hexn with hexn | hexn
    · exact h.raised exn hexn
    · have hrecv : serverReceiver x s.server.calls.length m = x.throws.map .dispatcher := by
        rcases hm with ⟨call, -, rfl⟩ | ⟨method, params, rfl⟩ <;> rfl
      rw [hrecv, Option.mem_toList] at hexn
      obtain ⟨what, -, rfl⟩ := Option.map_eq_some_iff.1 hexn
      exact ⟨what, rfl⟩
  refine h.addRequests hpac hthrows ?_
  intro q hq
  rcases hm with ⟨call, hcall, rfl⟩ | ⟨method, params, rfl⟩
  · obtain rfl := List.mem_singleton.1 hq
    exact ⟨⟨call, hcall, rfl, rfl, rfl⟩, rfl, rfl⟩
  · cases hq

/-- A receive of the server fails. -/
theorem Sound.serverFailed (h : Sound d s ops) (recv : Receiver) (value : Nat) :
    Sound d { s with server := s.server.onRead d recv (.error value) } ops := by
  refine ⟨h.clients, ?_, h.raised, h.requests, h.unsent, h.sent, h.delivered⟩
  show s.server.pac.removeNonparsedBuffer = .empty
  rw [h.pac]
  rfl

/-- A response arrives at its client. -/
theorem Sound.clientOnRead (h : Sound d s ops) {x : Choice} {bytes : List UInt8}
    (hb : (ep, bytes) ∈ s.sent) (hroom : bytes.length ≤ x.room) :
    Sound d (clientOnRead d s ep x bytes).1 (↑(clientOnRead d s ep x bytes).2 + ops) := by
  obtain ⟨msgid, a, he, ha⟩ := h.sent (ep, bytes) hb
  have hc := h.clients ep
  obtain ⟨hpac, hcalls, hraised⟩ := onRead_whole clientReceiver hc.pac he x.sender
  rw [Network.clientOnRead, List.take_of_length_le hroom, hcalls, List.drop_left]
  have hread : Served d s.requests ep
      { s.client ep with
        conn := (s.client ep).conn.onRead d clientReceiver (.ok bytes x.sender) }
      (ops.filterMap (Op.completion ep)) (ops.filterMap (Op.insertion ep)) := by
    refine ⟨hc.client, hpac, ?_, hc.sent, hc.handed⟩
    rw [hraised, hc.raised]
    rfl
  refine Sound.cons ?_ (fun _ => ⟨rfl, rfl⟩) ?_
  · exact h.onClient (f := fun _ => { s.client ep with
      conn := (s.client ep).conn.onRead d clientReceiver (.ok bytes x.sender) }) hread
      (fun _ _ => ⟨rfl, rfl⟩) (fun _ => id) fun _ _ _ _ => id
  · rintro ep' msgid' result error heq
    cases heq
    exact ha

/-- A receive of a client fails. -/
theorem Sound.clientFailed (h : Sound d s ops) (recv : Receiver) (value : Nat) :
    Sound d (s.onClient ep fun c => { c with conn := c.conn.onRead d recv (.error value) }) ops := by
  have hc := h.clients ep
  have hfailed : Served d s.requests ep
      { s.client ep with conn := (s.client ep).conn.onRead d recv (.error value) }
      (ops.filterMap (Op.completion ep)) (ops.filterMap (Op.insertion ep)) := by
    refine ⟨hc.client, ?_, hc.raised, hc.sent, hc.handed⟩
    show (s.client ep).conn.pac.removeNonparsedBuffer = .empty
    rw [hc.pac]
    rfl
  exact h.onClient (f := fun c => { c with conn := c.conn.onRead d recv (.error value) }) hfailed
    (fun _ _ => ⟨rfl, rfl⟩) (fun _ => id) fun _ _ _ _ => id

/-- A request is answered, and the response is sent if it is the first answer. -/
theorem Sound.answer (h : Sound d s ops) {enc : Object → List UInt8} {r : Nat} {req : RequestImpl}
    (hr : s.requests[r]? = some (req, ep)) {res err : Object}
    (he : Encodes d (enc (Message.response req.msgid res err).pack)
      (Message.response req.msgid res err).pack) (sends : Bool) :
    Sound d { s with
      requests := s.requests.set r ((req.call res err).1, ep)
      sent := s.sent ++
        if sends then (req.call res err).2.toList.map fun msg => (ep, enc msg) else [] } ops := by
  have hlater := req.later_call res err
  refine ⟨fun ep' => (h.clients ep').mono fun _ _ ha => ha.set hr hlater, h.pac, h.raised, ?_,
    unsent_set h.unsent res err, ?_,
    fun ep' msgid result error hop => (h.delivered ep' msgid result error hop).set hr hlater⟩
  · intro q hq
    rcases List.mem_or_eq_of_mem_set hq with hq | rfl
    · exact h.requests q hq
    · obtain ⟨call, hcall, hrest⟩ := h.requests (req, ep) (List.mem_of_getElem? hr)
      refine ⟨call, hcall, ?_⟩
      rwa [hlater.msgid, hlater.method, hlater.params]
  · intro p hp
    rcases List.mem_append.1 hp with hp | hp
    · obtain ⟨msgid, a, hbytes, ha⟩ := h.sent p hp
      exact ⟨msgid, a, hbytes, ha.set hr hlater⟩
    · cases sends with
      | false => cases hp
      | true =>
        obtain ⟨msg, hmsg, rfl⟩ := List.mem_map.1 hp
        obtain ⟨rfl, ha⟩ := answered_of_call h.unsent hr (Option.mem_toList.1 hmsg)
        exact ⟨req.msgid, (res, err), he, ha⟩

/-! ## Runs -/

/-- The messages that an operation sends are in `valid`, and there is room for the datagrams that it
receives. -/
def Valid (valid : Message → Prop) (s : State) (_ : Multiset Op) (op : Op) (x : Choice) : Prop :=
  match op with
  | .sendData ep c => ∀ call ∈ (s.client ep).session.calls[c]?, valid (request call)
  | .notify _ method params => valid (.notify method params)
  | .answer r res err => ∀ q ∈ s.requests[r]?, valid (.response q.1.msgid res err)
  | .serverOnRead =>
    ∀ bytes ∈ (s.client x.sender).sent[x.datagram]?, bytes.length ≤ x.room
  | .clientOnRead _ => ∀ p ∈ s.sent[x.datagram]?, p.2.length ≤ x.room
  | _ => True

instance (valid : Message → Prop) [DecidablePred valid] (s : State) (ops : Multiset Op) (op : Op)
    (x : Choice) : Decidable (Valid valid s ops op x) := by
  cases op <;> unfold Valid <;> infer_instance

/-- The sessions have sent fewer than 2^32 requests each. -/
def Bounded (s : State) : Prop := ∀ ep, (s.client ep).session.calls.length < 2 ^ 32

theorem sound_exec {enc : Object → List UInt8} {valid : Message → Prop}
    (henc : ∀ m, valid m → Encodes d (enc m.pack) m.pack) {s' : State} {x : Choice} {k : List Op}
    (h : Sound d s (op ::ₘ ops)) (hlt : Bounded s) (hv : Valid valid s (op ::ₘ ops) op x)
    (hx : (machine d enc).exec s op x = some (s', k)) : Sound d s' (↑k + ops) := by
  cases op with
  | connect ep =>
    simp only [machine] at hx
    split at hx
    · cases hx
    · cases hx
      rw [Multiset.coe_nil, zero_add]
      refine (h.tail (silent_of_entry rfl)).writes (sameReader_connect _ _) fun bytes hb => .inl ?_
      rwa [Client.connect_frame] at hb
  | sendRequest ep method params =>
    cases hx
    exact (h.tail (silent_of_entry rfl)).sendRequest method params
  | sendRequestImpl ep c =>
    obtain ⟨call, hcall, hx⟩ := Option.map_eq_some_iff.1 hx
    cases hx
    exact h.sendRequestImpl hcall (hlt ep)
  | sendData ep c =>
    obtain ⟨call, hcall, hx⟩ := Option.map_eq_some_iff.1 hx
    cases hx
    rw [Multiset.coe_nil, zero_add]
    obtain ⟨hsame, hsent⟩ := sendData_reader (s.client ep) x.outcomes
      (.sbuf (enc (request call).pack))
    refine (h.tail fun _ => ⟨rfl, rfl⟩).writes hsame fun bytes hb => (hsent bytes hb).imp_right ?_
    rintro rfl
    exact ⟨_, henc _ (hv call hcall), .inl ⟨call, List.mem_of_getElem? hcall, rfl⟩⟩
  | notify ep method params =>
    cases hx
    rw [Multiset.coe_nil, zero_add]
    obtain ⟨hsame, hsent⟩ := sendData_reader (s.client ep) x.outcomes
      (.sbuf (enc (Message.notify method params).pack))
    refine (h.tail fun _ => ⟨rfl, rfl⟩).writes hsame fun bytes hb => (hsent bytes hb).imp_right ?_
    rintro rfl
    exact ⟨_, henc _ hv, .inr ⟨method, params, rfl⟩⟩
  | serverOnRead =>
    have h' := h.tail (silent_of_entry rfl)
    simp only [machine] at hx
    split at hx
    · cases hx
    · split at hx
      · cases hx
        rw [Multiset.coe_nil, zero_add]
        exact h'.serverFailed (serverReceiver x) 1
      · obtain ⟨bytes, hb, hx⟩ := Option.map_eq_some_iff.1 hx
        cases hx
        rw [Multiset.coe_nil, zero_add]
        exact h'.serverOnRead (List.mem_of_getElem? hb) (hv bytes hb)
  | answer r res err =>
    obtain ⟨⟨req, ep⟩, hreq, hx⟩ := Option.map_eq_some_iff.1 hx
    cases hx
    rw [Multiset.coe_nil, zero_add]
    exact (h.tail (silent_of_entry rfl)).answer hreq (henc _ (hv _ hreq)) x.outcomes.sendTo
  | clientOnRead ep =>
    have h' := h.tail (silent_of_entry rfl)
    simp only [machine] at hx
    split at hx
    · cases hx
    · split at hx
      · cases hx
        rw [Multiset.coe_nil, zero_add]
        exact h'.clientFailed clientReceiver 1
      · obtain ⟨⟨ep', bytes⟩, hb, hx⟩ := Option.bind_eq_some_iff.1 hx
        split at hx
        · next he =>
          obtain rfl : ep' = ep := he
          have hroom : bytes.length ≤ x.room := hv _ hb
          have hread := h'.clientOnRead (List.mem_of_getElem? hb) hroom
          rwa [Option.some.inj hx] at hread
        · cases hx
  | onMessage ep m =>
    cases m with
    | response msgid result error =>
      have hcalls : ((s.client ep).session.onResponse .response msgid result error).1.calls =
          (s.client ep).session.calls := by
        rw [(Session.hands_onResponse (s.client ep).session .response msgid result error).frame]
      cases hx
      have ha := h.delivered ep msgid result error (Multiset.mem_cons_self _ _)
      have h' := h.tail fun _ => ⟨rfl, rfl⟩
      exact h'.hands ((h'.clients ep).onResponse (hlt ep) ha fun req hreq => h'.requests _ hreq)
        hcalls
    | request | notify =>
      cases hx
      rw [Multiset.coe_nil, zero_add]
      exact h.tail fun _ => ⟨rfl, rfl⟩
  | stepTimerHandler ep =>
    have h' := h.tail (silent_of_entry rfl)
    simp only [machine] at hx
    split at hx
    · next hp =>
      cases hx
      have hhands := Session.hands_stepTimerHandler (s.client ep).session .stepTimer hp
      refine h'.hands ((h'.clients ep).hands hhands fun e he ho => ?_) (by rw [hhands.frame])
      rw [(Session.hand_origin he).1] at ho
      cases ho
    · cases hx
  | setResult ep c =>
    cases hx
    rw [Multiset.coe_nil, zero_add]
    exact h.setResult

/-- Calls are only added, one at a time. -/
theorem calls_mono {s' : State} (hs : Steps s op s') (ep : Endpoint) :
    (s.client ep).session.calls.length ≤ (s'.client ep).session.calls.length ∧
      (s'.client ep).session.calls.length ≤ (s.client ep).session.calls.length + 1 := by
  cases hs with
  | sendRequest ep' method params =>
    rcases eq_or_ne ep ep' with rfl | hne
    · rw [State.onSession, onClient_self]
      simp [Session.sendRequest, Session.nextMsgid]
    · rw [State.onSession, onClient_of_ne s hne]
      omega
  | answer => exact ⟨Nat.le_refl _, Nat.le_succ _⟩
  | setResult ep' c =>
    rcases eq_or_ne ep ep' with rfl | hne
    · rw [State.onSession, onClient_self, Session.setResult_frame]
      exact ⟨Nat.le_refl _, Nat.le_succ _⟩
    · rw [State.onSession, onClient_of_ne s hne]
      exact ⟨Nat.le_refl _, Nat.le_succ _⟩
  | quiet hq =>
    rw [hq.calls ep]
    exact ⟨Nat.le_refl _, Nat.le_succ _⟩

/-- A short run makes few calls. -/
theorem calls_le_executed {enc : Object → List UInt8} {ls : List (Label Op Choice)}
    {c : Config State Op} (hrun : (machine d enc).run init ls = some c) (ep : Endpoint) :
    (c.shared.client ep).session.calls.length ≤ ((machine d enc).executed init ls).length := by
  refine System.invariant_executed (S := machine d enc) (t := [])
    (fun tr s _ => (s.client ep).session.calls.length ≤ tr.length) (fun _ _ _ _ h _ => h) ?_
    (Nat.le_refl _) (System.meets_true init ls) hrun
  intro tr s op rest x s' k h _ hx
  rw [List.length_append, List.length_singleton]
  exact (calls_mono (exec_steps hx) ep).2.trans (Nat.succ_le_succ h)

theorem sound_run {enc : Object → List UInt8} {valid : Message → Prop}
    (henc : ∀ m, valid m → Encodes d (enc m.pack) m.pack) {ls : List (Label Op Choice)}
    {c : Config State Op} (hG : (machine d enc).Meets (Valid valid) init ls)
    (hrun : (machine d enc).run init ls = some c) (hlt : Bounded c.shared) :
    Sound d c.shared c.pending := by
  refine (machine d enc).invariant (fun s ops => Bounded s → Sound d s ops) ?_ ?_
    (fun _ => sound_init) hG hrun hlt
  · intro s ops op h hop hs
    refine (h hs).cons (silent_of_entry hop) ?_
    rintro ep msgid result error rfl
    cases hop
  · intro s op rest x s' k h hv hx hs'
    have hs : Bounded s := fun ep => Nat.lt_of_le_of_lt (calls_mono (exec_steps hx) ep).1 (hs' ep)
    exact sound_exec henc (h hs) hs hv hx

/-- A future that a response has completed stores the first answer to a request of its call. -/
theorem Sound.completed (h : Sound d s ops) (hlt : (s.client ep).session.calls.length < 2 ^ 32)
    {e : Completion Session.Source} (he : e ∈ (s.client ep).session.completions)
    (ho : e.origin = .response) :
    ∃ fut call req, (s.client ep).session.futures[e.future]? = some fut ∧
      (s.client ep).session.calls[fut.call]? = some call ∧ (req, ep) ∈ s.requests ∧
      req.msgid = call.msgid ∧ req.method = call.method ∧ req.params = call.params ∧
      req.answers.head? = some (fut.result, fut.error) := by
  have hclient := (h.clients ep).client
  obtain ⟨i, call, hi, hcall, req, hreq, hid, hans⟩ :=
    (h.clients ep).handed e (hclient.mem_handed he) ho
  have hstored := hclient.stored e he
  rw [List.getElem?_map] at hi hstored
  obtain ⟨fut, hfut, rfl⟩ := Option.map_eq_some_iff.1 hi
  rw [hfut] at hstored
  obtain ⟨-, hres, herr⟩ : fut.session = false ∧ fut.result = e.result ∧ fut.error = e.error := by
    simpa [Future.outcome] using hstored
  -- the request stems from the call, which is the only one with its id
  obtain ⟨call', hcall', hid', hm, hp⟩ := h.requests (req, ep) hreq
  obtain ⟨j, hj⟩ := List.mem_iff_getElem?.1 hcall'
  obtain rfl := hclient.numbered.call_unique hlt hcall hj (hid.symm.trans hid')
  rw [hcall] at hj
  cases hj
  exact ⟨fut, call, req, hfut, hcall, hreq, hid, hm, hp, by rw [hres, herr]; exact hans⟩

end

section
variable {d : Decoder UInt8 Object} {enc : Object → List UInt8} {valid : Message → Prop}

/-- Two endpoints. -/
def left : Endpoint := ⟨0x7f000001, 40000⟩
def right : Endpoint := ⟨0x7f000001, 40001⟩

/-- Two clients send a request each, under one id. The one of `left` arrives after that of `right`, and
twice; the second copy is answered first, and its response is delivered before that of the first
copy. -/
def repeated : List (Label Op Choice) :=
  [.spawn (.connect left), .exec 0 {}, .spawn (.connect right), .exec 1 {},
    .spawn (.sendRequest left (.str [0x66]) .nil), .exec 2 {}, .exec 2 {}, .exec 2 {},
    .spawn (.sendRequest right (.str [0x67]) .nil), .exec 3 {}, .exec 3 {}, .exec 3 {},
    .spawn .serverOnRead, .exec 4 { sender := right, room := 100 },
    .spawn .serverOnRead, .exec 5 { sender := left, room := 100 },
    .spawn .serverOnRead, .exec 6 { sender := left, room := 100 },
    .spawn (.answer 2 (.integer 8) .nil), .exec 7 {},
    .spawn (.answer 1 (.integer 7) .nil), .exec 8 {},
    .spawn (.answer 0 (.integer 9) .nil), .exec 9 {},
    .spawn (.clientOnRead left), .exec 10 { room := 100 }, .exec 10 {}, .exec 10 {},
    .spawn (.clientOnRead left), .exec 11 { datagram := 1, room := 100 }, .exec 11 {},
    .spawn (.clientOnRead right), .exec 12 { datagram := 2, room := 100 }, .exec 12 {}, .exec 12 {}]

/-- The state after that. -/
def afterRepeated : Config State Op :=
  ((machine Format.decoder Format.encode).run init repeated).getD init

theorem afterRepeated_run :
    (machine Format.decoder Format.encode).run init repeated = some afterRepeated :=
  (Option.getD_of_ne_none (by decide +kernel) _).symm

theorem afterRepeated_bounded (ep : Endpoint) :
    (afterRepeated.shared.client ep).session.calls.length < 2 ^ 32 :=
  Nat.lt_of_le_of_lt (calls_le_executed afterRepeated_run ep) (by decide +kernel)

end

end Network

end Udp

end MsgpackRpc
