import MsgpackRpc.Tcp.Network

/-!
# Answers over reconnects

A call that is made while the connection is down is sent on the next one, and what an earlier
connection still delivers arrives in between. Still the servers build at most one request from a call,
on the connection that its message was written on, and a future that a response completes has the
first answer to that request (`answers_over_connections`). As in `Tcp.Network`, no wait for a future runs
out.

`Sound` has two halves: what the client has heard are answers (`Heard`), and the requests on a
connection are the messages that were written on it, as far as they have arrived.
-/

namespace MsgpackRpc

open Threads
open RequestImpl (Answered answered_append unsent_set answered_of_call)

namespace Tcp

namespace Network

/-- The operations of the client. -/
def Op.ofClient : Op → Option Tcp.Op
  | .client op => some op
  | _ => none

/-- A request with some id has been answered, for the first time with `a`. -/
def Replied (requests : List (RequestImpl × Nat)) (msgid : MsgId) (a : Object × Object) : Prop :=
  ∃ n, Answered requests n msgid a

/-- The client and the servers, with the operations of the client. -/
structure Sound (s : State) (ops : Multiset Tcp.Op) : Prop where
  heard : Heard (Replied s.requests) s.client ops
  transmitted : Transmitted s.client (tasks ops)
  requests : ∀ q ∈ s.requests, ∃ call, s.client.session.calls[q.1.sentBy]? = some call ∧
    q.1.msgid = call.msgid ∧ q.1.method = call.method ∧ q.1.params = call.params
  arrived : ∀ n, (onConnection n s.requests).map RequestImpl.sentBy <+:
    onConnection n s.client.written
  unsent : ∀ q ∈ s.requests, q.1.ms = true ↔ q.1.answers = []
  sent : ∀ p ∈ s.sent, ∃ msgid a, p.1 = (Message.response msgid a.1 a.2).pack ∧
    Answered s.requests p.2 msgid a

section
variable {s : State} {ops rest : Multiset Tcp.Op}

theorem sound_init (connectTimeout reconnectLimit : Int) (timeout : BitVec 32) :
    Sound (init connectTimeout reconnectLimit timeout).shared 0 :=
  ⟨heard_init _ connectTimeout reconnectLimit timeout,
    transmitted_init connectTimeout reconnectLimit timeout, nofun, fun _ => List.prefix_refl _, nofun,
    nofun⟩

/-- A thread of the client is started. -/
theorem Sound.spawn (h : Sound s ops) {op : Tcp.Op} (hop : op.entry = true) :
    Sound s (op ::ₘ ops) := by
  refine ⟨h.heard.spawn hop, ?_, h.requests, h.arrived, h.unsent, h.sent⟩
  rw [tasks_cons, Op.task_of_entry hop, Option.toList_none, Multiset.coe_nil, zero_add]
  exact h.transmitted

/-- The client takes a step, and what it reads are answers. -/
theorem Sound.client {op : Tcp.Op} {x : Choice} {client : Client} {k : List Tcp.Op}
    (h : Sound s (op ::ₘ rest)) (hx : Tcp.machine.exec s.client op x = some (client, k))
    (hreceived : ∀ r ∈ op.received, Replied s.requests r.1 r.2)
    (hlt : client.session.calls.length < 2 ^ 32) : Sound { s with client } (↑k + rest) := by
  have hs := Tcp.exec_steps hx
  have htransmitted := h.transmitted
  rw [tasks_cons] at htransmitted
  refine ⟨heard_exec h.heard hx hreceived hlt, ?_, ?_, ?_, h.unsent, h.sent⟩
  · rw [tasks_add]
    exact transmitted_step htransmitted hs
  · intro q hq
    obtain ⟨call, hcall, hrest⟩ := h.requests q hq
    obtain ⟨calls, hcalls⟩ := (grows_step hs).1
    refine ⟨call, ?_, hrest⟩
    rw [← hcalls, List.getElem?_append_left (List.getElem?_eq_some_iff.1 hcall).1]
    exact hcall
  · intro n
    have hwritten : Written s.client s.client [] :=
      ⟨(List.append_nil _).symm, Nat.le_refl _, fun _ => .inl, by simp⟩
    obtain ⟨new, hnew⟩ := written_step hwritten hs
    rw [hnew.written, onConnection_append]
    exact (h.arrived n).trans (List.prefix_append _ _)

/-- The responses that the next read brings are answers. -/
theorem Sound.next (h : Sound s ops) {n k : Nat} {r : MsgId × Object × Object}
    (hr : r ∈ s.next n k) : Replied s.requests r.1 r.2 := by
  obtain ⟨msg, hmsg, hr⟩ := List.mem_filterMap.1 hr
  have hsent := List.mem_of_mem_drop (List.mem_of_mem_take hmsg)
  obtain ⟨msgid, a, rfl, ha⟩ := h.sent (msg, n) (mem_onConnection.1 hsent)
  rw [toResponse_pack] at hr
  cases hr
  exact ⟨n, ha⟩

/-- A message arrives at its server. -/
theorem Sound.onRequest (h : Sound s ops) {n c : Nat} {call : Call}
    (hc : (onConnection n s.client.written)[(onConnection n s.requests).length]? = some c)
    (hcall : s.client.session.calls[c]? = some call) :
    Sound { s with requests := s.requests ++ [(built c call, n)] } ops := by
  have hmono {m : Nat} {msgid : MsgId} {a : Object × Object} (ha : Answered s.requests m msgid a) :
      Answered (s.requests ++ [(built c call, n)]) m msgid a :=
    (answered_append (by simp [built])).2 ha
  refine ⟨h.heard.mono fun msgid a ha => ha.imp fun m => hmono, h.transmitted, ?_, ?_, ?_, ?_⟩
  · intro q hq
    rcases List.mem_append.1 hq with hq | hq
    · exact h.requests q hq
    · obtain rfl := List.mem_singleton.1 hq
      exact ⟨call, hcall, rfl, rfl, rfl⟩
  · intro m
    obtain ⟨l, hl⟩ := h.arrived m
    rw [onConnection_append, List.map_append]
    rcases eq_or_ne n m with rfl | hne
    · -- the message is the first one that had not arrived
      rw [← hl, ← List.length_map RequestImpl.sentBy, List.getElem?_append_right (Nat.le_refl _),
        Nat.sub_self] at hc
      obtain ⟨l, rfl⟩ : ∃ l', l = c :: l' := by
        cases l with
        | nil => cases hc
        | cons b l =>
          cases hc
          exact ⟨l, rfl⟩
      refine ⟨l, ?_⟩
      rw [← hl, List.append_assoc]
      simp [onConnection, built]
    · have hnil : onConnection m [(built c call, n)] = [] := by simp [onConnection, hne]
      rw [hnil, List.map_nil, List.append_nil]
      exact h.arrived m
  · intro q hq
    rcases List.mem_append.1 hq with hq | hq
    · exact h.unsent q hq
    · obtain rfl := List.mem_singleton.1 hq
      exact iff_of_true rfl rfl
  · intro p hp
    obtain ⟨msgid, a, hpack, ha⟩ := h.sent p hp
    exact ⟨msgid, a, hpack, hmono ha⟩

/-- A request is answered, and the response is sent if it is the first answer and the connection is
still there. -/
theorem Sound.answer (h : Sound s ops) {r n : Nat} {req : RequestImpl}
    (hr : s.requests[r]? = some (req, n)) (res err : Object) (ok : Bool) :
    Sound { s with
      requests := s.requests.set r ((req.call res err).1, n)
      sent := s.sent ++
        if ok then (req.call res err).2.toList.map fun msg => (msg, n) else [] } ops := by
  have hlater := req.later_call res err
  refine ⟨h.heard.mono fun msgid a ha => ha.imp fun m ha => ha.set hr hlater, h.transmitted, ?_, ?_,
    unsent_set h.unsent res err, ?_⟩
  · intro q hq
    rcases List.mem_or_eq_of_mem_set hq with hq | rfl
    · exact h.requests q hq
    · obtain ⟨call, hcall, hrest⟩ := h.requests (req, n) (List.mem_of_getElem? hr)
      refine ⟨call, ?_, ?_⟩
      · rwa [hlater.sentBy]
      · rwa [hlater.msgid, hlater.method, hlater.params]
  · intro m
    rw [onConnection_map, map_set_of_eq hr (by simp [hlater.sentBy]), ← onConnection_map]
    exact h.arrived m
  · intro p hp
    rcases List.mem_append.1 hp with hp | hp
    · obtain ⟨msgid, a, hpack, ha⟩ := h.sent p hp
      exact ⟨msgid, a, hpack, ha.set hr hlater⟩
    · cases ok with
      | false => cases hp
      | true =>
        obtain ⟨msg, hmsg, rfl⟩ := List.mem_map.1 hp
        obtain ⟨rfl, ha⟩ := answered_of_call h.unsent hr (Option.mem_toList.1 hmsg)
        exact ⟨req.msgid, (res, err), rfl, ha⟩

end

/-! ## Runs -/

section
variable {s s' : State} {op : Op} {x : Choice} {k : List Op} {rest : Multiset Op}

/-- Calls are only added. -/
theorem calls_mono (hs : Steps s op s' k) :
    s.client.session.calls.length ≤ s'.client.session.calls.length := by
  cases hs with
  | client _ hx | readCompletes _ hx => exact (grows_step (Tcp.exec_steps hx)).1.length_le
  | onRequest | answer => exact Nat.le_refl _

theorem sound_exec (h : Sound s ((op ::ₘ rest).filterMap Op.ofClient)) (hs : Steps s op s' k)
    (hlt : s'.client.session.calls.length < 2 ^ 32) :
    Sound s' ((↑k + rest).filterMap Op.ofClient) := by
  cases hs with
  | @client op _ client k hreceived hx =>
    rw [Multiset.filterMap_cons_some Op.ofClient _ _ rfl] at h
    have hk : (k.map Op.client).filterMap Op.ofClient = k := by
      rw [List.filterMap_map]
      exact List.filterMap_some
    rw [Multiset.filterMap_add, Multiset.filterMap_coe, hk]
    refine h.client hx ?_ hlt
    simp [hreceived]
  | readCompletes hn hx =>
    rw [Multiset.filterMap_cons_none _ _ rfl] at h
    rw [Multiset.coe_nil, zero_add]
    have hread := (h.spawn rfl).client hx (fun r hr => h.next hr) hlt
    rw [Multiset.coe_nil, zero_add] at hread
    exact ⟨hread.heard, hread.transmitted, hread.requests, hread.arrived, hread.unsent, hread.sent⟩
  | onRequest hc hcall =>
    rw [Multiset.filterMap_cons_none _ _ rfl] at h
    rw [Multiset.coe_nil, zero_add]
    exact h.onRequest hc hcall
  | answer res err ok hr =>
    rw [Multiset.filterMap_cons_none _ _ rfl] at h
    rw [Multiset.coe_nil, zero_add]
    exact h.answer hr res err ok

theorem sound_spawn (h : Sound s (rest.filterMap Op.ofClient)) (hop : op.entry = true) :
    Sound s ((op ::ₘ rest).filterMap Op.ofClient) := by
  cases op with
  | client op =>
    rw [Multiset.filterMap_cons_some Op.ofClient _ _ rfl]
    exact h.spawn hop
  | readCompletes | onRequest | answer =>
    rw [Multiset.filterMap_cons_none _ _ rfl]
    exact h

end

/-- Every state of a run with fewer than 2^32 calls. -/
theorem sound_run {connectTimeout reconnectLimit : Int} {timeout : BitVec 32}
    {ls : List (Label Op Choice)} {c : Config State Op}
    (hrun : machine.run (init connectTimeout reconnectLimit timeout) ls = some c)
    (hlt : c.shared.client.session.calls.length < 2 ^ 32) :
    Sound c.shared (c.pending.filterMap Op.ofClient) := by
  refine machine.invariant (G := fun _ _ _ _ => True)
    (fun s ops => s.client.session.calls.length < 2 ^ 32 → Sound s (ops.filterMap Op.ofClient))
    (fun s ops op h hop hs => sound_spawn (h hs) hop) ?_
    (fun _ => sound_init connectTimeout reconnectLimit timeout) (System.meets_true _ ls) hrun hlt
  intro s op rest x s' k h _ hx hs
  have hs' := Nat.lt_of_le_of_lt (calls_mono (exec_steps hx)) hs
  exact sound_exec (h hs') (exec_steps hx) hs

section
variable {s : State} {ops : Multiset Tcp.Op}

/-- The requests are messages that the client has written, each of them once. -/
theorem Sound.requests_le (h : Sound s ops) :
    (↑(s.requests.map fun q => (q.1.sentBy, q.2)) : Multiset (Nat × Nat)) ≤ ↑s.client.written := by
  refine le_of_onConnection fun n => ?_
  rw [← onConnection_map RequestImpl.sentBy]
  exact (h.arrived n).sublist

theorem Sound.requests_nodup (h : Sound s ops) : (s.requests.map fun q => q.1.sentBy).Nodup := by
  have hle := Multiset.map_le_map (f := Prod.fst) h.requests_le
  rw [Multiset.map_coe, Multiset.map_coe, List.map_map] at hle
  exact Multiset.coe_nodup.1
    (Multiset.nodup_of_le hle (Multiset.nodup_add.1 h.transmitted.sent.nodup).2.1)

/-- An answer under the id of a call is an answer to it. -/
theorem Sound.request_of_call (h : Sound s ops) (hlt : s.client.session.calls.length < 2 ^ 32)
    {c : Nat} {call : Call} (hcall : s.client.session.calls[c]? = some call) {a : Object × Object}
    (ha : Replied s.requests call.msgid a) :
    ∃ q ∈ s.requests, q.1.sentBy = c ∧ q.1.answers.head? = some a := by
  obtain ⟨n, req, hreq, hid, ha⟩ := ha
  obtain ⟨call', hcall', hid', -⟩ := h.requests _ hreq
  exact ⟨(req, n), hreq, h.heard.knows.numbered.call_unique hlt hcall' hcall (hid'.symm.trans hid), ha⟩

/-- A future that a response has completed stores the first answer to its own call. -/
theorem Sound.completed (h : Sound s ops) (hlt : s.client.session.calls.length < 2 ^ 32)
    {d : Completion Origin} (hd : d ∈ s.client.session.completions) (ho : d.origin = .response) :
    ∃ fut q, s.client.session.futures[d.future]? = some fut ∧ q ∈ s.requests ∧
      q.1.sentBy = fut.call ∧ q.1.answers.head? = some (fut.result, fut.error) := by
  have hstored := h.heard.knows.stored d hd
  obtain ⟨c, call, hc, hcall, ha⟩ := h.heard.handed d (h.heard.knows.mem_handed hd) ho
  obtain ⟨q, hq, hsent, hans⟩ := h.request_of_call hlt hcall ha
  rw [List.getElem?_map] at hc hstored
  obtain ⟨fut, hfut, rfl⟩ := Option.map_eq_some_iff.1 hc
  rw [hfut] at hstored
  obtain ⟨-, hres, herr⟩ : fut.session = false ∧ fut.result = d.result ∧ fut.error = d.error := by
    simpa [Future.outcome] using hstored
  exact ⟨fut, q, hfut, hq, hsent, by rw [hres, herr]; exact hans⟩

end

/-- A request is sent and answered, and the read of the answer completes. Before its handler runs, the
write of a second request fails. A third one is sent on a new connection and answered. Then the
answers are handled, first that of the connection that is gone. -/
def lateAnswer : List (Label Op Choice) :=
  List.flatten [
    [.spawn (.client (.sendRequest (.str [0x66]) .nil))], List.replicate 15 (.exec 0 {}),
    [.spawn (.onRequest 0), .exec 1 {}, .spawn (.answer 0 (.integer 10) .nil), .exec 2 {},
      .spawn (.readCompletes 0 1 false), .exec 3 {}],
    [.spawn (.client (.sendRequest (.str [0x67]) .nil))], List.replicate 5 (.exec 4 {}),
    [.exec 4 { ok := false }, .exec 4 { it := [⟨2, 1⟩, ⟨1, 0⟩] }], List.replicate 4 (.exec 4 {}),
    [.spawn (.client (.sendRequest (.str [0x68]) .nil))], List.replicate 15 (.exec 5 {}),
    [.spawn (.onRequest 1), .exec 6 {}, .spawn (.answer 1 (.integer 12) .nil), .exec 7 {},
      .spawn (.client (.onRead 0)), .exec 8 {}, .exec 8 {},
      .spawn (.readCompletes 0 1 false), .exec 9 {}, .spawn (.client (.onRead 0)), .exec 10 {},
      .exec 10 {}, .exec 10 {}]]

/-- The state after that. -/
def afterLate : Config State Op := (machine.run (init 10 3 30) lateAnswer).getD (init 10 3 30)

end Network

end Tcp

end MsgpackRpc
