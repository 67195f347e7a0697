import MsgpackRpc.Link.Correlation

/-!
# Nothing is lost between a session and a connection

As long as a future is in the table, what will take it out of there as a response is still on its
way: the message of its call is to be written or has been, the request that the server built from it
waits for its first answer, or the response with that answer is in the stream. So the two sides do
not come to rest with a call that only a timeout can end (`no_call_stranded`). That needs streams which
survive a reported failure, as those of `Link.Machine` do.

`Linked` places each call before it is a request of the server. `Answered` does so for the requests
that have been answered.
-/

namespace MsgpackRpc

open Threads

namespace Link

/-- The response to a request that has been sent is on its way or has been delivered, and one that
has been delivered has left no future of its call in the table. -/
structure Answered (s : State) : Prop where
  sent : ∀ (r : Nat) req, s.requests[r]? = some req → req.ms = false →
    r ∈ s.toClient.map Prod.snd ++ s.delivered
  taken : ∀ r ∈ s.delivered, ∀ req, s.requests[r]? = some req → ∀ f,
    (s.client.futures.map Future.call)[f]? = some req.sentBy → f ∉ s.client.reqtable.values

theorem answered_init : Answered {} := ⟨by simp, by simp⟩

/-- A step of the client that inserts no future. -/
theorem Answered.client {s : State} (h : Answered s) {client : Session Origin}
    (hv : client.reqtable.values ⊆ s.client.reqtable.values)
    (hf : client.futures.map Future.call = s.client.futures.map Future.call) :
    Answered { s with client } := by
  refine ⟨h.sent, ?_⟩
  intro r hr req hreq f hcall hmem
  rw [hf] at hcall
  exact h.taken r hr req hreq f hcall (hv hmem)

/-- A call whose future is still to be inserted has not been written. -/
theorem Linked.notMem_requests {s : State} {ops : Multiset Op} (h : Linked s ops) {c : Nat}
    (hc : c ∈ ops.filterMap Op.insertion) : ∀ req ∈ s.requests, req.sentBy ≠ c := by
  rintro req hreq rfl
  have hnodup := Multiset.nodup_range s.client.calls.length
  rw [← h.exchange.messages] at hnodup
  refine Multiset.disjoint_left.1 (Multiset.nodup_add.1 hnodup).2.2 ?_
    (Multiset.mem_coe.2 (List.mem_map_of_mem hreq))
  exact Multiset.mem_add.2 (.inl (Multiset.mem_add.2 (.inl hc)))

theorem Answered.sendRequestImpl {s : State} {rest : Multiset Op} {c : Nat} {call : Call}
    (h : Answered s) (hl : Linked s (.sendRequestImpl c ::ₘ rest)) :
    Answered { s with client := s.client.sendRequestImpl c call } := by
  have hins : c ∈ (Op.sendRequestImpl c ::ₘ rest).filterMap Op.insertion := by
    simp [Op.insertion]
  refine ⟨h.sent, ?_⟩
  intro r hr req hreq f hcall hmem
  have hne := hl.notMem_requests hins req (List.mem_of_getElem? hreq)
  simp only [Session.sendRequestImpl, List.map_append, List.map_singleton] at hcall
  rw [List.getElem?_append] at hcall
  split at hcall
  · -- an older future: it was in the table before
    next hlt =>
    rw [List.length_map] at hlt
    refine h.taken r hr req hreq f hcall ?_
    rw [Session.sendRequestImpl, Reqtable.values_insert, Multiset.mem_cons] at hmem
    exact Multiset.mem_of_le (Reqtable.values_erase_le _ _) (hmem.resolve_left (Nat.ne_of_lt hlt))
  · rw [List.getElem?_singleton] at hcall
    split at hcall
    · exact hne (Option.some.inj hcall).symm
    · cases hcall

theorem Answered.onRequest {s : State} {ops : Multiset Op} (h : Answered s) (hl : Linked s ops)
    {toServer : List (Object × Nat)} {req' : RequestImpl} (hms : req'.ms = true) :
    Answered { s with toServer, requests := s.requests ++ [req'] } := by
  refine ⟨?_, ?_⟩
  · intro r req hreq hsent
    rw [List.getElem?_append] at hreq
    split at hreq
    · exact h.sent r req hreq hsent
    · rw [List.getElem?_singleton] at hreq
      split at hreq
      · cases hreq
        rw [hms] at hsent
        cases hsent
      · cases hreq
  · intro r hr req hreq
    obtain ⟨q, hq, -⟩ := hl.exchange.sent r (List.mem_append_right _ hr)
    rw [List.getElem?_append_left (List.getElem?_eq_some_iff.1 hq).1] at hreq
    exact h.taken r hr req hreq

theorem Answered.answer {s : State} {r : Nat} {req : RequestImpl} (h : Answered s)
    (hr : s.requests[r]? = some req) (res err : Object) :
    Answered { s with
      requests := s.requests.set r (req.call res err).1
      toClient := s.toClient ++ (req.call res err).2.toList.map fun msg => (msg, r) } := by
  have hmem {r' : Nat} (hm : r' ∈ s.toClient.map Prod.snd ++ s.delivered) : r' ∈
      (s.toClient ++ (req.call res err).2.toList.map fun msg => (msg, r)).map Prod.snd ++
        s.delivered := by
    rw [List.map_append, List.append_assoc]
    rcases List.mem_append.1 hm with hm | hm
    · exact List.mem_append_left _ hm
    · exact List.mem_append_right _ (List.mem_append_right _ hm)
  refine ⟨?_, ?_⟩
  · intro r' q hq hsent
    rcases eq_or_ne r r' with rfl | hne
    · cases hms : req.ms with
      | false => exact hmem (h.sent r req hr hms)
      | true =>
        -- the first answer, whose response is written now
        refine List.mem_append_left _ ?_
        simp [RequestImpl.call, RequestImpl.isSent, hms]
    · rw [List.getElem?_set_ne hne] at hq
      exact hmem (h.sent r' q hq hsent)
  · intro r' hr' q hq f hcall
    rcases eq_or_ne r r' with rfl | hne
    · rw [List.getElem?_set_self (List.getElem?_eq_some_iff.1 hr).1] at hq
      cases hq
      rw [(req.later_call res err).sentBy] at hcall
      exact h.taken r hr' req hr f hcall
    · rw [List.getElem?_set_ne hne] at hq
      exact h.taken r' hr' q hq f hcall

/-- The response that is delivered takes the future of its call out of the table, if it is there:
no other entry is under the id. -/
theorem Answered.onResponse {s : State} {ops : Multiset Op} (h : Answered s) (hl : Linked s ops)
    {r : Nat} {msg : Object} {toClient : List (Object × Nat)}
    (hs : s.toClient = (msg, r) :: toClient) {msgid : MsgId} {result error : Object}
    (hmsg : onMessage msg = .ok (.response msgid result error)) :
    Answered { s with
      client := (s.client.onResponse (.response r) msgid result error).1
      toClient
      delivered := s.delivered ++ [r] } := by
  have hhands := Session.hands_onResponse s.client (.response r) msgid result error
  have hfut : (s.client.onResponse (.response r) msgid result error).1.futures.map Future.call =
      s.client.futures.map Future.call := Future.map_eq_of_untimed (fun _ => rfl) hhands.futures
  refine ⟨?_, ?_⟩
  · intro r' req hreq hsent
    have hm := h.sent r' req hreq hsent
    rw [hs, List.map_cons, List.cons_append, List.mem_cons] at hm
    rw [← List.append_assoc, List.mem_append, List.mem_singleton]
    exact hm.symm
  · intro r' hr' req hreq f hcall hmem
    rw [hfut] at hcall
    rcases List.mem_append.1 hr' with hr' | hr'
    · exact h.taken r' hr' req hreq f hcall (hhands.values_subset hmem)
    · obtain rfl := List.mem_singleton.1 hr'
      obtain ⟨q, a, hq, -, hpack⟩ := hl.exchange.toClient (msg, r') (by rw [hs]; exact .head _)
      rw [hreq] at hq
      cases hq
      -- the id of the response is that of the request, of the call and of its future
      have hid : msgid = req.msgid := by
        have hback := onMessage_pack (Message.response req.msgid a.1 a.2)
        rw [← hpack, hmsg] at hback
        injection hback with hback
        injection hback
      obtain ⟨k, hk⟩ := Reqtable.mem_values.1 hmem
      have hkey := hl.client.conserved.keys k f (hhands.lookup k f hk)
      rw [List.getElem?_map] at hkey hcall
      obtain ⟨fut, hget, hfid⟩ := Option.map_eq_some_iff.1 hkey
      rw [hget] at hcall
      obtain ⟨call, hc, hreqid, -⟩ := hl.exchange.requests req (List.mem_of_getElem? hreq)
      have hkid : k = msgid := by
        rw [← hfid, hl.client.numbered.futures fut (List.mem_of_getElem? hget),
          Option.some.inj hcall, hid, hreqid, hl.client.numbered.calls _ _ hc]
      subst hkid
      rw [Session.onResponse, Reqtable.take] at hk
      rcases hlook : s.client.reqtable.lookup k with _ | g
      · simp only [hlook] at hk
        cases hk
      · simp only [hlook, Reqtable.lookup_erase] at hk
        cases hk

theorem answered_exec {s s' : State} {op : Op} {rest : Multiset Op} {k : List Op}
    (hl : Linked s (op ::ₘ rest)) (h : Answered s) (hs : Steps s op s' k) : Answered s' := by
  cases hs with
  | sendRequest method params => exact h.client (fun _ => id) rfl
  | sendRequestImpl _ => exact h.sendRequestImpl hl
  | sendData _ => exact ⟨h.sent, h.taken⟩
  | onRequest _ _ => exact h.onRequest hl rfl
  | answer res err hreq => exact h.answer hreq res err
  | onResponse hs hmsg => exact h.onResponse hl hs hmsg
  | take _ hhands _ =>
    exact h.client hhands.values_subset (Future.map_eq_of_untimed (fun _ => rfl) hhands.futures)
  | setResult c =>
    refine h.client ?_ (Session.setResult_futures (fun _ _ _ => rfl) s.client c)
    rw [Session.setResult_frame]
    exact fun _ => id

/-- Every state of a run with fewer than 2^32 calls. -/
theorem answered_run {ls : List (Label Op (List Reqtable.Entry))} {c : Config State Op}
    (hrun : machine.run init ls = some c) (hlt : c.shared.client.calls.length < 2 ^ 32) :
    Linked c.shared c.pending ∧ Answered c.shared := by
  refine machine.invariant
    (fun s ops => s.client.calls.length < 2 ^ 32 → Linked s ops ∧ Answered s)
    (fun s ops op h hop hs => ⟨linked_spawn (h hs).1 hop, (h hs).2⟩)
    ?_ (fun _ => ⟨⟨client_init, exchange_init⟩, answered_init⟩)
    (System.meets_true init ls) hrun hlt
  intro s op rest it s' k h _ hx hs
  have hs' := Nat.lt_of_le_of_lt (calls_mono (exec_steps hx)) hs
  obtain ⟨hl, ha⟩ := h hs'
  exact ⟨linked_exec hl hs' (exec_steps hx), answered_exec hl ha (exec_steps hx)⟩

/-- The message of the call is still to be written, or is on its way to the server. -/
def Asking (s : State) (ops : Multiset Op) (c : Nat) : Prop :=
  .sendData c ∈ ops ∨ c ∈ s.toServer.map Prod.snd

/-- The server has a request of the call that it has not answered, or whose response is on its way
to the client. -/
def Serving (s : State) (c : Nat) : Prop :=
  ∃ (r : Nat) (req : RequestImpl), s.requests[r]? = some req ∧ req.sentBy = c ∧
    (req.ms = true ∨ r ∈ s.toClient.map Prod.snd)

theorem Linked.on_way {s : State} {ops : Multiset Op} (h : Linked s ops) (ha : Answered s)
    {f : FutureId} (hf : f ∈ s.client.reqtable.values) :
    ∃ fut, s.client.futures[f]? = some fut ∧ (Asking s ops fut.call ∨ Serving s fut.call) := by
  obtain ⟨fut, hfut⟩ : ∃ fut, s.client.futures[f]? = some fut :=
    ⟨_, List.getElem?_eq_getElem (h.client.conserved.lt_length hf)⟩
  refine ⟨fut, hfut, ?_⟩
  have hmem : fut.call ∈ s.client.futures.map Future.call :=
    List.mem_map_of_mem (List.mem_of_getElem? hfut)
  have hlt : fut.call ∈ Multiset.range s.client.calls.length := by
    rw [← h.client.numbered.inserted]
    exact Multiset.mem_add.2 (.inr (Multiset.mem_coe.2 hmem))
  rw [← h.exchange.messages, Multiset.mem_add, Multiset.mem_add, Multiset.mem_add] at hlt
  rcases hlt with ((hi | hw) | ht) | hr
  · exact absurd hmem (h.client.numbered.notMem_futures hi)
  · obtain ⟨op, hop, hwrite⟩ := (Multiset.mem_filterMap _ _).1 hw
    refine .inl (.inl ?_)
    cases op <;> cases hwrite
    exact hop
  · exact .inl (.inr (Multiset.mem_coe.1 ht))
  · obtain ⟨req, hreq, hsent⟩ := List.mem_map.1 (Multiset.mem_coe.1 hr)
    obtain ⟨r, hget⟩ := List.mem_iff_getElem?.1 hreq
    refine .inr ⟨r, req, hget, hsent, ?_⟩
    cases hms : req.ms with
    | true => exact .inl rfl
    | false =>
      rcases List.mem_append.1 (ha.sent r req hget hms) with hon | hdel
      · exact .inr hon
      · refine absurd hf (ha.taken r hdel req hget f ?_)
        rw [List.getElem?_map, hfut, Option.map_some, hsent]

/-- A future whose completion has been made is ready. -/
theorem Client.ready {ι : Type} {s : Session ι} {pending : Multiset (Completion ι)}
    {inserts : Multiset Nat} (h : Client s pending inserts) {d : Completion ι}
    (hd : d ∈ s.completions) : s.Ready d.future := by
  have hstored := congrArg (Option.map Prod.fst) (h.stored d hd)
  simpa [Session.Ready, Future.outcome, List.getElem?_map, Function.comp_def] using hstored

/-- **No call is stranded** on streams that survive a reported failure. In every state of every run with
fewer than 2^32 calls, what will answer the call of a future in the table is still on its way, from the
write of its message to its response. So where no thread has anything left to do, both streams are empty and every request has
been answered, the table is empty and every future is ready. -/
theorem no_call_stranded {ls : List (Label Op (List Reqtable.Entry))} {c : Config State Op}
    (hrun : machine.run init ls = some c) (hlt : c.shared.client.calls.length < 2 ^ 32) :
    (∀ f ∈ c.shared.client.reqtable.values, ∃ fut, c.shared.client.futures[f]? = some fut ∧
        (Asking c.shared c.pending fut.call ∨ Serving c.shared fut.call)) ∧
      (c.pending = 0 → c.shared.toServer = [] → c.shared.toClient = [] →
        (∀ req ∈ c.shared.requests, req.isSent = true) →
        c.shared.client.reqtable.values = 0 ∧
          ∀ f < c.shared.client.futures.length, c.shared.client.Ready f) := by
  obtain ⟨hl, ha⟩ := answered_run hrun hlt
  refine ⟨fun f hf => hl.on_way ha hf, ?_⟩
  intro hpending hup hdown hsent
  have hempty : c.shared.client.reqtable.values = 0 := by
    refine Multiset.eq_zero_of_forall_notMem fun f hf => ?_
    obtain ⟨fut, -, (hw | ht) | ⟨r, req, hreq, -, hms | hon⟩⟩ := hl.on_way ha hf
    · rw [hpending] at hw
      exact Multiset.notMem_zero _ hw
    · rw [hup] at ht
      cases ht
    · have hsome := hsent req (List.mem_of_getElem? hreq)
      rw [RequestImpl.isSent, hms] at hsome
      cases hsome
    · rw [hdown] at hon
      cases hon
  refine ⟨hempty, ?_⟩
  intro f hf
  obtain ⟨d, hd, rfl⟩ : ∃ d ∈ c.shared.client.handed, d.future = f := by
    have hmem := Multiset.mem_range.2 hf
    rwa [← hl.client.conserved.futures, hempty, hl.client.displaced, Multiset.coe_nil, zero_add,
      add_zero, Multiset.mem_coe, List.mem_map] at hmem
  rcases (hl.client.conserved.made_or_pending hd).2 with hmade | hpend
  · exact hl.client.ready hmade
  · rw [hpending] at hpend
    exact absurd hpend (Multiset.notMem_zero _)

/-- A request is sent, received and answered, and the response delivered. -/
def answeredAndDelivered : List (Label Op (List Reqtable.Entry)) :=
  [.spawn (.sendRequest (.str [0x66]) .nil), .exec 0 [], .exec 0 [], .exec 0 [],
    .spawn .onRequest, .exec 1 [], .spawn (.answer 0 (.integer 7) .nil), .exec 2 [],
    .spawn .onResponse, .exec 3 [], .exec 3 []]

/-- The state after that. -/
def atRest : Config State Op := (machine.run init answeredAndDelivered).getD init

theorem no_call_stranded_atRest :
    machine.run init answeredAndDelivered = some atRest ∧
      atRest.shared.client.reqtable.values = 0 ∧ atRest.shared.client.futures.length = 1 ∧
      atRest.shared.client.Ready 0 := by
  have h := (no_call_stranded (rfl : machine.run init answeredAndDelivered = some atRest)
    (by decide)).2 rfl rfl rfl (by decide)
  exact ⟨rfl, h.1, rfl, h.2 0 (by decide)⟩

end Link

end MsgpackRpc
