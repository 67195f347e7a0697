import MsgpackRpc.Link.Machine

/-!
# Answers reach the calls they answer

The invariant behind `answers_correlated` has two parts. `Client` is what a session knows of itself
while fewer than 2^32 requests have been sent: its futures are conserved and numbered, none has lost
its entry, and each stores what its one completion says. `Exchange` follows each call through the
two streams: its message is unsent, on its way, or has become one request of the server, whose first
answer is unsent, on its way, or delivered.
-/

namespace MsgpackRpc

open Threads

namespace Link

/-! ## The client -/

section
variable {ι : Type} {s s' : Session ι} {pending : Multiset (Completion ι)} {inserts : Multiset Nat}

/-- A session that completes futures only from the table and has sent fewer than 2^32 requests. -/
structure Client (s : Session ι) (pending : Multiset (Completion ι)) (inserts : Multiset Nat) :
    Prop where
  conserved : s.Conserved pending
  numbered : s.Numbered inserts
  displaced : s.displaced = []
  extracted : ∀ d ∈ ↑s.completions + pending, d.extracted.isSome
  stored : ∀ d ∈ s.completions,
    (s.futures.map Future.outcome)[d.future]? = some (false, d.result, d.error)

theorem client_init : Client ({} : Session ι) 0 0 :=
  ⟨Session.conserved_init 30, Session.numbered_init 30, rfl, by simp, by simp⟩

theorem Client.sendRequest (h : Client s pending inserts) (method params : Object) :
    Client (s.sendRequest method params) pending (s.calls.length ::ₘ inserts) :=
  ⟨h.conserved.sendRequest method params, h.numbered.sendRequest method params, h.displaced,
    h.extracted, h.stored⟩

theorem Client.sendRequestImpl {c : Nat} {call : Call} (h : Client s pending (c ::ₘ inserts))
    (hc : s.calls[c]? = some call) (hlt : s.calls.length < 2 ^ 32) :
    Client (s.sendRequestImpl c call) pending inserts := by
  have hnone := h.numbered.lookup_eq_none h.conserved hc fun c' _ => by omega
  refine ⟨h.conserved.sendRequestImpl c call, h.numbered.sendRequestImpl hc, ?_, h.extracted, ?_⟩
  · simp [Session.sendRequestImpl, hnone, h.displaced]
  · intro d hd
    have hold := h.stored d hd
    simp only [Session.sendRequestImpl, List.map_append]
    rw [List.getElem?_append_left (List.getElem?_eq_some_iff.1 hold).1]
    exact hold

theorem Client.hands (h : Client s pending inserts) {cs : List (Completion ι)}
    (hs : s.Hands s' cs) : Client s' (↑cs + pending) inserts := by
  refine ⟨h.conserved.hands hs, h.numbered.hands hs, ?_, ?_, ?_⟩
  · rw [hs.frame]
    exact h.displaced
  · intro d hd
    rw [hs.frame, add_left_comm, Multiset.mem_add] at hd
    rcases hd with hd | hd
    · rw [hs.extracted d (Multiset.mem_coe.1 hd)]
      rfl
    · exact h.extracted d hd
  · intro d hd
    rw [Future.map_eq_of_untimed (fun _ => rfl) hs.futures]
    rw [hs.frame] at hd
    exact h.stored d hd

/-- A future is completed once: the completions made and pending are of distinct futures. -/
theorem Client.nodup (h : Client s pending inserts) :
    ((↑s.completions + pending).map Completion.future).Nodup := by
  have hfilter := Multiset.filter_eq_self.2 h.extracted
  have hle := Multiset.le_add_left (↑(s.handed.map Completion.future)) s.reqtable.values
  have hfut := h.conserved.futures
  rw [h.displaced, Multiset.coe_nil, add_zero] at hfut
  rw [hfut] at hle
  have hnodup := Multiset.nodup_of_le hle (Multiset.nodup_range _)
  rw [← hfilter, ← h.conserved.handed]
  exact hnodup

theorem Client.setResult {c : Completion ι} (h : Client s (c ::ₘ pending) inserts) :
    Client (s.setResult c).1 pending inserts := by
  have hcs : (s.setResult c).1.completions = s.completions ++ [c] := by
    rw [Session.setResult_frame]
  have hmove : ↑(s.completions ++ [c]) + pending = ↑s.completions + (c ::ₘ pending) := by
    rw [← Multiset.coe_add, Multiset.coe_singleton, ← Multiset.singleton_add, add_assoc]
  refine ⟨h.conserved.setResult, h.numbered.setResult c, ?_, ?_, ?_⟩
  · rw [Session.setResult_frame]
    exact h.displaced
  · rw [hcs, hmove]
    exact h.extracted
  · intro d hd
    have hlt : c.future < (s.futures.map Future.outcome).length := by
      rw [List.length_map, ← Multiset.mem_range, ← h.conserved.futures, Multiset.mem_add,
        Multiset.mem_add]
      refine .inl (.inr (Multiset.mem_coe.2 (List.mem_map_of_mem (Multiset.mem_coe.1 ?_))))
      rw [h.conserved.handed, Multiset.filter_eq_self.2 h.extracted]
      simp
    have hnodup := h.nodup
    rw [Multiset.add_cons, Multiset.map_cons, Multiset.nodup_cons] at hnodup
    rw [Session.setResult_outcomes]
    rw [hcs] at hd
    rcases List.mem_append.1 hd with hd | hd
    · rw [List.getElem?_set_ne fun heq => hnodup.1 ?_]
      · exact h.stored d hd
      · rw [heq]
        exact Multiset.mem_map_of_mem _ (Multiset.mem_add.2 (.inl (Multiset.mem_coe.2 hd)))
    · rw [List.mem_singleton.1 hd]
      exact List.getElem?_set_self hlt

/-- A completion that was made had been handed out. -/
theorem Client.mem_handed (h : Client s pending inserts) {d : Completion ι}
    (hd : d ∈ s.completions) : d ∈ s.handed := by
  rw [← Multiset.mem_coe, h.conserved.handed, Multiset.filter_eq_self.2 h.extracted,
    Multiset.mem_add]
  exact .inl (Multiset.mem_coe.2 hd)

/-- An entry under the id of a call is that of its future. -/
theorem Client.lookup_call (h : Client s pending inserts) (hlt : s.calls.length < 2 ^ 32) {c : Nat}
    {call : Call} (hc : s.calls[c]? = some call) {f : FutureId}
    (hl : s.reqtable.lookup call.msgid = some f) : (s.futures.map Future.call)[f]? = some c := by
  have hkey := h.conserved.keys _ _ hl
  rw [List.getElem?_map] at hkey ⊢
  obtain ⟨fut, hfut, hid⟩ := Option.map_eq_some_iff.1 hkey
  have hmem : fut ∈ s.futures := List.mem_of_getElem? hfut
  have hcall : fut.call < s.calls.length := by
    rw [← Multiset.mem_range, ← h.numbered.inserted, Multiset.mem_add]
    exact .inr (Multiset.mem_coe.2 (List.mem_map_of_mem hmem))
  have hclt := (List.getElem?_eq_some_iff.1 hc).1
  rw [h.numbered.futures fut hmem, h.numbered.calls c call hc] at hid
  have hmod := congrArg BitVec.toNat hid
  simp only [BitVec.toNat_ofNat] at hmod
  rw [hfut, Option.map_some, Option.some.injEq]
  omega

/-- The future of a call is in the table or has been handed out. -/
theorem Client.lookup_or_handed (h : Client s pending inserts) {f : FutureId} {fut : Future}
    (hf : s.futures[f]? = some fut) :
    s.reqtable.lookup fut.msgid = some f ∨ ∃ d ∈ s.handed, d.future = f := by
  have hmem : f ∈ Multiset.range s.futures.length :=
    Multiset.mem_range.2 (List.getElem?_eq_some_iff.1 hf).1
  rw [← h.conserved.futures, h.displaced, Multiset.coe_nil, add_zero, Multiset.mem_add,
    Multiset.mem_coe, List.mem_map] at hmem
  refine hmem.imp_left ?_
  intro hv
  obtain ⟨k, hk⟩ := Reqtable.mem_values.1 hv
  have hkey := h.conserved.keys k f hk
  rw [List.getElem?_map, hf] at hkey
  rw [show fut.msgid = k from Option.some.inj hkey]
  exact hk

end

/-! ## The exchange of messages -/

/-- Where the calls are whose message is not in `unsent`, and the answers to them. -/
structure Exchange (s : State) (unsent : Multiset Nat) : Prop where
  messages : unsent + ↑(s.toServer.map Prod.snd) + ↑(s.requests.map RequestImpl.sentBy) =
    Multiset.range s.client.calls.length
  toServer : ∀ m ∈ s.toServer, ∃ call, s.client.calls[m.2]? = some call ∧ m.1 = request call
  requests : ∀ req ∈ s.requests, ∃ call, s.client.calls[req.sentBy]? = some call ∧
    req.msgid = call.msgid ∧ req.method = call.method ∧ req.params = call.params
  unsent : ∀ req ∈ s.requests, req.ms = true → req.answers = []
  toClient : ∀ m ∈ s.toClient, ∃ req a, s.requests[m.2]? = some req ∧
    req.answers.head? = some a ∧ m.1 = (Message.response req.msgid a.1 a.2).pack
  once : (s.toClient.map Prod.snd ++ s.delivered).Nodup
  sent : ∀ r ∈ s.toClient.map Prod.snd ++ s.delivered, ∃ req, s.requests[r]? = some req ∧
    req.ms = false
  handed : ∀ d ∈ s.client.handed, ∀ r, d.origin = .response r → r ∈ s.delivered ∧
    ∃ req, s.requests[r]? = some req ∧ req.answers.head? = some (d.result, d.error) ∧
      (s.client.futures.map Future.call)[d.future]? = some req.sentBy

theorem exchange_init : Exchange {} 0 :=
  ⟨rfl, by simp, by simp, by simp, by simp, by simp, by simp, by simp⟩

/-- A step of the client that delivers no response: calls and futures are added, and what it hands
out is not the answer to a request. -/
theorem Exchange.client {s : State} {unsent unsent' : Multiset Nat} (h : Exchange s unsent)
    {client : Session Origin}
    (hc : ∀ (c : Nat) call, s.client.calls[c]? = some call → client.calls[c]? = some call)
    (hf : ∀ (f : Nat) c, (s.client.futures.map Future.call)[f]? = some c →
      (client.futures.map Future.call)[f]? = some c)
    (hh : ∀ d ∈ client.handed, d ∈ s.client.handed ∨ ∀ r, d.origin ≠ .response r)
    (hm : unsent' + ↑(s.toServer.map Prod.snd) + ↑(s.requests.map RequestImpl.sentBy) =
      Multiset.range client.calls.length) : Exchange { s with client } unsent' := by
  refine ⟨hm, ?_, ?_, h.unsent, h.toClient, h.once, h.sent, ?_⟩
  · intro m hmem
    obtain ⟨call, hcall, he⟩ := h.toServer m hmem
    exact ⟨call, hc _ _ hcall, he⟩
  · intro req hreq
    obtain ⟨call, hcall, he⟩ := h.requests req hreq
    exact ⟨call, hc _ _ hcall, he⟩
  · intro d hd r hr
    rcases hh d hd with hd | hd
    · obtain ⟨hdel, req, hreq, hans, hcall⟩ := h.handed d hd r hr
      exact ⟨hdel, req, hreq, hans, hf _ _ hcall⟩
    · exact absurd hr (hd r)

/-- The message of a call is written. -/
theorem Exchange.sendData {s : State} {unsent : Multiset Nat} {c : Nat} {call : Call}
    (h : Exchange s (c ::ₘ unsent)) (hc : s.client.calls[c]? = some call) :
    Exchange { s with toServer := s.toServer ++ [(request call, c)] } unsent := by
  refine ⟨?_, ?_, h.requests, h.unsent, h.toClient, h.once, h.sent, h.handed⟩
  · rw [← h.messages]
    simp only [List.map_append, ← Multiset.coe_add, ← Multiset.singleton_add, List.map_cons,
      List.map_nil, Multiset.coe_singleton]
    abel
  · intro m hm
    rcases List.mem_append.1 hm with hm | hm
    · exact h.toServer m hm
    · rw [List.mem_singleton.1 hm]
      exact ⟨call, hc, rfl⟩

/-- A message is received and becomes a request of the server. -/
theorem Exchange.onRequest {s : State} {unsent : Multiset Nat} (h : Exchange s unsent) {c : Nat}
    {msg : Object} {toServer : List (Object × Nat)} (hs : s.toServer = (msg, c) :: toServer)
    {msgid : MsgId} {method params : Object}
    (hmsg : onMessage msg = .ok (.request msgid method params)) :
    Exchange { s with
      toServer
      requests := s.requests ++ [{ msgid, method, params, sentBy := c }] } unsent := by
  have hget {r : Nat} {req : RequestImpl} (hr : s.requests[r]? = some req) :
      (s.requests ++ [({ msgid, method, params, sentBy := c } : RequestImpl)])[r]? = some req := by
    rw [List.getElem?_append_left (List.getElem?_eq_some_iff.1 hr).1]
    exact hr
  refine ⟨?_, fun m hm => h.toServer m (by rw [hs]; exact .tail _ hm), ?_, ?_, ?_, h.once, ?_, ?_⟩
  · have hm := h.messages
    rw [hs] at hm
    rw [← hm]
    simp only [List.map_append, ← Multiset.coe_add, List.map_cons, List.map_nil,
      ← Multiset.cons_coe, ← Multiset.singleton_add]
    abel
  · intro req hreq
    rcases List.mem_append.1 hreq with hreq | hreq
    · exact h.requests req hreq
    · rw [List.mem_singleton.1 hreq]
      obtain ⟨call, hcall, he⟩ := h.toServer (msg, c) (by rw [hs]; exact .head _)
      have hpack : onMessage msg = .ok (.request call.msgid call.method call.params) := by
        rw [show msg = request call from he]
        exact onMessage_pack _
      rw [hmsg] at hpack
      injection hpack with hpack
      injection hpack with h1 h2 h3
      exact ⟨call, hcall, h1, h2, h3⟩
  · intro req hreq hms
    rcases List.mem_append.1 hreq with hreq | hreq
    · exact h.unsent req hreq hms
    · rw [List.mem_singleton.1 hreq]
  · intro m hm
    obtain ⟨req, a, hreq, ha⟩ := h.toClient m hm
    exact ⟨req, a, hget hreq, ha⟩
  · intro r hr
    obtain ⟨req, hreq, hms⟩ := h.sent r hr
    exact ⟨req, hget hreq, hms⟩
  · intro d hd r hr
    obtain ⟨hdel, req, hreq, ha⟩ := h.handed d hd r hr
    exact ⟨hdel, req, hget hreq, ha⟩

/-- A request becomes a later one, which is sent. -/
theorem Exchange.replace {s : State} {unsent : Multiset Nat} (h : Exchange s unsent) {r : Nat}
    {req req' : RequestImpl} (hr : s.requests[r]? = some req) (hl : req.Later req')
    (hms : req'.ms = false) : Exchange { s with requests := s.requests.set r req' } unsent := by
  refine ⟨?_, h.toServer, ?_, ?_, ?_, h.once, ?_, ?_⟩
  · rw [map_set_of_eq hr hl.sentBy]
    exact h.messages
  · intro q hq
    rcases List.mem_or_eq_of_mem_set hq with hq | rfl
    · exact h.requests q hq
    · rw [hl.sentBy, hl.msgid, hl.method, hl.params]
      exact h.requests req (List.mem_of_getElem? hr)
  · intro q hq hq'
    rcases List.mem_or_eq_of_mem_set hq with hq | rfl
    · exact h.unsent q hq hq'
    · rw [hms] at hq'
      cases hq'
  · intro m hm
    obtain ⟨q, a, hq, ha, he⟩ := h.toClient m hm
    obtain ⟨q', hq', hlq⟩ := hl.getElem?_set hr hq
    exact ⟨q', a, hq', hlq.first a ha, by rw [hlq.msgid]; exact he⟩
  · intro r' hr'
    obtain ⟨q, hq, hsent⟩ := h.sent r' hr'
    obtain ⟨q', hq', hlq⟩ := hl.getElem?_set hr hq
    exact ⟨q', hq', hlq.sent hsent⟩
  · intro d hd r' hr'
    obtain ⟨hdel, q, hq, ha, hcall⟩ := h.handed d hd r' hr'
    obtain ⟨q', hq', hlq⟩ := hl.getElem?_set hr hq
    exact ⟨hdel, q', hq', hlq.first _ ha, by rw [hlq.sentBy]; exact hcall⟩

/-- The response with the first answer to a request is written. -/
theorem Exchange.sendResponse {s : State} {unsent : Multiset Nat} (h : Exchange s unsent) {r : Nat}
    {req : RequestImpl} (hr : s.requests[r]? = some req) (hms : req.ms = false) {res err : Object}
    (ha : req.answers.head? = some (res, err))
    (hnew : r ∉ s.toClient.map Prod.snd ++ s.delivered) :
    Exchange { s with
      toClient := s.toClient ++ [((Message.response req.msgid res err).pack, r)] } unsent := by
  have hperm : ((s.toClient ++ [((Message.response req.msgid res err).pack, r)]).map Prod.snd ++
      s.delivered).Perm (r :: (s.toClient.map Prod.snd ++ s.delivered)) := by
    rw [List.map_append, List.append_assoc]
    exact List.perm_middle
  refine ⟨h.messages, h.toServer, h.requests, h.unsent, ?_,
    hperm.nodup_iff.2 (List.nodup_cons.2 ⟨hnew, h.once⟩), ?_, h.handed⟩
  · intro m hm
    rcases List.mem_append.1 hm with hm | hm
    · exact h.toClient m hm
    · rw [List.mem_singleton.1 hm]
      exact ⟨req, (res, err), hr, ha, rfl⟩
  · intro r' hr'
    rcases List.mem_cons.1 (hperm.mem_iff.1 hr') with rfl | hr'
    · exact ⟨req, hr, hms⟩
    · exact h.sent r' hr'

/-- A request is answered; only the first answer is sent. -/
theorem Exchange.answer {s : State} {unsent : Multiset Nat} (h : Exchange s unsent) {r : Nat}
    {req : RequestImpl} (hr : s.requests[r]? = some req) (res err : Object) :
    Exchange { s with
      requests := s.requests.set r (req.call res err).1
      toClient := s.toClient ++ (req.call res err).2.toList.map fun msg => (msg, r) } unsent := by
  have hreplace := h.replace hr (req.later_call res err) (req.call_ms res err)
  cases hs : req.ms with
  | false =>
    have hnone : (req.call res err).2 = none := by simp [RequestImpl.call, RequestImpl.isSent, hs]
    rw [hnone, Option.toList_none, List.map_nil, List.append_nil]
    exact hreplace
  | true =>
    have hnil := h.unsent req (List.mem_of_getElem? hr) hs
    have hnew : r ∉ s.toClient.map Prod.snd ++ s.delivered := by
      intro hmem
      obtain ⟨q, hq, hms⟩ := h.sent r hmem
      rw [hr] at hq
      cases hq
      rw [hs] at hms
      cases hms
    have hsome : (req.call res err).2 =
        some (Message.response (req.call res err).1.msgid res err).pack := by
      simp [RequestImpl.call, RequestImpl.isSent, hs]
    have hfirst : (req.call res err).1.answers.head? = some (res, err) := by
      simp [RequestImpl.call, RequestImpl.isSent, hs, hnil]
    rw [hsome, Option.toList_some, List.map_singleton]
    exact hreplace.sendResponse (List.getElem?_set_self (List.getElem?_eq_some_iff.1 hr).1)
      (req.call_ms res err) hfirst hnew

/-- A response is delivered: the future that it finds is that of the call it answers. -/
theorem Exchange.onResponse {s : State} {unsent inserts : Multiset Nat}
    {pending : Multiset (Completion Origin)} (h : Exchange s unsent)
    (hclient : Client s.client pending inserts) (hlt : s.client.calls.length < 2 ^ 32) {r : Nat}
    {msg : Object} {toClient : List (Object × Nat)} (hs : s.toClient = (msg, r) :: toClient)
    {msgid : MsgId} {result error : Object}
    (hmsg : onMessage msg = .ok (.response msgid result error)) :
    Exchange { s with
      client := (s.client.onResponse (.response r) msgid result error).1
      toClient
      delivered := s.delivered ++ [r] } unsent := by
  obtain ⟨req, a, hreq, ha, he⟩ := h.toClient (msg, r) (by rw [hs]; exact .head _)
  obtain ⟨call, hcall, hid, -⟩ := h.requests req (List.mem_of_getElem? hreq)
  have hpack : onMessage msg = .ok (.response req.msgid a.1 a.2) := by
    rw [show msg = (Message.response req.msgid a.1 a.2).pack from he]
    exact onMessage_pack _
  rw [hmsg] at hpack
  injection hpack with hpack
  injection hpack with h1 h2 h3
  have hhands := Session.hands_onResponse s.client (.response r) msgid result error
  have hperm : (toClient.map Prod.snd ++ (s.delivered ++ [r])).Perm
      (s.toClient.map Prod.snd ++ s.delivered) := by
    rw [hs, ← List.append_assoc, List.map_cons, List.cons_append]
    exact List.perm_append_singleton r _
  have hfut : (s.client.onResponse (.response r) msgid result error).1.futures.map Future.call =
      s.client.futures.map Future.call := Future.map_eq_of_untimed (fun _ => rfl) hhands.futures
  have hcalls : (s.client.onResponse (.response r) msgid result error).1.calls = s.client.calls := by
    rw [hhands.frame]
  refine ⟨by rw [hcalls]; exact h.messages, by rw [hcalls]; exact h.toServer,
    by rw [hcalls]; exact h.requests, h.unsent,
    fun m hm => h.toClient m (by rw [hs]; exact .tail _ hm), hperm.nodup_iff.2 h.once,
    fun r' hr' => h.sent r' (hperm.mem_iff.1 hr'), ?_⟩
  intro d hd r' hr'
  rw [hfut]
  rw [hhands.frame] at hd
  rcases List.mem_append.1 hd with hd | hd
  · obtain ⟨hdel, hrest⟩ := h.handed d hd r' hr'
    exact ⟨List.mem_append_left _ hdel, hrest⟩
  · rw [Session.onResponse, Reqtable.take] at hd
    rcases hl : s.client.reqtable.lookup msgid with _ | f
    · simp [hl] at hd
    · rw [hl] at hd
      obtain rfl := List.mem_singleton.1 hd
      cases hr'
      refine ⟨List.mem_append_right _ (List.mem_singleton_self r), req, hreq, ?_, ?_⟩
      · rw [ha, h2, h3]
      · exact hclient.lookup_call hlt hcall (by rw [← hid, ← h1]; exact hl)

/-- The server builds one request from the message of a call. -/
theorem Exchange.request_unique {s : State} {unsent : Multiset Nat} (h : Exchange s unsent)
    {r r' : Nat} {req req' : RequestImpl} (hr : s.requests[r]? = some req)
    (hr' : s.requests[r']? = some req') (he : req.sentBy = req'.sentBy) : r = r' := by
  have hnodup : (s.requests.map RequestImpl.sentBy).Nodup := by
    have hle := Multiset.le_add_left (↑(s.requests.map RequestImpl.sentBy) : Multiset Nat)
      (unsent + ↑(s.toServer.map Prod.snd))
    rw [h.messages] at hle
    exact Multiset.coe_nodup.1 (Multiset.nodup_of_le hle (Multiset.nodup_range _))
  have hlen : r < (s.requests.map RequestImpl.sentBy).length := by
    rw [List.length_map]
    exact (List.getElem?_eq_some_iff.1 hr).1
  refine (List.getElem?_inj hlen hnodup).1 ?_
  rw [List.getElem?_map, List.getElem?_map, hr, hr', Option.map_some, Option.map_some, he]

/-- A response that is on its way has not been delivered. -/
theorem Exchange.notMem_delivered {s : State} {unsent : Multiset Nat} (h : Exchange s unsent)
    {msg : Object} {r : Nat} (hm : (msg, r) ∈ s.toClient) : r ∉ s.delivered := by
  intro hdel
  exact (List.nodup_append.1 h.once).2.2 r (List.mem_map_of_mem hm) r hdel rfl

/-! ## Runs -/

/-- The invariant of the link. -/
structure Linked (s : State) (ops : Multiset Op) : Prop where
  client : Client s.client (ops.filterMap Op.completion) (ops.filterMap Op.insertion)
  exchange : Exchange s (ops.filterMap Op.insertion + ops.filterMap Op.write)

/-- An operation that neither completes, inserts nor writes is not seen by the invariant. -/
theorem filterMap_of_entry (op : Op) (h : op.entry = true) (ops : Multiset Op) :
    (op ::ₘ ops).filterMap Op.completion = ops.filterMap Op.completion ∧
      (op ::ₘ ops).filterMap Op.insertion = ops.filterMap Op.insertion ∧
      (op ::ₘ ops).filterMap Op.write = ops.filterMap Op.write := by
  refine ⟨?_, ?_, ?_⟩ <;> refine Multiset.filterMap_cons_none _ _ ?_ <;>
    cases op <;> first | rfl | cases h

theorem linked_spawn {s : State} {op : Op} {ops : Multiset Op} (h : Linked s ops)
    (hop : op.entry = true) : Linked s (op ::ₘ ops) := by
  obtain ⟨h1, h2, h3⟩ := filterMap_of_entry op hop ops
  exact ⟨by rw [h1, h2]; exact h.client, by rw [h2, h3]; exact h.exchange⟩

/-- Completions are neither insertions nor writes. -/
theorem filterMap_setResult (cs : List (Completion Origin)) (ops : Multiset Op) :
    (↑(cs.map Op.setResult) + ops).filterMap Op.completion = ↑cs + ops.filterMap Op.completion ∧
      (↑(cs.map Op.setResult) + ops).filterMap Op.insertion = ops.filterMap Op.insertion ∧
      (↑(cs.map Op.setResult) + ops).filterMap Op.write = ops.filterMap Op.write := by
  refine ⟨?_, ?_, ?_⟩ <;>
    simp [List.filterMap_map, Function.comp_def, Op.completion, Op.insertion, Op.write]

/-- A step that takes futures out of the table other than to deliver a response. -/
theorem Linked.hands {s : State} {rest : Multiset Op} {client : Session Origin}
    {cs : List (Completion Origin)} (h : Linked s rest) (hs : s.client.Hands client cs)
    (ho : ∀ d ∈ cs, ∀ r, d.origin ≠ .response r) :
    Linked { s with client } (↑(cs.map Op.setResult) + rest) := by
  have hcalls : client.calls = s.client.calls := by rw [hs.frame]
  obtain ⟨h1, h2, h3⟩ := filterMap_setResult cs rest
  refine ⟨by rw [h1, h2]; exact h.client.hands hs, ?_⟩
  · rw [h2, h3]
    refine h.exchange.client (by rw [hcalls]; exact fun _ _ => id) ?_ ?_
      (by rw [hcalls]; exact h.exchange.messages)
    · rw [Future.map_eq_of_untimed (fun _ => rfl) hs.futures]
      exact fun _ _ => id
    · intro d hd
      rw [hs.frame] at hd
      exact (List.mem_append.1 hd).imp_right (ho d)

/-- An operation that is started from outside has no part in the invariant. -/
theorem linked_of_entry {s : State} {op : Op} {rest : Multiset Op} (h : Linked s (op ::ₘ rest))
    (hop : op.entry = true) : Linked s rest := by
  obtain ⟨h1, h2, h3⟩ := filterMap_of_entry op hop rest
  exact ⟨by rw [← h1, ← h2]; exact h.client, by rw [← h2, ← h3]; exact h.exchange⟩

theorem Linked.sendRequest {s : State} {rest : Multiset Op} (h : Linked s rest)
    (method params : Object) :
    Linked { s with client := s.client.sendRequest method params }
      (.sendRequestImpl s.client.calls.length ::ₘ rest) := by
  refine ⟨?_, h.exchange.client ?_ (fun _ _ => id) (fun _ => .inl) ?_⟩
  · simpa [Multiset.filterMap_cons, Op.completion, Op.insertion] using
      h.client.sendRequest method params
  · intro c call hcall
    simp only [Session.sendRequest, Session.nextMsgid]
    rw [List.getElem?_append_left (List.getElem?_eq_some_iff.1 hcall).1]
    exact hcall
  · simp [Session.sendRequest, Session.nextMsgid, Multiset.range_succ, ← h.exchange.messages,
      Op.insertion, Op.write, Multiset.filterMap_cons]

theorem Linked.sendRequestImpl {s : State} {rest : Multiset Op} {c : Nat} {call : Call}
    (h : Linked s (.sendRequestImpl c ::ₘ rest)) (hc : s.client.calls[c]? = some call)
    (hlt : s.client.calls.length < 2 ^ 32) :
    Linked { s with client := s.client.sendRequestImpl c call } (.sendData c ::ₘ rest) := by
  obtain ⟨hclient, he⟩ := h
  simp only [Multiset.filterMap_cons, Op.completion, Op.insertion, Op.write, Option.map_some,
    Option.map_none, Option.getD_some, Option.getD_none, zero_add, Multiset.singleton_add]
    at hclient he
  refine ⟨?_, he.client (fun _ _ => id) ?_ (fun _ => .inl) ?_⟩
  · simpa [Multiset.filterMap_cons, Op.completion, Op.insertion] using
      hclient.sendRequestImpl hc hlt
  · intro f c' hf
    simp only [Session.sendRequestImpl, List.map_append]
    rw [List.getElem?_append_left (List.getElem?_eq_some_iff.1 hf).1]
    exact hf
  · refine Eq.trans ?_ he.messages
    simp [Multiset.filterMap_cons, Op.insertion, Op.write]

theorem Linked.setResult {s : State} {rest : Multiset Op} {c : Completion Origin}
    (h : Linked s (.setResult c ::ₘ rest)) :
    Linked { s with client := (s.client.setResult c).1 } rest := by
  obtain ⟨hclient, he⟩ := h
  simp only [Multiset.filterMap_cons, Op.completion, Op.insertion, Op.write, Option.map_some,
    Option.map_none, Option.getD_some, Option.getD_none, zero_add, Multiset.singleton_add]
    at hclient he
  have hfut := Session.setResult_futures (g := Future.call) (fun _ _ _ => rfl) s.client c
  refine ⟨hclient.setResult, he.client ?_ (by rw [hfut]; exact fun _ _ => id) ?_ ?_⟩ <;>
    rw [Session.setResult_frame]
  · exact fun _ _ => id
  · exact fun _ => .inl
  · exact he.messages

theorem linked_exec {s s' : State} {op : Op} {rest : Multiset Op} {k : List Op}
    (h : Linked s (op ::ₘ rest)) (hlt : s.client.calls.length < 2 ^ 32) (hs : Steps s op s' k) :
    Linked s' (↑k + rest) := by
  cases hs with
  | sendRequest method params =>
    rw [Multiset.coe_singleton, Multiset.singleton_add]
    exact (linked_of_entry h rfl).sendRequest method params
  | sendRequestImpl hcall =>
    rw [Multiset.coe_singleton, Multiset.singleton_add]
    exact h.sendRequestImpl hcall hlt
  | sendData hcall =>
    obtain ⟨hc, he⟩ := h
    simp only [Multiset.filterMap_cons, Op.completion, Op.insertion, Op.write, Option.map_some,
      Option.map_none, Option.getD_some, Option.getD_none, zero_add, Multiset.singleton_add,
      Multiset.add_cons] at hc he
    rw [Multiset.coe_nil, zero_add]
    exact ⟨hc, he.sendData hcall⟩
  | onRequest hs hmsg =>
    obtain ⟨hc, he⟩ := linked_of_entry h rfl
    rw [Multiset.coe_nil, zero_add]
    exact ⟨hc, he.onRequest hs hmsg⟩
  | answer res err hreq =>
    obtain ⟨hc, he⟩ := linked_of_entry h rfl
    rw [Multiset.coe_nil, zero_add]
    exact ⟨hc, he.answer hreq res err⟩
  | @onResponse _ r _ msgid result error hs hmsg =>
    obtain ⟨hc, he⟩ := linked_of_entry h rfl
    have hhands := Session.hands_onResponse s.client (.response r) msgid result error
    obtain ⟨h1, h2, h3⟩ := filterMap_setResult
      (s.client.onResponse (.response r) msgid result error).2 rest
    refine ⟨?_, ?_⟩
    · rw [h1, h2]
      exact hc.hands hhands
    · rw [h2, h3]
      exact he.onResponse hc hlt hs hmsg
  | take hop hhands ho => exact (linked_of_entry h hop).hands hhands ho
  | setResult c =>
    rw [Multiset.coe_nil, zero_add]
    exact h.setResult

/-- Calls are only added. -/
theorem calls_mono {s s' : State} {op : Op} {k : List Op} (hs : Steps s op s' k) :
    s.client.calls.length ≤ s'.client.calls.length := by
  cases hs with
  | sendRequest method params => simp [Session.sendRequest, Session.nextMsgid]
  | sendRequestImpl | sendData | onRequest | answer => exact Nat.le_refl _
  | onResponse => rw [(Session.hands_onResponse s.client _ _ _ _).frame]
  | take _ hhands => rw [hhands.frame]
  | setResult c => rw [Session.setResult_frame]

/-- Every state of a run with fewer than 2^32 calls. -/
theorem linked_run {ls : List (Label Op (List Reqtable.Entry))} {c : Config State Op}
    (hrun : machine.run init ls = some c) (hlt : c.shared.client.calls.length < 2 ^ 32) :
    Linked c.shared c.pending := by
  refine machine.invariant
    (fun s ops => s.client.calls.length < 2 ^ 32 → Linked s ops)
    (fun s ops op h hop hs => linked_spawn (h hs) hop)
    ?_ (fun _ => ⟨client_init, exchange_init⟩)
    (System.meets_true init ls) hrun hlt
  intro s op rest it s' k h _ hx hs
  have hs' := Nat.lt_of_le_of_lt (calls_mono (exec_steps hx)) hs
  exact linked_exec (h hs') hs' (exec_steps hx)

/-- A future completed by a response stores the first answer to the request of its call. -/
theorem Linked.completed {s : State} {ops : Multiset Op} (h : Linked s ops) {d : Completion Origin}
    (hd : d ∈ s.client.completions) {r : Nat} (hr : d.origin = .response r) :
    ∃ fut call req, s.client.futures[d.future]? = some fut ∧
      s.client.calls[fut.call]? = some call ∧ s.requests[r]? = some req ∧
      req.sentBy = fut.call ∧ req.method = call.method ∧ req.params = call.params ∧
      req.answers.head? = some (fut.result, fut.error) := by
  obtain ⟨hc, he⟩ := h
  obtain ⟨-, req, hreq, hans, hcall⟩ := he.handed d (hc.mem_handed hd) r hr
  have hstored := hc.stored d hd
  rw [List.getElem?_map] at hcall hstored
  obtain ⟨fut, hfut, hfc⟩ := Option.map_eq_some_iff.1 hcall
  rw [hfut] at hstored
  obtain ⟨-, hres, herr⟩ : fut.session = false ∧ fut.result = d.result ∧ fut.error = d.error := by
    simpa [Future.outcome] using hstored
  obtain ⟨call, hcall', -, hm, hp⟩ := he.requests req (List.mem_of_getElem? hreq)
  exact ⟨fut, call, req, hfut, by rw [hfc]; exact hcall', hreq, hfc.symm, hm, hp,
    by rw [hres, herr]; exact hans⟩

/-- A call is written after its future has been inserted, so a request of the server has a future,
under the id of the request. -/
theorem Linked.future_of_request {s : State} {ops : Multiset Op} (h : Linked s ops)
    {req : RequestImpl} (hreq : req ∈ s.requests) :
    ∃ (f : FutureId) (fut : Future), s.client.futures[f]? = some fut ∧ fut.call = req.sentBy ∧
      fut.msgid = req.msgid := by
  obtain ⟨hc, he⟩ := h
  have hins : ops.filterMap Op.write + (↑(s.toServer.map Prod.snd) +
      ↑(s.requests.map RequestImpl.sentBy)) = ↑(s.client.futures.map Future.call) := by
    have hm := he.messages
    rw [← hc.numbered.inserted, add_assoc, add_assoc] at hm
    exact add_left_cancel hm
  have hmem : req.sentBy ∈ s.client.futures.map Future.call := by
    rw [← Multiset.mem_coe, ← hins, Multiset.mem_add, Multiset.mem_add]
    exact .inr (.inr (Multiset.mem_coe.2 (List.mem_map_of_mem hreq)))
  obtain ⟨f, hf⟩ := List.mem_iff_getElem?.1 hmem
  rw [List.getElem?_map] at hf
  obtain ⟨fut, hfut, hcall⟩ := Option.map_eq_some_iff.1 hf
  obtain ⟨call, hcall', hid, -⟩ := he.requests req hreq
  refine ⟨f, fut, hfut, hcall, ?_⟩
  rw [hid, hc.numbered.futures fut (List.mem_of_getElem? hfut), hc.numbered.calls _ _ hcall', hcall]

/-- While a response is on its way, its future is in the table unless a tick or a failure has taken
it: another response would have to be to the same call. -/
theorem Linked.take_future {s : State} {ops : Multiset Op} (h : Linked s ops) {msg : Object} {r : Nat}
    (hm : (msg, r) ∈ s.toClient) {req : RequestImpl} (hreq : s.requests[r]? = some req)
    {f : FutureId} {fut : Future} (hf : s.client.futures[f]? = some fut)
    (hcall : fut.call = req.sentBy)
    (hnot : ∀ d ∈ s.client.handed, d.future = f → d.origin ≠ .stepTimer ∧ d.origin ≠ .failure) :
    (s.client.reqtable.take fut.msgid).1 = some f := by
  obtain ⟨hc, he⟩ := h
  rcases hc.lookup_or_handed hf with hl | ⟨d, hd, hdf⟩
  · rw [Reqtable.take, hl]
  · obtain ⟨h1, h2⟩ := hnot d hd hdf
    cases ho : d.origin with
    | stepTimer => exact absurd ho h1
    | failure => exact absurd ho h2
    | response r' =>
      obtain ⟨hdel, req', hreq', -, hcall'⟩ := he.handed d hd r' ho
      rw [hdf, List.getElem?_map, hf] at hcall'
      have hsame : req.sentBy = req'.sentBy := by
        rw [← hcall]
        exact Option.some.inj hcall'
      obtain rfl := he.request_unique hreq hreq' hsame
      exact absurd hdel (he.notMem_delivered hm)

/-- **End-to-end correlation.** In every state of every run with fewer than 2^32 calls of
`send_request`: a future that `on_response` has completed stores the result and the error of the
first answer to the one request that the server built from the message of the future's own call, and
that request has the method and the parameters of the call; and for every response that is on its
way, `reqtable::take` finds the future of the call that it answers unless a tick or a failure has
taken it. -/
theorem answers_correlated {ls : List (Label Op (List Reqtable.Entry))} {c : Config State Op}
    (hrun : machine.run init ls = some c) (hlt : c.shared.client.calls.length < 2 ^ 32) :
    (∀ d ∈ c.shared.client.completions, ∀ r, d.origin = .response r →
      ∃ fut call req, c.shared.client.futures[d.future]? = some fut ∧
        c.shared.client.calls[fut.call]? = some call ∧ c.shared.requests[r]? = some req ∧
        req.sentBy = fut.call ∧ req.method = call.method ∧ req.params = call.params ∧
        req.answers.head? = some (fut.result, fut.error)) ∧
      ∀ msg r, (msg, r) ∈ c.shared.toClient →
        ∃ req f fut result error, c.shared.requests[r]? = some req ∧
          c.shared.client.futures[f]? = some fut ∧ fut.call = req.sentBy ∧
          onMessage msg = .ok (.response fut.msgid result error) ∧
          ((∀ d ∈ c.shared.client.handed, d.future = f →
              d.origin ≠ .stepTimer ∧ d.origin ≠ .failure) →
            (c.shared.client.reqtable.take fut.msgid).1 = some f) := by
  have h := linked_run hrun hlt
  refine ⟨?_, ?_⟩
  · intro d hd r hr
    exact h.completed hd hr
  · intro msg r hmsg
    obtain ⟨req, a, hreq, -, hpack⟩ := h.exchange.toClient (msg, r) hmsg
    obtain ⟨f, fut, hfut, hcall, hid⟩ := h.future_of_request (List.mem_of_getElem? hreq)
    refine ⟨req, f, fut, a.1, a.2, hreq, hfut, hcall, ?_, ?_⟩
    · rw [show msg = (Message.response req.msgid a.1 a.2).pack from hpack, hid]
      exact onMessage_pack _
    · intro hnot
      exact h.take_future hmsg hreq hfut hcall hnot

/-- Two requests are sent and received. The second one received is answered twice and then the
first one; the first of the two responses is delivered. -/
def answeredOutOfOrder : List (Label Op (List Reqtable.Entry)) :=
  [.spawn (.sendRequest (.str [0x66]) .nil), .spawn (.sendRequest (.str [0x67]) (.integer 8)),
    .exec 0 [], .exec 1 [], .exec 1 [], .exec 0 [], .exec 1 [], .exec 0 [],
    .spawn .onRequest, .exec 2 [], .spawn .onRequest, .exec 3 [],
    .spawn (.answer 1 (.integer 20) .nil), .exec 4 [],
    .spawn (.answer 1 (.integer 21) .nil), .exec 5 [],
    .spawn (.answer 0 .nil (.integer 10)), .exec 6 [], .spawn .onResponse, .exec 7 [], .exec 7 []]

/-- The state after that. -/
def outOfOrder : Config State Op := (machine.run init answeredOutOfOrder).getD init

theorem answers_correlated_outOfOrder :
    machine.run init answeredOutOfOrder = some outOfOrder ∧
      outOfOrder.shared.toClient.map Prod.snd = [0] ∧
      ∃ d ∈ outOfOrder.shared.client.completions, d.origin = .response 1 ∧
        d.result = .integer 20 ∧ ∃ fut req, outOfOrder.shared.client.futures[d.future]? = some fut ∧
          outOfOrder.shared.requests[1]? = some req ∧ req.sentBy = fut.call ∧
          req.answers.head? = some (fut.result, fut.error) := by
  have h := answers_correlated (rfl : machine.run init answeredOutOfOrder = some outOfOrder)
    (by decide)
  have hd : ⟨1, .response 1, some 2, .integer 20, .nil⟩ ∈ outOfOrder.shared.client.completions :=
    .head _
  obtain ⟨fut, _, req, hfut, -, hreq, hsent, -, -, hans⟩ := h.1 _ hd 1 rfl
  exact ⟨rfl, rfl, _, hd, rfl, rfl, fut, req, hfut, hreq, hsent, hans⟩

end Link

end MsgpackRpc
