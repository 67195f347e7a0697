import MsgpackRpc.Lib.Calls
import MsgpackRpc.Lib.Simulation
import MsgpackRpc.Link.Delivery

/-!
# The link is a remote procedure call

What a session and a server connection do together, seen from the users at both ends: calls are made,
the dispatcher replies once to each at most, and a call returns at most once, with the reply or with
a failure. `link_refines` says that every run of the link is a run of such a service (`Refines` is
the relation between the two), so what is true of the service is true of the futures. It holds because no
wait for a future runs out in `Link.Machine`: a call that such a wait has failed may return again.
-/

namespace MsgpackRpc

open Threads Calls Relation

namespace Link

/-- A call by method and parameters, a reply by result and error, and a failure by the error that
the future is given. -/
abbrev Remote := Service Nat (Object × Object) (Object × Object) Object

/-- How a completion lets a call return. -/
def outcome (d : Completion Origin) : Except Object (Object × Object) :=
  match d.origin with
  | .response _ => .ok (d.result, d.error)
  | .stepTimer | .failure => .error d.error

/-- The service that a link amounts to: the calls of the session, the first answers of the server to
the requests that it built from them, and the completions of their futures. -/
structure Refines (s : State) (t : Remote) : Prop where
  asked : ∀ c, t.asked c = s.client.calls[c]?.map fun call => (call.method, call.params)
  replies : ∀ c a, a ∈ t.replies c ↔
    ∃ (r : Nat) (req : RequestImpl), s.requests[r]? = some req ∧ req.sentBy = c ∧
      req.answers.head? = some a
  outcome : ∀ c o, t.outcome c = some o ↔
    ∃ d ∈ s.client.completions, (s.client.futures.map Future.call)[d.future]? = some c ∧
      outcome d = o

theorem refines_init : Refines {} .init :=
  ⟨fun _ => rfl, fun c a => by simp [Service.init], fun c o => by simp [Service.init]⟩

/-- A request that has been sent has been answered. -/
def Replied (s : State) : Prop := ∀ req ∈ s.requests, req.ms = false → req.answers ≠ []

/-! ## Futures of a session -/

section
variable {ι : Type} {s : Session ι} {pending : Multiset (Completion ι)} {inserts : Multiset Nat}

/-- A call has one future. -/
theorem Client.future_unique (h : Client s pending inserts) {f g : FutureId} {c : Nat}
    (hf : (s.futures.map Future.call)[f]? = some c)
    (hg : (s.futures.map Future.call)[g]? = some c) : f = g := by
  have hnodup : (s.futures.map Future.call).Nodup := by
    have hle := Multiset.le_add_left (↑(s.futures.map Future.call) : Multiset Nat) inserts
    rw [h.numbered.inserted] at hle
    exact Multiset.coe_nodup.1 (Multiset.nodup_of_le hle (Multiset.nodup_range _))
  exact (List.getElem?_inj (List.getElem?_eq_some_iff.1 hf).1 hnodup).1 (hf.trans hg.symm)

/-- A completion that is to be made has been handed out. -/
theorem Client.handed_of_pending (h : Client s pending inserts) {d : Completion ι}
    (hd : d ∈ pending) : d ∈ s.handed := by
  rw [← Multiset.mem_coe, h.conserved.handed, Multiset.filter_eq_self.2 h.extracted,
    Multiset.mem_add]
  exact .inr hd

/-- It is of a future that no completion has been made of. -/
theorem Client.future_ne {d : Completion ι} (h : Client s (d ::ₘ pending) inserts)
    {d' : Completion ι} (hd' : d' ∈ s.completions) : d'.future ≠ d.future := by
  intro he
  have hnodup := h.nodup
  rw [Multiset.add_cons, Multiset.map_cons, Multiset.nodup_cons] at hnodup
  refine hnodup.1 (he ▸ Multiset.mem_map_of_mem _ (Multiset.mem_add.2 (.inl ?_)))
  exact Multiset.mem_coe.2 hd'

/-- How the calls of a session have returned: as the completions of their futures say. -/
def Returns {ω : Type} (outcome : Completion ι → ω) (s : Session ι) (returned : Nat → Option ω) :
    Prop :=
  ∀ c o, returned c = some o ↔ ∃ d ∈ s.completions,
    (s.futures.map Future.call)[d.future]? = some c ∧ outcome d = o

section
variable {ω : Type} {outcome : Completion ι → ω} {returned : Nat → Option ω}

/-- Nothing is seen of a step that completes no future. -/
theorem Returns.congr (h : Returns outcome s returned) {s' : Session ι}
    (hcs : s'.completions = s.completions)
    (hf : ∀ d ∈ s.completions,
      (s'.futures.map Future.call)[d.future]? = (s.futures.map Future.call)[d.future]?) :
    Returns outcome s' returned := by
  intro c o
  rw [h c o, hcs]
  refine exists_congr fun d => and_congr_right fun hd => ?_
  rw [hf d hd]

/-- A completion that is to be made is of a future whose call has not returned. -/
theorem Returns.not_yet (h : Returns outcome s returned) {d : Completion ι}
    (hclient : Client s (d ::ₘ pending) inserts) :
    ∃ c call, (s.futures.map Future.call)[d.future]? = some c ∧ s.calls[c]? = some call ∧
      returned c = none := by
  have hhanded := hclient.handed_of_pending (Multiset.mem_cons_self d _)
  obtain ⟨c, hc⟩ : ∃ c, (s.futures.map Future.call)[d.future]? = some c := by
    refine ⟨_, List.getElem?_eq_getElem ?_⟩
    rw [List.length_map]
    exact hclient.conserved.handed_lt_length hhanded
  have hlt : c < s.calls.length := by
    rw [← Multiset.mem_range, ← hclient.numbered.inserted]
    exact Multiset.mem_add.2 (.inr (Multiset.mem_coe.2 (List.mem_of_getElem? hc)))
  refine ⟨c, _, hc, List.getElem?_eq_getElem hlt, ?_⟩
  rw [Option.eq_none_iff_forall_ne_some]
  intro o ho
  obtain ⟨d', hd', hc', -⟩ := (h c o).1 ho
  exact hclient.future_ne hd' (hclient.future_unique hc' hc)

/-- When the completion is made, the call has returned. -/
theorem Returns.setResult (h : Returns outcome s returned) {d : Completion ι} {c : Nat}
    (hc : (s.futures.map Future.call)[d.future]? = some c) (hnone : returned c = none) :
    Returns outcome (s.setResult d).1 (Function.update returned c (some (outcome d))) := by
  intro c' o
  rw [Session.setResult_futures (fun _ _ _ => rfl) s d, Session.setResult_frame]
  simp only [List.mem_append, List.mem_singleton]
  constructor
  · intro ho
    rcases update_cases ho with ⟨rfl, rfl⟩ | ho
    · exact ⟨d, .inr rfl, hc, rfl⟩
    · obtain ⟨d', hd', hrest⟩ := (h c' o).1 ho
      exact ⟨d', .inl hd', hrest⟩
  · rintro ⟨d', hd' | rfl, hc', ho⟩
    · exact update_of_none hnone _ ((h c' o).2 ⟨d', hd', hc', ho⟩)
    · rw [hc] at hc'
      cases hc'
      rw [← ho]
      exact Function.update_self ..

end

end

/-! ## Calls and answers as questions and replies -/

/-- The calls of a session are the questions that are asked. -/
def Asks {ι : Type} (s : Session ι) (asked : Nat → Option (Object × Object)) : Prop :=
  ∀ c, asked c = s.calls[c]?.map fun call => (call.method, call.params)

theorem Asks.sendRequest {ι : Type} {s : Session ι} {asked : Nat → Option (Object × Object)}
    (h : Asks s asked) (method params : Object) : asked s.calls.length = none ∧
      Asks (s.sendRequest method params)
        (Function.update asked s.calls.length (some (method, params))) := by
  refine ⟨by rw [h]; simp, fun c => ?_⟩
  simp only [Session.sendRequest, Session.nextMsgid, List.getElem?_append]
  rcases lt_trichotomy c s.calls.length with hlt | rfl | hgt
  · rw [Function.update_of_ne (Nat.ne_of_lt hlt), if_pos hlt]
    exact h c
  · simp
  · rw [Function.update_of_ne (Nat.ne_of_gt hgt), if_neg (by omega), h,
      List.getElem?_eq_none (by omega), List.getElem?_eq_none (by simp; omega)]

/-- The first answers to requests are the replies that are given. -/
def Replies (requests : List RequestImpl) (replies : Nat → Set (Object × Object)) : Prop :=
  ∀ c a, a ∈ replies c ↔ ∃ (r : Nat) (req : RequestImpl), requests[r]? = some req ∧
    req.sentBy = c ∧ req.answers.head? = some a

section
variable {requests : List RequestImpl} {replies : Nat → Set (Object × Object)}

/-- A request that has just been built has no answer. -/
theorem Replies.append (h : Replies requests replies) {req' : RequestImpl}
    (hreq' : req'.answers = []) : Replies (requests ++ [req']) replies := by
  intro c a
  rw [h]
  refine exists_congr fun r => exists_congr fun req => ?_
  constructor
  · rintro ⟨hreq, hrest⟩
    refine ⟨?_, hrest⟩
    rw [List.getElem?_append_left (List.getElem?_eq_some_iff.1 hreq).1]
    exact hreq
  · rintro ⟨hreq, hc, ha⟩
    rw [List.getElem?_append] at hreq
    split at hreq
    · exact ⟨hreq, hc, ha⟩
    · rw [List.getElem?_singleton] at hreq
      split at hreq
      · cases hreq
        rw [hreq'] at ha
        cases ha
      · cases hreq

/-- A request that has been answered is answered again: the first answer stays what it is. -/
theorem Replies.again (h : Replies requests replies) {r : Nat} {req : RequestImpl}
    (hreq : requests[r]? = some req) (hans : req.answers ≠ []) (res err : Object) :
    Replies (requests.set r (req.call res err).1) replies := by
  have hlt := (List.getElem?_eq_some_iff.1 hreq).1
  have hlater := req.later_call res err
  obtain ⟨b, hb⟩ : ∃ b, req.answers.head? = some b := by
    cases ha : req.answers with
    | nil => exact absurd ha hans
    | cons b bs => exact ⟨b, rfl⟩
  intro c a
  rw [h]
  refine exists_congr fun r' => ?_
  rcases eq_or_ne r r' with rfl | hne
  · simp [hreq, List.getElem?_set_self hlt, hlater.sentBy, hlater.first b hb, hb]
  · simp [List.getElem?_set_ne hne]

/-- The one request of a call is answered for the first time: the answer is a reply. -/
theorem Replies.first (h : Replies requests replies) {r : Nat} {req : RequestImpl}
    (hreq : requests[r]? = some req) (hnil : req.answers = [])
    (hone : ∀ (r' : Nat) req', requests[r']? = some req' → req'.sentBy = req.sentBy → r = r')
    (res err : Object) : replies req.sentBy = ∅ ∧
      Replies (requests.set r (req.call res err).1)
        (Function.update replies req.sentBy (insert (res, err) (replies req.sentBy))) := by
  have hlt := (List.getElem?_eq_some_iff.1 hreq).1
  have hlater := req.later_call res err
  have hfirst : (req.call res err).1.answers.head? = some (res, err) := by
    unfold RequestImpl.call
    split <;> simp [hnil]
  refine ⟨Set.eq_empty_of_forall_notMem fun a ha => ?_, fun c a => ?_⟩
  · obtain ⟨r', q, hq, hsent, ha⟩ := (h _ _).1 ha
    obtain rfl := hone r' q hq hsent
    rw [hreq] at hq
    cases hq
    rw [hnil] at ha
    cases ha
  · rw [mem_update_replies, h]
    constructor
    · rintro (⟨rfl, rfl⟩ | ⟨r', q, hq, hrest⟩)
      · exact ⟨r, _, List.getElem?_set_self hlt, hlater.sentBy, hfirst⟩
      · refine ⟨r', q, ?_, hrest⟩
        rw [List.getElem?_set_ne]
        · exact hq
        · rintro rfl
          rw [hreq] at hq
          cases hq
          rw [hnil] at hrest
          cases hrest.2
    · rintro ⟨r', q, hq, hsent, ha⟩
      rcases eq_or_ne r r' with rfl | hne
      · rw [List.getElem?_set_self hlt] at hq
        cases hq
        rw [hfirst] at ha
        exact .inl ⟨by rw [← hsent, hlater.sentBy], (Option.some.inj ha).symm⟩
      · rw [List.getElem?_set_ne hne] at hq
        exact .inr ⟨r', q, hq, hsent, ha⟩

end

/-! ## Steps -/

/-- A step of the client that makes no call and no completion. -/
theorem Refines.client {s : State} {t : Remote} (h : Refines s t) {client : Session Origin}
    (hcalls : client.calls = s.client.calls) (hcs : client.completions = s.client.completions)
    (hf : ∀ d ∈ s.client.completions,
      (client.futures.map Future.call)[d.future]? = (s.client.futures.map Future.call)[d.future]?) :
    Refines { s with client } t := by
  have hreturns : Returns Link.outcome s.client t.outcome := h.outcome
  exact ⟨by rw [hcalls]; exact h.asked, h.replies, hreturns.congr hcs hf⟩

/-- A call is made. -/
theorem Refines.sendRequest {s : State} {t : Remote} (h : Refines s t) (method params : Object) :
    ∃ t', ReflTransGen (Step oneReply) t t' ∧
      Refines { s with client := s.client.sendRequest method params } t' := by
  have hasks : Asks s.client t.asked := h.asked
  obtain ⟨hnone, hasks⟩ := hasks.sendRequest method params
  exact ⟨_, .single (.ask s.client.calls.length (method, params) hnone), hasks, h.replies, h.outcome⟩

/-- A request is built. -/
theorem Refines.onRequest {s : State} {t : Remote} (h : Refines s t)
    {toServer : List (Object × Nat)} {req' : RequestImpl} (hreq' : req'.answers = []) :
    Refines { s with toServer, requests := s.requests ++ [req'] } t := by
  have hreplies : Replies s.requests t.replies := h.replies
  exact ⟨h.asked, hreplies.append hreq', h.outcome⟩

/-- A request is answered: the first answer is a reply, and no other is. -/
theorem Refines.answer {s : State} {t : Remote} {ops : Multiset Op} (h : Refines s t)
    (hl : Linked s ops) (hr : Replied s) {r : Nat} {req : RequestImpl}
    (hreq : s.requests[r]? = some req) (res err : Object) (toClient : List (Object × Nat)) :
    ∃ t', ReflTransGen (Step oneReply) t t' ∧
      Refines { s with requests := s.requests.set r (req.call res err).1, toClient } t' := by
  have hreplies : Replies s.requests t.replies := h.replies
  have hmem := List.mem_of_getElem? hreq
  cases hms : req.ms with
  | false => exact ⟨t, .refl, h.asked, hreplies.again hreq (hr req hmem hms) res err, h.outcome⟩
  | true =>
    have hasked : (t.asked req.sentBy).isSome := by
      obtain ⟨call, hcall, -⟩ := hl.exchange.requests req hmem
      rw [h.asked, hcall]
      rfl
    obtain ⟨hempty, hfirst⟩ := hreplies.first hreq (hl.exchange.unsent req hmem hms)
      (fun r' q hq hsent => hl.exchange.request_unique hreq hq hsent.symm) res err
    exact ⟨_, .single (.reply req.sentBy (res, err) hasked hempty), h.asked, hfirst, h.outcome⟩

/-- A call returns. -/
theorem Refines.setResult {s : State} {t : Remote} {rest : Multiset Op} {d : Completion Origin}
    (h : Refines s t) (hl : Linked s (.setResult d ::ₘ rest)) :
    ∃ t', ReflTransGen (Step oneReply) t t' ∧
      Refines { s with client := (s.client.setResult d).1 } t' := by
  have hclient : Client s.client (d ::ₘ rest.filterMap Op.completion)
      (rest.filterMap Op.insertion) := by
    simpa [Multiset.filterMap_cons, Op.completion, Op.insertion] using hl.client
  have hhanded := hclient.handed_of_pending (Multiset.mem_cons_self d _)
  have hreturns : Returns Link.outcome s.client t.outcome := h.outcome
  obtain ⟨c, call, hc, hcall, hnone⟩ := hreturns.not_yet hclient
  have hstep : Step oneReply t
      { t with outcome := Function.update t.outcome c (some (Link.outcome d)) } := by
    have hasked : (t.asked c).isSome := by
      rw [h.asked, hcall]
      rfl
    unfold Link.outcome
    cases ho : d.origin with
    | response r =>
      obtain ⟨-, req, hreq, ha, hsent⟩ := hl.exchange.handed d hhanded r ho
      rw [hc] at hsent
      refine .answer c _ ((h.replies _ _).2 ⟨r, req, hreq, ?_, ha⟩) hnone
      exact (Option.some.inj hsent).symm
    | stepTimer => exact .fail c _ hasked hnone
    | failure => exact .fail c _ hasked hnone
  refine ⟨_, .single hstep, ?_, h.replies, hreturns.setResult hc hnone⟩
  rw [Session.setResult_frame]
  exact h.asked

theorem replied_exec {s s' : State} {op : Op} {k : List Op} (h : Replied s)
    (hs : Steps s op s' k) : Replied s' := by
  cases hs with
  | sendRequest | sendRequestImpl | sendData | onResponse | take | setResult => exact h
  | onRequest _ _ =>
    intro req hreq hms
    rcases List.mem_append.1 hreq with hreq | hreq
    · exact h req hreq hms
    · rw [List.mem_singleton.1 hreq] at hms
      cases hms
  | @answer r req res err hr =>
    intro q hq hms
    rcases List.mem_or_eq_of_mem_set hq with hq | rfl
    · exact h q hq hms
    · unfold RequestImpl.call
      split <;> simp

/-- Each step is some transitions of the service. -/
theorem refines_exec {s s' : State} {op : Op} {rest : Multiset Op} {k : List Op} {t : Remote}
    (hl : Linked s (op ::ₘ rest)) (hr : Replied s) (h : Refines s t) (hs : Steps s op s' k) :
    ∃ t', ReflTransGen (Step oneReply) t t' ∧ Refines s' t' := by
  cases hs with
  | sendRequest method params => exact h.sendRequest method params
  | @sendRequestImpl c call hcall =>
    refine ⟨t, .refl, h.client rfl rfl fun d hd => ?_⟩
    have hlt := (List.getElem?_eq_some_iff.1 (hl.client.stored d hd)).1
    rw [List.length_map] at hlt
    simp only [Session.sendRequestImpl, List.map_append]
    exact List.getElem?_append_left (by rw [List.length_map]; exact hlt)
  | sendData _ => exact ⟨t, .refl, h.asked, h.replies, h.outcome⟩
  | onRequest _ _ => exact ⟨t, .refl, h.onRequest rfl⟩
  | answer res err hreq => exact h.answer hl hr hreq res err _
  | @onResponse _ r _ msgid result error _ _ =>
    have hhands := Session.hands_onResponse s.client (.response r) msgid result error
    obtain ⟨hasked, hreplies, houtcome⟩ :
        Refines { s with client := (s.client.onResponse (.response r) msgid result error).1 } t :=
      h.client (by rw [hhands.frame]) (by rw [hhands.frame])
        fun d _ => by rw [Future.map_eq_of_untimed (fun _ => rfl) hhands.futures]
    exact ⟨t, .refl, hasked, hreplies, houtcome⟩
  | take _ hhands _ =>
    refine ⟨t, .refl, h.client (by rw [hhands.frame]) (by rw [hhands.frame]) fun d _ => ?_⟩
    rw [Future.map_eq_of_untimed (fun _ => rfl) hhands.futures]
  | setResult d => exact h.setResult hl

/-- What ties a link with fewer than 2^32 calls to a service. -/
structure Simulated (s : State) (ops : Multiset Op) (t : Remote) : Prop where
  linked : Linked s ops
  replied : Replied s
  refines : Refines s t

theorem simulated_init : Simulated {} 0 .init :=
  ⟨⟨client_init, exchange_init⟩, nofun, refines_init⟩

/-- Every run of the pool of the link is one of the service. -/
theorem simulated_of_pool {s s' : State} {ops ops' : Multiset Op} {t : Remote}
    (hrun : ReflTransGen machine.Pool (s, ops) (s', ops')) (h : Simulated s ops t)
    (hlt : s'.client.calls.length < 2 ^ 32) :
    ∃ t', ReflTransGen (Step oneReply) t t' ∧ Simulated s' ops' t' := by
  have hsim := System.Pool.simulation (T := Step oneReply)
    (fun s ops t => s.client.calls.length < 2 ^ 32 → Simulated s ops t)
    (fun s ops op t h hop =>
      ⟨t, .refl, fun hs => ⟨linked_spawn (h hs).linked hop, (h hs).replied, (h hs).refines⟩⟩)
    ?_ hrun fun _ => h
  · obtain ⟨t', hreach, hsim⟩ := hsim
    exact ⟨t', hreach, hsim hlt⟩
  · intro s op rest it s' k t h hx
    have hx := exec_steps hx
    by_cases hs' : s'.client.calls.length < 2 ^ 32
    · have hs := Nat.lt_of_le_of_lt (calls_mono hx) hs'
      obtain ⟨hl, hr, href⟩ := h hs
      obtain ⟨t', hreach, href'⟩ := refines_exec hl hr href hx
      exact ⟨t', hreach, fun _ => ⟨linked_exec hl hs hx, replied_exec hr hx, href'⟩⟩
    · exact ⟨t, .refl, fun hs => absurd hs hs'⟩

/-- Calls are only added. -/
theorem calls_le_of_pool {s s' : State} {ops ops' : Multiset Op}
    (hrun : ReflTransGen machine.Pool (s, ops) (s', ops')) :
    s.client.calls.length ≤ s'.client.calls.length :=
  System.Pool.invariant (fun s₁ _ => s.client.calls.length ≤ s₁.client.calls.length)
    (fun _ _ _ h _ => h) (fun _ _ _ _ _ _ h hx => h.trans (calls_mono (exec_steps hx))) hrun
    (Nat.le_refl _)

/-- A run, and one that goes on from its end. -/
theorem simulated_of_runs {ls ls' : List (Label Op (List Reqtable.Entry))} {c c' : Config State Op}
    (hrun : machine.run init ls = some c) (hrun' : machine.run c ls' = some c')
    (hlt : c'.shared.client.calls.length < 2 ^ 32) :
    ∃ t t', ReflTransGen (Step oneReply) .init t ∧ Refines c.shared t ∧
      ReflTransGen (Step oneReply) t t' ∧ Refines c'.shared t' := by
  have hpool := System.pool_of_run hrun
  have hpool' := System.pool_of_run hrun'
  obtain ⟨t, hreach, hsim⟩ := simulated_of_pool hpool simulated_init
    (Nat.lt_of_le_of_lt (calls_le_of_pool hpool') hlt)
  obtain ⟨t', hreach', hsim'⟩ := simulated_of_pool hpool' hsim hlt
  exact ⟨t, t', hreach, hsim.refines, hreach', hsim'.refines⟩

/-- **The link is a remote procedure call.** Every run with fewer than 2^32 calls, and every run
that goes on from there within the bound, is a run of a service whose other side replies once to each
call at most: its calls are those of `send_request`, its replies the first answers of the dispatcher,
and a call has returned when its future has been completed. -/
theorem link_refines {ls ls' : List (Label Op (List Reqtable.Entry))} {c c' : Config State Op}
    (hrun : machine.run init ls = some c) (hrun' : machine.run c ls' = some c')
    (hlt : c'.shared.client.calls.length < 2 ^ 32) :
    ∃ t t', ReflTransGen (Step oneReply) .init t ∧ Refines c.shared t ∧
      ReflTransGen (Step oneReply) t t' ∧ Refines c'.shared t' :=
  simulated_of_runs hrun hrun' hlt

/-- The request of `answeredAndDelivered` is answered again. -/
def answeredAgain : List (Label Op (List Reqtable.Entry)) :=
  [.spawn (.answer 0 (.integer 8) .nil), .exec 4 [], .spawn .stepTimerHandler, .exec 5 []]

/-- The state after that. -/
def atRestAgain : Config State Op := (machine.run atRest answeredAgain).getD atRest

theorem link_refines_atRest :
    ∃ t t' : Remote, ReflTransGen (Step oneReply) .init t ∧
      t.outcome 0 = some (.ok (.integer 7, .nil)) ∧ ReflTransGen (Step oneReply) t t' := by
  obtain ⟨t, t', hreach, href, hreach', -⟩ := link_refines
    (rfl : machine.run init answeredAndDelivered = some atRest)
    (rfl : machine.run atRest answeredAgain = some atRestAgain) (by decide)
  exact ⟨t, t', hreach, (href.outcome 0 _).2 ⟨_, .head _, rfl, rfl⟩, hreach'⟩

/-- **A call that has returned has returned for good.** However the run goes on, the call keeps its
outcome. If it returned with a reply, then every first answer that the server gives to a request of
the call is that reply. -/
theorem returned_for_good {ls ls' : List (Label Op (List Reqtable.Entry))}
    {c c' : Config State Op} (hrun : machine.run init ls = some c)
    (hrun' : machine.run c ls' = some c') (hlt : c'.shared.client.calls.length < 2 ^ 32)
    {d : Completion Origin} (hd : d ∈ c.shared.client.completions) {i : Nat}
    (hi : (c.shared.client.futures.map Future.call)[d.future]? = some i) :
    (∀ d' ∈ c'.shared.client.completions,
      (c'.shared.client.futures.map Future.call)[d'.future]? = some i → outcome d' = outcome d) ∧
      ∀ a, outcome d = .ok a → ∀ (r : Nat) req, c'.shared.requests[r]? = some req →
        req.sentBy = i → ∀ b, req.answers.head? = some b → b = a := by
  obtain ⟨t, t', hreach, href, hreach', href'⟩ := simulated_of_runs hrun hrun' hlt
  have hlater := later_of_reach hreach'
  have hout := (href.outcome i (outcome d)).2 ⟨d, hd, hi, rfl⟩
  refine ⟨?_, ?_⟩
  · intro d' hd' hi'
    have hout' := (href'.outcome i (outcome d')).2 ⟨d', hd', hi', rfl⟩
    rw [hlater.outcome i _ hout] at hout'
    exact (Option.some.inj hout').symm
  · intro a ha r req hreq hsent b hb
    have hmem := hlater.replies i ((sound_of_reach hreach).answered i a (ha ▸ hout))
    exact subsingleton_of_reach (hreach.trans hreach') i
      ((href'.replies i b).2 ⟨r, req, hreq, hsent, hb⟩) hmem

theorem returned_for_good_atRest :
    ∃ req, atRestAgain.shared.requests[0]? = some req ∧ req.answers.length = 2 ∧
      ∀ b, req.answers.head? = some b → b = (.integer 7, .nil) := by
  have h := (returned_for_good (rfl : machine.run init answeredAndDelivered = some atRest)
    (rfl : machine.run atRest answeredAgain = some atRestAgain) (by decide)
    (d := ⟨0, .response 0, some 1, .integer 7, .nil⟩) (.head _) (i := 0) rfl).2
  exact ⟨_, rfl, rfl, h _ rfl 0 _ rfl rfl⟩

end Link

end MsgpackRpc
