import MsgpackRpc.Link.Service
import MsgpackRpc.Udp.Correlation

/-!
# Remote procedure calls over UDP

The clients and the server are a remote procedure call service too, one in which the other side may
reply to a call more than once: for each copy of the request that arrives (`network_refines`). A call
still returns once, with one of the replies to it, and for good, as long as no wait for its future runs
out.
-/

namespace MsgpackRpc

open Threads Unpack Calls Relation
open RequestImpl (Answered answered_append answered_set)

namespace Udp

namespace Network

/-- The calls by endpoint and number. -/
abbrev Remote := Service (Endpoint × Nat) (Object × Object) (Object × Object) Object

/-- How a completion lets a call return. -/
def outcome (c : Completion Session.Source) : Except Object (Object × Object) :=
  match c.origin with
  | .response => .ok (c.result, c.error)
  | .stepTimer | .connectFailed | .systemError | .timedWait => .error c.error

/-- The service that the network amounts to: the calls of the sessions, the first answers of the server
to the requests that stem from them, and the completions of their futures. -/
structure Offers (s : State) (t : Remote) : Prop where
  asked : ∀ ep c, t.asked (ep, c) =
    (s.client ep).session.calls[c]?.map fun call => (call.method, call.params)
  replies : ∀ ep c a, a ∈ t.replies (ep, c) ↔ ∃ call,
    (s.client ep).session.calls[c]? = some call ∧ Answered s.requests ep call.msgid a
  outcome : ∀ ep, Link.Returns outcome (s.client ep).session fun c => t.outcome (ep, c)

theorem offers_init : Offers {} .init :=
  ⟨fun _ _ => rfl, fun _ _ _ => by simp [Service.init],
    fun _ _ _ => by simp [Service.init]⟩

/-! ## Steps -/

section
variable {s : State} {t : Remote}

theorem Offers.quiet (h : Offers s t) {s' : State} (hq : Quiet s s')
    (hstored : ∀ ep, ∀ e ∈ (s.client ep).session.completions,
      e.future < ((s.client ep).session.futures.map Future.call).length) : Offers s' t := by
  obtain ⟨new, hreq, hnew⟩ := hq.requests
  refine ⟨fun ep c => by rw [hq.calls]; exact h.asked ep c, ?_, ?_⟩
  · intro ep c a
    rw [h.replies, hq.calls, hreq]
    refine exists_congr fun call => and_congr_right fun _ => (answered_append hnew).symm
  · intro ep
    refine (h.outcome ep).congr (hq.completions ep) fun e he => ?_
    obtain ⟨l, hl⟩ := hq.futures ep
    rw [← hl, List.getElem?_append_left (hstored ep e he)]

/-- The calls of an endpoint in the service. -/
theorem update_at {γ : Type} (f : Endpoint × Nat → γ) (ep ep' : Endpoint) (c : Nat) (v : γ) :
    (fun c' => Function.update f (ep, c) v (ep', c')) =
      if ep' = ep then Function.update (fun c' => f (ep', c')) c v else fun c' => f (ep', c') := by
  funext c'
  split
  · next he =>
    subst he
    simp [Function.update_apply]
  · next hne =>
    rw [Function.update_of_ne]
    simp [hne]

variable {d : Decoder UInt8 Object} {ops : Multiset Op} {ep : Endpoint}

/-- No request stems from a call that is still to be made. -/
theorem Sound.not_answered (hs : Sound d s ops) (method params : Object)
    (hlt : ((s.client ep).session.sendRequest method params).calls.length < 2 ^ 32)
    (a : Object × Object) : ¬ Answered s.requests ep (s.client ep).session.msgidRr a := by
  rintro ⟨req, hreq, hid, -⟩
  obtain ⟨call, hcall, hid', -⟩ := hs.requests _ hreq
  obtain ⟨i, hi⟩ := List.mem_iff_getElem?.1 hcall
  have hi' : ((s.client ep).session.sendRequest method params).calls[i]? = some call := by
    simp only [Session.sendRequest, Session.nextMsgid]
    rwa [List.getElem?_append_left (List.getElem?_eq_some_iff.1 hi).1]
  have hlast : ((s.client ep).session.sendRequest method params).calls[
      (s.client ep).session.calls.length]? = some ⟨(s.client ep).session.msgidRr, method, params⟩ :=
    List.getElem?_concat_length ..
  have hnumbered := ((hs.clients ep).client.sendRequest method params).numbered
  obtain rfl := hnumbered.call_unique hlt hi' hlast (hid'.symm.trans hid)
  exact Nat.lt_irrefl _ (List.getElem?_eq_some_iff.1 hi).1

/-- A call is made. -/
theorem Offers.sendRequest (h : Offers s t) (hs : Sound d s ops) (method params : Object)
    (hlt : ((s.client ep).session.sendRequest method params).calls.length < 2 ^ 32) :
    ∃ t', ReflTransGen (Step anyReplies) t t' ∧
      Offers (s.onSession ep fun ss => ss.sendRequest method params) t' := by
  have hnil : (s.client ep).session.calls[(s.client ep).session.calls.length]? = none := by simp
  have hnone : t.asked (ep, (s.client ep).session.calls.length) = none := by
    rw [h.asked, hnil]
    rfl
  -- the calls of the client are those there were, and the new one
  have hcalls (c : Nat) : ((s.client ep).session.sendRequest method params).calls[c]? =
      if c = (s.client ep).session.calls.length then
        some ⟨(s.client ep).session.msgidRr, method, params⟩
      else (s.client ep).session.calls[c]? := by
    simp only [Session.sendRequest, Session.nextMsgid]
    split
    · next hc =>
      rw [hc]
      exact List.getElem?_concat_length ..
    · next hc =>
      rcases Nat.lt_or_gt_of_ne hc with hc | hc
      · exact List.getElem?_append_left hc
      · rw [List.getElem?_eq_none (by simp; omega), List.getElem?_eq_none (by omega)]
  refine ⟨_, .single (.ask (ep, (s.client ep).session.calls.length) (method, params) hnone), ?_, ?_,
    ?_⟩ <;> intro ep' <;> rcases eq_or_ne ep' ep with rfl | hne
  · intro c
    rw [State.onSession, onClient_self, hcalls]
    dsimp only
    split
    · next hc =>
      rw [hc, Function.update_self]
      rfl
    · next hc =>
      rw [Function.update_of_ne fun he => hc (Prod.mk.inj he).2]
      exact h.asked _ c
  · intro c
    rw [State.onSession, onClient_of_ne s hne]
    dsimp only
    rw [Function.update_of_ne fun he => hne (Prod.mk.inj he).1]
    exact h.asked ep' c
  · intro c a
    rw [State.onSession, onClient_self, hcalls, h.replies]
    split
    · next hc =>
      rw [hc, hnil]
      refine iff_of_false (by simp) ?_
      rintro ⟨call, hcall, ha⟩
      cases hcall
      exact hs.not_answered method params hlt a ha
    · rfl
  · intro c a
    rw [State.onSession, onClient_of_ne s hne]
    exact h.replies ep' c a
  · rw [State.onSession, onClient_self]
    exact h.outcome _
  · rw [State.onSession, onClient_of_ne s hne]
    exact h.outcome ep'

/-- A call returns. -/
theorem Offers.setResult {e : Completion Session.Source} (h : Offers s t)
    (hs : Sound d s (.setResult ep e ::ₘ ops)) :
    ∃ t', ReflTransGen (Step anyReplies) t t' ∧
      Offers (s.onSession ep fun ss => (ss.setResult e).1) t' := by
  have hserved := hs.client_of_setResult
  obtain ⟨c, call, hc, hcall, hnone⟩ := (h.outcome ep).not_yet hserved.client
  have hstep : Step anyReplies t
      { t with outcome := Function.update t.outcome (ep, c) (some (Network.outcome e)) } := by
    have hasked : (t.asked (ep, c)).isSome := by
      rw [h.asked, hcall]
      rfl
    have hhanded := hserved.handed e
      (hserved.client.handed_of_pending (Multiset.mem_cons_self e _))
    unfold Network.outcome
    cases ho : e.origin with
    | response =>
      obtain ⟨i, call', hi, hcall', ha⟩ := hhanded ho
      rw [hc] at hi
      cases hi
      exact .answer (ep, c) _ ((h.replies ep c _).2 ⟨call', hcall', ha⟩) hnone
    | stepTimer | connectFailed | systemError | timedWait => exact .fail (ep, c) _ hasked hnone
  refine ⟨_, .single hstep, ?_, ?_, ?_⟩ <;> intro ep' <;> rcases eq_or_ne ep' ep with rfl | hne
  · intro c'
    rw [State.onSession, onClient_self, Session.setResult_frame]
    exact h.asked _ c'
  · intro c'
    rw [State.onSession, onClient_of_ne s hne]
    exact h.asked ep' c'
  · intro c' a
    rw [State.onSession, onClient_self, Session.setResult_frame]
    exact h.replies _ c' a
  · intro c' a
    rw [State.onSession, onClient_of_ne s hne]
    exact h.replies ep' c' a
  · rw [State.onSession, onClient_self]
    dsimp only
    rw [update_at, if_pos rfl]
    exact (h.outcome _).setResult hc hnone
  · rw [State.onSession, onClient_of_ne s hne]
    dsimp only
    rw [update_at, if_neg hne]
    exact h.outcome ep'

/-- A request is answered: the first answer is a reply, and no other is. -/
theorem Offers.answer (h : Offers s t) (hs : Sound d s ops) (hlt : Bounded s) {r : Nat}
    {req : RequestImpl} (hr : s.requests[r]? = some (req, ep)) (res err : Object)
    (sent : List (Endpoint × List UInt8)) :
    ∃ t', ReflTransGen (Step anyReplies) t t' ∧
      Offers { s with requests := s.requests.set r ((req.call res err).1, ep), sent } t' := by
  have hmem := List.mem_of_getElem? hr
  have hset {ep' : Endpoint} {msgid : MsgId} {a : Object × Object} :
      Answered (s.requests.set r ((req.call res err).1, ep)) ep' msgid a ↔
        Answered s.requests ep' msgid a ∨
          req.ms = true ∧ ep' = ep ∧ req.msgid = msgid ∧ a = (res, err) :=
    answered_set hr (hs.unsent _ hmem) res err
  obtain ⟨call, hcall, hid, -⟩ := hs.requests _ hmem
  obtain ⟨i, hi⟩ := List.mem_iff_getElem?.1 hcall
  cases hms : req.ms with
  | false =>
    refine ⟨t, .refl, h.asked, fun ep' c a => ?_, h.outcome⟩
    rw [h.replies]
    refine exists_congr fun call => and_congr_right fun _ => ?_
    rw [hset, hms]
    simp
  | true =>
    have hasked : (t.asked (ep, i)).isSome := by
      rw [h.asked, hi]
      rfl
    refine ⟨_, .single (.reply (ep, i) (res, err) hasked trivial), h.asked, fun ep' c a => ?_,
      h.outcome⟩
    rw [mem_update_replies, h.replies]
    constructor
    · rintro (⟨he, rfl⟩ | ⟨call', hcall', ha⟩)
      · cases he
        exact ⟨call, hi, hset.2 (.inr ⟨hms, rfl, hid, rfl⟩)⟩
      · exact ⟨call', hcall', hset.2 (.inl ha)⟩
    · rintro ⟨call', hcall', ha⟩
      rcases hset.1 ha with ha | ⟨-, rfl, hid', rfl⟩
      · exact .inr ⟨call', hcall', ha⟩
      · -- calls of one client with one id are one call
        obtain rfl := (hs.clients ep').client.numbered.call_unique (hlt ep') hcall' hi
          (hid'.symm.trans hid)
        exact .inl ⟨rfl, rfl⟩

/-- Each step is some transitions of the service. -/
theorem offers_exec {op : Op} {s' : State} (h : Offers s t) (hs : Sound d s (op ::ₘ ops))
    (hlt : Bounded s') (hstep : Steps s op s') :
    ∃ t', ReflTransGen (Step anyReplies) t t' ∧ Offers s' t' := by
  cases hstep with
  | sendRequest ep method params =>
    refine h.sendRequest hs method params ?_
    have hlt := hlt ep
    rwa [State.onSession, onClient_self] at hlt
  | answer res err sent hr => exact h.answer hs hlt hr res err sent
  | setResult ep e => exact h.setResult hs
  | quiet hq =>
    refine ⟨t, .refl, h.quiet hq fun ep e he => ?_⟩
    have hfuture := ((hs.clients ep).client.stored e he)
    rw [List.getElem?_map] at hfuture
    obtain ⟨fut, hfut, -⟩ := Option.map_eq_some_iff.1 hfuture
    rw [List.length_map]
    exact (List.getElem?_eq_some_iff.1 hfut).1

end

section
variable {d : Decoder UInt8 Object} {enc : Object → List UInt8} {valid : Message → Prop}

/-- The bound on the calls holds earlier in a run if it holds later. -/
theorem bounded_of_run {ls : List (Label Op Choice)} {c c' : Config State Op}
    (hrun : (machine d enc).run c ls = some c') (hlt : Bounded c'.shared) : Bounded c.shared := by
  intro ep
  have hle := (machine d enc).invariant
    (fun s _ => (c.shared.client ep).session.calls.length ≤ (s.client ep).session.calls.length)
    (fun _ _ _ h _ => h) (fun _ _ _ _ _ _ h _ hx => h.trans (calls_mono (exec_steps hx) ep).1)
    (Nat.le_refl _) (System.meets_true c ls) hrun
  exact Nat.lt_of_le_of_lt hle (hlt ep)

/-- Every run is one of the service. -/
theorem offers_run (henc : ∀ m, valid m → Encodes d (enc m.pack) m.pack)
    {ls : List (Label Op Choice)} {c c' : Config State Op} {t : Remote}
    (h : Sound d c.shared c.pending ∧ Offers c.shared t)
    (hG : (machine d enc).Meets (Valid valid) c ls) (hrun : (machine d enc).run c ls = some c')
    (hlt : Bounded c'.shared) :
    ∃ t', ReflTransGen (Step anyReplies) t t' ∧ Sound d c'.shared c'.pending ∧
      Offers c'.shared t' := by
  refine (machine d enc).invariant
    (fun s ops => Bounded s → ∃ t', ReflTransGen (Step anyReplies) t t' ∧ Sound d s ops ∧
      Offers s t') ?_ ?_ (fun _ => ⟨t, .refl, h⟩) hG hrun hlt
  · intro s ops op ih hop hs
    obtain ⟨t', hreach, hsound, hoffers⟩ := ih hs
    refine ⟨t', hreach, hsound.cons (silent_of_entry hop) ?_, hoffers⟩
    rintro ep msgid result error rfl
    cases hop
  · intro s op rest x s' k ih hv hx hs'
    have hs : Bounded s := fun ep => Nat.lt_of_le_of_lt (calls_mono (exec_steps hx) ep).1 (hs' ep)
    obtain ⟨t₁, hreach, hsound, hoffers⟩ := ih hs
    obtain ⟨t', hreach', hoffers'⟩ := offers_exec hoffers hsound hs' (exec_steps hx)
    exact ⟨t', hreach.trans hreach', sound_exec henc hsound hs hv hx, hoffers'⟩

/-- The second copy of the request of `left` is answered again, and the client of `right` makes another
call, whose datagram is not sent. -/
def answeredAgain : List (Label Op Choice) :=
  [.spawn (.answer 2 (.integer 10) .nil), .exec 13 {},
    .spawn (.sendRequest right (.str [0x68]) .nil), .exec 14 {}, .exec 14 {},
    .exec 14 { outcomes := { sendTo := false } }]

/-- The state after that. -/
def afterAgain : Config State Op :=
  ((machine Format.decoder Format.encode).run afterRepeated answeredAgain).getD afterRepeated

end

end Network

end Udp

end MsgpackRpc
