import MsgpackRpc.Link.Service
import MsgpackRpc.Tcp.Correlation

/-!
# Remote procedure calls over reconnects

What the users at both ends of a TCP client see, whichever connections it makes and loses: calls are
made, each is answered once at most, and a call returns at most once, with the answer or with a
failure (`reconnects_refine`). A call may fail although its request has been executed; what the
service does not allow, and the client does not do unless a wait for the future runs out, is to execute it
twice or to return with something else than its one answer.
-/

namespace MsgpackRpc

open Threads Calls Relation
open Link (Remote Asks Replies Returns)

namespace Tcp

namespace Network

/-- How a completion lets a call return. -/
def outcome (d : Completion Origin) : Except Object (Object × Object) :=
  match d.origin with
  | .response => .ok (d.result, d.error)
  | .stepTimer | .onRead _ | .sendData _ | .tryConnect _ | .onTimeout _ => .error d.error

/-- The service that a client and the servers of its connections amount to: the calls of the session,
the first answers to the requests of all connections, and the completions of the futures. -/
structure Refines (s : State) (t : Remote) : Prop where
  asked : Asks s.client.session t.asked
  replies : Replies (s.requests.map Prod.fst) t.replies
  outcome : Returns outcome s.client.session t.outcome

theorem refines_init (connectTimeout reconnectLimit : Int) (timeout : BitVec 32) :
    Refines (init connectTimeout reconnectLimit timeout).shared .init := by
  refine ⟨fun _ => rfl, fun c a => ?_, fun c o => ?_⟩
  · simp [Service.init, init]
  · simp [Service.init, init, Tcp.init]

section
variable {s : State} {t : Remote} {rest : Multiset Tcp.Op}

/-- A step of the client that makes no call and no completion. -/
theorem Refines.same (h : Refines s t) {ops : Multiset Tcp.Op} (hs : Sound s ops) {client : Client}
    (hcalls : client.session.calls = s.client.session.calls)
    (hcs : client.session.completions = s.client.session.completions)
    (hf : s.client.session.futures.map Future.call <+: client.session.futures.map Future.call) :
    Refines { s with client } t := by
  refine ⟨fun c => by rw [h.asked c, hcalls], h.replies, h.outcome.congr hcs fun d hd => ?_⟩
  have hlt := (List.getElem?_eq_some_iff.1 (hs.heard.knows.stored d hd)).1
  rw [List.length_map] at hlt
  obtain ⟨l, hl⟩ := hf
  rw [← hl, List.getElem?_append_left (by rw [List.length_map]; exact hlt)]

/-- A call returns. -/
theorem Refines.setResult {d : Completion Origin} (h : Refines s t)
    (hs : Sound s (.setResult d ::ₘ rest)) (hlt : s.client.session.calls.length < 2 ^ 32) :
    ∃ t', ReflTransGen (Step oneReply) t t' ∧
      Refines { s with client := { s.client with session := (s.client.session.setResult d).1 } }
        t' := by
  have hknows := hs.heard.knows
  rw [tasks_cons] at hknows
  have hcomplete : s.client.Knows (↑([d].map Task.complete) + tasks rest) := hknows
  have hclient : Link.Client s.client.session (d ::ₘ (tasks rest).filterMap Task.completion)
      ((tasks rest).filterMap Task.insertion) := knows_complete.1 hcomplete
  obtain ⟨c, call, hc, hcall, hnone⟩ := h.outcome.not_yet hclient
  have hasked : (t.asked c).isSome := by
    rw [h.asked, hcall]
    rfl
  have hstep : Step oneReply t
      { t with outcome := Function.update t.outcome c (some (Network.outcome d)) } := by
    have hhanded := hs.heard.handed d
      (hclient.handed_of_pending (Multiset.mem_cons_self d _))
    unfold Network.outcome
    cases ho : d.origin with
    | response =>
      obtain ⟨c', call', hc', hcall', ha⟩ := hhanded ho
      rw [hc] at hc'
      cases hc'
      obtain ⟨q, hq, hsent, ha⟩ := hs.request_of_call hlt hcall' ha
      obtain ⟨r, hr⟩ := List.mem_iff_getElem?.1 hq
      refine .answer c _ ((h.replies _ _).2 ⟨r, q.1, ?_, hsent, ha⟩) hnone
      rw [List.getElem?_map, hr]
      rfl
    | stepTimer | onRead | sendData | tryConnect | onTimeout => exact .fail c _ hasked hnone
  refine ⟨_, .single hstep, ?_, h.replies, h.outcome.setResult hc hnone⟩
  intro c'
  rw [Session.setResult_frame]
  exact h.asked c'

/-- The client takes a step. -/
theorem Refines.client {op : Tcp.Op} {x : Choice} {client : Client} {K : List Task} (h : Refines s t)
    (hs : Sound s (op ::ₘ rest)) (hlt : s.client.session.calls.length < 2 ^ 32)
    (hstep : Tcp.Steps s.client x op client K) :
    ∃ t', ReflTransGen (Step oneReply) t t' ∧ Refines { s with client } t' := by
  have hf := (grows_step hstep).2
  cases hstep with
  | sendRequest method params =>
    obtain ⟨hnone, hasks⟩ := h.asked.sendRequest method params
    exact ⟨_, .single (.ask s.client.session.calls.length (method, params) hnone), hasks, h.replies,
      h.outcome⟩
  | complete d => exact h.setResult hs hlt
  | quiet hq =>
    have hframe := hq.session.frame
    exact ⟨t, .refl, h.same hs (by rw [hframe]) (by rw [hframe]) hf⟩
  | sweep hhands | take _ hhands =>
    have hframe := hhands.frame
    exact ⟨t, .refl, h.same hs (by rw [hframe]) (by rw [hframe]) hf⟩
  | insert | found | opened | established | gaveUp | dropped | wrote | writeFailed | readFailed |
    expired | skipped | close => exact ⟨t, .refl, h.same hs rfl rfl hf⟩

/-- A request is answered: the first answer is a reply, and no other is. -/
theorem Refines.answer {ops : Multiset Tcp.Op} (h : Refines s t) (hs : Sound s ops) {r n : Nat}
    {req : RequestImpl} (hr : s.requests[r]? = some (req, n)) (res err : Object)
    (sent : List (Object × Nat)) : ∃ t', ReflTransGen (Step oneReply) t t' ∧
      Refines { s with requests := s.requests.set r ((req.call res err).1, n), sent } t' := by
  have hmem := List.mem_of_getElem? hr
  have hreq : (s.requests.map Prod.fst)[r]? = some req := by
    rw [List.getElem?_map, hr]
    rfl
  have hset : (s.requests.set r ((req.call res err).1, n)).map Prod.fst =
      (s.requests.map Prod.fst).set r (req.call res err).1 := List.map_set
  by_cases hnil : req.answers = []
  · have hasked : (t.asked req.sentBy).isSome := by
      obtain ⟨call, hcall, -⟩ := hs.requests _ hmem
      rw [h.asked, hcall]
      rfl
    have hone : ∀ (r' : Nat) req', (s.requests.map Prod.fst)[r']? = some req' →
        req'.sentBy = req.sentBy → r = r' := by
      intro r' req' hreq' hsent
      have hnodup := hs.requests_nodup
      have hlt := (List.getElem?_eq_some_iff.1 hr).1
      refine (List.getElem?_inj (by rwa [List.length_map]) hnodup).1 ?_
      rw [List.getElem?_map] at hreq'
      obtain ⟨q, hq, rfl⟩ := Option.map_eq_some_iff.1 hreq'
      rw [List.getElem?_map, List.getElem?_map, hr, hq, Option.map_some, Option.map_some, hsent]
    obtain ⟨hempty, hfirst⟩ := h.replies.first hreq hnil hone res err
    refine ⟨_, .single (.reply req.sentBy (res, err) hasked hempty), h.asked, ?_, h.outcome⟩
    rw [hset]
    exact hfirst
  · refine ⟨t, .refl, h.asked, ?_, h.outcome⟩
    rw [hset]
    exact h.replies.again hreq hnil res err

/-- Each step is some transitions of the service. -/
theorem refines_exec {s' : State} {op : Op} {k : List Op} {rest : Multiset Op} (h : Refines s t)
    (hs : Sound s ((op ::ₘ rest).filterMap Op.ofClient))
    (hlt : s.client.session.calls.length < 2 ^ 32) (hstep : Steps s op s' k) :
    ∃ t', ReflTransGen (Step oneReply) t t' ∧ Refines s' t' := by
  cases hstep with
  | @client op _ client k _ hx =>
    rw [Multiset.filterMap_cons_some Op.ofClient _ _ rfl] at hs
    exact h.client hs hlt (Tcp.exec_steps hx)
  | readCompletes _ hx =>
    rw [Multiset.filterMap_cons_none _ _ rfl] at hs
    obtain ⟨t', hreach, h'⟩ := h.client (hs.spawn rfl) hlt (Tcp.exec_steps hx)
    exact ⟨t', hreach, h'.asked, h'.replies, h'.outcome⟩
  | onRequest =>
    refine ⟨t, .refl, h.asked, ?_, h.outcome⟩
    rw [List.map_append]
    exact h.replies.append rfl
  | answer res err ok hr => exact h.answer hs hr res err _

end

/-! ## Runs -/

/-- What ties the client and the servers to a service while there are fewer than 2^32 calls. -/
structure Simulated (s : State) (ops : Multiset Op) (t : Remote) : Prop where
  sound : Sound s (ops.filterMap Op.ofClient)
  refines : Refines s t

/-- Calls are only added. -/
theorem calls_le_of_pool {p p' : State × Multiset Op} (hrun : ReflTransGen machine.Pool p p') :
    p.1.client.session.calls.length ≤ p'.1.client.session.calls.length :=
  System.Pool.invariant
    (fun s _ => p.1.client.session.calls.length ≤ s.client.session.calls.length)
    (fun _ _ _ h _ => h) (fun _ _ _ _ _ _ h hx => h.trans (calls_mono (exec_steps hx))) hrun
    (Nat.le_refl _)

/-- Every run is one of the service. -/
theorem simulated_of_pool {p p' : State × Multiset Op} {t : Remote}
    (hrun : ReflTransGen machine.Pool p p') (h : Simulated p.1 p.2 t)
    (hlt : p'.1.client.session.calls.length < 2 ^ 32) :
    ∃ t', ReflTransGen (Step oneReply) t t' ∧ Simulated p'.1 p'.2 t' := by
  have hsim := System.Pool.simulation (T := Step oneReply)
    (fun s ops t => s.client.session.calls.length < 2 ^ 32 → Simulated s ops t)
    (fun s ops op t h hop => ⟨t, .refl, fun hs => ⟨sound_spawn (h hs).sound hop, (h hs).refines⟩⟩)
    ?_ hrun fun _ => h
  · obtain ⟨t', hreach, hsim⟩ := hsim
    exact ⟨t', hreach, hsim hlt⟩
  · intro s op rest x s' k t h hx
    have hx := exec_steps hx
    by_cases hs' : s'.client.session.calls.length < 2 ^ 32
    · have hs := Nat.lt_of_le_of_lt (calls_mono hx) hs'
      obtain ⟨t', hreach, href⟩ := refines_exec (h hs).refines (h hs).sound hs hx
      exact ⟨t', hreach, fun _ => ⟨sound_exec (h hs).sound hx hs', href⟩⟩
    · exact ⟨t, .refl, fun hs => absurd hs hs'⟩

/-- The first request is answered again, and another call is made. -/
def answeredLate : List (Label Op Choice) :=
  [.spawn (.answer 0 (.integer 11) .nil), .exec 11 {},
    .spawn (.client (.sendRequest (.str [0x69]) .nil)), .exec 12 {}]

/-- The state after that. -/
def afterAnsweredLate : Config State Op := (machine.run afterLate answeredLate).getD afterLate

end Network

end Tcp

end MsgpackRpc
