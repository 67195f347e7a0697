import MsgpackRpc.Server.Machine

/-!
# The server answers a request at most once

A `request_impl` holds its sendable until a send through it has not thrown, and no call sends
without it. So a request is in one of three states (`Status`): it holds its sendable and nothing was
sent; a first call has been sent, if anything, and the others do nothing; or it was built from a
notification and never had a sendable.
-/

namespace MsgpackRpc

namespace Server

/-! ## The records -/

/-- Responses to another request. -/
theorem responses_of_ne {s : State} {new : List Response} {r r' : Nat}
    (hnew : ∀ e ∈ new, e.request = r) (hne : r' ≠ r) :
    { s with sent := s.sent ++ new }.responses r' = s.responses r' := by
  have hnil : new.filter (fun e => e.request = r') = [] := by
    rw [List.filter_eq_nil_iff]
    intro e he
    rw [hnew e he, decide_eq_true_eq]
    exact fun heq => hne heq.symm
  rw [State.responses, List.filter_append, hnil, List.append_nil]
  rfl

/-- The first responses to a request. -/
theorem responses_of_nil {s : State} {new : List Response} {r : Nat}
    (hnew : ∀ e ∈ new, e.request = r) (hnil : s.responses r = []) :
    { s with sent := s.sent ++ new }.responses r = new := by
  have hall : new.filter (fun e => e.request = r) = new := by
    rw [List.filter_eq_self]
    intro e he
    rw [hnew e he, decide_eq_true_eq]
  rw [State.responses, List.filter_append, hall]
  rw [State.responses] at hnil
  rw [hnil, List.nil_append]

/-- A call that is not the first that does not throw changes nothing. -/
theorem firstAnswer_append (s : State) (a : Answer) (r : Nat) :
    { s with log := s.log ++ [a] }.firstAnswer r =
      (s.firstAnswer r).or (if a.request = r ∧ a.threw = false then some a else none) := by
  by_cases h : a.request = r ∧ a.threw = false <;> simp [State.firstAnswer, List.find?_append, h]

/-! ## One request -/

/-- The request was built by `on_request`, with a sendable for the peer that sent the message. -/
structure Request.Asked (req : Request) : Prop where
  message : req.message = .request req.impl.msgid req.impl.method req.impl.params
  ms : req.ms = some (getResponseSender req.peer)

/-- What has been sent of the answers to a request. -/
inductive Status (s : State) (r : Nat) (req : Request) : Prop where
  | held : req.Asked → req.impl.ms = true → s.responses r = [] → s.firstAnswer r = none →
    Status s r req
  | answered {a : Answer} : req.Asked → req.impl.ms = false → s.firstAnswer r = some a →
    (s.responses r = [] ∨
      s.responses r = [⟨r, req.peer, (Message.response req.impl.msgid a.res a.err).pack⟩]) →
    Status s r req
  | notified {method params : Object} : req.message = .notify method params →
    req.impl.ms = false → s.responses r = [] → Status s r req

/-- `Status` reads only the records of the request. -/
theorem Status.congr {s s' : State} {r : Nat} {req : Request} (h : Status s r req)
    (hr : s'.responses r = s.responses r) (hf : s'.firstAnswer r = s.firstAnswer r) :
    Status s' r req := by
  cases h with
  | held h1 h2 h3 h4 => exact .held h1 h2 (hr.trans h3) (hf.trans h4)
  | answered h1 h2 h3 h4 => exact .answered h1 h2 (hf.trans h3) (by rw [hr]; exact h4)
  | notified h1 h2 h3 => exact .notified h1 h2 (hr.trans h3)

/-- A call on a request that does not hold its sendable does nothing. -/
theorem Status.isSent {s : State} {r : Nat} {req : Request} (h : Status s r req)
    (hs : req.impl.isSent = true) (a : Answer) :
    Status { s with log := s.log ++ [a] } r req := by
  have hms : req.impl.ms = false := by simpa [RequestImpl.isSent] using hs
  cases h with
  | held _ h2 =>
    rw [hms] at h2
    cases h2
  | answered h1 h2 h3 h4 =>
    refine .answered h1 h2 ?_ h4
    rw [firstAnswer_append, h3]
    rfl
  | notified h1 h2 h3 => exact .notified h1 h2 h3

/-! ## Runs -/

/-- The invariant: every request has a status, the records are of requests, and while messages of a
datagram are left, `m_remote` is its sender. -/
structure Once (s : State) : Prop where
  status : ∀ r req, s.requests[r]? = some req → Status s r req
  sent : ∀ e ∈ s.sent, e.request < s.requests.length
  log : ∀ a ∈ s.log, a.request < s.requests.length
  remote : s.datagram.2 ≠ [] → s.remote = s.datagram.1

theorem once_init : Once {} :=
  ⟨fun r req h => by simp at h, by simp, by simp, fun h => absurd rfl h⟩

/-- A step that changes only the sockets. -/
theorem Once.sockets {s s' : State} (h : Once s) (hreq : s'.requests = s.requests)
    (hlog : s'.log = s.log) (hsent : s'.sent = s.sent)
    (hremote : s'.datagram.2 ≠ [] → s'.remote = s'.datagram.1) : Once s' := by
  refine ⟨?_, ?_, ?_, hremote⟩
  · intro r req hr
    rw [hreq] at hr
    exact (h.status r req hr).congr (by rw [State.responses, hsent]; rfl)
      (by rw [State.firstAnswer, hlog]; rfl)
  · rw [hsent, hreq]
    exact h.sent
  · rw [hlog, hreq]
    exact h.log

/-- Nothing is recorded of a request that is still to come. -/
theorem Once.fresh {s : State} (h : Once s) :
    s.responses s.requests.length = [] ∧ s.firstAnswer s.requests.length = none := by
  refine ⟨List.filter_eq_nil_iff.2 ?_, List.find?_eq_none.2 ?_⟩
  · intro e he
    have hlt := h.sent e he
    simp only [decide_eq_true_eq]
    omega
  · intro a ha
    have hlt := h.log a ha
    simp only [decide_eq_true_eq, not_and]
    omega

/-- A new request. -/
theorem Once.concat {s : State} (h : Once s) {req : Request}
    (hreq : req.Asked ∧ req.impl.ms = true ∨
      (∃ method params, req.message = .notify method params) ∧ req.impl.ms = false) :
    Once { s with requests := s.requests ++ [req] } := by
  obtain ⟨hresp, hfirst⟩ := h.fresh
  have hlen : (s.requests ++ [req]).length = s.requests.length + 1 := by simp
  refine ⟨?_, ?_, ?_, h.remote⟩
  · intro r req' hr
    rw [List.getElem?_append] at hr
    split at hr
    · exact (h.status r req' hr).congr rfl rfl
    · next hge =>
      obtain ⟨hlt, hget⟩ := List.getElem?_eq_some_iff.1 hr
      obtain rfl : r = s.requests.length := by
        simp only [List.length_singleton] at hlt
        omega
      obtain rfl : req = req' := by simpa using hget
      rcases hreq with ⟨h1, h2⟩ | ⟨⟨method, params, h1⟩, h2⟩
      · exact .held h1 h2 hresp hfirst
      · exact .notified h1 h2 hresp
  · intro e he
    have hlt := h.sent e he
    show e.request < (s.requests ++ [req]).length
    omega
  · intro a ha
    have hlt := h.log a ha
    show a.request < (s.requests ++ [req]).length
    omega

/-- A message is handed over. -/
theorem Once.onMessage {s : State} (h : Once s) (peer : Peer) (m : Message) :
    Once (s.onMessage peer (getResponseSender peer) m) := by
  cases m with
  | request msgid method params => exact h.concat (.inl ⟨⟨rfl, rfl⟩, rfl⟩)
  | notify method params => exact h.concat (.inr ⟨⟨method, params, rfl⟩, rfl⟩)
  | response => exact h

/-- A call on a request is recorded. -/
theorem Once.logged {s : State} (h : Once s) {r : Nat} {req : Request}
    (hr : s.requests[r]? = some req) (a : Answer) (ha : a.request = r)
    (hstatus : Status { s with log := s.log ++ [a] } r req) :
    Once { s with log := s.log ++ [a] } := by
  refine ⟨?_, h.sent, ?_, h.remote⟩
  · intro r' req' hr'
    by_cases heq : r' = r
    · subst heq
      rw [hr] at hr'
      cases hr'
      exact hstatus
    · refine (h.status r' req' hr').congr rfl ?_
      rw [firstAnswer_append, if_neg (by rw [ha]; exact fun hc => heq hc.1.symm), Option.or_none]
  · intro b hb
    rcases List.mem_append.1 hb with hb | hb
    · exact h.log b hb
    · rw [List.mem_singleton.1 hb, ha]
      exact (List.getElem?_eq_some_iff.1 hr).1

/-- **The first call whose send does not throw.** The sendable is released; the response, if it is
sent, goes to the peer that the sendable was made for. -/
theorem Once.answered {s : State} (h : Once s) {r : Nat} {req : Request}
    (hr : s.requests[r]? = some req) (hms : req.impl.ms = true) (res err : Object)
    {connections : List Bool} {new : List Response}
    (hnew : new = [] ∨
      new = [⟨r, req.peer, (Message.response req.impl.msgid res err).pack⟩]) :
    Once { s with
      connections
      log := s.log ++ [⟨r, res, err, false⟩]
      requests := s.requests.set r { req with impl := (req.impl.call res err).1 }
      sent := s.sent ++ new } := by
  have hlt := (List.getElem?_eq_some_iff.1 hr).1
  have hlater := req.impl.later_call res err
  have hrequest : ∀ e ∈ new, e.request = r := by
    rcases hnew with rfl | rfl <;> simp
  obtain ⟨hasked, hresp, hfirst⟩ : req.Asked ∧ s.responses r = [] ∧ s.firstAnswer r = none := by
    cases h.status r req hr with
    | held h1 _ h3 h4 => exact ⟨h1, h3, h4⟩
    | answered _ h2 | notified _ h2 =>
      rw [hms] at h2
      cases h2
  refine ⟨?_, ?_, ?_, h.remote⟩
  · intro r' req' hr'
    have hlog := firstAnswer_append s ⟨r, res, err, false⟩ r'
    by_cases heq : r' = r
    · subst heq
      rw [List.getElem?_set_self hlt] at hr'
      cases hr'
      rw [hfirst, if_pos ⟨rfl, rfl⟩, Option.none_or] at hlog
      refine .answered ⟨?_, hasked.ms⟩ (req.impl.call_ms res err) hlog ?_
      · dsimp only
        rw [hlater.msgid, hlater.method, hlater.params]
        exact hasked.message
      · have hsent := responses_of_nil hrequest hresp
        dsimp only
        rw [hlater.msgid]
        exact hnew.imp hsent.trans hsent.trans
    · rw [List.getElem?_set_ne (fun hc => heq hc.symm)] at hr'
      rw [if_neg (fun hc => heq hc.1.symm), Option.or_none] at hlog
      exact (h.status r' req' hr').congr (responses_of_ne hrequest heq) hlog
  · intro e he
    show e.request < (s.requests.set r _).length
    rw [List.length_set]
    rcases List.mem_append.1 he with he | he
    · exact h.sent e he
    · rw [hrequest e he]
      exact hlt
  · intro a ha
    show a.request < (s.requests.set r _).length
    rw [List.length_set]
    rcases List.mem_append.1 ha with ha | ha
    · exact h.log a ha
    · rw [List.mem_singleton.1 ha]
      exact hlt

/-- What `send_data` does: it changes at most whether a connection is open, and what it sends goes to
the peer that the sendable was made for. -/
theorem sendData_eq {s s' : State} {peer : Peer} {result : SendResult} {dest : Option Peer}
    (h : s.sendData (getResponseSender peer) result = some (s', dest)) :
    (∃ connections, s' = { s with connections }) ∧ ∀ p ∈ dest, p = peer := by
  cases peer with
  | connection n =>
    simp only [State.sendData, getResponseSender] at h
    split at h <;> cases h
    · exact ⟨⟨_, rfl⟩, by simp⟩
    · exact ⟨⟨_, rfl⟩, by simp⟩
    · exact ⟨⟨_, rfl⟩, by simp⟩
  | endpoint ep =>
    cases result <;> cases h
    exact ⟨⟨_, rfl⟩, by simp⟩

/-- What a call does: nothing but being recorded, when the request has been answered before or the
send throws; or it releases the sendable and sends the response or not. -/
theorem call_cases {s s' : State} {r : Nat} {res err : Object} {result : SendResult}
    (h : s.call r res err result = some s') :
    ∃ req, s.requests[r]? = some req ∧
      (req.impl.isSent = true ∧ s' = { s with log := s.log ++ [⟨r, res, err, false⟩] } ∨
        req.impl.isSent = false ∧ s' = { s with log := s.log ++ [⟨r, res, err, true⟩] } ∨
        req.impl.isSent = false ∧ ∃ ms t dest, req.ms = some ms ∧
          State.sendData { s with log := s.log ++ [⟨r, res, err, false⟩] } ms result =
            some (t, dest) ∧
          s' = { t with
            requests := t.requests.set r { req with impl := (req.impl.call res err).1 }
            sent := t.sent ++ (dest.bind fun dest =>
              (req.impl.call res err).2.map fun msg => ⟨r, dest, msg⟩).toList }) := by
  obtain ⟨req, hreq, h⟩ := Option.bind_eq_some_iff.1 h
  refine ⟨req, hreq, ?_⟩
  split at h
  · next hs =>
    cases h
    exact .inl ⟨hs, rfl⟩
  · next hs =>
    have hs : req.impl.isSent = false := by simpa using hs
    obtain ⟨ms, hms, h⟩ := Option.bind_eq_some_iff.1 h
    split at h
    · cases h
      exact .inr (.inl ⟨hs, rfl⟩)
    · obtain ⟨⟨t, dest⟩, ht, h⟩ := Option.bind_eq_some_iff.1 h
      cases h
      exact .inr (.inr ⟨hs, ms, t, dest, hms, ht, rfl⟩)

/-- A call keeps the invariant. -/
theorem Once.call {s s' : State} (h : Once s) {r : Nat} {res err : Object} {result : SendResult}
    (hc : s.call r res err result = some s') : Once s' := by
  obtain ⟨req, hreq, ⟨hs, rfl⟩ | ⟨hs, rfl⟩ | ⟨hs, ms, t, dest, hms, ht, rfl⟩⟩ := call_cases hc
  · exact h.logged hreq _ rfl ((h.status r req hreq).isSent hs _)
  · refine h.logged hreq _ rfl ?_
    refine (h.status r req hreq).congr rfl ?_
    rw [firstAnswer_append, if_neg (by simp), Option.or_none]
  · have hheld : req.impl.ms = true := by simpa [RequestImpl.isSent] using hs
    have hsend : req.ms = some (getResponseSender req.peer) := by
      cases h.status r req hreq with
      | held h1 => exact h1.ms
      | answered _ h2 | notified _ h2 =>
        rw [hheld] at h2
        cases h2
    rw [hsend] at hms
    cases hms
    obtain ⟨⟨connections, rfl⟩, hdest⟩ := sendData_eq ht
    refine h.answered hreq hheld res err ?_
    cases dest with
    | none => exact .inl rfl
    | some p =>
      rw [hdest p rfl]
      exact .inr (by simp [RequestImpl.call, hs])

theorem once_step {s s' : State} {e : Event} (h : Once s) (hs : step s e = some s') : Once s' := by
  cases e with
  | accept | close n =>
    cases hs
    exact h.sockets rfl rfl rfl h.remote
  | onMessage n m =>
    simp only [step] at hs
    split at hs
    · cases hs
      exact h.onMessage _ m
    · cases hs
  | receive sender msgs =>
    simp only [step] at hs
    split at hs
    · cases hs
      exact h.sockets rfl rfl rfl fun _ => rfl
    · cases hs
  | onDgramMessage =>
    simp only [step] at hs
    split at hs
    · cases hs
    · next sender m msgs hd =>
      cases hs
      have hremote : s.remote = sender := by
        have := h.remote
        rw [hd] at this
        exact this (List.cons_ne_nil _ _)
      have hrest : Once { s with datagram := (sender, msgs) } :=
        h.sockets rfl rfl rfl fun _ => hremote
      have hsender : getResponseSender (.endpoint s.remote) = getResponseSender (.endpoint sender) := by
        rw [hremote]
      rw [hsender]
      exact hrest.onMessage (.endpoint sender) m
  | start =>
    simp only [step] at hs
    split at hs
    · cases hs
      exact h.sockets rfl rfl rfl h.remote
    · cases hs
  | onReadFailed =>
    cases hs
    exact h.sockets rfl rfl rfl fun hne => absurd rfl hne
  | call r res err result => exact h.call hs

/-- Every state of a run. -/
theorem once_run {s s' : State} {es : List Event} (h : Once s) (hrun : run s es = some s') :
    Once s' := by
  induction es generalizing s with
  | nil =>
    cases hrun
    exact h
  | cons e es ih =>
    obtain ⟨t, ht, hrun⟩ := Option.bind_eq_some_iff.1 hrun
    exact ih (once_step h ht) hrun

/-- **The server answers each request at most once, to its sender.** In every state of every run: at
most one response to a request has been sent; it carries the id of the request and the values of the
first call whose send did not throw, and went to the connection or the endpoint that the request came
from; and of a notification nothing has been sent. -/
theorem answered_at_most_once {es : List Event} {s : State} (hrun : run {} es = some s) {r : Nat}
    {req : Request} (hr : s.requests[r]? = some req) :
    (s.responses r).length ≤ 1 ∧
      (∀ e ∈ s.responses r, ∃ msgid method params a,
        req.message = .request msgid method params ∧ s.firstAnswer r = some a ∧
          e.dest = req.peer ∧ e.msg = (Message.response msgid a.res a.err).pack) ∧
      ∀ method params, req.message = .notify method params → s.responses r = [] := by
  cases (once_run once_init hrun).status r req hr with
  | held _ _ hresp _ =>
    rw [hresp]
    exact ⟨Nat.zero_le 1, by simp, fun _ _ _ => rfl⟩
  | notified _ _ hresp =>
    rw [hresp]
    exact ⟨Nat.zero_le 1, by simp, fun _ _ _ => rfl⟩
  | @answered a hasked _ hfirst hresp =>
    have hnot (method params : Object) (hm : req.message = .notify method params) :
        s.responses r = [] := by
      rw [hasked.message] at hm
      cases hm
    rcases hresp with hresp | hresp
    · rw [hresp]
      exact ⟨Nat.zero_le 1, by simp, fun _ _ _ => rfl⟩
    · refine ⟨by rw [hresp]; exact Nat.le_refl 1, ?_, hnot⟩
      intro e he
      rw [hresp] at he
      rw [List.mem_singleton.1 he]
      exact ⟨_, _, _, a, hasked.message, hfirst, rfl, rfl⟩

/-- A request arrives from one endpoint and a notification from another. The first send of an answer
to the request throws, the second does not, and a third call does nothing. -/
def answeredAgain : List Event :=
  [.receive ⟨1, 9000⟩ [.request 5 (.str [0x66]) .nil], .onDgramMessage, .start,
    .receive ⟨2, 9000⟩ [.notify (.str [0x67]) .nil], .onDgramMessage,
    .call 0 (.integer 7) .nil .threw, .call 0 .nil (.integer 8) .sent,
    .call 0 (.integer 9) .nil .sent, .call 1 (.integer 9) .nil .sent]

/-- The response with the second answer went to the endpoint that the request came from. -/
theorem answered_at_most_once_again :
    ∃ s req, run {} answeredAgain = some s ∧ s.requests[0]? = some req ∧ s.remote = ⟨2, 9000⟩ ∧
      (s.responses 0).length ≤ 1 ∧
      s.responses 0 = [⟨0, .endpoint ⟨1, 9000⟩, (Message.response 5 .nil (.integer 8)).pack⟩] ∧
      s.responses 1 = [] :=
  ⟨_, _, rfl, rfl, rfl, (answered_at_most_once (rfl : run {} answeredAgain = some _) rfl).1,
    by decide, by decide⟩

end Server

end MsgpackRpc
