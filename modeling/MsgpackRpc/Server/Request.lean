import MsgpackRpc.Protocol

/-!
# Requests at the server

`request_impl` (`request_impl.h`), which `server_impl::on_request` builds from a request message and
hands to the dispatcher. Any of its `result` and `error` functions answers it; the first answer is
sent to the connection the request came from and releases that connection, so that the following
ones do nothing.
-/

namespace MsgpackRpc

/-- `request_impl`. `ms` is whether `m_ms` is set. The last two fields are not in the source: the
number of the call of `send_request` whose message it was built from, and the answers given to it,
with their results and errors. -/
structure RequestImpl where
  msgid : MsgId
  method : Object
  params : Object
  ms : Bool := true
  sentBy : Nat
  answers : List (Object × Object) := []
  deriving DecidableEq, Repr

namespace RequestImpl

/-- `request_impl::is_sent` (`request_impl.h:52`). -/
def isSent (req : RequestImpl) : Bool := !req.ms

/-- `request::call` (`request.h:123`), which all forms of `result` and `error` end in, and
`request_impl::send_data` (`request_impl.h:56`): the message that is sent, if any. -/
def call (req : RequestImpl) (res err : Object) : RequestImpl × Option Object :=
  let answers := req.answers ++ [(res, err)]
  if req.isSent then ({ req with answers }, none)
  else ({ req with answers, ms := false }, some (Message.response req.msgid res err).pack)

/-- `req'` is `req` after some more answers: what has been sent stays sent, and the first answer
stays the first. -/
structure Later (req req' : RequestImpl) : Prop where
  msgid : req'.msgid = req.msgid
  method : req'.method = req.method
  params : req'.params = req.params
  sentBy : req'.sentBy = req.sentBy
  sent : req.ms = false → req'.ms = false
  first : ∀ a, req.answers.head? = some a → req'.answers.head? = some a

theorem Later.refl (req : RequestImpl) : Later req req := ⟨rfl, rfl, rfl, rfl, id, fun _ => id⟩

theorem later_call (req : RequestImpl) (res err : Object) : Later req (req.call res err).1 := by
  have hhead (a : Object × Object) (ha : req.answers.head? = some a) :
      (req.answers ++ [(res, err)]).head? = some a := by
    rw [List.head?_append, ha]
    rfl
  unfold call
  split
  · exact ⟨rfl, rfl, rfl, rfl, id, hhead⟩
  · exact ⟨rfl, rfl, rfl, rfl, fun _ => rfl, hhead⟩

/-- Once answered, a request is sent. -/
theorem call_ms (req : RequestImpl) (res err : Object) : (req.call res err).1.ms = false := by
  unfold call
  split
  · next hs => simpa [isSent] using hs
  · rfl

/-- Each request of a list is still there, later, after one of them has become a later one. -/
theorem Later.getElem?_set {req req' : RequestImpl} (h : Later req req') {reqs : List RequestImpl}
    {r : Nat} (hr : reqs[r]? = some req) {r' : Nat} {q : RequestImpl} (hq : reqs[r']? = some q) :
    ∃ q', (reqs.set r req')[r']? = some q' ∧ q.Later q' := by
  by_cases heq : r = r'
  · subst heq
    rw [hr] at hq
    cases hq
    exact ⟨req', List.getElem?_set_self (List.getElem?_eq_some_iff.1 hr).1, h⟩
  · exact ⟨q, by rw [List.getElem?_set_ne heq]; exact hq, .refl q⟩

/-! ## Requests of several peers -/

section
variable {ε : Type} {requests : List (RequestImpl × ε)} {peer : ε} {r : Nat} {req : RequestImpl}

/-- A request from a peer has been answered, for the first time with `a`. -/
def Answered (requests : List (RequestImpl × ε)) (peer : ε) (msgid : MsgId) (a : Object × Object) :
    Prop :=
  ∃ req, (req, peer) ∈ requests ∧ req.msgid = msgid ∧ req.answers.head? = some a

/-- The answers of a list of requests of which one has got another answer. -/
theorem Answered.set {peer' : ε} {msgid : MsgId} {a : Object × Object}
    (ha : Answered requests peer msgid a) {req' : RequestImpl}
    (hr : requests[r]? = some (req, peer')) (hl : req.Later req') :
    Answered (requests.set r (req', peer')) peer msgid a := by
  obtain ⟨q, hq, hid, hans⟩ := ha
  obtain ⟨i, hi⟩ := List.mem_iff_getElem?.1 hq
  rcases eq_or_ne r i with rfl | hne
  · rw [hr] at hi
    cases hi
    exact ⟨req', List.mem_of_getElem? (List.getElem?_set_self (List.getElem?_eq_some_iff.1 hr).1),
      hl.msgid.trans hid, hl.first a hans⟩
  · exact ⟨q, List.mem_of_getElem? ((List.getElem?_set_ne hne).trans hi), hid, hans⟩

/-- Requests that have not been answered are not seen. -/
theorem answered_append {new : List (RequestImpl × ε)} (hnew : ∀ q ∈ new, q.1.answers = [])
    {msgid : MsgId} {a : Object × Object} :
    Answered (requests ++ new) peer msgid a ↔ Answered requests peer msgid a := by
  refine exists_congr fun req => ?_
  rw [List.mem_append]
  constructor
  · rintro ⟨hreq | hreq, hid, ha⟩
    · exact ⟨hreq, hid, ha⟩
    · rw [show req.answers = [] from hnew _ hreq] at ha
      cases ha
  · rintro ⟨hreq, hid, ha⟩
    exact ⟨.inl hreq, hid, ha⟩

/-- What has been answered after another answer to a request. -/
theorem answered_set (hr : requests[r]? = some (req, peer)) (hunsent : req.ms = true ↔ req.answers = [])
    (res err : Object) {peer' : ε} {msgid : MsgId} {a : Object × Object} :
    Answered (requests.set r ((req.call res err).1, peer)) peer' msgid a ↔
      Answered requests peer' msgid a ∨
        req.ms = true ∧ peer' = peer ∧ req.msgid = msgid ∧ a = (res, err) := by
  have hlater := req.later_call res err
  have hmem := List.mem_of_getElem? (List.getElem?_set_self (a := ((req.call res err).1, peer))
    (List.getElem?_eq_some_iff.1 hr).1)
  constructor
  · rintro ⟨q, hq, hid, ha⟩
    rcases List.mem_or_eq_of_mem_set hq with hq | he
    · exact .inl ⟨q, hq, hid, ha⟩
    · cases he
      rw [hlater.msgid] at hid
      cases hans : req.answers with
      | nil =>
        refine .inr ⟨hunsent.2 hans, rfl, hid, ?_⟩
        simpa [RequestImpl.call, RequestImpl.isSent, hunsent.2 hans, hans, eq_comm] using ha
      | cons b bs =>
        -- the first answer stays what it is
        refine .inl ⟨req, List.mem_of_getElem? hr, hid, ?_⟩
        have hfirst := hlater.first b (by rw [hans]; rfl)
        rw [hfirst] at ha
        rw [hans, List.head?_cons, ha]
  · rintro (ha | ⟨hms, rfl, rfl, rfl⟩)
    · exact ha.set hr hlater
    · refine ⟨_, hmem, hlater.msgid, ?_⟩
      simp [RequestImpl.call, RequestImpl.isSent, hms, hunsent.1 hms]

/-- Whether a request has been answered is still what `m_ms` says. -/
theorem unsent_set (h : ∀ q ∈ requests, q.1.ms = true ↔ q.1.answers = []) (res err : Object) :
    ∀ q ∈ requests.set r ((req.call res err).1, peer), q.1.ms = true ↔ q.1.answers = [] := by
  intro q hq
  rcases List.mem_or_eq_of_mem_set hq with hq | rfl
  · exact h q hq
  · refine iff_of_false (by simp [RequestImpl.call_ms]) ?_
    unfold RequestImpl.call
    split <;> simp

/-- A response that is sent has the first answer to its request. -/
theorem answered_of_call (h : ∀ q ∈ requests, q.1.ms = true ↔ q.1.answers = [])
    (hr : requests[r]? = some (req, peer)) {res err msg : Object}
    (hmsg : (req.call res err).2 = some msg) : msg = (Message.response req.msgid res err).pack ∧
      Answered (requests.set r ((req.call res err).1, peer)) peer req.msgid (res, err) := by
  have hunsent := h _ (List.mem_of_getElem? hr)
  cases hms : req.ms with
  | false => simp [RequestImpl.call, RequestImpl.isSent, hms] at hmsg
  | true =>
    refine ⟨?_, (answered_set hr hunsent res err).2 (.inr ⟨hms, rfl, rfl, rfl⟩)⟩
    simpa [RequestImpl.call, RequestImpl.isSent, hms, eq_comm] using hmsg

end

end RequestImpl

end MsgpackRpc
