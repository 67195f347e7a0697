import MsgpackRpc.Session.Reqtable

/-!
# Client sessions

`session_impl` (`session.cc`): the counter of message ids, the table of outstanding requests and the
operations that take futures out of it, `on_response`, `step_timer_handler`, `on_connect_failed` and
`on_system_error`. Each of them first takes futures out of the table, under the mutex of the table,
and then calls `set_result` on them one after the other. The model keeps the two apart: an operation
returns the completions that its caller then makes, and `setResult` makes one.

Ghost fields record what the properties of sessions speak of: the completions that were handed out
with the futures taken from the table, the futures whose entry was overwritten, and the calls of
`set_result` and of the callbacks. The origin of a completion is a parameter, so that a model of a
transport can say which of its handlers an operation belongs to.
-/

namespace MsgpackRpc

/-- A call of `session::send_request` (`session.h:73`). -/
structure Call where
  msgid : MsgId
  method : Object
  params : Object
  deriving DecidableEq, Repr

/-- A call of `set_result` to be made or made. `extracted` is the number of futures inserted so far
when the future was taken out of the table; it is `none` if it was not. -/
structure Completion (ι : Type) where
  future : FutureId
  origin : ι
  extracted : Option Nat
  result : Object
  error : Object
  deriving DecidableEq, Repr

/-- The run of a callback, with what it found in the future. -/
structure CallbackRun where
  callback : Callback
  future : FutureId
  result : Object
  error : Object
  deriving DecidableEq, Repr

/-- `session_impl`, with all futures that it has constructed. -/
structure Session (ι : Type) where
  msgidRr : MsgId := 1
  timeout : BitVec 32 := 30
  reqtable : Reqtable := ∅
  futures : List Future := []
  calls : List Call := []
  posted : List (Callback × FutureId) := []
  handed : List (Completion ι) := []
  displaced : List FutureId := []
  completions : List (Completion ι) := []
  ran : List CallbackRun := []

namespace Session

section
variable {ι : Type}

/-- `session_impl::next_msgid` (`session.cc:100`): `atomic_increment` returns the old value and
wraps around. -/
def nextMsgid (s : Session ι) : MsgId × Session ι :=
  (s.msgidRr, { s with msgidRr := s.msgidRr + 1 })

/-- `session::send_request` (`session.h:74`) up to the call of `send_request_impl`: the id is
allocated and the message is packed. -/
def sendRequest (s : Session ι) (method params : Object) : Session ι :=
  let (msgid, s) := s.nextMsgid
  { s with calls := s.calls ++ [⟨msgid, method, params⟩] }

/-- `session_impl::send_request_impl` (`session.cc:67`) for a call, up to `send_data`: the future is
constructed and inserted. -/
def sendRequestImpl (s : Session ι) (c : Nat) (call : Call) : Session ι :=
  let f := s.futures.length
  { s with
    futures := s.futures ++ [{ msgid := call.msgid, call := c, timeout := s.timeout }]
    reqtable := s.reqtable.insert call.msgid f
    displaced := s.displaced ++ (s.reqtable.lookup call.msgid).toList }

/-- The completions of the futures that an operation has taken out of the table. -/
def hand (s : Session ι) (origin : ι) (result error : Object) (fs : List FutureId) :
    List (Completion ι) :=
  fs.map fun f => ⟨f, origin, some s.futures.length, result, error⟩

/-- `session_impl::on_response` (`session.cc:167`). -/
def onResponse (s : Session ι) (origin : ι) (msgid : MsgId) (result error : Object) :
    Session ι × List (Completion ι) :=
  match s.reqtable.take msgid with
  | (none, _) => (s, [])
  | (some f, reqtable) =>
    let cs := s.hand origin result error [f]
    ({ s with reqtable, handed := s.handed ++ cs }, cs)

/-- The body of `on_connect_failed` and `on_system_error`: every future in the table is completed
with an error. -/
def sweep (s : Session ι) (origin : ι) (error : Object) (it : List Reqtable.Entry) :
    Session ι × List (Completion ι) :=
  let (all, reqtable) := s.reqtable.takeAll it
  let cs := s.hand origin .nil error all
  ({ s with reqtable, handed := s.handed ++ cs }, cs)

/-- `session_impl::on_connect_failed` (`session.cc:144`). -/
def onConnectFailed (s : Session ι) (origin : ι) (it : List Reqtable.Entry) :
    Session ι × List (Completion ι) :=
  s.sweep origin CONNECT_ERROR it

/-- `session_impl::on_system_error` (`session.cc:155`). -/
def onSystemError (s : Session ι) (origin : ι) (it : List Reqtable.Entry) :
    Session ι × List (Completion ι) :=
  s.sweep origin CONNECT_ERROR it

/-- `session_impl::step_timer_handler` (`session.cc:117`), called without an error. -/
def stepTimerHandler (s : Session ι) (origin : ι) (it : List Reqtable.Entry) :
    Session ι × List (Completion ι) :=
  let (timedout, reqtable, futures) := s.reqtable.stepTimeout s.futures it
  let cs := s.hand origin .nil TIMEOUT_ERROR timedout
  ({ s with reqtable, futures, handed := s.handed ++ cs }, cs)

/-- A call of `set_result`, and the callback that it runs. -/
def setResult (s : Session ι) (c : Completion ι) : Session ι × Option Callback :=
  let s := { s with completions := s.completions ++ [c] }
  match s.futures[c.future]? with
  | none => (s, none)
  | some f =>
    let (f', callback) := f.setResult c.result c.error
    ({ s with
      futures := s.futures.set c.future f'
      ran := s.ran ++
        callback.toList.map fun func => ⟨func, c.future, f'.result, f'.error⟩ }, callback)

/-- `future::attach_callback` on one of the session's futures. -/
def attachCallback (s : Session ι) (f : FutureId) (func : Callback) : Session ι :=
  match s.futures[f]? with
  | none => s
  | some fut =>
    let (fut', submitted) := fut.attachCallback func
    { s with
      futures := s.futures.set f fut'
      posted := s.posted ++ submitted.toList.map fun func => (func, f) }

/-- The loop runs the next of the callbacks submitted to it. -/
def runPosted (s : Session ι) : Session ι :=
  match s.posted with
  | [] => s
  | (func, f) :: posted =>
    match s.futures[f]? with
    | none => { s with posted }
    | some fut => { s with posted, ran := s.ran ++ [⟨func, f, fut.result, fut.error⟩] }

/-- `session::set_timeout` (`session_impl.h:54`). -/
def setTimeout (s : Session ι) (sec : BitVec 32) : Session ι := { s with timeout := sec }

/-! ## What the operations leave alone -/

/-- Completing a future changes the future, and the records of completions and callbacks. -/
theorem setResult_frame (s : Session ι) (c : Completion ι) :
    (s.setResult c).1 = { s with
      futures := (s.setResult c).1.futures
      completions := s.completions ++ [c]
      ran := (s.setResult c).1.ran } := by
  unfold setResult
  dsimp only
  split <;> rfl

/-- Attaching a callback changes the future, and what is submitted to the loop. -/
theorem attachCallback_frame (s : Session ι) (f : FutureId) (func : Callback) :
    s.attachCallback f func = { s with
      futures := (s.attachCallback f func).futures
      posted := (s.attachCallback f func).posted } := by
  unfold attachCallback
  split <;> rfl

/-- Running a submitted callback is recorded. -/
theorem runPosted_frame (s : Session ι) :
    s.runPosted = { s with posted := s.runPosted.posted, ran := s.runPosted.ran } := by
  unfold runPosted
  split
  · rfl
  · split <;> rfl

/-- Completing a future changes it as `future_impl::set_result` does. -/
theorem setResult_futures {β : Type} {g : Future → β}
    (hg : ∀ (f : Future) (result error : Object), g (f.setResult result error).1 = g f)
    (s : Session ι) (c : Completion ι) :
    (s.setResult c).1.futures.map g = s.futures.map g := by
  unfold setResult
  dsimp only
  split
  · rfl
  · next f hf => exact map_set_of_eq hf (hg f _ _)

/-- Completing a future stores what the completion says. -/
theorem setResult_outcomes (s : Session ι) (c : Completion ι) :
    (s.setResult c).1.futures.map Future.outcome =
      (s.futures.map Future.outcome).set c.future (false, c.result, c.error) := by
  unfold setResult
  dsimp only
  rcases hf : s.futures[c.future]? with _ | f
  · rw [List.set_eq_of_length_le (by simpa using hf)]
  · rw [List.map_set]
    rfl

/-- A future that a callback is attached to changes in nothing else. -/
theorem attachCallback_futures {β : Type} {g : Future → β}
    (hg : ∀ (f : Future) (func : Option Callback), g { f with callback := func } = g f)
    (s : Session ι) (f : FutureId) (func : Callback) :
    (s.attachCallback f func).futures.map g = s.futures.map g := by
  unfold attachCallback
  split
  · rfl
  · next fut hf =>
    refine map_set_of_eq hf ?_
    unfold Future.attachCallback
    split
    · exact hg fut _
    · rfl

/-! ## Taking futures out of the table -/

/-- What the operations that complete futures have in common: `cs` are completions of futures that
were in the table and are not any more, and nothing else changes but the time that futures have
left. -/
structure Hands (s s' : Session ι) (cs : List (Completion ι)) : Prop where
  values : s.reqtable.values = ↑(cs.map Completion.future) + s'.reqtable.values
  lookup : ∀ k f, s'.reqtable.lookup k = some f → s.reqtable.lookup k = some f
  extracted : ∀ c ∈ cs, c.extracted = some s.futures.length
  futures : s'.futures.map Future.untimed = s.futures.map Future.untimed
  frame : s' = { s with
    reqtable := s'.reqtable, futures := s'.futures, handed := s.handed ++ cs }

/-- The futures handed out were in the table. -/
theorem Hands.mem_values {s s' : Session ι} {cs : List (Completion ι)} (h : Hands s s' cs)
    {c : Completion ι} (hc : c ∈ cs) : c.future ∈ s.reqtable.values := by
  rw [h.values, Multiset.mem_add]
  exact .inl (List.mem_map_of_mem hc)

/-- The futures left in the table were there before. -/
theorem Hands.values_subset {s s' : Session ι} {cs : List (Completion ι)} (h : Hands s s' cs) :
    s'.reqtable.values ⊆ s.reqtable.values := by
  intro f hf
  rw [h.values, Multiset.mem_add]
  exact .inr hf

theorem Hands.handed {s s' : Session ι} {cs : List (Completion ι)} (h : Hands s s' cs) :
    s'.handed = s.handed ++ cs := by
  rw [h.frame]

theorem hand_future (s : Session ι) (origin : ι) (result error : Object) (fs : List FutureId) :
    (s.hand origin result error fs).map Completion.future = fs := by
  rw [hand, List.map_map]
  exact List.map_id fs

theorem hand_extracted {s : Session ι} {origin : ι} {result error : Object} {fs : List FutureId}
    {c : Completion ι} (h : c ∈ s.hand origin result error fs) :
    c.extracted = some s.futures.length := by
  obtain ⟨f, -, rfl⟩ := List.mem_map.1 h
  rfl

/-- The completions that an operation hands out are its own. -/
theorem hand_origin {s : Session ι} {origin : ι} {result error : Object} {fs : List FutureId}
    {c : Completion ι} (h : c ∈ s.hand origin result error fs) :
    c.origin = origin ∧ c.result = result ∧ c.error = error := by
  obtain ⟨f, -, rfl⟩ := List.mem_map.1 h
  exact ⟨rfl, rfl, rfl⟩

/-- The completion that `on_response` hands out is that of the future under the id. -/
theorem onResponse_origin {s : Session ι} {origin : ι} {msgid : MsgId} {result error : Object}
    {c : Completion ι} (h : c ∈ (s.onResponse origin msgid result error).2) :
    (c.origin = origin ∧ c.result = result ∧ c.error = error) ∧
      s.reqtable.lookup msgid = some c.future := by
  rw [onResponse, Reqtable.take] at h
  rcases hl : s.reqtable.lookup msgid with _ | f
  · simp [hl] at h
  · rw [hl] at h
    refine ⟨hand_origin h, ?_⟩
    obtain rfl := List.mem_singleton.1 h
    rfl

theorem hands_onResponse (s : Session ι) (origin : ι) (msgid : MsgId) (result error : Object) :
    Hands s (s.onResponse origin msgid result error).1
      (s.onResponse origin msgid result error).2 := by
  rw [onResponse, Reqtable.take]
  rcases h : s.reqtable.lookup msgid with _ | f
  · exact ⟨by simp, fun _ _ h => h, by simp, rfl, by simp⟩
  · refine ⟨?_, fun _ _ h => Reqtable.lookup_of_erase h, fun _ => hand_extracted, rfl, rfl⟩
    rw [hand_future, Reqtable.values_of_lookup h]
    rfl

theorem hands_sweep (s : Session ι) (origin : ι) (error : Object) {it : List Reqtable.Entry}
    (h : it.Perm s.reqtable.entries) :
    Hands s (s.sweep origin error it).1 (s.sweep origin error it).2 ∧
      (s.sweep origin error it).1.reqtable = ∅ := by
  have ht := Reqtable.takeAll_eq h
  have hv := Reqtable.takeAll_values (Reqtable.lookup_of_iterators h).1
    (Reqtable.lookup_of_iterators h).2
  simp only [sweep, ht] at hv ⊢
  refine ⟨⟨?_, ?_, fun _ => hand_extracted, rfl, rfl⟩, trivial⟩
  · rw [hand_future, hv]
  · intro k f hk
    rw [AList.lookup_empty] at hk
    cases hk

theorem hands_stepTimerHandler (s : Session ι) (origin : ι) {it : List Reqtable.Entry}
    (h : it.Perm s.reqtable.entries) :
    Hands s (s.stepTimerHandler origin it).1 (s.stepTimerHandler origin it).2 := by
  obtain ⟨h1, h2, h3⟩ := Reqtable.stepTimeout_spec s.futures
    (Reqtable.lookup_of_iterators h).1 (Reqtable.lookup_of_iterators h).2
  exact ⟨by rw [stepTimerHandler, hand_future, h1], h2, fun _ => hand_extracted, h3, rfl⟩

/-! ## Futures that are ready -/

/-- The future has been completed. -/
def Ready (s : Session ι) (f : FutureId) : Prop :=
  (s.futures.map Future.session)[f]? = some false

variable {s s' : Session ι} {f : FutureId}

theorem Ready.lt (h : Ready s f) : f < s.futures.length := by
  obtain ⟨hlt, -⟩ := List.getElem?_eq_some_iff.1 h
  simpa using hlt

theorem setResult_length (s : Session ι) (c : Completion ι) :
    (s.setResult c).1.futures.length = s.futures.length := by
  simpa using congrArg List.length (setResult_outcomes s c)

theorem setResult_session (s : Session ι) (c : Completion ι) :
    (s.setResult c).1.futures.map Future.session =
      (s.futures.map Future.session).set c.future false := by
  have h := congrArg (List.map Prod.fst) (setResult_outcomes s c)
  simpa [List.map_set, Function.comp_def, Future.outcome] using h

/-- A future is ready once it is completed. -/
theorem ready_setResult {c : Completion ι} (hlt : c.future < s.futures.length) :
    Ready (s.setResult c).1 c.future := by
  rw [Ready, setResult_session]
  exact List.getElem?_set_self (by simpa using hlt)

/-- Nothing undoes that. -/
theorem Ready.setResult (h : Ready s f) (c : Completion ι) : Ready (s.setResult c).1 f := by
  by_cases he : c.future = f
  · subst he
    exact ready_setResult h.lt
  · rw [Ready, setResult_session, List.getElem?_set_ne he]
    exact h

theorem Ready.attachCallback (h : Ready s f) (g : FutureId) (func : Callback) :
    Ready (s.attachCallback g func) f := by
  rw [Ready, attachCallback_futures (fun _ _ => rfl) s g func]
  exact h

theorem Ready.runPosted (h : Ready s f) : Ready s.runPosted f := by
  rw [Ready, runPosted_frame]
  exact h

theorem Ready.sendRequestImpl (h : Ready s f) (c : Nat) (call : Call) :
    Ready (s.sendRequestImpl c call) f := by
  rw [Ready, Session.sendRequestImpl, List.map_append,
    List.getElem?_append_left (by simpa using h.lt)]
  exact h

theorem Ready.hands (h : Ready s f) {cs : List (Completion ι)} (hs : Hands s s' cs) :
    Ready s' f := by
  rw [Ready, Future.map_eq_of_untimed (fun _ => rfl) hs.futures]
  exact h

end

end Session

end MsgpackRpc
