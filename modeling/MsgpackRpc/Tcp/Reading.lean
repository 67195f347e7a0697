import MsgpackRpc.Link.Correlation
import MsgpackRpc.Tcp.Transmission

/-!
# What a TCP client reads is what its futures are given

A response goes a long way through the client: a read completes with it, `on_read` is called later,
perhaps after the connection has been closed and another one made, the responses of the read are
handled one after the other, and the future that is found under the id is completed. Nothing is made
up on the way. `Tells` is what one step does to the responses and to what the futures store, and
`Heard` the invariant: whatever is true of the responses that the reads bring is true of those that
complete futures, each of which is under the id of its own call.
-/

namespace MsgpackRpc

open Threads

namespace Tcp

/-- The responses that the bytes of a read complete. -/
def ReadResult.responses : ReadResult → List (MsgId × Object × Object)
  | .data responses _ => responses
  | .error _ => []

/-- The responses of the reads that have completed and whose handler is queued. -/
def Client.arrived (s : Client) : List (MsgId × Object × Object) :=
  s.completed.flatMap fun p => p.2.responses

/-- The response that an operation hands to the session. -/
def Op.response : Op → Option (MsgId × Object × Object)
  | .onResponse msgid result error => some (msgid, result, error)
  | _ => none

/-- The responses that an operation brings. -/
def Op.received : Op → List (MsgId × Object × Object)
  | .readCompletes _ result => result.responses
  | _ => []

/-- What executing `op` does to the responses and the futures: only `set_result` changes what a future
stores, a future is taken out of the table with a response only by its `on_response`, and the
responses that are there were there before or have just been read. -/
structure Tells (s : Client) (op : Op) (s' : Client) (k : List Op) : Prop where
  outcomes : s.session.futures.map Future.outcome <+: s'.session.futures.map Future.outcome ∨
    ∃ d, op = .setResult d ∧ s'.session = (s.session.setResult d).1
  handed : op ≠ .sweep .response → ∀ e ∈ s'.session.handed, e.origin = .response →
    e ∈ s.session.handed ∨ ∃ msgid, op = .onResponse msgid e.result e.error ∧
      s.session.reqtable.lookup msgid = some e.future
  responses : ∀ r, r ∈ s'.arrived ∨ r ∈ k.filterMap Op.response → r ∈ s.arrived ∨ r ∈ op.received

section
variable {s s' : Client} {op : Op} {x : Choice} {k : List Op}

/-- Starting a thread hands no response to the session. -/
theorem responses_of_entry {calls : List Op} (h : ∀ op ∈ calls, op.entry = true) :
    calls.filterMap Op.response = [] := by
  refine List.filterMap_eq_nil_iff.2 fun op hop => ?_
  have hentry := h op hop
  cases op <;> first | rfl | cases hentry

theorem callbackCalls_response {callback : Option Callback} {calls : List Op}
    (h : callbackCalls x callback = some calls) : calls.filterMap Op.response = [] := by
  cases callback with
  | none =>
    cases h
    rfl
  | some func =>
    rw [callbackCalls] at h
    split at h
    · next hall =>
      cases h
      exact responses_of_entry (List.all_eq_true.1 hall)
    · cases h

/-- A step that leaves the session alone. -/
theorem Tells.plain (hsession : s'.session = s.session) (harrived : s'.arrived ⊆ s.arrived)
    (hk : k.filterMap Op.response = []) : Tells s op s' k := by
  refine ⟨.inl (by simp [hsession]), fun _ e he _ => .inl (hsession ▸ he), ?_⟩
  rintro r (hr | hr)
  · exact .inl (harrived hr)
  · rw [hk] at hr
    cases hr

/-- A step that changes the session and hands out nothing with a response. -/
theorem Tells.session {session : Session Origin}
    (hout : s.session.futures.map Future.outcome <+: session.futures.map Future.outcome)
    (hhanded : op ≠ .sweep .response → ∀ e ∈ session.handed, e.origin = .response →
      e ∈ s.session.handed)
    (hk : k.filterMap Op.response = []) : Tells s op { s with session } k := by
  refine ⟨.inl hout, fun hop e he ho => .inl (hhanded hop e he ho), ?_⟩
  rintro r (hr | hr)
  · exact .inl hr
  · rw [hk] at hr
    cases hr

/-- A step that takes futures out of the table without a response. -/
theorem Tells.hands {session : Session Origin} {cs : List (Completion Origin)}
    (hs : s.session.Hands session cs) (hcs : op ≠ .sweep .response → ∀ e ∈ cs, e.origin ≠ .response) :
    Tells s op { s with session } (cs.map .setResult) := by
  have hout := Future.map_eq_of_untimed (g := Future.outcome) (fun _ => rfl) hs.futures
  refine .session (hout ▸ List.prefix_refl _) ?_ ?_
  · intro hop e he ho
    rw [hs.handed] at he
    exact (List.mem_append.1 he).resolve_right fun he => hcs hop e he ho
  · rw [List.filterMap_map]
    exact List.filterMap_eq_nil_iff.2 fun _ _ => rfl

/-- The responses of a read are handed to the session when its handler runs. -/
theorem responses_onReadResult (n : Nat) (result : ReadResult) :
    (onReadResult n result).filterMap Op.response = result.responses := by
  cases result with
  | error err => rfl
  | data responses failed =>
    have hmap : (responses.map fun r => Op.onResponse r.1 r.2.1 r.2.2).filterMap Op.response =
        responses := by
      rw [List.filterMap_map]
      exact List.filterMap_some
    rw [onReadResult, List.filterMap_append, hmap]
    cases failed <;> exact List.append_nil _

theorem arrived_eraseIdx (s : Client) (i : Nat) :
    ({ s with completed := s.completed.eraseIdx i } : Client).arrived ⊆ s.arrived := by
  intro r hr
  obtain ⟨p, hp, hr⟩ := List.mem_flatMap.1 hr
  exact List.mem_flatMap.2 ⟨p, List.mem_of_mem_eraseIdx hp, hr⟩

theorem arrived_start (s : Client) (n : Nat) : (s.start n).arrived ⊆ s.arrived := by
  unfold Client.start
  split <;> simp [Client.arrived, ReadResult.responses]

theorem arrived_closeSocket (s : Client) (o : Origin) : (s.closeSocket o).arrived ⊆ s.arrived := by
  intro r hr
  obtain ⟨p, hp, hr⟩ := List.mem_flatMap.1 hr
  rcases List.mem_append.1 hp with hp | hp
  · exact List.mem_flatMap.2 ⟨p, hp, hr⟩
  · obtain ⟨n, -, rfl⟩ := List.mem_map.1 hp
    cases hr

theorem exec_tells (h : machine.exec s op x = some (s', k)) : Tells s op s' k := by
  cases op with
  | sendRequest method params =>
    cases h
    exact .session (List.prefix_refl _) (fun _ _ he _ => he) rfl
  | attachCallback f func =>
    cases h
    have hout := Session.attachCallback_futures (g := Future.outcome) (fun _ _ => rfl) s.session f func
    refine .session (hout ▸ List.prefix_refl _) (fun _ e he _ => ?_) rfl
    rwa [Session.attachCallback_frame] at he
  | onRead i =>
    obtain ⟨⟨n, result⟩, hi, he⟩ := Option.map_eq_some_iff.1 h
    cases he
    refine ⟨.inl (List.prefix_refl _), fun _ _ he _ => .inl he, ?_⟩
    rintro r (hr | hr)
    · exact .inl (arrived_eraseIdx s i hr)
    · rw [responses_onReadResult] at hr
      exact .inl (List.mem_flatMap.2 ⟨_, List.mem_of_getElem? hi, hr⟩)
  | onTimeout i =>
    obtain ⟨a, -, he⟩ := Option.map_eq_some_iff.1 h
    cases he
    refine .plain rfl (List.Subset.refl _) ?_
    split <;> rfl
  | stepTimerHandler =>
    simp only [machine, Client.walk] at h
    split at h
    · next hp =>
      cases h
      refine .hands (Session.hands_stepTimerHandler s.session .stepTimer hp) fun _ e he => ?_
      rw [(Session.hand_origin he).1]
      simp
    · cases h
  | runPosted =>
    obtain ⟨calls, hc, he⟩ := Option.map_eq_some_iff.1 h
    cases he
    have hout : s.session.runPosted.futures = s.session.futures := by
      rw [Session.runPosted_frame]
    refine .session (hout ▸ List.prefix_refl _) (fun _ e he _ => ?_) (callbackCalls_response hc)
    rwa [Session.runPosted_frame] at he
  | readCompletes i result =>
    obtain ⟨n, -, he⟩ := Option.map_eq_some_iff.1 h
    cases he
    refine ⟨.inl (List.prefix_refl _), fun _ _ he _ => .inl he, ?_⟩
    rintro r (hr | hr)
    · rw [Client.arrived, List.flatMap_append, List.flatMap_singleton] at hr
      exact List.mem_append.1 hr
    · cases hr
  | timerExpires =>
    simp only [machine] at h
    split at h
    · cases h
      exact .plain rfl (List.Subset.refl _) rfl
    · cases h
  | tick =>
    cases h
    exact .plain rfl (List.Subset.refl _) rfl
  | sendRequestImpl c =>
    obtain ⟨call, hc, he⟩ := Option.map_eq_some_iff.1 h
    cases he
    refine .session ?_ (fun _ _ he _ => he) rfl
    simp only [Session.sendRequestImpl, List.map_append]
    exact List.prefix_append _ _
  | flush =>
    simp only [machine] at h
    split at h
    · next hall =>
      cases h
      refine .plain rfl (List.Subset.refl _) (responses_of_entry fun op hop => ?_)
      exact Op.entry_of_handler (List.all_eq_true.1 hall op hop)
    · cases h
  | sendData c =>
    simp only [machine] at h
    split at h
    · cases h
    · split at h <;>
      · cases h
        exact .plain rfl (List.Subset.refl _) rfl
  | connect c =>
    cases h
    exact .plain rfl (List.Subset.refl _) rfl
  | tryConnect c =>
    simp only [machine] at h
    split at h
    · cases h
      exact .plain rfl (List.Subset.refl _) rfl
    · split at h <;>
      · cases h
        exact .plain rfl (List.Subset.refl _) rfl
  | socketConnect c =>
    simp only [machine] at h
    split at h <;>
    · cases h
      exact .plain rfl (List.Subset.refl _) rfl
  | onConnectSuccess c n =>
    cases h
    exact .plain rfl (List.Subset.refl _) rfl
  | setNoDelay c n =>
    cases h
    refine .plain rfl (List.Subset.refl _) ?_
    split <;> rfl
  | onConnectFailed c err =>
    simp only [machine] at h
    split at h <;>
    · cases h
      exact .plain rfl (List.Subset.refl _) rfl
  | checkConnected c =>
    cases h
    refine .plain rfl (List.Subset.refl _) ?_
    split <;> rfl
  | unlock =>
    cases h
    exact .plain rfl (List.Subset.refl _) rfl
  | checkWrite c =>
    cases h
    refine .plain rfl (List.Subset.refl _) ?_
    split <;> rfl
  | write c =>
    simp only [machine] at h
    split at h <;>
    · cases h
      exact .plain rfl (List.Subset.refl _) rfl
  | checkExpired a =>
    simp only [machine] at h
    split at h <;>
    · cases h
      exact .plain rfl (List.Subset.refl _) rfl
  | start n =>
    cases h
    refine .plain ?_ (arrived_start s n) rfl
    unfold Client.start
    split <;> rfl
  | sweep o =>
    simp only [machine, Client.walk] at h
    split at h
    · next hp =>
      cases h
      refine .hands (Session.hands_sweep s.session o CONNECT_ERROR hp).1 fun hop e he ho => hop ?_
      rw [← (Session.hand_origin he).1, ho]
    · cases h
  | checkClose o =>
    cases h
    refine .plain rfl (List.Subset.refl _) ?_
    split <;> rfl
  | close o =>
    cases h
    exact .plain rfl (arrived_closeSocket s o) rfl
  | onResponse msgid result error =>
    cases h
    have hhands := Session.hands_onResponse s.session .response msgid result error
    have hout : (s.session.onResponse .response msgid result error).1.futures.map Future.outcome =
        s.session.futures.map Future.outcome :=
      Future.map_eq_of_untimed (fun _ => rfl) hhands.futures
    refine ⟨.inl (hout ▸ List.prefix_refl _), ?_, ?_⟩
    · intro _ e he _
      have he : e ∈ (s.session.onResponse .response msgid result error).1.handed := he
      rw [hhands.handed] at he
      refine (List.mem_append.1 he).imp_right fun he => ?_
      obtain ⟨⟨-, hresult, herror⟩, hl⟩ := Session.onResponse_origin he
      exact ⟨msgid, by rw [hresult, herror], hl⟩
    · rintro r (hr | hr)
      · exact .inl hr
      · rw [List.filterMap_map] at hr
        simp [Function.comp_def, Op.response] at hr
  | setResult d =>
    obtain ⟨calls, hc, he⟩ := Option.map_eq_some_iff.1 h
    cases he
    have hhanded : (s.session.setResult d).1.handed = s.session.handed := by
      rw [Session.setResult_frame]
    refine ⟨.inr ⟨d, rfl, rfl⟩, fun _ e he _ => .inl ?_, ?_⟩
    · rw [← hhanded]
      exact he
    · rintro r (hr | hr)
      · exact .inl hr
      · rw [callbackCalls_response hc] at hr
        cases hr

/-! ## The session -/

variable {K : List Task} {T : Multiset Task}

/-- Calls and futures are only added. -/
theorem grows_step (h : Steps s x op s' K) : s.session.calls <+: s'.session.calls ∧
    s.session.futures.map Future.call <+: s'.session.futures.map Future.call := by
  have hsame {session : Session Origin} (hcalls : session.calls = s.session.calls)
      (hfut : session.futures.map Future.call = s.session.futures.map Future.call) :
      s.session.calls <+: session.calls ∧
        s.session.futures.map Future.call <+: session.futures.map Future.call := by
    rw [hcalls, hfut]
    exact ⟨List.prefix_refl _, List.prefix_refl _⟩
  cases h with
  | quiet hq => exact hsame hq.same.calls hq.same.futures
  | sendRequest method params => exact ⟨List.prefix_append _ _, List.prefix_refl _⟩
  | insert =>
    refine ⟨List.prefix_refl _, ?_⟩
    simp only [Session.sendRequestImpl, List.map_append]
    exact List.prefix_append _ _
  | sweep hs | take _ hs => exact hsame (same_hands hs).calls (same_hands hs).futures
  | complete d => exact hsame (same_setResult s d).calls (same_setResult s d).futures
  | found | opened | established | gaveUp | dropped | wrote | writeFailed | readFailed | expired |
    skipped | close => exact hsame rfl rfl

/-- A session whose calls are fewer than 2^32, with the tasks that concern it. -/
abbrev Client.Knows (s : Client) (T : Multiset Task) : Prop :=
  Link.Client s.session (T.filterMap Task.completion) (T.filterMap Task.insertion)

theorem knows_insert {c : Nat} : s.Knows (↑[Task.insert c] + T) ↔
    Link.Client s.session (T.filterMap Task.completion) (c ::ₘ T.filterMap Task.insertion) := by
  have hc : [Task.insert c].filterMap Task.completion = [] := rfl
  have hi : [Task.insert c].filterMap Task.insertion = [c] := rfl
  rw [Client.Knows, filterMap_tasks, filterMap_tasks, hc, hi, Multiset.coe_nil, zero_add,
    Multiset.coe_singleton, Multiset.singleton_add]

theorem knows_complete {cs : List (Completion Origin)} : s.Knows (↑(cs.map Task.complete) + T) ↔
    Link.Client s.session (↑cs + T.filterMap Task.completion) (T.filterMap Task.insertion) := by
  rw [Client.Knows, filterMap_tasks, filterMap_tasks, completions_map, insertions_map,
    Multiset.coe_nil, zero_add]

/-- Other tasks do not concern it. -/
theorem knows_add_iff (hc : K.filterMap Task.completion = []) (hi : K.filterMap Task.insertion = []) :
    s.Knows (↑K + T) ↔ s.Knows T := by
  rw [Client.Knows, filterMap_tasks, filterMap_tasks, hc, hi, Multiset.coe_nil, Multiset.coe_nil,
    zero_add, zero_add]

theorem Client.Knows.quiet {T : Multiset Task} (h : s.Knows T) (hq : s.session.Quiet s'.session)
    (hout : s.session.futures.map Future.outcome <+: s'.session.futures.map Future.outcome) :
    s'.Knows T := by
  have hcs : s'.session.completions = s.session.completions := by rw [hq.frame]
  refine ⟨h.conserved.quiet hq, h.numbered.quiet hq, ?_, ?_, ?_⟩
  · rw [hq.frame]
    exact h.displaced
  · rw [hcs]
    exact h.extracted
  · rw [hcs]
    intro d hd
    have hold := h.stored d hd
    obtain ⟨l, hl⟩ := hout
    rw [← hl, List.getElem?_append_left (List.getElem?_eq_some_iff.1 hold).1]
    exact hold

theorem knows_step (h : s.Knows (↑op.task.toList + T)) (hs : Steps s x op s' K)
    (ht : Tells s op s' k) (hlt : s'.session.calls.length < 2 ^ 32) : s'.Knows (↑K + T) := by
  cases hs with
  | quiet hq =>
    rcases ht.outcomes with hout | ⟨d, -, hd⟩
    · exact h.quiet hq.session hout
    · -- a completion is not quiet
      have hcs := congrArg (fun ss => ss.completions.length) hq.session.frame
      rw [hd, Session.setResult_frame] at hcs
      simp at hcs
  | sendRequest method params =>
    exact knows_insert.2 (((knows_add_iff rfl rfl).1 h).sendRequest method params)
  | insert hcall =>
    exact (knows_add_iff rfl rfl).2 ((knows_insert.1 h).sendRequestImpl hcall hlt)
  | sweep hs => exact knows_complete.2 (((knows_add_iff rfl rfl).1 h).hands hs)
  | take hop hs =>
    rw [hop] at h
    exact knows_complete.2 (((knows_add_iff rfl rfl).1 h).hands hs)
  | complete d =>
    have hknows : s.Knows (↑([d].map Task.complete) + T) := h
    exact (knows_add_iff rfl rfl).2 (knows_complete.1 hknows).setResult
  | dropped hop _ =>
    rw [hop] at h
    exact (knows_add_iff rfl rfl).2 ((knows_add_iff rfl rfl).1 h)
  | found | opened | established | gaveUp | wrote | writeFailed | readFailed | expired | skipped |
    close => exact (knows_add_iff rfl rfl).2 ((knows_add_iff rfl rfl).1 h)

/-! ## The responses of a client -/

/-- What a client has heard, if what it reads is `answered`: so are the responses that it has not
handled yet and those that futures have been taken out of the table with, under the ids of the calls
that the futures belong to. -/
structure Heard (answered : MsgId → Object × Object → Prop) (s : Client) (ops : Multiset Op) :
    Prop where
  knows : s.Knows (tasks ops)
  sweeps : Task.sweep .response ∉ tasks ops
  responses : ∀ r, r ∈ s.arrived ∨ r ∈ ops.filterMap Op.response → answered r.1 r.2
  handed : ∀ e ∈ s.session.handed, e.origin = .response → ∃ c call,
    (s.session.futures.map Future.call)[e.future]? = some c ∧ s.session.calls[c]? = some call ∧
      answered call.msgid (e.result, e.error)

theorem heard_init (answered : MsgId → Object × Object → Prop) (connectTimeout reconnectLimit : Int)
    (timeout : BitVec 32) : Heard answered (init connectTimeout reconnectLimit timeout).shared 0 := by
  refine ⟨⟨Session.conserved_init timeout, Session.numbered_init timeout, rfl, ?_, ?_⟩,
    Multiset.notMem_zero _, ?_, by simp [init]⟩
  · simp [init, tasks]
  · simp [init]
  rintro r (hr | hr) <;> cases hr

variable {answered answered' : MsgId → Object × Object → Prop} {ops rest : Multiset Op}

theorem Heard.mono (h : Heard answered s ops) (ha : ∀ msgid a, answered msgid a → answered' msgid a) :
    Heard answered' s ops := by
  refine ⟨h.knows, h.sweeps, fun r hr => ha _ _ (h.responses r hr), fun e he ho => ?_⟩
  obtain ⟨c, call, hc, hcall, h⟩ := h.handed e he ho
  exact ⟨c, call, hc, hcall, ha _ _ h⟩

/-- A thread is started. -/
theorem Heard.spawn (h : Heard answered s ops) (hop : op.entry = true) :
    Heard answered s (op ::ₘ ops) := by
  have htasks : tasks (op ::ₘ ops) = tasks ops := by
    rw [tasks_cons, Op.task_of_entry hop, Option.toList_none, Multiset.coe_nil, zero_add]
  have hresponse : op.response = none := by
    cases op <;> first | rfl | cases hop
  refine ⟨by rw [htasks]; exact h.knows, by rw [htasks]; exact h.sweeps, ?_, h.handed⟩
  rw [Multiset.filterMap_cons_none _ _ hresponse]
  exact h.responses

/-- No sweep is on account of a response. -/
theorem sweeps_step (h : Task.sweep .response ∉ ↑op.task.toList + T) (hs : Steps s x op s' K) :
    Task.sweep .response ∉ ↑K + T := by
  have hT : Task.sweep .response ∉ T := fun hmem => h (Multiset.mem_add.2 (.inr hmem))
  cases hs with
  | quiet => exact h
  | sendRequest | insert | found | opened | established | gaveUp | dropped | wrote | writeFailed |
    readFailed | expired | sweep | take | skipped | close | complete => simp [hT]

/-- The future that a response finds is that of the call with the id. -/
theorem Client.Knows.call_of_lookup {T : Multiset Task} (h : s.Knows T) {msgid : MsgId}
    {f : FutureId} (hl : s.session.reqtable.lookup msgid = some f) : ∃ c call,
      (s.session.futures.map Future.call)[f]? = some c ∧ s.session.calls[c]? = some call ∧
        call.msgid = msgid := by
  have hkey := h.conserved.keys _ _ hl
  rw [List.getElem?_map] at hkey
  obtain ⟨fut, hfut, hid⟩ := Option.map_eq_some_iff.1 hkey
  have hmem := List.mem_of_getElem? hfut
  have hcall : fut.call < s.session.calls.length := by
    rw [← Multiset.mem_range, ← h.numbered.inserted, Multiset.mem_add]
    exact .inr (Multiset.mem_coe.2 (List.mem_map_of_mem hmem))
  refine ⟨fut.call, _, by rw [List.getElem?_map, hfut]; rfl, List.getElem?_eq_getElem hcall, ?_⟩
  rw [h.numbered.calls _ _ (List.getElem?_eq_getElem hcall), ← hid, h.numbered.futures fut hmem]

theorem heard_exec (h : Heard answered s (op ::ₘ rest)) (hx : machine.exec s op x = some (s', k))
    (hreceived : ∀ r ∈ op.received, answered r.1 r.2) (hlt : s'.session.calls.length < 2 ^ 32) :
    Heard answered s' (↑k + rest) := by
  have hs := exec_steps hx
  have ht := exec_tells hx
  have hknows := h.knows
  have hsweeps := h.sweeps
  rw [tasks_cons] at hknows hsweeps
  obtain ⟨⟨calls, hcalls⟩, ⟨futures, hfutures⟩⟩ := grows_step hs
  refine ⟨?_, ?_, ?_, ?_⟩
  · rw [tasks_add]
    exact knows_step hknows hs ht hlt
  · rw [tasks_add]
    exact sweeps_step hsweeps hs
  · intro r hr
    rw [Multiset.filterMap_add, Multiset.filterMap_coe, Multiset.mem_add, Multiset.mem_coe,
      ← or_assoc] at hr
    rcases hr with hr | hr
    · rcases ht.responses r hr with hr | hr
      · exact h.responses r (.inl hr)
      · exact hreceived r hr
    · refine h.responses r (.inr ?_)
      obtain ⟨o, ho, hor⟩ := (Multiset.mem_filterMap _ _).1 hr
      exact (Multiset.mem_filterMap _ _).2 ⟨o, Multiset.mem_cons_of_mem ho, hor⟩
  · have hold {f : FutureId} {c : Nat} {call : Call}
        (hf : (s.session.futures.map Future.call)[f]? = some c)
        (hc : s.session.calls[c]? = some call) :
        (s'.session.futures.map Future.call)[f]? = some c ∧ s'.session.calls[c]? = some call := by
      rw [← hfutures, ← hcalls, List.getElem?_append_left (List.getElem?_eq_some_iff.1 hf).1,
        List.getElem?_append_left (List.getElem?_eq_some_iff.1 hc).1]
      exact ⟨hf, hc⟩
    intro e he ho
    have hop : op ≠ .sweep .response := by
      rintro rfl
      exact hsweeps (by simp [Op.task])
    rcases ht.handed hop e he ho with he | ⟨msgid, rfl, hl⟩
    · obtain ⟨c, call, hf, hc, ha⟩ := h.handed e he ho
      exact ⟨c, call, (hold hf hc).1, (hold hf hc).2, ha⟩
    · obtain ⟨c, call, hf, hc, rfl⟩ := hknows.call_of_lookup hl
      refine ⟨c, call, (hold hf hc).1, (hold hf hc).2, ?_⟩
      exact h.responses (call.msgid, e.result, e.error) (.inr (by simp [Op.response]))

end

end Tcp

end MsgpackRpc
