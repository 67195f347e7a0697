import MsgpackRpc.Lib.Threads
import MsgpackRpc.Session.Conserved

/-!
# Runs of a client session

The operations of a session as threads execute them: users send requests, attach callbacks and wait
with a timeout, the loop delivers responses and ticks, the transport reports failures, and each
completion is a step of its own. A callback that `set_result` or the loop runs may call the session
in turn; what it calls is a choice, and its thread executes it before going on. The transport itself
is not part of these runs: its reports come at any time.
-/

namespace MsgpackRpc

open Threads

namespace Session

/-- Which of the five ways a future is completed. -/
inductive Source where
  | response
  | stepTimer
  | connectFailed
  | systemError
  | timedWait
  deriving DecidableEq, Repr

/-- The operations. -/
inductive Op where
  | sendRequest (method params : Object)
  | sendRequestImpl (c : Nat)
  | onResponse (msgid : MsgId) (result error : Object)
  | stepTimerHandler
  | onConnectFailed
  | onSystemError
  | setResult (c : Completion Source)
  | timedWait (f : FutureId)
  | timedWaitExpired (f : FutureId)
  | attachCallback (f : FutureId) (func : Callback)
  | runPosted
  | setTimeout (sec : BitVec 32)
  deriving DecidableEq, Repr

/-- What an operation does not determine: the order in which it walks the table, and what the
callback that it runs calls. -/
structure Choice where
  it : List Reqtable.Entry := []
  calls : List Op := []
  deriving DecidableEq, Repr

/-- The operations that users, the loop and the transport call. -/
def Op.entry : Op → Bool
  | .sendRequestImpl _ | .setResult _ | .timedWaitExpired _ => false
  | _ => true

/-- What a callback calls, if one is run. -/
def callbackCalls (x : Choice) : Option Callback → Option (List Op)
  | none => some []
  | some _ => if x.calls.all Op.entry then some x.calls else none

/-- `on_connect_failed`, `on_system_error` and `step_timer_handler`, in the order of the choice. -/
def walk (s : Session Source) (x : Choice)
    (op : List Reqtable.Entry → Session Source × List (Completion Source)) :
    Option (Session Source × List Op) :=
  if x.it.Perm s.reqtable.entries then some ((op x.it).1, (op x.it).2.map .setResult) else none

/-- The session as a system of threads. The wait of `future_impl::timed_wait` (`future.cc:52`) runs
out, if it does, after the test of `m_session` and without another one. -/
def machine : System (Session Source) Op Choice where
  entry := Op.entry
  exec s op x :=
    match op with
    | .sendRequest method params =>
      some (s.sendRequest method params, [.sendRequestImpl s.calls.length])
    | .sendRequestImpl c => s.calls[c]?.map fun call => (s.sendRequestImpl c call, [])
    | .onResponse msgid result error =>
      let (s, cs) := s.onResponse .response msgid result error
      some (s, cs.map .setResult)
    | .stepTimerHandler => s.walk x (s.stepTimerHandler .stepTimer)
    | .onConnectFailed => s.walk x (s.onConnectFailed .connectFailed)
    | .onSystemError => s.walk x (s.onSystemError .systemError)
    | .setResult c =>
      let (s, callback) := s.setResult c
      (callbackCalls x callback).map fun calls => (s, calls)
    | .timedWait f =>
      s.futures[f]?.map fun fut => (s, if fut.session then [.timedWaitExpired f] else [])
    | .timedWaitExpired f => some (s, [.setResult ⟨f, .timedWait, none, .nil, TIMEOUT_ERROR⟩])
    | .attachCallback f func => some (s.attachCallback f func, [])
    | .runPosted =>
      (callbackCalls x (s.posted.head?.map Prod.fst)).map fun calls => (s.runPosted, calls)
    | .setTimeout sec => some (s.setTimeout sec, [])

/-- A session that has sent nothing. -/
def init : Config (Session Source) Op := ⟨{}, []⟩

/-- The futures that a response or a failure takes out of the table. -/
def Op.takes (s : Session Source) : Op → Multiset FutureId
  | .onResponse msgid _ _ => ↑(s.reqtable.lookup msgid).toList
  | .onConnectFailed | .onSystemError => s.reqtable.values
  | _ => 0

/-- What a step does: the state and the operations that executing `op` leads to. -/
inductive Steps (s : Session Source) : Op → Session Source → List Op → Prop where
  | sendRequest (method params : Object) :
    Steps s (.sendRequest method params) (s.sendRequest method params)
      [.sendRequestImpl s.calls.length]
  | sendRequestImpl {c : Nat} {call : Call} : s.calls[c]? = some call →
    Steps s (.sendRequestImpl c) (s.sendRequestImpl c call) []
  | take {op : Op} {s' : Session Source} {cs : List (Completion Source)} : op.entry = true →
    Hands s s' cs → {origin : Source} → {result error : Object} →
    (∀ c ∈ cs, c.origin = origin ∧ c.result = result ∧ c.error = error) → origin ≠ .timedWait →
    (origin = .stepTimer ∧ result = .nil ∧ error = TIMEOUT_ERROR ∨
      origin ≠ .stepTimer ∧ ∀ c ∈ cs, c.future ∈ op.takes s) →
    Steps s op s' (cs.map .setResult)
  | setResult (c : Completion Source) {calls : List Op} : (∀ op ∈ calls, op.entry = true) →
    Steps s (.setResult c) (s.setResult c).1 calls
  | timedWait {f : FutureId} {fut : Future} : s.futures[f]? = some fut → fut.session = true →
    Steps s (.timedWait f) s [.timedWaitExpired f]
  | timedWaitReady (f : FutureId) : Steps s (.timedWait f) s []
  | timedWaitExpired (f : FutureId) :
    Steps s (.timedWaitExpired f) s [.setResult ⟨f, .timedWait, none, .nil, TIMEOUT_ERROR⟩]
  | attachCallback (f : FutureId) (func : Callback) :
    Steps s (.attachCallback f func) (s.attachCallback f func) []
  | runPosted {calls : List Op} : (∀ op ∈ calls, op.entry = true) →
    Steps s .runPosted s.runPosted calls
  | setTimeout (sec : BitVec 32) : Steps s (.setTimeout sec) (s.setTimeout sec) []

/-- The calls a callback makes are entry operations. -/
theorem callbackCalls_entry {x : Choice} {callback : Option Callback} {calls : List Op}
    (h : callbackCalls x callback = some calls) : ∀ op ∈ calls, op.entry = true := by
  cases callback with
  | none =>
    cases h
    simp
  | some func =>
    rw [callbackCalls] at h
    split at h
    · next hall =>
      cases h
      exact List.all_eq_true.1 hall
    · cases h

theorem exec_steps {s s' : Session Source} {op : Op} {x : Choice} {k : List Op}
    (h : machine.exec s op x = some (s', k)) : Steps s op s' k := by
  have walk_eq {f : List Reqtable.Entry → Session Source × List (Completion Source)}
      (h : s.walk x f = some (s', k)) : x.it.Perm s.reqtable.entries ∧ (f x.it).1 = s' ∧
        (f x.it).2.map .setResult = k := by
    unfold walk at h
    split at h
    · next hp => exact ⟨hp, by simpa using h⟩
    · cases h
  cases op with
  | sendRequest method params =>
    cases h
    exact .sendRequest method params
  | sendRequestImpl c =>
    obtain ⟨call, hc, he⟩ := Option.map_eq_some_iff.1 h
    cases he
    exact .sendRequestImpl hc
  | onResponse msgid result error =>
    cases h
    refine .take rfl (hands_onResponse s .response msgid result error)
      (fun c hc => (onResponse_origin hc).1) (by simp) (.inr ⟨by simp, ?_⟩)
    intro c hc
    simp [Op.takes, (onResponse_origin hc).2]
  | stepTimerHandler =>
    obtain ⟨hp, rfl, rfl⟩ := walk_eq h
    exact .take rfl (hands_stepTimerHandler s _ hp) (fun c hc => hand_origin hc) (by simp)
      (.inl ⟨rfl, rfl, rfl⟩)
  | onConnectFailed =>
    obtain ⟨hp, rfl, rfl⟩ := walk_eq h
    have hs := (hands_sweep s .connectFailed CONNECT_ERROR hp).1
    exact .take rfl hs (fun c hc => hand_origin hc) (by simp)
      (.inr ⟨by simp, fun c hc => hs.mem_values hc⟩)
  | onSystemError =>
    obtain ⟨hp, rfl, rfl⟩ := walk_eq h
    have hs := (hands_sweep s .systemError CONNECT_ERROR hp).1
    exact .take rfl hs (fun c hc => hand_origin hc) (by simp)
      (.inr ⟨by simp, fun c hc => hs.mem_values hc⟩)
  | setResult c =>
    obtain ⟨calls, hc, he⟩ := Option.map_eq_some_iff.1 h
    cases he
    exact .setResult c (callbackCalls_entry hc)
  | timedWait f =>
    obtain ⟨fut, hf, he⟩ := Option.map_eq_some_iff.1 h
    cases he
    split
    · next hs => exact .timedWait hf hs
    · exact .timedWaitReady f
  | timedWaitExpired f =>
    cases h
    exact .timedWaitExpired f
  | attachCallback f func =>
    cases h
    exact .attachCallback f func
  | runPosted =>
    obtain ⟨calls, hc, he⟩ := Option.map_eq_some_iff.1 h
    cases he
    exact .runPosted (callbackCalls_entry hc)
  | setTimeout sec =>
    cases h
    exact .setTimeout sec

/-! ## What every step keeps -/

section
variable {s s' : Session Source} {op : Op} {k : List Op} {f : FutureId}

/-- No step removes a future. -/
theorem length_mono (hs : Steps s op s' k) : s.futures.length ≤ s'.futures.length := by
  cases hs with
  | sendRequest | timedWait | timedWaitReady | timedWaitExpired | setTimeout => exact Nat.le_refl _
  | sendRequestImpl => simp [Session.sendRequestImpl]
  | take _ hands => exact Nat.le_of_eq (by simpa using (congrArg List.length hands.futures).symm)
  | setResult c => exact Nat.le_of_eq (setResult_length s c).symm
  | attachCallback g func =>
    refine Nat.le_of_eq ?_
    simpa using (congrArg List.length
      (attachCallback_futures (g := Future.msgid) (fun _ _ => rfl) s g func)).symm
  | runPosted =>
    rw [runPosted_frame]

/-- `completions` records the calls of `set_result` and nothing else. -/
theorem completions_steps (hs : Steps s op s' k) :
    s'.completions = s.completions ∨
      ∃ d, op = .setResult d ∧ s' = (s.setResult d).1 ∧ s'.completions = s.completions ++ [d] := by
  cases hs with
  | sendRequest | sendRequestImpl | timedWait | timedWaitReady | timedWaitExpired | setTimeout =>
    exact .inl rfl
  | take _ hands => exact .inl (by rw [hands.frame])
  | setResult d => exact .inr ⟨d, rfl, rfl, by rw [setResult_frame]⟩
  | attachCallback g func => exact .inl (by rw [attachCallback_frame])
  | runPosted => exact .inl (by rw [runPosted_frame])

/-- A future keeps its id. -/
theorem msgid_steps {m : MsgId} (hs : Steps s op s' k)
    (h : (s.futures.map Future.msgid)[f]? = some m) :
    (s'.futures.map Future.msgid)[f]? = some m := by
  cases hs with
  | sendRequest | timedWait | timedWaitReady | timedWaitExpired | setTimeout => exact h
  | sendRequestImpl =>
    rw [Session.sendRequestImpl, List.map_append,
      List.getElem?_append_left (List.getElem?_eq_some_iff.1 h).1]
    exact h
  | take _ hands =>
    rw [Future.map_eq_of_untimed (fun _ => rfl) hands.futures]
    exact h
  | setResult c =>
    rw [setResult_futures (fun _ _ _ => rfl)]
    exact h
  | attachCallback g func =>
    rw [attachCallback_futures (fun _ _ => rfl)]
    exact h
  | runPosted =>
    rw [runPosted_frame]
    exact h

end

/-! ## Pending operations -/

/-- The completions that are pending. -/
def completionsOf (ops : Multiset Op) : Multiset (Completion Source) :=
  ops.filterMap fun
    | .setResult c => some c
    | _ => none

/-- The calls whose future is still to be inserted. -/
def insertsOf (ops : Multiset Op) : Multiset Nat :=
  ops.filterMap fun
    | .sendRequestImpl c => some c
    | _ => none

@[simp] theorem completionsOf_add (ops ops' : Multiset Op) :
    completionsOf (ops + ops') = completionsOf ops + completionsOf ops' :=
  Multiset.filterMap_add _ _ _

@[simp] theorem insertsOf_add (ops ops' : Multiset Op) :
    insertsOf (ops + ops') = insertsOf ops + insertsOf ops' :=
  Multiset.filterMap_add _ _ _

@[simp] theorem completionsOf_map (cs : List (Completion Source)) :
    completionsOf ↑(cs.map Op.setResult) = ↑cs := by
  simp [completionsOf, List.filterMap_map]

@[simp] theorem insertsOf_map (cs : List (Completion Source)) :
    insertsOf ↑(cs.map Op.setResult) = 0 := by
  simp [insertsOf, List.filterMap_map]

@[simp] theorem completionsOf_setResult (c : Completion Source) (ops : Multiset Op) :
    completionsOf (.setResult c ::ₘ ops) = c ::ₘ completionsOf ops :=
  Multiset.filterMap_cons_some _ _ _ rfl

@[simp] theorem insertsOf_setResult (c : Completion Source) (ops : Multiset Op) :
    insertsOf (.setResult c ::ₘ ops) = insertsOf ops :=
  Multiset.filterMap_cons_none _ _ rfl

@[simp] theorem completionsOf_sendRequestImpl (c : Nat) (ops : Multiset Op) :
    completionsOf (.sendRequestImpl c ::ₘ ops) = completionsOf ops :=
  Multiset.filterMap_cons_none _ _ rfl

@[simp] theorem insertsOf_sendRequestImpl (c : Nat) (ops : Multiset Op) :
    insertsOf (.sendRequestImpl c ::ₘ ops) = c ::ₘ insertsOf ops :=
  Multiset.filterMap_cons_some _ _ _ rfl

@[simp] theorem completionsOf_timedWaitExpired (f : FutureId) (ops : Multiset Op) :
    completionsOf (.timedWaitExpired f ::ₘ ops) = completionsOf ops :=
  Multiset.filterMap_cons_none _ _ rfl

@[simp] theorem insertsOf_timedWaitExpired (f : FutureId) (ops : Multiset Op) :
    insertsOf (.timedWaitExpired f ::ₘ ops) = insertsOf ops :=
  Multiset.filterMap_cons_none _ _ rfl

/-- An entry operation is neither a completion nor an insertion. -/
theorem of_entry (op : Op) (h : op.entry = true) (ops : Multiset Op) :
    completionsOf (op ::ₘ ops) = completionsOf ops ∧ insertsOf (op ::ₘ ops) = insertsOf ops := by
  constructor <;> refine Multiset.filterMap_cons_none _ _ ?_ <;> cases op <;> first | rfl | cases h

/-- Nor are the calls of a callback. -/
theorem of_entries {calls : List Op} (h : ∀ op ∈ calls, op.entry = true) (ops : Multiset Op) :
    completionsOf (↑calls + ops) = completionsOf ops ∧ insertsOf (↑calls + ops) = insertsOf ops := by
  induction calls with
  | nil => exact ⟨by simp, by simp⟩
  | cons op calls ih =>
    obtain ⟨h1, h2⟩ := of_entry op (h op (.head _)) (↑calls + ops)
    rw [← Multiset.cons_coe, Multiset.cons_add, h1, h2]
    exact ih fun op' hop => h op' (.tail _ hop)

/-- A pending completion is a `set_result` that is pending. -/
theorem mem_completionsOf {ops : Multiset Op} {d : Completion Source}
    (h : d ∈ completionsOf ops) : Op.setResult d ∈ ops := by
  obtain ⟨op, hop, hd⟩ := (Multiset.mem_filterMap _ _).1 h
  cases op with
  | setResult c =>
    cases hd
    exact hop
  | _ => cases hd

/-- A `set_result` that is pending is a pending completion. -/
theorem completionsOf_mem {ops : Multiset Op} {d : Completion Source}
    (h : Op.setResult d ∈ ops) : d ∈ completionsOf ops :=
  (Multiset.mem_filterMap _ _).2 ⟨_, h, rfl⟩

/-! ## Conservation -/

/-- A thread that starts leaves `Conserved` alone. -/
theorem Conserved.entry {s : Session Source} {ops : Multiset Op} {op : Op}
    (h : Conserved s (completionsOf ops)) (hop : op.entry = true) :
    Conserved s (completionsOf (op ::ₘ ops)) := by
  rw [(of_entry op hop ops).1]
  exact h

/-- Every operation preserves `Conserved`, with the completions that are pending. -/
theorem conserved_exec {s s' : Session Source} {op : Op} {rest : Multiset Op} {x : Choice}
    {k : List Op} (h : Conserved s (completionsOf (op ::ₘ rest)))
    (hx : machine.exec s op x = some (s', k)) : Conserved s' (completionsOf (↑k + rest)) := by
  have entry (hop : op.entry = true) : Conserved s (completionsOf rest) := by
    rwa [(of_entry op hop rest).1] at h
  cases exec_steps hx with
  | sendRequest method params => simpa using (entry rfl).sendRequest method params
  | @sendRequestImpl c call hc =>
    rw [completionsOf_sendRequestImpl] at h
    simpa using h.sendRequestImpl c call
  | take hop hs => simpa using (entry hop).hands hs
  | setResult c hcalls =>
    rw [completionsOf_setResult] at h
    rw [(of_entries hcalls rest).1]
    exact h.setResult
  | timedWait => simpa using entry rfl
  | timedWaitReady f => simpa using entry rfl
  | timedWaitExpired f =>
    rw [completionsOf_timedWaitExpired] at h
    simpa using h.cons_of_none rfl
  | attachCallback f func => simpa using (entry rfl).quiet (quiet_attachCallback s f func)
  | runPosted hcalls =>
    rw [(of_entries hcalls rest).1]
    exact (entry rfl).quiet (quiet_runPosted s)
  | setTimeout sec =>
    have hcons : Conserved (s.setTimeout sec) (completionsOf rest) :=
      (entry rfl).congr rfl rfl rfl rfl rfl
    simpa using hcons

/-- So does every run. -/
theorem conserved_steps {c c' : Config (Session Source) Op} {ls : List (Label Op Choice)}
    (h : Conserved c.shared (completionsOf c.pending)) (hrun : machine.run c ls = some c') :
    Conserved c'.shared (completionsOf c'.pending) := by
  refine machine.invariant (fun s ops => Conserved s (completionsOf ops)) ?_
    (fun _ _ _ _ _ _ h _ => conserved_exec h) h (System.meets_true c ls) hrun
  intro s ops op h hop
  exact h.entry hop

theorem conserved_step {c c' : Config (Session Source) Op} {l : Label Op Choice}
    (h : Conserved c.shared (completionsOf c.pending)) (hstep : machine.step c l = some c') :
    Conserved c'.shared (completionsOf c'.pending) := by
  have hrun : machine.run c [l] = some c' := by rw [System.run, hstep, Option.bind_some, System.run]
  exact conserved_steps h hrun

/-- Every reachable state is conserved. -/
theorem conserved_run {ls : List (Label Op Choice)} {c : Config (Session Source) Op}
    (hrun : machine.run init ls = some c) : Conserved c.shared (completionsOf c.pending) :=
  conserved_steps (conserved_init 30) hrun

end Session

end MsgpackRpc
