import MsgpackRpc.Tcp.Client

/-!
# The locks of the TCP client

`future_impl::m_mutex` (`future_impl.h:78`) and `client_transport::mutex` (`tcp.cc:88`) are not
recursive. The steps of the client are those of `Tcp.machine`, with the mutexes of the futures added:
`set_result` keeps the mutex of its future while the callback runs, `attach_callback` and
`timed_wait` take it. A callback does what it likes with its own future and its own session.

A thread holds the mutex of a future while it has the end of a `set_result` of it before it, and the
mutex of the transport while it is inside `connect` (`Op.holds`). `exec_leads` says what the steps of
the client do to the latter.
-/

namespace MsgpackRpc

open Threads

namespace Tcp

/-- The sends of messages, up to the lock of the transport. -/
def Op.sends : Op → Bool
  | .sendRequest _ _ | .sendRequestImpl _ | .sendData _ => true
  | _ => false

/-- What a thread has before it while it holds the mutex of the transport: the rest of `connect`, and
the end of the scope of the lock in `client_transport::send_data` (`tcp.cc:263`). -/
def Op.connects : Op → Bool
  | .connect _ | .tryConnect _ | .socketConnect _ | .onConnectSuccess _ _ | .setNoDelay _ _
  | .onConnectFailed _ _ | .checkConnected _ | .unlock => true
  | _ => false

/-- The operations that are none of these and start no new use of a future. -/
def Op.plain (op : Op) : Bool :=
  !op.sends && !op.connects && match op with
    | .attachCallback _ _ => false
    | _ => true

namespace Locks

/-- The two kinds of locks. -/
inductive Lock where
  | future (f : FutureId)
  | transport
  deriving DecidableEq, Repr

/-- The operations: those of the client, and those that take the mutex of a future. -/
inductive Op where
  | tcp (op : Tcp.Op)
  -- `session_impl::send_notify_impl`, of the message recorded as number `c`
  | sendNotify (c : Nat)
  | attachCallback (f : FutureId) (func : Callback)
  | timedWait (f : FutureId)
  -- the wait of `timed_wait` runs out
  | timedWaitExpired (f : FutureId)
  -- `future::wait` and `future::get`, which wait by `join` unless the future is ready
  | wait (f : FutureId)
  | runPosted
  | setResult (d : Completion Origin)
  -- the end of `set_result`
  | unlock (f : FutureId)
  deriving DecidableEq, Repr

/-- An operation of the client that takes the mutex of a future is one of those above. -/
def lift : Tcp.Op → Op
  | .attachCallback f func => .attachCallback f func
  | .runPosted => .runPosted
  | .setResult d => .setResult d
  | op => .tcp op

/-- The operations that start a thread. -/
def Op.entry : Op → Bool
  | .tcp op => op.entry && (lift op == .tcp op)
  | .timedWaitExpired _ | .setResult _ | .unlock _ => false
  | _ => true

/-- What a callback may call: the public operations of its own future, and its session. `is_ready`
takes no lock and changes nothing. -/
def Op.own (f : FutureId) : Op → Bool
  | .attachCallback g _ | .timedWait g | .wait g => g == f
  | .tcp (.sendRequest _ _) | .sendNotify _ => true
  | _ => false

/-- What an operation does not determine: besides what the client's do not, the calls of a callback,
and whether `is_running`. -/
structure Choice where
  tcp : Tcp.Choice := {}
  calls : List Op := []
  running : Bool := false
  deriving DecidableEq, Repr

end Locks

/-- The client, and the futures whose mutex is taken. -/
structure Locks where
  client : Client
  held : List FutureId := []

namespace Locks

/-- The session of the client is changed. -/
def withSession (s : Locks) (session : Session Origin) : Locks :=
  { s with client := { s.client with session } }

/-- The client with its locks as a system of threads. A thread that needs a lock which is taken is
blocked. `future_impl::join` (`future.cc:72`) waits or, if the loop is not running, runs handlers one
at a time. The completion of a wait that has run out (`future.cc:57`) takes nothing out of the table,
so that its origin is of no account. -/
def machine : System Locks Op Choice where
  entry := Op.entry
  exec s op x :=
    match op with
    | .tcp op =>
      if lift op = .tcp op then
        (Tcp.machine.exec s.client op x.tcp).map fun (client, k) => ({ s with client }, k.map lift)
      else none
    | .sendNotify c => some (s, [.tcp .flush, .tcp (.sendData c)])
    | .attachCallback f func =>
      if f ∈ s.held then none
      else some (s.withSession (s.client.session.attachCallback f func), [])
    | .timedWait f =>
      if f ∈ s.held then none
      else s.client.session.futures[f]?.map fun fut =>
        (s, if fut.session then [.timedWaitExpired f] else [])
    | .timedWaitExpired f =>
      if f ∈ s.held then none else some (s, [.setResult ⟨f, .stepTimer, none, .nil, TIMEOUT_ERROR⟩])
    | .wait f =>
      s.client.session.futures[f]?.bind fun fut =>
        if fut.isReady then some (s, [])
        else if x.running then some (s, [.timedWait f])
        else if x.tcp.calls.all Tcp.Op.handler then some (s, x.tcp.calls.map lift ++ [.wait f])
        else none
    | .runPosted =>
      match s.client.session.posted with
      | [] => some (s, [])
      | (_, f) :: _ =>
        if x.calls.all (Op.own f) then some (s.withSession s.client.session.runPosted, x.calls)
        else none
    | .setResult d =>
      if d.future ∈ s.held then none
      else match s.client.session.setResult d with
        | (session, none) => some (s.withSession session, [])
        | (session, some _) =>
          if x.calls.all (Op.own d.future) then
            some ({ s.withSession session with held := d.future :: s.held },
              x.calls ++ [.unlock d.future])
          else none
    | .unlock f => some ({ s with held := s.held.erase f }, [])

/-- A client that has sent nothing. -/
def init (connectTimeout reconnectLimit : Int) (timeout : BitVec 32) : Config Locks Op :=
  ⟨{ client := (Tcp.init connectTimeout reconnectLimit timeout).shared }, []⟩

/-! ## Who holds a lock -/

/-- The lock that an operation takes. -/
def Op.acquires : Op → Option Lock
  | .tcp (.sendData _) => some .transport
  | .attachCallback f _ | .timedWait f | .timedWaitExpired f => some (.future f)
  | .setResult d => some (.future d.future)
  | _ => none

/-- The future whose mutex an operation gives back. -/
def Op.unlocks : Op → Option FutureId
  | .unlock f => some f
  | _ => none

def Op.sends : Op → Bool
  | .tcp op => op.sends
  | .sendNotify _ => true
  | _ => false

def Op.connects : Op → Bool
  | .tcp op => op.connects
  | _ => false

/-- The lock that a thread holds as long as an operation is before it. -/
def Op.holds : Op → Option Lock
  | .unlock f => some (.future f)
  | .tcp op => if op.connects then some .transport else none
  | _ => none

/-- A thread that is about to take a lock which it holds. -/
def SelfDeadlock : List Op → Prop
  | [] => False
  | op :: rest => ∃ l ∈ op.acquires, l ∈ rest.filterMap Op.holds

instance : (ops : List Op) → Decidable (SelfDeadlock ops)
  | [] => isFalse id
  | op :: rest => inferInstanceAs (Decidable (∃ l ∈ op.acquires, l ∈ rest.filterMap Op.holds))

/-! ## What the client does to the locks -/

/-- What an operation of the client, those on futures apart, does to the session, when `cs` are the
completions that it hands out. -/
inductive Moves (s : Session Origin) : Session Origin → List (Completion Origin) → Prop where
  | same : Moves s s []
  | sendRequest (method params : Object) : Moves s (s.sendRequest method params) []
  | insert (c : Nat) (call : Call) : Moves s (s.sendRequestImpl c call) []
  | hands {s' : Session Origin} {cs : List (Completion Origin)} : s.Hands s' cs → Moves s s' cs

/-- What executing an operation of the client leads to, as far as locks go: only sends lead to sends,
and the mutex of the transport is taken and given back as `Op.connects` says. -/
structure Leads (s : Client) (op : Tcp.Op) (s' : Client) (k : List Tcp.Op) : Prop where
  session : ∃ cs, Moves s.session s'.session cs ∧ ∀ d, .setResult d ∈ k → d ∈ cs
  sends : ∀ o ∈ k, o.sends = true → op.sends = true
  apart : (∃ o ∈ k, o.connects = true) → ∀ o ∈ k, o.sends = false
  attach : ∀ f func, .attachCallback f func ∉ k
  locked : s'.locked = s.locked ∧ k.countP Tcp.Op.connects = [op].countP Tcp.Op.connects ∨
    op = .unlock ∧ k = [] ∧ s'.locked = false ∨
    ∃ c, op = .sendData c ∧ k = [.connect c] ∧ s.locked = false ∧ s'.locked = true

section
variable {s s' : Client} {op : Tcp.Op} {k : List Tcp.Op}

/-- An operation outside `connect` that leads to plain operations. -/
theorem leads_of_plain {cs : List (Completion Origin)} (hop : op.connects = false)
    (hs : Moves s.session s'.session cs) (hcs : ∀ d, .setResult d ∈ k → d ∈ cs)
    (hk : ∀ o ∈ k, o.plain = true) (hl : s'.locked = s.locked) : Leads s op s' k := by
  have hplain : ∀ o ∈ k, (o.sends = false ∧ o.connects = false) ∧
      ∀ f func, o ≠ .attachCallback f func := by
    intro o ho
    have h := hk o ho
    unfold Tcp.Op.plain at h
    simp only [Bool.and_eq_true, Bool.not_eq_true'] at h
    refine ⟨h.1, ?_⟩
    rintro f func rfl
    cases h.2
  refine ⟨⟨cs, hs, hcs⟩, ?_, ?_, ?_, .inl ⟨hl, ?_⟩⟩
  · intro o ho hsend
    rw [(hplain o ho).1.1] at hsend
    cases hsend
  · intro _ o ho
    exact (hplain o ho).1.1
  · intro f func hmem
    exact (hplain _ hmem).2 f func rfl
  · rw [List.countP_singleton, hop]
    simpa [List.countP_eq_zero] using fun o ho => (hplain o ho).1.2

/-- An operation inside `connect` goes on to another one. -/
theorem leads_of_connects (hop : op.connects = true) (hs : s'.session = s.session)
    (hl : s'.locked = s.locked) (hcs : ∀ d, .setResult d ∉ k)
    (hk : ∀ o ∈ k, o.sends = false) (hattach : ∀ f func, .attachCallback f func ∉ k)
    (hcount : k.countP Tcp.Op.connects = 1) : Leads s op s' k := by
  refine ⟨⟨[], hs ▸ .same, fun d hd => absurd hd (hcs d)⟩, ?_, fun _ => hk, hattach, .inl ⟨hl, ?_⟩⟩
  · intro o ho hsend
    rw [hk o ho] at hsend
    cases hsend
  · rw [hcount, List.countP_singleton, hop]
    rfl

theorem handler_plain {op : Tcp.Op} (h : op.handler = true) : op.plain = true := by
  cases op <;> first | rfl | cases h

theorem handler_connects {op : Tcp.Op} (h : op.handler = true) : op.connects = false := by
  cases op <;> first | rfl | cases h

theorem mem_setResults {cs : List (Completion Origin)} {d : Completion Origin}
    (h : .setResult d ∈ cs.map Tcp.Op.setResult) : d ∈ cs := by
  obtain ⟨d', hd', he⟩ := List.mem_map.1 h
  cases he
  exact hd'

theorem setResults_plain {cs : List (Completion Origin)} :
    ∀ o ∈ cs.map Tcp.Op.setResult, o.plain = true := by
  intro o ho
  obtain ⟨d, -, rfl⟩ := List.mem_map.1 ho
  rfl

/-- The completions that walking the table leads to. -/
theorem leads_of_walk {x : Tcp.Choice}
    {f : List Reqtable.Entry → Session Origin × List (Completion Origin)}
    (hf : x.it.Perm s.session.reqtable.entries → s.session.Hands (f x.it).1 (f x.it).2)
    (hop : op.connects = false) (h : s.walk x f = some (s', k)) : Leads s op s' k := by
  unfold Client.walk at h
  split at h
  · next hp =>
    cases h
    exact leads_of_plain hop (.hands (hf hp)) (fun d => mem_setResults) setResults_plain rfl
  · cases h

/-- The rest of `on_read`. -/
theorem onReadResult_plain {n : Nat} {result : ReadResult} {o : Tcp.Op}
    (h : o ∈ onReadResult n result) : o.plain = true ∧ ∀ d, o ≠ .setResult d := by
  have herror {o : Tcp.Op} (h : o ∈ onSystemError (.onRead n)) :
      o.plain = true ∧ ∀ d, o ≠ .setResult d := by
    simp only [onSystemError, List.mem_cons, List.not_mem_nil, or_false] at h
    rcases h with rfl | rfl <;> exact ⟨rfl, by simp⟩
  cases result with
  | error err => exact herror h
  | data responses failed =>
    rcases List.mem_append.1 h with h | h
    · obtain ⟨r, -, rfl⟩ := List.mem_map.1 h
      exact ⟨rfl, by simp⟩
    · cases failed with
      | true => exact herror h
      | false =>
        obtain rfl := List.mem_singleton.1 h
        exact ⟨rfl, by simp⟩

/-- **What the client does to the locks**, operation by operation. -/
theorem exec_leads {x : Tcp.Choice} (hlift : lift op = .tcp op)
    (h : Tcp.machine.exec s op x = some (s', k)) : Leads s op s' k := by
  cases op with
  | attachCallback | runPosted | setResult => cases hlift
  | sendRequest method params =>
    cases h
    refine ⟨⟨[], .sendRequest method params, by simp⟩, ?_, ?_, by simp, .inl ⟨rfl, rfl⟩⟩ <;>
      simp [Tcp.Op.sends, Tcp.Op.connects]
  | onRead i =>
    obtain ⟨⟨n, result⟩, -, he⟩ := Option.map_eq_some_iff.1 h
    cases he
    exact leads_of_plain rfl .same (fun d hd => absurd rfl ((onReadResult_plain hd).2 d))
      (fun o ho => (onReadResult_plain ho).1) rfl
  | onTimeout i =>
    obtain ⟨a, -, he⟩ := Option.map_eq_some_iff.1 h
    cases he
    split <;>
      exact leads_of_plain rfl .same (by simp)
        (by simp [Tcp.Op.plain, Tcp.Op.sends, Tcp.Op.connects]) rfl
  | stepTimerHandler =>
    exact leads_of_walk (fun hp => Session.hands_stepTimerHandler s.session _ hp) rfl h
  | readCompletes i result =>
    obtain ⟨n, -, he⟩ := Option.map_eq_some_iff.1 h
    cases he
    exact leads_of_plain rfl .same (by simp) (by simp) rfl
  | timerExpires =>
    simp only [Tcp.machine] at h
    split at h
    · cases h
      exact leads_of_plain rfl .same (by simp) (by simp) rfl
    · cases h
  | tick =>
    cases h
    exact leads_of_plain rfl .same (by simp) (by simp) rfl
  | sendRequestImpl c =>
    obtain ⟨call, -, he⟩ := Option.map_eq_some_iff.1 h
    cases he
    refine ⟨⟨[], .insert c call, by simp⟩, ?_, ?_, by simp, .inl ⟨rfl, rfl⟩⟩ <;>
      simp [Tcp.Op.sends, Tcp.Op.connects]
  | flush =>
    simp only [Tcp.machine] at h
    split at h
    · next hall =>
      cases h
      have hall := List.all_eq_true.1 hall
      exact leads_of_plain rfl .same (fun d hd => absurd (hall _ hd) (by simp [Tcp.Op.handler]))
        (fun o ho => handler_plain (hall o ho)) rfl
    · cases h
  | sendData c =>
    simp only [Tcp.machine] at h
    split at h
    · cases h
    · next hfree =>
      split at h
      · cases h
        exact leads_of_plain rfl .same (by simp)
          (by simp [Tcp.Op.plain, Tcp.Op.sends, Tcp.Op.connects]) rfl
      · cases h
        exact ⟨⟨[], .same, by simp⟩, by simp [Tcp.Op.sends], by simp [Tcp.Op.sends], by simp,
          .inr (.inr ⟨c, rfl, rfl, Bool.eq_false_iff.2 hfree, rfl⟩)⟩
  | connect c =>
    cases h
    exact leads_of_connects rfl rfl rfl (by simp) (by simp [Tcp.Op.sends]) (by simp) rfl
  | tryConnect c =>
    simp only [Tcp.machine] at h
    split at h
    · cases h
      exact leads_of_connects rfl rfl rfl (by simp) (by simp [Tcp.Op.sends]) (by simp) rfl
    · split at h <;> cases h <;>
        exact leads_of_connects rfl rfl rfl (by simp) (by simp [Tcp.Op.sends]) (by simp) rfl
  | socketConnect c =>
    simp only [Tcp.machine] at h
    split at h <;> cases h <;>
      exact leads_of_connects rfl rfl rfl (by simp) (by simp [Tcp.Op.sends]) (by simp) rfl
  | onConnectSuccess c n =>
    cases h
    exact leads_of_connects rfl rfl rfl (by simp) (by simp [Tcp.Op.sends]) (by simp) rfl
  | setNoDelay c n =>
    cases h
    split <;> exact leads_of_connects rfl rfl rfl (by simp) (by simp [Tcp.Op.sends]) (by simp) rfl
  | onConnectFailed c err =>
    simp only [Tcp.machine] at h
    split at h <;> cases h <;>
      exact leads_of_connects rfl rfl rfl (by simp [connectFailed])
        (by simp [connectFailed, Tcp.Op.sends]) (by simp [connectFailed]) rfl
  | checkConnected c =>
    cases h
    split <;> exact leads_of_connects rfl rfl rfl (by simp) (by simp [Tcp.Op.sends]) (by simp) rfl
  | unlock =>
    cases h
    exact ⟨⟨[], .same, by simp⟩, by simp, by simp, by simp, .inr (.inl ⟨rfl, rfl, rfl⟩)⟩
  | checkWrite c =>
    cases h
    split <;>
      exact leads_of_plain rfl .same (by simp)
        (by simp [Tcp.Op.plain, Tcp.Op.sends, Tcp.Op.connects]) rfl
  | write c =>
    simp only [Tcp.machine] at h
    split at h <;> cases h
    · exact leads_of_plain rfl .same (by simp) (by simp) rfl
    · exact leads_of_plain rfl .same (by simp [onSystemError])
        (by simp [onSystemError, Tcp.Op.plain, Tcp.Op.sends, Tcp.Op.connects]) rfl
  | checkExpired a =>
    simp only [Tcp.machine] at h
    split at h <;> cases h
    · exact leads_of_plain rfl .same (by simp [connectFailed])
        (by simp [connectFailed, Tcp.Op.plain, Tcp.Op.sends, Tcp.Op.connects]) rfl
    · exact leads_of_plain rfl .same (by simp) (by simp) rfl
  | start n =>
    cases h
    have hsession : (s.start n).session = s.session ∧ (s.start n).locked = s.locked := by
      unfold Client.start
      split <;> exact ⟨rfl, rfl⟩
    have hsame : Moves s.session (s.start n).session [] := by
      rw [hsession.1]
      exact .same
    exact leads_of_plain rfl hsame (by simp) (by simp) hsession.2
  | sweep o => exact leads_of_walk (fun hp => (Session.hands_sweep s.session _ _ hp).1) rfl h
  | checkClose o =>
    cases h
    split <;>
      exact leads_of_plain rfl .same (by simp)
        (by simp [Tcp.Op.plain, Tcp.Op.sends, Tcp.Op.connects]) rfl
  | close o =>
    cases h
    exact leads_of_plain rfl .same (by simp) (by simp) rfl
  | onResponse msgid result error =>
    cases h
    exact leads_of_plain rfl (.hands (Session.hands_onResponse s.session _ msgid result error))
      (fun d => mem_setResults) setResults_plain rfl

end

/-- What a step of the client with its locks does. -/
inductive Steps (s : Locks) (x : Choice) : Op → Locks → List Op → Prop where
  | tcp {op : Tcp.Op} {client : Client} {k : List Tcp.Op} : Leads s.client op client k →
    Steps s x (.tcp op) { s with client } (k.map lift)
  | sendNotify (c : Nat) : Steps s x (.sendNotify c) s [.tcp .flush, .tcp (.sendData c)]
  | attachCallback {f : FutureId} (func : Callback) : f ∉ s.held →
    Steps s x (.attachCallback f func) (s.withSession (s.client.session.attachCallback f func)) []
  | timedWait (f : FutureId) : Steps s x (.timedWait f) s [.timedWaitExpired f]
  | timedWaitReady (f : FutureId) : Steps s x (.timedWait f) s []
  | timedWaitExpired (f : FutureId) :
    Steps s x (.timedWaitExpired f) s [.setResult ⟨f, .stepTimer, none, .nil, TIMEOUT_ERROR⟩]
  | waitReady (f : FutureId) : Steps s x (.wait f) s []
  | waitRunning {f : FutureId} {fut : Future} : s.client.session.futures[f]? = some fut →
    fut.isReady = false → Steps s x (.wait f) s [.timedWait f]
  | waitRecv {f : FutureId} {fut : Future} {calls : List Tcp.Op} :
    s.client.session.futures[f]? = some fut → fut.isReady = false →
    (∀ o ∈ calls, o.handler = true) → Steps s x (.wait f) s (calls.map lift ++ [.wait f])
  | runPostedNone : Steps s x .runPosted s []
  | runPosted {func : Callback} {f : FutureId} : (func, f) ∈ s.client.session.posted →
    (∀ o ∈ x.calls, o.own f = true) →
    Steps s x .runPosted (s.withSession s.client.session.runPosted) x.calls
  | setResult {d : Completion Origin} {session : Session Origin} : d.future ∉ s.held →
    s.client.session.setResult d = (session, none) →
    Steps s x (.setResult d) (s.withSession session) []
  | setResultCallback {d : Completion Origin} {session : Session Origin} {func : Callback} :
    d.future ∉ s.held → s.client.session.setResult d = (session, some func) →
    (∀ o ∈ x.calls, o.own d.future = true) →
    Steps s x (.setResult d) { s.withSession session with held := d.future :: s.held }
      (x.calls ++ [.unlock d.future])
  | unlock (f : FutureId) : Steps s x (.unlock f) { s with held := s.held.erase f } []

theorem exec_steps {s s' : Locks} {op : Op} {x : Choice} {k : List Op}
    (hx : machine.exec s op x = some (s', k)) : Steps s x op s' k := by
  cases op with
  | tcp op =>
    simp only [machine] at hx
    split at hx
    · next hlift =>
      obtain ⟨⟨client, k'⟩, hx', he⟩ := Option.map_eq_some_iff.1 hx
      cases he
      exact .tcp (exec_leads hlift hx')
    · cases hx
  | sendNotify c =>
    cases hx
    exact .sendNotify c
  | attachCallback f func =>
    simp only [machine] at hx
    split at hx
    · cases hx
    · next hfree =>
      cases hx
      exact .attachCallback func hfree
  | timedWait f =>
    simp only [machine] at hx
    split at hx
    · cases hx
    · obtain ⟨fut, -, he⟩ := Option.map_eq_some_iff.1 hx
      cases he
      split
      · exact .timedWait f
      · exact .timedWaitReady f
  | timedWaitExpired f =>
    simp only [machine] at hx
    split at hx <;> cases hx
    exact .timedWaitExpired f
  | wait f =>
    obtain ⟨fut, hfut, hx⟩ := Option.bind_eq_some_iff.1 hx
    split at hx
    · cases hx
      exact .waitReady f
    · next hpending =>
      have hpending := Bool.eq_false_iff.2 hpending
      split at hx
      · cases hx
        exact .waitRunning hfut hpending
      · split at hx
        · next hall =>
          cases hx
          exact .waitRecv hfut hpending (List.all_eq_true.1 hall)
        · cases hx
  | runPosted =>
    simp only [machine] at hx
    split at hx
    · cases hx
      exact .runPostedNone
    · next func f posted he =>
      split at hx
      · next hall =>
        cases hx
        exact .runPosted (by rw [he]; exact .head _) (List.all_eq_true.1 hall)
      · cases hx
  | setResult d =>
    simp only [machine] at hx
    split at hx
    · cases hx
    · next hfree =>
      rcases hr : s.client.session.setResult d with ⟨session, _ | func⟩ <;> rw [hr] at hx
      · cases hx
        exact .setResult hfree hr
      · dsimp only at hx
        split at hx
        · next hall =>
          cases hx
          exact .setResultCallback hfree hr (List.all_eq_true.1 hall)
        · cases hx
  | unlock f =>
    cases hx
    exact .unlock f

end Locks

end Tcp

end MsgpackRpc
