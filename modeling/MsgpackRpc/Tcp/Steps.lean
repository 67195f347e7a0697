import MsgpackRpc.Tcp.Client

/-!
# What a step of the TCP client can do

The invariants of the client speak of the session, the socket, and of what the pending operations
still have to do: insert a future, find a connection for a message, write it, sweep the session, close
the socket, complete a future. `Op.task` is the part of an operation that they see, and `Steps` lists
what executing an operation can change of all that; everything else it does is `Quiet`.

The first of these invariants is that the futures of the session are conserved and numbered
(`Accounted`). `invariant` is the rule for the others.
-/

namespace MsgpackRpc

open Threads

namespace Tcp

/-- What a pending operation still has to do: insert the future of a call, find a connection for its
message, write it, sweep the session, close the socket, or complete a future. -/
inductive Task where
  | insert (c : Nat)
  | connect (c : Nat)
  | write (c : Nat)
  | sweep (o : Origin)
  | close (o : Origin)
  | complete (d : Completion Origin)
  deriving DecidableEq, Repr

/-- The task of an operation. The send of a call that has failed to connect goes on to find that it
is not connected. -/
def Op.task : Op → Option Task
  | .sendRequestImpl c => some (.insert c)
  | .sendData c | .connect c | .tryConnect c | .socketConnect c | .onConnectFailed c _ =>
    some (.connect c)
  | .onConnectSuccess c _ | .setNoDelay c _ | .checkConnected c | .checkWrite c | .write c =>
    some (.write c)
  | .sweep o => some (.sweep o)
  | .checkClose o | .close o => some (.close o)
  | .setResult d => some (.complete d)
  | _ => none

/-- The tasks of the pending operations. -/
def tasks (ops : Multiset Op) : Multiset Task := ops.filterMap Op.task

theorem tasks_cons (op : Op) (ops : Multiset Op) :
    tasks (op ::ₘ ops) = ↑op.task.toList + tasks ops := by
  rw [tasks, tasks]
  cases h : op.task with
  | none => rw [Multiset.filterMap_cons_none _ _ h, Option.toList_none, Multiset.coe_nil, zero_add]
  | some t =>
    rw [Multiset.filterMap_cons_some _ _ _ h, Option.toList_some, Multiset.coe_singleton,
      Multiset.singleton_add]

theorem tasks_add (k : List Op) (ops : Multiset Op) :
    tasks (↑k + ops) = ↑(k.filterMap Op.task) + tasks ops := by
  rw [tasks, Multiset.filterMap_add, Multiset.filterMap_coe, tasks]

/-- Starting a thread adds no task. -/
theorem Op.task_of_entry {op : Op} (h : op.entry = true) : op.task = none := by
  cases op <;> first | rfl | cases h

/-- Nor do the calls of a callback, or the handlers that a flush runs. -/
theorem tasks_of_entry {calls : List Op} (h : ∀ op ∈ calls, op.entry = true) :
    calls.filterMap Op.task = [] :=
  List.filterMap_eq_nil_iff.2 fun op hop => Op.task_of_entry (h op hop)

theorem Op.entry_of_handler {op : Op} (h : op.handler = true) : op.entry = true := by
  cases op <;> first | rfl | cases h

/-- A step that changes nothing the invariants speak of. -/
structure Quiet (s s' : Client) : Prop where
  session : s.session.Quiet s'.session
  frame : s' = { s with
    session := s'.session, reads := s'.reads, completed := s'.completed, waiting := s'.waiting
    expiresAt := s'.expiresAt, timeouts := s'.timeouts, clock := s'.clock, locked := s'.locked
    connecting := s'.connecting }

/-- What a step that is quiet or completes a future leaves alone. -/
structure Inert (s s' : Client) : Prop where
  reqtable : s'.session.reqtable = s.session.reqtable
  handed : s'.session.handed = s.session.handed
  displaced : s'.session.displaced = s.session.displaced
  calls : s'.session.futures.map Future.call = s.session.futures.map Future.call
  socket : s'.socket = s.socket
  connectedBy : s'.connectedBy = s.connectedBy
  written : s'.written = s.written
  closed : s'.closed = s.closed

theorem Inert.values_subset {s s' : Client} (h : Inert s s') :
    s'.session.reqtable.values ⊆ s.session.reqtable.values := by
  rw [h.reqtable]
  exact fun _ => id

theorem Quiet.inert {s s' : Client} (h : Quiet s s') : Inert s s' := by
  have hs := h.session.frame
  have hcalls := h.session.map_call
  rw [h.frame]
  exact ⟨by rw [hs], by rw [hs], by rw [hs], hcalls, rfl, rfl, rfl, rfl⟩

theorem inert_setResult (s : Client) (d : Completion Origin) :
    Inert s { s with session := (s.session.setResult d).1 } := by
  have hs := Session.setResult_frame s.session d
  exact ⟨by rw [hs], by rw [hs], by rw [hs],
    Session.setResult_futures (fun _ _ _ => rfl) s.session d, rfl, rfl, rfl, rfl⟩

/-! ## Events

The conditions on runs are about these. -/

/-- The call whose future an operation inserts. -/
def Op.inserting : Op → Option Nat
  | .sendRequestImpl c => some c
  | _ => none

/-- The call whose send finds the socket open. -/
def Op.finding (s : Client) : Op → Option Nat
  | .sendData c => if s.socket.isOpen then some c else none
  | _ => none

/-- The call whose send makes a connection. -/
def Op.establishing (s : Client) (x : Choice) : Op → Option Nat
  | .socketConnect c => if x.ok = true ∧ s.socket = .opened then some c else none
  | _ => none

/-! ## Steps -/

/-- What a step does: executing `op`, whose task is done, leads to the state `s'` and to new tasks. -/
inductive Steps (s : Client) (x : Choice) : Op → Client → List Task → Prop where
  | quiet {op : Op} {s' : Client} : Quiet s s' → Steps s x op s' op.task.toList
  | sendRequest (method params : Object) :
    Steps s x (.sendRequest method params)
      { s with session := s.session.sendRequest method params } [.insert s.session.calls.length]
  | insert {c : Nat} {call : Call} : s.session.calls[c]? = some call →
    Steps s x (.sendRequestImpl c) { s with session := s.session.sendRequestImpl c call } [.connect c]
  | found {c : Nat} : s.socket.isOpen = true → Steps s x (.sendData c) s [.write c]
  | opened {c : Nat} : s.socket = .closed →
    Steps s x (.tryConnect c) { s with connecting := s.connecting + 1, socket := .opened } [.connect c]
  | established {c : Nat} : x.ok = true → s.socket = .opened →
    Steps s x (.socketConnect c) (s.establish c) [.write c]
  | gaveUp {c err : Nat} : s.retries err = false →
    Steps s x (.onConnectFailed c err) s.cancelTimer
      [.close (.tryConnect c), .sweep (.tryConnect c), .write c]
  | dropped {op : Op} {c : Nat} : op.task = some (.write c) → s.socket.isOpen = false →
    Steps s x op s []
  | wrote {c n : Nat} : s.socket = .connected n →
    Steps s x (.write c) { s with written := s.written ++ [(c, n)] } []
  | writeFailed (c : Nat) : Steps s x (.write c) s [.sweep (.sendData c), .close (.sendData c)]
  | readFailed {i n : Nat} {result : ReadResult} : s.completed[i]? = some (n, result) →
    result.fails = true →
    Steps s x (.onRead i) { s with completed := s.completed.eraseIdx i }
      [.sweep (.onRead n), .close (.onRead n)]
  | expired {a : Attempt} : s.expiresAt ≤ s.clock →
    Steps s x (.checkExpired a) s.cancelTimer [.close (.onTimeout a), .sweep (.onTimeout a)]
  | sweep {o : Origin} {session : Session Origin} {cs : List (Completion Origin)} :
    s.session.Hands session cs → session.reqtable = ∅ →
    (∀ d ∈ cs, d.origin = o ∧ d.error = CONNECT_ERROR) →
    Steps s x (.sweep o) { s with session } (cs.map .complete)
  | take {op : Op} {session : Session Origin} {cs : List (Completion Origin)} : op.task = none →
    s.session.Hands session cs →
    (∀ d ∈ cs, d.origin = .response ∨ d.origin = .stepTimer ∧ d.error = TIMEOUT_ERROR) →
    Steps s x op { s with session } (cs.map .complete)
  | skipped {o : Origin} : s.socket.isOpen = false → Steps s x (.checkClose o) s []
  | close (o : Origin) : Steps s x (.close o) (s.closeSocket o) []
  | complete (d : Completion Origin) :
    Steps s x (.setResult d) { s with session := (s.session.setResult d).1 } []

theorem callbackCalls_task {x : Choice} {callback : Option Callback} {calls : List Op}
    (h : callbackCalls x callback = some calls) : calls.filterMap Op.task = [] := by
  cases callback with
  | none =>
    cases h
    rfl
  | some func =>
    rw [callbackCalls] at h
    split at h
    · next hall =>
      cases h
      exact tasks_of_entry (List.all_eq_true.1 hall)
    · cases h

theorem tasks_setResult (cs : List (Completion Origin)) :
    (cs.map Op.setResult).filterMap Op.task = cs.map .complete := by
  rw [List.filterMap_map, ← List.filterMap_eq_map]
  rfl

/-- The tasks of `on_read`. -/
theorem tasks_onReadResult (n : Nat) (result : ReadResult) :
    (onReadResult n result).filterMap Op.task =
      if result.fails then [.sweep (.onRead n), .close (.onRead n)] else [] := by
  cases result with
  | error err => rfl
  | data responses failed =>
    have hnone : (responses.map fun r => Op.onResponse r.1 r.2.1 r.2.2).filterMap Op.task = [] := by
      rw [List.filterMap_map]
      exact List.filterMap_eq_nil_iff.2 fun _ _ => rfl
    rw [onReadResult, List.filterMap_append, hnone]
    cases failed <;> rfl

theorem Client.walk_eq {s s' : Client} {x : Choice} {k : List Op}
    {f : List Reqtable.Entry → Session Origin × List (Completion Origin)}
    (h : s.walk x f = some (s', k)) : x.it.Perm s.session.reqtable.entries ∧
      s' = { s with session := (f x.it).1 } ∧ k.filterMap Op.task = (f x.it).2.map .complete := by
  unfold Client.walk at h
  split at h
  · next hp =>
    cases h
    exact ⟨hp, rfl, tasks_setResult _⟩
  · cases h

theorem start_quiet (s : Client) (n : Nat) : Quiet s (s.start n) := by
  unfold Client.start
  split <;> exact ⟨.refl _, rfl⟩

/-- **Steps.** Every execution of an operation is one of `Steps`. -/
theorem exec_steps {s s' : Client} {op : Op} {x : Choice} {k : List Op}
    (h : machine.exec s op x = some (s', k)) : Steps s x op s' (k.filterMap Op.task) := by
  cases op with
  | sendRequest method params =>
    cases h
    exact .sendRequest method params
  | attachCallback f func =>
    cases h
    exact .quiet ⟨Session.quiet_attachCallback s.session f func, rfl⟩
  | onRead i =>
    obtain ⟨⟨n, result⟩, hi, he⟩ := Option.map_eq_some_iff.1 h
    cases he
    rw [tasks_onReadResult]
    split
    · next hfails => exact .readFailed hi hfails
    · exact .quiet ⟨.refl _, rfl⟩
  | onTimeout i =>
    obtain ⟨a, -, he⟩ := Option.map_eq_some_iff.1 h
    cases he
    split <;> exact .quiet ⟨.refl _, rfl⟩
  | stepTimerHandler =>
    obtain ⟨hp, rfl, hk⟩ := Client.walk_eq h
    rw [hk]
    exact .take rfl (Session.hands_stepTimerHandler s.session _ hp)
      fun d hd => .inr ⟨(Session.hand_origin hd).1, (Session.hand_origin hd).2.2⟩
  | runPosted =>
    obtain ⟨calls, hc, he⟩ := Option.map_eq_some_iff.1 h
    cases he
    rw [callbackCalls_task hc]
    exact .quiet ⟨Session.quiet_runPosted s.session, rfl⟩
  | readCompletes i result =>
    obtain ⟨n, -, he⟩ := Option.map_eq_some_iff.1 h
    cases he
    exact .quiet ⟨.refl _, rfl⟩
  | timerExpires =>
    simp only [machine] at h
    split at h
    · cases h
      exact .quiet ⟨.refl _, rfl⟩
    · cases h
  | tick =>
    cases h
    exact .quiet ⟨.refl _, rfl⟩
  | sendRequestImpl c =>
    obtain ⟨call, hc, he⟩ := Option.map_eq_some_iff.1 h
    cases he
    exact .insert hc
  | flush =>
    simp only [machine] at h
    split at h
    · next hall =>
      cases h
      rw [tasks_of_entry fun op hop => Op.entry_of_handler (List.all_eq_true.1 hall op hop)]
      exact .quiet ⟨.refl _, rfl⟩
    · cases h
  | sendData c =>
    simp only [machine] at h
    split at h
    · cases h
    · split at h
      · next hopen =>
        cases h
        exact .found hopen
      · cases h
        exact .quiet ⟨.refl _, rfl⟩
  | connect c =>
    cases h
    exact .quiet ⟨.refl _, rfl⟩
  | tryConnect c =>
    simp only [machine] at h
    split at h
    · cases h
      exact .quiet ⟨.refl _, rfl⟩
    · next hopen =>
      split at h
      · cases h
        exact .opened (by cases hs : s.socket <;> simp [hs, Socket.isOpen] at hopen ⊢)
      · cases h
        exact .quiet ⟨.refl _, rfl⟩
  | socketConnect c =>
    simp only [machine] at h
    split at h
    · next hok =>
      cases h
      exact .established hok.1 hok.2
    · cases h
      exact .quiet ⟨.refl _, rfl⟩
  | onConnectSuccess c n =>
    cases h
    exact .quiet ⟨.refl _, rfl⟩
  | setNoDelay c n =>
    cases h
    split
    · exact .quiet ⟨.refl _, rfl⟩
    · next hopen => exact .dropped rfl (Bool.eq_false_iff.2 hopen)
  | onConnectFailed c err =>
    simp only [machine] at h
    split at h
    · cases h
      exact .quiet ⟨.refl _, rfl⟩
    · next hr =>
      cases h
      exact .gaveUp (Bool.eq_false_iff.2 hr)
  | checkConnected c =>
    cases h
    split
    · exact .quiet ⟨.refl _, rfl⟩
    · next hopen => exact .dropped rfl (Bool.eq_false_iff.2 hopen)
  | unlock =>
    cases h
    exact .quiet ⟨.refl _, rfl⟩
  | checkWrite c =>
    cases h
    split
    · exact .quiet ⟨.refl _, rfl⟩
    · next hopen => exact .dropped rfl (Bool.eq_false_iff.2 hopen)
  | write c =>
    simp only [machine] at h
    split at h
    · next n hconn hok =>
      cases h
      exact .wrote (by cases hs : s.socket <;> simp_all [Socket.conn])
    · cases h
      exact .writeFailed c
  | checkExpired a =>
    simp only [machine] at h
    split at h
    · next he =>
      cases h
      exact .expired he
    · cases h
      exact .quiet ⟨.refl _, rfl⟩
  | start n =>
    cases h
    exact .quiet (start_quiet s n)
  | sweep o =>
    obtain ⟨hp, rfl, hk⟩ := Client.walk_eq h
    rw [hk]
    obtain ⟨hs, hempty⟩ := Session.hands_sweep s.session o CONNECT_ERROR hp
    exact .sweep hs hempty fun d hd => ⟨(Session.hand_origin hd).1, (Session.hand_origin hd).2.2⟩
  | checkClose o =>
    cases h
    split
    · exact .quiet ⟨.refl _, rfl⟩
    · next hopen => exact .skipped (Bool.eq_false_iff.2 hopen)
  | close o =>
    cases h
    exact .close o
  | onResponse msgid result error =>
    cases h
    rw [tasks_setResult]
    exact .take rfl (Session.hands_onResponse s.session .response msgid result error)
      fun d hd => .inl (Session.onResponse_origin hd).1.1
  | setResult d =>
    obtain ⟨calls, hc, he⟩ := Option.map_eq_some_iff.1 h
    cases he
    rw [callbackCalls_task hc]
    exact .complete d

/-! ## The futures of the session -/

/-- The completion that a task makes. -/
def Task.completion : Task → Option (Completion Origin)
  | .complete d => some d
  | _ => none

/-- The call whose future a task inserts. -/
def Task.insertion : Task → Option Nat
  | .insert c => some c
  | _ => none

/-- The futures of the session are conserved and numbered. -/
structure Accounted (s : Session Origin) (T : Multiset Task) : Prop where
  conserved : s.Conserved (T.filterMap Task.completion)
  numbered : s.Numbered (T.filterMap Task.insertion)

theorem completions_map (cs : List (Completion Origin)) :
    (cs.map Task.complete).filterMap Task.completion = cs := by
  rw [List.filterMap_map]
  exact List.filterMap_some

theorem insertions_map (cs : List (Completion Origin)) :
    (cs.map Task.complete).filterMap Task.insertion = [] := by
  rw [List.filterMap_map]
  exact List.filterMap_eq_nil_iff.2 fun _ _ => rfl

/-- The invariant, for tasks that a step has added to others. -/
theorem accounted_add {s : Session Origin} {K : List Task} {T : Multiset Task} :
    Accounted s (↑K + T) ↔
      s.Conserved (↑(K.filterMap Task.completion) + T.filterMap Task.completion) ∧
      s.Numbered (↑(K.filterMap Task.insertion) + T.filterMap Task.insertion) := by
  rw [← Multiset.filterMap_coe, ← Multiset.filterMap_coe, ← Multiset.filterMap_add,
    ← Multiset.filterMap_add]
  exact ⟨fun h => ⟨h.conserved, h.numbered⟩, fun h => ⟨h.1, h.2⟩⟩

/-- Other tasks than completions and insertions do not matter. -/
theorem accounted_add_iff {s : Session Origin} {K : List Task} {T : Multiset Task}
    (hc : K.filterMap Task.completion = []) (hi : K.filterMap Task.insertion = []) :
    Accounted s (↑K + T) ↔ Accounted s T := by
  rw [accounted_add, hc, hi, Multiset.coe_nil, Multiset.coe_nil, zero_add, zero_add]
  exact ⟨fun h => ⟨h.1, h.2⟩, fun h => ⟨h.conserved, h.numbered⟩⟩

theorem Accounted.hands {s s' : Session Origin} {T : Multiset Task} {cs : List (Completion Origin)}
    (h : Accounted s T) (hs : s.Hands s' cs) : Accounted s' (↑(cs.map Task.complete) + T) := by
  refine accounted_add.2 ⟨?_, ?_⟩
  · rw [completions_map]
    exact h.conserved.hands hs
  · rw [insertions_map, Multiset.coe_nil, zero_add]
    exact h.numbered.hands hs

theorem accounted_step {s s' : Client} {x : Choice} {op : Op} {K : List Task} {T : Multiset Task}
    (h : Accounted s.session (↑op.task.toList + T)) (hs : Steps s x op s' K) :
    Accounted s'.session (↑K + T) := by
  cases hs with
  | quiet hq => exact ⟨h.conserved.quiet hq.session, h.numbered.quiet hq.session⟩
  | sendRequest method params =>
    obtain ⟨hc, hn⟩ := (accounted_add_iff rfl rfl).1 h
    refine accounted_add.2 ⟨?_, ?_⟩
    · exact (zero_add (T.filterMap Task.completion)).symm ▸ hc.sendRequest method params
    · exact hn.sendRequest method params
  | insert hcall =>
    obtain ⟨hc, hn⟩ := accounted_add.1 h
    refine (accounted_add_iff rfl rfl).2 ⟨?_, hn.sendRequestImpl hcall⟩
    exact zero_add (T.filterMap Task.completion) ▸ hc.sendRequestImpl _ _
  | sweep hs _ _ => exact ((accounted_add_iff rfl rfl).1 h).hands hs
  | take hop hs _ =>
    rw [hop] at h
    exact ((accounted_add_iff rfl rfl).1 h).hands hs
  | complete d =>
    obtain ⟨hc, hn⟩ := accounted_add.1 h
    refine (accounted_add_iff rfl rfl).2 ⟨hc.setResult, ?_⟩
    exact zero_add (T.filterMap Task.insertion) ▸ hn.setResult d
  | dropped hop _ =>
    rw [hop] at h
    exact (accounted_add_iff rfl rfl).2 ((accounted_add_iff rfl rfl).1 h)
  | found | opened | established | gaveUp | wrote | writeFailed | readFailed | expired | skipped |
    close => exact (accounted_add_iff rfl rfl).2 ((accounted_add_iff rfl rfl).1 h)

/-! ## Runs -/

/-- **Invariants of the client.** What holds of a client that has sent nothing and is preserved by
every one of `Steps` that meets the guard holds after a run whose steps meet it. The futures of the
session are accounted for all along. -/
theorem invariant {G : Client → Multiset Task → Op → Choice → Prop}
    (P : Client → Multiset Task → Prop)
    (hstep : ∀ s x op s' K T, Accounted s.session (↑op.task.toList + T) →
      P s (↑op.task.toList + T) → G s (↑op.task.toList + T) op x → Steps s x op s' K → P s' (↑K + T))
    {connectTimeout reconnectLimit : Int} {timeout : BitVec 32} {c : Config Client Op}
    {ls : List (Label Op Choice)} (h : P (init connectTimeout reconnectLimit timeout).shared 0)
    (hG : machine.Meets (fun s ops => G s (tasks ops)) (init connectTimeout reconnectLimit timeout) ls)
    (hrun : machine.run (init connectTimeout reconnectLimit timeout) ls = some c) :
    Accounted c.shared.session (tasks c.pending) ∧ P c.shared (tasks c.pending) := by
  refine machine.invariant (fun s ops => Accounted s.session (tasks ops) ∧ P s (tasks ops))
    ?_ ?_
    ⟨⟨Session.conserved_init timeout, Session.numbered_init timeout⟩, h⟩ hG hrun
  · intro s ops op hP hop
    rw [tasks_cons, Op.task_of_entry hop, Option.toList_none, Multiset.coe_nil, zero_add]
    exact hP
  · intro s op rest x s' k hP hg hx
    rw [tasks_cons] at hP hg
    rw [tasks_add]
    have hs := exec_steps hx
    exact ⟨accounted_step hP.1 hs, hstep s x op s' _ _ hP.1 hP.2 hg hs⟩

end Tcp

end MsgpackRpc
