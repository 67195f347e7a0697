import MsgpackRpc.Lib.Ticker
import MsgpackRpc.Session.Machine

/-!
# The step timer and the lifetime of a session

A `session_impl` lives as long as something refers to it: the handles of users and the entries of
pools, the futures that are not ready (`future_impl::m_session`), and the calls of a `client_socket`,
which lock a `weak_ptr`. Its step timer (`session.cc:105`) is armed by the constructor and by
`step_timer_handler`, and cancelled by the destructor; the handler is bound to the bare `this`.

The session with its references runs as a system of threads, to which `Ticker` adds the timer. While
the session lives there is always one tick to come, and never two. When the last reference goes, the
destructor stops that tick only if it has not expired yet (`step_timer_exact`). If it has, its handler
runs on the destroyed session, or arms its timer. The last of these happens without any race when the
tick itself completes the last future of a session that nobody else refers to (`lastTick_rearms`).
-/

namespace MsgpackRpc

open Threads

namespace Session

/-- A session with the references to it: handles, and calls of the socket. -/
structure Referenced where
  session : Session Source := {}
  handles : Nat := 1
  locks : Nat := 0

namespace Referenced

/-- The operations: those of the session, copying and dropping a handle, and the calls of the socket,
`client_socket::on_response` (`tcp.cc:125`), `on_system_error` (`tcp.cc:145`) and `on_notify`
(`tcp.cc:135`), up to and from their end. -/
inductive Op where
  | session (op : Session.Op)
  | copyHandle
  | dropHandle
  | lock (op : Session.Op)
  | onNotify
  | unlock
  deriving DecidableEq, Repr

/-- The calls that lock the `weak_ptr` of the socket. -/
def fromSocket : Session.Op → Bool
  | .onResponse _ _ _ | .onSystemError => true
  | _ => false

/-- The operations that are called through a handle. -/
def byHandle : Session.Op → Bool
  | .sendRequest _ _ | .sendRequestImpl _ | .setTimeout _ => true
  | _ => false

/-- How an operation is called. Only the timer calls `step_timer_handler`; the ticks that a flush inside
a callback delivers are threads of their own. -/
def wrap (op : Session.Op) : Option Op :=
  if op = .stepTimerHandler then none
  else if fromSocket op then some (.lock op)
  else some (.session op)

/-- The operations that start a thread. -/
def Op.entry : Op → Bool
  | .session op => op.entry && decide (wrap op = some (.session op))
  | .lock op => fromSocket op
  | .copyHandle | .dropHandle | .onNotify => true
  | .unlock => false

/-- The use count of the `shared_ptr`s. -/
def useCount (s : Referenced) : Nat := s.handles + s.locks + s.session.futures.countP Future.session

/-- The session with its references as a system of threads. `on_connect_failed` is called by the
transport, which the session owns. -/
def machine : System Referenced Op Choice where
  entry := Op.entry
  exec s op x :=
    match op with
    | .session op =>
      if byHandle op ∧ s.handles = 0 ∨ op = .onConnectFailed ∧ s.useCount = 0 then none
      else (Session.machine.exec s.session op x).map fun (session, k) =>
        ({ s with session }, k.filterMap wrap)
    | .copyHandle => if s.handles = 0 then none else some ({ s with handles := s.handles + 1 }, [])
    | .dropHandle => if s.handles = 0 then none else some ({ s with handles := s.handles - 1 }, [])
    | .lock op =>
      if s.useCount = 0 then some (s, [])
      else some ({ s with locks := s.locks + 1 }, [.session op, .unlock])
    | .onNotify =>
      if s.useCount = 0 then some (s, []) else some ({ s with locks := s.locks + 1 }, [.unlock])
    | .unlock => some ({ s with locks := s.locks - 1 }, [])

/-- The session with its step timer. -/
def ticked : Ticker.Ticked Referenced Op Choice where
  system := machine
  tick := .session .stepTimerHandler
  alive s := decide (s.useCount ≠ 0)

/-- A session that was just created. -/
def init (timeout : BitVec 32) : Config (Ticker.State Referenced) (Ticker.Op Op) :=
  ⟨{ object := { session := { timeout } } }, []⟩

/-! ## The last reference -/

/-- No future refers to its session. -/
def Unpinned (s : Session Source) : Prop := ∀ b ∈ s.futures.map Future.session, b = false

theorem useCount_eq_zero {s : Referenced} :
    s.useCount = 0 ↔ s.handles = 0 ∧ s.locks = 0 ∧ Unpinned s.session := by
  have hcount : s.session.futures.countP Future.session = 0 ↔ Unpinned s.session := by
    simp [Unpinned, List.countP_eq_zero]
  unfold useCount
  rw [← hcount]
  omega

/-- Only a request that is sent pins its session. -/
theorem Unpinned.steps {s s' : Session Source} {op : Session.Op} {k : List Session.Op}
    (h : Unpinned s) (hop : byHandle op = false) (hs : Steps s op s' k) : Unpinned s' := by
  cases hs with
  | sendRequest | sendRequestImpl | setTimeout => cases hop
  | timedWait | timedWaitReady | timedWaitExpired => exact h
  | take _ hands =>
    rw [Unpinned, Future.map_eq_of_untimed (fun _ => rfl) hands.futures]
    exact h
  | setResult c =>
    rw [Unpinned, setResult_session]
    intro b hb
    rcases List.mem_or_eq_of_mem_set hb with hb | rfl
    · exact h b hb
    · rfl
  | attachCallback f func =>
    rw [Unpinned, attachCallback_futures (fun _ _ => rfl)]
    exact h
  | runPosted =>
    rw [Unpinned, runPosted_frame]
    exact h

/-- **A destroyed session** stays so: nothing can refer to it again. -/
theorem final_ticked : Ticker.Final ticked := by
  intro s op x s' k hx hdead
  have hzero : s.useCount = 0 := by simpa [ticked] using hdead
  obtain ⟨hhandles, hlocks, hfutures⟩ := useCount_eq_zero.1 hzero
  suffices h : s'.useCount = 0 by simpa [ticked] using h
  cases op with
  | session op =>
    simp only [ticked, machine] at hx
    split at hx
    · cases hx
    · next hn =>
      obtain ⟨⟨session, k'⟩, hx', he⟩ := Option.map_eq_some_iff.1 hx
      cases he
      have hop : byHandle op = false := by
        rw [Bool.eq_false_iff]
        exact fun hb => hn (.inl ⟨hb, hhandles⟩)
      exact useCount_eq_zero.2 ⟨hhandles, hlocks, hfutures.steps hop (exec_steps hx')⟩
  | copyHandle | dropHandle =>
    simp only [ticked, machine, hhandles, if_true] at hx
    cases hx
  | lock op | onNotify =>
    simp only [ticked, machine, hzero, if_true] at hx
    cases hx
    exact hzero
  | unlock =>
    cases hx
    exact useCount_eq_zero.2 ⟨hhandles, by simp [hlocks], hfutures⟩

open Ticker (arms)

/-- **Ticks and lifetime.** In every run, as long as something refers to the session exactly one tick
is to come: the timer waits, the handler is queued or it is under way. After the last reference has
gone the timer never waits again, and at most one tick comes to the destroyed session: none if the
timer was waiting when the last reference went, and one, which is queued, under way or has armed the
timer of the destroyed session, if it was not. -/
theorem step_timer_exact {timeout : BitVec 32} {ls : List (Label (Ticker.Op Op) Choice)}
    {c : Config (Ticker.State Referenced) (Ticker.Op Op)}
    (hrun : ticked.machine.run (init timeout) ls = some c) :
    (c.shared.object.useCount ≠ 0 →
      c.shared.waiting + c.shared.expired + arms c.pending = 1 ∧ c.shared.rearmed = 0) ∧
    (c.shared.object.useCount = 0 →
      c.shared.waiting = 0 ∧ c.shared.expired + arms c.pending + c.shared.rearmed ≤ 1) ∧
    ∀ l c₁ ls' c', ticked.machine.step c l = some c₁ → c.shared.object.useCount ≠ 0 →
      c₁.shared.object.useCount = 0 → ticked.machine.run c₁ ls' = some c' →
        c'.shared.object.useCount = 0 ∧
          c'.shared.expired + arms c'.pending + c'.shared.rearmed = 1 - c.shared.waiting := by
  have halive (s : Referenced) : ticked.alive s = true ↔ s.useCount ≠ 0 := by simp [ticked]
  have hdead (s : Referenced) : ticked.alive s = false ↔ s.useCount = 0 := by simp [ticked]
  have hinit : Ticker.Living ticked (init timeout).shared (init timeout).pending :=
    ⟨rfl, rfl, rfl⟩
  have hliving := Ticker.living_run final_ticked hinit hrun
  refine ⟨?_, ?_, ?_⟩
  · intro hcount
    rcases hliving with h | ⟨n, -, h⟩
    · exact ⟨h.due, h.rearmed⟩
    · exact absurd ((hdead _).1 h.dead) hcount
  · intro hcount
    rcases hliving with h | ⟨n, hn, h⟩
    · exact absurd hcount ((halive _).1 h.alive)
    · exact ⟨h.waiting, h.due ▸ hn⟩
  · intro l c₁ ls' c' hstep hcount hcount' hrun'
    rcases hliving with h | ⟨n, -, h⟩
    · have hgone := Ticker.dead_of_step h hstep ((hdead _).2 hcount')
      have hlater := Ticker.dead_run final_ticked hgone hrun'
      exact ⟨(hdead _).1 hlater.dead, hlater.due⟩
    · exact absurd ((hdead _).1 h.dead) hcount

/-- A request is sent on a session that lets requests wait for no tick, and its handle is dropped. The
timer expires, and the tick takes the future out of the table. -/
def lastTick : List (Label (Ticker.Op Op) Choice) :=
  [.spawn (.run (.session (.sendRequest (.str [0x66]) .nil))), .exec 0 {}, .exec 0 {},
    .spawn (.run .dropHandle), .exec 1 {}, .spawn .expires, .exec 2 {}, .spawn .tick,
    .exec 3 { it := [⟨1, 0⟩] }]

/-- The state then, when the future is completed, and after that. -/
def lastTickAt : Config (Ticker.State Referenced) (Ticker.Op Op) :=
  (ticked.machine.run (init 0) lastTick).getD (init 0)

def lastTickCompleted : Config (Ticker.State Referenced) (Ticker.Op Op) :=
  (ticked.machine.step lastTickAt (.exec 3 {})).getD lastTickAt

def lastTickEnded : Config (Ticker.State Referenced) (Ticker.Op Op) :=
  (ticked.machine.run lastTickCompleted [.exec 3 {}]).getD lastTickCompleted

/-- The completion destroys the session, and `step_timer_handler` arms its timer. -/
theorem lastTick_rearms : lastTickAt.shared.object.useCount = 1 ∧
    lastTickCompleted.shared.object.useCount = 0 ∧
    lastTickEnded.shared.expired + arms lastTickEnded.pending + lastTickEnded.shared.rearmed = 1 ∧
    lastTickEnded.shared.rearmed = 1 := by
  have hrun : ticked.machine.run (init 0) lastTick = some lastTickAt := rfl
  have hstep : ticked.machine.step lastTickAt (.exec 3 {}) = some lastTickCompleted := rfl
  have hrun' : ticked.machine.run lastTickCompleted [.exec 3 {}] = some lastTickEnded := rfl
  have hgone := (step_timer_exact hrun).2.2 _ _ _ _ hstep (by decide) (by decide) hrun'
  exact ⟨by decide, by decide, hgone.2, by decide⟩

end Referenced

end Session

end MsgpackRpc
