import MsgpackRpc.Session.Machine

/-!
# The session pool

`session_pool_impl` (`session_pool.cc`), which keeps one session for each address and drops it after
it has not been used for a while. A session is referenced by its entry in the pool, by the handles
that `get_session` returned and by their copies, and by the futures that are not ready; a tick ages
the entries whose session nothing else references.

The runs are those of a system of threads. The sessions run as in `Session.machine`, so futures are
completed in every way that they can be; a request is sent through a handle. `get_session` is one
step, since it holds the mutex of the table from beginning to end. A tick holds it too, but handles
may be dropped while it walks the table, so it is one step for each entry.
-/

namespace MsgpackRpc

open Threads

/-- `address` (`address.h`): the IP address, by its place in the order of `boost::asio::ip::address`,
and the port. -/
structure Address where
  ip : Nat
  port : UInt16
  deriving DecidableEq, Repr

namespace Address

/-- `operator==` (`address.cc:94`). -/
def equals (a b : Address) : Bool := decide (a.ip = b.ip) && decide (a.port = b.port)

/-- `operator<` (`address.cc:99`). -/
def lt (a b : Address) : Bool :=
  if a.ip = b.ip then decide (a.port < b.port) else decide (a.ip < b.ip)

theorem equals_iff (a b : Address) : a.equals b = true ↔ a = b := by
  cases a
  cases b
  simp [equals]

/-- Two addresses are equal when neither is less: the keys of a `std::map` are told apart as
`operator==` tells them apart. -/
theorem not_lt_iff (a b : Address) : a.lt b = false ∧ b.lt a = false ↔ a = b := by
  constructor
  · rintro ⟨h1, h2⟩
    unfold lt at h1 h2
    by_cases hip : a.ip = b.ip
    · rw [if_pos hip, decide_eq_false_iff_not] at h1
      rw [if_pos hip.symm, decide_eq_false_iff_not] at h2
      have hport : a.port = b.port :=
        UInt16.le_antisymm (UInt16.not_lt.1 h2) (UInt16.not_lt.1 h1)
      cases a
      cases b
      simp_all
    · rw [if_neg hip, decide_eq_false_iff_not] at h1
      rw [if_neg (Ne.symm hip), decide_eq_false_iff_not] at h2
      omega
  · rintro rfl
    simp [lt]

end Address

namespace Pool

/-- A `session_impl`, by its place in the order of construction. -/
abbrev SessionId := Nat

/-- `SESSION_POOL_TIME_LIMIT` (`session_pool.cc:31`). -/
def SESSION_POOL_TIME_LIMIT : BitVec 32 := 60

/-- `session_pool_impl::entry_t` (`session_pool_impl.h:51`). -/
structure Entry where
  session : SessionId
  ttl : BitVec 32
  deriving DecidableEq, Repr

/-- `m_table`. -/
abbrev Table := AList fun _ : Address => Entry

/-- `m_table.find(addr)`, which finds an entry by `operator<`. -/
def find (t : Table) (a : Address) : Option Entry :=
  (t.entries.find? fun e => !e.1.lt a && !a.lt e.1).map Sigma.snd

/-- What happened in a pool, as far as an entry is concerned: `get_session` returned a session, or a
tick visited the entry of an address and found its session referenced by the pool only or not. -/
inductive Event where
  | returned (a : Address) (i : SessionId)
  | visited (a : Address) (unique : Bool)
  deriving DecidableEq, Repr

/-- `session_pool_impl`, with all sessions it has created, each with its address, and the handles to
them. `locked` is `m_table_mutex`, `timeout` is that of `m_builder`, and `history` records what
happened, the latest first. -/
structure State where
  table : Table := ∅
  locked : Bool := false
  timeout : BitVec 32 := 30
  sessions : List (Address × Session Session.Source) := []
  handles : List SessionId := []
  history : List Event := []

/-- The operations: those of the users of the pool and of its timer, the visit of an entry and the
end of a tick, and the operations of a session. -/
inductive Op where
  | getSession (a : Address)
  | copyHandle (i : SessionId)
  | dropHandle (i : SessionId)
  | setTimeout (sec : BitVec 32)
  | stepTimerHandler
  | visit (a : Address)
  | unlock
  | session (i : SessionId) (op : Session.Op)
  deriving DecidableEq, Repr

/-- What an operation does not determine: whether the constructor of a session succeeds, the order in
which a tick walks the table, and the choice of an operation of a session. -/
structure Choice where
  ok : Bool := true
  order : List Address := []
  inner : Session.Choice := {}
  deriving DecidableEq, Repr

/-- The operations that start a thread. -/
def Op.entry : Op → Bool
  | .visit _ | .unlock => false
  | .session _ op => op.entry
  | _ => true

/-- The operations of a session that are called through a handle. -/
def byHandle : Session.Op → Bool
  | .sendRequest _ _ | .sendRequestImpl _ | .setTimeout _ => true
  | _ => false

namespace State

/-- The futures of a session that are not ready, each of which references it. -/
def pendingFutures (s : State) (i : SessionId) : Nat :=
  (s.sessions[i]?.map fun p => p.2.futures.countP Future.session).getD 0

/-- `e.session.use_count()` for a session: its entries, its handles and its futures that are not
ready. -/
def useCount (s : State) (i : SessionId) : Nat :=
  s.table.entries.countP (fun e => e.2.session = i) + s.handles.count i + s.pendingFutures i

/-- `e.session.unique()`. -/
def unique (s : State) (i : SessionId) : Bool := decide (s.useCount i = 1)

/-- `session_pool_impl::get_session` (`session_pool.cc:47`). -/
def getSession (s : State) (a : Address) (ok : Bool) : State :=
  match find s.table a with
  | some e =>
    { s with
      table := s.table.insert a { e with ttl := SESSION_POOL_TIME_LIMIT }
      handles := e.session :: s.handles
      history := .returned a e.session :: s.history }
  | none =>
    if ok then
      let i := s.sessions.length
      { s with
        sessions := s.sessions ++ [(a, { timeout := s.timeout })]
        table := s.table.insert a ⟨i, SESSION_POOL_TIME_LIMIT⟩
        handles := i :: s.handles
        history := .returned a i :: s.history }
    else s

/-- The body of the loop of `session_pool_impl::step_timer_handler` (`session_pool.cc:91`). -/
def visit (s : State) (a : Address) : State :=
  match s.table.lookup a with
  | none => s
  | some e =>
    let visited := { s with history := .visited a (s.unique e.session) :: s.history }
    if s.unique e.session then
      if e.ttl ≤ 0 then { visited with table := s.table.erase a }
      else { visited with table := s.table.insert a { e with ttl := e.ttl - 1 } }
    else visited

end State

/-- The pool as a system of threads. -/
def machine : System State Op Choice where
  entry := Op.entry
  exec s op x :=
    match op with
    | .getSession a => if s.locked then none else some (s.getSession a x.ok, [])
    | .copyHandle i => if i ∈ s.handles then some ({ s with handles := i :: s.handles }, []) else none
    | .dropHandle i => if i ∈ s.handles then some ({ s with handles := s.handles.erase i }, []) else none
    | .setTimeout sec => some ({ s with timeout := sec }, [])
    | .stepTimerHandler =>
      if s.locked then none
      else if x.order.Perm s.table.keys then
        some ({ s with locked := true }, x.order.map .visit ++ [.unlock])
      else none
    | .visit a => some (s.visit a, [])
    | .unlock => some ({ s with locked := false }, [])
    | .session i op =>
      if byHandle op ∧ i ∉ s.handles then none
      else s.sessions[i]?.bind fun p =>
        (Session.machine.exec p.2 op x.inner).map fun r =>
          ({ s with sessions := s.sessions.set i (p.1, r.1) }, r.2.map (.session i))

/-- A pool from which no session was got. -/
def init : Config State Op := ⟨{}, []⟩

/-- The session that `get_session` last returned for an address. -/
def lastReturned (a : Address) : List Event → Option SessionId
  | [] => none
  | .returned b i :: h => if b = a then some i else lastReturned a h
  | .visited _ _ :: h => lastReturned a h

/-- The ticks at which the session of an address was referenced by the pool only, since the last
`get_session` for it. -/
def idleTicks (a : Address) : List Event → Nat
  | [] => 0
  | .returned b _ :: h => if b = a then 0 else idleTicks a h
  | .visited b unique :: h => if b = a ∧ unique = true then idleTicks a h + 1 else idleTicks a h

/-! ## What the operations do -/

/-- `find` is the lookup of an equal key. -/
theorem find_eq_lookup (t : Table) (a : Address) : find t a = t.lookup a := by
  unfold find AList.lookup
  induction t.entries with
  | nil => rfl
  | cons e es ih =>
    obtain ⟨b, e⟩ := e
    by_cases h : b = a
    · subst h
      rw [List.dlookup_cons_eq]
      simp [Address.lt]
    · have hb : (!b.lt a && !a.lt b) = false := by
        by_contra hne
        rw [Bool.not_eq_false, Bool.and_eq_true, Bool.not_eq_true', Bool.not_eq_true'] at hne
        exact h ((Address.not_lt_iff b a).1 hne)
      rw [List.dlookup_cons_ne _ _ (Ne.symm h), ← ih, List.find?_cons]
      simp only [hb]

/-- What a step does: the operations that only touch the mutex, the builder or the handles; those of
`get_session`; the visit of an entry, which evicts it, ages it or leaves it alone; and those of a
session. -/
inductive Steps (s : State) : Op → State → Prop where
  | quiet {op : Op} {s' : State} : (∀ a, op ≠ .visit a) → s'.table = s.table →
    s'.sessions = s.sessions → s'.history = s.history → (∀ i ∈ s'.handles, i ∈ s.handles) →
    Steps s op s'
  | refreshed {a : Address} {e : Entry} : s.table.lookup a = some e →
    Steps s (.getSession a) { s with
      table := s.table.insert a { e with ttl := SESSION_POOL_TIME_LIMIT }
      handles := e.session :: s.handles
      history := .returned a e.session :: s.history }
  | created {a : Address} : s.table.lookup a = none →
    Steps s (.getSession a) { s with
      sessions := s.sessions ++ [(a, { timeout := s.timeout })]
      table := s.table.insert a ⟨s.sessions.length, SESSION_POOL_TIME_LIMIT⟩
      handles := s.sessions.length :: s.handles
      history := .returned a s.sessions.length :: s.history }
  | evicted {a : Address} {e : Entry} : s.table.lookup a = some e → s.unique e.session = true →
    e.ttl = 0 →
    Steps s (.visit a) { s with
      table := s.table.erase a, history := .visited a true :: s.history }
  | aged {a : Address} {e : Entry} : s.table.lookup a = some e → s.unique e.session = true →
    e.ttl ≠ 0 →
    Steps s (.visit a) { s with
      table := s.table.insert a { e with ttl := e.ttl - 1 }
      history := .visited a true :: s.history }
  | spared {a : Address} {e : Entry} : s.table.lookup a = some e → s.unique e.session = false →
    Steps s (.visit a) { s with history := .visited a false :: s.history }
  | absent {a : Address} : s.table.lookup a = none → Steps s (.visit a) s
  | session {i : SessionId} {op : Session.Op} {a : Address} {t t' : Session Session.Source}
    {k : List Session.Op} : (byHandle op = true → i ∈ s.handles) →
    s.sessions[i]? = some (a, t) → Session.Steps t op t' k →
    Steps s (.session i op) { s with sessions := s.sessions.set i (a, t') }

theorem getSession_steps (s : State) (a : Address) (ok : Bool) :
    Steps s (.getSession a) (s.getSession a ok) := by
  unfold State.getSession
  rw [find_eq_lookup]
  cases hl : s.table.lookup a with
  | some e => exact .refreshed hl
  | none =>
    cases ok with
    | true => exact .created hl
    | false => exact .quiet (by simp) rfl rfl rfl fun _ => id

theorem visit_steps (s : State) (a : Address) : Steps s (.visit a) (s.visit a) := by
  unfold State.visit
  cases hl : s.table.lookup a with
  | none => exact .absent hl
  | some e =>
    dsimp only
    cases hu : s.unique e.session with
    | false => exact .spared hl hu
    | true =>
      rw [if_pos rfl]
      split
      · next ht => exact .evicted hl hu (by simpa using ht)
      · next ht => exact .aged hl hu (by simpa using ht)

theorem exec_steps {s s' : State} {op : Op} {x : Choice} {k : List Op}
    (h : machine.exec s op x = some (s', k)) : Steps s op s' := by
  cases op with
  | getSession a =>
    simp only [machine] at h
    split at h
    · cases h
    · cases h
      exact getSession_steps s a x.ok
  | copyHandle i =>
    simp only [machine] at h
    split at h
    · next hi =>
      cases h
      exact .quiet (by simp) rfl rfl rfl (by simp [hi])
    · cases h
  | dropHandle i =>
    simp only [machine] at h
    split at h
    · cases h
      exact .quiet (by simp) rfl rfl rfl fun _ => List.mem_of_mem_erase
    · cases h
  | setTimeout | unlock =>
    cases h
    exact .quiet (by simp) rfl rfl rfl fun _ => id
  | stepTimerHandler =>
    simp only [machine] at h
    split at h
    · cases h
    · split at h
      · cases h
        exact .quiet (by simp) rfl rfl rfl fun _ => id
      · cases h
  | visit a =>
    cases h
    exact visit_steps s a
  | session i op =>
    simp only [machine] at h
    split at h
    · cases h
    · next hn =>
      obtain ⟨⟨a, t⟩, hp, h⟩ := Option.bind_eq_some_iff.1 h
      obtain ⟨⟨t', k'⟩, hx, h⟩ := Option.map_eq_some_iff.1 h
      cases h
      exact .session (fun hb => by_contra fun hi => hn ⟨hb, hi⟩) hp (Session.exec_steps hx)

end Pool

end MsgpackRpc
