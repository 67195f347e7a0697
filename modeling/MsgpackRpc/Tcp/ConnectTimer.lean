import MsgpackRpc.Tcp.Steps

/-!
# The connect timer

`client_transport::connect` arms a timer whose handler, `on_timeout`, is bound without the error code:
it cannot tell an expiry from a cancelled wait, and it does not know its attempt. It tests whether the
socket is closed and whether the expiry time of the timer, which `cancel` leaves in place, has passed.
A handler that is delivered late finds both true after its attempt has succeeded and the connection
has been closed again. It then fails whatever is in the table: requests inserted long after its
attempt, whose own connects and writes succeed (`lateTimeout_fails_newer`).

`onTimeout_own_attempt` says which runs are free of this: those in which, when `on_connect_failed`
gives up, no request is outstanding but those that the attempt was for, and none comes in before the
sweep.
-/

namespace MsgpackRpc

open Threads

namespace Tcp

/-- The sweeps of `session_impl::on_connect_failed`. -/
def Origin.connectFailed : Origin → Bool
  | .tryConnect _ | .onTimeout _ => true
  | _ => false

def Task.failsConnect : Task → Bool
  | .sweep o => o.connectFailed
  | _ => false

/-- No outstanding request has made a connection or is looking for one. -/
def Unconnected (s : Client) (T : Multiset Task) : Prop :=
  ∀ c ∈ s.session.outstanding 0, c ∉ s.connectedBy ∧ .connect c ∉ T

instance (s : Client) (T : Multiset Task) : Decidable (Unconnected s T) :=
  Multiset.decidableForallMultiset

/-- The failure that `on_connect_failed` reports when it gives up: `try_connect` has no retry left, or
`on_timeout` finds the time expired. -/
def Op.givingUp (s : Client) : Op → Option Origin
  | .onConnectFailed c err => if s.retries err then none else some (.tryConnect c)
  | .checkExpired a => if s.expiresAt ≤ s.clock then some (.onTimeout a) else none
  | _ => none

/-- The number of futures inserted when the timer of an `on_timeout` was armed. -/
def Origin.armedAt : Origin → Option Nat
  | .onTimeout a => some a.inserted
  | _ => none

/-- The steps at which `on_connect_failed` gives up for the requests of its own attempt only: no other
outstanding request has made a connection or is looking for one and, for an `on_timeout`, none was
inserted after the attempt was armed. No request is inserted while the sweep is to come. -/
def OwnAttempt (s : Client) (T : Multiset Task) (op : Op) (_ : Choice) : Prop :=
  (∀ _ ∈ op.inserting, ∀ t ∈ T, t.failsConnect = false) ∧
  ∀ o ∈ op.givingUp s, Unconnected s (T - ↑op.task.toList) ∧
    ∀ k ∈ o.armedAt, ∀ f ∈ s.session.reqtable.values, f < k

instance (s : Client) (T : Multiset Task) (op : Op) (x : Choice) :
    Decidable (OwnAttempt s T op x) :=
  inferInstanceAs (Decidable (_ ∧ _))

/-- What a failed connect, being reported or reported, has to do with other attempts. -/
structure Contained (s : Client) (T : Multiset Task) : Prop where
  failing : ∀ o, o.connectFailed = true → .sweep o ∈ T → Unconnected s T
  timeout : ∀ a, .sweep (.onTimeout a) ∈ T → ∀ f ∈ s.session.reqtable.values, f < a.inserted
  handed : ∀ d ∈ s.session.handed, ∀ a, d.origin = .onTimeout a → d.future < a.inserted
  own : ∀ d ∈ s.session.handed, d.origin.connectFailed = true →
    ∀ c, (s.session.futures.map Future.call)[d.future]? = some c → c ∉ s.connectedBy ∧ .connect c ∉ T

theorem Unconnected.mono {s s' : Client} {T T' : Multiset Task} (h : Unconnected s T)
    (ho : s'.session.outstanding 0 ⊆ s.session.outstanding 0)
    (hb : s'.connectedBy = s.connectedBy) (hc : ∀ c, .connect c ∈ T' → .connect c ∈ T) :
    Unconnected s' T' := by
  intro c hmem
  obtain ⟨h1, h2⟩ := h c (ho hmem)
  exact ⟨hb ▸ h1, fun ht => h2 (hc c ht)⟩

/-- A step that makes no connection, reports no failed connect and inserts nothing. -/
theorem Contained.mono {s s' : Client} {T T' : Multiset Task} (h : Contained s T)
    (hv : s'.session.reqtable.values ⊆ s.session.reqtable.values)
    (hf : s'.session.futures.map Future.call = s.session.futures.map Future.call)
    (hh : ∀ d ∈ s'.session.handed, d ∈ s.session.handed ∨ d.origin.connectFailed = false)
    (hb : s'.connectedBy = s.connectedBy) (hc : ∀ c, .connect c ∈ T' → .connect c ∈ T)
    (hs : ∀ o, o.connectFailed = true → .sweep o ∈ T' → .sweep o ∈ T) : Contained s' T' := by
  refine ⟨?_, ?_, ?_, ?_⟩
  · intro o ho ht
    exact (h.failing o ho (hs o ho ht)).mono (Session.outstanding_subset hv hf) hb hc
  · intro a ht f hf
    exact h.timeout a (hs _ rfl ht) f (hv hf)
  · intro d hd a ha
    rcases hh d hd with hd | hd
    · exact h.handed d hd a ha
    · rw [ha] at hd
      cases hd
  · intro d hd ho c hcall
    rcases hh d hd with hd | hd
    · rw [hf] at hcall
      obtain ⟨h1, h2⟩ := h.own d hd ho c hcall
      exact ⟨hb ▸ h1, fun ht => h2 (hc c ht)⟩
    · rw [ho] at hd
      cases hd

/-- `on_system_error` is no failed connect. -/
theorem sweep_mem_of_connectFailed {T : Multiset Task} {o o' : Origin}
    (ho : o.connectFailed = true) (ho' : o'.connectFailed = false)
    (h : .sweep o ∈ ↑[Task.sweep o', .close o'] + T) : .sweep o ∈ T := by
  simp only [Multiset.mem_add, Multiset.mem_coe, List.mem_cons, Task.sweep.injEq, reduceCtorEq,
    List.not_mem_nil, or_false] at h
  refine h.resolve_left ?_
  intro heq
  rw [heq, ho'] at ho
  cases ho

section
variable {s s' : Client} {T T' : Multiset Task}

theorem Contained.inert (h : Contained s T) (hi : Inert s s')
    (hc : ∀ c, .connect c ∈ T' → .connect c ∈ T)
    (hs : ∀ o, o.connectFailed = true → .sweep o ∈ T' → .sweep o ∈ T) : Contained s' T' := by
  refine h.mono hi.values_subset hi.calls ?_ hi.connectedBy hc hs
  rw [hi.handed]
  exact fun _ => .inl

/-- A request is inserted while no failed connect is being reported. Its call is not that of a future
handed out before. -/
theorem Contained.insert {c : Nat} {call : Call} {pending : Multiset (Completion Origin)}
    {inserts : Multiset Nat} (h : Contained s (↑[Task.insert c] + T))
    (hc : s.session.Conserved pending) (hn : s.session.Numbered inserts) (hmem : c ∈ inserts)
    (hnone : ∀ t ∈ ↑[Task.insert c] + T, t.failsConnect = false) :
    Contained { s with session := s.session.sendRequestImpl c call } (↑[Task.connect c] + T) := by
  have hnot {o : Origin} (ho : o.connectFailed = true) (ht : .sweep o ∈ ↑[Task.connect c] + T) :
      False := by
    have hfalse := hnone (.sweep o) (Multiset.mem_add.2 (.inr (by simpa using ht)))
    rw [Task.failsConnect, ho] at hfalse
    cases hfalse
  refine ⟨fun o ho ht => (hnot ho ht).elim, fun a ht => (hnot rfl ht).elim, h.handed, ?_⟩
  intro d hd ho c' hc'
  have hlt := hc.handed_lt_length hd
  simp only [Session.sendRequestImpl, List.map_append] at hc'
  rw [List.getElem?_append_left (by rw [List.length_map]; exact hlt)] at hc'
  obtain ⟨h1, h2⟩ := h.own d hd ho c' hc'
  refine ⟨h1, ?_⟩
  intro ht
  rcases Multiset.mem_add.1 ht with ht | ht
  · cases List.mem_singleton.1 ht
    exact hn.notMem_futures hmem (List.mem_of_getElem? hc')
  · exact h2 (Multiset.mem_add.2 (.inr ht))

/-- A connection is made by a send that was looking for one. -/
theorem Contained.established {c : Nat} (h : Contained s (↑[Task.connect c] + T)) :
    Contained (s.establish c) (↑[Task.write c] + T) := by
  have hnew {c' : Nat} (hc : c' ∉ s.connectedBy ∧ .connect c' ∉ ↑[Task.connect c] + T) :
      c' ∉ (s.establish c).connectedBy ∧ .connect c' ∉ ↑[Task.write c] + T := by
    obtain ⟨h1, h2⟩ := hc
    simp only [Multiset.coe_singleton, Multiset.singleton_add, Multiset.mem_cons,
      Task.connect.injEq, not_or] at h2
    refine ⟨?_, by simpa using h2.2⟩
    intro hmem
    rcases List.mem_append.1 hmem with hmem | hmem
    · exact h1 hmem
    · exact h2.1 (List.mem_singleton.1 hmem)
  refine ⟨?_, ?_, h.handed, ?_⟩
  · intro o ho ht c' hc'
    exact hnew (h.failing o ho (by simpa using ht) c' hc')
  · intro a ht
    exact h.timeout a (by simpa using ht)
  · intro d hd ho c' hc'
    exact hnew (h.own d hd ho c' hc')

/-- `on_connect_failed` gives up for the requests of its own attempt. -/
theorem Contained.givesUp {o : Origin} {K K' : List Task} (h : Contained s (↑K + T))
    (hi : Inert s s') (hun : Unconnected s T)
    (harmed : ∀ k ∈ o.armedAt, ∀ f ∈ s.session.reqtable.values, f < k)
    (hK : ∀ c, .connect c ∉ K') (hK' : ∀ o', .sweep o' ∈ K' → o' = o) :
    Contained s' (↑K' + T) := by
  have hconn {c : Nat} (ht : .connect c ∈ ↑K' + T) : .connect c ∈ T :=
    (Multiset.mem_add.1 ht).resolve_left (hK c)
  refine ⟨?_, ?_, ?_, ?_⟩
  · intro _ _ _
    exact hun.mono (Session.outstanding_subset hi.values_subset hi.calls) hi.connectedBy
      fun c => hconn
  · intro a ht f hf
    rcases Multiset.mem_add.1 ht with ht | ht
    · obtain rfl := hK' _ ht
      exact harmed _ rfl f (hi.values_subset hf)
    · exact h.timeout a (Multiset.mem_add.2 (.inr ht)) f (hi.values_subset hf)
  · rw [hi.handed]
    exact h.handed
  · rw [hi.handed, hi.calls, hi.connectedBy]
    intro d hd ho c hc
    obtain ⟨h1, h2⟩ := h.own d hd ho c hc
    exact ⟨h1, fun ht => h2 (Multiset.mem_add.2 (.inr (hconn ht)))⟩

/-- The table is swept. -/
theorem Contained.swept {o : Origin} {session : Session Origin} {cs : List (Completion Origin)}
    (h : Contained s (↑[Task.sweep o] + T)) (hs : s.session.Hands session cs)
    (hempty : session.reqtable = ∅) (ho : ∀ d ∈ cs, d.origin = o ∧ d.error = CONNECT_ERROR) :
    Contained { s with session } (↑(cs.map Task.complete) + T) := by
  have hcalls : session.futures.map Future.call = s.session.futures.map Future.call :=
    Future.map_eq_of_untimed (fun _ => rfl) hs.futures
  have hmem : .sweep o ∈ ↑[Task.sweep o] + T := by simp
  have hout : session.outstanding 0 = 0 := by
    rw [Session.outstanding, hempty]
    rfl
  refine ⟨?_, ?_, ?_, ?_⟩
  · intro o' _ _ c hc
    rw [hout] at hc
    exact absurd hc (Multiset.notMem_zero c)
  · intro a _ f hf
    rw [hempty] at hf
    exact absurd hf (Multiset.notMem_zero f)
  · intro d hd a hda
    rw [hs.handed] at hd
    rcases List.mem_append.1 hd with hd | hd
    · exact h.handed d hd a hda
    · rw [(ho d hd).1] at hda
      subst hda
      exact h.timeout a hmem d.future (hs.mem_values hd)
  · intro d hd hof c hc
    rw [hs.handed] at hd
    rw [hcalls] at hc
    have hrest (hc : c ∉ s.connectedBy ∧ .connect c ∉ ↑[Task.sweep o] + T) :
        c ∉ s.connectedBy ∧ .connect c ∉ ↑(cs.map Task.complete) + T :=
      ⟨hc.1, fun ht => hc.2 (Multiset.mem_add.2 (.inr (by simpa using ht)))⟩
    rcases List.mem_append.1 hd with hd | hd
    · exact hrest (h.own d hd hof c hc)
    · -- the future was in the table
      rw [(ho d hd).1] at hof
      refine hrest (h.failing o hof hmem c ?_)
      rw [Session.outstanding, zero_add, Multiset.mem_filterMap]
      exact ⟨d.future, hs.mem_values hd, by rw [← List.getElem?_map]; exact hc⟩

end

theorem contained_step {s s' : Client} {x : Choice} {op : Op} {K : List Task} {T : Multiset Task}
    (ha : Accounted s.session (↑op.task.toList + T)) (h : Contained s (↑op.task.toList + T))
    (hg : OwnAttempt s (↑op.task.toList + T) op x) (hs : Steps s x op s' K) :
    Contained s' (↑K + T) := by
  cases hs with
  | quiet hq => exact h.inert hq.inert (fun _ => id) fun _ _ => id
  | complete d => exact h.inert (inert_setResult s d) (by simp [Op.task]) (by simp [Op.task])
  | @insert c call hcall =>
    refine h.insert ha.conserved ha.numbered ?_ (hg.1 c rfl)
    simp [Op.task, Task.insertion]
  | established hok hopened => exact h.established
  | @gaveUp c err hr =>
    obtain ⟨hun, harmed⟩ := hg.2 (.tryConnect c) (if_neg (Bool.eq_false_iff.1 hr))
    rw [add_tsub_cancel_left] at hun
    exact h.givesUp (Quiet.inert ⟨.refl _, rfl⟩) hun harmed (by simp) (by simp)
  | @expired a he =>
    obtain ⟨hun, harmed⟩ := hg.2 (.onTimeout a) (if_pos he)
    rw [add_tsub_cancel_left] at hun
    exact h.givesUp (Quiet.inert ⟨.refl _, rfl⟩) hun harmed (by simp) (by simp)
  | sweep hs hempty ho => exact h.swept hs hempty ho
  | take hop hs ho =>
    refine h.mono hs.values_subset (Future.map_eq_of_untimed (fun _ => rfl) hs.futures) ?_ rfl
      (by simp [hop]) (by simp [hop])
    intro d hd
    rw [hs.handed] at hd
    refine (List.mem_append.1 hd).imp_right ?_
    intro hd
    rcases ho d hd with ho | ⟨ho, -⟩
    · rw [ho]
      rfl
    · rw [ho]
      rfl
  | dropped hop _ =>
    exact h.mono (fun _ => id) rfl (fun _ => .inl) rfl (by simp [hop]) (by simp [hop])
  | writeFailed | readFailed =>
    refine h.mono (fun _ => id) rfl (fun _ => .inl) rfl (by simp [Op.task]) ?_
    intro o ho ht
    exact Multiset.mem_add.2 (.inr (sweep_mem_of_connectFailed ho rfl ht))
  | found =>
    refine h.mono (fun _ => id) rfl (fun _ => .inl) rfl ?_ (by simp [Op.task])
    intro c hc
    exact Multiset.mem_add.2 (.inr (by simpa using hc))
  | sendRequest | opened | wrote | skipped | close =>
    exact h.mono (fun _ => id) rfl (fun _ => .inl) rfl (by simp [Op.task]) (by simp [Op.task])

/-- **A connect timer fails only its own attempt.** In every run whose steps meet `OwnAttempt`: the
futures that an `on_timeout` has taken, to complete them with `CONNECT_ERROR`, were inserted no later
than the attempt that armed it; and no future that an `on_connect_failed` has taken, called by
`on_timeout` or by `try_connect`, is that of a request whose own connect and write succeed. -/
theorem onTimeout_own_attempt {connectTimeout reconnectLimit : Int} {timeout : BitVec 32}
    {ls : List (Label Op Choice)} {c : Config Client Op}
    (hG : machine.Meets (fun s ops => OwnAttempt s (tasks ops))
      (init connectTimeout reconnectLimit timeout) ls)
    (hrun : machine.run (init connectTimeout reconnectLimit timeout) ls = some c) :
    (∀ d ∈ c.shared.session.handed, ∀ a, d.origin = .onTimeout a → d.future < a.inserted) ∧
      ∀ d ∈ c.shared.session.handed, d.origin.connectFailed = true →
        ∀ fut, c.shared.session.futures[d.future]? = some fut →
          ¬ (fut.call ∈ c.shared.connectedBy ∧ ∃ n, (fut.call, n) ∈ c.shared.written) := by
  have h := (invariant Contained (fun _ _ _ _ _ _ ha h hg hs => contained_step ha h hg hs)
    ⟨by simp, by simp, by simp [init], by simp [init]⟩ hG hrun).2
  refine ⟨h.handed, ?_⟩
  intro d hd ho fut hfut hboth
  exact (h.own d hd ho fut.call (by rw [List.getElem?_map, hfut]; rfl)).1 hboth.1

/-- A request is answered on the first connection, whose attempt has cancelled its timer; the peer
closes the connection, and the time of the timer passes. The handler of the timer is delivered in the
flush of the next send, which then connects and writes. -/
def lateTimeout : List (Label Op Choice) :=
  .spawn (.sendRequest (.str [0x66]) .nil) :: List.replicate 15 (.exec 0 {}) ++
  [.spawn (.readCompletes 0 (.data [(1, .integer 5, .nil)] false)), .exec 1 {},
    .spawn (.onRead 0), .exec 2 {}, .exec 2 {}, .exec 2 {}, .exec 2 {},
    .spawn (.readCompletes 0 (.error 2)), .exec 3 {},
    .spawn (.onRead 0), .exec 4 {}, .exec 4 {}, .exec 4 {}, .exec 4 {}, .spawn .tick, .exec 5 {},
    .spawn (.sendRequest (.str [0x67]) .nil), .exec 6 {}, .exec 6 {},
    .exec 6 { calls := [.onTimeout 0] }, .exec 6 {}, .exec 6 {}, .exec 6 {},
    .exec 6 { it := [⟨2, 1⟩] }] ++ List.replicate 13 (.exec 6 {})

/-- The state after that. -/
def lateTimeoutHandled : Config Client Op := (machine.run (init 1 3 30) lateTimeout).getD (init 1 3 30)

/-- The `on_timeout` of the first attempt completes the second request, which was inserted later and
whose own connect and write succeed. -/
theorem lateTimeout_fails_newer :
    machine.run (init 1 3 30) lateTimeout = some lateTimeoutHandled ∧
      (∃ d ∈ lateTimeoutHandled.shared.session.completions, d.future = 1 ∧
        d.origin = .onTimeout ⟨0, 1⟩ ∧ d.error = CONNECT_ERROR ∧ ¬ d.future < 1) ∧
      (lateTimeoutHandled.shared.session.futures.map Future.call)[1]? = some 1 ∧
      1 ∈ lateTimeoutHandled.shared.connectedBy ∧ (1, 1) ∈ lateTimeoutHandled.shared.written := by
  refine ⟨rfl, ⟨⟨1, .onTimeout ⟨0, 1⟩, some 2, .nil, CONNECT_ERROR⟩, ?_, rfl, rfl, rfl, by decide⟩, rfl,
    ?_, ?_⟩
  · exact List.mem_of_getElem? (i := 1) rfl
  · exact List.mem_of_getElem? (i := 1) rfl
  · exact List.mem_of_getElem? (i := 1) rfl

/-- The connect of a request fails; the handler of its timer is delivered late, when no request is
outstanding; then a request is sent. -/
def harmlessTimeout : List (Label Op Choice) :=
  .spawn (.sendRequest (.str [0x66]) .nil) :: List.replicate 7 (.exec 0 {}) ++
  [.exec 0 { ok := false }, .exec 0 {}, .exec 0 {}, .exec 0 { it := [⟨1, 0⟩] }, .exec 0 {}, .exec 0 {},
    .exec 0 {}, .spawn .tick, .exec 1 {}, .spawn (.onTimeout 0), .exec 2 {}, .exec 2 {}, .exec 2 {},
    .exec 2 {}, .spawn (.sendRequest (.str [0x67]) .nil)] ++ List.replicate 15 (.exec 3 {})

/-- The state after that. -/
def harmlessTimeoutHandled : Config Client Op :=
  (machine.run (init 1 1 30) harmlessTimeout).getD (init 1 1 30)

theorem onTimeout_own_attempt_harmless :
    machine.run (init 1 1 30) harmlessTimeout = some harmlessTimeoutHandled ∧
      harmlessTimeoutHandled.shared.session.handed.map Completion.origin = [.tryConnect 0] ∧
      harmlessTimeoutHandled.shared.written = [(1, 0)] ∧
      ∀ d ∈ harmlessTimeoutHandled.shared.session.handed, ∀ a, d.origin = .onTimeout a →
        d.future < a.inserted := by
  have hrun : machine.run (init 1 1 30) harmlessTimeout = some harmlessTimeoutHandled := rfl
  have hG : machine.Meets (fun s ops => OwnAttempt s (tasks ops)) (init 1 1 30) harmlessTimeout := by
    decide
  exact ⟨hrun, rfl, rfl, (onTimeout_own_attempt hG hrun).1⟩

end Tcp

end MsgpackRpc
