import MsgpackRpc.Session.Timeouts

/-!
# Waiting for a future

`future_impl::join` (`future.cc:72`), which `get` and `wait` call on a pending future. If the loop has
workers it waits with a timeout, otherwise it runs handlers of the loop itself, `run_once` by
`run_once`, until the future is ready. `is_running` only tells whether there are workers: on an
`io_service` that has been stopped `run_once` runs nothing, nobody else runs handlers either, and the
wait goes round for ever (`join_spins`).

`Wait` is an unending wait, as the sequence of the states in which `join` tests the future, and `Fair`
what is assumed of the loop, of the other threads and of Boost. `join_returns_iff` is the exact
condition.
-/

namespace MsgpackRpc

open Threads

/-! ## The loop -/

/-- `loop_impl` (`loop.cc`): the number of threads in `m_workers`, and whether its `io_service` is
stopped. The threads run handlers until it is. -/
structure Loop where
  workers : Nat := 0
  stopped : Bool := false
  deriving DecidableEq, Repr

namespace Loop

/-- The exception of `loop_impl::start`, "loop is already running". -/
inductive Error where
  | alreadyRunning
  deriving DecidableEq, Repr

/-- The calls of a loop, and the event that whoever runs its `io_service` finds no work left. -/
inductive Op where
  | start (num : Nat)
  | runOnce
  | flush
  | end'
  | join
  | idle
  deriving DecidableEq, Repr

/-- `loop_impl::is_running` (`loop.cc:71`). -/
def isRunning (l : Loop) : Bool := l.workers != 0

/-- `loop_impl::start` (`loop.cc:25`). -/
def start (l : Loop) (num : Nat) : Except Error Loop :=
  if 0 < num then
    if l.isRunning then .error .alreadyRunning else .ok { l with workers := num }
  else .ok l

/-- `loop_impl::join` (`loop.cc:48`), which returns when all workers have. They do when the
`io_service` is stopped. -/
def join (l : Loop) : Option Loop :=
  if l.isRunning ∧ l.stopped = false then none else some { l with workers := 0 }

/-- A call. `run_once` and `flush` run handlers, if the `io_service` is not stopped, and change
nothing in the loop. Boost stops an `io_service` that runs out of work, too. Nothing resets it. -/
def step (l : Loop) : Op → Option Loop
  | .start num =>
    match l.start num with
    | .ok l => some l
    | .error _ => some l
  | .runOnce | .flush => some l
  | .end' | .idle => some { l with stopped := true }
  | .join => l.join

/-- A sequence of calls. -/
def run (l : Loop) : List Op → Option Loop
  | [] => some l
  | op :: ops => (l.step op).bind fun l => run l ops

/-- What stops the `io_service`. -/
def Op.stops : Op → Bool
  | .end' | .idle => true
  | _ => false

theorem step_stopped {l l' : Loop} {op : Op} (h : l.step op = some l') :
    l'.stopped = (l.stopped || op.stops) := by
  cases op with
  | start num =>
    simp only [step, start] at h
    split at h
    · next he =>
      cases h
      split at he
      · split at he
        · cases he
        · cases he
          simp [Op.stops]
      · cases he
        simp [Op.stops]
    · cases h
      simp [Op.stops]
  | runOnce | flush =>
    cases h
    simp [Op.stops]
  | end' | idle =>
    cases h
    simp [Op.stops]
  | join =>
    simp only [step, join] at h
    split at h
    · cases h
    · cases h
      simp [Op.stops]

/-- An `io_service` is stopped once something has stopped it. -/
theorem run_stopped {l l' : Loop} {ops : List Op} (h : l.run ops = some l') :
    l'.stopped = (l.stopped || ops.any Op.stops) := by
  induction ops generalizing l with
  | nil =>
    cases h
    simp
  | cons op ops ih =>
    obtain ⟨l₁, hstep, hrun⟩ := Option.bind_eq_some_iff.1 h
    rw [ih hrun, step_stopped hstep, List.any_cons, Bool.or_assoc]

end Loop

namespace Session

/-! ## The wait -/

/-- The operations that only handlers of the loop make. -/
def Op.fromLoop : Op → Bool
  | .onResponse _ _ _ | .stepTimerHandler | .runPosted => true
  | _ => false

/-- How many operations of its thread an operation is away from the completion of `f`, if it leads
there: a `timed_wait` for `f` that finds it pending completes it when it runs out. -/
def Op.toResult (f : FutureId) : Op → Option Nat
  | .timedWait g => if g = f then some 2 else none
  | .timedWaitExpired g => if g = f then some 1 else none
  | .setResult d => if d.future = f then some 0 else none
  | _ => none

/-- What happens in one round of a wait: the steps of the session, those of the handlers that are run
and of all other threads, and whether the wait on the condition variable times out. -/
structure Turn where
  labels : List (Label Op Choice) := []
  expired : Bool := false
  deriving DecidableEq, Repr

/-- One round of `future_impl::join`: of the loop in `timed_wait` (`future.cc:55`), which completes the
future when it times out, or of the loop in `recv` (`future.cc:67`). -/
def joinRound (l : Loop) (f : FutureId) (c : Config (Session Source) Op) (t : Turn) :
    Option (Config (Session Source) Op) :=
  if l.isRunning then
    (machine.run c t.labels).map fun c =>
      if t.expired then
        { c with shared := (c.shared.setResult ⟨f, .timedWait, none, .nil, TIMEOUT_ERROR⟩).1 }
      else c
  else if l.stopped && (machine.executed c t.labels).any Op.fromLoop then none
  else machine.run c t.labels

/-- A wait for `f` that starts at `c₀`: `c n` is the session when `m_session` is tested for the `n`th
time. -/
structure Wait (l : Loop) (f : FutureId) (c₀ : Config (Session Source) Op)
    (c : Nat → Config (Session Source) Op) (t : Nat → Turn) : Prop where
  start : c 0 = c₀
  round : ∀ n, ¬ (c n).shared.Ready f → joinRound l f (c n) (t n) = some (c (n + 1))

/-- What is assumed, as long as the future is pending: where the waiting thread runs handlers, the step
timer fires again and again; a thread that is about to complete the future, or waits for it with a
timeout, goes on; the wait on the condition variable times out in the end. -/
structure Fair (l : Loop) (f : FutureId) (c : Nat → Config (Session Source) Op) (t : Nat → Turn) :
    Prop where
  stepTimer : l.isRunning = false → l.stopped = false → ∀ n, ∃ m ≥ n,
    (c m).shared.Ready f ∨ .stepTimerHandler ∈ machine.executed (c m) (t m).labels
  toResult : ∀ n, ∀ op ∈ (c n).pending, (op.toResult f).isSome → ∃ m ≥ n,
    (c m).shared.Ready f ∨ op ∈ machine.executed (c m) (t m).labels
  timedWait : l.isRunning = true → ∃ n, (c n).shared.Ready f ∨ (t n).expired = true

/-- `join` returns after finitely many rounds, in every fair wait in which no request overwrites the
entry of the future. -/
def JoinReturns (l : Loop) (f : FutureId) (c₀ : Config (Session Source) Op) : Prop :=
  ∀ c t, Wait l f c₀ c t → Fair l f c t → (∀ n, f ∉ (c n).shared.displaced) →
    ∃ n, (c n).shared.Ready f

/-! ## Completed futures are ready -/

section
variable {s s' : Session Source} {op : Op} {k : List Op} {f : FutureId}

theorem Ready.steps (h : Ready s f) (hs : Steps s op s' k) : Ready s' f := by
  cases hs with
  | sendRequest | timedWait | timedWaitReady | timedWaitExpired | setTimeout => exact h
  | sendRequestImpl => exact h.sendRequestImpl _ _
  | take _ hands => exact h.hands hands
  | setResult c => exact h.setResult c
  | attachCallback g func => exact h.attachCallback g func
  | runPosted => exact h.runPosted

/-- An operation that leads to the completion of `f` is followed by one that is nearer. -/
theorem toResult_exec {x : Choice} {n : Nat} (hf : f < s.futures.length)
    (hop : op.toResult f = some n) (hx : machine.exec s op x = some (s', k)) :
    Ready s' f ∨ ∃ op' ∈ k, ∃ m < n, op'.toResult f = some m := by
  cases op with
  | timedWait g =>
    obtain ⟨rfl, rfl⟩ : g = f ∧ 2 = n := by simpa [Op.toResult] using hop
    obtain ⟨fut, hfut, he⟩ := Option.map_eq_some_iff.1 hx
    obtain ⟨rfl, rfl⟩ := Prod.mk.inj he
    cases hs : fut.session with
    | true => exact .inr ⟨_, List.mem_singleton_self _, 1, by omega, by simp [Op.toResult]⟩
    | false => exact .inl (by rw [Ready, List.getElem?_map, hfut, Option.map_some, hs])
  | timedWaitExpired g =>
    obtain ⟨rfl, rfl⟩ : g = f ∧ 1 = n := by simpa [Op.toResult] using hop
    cases hx
    exact .inr ⟨_, List.mem_singleton_self _, 0, by omega, by simp [Op.toResult]⟩
  | setResult d =>
    obtain ⟨rfl, rfl⟩ : d.future = f ∧ 0 = n := by simpa [Op.toResult] using hop
    cases exec_steps hx with
    | setResult => exact .inl (ready_setResult hf)
    | take he => cases he
  | _ => cases hop

end

section
variable {c c' : Config (Session Source) Op} {ls : List (Label Op Choice)} {f : FutureId}

theorem length_run (hf : f < c.shared.futures.length) (hrun : machine.run c ls = some c') :
    f < c'.shared.futures.length := by
  refine machine.invariant (G := fun _ _ _ _ => True) (fun s _ => f < s.futures.length)
    (fun _ _ _ h _ => h) ?_ hf (System.meets_true c ls) hrun
  intro s op rest x s' k h _ hx
  exact Nat.lt_of_lt_of_le h (length_mono (exec_steps hx))

/-- **An operation that leads to the completion of a future**, when it is executed in a run, leaves the
future ready, or an operation pending that is nearer. -/
theorem toResult_executed {n : Nat} (hf : f < c.shared.futures.length)
    (hrun : machine.run c ls = some c') {op : Op} (hop : op ∈ machine.executed c ls)
    (hn : op.toResult f = some n) :
    c'.shared.Ready f ∨ ∃ op ∈ c'.pending, ∃ m < n, op.toResult f = some m := by
  have h := machine.invariant_executed (t := [])
    (fun tr s ops => f < s.futures.length ∧ ((∃ op ∈ tr, op.toResult f = some n) →
      Ready s f ∨ ∃ op ∈ ops, ∃ m < n, op.toResult f = some m))
    ?_ ?_ ⟨hf, by simp⟩ (System.meets_true c ls) hrun
  · exact h.2 ⟨op, hop, hn⟩
  · rintro tr s ops op ⟨hlt, h⟩ -
    refine ⟨hlt, fun htr => (h htr).imp_right ?_⟩
    rintro ⟨op', hop', hm⟩
    exact ⟨op', Multiset.mem_cons_of_mem hop', hm⟩
  · rintro tr s op rest x s' k ⟨hlt, h⟩ - hx
    have hs := exec_steps hx
    refine ⟨Nat.lt_of_lt_of_le hlt (length_mono hs), ?_⟩
    -- the operation executed now, if it leads to the completion, and any other that is pending
    have now {j : Nat} (hj : op.toResult f = some j) :
        Ready s' f ∨ ∃ op' ∈ (↑k + rest : Multiset Op), ∃ m < j, op'.toResult f = some m := by
      refine (toResult_exec hlt hj hx).imp_right ?_
      rintro ⟨op', hop', hm⟩
      exact ⟨op', Multiset.mem_add.2 (.inl (Multiset.mem_coe.2 hop')), hm⟩
    rintro ⟨op', hop', hn'⟩
    rcases List.mem_append.1 hop' with hop' | hop'
    · rcases h ⟨op', hop', hn'⟩ with hr | ⟨op₁, hop₁, m, hm, hm'⟩
      · exact .inl (hr.steps hs)
      rcases Multiset.mem_cons.1 hop₁ with rfl | hop₁
      · refine (now hm').imp_right ?_
        rintro ⟨op₂, hop₂, j, hj, hj'⟩
        exact ⟨op₂, hop₂, j, Nat.lt_trans hj hm, hj'⟩
      · exact .inr ⟨op₁, Multiset.mem_add.2 (.inr hop₁), m, hm, hm'⟩
    · obtain rfl := List.mem_singleton.1 hop'
      exact now hn'

/-- A future that was taken out of the table is ready, or is about to be completed. -/
theorem ready_or_pending (hrun : machine.run init ls = some c) {d : Completion Source}
    (hd : d ∈ c.shared.handed) : c.shared.Ready d.future ∨ .setResult d ∈ c.pending := by
  have h := machine.invariant (G := fun _ _ _ _ => True)
    (fun s ops => Conserved s (completionsOf ops) ∧
      ∀ d ∈ s.completions, d.extracted.isSome → Ready s d.future)
    ?_ ?_ ⟨conserved_init _, by simp [init]⟩ (System.meets_true init ls) hrun
  · obtain ⟨hsome, hmade⟩ := h.1.made_or_pending hd
    exact hmade.imp (fun hd => h.2 d hd hsome) mem_completionsOf
  · rintro s ops op ⟨hcons, h⟩ hop
    exact ⟨hcons.entry hop, h⟩
  · rintro s op rest x s' k ⟨hcons, h⟩ - hx
    have hs := exec_steps hx
    refine ⟨conserved_exec hcons hx, ?_⟩
    intro d hd hsome
    rcases completions_steps hs with he | ⟨d', rfl, rfl, he⟩
    · exact (h d (he ▸ hd) hsome).steps hs
    rw [he] at hd
    rcases List.mem_append.1 hd with hd | hd
    · exact (h d hd hsome).steps hs
    · obtain rfl := List.mem_singleton.1 hd
      have hhanded : d ∈ (↑s.handed : Multiset (Completion Source)) := by
        rw [hcons.handed, completionsOf_setResult]
        refine Multiset.mem_filter.2 ⟨?_, hsome⟩
        exact Multiset.mem_add.2 (.inr (Multiset.mem_cons_self _ _))
      exact ready_setResult (hcons.handed_lt_length (Multiset.mem_coe.1 hhanded))

end

/-! ## Waits -/

section
variable {l : Loop} {f : FutureId} {c₀ : Config (Session Source) Op}
  {c : Nat → Config (Session Source) Op} {t : Nat → Turn} {ls : List (Label Op Choice)}

/-- A round after which the future is still pending is a run of the session. -/
theorem joinRound_pending {c c' : Config (Session Source) Op} {t : Turn}
    (hlt : f < c.shared.futures.length) (h : joinRound l f c t = some c')
    (hpending : ¬ c'.shared.Ready f) :
    machine.run c t.labels = some c' ∧ (l.isRunning = true → t.expired = false) := by
  unfold joinRound at h
  split at h
  · obtain ⟨c₁, hrun, rfl⟩ := Option.map_eq_some_iff.1 h
    cases he : t.expired with
    | true =>
      rw [he, if_pos rfl] at hpending
      exact absurd (ready_setResult (length_run hlt hrun)) hpending
    | false => exact ⟨hrun, fun _ => rfl⟩
  · next hl =>
    split at h
    · cases h
    · exact ⟨h, fun hr => absurd hr hl⟩

/-- A wait that never ends is a run of the session. -/
theorem Wait.reaches (hw : Wait l f c₀ c t) (hrun : machine.run init ls = some c₀)
    (hlt : f < c₀.shared.futures.length) (hnever : ∀ n, ¬ (c n).shared.Ready f) (n : Nat) :
    f < (c n).shared.futures.length ∧ ∃ ls, machine.run init ls = some (c n) := by
  induction n with
  | zero =>
    rw [hw.start]
    exact ⟨hlt, ls, hrun⟩
  | succ n ih =>
    obtain ⟨hlt, ls, hls⟩ := ih
    obtain ⟨hn, -⟩ := joinRound_pending hlt (hw.round n (hnever n)) (hnever (n + 1))
    refine ⟨length_run hlt hn, ls ++ (t n).labels, ?_⟩
    rw [System.run_append, hls]
    exact hn

theorem Wait.run (hw : Wait l f c₀ c t) (hrun : machine.run init ls = some c₀)
    (hlt : f < c₀.shared.futures.length) (hnever : ∀ n, ¬ (c n).shared.Ready f) (n : Nat) :
    machine.run (c n) (t n).labels = some (c (n + 1)) ∧
      (l.isRunning = true → (t n).expired = false) :=
  joinRound_pending (hw.reaches hrun hlt hnever n).1 (hw.round n (hnever n)) (hnever (n + 1))

/-- In such a wait no operation is pending that leads to the completion of the future. -/
theorem Wait.toResult (hw : Wait l f c₀ c t) (hfair : Fair l f c t)
    (hrun : machine.run init ls = some c₀) (hlt : f < c₀.shared.futures.length)
    (hnever : ∀ n, ¬ (c n).shared.Ready f) (k : Nat) :
    ∀ n, ∀ op ∈ (c n).pending, op.toResult f ≠ some k := by
  induction k using Nat.strongRecOn with
  | ind k ih =>
    intro n op hop hk
    obtain ⟨m, -, hr | hm⟩ := hfair.toResult n op hop (by rw [hk]; rfl)
    · exact hnever m hr
    · have hlt' := (hw.reaches hrun hlt hnever m).1
      have hrun' := (hw.run hrun hlt hnever m).1
      rcases toResult_executed hlt' hrun' hm hk with hr | ⟨op', hop', j, hj, hj'⟩
      · exact hnever (m + 1) hr
      · exact ih j hj (m + 1) op' hop' hj'

/-- The future stays in the table. -/
theorem Wait.mem_values (hw : Wait l f c₀ c t) (hfair : Fair l f c t)
    (hrun : machine.run init ls = some c₀) (hlt : f < c₀.shared.futures.length)
    (hnever : ∀ n, ¬ (c n).shared.Ready f) (hkept : ∀ n, f ∉ (c n).shared.displaced) (n : Nat) :
    f ∈ (c n).shared.reqtable.values := by
  obtain ⟨hlt', ls', hls⟩ := hw.reaches hrun hlt hnever n
  rcases (conserved_run hls).cases hlt' with hv | ⟨d, hd, rfl⟩ | hd
  · exact hv
  · rcases ready_or_pending hls hd with hr | hp
    · exact absurd hr (hnever n)
    · exact absurd (by simp [Op.toResult]) (hw.toResult hfair hrun hlt hnever 0 n _ hp)
  · exact absurd hd (hkept n)

/-- The operations executed in the first rounds. -/
def rounds (c : Nat → Config (Session Source) Op) (t : Nat → Turn) : Nat → List Op
  | 0 => []
  | n + 1 => rounds c t n ++ machine.executed (c n) (t n).labels

/-- A timer that fires again and again fires any number of times. -/
theorem ticks_rounds (h : ∀ n, ∃ m ≥ n, .stepTimerHandler ∈ machine.executed (c m) (t m).labels)
    (k : Nat) : ∃ n, k ≤ ticks (rounds c t n) := by
  have mono (n d : Nat) : ticks (rounds c t n) ≤ ticks (rounds c t (n + d)) := by
    induction d with
    | zero => exact Nat.le_refl _
    | succ d ih =>
      refine Nat.le_trans ih ?_
      rw [← Nat.add_assoc, rounds, ticks, ticks, List.count_append]
      exact Nat.le_add_right _ _
  induction k with
  | zero => exact ⟨0, Nat.zero_le _⟩
  | succ k ih =>
    obtain ⟨n, hn⟩ := ih
    obtain ⟨m, hm, hmem⟩ := h n
    obtain ⟨d, rfl⟩ := Nat.exists_eq_add_of_le hm
    refine ⟨n + d + 1, ?_⟩
    have hle := mono n d
    have hpos := List.count_pos_iff.2 hmem
    rw [rounds, ticks, List.count_append]
    unfold ticks at hn hle
    omega

/-- While the future is in the table, each tick takes one off its time. -/
theorem Wait.timed (hw : Wait l f c₀ c t) (hrun : machine.run init ls = some c₀)
    (hlt : f < c₀.shared.futures.length) (hnever : ∀ n, ¬ (c n).shared.Ready f)
    (hmem : f ∈ c₀.shared.reqtable.values) : ∃ T, ∀ n, Timed f T (rounds c t n) (c n).shared := by
  have hfut : (c₀.shared.futures.map Future.timeout)[f]? =
      some (c₀.shared.futures.get ⟨f, hlt⟩).timeout := by
    rw [List.getElem?_map, List.getElem?_eq_getElem hlt]
    rfl
  refine ⟨(c₀.shared.futures.get ⟨f, hlt⟩).timeout.toNat, fun n => ?_⟩
  induction n with
  | zero =>
    rw [hw.start]
    refine ⟨_, hfut, fun _ => rfl, ?_⟩
    rintro d hd rfl
    exact absurd hmem ((conserved_run hrun).notMem_handed hd)
  | succ n ih =>
    obtain ⟨ls', hls⟩ := (hw.reaches hrun hlt hnever n).2
    exact (timed_run (conserved_run hls) ih (hw.run hrun hlt hnever n).1).2

/-- **Waits that end.** -/
theorem joinReturns_of (hrun : machine.run init ls = some c₀) (hlt : f < c₀.shared.futures.length)
    (h : l.isRunning = true ∨ l.stopped = false ∨ ∃ op ∈ c₀.pending, (op.toResult f).isSome) :
    JoinReturns l f c₀ := by
  intro c t hw hfair hkept
  by_contra hex
  have hnever : ∀ n, ¬ (c n).shared.Ready f := fun n hr => hex ⟨n, hr⟩
  cases hl : l.isRunning with
  | true =>
    obtain ⟨n, hr | he⟩ := hfair.timedWait hl
    · exact hnever n hr
    · rw [(hw.run hrun hlt hnever n).2 hl] at he
      cases he
  | false =>
    rcases h with h | hs | ⟨op, hop, hsome⟩
    · rw [hl] at h
      cases h
    · have hmem := hw.mem_values hfair hrun hlt hnever hkept
      obtain ⟨T, hT⟩ := hw.timed hrun hlt hnever (hw.start ▸ hmem 0)
      obtain ⟨n, hn⟩ := ticks_rounds (k := T + 1) fun n => by
        obtain ⟨m, hm, hr⟩ := hfair.stepTimer hl hs n
        exact ⟨m, hm, hr.resolve_left (hnever m)⟩
      obtain ⟨time, -, hin, -⟩ := hT n
      have hsum := hin (hmem n)
      omega
    · obtain ⟨k, hk⟩ := Option.isSome_iff_exists.1 hsome
      rw [← hw.start] at hop
      exact hw.toResult hfair hrun hlt hnever k 0 op hop hk

/-- **A wait that does not.** On a stopped loop without workers nothing has to happen. -/
theorem join_spins (hrunning : l.isRunning = false) (hstopped : l.stopped = true)
    (hpending : ¬ c₀.shared.Ready f) (hkept : f ∉ c₀.shared.displaced)
    (hops : ∀ op ∈ c₀.pending, op.toResult f = none) : ¬ JoinReturns l f c₀ := by
  intro h
  have hw : Wait l f c₀ (fun _ => c₀) (fun _ => {}) := by
    refine ⟨rfl, fun n _ => ?_⟩
    simp [joinRound, hrunning, System.executed, System.run]
  have hfair : Fair l f (fun _ => c₀) (fun _ => {}) := by
    refine ⟨?_, ?_, ?_⟩
    · intro _ hs
      rw [hstopped] at hs
      cases hs
    · intro n op hop hsome
      rw [hops op hop] at hsome
      cases hsome
    · intro hr
      rw [hrunning] at hr
      cases hr
  obtain ⟨n, hn⟩ := h _ _ hw hfair fun _ => hkept
  exact hpending hn

/-- **When waiting for a future terminates.** Take any sequence of calls of a loop, any run of a session
and a pending future whose entry has not been overwritten. `join` returns if and only if the loop has
workers, or nothing has stopped its `io_service`, or another thread is about to complete the future or
waits for it with a timeout. -/
theorem join_returns_iff {calls : List Loop.Op} (hloop : Loop.run {} calls = some l)
    (hrun : machine.run init ls = some c₀) (hlt : f < c₀.shared.futures.length)
    (hpending : ¬ c₀.shared.Ready f) (hkept : f ∉ c₀.shared.displaced) :
    JoinReturns l f c₀ ↔ l.isRunning = true ∨ (∀ op ∈ calls, op.stops = false) ∨
      ∃ op ∈ c₀.pending, (op.toResult f).isSome := by
  have hstopped : l.stopped = false ↔ ∀ op ∈ calls, op.stops = false := by
    rw [Loop.run_stopped hloop]
    simp
  rw [← hstopped]
  refine ⟨fun h => ?_, joinReturns_of hrun hlt⟩
  by_contra hne
  simp only [not_or, Bool.not_eq_true, Bool.not_eq_false, not_exists, not_and] at hne
  obtain ⟨hr, hs, hops⟩ := hne
  have hnone : ∀ op ∈ c₀.pending, op.toResult f = none := by
    intro op hop
    simpa using hops op hop
  exact join_spins hr hs hpending hkept hnone h

end

/-- A request is sent under a timeout of 0. -/
def sendZero : List (Label Op Choice) := [.spawn (.setTimeout 0), .exec 0 {}] ++ send 1

/-- The step timer fires, and its handler completes the future. -/
def fires : Turn :=
  { labels := [.spawn .stepTimerHandler, .exec 2 { it := [⟨1, 0⟩] }, .exec 2 {}] }

/-- A loop that was never started: the waiting thread runs the handler itself. -/
theorem join_returns_iff_fires :
    ∃ c₀, machine.run init sendZero = some c₀ ∧ JoinReturns {} 0 c₀ ∧
      ∃ c, Wait {} 0 c₀ c (fun _ => fires) ∧ Fair {} 0 c (fun _ => fires) := by
  refine ⟨_, rfl, ?_, ?_⟩
  · exact (join_returns_iff (rfl : Loop.run {} [.flush] = some {})
      (rfl : machine.run init sendZero = _) (by decide) (by unfold Ready; decide) (by decide)).2
      (.inr (.inl (by decide)))
  · obtain ⟨c₁, h₁, hready⟩ : ∃ c₁, ((machine.run init sendZero).bind fun c =>
        joinRound {} 0 c fires) = some c₁ ∧ c₁.shared.Ready 0 :=
      ⟨_, rfl, by unfold Ready; decide⟩
    refine ⟨fun n => if n = 0 then _ else c₁, ⟨rfl, ?_⟩, ⟨?_, ?_, ?_⟩⟩
    · intro n hn
      cases n with
      | zero => exact h₁
      | succ n => exact absurd hready hn
    · exact fun _ _ n => ⟨n + 1, Nat.le_succ n, .inl hready⟩
    · exact fun n _ _ _ => ⟨n + 1, Nat.le_succ n, .inl hready⟩
    · intro h
      cases h

/-- A loop that was started, ended and joined: `get` on a future that is pending never returns. -/
theorem join_never_returns :
    ∃ l c₀, Loop.run {} [.start 2, .end', .join] = some l ∧ machine.run init (send 0) = some c₀ ∧
      c₀.shared.reqtable.lookup 1 = some 0 ∧ ¬ c₀.shared.Ready 0 ∧ ¬ JoinReturns l 0 c₀ := by
  refine ⟨_, _, rfl, rfl, by decide, by unfold Ready; decide, ?_⟩
  exact join_spins rfl rfl (by unfold Ready; decide) (by decide) (by decide)

end Session

end MsgpackRpc
