import MsgpackRpc.Session.Join

/-!
# How long join waits

On a loop that is running `future_impl::join` (`future.cc:72`) waits with `timed_wait`, for as long as
the future has time left. A future counts its time in seconds, `timed_wait` takes milliseconds, and
`m_timeout * 1000` is a product of `unsigned`s: from 4294968 seconds on it is not the number that is
meant. A future with that much time left is waited for 704 milliseconds, less than one with a single
second, and is then completed with a timeout.

`join_bound_iff` is the exact condition, for every future in every run. What remains of the timeout of
its session is what the ticks applied to it have left (`timeout_run`).
-/

namespace MsgpackRpc

open Threads

/-- The call that `future_impl::join` makes. The bound of `timed_wait` is in milliseconds. -/
inductive JoinCall where
  | timedWait (ms : BitVec 32)
  | recv
  deriving DecidableEq, Repr

namespace Future

/-- `future_impl::join` (`future.cc:72`). -/
def join (f : Future) (l : Loop) : JoinCall :=
  if l.isRunning then .timedWait (f.timeout * 1000) else .recv

/-- What a wait for a future with a number of seconds left should be: it lasts that many seconds, in
milliseconds, and for no future with less time left it lasts longer. -/
def WaitsFor (f : Future) (l : Loop) (sec : Nat) : Prop :=
  ∃ ms, f.join l = .timedWait ms ∧ ms.toNat = 1000 * sec ∧
    ∀ g : Future, g.timeout ≤ f.timeout → ∀ ms', g.join l = .timedWait ms' → ms' ≤ ms

/-- The product is the number that is meant as long as that has 32 bits. -/
theorem toNat_bound_iff (t : BitVec 32) :
    (t * 1000).toNat = 1000 * t.toNat ↔ t.toNat ≤ 4294967 := by
  have hmul : (t * 1000).toNat = t.toNat * 1000 % 2 ^ 32 := BitVec.toNat_mul t 1000
  constructor
  · intro h
    have hlt := (t * 1000).isLt
    omega
  · intro h
    rw [hmul, Nat.mod_eq_of_lt (by omega), Nat.mul_comm]

theorem waitsFor_iff {l : Loop} (hl : l.isRunning = true) (f : Future) :
    f.WaitsFor l f.timeout.toNat ↔ f.timeout.toNat ≤ 4294967 := by
  have hjoin (g : Future) : g.join l = .timedWait (g.timeout * 1000) := if_pos hl
  constructor
  · rintro ⟨ms, hms, heq, -⟩
    rw [hjoin] at hms
    cases hms
    exact (toNat_bound_iff _).1 heq
  · intro h
    refine ⟨_, hjoin f, (toNat_bound_iff _).2 h, ?_⟩
    intro g hle ms' hms
    rw [hjoin] at hms
    cases hms
    have hg : g.timeout.toNat ≤ f.timeout.toNat := BitVec.le_def.1 hle
    rw [BitVec.le_def, (toNat_bound_iff _).2 h, (toNat_bound_iff _).2 (Nat.le_trans hg h)]
    omega

end Future

namespace Session

/-! ## The time that is left -/

/-- The ticks of a run that are applied to a future, those that find it in the table. -/
def ticksOn (f : FutureId) (c : Config (Session Source) Op) : List (Label Op Choice) → Nat
  | [] => 0
  | l :: ls =>
    (if System.executes c l = some .stepTimerHandler ∧ f ∈ c.shared.reqtable.values then 1 else 0) +
      (machine.step c l).elim 0 fun c' => ticksOn f c' ls

section
variable {c c' : Config (Session Source) Op} {f : FutureId} {t : BitVec 32}

/-- A step takes one second off the time of a future if it is a tick that finds it in the table, and
otherwise nothing. -/
theorem timeout_step {l : Label Op Choice} (hcons : Conserved c.shared (completionsOf c.pending))
    (ht : (c.shared.futures.map Future.timeout)[f]? = some t) (hstep : machine.step c l = some c') :
    ∃ t', (c'.shared.futures.map Future.timeout)[f]? = some t' ∧ t'.toNat = t.toNat -
      if System.executes c l = some .stepTimerHandler ∧ f ∈ c.shared.reqtable.values then 1
      else 0 := by
  rcases System.step_cases hstep with ⟨op, rfl, -, hs, -⟩ | ⟨i, x, op, rest, k, rfl, hop, hx, hp, -⟩
  · exact ⟨t, hs ▸ ht, by simp [System.executes]⟩
  · rw [System.executes, hop]
    by_cases hstick : op = .stepTimerHandler
    · subst hstick
      rw [List.getElem?_map] at ht
      obtain ⟨fut, hf, rfl⟩ := Option.map_eq_some_iff.1 ht
      have hf' := (tick_spec hcons hx hf).1
      refine ⟨_, by rw [List.getElem?_map, hf']; rfl, ?_⟩
      split
      · next hv => rw [if_pos ⟨rfl, hv⟩, stepTimeout_toNat]
      · next hv => rw [if_neg fun h => hv h.2, Nat.sub_zero]
    · obtain ⟨ts, hts⟩ := (exec_noTick hx hstick).timeouts
      refine ⟨t, ?_, ?_⟩
      · rw [← hts, List.getElem?_append_left (List.getElem?_eq_some_iff.1 ht).1]
        exact ht
      · rw [if_neg fun h => hstick (Option.some.inj h.1), Nat.sub_zero]

/-- **The time a future has left.** In a run it goes down by the number of ticks applied to it. -/
theorem timeout_run {ls : List (Label Op Choice)}
    (hcons : Conserved c.shared (completionsOf c.pending))
    (ht : (c.shared.futures.map Future.timeout)[f]? = some t) (hrun : machine.run c ls = some c') :
    ∃ t', (c'.shared.futures.map Future.timeout)[f]? = some t' ∧
      t'.toNat = t.toNat - ticksOn f c ls := by
  induction ls generalizing c t with
  | nil =>
    cases hrun
    exact ⟨t, ht, (Nat.sub_zero _).symm⟩
  | cons l ls ih =>
    obtain ⟨c₁, hstep, hrun⟩ := Option.bind_eq_some_iff.1 hrun
    obtain ⟨t₁, ht₁, htime₁⟩ := timeout_step hcons ht hstep
    obtain ⟨t', ht', htime'⟩ := ih (conserved_step hcons hstep) ht₁ hrun
    refine ⟨t', ht', ?_⟩
    rw [htime', htime₁, ticksOn, hstep, Option.elim_some, Nat.sub_sub]

end

/-! ## The bound -/

/-- A pending future, in some run, that was inserted while the timeout of the session was `T`, and to
which `k` ticks have been applied. -/
inductive Ticked (T : BitVec 32) (k : Nat) (fut : Future) : Prop where
  | run {ls ls' : List (Label Op Choice)} {c c₁ c' : Config (Session Source) Op} {i n : Nat}
      {x : Choice} : machine.run init ls = some c → c.shared.timeout = T →
      System.executes c (.exec i x) = some (.sendRequestImpl n) →
      machine.step c (.exec i x) = some c₁ → machine.run c₁ ls' = some c' →
      ticksOn c.shared.futures.length c₁ ls' = k →
      c'.shared.futures[c.shared.futures.length]? = some fut → fut.session = true → Ticked T k fut

theorem Ticked.timeout {T : BitVec 32} {k : Nat} {fut : Future} (h : Ticked T k fut) :
    fut.timeout.toNat = T.toNat - k := by
  cases h with
  | @run ls ls' c c₁ c' i n x hrun hT hop hstep hrun' hk hfut _ =>
    obtain ⟨call, hs⟩ := insert_step hop hstep
    have ht : (c₁.shared.futures.map Future.timeout)[c.shared.futures.length]? = some T := by
      rw [hs, ← hT]
      simp [sendRequestImpl]
    obtain ⟨t, ht', htime⟩ := timeout_run (conserved_step (conserved_run hrun) hstep) ht hrun'
    rw [List.getElem?_map, hfut, Option.map_some] at ht'
    cases ht'
    rw [htime, hk]

/-- A thread of its own that is about to tick. -/
def ticking (c : Config (Session Source) Op) : Config (Session Source) Op :=
  ⟨c.shared, c.threads ++ [[.stepTimerHandler]]⟩

/-- Such a tick. -/
def tick (c : Config (Session Source) Op) : List (Label Op Choice) :=
  [.spawn .stepTimerHandler, .exec c.threads.length { it := c.shared.reqtable.entries }]

theorem step_ticking (c : Config (Session Source) Op) :
    ∃ c' k, machine.step (ticking c) (.exec c.threads.length { it := c.shared.reqtable.entries }) =
        some c' ∧
      machine.exec c.shared .stepTimerHandler { it := c.shared.reqtable.entries } =
        some (c'.shared, k) := by
  have hx : ∃ s' k, machine.exec c.shared .stepTimerHandler { it := c.shared.reqtable.entries } =
      some (s', k) := ⟨_, _, if_pos (List.Perm.refl _)⟩
  obtain ⟨s', k, hx⟩ := hx
  refine ⟨⟨s', (ticking c).threads.set c.threads.length (k ++ [])⟩, k, ?_, hx⟩
  rw [System.step, ticking, List.getElem?_concat_length]
  dsimp only
  rw [hx]
  rfl

theorem run_tick {c c' : Config (Session Source) Op}
    (h : machine.step (ticking c)
      (.exec c.threads.length { it := c.shared.reqtable.entries }) = some c')
    (ls : List (Label Op Choice)) :
    machine.run c (tick c ++ ls) = machine.run c' ls := by
  show (machine.step (ticking c) _).bind _ = _
  rw [h]
  rfl

theorem ticksOn_tick {c c' : Config (Session Source) Op} {f : FutureId}
    (hv : f ∈ c.shared.reqtable.values)
    (h : machine.step (ticking c)
      (.exec c.threads.length { it := c.shared.reqtable.entries }) = some c')
    (ls : List (Label Op Choice)) : ticksOn f c (tick c ++ ls) = ticksOn f c' ls + 1 := by
  have hexec : System.executes (ticking c)
      (.exec c.threads.length { it := c.shared.reqtable.entries } : Label Op Choice) =
        some .stepTimerHandler := by
    rw [System.executes, ticking, List.getElem?_concat_length]
    rfl
  have hspawn : machine.step c (.spawn .stepTimerHandler) = some (ticking c) := rfl
  rw [tick, List.cons_append, ticksOn, hspawn, Option.elim_some, System.executes,
    if_neg (by simp), Nat.zero_add, List.cons_append, List.nil_append, ticksOn, h, hexec,
    if_pos ⟨rfl, hv⟩, Option.elim_some, Nat.add_comm]

/-- A future in the table can be ticked as often as it has time left. -/
theorem ticksOn_reached {c : Config (Session Source) Op} {f : FutureId} {fut : Future} {k : Nat}
    (hcons : Conserved c.shared (completionsOf c.pending)) (hv : f ∈ c.shared.reqtable.values)
    (hf : c.shared.futures[f]? = some fut) (hs : fut.session = true)
    (hk : k ≤ fut.timeout.toNat) :
    ∃ ls c', machine.run c ls = some c' ∧ ticksOn f c ls = k ∧
      ∃ fut', c'.shared.futures[f]? = some fut' ∧ fut'.session = true := by
  induction k generalizing c fut with
  | zero => exact ⟨[], c, rfl, rfl, fut, hf, hs⟩
  | succ k ih =>
    have hne : fut.timeout ≠ 0 := by
      intro h0
      rw [h0] at hk
      exact absurd hk (Nat.not_succ_le_zero k)
    obtain ⟨c₁, ops, htick, hx⟩ := step_ticking c
    obtain ⟨hf₁, hmem, -⟩ := tick_spec hcons hx hf
    rw [if_pos hv] at hf₁
    have hs₁ : fut.stepTimeout.1.session = true := by
      unfold Future.stepTimeout
      split <;> exact hs
    have hk₁ : k ≤ fut.stepTimeout.1.timeout.toNat := by
      rw [stepTimeout_toNat]
      omega
    have hspawn : machine.step c (.spawn .stepTimerHandler) = some (ticking c) := rfl
    have hcons₁ := conserved_step (conserved_step hcons hspawn) htick
    obtain ⟨ls, c', hrun, hticks, hpending⟩ := ih hcons₁ (hmem.2 ⟨hv, hne⟩) hf₁ hs₁ hk₁
    refine ⟨tick c ++ ls, c', ?_, ?_, hpending⟩
    · rw [run_tick htick, hrun]
    · rw [ticksOn_tick hv htick, hticks]

/-- The timeout is set, and a request is about to be inserted. -/
def setThenSend (T : BitVec 32) : List (Label Op Choice) :=
  [.spawn (.setTimeout T), .exec 0 {}, .spawn (.sendRequest (.str [0x66]) .nil), .exec 1 {}]

/-- Any timeout can be set, and a request can be ticked until none of it is left. -/
theorem ticked_reached (T : BitVec 32) {k : Nat} (hk : k ≤ T.toNat) : ∃ fut, Ticked T k fut := by
  obtain ⟨c, hrun, hT, hlen, hop, c₁, hstep, hv, fut, hf, hs, htime⟩ :
      ∃ c, machine.run init (setThenSend T) = some c ∧ c.shared.timeout = T ∧
        c.shared.futures.length = 0 ∧
        System.executes c (.exec 1 {} : Label Op Choice) = some (.sendRequestImpl 0) ∧
        ∃ c₁, machine.step c (.exec 1 {}) = some c₁ ∧ 0 ∈ c₁.shared.reqtable.values ∧
          ∃ fut, c₁.shared.futures[0]? = some fut ∧ fut.session = true ∧ fut.timeout = T :=
    ⟨_, rfl, rfl, rfl, rfl, _, rfl, Reqtable.mem_values.2 ⟨_, Reqtable.lookup_insert _ _ _⟩, _,
      rfl, rfl, rfl⟩
  obtain ⟨ls, c', hrun', hticks, fut', hf', hs'⟩ :=
    ticksOn_reached (conserved_step (conserved_run hrun) hstep) hv hf hs (htime ▸ hk)
  exact ⟨fut', .run hrun hT hop hstep hrun' (hlen ▸ hticks) (hlen ▸ hf') hs'⟩

/-- **How long join waits.** For every timeout `T` of a session and every number `k` of ticks, not more
than `T`, that have been applied to a pending future: `join` on a running loop waits for
`1000 * (T - k)` milliseconds, and for no future with less time left longer, if and only if that
product has 32 bits. -/
theorem join_bound_iff {T : BitVec 32} {k : Nat} (hk : k ≤ T.toNat) {l : Loop}
    (hl : l.isRunning = true) :
    (∃ fut, Ticked T k fut) ∧
      ∀ fut, Ticked T k fut → (fut.WaitsFor l (T.toNat - k) ↔ T.toNat - k ≤ 4294967) := by
  refine ⟨ticked_reached T hk, ?_⟩
  intro fut h
  rw [← h.timeout]
  exact Future.waitsFor_iff hl fut

/-- The longest wait, after one tick. -/
theorem join_bound_iff_longest :
    (1 ≤ (4294968 : BitVec 32).toNat ∧ Loop.isRunning ⟨1, false⟩ = true) ∧
      ∃ fut, Ticked 4294968 1 fut ∧ fut.WaitsFor ⟨1, false⟩ 4294967 := by
  obtain ⟨⟨fut, h⟩, hiff⟩ := join_bound_iff (T := 4294968) (k := 1) (l := ⟨1, false⟩)
    (by decide) rfl
  exact ⟨⟨by decide, rfl⟩, fut, h, (hiff fut h).2 (by decide)⟩

/-- **A longer timeout, a shorter wait.** After `set_timeout(4294968)` a wait lasts 704 milliseconds,
after `set_timeout(1)` it lasts 1000. -/
theorem join_bound_wraps :
    ∃ fut g, Ticked 4294968 0 fut ∧ Ticked 1 0 g ∧ fut.join ⟨1, false⟩ = .timedWait 704 ∧
      g.join ⟨1, false⟩ = .timedWait 1000 ∧ ¬ fut.WaitsFor ⟨1, false⟩ 4294968 := by
  refine ⟨_, _, .run (rfl : machine.run init (setThenSend 4294968) = some _) rfl rfl
      (rfl : machine.step _ (.exec 1 {}) = some _) (rfl : machine.run _ [] = some _) rfl rfl rfl,
    .run (rfl : machine.run init (setThenSend 1) = some _) rfl rfl
      (rfl : machine.step _ (.exec 1 {}) = some _) (rfl : machine.run _ [] = some _) rfl rfl rfl,
    rfl, rfl, ?_⟩
  rintro ⟨ms, hms, heq, -⟩
  cases hms
  exact absurd heq (by decide)

end Session

end MsgpackRpc
