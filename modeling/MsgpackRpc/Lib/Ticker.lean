import MsgpackRpc.Lib.Threads

/-!
# Objects with a timer that calls them back

An object that runs as a system of threads until it is destroyed, and that keeps a timer of an event
loop: the constructor arms the timer, the handler does its work and arms it again, and the destructor
cancels it. Cancelling completes the outstanding wait with an error, upon which the handler does
nothing. A wait that has expired cannot be cancelled any more: its handler is queued or under way, and
comes to the object even if that is gone by then.

As long as the object lives one tick is due, waiting, queued or under way (`Living`). When it is
destroyed the tick is cancelled if it was waiting, and otherwise stays due (`Dead`).
-/

open Threads

namespace Ticker

/-- An object: the system that it runs as, what the handler of its timer does, and whether it has not
been destroyed. -/
structure Ticked (σ ω χ : Type) where
  system : System σ ω χ
  tick : ω
  alive : σ → Bool

/-- The object and its timer: the outstanding waits, the queued handlers of waits that have expired
and of waits that were cancelled, and how often the timer of the destroyed object was armed. -/
structure State (σ : Type) where
  object : σ
  waiting : Nat := 1
  expired : Nat := 0
  aborted : Nat := 0
  rearmed : Nat := 0
  deriving DecidableEq, Repr

/-- The operations: those of the object, the expiry of the outstanding wait, the handler of a wait that
has expired and of one that was cancelled, and the arming at the end of the former. -/
inductive Op (ω : Type) where
  | run (op : ω)
  | expires
  | tick
  | abort
  | arm
  deriving DecidableEq, Repr

def Op.isArm {ω : Type} : Op ω → Bool
  | .arm => true
  | _ => false

variable {σ ω χ : Type}

/-- `cancel`. -/
def State.cancel (s : State σ) : State σ :=
  { s with waiting := 0, aborted := s.aborted + s.waiting }

/-- `expires_from_now` and `async_wait`. -/
def State.arm (s : State σ) : State σ := { s.cancel with waiting := 1 }

namespace Ticked
variable (T : Ticked σ ω χ)

/-- The object changes. If it is destroyed by that, the timer is cancelled. -/
def become (s : State σ) (object : σ) : State σ :=
  { (if T.alive s.object ∧ ¬ T.alive object then s.cancel else s) with object }

/-- The object and its timer as a system of threads. -/
def machine : System (State σ) (Op ω) χ where
  entry
    | .run op => T.system.entry op
    | .arm => false
    | _ => true
  exec s op x :=
    match op with
    | .run op =>
      (T.system.exec s.object op x).map fun (object, k) => (T.become s object, k.map .run)
    | .expires =>
      if s.waiting = 0 then none
      else some ({ s with waiting := 0, expired := s.expired + s.waiting }, [])
    | .tick =>
      if s.expired = 0 then none
      else (T.system.exec s.object T.tick x).map fun (object, k) =>
        ({ T.become s object with expired := s.expired - 1 }, k.map .run ++ [.arm])
    | .abort => if s.aborted = 0 then none else some ({ s with aborted := s.aborted - 1 }, [])
    | .arm =>
      some (if T.alive s.object then s.arm else { s with rearmed := s.rearmed + 1 }, [])

end Ticked

/-- The handlers under way. -/
def arms (ops : Multiset (Op ω)) : Nat := ops.countP fun o => o.isArm

/-- One tick is due for an object that lives. -/
structure Living (T : Ticked σ ω χ) (s : State σ) (ops : Multiset (Op ω)) : Prop where
  alive : T.alive s.object = true
  due : s.waiting + s.expired + arms ops = 1
  rearmed : s.rearmed = 0

/-- `n` ticks come to an object that was destroyed. -/
structure Dead (T : Ticked σ ω χ) (n : Nat) (s : State σ) (ops : Multiset (Op ω)) : Prop where
  dead : T.alive s.object = false
  waiting : s.waiting = 0
  due : s.expired + arms ops + s.rearmed = n

/-- An object that was destroyed stays so. -/
def Final (T : Ticked σ ω χ) : Prop :=
  ∀ s op x s' k, T.system.exec s op x = some (s', k) → T.alive s = false → T.alive s' = false

section
variable {T : Ticked σ ω χ} {s s' : State σ} {op : Op ω} {ops rest : Multiset (Op ω)}
  {x : χ} {k : List (Op ω)} {n : Nat}

theorem arms_cons (op : Op ω) (ops : Multiset (Op ω)) :
    arms (op ::ₘ ops) = arms ops + if op.isArm then 1 else 0 :=
  Multiset.countP_cons _ _ _

theorem arms_add (k : List (Op ω)) (ops : Multiset (Op ω)) :
    arms (↑k + ops : Multiset (Op ω)) = k.countP Op.isArm + arms ops := by
  rw [arms, Multiset.countP_add, Multiset.coe_countP]
  simp [arms]

/-- Operations of the object arm no timer. -/
theorem countP_run (k : List ω) : (k.map Op.run).countP Op.isArm = 0 := by
  rw [List.countP_eq_zero]
  intro o ho
  obtain ⟨op, -, rfl⟩ := List.mem_map.1 ho
  exact Bool.false_ne_true

theorem arms_run (k : List ω) (ops : Multiset (Op ω)) :
    arms (↑(k.map Op.run) + ops : Multiset (Op ω)) = arms ops := by
  rw [arms_add, countP_run, Nat.zero_add]

/-- A handler begins. -/
theorem arms_tick (k : List ω) (ops : Multiset (Op ω)) :
    arms (↑(k.map Op.run ++ [Op.arm] : List (Op ω)) + ops : Multiset (Op ω)) = arms ops + 1 := by
  rw [arms_add, List.countP_append, countP_run, List.countP_singleton]
  simp [Op.isArm, Nat.add_comm]

theorem arms_nil (ops : Multiset (Op ω)) :
    arms (↑([] : List (Op ω)) + ops : Multiset (Op ω)) = arms ops := by
  rw [Multiset.coe_nil, zero_add]

/-- What a step does to the timer: the object changes, the wait expires, a handler begins, a cancelled
wait is reported, or the timer is armed. -/
inductive Steps (T : Ticked σ ω χ) (s : State σ) : Op ω → State σ → List (Op ω) → Prop where
  | run {op : ω} {object : σ} {k : List ω} (x : χ) :
    T.system.exec s.object op x = some (object, k) →
    Steps T s (.run op) (T.become s object) (k.map .run)
  | expires : s.waiting ≠ 0 →
    Steps T s .expires { s with waiting := 0, expired := s.expired + s.waiting } []
  | tick {object : σ} {k : List ω} (x : χ) : s.expired ≠ 0 →
    T.system.exec s.object T.tick x = some (object, k) →
    Steps T s .tick { T.become s object with expired := s.expired - 1 } (k.map .run ++ [.arm])
  | abort : Steps T s .abort { s with aborted := s.aborted - 1 } []
  | arm : T.alive s.object = true → Steps T s .arm s.arm []
  | rearm : T.alive s.object = false → Steps T s .arm { s with rearmed := s.rearmed + 1 } []

theorem exec_steps (h : T.machine.exec s op x = some (s', k)) : Steps T s op s' k := by
  cases op with
  | run op =>
    obtain ⟨⟨object, k'⟩, hx, he⟩ := Option.map_eq_some_iff.1 h
    cases he
    exact .run x hx
  | expires =>
    simp only [Ticked.machine] at h
    split at h
    · cases h
    · next hne =>
      cases h
      exact .expires hne
  | tick =>
    simp only [Ticked.machine] at h
    split at h
    · cases h
    · next hne =>
      obtain ⟨⟨object, k'⟩, hx, he⟩ := Option.map_eq_some_iff.1 h
      cases he
      exact .tick x hne hx
  | abort =>
    simp only [Ticked.machine] at h
    split at h
    · cases h
    · cases h
      exact .abort
  | arm =>
    cases h
    cases ha : T.alive s.object with
    | true => exact .arm ha
    | false => exact .rearm ha

theorem become_object (s : State σ) (object : σ) : (T.become s object).object = object := rfl

/-- The timer when the object does not die. -/
theorem become_of_alive {object : σ} (h : T.alive s.object = true → T.alive object = true) :
    T.become s object = { s with object } := by
  unfold Ticked.become
  rw [if_neg]
  rintro ⟨ha, hn⟩
  exact hn (h ha)

theorem become_of_dies {object : σ} (h : T.alive s.object = true) (h' : T.alive object = false) :
    T.become s object = { s.cancel with object } := by
  unfold Ticked.become
  rw [if_pos ⟨h, by rw [h']; exact Bool.false_ne_true⟩]

/-- **A destroyed object.** No step changes the number of ticks that come to it. -/
theorem Dead.steps (h : Dead T n s (op ::ₘ rest)) (hfinal : Final T) (hs : Steps T s op s' k) :
    Dead T n s' (↑k + rest) := by
  have hdue := h.due
  rw [arms_cons] at hdue
  have hbecome {object : σ} : T.become s object = { s with object } :=
    become_of_alive fun ha => absurd ha (Bool.eq_false_iff.1 h.dead)
  cases hs with
  | run x hx =>
    rw [hbecome]
    exact ⟨hfinal _ _ _ _ _ hx h.dead, h.waiting, by rw [arms_run]; exact hdue⟩
  | expires hne => exact absurd h.waiting hne
  | tick x hne hx =>
    rw [hbecome]
    refine ⟨hfinal _ _ _ _ _ hx h.dead, h.waiting, ?_⟩
    rw [arms_tick]
    simp only [Op.isArm, Bool.false_eq_true, if_false] at hdue ⊢
    omega
  | abort => exact ⟨h.dead, h.waiting, by rw [arms_nil]; exact hdue⟩
  | arm ha => exact absurd ha (Bool.eq_false_iff.1 h.dead)
  | rearm =>
    refine ⟨h.dead, h.waiting, ?_⟩
    rw [arms_nil]
    simp only [Op.isArm, if_true] at hdue ⊢
    omega

/-- **An object that lives.** A step that does not destroy it leaves one tick due, and one that does
cancels the tick if it was waiting. -/
theorem Living.steps (h : Living T s (op ::ₘ rest)) (hs : Steps T s op s' k) :
    Living T s' (↑k + rest) ∨ Dead T (1 - s.waiting) s' (↑k + rest) := by
  have hdue := h.due
  have hzero := h.rearmed
  rw [arms_cons] at hdue
  cases hs with
  | @run op object k x hx =>
    simp only [Op.isArm, Bool.false_eq_true, if_false, Nat.add_zero] at hdue
    cases ha : T.alive object with
    | true =>
      rw [become_of_alive fun _ => ha]
      exact .inl ⟨ha, by rw [arms_run]; exact hdue, hzero⟩
    | false =>
      rw [become_of_dies h.alive ha]
      refine .inr ⟨ha, rfl, ?_⟩
      rw [arms_run]
      simp only [State.cancel]
      omega
  | expires hne =>
    refine .inl ⟨h.alive, ?_, hzero⟩
    rw [arms_nil]
    simp only [Op.isArm, Bool.false_eq_true, if_false] at hdue ⊢
    omega
  | @tick object k x hne hx =>
    simp only [Op.isArm, Bool.false_eq_true, if_false, Nat.add_zero] at hdue
    cases ha : T.alive object with
    | true =>
      rw [become_of_alive fun _ => ha]
      refine .inl ⟨ha, ?_, hzero⟩
      rw [arms_tick]
      simp only
      omega
    | false =>
      rw [become_of_dies h.alive ha]
      refine .inr ⟨ha, rfl, ?_⟩
      rw [arms_tick]
      simp only [State.cancel]
      omega
  | abort => exact .inl ⟨h.alive, by rw [arms_nil]; exact hdue, hzero⟩
  | arm =>
    refine .inl ⟨h.alive, ?_, hzero⟩
    rw [arms_nil]
    simp only [Op.isArm, if_true, State.arm, State.cancel] at hdue ⊢
    omega
  | rearm ha => exact absurd h.alive (Bool.eq_false_iff.1 ha)

/-! ## Runs -/

/-- A new thread is no handler under way. -/
theorem arms_of_entry (h : T.machine.entry op = true) (ops : Multiset (Op ω)) :
    arms (op ::ₘ ops) = arms ops := by
  rw [arms_cons]
  cases op <;> first | rfl | cases h

variable {c c' : Config (State σ) (Op ω)} {ls : List (Label (Op ω) χ)}

/-- **Runs of a destroyed object.** -/
theorem dead_run (hfinal : Final T) (h : Dead T n c.shared c.pending)
    (hrun : T.machine.run c ls = some c') : Dead T n c'.shared c'.pending := by
  refine System.invariant (G := fun _ _ _ _ => True) (Dead T n) ?_ ?_ h (System.meets_true _ _) hrun
  · intro s ops op h he
    exact ⟨h.dead, h.waiting, by rw [arms_of_entry he]; exact h.due⟩
  · intro s op rest x s' k h _ hx
    exact h.steps hfinal (exec_steps hx)

/-- **Runs of an object.** While it lives one tick is due; afterwards one at most. -/
theorem living_run (hfinal : Final T) (h : Living T c.shared c.pending)
    (hrun : T.machine.run c ls = some c') :
    Living T c'.shared c'.pending ∨ ∃ n ≤ 1, Dead T n c'.shared c'.pending := by
  refine System.invariant (G := fun _ _ _ _ => True)
    (fun s ops => Living T s ops ∨ ∃ n ≤ 1, Dead T n s ops) ?_ ?_ (.inl h) (System.meets_true _ _)
    hrun
  · rintro s ops op (h | ⟨n, hn, h⟩) he
    · exact .inl ⟨h.alive, by rw [arms_of_entry he]; exact h.due, h.rearmed⟩
    · exact .inr ⟨n, hn, h.dead, h.waiting, by rw [arms_of_entry he]; exact h.due⟩
  · rintro s op rest x s' k (h | ⟨n, hn, h⟩) _ hx
    · exact (h.steps (exec_steps hx)).imp_right fun h => ⟨_, Nat.sub_le _ _, h⟩
    · exact .inr ⟨n, hn, h.steps hfinal (exec_steps hx)⟩

/-- **The step that destroys an object** cancels the tick that is waiting, and no other. -/
theorem dead_of_step (h : Living T c.shared c.pending) {l : Label (Op ω) χ}
    (hstep : T.machine.step c l = some c') (hdead : T.alive c'.shared.object = false) :
    Dead T (1 - c.shared.waiting) c'.shared c'.pending := by
  rcases System.step_cases hstep with
    ⟨op, rfl, he, hs, hp⟩ | ⟨i, x, op, rest, k, rfl, hop, hx, hp, hp'⟩
  · rw [hs] at hdead
    cases h.alive.symm.trans hdead
  · rw [hp] at h
    rw [hp']
    refine (h.steps (exec_steps hx)).resolve_left fun hl => ?_
    cases hl.alive.symm.trans hdead

end

end Ticker
