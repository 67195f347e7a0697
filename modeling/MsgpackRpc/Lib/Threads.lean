import Mathlib.Algebra.Order.Group.Multiset

/-!
# Threads of operations over a shared state

A thread is the list of operations it still has to execute. One operation is executed at a time; it
changes the shared state and puts the operations that it leads to, which its thread executes next,
in front of the others. A choice stands for what the operation does not determine itself, such as
the outcome of a system call. Any entry operation can start a new thread at any time, and the
threads interleave in any way.

What is true of every interleaving is mostly a matter of the shared state and the operations that
are pending in some thread, whichever it is. `System.invariant` is the rule for such invariants: a
run, all of whose steps meet a guard, preserves what one step under the guard preserves.
`System.each_iff_meets` and `System.view_eq_iff_meets` are the rules for guards that are exact, for a
kind of steps and for two systems that are to look the same.
-/

namespace Threads

variable {σ ω χ : Type}

/-- The operations `ω` of a program over a shared state `σ`: the ones that can start a thread, and
what each does under a choice; `none` when it is blocked or the choice is not possible. -/
structure System (σ ω χ : Type) where
  entry : ω → Bool
  exec : σ → ω → χ → Option (σ × List ω)

/-- The shared state and the threads, each with the operations it still has to execute. -/
structure Config (σ ω : Type) where
  shared : σ
  threads : List (List ω)
  deriving DecidableEq, Repr

/-- The operations pending in some thread. -/
def Config.pending (c : Config σ ω) : Multiset ω := ↑c.threads.flatten

/-- A step starts a thread, or executes the next operation of one. -/
inductive Label (ω χ : Type) where
  | spawn (op : ω)
  | exec (i : Nat) (x : χ)
  deriving DecidableEq, Repr

namespace System
variable (S : System σ ω χ)

/-- One step. -/
def step (c : Config σ ω) : Label ω χ → Option (Config σ ω)
  | .spawn op => if S.entry op then some { c with threads := c.threads ++ [[op]] } else none
  | .exec i x =>
    match c.threads[i]? with
    | some (op :: rest) =>
      (S.exec c.shared op x).map fun r => ⟨r.1, c.threads.set i (r.2 ++ rest)⟩
    | _ => none

/-- A sequence of steps. -/
def run (c : Config σ ω) : List (Label ω χ) → Option (Config σ ω)
  | [] => some c
  | l :: ls => (S.step c l).bind fun c' => run c' ls

/-- The operation that a step executes. -/
def executes (c : Config σ ω) : Label ω χ → Option ω
  | .spawn _ => none
  | .exec i _ => c.threads[i]?.bind List.head?

/-- The operations that a sequence of steps executes, in order. -/
def executed (c : Config σ ω) : List (Label ω χ) → List ω
  | [] => []
  | l :: ls => (executes c l).toList ++
    match S.step c l with
    | some c' => executed c' ls
    | none => []

/-- The operation that a step executes meets the guard, a condition on the state, the pending
operations, the operation executed and the choice. -/
def MeetsOne (G : σ → Multiset ω → ω → χ → Prop) (c : Config σ ω) : Label ω χ → Prop
  | .spawn _ => True
  | .exec i x => ∀ op ∈ c.threads[i]?.bind List.head?, G c.shared c.pending op x

/-- Every step of a sequence meets the guard. -/
def Meets (G : σ → Multiset ω → ω → χ → Prop) (c : Config σ ω) : List (Label ω χ) → Prop
  | [] => True
  | l :: ls => MeetsOne G c l ∧
    match S.step c l with
    | some c' => Meets G c' ls
    | none => True

section
variable {G : σ → Multiset ω → ω → χ → Prop} [∀ s m op x, Decidable (G s m op x)]

instance (c : Config σ ω) : (l : Label ω χ) → Decidable (MeetsOne G c l)
  | .spawn _ => isTrue trivial
  | .exec i x =>
    inferInstanceAs (Decidable (∀ op ∈ c.threads[i]?.bind List.head?, G c.shared c.pending op x))

instance Meets.decidable (c : Config σ ω) : (ls : List (Label ω χ)) → Decidable (S.Meets G c ls)
  | [] => isTrue trivial
  | l :: ls =>
    match h : S.step c l with
    | some c' => @decidable_of_iff _ (MeetsOne G c l ∧ S.Meets G c' ls) (by rw [Meets, h])
        (@instDecidableAnd _ _ _ (Meets.decidable c' ls))
    | none => decidable_of_iff (MeetsOne G c l) (by rw [Meets, h]; simp)

end

variable {S}

/-- A sequence of steps after another. -/
theorem run_append (c : Config σ ω) (ls ls' : List (Label ω χ)) :
    S.run c (ls ++ ls') = (S.run c ls).bind fun c' => S.run c' ls' := by
  induction ls generalizing c with
  | nil => rfl
  | cons l ls ih =>
    rw [List.cons_append, run, run, Option.bind_assoc]
    exact congrArg (S.step c l).bind (funext ih)

/-- What it executes. -/
theorem executed_append {c c' : Config σ ω} {ls : List (Label ω χ)} (h : S.run c ls = some c')
    (ls' : List (Label ω χ)) : S.executed c (ls ++ ls') = S.executed c ls ++ S.executed c' ls' := by
  induction ls generalizing c with
  | nil =>
    cases h
    rfl
  | cons l ls ih =>
    obtain ⟨c₁, hstep, hrun⟩ := Option.bind_eq_some_iff.1 h
    rw [List.cons_append, executed, executed, hstep, List.append_assoc]
    exact congrArg _ (ih hrun)

/-- What a step does to the pending operations: it adds one, or it replaces one by those that it
leads to. -/
theorem step_cases {c c' : Config σ ω} {l : Label ω χ} (h : S.step c l = some c') :
    (∃ op, l = .spawn op ∧ S.entry op = true ∧ c'.shared = c.shared ∧
      c'.pending = op ::ₘ c.pending) ∨
    (∃ i x op rest k, l = .exec i x ∧ c.threads[i]?.bind List.head? = some op ∧
      S.exec c.shared op x = some (c'.shared, k) ∧ c.pending = op ::ₘ rest ∧
      c'.pending = ↑k + rest) := by
  cases l with
  | spawn op =>
    rw [step] at h
    split at h
    · next he =>
      cases h
      refine .inl ⟨op, rfl, he, rfl, ?_⟩
      simp only [Config.pending, List.flatten_append, List.flatten_singleton, ← Multiset.coe_add]
      exact add_comm _ _
    · cases h
  | exec i x =>
    rw [step] at h
    split at h
    · next op ops hi =>
      obtain ⟨⟨s, k⟩, hr, rfl⟩ := Option.map_eq_some_iff.1 h
      obtain ⟨hlt, hget⟩ := List.getElem?_eq_some_iff.1 hi
      have hset (t : List ω) : (c.threads.set i t).flatten =
          (c.threads.take i).flatten ++ (t ++ (c.threads.drop (i + 1)).flatten) := by
        rw [List.set_eq_take_append_cons_drop, if_pos hlt]
        simp
      have hthreads : c.threads.flatten =
          (c.threads.take i).flatten ++ ((op :: ops) ++ (c.threads.drop (i + 1)).flatten) := by
        rw [← hset, ← hget, List.set_getElem_self]
      refine .inr ⟨i, x, op, ↑((c.threads.take i).flatten ++
        (ops ++ (c.threads.drop (i + 1)).flatten)), k, rfl, by rw [hi]; rfl, hr, ?_, ?_⟩
      · rw [Config.pending, hthreads, Multiset.cons_coe]
        exact Quotient.sound List.perm_middle
      · rw [Config.pending, hset, Multiset.coe_add]
        refine Quotient.sound ?_
        simp only [List.append_assoc]
        exact (List.perm_append_comm_assoc _ _ _)
    · cases h

/-- **Invariants of a run that count its operations.** What holds at its start and is preserved by
adding an entry operation and by executing a pending operation that meets the guard holds at its
end, of the operations executed before and during the run. -/
theorem invariant_executed {G : σ → Multiset ω → ω → χ → Prop}
    (P : List ω → σ → Multiset ω → Prop)
    (hspawn : ∀ tr s ops op, P tr s ops → S.entry op = true → P tr s (op ::ₘ ops))
    (hexec : ∀ tr s op rest x s' k, P tr s (op ::ₘ rest) → G s (op ::ₘ rest) op x →
      S.exec s op x = some (s', k) → P (tr ++ [op]) s' (↑k + rest))
    {t : List ω} {c c' : Config σ ω} {ls : List (Label ω χ)} (h : P t c.shared c.pending)
    (hG : S.Meets G c ls) (hrun : S.run c ls = some c') :
    P (t ++ S.executed c ls) c'.shared c'.pending := by
  induction ls generalizing t c with
  | nil =>
    cases hrun
    rw [executed, List.append_nil]
    exact h
  | cons l ls ih =>
    unfold run at hrun
    obtain ⟨c₁, hstep, hrun⟩ := Option.bind_eq_some_iff.1 hrun
    rw [Meets, hstep] at hG
    rw [executed, hstep, ← List.append_assoc]
    refine ih ?_ hG.2 hrun
    rcases step_cases hstep with ⟨op, rfl, he, hs, hp⟩ | ⟨i, x, op, rest, k, rfl, hop, hx, hp, hp'⟩
    · rw [hs, hp, executes, Option.toList_none, List.append_nil]
      exact hspawn _ _ _ _ h he
    · rw [hp', executes, hop]
      rw [hp] at h
      have hg := hG.1 op hop
      rw [hp] at hg
      exact hexec _ _ _ _ _ _ _ h hg hx

/-- **Invariants of a run.** What holds at its start and is preserved by adding an entry operation
and by executing a pending operation that meets the guard holds at its end. -/
theorem invariant {G : σ → Multiset ω → ω → χ → Prop} (P : σ → Multiset ω → Prop)
    (hspawn : ∀ s ops op, P s ops → S.entry op = true → P s (op ::ₘ ops))
    (hexec : ∀ s op rest x s' k, P s (op ::ₘ rest) → G s (op ::ₘ rest) op x →
      S.exec s op x = some (s', k) → P s' (↑k + rest))
    {c c' : Config σ ω} {ls : List (Label ω χ)} (h : P c.shared c.pending)
    (hG : S.Meets G c ls) (hrun : S.run c ls = some c') : P c'.shared c'.pending :=
  invariant_executed (t := []) (fun _ => P) (fun _ => hspawn) (fun _ => hexec) h hG hrun

/-- The guard that every step meets. -/
theorem meets_true (c : Config σ ω) (ls : List (Label ω χ)) :
    S.Meets (fun _ _ _ _ => True) c ls := by
  induction ls generalizing c with
  | nil => trivial
  | cons l ls ih =>
    refine ⟨?_, ?_⟩
    · cases l with
      | spawn op => trivial
      | exec i x => exact fun _ _ => trivial
    · split
      · exact ih _
      · trivial

/-! ## Exact guards -/

/-- Every step of a sequence that executes an operation is of a kind, a relation between the state
before, the operation and the state after. -/
def Each (S : System σ ω χ) (P : σ → ω → σ → Prop) (c : Config σ ω) : List (Label ω χ) → Prop
  | [] => True
  | l :: ls =>
    match S.step c l with
    | some c' => (∀ op ∈ executes c l, P c.shared op c'.shared) ∧ Each S P c' ls
    | none => True

instance Each.decidable {P : σ → ω → σ → Prop} [∀ s op s', Decidable (P s op s')]
    (c : Config σ ω) : (ls : List (Label ω χ)) → Decidable (S.Each P c ls)
  | [] => isTrue trivial
  | l :: ls =>
    match h : S.step c l with
    | some c' => @decidable_of_iff _ ((∀ op ∈ executes c l, P c.shared op c'.shared) ∧ S.Each P c' ls)
        (by rw [Each, h]) (@instDecidableAnd _ _ inferInstance (Each.decidable c' ls))
    | none => isTrue (by rw [Each, h]; trivial)

/-- **A guard that is exact for a kind of steps.** Let `I` be kept by the steps that meet the guard.
If in a state with `I` a step meets the guard exactly when it is of the kind, the runs whose steps
meet the guard are those whose steps are of the kind. -/
theorem each_iff_meets {G : σ → Multiset ω → ω → χ → Prop} {P : σ → ω → σ → Prop}
    (I : σ → Multiset ω → Prop)
    (hspawn : ∀ s ops op, I s ops → S.entry op = true → I s (op ::ₘ ops))
    (hexec : ∀ s op rest x s' k, I s (op ::ₘ rest) → G s (op ::ₘ rest) op x →
      S.exec s op x = some (s', k) → I s' (↑k + rest))
    (hkind : ∀ s op rest x s' k, I s (op ::ₘ rest) → S.exec s op x = some (s', k) →
      (P s op s' ↔ G s (op ::ₘ rest) op x))
    {c c' : Config σ ω} {ls : List (Label ω χ)} (h : I c.shared c.pending)
    (hrun : S.run c ls = some c') : S.Each P c ls ↔ S.Meets G c ls := by
  induction ls generalizing c with
  | nil => exact Iff.rfl
  | cons l ls ih =>
    obtain ⟨c₁, hstep, hrun⟩ := Option.bind_eq_some_iff.1 hrun
    rw [Each, Meets, hstep]
    have hone : ((∀ op ∈ executes c l, P c.shared op c₁.shared) ↔ MeetsOne G c l) ∧
        (MeetsOne G c l → I c₁.shared c₁.pending) := by
      rcases step_cases hstep with
        ⟨op, rfl, he, hs, hp⟩ | ⟨i, x, op, rest, k, rfl, hop, hx, hp, hp'⟩
      · refine ⟨iff_of_true ?_ trivial, ?_⟩
        · intro o ho
          cases ho
        · rw [hs, hp]
          exact fun _ => hspawn _ _ _ h he
      · rw [hp] at h
        have hiff := hkind _ _ _ _ _ _ h hx
        have hall (Q : ω → Prop) : (∀ o ∈ c.threads[i]?.bind List.head?, Q o) ↔ Q op := by
          rw [hop]
          exact ⟨fun hq => hq op rfl, fun hq o ho => Option.some.inj ho ▸ hq⟩
        refine ⟨?_, fun hg => ?_⟩
        · rw [MeetsOne, executes, hall, hall, hp]
          exact hiff
        · rw [MeetsOne, hall, hp] at hg
          rw [hp']
          exact hexec _ _ _ _ _ _ h hg hx
    exact (and_congr_left' hone.1).trans (and_congr_right fun hg => ih (hone.2 hg) hrun)

section
variable {T : System σ ω χ} {G : σ → ω → χ → Prop}

/-- A step does the same in two systems that agree where the guard holds. -/
theorem step_congr (hentry : S.entry = T.entry)
    (hsame : ∀ s op x, G s op x → S.exec s op x = T.exec s op x) {c : Config σ ω} {l : Label ω χ}
    (hG : MeetsOne (fun s _ => G s) c l) : S.step c l = T.step c l := by
  cases l with
  | spawn op => rw [step, step, hentry]
  | exec i x =>
    rw [step, step]
    split
    · next op rest hi =>
      have hop : op ∈ c.threads[i]?.bind List.head? := by
        rw [hi]
        rfl
      rw [hsame _ _ _ (hG op hop)]
    · rfl

/-- So does a run. -/
theorem run_congr (hentry : S.entry = T.entry)
    (hsame : ∀ s op x, G s op x → S.exec s op x = T.exec s op x) {c : Config σ ω}
    {ls : List (Label ω χ)} (hG : T.Meets (fun s _ => G s) c ls) (n : Nat) :
    S.run c (ls.take n) = T.run c (ls.take n) := by
  induction ls generalizing c n with
  | nil => rw [List.take_nil, run, run]
  | cons l ls ih =>
    rcases n with _ | n
    · rfl
    · rw [List.take_succ_cons, run, run, step_congr hentry hsame hG.1]
      rcases hstep : T.step c l with _ | c'
      · rfl
      · have htail := hG.2
        rw [hstep] at htail
        exact ih htail n

/-- **Two systems that look the same.** If two systems do the same where the guard holds and look
different after an operation where it does not, the runs in which they look the same all along are
those whose steps meet the guard. -/
theorem view_eq_iff_meets {ν : Type} (view : σ → ν) (hentry : S.entry = T.entry)
    (hsame : ∀ s op x, G s op x → S.exec s op x = T.exec s op x)
    (hdiff : ∀ s op x, ¬ G s op x →
      (S.exec s op x).map (fun r => view r.1) ≠ (T.exec s op x).map fun r => view r.1)
    (c : Config σ ω) (ls : List (Label ω χ)) :
    (∀ n, (S.run c (ls.take n)).map (fun c => view c.shared) =
      (T.run c (ls.take n)).map fun c => view c.shared) ↔ T.Meets (fun s _ => G s) c ls := by
  constructor
  · induction ls generalizing c with
    | nil => exact fun _ => trivial
    | cons l ls ih =>
      intro hview
      have hone : MeetsOne (fun s _ => G s) c l := by
        cases l with
        | spawn op => trivial
        | exec i x =>
          intro op hop
          by_contra hg
          obtain ⟨t, hi, ht⟩ := Option.bind_eq_some_iff.1 hop
          obtain ⟨rest, rfl⟩ : ∃ rest, t = op :: rest := ⟨_, (List.cons_head?_tail ht).symm⟩
          have h1 := hview 1
          have hrun (R : System σ ω χ) : (R.run c ((Label.exec i x :: ls).take 1)).map
              (fun c => view c.shared) = (R.exec c.shared op x).map fun r => view r.1 := by
            rw [List.take_succ_cons, List.take_zero, run, step, hi]
            dsimp only
            rcases R.exec c.shared op x with _ | r <;> rfl
          rw [hrun, hrun] at h1
          exact hdiff _ _ _ hg h1
      refine ⟨hone, ?_⟩
      split
      · next c' hstep =>
        refine ih c' fun n => ?_
        have hn := hview (n + 1)
        rw [List.take_succ_cons, run, run, step_congr hentry hsame hone, hstep] at hn
        exact hn
      · trivial
  · intro hG n
    rw [run_congr hentry hsame hG]

end

/-! ## What single threads keep -/

/-- The thread of a step meets the guard, a condition on the state, the operation executed, the
operations that its thread still has to execute after it, and the choice. -/
def HeedsOne (G : σ → ω → List ω → χ → Prop) (c : Config σ ω) : Label ω χ → Prop
  | .spawn _ => True
  | .exec i x =>
    match c.threads[i]? with
    | some (op :: rest) => G c.shared op rest x
    | _ => True

/-- The threads of all steps of a sequence meet the guard. -/
def Heeds (S : System σ ω χ) (G : σ → ω → List ω → χ → Prop) (c : Config σ ω) :
    List (Label ω χ) → Prop
  | [] => True
  | l :: ls => HeedsOne G c l ∧
    match S.step c l with
    | some c' => Heeds S G c' ls
    | none => True

section
variable {G : σ → ω → List ω → χ → Prop} [∀ s op rest x, Decidable (G s op rest x)]

instance (c : Config σ ω) : (l : Label ω χ) → Decidable (HeedsOne G c l)
  | .spawn _ => isTrue trivial
  | .exec i x =>
    match h : c.threads[i]? with
    | some (op :: rest) => decidable_of_iff (G c.shared op rest x) (by rw [HeedsOne, h])
    | some [] | none => isTrue (by rw [HeedsOne, h]; trivial)

instance Heeds.decidable (c : Config σ ω) : (ls : List (Label ω χ)) → Decidable (S.Heeds G c ls)
  | [] => isTrue trivial
  | l :: ls =>
    match h : S.step c l with
    | some c' => @decidable_of_iff _ (HeedsOne G c l ∧ S.Heeds G c' ls) (by rw [Heeds, h])
        (@instDecidableAnd _ _ _ (Heeds.decidable c' ls))
    | none => decidable_of_iff (HeedsOne G c l) (by rw [Heeds, h]; simp)

end

/-- **Invariants of single threads.** Let `I` hold of the state and the pending operations all along
a run. What holds of a new thread, is kept by a thread that executes an operation under the guard,
and is kept by a thread when another executes one, holds of every thread at the end of the run. -/
theorem invariant_threads {I : σ → Multiset ω → Prop} {G : σ → ω → List ω → χ → Prop}
    (P : σ → List ω → Prop) (hspawn : ∀ s op, S.entry op = true → P s [op])
    (hexec : ∀ s ops op rest x s' k, I s ops → (∀ o ∈ op :: rest, o ∈ ops) → P s (op :: rest) →
      G s op rest x → S.exec s op x = some (s', k) → P s' (k ++ rest))
    (hframe : ∀ s ops op x s' k t, I s ops → op ∈ ops → (∀ o ∈ t, o ∈ ops) → P s t →
      S.exec s op x = some (s', k) → P s' t)
    {c c' : Config σ ω} {ls : List (Label ω χ)}
    (hI : ∀ ls c', S.run c ls = some c' → I c'.shared c'.pending)
    (h : ∀ t ∈ c.threads, P c.shared t) (hG : S.Heeds G c ls) (hrun : S.run c ls = some c') :
    ∀ t ∈ c'.threads, P c'.shared t := by
  induction ls generalizing c with
  | nil =>
    cases hrun
    exact h
  | cons l ls ih =>
    obtain ⟨c₁, hstep, hrun⟩ := Option.bind_eq_some_iff.1 hrun
    have hI₁ : ∀ ls c', S.run c₁ ls = some c' → I c'.shared c'.pending := fun ls c' hls =>
      hI (l :: ls) c' (by rw [System.run, hstep]; exact hls)
    have hnow : I c.shared c.pending := hI [] c rfl
    have hmem {t : List ω} (ht : t ∈ c.threads) : ∀ o ∈ t, o ∈ c.pending := fun o ho =>
      Multiset.mem_coe.2 (List.mem_flatten.2 ⟨t, ht, ho⟩)
    rw [Heeds, hstep] at hG
    refine ih hI₁ ?_ hG.2 hrun
    cases l with
    | spawn op =>
      rw [System.step] at hstep
      split at hstep
      · next he =>
        cases hstep
        intro t ht
        rcases List.mem_append.1 ht with ht | ht
        · exact h t ht
        · obtain rfl := List.mem_singleton.1 ht
          exact hspawn _ op he
      · cases hstep
    | exec i x =>
      rw [System.step] at hstep
      split at hstep
      · next op rest hi =>
        obtain ⟨⟨s', k⟩, hx, rfl⟩ := Option.map_eq_some_iff.1 hstep
        have hthis := List.mem_of_getElem? hi
        intro t ht
        rcases List.mem_or_eq_of_mem_set ht with ht | rfl
        · exact hframe _ _ op x s' k t hnow (hmem hthis op (.head _)) (hmem ht) (h t ht) hx
        · have hg := hG.1
          rw [HeedsOne, hi] at hg
          exact hexec _ _ op rest x s' k hnow (hmem hthis) (h _ hthis) hg hx
      · cases hstep

/-! ## A thread that is left alone -/

/-- A thread that executes operations while no other does anything. -/
inductive Alone (S : System σ ω χ) : σ → List ω → σ → List ω → Prop where
  | refl (s : σ) (ops : List ω) : Alone S s ops s ops
  | exec {s s₁ s' : σ} {op : ω} (x : χ) {k rest ops : List ω} : S.exec s op x = some (s₁, k) →
    Alone S s₁ (k ++ rest) s' ops → Alone S s (op :: rest) s' ops

theorem Alone.trans {s s₁ s' : σ} {ops ops₁ ops' : List ω} (h : S.Alone s ops s₁ ops₁)
    (h' : S.Alone s₁ ops₁ s' ops') : S.Alone s ops s' ops' := by
  induction h with
  | refl => exact h'
  | exec x hx _ ih => exact .exec x hx (ih h')

/-- It is a run. -/
theorem Alone.run {s s' : σ} {ops ops' : List ω} (h : S.Alone s ops s' ops') :
    ∃ ls, S.run ⟨s, [ops]⟩ ls = some ⟨s', [ops']⟩ := by
  induction h with
  | refl s ops => exact ⟨[], rfl⟩
  | @exec s s₁ s' op x k rest ops hx _ ih =>
    obtain ⟨ls, hrun⟩ := ih
    refine ⟨.exec 0 x :: ls, ?_⟩
    have hstep : S.step ⟨s, [op :: rest]⟩ (.exec 0 x) = some ⟨s₁, [k ++ rest]⟩ := by
      simp [System.step, hx]
    rw [System.run, hstep]
    exact hrun

end System

end Threads
