import Mathlib.Logic.Relation
import MsgpackRpc.Lib.Threads

/-!
# Simulations between systems of threads

A pool is a system of threads that has forgotten which of the pending operations belong to one
thread: any of them can be the next. Every run is one of the pool (`pool_of_run`), so what is shown
of the pool holds of the runs, and it is enough to simulate the pool.

`Pool.simulation` is the rule: a relation between the configurations of a pool and the states of a
transition relation, such that each step of the pool is matched by some transitions, carries whole
runs over. The transition relation can be the pool of another system.
-/

namespace Threads

open Relation

variable {σ ω χ τ : Type}

namespace System
variable (S : System σ ω χ)

/-- One step of the state and the pending operations: one is added, or any of them is executed. -/
inductive Pool : σ × Multiset ω → σ × Multiset ω → Prop where
  | spawn {s : σ} {op : ω} (ops : Multiset ω) : S.entry op = true → Pool (s, ops) (s, op ::ₘ ops)
  | exec {s s' : σ} {op : ω} (x : χ) {k : List ω} (rest : Multiset ω) :
    S.exec s op x = some (s', k) → Pool (s, op ::ₘ rest) (s', ↑k + rest)

variable {S}

/-- A step of a thread is one of the pool. -/
theorem pool_of_step {c c' : Config σ ω} {l : Label ω χ} (h : S.step c l = some c') :
    S.Pool (c.shared, c.pending) (c'.shared, c'.pending) := by
  rcases step_cases h with ⟨op, -, he, hs, hp⟩ | ⟨-, x, op, rest, k, -, -, hx, hp, hp'⟩
  · rw [hs, hp]
    exact .spawn _ he
  · rw [hp, hp']
    exact .exec x rest hx

/-- A run of threads is one of the pool. -/
theorem pool_of_run {c c' : Config σ ω} {ls : List (Label ω χ)} (h : S.run c ls = some c') :
    ReflTransGen S.Pool (c.shared, c.pending) (c'.shared, c'.pending) := by
  induction ls generalizing c with
  | nil =>
    cases h
    exact .refl
  | cons l ls ih =>
    obtain ⟨c₁, hstep, hrun⟩ := Option.bind_eq_some_iff.1 h
    exact .head (pool_of_step hstep) (ih hrun)

/-- **Simulation.** If each step of the pool is matched by transitions of `T` between related
states, so is each of its runs. -/
theorem Pool.simulation {T : τ → τ → Prop} (R : σ → Multiset ω → τ → Prop)
    (hspawn : ∀ s ops op t, R s ops t → S.entry op = true →
      ∃ t', ReflTransGen T t t' ∧ R s (op ::ₘ ops) t')
    (hexec : ∀ s op rest x s' k t, R s (op ::ₘ rest) t → S.exec s op x = some (s', k) →
      ∃ t', ReflTransGen T t t' ∧ R s' (↑k + rest) t')
    {p p' : σ × Multiset ω} {t : τ} (hrun : ReflTransGen S.Pool p p') (h : R p.1 p.2 t) :
    ∃ t', ReflTransGen T t t' ∧ R p'.1 p'.2 t' := by
  induction hrun with
  | refl => exact ⟨t, .refl, h⟩
  | tail _ hstep ih =>
    obtain ⟨t₁, hreach, h₁⟩ := ih
    cases hstep with
    | spawn ops he =>
      obtain ⟨t', hreach', h'⟩ := hspawn _ _ _ _ h₁ he
      exact ⟨t', hreach.trans hreach', h'⟩
    | exec x rest hx =>
      obtain ⟨t', hreach', h'⟩ := hexec _ _ _ _ _ _ _ h₁ hx
      exact ⟨t', hreach.trans hreach', h'⟩

/-- What holds at the start of a run of the pool and is preserved by its steps holds at the end. -/
theorem Pool.invariant (P : σ → Multiset ω → Prop)
    (hspawn : ∀ s ops op, P s ops → S.entry op = true → P s (op ::ₘ ops))
    (hexec : ∀ s op rest x s' k, P s (op ::ₘ rest) → S.exec s op x = some (s', k) →
      P s' (↑k + rest))
    {p p' : σ × Multiset ω} (hrun : ReflTransGen S.Pool p p') (h : P p.1 p.2) : P p'.1 p'.2 := by
  have hsim := Pool.simulation (T := fun _ _ : Unit => True) (t := ()) (fun s ops _ => P s ops)
    (fun s ops op _ hp he => ⟨(), .refl, hspawn s ops op hp he⟩)
    (fun s op rest x s' k _ hp hx => ⟨(), .refl, hexec s op rest x s' k hp hx⟩) hrun h
  exact hsim.choose_spec.2

end System

end Threads
