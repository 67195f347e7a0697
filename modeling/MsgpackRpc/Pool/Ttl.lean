import MsgpackRpc.Pool.Eviction

/-!
# The lifetime of an idle session

An entry starts with a `ttl` of 60, and `get_session` of its address gives it that again. A tick that
finds its session referenced by the pool only takes one off the `ttl`, or evicts the entry when it is
0; a tick that finds it referenced otherwise does nothing. So the `ttl` and the idle ticks since the
last `get_session` add up to 60 as long as there is an entry (`Aging`), and the 61st evicts it.
-/

namespace MsgpackRpc

open Threads

namespace Pool

/-- The invariant: the `ttl` of an entry and the idle ticks of its session add up. -/
def Aging (s : State) : Prop :=
  ∀ a e, s.table.lookup a = some e → e.ttl.toNat + idleTicks a s.history = 60

theorem aging_init : Aging {} := by
  intro a e h
  simp at h

/-- A visit of another entry is no tick of this one. -/
theorem idleTicks_visited_ne {a b : Address} (h : b ≠ a) (unique : Bool) (es : List Event) :
    idleTicks a (.visited b unique :: es) = idleTicks a es := by
  rw [idleTicks, if_neg fun hb => h hb.1]

/-- Nor is a visit that finds the session referenced. -/
theorem idleTicks_visited_false (a b : Address) (es : List Event) :
    idleTicks a (.visited b false :: es) = idleTicks a es := by
  rw [idleTicks, if_neg fun hb => Bool.noConfusion hb.2]

theorem idleTicks_visited_true (a : Address) (es : List Event) :
    idleTicks a (.visited a true :: es) = idleTicks a es + 1 := by
  rw [idleTicks, if_pos ⟨rfl, rfl⟩]

/-- `get_session` starts the lifetime of the entry anew and leaves the others alone. -/
theorem Aging.returned {s : State} (h : Aging s) (a : Address) (i : SessionId)
    (sessions : List (Address × Session Session.Source)) (handles : List SessionId) :
    Aging { s with
      sessions, handles
      table := s.table.insert a ⟨i, SESSION_POOL_TIME_LIMIT⟩
      history := .returned a i :: s.history } := by
  intro b e he
  dsimp only at he
  by_cases hb : b = a
  · subst hb
    rw [AList.lookup_insert] at he
    cases he
    rw [idleTicks, if_pos rfl]
    rfl
  · rw [AList.lookup_insert_ne hb] at he
    rw [idleTicks, if_neg (Ne.symm hb)]
    exact h b e he

theorem aging_step {s s' : State} {op : Op} (h : Aging s) (hs : Steps s op s') : Aging s' := by
  cases hs with
  | quiet _ ht _ hh _ =>
    intro a e he
    rw [ht] at he
    rw [hh]
    exact h a e he
  | refreshed he => exact h.returned _ _ _ _
  | created => exact h.returned _ _ _ _
  | @evicted a e he hu ht =>
    intro b e' he'
    by_cases hb : b = a
    · subst hb
      rw [AList.lookup_erase] at he'
      cases he'
    · rw [AList.lookup_erase_ne hb] at he'
      rw [idleTicks_visited_ne (Ne.symm hb)]
      exact h b e' he'
  | @aged a e he hu ht =>
    intro b e' he'
    dsimp only at he'
    by_cases hb : b = a
    · subst hb
      rw [AList.lookup_insert] at he'
      cases he'
      rw [idleTicks_visited_true]
      have hpos : 0 < e.ttl.toNat := by
        rw [Nat.pos_iff_ne_zero]
        exact fun h0 => ht (BitVec.eq_of_toNat_eq h0)
      have hone : (1 : BitVec 32) ≤ e.ttl := BitVec.le_def.2 hpos
      have hsub : (e.ttl - 1).toNat = e.ttl.toNat - 1 := BitVec.toNat_sub_of_le hone
      have hsum := h b e he
      show (e.ttl - 1).toNat + (idleTicks b s.history + 1) = 60
      omega
    · rw [AList.lookup_insert_ne hb] at he'
      rw [idleTicks_visited_ne (Ne.symm hb)]
      exact h b e' he'
  | spared =>
    intro b e' he'
    rw [idleTicks_visited_false]
    exact h b e' he'
  | absent | session => exact h

/-- Every state of a run. -/
theorem aging_run {ls : List (Label Op Choice)} {c : Config State Op}
    (hrun : machine.run init ls = some c) : Aging c.shared :=
  machine.invariant (fun s _ => Aging s) (fun _ _ _ h _ => h)
    (fun _ _ _ _ _ _ h _ hx => aging_step h (exec_steps hx)) aging_init
    (System.meets_true init ls) hrun

/-- A visit touches no entry but its own. -/
theorem visit_ne (s : State) {a b : Address} (h : b ≠ a) :
    (s.visit a).table.lookup b = s.table.lookup b := by
  unfold State.visit
  split
  · rfl
  · dsimp only
    split
    · split
      · exact AList.lookup_erase_ne h
      · exact AList.lookup_insert_ne h
    · rfl

/-- The visit of an entry: it is evicted, aged, or left alone when its session is referenced. -/
theorem visit_self {s : State} {a : Address} {e : Entry} (he : s.table.lookup a = some e) :
    (s.visit a).table.lookup a =
      (if s.unique e.session then
        if e.ttl ≤ 0 then none else some { e with ttl := e.ttl - 1 }
      else some e) ∧
    (s.visit a).history = .visited a (s.unique e.session) :: s.history := by
  unfold State.visit
  rw [he]
  dsimp only
  split
  · split
    · exact ⟨AList.lookup_erase a s.table, rfl⟩
    · exact ⟨AList.lookup_insert s.table, rfl⟩
  · exact ⟨he, rfl⟩

/-- **A visit evicts an entry at its 61st idle tick**, and at no other. -/
theorem visit_evicts {s : State} (h : Aging s) {a : Address} {e : Entry}
    (he : s.table.lookup a = some e) :
    (s.visit a).table.lookup a = none ↔ idleTicks a (s.visit a).history = 61 := by
  have hsum := h a e he
  obtain ⟨hl, hh⟩ := visit_self he
  rw [hl, hh]
  cases hu : s.unique e.session with
  | false =>
    rw [idleTicks_visited_false]
    simp only [Bool.false_eq_true, ↓reduceIte, reduceCtorEq, false_iff]
    omega
  | true =>
    rw [idleTicks_visited_true, if_pos rfl]
    by_cases ht : e.ttl ≤ 0
    · have h0 : e.ttl.toNat = 0 := by simpa [BitVec.le_def] using ht
      rw [if_pos ht]
      simp only [true_iff]
      omega
    · have h0 : e.ttl.toNat ≠ 0 := by
        intro h0
        exact ht (by simp [BitVec.le_def, h0])
      rw [if_neg ht]
      simp only [reduceCtorEq, false_iff]
      omega

/-- **Idle sessions live exactly their `ttl`.** In every state of every run the `ttl` of an entry and
the idle ticks of its session since the last `get_session` add up to 60; an entry is removed by the
visit of a tick that makes them 61 and by nothing else; the visit of an entry whose session is
referenced otherwise leaves it as it is, and no visit changes another entry; and a tick visits each
entry once, in whatever order. -/
theorem idle_lifetime {ls : List (Label Op Choice)} {c : Config State Op}
    (hrun : machine.run init ls = some c) :
    (∀ a e, c.shared.table.lookup a = some e →
      e.ttl.toNat ≤ 60 ∧ e.ttl.toNat + idleTicks a c.shared.history = 60) ∧
      ∀ op x s' k, machine.exec c.shared op x = some (s', k) →
        (∀ a e, c.shared.table.lookup a = some e →
          (s'.table.lookup a = none ↔ op = .visit a ∧ idleTicks a s'.history = 61)) ∧
        (∀ a e, op = .visit a → c.shared.table.lookup a = some e →
          c.shared.unique e.session = false → s'.table.lookup a = some e) ∧
        (∀ a b, op = .visit a → b ≠ a → s'.table.lookup b = c.shared.table.lookup b) ∧
        (op = .stepTimerHandler →
          ∀ a, k.count (.visit a) = if (c.shared.table.lookup a).isSome then 1 else 0) := by
  have h := aging_run hrun
  refine ⟨?_, ?_⟩
  · intro a e he
    have hsum := h a e he
    exact ⟨by omega, hsum⟩
  · intro op x s' k hx
    refine ⟨?_, ?_, ?_, ?_⟩
    · intro a e he
      constructor
      · intro hn
        obtain ⟨rfl, -, -⟩ := unique_of_removed (exec_steps hx) he hn
        cases hx
        exact ⟨rfl, (visit_evicts h he).1 hn⟩
      · rintro ⟨rfl, h61⟩
        cases hx
        exact (visit_evicts h he).2 h61
    · rintro a e rfl he hu
      cases hx
      rw [(visit_self he).1, hu]
      rfl
    · rintro a b rfl hb
      cases hx
      exact visit_ne _ hb
    · rintro rfl a
      simp only [machine] at hx
      split at hx
      · cases hx
      · split at hx
        · next hp =>
          cases hx
          -- the order is one of the keys, and these are distinct
          have hinj : Function.Injective Op.visit := fun _ _ h => by cases h; rfl
          rw [List.count_append, List.count_map_of_injective _ _ hinj, hp.count_eq,
            List.count_singleton]
          simp only [beq_iff_eq, reduceCtorEq, ↓reduceIte, Nat.add_zero]
          by_cases hmem : a ∈ c.shared.table.keys
          · rw [List.count_eq_one_of_mem c.shared.table.keys_nodup hmem,
              if_pos (AList.lookup_isSome.2 hmem)]
          · rw [List.count_eq_zero_of_not_mem hmem, if_neg]
            exact fun hs => hmem (AList.lookup_isSome.1 hs)
        · cases hx

/-- A session is got and its handle dropped, and then there are 60 ticks. -/
def sixtyTicks : List (Label Op Choice) :=
  [.spawn (.getSession ⟨1, 80⟩), .exec 0 {}, .spawn (.dropHandle 0), .exec 1 {}] ++
    (List.range 60).flatMap fun n =>
      [.spawn .stepTimerHandler, .exec (n + 2) { order := [⟨1, 80⟩] }, .exec (n + 2) {},
        .exec (n + 2) {}]

set_option maxRecDepth 4000 in
/-- The entry is still there, with nothing left of its `ttl`, and the next tick evicts it. -/
theorem idle_lifetime_sixtyTicks :
    ∃ c, machine.run init sixtyTicks = some c ∧
      c.shared.table.lookup ⟨1, 80⟩ = some ⟨0, 0⟩ ∧ idleTicks ⟨1, 80⟩ c.shared.history = 60 ∧
      (c.shared.visit ⟨1, 80⟩).table.lookup ⟨1, 80⟩ = none :=
  ⟨_, rfl, rfl, rfl, (((idle_lifetime (rfl : machine.run init sixtyTicks = some _)).2 (.visit ⟨1, 80⟩)
    {} _ _ rfl).1 ⟨1, 80⟩ _ rfl).2 ⟨rfl, rfl⟩⟩

end Pool

end MsgpackRpc
