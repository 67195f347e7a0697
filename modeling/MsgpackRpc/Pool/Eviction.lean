import MsgpackRpc.Pool.Machine

/-!
# Eviction from the pool

A tick evicts an entry only when nothing but the pool references its session. A future that is not
ready references its session, whichever way it will be completed, so no request is pending then; and
nothing can reference the session again, since the handles and the futures that do are made from
handles. So the session that `get_session` last returned for an address is in the table, or nothing
references it any more (`Kept`).
-/

namespace MsgpackRpc

open Threads

namespace Session

/-- **No operation but the insertion of a future makes a session referenced again**: when all its
futures are ready, they stay so. -/
theorem ready_of_steps {s s' : Session Source} {op : Op} {k : List Op} (h : Steps s op s' k)
    (hop : ∀ c, op ≠ .sendRequestImpl c) (hready : ∀ fut ∈ s.futures, fut.session = false) :
    ∀ fut ∈ s'.futures, fut.session = false := by
  have of_map (heq : s'.futures.map Future.session = s.futures.map Future.session) :
      ∀ fut ∈ s'.futures, fut.session = false := by
    intro fut hfut
    have hmem : fut.session ∈ s'.futures.map Future.session := List.mem_map_of_mem hfut
    rw [heq] at hmem
    obtain ⟨fut₀, hfut₀, he⟩ := List.mem_map.1 hmem
    rw [← he]
    exact hready fut₀ hfut₀
  cases h with
  | sendRequest | timedWait | timedWaitReady | timedWaitExpired | setTimeout => exact hready
  | sendRequestImpl => exact absurd rfl (hop _)
  | take _ hs => exact of_map (Future.map_eq_of_untimed (fun _ => rfl) hs.futures)
  | setResult c =>
    intro fut hfut
    have hmem : fut.outcome ∈ (s.setResult c).1.futures.map Future.outcome :=
      List.mem_map_of_mem hfut
    rw [setResult_outcomes] at hmem
    rcases List.mem_or_eq_of_mem_set hmem with hmem | he
    · obtain ⟨fut₀, hfut₀, he⟩ := List.mem_map.1 hmem
      exact (congrArg Prod.fst he).symm.trans (hready fut₀ hfut₀)
    · exact congrArg Prod.fst he
  | attachCallback f func => exact of_map (attachCallback_futures (fun _ _ => rfl) s f func)
  | runPosted =>
    rw [runPosted_frame]
    exact hready

end Session

namespace Pool

/-- No handle and no pending future references a session. -/
structure State.Unreferenced (s : State) (i : SessionId) : Prop where
  handles : i ∉ s.handles
  ready : ∀ a t, s.sessions[i]? = some (a, t) → ∀ fut ∈ t.futures, fut.session = false

/-- **The reference count.** A session that its entry references alone is referenced by nothing
else. -/
theorem unreferenced_of_unique {s : State} {a : Address} {e : Entry}
    (he : s.table.lookup a = some e) (hu : s.unique e.session = true) :
    s.Unreferenced e.session := by
  have hcount : s.useCount e.session = 1 := by simpa [State.unique] using hu
  have hentry : 0 < s.table.entries.countP fun e' => e'.2.session = e.session := by
    rw [List.countP_pos_iff]
    exact ⟨⟨a, e⟩, AList.mem_lookup_iff.1 he, by simp⟩
  unfold State.useCount at hcount
  refine ⟨List.count_eq_zero.1 (by omega), ?_⟩
  intro b t ht fut hfut
  have hpending : t.futures.countP Future.session = 0 := by
    have h0 : s.pendingFutures e.session = 0 := by omega
    simpa [State.pendingFutures, ht] using h0
  simpa using List.countP_eq_zero.1 hpending fut hfut

/-- The invariant: the sessions in the table and those returned are sessions for their address, and
one that was returned last is in the table or nothing references it. -/
structure Kept (s : State) : Prop where
  table : ∀ a e, s.table.lookup a = some e → ∃ t, s.sessions[e.session]? = some (a, t)
  returned : ∀ a i, lastReturned a s.history = some i → ∃ t, s.sessions[i]? = some (a, t)
  kept : ∀ a i, lastReturned a s.history = some i →
    (∃ e, s.table.lookup a = some e ∧ e.session = i) ∨ s.Unreferenced i

theorem kept_init : Kept {} := by
  refine ⟨?_, ?_, ?_⟩
  · intro a e h
    simp at h
  · intro a i h
    cases h
  · intro a i h
    cases h

/-- A step that creates no session and no reference. -/
theorem Kept.quiet {s s' : State} (h : Kept s) (ht : s'.table = s.table)
    (hs : s'.sessions = s.sessions) (hh : s'.history = s.history)
    (hi : ∀ i ∈ s'.handles, i ∈ s.handles) : Kept s' := by
  refine ⟨by rw [ht, hs]; exact h.table, by rw [hh, hs]; exact h.returned, ?_⟩
  intro a i hlast
  rw [hh] at hlast
  rw [ht]
  refine (h.kept a i hlast).imp_right ?_
  intro hu
  refine ⟨fun hmem => hu.handles (hi i hmem), ?_⟩
  rw [hs]
  exact hu.ready

/-- **`get_session` finds an entry.** The handle is to a session of this address, which is no other
address's. -/
theorem Kept.refreshed {s : State} (h : Kept s) {a : Address} {e : Entry}
    (he : s.table.lookup a = some e) (ttl : BitVec 32) :
    Kept { s with
      table := s.table.insert a { e with ttl }
      handles := e.session :: s.handles
      history := .returned a e.session :: s.history } := by
  obtain ⟨t, ht⟩ := h.table a e he
  have hlast {b : Address} {i : SessionId}
      (hl : lastReturned b (.returned a e.session :: s.history) = some i) :
      b = a ∧ i = e.session ∨ b ≠ a ∧ lastReturned b s.history = some i := by
    by_cases hb : a = b
    · rw [lastReturned, if_pos hb] at hl
      exact .inl ⟨hb.symm, (Option.some.inj hl).symm⟩
    · rw [lastReturned, if_neg hb] at hl
      exact .inr ⟨Ne.symm hb, hl⟩
  refine ⟨?_, ?_, ?_⟩
  · intro b e' hb
    by_cases hba : b = a
    · subst hba
      rw [AList.lookup_insert] at hb
      cases hb
      exact ⟨t, ht⟩
    · rw [AList.lookup_insert_ne hba] at hb
      exact h.table b e' hb
  · intro b i hl
    rcases hlast hl with ⟨rfl, rfl⟩ | ⟨-, hl⟩
    · exact ⟨t, ht⟩
    · exact h.returned b i hl
  · intro b i hl
    rcases hlast hl with ⟨rfl, rfl⟩ | ⟨hb, hl⟩
    · exact .inl ⟨_, AList.lookup_insert _, rfl⟩
    · refine (h.kept b i hl).imp ?_ ?_
      · rintro ⟨e', he', hi⟩
        exact ⟨e', by rw [AList.lookup_insert_ne hb]; exact he', hi⟩
      · intro hu
        obtain ⟨t', ht'⟩ := h.returned b i hl
        have hne : i ≠ e.session := by
          rintro rfl
          rw [ht] at ht'
          cases ht'
          exact hb rfl
        exact ⟨by simp [hne, hu.handles], hu.ready⟩

/-- `get_session` creates a session. -/
theorem Kept.created {s : State} (h : Kept s) {a : Address} (t : Session Session.Source)
    (ttl : BitVec 32) :
    Kept { s with
      sessions := s.sessions ++ [(a, t)]
      table := s.table.insert a ⟨s.sessions.length, ttl⟩
      handles := s.sessions.length :: s.handles
      history := .returned a s.sessions.length :: s.history } := by
  have hget {i : SessionId} {p : Address × Session Session.Source}
      (hp : s.sessions[i]? = some p) : (s.sessions ++ [(a, t)])[i]? = some p := by
    rw [List.getElem?_append_left (List.getElem?_eq_some_iff.1 hp).1]
    exact hp
  refine ⟨?_, ?_, ?_⟩
  · intro b e hb
    by_cases hba : b = a
    · subst hba
      rw [AList.lookup_insert] at hb
      cases hb
      exact ⟨t, by simp⟩
    · rw [AList.lookup_insert_ne hba] at hb
      obtain ⟨t', ht'⟩ := h.table b e hb
      exact ⟨t', hget ht'⟩
  · intro b i hl
    by_cases hb : a = b
    · rw [lastReturned, if_pos hb] at hl
      cases hl
      exact ⟨t, by simp [hb]⟩
    · rw [lastReturned, if_neg hb] at hl
      obtain ⟨t', ht'⟩ := h.returned b i hl
      exact ⟨t', hget ht'⟩
  · intro b i hl
    by_cases hb : a = b
    · subst hb
      rw [lastReturned, if_pos rfl] at hl
      cases hl
      exact .inl ⟨_, AList.lookup_insert _, rfl⟩
    · rw [lastReturned, if_neg hb] at hl
      obtain ⟨t', ht'⟩ := h.returned b i hl
      have hlt := (List.getElem?_eq_some_iff.1 ht').1
      refine (h.kept b i hl).imp ?_ ?_
      · rintro ⟨e, he, hi⟩
        exact ⟨e, by rw [AList.lookup_insert_ne (Ne.symm hb)]; exact he, hi⟩
      · intro hu
        refine ⟨by simp [hu.handles, Nat.ne_of_lt hlt], ?_⟩
        intro c t'' hc
        rw [hget ht'] at hc
        exact hu.ready c t'' (ht'.trans hc)

/-- A step of a session. One that nothing references has no handle to send through. -/
theorem Kept.session {s : State} (h : Kept s) {i : SessionId} {op : Session.Op} {a : Address}
    {t t' : Session Session.Source} {k : List Session.Op}
    (hh : byHandle op = true → i ∈ s.handles) (ht : s.sessions[i]? = some (a, t))
    (hs : Session.Steps t op t' k) :
    Kept { s with sessions := s.sessions.set i (a, t') } := by
  have hlt := (List.getElem?_eq_some_iff.1 ht).1
  have hget {j : SessionId} {b : Address} (hj : ∃ u, s.sessions[j]? = some (b, u)) :
      ∃ u, (s.sessions.set i (a, t'))[j]? = some (b, u) := by
    obtain ⟨u, hu⟩ := hj
    by_cases hij : i = j
    · subst hij
      rw [ht] at hu
      cases hu
      exact ⟨t', List.getElem?_set_self hlt⟩
    · exact ⟨u, by rw [List.getElem?_set_ne hij]; exact hu⟩
  refine ⟨fun b e he => hget (h.table b e he), fun b j hj => hget (h.returned b j hj), ?_⟩
  intro b j hj
  refine (h.kept b j hj).imp_right ?_
  intro hu
  refine ⟨hu.handles, ?_⟩
  intro c u hc
  dsimp only at hc
  by_cases hij : i = j
  · subst hij
    rw [List.getElem?_set_self hlt] at hc
    cases hc
    refine Session.ready_of_steps hs ?_ (hu.ready a t ht)
    rintro c rfl
    exact hu.handles (hh rfl)
  · rw [List.getElem?_set_ne hij] at hc
    exact hu.ready c u hc

/-- The entry of an address changes, but not its session. -/
theorem Kept.visited {s : State} (h : Kept s) {a : Address} (unique : Bool) {table : Table}
    (hne : ∀ b, b ≠ a → table.lookup b = s.table.lookup b)
    (ha : ∀ e, table.lookup a = some e → ∃ e', s.table.lookup a = some e' ∧ e'.session = e.session)
    (hevict : ∀ e, s.table.lookup a = some e →
      (∃ e', table.lookup a = some e' ∧ e'.session = e.session) ∨ s.Unreferenced e.session) :
    Kept { s with table, history := .visited a unique :: s.history } := by
  refine ⟨?_, h.returned, ?_⟩
  · intro b e he
    by_cases hb : b = a
    · subst hb
      obtain ⟨e', he', hsess⟩ := ha e he
      rw [← hsess]
      exact h.table b e' he'
    · exact h.table b e (by rw [← hne b hb]; exact he)
  · intro b i hl
    rcases h.kept b i hl with ⟨e, he, rfl⟩ | hu
    · by_cases hb : b = a
      · subst hb
        exact (hevict e he).imp_right fun hu => ⟨hu.handles, hu.ready⟩
      · exact .inl ⟨e, by rw [hne b hb]; exact he, rfl⟩
    · exact .inr ⟨hu.handles, hu.ready⟩

theorem kept_step {s s' : State} {op : Op} (h : Kept s) (hs : Steps s op s') : Kept s' := by
  cases hs with
  | quiet _ ht hsess hh hi => exact h.quiet ht hsess hh hi
  | refreshed he => exact h.refreshed he _
  | created => exact h.created _ _
  | evicted he hu =>
    refine h.visited true (fun b hb => AList.lookup_erase_ne hb) ?_ ?_
    · intro e' he'
      rw [AList.lookup_erase] at he'
      cases he'
    · intro e' he'
      rw [he] at he'
      cases he'
      exact .inr (unreferenced_of_unique he hu)
  | aged he =>
    refine h.visited true (fun b hb => AList.lookup_insert_ne hb) ?_ ?_
    · intro e' he'
      rw [AList.lookup_insert] at he'
      cases he'
      exact ⟨_, he, rfl⟩
    · intro e' he'
      rw [he] at he'
      cases he'
      exact .inl ⟨_, AList.lookup_insert _, rfl⟩
  | spared =>
    exact h.visited false (fun _ _ => rfl) (fun e he => ⟨e, he, rfl⟩)
      fun e he => .inl ⟨e, he, rfl⟩
  | absent => exact h
  | session hh ht hs => exact h.session hh ht hs

/-- Every state of a run. -/
theorem kept_run {ls : List (Label Op Choice)} {c : Config State Op}
    (hrun : machine.run init ls = some c) : Kept c.shared :=
  machine.invariant (fun s _ => Kept s) (fun _ _ _ h _ => h)
    (fun _ _ _ _ _ _ h _ hx => kept_step h (exec_steps hx)) kept_init
    (System.meets_true init ls) hrun

/-- An entry that a step removes was evicted by a tick that found nothing else referencing its
session. -/
theorem unique_of_removed {s s' : State} {op : Op} (hs : Steps s op s') {a : Address} {e : Entry}
    (he : s.table.lookup a = some e) (hn : s'.table.lookup a = none) :
    op = .visit a ∧ s.unique e.session = true ∧ e.ttl = 0 := by
  have hold {b : Address} {e' : Entry} (hn : (s.table.insert b e').lookup a = none) : False := by
    by_cases hb : a = b
    · subst hb
      rw [AList.lookup_insert] at hn
      cases hn
    · rw [AList.lookup_insert_ne hb, he] at hn
      cases hn
  have hsame (hn : s.table.lookup a = none) : False := by
    rw [he] at hn
    cases hn
  cases hs with
  | quiet _ ht =>
    rw [ht] at hn
    exact (hsame hn).elim
  | refreshed | created | aged => exact (hold hn).elim
  | spared | absent | session => exact (hsame hn).elim
  | @evicted b e' he' hu ht =>
    by_cases hb : a = b
    · subst hb
      rw [he] at he'
      cases he'
      exact ⟨rfl, hu, ht⟩
    · rw [AList.lookup_erase_ne hb] at hn
      exact (hsame hn).elim

/-- **Eviction loses no work and a live session is not duplicated.** In every state of every run: a
step that removes an entry is one of a tick, at which no handle refers to the session and every future
in its table is ready; and as long as there is a handle to the session last returned for an address,
or one of its futures is not ready, `get_session` of an equal address returns that session and creates
none. -/
theorem eviction_safe {ls : List (Label Op Choice)} {c : Config State Op}
    (hrun : machine.run init ls = some c) :
    (∀ op x s' k, machine.exec c.shared op x = some (s', k) →
      ∀ a e, c.shared.table.lookup a = some e → s'.table.lookup a = none →
        op = .visit a ∧ e.session ∉ c.shared.handles ∧
          ∀ b t, c.shared.sessions[e.session]? = some (b, t) →
            ∀ msgid f fut, t.reqtable.lookup msgid = some f → t.futures[f]? = some fut →
              fut.isReady = true) ∧
      ∀ a i, lastReturned a c.shared.history = some i →
        (i ∈ c.shared.handles ∨ ∃ b t fut, c.shared.sessions[i]? = some (b, t) ∧
          fut ∈ t.futures ∧ fut.isReady = false) →
        ∀ a' ok, a'.equals a = true →
          (c.shared.getSession a' ok).history = .returned a' i :: c.shared.history ∧
            (c.shared.getSession a' ok).sessions = c.shared.sessions := by
  have h := kept_run hrun
  refine ⟨?_, ?_⟩
  · intro op x s' k hx a e he hn
    obtain ⟨rfl, hu, -⟩ := unique_of_removed (exec_steps hx) he hn
    have hun := unreferenced_of_unique he hu
    refine ⟨rfl, hun.handles, ?_⟩
    intro b t ht msgid f fut _ hf
    simp [Future.isReady, hun.ready b t ht fut (List.mem_of_getElem? hf)]
  · intro a i hl href a' ok ha
    obtain rfl := (Address.equals_iff a' a).1 ha
    rcases h.kept a' i hl with ⟨e, he, rfl⟩ | hu
    · simp [State.getSession, find_eq_lookup, he]
    · rcases href with hi | ⟨b, t, fut, ht, hfut, hready⟩
      · exact absurd hi hu.handles
      · simp [Future.isReady, hu.ready b t ht fut hfut] at hready

/-- A request is sent through a handle, which is then dropped, and a tick walks the table while the
request is pending. -/
def handleDropped : List (Label Op Choice) :=
  [.spawn (.getSession ⟨1, 80⟩), .exec 0 {},
    .spawn (.session 0 (.sendRequest (.str [0x66]) .nil)), .exec 1 {}, .exec 1 {},
    .spawn (.dropHandle 0), .exec 2 {},
    .spawn .stepTimerHandler, .exec 3 { order := [⟨1, 80⟩] }, .exec 3 {}, .exec 3 {}]

/-- The pending request alone keeps the session, which the next `get_session` returns. -/
theorem eviction_safe_handleDropped :
    ∃ c, machine.run init handleDropped = some c ∧ c.shared.handles = [] ∧
      (c.shared.getSession ⟨1, 80⟩ true).history = .returned ⟨1, 80⟩ 0 :: c.shared.history ∧
      (c.shared.getSession ⟨1, 80⟩ true).sessions = c.shared.sessions :=
  ⟨_, rfl, rfl, (eviction_safe (rfl : machine.run init handleDropped = some _)).2 ⟨1, 80⟩ 0 rfl
    (.inr ⟨_, _, _, rfl, .head _, rfl⟩) ⟨1, 80⟩ true rfl⟩

end Pool

end MsgpackRpc
