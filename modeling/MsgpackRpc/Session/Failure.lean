import MsgpackRpc.Session.Conserved

/-!
# Failing all requests

`session_impl::on_connect_failed` and `session_impl::on_system_error` from beginning to end: the sweep
and the `set_result`s that follow it, when no callback calls the session and no other thread comes in
between. `Failed` is what is left of a session then: the table is empty, and every future that was in
it has been completed exactly once, with `CONNECT_ERROR`.
-/

namespace MsgpackRpc

namespace Session

section
variable {ι : Type}

/-- Calls of `set_result`, one after the other. -/
def completeAll (s : Session ι) (cs : List (Completion ι)) : Session ι :=
  cs.foldl (fun s d => (s.setResult d).1) s

/-- The sweep of the session and the completions of what it takes. -/
def fail (s : Session ι) (origin : ι) (it : List Reqtable.Entry) : Session ι :=
  let swept := s.sweep origin CONNECT_ERROR it
  swept.1.completeAll swept.2

/-- Completing futures changes them, and the records of completions and callbacks. -/
theorem completeAll_frame (s : Session ι) (cs : List (Completion ι)) :
    s.completeAll cs = { s with
      futures := (s.completeAll cs).futures
      completions := s.completions ++ cs
      ran := (s.completeAll cs).ran } := by
  induction cs generalizing s with
  | nil => simp [completeAll]
  | cons d cs ih =>
    have h := ih (s.setResult d).1
    rw [completeAll, List.foldl_cons, ← completeAll, h, setResult_frame]
    simp

/-- The futures completed are ready with what the completions say; the others are as they were. -/
theorem completeAll_outcomes {s : Session ι} {cs : List (Completion ι)} {result error : Object}
    (hcs : ∀ d ∈ cs, d.result = result ∧ d.error = error) (f : FutureId) :
    ((s.completeAll cs).futures.map Future.outcome)[f]? =
      if f ∈ cs.map Completion.future then
        ((s.futures.map Future.outcome)[f]?).map fun _ => (false, result, error)
      else (s.futures.map Future.outcome)[f]? := by
  induction cs generalizing s with
  | nil => simp [completeAll]
  | cons d cs ih =>
    rw [completeAll, List.foldl_cons, ← completeAll, ih fun d hd => hcs d (.tail _ hd),
      setResult_outcomes, (hcs d (.head _)).1, (hcs d (.head _)).2]
    by_cases hd : d.future = f
    · subst hd
      by_cases hlt : d.future < s.futures.length <;> simp [hlt]
    · simp [List.getElem?_set_ne hd, Ne.symm hd]

/-- What is left of a session whose requests have all failed. -/
structure Failed (s s' : Session ι) : Prop where
  reqtable : s'.reqtable = ∅
  completions : ∃ cs, s'.completions = s.completions ++ cs ∧
    ↑(cs.map Completion.future) = s.reqtable.values ∧
    ∀ d ∈ cs, d.result = .nil ∧ d.error = CONNECT_ERROR
  futures : ∀ f, (s'.futures.map Future.outcome)[f]? =
    if f ∈ s.reqtable.values then
      ((s.futures.map Future.outcome)[f]?).map fun _ => (false, .nil, CONNECT_ERROR)
    else (s.futures.map Future.outcome)[f]?

/-- **`on_connect_failed` and `on_system_error`** complete every future in the table. -/
theorem failed_fail (s : Session ι) (origin : ι) {it : List Reqtable.Entry}
    (h : it.Perm s.reqtable.entries) : Failed s (s.fail origin it) := by
  obtain ⟨hs, hempty⟩ := hands_sweep s origin CONNECT_ERROR h
  have hcs : ∀ d ∈ (s.sweep origin CONNECT_ERROR it).2, d.result = .nil ∧ d.error = CONNECT_ERROR :=
    fun d hd => (hand_origin hd).2
  have hvalues : ↑((s.sweep origin CONNECT_ERROR it).2.map Completion.future) =
      s.reqtable.values := by
    rw [hs.values, hempty, Reqtable.values_empty, add_zero]
  have hframe := completeAll_frame (s.sweep origin CONNECT_ERROR it).1
    (s.sweep origin CONNECT_ERROR it).2
  refine ⟨?_, ⟨_, ?_, hvalues, hcs⟩, ?_⟩
  · rw [fail, hframe]
    exact hempty
  · rw [fail, hframe, hs.frame]
  · intro f
    rw [fail, completeAll_outcomes hcs, ← hvalues]
    rfl

/-- Each of them is completed exactly once. -/
theorem Failed.count {s s' : Session ι} (h : Failed s s') {pending : Multiset (Completion ι)}
    (hcons : Conserved s pending) {f : FutureId} (hf : f ∈ s.reqtable.values) :
    s'.completions.countP (fun d => d.future = f) =
      s.completions.countP (fun d => d.future = f) + 1 := by
  obtain ⟨cs, hc, hv, -⟩ := h.completions
  have hone : (cs.map Completion.future).count f = 1 := by
    rw [← Multiset.coe_count, hv]
    exact Multiset.count_eq_one_of_mem hcons.nodup_values hf
  rw [List.count_eq_countP, List.countP_map] at hone
  rw [hc, List.countP_append]
  exact congrArg _ hone

end

end Session

end MsgpackRpc
