import MsgpackRpc.Session.Machine

/-!
# Answering and failing requests

What becomes of the futures of a session when messages come from the server and when the connection
then fails, each operation taken to its end with what the callbacks do that `set_result` runs. `SendFree`
is what a callback does with its session that sends nothing.

`Answered` is the session after any messages from the server: each future whose response was among
them is completed with the first one, the others are still in the table. `Answered.disposed` is what
becomes of the rest when the connection then fails.
-/

namespace MsgpackRpc

namespace Session

/-- What a callback that sends neither requests nor notifications does with its session and the futures
of it: it attaches callbacks, sets the timeout and waits for futures that are pending until the wait runs
out, which runs their callbacks. Looking at a future changes nothing. -/
inductive SendFree : Session Source → Session Source → Prop where
  | done (s : Session Source) : SendFree s s
  | attachCallback {s s' : Session Source} (f : FutureId) (func : Callback) :
    SendFree (s.attachCallback f func) s' → SendFree s s'
  | setTimeout {s s' : Session Source} (sec : BitVec 32) :
    SendFree (s.setTimeout sec) s' → SendFree s s'
  | timedWait {s s' : Session Source} {f : FutureId} {fut : Future} : s.futures[f]? = some fut →
    fut.session = true →
    SendFree (s.setResult ⟨f, .timedWait, none, .nil, TIMEOUT_ERROR⟩).1 s' → SendFree s s'

/-- The completions made, but for those of `timed_wait`. -/
def settled (s : Session Source) : List (Completion Source) :=
  s.completions.filter fun d => d.origin ≠ .timedWait

/-- The result and the error of a future, if it has them. -/
def outcomes (s : Session Source) : List (Bool × Object × Object) := s.futures.map Future.outcome

/-! ## Completing futures -/

/-- The session `s'` has completed `cs` after `s`: these are the completions made, each of their
futures holds what its completion says, and the other futures that were ready are as they were. -/
structure Settles (s s' : Session Source) (cs : List (Completion Source)) : Prop where
  length : s'.futures.length = s.futures.length
  settled : s'.settled = s.settled ++ cs
  done : ∀ d ∈ cs, d.future < s.futures.length →
    s'.outcomes[d.future]? = some (false, d.result, d.error)
  kept : ∀ f o, f ∉ cs.map Completion.future → s.outcomes[f]? = some (false, o) →
    s'.outcomes[f]? = some (false, o)

variable {s s₁ s₂ s' : Session Source} {cs cs₁ cs₂ : List (Completion Source)}

/-- Changes of the session outside its futures and completions. -/
theorem settles_of_eq (hf : s'.outcomes = s.outcomes) (hc : s'.completions = s.completions) :
    Settles s s' [] := by
  refine ⟨?_, ?_, by simp, ?_⟩
  · simpa [outcomes] using congrArg List.length hf
  · rw [List.append_nil, Session.settled, Session.settled, hc]
  · intro f o _ ho
    rw [hf]
    exact ho

theorem Settles.trans (h₁ : Settles s s₁ cs₁) (h₂ : Settles s₁ s₂ cs₂)
    (hdisj : ∀ d ∈ cs₁, d.future ∉ cs₂.map Completion.future) : Settles s s₂ (cs₁ ++ cs₂) := by
  refine ⟨h₂.length.trans h₁.length, ?_, ?_, ?_⟩
  · rw [h₂.settled, h₁.settled, List.append_assoc]
  · intro d hd hlt
    rcases List.mem_append.1 hd with hd | hd
    · exact h₂.kept _ _ (hdisj d hd) (h₁.done d hd hlt)
    · exact h₂.done d hd (by rw [h₁.length]; exact hlt)
  · intro f o hf ho
    rw [List.map_append, List.mem_append, not_or] at hf
    exact h₂.kept f o hf.2 (h₁.kept f o hf.1 ho)

/-- One call of `set_result`. -/
theorem settles_setResult (s : Session Source) {d : Completion Source} (hd : d.origin ≠ .timedWait) :
    Settles s (s.setResult d).1 [d] := by
  have ho : (s.setResult d).1.outcomes = s.outcomes.set d.future (false, d.result, d.error) :=
    setResult_outcomes s d
  have hlen : (s.setResult d).1.futures.length = s.futures.length := by
    simpa [outcomes] using congrArg List.length ho
  refine ⟨hlen, ?_, ?_, ?_⟩
  · rw [Session.settled, setResult_frame, List.filter_append]
    simp [Session.settled, hd]
  · intro d' hd' hlt
    obtain rfl := List.mem_singleton.1 hd'
    rw [ho]
    exact List.getElem?_set_self (by simpa [outcomes] using hlt)
  · intro f o hf hfo
    have hne : d.future ≠ f := by simpa using Ne.symm (by simpa using hf)
    rw [ho, List.getElem?_set_ne hne]
    exact hfo

/-- What a callback that sends nothing leaves alone: it completes only pending futures, by waiting for
them in vain. -/
theorem SendFree.settles (h : SendFree s s') :
    Settles s s' [] ∧ s'.reqtable = s.reqtable := by
  induction h with
  | done s => exact ⟨settles_of_eq rfl rfl, rfl⟩
  | @attachCallback s s' f func _ ih =>
    have ha : Settles s (s.attachCallback f func) [] :=
      settles_of_eq (attachCallback_futures (fun _ _ => rfl) s f func)
        (by rw [attachCallback_frame])
    refine ⟨ha.trans ih.1 (by simp), ?_⟩
    rw [ih.2, attachCallback_frame]
  | @setTimeout s s' sec _ ih =>
    have hs : Settles s (s.setTimeout sec) [] := settles_of_eq rfl rfl
    exact ⟨hs.trans ih.1 (by simp), ih.2⟩
  | @timedWait s s' f fut hf hpending _ ih =>
    have ho := setResult_outcomes s ⟨f, .timedWait, none, .nil, TIMEOUT_ERROR⟩
    have hwait : Settles s (s.setResult ⟨f, .timedWait, none, .nil, TIMEOUT_ERROR⟩).1 [] := by
      refine ⟨?_, ?_, by simp, ?_⟩
      · simpa using congrArg List.length ho
      · rw [Session.settled, setResult_frame, List.filter_append]
        simp [Session.settled]
      · intro g o _ hg
        -- the future waited for was not ready
        have hne : f ≠ g := by
          rintro rfl
          simp [outcomes, hf, Future.outcome, hpending] at hg
        rw [outcomes, ho, List.getElem?_set_ne hne]
        exact hg
    refine ⟨hwait.trans ih.1 (by simp), ?_⟩
    rw [ih.2, setResult_frame]

/-! ## Responses -/

/-- The first response to an id among messages. -/
def answer (msgs : List Message) (k : MsgId) : Option (Object × Object) :=
  msgs.findSome? fun
    | .response msgid result error => if msgid = k then some (result, error) else none
    | _ => none

theorem answer_append (msgs msgs' : List Message) (k : MsgId) :
    answer (msgs ++ msgs') k = (answer msgs k).or (answer msgs' k) :=
  List.findSome?_append

/-- The session `s'` has taken the messages `msgs` after `s`, completing `cs`. -/
structure Answered (s s' : Session Source) (msgs : List Message)
    (cs : List (Completion Source)) : Prop where
  settles : Settles s s' cs
  values : s.reqtable.values = ↑(cs.map Completion.future) + s'.reqtable.values
  lookup : ∀ k, s'.reqtable.lookup k =
    if (answer msgs k).isSome then none else s.reqtable.lookup k
  results : ∀ d ∈ cs, ∃ k, s.reqtable.lookup k = some d.future ∧
    answer msgs k = some (d.result, d.error)

theorem Answered.nil (s : Session Source) : Answered s s [] [] :=
  ⟨settles_of_eq rfl rfl, by simp, fun _ => rfl, by simp⟩

theorem Answered.nodup (h : Answered s s' msgs cs) (hnodup : s.reqtable.values.Nodup) :
    s'.reqtable.values.Nodup := by
  rw [h.values, Multiset.nodup_add] at hnodup
  exact hnodup.2.1

/-- **More messages.** A future that was answered is not in the table any more, so that a later
response to its id finds nothing. -/
theorem Answered.trans (h₁ : Answered s s₁ msgs₁ cs₁) (h₂ : Answered s₁ s₂ msgs₂ cs₂)
    (hnodup : s.reqtable.values.Nodup) : Answered s s₂ (msgs₁ ++ msgs₂) (cs₁ ++ cs₂) := by
  have hv := h₁.values
  rw [h₂.values] at hv
  refine ⟨h₁.settles.trans h₂.settles ?_, ?_, ?_, ?_⟩
  · intro d hd hd'
    rw [hv, Multiset.nodup_add] at hnodup
    exact Multiset.disjoint_left.1 hnodup.2.2 (Multiset.mem_coe.2 (List.mem_map_of_mem hd))
      (Multiset.mem_add.2 (.inl (Multiset.mem_coe.2 hd')))
  · rw [hv, List.map_append, ← Multiset.coe_add, add_assoc]
  · intro k
    rw [h₂.lookup, h₁.lookup, answer_append]
    cases answer msgs₁ k with
    | none => rfl
    | some a => exact ite_self none
  · intro d hd
    rcases List.mem_append.1 hd with hd | hd
    · obtain ⟨k, hk, ha⟩ := h₁.results d hd
      exact ⟨k, hk, by rw [answer_append, ha]; rfl⟩
    · obtain ⟨k, hk, ha⟩ := h₂.results d hd
      rw [h₁.lookup] at hk
      rcases hnone : answer msgs₁ k with _ | a <;> rw [hnone] at hk
      · exact ⟨k, hk, by rw [answer_append, hnone, ha]; rfl⟩
      · cases hk

/-- The table after a response. -/
theorem onResponse_lookup (s : Session Source) (msgid : MsgId) (result error : Object) (k : MsgId) :
    (s.onResponse .response msgid result error).1.reqtable.lookup k =
      if msgid = k then none else s.reqtable.lookup k := by
  rw [onResponse, Reqtable.take]
  rcases hl : s.reqtable.lookup msgid with _ | f <;> dsimp only <;> split
  · next he => rw [← he]; exact hl
  · rfl
  · next he => rw [← he]; exact Reqtable.lookup_erase _ _
  · next hne => exact Reqtable.lookup_erase_ne (Ne.symm hne)

/-- One response, once the future that it takes out of the table has been completed. -/
theorem answered_onResponse {msgid : MsgId} {result error : Object}
    (hset : Settles s s' (s.onResponse .response msgid result error).2)
    (htab : s'.reqtable = (s.onResponse .response msgid result error).1.reqtable) :
    Answered s s' [.response msgid result error] (s.onResponse .response msgid result error).2 := by
  refine ⟨hset, ?_, fun k => ?_, fun d hd => ?_⟩
  · rw [htab]
    exact (hands_onResponse s .response msgid result error).values
  · rw [htab, onResponse_lookup]
    by_cases hk : msgid = k <;> simp [answer, hk]
  · obtain ⟨⟨-, hr, he⟩, hl⟩ := onResponse_origin hd
    exact ⟨msgid, hl, by simp [answer, hr, he]⟩

/-! ## A failure after responses -/

/-- What a request ends with when the connection fails after the messages `msgs`: the first response
to it, or else `CONNECT_ERROR`. -/
def verdict (msgs : List Message) (k : MsgId) : Object × Object :=
  (answer msgs k).getD (.nil, CONNECT_ERROR)

/-- The session `s'`, that has taken the messages `msgs` after `s` and failed: the table is empty,
and every future that was in it has been completed exactly once, and holds its verdict. -/
structure Disposed (s s' : Session Source) (msgs : List Message) : Prop where
  reqtable : s'.reqtable = ∅
  settled : ∃ new, s'.settled = s.settled ++ new ∧
    ∀ k f, s.reqtable.lookup k = some f →
      (new.filter fun d => d.future = f).map (fun d => (d.result, d.error)) = [verdict msgs k]
  holds : ∀ k f, s.reqtable.lookup k = some f →
    s'.outcomes[f]? = some (false, (verdict msgs k).1, (verdict msgs k).2)

/-- A list with one element of a future, of which all that matters is known. -/
theorem filter_map_eq_singleton {cs : List (Completion Source)} {f : FutureId}
    {v : Object × Object} (hnodup : (cs.map Completion.future).Nodup)
    (hf : f ∈ cs.map Completion.future)
    (hv : ∀ d ∈ cs, d.future = f → (d.result, d.error) = v) :
    (cs.filter fun d => d.future = f).map (fun d => (d.result, d.error)) = [v] := by
  have hlen : (cs.filter fun d => d.future = f).length = 1 := by
    have hcount := List.count_eq_one_of_mem hnodup hf
    rw [List.count_eq_countP, List.countP_map, List.countP_eq_length_filter] at hcount
    exact hcount
  obtain ⟨d, hd⟩ := List.length_eq_one_iff.1 hlen
  have hmem : d ∈ cs.filter fun d => d.future = f := by rw [hd]; exact .head _
  obtain ⟨hmem, hfut⟩ := List.mem_filter.1 hmem
  rw [hd, List.map_singleton, hv d hmem (by simpa using hfut)]

/-- A future that was answered got the first response with its id. -/
theorem Answered.verdict_of_answered {msgs : List Message} {pending : Multiset (Completion Source)}
    (h : Answered s s' msgs cs) (hcons : Conserved s pending) {k : MsgId} {d : Completion Source}
    (hk : s.reqtable.lookup k = some d.future) (hd : d ∈ cs) :
    (d.result, d.error) = verdict msgs k := by
  obtain ⟨k', hk', ha⟩ := h.results d hd
  obtain rfl := hcons.key_unique hk hk'
  rw [verdict, ha]
  rfl

/-- A future that is left in the table got none. -/
theorem Answered.verdict_of_left {msgs : List Message} {pending : Multiset (Completion Source)}
    (h : Answered s s' msgs cs) (hcons : Conserved s pending) {k : MsgId} {f : FutureId}
    (hk : s.reqtable.lookup k = some f) (hf : f ∈ s'.reqtable.values) :
    verdict msgs k = (.nil, CONNECT_ERROR) := by
  obtain ⟨k', hk'⟩ := Reqtable.mem_values.1 hf
  rw [h.lookup] at hk'
  rcases hnone : answer msgs k' with _ | a <;> rw [hnone] at hk'
  · obtain rfl := hcons.key_unique hk hk'
    rw [verdict, hnone]
    rfl
  · cases hk'

/-- **The connection fails.** What was answered before stays answered, and the rest of the table is
completed with `CONNECT_ERROR`. -/
theorem Answered.disposed {msgs : List Message} {pending : Multiset (Completion Source)}
    (h : Answered s s₁ msgs cs) (hcons : Conserved s pending) {it : List Reqtable.Entry}
    (hit : it.Perm s₁.reqtable.entries) (hset : Settles s₁ s' (s₁.onSystemError .systemError it).2)
    (htab : s'.reqtable = (s₁.onSystemError .systemError it).1.reqtable) :
    Disposed s s' msgs := by
  have hnodup := hcons.nodup_values
  obtain ⟨hands, hempty⟩ := hands_sweep s₁ .systemError CONNECT_ERROR hit
  have horigin : ∀ d ∈ (s₁.sweep .systemError CONNECT_ERROR it).2,
      d.origin = .systemError ∧ d.result = .nil ∧ d.error = CONNECT_ERROR := fun d => hand_origin
  rw [onSystemError] at hset htab
  -- all completions together are those of the futures in the table, each once
  set cs' := (s₁.sweep .systemError CONNECT_ERROR it).2
  have hall : s.reqtable.values = ↑((cs ++ cs').map Completion.future) := by
    rw [h.values, hands.values, hempty, Reqtable.values_empty, add_zero, List.map_append,
      Multiset.coe_add]
  have hnew : ((cs ++ cs').map Completion.future).Nodup := by
    rw [hall, Multiset.coe_nodup] at hnodup
    exact hnodup
  have hsettles : Settles s s' (cs ++ cs') := by
    refine h.settles.trans hset ?_
    intro d hd hd'
    rw [List.map_append, List.nodup_append'] at hnew
    exact hnew.2.2 (List.mem_map_of_mem hd) hd'
  have hverdict : ∀ k f, s.reqtable.lookup k = some f → ∀ d ∈ cs ++ cs', d.future = f →
      (d.result, d.error) = verdict msgs k := by
    intro k f hk d hd hf
    rcases List.mem_append.1 hd with hd | hd
    · exact h.verdict_of_answered hcons (hf ▸ hk) hd
    · obtain ⟨-, hr, he⟩ := horigin d hd
      rw [h.verdict_of_left hcons hk (hf ▸ hands.mem_values hd), hr, he]
  have hmem : ∀ k f, s.reqtable.lookup k = some f → f ∈ (cs ++ cs').map Completion.future := by
    intro k f hk
    rw [← Multiset.mem_coe, ← hall]
    exact Reqtable.mem_values.2 ⟨k, hk⟩
  refine ⟨htab.trans hempty, ⟨cs ++ cs', hsettles.settled, ?_⟩, ?_⟩
  · intro k f hk
    exact filter_map_eq_singleton hnew (hmem k f hk) (hverdict k f hk)
  · intro k f hk
    obtain ⟨d, hd, hf⟩ := List.mem_map.1 (hmem k f hk)
    have hlt : f < s.futures.length := hcons.lt_length (Reqtable.mem_values.2 ⟨k, hk⟩)
    have hdone := hsettles.done d hd (hf ▸ hlt)
    rw [← hverdict k f hk d hd hf, ← hf]
    exact hdone

end Session

end MsgpackRpc
