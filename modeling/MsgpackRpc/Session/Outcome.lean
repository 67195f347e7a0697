import MsgpackRpc.Session.WriteOnce

/-!
# What `get` tells

A future carries no mark of how it was completed: a local timeout and a failure of the connection
store one of two static objects in the field that a response fills with the error of the peer.
`throw_exception` knows them by the address of their text, which no object decoded from a response has
(`Object.Decoded`), so a peer cannot forge them by sending the same bytes.

`Caused` says where a completion comes from: a response that was delivered under the id of the future,
or one of the two local errors. It holds of all completions of every run, and `get_tells_cause` reads
the outcome of `get` off it.
-/

namespace MsgpackRpc

open Threads

/-- The bytes of an object that was decoded are not in one of the two static strings. -/
def Object.Decoded (o : Object) : Prop := ∀ ptr data, o = .bin ptr data → ptr = .zone

/-- What the `remote_error` that `get` throws exposes (`exception.h:74`): the error and the result of
the future, which it keeps. -/
def Future.exposed (f : Future) : Option (Object × Object) :=
  match f.get with
  | .error (.remoteError _) => some (f.error, f.result)
  | _ => none

/-- What `get` on a future tells of the response that completed it. -/
structure Future.Tells (f : Future) (result error : Object) : Prop where
  returns : f.get = .ok result ↔ error = .nil
  noMethod : f.get = .error .noMethodError ↔ error = .integer NO_METHOD_ERROR
  argument : f.get = .error .argumentError ↔ error = .integer ARGUMENT_ERROR
  remote : f.exposed = some (error, result) ↔
    error ≠ .nil ∧ error ≠ .integer NO_METHOD_ERROR ∧ error ≠ .integer ARGUMENT_ERROR

/-! ## Errors and exceptions -/

section
variable {f : Future} {err : Object}

theorem get_nil (h : f.error = .nil) : f.get = .ok f.result := by
  rw [Future.get, if_neg (not_not.2 h)]

theorem get_error (h : f.error ≠ .nil) : f.get = .error (throwException f.error) := by
  rw [Future.get, if_pos h]

/-- What `throw_exception` makes of an error that was decoded. -/
theorem throwException_decoded (h : err.Decoded) :
    (err = .integer NO_METHOD_ERROR ∧ throwException err = .noMethodError) ∨
    (err = .integer ARGUMENT_ERROR ∧ throwException err = .argumentError) ∨
    (err ≠ .integer NO_METHOD_ERROR ∧ err ≠ .integer ARGUMENT_ERROR ∧
      throwException err = .remoteError err) := by
  cases err with
  | bin ptr data =>
    obtain rfl := h ptr data rfl
    exact .inr (.inr ⟨Object.noConfusion, Object.noConfusion, rfl⟩)
  | integer n =>
    rw [throwException]
    by_cases h1 : n = NO_METHOD_ERROR
    · exact .inl ⟨congrArg _ h1, if_pos h1⟩
    · by_cases h2 : n = ARGUMENT_ERROR
      · exact .inr (.inl ⟨congrArg _ h2, by rw [if_neg h1, if_pos h2]⟩)
      · refine .inr (.inr ⟨?_, ?_, by rw [if_neg h1, if_neg h2]⟩)
        · exact fun he => h1 (Object.integer.inj he)
        · exact fun he => h2 (Object.integer.inj he)
  | _ => exact .inr (.inr ⟨Object.noConfusion, Object.noConfusion, rfl⟩)

/-- **`get` on a future that a response completed.** -/
theorem tells_of_decoded (h : f.error.Decoded) :
    f.Tells f.result f.error ∧ f.get ≠ .error .timeoutError ∧ f.get ≠ .error .connectError := by
  have hne : NO_METHOD_ERROR ≠ ARGUMENT_ERROR := by decide
  by_cases hnil : f.error = .nil
  · have hget := get_nil hnil
    rw [hnil]
    refine ⟨⟨?_, ?_, ?_, ?_⟩, ?_, ?_⟩ <;> simp [hget, Future.exposed]
  · have hget := get_error hnil
    rcases throwException_decoded h with ⟨he, ht⟩ | ⟨he, ht⟩ | ⟨h1, h2, ht⟩
    · rw [ht] at hget
      rw [he]
      refine ⟨⟨?_, ?_, ?_, ?_⟩, ?_, ?_⟩ <;> simp [hget, Future.exposed, hne]
    · rw [ht] at hget
      rw [he]
      refine ⟨⟨?_, ?_, ?_, ?_⟩, ?_, ?_⟩ <;> simp [hget, Future.exposed, hne.symm]
    · rw [ht] at hget
      refine ⟨⟨?_, ?_, ?_, ?_⟩, ?_, ?_⟩ <;> simp [hget, Future.exposed, hnil, h1, h2]

theorem get_timeout (h : f.error = TIMEOUT_ERROR) : f.get = .error .timeoutError := by
  rw [get_error (h ▸ Object.noConfusion), h]
  rfl

theorem get_connect (h : f.error = CONNECT_ERROR) : f.get = .error .connectError := by
  rw [get_error (h ▸ Object.noConfusion), h]
  rfl

end

namespace Session

/-! ## Causes -/

/-- The cause of a completion, where `tr` are the operations executed so far. -/
def Caused (tr : List Op) (s : Session Source) (d : Completion Source) : Prop :=
  match d.origin with
  | .response => ∃ msgid, (s.futures.map Future.msgid)[d.future]? = some msgid ∧
      Op.onResponse msgid d.result d.error ∈ tr
  | .stepTimer | .timedWait => d.error = TIMEOUT_ERROR
  | .connectFailed | .systemError => d.error = CONNECT_ERROR

/-- The invariant of all runs. -/
structure Causes (tr : List Op) (s : Session Source) (ops : Multiset Op) : Prop where
  conserved : Conserved s (completionsOf ops)
  recorded : Recorded s
  valid : ∀ d ∈ s.setResults ops, d.future < s.futures.length
  waits : ∀ f, Op.timedWaitExpired f ∈ ops → f < s.futures.length
  caused : ∀ d ∈ s.setResults ops, Caused tr s d

section
variable {s s' : Session Source} {op : Op} {k tr : List Op} {rest ops : Multiset Op} {x : Choice}
  {d : Completion Source}

/-- A cause stays one. -/
theorem Caused.steps (h : Caused tr s d) (hs : Steps s op s' k) : Caused (tr ++ [op]) s' d := by
  unfold Caused at h ⊢
  cases ho : d.origin with
  | response =>
    rw [ho] at h
    obtain ⟨msgid, hid, hop⟩ := h
    exact ⟨msgid, msgid_steps hs hid, List.mem_append_left _ hop⟩
  | stepTimer | timedWait | connectFailed | systemError =>
    rw [ho] at h
    exact h

/-- A completion is one that was there before, or one that the step leads to. -/
theorem mem_setResults (hs : Steps s op s' k) (hd : d ∈ s'.setResults (↑k + rest)) :
    d ∈ s.setResults (op ::ₘ rest) ∨ Op.setResult d ∈ k := by
  rcases Multiset.mem_add.1 hd with hd | hd
  · refine .inl ?_
    rcases completions_steps hs with he | ⟨d', rfl, -, he⟩
    · exact Multiset.mem_add.2 (.inl (he ▸ hd))
    · rw [he] at hd
      rcases List.mem_append.1 (Multiset.mem_coe.1 hd) with hd | hd
      · exact Multiset.mem_add.2 (.inl (Multiset.mem_coe.2 hd))
      · rw [List.mem_singleton.1 hd]
        exact Multiset.mem_add.2 (.inr (completionsOf_mem (Multiset.mem_cons_self _ _)))
  · rcases Multiset.mem_add.1 (mem_completionsOf hd) with hd | hd
    · exact .inr (Multiset.mem_coe.1 hd)
    · exact .inl (Multiset.mem_add.2 (.inr (completionsOf_mem (Multiset.mem_cons_of_mem hd))))

/-- Completions with one of the local errors. -/
theorem caused_of_hand {origin : Source} {err : Object} {fs : List FutureId}
    (hlocal : (origin = .stepTimer ∧ err = TIMEOUT_ERROR) ∨
      ((origin = .connectFailed ∨ origin = .systemError) ∧ err = CONNECT_ERROR))
    (hd : d ∈ s.hand origin .nil err fs) : Caused tr s' d := by
  obtain ⟨ho, -, he⟩ := hand_origin hd
  unfold Caused
  rw [ho, he]
  rcases hlocal with ⟨rfl, rfl⟩ | ⟨rfl | rfl, rfl⟩ <;> rfl

/-- **The completions that a step leads to are caused by it.** -/
theorem caused_of_exec (h : Causes tr s (op ::ₘ rest)) (hx : machine.exec s op x = some (s', k))
    (hd : Op.setResult d ∈ k) : d.future < s.futures.length ∧ Caused (tr ++ [op]) s' d := by
  have hs := exec_steps hx
  have hnow : op ∈ tr ++ [op] := List.mem_append_right _ (.head _)
  have hcons := h.conserved
  have entries {calls : List Op} (hcalls : ∀ o ∈ calls, o.entry = true) (hmem : .setResult d ∈ calls) :
      False := by cases hcalls _ hmem
  -- the completions of a walk through the table
  have walk {f : List Reqtable.Entry → Session Source × List (Completion Source)}
      (hw : s.walk x f = some (s', k))
      (hands : x.it.Perm s.reqtable.entries → Hands s (f x.it).1 (f x.it).2)
      (hcause : ∀ c ∈ (f x.it).2, Caused (tr ++ [op]) s' c) :
      d.future < s.futures.length ∧ Caused (tr ++ [op]) s' d := by
    unfold Session.walk at hw
    split at hw
    · next hp =>
      cases hw
      obtain ⟨c, hc, he⟩ := List.mem_map.1 hd
      cases he
      exact ⟨hcons.lt_length ((hands hp).mem_values hc), hcause _ hc⟩
    · cases hw
  cases op with
  | onResponse msgid result error =>
    cases hx
    obtain ⟨c, hc, he⟩ := List.mem_map.1 hd
    cases he
    obtain ⟨⟨ho, hr, he⟩, hl⟩ := onResponse_origin hc
    have hid := hcons.keys _ _ hl
    refine ⟨by simpa using (List.getElem?_eq_some_iff.1 hid).1, ?_⟩
    unfold Caused
    rw [ho, hr, he]
    exact ⟨msgid, msgid_steps hs hid, hnow⟩
  | stepTimerHandler =>
    exact walk hx (hands_stepTimerHandler s _) fun c => caused_of_hand (.inl ⟨rfl, rfl⟩)
  | onConnectFailed =>
    exact walk hx (fun hp => (hands_sweep s _ _ hp).1) fun c =>
      caused_of_hand (.inr ⟨.inl rfl, rfl⟩)
  | onSystemError =>
    exact walk hx (fun hp => (hands_sweep s _ _ hp).1) fun c =>
      caused_of_hand (.inr ⟨.inr rfl, rfl⟩)
  | timedWaitExpired f =>
    cases hx
    obtain he := List.mem_singleton.1 hd
    cases he
    exact ⟨h.waits f (Multiset.mem_cons_self _ _), rfl⟩
  | setResult c =>
    obtain ⟨calls, hc, he⟩ := Option.map_eq_some_iff.1 hx
    cases he
    exact (entries (callbackCalls_entry hc) hd).elim
  | runPosted =>
    obtain ⟨calls, hc, he⟩ := Option.map_eq_some_iff.1 hx
    cases he
    exact (entries (callbackCalls_entry hc) hd).elim
  | timedWait f =>
    obtain ⟨fut, -, he⟩ := Option.map_eq_some_iff.1 hx
    cases he
    split at hd
    · cases List.mem_singleton.1 hd
    · cases hd
  | sendRequest method params =>
    cases hx
    cases List.mem_singleton.1 hd
  | sendRequestImpl c =>
    obtain ⟨call, -, he⟩ := Option.map_eq_some_iff.1 hx
    cases he
    cases hd
  | attachCallback f func =>
    cases hx
    cases hd
  | setTimeout sec =>
    cases hx
    cases hd

/-- A wait that is running out is on a future that was constructed. -/
theorem waits_steps (hs : Steps s op s' k) {f : FutureId} (hf : Op.timedWaitExpired f ∈ k) :
    f < s.futures.length := by
  cases hs with
  | timedWait hfut _ =>
    cases List.mem_singleton.1 hf
    exact (List.getElem?_eq_some_iff.1 hfut).1
  | take _ _ _ _ _ =>
    obtain ⟨c, -, he⟩ := List.mem_map.1 hf
    cases he
  | setResult c hcalls => cases hcalls _ hf
  | runPosted hcalls => cases hcalls _ hf
  | sendRequest => cases List.mem_singleton.1 hf
  | timedWaitExpired => cases List.mem_singleton.1 hf
  | sendRequestImpl | timedWaitReady | attachCallback | setTimeout => cases hf

/-- **One step.** -/
theorem causes_exec (h : Causes tr s (op ::ₘ rest)) (hx : machine.exec s op x = some (s', k)) :
    Causes (tr ++ [op]) s' (↑k + rest) := by
  have hs := exec_steps hx
  have hlen := length_mono hs
  refine ⟨conserved_exec h.conserved hx, ?_, ?_, ?_, ?_⟩
  · refine recorded_steps h.recorded hs fun c hop => h.valid c ?_
    rw [hop]
    exact Multiset.mem_add.2 (.inr (completionsOf_mem (Multiset.mem_cons_self _ _)))
  · intro d hd
    rcases mem_setResults hs hd with hd | hd
    · exact Nat.lt_of_lt_of_le (h.valid d hd) hlen
    · exact Nat.lt_of_lt_of_le (caused_of_exec h hx hd).1 hlen
  · intro f hf
    rcases Multiset.mem_add.1 hf with hf | hf
    · exact Nat.lt_of_lt_of_le (waits_steps hs (Multiset.mem_coe.1 hf)) hlen
    · exact Nat.lt_of_lt_of_le (h.waits f (Multiset.mem_cons_of_mem hf)) hlen
  · intro d hd
    rcases mem_setResults hs hd with hd | hd
    · exact (h.caused d hd).steps hs
    · exact (caused_of_exec h hx hd).2

end

/-- **Every completion of a run has its cause.** -/
theorem causes_run {ls : List (Label Op Choice)} {c : Config (Session Source) Op}
    (hrun : machine.run init ls = some c) :
    Causes (machine.executed init ls) c.shared c.pending := by
  have h0 := writeOnce_init
  have hinit : Causes [] init.shared init.pending :=
    ⟨h0.conserved, h0.recorded, h0.agree.valid, h0.waits, fun d hd => by cases hd⟩
  refine machine.invariant_executed (t := []) Causes ?_
    (fun _ _ _ _ _ _ _ h _ => causes_exec h) hinit (System.meets_true init ls) hrun
  intro tr s ops op h hop
  have hset : s.setResults (op ::ₘ ops) = s.setResults ops := by
    rw [setResults, (of_entry op hop ops).1, setResults]
  refine ⟨h.conserved.entry hop, h.recorded, hset ▸ h.valid, ?_, hset ▸ h.caused⟩
  intro f hf
  rcases Multiset.mem_cons.1 hf with rfl | hf
  · cases hop
  · exact h.waits f hf

/-! ## The outcome -/

/-- **`get` tells the true cause.** Take a run in which each future was completed once and the errors
of the responses delivered are objects that were decoded. `get` on a ready future throws
`timeout_error` exactly when a tick or a wait completed it and `connect_error` exactly when a failure
of the connection did; when a response under its id completed it, `get` tells that response. -/
theorem get_tells_cause {ls : List (Label Op Choice)} {c : Config (Session Source) Op}
    (hrun : machine.run init ls = some c)
    (hdecoded : ∀ msgid result error, .onResponse msgid result error ∈ machine.executed init ls →
      error.Decoded)
    (honce : (c.shared.completions.map Completion.future).Nodup) {f : FutureId} {fut : Future}
    (hf : c.shared.futures[f]? = some fut) (hready : fut.isReady = true) :
    ∃ d, (∀ d', d' ∈ c.shared.completions ∧ d'.future = f ↔ d' = d) ∧
      (fut.get = .error .timeoutError ↔ d.origin = .stepTimer ∨ d.origin = .timedWait) ∧
      (fut.get = .error .connectError ↔ d.origin = .connectFailed ∨ d.origin = .systemError) ∧
      (d.origin = .response → ∃ result error,
        .onResponse fut.msgid result error ∈ machine.executed init ls ∧
          fut.Tells result error) := by
  have h := causes_run hrun
  have hsession : fut.session = false := by simpa [Future.isReady] using hready
  obtain ⟨d, hd, rfl, hr, he⟩ := h.recorded.stored f fut.result fut.error (by
    rw [List.getElem?_map, hf]
    simp [Future.outcome, hsession])
  have hcause := h.caused d (Multiset.mem_add.2 (.inl (Multiset.mem_coe.2 hd)))
  refine ⟨d, ?_, ?_⟩
  · intro d'
    constructor
    · rintro ⟨hd', hfut⟩
      exact List.inj_on_of_nodup_map honce hd' hd hfut
    · rintro rfl
      exact ⟨hd, rfl⟩
  · have htimeout (h : fut.error = TIMEOUT_ERROR) := get_timeout h
    have hconnect (h : fut.error = CONNECT_ERROR) := get_connect h
    unfold Caused at hcause
    cases ho : d.origin with
    | response =>
      rw [ho] at hcause
      obtain ⟨msgid, hid, hop⟩ := hcause
      obtain ⟨htells, h1, h2⟩ := tells_of_decoded (f := fut) (he ▸ hdecoded _ _ _ hop)
      have hmsgid : fut.msgid = msgid := by
        rw [List.getElem?_map, hf] at hid
        exact Option.some.inj hid
      refine ⟨iff_of_false h1 (by simp), iff_of_false h2 (by simp), fun _ => ?_⟩
      rw [hr, he, ← hmsgid] at hop
      exact ⟨_, _, hop, htells⟩
    | stepTimer | timedWait =>
      rw [ho] at hcause
      have hget := htimeout (he.symm.trans hcause)
      simp [hget]
    | connectFailed | systemError =>
      rw [ho] at hcause
      have hget := hconnect (he.symm.trans hcause)
      simp [hget]

/-- The peer answers a request with an error. -/
def answered (error : Object) : List (Label Op Choice) :=
  [.spawn (.sendRequest (.str [0x66]) .nil), .exec 0 {}, .exec 0 {},
    .spawn (.onResponse 1 .nil error), .exec 1 {}, .exec 1 {}]

theorem run_answered (error : Object) : ∃ c, machine.run init (answered error) = some c ∧
    c.shared.completions = [⟨0, .response, some 1, .nil, error⟩] ∧
    c.shared.futures = [{ msgid := 1, call := 0, timeout := 30, session := false, error }] :=
  ⟨_, rfl, rfl, rfl⟩

theorem executed_answered (error : Object) : machine.executed init (answered error) =
    [.sendRequest (.str [0x66]) .nil, .sendRequestImpl 0, .onResponse 1 .nil error,
      .setResult ⟨0, .response, some 1, .nil, error⟩] := rfl

/-- The error is a binary with the bytes of the local timeout, and `get` does not throw
`timeout_error`. -/
theorem get_tells_cause_forged :
    ∃ c fut, machine.run init (answered (.bin .zone "request timed out".toUTF8.toList)) = some c ∧
      c.shared.futures[0]? = some fut ∧ fut.get ≠ .error .timeoutError ∧
      fut.exposed = some (.bin .zone "request timed out".toUTF8.toList, .nil) := by
  have hdecoded : ∀ msgid result error, .onResponse msgid result error ∈
      machine.executed init (answered (.bin .zone "request timed out".toUTF8.toList)) →
      error.Decoded := by
    intro msgid result error hop ptr data he
    rw [executed_answered] at hop
    simp only [List.mem_cons, reduceCtorEq, Op.onResponse.injEq, List.not_mem_nil, or_false,
      false_or] at hop
    rw [hop.2.2] at he
    exact (Object.bin.inj he).1.symm
  obtain ⟨c, hrun, hcomps, hfuts⟩ := run_answered (.bin .zone "request timed out".toUTF8.toList)
  have hf := congrArg (fun fs => fs[0]?) hfuts
  obtain ⟨d, hd, h1, -, h3⟩ := get_tells_cause hrun hdecoded (by simp [hcomps]) hf rfl
  obtain rfl := (hd _).1 ⟨by rw [hcomps]; exact List.mem_singleton_self _, rfl⟩
  obtain ⟨result, error, hop, htells⟩ := h3 rfl
  rw [executed_answered] at hop
  simp only [List.mem_cons, reduceCtorEq, Op.onResponse.injEq, List.not_mem_nil, or_false,
    false_or] at hop
  obtain ⟨-, rfl, rfl⟩ := hop
  refine ⟨c, _, hrun, hf, fun hget => ?_, ?_⟩
  · exact absurd (h1.1 hget) (by simp)
  · exact htells.remote.2 ⟨Object.noConfusion, Object.noConfusion, Object.noConfusion⟩

end Session

end MsgpackRpc
