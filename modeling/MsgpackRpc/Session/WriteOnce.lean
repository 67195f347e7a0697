import MsgpackRpc.Session.Machine

/-!
# The result of a future

The session completes a future only after taking it out of the table, and so at most once. The
timeout of `future_impl::timed_wait` does not go through the table: it completes a future that may
still be in it, or that has been taken out of it and is about to be completed. The later of two
completions overwrites the earlier one, also when the future has been ready for long
(`timedWait_overwritten`).

`future_write_once` is the condition under which a ready future never changes: no wait runs out on a
future that a response or a failure has taken, and no response or failure takes a future on which a
wait has run out. A tick of the step timer does no harm, since it stores the same error.
-/

namespace MsgpackRpc

open Threads

namespace Session

/-- The calls of `set_result` that have been made or are pending. -/
def setResults (s : Session Source) (ops : Multiset Op) : Multiset (Completion Source) :=
  ↑s.completions + completionsOf ops

/-- A `timed_wait` on the future has run out. -/
def WaitExpired (s : Session Source) (ops : Multiset Op) (f : FutureId) : Prop :=
  ∃ c ∈ s.setResults ops, c.future = f ∧ c.origin = .timedWait

instance (s : Session Source) (ops : Multiset Op) (f : FutureId) :
    Decidable (s.WaitExpired ops f) :=
  Multiset.decidableExistsMultiset

/-- The future on which a wait runs out. -/
def Op.expires : Op → Option FutureId
  | .timedWaitExpired f => some f
  | _ => none

/-- No response or failure takes a future on which a wait has run out, and no wait runs out on a
future that a response or a failure has taken. -/
def Undisputed (s : Session Source) (ops : Multiset Op) (op : Op) (_ : Choice) : Prop :=
  (∀ f ∈ op.takes s, ¬ s.WaitExpired ops f) ∧
    ∀ f ∈ op.expires, ∀ c ∈ s.handed, c.future = f → c.origin = .stepTimer

instance (s : Session Source) (ops : Multiset Op) (op : Op) (x : Choice) :
    Decidable (Undisputed s ops op x) :=
  inferInstanceAs (Decidable (_ ∧ _))

/-! ## Completions agree -/

/-- All completions of a future store the same result and error. Those of `timed_wait` are the ones
that were not handed out. -/
structure Agree (cs : Multiset (Completion Source)) (n : Nat) : Prop where
  agree : ∀ c ∈ cs, ∀ d ∈ cs, c.future = d.future → c.result = d.result ∧ c.error = d.error
  origin : ∀ c ∈ cs, c.origin = .timedWait ↔ c.extracted = none
  timeout : ∀ c ∈ cs, c.origin = .timedWait ∨ c.origin = .stepTimer →
    c.result = .nil ∧ c.error = TIMEOUT_ERROR
  valid : ∀ c ∈ cs, c.future < n

/-- New completions that agree with one another and with the old ones. -/
theorem Agree.add {cs : Multiset (Completion Source)} {n : Nat} (h : Agree cs n)
    {new : List (Completion Source)} (result error : Object)
    (hnew : ∀ c ∈ new, c.result = result ∧ c.error = error)
    (hold : ∀ c ∈ new, ∀ d ∈ cs, d.future = c.future → d.result = result ∧ d.error = error)
    (horigin : ∀ c ∈ new, c.origin = .timedWait ↔ c.extracted = none)
    (htimeout : ∀ c ∈ new, c.origin = .timedWait ∨ c.origin = .stepTimer →
      c.result = .nil ∧ c.error = TIMEOUT_ERROR)
    (hvalid : ∀ c ∈ new, c.future < n) : Agree (↑new + cs) n := by
  have hmem {c : Completion Source} (hc : c ∈ ↑new + cs) : c ∈ new ∨ c ∈ cs := by
    simpa using hc
  refine ⟨?_, fun c hc => (hmem hc).elim (horigin c) (h.origin c),
    fun c hc => (hmem hc).elim (htimeout c) (h.timeout c),
    fun c hc => (hmem hc).elim (hvalid c) (h.valid c)⟩
  intro c hc d hd heq
  rcases hmem hc with hc | hc <;> rcases hmem hd with hd | hd
  · rw [(hnew c hc).1, (hnew c hc).2, (hnew d hd).1, (hnew d hd).2]
    exact ⟨rfl, rfl⟩
  · obtain ⟨h1, h2⟩ := hold c hc d hd heq.symm
    rw [(hnew c hc).1, (hnew c hc).2, h1, h2]
    exact ⟨rfl, rfl⟩
  · obtain ⟨h1, h2⟩ := hold d hd c hc heq
    rw [(hnew d hd).1, (hnew d hd).2, h1, h2]
    exact ⟨rfl, rfl⟩
  · exact h.agree c hc d hd heq

/-! ## Futures store what completions say -/

/-- The ready futures are those that have been completed, each stores what one of its completions
says, and the callbacks have seen what some completion says. -/
structure Recorded (s : Session Source) : Prop where
  stored : ∀ f r e, (s.futures.map Future.outcome)[f]? = some (false, r, e) →
    ∃ c ∈ s.completions, c.future = f ∧ c.result = r ∧ c.error = e
  ready : ∀ c ∈ s.completions, ∃ r e, (s.futures.map Future.outcome)[c.future]? = some (false, r, e)
  ran : ∀ run ∈ s.ran, ∃ c ∈ s.completions, c.future = run.future ∧ c.result = run.result ∧
    c.error = run.error
  posted : ∀ p ∈ s.posted, ∃ r e, (s.futures.map Future.outcome)[p.2]? = some (false, r, e)

/-- `Recorded` reads only the outcomes of the futures and the records. -/
theorem Recorded.congr {s s' : Session Source} (h : Recorded s)
    (hf : s'.futures.map Future.outcome = s.futures.map Future.outcome)
    (hc : s'.completions = s.completions)
    (hr : s'.ran = s.ran) (hp : s'.posted = s.posted) : Recorded s' :=
  ⟨by rw [hf, hc]; exact h.stored, by rw [hf, hc]; exact h.ready, by rw [hc, hr]; exact h.ran,
    by rw [hf, hp]; exact h.posted⟩

theorem Recorded.sendRequestImpl {s : Session Source} (h : Recorded s) (c : Nat) (call : Call) :
    Recorded (s.sendRequestImpl c call) := by
  have hget {f : Nat} {o : Bool × Object × Object} (ho : (s.futures.map Future.outcome)[f]? = some o) :
      ((s.sendRequestImpl c call).futures.map Future.outcome)[f]? = some o := by
    simp only [Session.sendRequestImpl, List.map_append]
    rw [List.getElem?_append_left (List.getElem?_eq_some_iff.1 ho).1]
    exact ho
  refine ⟨?_, ?_, h.ran, ?_⟩
  · intro f r e hf
    simp only [Session.sendRequestImpl, List.map_append, List.getElem?_append] at hf
    split at hf
    · exact h.stored f r e hf
    · have hmem := List.mem_of_getElem? hf
      simp [Future.outcome] at hmem
  · intro d hd
    obtain ⟨r, e, hf⟩ := h.ready d hd
    exact ⟨r, e, hget hf⟩
  · intro p hp
    obtain ⟨r, e, hf⟩ := h.posted p hp
    exact ⟨r, e, hget hf⟩

/-- The callback that a completion runs sees what the completion says. -/
theorem setResult_ran {s : Session Source} {c : Completion Source} {run : CallbackRun}
    (h : run ∈ (s.setResult c).1.ran) :
    run ∈ s.ran ∨ run.future = c.future ∧ run.result = c.result ∧ run.error = c.error := by
  unfold Session.setResult at h
  dsimp only at h
  split at h
  · exact .inl h
  · refine (List.mem_append.1 h).imp_right ?_
    intro hrun
    obtain ⟨func, -, rfl⟩ := List.mem_map.1 hrun
    exact ⟨rfl, rfl, rfl⟩

theorem Recorded.setResult {s : Session Source} (h : Recorded s) {c : Completion Source}
    (hc : c.future < s.futures.length) : Recorded (s.setResult c).1 := by
  have hcs : (s.setResult c).1.completions = s.completions ++ [c] := by rw [setResult_frame]
  have hlt : c.future < (s.futures.map Future.outcome).length := by simpa using hc
  have hready {f : Nat} (hf : ∃ r e, (s.futures.map Future.outcome)[f]? = some (false, r, e)) :
      ∃ r e, ((s.setResult c).1.futures.map Future.outcome)[f]? = some (false, r, e) := by
    rw [setResult_outcomes, List.getElem?_set]
    split
    · exact ⟨c.result, c.error, by simp_all⟩
    · exact hf
  refine ⟨?_, ?_, ?_, ?_⟩
  · intro f r e hf
    rw [hcs]
    rw [setResult_outcomes, List.getElem?_set] at hf
    split at hf
    · next heq =>
      cases hf
      exact ⟨c, by simp, heq, rfl, rfl⟩
    · obtain ⟨d, hd, hd'⟩ := h.stored f r e hf
      exact ⟨d, List.mem_append_left _ hd, hd'⟩
  · intro d hd
    rw [hcs] at hd
    rcases List.mem_append.1 hd with hd | hd
    · exact hready (h.ready d hd)
    · rw [List.mem_singleton.1 hd, setResult_outcomes]
      exact ⟨c.result, c.error, List.getElem?_set_self hlt⟩
  · intro run hrun
    rw [hcs]
    rcases setResult_ran hrun with hrun | ⟨h1, h2, h3⟩
    · obtain ⟨d, hd, hd'⟩ := h.ran run hrun
      exact ⟨d, List.mem_append_left _ hd, hd'⟩
    · exact ⟨c, by simp, h1.symm, h2.symm, h3.symm⟩
  · intro p hp
    rw [setResult_frame] at hp
    exact hready (h.posted p hp)

theorem Recorded.attachCallback {s : Session Source} (h : Recorded s) (f : FutureId)
    (func : Callback) : Recorded (s.attachCallback f func) := by
  have hf : (s.attachCallback f func).futures.map Future.outcome = s.futures.map Future.outcome :=
    attachCallback_futures (fun _ _ => rfl) s f func
  have hc : (s.attachCallback f func).completions = s.completions := by rw [attachCallback_frame]
  have hr : (s.attachCallback f func).ran = s.ran := by rw [attachCallback_frame]
  refine ⟨by rw [hf, hc]; exact h.stored, by rw [hf, hc]; exact h.ready, by rw [hc, hr]; exact h.ran,
    ?_⟩
  intro p hp
  rw [hf]
  unfold Session.attachCallback at hp
  split at hp
  · exact h.posted p hp
  · next fut hfut =>
    rcases List.mem_append.1 hp with hp | hp
    · exact h.posted p hp
    · unfold Future.attachCallback at hp
      split at hp
      · cases hp
      · next hs =>
        obtain ⟨func', -, rfl⟩ := List.mem_map.1 hp
        refine ⟨fut.result, fut.error, ?_⟩
        rw [List.getElem?_map, hfut]
        simp [Future.outcome, hs]

theorem Recorded.runPosted {s : Session Source} (h : Recorded s) : Recorded s.runPosted := by
  unfold Session.runPosted
  rcases hp : s.posted with _ | ⟨⟨func, f⟩, posted⟩
  · exact h
  · have hposted : ∀ p ∈ posted, ∃ r e, (s.futures.map Future.outcome)[p.2]? = some (false, r, e) :=
      fun p hmem => h.posted p (by rw [hp]; exact .tail _ hmem)
    dsimp only
    rcases hf : s.futures[f]? with _ | fut
    · exact ⟨h.stored, h.ready, h.ran, hposted⟩
    · refine ⟨h.stored, h.ready, ?_, hposted⟩
      intro run hrun
      rcases List.mem_append.1 hrun with hrun | hrun
      · exact h.ran run hrun
      · obtain rfl := List.mem_singleton.1 hrun
        obtain ⟨r, e, ho⟩ := h.posted (func, f) (by rw [hp]; exact .head _)
        rw [List.getElem?_map, hf] at ho
        have ho' : fut.session = false ∧ fut.result = r ∧ fut.error = e := by
          simpa [Future.outcome] using ho
        obtain ⟨c, hc, h1, h2, h3⟩ := h.stored f r e (by
          rw [List.getElem?_map, hf]
          exact ho)
        exact ⟨c, hc, h1, h2.trans ho'.2.1.symm, h3.trans ho'.2.2.symm⟩

/-- **Every step keeps `Recorded`** if it completes no future but one that was constructed. -/
theorem recorded_steps {s s' : Session Source} {op : Op} {k : List Op} (h : Recorded s)
    (hs : Steps s op s' k) (hvalid : ∀ c, op = .setResult c → c.future < s.futures.length) :
    Recorded s' := by
  cases hs with
  | sendRequest | timedWait | timedWaitReady | timedWaitExpired | setTimeout =>
    exact h.congr rfl rfl rfl rfl
  | sendRequestImpl => exact h.sendRequestImpl _ _
  | take _ hands =>
    rw [hands.frame]
    exact h.congr (Future.map_eq_of_untimed (fun _ => rfl) hands.futures) rfl rfl rfl
  | setResult c => exact h.setResult (hvalid c rfl)
  | attachCallback f func => exact h.attachCallback f func
  | runPosted => exact h.runPosted

/-! ## Runs -/

/-- The invariant of the undisputed runs. -/
structure WriteOnce (s : Session Source) (ops : Multiset Op) : Prop where
  conserved : Conserved s (completionsOf ops)
  agree : Agree (s.setResults ops) s.futures.length
  recorded : Recorded s
  waits : ∀ f, Op.timedWaitExpired f ∈ ops → f < s.futures.length

/-- A completion in the table's name was handed out. -/
theorem WriteOnce.mem_handed {s : Session Source} {ops : Multiset Op} (h : WriteOnce s ops)
    {c : Completion Source} (hc : c ∈ s.setResults ops) (hw : c.origin ≠ .timedWait) :
    c ∈ s.handed := by
  have hmem : c ∈ (↑s.handed : Multiset (Completion Source)) := by
    rw [h.conserved.handed, Multiset.mem_filter]
    refine ⟨hc, Option.isSome_iff_ne_none.2 fun hn => hw ((h.agree.origin c hc).2 hn)⟩
  exact Multiset.mem_coe.1 hmem

/-- A step that makes no completion pending. -/
theorem WriteOnce.of_eq {s s' : Session Source} {ops ops' : Multiset Op} (h : WriteOnce s ops)
    (hcons : Conserved s' (completionsOf ops')) (hrec : Recorded s')
    (hc : s'.setResults ops' = s.setResults ops) (hlen : s.futures.length ≤ s'.futures.length)
    (hw : ∀ f, Op.timedWaitExpired f ∈ ops' → f < s'.futures.length) : WriteOnce s' ops' := by
  refine ⟨hcons, ?_, hrec, hw⟩
  rw [hc]
  exact ⟨h.agree.agree, h.agree.origin, h.agree.timeout,
    fun c hc => Nat.lt_of_lt_of_le (h.agree.valid c hc) hlen⟩

/-- A wait that is running out is not among the calls of a callback. -/
theorem mem_of_mem_entries {calls : List Op} {rest : Multiset Op} {f : FutureId}
    (hcalls : ∀ op ∈ calls, op.entry = true) (h : Op.timedWaitExpired f ∈ ↑calls + rest) :
    Op.timedWaitExpired f ∈ rest :=
  (Multiset.mem_add.1 h).resolve_left fun hmem => by cases hcalls _ (Multiset.mem_coe.1 hmem)

/-- **A response, a tick or a failure takes futures.** The other completions of such a future are of
waits, since it was still in the table; then only a tick may take it, and a tick stores the same. -/
theorem WriteOnce.take {s s' : Session Source} {op : Op} {rest : Multiset Op} {x : Choice}
    (h : WriteOnce s (op ::ₘ rest)) (hG : Undisputed s (op ::ₘ rest) op x) (hop : op.entry = true)
    {cs : List (Completion Source)} (hs : Hands s s' cs) {origin : Source} {result error : Object}
    (hval : ∀ c ∈ cs, c.origin = origin ∧ c.result = result ∧ c.error = error)
    (hwait : origin ≠ .timedWait)
    (hcase : origin = .stepTimer ∧ result = .nil ∧ error = TIMEOUT_ERROR ∨
      origin ≠ .stepTimer ∧ ∀ c ∈ cs, c.future ∈ op.takes s) (hrec : Recorded s') :
    WriteOnce s' (↑(cs.map Op.setResult) + rest) := by
  have hcons := h.conserved
  obtain ⟨hc, -⟩ := of_entry op hop rest
  have hlen : s'.futures.length = s.futures.length := by
    simpa using congrArg List.length hs.futures
  have hset : s'.setResults (↑(cs.map Op.setResult) + rest) =
      ↑cs + s.setResults (op ::ₘ rest) := by
    rw [setResults, setResults, completionsOf_add, completionsOf_map, hc, hs.frame]
    exact add_left_comm _ _ _
  refine ⟨?_, ?_, hrec, ?_⟩
  · rw [hc] at hcons
    simpa using hcons.hands hs
  · rw [hset, hlen]
    refine h.agree.add result error (fun c hc => (hval c hc).2) ?_ ?_ ?_
      fun c hc => hcons.lt_length (hs.mem_values hc)
    · intro c hc d hd heq
      have hw : d.origin = .timedWait := by
        by_contra hne
        exact hcons.notMem_handed (h.mem_handed hd hne) (heq ▸ hs.mem_values hc)
      rcases hcase with ⟨-, hr, he⟩ | ⟨-, htakes⟩
      · rw [hr, he]
        exact h.agree.timeout d hd (.inl hw)
      · exact absurd ⟨d, hd, heq, hw⟩ (hG.1 c.future (htakes c hc))
    · intro c hc
      rw [(hval c hc).1, hs.extracted c hc]
      exact ⟨fun ho => absurd ho hwait, by simp⟩
    · intro c hc ho
      rw [(hval c hc).1] at ho
      rcases hcase with ⟨-, hr, he⟩ | ⟨hne, -⟩
      · rw [(hval c hc).2.1, (hval c hc).2.2, hr, he]
        exact ⟨rfl, rfl⟩
      · exact absurd ho (not_or.2 ⟨hwait, hne⟩)
  · intro f hf
    rw [hlen]
    exact h.waits f (Multiset.mem_cons_of_mem (by simpa using hf))

/-- A wait runs out: the future has been completed by nothing but waits and ticks. -/
theorem WriteOnce.timedWaitExpired {s : Session Source} {rest : Multiset Op} {x : Choice}
    {f : FutureId} (h : WriteOnce s (.timedWaitExpired f ::ₘ rest))
    (hG : Undisputed s (.timedWaitExpired f ::ₘ rest) (.timedWaitExpired f) x) :
    WriteOnce s (.setResult ⟨f, .timedWait, none, .nil, TIMEOUT_ERROR⟩ ::ₘ rest) := by
  have hcons := h.conserved
  rw [completionsOf_timedWaitExpired] at hcons
  refine ⟨by simpa using hcons.cons_of_none rfl, ?_, h.recorded,
    fun f' hf' => h.waits f' (Multiset.mem_cons_of_mem (by simpa using hf'))⟩
  have hset : s.setResults (.setResult ⟨f, .timedWait, none, .nil, TIMEOUT_ERROR⟩ ::ₘ rest) =
      ↑[(⟨f, .timedWait, none, .nil, TIMEOUT_ERROR⟩ : Completion Source)] +
        s.setResults (.timedWaitExpired f ::ₘ rest) := by
    simp [setResults]
  rw [hset]
  refine h.agree.add .nil TIMEOUT_ERROR (by simp) ?_ (by simp) (by simp)
    (by simpa using h.waits f (Multiset.mem_cons_self _ _))
  intro c hc d hd heq
  obtain rfl := List.mem_singleton.1 hc
  by_cases hw : d.origin = .timedWait
  · exact h.agree.timeout d hd (.inl hw)
  · exact h.agree.timeout d hd (.inr (hG.2 f rfl d (h.mem_handed hd hw) heq))

theorem writeOnce_exec {s s' : Session Source} {op : Op} {rest : Multiset Op} {x : Choice}
    {k : List Op} (h : WriteOnce s (op ::ₘ rest)) (hG : Undisputed s (op ::ₘ rest) op x)
    (hx : machine.exec s op x = some (s', k)) : WriteOnce s' (↑k + rest) := by
  have hcons := conserved_exec h.conserved hx
  have hrest (f : FutureId) (hf : Op.timedWaitExpired f ∈ rest) : f < s.futures.length :=
    h.waits f (Multiset.mem_cons_of_mem hf)
  have hrec : Recorded s' := recorded_steps h.recorded (exec_steps hx) fun c hop =>
    h.agree.valid c (by simp [hop, setResults])
  cases exec_steps hx with
  | sendRequest method params =>
    obtain ⟨hc, -⟩ := of_entry (.sendRequest method params) rfl rest
    refine h.of_eq hcons hrec (by simp [setResults, hc, Session.sendRequest, nextMsgid])
      (Nat.le_refl _) fun f hf => hrest f (by simpa using hf)
  | @sendRequestImpl c call _ =>
    have hlen : s.futures.length ≤ (s.sendRequestImpl c call).futures.length := by
      simp [Session.sendRequestImpl]
    refine h.of_eq hcons hrec
      (by simp [setResults, Session.sendRequestImpl]) hlen
      fun f hf => Nat.lt_of_lt_of_le (hrest f (by simpa using hf)) hlen
  | take hop hs hval hwait hcase => exact h.take hG hop hs hval hwait hcase hrec
  | setResult c hcalls =>
    obtain ⟨hc, -⟩ := of_entries hcalls rest
    have hlen : (s.setResult c).1.futures.length = s.futures.length := by
      simpa using congrArg List.length (setResult_futures (g := Future.msgid) (fun _ _ _ => rfl) s c)
    refine h.of_eq hcons hrec ?_ hlen.ge ?_
    · rw [setResults, setResults, hc, completionsOf_setResult, setResult_frame]
      dsimp only
      rw [← Multiset.coe_add, Multiset.coe_singleton, ← Multiset.singleton_add, add_assoc]
    · intro f hf
      rw [hlen]
      exact hrest f (mem_of_mem_entries hcalls hf)
  | @timedWait f _ hf _ =>
    obtain ⟨hc, -⟩ := of_entry (.timedWait f) rfl rest
    refine h.of_eq hcons hrec (by simp [setResults, hc]) (Nat.le_refl _) ?_
    intro f' hf'
    rcases Multiset.mem_add.1 hf' with hf' | hf'
    · obtain rfl : f' = f := by simpa using hf'
      exact (List.getElem?_eq_some_iff.1 hf).1
    · exact hrest f' hf'
  | timedWaitReady f =>
    obtain ⟨hc, -⟩ := of_entry (.timedWait f) rfl rest
    exact h.of_eq hcons hrec (by simp [setResults, hc]) (Nat.le_refl _)
      fun f' hf' => hrest f' (by simpa using hf')
  | timedWaitExpired f =>
    rw [Multiset.coe_singleton, Multiset.singleton_add]
    exact h.timedWaitExpired hG
  | attachCallback f func =>
    obtain ⟨hc, -⟩ := of_entry (.attachCallback f func) rfl rest
    have hlen : (s.attachCallback f func).futures.length = s.futures.length := by
      simpa using congrArg List.length
        (attachCallback_futures (g := Future.msgid) (fun _ _ => rfl) s f func)
    refine h.of_eq hcons hrec ?_ hlen.ge ?_
    · rw [setResults, attachCallback_frame]
      simp [setResults, hc]
    · intro f' hf'
      rw [hlen]
      exact hrest f' (by simpa using hf')
  | runPosted hcalls =>
    obtain ⟨hc, -⟩ := of_entry .runPosted rfl rest
    obtain ⟨hc', -⟩ := of_entries hcalls rest
    have hfut : s.runPosted.futures = s.futures := by rw [runPosted_frame]
    refine h.of_eq hcons hrec ?_ (by rw [hfut]) ?_
    · rw [setResults, setResults, hc, hc', runPosted_frame]
    · intro f hf
      rw [hfut]
      exact hrest f (mem_of_mem_entries hcalls hf)
  | setTimeout sec =>
    obtain ⟨hc, -⟩ := of_entry (.setTimeout sec) rfl rest
    exact h.of_eq hcons hrec (by simp [setResults, hc, Session.setTimeout]) (Nat.le_refl _)
      fun f hf => hrest f (by simpa using hf)

theorem writeOnce_spawn {s : Session Source} {op : Op} {ops : Multiset Op} (h : WriteOnce s ops)
    (hop : op.entry = true) : WriteOnce s (op ::ₘ ops) := by
  obtain ⟨hc, -⟩ := of_entry op hop ops
  refine h.of_eq (hc ▸ h.conserved) h.recorded (by rw [setResults, hc]; rfl) (Nat.le_refl _) ?_
  intro f hf
  rcases Multiset.mem_cons.1 hf with rfl | hf
  · cases hop
  · exact h.waits f hf

theorem writeOnce_init : WriteOnce init.shared init.pending := by
  have h0 : init.shared.setResults init.pending = 0 := rfl
  refine ⟨conserved_init 30, ?_, ⟨?_, ?_, ?_, ?_⟩, ?_⟩
  · rw [h0]
    exact ⟨by simp, by simp, by simp, by simp⟩
  all_goals simp [init, Config.pending]

/-- Every reachable state of an undisputed run. -/
theorem writeOnce_run {ls : List (Label Op Choice)} {c : Config (Session Source) Op}
    (hG : machine.Meets Undisputed init ls) (hrun : machine.run init ls = some c) :
    WriteOnce c.shared c.pending :=
  machine.invariant WriteOnce (fun _ _ _ => writeOnce_spawn) (fun _ _ _ _ _ _ => writeOnce_exec)
    writeOnce_init hG hrun

/-- A completion that has been made stays on record. -/
theorem completions_mono {s s' : Session Source} {op : Op} {k : List Op} (h : Steps s op s' k)
    {c : Completion Source} (hc : c ∈ s.completions) : c ∈ s'.completions := by
  rcases completions_steps h with he | ⟨d, -, -, he⟩
  · rw [he]
    exact hc
  · rw [he]
    exact List.mem_append_left _ hc

/-- **A future is write-once** in every undisputed run: once it is ready, its result and error stay
as they are, `get` has the same outcome at any later time, and a callback that already ran saw the
final value. -/
theorem future_write_once {ls ls' : List (Label Op Choice)} {c c' : Config (Session Source) Op}
    (hG : machine.Meets Undisputed init ls) (hrun : machine.run init ls = some c)
    (hG' : machine.Meets Undisputed c ls') (hrun' : machine.run c ls' = some c') {f : FutureId}
    {fut : Future} (hf : c.shared.futures[f]? = some fut) (hready : fut.isReady = true) :
    ∃ fut', c'.shared.futures[f]? = some fut' ∧ fut'.isReady = true ∧ fut'.result = fut.result ∧
      fut'.error = fut.error ∧ fut'.get = fut.get ∧
      ∀ run ∈ c.shared.ran, run.future = f → run.result = fut'.result ∧ run.error = fut'.error := by
  have h := writeOnce_run hG hrun
  have hsession : fut.session = false := by simpa [Future.isReady] using hready
  obtain ⟨d, hd, hdf, hdr, hde⟩ := h.recorded.stored f fut.result fut.error (by
    rw [List.getElem?_map, hf]
    simp [Future.outcome, hsession])
  obtain ⟨h', hd'⟩ := machine.invariant
    (fun s ops => WriteOnce s ops ∧ d ∈ s.completions)
    (fun s ops op hP hop => ⟨writeOnce_spawn hP.1 hop, hP.2⟩)
    (fun s op rest x s' k hP hg hx =>
      ⟨writeOnce_exec hP.1 hg hx, completions_mono (exec_steps hx) hP.2⟩) ⟨h, hd⟩ hG' hrun'
  -- what the future stores in the end is what some completion of it says, and they all agree
  obtain ⟨r, e, ho⟩ := h'.recorded.ready d hd'
  rw [hdf] at ho
  obtain ⟨d', hmem, hf', rfl, rfl⟩ := h'.recorded.stored f r e ho
  obtain ⟨hr, he⟩ := h'.agree.agree d (by simp [setResults, hd']) d' (by simp [setResults, hmem])
    (hdf.trans hf'.symm)
  rw [List.getElem?_map] at ho
  obtain ⟨fut', hfut', hout⟩ := Option.map_eq_some_iff.1 ho
  obtain ⟨hs', hr', he'⟩ : fut'.session = false ∧ fut'.result = d'.result ∧ fut'.error = d'.error := by
    simpa [Future.outcome] using hout
  have hres : fut'.result = fut.result := by rw [hr', ← hr, hdr]
  have herr : fut'.error = fut.error := by rw [he', ← he, hde]
  refine ⟨fut', hfut', by simp [Future.isReady, hs'], hres, herr, ?_, ?_⟩
  · rw [Future.get, Future.get, hres, herr]
  · intro run hrun hrf
    obtain ⟨a, ha, haf, har, hae⟩ := h.recorded.ran run hrun
    obtain ⟨h1, h2⟩ := h.agree.agree a (by simp [setResults, ha]) d (by simp [setResults, hd])
      (by rw [haf, hrf, hdf])
    rw [hres, herr, ← har, ← hae, h1, h2]
    exact ⟨hdr, hde⟩

/-- A request is sent, and a wait on its future runs out. -/
def waitRunsOut : List (Label Op Choice) :=
  [.spawn (.sendRequest (.str [0x66]) .nil), .exec 0 {}, .exec 0 {},
    .spawn (.attachCallback 0 7), .exec 1 {},
    .spawn (.timedWait 0), .exec 2 {}, .exec 2 {}, .exec 2 {}]

/-- The response to the request arrives. -/
def responseArrives : List (Label Op Choice) :=
  [.spawn (.onResponse 1 (.integer 7) .nil), .exec 3 {}, .exec 3 {}]

/-- The future is ready with a timeout, which its callback has seen and `get` throws; then the
response overwrites it and `get` returns the result. -/
theorem timedWait_overwritten :
    ∃ c c' fut fut', machine.run init waitRunsOut = some c ∧
      machine.run c responseArrives = some c' ∧ c.shared.futures[0]? = some fut ∧
      c'.shared.futures[0]? = some fut' ∧ fut.isReady = true ∧
      c.shared.ran = [⟨7, 0, .nil, TIMEOUT_ERROR⟩] ∧ fut.get = .error .timeoutError ∧
      fut'.get = .ok (.integer 7) ∧ ¬ (fut'.result = fut.result ∧ fut'.error = fut.error) :=
  ⟨_, _, _, _, rfl, rfl, rfl, rfl, rfl, rfl, rfl, rfl, nofun⟩

/-- A request is sent and the connection fails, which completes it. -/
def connectionFails : List (Label Op Choice) :=
  [.spawn (.sendRequest (.str [0x66]) .nil), .exec 0 {}, .exec 0 {},
    .spawn (.attachCallback 0 7), .exec 1 {},
    .spawn .onSystemError, .exec 2 { it := [⟨1, 0⟩] }, .exec 2 {}]

/-- The state after that. -/
def connectionFailed : Config (Session Source) Op := (machine.run init connectionFails).getD init

/-- The late response of a request that the failure completed changes nothing. -/
theorem future_write_once_lateResponse :
    ∃ c' fut', machine.run init connectionFails = some connectionFailed ∧
      machine.run connectionFailed [.spawn (.onResponse 1 (.integer 7) .nil), .exec 3 {}] = some c' ∧
      c'.shared.futures[0]? = some fut' ∧ fut'.error = CONNECT_ERROR := by
  have hG' : machine.Meets Undisputed connectionFailed
      [.spawn (.onResponse 1 (.integer 7) .nil), .exec 3 {}] := by decide
  obtain ⟨fut', hf', -, -, herr, -⟩ := future_write_once
    (by decide : machine.Meets Undisputed init connectionFails) rfl hG' rfl (f := 0) rfl rfl
  exact ⟨_, fut', rfl, rfl, hf', herr⟩

end Session

end MsgpackRpc
