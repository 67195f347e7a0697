import MsgpackRpc.Session.Machine

/-!
# Callbacks run exactly once

A future has one slot for a callback. `attach_callback` fills it, or submits the callback to the loop
when the future is ready; `set_result` runs the callback in the slot and clears it. Both hold the
mutex of the future from beginning to end, so that the calls on one future are a sequence, whatever
threads make them. `Future.deliveries` is what becomes of the callbacks in such a sequence, call by
call.

The runs of a session do the same: what has been run and what waits in the loop is, for each future,
what the calls made on it deliver (`callbacks_of_run`).
-/

namespace MsgpackRpc

open Threads

namespace Future

/-- How a callback ends: it returns, or throws a `std::exception` or something else. -/
inductive CallbackEnd where
  | returned
  | threwException
  | threwOther
  deriving DecidableEq, Repr

/-- `callback_real` (`future.cc:82`): how it ends itself, when the callback ends in the given way. The
two handlers catch everything. -/
def callbackReal : CallbackEnd → Except CallbackEnd Unit
  | .returned => .ok ()
  | .threwException => .ok ()
  | .threwOther => .ok ()

/-- `set_result` (`future.cc:107`) step by step: the slot is cleared after `callback_real`, which must
not throw for that. -/
def setResultSteps (f : Future) (result error : Object) (ends : CallbackEnd) :
    Future × Option Callback :=
  let f := { f with result, error, session := false }
  match f.callback with
  | none => (f, none)
  | some func =>
    match callbackReal ends with
    | .ok () => ({ f with callback := none }, some func)
    | .error _ => (f, some func)

/-- However the callback ends, `set_result` does the same. -/
theorem setResultSteps_eq (f : Future) (result error : Object) (ends : CallbackEnd) :
    f.setResultSteps result error ends = f.setResult result error := by
  unfold setResultSteps setResult
  rcases hcb : f.callback with _ | func
  · simp
  · cases ends <;> simp [callbackReal]

/-- A call on a future. -/
inductive Op where
  | attachCallback (func : Callback)
  | setResult (result error : Object) (ends : CallbackEnd)
  deriving DecidableEq, Repr

/-- What becomes of a callback: it is run inside `set_result`, or posted to the loop. -/
inductive Delivery where
  | ran (func : Callback)
  | posted (func : Callback)
  deriving DecidableEq, Repr

/-- A call, and the callback that it delivers. -/
def step (f : Future) : Op → Future × Option Delivery
  | .attachCallback func =>
    let (f, submitted) := f.attachCallback func
    (f, submitted.map .posted)
  | .setResult result error ends =>
    let (f, callback) := f.setResultSteps result error ends
    (f, callback.map .ran)

/-- The future after a sequence of calls. -/
def after (f : Future) : List Op → Future
  | [] => f
  | op :: ops => (f.step op).1.after ops

/-- What each of a sequence of calls delivers. -/
def deliveries (f : Future) : List Op → List (Option Delivery)
  | [] => []
  | op :: ops => (f.step op).2 :: (f.step op).1.deliveries ops

/-- What a call on a ready future delivers. -/
def Op.late : Op → Option Delivery
  | .attachCallback func => some (.posted func)
  | .setResult _ _ _ => none

theorem step_setResult (f : Future) (result error : Object) (ends : CallbackEnd) :
    f.step (.setResult result error ends) =
      ({ f with result, error, session := false, callback := none }, f.callback.map .ran) := by
  rw [step, setResultSteps_eq]
  rfl

/-- Before a future is ready a callback only takes the slot. -/
theorem step_attachCallback_pending {f : Future} (h : f.session = true) (func : Callback) :
    f.step (.attachCallback func) = ({ f with callback := some func }, none) := by
  rw [step, attachCallback, if_pos h]
  rfl

/-- A ready future with an empty slot stays so, and delivers what is attached to it. -/
theorem step_ready {f : Future} (hs : f.session = false) (hc : f.callback = none) (op : Op) :
    (f.step op).1.session = false ∧ (f.step op).1.callback = none ∧ (f.step op).2 = op.late := by
  cases op with
  | attachCallback func =>
    have hstep : f.step (.attachCallback func) = (f, some (.posted func)) := by
      rw [step, attachCallback, if_neg (by simp [hs])]
      rfl
    rw [hstep]
    exact ⟨hs, hc, rfl⟩
  | setResult result error ends =>
    rw [step_setResult, hc]
    exact ⟨rfl, rfl, rfl⟩

/-- **After a future is ready** each callback attached is posted, and nothing is run. -/
theorem deliveries_ready {f : Future} (hs : f.session = false) (hc : f.callback = none)
    (ops : List Op) : f.deliveries ops = ops.map Op.late := by
  induction ops generalizing f with
  | nil => rfl
  | cons op ops ih =>
    obtain ⟨hs', hc', hd⟩ := step_ready hs hc op
    rw [deliveries, hd, ih hs' hc', List.map_cons]

/-- **Before a future is ready** nothing is delivered, and the callback attached last is in the
slot. -/
theorem deliveries_pending {f : Future} (hs : f.session = true) (funcs : List Callback)
    (ops : List Op) :
    f.deliveries (funcs.map .attachCallback ++ ops) = funcs.map (fun _ => none) ++
      ({ f with callback := funcs.getLast?.or f.callback } : Future).deliveries ops := by
  induction funcs generalizing f with
  | nil => rfl
  | cons func funcs ih =>
    rw [List.map_cons, List.cons_append, deliveries, step_attachCallback_pending hs]
    dsimp only
    rw [ih (by exact hs), List.map_cons, List.cons_append, List.getLast?_cons]
    cases funcs.getLast? <;> rfl

/-- A call that attaches a callback. -/
def Op.attaches : Op → Bool
  | .attachCallback _ => true
  | .setResult _ _ _ => false

/-- A future is ready after the first `set_result`. -/
theorem after_session (f : Future) (ops : List Op) :
    (f.after ops).session = (f.session && ops.all Op.attaches) := by
  induction ops generalizing f with
  | nil => simp [after]
  | cons op ops ih =>
    rw [after, ih, List.all_cons, ← Bool.and_assoc]
    congr 1
    cases op with
    | attachCallback func =>
      cases hs : f.session with
      | true => simp [step_attachCallback_pending hs, hs, Op.attaches]
      | false => simp [step, attachCallback, hs]
    | setResult result error ends => simp [step_setResult, Op.attaches]

/-- The calls before the first `set_result` attach callbacks. -/
theorem split_first_setResult {ops : List Op} (h : ops.all Op.attaches = false) :
    ∃ (funcs : List Callback) (result error : Object) (ends : CallbackEnd) (post : List Op),
      ops = funcs.map .attachCallback ++ .setResult result error ends :: post := by
  induction ops with
  | nil => cases h
  | cons op ops ih =>
    cases op with
    | setResult result error ends => exact ⟨[], result, error, ends, ops, rfl⟩
    | attachCallback func =>
      obtain ⟨funcs, result, error, ends, post, rfl⟩ := ih (by simpa [Op.attaches] using h)
      exact ⟨func :: funcs, result, error, ends, post, rfl⟩

/-- **Callbacks run exactly once.** Take any sequence of calls, with at least one `set_result`, on a
future that is not ready and has no callback yet. The calls before the first `set_result` attach
callbacks and deliver none; the first `set_result` makes the future ready and runs the callback
attached last before it, if there is one; of the calls after it, each that attaches a callback posts
it and no `set_result` runs any. -/
theorem callbacks_exactly_once {f : Future} (hs : f.isReady = false) (hc : f.callback = none)
    {ops : List Op} (hops : ops.all Op.attaches = false) :
    ∃ (funcs : List Callback) (result error : Object) (ends : CallbackEnd) (post : List Op),
      ops = funcs.map .attachCallback ++ .setResult result error ends :: post ∧
      (∀ n, (f.after (ops.take n)).isReady = decide (funcs.length < n)) ∧
      f.deliveries ops = funcs.map (fun _ => none) ++
        funcs.getLast?.map .ran :: post.map Op.late := by
  have hsession : f.session = true := by simpa [isReady] using hs
  obtain ⟨funcs, result, error, ends, post, rfl⟩ := split_first_setResult hops
  refine ⟨funcs, result, error, ends, post, rfl, ?_, ?_⟩
  · intro n
    have hall : (funcs.map Op.attachCallback).all Op.attaches = true := by simp [Op.attaches]
    rw [isReady, after_session, hsession, Bool.true_and]
    by_cases hn : funcs.length < n
    · obtain ⟨m, rfl⟩ := Nat.exists_eq_add_of_lt hn
      rw [List.take_append, List.take_of_length_le (by simp; omega)]
      rw [List.length_map, Nat.add_assoc, Nat.add_sub_cancel_left]
      simp [Op.attaches]
    · rw [List.take_append_of_le_length (by simpa using Nat.le_of_not_lt hn)]
      simp [hn, ← List.map_take, Op.attaches]
  · rw [deliveries_pending hsession, deliveries, step_setResult, hc, Option.or_none,
      deliveries_ready rfl rfl]

/-- Two callbacks are attached before a future is completed twice, the first time with a callback that
throws, and one callback in between. -/
theorem callbacks_exactly_once_twice :
    let f : Future := { msgid := 1, call := 0, timeout := 30 }
    let ops : List Op := [.attachCallback 7, .attachCallback 8,
      .setResult .nil CONNECT_ERROR .threwException, .attachCallback 9,
      .setResult (.integer 5) .nil .returned]
    f.deliveries ops = [none, none, some (.ran 8), some (.posted 9), none] ∧
      ∃ funcs : List Callback, ∀ n, (f.after (ops.take n)).isReady = decide (funcs.length < n) := by
  intro f ops
  obtain ⟨funcs, -, -, -, -, -, hready, -⟩ :=
    callbacks_exactly_once (f := f) rfl rfl (rfl : ops.all Op.attaches = false)
  exact ⟨rfl, funcs, hready⟩

/-- The future after one more call. -/
theorem after_concat (f : Future) (ops : List Op) (op : Op) :
    f.after (ops ++ [op]) = ((f.after ops).step op).1 := by
  induction ops generalizing f with
  | nil => rfl
  | cons op' ops ih => exact ih _

/-- What one more call delivers. -/
theorem deliveries_concat (f : Future) (ops : List Op) (op : Op) :
    f.deliveries (ops ++ [op]) = f.deliveries ops ++ [((f.after ops).step op).2] := by
  induction ops generalizing f with
  | nil => rfl
  | cons op' ops ih => exact congrArg _ (ih _)

/-- A call does not look at the time that is left. -/
theorem step_untimed {f g : Future} (h : f.untimed = g.untimed) (op : Op) :
    (f.step op).1.untimed = (g.step op).1.untimed ∧ (f.step op).2 = (g.step op).2 := by
  obtain ⟨hm, hcall, hs, hcb, hr, he⟩ : f.msgid = g.msgid ∧ f.call = g.call ∧
      f.session = g.session ∧ f.callback = g.callback ∧ f.result = g.result ∧ f.error = g.error := by
    simpa [untimed] using h
  cases op with
  | attachCallback func =>
    simp only [step, attachCallback, hs]
    split
    · exact ⟨by simp [untimed, hm, hcall, hr, he], rfl⟩
    · exact ⟨h, rfl⟩
  | setResult result error ends =>
    rw [step_setResult, step_setResult]
    exact ⟨by simp [untimed, hm, hcall], by rw [hcb]⟩

/-- The callback of a delivery. -/
def Delivery.callback : Delivery → Callback
  | .ran func => func
  | .posted func => func

end Future

namespace Session

/-- The call that an operation makes on a future. -/
def Op.on (f : FutureId) : Op → Option Future.Op
  | .setResult c => if c.future = f then some (.setResult c.result c.error .returned) else none
  | .attachCallback g func => if g = f then some (.attachCallback func) else none
  | _ => none

/-- The callbacks of a future that have been run or wait in the loop. -/
def delivered (s : Session Source) (f : FutureId) : Multiset Callback :=
  ↑((s.ran.filter fun r => r.future = f).map CallbackRun.callback ++
    (s.posted.filter fun p => p.2 = f).map Prod.fst)

/-- The callbacks that calls on a future deliver. -/
def deliveredBy (fut : Future) (ops : List Future.Op) : Multiset Callback :=
  ↑((fut.deliveries ops).filterMap fun d => d.map Future.Delivery.callback)

/-- The invariant: a future is what the calls made on it make of it, and what they deliver has been run
or waits in the loop. -/
structure Delivers (f : FutureId) (fut : Future) (before : Multiset Callback) (ops : List Op)
    (s : Session Source) : Prop where
  future : s.futures[f]?.map Future.untimed =
    some (fut.after (ops.filterMap (Op.on f))).untimed
  delivered : s.delivered f = before + deliveredBy fut (ops.filterMap (Op.on f))

/-- Running a submitted callback moves it from the loop to those that have been run. -/
theorem delivered_runPosted {s : Session Source} {f : FutureId} {fut : Future}
    (hf : s.futures[f]? = some fut) : s.runPosted.delivered f = s.delivered f := by
  unfold runPosted
  rcases hp : s.posted with _ | ⟨⟨func, g⟩, posted⟩
  · rfl
  · by_cases hg : g = f
    · subst hg
      simp only [hf, delivered, hp, List.filter_append, List.map_append, List.filter_cons,
        List.filter_nil, decide_true, if_true, List.map_cons, List.map_nil, List.append_assoc]
      rfl
    · have hne : (s.posted.filter fun p => p.2 = f) = posted.filter fun p => p.2 = f := by
        rw [hp, List.filter_cons_of_neg (by simpa using hg)]
      rcases hl : s.futures[g]? with _ | fut'
      · simp only [hl, delivered, hne]
      · simp [hl, delivered, hne, hg]

/-- The operations that are no call on a future. -/
theorem delivers_other {s s' : Session Source} {op : Op} {k : List Op} (hs : Steps s op s' k)
    (hset : ∀ c, op ≠ .setResult c) (hatt : ∀ g func, op ≠ .attachCallback g func) {f : FutureId}
    {fut : Future} (hf : s.futures[f]? = some fut) :
    s'.futures[f]?.map Future.untimed = s.futures[f]?.map Future.untimed ∧
      s'.delivered f = s.delivered f := by
  cases hs with
  | sendRequest | timedWait | timedWaitReady | timedWaitExpired | setTimeout => exact ⟨rfl, rfl⟩
  | sendRequestImpl =>
    refine ⟨?_, rfl⟩
    rw [sendRequestImpl, List.getElem?_append_left (List.getElem?_eq_some_iff.1 hf).1]
  | take _ hs =>
    refine ⟨?_, by rw [hs.frame]; rfl⟩
    rw [← List.getElem?_map, hs.futures, List.getElem?_map]
  | setResult c => exact absurd rfl (hset c)
  | attachCallback g func => exact absurd rfl (hatt g func)
  | runPosted =>
    refine ⟨?_, delivered_runPosted hf⟩
    rw [runPosted_frame]

/-- Completing a future is a call on it, and none on another. -/
theorem delivers_setResult {s : Session Source} {f : FutureId} {fut : Future}
    (hf : s.futures[f]? = some fut) (c : Completion Source) :
    match (Op.setResult c).on f with
    | some call => (s.setResult c).1.futures[f]? = some (fut.step call).1 ∧
      (s.setResult c).1.delivered f =
        s.delivered f + ↑((fut.step call).2.map Future.Delivery.callback).toList
    | none => (s.setResult c).1.futures[f]? = s.futures[f]? ∧
      (s.setResult c).1.delivered f = s.delivered f := by
  by_cases hc : c.future = f
  · subst hc
    have hlt := (List.getElem?_eq_some_iff.1 hf).1
    rw [Op.on, if_pos rfl]
    dsimp only
    rw [Future.step_setResult]
    unfold setResult
    simp only [hf, Future.setResult, List.getElem?_set_self hlt, true_and]
    rcases fut.callback with _ | func
    · simp [delivered]
    · simp only [delivered, List.filter_append, List.map_append, Multiset.coe_add,
        Option.toList_some, List.map_cons, List.map_nil, Option.map_some, List.filter_cons,
        decide_true, if_true, List.filter_nil, List.append_assoc]
      exact Quotient.sound ((List.perm_append_comm).append_left _)
  · rw [Op.on, if_neg hc]
    dsimp only
    unfold setResult
    dsimp only
    split
    · exact ⟨rfl, rfl⟩
    · refine ⟨List.getElem?_set_ne hc, ?_⟩
      simp [delivered, List.filter_map, Function.comp_def, hc]

/-- So is attaching a callback. -/
theorem delivers_attachCallback {s : Session Source} {f : FutureId} {fut : Future}
    (hf : s.futures[f]? = some fut) (g : FutureId) (func : Callback) :
    match (Op.attachCallback g func).on f with
    | some call => (s.attachCallback g func).futures[f]? = some (fut.step call).1 ∧
      (s.attachCallback g func).delivered f =
        s.delivered f + ↑((fut.step call).2.map Future.Delivery.callback).toList
    | none => (s.attachCallback g func).futures[f]? = s.futures[f]? ∧
      (s.attachCallback g func).delivered f = s.delivered f := by
  by_cases hg : g = f
  · subst hg
    have hlt := (List.getElem?_eq_some_iff.1 hf).1
    rw [Op.on, if_pos rfl]
    unfold attachCallback Future.step Future.attachCallback
    simp only [hf]
    split
    · exact ⟨List.getElem?_set_self hlt, by simp [delivered]⟩
    · refine ⟨List.getElem?_set_self hlt, ?_⟩
      simp [delivered, Future.Delivery.callback, -Multiset.coe_singleton, ← List.append_assoc]
  · rw [Op.on, if_neg hg]
    dsimp only
    unfold attachCallback
    split
    · exact ⟨rfl, rfl⟩
    · refine ⟨List.getElem?_set_ne hg, ?_⟩
      simp [delivered, List.filter_map, Function.comp_def, hg]

/-- An operation that is no call on the future. -/
theorem Delivers.quiet {f : FutureId} {fut : Future} {before : Multiset Callback} {tr : List Op}
    {s s' : Session Source} (h : Delivers f fut before tr s) {op : Op} (hon : op.on f = none)
    (hf : s'.futures[f]?.map Future.untimed = s.futures[f]?.map Future.untimed)
    (hd : s'.delivered f = s.delivered f) : Delivers f fut before (tr ++ [op]) s' := by
  have htr : (tr ++ [op]).filterMap (Op.on f) = tr.filterMap (Op.on f) := by
    rw [List.filterMap_append, List.filterMap_cons_none hon, List.filterMap_nil, List.append_nil]
  exact ⟨by rw [htr, hf]; exact h.future, by rw [htr, hd]; exact h.delivered⟩

/-- A call on the future. -/
theorem Delivers.call {f : FutureId} {fut : Future} {before : Multiset Callback} {tr : List Op}
    {s s' : Session Source} (h : Delivers f fut before tr s) {op : Op} {call : Future.Op}
    (hon : op.on f = some call) {fut₀ : Future} (hf₀ : s.futures[f]? = some fut₀)
    (hf : s'.futures[f]? = some (fut₀.step call).1)
    (hd : s'.delivered f =
      s.delivered f + ↑((fut₀.step call).2.map Future.Delivery.callback).toList) :
    Delivers f fut before (tr ++ [op]) s' := by
  have htr : (tr ++ [op]).filterMap (Op.on f) = tr.filterMap (Op.on f) ++ [call] := by
    rw [List.filterMap_append, List.filterMap_cons_some hon, List.filterMap_nil]
  have hsame : fut₀.untimed = (fut.after (tr.filterMap (Op.on f))).untimed := by
    have hfut := h.future
    rw [hf₀] at hfut
    exact Option.some.inj hfut
  obtain ⟨h1, h2⟩ := Future.step_untimed hsame call
  refine ⟨?_, ?_⟩
  · rw [htr, hf, Future.after_concat, Option.map_some, h1]
  · rw [htr, hd, h.delivered, deliveredBy, deliveredBy, Future.deliveries_concat, h2,
      List.filterMap_append, ← Multiset.coe_add, add_assoc]
    congr 2

theorem delivers_exec {f : FutureId} {fut : Future} {before : Multiset Callback} {tr : List Op}
    {s s' : Session Source} (h : Delivers f fut before tr s) {op : Op} {x : Choice} {k : List Op}
    (hx : machine.exec s op x = some (s', k)) : Delivers f fut before (tr ++ [op]) s' := by
  obtain ⟨fut₀, hf₀, -⟩ := Option.map_eq_some_iff.1 h.future
  have other (hset : ∀ c, op ≠ .setResult c) (hatt : ∀ g func, op ≠ .attachCallback g func)
      (hon : op.on f = none) : Delivers f fut before (tr ++ [op]) s' := by
    obtain ⟨h1, h2⟩ := delivers_other (exec_steps hx) hset hatt hf₀
    exact h.quiet hon h1 h2
  cases op with
  | setResult c =>
    cases exec_steps hx with
    | take hentry => cases hentry
    | setResult =>
      have hs := delivers_setResult hf₀ c
      cases hon : (Op.setResult c).on f with
      | some call =>
        rw [hon] at hs
        exact h.call hon hf₀ hs.1 hs.2
      | none =>
        rw [hon] at hs
        exact h.quiet hon (by rw [hs.1]) hs.2
  | attachCallback g func =>
    cases hx
    have hs := delivers_attachCallback hf₀ g func
    cases hon : (Op.attachCallback g func).on f with
    | some call =>
      rw [hon] at hs
      exact h.call hon hf₀ hs.1 hs.2
    | none =>
      rw [hon] at hs
      exact h.quiet hon (by rw [hs.1]) hs.2
  | _ => exact other (by simp) (by simp) rfl

/-- **The callbacks of a run.** In every run of a session a future is what the calls made on it make of
it, up to the time it has left, and the callbacks of the future that were run or wait in the loop are
those from before and the ones that these calls deliver, each as often as it is delivered. -/
theorem callbacks_of_run {ls : List (Label Op Choice)} {c c' : Config (Session Source) Op}
    (hrun : machine.run c ls = some c') {f : FutureId} {fut : Future}
    (hf : c.shared.futures[f]? = some fut) :
    (∃ fut', c'.shared.futures[f]? = some fut' ∧ fut'.untimed =
      (fut.after ((machine.executed c ls).filterMap (Op.on f))).untimed) ∧
      c'.shared.delivered f = c.shared.delivered f +
        deliveredBy fut ((machine.executed c ls).filterMap (Op.on f)) := by
  have h := machine.invariant_executed (t := [])
    (fun tr s _ => Delivers f fut (c.shared.delivered f) tr s) (fun _ _ _ _ h _ => h)
    (fun _ _ _ _ _ _ _ h _ hx => delivers_exec h hx)
    ⟨by rw [hf]; rfl, (add_zero _).symm⟩ (System.meets_true c ls) hrun
  rw [List.nil_append] at h
  obtain ⟨fut', hf', hu⟩ := Option.map_eq_some_iff.1 h.future
  exact ⟨⟨fut', hf', hu⟩, h.delivered⟩

end Session

end MsgpackRpc
