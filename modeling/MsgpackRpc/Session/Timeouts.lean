import MsgpackRpc.Session.Conservation

/-!
# Requests time out

A future takes the timeout of its session when it is constructed. Each tick that finds it in the
table takes one off, or takes the future out when nothing is left; no other operation touches the
time of a future, and a tick judges each future by its own time alone (`tick_spec`). So a request
that is inserted with a timeout of `T` is in the table as long as there were at most `T` ticks since
then, and the next one times it out (`Timed`).

A response and a failure take a request out before that, and so does, without completing it, the
insertion of a later request with the same id: ids wrap around after 2^32 requests.
-/

namespace MsgpackRpc

open Threads

namespace Session

/-! ## A tick -/

/-- **A tick.** Of the futures in the table those without time left are taken out, the others lose
one unit, and a future that is not in the table keeps its time. -/
theorem tick_spec {s s' : Session Source} {ops : Multiset Op} {x : Choice} {k : List Op}
    (h : Conserved s (completionsOf ops)) (hx : machine.exec s .stepTimerHandler x = some (s', k))
    {g : FutureId} {fut : Future} (hg : s.futures[g]? = some fut) :
    s'.futures[g]? = some (if g ∈ s.reqtable.values then fut.stepTimeout.1 else fut) ∧
      (g ∈ s'.reqtable.values ↔ g ∈ s.reqtable.values ∧ fut.timeout ≠ 0) ∧
      ∀ d ∈ s'.handed, d ∈ s.handed ∨ d.future ∈ s.reqtable.values ∧ d.origin = .stepTimer ∧
        d.result = .nil ∧ d.error = TIMEOUT_ERROR ∧ (d.future = g → fut.timeout = 0) := by
  simp only [machine, walk] at hx
  split at hx
  · next hp =>
    cases hx
    have hs := hands_stepTimerHandler s .stepTimer hp
    have hmem (f : FutureId) : f ∈ x.it.map Sigma.snd ↔ f ∈ s.reqtable.values := by
      rw [Reqtable.values, Multiset.mem_coe]
      exact (hp.map Sigma.snd).mem_iff
    have hnodup := h.nodup_values
    have hentries : (s.reqtable.entries.map Sigma.snd).Nodup := Multiset.coe_nodup.1 hnodup
    have hnd : (x.it.map Sigma.snd).Nodup := (hp.map Sigma.snd).nodup_iff.2 hentries
    have hout := Reqtable.stepTimeout_timedout s.reqtable s.futures hnd
    have hfut := Reqtable.stepTimeout_futures s.reqtable s.futures hnd g
    have hzero : fut.stepTimeout.2 = true ↔ fut.timeout = 0 := by
      unfold Future.stepTimeout
      split
      · next h0 => simpa using (BitVec.lt_irrefl _ <| · ▸ h0)
      · next h0 => simpa using h0
    have htimed : g ∈ (s.reqtable.stepTimeout s.futures x.it).1 ↔
        g ∈ s.reqtable.values ∧ fut.timeout = 0 := by
      rw [hout, List.mem_filter, hmem, hg]
      simp [hzero]
    refine ⟨?_, ?_, ?_⟩
    · rw [stepTimerHandler]
      simp only [hfut, hg, hmem, Option.map_some]
    · have hv := hs.values
      rw [stepTimerHandler, hand_future] at hv
      rw [hv] at hnodup
      have hdisj := (Multiset.nodup_add.1 hnodup).2.2
      constructor
      · intro hin
        have hold := hs.values_subset hin
        refine ⟨hold, fun h0 => ?_⟩
        exact Multiset.disjoint_left.1 hdisj (Multiset.mem_coe.2 (htimed.2 ⟨hold, h0⟩)) hin
      · rintro ⟨hold, h0⟩
        rw [hv] at hold
        exact (Multiset.mem_add.1 hold).resolve_left fun hin => h0 (htimed.1 hin).2
    · intro d hd
      rw [hs.handed] at hd
      refine (List.mem_append.1 hd).imp_right fun hd => ?_
      obtain ⟨ho, hr, he⟩ := hand_origin hd
      refine ⟨hs.mem_values hd, ho, hr, he, ?_⟩
      rintro rfl
      have hin : d.future ∈ (s.reqtable.stepTimeout s.futures x.it).1 := by
        obtain ⟨f, hf, rfl⟩ := List.mem_map.1 hd
        exact hf
      exact (htimed.1 hin).2
  · cases hx

/-- What the other operations leave alone: the time of every future, and which futures a tick has
taken; they put no future back. -/
structure NoTick (s s' : Session Source) : Prop where
  timeouts : s.futures.map Future.timeout <+: s'.futures.map Future.timeout
  values : ∀ g ∈ s'.reqtable.values, g < s.futures.length → g ∈ s.reqtable.values
  handed : ∀ d ∈ s'.handed, d.origin = .stepTimer → d ∈ s.handed

/-- A step that changes no time and only takes futures out, in another name. -/
theorem noTick_of_hands {s s' : Session Source} {cs : List (Completion Source)} (hs : Hands s s' cs)
    (hf : s'.futures = s.futures) (ho : ∀ c ∈ cs, c.origin ≠ .stepTimer) : NoTick s s' := by
  refine ⟨⟨[], by rw [hf, List.append_nil]⟩, fun g hg _ => hs.values_subset hg, ?_⟩
  intro d hd hto
  rw [hs.handed] at hd
  exact (List.mem_append.1 hd).resolve_right fun hd => ho d hd hto

/-- A step that touches neither the table nor what was handed out. -/
theorem noTick_of_eq {s s' : Session Source}
    (hf : s'.futures.map Future.timeout = s.futures.map Future.timeout)
    (hr : s'.reqtable = s.reqtable) (hh : s'.handed = s.handed) : NoTick s s' :=
  ⟨⟨[], by rw [hf, List.append_nil]⟩, fun g hg _ => hr ▸ hg, fun d hd _ => hh ▸ hd⟩

theorem onResponse_futures (s : Session Source) (origin : Source) (msgid : MsgId)
    (result error : Object) : (s.onResponse origin msgid result error).1.futures = s.futures := by
  unfold onResponse
  split <;> rfl

theorem noTick_sendRequestImpl (s : Session Source) (c : Nat) (call : Call) :
    NoTick s (s.sendRequestImpl c call) := by
  refine ⟨?_, ?_, fun d hd _ => hd⟩
  · rw [sendRequestImpl, List.map_append]
    exact List.prefix_append _ _
  · intro g hg hlt
    obtain ⟨k, hk⟩ := Reqtable.mem_values.1 hg
    simp only [sendRequestImpl] at hk
    by_cases hkey : k = call.msgid
    · subst hkey
      rw [Reqtable.lookup_insert] at hk
      cases hk
      exact absurd hlt (Nat.lt_irrefl _)
    · rw [Reqtable.lookup_insert_ne hkey] at hk
      exact Reqtable.mem_values.2 ⟨k, hk⟩

theorem exec_noTick {s s' : Session Source} {op : Op} {x : Choice} {k : List Op}
    (hx : machine.exec s op x = some (s', k)) (hop : op ≠ .stepTimerHandler) : NoTick s s' := by
  have sweep {origin : Source} (ho : origin ≠ .stepTimer)
      (hx : s.walk x (s.sweep origin CONNECT_ERROR) = some (s', k)) : NoTick s s' := by
    unfold walk at hx
    split at hx
    · next hp =>
      cases hx
      exact noTick_of_hands (hands_sweep s origin CONNECT_ERROR hp).1 rfl
        fun c hc => (hand_origin hc).1 ▸ ho
    · cases hx
  cases op with
  | stepTimerHandler => exact absurd rfl hop
  | sendRequest method params =>
    cases hx
    exact noTick_of_eq rfl rfl rfl
  | sendRequestImpl c =>
    obtain ⟨call, -, he⟩ := Option.map_eq_some_iff.1 hx
    cases he
    exact noTick_sendRequestImpl s c call
  | onResponse msgid result error =>
    cases hx
    refine noTick_of_hands (hands_onResponse s .response msgid result error)
      (onResponse_futures s .response msgid result error) ?_
    intro c hc
    rw [(onResponse_origin hc).1.1]
    simp
  | onConnectFailed => exact sweep (by simp) hx
  | onSystemError => exact sweep (by simp) hx
  | setResult c =>
    cases exec_steps hx with
    | setResult =>
      refine noTick_of_eq (setResult_futures (fun _ _ _ => rfl) s c) ?_ ?_ <;> rw [setResult_frame]
    | take hentry => cases hentry
  | timedWait f =>
    obtain ⟨fut, -, he⟩ := Option.map_eq_some_iff.1 hx
    cases he
    exact noTick_of_eq rfl rfl rfl
  | timedWaitExpired f =>
    cases hx
    exact noTick_of_eq rfl rfl rfl
  | attachCallback f func =>
    cases hx
    refine noTick_of_eq (attachCallback_futures (fun _ _ => rfl) s f func) ?_ ?_ <;>
      rw [attachCallback_frame]
  | runPosted =>
    obtain ⟨calls, -, he⟩ := Option.map_eq_some_iff.1 hx
    cases he
    refine noTick_of_eq ?_ ?_ ?_ <;> rw [runPosted_frame]
  | setTimeout sec =>
    cases hx
    exact noTick_of_eq rfl rfl rfl

/-! ## Runs -/

/-- The ticks among the operations executed. -/
def ticks (ops : List Op) : Nat := ops.count .stepTimerHandler

/-- The invariant of a future inserted with the timeout `T`, when `ops` were executed since: the
ticks are taken off its time as long as it is in the table, and a tick that took it out was one too
many. -/
def Timed (f : FutureId) (T : Nat) (ops : List Op) (s : Session Source) : Prop :=
  ∃ t, (s.futures.map Future.timeout)[f]? = some t ∧
    (f ∈ s.reqtable.values → t.toNat + ticks ops = T) ∧
    ∀ d ∈ s.handed, d.future = f → d.origin = .stepTimer →
      t = 0 ∧ T < ticks ops ∧ d.result = .nil ∧ d.error = TIMEOUT_ERROR

/-- The time that is left after a tick. -/
theorem stepTimeout_toNat (fut : Future) :
    fut.stepTimeout.1.timeout.toNat = fut.timeout.toNat - 1 := by
  unfold Future.stepTimeout
  split
  · next hpos =>
    have hone : (1 : BitVec 32) ≤ fut.timeout := BitVec.le_def.2 (BitVec.lt_def.1 hpos)
    exact BitVec.toNat_sub_of_le hone
  · next hpos =>
    have hzero : fut.timeout.toNat ≤ 0 := Nat.not_lt.1 fun hlt => hpos (BitVec.lt_def.2 hlt)
    show fut.timeout.toNat = _
    omega

theorem timed_tick {s s' : Session Source} {ops : Multiset Op} {x : Choice} {k : List Op}
    {f : FutureId} {T : Nat} {tr : List Op} (h : Timed f T tr s)
    (hcons : Conserved s (completionsOf ops))
    (hx : machine.exec s .stepTimerHandler x = some (s', k)) :
    Timed f T (tr ++ [.stepTimerHandler]) s' := by
  obtain ⟨t, ht, hin, hout⟩ := h
  rw [List.getElem?_map] at ht
  obtain ⟨fut, hf, rfl⟩ := Option.map_eq_some_iff.1 ht
  obtain ⟨hf', hmem, hhanded⟩ := tick_spec hcons hx hf
  have hticks : ticks (tr ++ [.stepTimerHandler]) = ticks tr + 1 := by simp [ticks]
  refine ⟨_, by rw [List.getElem?_map, hf']; rfl, ?_, ?_⟩
  · intro hv
    obtain ⟨hv, h0⟩ := hmem.1 hv
    have hsum := hin hv
    have hne : fut.timeout.toNat ≠ 0 := fun hz => h0 (BitVec.eq_of_toNat_eq hz)
    rw [if_pos hv, hticks, stepTimeout_toNat]
    omega
  · intro d hd hdf ho
    rw [hticks]
    rcases hhanded d hd with hd | ⟨hv, -, hr, he, h0⟩
    · obtain ⟨h0, hT, hr, he⟩ := hout d hd hdf ho
      rw [if_neg (hdf ▸ hcons.notMem_handed hd)]
      exact ⟨h0, by omega, hr, he⟩
    · rw [hdf] at hv
      have hzero := h0 hdf
      have hsum := hin hv
      rw [hzero] at hsum
      refine ⟨?_, by simp at hsum; omega, hr, he⟩
      rw [if_pos hv, Future.stepTimeout, if_neg (by simp [hzero])]
      exact hzero

theorem timed_exec {s s' : Session Source} {op : Op} {ops : Multiset Op} {x : Choice} {k : List Op}
    {f : FutureId} {T : Nat} {tr : List Op} (h : Timed f T tr s)
    (hcons : Conserved s (completionsOf ops)) (hx : machine.exec s op x = some (s', k)) :
    Timed f T (tr ++ [op]) s' := by
  by_cases hop : op = .stepTimerHandler
  · subst hop
    exact timed_tick h hcons hx
  · have hs := exec_noTick hx hop
    have hticks : ticks (tr ++ [op]) = ticks tr := by simp [ticks, hop]
    obtain ⟨t, ht, hin, hout⟩ := h
    have hlt : f < s.futures.length := by simpa using (List.getElem?_eq_some_iff.1 ht).1
    have ht' : (s'.futures.map Future.timeout)[f]? = some t := by
      obtain ⟨ts, hts⟩ := hs.timeouts
      rw [← hts, List.getElem?_append_left (List.getElem?_eq_some_iff.1 ht).1]
      exact ht
    refine ⟨t, ht', ?_, ?_⟩
    · intro hv
      rw [hticks]
      exact hin (hs.values f hv hlt)
    · intro d hd hdf ho
      rw [hticks]
      exact hout d (hs.handed d hd ho) hdf ho

/-- What holds of a future holds after a run. -/
theorem timed_run {c c' : Config (Session Source) Op} {ls : List (Label Op Choice)} {f : FutureId}
    {T : Nat} {tr : List Op} (hcons : Conserved c.shared (completionsOf c.pending))
    (h : Timed f T tr c.shared) (hrun : machine.run c ls = some c') :
    Conserved c'.shared (completionsOf c'.pending) ∧
      Timed f T (tr ++ machine.executed c ls) c'.shared := by
  refine machine.invariant_executed
    (fun tr s ops => Conserved s (completionsOf ops) ∧ Timed f T tr s) ?_ ?_ ⟨hcons, h⟩
    (System.meets_true c ls) hrun
  · rintro tr s ops op ⟨hcons, h⟩ hop
    exact ⟨hcons.entry hop, h⟩
  · rintro tr s op rest x s' k ⟨hcons, h⟩ - hx
    exact ⟨conserved_exec hcons hx, timed_exec h hcons hx⟩

/-- A request that is inserted. -/
theorem timed_sendRequestImpl {s : Session Source} {ops : Multiset Op}
    (h : Conserved s (completionsOf ops)) (c : Nat) (call : Call) :
    Timed s.futures.length s.timeout.toNat [] (s.sendRequestImpl c call) := by
  refine ⟨s.timeout, by simp [sendRequestImpl], fun _ => rfl, ?_⟩
  intro d hd hdf
  exact absurd hdf (Nat.ne_of_lt (h.handed_lt_length hd))

/-- The step that does so, in a run. -/
theorem insert_step {c c₁ : Config (Session Source) Op} {i n : Nat} {x : Choice}
    (hop : System.executes c (.exec i x) = some (.sendRequestImpl n))
    (hstep : machine.step c (.exec i x) = some c₁) :
    ∃ call, c₁.shared = c.shared.sendRequestImpl n call := by
  rcases System.step_cases hstep with ⟨op, h, -⟩ | ⟨i', x', op, rest, k, h, hop', hx, -, -⟩
  · cases h
  · cases h
    obtain rfl : op = .sendRequestImpl n := Option.some.inj (hop'.symm.trans hop)
    obtain ⟨call, -, he⟩ := Option.map_eq_some_iff.1 hx
    exact ⟨call, (Prod.mk.inj he).1.symm⟩

theorem timed_insert {c c₁ : Config (Session Source) Op} {i n : Nat} {x : Choice}
    (hcons : Conserved c.shared (completionsOf c.pending))
    (hop : System.executes c (.exec i x) = some (.sendRequestImpl n))
    (hstep : machine.step c (.exec i x) = some c₁) :
    Conserved c₁.shared (completionsOf c₁.pending) ∧
      Timed c.shared.futures.length c.shared.timeout.toNat [] c₁.shared := by
  obtain ⟨call, hs⟩ := insert_step hop hstep
  refine ⟨conserved_step hcons hstep, ?_⟩
  rw [hs]
  exact timed_sendRequestImpl hcons n call

/-- A future is in the table, was handed out, or lost its entry. -/
theorem Conserved.cases {s : Session Source} {pending : Multiset (Completion Source)}
    (h : Conserved s pending) {f : FutureId} (hf : f < s.futures.length) :
    f ∈ s.reqtable.values ∨ (∃ d ∈ s.handed, d.future = f) ∨ f ∈ s.displaced := by
  have hmem : f ∈ Multiset.range s.futures.length := Multiset.mem_range.2 hf
  rw [← h.futures, Multiset.mem_add, Multiset.mem_add] at hmem
  rcases hmem with (hv | hh) | hd
  · exact .inl hv
  · exact .inr (.inl (List.mem_map.1 (Multiset.mem_coe.1 hh)))
  · exact .inr (.inr (Multiset.mem_coe.1 hd))

/-- **Requests time out after exactly `T + 1` ticks.** Take a request inserted while the timeout of
the session is `T`, and any later moment of any run at which no response and no failure has taken it
and no later request with its id has overwritten its entry. As long as there were at most `T` ticks
since the insertion it is in the table with the rest of its time; from the next one on it is not, and
that tick handed it out once, to be completed with a timeout. Its counter never goes below zero, and
what a tick does to any future depends on the time of that future alone. -/
theorem request_times_out {ls ls' : List (Label Op Choice)} {c c₁ c' : Config (Session Source) Op}
    {i n : Nat} {x : Choice} (hrun : machine.run init ls = some c)
    (hop : System.executes c (.exec i x) = some (.sendRequestImpl n))
    (hstep : machine.step c (.exec i x) = some c₁) (hrun' : machine.run c₁ ls' = some c')
    (htaken : ∀ d ∈ c'.shared.handed, d.future = c.shared.futures.length → d.origin = .stepTimer)
    (hkept : c.shared.futures.length ∉ c'.shared.displaced) :
    (∃ fut, c'.shared.futures[c.shared.futures.length]? = some fut ∧
      fut.timeout.toNat = c.shared.timeout.toNat - ticks (machine.executed c₁ ls') ∧
      if ticks (machine.executed c₁ ls') ≤ c.shared.timeout.toNat then
        c'.shared.reqtable.lookup fut.msgid = some c.shared.futures.length
      else
        (∀ k, c'.shared.reqtable.lookup k ≠ some c.shared.futures.length) ∧
          c'.shared.handedCount c.shared.futures.length = 1 ∧
          ∃ d ∈ c'.shared.handed, d.future = c.shared.futures.length ∧ d.origin = .stepTimer ∧
            d.result = .nil ∧ d.error = TIMEOUT_ERROR ∧
            (d ∈ c'.shared.completions ∨ Op.setResult d ∈ c'.pending)) ∧
      ∀ x s' k, machine.exec c'.shared .stepTimerHandler x = some (s', k) →
        ∀ g fut, c'.shared.futures[g]? = some fut →
          s'.futures[g]? =
            some (if g ∈ c'.shared.reqtable.values then fut.stepTimeout.1 else fut) ∧
          (g ∈ s'.reqtable.values ↔ g ∈ c'.shared.reqtable.values ∧ fut.timeout ≠ 0) := by
  obtain ⟨hcons₁, htimed₁⟩ := timed_insert (conserved_run hrun) hop hstep
  obtain ⟨hcons', t, ht, hin, hout⟩ := timed_run hcons₁ htimed₁ hrun'
  rw [List.nil_append] at hin hout
  refine ⟨?_, fun x s' k hx g fut hg =>
    ⟨(tick_spec hcons' hx hg).1, (tick_spec hcons' hx hg).2.1⟩⟩
  rw [List.getElem?_map] at ht
  obtain ⟨fut, hf, rfl⟩ := Option.map_eq_some_iff.1 ht
  have hlt := (List.getElem?_eq_some_iff.1 hf).1
  refine ⟨fut, hf, ?_⟩
  rcases hcons'.cases hlt with hv | ⟨d, hd, hdf⟩ | hd
  · have hsum := hin hv
    obtain ⟨k, hk⟩ := Reqtable.mem_values.1 hv
    have hkey := hcons'.keys k _ hk
    rw [List.getElem?_map, hf] at hkey
    refine ⟨by omega, ?_⟩
    rw [if_pos (by omega), Option.some.inj hkey]
    exact hk
  · have ho := htaken d hd hdf
    obtain ⟨h0, hT, hr, he⟩ := hout d hd hdf ho
    refine ⟨by rw [h0]; simp; omega, ?_⟩
    rw [if_neg (by omega)]
    have hnot := hcons'.notMem_handed hd
    rw [hdf] at hnot
    have hcount : c'.shared.handedCount c.shared.futures.length = 1 := by
      rw [handedCount_eq_count, ← hdf]
      exact List.count_eq_one_of_mem hcons'.nodup_handed (List.mem_map_of_mem hd)
    exact ⟨fun k hk => hnot (Reqtable.mem_values.2 ⟨k, hk⟩), hcount, d, hd, hdf, ho, hr, he,
      (hcons'.made_or_pending hd).2.imp_right mem_completionsOf⟩
  · exact absurd hd hkept

/-- The timeout is set to 1 and a request is about to be inserted. -/
def timeoutOne : List (Label Op Choice) :=
  [.spawn (.setTimeout 1), .exec 0 {}, .spawn (.sendRequest (.str [0x66]) .nil), .exec 1 {}]

/-- The timeout is set to 9, and then there are two ticks. -/
def twoTicks : List (Label Op Choice) :=
  [.spawn (.setTimeout 9), .exec 2 {}, .spawn .stepTimerHandler, .exec 3 { it := [⟨1, 0⟩] },
    .spawn .stepTimerHandler, .exec 4 { it := [⟨1, 0⟩] }, .exec 4 {}]

/-- The second tick times the request out. -/
theorem request_times_out_twoTicks :
    ∃ c c₁ c', machine.run init timeoutOne = some c ∧ machine.step c (.exec 1 {}) = some c₁ ∧
      machine.run c₁ twoTicks = some c' ∧ ticks (machine.executed c₁ twoTicks) = 2 ∧
      ∃ fut, c'.shared.futures[0]? = some fut ∧ fut.timeout.toNat = 0 ∧
        fut.error = TIMEOUT_ERROR := by
  obtain ⟨⟨fut, hf, hzero, -⟩, -⟩ := request_times_out (rfl : machine.run init timeoutOne = some _)
    (rfl : System.executes _ (.exec 1 {} : Label Op Choice) = some (.sendRequestImpl 0)) rfl
    (rfl : machine.run _ twoTicks = some _) (by decide) (by decide)
  refine ⟨_, _, _, rfl, rfl, rfl, rfl, fut, hf, hzero, ?_⟩
  cases hf
  rfl

/-! ## Ids come round -/

/-- A thread, the one that is spawned next, sends a request. -/
def send (i : Nat) : List (Label Op Choice) :=
  [.spawn (.sendRequest (.str [0x66]) .nil), .exec i {}, .exec i {}]

/-- A number of threads do so, one after the other. -/
def sends (i : Nat) : Nat → List (Label Op Choice)
  | 0 => []
  | m + 1 => sends i m ++ send (i + m)

/-- A session that has sent one more request. -/
def sent (s : Session Source) : Session Source :=
  (s.sendRequest (.str [0x66]) .nil).sendRequestImpl s.calls.length ⟨s.msgidRr, .str [0x66], .nil⟩

theorem run_send (c : Config (Session Source) Op) :
    machine.run c (send c.threads.length) = some ⟨sent c.shared, c.threads ++ [[]]⟩ ∧
      ticks (machine.executed c (send c.threads.length)) = 0 := by
  simp [send, System.run, System.step, System.executed, System.executes, machine, Op.entry, sent,
    ticks, sendRequest, nextMsgid]

theorem run_sends (c : Config (Session Source) Op) (m : Nat) :
    machine.run c (sends c.threads.length m) =
        some ⟨sent^[m] c.shared, c.threads ++ List.replicate m []⟩ ∧
      ticks (machine.executed c (sends c.threads.length m)) = 0 := by
  induction m with
  | zero => exact ⟨by simp [sends, System.run], rfl⟩
  | succ m ih =>
    have hlen : c.threads.length + m = (c.threads ++ List.replicate m []).length := by simp
    obtain ⟨hrun, hticks⟩ := run_send ⟨sent^[m] c.shared, c.threads ++ List.replicate m []⟩
    rw [sends, hlen]
    refine ⟨?_, ?_⟩
    · rw [System.run_append, ih.1, Option.bind_some, hrun, Function.iterate_succ_apply',
        List.append_assoc, List.replicate_succ']
    · rw [System.executed_append ih.1, ticks, List.count_append]
      exact Nat.add_eq_zero_iff.2 ⟨ih.2, hticks⟩

theorem sent_lookup (s : Session Source) :
    (sent s).reqtable.lookup s.msgidRr = some s.futures.length :=
  Reqtable.lookup_insert _ _ _

theorem sent_lookup_ne (s : Session Source) {k : MsgId} (h : k ≠ s.msgidRr) :
    (sent s).reqtable.lookup k = s.reqtable.lookup k :=
  Reqtable.lookup_insert_ne h

/-- Each request gets the next id and the next future; none is handed out, and the earlier ones get no
new entry. -/
theorem iterate_sent (s : Session Source) (m : Nat) :
    (sent^[m] s).msgidRr = s.msgidRr + BitVec.ofNat 32 m ∧
      (sent^[m] s).futures.length = s.futures.length + m ∧ (sent^[m] s).handed = s.handed ∧
      ∀ k f, (sent^[m] s).reqtable.lookup k = some f → f < s.futures.length →
        s.reqtable.lookup k = some f := by
  induction m with
  | zero => exact ⟨by simp, rfl, rfl, fun _ _ hk _ => hk⟩
  | succ m ih =>
    obtain ⟨h1, h2, h3, h4⟩ := ih
    rw [Function.iterate_succ_apply']
    refine ⟨?_, ?_, h3, ?_⟩
    · show (sent^[m] s).msgidRr + 1 = _
      rw [h1, BitVec.ofNat_add, BitVec.add_assoc]
      rfl
    · simp [sent, sendRequest, nextMsgid, sendRequestImpl, h2, Nat.add_assoc]
    · intro k f hk hf
      by_cases hkey : k = (sent^[m] s).msgidRr
      · rw [hkey, sent_lookup, h2] at hk
        rw [← Option.some.inj hk] at hf
        exact absurd hf (Nat.not_lt.2 (Nat.le_add_right _ _))
      · rw [sent_lookup_ne _ hkey] at hk
        exact h4 k f hk hf

/-- When the ids have come round, the last request takes the entry of the first. -/
theorem lookup_iterate_sent {s : Session Source} {n : Nat} (hpos : n ≠ 0)
    (hn : BitVec.ofNat 32 n = 0) (hs : ∀ k, s.reqtable.lookup k ≠ some s.futures.length)
    (k : MsgId) : (sent^[n] (sent s)).reqtable.lookup k ≠ some s.futures.length := by
  intro hk
  obtain ⟨m, rfl⟩ := Nat.exists_eq_succ_of_ne_zero hpos
  have hlen : (sent s).futures.length = s.futures.length + 1 := by
    simp [sent, sendRequest, nextMsgid, sendRequestImpl]
  have hfirst := (iterate_sent (sent s) (m + 1)).2.2.2 k _ hk (by rw [hlen]; exact Nat.lt_succ_self _)
  have hkey : k = s.msgidRr := by
    by_contra hne
    rw [sent_lookup_ne s hne] at hfirst
    exact hs k hfirst
  have hid : (sent^[m] (sent s)).msgidRr = s.msgidRr := by
    rw [(iterate_sent (sent s) m).1]
    show s.msgidRr + 1#32 + BitVec.ofNat 32 m = s.msgidRr
    rw [BitVec.add_assoc, BitVec.add_comm 1#32, ← BitVec.ofNat_add m 1, hn]
    exact BitVec.add_zero _
  rw [Function.iterate_succ_apply', hkey, ← hid, sent_lookup, (iterate_sent (sent s) m).2.1, hlen]
    at hk
  have heq := Option.some.inj hk
  omega

/-- The first of 2^32 + 1 requests, with nothing answered and no tick since it was inserted, is not in
the table: the last has its id. -/
theorem request_displaced :
    ∃ c c₁ c', machine.run init [.spawn (.sendRequest (.str [0x66]) .nil), .exec 0 {}] = some c ∧
      System.executes c (.exec 0 {} : Label Op Choice) = some (.sendRequestImpl 0) ∧
      machine.step c (.exec 0 {}) = some c₁ ∧ machine.run c₁ (sends 1 (2 ^ 32)) = some c' ∧
      (∀ d ∈ c'.shared.handed, d.future ≠ c.shared.futures.length) ∧
      ticks (machine.executed c₁ (sends 1 (2 ^ 32))) ≤ c.shared.timeout.toNat ∧
      ∀ k, c'.shared.reqtable.lookup k ≠ some c.shared.futures.length := by
  obtain ⟨hrun, hticks⟩ := run_sends ⟨sent {}, [[]]⟩ (2 ^ 32)
  obtain ⟨-, -, hhanded, -⟩ := iterate_sent (sent {}) (2 ^ 32)
  refine ⟨_, _, _, rfl, rfl, rfl, hrun, ?_, Nat.le_trans (Nat.le_of_eq hticks) (Nat.zero_le _), ?_⟩
  · intro d hd
    dsimp only at hd
    rw [hhanded] at hd
    cases hd
  · exact lookup_iterate_sent (by decide) (by decide) (by simp)

end Session

end MsgpackRpc
