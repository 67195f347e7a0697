import MsgpackRpc.Session.Machine

/-!
# Every future is in the table or handed out once

In every run of a session in which fewer than 2^32 requests are sent while one is outstanding, a
future that has been inserted is in the table under its own id or has been handed out exactly once,
and what is handed out is completed exactly once by the session. The runs are those of
`Session.machine`: any interleaving of threads, with callbacks that send requests and start sweeps
in the middle of a sweep.
-/

namespace MsgpackRpc

open Threads

namespace Session

/-- The operations that send a request. -/
def Op.sends : Op → Bool
  | .sendRequest _ _ => true
  | _ => false

/-- Fewer than 2^32 requests are sent between the allocation of an id and the removal of its future
from the table. -/
def Window (s : Session Source) (ops : Multiset Op) (op : Op) (_ : Choice) : Prop :=
  op.sends = true → ∀ c ∈ s.outstanding (insertsOf ops), s.calls.length - c < 2 ^ 32

instance (s : Session Source) (ops : Multiset Op) (op : Op) (x : Choice) :
    Decidable (Window s ops op x) :=
  inferInstanceAs (Decidable (op.sends = true → _))

/-- The invariant of the runs in which ids are not reused too early. -/
structure Tracked (s : Session Source) (ops : Multiset Op) : Prop where
  conserved : Conserved s (completionsOf ops)
  numbered : Numbered s (insertsOf ops)
  window : ∀ c ∈ s.outstanding (insertsOf ops), s.calls.length ≤ c + 2 ^ 32
  displaced : s.displaced = []

/-- A step that allocates and inserts nothing, and only takes entries out of the table. -/
theorem Tracked.of_subset {s s' : Session Source} {ops ops' : Multiset Op} (h : Tracked s ops)
    (hcons : Conserved s' (completionsOf ops')) (hnum : Numbered s' (insertsOf ops'))
    (hi : insertsOf ops' = insertsOf ops) (hc : s'.calls = s.calls)
    (hv : s'.reqtable.values ⊆ s.reqtable.values)
    (hf : s'.futures.map Future.call = s.futures.map Future.call)
    (hd : s'.displaced = s.displaced) : Tracked s' ops' := by
  refine ⟨hcons, hnum, ?_, hd.trans h.displaced⟩
  intro c hc'
  rw [hc]
  rw [hi] at hc'
  exact h.window c (outstanding_subset hv hf hc')

theorem tracked_exec {s s' : Session Source} {op : Op} {rest : Multiset Op} {x : Choice}
    {k : List Op} (h : Tracked s (op ::ₘ rest)) (hG : Window s (op ::ₘ rest) op x)
    (hx : machine.exec s op x = some (s', k)) : Tracked s' (↑k + rest) := by
  have hcons := conserved_exec h.conserved hx
  have hnum := h.numbered
  cases exec_steps hx with
  | sendRequest method params =>
    obtain ⟨-, hi⟩ := of_entry (.sendRequest method params) rfl rest
    rw [hi] at hnum
    refine ⟨hcons, by simpa using hnum.sendRequest method params, ?_, h.displaced⟩
    intro c hc'
    have hlen : (s.sendRequest method params).calls.length = s.calls.length + 1 := by
      simp [Session.sendRequest, nextMsgid]
    have hc'' : c = s.calls.length ∨ c ∈ s.outstanding (insertsOf rest) := by
      rwa [Multiset.coe_singleton, Multiset.singleton_add, insertsOf_sendRequestImpl, outstanding,
        Multiset.cons_add, Multiset.mem_cons] at hc'
    rw [hlen]
    rcases hc'' with rfl | hc''
    · omega
    · have := hG rfl c (by rwa [hi])
      omega
  | @sendRequestImpl c call hc =>
    rw [insertsOf_sendRequestImpl] at hnum
    have hwin := h.window
    rw [insertsOf_sendRequestImpl] at hwin
    have hnone := hnum.lookup_eq_none h.conserved hc hwin
    refine ⟨hcons, by simpa using hnum.sendRequestImpl hc, fun c' hc' =>
      hwin c' (h.conserved.outstanding_sendRequestImpl c call (by simpa using hc')), ?_⟩
    simp [Session.sendRequestImpl, h.displaced, hnone]
  | take hop hs =>
    obtain ⟨-, hi⟩ := of_entry _ hop rest
    rw [hi] at hnum
    refine h.of_subset hcons (by simpa using hnum.hands hs) (by simp [hi]) (by rw [hs.frame])
      hs.values_subset (Future.map_eq_of_untimed (fun _ => rfl) hs.futures) (by rw [hs.frame])
  | setResult c hcalls =>
    obtain ⟨-, hi⟩ := of_entries hcalls rest
    rw [insertsOf_setResult] at hnum
    refine h.of_subset hcons (hi ▸ hnum.setResult c) (by simp [hi]) ?_ ?_ ?_ ?_
    · rw [setResult_frame]
    · rw [setResult_frame]; exact fun _ => id
    · exact setResult_futures (fun _ _ _ => rfl) s c
    · rw [setResult_frame]
  | @timedWait f _ _ _ =>
    obtain ⟨-, hi⟩ := of_entry (.timedWait f) rfl rest
    exact h.of_subset hcons (by simpa [hi] using hnum) (by simp [hi]) rfl (fun _ => id) rfl rfl
  | timedWaitReady f =>
    obtain ⟨-, hi⟩ := of_entry (.timedWait f) rfl rest
    exact h.of_subset hcons (by simpa [hi] using hnum) (by simp [hi]) rfl (fun _ => id) rfl rfl
  | timedWaitExpired f =>
    rw [insertsOf_timedWaitExpired] at hnum
    exact h.of_subset hcons (by simpa using hnum) (by simp) rfl (fun _ => id) rfl rfl
  | attachCallback f func =>
    obtain ⟨-, hi⟩ := of_entry (.attachCallback f func) rfl rest
    rw [hi] at hnum
    refine h.of_subset hcons (by simpa using hnum.quiet (quiet_attachCallback s f func))
      (by simp [hi]) ?_ ?_
      (attachCallback_futures (fun _ _ => rfl) s f func) ?_
    · rw [attachCallback_frame]
    · rw [attachCallback_frame]; exact fun _ => id
    · rw [attachCallback_frame]
  | runPosted hcalls =>
    obtain ⟨-, hi⟩ := of_entry .runPosted rfl rest
    obtain ⟨-, hi'⟩ := of_entries hcalls rest
    rw [hi] at hnum
    have hq := quiet_runPosted s
    refine h.of_subset hcons (hi' ▸ hnum.quiet hq) (hi'.trans hi.symm) ?_ ?_ ?_ ?_
    · rw [runPosted_frame]
    · rw [runPosted_frame]; exact fun _ => id
    · rw [runPosted_frame]
    · rw [runPosted_frame]
  | setTimeout sec =>
    obtain ⟨-, hi⟩ := of_entry (.setTimeout sec) rfl rest
    rw [hi] at hnum
    have hnum' : Numbered (s.setTimeout sec) (insertsOf rest) := hnum.congr rfl rfl rfl
    exact h.of_subset hcons (by simpa using hnum') (by simp [hi]) rfl (fun _ => id) rfl rfl

/-- Every reachable state is tracked. -/
theorem tracked_run {ls : List (Label Op Choice)} {c : Config (Session Source) Op}
    (hwin : machine.Meets Window init ls) (hrun : machine.run init ls = some c) :
    Tracked c.shared c.pending := by
  refine machine.invariant (G := Window) Tracked ?_ (fun _ _ _ _ _ _ => tracked_exec) ?_ hwin hrun
  · intro s ops op h hop
    obtain ⟨hc, hi⟩ := of_entry _ hop ops
    exact h.of_subset (hc ▸ h.conserved) (hi ▸ h.numbered) hi rfl (fun _ => id) rfl rfl
  · exact ⟨conserved_init 30, numbered_init 30, fun c _ => Nat.zero_le _, rfl⟩

/-- How often a future has been handed out. -/
def handedCount (s : Session Source) (f : FutureId) : Nat :=
  s.handed.countP fun c => c.future = f

theorem handedCount_eq_count (s : Session Source) (f : FutureId) :
    s.handedCount f = (s.handed.map Completion.future).count f := by
  rw [handedCount, List.count_eq_countP, List.countP_map]
  rfl

/-- How often the session has called `set_result` on a future. -/
def setResultCount (s : Session Source) (f : FutureId) : Nat :=
  s.completions.countP fun c => c.future = f ∧ c.extracted.isSome

/-- How often the session will still call `set_result` on a future. -/
def pendingCount (ops : Multiset Op) (f : FutureId) : Nat :=
  (completionsOf ops).countP fun c => c.future = f ∧ c.extracted.isSome

/-- A future is once in the table or once handed out. -/
theorem Tracked.count {s : Session Source} {ops : Multiset Op} (h : Tracked s ops) {f : FutureId}
    (hf : f < s.futures.length) : s.reqtable.values.count f + s.handedCount f = 1 := by
  have hcount := congrArg (Multiset.count f) h.conserved.futures
  rw [h.displaced, Multiset.coe_nil, add_zero, Multiset.count_add, Multiset.coe_count,
    Multiset.count_eq_one_of_mem (Multiset.nodup_range _) (Multiset.mem_range.2 hf)] at hcount
  rw [← hcount, handedCount_eq_count]

/-- What has been handed out has been completed, or its completion is pending. -/
theorem Tracked.setResults {s : Session Source} {ops : Multiset Op} (h : Tracked s ops)
    (f : FutureId) : s.setResultCount f + pendingCount ops f = s.handedCount f := by
  have hcount := congrArg (Multiset.countP fun c => c.future = f) h.conserved.handed
  rw [Multiset.countP_filter, Multiset.countP_add, Multiset.coe_countP, Multiset.coe_countP]
    at hcount
  exact hcount.symm

/-- **Conservation of outstanding requests.** At every moment of a run in which fewer than 2^32
requests are sent while one is outstanding, each future ever inserted is in the table under its own
id and no other, or has been handed out exactly once, and not both; the session calls `set_result`
exactly once for each time a future is handed out; and it completes no future that was inserted
after its operation had extracted what it completes. -/
theorem futures_conserved {ls : List (Label Op Choice)} {c : Config (Session Source) Op}
    (hwin : machine.Meets Window init ls) (hrun : machine.run init ls = some c) :
    (∀ f fut, c.shared.futures[f]? = some fut →
      ((∀ k, c.shared.reqtable.lookup k = some f ↔ k = fut.msgid) ∧ c.shared.handedCount f = 0) ∨
        ((∀ k, c.shared.reqtable.lookup k ≠ some f) ∧ c.shared.handedCount f = 1)) ∧
      (∀ f, c.shared.setResultCount f + pendingCount c.pending f = c.shared.handedCount f) ∧
      ∀ d ∈ c.shared.completions, ∀ b, d.extracted = some b → d.future < b := by
  have h := tracked_run hwin hrun
  refine ⟨?_, h.setResults, ?_⟩
  · intro f fut hf
    have hcount := h.count (List.getElem?_eq_some_iff.1 hf).1
    by_cases hmem : f ∈ c.shared.reqtable.values
    · have hpos := Multiset.count_pos.2 hmem
      have hkey {k : MsgId} (hk : c.shared.reqtable.lookup k = some f) : k = fut.msgid := by
        have := h.conserved.keys k f hk
        rw [List.getElem?_map, hf] at this
        exact (Option.some.inj this).symm
      obtain ⟨k, hk⟩ := Reqtable.mem_values.1 hmem
      refine .inl ⟨fun k' => ⟨hkey, ?_⟩, by omega⟩
      intro hk'
      rw [hk', ← hkey hk]
      exact hk
    · refine .inr ⟨fun k hk => hmem (Reqtable.mem_values.2 ⟨k, hk⟩), ?_⟩
      rw [Multiset.count_eq_zero_of_notMem hmem] at hcount
      omega
  · intro d hd b hb
    have hmem : d ∈ (↑c.shared.handed : Multiset (Completion Source)) := by
      rw [h.conserved.handed, Multiset.mem_filter, Multiset.mem_add]
      exact ⟨.inl (Multiset.mem_coe.2 hd), by rw [hb]; rfl⟩
    obtain ⟨b', hb', hlt⟩ := h.conserved.early d (Multiset.mem_coe.1 hmem)
    rw [hb] at hb'
    cases hb'
    exact hlt

/-- A failure completes a request whose callback sends another one and reports a failure itself. -/
def nestedSweep : List (Label Op Choice) :=
  [.spawn (.sendRequest (.str [0x66]) .nil), .exec 0 {}, .exec 0 {},
    .spawn (.attachCallback 0 7), .exec 1 {},
    .spawn .onSystemError, .exec 2 { it := [⟨1, 0⟩] },
    .exec 2 { calls := [.sendRequest (.str [0x67]) .nil, .onConnectFailed] },
    .exec 2 {}, .exec 2 {}, .exec 2 { it := [⟨2, 1⟩] }, .exec 2 {}]

theorem futures_conserved_nestedSweep :
    ∃ c, machine.run init nestedSweep = some c ∧ c.shared.futures.length = 2 ∧
      ∀ f, c.shared.setResultCount f + pendingCount c.pending f = c.shared.handedCount f :=
  ⟨_, rfl, rfl, (futures_conserved (by decide : machine.Meets Window init nestedSweep) rfl).2.1⟩

end Session

end MsgpackRpc
