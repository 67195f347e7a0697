import MsgpackRpc.Tcp.Locks

/-!
# The owners of the locks

In every run the mutexes that are taken are those that some thread has to give back, each by one
thread (`locks_owned`). Along with it goes what makes it safe for `set_result` to run a callback while
it keeps the mutex of the future: the future is ready by then, nothing is submitted to the loop for
it, and it is out of the table unless it was completed by a wait that had run out.
-/

namespace MsgpackRpc

open Threads

namespace Tcp

namespace Locks

open Session (Ready)

/-! ## Futures, callbacks and the table -/

/-- Only a pending future keeps a callback, only those of ready futures are submitted, and the futures
in the table are different and have been constructed. -/
structure Tidy (s : Session Origin) : Prop where
  callback : ∀ p ∈ s.futures.map fun f => (f.callback, f.session), p.1.isSome = true → p.2 = true
  posted : ∀ p ∈ s.posted, Ready s p.2
  nodup : s.reqtable.values.Nodup
  lt : ∀ f ∈ s.reqtable.values, f < s.futures.length

/-- What no operation undoes: a future stays completed, and does not get back into the table. -/
structure Later (s s' : Session Origin) : Prop where
  ready : ∀ f, Ready s f → Ready s' f
  values : ∀ f ∈ s'.reqtable.values, f ∈ s.reqtable.values ∨ s.futures.length ≤ f
  length : s.futures.length ≤ s'.futures.length

theorem Later.refl (s : Session Origin) : Later s s := ⟨fun _ h => h, fun _ h => .inl h, Nat.le_refl _⟩

section
variable {s s' : Session Origin} {cs : List (Completion Origin)}

/-- A future that was out of the table stays out of it. -/
theorem Later.notMem (h : Later s s') {f : FutureId} (hlt : f < s.futures.length)
    (hf : f ∉ s.reqtable.values) : f ∉ s'.reqtable.values := by
  intro hmem
  rcases h.values f hmem with hmem | hge
  · exact hf hmem
  · exact absurd hlt (Nat.not_lt.2 hge)

/-- **The client's operations** on the session. -/
theorem Moves.tidy (h : Moves s s' cs) (ht : Tidy s) :
    Tidy s' ∧ Later s s' ∧ s'.posted = s.posted ∧
      ∀ d ∈ cs, d.future ∈ s.reqtable.values ∧ d.future ∉ s'.reqtable.values := by
  cases h with
  | same => exact ⟨ht, .refl s, rfl, by simp⟩
  | sendRequest method params => exact ⟨⟨ht.callback, ht.posted, ht.nodup, ht.lt⟩,
      ⟨fun _ h => h, fun _ h => .inl h, Nat.le_refl _⟩, rfl, by simp⟩
  | insert c call =>
    have hlen : (s.sendRequestImpl c call).futures.length = s.futures.length + 1 := by
      simp [Session.sendRequestImpl]
    have hready : ∀ f, Ready s f → Ready (s.sendRequestImpl c call) f :=
      fun f hf => hf.sendRequestImpl c call
    have hvalues : ∀ f ∈ (s.sendRequestImpl c call).reqtable.values,
        f ∈ s.reqtable.values ∨ f = s.futures.length := by
      intro f hf
      rw [Session.sendRequestImpl, Reqtable.values_insert, Multiset.mem_cons] at hf
      rcases hf with rfl | hf
      · exact .inr rfl
      · exact .inl (Multiset.mem_of_le (Reqtable.values_erase_le _ _) hf)
    refine ⟨⟨?_, fun p hp => hready p.2 (ht.posted p hp), ?_, ?_⟩,
      ⟨hready, fun f hf => (hvalues f hf).imp_right fun he => Nat.le_of_eq he.symm, by omega⟩, rfl,
      by simp⟩
    · intro p hp hsome
      rw [Session.sendRequestImpl, List.map_append, List.mem_append] at hp
      rcases hp with hp | hp
      · exact ht.callback p hp hsome
      · obtain rfl := List.mem_singleton.1 hp
        cases hsome
    · rw [Session.sendRequestImpl, Reqtable.values_insert, Multiset.nodup_cons]
      refine ⟨?_, Multiset.nodup_of_le (Reqtable.values_erase_le _ _) ht.nodup⟩
      intro hmem
      exact absurd (ht.lt _ (Multiset.mem_of_le (Reqtable.values_erase_le _ _) hmem))
        (Nat.lt_irrefl _)
    · intro f hf
      rw [hlen]
      rcases hvalues f hf with hf | rfl
      · exact Nat.lt_succ_of_lt (ht.lt f hf)
      · exact Nat.lt_succ_self _
  | hands hh =>
    have hcallback : s'.futures.map (fun f => (f.callback, f.session)) =
        s.futures.map fun f => (f.callback, f.session) :=
      Future.map_eq_of_untimed (fun _ => rfl) hh.futures
    have hlen : s'.futures.length = s.futures.length := by
      simpa using congrArg List.length hcallback
    have hposted : s'.posted = s.posted := by rw [hh.frame]
    have hready : ∀ f, Ready s f → Ready s' f := fun f hf => hf.hands hh
    have hnodup := ht.nodup
    rw [hh.values, Multiset.nodup_add] at hnodup
    refine ⟨⟨hcallback ▸ ht.callback, ?_, hnodup.2.1, ?_⟩,
      ⟨hready, fun f hf => .inl (hh.values_subset hf), hlen.ge⟩, hposted, ?_⟩
    · rw [hposted]
      exact fun p hp => hready p.2 (ht.posted p hp)
    · intro f hf
      rw [hlen]
      exact ht.lt f (hh.values_subset hf)
    · intro d hd
      refine ⟨hh.mem_values hd, ?_⟩
      exact Multiset.disjoint_left.1 hnodup.2.2 (Multiset.mem_coe.2 (List.mem_map_of_mem hd))

/-- **A completion.** The future is ready after it. If a callback runs, the future was pending and
nothing is submitted for it. -/
theorem tidy_setResult (ht : Tidy s) (d : Completion Origin) :
    Tidy (s.setResult d).1 ∧ Later s (s.setResult d).1 ∧ (s.setResult d).1.posted = s.posted ∧
      ((s.setResult d).2.isSome = true →
        Ready (s.setResult d).1 d.future ∧ ∀ p ∈ s.posted, p.2 ≠ d.future) := by
  have htable : (s.setResult d).1.reqtable = s.reqtable := by rw [Session.setResult_frame]
  have hposted : (s.setResult d).1.posted = s.posted := by rw [Session.setResult_frame]
  have hlen := Session.setResult_length s d
  have hready : ∀ f, Ready s f → Ready (s.setResult d).1 f := fun f hf => hf.setResult d
  refine ⟨⟨?_, ?_, htable ▸ ht.nodup, ?_⟩, ⟨hready, fun f hf => .inl (htable ▸ hf), hlen.ge⟩, hposted,
    ?_⟩
  · intro p hp hsome
    unfold Session.setResult at hp
    dsimp only at hp
    split at hp
    · exact ht.callback p hp hsome
    · next fut _ =>
      rw [List.map_set] at hp
      rcases List.mem_or_eq_of_mem_set hp with hp | rfl
      · exact ht.callback p hp hsome
      · cases hsome
  · rw [hposted]
    exact fun p hp => hready p.2 (ht.posted p hp)
  · rw [hlen, htable]
    exact ht.lt
  · intro hsome
    unfold Session.setResult at hsome
    dsimp only at hsome
    split at hsome
    · cases hsome
    · next fut hf =>
      have hmem : (fut.callback, fut.session) ∈ s.futures.map fun f => (f.callback, f.session) :=
        List.mem_map_of_mem (List.mem_of_getElem? hf)
      have hpending : (s.futures.map Future.session)[d.future]? = some true := by
        rw [List.getElem?_map, hf]
        exact congrArg some (ht.callback _ hmem hsome)
      refine ⟨Session.ready_setResult (List.getElem?_eq_some_iff.1 hf).1, ?_⟩
      intro p hp he
      have hr := ht.posted p hp
      rw [Ready, he, hpending] at hr
      cases hr

/-- **Attaching a callback** to a future. -/
theorem tidy_attachCallback (ht : Tidy s) (f : FutureId) (func : Callback) :
    Tidy (s.attachCallback f func) ∧ Later s (s.attachCallback f func) ∧
      ∀ p ∈ (s.attachCallback f func).posted, p ∈ s.posted ∨ p.2 = f := by
  have htable : (s.attachCallback f func).reqtable = s.reqtable := by
    rw [Session.attachCallback_frame]
  have hlen : (s.attachCallback f func).futures.length = s.futures.length := by
    simpa using congrArg List.length
      (Session.attachCallback_futures (g := Future.session) (fun _ _ => rfl) s f func)
  have hready : ∀ g, Ready s g → Ready (s.attachCallback f func) g :=
    fun g hg => hg.attachCallback f func
  have hposted : ∀ p ∈ (s.attachCallback f func).posted, p ∈ s.posted ∨ p.2 = f ∧ Ready s f := by
    intro p hp
    unfold Session.attachCallback at hp
    split at hp
    · exact .inl hp
    · next fut hf =>
      rcases List.mem_append.1 hp with hp | hp
      · exact .inl hp
      · unfold Future.attachCallback at hp
        split at hp
        · cases hp
        · next hnone =>
          obtain rfl := List.mem_singleton.1 hp
          refine .inr ⟨rfl, ?_⟩
          rw [Ready, List.getElem?_map, hf]
          exact congrArg some (Bool.eq_false_iff.2 hnone)
  refine ⟨⟨?_, ?_, htable ▸ ht.nodup, ?_⟩, ⟨hready, fun g hg => .inl (htable ▸ hg), hlen.ge⟩,
    fun p hp => (hposted p hp).imp_right And.left⟩
  · intro p hp hsome
    unfold Session.attachCallback at hp
    split at hp
    · exact ht.callback p hp hsome
    · next fut hf =>
      have hmem : (fut.callback, fut.session) ∈ s.futures.map fun f => (f.callback, f.session) :=
        List.mem_map_of_mem (List.mem_of_getElem? hf)
      rw [List.map_set] at hp
      rcases List.mem_or_eq_of_mem_set hp with hp | rfl
      · exact ht.callback p hp hsome
      · unfold Future.attachCallback at hsome ⊢
        split at hsome
        · next hpending =>
          rw [if_pos hpending]
          exact hpending
        · next hnone =>
          rw [if_neg hnone]
          exact ht.callback _ hmem hsome
  · intro p hp
    rcases hposted p hp with hp | ⟨hpf, hf⟩
    · exact hready p.2 (ht.posted p hp)
    · rw [hpf]
      exact hready f hf
  · rw [hlen, htable]
    exact ht.lt

/-- **Running a submitted callback.** -/
theorem tidy_runPosted (ht : Tidy s) :
    Tidy s.runPosted ∧ Later s s.runPosted ∧ ∀ p ∈ s.runPosted.posted, p ∈ s.posted := by
  have hfutures : s.runPosted.futures = s.futures := by rw [Session.runPosted_frame]
  have htable : s.runPosted.reqtable = s.reqtable := by rw [Session.runPosted_frame]
  have hposted : ∀ p ∈ s.runPosted.posted, p ∈ s.posted := by
    intro p hp
    unfold Session.runPosted at hp
    split at hp
    · exact hp
    · next func f posted he =>
      rw [he]
      split at hp <;> exact .tail _ hp
  have hready : ∀ f, Ready s f → Ready s.runPosted f := fun f hf => hf.runPosted
  refine ⟨⟨hfutures ▸ ht.callback, fun p hp => hready p.2 (ht.posted p (hposted p hp)),
    htable ▸ ht.nodup, ?_⟩, ⟨hready, fun f hf => .inl (htable ▸ hf), ?_⟩, hposted⟩
  · rw [hfutures, htable]
    exact ht.lt
  · rw [hfutures]

end

/-! ## Owners -/

/-- The mutexes of futures that are taken are those that some thread has to give back, each by one
thread, and that of the transport is taken if one thread is inside `connect`. The futures are ready,
and nothing is submitted for them. A completion of a future that was taken out of the table is pending
only while the future is out of it. -/
structure Owned (s : Locks) (ops : Multiset Op) : Prop where
  tidy : Tidy s.client.session
  held : (↑s.held : Multiset FutureId) = ops.filterMap Op.unlocks
  nodup : s.held.Nodup
  transport : ops.countP (fun o => o.connects) = if s.client.locked then 1 else 0
  ready : ∀ f ∈ s.held, Ready s.client.session f ∧ ∀ p ∈ s.client.session.posted, p.2 ≠ f
  handed : ∀ d, .setResult d ∈ ops → d.extracted.isSome = true →
    d.future < s.client.session.futures.length ∧ d.future ∉ s.client.session.reqtable.values

section
variable {s s' : Locks} {op : Op} {ops rest : Multiset Op} {k : List Op}

theorem filterMap_unlock (f : FutureId) (ops : Multiset Op) :
    (Op.unlock f ::ₘ ops).filterMap Op.unlocks = f ::ₘ ops.filterMap Op.unlocks :=
  Multiset.filterMap_cons_some _ _ _ rfl

theorem countP_cons (op : Op) (ops : Multiset Op) :
    (op ::ₘ ops).countP (fun o => o.connects) =
      ops.countP (fun o => o.connects) + if op.connects then 1 else 0 :=
  Multiset.countP_cons _ _ _

theorem Owned.mem_held (h : Owned s ops) {f : FutureId} (hf : .unlock f ∈ ops) : f ∈ s.held := by
  rw [← Multiset.mem_coe, h.held]
  exact (Multiset.mem_filterMap _ _).2 ⟨.unlock f, hf, rfl⟩

theorem owned_init (connectTimeout reconnectLimit : Int) (timeout : BitVec 32) :
    Owned (init connectTimeout reconnectLimit timeout).shared 0 := by
  refine ⟨⟨?_, ?_, ?_, ?_⟩, rfl, ?_, ?_, ?_, ?_⟩ <;> simp [init, Tcp.init]

/-- A step that stays inside or outside `connect`. -/
theorem Owned.transport_of (h : Owned s (op ::ₘ rest))
    (hcount : k.countP Op.connects = [op].countP Op.connects)
    (hl : s'.client.locked = s.client.locked) :
    (↑k + rest).countP (fun o => o.connects) = if s'.client.locked then 1 else 0 := by
  have ht := h.transport
  rw [← Multiset.singleton_add, ← Multiset.coe_singleton, Multiset.countP_add,
    Multiset.coe_countP] at ht
  rw [Multiset.countP_add, Multiset.coe_countP, hl, ← ht]
  exact congrArg (· + _) (by simpa using hcount)

/-- An operation that takes and gives back no mutex of a future for longer than its step. -/
theorem Owned.step (h : Owned s (op ::ₘ rest)) (hop : op.unlocks = none)
    (hk : ∀ o ∈ k, o.unlocks = none) (hheld : s'.held = s.held)
    (htidy : Tidy s'.client.session) (hlater : Later s.client.session s'.client.session)
    (hposted : ∀ p ∈ s'.client.session.posted, p ∈ s.client.session.posted ∨ p.2 ∉ s.held)
    (hnew : ∀ d, .setResult d ∈ k → d.extracted.isSome = true →
      d.future < s.client.session.futures.length ∧ d.future ∉ s'.client.session.reqtable.values)
    (htransport : (↑k + rest).countP (fun o => o.connects) = if s'.client.locked then 1 else 0) :
    Owned s' (↑k + rest) := by
  refine ⟨htidy, ?_, hheld ▸ h.nodup, htransport, ?_, ?_⟩
  · have hnone : (↑k : Multiset Op).filterMap Op.unlocks = 0 := by
      rw [Multiset.filterMap_coe, List.filterMap_eq_nil_iff.2 hk]
      rfl
    rw [hheld, h.held, Multiset.filterMap_cons_none _ _ hop, Multiset.filterMap_add, hnone, zero_add]
  · intro f hf
    rw [hheld] at hf
    obtain ⟨hready, hnone⟩ := h.ready f hf
    refine ⟨hlater.ready f hready, ?_⟩
    intro p hp he
    rcases hposted p hp with hp | hp
    · exact hnone p hp he
    · exact hp (he ▸ hf)
  · intro d hd hsome
    rcases Multiset.mem_add.1 hd with hd | hd
    · obtain ⟨hlt, hout⟩ := hnew d (Multiset.mem_coe.1 hd) hsome
      exact ⟨Nat.lt_of_lt_of_le hlt hlater.length, hout⟩
    · obtain ⟨hlt, hout⟩ := h.handed d (Multiset.mem_cons_of_mem hd) hsome
      exact ⟨Nat.lt_of_lt_of_le hlt hlater.length, hlater.notMem hlt hout⟩

/-- An operation that changes nothing. -/
theorem Owned.quiet (h : Owned s (op ::ₘ rest)) (hop : op.unlocks = none)
    (hk : ∀ o ∈ k, o.unlocks = none) (hnew : ∀ d, .setResult d ∈ k → d.extracted = none)
    (hcount : k.countP Op.connects = [op].countP Op.connects) : Owned s (↑k + rest) := by
  refine h.step hop hk rfl h.tidy (.refl _) (fun p hp => .inl hp) ?_ (h.transport_of hcount rfl)
  intro d hd hsome
  rw [hnew d hd] at hsome
  cases hsome

/-- The mutex of a future is taken and kept. -/
theorem Owned.lock (h : Owned s ops) {f : FutureId} (hfree : f ∉ s.held)
    (hready : Ready s.client.session f ∧ ∀ p ∈ s.client.session.posted, p.2 ≠ f) :
    Owned { s with held := f :: s.held } (.unlock f ::ₘ ops) := by
  refine ⟨h.tidy, ?_, List.nodup_cons.2 ⟨hfree, h.nodup⟩, ?_, ?_, ?_⟩
  · rw [filterMap_unlock, ← h.held]
    rfl
  · rw [countP_cons]
    exact h.transport
  · intro g hg
    rcases List.mem_cons.1 hg with rfl | hg
    · exact hready
    · exact h.ready g hg
  · intro d hd
    exact h.handed d ((Multiset.mem_cons.1 hd).resolve_left (by simp))

/-- It is given back. -/
theorem Owned.unlock {f : FutureId} (h : Owned s (.unlock f ::ₘ rest)) :
    Owned { s with held := s.held.erase f } rest := by
  refine ⟨h.tidy, ?_, h.nodup.erase f, ?_, fun g hg => h.ready g (List.mem_of_mem_erase hg), ?_⟩
  · have hheld := h.held
    rw [filterMap_unlock] at hheld
    rw [← Multiset.coe_erase, hheld, Multiset.erase_cons_head]
  · have ht := h.transport
    rw [countP_cons] at ht
    exact ht
  · exact fun d hd => h.handed d (Multiset.mem_cons_of_mem hd)

theorem unlocks_lift (op : Tcp.Op) : (lift op).unlocks = none := by
  cases op <;> rfl

theorem connects_lift (op : Tcp.Op) : (lift op).connects = op.connects := by
  cases op <;> rfl

theorem countP_map_lift (k : List Tcp.Op) :
    (k.map lift).countP Op.connects = k.countP Tcp.Op.connects := by
  rw [List.countP_map]
  exact congrArg (k.countP ·) (funext connects_lift)

theorem unlocks_of_own {f : FutureId} (h : op.own f = true) : op.unlocks = none := by
  cases op <;> first | rfl | cases h

theorem connects_of_own {f : FutureId} (h : op.own f = true) : op.connects = false := by
  cases op with
  | tcp op => cases op <;> first | rfl | cases h
  | _ => rfl

theorem countP_of_own {f : FutureId} {calls : List Op} (h : ∀ o ∈ calls, o.own f = true) :
    calls.countP Op.connects = 0 := by
  rw [List.countP_eq_zero]
  intro o ho
  rw [connects_of_own (h o ho)]
  exact Bool.false_ne_true

/-- The calls of a callback complete nothing by themselves. -/
theorem setResult_notMem_of_own {f : FutureId} {calls : List Op}
    (h : ∀ o ∈ calls, o.own f = true) (d : Completion Origin) : .setResult d ∉ calls := by
  intro hd
  cases h _ hd

theorem mem_map_lift {d : Completion Origin} {k : List Tcp.Op} (h : .setResult d ∈ k.map lift) :
    .setResult d ∈ k := by
  obtain ⟨op, hop, he⟩ := List.mem_map.1 h
  cases op <;> cases he
  exact hop

/-- An operation of the client. -/
theorem Owned.leads {op : Tcp.Op} {client : Client} {k : List Tcp.Op}
    (h : Owned s (.tcp op ::ₘ rest)) (hl : Leads s.client op client k) :
    Owned { s with client } (↑(k.map lift) + rest) := by
  obtain ⟨cs, hmoves, hcs⟩ := hl.session
  obtain ⟨htidy, hlater, hposted, hout⟩ := hmoves.tidy h.tidy
  refine h.step rfl ?_ rfl htidy hlater ?_ ?_ ?_
  · intro o ho
    obtain ⟨o', -, rfl⟩ := List.mem_map.1 ho
    exact unlocks_lift o'
  · exact fun p hp => .inl (hposted ▸ hp)
  · intro d hd _
    obtain ⟨hin, hgone⟩ := hout d (hcs d (mem_map_lift hd))
    exact ⟨h.tidy.lt _ hin, hgone⟩
  · have hcount := countP_map_lift k
    rcases hl.locked with ⟨hsame, hk⟩ | ⟨rfl, rfl, hfree⟩ | ⟨c, rfl, rfl, hfree, htaken⟩
    · have hlocked : ({ s with client } : Locks).client.locked = s.client.locked := hsame
      exact h.transport_of (hcount.trans hk) hlocked
    · have ht := h.transport
      have hpos : (Op.tcp .unlock).connects = true := rfl
      rw [countP_cons, if_pos hpos] at ht
      rw [hfree, List.map_nil, Multiset.coe_nil, zero_add]
      split at ht
      · exact Nat.succ.inj ht
      · cases ht
    · have ht := h.transport
      rw [hfree, countP_cons] at ht
      rw [htaken, List.map_singleton, Multiset.coe_singleton, Multiset.singleton_add, countP_cons]
      exact congrArg (· + 1) ht

/-- An operation that runs a callback, as far as the calls of the callback go. -/
theorem Owned.calls {f : FutureId} {calls : List Op} {session : Session Origin}
    (h : Owned s (op ::ₘ rest)) (hop : op.unlocks = none) (hconn : op.connects = false)
    (hown : ∀ o ∈ calls, o.own f = true) (htidy : Tidy session)
    (hlater : Later s.client.session session)
    (hposted : ∀ p ∈ session.posted, p ∈ s.client.session.posted) :
    Owned (s.withSession session) (↑calls + rest) := by
  refine h.step hop (fun o ho => unlocks_of_own (hown o ho)) rfl htidy hlater
    (fun p hp => .inl (hposted p hp)) (fun d hd => absurd hd (setResult_notMem_of_own hown d)) ?_
  refine h.transport_of ?_ rfl
  rw [countP_of_own hown, List.countP_singleton, hconn]
  rfl

/-- The handlers that a wait runs itself. -/
theorem Owned.recv {f : FutureId} {calls : List Tcp.Op} (h : Owned s (.wait f ::ₘ rest))
    (hcalls : ∀ o ∈ calls, o.handler = true) :
    Owned s (↑(calls.map lift ++ [Op.wait f]) + rest) := by
  have hmem : ∀ o ∈ calls.map lift ++ [Op.wait f], o.unlocks = none ∧ ∀ d, o ≠ .setResult d := by
    intro o ho
    rcases List.mem_append.1 ho with ho | ho
    · refine ⟨?_, ?_⟩
      · obtain ⟨o', -, rfl⟩ := List.mem_map.1 ho
        exact unlocks_lift o'
      · rintro d rfl
        cases hcalls _ (mem_map_lift ho)
    · obtain rfl := List.mem_singleton.1 ho
      exact ⟨rfl, by simp⟩
  refine h.quiet rfl (fun o ho => (hmem o ho).1) (fun d hd => absurd rfl ((hmem _ hd).2 d)) ?_
  rw [List.countP_append, countP_map_lift, List.countP_eq_zero.2]
  · rfl
  · intro o ho
    rw [handler_connects (hcalls o ho)]
    exact Bool.false_ne_true

/-- **Every step keeps the owners.** -/
theorem owned_exec {x : Choice} (h : Owned s (op ::ₘ rest))
    (hx : machine.exec s op x = some (s', k)) : Owned s' (↑k + rest) := by
  cases exec_steps hx with
  | tcp hl => exact h.leads hl
  | sendNotify | timedWait | timedWaitReady | timedWaitExpired | waitReady | waitRunning
  | runPostedNone => exact h.quiet rfl (by simp [Op.unlocks]) (by simp) rfl
  | attachCallback func hfree =>
    obtain ⟨htidy, hlater, hposted⟩ := tidy_attachCallback h.tidy _ func
    exact h.step rfl (by simp) rfl htidy hlater
      (fun p hp => (hposted p hp).imp_right fun he => by rw [he]; exact hfree) (by simp)
      (h.transport_of rfl rfl)
  | waitRecv _ _ hcalls => exact h.recv hcalls
  | runPosted _ hown =>
    obtain ⟨htidy, hlater, hposted⟩ := tidy_runPosted h.tidy
    exact h.calls rfl rfl hown htidy hlater hposted
  | @setResult d session hfree hr =>
    obtain ⟨htidy, hlater, hposted, -⟩ := tidy_setResult h.tidy d
    rw [hr] at htidy hlater hposted
    exact h.step rfl (by simp) rfl htidy hlater (fun p hp => .inl (hposted ▸ hp)) (by simp)
      (h.transport_of rfl rfl)
  | @setResultCallback d session func hfree hr hown =>
    obtain ⟨htidy, hlater, hposted, hcallback⟩ := tidy_setResult h.tidy d
    rw [hr] at htidy hlater hposted hcallback
    obtain ⟨hready, hnone⟩ := hcallback rfl
    have hcalls := h.calls rfl rfl hown htidy hlater fun p hp => hposted ▸ hp
    have hlock := hcalls.lock hfree ⟨hready, fun p hp => hnone p (hposted ▸ hp)⟩
    rw [← Multiset.coe_add, add_comm (↑x.calls : Multiset Op), add_assoc,
      Multiset.coe_singleton, Multiset.singleton_add]
    exact hlock
  | unlock f =>
    rw [Multiset.coe_nil, zero_add]
    exact h.unlock

/-- A new thread holds no lock. -/
theorem entry_takes_nothing (h : op.entry = true) :
    op.unlocks = none ∧ op.connects = false ∧ ∀ d, op ≠ .setResult d := by
  cases op with
  | tcp op =>
    have he : op.entry = true := (Bool.and_eq_true_iff.1 h).1
    refine ⟨rfl, ?_, by simp⟩
    cases op <;> first | rfl | cases he
  | timedWaitExpired | setResult | unlock => cases h
  | _ => exact ⟨rfl, rfl, by simp⟩

/-- **The locks have owners**, in every run. -/
theorem locks_owned {connectTimeout reconnectLimit : Int} {timeout : BitVec 32}
    {ls : List (Label Op Choice)} {c : Config Locks Op}
    (hrun : machine.run (init connectTimeout reconnectLimit timeout) ls = some c) :
    Owned c.shared c.pending := by
  refine System.invariant (G := fun _ _ _ _ => True) Owned ?_ ?_
    (owned_init connectTimeout reconnectLimit timeout) (System.meets_true _ _) hrun
  · intro s ops op h he
    obtain ⟨hun, hconn, hset⟩ := entry_takes_nothing he
    refine ⟨h.tidy, ?_, h.nodup, ?_, h.ready, ?_⟩
    · rw [Multiset.filterMap_cons_none _ _ hun]
      exact h.held
    · rw [countP_cons, hconn]
      exact h.transport
    · intro d hd
      exact h.handed d ((Multiset.mem_cons.1 hd).resolve_left fun he => hset d he.symm)
  · intro s op rest x s' k h _ hx
    exact owned_exec h hx

end

end Locks

end Tcp

end MsgpackRpc
