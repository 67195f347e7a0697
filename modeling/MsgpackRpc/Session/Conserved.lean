import Mathlib.Data.Multiset.Range
import Mathlib.Tactic.Abel
import MsgpackRpc.Session.Basic

/-!
# Conservation of outstanding requests

A future that has been inserted is in the table, or has been handed out by one of the operations
that complete futures, or has lost its entry to a later insertion under the same id. `Conserved`
says that it is exactly one of these, as an equation between multisets, and that the completions
handed out are those made and those still to be made. It is an invariant of a session together with
the completions pending in whatever runs it, and every operation preserves it.
-/

namespace MsgpackRpc

namespace Session

section
variable {ι : Type}

/-- Where the futures of a session are, when `pending` are the completions still to be made. -/
structure Conserved (s : Session ι) (pending : Multiset (Completion ι)) : Prop where
  futures : s.reqtable.values + ↑(s.handed.map Completion.future) + ↑s.displaced =
    Multiset.range s.futures.length
  keys : ∀ k f, s.reqtable.lookup k = some f → (s.futures.map Future.msgid)[f]? = some k
  handed : (↑s.handed : Multiset (Completion ι)) =
    (↑s.completions + pending).filter fun c => c.extracted.isSome
  early : ∀ c ∈ s.handed, ∃ b, c.extracted = some b ∧ c.future < b

variable {s s' : Session ι} {pending : Multiset (Completion ι)}

/-- A session that has sent nothing. -/
theorem conserved_init (timeout : BitVec 32) : Conserved ({ timeout } : Session ι) 0 :=
  ⟨rfl, fun _ _ h => by simp at h, rfl, fun _ h => by simp at h⟩

/-- A future in the table has been constructed. -/
theorem Conserved.lt_length (h : Conserved s pending) {f : FutureId} (hf : f ∈ s.reqtable.values) :
    f < s.futures.length := by
  rw [← Multiset.mem_range, ← h.futures, Multiset.mem_add, Multiset.mem_add]
  exact .inl (.inl hf)

/-- So has a future that was handed out. -/
theorem Conserved.handed_lt_length (h : Conserved s pending) {c : Completion ι}
    (hc : c ∈ s.handed) : c.future < s.futures.length := by
  rw [← Multiset.mem_range, ← h.futures, Multiset.mem_add, Multiset.mem_add]
  exact .inl (.inr (Multiset.mem_coe.2 (List.mem_map_of_mem hc)))

/-- The id of a future says which entry of the table it is. -/
theorem Conserved.key_unique (h : Conserved s pending) {k k' : MsgId} {f : FutureId}
    (hk : s.reqtable.lookup k = some f) (hk' : s.reqtable.lookup k' = some f) : k = k' :=
  Option.some.inj ((h.keys k f hk).symm.trans (h.keys k' f hk'))

/-- No future is in two places, nor twice in one. -/
theorem Conserved.nodup (h : Conserved s pending) :
    (s.reqtable.values + ↑(s.handed.map Completion.future) + ↑s.displaced).Nodup := by
  rw [h.futures]
  exact Multiset.nodup_range _

/-- No future is twice in the table. -/
theorem Conserved.nodup_values (h : Conserved s pending) : s.reqtable.values.Nodup :=
  (Multiset.nodup_add.1 (Multiset.nodup_add.1 h.nodup).1).1

/-- No future was handed out twice. -/
theorem Conserved.nodup_handed (h : Conserved s pending) :
    (s.handed.map Completion.future).Nodup :=
  Multiset.coe_nodup.1 (Multiset.nodup_add.1 (Multiset.nodup_add.1 h.nodup).1).2.1

/-- A completion that was handed out has been made or is pending. -/
theorem Conserved.made_or_pending (h : Conserved s pending) {c : Completion ι} (hc : c ∈ s.handed) :
    c.extracted.isSome ∧ (c ∈ s.completions ∨ c ∈ pending) := by
  have hmade := Multiset.mem_coe.2 hc
  rw [h.handed] at hmade
  obtain ⟨hmem, hsome⟩ := Multiset.mem_filter.1 hmade
  exact ⟨hsome, (Multiset.mem_add.1 hmem).imp_left Multiset.mem_coe.1⟩

/-- A future in the table has not been handed out. -/
theorem Conserved.notMem_handed (h : Conserved s pending) {c : Completion ι} (hc : c ∈ s.handed) :
    c.future ∉ s.reqtable.values := by
  intro hmem
  have hdisj := (Multiset.nodup_add.1 (Multiset.nodup_add.1 h.nodup).1).2.2
  exact Multiset.disjoint_left.1 hdisj hmem (Multiset.mem_coe.2 (List.mem_map_of_mem hc))

/-- `Conserved` reads only the ids of the futures, the table and the records of what was handed out
and completed. -/
theorem Conserved.congr (h : Conserved s pending) (hr : s'.reqtable = s.reqtable)
    (hf : s'.futures.map Future.msgid = s.futures.map Future.msgid)
    (hh : s'.handed = s.handed) (hd : s'.displaced = s.displaced)
    (hc : s'.completions = s.completions) : Conserved s' pending := by
  have hlen : s'.futures.length = s.futures.length := by
    simpa using congrArg List.length hf
  exact ⟨by rw [hr, hh, hd, hlen]; exact h.futures,
    fun k f hk => by rw [hf]; exact h.keys k f (hr ▸ hk),
    by rw [hh, hc]; exact h.handed, fun c hc' => h.early c (hh ▸ hc')⟩

theorem Conserved.sendRequest (h : Conserved s pending) (method params : Object) :
    Conserved (s.sendRequest method params) pending :=
  h.congr rfl rfl rfl rfl rfl

/-- **Insertion.** The new future is in the table, and one that had its id is displaced. -/
theorem Conserved.sendRequestImpl (h : Conserved s pending) (c : Nat) (call : Call) :
    Conserved (s.sendRequestImpl c call) pending := by
  refine ⟨?_, ?_, h.handed, h.early⟩
  · have hv : s.reqtable.values =
        ↑(s.reqtable.lookup call.msgid).toList + (s.reqtable.erase call.msgid).values := by
      rcases hl : s.reqtable.lookup call.msgid with _ | f
      · rw [Reqtable.erase_of_lookup hl]
        simp
      · rw [Reqtable.values_of_lookup hl]
        rfl
    have hf := h.futures
    rw [hv] at hf
    simp only [Session.sendRequestImpl, Reqtable.values_insert, ← Multiset.coe_add,
      List.length_append, List.length_singleton, Multiset.range_succ, ← hf]
    simp only [← Multiset.singleton_add]
    abel
  · intro k f hk
    simp only [Session.sendRequestImpl, List.map_append, List.map_cons, List.map_nil] at hk ⊢
    by_cases hkey : k = call.msgid
    · subst hkey
      rw [Reqtable.lookup_insert] at hk
      cases hk
      simp
    · rw [Reqtable.lookup_insert_ne hkey] at hk
      have hold := h.keys k f hk
      rw [List.getElem?_append_left (List.getElem?_eq_some_iff.1 hold).1]
      exact hold

/-- **Handing out.** The completions handed out are pending. -/
theorem Conserved.hands (h : Conserved s pending) {cs : List (Completion ι)} (hs : Hands s s' cs) :
    Conserved s' (↑cs + pending) := by
  have hlen : s'.futures.length = s.futures.length := by
    simpa using congrArg List.length hs.futures
  have hmsgid : s'.futures.map Future.msgid = s.futures.map Future.msgid :=
    Future.map_eq_of_untimed (fun _ => rfl) hs.futures
  have hfilter : (↑cs : Multiset (Completion ι)).filter (fun c => c.extracted.isSome) = ↑cs :=
    Multiset.filter_eq_self.2 fun c hc => by rw [hs.extracted c hc]; rfl
  rw [hs.frame]
  refine ⟨?_, ?_, ?_, ?_⟩
  · have hf := h.futures
    rw [hs.values] at hf
    dsimp only
    rw [List.map_append, ← Multiset.coe_add, hlen, ← hf]
    abel
  · intro k f hk
    rw [hmsgid]
    exact h.keys k f (hs.lookup k f hk)
  · dsimp only
    rw [← Multiset.coe_add, h.handed, Multiset.filter_add, Multiset.filter_add, Multiset.filter_add,
      hfilter]
    abel
  · intro c hc
    rcases List.mem_append.1 hc with hc | hc
    · exact h.early c hc
    · exact ⟨_, hs.extracted c hc, h.lt_length (hs.mem_values hc)⟩

/-- **Completion.** A pending completion is made. -/
theorem Conserved.setResult {c : Completion ι} (h : Conserved s (c ::ₘ pending)) :
    Conserved (s.setResult c).1 pending := by
  have hc : Conserved { s with completions := s.completions ++ [c] } pending := by
    have hmove : ↑s.completions + (c ::ₘ pending) = ↑(s.completions ++ [c]) + pending := by
      rw [← Multiset.coe_add, Multiset.coe_singleton, ← Multiset.singleton_add, add_assoc]
    exact ⟨h.futures, h.keys, by rw [h.handed, hmove], h.early⟩
  rw [setResult_frame]
  exact hc.congr rfl (setResult_futures (fun _ _ _ => rfl) s c) rfl rfl rfl

/-- A completion of a future that was not taken out of the table is not accounted for. -/
theorem Conserved.cons_of_none {c : Completion ι} (h : Conserved s pending)
    (hc : c.extracted = none) : Conserved s (c ::ₘ pending) := by
  refine ⟨h.futures, h.keys, ?_, h.early⟩
  rw [h.handed, Multiset.add_cons, Multiset.filter_cons_of_neg]
  simp [hc]

/-- What attaching a callback and running one that was submitted leave alone. -/
structure Quiet (s s' : Session ι) : Prop where
  frame : s' = { s with futures := s'.futures, posted := s'.posted, ran := s'.ran }
  futures : s'.futures.map (fun f => (f.msgid, f.call)) = s.futures.map fun f => (f.msgid, f.call)

theorem Quiet.refl (s : Session ι) : Quiet s s := ⟨rfl, rfl⟩

theorem quiet_attachCallback (s : Session ι) (f : FutureId) (func : Callback) :
    Quiet s (s.attachCallback f func) := by
  refine ⟨?_, attachCallback_futures (fun _ _ => rfl) s f func⟩
  rw [attachCallback_frame]

theorem quiet_runPosted (s : Session ι) : Quiet s s.runPosted := by
  refine ⟨?_, ?_⟩ <;> rw [runPosted_frame]

theorem Quiet.map_call (h : Quiet s s') : s'.futures.map Future.call = s.futures.map Future.call := by
  have hcall := congrArg (List.map Prod.snd) h.futures
  simpa only [List.map_map, Function.comp_def] using hcall

theorem Conserved.quiet (h : Conserved s pending) (hq : Quiet s s') : Conserved s' pending := by
  have hmsgid := congrArg (List.map Prod.fst) hq.futures
  simp only [List.map_map, Function.comp_def] at hmsgid
  rw [hq.frame]
  exact h.congr rfl hmsgid rfl rfl rfl

/-! ## Message ids -/

/-- The calls and futures of a session carry the ids that the counter gave them, and every call is
either one of `inserts`, whose future is still to be inserted, or the call of one future. -/
structure Numbered (s : Session ι) (inserts : Multiset Nat) : Prop where
  counter : s.msgidRr = BitVec.ofNat 32 (s.calls.length + 1)
  calls : ∀ c call, s.calls[c]? = some call → call.msgid = BitVec.ofNat 32 (c + 1)
  inserted : inserts + ↑(s.futures.map Future.call) = Multiset.range s.calls.length
  futures : ∀ fut ∈ s.futures, fut.msgid = BitVec.ofNat 32 (fut.call + 1)

variable {inserts : Multiset Nat}

theorem numbered_init (timeout : BitVec 32) : Numbered ({ timeout } : Session ι) 0 :=
  ⟨rfl, fun _ _ h => by simp at h, rfl, fun _ h => by simp at h⟩

/-- `Numbered` reads only the counter, the calls, and the ids and calls of the futures. -/
theorem Numbered.congr (h : Numbered s inserts) (hm : s'.msgidRr = s.msgidRr)
    (hc : s'.calls = s.calls)
    (hf : s'.futures.map (fun f => (f.msgid, f.call)) = s.futures.map fun f => (f.msgid, f.call)) :
    Numbered s' inserts := by
  refine ⟨by rw [hm, hc]; exact h.counter, by rw [hc]; exact h.calls, ?_, ?_⟩
  · have hcall := congrArg (List.map Prod.snd) hf
    simp only [List.map_map, Function.comp_def] at hcall
    rw [hc, hcall]
    exact h.inserted
  · intro fut hfut
    have hmem : (fut.msgid, fut.call) ∈ s'.futures.map fun f => (f.msgid, f.call) :=
      List.mem_map_of_mem hfut
    rw [hf] at hmem
    obtain ⟨fut₀, hfut₀, he⟩ := List.mem_map.1 hmem
    obtain ⟨h1, h2⟩ := Prod.mk.inj he
    rw [← h1, ← h2]
    exact h.futures fut₀ hfut₀

theorem Numbered.sendRequest (h : Numbered s inserts) (method params : Object) :
    Numbered (s.sendRequest method params) (s.calls.length ::ₘ inserts) := by
  simp only [Session.sendRequest, nextMsgid]
  refine ⟨?_, ?_, ?_, h.futures⟩
  · simp [h.counter, BitVec.ofNat_add]
  · intro c call hc
    rw [List.getElem?_append] at hc
    split at hc
    · exact h.calls c call hc
    · obtain ⟨hlt, rfl⟩ := List.getElem?_eq_some_iff.1 hc
      have hlast : c = s.calls.length := by
        simp only [List.length_singleton] at hlt
        omega
      simp [h.counter, hlast]
  · simp [Multiset.range_succ, ← h.inserted]

theorem Numbered.sendRequestImpl {c : Nat} {call : Call} (h : Numbered s (c ::ₘ inserts))
    (hc : s.calls[c]? = some call) : Numbered (s.sendRequestImpl c call) inserts := by
  refine ⟨h.counter, h.calls, ?_, ?_⟩
  · have hi := h.inserted
    simp only [Session.sendRequestImpl, List.map_append, ← Multiset.coe_add]
    rw [← hi, ← Multiset.singleton_add]
    simp only [List.map_cons, List.map_nil, Multiset.coe_singleton]
    abel
  · intro fut hfut
    rcases List.mem_append.1 hfut with hfut | hfut
    · exact h.futures fut hfut
    · rw [List.mem_singleton.1 hfut]
      exact h.calls c call hc

theorem Numbered.hands (h : Numbered s inserts) {cs : List (Completion ι)} (hs : Hands s s' cs) :
    Numbered s' inserts := by
  rw [hs.frame]
  exact h.congr rfl rfl (Future.map_eq_of_untimed (fun _ => rfl) hs.futures)

theorem Numbered.setResult (h : Numbered s inserts) (c : Completion ι) :
    Numbered (s.setResult c).1 inserts := by
  rw [setResult_frame]
  exact h.congr rfl rfl (setResult_futures (fun _ _ _ => rfl) s c)

theorem Numbered.quiet (h : Numbered s inserts) (hq : Quiet s s') : Numbered s' inserts := by
  rw [hq.frame]
  exact h.congr rfl rfl hq.futures

/-- Fewer than 2^32 calls have different ids. -/
theorem Numbered.call_unique (h : Numbered s inserts) (hlt : s.calls.length < 2 ^ 32) {c c' : Nat}
    {call call' : Call} (hc : s.calls[c]? = some call) (hc' : s.calls[c']? = some call')
    (hid : call.msgid = call'.msgid) : c = c' := by
  have hclt := (List.getElem?_eq_some_iff.1 hc).1
  have hclt' := (List.getElem?_eq_some_iff.1 hc').1
  rw [h.calls c call hc, h.calls c' call' hc'] at hid
  have hmod := congrArg BitVec.toNat hid
  simp only [BitVec.toNat_ofNat] at hmod
  omega

/-- A call whose future is still to be inserted has none yet. -/
theorem Numbered.notMem_futures (h : Numbered s inserts) {c : Nat} (hc : c ∈ inserts) :
    c ∉ s.futures.map Future.call := by
  have hnodup : (inserts + ↑(s.futures.map Future.call)).Nodup := by
    rw [h.inserted]
    exact Multiset.nodup_range _
  exact Multiset.disjoint_left.1 (Multiset.nodup_add.1 hnodup).2.2 hc

/-- The calls that are outstanding: their future is still to be inserted or is in the table. -/
def outstanding (s : Session ι) (inserts : Multiset Nat) : Multiset Nat :=
  inserts + s.reqtable.values.filterMap fun f => s.futures[f]?.map Future.call

/-- A step that does not touch the ids leaves the outstanding calls a part of what they were. -/
theorem outstanding_subset (hv : s'.reqtable.values ⊆ s.reqtable.values)
    (hf : s'.futures.map Future.call = s.futures.map Future.call) :
    s'.outstanding inserts ⊆ s.outstanding inserts := by
  intro c hc
  rw [outstanding, Multiset.mem_add, Multiset.mem_filterMap] at hc ⊢
  rcases hc with hc | ⟨f, hf', hcall⟩
  · exact .inl hc
  refine .inr ⟨f, hv hf', ?_⟩
  rw [← List.getElem?_map, ← hf, List.getElem?_map]
  exact hcall

/-- Inserting a future makes no call outstanding. -/
theorem Conserved.outstanding_sendRequestImpl (h : Conserved s pending) (c : Nat) (call : Call) :
    (s.sendRequestImpl c call).outstanding inserts ⊆ s.outstanding (c ::ₘ inserts) := by
  intro c' hc'
  simp only [outstanding, Multiset.mem_add, Multiset.mem_filterMap, Multiset.mem_cons] at hc' ⊢
  rcases hc' with hc' | ⟨f, hf, hcall⟩
  · exact .inl (.inr hc')
  · obtain ⟨k, hk⟩ := Reqtable.mem_values.1 hf
    simp only [Session.sendRequestImpl] at hk hcall
    by_cases hkey : k = call.msgid
    · subst hkey
      rw [Reqtable.lookup_insert] at hk
      cases hk
      simp only [List.getElem?_concat_length, Option.map_some, Option.some.injEq] at hcall
      exact .inl (.inl hcall.symm)
    · rw [Reqtable.lookup_insert_ne hkey] at hk
      have hold : f ∈ s.reqtable.values := Reqtable.mem_values.2 ⟨k, hk⟩
      rw [List.getElem?_append_left (h.lt_length hold)] at hcall
      exact .inr ⟨f, hold, hcall⟩

/-- **No entry is overwritten** when the outstanding calls are among the last 2^32 calls: their ids
are distinct. -/
theorem Numbered.lookup_eq_none {c : Nat} {call : Call} (h : Numbered s (c ::ₘ inserts))
    (hcons : Conserved s pending) (hc : s.calls[c]? = some call)
    (hwin : ∀ c' ∈ s.outstanding (c ::ₘ inserts), s.calls.length ≤ c' + 2 ^ 32) :
    s.reqtable.lookup call.msgid = none := by
  by_contra hne
  obtain ⟨f, hf⟩ := Option.ne_none_iff_exists'.1 hne
  have hkey := hcons.keys _ _ hf
  rw [List.getElem?_map] at hkey
  obtain ⟨fut, hfut, hid⟩ := Option.map_eq_some_iff.1 hkey
  have hmem : fut ∈ s.futures := List.mem_of_getElem? hfut
  have hcall : fut.call ∈ s.futures.map Future.call := List.mem_map_of_mem hmem
  have hlt : ∀ c' ∈ c ::ₘ inserts + ↑(s.futures.map Future.call), c' < s.calls.length := by
    intro c' hc'
    rwa [h.inserted, Multiset.mem_range] at hc'
  have hwf := hwin fut.call (by
    rw [outstanding, Multiset.mem_add, Multiset.mem_filterMap]
    exact .inr ⟨f, Reqtable.mem_values.2 ⟨_, hf⟩, by rw [hfut]; rfl⟩)
  have hwc := hwin c (by simp [outstanding])
  -- equal ids among the last 2^32 calls are those of one call
  have heq : fut.call = c := by
    rw [h.futures fut hmem, h.calls c call hc] at hid
    have hmod := congrArg BitVec.toNat hid
    simp only [BitVec.toNat_ofNat] at hmod
    have h1 := hlt fut.call (Multiset.mem_add.2 (.inr (Multiset.mem_coe.2 hcall)))
    have h2 := hlt c (by simp)
    omega
  rw [heq] at hcall
  exact h.notMem_futures (Multiset.mem_cons_self c inserts) hcall

end

end Session

end MsgpackRpc
