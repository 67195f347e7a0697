import MsgpackRpc.Tcp.Steps

/-!
# Requests on a connection that has failed

`client_socket::on_system_error` first sweeps the session and then closes the socket. In between the
socket is still open: a request that a callback of the sweep or another thread sends then finds it
open, is written to it or finds it closed at the second test of `is_open`, and stays in the table with
nothing to complete it but its timeout (`callbackSend_stranded`). `client_transport::on_connect_failed`
does it the other way round.

`requests_not_stranded` says that this is the only way to strand a request: if no send finds or makes
a connection while a close is to come without a sweep, every request is completed or was written on
the connection that is still open.
-/

namespace MsgpackRpc

open Threads

namespace Tcp

def Task.isSweep : Task → Bool
  | .sweep _ => true
  | _ => false

def Task.isClose : Task → Bool
  | .close _ => true
  | _ => false

/-- A sweep is to come, or no close is. -/
def Covered (T : Multiset Task) : Prop :=
  (∃ t ∈ T, t.isSweep = true) ∨ ∀ t ∈ T, t.isClose = false

instance (T : Multiset Task) : Decidable (Covered T) :=
  @instDecidableOr _ _ Multiset.decidableExistsMultiset Multiset.decidableForallMultiset

/-- The steps at which a send of an outstanding request finds or makes a connection that is not about
to be closed after its sweep, and no id is reused while it is in the table. -/
def InTime (s : Client) (T : Multiset Task) (op : Op) (x : Choice) : Prop :=
  (∀ c ∈ op.inserting, ∀ call ∈ s.session.calls[c]?,
    s.session.reqtable.lookup call.msgid = none) ∧
  (∀ c ∈ op.finding s, c ∈ s.session.outstanding 0 → Covered T) ∧
  ∀ c ∈ op.establishing s x, c ∈ s.session.outstanding 0 → Covered T

instance (s : Client) (T : Multiset Task) (op : Op) (x : Choice) : Decidable (InTime s T op x) :=
  inferInstanceAs (Decidable (_ ∧ _ ∧ _))

/-- What becomes of the message of a call: it is looking for a connection, it will be swept, or it has
a connection that nothing is about to close, on which it is to be written or was written. -/
def Placed (s : Client) (T : Multiset Task) (c : Nat) : Prop :=
  .connect c ∈ T ∨ (∃ t ∈ T, t.isSweep = true) ∨
    s.socket.isOpen = true ∧ (∀ t ∈ T, t.isClose = false) ∧
      (.write c ∈ T ∨ ∃ n, s.socket = .connected n ∧ (c, n) ∈ s.written)

/-- Every outstanding request is placed, and the others were completed or displaced. -/
structure Sent (s : Client) (T : Multiset Task) : Prop where
  displaced : s.session.displaced = []
  errors : ∀ d ∈ s.session.handed,
    d.origin = .response ∨ d.error = CONNECT_ERROR ∨ d.error = TIMEOUT_ERROR
  placed : ∀ c ∈ s.session.outstanding 0, Placed s T c

section
variable {s s' : Client} {T T' : Multiset Task} {c c' : Nat}

/-- New tasks that close nothing. -/
theorem Placed.add (h : Placed s T c) {K : List Task} (hK : ∀ t ∈ K, t.isClose = false) :
    Placed s (↑K + T) c := by
  rcases h with ht | ⟨t, ht, hs⟩ | ⟨hopen, hclose, hw⟩
  · exact .inl (Multiset.mem_add.2 (.inr ht))
  · exact .inr (.inl ⟨t, Multiset.mem_add.2 (.inr ht), hs⟩)
  · refine .inr (.inr ⟨hopen, ?_, hw.imp_left fun ht => Multiset.mem_add.2 (.inr ht)⟩)
    intro t ht
    exact (Multiset.mem_add.1 ht).elim (hK t) (hclose t)

/-- A task that neither sweeps nor sends is done. -/
theorem Placed.of_cons {t : Task} (h : Placed s (t ::ₘ T) c) (hc : t ≠ .connect c)
    (hw : t ≠ .write c) (ht : t.isSweep = false) : Placed s T c := by
  have hne {t' : Task} (hmem : t' ∈ t ::ₘ T) (hneq : t ≠ t') : t' ∈ T :=
    (Multiset.mem_cons.1 hmem).resolve_left fun heq => hneq heq.symm
  rcases h with hmem | ⟨t', hmem, hs⟩ | ⟨hopen, hclose, hwr⟩
  · exact .inl (hne hmem hc)
  · refine .inr (.inl ⟨t', hne hmem ?_, hs⟩)
    intro heq
    rw [← heq, ht] at hs
    cases hs
  · exact .inr (.inr ⟨hopen, fun t' hmem => hclose t' (Multiset.mem_cons_of_mem hmem),
      hwr.imp_left fun hmem => hne hmem hw⟩)

/-- A sweep is to come. -/
theorem placed_of_sweep {o : Origin} {K : List Task} (h : .sweep o ∈ K) : Placed s (↑K + T) c :=
  .inr (.inl ⟨.sweep o, Multiset.mem_add.2 (.inl h), rfl⟩)

/-- **A send has its connection**, which no close is about to take away without a sweep. -/
theorem Placed.connected (h : Placed s (.connect c' ::ₘ T) c)
    (hcov : c = c' → Covered (.connect c' ::ₘ T)) (hopen : s'.socket.isOpen = true)
    (hconn : ∀ n, s.socket = .connected n → s'.socket = .connected n)
    (hw : s'.written = s.written) : Placed s' (.write c' ::ₘ T) c := by
  have hsweep : (∃ t ∈ .connect c' ::ₘ T, t.isSweep = true) →
      ∃ t ∈ .write c' ::ₘ T, t.isSweep = true := by
    simp [or_and_right, exists_or, Task.isSweep]
  have hclose : (∀ t ∈ .connect c' ::ₘ T, t.isClose = false) →
      ∀ t ∈ .write c' ::ₘ T, t.isClose = false := by
    simp [Task.isClose]
  rcases h with ht | ht | ⟨-, hnone, ht⟩
  · rcases Multiset.mem_cons.1 ht with heq | ht
    · cases heq
      refine .inr ((hcov rfl).imp hsweep fun hnone => ⟨hopen, hclose hnone, .inl ?_⟩)
      exact Multiset.mem_cons_self _ _
    · exact .inl (Multiset.mem_cons_of_mem ht)
  · exact .inr (.inl (hsweep ht))
  · refine .inr (.inr ⟨hopen, hclose hnone, ?_⟩)
    rcases ht with ht | ⟨n, hn, hmem⟩
    · exact .inl (Multiset.mem_cons_of_mem ((Multiset.mem_cons.1 ht).resolve_left (by simp)))
    · exact .inr ⟨n, hconn n hn, hw ▸ hmem⟩

/-- A message is written. -/
theorem Placed.wrote {n : Nat} (h : Placed s (.write c' ::ₘ T) c) (hn : s.socket = .connected n) :
    Placed { s with written := s.written ++ [(c', n)] } T c := by
  rcases h with ht | ⟨t, ht, hs⟩ | ⟨hopen, hnone, ht⟩
  · exact .inl ((Multiset.mem_cons.1 ht).resolve_left (by simp))
  · refine .inr (.inl ⟨t, (Multiset.mem_cons.1 ht).resolve_left ?_, hs⟩)
    intro heq
    rw [heq] at hs
    cases hs
  · refine .inr (.inr ⟨hopen, fun t ht => hnone t (Multiset.mem_cons_of_mem ht), ?_⟩)
    rcases ht with ht | ⟨m, hm, hmem⟩
    · rcases Multiset.mem_cons.1 ht with heq | ht
      · cases heq
        exact .inr ⟨n, hn, List.mem_append_right _ (List.mem_singleton_self _)⟩
      · exact .inl ht
    · exact .inr ⟨m, hm, List.mem_append_left _ hmem⟩

/-- The socket is closed, or about to be: the message is looking for a connection or will be swept. -/
theorem Placed.of_closing (h : Placed s T c)
    (hclose : s.socket.isOpen = false ∨ ∃ t ∈ T, t.isClose = true) :
    .connect c ∈ T ∨ ∃ t ∈ T, t.isSweep = true := by
  rcases h with ht | ht | ⟨hopen, hnone, -⟩
  · exact .inl ht
  · exact .inr ht
  · rcases hclose with hclosed | ⟨t, ht, hclose⟩
    · rw [hopen] at hclosed
      cases hclosed
    · rw [hnone t ht] at hclose
      cases hclose

/-- Then it does not matter what else is done. -/
theorem placed_of_cons {t : Task} (h : .connect c ∈ t ::ₘ T ∨ ∃ t' ∈ t ::ₘ T, t'.isSweep = true)
    (hc : t ≠ .connect c) (ht : t.isSweep = false) : Placed s T c := by
  rcases h with hmem | ⟨t', hmem, hs⟩
  · exact .inl ((Multiset.mem_cons.1 hmem).resolve_left fun heq => hc heq.symm)
  · rcases Multiset.mem_cons.1 hmem with rfl | hmem
    · rw [ht] at hs
      cases hs
    · exact .inr (.inl ⟨t', hmem, hs⟩)

/-- A step that is quiet or completes a future. -/
theorem Sent.inert (h : Sent s T) (hi : Inert s s') (hT : ∀ c, Placed s T c → Placed s T' c) :
    Sent s' T' := by
  refine ⟨hi.displaced.trans h.displaced, ?_, ?_⟩
  · rw [hi.handed]
    exact h.errors
  · intro c hc
    have hp := hT c (h.placed c (Session.outstanding_subset hi.values_subset hi.calls hc))
    unfold Placed at hp ⊢
    rw [hi.socket, hi.written]
    exact hp

/-- A step that takes futures out of the table. -/
theorem Sent.hands {session : Session Origin} {cs : List (Completion Origin)} (h : Sent s T)
    (hs : s.session.Hands session cs)
    (he : ∀ d ∈ cs, d.origin = .response ∨ d.error = CONNECT_ERROR ∨ d.error = TIMEOUT_ERROR)
    (hp : ∀ c ∈ session.outstanding 0, Placed s T' c) : Sent { s with session } T' := by
  refine ⟨?_, ?_, hp⟩
  · rw [hs.frame]
    exact h.displaced
  · intro d hd
    rw [hs.handed] at hd
    rcases List.mem_append.1 hd with hd | hd
    · exact h.errors d hd
    · exact he d hd

end

theorem sent_step {s s' : Client} {x : Choice} {op : Op} {K : List Task} {T : Multiset Task}
    (ha : Accounted s.session (↑op.task.toList + T)) (h : Sent s (↑op.task.toList + T))
    (hg : InTime s (↑op.task.toList + T) op x) (hs : Steps s x op s' K) : Sent s' (↑K + T) := by
  have hcons (t : Task) : (↑[t] : Multiset Task) + T = t ::ₘ T := Multiset.singleton_add t T
  have hnil : (↑([] : List Task) : Multiset Task) + T = T := zero_add T
  cases hs with
  | quiet hq => exact h.inert hq.inert fun _ => id
  | complete d =>
    refine h.inert (inert_setResult s d) ?_
    intro c hp
    simp only [Op.task, Option.toList_some, hcons] at hp
    rw [hnil]
    exact hp.of_cons (by simp) (by simp) rfl
  | sweep hs hempty ho =>
    refine h.hands hs (fun d hd => .inr (.inl (ho d hd).2)) ?_
    intro c hc
    rw [Session.outstanding, hempty] at hc
    simp at hc
  | take hop hs ho =>
    refine h.hands hs (fun d hd => (ho d hd).imp_right fun hd => .inr hd.2) ?_
    intro c hc
    have hp := h.placed c (Session.outstanding_subset hs.values_subset
      (Future.map_eq_of_untimed (fun _ => rfl) hs.futures) hc)
    rw [hop, Option.toList_none, hnil] at hp
    refine hp.add ?_
    intro t ht
    obtain ⟨d, -, rfl⟩ := List.mem_map.1 ht
    rfl
  | sendRequest method params =>
    obtain ⟨hdisp, herr, hplaced⟩ := h
    simp only [Op.task, Option.toList_none, hnil] at hplaced
    exact ⟨hdisp, herr, fun c hc => (hplaced c hc).add (by simp [Task.isClose])⟩
  | @insert c call hcall =>
    refine ⟨?_, h.errors, ?_⟩
    · simp [Session.sendRequestImpl, h.displaced, hg.1 c rfl call hcall]
    · intro c' hc'
      have hout := ha.conserved.outstanding_sendRequestImpl c call hc'
      rw [Session.outstanding, Multiset.cons_add, Multiset.mem_cons] at hout
      rcases hout with rfl | hout
      · exact .inl (Multiset.mem_add.2 (.inl (List.mem_singleton_self _)))
      · have hp := h.placed c' hout
        simp only [Op.task, Option.toList_some, hcons] at hp
        exact (hp.of_cons (by simp) (by simp) rfl).add (by simp [Task.isClose])
  | found hopen =>
    have hcov := hg.2.1 _ (if_pos hopen)
    obtain ⟨hdisp, herr, hplaced⟩ := h
    simp only [Op.task, Option.toList_some, hcons] at hplaced hcov
    refine ⟨hdisp, herr, ?_⟩
    intro c' hc'
    rw [hcons]
    exact (hplaced c' hc').connected (fun heq => hcov (heq ▸ hc')) hopen (fun _ => id) rfl
  | established hok hopened =>
    have hcov := hg.2.2 _ (if_pos ⟨hok, hopened⟩)
    obtain ⟨hdisp, herr, hplaced⟩ := h
    simp only [Op.task, Option.toList_some, hcons] at hplaced hcov
    refine ⟨hdisp, herr, ?_⟩
    intro c' hc'
    rw [hcons]
    refine (hplaced c' hc').connected (fun heq => hcov (heq ▸ hc')) rfl ?_ rfl
    intro n hn
    rw [hopened] at hn
    cases hn
  | opened hclosed =>
    refine ⟨h.displaced, h.errors, ?_⟩
    intro c' hc'
    have hnot : s.socket.isOpen = false := by rw [hclosed]; rfl
    exact ((h.placed c' hc').of_closing (.inl hnot)).imp_right .inl
  | gaveUp | expired =>
    exact ⟨h.displaced, h.errors, fun c hc => placed_of_sweep (.tail _ (.head _))⟩
  | writeFailed | readFailed =>
    exact ⟨h.displaced, h.errors, fun c hc => placed_of_sweep (.head _)⟩
  | wrote hconn =>
    obtain ⟨hdisp, herr, hplaced⟩ := h
    simp only [Op.task, Option.toList_some, hcons] at hplaced
    refine ⟨hdisp, herr, ?_⟩
    intro c' hc'
    rw [hnil]
    exact (hplaced c' hc').wrote hconn
  | dropped hop hclosed =>
    refine ⟨h.displaced, h.errors, ?_⟩
    intro c' hc'
    have hp := (h.placed c' hc').of_closing (.inl hclosed)
    rw [hop, Option.toList_some, hcons] at hp
    rw [hnil]
    exact placed_of_cons hp (by simp) rfl
  | skipped hclosed =>
    refine ⟨h.displaced, h.errors, ?_⟩
    intro c' hc'
    have hp := (h.placed c' hc').of_closing (.inl hclosed)
    simp only [Op.task, Option.toList_some, hcons] at hp
    rw [hnil]
    exact placed_of_cons hp (by simp) rfl
  | close o =>
    refine ⟨h.displaced, h.errors, ?_⟩
    intro c' hc'
    have hp := (h.placed c' hc').of_closing (.inr ⟨.close o, by simp [Op.task], rfl⟩)
    simp only [Op.task, Option.toList_some, hcons] at hp
    rw [hnil]
    exact placed_of_cons hp (by simp) rfl

/-- **No request is stranded.** In every run whose steps meet `InTime`, and for every future that was
inserted: when the send of its request has returned, and no sweep and no completion of it is still
under way, the request has been completed, by its response or with an error, or it was written on the
connection that is still open. -/
theorem requests_not_stranded {connectTimeout reconnectLimit : Int} {timeout : BitVec 32}
    {ls : List (Label Op Choice)} {c : Config Client Op}
    (hG : machine.Meets (fun s ops => InTime s (tasks ops))
      (init connectTimeout reconnectLimit timeout) ls)
    (hrun : machine.run (init connectTimeout reconnectLimit timeout) ls = some c)
    {f : FutureId} {fut : Future} (hf : c.shared.session.futures[f]? = some fut)
    (hsend : .connect fut.call ∉ tasks c.pending ∧ .write fut.call ∉ tasks c.pending)
    (hsweep : ∀ o, .sweep o ∉ tasks c.pending)
    (hcomplete : ∀ d, .complete d ∈ tasks c.pending → d.future ≠ f) :
    (∃ d ∈ c.shared.session.completions, d.future = f ∧
      (d.origin = .response ∨ d.error = CONNECT_ERROR ∨ d.error = TIMEOUT_ERROR)) ∨
      ∃ n, (fut.call, n) ∈ c.shared.written ∧ c.shared.socket = .connected n := by
  obtain ⟨ha, hdisp, herr, hplaced⟩ := invariant Sent
    (fun _ _ _ _ _ _ ha h hg hs => sent_step ha h hg hs)
    ⟨rfl, by simp [init], by simp [init, Session.outstanding]⟩ hG hrun
  have hmem : f ∈ Multiset.range c.shared.session.futures.length :=
    Multiset.mem_range.2 (List.getElem?_eq_some_iff.1 hf).1
  rw [← ha.conserved.futures, hdisp, Multiset.coe_nil, add_zero, Multiset.mem_add, Multiset.mem_coe,
    List.mem_map] at hmem
  rcases hmem with hmem | ⟨d, hd, hdf⟩
  · have hout : fut.call ∈ c.shared.session.outstanding 0 := by
      rw [Session.outstanding, zero_add, Multiset.mem_filterMap]
      exact ⟨f, hmem, by rw [hf]; rfl⟩
    rcases hplaced _ hout with ht | ⟨t, ht, hs⟩ | ⟨-, -, ht | ⟨n, hn, hw⟩⟩
    · exact absurd ht hsend.1
    · cases t with
      | sweep o => exact absurd ht (hsweep o)
      | _ => cases hs
    · exact absurd ht hsend.2
    · exact .inr ⟨n, hw, hn⟩
  · refine .inl ⟨d, ?_, hdf, herr d hd⟩
    have hh : d ∈ (↑c.shared.session.handed : Multiset (Completion Origin)) := hd
    rw [ha.conserved.handed, Multiset.mem_filter, Multiset.mem_add, Multiset.mem_filterMap] at hh
    rcases hh.1 with hh | ⟨t, ht, hcomp⟩
    · exact hh
    · cases t with
      | complete d' =>
        cases hcomp
        exact absurd hdf (hcomplete d ht)
      | _ => cases hcomp

/-- A request with a callback is sent, and the peer closes the connection. -/
def peerCloses : List (Label Op Choice) :=
  .spawn (.sendRequest (.str [0x66]) .nil) :: List.replicate 15 (.exec 0 {}) ++
  [.spawn (.attachCallback 0 7), .exec 1 {}, .spawn (.readCompletes 0 (.error 2)), .exec 2 {}]

/-- `on_read` sweeps the session; the callback sends a request, which is written; the socket is
closed. -/
def callbackSends : List (Label Op Choice) :=
  peerCloses ++ [.spawn (.onRead 0), .exec 3 {}, .exec 3 { it := [⟨1, 0⟩] },
    .exec 3 { calls := [.sendRequest (.str [0x67]) .nil] }] ++ List.replicate 8 (.exec 3 {})

/-- The state after that. -/
def callbackSent : Config Client Op := (machine.run (init 10 3 30) callbackSends).getD (init 10 3 30)

/-- Everything has returned; the second request is in the table, not completed, and was written on
connection 0, which is closed. -/
theorem callbackSend_stranded :
    machine.run (init 10 3 30) callbackSends = some callbackSent ∧ callbackSent.pending = 0 ∧
      callbackSent.shared.session.reqtable.lookup 2 = some 1 ∧
      (∀ d ∈ callbackSent.shared.session.completions, d.future ≠ 1) ∧
      callbackSent.shared.written = [(0, 0), (1, 0)] ∧ callbackSent.shared.socket = .closed :=
  ⟨rfl, rfl, rfl, by decide, rfl, rfl⟩

/-- Another thread inserts a request between the sweep and the close, and looks for a connection only
after the close. -/
def lateSend : List (Label Op Choice) :=
  peerCloses ++ [.spawn (.onRead 0), .exec 3 {}, .exec 3 { it := [⟨1, 0⟩] }, .exec 3 {},
    .spawn (.sendRequest (.str [0x67]) .nil), .exec 4 {}, .exec 4 {}, .exec 4 {}, .exec 3 {},
    .exec 3 {}] ++ List.replicate 12 (.exec 4 {})

/-- The state after that. -/
def lateSent : Config Client Op := (machine.run (init 10 3 30) lateSend).getD (init 10 3 30)

theorem requests_not_stranded_lateSend :
    machine.run (init 10 3 30) lateSend = some lateSent ∧
      ((∃ d ∈ lateSent.shared.session.completions, d.future = 1 ∧
        (d.origin = .response ∨ d.error = CONNECT_ERROR ∨ d.error = TIMEOUT_ERROR)) ∨
        ∃ n, (1, n) ∈ lateSent.shared.written ∧ lateSent.shared.socket = .connected n) := by
  have hrun : machine.run (init 10 3 30) lateSend = some lateSent := rfl
  have hG : machine.Meets (fun s ops => InTime s (tasks ops)) (init 10 3 30) lateSend := by decide
  have hnone : tasks lateSent.pending = 0 := rfl
  obtain ⟨fut, hf, hcall⟩ : ∃ fut, lateSent.shared.session.futures[1]? = some fut ∧ fut.call = 1 :=
    ⟨_, rfl, rfl⟩
  have h := requests_not_stranded hG hrun hf (by rw [hnone]; simp) (by rw [hnone]; simp)
    (by rw [hnone]; simp)
  rw [hcall] at h
  exact ⟨hrun, h⟩

end Tcp

end MsgpackRpc
