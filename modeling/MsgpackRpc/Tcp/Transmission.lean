import MsgpackRpc.Tcp.Steps

/-!
# No message is sent twice

A client that loses its connection makes another one when the next message is sent. Nothing is sent
again then: a message is written at most once, on the connection that the socket has at the time, and
what was written on a connection that failed is lost with it. The invariant (`Transmitted`) follows
the call of a message from its insertion to the write. It is never with two tasks, nor with a task and
among the messages written.
-/

namespace MsgpackRpc

open Threads

namespace Tcp

/-- The call whose message a task has not written yet. -/
def Task.unsent : Task → Option Nat
  | .insert c | .connect c | .write c => some c
  | _ => none

/-- The call that may still make a connection. -/
def Task.unconnected : Task → Option Nat
  | .insert c | .connect c => some c
  | _ => none

/-- The call whose future has been inserted when the task is done. -/
def Task.inserted : Task → Option Nat
  | .connect c | .write c => some c
  | _ => none

/-- Calls that have been made, each of which occurs once. -/
structure Once (s : Session Origin) (m : Multiset Nat) : Prop where
  nodup : m.Nodup
  called : ∀ c ∈ m, c < s.calls.length

/-- The invariant: every call is sent once and makes at most one connection, after its future was
inserted; the socket has the newest connection, if any, which is not closed. -/
structure Transmitted (s : Client) (T : Multiset Task) : Prop where
  sent : Once s.session (T.filterMap Task.unsent + ↑(s.written.map Prod.fst))
  connected : Once s.session (T.filterMap Task.unconnected + ↑s.connectedBy)
  inserted : ∀ c ∈ T.filterMap Task.inserted + ↑(s.written.map Prod.fst),
    c ∈ s.session.futures.map Future.call
  socket : ∀ n, s.socket = .connected n → n + 1 = s.conns ∧ ∀ d ∈ s.closed, d.conn < n
  closed : ∀ d ∈ s.closed, d.conn < s.conns
  written : ∀ w ∈ s.written, w.2 < s.conns
  ordered : (s.written.map Prod.snd).Pairwise (· ≤ ·)

/-- What a step leaves alone that neither calls, inserts, connects, writes nor closes. -/
structure Same (s s' : Client) : Prop where
  calls : s'.session.calls = s.session.calls
  futures : s'.session.futures.map Future.call = s.session.futures.map Future.call
  socket : ∀ n, s'.socket = .connected n → s.socket = .connected n
  conns : s'.conns = s.conns
  connectedBy : s'.connectedBy = s.connectedBy
  written : s'.written = s.written
  closed : s'.closed = s.closed

section
variable {s s' : Client} {op : Op} {x : Choice} {K K' : List Task} {T : Multiset Task}

theorem Once.mono {s s' : Session Origin} {m m' : Multiset Nat} (h : Once s m) (hm : m' ≤ m)
    (hlen : s.calls.length ≤ s'.calls.length) : Once s' m' :=
  ⟨Multiset.nodup_of_le hm h.nodup,
    fun c hc => Nat.lt_of_lt_of_le (h.called c (Multiset.mem_of_le hm hc)) hlen⟩

/-- A new call. -/
theorem Once.sendRequest {s : Session Origin} {m : Multiset Nat} (h : Once s m)
    (method params : Object) : Once (s.sendRequest method params) (s.calls.length ::ₘ m) := by
  have hlen : (s.sendRequest method params).calls.length = s.calls.length + 1 := by
    simp [Session.sendRequest, Session.nextMsgid]
  refine ⟨Multiset.nodup_cons.2 ⟨?_, h.nodup⟩, ?_⟩
  · exact fun hmem => absurd (h.called _ hmem) (Nat.lt_irrefl _)
  · intro c hc
    rw [hlen]
    rcases Multiset.mem_cons.1 hc with rfl | hc
    · exact Nat.lt_succ_self _
    · exact Nat.lt_succ_of_lt (h.called c hc)

/-- What some tasks contribute to what tasks speak of. -/
theorem filterMap_tasks {β : Type} (f : Task → Option β) (K : List Task) (T : Multiset Task) :
    (↑K + T).filterMap f = ↑(K.filterMap f) + T.filterMap f := by
  rw [Multiset.filterMap_add, Multiset.filterMap_coe]

theorem filterMap_le (f : Task → Option Nat) (h : (K'.filterMap f).Sublist (K.filterMap f))
    (T : Multiset Task) (m : Multiset Nat) :
    (↑K' + T).filterMap f + m ≤ (↑K + T).filterMap f + m := by
  rw [filterMap_tasks, filterMap_tasks]
  exact Multiset.add_le_add_right (Multiset.add_le_add_right h.subperm)

/-- One task. -/
theorem filterMap_some {f : Task → Option Nat} {t : Task} {c : Nat} (hf : f t = some c)
    (T : Multiset Task) (m : Multiset Nat) :
    (↑[t] + T).filterMap f + m = c ::ₘ (T.filterMap f + m) := by
  rw [filterMap_tasks, List.filterMap_cons_some hf, List.filterMap_nil, Multiset.coe_singleton,
    Multiset.singleton_add, Multiset.cons_add]

theorem filterMap_none {f : Task → Option Nat} {t : Task} (hf : f t = none) (T : Multiset Task) :
    (↑[t] + T).filterMap f = T.filterMap f := by
  rw [filterMap_tasks, List.filterMap_cons_none hf, List.filterMap_nil, Multiset.coe_nil, zero_add]

/-- The completions that a step hands out send nothing. -/
theorem filterMap_completions {f : Task → Option Nat} (hf : ∀ d, f (.complete d) = none)
    (cs : List (Completion Origin)) : (cs.map Task.complete).filterMap f = [] := by
  rw [List.filterMap_map]
  exact List.filterMap_eq_nil_iff.2 fun d _ => hf d

/-- **Tasks that become fewer.** -/
theorem Transmitted.mono (h : Transmitted s (↑K + T)) (hs : Same s s')
    (hunsent : (K'.filterMap Task.unsent).Sublist (K.filterMap Task.unsent))
    (hunconnected : (K'.filterMap Task.unconnected).Sublist (K.filterMap Task.unconnected))
    (hinserted : (K'.filterMap Task.inserted).Sublist (K.filterMap Task.inserted)) :
    Transmitted s' (↑K' + T) := by
  refine ⟨?_, ?_, ?_, ?_, ?_, ?_, ?_⟩
  · rw [hs.written]
    exact h.sent.mono (filterMap_le _ hunsent T _) (by rw [hs.calls])
  · rw [hs.connectedBy]
    exact h.connected.mono (filterMap_le _ hunconnected T _) (by rw [hs.calls])
  · rw [hs.written, hs.futures]
    exact fun c hc => h.inserted c (Multiset.mem_of_le (filterMap_le _ hinserted T _) hc)
  · rw [hs.conns, hs.closed]
    exact fun n hn => h.socket n (hs.socket n hn)
  · rw [hs.conns, hs.closed]
    exact h.closed
  · rw [hs.conns, hs.written]
    exact h.written
  · rw [hs.written]
    exact h.ordered

theorem Same.refl (s : Client) : Same s s := ⟨rfl, rfl, fun _ h => h, rfl, rfl, rfl, rfl⟩

theorem Quiet.same (h : Quiet s s') : Same s s' := by
  have hframe := h.session.frame
  have hcalls := h.session.map_call
  rw [h.frame]
  exact ⟨by rw [hframe], hcalls, fun _ h => h, rfl, rfl, rfl, rfl⟩

theorem same_hands {session : Session Origin} {cs : List (Completion Origin)}
    (h : s.session.Hands session cs) : Same s { s with session } := by
  have hcalls : session.calls = s.session.calls := by rw [h.frame]
  exact ⟨hcalls, Future.map_eq_of_untimed (fun _ => rfl) h.futures, fun _ h => h, rfl, rfl, rfl, rfl⟩

theorem same_setResult (s : Client) (d : Completion Origin) :
    Same s { s with session := (s.session.setResult d).1 } := by
  have hcalls : (s.session.setResult d).1.calls = s.session.calls := by
    rw [Session.setResult_frame]
  exact ⟨hcalls, Session.setResult_futures (fun _ _ _ => rfl) s.session d, fun _ h => h, rfl, rfl,
    rfl, rfl⟩

/-! ## Steps -/

theorem Transmitted.sendRequest (h : Transmitted s T) (method params : Object) :
    Transmitted { s with session := s.session.sendRequest method params }
      (↑[Task.insert s.session.calls.length] + T) := by
  refine ⟨?_, ?_, ?_, h.socket, h.closed, h.written, h.ordered⟩
  · rw [filterMap_some rfl]
    exact h.sent.sendRequest method params
  · rw [filterMap_some rfl]
    exact h.connected.sendRequest method params
  · rw [filterMap_none rfl]
    exact h.inserted

theorem Transmitted.insert {c : Nat} (h : Transmitted s (↑[Task.insert c] + T)) (call : Call) :
    Transmitted { s with session := s.session.sendRequestImpl c call } (↑[Task.connect c] + T) := by
  have hfutures : (s.session.sendRequestImpl c call).futures.map Future.call =
      s.session.futures.map Future.call ++ [c] := by
    simp [Session.sendRequestImpl]
  have hsent := h.sent
  have hconnected := h.connected
  have hold := h.inserted
  rw [filterMap_some rfl] at hsent hconnected
  rw [filterMap_none rfl] at hold
  refine ⟨?_, ?_, ?_, h.socket, h.closed, h.written, h.ordered⟩
  · rw [filterMap_some rfl]
    exact ⟨hsent.nodup, hsent.called⟩
  · rw [filterMap_some rfl]
    exact ⟨hconnected.nodup, hconnected.called⟩
  · intro c' hc'
    rw [filterMap_some rfl] at hc'
    rw [hfutures, List.mem_append, List.mem_singleton]
    rcases Multiset.mem_cons.1 hc' with rfl | hc'
    · exact .inr rfl
    · exact .inl (hold c' hc')

theorem Transmitted.establish {c : Nat} (h : Transmitted s (↑[Task.connect c] + T)) :
    Transmitted (s.establish c) (↑[Task.write c] + T) := by
  have hsent := h.sent
  have hinserted := h.inserted
  rw [filterMap_some rfl] at hsent hinserted
  refine ⟨?_, ?_, ?_, ?_, ?_, ?_, h.ordered⟩
  · rw [filterMap_some rfl]
    exact hsent
  · -- the call was with the task, and is now among those that have connected
    have hmove : (↑[Task.write c] + T).filterMap Task.unconnected + ↑(s.connectedBy ++ [c]) =
        (↑[Task.connect c] + T).filterMap Task.unconnected + ↑s.connectedBy := by
      rw [filterMap_none rfl, filterMap_some rfl, ← Multiset.coe_add, ← add_assoc, add_comm]
      exact Multiset.singleton_add c _
    exact h.connected.mono hmove.le (Nat.le_refl _)
  · rw [filterMap_some rfl]
    exact hinserted
  · intro n hn
    cases hn
    exact ⟨rfl, h.closed⟩
  · exact fun d hd => Nat.lt_succ_of_lt (h.closed d hd)
  · exact fun w hw => Nat.lt_succ_of_lt (h.written w hw)

theorem Transmitted.wrote {c n : Nat} (h : Transmitted s (↑[Task.write c] + T))
    (hn : s.socket = .connected n) :
    Transmitted { s with written := s.written ++ [(c, n)] } (↑([] : List Task) + T) := by
  have hlast := (h.socket n hn).1
  have hmove {f : Task → Option Nat} (hf : f (.write c) = some c) :
      (↑([] : List Task) + T).filterMap f + ↑((s.written ++ [(c, n)]).map Prod.fst) =
        (↑[Task.write c] + T).filterMap f + ↑(s.written.map Prod.fst) := by
    rw [filterMap_some hf, Multiset.coe_nil, zero_add, List.map_append, ← Multiset.coe_add,
      ← add_assoc, add_comm]
    exact Multiset.singleton_add c _
  have hconnected := h.connected
  rw [filterMap_none rfl] at hconnected
  refine ⟨h.sent.mono (hmove rfl).le (Nat.le_refl _), ?_, ?_, h.socket, h.closed, ?_, ?_⟩
  · rw [Multiset.coe_nil, zero_add]
    exact hconnected
  · rw [hmove rfl]
    exact h.inserted
  · intro w hw
    rcases List.mem_append.1 hw with hw | hw
    · exact h.written w hw
    · obtain rfl := List.mem_singleton.1 hw
      exact Nat.lt_of_succ_le hlast.le
  · rw [List.map_append, List.pairwise_append]
    refine ⟨h.ordered, List.pairwise_singleton _ _, ?_⟩
    intro m hm m' hm'
    obtain ⟨w, hw, rfl⟩ := List.mem_map.1 hm
    obtain rfl := List.mem_singleton.1 hm'
    have hlt := h.written w hw
    rw [← hlast] at hlt
    exact Nat.le_of_lt_succ hlt

theorem Transmitted.closeSocket (h : Transmitted s T) (o : Origin) :
    Transmitted (s.closeSocket o) T := by
  refine ⟨h.sent, h.connected, h.inserted, ?_, ?_, h.written, h.ordered⟩
  · intro n hn
    cases hn
  · intro d hd
    rcases List.mem_append.1 hd with hd | hd
    · exact h.closed d hd
    · obtain ⟨n, hn, rfl⟩ := List.mem_map.1 hd
      rcases hs : s.socket with _ | _ | m
      · simp [hs, Socket.conn] at hn
      · simp [hs, Socket.conn] at hn
      · simp only [hs, Socket.conn, Option.toList_some, List.mem_singleton] at hn
        rw [hn]
        exact Nat.lt_of_succ_le (h.socket m hs).1.le

theorem transmitted_step (h : Transmitted s (↑op.task.toList + T)) (hs : Steps s x op s' K) :
    Transmitted s' (↑K + T) := by
  cases hs with
  | quiet hq => exact h.mono hq.same (.refl _) (.refl _) (.refl _)
  | sendRequest method params =>
    refine Transmitted.sendRequest ?_ method params
    simpa [Op.task] using h
  | insert hcall => exact h.insert _
  | found => exact h.mono (.refl s) (.refl _) (List.nil_sublist _) (.refl _)
  | opened hclosed =>
    exact h.mono ⟨rfl, rfl, by simp, rfl, rfl, rfl, rfl⟩ (.refl _) (.refl _) (.refl _)
  | established => exact h.establish
  | gaveUp =>
    exact h.mono ⟨rfl, rfl, fun _ h => h, rfl, rfl, rfl, rfl⟩ (.refl _) (List.nil_sublist _) (.refl _)
  | dropped hop =>
    exact h.mono (.refl s) (List.nil_sublist _) (List.nil_sublist _) (List.nil_sublist _)
  | wrote hn => exact h.wrote hn
  | writeFailed c =>
    exact h.mono (.refl s) (List.nil_sublist _) (List.nil_sublist _) (List.nil_sublist _)
  | readFailed =>
    exact h.mono ⟨rfl, rfl, fun _ h => h, rfl, rfl, rfl, rfl⟩ (.refl _) (.refl _) (.refl _)
  | expired =>
    exact h.mono ⟨rfl, rfl, fun _ h => h, rfl, rfl, rfl, rfl⟩ (.refl _) (.refl _) (.refl _)
  | sweep hs =>
    refine h.mono (same_hands hs) ?_ ?_ ?_ <;> rw [filterMap_completions fun _ => rfl] <;>
      exact List.nil_sublist _
  | take hop hs =>
    refine h.mono (same_hands hs) ?_ ?_ ?_ <;> rw [filterMap_completions fun _ => rfl] <;>
      exact List.nil_sublist _
  | skipped => exact h.mono (.refl s) (.refl _) (.refl _) (.refl _)
  | close o => exact (h.closeSocket o).mono (.refl _) (.refl _) (.refl _) (.refl _)
  | complete d => exact h.mono (same_setResult s d) (.refl _) (.refl _) (.refl _)

/-! ## Runs -/

/-- **Runs.** What is kept by every one of `Steps` holds after a run of the client, wherever the run
begins. -/
theorem steps_invariant (P : Client → Multiset Task → Prop)
    (hstep : ∀ s x op s' K T, P s (↑op.task.toList + T) → Steps s x op s' K → P s' (↑K + T))
    {c c' : Config Client Op} {ls : List (Label Op Choice)} (h : P c.shared (tasks c.pending))
    (hrun : machine.run c ls = some c') : P c'.shared (tasks c'.pending) := by
  refine machine.invariant (G := fun _ _ _ _ => True) (fun s ops => P s (tasks ops)) ?_ ?_ h
    (System.meets_true c ls) hrun
  · intro s ops op hP hop
    rw [tasks_cons, Op.task_of_entry hop, Option.toList_none, Multiset.coe_nil, zero_add]
    exact hP
  · intro s op rest x s' k hP _ hx
    rw [tasks_cons] at hP
    rw [tasks_add]
    exact hstep s x op s' _ _ hP (exec_steps hx)

/-- What a run that begins in `s₀` has written: `new`, on the connection that the socket had and on
later ones. -/
structure Written (s₀ s : Client) (new : List (Nat × Nat)) : Prop where
  written : s.written = s₀.written ++ new
  conns : s₀.conns ≤ s.conns
  socket : ∀ n, s.socket = .connected n → s₀.socket = .connected n ∨ s₀.conns ≤ n
  later : ∀ w ∈ new, s₀.socket = .connected w.2 ∨ s₀.conns ≤ w.2

theorem Written.same {s₀ : Client} {new : List (Nat × Nat)} (h : Written s₀ s new)
    (hs : Same s s') : Written s₀ s' new :=
  ⟨hs.written.trans h.written, hs.conns ▸ h.conns, fun n hn => h.socket n (hs.socket n hn), h.later⟩

theorem written_step {s₀ : Client} {new : List (Nat × Nat)} (h : Written s₀ s new)
    (hs : Steps s x op s' K) : ∃ new, Written s₀ s' new := by
  cases hs with
  | quiet hq => exact ⟨new, h.same hq.same⟩
  | sendRequest | insert | found | gaveUp | dropped | writeFailed | readFailed | expired | skipped =>
    exact ⟨new, h.written, h.conns, h.socket, h.later⟩
  | opened =>
    exact ⟨new, h.written, h.conns, by simp, h.later⟩
  | established =>
    refine ⟨new, h.written, Nat.le_succ_of_le h.conns, ?_, h.later⟩
    intro n hn
    cases hn
    exact .inr h.conns
  | @wrote c n hn =>
    refine ⟨new ++ [(c, n)], ?_, h.conns, h.socket, ?_⟩
    · rw [← List.append_assoc, ← h.written]
    · intro w hw
      rcases List.mem_append.1 hw with hw | hw
      · exact h.later w hw
      · obtain rfl := List.mem_singleton.1 hw
        exact h.socket n hn
  | sweep hs | take _ hs => exact ⟨new, h.same (same_hands hs)⟩
  | close o =>
    refine ⟨new, h.written, h.conns, ?_, h.later⟩
    intro n hn
    cases hn
  | complete d => exact ⟨new, h.same (same_setResult s d)⟩

theorem transmitted_init (connectTimeout reconnectLimit : Int) (timeout : BitVec 32) :
    Transmitted (init connectTimeout reconnectLimit timeout).shared 0 := by
  refine ⟨⟨?_, ?_⟩, ⟨?_, ?_⟩, ?_, ?_, ?_, ?_, ?_⟩ <;> simp [init]

/-- **No message is sent twice.** In every run, over any number of connections made and lost, the
message of a call is written at most once and a call makes at most one connection, and the messages
are written on the connections in the order in which these are made. What is written between two
states of a run goes out on the connection that the socket had in the first, if it was connected, or
on one made later, and never on one that was closed; the future of its call has been inserted. -/
theorem sent_once {connectTimeout reconnectLimit : Int} {timeout : BitVec 32}
    {c c' : Config Client Op} {ls ls' : List (Label Op Choice)}
    (hrun : machine.run (init connectTimeout reconnectLimit timeout) ls = some c)
    (hrun' : machine.run c ls' = some c') :
    (c'.shared.written.map Prod.fst).Nodup ∧ c'.shared.connectedBy.Nodup ∧
      (c'.shared.written.map Prod.snd).Pairwise (· ≤ ·) ∧
      ∃ new, c'.shared.written = c.shared.written ++ new ∧
        ∀ w ∈ new, w.1 ∈ c'.shared.session.futures.map Future.call ∧ w.2 < c'.shared.conns ∧
          (c.shared.socket = .connected w.2 ∨ c.shared.conns ≤ w.2) ∧
          w.2 ∉ c.shared.closed.map Closing.conn := by
  have hc : Transmitted c.shared (tasks c.pending) :=
    steps_invariant Transmitted (fun _ _ _ _ _ _ => transmitted_step)
      (transmitted_init connectTimeout reconnectLimit timeout) hrun
  obtain ⟨hc', new, hnew⟩ := steps_invariant
    (fun s T => Transmitted s T ∧ ∃ new, Written c.shared s new)
    (fun s x op s' K T h hs => ⟨transmitted_step h.1 hs, h.2.elim fun _ hw => written_step hw hs⟩)
    ⟨hc, [], (List.append_nil _).symm, Nat.le_refl _, fun _ => .inl, by simp⟩ hrun'
  refine ⟨(Multiset.nodup_add.1 hc'.sent.nodup).2.1, (Multiset.nodup_add.1 hc'.connected.nodup).2.1,
    hc'.ordered, new, hnew.written, ?_⟩
  intro w hw
  have hmem : w ∈ c'.shared.written := by
    rw [hnew.written]
    exact List.mem_append_right _ hw
  refine ⟨?_, hc'.written w hmem, hnew.later w hw, ?_⟩
  · exact hc'.inserted w.1 (Multiset.mem_add.2 (.inr (List.mem_map_of_mem hmem)))
  · intro hclosed
    obtain ⟨d, hd, hconn⟩ := List.mem_map.1 hclosed
    rcases hnew.later w hw with hsock | hge
    · exact absurd ((hc.socket _ hsock).2 d hd) (hconn ▸ Nat.lt_irrefl _)
    · exact absurd (hc.closed d hd) (hconn ▸ Nat.not_lt.2 hge)

end

/-- A request is sent, and the write of the next one fails. -/
def losing : List (Label Op Choice) :=
  .spawn (.sendRequest (.str [0x66]) .nil) :: List.replicate 15 (.exec 0 {}) ++
  .spawn (.sendRequest (.str [0x67]) .nil) :: List.replicate 5 (.exec 1 {}) ++
  [.exec 1 { ok := false }, .exec 1 { it := [⟨2, 1⟩, ⟨1, 0⟩] }] ++ List.replicate 4 (.exec 1 {})

/-- The state when the connection is lost. -/
def lost : Config Client Op := (machine.run (init 10 3 30) losing).getD (init 10 3 30)

/-- A third request is sent. -/
def reconnecting : List (Label Op Choice) :=
  .spawn (.sendRequest (.str [0x68]) .nil) :: List.replicate 15 (.exec 2 {})

/-- The state when it is written. -/
def reconnected : Config Client Op := (machine.run lost reconnecting).getD lost

/-- The first two requests are not sent on the new connection, although the second was never
written. -/
theorem sent_once_reconnected : lost.shared.closed.map Closing.conn = [0] ∧
    reconnected.shared.written.map Prod.fst = [0, 2] ∧
    ∃ new, reconnected.shared.written = lost.shared.written ++ new ∧ ∀ w ∈ new, w.2 ∉ [0] := by
  have hrun : machine.run (init 10 3 30) losing = some lost :=
    (Option.getD_of_ne_none (by decide +kernel) _).symm
  have hrun' : machine.run lost reconnecting = some reconnected :=
    (Option.getD_of_ne_none (by decide +kernel) _).symm
  have hclosed : lost.shared.closed.map Closing.conn = [0] := by decide +kernel
  obtain ⟨-, -, -, new, hnew, hlater⟩ := sent_once hrun hrun'
  exact ⟨hclosed, by decide +kernel, new, hnew, fun w hw => hclosed ▸ (hlater w hw).2.2.2⟩

end Tcp

end MsgpackRpc
