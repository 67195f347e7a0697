import MsgpackRpc.Tcp.Steps

/-!
# Read completions of old connections

One `client_socket` serves every connection, and `on_read` does not know which connection its read
was of. The completion of a read of connection `n` may be delivered when `n` has been closed, by a
failed write or by another completion. `on_read` then takes it for a failure of whatever the socket
is doing by then: it sweeps requests that have nothing to do with `n`, and closes the socket of a
later connection (`staleRead_sweeps`).

`onRead_spares_newer` says which runs are free of this: those in which a failed completion of a closed
connection is delivered only while no request inserted since is outstanding and no later connection
is open, and in which no request is inserted and no connection made before `on_read` is through.
-/

namespace MsgpackRpc

open Threads

namespace Tcp

/-- The read completion that an operation delivers, with its connection. -/
def Op.delivering (s : Client) : Op → Option (Nat × ReadResult)
  | .onRead i => s.completed[i]?
  | _ => none

/-- The steps at which a failed read of a closed connection meets nothing newer than the connection:
its delivery, and the insertion of a request or the making of a connection while it is handled. -/
def Fresh (s : Client) (T : Multiset Task) (op : Op) (x : Choice) : Prop :=
  (∀ r ∈ op.delivering s, r.2.fails = true →
    (∀ e ∈ s.closed, e.conn = r.1 → ∀ f ∈ s.session.reqtable.values, f < e.inserted) ∧
      ∀ m ∈ s.socket.conn, m ≤ r.1) ∧
  (∀ _ ∈ op.inserting, ∀ e ∈ s.closed, .sweep (.onRead e.conn) ∉ T) ∧
  ∀ _ ∈ op.establishing s x, ∀ n < s.conns, .close (.onRead n) ∉ T

instance (s : Client) (T : Multiset Task) (op : Op) (x : Choice) : Decidable (Fresh s T op x) :=
  inferInstanceAs (Decidable (_ ∧ _ ∧ _))

/-- What a read of an old connection, being handled or handled, has to do with newer ones. -/
structure Spared (s : Client) (T : Multiset Task) : Prop where
  sweep : ∀ e ∈ s.closed, .sweep (.onRead e.conn) ∈ T →
    ∀ f ∈ s.session.reqtable.values, f < e.inserted
  close : ∀ n, .close (.onRead n) ∈ T → ∀ m ∈ s.socket.conn, m ≤ n
  handed : ∀ d ∈ s.session.handed, ∀ e ∈ s.closed, d.origin = .onRead e.conn → d.future < e.inserted
  closed : ∀ e ∈ s.closed, ∀ n, e.closer = .onRead n → e.conn ≤ n

/-- A step that takes out no future for a read and closes and connects nothing. -/
theorem Spared.mono {s s' : Client} {T T' : Multiset Task} (h : Spared s T)
    (hv : s'.session.reqtable.values ⊆ s.session.reqtable.values)
    (hh : ∀ d ∈ s'.session.handed, d ∈ s.session.handed ∨ ∀ n, d.origin ≠ .onRead n)
    (hc : s'.closed = s.closed) (hconn : ∀ m ∈ s'.socket.conn, m ∈ s.socket.conn)
    (hT : ∀ n, (.sweep (.onRead n) ∈ T' → .sweep (.onRead n) ∈ T) ∧
      (.close (.onRead n) ∈ T' → .close (.onRead n) ∈ T)) : Spared s' T' := by
  refine ⟨?_, ?_, ?_, ?_⟩
  · intro e he ht f hf
    exact h.sweep e (hc ▸ he) ((hT _).1 ht) f (hv hf)
  · intro n ht m hm
    exact h.close n ((hT n).2 ht) m (hconn m hm)
  · intro d hd e he ho
    rcases hh d hd with hd | hd
    · exact h.handed d hd e (hc ▸ he) ho
    · exact absurd ho (hd _)
  · rw [hc]
    exact h.closed

theorem Spared.inert {s s' : Client} {T T' : Multiset Task} (h : Spared s T) (hi : Inert s s')
    (hT : ∀ n, (.sweep (.onRead n) ∈ T' → .sweep (.onRead n) ∈ T) ∧
      (.close (.onRead n) ∈ T' → .close (.onRead n) ∈ T)) : Spared s' T' := by
  refine h.mono hi.values_subset ?_ hi.closed ?_ hT
  · rw [hi.handed]
    exact fun _ => .inl
  · rw [hi.socket]
    exact fun _ => id

section
variable {s : Client} {T : Multiset Task}

/-- A connection is made while no `on_read` of an older one is going to close it. -/
theorem Spared.established {c : Nat} (h : Spared s (↑[Task.connect c] + T))
    (hnot : ∀ n < s.conns, .close (.onRead n) ∉ ↑[Task.connect c] + T) :
    Spared (s.establish c) (↑[Task.write c] + T) := by
  refine ⟨?_, ?_, h.handed, h.closed⟩
  · intro e he ht
    exact h.sweep e he (by simpa using ht)
  · intro n ht m hm
    obtain rfl := Option.some.inj hm
    by_contra hlt
    exact hnot n (Nat.lt_of_not_le hlt) (by simpa using ht)

/-- A failed read is delivered while nothing is newer than its connection. -/
theorem Spared.readFailed {n : Nat} (h : Spared s T) {completed : List (Nat × ReadResult)}
    (hnew : ∀ e ∈ s.closed, e.conn = n → ∀ f ∈ s.session.reqtable.values, f < e.inserted)
    (hconn : ∀ m ∈ s.socket.conn, m ≤ n) :
    Spared { s with completed } (↑[Task.sweep (.onRead n), .close (.onRead n)] + T) := by
  refine ⟨?_, ?_, h.handed, h.closed⟩
  · intro e he ht
    rcases Multiset.mem_add.1 ht with ht | ht
    · simp only [Multiset.mem_coe, List.mem_cons, Task.sweep.injEq, Origin.onRead.injEq,
        reduceCtorEq, List.not_mem_nil, or_self, or_false] at ht
      exact hnew e he ht
    · exact h.sweep e he ht
  · intro n' ht
    rcases Multiset.mem_add.1 ht with ht | ht
    · simp only [Multiset.mem_coe, List.mem_cons, Task.close.injEq, Origin.onRead.injEq,
        reduceCtorEq, List.not_mem_nil, or_false, false_or] at ht
      rw [ht]
      exact hconn
    · exact h.close n' ht

/-- The table is swept. -/
theorem Spared.swept {o : Origin} {session : Session Origin} {cs : List (Completion Origin)}
    (h : Spared s (↑[Task.sweep o] + T)) (hs : s.session.Hands session cs)
    (hempty : session.reqtable = ∅) (ho : ∀ d ∈ cs, d.origin = o ∧ d.error = CONNECT_ERROR) :
    Spared { s with session } (↑(cs.map Task.complete) + T) := by
  refine ⟨?_, ?_, ?_, h.closed⟩
  · intro e he ht f hf
    rw [hempty] at hf
    exact absurd hf (Multiset.notMem_zero f)
  · intro n ht
    exact h.close n (by simpa using ht)
  · intro d hd e he hde
    rw [hs.handed] at hd
    rcases List.mem_append.1 hd with hd | hd
    · exact h.handed d hd e he hde
    · have ho := (ho d hd).1
      rw [hde] at ho
      subst ho
      exact h.sweep e he (by simp) d.future (hs.mem_values hd)

/-- Closing the socket adds the record of its connection. -/
theorem mem_closeSocket_closed {o : Origin} {e : Closing} (he : e ∈ (s.closeSocket o).closed) :
    e ∈ s.closed ∨
      e.closer = o ∧ e.conn ∈ s.socket.conn ∧ e.inserted = s.session.futures.length := by
  rcases List.mem_append.1 he with he | he
  · exact .inl he
  · obtain ⟨n, hn, rfl⟩ := List.mem_map.1 he
    exact .inr ⟨rfl, Option.mem_toList.1 hn, rfl⟩

/-- The socket is closed. All futures so far were inserted before. -/
theorem Spared.closeSocket {o : Origin} {pending : Multiset (Completion Origin)}
    (h : Spared s (↑[Task.close o] + T)) (hc : s.session.Conserved pending) :
    Spared (s.closeSocket o) T := by
  refine ⟨?_, by simp [Client.closeSocket, Socket.conn], ?_, ?_⟩
  · intro e he ht f hf
    rcases mem_closeSocket_closed he with he | ⟨-, -, he⟩
    · exact h.sweep e he (Multiset.mem_add.2 (.inr ht)) f hf
    · rw [he]
      exact hc.lt_length hf
  · intro d hd e he hde
    rcases mem_closeSocket_closed he with he | ⟨-, -, he⟩
    · exact h.handed d hd e he hde
    · rw [he]
      exact hc.handed_lt_length hd
  · intro e he n ho
    rcases mem_closeSocket_closed he with he | ⟨hcloser, hconn, -⟩
    · exact h.closed e he n ho
    · rw [hcloser] at ho
      subst ho
      exact h.close n (by simp) _ hconn

end

theorem spared_step {s s' : Client} {x : Choice} {op : Op} {K : List Task} {T : Multiset Task}
    (ha : Accounted s.session (↑op.task.toList + T)) (h : Spared s (↑op.task.toList + T))
    (hg : Fresh s (↑op.task.toList + T) op x) (hs : Steps s x op s' K) : Spared s' (↑K + T) := by
  have hnil : (↑([] : List Task) : Multiset Task) + T = T := zero_add T
  cases hs with
  | quiet hq => exact h.inert hq.inert fun _ => ⟨id, id⟩
  | complete d => exact h.inert (inert_setResult s d) fun n => by simp [Op.task]
  | insert hcall =>
    refine ⟨?_, ?_, h.handed, h.closed⟩
    · intro e he ht
      have hnot := hg.2.1 _ rfl e he
      simp only [Op.task, Option.toList_some, Multiset.coe_singleton, Multiset.singleton_add,
        Multiset.mem_cons, reduceCtorEq, false_or] at ht hnot
      exact absurd ht hnot
    · intro n ht
      exact h.close n (by simpa [Op.task] using ht)
  | established hok hopen => exact h.established (hg.2.2 _ (if_pos ⟨hok, hopen⟩))
  | readFailed hi hfails =>
    obtain ⟨hnew, hconn⟩ := hg.1 _ hi hfails
    simp only [Op.task, Option.toList_none, hnil] at h
    exact h.readFailed hnew hconn
  | sweep hs hempty ho => exact h.swept hs hempty ho
  | close o =>
    rw [hnil]
    exact h.closeSocket ha.conserved
  | take hop hs ho =>
    refine h.mono hs.values_subset ?_ rfl (fun _ => id) fun n => by simp [hop]
    intro d hd
    rw [hs.handed] at hd
    refine (List.mem_append.1 hd).imp_right ?_
    intro hd n hn
    rcases ho d hd with ho | ⟨ho, -⟩
    · rw [hn] at ho
      cases ho
    · rw [hn] at ho
      cases ho
  | dropped hop _ =>
    exact h.mono (fun _ => id) (fun _ => .inl) rfl (fun _ => id) (fun n => by simp [hop])
  | opened =>
    exact h.mono (fun _ => id) (fun _ => .inl) rfl (by simp [Socket.conn]) fun n => by simp [Op.task]
  | skipped =>
    refine h.mono (fun _ => id) (fun _ => .inl) rfl (fun _ => id) ?_
    intro n
    exact ⟨by simp [Op.task], fun ht => Multiset.mem_add.2 (.inr (by simpa using ht))⟩
  | sendRequest | found | gaveUp | wrote | writeFailed | expired =>
    exact h.mono (fun _ => id) (fun _ => .inl) rfl (fun _ => id) (fun n => by simp [Op.task])

/-- **Reads of old connections.** In every run whose steps meet `Fresh`: no future that the
`on_system_error` of an `on_read` of a connection has taken, to complete it with `CONNECT_ERROR`, was
inserted after that connection was closed, and no `on_read` has closed the socket of a later
connection than its own. -/
theorem onRead_spares_newer {connectTimeout reconnectLimit : Int} {timeout : BitVec 32}
    {ls : List (Label Op Choice)} {c : Config Client Op}
    (hG : machine.Meets (fun s ops => Fresh s (tasks ops))
      (init connectTimeout reconnectLimit timeout) ls)
    (hrun : machine.run (init connectTimeout reconnectLimit timeout) ls = some c) :
    (∀ d ∈ c.shared.session.handed, ∀ e ∈ c.shared.closed, d.origin = .onRead e.conn →
      d.future < e.inserted) ∧
      ∀ e ∈ c.shared.closed, ∀ n, e.closer = .onRead n → e.conn ≤ n := by
  have h := (invariant Spared (fun _ _ _ _ _ _ ha h hg hs => spared_step ha h hg hs)
    ⟨by simp [init], by simp, by simp [init], by simp [init]⟩ hG hrun).2
  exact ⟨h.handed, h.closed⟩

/-- A request is sent on the first connection. The write of the next one fails, which completes both
and closes the socket; the read of the first connection is aborted. -/
def writeFails : List (Label Op Choice) :=
  .spawn (.sendRequest (.str [0x66]) .nil) :: List.replicate 15 (.exec 0 {}) ++
  .spawn (.sendRequest (.str [0x67]) .nil) :: List.replicate 5 (.exec 1 {}) ++
  [.exec 1 { ok := false }, .exec 1 { it := [⟨2, 1⟩, ⟨1, 0⟩] }] ++ List.replicate 4 (.exec 1 {})

/-- A request is sent on a new connection, then the aborted read is delivered. -/
def staleRead : List (Label Op Choice) :=
  writeFails ++ .spawn (.sendRequest (.str [0x68]) .nil) :: List.replicate 15 (.exec 2 {}) ++
  [.spawn (.onRead 0), .exec 3 {}, .exec 3 { it := [⟨3, 2⟩] }] ++ List.replicate 3 (.exec 3 {})

/-- The state after that. -/
def staleReadHandled : Config Client Op := (machine.run (init 10 3 30) staleRead).getD (init 10 3 30)

/-- The read of connection 0, which was closed after two requests had been inserted, completes the
third one, and closes connection 1. -/
theorem staleRead_sweeps :
    machine.run (init 10 3 30) staleRead = some staleReadHandled ∧
      (∃ d ∈ staleReadHandled.shared.session.completions, ∃ e ∈ staleReadHandled.shared.closed,
        d.origin = .onRead e.conn ∧ d.error = CONNECT_ERROR ∧ ¬ d.future < e.inserted) ∧
      ∃ e ∈ staleReadHandled.shared.closed, ∃ n, e.closer = .onRead n ∧ ¬ e.conn ≤ n := by
  refine ⟨rfl, ⟨⟨2, .onRead 0, some 3, .nil, CONNECT_ERROR⟩, ?_, ⟨0, .sendData 1, 2⟩, ?_, rfl,
    rfl, by decide⟩, ⟨1, .onRead 0, 3⟩, ?_, 0, rfl, by decide⟩
  · exact List.mem_of_getElem? (i := 2) rfl
  · exact List.mem_of_getElem? (i := 0) rfl
  · exact List.mem_of_getElem? (i := 1) rfl

/-- The aborted read is delivered before the next request is sent. -/
def promptRead : List (Label Op Choice) :=
  writeFails ++ .spawn (.onRead 0) :: List.replicate 3 (.exec 2 {}) ++
  .spawn (.sendRequest (.str [0x68]) .nil) :: List.replicate 15 (.exec 3 {})

theorem onRead_spares_newer_promptRead :
    ∃ c, machine.run (init 10 3 30) promptRead = some c ∧ c.shared.socket = .connected 1 ∧
      ∀ e ∈ c.shared.closed, ∀ n, e.closer = .onRead n → e.conn ≤ n :=
  ⟨_, rfl, rfl, (onRead_spares_newer
    (by decide : machine.Meets (fun s ops => Fresh s (tasks ops)) (init 10 3 30) promptRead) rfl).2⟩

end Tcp

end MsgpackRpc
