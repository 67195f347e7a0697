import MsgpackRpc.Format
import MsgpackRpc.Tcp.Server

/-!
# The connections of the TCP server

`m_connections` holds the accepted connections for which no error was reported (`live`). An error is
reported by the `on_read` that failed or by a write that failed, by any of them more than once and also
while an `on_read` of the connection goes on; after the first report the connection is no member, and
what its `on_read`s still do is of no account. For a member the reads outstanding and the `on_read`s
under way make one (`outstanding`). `Exact` is the invariant of the runs before `close`.
-/

namespace MsgpackRpc

open Threads Unpack

namespace Tcp

namespace ServerTransport

/-- The connections accepted for which no error was reported. -/
def live (s : ServerTransport) : List SocketId := s.accepted.filter (· ∉ s.reported)

/-- The reads outstanding on a socket. -/
def readsOf (s : ServerTransport) (i : SocketId) : Nat :=
  (s.sockets[i]?.map StreamHandler.reads).getD 0

/-- The reads outstanding on a socket, and the `on_read`s that may arm another. -/
def outstanding (s : ServerTransport) (ops : Multiset Op) (i : SocketId) : Nat :=
  s.readsOf i + ops.countP fun o => o.reading i

/-- The steps before `close`, where `set_option` succeeds. -/
def BeforeClose (_ : ServerTransport) (_ : Multiset Op) (op : Op) (x : Choice) : Prop :=
  op ≠ .close ∧ x.noDelay = true

instance (s : ServerTransport) (ops : Multiset Op) (op : Op) (x : Choice) :
    Decidable (BeforeClose s ops op x) :=
  inferInstanceAs (Decidable (_ ∧ _))

/-- The invariant. -/
structure Exact (s : ServerTransport) (ops : Multiset Op) : Prop where
  connections : s.connections.Perm (s.live.map some)
  accepted : s.accepted.Nodup
  reported : ∀ i ∈ s.reported, i ∈ s.accepted
  constructed : ∀ i ∈ s.accepted, i < s.sockets.length
  conn : ∃ i, s.conn = some i ∧ i ∉ s.accepted ∧ i < s.sockets.length
  idle : ∀ i ∉ s.accepted, s.outstanding ops i = 0
  reads : ∀ i ∈ s.live, s.outstanding ops i = 1

section
variable {s s' : ServerTransport} {op : Op} {ops rest : Multiset Op} {k : List Op}
  {i j : SocketId}

theorem mem_live : i ∈ s.live ↔ i ∈ s.accepted ∧ i ∉ s.reported := by
  simp [live]

/-! ## Outstanding reads -/

theorem countP_cons (op : Op) (ops : Multiset Op) (i : SocketId) :
    (op ::ₘ ops).countP (fun o => o.reading i) =
      [op].countP (Op.reading i) + ops.countP fun o => o.reading i := by
  rw [Multiset.countP_cons, List.countP_singleton]
  exact Nat.add_comm _ _

theorem countP_add (k : List Op) (ops : Multiset Op) (i : SocketId) :
    (↑k + ops : Multiset Op).countP (fun o => o.reading i) =
      k.countP (Op.reading i) + ops.countP fun o => o.reading i := by
  rw [Multiset.countP_add, Multiset.coe_countP]
  simp

theorem readsOf_modify {f : StreamHandler → StreamHandler} (hf : ∀ h, (f h).reads = h.reads) :
    ({ s with sockets := s.sockets.modify i f } : ServerTransport).readsOf j = s.readsOf j := by
  unfold readsOf
  rw [List.getElem?_modify]
  rcases s.sockets[j]? with _ | h
  · rfl
  · split
    · exact hf h
    · rfl

theorem readsOf_withSocket {h h' : StreamHandler} (hi : s.sockets[i]? = some h) :
    (s.withSocket i h').readsOf j = if j = i then h'.reads else s.readsOf j := by
  have hlt := (List.getElem?_eq_some_iff.1 hi).1
  unfold readsOf withSocket
  split
  · next heq =>
    subst heq
    rw [List.getElem?_set_self hlt]
    rfl
  · next hne => rw [List.getElem?_set_ne (Ne.symm hne)]

/-- A part of an `on_read` changes nothing in the balance. -/
theorem outstanding_read {h h' : StreamHandler} (hi : s.sockets[i]? = some h)
    (hr : Reads i op h h' k) :
    (s.withSocket i h').outstanding (↑k + rest) j = s.outstanding (op ::ₘ rest) j := by
  have hcount := hr.count
  unfold outstanding
  rw [countP_add, countP_cons, readsOf_withSocket hi]
  split
  · next heq =>
    subst heq
    have hreads : s.readsOf j = h.reads := by rw [readsOf, hi]; rfl
    omega
  · next hne =>
    obtain ⟨h1, h2⟩ := hr.others j hne
    rw [h1, List.countP_singleton, h2]
    rfl

/-- A new socket has none. -/
theorem readsOf_startAccept : s.startAccept.readsOf j = s.readsOf j := by
  unfold readsOf startAccept
  dsimp only
  rw [List.getElem?_append]
  split
  · rfl
  · next hge =>
    have hnone : s.sockets[j]? = none := List.getElem?_eq_none (Nat.not_lt.1 hge)
    rw [hnone]
    rcases hj : j - s.sockets.length with _ | n <;> rfl

/-! ## Steps -/

/-- A step that touches neither the connections nor the balance of their reads. -/
theorem Exact.congr (h : Exact s ops) (hc : s'.connections = s.connections)
    (ha : s'.accepted = s.accepted) (hr : s'.reported = s.reported) (hconn : s'.conn = s.conn)
    (hlen : s'.sockets.length = s.sockets.length)
    (hout : ∀ i, s'.outstanding rest i = s.outstanding ops i) : Exact s' rest := by
  have hlive : s'.live = s.live := by rw [live, ha, hr, live]
  refine ⟨?_, ?_, ?_, ?_, ?_, ?_, ?_⟩
  · rw [hc, hlive]
    exact h.connections
  · rw [ha]
    exact h.accepted
  · rw [hr, ha]
    exact h.reported
  · rw [ha, hlen]
    exact h.constructed
  · rw [hconn, ha, hlen]
    exact h.conn
  · intro i hi
    rw [ha] at hi
    rw [hout, h.idle i hi]
  · intro i hi
    rw [hlive] at hi
    rw [hout, h.reads i hi]

/-- An accept is started. -/
theorem Exact.startAccept (h : Exact s ops) : Exact s.startAccept ops := by
  have hlen : s.startAccept.sockets.length = s.sockets.length + 1 := by
    simp [ServerTransport.startAccept]
  have hout (i : SocketId) : s.startAccept.outstanding ops i = s.outstanding ops i := by
    rw [outstanding, readsOf_startAccept]
    rfl
  refine ⟨h.connections, h.accepted, h.reported, ?_, ?_, ?_, ?_⟩
  · intro i hi
    rw [hlen]
    exact Nat.lt_succ_of_lt (h.constructed i hi)
  · refine ⟨s.sockets.length, rfl, ?_, by rw [hlen]; exact Nat.lt_succ_self _⟩
    intro hmem
    exact Nat.lt_irrefl _ (h.constructed _ hmem)
  · intro i hi
    rw [hout]
    exact h.idle i hi
  · intro i hi
    rw [hout]
    exact h.reads i hi

/-- **A connection is accepted.** It was not a member, and its first read is started. -/
theorem Exact.accept (h : Exact s ops) (hi : s.conn = some i) :
    Exact (ServerTransport.startAccept { s with
      connections := s.connections.insert (some i)
      accepted := s.accepted ++ [i]
      sockets := s.sockets.modify i StreamHandler.start }) ops := by
  obtain ⟨i', hi', hnew, hlt⟩ := h.conn
  obtain rfl : i = i' := Option.some.inj (hi.symm.trans hi')
  have hnr : i ∉ s.reported := fun hr => hnew (h.reported i hr)
  have hlive : ({ s with accepted := s.accepted ++ [i] } : ServerTransport).live = s.live ++ [i] := by
    simp [live, List.filter_append, hnr]
  have hmem : some i ∉ s.connections := by
    intro hmem
    obtain ⟨j, hj, he⟩ := List.mem_map.1 (h.connections.subset hmem)
    cases he
    exact hnew (mem_live.1 hj).1
  -- before the next accept is started, the place of the accepted socket in `m_conn` is not taken yet
  let s₁ : ServerTransport := { s with
    connections := s.connections.insert (some i)
    accepted := s.accepted ++ [i]
    sockets := s.sockets.modify i StreamHandler.start }
  have hreads (j : SocketId) : s₁.readsOf j = s.readsOf j + if j = i then 1 else 0 := by
    unfold readsOf
    rw [List.getElem?_modify]
    split
    · next heq =>
      subst heq
      rw [List.getElem?_eq_getElem hlt, if_pos rfl]
      rfl
    · next hne =>
      rw [if_neg (Ne.symm hne)]
      rcases s.sockets[j]? with _ | g <;> rfl
  have hout (j : SocketId) : s₁.startAccept.outstanding ops j =
      s.outstanding ops j + if j = i then 1 else 0 := by
    rw [outstanding, readsOf_startAccept, hreads, outstanding]
    exact Nat.add_right_comm _ _ _
  have hlen : s₁.startAccept.sockets.length = s.sockets.length + 1 := by
    simp [s₁, ServerTransport.startAccept]
  refine ⟨?_, ?_, ?_, ?_, ?_, ?_, ?_⟩
  · show (s.connections.insert (some i)).Perm (({ s with accepted := s.accepted ++ [i] } :
      ServerTransport).live.map some)
    rw [List.insert_of_not_mem hmem, hlive, List.map_append]
    exact (h.connections.cons (some i)).trans (List.perm_append_singleton _ _).symm
  · show (s.accepted ++ [i]).Nodup
    exact List.nodup_append.2 ⟨h.accepted, List.nodup_singleton i, fun a ha b hb hab =>
      hnew (List.mem_singleton.1 hb ▸ hab ▸ ha)⟩
  · intro j hj
    exact List.mem_append_left _ (h.reported j hj)
  · intro j hj
    rw [hlen]
    rcases List.mem_append.1 hj with hj | hj
    · exact Nat.lt_succ_of_lt (h.constructed j hj)
    · rw [List.mem_singleton.1 hj]
      exact Nat.lt_succ_of_lt hlt
  · have hsize : s₁.sockets.length = s.sockets.length := List.length_modify ..
    refine ⟨s₁.sockets.length, rfl, ?_, by rw [hlen, hsize]; exact Nat.lt_succ_self _⟩
    rw [hsize]
    intro hj
    rcases List.mem_append.1 hj with hj | hj
    · exact Nat.lt_irrefl _ (h.constructed _ hj)
    · rw [← List.mem_singleton.1 hj] at hlt
      exact Nat.lt_irrefl _ hlt
  · intro j hj
    obtain ⟨hj, hne⟩ := not_or.1 (mt List.mem_append.2 hj)
    rw [hout, h.idle j hj, if_neg (mt List.mem_singleton.2 hne)]
  · intro j hj
    have hj : j ∈ s.live ++ [i] := hlive ▸ hj
    rw [hout]
    rcases List.mem_append.1 hj with hj | hj
    · have hne : j ≠ i := fun he => hnew (he ▸ (mem_live.1 hj).1)
      rw [h.reads j hj, if_neg hne]
    · obtain rfl := List.mem_singleton.1 hj
      rw [h.idle j hnew, if_pos rfl]

/-- What is left of the connections when an error is reported. -/
theorem live_report : ({ s with reported := s.reported ++ [i] } : ServerTransport).live =
    s.live.filter (· ≠ i) := by
  unfold live
  rw [List.filter_filter]
  refine List.filter_congr fun j _ => ?_
  simp [and_comm]

/-- **An error is reported.** -/
theorem Exact.onSystemError (h : Exact s ops) (hi : i ∈ s.accepted) (debug : Bool)
    (gone : List SocketId) (hout : ∀ j ≠ i, s.outstanding rest j = s.outstanding ops j) :
    Exact (ServerTransport.onSystemError debug s i gone) rest := by
  have hlive : (ServerTransport.onSystemError debug s i gone).live = s.live.filter (· ≠ i) :=
    live_report
  have hlen : (ServerTransport.onSystemError debug s i gone).sockets.length = s.sockets.length :=
    List.length_modify ..
  have hreads (j : SocketId) : (ServerTransport.onSystemError debug s i gone).readsOf j =
      s.readsOf j := by
    refine readsOf_modify (s := { s with
      connections := s.connections.erase (some i), reported := s.reported ++ [i] }) ?_
    intro g
    unfold stopped
    split
    · split <;> rfl
    · rfl
  have hsame (j : SocketId) (hj : j ≠ i) :
      (ServerTransport.onSystemError debug s i gone).outstanding rest j = s.outstanding ops j := by
    rw [outstanding, hreads]
    exact hout j hj
  refine ⟨?_, h.accepted, ?_, ?_, ?_, ?_, ?_⟩
  · have hnodup : s.live.Nodup := h.accepted.filter _
    have herase : s.live.filter (· ≠ i) = s.live.erase i := by
      rw [hnodup.erase_eq_filter]
      exact List.filter_congr fun j _ => by rw [Bool.eq_iff_iff]; simp
    rw [hlive, herase, List.map_erase (Option.some_injective _)]
    exact h.connections.erase (some i)
  · intro j hj
    rcases List.mem_append.1 hj with hj | hj
    · exact h.reported j hj
    · rw [List.mem_singleton.1 hj]
      exact hi
  · intro j hj
    rw [hlen]
    exact h.constructed j hj
  · obtain ⟨j, hj, hnew, hlt⟩ := h.conn
    exact ⟨j, hj, hnew, by rw [hlen]; exact hlt⟩
  · intro j hj
    have hne : j ≠ i := fun he => hj (he ▸ hi)
    rw [hsame j hne]
    exact h.idle j hj
  · intro j hj
    rw [hlive] at hj
    obtain ⟨hj, hne⟩ := List.mem_filter.1 hj
    rw [hsame j (of_decide_eq_true hne)]
    exact h.reads j hj

/-- An operation that is not part of an `on_read` is executed or added. -/
theorem outstanding_drop (hop : op.reading j = false) :
    s.outstanding (op ::ₘ rest) j = s.outstanding rest j := by
  rw [outstanding, countP_cons, List.countP_singleton, hop]
  exact congrArg (s.readsOf j + ·) (Nat.zero_add _)

theorem entry_reading (h : op.entry = true) : op.reading j = false := by
  cases op <;> first | rfl | cases h

/-- **One step.** -/
theorem exact_exec {d : Decoder UInt8 Object} {x : Choice} (h : Exact s (op ::ₘ rest))
    (hg : BeforeClose s (op ::ₘ rest) op x)
    (hx : (machine d false).exec s op x = some (s', k)) : Exact s' (↑k + rest) := by
  have hnil : (↑([] : List Op) + rest : Multiset Op) = rest := zero_add rest
  cases exec_steps hx with
  | @acceptCompletes n i ok hn =>
    have hreads (j : SocketId) : ({ s with
        accepts := s.accepts.set n ⟨i, some ok⟩
        sockets := if ok then s.sockets.modify i fun h => { h with isOpen := true }
          else s.sockets } : ServerTransport).readsOf j = s.readsOf j := by
      cases ok with
      | true =>
        exact readsOf_modify (s := { s with accepts := s.accepts.set n ⟨i, some true⟩ })
          fun _ => rfl
      | false => rfl
    refine h.congr rfl rfl rfl rfl ?_ ?_
    · cases ok with
      | true => exact List.length_modify ..
      | false => rfl
    · intro j
      rw [outstanding_drop rfl, hnil, outstanding, hreads]
      rfl
  | @onAccept n i ok hn =>
    have h₁ : Exact { s with accepts := s.accepts.eraseIdx n } rest := by
      refine h.congr rfl rfl rfl rfl rfl fun j => ?_
      rw [outstanding_drop rfl]
      rfl
    rw [hnil]
    cases ok with
    | false => exact h₁.startAccept
    | true =>
      obtain ⟨i', hi', -⟩ := h₁.conn
      have hi : s.conn = some i' := hi'
      have hrun : ServerTransport.onAccept false { s with accepts := s.accepts.eraseIdx n } true x =
          ServerTransport.startAccept { s with
            connections := s.connections.insert (some i')
            accepted := s.accepted ++ [i']
            sockets := s.sockets.modify i' StreamHandler.start
            accepts := s.accepts.eraseIdx n } := by
        simp only [ServerTransport.onAccept, hi, if_true, Bool.false_and, Bool.false_eq_true,
          if_false, hg.2]
      rw [hrun]
      exact h₁.accept hi
  | @read op i g g' k hi hr =>
    refine h.congr rfl rfl rfl rfl (List.length_set ..) fun j => ?_
    exact outstanding_read hi hr
  | @onReadFailed i g e hi =>
    have hacc : i ∈ s.accepted := by
      by_contra hacc
      have h0 := h.idle i hacc
      rw [outstanding, countP_cons, List.countP_singleton] at h0
      have h1 : (Op.onReadFailed i e).reading i = true := beq_self_eq_true i
      rw [h1, if_pos rfl] at h0
      omega
    have h₁ : Exact (s.withSocket i { g with raised := g.raised ++ e.toList })
        (Op.onReadFailed i e ::ₘ rest) := by
      refine h.congr rfl rfl rfl rfl (List.length_set ..) fun j => ?_
      rw [outstanding, readsOf_withSocket hi, outstanding]
      split
      · next heq =>
        subst heq
        rw [readsOf, hi]
        rfl
      · rfl
    refine h₁.onSystemError hacc false x.gone fun j hj => ?_
    have hop : (Op.onReadFailed i e).reading j = false := beq_eq_false_iff_ne.2 (Ne.symm hj)
    rw [outstanding_drop hop]
    exact outstanding_drop rfl
  | @sendData i k hacc hk =>
    refine h.congr rfl rfl rfl rfl rfl fun j => ?_
    rw [outstanding_drop rfl]
    rcases hk with rfl | rfl
    · rw [hnil]
    · exact outstanding_drop rfl
  | @onSystemError i hacc =>
    rw [hnil]
    exact h.onSystemError hacc false x.gone fun j _ => (outstanding_drop rfl).symm
  | close => exact absurd rfl hg.1

theorem exact_init : Exact init.shared init.pending := by
  refine ⟨.nil, List.nodup_nil, ?_, ?_, ⟨0, rfl, ?_, Nat.zero_lt_one⟩, ?_, ?_⟩
  · intro i hi
    cases hi
  · intro i hi
    cases hi
  · intro hi
    cases hi
  · intro i _
    rcases i with _ | i <;> rfl
  · intro i hi
    cases hi

/-- **The invariant holds in every run before `close`.** -/
theorem exact_run {d : Decoder UInt8 Object} {ls : List (Label Op Choice)}
    {c : Config ServerTransport Op} (hG : (machine d false).Meets BeforeClose init ls)
    (hrun : (machine d false).run init ls = some c) : Exact c.shared c.pending := by
  refine System.invariant Exact ?_ ?_ exact_init hG hrun
  · intro s ops op h he
    refine h.congr rfl rfl rfl rfl rfl fun j => ?_
    exact outstanding_drop (entry_reading he)
  · intro s op rest x s' k h hg hx
    exact exact_exec h hg hx

/-! ## The connection set -/

/-- The operations that report an error on a connection. -/
def Op.reports (i : SocketId) : Op → Bool
  | .onReadFailed j _ | .onSystemError j => j == i
  | _ => false

/-- Exactly one read of a connection is outstanding, and no `on_read` is under way, or the other way
round. -/
def OneRead (s : ServerTransport) (ops : Multiset Op) (i : SocketId) : Prop :=
  ∃ h, s.sockets[i]? = some h ∧
    (h.reads = 1 ∧ ops.countP (fun o => o.reading i) = 0 ∨
      h.reads = 0 ∧ ops.countP (fun o => o.reading i) = 1)

theorem Exact.oneRead (h : Exact s ops) (hi : i ∈ s.live) : OneRead s ops i := by
  have hlt := h.constructed i (mem_live.1 hi).1
  have hsum := h.reads i hi
  have hget : s.sockets[i]? = some s.sockets[i] := List.getElem?_eq_getElem hlt
  refine ⟨s.sockets[i], hget, ?_⟩
  rw [outstanding, readsOf, hget] at hsum
  exact Nat.add_eq_one_iff.1 hsum |>.symm.imp id id

/-- The membership of a connection without a report. -/
theorem Exact.mem_connections (h : Exact s ops) : some i ∈ s.connections ↔ i ∈ s.live := by
  rw [h.connections.mem_iff, List.mem_map]
  constructor
  · rintro ⟨j, hj, he⟩
    cases he
    exact hj
  · exact fun hi => ⟨i, hi, rfl⟩

/-- An error report on one connection leaves every other as it is. -/
theorem reports_frame {d : Decoder UInt8 Object} {x : Choice} (hop : op.reports i = true)
    (hx : (machine d false).exec s op x = some (s', k)) (hne : j ≠ i) :
    (some j ∈ s'.connections ↔ some j ∈ s.connections) ∧ s'.sockets[j]? = s.sockets[j]? ∧
      (s'.connections = s.connections.erase (some i) ∧ s'.accepted = s.accepted ∧
        s'.reported = s.reported ++ [i]) := by
  have hmem : some j ∈ s.connections.erase (some i) ↔ some j ∈ s.connections :=
    List.mem_erase_of_ne fun he => hne (Option.some.inj he)
  cases op with
  | onReadFailed i' e =>
    obtain rfl := eq_of_beq hop
    obtain ⟨h, hi, he⟩ := Option.map_eq_some_iff.1 hx
    cases he
    refine ⟨hmem, ?_, rfl, rfl, rfl⟩
    show (List.modify (List.set _ _ _) _ _)[j]? = _
    rw [List.getElem?_modify_ne _ _ (Ne.symm hne), List.getElem?_set_ne (Ne.symm hne)]
  | onSystemError i' =>
    obtain rfl := eq_of_beq hop
    simp only [machine] at hx
    split at hx
    · cases hx
      refine ⟨hmem, ?_, rfl, rfl, rfl⟩
      exact List.getElem?_modify_ne _ _ (Ne.symm hne)
    · cases hx
  | _ => cases hop

end

/-- **The connection set is exact.** In every run before `close`, `m_connections` is the set of the
connections accepted for which no error was reported and `get_connection_num` is its size, and every
member has one read outstanding or is in one `on_read`. An error report removes its connection and
neither adds, removes nor stops another. -/
theorem connections_exact (d : Decoder UInt8 Object) {ls : List (Label Op Choice)}
    {c : Config ServerTransport Op} (hG : (machine d false).Meets BeforeClose init ls)
    (hrun : (machine d false).run init ls = some c) :
    (c.shared.connections.Perm (c.shared.live.map some) ∧ c.shared.live.Nodup ∧
      c.shared.getConnectionNum = c.shared.live.length ∧
      ∀ i, some i ∈ c.shared.connections → OneRead c.shared c.pending i) ∧
    ∀ l c' op i, (machine d false).step c l = some c' → System.executes c l = some op →
      op.reports i = true →
        i ∈ c'.shared.reported ∧ some i ∉ c'.shared.connections ∧
          c'.shared.accepted = c.shared.accepted ∧
          ∀ j ≠ i, (some j ∈ c'.shared.connections ↔ some j ∈ c.shared.connections) ∧
            c'.shared.sockets[j]? = c.shared.sockets[j]? := by
  have h := exact_run hG hrun
  have hlive : c.shared.live.Nodup := h.accepted.filter _
  refine ⟨⟨h.connections, hlive, ?_, ?_⟩, ?_⟩
  · rw [getConnectionNum, h.connections.length_eq, List.length_map]
  · intro i hi
    exact h.oneRead (h.mem_connections.1 hi)
  · intro l c' op i hstep hop hrep
    rcases System.step_cases hstep with ⟨o, rfl, -⟩ | ⟨n, x, o, rest, k, rfl, ho, hx, -⟩
    · cases hop
    · obtain rfl : o = op := Option.some.inj (ho.symm.trans hop)
      have hnodup : c.shared.connections.Nodup :=
        h.connections.nodup_iff.2 (hlive.map (Option.some_injective _))
      obtain ⟨-, -, hconn, hacc, hreported⟩ :=
        reports_frame hrep hx (j := i + 1) (Nat.succ_ne_self i)
      refine ⟨?_, ?_, hacc, ?_⟩
      · rw [hreported]
        exact List.mem_append_right _ (.head _)
      · rw [hconn]
        exact hnodup.not_mem_erase
      · intro j hne
        obtain ⟨hmem, hsock, -⟩ := reports_frame hrep hx hne
        exact ⟨hmem, hsock⟩

/-- Two connections are accepted. A read of the first fails while a response to the second is written,
which fails as well and is reported twice. -/
theorem connections_exact_two : ∃ c : Config ServerTransport Op,
    c.shared.connections = [] ∧ c.shared.live = [] ∧ c.shared.accepted = [0, 1] ∧
      c.shared.reported = [0, 1, 1] ∧ c.shared.getConnectionNum = c.shared.live.length := by
  let ls : List (Label Op Choice) :=
    [.spawn (.acceptCompletes 0 true), .exec 0 {}, .spawn (.onAccept 0), .exec 1 {},
      .spawn (.acceptCompletes 0 true), .exec 2 {}, .spawn (.onAccept 0), .exec 3 {},
      .spawn (.onRead 0 (.error 104)), .exec 4 {}, .spawn (.sendData 1), .exec 5 { written := false },
      .exec 4 {}, .exec 5 {}, .spawn (.onSystemError 1), .exec 6 {}]
  have hG : (machine Format.decoder false).Meets BeforeClose init ls := by decide
  rcases hrun : (machine Format.decoder false).run init ls with _ | c
  · exact absurd hrun (by decide)
  · have hc : ((machine Format.decoder false).run init ls).map (fun c => (c.shared.connections,
        c.shared.live, c.shared.accepted, c.shared.reported)) =
        some ([], [], [0, 1], [0, 1, 1]) := by decide
    rw [hrun] at hc
    obtain ⟨h1, h2⟩ := Prod.mk.inj (Option.some.inj hc)
    obtain ⟨h2, h3⟩ := Prod.mk.inj h2
    obtain ⟨h3, h4⟩ := Prod.mk.inj h3
    exact ⟨c, h1, h2, h3, h4, (connections_exact Format.decoder hG hrun).1.2.2.1⟩

end ServerTransport

end Tcp

end MsgpackRpc
