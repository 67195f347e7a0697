import MsgpackRpc.Format
import MsgpackRpc.Tcp.Server

/-!
# The log filter on the TCP server

The debug statements of `on_accept` and of `stream_handler::stop` print `remote_endpoint`, which throws
when the peer has disconnected; `stop` catches that, but has then not closed the socket. The
server with debug records enabled and the one without are two systems over the same state, and
`Connected` is the guard that no such statement is reached with a peer that has gone and would change
what comes after. `log_filter_iff` shows that it is exact for what can be told from outside: the
accepts, the connections, and which sockets are open and read (`observed`).
-/

namespace MsgpackRpc

open Threads Unpack

namespace Tcp

namespace ServerTransport

/-- The accepts outstanding, the connection set, and for each socket whether it is open and how many
reads it has outstanding. -/
def observed (s : ServerTransport) :
    List Accept × List (Option SocketId) × List (Bool × Nat) :=
  (s.accepts, s.connections, s.sockets.map fun h => (h.isOpen, h.reads))

/-- A socket is not open with a peer that has gone. -/
def Present (s : ServerTransport) (gone : List SocketId) (i : SocketId) : Prop :=
  ∀ h ∈ s.sockets[i]?, h.isOpen = true → i ∉ gone

/-- No debug statement is reached with a peer that has gone, but on an accept whose `set_option` throws
anyway. -/
def Connected (s : ServerTransport) (op : Op) (x : Choice) : Prop :=
  match op with
  | .onAccept k =>
    ∀ a ∈ s.accepts[k]?, a.result = some true → ∀ i ∈ s.conn, i ∈ x.gone → x.noDelay = false
  | .onReadFailed i _ => Present s x.gone i
  | .onSystemError i => i ∈ s.accepted → Present s x.gone i
  | .close => ∀ i, some i ∈ s.connections → Present s x.gone i
  | _ => True

section
variable {d : Decoder UInt8 Object} {s s' : ServerTransport} {op : Op} {x : Choice}
  {gone : List SocketId} {i j : SocketId}

/-! ## `stop` -/

/-- `stop` on a socket does the same unless it is open and its peer has gone; it is then left open. -/
theorem stopped_true {h : StreamHandler} {g : Bool} (hg : h.isOpen = true → g = false) :
    stopped true g h = stopped false g h := by
  unfold stopped
  split
  · next ho =>
    rw [hg ho]
    rfl
  · rfl

theorem isOpen_stopped_true {h : StreamHandler} (ho : h.isOpen = true) :
    (stopped true true h).isOpen = true := by
  simp [stopped, ho]

theorem isOpen_stopped_false (h : StreamHandler) (g : Bool) : (stopped false g h).isOpen = false := by
  unfold stopped
  split
  · rfl
  · next ho => simpa using ho

/-- `stop` on a connection. -/
theorem stop_true (h : Present s gone i) : stop true gone s (some i) = stop false gone s (some i) := by
  have hmod : s.sockets.modify i (stopped true (i ∈ gone)) =
      s.sockets.modify i (stopped false (i ∈ gone)) := by
    refine List.ext_getElem? fun j => ?_
    rw [List.getElem?_modify, List.getElem?_modify]
    rcases hj : s.sockets[j]? with _ | g
    · rfl
    · split
      · next heq =>
        subst heq
        have hsame : stopped true (decide (i ∈ gone)) g = stopped false (decide (i ∈ gone)) g := by
          refine stopped_true fun ho => ?_
          exact decide_eq_false (h g hj ho)
        exact congrArg some hsame
      · rfl
  unfold stop
  dsimp only
  rw [hmod]

/-- A connection that is not present looks different after it. -/
theorem stop_true_ne (h : ¬ Present s gone i) :
    observed (stop true gone s (some i)) ≠ observed (stop false gone s (some i)) := by
  unfold Present at h
  push Not at h
  obtain ⟨g, hg, ho, hi⟩ := h
  intro he
  have hsockets := congrArg (fun v => v.2.2[i]?) he
  have hd : decide (i ∈ gone) = true := decide_eq_true hi
  have hlook (debug : Bool) : (observed (stop debug gone s (some i))).2.2[i]? =
      some ((stopped debug true g).isOpen, (stopped debug true g).reads) := by
    show ((s.sockets.modify i (stopped debug (decide (i ∈ gone)))).map _)[i]? = _
    rw [List.getElem?_map, List.getElem?_modify_eq, hg, hd]
    rfl
  rw [hlook, hlook, isOpen_stopped_true ho, isOpen_stopped_false] at hsockets
  cases hsockets

theorem onSystemError_true (h : Present s gone i) :
    onSystemError true s i gone = onSystemError false s i gone :=
  stop_true (s := { s with
    connections := s.connections.erase (some i), reported := s.reported ++ [i] }) h

theorem onSystemError_true_ne (h : ¬ Present s gone i) :
    observed (onSystemError true s i gone) ≠ observed (onSystemError false s i gone) :=
  stop_true_ne (s := { s with
    connections := s.connections.erase (some i), reported := s.reported ++ [i] }) h

/-- Recording an exception changes nothing for it. -/
theorem present_raised {h : StreamHandler} (hi : s.sockets[i]? = some h) (e : Option Exn) :
    Present (s.withSocket i { h with raised := h.raised ++ e.toList }) gone i ↔
      Present s gone i := by
  have hlt := (List.getElem?_eq_some_iff.1 hi).1
  have hset : (s.withSocket i { h with raised := h.raised ++ e.toList }).sockets[i]? =
      some { h with raised := h.raised ++ e.toList } := List.getElem?_set_self hlt
  unfold Present
  rw [hset, hi]
  constructor
  · intro hp g hg ho
    cases hg
    exact hp _ rfl ho
  · intro hp g hg ho
    cases hg
    exact hp h rfl ho

theorem stopped_stopped (debug g : Bool) (h : StreamHandler) :
    stopped debug g (stopped debug g h) = stopped debug g h := by
  rcases ho : h.isOpen with _ | _
  · simp [stopped, ho]
  · rcases hg : debug && g with _ | _
    · simp [stopped, ho, hg, StreamHandler.onSystemError]
    · simp [stopped, ho, hg]

/-! ## `close` -/

/-- A socket after `stop` on some connections. -/
theorem foldl_stop_sockets (debug : Bool) (gone : List SocketId) (l : List (Option SocketId))
    (s : ServerTransport) :
    (l.foldl (stop debug gone) s).sockets[j]? =
      s.sockets[j]?.map fun h => if some j ∈ l then stopped debug (j ∈ gone) h else h := by
  induction l generalizing s with
  | nil => simp
  | cons o l ih =>
    have hone : (stop debug gone s o).sockets[j]? =
        s.sockets[j]?.map fun h => if o = some j then stopped debug (j ∈ gone) h else h := by
      rcases o with _ | i
      · simp [stop]
      · show (s.sockets.modify i _)[j]? = _
        rw [List.getElem?_modify]
        rcases s.sockets[j]? with _ | g
        · rfl
        · by_cases hij : i = j
          · subst hij
            simp
          · simp [hij]
    rw [List.foldl_cons, ih, hone, Option.map_map]
    refine congrArg (s.sockets[j]?.map ·) (funext fun h => ?_)
    have hcomm : some j = o ↔ o = some j := eq_comm
    simp only [Function.comp, List.mem_cons, hcomm]
    by_cases hl : some j ∈ l
    · by_cases ho : o = some j
      · simp only [hl, ho, if_true, or_self, stopped_stopped]
      · simp only [hl, ho, if_true, if_false, or_true]
    · by_cases ho : o = some j
      · simp only [hl, ho, if_true, if_false, or_false]
      · simp only [hl, ho, if_false, or_self]

theorem foldl_stop_true (l : List (Option SocketId)) (s : ServerTransport)
    (h : ∀ i, some i ∈ l → Present s gone i) :
    l.foldl (stop true gone) s = l.foldl (stop false gone) s := by
  induction l generalizing s with
  | nil => rfl
  | cons o l ih =>
    have hone : stop true gone s o = stop false gone s o := by
      rcases o with _ | i
      · rfl
      · exact stop_true (h i (.head _))
    rw [List.foldl_cons, List.foldl_cons, hone]
    refine ih _ fun i hi g hg ho => ?_
    have hold := h i (.tail _ hi)
    have hone := foldl_stop_sockets (j := i) false gone [o] s
    rw [List.foldl_cons, List.foldl_nil] at hone
    rw [hone] at hg
    obtain ⟨g', hg', rfl⟩ := Option.map_eq_some_iff.1 hg
    split at ho
    · rw [isOpen_stopped_false] at ho
      cases ho
    · exact hold g' hg' ho

/-- The socket of a member is as it was. -/
theorem closing_sockets (h : some i ∈ s.connections) : s.closing.sockets[i]? = s.sockets[i]? := by
  unfold closing
  dsimp only
  split
  · next c hc =>
    split
    · rfl
    · next hnot =>
      have hne : c ≠ i := fun he => hnot (he ▸ h)
      exact List.getElem?_modify_ne _ _ hne
  · rfl

theorem close_true (h : ∀ i, some i ∈ s.connections → Present s gone i) :
    close true s gone = close false s gone := by
  have hfold : s.connections.foldl (stop true gone) s.closing =
      s.connections.foldl (stop false gone) s.closing := by
    refine foldl_stop_true _ _ fun i hi g hg => ?_
    rw [closing_sockets hi] at hg
    exact h i hi g hg
  rw [close, hfold, close]

theorem close_true_ne (hi : some i ∈ s.connections) (h : ¬ Present s gone i) :
    observed (close true s gone) ≠ observed (close false s gone) := by
  unfold Present at h
  push Not at h
  obtain ⟨g, hg, ho, hgone⟩ := h
  intro he
  have hsockets := congrArg (fun v => v.2.2[i]?) he
  have hd : decide (i ∈ gone) = true := decide_eq_true hgone
  have hlook (debug : Bool) : (observed (close debug s gone)).2.2[i]? =
      some ((stopped debug true g).isOpen, (stopped debug true g).reads) := by
    show ((s.connections.foldl (stop debug gone) s.closing).sockets.map _)[i]? = _
    rw [List.getElem?_map, foldl_stop_sockets, closing_sockets hi, hg, hd]
    simp [hi]
  rw [hlook, hlook, isOpen_stopped_true ho, isOpen_stopped_false] at hsockets
  cases hsockets

/-! ## `on_accept` -/

theorem onAccept_true (ok : Bool)
    (h : ok = true → ∀ i ∈ s.conn, i ∈ x.gone → x.noDelay = false) :
    onAccept true s ok x = onAccept false s ok x := by
  unfold onAccept
  cases ok with
  | false => rfl
  | true =>
    rcases hc : s.conn with _ | i
    · rfl
    · by_cases hi : i ∈ x.gone
      · simp [hi, h rfl i hc hi]
      · simp [hi]

/-- The exception leaves no accept outstanding, and the first read is not started. -/
theorem onAccept_true_ne (hi : s.conn = some i) (hgone : i ∈ x.gone) (hopt : x.noDelay = true) :
    observed (onAccept true s true x) ≠ observed (onAccept false s true x) := by
  intro he
  have hlen := congrArg (fun v => v.1.length) he
  simp [observed, onAccept, hi, hgone, hopt, startAccept] at hlen

/-! ## Steps -/

/-- **A step with the guard is the same under both filters.** -/
theorem exec_true (h : Connected s op x) :
    (machine d true).exec s op x = (machine d false).exec s op x := by
  cases op with
  | onAccept k =>
    simp only [machine]
    split
    · next i ok hk =>
      have hsame := onAccept_true (x := x) (s := { s with accepts := s.accepts.eraseIdx k }) ok
        fun hok i hi => h _ hk (congrArg some hok) i hi
      rw [hsame]
    · rfl
  | onReadFailed i e =>
    simp only [machine]
    rcases hi : s.sockets[i]? with _ | g
    · rfl
    · rw [Option.map_some, Option.map_some, onSystemError_true ((present_raised hi e).2 h)]
  | onSystemError i =>
    simp only [machine]
    split
    · next hi => rw [onSystemError_true (h hi)]
    · rfl
  | close =>
    simp only [machine]
    rw [close_true h]
  | _ => rfl

/-- **A step without it looks different.** -/
theorem exec_true_ne (h : ¬ Connected s op x) :
    ((machine d true).exec s op x).map (fun r => observed r.1) ≠
      ((machine d false).exec s op x).map fun r => observed r.1 := by
  cases op with
  | onAccept k =>
    unfold Connected at h
    push Not at h
    obtain ⟨⟨i', r⟩, hk, hr, i, hi, hgone, hopt⟩ := h
    obtain rfl : r = some true := hr
    have hk : s.accepts[k]? = some ⟨i', some true⟩ := hk
    have hne := onAccept_true_ne (x := x) (s := { s with accepts := s.accepts.eraseIdx k })
      hi hgone (Bool.of_not_eq_false hopt)
    simp only [machine, hk, Option.map_some]
    exact fun he => hne (Option.some.inj he)
  | onReadFailed i e =>
    have hopen : ∃ g, s.sockets[i]? = some g := by
      by_contra hnone
      exact h fun g hg => absurd ⟨g, hg⟩ hnone
    obtain ⟨g, hg⟩ := hopen
    have hne := onSystemError_true_ne (mt (present_raised hg e).1 h)
    simp only [machine, hg, Option.map_some]
    exact fun he => hne (Option.some.inj he)
  | onSystemError i =>
    unfold Connected at h
    push Not at h
    obtain ⟨hi, hp⟩ := h
    have hne := onSystemError_true_ne hp
    simp only [machine, hi, if_true, Option.map_some]
    exact fun he => hne (Option.some.inj he)
  | close =>
    unfold Connected at h
    push Not at h
    obtain ⟨i, hi, hp⟩ := h
    simp only [machine, Option.map_some]
    exact fun he => close_true_ne hi hp (Option.some.inj he)
  | _ => exact absurd trivial h

end

/-- **The log filter changes nothing exactly when no peer has gone at a debug statement.** The runs in
which the server looks the same with debug records and without are those whose steps are `Connected`;
in these it is the same. -/
theorem log_filter_iff (d : Decoder UInt8 Object) (ls : List (Label Op Choice)) :
    ((∀ n, ((machine d true).run init (ls.take n)).map (fun c => observed c.shared) =
        ((machine d false).run init (ls.take n)).map fun c => observed c.shared) ↔
      (machine d false).Meets (fun s _ => Connected s) init ls) ∧
    ((machine d false).Meets (fun s _ => Connected s) init ls →
      ∀ n, (machine d true).run init (ls.take n) = (machine d false).run init (ls.take n)) := by
  refine ⟨?_, ?_⟩
  · exact System.view_eq_iff_meets (S := machine d true) (T := machine d false) observed rfl
      (fun _ _ _ => exec_true) (fun _ _ _ => exec_true_ne) init ls
  · intro hG n
    exact System.run_congr (S := machine d true) (T := machine d false) rfl
      (fun _ _ _ => exec_true) hG n

/-- A connection is accepted whose peer has disconnected. With debug records its first read is not
started and no accept is outstanding any more; without them the server goes on. A connection that
fails is left open with debug records when its peer has gone, and closed without them. -/
theorem log_filter_tells :
    let accepted : List (Label Op Choice) :=
      [.spawn (.acceptCompletes 0 true), .exec 0 {}, .spawn (.onAccept 0), .exec 1 { gone := [0] }]
    let failed : List (Label Op Choice) :=
      [.spawn (.acceptCompletes 0 true), .exec 0 {}, .spawn (.onAccept 0), .exec 1 {},
        .spawn (.onRead 0 (.error 104)), .exec 2 {}, .exec 2 { gone := [0] }]
    (((machine Format.decoder true).run init accepted).map (fun c => observed c.shared) =
        some ([], [some 0], [(true, 0)]) ∧
      ((machine Format.decoder false).run init accepted).map (fun c => observed c.shared) =
        some ([⟨1, none⟩], [some 0], [(true, 1), (false, 0)])) ∧
    (((machine Format.decoder true).run init failed).map (fun c => observed c.shared) =
        some ([⟨1, none⟩], [], [(true, 0), (false, 0)]) ∧
      ((machine Format.decoder false).run init failed).map (fun c => observed c.shared) =
        some ([⟨1, none⟩], [], [(false, 0), (false, 0)])) := by
  intro accepted failed
  refine ⟨⟨?_, ?_⟩, ?_, ?_⟩
  · decide
  · decide
  · decide
  · decide

end ServerTransport

end Tcp

end MsgpackRpc
