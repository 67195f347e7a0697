import MsgpackRpc.Format
import MsgpackRpc.Tcp.Server

/-!
# Accepting on the TCP server

`on_accept` starts the next accept whenever it returns normally. `close` closes the acceptor, which
completes the outstanding accept, and resets `m_conn`, but the handler of that accept is still
delivered: with an error it starts an accept that completes with an error, and so on for ever; with a
connection it uses the null `m_conn`. `server::close` ends the loop before it closes the transport
(`server.cc:121`), so that no handler is delivered after. Before `close`, an exception that leaves
`on_accept` leaves no accept outstanding.

`Rearms` is the guard under which none of this happens, and `accept_quiet_iff` shows that it is exact.
-/

namespace MsgpackRpc

open Threads Unpack

namespace Tcp

namespace ServerTransport

def Op.accepting : Op → Bool
  | .onAccept _ => true
  | _ => false

/-- What an `on_accept` should do. While the acceptor is open it leaves one accept outstanding and a
socket in `m_conn`; once it is closed it starts no accept, inserts no connection and uses no null
pointer. -/
def QuietStep (s : ServerTransport) (op : Op) (s' : ServerTransport) : Prop :=
  op.accepting = true →
    (s.acceptorOpen = true → s'.accepts.length = 1 ∧ s'.conn.isSome = true) ∧
    (s.acceptorOpen = false → s'.accepts.length + 1 = s.accepts.length ∧
      s'.connections = s.connections ∧ s'.nullUses = s.nullUses)

instance (s : ServerTransport) (op : Op) (s' : ServerTransport) : Decidable (QuietStep s op s') :=
  inferInstanceAs (Decidable (_ → (_ → _ ∧ _) ∧ (_ → _ ∧ _ ∧ _)))

/-- `on_accept` runs on an open acceptor only, and neither its log statement nor `set_option` throws. -/
def Rearms (debug : Bool) (s : ServerTransport) (_ : Multiset Op) (op : Op) (x : Choice) : Prop :=
  match op with
  | .onAccept k =>
    s.acceptorOpen = true ∧ ∀ a ∈ s.accepts[k]?, a.result = some true →
      ∀ i ∈ s.conn, ¬ (debug = true ∧ i ∈ x.gone) ∧ x.noDelay = true
  | _ => True

/-- The invariant: one accept is outstanding and `m_conn` is set while the acceptor is open, and
`m_conn` is null once it is closed. -/
structure Armed (s : ServerTransport) : Prop where
  one : s.acceptorOpen = true → s.accepts.length = 1
  conn : s.conn.isSome = s.acceptorOpen

section
variable {d : Decoder UInt8 Object} {debug : Bool} {s s' : ServerTransport} {op : Op} {x : Choice}
  {ops rest : Multiset Op} {k : List Op} {i : SocketId}

/-- A step that does not accept. -/
theorem Armed.congr (h : Armed s) (ho : s'.acceptorOpen = s.acceptorOpen)
    (ha : s'.accepts.length = s.accepts.length) (hc : s'.conn = s.conn) : Armed s' := by
  refine ⟨?_, ?_⟩
  · rw [ho, ha]
    exact h.one
  · rw [ho, hc]
    exact h.conn

theorem length_startAccept : s.startAccept.accepts.length = s.accepts.length + 1 := by
  simp [startAccept]

/-- What `on_accept` does with a connection, by whether it throws. -/
theorem onAccept_connection (debug : Bool) (x : Choice) (hi : s.conn = some i) :
    (¬ (debug = true ∧ i ∈ x.gone) ∧ x.noDelay = true ∧
      ∃ t : ServerTransport, onAccept debug s true x = t.startAccept ∧
        t.accepts = s.accepts ∧ t.acceptorOpen = s.acceptorOpen) ∨
    (¬ (¬ (debug = true ∧ i ∈ x.gone) ∧ x.noDelay = true) ∧
      (onAccept debug s true x).accepts = s.accepts) := by
  unfold onAccept
  simp only [hi, if_true]
  split
  · next hthrow =>
    refine .inr ⟨fun h => h.1 (by simpa using hthrow), rfl⟩
  · next hthrow =>
    split
    · next hopt =>
      exact .inl ⟨by simpa using hthrow, hopt, _, rfl, rfl, rfl⟩
    · next hopt => exact .inr ⟨fun h => hopt h.2, rfl⟩

theorem length_eraseIdx_of {l : List Accept} {n : Nat} {a : Accept} (h : l[n]? = some a) :
    (l.eraseIdx n).length + 1 = l.length := by
  have hlt := (List.getElem?_eq_some_iff.1 h).1
  rw [List.length_eraseIdx_of_lt hlt]
  omega

/-- What an accept started on an empty list does. -/
theorem armed_startAccept (h : s.accepts.length = 0) (ho : s.acceptorOpen = true) :
    s.startAccept.accepts.length = 1 ∧ s.startAccept.conn.isSome = true ∧ Armed s.startAccept := by
  have hone : s.startAccept.accepts.length = 1 := by rw [length_startAccept, h]
  exact ⟨hone, rfl, fun _ => hone, ho.symm⟩

/-- **A delivery before `close`.** -/
theorem quietStep_open {n : Nat} {j : SocketId} {ok : Bool} (h : Armed s)
    (ho : s.acceptorOpen = true) (hn : s.accepts[n]? = some ⟨j, some ok⟩) :
    let s' := onAccept debug { s with accepts := s.accepts.eraseIdx n } ok x
    (QuietStep s (.onAccept n) s' ↔ Rearms debug s ops (.onAccept n) x) ∧
      (Rearms debug s ops (.onAccept n) x → Armed s') := by
  intro s'
  have hzero : (s.accepts.eraseIdx n).length = 0 := by
    have hlen := length_eraseIdx_of hn
    have hone := h.one ho
    omega
  have hquiet (h1 : s'.accepts.length = 1) (h2 : s'.conn.isSome = true) :
      QuietStep s (.onAccept n) s' := fun _ =>
    ⟨fun _ => ⟨h1, h2⟩, fun hc => absurd (ho.symm.trans hc) Bool.noConfusion⟩
  cases ok with
  | false =>
    obtain ⟨h1, h2, harmed⟩ := armed_startAccept
      (s := { s with accepts := s.accepts.eraseIdx n }) hzero ho
    refine ⟨iff_of_true (hquiet h1 h2) ⟨ho, ?_⟩, fun _ => harmed⟩
    intro a ha hr
    cases hn.symm.trans ha
    cases hr
  | true =>
    obtain ⟨i, hi⟩ : ∃ i, s.conn = some i := Option.isSome_iff_exists.1 (h.conn.trans ho)
    have hguard : Rearms debug s ops (.onAccept n) x ↔
        ¬ (debug = true ∧ i ∈ x.gone) ∧ x.noDelay = true := by
      constructor
      · intro hr
        exact hr.2 _ hn rfl i hi
      · intro hr
        refine ⟨ho, fun a ha _ i' hi' => ?_⟩
        cases hi.symm.trans hi'
        exact hr
    rcases onAccept_connection debug x
      (s := { s with accepts := s.accepts.eraseIdx n }) hi with
      ⟨h1, h2, t, ht, hacc, hopen⟩ | ⟨hthrow, hacc⟩
    · have hs' : s' = t.startAccept := ht
      obtain ⟨h3, h4, harmed⟩ := armed_startAccept (s := t) (by rw [hacc]; exact hzero)
        (hopen.trans ho)
      rw [← hs'] at h3 h4 harmed
      exact ⟨iff_of_true (hquiet h3 h4) (hguard.2 ⟨h1, h2⟩), fun _ => harmed⟩
    · have hnone : s'.accepts.length = 0 := by
        rw [show s'.accepts = s.accepts.eraseIdx n from hacc]
        exact hzero
      have hnot : ¬ Rearms debug s ops (.onAccept n) x := fun hr => hthrow (hguard.1 hr)
      refine ⟨iff_of_false ?_ hnot, fun hr => absurd hr hnot⟩
      intro hq
      have h1 := ((hq rfl).1 ho).1
      omega

/-- **A delivery after `close`.** -/
theorem not_quietStep_closed {n : Nat} {j : SocketId} {ok : Bool} (h : Armed s)
    (ho : s.acceptorOpen = false) (hn : s.accepts[n]? = some ⟨j, some ok⟩) :
    ¬ QuietStep s (.onAccept n)
      (onAccept debug { s with accepts := s.accepts.eraseIdx n } ok x) := by
  have hlen := length_eraseIdx_of hn
  have hconn : s.conn = none := by
    rw [← Option.not_isSome_iff_eq_none, h.conn, ho]
    exact Bool.false_ne_true
  intro hq
  obtain ⟨h1, -, h3⟩ := (hq rfl).2 ho
  cases ok with
  | false =>
    rw [show (onAccept debug { s with accepts := s.accepts.eraseIdx n } false x).accepts.length =
      (s.accepts.eraseIdx n).length + 1 from length_startAccept] at h1
    omega
  | true =>
    simp only [onAccept, hconn, if_true] at h3
    omega

/-- **One delivery of an accept.** -/
theorem quietStep_iff {n : Nat} (h : Armed s)
    (hx : (machine d debug).exec s (.onAccept n) x = some (s', k)) :
    (QuietStep s (.onAccept n) s' ↔ Rearms debug s ops (.onAccept n) x) ∧
      (Rearms debug s ops (.onAccept n) x → Armed s') := by
  simp only [machine] at hx
  split at hx
  · next hn =>
    cases hx
    rcases Bool.eq_false_or_eq_true s.acceptorOpen with ho | ho
    · exact quietStep_open h ho hn
    · have hnot : ¬ Rearms debug s ops (.onAccept n) x := fun hr =>
        absurd (ho.symm.trans hr.1) Bool.noConfusion
      exact ⟨iff_of_false (not_quietStep_closed h ho hn) hnot, fun hr => absurd hr hnot⟩
  · cases hx

/-- Closing stops the members. -/
theorem foldl_stop (debug : Bool) (gone : List SocketId) (l : List (Option SocketId))
    (s : ServerTransport) :
    (l.foldl (stop debug gone) s).acceptorOpen = s.acceptorOpen ∧
      (l.foldl (stop debug gone) s).accepts = s.accepts ∧
      (l.foldl (stop debug gone) s).conn = s.conn := by
  induction l generalizing s with
  | nil => exact ⟨rfl, rfl, rfl⟩
  | cons o l ih =>
    rw [List.foldl_cons]
    rcases o with _ | i <;> exact ih _

theorem close_closed (debug : Bool) (gone : List SocketId) :
    (close debug s gone).acceptorOpen = false ∧
      (close debug s gone).accepts = s.accepts.map abort ∧ (close debug s gone).conn = none :=
  foldl_stop debug gone s.connections _

/-- **The invariant is kept.** -/
theorem armed_exec (h : Armed s) (hg : Rearms debug s ops op x)
    (hx : (machine d debug).exec s op x = some (s', k)) : Armed s' := by
  cases exec_steps hx with
  | acceptCompletes ok hn => exact h.congr rfl (List.length_set ..) rfl
  | onAccept hn => exact (quietStep_iff h hx).2 hg
  | read hi hr => exact h.congr rfl rfl rfl
  | onReadFailed e hi => exact h.congr rfl rfl rfl
  | sendData hi hk => exact h
  | onSystemError hi => exact h.congr rfl rfl rfl
  | close =>
    obtain ⟨ho, -, hc⟩ := close_closed (s := s) debug x.gone
    refine ⟨fun hopen => absurd (ho.symm.trans hopen) Bool.noConfusion, ?_⟩
    rw [hc, ho]
    rfl

/-- An aborted accept that is delivered after `close` is followed by another: however many are
delivered, the transport is never drained. -/
theorem aborted_accept_rearms {n : Nat} {j : SocketId} (ho : s.acceptorOpen = false)
    (hn : s.accepts[n]? = some ⟨j, some false⟩) :
    ∃ (s' : ServerTransport) (n' : Nat) (j' : SocketId),
      (machine d debug).exec s (.onAccept n) x = some (s', []) ∧ s'.acceptorOpen = false ∧
      s'.accepts.length = s.accepts.length ∧ s'.accepts[n']? = some ⟨j', some false⟩ := by
  let s₁ : ServerTransport := { s with accepts := s.accepts.eraseIdx n }
  have hlast : s₁.startAccept.accepts[(s.accepts.eraseIdx n).length]? =
      some ⟨s.sockets.length, some false⟩ := by
    simp [s₁, startAccept, ho]
  refine ⟨s₁.startAccept, _, _, ?_, ho, ?_, hlast⟩
  · simp only [machine, hn]
    rfl
  · rw [length_startAccept]
    exact length_eraseIdx_of hn

end

/-- **A closed transport is quiet exactly when no accept is delivered to it.** The runs in which every
`on_accept` is as it should be are those in which `on_accept` runs on an open acceptor and does not
throw. -/
theorem accept_quiet_iff (d : Decoder UInt8 Object) (debug : Bool) {ls : List (Label Op Choice)}
    {c : Config ServerTransport Op} (hrun : (machine d debug).run init ls = some c) :
    (machine d debug).Each QuietStep init ls ↔ (machine d debug).Meets (Rearms debug) init ls := by
  refine System.each_iff_meets (fun s _ => Armed s) ?_ ?_ ?_ ⟨fun _ => rfl, rfl⟩ hrun
  · exact fun _ _ _ h _ => h
  · intro s op rest x s' k h hg hx
    exact armed_exec h hg hx
  · intro s op rest x s' k h hx
    cases op with
    | onAccept n => exact (quietStep_iff h hx).1
    | _ => exact iff_of_true Bool.noConfusion trivial

/-- A connection is accepted, one of its reads fails, and the transport is closed while the next
accept is outstanding, which is never delivered. -/
theorem accept_quiet_iff_closed :
    let ls : List (Label Op Choice) :=
      [.spawn (.acceptCompletes 0 true), .exec 0 {}, .spawn (.onAccept 0), .exec 1 {},
        .spawn (.onRead 0 (.error 104)), .exec 2 {}, .exec 2 {}, .spawn .close, .exec 3 {}]
    ∃ c : Config ServerTransport Op, (machine Format.decoder true).run init ls = some c ∧
      c.shared.acceptorOpen = false ∧
      (machine Format.decoder true).Meets (Rearms true) init ls := by
  intro ls
  rcases hrun : (machine Format.decoder true).run init ls with _ | c
  · exact absurd hrun (by decide)
  · have hc : ((machine Format.decoder true).run init ls).map (fun c => c.shared.acceptorOpen) =
        some false := by decide
    rw [hrun] at hc
    exact ⟨c, rfl, Option.some.inj hc, (accept_quiet_iff Format.decoder true hrun).1 (by decide)⟩

/-- The transport is closed. The aborted accept that is then delivered starts another, which has
completed with an error; a connection that was accepted just before is inserted as a null pointer. In
a debug run an accepted peer that has disconnected leaves no accept outstanding on an open acceptor. -/
theorem close_not_quiet :
    let aborted : List (Label Op Choice) :=
      [.spawn .close, .exec 0 {}, .spawn (.onAccept 0), .exec 1 {}, .spawn (.onAccept 0), .exec 2 {}]
    let queued : List (Label Op Choice) :=
      [.spawn (.acceptCompletes 0 true), .exec 0 {}, .spawn .close, .exec 1 {},
        .spawn (.onAccept 0), .exec 2 {}]
    let thrown : List (Label Op Choice) :=
      [.spawn (.acceptCompletes 0 true), .exec 0 {}, .spawn (.onAccept 0), .exec 1 { gone := [0] }]
    (((machine Format.decoder false).run init aborted).map (fun c => c.shared.accepts) =
        some [⟨2, some false⟩] ∧
      ¬ (machine Format.decoder false).Each QuietStep init aborted) ∧
    (((machine Format.decoder false).run init queued).map (fun c =>
        (c.shared.connections, c.shared.nullUses)) = some ([none], 1) ∧
      ¬ (machine Format.decoder false).Each QuietStep init queued) ∧
    (((machine Format.decoder true).run init thrown).map (fun c =>
        (c.shared.acceptorOpen, c.shared.accepts)) = some (true, []) ∧
      ¬ (machine Format.decoder true).Each QuietStep init thrown) := by
  decide

end ServerTransport

end Tcp

end MsgpackRpc
