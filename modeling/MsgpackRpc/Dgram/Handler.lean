import MsgpackRpc.Receiver

/-!
# The datagram handler

`dgram_handler` (`transport/dgram_handler.cc`), the part of a UDP socket that receives and decodes
datagrams, which `udp::client_socket` and `udp::server_socket` derive from. One unpacker serves all
datagrams of all peers. Unlike a stream handler it neither checks the size of what is left over nor
closes its socket on an error, and it arms the next receive only at the end of a successful
`on_read`.

`onRead_accepted` and `onRead_rejected` say when an `on_read` arms the next receive (`Accepts`).
-/

namespace MsgpackRpc

open Unpack

/-- `boost::asio::ip::udp::endpoint`. -/
structure Endpoint where
  address : Nat
  port : UInt16
  deriving DecidableEq, Repr, Inhabited

/-- How an asynchronous receive completes: with a datagram and its sender, which is stored in
`m_remote`, or with an error. -/
inductive ReceiveCompletion where
  | ok (bytes : List UInt8) (sender : Endpoint)
  | error (value : Nat)
  deriving DecidableEq, Repr

/-- `dgram_handler`, with its observable behaviour: the receives outstanding on the socket, the
objects handed to `on_message`, the calls of the virtual functions, each request with the endpoint
it is attributed to, and the exceptions caught by `on_read`. -/
structure DgramHandler where
  pac : Unpacker UInt8 := .empty
  isOpen : Bool := false
  receives : Nat := 0
  remote : Endpoint := default
  dispatched : List Object := []
  calls : List (Message × Option Endpoint) := []
  raised : List Exn := []
  deriving DecidableEq, Repr

namespace DgramHandler

/-- `dgram_handler::start` (`dgram_handler.cc:44`). -/
def start (h : DgramHandler) : DgramHandler := { h with receives := h.receives + 1 }

/-- `on_message` passes the endpoint to `on_request` only. -/
def attributed (ep : Endpoint) (m : Message) : Message × Option Endpoint :=
  match m with
  | .request .. => (m, some ep)
  | .response .. | .notify .. => (m, none)

/-- `dgram_handler::on_message` (`dgram_handler.cc:134`). -/
def onMessage (recv : Receiver) (ep : Endpoint) :
    List Object × List (Message × Option Endpoint) → Object →
      (List Object × List (Message × Option Endpoint)) × Option Exn :=
  handOver (attributed ep) recv

section
variable (d : Decoder UInt8 Object) (recv : Receiver)

/-- `dgram_handler::on_read` (`dgram_handler.cc:59`). The completed receive is no longer
outstanding. -/
def onRead (h : DgramHandler) : ReceiveCompletion → DgramHandler
  | .ok bytes sender =>
    let h := { h with receives := h.receives - 1, remote := sender }
    let u := h.pac.feed bytes
    let (pac, (dispatched, calls), exn) :=
      drain d (onMessage recv h.remote) .parseError (h.dispatched, h.calls) u.parsed u.received
    let h := { h with pac, dispatched, calls }
    match exn with
    | none => { h with receives := h.receives + 1 }
    | some e => { h with raised := h.raised ++ [e], pac := h.pac.removeNonparsedBuffer }
  | .error _ => { h with receives := h.receives - 1, pac := h.pac.removeNonparsedBuffer }

end

section
variable {d : Decoder UInt8 Object} {recv : Receiver}

/-- An object that is no message. -/
theorem onMessage_error (ep : Endpoint) (s : List Object × List (Message × Option Endpoint))
    {o : Object} {e : Exn} (ho : MsgpackRpc.onMessage o = .error e) :
    onMessage recv ep s o = ((s.1 ++ [o], s.2), some e) := by
  simp [onMessage, handOver, ho]

/-- An object that is a message. -/
theorem onMessage_ok (ep : Endpoint) (s : List Object × List (Message × Option Endpoint))
    {o : Object} {m : Message} (ho : MsgpackRpc.onMessage o = .ok m) :
    onMessage recv ep s o = ((s.1 ++ [o], s.2 ++ [attributed ep m]), recv s.2.length m) := by
  simp [onMessage, handOver, ho]

variable (d recv) in
/-- What an `on_read` hands over: the objects that the datagram completes, up to the first that the
receiver throws on, with the requests attributed to the sender of this datagram. -/
theorem onRead_handed (h : DgramHandler) (bytes : List UInt8) (ep : Endpoint) :
    ((onRead d recv h (.ok bytes ep)).dispatched, (onRead d recv h (.ok bytes ep)).calls) =
      (handleAll (onMessage recv ep) (h.dispatched, h.calls)
        (values d h.pac.parsed (h.pac.received ++ bytes)).1).1 := by
  rw [← drain_state d (onMessage recv ep) Exn.parseError]
  rcases hr : drain d (onMessage recv ep) Exn.parseError (h.dispatched, h.calls) h.pac.parsed
    (h.pac.received ++ bytes) with ⟨pac, ⟨os, cs⟩, _ | e⟩ <;>
  simp [onRead, Unpacker.feed, hr]

/-- A datagram that a handler takes, whose unpacker holds the bytes `p` and which has made `n`
calls: its bytes can be decoded after `p`, and every object that they complete is a message on which
the receiver does not throw. -/
structure Accepts (d : Decoder UInt8 Object) (recv : Receiver) (p : List UInt8) (n : Nat)
    (bytes : List UInt8) : Prop where
  decodes : (values d p bytes).2.isSome
  takes : ∀ i o, (values d p bytes).1[i]? = some o →
    ∃ m, MsgpackRpc.onMessage o = .ok m ∧ recv (n + i) m = none

/-- The loop hands over all objects exactly when each is a message on which the receiver does not
throw. -/
theorem handleAll_eq_none_iff (ep : Endpoint) (s : List Object × List (Message × Option Endpoint))
    (os : List Object) :
    (handleAll (onMessage recv ep) s os).2 = none ↔
      ∀ i o, os[i]? = some o → ∃ m, MsgpackRpc.onMessage o = .ok m ∧
        recv (s.2.length + i) m = none := by
  induction os generalizing s with
  | nil => simp [handleAll]
  | cons o os ih =>
    rw [handleAll]
    rcases ho : MsgpackRpc.onMessage o with e | m
    · rw [onMessage_error ep s ho]
      refine iff_of_false (by simp) ?_
      intro h
      obtain ⟨m, hm, -⟩ := h 0 o rfl
      rw [ho] at hm
      cases hm
    · rw [onMessage_ok ep s ho]
      rcases hr : recv s.2.length m with _ | e
      · dsimp only
        rw [ih]
        simp only [List.length_append, List.length_singleton]
        constructor
        · rintro h (_ | i) o' ho'
          · obtain rfl : o = o' := by simpa using ho'
            exact ⟨m, ho, hr⟩
          · obtain ⟨m', hm', hr'⟩ := h i o' (by simpa using ho')
            exact ⟨m', hm', by rwa [Nat.add_comm i 1, ← Nat.add_assoc]⟩
        · intro h i o' ho'
          obtain ⟨m', hm', hr'⟩ := h (i + 1) o' (by simpa using ho')
          exact ⟨m', hm', by rwa [Nat.add_comm i 1, ← Nat.add_assoc] at hr'⟩
      · refine iff_of_false (by simp) ?_
        intro h
        obtain ⟨m', hm', hr'⟩ := h 0 o rfl
        rw [ho] at hm'
        cases hm'
        rw [Nat.add_zero, hr] at hr'
        cases hr'

/-- When the loop hands over all objects, each is a call. -/
theorem handleAll_calls (ep : Endpoint) {s : List Object × List (Message × Option Endpoint)}
    {os : List Object} (h : (handleAll (onMessage recv ep) s os).2 = none) :
    (handleAll (onMessage recv ep) s os).1.2.length = s.2.length + os.length := by
  induction os generalizing s with
  | nil => rfl
  | cons o os ih =>
    rw [handleAll] at h ⊢
    rcases ho : MsgpackRpc.onMessage o with e | m
    · rw [onMessage_error ep s ho] at h
      cases h
    · rw [onMessage_ok ep s ho] at h ⊢
      rcases hr : recv s.2.length m with _ | e <;> rw [hr] at h
      · dsimp only at h ⊢
        rw [ih h, List.length_append, List.length_singleton, List.length_cons]
        omega
      · cases h

/-- The loop of `on_read` ends without an exception exactly when the handler accepts the
datagram. -/
theorem drain_eq_none_iff (h : DgramHandler) (p bytes : List UInt8) (ep : Endpoint) :
    (drain d (onMessage recv ep) Exn.parseError (h.dispatched, h.calls) p bytes).2.2 = none ↔
      Accepts d recv p h.calls.length bytes := by
  rw [drain_exn_eq_none_iff, handleAll_eq_none_iff]
  exact ⟨fun h => ⟨h.1, h.2⟩, fun h => ⟨h.1, h.2⟩⟩

/-- Handling a completion neither opens nor closes the socket. -/
theorem onRead_isOpen (h : DgramHandler) (c : ReceiveCompletion) :
    (onRead d recv h c).isOpen = h.isOpen := by
  cases c with
  | ok bytes ep =>
    unfold onRead
    dsimp only
    split <;> rfl
  | error value => rfl

/-- **An accepted datagram** leaves its rest in the unpacker and the next receive armed; each object
that it completes is a call. -/
theorem onRead_accepted {h : DgramHandler} {p : List UInt8} (hpac : h.pac = ⟨p, []⟩)
    {bytes : List UInt8} (ep : Endpoint) (ha : Accepts d recv p h.calls.length bytes) :
    ∃ q, (values d p bytes).2 = some q ∧
      (onRead d recv h (.ok bytes ep)).pac = ⟨q, []⟩ ∧
      (onRead d recv h (.ok bytes ep)).receives = h.receives - 1 + 1 ∧
      (onRead d recv h (.ok bytes ep)).calls.length =
        h.calls.length + (values d p bytes).1.length := by
  have hn := (drain_eq_none_iff h p bytes ep).2 ha
  have hcalls := congrArg Prod.snd (onRead_handed d recv h bytes ep)
  rw [hpac, List.nil_append] at hcalls
  dsimp only at hcalls
  rw [hcalls, handleAll_calls ep ((drain_exn_eq_none_iff d _ _ _ _ _).1 hn).2]
  obtain ⟨q, hq, hu⟩ := drain_unpacker d _ _ _ _ _ hn
  refine ⟨q, hq, ?_⟩
  rcases hr : drain d (onMessage recv ep) Exn.parseError (h.dispatched, h.calls) p bytes with
    ⟨pac, ⟨os, cs⟩, exn⟩
  rw [hr] at hn hu
  dsimp only at hn hu
  subst hn hu
  simp [onRead, Unpacker.feed, hpac, hr]

/-- **A datagram that is not accepted** raises an exception and no receive is armed. -/
theorem onRead_rejected {h : DgramHandler} {p : List UInt8} (hpac : h.pac = ⟨p, []⟩)
    {bytes : List UInt8} (ep : Endpoint) (ha : ¬ Accepts d recv p h.calls.length bytes) :
    (onRead d recv h (.ok bytes ep)).receives = h.receives - 1 ∧
      (onRead d recv h (.ok bytes ep)).raised ≠ h.raised := by
  rw [← drain_eq_none_iff h p bytes ep] at ha
  rcases hr : drain d (onMessage recv ep) Exn.parseError (h.dispatched, h.calls) p bytes with
    ⟨pac, ⟨os, cs⟩, _ | e⟩
  · rw [hr] at ha
    exact absurd rfl ha
  · simp [onRead, Unpacker.feed, hpac, hr]

end

end DgramHandler

end MsgpackRpc
