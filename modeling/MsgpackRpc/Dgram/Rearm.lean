import Mathlib.Data.List.Induction
import MsgpackRpc.Dgram.Isolation

/-!
# The outstanding receive of a datagram handler

`dgram_handler::on_read` arms the next receive only when it has handled a datagram without an
exception. After a receive error, an undecodable datagram, a message that the role does not allow or
a dispatcher that throws, no receive is outstanding, and the socket stays open: nothing more is
received from any peer.

`onReads_receives_iff` is the exact condition: a started handler has one receive outstanding after
every completion if and only if each completion is a datagram that it accepts.
-/

namespace MsgpackRpc

open Unpack

namespace DgramHandler

section
variable (d : Decoder UInt8 Object) (recv : Receiver)

/-- A started handler after a sequence of receive completions. -/
def onReads (cs : List ReceiveCompletion) : DgramHandler := cs.foldl (onRead d recv) started

/-- Every completion is a datagram that is accepted, by a handler whose unpacker holds `p` and which
has made `n` calls. -/
def AcceptsAll (p : List UInt8) (n : Nat) : List ReceiveCompletion → Prop
  | [] => True
  | .ok bytes _ :: cs => Accepts d recv p n bytes ∧
    AcceptsAll ((values d p bytes).2.getD []) (n + (values d p bytes).1.length) cs
  | .error _ :: _ => False

end

section
variable {d : Decoder UInt8 Object} {recv : Receiver}

/-- From any handler with one receive outstanding: it keeps one through a sequence of completions
exactly when it accepts them all. -/
theorem foldl_receives_iff {h : DgramHandler} {p : List UInt8} (hpac : h.pac = ⟨p, []⟩)
    (hone : h.receives = 1) (cs : List ReceiveCompletion) :
    (∀ k ≤ cs.length, ((cs.take k).foldl (onRead d recv) h).receives = 1) ↔
      AcceptsAll d recv p h.calls.length cs := by
  induction cs generalizing h p with
  | nil => simpa [AcceptsAll] using hone
  | cons c cs ih =>
    -- the state after the empty prefix is `h` itself
    have hcons : (∀ k ≤ (c :: cs).length,
          (((c :: cs).take k).foldl (onRead d recv) h).receives = 1) ↔
        ∀ k ≤ cs.length, ((cs.take k).foldl (onRead d recv) (onRead d recv h c)).receives = 1 :=
      ⟨fun hk k hle => hk (k + 1) (by simpa using hle), fun hk k hle => by
        cases k with
        | zero => exact hone
        | succ k => exact hk k (by simpa using hle)⟩
    rw [hcons]
    cases c with
    | error value =>
      refine ⟨?_, fun hf => hf.elim⟩
      intro hk
      have h0 := hk 0 (Nat.zero_le _)
      simp [onRead, hone] at h0
    | ok bytes ep =>
      by_cases ha : Accepts d recv p h.calls.length bytes
      · obtain ⟨q, hq, hpac', hrec, hcalls⟩ := onRead_accepted hpac ep ha
        rw [ih hpac' (by rw [hrec, hone]), AcceptsAll, hcalls, hq]
        simp [ha]
      · refine ⟨?_, fun hall => absurd hall.1 ha⟩
        intro hk
        have h0 := hk 0 (Nat.zero_le _)
        simp [(onRead_rejected hpac ep ha).1, hone] at h0

/-- The socket of a started handler stays open. -/
theorem onReads_isOpen (cs : List ReceiveCompletion) : (onReads d recv cs).isOpen = true := by
  induction cs using List.reverseRecOn with
  | nil => rfl
  | append_singleton cs c ih =>
    rw [onReads, List.foldl_append] at *
    exact (onRead_isOpen _ _).trans ih

end

/-- **A started handler has exactly one receive outstanding after every completion, while its socket
is open, exactly when each completion is a datagram that it accepts.** A receive error is never
accepted; a datagram is if it can be decoded, every object that it completes is a message and the
virtual functions throw on none. -/
theorem onReads_receives_iff (d : Decoder UInt8 Object) (recv : Receiver)
    (cs : List ReceiveCompletion) :
    (∀ k ≤ cs.length, (onReads d recv (cs.take k)).isOpen = true →
        (onReads d recv (cs.take k)).receives = 1) ↔
      AcceptsAll d recv [] 0 cs := by
  simp only [onReads_isOpen, true_imp_iff]
  exact foldl_receives_iff rfl rfl cs

/-- A server socket whose server is alive is deaf after a receive error, after a byte that begins no
object and after a response; its socket is open in each case. -/
theorem onReads_deaf :
    let recv := Udp.ServerSocket.receiver (fun _ => true) (fun _ _ => none)
    (onReads Format.decoder recv [.error 111]).receives = 0 ∧
      (onReads Format.decoder recv [.error 111]).isOpen = true ∧
      (onReads Format.decoder recv [.ok [0xc1] ⟨1, 9000⟩]).receives = 0 ∧
      (onReads Format.decoder recv [.ok [0xc1] ⟨1, 9000⟩]).isOpen = true ∧
      (onReads Format.decoder recv [.ok [0x94, 0x01, 0x01, 0xc0, 0xc0] ⟨1, 9000⟩]).receives = 0 ∧
      (onReads Format.decoder recv [.ok [0x94, 0x01, 0x01, 0xc0, 0xc0] ⟨1, 9000⟩]).isOpen =
        true := by
  decide

end DgramHandler

end MsgpackRpc
