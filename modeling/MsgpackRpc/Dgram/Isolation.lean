import Mathlib.Data.List.Induction
import MsgpackRpc.Dgram.Handler
import MsgpackRpc.Format

/-!
# Datagrams of different peers

`dgram_handler` decodes the datagrams of all peers with one unpacker. A datagram that ends inside a
message leaves the parse context of that message behind, and the bytes of the next datagram, of
whichever peer, continue it: the message is then attributed to the peer that completed it.

`handled_independent_iff` is the exact condition under which what is dispatched for a datagram
depends on that datagram alone: the bytes received before it end on the boundary of an object.
-/

namespace MsgpackRpc

open Unpack

namespace DgramHandler

/-- A datagram and its sender. -/
structure Datagram where
  bytes : List UInt8
  sender : Endpoint
  deriving DecidableEq, Repr

/-- A handler that has been started on an open socket. -/
def started : DgramHandler := start { isOpen := true }

section
variable (d : Decoder UInt8 Object) (react : Message → Option Exn)

/-- A started handler after a sequence of datagrams. `react` is what the virtual functions do with
a message: return, or throw. -/
def received (hist : List Datagram) : DgramHandler :=
  hist.foldl (fun h g => onRead d (fun _ => react) h (.ok g.bytes g.sender)) started

/-- What is dispatched while a datagram is handled: the objects handed to `on_message`, and the
calls with the endpoints that the requests are attributed to. -/
def handled (hist : List Datagram) (g : Datagram) :
    List Object × List (Message × Option Endpoint) :=
  let h := received d react hist
  let h' := received d react (hist ++ [g])
  (h'.dispatched.drop h.dispatched.length, h'.calls.drop h.calls.length)

end

section
variable {d : Decoder UInt8 Object} {react : Message → Option Exn}

/-- The handler after one more datagram. -/
theorem received_concat (hist : List Datagram) (g : Datagram) :
    received d react (hist ++ [g]) =
      onRead d (fun _ => react) (received d react hist) (.ok g.bytes g.sender) := by
  rw [received, List.foldl_append]
  rfl

/-- An exception that has been raised stays raised. -/
theorem raised_of_onRead {recv : Receiver} {h : DgramHandler} {bytes : List UInt8} {ep : Endpoint}
    (hr : (onRead d recv h (.ok bytes ep)).raised = []) : h.raised = [] := by
  rw [onRead] at hr
  dsimp only at hr
  split at hr
  · exact hr
  · exact (List.append_eq_nil_iff.1 hr).1

/-- After datagrams that raised no error the unpacker holds what their bytes leave over, and all
bytes have been scanned. -/
theorem received_pac {hist : List Datagram} (hok : (received d react hist).raised = []) :
    ∃ p, (values d [] (hist.flatMap Datagram.bytes)).2 = some p ∧
      (received d react hist).pac = ⟨p, []⟩ := by
  induction hist using List.reverseRecOn with
  | nil => exact ⟨[], rfl, rfl⟩
  | append_singleton hist g ih =>
    rw [received_concat] at hok ⊢
    have hraised := raised_of_onRead hok
    obtain ⟨p, hp, hpac⟩ := ih hraised
    have ha : Accepts d (fun _ => react) p (received d react hist).calls.length g.bytes := by
      by_contra hna
      exact (onRead_rejected hpac g.sender hna).2 (hok.trans hraised.symm)
    obtain ⟨q, hq, hpac', -⟩ := onRead_accepted hpac g.sender ha
    refine ⟨q, ?_, hpac'⟩
    rw [List.flatMap_append, List.flatMap_singleton, values_append_of_some d (Prod.ext rfl hp), hq]

/-- Handing over objects after a history. -/
theorem handleAll_history (ep : Endpoint) (s : List Object × List (Message × Option Endpoint))
    (os : List Object) :
    (handleAll (onMessage (fun _ => react) ep) s os).1 =
      (s.1 ++ (handleAll (onMessage (fun _ => react) ep) ([], []) os).1.1,
        s.2 ++ (handleAll (onMessage (fun _ => react) ep) ([], []) os).1.2) := by
  have h := handleAll_map (fun t : List Object × List (Message × Option Endpoint) =>
    (s.1 ++ t.1, s.2 ++ t.2)) (handOver_history (attributed ep) react s.1 s.2) ([], []) os
  rw [List.append_nil, List.append_nil] at h
  exact congrArg Prod.fst h

/-- What is dispatched for a datagram after datagrams that raised no error: the objects that its
bytes complete after what those left over. -/
theorem handled_eq {hist : List Datagram} {p : List UInt8}
    (hpac : (received d react hist).pac = ⟨p, []⟩) (g : Datagram) :
    handled d react hist g =
      (handleAll (onMessage (fun _ => react) g.sender) ([], []) (values d p g.bytes).1).1 := by
  have h := onRead_handed d (fun _ => react) (received d react hist) g.bytes g.sender
  rw [← received_concat, hpac, List.nil_append, handleAll_history] at h
  obtain ⟨h1, h2⟩ := Prod.mk.inj h
  simp [handled, h1, h2]

/-- The first object dispatched is the first that is completed. -/
theorem handled_head {hist : List Datagram} {p : List UInt8}
    (hpac : (received d react hist).pac = ⟨p, []⟩) (g : Datagram) :
    (handled d react hist g).1.head? = (values d p g.bytes).1.head? := by
  rw [handled_eq hpac]
  obtain ⟨taken, -, hhead, htaken⟩ := handleAll_handOver_objects (attributed g.sender)
    (fun _ => react) ([], []) (values d p g.bytes).1
  rw [onMessage, htaken, List.nil_append, hhead]

/-- **What is dispatched for a datagram depends on that datagram alone exactly when the datagrams
before it end on an object boundary.** They are arbitrary but raised no error. Of the format, `hext`
says that the object they leave unfinished can be finished, and `hfin` that the encodings of an
object are of bounded length. -/
theorem handled_independent_iff (d : Decoder UInt8 Object) (react : Message → Option Exn)
    (hist : List Datagram) (hok : (received d react hist).raised = [])
    (hext : ∀ p, (values d [] (hist.flatMap Datagram.bytes)).2 = some p →
      ∃ xs a, values d p xs = ([a], some []))
    (hfin : ∀ a, ∃ n, ∀ bs, d.scan bs = .done a → bs.length ≤ n) (sender : Endpoint) :
    (∀ bytes, handled d react hist ⟨bytes, sender⟩ = handled d react [] ⟨bytes, sender⟩) ↔
      (values d [] (hist.flatMap Datagram.bytes)).2 = some [] := by
  obtain ⟨p, hp, hpac⟩ := received_pac hok
  have hpac0 : (received d react []).pac = ⟨[], []⟩ := rfl
  rw [hp]
  constructor
  · intro hsame
    refine congrArg some (eq_nil_of_values_head_eq d (values_context d hp rfl) (hext p hp) hfin ?_)
    intro xs
    rw [← handled_head hpac ⟨xs, sender⟩, hsame, handled_head hpac0]
  · intro hnil bytes
    obtain rfl : p = [] := by simpa using hnil
    rw [handled_eq hpac, handled_eq hpac0]

end

/-- Peer 1 sends the first bytes of a request and then nothing; peer 2 sends one byte. The request
that peer 1 began is dispatched, attributed to peer 2; alone, the byte of peer 2 is no message. -/
theorem handled_of_two_peers :
    (received Format.decoder (fun _ => none) [⟨[0x94, 0x00, 0x01, 0xa1, 0x66], ⟨1, 9000⟩⟩]).raised
      = [] ∧
    handled Format.decoder (fun _ => none) [⟨[0x94, 0x00, 0x01, 0xa1, 0x66], ⟨1, 9000⟩⟩]
        ⟨[0x07], ⟨2, 9000⟩⟩ =
      ([(Message.request 1 (.str [0x66]) (.integer 7)).pack],
        [(.request 1 (.str [0x66]) (.integer 7), some ⟨2, 9000⟩)]) ∧
    handled Format.decoder (fun _ => none) [] ⟨[0x07], ⟨2, 9000⟩⟩ = ([.integer 7], []) ∧
    handled Format.decoder (fun _ => none) [⟨[0x94, 0x00, 0x01, 0xa1, 0x66], ⟨1, 9000⟩⟩]
        ⟨[0x07], ⟨2, 9000⟩⟩ ≠
      handled Format.decoder (fun _ => none) [] ⟨[0x07], ⟨2, 9000⟩⟩ := by
  decide

/-- After a whole request of peer 1 the datagrams of peer 2 are dispatched by themselves; after the
first bytes of one they are not. -/
theorem handled_independent_iff_request :
    (∀ bytes, handled Format.decoder (fun _ => none)
        [⟨[0x94, 0x00, 0x01, 0xa1, 0x66, 0x90], ⟨1, 9000⟩⟩] ⟨bytes, ⟨2, 9000⟩⟩ =
      handled Format.decoder (fun _ => none) [] ⟨bytes, ⟨2, 9000⟩⟩) ∧
    ¬ ∀ bytes, handled Format.decoder (fun _ => none)
        [⟨[0x94, 0x00, 0x01, 0xa1, 0x66], ⟨1, 9000⟩⟩] ⟨bytes, ⟨2, 9000⟩⟩ =
      handled Format.decoder (fun _ => none) [] ⟨bytes, ⟨2, 9000⟩⟩ := by
  have hfin (a : Object) : ∃ n, ∀ bs, Format.decoder.scan bs = .done a → bs.length ≤ n :=
    ⟨Format.bound a, fun bs h => (Format.takes_of_scan h).le_bound⟩
  constructor
  · refine (handled_independent_iff _ _ _ (by decide) ?_ hfin _).2 (by decide)
    intro p hp
    obtain rfl : p = [] := Option.some.inj (hp.symm.trans (by decide))
    exact ⟨[0xc0], .nil, by decide⟩
  · rw [handled_independent_iff _ _ _ (by decide) (fun p hp => ?_) hfin]
    · decide
    · obtain rfl : p = [0x94, 0x00, 0x01, 0xa1, 0x66] :=
        Option.some.inj (hp.symm.trans (by decide))
      exact ⟨[0x90], (Message.request 1 (.str [0x66]) (.array [])).pack, by decide⟩

end DgramHandler

end MsgpackRpc
