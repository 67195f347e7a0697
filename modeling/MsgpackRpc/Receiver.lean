import MsgpackRpc.Lib.Unpack
import MsgpackRpc.Protocol

/-!
# Receivers of decoded messages

`stream_handler` and `dgram_handler` decode messages and hand them to virtual functions that the
client and server sockets of each transport supply. A `Receiver` is what these functions do, and
`handOver` the `on_message` of both handlers, which differ in what they pass along with a message.
-/

namespace MsgpackRpc

open Unpack

/-- What the virtual `on_request`, `on_response` and `on_notify` of the derived class do with the
call of a given number: return, or throw a `std::exception`. -/
abbrev Receiver := Nat → Message → Option Exn

/-- A client socket: a request is a type error, the rest goes to the session unless it is gone. -/
def clientReceiver (sessionLocks : Nat → Bool) : Receiver
  | _, .request .. => some .typeError
  | i, .response .. | i, .notify .. => if sessionLocks i then none else some .closedException

/-- A server socket: a response is a type error, the rest goes to the dispatcher, which may throw,
unless the server is gone. -/
def serverReceiver (serverLocks : Nat → Bool) (dispatch : Receiver) : Receiver
  | _, .response .. => some .typeError
  | i, m@(.request ..) | i, m@(.notify ..) =>
    if serverLocks i then dispatch i m else some .closedException

namespace Tcp

/-- `tcp::client_socket::on_request`, `on_response` and `on_notify` (`tcp.cc:119`). -/
def ClientSocket.receiver : (sessionLocks : Nat → Bool) → Receiver := clientReceiver

/-- `tcp::server_socket::on_request`, `on_response` and `on_notify` (`tcp.cc:345`). -/
def ServerSocket.receiver : (serverLocks : Nat → Bool) → (dispatch : Receiver) → Receiver :=
  serverReceiver

end Tcp

namespace Udp

/-- `udp::client_socket::on_request`, `on_response` and `on_notify` (`udp.cc:106`). -/
def ClientSocket.receiver : (sessionLocks : Nat → Bool) → Receiver := clientReceiver

/-- `udp::server_socket::on_request`, `on_response` and `on_notify` (`udp.cc:235`). -/
def ServerSocket.receiver : (serverLocks : Nat → Bool) → (dispatch : Receiver) → Receiver :=
  serverReceiver

end Udp

/-! ## Handing over objects -/

section
variable {κ : Type}

/-- `on_message` as the loops of `on_read` run it: the object is converted and handed to a virtual
function. The state is the objects handed to `on_message` and the calls, with what `tag` adds to
them. -/
def handOver (tag : Message → κ) (recv : Receiver) (s : List Object × List κ) (msg : Object) :
    (List Object × List κ) × Option Exn :=
  match onMessage msg with
  | .error e => ((s.1 ++ [msg], s.2), some e)
  | .ok m => ((s.1 ++ [msg], s.2 ++ [tag m]), recv s.2.length m)

section
variable (tag : Message → κ) {recv : Receiver}

/-- Messages that the receiver takes are all handed over. -/
theorem handleAll_handOver {msgs : List Message} (hrecv : ∀ i, ∀ m ∈ msgs, recv i m = none)
    (os : List Object) (cs : List κ) :
    handleAll (handOver tag recv) (os, cs) (msgs.map Message.pack) =
      ((os ++ msgs.map Message.pack, cs ++ msgs.map tag), none) := by
  induction msgs generalizing os cs with
  | nil => simp [handleAll]
  | cons m msgs ih =>
    have hm : handOver tag recv (os, cs) m.pack = ((os ++ [m.pack], cs ++ [tag m]), none) := by
      simp [handOver, hrecv cs.length m (.head _)]
    rw [List.map_cons, handleAll, hm]
    dsimp only
    rw [ih (fun i x hx => hrecv i x (.tail _ hx))]
    simp

end

variable (tag : Message → κ) (recv : Receiver)

/-- The objects handed over are the first ones of those at hand, at least one if there is one. -/
theorem handleAll_handOver_objects (s : List Object × List κ) (os : List Object) :
    ∃ taken, taken <+: os ∧ taken.head? = os.head? ∧
      (handleAll (handOver tag recv) s os).1.1 = s.1 ++ taken := by
  induction os generalizing s with
  | nil => exact ⟨[], ⟨[], rfl⟩, rfl, by simp [handleAll]⟩
  | cons o os ih =>
    have ho : (handOver tag recv s o).1.1 = s.1 ++ [o] := by
      rw [handOver]; split <;> rfl
    rw [handleAll]
    rcases hm : handOver tag recv s o with ⟨s', _ | e⟩
    · rw [hm] at ho
      obtain ⟨taken, ht, -, he⟩ := ih s'
      exact ⟨o :: taken, (List.prefix_cons_inj o).2 ht, rfl, by dsimp only; rw [he, ho]; simp⟩
    · rw [hm] at ho
      exact ⟨[o], ⟨os, rfl⟩, rfl, ho⟩

/-- If nothing was thrown, they are all handed over. -/
theorem handleAll_handOver_all {s : List Object × List κ} {os : List Object}
    (h : (handleAll (handOver tag recv) s os).2 = none) :
    (handleAll (handOver tag recv) s os).1.1 = s.1 ++ os := by
  induction os generalizing s with
  | nil => exact (List.append_nil _).symm
  | cons o os ih =>
    have ho : (handOver tag recv s o).1.1 = s.1 ++ [o] := by
      rw [handOver]; split <;> rfl
    rw [handleAll] at h ⊢
    rcases hm : handOver tag recv s o with ⟨s', _ | e⟩
    · rw [hm] at ho h
      dsimp only at ho h ⊢
      rw [ih h, ho, List.append_assoc]
      rfl
    · rw [hm] at h
      cases h

variable {recv} in
/-- If bytes lead to the hand-over of exactly one object, some of them scan to it. -/
theorem scan_of_handOver {d : Decoder UInt8 Object} {bytes : List UInt8} {o : Object} {cs : List κ}
    (h : (handleAll (handOver tag recv) ([], cs) (values d [] bytes).1).1.1 = [o]) :
    ∃ u v, bytes = u ++ v ∧ d.scan u = .done o := by
  obtain ⟨taken, ⟨rest, hrest⟩, -, hh⟩ :=
    handleAll_handOver_objects tag recv ([], cs) (values d [] bytes).1
  have ht : taken = [o] := by rw [← List.nil_append taken, ← hh, h]
  subst ht
  obtain ⟨u, v, hu, hscan, -⟩ := values_first d (p := []) (Prod.ext hrest.symm rfl)
  exact ⟨u, v, hu, hscan⟩

/-- A receiver whose answer does not depend on the number of the call treats an object the same way
whatever has been handed over before. -/
theorem handOver_history (react : Message → Option Exn) (os : List Object) (cs : List κ)
    (s : List Object × List κ) (msg : Object) :
    handOver tag (fun _ => react) (os ++ s.1, cs ++ s.2) msg =
      ((os ++ (handOver tag (fun _ => react) s msg).1.1,
        cs ++ (handOver tag (fun _ => react) s msg).1.2),
        (handOver tag (fun _ => react) s msg).2) := by
  rw [handOver, handOver]
  rcases onMessage msg with e | m <;> simp

end

end MsgpackRpc
