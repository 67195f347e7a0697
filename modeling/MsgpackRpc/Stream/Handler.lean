import MsgpackRpc.Receiver

/-!
# The stream handler

`stream_handler` (`transport/stream_handler.cc`), the part of a TCP connection that reads and
writes messages, which `tcp::client_socket` and `tcp::server_socket` derive from. The byte format is
a parameter: a decoder `d` for the unpacker and the bytes `enc` that `msgpack::pack` writes. The
virtual functions that the derived classes supply are a `Receiver`.

`onRead_messages` says what a read does that completes messages the receiver takes; the facts about
runs of reads rest on it.
-/

namespace MsgpackRpc

open Unpack

/-- The largest `message_size()` that `stream_handler::on_read` lets pass. -/
def maxMessageSize : Nat := 10 * 1024 * 1024

/-- How an asynchronous read completes. -/
inductive ReadCompletion where
  | ok (bytes : List UInt8)
  | error (value : Nat)
  deriving DecidableEq, Repr

/-- `stream_handler`, with its observable behaviour: the reads outstanding on the socket, the
objects handed to `on_message`, the calls of the virtual functions, the exceptions caught by
`on_read` and the bytes written. -/
structure StreamHandler where
  pac : Unpacker UInt8 := .empty
  isOpen : Bool := false
  reads : Nat := 0
  dispatched : List Object := []
  calls : List Message := []
  raised : List Exn := []
  written : List UInt8 := []
  deriving DecidableEq, Repr

namespace StreamHandler

/-- `stream_handler::start` (`stream_handler.cc:28`). -/
def start (h : StreamHandler) : StreamHandler := { h with reads := h.reads + 1 }

/-- The socket part of `client_socket::on_system_error` (`tcp.cc:145`) and of
`server_socket::on_system_error` (`tcp.cc:371`): the socket is closed. -/
def onSystemError (h : StreamHandler) : StreamHandler := { h with isOpen := false }

/-- `stream_handler::on_message` (`stream_handler.cc:130`). -/
def onMessage (recv : Receiver) : List Object × List Message → Object →
    (List Object × List Message) × Option Exn :=
  handOver id recv

section
variable (d : Decoder UInt8 Object) (recv : Receiver)

/-- The end of `on_read` after an error or an exception (`stream_handler.cc:84`). -/
def onReadFailed (h : StreamHandler) : StreamHandler :=
  { h.onSystemError with pac := h.pac.removeNonparsedBuffer }

/-- The loop `while (m_pac->next(&result))` of `on_read` over newly received bytes, and the size
check after it. -/
def drainRead (h : StreamHandler) (bytes : List UInt8) : StreamHandler × Option Exn :=
  let u := h.pac.feed bytes
  let (pac, (dispatched, calls), exn) :=
    drain d (onMessage recv) .parseError (h.dispatched, h.calls) u.parsed u.received
  let h := { h with pac, dispatched, calls }
  match exn with
  | some e => (h, some e)
  | none => if h.pac.messageSize > maxMessageSize then (h, some .messageTooLarge) else (h, none)

/-- `stream_handler::on_read` (`stream_handler.cc:53`). The completed read is no longer
outstanding. -/
def onRead (h : StreamHandler) : ReadCompletion → StreamHandler
  | .ok bytes =>
    match drainRead d recv { h with reads := h.reads - 1 } bytes with
    | (h, none) => h.start
    | (h, some e) => { h with raised := h.raised ++ [e] }.onReadFailed
  | .error _ => { h with reads := h.reads - 1 }.onReadFailed

/-- The fold of `on_read` over successful reads. -/
def onReads (h : StreamHandler) (chunks : List (List UInt8)) : StreamHandler :=
  chunks.foldl (fun h c => onRead d recv h (.ok c)) h

/-- `stream_handler::send_data` (`stream_handler.cc:91`) where the write, made under the mutex,
succeeds: the whole buffer is written. On a closed socket nothing is. -/
def sendData (h : StreamHandler) (bytes : List UInt8) : StreamHandler :=
  if h.isOpen then { h with written := h.written ++ bytes } else h

end

/-! ## One read -/

section
variable {d : Decoder UInt8 Object} {recv : Receiver}

variable (d recv) in
/-- What a read hands over: the objects that its bytes complete, up to the first that the receiver
throws on, whether it then goes well or not. -/
theorem onRead_handed (h : StreamHandler) (bytes : List UInt8) :
    ((onRead d recv h (.ok bytes)).dispatched, (onRead d recv h (.ok bytes)).calls) =
      (handleAll (onMessage recv) (h.dispatched, h.calls)
        (values d h.pac.parsed (h.pac.received ++ bytes)).1).1 := by
  rw [← drain_state d (onMessage recv) Exn.parseError]
  rcases hr : drain d (onMessage recv) Exn.parseError (h.dispatched, h.calls) h.pac.parsed
    (h.pac.received ++ bytes) with ⟨pac, ⟨os, cs⟩, _ | e⟩
  · by_cases hs : pac.messageSize > maxMessageSize <;>
      simp [onRead, drainRead, Unpacker.feed, hr, hs, start, onReadFailed, onSystemError]
  · simp [onRead, drainRead, Unpacker.feed, hr, onReadFailed, onSystemError]

/-- The state that a read leaves, by how its loop ends. -/
theorem onRead_of_drain {h : StreamHandler} {q bytes : List UInt8} {pac : Unpacker UInt8}
    {os : List Object} {cs : List Message} {exn : Option Exn} (hpac : h.pac = ⟨q, []⟩)
    (hd : drain d (onMessage recv) Exn.parseError (h.dispatched, h.calls) q bytes =
      (pac, (os, cs), exn)) :
    (∃ e, h.onRead d recv (.ok bytes) =
        { h with
          pac := pac.removeNonparsedBuffer
          isOpen := false
          reads := h.reads - 1
          dispatched := os
          calls := cs
          raised := h.raised ++ [e] }) ∨
      (exn = none ∧ pac.messageSize ≤ maxMessageSize ∧ h.onRead d recv (.ok bytes) =
        { h with pac, reads := h.reads - 1 + 1, dispatched := os, calls := cs }) := by
  cases exn with
  | some e =>
    refine .inl ⟨e, ?_⟩
    simp [onRead, drainRead, Unpacker.feed, hpac, hd, onReadFailed, onSystemError]
  | none =>
    by_cases hlarge : pac.messageSize > maxMessageSize
    · refine .inl ⟨.messageTooLarge, ?_⟩
      simp [onRead, drainRead, Unpacker.feed, hpac, hd, hlarge, onReadFailed, onSystemError]
    · refine .inr ⟨rfl, Nat.not_lt.1 hlarge, ?_⟩
      simp [onRead, drainRead, Unpacker.feed, hpac, hd, hlarge, start]

variable (recv) in
/-- **A read of messages.** On a handler that has scanned all it received, bytes that complete
messages the receiver takes hand over exactly those messages and leave the rest in the unpacker. The
next read is armed unless the rest is larger than `maxMessageSize`, which is raised. -/
theorem onRead_messages {h : StreamHandler} {bytes p q : List UInt8} {msgs : List Message}
    (hpac : h.pac = ⟨p, []⟩) (hv : values d p bytes = (msgs.map Message.pack, some q))
    (hrecv : ∀ i, ∀ m ∈ msgs, recv i m = none) :
    onRead d recv h (.ok bytes) =
      let h' := { h with
        pac := ⟨q, []⟩
        reads := h.reads - 1
        dispatched := h.dispatched ++ msgs.map Message.pack
        calls := h.calls ++ msgs }
      if q.length ≤ maxMessageSize then h'.start
      else { h' with isOpen := false, raised := h.raised ++ [.messageTooLarge] } := by
  have hd := drain_of_values d (s := (h.dispatched, h.calls)) Exn.parseError hv
    (handleAll_handOver id hrecv h.dispatched h.calls)
  rw [List.map_id] at hd
  by_cases hq : q.length ≤ maxMessageSize
  · have hsz : ¬ q.length > maxMessageSize := by omega
    simp [onRead, drainRead, onMessage, Unpacker.feed, Unpacker.messageSize, hpac, hd, hq, hsz]
  · have hsz : q.length > maxMessageSize := by omega
    simp [onRead, drainRead, onMessage, Unpacker.feed, Unpacker.messageSize,
      Unpacker.removeNonparsedBuffer, onReadFailed, onSystemError, hpac, hd, hq, hsz]

end

/-- The loop of `on_read` over bytes that were received, one round of it at a time. -/
theorem drainRead_next (d : Decoder UInt8 Object) (recv : Receiver) (h : StreamHandler) :
    h.drainRead d recv [] =
      match next d h.pac.parsed h.pac.received with
      | .none u =>
        if u.messageSize > maxMessageSize then ({ h with pac := u }, some .messageTooLarge)
        else ({ h with pac := u }, none)
      | .value msg u =>
        match onMessage recv (h.dispatched, h.calls) msg with
        | ((dispatched, calls), none) => { h with pac := u, dispatched, calls }.drainRead d recv []
        | ((dispatched, calls), some e) => ({ h with pac := u, dispatched, calls }, some e)
      | .bad u => ({ h with pac := u }, some .parseError) := by
  have hfed (h : StreamHandler) : h.pac.feed [] = h.pac := by rw [Unpacker.feed, List.append_nil]
  rw [drainRead, hfed, drain_next]
  cases next d h.pac.parsed h.pac.received with
  | none u => rfl
  | bad u => rfl
  | value msg u =>
    dsimp only
    rcases onMessage recv (h.dispatched, h.calls) msg with ⟨⟨os, cs⟩, _ | e⟩
    · dsimp only
      rw [drainRead.eq_def d recv { h with pac := u, dispatched := os, calls := cs }, hfed]
    · rfl

/-- What `on_read` does when its loop has ended or thrown. -/
def finishRead (r : StreamHandler × Option Exn) : StreamHandler :=
  r.2.elim r.1.start fun e => { r.1 with raised := r.1.raised ++ [e] }.onReadFailed

theorem onRead_finishRead (d : Decoder UInt8 Object) (recv : Receiver) (h : StreamHandler)
    (bytes : List UInt8) :
    h.onRead d recv (.ok bytes) =
      finishRead ({ h with reads := h.reads - 1, pac := h.pac.feed bytes }.drainRead d recv []) := by
  have hfed : { h with reads := h.reads - 1, pac := h.pac.feed bytes }.drainRead d recv [] =
      { h with reads := h.reads - 1 }.drainRead d recv bytes := by
    unfold drainRead
    dsimp only [Unpacker.feed]
    rw [List.append_nil]
  rw [onRead, hfed]
  rcases drainRead d recv { h with reads := h.reads - 1 } bytes with ⟨h', _ | e⟩ <;> rfl

/-- One more read. -/
theorem onReads_concat (d : Decoder UInt8 Object) (recv : Receiver) (h : StreamHandler)
    (chunks : List (List UInt8)) (c : List UInt8) :
    onReads d recv h (chunks ++ [c]) = onRead d recv (onReads d recv h chunks) (.ok c) := by
  simp [onReads, List.foldl_append]

/-! ## Writes -/

/-- The bytes that a sequence of writes puts on an open socket, in write order. -/
theorem foldl_sendData (h : StreamHandler) (hopen : h.isOpen = true) (bss : List (List UInt8)) :
    bss.foldl sendData h = { h with written := h.written ++ bss.flatten } := by
  induction bss generalizing h with
  | nil => simp
  | cons bs bss ih =>
    have hs : h.sendData bs = { h with written := h.written ++ bs } := by
      simp only [sendData, hopen, if_true]
    rw [List.foldl_cons, hs, ih { h with written := h.written ++ bs } hopen]
    simp

end StreamHandler

end MsgpackRpc
