import Mathlib.Data.List.Induction
import MsgpackRpc.Format
import MsgpackRpc.Stream.Handler

/-!
# Framing of messages on a stream

Messages written whole on one stream arrive as exactly these messages, in write order and with
their fields, however the byte stream is cut into reads. The bytes received so far are a prefix of
the stream, that is some whole messages and a proper part of the next one, and `Received` is the
state of a handler that has read them (`onReads_received`): the whole messages have been handed
over, the part is the unpacker's parse context, one read is outstanding and nothing was raised.
-/

namespace MsgpackRpc

open Unpack

namespace StreamHandler

section
variable {d : Decoder UInt8 Object} {enc : Object → List UInt8} {recv : Receiver}

/-- The bytes of messages written one after another. -/
def stream (enc : Object → List UInt8) (msgs : List Message) : List UInt8 :=
  (msgs.map fun m => enc m.pack).flatten

/-- The handler `h` has taken the messages `whole` and holds the bytes `part` of the next one. -/
def received (h : StreamHandler) (whole : List Message) (part : List UInt8) : StreamHandler :=
  { h with
    pac := ⟨part, []⟩
    dispatched := h.dispatched ++ whole.map Message.pack
    calls := h.calls ++ whole }

/-- The cut of a prefix of the stream of `msgs`: whole messages, a part of the next one, and the
messages not yet complete. -/
structure Cut (enc : Object → List UInt8) (msgs : List Message) (xs : List UInt8)
    (whole : List Message) (part : List UInt8) : Prop where
  isPrefix : whole <+: msgs
  bytes : xs = stream enc whole ++ part
  proper : part = [] ∨ ∃ m ∈ msgs, part <+: enc m.pack ∧ part ≠ enc m.pack

/-- Every prefix of the stream has a cut. -/
theorem exists_cut {msgs : List Message} (henc : ∀ m ∈ msgs, Encodes d (enc m.pack) m.pack)
    {xs : List UInt8} (hx : xs <+: stream enc msgs) : ∃ whole part, Cut enc msgs xs whole part := by
  obtain ⟨whole, part, rest, rfl, hxs, hpart⟩ :=
    stream_cut (fun m : Message => enc m.pack) (fun m hm => (henc m hm).ne_nil) hx
  refine ⟨whole, part, ⟨rest, rfl⟩, hxs, hpart.imp_right ?_⟩
  rintro ⟨m, tl, rfl, h1, h2⟩
  exact ⟨m, by simp, h1, h2⟩

/-- The values of a cut: its whole messages, with its part left over. -/
theorem Cut.values {msgs whole : List Message} {xs part : List UInt8}
    (henc : ∀ m ∈ msgs, Encodes d (enc m.pack) m.pack) (hc : Cut enc msgs xs whole part) :
    values d [] xs = (whole.map Message.pack, some part) := by
  rw [hc.bytes]
  refine values_stream_part (fun m : Message => enc m.pack)
    (fun m hm => henc m (hc.isPrefix.subset hm)) (hc.proper.imp_right ?_)
  rintro ⟨m, hm, h1, h2⟩
  exact ⟨_, _, henc m hm, h1, h2⟩

/-- The part of a cut is no longer than the longest message. -/
theorem Cut.part_length_le {msgs whole : List Message} {xs part : List UInt8} {n : Nat}
    (hsize : ∀ m ∈ msgs, (enc m.pack).length ≤ n) (hc : Cut enc msgs xs whole part) :
    part.length ≤ n := by
  rcases hc.proper with rfl | ⟨m, hm, h1, _⟩
  · exact Nat.zero_le _
  · exact Nat.le_trans h1.length_le (hsize m hm)

/-- The next read moves the cut: it completes the messages between the two cuts. -/
theorem Cut.values_read {msgs whole whole' : List Message} {xs c part part' : List UInt8}
    (henc : ∀ m ∈ msgs, Encodes d (enc m.pack) m.pack) (hc : Cut enc msgs xs whole part)
    (hc' : Cut enc msgs (xs ++ c) whole' part') :
    ∃ new, whole' = whole ++ new ∧ Unpack.values d part c = (new.map Message.pack, some part') := by
  have h1 := values_append_of_some d (hc.values henc) c
  rw [hc'.values henc, Prod.mk.injEq] at h1
  obtain ⟨hvals, hrest⟩ := h1
  have hlen : whole.length ≤ whole'.length := by
    have := congrArg List.length hvals
    simp only [List.length_map, List.length_append] at this
    omega
  obtain ⟨new, rfl⟩ := List.prefix_of_prefix_length_le hc.isPrefix hc'.isPrefix hlen
  rw [List.map_append] at hvals
  exact ⟨new, rfl, Prod.ext (List.append_cancel_left hvals).symm hrest.symm⟩

/-- **The state after any reads of a prefix of the stream.** Induction on the reads: each one moves
the cut and goes well. -/
theorem onReads_received {msgs : List Message}
    (henc : ∀ m ∈ msgs, Encodes d (enc m.pack) m.pack)
    (hsize : ∀ m ∈ msgs, (enc m.pack).length ≤ maxMessageSize)
    (hrecv : ∀ i, ∀ m ∈ msgs, recv i m = none) {h : StreamHandler} (hpac : h.pac = .empty)
    (hreads : h.reads = 1) (chunks : List (List UInt8))
    (hx : chunks.flatten <+: stream enc msgs) :
    ∃ whole part, Cut enc msgs chunks.flatten whole part ∧
      onReads d recv h chunks = h.received whole part := by
  induction chunks using List.reverseRecOn with
  | nil =>
    refine ⟨[], [], ⟨⟨_, rfl⟩, rfl, .inl rfl⟩, ?_⟩
    simp [onReads, received, ← Unpacker.empty.eq_def, ← hpac]
  | append_singleton chunks c ih =>
    rw [List.flatten_append, List.flatten_singleton] at hx
    obtain ⟨whole, part, hc, hrun⟩ := ih ((List.prefix_append _ _).trans hx)
    obtain ⟨whole', part', hc'⟩ := exists_cut henc hx
    obtain ⟨new, rfl, hv⟩ := hc.values_read henc hc'
    have hnew : ∀ i, ∀ m ∈ new, recv i m = none := fun i m hm =>
      hrecv i m (hc'.isPrefix.subset (List.mem_append_right _ hm))
    have hread := onRead_messages recv (h := h.received whole part) rfl hv hnew
    refine ⟨whole ++ new, part', by simpa using hc', ?_⟩
    rw [onReads_concat, hrun, hread]
    simp [received, start, hreads, hc'.part_length_le hsize]

end

/-- **Stream framing is independent of chunking.** Messages that threads write whole on one open
stream handler, each encoded in at most `maxMessageSize` bytes and taken by the receiver, are
handed over exactly once each, in write order and with their fields, for every partition of the
bytes into reads. After every read nothing has been raised, the calls made so far are the first ones
in write order, and exactly one read is outstanding. -/
theorem onReads_eq_writes (d : Decoder UInt8 Object) (enc : Object → List UInt8) (recv : Receiver)
    (sender : StreamHandler) (writes : List (Nat × Message)) (chunks : List (List UInt8))
    (henc : ∀ w ∈ writes, Encodes d (enc w.2.pack) w.2.pack)
    (hsize : ∀ w ∈ writes, (enc w.2.pack).length ≤ maxMessageSize)
    (hrecv : ∀ i, ∀ w ∈ writes, recv i w.2 = none)
    (hopen : sender.isOpen = true) (hnew : sender.written = [])
    (hchunks : chunks.flatten =
      (writes.foldl (fun h w => h.sendData (enc w.2.pack)) sender).written) :
    (onReads d recv (start { isOpen := true }) chunks).calls = writes.map (·.2) ∧
      ∀ k, let h := onReads d recv (start { isOpen := true }) (chunks.take k)
        h.raised = [] ∧ h.reads = 1 ∧ h.isOpen = true ∧ h.calls <+: writes.map (·.2) := by
  have hw : chunks.flatten = stream enc (writes.map (·.2)) := by
    rw [hchunks, ← List.foldl_map (f := fun w : Nat × Message => enc w.2.pack) (g := sendData),
      foldl_sendData sender hopen, hnew, stream, List.map_map, List.nil_append]
    rfl
  have henc' : ∀ m ∈ writes.map (·.2), Encodes d (enc m.pack) m.pack :=
    List.forall_mem_map.2 henc
  have hsize' : ∀ m ∈ writes.map (·.2), (enc m.pack).length ≤ maxMessageSize :=
    List.forall_mem_map.2 hsize
  have hrecv' : ∀ i, ∀ m ∈ writes.map (·.2), recv i m = none :=
    fun i => List.forall_mem_map.2 (hrecv i)
  have hrun := fun cs hx => onReads_received henc' hsize' hrecv' (h := start { isOpen := true })
    rfl rfl cs hx
  refine ⟨?_, ?_⟩
  · obtain ⟨whole, part, hc, hs⟩ := hrun chunks (hw ▸ List.prefix_refl _)
    have hv := hc.values henc'
    rw [hw, stream, values_stream (fun m : Message => enc m.pack) henc'] at hv
    have hl : whole.length = (writes.map (·.2)).length := by
      have := congrArg List.length (Prod.mk.inj hv).1
      simpa using this.symm
    rw [hs, received, hc.isPrefix.eq_of_length hl]
    rfl
  · intro k
    have hx : (chunks.take k).flatten <+: stream enc (writes.map (·.2)) := by
      rw [← hw]
      nth_rewrite 2 [← List.take_append_drop k chunks]
      rw [List.flatten_append]
      exact List.prefix_append _ _
    obtain ⟨whole, part, hc, hs⟩ := hrun _ hx
    rw [hs]
    exact ⟨rfl, rfl, rfl, hc.isPrefix⟩

/-- A response and a notification of two threads, read by a client in three chunks that cut both
messages. -/
theorem onReads_eq_writes_client :
    (onReads Format.decoder (Tcp.ClientSocket.receiver fun _ => true) (start { isOpen := true })
      [[0x94, 0x01], [0x01, 0xc0, 0x07, 0x93], [0x02, 0xa1, 0x61, 0x90]]).calls =
      [.response 1 (.integer 7) .nil, .notify (.str [0x61]) (.array [])] :=
  (onReads_eq_writes Format.decoder Format.encode (Tcp.ClientSocket.receiver fun _ => true)
    { isOpen := true } [(0, .response 1 (.integer 7) .nil), (1, .notify (.str [0x61]) (.array []))]
    [[0x94, 0x01], [0x01, 0xc0, 0x07, 0x93], [0x02, 0xa1, 0x61, 0x90]]
    (by
      intro w hw
      simp only [List.mem_cons, List.not_mem_nil, or_false] at hw
      rcases hw with rfl | rfl <;> exact .of_take (by decide) (by decide) (by decide))
    (by decide) (by simp [Tcp.ClientSocket.receiver, clientReceiver]) rfl rfl (by decide)).1

end StreamHandler

end MsgpackRpc
