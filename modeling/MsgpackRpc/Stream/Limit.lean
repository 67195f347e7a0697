import MsgpackRpc.Format
import MsgpackRpc.Stream.Handler

/-!
# The size limit of a stream

`on_read` looks at the size of the incomplete message only after it has handed over those that are
complete, and arms the next read only if the size is within `maxMessageSize`. So a message can be longer
than that, by what the last of its reads delivers and no more.

A run is what happens to one connection: reads complete, with bytes or an error, as long as one is
outstanding, and other threads may close the socket at any time. `Bounded` is its invariant, relative to
the bytes read so far and the messages that they complete (`Unpack.spans`).
-/

namespace MsgpackRpc

open Unpack

namespace StreamHandler

/-- What happens to a handler: a read completes, or another thread closes the socket. -/
inductive Event where
  | read (r : ReadCompletion)
  | close
  deriving DecidableEq, Repr

/-- The bytes that an event delivers. -/
def Event.bytes : Event → List UInt8
  | .read (.ok bytes) => bytes
  | .read (.error _) | .close => []

section
variable (d : Decoder UInt8 Object) (recv : Receiver)

/-- One event; a read completes only if one is outstanding. -/
def step (h : StreamHandler) : Event → Option StreamHandler
  | .read r => if 0 < h.reads then some (h.onRead d recv r) else none
  | .close => some h.onSystemError

/-- A sequence of events. -/
def run (h : StreamHandler) : List Event → Option StreamHandler
  | [] => some h
  | e :: es => (h.step d recv e).bind fun h => run h es

/-- A handler whose connection was just established. -/
def established : StreamHandler := start { isOpen := true }

/-- A handler that has read `bs`, no more than `c` bytes at a time. Either it has failed, or its next
read is outstanding and what is left over is within the limit. -/
structure Bounded (c : Nat) (bs : List UInt8) (h : StreamHandler) : Prop where
  messages : ∀ m ∈ spans d [] bs, m.1.length ≤ maxMessageSize + c
  dispatched : h.dispatched <+: (spans d [] bs).map Prod.snd
  size : h.pac.messageSize ≤ maxMessageSize + c
  state : (h.reads = 0 ∧ h.isOpen = false) ∨
    (h.reads = 1 ∧ h.dispatched = (spans d [] bs).map Prod.snd ∧
      ∃ q, (values d [] bs).2 = some q ∧ h.pac = ⟨q, []⟩ ∧ q.length ≤ maxMessageSize)

end

section
variable {d : Decoder UInt8 Object} {recv : Receiver} {h h' : StreamHandler} {bs bytes q : List UInt8}
  {c : Nat}

/-! ## One read -/

/-- What a read hands over is the first part of what its bytes complete. -/
theorem onRead_dispatched (recv : Receiver) (bytes : List UInt8) (hpac : h.pac = ⟨q, []⟩) :
    ∃ taken, taken <+: (values d q bytes).1 ∧
      (h.onRead d recv (.ok bytes)).dispatched = h.dispatched ++ taken := by
  obtain ⟨taken, htaken, -, hd⟩ := handleAll_handOver_objects id recv (h.dispatched, h.calls)
    (values d q bytes).1
  have hhanded := congrArg Prod.fst (onRead_handed d recv h bytes)
  rw [hpac] at hhanded
  exact ⟨taken, htaken, hhanded.trans hd⟩

/-- **A read keeps the limit.** It fails, or all that its bytes complete was handed over and what they
leave over is within the limit. -/
theorem onRead_limit (recv : Receiver) (bytes : List UInt8) (hpac : h.pac = ⟨q, []⟩)
    (hreads : h.reads = 1) :
    (h.onRead d recv (.ok bytes)).pac.messageSize ≤ q.length + bytes.length ∧
      (((h.onRead d recv (.ok bytes)).reads = 0 ∧ (h.onRead d recv (.ok bytes)).isOpen = false) ∨
        ((h.onRead d recv (.ok bytes)).reads = 1 ∧
          (h.onRead d recv (.ok bytes)).dispatched = h.dispatched ++ (values d q bytes).1 ∧
          ∃ q', (values d q bytes).2 = some q' ∧ (h.onRead d recv (.ok bytes)).pac = ⟨q', []⟩ ∧
            q'.length ≤ maxMessageSize)) := by
  have hsize := drain_messageSize d (onMessage recv) Exn.parseError (h.dispatched, h.calls) q bytes
  rcases hd : drain d (onMessage recv) Exn.parseError (h.dispatched, h.calls) q bytes with
    ⟨pac, ⟨os, cs⟩, exn⟩
  rw [hd] at hsize
  rcases onRead_of_drain hpac hd with ⟨e, hread⟩ | ⟨rfl, hsmall, hread⟩
  · rw [hread]
    refine ⟨Nat.le_trans ?_ hsize, .inl ⟨?_, rfl⟩⟩
    · -- what was not scanned is dropped
      exact Nat.add_le_add_left (Nat.zero_le _) _
    · show h.reads - 1 = 0
      omega
  · have hnone : (drain d (onMessage recv) Exn.parseError (h.dispatched, h.calls) q bytes).2.2 =
        none := by rw [hd]
    obtain ⟨q', hq', hpac'⟩ := drain_unpacker d (onMessage recv) Exn.parseError
      (h.dispatched, h.calls) q bytes hnone
    have hall := handleAll_handOver_all id recv ((drain_exn_eq_none_iff d (onMessage recv)
      Exn.parseError (h.dispatched, h.calls) q bytes).1 hnone).2
    have hos := congrArg Prod.fst (drain_state d (onMessage recv) Exn.parseError
      (h.dispatched, h.calls) q bytes)
    rw [hd] at hpac' hos
    obtain rfl : pac = ⟨q', []⟩ := hpac'
    rw [hread]
    refine ⟨hsize, .inr ⟨?_, hos.trans hall, q', hq', rfl, hsmall⟩⟩
    show h.reads - 1 + 1 = 1
    omega

/-! ## Runs -/

theorem bounded_established (c : Nat) : Bounded d c [] established := by
  refine ⟨?_, List.prefix_refl _, Nat.zero_le _, .inr ⟨rfl, rfl, [], rfl, rfl, Nat.zero_le _⟩⟩
  intro m hm
  cases hm

/-- **One event.** -/
theorem bounded_step {e : Event} (hb : Bounded d c bs h) (hc : e.bytes.length ≤ c)
    (hs : h.step d recv e = some h') : Bounded d c (bs ++ e.bytes) h' := by
  cases e with
  | close =>
    cases hs
    rw [Event.bytes, List.append_nil]
    refine ⟨hb.messages, hb.dispatched, hb.size, ?_⟩
    exact hb.state.imp_left fun hdead => ⟨hdead.1, rfl⟩
  | read r =>
    rw [step] at hs
    split at hs
    · next hpos =>
      cases hs
      obtain ⟨hreads, hdisp, q, hq, hpac, hlen⟩ := hb.state.resolve_left fun hdead => by omega
      cases r with
      | error value =>
        rw [Event.bytes, List.append_nil]
        refine ⟨hb.messages, hb.dispatched, ?_, .inl ⟨?_, rfl⟩⟩
        · exact Nat.le_trans (Nat.add_le_add_left (Nat.zero_le _) _) hb.size
        · show h.reads - 1 = 0
          omega
      | ok bytes =>
        have hc : bytes.length ≤ c := hc
        have hspans : spans d [] (bs ++ bytes) = spans d [] bs ++ spans d q bytes := by
          rw [spans_append, hq]
          rfl
        have hnew : (spans d [] (bs ++ bytes)).map Prod.snd = h.dispatched ++ (values d q bytes).1 := by
          rw [hspans, List.map_append, spans_values d q, hdisp]
        obtain ⟨hsize, hstate⟩ := onRead_limit (d := d) recv bytes hpac hreads
        refine ⟨?_, ?_, by omega, ?_⟩
        · intro m hm
          rw [Event.bytes, hspans] at hm
          rcases List.mem_append.1 hm with hm | hm
          · exact hb.messages m hm
          · have hle := spans_length d q bytes m hm
            omega
        · obtain ⟨taken, htaken, hd⟩ := onRead_dispatched (d := d) recv bytes hpac
          rw [Event.bytes, hnew, hd]
          exact (List.prefix_append_right_inj _).2 htaken
        · refine hstate.imp_right ?_
          rintro ⟨h1, h2, q', hq', hpac', hlen'⟩
          have hvalues : (values d [] (bs ++ bytes)).2 = some q' := by
            rw [values_append_of_some d (Prod.ext rfl hq : values d [] bs = (_, some q))]
            exact hq'
          exact ⟨h1, h2.trans hnew.symm, q', hvalues, hpac', hlen'⟩
    · cases hs

theorem bounded_run {es : List Event} (hb : Bounded d c bs h)
    (hc : ∀ e ∈ es, e.bytes.length ≤ c) (hrun : h.run d recv es = some h') :
    Bounded d c (bs ++ (es.map Event.bytes).flatten) h' := by
  induction es generalizing bs h with
  | nil =>
    cases hrun
    rw [List.map_nil, List.flatten_nil, List.append_nil]
    exact hb
  | cons e es ih =>
    obtain ⟨h₁, hs, hrun⟩ := Option.bind_eq_some_iff.1 hrun
    rw [List.map_cons, List.flatten_cons, ← List.append_assoc]
    exact ih (bounded_step hb (hc e (.head _)) hs) (fun e' he' => hc e' (.tail _ he')) hrun

end

/-- **Oversized messages are refused.** In every run of a connection whose reads deliver at most `c`
bytes each, with any receiver, the objects dispatched are scanned from no more than `maxMessageSize + c`
bytes each; no longer message ever completes in what is read; what is buffered of the incomplete
message, in every state and in every round of the loop of the next read, is within that bound; and once
it is over `maxMessageSize` the connection has failed. -/
theorem oversized_refused (d : Decoder UInt8 Object) (recv : Receiver) {c : Nat} {es : List Event}
    {h : StreamHandler} (hc : ∀ e ∈ es, e.bytes.length ≤ c)
    (hrun : established.run d recv es = some h) :
    (∃ ms, ms <+: spans d [] (es.map Event.bytes).flatten ∧ h.dispatched = ms.map Prod.snd ∧
      ∀ m ∈ ms, m.1.length ≤ maxMessageSize + c) ∧
    (∀ u as m o, values d [] u = (as, some []) → Encodes d m o →
      u ++ m <+: (es.map Event.bytes).flatten → m.length ≤ maxMessageSize + c) ∧
    h.pac.messageSize ≤ maxMessageSize + c ∧
    (∀ bytes, 0 < h.reads → bytes.length ≤ c → ∀ u, Rounds d (h.pac.feed bytes) u →
      u.messageSize ≤ maxMessageSize + c) ∧
    (maxMessageSize < h.pac.messageSize → h.reads = 0 ∧ h.isOpen = false) := by
  have hb := bounded_run (bounded_established c) hc hrun
  rw [List.nil_append] at hb
  refine ⟨?_, ?_, hb.size, ?_, ?_⟩
  · refine ⟨_, List.take_prefix h.dispatched.length _, ?_, fun m hm =>
      hb.messages m (List.mem_of_mem_take hm)⟩
    rw [List.map_take]
    exact List.prefix_iff_eq_take.1 hb.dispatched
  · intro u as m o hu henc hpre
    exact hb.messages (m, o) (henc.mem_spans hu hpre)
  · intro bytes hpos hle u hu
    obtain ⟨-, -, q, -, hpac, hq⟩ := hb.state.resolve_left fun hdead => by omega
    have hsize := hu.messageSize_le
    rw [hpac] at hsize
    have hfeed : ((⟨q, []⟩ : Unpacker UInt8).feed bytes).messageSize = q.length + bytes.length := rfl
    omega
  · intro hlarge
    refine hb.state.resolve_right ?_
    rintro ⟨-, -, q, -, hpac, hq⟩
    rw [hpac] at hlarge
    have hsmall : (⟨q, []⟩ : Unpacker UInt8).messageSize = q.length := rfl
    omega

/-- A notification arrives two bytes at a time, and the connection is closed. -/
theorem oversized_refused_notify :
    let es : List Event := [.read (.ok [0x93, 0x02]), .read (.ok [0xa1, 0x66]), .read (.ok [0x90]),
      .close, .read (.error 125)]
    ∃ h, established.run Format.decoder (fun _ _ => none) es = some h ∧
      h.dispatched = [(Message.notify (.str [0x66]) (.array [])).pack] ∧
      h.pac.messageSize ≤ maxMessageSize + 2 := by
  intro es
  rcases hrun : established.run Format.decoder (fun _ _ => none) es with _ | h
  · exact absurd hrun (by decide)
  · have hd : (established.run Format.decoder (fun _ _ => none) es).map StreamHandler.dispatched =
        some [(Message.notify (.str [0x66]) (.array [])).pack] := by decide
    rw [hrun] at hd
    have hc : ∀ e ∈ es, e.bytes.length ≤ 2 := by decide
    exact ⟨h, rfl, Option.some.inj hd, (oversized_refused Format.decoder _ hc hrun).2.2.1⟩

end StreamHandler

end MsgpackRpc
