import Mathlib.Algebra.Order.Group.Multiset
import MsgpackRpc.Lib.Shared
import MsgpackRpc.Protocol

/-!
# Buffers

`buffer` (`buffer.h`, `buffer.cc`), the type for raw parameters and results. A buffer refers to bytes
somewhere in memory or owns a copy of them, which it shares with the buffers that are copied from it
(`boost::shared_array`). Converting an object to a buffer first refers to the bytes of the object and
then copies them; what the buffer owned until then is let go in between.

A buffer that owns its bytes keeps them, whatever happens to other buffers and to the memory that
they were copied from (`unwrapped_stable`). A conversion goes wrong if the object refers to bytes that
nobody but the buffer owns, as the object of the buffer itself does (`convert_defined_iff`).

An operation with undefined behaviour, such as copying from memory that has been freed, has no result
here. The allocations are those that succeed.
-/

namespace MsgpackRpc

/-- A pointer, by block and offset. -/
structure Ptr where
  block : Nat
  offset : Nat
  deriving DecidableEq, Repr

/-- `buffer` (`buffer.h:20`). The owned array is named by its block. -/
structure Buffer where
  size : BitVec 32 := 0
  ptr : Option Ptr := none
  sPtr : Option Nat := none
  deriving DecidableEq, Repr

/-- What the conversion reads of an `object`: whether its type is `BIN`, and `via.bin`. -/
structure BinObject where
  bin : Bool
  ptr : Option Ptr
  size : BitVec 32
  deriving DecidableEq, Repr

/-- `operator<<` (`buffer.h:55`), which does not copy the bytes. -/
def Buffer.toObject (v : Buffer) : BinObject := ⟨true, v.ptr, v.size⟩

namespace Buffer

/-- The memory, the buffers, where those that have been destroyed leave a gap, and the exceptions that
were thrown. -/
structure State where
  memory : Shared.Store (List UInt8) := {}
  buffers : List (Option Buffer) := []
  raised : List Exn := []
  deriving DecidableEq, Repr

/-- The operations: what others do with memory of their own, and what is done with buffers. -/
inductive Op where
  -- other memory
  | allocate (bytes : List UInt8)
  | write (b : Nat) (bytes : List UInt8)
  | free (b : Nat)
  -- the constructors, the assignment and the destructor
  | construct (ptr : Option Ptr) (size : BitVec 32)
  | copy (j : Nat)
  | assign (i j : Nat)
  | destroy (i : Nat)
  -- the functions
  | wrap (i : Nat) (p : Option Ptr) (s : BitVec 32)
  | makeUnwrapped (i : Nat)
  | clear (i : Nat)
  -- `operator>>`
  | convert (i : Nat) (o : BinObject)
  deriving DecidableEq, Repr

/-- The buffer that an operation makes refer to something else. -/
def Op.target : Op → Option Nat
  | .assign i _ | .destroy i | .wrap i _ _ | .clear i | .convert i _ => some i
  | _ => none

/-- The blocks that buffers own. -/
def owners (buffers : List (Option Buffer)) : Multiset Nat :=
  ↑(buffers.filterMap fun v => v.bind Buffer.sPtr)

namespace State

/-- A buffer that has not been destroyed. -/
def buffer (s : State) (i : Nat) : Option Buffer := s.buffers[i]?.join

/-- The `n` bytes at a pointer, if there are so many. -/
def bytes (s : State) (p : Ptr) (n : Nat) : Option (List UInt8) :=
  (s.memory.read p.block).bind fun content =>
    if p.offset + n ≤ content.length then some ((content.drop p.offset).take n) else none

/-- The bytes that `data()` and `size` of a buffer give. -/
def data (s : State) (i : Nat) : Option (List UInt8) :=
  (s.buffer i).bind fun v => v.ptr.bind fun p => s.bytes p v.size.toNat

/-- A buffer becomes another one; what it owned is freed if nobody owns it any more. -/
def become (s : State) (i : Nat) (v : Option Buffer) : State :=
  let buffers := s.buffers.set i v
  { s with
    buffers
    memory := ((s.buffer i).bind Buffer.sPtr).elim s.memory (s.memory.release (owners buffers)) }

/-- `buffer::wrap` (`buffer.cc:29`). -/
def wrap (s : State) (i : Nat) (p : Option Ptr) (size : BitVec 32) : State :=
  s.become i (some { size, ptr := p })

/-- `buffer::clear` (`buffer.cc:51`). -/
def clear (s : State) (i : Nat) : State := s.become i (some {})

/-- `buffer::make_unwrapped` (`buffer.cc:37`). -/
def makeUnwrapped (s : State) (i : Nat) : Option State :=
  (s.buffer i).bind fun v =>
    if v.sPtr.isSome then some s
    else if v.ptr.isSome ∧ v.size ≠ 0 then
      (v.ptr.bind fun p => s.bytes p v.size.toNat).map fun bytes =>
        { s with memory := s.memory.allocate true bytes }.become i
          (some { v with ptr := some ⟨s.memory.fresh, 0⟩, sPtr := some s.memory.fresh })
    else some (s.clear i)

/-- `operator>>` (`buffer.cc:18`), which throws if the object is no `BIN`. -/
def convert (s : State) (i : Nat) (o : BinObject) : Option State :=
  if o.bin then (s.wrap i o.ptr o.size).makeUnwrapped i
  else some { s with raised := s.raised ++ [.typeError] }

/-- Executes an operation. -/
def step (s : State) : Op → Option State
  | .allocate bytes => some { s with memory := s.memory.allocate false bytes }
  | .write b bytes =>
    if s.memory.managed b = false ∧ (s.memory.read b).isSome then
      some { s with memory := s.memory.put b (some bytes) }
    else none
  | .free b =>
    if s.memory.managed b = false ∧ (s.memory.read b).isSome then
      some { s with memory := s.memory.put b none }
    else none
  | .construct ptr size => some { s with buffers := s.buffers ++ [some { size, ptr }] }
  | .copy j => (s.buffer j).map fun v => { s with buffers := s.buffers ++ [some v] }
  | .assign i j => (s.buffer i).bind fun _ => (s.buffer j).map fun v => s.become i (some v)
  | .destroy i => (s.buffer i).map fun _ => s.become i none
  | .wrap i p size => (s.buffer i).map fun _ => s.wrap i p size
  | .makeUnwrapped i => s.makeUnwrapped i
  | .clear i => (s.buffer i).map fun _ => s.clear i
  | .convert i o => (s.buffer i).bind fun _ => s.convert i o

/-- Executes operations. -/
def run (s : State) : List Op → Option State
  | [] => some s
  | op :: ops => (s.step op).bind fun s' => s'.run ops

end State

/-! ## Who owns what -/

theorem mem_owners {buffers : List (Option Buffer)} {b : Nat} :
    b ∈ owners buffers ↔ ∃ v, some v ∈ buffers ∧ v.sPtr = some b := by
  rw [owners, Multiset.mem_coe, List.mem_filterMap]
  constructor
  · rintro ⟨_ | v, hv, hb⟩
    · cases hb
    · exact ⟨v, hv, hb⟩
  · exact fun ⟨v, hv, hb⟩ => ⟨some v, hv, hb⟩

/-- When a buffer becomes another one, an owner is exchanged. -/
theorem owners_set {buffers : List (Option Buffer)} {i : Nat} {old : Option Buffer}
    (hi : buffers[i]? = some old) (v : Option Buffer) :
    ↑(old.bind Buffer.sPtr).toList + owners (buffers.set i v) =
      ↑(v.bind Buffer.sPtr).toList + owners buffers := by
  obtain ⟨hlt, hget⟩ := List.getElem?_eq_some_iff.1 hi
  have hsplit (w : Option Buffer) : owners (buffers.set i w) = ↑(w.bind Buffer.sPtr).toList +
      (owners (buffers.take i) + owners (buffers.drop (i + 1))) := by
    rw [List.set_eq_take_append_cons_drop, if_pos hlt, owners, List.filterMap_append,
      ← Multiset.coe_add, owners, owners]
    cases hw : w.bind Buffer.sPtr with
    | none => simp [hw]
    | some b =>
      simp only [List.filterMap_cons, hw]
      rw [← Multiset.cons_coe, Multiset.add_cons, ← Multiset.singleton_add]
      rfl
  have hself : buffers.set i old = buffers := by rw [← hget, List.set_getElem_self]
  calc ↑(old.bind Buffer.sPtr).toList + owners (buffers.set i v)
      = ↑(v.bind Buffer.sPtr).toList + owners (buffers.set i old) := by
        rw [hsplit v, hsplit old, add_left_comm]
    _ = ↑(v.bind Buffer.sPtr).toList + owners buffers := by rw [hself]

variable {s s' : State} {i j : Nat} {v : Buffer}

theorem State.buffer_eq : s.buffer i = some v ↔ s.buffers[i]? = some (some v) := by
  rw [State.buffer, Option.join_eq_some_iff]

/-- What a buffer that owns an array keeps to: it refers to the whole of it, and the array is there
and is not empty. -/
def Points (memory : Shared.Store (List UInt8)) (v : Buffer) : Prop :=
  ∀ b, v.sPtr = some b → v.ptr = some ⟨b, 0⟩ ∧ v.size ≠ 0 ∧
    ∃ content, memory.read b = some content ∧ content.length = v.size.toNat

/-- The invariant: the arrays are counted, and the buffers that own them refer to them. -/
structure Owned (s : State) : Prop where
  counted : Shared.Counted s.memory (owners s.buffers)
  points : ∀ v, some v ∈ s.buffers → Points s.memory v

theorem owned_init : Owned {} := ⟨Shared.counted_init, by simp⟩

/-! ## One operation -/

/-- What a buffer owns has it as an owner. -/
theorem sPtr_mem {b : Nat} (hv : s.buffer i = some v) (hb : v.sPtr = some b) :
    b ∈ owners s.buffers :=
  mem_owners.2 ⟨v, List.mem_of_getElem? (State.buffer_eq.1 hv), hb⟩

theorem State.bind_sPtr {old : Option Buffer} (hi : s.buffers[i]? = some old) :
    (s.buffer i).bind Buffer.sPtr = old.bind Buffer.sPtr := by
  rw [State.buffer, hi]
  rfl

@[simp] theorem State.buffers_become {v : Option Buffer} :
    (s.become i v).buffers = s.buffers.set i v := rfl

/-- What is owned afterwards is as it was. -/
theorem State.read_become {v : Option Buffer} {b : Nat} (hb : b ∈ owners (s.buffers.set i v)) :
    (s.become i v).memory.read b = s.memory.read b := by
  rw [State.become]
  cases (s.buffer i).bind Buffer.sPtr with
  | none => rfl
  | some b' => exact Shared.Store.read_release hb

/-- A buffer becomes another one that has already been counted. -/
theorem Owned.become {old v : Option Buffer} (hi : s.buffers[i]? = some old)
    (hc : Shared.Counted s.memory (↑(v.bind Buffer.sPtr).toList + owners s.buffers))
    (hp : ∀ w, some w ∈ v :: s.buffers → Points s.memory w) : Owned (s.become i v) := by
  rw [← owners_set hi v, ← State.bind_sPtr hi] at hc
  refine ⟨?_, fun w hw b hb => ?_⟩
  · rw [State.become]
    cases hold : (s.buffer i).bind Buffer.sPtr with
    | none =>
      rw [hold] at hc
      simpa using hc
    | some b =>
      rw [hold] at hc
      exact hc.release
  · have hmem : some w ∈ v :: s.buffers :=
      (List.mem_or_eq_of_mem_set hw).elim (List.mem_cons_of_mem _) fun he => he ▸ List.mem_cons_self
    rw [State.read_become (mem_owners.2 ⟨w, hw, hb⟩)]
    exact hp w hmem b hb

/-- A buffer lets go of what it owns, and refers to something else or is gone. -/
theorem Owned.drop (h : Owned s) (hv : s.buffer i = some v) {w : Option Buffer}
    (hw : w.bind Buffer.sPtr = none) : Owned (s.become i w) := by
  refine Owned.become (State.buffer_eq.1 hv) ?_ fun u hu b hb => ?_
  · rw [hw]
    simpa using h.counted
  · rcases List.mem_cons.1 hu with rfl | hu
    · rw [Option.bind_some, hb] at hw
      cases hw
    · exact h.points u hu b hb

/-- A buffer becomes a copy of another one. -/
theorem Owned.assign (h : Owned s) {u : Buffer} (hu : s.buffer i = some u)
    (hv : s.buffer j = some v) : Owned (s.become i (some v)) := by
  refine Owned.become (State.buffer_eq.1 hu) ?_ fun w hw => ?_
  · cases hb : v.sPtr with
    | none => simpa [hb] using h.counted
    | some b =>
      rw [Option.bind_some, hb]
      exact h.counted.share (sPtr_mem hv hb)
  · rcases List.mem_cons.1 hw with he | hw
    · cases he
      exact h.points v (List.mem_of_getElem? (State.buffer_eq.1 hv))
    · exact h.points w hw

theorem State.bytes_length {p : Ptr} {n : Nat} {content : List UInt8}
    (h : s.bytes p n = some content) : content.length = n := by
  obtain ⟨block, -, h⟩ := Option.bind_eq_some_iff.1 h
  split at h
  · next hle =>
    cases h
    rw [List.length_take, List.length_drop]
    omega
  · cases h

/-- What `make_unwrapped` does, whichever branch it takes. -/
theorem State.makeUnwrapped_cases (hv : s.buffer i = some v) (h : s.makeUnwrapped i = some s') :
    (s' = s ∧ v.sPtr.isSome) ∨
    (∃ p bytes, v.sPtr = none ∧ v.ptr = some p ∧ v.size ≠ 0 ∧
      s.bytes p v.size.toNat = some bytes ∧
      s' = { s with memory := s.memory.allocate true bytes }.become i
        (some { v with ptr := some ⟨s.memory.fresh, 0⟩, sPtr := some s.memory.fresh })) ∨
    (s' = s.clear i ∧ v.sPtr = none) := by
  rw [makeUnwrapped, hv, Option.bind_some] at h
  split at h
  · next hs => exact .inl ⟨(Option.some.inj h).symm, hs⟩
  · next hs =>
    have hs : v.sPtr = none := by simpa using hs
    split at h
    · next hp =>
      obtain ⟨bytes, hbytes, rfl⟩ := Option.map_eq_some_iff.1 h
      obtain ⟨p, hp', hbytes⟩ := Option.bind_eq_some_iff.1 hbytes
      exact .inr (.inl ⟨p, bytes, hs, hp', hp.2, hbytes, rfl⟩)
    · exact .inr (.inr ⟨(Option.some.inj h).symm, hs⟩)

theorem Points.allocate {m : Bool} {bytes : List UInt8} (h : Points s.memory v) :
    Points (s.memory.allocate m bytes) v := by
  intro b hb
  obtain ⟨hptr, hsize, content, hread, hlen⟩ := h b hb
  refine ⟨hptr, hsize, content, ?_, hlen⟩
  rw [Shared.Store.read_allocate (Nat.ne_of_lt (Shared.Store.read_lt hread)), hread]

theorem Owned.makeUnwrapped (h : Owned s) (hs : s.makeUnwrapped i = some s') : Owned s' := by
  obtain ⟨v, hv, -⟩ := Option.bind_eq_some_iff.1 hs
  rcases State.makeUnwrapped_cases hv hs with
    ⟨rfl, -⟩ | ⟨p, bytes, hb, -, hsize, hbytes, rfl⟩ | ⟨rfl, -⟩
  · exact h
  · refine Owned.become (s := { s with memory := s.memory.allocate true bytes })
      (State.buffer_eq.1 hv) (h.counted.allocate bytes) fun w hw => ?_
    rcases List.mem_cons.1 hw with he | hw
    · cases he
      rintro b hb
      cases hb
      exact ⟨rfl, hsize, bytes, Shared.Store.read_allocate_fresh, State.bytes_length hbytes⟩
    · exact (h.points w hw).allocate
  · exact h.drop hv rfl

theorem Owned.put (h : Owned s) {b : Nat} (hb : s.memory.managed b = false)
    (content : Option (List UInt8)) : Owned { s with memory := s.memory.put b content } := by
  refine ⟨h.counted.put hb content, fun v hv b' hb' => ?_⟩
  have hne : b' ≠ b := by
    rintro rfl
    rw [h.counted.managed b' (mem_owners.2 ⟨v, hv, hb'⟩)] at hb
    cases hb
  rw [Shared.Store.read_put_of_ne hne]
  exact h.points v hv b' hb'

/-- A new buffer owns nothing, or what another one owns. -/
theorem Owned.append (h : Owned s) (hp : Points s.memory v)
    (hb : ∀ b, v.sPtr = some b → b ∈ owners s.buffers) :
    Owned { s with buffers := s.buffers ++ [some v] } := by
  refine ⟨?_, fun w hw => ?_⟩
  · have howners : owners (s.buffers ++ [some v]) = ↑v.sPtr.toList + owners s.buffers := by
      rw [owners, List.filterMap_append, ← Multiset.coe_add, add_comm, owners]
      cases hb : v.sPtr <;> simp [hb]
    rw [howners]
    cases hs : v.sPtr with
    | none => simpa using h.counted
    | some b => exact h.counted.share (hb b hs)
  · rcases List.mem_append.1 hw with hw | hw
    · exact h.points w hw
    · cases List.mem_singleton.1 hw
      exact hp

/-- **The invariant is kept.** -/
theorem Owned.step {op : Op} (h : Owned s) (hs : s.step op = some s') : Owned s' := by
  cases op with
  | allocate bytes =>
    cases hs
    exact ⟨h.counted.allocate_other bytes, fun v hv => (h.points v hv).allocate⟩
  | write b bytes =>
    obtain ⟨hb, rfl⟩ := Option.ite_none_right_eq_some.1 hs |>.imp_right Option.some.inj
    exact h.put hb.1 _
  | free b =>
    obtain ⟨hb, rfl⟩ := Option.ite_none_right_eq_some.1 hs |>.imp_right Option.some.inj
    exact h.put hb.1 _
  | construct ptr size =>
    cases hs
    exact h.append (fun _ hb => by cases hb) fun _ hb => by cases hb
  | copy j =>
    obtain ⟨v, hv, rfl⟩ := Option.map_eq_some_iff.1 hs
    exact h.append (h.points v (List.mem_of_getElem? (State.buffer_eq.1 hv)))
      fun b hb => sPtr_mem hv hb
  | assign i j =>
    obtain ⟨u, hu, hs⟩ := Option.bind_eq_some_iff.1 hs
    obtain ⟨v, hv, rfl⟩ := Option.map_eq_some_iff.1 hs
    exact h.assign hu hv
  | destroy i | wrap i p size | clear i =>
    obtain ⟨v, hv, rfl⟩ := Option.map_eq_some_iff.1 hs
    exact h.drop hv rfl
  | makeUnwrapped i => exact h.makeUnwrapped hs
  | convert i o =>
    obtain ⟨v, hv, hs⟩ := Option.bind_eq_some_iff.1 hs
    rw [State.convert] at hs
    split at hs
    · exact (h.drop hv rfl).makeUnwrapped hs
    · cases hs
      exact ⟨h.counted, h.points⟩

/-! ## A buffer that owns its bytes -/

/-- A buffer and what it owns, which an operation leaves alone. -/
def Kept (i b : Nat) (s s' : State) : Prop :=
  s'.buffer i = s.buffer i ∧ s'.memory.read b = s.memory.read b

theorem State.buffer_become {v : Option Buffer} (hne : i ≠ j) :
    (s.become j v).buffer i = s.buffer i := by
  rw [buffer, buffer, buffers_become, List.getElem?_set_ne (Ne.symm hne)]

variable {b : Nat} {op : Op}

theorem Kept.become {w : Option Buffer} (hv : s.buffer i = some v) (hb : v.sPtr = some b)
    (hne : i ≠ j) : Kept i b s (s.become j w) := by
  have hi := State.buffer_become (s := s) (v := w) hne
  exact ⟨hi, State.read_become (sPtr_mem (hi.trans hv) hb)⟩

theorem Kept.append {w : Buffer} (hv : s.buffer i = some v) :
    Kept i b s { s with buffers := s.buffers ++ [some w] } := by
  refine ⟨?_, rfl⟩
  have hlt : i < s.buffers.length := (List.getElem?_eq_some_iff.1 (State.buffer_eq.1 hv)).1
  rw [State.buffer, State.buffer, List.getElem?_append_left hlt]

theorem Kept.allocate {m : Bool} {bytes : List UInt8} (h : Owned s) (hv : s.buffer i = some v)
    (hb : v.sPtr = some b) : Kept i b s { s with memory := s.memory.allocate m bytes } := by
  obtain ⟨content, hread⟩ := h.counted.read (sPtr_mem hv hb)
  exact ⟨rfl, Shared.Store.read_allocate (Nat.ne_of_lt (Shared.Store.read_lt hread))⟩

theorem Kept.put {b' : Nat} {content : Option (List UInt8)} (h : Owned s)
    (hv : s.buffer i = some v) (hb : v.sPtr = some b) (hb' : s.memory.managed b' = false) :
    Kept i b s { s with memory := s.memory.put b' content } := by
  refine ⟨rfl, Shared.Store.read_put_of_ne ?_⟩
  rintro rfl
  rw [h.counted.managed b (sPtr_mem hv hb)] at hb'
  cases hb'

theorem Kept.trans {s₁ s₂ s₃ : State} (h : Kept i b s₁ s₂) (h' : Kept i b s₂ s₃) :
    Kept i b s₁ s₃ :=
  ⟨h'.1.trans h.1, h'.2.trans h.2⟩

/-- `make_unwrapped` copies nothing if the buffer already owns its bytes. -/
theorem Kept.makeUnwrapped (h : Owned s) (hv : s.buffer i = some v) (hb : v.sPtr = some b)
    (hs : s.makeUnwrapped j = some s') : Kept i b s s' := by
  obtain ⟨w, hw, -⟩ := Option.bind_eq_some_iff.1 hs
  have hne (hnone : w.sPtr = none) : i ≠ j := by
    rintro rfl
    cases hv.symm.trans hw
    rw [hb] at hnone
    cases hnone
  rcases State.makeUnwrapped_cases hw hs with
    ⟨rfl, -⟩ | ⟨p, bytes, hnone, -, -, -, rfl⟩ | ⟨rfl, hnone⟩
  · exact ⟨rfl, rfl⟩
  · exact (Kept.allocate h hv hb).trans (Kept.become (s := { s with memory := _ }) hv hb (hne hnone))
  · exact Kept.become hv hb (hne hnone)

/-- **An operation on something else leaves a buffer that owns its bytes alone.** -/
theorem Kept.step (h : Owned s) (hv : s.buffer i = some v) (hb : v.sPtr = some b)
    (hop : op.target ≠ some i) (hs : s.step op = some s') : Kept i b s s' := by
  have hne {j : Nat} (htarget : op.target = some j) : i ≠ j := fun he =>
    hop (htarget.trans (congrArg some he.symm))
  cases op with
  | allocate bytes =>
    cases hs
    exact .allocate h hv hb
  | write b' bytes | free b' =>
    obtain ⟨hb', rfl⟩ := Option.ite_none_right_eq_some.1 hs |>.imp_right Option.some.inj
    exact .put h hv hb hb'.1
  | construct ptr size =>
    cases hs
    exact .append hv
  | copy j =>
    obtain ⟨w, -, rfl⟩ := Option.map_eq_some_iff.1 hs
    exact .append hv
  | assign j k =>
    obtain ⟨u, -, hs⟩ := Option.bind_eq_some_iff.1 hs
    obtain ⟨w, -, rfl⟩ := Option.map_eq_some_iff.1 hs
    exact .become hv hb (hne rfl)
  | destroy j | wrap j p size | clear j =>
    obtain ⟨w, -, rfl⟩ := Option.map_eq_some_iff.1 hs
    exact .become hv hb (hne rfl)
  | makeUnwrapped j => exact .makeUnwrapped h hv hb hs
  | convert j o =>
    obtain ⟨w, hw, hs⟩ := Option.bind_eq_some_iff.1 hs
    rw [State.convert] at hs
    split at hs
    · have hk : Kept i b s (s.wrap j o.ptr o.size) := .become hv hb (hne rfl)
      exact hk.trans (.makeUnwrapped (h.drop hw rfl) (hk.1.trans hv) hb hs)
    · cases hs
      exact ⟨rfl, rfl⟩

/-! ## Runs -/

variable {ops : List Op}

theorem Owned.run (h : Owned s) (hs : s.run ops = some s') : Owned s' := by
  induction ops generalizing s with
  | nil =>
    cases hs
    exact h
  | cons op ops ih =>
    obtain ⟨s₁, hs₁, hs⟩ := Option.bind_eq_some_iff.1 hs
    exact ih (h.step hs₁) hs

theorem Kept.run (h : Owned s) (hv : s.buffer i = some v) (hb : v.sPtr = some b)
    (hops : ∀ op ∈ ops, op.target ≠ some i) (hs : s.run ops = some s') : Kept i b s s' := by
  induction ops generalizing s with
  | nil =>
    cases hs
    exact ⟨rfl, rfl⟩
  | cons op ops ih =>
    obtain ⟨s₁, hs₁, hs⟩ := Option.bind_eq_some_iff.1 hs
    have hk : Kept i b s s₁ := .step h hv hb (hops op List.mem_cons_self) hs₁
    exact hk.trans (ih (h.step hs₁) (hk.1.trans hv)
      (fun op' hop' => hops op' (List.mem_cons_of_mem _ hop')) hs)

/-- `data()` of a buffer that owns its bytes is what the array holds. -/
theorem Owned.data (h : Owned s) (hv : s.buffer i = some v) (hb : v.sPtr = some b) :
    ∃ content, s.memory.read b = some content ∧ s.data i = some content := by
  obtain ⟨hptr, -, content, hread, hlen⟩ :=
    h.points v (List.mem_of_getElem? (State.buffer_eq.1 hv)) b hb
  refine ⟨content, hread, ?_⟩
  simp [State.data, hv, hptr, State.bytes, hread, ← hlen]

/-- **A buffer that owns its bytes keeps them.** Whatever is done later to other buffers, those that
share the array included, and to the memory that the bytes were copied from, it refers to the same
bytes until it is itself made to refer to others. -/
theorem unwrapped_stable {ops ops' : List Op} {s s' : State} {i : Nat} {v : Buffer}
    (hs : State.run {} ops = some s) (hv : s.buffer i = some v) (hunwrapped : v.sPtr.isSome)
    (hops : ∀ op ∈ ops', op.target ≠ some i) (hs' : s.run ops' = some s') :
    s'.buffer i = some v ∧ ∃ content, s.data i = some content ∧ s'.data i = some content := by
  obtain ⟨b, hb⟩ := Option.isSome_iff_exists.1 hunwrapped
  have h : Owned s := owned_init.run hs
  have hk : Kept i b s s' := .run h hv hb hops hs'
  obtain ⟨content, hread, hdata⟩ := h.data hv hb
  obtain ⟨content', hread', hdata'⟩ := (h.run hs').data (hk.1.trans hv) hb
  rw [hk.2, hread] at hread'
  cases hread'
  exact ⟨hk.1.trans hv, content, hdata, hdata'⟩

/-- Bytes of another block are converted and the result is copied; then the block is overwritten and
freed and the copy is destroyed. -/
theorem unwrapped_stable_afterFree :
    let s := (State.run {} [.allocate [1, 2, 3], .construct none 0,
      .convert 0 ⟨true, some ⟨0, 1⟩, 2⟩]).getD {}
    let s' := (s.run [.write 0 [9, 9, 9], .copy 0, .free 0, .destroy 1]).getD {}
    s'.buffer 0 = some ⟨2, some ⟨1, 0⟩, some 1⟩ ∧
      ∃ content, s.data 0 = some content ∧ s'.data 0 = some content :=
  unwrapped_stable
    (Option.getD_of_ne_none (by decide +kernel) _).symm
    (by decide +kernel) (by decide +kernel) (by decide +kernel)
    (Option.getD_of_ne_none (by decide +kernel) _).symm

/-! ## Converting an object -/

/-- Buffer `i` is the only one that owns block `b`. -/
def Sole (s : State) (i b : Nat) : Prop := ∀ j, (s.buffer j).bind Buffer.sPtr = some b ↔ j = i

theorem mem_owners_iff : b ∈ owners s.buffers ↔ ∃ j, (s.buffer j).bind Buffer.sPtr = some b := by
  rw [mem_owners]
  constructor
  · rintro ⟨v, hv, hb⟩
    obtain ⟨j, hj⟩ := List.mem_iff_getElem?.1 hv
    exact ⟨j, (State.bind_sPtr hj).trans hb⟩
  · rintro ⟨j, hj⟩
    obtain ⟨v, hv, hb⟩ := Option.bind_eq_some_iff.1 hj
    exact ⟨v, List.mem_of_getElem? (State.buffer_eq.1 hv), hb⟩

/-- A block is only owned by a buffer if nobody owns it once the buffer has let go of it. -/
theorem sole_iff {w : Option Buffer} (hv : s.buffer i = some v) (hw : w.bind Buffer.sPtr = none) :
    Sole s i b ↔ v.sPtr = some b ∧ b ∉ owners (s.become i w).buffers := by
  have hself : ((s.become i w).buffer i).bind Buffer.sPtr = none := by
    rw [State.bind_sPtr (List.getElem?_set_self (List.getElem?_eq_some_iff.1
      (State.buffer_eq.1 hv)).1), hw]
  rw [mem_owners_iff]
  constructor
  · intro hsole
    refine ⟨by simpa [hv] using (hsole i).2 rfl, ?_⟩
    rintro ⟨j, hj⟩
    rcases eq_or_ne j i with rfl | hne
    · rw [hself] at hj
      cases hj
    · rw [State.buffer_become hne] at hj
      exact hne ((hsole j).1 hj)
  · rintro ⟨hb, hnone⟩ j
    constructor
    · intro hj
      by_contra hne
      exact hnone ⟨j, by rw [State.buffer_become hne, hj]⟩
    · rintro rfl
      rw [hv, Option.bind_some, hb]

/-- What only the buffer owned is freed when it lets go of it. -/
theorem State.read_drop_of_sole {w : Option Buffer} (hv : s.buffer i = some v)
    (hw : w.bind Buffer.sPtr = none) (hsole : Sole s i b) :
    (s.become i w).memory.read b = none := by
  obtain ⟨hb, hnone⟩ := (sole_iff hv hw).1 hsole
  rw [become, hv, Option.bind_some, hb]
  exact Shared.Store.read_release_of_notMem hnone

/-- Anything else is still there. -/
theorem State.read_drop {w : Option Buffer} (hv : s.buffer i = some v)
    (hw : w.bind Buffer.sPtr = none) (hsole : ¬ Sole s i b) :
    (s.become i w).memory.read b = s.memory.read b := by
  rw [sole_iff hv hw, not_and_not_right] at hsole
  by_cases hb : v.sPtr = some b
  · exact read_become (hsole hb)
  · rw [become, hv, Option.bind_some]
    cases hb' : v.sPtr with
    | none => rfl
    | some b' => exact Shared.Store.read_release_of_ne fun he => hb (he ▸ hb')

theorem State.buffer_become_self {u : Option Buffer} (hv : s.buffer i = some v) :
    (s.become i u).buffer i = u := by
  rw [buffer, buffers_become,
    List.getElem?_set_self (List.getElem?_eq_some_iff.1 (buffer_eq.1 hv)).1, Option.join_some]

@[simp] theorem State.fresh_become {u : Option Buffer} :
    (s.become i u).memory.fresh = s.memory.fresh := by
  rw [become]
  cases (s.buffer i).bind Buffer.sPtr with
  | none => rfl
  | some b => exact Shared.Store.fresh_release

/-- `make_unwrapped` of a buffer that refers to bytes is defined if these can be read. -/
theorem State.makeUnwrapped_eq {size : BitVec 32} {p : Ptr}
    (hv : s.buffer i = some ⟨size, some p, none⟩) (hsize : size ≠ 0) :
    s.makeUnwrapped i = (s.bytes p size.toNat).map fun bytes =>
      { s with memory := s.memory.allocate true bytes }.become i
        (some ⟨size, some ⟨s.memory.fresh, 0⟩, some s.memory.fresh⟩) := by
  rw [makeUnwrapped, hv, Option.bind_some, if_neg (by simp), if_pos ⟨rfl, hsize⟩, Option.bind_some]

/-- The buffer then owns a copy of them. -/
theorem Owned.copied {size : BitVec 32} {p : Ptr} (h : Owned s)
    (hv : s.buffer i = some ⟨size, some p, none⟩) (hsize : size ≠ 0)
    (hs : s.makeUnwrapped i = some s') :
    s'.data i = s.bytes p size.toNat ∧ Sole s' i s.memory.fresh := by
  have h' : Owned s' := h.makeUnwrapped hs
  rw [State.makeUnwrapped_eq hv hsize] at hs
  obtain ⟨bytes, hbytes, rfl⟩ := Option.map_eq_some_iff.1 hs
  have hv' := State.buffer_become_self (s := { s with memory := s.memory.allocate true bytes })
    (u := some ⟨size, some ⟨s.memory.fresh, 0⟩, some s.memory.fresh⟩) hv
  refine ⟨?_, fun j => ⟨fun hj => ?_, ?_⟩⟩
  · obtain ⟨content, hread, hdata⟩ := h'.data hv' rfl
    rw [State.read_become (sPtr_mem hv' rfl), Shared.Store.read_allocate_fresh] at hread
    rw [hdata, hbytes, hread]
  · by_contra hne
    rw [State.buffer_become hne] at hj
    exact lt_irrefl _ (Shared.Store.managed_lt (h.counted.managed _ (mem_owners_iff.2 ⟨j, hj⟩)))
  · rintro rfl
    rw [hv']
    rfl

/-- The bytes at a pointer, after a buffer has let go of what it owned. -/
theorem State.bytes_drop {w : Option Buffer} {p : Ptr} {n : Nat} (hv : s.buffer i = some v)
    (hw : w.bind Buffer.sPtr = none) (hsole : ¬ Sole s i p.block) :
    (s.become i w).bytes p n = s.bytes p n := by
  rw [bytes, bytes, read_drop hv hw hsole]

theorem State.bytes_drop_isSome {w : Option Buffer} {p : Ptr} {n : Nat} (hv : s.buffer i = some v)
    (hw : w.bind Buffer.sPtr = none) :
    ((s.become i w).bytes p n).isSome ↔ (s.bytes p n).isSome ∧ ¬ Sole s i p.block := by
  by_cases hsole : Sole s i p.block
  · rw [bytes, read_drop_of_sole hv hw hsole, Option.bind_none]
    exact iff_of_false (by simp) fun hnot => hnot.2 hsole
  · rw [bytes_drop hv hw hsole]
    exact (and_iff_left hsole).symm

/-- Whether an object can be converted. -/
theorem State.convert_isSome {o : BinObject} (hv : s.buffer i = some v) :
    (s.step (.convert i o)).isSome ↔ (o.bin = true → ∀ p, o.ptr = some p → o.size ≠ 0 →
      (s.bytes p o.size.toNat).isSome ∧ ¬ Sole s i p.block) := by
  have hstep : s.step (.convert i o) = s.convert i o := by rw [step, hv, Option.bind_some]
  have hwrap : (s.wrap i o.ptr o.size).buffer i = some ⟨o.size, o.ptr, none⟩ :=
    buffer_become_self hv
  rw [hstep, convert]
  split
  · next hbin =>
    rw [imp_iff_right hbin]
    by_cases hcopied : o.ptr.isSome ∧ o.size ≠ 0
    · obtain ⟨p, hp⟩ := Option.isSome_iff_exists.1 hcopied.1
      rw [hp] at hwrap ⊢
      rw [makeUnwrapped_eq hwrap hcopied.2, Option.isSome_map, wrap, bytes_drop_isSome hv rfl]
      constructor
      · rintro hboth _ ⟨⟩ -
        exact hboth
      · exact fun hall => hall p rfl hcopied.2
    · have hclear : ((s.wrap i o.ptr o.size).makeUnwrapped i).isSome := by
        rw [makeUnwrapped, hwrap, Option.bind_some, if_neg (by simp), if_neg hcopied]
        rfl
      refine iff_of_true hclear fun p hp hsize => absurd ⟨?_, hsize⟩ hcopied
      rw [hp]
      rfl
  · next hbin => exact iff_of_true rfl fun h => absurd h hbin

/-- A conversion throws exactly if the object is no `BIN`. -/
theorem State.convert_raised {o : BinObject} (hs : s.convert i o = some s') :
    s'.raised = s.raised ++ if o.bin then [] else [.typeError] := by
  rw [convert] at hs
  split at hs
  · next hbin =>
    obtain ⟨v, hv, -⟩ := Option.bind_eq_some_iff.1 hs
    rcases makeUnwrapped_cases hv hs with ⟨rfl, -⟩ | ⟨_, _, -, -, -, -, rfl⟩ | ⟨rfl, -⟩ <;>
      simp [hbin, wrap, clear, become]
  · next hbin =>
    cases hs
    simp [hbin]

/-- **What a conversion needs.** It is defined if the bytes that the object refers to can be read and
are not in the array that only the buffer itself owns; `wrap` has freed that array before the bytes
are copied. The buffer then owns a copy of the bytes, which no other buffer owns. -/
theorem convert_defined_iff {ops : List Op} {s : State} {i : Nat} {v : Buffer} (o : BinObject)
    (hs : State.run {} ops = some s) (hv : s.buffer i = some v) :
    ((s.step (.convert i o)).isSome ↔ (o.bin = true → ∀ p, o.ptr = some p → o.size ≠ 0 →
      (s.bytes p o.size.toNat).isSome ∧ ¬ Sole s i p.block)) ∧
    ∀ s' p, s.step (.convert i o) = some s' → o.bin = true → o.ptr = some p → o.size ≠ 0 →
      s'.data i = s.bytes p o.size.toNat ∧ Sole s' i s.memory.fresh := by
  refine ⟨State.convert_isSome hv, fun s' p hs' hbin hp hsize => ?_⟩
  have hwrap : (s.wrap i o.ptr o.size).buffer i = some ⟨o.size, some p, none⟩ := by
    rw [← hp]
    exact State.buffer_become_self hv
  have hsole : ¬ Sole s i p.block := ((State.convert_isSome hv).1 (hs' ▸ rfl) hbin p hp hsize).2
  rw [State.step, hv, Option.bind_some, State.convert, if_pos hbin] at hs'
  obtain ⟨hdata, hsole'⟩ := ((owned_init.run hs).drop hv rfl).copied hwrap hsize hs'
  rw [State.fresh_become] at hsole'
  exact ⟨hdata.trans (State.bytes_drop hv rfl hsole), hsole'⟩

/-- Bytes are converted, and the object of a buffer that shares them is converted to the buffer. -/
theorem convert_defined_iff_shared :
    let s := (State.run {} [.allocate [1, 2, 3], .construct none 0,
      .convert 0 ⟨true, some ⟨0, 1⟩, 2⟩, .copy 0]).getD {}
    let o : BinObject := ⟨true, some ⟨1, 0⟩, 2⟩
    ((s.step (.convert 0 o)).isSome ↔ (o.bin = true → ∀ p, o.ptr = some p → o.size ≠ 0 →
      (s.bytes p o.size.toNat).isSome ∧ ¬ Sole s 0 p.block)) ∧
    ∀ s' p, s.step (.convert 0 o) = some s' → o.bin = true → o.ptr = some p → o.size ≠ 0 →
      s'.data 0 = s.bytes p o.size.toNat ∧ Sole s' 0 s.memory.fresh :=
  convert_defined_iff ⟨true, some ⟨1, 0⟩, 2⟩
    (Option.getD_of_ne_none (by decide +kernel) _).symm
    (by decide +kernel : _ = some (⟨2, some ⟨1, 0⟩, some 1⟩ : Buffer))

/-- The object of a buffer that owns its bytes can only be converted to the buffer itself if another
buffer shares them. -/
theorem convert_toObject_iff (h : Owned s) (hv : s.buffer i = some v) (hb : v.sPtr = some b) :
    (s.step (.convert i v.toObject)).isSome ↔ ¬ Sole s i b := by
  obtain ⟨hptr, hsize, content, hread, hlen⟩ :=
    h.points v (List.mem_of_getElem? (State.buffer_eq.1 hv)) b hb
  have hbytes : (s.bytes ⟨b, 0⟩ v.size.toNat).isSome := by
    simp [State.bytes, hread, ← hlen]
  rw [State.convert_isSome hv]
  constructor
  · exact fun hall => (hall rfl ⟨b, 0⟩ hptr hsize).2
  · rintro hsole - p hp -
    cases hp.symm.trans hptr
    exact ⟨hbytes, hsole⟩

end Buffer

end MsgpackRpc
