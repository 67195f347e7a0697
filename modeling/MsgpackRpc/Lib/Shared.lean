import Mathlib.Data.Multiset.AddSub

/-!
# Blocks of memory with shared owners

Memory is made of blocks, which are numbered and whose numbers are never used again. A managed block
has owners: it is allocated with one, others can be added, and it is freed when the last of them lets
it go. Who the owners are is left open; all that counts is the multiset of the blocks that they own.
Any other block is freed and written to by whoever allocated it.

`Counted` says that the managed blocks that are there are those that have an owner, so none is freed
too early and none is left behind. Each operation on the store has a lemma that it keeps this, and one
that says what can still be read.
-/

namespace Shared

/-- A block: what it holds, or nothing once it has been freed. -/
structure Block (α : Type) where
  managed : Bool
  content : Option α
  deriving DecidableEq, Repr

/-- The blocks that have been allocated. -/
structure Store (α : Type) where
  blocks : List (Block α) := []
  deriving DecidableEq, Repr

namespace Store
variable {α : Type} (s : Store α)

/-- What a block holds. -/
def read (b : Nat) : Option α := s.blocks[b]?.bind Block.content

/-- Whether a block is one that has owners. -/
def managed (b : Nat) : Bool := s.blocks[b]?.elim false Block.managed

/-- The block that is allocated next. -/
def fresh : Nat := s.blocks.length

/-- A block is allocated. -/
def allocate (managed : Bool) (a : α) : Store α := ⟨s.blocks ++ [⟨managed, some a⟩]⟩

/-- What a block holds is replaced. -/
def put (b : Nat) (content : Option α) : Store α :=
  ⟨s.blocks.modify b fun block => { block with content }⟩

/-- An owner lets a block go that `owners` still own, or that is freed if they do not. -/
def release (owners : Multiset Nat) (b : Nat) : Store α :=
  if b ∈ owners then s else s.put b none

/-! ## Reading -/

variable {s} {b b' : Nat} {managed' : Bool} {a : α} {content : Option α} {owners : Multiset Nat}

theorem read_lt (h : s.read b = some a) : b < s.fresh := by
  obtain ⟨block, hb, -⟩ := Option.bind_eq_some_iff.1 h
  exact (List.getElem?_eq_some_iff.1 hb).1

theorem managed_lt (h : s.managed b = true) : b < s.fresh := by
  rw [managed] at h
  cases hb : s.blocks[b]? with
  | none =>
    rw [hb] at h
    cases h
  | some block => exact (List.getElem?_eq_some_iff.1 hb).1

@[simp] theorem read_allocate_fresh : (s.allocate managed' a).read s.fresh = some a := by
  simp [read, allocate, fresh]

@[simp] theorem managed_allocate_fresh : (s.allocate managed' a).managed s.fresh = managed' := by
  simp [managed, allocate, fresh]

/-- The other blocks are still there. -/
theorem read_allocate (hne : b ≠ s.fresh) : (s.allocate managed' a).read b = s.read b := by
  rw [read, read, allocate]
  rcases Nat.lt_or_ge b s.fresh with hlt | hge
  · rw [List.getElem?_append_left hlt]
  · have hgt : s.fresh + 1 ≤ b := Nat.lt_of_le_of_ne hge (Ne.symm hne)
    rw [List.getElem?_eq_none hge, List.getElem?_eq_none (by simpa [fresh] using hgt)]

theorem managed_allocate (hne : b ≠ s.fresh) :
    (s.allocate managed' a).managed b = s.managed b := by
  rw [managed, managed, allocate]
  rcases Nat.lt_or_ge b s.fresh with hlt | hge
  · rw [List.getElem?_append_left hlt]
  · have hgt : s.fresh + 1 ≤ b := Nat.lt_of_le_of_ne hge (Ne.symm hne)
    rw [List.getElem?_eq_none hge, List.getElem?_eq_none (by simpa [fresh] using hgt)]

theorem read_put_of_ne (hne : b ≠ b') : (s.put b' content).read b = s.read b := by
  rw [read, read, put, List.getElem?_modify_ne _ _ (Ne.symm hne)]

theorem read_put_none : (s.put b none).read b = none := by
  rw [read, put, List.getElem?_modify_eq]
  cases s.blocks[b]? <;> rfl

@[simp] theorem managed_put : (s.put b' content).managed b = s.managed b := by
  rw [managed, managed, put]
  rcases eq_or_ne b b' with rfl | hne
  · rw [List.getElem?_modify_eq]
    cases s.blocks[b]? <;> rfl
  · rw [List.getElem?_modify_ne _ _ (Ne.symm hne)]

@[simp] theorem fresh_put : (s.put b content).fresh = s.fresh := by
  simp [put, fresh]

@[simp] theorem fresh_release : (s.release owners b).fresh = s.fresh := by
  rw [release]
  split
  · rfl
  · exact fresh_put

@[simp] theorem managed_release : (s.release owners b').managed b = s.managed b := by
  rw [release]
  split
  · rfl
  · exact managed_put

/-- What has an owner left is not freed. -/
theorem read_release (hb : b ∈ owners) : (s.release owners b').read b = s.read b := by
  rw [release]
  split
  · rfl
  · next hb' => exact read_put_of_ne fun he => hb' (he ▸ hb)

theorem read_release_of_notMem (hb : b ∉ owners) : (s.release owners b).read b = none := by
  rw [release, if_neg hb, read_put_none]

theorem read_release_of_ne (hne : b ≠ b') : (s.release owners b').read b = s.read b := by
  rw [release]
  split
  · rfl
  · exact read_put_of_ne hne

end Store

/-! ## Owners -/

variable {α : Type}

/-- The managed blocks that have not been freed are those that have an owner. -/
structure Counted (s : Store α) (owners : Multiset Nat) : Prop where
  managed : ∀ b ∈ owners, s.managed b = true
  live : ∀ b, s.managed b = true → ((s.read b).isSome ↔ b ∈ owners)

variable {s : Store α} {owners : Multiset Nat} {b : Nat}

theorem counted_init : Counted ({} : Store α) 0 :=
  ⟨fun _ hb => absurd hb (Multiset.notMem_zero _), fun _ hb => by cases hb⟩

/-- A block with an owner is allocated. -/
theorem Counted.allocate (h : Counted s owners) (a : α) :
    Counted (s.allocate true a) (s.fresh ::ₘ owners) := by
  refine ⟨fun b hb => ?_, fun b hb => ?_⟩
  · rcases eq_or_ne b s.fresh with rfl | hne
    · simp
    · rw [Store.managed_allocate hne]
      exact h.managed b ((Multiset.mem_cons.1 hb).resolve_left hne)
  · rcases eq_or_ne b s.fresh with rfl | hne
    · simp
    · rw [Store.managed_allocate hne] at hb
      rw [Store.read_allocate hne, h.live b hb, Multiset.mem_cons]
      exact (or_iff_right hne).symm

/-- A block without owners is allocated. -/
theorem Counted.allocate_other (h : Counted s owners) (a : α) :
    Counted (s.allocate false a) owners := by
  have hne {b : Nat} (hb : b ∈ owners) : b ≠ s.fresh :=
    Nat.ne_of_lt (Store.managed_lt (h.managed b hb))
  refine ⟨fun b hb => ?_, fun b hb => ?_⟩
  · rw [Store.managed_allocate (hne hb)]
    exact h.managed b hb
  · rcases eq_or_ne b s.fresh with rfl | hne
    · simp at hb
    · rw [Store.managed_allocate hne] at hb
      rw [Store.read_allocate hne]
      exact h.live b hb

/-- A block gets another owner. -/
theorem Counted.share (h : Counted s owners) (hb : b ∈ owners) : Counted s (b ::ₘ owners) := by
  have hmem {b' : Nat} : b' ∈ b ::ₘ owners ↔ b' ∈ owners := by
    rw [Multiset.mem_cons]
    exact or_iff_right_of_imp fun he => he ▸ hb
  exact ⟨fun b' hb' => h.managed b' (hmem.1 hb'), fun b' hb' => (h.live b' hb').trans hmem.symm⟩

/-- An owner lets its block go. -/
theorem Counted.release (h : Counted s (b ::ₘ owners)) : Counted (s.release owners b) owners := by
  refine ⟨fun b' hb' => ?_, fun b' hb' => ?_⟩
  · rw [Store.managed_release]
    exact h.managed b' (Multiset.mem_cons_of_mem hb')
  · rw [Store.managed_release] at hb'
    rcases eq_or_ne b' b with rfl | hne
    · by_cases hmem : b' ∈ owners
      · rw [Store.read_release hmem, h.live b' hb']
        exact iff_of_true (Multiset.mem_cons_self _ _) hmem
      · rw [Store.read_release_of_notMem hmem]
        exact iff_of_false (by simp) hmem
    · rw [Store.read_release_of_ne hne, h.live b' hb', Multiset.mem_cons]
      exact or_iff_right hne

/-- A block that has no owners changes, or is freed. -/
theorem Counted.put (h : Counted s owners) (hb : s.managed b = false) (content : Option α) :
    Counted (s.put b content) owners := by
  refine ⟨fun b' hb' => ?_, fun b' hb' => ?_⟩
  · rw [Store.managed_put]
    exact h.managed b' hb'
  · rw [Store.managed_put] at hb'
    rw [Store.read_put_of_ne]
    · exact h.live b' hb'
    · rintro rfl
      rw [hb] at hb'
      cases hb'

/-- What has an owner can be read. -/
theorem Counted.read (h : Counted s owners) (hb : b ∈ owners) : ∃ a, s.read b = some a :=
  Option.isSome_iff_exists.1 ((h.live b (h.managed b hb)).2 hb)

end Shared
