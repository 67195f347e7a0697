import MsgpackRpc.Lib.Unpack

/-!
# Channels of encoded values

A reliable channel of tokens between a writer, which writes encodings of values, and a reader, which
unpacks what it reads. `Carries d u ts as part` says what the tokens `ts` that are still to be read
hold for a reader whose unpacker is `u`: the values `as`, then a part of a value that will not be
finished. It is kept by reads of any size and by rounds of the reader's loop, each of which gets the
next of the values, and it grows with what is written.
-/

namespace Unpack

variable {α β : Type} {d : Decoder β α} {u : Unpacker β} {ts : List β} {as : List α}
  {part : List β}

/-- The unpacker completes the values `as` when it is given the tokens `ts`, and then holds
`part`. -/
def Carries (d : Decoder β α) (u : Unpacker β) (ts : List β) (as : List α) (part : List β) : Prop :=
  values d u.parsed (u.received ++ ts) = (as, some part)

/-- An empty channel. -/
theorem carries_empty : Carries d .empty [] [] [] := rfl

/-- Some of the tokens are read. -/
theorem Carries.read {xs ys : List β} (h : Carries d u (xs ++ ys) as part) :
    Carries d (u.feed xs) ys as part := by
  rw [Carries, Unpacker.feed, List.append_assoc]
  exact h

/-- A value is written. -/
theorem Carries.write {bs : List β} {a : α} (h : Carries d u ts as []) (he : Encodes d bs a) :
    Carries d u (ts ++ bs) (as ++ [a]) [] := by
  rw [Carries, ← List.append_assoc, values_append_of_some d h, he.values_whole]

/-- The write of a value is cut off. -/
theorem Carries.cut {bs p : List β} {a : α} (h : Carries d u ts as []) (he : Encodes d bs a)
    (hp : p <+: bs) (hne : p ≠ bs) : Carries d u (ts ++ p) as p := by
  have hpart := he.values_part (p := []) hp hne
  rw [List.nil_append] at hpart
  rw [Carries, ← List.append_assoc, values_append_of_some d h, hpart, List.append_nil]

/-- What a round of the reader's loop finds. -/
theorem next_of_values {p xs : List β} (h : values d p (xs ++ ts) = (as, some part)) :
    match next d p xs with
    | .none u' => u'.received = [] ∧ Carries d u' ts as part
    | .value a u' => ∃ as', as = a :: as' ∧ Carries d u' ts as' part
    | .bad _ => False := by
  induction xs generalizing p with
  | nil => exact ⟨rfl, h⟩
  | cons b bs ih =>
    rw [List.cons_append, values] at h
    rw [next]
    cases hs : d.scan (p ++ [b]) with
    | more =>
      rw [hs] at h
      exact ih h
    | done a =>
      rw [hs] at h
      obtain ⟨h1, h2⟩ := Prod.mk.inj h
      exact ⟨_, h1.symm, Prod.ext rfl h2⟩
    | bad =>
      rw [hs] at h
      cases (Prod.mk.inj h).2

section
variable (h : Carries d u ts as part)
include h

/-- A round that finds no whole value has scanned all that was read. -/
theorem Carries.none {u' : Unpacker β} (hn : next d u.parsed u.received = .none u') :
    u'.received = [] ∧ Carries d u' ts as part := by
  have hnext := next_of_values h
  rw [hn] at hnext
  exact hnext

/-- A round that finds a value finds the next one. -/
theorem Carries.value {a : α} {u' : Unpacker β}
    (hn : next d u.parsed u.received = .value a u') :
    ∃ as', as = a :: as' ∧ Carries d u' ts as' part := by
  have hnext := next_of_values h
  rw [hn] at hnext
  exact hnext

/-- No round finds anything else. -/
theorem Carries.ne_bad (u' : Unpacker β) : next d u.parsed u.received ≠ .bad u' := by
  intro hn
  have hnext := next_of_values h
  rw [hn] at hnext
  exact hnext

end

/-- A round that gets a whole encoding and nothing else. -/
theorem next_of_encodes {bs : List β} {a : α} (he : Encodes d bs a) :
    next d [] bs = .value a .empty := by
  have h : Carries d ⟨[], bs⟩ [] [a] [] := by
    rw [Carries, List.append_nil]
    exact he.values_whole
  cases hn : next d [] bs with
  | none u =>
    obtain ⟨hrec, hvals⟩ := h.none hn
    rw [Carries, hrec] at hvals
    cases (Prod.mk.inj hvals).1
  | bad u => exact absurd hn (h.ne_bad u)
  | value b u =>
    obtain ⟨as', has, hvals⟩ := h.value hn
    obtain ⟨rfl, rfl⟩ := List.cons.inj has
    rw [Carries, List.append_nil] at hvals
    obtain ⟨hp, hr⟩ := List.append_eq_nil_iff.1 (values_rest_of_nil d hvals).symm
    cases u
    cases hp
    cases hr
    rfl

end Unpack
