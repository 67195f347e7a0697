import Mathlib.Data.Set.Insert
import Mathlib.Data.Set.Subsingleton
import Mathlib.Logic.Function.Basic
import Mathlib.Logic.Relation

/-!
# Remote procedure calls

What a remote procedure call is for its caller. A call, named by an `i : ι`, asks a question; the
other side may reply to it; and it returns at most once, with one of the replies that it got or with
a failure. How often the other side may reply is a parameter: where it may do so once only, a call
that returns has got the one reply there is.

Replies may be lost: nothing says that a call returns, nor that a reply is used.
-/

namespace Calls

open Relation

variable {ι Q A E : Type}

/-- The questions that the calls have asked, the replies given to each, and what each has returned
with. -/
structure Service (ι Q A E : Type) where
  asked : ι → Option Q
  replies : ι → Set A
  outcome : ι → Option (Except E A)

/-- No call has been made. -/
def Service.init : Service ι Q A E := ⟨fun _ => none, fun _ => ∅, fun _ => none⟩

/-- `s'` is `s` some time later: no question is taken back, no reply is, and no call returns
twice. -/
structure Service.Later (s s' : Service ι Q A E) : Prop where
  asked : ∀ i q, s.asked i = some q → s'.asked i = some q
  replies : ∀ i, s.replies i ⊆ s'.replies i
  outcome : ∀ i o, s.outcome i = some o → s'.outcome i = some o

theorem Service.Later.refl (s : Service ι Q A E) : s.Later s :=
  ⟨fun _ _ h => h, fun _ => subset_rfl, fun _ _ h => h⟩

theorem Service.Later.trans {s s₁ s' : Service ι Q A E} (h : s.Later s₁) (h' : s₁.Later s') :
    s.Later s' :=
  ⟨fun i q hq => h'.asked i q (h.asked i q hq), fun i => (h.replies i).trans (h'.replies i),
    fun i o ho => h'.outcome i o (h.outcome i o ho)⟩

/-- Only questions are replied to, only they return, and a call that has returned well has returned
with one of its replies. -/
structure Service.Sound (s : Service ι Q A E) : Prop where
  replied : ∀ i, ∀ a ∈ s.replies i, (s.asked i).isSome
  returned : ∀ i o, s.outcome i = some o → (s.asked i).isSome
  answered : ∀ i a, s.outcome i = some (.ok a) → a ∈ s.replies i

theorem sound_init : (Service.init : Service ι Q A E).Sound := ⟨nofun, nofun, nofun⟩

/-- The other side may reply to a call any number of times. -/
def anyReplies : Set A → Prop := fun _ => True

/-- The other side may reply to a call once. -/
def oneReply : Set A → Prop := fun given => given = ∅

section
variable [DecidableEq ι] (may : Set A → Prop)

/-- The transitions, where the replies that have been given to a call say whether the other side may
give another. -/
inductive Step (s : Service ι Q A E) : Service ι Q A E → Prop where
  | ask (i : ι) (q : Q) : s.asked i = none →
    Step s { s with asked := Function.update s.asked i (some q) }
  | reply (i : ι) (a : A) : (s.asked i).isSome → may (s.replies i) →
    Step s { s with replies := Function.update s.replies i (insert a (s.replies i)) }
  | answer (i : ι) (a : A) : a ∈ s.replies i → s.outcome i = none →
    Step s { s with outcome := Function.update s.outcome i (some (.ok a)) }
  | fail (i : ι) (e : E) : (s.asked i).isSome → s.outcome i = none →
    Step s { s with outcome := Function.update s.outcome i (some (.error e)) }

variable {may}

/-- An update at a place where there was nothing keeps what there is. -/
theorem update_of_none {γ : Type} {f : ι → Option γ} {i : ι} (hi : f i = none) (b : γ) {j : ι}
    {c : γ} (hj : f j = some c) : Function.update f i (some b) j = some c := by
  rw [Function.update_of_ne, hj]
  rintro rfl
  rw [hi] at hj
  cases hj

/-- Where an update is, there is its value or what there was. -/
theorem update_cases {γ : Type} {f : ι → Option γ} {i j : ι} {b c : γ}
    (h : Function.update f i (some b) j = some c) : j = i ∧ c = b ∨ f j = some c := by
  rcases eq_or_ne j i with rfl | hne
  · rw [Function.update_self] at h
    exact .inl ⟨rfl, (Option.some.inj h).symm⟩
  · rw [Function.update_of_ne hne] at h
    exact .inr h

/-- The replies to a call after another reply. -/
theorem mem_update_replies {f : ι → Set A} {i j : ι} {a b : A} :
    b ∈ Function.update f i (insert a (f i)) j ↔ j = i ∧ b = a ∨ b ∈ f j := by
  rcases eq_or_ne j i with rfl | hne
  · simp
  · simp [hne]

theorem Step.later {s s' : Service ι Q A E} (h : Step may s s') : s.Later s' := by
  cases h with
  | ask i q hi => exact ⟨fun j _ => update_of_none hi q, fun _ => subset_rfl, fun _ _ => id⟩
  | reply i a _ _ =>
    exact ⟨fun _ _ => id, fun j b hb => mem_update_replies.2 (.inr hb), fun _ _ => id⟩
  | answer i a _ hi =>
    exact ⟨fun _ _ => id, fun _ => subset_rfl, fun j _ => update_of_none hi _⟩
  | fail i e _ hi => exact ⟨fun _ _ => id, fun _ => subset_rfl, fun j _ => update_of_none hi _⟩

/-- **Time goes one way.** In particular what a call has returned with stays what it is. -/
theorem later_of_reach {s s' : Service ι Q A E} (h : ReflTransGen (Step may) s s') :
    s.Later s' := by
  induction h with
  | refl => exact .refl s
  | tail _ hstep ih => exact ih.trans hstep.later

theorem Service.Sound.step {s s' : Service ι Q A E} (h : s.Sound) (hstep : Step may s s') :
    s'.Sound := by
  cases hstep with
  | ask i q hi =>
    have hsome {j : ι} (hj : (s.asked j).isSome) :
        (Function.update s.asked i (some q) j).isSome := by
      obtain ⟨q', hq'⟩ := Option.isSome_iff_exists.1 hj
      rw [update_of_none hi q hq']
      rfl
    exact ⟨fun j a ha => hsome (h.replied j a ha), fun j o ho => hsome (h.returned j o ho),
      h.answered⟩
  | reply i a hi _ =>
    refine ⟨?_, h.returned, fun j b hb => mem_update_replies.2 (.inr (h.answered j b hb))⟩
    intro j b hb
    rcases mem_update_replies.1 hb with ⟨rfl, -⟩ | hb
    · exact hi
    · exact h.replied j b hb
  | answer i a ha _ =>
    refine ⟨h.replied, ?_, ?_⟩
    · intro j o ho
      rcases update_cases ho with ⟨rfl, -⟩ | ho
      · exact h.replied j a ha
      · exact h.returned j o ho
    · intro j b hb
      rcases update_cases hb with ⟨rfl, he⟩ | hb
      · cases he
        exact ha
      · exact h.answered j b hb
  | fail i e hi _ =>
    refine ⟨h.replied, ?_, ?_⟩
    · intro j o ho
      rcases update_cases ho with ⟨rfl, -⟩ | ho
      · exact hi
      · exact h.returned j o ho
    · intro j b hb
      rcases update_cases hb with ⟨-, he⟩ | hb
      · cases he
      · exact h.answered j b hb

/-- **A call returns with a reply to it.** -/
theorem sound_of_reach {s : Service ι Q A E} (h : ReflTransGen (Step may) .init s) : s.Sound := by
  induction h with
  | refl => exact sound_init
  | tail _ hstep ih => exact ih.step hstep

/-- **Where the other side replies once**, there is one reply. -/
theorem subsingleton_of_reach {s : Service ι Q A E} (h : ReflTransGen (Step oneReply) .init s)
    (i : ι) : (s.replies i).Subsingleton := by
  induction h with
  | refl => exact Set.subsingleton_empty
  | @tail s₁ s' _ hstep ih =>
    cases hstep with
    | ask | answer | fail => exact ih
    | reply j a _ hempty =>
      have hempty : s₁.replies j = ∅ := hempty
      intro b hb c hc
      rcases mem_update_replies.1 hb with ⟨hi, hb'⟩ | hb' <;>
        rcases mem_update_replies.1 hc with ⟨hi', hc'⟩ | hc'
      · rw [hb', hc']
      · rw [hi, hempty] at hc'
        cases hc'
      · rw [hi', hempty] at hb'
        cases hb'
      · exact ih hb' hc'

end

end Calls
