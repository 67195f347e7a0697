import Mathlib.Data.List.Basic

/-!
# Self-delimiting formats and their incremental unpackers

A decoder of a self-delimiting format judges the tokens it has read since the last complete value:
they are a part of a value, a whole value, or no value. An unpacker keeps those tokens between two
calls (its parse context) together with the tokens received but not yet scanned, and `next` returns
one complete value at a time. `drain` is the loop that hands every complete value to a handler which
may throw, and `values` says, without a handler, which values a token string completes and what it
leaves over.

`values_append` is the independence from the way the tokens are cut into reads, `values_stream` and
`values_stream_part` the values of a stream of encodings and of any prefix of it, and `drain_eq` the
meaning of the loop in terms of `values`. `drain_leaves` says what the loop leaves in the parse context,
whatever tokens it gets.
-/

namespace Unpack

variable {α β σ ε : Type}

/-- The verdict on the tokens read since the last complete value. -/
inductive Scan (α : Type) where
  | more
  | done (a : α)
  | bad
  deriving DecidableEq, Repr

/-- A decoder of tokens `β` into values `α`. -/
structure Decoder (β α : Type) where
  scan : List β → Scan α

/-- An unpacker between two calls: the tokens of the value under construction, all scanned, and the
tokens received after them. -/
structure Unpacker (β : Type) where
  parsed : List β
  received : List β
  deriving DecidableEq, Repr

namespace Unpacker

/-- An unpacker that has received nothing. -/
def empty : Unpacker β := ⟨[], []⟩

/-- New tokens arrive. -/
def feed (u : Unpacker β) (bs : List β) : Unpacker β := { u with received := u.received ++ bs }

/-- The number of received tokens of the current incomplete value. -/
def messageSize (u : Unpacker β) : Nat := u.parsed.length + u.received.length

/-- The received tokens that have not been scanned are dropped; the parse context stays. -/
def removeNonparsedBuffer (u : Unpacker β) : Unpacker β := { u with received := [] }

end Unpacker

/-- The answer of one call of `next`. -/
inductive Next (α β : Type) where
  | none (u : Unpacker β)
  | value (a : α) (u : Unpacker β)
  | bad (u : Unpacker β)

/-- Scans the received tokens up to the end of the next complete value. A token that cannot
continue the value is not consumed. -/
def next (d : Decoder β α) (parsed : List β) : List β → Next α β
  | [] => .none ⟨parsed, []⟩
  | b :: bs =>
    match d.scan (parsed ++ [b]) with
    | .more => next d (parsed ++ [b]) bs
    | .done a => .value a ⟨[], bs⟩
    | .bad => .bad ⟨parsed, b :: bs⟩

/-- The loop that calls `next` until no complete value is left and hands each value to `handle`,
which returns the new state and, when it throws, the exception. `parseError` is thrown on tokens
that cannot be decoded. The recursion is on the received tokens; `drain_next` is the loop. -/
def drain (d : Decoder β α) (handle : σ → α → σ × Option ε) (parseError : ε) (s : σ)
    (parsed : List β) : List β → Unpacker β × σ × Option ε
  | [] => (⟨parsed, []⟩, s, none)
  | b :: bs =>
    match d.scan (parsed ++ [b]) with
    | .more => drain d handle parseError s (parsed ++ [b]) bs
    | .done a =>
      match handle s a with
      | (s', none) => drain d handle parseError s' [] bs
      | (s', some e) => (⟨[], bs⟩, s', some e)
    | .bad => (⟨parsed, b :: bs⟩, s, some parseError)

/-- The values that the tokens complete after the parse context `parsed`, and the parse context
they leave; `none` when they stop being decodable. -/
def values (d : Decoder β α) (parsed : List β) : List β → List α × Option (List β)
  | [] => ([], some parsed)
  | b :: bs =>
    match d.scan (parsed ++ [b]) with
    | .more => values d (parsed ++ [b]) bs
    | .done a => (a :: (values d [] bs).1, (values d [] bs).2)
    | .bad => ([], none)

/-- Hands a list of values to a handler until it throws. -/
def handleAll (handle : σ → α → σ × Option ε) (s : σ) : List α → σ × Option ε
  | [] => (s, none)
  | a :: as =>
    match handle s a with
    | (s', none) => handleAll handle s' as
    | (s', some e) => (s', some e)

section
variable (d : Decoder β α)

/-! ## The loop -/

/-- `drain` is the loop `while next do handle`. -/
theorem drain_next (handle : σ → α → σ × Option ε) (parseError : ε) (s : σ) (p xs : List β) :
    drain d handle parseError s p xs =
      match next d p xs with
      | .none u => (u, s, none)
      | .value a u =>
        match handle s a with
        | (s', none) => drain d handle parseError s' u.parsed u.received
        | (s', some e) => (u, s', some e)
      | .bad u => (u, s, some parseError) := by
  induction xs generalizing p with
  | nil => rfl
  | cons b bs ih =>
    rw [drain, next]
    cases hs : d.scan (p ++ [b]) with
    | more => exact ih _
    | done a => rfl
    | bad => rfl

/-- What the loop does, in terms of the values that the tokens complete: the handler sees them in
order until it throws, and undecodable tokens raise the parse error only after all of them. -/
theorem drain_eq (handle : σ → α → σ × Option ε) (parseError : ε) (s : σ) (p xs : List β) :
    (drain d handle parseError s p xs).2 =
      match handleAll handle s (values d p xs).1, (values d p xs).2 with
      | (s', none), some _ => (s', none)
      | (s', none), none => (s', some parseError)
      | (s', some e), _ => (s', some e) := by
  induction xs generalizing s p with
  | nil => rfl
  | cons b bs ih =>
    rw [drain, values]
    cases hs : d.scan (p ++ [b]) with
    | more => exact ih s _
    | done a =>
      simp only [handleAll]
      rcases hh : handle s a with ⟨s', _ | e⟩
      · exact ih s' []
      · rfl
    | bad => rfl

/-- The state after the loop is the one after the handler has seen the values, up to the first that
it throws on. -/
theorem drain_state (handle : σ → α → σ × Option ε) (parseError : ε) (s : σ) (p xs : List β) :
    (drain d handle parseError s p xs).2.1 = (handleAll handle s (values d p xs).1).1 := by
  rw [drain_eq]
  rcases handleAll handle s (values d p xs).1 with ⟨s', _ | e⟩ <;>
    rcases (values d p xs).2 with _ | q <;> rfl

/-- A loop that ends without an exception has scanned everything, and leaves the parse context that
the tokens leave. -/
theorem drain_unpacker (handle : σ → α → σ × Option ε) (parseError : ε) (s : σ) (p xs : List β)
    (h : (drain d handle parseError s p xs).2.2 = none) :
    ∃ q, (values d p xs).2 = some q ∧ (drain d handle parseError s p xs).1 = ⟨q, []⟩ := by
  induction xs generalizing s p with
  | nil => exact ⟨p, rfl, rfl⟩
  | cons b bs ih =>
    rw [drain] at h ⊢
    rw [values]
    cases hs : d.scan (p ++ [b]) with
    | more => rw [hs] at h; exact ih s _ h
    | done a =>
      rw [hs] at h
      dsimp only at h ⊢
      rcases hh : handle s a with ⟨s', _ | e⟩
      · rw [hh] at h; exact ih s' [] h
      · rw [hh] at h; cases h
    | bad => rw [hs] at h; cases h

/-- The loop runs to its end when the tokens can be decoded and the handler accepts every value. -/
theorem drain_of_values {handle : σ → α → σ × Option ε} {s s' : σ} {p xs q : List β} {as : List α}
    (parseError : ε) (hv : values d p xs = (as, some q)) (hh : handleAll handle s as = (s', none)) :
    drain d handle parseError s p xs = (⟨q, []⟩, s', none) := by
  have h2 := drain_eq d handle parseError s p xs
  rw [hv, hh] at h2
  obtain ⟨q', hq, hu⟩ := drain_unpacker d handle parseError s p xs (by rw [h2])
  rw [hv] at hq
  cases hq
  exact Prod.ext hu h2

/-- A map between the states of two handlers that act alike carries one loop to the other. -/
theorem drain_map {τ : Type} {handle : σ → α → σ × Option ε} {handle' : τ → α → τ × Option ε}
    (f : σ → τ) (hf : ∀ s a, handle' (f s) a = (f (handle s a).1, (handle s a).2))
    (parseError : ε) (s : σ) (p xs : List β) :
    drain d handle' parseError (f s) p xs =
      ((drain d handle parseError s p xs).1, f (drain d handle parseError s p xs).2.1,
        (drain d handle parseError s p xs).2.2) := by
  induction xs generalizing s p with
  | nil => rfl
  | cons b bs ih =>
    rw [drain, drain]
    cases hs : d.scan (p ++ [b]) with
    | more => exact ih s _
    | done a =>
      dsimp only
      rw [hf]
      rcases handle s a with ⟨s', _ | e⟩
      · exact ih s' []
      · rfl
    | bad => rfl

/-- The loop ends without an exception exactly when the tokens can be decoded and the handler
accepts every value that they complete. -/
theorem drain_exn_eq_none_iff (handle : σ → α → σ × Option ε) (parseError : ε) (s : σ)
    (p xs : List β) :
    (drain d handle parseError s p xs).2.2 = none ↔
      (values d p xs).2.isSome ∧ (handleAll handle s (values d p xs).1).2 = none := by
  rw [drain_eq]
  rcases handleAll handle s (values d p xs).1 with ⟨s', _ | e⟩ <;>
    cases (values d p xs).2 <;> simp

/-! ## Values of a token string -/

@[simp] theorem values_nil (p : List β) : values d p [] = ([], some p) := rfl

/-- Cutting the tokens into two reads changes neither the values nor what is left over. -/
theorem values_append (p xs ys : List β) :
    values d p (xs ++ ys) =
      match values d p xs with
      | (as, some q) => (as ++ (values d q ys).1, (values d q ys).2)
      | (as, none) => (as, none) := by
  induction xs generalizing p with
  | nil => rfl
  | cons b bs ih =>
    rw [List.cons_append, values, values]
    cases hs : d.scan (p ++ [b]) with
    | more => exact ih _
    | done a =>
      dsimp only
      rw [ih []]
      rcases values d [] bs with ⟨as, _ | q⟩ <;> rfl
    | bad => rfl

/-- `values_append` where the first read can be decoded. -/
theorem values_append_of_some {p xs q : List β} {as : List α} (h : values d p xs = (as, some q))
    (ys : List β) : values d p (xs ++ ys) = (as ++ (values d q ys).1, (values d q ys).2) := by
  rw [values_append, h]

/-- The first value that a token string completes is completed by a part of it, which its context
and that part scan to. -/
theorem values_first {p xs : List β} {a : α} {as : List α} {t : Option (List β)}
    (h : values d p xs = (a :: as, t)) :
    ∃ u v, xs = u ++ v ∧ d.scan (p ++ u) = .done a ∧ values d p u = ([a], some []) := by
  induction xs generalizing p with
  | nil => cases h
  | cons b bs ih =>
    rw [values] at h
    cases hs : d.scan (p ++ [b]) with
    | more =>
      rw [hs] at h
      obtain ⟨u, v, rfl, hu, hv⟩ := ih h
      exact ⟨b :: u, v, rfl, by rwa [List.append_cons], by rw [values, hs]; exact hv⟩
    | done a' =>
      rw [hs] at h
      obtain ⟨rfl, -⟩ := List.cons.inj (Prod.mk.inj h).1
      exact ⟨[b], bs, rfl, hs, by rw [values, hs]; rfl⟩
    | bad => rw [hs] at h; cases h

/-- Tokens that complete no value are all left over. -/
theorem values_rest_of_nil {p xs q : List β} (h : values d p xs = ([], some q)) : q = p ++ xs := by
  induction xs generalizing p with
  | nil => simpa using (Prod.mk.inj h).2.symm
  | cons b bs ih =>
    rw [values] at h
    cases hs : d.scan (p ++ [b]) with
    | more => rw [hs] at h; simpa using ih h
    | done a => rw [hs] at h; cases h
    | bad => rw [hs] at h; cases h

/-- The parse context that a token string leaves is what its last tokens leave on their own. -/
theorem values_context {p xs q : List β} (h : (values d p xs).2 = some q)
    (hp : values d [] p = ([], some p)) : values d [] q = ([], some q) := by
  induction xs generalizing p with
  | nil =>
    obtain rfl : p = q := by simpa using h
    exact hp
  | cons b bs ih =>
    rw [values] at h
    cases hs : d.scan (p ++ [b]) with
    | more =>
      rw [hs] at h
      exact ih h (by rw [values_append_of_some d hp, values, hs]; rfl)
    | done a => rw [hs] at h; exact ih h rfl
    | bad => rw [hs] at h; cases h

/-- A token string that completes a value with a part of it, and then no other and leaves nothing
over, is that part. -/
theorem eq_nil_of_values_append {p u v : List β} {a : α} {as : List α} {t : Option (List β)}
    (hu : values d p u = (a :: as, t)) (h : values d p (u ++ v) = ([a], some [])) : v = [] := by
  rw [values_append, hu] at h
  cases t with
  | none => cases (Prod.mk.inj h).2
  | some q =>
    obtain ⟨h1, h2⟩ := Prod.mk.inj h
    have hnil : (values d q v).1 = [] := (List.append_eq_nil_iff.1 (List.cons.inj h1).2).2
    exact (List.append_eq_nil_iff.1 (values_rest_of_nil d (Prod.ext hnil h2)).symm).2

/-! ## Parse contexts -/

/-- Two contexts that always give the same first value are completed by the same tokens. -/
theorem values_of_head_eq {p q : List β}
    (hsame : ∀ xs, (values d p xs).1.head? = (values d q xs).1.head?) {xs : List β} {a : α}
    (h : values d p xs = ([a], some [])) :
    values d q xs = ([a], some []) ∧ d.scan (q ++ xs) = .done a := by
  -- what `q` completes with a part of `xs` cannot be completed by `p` with less than `xs`
  have first {p q u : List β} (hs : (values d p u).1.head? = (values d q u).1.head?)
      (h : (values d p u).1.head? = some a) : ∃ as t, values d q u = (a :: as, t) := by
    rw [hs] at h
    rcases hv : values d q u with ⟨_ | ⟨b, as⟩, t⟩ <;> rw [hv] at h
    · cases h
    · obtain rfl : b = a := by simpa using h
      exact ⟨as, t, rfl⟩
  obtain ⟨as, t, hq⟩ := first (hsame xs) (by rw [h]; rfl)
  obtain ⟨u, v, rfl, hscan, hu⟩ := values_first d hq
  obtain ⟨as', t', hp⟩ := first (hsame u).symm (by rw [hu]; rfl)
  obtain rfl := eq_nil_of_values_append d hp h
  rw [List.append_nil]
  exact ⟨hu, hscan⟩

/-- **A parse context that acts like the empty one is empty**, in a format where an unfinished value
can be finished and the encodings of a value are of bounded length. -/
theorem eq_nil_of_values_head_eq {p : List β} (hp : values d [] p = ([], some p))
    (hext : ∃ xs a, values d p xs = ([a], some []))
    (hfin : ∀ a, ∃ n, ∀ bs, d.scan bs = .done a → bs.length ≤ n)
    (hsame : ∀ xs, (values d p xs).1.head? = (values d [] xs).1.head?) : p = [] := by
  obtain ⟨xs, a, hxs⟩ := hext
  obtain ⟨n, hn⟩ := hfin a
  -- each further copy of the context in front of `xs` is one more encoding of `a`
  have hrep (k : Nat) : ∃ ys, k * p.length ≤ ys.length ∧ values d [] ys = ([a], some []) ∧
      d.scan ys = .done a := by
    induction k with
    | zero => exact ⟨xs, by simp, values_of_head_eq d hsame hxs⟩
    | succ k ih =>
      obtain ⟨ys, hlen, hys, -⟩ := ih
      obtain ⟨hpy, hscan⟩ := values_of_head_eq d (fun xs => (hsame xs).symm) hys
      refine ⟨p ++ ys, ?_, by rw [values_append_of_some d hp, hpy]; rfl, hscan⟩
      rw [List.length_append, Nat.succ_mul]
      omega
  obtain ⟨ys, hlen, -, hscan⟩ := hrep (n + 1)
  have hle := Nat.le_trans hlen (hn ys hscan)
  rw [Nat.succ_mul] at hle
  have hp0 : p.length = 0 := by
    rcases Nat.eq_zero_or_pos p.length with h0 | hpos
    · exact h0
    · have := Nat.le_mul_of_pos_right n hpos
      omega
  exact List.length_eq_zero_iff.1 hp0

/-! ## Encodings -/

/-- `bs` is a self-delimiting encoding of `a`: it scans to `a`, and every proper part of it that
starts it scans as incomplete. -/
structure Encodes (bs : List β) (a : α) : Prop where
  ne_nil : bs ≠ []
  done : d.scan bs = .done a
  more : ∀ p, p <+: bs → p ≠ [] → p ≠ bs → d.scan p = .more

variable {d}

/-- `Encodes` as a finite check. -/
theorem Encodes.of_take {bs : List β} {a : α} (hne : bs ≠ []) (hdone : d.scan bs = .done a)
    (hmore : ∀ k, k < bs.length → 0 < k → d.scan (bs.take k) = .more) : Encodes d bs a := by
  refine ⟨hne, hdone, ?_⟩
  intro p hp hp0 hpn
  have hlt : p.length < bs.length :=
    Nat.lt_of_le_of_ne hp.length_le fun he => hpn (hp.eq_of_length he)
  rw [List.prefix_iff_eq_take.1 hp]
  exact hmore _ hlt (List.length_pos_iff.2 hp0)

/-- Tokens that are the beginning of a value, or none. -/
def Unfinished (d : Decoder β α) (p : List β) : Prop :=
  ∀ q, q <+: p → q ≠ [] → d.scan q = .more

/-- The beginning of a value completes no value and is left over. -/
theorem Unfinished.values {p xs : List β} (h : Unfinished d (p ++ xs)) :
    values d p xs = ([], some (p ++ xs)) := by
  induction xs generalizing p with
  | nil => simp
  | cons b xs ih =>
    rw [List.append_cons] at h
    rw [Unpack.values, h _ (List.prefix_append _ _) (by simp)]
    simp only [ih h, List.append_assoc, List.cons_append, List.nil_append]

/-- A proper part of an encoding is the beginning of a value. -/
theorem Encodes.unfinished {bs : List β} {a : α} (h : Encodes d bs a) {p : List β} (hp : p <+: bs)
    (hne : p ≠ bs) : Unfinished d p := by
  intro q hq hq0
  refine h.more q (hq.trans hp) hq0 ?_
  rintro rfl
  exact hne (hp.eq_of_length (Nat.le_antisymm hp.length_le hq.length_le))

/-- A proper part of an encoding completes no value and is left over. -/
theorem Encodes.values_part {bs : List β} {a : α} (h : Encodes d bs a) {p xs : List β}
    (hp : p ++ xs <+: bs) (hne : p ++ xs ≠ bs) : values d p xs = ([], some (p ++ xs)) :=
  (h.unfinished hp hne).values

/-- The rest of an encoding after a proper part of it completes exactly its value. -/
theorem Encodes.values_rest {bs : List β} {a : α} (h : Encodes d bs a) {p xs : List β}
    (hp : p ++ xs = bs) (hxs : xs ≠ []) : values d p xs = ([a], some []) := by
  induction xs generalizing p with
  | nil => exact absurd rfl hxs
  | cons b xs ih =>
    rw [values]
    by_cases hnil : xs = []
    · subst hnil
      rw [hp, h.done]
      rfl
    · have hb : p ++ [b] <+: bs := ⟨xs, by simpa using hp⟩
      have hlt : p ++ [b] ≠ bs := by
        intro he
        rw [← hp] at he
        exact hnil (by simpa using he)
      rw [h.more _ hb (by simp) hlt]
      exact ih (by simpa using hp) hnil

/-- A whole encoding completes exactly its value. -/
theorem Encodes.values_whole {bs : List β} {a : α} (h : Encodes d bs a) :
    values d [] bs = ([a], some []) :=
  h.values_rest (List.nil_append bs) h.ne_nil

/-! ## Streams of encodings -/

section
variable {γ : Type} (enc : γ → List β) {val : γ → α}

/-- A stream of encodings completes exactly their values and leaves nothing over. -/
theorem values_stream {ms : List γ} (h : ∀ m ∈ ms, Encodes d (enc m) (val m)) :
    values d [] (ms.map enc).flatten = (ms.map val, some []) := by
  induction ms with
  | nil => rfl
  | cons m ms ih =>
    have hm := (h m (.head _)).values_whole
    rw [List.map_cons, List.flatten_cons, values_append_of_some d hm,
      ih fun x hx => h x (.tail _ hx)]
    rfl

/-- A prefix of a stream of encodings is some whole encodings followed by a proper part, possibly
empty, of the next one. -/
theorem stream_cut {ms : List γ} {xs : List β} (hne : ∀ m ∈ ms, enc m ≠ [])
    (hp : xs <+: (ms.map enc).flatten) :
    ∃ whole part rest, ms = whole ++ rest ∧ xs = (whole.map enc).flatten ++ part ∧
      (part = [] ∨ ∃ m tl, rest = m :: tl ∧ part <+: enc m ∧ part ≠ enc m) := by
  induction ms generalizing xs with
  | nil => exact ⟨[], [], [], rfl, by simpa using hp, .inl rfl⟩
  | cons m ms ih =>
    rw [List.map_cons, List.flatten_cons] at hp
    by_cases hlen : xs.length < (enc m).length
    · have hx : xs <+: enc m := List.prefix_of_prefix_length_le hp (List.prefix_append _ _)
        (Nat.le_of_lt hlen)
      exact ⟨[], xs, m :: ms, rfl, rfl, .inr ⟨m, ms, rfl, hx, fun he => by simp [he] at hlen⟩⟩
    · obtain ⟨ys, rfl⟩ :=
        List.prefix_of_prefix_length_le (List.prefix_append _ _) hp (Nat.not_lt.1 hlen)
      have hys := (List.prefix_append_right_inj _).1 hp
      obtain ⟨whole, part, rest, rfl, rfl, hpart⟩ := ih (fun x hx => hne x (.tail _ hx)) hys
      exact ⟨m :: whole, part, rest, rfl, by simp, hpart⟩

/-- The values of a prefix of a stream of encodings: those of the whole encodings in it, with the
proper part of the next one left over. -/
theorem values_stream_part {whole : List γ} {part : List β}
    (h : ∀ m ∈ whole, Encodes d (enc m) (val m))
    (hpart : part = [] ∨ ∃ bs a, Encodes d bs a ∧ part <+: bs ∧ part ≠ bs) :
    values d [] ((whole.map enc).flatten ++ part) = (whole.map val, some part) := by
  rw [values_append_of_some d (values_stream enc h)]
  rcases hpart with rfl | ⟨bs, a, he, hp, hne⟩
  · simp
  · rw [he.values_part (p := []) hp hne]
    simp

end

/-! ## What is left over -/

/-- The tokens of whole values that are taken, one after another. -/
inductive Wholes (d : Decoder β α) (taken : α → Prop) : List β → Prop where
  | nil : Wholes d taken []
  | cons {bs xs : List β} {a : α} : Encodes d bs a → taken a → Wholes d taken xs →
    Wholes d taken (bs ++ xs)

/-- What tokens leave over: after whole values that are taken, the beginning of another one, up to the
end of the tokens or to one that cannot continue it. A whole value that is not taken leaves nothing
over, and what follows it is dropped. -/
inductive Leaves (d : Decoder β α) (taken : α → Prop) : List β → List β → Prop where
  | cut {xs q : List β} : Wholes d taken xs → Unfinished d q → Leaves d taken (xs ++ q) q
  | bad {xs q rest : List β} {b : β} : Wholes d taken xs → Unfinished d q →
    d.scan (q ++ [b]) = .bad → Leaves d taken (xs ++ (q ++ b :: rest)) q
  | refused {xs bs rest : List β} {a : α} : Wholes d taken xs → Encodes d bs a → ¬ taken a →
    Leaves d taken (xs ++ (bs ++ rest)) []

section
variable {taken : α → Prop}

theorem unfinished_nil : Unfinished d [] := fun _ hq hne => absurd (List.prefix_nil.1 hq) hne

theorem Unfinished.concat {p : List β} {b : β} (h : Unfinished d p)
    (hb : d.scan (p ++ [b]) = .more) : Unfinished d (p ++ [b]) := by
  intro q hq hne
  rcases List.prefix_concat_iff.1 hq with rfl | hq
  · exact hb
  · exact h q hq hne

/-- The token that ends a value that was unfinished. -/
theorem Unfinished.encodes {p : List β} {b : β} {a : α} (h : Unfinished d p)
    (hb : d.scan (p ++ [b]) = .done a) : Encodes d (p ++ [b]) a := by
  refine ⟨by simp, hb, fun q hq hne hne' => ?_⟩
  exact h q ((List.prefix_concat_iff.1 hq).resolve_left hne') hne

theorem Leaves.unfinished {xs q : List β} (h : Leaves d taken xs q) : Unfinished d q := by
  cases h with
  | cut _ hq | bad _ hq _ => exact hq
  | refused => exact unfinished_nil

theorem Wholes.append {xs ys : List β} (hx : Wholes d taken xs) (hy : Wholes d taken ys) :
    Wholes d taken (xs ++ ys) := by
  induction hx with
  | nil => exact hy
  | cons he ha _ ih =>
    rw [List.append_assoc]
    exact .cons he ha ih

/-- Whole values in front leave nothing over themselves. -/
theorem Wholes.leaves {xs ys q : List β} (hx : Wholes d taken xs) (hy : Leaves d taken ys q) :
    Leaves d taken (xs ++ ys) q := by
  cases hy with
  | cut hw hq =>
    rw [← List.append_assoc]
    exact .cut (hx.append hw) hq
  | bad hw hq hb =>
    rw [← List.append_assoc]
    exact .bad (hx.append hw) hq hb
  | refused hw he ha =>
    rw [← List.append_assoc]
    exact .refused (hx.append hw) he ha

variable {handle : σ → α → σ × Option ε} (hhandle : ∀ s a, (handle s a).2 = none ↔ taken a)
include hhandle

/-- What the loop keeps of the tokens is what they leave over, if the values that it takes are those
that the handler does not throw on. If nothing is thrown, they end in it. -/
theorem drain_leaves (parseError : ε) (s : σ) {p : List β} (hp : Unfinished d p) (xs : List β) :
    Leaves d taken (p ++ xs) (drain d handle parseError s p xs).1.parsed ∧
      ((drain d handle parseError s p xs).2.2 = none → ∃ ys, Wholes d taken ys ∧
        p ++ xs = ys ++ (drain d handle parseError s p xs).1.parsed) := by
  induction xs generalizing s p with
  | nil =>
    rw [List.append_nil]
    exact ⟨.cut .nil hp, fun _ => ⟨[], .nil, rfl⟩⟩
  | cons b bs ih =>
    rw [drain, List.append_cons]
    cases hs : d.scan (p ++ [b]) with
    | more => exact ih s (hp.concat hs)
    | done a =>
      have he : Encodes d (p ++ [b]) a := hp.encodes hs
      dsimp only
      rcases hh : handle s a with ⟨s', _ | e⟩
      · have ha : taken a := (hhandle s a).1 (by rw [hh])
        obtain ⟨hleaves, hwholes⟩ := ih s' unfinished_nil
        have hone : Wholes d taken (p ++ [b]) := by simpa using Wholes.cons he ha .nil
        refine ⟨hone.leaves hleaves, fun hnone => ?_⟩
        obtain ⟨ys, hys, hbs⟩ := hwholes hnone
        exact ⟨_, .cons he ha hys, by rw [List.append_assoc (p ++ [b]), ← hbs]; rfl⟩
      · have ha : ¬ taken a := fun ha => by
          have hnone := (hhandle s a).2 ha
          rw [hh] at hnone
          cases hnone
        exact ⟨.refused .nil he ha, fun hnone => by cases hnone⟩
    | bad =>
      refine ⟨?_, fun hnone => by cases hnone⟩
      rw [← List.append_cons]
      exact .bad .nil hp hs

omit hhandle in
/-- The loop over the beginning of a value. -/
theorem Unfinished.drain (parseError : ε) (s : σ) {p q : List β} (h : Unfinished d (p ++ q))
    (xs : List β) :
    drain d handle parseError s p (q ++ xs) = drain d handle parseError s (p ++ q) xs := by
  induction q generalizing p with
  | nil => simp
  | cons b q ih =>
    rw [List.append_cons] at h
    rw [List.cons_append, Unpack.drain, h _ (List.prefix_append _ _) (by simp)]
    dsimp only
    rw [ih h, ← List.append_cons]

omit hhandle in
/-- The loop over the rest of a whole value. -/
theorem Encodes.drain (parseError : ε) (s : σ) {bs p xs : List β} {a : α} (h : Encodes d bs a)
    (hp : p ++ xs = bs) (hxs : xs ≠ []) (ys : List β) :
    drain d handle parseError s p (xs ++ ys) =
      match handle s a with
      | (s', none) => drain d handle parseError s' [] ys
      | (s', some e) => (⟨[], ys⟩, s', some e) := by
  induction xs generalizing p with
  | nil => exact absurd rfl hxs
  | cons b xs ih =>
    rw [List.append_cons] at hp
    rw [List.cons_append, Unpack.drain]
    by_cases hnil : xs = []
    · subst hnil
      rw [List.append_nil] at hp
      rw [hp, h.done]
      rfl
    · have hmore : d.scan (p ++ [b]) = .more := by
        refine h.more _ ⟨xs, hp⟩ (by simp) fun he => hnil ?_
        exact List.append_cancel_left (hp.trans (he.symm.trans (List.append_nil _).symm))
      rw [hmore]
      exact ih hp hnil

/-- The loop over whole values that are taken. -/
theorem Wholes.drain (parseError : ε) (s : σ) {xs : List β} (h : Wholes d taken xs) (ys : List β) :
    ∃ s', drain d handle parseError s [] (xs ++ ys) = drain d handle parseError s' [] ys := by
  induction h generalizing s with
  | nil => exact ⟨s, rfl⟩
  | @cons bs xs a he ha _ ih =>
    rw [List.append_assoc, he.drain parseError s (List.nil_append bs) he.ne_nil]
    have hnone := (hhandle s a).2 ha
    rcases hh : handle s a with ⟨s', _ | e⟩
    · exact ih s'
    · rw [hh] at hnone
      cases hnone

/-- So tokens leave one thing over. -/
theorem Leaves.drain (parseError : ε) (s : σ) {xs q : List β} (h : Leaves d taken xs q) :
    (drain d handle parseError s [] xs).1.parsed = q := by
  cases h with
  | cut hw hq =>
    obtain ⟨s', hd⟩ := hw.drain hhandle parseError s q
    have hrest : Unpack.drain d handle parseError s' [] (q ++ []) =
        Unpack.drain d handle parseError s' q [] := Unfinished.drain (p := []) parseError s' hq []
    rw [List.append_nil] at hrest
    rw [hd, hrest]
    rfl
  | @bad _ _ rest b hw hq hb =>
    obtain ⟨s', hd⟩ := hw.drain hhandle parseError s (q ++ b :: rest)
    rw [hd, Unfinished.drain (p := []) parseError s' hq, List.nil_append, Unpack.drain, hb]
  | @refused _ bs rest a hw he ha =>
    obtain ⟨s', hd⟩ := hw.drain hhandle parseError s (bs ++ rest)
    rw [hd, he.drain parseError s' (List.nil_append bs) he.ne_nil]
    rcases hh : handle s' a with ⟨s'', _ | e⟩
    · exact absurd ((hhandle s' a).1 (by rw [hh])) ha
    · rfl

end

/-! ## Values with their tokens -/

/-- The values that the tokens complete after the parse context `parsed`, each with the tokens it was
scanned from. -/
def spans (d : Decoder β α) (parsed : List β) : List β → List (List β × α)
  | [] => []
  | b :: bs =>
    match d.scan (parsed ++ [b]) with
    | .more => spans d (parsed ++ [b]) bs
    | .done a => (parsed ++ [b], a) :: spans d [] bs
    | .bad => []

theorem spans_values (d : Decoder β α) (p xs : List β) :
    (spans d p xs).map Prod.snd = (values d p xs).1 := by
  induction xs generalizing p with
  | nil => rfl
  | cons b bs ih =>
    rw [spans, values]
    cases d.scan (p ++ [b]) with
    | more => exact ih _
    | done a => exact congrArg (a :: ·) (ih [])
    | bad => rfl

/-- A second read completes what its tokens complete after the context that the first one left. -/
theorem spans_append (d : Decoder β α) (p xs ys : List β) :
    spans d p (xs ++ ys) = spans d p xs ++ ((values d p xs).2.elim [] fun q => spans d q ys) := by
  induction xs generalizing p with
  | nil => rfl
  | cons b bs ih =>
    rw [List.cons_append, spans, spans, values]
    cases d.scan (p ++ [b]) with
    | more => exact ih _
    | done a => exact congrArg ((p ++ [b], a) :: ·) (ih [])
    | bad => rfl

/-- No value has more tokens than the context and the read. -/
theorem spans_length (d : Decoder β α) (p xs : List β) :
    ∀ m ∈ spans d p xs, m.1.length ≤ p.length + xs.length := by
  induction xs generalizing p with
  | nil => exact fun m hm => by cases hm
  | cons b bs ih =>
    intro m hm
    have hlen : (p ++ [b]).length = p.length + 1 := List.length_append
    rw [spans] at hm
    rw [List.length_cons]
    cases hs : d.scan (p ++ [b]) with
    | more =>
      rw [hs] at hm
      have h := ih (p ++ [b]) m hm
      omega
    | done a =>
      rw [hs] at hm
      rcases List.mem_cons.1 hm with rfl | hm
      · show (p ++ [b]).length ≤ _
        omega
      · have h := ih [] m hm
        rw [List.length_nil] at h
        omega
    | bad =>
      rw [hs] at hm
      cases hm

/-- The rest of an encoding completes its value with all of its tokens. -/
theorem Encodes.spans_rest {d : Decoder β α} {bs : List β} {a : α} (h : Encodes d bs a)
    {p xs : List β} (hp : p ++ xs = bs) (hxs : xs ≠ []) : spans d p xs = [(bs, a)] := by
  induction xs generalizing p with
  | nil => exact absurd rfl hxs
  | cons b xs ih =>
    rw [List.append_cons] at hp
    rw [spans]
    by_cases hnil : xs = []
    · subst hnil
      rw [List.append_nil] at hp
      rw [hp, h.done]
      rfl
    · have hmore : d.scan (p ++ [b]) = .more := by
        refine h.more _ ⟨xs, hp⟩ (by simp) fun he => hnil ?_
        exact List.append_cancel_left (hp.trans (he.symm.trans (List.append_nil _).symm))
      rw [hmore]
      exact ih hp hnil

/-- A read that ends with whole values and then holds an encoding completes its value. -/
theorem Encodes.mem_spans {d : Decoder β α} {u bs xs : List β} {as : List α} {a : α}
    (h : Encodes d bs a) (hu : values d [] u = (as, some [])) (hx : u ++ bs <+: xs) :
    (bs, a) ∈ spans d [] xs := by
  obtain ⟨t, rfl⟩ := hx
  rw [spans_append, spans_append, hu]
  refine List.mem_append_left _ (List.mem_append_right _ ?_)
  rw [Option.elim_some, h.spans_rest (List.nil_append bs) h.ne_nil]
  exact List.mem_singleton_self _

/-! ## Sizes -/

/-- What the loop leaves is no larger than what it found. -/
theorem drain_messageSize (d : Decoder β α) (handle : σ → α → σ × Option ε) (parseError : ε) (s : σ)
    (p xs : List β) :
    (drain d handle parseError s p xs).1.messageSize ≤ p.length + xs.length := by
  induction xs generalizing s p with
  | nil => exact Nat.le_refl _
  | cons b bs ih =>
    have hlen : (p ++ [b]).length = p.length + 1 := List.length_append
    rw [drain, List.length_cons]
    cases d.scan (p ++ [b]) with
    | more =>
      have h := ih s (p ++ [b])
      dsimp only
      omega
    | done a =>
      dsimp only
      rcases handle s a with ⟨s', _ | e⟩
      · have h := ih s' []
        rw [List.length_nil] at h
        dsimp only
        omega
      · show 0 + bs.length ≤ _
        omega
    | bad =>
      show p.length + (bs.length + 1) ≤ _
      omega

/-- The unpackers at the rounds of the loop. -/
inductive Rounds (d : Decoder β α) (u : Unpacker β) : Unpacker β → Prop where
  | refl : Rounds d u u
  | next {v w : Unpacker β} {a : α} : Rounds d u v → next d v.parsed v.received = .value a w →
    Rounds d u w

theorem next_value {d : Decoder β α} {p xs : List β} {a : α} {u : Unpacker β}
    (h : next d p xs = .value a u) : u.messageSize < xs.length := by
  induction xs generalizing p with
  | nil => cases h
  | cons b bs ih =>
    rw [next] at h
    cases hs : d.scan (p ++ [b]) with
    | more =>
      rw [hs] at h
      exact Nat.lt_succ_of_lt (ih h)
    | done a' =>
      rw [hs] at h
      cases h
      show 0 + bs.length < _
      rw [List.length_cons]
      omega
    | bad =>
      rw [hs] at h
      cases h

theorem Rounds.messageSize_le {d : Decoder β α} {u v : Unpacker β} (h : Rounds d u v) :
    v.messageSize ≤ u.messageSize := by
  induction h with
  | refl => exact Nat.le_refl _
  | @next v w a _ hn ih =>
    have hlt := next_value hn
    unfold Unpacker.messageSize at ih hlt ⊢
    omega

/-! ## Handlers -/

/-- Values that come after others are handed over unless the handler has thrown. -/
theorem handleAll_append (handle : σ → α → σ × Option ε) (s : σ) (as bs : List α) :
    handleAll handle s (as ++ bs) =
      match handleAll handle s as with
      | (s', none) => handleAll handle s' bs
      | (s', some e) => (s', some e) := by
  induction as generalizing s with
  | nil => rfl
  | cons a as ih =>
    rw [List.cons_append, handleAll, handleAll]
    rcases handle s a with ⟨s', _ | e⟩
    · exact ih s'
    · rfl

/-- A map between the states of two handlers that act alike carries the hand-over of a list of
values from one to the other. -/
theorem handleAll_map {τ : Type} {handle : σ → α → σ × Option ε} {handle' : τ → α → τ × Option ε}
    (f : σ → τ) (hf : ∀ s a, handle' (f s) a = (f (handle s a).1, (handle s a).2)) (s : σ)
    (as : List α) :
    handleAll handle' (f s) as = (f (handleAll handle s as).1, (handleAll handle s as).2) := by
  induction as generalizing s with
  | nil => rfl
  | cons a as ih =>
    rw [handleAll, handleAll, hf]
    rcases handle s a with ⟨s', _ | e⟩
    · exact ih s'
    · rfl

end

end Unpack
