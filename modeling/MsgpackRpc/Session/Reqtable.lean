import Mathlib.Algebra.Order.Group.Multiset
import Mathlib.Data.List.AList
import MsgpackRpc.Session.Future

/-!
# The table of outstanding requests

`reqtable` (`reqtable.cc`), the map from message ids to the futures of the requests that have not
been answered. `insert` overwrites an entry of the same id. `take_all` and `step_timeout` walk the
map in the order of its iterators, which `boost::unordered_map` does not specify; the model takes
that order as an argument.

The futures in a table are a multiset (`Reqtable.values`), and each operation moves some of them out
of it.
-/

namespace MsgpackRpc

/-- `reqtable::m_map`. -/
abbrev Reqtable := AList fun _ : MsgId => FutureId

namespace Reqtable

/-- An entry of `m_map`, as an iterator gives it. -/
abbrev Entry := Sigma fun _ : MsgId => FutureId

/-- `reqtable::insert` (`reqtable.cc:25`). -/
def insert (t : Reqtable) (msgid : MsgId) (f : FutureId) : Reqtable := AList.insert msgid f t

/-- `reqtable::erase` (`reqtable.cc:31`). -/
def erase (t : Reqtable) (msgid : MsgId) : Reqtable := AList.erase msgid t

/-- `reqtable::take` (`reqtable.cc:37`). -/
def take (t : Reqtable) (msgid : MsgId) : Option FutureId × Reqtable :=
  match t.lookup msgid with
  | none => (none, t)
  | some f => (some f, t.erase msgid)

/-- `reqtable::take_all` (`reqtable.cc:50`), for the order `it` of the iterators. -/
def takeAll (t : Reqtable) : (it : List Entry) → List FutureId × Reqtable
  | [] => ([], t)
  | ⟨k, f⟩ :: it => let (all, t) := takeAll (t.erase k) it; (f :: all, t)

/-- `reqtable::step_timeout` (`reqtable.cc:61`), for the order `it` of the iterators. -/
def stepTimeout (t : Reqtable) (futures : List Future) :
    (it : List Entry) → List FutureId × Reqtable × List Future
  | [] => ([], t, futures)
  | ⟨k, f⟩ :: it =>
    match futures[f]? with
    | none => stepTimeout t futures it
    | some fut =>
      if fut.stepTimeout.2 then
        let (timedout, t, futures) := stepTimeout (t.erase k) (futures.set f fut.stepTimeout.1) it
        (f :: timedout, t, futures)
      else stepTimeout t (futures.set f fut.stepTimeout.1) it

@[simp] theorem lookup_erase (t : Reqtable) (k : MsgId) : (t.erase k).lookup k = none :=
  AList.lookup_erase k t

@[simp] theorem lookup_erase_ne {t : Reqtable} {k k' : MsgId} (h : k' ≠ k) :
    (t.erase k).lookup k' = t.lookup k' :=
  AList.lookup_erase_ne h

@[simp] theorem lookup_insert (t : Reqtable) (k : MsgId) (f : FutureId) :
    (t.insert k f).lookup k = some f :=
  AList.lookup_insert t

@[simp] theorem lookup_insert_ne {t : Reqtable} {k k' : MsgId} {f : FutureId} (h : k' ≠ k) :
    (t.insert k f).lookup k' = t.lookup k' :=
  AList.lookup_insert_ne h

/-- The futures in a table. -/
def values (t : Reqtable) : Multiset FutureId := ↑(t.entries.map Sigma.snd)

@[simp] theorem values_empty : Reqtable.values ∅ = 0 := rfl

/-- Erasing an entry removes its future. -/
theorem values_of_lookup {t : Reqtable} {k : MsgId} {f : FutureId} (h : t.lookup k = some f) :
    t.values = f ::ₘ (t.erase k).values := by
  have hk : k ∈ t.entries.keys := AList.mem_keys.1 (AList.lookup_isSome.1 (by rw [h]; rfl))
  obtain ⟨b, l₁, l₂, -, he, hk'⟩ := List.exists_of_kerase hk
  have hb : t.lookup k = some b := AList.mem_lookup_iff.2 (by rw [he]; simp)
  obtain rfl : b = f := Option.some.inj (hb.symm.trans h)
  have herase : (t.erase k).entries = l₁ ++ l₂ := hk'
  rw [values, values, herase, he, Multiset.cons_coe, List.map_append, List.map_append]
  exact Quotient.sound List.perm_middle

/-- Erasing an id without an entry changes nothing. -/
theorem erase_of_lookup {t : Reqtable} {k : MsgId} (h : t.lookup k = none) : t.erase k = t :=
  AList.ext (List.kerase_of_notMem_keys (AList.lookup_eq_none.1 h))

/-- Erasing an id removes at most its future. -/
theorem values_erase_le (t : Reqtable) (k : MsgId) : (t.erase k).values ≤ t.values := by
  rcases hl : t.lookup k with _ | f
  · exact le_of_eq (congrArg values (erase_of_lookup hl))
  · rw [values_of_lookup hl]
    exact Multiset.le_cons_self _ _

/-- Inserting replaces the future of the id. -/
theorem values_insert (t : Reqtable) (k : MsgId) (f : FutureId) :
    (t.insert k f).values = f ::ₘ (t.erase k).values := rfl

/-- A future in the table has an entry. -/
theorem mem_values {t : Reqtable} {f : FutureId} : f ∈ t.values ↔ ∃ k, t.lookup k = some f := by
  rw [values, Multiset.mem_coe, List.mem_map]
  constructor
  · rintro ⟨⟨k, f'⟩, he, rfl⟩
    exact ⟨k, AList.mem_lookup_iff.2 he⟩
  · rintro ⟨k, hk⟩
    exact ⟨⟨k, f⟩, AList.mem_lookup_iff.1 hk, rfl⟩

/-- An entry of the smaller table is one of the larger. -/
theorem lookup_of_erase {t : Reqtable} {k k' : MsgId} {f : FutureId}
    (h : (t.erase k).lookup k' = some f) : t.lookup k' = some f := by
  by_cases hk : k' = k
  · subst hk
    rw [lookup_erase] at h
    cases h
  · rwa [lookup_erase_ne hk] at h

/-- The iterators of a table each point to an entry, at distinct ids. -/
theorem lookup_of_iterators {t : Reqtable} {it : List Entry} (h : it.Perm t.entries) :
    it.NodupKeys ∧ ∀ e ∈ it, t.lookup e.1 = some e.2 :=
  ⟨(List.perm_nodupKeys h).2 t.nodupKeys, fun _ he => AList.mem_lookup_iff.2 (h.subset he)⟩

/-- What is left of the iterators after an entry has been erased. -/
theorem lookup_of_iterators_erase {t : Reqtable} {k : MsgId} {f : FutureId} {it : List Entry}
    (hnd : (⟨k, f⟩ :: it : List Entry).NodupKeys)
    (h : ∀ e ∈ (⟨k, f⟩ :: it : List Entry), t.lookup e.1 = some e.2) :
    ∀ e ∈ it, (t.erase k).lookup e.1 = some e.2 := by
  rintro ⟨k', f'⟩ he
  have hk : k' ≠ k := by
    rintro rfl
    have hmem : k' ∈ it.keys := List.mem_keys_of_mem he
    exact (List.nodupKeys_cons.1 hnd).1 hmem
  rw [lookup_erase_ne hk]
  exact h _ (.tail _ he)

/-- `take_all` hands out the futures of its iterators. -/
theorem takeAll_values {t : Reqtable} {it : List Entry} (hnd : it.NodupKeys)
    (h : ∀ e ∈ it, t.lookup e.1 = some e.2) :
    t.values = ↑(t.takeAll it).1 + (t.takeAll it).2.values := by
  induction it generalizing t with
  | nil => simp [takeAll]
  | cons e it ih =>
    obtain ⟨k, f⟩ := e
    rw [values_of_lookup (h _ (.head _)),
      ih (List.nodupKeys_cons.1 hnd).2 (lookup_of_iterators_erase hnd h), takeAll]
    rfl

theorem takeAll_fst (t : Reqtable) (it : List Entry) : (t.takeAll it).1 = it.map Sigma.snd := by
  induction it generalizing t with
  | nil => rfl
  | cons e it ih => simp [takeAll, ih]

/-- **`take_all`** hands out every future in the table and leaves it empty. -/
theorem takeAll_eq {t : Reqtable} {it : List Entry} (h : it.Perm t.entries) :
    t.takeAll it = (it.map Sigma.snd, ∅) := by
  obtain ⟨hnd, hl⟩ := lookup_of_iterators h
  refine Prod.ext (takeAll_fst t it) ?_
  have hv := takeAll_values hnd hl
  have hall : t.values = ↑(t.takeAll it).1 := by
    rw [takeAll_fst]
    exact Quotient.sound (h.symm.map Sigma.snd)
  rw [hall] at hv
  have h0 : (t.takeAll it).2.values = 0 := (left_eq_add (a := _)).1 hv
  refine AList.ext ?_
  simpa [values] using h0

/-- **`step_timeout`** hands out some of the futures in the table, keeps the other entries and
changes nothing of a future but its time. -/
theorem stepTimeout_spec {t : Reqtable} (futures : List Future) {it : List Entry}
    (hnd : it.NodupKeys) (h : ∀ e ∈ it, t.lookup e.1 = some e.2) :
    t.values = ↑(t.stepTimeout futures it).1 + (t.stepTimeout futures it).2.1.values ∧
      (∀ k f, (t.stepTimeout futures it).2.1.lookup k = some f → t.lookup k = some f) ∧
      (t.stepTimeout futures it).2.2.map Future.untimed = futures.map Future.untimed := by
  induction it generalizing t futures with
  | nil => simp [stepTimeout]
  | cons e it ih =>
    obtain ⟨k, f⟩ := e
    have hnd' := (List.nodupKeys_cons.1 hnd).2
    rw [stepTimeout]
    rcases hf : futures[f]? with _ | fut
    · exact ih futures hnd' fun e he => h e (.tail _ he)
    · have hset := map_set_of_eq hf fut.stepTimeout_untimed
      dsimp only
      split
      · obtain ⟨h1, h2, h3⟩ := ih (futures.set f fut.stepTimeout.1) hnd'
          (lookup_of_iterators_erase hnd h)
        refine ⟨?_, fun k' f' hk' => lookup_of_erase (h2 k' f' hk'), h3.trans hset⟩
        rw [values_of_lookup (h _ (.head _)), h1]
        rfl
      · obtain ⟨h1, h2, h3⟩ := ih (futures.set f fut.stepTimeout.1) hnd'
          fun e he => h e (.tail _ he)
        exact ⟨h1, h2, h3.trans hset⟩

/-- **The futures that time out** are those whose time is up, each judged by its own time. -/
theorem stepTimeout_timedout (t : Reqtable) (futures : List Future) {it : List Entry}
    (hnd : (it.map Sigma.snd).Nodup) :
    (t.stepTimeout futures it).1 = (it.map Sigma.snd).filter fun f =>
      (futures[f]?.map fun fut => fut.stepTimeout.2).getD false := by
  induction it generalizing t futures with
  | nil => rfl
  | cons e it ih =>
    obtain ⟨k, f⟩ := e
    obtain ⟨hf, hnd⟩ := List.nodup_cons.1 hnd
    -- setting the time of `f` is not seen by the futures that follow
    have hset (fut : Future) : (it.map Sigma.snd).filter (fun g =>
        (((futures.set f fut)[g]?).map fun fut => fut.stepTimeout.2).getD false) =
          (it.map Sigma.snd).filter fun g =>
            (futures[g]?.map fun fut => fut.stepTimeout.2).getD false := by
      refine List.filter_congr fun g hg => ?_
      rw [List.getElem?_set_ne]
      rintro rfl
      exact hf hg
    rw [stepTimeout, List.map_cons, List.filter_cons]
    rcases hl : futures[f]? with _ | fut
    · simpa using ih t futures hnd
    · dsimp only
      cases hout : fut.stepTimeout.2 with
      | true => simpa [hout, hset] using ih (t.erase k) (futures.set f fut.stepTimeout.1) hnd
      | false => simpa [hout, hset] using ih t (futures.set f fut.stepTimeout.1) hnd

/-- The time of the futures that it visits is stepped once, and that of no other. -/
theorem stepTimeout_futures (t : Reqtable) (futures : List Future) {it : List Entry}
    (hnd : (it.map Sigma.snd).Nodup) (g : FutureId) :
    (t.stepTimeout futures it).2.2[g]? =
      futures[g]?.map fun fut => if g ∈ it.map Sigma.snd then fut.stepTimeout.1 else fut := by
  induction it generalizing t futures with
  | nil => simp [stepTimeout]
  | cons e it ih =>
    obtain ⟨k, f⟩ := e
    obtain ⟨hf, hnd⟩ := List.nodup_cons.1 hnd
    dsimp only at hf
    rw [stepTimeout]
    rcases hl : futures[f]? with _ | fut
    · rw [ih t futures hnd]
      by_cases hg : g = f
      · subst hg
        simp [hl]
      · simp [hg]
    · have hset : (futures.set f fut.stepTimeout.1)[g]?.map (fun fut =>
          if g ∈ it.map Sigma.snd then fut.stepTimeout.1 else fut) = futures[g]?.map fun fut =>
            if g ∈ f :: it.map Sigma.snd then fut.stepTimeout.1 else fut := by
        by_cases hg : g = f
        · subst hg
          rw [List.getElem?_set_self (List.getElem?_eq_some_iff.1 hl).1, hl]
          simp [hf]
        · rw [List.getElem?_set_ne (Ne.symm hg)]
          simp [hg]
      dsimp only
      split
      · exact (ih (t.erase k) _ hnd).trans hset
      · exact (ih t _ hnd).trans hset

end Reqtable

end MsgpackRpc
