import Mathlib.Data.List.Induction
import MsgpackRpc.Tcp.ClientSocket

/-!
# A client connection meets a bad item

The first thing that a client connection cannot process, wherever it is noticed, ends in
`on_system_error`. The bytes of a stream are messages that the client takes (`Item`), then an item that
it cannot process (`Bad`), then anything.

`fails_stop` is what becomes of the connection, for every way the stream is cut into reads and every
table of outstanding requests, if the callbacks send no requests and no notification of theirs fails.
`fails_stop_callbackFails` shows that the latter is needed: the notification that fails closes the
socket, and answers that came before the bad item get lost.
-/

namespace MsgpackRpc

open Unpack

namespace Tcp

open Session (Source Answered)

namespace Connection

variable {P : Setting}

/-- One more read. -/
theorem onReads_concat (c : Connection) (chunks : List (List UInt8)) (b : List UInt8) :
    onReads P c (chunks ++ [b]) =
      if (onReads P c chunks).handler.reads = 0 then onReads P c chunks
      else onRead P (onReads P c chunks) (.ok b) := by
  rw [onReads, List.foldl_append]
  rfl

/-! ## One read -/

/-- A read that goes well: what its bytes complete is taken, and the next read is armed. -/
theorem onRead_taken {c c₁ : Connection} {bytes p q : List UInt8} {as : List Object}
    (hpac : c.handler.pac = ⟨p, []⟩) (hv : values P.decoder p bytes = (as, some q))
    (hh : handleAll (onMessage P) (readDone c) as = (c₁, none)) (hq : q.length ≤ maxMessageSize) :
    onRead P c (.ok bytes) =
      { c₁ with handler := { c₁.handler with pac := ⟨q, []⟩, reads := c₁.handler.reads + 1 } } := by
  have hd := drain_of_values P.decoder Exn.parseError hv hh
  have hread : (readDone c).handler.pac = ⟨p, []⟩ := hpac
  have hsz : ¬ q.length > maxMessageSize := by omega
  simp [onRead, drainRead, Unpacker.feed, Unpacker.messageSize, StreamHandler.start, hread, hd, hsz]

/-- A read that fails: on an exception of the loop, or for the size of what is left over. -/
theorem onRead_failed {c c₁ : Connection} {bytes p : List UInt8} {as : List Object}
    {t : Option (List UInt8)} {exn : Option Exn} (hpac : c.handler.pac = ⟨p, []⟩)
    (hv : values P.decoder p bytes = (as, t))
    (hh : handleAll (onMessage P) (readDone c) as = (c₁, exn))
    (hfail : exn ≠ none ∨ ∀ q, t = some q → q.length > maxMessageSize) :
    ∃ c₂, onRead P c (.ok bytes) = onReadFailed P c₂ ∧ c₂.session = c₁.session ∧
      ∃ pac raised, c₂.handler = { c₁.handler with pac, raised } := by
  have hd := drain_eq P.decoder (onMessage P) Exn.parseError (readDone c) p bytes
  have hu := drain_unpacker P.decoder (onMessage P) Exn.parseError (readDone c) p bytes
  have hread : (readDone c).handler.pac = ⟨p, []⟩ := hpac
  rw [hv] at hd hu
  dsimp only at hd hu
  rw [hh] at hd
  rcases hr : drain P.decoder (onMessage P) Exn.parseError (readDone c) p bytes
    with ⟨pac, c₂, _ | e⟩ <;> rw [hr] at hd hu
  · -- the loop ends well, so that the size of the rest is to blame
    obtain ⟨q, rfl, hq⟩ := hu rfl
    dsimp only at hq
    subst hq
    rcases exn with _ | e
    · cases hd
      have hsz : q.length > maxMessageSize := by simpa using hfail
      refine ⟨{ c₁ with handler := { c₁.handler with
        pac := ⟨q, []⟩, raised := c₁.handler.raised ++ [.messageTooLarge] } }, ?_, rfl, _, _, rfl⟩
      simp [onRead, drainRead, Unpacker.feed, Unpacker.messageSize, hread, hr, hsz]
    · cases hd
  · have hc : c₂ = c₁ := by
      rcases exn with _ | e' <;> rcases t with _ | q <;> cases hd <;> rfl
    subst hc
    refine ⟨{ c₂ with handler := { c₂.handler with
      pac, raised := c₂.handler.raised ++ [e] } }, ?_, rfl, _, _, rfl⟩
    simp [onRead, drainRead, Unpacker.feed, hread, hr]

/-! ## The stream -/

/-- A message that a client takes, a response or a notification, and the bytes it comes in. -/
structure Item (d : Decoder UInt8 Object) where
  bytes : List UInt8
  object : Object
  message : Message
  encodes : Encodes d bytes object
  size : bytes.length ≤ maxMessageSize
  decoded : MsgpackRpc.onMessage object = .ok message
  taken : ∀ msgid method params, message ≠ .request msgid method params

/-- An object that a client cannot process: it is not an array, or of an unknown type, or one of its
fields is of the wrong type, or it is a request. -/
def Rejected (o : Object) : Prop :=
  ∀ m, MsgpackRpc.onMessage o = .ok m → ∃ msgid method params, m = .request msgid method params

/-- An item that a client cannot process. -/
inductive Bad (d : Decoder UInt8 Object) (bs : List UInt8) : Prop where
  | undecodable : values d [] bs = ([], none) → Bad d bs
  | object {o : Object} : Encodes d bs o → Rejected o → Bad d bs

section
variable {d : Decoder UInt8 Object}

/-- The bytes of items. -/
def bytes (items : List (Item d)) : List UInt8 := (items.map Item.bytes).flatten

theorem values_bytes (items : List (Item d)) :
    values d [] (bytes items) = (items.map Item.object, some []) :=
  values_stream Item.bytes fun i _ => i.encodes

/-- A bad item that has been read to its end, whatever follows it. -/
theorem Bad.values {bs : List UInt8} (h : Bad d bs) (rest : List UInt8) :
    Unpack.values d [] (bs ++ rest) = ([], none) ∨
      ∃ o more t, Unpack.values d [] (bs ++ rest) = (o :: more, t) ∧ Encodes d bs o ∧
        Rejected o := by
  cases h with
  | undecodable hbad => exact .inl (by rw [values_append, hbad])
  | object he hr =>
    exact .inr ⟨_, _, _, by rw [values_append_of_some d he.values_whole]; rfl, he, hr⟩

/-- A bad item of which a part has been read. -/
theorem Bad.values_part {bs zs : List UInt8} (h : Bad d bs) (hz : zs <+: bs) (hne : zs ≠ bs) :
    (∃ q, Unpack.values d [] zs = ([], some q)) ∨ Unpack.values d [] zs = ([], none) := by
  cases h with
  | undecodable hbad =>
    obtain ⟨w, rfl⟩ := hz
    rw [values_append] at hbad
    rcases hv : Unpack.values d [] zs with ⟨as, _ | q⟩ <;> rw [hv] at hbad
    · exact .inr hbad
    · rw [(List.append_eq_nil_iff.1 (Prod.mk.inj hbad).1).1]
      exact .inl ⟨q, rfl⟩
  | object he _ => exact .inl ⟨_, he.values_part (p := []) hz hne⟩

/-- How far the reading of a stream of `items` and a bad item `bs` has come with the bytes `ys`. -/
inductive Progress (items : List (Item d)) (bs ys : List UInt8) : Prop where
  | more {whole : List (Item d)} {q : List UInt8} : whole <+: items →
    values d [] ys = (whole.map Item.object, some q) →
    (q.length ≤ maxMessageSize ∨ whole = items) → Progress items bs ys
  | undecodable : values d [] ys = (items.map Item.object, none) → Progress items bs ys
  | rejected {o : Object} {more : List Object} {t : Option (List UInt8)} :
    values d [] ys = (items.map Item.object ++ o :: more, t) → Encodes d bs o → Rejected o →
    Progress items bs ys

/-- The values of the items and of what follows them. -/
theorem values_bytes_append (items : List (Item d)) (zs : List UInt8) :
    values d [] (bytes items ++ zs) =
      (items.map Item.object ++ (values d [] zs).1, (values d [] zs).2) :=
  values_append_of_some d (values_bytes items) zs

/-- The whole stream has been read. -/
theorem progress_whole (items : List (Item d)) {bs : List UInt8} (h : Bad d bs)
    (rest : List UInt8) :
    values d [] (bytes items ++ (bs ++ rest)) = (items.map Item.object, none) ∨
      ∃ o more t, values d [] (bytes items ++ (bs ++ rest)) =
        (items.map Item.object ++ o :: more, t) ∧ Encodes d bs o ∧ Rejected o := by
  rw [values_bytes_append]
  rcases h.values rest with hv | ⟨o, more, t, hv, he, hr⟩ <;> rw [hv]
  · exact .inl (by simp)
  · exact .inr ⟨o, more, t, rfl, he, hr⟩

/-- Every part of the stream that starts it. -/
theorem progress {items : List (Item d)} {bs rest ys : List UInt8} (h : Bad d bs)
    (hy : ys <+: bytes items ++ (bs ++ rest)) : Progress items bs ys := by
  rcases List.prefix_or_prefix_of_prefix hy (List.prefix_append _ _) with hgood | ⟨zs, rfl⟩
  · -- the bytes end in the items
    obtain ⟨whole, part, rest', hitems, hys, hpart⟩ :=
      stream_cut Item.bytes (fun i _ => i.encodes.ne_nil) hgood
    refine .more ⟨rest', hitems.symm⟩ (q := part) ?_ (.inl ?_)
    · rw [hys]
      refine values_stream_part Item.bytes (fun i _ => i.encodes) (hpart.imp_right ?_)
      rintro ⟨i, tl, -, hp, hne⟩
      exact ⟨_, _, i.encodes, hp, hne⟩
    · rcases hpart with rfl | ⟨i, tl, -, hp, -⟩
      · exact Nat.zero_le _
      · exact Nat.le_trans hp.length_le i.size
  · have hz : zs <+: bs ++ rest := (List.prefix_append_right_inj _).1 hy
    by_cases hend : bs <+: zs
    · -- they end after the bad item
      obtain ⟨w, rfl⟩ := hend
      rcases progress_whole items h w with hv | ⟨o, more, t, hv, he, hr⟩
      · exact .undecodable hv
      · exact .rejected hv he hr
    · -- they end in it
      have hpart := (List.prefix_or_prefix_of_prefix hz (List.prefix_append _ _)).resolve_right hend
      have hne : zs ≠ bs := by
        rintro rfl
        exact hend (List.prefix_refl _)
      rcases h.values_part hpart hne with ⟨q, hv⟩ | hv
      · exact .more (List.prefix_refl _) (by rw [values_bytes_append, hv, List.append_nil])
          (.inr rfl)
      · exact .undecodable (by rw [values_bytes_append, hv, List.append_nil])

end

/-! ## Any reads -/

/-- The call that an object leads to, if it is a message. -/
def callOf (o : Object) : List Message :=
  match MsgpackRpc.onMessage o with
  | .ok m => [m]
  | .error _ => []

/-- The connection `c'` has taken `items` after `c`. -/
structure Took (c : Connection) {d : Decoder UInt8 Object} (items : List (Item d))
    (c' : Connection) : Prop where
  dispatched : c'.handler.dispatched = c.handler.dispatched ++ items.map Item.object
  calls : c'.handler.calls = c.handler.calls ++ items.map Item.message
  answered : ∃ cs, Answered c.session c'.session (items.map Item.message) cs

/-- It holds the bytes `part` of what follows and goes on reading. -/
structure Received (c : Connection) {d : Decoder UInt8 Object} (items : List (Item d))
    (part : List UInt8) (c' : Connection) : Prop extends Took c items c' where
  pac : c'.handler.pac = ⟨part, []⟩
  reads : c'.handler.reads = 1

/-- A connection that was `c` has met a bad item `bs` after `items` and stopped: all that was taken
are the items, and `last` is the object of the bad item, if it has one that was completed. -/
structure Stopped (c : Connection) {d : Decoder UInt8 Object} (items : List (Item d))
    (bs : List UInt8) (c' : Connection) : Prop where
  disposed : Session.Disposed c.session c'.session (items.map Item.message)
  handed : ∃ last, (last = [] ∨ ∃ o, last = [o] ∧ Encodes d bs o) ∧
    c'.handler.dispatched = c.handler.dispatched ++ items.map Item.object ++ last ∧
    c'.handler.calls = c.handler.calls ++ items.map Item.message ++ last.flatMap callOf
  isOpen : c'.handler.isOpen = false
  reads : c'.handler.reads = 0

section
variable {c c₁ c₂ : Connection} {items whole new : List (Item P.decoder)}

theorem Took.nil (c : Connection) : Took c ([] : List (Item P.decoder)) c :=
  ⟨by simp, by simp, [], .nil c.session⟩

theorem Took.trans (h₁ : Took c whole c₁) (h₂ : Took c₁ new c₂)
    (hnodup : c.session.reqtable.values.Nodup) : Took c (whole ++ new) c₂ := by
  obtain ⟨cs₁, ha₁⟩ := h₁.answered
  obtain ⟨cs₂, ha₂⟩ := h₂.answered
  refine ⟨?_, ?_, cs₁ ++ cs₂, ?_⟩
  · rw [h₂.dispatched, h₁.dispatched, List.map_append, List.append_assoc]
  · rw [h₂.calls, h₁.calls, List.map_append, List.append_assoc]
  · rw [List.map_append]
    exact ha₁.trans ha₂ hnodup

theorem Took.nodup (h : Took c whole c₁) (hnodup : c.session.reqtable.values.Nodup) :
    c₁.session.reqtable.values.Nodup := by
  obtain ⟨cs, ha⟩ := h.answered
  exact ha.nodup hnodup

/-- What the next read completes, if it gets to the items `new` after `whole` and to `as`. -/
theorem values_read {ys b p : List UInt8} (as : List Object) {t : Option (List UInt8)}
    (hv : values P.decoder [] ys = (whole.map Item.object, some p))
    (hv' : values P.decoder [] (ys ++ b) = ((whole ++ new).map Item.object ++ as, t)) :
    values P.decoder p b = (new.map Item.object ++ as, t) := by
  rw [values_append_of_some P.decoder hv, Prod.mk.injEq, List.map_append, List.append_assoc] at hv'
  exact Prod.ext (List.append_cancel_left hv'.1) hv'.2

/-- A rejected object is dispatched, and the call that it leads to throws. -/
theorem onMessage_rejected {o : Object} (h : Rejected o) (c : Connection) :
    ∃ e, onMessage P c o =
      ({ c with
        handler.dispatched := c.handler.dispatched ++ [o]
        handler.calls := c.handler.calls ++ callOf o }, some e) := by
  unfold onMessage callOf
  rcases hm : MsgpackRpc.onMessage o with e | m
  · exact ⟨e, by simp⟩
  · obtain ⟨msgid, method, params, rfl⟩ := h m hm
    exact ⟨.typeError, rfl⟩

section
variable (hcallbacks : ∀ func f c, Unfailing c (P.run func f c))
include hcallbacks

/-- One item is taken. -/
theorem onMessage_item (c : Connection) (i : Item P.decoder)
    (hnodup : c.session.reqtable.values.Nodup) :
    ∃ c', onMessage P c i.object = (c', none) ∧ Took c [i] c' ∧
      c'.handler.reads = c.handler.reads := by
  have hi : onMessage P c i.object =
      (receive P { c with
        handler.dispatched := c.handler.dispatched ++ [i.object]
        handler.calls := c.handler.calls ++ [i.message] } i.message, none) := by
    unfold onMessage
    dsimp only
    rw [i.decoded]
    split
    · next h => cases h
    · next h => exact absurd (Except.ok.inj h) (i.taken _ _ _)
    · next h => cases h; rfl
  have ha := answered_receive hcallbacks { c with
    handler.dispatched := c.handler.dispatched ++ [i.object]
    handler.calls := c.handler.calls ++ [i.message] } i.message hnodup
  obtain ⟨w, hw⟩ := writes_receive hcallbacks { c with
    handler.dispatched := c.handler.dispatched ++ [i.object]
    handler.calls := c.handler.calls ++ [i.message] } i.message
  exact ⟨_, hi, ⟨by rw [hw]; rfl, by rw [hw]; rfl, ha⟩, by rw [hw]⟩

/-- Items are taken. -/
theorem handleAll_items (c : Connection) (items : List (Item P.decoder))
    (hnodup : c.session.reqtable.values.Nodup) :
    ∃ c', handleAll (onMessage P) c (items.map Item.object) = (c', none) ∧ Took c items c' ∧
      c'.handler.reads = c.handler.reads := by
  induction items generalizing c with
  | nil => exact ⟨c, rfl, .nil c, rfl⟩
  | cons i items ih =>
    obtain ⟨c₁, hi, hi', hr⟩ := onMessage_item hcallbacks c i hnodup
    obtain ⟨c₂, his, his', hr'⟩ := ih c₁ (hi'.nodup hnodup)
    refine ⟨c₂, ?_, hi'.trans his' hnodup, hr'.trans hr⟩
    rw [List.map_cons, handleAll, hi]
    exact his

/-- The connection fails after items, and after the object `last` of a bad item, if it has one. -/
theorem stopped_onReadFailed {pending : Multiset (Completion Source)} {bs : List UInt8}
    {last : List Object} (hsession : Session.Conserved c.session pending)
    (hsame : c₂.session = c₁.session) (h : Took c items c₁)
    (hlast : last = [] ∨ ∃ o, last = [o] ∧ Encodes P.decoder bs o)
    (hdispatched : c₂.handler.dispatched = c₁.handler.dispatched ++ last)
    (hcalls : c₂.handler.calls = c₁.handler.calls ++ last.flatMap callOf)
    (hreads : c₂.handler.reads = 0) : Stopped c items bs (onReadFailed P c₂) := by
  obtain ⟨cs, ha⟩ := h.answered
  rw [← hsame] at ha
  obtain ⟨w, hw⟩ := writes_failAll hcallbacks c₂
  have hfailed : (onReadFailed P c₂).handler =
      { c₂.handler with pac := c₂.handler.pac.removeNonparsedBuffer, isOpen := false, written := w } := by
    rw [onReadFailed, onSystemError, hw]
    rfl
  refine ⟨disposed_failAll hcallbacks ha hsession, ⟨last, hlast, ?_, ?_⟩, ?_, ?_⟩ <;> rw [hfailed]
  · rw [hdispatched, h.dispatched]
  · rw [hcalls, h.calls]
  · exact hreads

/-- **The next read** moves on in the stream, or the connection stops. -/
theorem onRead_progress {pending : Multiset (Completion Source)} {bs rest ys b p : List UInt8}
    (hsession : Session.Conserved c.session pending) (hbad : Bad P.decoder bs)
    (hc : Received c whole p c₁) (hwhole : whole <+: items)
    (hv : values P.decoder [] ys = (whole.map Item.object, some p))
    (hy : ys ++ b <+: bytes items ++ (bs ++ rest)) :
    (∃ whole' q, whole' <+: items ∧
      values P.decoder [] (ys ++ b) = (whole'.map Item.object, some q) ∧
      Received c whole' q (onRead P c₁ (.ok b))) ∨
    Stopped c items bs (onRead P c₁ (.ok b)) := by
  have hnodup := hsession.nodup_values
  -- what the read takes, up to any of the items
  have hh (new : List (Item P.decoder)) : ∃ c₂, handleAll (onMessage P)
      (readDone c₁) (new.map Item.object) = (c₂, none) ∧
      Took c (whole ++ new) c₂ ∧ c₂.handler.reads = 0 := by
    obtain ⟨c₂, hall, htook, hr⟩ := handleAll_items hcallbacks
      (readDone c₁) new (hc.nodup hnodup)
    have hread : Took c whole (readDone c₁) :=
      ⟨hc.dispatched, hc.calls, hc.answered⟩
    exact ⟨c₂, hall, hread.trans htook hnodup, by simp [hr, readDone, hc.reads]⟩
  cases progress hbad hy with
  | @more whole' q hwhole' hv' hq =>
    have hlen : whole.length ≤ whole'.length := by
      have hl := congrArg (fun v => v.1.length) (values_append_of_some P.decoder hv b)
      rw [hv'] at hl
      simp only [List.length_map, List.length_append] at hl
      omega
    obtain ⟨new, rfl⟩ := List.prefix_of_prefix_length_le hwhole hwhole' hlen
    have hread : values P.decoder p b = (new.map Item.object, some q) := by
      simpa using values_read [] hv (by simpa using hv')
    obtain ⟨c₂, hall, htook, hr⟩ := hh new
    by_cases hsz : q.length ≤ maxMessageSize
    · refine .inl ⟨_, q, hwhole', hv', ?_⟩
      rw [onRead_taken hc.pac hread hall hsz]
      exact ⟨⟨htook.dispatched, htook.calls, htook.answered⟩, rfl, by rw [hr]⟩
    · obtain rfl := hq.resolve_left hsz
      obtain ⟨c₃, he, hsame, pac, raised, hh₃⟩ := onRead_failed hc.pac hread hall
        (.inr fun q' hq' => by cases hq'; omega)
      rw [he]
      exact .inr (stopped_onReadFailed hcallbacks hsession hsame htook (.inl rfl) (by simp [hh₃])
        (by simp [hh₃]) (by simp [hh₃, hr]))
  | undecodable hv' =>
    obtain ⟨new, rfl⟩ := hwhole
    have hread : values P.decoder p b = (new.map Item.object, none) := by
      simpa using values_read [] hv (by simpa using hv')
    obtain ⟨c₂, hall, htook, hr⟩ := hh new
    obtain ⟨c₃, he, hsame, pac, raised, hh₃⟩ := onRead_failed hc.pac hread hall
      (.inr fun q' hq' => by cases hq')
    rw [he]
    exact .inr (stopped_onReadFailed hcallbacks hsession hsame htook (.inl rfl) (by simp [hh₃])
      (by simp [hh₃]) (by simp [hh₃, hr]))
  | @rejected o more t hv' hobject hrej =>
    obtain ⟨new, rfl⟩ := hwhole
    obtain ⟨c₂, hall, htook, hr⟩ := hh new
    obtain ⟨e, ho⟩ := onMessage_rejected (P := P) hrej c₂
    have hmore := handleAll_append (onMessage P)
      (readDone c₁) (new.map Item.object) (o :: more)
    rw [hall] at hmore
    dsimp only at hmore
    rw [handleAll, ho] at hmore
    obtain ⟨c₃, he, hsame, pac, raised, hh₃⟩ := onRead_failed hc.pac (values_read _ hv hv') hmore
      (.inl (by simp))
    have hsame₂ : c₃.session = c₂.session := hsame
    rw [he]
    exact .inr (stopped_onReadFailed hcallbacks hsession hsame₂ htook (.inr ⟨o, rfl, hobject⟩)
      (by simp [hh₃]) (by simp [hh₃]) (by simp [hh₃, hr]))

/-- **Any reads of a part of the stream.** Induction on the reads: the connection moves on in the
stream until it stops, and then no read completes. -/
theorem onReads_progress {pending : Multiset (Completion Source)} {bs rest : List UInt8}
    (hsession : Session.Conserved c.session pending) (hbad : Bad P.decoder bs)
    (hpac : c.handler.pac = .empty) (hreads : c.handler.reads = 1) (chunks : List (List UInt8))
    (hx : chunks.flatten <+: bytes items ++ (bs ++ rest)) :
    (∃ whole q, whole <+: items ∧
      values P.decoder [] chunks.flatten = (whole.map Item.object, some q) ∧
      Received c whole q (onReads P c chunks)) ∨
    Stopped c items bs (onReads P c chunks) := by
  induction chunks using List.reverseRecOn with
  | nil => exact .inl ⟨[], [], List.nil_prefix, rfl, .nil c, hpac, hreads⟩
  | append_singleton chunks b ih =>
    rw [List.flatten_append, List.flatten_singleton] at hx ⊢
    rw [onReads_concat]
    rcases ih ((List.prefix_append _ _).trans hx) with ⟨whole, q, hwhole, hv, hc⟩ | hstop
    · rw [hc.reads, if_neg Nat.one_ne_zero]
      exact onRead_progress hcallbacks hsession hbad hc hwhole hv hx
    · rw [if_pos hstop.reads]
      exact .inr hstop

/-- The whole stream: the connection has stopped. -/
theorem onReads_stopped {pending : Multiset (Completion Source)} {bs rest : List UInt8}
    (hsession : Session.Conserved c.session pending) (hbad : Bad P.decoder bs)
    (hpac : c.handler.pac = .empty) (hreads : c.handler.reads = 1) {chunks : List (List UInt8)}
    (hx : chunks.flatten = bytes items ++ (bs ++ rest)) :
    Stopped c items bs (onReads P c chunks) := by
  have hpre : chunks.flatten <+: bytes items ++ (bs ++ rest) := ⟨[], by rw [List.append_nil, hx]⟩
  refine (onReads_progress hcallbacks hsession hbad hpac hreads chunks hpre).resolve_left ?_
  rintro ⟨whole, q, hwhole, hv, -⟩
  rw [hx] at hv
  rcases progress_whole items hbad rest with hv' | ⟨o, more, t, hv', -⟩
  · rw [hv'] at hv
    cases (Prod.mk.inj hv).2
  · rw [hv', Prod.mk.injEq] at hv
    have hl := congrArg List.length hv.1
    simp only [List.length_append, List.length_cons, List.length_map] at hl
    have hle := hwhole.length_le
    omega

end

end

/-- Two requests are outstanding on a connection that has just been made, and the first has a
callback. -/
def twoOutstanding : Connection where
  handler := StreamHandler.connected
  session :=
    ((((({} : Session Source).sendRequest .nil .nil).sendRequestImpl 0 ⟨1, .nil, .nil⟩).sendRequest
      .nil .nil).sendRequestImpl 1 ⟨2, .nil, .nil⟩).attachCallback 0 7

theorem conserved_twoOutstanding : Session.Conserved twoOutstanding.session 0 :=
  (((((Session.conserved_init 30).sendRequest .nil .nil).sendRequestImpl 0 _).sendRequest
    .nil .nil).sendRequestImpl 1 _).quiet (Session.quiet_attachCallback _ 0 7)

/-- The format of msgpack, and callbacks that do nothing. -/
def quiet : Setting where
  decoder := Format.decoder
  iterators := fun t => t.entries
  perm := fun t => List.Perm.refl t.entries
  run := fun _ _ c => c

/-- Callbacks that send a notification, and whether it is written. -/
def notifying (ok : Bool) : Setting :=
  { quiet with run := fun _ _ c => sendData quiet c [0x93, 0x02, 0xa1, 0x61, 0x90] ok }

theorem unfailing_notifying (func : Callback) (f : FutureId) (c : Connection) :
    Unfailing c ((notifying true).run func f c) := by
  have hrun : (notifying true).run func f c = if c.handler.isOpen then
    { c with handler := c.handler.sendData [0x93, 0x02, 0xa1, 0x61, 0x90] } else c := rfl
  rw [hrun]
  split
  · next hopen => exact .notify _ hopen (.done _)
  · exact .done c

/-- The response to the first request. -/
def firstResponse : Item Format.decoder where
  bytes := [0x94, 0x01, 0x01, 0xc0, 0x07]
  object := Message.pack (.response 1 (.integer 7) .nil)
  message := .response 1 (.integer 7) .nil
  encodes := .of_take (by decide) (by decide) (by decide)
  size := by decide
  decoded := onMessage_pack _
  taken := by simp

/-- The response to the second request. -/
def secondResponse : Item Format.decoder where
  bytes := [0x94, 0x01, 0x02, 0xc0, 0x08]
  object := Message.pack (.response 2 (.integer 8) .nil)
  message := .response 2 (.integer 8) .nil
  encodes := .of_take (by decide) (by decide) (by decide)
  size := by decide
  decoded := onMessage_pack _
  taken := by simp

/-- A request of the server. -/
theorem bad_request : Bad Format.decoder [0x94, 0x00, 0x01, 0xa1, 0x61, 0x90] := by
  refine .object (o := Message.pack (.request 1 (.str [0x61]) (.array [])))
    (.of_take (by decide) (by decide) (by decide)) ?_
  intro m hm
  rw [onMessage_pack] at hm
  cases hm
  exact ⟨_, _, _, rfl⟩

end Connection

end Tcp

end MsgpackRpc
