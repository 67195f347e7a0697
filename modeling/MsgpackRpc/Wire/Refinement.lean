import MsgpackRpc.Lib.Channel
import MsgpackRpc.Lib.Simulation
import MsgpackRpc.Link.Machine
import MsgpackRpc.Session.Origins
import MsgpackRpc.Wire.Machine

/-!
# The bytes carry the messages

Every run of the connection is a run of the link, in which the two sides exchange whole messages
(`Represents`). While an end is reading, what its unpacker holds and the bytes on their way to it are
the messages that the link has in the stream in that direction, and then, once a write of the other
end has failed or its socket is closed, a part of a message that is never finished (`Flow`). So the
messages come out as they were written, and none of them can be misread (`represents_exec`).
-/

namespace MsgpackRpc

open Threads Unpack Relation

namespace Wire

/-! ## Ends -/

@[simp] theorem End.peer_peer (e : End) : e.peer.peer = e := by cases e <;> rfl

@[simp] theorem End.peer_ne (e : End) : e.peer ≠ e := by cases e <;> decide

theorem End.eq_or_peer (e e' : End) : e' = e ∨ e' = e.peer := by cases e <;> cases e' <;> decide

section
variable (s : State) (e : End) (f : Side → Side)

@[simp] theorem onSide_self : (s.onSide e f).side e = f (s.side e) := Function.update_self ..

@[simp] theorem onSide_peer : (s.onSide e f).side e.peer = s.side e.peer :=
  Function.update_of_ne e.peer_ne ..

theorem onSide_of_peer : (s.onSide e.peer f).side e = s.side e := by
  simpa using onSide_peer s e.peer f

@[simp] theorem onSide_session : (s.onSide e f).session = s.session := rfl

@[simp] theorem onSide_requests : (s.onSide e f).requests = s.requests := rfl

theorem onSide_onSide (g : Side → Side) : (s.onSide e f).onSide e g = s.onSide e (g ∘ f) := by
  simp [State.onSide]

end

/-! ## One direction -/

/-- The messages that an end writes. -/
def sends : End → Message → Bool
  | .client, .request .. | .client, .notify .. | .server, .response .. => true
  | _, _ => false

/-- The messages that the link has in its streams: it leaves out the notifications. -/
def isCall : Message → Bool
  | .notify .. => false
  | _ => true

/-- The end `e`, whose side is `a`, has written messages of which an end with the unpacker `u` will
read `ms`. The others, `lost`, were sent after its socket had been closed or a write had failed.
Without the notifications they are what the link has in the stream. -/
def Flow (d : Decoder UInt8 Object) (e : End) (a : Side) (u : Unpacker UInt8)
    (queue : List Object) : Prop :=
  ∃ (ms lost : List Message) (part : List UInt8),
    Carries d u a.unread (ms.map Message.pack) part ∧ (∀ m ∈ ms, sends e m = true) ∧
      queue = ((ms ++ lost).filter isCall).map Message.pack ∧
      a.taken ≤ a.handler.written.length ∧
      (a.handler.isOpen = true → a.broken = false → lost = [] ∧ part = [])

section
variable {d : Decoder UInt8 Object} {e : End} {a : Side} {u : Unpacker UInt8} {queue : List Object}

theorem flow_init : Flow d e {} .empty [] := ⟨[], [], [], rfl, by simp, rfl, Nat.le_refl _, by simp⟩

/-- What of an end its writing direction depends on. -/
structure SameWriter (a a' : Side) : Prop where
  written : a'.handler.written = a.handler.written
  isOpen : a'.handler.isOpen = a.handler.isOpen
  broken : a'.broken = a.broken
  taken : a'.taken = a.taken

theorem Flow.congr {a' : Side} (h : Flow d e a u queue) (hs : SameWriter a a') :
    Flow d e a' u queue := by
  obtain ⟨ms, lost, part, hc, hm, hq, hle, hw⟩ := h
  refine ⟨ms, lost, part, ?_, hm, hq, ?_, ?_⟩
  · rwa [Side.unread, hs.written, hs.taken]
  · rwa [hs.written, hs.taken]
  · rwa [hs.isOpen, hs.broken]

/-- The socket is closed. -/
theorem Flow.close (h : Flow d e a u queue) :
    Flow d e { a with handler := a.handler.onSystemError } u queue := by
  obtain ⟨ms, lost, part, hc, hm, hq, hle, -⟩ := h
  exact ⟨ms, lost, part, hc, hm, hq, hle, nofun⟩

/-- Some bytes are read. -/
theorem Flow.read (h : Flow d e a u queue) {n : Nat} (hn : n ≤ a.unread.length) :
    Flow d e { a with taken := a.taken + n } (u.feed (a.unread.take n)) queue := by
  obtain ⟨ms, lost, part, hc, hm, hq, hle, hw⟩ := h
  rw [Side.unread, List.length_drop] at hn
  refine ⟨ms, lost, part, Carries.read ?_, hm, hq, ?_, hw⟩
  · have hcut : a.unread.take n ++ { a with taken := a.taken + n }.unread = a.unread := by
      rw [Side.unread, Side.unread, ← List.drop_drop]
      exact List.take_append_drop n _
    rwa [hcut]
  · show a.taken + n ≤ a.handler.written.length
    omega

/-- How a write of a message changes an end. -/
inductive Writes (e : End) (a : Side) (bytes : List UInt8) : Side → List Op → Prop where
  | closed {k : List Op} : a.handler.isOpen = false → k = [] ∨ k = onSystemError e →
    Writes e a bytes a k
  | cut (n : Nat) : a.handler.isOpen = true → n < bytes.length → (a.broken = true → n = 0) →
    Writes e a bytes { a with handler := a.handler.sendData (bytes.take n), broken := true }
      (onSystemError e)
  | whole : a.handler.isOpen = true → a.broken = false →
    Writes e a bytes { a with handler := a.handler.sendData bytes } []

theorem sendData_written {h : StreamHandler} (hopen : h.isOpen = true) (bytes : List UInt8) :
    h.sendData bytes = { h with written := h.written ++ bytes } := by
  rw [StreamHandler.sendData, if_pos hopen]

/-- What is to be read after a write that puts some bytes out. -/
theorem unread_append {a a' : Side} (hle : a.taken ≤ a.handler.written.length) {bytes : List UInt8}
    (hw : a'.handler.written = a.handler.written ++ bytes) (ht : a'.taken = a.taken) :
    a'.unread = a.unread ++ bytes := by
  rw [Side.unread, Side.unread, hw, ht, List.drop_append_of_le_length hle]

/-- **A message is sent.** It is to be read, or it is lost, after a part of it or none. -/
theorem Flow.writes {m : Message} {bytes : List UInt8} {a' : Side} {k : List Op}
    (h : Flow d e a u queue) (he : Encodes d bytes m.pack) (hm : sends e m = true)
    (hw : Writes e a bytes a' k) :
    Flow d e a' u (queue ++ ([m].filter isCall).map Message.pack) := by
  obtain ⟨ms, lost, part, hc, hms, rfl, hle, hopen⟩ := h
  have hqueue (lost' : List Message) :
      ((ms ++ lost').filter isCall).map Message.pack ++ ([m].filter isCall).map Message.pack =
        ((ms ++ (lost' ++ [m])).filter isCall).map Message.pack := by
    rw [← List.append_assoc, List.filter_append _ [m], List.map_append]
  cases hw with
  | closed hclosed _ =>
    refine ⟨ms, lost ++ [m], part, hc, hms, hqueue lost, hle, fun ho => ?_⟩
    rw [hclosed] at ho
    cases ho
  | cut n ho hn hb =>
    have hunread : Side.unread { a with handler := a.handler.sendData (bytes.take n), broken := true }
        = a.unread ++ bytes.take n := unread_append hle (by rw [sendData_written ho]) rfl
    have hlen : a.taken ≤ (a.handler.sendData (bytes.take n)).written.length := by
      rw [sendData_written ho]
      show a.taken ≤ (a.handler.written ++ bytes.take n).length
      rw [List.length_append]
      omega
    cases hbroken : a.broken with
    | true =>
      refine ⟨ms, lost ++ [m], part, ?_, hms, hqueue lost, hlen, fun _ hne => by cases hne⟩
      rw [hunread, hb hbroken, List.take_zero, List.append_nil]
      exact hc
    | false =>
      obtain ⟨rfl, rfl⟩ := hopen ho hbroken
      refine ⟨ms, [m], bytes.take n, ?_, hms, hqueue [], hlen, fun _ hne => by cases hne⟩
      rw [hunread]
      refine hc.cut he (List.take_prefix n bytes) fun heq => ?_
      have := congrArg List.length heq
      rw [List.length_take] at this
      omega
  | whole ho hb =>
    obtain ⟨rfl, rfl⟩ := hopen ho hb
    refine ⟨ms ++ [m], [], [], ?_, ?_, ?_, ?_, fun _ _ => ⟨rfl, rfl⟩⟩
    · have hunread : Side.unread { a with handler := a.handler.sendData bytes } =
          a.unread ++ bytes := unread_append hle (by rw [sendData_written ho]) rfl
      rw [hunread, List.map_append]
      exact hc.write he
    · intro m' hm'
      rcases List.mem_append.1 hm' with hm' | hm'
      · exact hms m' hm'
      · rwa [List.mem_singleton.1 hm']
    · rw [hqueue, List.append_nil, List.nil_append]
    · rw [sendData_written ho]
      show a.taken ≤ (a.handler.written ++ bytes).length
      rw [List.length_append]
      omega

end

theorem write_cases {s s' : State} {e : End} {bytes : List UInt8} {x : Choice} {k : List Op}
    (h : write s e bytes x = some (s', k)) :
    ∃ a', Writes e (s.side e) bytes a' k ∧ s' = s.onSide e fun _ => a' := by
  unfold write at h
  have hself : s = s.onSide e fun _ => s.side e := by
    rw [State.onSide, Function.update_eq_self]
  split at h
  · next hclosed =>
    cases h
    refine ⟨s.side e, .closed hclosed ?_, hself⟩
    split
    · exact .inr rfl
    · exact .inl rfl
  · next hopen =>
    have hopen := Bool.eq_true_of_not_eq_false hopen
    split at h
    · split at h
      · next hx =>
        cases h
        exact ⟨_, .cut x.bytes hopen hx.1 hx.2, rfl⟩
      · cases h
    · split at h
      · cases h
      · next hb =>
        cases h
        exact ⟨_, .whole hopen (Bool.eq_false_of_not_eq_true hb), rfl⟩

/-! ## The relation -/

/-- What the link records of the completion of a future, without the number of the request. -/
def cause : Link.Origin → Cause
  | .response _ => .response
  | .stepTimer => .stepTimer
  | .failure => .failure

/-- A request of which it is not recorded which call it comes from. -/
def anonymous (req : RequestImpl) : RequestImpl := { req with sentBy := 0 }

/-- What is pending in a thread of the connection and in one of the link. -/
inductive Pending where
  | insert (c : Nat)
  | write (c : Nat)
  | complete (c : Completion Cause)
  deriving DecidableEq, Repr

/-- What an operation of the connection is to the link. -/
def Op.pending : Op → Option Pending
  | .sendRequestImpl c => some (.insert c)
  | .sendData c => some (.write c)
  | .setResult c => some (.complete c)
  | _ => none

/-- And what an operation of the link is to the connection. -/
def linkPending : Link.Op → Option Pending
  | .sendRequestImpl c => some (.insert c)
  | .sendData c => some (.write c)
  | .setResult c => some (.complete (c.mapOrigin cause))
  | _ => none

theorem filterMap_pending_cons {op : Op} (hop : op.pending = none) (ops : Multiset Op) :
    (op ::ₘ ops).filterMap Op.pending = ops.filterMap Op.pending :=
  Multiset.filterMap_cons_none _ _ hop

/-- The operations of an end's reading that come after the read. -/
def Op.reads (e : End) : Op → Bool
  | .drain e' | .removeNonparsedBuffer e' => e = e'
  | _ => false

/-- An end is reading: a read is outstanding, or the loop of `on_read` is running. -/
def Listening (s : State) (ops : Multiset Op) (e : End) : Prop :=
  0 < (s.side e).handler.reads ∨ .drain e ∈ ops

/-- The messages that the link has in the stream from an end. -/
def queue (t : Link.State) : End → List Object
  | .client => t.toServer.map Prod.fst
  | .server => t.toClient.map Prod.fst

/-- The exceptions that can end the reading of an end. -/
def Foreseen : End → Exn → Prop
  | _, .messageTooLarge | .server, .dispatcher _ => True
  | _, _ => False

/-- The link that a connection amounts to. -/
structure Represents (d : Decoder UInt8 Object) (s : State) (ops : Multiset Op) (t : Link.State)
    (lops : Multiset Link.Op) : Prop where
  session : s.session = t.client.mapOrigin cause
  requests : s.requests = t.requests.map anonymous
  pending : ops.filterMap Op.pending = lops.filterMap linkPending
  flows : ∀ e, Listening s ops e.peer →
    Flow d e (s.side e) (s.side e.peer).handler.pac (queue t e)
  reading : ∀ e, (s.side e).handler.reads + ops.countP (fun op => op.reads e) ≤ 1
  raised : ∀ e, ∀ exn ∈ (s.side e).handler.raised, Foreseen e exn

section
variable {d : Decoder UInt8 Object} {s : State} {ops : Multiset Op} {t : Link.State}
  {lops : Multiset Link.Op}

theorem represents_init : Represents d {} 0 {} 0 :=
  ⟨rfl, rfl, rfl, fun e _ => by cases e <;> exact flow_init, fun _ => Nat.le_refl 1, nofun⟩

/-- Other operations are pending, of which the link is told, and no more of reading. -/
theorem Represents.threads {ops' : Multiset Op} {lops' : Multiset Link.Op}
    (h : Represents d s ops t lops)
    (hp : ops'.filterMap Op.pending = lops'.filterMap linkPending)
    (hl : ∀ e, .drain e ∈ ops' → .drain e ∈ ops)
    (hc : ∀ e, ops'.countP (fun op => op.reads e) ≤ ops.countP fun op => op.reads e) :
    Represents d s ops' t lops' :=
  ⟨h.session, h.requests, hp, fun e hlisten => h.flows e (hlisten.imp_right (hl e.peer)),
    fun e => Nat.le_trans (Nat.add_le_add_left (hc e) _) (h.reading e), h.raised⟩

/-- The session and the client of the link change. -/
theorem Represents.client (h : Represents d s ops t lops) (client : Session Link.Origin) :
    Represents d { s with session := client.mapOrigin cause } ops { t with client } lops :=
  ⟨rfl, h.requests, h.pending, fun e hl => by cases e <;> exact h.flows _ hl, h.reading, h.raised⟩

/-- An end goes on in its reading, or stops; when it has read a message, the link takes it out of the
stream. -/
theorem Represents.reader (h : Represents d s ops t lops) (e : End) {f : Side → Side}
    {ops' : Multiset Op} {t' : Link.State} {requests : List RequestImpl}
    (hclient : t'.client = t.client) (hrequests : requests = t'.requests.map anonymous)
    (hqueue : queue t' e = queue t e) (hw : ∀ a, SameWriter a (f a))
    (hp : ops'.filterMap Op.pending = lops.filterMap linkPending)
    (hr : (f (s.side e)).handler.reads + ops'.countP (fun op => op.reads e) ≤ 1)
    (hr' : ops'.countP (fun op => op.reads e.peer) ≤ ops.countP fun op => op.reads e.peer)
    (hd : .drain e.peer ∈ ops' → .drain e.peer ∈ ops)
    (hx : ∀ exn ∈ (f (s.side e)).handler.raised, Foreseen e exn)
    (hf : 0 < (f (s.side e)).handler.reads ∨ .drain e ∈ ops' →
      Flow d e.peer (s.side e.peer) (f (s.side e)).handler.pac (queue t' e.peer)) :
    Represents d { s.onSide e f with requests } ops' t' lops := by
  refine ⟨by rw [hclient]; exact h.session, hrequests, hp, ?_, ?_, ?_⟩ <;> intro e' <;>
    rcases e.eq_or_peer e' with rfl | rfl
  · intro (hl : Listening (s.onSide e' f) ops' e'.peer)
    rw [Listening, onSide_peer] at hl
    rw [hqueue]
    show Flow d e' ((s.onSide e' f).side e') ((s.onSide e' f).side e'.peer).handler.pac _
    rw [onSide_self, onSide_peer]
    exact (h.flows e' (hl.imp_right hd)).congr (hw _)
  · intro (hl : Listening (s.onSide e f) ops' e.peer.peer)
    rw [Listening, End.peer_peer, onSide_self] at hl
    show Flow d e.peer ((s.onSide e f).side e.peer) ((s.onSide e f).side e.peer.peer).handler.pac _
    rw [End.peer_peer, onSide_self, onSide_peer]
    exact hf hl
  · show ((s.onSide e' f).side e').handler.reads + _ ≤ 1
    rw [onSide_self]
    exact hr
  · show ((s.onSide e f).side e.peer).handler.reads + _ ≤ 1
    rw [onSide_peer]
    exact Nat.le_trans (Nat.add_le_add_left hr' _) (h.reading e.peer)
  · show ∀ exn ∈ ((s.onSide e' f).side e').handler.raised, _
    rw [onSide_self]
    exact hx
  · show ∀ exn ∈ ((s.onSide e f).side e.peer).handler.raised, _
    rw [onSide_peer]
    exact h.raised _

/-- An end goes on in its reading, or stops, which is not seen by the link. -/
theorem Represents.onReading (h : Represents d s ops t lops) (e : End) {f : Side → Side}
    {ops' : Multiset Op} (hw : ∀ a, SameWriter a (f a))
    (hp : ops'.filterMap Op.pending = lops.filterMap linkPending)
    (hr : (f (s.side e)).handler.reads + ops'.countP (fun op => op.reads e) ≤ 1)
    (hr' : ops'.countP (fun op => op.reads e.peer) ≤ ops.countP fun op => op.reads e.peer)
    (hd : .drain e.peer ∈ ops' → .drain e.peer ∈ ops)
    (hx : ∀ exn ∈ (f (s.side e)).handler.raised, Foreseen e exn)
    (hf : 0 < (f (s.side e)).handler.reads ∨ .drain e ∈ ops' →
      Flow d e.peer (s.side e.peer) (f (s.side e)).handler.pac (queue t e.peer)) :
    Represents d (s.onSide e f) ops' t lops :=
  h.reader e rfl h.requests rfl hw hp hr hr' hd hx hf

/-- An end that is reading changes in what it holds. -/
theorem Represents.onSide (h : Represents d s ops t lops) (e : End) {f : Side → Side}
    (hw : ∀ a, SameWriter a (f a)) (hr : ∀ a, (f a).handler.reads = a.handler.reads)
    (hx : ∀ exn ∈ (f (s.side e)).handler.raised, Foreseen e exn)
    (hf : Listening s ops e →
      Flow d e.peer (s.side e.peer) (f (s.side e)).handler.pac (queue t e.peer)) :
    Represents d (s.onSide e f) ops t lops :=
  h.onReading e hw h.pending (by rw [hr]; exact h.reading e) (Nat.le_refl _) id hx
    fun hl => hf (by rwa [hr] at hl)

/-- What a write leaves alone at the end that writes. -/
theorem Writes.frame {e : End} {a a' : Side} {bytes : List UInt8} {k : List Op}
    (hw : Writes e a bytes a' k) : a'.handler.pac = a.handler.pac ∧
      a'.handler.reads = a.handler.reads ∧ a'.handler.raised = a.handler.raised := by
  cases hw with
  | closed _ _ => exact ⟨rfl, rfl, rfl⟩
  | cut n ho _ _ => rw [sendData_written ho]; exact ⟨rfl, rfl, rfl⟩
  | whole ho _ => rw [sendData_written ho]; exact ⟨rfl, rfl, rfl⟩

/-- An operation that tells the link nothing and has no part in reading. -/
def Op.Silent (op : Op) : Prop := op.pending = none ∧ ∀ e, op.reads e = false

theorem silent_onSystemError (e : End) : ∀ op ∈ onSystemError e, op.Silent := by
  cases e <;> simp [onSystemError, Op.Silent, Op.pending, Op.reads]

theorem Writes.silent {e : End} {a a' : Side} {bytes : List UInt8} {k : List Op}
    (hw : Writes e a bytes a' k) : ∀ op ∈ k, op.Silent := by
  cases hw with
  | closed _ hk =>
    rcases hk with rfl | rfl
    · simp
    · exact silent_onSystemError e
  | whole _ _ => simp
  | cut _ _ _ _ => exact silent_onSystemError e

/-- Silent operations come first. -/
theorem Represents.concat {k : List Op} (h : Represents d s ops t lops)
    (hk : ∀ op ∈ k, op.Silent) : Represents d s (↑k + ops) t lops := by
  refine h.threads ?_ ?_ ?_
  · rw [Multiset.filterMap_add, Multiset.filterMap_coe,
      List.filterMap_eq_nil_iff.2 fun op hop => (hk op hop).1, Multiset.coe_nil, zero_add]
    exact h.pending
  · intro e he
    refine (Multiset.mem_add.1 he).resolve_left fun hmem => ?_
    have hreads := (hk _ (Multiset.mem_coe.1 hmem)).2 e
    simp [Op.reads] at hreads
  · intro e
    have hzero : (↑k : Multiset Op).countP (fun op => op.reads e) = 0 :=
      Multiset.countP_eq_zero.2 fun op hop => by simp [(hk op (Multiset.mem_coe.1 hop)).2 e]
    rw [Multiset.countP_add, hzero, zero_add]

/-- **A message is sent** in both. -/
theorem Represents.writes {e : End} {m : Message} {bytes : List UInt8} {a' : Side} {k : List Op}
    (h : Represents d s ops t lops) (he : Encodes d bytes m.pack) (hm : sends e m = true)
    (hw : Writes e (s.side e) bytes a' k) {t' : Link.State} (hclient : t'.client = t.client)
    (hrequests : t'.requests = t.requests)
    (hqueue : queue t' e = queue t e ++ ([m].filter isCall).map Message.pack)
    (hpeer : queue t' e.peer = queue t e.peer) :
    Represents d (s.onSide e fun _ => a') (↑k + ops) t' lops := by
  obtain ⟨hpac, hreads, hraised⟩ := hw.frame
  have hreads' (e' : End) :
      ((s.onSide e fun _ => a').side e').handler.reads = (s.side e').handler.reads := by
    rcases e.eq_or_peer e' with rfl | rfl
    · rw [onSide_self, hreads]
    · rw [onSide_peer]
  refine Represents.concat ?_ hw.silent
  refine ⟨by rw [hclient]; exact h.session, by rw [hrequests]; exact h.requests, h.pending, ?_,
    fun e' => by rw [hreads']; exact h.reading e', ?_⟩
  · intro e' hl
    rw [Listening, hreads'] at hl
    rcases e.eq_or_peer e' with rfl | rfl
    · rw [onSide_self, onSide_peer, hqueue]
      exact (h.flows e' hl).writes he hm hw
    · have hflow := h.flows e.peer hl
      rw [End.peer_peer] at hl hflow ⊢
      rw [onSide_self, onSide_peer, hpac, hpeer]
      exact hflow
  · intro e'
    rcases e.eq_or_peer e' with rfl | rfl
    · rw [onSide_self, hraised]
      exact h.raised e'
    · rw [onSide_peer]
      exact h.raised _

/-- An end is not reading while it ends a read that has failed. -/
theorem Represents.not_listening {e : End} (h : Represents d s ops t lops)
    (hmem : .removeNonparsedBuffer e ∈ ops) : ¬ Listening s ops e := by
  have hreading := h.reading e
  obtain ⟨rest, rfl⟩ := Multiset.exists_cons_of_mem hmem
  rw [Multiset.countP_cons_of_pos _ (by simp [Op.reads])] at hreading
  rintro (hr | hd)
  · omega
  · have hd := (Multiset.mem_cons.1 hd).resolve_left (by simp)
    have hpos : 0 < rest.countP fun op => op.reads e :=
      Multiset.countP_pos.2 ⟨_, hd, by simp [Op.reads]⟩
    omega

/-- The loop of `on_read` ends with an exception, and the end stops reading. -/
theorem Represents.raises {e : End} (h : Represents d s (.drain e ::ₘ ops) t lops) {exn : Exn}
    (hx : Foreseen e exn) :
    Represents d (raise s e exn).1 (↑(raise s e exn).2 + ops) t lops := by
  have hstop : Represents d s (.removeNonparsedBuffer e ::ₘ ops) t lops := by
    refine h.threads ?_ ?_ ?_
    · rw [← h.pending, filterMap_pending_cons rfl, filterMap_pending_cons rfl]
    · intro e' he'
      exact Multiset.mem_cons_of_mem ((Multiset.mem_cons.1 he').resolve_left (by simp))
    · intro e'
      rw [Multiset.countP_cons, Multiset.countP_cons]
      simp [Op.reads]
  have hops : (↑(onSystemError e ++ [Op.removeNonparsedBuffer e]) + ops : Multiset Op) =
      ↑(onSystemError e) + (Op.removeNonparsedBuffer e ::ₘ ops) := by
    rw [← Multiset.coe_add, Multiset.coe_singleton, add_assoc, Multiset.singleton_add]
  rw [Wire.raise]
  dsimp only
  rw [hops]
  refine Represents.concat ?_ (silent_onSystemError e)
  refine hstop.onSide e (fun a => ⟨rfl, rfl, rfl, rfl⟩) (fun a => rfl) ?_ ?_
  · intro exn' hexn'
    rcases List.mem_append.1 hexn' with hexn' | hexn'
    · exact h.raised e exn' hexn'
    · rwa [List.mem_singleton.1 hexn']
  · intro hl
    exact absurd hl (hstop.not_listening (Multiset.mem_cons_self _ _))

/-- It ends without one, and the next read is started. -/
theorem Represents.start {e : End} (h : Represents d s (.drain e ::ₘ ops) t lops) :
    Represents d (s.onSide e fun a => { a with handler := a.handler.start }) ops t lops := by
  have hreading := h.reading e
  rw [Multiset.countP_cons_of_pos _ (by simp [Op.reads])] at hreading
  have hpending := h.pending
  rw [filterMap_pending_cons rfl] at hpending
  refine h.onReading e (fun a => ⟨rfl, rfl, rfl, rfl⟩) hpending ?_
    (Multiset.countP_le_of_le _ (Multiset.le_cons_self _ _)) (Multiset.mem_cons_of_mem ·)
    (h.raised e) fun _ => ?_
  · show (s.side e).handler.reads + 1 + _ ≤ 1
    omega
  · have hflow := h.flows e.peer (.inr (by rw [End.peer_peer]; exact Multiset.mem_cons_self _ _))
    rw [End.peer_peer] at hflow
    exact hflow

/-- A read completes with some of the bytes on their way. -/
theorem Represents.read {e : End} (h : Represents d s ops t lops)
    (hr : (s.side e).handler.reads ≠ 0) {n : Nat} (hn : n ≤ (s.side e.peer).unread.length) :
    Represents d (transfer s e n) (.drain e ::ₘ ops) t lops := by
  have hreading := h.reading e
  have hpeer := h.reading e.peer
  have hself : (transfer s e n).side e = { s.side e with handler := { (s.side e).handler with
      reads := (s.side e).handler.reads - 1
      pac := (s.side e).handler.pac.feed ((s.side e.peer).unread.take n) } } := by
    rw [transfer, onSide_of_peer, onSide_self]
  have hother : (transfer s e n).side e.peer =
      { s.side e.peer with taken := (s.side e.peer).taken + n } := by
    simp [transfer]
  refine ⟨h.session, h.requests, by rw [filterMap_pending_cons rfl]; exact h.pending, ?_, ?_, ?_⟩ <;>
    intro e' <;> rcases e.eq_or_peer e' with rfl | rfl
  · intro hl
    rw [Listening, hother] at hl
    rw [hself, hother]
    refine (h.flows e' (hl.imp_right fun hd => ?_)).congr ⟨rfl, rfl, rfl, rfl⟩
    exact (Multiset.mem_cons.1 hd).resolve_left (by simp)
  · intro _
    have hflow := h.flows e.peer (.inl (by rw [End.peer_peer]; exact Nat.pos_of_ne_zero hr))
    rw [End.peer_peer] at hflow ⊢
    rw [hself, hother]
    exact hflow.read hn
  · rw [hself, Multiset.countP_cons_of_pos _ (by simp [Op.reads])]
    dsimp only
    omega
  · rw [hother, Multiset.countP_cons_of_neg _ (by simp [Op.reads])]
    exact hpeer
  · rw [hself]
    exact h.raised e'
  · rw [hother]
    exact h.raised e.peer

/-- A read fails, and the end stops reading. -/
theorem Represents.readFailed {e : End} (h : Represents d s ops t lops)
    (hr : (s.side e).handler.reads ≠ 0) :
    Represents d (s.onSide e fun a =>
      { a with handler := { a.handler with reads := a.handler.reads - 1 } })
      (↑(onSystemError e ++ [Op.removeNonparsedBuffer e]) + ops) t lops := by
  have hreading := h.reading e
  rw [← Multiset.coe_add, Multiset.coe_singleton, add_assoc, Multiset.singleton_add]
  refine Represents.concat ?_ (silent_onSystemError e)
  refine h.onReading e (fun a => ⟨rfl, rfl, rfl, rfl⟩)
    (by rw [filterMap_pending_cons rfl]; exact h.pending) ?_ ?_ ?_ (h.raised e) fun hl => ?_
  · rw [Multiset.countP_cons_of_pos _ (by simp [Op.reads])]
    dsimp only
    omega
  · rw [Multiset.countP_cons_of_neg _ (by simp [Op.reads])]
  · intro hd
    exact (Multiset.mem_cons.1 hd).resolve_left (by simp)
  · -- the read that failed was the only one
    have hnone : ops.countP (fun op => op.reads e) = 0 := by omega
    rcases hl with hl | hl
    · dsimp only at hl
      omega
    · have hd := (Multiset.mem_cons.1 hl).resolve_left (by simp)
      exact absurd (by simp [Op.reads]) (Multiset.countP_eq_zero.1 hnone _ hd)

/-- The socket of an end is closed. -/
theorem Represents.close (h : Represents d s ops t lops) (e : End) :
    Represents d (s.onSide e fun a => { a with handler := a.handler.onSystemError }) ops t lops := by
  refine ⟨h.session, h.requests, h.pending, ?_, ?_, ?_⟩ <;> intro e' <;>
    rcases e.eq_or_peer e' with rfl | rfl
  · intro hl
    rw [Listening, onSide_peer] at hl
    rw [onSide_self, onSide_peer]
    exact (h.flows e' hl).close
  · intro hl
    rw [Listening, End.peer_peer, onSide_self] at hl
    have hflow := h.flows e.peer (by rwa [Listening, End.peer_peer])
    rw [End.peer_peer] at hflow ⊢
    rw [onSide_self, onSide_peer]
    exact hflow
  · rw [onSide_self]
    exact h.reading e'
  · rw [onSide_peer]
    exact h.reading _
  · rw [onSide_self]
    exact h.raised e'
  · rw [onSide_peer]
    exact h.raised _

/-- The last operation of a read that failed. -/
theorem Represents.removeNonparsedBuffer {e : End}
    (h : Represents d s (.removeNonparsedBuffer e ::ₘ ops) t lops) :
    Represents d (s.onSide e fun a => { a with handler := { a.handler with
      pac := a.handler.pac.removeNonparsedBuffer } }) ops t lops := by
  have hstop := h.not_listening (Multiset.mem_cons_self _ _)
  have hpending := h.pending
  rw [filterMap_pending_cons rfl] at hpending
  have hreading := h.reading e
  rw [Multiset.countP_cons_of_pos _ (by simp [Op.reads])] at hreading
  refine h.onReading e (fun a => ⟨rfl, rfl, rfl, rfl⟩) hpending ?_
    (Multiset.countP_le_of_le _ (Multiset.le_cons_self _ _)) (Multiset.mem_cons_of_mem ·)
    (h.raised e) fun hl => absurd (hl.imp_right (Multiset.mem_cons_of_mem ·)) hstop
  dsimp only
  omega

/-! ## Steps of the link -/

/-- An operation that is started from outside is executed at once. -/
theorem pool_of_entry {op : Link.Op} (hop : op.entry = true) {it : List Reqtable.Entry}
    {t' : Link.State} {k : List Link.Op} (hx : Link.machine.exec t op it = some (t', k)) :
    ReflTransGen Link.machine.Pool (t, lops) (t', ↑k + lops) :=
  .tail (.single (.spawn lops hop)) (.exec it lops hx)

/-- What is pending in the connection is pending in the link, and can be executed in both. -/
theorem Represents.exec_pending {op : Op} (h : Represents d s (op ::ₘ ops) t lops) {p : Pending}
    (hp : op.pending = some p) :
    ∃ lop rest, lops = lop ::ₘ rest ∧ linkPending lop = some p ∧ Represents d s ops t rest := by
  have hpending := h.pending
  rw [Multiset.filterMap_cons_some _ _ _ hp] at hpending
  obtain ⟨lop, hlop, hlp⟩ := (Multiset.mem_filterMap _ _).1 (hpending ▸ Multiset.mem_cons_self _ _)
  obtain ⟨rest, rfl⟩ := Multiset.exists_cons_of_mem hlop
  rw [Multiset.filterMap_cons_some _ _ _ hlp, Multiset.cons_inj_right] at hpending
  exact ⟨lop, rest, rfl, hlp, h.threads hpending (fun _ => (Multiset.mem_cons_of_mem ·))
    fun _ => Multiset.countP_le_of_le _ (Multiset.le_cons_self _ _)⟩

/-- An operation that reads nothing becomes pending in both. -/
theorem Represents.cons {op : Op} {lop : Link.Op} (h : Represents d s ops t lops)
    (hr : ∀ e, op.reads e = false) (hp : op.pending = linkPending lop) :
    Represents d s (op ::ₘ ops) t (lop ::ₘ lops) := by
  refine h.threads ?_ ?_ ?_
  · rw [Multiset.filterMap_cons, Multiset.filterMap_cons, hp, h.pending]
  · intro e he
    refine (Multiset.mem_cons.1 he).resolve_left ?_
    rintro rfl
    have hreads := hr e
    simp [Op.reads] at hreads
  · intro e
    rw [Multiset.countP_cons_of_neg _ (by simp [hr])]

/-- The completions that an operation of the session hands out. -/
theorem filterMap_setResult (cs : List (Completion Link.Origin))
    (h : ops.filterMap Op.pending = lops.filterMap linkPending) :
    (↑((cs.map (Completion.mapOrigin cause)).map Op.setResult) + ops).filterMap Op.pending =
      (↑(cs.map Link.Op.setResult) + lops).filterMap linkPending := by
  rw [Multiset.filterMap_add, Multiset.filterMap_add, h]
  simp [List.filterMap_map, Function.comp_def, Op.pending, linkPending]

/-- A silent operation has been executed. -/
theorem Represents.tail {op : Op} (h : Represents d s (op ::ₘ ops) t lops) (hop : op.Silent) :
    Represents d s ops t lops := by
  have hpending := h.pending
  rw [filterMap_pending_cons hop.1] at hpending
  exact h.threads hpending (fun _ => (Multiset.mem_cons_of_mem ·))
    fun _ => Multiset.countP_le_of_le _ (Multiset.le_cons_self _ _)

/-- Completions are handed out in both. -/
theorem Represents.hand (h : Represents d s ops t lops) (cs : List (Completion Link.Origin)) :
    Represents d s (↑((cs.map (Completion.mapOrigin cause)).map Op.setResult) + ops) t
      (↑(cs.map Link.Op.setResult) + lops) := by
  refine h.threads (filterMap_setResult cs h.pending) ?_ ?_
  · intro e he
    refine (Multiset.mem_add.1 he).resolve_left fun hmem => ?_
    simp at hmem
  · intro e
    rw [Multiset.countP_add]
    simp [Multiset.coe_countP, List.countP_map, Function.comp_def, Op.reads]

/-! ## One round of the loop -/

/-- The end `e` takes the message that its unpacker has found. -/
def taken (u : Unpacker UInt8) (m : Message) (a : Side) : Side :=
  { a with handler := { a.handler with
    pac := u
    dispatched := a.handler.dispatched ++ [m.pack]
    calls := a.handler.calls ++ [m] } }

theorem Represents.flow {e : End} (h : Represents d s (.drain e ::ₘ ops) t lops) :
    Flow d e.peer (s.side e.peer) (s.side e).handler.pac (queue t e.peer) := by
  have hflow := h.flows e.peer (.inr (by rw [End.peer_peer]; exact Multiset.mem_cons_self _ _))
  rwa [End.peer_peer] at hflow

/-- A message is taken that the link has in the stream, or one that it does not know of. -/
theorem Represents.takes {e : End} (h : Represents d s (.drain e ::ₘ ops) t lops)
    {u : Unpacker UInt8} (m : Message) (t' : Link.State) (requests : List RequestImpl)
    (hclient : t'.client = t.client) (hrequests : requests = t'.requests.map anonymous)
    (hqueue : queue t' e = queue t e)
    (hf : Flow d e.peer (s.side e.peer) u (queue t' e.peer)) :
    Represents d { s.onSide e (taken u m) with requests } (.drain e ::ₘ ops) t' lops :=
  h.reader e hclient hrequests hqueue (fun _ => ⟨rfl, rfl, rfl, rfl⟩) h.pending (h.reading e)
    (Nat.le_refl _) id (h.raised e) fun _ => hf

/-- What a round finds: nothing, or the next of the messages. -/
theorem Flow.next {e : End} {a : Side} {u : Unpacker UInt8} {q : List Object} (h : Flow d e a u q) :
    (∃ u', Unpack.next d u.parsed u.received = .none u' ∧ Flow d e a u' q) ∨
      ∃ m u' q', Unpack.next d u.parsed u.received = .value m.pack u' ∧ sends e m = true ∧
        q = ([m].filter isCall).map Message.pack ++ q' ∧ Flow d e a u' q' := by
  obtain ⟨ms, lost, part, hc, hms, hq, hle, hw⟩ := h
  rcases hn : Unpack.next d u.parsed u.received with u' | ⟨o, u'⟩ | u'
  · exact .inl ⟨u', rfl, ms, lost, part, (hc.none hn).2, hms, hq, hle, hw⟩
  · obtain ⟨as, hm, hc'⟩ := hc.value hn
    obtain ⟨m, ms, rfl, rfl, rfl⟩ := List.map_eq_cons_iff.1 hm
    refine .inr ⟨m, u', _, rfl, hms m (.head _), ?_, ms, lost, part, hc',
      fun m' hm' => hms m' (.tail _ hm'), rfl, hle, hw⟩
    rw [hq, ← List.map_append, ← List.filter_append, List.singleton_append, List.cons_append]
  · exact absurd hn (hc.ne_bad u')

theorem round_none {e : End} {u : Unpacker UInt8} (x : Choice)
    (hn : Unpack.next d (s.side e).handler.pac.parsed (s.side e).handler.pac.received = .none u) :
    round d s x e =
      if u.messageSize > maxMessageSize then
        raise (s.onSide e fun a => { a with handler := { a.handler with pac := u } }) e
          .messageTooLarge
      else ((s.onSide e fun a => { a with handler := { a.handler with pac := u } }).onSide e
        fun a => { a with handler := a.handler.start }, []) := by
  rw [round, hn]

theorem round_value {e : End} {u : Unpacker UInt8} {m : Message} (x : Choice)
    (hn : Unpack.next d (s.side e).handler.pac.parsed (s.side e).handler.pac.received =
      .value m.pack u) :
    round d s x e = afterMessage (receive (s.onSide e (taken u m)) x e m) e := by
  have htaken : s.onSide e (taken u m) = (s.onSide e fun a => { a with handler := { a.handler with
      pac := u, dispatched := a.handler.dispatched ++ [m.pack] } }).onSide e
        fun a => { a with handler := { a.handler with calls := a.handler.calls ++ [m] } } := by
    rw [onSide_onSide]
    rfl
  rw [round, hn, htaken]
  dsimp only
  rw [onMessage_pack]

/-- The server takes a message; the dispatcher may throw. -/
theorem Represents.dispatched (h : Represents d s (.drain .server ::ₘ ops) t lops) (x : Choice) :
    Represents d (afterMessage ((s, []), x.throws.map .dispatcher) .server).1
      (↑(afterMessage ((s, []), x.throws.map .dispatcher) .server).2 + ops) t lops := by
  rcases x.throws with _ | what
  · exact h
  · exact h.raises trivial

/-- **A round of the loop** is a step of the link that receives the next message, or none at all. -/
theorem Represents.rounds {e : End} (h : Represents d s (.drain e ::ₘ ops) t lops) (x : Choice) :
    ∃ t' lops', ReflTransGen Link.machine.Pool (t, lops) (t', lops') ∧
      Represents d (round d s x e).1 (↑(round d s x e).2 + ops) t' lops' := by
  rcases h.flow.next with ⟨u, hn, hf⟩ | ⟨m, u, q, hn, hm, hq, hf⟩
  · have hpac := h.onSide e (f := fun a => { a with handler := { a.handler with pac := u } })
      (fun _ => ⟨rfl, rfl, rfl, rfl⟩) (fun _ => rfl) (h.raised e) fun _ => hf
    refine ⟨t, lops, .refl, ?_⟩
    rw [round_none x hn]
    split
    · exact hpac.raises trivial
    · rw [Multiset.coe_nil, zero_add]
      exact hpac.start
  · rw [round_value x hn]
    cases e <;> cases m <;> try cases hm
    · next msgid result error =>
      -- the client takes a response
      obtain ⟨⟨msg, r⟩, toClient, hto, rfl, rfl⟩ := List.map_eq_cons_iff.1 hq
      have hx : Link.machine.exec t .onResponse [] = some ({ t with
          client := (t.client.onResponse (.response r) msgid result error).1
          toClient
          delivered := t.delivered ++ [r] },
          (t.client.onResponse (.response r) msgid result error).2.map .setResult) := by
        simp only [Link.machine, hto, onMessage_pack]
      refine ⟨_, _, pool_of_entry rfl hx, ?_⟩
      have htakes := h.takes (.response msgid result error)
        { t with toClient, delivered := t.delivered ++ [r] } s.requests rfl h.requests rfl hf
      have hmap : (t.client.mapOrigin cause).onResponse .response msgid result error = _ :=
        Session.mapOrigin_onResponse cause t.client (.response r) msgid result error
      rw [receive, onSide_session, h.session, hmap]
      dsimp only [afterMessage]
      rw [← Multiset.coe_add, add_assoc]
      exact (htakes.client _).hand _
    · next msgid method params =>
      -- the server takes a request
      obtain ⟨⟨msg, c⟩, toServer, hto, rfl, rfl⟩ := List.map_eq_cons_iff.1 hq
      have hx : Link.machine.exec t .onRequest [] = some ({ t with
          toServer
          requests := t.requests ++ [{ msgid, method, params, sentBy := c }] }, []) := by
        simp only [Link.machine, hto, onMessage_pack]
      refine ⟨_, _, pool_of_entry rfl hx, ?_⟩
      rw [Multiset.coe_nil, zero_add]
      have htakes := h.takes (.request msgid method params)
        { t with toServer, requests := t.requests ++ [{ msgid, method, params, sentBy := c }] }
        (s.requests ++ [{ msgid, method, params, sentBy := 0 }]) rfl
        (by rw [h.requests, List.map_append]; rfl) rfl hf
      exact htakes.dispatched x
    · next method params =>
      -- the server takes a notification, which is not in the link
      refine ⟨t, lops, .refl, ?_⟩
      have hqueue : queue t .client = q := hq
      have htakes := h.takes (.notify method params) t s.requests rfl h.requests rfl (hqueue ▸ hf)
      exact htakes.dispatched x

/-! ## Steps -/

/-- The messages that an operation writes are in `valid`. -/
def Valid (valid : Message → Prop) (s : State) (_ : Multiset Op) (op : Op) (_ : Choice) : Prop :=
  match op with
  | .sendData c => ∀ call ∈ s.session.calls[c]?, valid (request call)
  | .notify method params => valid (.notify method params)
  | .answer r res err => ∀ req ∈ s.requests[r]?, valid (.response req.msgid res err)
  | _ => True

instance (valid : Message → Prop) [DecidablePred valid] (s : State) (ops : Multiset Op) (op : Op)
    (x : Choice) : Decidable (Valid valid s ops op x) := by
  cases op <;> unfold Valid <;> infer_instance

/-- Futures are taken out of the table. -/
theorem Represents.hands {op : Op} (h : Represents d s (op ::ₘ ops) t lops) (hop : op.Silent)
    {lop : Link.Op} (hlop : lop.entry = true) {it : List Reqtable.Entry}
    {client : Session Link.Origin} {cs : List (Completion Link.Origin)}
    (hx : Link.machine.exec t lop it = some ({ t with client }, cs.map .setResult)) :
    ∃ t' lops', ReflTransGen Link.machine.Pool (t, lops) (t', lops') ∧
      Represents d { s with session := client.mapOrigin cause }
        (↑((cs.map (Completion.mapOrigin cause)).map Op.setResult) + ops) t' lops' :=
  ⟨_, _, pool_of_entry hlop hx, ((h.tail hop).client client).hand cs⟩

theorem Represents.sendRequest {method params : Object}
    (h : Represents d s (.sendRequest method params ::ₘ ops) t lops) :
    ∃ t' lops', ReflTransGen Link.machine.Pool (t, lops) (t', lops') ∧
      Represents d { s with session := s.session.sendRequest method params }
        (↑[Op.sendRequestImpl s.session.calls.length] + ops) t' lops' := by
  have hx : Link.machine.exec t (.sendRequest method params) [] =
      some ({ t with client := t.client.sendRequest method params },
        [.sendRequestImpl t.client.calls.length]) := rfl
  refine ⟨_, _, pool_of_entry rfl hx, ?_⟩
  have hclient := (h.tail (by simp [Op.Silent, Op.pending, Op.reads])).client
    (t.client.sendRequest method params)
  rw [h.session]
  exact hclient.cons (fun _ => rfl) rfl

theorem Represents.sendRequestImpl {c : Nat} {call : Call}
    (h : Represents d s (.sendRequestImpl c ::ₘ ops) t lops)
    (hcall : s.session.calls[c]? = some call) :
    ∃ t' lops', ReflTransGen Link.machine.Pool (t, lops) (t', lops') ∧
      Represents d { s with session := s.session.sendRequestImpl c call }
        (↑[Op.sendData c] + ops) t' lops' := by
  obtain ⟨lop, rest, rfl, hlop, hrest⟩ := h.exec_pending rfl
  rw [h.session] at hcall ⊢
  cases lop <;> cases hlop
  have hx : Link.machine.exec t (.sendRequestImpl c) [] =
      some ({ t with client := t.client.sendRequestImpl c call }, [.sendData c]) :=
    Option.map_eq_some_iff.2 ⟨call, hcall, rfl⟩
  exact ⟨_, _, .single (.exec [] rest hx),
    (hrest.client (t.client.sendRequestImpl c call)).cons (fun _ => rfl) rfl⟩

theorem Represents.setResult {c : Completion Cause} (h : Represents d s (.setResult c ::ₘ ops) t lops) :
    ∃ t' lops', ReflTransGen Link.machine.Pool (t, lops) (t', lops') ∧
      Represents d { s with session := (s.session.setResult c).1 } ops t' lops' := by
  obtain ⟨lop, rest, rfl, hlop, hrest⟩ := h.exec_pending rfl
  cases lop <;> cases hlop
  rename_i c₀
  have hx : Link.machine.exec t (.setResult c₀) [] =
      some ({ t with client := (t.client.setResult c₀).1 }, []) := rfl
  refine ⟨_, _, .single (.exec [] rest hx), ?_⟩
  rw [h.session, Session.mapOrigin_setResult, Multiset.coe_nil, zero_add]
  exact hrest.client _

/-- The message of a call is written. -/
theorem Represents.sendData {enc : Object → List UInt8} {c : Nat} {call : Call}
    (h : Represents d s (.sendData c ::ₘ ops) t lops) (hcall : s.session.calls[c]? = some call)
    (he : Encodes d (enc (request call).pack) (request call).pack) {a' : Side} {k : List Op}
    (hw : Writes .client (s.side .client) (enc (request call).pack) a' k) :
    ∃ t' lops', ReflTransGen Link.machine.Pool (t, lops) (t', lops') ∧
      Represents d (s.onSide .client fun _ => a') (↑k + ops) t' lops' := by
  obtain ⟨lop, rest, rfl, hlop, hrest⟩ := h.exec_pending rfl
  rw [h.session] at hcall
  cases lop <;> cases hlop
  have hx : Link.machine.exec t (.sendData c) [] =
      some ({ t with toServer := t.toServer ++ [(Link.request call, c)] }, []) :=
    Option.map_eq_some_iff.2 ⟨call, hcall, rfl⟩
  refine ⟨_, _, .single (.exec [] rest hx), ?_⟩
  rw [Multiset.coe_nil, zero_add]
  exact hrest.writes he rfl hw rfl rfl (List.map_append ..) rfl

theorem anonymous_call (req : RequestImpl) (res err : Object) :
    (anonymous req).call res err =
      (anonymous (req.call res err).1, (req.call res err).2) := by
  unfold RequestImpl.call
  rw [show (anonymous req).isSent = req.isSent from rfl]
  split <;> rfl

theorem Represents.setRequests (h : Represents d s ops t lops) (requests : List RequestImpl) :
    Represents d { s with requests := requests.map anonymous } ops { t with requests } lops :=
  ⟨h.session, rfl, h.pending, fun e hl => by cases e <;> exact h.flows _ hl, h.reading, h.raised⟩

/-- A request is answered, and the response is written if it is the first answer. -/
theorem Represents.answer {enc : Object → List UInt8} {r : Nat} {req : RequestImpl}
    {res err : Object} {x : Choice} {s' : State} {k : List Op}
    (h : Represents d s (.answer r res err ::ₘ ops) t lops) (hreq : s.requests[r]? = some req)
    (he : Encodes d (enc (Message.response req.msgid res err).pack)
      (Message.response req.msgid res err).pack)
    (hx : (match (req.call res err).2 with
      | none => some ({ s with requests := s.requests.set r (req.call res err).1 }, [])
      | some msg =>
        write { s with requests := s.requests.set r (req.call res err).1 } .server (enc msg) x) =
        some (s', k)) :
    ∃ t' lops', ReflTransGen Link.machine.Pool (t, lops) (t', lops') ∧
      Represents d s' (↑k + ops) t' lops' := by
  rw [h.requests, List.getElem?_map] at hreq
  obtain ⟨req₀, hreq₀, rfl⟩ := Option.map_eq_some_iff.1 hreq
  have hlink : Link.machine.exec t (.answer r res err) [] = some ({ t with
      requests := t.requests.set r (req₀.call res err).1
      toClient := t.toClient ++ (req₀.call res err).2.toList.map fun msg => (msg, r) }, []) :=
    Option.map_eq_some_iff.2 ⟨req₀, hreq₀, rfl⟩
  refine ⟨_, _, pool_of_entry rfl hlink, ?_⟩
  rw [Multiset.coe_nil, zero_add]
  rw [anonymous_call, h.requests, ← List.map_set] at hx
  have hset := (h.tail (by simp [Op.Silent, Op.pending, Op.reads])).setRequests
    (t.requests.set r (req₀.call res err).1)
  cases hsent : (req₀.call res err).2 with
  | none =>
    rw [hsent] at hx
    cases hx
    rw [Option.toList_none, List.map_nil, List.append_nil, Multiset.coe_nil, zero_add]
    exact hset
  | some msg =>
    have hmsg : msg = (Message.response req₀.msgid res err).pack := by
      unfold RequestImpl.call at hsent
      split at hsent
      · cases hsent
      · exact (Option.some.inj hsent).symm
    rw [hsent] at hx
    subst hmsg
    obtain ⟨a', hw, rfl⟩ := write_cases hx
    exact hset.writes he rfl hw rfl rfl (List.map_append ..) rfl

end

/-- **Each step of the connection** is some steps of the link. -/
theorem represents_exec {d : Decoder UInt8 Object} {enc : Object → List UInt8}
    {valid : Message → Prop} (henc : ∀ m, valid m → Encodes d (enc m.pack) m.pack) {s s' : State}
    {op : Op} {ops : Multiset Op} {x : Choice} {k : List Op} {t : Link.State}
    {lops : Multiset Link.Op} (h : Represents d s (op ::ₘ ops) t lops)
    (hv : Valid valid s (op ::ₘ ops) op x) (hx : (machine d enc).exec s op x = some (s', k)) :
    ∃ t' lops', ReflTransGen Link.machine.Pool (t, lops) (t', lops') ∧
      Represents d s' (↑k + ops) t' lops' := by
  cases op with
  | sendRequest method params =>
    cases hx
    exact h.sendRequest
  | sendRequestImpl c =>
    obtain ⟨call, hcall, hx⟩ := Option.map_eq_some_iff.1 hx
    cases hx
    exact h.sendRequestImpl hcall
  | sendData c =>
    obtain ⟨call, hcall, hx⟩ := Option.bind_eq_some_iff.1 hx
    obtain ⟨a', hw, rfl⟩ := write_cases hx
    exact h.sendData hcall (henc _ (hv call hcall)) hw
  | notify method params =>
    obtain ⟨a', hw, rfl⟩ := write_cases hx
    refine ⟨t, lops, .refl, ?_⟩
    exact (h.tail (by simp [Op.Silent, Op.pending, Op.reads])).writes (henc _ hv) rfl hw rfl rfl
      (List.append_nil _).symm rfl
  | onRead e =>
    have h' := h.tail (by simp [Op.Silent, Op.pending, Op.reads])
    simp only [machine] at hx
    split at hx
    · cases hx
    · next hr =>
      split at hx
      · cases hx
        exact ⟨t, lops, .refl, h'.readFailed hr⟩
      · split at hx
        · next hn =>
          cases hx
          exact ⟨t, lops, .refl, h'.read hr hn.2⟩
        · cases hx
  | drain e =>
    have hround : round d s x e = (s', k) := Option.some.inj hx
    have hsim := h.rounds x
    rwa [hround] at hsim
  | answer r res err =>
    obtain ⟨req, hreq, hx⟩ := Option.bind_eq_some_iff.1 hx
    exact h.answer hreq (henc _ (hv req hreq)) hx
  | stepTimerHandler =>
    simp only [machine] at hx
    split at hx
    · next hp =>
      rw [h.session] at hp hx
      have hmap : (t.client.mapOrigin cause).stepTimerHandler .stepTimer x.it = _ :=
        Session.mapOrigin_stepTimerHandler cause t.client .stepTimer x.it
      have hlink : Link.machine.exec t .stepTimerHandler x.it =
          some ({ t with client := (t.client.stepTimerHandler .stepTimer x.it).1 },
            (t.client.stepTimerHandler .stepTimer x.it).2.map .setResult) := if_pos hp
      rw [hmap] at hx
      cases hx
      exact h.hands (by simp [Op.Silent, Op.pending, Op.reads]) rfl hlink
    · cases hx
  | onSystemError =>
    simp only [machine] at hx
    split at hx
    · next hp =>
      rw [h.session] at hp hx
      have hmap : (t.client.mapOrigin cause).onSystemError .failure x.it = _ :=
        Session.mapOrigin_sweep cause t.client .failure CONNECT_ERROR x.it
      have hlink : Link.machine.exec t .connectionFailed x.it =
          some ({ t with client := (t.client.onSystemError .failure x.it).1 },
            (t.client.onSystemError .failure x.it).2.map .setResult) := if_pos hp
      rw [hmap] at hx
      cases hx
      exact h.hands (by simp [Op.Silent, Op.pending, Op.reads]) rfl hlink
    · cases hx
  | setResult c =>
    cases hx
    rw [Multiset.coe_nil, zero_add]
    exact h.setResult
  | close e =>
    cases hx
    rw [Multiset.coe_nil, zero_add]
    exact ⟨t, lops, .refl, (h.tail (by simp [Op.Silent, Op.pending, Op.reads])).close e⟩
  | removeNonparsedBuffer e =>
    cases hx
    rw [Multiset.coe_nil, zero_add]
    exact ⟨t, lops, .refl, h.removeNonparsedBuffer⟩

end Wire

end MsgpackRpc
