import MsgpackRpc.Session.Answers
import MsgpackRpc.Stream.Reconnect

/-!
# A client connection and its session

A connected `tcp::client_socket` together with its session (`tcp.cc:119`): `on_read` hands the messages
of the server to the session, which completes futures and runs their callbacks, and a failure ends in
`on_system_error`, which fails the rest of the table and closes the socket. Reads come only as long as
one is outstanding.

Callbacks are code of the user. What they do is a parameter: `RequestFree` says that a callback sends no
request, and `Unfailing` that the notifications that it sends are written. A notification whose write fails
completes the whole table and closes the socket, in the middle of the loop of `on_read`.
-/

namespace MsgpackRpc

open Unpack

namespace Tcp

open Session (Source Settles Answered Disposed SendFree)

/-- A `client_socket` that is connected and its session. -/
structure Connection where
  handler : StreamHandler
  session : Session Source

/-- What a connection depends on: the format, the order in which the iterators of the table come,
and what the callbacks of the user do. -/
structure Setting where
  decoder : Decoder UInt8 Object
  iterators : Reqtable → List Reqtable.Entry
  perm : ∀ t, (iterators t).Perm t.entries
  run : Callback → FutureId → Connection → Connection

namespace Connection

/-- The read that was outstanding has completed. -/
def readDone (c : Connection) : Connection := { c with handler.reads := c.handler.reads - 1 }

section
variable (P : Setting)

/-- A call of `set_result` with the callback that it runs. -/
def complete (c : Connection) (d : Completion Source) : Connection :=
  match c.session.setResult d with
  | (session, none) => { c with session }
  | (session, some func) => P.run func d.future { c with session }

/-- `session_impl::on_response` (`session.cc:167`), to its end. -/
def respond (c : Connection) (msgid : MsgId) (result error : Object) : Connection :=
  let (session, cs) := c.session.onResponse .response msgid result error
  cs.foldl (complete P) { c with session }

/-- `session_impl::on_system_error` (`session.cc:155`), to its end. -/
def failAll (c : Connection) : Connection :=
  let (session, cs) := c.session.onSystemError .systemError (P.iterators c.session.reqtable)
  cs.foldl (complete P) { c with session }

/-- `client_socket::on_system_error` (`tcp.cc:145`). -/
def onSystemError (c : Connection) : Connection :=
  let c := failAll P c
  { c with handler := c.handler.onSystemError }

/-- `stream_handler::send_data` (`stream_handler.cc:91`), where `ok` is whether the write succeeds. -/
def sendData (c : Connection) (bytes : List UInt8) (ok : Bool) : Connection :=
  if c.handler.isOpen then
    if ok then { c with handler := c.handler.sendData bytes } else onSystemError P c
  else c

/-- What becomes of a connection when it takes a message: `session_impl::on_notify`
(`session.cc:179`) does nothing, and a request does not get to the session. -/
def receive (c : Connection) : Message → Connection
  | .response msgid result error => respond P c msgid result error
  | .notify .. | .request .. => c

/-- `stream_handler::on_message` (`stream_handler.cc:130`) with the `on_request`, `on_response` and
`on_notify` of a client socket (`tcp.cc:119`) whose session is alive. -/
def onMessage (c : Connection) (msg : Object) : Connection × Option Exn :=
  let c := { c with handler.dispatched := c.handler.dispatched ++ [msg] }
  match MsgpackRpc.onMessage msg with
  | .error e => (c, some e)
  | .ok m@(.request ..) =>
    ({ c with handler.calls := c.handler.calls ++ [m] }, some .typeError)
  | .ok m => (receive P { c with handler.calls := c.handler.calls ++ [m] } m, none)

/-- The end of `on_read` after an error or an exception (`stream_handler.cc:84`). -/
def onReadFailed (c : Connection) : Connection :=
  let c := onSystemError P c
  { c with handler.pac := c.handler.pac.removeNonparsedBuffer }

/-- The loop of `on_read` and the size check after it, see `StreamHandler.drainRead`. -/
def drainRead (c : Connection) (bytes : List UInt8) : Connection × Option Exn :=
  let u := c.handler.pac.feed bytes
  let (pac, c, exn) := drain P.decoder (onMessage P) .parseError c u.parsed u.received
  let c := { c with handler.pac := pac }
  match exn with
  | some e => (c, some e)
  | none =>
    if c.handler.pac.messageSize > maxMessageSize then (c, some .messageTooLarge) else (c, none)

/-- `stream_handler::on_read` (`stream_handler.cc:53`) of a client socket. -/
def onRead (c : Connection) : ReadCompletion → Connection
  | .ok bytes =>
    match drainRead P (readDone c) bytes with
    | (c, none) => { c with handler := c.handler.start }
    | (c, some e) => onReadFailed P { c with handler.raised := c.handler.raised ++ [e] }
  | .error _ => onReadFailed P (readDone c)

/-- The reads of a connection: the next one completes only if one is outstanding. -/
def onReads (c : Connection) (chunks : List (List UInt8)) : Connection :=
  chunks.foldl (fun c bytes => if c.handler.reads = 0 then c else onRead P c (.ok bytes)) c

end

/-! ## Callbacks -/

mutual

/-- What a callback does that sends no requests. The notifications that it sends on the open socket are
written, or the write fails. (One that is sent on a closed socket, which is then connected again, is left
out, and so are the handlers of the loop that sending runs if the loop has no workers.) -/
inductive RequestFree : Connection → Connection → Prop where
  | done (c : Connection) : RequestFree c c
  | sendFree {c c' : Connection} {session : Session Source} : SendFree c.session session →
    RequestFree { c with session } c' → RequestFree c c'
  | notify {c c' : Connection} (bytes : List UInt8) : c.handler.isOpen = true →
    RequestFree { c with handler := c.handler.sendData bytes } c' → RequestFree c c'
  | notifyFailed {c c₁ c' : Connection} {it : List Reqtable.Entry} : c.handler.isOpen = true →
    it.Perm c.session.reqtable.entries →
    Completes { c with session := (c.session.onSystemError .systemError it).1 }
      (c.session.onSystemError .systemError it).2 c₁ →
    RequestFree { c₁ with handler := c₁.handler.onSystemError } c' → RequestFree c c'

/-- Calls of `set_result` one after another, whose callbacks send no requests. -/
inductive Completes : Connection → List (Completion Source) → Connection → Prop where
  | nil (c : Connection) : Completes c [] c
  | silent {c c' : Connection} {d : Completion Source} {cs : List (Completion Source)} :
    (c.session.setResult d).2 = none →
    Completes { c with session := (c.session.setResult d).1 } cs c' → Completes c (d :: cs) c'
  | callback {c c₁ c' : Connection} {d : Completion Source} {cs : List (Completion Source)}
    {func : Callback} : (c.session.setResult d).2 = some func →
    RequestFree { c with session := (c.session.setResult d).1 } c₁ → Completes c₁ cs c' →
    Completes c (d :: cs) c'

end

/-- What a callback does that sends no requests, and no notifications but such as are written on the open
socket. -/
inductive Unfailing : Connection → Connection → Prop where
  | done (c : Connection) : Unfailing c c
  | sendFree {c c' : Connection} {session : Session Source} : SendFree c.session session →
    Unfailing { c with session } c' → Unfailing c c'
  | notify {c c' : Connection} (bytes : List UInt8) : c.handler.isOpen = true →
    Unfailing { c with handler := c.handler.sendData bytes } c' → Unfailing c c'

section
variable {c c₁ c' : Connection} {cs cs₁ : List (Completion Source)} {P : Setting}

theorem Unfailing.requestFree (h : Unfailing c c') : RequestFree c c' := by
  induction h with
  | done c => exact .done c
  | sendFree hs _ ih => exact .sendFree hs ih
  | notify bytes hopen _ ih => exact .notify bytes hopen ih

/-- Calls of `set_result`, if no callback sends requests. -/
theorem completes_foldl (h : ∀ func f c, RequestFree c (P.run func f c)) (c : Connection)
    (cs : List (Completion Source)) : Completes c cs (cs.foldl (complete P) c) := by
  induction cs generalizing c with
  | nil => exact .nil c
  | cons d cs ih =>
    have hrest := ih (complete P c d)
    rw [List.foldl_cons]
    rcases hr : c.session.setResult d with ⟨session, _ | func⟩
    · refine .silent (by rw [hr]) ?_
      rw [complete, hr] at hrest ⊢
      exact hrest
    · refine .callback (by rw [hr]) ?_ hrest
      rw [complete, hr]
      exact h func d.future { c with session }

/-- A callback that sends a notification, whether it is written or not. -/
theorem requestFree_sendData (h : ∀ func f c, RequestFree c (P.run func f c)) (c : Connection)
    (bytes : List UInt8) (ok : Bool) : RequestFree c (sendData P c bytes ok) := by
  unfold sendData
  by_cases hopen : c.handler.isOpen
  · rw [if_pos hopen]
    cases ok with
    | true => exact .notify bytes hopen (.done _)
    | false => exact .notifyFailed hopen (P.perm _) (completes_foldl h _ _) (.done _)
  · rw [if_neg hopen]
    exact .done c

/-! ## What a connection completes -/

/-- From `h` to `h'` a handler does nothing but write. -/
def Writes (h h' : StreamHandler) : Prop := ∃ written, h' = { h with written }

theorem Writes.refl (h : StreamHandler) : Writes h h := ⟨h.written, rfl⟩

theorem Writes.trans {h h₁ h' : StreamHandler} (h₁' : Writes h h₁) (h₂ : Writes h₁ h') :
    Writes h h' := by
  obtain ⟨w₁, rfl⟩ := h₁'
  obtain ⟨w₂, rfl⟩ := h₂
  exact ⟨w₂, rfl⟩

/-- A callback whose notifications are written. -/
theorem Unfailing.writes (h : Unfailing c c') : Writes c.handler c'.handler := by
  induction h with
  | done c => exact .refl _
  | sendFree _ _ ih => exact ih
  | @notify c c' bytes hopen _ ih =>
    have hsend : Writes c.handler (c.handler.sendData bytes) :=
      ⟨c.handler.written ++ bytes, by rw [StreamHandler.sendData, if_pos hopen]⟩
    exact hsend.trans ih

/-- It completes nothing but by waiting, and takes nothing out of the table. -/
theorem Unfailing.settles (h : Unfailing c c') :
    Settles c.session c'.session [] ∧ c'.session.reqtable = c.session.reqtable := by
  induction h with
  | done c => exact ⟨Session.settles_of_eq rfl rfl, rfl⟩
  | sendFree hs _ ih =>
    obtain ⟨hset, htab⟩ := hs.settles
    exact ⟨by simpa using hset.trans ih.1 (by simp), ih.2.trans htab⟩
  | notify _ _ _ ih => exact ih

section
variable (hcallbacks : ∀ func f c, Unfailing c (P.run func f c))
include hcallbacks

/-- Calls of `set_result` with their callbacks. -/
theorem writes_foldl_complete (c : Connection) (cs : List (Completion Source)) :
    Writes c.handler (cs.foldl (complete P) c).handler := by
  induction cs generalizing c with
  | nil => exact .refl _
  | cons d cs ih =>
    have hd : Writes c.handler (complete P c d).handler := by
      unfold complete
      rcases c.session.setResult d with ⟨session, _ | func⟩
      · exact .refl _
      · exact (hcallbacks func d.future { c with session }).writes
    exact hd.trans (ih (complete P c d))

theorem writes_receive (c : Connection) (m : Message) :
    Writes c.handler (receive P c m).handler := by
  cases m with
  | response msgid result error =>
    exact writes_foldl_complete hcallbacks
      { c with session := (c.session.onResponse .response msgid result error).1 } _
  | notify method params => exact .refl _
  | request msgid method params => exact .refl _

theorem writes_failAll (c : Connection) : Writes c.handler (failAll P c).handler :=
  writes_foldl_complete hcallbacks
    { c with
      session := (c.session.onSystemError .systemError (P.iterators c.session.reqtable)).1 } _

/-- One call of `set_result` with its callback. -/
theorem settles_complete (c : Connection) {d : Completion Source} (hd : d.origin ≠ .timedWait) :
    Settles c.session (complete P c d).session [d] ∧
      (complete P c d).session.reqtable = c.session.reqtable := by
  have hset := Session.settles_setResult c.session hd
  have htab : (c.session.setResult d).1.reqtable = c.session.reqtable := by
    rw [Session.setResult_frame]
  unfold complete
  rcases hr : c.session.setResult d with ⟨session, _ | func⟩ <;> rw [hr] at hset htab
  · exact ⟨hset, htab⟩
  · obtain ⟨hrun, hrun'⟩ := (hcallbacks func d.future { c with session }).settles
    exact ⟨by simpa using hset.trans hrun (by simp), hrun'.trans htab⟩

/-- Calls of `set_result` on different futures, one after the other. -/
theorem settles_foldl_complete (c : Connection) (hcs : ∀ d ∈ cs, d.origin ≠ .timedWait)
    (hnodup : (cs.map Completion.future).Nodup) :
    Settles c.session (cs.foldl (complete P) c).session cs ∧
      (cs.foldl (complete P) c).session.reqtable = c.session.reqtable := by
  induction cs generalizing c with
  | nil => exact ⟨Session.settles_of_eq rfl rfl, rfl⟩
  | cons d cs ih =>
    rw [List.map_cons, List.nodup_cons] at hnodup
    obtain ⟨hd, hd'⟩ := settles_complete hcallbacks c (hcs d (.head _))
    obtain ⟨hrest, hrest'⟩ := ih (complete P c d) (fun d hd => hcs d (.tail _ hd)) hnodup.2
    refine ⟨hd.trans hrest ?_, hrest'.trans hd'⟩
    intro d' hd'
    obtain rfl := List.mem_singleton.1 hd'
    exact hnodup.1

/-- The completions of the futures that an operation has taken out of the table. -/
theorem settles_hands {session : Session Source} (c : Connection)
    (hands : Session.Hands c.session session cs) (hcs : ∀ d ∈ cs, d.origin ≠ .timedWait)
    (hnodup : c.session.reqtable.values.Nodup) :
    Settles c.session (cs.foldl (complete P) { c with session }).session cs ∧
      (cs.foldl (complete P) { c with session }).session.reqtable = session.reqtable := by
  have htaken : Settles c.session session [] :=
    Session.settles_of_eq (Future.map_eq_of_untimed (fun _ => rfl) hands.futures)
      (by rw [hands.frame])
  rw [hands.values, Multiset.nodup_add, Multiset.coe_nodup] at hnodup
  obtain ⟨hdone, htab⟩ := settles_foldl_complete hcallbacks { c with session } hcs hnodup.1
  exact ⟨htaken.trans hdone (by simp), htab⟩

/-- **A message is taken.** A response completes the future that waits for it. -/
theorem answered_receive (c : Connection) (m : Message)
    (hnodup : c.session.reqtable.values.Nodup) :
    ∃ cs, Answered c.session (receive P c m).session [m] cs := by
  cases m with
  | response msgid result error =>
    have horigin : ∀ d ∈ (c.session.onResponse .response msgid result error).2,
        d.origin ≠ .timedWait := fun d hd => by simp [(Session.onResponse_origin hd).1.1]
    obtain ⟨hset, htab⟩ := settles_hands hcallbacks c
      (Session.hands_onResponse c.session .response msgid result error) horigin hnodup
    exact ⟨_, Session.answered_onResponse hset htab⟩
  | notify method params =>
    exact ⟨[], Session.settles_of_eq rfl rfl, by simp [receive], fun _ => rfl, by simp⟩
  | request msgid method params =>
    exact ⟨[], Session.settles_of_eq rfl rfl, by simp [receive], fun _ => rfl, by simp⟩

/-- **The connection fails.** What was answered stays so, and the rest of the table gets
`CONNECT_ERROR`. -/
theorem disposed_failAll {s : Session Source} {msgs : List Message}
    {pending : Multiset (Completion Source)} (h : Answered s c.session msgs cs)
    (hcons : Session.Conserved s pending) : Disposed s (failAll P c).session msgs := by
  have hit := P.perm c.session.reqtable
  have horigin : ∀ d ∈ (c.session.onSystemError .systemError (P.iterators c.session.reqtable)).2,
      d.origin ≠ .timedWait := fun d hd => by simp [(Session.hand_origin hd).1]
  obtain ⟨hset, htab⟩ := settles_hands hcallbacks c
    (Session.hands_sweep c.session .systemError CONNECT_ERROR hit).1 horigin
    (h.nodup hcons.nodup_values)
  exact h.disposed hcons hit hset htab

/-! ## The handler of a connection -/

/-- What `on_message` does to the handler is what that of a client socket does, up to what the
callbacks write. -/
theorem handler_onMessage (c : Connection) (msg : Object) :
    ∃ dispatched calls written,
      (onMessage P c msg).1.handler = { c.handler with dispatched, calls, written } ∧
      StreamHandler.onMessage StreamHandler.clientSocket (c.handler.dispatched, c.handler.calls) msg =
        ((dispatched, calls), (onMessage P c msg).2) := by
  unfold onMessage StreamHandler.onMessage handOver
  rcases MsgpackRpc.onMessage msg with e | m
  · exact ⟨_, _, _, rfl, rfl⟩
  · cases m with
    | request msgid method params => exact ⟨_, _, _, rfl, rfl⟩
    | response msgid result error =>
      obtain ⟨w, hw⟩ := writes_receive hcallbacks { c with
        handler.dispatched := c.handler.dispatched ++ [msg]
        handler.calls := c.handler.calls ++ [.response msgid result error] }
        (.response msgid result error)
      exact ⟨_, _, w, hw, rfl⟩
    | notify method params => exact ⟨_, _, _, rfl, rfl⟩

theorem handler_handleAll (c : Connection) (os : List Object) :
    ∃ dispatched calls written,
      (handleAll (onMessage P) c os).1.handler = { c.handler with dispatched, calls, written } ∧
      handleAll (StreamHandler.onMessage StreamHandler.clientSocket)
        (c.handler.dispatched, c.handler.calls) os =
          ((dispatched, calls), (handleAll (onMessage P) c os).2) := by
  induction os generalizing c with
  | nil => exact ⟨_, _, _, rfl, rfl⟩
  | cons o os ih =>
    obtain ⟨ds, ms, w, hc, hh⟩ := handler_onMessage hcallbacks c o
    rw [handleAll, handleAll, hh]
    rcases hr : onMessage P c o with ⟨c₁, _ | e⟩ <;> rw [hr] at hc
    · obtain ⟨ds', ms', w', hc', hh'⟩ := ih c₁
      dsimp only at hc
      rw [hc] at hc' hh'
      exact ⟨ds', ms', w', hc', hh'⟩
    · exact ⟨ds, ms, w, hc, rfl⟩

/-- The loop of `on_read`. -/
theorem handler_drain (c : Connection) (p xs : List UInt8) :
    ∃ dispatched calls written,
      (drain P.decoder (onMessage P) .parseError c p xs).2.1.handler =
        { c.handler with dispatched, calls, written } ∧
      drain P.decoder (StreamHandler.onMessage StreamHandler.clientSocket) .parseError
        (c.handler.dispatched, c.handler.calls) p xs =
          ((drain P.decoder (onMessage P) .parseError c p xs).1, (dispatched, calls),
            (drain P.decoder (onMessage P) .parseError c p xs).2.2) := by
  have hmsg (c : Connection) (o : Object) :
      StreamHandler.onMessage StreamHandler.clientSocket (c.handler.dispatched, c.handler.calls) o =
        (((onMessage P c o).1.handler.dispatched, (onMessage P c o).1.handler.calls),
          (onMessage P c o).2) := by
    obtain ⟨ds, ms, w, hc, hh⟩ := handler_onMessage hcallbacks c o
    rw [hh, hc]
  have hd := drain_map P.decoder (fun c : Connection => (c.handler.dispatched, c.handler.calls)) hmsg
    Exn.parseError c p xs
  obtain ⟨ds, ms, w, hc, -⟩ := handler_handleAll hcallbacks c (values P.decoder p xs).1
  rw [← drain_state P.decoder (onMessage P) Exn.parseError] at hc
  rw [hc] at hd
  exact ⟨ds, ms, w, hc, hd⟩

theorem handler_drainRead (c : Connection) (bytes : List UInt8) :
    Writes (c.handler.drainRead P.decoder StreamHandler.clientSocket bytes).1
        (drainRead P c bytes).1.handler ∧
      (c.handler.drainRead P.decoder StreamHandler.clientSocket bytes).2 =
        (drainRead P c bytes).2 := by
  obtain ⟨ds, ms, w, hc, hd⟩ := handler_drain hcallbacks c c.handler.pac.parsed
    (c.handler.pac.received ++ bytes)
  unfold drainRead StreamHandler.drainRead
  dsimp only [Unpacker.feed]
  rw [hd]
  rcases hr : drain P.decoder (onMessage P) .parseError c c.handler.pac.parsed
    (c.handler.pac.received ++ bytes) with ⟨pac, ⟨h, session⟩, _ | e⟩ <;> rw [hr] at hc <;>
    dsimp only at hc ⊢ <;> subst hc
  · by_cases hlarge : pac.messageSize > maxMessageSize
    · rw [if_pos hlarge, if_pos hlarge]
      exact ⟨⟨w, rfl⟩, rfl⟩
    · rw [if_neg hlarge, if_neg hlarge]
      exact ⟨⟨w, rfl⟩, rfl⟩
  · exact ⟨⟨w, rfl⟩, rfl⟩

/-- **The handler of a connection** is the stream handler of a client socket, up to what the callbacks
write. -/
theorem handler_onRead (c : Connection) (r : ReadCompletion) :
    Writes (c.handler.onRead P.decoder StreamHandler.clientSocket r) (onRead P c r).handler := by
  have hfailed (h : StreamHandler) (c : Connection) (hc : Writes h c.handler) :
      Writes h.onReadFailed (onReadFailed P c).handler := by
    obtain ⟨w, hw⟩ := hc.trans (writes_failAll hcallbacks c)
    exact ⟨w, by rw [onReadFailed, onSystemError, hw]; rfl⟩
  cases r with
  | error value => exact hfailed _ _ (.refl _)
  | ok bytes =>
    obtain ⟨⟨w, hw⟩, he⟩ := handler_drainRead hcallbacks (readDone c) bytes
    unfold onRead StreamHandler.onRead
    dsimp only
    have hread : { c.handler with reads := c.handler.reads - 1 } = (readDone c).handler := rfl
    rw [hread]
    rcases hr : drainRead P (readDone c) bytes with ⟨c₁, _ | e⟩ <;>
      rcases hh : (readDone c).handler.drainRead P.decoder StreamHandler.clientSocket bytes with
        ⟨h, exn⟩ <;>
      rw [hr, hh] at he hw <;> dsimp only at he hw <;> subst he
    · exact ⟨w, by dsimp only; rw [hw]; rfl⟩
    · exact hfailed _ _ ⟨w, by dsimp only; rw [hw]⟩

end

end

end Connection

end Tcp

end MsgpackRpc
