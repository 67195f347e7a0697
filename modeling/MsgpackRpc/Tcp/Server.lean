import MsgpackRpc.Lib.Threads
import MsgpackRpc.Stream.Handler

/-!
# The TCP server transport

`tcp::server_transport` and its `server_socket`s (`transport/tcp.cc:287`) over `stream_handler`, as a
system of threads. The handlers that the loop delivers are `on_accept` and `on_read`; responses are
written by the dispatcher inside `on_read` and, when it has kept a request, by any thread at any later
time. `on_accept`, `close` and `on_system_error` are one step each, since they hold `m_mutex` or are
not called at the same time as one another; `on_read` is one step for each message, and what a socket
goes through when nothing else happens is `stream_handler::on_read` (`onRead_alone`).

Of Boost.Asio: an accept or a read that was started completes at some time, after which its handler is
delivered; closing the acceptor completes the outstanding accept with `operation_aborted`, and an
accept started on a closed acceptor completes with an error; `remote_endpoint` throws `ENOTCONN` when
the peer has disconnected. The operands of a log statement are evaluated when its record passes the
filter; `debug` is whether debug records do. An exception that leaves a handler ends the handler.
-/

namespace MsgpackRpc

open Threads Unpack

namespace Tcp

/-- A `server_socket`, by its place in the order of construction. -/
abbrev SocketId := Nat

/-- An `async_accept` whose handler has not run: the socket that it accepts into, and how it has
completed. -/
structure Accept where
  socket : SocketId
  result : Option Bool
  deriving DecidableEq, Repr

/-- `server_transport`: whether `m_acceptor` is open, `m_conn`, `m_connections`, all `server_socket`s
constructed, and the accepts outstanding. The rest is not in the source: the sockets that `on_accept`
has inserted, those for which an error was reported, how often a null `m_conn` was used, and how many
exceptions left `on_accept`. -/
structure ServerTransport where
  acceptorOpen : Bool := true
  conn : Option SocketId := none
  connections : List (Option SocketId) := []
  sockets : List StreamHandler := []
  accepts : List Accept := []
  accepted : List SocketId := []
  reported : List SocketId := []
  nullUses : Nat := 0
  escaped : Nat := 0
  deriving DecidableEq, Repr

namespace ServerTransport

/-- The operations. -/
inductive Op where
  -- an accept completes
  | acceptCompletes (k : Nat) (ok : Bool)
  -- handlers of the loop
  | onAccept (k : Nat)
  | onRead (i : SocketId) (r : ReadCompletion)
  -- the rest of `on_read`: the loop, the next read, `on_system_error` after an error or an exception
  | drain (i : SocketId)
  | start (i : SocketId)
  | onReadFailed (i : SocketId) (e : Option Exn)
  | removeNonparsedBuffer (i : SocketId)
  -- a response is written; `on_system_error` after a write that failed
  | sendData (i : SocketId)
  | onSystemError (i : SocketId)
  | close
  deriving DecidableEq, Repr

/-- What an operation does not determine: the peers that have disconnected, whether `set_option`
succeeds, the responses that the dispatcher writes and what it throws, and whether a write succeeds. -/
structure Choice where
  gone : List SocketId := []
  noDelay : Bool := true
  calls : List Op := []
  throws : Option Exn := none
  written : Bool := true
  deriving DecidableEq, Repr

/-- The operations that start a thread. -/
def Op.entry : Op → Bool
  | .acceptCompletes _ _ | .onAccept _ | .onRead _ _ | .sendData _ | .onSystemError _ | .close => true
  | _ => false

/-- What a dispatcher calls on the transport. -/
def Op.answers : Op → Bool
  | .sendData _ => true
  | _ => false

/-- `server_transport::start_accept` (`tcp.cc:416`). -/
def startAccept (s : ServerTransport) : ServerTransport :=
  let i := s.sockets.length
  { s with
    conn := some i
    sockets := s.sockets ++ [{}]
    accepts := s.accepts ++ [⟨i, if s.acceptorOpen then none else some false⟩] }

/-- The constructor (`tcp.cc:378`). -/
def init : Config ServerTransport Op := ⟨startAccept {}, []⟩

/-- `server_transport::get_connection_num` (`tcp.cc:443`). -/
def getConnectionNum (s : ServerTransport) : Nat := s.connections.length

section
variable (debug : Bool)

/-- `server_transport::on_accept` (`tcp.cc:430`). Its log statement and `set_option` throw between the
insertion and the read. What happens after a null `m_conn` is used is undefined; here the handler
ends. -/
def onAccept (s : ServerTransport) (ok : Bool) (x : Choice) : ServerTransport :=
  if ok then
    match s.conn with
    | none => { s with connections := s.connections.insert none, nullUses := s.nullUses + 1 }
    | some i =>
      let s := { s with
        connections := s.connections.insert (some i)
        accepted := s.accepted ++ [i] }
      if debug && i ∈ x.gone then { s with escaped := s.escaped + 1 }
      else if x.noDelay then
        startAccept { s with sockets := s.sockets.modify i StreamHandler.start }
      else { s with escaped := s.escaped + 1 }
  else s.startAccept

/-- `stream_handler::stop` (`stream_handler.cc:37`), where `gone` is whether the peer has disconnected.
The exception of the log statement is caught, and the socket is not closed. -/
def stopped (gone : Bool) (h : StreamHandler) : StreamHandler :=
  if h.isOpen then
    if debug && gone then h else h.onSystemError
  else h

/-- `stop` on a connection; on a null pointer it is undefined. -/
def stop (gone : List SocketId) (s : ServerTransport) : Option SocketId → ServerTransport
  | some i => { s with sockets := s.sockets.modify i (stopped debug (i ∈ gone)) }
  | none => { s with nullUses := s.nullUses + 1 }

/-- `server_transport::on_system_error` (`tcp.cc:423`). -/
def onSystemError (s : ServerTransport) (i : SocketId) (gone : List SocketId) : ServerTransport :=
  stop debug gone
    { s with connections := s.connections.erase (some i), reported := s.reported ++ [i] } (some i)

/-- The outstanding accepts when the acceptor is closed. -/
def abort (a : Accept) : Accept := { a with result := some (a.result.getD false) }

/-- The first part of `close`: the acceptor is closed, and the `server_socket` in `m_conn` is destroyed
unless it is a member, which closes its socket. -/
def closing (s : ServerTransport) : ServerTransport :=
  { s with
    acceptorOpen := false
    accepts := s.accepts.map abort
    conn := none
    sockets := match s.conn with
      | some i =>
        if some i ∈ s.connections then s.sockets else s.sockets.modify i StreamHandler.onSystemError
      | none => s.sockets }

/-- `server_transport::close` (`tcp.cc:405`). -/
def close (s : ServerTransport) (gone : List SocketId) : ServerTransport :=
  { s.connections.foldl (stop debug gone) s.closing with connections := [] }

end

/-- A socket of the transport is changed. -/
def withSocket (s : ServerTransport) (i : SocketId) (h : StreamHandler) : ServerTransport :=
  { s with sockets := s.sockets.set i h }

/-- One round of the loop of `on_read` (`stream_handler.cc:60`): the handler, and what is left to do. -/
def drainOne (d : Decoder UInt8 Object) (i : SocketId) (h : StreamHandler) (x : Choice) :
    Option (StreamHandler × List Op) :=
  match next d h.pac.parsed h.pac.received with
  | .none u =>
    some ({ h with pac := u }, if u.messageSize > maxMessageSize then
      [.onReadFailed i (some .messageTooLarge)] else [.start i])
  | .bad u => some ({ h with pac := u }, [.onReadFailed i (some .parseError)])
  | .value msg u =>
    let h := { h with pac := u, dispatched := h.dispatched ++ [msg] }
    match MsgpackRpc.onMessage msg with
    | .error e => some (h, [.onReadFailed i (some e)])
    | .ok m =>
      let h := { h with calls := h.calls ++ [m] }
      match m with
      | .response .. => some (h, [.onReadFailed i (some .typeError)])
      | .request .. | .notify .. =>
        if x.calls.all Op.answers then
          some (h, x.calls ++ match x.throws with
            | none => [.drain i]
            | some e => [.onReadFailed i (some e)])
        else none

/-- The transport as a system of threads, over a byte format. -/
def machine (d : Decoder UInt8 Object) (debug : Bool) : System ServerTransport Op Choice where
  entry := Op.entry
  exec s op x :=
    match op with
    | .acceptCompletes k ok =>
      match s.accepts[k]? with
      | some ⟨i, none⟩ =>
        some ({ s with
          accepts := s.accepts.set k ⟨i, some ok⟩
          sockets := if ok then s.sockets.modify i fun h => { h with isOpen := true }
            else s.sockets }, [])
      | _ => none
    | .onAccept k =>
      match s.accepts[k]? with
      | some ⟨_, some ok⟩ =>
        some (onAccept debug { s with accepts := s.accepts.eraseIdx k } ok x, [])
      | _ => none
    | .onRead i r =>
      s.sockets[i]?.bind fun h =>
        if 0 < h.reads then
          match r with
          | .ok bytes =>
            some (s.withSocket i { h with reads := h.reads - 1, pac := h.pac.feed bytes }, [.drain i])
          | .error _ => some (s.withSocket i { h with reads := h.reads - 1 }, [.onReadFailed i none])
        else none
    | .drain i =>
      s.sockets[i]?.bind fun h => (drainOne d i h x).map fun (h, k) => (s.withSocket i h, k)
    | .start i => s.sockets[i]?.map fun h => (s.withSocket i h.start, [])
    | .onReadFailed i e =>
      s.sockets[i]?.map fun h =>
        (onSystemError debug (s.withSocket i { h with raised := h.raised ++ e.toList }) i x.gone,
          [.removeNonparsedBuffer i])
    | .removeNonparsedBuffer i =>
      s.sockets[i]?.map fun h =>
        (s.withSocket i { h with pac := h.pac.removeNonparsedBuffer }, [])
    | .sendData i =>
      if i ∈ s.accepted then
        s.sockets[i]?.map fun h => (s, if h.isOpen && !x.written then [.onSystemError i] else [])
      else none
    | .onSystemError i =>
      if i ∈ s.accepted then some (onSystemError debug s i x.gone, []) else none
    | .close => some (close debug s x.gone, [])

/-! ## Steps -/

/-- The operations of an `on_read` of a socket that may still arm its next read. -/
def Op.reading (i : SocketId) : Op → Bool
  | .drain j | .start j | .onReadFailed j _ => j == i
  | _ => false

/-- What a part of an `on_read` of `i` does: it takes a read that was outstanding, goes on, or arms the
next one. -/
structure Reads (i : SocketId) (op : Op) (h h' : StreamHandler) (k : List Op) : Prop where
  isOpen : h'.isOpen = h.isOpen
  count : h'.reads + k.countP (Op.reading i) = h.reads + [op].countP (Op.reading i)
  others : ∀ j ≠ i, k.countP (Op.reading j) = 0 ∧ op.reading j = false

/-- What a step does. -/
inductive Steps (debug : Bool) (s : ServerTransport) (x : Choice) :
    Op → ServerTransport → List Op → Prop where
  | acceptCompletes {k : Nat} {i : SocketId} (ok : Bool) : s.accepts[k]? = some ⟨i, none⟩ →
    Steps debug s x (.acceptCompletes k ok) { s with
      accepts := s.accepts.set k ⟨i, some ok⟩
      sockets := if ok then s.sockets.modify i fun h => { h with isOpen := true } else s.sockets } []
  | onAccept {k : Nat} {i : SocketId} {ok : Bool} : s.accepts[k]? = some ⟨i, some ok⟩ →
    Steps debug s x (.onAccept k)
      (onAccept debug { s with accepts := s.accepts.eraseIdx k } ok x) []
  | read {op : Op} {i : SocketId} {h h' : StreamHandler} {k : List Op} : s.sockets[i]? = some h →
    Reads i op h h' k → Steps debug s x op (s.withSocket i h') k
  | onReadFailed {i : SocketId} {h : StreamHandler} (e : Option Exn) : s.sockets[i]? = some h →
    Steps debug s x (.onReadFailed i e)
      (onSystemError debug (s.withSocket i { h with raised := h.raised ++ e.toList }) i x.gone)
      [.removeNonparsedBuffer i]
  | sendData {i : SocketId} {k : List Op} : i ∈ s.accepted → k = [] ∨ k = [.onSystemError i] →
    Steps debug s x (.sendData i) s k
  | onSystemError {i : SocketId} : i ∈ s.accepted →
    Steps debug s x (.onSystemError i) (onSystemError debug s i x.gone) []
  | close : Steps debug s x .close (close debug s x.gone) []

section
variable {d : Decoder UInt8 Object} {debug : Bool} {s s' : ServerTransport} {op : Op} {x : Choice}
  {k : List Op} {i j : SocketId}

theorem answers_reading (h : op.answers = true) : op.reading j = false := by
  cases op <;> first | rfl | cases h

theorem countP_answers {calls : List Op} (h : ∀ o ∈ calls, o.answers = true) :
    calls.countP (Op.reading j) = 0 := by
  rw [List.countP_eq_zero]
  intro o ho
  rw [answers_reading (h o ho)]
  exact Bool.false_ne_true

/-- A round of the loop that writes responses and goes on with one more operation. -/
theorem reads_of_calls {h h' : StreamHandler} {calls : List Op} {o : Op}
    (hcalls : ∀ o ∈ calls, o.answers = true) (hopen : h'.isOpen = h.isOpen)
    (hreads : h'.reads = h.reads) (ho : ∀ j, o.reading j = (i == j)) :
    Reads i (.drain i) h h' (calls ++ [o]) := by
  have hdrain (j : SocketId) : (Op.drain i).reading j = (i == j) := rfl
  refine ⟨hopen, ?_, ?_⟩
  · rw [List.countP_append, countP_answers hcalls, hreads, List.countP_singleton,
      List.countP_singleton, ho, hdrain, Nat.zero_add]
  · intro j hj
    have hne : (i == j) = false := beq_eq_false_iff_ne.2 (Ne.symm hj)
    rw [List.countP_append, countP_answers hcalls, List.countP_singleton, ho, hdrain, hne]
    exact ⟨rfl, rfl⟩

/-- A round of the loop leads to exactly one operation that goes on with the `on_read`. -/
theorem reads_drainOne {h h' : StreamHandler} (hd : drainOne d i h x = some (h', k)) :
    Reads i (.drain i) h h' k := by
  have single {h' : StreamHandler} {o : Op} (hopen : h'.isOpen = h.isOpen)
      (hreads : h'.reads = h.reads) (ho : ∀ j, o.reading j = (i == j)) :
      Reads i (.drain i) h h' [o] := by
    have hnil : ∀ o ∈ ([] : List Op), o.answers = true := by simp
    exact reads_of_calls hnil hopen hreads ho
  unfold drainOne at hd
  split at hd
  · cases hd
    split <;> exact single rfl rfl fun _ => rfl
  · cases hd
    exact single rfl rfl fun _ => rfl
  · dsimp only at hd
    split at hd
    · cases hd
      exact single rfl rfl fun _ => rfl
    · split at hd
      · cases hd
        exact single rfl rfl fun _ => rfl
      all_goals
        split at hd
        · next hall =>
          cases hd
          have hcalls := List.all_eq_true.1 hall
          cases x.throws with
          | none => exact reads_of_calls hcalls rfl rfl fun _ => rfl
          | some e => exact reads_of_calls hcalls rfl rfl fun _ => rfl
        · cases hd

theorem exec_steps (hx : (machine d debug).exec s op x = some (s', k)) :
    Steps debug s x op s' k := by
  cases op with
  | acceptCompletes n ok =>
    simp only [machine] at hx
    split at hx
    · next hk =>
      cases hx
      exact .acceptCompletes ok hk
    · cases hx
  | onAccept n =>
    simp only [machine] at hx
    split at hx
    · next hk =>
      cases hx
      exact .onAccept hk
    · cases hx
  | onRead i r =>
    obtain ⟨h, hi, hx⟩ := Option.bind_eq_some_iff.1 hx
    split at hx
    · next hpos =>
      have hsub : h.reads - 1 + 1 = h.reads := Nat.sub_add_cancel hpos
      cases r with
      | ok bytes =>
        cases hx
        refine .read hi ⟨rfl, ?_, ?_⟩
        · simpa [Op.reading] using hsub
        · intro j hj
          simp [Op.reading, Ne.symm hj]
      | error value =>
        cases hx
        refine .read hi ⟨rfl, ?_, ?_⟩
        · simpa [Op.reading] using hsub
        · intro j hj
          simp [Op.reading, Ne.symm hj]
    · cases hx
  | drain i =>
    obtain ⟨h, hi, hx⟩ := Option.bind_eq_some_iff.1 hx
    obtain ⟨⟨h', k'⟩, hd, he⟩ := Option.map_eq_some_iff.1 hx
    cases he
    exact .read hi (reads_drainOne hd)
  | start i =>
    obtain ⟨h, hi, he⟩ := Option.map_eq_some_iff.1 hx
    cases he
    refine .read hi ⟨rfl, ?_, ?_⟩
    · simp [Op.reading, StreamHandler.start]
    · intro j hj
      simp [Op.reading, Ne.symm hj]
  | onReadFailed i e =>
    obtain ⟨h, hi, he⟩ := Option.map_eq_some_iff.1 hx
    cases he
    exact .onReadFailed e hi
  | removeNonparsedBuffer i =>
    obtain ⟨h, hi, he⟩ := Option.map_eq_some_iff.1 hx
    cases he
    refine .read hi ⟨rfl, ?_, ?_⟩
    · simp [Op.reading]
    · intro j hj
      simp [Op.reading]
  | sendData i =>
    simp only [machine] at hx
    split at hx
    · next hi =>
      obtain ⟨h, -, he⟩ := Option.map_eq_some_iff.1 hx
      cases he
      refine .sendData hi ?_
      split
      · exact .inr rfl
      · exact .inl rfl
    · cases hx
  | onSystemError i =>
    simp only [machine] at hx
    split at hx
    · next hi =>
      cases hx
      exact .onSystemError hi
    · cases hx
  | close =>
    cases hx
    exact .close

end

section
variable {d : Decoder UInt8 Object} {debug : Bool} {s : ServerTransport} {i : SocketId}
  {h h' : StreamHandler} {op : Op} {x : Choice}

/-! ## A read that is left alone -/

theorem withSocket_self (hh : s.sockets[i]? = some h) (h' : StreamHandler) :
    (s.withSocket i h').sockets[i]? = some h' := by
  rw [withSocket, List.getElem?_set_self (List.getElem?_eq_some_iff.1 hh).1]

theorem stopped_present (debug : Bool) (h : StreamHandler) :
    stopped debug false h = h.onSystemError := by
  unfold stopped
  split
  · rw [Bool.and_false]
    rfl
  · next hclosed =>
    rw [StreamHandler.onSystemError, ← Bool.eq_false_iff.2 hclosed]

variable (d debug) in
/-- The end of an `on_read` that has failed, with the peer still there. -/
theorem onReadFailed_alone (e : Option Exn) (hh : s.sockets[i]? = some h) :
    ∃ s', (machine d debug).Alone s [.onReadFailed i e] s' [] ∧
      s'.sockets[i]? = some { h with raised := h.raised ++ e.toList }.onReadFailed := by
  have hx : (machine d debug).exec s (.onReadFailed i e) {} = some
      (onSystemError debug (s.withSocket i { h with raised := h.raised ++ e.toList }) i [],
        [.removeNonparsedBuffer i]) := by
    simp only [machine, hh, Option.map_some]
  have hs : (onSystemError debug (s.withSocket i { h with raised := h.raised ++ e.toList }) i
      []).sockets[i]? = some { h with raised := h.raised ++ e.toList }.onSystemError := by
    show (List.modify _ _ _)[i]? = _
    rw [List.getElem?_modify_eq, withSocket_self hh]
    exact congrArg some (stopped_present debug _)
  refine ⟨_, .exec {} hx (.exec (k := []) {} ?_ (.refl _ _)), withSocket_self hs _⟩
  simp only [machine, hs, Option.map_some]
  rfl

theorem start_alone (hh : s.sockets[i]? = some h) :
    ∃ s', (machine d debug).Alone s [.start i] s' [] ∧ s'.sockets[i]? = some h.start := by
  refine ⟨_, .exec (k := []) {} ?_ (.refl _ _), withSocket_self hh _⟩
  simp only [machine, hh, Option.map_some]

/-- One round of the loop, in a thread that is left alone. -/
theorem drain_alone_step (hh : s.sockets[i]? = some h) (hd : drainOne d i h x = some (h', [op]))
    {r : StreamHandler}
    (hrest : ∀ s', s'.sockets[i]? = some h' →
      ∃ s'', (machine d debug).Alone s' [op] s'' [] ∧ s''.sockets[i]? = some r) :
    ∃ s', (machine d debug).Alone s [.drain i] s' [] ∧ s'.sockets[i]? = some r := by
  obtain ⟨s', halone, hs'⟩ := hrest (s.withSocket i h') (withSocket_self hh h')
  refine ⟨s', .exec (k := [op]) x ?_ halone, hs'⟩
  simp only [machine, hh, Option.bind_some, hd, Option.map_some]

/-- A round of the loop that hands a message to a receiver that writes nothing. -/
theorem drainOne_value (serverLocks : Nat → Bool) (dispatch : Receiver) {msg : Object} {m : Message}
    {u : Unpacker UInt8} (hnext : next d h.pac.parsed h.pac.received = .value msg u)
    (hm : MsgpackRpc.onMessage msg = .ok m) :
    drainOne d i h { throws := ServerSocket.receiver serverLocks dispatch h.calls.length m } =
      some ({ h with pac := u, dispatched := h.dispatched ++ [msg], calls := h.calls ++ [m] },
        [(ServerSocket.receiver serverLocks dispatch h.calls.length m).elim (.drain i) fun e =>
          .onReadFailed i (some e)]) := by
  rw [drainOne, hnext]
  dsimp only
  rw [hm]
  cases m with
  | response => rfl
  | request | notify =>
    generalize ServerSocket.receiver serverLocks dispatch h.calls.length _ = r
    cases r <;> rfl

variable (d debug) in
/-- The loop of an `on_read` and what comes after it. -/
theorem drain_alone (serverLocks : Nat → Bool) (dispatch : Receiver)
    (hh : s.sockets[i]? = some h) :
    ∃ s', (machine d debug).Alone s [.drain i] s' [] ∧ s'.sockets[i]? = some
      (StreamHandler.finishRead
        (h.drainRead d (ServerSocket.receiver serverLocks dispatch) [])) := by
  -- a round that hands over a message leaves fewer bytes
  generalize hn : h.pac.received.length = n
  induction n using Nat.strong_induction_on generalizing h s with
  | h n ih =>
    rw [StreamHandler.drainRead_next]
    cases hnext : next d h.pac.parsed h.pac.received with
    | none u =>
      dsimp only
      by_cases hlarge : u.messageSize > maxMessageSize
      · rw [if_pos hlarge]
        refine drain_alone_step (x := {}) hh ?_ fun s' =>
          onReadFailed_alone d debug (some .messageTooLarge)
        rw [drainOne, hnext]
        dsimp only
        rw [if_pos hlarge]
      · rw [if_neg hlarge]
        refine drain_alone_step (x := {}) hh ?_ fun s' => start_alone
        rw [drainOne, hnext]
        dsimp only
        rw [if_neg hlarge]
    | bad u =>
      refine drain_alone_step (x := {}) hh ?_ fun s' =>
        onReadFailed_alone d debug (some .parseError)
      rw [drainOne, hnext]
    | value msg u =>
      have hlt := next_value hnext
      cases hm : MsgpackRpc.onMessage msg with
      | error e =>
        simp only [StreamHandler.onMessage, handOver, hm]
        refine drain_alone_step (x := {}) hh ?_ fun s' => onReadFailed_alone d debug (some e)
        rw [drainOne, hnext]
        dsimp only
        rw [hm]
      | ok m =>
        have hone := drainOne_value (i := i) serverLocks dispatch hnext hm
        simp only [StreamHandler.onMessage, handOver, hm, id_eq]
        cases hr : ServerSocket.receiver serverLocks dispatch h.calls.length m with
        | none =>
          rw [hr] at hone
          refine drain_alone_step hh hone fun s' hs' => ?_
          unfold Unpacker.messageSize at hlt
          exact ih u.received.length (by omega) hs' rfl
        | some e =>
          rw [hr] at hone
          exact drain_alone_step hh hone fun s' => onReadFailed_alone d debug (some e)

/-- **A read that is left alone** does to its socket what `stream_handler::on_read` does, for a server
that has nothing to write and a peer that has not disconnected. -/
theorem onRead_alone (serverLocks : Nat → Bool) (dispatch : Receiver) (hh : s.sockets[i]? = some h)
    (hreads : 0 < h.reads) (r : ReadCompletion) :
    ∃ s', (machine d debug).Alone s [.onRead i r] s' [] ∧ s'.sockets[i]? = some
      (h.onRead d (ServerSocket.receiver serverLocks dispatch) r) := by
  cases r with
  | ok bytes =>
    obtain ⟨s', halone, hs'⟩ := drain_alone d debug serverLocks dispatch
      (withSocket_self hh { h with reads := h.reads - 1, pac := h.pac.feed bytes })
    refine ⟨s', .exec (k := [.drain i]) {} ?_ halone, ?_⟩
    · simp only [machine, hh, Option.bind_some, if_pos hreads]
    · rw [hs', StreamHandler.onRead_finishRead]
  | error e =>
    obtain ⟨s', halone, hs'⟩ := onReadFailed_alone d debug none
      (withSocket_self hh { h with reads := h.reads - 1 })
    refine ⟨s', .exec (k := [.onReadFailed i none]) {} ?_ halone, ?_⟩
    · simp only [machine, hh, Option.bind_some, if_pos hreads]
    · rw [hs', Option.toList_none, List.append_nil]
      rfl

end

end ServerTransport

end Tcp

end MsgpackRpc
