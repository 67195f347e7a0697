import MsgpackRpc.Session.Failure
import MsgpackRpc.Tcp.Steps

/-!
# Sending a request on a closed socket

`send_request` over TCP as one caller sees it, when no other thread and no handler of the session
comes in between and the callbacks make no calls at all: they send nothing, and neither attach a callback
nor wait for a future, so that none of the same sweep is completed by a wait that runs out. The future is
inserted, `client_transport::connect` tries to connect, and the message is written. `try_connect`, `on_connect` and `on_connect_failed`
(`tcp.cc:178`) call each other until an attempt succeeds, times out or is the last one that
`m_reconnect_limit` allows; `m_connecting` counts the attempts. What comes of it is decided by whether
the socket is open in the end.

`sendRequest_run` says that this is what a thread of `Tcp.machine` does that is left alone.
-/

namespace MsgpackRpc

open Threads

namespace Tcp

/-- How an attempt to connect ends: with a connection, or with an error code; `opened` is whether the
socket could be opened. -/
inductive Outcome where
  | success
  | failed (opened : Bool) (err : Nat)
  deriving DecidableEq, Repr

/-- The outcomes after which another attempt may be made. -/
def Outcome.retried : Outcome → Bool
  | .success => false
  | .failed _ err => decide (err ≠ ETIMEDOUT)

namespace Client

/-- The counter and the connect of `client_transport::try_connect` (`tcp.cc:212`). A socket that an
earlier attempt has opened stays open. -/
def attempt (s : Client) (c : Nat) : Outcome → Client
  | .success => { s with connecting := s.connecting + 1 }.establish c
  | .failed opened _ =>
    { s with
      connecting := s.connecting + 1
      socket := if opened then .opened else s.socket }

/-- `client_transport::on_connect_success` (`tcp.cc:178`), for the connection `n`. -/
def onConnectSuccess (s : Client) (n : Nat) : Client := s.cancelTimer.start n

/-- The end of `client_transport::on_connect_failed` (`tcp.cc:196`). -/
def giveUp (s : Client) (c : Nat) (it : List Reqtable.Entry) : Client :=
  let s := s.cancelTimer.closeSocket (.tryConnect c)
  { s with session := s.session.fail (.tryConnect c) it }

section
variable (c : Nat) (outcomes : Nat → Outcome) (it : List Reqtable.Entry)

/-- `client_transport::try_connect` (`tcp.cc:212`) with `on_connect` and `on_connect_failed`. The
outcomes are those of the attempts by their number, and `it` is the order in which a sweep walks the
table. -/
def tryConnect (s : Client) : Client :=
  match outcomes (s.connecting + 1).toNat with
  | .success => (s.attempt c .success).onConnectSuccess s.conns
  | .failed opened err =>
    if (s.attempt c (.failed opened err)).retries err then
      (s.attempt c (.failed opened err)).tryConnect
    else (s.attempt c (.failed opened err)).giveUp c it
termination_by (s.reconnectLimit - s.connecting).toNat
decreasing_by
  next h =>
    have hlt : s.connecting + 1 < s.reconnectLimit := (of_decide_eq_true h).2
    show (s.reconnectLimit - (s.connecting + 1)).toNat < (s.reconnectLimit - s.connecting).toNat
    omega

/-- `client_transport::connect` (`tcp.cc:241`): the exception that it throws, if any. -/
def connect (s : Client) : Client × Option GetError :=
  let s := { s.armTimer ⟨c, s.session.futures.length⟩ with connecting := 0 }
  let s := s.tryConnect c outcomes it
  (s, if s.socket.isOpen then none else some .connectError)

/-- `client_socket::on_system_error` (`tcp.cc:145`). -/
def onSystemError (s : Client) (o : Origin) : Client :=
  let s := { s with session := s.session.fail o it }
  if s.socket.isOpen then s.closeSocket o else s

/-- `stream_handler::send_data` (`stream_handler.cc:91`). `ok` is whether the write succeeds, if there
is a connection. -/
def handlerSendData (s : Client) (ok : Bool) : Client :=
  if s.socket.isOpen then
    match s.socket.conn, ok with
    | some n, true => { s with written := s.written ++ [(c, n)] }
    | _, _ => s.onSystemError it (.sendData c)
  else s

/-- `client_transport::send_data` (`tcp.cc:257`). -/
def sendData (s : Client) (ok : Bool) : Client × Option GetError :=
  if s.socket.isOpen then (s.handlerSendData c it ok, none)
  else
    match s.connect c outcomes it with
    | (s, some e) => (s, some e)
    | (s, none) => (s.handlerSendData c it ok, none)

end

/-- The session when `send_data` is called: the id is allocated and the future inserted. -/
def inserted (s : Client) (method params : Object) : Session Origin :=
  (s.session.sendRequest method params).sendRequestImpl s.session.calls.length
    ⟨s.session.msgidRr, method, params⟩

/-- `session::send_request` (`session.h:74`) with `session_impl::send_request_impl` (`session.cc:67`):
the exception, or the future that is returned. -/
def sendRequest (s : Client) (method params : Object) (outcomes : Nat → Outcome) (ok : Bool)
    (it : List Reqtable.Entry) : Client × Except GetError FutureId :=
  match ({ s with session := s.inserted method params } : Client).sendData s.session.calls.length
    outcomes it ok with
  | (s', some e) => (s', .error e)
  | (s', none) => (s', .ok s.session.futures.length)

/-! ## The attempts -/

/-- The last attempt: the first that succeeds, the first that times out, or number `max 1 limit`,
whichever comes first. -/
structure LastAttempt (limit : Int) (outcomes : Nat → Outcome) (n : Nat) : Prop where
  pos : 1 ≤ n
  earlier : ∀ i, 1 ≤ i → i < n → (outcomes i).retried = true
  bound : (n : Int) ≤ max 1 limit
  last : (outcomes n).retried = true → (n : Int) = max 1 limit

/-- What `try_connect` leaves, when its last attempt is number `n`: the failed attempts before it leave
no trace but the counter. -/
def ended (s : Client) (c : Nat) (it : List Reqtable.Entry) (n : Nat) : Outcome → Client
  | .success => ({ s with connecting := n }.establish c).onConnectSuccess s.conns
  | .failed _ _ => { s with connecting := n }.giveUp c it

/-- A socket that could not be connected has no connection. -/
theorem attempt_conn {s : Client} (hconn : s.socket.conn = none) (c : Nat) (opened : Bool)
    (err : Nat) : (s.attempt c (.failed opened err)).socket.conn = none := by
  cases opened with
  | true => rfl
  | false => exact hconn

theorem ended_attempt {s : Client} (hconn : s.socket.conn = none) (c : Nat)
    (it : List Reqtable.Entry) (opened : Bool) (err n : Nat) (o : Outcome) :
    (s.attempt c (.failed opened err)).ended c it n o = s.ended c it n o := by
  cases o with
  | success => rfl
  | failed opened' err' =>
    have hconn' := attempt_conn hconn c opened err
    simp only [ended, giveUp, closeSocket, cancelTimer, hconn, hconn']
    rfl

/-- **The attempts of `try_connect`**, when `s.connecting` were made before. -/
theorem tryConnect_eq_ended (c : Nat) (outcomes : Nat → Outcome) (it : List Reqtable.Entry)
    (s : Client) (hk : 0 ≤ s.connecting) (hconn : s.socket.conn = none) :
    ∃ n : Nat, s.connecting < n ∧
      (∀ i : Nat, s.connecting < i → i < n → (outcomes i).retried = true) ∧
      (n : Int) ≤ max (s.connecting + 1) s.reconnectLimit ∧
      ((outcomes n).retried = true → (n : Int) = max (s.connecting + 1) s.reconnectLimit) ∧
      s.tryConnect c outcomes it = s.ended c it n (outcomes n) := by
  have first (s : Client) (hk : 0 ≤ s.connecting) :
      (((s.connecting + 1).toNat : Nat) : Int) = s.connecting + 1 := Int.toNat_of_nonneg (by omega)
  fun_induction tryConnect c outcomes it s with
  | case1 s h =>
    have hn := first s hk
    refine ⟨(s.connecting + 1).toNat, by omega, fun i _ _ => by omega, by omega, ?_, ?_⟩
    · rw [h]
      exact fun hr => Bool.noConfusion hr
    · rw [h, ended, hn]
      rfl
  | case2 s opened err h hr ih =>
    obtain ⟨hne, hlt⟩ := of_decide_eq_true hr
    have hn := first s hk
    have hconnecting : (s.attempt c (.failed opened err)).connecting = s.connecting + 1 := rfl
    have hlimit : (s.attempt c (.failed opened err)).reconnectLimit = s.reconnectLimit := rfl
    rw [hconnecting, hlimit] at hlt
    obtain ⟨n, hpos, hearlier, hbound, hlast, heq⟩ := ih (by rw [hconnecting]; omega)
      (attempt_conn hconn c opened err)
    rw [hconnecting] at hpos hearlier
    rw [hconnecting, hlimit] at hbound hlast
    refine ⟨n, by omega, ?_, by omega, fun hr' => by have := hlast hr'; omega, ?_⟩
    · intro i hi hin
      by_cases hfirst : i = (s.connecting + 1).toNat
      · rw [hfirst, h]
        exact decide_eq_true hne
      · exact hearlier i (by omega) hin
    · rw [heq, ended_attempt hconn]
  | case3 s opened err h hr =>
    have hn := first s hk
    refine ⟨(s.connecting + 1).toNat, by omega, fun i _ _ => by omega, by omega, ?_, ?_⟩
    · intro hretried
      rw [h] at hretried
      have hlimit : ¬ s.connecting + 1 < s.reconnectLimit := by
        intro hlt
        exact hr (decide_eq_true ⟨of_decide_eq_true hretried, hlt⟩)
      omega
    · rw [h, ← ended_attempt hconn c it opened err, ended, hn]
      rfl

/-- The state when `try_connect` is called by `connect`. -/
def armed (s : Client) (c : Nat) : Client :=
  { s.armTimer ⟨c, s.session.futures.length⟩ with connecting := 0 }

/-- **`send_data` on a closed socket** throws when the last attempt fails and writes when it
succeeds. -/
theorem sendData_closed {s : Client} (hclosed : s.socket = .closed) (c : Nat)
    (outcomes : Nat → Outcome) (it : List Reqtable.Entry) (ok : Bool) :
    ∃ n, LastAttempt s.reconnectLimit outcomes n ∧
      s.sendData c outcomes it ok =
        match outcomes n with
        | .success => (((s.armed c).ended c it n .success).handlerSendData c it ok, none)
        | .failed opened err => ((s.armed c).ended c it n (.failed opened err), some .connectError) := by
  have hconn : (s.armed c).socket.conn = none := by
    show s.socket.conn = none
    rw [hclosed]
    rfl
  obtain ⟨n, hpos, hearlier, hbound, hlast, heq⟩ :=
    tryConnect_eq_ended c outcomes it (s.armed c) (Int.le_refl 0) hconn
  change (0 : Int) < n at hpos
  refine ⟨n, ⟨by omega, fun i hi => hearlier i (by show (0 : Int) < i; omega), hbound, hlast⟩, ?_⟩
  have hopen : s.socket.isOpen = false := by rw [hclosed]; rfl
  rw [sendData, if_neg (by simp [hopen]), connect]
  show (match ((s.armed c).tryConnect c outcomes it,
      if ((s.armed c).tryConnect c outcomes it).socket.isOpen then none
      else some GetError.connectError) with
    | (s, some e) => (s, some e)
    | (s, none) => (s.handlerSendData c it ok, none)) = _
  rw [heq]
  cases outcomes n with
  | success => rfl
  | failed opened err => rfl

/-- Every future of a session was completed once more, with `CONNECT_ERROR`, and the table is empty. -/
def AllFailed (s s' : Session Origin) : Prop :=
  s'.reqtable = ∅ ∧ ∀ f ∈ s.reqtable.values,
    (s'.futures.map Future.outcome)[f]? = some (false, .nil, CONNECT_ERROR) ∧
      s'.completions.countP (fun d => d.future = f) =
        s.completions.countP (fun d => d.future = f) + 1

theorem allFailed_fail {s : Session Origin} {pending : Multiset (Completion Origin)}
    (hcons : s.Conserved pending) (o : Origin) {it : List Reqtable.Entry}
    (hit : it.Perm s.reqtable.entries) : AllFailed s (s.fail o it) := by
  have h := Session.failed_fail s o hit
  refine ⟨h.reqtable, fun f hf => ⟨?_, h.count hcons hf⟩⟩
  have hlt : f < (s.futures.map Future.outcome).length := by simpa using hcons.lt_length hf
  rw [h.futures, if_pos hf, List.getElem?_eq_getElem hlt]
  rfl

/-- The first attempt is refused and the second succeeds. -/
def secondSucceeds : Nat → Outcome
  | 1 => .failed true 111
  | _ => .success

section
variable {c : Nat} {it : List Reqtable.Entry} {rest : List Op}

/-- The `set_result`s of a sweep. -/
theorem alone_completeAll (s : Client) (cs : List (Completion Origin)) (rest : List Op) :
    machine.Alone s (cs.map .setResult ++ rest)
      { s with session := s.session.completeAll cs } rest := by
  induction cs generalizing s with
  | nil => exact .refl _ _
  | cons d cs ih =>
    have hx : machine.exec s (.setResult d) {} =
        some ({ s with session := (s.session.setResult d).1 }, []) := by
      simp only [machine]
      cases (s.session.setResult d).2 <;> rfl
    exact .exec {} hx (ih _)

/-- A sweep and its `set_result`s. -/
theorem alone_fail {s : Client} (hit : it.Perm s.session.reqtable.entries) (o : Origin)
    (rest : List Op) :
    machine.Alone s (.sweep o :: rest) { s with session := s.session.fail o it } rest := by
  have hx : machine.exec s (.sweep o) { it } =
      some ({ s with session := (s.session.sweep o CONNECT_ERROR it).1 },
        (s.session.sweep o CONNECT_ERROR it).2.map .setResult) := by
    simp only [machine, walk]
    rw [if_pos hit]
  exact .exec { it } hx (alone_completeAll _ _ rest)

/-- The last attempt fails. -/
theorem alone_giveUp {s : Client} {err : Nat} (hr : s.retries err = false)
    (hit : it.Perm s.session.reqtable.entries) (rest : List Op) :
    machine.Alone s (.onConnectFailed c err :: rest) (s.giveUp c it) (.checkConnected c :: rest) := by
  have hx : machine.exec s (.onConnectFailed c err) {} = some (s.cancelTimer,
      connectFailed (.tryConnect c) ++ [.checkConnected c]) := by
    simp only [machine]
    rw [if_neg (by simp [hr])]
  refine .exec {} hx (.exec {} rfl ?_)
  exact alone_fail (s := s.cancelTimer.closeSocket (.tryConnect c)) hit (.tryConnect c)
    (.checkConnected c :: rest)

/-- An attempt begins: the socket is open, or can be opened. -/
theorem alone_tryConnect {s : Client} (hconn : s.socket.conn = none) (rest : List Op) :
    machine.Alone s (.flush :: .tryConnect c :: rest)
      { s with connecting := s.connecting + 1, socket := .opened } (.socketConnect c :: rest) := by
  refine .exec {} (k := []) rfl (.exec {} (k := [.socketConnect c]) ?_ (.refl _ _))
  rcases hs : s.socket with _ | _ | n
  · simp [machine, hs, Socket.isOpen]
  · simp only [machine, hs, Socket.isOpen, if_true]
  · rw [hs] at hconn
    cases hconn

/-- An attempt that fails. -/
theorem alone_attempt {s : Client} (hconn : s.socket.conn = none) (opened : Bool) (err : Nat)
    (rest : List Op) :
    machine.Alone s (.flush :: .tryConnect c :: rest) (s.attempt c (.failed opened err))
      (.onConnectFailed c err :: rest) := by
  have hfails (s : Client) : machine.exec s (.socketConnect c) { ok := false, err } =
      some (s, [.onConnectFailed c err]) := by
    simp [machine]
  cases opened with
  | true => exact (alone_tryConnect hconn rest).trans (.exec _ (hfails _) (.refl _ _))
  | false =>
    rcases hs : s.socket with _ | _ | n
    · -- the socket cannot be opened
      refine .exec {} (k := []) rfl (.exec { ok := false, err } (k := [.onConnectFailed c err]) ?_
        (.refl _ _))
      simp [machine, hs, Socket.isOpen, attempt]
    · have hopened : s.attempt c (.failed false err) =
          { s with connecting := s.connecting + 1, socket := .opened } := by
        simp [attempt, hs]
      rw [hopened]
      exact (alone_tryConnect hconn rest).trans (.exec _ (hfails _) (.refl _ _))
    · rw [hs] at hconn
      cases hconn

/-- An attempt that succeeds. -/
theorem alone_success {s : Client} (hconn : s.socket.conn = none) (rest : List Op) :
    machine.Alone s (.flush :: .tryConnect c :: rest)
      ((s.attempt c .success).onConnectSuccess s.conns) (.checkConnected c :: rest) := by
  have hconnect : machine.exec { s with connecting := s.connecting + 1, socket := .opened }
      (.socketConnect c) {} = some (s.attempt c .success, [.onConnectSuccess c s.conns]) := rfl
  have hoption : machine.exec (s.attempt c .success).cancelTimer (.setNoDelay c s.conns) {} =
      some ((s.attempt c .success).cancelTimer, [.start s.conns, .checkConnected c]) := rfl
  have hstart : machine.exec (s.attempt c .success).cancelTimer (.start s.conns) {} =
      some ((s.attempt c .success).onConnectSuccess s.conns, []) := rfl
  refine (alone_tryConnect hconn rest).trans (.exec {} hconnect (.exec {} rfl ?_))
  refine .exec {} hoption ?_
  exact .exec {} hstart (.refl _ _)

/-- `try_connect`, up to the test of `is_open` in `connect`. -/
theorem alone_tryConnects (outcomes : Nat → Outcome) {s : Client} (hconn : s.socket.conn = none)
    (hit : it.Perm s.session.reqtable.entries) (rest : List Op) :
    machine.Alone s (.flush :: .tryConnect c :: rest) (s.tryConnect c outcomes it)
      (.checkConnected c :: rest) := by
  fun_induction tryConnect c outcomes it s with
  | case1 s h => exact alone_success hconn rest
  | case2 s opened err h hr ih =>
    have hx : machine.exec (s.attempt c (.failed opened err)) (.onConnectFailed c err) {} =
        some (s.attempt c (.failed opened err), [.flush, .tryConnect c]) := by
      simp only [machine]
      rw [if_pos hr]
    exact (alone_attempt hconn opened err rest).trans
      (.exec {} hx (ih (attempt_conn hconn c opened err) hit))
  | case3 s opened err h hr =>
    exact (alone_attempt hconn opened err rest).trans
      (alone_giveUp (Bool.eq_false_iff.2 hr) hit rest)

/-- Connecting does not look at the mutex. -/
theorem tryConnect_locked (outcomes : Nat → Outcome) (s : Client) (b : Bool) :
    ({ s with locked := b } : Client).tryConnect c outcomes it =
      { s.tryConnect c outcomes it with locked := b } := by
  fun_induction tryConnect c outcomes it s with
  | case1 s h =>
    rw [tryConnect]
    dsimp only
    rw [h]
    rfl
  | case2 s opened err h hr ih =>
    rw [tryConnect]
    dsimp only
    rw [h]
    dsimp only
    exact (if_pos hr).trans ih
  | case3 s opened err h hr =>
    rw [tryConnect]
    dsimp only
    rw [h]
    dsimp only
    exact (if_neg hr).trans rfl

/-- `client_socket::on_system_error`. -/
theorem alone_onSystemError {s : Client} (hit : it.Perm s.session.reqtable.entries) (o : Origin)
    (rest : List Op) :
    machine.Alone s (Tcp.onSystemError o ++ rest) (s.onSystemError it o) rest := by
  refine (alone_fail hit o (.checkClose o :: rest)).trans ?_
  rw [onSystemError]
  dsimp only
  by_cases hopen : s.socket.isOpen = true
  · rw [if_pos hopen]
    exact .exec {} (k := [Op.close o]) (by simp [machine, hopen]) (.exec {} rfl (.refl _ _))
  · rw [if_neg hopen]
    exact .exec {} (k := []) (by simp [machine, hopen]) (.refl _ _)

/-- `stream_handler::send_data`. -/
theorem alone_handlerSendData {s : Client} (hit : it.Perm s.session.reqtable.entries) (ok : Bool)
    (rest : List Op) :
    machine.Alone s (.checkWrite c :: rest) (s.handlerSendData c it ok) rest := by
  unfold handlerSendData
  by_cases hopen : s.socket.isOpen = true
  · have hcheck : machine.exec s (.checkWrite c) {} = some (s, [.write c]) := by
      simp [machine, hopen]
    rw [if_pos hopen]
    refine .exec {} hcheck ?_
    rcases hconn : s.socket.conn with _ | n
    · have hfails : machine.exec s (.write c) {} =
          some (s, Tcp.onSystemError (.sendData c)) := by
        simp [machine, hconn]
      exact .exec {} hfails (alone_onSystemError hit _ rest)
    · cases ok with
      | true =>
        have hwrites : machine.exec s (.write c) {} =
            some ({ s with written := s.written ++ [(c, n)] }, []) := by
          simp [machine, hconn]
        exact .exec {} hwrites (.refl _ _)
      | false =>
        have hfails : machine.exec s (.write c) { ok := false } =
            some (s, Tcp.onSystemError (.sendData c)) := by
          simp [machine]
        exact .exec { ok := false } hfails (alone_onSystemError hit _ rest)
  · have hcheck : machine.exec s (.checkWrite c) {} = some (s, []) := by
      simp [machine, hopen]
    rw [if_neg hopen]
    exact .exec {} hcheck (.refl _ _)

/-- `client_transport::connect`, with the mutex around it. -/
theorem alone_connect {s : Client} (hclosed : s.socket = .closed) (hlocked : s.locked = false)
    (c : Nat) (outcomes : Nat → Outcome) (hit : it.Perm s.session.reqtable.entries) :
    machine.Alone s [.flush, .sendData c] (s.connect c outcomes it).1
      (if (s.connect c outcomes it).1.socket.isOpen then [.checkWrite c] else []) := by
  obtain ⟨t, ht⟩ : ∃ t, t = (s.armed c).tryConnect c outcomes it := ⟨_, rfl⟩
  have hconnect : (s.connect c outcomes it).1 = t := by rw [ht]; rfl
  have hlock : machine.exec s (.sendData c) {} = some ({ s with locked := true }, [.connect c]) := by
    simp [machine, hclosed, hlocked, Socket.isOpen]
  have hcheck : machine.exec { t with locked := true } (.checkConnected c) {} =
      some ({ t with locked := true }, .unlock :: if t.socket.isOpen then [.checkWrite c] else []) := by
    cases hopen : t.socket.isOpen <;> simp [machine, hopen]
  -- the mutex is free again
  have hunlock : machine.exec { t with locked := true } .unlock {} = some (t, []) := by
    have harmed : ({ s.armed c with locked := false } : Client) = s.armed c := by
      rw [← hlocked]
      rfl
    have hfree : { t with locked := false } = t := by
      rw [ht, ← tryConnect_locked, harmed]
    exact congrArg (fun t => some (t, [])) hfree
  have htry : machine.Alone { s.armed c with locked := true } [.flush, .tryConnect c]
      { t with locked := true } [.checkConnected c] := by
    have hconn : ({ s.armed c with locked := true } : Client).socket.conn = none := by
      show s.socket.conn = none
      rw [hclosed]
      rfl
    rw [ht, ← tryConnect_locked]
    exact alone_tryConnects (s := { s.armed c with locked := true }) outcomes hconn hit []
  rw [hconnect]
  refine .exec {} rfl (.exec {} hlock (.exec {} rfl (htry.trans ?_)))
  refine .exec {} hcheck (.exec {} hunlock ?_)
  cases t.socket.isOpen <;> exact .refl _ _

/-- `client_transport::send_data`. -/
theorem alone_sendData {s : Client} (hclosed : s.socket = .closed) (hlocked : s.locked = false)
    (c : Nat) (outcomes : Nat → Outcome) (hit : it.Perm s.session.reqtable.entries) (ok : Bool) :
    machine.Alone s [.flush, .sendData c] (s.sendData c outcomes it ok).1 [] := by
  refine (alone_connect hclosed hlocked c outcomes hit).trans ?_
  have hsock : ¬ s.socket.isOpen = true := by
    rw [hclosed]
    exact Bool.false_ne_true
  have hconnect : s.connect c outcomes it = ((s.connect c outcomes it).1,
      if (s.connect c outcomes it).1.socket.isOpen then none else some .connectError) := rfl
  rw [sendData, if_neg hsock, hconnect]
  by_cases hopen : (s.connect c outcomes it).1.socket.isOpen = true
  · rw [if_pos hopen, if_pos hopen]
    refine alone_handlerSendData ?_ ok []
    -- only a failed attempt takes futures out of the table, and closes the socket
    have hconn : (s.armed c).socket.conn = none := by
      show s.socket.conn = none
      rw [hclosed]
      rfl
    obtain ⟨n, -, -, -, -, heq⟩ :=
      tryConnect_eq_ended c outcomes it (s.armed c) (Int.le_refl 0) hconn
    have hended : (s.connect c outcomes it).1 = (s.armed c).ended c it n (outcomes n) := heq
    rw [hended] at hopen ⊢
    cases houtcome : outcomes n with
    | success => exact hit
    | failed opened err =>
      rw [houtcome] at hopen
      cases hopen
  · rw [if_neg hopen, if_neg hopen]
    exact .refl _ _

/-- **The thread of a send.** A thread of the client that sends a request on a closed socket and is
left alone does what `sendRequest` says. -/
theorem sendRequest_run {s : Client} (hclosed : s.socket = .closed) (hlocked : s.locked = false)
    (method params : Object) (outcomes : Nat → Outcome) (ok : Bool)
    (hit : it.Perm (s.inserted method params).reqtable.entries) :
    ∃ ls, machine.run ⟨s, [[.sendRequest method params]]⟩ ls =
      some ⟨(s.sendRequest method params outcomes ok it).1, [[]]⟩ := by
  refine System.Alone.run ?_
  have hinsert : machine.exec { s with session := s.session.sendRequest method params }
      (.sendRequestImpl s.session.calls.length) {} =
        some ({ s with session := s.inserted method params },
          [.flush, .sendData s.session.calls.length]) := by
    simp [machine, Session.sendRequest, Session.nextMsgid, inserted]
  have hresult : (s.sendRequest method params outcomes ok it).1 =
      (({ s with session := s.inserted method params } : Client).sendData s.session.calls.length
        outcomes it ok).1 := by
    rw [sendRequest]
    split <;> next h => rw [h]
  rw [hresult]
  refine .exec {} rfl (.exec {} hinsert ?_)
  exact alone_sendData (s := { s with session := s.inserted method params }) hclosed hlocked _
    outcomes hit ok

end

end Client

end Tcp

end MsgpackRpc
