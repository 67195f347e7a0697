import MsgpackRpc.Format
import MsgpackRpc.Server.Machine
import MsgpackRpc.Stream.Handler

/-!
# Message ids at the server

An id reaches the server as an integer on the wire. `on_message` converts it to `msgid_t`, which is a
signed 32-bit integer with GCC, `request::get_msgid` returns it as a `uint32_t`, and the constructor of
`msg_response` takes a `msgid_t` again. The way back loses nothing (`ofUInt32_getMsgid`); the way in
accepts the signed range only, although the getter is unsigned, and so is the last definition of
`msgid_t` (`atomic_ops.h:47`, a `uint32_t`; that for Windows is the signed `LONG`). `survives_iff` is the
exact range.
-/

namespace MsgpackRpc

open Unpack

/-- `request::get_msgid` (`request.cc:39`), where a negative id is converted modulo 2^32. -/
def RequestImpl.getMsgid (req : RequestImpl) : UInt32 :=
  UInt32.ofNat (req.msgid.toInt % 2 ^ 32).toNat

/-- The conversion of a `uint32_t` to `msgid_t` in the constructor of `msg_response`
(`protocol.h:107`): values from 2^31 on become negative. -/
def MsgId.ofUInt32 (n : UInt32) : MsgId :=
  BitVec.ofInt 32 (if n.toNat < 2 ^ 31 then n.toNat else n.toNat - 2 ^ 32)

/-- The object of a request whose id is the wire integer `n`. -/
def requestObject (n : Int) (method params : Object) : Object :=
  .array [.integer REQUEST.toNat, .integer n, method, params]

/-- The object of a response whose id is the wire integer `n`. -/
def responseObject (n : Int) (result error : Object) : Object :=
  .array [.integer RESPONSE.toNat, .integer n, error, result]

namespace Server

/-- An id survives: requests that carry it are decoded, and an answer to the request that is built
from one, sent over whatever peer it came from, is a response that carries the same integer. -/
def Survives (n : Int) : Prop :=
  ∃ id : MsgId, ∀ method params,
    onMessage (requestObject n method params) = .ok (.request id method params) ∧
    ∀ (s : State) (peer : Peer) (res err : Object),
      (∀ k, peer = .connection k → s.connections[k]? = some true) →
      (((s.onMessage peer (getResponseSender peer) (.request id method params)).call
        s.requests.length res err .sent).map State.sent) =
          some (s.sent ++ [⟨s.requests.length, peer, responseObject n res err⟩])

/-! ## Conversions -/

/-- Which integers convert to `msgid_t`, and to what. -/
theorem convertMsgId_eq_ok {n : Int} {id : MsgId} :
    convertMsgId (.integer n) = .ok id ↔ id.toInt = n := by
  constructor
  · intro h
    rw [convertMsgId] at h
    split at h
    · next hrange =>
      cases h
      rw [BitVec.toInt_ofInt]
      exact Int.bmod_eq_of_le (by omega) (by omega)
    · cases h
  · rintro rfl
    exact convertMsgId_toInt id

theorem convertMsgId_range {n : Int} :
    (∃ id, convertMsgId (.integer n) = .ok id) ↔ -2 ^ 31 ≤ n ∧ n < 2 ^ 31 := by
  rw [convertMsgId]
  split
  · next h => exact iff_of_true ⟨_, rfl⟩ h
  · next h =>
    refine iff_of_false ?_ h
    rintro ⟨id, hid⟩
    cases hid

/-- **The unsigned getter loses nothing.** -/
theorem ofUInt32_getMsgid (req : RequestImpl) : MsgId.ofUInt32 req.getMsgid = req.msgid := by
  have hlo := BitVec.le_toInt req.msgid
  have hhi := BitVec.toInt_lt (x := req.msgid)
  have hmod : (req.msgid.toInt % 2 ^ 32).toNat < 2 ^ 32 := by omega
  have hnat : req.getMsgid.toNat = (req.msgid.toInt % 2 ^ 32).toNat :=
    UInt32.toNat_ofNat_of_lt' hmod
  rw [MsgId.ofUInt32, hnat]
  have hint : (if (req.msgid.toInt % 2 ^ 32).toNat < 2 ^ 31
      then ((req.msgid.toInt % 2 ^ 32).toNat : Int)
      else (req.msgid.toInt % 2 ^ 32).toNat - 2 ^ 32) = req.msgid.toInt := by
    split <;> omega
  rw [hint, BitVec.ofInt_toInt]

/-- The response of `request::call` is the one built with the id that `get_msgid` returns. -/
theorem call_getMsgid (req : RequestImpl) (res err : Object) (h : req.ms = true) :
    (req.call res err).2 = some (Message.response (.ofUInt32 req.getMsgid) res err).pack := by
  rw [ofUInt32_getMsgid, RequestImpl.call, RequestImpl.isSent, h]
  rfl

/-! ## A request and its answer -/

/-- A request is decoded when its id converts. -/
theorem onMessage_requestObject (n : Int) (method params : Object) :
    onMessage (requestObject n method params) =
      (convertMsgId (.integer n)).map fun id => .request id method params := by
  simp only [onMessage, convertRpc, convertRequest, requestObject, convertArray, convertField, bind,
    Except.bind, pure, Except.pure, List.getElem?_cons_zero, List.getElem?_cons_succ,
    convertType_toNat, if_true]
  cases convertMsgId (.integer n) <;> rfl

/-- The answer to a request that was just built carries its id, whatever peer it came from. -/
theorem call_onRequest {s : State} {peer : Peer} {id : MsgId} {method params : Object}
    (res err : Object) (hopen : ∀ k, peer = .connection k → s.connections[k]? = some true) :
    ((s.onMessage peer (getResponseSender peer) (.request id method params)).call
      s.requests.length res err .sent).map State.sent =
        some (s.sent ++ [⟨s.requests.length, peer, responseObject id.toInt res err⟩]) := by
  have hreq : (s.onMessage peer (getResponseSender peer)
      (.request id method params)).requests[s.requests.length]? = some {
        impl := { msgid := id, method, params, sentBy := s.requests.length }
        ms := some (getResponseSender peer)
        message := .request id method params
        peer } := List.getElem?_concat_length
  unfold State.call
  rw [hreq]
  cases peer with
  | connection k =>
    have hk := hopen k rfl
    simp [RequestImpl.isSent, RequestImpl.call, getResponseSender, State.sendData, hk,
      Message.pack, responseObject, State.onMessage, State.onRequest]
  | endpoint ep =>
    simp [RequestImpl.isSent, RequestImpl.call, getResponseSender, State.sendData, Message.pack,
      responseObject, State.onMessage, State.onRequest]

/-- **An id survives exactly when it is in the signed range.** -/
theorem survives_iff (n : Int) : Survives n ↔ -2 ^ 31 ≤ n ∧ n < 2 ^ 31 := by
  rw [← convertMsgId_range]
  constructor
  · rintro ⟨id, h⟩
    have hok := (h .nil .nil).1
    rw [onMessage_requestObject] at hok
    cases hc : convertMsgId (.integer n) with
    | ok id' => exact ⟨id', rfl⟩
    | error e =>
      rw [hc] at hok
      cases hok
  · rintro ⟨id, hid⟩
    refine ⟨id, fun method params => ⟨?_, ?_⟩⟩
    · rw [onMessage_requestObject, hid]
      rfl
    · intro s peer res err hopen
      rw [call_onRequest res err hopen, convertMsgId_eq_ok.1 hid]

/-- On any other id, `on_read` of a stream that has scanned what it received closes the connection, and
nothing is dispatched. -/
theorem onRead_refuses (d : Decoder UInt8 Object) (recv : Receiver) {n : Int}
    (h : ¬ (-2 ^ 31 ≤ n ∧ n < 2 ^ 31)) {method params : Object} {bytes : List UInt8}
    (henc : Encodes d bytes (requestObject n method params)) (handler : StreamHandler)
    (hpac : handler.pac = .empty) :
    (handler.onRead d recv (.ok bytes)).calls = handler.calls ∧
      (handler.onRead d recv (.ok bytes)).isOpen = false ∧
      (handler.onRead d recv (.ok bytes)).raised = handler.raised ++ [.typeError] := by
  have herr : onMessage (requestObject n method params) = .error .typeError := by
    rw [onMessage_requestObject, convertMsgId, if_neg h]
    rfl
  have hone : handleAll (StreamHandler.onMessage recv) (handler.dispatched, handler.calls)
      [requestObject n method params] =
        ((handler.dispatched ++ [requestObject n method params], handler.calls), some .typeError) := by
    simp [handleAll, StreamHandler.onMessage, handOver, herr]
  have hdrain := drain_eq d (StreamHandler.onMessage recv) Exn.parseError
    (handler.dispatched, handler.calls) [] bytes
  rw [henc.values_whole] at hdrain
  dsimp only at hdrain
  rw [hone] at hdrain
  rcases hd : drain d (StreamHandler.onMessage recv) Exn.parseError
    (handler.dispatched, handler.calls) [] bytes with ⟨pac, ⟨os, cs⟩, e⟩
  rw [hd] at hdrain
  obtain ⟨hos, rfl⟩ := Prod.mk.inj hdrain
  obtain ⟨-, rfl⟩ := Prod.mk.inj hos
  simp [StreamHandler.onRead, StreamHandler.drainRead, Unpacker.feed, Unpacker.empty, hpac, hd,
    StreamHandler.onReadFailed, StreamHandler.onSystemError]

/-- A request with the id 2^31, which a peer with unsigned ids sends after as many requests: a type
error, and the connection is closed. -/
theorem not_survives_2147483648 :
    ¬ Survives 2147483648 ∧
      Encodes Format.decoder [0x94, 0x00, 0xce, 0x80, 0x00, 0x00, 0x00, 0xa1, 0x66, 0x90]
        (requestObject 2147483648 (.str [0x66]) (.array [])) ∧
      (({ isOpen := true, reads := 1 } : StreamHandler).onRead Format.decoder (fun _ _ => none)
        (.ok [0x94, 0x00, 0xce, 0x80, 0x00, 0x00, 0x00, 0xa1, 0x66, 0x90])) =
          { dispatched := [requestObject 2147483648 (.str [0x66]) (.array [])]
            raised := [.typeError] } := by
  refine ⟨?_, .of_take (by decide) (by decide) (by decide), by decide⟩
  rintro ⟨id, h⟩
  have hok := (h .nil .nil).1
  rw [onMessage_requestObject] at hok
  cases hok

end Server

end MsgpackRpc
