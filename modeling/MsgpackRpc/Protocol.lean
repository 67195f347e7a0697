import Mathlib.Algebra.Group.Int.Defs
import Mathlib.Algebra.Group.Nat.Defs
import Mathlib.Data.List.Basic

/-!
# Objects and messages of the protocol

The object model that `msgpack::object` gives (`Object`), the message ids (`MsgId`, the GCC
definition of `msgid_t`), and the three message shapes of `protocol.h` with their `MSGPACK_DEFINE`
field lists. `Message.pack` is what `msgpack::pack` builds from a message structure and `onMessage`
is the decoding that `stream_handler::on_message` and `dgram_handler::on_message` share: convert to
`msg_rpc`, switch on the type, convert to the shape. `onMessage_pack` is their round trip.

A structure declared with `MSGPACK_DEFINE` is an array of its fields. Converting from an array that
is shorter than the structure leaves the remaining fields at the values of the default constructor,
and elements beyond the structure are ignored.
-/

namespace MsgpackRpc

/-! ## Objects -/

/-- Where the bytes of a raw object are stored: one of the two static strings of `exception.cc`, or
a zone of the unpacker. -/
inductive Storage where
  | timeoutErrorPtr
  | connectErrorPtr
  | zone
  deriving DecidableEq, Repr

/-- `msgpack::object`. An integer is a `POSITIVE_INTEGER` when it is not negative. -/
inductive Object where
  | nil
  | boolean (b : Bool)
  | integer (n : Int)
  | float (bits : UInt64)
  | str (data : List UInt8)
  | bin (ptr : Storage) (data : List UInt8)
  | array (xs : List Object)
  | map (kvs : List (Object × Object))
  | ext (type : UInt8) (data : List UInt8)
  deriving Repr, Inhabited

mutual

/-- Equality of objects is decidable. -/
def Object.decEq : (a b : Object) → Decidable (a = b)
  | .nil, .nil => isTrue rfl
  | .boolean a, .boolean b => decidable_of_iff (a = b) (by simp)
  | .integer a, .integer b => decidable_of_iff (a = b) (by simp)
  | .float a, .float b => decidable_of_iff (a = b) (by simp)
  | .str a, .str b => decidable_of_iff (a = b) (by simp)
  | .bin p a, .bin q b => decidable_of_iff (p = q ∧ a = b) (by simp)
  | .array a, .array b => @decidable_of_iff _ _ (by simp) (Object.decEqList a b)
  | .map a, .map b => @decidable_of_iff _ _ (by simp) (Object.decEqPairs a b)
  | .ext t a, .ext u b => decidable_of_iff (t = u ∧ a = b) (by simp)
  | .nil, .boolean _ | .nil, .integer _ | .nil, .float _ | .nil, .str _ | .nil, .bin _ _
  | .nil, .array _ | .nil, .map _ | .nil, .ext _ _
  | .boolean _, .nil | .boolean _, .integer _ | .boolean _, .float _ | .boolean _, .str _
  | .boolean _, .bin _ _ | .boolean _, .array _ | .boolean _, .map _ | .boolean _, .ext _ _
  | .integer _, .nil | .integer _, .boolean _ | .integer _, .float _ | .integer _, .str _
  | .integer _, .bin _ _ | .integer _, .array _ | .integer _, .map _ | .integer _, .ext _ _
  | .float _, .nil | .float _, .boolean _ | .float _, .integer _ | .float _, .str _
  | .float _, .bin _ _ | .float _, .array _ | .float _, .map _ | .float _, .ext _ _
  | .str _, .nil | .str _, .boolean _ | .str _, .integer _ | .str _, .float _
  | .str _, .bin _ _ | .str _, .array _ | .str _, .map _ | .str _, .ext _ _
  | .bin _ _, .nil | .bin _ _, .boolean _ | .bin _ _, .integer _ | .bin _ _, .float _
  | .bin _ _, .str _ | .bin _ _, .array _ | .bin _ _, .map _ | .bin _ _, .ext _ _
  | .array _, .nil | .array _, .boolean _ | .array _, .integer _ | .array _, .float _
  | .array _, .str _ | .array _, .bin _ _ | .array _, .map _ | .array _, .ext _ _
  | .map _, .nil | .map _, .boolean _ | .map _, .integer _ | .map _, .float _
  | .map _, .str _ | .map _, .bin _ _ | .map _, .array _ | .map _, .ext _ _
  | .ext _ _, .nil | .ext _ _, .boolean _ | .ext _ _, .integer _ | .ext _ _, .float _
  | .ext _ _, .str _ | .ext _ _, .bin _ _ | .ext _ _, .array _ | .ext _ _, .map _ =>
    isFalse nofun

/-- Equality of the elements of two arrays is decidable. -/
def Object.decEqList : (a b : List Object) → Decidable (a = b)
  | [], [] => isTrue rfl
  | x :: xs, y :: ys =>
    match Object.decEq x y, Object.decEqList xs ys with
    | isTrue h, isTrue hs => isTrue (by rw [h, hs])
    | isFalse h, _ => isFalse fun e => h (List.cons.inj e).1
    | _, isFalse hs => isFalse fun e => hs (List.cons.inj e).2
  | [], _ :: _ | _ :: _, [] => isFalse nofun

/-- Equality of the pairs of two maps is decidable. -/
def Object.decEqPairs : (a b : List (Object × Object)) → Decidable (a = b)
  | [], [] => isTrue rfl
  | (k, v) :: xs, (k', v') :: ys =>
    match Object.decEq k k', Object.decEq v v', Object.decEqPairs xs ys with
    | isTrue hk, isTrue hv, isTrue hs => isTrue (by rw [hk, hv, hs])
    | isFalse hk, _, _ => isFalse fun e => hk (Prod.mk.inj (List.cons.inj e).1).1
    | _, isFalse hv, _ => isFalse fun e => hv (Prod.mk.inj (List.cons.inj e).1).2
    | _, _, isFalse hs => isFalse fun e => hs (List.cons.inj e).2
  | [], _ :: _ | _ :: _, [] => isFalse nofun

end

instance : DecidableEq Object := Object.decEq

/-- `TIMEOUT_ERROR` (`exception.cc:31`), the text "request timed out" at its own address. -/
def TIMEOUT_ERROR : Object := .bin .timeoutErrorPtr "request timed out".toUTF8.toList

/-- `CONNECT_ERROR` (`exception.cc:34`), the text "connection failed" at its own address. -/
def CONNECT_ERROR : Object := .bin .connectErrorPtr "connection failed".toUTF8.toList

/-! ## Messages -/

/-- `msgid_t`, a 32-bit `int` (`atomic_ops.h:28`). The integer on the wire is `MsgId.toInt`. -/
abbrev MsgId := BitVec 32

/-- `message_type_t` (`protocol.h:31`). -/
abbrev MessageType := UInt8

/-- `REQUEST` (`protocol.h:34`). -/
def REQUEST : MessageType := 0

/-- `RESPONSE` (`protocol.h:35`). -/
def RESPONSE : MessageType := 1

/-- `NOTIFY` (`protocol.h:36`). -/
def NOTIFY : MessageType := 2

/-- `UNKNOWN` (`protocol.h:37`). -/
def UNKNOWN : MessageType := 0xff

/-- The exceptions a handler of received bytes can meet: those of the unpacker and of the
conversions, the size check of `stream_handler::on_read`, a session or server that is gone
(`closed_exception`), and a `std::exception` of the dispatcher. -/
inductive Exn where
  | parseError
  | typeError
  | messageTooLarge
  | closedException
  | dispatcher (what : List UInt8)
  deriving DecidableEq, Repr

/-- A message of the protocol: `msg_request` (`protocol.h:79`), `msg_response` (`protocol.h:102`)
or `msg_notify` (`protocol.h:125`). -/
inductive Message where
  | request (msgid : MsgId) (method params : Object)
  | response (msgid : MsgId) (result error : Object)
  | notify (method params : Object)
  deriving DecidableEq, Repr

/-- The object that packing a message yields: the fields in the order of `MSGPACK_DEFINE`. A
response carries its error before its result. -/
def Message.pack : Message → Object
  | .request msgid method params =>
    .array [.integer REQUEST.toNat, .integer msgid.toInt, method, params]
  | .response msgid result error =>
    .array [.integer RESPONSE.toNat, .integer msgid.toInt, error, result]
  | .notify method params => .array [.integer NOTIFY.toNat, method, params]

/-- `object::convert` to `message_type_t`: an integer outside 0..255 is a type error. -/
def convertType : Object → Except Exn MessageType
  | .integer n => if 0 ≤ n ∧ n < 256 then .ok (UInt8.ofNat n.toNat) else .error .typeError
  | _ => .error .typeError

/-- `object::convert` to `msgid_t`: an integer outside the 32-bit signed range is a type error. -/
def convertMsgId : Object → Except Exn MsgId
  | .integer n => if -2 ^ 31 ≤ n ∧ n < 2 ^ 31 then .ok (BitVec.ofInt 32 n) else .error .typeError
  | _ => .error .typeError

/-- `object::convert` to the structure's array. -/
def convertArray : Object → Except Exn (List Object)
  | .array xs => .ok xs
  | _ => .error .typeError

/-- Field `i` of a `MSGPACK_DEFINE` structure, left at its default when the array is too short. -/
def convertField {α : Type} (convert : Object → Except Exn α) (default : α) (xs : List Object)
    (i : Nat) : Except Exn α :=
  match xs[i]? with
  | some o => convert o
  | none => .ok default

/-- `msg.convert(&rpc)` with `msg_rpc` (`protocol.h:57`): only the type. -/
def convertRpc (msg : Object) : Except Exn MessageType := do
  convertField convertType UNKNOWN (← convertArray msg) 0

/-- `msg.convert(&req)` with `msg_request<object, object>`. -/
def convertRequest (msg : Object) : Except Exn Message := do
  let xs ← convertArray msg
  let _ ← convertField convertType REQUEST xs 0
  let msgid ← convertField convertMsgId 0 xs 1
  let method ← convertField .ok .nil xs 2
  let param ← convertField .ok .nil xs 3
  return .request msgid method param

/-- `msg.convert(&res)` with `msg_response<object, object>`. -/
def convertResponse (msg : Object) : Except Exn Message := do
  let xs ← convertArray msg
  let _ ← convertField convertType RESPONSE xs 0
  let msgid ← convertField convertMsgId 0 xs 1
  let error ← convertField .ok .nil xs 2
  let result ← convertField .ok .nil xs 3
  return .response msgid result error

/-- `msg.convert(&req)` with `msg_notify<object, object>`. -/
def convertNotify (msg : Object) : Except Exn Message := do
  let xs ← convertArray msg
  let _ ← convertField convertType NOTIFY xs 0
  let method ← convertField .ok .nil xs 1
  let param ← convertField .ok .nil xs 2
  return .notify method param

/-- The decoding part of `stream_handler::on_message` (`stream_handler.cc:130`) and
`dgram_handler::on_message` (`dgram_handler.cc:134`). -/
def onMessage (msg : Object) : Except Exn Message := do
  let type ← convertRpc msg
  if type = REQUEST then convertRequest msg
  else if type = RESPONSE then convertResponse msg
  else if type = NOTIFY then convertNotify msg
  else throw .typeError

/-- A message type on the wire converts back to itself. -/
@[simp] theorem convertType_toNat (t : MessageType) : convertType (.integer t.toNat) = .ok t := by
  have h := UInt8.toNat_lt t
  simp only [convertType, Int.toNat_natCast, UInt8.ofNat_toNat]
  rw [if_pos ⟨by omega, by omega⟩]

/-- A message id on the wire converts back to itself. -/
@[simp] theorem convertMsgId_toInt (i : MsgId) : convertMsgId (.integer i.toInt) = .ok i := by
  have h₁ := BitVec.le_toInt i
  have h₂ := BitVec.toInt_lt (x := i)
  simp only [convertMsgId, BitVec.ofInt_toInt]
  rw [if_pos ⟨by simpa using h₁, by simpa using h₂⟩]

/-- Packing a message and decoding it yields the message, with every field. -/
@[simp] theorem onMessage_pack (m : Message) : onMessage m.pack = .ok m := by
  have hne : RESPONSE ≠ REQUEST ∧ NOTIFY ≠ REQUEST ∧ NOTIFY ≠ RESPONSE := by decide
  cases m <;>
    simp [onMessage, convertRpc, convertRequest, convertResponse, convertNotify, Message.pack,
      convertArray, convertField, hne, bind, Except.bind, pure, Except.pure]

end MsgpackRpc
