import MsgpackRpc.Protocol

/-!
# Futures

`future_impl` (`future.cc`), the object that a request is answered through. A future is pending as
long as it holds its session; `set_result` stores a result and an error, releases the session and
runs the callback. Nothing in it prevents a second `set_result` from storing another result.
-/

namespace MsgpackRpc

/-- A `future_impl`, by its place in the order of construction. -/
abbrev FutureId := Nat

/-- A callback attached to a future, by name. -/
abbrev Callback := Nat

/-- `future_impl`, and the number of the call of `send_request` that constructed it. `session` is
whether `m_session` is set. -/
structure Future where
  msgid : MsgId
  call : Nat
  timeout : BitVec 32
  session : Bool := true
  callback : Option Callback := none
  result : Object := .nil
  error : Object := .nil
  deriving DecidableEq, Repr

/-- `NO_METHOD_ERROR` (`protocol.h:39`). -/
def NO_METHOD_ERROR : Int := 0x01

/-- `ARGUMENT_ERROR` (`protocol.h:40`). -/
def ARGUMENT_ERROR : Int := 0x02

/-- The exceptions of `throw_exception`. -/
inductive GetError where
  | timeoutError
  | connectError
  | noMethodError
  | argumentError
  | remoteError (err : Object)
  deriving DecidableEq, Repr

/-- `throw_exception` (`exception.cc:38`), which knows the two local errors by the address of their
text. -/
def throwException : Object → GetError
  | .bin .timeoutErrorPtr _ => .timeoutError
  | .bin .connectErrorPtr _ => .connectError
  | .integer n =>
    if n = NO_METHOD_ERROR then .noMethodError
    else if n = ARGUMENT_ERROR then .argumentError
    else .remoteError (.integer n)
  | err => .remoteError err

/-- Changing an element in a way that a function does not see. -/
theorem map_set_of_eq {α β : Type} {g : α → β} {l : List α} {i : Nat} {a b : α}
    (h : l[i]? = some a) (hg : g b = g a) : (l.set i b).map g = l.map g := by
  obtain ⟨hlt, rfl⟩ := List.getElem?_eq_some_iff.1 h
  rw [List.map_set, hg, ← List.getElem_map g (h := by simpa using hlt), List.set_getElem_self]

namespace Future

/-- `future_impl::is_ready` (`future.cc:39`). -/
def isReady (f : Future) : Bool := !f.session

/-- `future_impl::set_result` (`future.cc:107`): the future, and the callback that is run with it. -/
def setResult (f : Future) (result error : Object) : Future × Option Callback :=
  ({ f with result, error, session := false, callback := none }, f.callback)

/-- `future_impl::attach_callback` (`future.cc:93`): the callback is kept or, on a ready future,
submitted to the loop. -/
def attachCallback (f : Future) (func : Callback) : Future × Option Callback :=
  if f.session then ({ f with callback := some func }, none) else (f, some func)

/-- `future_impl::step_timeout` (`future.cc:123`). -/
def stepTimeout (f : Future) : Future × Bool :=
  if f.timeout > 0 then ({ f with timeout := f.timeout - 1 }, false) else (f, true)

/-- The end of `future::get_impl` (`future.cc:163`), on a ready future. -/
def get (f : Future) : Except GetError Object :=
  if f.error ≠ .nil then .error (throwException f.error) else .ok f.result

/-- What of a future `set_result` changes, the callback apart. -/
def outcome (f : Future) : Bool × Object × Object := (f.session, f.result, f.error)

/-- A future apart from the time it has left. -/
def untimed (f : Future) : Future := { f with timeout := 0 }

@[simp] theorem stepTimeout_untimed (f : Future) : f.stepTimeout.1.untimed = f.untimed := by
  unfold stepTimeout
  split <;> rfl

/-- Futures that differ only in the time they have left agree on everything else. -/
theorem map_eq_of_untimed {β : Type} {g : Future → β} (hg : ∀ f : Future, g f.untimed = g f)
    {fs fs' : List Future} (h : fs'.map untimed = fs.map untimed) : fs'.map g = fs.map g := by
  have hmap := congrArg (List.map g) h
  simpa only [List.map_map, Function.comp_def, hg] using hmap

end Future

end MsgpackRpc
