import MsgpackRpc.Session.Conserved

/-!
# Changing what is recorded of a completion

The origin of a completion is there for the reader of a model, and no operation of a session looks at
it. Two models that record different things about the origins are therefore the same session:
`Session.mapOrigin` commutes with every operation.
-/

namespace MsgpackRpc

variable {ι κ : Type} (g : ι → κ)

/-- A completion with another record of its origin. -/
def Completion.mapOrigin (c : Completion ι) : Completion κ :=
  ⟨c.future, g c.origin, c.extracted, c.result, c.error⟩

namespace Session

/-- A session with other records of the origins of its completions. -/
def mapOrigin (s : Session ι) : Session κ where
  msgidRr := s.msgidRr
  timeout := s.timeout
  reqtable := s.reqtable
  futures := s.futures
  calls := s.calls
  posted := s.posted
  handed := s.handed.map (Completion.mapOrigin g)
  displaced := s.displaced
  completions := s.completions.map (Completion.mapOrigin g)
  ran := s.ran

theorem mapOrigin_sendRequest (s : Session ι) (method params : Object) :
    (s.sendRequest method params).mapOrigin g = (s.mapOrigin g).sendRequest method params := rfl

theorem mapOrigin_sendRequestImpl (s : Session ι) (c : Nat) (call : Call) :
    (s.sendRequestImpl c call).mapOrigin g = (s.mapOrigin g).sendRequestImpl c call := rfl

theorem map_hand (s : Session ι) (origin : ι) (result error : Object) (fs : List FutureId) :
    (s.hand origin result error fs).map (Completion.mapOrigin g) =
      (s.mapOrigin g).hand (g origin) result error fs := by
  rw [hand, List.map_map]
  rfl

theorem mapOrigin_onResponse (s : Session ι) (origin : ι) (msgid : MsgId) (result error : Object) :
    (s.mapOrigin g).onResponse (g origin) msgid result error =
      ((s.onResponse origin msgid result error).1.mapOrigin g,
        (s.onResponse origin msgid result error).2.map (Completion.mapOrigin g)) := by
  unfold onResponse
  rw [show (s.mapOrigin g).reqtable = s.reqtable from rfl]
  rcases s.reqtable.take msgid with ⟨_ | f, t⟩
  · rfl
  · simp [mapOrigin, hand, Completion.mapOrigin]

theorem mapOrigin_sweep (s : Session ι) (origin : ι) (error : Object) (it : List Reqtable.Entry) :
    (s.mapOrigin g).sweep (g origin) error it =
      ((s.sweep origin error it).1.mapOrigin g,
        (s.sweep origin error it).2.map (Completion.mapOrigin g)) := by
  unfold sweep
  simp only [map_hand]
  simp [mapOrigin, hand, Completion.mapOrigin]

theorem mapOrigin_stepTimerHandler (s : Session ι) (origin : ι) (it : List Reqtable.Entry) :
    (s.mapOrigin g).stepTimerHandler (g origin) it =
      ((s.stepTimerHandler origin it).1.mapOrigin g,
        (s.stepTimerHandler origin it).2.map (Completion.mapOrigin g)) := by
  unfold stepTimerHandler
  simp only [map_hand]
  simp [mapOrigin, hand, Completion.mapOrigin]

theorem mapOrigin_setResult (s : Session ι) (c : Completion ι) :
    ((s.mapOrigin g).setResult (c.mapOrigin g)).1 = (s.setResult c).1.mapOrigin g := by
  unfold setResult
  rw [show (s.mapOrigin g).futures = s.futures from rfl,
    show (c.mapOrigin g).future = c.future from rfl]
  dsimp only [mapOrigin]
  rcases s.futures[c.future]? with _ | f
  · simp
  · simp [Completion.mapOrigin]

end Session

end MsgpackRpc
