import MsgpackRpc.Tcp.Owners

/-!
# Callbacks and the locks of their thread

`future_impl::set_result` runs the callback while it holds the mutex of the future, and the callbacks
of a sweep or of a flush inside `connect` run while their thread holds the mutex of the transport. A
callback that calls `attach_callback` or `timed_wait` on its own future, or that sends while its thread
connects, waits for a lock that its own thread holds (`callback_deadlocks`).

`no_self_deadlock` says that there are three ways to get there: the two above, and a callback that
sends while it is run by a `timed_wait` which has run out, whose future is still in the table: the
flush of the send may complete that future again. A thread is kept safe by an order of the operations
that it has before it (`Above`): what is done while a lock is held does not lead to that lock.
-/

namespace MsgpackRpc

open Threads

namespace Tcp

namespace Locks

open Session (Ready)

/-- An operation on the mutex of a future. -/
def Op.touches (f : FutureId) : Op → Bool
  | .attachCallback g _ | .timedWait g | .timedWaitExpired g | .unlock g => g == f
  | .setResult d => d.future == f
  | _ => false

/-- A step that runs a callback which minds the locks of its thread: it uses neither `attach_callback`
nor `timed_wait` on its own future, and it sends neither inside `connect` nor while the future, if it
is a wait that completed it, is in the table. -/
def Minds (s : Locks) (op : Op) (rest : List Op) (x : Choice) : Prop :=
  match op with
  | .setResult d =>
    (s.client.session.setResult d).2.isSome = true →
      (∀ o ∈ x.calls, o.touches d.future = false) ∧
      ((∃ o ∈ rest, o.connects = true) ∨
        d.extracted = none ∧ d.future ∈ s.client.session.reqtable.values →
          ∀ o ∈ x.calls, o.sends = false)
  | .runPosted => (∃ o ∈ rest, o.connects = true) → ∀ o ∈ x.calls, o.sends = false
  | _ => True

instance (s : Locks) (rest : List Op) (x : Choice) : (op : Op) → Decidable (Minds s op rest x)
  | .setResult d => inferInstanceAs (Decidable
      ((s.client.session.setResult d).2.isSome = true →
        (∀ o ∈ x.calls, o.touches d.future = false) ∧
        ((∃ o ∈ rest, o.connects = true) ∨
          d.extracted = none ∧ d.future ∈ s.client.session.reqtable.values →
            ∀ o ∈ x.calls, o.sends = false)))
  | .runPosted => inferInstanceAs (Decidable
      ((∃ o ∈ rest, o.connects = true) → ∀ o ∈ x.calls, o.sends = false))
  | .tcp _ | .sendNotify _ | .attachCallback _ _ | .timedWait _ | .timedWaitExpired _ | .wait _
  | .unlock _ => isTrue trivial

/-- The operation `a` may come before `b` in a thread: it does not send before the end of `connect`,
and while the mutex of a future is held it does not touch it. While the future is in the table it is
only looked at. -/
structure Above (s : Locks) (a b : Op) : Prop where
  sends : b.connects = true → a.sends = false
  touches : ∀ f, b = .unlock f → a.touches f = false
  table : ∀ f, b = .unlock f → f ∈ s.client.session.reqtable.values → a = .wait f

section
variable {s s' : Locks} {op a b : Op} {ops : Multiset Op} {rest k : List Op} {x : Choice}

/-- A thread whose operations are in order does not wait for itself. -/
theorem not_selfDeadlock {t : List Op} (h : t.Pairwise (Above s)) : ¬ SelfDeadlock t := by
  cases t with
  | nil => exact id
  | cons op rest =>
    rintro ⟨l, hl, hmem⟩
    obtain ⟨b, hb, hholds⟩ := List.mem_filterMap.1 hmem
    have hop := (List.pairwise_cons.1 h).1 b hb
    cases b with
    | unlock f =>
      cases hholds
      have ht := hop.touches f rfl
      cases op with
      | attachCallback | timedWait | timedWaitExpired | setResult =>
        cases hl
        simp [Op.touches] at ht
      | tcp op => cases op <;> cases hl
      | _ => cases hl
    | tcp o =>
      have hconn : (Op.tcp o).connects = true := by
        simp only [Op.holds] at hholds
        split at hholds
        · assumption
        · cases hholds
      have hsend := hop.sends hconn
      simp only [Op.holds, show o.connects = true from hconn, if_true] at hholds
      cases hholds
      cases op with
      | tcp op => cases op <;> first | cases hl; done | cases hsend
      | _ => cases hl
    | _ => cases hholds

/-- Operations that hold no lock come in any order. -/
theorem pairwise_of_free (h : ∀ b ∈ k, b.connects = false ∧ b.unlocks = none) :
    k.Pairwise (Above s) := by
  refine List.pairwise_of_forall_mem_list ?_
  intro a _ b hb
  obtain ⟨hconn, hun⟩ := h b hb
  refine ⟨?_, ?_, ?_⟩
  · intro h
    rw [hconn] at h
    cases h
  · rintro f rfl
    cases hun
  · rintro f rfl
    cases hun

theorem own_free {f : FutureId} {calls : List Op} (h : ∀ o ∈ calls, o.own f = true) :
    ∀ b ∈ calls, b.connects = false ∧ b.unlocks = none :=
  fun b hb => ⟨connects_of_own (h b hb), unlocks_of_own (h b hb)⟩

/-- The calls of a callback touch no other future than its own. -/
theorem touches_of_own {f g : FutureId} (h : op.own g = true) (hne : g ≠ f) :
    op.touches f = false := by
  cases op with
  | attachCallback | timedWait | wait =>
    simp only [Op.own, beq_iff_eq] at h
    simp [Op.touches, h, hne]
  | tcp | sendNotify => rfl
  | timedWaitExpired | runPosted | setResult | unlock => cases h

/-! ## Steps -/

/-- No step undoes what `Later` says. -/
theorem exec_later (ht : Tidy s.client.session) (hx : machine.exec s op x = some (s', k)) :
    Later s.client.session s'.client.session := by
  cases exec_steps hx with
  | tcp hl =>
    obtain ⟨cs, hmoves, -⟩ := hl.session
    exact (hmoves.tidy ht).2.1
  | sendNotify | timedWait | timedWaitReady | timedWaitExpired | waitReady | waitRunning | waitRecv
  | runPostedNone | unlock => exact .refl _
  | attachCallback func => exact (tidy_attachCallback ht _ func).2.1
  | runPosted => exact (tidy_runPosted ht).2.1
  | @setResult d session _ hr =>
    have hl := (tidy_setResult ht d).2.1
    rw [hr] at hl
    exact hl
  | @setResultCallback d session func _ hr _ =>
    have hl := (tidy_setResult ht d).2.1
    rw [hr] at hl
    exact hl

/-- What comes before what stays in order whatever another thread does. -/
theorem Above.later (h : Above s a b) (howned : Owned s ops) (hb : b ∈ ops)
    (hl : Later s.client.session s'.client.session) : Above s' a b := by
  refine ⟨h.sends, h.touches, ?_⟩
  rintro f rfl hf
  have hready := (howned.ready f (howned.mem_held hb)).1
  refine h.table f rfl ?_
  rcases hl.values f hf with hf | hge
  · exact hf
  · exact absurd hready.lt (Nat.not_lt.2 hge)

/-- What an operation leads to may come where it was, if it sends only where the operation did and
touches only what the operation touched or what was in the table. -/
theorem Above.leads (h : Above s op b) (hwait : ∀ f, op ≠ .wait f)
    (hsends : b.connects = true → op.sends = false → a.sends = false)
    (htouches : ∀ f, b = .unlock f → f ∉ s.client.session.reqtable.values → op.touches f = false →
      a.touches f = false) : Above s a b := by
  have hout : ∀ f, b = .unlock f → f ∉ s.client.session.reqtable.values :=
    fun f hf hmem => hwait f (h.table f hf hmem)
  exact ⟨fun hb => hsends hb (h.sends hb), fun f hf => htouches f hf (hout f hf) (h.touches f hf),
    fun f hf hmem => absurd hmem (hout f hf)⟩

theorem sends_lift (op : Tcp.Op) : (lift op).sends = op.sends := by
  cases op <;> rfl

/-- **An operation of the client.** -/
theorem tcp_above {client : Client} {op : Tcp.Op} {k : List Tcp.Op} (ht : Tidy s.client.session)
    (hop : ∀ b ∈ rest, Above s (.tcp op) b) (hl : Leads s.client op client k) :
    (k.map lift).Pairwise (Above { s with client }) ∧
      ∀ a ∈ k.map lift, ∀ b ∈ rest, Above s a b := by
  constructor
  · refine List.pairwise_of_forall_mem_list ?_
    intro a ha b hb
    obtain ⟨o, ho, rfl⟩ := List.mem_map.1 ha
    obtain ⟨o', ho', rfl⟩ := List.mem_map.1 hb
    have hnone {f : FutureId} (h : lift o' = .unlock f) : False := by
      have hun := unlocks_lift o'
      rw [h] at hun
      cases hun
    refine ⟨?_, fun f hf => (hnone hf).elim, fun f hf => (hnone hf).elim⟩
    intro hconn
    rw [connects_lift] at hconn
    rw [sends_lift]
    exact hl.apart ⟨o', ho', hconn⟩ o ho
  · intro a ha b hb
    obtain ⟨o, ho, rfl⟩ := List.mem_map.1 ha
    refine (hop b hb).leads (by simp) ?_ ?_
    · intro _ hsend
      rw [sends_lift, Bool.eq_false_iff]
      intro h
      exact absurd (hl.sends o ho h) (Bool.eq_false_iff.1 hsend)
    · intro f _ hf _
      obtain ⟨cs, hmoves, hcs⟩ := hl.session
      cases o with
      | setResult d =>
        have hd := ((hmoves.tidy ht).2.2.2 d (hcs d ho)).1
        simp only [lift, Op.touches, beq_eq_false_iff_ne, ne_eq]
        rintro rfl
        exact hf hd
      | attachCallback g func => exact absurd ho (hl.attach g func)
      | _ => rfl

/-- **The callback of a completion.** -/
theorem setResult_above {d : Completion Origin} {session : Session Origin} {func : Callback}
    (howned : Owned s ops) (hd : .setResult d ∈ ops) (hop : ∀ b ∈ rest, Above s (.setResult d) b)
    (hG : Minds s (.setResult d) rest x) (hr : s.client.session.setResult d = (session, some func))
    (hown : ∀ o ∈ x.calls, o.own d.future = true) :
    (x.calls ++ [Op.unlock d.future]).Pairwise
      (Above { s.withSession session with held := d.future :: s.held }) ∧
      ∀ a ∈ x.calls ++ [Op.unlock d.future], ∀ b ∈ rest, Above s a b := by
  obtain ⟨htouch, hsend⟩ := hG (by rw [hr]; rfl)
  constructor
  · refine List.pairwise_append.2 ⟨pairwise_of_free (own_free hown), List.pairwise_singleton _ _, ?_⟩
    intro a ha b hb
    obtain rfl := List.mem_singleton.1 hb
    refine ⟨by simp [Op.connects], ?_, ?_⟩
    · rintro f ⟨rfl⟩
      exact htouch a ha
    · -- the future is in the table only if a wait has completed it, and then the callback only looks
      rintro f ⟨rfl⟩ hf
      have htable : (s.client.session.setResult d).1.reqtable = s.client.session.reqtable := by
        rw [Session.setResult_frame]
      rw [hr] at htable
      have hin : d.future ∈ s.client.session.reqtable.values := htable ▸ hf
      have hnone : d.extracted = none := by
        rcases he : d.extracted with _ | n
        · rfl
        · exact absurd hin (howned.handed d hd (by rw [he]; rfl)).2
      have hquiet := hsend (.inr ⟨hnone, hin⟩) a ha
      have hfree := htouch a ha
      have ho := hown a ha
      cases a with
      | wait g =>
        simp only [Op.own, beq_iff_eq] at ho
        rw [ho]
      | attachCallback | timedWait =>
        simp only [Op.own] at ho
        simp only [Op.touches] at hfree
        rw [ho] at hfree
        cases hfree
      | tcp o =>
        cases o <;> first | cases ho; done | cases hquiet
      | sendNotify => cases hquiet
      | timedWaitExpired | runPosted | setResult | unlock => cases ho
  · intro a ha b hb
    refine (hop b hb).leads (by simp) ?_ ?_
    · intro hconn _
      rcases List.mem_append.1 ha with ha | ha
      · exact hsend (.inl ⟨b, hb, hconn⟩) a ha
      · obtain rfl := List.mem_singleton.1 ha
        rfl
    · intro f _ _ hne
      simp only [Op.touches, beq_eq_false_iff_ne, ne_eq] at hne
      rcases List.mem_append.1 ha with ha | ha
      · exact touches_of_own (hown a ha) hne
      · obtain rfl := List.mem_singleton.1 ha
        simp [Op.touches, hne]

/-- **A submitted callback.** -/
theorem runPosted_above {f : FutureId} (howned : Owned s ops) (hrest : ∀ o ∈ rest, o ∈ ops)
    (hop : ∀ b ∈ rest, Above s .runPosted b) (hG : Minds s .runPosted rest x)
    {func : Callback} (hposted : (func, f) ∈ s.client.session.posted)
    (hown : ∀ o ∈ x.calls, o.own f = true) : ∀ a ∈ x.calls, ∀ b ∈ rest, Above s a b := by
  intro a ha b hb
  refine (hop b hb).leads (by simp) (fun hconn _ => hG ⟨b, hb, hconn⟩ a ha) ?_
  rintro g rfl _ _
  have hne := (howned.ready g (howned.mem_held (hrest _ hb))).2 _ hposted
  exact touches_of_own (hown a ha) hne

/-- **A wait** on a future that is not ready. -/
theorem wait_above {f : FutureId} {fut : Future} (howned : Owned s ops)
    (hrest : ∀ o ∈ rest, o ∈ ops) (hop : ∀ b ∈ rest, Above s (.wait f) b)
    (hfut : s.client.session.futures[f]? = some fut) (hpending : fut.isReady = false)
    (hk : ∀ a ∈ k, a.sends = false ∧ ∀ g, g ≠ f → a.touches g = false) :
    ∀ a ∈ k, ∀ b ∈ rest, Above s a b := by
  intro a ha b hb
  obtain ⟨hsends, htouches⟩ := hk a ha
  -- a future whose mutex the thread holds is ready, and so another one
  have hne : ∀ g, b = .unlock g → g ≠ f := by
    rintro g rfl rfl
    have hready := (howned.ready g (howned.mem_held (hrest _ hb))).1
    rw [Ready, List.getElem?_map, hfut] at hready
    have hfalse : fut.session = false := Option.some.inj hready
    rw [Future.isReady, hfalse] at hpending
    cases hpending
  refine ⟨fun _ => hsends, fun g hg => htouches g (hne g hg), ?_⟩
  intro g hg hmem
  have he := (hop b hb).table g hg hmem
  exact absurd (Op.wait.inj he).symm (hne g hg)

/-- **Every step keeps its thread in order.** -/
theorem pairwise_exec (howned : Owned s ops) (hmem : ∀ o ∈ op :: rest, o ∈ ops)
    (h : (op :: rest).Pairwise (Above s)) (hG : Minds s op rest x)
    (hx : machine.exec s op x = some (s', k)) : (k ++ rest).Pairwise (Above s') := by
  have hl := exec_later howned.tidy hx
  have hrest : ∀ o ∈ rest, o ∈ ops := fun o ho => hmem o (.tail _ ho)
  obtain ⟨hop, htail⟩ := List.pairwise_cons.1 h
  suffices hk : k.Pairwise (Above s') ∧ ∀ a ∈ k, ∀ b ∈ rest, Above s a b by
    refine List.pairwise_append.2 ⟨hk.1, ?_, ?_⟩
    · exact htail.imp_of_mem fun _ hb hab => hab.later howned (hrest _ hb) hl
    · exact fun a ha b hb => (hk.2 a ha b hb).later howned (hrest b hb) hl
  cases exec_steps hx with
  | tcp hleads => exact tcp_above howned.tidy hop hleads
  | attachCallback | timedWaitReady | waitReady | runPostedNone | setResult | unlock =>
    exact ⟨.nil, by simp⟩
  | sendNotify c =>
    refine ⟨pairwise_of_free (by simp [Op.connects, Tcp.Op.connects, Op.unlocks]), ?_⟩
    intro a ha b hb
    refine (hop b hb).leads (by simp) (fun _ hsend => by cases hsend) ?_
    intro f _ _ _
    simp only [List.mem_cons, List.not_mem_nil, or_false] at ha
    rcases ha with rfl | rfl <;> rfl
  | timedWait | timedWaitExpired =>
    refine ⟨List.pairwise_singleton _ _, ?_⟩
    intro a ha b hb
    obtain rfl := List.mem_singleton.1 ha
    exact (hop b hb).leads (by simp) (fun _ _ => rfl) fun g _ _ hg => hg
  | waitRunning hfut hpending =>
    refine ⟨List.pairwise_singleton _ _, wait_above howned hrest hop hfut hpending ?_⟩
    intro a ha
    obtain rfl := List.mem_singleton.1 ha
    exact ⟨rfl, fun g hg => by simp [Op.touches, Ne.symm hg]⟩
  | @waitRecv f fut calls hfut hpending hcalls =>
    have hhandler : ∀ a ∈ calls.map lift ++ [Op.wait f],
        (a.sends = false ∧ ∀ g, g ≠ f → a.touches g = false) ∧
          a.connects = false ∧ a.unlocks = none := by
      intro a ha
      rcases List.mem_append.1 ha with ha | ha
      · obtain ⟨o, ho, rfl⟩ := List.mem_map.1 ha
        have ho := hcalls o ho
        cases o <;> first | cases ho; done | exact ⟨⟨rfl, fun _ _ => rfl⟩, rfl, rfl⟩
      · obtain rfl := List.mem_singleton.1 ha
        exact ⟨⟨rfl, fun _ _ => rfl⟩, rfl, rfl⟩
    exact ⟨pairwise_of_free fun a ha => (hhandler a ha).2,
      wait_above howned hrest hop hfut hpending fun a ha => (hhandler a ha).1⟩
  | runPosted hposted hown =>
    exact ⟨pairwise_of_free (own_free hown), runPosted_above howned hrest hop hG hposted hown⟩
  | setResultCallback _ hr hown => exact setResult_above howned (hmem _ (.head _)) hop hG hr hown

end

/-- **Callbacks under locks.** In every run whose callbacks mind the locks of their thread (`Minds`),
whatever else they do with their own future and session, no thread is ever about to take a lock that
it holds. -/
theorem no_self_deadlock {connectTimeout reconnectLimit : Int} {timeout : BitVec 32}
    {ls : List (Label Op Choice)} {c : Config Locks Op}
    (hminds : machine.Heeds Minds (init connectTimeout reconnectLimit timeout) ls)
    (hrun : machine.run (init connectTimeout reconnectLimit timeout) ls = some c) :
    ∀ t ∈ c.threads, ¬ SelfDeadlock t := by
  intro t ht
  refine not_selfDeadlock (s := c.shared) (System.invariant_threads (I := Owned) (G := Minds)
    (fun s t => t.Pairwise (Above s)) ?_ ?_ ?_ (fun ls c => locks_owned) ?_ hminds hrun t ht)
  · exact fun s op _ => List.pairwise_singleton _ _
  · exact fun s ops op rest x s' k howned hmem h hG hx => pairwise_exec howned hmem h hG hx
  · intro s ops op x s' k t howned _ hmem h hx
    exact h.imp_of_mem fun _ hb hab => hab.later howned (hmem _ hb) (exec_later howned.tidy hx)
  · exact fun t ht => by cases ht

/-- A request is sent, and a callback attached to its future. -/
def requested : List (Label Op Choice) :=
  .spawn (.tcp (.sendRequest (.str [0x66]) .nil)) :: List.replicate 15 (.exec 0 {}) ++
    [.spawn (.attachCallback 0 7), .exec 1 {}]

/-- The response arrives, and the callback makes the calls `calls`. -/
def answered (calls : List Op) : List (Label Op Choice) :=
  requested ++ [.spawn (.tcp (.readCompletes 0 (.data [(1, .integer 7, .nil)] false))), .exec 2 {},
    .spawn (.tcp (.onRead 0)), .exec 3 {}, .exec 3 {}, .exec 3 { calls }]

/-- The only attempt to connect fails, and the callback of the first request sends another one. -/
def failedConnect : List (Label Op Choice) :=
  [.spawn (.tcp (.sendRequest (.str [0x66]) .nil)), .exec 0 {}, .exec 0 {},
    .spawn (.attachCallback 0 7), .exec 1 {}] ++ List.replicate 5 (.exec 0 {}) ++
    [.exec 0 { tcp := { ok := false } }, .exec 0 {}, .exec 0 {}, .exec 0 { tcp := { it := [⟨1, 0⟩] } },
      .exec 0 { calls := [.tcp (.sendRequest (.str [0x67]) .nil)] }] ++
    List.replicate 3 (.exec 0 {})

/-- A wait runs out, its callback sends a request, and the flush of that delivers the response to the
first one. -/
def expiredWait : List (Label Op Choice) :=
  requested ++ [.spawn (.timedWait 0), .exec 2 {}, .exec 2 {},
    .exec 2 { calls := [.tcp (.sendRequest (.str [0x67]) .nil)] }, .exec 2 {}, .exec 2 {},
    .spawn (.tcp (.readCompletes 0 (.data [(1, .integer 7, .nil)] false))), .exec 3 {},
    .exec 2 { tcp := { calls := [.onRead 0] } }, .exec 2 {}, .exec 2 {}]

/-- The thread that gets into a deadlock with itself, if one does. -/
def deadlocked (reconnectLimit : Int) (ls : List (Label Op Choice)) : Option (List Op) :=
  (machine.run (init 10 reconnectLimit 30) ls).bind fun c =>
    c.threads.find? fun t => decide (SelfDeadlock t)

/-- A callback attaches a callback to its own future; a callback sends when connecting has failed; a
callback sends when a wait has run out. In each case the thread waits for a lock that it holds. -/
theorem callback_deadlocks :
    deadlocked 3 (answered [.attachCallback 0 8]) =
        some [.attachCallback 0 8, .unlock 0, .tcp (.start 0)] ∧
      deadlocked 1 failedConnect =
        some [.tcp (.sendData 1), .unlock 0, .tcp (.checkConnected 0)] ∧
      deadlocked 3 expiredWait =
        some [.setResult ⟨0, .response, some 2, .integer 7, .nil⟩, .tcp (.start 0),
          .tcp (.sendData 1), .unlock 0] :=
  ⟨rfl, rfl, rfl⟩

/-- A callback that sends a request and then waits for its own future. -/
def minding : List (Label Op Choice) :=
  answered [.tcp (.sendRequest (.str [0x67]) .nil), .wait 0] ++ List.replicate 3 (.exec 3 {})

/-- The state when it is about to take the mutex of the transport. -/
def mindingAt : Config Locks Op := (machine.run (init 10 3 30) minding).getD (init 10 3 30)

theorem no_self_deadlock_callbackSends :
    machine.run (init 10 3 30) minding = some mindingAt ∧
      [.tcp (.sendData 1), .wait 0, .unlock 0, .tcp (.start 0)] ∈ mindingAt.threads ∧
      ∀ t ∈ mindingAt.threads, ¬ SelfDeadlock t := by
  have hrun : machine.run (init 10 3 30) minding = some mindingAt := rfl
  have hminds : machine.Heeds Minds (init 10 3 30) minding := by decide
  exact ⟨hrun, .tail _ (.tail _ (.tail _ (.head _))), no_self_deadlock hminds hrun⟩

end Locks

end Tcp

end MsgpackRpc
