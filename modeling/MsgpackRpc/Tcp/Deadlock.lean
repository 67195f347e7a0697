import Mathlib.Logic.Relation
import MsgpackRpc.Tcp.SelfDeadlock
import MsgpackRpc.Tcp.Steps

/-!
# Deadlocks between threads

Threads that wait for each other's locks: the mutex of the transport is held while a thread connects,
and the futures that a failed connect completes need their mutexes; the mutex of a future is held while
its callback runs, and a callback that sends needs the mutex of the transport. `no_deadlock` says that
nothing comes of this if callbacks use no future but their own (`Op.own`), mind the locks of their own
thread (`Minds`), and send nothing if a wait that has run out runs them. Every thread that waits for a lock waits, in the end, for one that does
not.

Two facts carry the proof. A thread that holds a lock waits for the mutex of a future only to complete a
future that an operation has taken out of the table, and nobody else completes that one but a wait that
has run out (`Nested.calm`). So if it has to wait, it waits for a callback that sends nothing, and that
callback waits for nothing (`Nested.quiet`). Without the condition on waits two threads block each other
(`expiredWait_deadlocks`).
-/

namespace MsgpackRpc

open Threads

namespace Tcp

namespace Locks

open Session (Ready)

/-! ## Waiting -/

/-- A lock that some thread holds. -/
def Taken (s : Locks) : Lock → Prop
  | .future f => f ∈ s.held
  | .transport => s.client.locked = true

instance (s : Locks) : (l : Lock) → Decidable (Taken s l)
  | .future f => inferInstanceAs (Decidable (f ∈ s.held))
  | .transport => inferInstanceAs (Decidable (s.client.locked = true))

/-- A thread that needs a lock which is taken. -/
def Blocked (s : Locks) (t : List Op) : Prop :=
  ∃ l ∈ t.head?.bind Op.acquires, Taken s l

instance (s : Locks) (t : List Op) : Decidable (Blocked s t) :=
  inferInstanceAs (Decidable (∃ l ∈ t.head?.bind Op.acquires, Taken s l))

/-- A thread that needs a lock which another one holds. -/
def WaitsFor (s : Locks) (t t' : List Op) : Prop :=
  ∃ l ∈ t.head?.bind Op.acquires, Taken s l ∧ l ∈ t'.filterMap Op.holds

/-- The completion that an operation makes. -/
def Op.completing : Op → Option (Completion Origin)
  | .setResult d => some d
  | _ => none

/-- A step that runs a callback which minds the locks of its thread, and which sends nothing if it is
run by a wait that has run out. -/
def Discreet (s : Locks) (op : Op) (rest : List Op) (x : Choice) : Prop :=
  Minds s op rest x ∧ ∀ d ∈ op.completing,
    (s.client.session.setResult d).2.isSome = true → d.extracted = none →
      ∀ o ∈ x.calls, o.sends = false

instance (s : Locks) (op : Op) (rest : List Op) (x : Choice) : Decidable (Discreet s op rest x) :=
  inferInstanceAs (Decidable (_ ∧ _))

/-! ## The futures of the session -/

/-- The task of an operation (`Tcp.Op.task`). -/
def Op.task : Op → Option Task
  | .tcp op => op.task
  | .setResult d => some (.complete d)
  | _ => none

def tasks (ops : Multiset Op) : Multiset Task := ops.filterMap Op.task

section
variable {s s' : Locks} {op a b : Op} {ops rest : Multiset Op} {k : List Op} {x : Choice}

theorem tasks_cons (op : Op) (ops : Multiset Op) :
    tasks (op ::ₘ ops) = ↑op.task.toList + tasks ops := by
  rw [tasks, tasks]
  cases h : op.task with
  | none => rw [Multiset.filterMap_cons_none _ _ h, Option.toList_none, Multiset.coe_nil, zero_add]
  | some t =>
    rw [Multiset.filterMap_cons_some _ _ _ h, Option.toList_some, Multiset.coe_singleton,
      Multiset.singleton_add]

theorem tasks_add (k : List Op) (ops : Multiset Op) :
    tasks (↑k + ops) = ↑(k.filterMap Op.task) + tasks ops := by
  rw [tasks, Multiset.filterMap_add, Multiset.filterMap_coe, tasks]

theorem task_lift (op : Tcp.Op) : (lift op).task = op.task := by
  cases op <;> rfl

theorem task_of_entry (h : op.entry = true) : op.task = none := by
  cases op with
  | tcp op => exact Tcp.Op.task_of_entry (Bool.and_eq_true_iff.1 h).1
  | setResult => cases h
  | _ => rfl

theorem task_of_own {f : FutureId} {calls : List Op} (h : ∀ o ∈ calls, o.own f = true) :
    calls.filterMap Op.task = [] := by
  refine List.filterMap_eq_nil_iff.2 fun o ho => ?_
  have hown := h o ho
  cases o with
  | tcp op => cases op <;> first | rfl | cases hown
  | setResult => cases hown
  | _ => rfl

theorem tasks_map_lift (k : List Tcp.Op) :
    (k.map lift).filterMap Op.task = k.filterMap Tcp.Op.task := by
  rw [List.filterMap_map]
  exact List.filterMap_congr fun op _ => task_lift op

/-- **The futures are conserved**, with the mutexes as without. -/
theorem accounted_exec (h : Accounted s.client.session (tasks (op ::ₘ rest)))
    (hx : machine.exec s op x = some (s', k)) :
    Accounted s'.client.session (tasks (↑k + rest)) := by
  rw [tasks_cons] at h
  rw [tasks_add]
  cases op with
  | tcp op =>
    simp only [machine] at hx
    split at hx
    · obtain ⟨⟨client, k'⟩, hx', he⟩ := Option.map_eq_some_iff.1 hx
      cases he
      rw [tasks_map_lift]
      exact accounted_step h (Tcp.exec_steps hx')
    · cases hx
  | sendNotify c =>
    cases hx
    exact (accounted_add_iff rfl rfl).2 ((accounted_add_iff rfl rfl).1 h)
  | setResult d =>
    obtain ⟨hc, hn⟩ := accounted_add.1 h
    have hdone : Accounted (s.client.session.setResult d).1 (tasks rest) := by
      refine ⟨hc.setResult, ?_⟩
      exact zero_add ((tasks rest).filterMap Task.insertion) ▸ hn.setResult d
    cases exec_steps hx with
    | setResult _ hr =>
      rw [hr] at hdone
      exact (accounted_add_iff rfl rfl).2 hdone
    | setResultCallback _ hr hown =>
      rw [hr] at hdone
      have hk : (x.calls ++ [Op.unlock d.future]).filterMap Op.task = [] := by
        rw [List.filterMap_append, task_of_own hown]
        rfl
      rw [hk]
      exact (accounted_add_iff rfl rfl).2 hdone
  | timedWaitExpired f =>
    have hrest := (accounted_add_iff rfl rfl).1 h
    cases exec_steps hx
    refine accounted_add.2 ⟨?_, ?_⟩
    · exact hrest.conserved.cons_of_none rfl
    · exact (zero_add ((tasks rest).filterMap Task.insertion)).symm ▸ hrest.numbered
  | attachCallback f func =>
    have hrest := (accounted_add_iff rfl rfl).1 h
    cases exec_steps hx
    have hq := Session.quiet_attachCallback s.client.session f func
    exact (accounted_add_iff rfl rfl).2 ⟨hrest.conserved.quiet hq, hrest.numbered.quiet hq⟩
  | runPosted =>
    have hrest := (accounted_add_iff rfl rfl).1 h
    cases exec_steps hx with
    | runPostedNone => exact (accounted_add_iff rfl rfl).2 hrest
    | runPosted _ hown =>
      have hq := Session.quiet_runPosted s.client.session
      rw [task_of_own hown]
      exact (accounted_add_iff rfl rfl).2 ⟨hrest.conserved.quiet hq, hrest.numbered.quiet hq⟩
  | timedWait f =>
    have hrest := (accounted_add_iff rfl rfl).1 h
    cases exec_steps hx <;> exact (accounted_add_iff rfl rfl).2 hrest
  | wait f =>
    have hrest := (accounted_add_iff rfl rfl).1 h
    cases exec_steps hx with
    | waitReady | waitRunning => exact (accounted_add_iff rfl rfl).2 hrest
    | waitRecv _ _ hcalls =>
      rw [List.filterMap_append, tasks_map_lift,
        tasks_of_entry fun op hop => Tcp.Op.entry_of_handler (hcalls op hop)]
      exact (accounted_add_iff rfl rfl).2 hrest
  | unlock f =>
    have hrest := (accounted_add_iff rfl rfl).1 h
    cases hx
    exact (accounted_add_iff rfl rfl).2 hrest

/-- The invariant that needs no condition on the callbacks. -/
structure Sane (s : Locks) (ops : Multiset Op) : Prop where
  owned : Owned s ops
  accounted : Accounted s.client.session (tasks ops)

theorem sane_run {connectTimeout reconnectLimit : Int} {timeout : BitVec 32}
    {ls : List (Label Op Choice)} {c : Config Locks Op}
    (hrun : machine.run (init connectTimeout reconnectLimit timeout) ls = some c) :
    Sane c.shared c.pending := by
  refine ⟨locks_owned hrun, ?_⟩
  refine System.invariant (G := fun _ _ _ _ => True)
    (fun s ops => Accounted s.client.session (tasks ops)) ?_ ?_
    ⟨Session.conserved_init timeout, Session.numbered_init timeout⟩ (System.meets_true _ _) hrun
  · intro s ops op h he
    rw [tasks_cons, task_of_entry he, Option.toList_none, Multiset.coe_nil, zero_add]
    exact h
  · intro s op rest x s' k h _ hx
    exact accounted_exec h hx

/-! ## What a thread does while it holds a lock -/

/-- A future that is completed and whose mutex is free. It stays so. -/
def Settled (s : Locks) (f : FutureId) : Prop := Ready s.client.session f ∧ f ∉ s.held

/-- A future that was completed by an operation which had taken it out of the table. -/
def Spent (s : Locks) (f : FutureId) : Prop :=
  ∃ d ∈ s.client.session.completions, d.future = f ∧ d.extracted.isSome = true

/-- What a thread may do while it holds a lock: it completes futures that were taken out of the table,
waits for completed futures, and uses the mutexes of settled ones. -/
def Calm (s : Locks) : Op → Prop
  | .attachCallback f _ | .timedWait f | .timedWaitExpired f => Settled s f
  | .wait f => Ready s.client.session f
  | .setResult d => d.extracted.isSome = true ∨ Settled s d.future
  | _ => True

/-- The operation `a` may come before `b` in a thread. While the thread holds a lock it is calm, and
while it holds the mutex of a future that is not spent it only waits for that future. -/
structure Nested (s : Locks) (a b : Op) : Prop where
  calm : b.holds.isSome = true → Calm s a
  quiet : ∀ f, b = .unlock f → a = .wait f ∨ Spent s f

/-- Only a pending future has a callback to run. -/
theorem not_ready_of_callback {s : Session Origin} (ht : Tidy s) {d : Completion Origin}
    (h : (s.setResult d).2.isSome = true) : ¬ Ready s d.future := by
  intro hready
  rcases hf : s.futures[d.future]? with _ | fut
  · simp [Session.setResult, hf] at h
  · have hcallback : fut.callback.isSome = true := by
      simpa [Session.setResult, hf, Future.setResult] using h
    have hpending := ht.callback (fut.callback, fut.session)
      (List.mem_map_of_mem (List.mem_of_getElem? hf)) hcallback
    rw [Ready, List.getElem?_map, hf] at hready
    cases hpending.symm.trans (Option.some.inj hready)

theorem Settled.exec {f : FutureId} (h : Settled s f) (ht : Tidy s.client.session)
    (hx : machine.exec s op x = some (s', k)) : Settled s' f := by
  refine ⟨(exec_later ht hx).ready f h.1, ?_⟩
  cases exec_steps hx with
  | @setResultCallback d session func _ hr _ =>
    intro hmem
    rcases List.mem_cons.1 hmem with rfl | hmem
    · exact not_ready_of_callback ht (by rw [hr]; rfl) h.1
    · exact h.2 hmem
  | unlock g => exact fun hmem => h.2 (List.mem_of_mem_erase hmem)
  | _ => exact h.2

theorem Moves.completions {s s' : Session Origin} {cs : List (Completion Origin)}
    (h : Moves s s' cs) : s'.completions = s.completions := by
  cases h with
  | hands hh => rw [hh.frame]
  | _ => rfl

theorem completions_setResult {s s' : Session Origin} {d : Completion Origin} {r : Option Callback}
    (h : s.setResult d = (s', r)) : s'.completions = s.completions ++ [d] := by
  have hs : (s.setResult d).1 = s' := congrArg Prod.fst h
  rw [← hs, Session.setResult_frame]

theorem Moves.extracted {s s' : Session Origin} {cs : List (Completion Origin)}
    (h : Moves s s' cs) : ∀ d ∈ cs, d.extracted.isSome = true := by
  cases h with
  | hands hh => exact fun d hd => by rw [hh.extracted d hd]; rfl
  | _ => simp

/-- What has been completed stays completed. -/
theorem Spent.exec {f : FutureId} (h : Spent s f) (hx : machine.exec s op x = some (s', k)) :
    Spent s' f := by
  obtain ⟨d, hd, hf⟩ := h
  refine ⟨d, ?_, hf⟩
  cases exec_steps hx with
  | tcp hl =>
    obtain ⟨cs, hmoves, -⟩ := hl.session
    exact hmoves.completions ▸ hd
  | attachCallback func =>
    show d ∈ (s.client.session.attachCallback _ func).completions
    rw [Session.attachCallback_frame]
    exact hd
  | runPosted =>
    show d ∈ s.client.session.runPosted.completions
    rw [Session.runPosted_frame]
    exact hd
  | setResult _ hr | setResultCallback _ hr =>
    exact (completions_setResult hr).symm ▸ List.mem_append_left _ hd
  | _ => exact hd

theorem Calm.exec (h : Calm s a) (ht : Tidy s.client.session)
    (hx : machine.exec s op x = some (s', k)) : Calm s' a := by
  cases a with
  | attachCallback | timedWait | timedWaitExpired => exact Settled.exec h ht hx
  | wait f => exact (exec_later ht hx).ready f h
  | setResult d => exact h.imp_right fun h => h.exec ht hx
  | _ => trivial

/-- What comes before what stays so whatever another thread does. -/
theorem Nested.exec (h : Nested s a b) (ht : Tidy s.client.session)
    (hx : machine.exec s op x = some (s', k)) : Nested s' a b :=
  ⟨fun hb => (h.calm hb).exec ht hx, fun f hf => (h.quiet f hf).imp_right fun h => h.exec hx⟩

/-! ## Steps -/

/-- What an operation of the client leads to is calm: the futures that it completes were in the
table. -/
theorem lifted_calm {s' : Locks} {client : Client} {op : Tcp.Op} {k : List Tcp.Op}
    (hl : Leads s.client op client k) : ∀ a ∈ k.map lift, Calm s' a := by
  intro a ha
  obtain ⟨o, ho, rfl⟩ := List.mem_map.1 ha
  cases o with
  | setResult d =>
    obtain ⟨cs, hmoves, hcs⟩ := hl.session
    exact .inl (hmoves.extracted d (hcs d ho))
  | attachCallback f func => exact absurd ho (hl.attach f func)
  | _ => trivial

/-- What a callback calls is calm when its future is ready, and settled if it uses the mutex. -/
theorem calm_of_own {f : FutureId} (hown : op.own f = true) (hready : Ready s.client.session f)
    (hsettled : op.touches f = true → Settled s f) : Calm s op := by
  cases op with
  | wait g => exact beq_iff_eq.1 hown ▸ hready
  | attachCallback g func | timedWait g =>
    obtain rfl := beq_iff_eq.1 hown
    exact hsettled (beq_self_eq_true g)
  | tcp | sendNotify => trivial
  | timedWaitExpired | runPosted | setResult | unlock => cases hown

/-- If it neither uses the mutex nor sends, it only waits. -/
theorem wait_of_own {f : FutureId} (hown : op.own f = true) (htouch : op.touches f = false)
    (hsend : op.sends = false) : op = .wait f := by
  cases op with
  | wait g => rw [beq_iff_eq.1 hown]
  | attachCallback g func | timedWait g => cases htouch.symm.trans hown
  | tcp op => cases op <;> first | cases hown; done | cases hsend
  | sendNotify => cases hsend
  | timedWaitExpired | runPosted | setResult | unlock => cases hown

theorem not_ready_of_isReady {s : Session Origin} {f : FutureId} {fut : Future}
    (hfut : s.futures[f]? = some fut) (hpending : fut.isReady = false) : ¬ Ready s f := by
  intro hready
  rw [Ready, List.getElem?_map, hfut] at hready
  have hfalse : fut.session = false := Option.some.inj hready
  rw [Future.isReady, hfalse] at hpending
  cases hpending

/-- What the callback of a completion calls is calm. -/
theorem callback_calm {d : Completion Origin} {session : Session Origin} {func : Callback}
    {rest : List Op} (howned : Owned s ops) (hG : Discreet s (.setResult d) rest x)
    (hr : s.client.session.setResult d = (session, some func))
    (hown : ∀ o ∈ x.calls, o.own d.future = true) :
    ∀ a ∈ x.calls ++ [Op.unlock d.future],
      Calm { s.withSession session with held := d.future :: s.held } a := by
  have hsome : (s.client.session.setResult d).2.isSome = true := by rw [hr]; rfl
  have hready := ((tidy_setResult howned.tidy d).2.2.2 hsome).1
  rw [hr] at hready
  intro a ha
  rcases List.mem_append.1 ha with ha | ha
  · refine calm_of_own (hown a ha) hready ?_
    rw [(hG.1 hsome).1 a ha]
    exact Bool.noConfusion
  · obtain rfl := List.mem_singleton.1 ha
    trivial

/-- **A calm operation** leads to calm operations. -/
theorem calm_exec {rest : List Op} (howned : Owned s ops) (h : Calm s op)
    (hG : Discreet s op rest x) (hx : machine.exec s op x = some (s', k)) : ∀ a ∈ k, Calm s' a := by
  suffices hcalm : ∀ a ∈ k, Calm s a ∨ Calm s' a from
    fun a ha => (hcalm a ha).elim (fun h => h.exec howned.tidy hx) id
  cases exec_steps hx with
  | tcp hl => exact fun a ha => .inr (lifted_calm hl a ha)
  | attachCallback | timedWaitReady | waitReady | runPostedNone | setResult | unlock => simp
  | sendNotify => simp [Calm]
  | timedWait | timedWaitExpired =>
    intro a ha
    obtain rfl := List.mem_singleton.1 ha
    first | exact .inl h | exact .inl (.inr h)
  | waitRunning hfut hpending | waitRecv hfut hpending =>
    exact absurd h (not_ready_of_isReady hfut hpending)
  | @runPosted func f hposted hown =>
    have hready := howned.tidy.posted _ hposted
    have hsettled : Settled s f := ⟨hready, fun hf => (howned.ready f hf).2 _ hposted rfl⟩
    exact fun a ha => .inl (calm_of_own (hown a ha) hready fun _ => hsettled)
  | setResultCallback _ hr hown => exact fun a ha => .inr (callback_calm howned hG hr hown a ha)

/-- What comes before what stays when an operation is executed. -/
theorem nested_leads {rest : List Op} (howned : Owned s ops) (hmem : ∀ o ∈ rest, o ∈ ops)
    (hop : ∀ b ∈ rest, Nested s op b) (hG : Discreet s op rest x)
    (hx : machine.exec s op x = some (s', k)) : ∀ a ∈ k, ∀ b ∈ rest, Nested s' a b := by
  intro a ha b hb
  refine ⟨fun hh => calm_exec howned ((hop b hb).calm hh) hG hx a ha, ?_⟩
  rintro f rfl
  rcases (hop _ hb).quiet f rfl with rfl | hspent
  · -- a wait for a future whose mutex the thread holds is over at once
    have hready := (howned.ready f (howned.mem_held (hmem _ hb))).1
    cases exec_steps hx with
    | waitReady => cases ha
    | waitRunning hfut hpending | waitRecv hfut hpending =>
      exact absurd hready (not_ready_of_isReady hfut hpending)
  · exact .inr (hspent.exec hx)

theorem holds_eq_none (h : op.connects = false ∧ op.unlocks = none) : op.holds = none := by
  cases op with
  | tcp op => exact if_neg (Bool.eq_false_iff.1 h.1)
  | unlock => cases h.2
  | _ => rfl

theorem nested_of_free {k : List Op} (h : ∀ b ∈ k, b.connects = false ∧ b.unlocks = none) :
    k.Pairwise (Nested s) := by
  refine List.pairwise_of_forall_mem_list ?_
  intro a _ b hb
  refine ⟨?_, ?_⟩
  · rw [holds_eq_none (h b hb)]
    exact Bool.noConfusion
  · rintro f rfl
    cases (h _ hb).2

/-- What an operation leads to is in order. -/
theorem nested_self {rest : List Op} (howned : Owned s ops) (hG : Discreet s op rest x)
    (hx : machine.exec s op x = some (s', k)) : k.Pairwise (Nested s') := by
  cases exec_steps hx with
  | tcp hl =>
    refine List.pairwise_of_forall_mem_list ?_
    intro a ha b hb
    refine ⟨fun _ => lifted_calm hl a ha, ?_⟩
    rintro f rfl
    obtain ⟨o, -, he⟩ := List.mem_map.1 hb
    cases (congrArg Op.unlocks he).symm.trans (unlocks_lift o)
  | attachCallback | timedWaitReady | waitReady | runPostedNone | setResult | unlock => exact .nil
  | sendNotify => exact nested_of_free (by simp [Op.connects, Tcp.Op.connects, Op.unlocks])
  | timedWait | timedWaitExpired | waitRunning => exact List.pairwise_singleton _ _
  | waitRecv _ _ hcalls =>
    refine nested_of_free fun b hb => ?_
    rcases List.mem_append.1 hb with hb | hb
    · obtain ⟨o, ho, rfl⟩ := List.mem_map.1 hb
      exact ⟨(connects_lift o).trans (handler_connects (hcalls o ho)), unlocks_lift o⟩
    · obtain rfl := List.mem_singleton.1 hb
      exact ⟨rfl, rfl⟩
  | runPosted _ hown => exact nested_of_free (own_free hown)
  | @setResultCallback d session func _ hr hown =>
    have hcalm := callback_calm howned hG hr hown
    refine List.pairwise_append.2 ⟨nested_of_free (own_free hown), List.pairwise_singleton _ _, ?_⟩
    intro a ha b hb
    obtain rfl := List.mem_singleton.1 hb
    refine ⟨fun _ => hcalm a (List.mem_append_left _ ha), ?_⟩
    rintro f ⟨rfl⟩
    have hsome : (s.client.session.setResult d).2.isSome = true := by rw [hr]; rfl
    rcases he : d.extracted with _ | n
    · exact .inl (wait_of_own (hown a ha) ((hG.1 hsome).1 a ha) (hG.2 d rfl hsome he a ha))
    · refine .inr ⟨d, ?_, rfl, by rw [he]; rfl⟩
      exact (completions_setResult hr).symm ▸ List.mem_append_right _ (.head _)

/-- **Every step keeps its thread in order.** -/
theorem nested_exec {rest : List Op} (howned : Owned s ops) (hmem : ∀ o ∈ op :: rest, o ∈ ops)
    (h : (op :: rest).Pairwise (Nested s)) (hG : Discreet s op rest x)
    (hx : machine.exec s op x = some (s', k)) : (k ++ rest).Pairwise (Nested s') := by
  obtain ⟨hop, htail⟩ := List.pairwise_cons.1 h
  refine List.pairwise_append.2 ⟨nested_self howned hG hx, ?_, ?_⟩
  · exact htail.imp fun hab => hab.exec howned.tidy hx
  · exact nested_leads howned (fun o ho => hmem o (.tail _ ho)) hop hG hx

/-! ## Who waits for whom -/

/-- A blocked thread cannot go on. -/
theorem Blocked.exec_eq_none {rest : List Op} (h : Blocked s (op :: rest)) (x : Choice) :
    machine.exec s op x = none := by
  obtain ⟨l, hl, htaken⟩ := h
  cases op with
  | tcp op =>
    cases op with
    | sendData c =>
      cases hl
      have hlocked : s.client.locked = true := htaken
      simp [machine, Tcp.machine, lift, hlocked]
    | _ => cases hl
  | attachCallback | timedWait | timedWaitExpired | setResult =>
    cases hl
    exact if_pos htaken
  | _ => cases hl

/-- A future is completed once as one that was taken out of the table. -/
theorem Sane.not_spent (h : Sane s ops) {d : Completion Origin} (hd : .setResult d ∈ ops)
    (hsome : d.extracted.isSome = true) : ¬ Spent s d.future := by
  rintro ⟨d', hd', hf, hsome'⟩
  have hc := h.accounted.conserved
  have hpending : d ∈ (tasks ops).filterMap Task.completion :=
    (Multiset.mem_filterMap _ _).2 ⟨.complete d, (Multiset.mem_filterMap _ _).2 ⟨_, hd, rfl⟩, rfl⟩
  have hnodup := Multiset.coe_nodup.2 hc.nodup_handed
  rw [← Multiset.map_coe, hc.handed, Multiset.filter_add, Multiset.map_add, Multiset.nodup_add]
    at hnodup
  refine Multiset.disjoint_left.1 hnodup.2.2 ?_
    (Multiset.mem_map_of_mem Completion.future (Multiset.mem_filter.2 ⟨hpending, hsome⟩))
  exact hf ▸ Multiset.mem_map_of_mem _ (Multiset.mem_filter.2 ⟨Multiset.mem_coe.2 hd', hsome'⟩)

/-- What holds of the threads of a run. -/
structure Ordered (c : Config Locks Op) : Prop where
  sane : Sane c.shared c.pending
  above : ∀ t ∈ c.threads, t.Pairwise (Above c.shared)
  nested : ∀ t ∈ c.threads, t.Pairwise (Nested c.shared)

variable {c : Config Locks Op} {t : List Op}

theorem mem_pending (ht : t ∈ c.threads) (ho : op ∈ t) : op ∈ c.pending :=
  Multiset.mem_coe.2 (List.mem_flatten.2 ⟨t, ht, ho⟩)

/-- The holder of the mutex of a future: its thread is not blocked, or the future is spent. -/
theorem Ordered.holder (h : Ordered c) {f : FutureId} (hf : f ∈ c.shared.held) :
    ∃ t' ∈ c.threads, .future f ∈ t'.filterMap Op.holds ∧
      (Blocked c.shared t' → Spent c.shared f ∧ ∃ op rest, t' = op :: rest ∧ .unlock f ∈ rest) := by
  have hmem : f ∈ (↑c.shared.held : Multiset FutureId) := hf
  rw [h.sane.owned.held] at hmem
  obtain ⟨o, ho, hun⟩ := (Multiset.mem_filterMap _ _).1 hmem
  obtain rfl : o = .unlock f := by
    cases o <;> cases hun
    rfl
  obtain ⟨t', ht', hin⟩ := List.mem_flatten.1 (Multiset.mem_coe.1 ho)
  refine ⟨t', ht', List.mem_filterMap.2 ⟨_, hin, rfl⟩, ?_⟩
  rintro ⟨l, hl, htaken⟩
  cases t' with
  | nil => cases hin
  | cons a rest =>
    rcases List.mem_cons.1 hin with rfl | hrest
    · cases hl
    · rcases ((List.pairwise_cons.1 (h.nested _ ht')).1 _ hrest).quiet f rfl with rfl | hspent
      · cases hl
      · exact ⟨hspent, a, rest, rfl, hrest⟩

/-- **A thread that holds a lock and waits for the mutex of a future** waits for a thread that is not
blocked. -/
theorem Ordered.waitsFor_future (h : Ordered c) {rest : List Op} (ht : op :: rest ∈ c.threads)
    {f : FutureId} (hop : op.acquires = some (.future f)) (hf : f ∈ c.shared.held)
    (hb : ∃ b ∈ rest, b.holds.isSome = true) :
    ∃ t' ∈ c.threads, WaitsFor c.shared (op :: rest) t' ∧ ¬ Blocked c.shared t' := by
  obtain ⟨b, hb, hholds⟩ := hb
  have hcalm := ((List.pairwise_cons.1 (h.nested _ ht)).1 b hb).calm hholds
  -- a settled future is not held, so the thread completes one that was taken out of the table
  have hnot : ¬ Spent c.shared f := by
    cases op with
    | setResult d =>
      cases hop
      rcases hcalm with hsome | hsettled
      · exact h.sane.not_spent (mem_pending ht (.head _)) hsome
      · exact absurd hf hsettled.2
    | attachCallback | timedWait | timedWaitExpired =>
      cases hop
      exact absurd hf hcalm.2
    | tcp op => cases op <;> cases hop
    | _ => cases hop
  obtain ⟨t', ht', hholder, hblocked⟩ := h.holder hf
  exact ⟨t', ht', ⟨_, hop, hf, hholder⟩, fun hb => hnot (hblocked hb).1⟩

theorem acquires_of_connects (h : op.connects = true) : op.acquires = none := by
  cases op with
  | tcp op => cases op <;> first | rfl | cases h
  | _ => cases h

theorem sends_of_acquires (h : op.acquires = some .transport) : op.sends = true := by
  cases op with
  | tcp op => cases op <;> first | rfl | cases h
  | _ => cases h

/-- **A thread that waits for the mutex of the transport** waits for the one that connects, which is
not blocked or waits for a thread that is not. -/
theorem Ordered.waitsFor_transport (h : Ordered c) (rest : List Op)
    (hop : op.acquires = some .transport) (hl : c.shared.client.locked = true) :
    ∃ t' ∈ c.threads, Relation.TransGen (WaitsFor c.shared) (op :: rest) t' ∧
      ¬ Blocked c.shared t' := by
  have hcount := h.sane.owned.transport
  rw [if_pos hl] at hcount
  obtain ⟨b, hb, hconn⟩ := Multiset.countP_pos.1 (hcount ▸ Nat.one_pos)
  obtain ⟨t', ht', hin⟩ := List.mem_flatten.1 (Multiset.mem_coe.1 hb)
  have hholds : b.holds = some .transport := by
    cases b with
    | tcp o => exact if_pos hconn
    | _ => cases hconn
  have hwaits : WaitsFor c.shared (op :: rest) t' :=
    ⟨_, hop, hl, List.mem_filterMap.2 ⟨b, hin, hholds⟩⟩
  by_cases hblocked : Blocked c.shared t'
  · obtain ⟨l, hl', htaken⟩ := hblocked
    cases t' with
    | nil => cases hin
    | cons a tail =>
      have htail : b ∈ tail := by
        refine (List.mem_cons.1 hin).resolve_left ?_
        rintro rfl
        cases (acquires_of_connects hconn).symm.trans hl'
      cases l with
      | future f =>
        obtain ⟨t'', ht'', hwaits', hfree⟩ := h.waitsFor_future ht' hl' htaken
          ⟨b, htail, by rw [hholds]; rfl⟩
        exact ⟨t'', ht'', .tail (.single hwaits) hwaits', hfree⟩
      | transport =>
        -- nothing is sent before the end of `connect`
        have hsend := ((List.pairwise_cons.1 (h.above _ ht')).1 b htail).sends hconn
        cases hsend.symm.trans (sends_of_acquires hl')
  · exact ⟨t', ht', .single hwaits, hblocked⟩

/-- **Every blocked thread** waits in the end for one that is not. -/
theorem Ordered.escapes (h : Ordered c) (ht : t ∈ c.threads) (hblocked : Blocked c.shared t) :
    ∃ t' ∈ c.threads, Relation.TransGen (WaitsFor c.shared) t t' ∧ ¬ Blocked c.shared t' := by
  obtain ⟨l, hl, htaken⟩ := hblocked
  cases t with
  | nil => cases hl
  | cons op rest =>
    cases l with
    | transport => exact h.waitsFor_transport rest hl htaken
    | future f =>
      obtain ⟨t', ht', hholder, hnested⟩ := h.holder htaken
      have hwaits : WaitsFor c.shared (op :: rest) t' := ⟨_, hl, htaken, hholder⟩
      by_cases hblocked' : Blocked c.shared t'
      · obtain ⟨-, a, tail, rfl, hun⟩ := hnested hblocked'
        obtain ⟨l', hl', htaken'⟩ := hblocked'
        cases l' with
        | transport =>
          obtain ⟨t'', ht'', hwaits', hfree⟩ := h.waitsFor_transport tail hl' htaken'
          exact ⟨t'', ht'', .trans (.single hwaits) hwaits', hfree⟩
        | future g =>
          obtain ⟨t'', ht'', hwaits', hfree⟩ := h.waitsFor_future ht' hl' htaken' ⟨_, hun, rfl⟩
          exact ⟨t'', ht'', .tail (.single hwaits) hwaits', hfree⟩
      · exact ⟨t', ht', .single hwaits, hblocked'⟩

end

/-- The threads of a run whose callbacks are discreet. -/
theorem ordered_run {connectTimeout reconnectLimit : Int} {timeout : BitVec 32}
    {ls : List (Label Op Choice)} {c : Config Locks Op}
    (hdiscreet : machine.Heeds Discreet (init connectTimeout reconnectLimit timeout) ls)
    (hrun : machine.run (init connectTimeout reconnectLimit timeout) ls = some c) : Ordered c := by
  have hthreads := System.invariant_threads (I := Sane) (G := Discreet)
    (fun s t => t.Pairwise (Above s) ∧ t.Pairwise (Nested s))
    (fun s op _ => ⟨List.pairwise_singleton _ _, List.pairwise_singleton _ _⟩)
    (fun s ops op rest x s' k hsane hmem h hG hx =>
      ⟨pairwise_exec hsane.owned hmem h.1 hG.1 hx, nested_exec hsane.owned hmem h.2 hG hx⟩)
    (fun s ops op x s' k t hsane _ hmem h hx =>
      ⟨h.1.imp_of_mem fun _ hb hab => hab.later hsane.owned (hmem _ hb)
        (exec_later hsane.owned.tidy hx), h.2.imp fun hab => hab.exec hsane.owned.tidy hx⟩)
    (fun _ _ => sane_run) (fun t ht => by cases ht) hdiscreet hrun
  exact ⟨sane_run hrun, fun t ht => (hthreads t ht).1, fun t ht => (hthreads t ht).2⟩

/-- **No deadlock.** In every run whose callbacks use no future but their own (`Op.own`), mind the locks
of their thread, and send nothing if they are run by a wait that has run out, every thread that waits for
a lock waits, directly or through others, for a thread that waits for none: whatever the threads do, they
never all wait for each other. -/
theorem no_deadlock {connectTimeout reconnectLimit : Int} {timeout : BitVec 32}
    {ls : List (Label Op Choice)} {c : Config Locks Op}
    (hdiscreet : machine.Heeds Discreet (init connectTimeout reconnectLimit timeout) ls)
    (hrun : machine.run (init connectTimeout reconnectLimit timeout) ls = some c) :
    ∀ t ∈ c.threads, Blocked c.shared t →
      ∃ t' ∈ c.threads, Relation.TransGen (WaitsFor c.shared) t t' ∧ ¬ Blocked c.shared t' :=
  fun _ ht => (ordered_run hdiscreet hrun).escapes ht

/-- A request is answered. While its callback sends another one, a thread connects again, and a thread
attaches a callback to the future of the first. -/
def waiting : List (Label Op Choice) :=
  List.flatten [requested,
    [.spawn (.tcp (.readCompletes 0 (.data [(1, .integer 7, .nil)] false))), .exec 2 {},
      .spawn (.tcp (.onRead 0)), .exec 3 {}, .exec 3 {},
      .spawn (.tcp (.sendRequest (.str [0x67]) .nil))], List.replicate 5 (.exec 4 {}),
    [.exec 4 { tcp := { ok := false } }, .exec 4 { tcp := { it := [⟨2, 1⟩] } }],
    List.replicate 3 (.exec 4 {}), [.spawn (.tcp (.sendRequest (.str [0x68]) .nil))],
    List.replicate 4 (.exec 5 {}),
    [.exec 3 { calls := [.tcp (.sendRequest (.str [0x69]) .nil)] }, .exec 3 {}, .exec 3 {},
      .exec 3 {}, .spawn (.attachCallback 0 8)]]

/-- The state then. -/
def waitingAt : Config Locks Op := (machine.run (init 10 3 30) waiting).getD (init 10 3 30)

/-- The last thread waits for the callback, and that for the thread that connects. -/
theorem no_deadlock_waiting : Blocked waitingAt.shared [.attachCallback 0 8] ∧
    Blocked waitingAt.shared [.tcp (.sendData 3), .unlock 0, .tcp (.start 0)] ∧
    ∃ t' ∈ waitingAt.threads,
      Relation.TransGen (WaitsFor waitingAt.shared) [.attachCallback 0 8] t' ∧
        ¬ Blocked waitingAt.shared t' := by
  have hrun : machine.run (init 10 3 30) waiting = some waitingAt :=
    (Option.getD_of_ne_none (by decide +kernel) _).symm
  have hdiscreet : machine.Heeds Discreet (init 10 3 30) waiting := by decide +kernel
  have hblocked : Blocked waitingAt.shared [.attachCallback 0 8] := by decide +kernel
  exact ⟨hblocked, by decide +kernel, no_deadlock hdiscreet hrun _ (by decide +kernel) hblocked⟩

/-- The peer closes the connection, and a request that was inserted between the sweep and the close
finds the socket closed and stays in the table. A callback is attached to its future and a thread waits
for it. Another request is sent, connecting fails, and the future is taken out of the table. Now the
wait runs out, and the callback sends a request. -/
def expiredCallback : List (Label Op Choice) :=
  List.flatten [[.spawn (.tcp (.sendRequest (.str [0x66]) .nil))], List.replicate 15 (.exec 0 {}),
    [.spawn (.tcp (.readCompletes 0 (.error 104))), .exec 1 {}, .spawn (.tcp (.onRead 0)), .exec 2 {},
      .exec 2 { tcp := { it := [⟨1, 0⟩] } }, .exec 2 {},
      .spawn (.tcp (.sendRequest (.str [0x67]) .nil))], List.replicate 4 (.exec 3 {}),
    [.exec 2 {}, .exec 2 {}, .exec 3 {}, .spawn (.attachCallback 1 7), .exec 4 {},
      .spawn (.timedWait 1), .exec 5 {}, .spawn (.tcp (.sendRequest (.str [0x68]) .nil))],
    List.replicate 7 (.exec 6 {}),
    [.exec 6 { tcp := { ok := false } }, .exec 6 {}, .exec 6 {},
      .exec 6 { tcp := { it := [⟨2, 1⟩, ⟨3, 2⟩] } }, .exec 5 {},
      .exec 5 { calls := [.tcp (.sendRequest (.str [0x69]) .nil)] }, .exec 5 {}, .exec 5 {},
      .exec 5 {}]]

/-- The state then. -/
def expiredCallbackAt : Config Locks Op :=
  (machine.run (init 10 1 30) expiredCallback).getD (init 10 1 30)

/-- The callback holds the mutex of the future and needs that of the transport; the thread that
connects holds the one and needs the other. No thread waits for itself, and none can go on. -/
theorem expiredWait_deadlocks :
    machine.run (init 10 1 30) expiredCallback = some expiredCallbackAt ∧
      machine.Heeds Minds (init 10 1 30) expiredCallback ∧
      (∀ t ∈ expiredCallbackAt.threads, ¬ SelfDeadlock t) ∧
      (∀ t ∈ expiredCallbackAt.threads, t ≠ [] → Blocked expiredCallbackAt.shared t) ∧
      [.tcp (.sendData 3), .unlock 1] ∈ expiredCallbackAt.threads :=
  ⟨(Option.getD_of_ne_none (by decide +kernel) _).symm, by decide +kernel, by decide +kernel,
    by decide +kernel, by decide +kernel⟩

end Locks

end Tcp

end MsgpackRpc
