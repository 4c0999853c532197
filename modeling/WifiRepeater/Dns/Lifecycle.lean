import WifiRepeater.Lib.Machine

/-!
# Starting and stopping the proxy

`dns_proxy_start` creates a task unless there is one, and `dns_proxy_stop` only clears the
flag its loop tests.  The task then leaves the loop, closes its sockets and clears the
flag and the handle, in steps of its own.  A start in between finds the handle set and
does nothing, for a task that will not serve again.

## Main definitions

* `TaskAt` — where a task stands in `dns_proxy_task`.
* `ProxyTasks`, `dnsProxyStart`, `dnsProxyStop`, `dnsProxyTaskStep` — the tasks with the
  variables that steer them, and the functions.
* `Started` — what a start that returned `ESP_OK` promises.
* `Timely` — no start while a task that was stopped has its handle.

## Main results

* `holdsPort_unique` — at most one task holds the port.
* `proxy_lifecycle` — **the promise is kept in every state of a run exactly when all
  starts are timely.**
* `early_restart` — a restart that serves nobody.
-/

namespace WifiRepeater
namespace Dns

/-! ### The tasks and their steps -/

/-- What a task does next. -/
inductive TaskAt
  /-- Create the sockets and bind the first to port 53. -/
  | setup
  /-- Test `s_dns_running`. -/
  | loopTest
  /-- Receive and handle a query. -/
  | loopBody
  /-- Close the sockets. -/
  | closeSockets
  /-- `s_dns_running = false`. -/
  | clearFlag
  /-- `s_dns_task = NULL`. -/
  | clearHandle
  /-- Nothing: it deletes itself, or has. -/
  | gone
  deriving DecidableEq

/-- It has port 53. -/
def TaskAt.holdsPort : TaskAt → Bool
  | loopTest | loopBody | closeSockets => true
  | setup | clearFlag | clearHandle | gone => false

/-- It will test the flag again. -/
def TaskAt.serves : TaskAt → Bool
  | setup | loopTest | loopBody => true
  | closeSockets | clearFlag | clearHandle | gone => false

/-- A call that controls the proxy. -/
inductive ControlResult
  /-- A `dns_proxy_start` that returned `ESP_OK`. -/
  | startOk
  /-- A `dns_proxy_start` that returned `ESP_ERR_NO_MEM`. -/
  | startNoMem
  /-- A `dns_proxy_stop`. -/
  | stopped
  deriving DecidableEq

/-- The tasks created so far and the variables that steer them. -/
structure ProxyTasks where
  /-- `s_dns_running`. -/
  dnsRunning : Bool
  /-- `s_dns_task`: which of the tasks. -/
  dnsTask : Option ℕ
  /-- Where each of them stands. -/
  tasks : List TaskAt
  /-- The latest control call. -/
  lastCall : Option ControlResult
  deriving DecidableEq

/-- Before the first start. -/
def ProxyTasks.initial : ProxyTasks := ⟨false, none, [], none⟩

/-- `dns_proxy_start`; `pdPass` says whether `xTaskCreate` succeeds. -/
def dnsProxyStart (s : ProxyTasks) (pdPass : Bool) : ProxyTasks :=
  if s.dnsTask.isSome then { s with lastCall := some .startOk }
  else if pdPass then
    { dnsRunning := true, dnsTask := some s.tasks.length, tasks := s.tasks ++ [.setup],
      lastCall := some .startOk }
  else { s with dnsRunning := false, dnsTask := none, lastCall := some .startNoMem }

/-- `dns_proxy_stop`. -/
def dnsProxyStop (s : ProxyTasks) : ProxyTasks :=
  if s.dnsTask = none then { s with lastCall := some .stopped }
  else { s with dnsRunning := false, lastCall := some .stopped }

/-- One step of `dns_proxy_task`, in task `i`. -/
def dnsProxyTaskStep (s : ProxyTasks) (i : ℕ) : Option ProxyTasks :=
  match s.tasks[i]? with
  | some .setup => some { s with tasks := s.tasks.set i .loopTest }
  | some .loopTest =>
      some { s with tasks := s.tasks.set i (if s.dnsRunning then .loopBody else .closeSockets) }
  | some .loopBody => some { s with tasks := s.tasks.set i .loopTest }
  | some .closeSockets => some { s with tasks := s.tasks.set i .clearFlag }
  | some .clearFlag => some { s with tasks := s.tasks.set i .clearHandle, dnsRunning := false }
  | some .clearHandle => some { s with tasks := s.tasks.set i .gone, dnsTask := none }
  | some .gone => none
  | none => none

/-- A call or a step of a task. -/
inductive LifecycleEvent
  /-- `dns_proxy_start`, with a task created if one is needed. -/
  | start
  /-- `dns_proxy_stop`. -/
  | stop
  /-- A step of a task. -/
  | task (i : ℕ)
  deriving DecidableEq

/-- What an event does. -/
def lifecycleStep (s : ProxyTasks) : LifecycleEvent → Option ProxyTasks
  | .start => some (dnsProxyStart s true)
  | .stop => some (dnsProxyStop s)
  | .task i => dnsProxyTaskStep s i

/-! ### One task at a time -/

/-- The tasks but for the one of the handle are gone, and that one is past its loop only
when the flag is clear. -/
structure OneTask (s : ProxyTasks) : Prop where
  /-- All others are gone. -/
  gone : ∀ i p, s.tasks[i]? = some p → s.dnsTask ≠ some i → p = .gone
  /-- The task of the handle is not. -/
  live : ∀ i, s.dnsTask = some i →
    ∃ p, s.tasks[i]? = some p ∧ p ≠ .gone ∧ (s.dnsRunning = true → p.serves = true)

theorem OneTask.initial : OneTask .initial where
  gone i p hp := absurd hp (by simp [ProxyTasks.initial])
  live i hi := absurd hi (by simp [ProxyTasks.initial])

/-- A task that has not gone is the one of the handle. -/
theorem OneTask.dnsTask_eq {s : ProxyTasks} (h : OneTask s) {i : ℕ} {p : TaskAt}
    (hp : s.tasks[i]? = some p) (hne : p ≠ .gone) : s.dnsTask = some i := by
  by_contra hno
  exact hne (h.gone i p hp hno)

theorem dnsProxyStart_of_some {s : ProxyTasks} {i : ℕ} (h : s.dnsTask = some i) (pdPass : Bool) :
    dnsProxyStart s pdPass = { s with lastCall := some .startOk } := by
  rw [dnsProxyStart, if_pos (by rw [h]; rfl)]

theorem dnsProxyStart_of_none {s : ProxyTasks} (h : s.dnsTask = none) :
    dnsProxyStart s true
      = ⟨true, some s.tasks.length, s.tasks ++ [.setup], some .startOk⟩ := by
  rw [dnsProxyStart, if_neg (by rw [h]; simp), if_pos rfl]

theorem OneTask.start {s : ProxyTasks} (h : OneTask s) : OneTask (dnsProxyStart s true) := by
  cases htask : s.dnsTask with
  | some i =>
    rw [dnsProxyStart_of_some htask]
    exact ⟨h.gone, h.live⟩
  | none =>
    rw [dnsProxyStart_of_none htask]
    constructor
    · intro j p hp hne
      have hlt : j < s.tasks.length := by
        have hj := (List.getElem?_eq_some_iff.mp hp).1
        have hne' : s.tasks.length ≠ j := fun heq => hne (congrArg some heq)
        rw [List.length_append, List.length_singleton] at hj
        omega
      refine h.gone j p ?_ (by simp [htask])
      rwa [← List.getElem?_append_left hlt]
    · intro j hj
      obtain rfl : s.tasks.length = j := Option.some.inj hj
      exact ⟨.setup, List.getElem?_concat_length, by simp, fun _ => rfl⟩

theorem OneTask.stop {s : ProxyTasks} (h : OneTask s) : OneTask (dnsProxyStop s) := by
  unfold dnsProxyStop
  split_ifs
  · exact ⟨h.gone, h.live⟩
  · refine ⟨h.gone, fun i hi => ?_⟩
    obtain ⟨p, hp, hgone, -⟩ := h.live i hi
    exact ⟨p, hp, hgone, by simp⟩

/-- **What a step of a task does**: it moves that task, and either clears the handle as
its last act, or leaves the handle and sets no flag; a task that serves goes on to serve
while the flag is set, and leaves the flag alone. -/
theorem dnsProxyTaskStep_cases {s s' : ProxyTasks} {i : ℕ} (h : dnsProxyTaskStep s i = some s') :
    ∃ p q, s.tasks[i]? = some p ∧ p ≠ .gone ∧ s'.tasks = s.tasks.set i q ∧
      s'.lastCall = s.lastCall ∧
      (p = .clearHandle ∧ q = .gone ∧ s'.dnsTask = none ∨
        q ≠ .gone ∧ s'.dnsTask = s.dnsTask ∧ (s'.dnsRunning = true → s.dnsRunning = true) ∧
          (p.serves = true → s.dnsRunning = true → s'.dnsRunning = true ∧ q.serves = true)) := by
  unfold dnsProxyTaskStep at h
  cases hp : s.tasks[i]? with
  | none => exact absurd h (by simp [hp])
  | some p =>
    rw [hp] at h
    cases p with
    | setup =>
      obtain rfl := Option.some.inj h
      exact ⟨_, .loopTest, rfl, by simp, rfl, rfl, Or.inr ⟨by simp, rfl, id, fun _ h => ⟨h, rfl⟩⟩⟩
    | loopTest =>
      obtain rfl := Option.some.inj h
      refine ⟨_, _, rfl, by simp, rfl, rfl, Or.inr ⟨by split_ifs <;> simp, rfl, id, ?_⟩⟩
      intro _ hrun
      exact ⟨hrun, by rw [if_pos hrun]; rfl⟩
    | loopBody =>
      obtain rfl := Option.some.inj h
      exact ⟨_, .loopTest, rfl, by simp, rfl, rfl, Or.inr ⟨by simp, rfl, id, fun _ h => ⟨h, rfl⟩⟩⟩
    | closeSockets =>
      obtain rfl := Option.some.inj h
      exact ⟨_, .clearFlag, rfl, by simp, rfl, rfl,
        Or.inr ⟨by simp, rfl, id, by simp [TaskAt.serves]⟩⟩
    | clearFlag =>
      obtain rfl := Option.some.inj h
      exact ⟨_, .clearHandle, rfl, by simp, rfl, rfl,
        Or.inr ⟨by simp, rfl, by simp, by simp [TaskAt.serves]⟩⟩
    | clearHandle =>
      obtain rfl := Option.some.inj h
      exact ⟨_, .gone, rfl, by simp, rfl, rfl, Or.inl ⟨rfl, rfl, rfl⟩⟩
    | gone => exact absurd h (by simp)

/-- Where a task stands after one of them has moved. -/
theorem getElem?_moved {tasks : List TaskAt} {i j : ℕ} {p q r : TaskAt}
    (hp : tasks[i]? = some p) (hr : (tasks.set i q)[j]? = some r) :
    i = j ∧ r = q ∨ i ≠ j ∧ tasks[j]? = some r := by
  have hi := (List.getElem?_eq_some_iff.mp hp).1
  rcases eq_or_ne i j with rfl | hne
  · rw [List.getElem?_set_self hi] at hr
    exact Or.inl ⟨rfl, (Option.some.inj hr).symm⟩
  · rw [List.getElem?_set_ne hne] at hr
    exact Or.inr ⟨hne, hr⟩

theorem OneTask.task {s s' : ProxyTasks} {i : ℕ} (h : OneTask s)
    (hs : dnsProxyTaskStep s i = some s') : OneTask s' := by
  obtain ⟨p, q, hp, hgone, htasks, -, hcase⟩ := dnsProxyTaskStep_cases hs
  have hi := h.dnsTask_eq hp hgone
  have hlt := (List.getElem?_eq_some_iff.mp hp).1
  rcases hcase with ⟨-, rfl, hnone⟩ | ⟨hq, htask, hflag, hserves⟩
  -- the task ends, and all are gone
  · refine ⟨fun j r hr _ => ?_, by simp [hnone]⟩
    rw [htasks] at hr
    rcases getElem?_moved hp hr with ⟨-, rfl⟩ | ⟨hne, hr⟩
    · rfl
    · exact h.gone j r hr (by rw [hi]; simpa using hne)
  · refine ⟨fun j r hr hne => ?_, fun j hj => ?_⟩
    · rw [htasks] at hr
      rcases getElem?_moved hp hr with ⟨rfl, -⟩ | ⟨-, hr⟩
      · exact absurd (htask.trans hi) hne
      · exact h.gone j r hr (htask ▸ hne)
    · rw [htask, hi] at hj
      obtain rfl : i = j := Option.some.inj hj
      refine ⟨q, by rw [htasks, List.getElem?_set_self hlt], hq, fun hrun => ?_⟩
      obtain ⟨p', hp', -, hlive⟩ := h.live i hi
      obtain rfl : p = p' := Option.some.inj (hp.symm.trans hp')
      exact (hserves (hlive (hflag hrun)) (hflag hrun)).2

/-- Every event keeps it so. -/
theorem OneTask.step {s : ProxyTasks} {e : LifecycleEvent} {s' : ProxyTasks} (h : OneTask s)
    (hs : lifecycleStep s e = some s') : OneTask s' := by
  cases e with
  | start =>
    obtain rfl := Option.some.inj hs
    exact h.start
  | stop =>
    obtain rfl := Option.some.inj hs
    exact h.stop
  | task i => exact h.task hs

theorem oneTask_of_exec {es : List LifecycleEvent} {s : ProxyTasks}
    (hs : Machine.exec lifecycleStep .initial es = some s) : OneTask s := by
  have hadm : Machine.Admitted lifecycleStep (fun _ _ => True) .initial es :=
    Machine.admitted_of_forall fun _ _ => trivial
  exact (Machine.reach_of_exec hadm hs).invariant .initial fun _ _ _ h _ hs => h.step hs

/-- **At most one task holds the port.** -/
theorem holdsPort_unique {es : List LifecycleEvent} {s : ProxyTasks}
    (hs : Machine.exec lifecycleStep .initial es = some s) {i j : ℕ} {p q : TaskAt}
    (hp : s.tasks[i]? = some p) (hq : s.tasks[j]? = some q) (hpi : p.holdsPort = true)
    (hqj : q.holdsPort = true) : i = j := by
  have h := oneTask_of_exec hs
  have hi := h.dnsTask_eq hp fun heq => absurd hpi (by simp [heq, TaskAt.holdsPort])
  have hj := h.dnsTask_eq hq fun heq => absurd hqj (by simp [heq, TaskAt.holdsPort])
  exact Option.some.inj (hi.symm.trans hj)

/-! ### What a start promises -/

/-- If the latest call is a start that returned `ESP_OK`, the flag is set and there is a
task that serves or is about to. -/
def Started (s : ProxyTasks) : Prop :=
  s.lastCall = some .startOk →
    s.dnsRunning = true ∧ ∃ (i : ℕ) (p : TaskAt), s.tasks[i]? = some p ∧ p.serves = true

/-- No start while a task that was stopped has not cleared its handle. -/
def Timely (s : ProxyTasks) : LifecycleEvent → Prop
  | .start => s.dnsTask = none ∨ s.dnsRunning = true
  | .stop => True
  | .task _ => True

instance : ∀ (s : ProxyTasks) (e : LifecycleEvent), Decidable (Timely s e)
  | s, .start => inferInstanceAs (Decidable (s.dnsTask = none ∨ s.dnsRunning = true))
  | _, .stop => inferInstanceAs (Decidable True)
  | _, .task _ => inferInstanceAs (Decidable True)

/-- A step of a task keeps the promise. -/
theorem Started.task {s s' : ProxyTasks} {i : ℕ} (h : OneTask s) (hst : Started s)
    (hs : dnsProxyTaskStep s i = some s') : Started s' := by
  obtain ⟨p, q, hp, hgone, htasks, hcall, hcase⟩ := dnsProxyTaskStep_cases hs
  intro hlast
  obtain ⟨hrun, -⟩ := hst (hcall ▸ hlast)
  -- the flag is set, so the task that moves serves
  obtain ⟨p', hp', -, hlive⟩ := h.live i (h.dnsTask_eq hp hgone)
  obtain rfl : p = p' := Option.some.inj (hp.symm.trans hp')
  rcases hcase with ⟨rfl, -, -⟩ | ⟨-, -, -, hserves⟩
  · exact absurd (hlive hrun) (by simp [TaskAt.serves])
  · obtain ⟨hrun', hq⟩ := hserves (hlive hrun) hrun
    have hlt := (List.getElem?_eq_some_iff.mp hp).1
    exact ⟨hrun', i, q, by rw [htasks, List.getElem?_set_self hlt], hq⟩

/-- The timely events are those that keep the promise. -/
theorem timely_iff {s : ProxyTasks} {e : LifecycleEvent} (h : OneTask s) (hst : Started s) :
    Timely s e ↔ ∀ s' ∈ lifecycleStep s e, Started s' := by
  cases e with
  | start =>
    show (s.dnsTask = none ∨ s.dnsRunning = true) ↔ ∀ s' ∈ some (dnsProxyStart s true), Started s'
    simp only [Option.mem_def, Option.some.injEq, forall_eq']
    cases htask : s.dnsTask with
    | none =>
      rw [dnsProxyStart_of_none htask]
      refine iff_of_true (Or.inl rfl) fun _ => ⟨rfl, s.tasks.length, .setup, ?_, rfl⟩
      exact List.getElem?_concat_length
    | some i =>
      rw [dnsProxyStart_of_some htask]
      constructor
      · rintro (hno | hrun) -
        · exact absurd hno (by simp)
        · obtain ⟨p, hp, -, hlive⟩ := h.live i htask
          exact ⟨hrun, i, p, hp, hlive hrun⟩
      · intro hstarted
        exact Or.inr (hstarted rfl).1
  | stop =>
    refine iff_of_true trivial fun s' hs' hlast => ?_
    obtain rfl := Option.some.inj hs'
    unfold dnsProxyStop at hlast
    split_ifs at hlast <;> exact absurd hlast (by simp)
  | task i => exact iff_of_true trivial fun s' hs' => hst.task h hs'

/-- **The promise is kept in every state of a run exactly when all starts are timely**:
at most one task ever holds the port, and after each start that returns `ESP_OK` there is
a task that serves, up to the next stop, if and only if no start comes while a task that
was stopped has its handle still. -/
theorem proxy_lifecycle (es : List LifecycleEvent) :
    (∀ before, before <+: es → ∀ s ∈ Machine.exec lifecycleStep .initial before,
      ∀ (i j : ℕ) (p q : TaskAt), s.tasks[i]? = some p → s.tasks[j]? = some q →
        p.holdsPort = true → q.holdsPort = true → i = j) ∧
    (Machine.Admitted lifecycleStep Timely .initial es ↔
      ∀ before, before <+: es → ∀ s ∈ Machine.exec lifecycleStep .initial before, Started s) := by
  constructor
  · intro before _ s hs i j p q hp hq
    exact holdsPort_unique hs hp hq
  · have hstart : Started .initial := fun hlast => absurd hlast (by simp [ProxyTasks.initial])
    exact Machine.admitted_iff_forall_prefix (I := OneTask) (P := Started)
      (fun _ _ _ h hs => h.step hs) (fun _ _ h hst => timely_iff h hst) .initial hstart

/-- **A restart that serves nobody**: the second start returns `ESP_OK` while the task
that was stopped is on its way out, and leaves no task behind. -/
theorem early_restart :
    (∃ s, Machine.exec lifecycleStep .initial [.start, .task 0, .stop, .start] = some s ∧
      s.lastCall = some .startOk ∧ s.dnsRunning = false) ∧
    ∃ s, Machine.exec lifecycleStep .initial
        [.start, .task 0, .stop, .start, .task 0, .task 0, .task 0, .task 0] = some s ∧
      s.lastCall = some .startOk ∧ s.tasks = [.gone] :=
  ⟨⟨_, rfl, rfl, rfl⟩, ⟨_, rfl, rfl, rfl⟩⟩

end Dns
end WifiRepeater
