/-
# Exclusive use of the Bluetooth interface

A flow that uses Bluetooth is a task that runs beside the others.  One slot behind a lock has the flow that
is registered.  A call takes the flow out of the slot and aborts it, or puts a new one in; the next step
of a flow waits, with the lock in its hand, until the step before it has ended.

An abort that names another flow or task takes the registered flow out of the slot as well, and leaves its
task running.  From then on nobody knows of this task, and the next flow runs beside it.
-/
import OneCore.Lib.Transition

namespace OneCore.Ble

open List Option

/-! ### The code -/

inductive TaskStatus where
  | running
  | finished
  | aborted
deriving DecidableEq

/-- A flow that requires exclusive access to Bluetooth. -/
structure Action where
  taskId : Nat
  flowId : String
  /-- Indicates if the flow has multiple steps. -/
  expectContinuation : Bool
deriving DecidableEq

inductive OnConflict where
  | doNothing
  | replace
  | replaceIfSameFlow

inductive Abort where
  | always
  | flow (flowId : String)
  | task (taskId : Nat)

inductive ScheduleResult where
  | scheduled (taskId : Nat)
  | busy

/-- A call for the next step of a flow, which waits for the step before it. -/
structure Continuation where
  action : Action
  expectContinuation : Bool
deriving DecidableEq

/-- The slot, the call that waits with the lock in its hand, and the tasks that were spawned so far. -/
structure BleWaiter where
  state : Option Action
  waiting : Option Continuation
  tasks : List TaskStatus
deriving DecidableEq

namespace BleWaiter

variable (w : BleWaiter)

def isFinished (taskId : Nat) : Bool :=
  w.tasks[taskId]? ≠ some .running

def finished (action : Action) : Bool :=
  !action.expectContinuation && w.isFinished action.taskId

/-- A task that has ended cannot be aborted any more. -/
def abortTask (taskId : Nat) : BleWaiter :=
  if w.isFinished taskId then w else { w with tasks := w.tasks.set taskId .aborted }

def abortInner (abort : Abort) : BleWaiter :=
  match w.state with
  | none => w
  | some action =>
    let w := { w with state := none }
    if w.finished action then w
    else
      match abort with
      | .always => w.abortTask action.taskId
      | .flow flowId => if action.flowId = flowId then w.abortTask action.taskId else w
      | .task taskId => if action.taskId = taskId then w.abortTask action.taskId else w

def spawn (flowId : String) (expectContinuation : Bool) : BleWaiter :=
  { w with
    state := some ⟨w.tasks.length, flowId, expectContinuation⟩
    tasks := w.tasks ++ [.running] }

def shouldReplace (flowId : String) (onConflict : OnConflict) : Bool :=
  match w.state with
  | none => true
  | some running =>
    if w.finished running then true
    else
      match onConflict with
      | .doNothing => false
      | .replace => true
      | .replaceIfSameFlow => running.flowId = flowId

def schedule (flowId : String) (onConflict : OnConflict) (expectContinuation : Bool) :
    ScheduleResult × BleWaiter :=
  if w.shouldReplace flowId onConflict then
    (.scheduled w.tasks.length, (w.abortInner .always).spawn flowId expectContinuation)
  else (.busy, w)

/-- The first half of the scheduling of a continuation: take the flow, if it is the right one. -/
def takeContinued (taskId : Nat) (expectContinuation : Bool) : Option BleWaiter :=
  match w.state with
  | none => none
  | some action =>
    if action.taskId = taskId ∧ action.expectContinuation = true then
      some { w with state := none, waiting := some ⟨action, expectContinuation⟩ }
    else none

/-- The second half, when the task of the step before has ended. -/
def spawnContinued (continuation : Continuation) : BleWaiter :=
  { w with waiting := none }.spawn continuation.action.flowId continuation.expectContinuation

end BleWaiter

/-! ### Runs -/

/-- What can happen: calls with their answers, and the end of a task. -/
inductive Event where
  | schedule (flowId : String) (onConflict : OnConflict) (expectContinuation : Bool)
      (result : ScheduleResult)
  | continuationBusy (taskId : Nat) (expectContinuation : Bool)
  | continuationWaits (taskId : Nat) (expectContinuation : Bool)
  | continuationSpawned (taskId : Nat)
  | abort (selector : Abort)
  | taskFinished (taskId : Nat)

/-- A call goes on only while no other call has the lock; tasks go on at any time. -/
inductive Step : BleWaiter → Event → BleWaiter → Prop
  | schedule {w w' : BleWaiter} {flowId : String} {onConflict : OnConflict} {expectContinuation : Bool}
      {result : ScheduleResult} (hlock : w.waiting = none)
      (h : w.schedule flowId onConflict expectContinuation = (result, w')) :
      Step w (.schedule flowId onConflict expectContinuation result) w'
  | continuationBusy {w : BleWaiter} {taskId : Nat} {expectContinuation : Bool}
      (hlock : w.waiting = none) (h : w.takeContinued taskId expectContinuation = none) :
      Step w (.continuationBusy taskId expectContinuation) w
  | continuationWaits {w w' : BleWaiter} {taskId : Nat} {expectContinuation : Bool}
      (hlock : w.waiting = none) (h : w.takeContinued taskId expectContinuation = some w') :
      Step w (.continuationWaits taskId expectContinuation) w'
  | continuationSpawned {w : BleWaiter} {continuation : Continuation}
      (hwaiting : w.waiting = some continuation)
      (hfinished : w.isFinished continuation.action.taskId = true) :
      Step w (.continuationSpawned w.tasks.length) (w.spawnContinued continuation)
  | abort {w : BleWaiter} {selector : Abort} (hlock : w.waiting = none) :
      Step w (.abort selector) (w.abortInner selector)
  | taskFinished {w : BleWaiter} {taskId : Nat} (h : w.tasks[taskId]? = some .running) :
      Step w (.taskFinished taskId) { w with tasks := w.tasks.set taskId .finished }

/-- At the beginning no flow was ever scheduled. -/
def BleWaiter.new : BleWaiter := ⟨none, none, []⟩

/-! ### The claim of exclusive use -/

/-- A task that is neither finished nor aborted. -/
def BleWaiter.Live (w : BleWaiter) (taskId : Nat) : Prop :=
  w.tasks[taskId]? = some .running

/-- A flow that is registered and not finished. -/
def BleWaiter.Registered (w : BleWaiter) (action : Action) : Prop :=
  w.state = some action ∧ w.finished action = false

def Abort.Names (action : Action) : Abort → Prop
  | .always => True
  | .flow flowId => action.flowId = flowId
  | .task taskId => action.taskId = taskId

/-- The policy must not replace another flow. -/
def OnConflict.Protects : OnConflict → Prop
  | .doNothing => True
  | .replace => False
  | .replaceIfSameFlow => True

/-- What a run should keep: there is never more than one live task, an abort for a different flow or task
leaves the flow registered, and `Busy` is the answer exactly if a different flow is registered and must not be
replaced. -/
structure ExclusiveUse (tr : List (Transition BleWaiter Event)) : Prop where
  one : ∀ t ∈ tr, ∀ i j, t.dst.Live i → t.dst.Live j → i = j
  kept : ∀ t ∈ tr, ∀ selector, t.label = .abort selector → ∀ action, t.src.Registered action →
    ¬selector.Names action → t.dst.state = some action
  busy : ∀ t ∈ tr, ∀ flowId onConflict expectContinuation result,
    t.label = .schedule flowId onConflict expectContinuation result →
      (result = .busy ↔ onConflict.Protects ∧
        ∃ action, t.src.Registered action ∧ action.flowId ≠ flowId)

/-- The callers keep to this: who aborts while a flow is registered names this flow or its task, and who does
not want to replace a flow does not schedule the flow that is registered. -/
structure Disciplined (tr : List (Transition BleWaiter Event)) : Prop where
  aborts : ∀ t ∈ tr, ∀ selector, t.label = .abort selector → ∀ action, t.src.Registered action →
    selector.Names action
  schedules : ∀ t ∈ tr, ∀ flowId expectContinuation result,
    t.label = .schedule flowId .doNothing expectContinuation result → ∀ action, t.src.Registered action →
      action.flowId ≠ flowId

/-! ### One call -/

variable {result : ScheduleResult}

namespace BleWaiter

variable {w : BleWaiter} {i : Nat}

lemma isFinished_iff : w.isFinished i = true ↔ ¬w.Live i := by
  simp [isFinished, Live]

@[simp] lemma state_abortTask (taskId : Nat) : (w.abortTask taskId).state = w.state := by
  unfold abortTask
  split
  · rfl
  · rfl

@[simp] lemma waiting_abortTask (taskId : Nat) : (w.abortTask taskId).waiting = w.waiting := by
  unfold abortTask
  split
  · rfl
  · rfl

variable {taskId : Nat} {selector : Abort} {flowId : String} {onConflict : OnConflict}
  {expectContinuation : Bool}

lemma live_abortTask : (w.abortTask taskId).Live i ↔ i ≠ taskId ∧ w.Live i := by
  unfold abortTask
  split
  · next h =>
    refine ⟨fun hi => ⟨?_, hi⟩, fun hi => hi.2⟩
    rintro rfl
    exact isFinished_iff.1 h hi
  · next h =>
    have hset : (w.tasks.set taskId .aborted)[i]? = some .running ↔
        i ≠ taskId ∧ w.tasks[i]? = some .running := by
      rw [getElem?_set]
      by_cases hi : taskId = i
      · subst hi
        simp
      · simp [hi, Ne.symm hi]
    exact hset

/-- All that an abort can do. -/
inductive AbortOutcome (w : BleWaiter) (selector : Abort) : BleWaiter → Prop
  | empty (h : w.state = none) : AbortOutcome w selector w
  | finished {action : Action} (h : w.state = some action) (hfinished : w.finished action = true) :
      AbortOutcome w selector { w with state := none }
  | aborted {action : Action} (h : w.Registered action) (hnames : selector.Names action) :
      AbortOutcome w selector ({ w with state := none }.abortTask action.taskId)
  | detached {action : Action} (h : w.Registered action) (hnames : ¬selector.Names action) :
      AbortOutcome w selector { w with state := none }

lemma abortInner_outcome (w : BleWaiter) (selector : Abort) :
    AbortOutcome w selector (w.abortInner selector) := by
  unfold abortInner
  split
  · next h => exact .empty h
  · next action h =>
    dsimp only
    split
    · next hfinished => exact .finished h hfinished
    · next hfinished =>
      have hreg : w.Registered action := ⟨h, eq_false_of_ne_true hfinished⟩
      cases selector with
      | always => exact .aborted hreg trivial
      | flow flowId =>
        dsimp only
        split
        · next hflow => exact .aborted hreg hflow
        · next hflow => exact .detached hreg hflow
      | task taskId =>
        dsimp only
        split
        · next htask => exact .aborted hreg htask
        · next htask => exact .detached hreg htask

variable {w' : BleWaiter}

lemma AbortOutcome.state_eq (h : AbortOutcome w selector w') : w'.state = none := by
  cases h with
  | empty h => exact h
  | finished h hfinished => rfl
  | aborted h hnames => rw [state_abortTask]
  | detached h hnames => rfl

lemma AbortOutcome.waiting_eq (h : AbortOutcome w selector w') : w'.waiting = w.waiting := by
  cases h with
  | empty h => rfl
  | finished h hfinished => rfl
  | aborted h hnames => rw [waiting_abortTask]
  | detached h hnames => rfl

lemma shouldReplace_eq_false_iff :
    w.shouldReplace flowId onConflict = false ↔ ∃ action, w.Registered action ∧
      (onConflict = .doNothing ∨ onConflict = .replaceIfSameFlow ∧ action.flowId ≠ flowId) := by
  unfold shouldReplace Registered
  cases w.state with
  | none => simp
  | some running =>
    cases hfinished : w.finished running with
    | true => simp [hfinished]
    | false => cases onConflict <;> simp [hfinished]

lemma schedule_cases (h : w.schedule flowId onConflict expectContinuation = (result, w')) :
    (w.shouldReplace flowId onConflict = true ∧ result = .scheduled w.tasks.length ∧
      w' = (w.abortInner .always).spawn flowId expectContinuation) ∨
    (w.shouldReplace flowId onConflict = false ∧ result = .busy ∧ w' = w) := by
  unfold schedule at h
  split at h
  · next hrpl =>
    cases h
    exact .inl ⟨hrpl, rfl, rfl⟩
  · next hrpl =>
    cases h
    exact .inr ⟨eq_false_of_ne_true hrpl, rfl, rfl⟩

lemma takeContinued_eq_some_iff :
    w.takeContinued taskId expectContinuation = some w' ↔ ∃ action, w.state = some action ∧
      action.taskId = taskId ∧ action.expectContinuation = true ∧
      w' = { w with state := none, waiting := some ⟨action, expectContinuation⟩ } := by
  unfold takeContinued
  cases w.state with
  | none => simp
  | some action =>
    by_cases h : action.taskId = taskId ∧ action.expectContinuation = true
    · simp only [if_pos h, some.injEq]
      constructor
      · rintro rfl
        exact ⟨action, rfl, h.1, h.2, rfl⟩
      · rintro ⟨_, rfl, -, -, rfl⟩
        rfl
    · simp only [if_neg h]
      refine iff_of_false nofun ?_
      rintro ⟨action', ⟨⟩, htask, hexpect, -⟩
      exact h ⟨htask, hexpect⟩

end BleWaiter

/-! ### Ownership of the live task -/

/-- The live task is that of the registered flow, or a call with the lock in its hand waits for it. -/
structure Owned (w : BleWaiter) : Prop where
  live : ∀ i, w.Live i → (∃ action, w.state = some action ∧ action.taskId = i) ∨
    ∃ continuation, w.waiting = some continuation ∧ continuation.action.taskId = i
  lock : w.waiting ≠ none → w.state = none

namespace Owned

variable {w w' : BleWaiter}

lemma new : Owned .new where
  live i hi := by simp [BleWaiter.Live, BleWaiter.new] at hi
  lock h := rfl

lemma eq_of_live (h : Owned w) {i j : Nat} (hi : w.Live i) (hj : w.Live j) : i = j := by
  rcases h.live i hi with ⟨action, hst, rfl⟩ | ⟨continuation, hwaiting, rfl⟩
  · rcases h.live j hj with ⟨action', hst', rfl⟩ | ⟨continuation, hwaiting, -⟩
    · rw [mem_unique hst hst']
    · rw [h.lock (by simp [hwaiting])] at hst
      cases hst
  · rcases h.live j hj with ⟨action, hst, -⟩ | ⟨continuation', hwaiting', rfl⟩
    · rw [h.lock (by simp [hwaiting])] at hst
      cases hst
    · rw [mem_unique hwaiting hwaiting']

/-- A flow is spawned when no task is live. -/
lemma spawn (hnone : ∀ i, ¬w.Live i) (hlock : w.waiting = none) (flowId : String)
    (expectContinuation : Bool) : Owned (w.spawn flowId expectContinuation) where
  live i hi := by
    refine .inl ⟨_, rfl, ?_⟩
    by_contra hne
    have hold : w.Live i := by
      unfold BleWaiter.Live BleWaiter.spawn at hi
      rw [getElem?_append] at hi
      split at hi
      · exact hi
      · next hge =>
        have hlast : i - w.tasks.length ≠ 0 := by
          have : w.tasks.length ≠ i := hne
          omega
        rw [getElem?_singleton, if_neg hlast] at hi
        cases hi
    exact hnone i hold
  lock h := absurd hlock h

lemma exists_state (h : Owned w) (hlock : w.waiting = none) {i : Nat} (hi : w.Live i) :
    ∃ action, w.state = some action ∧ action.taskId = i := by
  rcases h.live i hi with hst | ⟨continuation, hwaiting, -⟩
  · exact hst
  · rw [hlock] at hwaiting
    cases hwaiting

/-- An abort that is meant for the registered flow leaves no task alive. -/
lemma not_live_of_abort (h : Owned w) (hlock : w.waiting = none) {selector : Abort}
    (hout : w.AbortOutcome selector w')
    (hnames : ∀ action, w.Registered action → selector.Names action) (i : Nat) : ¬w'.Live i := by
  intro hi
  cases hout with
  | empty hst =>
    obtain ⟨action, hst', -⟩ := h.exists_state hlock hi
    rw [hst] at hst'
    cases hst'
  | finished hst hfinished =>
    obtain ⟨action, hst', rfl⟩ := h.exists_state hlock hi
    obtain rfl := mem_unique hst hst'
    rw [BleWaiter.finished, Bool.and_eq_true] at hfinished
    exact BleWaiter.isFinished_iff.1 hfinished.2 hi
  | aborted hreg _ =>
    obtain ⟨hne, hlive⟩ := BleWaiter.live_abortTask.1 hi
    obtain ⟨action, hst', htask⟩ := h.exists_state hlock hlive
    obtain rfl := mem_unique hreg.1 hst'
    exact hne htask.symm
  | detached hreg hoth => exact hoth (hnames _ hreg)

/-- Every step keeps the owner, unless it is an abort that is meant for another flow. -/
lemma step {event : Event} (h : Owned w) (hstep : Step w event w')
    (hnames : ∀ selector, event = .abort selector → ∀ action, w.Registered action →
      selector.Names action) : Owned w' := by
  cases hstep with
  | @schedule _ flowId onConflict expectContinuation result hlock hsche =>
    rcases BleWaiter.schedule_cases hsche with ⟨-, -, rfl⟩ | ⟨-, -, rfl⟩
    · have hout := w.abortInner_outcome .always
      have hnone := h.not_live_of_abort hlock hout fun _ _ => trivial
      exact spawn hnone (hout.waiting_eq.trans hlock) flowId expectContinuation
    · exact h
  | continuationBusy hlock hbusy => exact h
  | continuationWaits hlock htake =>
    obtain ⟨action, hst, -, -, rfl⟩ := BleWaiter.takeContinued_eq_some_iff.1 htake
    refine ⟨fun i hi => .inr ⟨_, rfl, ?_⟩, fun _ => rfl⟩
    obtain ⟨action', hst', htask⟩ := h.exists_state hlock hi
    rw [← htask, mem_unique hst hst']
  | @continuationSpawned continuation hwaiting hfinished =>
    -- The step before has ended, and no other task was alive while the call waited for it.
    refine spawn (fun i hi => ?_) rfl _ _
    have hst : w.state = none := h.lock (by simp [hwaiting])
    rcases h.live i hi with ⟨action, hst', -⟩ | ⟨continuation', hwaiting', rfl⟩
    · rw [hst] at hst'
      cases hst'
    · obtain rfl := mem_unique hwaiting hwaiting'
      exact BleWaiter.isFinished_iff.1 hfinished hi
  | @abort selector hlock =>
    have hout := w.abortInner_outcome selector
    have hnone := h.not_live_of_abort hlock hout (hnames selector rfl)
    exact ⟨fun i hi => absurd hi (hnone i), fun _ => hout.state_eq⟩
  | taskFinished hrng =>
    refine ⟨fun i hi => h.live i ?_, h.lock⟩
    unfold BleWaiter.Live at hi
    rw [getElem?_set] at hi
    split at hi
    · split at hi
      · cases hi
      · cases hi
    · exact hi

end Owned

/-! ### Whole runs -/

section Runs

variable {tr : List (Transition BleWaiter Event)} {w : BleWaiter}

lemma owned_of_run (hrun : Run Step .new tr w) (hdisc : Disciplined tr) : Owned w := by
  refine hrun.preserves (P := Owned) (fun t ht hstep howned => ?_) Owned.new
  exact howned.step hstep fun selector hlab => hdisc.aborts t ht selector hlab

/-- The flows that are protected by the answer `Busy` are the ones that are different, unless a flow is
scheduled again that nothing must replace. -/
lemma busy_iff_of_step {w' : BleWaiter} {flowId : String} {onConflict : OnConflict}
    {expectContinuation : Bool}
    (hstep : Step w (.schedule flowId onConflict expectContinuation result) w') :
    result = .busy ↔ ∃ action, w.Registered action ∧
      (onConflict = .doNothing ∨ onConflict = .replaceIfSameFlow ∧ action.flowId ≠ flowId) := by
  rw [← BleWaiter.shouldReplace_eq_false_iff]
  cases hstep with
  | schedule hlock hsche =>
    rcases BleWaiter.schedule_cases hsche with ⟨hrpl, rfl, -⟩ | ⟨hrpl, rfl, -⟩
    · rw [hrpl]
      exact iff_of_false nofun nofun
    · exact iff_of_true rfl hrpl

/-- In every run of calls and tasks the interface is used exclusively, the registered flow is kept and `Busy`
is answered as it should be, exactly if every abort that finds a flow registered is meant for this flow, and
no caller who does not want to replace a flow schedules the one that is registered. -/
theorem exclusiveUse_iff (hrun : Run Step .new tr w) : ExclusiveUse tr ↔ Disciplined tr := by
  constructor
  · intro h
    refine ⟨fun t ht selector hlab action hreg => ?_,
      fun t ht flowId expectContinuation result hlab action hreg => ?_⟩
    · by_contra hoth
      have hkept := h.kept t ht selector hlab action hreg hoth
      have hstep := hrun.step_of_mem ht
      rw [hlab] at hstep
      -- The abort has emptied the slot.
      generalize t.dst = w' at hkept hstep
      cases hstep with
      | abort hlock =>
        rw [(BleWaiter.abortInner_outcome _ _).state_eq] at hkept
        cases hkept
    · have hstep := hrun.step_of_mem ht
      have hbusy := h.busy t ht flowId .doNothing expectContinuation result hlab
      rw [hlab] at hstep
      obtain ⟨-, action', hreg', hne⟩ :=
        hbusy.1 ((busy_iff_of_step hstep).2 ⟨action, hreg, .inl rfl⟩)
      rwa [mem_unique hreg.1 hreg'.1]
  · intro h
    refine ⟨fun t ht i j hi hj => ?_, fun t ht selector hlab action hreg hoth => ?_,
      fun t ht flowId onConflict expectContinuation result hlab => ?_⟩
    · obtain ⟨before, after, rfl, hbef, hstep, -⟩ := hrun.split_of_mem ht
      have hrun' := hbef.concat hstep
      have hdisc : Disciplined (before ++ [t]) := by
        have hsub : before ++ [t] ⊆ before ++ t :: after := IsPrefix.subset ⟨after, by simp⟩
        exact ⟨fun t' ht' => h.aborts t' (hsub ht'), fun t' ht' => h.schedules t' (hsub ht')⟩
      exact (owned_of_run hrun' hdisc).eq_of_live hi hj
    · exact absurd (h.aborts t ht selector hlab action hreg) hoth
    · have hstep := hrun.step_of_mem ht
      rw [hlab] at hstep
      rw [busy_iff_of_step hstep]
      constructor
      · rintro ⟨action, hreg, rfl | ⟨rfl, hne⟩⟩
        · exact ⟨trivial, action, hreg,
            h.schedules t ht flowId expectContinuation result hlab action hreg⟩
        · exact ⟨trivial, action, hreg, hne⟩
      · rintro ⟨hprot, action, hreg, hne⟩
        refine ⟨action, hreg, ?_⟩
        cases onConflict with
        | doNothing => exact .inl rfl
        | replace => exact hprot.elim
        | replaceIfSameFlow => exact .inr ⟨rfl, hne⟩

end Runs

/-! ### A flow that is forgotten -/

def flowScheduled : Transition BleWaiter Event :=
  ⟨.new, .schedule "first" .replace false (.scheduled 0), ⟨some ⟨0, "first", false⟩, none, [.running]⟩⟩

def otherAborted : Transition BleWaiter Event :=
  ⟨⟨some ⟨0, "first", false⟩, none, [.running]⟩, .abort (.flow "second"), ⟨none, none, [.running]⟩⟩

def otherScheduled : Transition BleWaiter Event :=
  ⟨⟨none, none, [.running]⟩, .schedule "second" .doNothing false (.scheduled 1),
    ⟨some ⟨1, "second", false⟩, none, [.running, .running]⟩⟩

/-- An abort for the second flow, while the first is registered, lets both run at the same time. -/
theorem two_flows_live : ∃ tr w, Run Step .new tr w ∧ w.Live 0 ∧ w.Live 1 ∧ ¬ExclusiveUse tr := by
  have habort : Step otherAborted.src otherAborted.label otherAborted.dst := .abort rfl
  refine ⟨[flowScheduled, otherAborted, otherScheduled], otherScheduled.dst, ?_, rfl, rfl, fun h => ?_⟩
  · exact .cons (.schedule rfl rfl) (.cons habort (.cons (.schedule rfl rfl) (.refl _)))
  · have hsame := h.one otherScheduled (by simp) 0 1 rfl rfl
    cases hsame

/-- An abort for the flow that is registered does no harm. -/
theorem own_abort_exclusive : ∃ tr w, Run Step .new tr w ∧ ExclusiveUse tr ∧ w.state = none := by
  have habort : Step flowScheduled.dst (.abort (.flow "first")) ⟨none, none, [.aborted]⟩ :=
    .abort rfl
  have hrun : Run Step .new [flowScheduled,
      ⟨flowScheduled.dst, .abort (.flow "first"), ⟨none, none, [.aborted]⟩⟩] ⟨none, none, [.aborted]⟩ :=
    .cons (.schedule rfl rfl) (.cons habort (.refl _))
  refine ⟨_, _, hrun, (exclusiveUse_iff hrun).2 ⟨?_, ?_⟩, rfl⟩
  · intro t ht selector hlab action hreg
    rcases mem_pair.1 ht with rfl | rfl
    · cases hlab
    · cases hlab
      obtain rfl := some.inj hreg.1
      rfl
  · intro t ht flowId expectContinuation result hlab action hreg
    rcases mem_pair.1 ht with rfl | rfl
    · cases hlab
    · cases hlab

end OneCore.Ble
