import Miso.Rtos.Notify
import Miso.Zig.System

/-!
# The task of the LwM2M client

`taskFunction` (`lwm2m.zig`) calls `lwm2m_client_task_runner` (`miso_lightclient.c`) again and
again.  The user task asks for a suspension by a notification, which ends the runner, and resumes
the task when there is connectivity again.

* `Task.step` — the task, with the runner's set-up and loop;
* `Task.Serving` — once resumed, the task comes to be in the runner;
* `Task.serving_iff` — it is serving exactly as long as every call of the runner returned zero.

A suspension makes the runner return one, and a set-up that fails makes it return minus one; the
loop of the task goes on only after a zero.
-/

namespace Miso.Lwm2m

open Rtos Zig

/-- The steps of the runner's set-up that may fail, in their order. -/
inductive SetUp where
  | get_security_object
  | get_server_object
  | get_object_device
  | get_temperature_object
  | lwm2m_init
  | lwm2m_configure
  deriving DecidableEq, Repr

def setUps : List SetUp :=
  [.get_security_object, .get_server_object, .get_object_device, .get_temperature_object,
    .lwm2m_init, .lwm2m_configure]

def lwm2m_notify_registration : BitVec 32 := bit 0
def lwm2m_notify_timestamp : BitVec 32 := bit 1
def lwm2m_notify_temperature : BitVec 32 := bit 2
def lwm2m_notify_accelerometer : BitVec 32 := bit 3
def lwm2m_notify_message_reception : BitVec 32 := bit 4
def lwm2m_notify_suspend : BitVec 32 := bit 5

structure lwm2m_uri_t where
  objectId : Nat
  instanceId : Nat
  resourceId : Nat
  deriving DecidableEq, Repr

/-- What the task does to the rest of the system. -/
inductive Action where
  | reg_update_start
  | timer_update_start
  | lwm2m_update_registration
  | lwm2m_resource_value_changed (uri : lwm2m_uri_t)
  | lwm2m_handle_packet (numBytes : Int)
  | lwm2m_step
  | wait_for_rx
  | lwm2m_close
  | connection_free
  | notify_suspended
  deriving DecidableEq, Repr

/-- What the calls of one stretch return. -/
structure Outcome where
  fails : SetUp → Bool
  numBytes : Int
  result : Int

/-- Nothing fails; outside of the runner the outcome does not matter. -/
def Outcome.any : Outcome := ⟨fun _ => false, 0, 0⟩

/-- What the runner does about each bit, in the order of its tests. -/
def handle (numBytes : Int) (notification_value : BitVec 32) : List Action :=
  (if meets notification_value lwm2m_notify_registration then
    [.lwm2m_update_registration] else []) ++
  (if meets notification_value lwm2m_notify_timestamp then
    [.lwm2m_resource_value_changed ⟨3, 0, 13⟩] else []) ++
  (if meets notification_value lwm2m_notify_temperature then
    [.lwm2m_resource_value_changed ⟨3303, 0, 5700⟩] else []) ++
  (if meets notification_value lwm2m_notify_accelerometer then
    [.lwm2m_resource_value_changed ⟨3313, 0, 5702⟩, .lwm2m_resource_value_changed ⟨3313, 0, 5703⟩,
      .lwm2m_resource_value_changed ⟨3313, 0, 5704⟩] else []) ++
  (if meets notification_value lwm2m_notify_message_reception ∧ numBytes ≠ -1 then
    [.lwm2m_handle_packet numBytes] else [])

/-- Where the task is; `setUp`, `loop` and `leave` are inside the runner. -/
inductive Pc where
  | start
  | guard
  | setUp
  | loop
  | leave (suspend : Bool)
  | returned
  | suspendTask
  | delayTask
  | unreachable
  deriving DecidableEq, Repr

/-- The task, whether it is suspended, its notification, `ret`, and the results of the runner so
far, the last one first. -/
structure Task where
  pc : Pc
  suspended : Bool
  notification : Notification
  ret : Int
  results : List Int
  deriving DecidableEq, Repr

namespace Task

variable (t : Task)

/-- The runner returns. -/
def return_ (ret : Int) : Task :=
  { t with pc := .returned, ret := ret, results := ret :: t.results }

/-- The second half of a round: `lwm2m_step`, whose failure ends the loop, and the wait. -/
def stepRound (o : Outcome) : Task × List Action :=
  if o.result ≠ 0 then ({ t with pc := .leave false }, [.lwm2m_step])
  else (t, [.lwm2m_step, .wait_for_rx])

/-- One round of the runner's loop. -/
def round (o : Outcome) : Task × List Action :=
  if t.notification.pending then
    let val := t.notification.value
    let t := { t with notification := t.notification.taken (BitVec.allOnes 32) }
    if meets val lwm2m_notify_suspend then ({ t with pc := .leave true }, handle o.numBytes val)
    else ((t.stepRound o).1, handle o.numBytes val ++ (t.stepRound o).2)
  else t.stepRound o

/-- The next stretch of `taskFunction`, unless the task is suspended. -/
def step (o : Outcome) : Task × List Action :=
  if t.suspended then (t, [])
  else
    match t.pc with
    | .start => ({ t with pc := .guard }, [.reg_update_start, .timer_update_start])
    | .guard =>
      if t.ret = 0 then ({ t with pc := .setUp }, []) else ({ t with pc := .unreachable }, [])
    | .setUp => if setUps.any o.fails then (t.return_ (-1), []) else ({ t with pc := .loop }, [])
    | .loop => t.round o
    | .leave suspend =>
      (t.return_ (if suspend then 1 else 0), [.lwm2m_close, .connection_free])
    | .returned =>
      if t.ret = 1 then ({ t with pc := .suspendTask }, [.notify_suspended])
      else ({ t with pc := .delayTask }, [])
    | .suspendTask => ({ t with pc := .delayTask, suspended := true }, [])
    | .delayTask => ({ t with pc := .guard }, [])
    | .unreachable => (t, [])

/-- `vTaskResume`, which does nothing to a task that is not suspended. -/
def resumeTask : Task := { t with suspended := false }

end Task

inductive TaskInput where
  | notify (bits : BitVec 32)
  | resumeTask
  | run (o : Outcome)

def Task.next (t : Task) : TaskInput → Task
  | .notify bits => { t with notification := t.notification.setBits bits }
  | .resumeTask => t.resumeTask
  | .run o => (t.step o).1

/-- The task and those who notify and resume it. -/
def service : System Task TaskInput where
  Enabled _ _ := True
  next := Task.next

/-- `create`: the task exists and is suspended. -/
def Task.created : Task := ⟨.start, true, .none, 0, []⟩

namespace Task

variable {t : Task} {o : Outcome}

/-- The task is in `lwm2m_client_task_runner`. -/
def InRunner (t : Task) : Prop := t.pc = .setUp ∨ t.pc = .loop ∨ ∃ suspend, t.pc = .leave suspend

/-- The task, resumed if need be and left to itself, comes to be in the runner. -/
def Serving (t : Task) : Prop :=
  ∃ l : List Outcome, (l.foldl (fun t o => (t.step o).1) t.resumeTask).InRunner

/-! ## The loop ends after a result that is not zero -/

/-- The loop of the task goes on. -/
def GoingOn (t : Task) : Prop :=
  t.ret = 0 ∧ t.pc ≠ .suspendTask ∧ t.pc ≠ .unreachable ∧ ∀ r ∈ t.results, r = 0

/-- The loop of the task is about to end, or has ended. -/
def Ending (t : Task) : Prop :=
  t.ret ≠ 0 ∧ (t.pc = .returned ∨ t.pc = .suspendTask ∨ t.pc = .delayTask ∨ t.pc = .guard ∨
    t.pc = .unreachable) ∧ ∃ r ∈ t.results, r ≠ 0

theorem return_zero (h : t.GoingOn) : (t.return_ 0).GoingOn := by
  refine ⟨rfl, nofun, nofun, ?_⟩
  intro r hr
  obtain rfl | hr := List.mem_cons.1 hr
  · rfl
  · exact h.2.2.2 r hr

theorem return_ending {ret : Int} (h : ret ≠ 0) : (t.return_ ret).Ending :=
  ⟨h, .inl rfl, ret, List.mem_cons_self, h⟩

theorem GoingOn.stepRound (h : t.GoingOn) (o : Outcome) : (t.stepRound o).1.GoingOn := by
  unfold Task.stepRound
  split
  · exact ⟨h.1, nofun, nofun, h.2.2.2⟩
  · exact h

/-- The runner's loop leaves the task's loop alone. -/
theorem GoingOn.round (h : t.GoingOn) (o : Outcome) : (t.round o).1.GoingOn := by
  unfold Task.round
  split
  · dsimp only
    split
    · exact ⟨h.1, nofun, nofun, h.2.2.2⟩
    · have htaken : GoingOn { t with
          notification := t.notification.taken (BitVec.allOnes 32) } := h
      exact htaken.stepRound o
  · exact h.stepRound o

/-- **One step of a task that goes on** goes on, or ends the loop with the result of the runner. -/
theorem GoingOn.step (h : t.GoingOn) (o : Outcome) :
    (t.step o).1.GoingOn ∨ (t.step o).1.Ending := by
  obtain ⟨hret, hsuspend, hunreachable, hresults⟩ := id h
  unfold Task.step
  by_cases hs : t.suspended = true
  · rw [if_pos hs]
    exact .inl h
  · rw [if_neg hs]
    cases hpc : t.pc with
    | start => exact .inl ⟨hret, nofun, nofun, hresults⟩
    | guard =>
      dsimp only
      rw [if_pos hret]
      exact .inl ⟨hret, nofun, nofun, hresults⟩
    | setUp =>
      dsimp only
      split
      · exact .inr (return_ending (by decide))
      · exact .inl ⟨hret, nofun, nofun, hresults⟩
    | loop => exact .inl (h.round o)
    | leave suspend =>
      cases suspend with
      | true => exact .inr (return_ending (by decide))
      | false => exact .inl (return_zero h)
    | returned =>
      dsimp only
      rw [if_neg (by rw [hret]; decide)]
      exact .inl ⟨hret, nofun, nofun, hresults⟩
    | suspendTask => exact absurd hpc hsuspend
    | delayTask => exact .inl ⟨hret, nofun, nofun, hresults⟩
    | unreachable => exact absurd hpc hunreachable

/-- **A loop that ends does not come back** to the runner. -/
theorem Ending.step (h : t.Ending) (o : Outcome) : (t.step o).1.Ending := by
  obtain ⟨hret, hpc, hresults⟩ := id h
  unfold Task.step
  by_cases hs : t.suspended = true
  · rw [if_pos hs]
    exact h
  · rw [if_neg hs]
    obtain hpc | hpc | hpc | hpc | hpc := hpc
    · simp only [hpc]
      split
      · exact ⟨hret, .inr (.inl rfl), hresults⟩
      · exact ⟨hret, .inr (.inr (.inl rfl)), hresults⟩
    · simp only [hpc]
      exact ⟨hret, .inr (.inr (.inl rfl)), hresults⟩
    · simp only [hpc]
      exact ⟨hret, .inr (.inr (.inr (.inl rfl))), hresults⟩
    · simp only [hpc]
      rw [if_neg hret]
      exact ⟨hret, .inr (.inr (.inr (.inr rfl))), hresults⟩
    · simp only [hpc]
      exact h

theorem Ending.steps (h : t.Ending) (l : List Outcome) :
    (l.foldl (fun t o => (t.step o).1) t).Ending := by
  induction l generalizing t with
  | nil => exact h
  | cons o l ih => exact ih (h.step o)

theorem Ending.not_serving (h : t.Ending) : ¬ t.Serving := by
  intro hserving
  obtain ⟨l, hrunner⟩ := hserving
  have hresumed : t.resumeTask.Ending := h
  obtain ⟨-, hpc, -⟩ := hresumed.steps l
  obtain hsetUp | hloop | ⟨suspend, hleave⟩ := hrunner
  · rw [hsetUp] at hpc
    simp at hpc
  · rw [hloop] at hpc
    simp at hpc
  · rw [hleave] at hpc
    simp at hpc

theorem GoingOn.serving (h : t.GoingOn) : t.Serving := by
  obtain ⟨hret, hsuspend, hunreachable, -⟩ := h
  cases hpc : t.pc with
  | start => exact ⟨[.any, .any], .inl (by simp [Task.step, resumeTask, hpc, hret])⟩
  | guard => exact ⟨[.any], .inl (by simp [Task.step, resumeTask, hpc, hret])⟩
  | setUp => exact ⟨[], .inl hpc⟩
  | loop => exact ⟨[], .inr (.inl hpc)⟩
  | leave suspend => exact ⟨[], .inr (.inr ⟨suspend, hpc⟩)⟩
  | returned =>
    exact ⟨[.any, .any, .any], .inl (by simp [Task.step, resumeTask, hpc, hret])⟩
  | suspendTask => exact absurd hpc hsuspend
  | delayTask => exact ⟨[.any, .any], .inl (by simp [Task.step, resumeTask, hpc, hret])⟩
  | unreachable => exact absurd hpc hunreachable

theorem going_or_ending (h : service.Reaches System.Free created t) : t.GoingOn ∨ t.Ending := by
  apply h.invariant (I := fun t => t.GoingOn ∨ t.Ending)
  · exact .inl ⟨rfl, nofun, nofun, nofun⟩
  · intro t i hi _ _
    obtain hgoing | hending := hi
    · cases i with
      | notify bits => exact .inl hgoing
      | resumeTask => exact .inl hgoing
      | run o => exact hgoing.step o
    · right
      cases i with
      | notify bits => exact hending
      | resumeTask => exact hending
      | run o => exact hending.step o

/-- **The task keeps serving** exactly as long as every call of the runner returned zero: then,
once resumed, it comes to call the runner, and otherwise it never does and its loop ends. -/
theorem serving_iff (h : service.Reaches System.Free created t) :
    (t.pc ≠ .unreachable ∧ t.Serving) ↔ ∀ r ∈ t.results, r = 0 := by
  obtain hgoing | hending := going_or_ending h
  · constructor
    · intro _
      exact hgoing.2.2.2
    · intro _
      exact ⟨hgoing.2.2.1, hgoing.serving⟩
  · constructor
    · intro hserving
      exact absurd hserving.2 hending.not_serving
    · intro hzero
      obtain ⟨r, hr, hne⟩ := hending.2.2
      exact absurd (hzero r hr) hne

instance (t : Task) (i : TaskInput) : Decidable (service.Enabled t i) :=
  inferInstanceAs (Decidable True)

instance (t : Task) (i : TaskInput) : Decidable (System.Free t i) :=
  inferInstanceAs (Decidable True)

/-- The task is resumed for the first time, its runner fails a step, and it is called again. -/
def firstCycle : List TaskInput :=
  [.resumeTask, .run .any, .run .any, .run .any, .run ⟨fun _ => false, 0, 1⟩, .run .any, .run .any,
    .run .any, .run .any, .run .any]

theorem serving_iff_firstCycle :
    ((service.run created firstCycle).pc ≠ .unreachable ∧
        (service.run created firstCycle).Serving) ↔
      ∀ r ∈ (service.run created firstCycle).results, r = 0 :=
  serving_iff (System.reaches_run (by decide +kernel))

/-- The user task suspends the service once and resumes it: the loop of the task ends. -/
theorem second_cycle :
    ∃ t, service.Reaches System.Free created t ∧ t.results = [1, 0] ∧ t.pc = .unreachable := by
  refine ⟨service.run created
    (firstCycle ++ [.notify lwm2m_notify_suspend, .run .any, .run .any, .run .any, .run .any,
      .resumeTask, .run .any, .run .any]),
    System.reaches_run (by decide +kernel), by decide +kernel, by decide +kernel⟩

end Task

end Miso.Lwm2m
