import Miso.Net.Ntp
import Miso.Rtos.Notify
import Miso.Zig.System

/-!
# The user task

`myUserTaskFunction` (`user.zig`): a state machine that brings the services up when there is
connectivity and tells them to stop when it is lost.  What happens elsewhere reaches it as
notification bits, which add up while the task is busy.

* `Observed` — the task with what the senders last said about connectivity, and whether the
  services were told to stop since;
* `Heeded` — a loss of connectivity that came last was answered when the task is in its working
  state and nothing is pending;
* `heeded_of_answers` — that holds in every run in which no wait passes over such a loss.

The working state tests for `connectivity_on` first and clears both bits, so that a loss that
arrives together with an earlier gain is dropped (`loss_dropped`).
-/

namespace Miso.Connectivity

open Rtos Zig
open Net.Ntp (ntp_response)

inductive state where
  | verify_config
  | start_connectivity
  | stop_connectivity
  | start_ntp_time
  | start_mqtt
  | start_lwm2m
  | get_config
  | perform_firmware_download
  | verify_firmware_download
  | working
  deriving DecidableEq, Repr

inductive notificationValues where
  | connectivity_on
  | connectivity_off
  | lwm2m_suspended
  | ntp_sync
  | user_timer
  deriving DecidableEq, Repr

namespace notificationValues

/-- The place of the bit, as in `enum miso_event`. -/
def place : notificationValues → Nat
  | connectivity_on => 0
  | connectivity_off => 1
  | lwm2m_suspended => 2
  | ntp_sync => 3
  | user_timer => 4

/-- `@intFromEnum(notification)`. -/
def int (n : notificationValues) : BitVec 32 := bit n.place

def isNotification (val : BitVec 32) (notification : notificationValues) : Bool :=
  masks val notification.int

theorem isNotification_iff {val : BitVec 32} {n : notificationValues} :
    isNotification val n = true ↔ val.getLsbD n.place = true := by
  apply masks_iff
  cases n <;> decide

/-- The bits are different ones. -/
theorem int_getLsbD (n m : notificationValues) :
    n.int.getLsbD m.place = decide (n = m) := by
  cases n <;> cases m <;> rfl

end notificationValues

open notificationValues (isNotification)

/-- The services that the image contains. -/
structure Build where
  enable_lwm2m : Bool
  enable_mqtt : Bool
  enable_http : Bool

/-- What a step does to the rest of the system. -/
inductive Action where
  | load_config
  | resume_wifi
  | ntpTimer_stop
  | ntpTimer_changePeriod (period : UInt32)
  | suspend_lwm2m
  | suspend_mqtt
  | resume_lwm2m
  | resume_mqtt
  | timer_start
  | filedownload
  | toggle_yellow
  deriving DecidableEq, Repr

/-- The task: its state, whether it is at the wait of that state, its notification, and the time
of the last synchronization. -/
structure UserTask where
  state : state
  waiting : Bool
  notification : Notification
  ntpSyncTime : UInt32
  deriving DecidableEq, Repr

namespace UserTask

variable (t : UserTask)

def goto (s : Connectivity.state) : UserTask := { t with state := s, waiting := false }

/-- The time to the next synchronization, at most an hour. -/
def nextSyncTime (r : ntp_response) : UInt32 :=
  if r.poll_interval > 60 * 60 then 60 * 60 * 1000 else r.poll_interval * 1000

def take (notification : notificationValues) : UserTask :=
  { t with notification := t.notification.taken notification.int }

/-- The wait of `start_connectivity`, which goes on until there is connectivity. -/
def awaitConnectivity : UserTask :=
  if isNotification t.notification.value .connectivity_on then
    (t.take .connectivity_on).goto .start_ntp_time
  else t.take .connectivity_on

/-- What the working state does about the bits it read, all of which are cleared. -/
def work : UserTask × List Action :=
  let val := t.notification.value
  let t := { t with notification := t.notification.taken (BitVec.allOnes 32) }
  if isNotification val .connectivity_on then (t.goto .start_ntp_time, [])
  else if isNotification val .connectivity_off then (t.goto .stop_connectivity, [])
  else if isNotification val .ntp_sync then (t, [])
  else if isNotification val .user_timer then (t, [.toggle_yellow])
  else (t, [])

/-- The next stretch of `myUserTaskFunction`, up to the next wait or the next state; `ntp` is what
the server answers if it is asked.  At a wait with nothing pending the task is blocked. -/
def step (X : Build) (ntp : Option ntp_response) : UserTask × List Action :=
  match t.state with
  | .verify_config => (t.goto .start_connectivity, [.load_config])
  | .start_connectivity =>
    if t.waiting then if t.notification.pending then (t.awaitConnectivity, []) else (t, [])
    else ({ t with waiting := true }, [.resume_wifi])
  | .stop_connectivity =>
    if t.waiting then
      if t.notification.pending then ((t.take .lwm2m_suspended).goto .working, []) else (t, [])
    else ({ t with waiting := true }, [.ntpTimer_stop, .suspend_lwm2m, .suspend_mqtt])
  | .start_ntp_time =>
    match ntp with
    | some r => ({ t.goto .perform_firmware_download with ntpSyncTime := r.timestamp_s },
        [.ntpTimer_changePeriod (nextSyncTime r)])
    | none => (t, [])
  | .perform_firmware_download =>
    (t.goto (if X.enable_lwm2m then .start_lwm2m else if X.enable_mqtt then .start_mqtt
      else .working), if X.enable_http then [.filedownload] else [])
  | .start_mqtt => (t.goto .working, [.resume_mqtt, .timer_start])
  | .start_lwm2m => (t.goto .working, [.resume_lwm2m, .timer_start])
  | .working => if t.notification.pending then t.work else (t, [])
  | .get_config => (t, [])
  | .verify_firmware_download => (t, [])

end UserTask

/-- The task, the last word about connectivity, and whether the services were told to stop since
that. -/
structure Observed where
  task : UserTask
  last : Option notificationValues
  told : Bool
  deriving DecidableEq, Repr

inductive Input where
  | notify (event : notificationValues)
  | run (ntp : Option ntp_response)
  deriving DecidableEq, Repr

namespace Observed

variable (s : Observed)

/-- A notification about connectivity is the last one; the others say nothing about it. -/
def notified (event : notificationValues) : Observed :=
  let task := { s.task with notification := s.task.notification.setBits event.int }
  if event = .connectivity_on ∨ event = .connectivity_off then ⟨task, some event, false⟩
  else { s with task := task }

def next (X : Build) : Input → Observed
  | .notify event => s.notified event
  | .run ntp =>
    let r := s.task.step X ntp
    { s with
      task := r.1
      told := s.told || (decide (.suspend_lwm2m ∈ r.2) && decide (.suspend_mqtt ∈ r.2)) }

/-- A loss of connectivity was the last word, and no service was told so far. -/
def Lost : Prop := s.last = some .connectivity_off ∧ s.told = false

instance : Decidable s.Lost := inferInstanceAs (Decidable (_ ∧ _))

/-- Back at work with nothing pending, the services know about a loss that came last. -/
def Heeded : Prop :=
  s.task.state = .working → s.task.notification.pending = false →
    s.last = some .connectivity_off → s.told = true

instance : Decidable s.Heeded := inferInstanceAs (Decidable (_ → _ → _ → _))

/-- A wait that returns now leads elsewhere than to `stop_connectivity`. -/
def leadsElsewhere : Bool :=
  match s.task.state with
  | .start_connectivity =>
    s.task.waiting && isNotification s.task.notification.value .connectivity_on
  | .stop_connectivity => s.task.waiting
  | .working => isNotification s.task.notification.value .connectivity_on
  | _ => false

/-- A wait that returns does not pass over a loss: the bits do not contain `connectivity_on`, and
none has come since `stop_connectivity` told the services. -/
def Answers : Input → Prop
  | .notify _ => True
  | .run _ => s.task.notification.pending = true → s.Lost → s.leadsElsewhere = false

instance : ∀ i, Decidable (s.Answers i)
  | .notify _ => inferInstanceAs (Decidable True)
  | .run _ => inferInstanceAs (Decidable (_ → s.Lost → _))

end Observed

/-- The user task of an image. -/
def userTask (X : Build) : System Observed Input where
  Enabled _ _ := True
  next s := s.next X

/-- `create`: the task before its first step. -/
def start : Observed := ⟨⟨.verify_config, false, .none, 0⟩, none, false⟩

/-! ## The bit of a loss stays until it is answered -/

namespace UserTask

/-- The loss is still to be read, or the task is about to tell the services. -/
def Holding (t : UserTask) : Prop :=
  (t.state = .stop_connectivity ∧ t.waiting = false) ∨
    (t.notification.has notificationValues.connectivity_off.place = true ∧
      (t.notification.pending = true ∨ t.state = .start_connectivity))

variable {t : UserTask} {n : notificationValues}

theorem take_has (hn : n ≠ .connectivity_off) :
    (t.take n).notification.has notificationValues.connectivity_off.place =
      t.notification.has notificationValues.connectivity_off.place := by
  apply Notification.taken_has
  rw [notificationValues.int_getLsbD]
  exact decide_eq_false hn

/-- In every other state the bit and the pending notification stay as they are. -/
theorem Holding.kept (h : t.Holding) {t' : UserTask} (hn : t'.notification = t.notification)
    (hstop : t.state ≠ .stop_connectivity) (hstart : t.state ≠ .start_connectivity) :
    t'.Holding := by
  obtain ⟨hs, -⟩ | ⟨hbit, hpending | hs⟩ := h
  · exact absurd hs hstop
  · right
    rw [hn]
    exact ⟨hbit, .inl hpending⟩
  · exact absurd hs hstart

/-- The wait of `start_connectivity` keeps the bit, and the state while there is no connectivity. -/
theorem Holding.awaitConnectivity (h : t.Holding) (hs : t.state = .start_connectivity)
    (hon : isNotification t.notification.value .connectivity_on = false) :
    t.awaitConnectivity.Holding := by
  obtain ⟨hstop, -⟩ | ⟨hbit, -⟩ := h
  · rw [hs] at hstop
    exact absurd hstop (by decide)
  · right
    unfold UserTask.awaitConnectivity
    rw [if_neg (by simp [hon])]
    refine ⟨?_, .inr hs⟩
    rw [take_has (by decide)]
    exact hbit

/-- The working state sees the bit, unless it sees connectivity first. -/
theorem Holding.work (h : t.Holding) (hs : t.state = .working)
    (hon : isNotification t.notification.value .connectivity_on = false) :
    t.work.1.Holding := by
  obtain ⟨hstop, -⟩ | ⟨hbit, -⟩ := h
  · rw [hs] at hstop
    exact absurd hstop (by decide)
  · have hoff : isNotification t.notification.value .connectivity_off = true :=
      notificationValues.isNotification_iff.2 hbit
    left
    unfold UserTask.work
    simp only [hon, hoff, if_true]
    exact ⟨rfl, rfl⟩

end UserTask

namespace Observed

variable {X : Build} {s : Observed}

/-- **What every step preserves**: a loss that no service was told about is not forgotten. -/
def Remembers (s : Observed) : Prop := s.Lost → s.task.Holding

theorem Remembers.notified (h : s.Remembers) (event : notificationValues) :
    (s.notified event).Remembers := by
  intro hlost
  unfold Observed.notified at hlost ⊢
  by_cases hconn : event = .connectivity_on ∨ event = .connectivity_off
  · simp only [hconn, if_true] at hlost ⊢
    have hoff : event = .connectivity_off := Option.some.inj hlost.1
    right
    subst hoff
    refine ⟨?_, .inl rfl⟩
    simp [notificationValues.int_getLsbD]
  · simp only [hconn, if_false] at hlost ⊢
    obtain hstop | ⟨hbit, -⟩ := h hlost
    · exact .inl hstop
    · right
      refine ⟨?_, .inl rfl⟩
      rw [Notification.setBits_has, hbit, Bool.true_or]

theorem Remembers.run (h : s.Remembers) (ntp : Option ntp_response)
    (hans : s.Answers (.run ntp)) : (s.next X (.run ntp)).Remembers := by
  intro hlost
  have hs : s.Lost := by
    refine ⟨hlost.1, ?_⟩
    have htold : (s.told || _) = false := hlost.2
    exact (Bool.or_eq_false_iff.1 htold).1
  have hhold := h hs
  have hans := fun hp => hans hp hs
  unfold leadsElsewhere at hans
  show (s.task.step X ntp).1.Holding
  have htold : (s.told || (decide (.suspend_lwm2m ∈ (s.task.step X ntp).2) &&
    decide (.suspend_mqtt ∈ (s.task.step X ntp).2))) = false := hlost.2
  unfold UserTask.step at htold ⊢
  cases hstate : s.task.state with
  | start_connectivity =>
    simp only [hstate] at hans ⊢
    cases hwait : s.task.waiting with
    | false =>
      simp only [Bool.false_eq_true, if_false]
      obtain ⟨hstop, -⟩ | ⟨hbit, -⟩ := hhold
      · rw [hstate] at hstop
        exact absurd hstop (by decide)
      · exact .inr ⟨hbit, .inr rfl⟩
    | true =>
      simp only [if_true]
      by_cases hp : s.task.notification.pending = true
      · rw [if_pos hp]
        exact hhold.awaitConnectivity hstate (by simpa [hwait] using hans hp)
      · rw [if_neg hp]
        exact hhold
  | stop_connectivity =>
    simp only [hstate] at hans htold ⊢
    cases hwait : s.task.waiting with
    | false =>
      -- this step tells the services
      simp [hwait] at htold
    | true =>
      simp only [if_true]
      by_cases hp : s.task.notification.pending = true
      · exact absurd (hans hp) (by simp [hwait])
      · rw [if_neg hp]
        exact hhold
  | working =>
    simp only [hstate] at hans ⊢
    by_cases hp : s.task.notification.pending = true
    · rw [if_pos hp]
      exact hhold.work hstate (hans hp)
    · rw [if_neg hp]
      exact hhold
  | start_ntp_time =>
    cases ntp with
    | none => exact hhold
    | some r => exact hhold.kept rfl (by simp [hstate]) (by simp [hstate])
  | verify_config => exact hhold.kept rfl (by simp [hstate]) (by simp [hstate])
  | perform_firmware_download => exact hhold.kept rfl (by simp [hstate]) (by simp [hstate])
  | start_mqtt => exact hhold.kept rfl (by simp [hstate]) (by simp [hstate])
  | start_lwm2m => exact hhold.kept rfl (by simp [hstate]) (by simp [hstate])
  | get_config => exact hhold
  | verify_firmware_download => exact hhold

/-- With nothing pending at work, a loss that is not forgotten was answered. -/
theorem Remembers.heeded (h : s.Remembers) : s.Heeded := by
  intro hstate hpending hlast
  by_contra htold
  obtain ⟨hstop, -⟩ | ⟨-, hp | hstart⟩ := h ⟨hlast, by simpa using htold⟩
  · rw [hstate] at hstop
    exact absurd hstop (by decide)
  · rw [hpending] at hp
    exact absurd hp (by decide)
  · rw [hstate] at hstart
    exact absurd hstart (by decide)

/-- **A loss of connectivity is heeded** in every run in which no wait passes over one. -/
theorem heeded_of_answers (h : (userTask X).Reaches (fun s i => s.Answers i) start s) :
    s.Heeded := by
  have hremembers : s.Remembers := by
    apply h.invariant (I := Remembers)
    · intro hlost
      exact absurd hlost.1 (by decide)
    · intro s i hi _ hans
      cases i with
      | notify event => exact hi.notified event
      | run ntp => exact hi.run ntp hans
  exact hremembers.heeded

/-- A full image. -/
def image : Build := ⟨true, true, true⟩

/-- What the server answers. -/
def answer : ntp_response := ⟨0, 0, 64⟩

instance (s : Observed) (i : Input) : Decidable ((userTask image).Enabled s i) :=
  inferInstanceAs (Decidable True)

/-- Up to the working state. -/
def upAtWork : List Input :=
  [.run none, .run none, .notify .connectivity_on, .run none, .run (some answer), .run none,
    .run none]

/-- Connectivity is lost at work. -/
theorem heeded_of_answers_at_work :
    ((userTask image).run start
      (upAtWork ++ [.notify .connectivity_off, .run none, .run none, .notify .lwm2m_suspended,
        .run none])).Heeded :=
  heeded_of_answers (System.reaches_run (by decide +kernel))

/-- Connectivity comes and goes during the firmware download: the working state reads both bits
and takes the gain, and later waits for more with no service told. -/
theorem loss_dropped :
    ∃ s, (userTask image).Reaches System.Free start s ∧ s.last = some .connectivity_off ∧
      s.task.state = .working ∧ s.task.notification = .none ∧ ¬ s.Heeded := by
  refine ⟨(userTask image).run start
    (upAtWork.take 5 ++ [.notify .connectivity_on, .notify .connectivity_off, .run none, .run none,
      .run none, .run (some answer), .run none, .run none]),
    System.reaches_run (by decide +kernel), by decide +kernel, by decide +kernel,
    by decide +kernel, by decide +kernel⟩

end Observed

end Miso.Connectivity
