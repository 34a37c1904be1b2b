import Miso.Zig.System

/-!
# The SPI transfers of the network processor (`board_CC3100.c`)

A read or a write resets the queue of its direction, starts a transfer and waits for the callback of
the transfer to post its result.  Interrupts fall between any two of these steps, and a transfer
that the call has given up goes on.

* `spi` — the task, the SPI driver with its DMA, and the two queues as a system;
* `Own` — a count that is returned is that of the call's own transfer, and the buffer of a call that
  has returned is left alone;
* `own_transfers` — the runs in which no call meets the result of another one, and no read returns
  while its transfer has something left to store.
-/

namespace Miso.Board

open Zig

/-! ## The driver -/

/-- The results of SPIDRV. -/
inductive Ecode where
  | OK
  | PARAM_ERROR
  | TIMEOUT
  | other (code : Nat)
  deriving DecidableEq, Repr

structure transfer_status_s where
  transferStatus : Ecode
  itemsTransferred : Int
  deriving DecidableEq, Repr

/-- The two functions of SPIDRV that are used, with their callbacks and queues. -/
inductive Direction where
  /-- `SPIDRV_MReceive`, `recieve_callback` and `rx_queue`. -/
  | rx
  /-- `SPIDRV_MTransmit`, `send_callback` and `tx_queue`. -/
  | tx
  deriving DecidableEq, Repr

/-- A transfer that SPIDRV runs: the call that has started it, and what it has left to store or to
send. -/
structure Transfer where
  call : Nat
  direction : Direction
  left : Nat
  deriving DecidableEq, Repr

/-- A queue of length one; there is none before `CC3100_IfOpen`. -/
abbrev Queue := Option (Option transfer_status_s)

/-- `xQueueReset`. -/
def Queue.reset (q : Queue) : Queue := q.map fun _ => none

/-- `xQueueSendFromISR`: a full queue refuses. -/
def Queue.post (q : Queue) (m : transfer_status_s) : Queue := q.map fun held => held.or (some m)

/-! ## The calls -/

def BOARD_CC3100_FD : Int := 1

/-- The arguments of a call; `pBuff` is an address, if it is not `NULL`. -/
structure Call where
  direction : Direction
  Fd : Int
  pBuff : Option Nat
  Len : Int
  deriving DecidableEq, Repr

def CC3100_IfRead (Fd : Int) (pBuff : Option Nat) (Len : Int) : Call := ⟨.rx, Fd, pBuff, Len⟩

def CC3100_IfWrite (Fd : Int) (pBuff : Option Nat) (Len : Int) : Call := ⟨.tx, Fd, pBuff, Len⟩

/-- The check at the beginning. -/
def Call.Valid (c : Call) : Prop := ¬(c.pBuff = none ∨ c.Len ≤ 0 ∨ c.Fd ≠ BOARD_CC3100_FD)

instance (c : Call) : Decidable c.Valid := inferInstanceAs (Decidable ¬_)

/-- `retVal` at the end. -/
def retVal (ecode : Ecode) (transfer_status : transfer_status_s) : Int :=
  if ecode = .OK then transfer_status.itemsTransferred else -1

/-- `transfer_status` at the beginning. -/
def transfer_status : transfer_status_s := ⟨.PARAM_ERROR, -1⟩

/-- Where the task is in a call: before the reset, before the transfer, in `xQueueReceive`. -/
inductive Pc where
  | idle
  | reset (c : Call)
  | transfer (c : Call)
  | receive (c : Call)
  deriving DecidableEq, Repr

/-! ## The system -/

/-- What happens to the transfers and to the calls, which are numbered. -/
inductive Event where
  | started (call : Nat)
  /-- Something is stored into the buffer of the call. -/
  | stored (call : Nat)
  | completed (call : Nat) (m : transfer_status_s)
  | returned (call : Nat) (ret : Int)
  deriving DecidableEq, Repr

/-- The task, its queues and the driver; `calls` calls have returned. -/
structure Spi where
  rx_queue : Queue
  tx_queue : Queue
  pc : Pc
  calls : Nat
  running : Option Transfer
  log : List Event

inductive Input where
  /-- `CC3100_IfRead` or `CC3100_IfWrite` is called. -/
  | call (c : Call)
  /-- The next step of the call; `ecode` is what SPIDRV answers if a transfer is to be started. -/
  | task (ecode : Ecode)
  /-- The DMA stores. -/
  | store
  /-- The transfer is over, and its callback runs. -/
  | complete (m : transfer_status_s)
  deriving DecidableEq, Repr

namespace Spi

variable (s : Spi)

def queue : Direction → Queue
  | .rx => s.rx_queue
  | .tx => s.tx_queue

def setQueue (q : Queue) : Direction → Spi
  | .rx => { s with rx_queue := q }
  | .tx => { s with tx_queue := q }

def record (ev : Event) : Spi := { s with log := s.log ++ [ev] }

/-- The call ends. -/
def returns (ret : Int) : Spi :=
  { s.record (.returned s.calls ret) with pc := .idle, calls := s.calls + 1 }

/-- What both callbacks do. -/
def callback (d : Direction) (m : transfer_status_s) : Spi := s.setQueue ((s.queue d).post m) d

def recieve_callback (m : transfer_status_s) : Spi := s.callback .rx m

def send_callback (m : transfer_status_s) : Spi := s.callback .tx m

/-- A call, up to the reset of its queue. -/
def called (c : Call) : Spi :=
  if c.Valid then
    match s.queue c.direction with
    | some _ => { s with pc := .reset c }
    | none => s.returns (-1)
  else s.returns (-1)

/-- One step of a call. -/
def task (ecode : Ecode) : Spi :=
  match s.pc with
  | .idle => s
  | .reset c => { s.setQueue (s.queue c.direction).reset c.direction with pc := .transfer c }
  | .transfer c =>
    if ecode = .OK then
      { s.record (.started s.calls) with
        pc := .receive c, running := some ⟨s.calls, c.direction, c.Len.toNat⟩ }
    else s.returns (retVal ecode transfer_status)
  | .receive c =>
    match s.queue c.direction with
    | some (some m) =>
      (s.setQueue (some none) c.direction).returns (retVal m.transferStatus m)
    | _ => s.returns (retVal .TIMEOUT transfer_status)

def next : Input → Spi
  | .call c => s.called c
  | .task ecode => s.task ecode
  | .store =>
    match s.running with
    | some t => { s.record (.stored t.call) with running := some { t with left := t.left - 1 } }
    | none => s
  | .complete m =>
    match s.running with
    | some t =>
      let s' := { s.record (.completed t.call m) with running := none }
      match t.direction with
      | .rx => s'.recieve_callback m
      | .tx => s'.send_callback m
    | none => s

/-- A step of the call is possible: SPIDRV refuses a transfer while another one runs. -/
def Possible (ecode : Ecode) : Pc → Prop
  | .idle => False
  | .reset _ => True
  | .transfer _ => ecode = .OK → s.running = none
  | .receive _ => True

/-- Calls come one after another, and every transfer is completed once. -/
def Enabled : Input → Prop
  | .call _ => s.pc = .idle
  | .task ecode => s.Possible ecode s.pc
  | .store => ∃ t ∈ s.running, t.direction = .rx ∧ 0 < t.left
  | .complete _ => s.running ≠ none

instance (ecode : Ecode) : ∀ pc, Decidable (s.Possible ecode pc)
  | .idle => inferInstanceAs (Decidable False)
  | .reset _ => inferInstanceAs (Decidable True)
  | .transfer _ => inferInstanceAs (Decidable (_ → _))
  | .receive _ => inferInstanceAs (Decidable True)

instance : ∀ i, Decidable (s.Enabled i)
  | .call _ => inferInstanceAs (Decidable (_ = _))
  | .task ecode => inferInstanceAs (Decidable (s.Possible ecode s.pc))
  | .store => Option.decidableExistsMem _
  | .complete _ => inferInstanceAs (Decidable (_ ≠ _))

end Spi

/-- **The transfers as a system.** -/
def spi : System Spi Input where
  Enabled := Spi.Enabled
  next := Spi.next

instance (s : Spi) (i : Input) : Decidable (spi.Enabled s i) :=
  inferInstanceAs (Decidable (s.Enabled i))

/-- The board has been opened, or not. -/
structure Initial (s : Spi) : Prop where
  queue : ∀ d, s.queue d = none ∨ s.queue d = some none
  pc : s.pc = .idle
  calls : s.calls = 0
  running : s.running = none
  log : s.log = []

/-! ## The property -/

/-- A count that is returned is that of a successful transfer of the call. -/
def Counted (log : List Event) : Prop :=
  ∀ k n, .returned k n ∈ log → 0 ≤ n → .completed k ⟨.OK, n⟩ ∈ log

/-- `b` may come behind `a`. -/
def Event.permits : Event → Event → Bool
  | .returned k _, .stored k' => k ≠ k'
  | _, _ => true

/-- Nothing is stored into the buffer of a call that has returned. -/
def Quiet (log : List Event) : Prop := log.Pairwise fun a b => a.permits b = true

/-- **Results belong to their own transfers.** -/
structure Own (log : List Event) : Prop where
  counted : Counted log
  quiet : Quiet log

/-- The result is one that a call would return. -/
def transfer_status_s.Counts (m : transfer_status_s) : Prop :=
  m.transferStatus = .OK ∧ 0 ≤ m.itemsTransferred

instance (m : transfer_status_s) : Decidable m.Counts := inferInstanceAs (Decidable (_ ∧ _))

/-- When a transfer is started, its queue holds no count; when a read returns, its transfer has
nothing left to store. -/
def Spi.Apart (s : Spi) (ecode : Ecode) : Pc → Prop
  | .transfer c => ecode = .OK → ∀ m ∈ (s.queue c.direction).join, ¬m.Counts
  | .receive c => c.direction = .rx → ∀ t ∈ s.running, t.call = s.calls → t.left = 0
  | .idle => True
  | .reset _ => True

/-- **No call gets into the way of another one.** -/
def Sound (s : Spi) : Input → Prop
  | .task ecode => s.Apart ecode s.pc
  | .call _ => True
  | .store => True
  | .complete _ => True

instance (s : Spi) (ecode : Ecode) : ∀ pc, Decidable (s.Apart ecode pc)
  | .transfer _ => inferInstanceAs (Decidable (_ → ∀ m ∈ Option.join _, ¬transfer_status_s.Counts m))
  | .receive _ => inferInstanceAs (Decidable (_ → ∀ t ∈ s.running, t.call = s.calls → t.left = 0))
  | .idle => inferInstanceAs (Decidable True)
  | .reset _ => inferInstanceAs (Decidable True)

instance (s : Spi) : ∀ i, Decidable (Sound s i)
  | .task ecode => inferInstanceAs (Decidable (s.Apart ecode s.pc))
  | .call _ => inferInstanceAs (Decidable True)
  | .store => inferInstanceAs (Decidable True)
  | .complete _ => inferInstanceAs (Decidable True)

/-! ## The steps -/

theorem Own.append {log : List Event} {ev : Event} (h : Own log)
    (hcounted : ∀ k n, ev = .returned k n → 0 ≤ n → .completed k ⟨.OK, n⟩ ∈ log)
    (hquiet : ∀ a ∈ log, a.permits ev = true) : Own (log ++ [ev]) := by
  constructor
  · intro k n hmem hn
    rcases List.mem_append.mp hmem with hmem | hmem
    · exact List.mem_append_left _ (h.counted k n hmem hn)
    · exact List.mem_append_left _ (hcounted k n (List.mem_singleton.mp hmem).symm hn)
  · refine List.pairwise_append.mpr ⟨h.quiet, List.pairwise_singleton _ _, ?_⟩
    intro a ha b hb
    rw [List.mem_singleton.mp hb]
    exact hquiet a ha

/-- An event that is neither a return nor a store. -/
theorem Own.plain {log : List Event} {ev : Event} (h : Own log)
    (hreturned : ∀ k n, ev ≠ .returned k n) (hstored : ∀ k, ev ≠ .stored k) : Own (log ++ [ev]) := by
  apply h.append
  · intro k n hev
    exact absurd hev (hreturned k n)
  · intro a _
    cases ev with
    | stored k => exact absurd rfl (hstored k)
    | _ => cases a <;> rfl

/-- What is in a queue has been there, or has been posted. -/
theorem Queue.post_held {q : Queue} {m m' : transfer_status_s} (h : q.post m = some (some m')) :
    q = some (some m') ∨ m' = m := by
  cases q with
  | none => cases h
  | some held =>
    cases held with
    | none =>
      cases h
      exact .inr rfl
    | some m₀ => exact .inl h

namespace Spi

variable (s : Spi) (q : Queue) (d : Direction)

@[simp] theorem setQueue_queue : (s.setQueue q d).queue d = q := by cases d <;> rfl

@[simp] theorem setQueue_pc : (s.setQueue q d).pc = s.pc := by cases d <;> rfl

@[simp] theorem setQueue_calls : (s.setQueue q d).calls = s.calls := by cases d <;> rfl

@[simp] theorem setQueue_running : (s.setQueue q d).running = s.running := by cases d <;> rfl

@[simp] theorem setQueue_log : (s.setQueue q d).log = s.log := by cases d <;> rfl

variable {s} {c : Call} {ecode : Ecode}

theorem task_reset (hpc : s.pc = .reset c) : s.task ecode =
    { s.setQueue (s.queue c.direction).reset c.direction with pc := .transfer c } := by
  unfold task
  rw [hpc]

theorem task_started (hpc : s.pc = .transfer c) : s.task .OK =
    { s.record (.started s.calls) with
      pc := .receive c, running := some ⟨s.calls, c.direction, c.Len.toNat⟩ } := by
  unfold task
  rw [hpc]
  rfl

theorem task_refused (hpc : s.pc = .transfer c) (hecode : ecode ≠ .OK) :
    s.task ecode = s.returns (retVal ecode transfer_status) := by
  unfold task
  rw [hpc]
  exact if_neg hecode

theorem task_received {m : transfer_status_s} (hpc : s.pc = .receive c)
    (hm : s.queue c.direction = some (some m)) : s.task ecode =
      (s.setQueue (some none) c.direction).returns (retVal m.transferStatus m) := by
  unfold task
  rw [hpc]
  simp only [hm]

theorem task_timeout (hpc : s.pc = .receive c)
    (hnone : ∀ m, s.queue c.direction ≠ some (some m)) :
    s.task ecode = s.returns (retVal .TIMEOUT transfer_status) := by
  unfold task
  rw [hpc]
  cases hq : s.queue c.direction with
  | none => simp only [hq]
  | some held =>
    cases held with
    | none => simp only [hq]
    | some m => exact absurd hq (hnone m)

end Spi

/-- What holds in every state of a run: only the transfer of a call that has not returned, if it is
a read, has something left to store. -/
structure Kept (s : Spi) : Prop where
  own : Own s.log
  numbered : ∀ k r, .returned k r ∈ s.log → k < s.calls
  drained : ∀ t ∈ s.running, t.call < s.calls → t.direction = .rx → t.left = 0

/-- Before its transfer a call meets those of others at most, and then only its own. -/
def Pending (s : Spi) : Prop :=
  match s.pc with
  | .receive c => (∀ t ∈ s.running, t.call = s.calls ∧ t.direction = c.direction) ∧
    ∀ m, s.queue c.direction = some (some m) → m.Counts → .completed s.calls m ∈ s.log
  | _ => ∀ t ∈ s.running, t.call < s.calls

section Steps

variable {s : Spi}

theorem Kept.setQueue (h : Kept s) (q : Queue) (d : Direction) : Kept (s.setQueue q d) := by
  refine ⟨?_, ?_, ?_⟩
  · rw [Spi.setQueue_log]
    exact h.own
  · rw [Spi.setQueue_log, Spi.setQueue_calls]
    exact h.numbered
  · rw [Spi.setQueue_running, Spi.setQueue_calls]
    exact h.drained

/-- **A call returns**: a count is its own, and nothing is left to store. -/
theorem Kept.returns {ret : Int} (h : Kept s)
    (hret : 0 ≤ ret → .completed s.calls ⟨.OK, ret⟩ ∈ s.log)
    (hrunning : ∀ t ∈ s.running,
      t.call ≤ s.calls ∧ (t.call = s.calls → t.direction = .rx → t.left = 0)) :
    Kept (s.returns ret) ∧ Pending (s.returns ret) := by
  refine ⟨⟨?_, ?_, ?_⟩, ?_⟩
  · apply h.own.append
    · intro k n hev hn
      cases hev
      exact hret hn
    · intro a _
      cases a <;> rfl
  · intro k r hmem
    show k < s.calls + 1
    rcases List.mem_append.mp hmem with hmem | hmem
    · exact Nat.lt_succ_of_lt (h.numbered k r hmem)
    · cases List.mem_singleton.mp hmem
      exact Nat.lt_succ_self _
  · intro t ht hlt hrx
    rcases Nat.lt_succ_iff_lt_or_eq.mp hlt with hlt | heq
    · exact h.drained t ht hlt hrx
    · exact (hrunning t ht).2 heq hrx
  · exact fun t ht => Nat.lt_succ_of_le (hrunning t ht).1

/-- Without a count, and with the transfers of others at most. -/
theorem Kept.fails {ret : Int} (h : Kept s) (hret : ret < 0)
    (hrunning : ∀ t ∈ s.running, t.call < s.calls) :
    Kept (s.returns ret) ∧ Pending (s.returns ret) :=
  h.returns (fun hn => absurd hret (Int.not_lt.mpr hn)) fun t ht =>
    ⟨Nat.le_of_lt (hrunning t ht), fun heq => absurd heq (Nat.ne_of_lt (hrunning t ht))⟩

theorem pending_receive {c : Call} (hpc : s.pc = .receive c) : Pending s ↔
    (∀ t ∈ s.running, t.call = s.calls ∧ t.direction = c.direction) ∧
      ∀ m, s.queue c.direction = some (some m) → m.Counts → .completed s.calls m ∈ s.log := by
  unfold Pending
  rw [hpc]

theorem pending_before (hpc : ∀ c, s.pc ≠ .receive c) :
    Pending s ↔ ∀ t ∈ s.running, t.call < s.calls := by
  unfold Pending
  cases h : s.pc with
  | receive c => exact absurd h (hpc c)
  | _ => exact Iff.rfl

/-- An interrupt: what is new in the queue of the call is its own. -/
theorem Pending.interrupted {s' : Spi} (h : Pending s) (hpc : s'.pc = s.pc)
    (hcalls : s'.calls = s.calls) (hlog : s.log ⊆ s'.log)
    (hrunning : ∀ t ∈ s'.running, ∃ t' ∈ s.running, t'.call = t.call ∧ t'.direction = t.direction)
    (hqueue : ∀ c m, s.pc = .receive c → s'.queue c.direction = some (some m) →
      s.queue c.direction = some (some m) ∨ .completed s.calls m ∈ s'.log) : Pending s' := by
  by_cases hreceive : ∃ c, s.pc = .receive c
  · obtain ⟨c, hc⟩ := hreceive
    obtain ⟨hown, hheld⟩ := (pending_receive hc).mp h
    rw [pending_receive (hpc.trans hc), hcalls]
    constructor
    · intro t ht
      obtain ⟨t', ht', hcall, hdirection⟩ := hrunning t ht
      rw [← hcall, ← hdirection]
      exact hown t' ht'
    · intro m hm hcounts
      rcases hqueue c m hc hm with hm | hcompleted
      · exact hlog (hheld m hm hcounts)
      · exact hcompleted
  · have hbefore : ∀ c, s.pc ≠ .receive c := fun c hc => hreceive ⟨c, hc⟩
    rw [pending_before (by rwa [hpc]), hcalls]
    intro t ht
    obtain ⟨t', ht', hcall, -⟩ := hrunning t ht
    rw [← hcall]
    exact (pending_before hbefore).mp h t' ht'

theorem retVal_neg {ecode : Ecode} (h : ecode ≠ .OK) (m : transfer_status_s) :
    retVal ecode m < 0 := by
  unfold retVal
  rw [if_neg h]
  decide

theorem Kept.called (h : Kept s) (hpending : Pending s) (hidle : s.pc = .idle) (c : Call) :
    Kept (s.called c) ∧ Pending (s.called c) := by
  have hothers := (pending_before (by simp [hidle])).mp hpending
  unfold Spi.called
  split
  · split
    · exact ⟨⟨h.own, h.numbered, h.drained⟩, hothers⟩
    · exact h.fails (by decide) hothers
  · exact h.fails (by decide) hothers

theorem Kept.reset {c : Call} (h : Kept s) (hpending : Pending s) (hpc : s.pc = .reset c)
    (ecode : Ecode) : Kept (s.task ecode) ∧ Pending (s.task ecode) := by
  have hothers := (pending_before (by simp [hpc])).mp hpending
  have hkept := h.setQueue (s.queue c.direction).reset c.direction
  rw [Spi.task_reset hpc]
  refine ⟨⟨hkept.own, hkept.numbered, hkept.drained⟩, ?_⟩
  show ∀ t ∈ (s.setQueue _ c.direction).running, t.call < (s.setQueue _ c.direction).calls
  rw [Spi.setQueue_running, Spi.setQueue_calls]
  exact hothers

/-- The transfer starts with no count in its queue. -/
theorem Kept.transfer {c : Call} {ecode : Ecode} (h : Kept s) (hpending : Pending s)
    (hpc : s.pc = .transfer c) (hsound : Sound s (.task ecode)) :
    Kept (s.task ecode) ∧ Pending (s.task ecode) := by
  have hothers := (pending_before (by simp [hpc])).mp hpending
  unfold Sound at hsound
  rw [hpc] at hsound
  by_cases hok : ecode = .OK
  · obtain rfl := hok
    rw [Spi.task_started hpc]
    refine ⟨⟨h.own.plain ?_ ?_, ?_, ?_⟩, ?_, ?_⟩
    · exact fun _ _ hev => by cases hev
    · exact fun _ hev => by cases hev
    · intro k r hmem
      rcases List.mem_append.mp hmem with hmem | hmem
      · exact h.numbered k r hmem
      · cases List.mem_singleton.mp hmem
    · intro t ht hlt
      obtain rfl := Option.some.inj ht
      exact absurd hlt (Nat.lt_irrefl _)
    · intro t ht
      obtain rfl := Option.some.inj ht
      exact ⟨rfl, rfl⟩
    · intro m hm hcounts
      have hheld : s.queue c.direction = some (some m) := by
        cases hd : c.direction <;> rw [hd] at hm <;> exact hm
      exact absurd hcounts (hsound rfl m (Option.join_eq_some_iff.mpr hheld))
  · rw [Spi.task_refused hpc hok]
    exact h.fails (retVal_neg hok _) hothers

/-- `xQueueReceive` yields a result of the own transfer, or none. -/
theorem Kept.receive {c : Call} {ecode : Ecode} (h : Kept s) (hpending : Pending s)
    (hpc : s.pc = .receive c) (hsound : Sound s (.task ecode)) :
    Kept (s.task ecode) ∧ Pending (s.task ecode) := by
  obtain ⟨hrunning, hheld⟩ := (pending_receive hpc).mp hpending
  unfold Sound at hsound
  rw [hpc] at hsound
  have hdrained : ∀ t ∈ s.running,
      t.call ≤ s.calls ∧ (t.call = s.calls → t.direction = .rx → t.left = 0) := by
    intro t ht
    obtain ⟨hcall, hdirection⟩ := hrunning t ht
    refine ⟨Nat.le_of_eq hcall, ?_⟩
    intro _ hrx
    exact hsound (hdirection.symm.trans hrx) t ht hcall
  by_cases hq : ∃ m, s.queue c.direction = some (some m)
  · obtain ⟨m, hm⟩ := hq
    rw [Spi.task_received hpc hm]
    apply (h.setQueue (some none) c.direction).returns
    · rw [Spi.setQueue_log, Spi.setQueue_calls]
      intro hn
      by_cases hok : m.transferStatus = .OK
      · have hret : retVal m.transferStatus m = m.itemsTransferred := if_pos hok
        rw [hret] at hn ⊢
        have hown := hheld m hm ⟨hok, hn⟩
        rw [← hok]
        exact hown
      · exact absurd (retVal_neg hok m) (Int.not_lt.mpr hn)
    · rw [Spi.setQueue_running, Spi.setQueue_calls]
      exact hdrained
  · rw [Spi.task_timeout hpc fun m hm => hq ⟨m, hm⟩]
    refine h.returns (fun hn => absurd hn (by decide)) hdrained

/-- The DMA stores for a call that has not returned. -/
theorem Kept.store (h : Kept s) (hpending : Pending s) (henabled : s.Enabled .store) :
    Kept (s.next .store) ∧ Pending (s.next .store) := by
  obtain ⟨t, ht, hrx, hleft⟩ := henabled
  have hrunning : s.running = some t := ht
  have hnext : s.next .store =
      { s.record (.stored t.call) with running := some { t with left := t.left - 1 } } := by
    unfold Spi.next
    rw [hrunning]
  have hcall : ¬t.call < s.calls := fun hlt =>
    absurd (h.drained t ht hlt hrx) (Nat.ne_of_gt hleft)
  rw [hnext]
  refine ⟨⟨?_, ?_, ?_⟩, ?_⟩
  · apply h.own.append
    · exact fun _ _ hev => by cases hev
    · intro a ha
      cases a with
      | returned k r =>
        have hlt := h.numbered k r ha
        exact decide_eq_true fun heq => hcall (heq ▸ hlt)
      | _ => rfl
  · intro k r hmem
    rcases List.mem_append.mp hmem with hmem | hmem
    · exact h.numbered k r hmem
    · cases List.mem_singleton.mp hmem
  · intro t' ht' hlt
    obtain rfl := Option.some.inj ht'
    exact absurd hlt hcall
  · apply hpending.interrupted
    · rfl
    · rfl
    · exact List.subset_append_left _ _
    · intro t' ht'
      obtain rfl := Option.some.inj ht'
      exact ⟨t, ht, rfl, rfl⟩
    · intro c m _ hm
      left
      cases hd : c.direction <;> rw [hd] at hm <;> exact hm

/-- The callback posts the result of the transfer that has been running. -/
theorem Kept.complete (h : Kept s) (hpending : Pending s) {t : Transfer}
    (hrunning : s.running = some t) (m : transfer_status_s) :
    Kept (s.next (.complete m)) ∧ Pending (s.next (.complete m)) := by
  have hnext : s.next (.complete m) =
      ({ s.record (.completed t.call m) with running := none } : Spi).callback t.direction m := by
    unfold Spi.next
    simp only [hrunning]
    cases t.direction <;> rfl
  have hkept : Kept { s.record (.completed t.call m) with running := none } := by
    refine ⟨h.own.plain ?_ ?_, ?_, ?_⟩
    · exact fun _ _ hev => by cases hev
    · exact fun _ hev => by cases hev
    · intro k r hmem
      rcases List.mem_append.mp hmem with hmem | hmem
      · exact h.numbered k r hmem
      · cases List.mem_singleton.mp hmem
    · exact fun t' ht' => by cases ht'
  rw [hnext]
  refine ⟨hkept.setQueue _ _, ?_⟩
  apply hpending.interrupted
  · exact Spi.setQueue_pc _ _ _
  · exact Spi.setQueue_calls _ _ _
  · unfold Spi.callback
    rw [Spi.setQueue_log]
    exact List.subset_append_left _ _
  · unfold Spi.callback
    rw [Spi.setQueue_running]
    exact fun t' ht' => by cases ht'
  · intro c m' hc hm'
    obtain ⟨hcall, hdirection⟩ := ((pending_receive hc).mp hpending).1 t hrunning
    unfold Spi.callback at hm' ⊢
    rw [hdirection, Spi.setQueue_queue] at hm'
    rw [Spi.setQueue_log]
    rcases Queue.post_held hm' with hheld | rfl
    · left
      cases hd : c.direction <;> rw [hd] at hheld <;> exact hheld
    · right
      rw [← hcall]
      exact List.mem_append_right _ (List.mem_singleton.mpr rfl)

theorem Kept.task (h : Kept s) (hpending : Pending s) {ecode : Ecode}
    (henabled : s.Enabled (.task ecode)) (hsound : Sound s (.task ecode)) :
    Kept (s.task ecode) ∧ Pending (s.task ecode) := by
  cases hpc : s.pc with
  | idle =>
    unfold Spi.Enabled at henabled
    rw [hpc] at henabled
    exact henabled.elim
  | reset c => exact h.reset hpending hpc ecode
  | transfer c => exact h.transfer hpending hpc hsound
  | receive c => exact h.receive hpending hpc hsound

/-- **One step of the system.** -/
theorem Kept.next (h : Kept s) (hpending : Pending s) {i : Input} (henabled : s.Enabled i)
    (hsound : Sound s i) : Kept (s.next i) ∧ Pending (s.next i) := by
  cases i with
  | call c => exact h.called hpending henabled c
  | task ecode => exact h.task hpending henabled hsound
  | store => exact h.store hpending henabled
  | complete m =>
    obtain ⟨t, ht⟩ := Option.ne_none_iff_exists'.mp henabled
    exact h.complete hpending ht m

end Steps

/-! ## The runs -/

/-- **Results belong to their own transfers** in all states of a run in which no transfer is started
over the count of another one, and no read returns while its transfer has something left to
store. -/
theorem own_transfers {s₀ s : Spi} (h₀ : Initial s₀) (h : spi.Reaches Sound s₀ s) : Own s.log := by
  have hkept : Kept s ∧ Pending s := by
    apply h.invariant
    · have hnone : ∀ t ∈ s₀.running, False := by
        intro t ht
        rw [h₀.running] at ht
        cases ht
      refine ⟨⟨⟨?_, ?_⟩, ?_, ?_⟩, ?_⟩
      · rw [h₀.log]
        exact fun _ _ hmem => absurd hmem List.not_mem_nil
      · rw [h₀.log]
        exact List.Pairwise.nil
      · rw [h₀.log]
        exact fun _ _ hmem => absurd hmem List.not_mem_nil
      · exact fun t ht => (hnone t ht).elim
      · exact (pending_before (by simp [h₀.pc])).mpr fun t ht => (hnone t ht).elim
    · intro s i hs hi hsound
      exact hs.1.next hs.2 hi hsound
  exact hkept.1.own

/-- The board behind `CC3100_IfOpen`. -/
def Spi.opened : Spi := ⟨some none, some none, .idle, 0, none, []⟩

theorem Spi.opened_initial : Initial Spi.opened where
  queue d := by cases d <;> exact .inr rfl
  pc := rfl
  calls := rfl
  running := rfl
  log := rfl

namespace Input

/-- A step of a call in which SPIDRV accepts. -/
def go : Input := .task .OK

def done (n : Int) : Input := .complete ⟨.OK, n⟩

def read (n : Int) : Input := .call (CC3100_IfRead BOARD_CC3100_FD (some 0x20000000) n)

def write (n : Int) : Input := .call (CC3100_IfWrite BOARD_CC3100_FD (some 0x20000000) n)

/-- A write is given up and completed during the read that follows. -/
def harmless : List Input :=
  [write 4, go, go, go, read 2, go, done 4, go, store, store, done 2, go]

/-- A read is given up, stores, and is completed during the read that follows. -/
def late : List Input := [read 4, go, go, go, store, read 8, go, done 4, go, go]

end Input

theorem own_transfers_harmless : Own (spi.run .opened Input.harmless).log :=
  own_transfers Spi.opened_initial (System.reaches_run (by decide +kernel))

/-- **A read that has been given up**: it stores into a buffer that is no longer its own, and the
next read returns its count. -/
theorem late_completion :
    ¬(∀ s₀ s, Initial s₀ → spi.Reaches System.Free s₀ s → Counted s.log) ∧
      ¬∀ s₀ s, Initial s₀ → spi.Reaches System.Free s₀ s → Quiet s.log := by
  have hreach : spi.Reaches System.Free .opened (spi.run .opened Input.late) :=
    System.reaches_run (by decide +kernel)
  constructor
  · intro h
    have hown := h _ _ Spi.opened_initial hreach 1 4 (by decide +kernel) (by decide)
    exact absurd hown (by decide +kernel)
  · intro h
    have hquiet := h _ _ Spi.opened_initial hreach
    have hstored : ¬Quiet (spi.run .opened Input.late).log := by
      unfold Quiet
      decide +kernel
    exact hstored hquiet

end Miso.Board
