import Mathlib.Algebra.GroupWithZero.Nat
import Mathlib.Data.Fintype.Basic
import Mathlib.Logic.Function.Basic
import Miso.Zig.System

/-!
# The network mediator

The select task (`run`) and the tasks that call `wait_rx` (`connection.zig`) share four slots.  A
client finds the slot of its socket or claims a free one, sends its request to the slot and waits
for the response; the select task accepts the requests, watches the sockets, answers, and frees the
slots that have no deadline.  Each step reads or writes one field of a slot, or is one operation on
a queue or the mutex.

* `Client.Pc.holds`, `Client.Pc.waits` — the slot that a client works with, and waits on;
* `State.tokens` — a request, from the queue of its slot to the response;
* `State.Served` — a client waits alone on a slot of its own socket or its response is there, there
  is one token for it, and its response is about its socket;
* `State.Undisturbed` — a step does not take a slot away from a client.
-/

namespace Miso.Net.Mediator

open Zig

/-- `connections: [4]connectionManagerElement`. -/
abbrev Index := Fin 4

/-- `timeout_resp`, with the socket that the slot had when it was sent. -/
structure timeout_resp where
  timeout : Nat
  about : Int
  deriving DecidableEq, Repr

structure connectionManagerElement where
  sd : Int
  rx_wait_deadline_ms : Nat
  tx_wait_deadline_ms : Nat
  rx_signal : Option timeout_resp
  rx_queue : Option Nat
  tx_queue : Option Nat
  deriving DecidableEq, Repr

/-- The requests in the queue and accepted, and the responses. -/
def connectionManagerElement.tokens (conn : connectionManagerElement) : Nat :=
  (if conn.rx_queue = none then 0 else 1) + (if conn.rx_wait_deadline_ms = 0 then 0 else 1) +
    if conn.rx_signal = none then 0 else 1

/-- Where a client is in `wait_rx`. -/
inductive Client.Pc where
  | idle
  | findSocket (i : Nat)
  | findFreeSocket (i : Nat)
  | take (k : Index)
  | claim (k : Index)
  | give (k : Index)
  | reset (k : Index)
  | send (k : Index)
  | notify (k : Index)
  | recieve (k : Index)
  | unreachable
  deriving DecidableEq, Repr

structure Client where
  pc : Client.Pc
  deadline_ms : Nat
  result : Option Bool
  deriving DecidableEq, Repr

/-- Where the select task is in its loop. -/
inductive Select.Pc where
  | top
  | scan (i : Nat)
  | rx_queue (k : Index)
  | tx_queue (k : Index)
  | deadline (k : Index)
  | take (k : Index)
  | invalidate (k : Index)
  | give (k : Index)
  | timeout (k : Index)
  | scanned
  | sl_Select
  | deliver (i : Nat)
  | ready (k : Index)
  | waitForNotify
  deriving DecidableEq, Repr

structure Select where
  pc : Select.Pc
  read_fd_set : List Int
  nfsd : Int
  maintenance : Nat
  current_time : Nat
  deriving DecidableEq, Repr

/-- The slots, the mutex, the tasks, the notification of the select task, and the tick count. -/
structure State (ι : Type) where
  slots : Index → connectionManagerElement
  mutex : Bool
  clients : ι → Client
  select : Select
  notified : Bool
  now : Nat

namespace State

variable {ι : Type} [DecidableEq ι] (sd : ι → Nat) (s : State ι)

def setSlot (k : Index) (x : connectionManagerElement) : State ι :=
  { s with slots := Function.update s.slots k x }

def setClient (c : ι) (x : Client) : State ι := { s with clients := Function.update s.clients c x }

def goto (c : ι) (pc : Client.Pc) : State ι := s.setClient c { s.clients c with pc := pc }

def setSelect (pc : Select.Pc) : State ι := { s with select := { s.select with pc := pc } }

section Lemmas

variable {s} {c d : ι} {j k : Index} {x : Client} {conn : connectionManagerElement}

@[simp] theorem setClient_self : (s.setClient c x).clients c = x := Function.update_self ..

theorem setClient_other (h : d ≠ c) : (s.setClient c x).clients d = s.clients d :=
  Function.update_of_ne h ..

@[simp] theorem setClient_slots : (s.setClient c x).slots = s.slots := rfl

@[simp] theorem setClient_select : (s.setClient c x).select = s.select := rfl

omit [DecidableEq ι]

@[simp] theorem setSlot_self : (s.setSlot k conn).slots k = conn := Function.update_self ..

theorem setSlot_other (h : j ≠ k) : (s.setSlot k conn).slots j = s.slots j :=
  Function.update_of_ne h ..

@[simp] theorem setSlot_clients : (s.setSlot k conn).clients = s.clients := rfl

@[simp] theorem setSlot_select : (s.setSlot k conn).select = s.select := rfl

end Lemmas

/-- The next step of `wait_rx` in the client `c`, whose socket is `sd c`; a step that blocks does
nothing. -/
def clientStep (c : ι) : State ι :=
  match (s.clients c).pc with
  | .idle => s
  | .findSocket i =>
    if h : i < 4 then
      if (s.slots ⟨i, h⟩).sd = sd c then s.goto c (.reset ⟨i, h⟩)
      else s.goto c (.findSocket (i + 1))
    else s.goto c (.findFreeSocket 0)
  | .findFreeSocket i =>
    if h : i < 4 then
      if (s.slots ⟨i, h⟩).sd < 0 then s.goto c (.take ⟨i, h⟩)
      else s.goto c (.findFreeSocket (i + 1))
    else s.goto c .unreachable
  | .take k => if s.mutex then s else { s.goto c (.claim k) with mutex := true }
  | .claim k => (s.setSlot k { s.slots k with sd := sd c }).goto c (.give k)
  | .give k => { s.goto c (.reset k) with mutex := false }
  | .reset k => (s.setSlot k { s.slots k with rx_signal := none }).goto c (.send k)
  | .send k =>
    match (s.slots k).rx_queue with
    | some _ => s
    | none =>
      (s.setSlot k { s.slots k with rx_queue := some (s.clients c).deadline_ms }).goto c (.notify k)
  | .notify k => { s.goto c (.recieve k) with notified := true }
  | .recieve k =>
    match (s.slots k).rx_signal with
    | none => s
    | some r =>
      (s.setSlot k { s.slots k with rx_signal := none }).setClient c
        { s.clients c with pc := .idle, result := some (r.timeout == 1) }
  | .unreachable => s

/-- A call of `wait_rx`; the deadline is a `u32`, and the call traps if it overflows. -/
def call (c : ι) (timeout_s : Nat) : State ι :=
  if s.now + timeout_s * 1024 < 2 ^ 32 then
    s.setClient c { s.clients c with pc := .findSocket 0, deadline_ms := s.now + timeout_s * 1024 }
  else s.goto c .unreachable

/-- The deadline after a message. -/
def accept (deadline : Nat) (msg : Option Nat) : Nat :=
  match msg with
  | none => deadline
  | some d => if d > deadline ∨ d = 0 then d else deadline

/-- The test of the deadline of a slot, when both queues were read. -/
def testDeadline (k : Index) : State ι :=
  let conn := s.slots k
  if conn.rx_wait_deadline_ms = 0 then s.setSelect (.take k)
  else if conn.rx_wait_deadline_ms ≥ s.select.current_time then
    { s with select := { s.select with
        pc := .scan (k + 1)
        read_fd_set := conn.sd :: s.select.read_fd_set
        nfsd := max s.select.nfsd conn.sd } }
  else (s.setSlot k { conn with rx_wait_deadline_ms := 0 }).setSelect (.timeout k)

/-- The response to the client that waits on a slot; the queue holds one. -/
def respond (k : Index) (timeout : Nat) (select : Select) : State ι :=
  match (s.slots k).rx_signal with
  | some _ => s
  | none =>
    { s.setSlot k { s.slots k with rx_signal := some ⟨timeout, (s.slots k).sd⟩ } with
      select := select }

/-- The next step of the select task; `res` and `ready` are what `sl_Select` returns. -/
def selectStep (res : Int) (ready : List Int) : State ι :=
  match s.select.pc with
  | .top => { s with select := ⟨.scan 0, [], -1, 0, s.now⟩ }
  | .scan i =>
    if h : i < 4 then
      if (s.slots ⟨i, h⟩).sd ≥ 0 then s.setSelect (.rx_queue ⟨i, h⟩)
      else s.setSelect (.scan (i + 1))
    else s.setSelect .scanned
  | .rx_queue k =>
    let conn := s.slots k
    (s.setSlot k { conn with
      rx_queue := none
      rx_wait_deadline_ms := accept conn.rx_wait_deadline_ms conn.rx_queue }).setSelect
        (.tx_queue k)
  | .tx_queue k =>
    let conn := s.slots k
    (s.setSlot k { conn with
      tx_queue := none
      tx_wait_deadline_ms := accept conn.tx_wait_deadline_ms conn.tx_queue }).setSelect
        (.deadline k)
  | .deadline k => s.testDeadline k
  | .take k => if s.mutex then s else { s.setSelect (.invalidate k) with mutex := true }
  | .invalidate k => (s.setSlot k { s.slots k with sd := -1 }).setSelect (.give k)
  | .give k =>
    { s with
      mutex := false
      select := { s.select with pc := .scan (k + 1), maintenance := s.select.maintenance + 1 } }
  | .timeout k =>
    s.respond k 0 { s.select with pc := .scan (k + 1), maintenance := s.select.maintenance + 1 }
  | .scanned =>
    if s.select.read_fd_set ≠ [] then s.setSelect .sl_Select
    else if s.select.maintenance ≠ 0 then s.setSelect .top
    else s.setSelect .waitForNotify
  | .sl_Select =>
    if res > 0 then
      { s with select := { s.select with
          pc := .deliver 0
          read_fd_set := s.select.read_fd_set.filter (· ∈ ready) } }
    else s.setSelect .top
  | .deliver i =>
    if h : i < 4 then
      let conn := s.slots ⟨i, h⟩
      if conn.sd ≥ 0 ∧ conn.sd ∈ s.select.read_fd_set then
        (s.setSlot ⟨i, h⟩ { conn with rx_wait_deadline_ms := 0 }).setSelect (.ready ⟨i, h⟩)
      else s.setSelect (.deliver (i + 1))
    else s.setSelect .top
  | .ready k => s.respond k 1 { s.select with pc := .deliver (k + 1) }
  | .waitForNotify => if s.notified then { s.setSelect .top with notified := false } else s

end State

/-! ## Runs -/

inductive Input (ι : Type) where
  | call (c : ι) (timeout_s : Nat)
  | client (c : ι)
  | select (res : Int) (ready : List Int)
  | tick
  deriving DecidableEq, Repr

/-- The slot that a client has found or claimed. -/
def Client.Pc.holds : Client.Pc → Option Index
  | .give k => some k
  | .reset k => some k
  | .send k => some k
  | .notify k => some k
  | .recieve k => some k
  | _ => none

/-- The slot that a client has sent its request to. -/
def Client.Pc.waits : Client.Pc → Option Index
  | .notify k => some k
  | .recieve k => some k
  | _ => none

/-- The client has seen that the slot is not the one of its socket. -/
def Client.Pc.excludes (k : Index) : Client.Pc → Prop
  | .findSocket i => k.val < i
  | .findFreeSocket _ => True
  | .take _ => True
  | .claim _ => True
  | _ => False

/-- The client has taken the mutex. -/
def Client.Pc.locks : Client.Pc → Bool
  | .claim _ => true
  | .give _ => true
  | _ => false

/-- The client has found every slot in use. -/
def Client.Pc.exhausted : Client.Pc → Bool
  | .findFreeSocket i => decide (4 ≤ i)
  | _ => false

/-- The slot that the select task is answering. -/
def Select.Pc.answers : Select.Pc → Option Index
  | .timeout k => some k
  | .ready k => some k
  | _ => none

theorem Client.Pc.waits_holds {pc : Client.Pc} {k : Index} (h : pc.waits = some k) :
    pc.holds = some k := by
  cases pc <;> first | exact h | exact absurd h (by simp [Client.Pc.waits])

section Runs

variable {ι : Type} [DecidableEq ι] (sd : ι → Nat)

namespace State

variable (s : State ι)

def next : Input ι → State ι
  | .call c timeout_s => s.call c timeout_s
  | .client c => s.clientStep sd c
  | .select res ready => s.selectStep res ready
  | .tick => { s with now := (s.now + 1) % 2 ^ 32 }

/-- A client calls `wait_rx` when it is not in a call. -/
def Enabled : Input ι → Prop
  | .call c _ => (s.clients c).pc = .idle
  | _ => True

instance : ∀ i, Decidable (s.Enabled i)
  | .call _ _ => inferInstanceAs (Decidable (_ = _))
  | .client _ => inferInstanceAs (Decidable True)
  | .select _ _ => inferInstanceAs (Decidable True)
  | .tick => inferInstanceAs (Decidable True)

/-- The requests and responses of a slot, with the one that is being answered. -/
def tokens (k : Index) : Nat :=
  (s.slots k).tokens + if s.select.pc.answers = some k then 1 else 0

/-- **No wait is misdelivered**: who waits does so alone on a slot of its socket or has its
response, there is one request or response for it, the response is about its socket, and no client
traps. -/
structure Served : Prop where
  slot : ∀ c k, (s.clients c).pc.waits = some k →
    ((s.slots k).sd = sd c ∧ ∀ d, d ≠ c → (s.clients d).pc.waits ≠ some k) ∨
      (s.slots k).rx_signal ≠ none
  once : ∀ c k, (s.clients c).pc.waits = some k → s.tokens k = 1
  own : ∀ c k r, (s.clients c).pc.waits = some k → (s.slots k).rx_signal = some r →
    r.about = sd c
  found : ∀ c, (s.clients c).pc ≠ .unreachable

/-- A claim takes a slot that is free and that no other client holds, and there is one to take. -/
def Claims (c : ι) : Prop :=
  (∀ k, (s.clients c).pc = .claim k →
    (s.slots k).sd < 0 ∧ ∀ d, d ≠ c → (s.clients d).pc.holds ≠ some k) ∧
  (s.clients c).pc.exhausted = false

/-- The select task frees a slot only if no client holds it, or its response is there. -/
def Frees : Prop :=
  ∀ k, s.select.pc = .invalidate k → ∀ c, (s.clients c).pc.holds = some k →
    (s.clients c).pc.waits = some k ∧ (s.slots k).rx_signal ≠ none

/-- The step does not take a slot away from a client, and a deadline is not zero and does not
overflow. -/
def Undisturbed : Input ι → Prop
  | .call _ timeout_s => s.now + timeout_s * 1024 ≠ 0 ∧ s.now + timeout_s * 1024 < 2 ^ 32
  | .client c => s.Claims c
  | .select _ _ => s.Frees
  | .tick => True

instance [Fintype ι] (c : ι) : Decidable (s.Claims c) := inferInstanceAs (Decidable (_ ∧ _))

instance [Fintype ι] : Decidable s.Frees :=
  inferInstanceAs (Decidable (∀ k, s.select.pc = .invalidate k → ∀ _ : ι, _ → _))

instance [Fintype ι] : ∀ i, Decidable (s.Undisturbed i)
  | .call _ _ => inferInstanceAs (Decidable (_ ∧ _))
  | .client c => inferInstanceAs (Decidable (s.Claims c))
  | .select _ _ => inferInstanceAs (Decidable s.Frees)
  | .tick => inferInstanceAs (Decidable True)

end State

/-- The select task and the clients with their sockets. -/
def mediator : System (State ι) (Input ι) where
  Enabled := State.Enabled
  next s := s.next sd

/-! ### Responses -/

namespace State

variable (s : State ι)

/-- The select task cannot go on: it waits for the mutex, for room for a response, or for a
notification. -/
def blocked : Bool :=
  match s.select.pc with
  | .take _ => s.mutex
  | .timeout k => (s.slots k).rx_signal.isSome
  | .ready k => (s.slots k).rx_signal.isSome
  | .waitForNotify => !s.notified
  | _ => false

/-- The client waits for its response on the slot. -/
def Awaits (c : ι) (k : Index) : Prop :=
  (s.clients c).pc = .recieve k ∧ (s.slots k).rx_signal = none

/-- The steps that the select task makes in a run, without those in which it cannot go on. -/
def selectSteps : State ι → List (Input ι) → Nat
  | _, [] => 0
  | s, i :: l =>
    (match i with
      | .select _ _ => if s.blocked then 0 else 1
      | _ => 0) + selectSteps (s.next sd i) l

/-- **No wait is lost**: while a client waits for its response, the select task can go on unless
some client is about to give the mutex back, and from when the deadline has passed until the
response is there it makes 90 steps at most, whatever else happens. -/
structure Answered : Prop where
  awake : ∀ c k, s.Awaits c k → s.blocked = true → ∃ d, (s.clients d).pc.locks = true
  soon : ∀ c k l, (mediator sd).Allows (fun s i => s.Undisturbed i ∧ s.Awaits c k ∧
    (s.clients c).deadline_ms < s.now) s l → s.selectSteps sd l ≤ 90

end State

/-- `initializeConnectionsManager`: every slot is free. -/
def State.initial : State ι :=
  ⟨fun _ => ⟨-1, 0, 0, none, none, none⟩, false, fun _ => ⟨.idle, 0, none⟩, ⟨.top, [], -1, 0, 0⟩,
    false, 0⟩

end Runs

end Miso.Net.Mediator
