import Miso.Net.Waits

/-!
# The deadlines of the mediator

The network mediator with the time that its clock of 32 bits is the low part of.

* `Clocked.OnTime` — deadlines are computed without overflow, a request stays until it is answered,
  no answer comes early, and a pass of the select task that begins after the time is out answers;
* `Waiting` — what is known of one wait, at each place of a pass;
* `onTime_of_regular` — every run is on time in which no step takes a slot away, no sum overflows,
  and the tick counter does not wrap under a call or a pass.
-/

namespace Miso.Net.Mediator

open Zig

/-- The slots below the first number are read in this pass, those below the second are tested. -/
def Select.Pc.progress : Select.Pc → Option (Nat × Nat)
  | .scan i => some (i, i)
  | .rx_queue k => some (k.val, k.val)
  | .tx_queue k => some (k.val + 1, k.val)
  | .deadline k => some (k.val + 1, k.val)
  | .take k => some (k.val + 1, k.val + 1)
  | .invalidate k => some (k.val + 1, k.val + 1)
  | .give k => some (k.val + 1, k.val + 1)
  | .timeout k => some (k.val + 1, k.val + 1)
  | .scanned => some (4, 4)
  | .top => none
  | .sl_Select => none
  | .deliver _ => none
  | .ready _ => none
  | .waitForNotify => none

/-- The time of the pass is still used. -/
def Select.Pc.scans (pc : Select.Pc) : Bool := pc.progress.isSome && decide (pc ≠ .scanned)

/-- The mediator, the wraps of the tick counter, the last call of each client, and the pass of the
select task. -/
structure Clocked (ι : Type) where
  state : State ι
  epoch : Nat
  asked : ι → Nat
  timeout_s : ι → Nat
  overflowed : Bool
  pass : Nat
  /-- The clients whose request was there without response when the pass began. -/
  present : ι → Bool

section Clock

variable {ι : Type} [DecidableEq ι] (sd : ι → Nat)

/-- The client waits, and has no response yet. -/
def State.unanswered (s : State ι) (c : ι) : Bool :=
  (s.clients c).pc.waits.any fun k => decide ((s.slots k).rx_signal = none)

/-- The client on the slot is told that its time is out. -/
def State.TimedOut (s : State ι) (k : Index) : Prop :=
  ∃ r, (s.slots k).rx_signal = some r ∧ r.timeout ≠ 1

namespace Clocked

variable (t : Clocked ι)

/-- The ticks since the first one. -/
def time : Nat := t.epoch * 2 ^ 32 + t.state.now

/-- When the time of a client is out. -/
def expires (c : ι) : Nat := t.asked c + t.timeout_s c * 1024

/-- A call whose sum does not fit does not come to its end. -/
def next : Input ι → Clocked ι
  | .call c timeout_s =>
    if t.state.now + timeout_s * 1024 < 2 ^ 32 then
      { t with
        state := t.state.call c timeout_s
        asked := Function.update t.asked c t.time
        timeout_s := Function.update t.timeout_s c timeout_s
        present := Function.update t.present c false }
    else { t with overflowed := true }
  | .client c => { t with state := t.state.clientStep sd c }
  | .select res ready =>
    if t.state.select.pc = .top then
      { t with
        state := t.state.selectStep res ready
        pass := t.time
        present := t.state.unanswered }
    else { t with state := t.state.selectStep res ready }
  | .tick =>
    { t with
      state := { t.state with now := (t.state.now + 1) % 2 ^ 32 }
      epoch := t.epoch + (t.state.now + 1) / 2 ^ 32 }

/-- A client calls `wait_rx` when it is not in a call. -/
def Enabled : Input ι → Prop
  | .call c _ => (t.state.clients c).pc = .idle
  | _ => True

instance : ∀ i, Decidable (t.Enabled i)
  | .call _ _ => inferInstanceAs (Decidable (_ = _))
  | .client _ => inferInstanceAs (Decidable True)
  | .select _ _ => inferInstanceAs (Decidable True)
  | .tick => inferInstanceAs (Decidable True)

/-- The sum of a call does not overflow, and the tick counter does not wrap under a call or a pass
of the select task. -/
def Regular : Input ι → Prop
  | .call _ timeout_s => t.state.now + timeout_s * 1024 < 2 ^ 32
  | .tick => t.state.now + 1 < 2 ^ 32 ∨
      (∀ c, (t.state.clients c).pc = .idle) ∧ t.state.select.pc.scans = false
  | _ => True

/-- **The deadlines are right.** -/
structure OnTime : Prop where
  computed : t.overflowed = false
  kept : ∀ c k, (t.state.clients c).pc.waits = some k →
    t.state.tokens k = 1 ∧ (t.state.slots k).rx_queue ≠ some 0
  early : ∀ c k, (t.state.clients c).pc.waits = some k → t.state.TimedOut k →
    t.expires c ≤ t.time
  first : ∀ c k, t.state.select.pc = .scanned → t.present c = true →
    (t.state.clients c).pc.waits = some k → t.expires c < t.pass → t.state.TimedOut k

/-- The mediator that has been started at a time. -/
def initial (start : Nat) : Clocked ι :=
  ⟨{ State.initial with now := start % 2 ^ 32 }, start / 2 ^ 32, fun _ => 0, fun _ => 0, false, 0,
    fun _ => false⟩

end Clocked

/-- The mediator and its clock. -/
def clocked : System (Clocked ι) (Input ι) where
  Enabled := Clocked.Enabled
  next t := t.next sd

instance (t : Clocked ι) (i : Input ι) : Decidable ((clocked sd).Enabled t i) :=
  inferInstanceAs (Decidable (t.Enabled i))

end Clock

/-! ## One wait -/

/-- What is known of the wait of a client on the slot `k`. -/
structure Waiting (select : Select) (k : Index) (conn : connectionManagerElement)
    (deadline_ms expires pass time : Nat) (present : Bool) : Prop where
  queued : ∀ d, conn.rx_queue = some d → d = deadline_ms
  accepted : conn.rx_wait_deadline_ms ≠ 0 → conn.rx_wait_deadline_ms = deadline_ms
  early : (select.pc = .timeout k ∨ ∃ r, conn.rx_signal = some r ∧ r.timeout ≠ 1) →
    expires ≤ time
  untested : present = true → ∀ r p, select.pc.progress = some (r, p) → p ≤ k.val →
    conn.rx_signal = none ∧ (k.val < r → conn.rx_queue = none)
  tested : present = true → ∀ r p, select.pc.progress = some (r, p) → k.val < p →
    expires < pass → select.pc = .timeout k ∨ ∃ r, conn.rx_signal = some r ∧ r.timeout ≠ 1

namespace Waiting

variable {select select' : Select} {k : Index} {conn conn' : connectionManagerElement}
  {deadline_ms expires pass time : Nat} {present : Bool}

theorem later (h : Waiting select k conn deadline_ms expires pass time present) {time' : Nat}
    (hle : time ≤ time') : Waiting select k conn deadline_ms expires pass time' present :=
  { h with early := fun hpc => (h.early hpc).trans hle }

/-- The select task goes on without answering this client. -/
theorem turn (h : Waiting select k conn deadline_ms expires pass time present)
    (hqueue : conn'.rx_queue = conn.rx_queue)
    (hdeadline : conn'.rx_wait_deadline_ms = conn.rx_wait_deadline_ms)
    (hsignal : conn'.rx_signal = conn.rx_signal)
    (hbefore : select.pc ≠ .timeout k) (hafter : select'.pc ≠ .timeout k)
    (hprogress : present = true → ∀ r' p', select'.pc.progress = some (r', p') →
      ∃ r p, select.pc.progress = some (r, p) ∧ (k.val < p' ↔ k.val < p) ∧
        (k.val < r' → k.val < r)) :
    Waiting select' k conn' deadline_ms expires pass time present where
  queued := by
    rw [hqueue]
    exact h.queued
  accepted := by
    rw [hdeadline]
    exact h.accepted
  early := by
    rw [hsignal]
    rintro (hpc | hr)
    · exact absurd hpc hafter
    · exact h.early (.inr hr)
  untested := by
    intro hpresent r' p' hpc' hle
    obtain ⟨r, p, hpc, hp, hr⟩ := hprogress hpresent r' p' hpc'
    have hbound : p ≤ k.val := by omega
    obtain ⟨hnone, hread⟩ := h.untested hpresent r p hpc hbound
    rw [hsignal, hqueue]
    exact ⟨hnone, fun hlt => hread (hr hlt)⟩
  tested := by
    intro hpresent r' p' hpc' hlt hexpired
    obtain ⟨r, p, hpc, hp, -⟩ := hprogress hpresent r' p' hpc'
    rw [hsignal]
    obtain hanswering | hanswered := h.tested hpresent r p hpc (hp.mp hlt) hexpired
    · exact absurd hanswering hbefore
    · exact .inr hanswered

/-- A pass begins. -/
theorem top (h : Waiting select k conn deadline_ms expires pass time present)
    (hafter : select'.pc = .scan 0) {pass' : Nat}
    {present' : Bool} (hpresent : present' = true → conn.rx_signal = none) :
    Waiting select' k conn deadline_ms expires pass' time present' where
  queued := h.queued
  accepted := h.accepted
  early := by
    rintro (hpc | hr)
    · exact absurd (hafter.symm.trans hpc) (by simp)
    · exact h.early (.inr hr)
  untested := by
    intro hp r p hpc _
    rw [hafter] at hpc
    cases hpc
    exact ⟨hpresent hp, fun hlt => absurd hlt (Nat.not_lt_zero _)⟩
  tested := by
    intro _ r p hpc hlt
    rw [hafter] at hpc
    cases hpc
    exact absurd hlt (Nat.not_lt_zero _)

/-- The request of the slot is read. -/
theorem read (h : Waiting select k conn deadline_ms expires pass time present)
    (hpc : select.pc = .rx_queue k) (hafter : select'.pc = .tx_queue k)
    (hfree : conn.rx_queue ≠ none → conn.rx_wait_deadline_ms = 0) (hzero : conn.rx_queue ≠ some 0) :
    Waiting select' k { conn with
      rx_queue := none
      rx_wait_deadline_ms := State.accept conn.rx_wait_deadline_ms conn.rx_queue }
      deadline_ms expires pass time present where
  queued := by
    intro d hd
    cases hd
  accepted := by
    intro hne
    dsimp only at hne ⊢
    cases hqueue : conn.rx_queue with
    | none =>
      rw [hqueue] at hne
      exact h.accepted hne
    | some d =>
      have hd : d ≠ 0 := fun hd => hzero (by rw [hqueue, hd])
      rw [hfree (by rw [hqueue]; exact Option.some_ne_none d)]
      simp only [State.accept, gt_iff_lt, Nat.pos_of_ne_zero hd, true_or, if_true]
      exact h.queued d hqueue
  early := by
    rintro (hpc' | hr)
    · exact absurd (hafter.symm.trans hpc') (by simp)
    · exact h.early (.inr hr)
  untested := by
    intro hpresent r p hpc' _
    exact ⟨(h.untested hpresent k.val k.val (by rw [hpc]; rfl) (Nat.le_refl _)).1, fun _ => rfl⟩
  tested := by
    intro hpresent r p hpc' hlt
    rw [hafter] at hpc'
    cases hpc'
    exact absurd hlt (Nat.lt_irrefl _)

/-- The deadline of the slot is tested: it is there if the pass was to answer it, so that the slot
is not given up. -/
theorem give_up (h : Waiting select k conn deadline_ms expires pass time present)
    (hpc : select.pc = .deadline k) (hafter : select'.pc = .take k)
    (hzero : conn.rx_wait_deadline_ms = 0)
    (htoken : conn.rx_queue = none → conn.rx_signal = none → conn.rx_wait_deadline_ms ≠ 0) :
    Waiting select' k conn deadline_ms expires pass time present where
  queued := h.queued
  accepted := h.accepted
  early := by
    rintro (hpc' | hr)
    · exact absurd (hafter.symm.trans hpc') (by simp)
    · exact h.early (.inr hr)
  untested := by
    intro _ r p hpc' hle
    rw [hafter] at hpc'
    cases hpc'
    omega
  tested := by
    intro hpresent _ _ _ _ _
    obtain ⟨hsignal, hqueue⟩ :=
      h.untested hpresent (k.val + 1) k.val (by rw [hpc]; rfl) (Nat.le_refl _)
    exact absurd hzero (htoken (hqueue (Nat.lt_succ_self _)) hsignal)

/-- The deadline has not passed: the time was not out when the pass began. -/
theorem watch (h : Waiting select k conn deadline_ms expires pass time present)
    (hafter : select'.pc = .scan (k.val + 1)) (hin : pass ≤ expires) :
    Waiting select' k conn deadline_ms expires pass time present where
  queued := h.queued
  accepted := h.accepted
  early := by
    rintro (hpc' | hr)
    · exact absurd (hafter.symm.trans hpc') (by simp)
    · exact h.early (.inr hr)
  untested := by
    intro _ r p hpc' hle
    rw [hafter] at hpc'
    cases hpc'
    omega
  tested := by
    intro _ _ _ _ _ hexpired
    omega

/-- The deadline has passed: the client is answered next. -/
theorem expire (h : Waiting select k conn deadline_ms expires pass time present)
    (hafter : select'.pc = .timeout k) (hout : expires ≤ time) :
    Waiting select' k { conn with rx_wait_deadline_ms := 0 } deadline_ms expires pass time
      present where
  queued := h.queued
  accepted := fun hne => absurd rfl hne
  early := fun _ => hout
  untested := by
    intro _ r p hpc' hle
    rw [hafter] at hpc'
    cases hpc'
    omega
  tested := fun _ _ _ _ _ _ => .inl hafter

/-- The client is answered that its time is out. -/
theorem answer (h : Waiting select k conn deadline_ms expires pass time present)
    (hpc : select.pc = .timeout k) (hafter : select'.pc = .scan (k.val + 1)) (about : Int) :
    Waiting select' k { conn with rx_signal := some ⟨0, about⟩ } deadline_ms expires pass time
      present where
  queued := h.queued
  accepted := h.accepted
  early := fun _ => h.early (.inl hpc)
  untested := by
    intro _ r p hpc' hle
    rw [hafter] at hpc'
    cases hpc'
    omega
  tested := fun _ _ _ _ _ _ => .inr ⟨⟨0, about⟩, rfl, Nat.zero_ne_one⟩

/-- Outside the scan of a pass, only the request, the deadline and the response matter. -/
theorem outside (h : Waiting select k conn deadline_ms expires pass time present)
    (hqueue : conn'.rx_queue = conn.rx_queue)
    (hdeadline : conn'.rx_wait_deadline_ms = conn.rx_wait_deadline_ms ∨
      conn'.rx_wait_deadline_ms = 0)
    (hsignal : conn'.rx_signal = conn.rx_signal ∨ ∃ r, conn'.rx_signal = some r ∧ r.timeout = 1)
    (hafter : select'.pc.progress = none) :
    Waiting select' k conn' deadline_ms expires pass time present where
  queued := by
    rw [hqueue]
    exact h.queued
  accepted := by
    obtain hsame | hzero := hdeadline
    · rw [hsame]
      exact h.accepted
    · exact fun hne => absurd hzero hne
  early := by
    rintro (hpc | ⟨r, hr, htimeout⟩)
    · rw [hpc] at hafter
      cases hafter
    · obtain hsame | ⟨r', hr', hready⟩ := hsignal
      · exact h.early (.inr ⟨r, by rw [← hsame, hr], htimeout⟩)
      · rw [Option.some.inj (hr.symm.trans hr')] at htimeout
        exact absurd hready htimeout
  untested := by
    intro _ r p hpc
    rw [hafter] at hpc
    cases hpc
  tested := by
    intro _ r p hpc
    rw [hafter] at hpc
    cases hpc

end Waiting

/-! ## All clients -/

section Runs

variable {ι : Type} {sd : ι → Nat}

namespace Clocked

variable {t : Clocked ι} {c : ι}

/-- What is known of a client. -/
structure Timed (t : Clocked ι) (c : ι) : Prop where
  computed : (t.state.clients c).pc ≠ .idle →
    t.expires c = t.epoch * 2 ^ 32 + (t.state.clients c).deadline_ms
  fresh : t.present c = true →
    (t.state.clients c).pc = .idle ∨ (t.state.clients c).pc.waits ≠ none
  waiting : ∀ k, (t.state.clients c).pc.waits = some k →
    Waiting t.state.select k (t.state.slots k) (t.state.clients c).deadline_ms (t.expires c)
      t.pass t.time (t.present c)

/-- **What every step of a regular run keeps.** -/
structure Timing (sd : ι → Nat) (t : Clocked ι) : Prop where
  overflowed : t.overflowed = false
  inv : t.state.Inv sd
  clock : t.state.select.pc.scans = true →
    t.pass = t.epoch * 2 ^ 32 + t.state.select.current_time ∧ t.pass ≤ t.time
  timed : ∀ c, t.Timed c

theorem Timing.initial (start : Nat) : Timing sd (initial start : Clocked ι) where
  overflowed := rfl
  inv := { (State.Inv.initial : (State.initial : State ι).Inv sd) with }
  clock := fun h => absurd h Bool.false_ne_true
  timed _ :=
    { computed := fun h => absurd rfl h
      fresh := fun h => absurd h Bool.false_ne_true
      waiting := fun _ h => by cases h }

theorem Timing.onTime (h : Timing sd t) : t.OnTime where
  computed := h.overflowed
  kept c k hc := ⟨h.inv.waiting c k hc, h.inv.queued k⟩
  early c k hc htimedOut := ((h.timed c).waiting k hc).early (.inr htimedOut)
  first := by
    intro c k hpc hpresent hc hexpired
    have hprogress : t.state.select.pc.progress = some (4, 4) := by
      rw [hpc]
      rfl
    obtain hanswering | hanswered :=
      ((h.timed c).waiting k hc).tested hpresent 4 4 hprogress k.isLt hexpired
    · exact absurd (hpc.symm.trans hanswering) (by simp)
    · exact hanswered

/-- A client that is not in a call. -/
theorem Timed.of_idle (h : (t.state.clients c).pc = .idle) : t.Timed c where
  computed := fun hne => absurd h hne
  fresh := fun _ => .inl h
  waiting := by
    intro k hk
    rw [h] at hk
    cases hk

/-! ### Steps of the select task -/

/-- What a step of the select task leaves. -/
structure Leaves (s s' : State ι) : Prop where
  clients : s'.clients = s.clients
  now : s'.now = s.now
  current_time : s'.select.current_time = s.select.current_time
  scans : s'.select.pc.scans = true → s.select.pc.scans = true

theorem Leaves.respond {s : State ι} {k : Index} {timeout : Nat} {select : Select}
    (htime : select.current_time = s.select.current_time)
    (hscans : select.pc.scans = true → s.select.pc.scans = true) :
    Leaves s (s.respond k timeout select) := by
  unfold State.respond
  split
  · exact ⟨rfl, rfl, rfl, id⟩
  · exact ⟨rfl, rfl, htime, hscans⟩

theorem selectStep_leaves (s : State ι) (res : Int) (ready : List Int) (hpc : s.select.pc ≠ .top) :
    Leaves s (s.selectStep res ready) := by
  have hout {pc : Select.Pc} (h : pc.scans = false) {P : Prop} : pc.scans = true → P :=
    fun hscans => absurd (h.symm.trans hscans) Bool.false_ne_true
  cases hcase : s.select.pc <;> unfold State.selectStep <;> simp only [hcase]
  case top => exact absurd hcase hpc
  case scan i =>
    have hin : s.select.pc.scans = true := by rw [hcase]; rfl
    split
    · split
      · exact ⟨rfl, rfl, rfl, fun _ => hin⟩
      · exact ⟨rfl, rfl, rfl, fun _ => hin⟩
    · exact ⟨rfl, rfl, rfl, fun _ => hin⟩
  case rx_queue k => exact ⟨rfl, rfl, rfl, fun _ => by rw [hcase]; rfl⟩
  case tx_queue k => exact ⟨rfl, rfl, rfl, fun _ => by rw [hcase]; rfl⟩
  case deadline k =>
    have hin : s.select.pc.scans = true := by rw [hcase]; rfl
    unfold State.testDeadline
    dsimp only
    split
    · exact ⟨rfl, rfl, rfl, fun _ => hin⟩
    · split
      · exact ⟨rfl, rfl, rfl, fun _ => hin⟩
      · exact ⟨rfl, rfl, rfl, fun _ => hin⟩
  case take k =>
    split
    · exact ⟨rfl, rfl, rfl, id⟩
    · exact ⟨rfl, rfl, rfl, fun _ => by rw [hcase]; rfl⟩
  case invalidate k => exact ⟨rfl, rfl, rfl, fun _ => by rw [hcase]; rfl⟩
  case give k => exact ⟨rfl, rfl, rfl, fun _ => by rw [hcase]; rfl⟩
  case timeout k => exact .respond rfl fun _ => by rw [hcase]; rfl
  case scanned =>
    split
    · exact ⟨rfl, rfl, rfl, hout rfl⟩
    · split
      · exact ⟨rfl, rfl, rfl, hout rfl⟩
      · exact ⟨rfl, rfl, rfl, hout rfl⟩
  case sl_Select =>
    split
    · exact ⟨rfl, rfl, rfl, hout rfl⟩
    · exact ⟨rfl, rfl, rfl, hout rfl⟩
  case deliver i =>
    split
    · split
      · exact ⟨rfl, rfl, rfl, hout rfl⟩
      · exact ⟨rfl, rfl, rfl, hout rfl⟩
    · exact ⟨rfl, rfl, rfl, hout rfl⟩
  case ready k => exact .respond rfl (hout rfl)
  case waitForNotify =>
    split
    · exact ⟨rfl, rfl, rfl, hout rfl⟩
    · exact ⟨rfl, rfl, rfl, id⟩

/-- The waits after a step of the select task that is not the first one of a pass. -/
def Goes (t : Clocked ι) (s' : State ι) : Prop :=
  ∀ c k, (t.state.clients c).pc.waits = some k →
    Waiting t.state.select k (t.state.slots k) (t.state.clients c).deadline_ms (t.expires c)
      t.pass t.time (t.present c) →
    Waiting s'.select k (s'.slots k) (t.state.clients c).deadline_ms (t.expires c)
      t.pass t.time (t.present c)

theorem Timing.select {s' : State ι} (h : Timing sd t) (hinv : s'.Inv sd)
    (hleaves : Leaves t.state s') (hgoes : t.Goes s') : Timing sd { t with state := s' } where
  overflowed := h.overflowed
  inv := hinv
  clock := by
    intro hscans
    obtain ⟨hpass, hle⟩ := h.clock (hleaves.scans hscans)
    refine ⟨?_, ?_⟩
    · rw [hleaves.current_time]
      exact hpass
    · unfold time at hle ⊢
      rw [hleaves.now]
      exact hle
  timed := by
    intro c
    obtain ⟨hcomputed, hfresh, hwaiting⟩ := h.timed c
    refine ⟨?_, ?_, ?_⟩
    · rw [hleaves.clients]
      exact hcomputed
    · rw [hleaves.clients]
      exact hfresh
    · intro k hk
      rw [hleaves.clients] at hk ⊢
      have htime : time { t with state := s' } = t.time := by
        unfold time
        rw [hleaves.now]
      rw [htime]
      exact hgoes c k hk (hwaiting k hk)

/-- A step that stores to one slot, `j`, at most. -/
theorem Goes.store {j : Index} {x : connectionManagerElement} {select : Select}
    (hother : ∀ c k, k ≠ j → (t.state.clients c).pc.waits = some k →
      Waiting t.state.select k (t.state.slots k) (t.state.clients c).deadline_ms (t.expires c)
        t.pass t.time (t.present c) →
      Waiting select k (t.state.slots k) (t.state.clients c).deadline_ms (t.expires c)
        t.pass t.time (t.present c))
    (hself : ∀ c, (t.state.clients c).pc.waits = some j →
      Waiting t.state.select j (t.state.slots j) (t.state.clients c).deadline_ms (t.expires c)
        t.pass t.time (t.present c) →
      Waiting select j x (t.state.clients c).deadline_ms (t.expires c)
        t.pass t.time (t.present c)) :
    t.Goes { t.state.setSlot j x with select := select } := by
  intro c k hk hw
  by_cases hkj : k = j
  · subst hkj
    show Waiting select k ((t.state.setSlot k x).slots k) _ _ _ _ _
    rw [State.setSlot_self]
    exact hself c hk hw
  · show Waiting select k ((t.state.setSlot j x).slots k) _ _ _ _ _
    rw [State.setSlot_other hkj]
    exact hother c k hkj hk hw

/-- The select task goes on, at a place where it answers nobody. -/
theorem Goes.turn {select : Select} {mutex notified : Bool}
    (hbefore : t.state.select.pc.answers = none) (hafter : select.pc.answers = none)
    (hprogress : ∀ c k, (t.state.clients c).pc.waits = some k → t.present c = true →
      Waiting t.state.select k (t.state.slots k) (t.state.clients c).deadline_ms (t.expires c)
        t.pass t.time (t.present c) →
      ∀ r' p', select.pc.progress = some (r', p') →
        ∃ r p, t.state.select.pc.progress = some (r, p) ∧ (k.val < p' ↔ k.val < p) ∧
          (k.val < r' → k.val < r)) :
    t.Goes { t.state with select := select, mutex := mutex, notified := notified } := by
  intro c k hk hw
  refine hw.turn rfl rfl rfl ?_ ?_ fun hpresent => hprogress c k hk hpresent hw
  · intro hpc
    rw [hpc] at hbefore
    cases hbefore
  · intro hpc
    have hpc : select.pc = .timeout k := hpc
    rw [hpc] at hafter
    cases hafter

/-- The progress at the next place is the one here. -/
theorem same_progress {pc pc' : Select.Pc} (h : pc'.progress = pc.progress) (k : Index) :
    ∀ r' p', pc'.progress = some (r', p') →
      ∃ r p, pc.progress = some (r, p) ∧ (k.val < p' ↔ k.val < p) ∧ (k.val < r' → k.val < r) :=
  fun r' p' hpc => ⟨r', p', h.symm.trans hpc, Iff.rfl, id⟩

theorem no_progress {pc pc' : Select.Pc} (h : pc'.progress = none) (k : Index) :
    ∀ r' p', pc'.progress = some (r', p') →
      ∃ r p, pc.progress = some (r, p) ∧ (k.val < p' ↔ k.val < p) ∧ (k.val < r' → k.val < r) := by
  intro r' p' hpc
  rw [h] at hpc
  cases hpc

/-- A request that is there keeps the slot of its client in use. -/
theorem Timing.in_use (h : Timing sd t) {c : ι} {k : Index}
    (hc : (t.state.clients c).pc.waits = some k) (hsignal : (t.state.slots k).rx_signal = none) :
    0 ≤ (t.state.slots k).sd := by
  apply h.inv.sd_nonneg ?_ hsignal
  rw [h.inv.waiting c k hc]
  exact Nat.one_ne_zero

theorem Timing.scan (h : Timing sd t) {i : Nat} (hpc : t.state.select.pc = .scan i)
    (res : Int) (ready : List Int) : t.Goes (t.state.selectStep res ready) := by
  have hanswers : t.state.select.pc.answers = none := by rw [hpc]; rfl
  have hprogress : t.state.select.pc.progress = some (i, i) := by rw [hpc]; rfl
  unfold State.selectStep
  simp only [hpc]
  split
  · rename_i hlt
    split
    · apply Goes.turn hanswers rfl
      intro c k _ _ _
      exact same_progress (by rw [hprogress]; rfl) k
    · rename_i hneg
      apply Goes.turn hanswers rfl
      intro c k hk hpresent hw r' p' hpc'
      cases hpc'
      -- the slot that is passed over has no socket, and is not one of a client that waits
      have hne : k.val ≠ i := by
        rintro rfl
        have hsignal := (hw.untested hpresent _ _ hprogress (Nat.le_refl _)).1
        exact hneg (h.in_use hk hsignal)
      exact ⟨i, i, hprogress, by omega, by omega⟩
  · apply Goes.turn hanswers rfl
    intro c k _ _ _ r' p' hpc'
    cases hpc'
    have hlt := k.isLt
    exact ⟨i, i, hprogress, by omega, by omega⟩

theorem Timing.rx_queue (h : Timing sd t) {j : Index} (hpc : t.state.select.pc = .rx_queue j)
    (res : Int) (ready : List Int) : t.Goes (t.state.selectStep res ready) := by
  have hprogress : t.state.select.pc.progress = some (j.val, j.val) := by rw [hpc]; rfl
  unfold State.selectStep
  simp only [hpc]
  apply Goes.store
  · intro c k hkj hk hw
    have hne : k.val ≠ j.val := fun heq => hkj (Fin.ext heq)
    refine hw.turn rfl rfl rfl (by rw [hpc]; simp) (by simp) ?_
    intro _ r' p' hpc'
    cases hpc'
    exact ⟨_, _, hprogress, Iff.rfl, by omega⟩
  · intro c hk hw
    refine hw.read hpc rfl ?_ (h.inv.queued j)
    intro hqueue
    have hle := h.inv.tokens_le j
    unfold State.tokens connectionManagerElement.tokens at hle
    by_contra hdeadline
    rw [if_neg hqueue, if_neg hdeadline] at hle
    omega

theorem Timing.tx_queue {j : Index} (hpc : t.state.select.pc = .tx_queue j)
    (res : Int) (ready : List Int) : t.Goes (t.state.selectStep res ready) := by
  have hprogress : t.state.select.pc.progress = some (j.val + 1, j.val) := by rw [hpc]; rfl
  unfold State.selectStep
  simp only [hpc]
  apply Goes.store
  · intro c k _ hk hw
    exact hw.turn rfl rfl rfl (by rw [hpc]; simp) (by simp) fun _ => same_progress (by rw [hprogress]; rfl) k
  · intro c hk hw
    exact hw.turn rfl rfl rfl (by rw [hpc]; simp) (by simp) fun _ => same_progress (by rw [hprogress]; rfl) j

/-- The test of the deadline of a slot does not matter to the other slots. -/
theorem tested_other {j k : Index} {pc pc' : Select.Pc} (hkj : k ≠ j)
    (h : pc.progress = some (j.val + 1, j.val))
    (h' : pc'.progress = some (j.val + 1, j.val + 1)) :
    ∀ r' p', pc'.progress = some (r', p') →
      ∃ r p, pc.progress = some (r, p) ∧ (k.val < p' ↔ k.val < p) ∧ (k.val < r' → k.val < r) := by
  intro r' p' hpc'
  have hne : k.val ≠ j.val := fun heq => hkj (Fin.ext heq)
  rw [h'] at hpc'
  cases hpc'
  exact ⟨_, _, h, by omega, id⟩

theorem Timing.deadline (h : Timing sd t) {j : Index} (hpc : t.state.select.pc = .deadline j) :
    t.Goes (t.state.testDeadline j) := by
  have hprogress : t.state.select.pc.progress = some (j.val + 1, j.val) := by rw [hpc]; rfl
  obtain ⟨hpass, hle⟩ := h.clock (by rw [hpc]; rfl)
  have hbefore : ∀ k, t.state.select.pc ≠ .timeout k := by
    intro k
    rw [hpc]
    simp
  have htoken : ∀ c, (t.state.clients c).pc.waits = some j → (t.state.slots j).rx_queue = none →
      (t.state.slots j).rx_signal = none → (t.state.slots j).rx_wait_deadline_ms ≠ 0 := by
    intro c hc hqueue hsignal hzero
    have hone := h.inv.waiting c j hc
    unfold State.tokens connectionManagerElement.tokens at hone
    rw [hqueue, hsignal, hzero, hpc] at hone
    simp [Select.Pc.answers] at hone
  -- the deadline that is tested is the one of the client
  have hexpires : ∀ c, (t.state.clients c).pc.waits = some j →
      (t.state.slots j).rx_wait_deadline_ms ≠ 0 →
      t.expires c = t.epoch * 2 ^ 32 + (t.state.slots j).rx_wait_deadline_ms := by
    intro c hc hne
    have hidle : (t.state.clients c).pc ≠ .idle := by
      intro hidle
      rw [hidle] at hc
      cases hc
    rw [((h.timed c).waiting j hc).accepted hne]
    exact (h.timed c).computed hidle
  unfold State.testDeadline
  dsimp only
  split
  · rename_i hzero
    intro c k hk hw
    by_cases hkj : k = j
    · subst hkj
      exact hw.give_up hpc rfl hzero (htoken c hk)
    · exact hw.turn rfl rfl rfl (hbefore k) (by simp [State.setSelect])
        fun _ => tested_other hkj hprogress rfl
  · rename_i hne
    split
    · rename_i hin
      intro c k hk hw
      by_cases hkj : k = j
      · subst hkj
        apply hw.watch rfl
        rw [hexpires c hk hne, hpass]
        omega
      · exact hw.turn rfl rfl rfl (hbefore k) (by simp)
          fun _ => tested_other hkj hprogress rfl
    · rename_i hout
      apply Goes.store
      · intro c k hkj hk hw
        exact hw.turn rfl rfl rfl (hbefore k) (by simp [Ne.symm hkj])
          fun _ => tested_other hkj hprogress rfl
      · intro c hk hw
        apply hw.expire rfl
        rw [hexpires c hk hne]
        omega

theorem Timing.timeout {j : Index} (hpc : t.state.select.pc = .timeout j)
    (res : Int) (ready : List Int) : t.Goes (t.state.selectStep res ready) := by
  have hprogress : t.state.select.pc.progress = some (j.val + 1, j.val + 1) := by rw [hpc]; rfl
  unfold State.selectStep
  simp only [hpc]
  unfold State.respond
  split
  · exact fun _ _ _ hw => hw
  · apply Goes.store
    · intro c k hkj hk hw
      refine hw.turn rfl rfl rfl ?_ (by simp) fun _ => same_progress (by rw [hprogress]; rfl) k
      rw [hpc]
      simp [Ne.symm hkj]
    · intro c hk hw
      exact hw.answer hpc rfl _

theorem Timing.invalidate {j : Index} (hpc : t.state.select.pc = .invalidate j)
    (res : Int) (ready : List Int) : t.Goes (t.state.selectStep res ready) := by
  have hprogress : t.state.select.pc.progress = some (j.val + 1, j.val + 1) := by rw [hpc]; rfl
  unfold State.selectStep
  simp only [hpc]
  apply Goes.store
  · intro c k _ hk hw
    exact hw.turn rfl rfl rfl (by rw [hpc]; simp) (by simp)
      fun _ => same_progress (by rw [hprogress]; rfl) k
  · intro c hk hw
    exact hw.turn rfl rfl rfl (by rw [hpc]; simp) (by simp)
      fun _ => same_progress (by rw [hprogress]; rfl) j

theorem Timing.deliver {i : Nat} (hpc : t.state.select.pc = .deliver i)
    (res : Int) (ready : List Int) : t.Goes (t.state.selectStep res ready) := by
  have hanswers : t.state.select.pc.answers = none := by rw [hpc]; rfl
  unfold State.selectStep
  simp only [hpc]
  split
  · split
    · apply Goes.store
      · intro c k _ hk hw
        exact hw.outside rfl (.inl rfl) (.inl rfl) rfl
      · intro c hk hw
        exact hw.outside rfl (.inr rfl) (.inl rfl) rfl
    · exact Goes.turn hanswers rfl fun _ k _ _ _ => no_progress rfl k
  · exact Goes.turn hanswers rfl fun _ k _ _ _ => no_progress rfl k

theorem Timing.ready {j : Index} (hpc : t.state.select.pc = .ready j)
    (res : Int) (ready : List Int) : t.Goes (t.state.selectStep res ready) := by
  unfold State.selectStep
  simp only [hpc]
  unfold State.respond
  split
  · exact fun _ _ _ hw => hw
  · apply Goes.store
    · intro c k _ hk hw
      exact hw.outside rfl (.inl rfl) (.inl rfl) rfl
    · intro c hk hw
      exact hw.outside rfl (.inl rfl) (.inr ⟨_, rfl, rfl⟩) rfl

/-- **The waits after a step of the select task** that does not begin a pass. -/
theorem Timing.goes (h : Timing sd t) (htop : t.state.select.pc ≠ .top) (res : Int)
    (ready : List Int) : t.Goes (t.state.selectStep res ready) := by
  have hturn {select : Select} {mutex notified : Bool} (hbefore : t.state.select.pc.answers = none)
      (hafter : select.pc.answers = none)
      (hpc : select.pc.progress = t.state.select.pc.progress ∨ select.pc.progress = none) :
      t.Goes { t.state with select := select, mutex := mutex, notified := notified } := by
    apply Goes.turn hbefore hafter
    intro _ k _ _ _
    exact hpc.elim (fun hsame => same_progress hsame k) fun hnone => no_progress hnone k
  cases hpc : t.state.select.pc with
  | top => exact absurd hpc htop
  | scan i => exact h.scan hpc res ready
  | rx_queue j => exact h.rx_queue hpc res ready
  | tx_queue j => exact Timing.tx_queue hpc res ready
  | deadline j =>
    unfold State.selectStep
    simp only [hpc]
    exact h.deadline hpc
  | take j =>
    unfold State.selectStep
    simp only [hpc]
    split
    · exact fun _ _ _ hw => hw
    · exact hturn (by rw [hpc]; rfl) rfl (.inl (by rw [hpc]; rfl))
  | invalidate j => exact Timing.invalidate hpc res ready
  | give j =>
    unfold State.selectStep
    simp only [hpc]
    exact hturn (by rw [hpc]; rfl) rfl (.inl (by rw [hpc]; rfl))
  | timeout j => exact Timing.timeout hpc res ready
  | scanned =>
    unfold State.selectStep
    simp only [hpc]
    split
    · exact hturn (by rw [hpc]; rfl) rfl (.inr rfl)
    · split
      · exact hturn (by rw [hpc]; rfl) rfl (.inr rfl)
      · exact hturn (by rw [hpc]; rfl) rfl (.inr rfl)
  | sl_Select =>
    unfold State.selectStep
    simp only [hpc]
    split
    · exact hturn (by rw [hpc]; rfl) rfl (.inr rfl)
    · exact hturn (by rw [hpc]; rfl) rfl (.inr rfl)
  | deliver i => exact Timing.deliver hpc res ready
  | ready j => exact Timing.ready hpc res ready
  | waitForNotify =>
    unfold State.selectStep
    simp only [hpc]
    split
    · exact hturn (by rw [hpc]; rfl) rfl (.inr rfl)
    · exact fun _ _ _ hw => hw

theorem unanswered_waits {s : State ι} (h : s.unanswered c = true) :
    ∃ k, (s.clients c).pc.waits = some k ∧ (s.slots k).rx_signal = none := by
  unfold State.unanswered at h
  obtain ⟨k, hk, hsignal⟩ := (Option.any_eq_true ..).mp h
  exact ⟨k, hk, of_decide_eq_true hsignal⟩

/-- A pass begins with the time of the clock, and the requests that are there. -/
theorem Timing.begins (h : Timing sd t) {select : Select} (hpc : select.pc = .scan 0)
    (htime : select.current_time = t.state.now)
    (hinv : State.Inv sd { t.state with select := select }) :
    Timing sd { t with
      state := { t.state with select := select }
      pass := t.time
      present := t.state.unanswered } where
  overflowed := h.overflowed
  inv := hinv
  clock := by
    intro _
    refine ⟨?_, Nat.le_refl _⟩
    rw [htime]
    rfl
  timed := by
    intro c
    obtain ⟨hcomputed, -, hwaiting⟩ := h.timed c
    refine ⟨hcomputed, ?_, ?_⟩
    · intro hpresent
      obtain ⟨k, hk, -⟩ := unanswered_waits hpresent
      exact .inr (by rw [hk]; exact Option.some_ne_none k)
    · intro k hk
      apply (hwaiting k hk).top hpc
      intro hpresent
      obtain ⟨j, hj, hsignal⟩ := unanswered_waits hpresent
      rwa [← Option.some.inj (hj.symm.trans hk)]

/-! ### Steps of the clients -/

/-- A client whose own data, slot and pass are as before. -/
theorem Timed.frame {t' : Clocked ι} (h : t.Timed c)
    (hclient : t'.state.clients c = t.state.clients c)
    (hslot : ∀ k, (t.state.clients c).pc.waits = some k → t'.state.slots k = t.state.slots k)
    (hselect : t'.state.select = t.state.select) (hpass : t'.pass = t.pass)
    (hexpires : t'.expires c = t.expires c) (hepoch : t'.epoch = t.epoch)
    (hpresent : t'.present c = t.present c) (htime : t.time ≤ t'.time) : t'.Timed c where
  computed := by
    rw [hclient, hexpires, hepoch]
    exact h.computed
  fresh := by
    rw [hclient, hpresent]
    exact h.fresh
  waiting := by
    intro k hk
    rw [hclient] at hk ⊢
    rw [hselect, hslot k hk, hexpires, hpass, hpresent]
    exact (h.waiting k hk).later htime

variable [DecidableEq ι]

theorem clientStep_frame (sd : ι → Nat) (s : State ι) (c : ι) :
    (s.clientStep sd c).select = s.select ∧ (s.clientStep sd c).now = s.now := by
  cases hcase : (s.clients c).pc <;> unfold State.clientStep <;> simp only [hcase]
  case idle => exact ⟨trivial, trivial⟩
  case findSocket i =>
    split
    · split <;> exact ⟨rfl, rfl⟩
    · exact ⟨rfl, rfl⟩
  case findFreeSocket i =>
    split
    · split <;> exact ⟨rfl, rfl⟩
    · exact ⟨rfl, rfl⟩
  case take k => split <;> exact ⟨rfl, rfl⟩
  case claim k => exact ⟨rfl, rfl⟩
  case give k => exact ⟨rfl, rfl⟩
  case reset k => exact ⟨rfl, rfl⟩
  case send k => split <;> exact ⟨rfl, rfl⟩
  case notify k => exact ⟨rfl, rfl⟩
  case recieve k => split <;> exact ⟨rfl, rfl⟩
  case unreachable => exact ⟨trivial, trivial⟩

/-- A client that goes on without sending a request or taking a response. -/
theorem Timing.move (h : Timing sd t) {pc : Client.Pc} {mutex notified : Bool}
    (hbefore : (t.state.clients c).pc ≠ .idle)
    (hwaits : pc.waits = (t.state.clients c).pc.waits) (d : ι) :
    Timed { t with state := { t.state.goto c pc with mutex := mutex, notified := notified } } d := by
  by_cases hdc : d = c
  · subst hdc
    obtain ⟨hcomputed, hfresh, hwaiting⟩ := h.timed d
    have hself : (t.state.goto d pc).clients d = { t.state.clients d with pc := pc } :=
      State.setClient_self
    refine ⟨?_, ?_, ?_⟩
    · intro _
      show _ = _ + ((t.state.goto d pc).clients d).deadline_ms
      rw [hself]
      exact hcomputed hbefore
    · intro hpresent
      show ((t.state.goto d pc).clients d).pc = .idle ∨ ((t.state.goto d pc).clients d).pc.waits ≠ none
      rw [hself]
      right
      show pc.waits ≠ none
      rw [hwaits]
      exact (hfresh hpresent).resolve_left hbefore
    · intro k hk
      have hk : ((t.state.goto d pc).clients d).pc.waits = some k := hk
      show Waiting _ _ _ ((t.state.goto d pc).clients d).deadline_ms _ _ _ _
      rw [hself] at hk ⊢
      exact hwaiting k (hwaits.symm.trans hk)
  · refine (h.timed d).frame ?_ (fun _ _ => rfl) rfl rfl rfl rfl rfl (Nat.le_refl _)
    exact State.setClient_other hdc

/-- A client that stores to the slot that it holds. -/
theorem Timing.work (h : Timing sd t) {k : Index} {x : connectionManagerElement} {y : Client}
    (halone : ∀ d, d ≠ c → (t.state.clients d).pc.holds ≠ some k)
    (hself : Timed { t with state := (t.state.setSlot k x).setClient c y } c) (d : ι) :
    Timed { t with state := (t.state.setSlot k x).setClient c y } d := by
  by_cases hdc : d = c
  · rwa [hdc]
  · refine (h.timed d).frame ?_ ?_ rfl rfl rfl rfl rfl (Nat.le_refl _)
    · exact State.setClient_other hdc
    · intro j hj
      have hjk : j ≠ k := by
        rintro rfl
        exact halone d hdc (Client.Pc.waits_holds hj)
      exact State.setSlot_other hjk

/-- A client that stores to its slot before it has sent its request. -/
theorem Timing.prepare (h : Timing sd t) {k : Index} {x : connectionManagerElement}
    {pc : Client.Pc} (hbefore : (t.state.clients c).pc ≠ .idle)
    (hwaits : (t.state.clients c).pc.waits = none) (hafter : pc.waits = none)
    (halone : ∀ d, d ≠ c → (t.state.clients d).pc.holds ≠ some k) (d : ι) :
    Timed { t with state := (t.state.setSlot k x).goto c pc } d := by
  apply h.work halone
  obtain ⟨hcomputed, hfresh, -⟩ := h.timed c
  have hself : ((t.state.setSlot k x).goto c pc).clients c = { t.state.clients c with pc := pc } :=
    State.setClient_self
  refine ⟨?_, ?_, ?_⟩
  · intro _
    show _ = _ + (((t.state.setSlot k x).goto c pc).clients c).deadline_ms
    rw [hself]
    exact hcomputed hbefore
  · intro hpresent
    exact absurd hwaits ((hfresh hpresent).resolve_left hbefore)
  · intro j hj
    have hj : (((t.state.setSlot k x).goto c pc).clients c).pc.waits = some j := hj
    rw [hself] at hj
    exact absurd (hafter.symm.trans hj) (by simp)

/-- The request that is sent holds the deadline of the client. -/
theorem Timing.send (h : Timing sd t) {k : Index} (hpc : (t.state.clients c).pc = .send k) (d : ι) :
    Timed { t with state := t.state.clientStep sd c } d := by
  have hholds : (t.state.clients c).pc.holds = some k := by rw [hpc]; rfl
  have hwaits : (t.state.clients c).pc.waits = none := by rw [hpc]; rfl
  have halone := (h.inv.holding hholds).1
  have hnone : t.state.tokens k = 0 := h.inv.no_tokens halone (by rw [hwaits]; simp)
  unfold State.tokens connectionManagerElement.tokens at hnone
  have hdeadline : (t.state.slots k).rx_wait_deadline_ms = 0 := by
    by_contra hne
    rw [if_neg hne] at hnone
    omega
  have hsignal : (t.state.slots k).rx_signal = none := by
    by_contra hsome
    rw [if_neg hsome] at hnone
    omega
  have hanswers : t.state.select.pc ≠ .timeout k := by
    intro htimeout
    have hanswers : (Select.Pc.timeout k).answers = some k := rfl
    rw [htimeout, if_pos hanswers] at hnone
    omega
  have hidle : (t.state.clients c).pc ≠ .idle := by rw [hpc]; simp
  obtain ⟨hcomputed, hfresh, -⟩ := h.timed c
  have hpresent : t.present c ≠ true := fun hpresent =>
    absurd hwaits ((hfresh hpresent).resolve_left hidle)
  unfold State.clientStep
  simp only [hpc]
  split
  · exact h.timed d
  · apply h.work halone
    refine ⟨?_, fun htrue => absurd htrue hpresent, ?_⟩
    · intro _
      show _ = _ + ((State.goto _ c (.notify k)).clients c).deadline_ms
      unfold State.goto
      rw [State.setClient_self]
      exact hcomputed hidle
    · intro j hj
      have hj : ((State.goto (t.state.setSlot k _) c (.notify k)).clients c).pc.waits = some j := hj
      unfold State.goto at hj
      rw [State.setClient_self] at hj
      cases hj
      show Waiting _ k ((t.state.setSlot k _).slots k)
        ((State.goto _ c (.notify k)).clients c).deadline_ms _ _ _ _
      unfold State.goto
      rw [State.setClient_self, State.setSlot_self]
      refine ⟨?_, ?_, ?_, fun htrue => absurd htrue hpresent, fun htrue => absurd htrue hpresent⟩
      · intro deadline heq
        exact (Option.some.inj heq).symm
      · exact fun hne => absurd hdeadline hne
      · rintro (htimeout | ⟨r, hr, -⟩)
        · exact absurd htimeout hanswers
        · exact absurd (hsignal.symm.trans hr) (by simp)

/-- **A step of a client.** -/
theorem Timing.client_timed (h : Timing sd t) (hclaims : t.state.Claims c) (d : ι) :
    Timed { t with state := t.state.clientStep sd c } d := by
  have hmove {pc : Client.Pc} {mutex notified : Bool} (hbefore : (t.state.clients c).pc ≠ .idle)
      (hwaits : pc.waits = (t.state.clients c).pc.waits) :
      Timed { t with state :=
        { t.state.goto c pc with mutex := mutex, notified := notified } } d :=
    h.move hbefore hwaits d
  cases hpc : (t.state.clients c).pc with
  | idle =>
    unfold State.clientStep
    simp only [hpc]
    exact h.timed d
  | findSocket i =>
    unfold State.clientStep
    simp only [hpc]
    split
    · split
      · exact hmove (by rw [hpc]; simp) (by rw [hpc]; rfl)
      · exact hmove (by rw [hpc]; simp) (by rw [hpc]; rfl)
    · exact hmove (by rw [hpc]; simp) (by rw [hpc]; rfl)
  | findFreeSocket i =>
    unfold State.clientStep
    simp only [hpc]
    split
    · split
      · exact hmove (by rw [hpc]; simp) (by rw [hpc]; rfl)
      · exact hmove (by rw [hpc]; simp) (by rw [hpc]; rfl)
    · exact hmove (by rw [hpc]; simp) (by rw [hpc]; rfl)
  | take k =>
    unfold State.clientStep
    simp only [hpc]
    split
    · exact h.timed d
    · exact hmove (by rw [hpc]; simp) (by rw [hpc]; rfl)
  | claim k =>
    unfold State.clientStep
    simp only [hpc]
    exact h.prepare (by rw [hpc]; simp) (by rw [hpc]; rfl) rfl (hclaims.1 k hpc).2 d
  | give k =>
    unfold State.clientStep
    simp only [hpc]
    exact hmove (by rw [hpc]; simp) (by rw [hpc]; rfl)
  | reset k =>
    unfold State.clientStep
    simp only [hpc]
    have hholds : (t.state.clients c).pc.holds = some k := by rw [hpc]; rfl
    exact h.prepare (by rw [hpc]; simp) (by rw [hpc]; rfl) rfl (h.inv.holding hholds).1 d
  | send k => exact h.send hpc d
  | notify k =>
    unfold State.clientStep
    simp only [hpc]
    exact hmove (by rw [hpc]; simp) (by rw [hpc]; rfl)
  | recieve k =>
    have hholds : (t.state.clients c).pc.holds = some k := by rw [hpc]; rfl
    unfold State.clientStep
    simp only [hpc]
    split
    · exact h.timed d
    · apply h.work (h.inv.holding hholds).1
      apply Timed.of_idle
      exact congrArg Client.pc State.setClient_self
  | unreachable => exact absurd hpc (h.inv.found c)

theorem Timing.client (h : Timing sd t) (hinj : Function.Injective sd)
    (hclaims : t.state.Claims c) : Timing sd { t with state := t.state.clientStep sd c } where
  overflowed := h.overflowed
  inv := h.inv.client hinj c hclaims
  clock := by
    obtain ⟨hselect, hnow⟩ := clientStep_frame sd t.state c
    unfold time
    rw [hselect, hnow]
    exact h.clock
  timed := h.client_timed hclaims

/-! ### Calls and ticks -/

theorem Timing.call (h : Timing sd t) {timeout_s : Nat} (hidle : (t.state.clients c).pc = .idle)
    (hsum : t.state.now + timeout_s * 1024 ≠ 0) (hfits : t.state.now + timeout_s * 1024 < 2 ^ 32) :
    Timing sd { t with
      state := t.state.call c timeout_s
      asked := Function.update t.asked c t.time
      timeout_s := Function.update t.timeout_s c timeout_s
      present := Function.update t.present c false } := by
  have hinv := h.inv.call hidle hsum hfits
  have hcall : t.state.call c timeout_s = t.state.setClient c { t.state.clients c with
      pc := .findSocket 0, deadline_ms := t.state.now + timeout_s * 1024 } := if_pos hfits
  rw [hcall] at hinv ⊢
  refine ⟨h.overflowed, hinv, h.clock, ?_⟩
  intro d
  by_cases hdc : d = c
  · subst hdc
    refine ⟨?_, ?_, ?_⟩
    · intro _
      show Function.update t.asked d t.time d + Function.update t.timeout_s d timeout_s d * 1024 =
        t.epoch * 2 ^ 32 + ((t.state.setClient d _).clients d).deadline_ms
      rw [Function.update_self, Function.update_self, State.setClient_self]
      exact Nat.add_assoc ..
    · intro hpresent
      have hpresent : Function.update t.present d false d = true := hpresent
      rw [Function.update_self] at hpresent
      cases hpresent
    · intro k hk
      have hk : ((t.state.setClient d _).clients d).pc.waits = some k := hk
      rw [State.setClient_self] at hk
      cases hk
  · refine (h.timed d).frame ?_ (fun _ _ => rfl) rfl rfl ?_ rfl ?_ (Nat.le_refl _)
    · exact State.setClient_other hdc
    · show Function.update t.asked c t.time d + Function.update t.timeout_s c timeout_s d * 1024 =
        t.asked d + t.timeout_s d * 1024
      rw [Function.update_of_ne hdc, Function.update_of_ne hdc]
    · exact Function.update_of_ne hdc ..

omit [DecidableEq ι] in
theorem Timing.tick (h : Timing sd t) (hwrap : t.state.now + 1 < 2 ^ 32 ∨
    (∀ c, (t.state.clients c).pc = .idle) ∧ t.state.select.pc.scans = false) :
    Timing sd { t with
      state := { t.state with now := (t.state.now + 1) % 2 ^ 32 }
      epoch := t.epoch + (t.state.now + 1) / 2 ^ 32 } := by
  have hinv : State.Inv sd { t.state with now := (t.state.now + 1) % 2 ^ 32 } :=
    { h.inv with }
  obtain hlt | ⟨hidle, hscans⟩ := hwrap
  · have hepoch : t.epoch + (t.state.now + 1) / 2 ^ 32 = t.epoch := by
      rw [Nat.div_eq_of_lt hlt, Nat.add_zero]
    rw [hepoch]
    have hlater : t.time ≤ time { t with
        state := { t.state with now := (t.state.now + 1) % 2 ^ 32 } } := by
      show t.epoch * 2 ^ 32 + t.state.now ≤ t.epoch * 2 ^ 32 + (t.state.now + 1) % 2 ^ 32
      rw [Nat.mod_eq_of_lt hlt]
      omega
    refine ⟨h.overflowed, hinv, ?_, ?_⟩
    · intro hscans
      obtain ⟨hpass, hle⟩ := h.clock hscans
      exact ⟨hpass, hle.trans hlater⟩
    · intro c
      exact (h.timed c).frame rfl (fun _ _ => rfl) rfl rfl rfl rfl rfl hlater
  · refine ⟨h.overflowed, hinv, ?_, ?_⟩
    · intro hin
      exact absurd (hscans.symm.trans hin) Bool.false_ne_true
    · exact fun c => .of_idle (hidle c)

/-- **Every step of a regular run keeps the times right.** -/
theorem Timing.step (h : Timing sd t) (hinj : Function.Injective sd) {i : Input ι}
    (henabled : t.Enabled i) (hundisturbed : t.state.Undisturbed i) (hregular : t.Regular i) :
    Timing sd (t.next sd i) := by
  cases i with
  | call c timeout_s =>
    have hfits : t.state.now + timeout_s * 1024 < 2 ^ 32 := hregular
    unfold next
    dsimp only
    rw [if_pos hfits]
    exact h.call henabled hundisturbed.1 hfits
  | client c => exact h.client hinj hundisturbed
  | select res ready =>
    have hinv := h.inv.select hundisturbed res ready
    unfold next
    dsimp only
    split
    · rename_i hpc
      have hstep : t.state.selectStep res ready =
          { t.state with select := ⟨.scan 0, [], -1, 0, t.state.now⟩ } := by
        unfold State.selectStep
        rw [hpc]
      rw [hstep] at hinv ⊢
      exact h.begins rfl rfl hinv
    · rename_i hpc
      exact h.select hinv (selectStep_leaves t.state res ready hpc) (h.goes hpc res ready)
  | tick => exact h.tick hregular

end Clocked

open Clocked in
/-- **Every regular run is on time**: no step takes a slot away from a client, no sum overflows or
is zero, and the tick counter does not wrap under a call or a pass of the select task. -/
theorem onTime_of_regular [DecidableEq ι] (hinj : Function.Injective sd) (start : Nat)
    {t : Clocked ι}
    (h : (clocked sd).Reaches (fun t i => t.state.Undisturbed i ∧ t.Regular i)
      (Clocked.initial start) t) : t.OnTime := by
  have htiming : Timing sd t := by
    apply h.invariant (Timing.initial start)
    intro t i htiming henabled hcondition
    exact htiming.step hinj henabled hcondition.1 hcondition.2
  exact htiming.onTime

end Runs

/-! ## Runs -/

instance [Fintype ι] (t : Clocked ι) : ∀ i, Decidable (t.Regular i)
  | .call _ _ => inferInstanceAs (Decidable (_ < _))
  | .client _ => inferInstanceAs (Decidable True)
  | .select _ _ => inferInstanceAs (Decidable True)
  | .tick => inferInstanceAs (Decidable (_ ∨ _ ∧ _))

/-- The socket of one client. -/
def socket (_ : Fin 1) : Nat := 3

/-- A client waits for a second; the select task makes a pass, and another one after the ticks. -/
def waiting (ticks : Nat) : List (Input (Fin 1)) :=
  .call 0 1 :: List.replicate 12 (.client 0) ++ List.replicate 11 (.select 0 []) ++
    List.replicate ticks .tick ++ List.replicate 9 (.select 0 [])

/-- The time of a client is out, and it is told so. -/
theorem onTime_of_regular_waiting : ((clocked socket).run (.initial 100)
    (waiting 1025 ++ [.select 0 []])).OnTime :=
  onTime_of_regular (by decide) 100 (System.reaches_run (by decide +kernel))

/-- Less than a second before the tick counter wraps, the deadline overflows; less than a second
later, the counter wraps under the wait, and the pass behind the deadline does not answer. -/
theorem deadline_wraps :
    (∃ t, (clocked socket).Reaches System.Free (.initial (2 ^ 32 - 1000)) t ∧
      t.overflowed = true ∧ ¬t.OnTime) ∧
    ∃ t, (clocked socket).Reaches System.Free (.initial (2 ^ 32 - 1100)) t ∧
      t.overflowed = false ∧ t.state.select.pc = .scanned ∧ t.expires 0 < t.pass ∧
      (t.state.slots 0).rx_signal = none ∧ ¬t.OnTime := by
  have hsilent : (((clocked socket).run (.initial (2 ^ 32 - 1100))
      (waiting 1110)).state.slots 0).rx_signal = none := by decide +kernel
  refine ⟨⟨(clocked socket).run (.initial (2 ^ 32 - 1000)) [.call 0 1],
    System.reaches_run (by decide +kernel), by decide +kernel, ?_⟩,
    (clocked socket).run (.initial (2 ^ 32 - 1100)) (waiting 1110),
    System.reaches_run (by decide +kernel), by decide +kernel, by decide +kernel,
    by decide +kernel, hsilent, ?_⟩
  · intro h
    exact absurd h.computed (by decide +kernel)
  · intro h
    obtain ⟨r, hr, -⟩ := h.first 0 0 (by decide +kernel) (by decide +kernel) (by decide +kernel)
      (by decide +kernel)
    exact absurd (hsilent.symm.trans hr) (by simp)

end Miso.Net.Mediator
