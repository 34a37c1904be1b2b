import Mathlib.Tactic.SplitIfs
import Miso.Rtos.Timer
import Miso.Zig.System

/-!
# The timer callbacks of mbedTLS (`mbedtls_adapter/timing.c`)

`miso_mbedtls_timing_set_delay` arms an intermediate and a final one-shot timer, whose callback
writes the state word that `miso_mbedtls_timing_get_delay` returns.

* `Watched` — the device with the delays of the last call and the time since;
* `Watching.inv` — what every run of calls and ticks keeps;
* `get_delay_iff` — for every run, when the returned value is the one that mbedTLS expects: the
  final timer is armed with the intermediate delay.
-/

namespace Miso.Net.Timing

open Zig Rtos

def timer_cancelled : Int := -1
def timer_normal : Int := 0
def timer_intermediate_passed : Int := 1
def timer_final_delay_passed : Int := 2

/-- `miso_mbedtls_timing_delay_t`. -/
structure miso_mbedtls_timing_delay_t where
  int_timer : TimerHandle
  fin_timer : TimerHandle
  state : Int

/-- The kernel's timers and the context they have as their identifier. -/
structure World where
  timers : Timers
  data : miso_mbedtls_timing_delay_t

namespace World

def withState (w : World) (state : Int) : World := { w with data := { w.data with state := state } }

def timer_callback (w : World) (xTimer : TimerHandle) : World :=
  if xTimer = w.data.int_timer then w.withState timer_intermediate_passed
  else if xTimer = w.data.fin_timer then w.withState timer_final_delay_passed
  else w.withState timer_cancelled

def miso_mbedtls_init_timer (w : World) : World :=
  let (int_timer, timers) := w.timers.create 1000
  let (fin_timer, timers) := timers.create 1000
  { timers, data := { w.data with int_timer, fin_timer } }

/-- `xTimerStop`, if the timer is active. -/
def stopActive (w : World) (h : TimerHandle) : World :=
  { w with timers := w.timers.stopActive h }

/-- `xTimerChangePeriod`. -/
def changePeriod (w : World) (h : TimerHandle) (period : Nat) : World :=
  { w with timers := w.timers.changePeriod h period }

/-- `miso_mbedtls_timing_set_delay`; the final timer gets the intermediate delay. -/
def miso_mbedtls_timing_set_delay (w : World) (int_ms fin_ms : Nat) : World :=
  let w := w.stopActive w.data.int_timer
  let w := w.stopActive w.data.fin_timer
  let w := if int_ms > 0 then w.changePeriod w.data.int_timer int_ms else w
  let w := if fin_ms > 0 then w.changePeriod w.data.fin_timer int_ms else w
  if fin_ms = 0 then w.withState timer_cancelled else w.withState timer_normal

/-- `miso_mbedtls_timing_get_delay`; it does not return on a device that hangs. -/
def miso_mbedtls_timing_get_delay (w : World) : Option Int :=
  if w.timers.hung then none else some w.data.state

/-- The kernel calls back if the timer is due; a one-shot timer is dormant then. -/
def expire (w : World) (h : TimerHandle) : World :=
  if w.timers.due h then { w with timers := w.timers.stop h }.timer_callback h else w

/-- One tick; timers that are due at the same tick call back in either order. -/
def tick (w : World) (fin_first : Bool) : World :=
  let w := { w with timers := w.timers.advance }
  if fin_first then (w.expire w.data.fin_timer).expire w.data.int_timer
  else (w.expire w.data.int_timer).expire w.data.fin_timer

end World

/-! ## Runs -/

/-- The device with the last call of `set_delay`, the ticks since then and the order of the
    callbacks at the tick at which the intermediate delay had elapsed. -/
structure Watched where
  world : World
  call : Option (Nat × Nat)
  elapsed : Nat
  fin_first : Bool

inductive Input where
  | set_delay (int_ms fin_ms : Nat)
  | tick (fin_first : Bool)

namespace Watched

def next (s : Watched) : Input → Watched
  | .set_delay int_ms fin_ms =>
    ⟨s.world.miso_mbedtls_timing_set_delay int_ms fin_ms, some (int_ms, fin_ms), 0, false⟩
  | .tick fin_first =>
    ⟨s.world.tick fin_first, s.call, s.elapsed + 1,
      if s.call.map Prod.fst = some (s.elapsed + 1) then fin_first else s.fin_first⟩

theorem next_tick (s : Watched) (fin_first : Bool) : s.next (.tick fin_first) =
    ⟨s.world.tick fin_first, s.call, s.elapsed + 1,
      if s.call.map Prod.fst = some (s.elapsed + 1) then fin_first else s.fin_first⟩ := rfl

/-- A device that hangs does nothing more; a caller sets an intermediate delay that is not
    longer than the final one. -/
def Enabled (s : Watched) : Input → Prop
  | .set_delay int_ms fin_ms => s.world.timers.hung = false ∧ int_ms ≤ fin_ms
  | .tick _ => s.world.timers.hung = false

instance (s : Watched) (i : Input) : Decidable (s.Enabled i) := by
  cases i with
  | set_delay int_ms fin_ms =>
    exact inferInstanceAs (Decidable (s.world.timers.hung = false ∧ int_ms ≤ fin_ms))
  | tick fin_first => exact inferInstanceAs (Decidable (s.world.timers.hung = false))

end Watched

/-- Calls of `set_delay` and the passage of time. -/
def watching : System Watched Input where
  Enabled := Watched.Enabled
  next := Watched.next

instance (s : Watched) (i : Input) : Decidable (watching.Enabled s i) :=
  inferInstanceAs (Decidable (s.Enabled i))

/-- A device on which the timers have just been created. -/
def Watched.start (w : World) : Watched := ⟨w.miso_mbedtls_init_timer, none, 0, false⟩

/-- What mbedTLS expects of `get_delay` when `elapsed` ticks have passed since the call. -/
def expected (int_ms fin_ms elapsed : Nat) : Int :=
  if fin_ms = 0 then -1
  else if fin_ms ≤ elapsed then 2
  else if int_ms ≤ elapsed then 1
  else 0

/-! ## What the calls and the ticks do -/

namespace World

/-- The two timers have different handles. -/
def Distinct (w : World) : Prop := w.data.int_timer ≠ w.data.fin_timer

/-- Neither timer is active. -/
def Dormant (w : World) : Prop :=
  (w.timers.timer w.data.int_timer).expiry = none ∧ (w.timers.timer w.data.fin_timer).expiry = none

/-- Both timers expire at the tick `at_`. -/
def Armed (w : World) (at_ : Nat) : Prop :=
  (w.timers.timer w.data.int_timer).expiry = some at_ ∧
    (w.timers.timer w.data.fin_timer).expiry = some at_

/-- The context and the clock after a call or a tick. -/
structure Leaves (w : World) (state : Int) (now : Nat) (w' : World) : Prop where
  data : w'.data = { w.data with state := state }
  now : w'.timers.now = now
  hung : w'.timers.hung = w.timers.hung

theorem Leaves.state {w w' : World} {state : Int} {now : Nat} (h : w.Leaves state now w') :
    w'.data.state = state := by
  rw [h.data]

theorem Leaves.distinct {w w' : World} {state : Int} {now : Nat} (h : w.Leaves state now w')
    (hne : w.Distinct) : w'.Distinct := by
  unfold Distinct at *
  rw [h.data]
  exact hne

variable {w : World} {int_ms fin_ms : Nat}

theorem init_dormant (w : World) : w.miso_mbedtls_init_timer.Distinct ∧
    w.miso_mbedtls_init_timer.Dormant ∧
    w.miso_mbedtls_init_timer.timers.hung = w.timers.hung := by
  refine ⟨?_, ⟨?_, ?_⟩, rfl⟩
  · simp [Distinct, miso_mbedtls_init_timer, Timers.create]
  · simp [miso_mbedtls_init_timer, Timers.create, Timers.set]
  · simp [miso_mbedtls_init_timer, Timers.create, Timers.set]

/-- The timers when `set_delay` has stopped them. -/
def stopped (w : World) : Timers :=
  (w.timers.stopActive w.data.int_timer).stopActive w.data.fin_timer

theorem stopped_dormant (hne : w.Distinct) :
    (w.stopped.timer w.data.int_timer).expiry = none ∧
      (w.stopped.timer w.data.fin_timer).expiry = none := by
  unfold stopped
  constructor
  · rw [Timers.stopActive_other hne, Timers.stopActive_self]
  · exact Timers.stopActive_self

/-- `set_delay(0, 0)` cancels. -/
theorem set_delay_cancels (hne : w.Distinct) :
    (w.miso_mbedtls_timing_set_delay 0 0).Dormant ∧
      Leaves w timer_cancelled w.timers.now (w.miso_mbedtls_timing_set_delay 0 0) := by
  have hdormant := stopped_dormant hne
  refine ⟨hdormant, rfl, ?_, ?_⟩
  · simp [miso_mbedtls_timing_set_delay, stopActive, withState]
  · simp [miso_mbedtls_timing_set_delay, stopActive, withState]

/-- Without an intermediate delay the final timer is started with a period of zero. -/
theorem set_delay_hangs (hfin : 0 < fin_ms) :
    (w.miso_mbedtls_timing_set_delay 0 fin_ms).timers.hung = true := by
  unfold miso_mbedtls_timing_set_delay
  simp [hfin, Nat.ne_of_gt hfin, stopActive, changePeriod, withState]

theorem set_delay_distinct (hne : w.Distinct) :
    (w.miso_mbedtls_timing_set_delay int_ms fin_ms).Distinct := by
  simp only [miso_mbedtls_timing_set_delay, stopActive, changePeriod, withState]
  split_ifs <;> exact hne

/-- **`set_delay` arms both timers with the intermediate delay.** -/
theorem set_delay_arms (hne : w.Distinct) (hint : 0 < int_ms) (hfin : 0 < fin_ms) :
    (w.miso_mbedtls_timing_set_delay int_ms fin_ms).Armed (w.timers.now + int_ms) ∧
      Leaves w timer_normal w.timers.now (w.miso_mbedtls_timing_set_delay int_ms fin_ms) := by
  have hne' : w.data.int_timer ≠ w.data.fin_timer := hne
  unfold miso_mbedtls_timing_set_delay Armed
  simp only [hint, hfin, Nat.ne_of_gt hfin, if_true, if_false, stopActive, changePeriod, withState]
  refine ⟨⟨?_, ?_⟩, rfl, ?_, ?_⟩
  · simp [hne', hint]
  · simp [hint]
  · simp
  · simp [hint]

/-- A timer that is not due does not call back. -/
theorem expire_idle {h : TimerHandle} (hdue : (w.timers.timer h).expiry ≠ some w.timers.now) :
    w.expire h = w := by
  unfold expire Timers.due
  rw [if_neg (by simpa using hdue)]

/-- A tick at which neither timer is due. -/
theorem tick_idle {fin_first : Bool}
    (hint : (w.timers.timer w.data.int_timer).expiry ≠ some (w.timers.now + 1))
    (hfin : (w.timers.timer w.data.fin_timer).expiry ≠ some (w.timers.now + 1)) :
    w.tick fin_first = { w with timers := w.timers.advance } := by
  unfold tick
  cases fin_first with
  | false =>
    simp only [Bool.false_eq_true, if_false]
    rw [expire_idle (w := { w with timers := w.timers.advance }) hint]
    exact expire_idle (w := { w with timers := w.timers.advance }) hfin
  | true =>
    simp only [if_true]
    rw [expire_idle (w := { w with timers := w.timers.advance }) hfin]
    exact expire_idle (w := { w with timers := w.timers.advance }) hint

/-- **The tick at which both timers are due**: the state is what the second callback writes. -/
theorem tick_due (hne : w.Distinct) (harmed : w.Armed (w.timers.now + 1)) (fin_first : Bool) :
    (w.tick fin_first).Dormant ∧
      Leaves w (if fin_first then timer_intermediate_passed else timer_final_delay_passed)
        (w.timers.now + 1) (w.tick fin_first) := by
  obtain ⟨hint, hfin⟩ := harmed
  have hne₁ : w.data.int_timer ≠ w.data.fin_timer := hne
  have hne₂ := hne₁.symm
  cases fin_first with
  | false =>
    simp [tick, expire, Timers.due, Timers.advance, Timers.stop, timer_callback, withState, hint,
      hfin, hne₁, hne₂, Dormant]
    exact ⟨rfl, rfl, rfl⟩
  | true =>
    simp [tick, expire, Timers.due, Timers.advance, Timers.stop, timer_callback, withState, hint,
      hfin, hne₁, hne₂, Dormant]
    exact ⟨rfl, rfl, rfl⟩

end World

/-! ## The invariant -/

/-- The phases of a run since the last call. -/
inductive Watching (s : Watched) : Prop where
  | idle (hcall : s.call = none) (hdormant : s.world.Dormant)
  | cancelled (hcall : s.call = some (0, 0)) (hdormant : s.world.Dormant)
      (hstate : s.world.data.state = timer_cancelled)
  | stuck (fin_ms : Nat) (hcall : s.call = some (0, fin_ms)) (hfin : 0 < fin_ms)
      (hhung : s.world.timers.hung = true)
  | running (int_ms fin_ms : Nat) (hcall : s.call = some (int_ms, fin_ms)) (hle : int_ms ≤ fin_ms)
      (hlt : s.elapsed < int_ms) (hstate : s.world.data.state = timer_normal)
      (harmed : s.world.Armed (s.world.timers.now + (int_ms - s.elapsed)))
  | expired (int_ms fin_ms : Nat) (hcall : s.call = some (int_ms, fin_ms)) (hle : int_ms ≤ fin_ms)
      (hint : 0 < int_ms) (hpast : int_ms ≤ s.elapsed) (hdormant : s.world.Dormant)
      (hstate : s.world.data.state =
        if s.fin_first then timer_intermediate_passed else timer_final_delay_passed)

/-- The handles stay distinct, and only a call without an intermediate delay hangs. -/
structure Watching.Inv (s : Watched) : Prop where
  distinct : s.world.Distinct
  hung : s.world.timers.hung = true → ∃ fin_ms, s.call = some (0, fin_ms) ∧ 0 < fin_ms
  phase : Watching s

namespace Watching

variable {s : Watched}

/-- A call of `set_delay`. -/
theorem set_delay (hi : Inv s) {int_ms fin_ms : Nat} (hhung : s.world.timers.hung = false)
    (hle : int_ms ≤ fin_ms) : Inv (s.next (.set_delay int_ms fin_ms)) := by
  have hne := hi.distinct
  by_cases hint : 0 < int_ms
  · obtain ⟨harmed, hleaves⟩ := World.set_delay_arms hne hint (Nat.lt_of_lt_of_le hint hle)
    refine ⟨hleaves.distinct hne, ?_, ?_⟩
    · intro h
      have hrunning := hleaves.hung.trans hhung
      exact absurd (h.symm.trans hrunning) nofun
    · refine .running int_ms fin_ms rfl hle hint hleaves.state ?_
      show World.Armed _ ((s.world.miso_mbedtls_timing_set_delay int_ms fin_ms).timers.now + int_ms)
      rw [hleaves.now]
      exact harmed
  · obtain rfl : int_ms = 0 := by omega
    by_cases hfin : 0 < fin_ms
    · have hstuck := World.set_delay_hangs (w := s.world) hfin
      exact ⟨World.set_delay_distinct hne, fun _ => ⟨fin_ms, rfl, hfin⟩,
        .stuck fin_ms rfl hfin hstuck⟩
    · obtain rfl : fin_ms = 0 := by omega
      obtain ⟨hdormant, hleaves⟩ := World.set_delay_cancels hne
      refine ⟨hleaves.distinct hne, ?_, .cancelled rfl hdormant hleaves.state⟩
      intro h
      have hrunning := hleaves.hung.trans hhung
      exact absurd (h.symm.trans hrunning) nofun

/-- A tick. -/
theorem tick (hi : Inv s) (hhung : s.world.timers.hung = false) (fin_first : Bool) :
    Inv (s.next (.tick fin_first)) := by
  obtain ⟨hne, -, hphase⟩ := hi
  have hidle (hdormant : s.world.Dormant) :
      s.world.tick fin_first = { s.world with timers := s.world.timers.advance } := by
    apply World.tick_idle
    · rw [hdormant.1]
      exact nofun
    · rw [hdormant.2]
      exact nofun
  have hawake : ¬ s.world.timers.advance.hung = true := by
    show ¬ s.world.timers.hung = true
    rw [hhung]
    exact nofun
  cases hphase with
  | idle hcall hdormant =>
    rw [Watched.next_tick, hidle hdormant]
    exact ⟨hne, fun h => absurd h hawake, .idle hcall hdormant⟩
  | cancelled hcall hdormant hstate =>
    rw [Watched.next_tick, hidle hdormant]
    exact ⟨hne, fun h => absurd h hawake, .cancelled hcall hdormant hstate⟩
  | stuck fin_ms hcall hfin hstuck => exact absurd (hstuck.symm.trans hhung) nofun
  | expired int_ms fin_ms hcall hle hint hpast hdormant hstate =>
    rw [Watched.next_tick, hidle hdormant]
    refine ⟨hne, fun h => absurd h hawake, .expired int_ms fin_ms hcall hle hint ?_ hdormant ?_⟩
    · exact Nat.le_succ_of_le hpast
    · have hlater : int_ms ≠ s.elapsed + 1 := by omega
      simp only [hcall, Option.map_some, Option.some.injEq, hlater, if_false]
      exact hstate
  | running int_ms fin_ms hcall hle hlt hstate harmed =>
    by_cases hdue : s.elapsed + 1 = int_ms
    · have hat : s.world.timers.now + (int_ms - s.elapsed) = s.world.timers.now + 1 := by omega
      rw [hat] at harmed
      obtain ⟨hdormant, hleaves⟩ := World.tick_due hne harmed fin_first
      refine ⟨hleaves.distinct hne, ?_, ?_⟩
      · intro h
        have hrunning := hleaves.hung.trans hhung
        exact absurd (h.symm.trans hrunning) nofun
      · refine .expired int_ms fin_ms hcall hle (by omega) (Nat.le_of_eq hdue.symm) hdormant ?_
        simp only [Watched.next, hcall, Option.map_some, hdue, if_true]
        exact hleaves.state
    · have hearly {h : TimerHandle} (hexpiry : (s.world.timers.timer h).expiry =
          some (s.world.timers.now + (int_ms - s.elapsed))) :
          (s.world.timers.timer h).expiry ≠ some (s.world.timers.now + 1) := by
        rw [hexpiry]
        intro heq
        have := Option.some.inj heq
        omega
      rw [Watched.next_tick, World.tick_idle (hearly harmed.1) (hearly harmed.2)]
      refine ⟨hne, fun h => absurd h hawake, .running int_ms fin_ms hcall hle ?_ hstate ?_⟩
      · show s.elapsed + 1 < int_ms
        omega
      · have hat : s.world.timers.now + 1 + (int_ms - (s.elapsed + 1)) =
            s.world.timers.now + (int_ms - s.elapsed) := by omega
        show s.world.Armed (s.world.timers.now + 1 + (int_ms - (s.elapsed + 1)))
        rw [hat]
        exact harmed

/-- **Every run keeps the invariant.** -/
theorem inv {w : World} (hw : w.timers.hung = false)
    (h : watching.Reaches System.Free (.start w) s) : Inv s := by
  apply h.invariant
  · obtain ⟨hne, hdormant, hhung⟩ := World.init_dormant w
    refine ⟨hne, ?_, .idle rfl hdormant⟩
    intro hstuck
    exact absurd (hstuck.symm.trans (hhung.trans hw)) nofun
  · intro s i hi henabled _
    cases i with
    | set_delay int_ms fin_ms => exact set_delay hi henabled.1 henabled.2
    | tick fin_first => exact tick hi henabled fin_first

end Watching

/-! ## When the callbacks keep their contract -/

/-- `get_delay` returns what mbedTLS expects. -/
def Watched.Kept (s : Watched) : Prop :=
  ∀ int_ms fin_ms, s.call = some (int_ms, fin_ms) →
    s.world.miso_mbedtls_timing_get_delay = some (expected int_ms fin_ms s.elapsed)

/-- The last call cancelled; or it had an intermediate delay that has not elapsed yet, or both
    delays have (with the final callback last), or only the first has (with the final callback
    first). -/
def Watched.Timely (s : Watched) : Prop :=
  ∀ int_ms fin_ms, s.call = some (int_ms, fin_ms) → fin_ms = 0 ∨ (0 < int_ms ∧
    (s.elapsed < int_ms ∨ if s.fin_first then s.elapsed < fin_ms else fin_ms ≤ s.elapsed))

theorem kept_iff {s : Watched} {int_ms fin_ms : Nat} (hcall : s.call = some (int_ms, fin_ms)) :
    s.Kept ↔ s.world.miso_mbedtls_timing_get_delay = some (expected int_ms fin_ms s.elapsed) := by
  simp [Watched.Kept, hcall]

theorem timely_iff {s : Watched} {int_ms fin_ms : Nat} (hcall : s.call = some (int_ms, fin_ms)) :
    s.Timely ↔ fin_ms = 0 ∨ (0 < int_ms ∧ (s.elapsed < int_ms ∨
      if s.fin_first then s.elapsed < fin_ms else fin_ms ≤ s.elapsed)) := by
  unfold Watched.Timely
  rw [hcall]
  constructor
  · intro h
    exact h int_ms fin_ms rfl
  · intro h _ _ heq
    cases heq
    exact h

/-- Between a call that does not hang and the next one, `get_delay` returns the state. -/
theorem Watching.Inv.get_delay {s : Watched} (hi : Watching.Inv s) {int_ms fin_ms : Nat}
    (hcall : s.call = some (int_ms, fin_ms)) (hawake : 0 < int_ms ∨ fin_ms = 0) :
    s.world.miso_mbedtls_timing_get_delay = some s.world.data.state := by
  unfold World.miso_mbedtls_timing_get_delay
  split
  · rename_i hhung
    obtain ⟨fin, hstuck, hfin⟩ := hi.hung hhung
    rw [hcall] at hstuck
    cases hstuck
    omega
  · rfl

/-- **The contract is kept exactly at the `Timely` moments of every run.** -/
theorem get_delay_iff (w : World) (hw : w.timers.hung = false) (s : Watched)
    (h : watching.Reaches System.Free (.start w) s) : s.Kept ↔ s.Timely := by
  have hi := Watching.inv hw h
  cases hi.phase with
  | idle hcall hdormant =>
    unfold Watched.Kept Watched.Timely
    rw [hcall]
    exact ⟨fun _ => nofun, fun _ => nofun⟩
  | cancelled hcall hdormant hstate =>
    rw [kept_iff hcall, timely_iff hcall, hi.get_delay hcall (.inr rfl), hstate]
    exact ⟨fun _ => .inl rfl, fun _ => rfl⟩
  | stuck fin_ms hcall hfin hstuck =>
    rw [kept_iff hcall, timely_iff hcall]
    unfold World.miso_mbedtls_timing_get_delay
    rw [if_pos hstuck]
    constructor
    · intro hkept
      cases hkept
    · intro htimely
      omega
  | running int_ms fin_ms hcall hle hlt hstate harmed =>
    rw [kept_iff hcall, timely_iff hcall, hi.get_delay hcall (.inl (by omega)), hstate]
    have hexpected : expected int_ms fin_ms s.elapsed = timer_normal := by
      unfold expected
      rw [if_neg (by omega), if_neg (by omega), if_neg (by omega)]
      rfl
    rw [hexpected]
    exact ⟨fun _ => .inr ⟨by omega, .inl hlt⟩, fun _ => rfl⟩
  | expired int_ms fin_ms hcall hle hint hpast hdormant hstate =>
    rw [kept_iff hcall, timely_iff hcall, hi.get_delay hcall (.inl hint), hstate]
    have hfin : fin_ms ≠ 0 := by omega
    have hlate : ¬ s.elapsed < int_ms := by omega
    simp only [expected, hfin, hlate, hint, hpast, if_false, if_true, false_or, true_and,
      Option.some.injEq]
    -- the second callback decides: 1 for the intermediate timer, 2 for the final one
    by_cases hover : fin_ms ≤ s.elapsed
    · cases s.fin_first <;>
        simp [hover, timer_intermediate_passed, timer_final_delay_passed, Nat.not_lt.mpr hover]
    · cases s.fin_first <;>
        simp [hover, timer_intermediate_passed, timer_final_delay_passed, Nat.lt_of_not_le hover]

/-- Timers that have not been created yet, at the start of the clock. -/
def World.fresh : World := ⟨⟨0, fun _ => ⟨0, none⟩, 0, false⟩, ⟨0, 0, 0⟩⟩

theorem get_delay_iff_fresh :
    (watching.run (.start .fresh) [.set_delay 2 3, .tick false]).Kept ↔
      (watching.run (.start .fresh) [.set_delay 2 3, .tick false]).Timely :=
  get_delay_iff .fresh rfl _ (System.reaches_run (by decide))

/-- One tick after `set_delay(1, 2)` the final delay is reported as passed. -/
theorem fin_timer_early :
    ∃ s, watching.Reaches System.Free (.start .fresh) s ∧ ¬ s.Kept := by
  refine ⟨_, System.reaches_run (l := [.set_delay 1 2, .tick false]) (by decide), ?_⟩
  intro hkept
  have hvalue := hkept 1 2 rfl
  revert hvalue
  decide

end Miso.Net.Timing
