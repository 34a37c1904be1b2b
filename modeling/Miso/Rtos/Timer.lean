import Mathlib.Logic.Basic

/-!
# One-shot software timers (library)

The timers of a real-time kernel on a clock of ticks.  A timer that is started expires exactly
when its period has elapsed, unless it is stopped or started again before; it is dormant then.
Starting a timer with a period of zero is an assertion failure of the kernel, which hangs.

* `advance` — one tick; `due` — the timer expires at this tick;
* `stopActive_other`, `changePeriod_other` — an operation leaves the other timers alone.
-/

namespace Rtos

/-- A one-shot timer: its period and, while it is active, the tick at which it expires. -/
structure Timer where
  period : Nat
  expiry : Option Nat
  deriving DecidableEq, Repr

/-- The handle that `create` returns. -/
abbrev TimerHandle := Nat

/-- The kernel's clock and timers. -/
structure Timers where
  now : Nat
  timer : TimerHandle → Timer
  created : Nat
  hung : Bool

namespace Timers

variable (t : Timers) (h : TimerHandle)

/-- Set one timer. -/
def set (x : Timer) : Timers := { t with timer := fun k => if k = h then x else t.timer k }

/-- A new timer, which is dormant. -/
def create (period : Nat) : TimerHandle × Timers :=
  (t.created, { t.set t.created ⟨period, none⟩ with created := t.created + 1 })

def isActive : Bool := (t.timer h).expiry.isSome

def stop : Timers := t.set h { t.timer h with expiry := none }

/-- Stop the timer if it is active. -/
def stopActive : Timers := if t.isActive h then t.stop h else t

/-- Change the period and start the timer, as the kernel does also for a dormant one. -/
def changePeriod (period : Nat) : Timers :=
  if period = 0 then { t with hung := true } else t.set h ⟨period, some (t.now + period)⟩

def advance : Timers := { t with now := t.now + 1 }

/-- The timer expires at this tick. -/
def due : Bool := (t.timer h).expiry == some t.now

section Lemmas

variable {t h} {k : TimerHandle} {x : Timer} {period : Nat}

@[simp] theorem set_self : (t.set h x).timer h = x := by simp [set]
@[simp] theorem set_other (hk : k ≠ h) : (t.set h x).timer k = t.timer k := by simp [set, hk]
@[simp] theorem set_now : (t.set h x).now = t.now := rfl
@[simp] theorem set_hung : (t.set h x).hung = t.hung := rfl

@[simp] theorem stop_self : ((t.stop h).timer h).expiry = none := by simp [stop]
@[simp] theorem stop_other (hk : k ≠ h) : (t.stop h).timer k = t.timer k := set_other hk
@[simp] theorem stop_now : (t.stop h).now = t.now := rfl
@[simp] theorem stop_hung : (t.stop h).hung = t.hung := rfl

@[simp] theorem changePeriod_self (hp : 0 < period) :
    (t.changePeriod h period).timer h = ⟨period, some (t.now + period)⟩ := by
  unfold changePeriod
  rw [if_neg (by omega), set_self]

@[simp] theorem changePeriod_other (hk : k ≠ h) :
    (t.changePeriod h period).timer k = t.timer k := by
  unfold changePeriod
  split
  · rfl
  · exact set_other hk

@[simp] theorem changePeriod_now : (t.changePeriod h period).now = t.now := by
  unfold changePeriod
  split <;> rfl

@[simp] theorem changePeriod_zero : (t.changePeriod h 0).hung = true := rfl

@[simp] theorem changePeriod_hung (hp : 0 < period) :
    (t.changePeriod h period).hung = t.hung := by
  unfold changePeriod
  rw [if_neg (by omega), set_hung]

/-- **Stopping an active timer** leaves it dormant, whatever it was. -/
@[simp] theorem stopActive_self : ((t.stopActive h).timer h).expiry = none := by
  unfold stopActive
  split
  · exact stop_self
  · rename_i hdormant
    unfold isActive at hdormant
    simpa using hdormant

@[simp] theorem stopActive_other (hk : k ≠ h) : (t.stopActive h).timer k = t.timer k := by
  unfold stopActive
  split
  · exact stop_other hk
  · rfl

@[simp] theorem stopActive_now : (t.stopActive h).now = t.now := by
  unfold stopActive
  split <;> rfl

@[simp] theorem stopActive_hung : (t.stopActive h).hung = t.hung := by
  unfold stopActive
  split <;> rfl

end Lemmas

end Timers

end Rtos
