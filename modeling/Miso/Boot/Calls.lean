import Miso.Boot.Device

/-!
# What the calls do

The rules by which the functions of the bootloader are verified, in two forms:

* `Reading w k` — a call that only reads ends with a value satisfying `k`, with an error of the
  environment or cut off, and has changed nothing since `w` (`Quiet`);
* `Schedule m calls x w` — from `w`, `m` makes the given calls one after the other, and the
  faults drawn for them (`survey`) decide how it ends: with `x` if none of them fails.

The first form is enough to reason about values; the second one says exactly which faults lead
to an error.
-/

namespace Miso.Boot

open Zig

/-! ## What the calls change -/

/-- Nothing but the position in the oracle has changed. -/
def Quiet (w w' : Device) : Prop := ∃ t, w' = { w with tick := t }

theorem quiet_frame : Frame Quiet where
  refl w := ⟨w.tick, rfl⟩
  trans := by
    rintro w₁ _ _ ⟨t, rfl⟩ ⟨t', rfl⟩
    exact ⟨t', rfl⟩

/-- Errors that come from the environment, not from `firmware_error`. -/
def Error.external : Error → Bool
  | .firmware_already_in_system | .firmware_candidate_not_valid | .hash_compare_mismatch
  | .flash_erase_error | .flash_write_error | .flash_firmware_size_error => false
  | _ => true

@[simp] theorem FRESULT.check_external (r : FRESULT) : r.check.external = true := by
  cases r <;> rfl

/-- The specification of a call that only reads: `k` of the value, otherwise an error of the
    environment or a cut-off, and nothing has changed since `w`. -/
abbrev Reading {α : Type} (w : Device) (k : α → Prop) : Exit Error α → Device → Prop :=
  Ends (Quiet w) (fun a _ => k a) (fun e _ => e.external = true) False

/-- Sequencing of reading calls. -/
theorem wp_bind_reading {α β : Type} {m : BootM α} {f : α → BootM β} {k : α → Prop}
    {k' : β → Prop} {w w₁ : Device} (hq : Quiet w w₁) (hm : wp m (Reading w₁ k) w₁)
    (hf : ∀ a w₂, Quiet w w₂ → k a → wp (f a) (Reading w k') w₂) :
    wp (m >>= f) (Reading w k') w₁ :=
  wp_bind_ends (wp_ends_mono hm (fun _ h => quiet_frame.trans hq h) (fun _ _ _ h => h)
    (fun _ _ _ h => h) id) hf

/-! ## Call schedules -/

def Fault.fails : Fault → Bool
  | .fail _ _ => true
  | _ => false

def Fault.halts : Fault → Bool
  | .halt _ => true
  | _ => false

/-- The fate of a list of calls. -/
inductive Survey where
  | passed
  | failed
  | halted
  deriving DecidableEq, Repr

/-- The first fault that matters to a list of calls made from tick `t` on; for each call the
    list says whether its failure is reported (`true`) or dropped by a `catch {}` (`false`). -/
def survey (faults : Nat → Fault) : List Bool → Nat → Survey
  | [], _ => .passed
  | reported :: calls, t =>
    if (faults t).halts then .halted
    else if reported && (faults t).fails then .failed
    else survey faults calls (t + 1)

theorem survey_append (faults : Nat → Fault) (l l' : List Bool) (t : Nat) :
    survey faults (l ++ l') t =
      match survey faults l t with
      | .passed => survey faults l' (t + l.length)
      | x => x := by
  induction l generalizing t with
  | nil => rfl
  | cons reported l ih =>
    simp only [List.cons_append, survey]
    split
    · rfl
    · split
      · rfl
      · rw [ih, List.length_cons, Nat.add_right_comm, Nat.add_assoc]

theorem survey_append_passed {faults : Nat → Fault} {l l' : List Bool} {t : Nat} :
    survey faults (l ++ l') t = .passed ↔
      survey faults l t = .passed ∧ survey faults l' (t + l.length) = .passed := by
  rw [survey_append]
  cases survey faults l t with
  | passed => exact ⟨fun h => ⟨rfl, h⟩, fun h => h.2⟩
  | failed => exact iff_of_false (fun h => by cases h) fun h => by cases h.1
  | halted => exact iff_of_false (fun h => by cases h) fun h => by cases h.1

/-- Move to another position of the oracle. -/
def Device.seek (w : Device) (t : Nat) : Device := { w with tick := t }

@[simp] theorem Device.seek_seek (w : Device) (t t' : Nat) : (w.seek t).seek t' = w.seek t' := rfl
@[simp] theorem Device.seek_tick (w : Device) (t : Nat) : (w.seek t).tick = t := rfl
@[simp] theorem Device.seek_faults (w : Device) (t : Nat) : (w.seek t).faults = w.faults := rfl
@[simp] theorem Device.seek_sd (w : Device) (t : Nat) : (w.seek t).sd = w.sd := rfl
@[simp] theorem Device.seek_nvm (w : Device) (t : Nat) : (w.seek t).nvm = w.nvm := rfl
@[simp] theorem Device.seek_flash (w : Device) (t : Nat) : (w.seek t).flash = w.flash := rfl
@[simp] theorem Device.seek_pub_key (w : Device) (t : Nat) : (w.seek t).pub_key = w.pub_key := rfl
@[simp] theorem Device.seek_log (w : Device) (t : Nat) : (w.seek t).log = w.log := rfl
@[simp] theorem Device.seek_bytes (w : Device) (t off len : Nat) :
    (w.seek t).bytes off len = w.bytes off len := rfl

theorem quiet_seek (w : Device) (t : Nat) : Quiet w (w.seek t) := ⟨t, rfl⟩

/-- The oracle holds a reset. -/
def Device.Interrupted (w : Device) : Prop := ∃ t, (w.faults t).halts = true

/-- No call fails, and the device is not reset. -/
def Device.Passing (w : Device) : Prop :=
  ∀ t, (w.faults t).fails = false ∧ (w.faults t).halts = false

/-- From `w`, `m` makes `calls` and ends with `x`, unless one of them fails or is cut off. -/
def Schedule {α : Type} (m : BootM α) (calls : List Bool) (x : Exit Error α) (w : Device) : Prop :=
  match survey w.faults calls w.tick with
  | .passed => m w = (x, w.seek (w.tick + calls.length))
  | .failed => ∃ t, (∃ e, e.external = true ∧ m w = (.err e, w.seek t)) ∨
      (w.Interrupted ∧ m w = (.halt, w.seek t))
  | .halted => ∃ t, w.Interrupted ∧ m w = (.halt, w.seek t)

section Schedule

variable {α β : Type} {m : BootM α} {calls calls' : List Bool} {w : Device}

theorem survey_single {faults : Nat → Fault} {t : Nat} (h : survey faults [true] t = .failed) :
    (faults t).fails = true := by
  simp only [survey] at h
  split at h
  · cases h
  · split at h
    · rename_i hf
      simpa using hf
    · cases h

/-- A schedule whose calls all pass. -/
theorem Schedule.run {x : Exit Error α} (h : Schedule m calls x w)
    (hs : survey w.faults calls w.tick = .passed) :
    m w = (x, w.seek (w.tick + calls.length)) := by
  unfold Schedule at h
  rw [hs] at h
  exact h

theorem survey_passing (h : w.Passing) (calls : List Bool) (t : Nat) :
    survey w.faults calls t = .passed := by
  induction calls generalizing t with
  | nil => rfl
  | cons reported calls ih =>
    obtain ⟨hfails, hhalts⟩ := h t
    simp only [survey, hfails, hhalts, Bool.and_false, Bool.false_eq_true, if_false]
    exact ih (t + 1)

/-- **A schedule on a device on which nothing fails.** -/
theorem Schedule.passing {x : Exit Error α} (h : Schedule m calls x w) (hw : w.Passing) :
    m w = (x, w.seek (w.tick + calls.length)) := h.run (survey_passing hw calls w.tick)

/-- The three ways in which a schedule ends. -/
theorem Schedule.exits {x : Exit Error α} (h : Schedule m calls x w) :
    (survey w.faults calls w.tick = .passed ∧ m w = (x, w.seek (w.tick + calls.length))) ∨
    (survey w.faults calls w.tick = .failed ∧ ∃ t e, e.external = true ∧
      m w = (.err e, w.seek t)) ∨
    (w.Interrupted ∧ ∃ t, m w = (.halt, w.seek t)) := by
  unfold Schedule at h
  cases hs : survey w.faults calls w.tick with
  | passed =>
    rw [hs] at h
    exact .inl ⟨rfl, h⟩
  | failed =>
    rw [hs] at h
    obtain ⟨t, ⟨e, he, h⟩ | ⟨hi, h⟩⟩ := h
    · exact .inr (.inl ⟨rfl, t, e, he, h⟩)
    · exact .inr (.inr ⟨hi, t, h⟩)
  | halted =>
    rw [hs] at h
    obtain ⟨t, hi, h⟩ := h
    exact .inr (.inr ⟨hi, t, h⟩)

theorem Schedule.pure (a : α) (w : Device) : Schedule (Pure.pure a) [] (.ok a) w := rfl

theorem Schedule.throw (e : Error) (w : Device) :
    Schedule (Prog.throw e : BootM α) [] (.err e) w := rfl

/-- A schedule with a result as a specification that keeps count of the calls. -/
theorem Schedule.counted {a : α} (h : Schedule m calls (.ok a) w) :
    wp m (Ends (Quiet w) (fun b w' => b = a ∧ w' = w.seek (w.tick + calls.length))
      (fun e _ => e.external = true ∧ survey w.faults calls w.tick = .failed) False) w := by
  obtain ⟨-, h⟩ | ⟨hs, t, e, he, h⟩ | ⟨-, t, h⟩ := h.exits
  · exact wp_of_eq h ⟨quiet_seek _ _, rfl, rfl⟩
  · exact wp_of_eq h ⟨quiet_seek _ _, he, hs⟩
  · exact wp_of_eq h (quiet_seek _ _)

theorem Schedule.reading_mono {a : α} {k : α → Prop} (h : Schedule m calls (.ok a) w) (hk : k a) :
    wp m (Reading w k) w :=
  wp_ends_mono h.counted (fun _ hq => hq) (fun _ _ _ hb => hb.1 ▸ hk) (fun _ _ _ he => he.1) id

/-- `m` makes one call, reports its failure by `e` and returns `a`. -/
def Single (m : BootM α) (e : FRESULT → Error) (a : α) (w : Device) : Prop :=
  m w = match w.faults w.tick with
    | .fail r _ => (.err (e r), w.seek (w.tick + 1))
    | .halt _ => (.halt, w.seek (w.tick + 1))
    | _ => (.ok a, w.seek (w.tick + 1))

theorem Single.schedule {e : FRESULT → Error} {a : α} (h : Single m e a w)
    (he : ∀ r, (e r).external = true) : Schedule m [true] (.ok a) w := by
  unfold Single at h
  unfold Schedule
  simp only [survey, h]
  cases hf : w.faults w.tick with
  | none => rfl
  | short n => rfl
  | fail r part => exact ⟨_, .inl ⟨_, he r, rfl⟩⟩
  | halt part => exact ⟨_, ⟨w.tick, by rw [hf]; rfl⟩, rfl⟩

/-- What is computed behind a call. -/
theorem Single.map {e : FRESULT → Error} {a : α} {b : β} {f : α → BootM β} (h : Single m e a w)
    (hf : f a (w.seek (w.tick + 1)) = (.ok b, w.seek (w.tick + 1))) : Single (m >>= f) e b w := by
  unfold Single at *
  cases hfault : w.faults w.tick with
  | none | short =>
    rw [hfault] at h
    exact (Prog.bind_ok f h).trans hf
  | fail r part =>
    rw [hfault] at h
    exact Prog.bind_err f h
  | halt part =>
    rw [hfault] at h
    exact Prog.bind_halt f h

theorem checked_run (e : FRESULT → Error) (w : Device) :
    checked e w = match w.faults w.tick with
      | .fail r _ => (.err (e r), w.seek (w.tick + 1))
      | .halt _ => (.halt, w.seek (w.tick + 1))
      | _ => (.ok (), w.seek (w.tick + 1)) := by
  unfold checked
  rw [Prog.bind_ok _ (show draw w = (.ok (w.faults w.tick), w.seek (w.tick + 1)) from rfl)]
  cases w.faults w.tick <;> rfl

protected theorem Single.checked (e : FRESULT → Error) (w : Device) :
    Single (checked e) e () w := checked_run e w

theorem Schedule.checked {e : FRESULT → Error} (he : ∀ r, (e r).external = true) (w : Device) :
    Schedule (checked e) [true] (.ok ()) w := (Single.checked e w).schedule he

/-- Schedules are appended by sequencing. -/
theorem Schedule.bind (calls calls' : List Bool) {a : α} {f : α → BootM β} {x : Exit Error β}
    (hm : Schedule m calls (.ok a) w)
    (hf : Schedule (f a) calls' x (w.seek (w.tick + calls.length))) :
    Schedule (m >>= f) (calls ++ calls') x w := by
  unfold Schedule at *
  rw [survey_append]
  cases hs : survey w.faults calls w.tick with
  | passed =>
    rw [hs] at hm
    simp only [Device.seek_tick, Device.seek_faults, Device.seek_seek, Nat.add_assoc] at hf
    rw [Prog.bind_ok f hm, List.length_append]
    exact hf
  | failed =>
    rw [hs] at hm
    obtain ⟨t, ⟨e, he, hm⟩ | ⟨hi, hm⟩⟩ := hm
    · exact ⟨t, .inl ⟨e, he, Prog.bind_err f hm⟩⟩
    · exact ⟨t, .inr ⟨hi, Prog.bind_halt f hm⟩⟩
  | halted =>
    rw [hs] at hm
    obtain ⟨t, hi, hm⟩ := hm
    exact ⟨t, hi, Prog.bind_halt f hm⟩

theorem Schedule.map {a : α} (hm : Schedule m calls (.ok a) w) (f : α → β) :
    Schedule (m >>= fun a => Pure.pure (f a)) calls (.ok (f a)) w := by
  have := Schedule.bind calls [] (f := fun a => (Pure.pure (f a) : BootM β)) hm (Schedule.pure (f a) _)
  rwa [List.append_nil] at this

theorem f_close_run (f : File) (w : Device) :
    (f_close f).orIgnore w = if (w.faults w.tick).halts then (.halt, w.seek (w.tick + 1))
      else (.ok (), w.seek (w.tick + 1)) := by
  unfold Prog.orIgnore Prog.tryCatch f_close
  rw [checked_run]
  cases w.faults w.tick <;> rfl

section Closing

variable {w₁ : Device} {f : File}

theorem closing_ok {a : α} (h : m w = (.ok a, w₁)) :
    Prog.deferring (f_close f) m w = if (w₁.faults w₁.tick).halts
      then (.halt, w₁.seek (w₁.tick + 1)) else (.ok a, w₁.seek (w₁.tick + 1)) := by
  unfold Prog.deferring
  rw [Prog.bind_ok _ (Prog.attempt_ok h)]
  have hc := f_close_run f w₁
  by_cases hh : (w₁.faults w₁.tick).halts = true
  · rw [if_pos hh] at hc ⊢
    exact Prog.bind_halt _ hc
  · rw [if_neg hh] at hc ⊢
    exact Prog.bind_ok _ hc

theorem closing_err {e : Error} (h : m w = (.err e, w₁)) :
    Prog.deferring (f_close f) m w = if (w₁.faults w₁.tick).halts
      then (.halt, w₁.seek (w₁.tick + 1)) else (.err e, w₁.seek (w₁.tick + 1)) := by
  unfold Prog.deferring
  rw [Prog.bind_ok _ (Prog.attempt_err h)]
  have hc := f_close_run f w₁
  by_cases hh : (w₁.faults w₁.tick).halts = true
  · rw [if_pos hh] at hc ⊢
    exact Prog.bind_halt _ hc
  · rw [if_neg hh] at hc ⊢
    exact Prog.bind_ok _ hc

theorem closing_halt (h : m w = (.halt, w₁)) :
    Prog.deferring (f_close f) m w = (.halt, w₁) := by
  unfold Prog.deferring
  exact Prog.bind_halt _ (Prog.attempt_halt h)

end Closing

/-- A deferred `close` is one more call, whose failure is dropped. -/
theorem Schedule.closing (calls : List Bool) {f : File} {x : Exit Error α} (hx : x ≠ .trap ∧ x ≠ .halt)
    (hm : Schedule m calls x w) :
    Schedule (Prog.deferring (f_close f) m) (calls ++ [false]) x w := by
  unfold Schedule at *
  rw [survey_append]
  cases hs : survey w.faults calls w.tick with
  | passed =>
    rw [hs] at hm
    have hrun : Prog.deferring (f_close f) m w =
        if (w.faults (w.tick + calls.length)).halts
          then (.halt, w.seek (w.tick + calls.length + 1))
          else (x, w.seek (w.tick + calls.length + 1)) := by
      cases x with
      | ok a => exact closing_ok hm
      | err e => exact closing_err hm
      | trap => exact absurd rfl hx.1
      | halt => exact absurd rfl hx.2
    simp only [survey, Bool.false_and, Bool.false_eq_true, if_false]
    rw [hrun, List.length_append]
    by_cases hh : (w.faults (w.tick + calls.length)).halts = true
    · simp only [hh, if_true]
      exact ⟨_, ⟨_, hh⟩, rfl⟩
    · rw [if_neg hh, if_neg hh]
      rfl
  | failed =>
    rw [hs] at hm
    obtain ⟨t, ⟨e, he, hm⟩ | ⟨hi, hm⟩⟩ := hm
    · have hrun := closing_err (f := f) hm
      by_cases hh : (w.faults t).halts = true
      · exact ⟨t + 1, .inr ⟨⟨t, hh⟩, hrun.trans (if_pos hh)⟩⟩
      · exact ⟨t + 1, .inl ⟨e, he, hrun.trans (if_neg hh)⟩⟩
    · exact ⟨t, .inr ⟨hi, closing_halt hm⟩⟩
  | halted =>
    rw [hs] at hm
    obtain ⟨t, hi, hm⟩ := hm
    exact ⟨t, hi, closing_halt hm⟩

/-- The handle `f` reads the content `c`. -/
structure File.Reads (f : File) (w : Device) (c : List UInt8) : Prop where
  content : w.sd f.path = some c
  size : f.objsize = c.length
  fptr_le : f.fptr ≤ c.length

theorem File.Reads.quiet {f : File} {w w' : Device} {c : List UInt8} (h : f.Reads w c)
    (hq : Quiet w w') : f.Reads w' c := by
  obtain ⟨t, rfl⟩ := hq
  exact ⟨h.content, h.size, h.fptr_le⟩

/-- Opening an existing file. -/
protected theorem Single.f_open {path : Path} {c : List UInt8} (hc : w.sd path = some c) :
    Single (f_open path ⟨true, false, false⟩) FRESULT.check ⟨path, 0, c.length⟩ w := by
  have hget : ∀ w' : Device, (Prog.get : BootM Device) w' = (.ok w', w') := fun _ => rfl
  unfold Single Boot.f_open
  rw [Prog.bind_ok _ (show draw w = (.ok (w.faults w.tick), w.seek (w.tick + 1)) from rfl)]
  cases w.faults w.tick with
  | fail r part => rfl
  | halt part => rfl
  | none | short =>
    refine (Prog.bind_ok _ (hget _)).trans ?_
    simp only [Device.seek_sd, hc]
    rfl

theorem Schedule.f_open {path : Path} {c : List UInt8} (hc : w.sd path = some c) :
    Schedule (f_open path ⟨true, false, false⟩) [true] (.ok ⟨path, 0, c.length⟩) w :=
  (Single.f_open hc).schedule FRESULT.check_external

protected theorem Single.f_read {f : File} {c : List UInt8} (h : f.Reads w c) (len : Nat) :
    Single (f_read f len) FRESULT.check ((c.drop f.fptr).take len,
      { f with fptr := f.fptr + ((c.drop f.fptr).take len).length }) w := by
  have hdata : (c.drop f.fptr).take (min len (f.objsize - f.fptr)) = (c.drop f.fptr).take len := by
    rw [h.size, ← List.length_drop, ← List.take_eq_take_min]
  have hget : ∀ w' : Device, (Prog.get : BootM Device) w' = (.ok w', w') := fun _ => rfl
  apply (Single.checked FRESULT.check w).map
  rw [Prog.bind_ok _ (hget _)]
  simp only [Device.seek, h.content, Option.getD_some, hdata]
  rw [if_neg (Nat.not_lt.mpr (List.length_take_le _ _))]
  rfl

theorem Schedule.f_read {f : File} {c : List UInt8} (h : f.Reads w c) (len : Nat) :
    Schedule (f_read f len) [true] (.ok ((c.drop f.fptr).take len,
      { f with fptr := f.fptr + ((c.drop f.fptr).take len).length })) w :=
  (Single.f_read h len).schedule FRESULT.check_external

/-- `readEof` at the end of the file makes no call. -/
theorem Schedule.readEof_end {f : File} {c : List UInt8} (h : f.Reads w c)
    (he : f.fptr = c.length) (len : Nat) : Schedule (readEof f len) [] (.ok (none, f)) w := by
  unfold Boot.readEof File.eof
  rw [if_pos (by simp [he, h.size])]
  exact Schedule.pure _ w

theorem Schedule.readEof_next {f : File} {c : List UInt8} (h : f.Reads w c)
    (hlt : f.fptr < c.length) {len : Nat} (hlen : 0 < len) :
    Schedule (readEof f len) [true] (.ok (some ((c.drop f.fptr).take len),
      { f with fptr := f.fptr + ((c.drop f.fptr).take len).length })) w := by
  unfold Boot.readEof File.eof
  rw [if_neg (by simp [h.size]; omega)]
  refine Schedule.bind _ [] (Schedule.f_read h len) ?_
  simp only
  rw [if_neg (by simp; omega)]
  exact Schedule.pure _ _

end Schedule

/-! ## Reading calls -/

theorem wp_draw (Q : Exit Error Fault → Device → Prop) (w : Device) :
    wp draw Q w ↔ Q (.ok (w.faults w.tick)) (w.seek (w.tick + 1)) := Iff.rfl

theorem checked_spec {e : FRESULT → Error} (he : ∀ r, (e r).external = true) (w : Device) :
    wp (checked e) (Reading w fun _ => True) w :=
  (Schedule.checked he w).reading_mono trivial

/-- A `close` deferred to the end of `m` leaves its specification alone, provided the state
    property survives a quiet step. -/
theorem wp_closing {α : Type} {f : File} {m : BootM α} {P : Device → Prop}
    {K : α → Device → Prop} {E : Error → Device → Prop} {T : Prop} {w : Device}
    (hm : wp m (Ends P K E T) w) (hP : ∀ w₁ w₂, Quiet w₁ w₂ → P w₁ → P w₂)
    (hK : ∀ a w₁ w₂, Quiet w₁ w₂ → K a w₁ → K a w₂)
    (hE : ∀ e w₁ w₂, Quiet w₁ w₂ → E e w₁ → E e w₂) :
    wp (Prog.deferring (f_close f) m) (Ends P K E T) w := by
  have hclose : ∀ w₁, wp (f_close f).orIgnore
      (Ends (Quiet w₁) (fun _ _ => True) (fun _ _ => False) False) w₁ := fun w₁ =>
    wp_orIgnore_ends (checked_spec FRESULT.check_external w₁) fun _ _ _ _ => trivial
  unfold Prog.deferring
  rw [wp_bind, wp_attempt]
  refine wp_mono hm ?_
  intro x w₁ hx
  cases x with
  | ok a =>
    refine wp_bind_ends (K := fun _ => K a) (wp_ends_mono (hclose w₁) (fun w₂ hq => hP w₁ w₂ hq hx.1)
      (fun _ w₂ hq _ => hK a w₁ w₂ hq hx.2) (fun _ _ _ h => h.elim) False.elim) ?_
    exact fun _ w₂ hP₂ hK₂ => ⟨hP₂, hK₂⟩
  | err e =>
    refine wp_bind_ends (K := fun _ => E e) (wp_ends_mono (hclose w₁) (fun w₂ hq => hP w₁ w₂ hq hx.1)
      (fun _ w₂ hq _ => hE e w₁ w₂ hq hx.2) (fun _ _ _ h => h.elim) False.elim) ?_
    exact fun _ w₂ hP₂ hE₂ => ⟨hP₂, hE₂⟩
  | trap => exact hx
  | halt => exact hx

theorem f_open_read_missing {path : Path} {w : Device} (h : w.sd path = none) :
    wp (f_open path ⟨true, false, false⟩) (Reading w fun _ => False) w := by
  unfold f_open
  rw [wp_bind, wp_draw]
  simp only [thenPost_ok]
  cases w.faults w.tick with
  | fail r part => exact ⟨⟨_, rfl⟩, r.check_external⟩
  | halt part => exact ⟨_, rfl⟩
  | none | short =>
    simp only [Bool.false_eq_true, if_false, wp_bind, wp_get, thenPost_ok, Device.seek_sd, h]
    exact ⟨⟨_, rfl⟩, rfl⟩

/-- Opening for reading: a fresh handle on an existing file. -/
theorem f_open_read_spec (path : Path) (w : Device) :
    wp (f_open path ⟨true, false, false⟩)
      (Reading w fun f => f.path = path ∧ f.fptr = 0 ∧ ∃ c, f.Reads w c) w := by
  cases hc : w.sd path with
  | none =>
    exact wp_ends_mono (f_open_read_missing hc) (fun _ h => h) (fun _ _ _ h => h.elim)
      (fun _ _ _ h => h) id
  | some c =>
    exact (Schedule.f_open hc).reading_mono ⟨rfl, rfl, c, hc, rfl, Nat.zero_le _⟩

/-- What `readEof` hands out: the next `len` bytes, or `none` at the end of the file. -/
def NextBlock (f : File) (c : List UInt8) (len : Nat) (r : Option (List UInt8) × File) : Prop :=
  match r.1 with
  | none => f.fptr = c.length
  | some data => data = (c.drop f.fptr).take len ∧ 0 < data.length ∧
      f.fptr + data.length ≤ c.length ∧ r.2 = { f with fptr := f.fptr + data.length }

theorem nextBlock_none {f f' : File} {c : List UInt8} {len : Nat} :
    NextBlock f c len (none, f') ↔ f.fptr = c.length := Iff.rfl

theorem nextBlock_some {f f' : File} {c data : List UInt8} {len : Nat} :
    NextBlock f c len (some data, f') ↔ data = (c.drop f.fptr).take len ∧ 0 < data.length ∧
      f.fptr + data.length ≤ c.length ∧ f' = { f with fptr := f.fptr + data.length } := Iff.rfl

theorem readEof_spec {f : File} {w : Device} {c : List UInt8} (h : f.Reads w c) {len : Nat}
    (hlen : 0 < len) : wp (readEof f len) (Reading w (NextBlock f c len)) w := by
  by_cases he : f.fptr = c.length
  · exact (Schedule.readEof_end h he len).reading_mono he
  · have hlt : f.fptr < c.length := Nat.lt_of_le_of_ne h.fptr_le he
    refine (Schedule.readEof_next h hlt hlen).reading_mono ?_
    refine nextBlock_some.mpr ⟨rfl, ?_, ?_, rfl⟩
    · simp only [List.length_take, List.length_drop]
      omega
    · simp only [List.length_take, List.length_drop]
      omega

theorem readCounter_spec (key : app_nvm_keys) (w : Device) :
    wp (readCounter key) (Reading w fun v => w.nvm key = some (.counter v)) w := by
  unfold readCounter
  refine wp_bind_reading (quiet_frame.refl w) (checked_spec (fun _ => rfl) w) ?_
  rintro _ w' ⟨t, rfl⟩ _
  simp only [wp_bind, wp_get, thenPost_ok]
  split
  · rename_i v hv
    exact ⟨⟨_, rfl⟩, hv⟩
  · exact ⟨⟨_, rfl⟩, rfl⟩

/-- An NVM write: the object is stored, or the call has failed; a reset leaves either. -/
theorem nvmWrite_spec (key : app_nvm_keys) (o : NvmObject) (w : Device) :
    wp (nvmWrite key o) (Ends (fun w' => Quiet w w' ∨ Quiet (w.setNvm key o) w')
      (fun _ w' => Quiet (w.setNvm key o) w')
      (fun _ w' => w' = w.seek (w.tick + 1) ∧ (w.faults w.tick).fails = true) False) w := by
  have hset : Quiet (w.setNvm key o) ((w.seek (w.tick + 1)).setNvm key o) := ⟨w.tick + 1, rfl⟩
  unfold nvmWrite
  rw [wp_bind, wp_draw]
  simp only [thenPost_ok]
  cases hf : w.faults w.tick with
  | none => exact ⟨.inr hset, hset⟩
  | short => exact ⟨.inr hset, hset⟩
  | fail r part => exact ⟨.inl (quiet_seek _ _), rfl, rfl⟩
  | halt part =>
    simp only [wp_halt, ends_halt]
    split
    · exact .inl (quiet_seek _ _)
    · exact .inr hset

end Miso.Boot
