import Miso.Boot.Outcomes
import Miso.Boot.Task

/-!
# Histories of boots

A history alternates between the bootloader, whose `taskFunction` takes one `taskStep` after the
other and can be cut off anywhere, and the application, which runs after `prepareJump()` and may
write the card and the NVM before the next boot.

* `Sys` — the device and the position of `taskFunction`, with two ghost images: the one that was
  installed when the application last ran, and the one put in place last;
* `Step` — one step of a history; the steps of `taskFunction` are restricted to states that meet
  a condition, `fun _ => True` for the unrestricted system.
-/

namespace Miso.Boot

open Zig

variable {Digest : Type} [DecidableEq Digest] (X : Externs Digest)

/-! ## What the log says -/

/-- The image was accepted by `verifyFirmware` since the application last ran. -/
def WasAccepted (w : Device) (c : List UInt8) : Prop := .bootutil_img_validate c true ∈ w.log

instance (w : Device) (c : List UInt8) : Decidable (WasAccepted w c) :=
  inferInstanceAs (Decidable (_ ∈ w.log))

/-- The candidate on the card. -/
def Device.candidate (w : Device) : List UInt8 := (w.sd .fw_file_name).getD []

/-- `APP.BAK` begins with the image. -/
def BackedUp (img : List UInt8) (w : Device) : Prop :=
  ∃ b, w.sd .app_backup_file_name = some b ∧ img <+: b

instance (img : List UInt8) (w : Device) : Decidable (BackedUp img w) :=
  inferInstanceAs (Decidable (∃ b ∈ w.sd .app_backup_file_name, img <+: b))

/-- A backup by the recorded size saves at least `len` bytes. -/
def SizeCovers (w : Device) (len : Nat) : Prop := ∀ n, Stored w n → n = 0 ∨ len ≤ n

instance (w : Device) (len : Nat) : Decidable (SizeCovers w len) :=
  match h : w.nvm .firmware_size with
  | some (.counter n) => decidable_of_iff (n = 0 ∨ len ≤ n)
      ⟨by rintro hn m hm; rw [Stored, h] at hm; cases hm; exact hn, fun hall => hall n h⟩
  | some (.data _) => isTrue (by intro m hm; rw [Stored, h] at hm; cases hm)
  | none => isTrue (by intro m hm; rw [Stored, h] at hm; cases hm)

instance (w : Device) (path : Path) : Decidable (Inert w path) :=
  inferInstanceAs (Decidable (∀ c ∈ w.sd path, c = [] ∨ firmware_max_size < c.length))

/-! ## States and steps -/

/-- The phase that `firmwareUpdate()` performs next. -/
def Pc.updating : Pc → Option update_phase
  | .update st => some st.phase
  | _ => none

/-- The phase that the fallback `firmwareRestore()` performs next. -/
def Pc.restoring : Pc → Option update_phase
  | .restore st => some st.phase
  | _ => none

/-- The device, the position of `taskFunction`, and the ghost images. -/
structure Sys where
  pc : Pc
  dev : Device
  /-- The image in the region when the application last ran. -/
  installed : List UInt8
  /-- The image put in place last: `installed`, a completed update or a completed restore. -/
  current : List UInt8

/-- The file that the next step compares with the region, and the length of the region compared. -/
def Sys.compares (s : Sys) : Option (Path × Nat) :=
  match s.pc with
  | .update ⟨.check, _, _⟩ => some (.fw_file_name, s.dev.candidate.length)
  | .update ⟨.verify_flash, app_len, _⟩ => some (.fw_file_name, app_len)
  | .update ⟨.verify_backup, app_len, _⟩ => some (.app_backup_file_name, app_len)
  | .restore ⟨.verify_backup, app_len, _⟩ => some (.app_backup_file_name, app_len)
  | _ => none

/-- The contents that the next step compares have the same digest only if they are the same. -/
def CollisionFree (s : Sys) : Prop := ∀ p ∈ s.compares, Tells X p.1 s.dev p.2

instance (s : Sys) : Decidable (CollisionFree X s) :=
  inferInstanceAs (Decidable (∀ p ∈ s.compares, Tells X p.1 s.dev p.2))

/-- The image put in place last, when a step leads to `pc`: a verified update places the
    candidate, a verified restore the installed image, and a candidate that is found in a region
    the bootloader has worked on was placed by an attempt that was cut off. -/
def Sys.placed (s : Sys) (pc : Pc) : List UInt8 :=
  match s.pc, pc with
  | .update ⟨.verify_flash, _, _⟩, .update ⟨.complete, _, _⟩ => s.dev.candidate
  | .update ⟨.verify_backup, _, _⟩, .update ⟨.backup_restored, _, _⟩ => s.installed
  | .restore ⟨.verify_backup, _, _⟩, .restore ⟨.backup_restored, _, _⟩ => s.installed
  | .update ⟨.check, _, _⟩, _ =>
    if Touched s.dev ∧ (checkFirmwareImage X .fw_file_name s.dev).1 =
      .err .firmware_already_in_system then s.dev.candidate else s.current
  | _, _ => s.current

/-- The system after a step of `taskFunction`. -/
def Sys.next (fuel : Nat) (s : Sys) : Sys where
  pc := nextPc (taskStep X fuel s.pc s.dev).1
  dev := (taskStep X fuel s.pc s.dev).2
  installed := s.installed
  current := s.placed X (nextPc (taskStep X fuel s.pc s.dev).1)

/-- One step of a history; `C` restricts the states in which `taskFunction` takes a step. -/
inductive Step (C : Sys → Prop) : Sys → Sys → Prop where
  /-- A step of `taskFunction`. -/
  | task (fuel : Nat) {s : Sys} : s.pc ≠ .jump → C s → Step C s (s.next X fuel)
  /-- A reset between two steps: the RAM is lost. -/
  | reset (config : app_nvm_keys → List UInt8) (pub_key : List UInt8) (s : Sys) :
    Step C s { s with pc := .start, dev := { s.dev with config := config, pub_key := pub_key } }
  /-- The application runs, if there is one, and resets the device.  It leaves the region and the
      recorded size alone. -/
  | app {s : Sys} {w : Device} : s.pc = .jump → Holds s.current s.dev → w.flash = s.dev.flash →
    w.nvm .firmware_size = s.dev.nvm .firmware_size → 9 ≤ countObjects w.nvm → w.log = [] →
    Step C s ⟨.start, w, s.current, s.current⟩

/-- A history from `s₀` to `s`. -/
abbrev History (C : Sys → Prop) (s₀ s : Sys) : Prop := Relation.ReflTransGen (Step X C) s₀ s

/-- A history begins at a boot with a complete image and an initialised NVM. -/
structure Initial (s : Sys) : Prop where
  pc : s.pc = .start
  log : s.dev.log = []
  nvm : 9 ≤ countObjects s.dev.nvm
  current : s.current = s.installed
  installed : Holds s.installed s.dev

variable {X}

/-- The induction over histories. -/
theorem History.invariant {C : Sys → Prop} {s₀ s : Sys} {I : Sys → Prop} (h : History X C s₀ s)
    (h₀ : I s₀) (hstep : ∀ s s', I s → Step X C s s' → I s') : I s := by
  induction h with
  | refl => exact h₀
  | tail _ h ih => exact hstep _ _ ih h

/-- A step of `taskFunction` is reasoned about through its exit. -/
theorem next_of_wp {fuel : Nat} {s : Sys} {Q : Sys → Prop}
    (h : wp (taskStep X fuel s.pc) (fun x w' => Q ⟨nextPc x, w', s.installed, s.placed X (nextPc x)⟩)
      s.dev) : Q (s.next X fuel) := h

/-- `n` steps of `taskFunction`. -/
def Sys.steps (X : Externs Digest) (fuel : Nat) : Nat → Sys → Sys
  | 0, s => s
  | n + 1, s => steps X fuel n (s.next X fuel)

theorem history_steps {C : Sys → Prop} (fuel : Nat) (n : Nat) (s : Sys)
    (h : ∀ k < n, (s.steps X fuel k).pc ≠ .jump ∧ C (s.steps X fuel k)) :
    History X C s (s.steps X fuel n) := by
  induction n generalizing s with
  | zero => exact .refl
  | succ n ih =>
    have h₀ := h 0 (Nat.succ_pos n)
    refine .head (Step.task fuel h₀.1 h₀.2) (ih (s.next X fuel) ?_)
    exact fun k hk => h (k + 1) (Nat.succ_lt_succ hk)

end Miso.Boot
