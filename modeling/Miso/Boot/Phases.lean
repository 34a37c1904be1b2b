import Miso.Boot.App
import Miso.Boot.FirmwareSpec

/-!
# One round of the update state machine on the device

For each phase of `firmwareUpdateStateMachine`, what one round of its loop does to the device and
which phase it may lead to (`check_round`, `backup_round`, …).  All properties of whole runs are
derived from these lemmas.

* `Stored w n` — the counter `firmware_size` holds `n`;
* `Image c w` — the region is the file `c`, continued by `0xFF`;
* `Holds c w` — the region begins with `c`.
-/

namespace Miso.Boot

open Zig

variable {Digest : Type} [DecidableEq Digest] (X : Externs Digest) (fuel : Nat)

/-- The counter `firmware_size` holds `n`. -/
def Stored (w : Device) (n : Nat) : Prop := w.nvm .firmware_size = some (.counter n)

theorem setNvm_self (w : Device) (k : app_nvm_keys) (o : NvmObject) :
    (w.setNvm k o).nvm k = some o := if_pos rfl

/-- Every byte of the region is `0xFF`. -/
def Erased (w : Device) : Prop := ∀ i < firmware_max_size, w.flash i = 0xFF

/-- The region is `c`, followed by `0xFF` up to its end. -/
def Image (c : List UInt8) (w : Device) : Prop :=
  c.length ≤ firmware_max_size ∧ ∀ i < firmware_max_size, w.flash i = c.getD i 0xFF

/-- The region begins with `c`. -/
def Holds (c : List UInt8) (w : Device) : Prop :=
  c.length ≤ firmware_max_size ∧ w.bytes 0 c.length = c

/-- The next round is in `phase`, with the other variables as given. -/
def Enters (r : update_state ⊕ firmware_update_outcome) (phase : update_phase)
    (app_len backup_len : Nat) : Prop := r = .inl ⟨phase, app_len, backup_len⟩

/-! ## Images in the region -/

theorem holds_iff {img : List UInt8} {w : Device} :
    Holds img w ↔ img.length ≤ firmware_max_size ∧
      ∀ i (h : i < img.length), w.flash i = img[i] := by
  refine and_congr_right fun _ => ?_
  unfold Device.bytes
  constructor
  · intro h i hi
    have := congrArg (·[i]?) h
    simpa [hi] using this
  · intro h
    refine List.ext_getElem (by simp) fun i h₁ h₂ => ?_
    simp [h i h₂]

theorem Image.holds {c : List UInt8} {w : Device} (h : Image c w) : Holds c w := by
  refine holds_iff.mpr ⟨h.1, fun i hi => ?_⟩
  rw [h.2 i (Nat.lt_of_lt_of_le hi h.1), List.getD_eq_getElem _ _ hi]

theorem Holds.congr {c : List UInt8} {w w' : Device} (h : Holds c w) (hf : w'.flash = w.flash) :
    Holds c w' := by
  refine ⟨h.1, ?_⟩
  have : w'.bytes 0 c.length = w.bytes 0 c.length := by unfold Device.bytes; rw [hf]
  rw [this, h.2]

/-- Programming a file into an erased region. -/
theorem Erased.image {c : List UInt8} {w w' : Device} (h : Erased w)
    (hc : c.length ≤ firmware_max_size) (hp : ∀ i, w'.flash i = w.flash i &&& c.getD i 0xFF) :
    Image c w' := by
  refine ⟨hc, fun i hi => ?_⟩
  rw [hp i, h i hi, UInt8.and_comm, and_allOnes]

/-! ## Rounds -/

/-- `check`: the candidate was accepted or a failing call of the comparison was dropped; the two
    errors that end an attempt say that it is refused or that it is in the region. -/
theorem check_round (app_len backup_len : Nat) (w : Device) :
    wp (phaseStep (.device X fuel) ⟨.check, app_len, backup_len⟩) (Ends (Checking w)
      (fun r w' => Enters r .backup app_len backup_len ∧
        (Accepted X .fw_file_name w w' ∨ ComparisonFails .fw_file_name w))
      (fun e _ => (checkFirmwareImage X .fw_file_name w).1 = .err e ∧
        (e.external = true ∨ e = .flash_firmware_size_error ∨
          e = .firmware_candidate_not_valid ∧ Refusable X .fw_file_name w ∨
          e = .firmware_already_in_system ∧ InRegion X .fw_file_name w))
      True) w := by
  unfold phaseStep checkFirmwareCandidate
  refine wp_bind_ends (K := fun phase w' => phase = .backup ∧
    (Accepted X .fw_file_name w w' ∨ ComparisonFails .fw_file_name w)) ?_ ?_
  · refine wp_bind_ends (wp_ends_mono (wp_ends_run (checkFirmwareImage_spec X .fw_file_name w))
      (fun _ h => h) (fun _ _ _ h => h.1) ?_ id) ?_
    · rintro e w' - ⟨h, hrun⟩
      exact ⟨congrArg Prod.fst hrun, h⟩
    · exact fun _ w' hP hK => ⟨hP, rfl, hK⟩
  · rintro _ w' hP ⟨rfl, hK⟩
    exact ⟨hP, rfl, hK⟩

/-- `backup`: the file is the slice of the recorded size, or the whole region. -/
theorem backup_round (app_len backup_len : Nat) (w : Device) :
    wp (phaseStep (.device X fuel) ⟨.backup, app_len, backup_len⟩) (Ends
      (Saving .app_backup_file_name w)
      (fun r w' => ∃ n, Enters r .erase_flash app_len n ∧
        (Stored w n ∧ n ≠ 0 ∨ n = firmware_max_size) ∧ n ≤ firmware_max_size ∧
        w'.sd .app_backup_file_name = some (w.bytes 0 n))
      (fun e _ => e.external = true ∨ e = .hash_compare_mismatch)
      True) w := by
  have hframe := saving_frame .app_backup_file_name
  unfold phaseStep performFirmwareBackup
  refine wp_bind_ends (K := fun r w' => r.1 = .erase_flash ∧
    (Stored w r.2 ∧ r.2 ≠ 0 ∨ r.2 = firmware_max_size) ∧ r.2 ≤ firmware_max_size ∧
    w'.sd .app_backup_file_name = some (w.bytes 0 r.2)) ?_ ?_
  · refine wp_bind_ends (K := fun v w' => Quiet w w' ∧ (Stored w v ∨ v = 0)) ?_ ?_
    · rw [wp_tryCatch]
      refine wp_mono (readCounter_spec .firmware_size w) ?_
      intro x w' hx
      cases x with
      | ok v => exact ⟨hx.1.saving _, hx.1, .inl hx.2⟩
      | err e => exact ⟨hx.1.saving _, hx.1, .inr rfl⟩
      | trap => exact hx.2.elim
      | halt => exact hx.saving _
    rintro v w₁ - ⟨hq₁, hv⟩
    refine wp_bind_ends (wp_ends_mono (backupFirmware_spec fuel .app_backup_file_name _ w₁)
      (fun _ h => hframe.trans (hq₁.saving _) h) (fun _ _ _ h => h) (fun _ _ _ h => .inl h)
      fun _ => trivial) ?_
    rintro n w₂ hs₂ ⟨hn, hle, hc⟩
    refine wp_bind_ends (wp_ends_mono (verifyBackup_spec X .app_backup_file_name (some n) rfl w₂)
      (fun _ h => hframe.trans hs₂ (h.saving _)) (fun _ w' h _ => h) ?_ fun _ => trivial) ?_
    · rintro e w' - (h | h)
      · exact .inl h
      · exact .inr h.1
    · rintro _ _ hs₃ ⟨t, rfl⟩
      refine ⟨hs₃, rfl, ?_, hle, ?_⟩
      · by_cases h0 : v = 0
        · right
          simpa [h0] using hn
        · left
          have : n = v := by simpa [h0] using hn
          subst this
          exact ⟨hv.resolve_right h0, h0⟩
      · rw [← bytes_quiet hq₁]
        exact hc
  · rintro ⟨phase, n⟩ w' hs ⟨rfl, hn, hle, hc⟩
    exact ⟨hs, n, rfl, hn, hle, hc⟩

/-- `erase_flash` and `erase_flash_before_restore`: the region is erased. -/
theorem erase_round {phase next : update_phase}
    (h : phase = .erase_flash ∧ next = .flash ∨
      phase = .erase_flash_before_restore ∧ next = .restore_backup)
    (app_len backup_len : Nat) (w : Device) :
    wp (phaseStep (.device X fuel) ⟨phase, app_len, backup_len⟩) (Ends (Flashing w)
      (fun r w' => Enters r next app_len backup_len ∧ PageErased w' ∧ Erased w')
      (fun e _ => e = .flash_erase_error) False) w := by
  obtain ⟨rfl, rfl⟩ | ⟨rfl, rfl⟩ := h
  · refine wp_bind_ends (K := fun r w' => r = .flash ∧ PageErased w' ∧ Erased w')
      (wp_bind_ends (eraseFlash_spec w) fun _ _ h h' => ⟨h, rfl, h'⟩) ?_
    rintro _ _ h ⟨rfl, h'⟩
    exact ⟨h, rfl, h'⟩
  · refine wp_bind_ends (K := fun r w' => r = .restore_backup ∧ PageErased w' ∧ Erased w')
      (wp_bind_ends (eraseFlash_spec w) fun _ _ h h' => ⟨h, rfl, h'⟩) ?_
    rintro _ _ h ⟨rfl, h'⟩
    exact ⟨h, rfl, h'⟩

/-- The file at `path` has been programmed over the region. -/
def Programmed (path : Path) (w w' : Device) (n : Nat) : Prop :=
  ∃ c, w.sd path = some c ∧ n = c.length ∧ n ≤ firmware_max_size ∧
    ∀ i, w'.flash i = w.flash i &&& c.getD i 0xFF

/-- `flash`: on to the verification, or back to the erase after a write error. -/
theorem flash_round (app_len backup_len : Nat) (w : Device) :
    wp (phaseStep (.device X fuel) ⟨.flash, app_len, backup_len⟩) (Ends
      (fun w' => Flashing w w' ∧ (Inert w .fw_file_name → Quiet w w'))
      (fun r w' =>
        (∃ n, Enters r .verify_flash n backup_len ∧ Programmed .fw_file_name w w' n) ∨
        (Enters r .erase_flash 0 backup_len) ∨
        (Enters r .restore_backup 0 backup_len ∧ Quiet w w'))
      (fun e _ => e.external = true) False) w := by
  unfold phaseStep flashImage
  refine wp_bind_ends (K := fun r w' =>
    (∃ n, r = (.verify_flash, n) ∧ Programmed .fw_file_name w w' n) ∨ r = (.erase_flash, 0) ∨
      r = (.restore_backup, 0) ∧ Quiet w w')
    (wp_bind_attempt (flashFirmware_spec .fw_file_name w) ?_ ?_) ?_
  · exact fun n w' hP h => ⟨hP, .inl ⟨n, rfl, h⟩⟩
  · rintro e w' hP (he | ⟨rfl, -⟩ | ⟨rfl, hq⟩)
    · have h₁ : e ≠ .flash_firmware_size_error := by rintro rfl; cases he
      have h₂ : e ≠ .flash_write_error := by rintro rfl; cases he
      simp only [if_neg h₁, if_neg h₂]
      exact ⟨hP, he⟩
    · exact ⟨hP, .inr (.inl rfl)⟩
    · exact ⟨hP, .inr (.inr ⟨rfl, hq⟩)⟩
  · rintro r w' hP (⟨n, rfl, h⟩ | rfl | ⟨rfl, h⟩)
    · exact ⟨hP, .inl ⟨n, rfl, h⟩⟩
    · exact ⟨hP, .inr (.inl rfl)⟩
    · exact ⟨hP, .inr (.inr ⟨rfl, h⟩)⟩

/-- `restore_backup`: on to the verification, or to an erase after a write error. -/
theorem restore_round (app_len backup_len : Nat) (w : Device) :
    wp (phaseStep (.device X fuel) ⟨.restore_backup, app_len, backup_len⟩) (Ends
      (fun w' => Flashing w w' ∧ (Inert w .app_backup_file_name → Quiet w w'))
      (fun r w' =>
        (∃ n, Enters r .verify_backup n backup_len ∧ Programmed .app_backup_file_name w w' n) ∨
        Enters r .erase_flash_before_restore 0 backup_len ∧ ¬ Inert w .app_backup_file_name)
      (fun e _ => e.external = true ∨ e = .flash_firmware_size_error) False) w := by
  unfold phaseStep restoreBackup
  refine wp_bind_ends (K := fun r w' =>
    (∃ n, r = (.verify_backup, n) ∧ Programmed .app_backup_file_name w w' n) ∨
      r = (.erase_flash_before_restore, 0) ∧ ¬ Inert w .app_backup_file_name)
    (wp_bind_attempt (flashFirmware_spec .app_backup_file_name w) ?_ ?_) ?_
  · exact fun n w' hP h => ⟨hP, .inl ⟨n, rfl, h⟩⟩
  · rintro e w' hP (he | ⟨rfl, hi⟩ | ⟨rfl, hq⟩)
    · have h : e ≠ .flash_write_error := by rintro rfl; cases he
      simp only [if_neg h]
      exact ⟨hP, .inl he⟩
    · exact ⟨hP, .inr ⟨rfl, hi⟩⟩
    · exact ⟨hP, .inr rfl⟩
  · rintro r w' hP (⟨n, rfl, h⟩ | ⟨rfl, h⟩)
    · exact ⟨hP, .inl ⟨n, rfl, h⟩⟩
    · exact ⟨hP, .inr ⟨rfl, h⟩⟩

/-- The hash of the file at `path` is that of the first `n` bytes of the region. -/
def Matches (path : Path) (w : Device) (n : Nat) : Prop :=
  n ≤ firmware_max_size ∧ ∃ c, w.sd path = some c ∧ X.sha256 c = X.sha256 (w.bytes 0 n)

/-- The hash of the file at `path` differs from that of the first `n` bytes of the region. -/
def Differs (path : Path) (w : Device) (n : Nat) : Prop :=
  ∃ c, w.sd path = some c ∧ X.sha256 c ≠ X.sha256 (w.bytes 0 n)

/-- `verify_backup`: the restore is complete, or it is repeated after an erase. -/
theorem verify_backup_round (app_len backup_len : Nat) (w : Device) :
    wp (phaseStep (.device X fuel) ⟨.verify_backup, app_len, backup_len⟩) (Ends (Quiet w)
      (fun r _ =>
        Enters r .backup_restored app_len backup_len ∧ Matches X .app_backup_file_name w app_len ∨
        Enters r .erase_flash_before_restore app_len backup_len ∧
          Differs X .app_backup_file_name w app_len)
      (fun e _ => e.external = true) (firmware_max_size < app_len)) w := by
  unfold phaseStep verifyBackupPhase
  refine wp_bind_ends (K := fun r _ => r = .backup_restored ∧ Matches X .app_backup_file_name w app_len ∨
    r = .erase_flash_before_restore ∧ Differs X .app_backup_file_name w app_len)
    (wp_bind_attempt (verifyBackup_spec X .app_backup_file_name (some app_len) rfl w)
      ?_ ?_) ?_
  · rintro _ w' hP ⟨hle, c, hc, heq, -⟩
    exact ⟨hP, .inl ⟨rfl, hle, c, hc, heq⟩⟩
  · rintro e w' hP (he | ⟨rfl, h⟩)
    · have hne : e ≠ .hash_compare_mismatch := by rintro rfl; cases he
      simp only [if_neg hne]
      exact ⟨hP, he⟩
    · exact ⟨hP, .inr ⟨rfl, h⟩⟩
  · rintro r w' hP (⟨rfl, h⟩ | ⟨rfl, h⟩)
    · exact ⟨hP, .inl ⟨rfl, h⟩⟩
    · exact ⟨hP, .inr ⟨rfl, h⟩⟩

/-- Only the counter `firmware_size` may have changed, to `n`. -/
def Recording (n : Nat) (w w' : Device) : Prop :=
  Quiet w w' ∨ Quiet (w.setNvm .firmware_size (.counter n)) w'

/-- Writing the firmware size: it is stored, or the call that was just made has failed. -/
theorem setFirmwareSize_spec (n : Nat) (w : Device) :
    wp (writeCounter .firmware_size n).orIgnore (Ends (Recording n w)
      (fun _ w' => Quiet (w.setNvm .firmware_size (.counter n)) w' ∨
        w' = w.seek (w.tick + 1) ∧ (w.faults w.tick).fails = true)
      (fun _ _ => False) False) w := by
  refine wp_orIgnore_ends (wp_ends_mono (nvmWrite_spec .firmware_size (.counter n) w)
    (fun _ h => h) (fun _ _ _ h => .inl h) (fun _ _ _ h => h) id) ?_
  exact fun _ _ _ h => .inr h

/-- `verify_flash`: the update is complete and its size recorded, unless the write of the counter
    has failed; or the region is erased again. -/
theorem verify_flash_round (app_len backup_len : Nat) (w : Device) :
    wp (phaseStep (.device X fuel) ⟨.verify_flash, app_len, backup_len⟩) (Ends
      (Recording app_len w)
      (fun r w' =>
        Enters r .complete app_len backup_len ∧ Matches X .fw_file_name w app_len ∧
          (Quiet (w.setNvm .firmware_size (.counter app_len)) w' ∨
            ∃ c t, w.sd .fw_file_name = some c ∧ t = w.tick + (compareCalls c.length).length ∧
              w' = w.seek (t + 1) ∧ (w.faults t).fails = true) ∨
        Enters r .erase_flash app_len backup_len ∧ Quiet w w' ∧ Differs X .fw_file_name w app_len)
      (fun e _ => e.external = true) (firmware_max_size < app_len)) w := by
  have hverify : wp (verifyBackup X .fw_file_name (some app_len)) (Ends (Recording app_len w)
      (fun _ w' => app_len ≤ firmware_max_size ∧ ∃ c, w.sd .fw_file_name = some c ∧
        X.sha256 c = X.sha256 (w.bytes 0 app_len) ∧
        w' = w.seek (w.tick + (compareCalls c.length).length))
      (fun e w' => e.external = true ∨
        e = .hash_compare_mismatch ∧ Quiet w w' ∧ Differs X .fw_file_name w app_len)
      (firmware_max_size < app_len)) w :=
    wp_ends_mono (verifyBackup_spec X .fw_file_name (some app_len) rfl w) (fun _ h => .inl h)
      (fun _ _ _ h => h) (fun _ _ hq h => h.imp_right fun h => ⟨h.1, hq, h.2⟩) id
  unfold phaseStep verifyImage
  refine wp_bind_ends (K := fun r w' =>
    r = .complete ∧ Matches X .fw_file_name w app_len ∧
      (Quiet (w.setNvm .firmware_size (.counter app_len)) w' ∨
        ∃ c t, w.sd .fw_file_name = some c ∧ t = w.tick + (compareCalls c.length).length ∧
          w' = w.seek (t + 1) ∧ (w.faults t).fails = true) ∨
    r = .erase_flash ∧ Quiet w w' ∧ Differs X .fw_file_name w app_len)
    (wp_bind_attempt hverify ?_ ?_) ?_
  · rintro _ _ - ⟨hle, c, hc, heq, rfl⟩
    refine wp_bind_ends (wp_ends_mono (setFirmwareSize_spec app_len _) ?_ (fun _ _ _ h => h)
      (fun _ _ _ h => h.elim) False.elim) ?_
    · rintro w' (⟨t, rfl⟩ | ⟨t, rfl⟩)
      · exact .inl (quiet_seek _ _)
      · exact .inr ⟨t, rfl⟩
    · rintro _ w' hP (⟨t, rfl⟩ | ⟨rfl, hf⟩)
      · exact ⟨hP, .inl ⟨rfl, ⟨hle, c, hc, heq⟩, .inl ⟨t, rfl⟩⟩⟩
      · exact ⟨hP, .inl ⟨rfl, ⟨hle, c, hc, heq⟩, .inr ⟨c, _, hc, rfl, rfl, hf⟩⟩⟩
  · rintro e w' hP (he | ⟨rfl, hq, h⟩)
    · have hne : e ≠ .hash_compare_mismatch := by rintro rfl; cases he
      simp only [if_neg hne]
      exact ⟨hP, he⟩
    · exact ⟨hP, .inr ⟨rfl, hq, h⟩⟩
  · rintro r w' hP (⟨rfl, h⟩ | ⟨rfl, h⟩)
    · exact ⟨hP, .inl ⟨rfl, h⟩⟩
    · exact ⟨hP, .inr ⟨rfl, h⟩⟩

end Miso.Boot
