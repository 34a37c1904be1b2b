import Miso.Boot.Outcomes

/-!
# Only accepted candidates are flashed

`checkFirmwareImage` compares the candidate with the region before it looks at the signature, and
drops every error of the comparison but a mismatch.  `authentic_iff` says exactly when this
matters: a candidate can pass unsigned if and only if a call of that comparison fails.
-/

namespace Miso.Boot

open Zig

variable {Digest : Type} [DecidableEq Digest] (X : Externs Digest) (fuel : Nat)

/-- One round of the loop of `firmwareUpdateStateMachine` leads from `a` to `b`. -/
def Round {σ : Type} (F : Firmware σ) (a b : update_state × σ) : Prop :=
  phaseStep F a.1 a.2 = (.ok (.inl b.1), b.2)

/-- `checkFirmwareImage` accepts only what `verifyFirmware` accepts, and in a run of the machine
    started at `check` the region is erased and flashed only after the candidate was accepted. -/
def Authentic (w : Device) : Prop :=
  ((checkFirmwareImage X .fw_file_name w).1 = .ok () →
    Accepted X .fw_file_name w (checkFirmwareImage X .fw_file_name w).2) ∧
  ∀ st w', Relation.ReflTransGen (Round (.device X fuel)) (.start .check, w) (st, w') →
    st.phase = .erase_flash ∨ st.phase = .flash → Accepted X .fw_file_name w w'

/-! ## The log grows -/

/-- Calls have been added to the log. -/
def Logs (w w' : Device) : Prop := ∃ l, w'.log = l ++ w.log

theorem Quiet.logs {w w' : Device} (h : Quiet w w') : Logs w w' := by
  obtain ⟨t, rfl⟩ := h
  exact ⟨[], rfl⟩

theorem Checking.logs {w w' : Device} (h : Checking w w') : Logs w w' := by
  obtain ⟨t, k, l, rfl, -⟩ := h
  exact ⟨l, rfl⟩

theorem Saving.logs {path : Path} {w w' : Device} (h : Saving path w w') : Logs w w' := by
  obtain ⟨t, d, rfl, -⟩ := h
  exact ⟨[], rfl⟩

theorem Flashing.logs {w w' : Device} (h : Flashing w w') : Logs w w' := by
  obtain ⟨t, f, l, rfl, -⟩ := h
  exact ⟨l, rfl⟩

theorem Recording.logs {n : Nat} {w w' : Device} (h : Recording n w w') : Logs w w' := by
  obtain ⟨t, rfl⟩ | ⟨t, rfl⟩ := h
  · exact ⟨[], rfl⟩
  · exact ⟨[], rfl⟩

omit [DecidableEq Digest] in
theorem Accepted.logs {X : Externs Digest} {path : Path} {w w₁ w₂ : Device}
    (h : Accepted X path w w₁) (hl : Logs w₁ w₂) : Accepted X path w w₂ := by
  obtain ⟨c, key, hc, hkey, hhdr, hval, l, hlog, hmem⟩ := h
  obtain ⟨l', hlog'⟩ := hl
  exact ⟨c, key, hc, hkey, hhdr, hval, l' ++ l, by rw [hlog', hlog, List.append_assoc],
    List.mem_append_right _ hmem⟩

/-- Behind the `check` phase, a round only adds to the log and does not return to `check`. -/
theorem phaseStep_logs {st : update_state} (hst : st.phase ≠ .check) (w : Device) :
    wp (phaseStep (.device X fuel) st) (Ends (Logs w)
      (fun r _ => ∀ st', r = .inl st' → st'.phase ≠ .check) (fun _ _ => True) True) w := by
  obtain ⟨phase, app_len, backup_len⟩ := st
  cases phase with
  | check => exact absurd rfl hst
  | backup =>
    refine wp_ends_mono (backup_round X fuel app_len backup_len w) (fun _ h => h.logs) ?_
      (fun _ _ _ _ => trivial) id
    rintro _ w' - ⟨n, rfl, -⟩ _ ⟨⟩
    simp
  | erase_flash =>
    refine wp_ends_mono (erase_round X fuel (.inl ⟨rfl, rfl⟩) app_len backup_len w)
      (fun _ h => h.logs) ?_ (fun _ _ _ _ => trivial) False.elim
    rintro _ w' - ⟨rfl, -⟩ _ ⟨⟩
    simp
  | flash =>
    refine wp_ends_mono (flash_round X fuel app_len backup_len w) (fun _ h => h.1.logs) ?_
      (fun _ _ _ _ => trivial) False.elim
    rintro _ w' - (⟨n, rfl, -⟩ | rfl | ⟨rfl, -⟩) _ ⟨⟩ <;> simp
  | verify_flash =>
    refine wp_ends_mono (verify_flash_round X fuel app_len backup_len w) (fun _ h => h.logs) ?_
      (fun _ _ _ _ => trivial) fun _ => trivial
    rintro _ w' - (⟨rfl, -⟩ | ⟨rfl, -⟩) _ ⟨⟩ <;> simp
  | erase_flash_before_restore =>
    refine wp_ends_mono (erase_round X fuel (.inr ⟨rfl, rfl⟩) app_len backup_len w)
      (fun _ h => h.logs) ?_ (fun _ _ _ _ => trivial) False.elim
    rintro _ w' - ⟨rfl, -⟩ _ ⟨⟩
    simp
  | restore_backup =>
    refine wp_ends_mono (restore_round X fuel app_len backup_len w) (fun _ h => h.1.logs) ?_
      (fun _ _ _ _ => trivial) False.elim
    rintro _ w' - (⟨n, rfl, -⟩ | ⟨rfl, -⟩) _ ⟨⟩ <;> simp
  | verify_backup =>
    refine wp_ends_mono (verify_backup_round X fuel app_len backup_len w) (fun _ h => h.logs) ?_
      (fun _ _ _ _ => trivial) fun _ => trivial
    rintro _ w' - (⟨rfl, -⟩ | ⟨rfl, -⟩) _ ⟨⟩ <;> simp
  | complete => exact ⟨⟨[], rfl⟩, fun _ h => by cases h⟩
  | backup_restored => exact ⟨⟨[], rfl⟩, fun _ h => by cases h⟩

/-! ## Acceptance -/

/-- Unless the comparison fails, every state of a run behind `check` is accepted. -/
theorem rounds_accepted {w : Device} (hcmp : ¬ ComparisonFails .fw_file_name w)
    {a : update_state × Device}
    (h : Relation.ReflTransGen (Round (.device X fuel)) (.start .check, w) a) :
    a = (.start .check, w) ∨ a.1.phase ≠ .check ∧ Accepted X .fw_file_name w a.2 := by
  induction h with
  | refl => exact .inl rfl
  | @tail a b _ hround ih =>
    right
    obtain rfl | ⟨hphase, hacc⟩ := ih
    · obtain ⟨-, henter, hacc | hcmp'⟩ := wp_of_run (check_round X fuel 0 0 w) hround
      · obtain ⟨_, _⟩ := b
        cases henter
        exact ⟨by simp, hacc⟩
      · exact absurd hcmp' hcmp
    · have hlogs := wp_of_run (phaseStep_logs X fuel hphase a.2) hround
      exact ⟨hlogs.2 _ rfl, hacc.logs hlogs.1⟩

/-- Without a failing call of the comparison, authenticity holds for every pattern of failures
    and resets. -/
theorem authentic_of_comparison {w : Device} (hcmp : ¬ ComparisonFails .fw_file_name w) :
    Authentic X fuel w := by
  refine ⟨fun hok => ?_, fun st w' hrun hphase => ?_⟩
  · have hspec := wp_of_run (checkFirmwareImage_spec X .fw_file_name w)
      (show _ = (.ok (), (checkFirmwareImage X .fw_file_name w).2) by rw [← hok])
    exact hspec.2.resolve_right hcmp
  · obtain h | ⟨-, hacc⟩ := rounds_accepted X fuel hcmp hrun
    · cases h
      rcases hphase with h | h <;> cases h
    · exact hacc

/-- **Authenticity holds exactly when no call of the hash comparison fails**, whatever else
    fails. -/
theorem authentic_iff {w : Device} (hno : ¬ w.Interrupted) :
    Authentic X fuel w ↔ ¬ ComparisonFails .fw_file_name w := by
  refine ⟨?_, authentic_of_comparison X fuel⟩
  rintro ⟨hcall, -⟩ hcmp
  obtain ⟨t, hrun⟩ := checkFirmwareImage_dropped X hno hcmp
  rw [hrun] at hcall
  obtain ⟨_, _, -, -, -, -, l, hlog, hmem⟩ := hcall rfl
  have hnil : l = [] := List.append_left_eq_self.mp hlog.symm
  rw [hnil] at hmem
  cases hmem

theorem authentic_iff_sample :
    Authentic .plain 4 (.sample (fun _ => .none) (some [0x42]) none) := by
  refine (authentic_iff .plain 4 ?_).mpr ?_
  · rintro ⟨t, h⟩
    cases h
  · rintro ⟨c, hc, -, -, hf⟩
    cases hc
    revert hf
    decide +kernel

/-- An image library that refuses every image. -/
def Externs.refusing : Externs (List UInt8) :=
  { Externs.plain with bootutil_img_validate := fun _ _ => false }

/-- When the candidate cannot be opened for the comparison, it passes the check unsigned. -/
theorem checkFirmwareImage_unsigned :
    ¬ Authentic .refusing 4
      (.sample (fun t => if t = 3 then .fail .fr_disk_err [] else .none) (some [0x42]) none) := by
  rintro ⟨h, -⟩
  obtain ⟨_, _, -, -, -, hval, -⟩ := h (by decide +kernel)
  cases hval

end Miso.Boot
