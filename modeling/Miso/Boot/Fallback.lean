import Miso.Boot.Authenticity
import Miso.Boot.Task

/-!
# The fallback after an early failure

`taskFunction` answers every error of `firmwareUpdate()` but two with `firmwareRestore()`, which
programs whatever `APP.BAK` the card then holds over the region.

* `Reprograms` — an early failure is answered so, and the fallback gets as far as its first write;
* `earlyFailure_iff` — the attempt makes no call of the flash controller exactly where that is not
  the case, and there the region stays as it was.
-/

namespace Miso.Boot

open Zig

variable {Digest : Type} [DecidableEq Digest] (X : Externs Digest) (fuel : Nat)

/-- The phases of `firmwareUpdate()` before `erase_flash`. -/
def beforeErase : BootM Unit := do
  let _ ← checkFirmwareCandidate (.device X fuel)
  let _ ← performFirmwareBackup (.device X fuel)

/-- If the update fails before its `erase_flash` phase, the attempt leaves the region alone. -/
def EarlyFailureKeepsFlash (w : Device) : Prop :=
  ∀ e, (beforeErase X fuel w).1 = .err e → (updateAttempt X fuel w).2.flash = w.flash

/-- The calls of the flash controller, newest first. -/
def Device.mscCalls (w : Device) : List Call := w.log.filter Call.msc

/-- If the update fails before its `erase_flash` phase, the attempt does not call the flash
controller. -/
def EarlyFailureSparesFlash (w : Device) : Prop :=
  ∀ e, (beforeErase X fuel w).1 = .err e → (updateAttempt X fuel w).2.mscCalls = w.mscCalls

/-- A restore gets as far as its first write: `APP.BAK` is on the card, is not empty and fits, and
it can be opened, synchronised and read. -/
def Device.Programs (w : Device) : Prop :=
  ∃ c, w.sd .app_backup_file_name = some c ∧ c ≠ [] ∧ c.length ≤ firmware_max_size ∧
    survey w.faults [true, true, true] w.tick = .passed

/-- The update fails early, with an error that is not one of the two after which the request is
cleared, and the fallback gets as far as its first write. -/
def Reprograms (w : Device) : Prop :=
  ∃ e w₁, beforeErase X fuel w = (.err e, w₁) ∧ e ≠ .firmware_candidate_not_valid ∧
    e ≠ .firmware_already_in_system ∧ w₁.Programs

/-- An error before `erase_flash` is the result of the machine. -/
theorem firmwareUpdate_early {w w' : Device} {e : Error}
    (h : beforeErase X fuel w = (.err e, w')) (n : Nat) :
    firmwareUpdate (.device X fuel) (n + 2) w = (.err e, w') := by
  unfold beforeErase at h
  rcases hc : checkFirmwareImage X .fw_file_name w with ⟨x, w₁⟩
  cases x with
  | ok _ =>
    have hcand : checkFirmwareCandidate (.device X fuel) w = (.ok .backup, w₁) := Prog.bind_ok _ hc
    rw [Prog.bind_ok _ hcand] at h
    have hround : phaseStep (.device X fuel) (.start .check) w =
        (.ok (.inl (.start .backup)), w₁) := Prog.bind_ok _ hcand
    refine (Prog.loop_inl (n + 1) hround).trans (Prog.loop_err n (Prog.bind_err _ ?_))
    rcases hb : performFirmwareBackup (.device X fuel) w₁ with ⟨y, w₂⟩
    cases y with
    | ok r => rw [Prog.bind_ok _ hb] at h; cases h
    | err e' => rw [Prog.bind_err _ hb] at h; cases h; rfl
    | trap => rw [Prog.bind_trap _ hb] at h; cases h
    | halt => rw [Prog.bind_halt _ hb] at h; cases h
  | err e' =>
    have hcand : checkFirmwareCandidate (.device X fuel) w = (.err e', w₁) := Prog.bind_err _ hc
    rw [Prog.bind_err _ hcand] at h
    cases h
    exact Prog.loop_err _ (Prog.bind_err _ hcand)
  | trap =>
    have hcand : checkFirmwareCandidate (.device X fuel) w = (.trap, w₁) := Prog.bind_trap _ hc
    rw [Prog.bind_trap _ hcand] at h
    cases h
  | halt =>
    have hcand : checkFirmwareCandidate (.device X fuel) w = (.halt, w₁) := Prog.bind_halt _ hc
    rw [Prog.bind_halt _ hcand] at h
    cases h

/-! ## The log -/

section Log

variable {w w' : Device}

theorem logs_frame : Frame Logs where
  refl w := ⟨[], rfl⟩
  trans := by
    rintro _ _ _ ⟨l, h⟩ ⟨l', h'⟩
    exact ⟨l' ++ l, by rw [h', h, List.append_assoc]⟩

/-- The region has not changed, and the flash controller has not been called. -/
structure Spares (w w' : Device) : Prop where
  flash : w'.flash = w.flash
  mscCalls : w'.mscCalls = w.mscCalls

theorem spares_frame : Frame Spares where
  refl _ := ⟨rfl, rfl⟩
  trans h h' := ⟨h'.flash.trans h.flash, h'.mscCalls.trans h.mscCalls⟩

theorem Quiet.spares (h : Quiet w w') : Spares w w' := by
  obtain ⟨t, rfl⟩ := h
  exact ⟨rfl, rfl⟩

theorem Saving.spares {path : Path} (h : Saving path w w') : Spares w w' := by
  obtain ⟨t, d, rfl, -⟩ := h
  exact ⟨rfl, rfl⟩

theorem Checking.spares (h : Checking w w') : Spares w w' := by
  obtain ⟨t, k, l, rfl, hl⟩ := h
  have hnone : l.filter Call.msc = [] :=
    List.filter_eq_nil_iff.mpr fun c hc => by simp [hl c hc]
  refine ⟨rfl, ?_⟩
  unfold Device.mscCalls
  rw [List.filter_append, hnone, List.nil_append]

theorem unmount_spares : Keeps Spares unmount := by
  intro w
  unfold unmount
  rw [checked_run]
  cases w.faults w.tick <;> exact (quiet_seek _ _).spares

theorem clearUpdateRequest_spares : Keeps Spares clearUpdateRequest.orUnreachable := by
  refine Keeps.orUnreachable spares_frame fun w => ?_
  show wp (nvmWrite .update_request (.counter 0)) (fun _ w' => Spares w w') w
  unfold nvmWrite
  rw [wp_bind, wp_draw, thenPost_ok]
  cases w.faults w.tick with
  | halt part =>
    rw [wp_halt]
    split
    · exact ⟨rfl, rfl⟩
    · exact ⟨rfl, rfl⟩
  | _ => exact ⟨rfl, rfl⟩

/-- A write stays in the log. -/
theorem Logs.mscCalls_ne {addr n : Nat} (h : Logs (w.record (.MSC_WriteWord addr n)) w') :
    w'.mscCalls ≠ w.mscCalls := by
  obtain ⟨l, hl⟩ := h
  intro heq
  have hlen : w'.mscCalls.length = w.mscCalls.length := congrArg List.length heq
  unfold Device.mscCalls at hlen
  rw [hl, List.filter_append, List.length_append] at hlen
  have hcons : ((w.record (.MSC_WriteWord addr n)).log.filter Call.msc).length =
      (w.log.filter Call.msc).length + 1 := rfl
  omega

theorem checked_logs (e : FRESULT → Error) : Keeps Logs (checked e) := by
  intro w
  rw [checked_run]
  cases w.faults w.tick <;> exact (quiet_seek _ _).logs

theorem readEof_logs (f : File) (len : Nat) : Keeps Logs (readEof f len) := by
  unfold readEof f_read
  apply Keeps.ite
  · exact .pure logs_frame _
  refine .bind logs_frame ?_ fun r => ?_
  · refine .bind logs_frame (checked_logs _) fun _ => .bind logs_frame (.get logs_frame) fun _ => ?_
    apply Keeps.ite
    · exact .bind logs_frame (.throw logs_frame _) fun _ => .pure logs_frame _
    · exact .pure logs_frame _
  · apply Keeps.ite
    · exact .pure logs_frame _
    · exact .pure logs_frame _

/-- The write is logged, however it ends. -/
theorem MSC_WriteWord_logs (addr : Nat) (data : List UInt8) (w : Device) :
    Logs (w.record (.MSC_WriteWord addr data.length)) (MSC_WriteWord addr data w).2 := by
  show wp (MSC_WriteWord addr data)
    (fun _ w' => Logs (w.record (.MSC_WriteWord addr data.length)) w') w
  unfold MSC_WriteWord
  simp only [wp_bind, wp_modify, thenPost_ok, wp_draw]
  cases (w.record (.MSC_WriteWord addr data.length)).faults
    (w.record (.MSC_WriteWord addr data.length)).tick <;> exact ⟨[], rfl⟩

theorem writePage_logs {α : Type} (addr : Nat) (data : List UInt8) (a : α) (w : Device) :
    Logs (w.record (.MSC_WriteWord addr data.length)) ((do
      if !(← MSC_WriteWord addr data) then Prog.throw .flash_write_error
      pure a : BootM α) w).2 := by
  refine Keeps.behind logs_frame (MSC_WriteWord_logs addr data w) fun ok => ?_
  apply Keeps.ite
  · exact .bind logs_frame (.throw logs_frame _) fun _ => .pure logs_frame _
  · exact .pure logs_frame _

theorem flashRound_logs (len : Nat) (s : File × Nat) : Keeps Logs (flashRound len s) := by
  unfold flashRound
  refine .bind logs_frame (readEof_logs _ _) ?_
  rintro ⟨_ | br, f⟩
  · exact .pure logs_frame _
  · have hwrite (addr : Nat) (data : List UInt8) (r : (File × Nat) ⊕ Unit) :
        Keeps Logs (do
          if !(← MSC_WriteWord addr data) then Prog.throw .flash_write_error
          pure r : BootM _) :=
      fun w => logs_frame.trans ⟨[_], rfl⟩ (writePage_logs addr data r w)
    apply Keeps.ite
    · exact .bind logs_frame (.trap logs_frame) fun _ => hwrite _ _ _
    · exact hwrite _ _ _

end Log

/-! ## The first calls of a restore -/

/-- From `w`, `m` is cut off or ends with an error of the environment, and nothing has changed. -/
def BreaksOff {α : Type} (m : BootM α) (w : Device) : Prop :=
  ∃ t, (∃ e, e.external = true ∧ m w = (.err e, w.seek t)) ∨ m w = (.halt, w.seek t)

namespace BreaksOff

variable {α β : Type} {m : BootM α} {w : Device}

theorem of_schedule {calls : List Bool} {x : Exit Error α} (h : Schedule m calls x w)
    (hs : survey w.faults calls w.tick ≠ .passed) : BreaksOff m w := by
  unfold Schedule at h
  cases hsurvey : survey w.faults calls w.tick with
  | passed => exact absurd hsurvey hs
  | failed =>
    rw [hsurvey] at h
    obtain ⟨t, herr | ⟨-, hhalt⟩⟩ := h
    · exact ⟨t, .inl herr⟩
    · exact ⟨t, .inr hhalt⟩
  | halted =>
    rw [hsurvey] at h
    obtain ⟨t, -, hhalt⟩ := h
    exact ⟨t, .inr hhalt⟩

protected theorem bind (h : BreaksOff m w) (f : α → BootM β) : BreaksOff (m >>= f) w := by
  obtain ⟨t, ⟨e, he, hrun⟩ | hrun⟩ := h
  · exact ⟨t, .inl ⟨e, he, Prog.bind_err f hrun⟩⟩
  · exact ⟨t, .inr (Prog.bind_halt f hrun)⟩

theorem behind {a : α} {t : Nat} {f : α → BootM β} (hm : m w = (.ok a, w.seek t))
    (h : BreaksOff (f a) (w.seek t)) : BreaksOff (m >>= f) w := by
  obtain ⟨t', ⟨e, he, hrun⟩ | hrun⟩ := h
  · exact ⟨t', .inl ⟨e, he, (Prog.bind_ok f hm).trans hrun⟩⟩
  · exact ⟨t', .inr ((Prog.bind_ok f hm).trans hrun)⟩

theorem loop {body : β → BootM (β ⊕ α)} {b : β} (h : BreaksOff (body b) w) (n : Nat) :
    BreaksOff (Prog.loop body (n + 1) b) w := h.bind _

theorem closing {f : File} (h : BreaksOff m w) : BreaksOff (Prog.deferring (f_close f) m) w := by
  obtain ⟨t, ⟨e, he, hrun⟩ | hrun⟩ := h
  · by_cases hh : (w.faults t).halts = true
    · exact ⟨t + 1, .inr ((closing_err hrun).trans (if_pos hh))⟩
    · exact ⟨t + 1, .inl ⟨e, he, (closing_err hrun).trans (if_neg hh)⟩⟩
  · exact ⟨t, .inr (closing_halt hrun)⟩

end BreaksOff

section Begin

variable {path : Path} {w : Device} {c : List UInt8}

/-- The first read of the file. -/
theorem firstRead_schedule (hc : w.sd path = some c) (hne : c ≠ []) :
    Schedule (readEof ⟨path, 0, c.length⟩ flash_page_size) [true] (.ok (some (c.take flash_page_size),
      ⟨path, 0 + (c.take flash_page_size).length, c.length⟩)) w :=
  Schedule.readEof_next (f := ⟨path, 0, c.length⟩) ⟨hc, rfl, Nat.zero_le _⟩
    (List.length_pos_iff.mpr hne) (by decide)

theorem flashFirmware_breaksOff (hc : w.sd path = some c) (hne : c ≠ [])
    (hfit : c.length ≤ firmware_max_size)
    (hs : survey w.faults [true, true, true] w.tick ≠ .passed) :
    BreaksOff (flashFirmware path none) w := by
  unfold flashFirmware
  refine .behind (t := w.tick) (appSlice_run firmware_max_size rfl (Nat.le_refl _) w) ?_
  show BreaksOff _ w
  by_cases hopen : survey w.faults [true] w.tick = .passed
  · refine .behind ((Schedule.f_open hc).run hopen) (.closing ?_)
    have hsync := Schedule.checked FRESULT.check_external (w.seek (w.tick + 1))
    by_cases hpass : survey w.faults [true] (w.tick + 1) = .passed
    · refine .behind (w := w.seek (w.tick + 1)) (hsync.run hpass) ?_
      rw [if_neg (show ¬File.size ⟨path, 0, c.length⟩ > firmware_max_size from Nat.not_lt.mpr hfit)]
      have hround (hread : survey w.faults [true] (w.tick + 2) ≠ .passed) :
          BreaksOff (flashRound firmware_max_size (⟨path, 0, c.length⟩, 0)) (w.seek (w.tick + 2)) :=
        .bind (.of_schedule (firstRead_schedule (w := w.seek (w.tick + 2)) hc hne) hread) _
      refine .bind (.loop (hround fun hread => ?_) _) _
      apply hs
      rw [show [true, true, true] = [true] ++ ([true] ++ [true]) from rfl, survey_append_passed,
        survey_append_passed]
      exact ⟨hopen, hpass, hread⟩
    · exact .bind (.of_schedule hsync hpass) _
  · exact .bind (.of_schedule (Schedule.f_open hc) hopen) _

theorem flashFirmware_writes (hc : w.sd path = some c) (hne : c ≠ [])
    (hfit : c.length ≤ firmware_max_size)
    (hs : survey w.faults [true, true, true] w.tick = .passed) :
    ∃ n, Logs (w.record (.MSC_WriteWord 0 n)) (flashFirmware path none w).2 := by
  rw [show [true, true, true] = [true] ++ ([true] ++ [true]) from rfl, survey_append_passed,
    survey_append_passed] at hs
  obtain ⟨hopen, hsync, hread⟩ := hs
  let data := c.take flash_page_size ++
    List.replicate (flash_page_size - (c.take flash_page_size).length) 0xFF
  refine ⟨data.length, ?_⟩
  have hround : Logs (w.record (.MSC_WriteWord 0 data.length))
      (flashRound firmware_max_size (⟨path, 0, c.length⟩, 0) (w.seek (w.tick + 2))).2 := by
    have hrun := (firstRead_schedule (w := w.seek (w.tick + 2)) hc hne).run hread
    unfold flashRound
    rw [Prog.bind_ok _ hrun]
    simp only
    rw [if_neg (show ¬0 + flash_page_size > firmware_max_size by decide)]
    exact writePage_logs 0 data _ _
  have hopens : f_open path fMode.read w = (.ok ⟨path, 0, c.length⟩, w.seek (w.tick + 1)) :=
    (Schedule.f_open hc).run hopen
  have hsyncs : f_sync ⟨path, 0, c.length⟩ (w.seek (w.tick + 1)) = (.ok (), w.seek (w.tick + 2)) :=
    (Schedule.checked FRESULT.check_external (w.seek (w.tick + 1))).run hsync
  unfold flashFirmware
  rw [Prog.bind_ok _ (appSlice_run firmware_max_size rfl (Nat.le_refl _) w), Prog.bind_ok _ hopens]
  apply Keeps.deferring_behind logs_frame (checked_logs _)
  rw [Prog.bind_ok _ hsyncs,
    if_neg (show ¬File.size ⟨path, 0, c.length⟩ > firmware_max_size from Nat.not_lt.mpr hfit)]
  refine Keeps.behind logs_frame (Keeps.behind logs_frame hround fun r => ?_)
    fun _ => .pure logs_frame _
  cases r with
  | inl s => exact Keeps.loop logs_frame (flashRound_logs _) _ _
  | inr a => exact .ret logs_frame a

end Begin

/-- The invariant of a restore that has nothing to program. -/
def Idle (w₀ : Device) (st : update_state) (w : Device) : Prop :=
  Quiet w₀ w ∧
  match st.phase with
  | .restore_backup | .backup_restored => True
  | .verify_backup => w₀.sd .app_backup_file_name = some [] ∧ st.app_len = 0
  | _ => False

theorem phaseStep_idle {w₀ : Device} (h : Inert w₀ .app_backup_file_name) (st : update_state)
    (w : Device) (hi : Idle w₀ st w) :
    wp (phaseStep (.device X fuel) st) (Ends (Quiet w₀)
      (fun r w' => Sum.elim (fun st' => Idle w₀ st' w') (fun _ => True) r)
      (fun _ _ => True) False) w := by
  obtain ⟨phase, app_len, backup_len⟩ := st
  obtain ⟨hq, hi⟩ := hi
  have hinert : Inert w .app_backup_file_name := by
    obtain ⟨t, rfl⟩ := hq
    exact h
  cases phase with
  | restore_backup =>
    refine wp_ends_mono (restore_round X fuel app_len backup_len w)
      (fun _ hP => quiet_frame.trans hq (hP.2 hinert)) ?_ (fun _ _ _ _ => trivial) id
    rintro _ w' ⟨-, hq'⟩ (⟨n, rfl, c, hc, rfl, hle, -⟩ | ⟨-, hnot⟩)
    · have hnil : c = [] := (hinert c hc).resolve_right (Nat.not_lt.mpr hle)
      subst hnil
      exact ⟨quiet_frame.trans hq (hq' hinert), hq.sd ▸ hc, rfl⟩
    · exact absurd hinert hnot
  | verify_backup =>
    obtain ⟨hc, rfl⟩ := hi
    refine wp_ends_mono (verify_backup_round X fuel 0 backup_len w)
      (fun _ hP => quiet_frame.trans hq hP) ?_ (fun _ _ _ _ => trivial) (Nat.not_lt_zero _)
    rintro _ w' hP (⟨rfl, -⟩ | ⟨-, c, hc', hne⟩)
    · exact ⟨quiet_frame.trans hq hP, trivial⟩
    · rw [hq.sd, hc] at hc'
      cases hc'
      exact absurd rfl hne
  | backup_restored => exact ⟨hq, trivial⟩
  | _ => exact hi.elim

theorem firmwareRestore_inert {w : Device} (h : Inert w .app_backup_file_name) (n : Nat) :
    wp (firmwareRestore (.device X fuel) n) (Ends (Quiet w) (fun _ _ => True) (fun _ _ => True)
      False) w :=
  wp_loop (Idle w) (phaseStep_idle X fuel h) (fun _ _ hi => hi.1) n _ w ⟨quiet_frame.refl w, trivial⟩

/-- A restore that does not get as far as its first write changes nothing. -/
theorem firmwareRestore_spares {w : Device} (h : ¬w.Programs) (n : Nat) :
    wp (firmwareRestore (.device X fuel) (n + 1)) (Ends (Quiet w) (fun _ _ => True)
      (fun _ _ => True) False) w := by
  by_cases hb : Inert w .app_backup_file_name
  · exact firmwareRestore_inert X fuel hb (n + 1)
  obtain ⟨c, hc, hnot⟩ := not_forall.mp hb |>.imp fun _ h => Classical.not_imp.mp h
  obtain ⟨hne, hlt⟩ := not_or.mp hnot
  have hfit := Nat.not_lt.mp hlt
  obtain ⟨t, ⟨e, he, hrun⟩ | hrun⟩ :=
    flashFirmware_breaksOff hc hne hfit fun hs => h ⟨c, hc, hne, hfit, hs⟩
  · have hwrite : e ≠ .flash_write_error := by
      rintro rfl
      cases he
    have hrestore : restoreBackup (.device X fuel) w = (.err e, w.seek t) := by
      refine (Prog.bind_ok
        (m := ((Firmware.device X fuel).flashFirmware .app_backup_file_name none).attempt) _
        (Prog.attempt_err hrun)).trans ?_
      simp only [if_neg hwrite]
      rfl
    exact wp_of_eq (Prog.loop_err n (Prog.bind_err _ hrestore)) ⟨quiet_seek w t, trivial⟩
  · have hrestore : restoreBackup (.device X fuel) w = (.halt, w.seek t) :=
      Prog.bind_halt (m := ((Firmware.device X fuel).flashFirmware .app_backup_file_name none).attempt)
        _ (Prog.attempt_halt hrun)
    exact wp_of_eq (Prog.bind_halt _ (Prog.bind_halt _ hrestore)) (quiet_seek w t)

/-- The invariant of a restore behind its first write. -/
def Rewriting (w₀ : Device) (st : update_state) (w : Device) : Prop :=
  Logs w₀ w ∧
  match st.phase with
  | .erase_flash_before_restore | .restore_backup | .backup_restored => True
  | .verify_backup => st.app_len ≤ firmware_max_size
  | _ => False

theorem phaseStep_rewriting {w₀ : Device} (st : update_state) (w : Device)
    (hi : Rewriting w₀ st w) :
    wp (phaseStep (.device X fuel) st) (Ends (Logs w₀)
      (fun r w' => Sum.elim (fun st' => Rewriting w₀ st' w') (fun _ => True) r)
      (fun _ _ => True) False) w := by
  obtain ⟨phase, app_len, backup_len⟩ := st
  obtain ⟨hlogs, hi⟩ := hi
  cases phase with
  | erase_flash_before_restore =>
    refine wp_ends_mono (erase_round X fuel (.inr ⟨rfl, rfl⟩) app_len backup_len w)
      (fun _ hP => logs_frame.trans hlogs hP.logs) ?_ (fun _ _ _ _ => trivial) id
    rintro _ w' hP ⟨rfl, -⟩
    exact ⟨logs_frame.trans hlogs hP.logs, trivial⟩
  | restore_backup =>
    refine wp_ends_mono (restore_round X fuel app_len backup_len w)
      (fun _ hP => logs_frame.trans hlogs hP.1.logs) ?_ (fun _ _ _ _ => trivial) id
    rintro _ w' ⟨hP, -⟩ (⟨n, rfl, c, -, -, hle, -⟩ | ⟨rfl, -⟩)
    · exact ⟨logs_frame.trans hlogs hP.logs, hle⟩
    · exact ⟨logs_frame.trans hlogs hP.logs, trivial⟩
  | verify_backup =>
    refine wp_ends_mono (verify_backup_round X fuel app_len backup_len w)
      (fun _ hP => logs_frame.trans hlogs hP.logs) ?_ (fun _ _ _ _ => trivial)
      fun hlt => Nat.not_lt.mpr hi hlt
    rintro _ w' hP (⟨rfl, -⟩ | ⟨rfl, -⟩)
    · exact ⟨logs_frame.trans hlogs hP.logs, trivial⟩
    · exact ⟨logs_frame.trans hlogs hP.logs, trivial⟩
  | backup_restored => exact ⟨hlogs, trivial⟩
  | _ => exact hi.elim

/-- A restore that gets as far as its first write leaves that write in the log. -/
theorem firmwareRestore_writes {w : Device} (h : w.Programs) (n : Nat) :
    wp (firmwareRestore (.device X fuel) (n + 1)) (Ends (fun w' => w'.mscCalls ≠ w.mscCalls)
      (fun _ _ => True) (fun _ _ => True) False) w := by
  obtain ⟨c, hc, hne, hfit, hs⟩ := h
  obtain ⟨k, hlog⟩ := flashFirmware_writes hc hne hfit hs
  let w₀ := w.record (.MSC_WriteWord 0 k)
  have hflash : wp (flashFirmware .app_backup_file_name none) (Ends (Logs w₀)
      (fun n _ => n ≤ firmware_max_size) (fun _ _ => True) False) w := by
    have hspec := flashFirmware_spec .app_backup_file_name w
    unfold wp at hspec ⊢
    cases hx : (flashFirmware .app_backup_file_name none w).1 with
    | ok a =>
      rw [hx] at hspec
      obtain ⟨-, c', -, -, hle, -⟩ := hspec
      exact ⟨hlog, hle⟩
    | err e => exact ⟨hlog, trivial⟩
    | trap =>
      rw [hx] at hspec
      exact hspec.2.elim
    | halt => exact hlog
  have hround : wp (phaseStep (.device X fuel) (.start .restore_backup)) (Ends (Logs w₀)
      (fun r w' => Sum.elim (fun st' => Rewriting w₀ st' w') (fun _ => True) r)
      (fun _ _ => True) False) w := by
    refine wp_bind_ends (K := fun r w' => Rewriting w₀ ⟨r.1, r.2, 0⟩ w') ?_ ?_
    · refine wp_bind_attempt hflash (fun _ _ hP hle => ⟨hP, hP, hle⟩) ?_
      intro e w' hP _
      dsimp only
      split
      · exact ⟨hP, hP, trivial⟩
      · exact ⟨hP, trivial⟩
    · rintro ⟨phase, n⟩ w' hP hK
      exact ⟨hP, hK⟩
  have hrun : wp (firmwareRestore (.device X fuel) (n + 1)) (Ends (Logs w₀) (fun _ _ => True)
      (fun _ _ => True) False) w := by
    refine wp_bind_ends hround ?_
    rintro (st | r) w' hP hr
    · exact wp_loop (Rewriting w₀) (phaseStep_rewriting X fuel) (fun _ _ hi => hi.1) n st w' hr
    · exact ⟨hP, trivial⟩
  exact wp_ends_mono hrun (fun _ hP => hP.mscCalls_ne) (fun _ _ _ h => h) (fun _ _ _ h => h) id

/-! ## Attempts that fail early -/

variable {X fuel} {w w₁ : Device} {e : Error}

theorem beforeErase_spares (h : beforeErase X fuel w = (.err e, w₁)) : Spares w w₁ := by
  unfold beforeErase at h
  rcases hc : checkFirmwareImage X .fw_file_name w with ⟨x, w₂⟩
  have hcheck := wp_of_run (checkFirmwareImage_spec X .fw_file_name w) hc
  cases x with
  | ok _ =>
    have hcand : checkFirmwareCandidate (.device X fuel) w = (.ok .backup, w₂) := Prog.bind_ok _ hc
    rw [Prog.bind_ok _ hcand] at h
    rcases hb : performFirmwareBackup (.device X fuel) w₂ with ⟨y, w₃⟩
    cases y with
    | ok r => rw [Prog.bind_ok _ hb] at h; cases h
    | err e' =>
      rw [Prog.bind_err _ hb] at h
      cases h
      have hround : phaseStep (.device X fuel) ⟨.backup, 0, 0⟩ w₂ = (.err e, w₁) := Prog.bind_err _ hb
      exact spares_frame.trans hcheck.1.spares
        (wp_of_run (backup_round X fuel 0 0 w₂) hround).1.spares
    | trap => rw [Prog.bind_trap _ hb] at h; cases h
    | halt => rw [Prog.bind_halt _ hb] at h; cases h
  | err e' =>
    have hcand : checkFirmwareCandidate (.device X fuel) w = (.err e', w₂) := Prog.bind_err _ hc
    rw [Prog.bind_err _ hcand] at h
    cases h
    exact hcheck.1.spares
  | trap =>
    have hcand : checkFirmwareCandidate (.device X fuel) w = (.trap, w₂) := Prog.bind_trap _ hc
    rw [Prog.bind_trap _ hcand] at h
    cases h
  | halt =>
    have hcand : checkFirmwareCandidate (.device X fuel) w = (.halt, w₂) := Prog.bind_halt _ hc
    rw [Prog.bind_halt _ hcand] at h
    cases h

/-- How an attempt goes on behind an early failure. -/
theorem updateAttempt_early (h : beforeErase X (fuel + 2) w = (.err e, w₁)) :
    updateAttempt X (fuel + 2) w = Prog.deferring unmount (
      if e = .firmware_candidate_not_valid then clearUpdateRequest.orUnreachable
      else if e = .firmware_already_in_system then clearUpdateRequest.orUnreachable
      else do
        match ← (firmwareRestore (.device X (fuel + 2)) (fuel + 2)).attempt with
        | .ok _ => clearUpdateRequest.orUnreachable
        | .error _ => pure ()) w₁ :=
  Prog.deferring_bind_ok _ (Prog.attempt_err (firmwareUpdate_early X (fuel + 2) h fuel))

/-- The attempt clears the request, or what it leaves is what the fallback has left. -/
theorem updateAttempt_cases (h : beforeErase X (fuel + 2) w = (.err e, w₁)) :
    (e = .firmware_candidate_not_valid ∨ e = .firmware_already_in_system) ∧
      Spares w₁ (updateAttempt X (fuel + 2) w).2 ∨
    (e ≠ .firmware_candidate_not_valid ∧ e ≠ .firmware_already_in_system) ∧
      Spares (firmwareRestore (.device X (fuel + 2)) (fuel + 2) w₁).2
        (updateAttempt X (fuel + 2) w).2 := by
  rw [updateAttempt_early h]
  by_cases h₁ : e = .firmware_candidate_not_valid
  · rw [if_pos h₁]
    exact .inl ⟨.inl h₁,
      Keeps.deferring_behind spares_frame unmount_spares (clearUpdateRequest_spares w₁)⟩
  by_cases h₂ : e = .firmware_already_in_system
  · rw [if_neg h₁, if_pos h₂]
    exact .inl ⟨.inr h₂,
      Keeps.deferring_behind spares_frame unmount_spares (clearUpdateRequest_spares w₁)⟩
  rw [if_neg h₁, if_neg h₂]
  refine .inr ⟨⟨h₁, h₂⟩, Keeps.deferring_behind spares_frame unmount_spares ?_⟩
  refine Keeps.behind spares_frame (by rw [Prog.attempt_state]; exact spares_frame.refl _) ?_
  rintro (e' | o)
  · exact .pure spares_frame ()
  · exact clearUpdateRequest_spares

theorem updateAttempt_spares (h : beforeErase X (fuel + 2) w = (.err e, w₁))
    (hno : ¬Reprograms X (fuel + 2) w) : Spares w (updateAttempt X (fuel + 2) w).2 := by
  refine spares_frame.trans (beforeErase_spares h) ?_
  obtain ⟨-, hend⟩ | ⟨⟨h₁, h₂⟩, hend⟩ := updateAttempt_cases h
  · exact hend
  · have hrestore := firmwareRestore_spares X (fuel + 2) (w := w₁)
      (fun hp => hno ⟨e, w₁, h, h₁, h₂, hp⟩) (fuel + 1)
    have hquiet : Quiet w₁ (firmwareRestore (.device X (fuel + 2)) (fuel + 2) w₁).2 :=
      Ends.state hrestore
    exact spares_frame.trans hquiet.spares hend

theorem updateAttempt_writes (h : Reprograms X (fuel + 2) w) :
    (updateAttempt X (fuel + 2) w).2.mscCalls ≠ w.mscCalls := by
  obtain ⟨e, w₁, hearly, h₁, h₂, hp⟩ := h
  obtain ⟨h₃ | h₃, -⟩ | ⟨-, hend⟩ := updateAttempt_cases hearly
  · exact absurd h₃ h₁
  · exact absurd h₃ h₂
  · rw [hend.mscCalls, ← (beforeErase_spares hearly).mscCalls]
    exact Ends.state (P := fun w' : Device => w'.mscCalls ≠ w₁.mscCalls)
      (firmwareRestore_writes X (fuel + 2) hp (fuel + 1))

variable (X fuel w)

/-- **An early failure makes no call of the flash controller exactly where the fallback does not
get as far as its first write**, and there the region stays as it was. -/
theorem earlyFailure_iff :
    (EarlyFailureSparesFlash X (fuel + 2) w ↔ ¬Reprograms X (fuel + 2) w) ∧
      (¬Reprograms X (fuel + 2) w → EarlyFailureKeepsFlash X (fuel + 2) w) := by
  refine ⟨⟨?_, ?_⟩, ?_⟩
  · intro hspares h
    obtain ⟨e, w₁, hearly, -⟩ := id h
    exact updateAttempt_writes h (hspares e (by rw [hearly]))
  · intro hno e he
    exact (updateAttempt_spares (Prog.run_of_exit he) hno).mscCalls
  · intro hno e he
    exact (updateAttempt_spares (Prog.run_of_exit he) hno).flash

/-- Without a candidate, an `APP.BAK` left by an older update is programmed over the image. -/
theorem stale_backup_programmed :
    ¬ EarlyFailureKeepsFlash .plain 4 (.sample (fun _ => .none) none (some [0x00])) := by
  intro h
  have h₀ := congrFun (h .FR_NO_FILE (by decide +kernel)) 0
  revert h₀
  decide +kernel

end Miso.Boot
