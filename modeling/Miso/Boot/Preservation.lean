import Miso.Boot.History

/-!
# The backup of the installed image

`Preserved` is the invariant that ties `APP.BAK` to the region over a history: as long as the
bootloader has not worked on the region the installed image is in it, and from then on it is in
`APP.BAK`.  Three steps of `taskFunction` can break it, and `backup_preserved` shows that it holds in
every history without them: a `backup` phase on a region that has been worked on (`FirstBackup`), or
of a recorded size that does not cover the image (`SizedBackup`), and a fallback restore from an
older backup (`OwnBackup`).
-/

namespace Miso.Boot

open Zig

variable {Digest : Type} [DecidableEq Digest] {X : Externs Digest}

/-- The `backup` phase runs only on a region that is as the application left it. -/
def FirstBackup (s : Sys) : Prop := s.pc.updating = some .backup → ¬ Touched s.dev

instance (s : Sys) : Decidable (FirstBackup s) :=
  inferInstanceAs (Decidable (_ → ¬ Touched s.dev))

/-- The `backup` phase finds a recorded size that covers the installed image. -/
def SizedBackup (s : Sys) : Prop :=
  s.pc.updating = some .backup → SizeCovers s.dev s.installed.length

instance (s : Sys) : Decidable (SizedBackup s) :=
  inferInstanceAs (Decidable (_ → SizeCovers s.dev s.installed.length))

/-- The fallback restore programs nothing, or an `APP.BAK` that begins with the installed image. -/
def OwnBackup (s : Sys) : Prop :=
  s.pc.restoring = some .restore_backup →
    Inert s.dev .app_backup_file_name ∨ BackedUp s.installed s.dev

instance (s : Sys) : Decidable (OwnBackup s) :=
  inferInstanceAs (Decidable (_ → Inert s.dev .app_backup_file_name ∨ BackedUp s.installed s.dev))

/-- Where in `taskFunction` the backup is needed although the region may be untouched. -/
def NeedsBackup : Pc → Prop
  | .update st => st.phase ∉ [.check, .backup, .complete, .backup_restored]
  | .restore st => st.phase = .erase_flash_before_restore ∨ st.phase = .verify_backup ∧ st.app_len ≠ 0
  | _ => False

/-- The fallback restore stays in the phases of a restore. -/
def InRestore : Pc → Prop
  | .restore st => st.phase ∈ [.restore_backup, .erase_flash_before_restore, .verify_backup,
      .backup_restored]
  | _ => True

/-- In the phase `verify_backup`, `app_len` is the length of `APP.BAK`. -/
def Measured (pc : Pc) (w : Device) : Prop :=
  ∀ app_len backup_len, pc = .update ⟨.verify_backup, app_len, backup_len⟩ ∨
    pc = .restore ⟨.verify_backup, app_len, backup_len⟩ →
    ∃ b, w.sd .app_backup_file_name = some b ∧ app_len = b.length

/-- The installed image is in the region or in `APP.BAK`. -/
structure Preserved (img : List UInt8) (pc : Pc) (w : Device) : Prop where
  nvm : 9 ≤ countObjects w.nvm
  untouched : ¬ Touched w → Holds img w
  touched : Touched w → BackedUp img w
  needed : NeedsBackup pc → BackedUp img w
  restore : InRestore pc
  measured : Measured pc w

/-! ## Frames -/

theorem countObjects_setNvm (w : Device) (k : app_nvm_keys) (o : NvmObject) :
    countObjects w.nvm ≤ countObjects (w.setNvm k o).nvm := by
  refine List.countP_mono_left fun j _ h => ?_
  simp only [Device.setNvm]
  split
  · rfl
  · exact h

/-- A step that changes neither the region nor the backup, and no flash call. -/
structure Calm (w w' : Device) : Prop where
  nvm : countObjects w.nvm ≤ countObjects w'.nvm
  flash : w'.flash = w.flash
  backup : w'.sd .app_backup_file_name = w.sd .app_backup_file_name
  touched : Touched w' ↔ Touched w

theorem calm_frame : Frame Calm where
  refl _ := ⟨Nat.le_refl _, rfl, rfl, Iff.rfl⟩
  trans h h' := ⟨Nat.le_trans h.1 h'.1, h'.2.trans h.2, h'.3.trans h.3, h'.4.trans h.4⟩

theorem Quiet.calm {w w' : Device} (h : Quiet w w') : Calm w w' := by
  obtain ⟨t, rfl⟩ := h
  exact ⟨Nat.le_refl _, rfl, rfl, Iff.rfl⟩

theorem Configuring.calm {w w' : Device} (h : Configuring w w') : Calm w w' := by
  obtain ⟨t, g, rfl⟩ := h
  exact ⟨Nat.le_refl _, rfl, rfl, Iff.rfl⟩

theorem calm_setNvm (w : Device) (k : app_nvm_keys) (o : NvmObject) : Calm w (w.setNvm k o) :=
  ⟨countObjects_setNvm w k o, rfl, rfl, Iff.rfl⟩

theorem Checking.calm {w w' : Device} (h : Checking w w') : Calm w w' := by
  obtain ⟨t, k, l, rfl, hl⟩ := h
  refine ⟨Nat.le_refl _, rfl, rfl, ?_⟩
  constructor
  · rintro ⟨c, hc, hm⟩
    rcases List.mem_append.mp hc with h | h
    · rw [hl c h] at hm
      cases hm
    · exact ⟨c, h, hm⟩
  · rintro ⟨c, hc, hm⟩
    exact ⟨c, List.mem_append_right _ hc, hm⟩

theorem Recording.calm {n : Nat} {w w' : Device} (h : Recording n w w') : Calm w w' := by
  obtain h | h := h
  · exact h.calm
  · exact calm_frame.trans (calm_setNvm _ _ _) h.calm

theorem BackedUp.calm {img : List UInt8} {w w' : Device} (h : BackedUp img w)
    (hs : w'.sd .app_backup_file_name = w.sd .app_backup_file_name) : BackedUp img w' := by
  obtain ⟨b, hb, hp⟩ := h
  exact ⟨b, hs.trans hb, hp⟩

theorem Quiet.requested {w w' : Device} (h : Quiet w w') : Requested w' ↔ Requested w := by
  obtain ⟨t, rfl⟩ := h
  exact Iff.rfl

/-- A calm step keeps the invariant. -/
theorem Preserved.calm {img : List UInt8} {pc pc' : Pc} {w w' : Device} (h : Preserved img pc w)
    (hc : Calm w w') (hn : NeedsBackup pc' → BackedUp img w) (hr : InRestore pc')
    (hm : Measured pc' w') : Preserved img pc' w' where
  nvm := Nat.le_trans h.nvm hc.nvm
  untouched ht := (h.untouched fun ht' => ht (hc.touched.mpr ht')).congr hc.flash
  touched ht := (h.touched (hc.touched.mp ht)).calm hc.backup
  needed hp := (hn hp).calm hc.backup
  restore := hr
  measured := hm

/-- A step that works on the region keeps the invariant if the image is backed up. -/
theorem Preserved.flashing {img : List UInt8} {pc pc' : Pc} {w w' : Device}
    (h : Preserved img pc w) (hf : Flashing w w') (hb : BackedUp img w) (hr : InRestore pc')
    (hm : Measured pc' w') : Preserved img pc' w' := by
  have hb' : BackedUp img w' := hb.calm (by rw [hf.sd])
  refine ⟨?_, fun ht => ?_, fun _ => hb', fun _ => hb', hr, hm⟩
  · obtain ⟨t, f, l, rfl, -⟩ := hf
    exact h.nvm
  · obtain ⟨t, f, l, rfl, hl, hnil⟩ := hf
    have hl' : l = [] := by
      refine List.eq_nil_iff_forall_not_mem.mpr fun c hc => ht ⟨c, ?_, hl c hc⟩
      exact List.mem_append_left _ hc
    subst hl'
    exact (h.untouched ht).congr (hnil rfl)

/-- A write of `APP.BAK` keeps the invariant as long as the region is untouched. -/
theorem Preserved.saving {img : List UInt8} {pc pc' : Pc} {w w' : Device}
    (h : Preserved img pc w) (hs : Saving .app_backup_file_name w w') (ht : ¬ Touched w)
    (hn : NeedsBackup pc' → BackedUp img w') (hr : InRestore pc') (hm : Measured pc' w') :
    Preserved img pc' w' := by
  obtain ⟨t, d, rfl, -⟩ := hs
  exact ⟨h.nvm, fun _ => (h.untouched ht).congr rfl, fun ht' => absurd ht' ht, hn, hr, hm⟩

/-- Positions outside the machines demand nothing. -/
theorem Preserved.outside {img : List UInt8} {pc pc' : Pc} {w w' : Device} (h : Preserved img pc w)
    (hc : Calm w w') (hpc : pc' = .start ∨ pc' = .head ∨ pc' = .jump) : Preserved img pc' w' := by
  obtain rfl | rfl | rfl := hpc
  all_goals exact h.calm hc False.elim trivial (by rintro _ _ (h | h) <;> cases h)

theorem measured_update {st : update_state} (h : st.phase ≠ .verify_backup) (w : Device) :
    Measured (.update st) w := by
  rintro _ _ (h' | h') <;> cases h'
  exact absurd rfl h

theorem measured_restore {st : update_state} (h : st.phase ≠ .verify_backup) (w : Device) :
    Measured (.restore st) w := by
  rintro _ _ (h' | h') <;> cases h'
  exact absurd rfl h

theorem measured_programmed {pc : Pc} {w : Device} {c : List UInt8} {n : Nat}
    (hpc : pc = .update ⟨.verify_backup, c.length, n⟩ ∨ pc = .restore ⟨.verify_backup, c.length, n⟩)
    (hc : w.sd .app_backup_file_name = some c) : Measured pc w := by
  rintro _ _ h
  obtain rfl | rfl := hpc <;> rcases h with h | h <;> cases h <;> exact ⟨c, hc, rfl⟩

theorem Preserved.finished {img : List UInt8} {pc : Pc} {w : Device} (h : Preserved img pc w) :
    Finished (Preserved img) w := by
  intro w'
  refine ⟨fun hq => h.outside hq.calm (.inl rfl), fun hq => ?_⟩
  have hc : Calm w w' := calm_frame.trans (calm_setNvm _ _ _) hq.calm
  exact ⟨h.outside hc (.inl rfl), h.outside hc (.inr (.inl rfl))⟩

/-! ## Steps of `taskFunction` -/

section Steps

variable {fuel : Nat} {img : List UInt8} {w : Device}

/-- `backup` writes the image, if the region has not been worked on. -/
theorem backup_backsUp {n : Nat} {w' : Device} (himg : Holds img w)
    (hsize : SizeCovers w img.length)
    (hn : Stored w n ∧ n ≠ 0 ∨ n = firmware_max_size)
    (hc : w'.sd .app_backup_file_name = some (w.bytes 0 n)) : BackedUp img w' := by
  have hle : img.length ≤ n := by
    obtain ⟨hst, h0⟩ | rfl := hn
    · exact (hsize n hst).resolve_left h0
    · exact himg.1
  refine ⟨_, hc, ?_⟩
  rw [show n = img.length + (n - img.length) by omega, ← bytes_append, himg.2]
  exact List.prefix_append _ _

/-- The fallback begins by looking for an `APP.BAK`. -/
theorem Preserved.fallback {pc : Pc} {w' : Device} (h : Preserved img pc w) (hc : Calm w w') :
    Preserved img (.restore (.start .restore_backup)) w' :=
  h.calm hc (by simp [NeedsBackup, update_state.start]) (by simp [InRestore, update_state.start])
    (measured_restore (by simp [update_state.start]) w')

theorem update_step_preserved {st : update_state} (hi : Preserved img (.update st) w)
    (hfirst : st.phase = .backup → ¬ Touched w ∧ SizeCovers w img.length) :
    wp (taskStep X fuel (.update st)) (fun x w' => Preserved img (nextPc x) w') w := by
  obtain ⟨phase, app_len, backup_len⟩ := st
  -- in the phases from `erase_flash` on the image is in `APP.BAK`
  have hcalm {w' : Device} (st' : update_state) (hneed : NeedsBackup (.update ⟨phase, app_len, backup_len⟩))
      (hc : Calm w w') (hph : st'.phase ≠ .verify_backup) : Preserved img (.update st') w' :=
    hi.calm hc (fun _ => hi.needed hneed) trivial (measured_update hph w')
  have hflash {w' : Device} (st' : update_state) (hneed : NeedsBackup (.update ⟨phase, app_len, backup_len⟩))
      (hf : Flashing w w') (hph : st'.phase ≠ .verify_backup) : Preserved img (.update st') w' :=
    hi.flashing hf (hi.needed hneed) trivial (measured_update hph w')
  have hfall {w' : Device} (hneed : NeedsBackup (.update ⟨phase, app_len, backup_len⟩))
      (hf : Flashing w w') : Preserved img (.restore (.start .restore_backup)) w' :=
    have hhead : Preserved img .head w' :=
      hi.flashing hf (hi.needed hneed) trivial (by rintro _ _ (h | h) <;> cases h)
    hhead.fallback (calm_frame.refl w')
  have hcut {w' : Device} (hneed : NeedsBackup (.update ⟨phase, app_len, backup_len⟩))
      (hf : Flashing w w') : Preserved img .start w' :=
    (hfall hneed hf).outside (calm_frame.refl w') (.inl rfl)
  cases phase with
  | check =>
    refine wp_update_step (check_round X fuel app_len backup_len w) ?_ ?_ ?_ ?_ ?_
    · rintro st' w' hP ⟨⟨⟩, -⟩
      exact hi.calm hP.calm (by simp [NeedsBackup]) trivial (measured_update (by simp) _)
    · rintro o w' hP ⟨⟨⟩, -⟩
    · intro e w' hP _ _
      exact (hi.outside hP.calm (.inl rfl)).finished
    · intro e w' hP _
      exact hi.fallback hP.calm
    · exact fun w' hP => hi.outside hP.calm (.inl rfl)
  | backup =>
    obtain ⟨ht, hsize⟩ := hfirst rfl
    have hout {w' : Device} (hs : Saving .app_backup_file_name w w') : Preserved img .start w' :=
      hi.saving hs ht False.elim trivial (by rintro _ _ (h | h) <;> cases h)
    refine wp_update_step (backup_round X fuel app_len backup_len w) ?_ ?_ ?_ ?_ ?_
    · rintro st' w' hP ⟨n, ⟨⟩, hn, -, hc⟩
      exact hi.saving hP ht (fun _ => backup_backsUp (hi.untouched ht) hsize hn hc) trivial
        (measured_update (by simp) _)
    · rintro o w' hP ⟨n, ⟨⟩, -⟩
    · exact fun e w' hP _ _ => (hout hP).finished
    · exact fun e w' hP _ => (hout hP).fallback (calm_frame.refl w')
    · exact fun w' hP => hout hP
  | erase_flash =>
    have hneed : NeedsBackup (.update ⟨.erase_flash, app_len, backup_len⟩) := by simp [NeedsBackup]
    refine wp_update_step (erase_round X fuel (.inl ⟨rfl, rfl⟩) app_len backup_len w) ?_ ?_ ?_ ?_ ?_
    · rintro st' w' hP ⟨⟨⟩, -⟩
      exact hflash _ hneed hP (by simp)
    · rintro o w' hP ⟨⟨⟩, -⟩
    · exact fun e w' hP _ _ => (hcut hneed hP).finished
    · exact fun e w' hP _ => hfall hneed hP
    · exact fun w' hP => hcut hneed hP
  | flash =>
    have hneed : NeedsBackup (.update ⟨.flash, app_len, backup_len⟩) := by simp [NeedsBackup]
    refine wp_update_step (flash_round X fuel app_len backup_len w) ?_ ?_ ?_ ?_ ?_
    · rintro st' w' ⟨hP, -⟩ (⟨n, ⟨⟩, -⟩ | ⟨⟨⟩⟩ | ⟨⟨⟩, -⟩)
      · exact hflash _ hneed hP (by simp)
      · exact hflash _ hneed hP (by simp)
      · exact hflash _ hneed hP (by simp)
    · rintro o w' hP (⟨n, ⟨⟩, -⟩ | ⟨⟨⟩⟩ | ⟨⟨⟩, -⟩)
    · exact fun e w' hP _ _ => (hcut hneed hP.1).finished
    · exact fun e w' hP _ => hfall hneed hP.1
    · exact fun w' hP => hcut hneed hP.1
  | verify_flash =>
    have hneed : NeedsBackup (.update ⟨.verify_flash, app_len, backup_len⟩) := by simp [NeedsBackup]
    refine wp_update_step (verify_flash_round X fuel app_len backup_len w) ?_ ?_ ?_ ?_ ?_
    · rintro st' w' hP (⟨⟨⟩, -⟩ | ⟨⟨⟩, -⟩)
      · exact hcalm _ hneed hP.calm (by simp)
      · exact hcalm _ hneed hP.calm (by simp)
    · rintro o w' hP (⟨⟨⟩, -⟩ | ⟨⟨⟩, -⟩)
    · exact fun e w' hP _ _ => (hi.outside hP.calm (.inl rfl)).finished
    · exact fun e w' hP _ => hi.fallback hP.calm
    · exact fun w' hP => hi.outside hP.calm (.inl rfl)
  | erase_flash_before_restore =>
    have hneed : NeedsBackup (.update ⟨.erase_flash_before_restore, app_len, backup_len⟩) := by
      simp [NeedsBackup]
    refine wp_update_step (erase_round X fuel (.inr ⟨rfl, rfl⟩) app_len backup_len w) ?_ ?_ ?_ ?_ ?_
    · rintro st' w' hP ⟨⟨⟩, -⟩
      exact hflash _ hneed hP (by simp)
    · rintro o w' hP ⟨⟨⟩, -⟩
    · exact fun e w' hP _ _ => (hcut hneed hP).finished
    · exact fun e w' hP _ => hfall hneed hP
    · exact fun w' hP => hcut hneed hP
  | restore_backup =>
    have hneed : NeedsBackup (.update ⟨.restore_backup, app_len, backup_len⟩) := by simp [NeedsBackup]
    refine wp_update_step (restore_round X fuel app_len backup_len w) ?_ ?_ ?_ ?_ ?_
    · rintro st' w' ⟨hP, -⟩ (⟨_, ⟨⟩, c, hc, rfl, -⟩ | ⟨⟨⟩, -⟩)
      · exact hi.flashing hP (hi.needed hneed) trivial
          (measured_programmed (.inl rfl) (by rw [hP.sd]; exact hc))
      · exact hflash _ hneed hP (by simp)
    · rintro o w' hP (⟨n, ⟨⟩, -⟩ | ⟨⟨⟩, -⟩)
    · exact fun e w' hP _ _ => (hcut hneed hP.1).finished
    · exact fun e w' hP _ => hfall hneed hP.1
    · exact fun w' hP => hcut hneed hP.1
  | verify_backup =>
    have hneed : NeedsBackup (.update ⟨.verify_backup, app_len, backup_len⟩) := by simp [NeedsBackup]
    refine wp_update_step (verify_backup_round X fuel app_len backup_len w) ?_ ?_ ?_ ?_ ?_
    · rintro st' w' hP (⟨⟨⟩, -⟩ | ⟨⟨⟩, -⟩)
      · exact hcalm _ hneed hP.calm (by simp)
      · exact hcalm _ hneed hP.calm (by simp)
    · rintro o w' hP (⟨⟨⟩, -⟩ | ⟨⟨⟩, -⟩)
    · exact fun e w' hP _ _ => (hi.outside hP.calm (.inl rfl)).finished
    · exact fun e w' hP _ => hi.fallback hP.calm
    · exact fun w' hP => hi.outside hP.calm (.inl rfl)
  | complete => exact hi.finished.wp_finishAttempt
  | backup_restored => exact hi.finished.wp_finishAttempt

theorem restore_step_preserved {st : update_state} (hi : Preserved img (.restore st) w)
    (hown : st.phase = .restore_backup → Inert w .app_backup_file_name ∨ BackedUp img w) :
    wp (taskStep X fuel (.restore st)) (fun x w' => Preserved img (nextPc x) w') w := by
  obtain ⟨phase, app_len, backup_len⟩ := st
  have hfail {w' w'' : Device} (hi' : Preserved img .start w') (hq : Quiet w' w'') :
      Preserved img .start w'' ∧ Preserved img .head w'' :=
    ⟨hi'.outside hq.calm (.inl rfl), hi'.outside hq.calm (.inr (.inl rfl))⟩
  have hflash {w' : Device} (hb : BackedUp img w) (hf : Flashing w w') : Preserved img .start w' :=
    hi.flashing hf hb trivial (by rintro _ _ (h | h) <;> cases h)
  cases phase with
  | erase_flash_before_restore =>
    have hb : BackedUp img w := hi.needed (.inl rfl)
    refine wp_restore_step (erase_round X fuel (.inr ⟨rfl, rfl⟩) app_len backup_len w) ?_ ?_ ?_ ?_
    · rintro st' w' hP ⟨⟨⟩, -⟩
      exact hi.flashing hP hb (by simp [InRestore]) (measured_restore (by simp) _)
    · rintro o w' hP ⟨⟨⟩, -⟩
    · exact fun e w' w'' hP _ hq => hfail (hflash hb hP) hq
    · exact fun w' hP => hflash hb hP
  | restore_backup =>
    obtain hin | hb := hown rfl
    · -- nothing is programmed
      have hout {w' : Device} (hq : Quiet w w') : Preserved img .start w' :=
        hi.outside hq.calm (.inl rfl)
      refine wp_restore_step (restore_round X fuel app_len backup_len w) ?_ ?_ ?_ ?_
      · rintro st' w' ⟨hP, hq⟩ (⟨_, ⟨⟩, c, hc, rfl, hle, -⟩ | ⟨⟨⟩, hne⟩)
        · obtain rfl | hlt := hin c hc
          · exact hi.calm (hq hin).calm (by simp [NeedsBackup]) (by simp [InRestore])
              (measured_programmed (.inr rfl) (by rw [hP.sd]; exact hc))
          · exact absurd hle (Nat.not_le.mpr hlt)
        · exact absurd hin hne
      · rintro o w' hP (⟨n, ⟨⟩, -⟩ | ⟨⟨⟩, -⟩)
      · exact fun e w' w'' hP _ hq => hfail (hout (hP.2 hin)) hq
      · exact fun w' hP => hout (hP.2 hin)
    · refine wp_restore_step (restore_round X fuel app_len backup_len w) ?_ ?_ ?_ ?_
      · rintro st' w' ⟨hP, -⟩ (⟨_, ⟨⟩, c, hc, rfl, -⟩ | ⟨⟨⟩, -⟩)
        · exact hi.flashing hP hb (by simp [InRestore])
            (measured_programmed (.inr rfl) (by rw [hP.sd]; exact hc))
        · exact hi.flashing hP hb (by simp [InRestore]) (measured_restore (by simp) _)
      · rintro o w' hP (⟨n, ⟨⟩, -⟩ | ⟨⟨⟩, -⟩)
      · exact fun e w' w'' hP _ hq => hfail (hflash hb hP.1) hq
      · exact fun w' hP => hflash hb hP.1
  | verify_backup =>
    obtain ⟨b, hb, rfl⟩ := hi.measured app_len backup_len (.inr rfl)
    refine wp_restore_step (verify_backup_round X fuel b.length backup_len w) ?_ ?_ ?_ ?_
    · rintro st' w' hP (⟨⟨⟩, -⟩ | ⟨⟨⟩, c, hc, hne⟩)
      · exact hi.calm hP.calm (by simp [NeedsBackup]) (by simp [InRestore])
          (measured_restore (by simp) _)
      · refine hi.calm hP.calm (fun _ => hi.needed (.inr ⟨rfl, ?_⟩)) (by simp [InRestore])
          (measured_restore (by simp) _)
        -- an empty file has the hash of no bytes
        rintro h0
        rw [hb] at hc
        cases hc
        rw [List.length_eq_zero_iff.mp h0] at hne
        exact hne rfl
    · rintro o w' hP (⟨⟨⟩, -⟩ | ⟨⟨⟩, -⟩)
    · exact fun e w' w'' hP _ hq => hfail (hi.outside hP.calm (.inl rfl)) hq
    · exact fun w' hP => hi.outside hP.calm (.inl rfl)
  | backup_restored => exact hi.finished.wp_finishAttempt
  | _ => exact absurd hi.restore (by simp [InRestore])

/-- A step of `taskFunction` keeps the invariant. -/
theorem taskStep_preserved {s : Sys} (hi : Preserved s.installed s.pc s.dev) (hpc : s.pc ≠ .jump)
    (hfirst : FirstBackup s) (hsized : SizedBackup s) (hown : OwnBackup s) :
    wp (taskStep X fuel s.pc) (fun x w' => Preserved s.installed (nextPc x) w') s.dev := by
  obtain ⟨pc, w, img, current⟩ := s
  cases pc with
  | start =>
    refine wp_mono (start_step X fuel hi.nvm) ?_
    intro x w' hx
    cases x with
    | ok pc =>
      obtain ⟨hc, rfl⟩ := hx
      exact hi.outside hc.calm (.inr (.inl rfl))
    | err e => exact hx.2.elim
    | trap => exact hx.2.elim
    | halt => exact hi.outside hx.calm (.inl rfl)
  | head =>
    refine wp_mono (head_step X fuel w) ?_
    intro x w' hx
    cases x with
    | ok pc =>
      obtain ⟨hq, ⟨rfl, -⟩ | ⟨rfl, -⟩⟩ := hx
      · exact hi.calm hq.calm (by simp [NeedsBackup, update_state.start]) trivial
          (measured_update (by simp [update_state.start]) _)
      · exact hi.outside hq.calm (.inr (.inr rfl))
    | err e => exact hx.2.elim
    | trap => exact hx.2.elim
    | halt => exact hi.outside hx.calm (.inl rfl)
  | update st =>
    refine update_step_preserved hi fun h => ?_
    have hpc : Pc.updating (.update st) = some .backup := congrArg some h
    exact ⟨hfirst hpc, hsized hpc⟩
  | restore st => exact restore_step_preserved hi fun h => hown (by rw [← h]; rfl)
  | jump => exact absurd rfl hpc

end Steps

/-! ## Histories -/

theorem Initial.preserved {s : Sys} (h : Initial s) : Preserved s.installed s.pc s.dev := by
  have ht : ¬ Touched s.dev := by
    rintro ⟨c, hc, -⟩
    rw [h.log] at hc
    cases hc
  rw [h.pc]
  exact ⟨h.nvm, fun _ => h.installed, fun h => absurd h ht, False.elim, trivial,
    by rintro _ _ (h | h) <;> cases h⟩

/-- A step that is none of the three keeps the invariant. -/
theorem step_preserved {C : Sys → Prop} {s s' : Sys} (hi : Preserved s.installed s.pc s.dev)
    (hC : C s → FirstBackup s ∧ SizedBackup s ∧ OwnBackup s) (h : Step X C s s') :
    Preserved s'.installed s'.pc s'.dev := by
  obtain ⟨fuel, hpc, hs⟩ | ⟨config, pub_key⟩ | ⟨hpc, hcur, hflash, hsize, hnvm, hlog⟩ := h
  · exact next_of_wp (Q := fun s => Preserved s.installed s.pc s.dev)
      (taskStep_preserved hi hpc (hC hs).1 (hC hs).2.1 (hC hs).2.2)
  · have hc : Calm s.dev { s.dev with config := config, pub_key := pub_key } :=
      ⟨Nat.le_refl _, rfl, rfl, Iff.rfl⟩
    exact hi.outside hc (.inl rfl)
  · refine ⟨hnvm, fun _ => hcur.congr hflash, ?_, False.elim, trivial,
      by rintro _ _ (h | h) <;> cases h⟩
    rintro ⟨c, hc, -⟩
    rw [hlog] at hc
    cases hc

/-- **The installed image stays in `APP.BAK`** from the first page erase on, and the `backup` phase
    runs only while it is in the region. -/
theorem backup_preserved {s₀ s : Sys} (h₀ : Initial s₀)
    (h : History X (fun s => FirstBackup s ∧ SizedBackup s ∧ OwnBackup s) s₀ s) :
    (PageErased s.dev → Requested s.dev → BackedUp s.installed s.dev) ∧
    (FirstBackup s → s.pc.updating = some .backup → Holds s.installed s.dev) := by
  have hi := h.invariant (I := fun s => Preserved s.installed s.pc s.dev) h₀.preserved
    fun _ _ hi hstep => step_preserved hi id hstep
  refine ⟨?_, fun hfirst hpc => hi.untouched (hfirst hpc)⟩
  exact fun hpage _ => hi.touched hpage.touched

/-- The sample device at its first boot. -/
def Sys.sample (faults : Nat → Fault) (fw : List UInt8) : Sys where
  pc := .start
  dev := .sample faults (some fw) none
  installed := [0x41]
  current := [0x41]

theorem Sys.sample_initial (faults : Nat → Fault) (fw : List UInt8) : Initial (.sample faults fw) where
  pc := rfl
  log := rfl
  nvm := Nat.le_of_ble_eq_true rfl
  current := rfl
  installed := ⟨(by decide : 1 ≤ firmware_max_size), rfl⟩

/-- An update without failures, up to the verification of the new image. -/
theorem backup_preserved_sample :
    BackedUp [0x41] ((Sys.sample (fun _ => .none) [0x42]).steps .plain 4 6).dev :=
  (backup_preserved (Sys.sample_initial (fun _ => .none) [0x42])
    (history_steps (X := .plain) 4 6 _ (by decide +kernel))).1
    ⟨0, by decide +kernel⟩ ⟨1, by decide +kernel, by decide⟩

/-- An erase fails and clears the first byte, the fallback cannot open `APP.BAK`, and the retry
    saves what is left in the region. -/
theorem retry_overwrites_backup :
    ¬ ∀ s₀ s : Sys, Initial s₀ → History .plain (fun _ => True) s₀ s →
      (PageErased s.dev → Requested s.dev → BackedUp s.installed s.dev) ∧
      (s.pc.updating = some .backup → Holds s.installed s.dev) := by
  intro hall
  let faults : Nat → Fault := fun t =>
    if t = 49 then .fail .fr_disk_err [0x00] else if t = 50 then .fail .fr_disk_err [] else .none
  have h := (hall _ ((Sys.sample faults [0x42]).steps .plain 4 9) (Sys.sample_initial faults [0x42])
    (history_steps 4 9 _ (by decide +kernel))).1 ⟨0, by decide +kernel⟩ ⟨1, by decide +kernel, by decide⟩
  revert h
  decide +kernel

end Miso.Boot
