import Miso.Boot.Preservation

/-!
# The jump to the application

`jump_safe`: over a history, whenever `taskFunction` reaches `prepareJump()` the region begins
with the installed image or with a candidate that was accepted.  It holds in every history whose
steps meet `Guarded` and `SizedBackup`, which exclude the steps that go wrong: those of `backup_preserved`, and the
ways in which an attempt that has worked on the region is given up without a restore.  The digests
are those of any hash without a collision among the contents compared.
-/

namespace Miso.Boot

open Zig

variable {Digest : Type} [DecidableEq Digest] (X : Externs Digest)

/-! ## The steps that go wrong -/

/-- A step of `taskFunction` that does not go wrong. -/
structure Guarded (s : Sys) : Prop where
  first_backup : FirstBackup s
  own_backup : OwnBackup s
  /-- While an update is unfinished, neither the read of the request nor the mount fails. -/
  loop_kept : s.pc = .head → Touched s.dev ∧ Requested s.dev →
    (s.dev.faults s.dev.tick).fails = false ∧ (s.dev.faults (s.dev.tick + 1)).fails = false
  /-- The comparison of a candidate that has not been accepted meets no failing call. -/
  compared : s.pc.updating = some .check → ComparisonFails .fw_file_name s.dev →
    WasAccepted s.dev s.dev.candidate
  /-- While an update is unfinished, the candidate is not refused. -/
  not_refused : s.pc.updating = some .check → Touched s.dev → ¬ Refusable X .fw_file_name s.dev
  /-- A candidate found in a region that has been worked on was accepted. -/
  known : s.pc.updating = some .check → Touched s.dev → InRegion X .fw_file_name s.dev →
    WasAccepted s.dev s.dev.candidate

/-! ## The invariant -/

/-- An image has been put in place. -/
def Placed : Pc → Prop
  | .update st => st.phase = .complete ∨ st.phase = .backup_restored
  | .restore st => st.phase = .backup_restored
  | .jump => True
  | _ => False

/-- In an attempt an update is requested, and behind `check` its candidate was accepted. -/
def InAttempt : Pc → Device → Prop
  | .update st, w => Requested w ∧
      (st.phase ∈ [.backup, .erase_flash, .flash, .verify_flash] → WasAccepted w w.candidate)
  | .restore _, w => Requested w
  | _, _ => True

/-- The image put in place last was installed or accepted, and it is in the region unless an
    update is unfinished. -/
structure Kept (img cur : List UInt8) (pc : Pc) (w : Device) : Prop where
  origin : cur = img ∨ WasAccepted w cur
  kept : ¬ Touched w ∨ ¬ Requested w ∨ Placed pc → Holds cur w
  attempt : InAttempt pc w

/-! ## Frames -/

/-- What all steps of an attempt but its end leave alone. -/
structure Attempting (w w' : Device) : Prop where
  log : w.log ⊆ w'.log
  request : w'.nvm .update_request = w.nvm .update_request
  candidate : w'.sd .fw_file_name = w.sd .fw_file_name

theorem Quiet.attempting {w w' : Device} (h : Quiet w w') : Attempting w w' := by
  obtain ⟨t, rfl⟩ := h
  exact ⟨List.Subset.refl _, rfl, rfl⟩

theorem Configuring.attempting {w w' : Device} (h : Configuring w w') : Attempting w w' := by
  obtain ⟨t, g, rfl⟩ := h
  exact ⟨List.Subset.refl _, rfl, rfl⟩

theorem Checking.attempting {w w' : Device} (h : Checking w w') : Attempting w w' := by
  obtain ⟨t, k, l, rfl, -⟩ := h
  exact ⟨List.subset_append_right _ _, rfl, rfl⟩

theorem Saving.attempting {w w' : Device} (h : Saving .app_backup_file_name w w') :
    Attempting w w' := by
  obtain ⟨t, d, rfl, hd⟩ := h
  exact ⟨List.Subset.refl _, rfl, hd _ (by decide)⟩

theorem Flashing.attempting {w w' : Device} (h : Flashing w w') : Attempting w w' := by
  obtain ⟨t, f, l, rfl, -⟩ := h
  exact ⟨List.subset_append_right _ _, rfl, rfl⟩

theorem Recording.attempting {n : Nat} {w w' : Device} (h : Recording n w w') :
    Attempting w w' := by
  obtain ⟨t, rfl⟩ | ⟨t, rfl⟩ := h
  · exact ⟨List.Subset.refl _, rfl, rfl⟩
  · exact ⟨List.Subset.refl _, rfl, rfl⟩

theorem Attempting.requested {w w' : Device} (h : Attempting w w') :
    Requested w' ↔ Requested w := by
  unfold Requested
  rw [h.request]

theorem Attempting.accepted {w w' : Device} (h : Attempting w w') {c : List UInt8}
    (hc : WasAccepted w c) : WasAccepted w' c := h.log hc

theorem Attempting.candidateAccepted {w w' : Device} (h : Attempting w w')
    (hc : WasAccepted w w.candidate) : WasAccepted w' w'.candidate := by
  unfold Device.candidate
  rw [h.candidate]
  exact h.accepted hc

/-- A step of an attempt that leaves the region alone, and the log says so. -/
structure Still (w w' : Device) : Prop extends Attempting w w' where
  flash : w'.flash = w.flash
  touched : Touched w' ↔ Touched w

theorem Calm.still {w w' : Device} (h : Calm w w') (ha : Attempting w w') : Still w w' :=
  ⟨ha, h.flash, h.touched⟩

theorem Saving.still {w w' : Device} (h : Saving .app_backup_file_name w w') : Still w w' := by
  refine ⟨h.attempting, ?_, ?_⟩
  · obtain ⟨t, d, rfl, -⟩ := h
    rfl
  · obtain ⟨t, d, rfl, -⟩ := h
    exact Iff.rfl

theorem Holds.of_prefix {c d : List UInt8} {w : Device} (h : Holds d w) (hp : c <+: d) :
    Holds c w := by
  obtain ⟨l, rfl⟩ := hp
  refine ⟨Nat.le_trans (by simp) h.1, ?_⟩
  have := h.2
  rw [List.length_append, ← bytes_append] at this
  exact (List.append_inj this (bytes_length w 0 c.length)).1

omit [DecidableEq Digest] in
theorem Matches.candidate {X : Externs Digest} {w : Device} {n : Nat}
    (h : Matches X .fw_file_name w n) (hX : Tells X .fw_file_name w n) : Holds w.candidate w := by
  obtain ⟨c, hc, -, hh⟩ := h.image hX
  rw [Device.candidate, hc]
  exact hh

section Frames

variable {img cur : List UInt8} {pc pc' : Pc} {w w' : Device}

/-- A step that leaves the region alone keeps the invariant. -/
theorem Kept.still (h : Kept img cur pc w) (hs : Still w w') (hp : Placed pc' → Holds cur w)
    (hi : InAttempt pc' w') : Kept img cur pc' w' where
  origin := h.origin.imp_right hs.accepted
  kept := by
    rintro (h' | h' | h')
    · exact (h.kept (.inl fun h'' => h' (hs.touched.mpr h''))).congr hs.flash
    · exact (h.kept (.inr (.inl fun h'' => h' (hs.requested.mpr h'')))).congr hs.flash
    · exact (hp h').congr hs.flash
  attempt := hi

/-- A step that works on the region keeps the invariant while an update is requested. -/
theorem Kept.flashing (h : Kept img cur pc w) (hf : Flashing w w') (hr : Requested w)
    (hp : ¬ Placed pc') (hi : InAttempt pc' w') : Kept img cur pc' w' where
  origin := h.origin.imp_right hf.attempting.accepted
  kept := by
    rintro (h' | h' | h')
    · obtain ⟨t, f, l, rfl, hl, hnil⟩ := hf
      have hl' : l = [] := by
        refine List.eq_nil_iff_forall_not_mem.mpr fun c hc => h' ⟨c, ?_, hl c hc⟩
        exact List.mem_append_left _ hc
      subst hl'
      exact (h.kept (.inl h')).congr (hnil rfl)
    · exact absurd (hf.attempting.requested.mpr hr) h'
    · exact absurd h' hp
  attempt := hi

/-- An attempt may end where an image has been put in place. -/
theorem Kept.finished (ho : cur = img ∨ WasAccepted w cur) (hh : Holds cur w) :
    Finished (fun pc => Kept img cur pc) w := by
  intro w'
  refine ⟨?_, ?_⟩ <;> rintro ⟨t, rfl⟩
  · exact ⟨ho, fun _ => hh.congr rfl, trivial⟩
  · exact ⟨⟨ho, fun _ => hh.congr rfl, trivial⟩, ⟨ho, fun _ => hh.congr rfl, trivial⟩⟩

end Frames

/-! ## Steps of `taskFunction` -/

section Steps

variable {X} {fuel app_len backup_len : Nat} {img cur : List UInt8} {w : Device}

/-- `check` keeps the invariant if an image is in place whenever it ends the attempt. -/
theorem check_kept (hi : Kept img cur (.update ⟨.check, app_len, backup_len⟩) w)
    (hcmp : ComparisonFails .fw_file_name w → WasAccepted w w.candidate)
    (hend : ∀ e, (checkFirmwareImage X .fw_file_name w).1 = .err e →
      e = .firmware_candidate_not_valid ∨ e = .firmware_already_in_system → Holds cur w) :
    wp (taskStep X fuel (.update ⟨.check, app_len, backup_len⟩))
      (fun x w' => Kept img cur (nextPc x) w') w := by
  have hreq := hi.attempt.1
  refine wp_update_step (check_round X fuel app_len backup_len w) ?_ ?_ ?_ ?_ ?_
  · rintro st' w' hP ⟨⟨⟩, hacc⟩
    have ha := hP.attempting
    refine hi.still (hP.calm.still ha) (by simp [Placed]) ⟨ha.requested.mpr hreq, fun _ => ?_⟩
    obtain ⟨c, key, hc, -, -, -, l, hlog, hl⟩ | hfail := hacc
    · rw [WasAccepted, hlog]
      have : w'.candidate = c := by rw [Device.candidate, ha.candidate, hc]; rfl
      rw [this]
      exact List.mem_append_left _ hl
    · exact ha.candidateAccepted (hcmp hfail)
  · rintro o w' hP ⟨⟨⟩, -⟩
  · rintro e w' hP ⟨hexit, -⟩ he
    exact Kept.finished (hi.origin.imp_right hP.attempting.accepted)
      ((hend e hexit he).congr hP.calm.flash)
  · exact fun e w' hP _ => hi.still (hP.calm.still hP.attempting) (by simp [Placed, update_state.start])
      (hP.attempting.requested.mpr hreq)
  · exact fun w' hP => hi.still (hP.calm.still hP.attempting) False.elim trivial

/-- Errors of the environment do not end an attempt before the restore. -/
theorem external_continues {e : Error} (h : e.external = true) :
    ¬ (e = .firmware_candidate_not_valid ∨ e = .firmware_already_in_system) := by
  rintro (rfl | rfl) <;> cases h

/-- A phase of `firmwareUpdate()` that works on the region leaves an update requested. -/
theorem flashing_kept {st : update_state} {P : Device → Prop}
    {K : update_state ⊕ firmware_update_outcome → Device → Prop} {E : Error → Device → Prop}
    {T : Prop} (hi : Kept img cur (.update st) w)
    (h : wp (phaseStep (.device X fuel) st) (Ends P K E T) w) (hP : ∀ w', P w' → Flashing w w')
    (hnext : ∀ r w', K r w' → ∃ st', r = .inl st' ∧
      st'.phase ∉ [.complete, .backup_restored] ∧
      (st'.phase ∈ [.backup, .erase_flash, .flash, .verify_flash] →
        st.phase ∈ [.backup, .erase_flash, .flash, .verify_flash]))
    (herr : ∀ e w', E e w' →
      ¬ (e = .firmware_candidate_not_valid ∨ e = .firmware_already_in_system)) :
    wp (taskStep X fuel (.update st)) (fun x w' => Kept img cur (nextPc x) w') w := by
  have hreq := hi.attempt.1
  refine wp_update_step h ?_ ?_ ?_ ?_ ?_
  · intro st' w' hw' hr
    obtain ⟨_, ⟨⟩, hph, hcand⟩ := hnext _ _ hr
    have ha := (hP w' hw').attempting
    refine hi.flashing (hP w' hw') hreq (by simpa [Placed] using hph) ⟨ha.requested.mpr hreq, ?_⟩
    exact fun hph' => ha.candidateAccepted (hi.attempt.2 (hcand hph'))
  · intro o w' hw' hr
    obtain ⟨_, ⟨⟩, -⟩ := hnext _ _ hr
  · exact fun e w' _ he h' => absurd h' (herr e w' he)
  · exact fun e w' hw' _ => hi.flashing (hP w' hw') hreq (by simp [Placed, update_state.start])
      ((hP w' hw').attempting.requested.mpr hreq)
  · exact fun w' hw' => hi.flashing (hP w' hw') hreq id trivial

theorem backup_kept (hi : Kept img cur (.update ⟨.backup, app_len, backup_len⟩) w) :
    wp (taskStep X fuel (.update ⟨.backup, app_len, backup_len⟩))
      (fun x w' => Kept img cur (nextPc x) w') w := by
  have hreq := hi.attempt.1
  refine wp_update_step (backup_round X fuel app_len backup_len w) ?_ ?_ ?_ ?_ ?_
  · rintro st' w' hP ⟨n, ⟨⟩, -⟩
    have ha := hP.attempting
    exact hi.still hP.still (by simp [Placed])
      ⟨ha.requested.mpr hreq, fun _ => ha.candidateAccepted (hi.attempt.2 (by simp))⟩
  · rintro o w' hP ⟨n, ⟨⟩, -⟩
  · rintro e w' - (he | rfl) h
    · exact absurd h (external_continues he)
    · rcases h with h | h <;> cases h
  · exact fun e w' hP _ => hi.still hP.still (by simp [Placed, update_state.start])
      (hP.attempting.requested.mpr hreq)
  · exact fun w' hP => hi.still hP.still False.elim trivial

/-- `verify_flash` puts the candidate in place, or the region is erased again. -/
theorem verify_flash_kept (hX : Tells X .fw_file_name w app_len)
    (hi : Kept img cur (.update ⟨.verify_flash, app_len, backup_len⟩) w) :
    wp (taskStep X fuel (.update ⟨.verify_flash, app_len, backup_len⟩)) (fun x w' => Kept img
      (Sys.placed X ⟨.update ⟨.verify_flash, app_len, backup_len⟩, w, img, cur⟩ (nextPc x))
      (nextPc x) w') w := by
  have hreq := hi.attempt.1
  have hcand := hi.attempt.2 (by simp)
  refine wp_update_step (I := fun pc w' => Kept img
    (Sys.placed X ⟨.update ⟨.verify_flash, app_len, backup_len⟩, w, img, cur⟩ pc) pc w')
    (verify_flash_round X fuel app_len backup_len w) ?_ ?_ ?_ ?_ ?_
  · rintro st' w' hP (⟨⟨⟩, hm, -⟩ | ⟨⟨⟩, -⟩)
    · have ha := hP.attempting
      exact ⟨.inr (ha.accepted hcand), fun _ => (hm.candidate hX).congr hP.calm.flash,
        ha.requested.mpr hreq, fun _ => ha.candidateAccepted hcand⟩
    · exact hi.still (hP.calm.still hP.attempting) (by simp [Placed])
        ⟨hP.attempting.requested.mpr hreq, fun _ => hP.attempting.candidateAccepted hcand⟩
  · rintro o w' hP (⟨⟨⟩, -⟩ | ⟨⟨⟩, -⟩)
  · exact fun e w' _ he h => absurd h (external_continues he)
  · exact fun e w' hP _ => hi.still (hP.calm.still hP.attempting) (by simp [Placed, update_state.start])
      (hP.attempting.requested.mpr hreq)
  · exact fun w' hP => hi.still (hP.calm.still hP.attempting) False.elim trivial

/-- `verify_backup` of an update puts the installed image in place, or the region is erased
    again. -/
theorem verify_backup_kept
    (himg : Matches X .app_backup_file_name w app_len → Holds img w)
    (hi : Kept img cur (.update ⟨.verify_backup, app_len, backup_len⟩) w) :
    wp (taskStep X fuel (.update ⟨.verify_backup, app_len, backup_len⟩)) (fun x w' => Kept img
      (Sys.placed X ⟨.update ⟨.verify_backup, app_len, backup_len⟩, w, img, cur⟩ (nextPc x))
      (nextPc x) w') w := by
  have hreq := hi.attempt.1
  refine wp_update_step (I := fun pc w' => Kept img
    (Sys.placed X ⟨.update ⟨.verify_backup, app_len, backup_len⟩, w, img, cur⟩ pc) pc w')
    (verify_backup_round X fuel app_len backup_len w) ?_ ?_ ?_ ?_ ?_
  · rintro st' w' hP (⟨⟨⟩, hm⟩ | ⟨⟨⟩, -⟩)
    · exact ⟨.inl rfl, fun _ => (himg hm).congr hP.calm.flash,
        hP.attempting.requested.mpr hreq, by simp⟩
    · exact hi.still (hP.calm.still hP.attempting) (by simp [Placed])
        ⟨hP.attempting.requested.mpr hreq, by simp⟩
  · rintro o w' hP (⟨⟨⟩, -⟩ | ⟨⟨⟩, -⟩)
  · exact fun e w' _ he h => absurd h (external_continues he)
  · exact fun e w' hP _ => hi.still (hP.calm.still hP.attempting) (by simp [Placed, update_state.start])
      (hP.attempting.requested.mpr hreq)
  · exact fun w' hP => hi.still (hP.calm.still hP.attempting) False.elim trivial

/-- The fallback puts the installed image in place, or leaves an update requested. -/
theorem restore_kept {st : update_state} (hpc : InRestore (.restore st))
    (himg : st.phase = .verify_backup → Matches X .app_backup_file_name w st.app_len → Holds img w)
    (hi : Kept img cur (.restore st) w) :
    wp (taskStep X fuel (.restore st)) (fun x w' => Kept img
      (Sys.placed X ⟨.restore st, w, img, cur⟩ (nextPc x)) (nextPc x) w') w := by
  have hreq : Requested w := hi.attempt
  obtain ⟨phase, app_len, backup_len⟩ := st
  have hflash {w' : Device} (hf : Flashing w w') (pc : Pc) (hp : ¬ Placed pc)
      (ha : InAttempt pc w') : Kept img cur pc w' := hi.flashing hf hreq hp ha
  have hafter {w' w'' : Device} (hk : Kept img cur .start w') (hq : Quiet w' w'') :
      Kept img cur .start w'' ∧ Kept img cur .head w'' :=
    ⟨hk.still (hq.calm.still hq.attempting) False.elim trivial,
      hk.still (hq.calm.still hq.attempting) False.elim trivial⟩
  cases phase with
  | erase_flash_before_restore =>
    refine wp_restore_step (I := fun pc w' => Kept img cur pc w')
      (erase_round X fuel (.inr ⟨rfl, rfl⟩) app_len backup_len w) ?_ ?_ ?_ ?_
    · rintro st' w' hP ⟨⟨⟩, -⟩
      exact hflash hP _ (by simp [Placed]) (hP.attempting.requested.mpr hreq)
    · rintro o w' hP ⟨⟨⟩, -⟩
    · exact fun e w' w'' hP _ hq => hafter (hflash hP .start id trivial) hq
    · exact fun w' hP => hflash hP .start id trivial
  | restore_backup =>
    refine wp_restore_step (I := fun pc w' => Kept img cur pc w')
      (restore_round X fuel app_len backup_len w) ?_ ?_ ?_ ?_
    · rintro st' w' ⟨hP, -⟩ (⟨_, ⟨⟩, -⟩ | ⟨⟨⟩, -⟩)
      · exact hflash hP _ (by simp [Placed]) (hP.attempting.requested.mpr hreq)
      · exact hflash hP _ (by simp [Placed]) (hP.attempting.requested.mpr hreq)
    · rintro o w' hP (⟨n, ⟨⟩, -⟩ | ⟨⟨⟩, -⟩)
    · exact fun e w' w'' hP _ hq => hafter (hflash hP.1 .start id trivial) hq
    · exact fun w' hP => hflash hP.1 .start id trivial
  | verify_backup =>
    refine wp_restore_step (I := fun pc w' => Kept img
      (Sys.placed X ⟨.restore ⟨.verify_backup, app_len, backup_len⟩, w, img, cur⟩ pc) pc w')
      (verify_backup_round X fuel app_len backup_len w) ?_ ?_ ?_ ?_
    · rintro st' w' hP (⟨⟨⟩, hm⟩ | ⟨⟨⟩, -⟩)
      · exact ⟨.inl rfl, fun _ => (himg rfl hm).congr hP.calm.flash,
          hP.attempting.requested.mpr hreq⟩
      · exact hi.still (hP.calm.still hP.attempting) (by simp [Placed])
          (hP.attempting.requested.mpr hreq)
    · rintro o w' hP (⟨⟨⟩, -⟩ | ⟨⟨⟩, -⟩)
    · exact fun e w' w'' hP _ hq =>
        hafter (hi.still (hP.calm.still hP.attempting) False.elim trivial) hq
    · exact fun w' hP => hi.still (hP.calm.still hP.attempting) False.elim trivial
  | backup_restored =>
    exact (Kept.finished hi.origin (hi.kept (.inr (.inr rfl)))).wp_finishAttempt
  | _ => exact absurd hpc (by simp [InRestore])

omit [DecidableEq Digest] in
/-- A verified restore has put the installed image in place. -/
theorem Preserved.restored (hX : Tells X .app_backup_file_name w app_len) {pc : Pc}
    (hp : Preserved img pc w) (hm : Matches X .app_backup_file_name w app_len) : Holds img w := by
  by_cases ht : Touched w
  · obtain ⟨b, hb, hpre⟩ := hp.touched ht
    obtain ⟨b', hb', -, hh⟩ := hm.image hX
    rw [hb] at hb'
    cases hb'
    exact hh.of_prefix hpre
  · exact hp.untouched ht

omit [DecidableEq Digest] in
/-- The loop is left only on an untouched region or without a request. -/
theorem Guarded.left (hg : Guarded X ⟨.head, w, img, cur⟩)
    (hout : ¬ Requested w ∨ (w.faults w.tick).fails = true ∨
      (w.faults (w.tick + 1)).fails = true) : ¬ Touched w ∨ ¬ Requested w := by
  by_cases hreq : Requested w
  · refine .inl fun ht => ?_
    obtain ⟨h₀, h₁⟩ := hg.loop_kept rfl ⟨ht, hreq⟩
    obtain h | h | h := hout
    · exact h hreq
    · exact Bool.false_ne_true (h₀.symm.trans h)
    · exact Bool.false_ne_true (h₁.symm.trans h)
  · exact .inr hreq

/-- Where `check` ends an attempt an image is in place. -/
theorem check_ends (hX : Tells X .fw_file_name w w.candidate.length)
    (hi : Kept img cur (.update ⟨.check, app_len, backup_len⟩) w)
    (hg : Guarded X ⟨.update ⟨.check, app_len, backup_len⟩, w, img, cur⟩) :
    wp (taskStep X fuel (.update ⟨.check, app_len, backup_len⟩)) (fun x w' => Kept img
      (Sys.placed X ⟨.update ⟨.check, app_len, backup_len⟩, w, img, cur⟩ (nextPc x))
      (nextPc x) w') w := by
  show wp _ (fun x w' => Kept img (if Touched w ∧ (checkFirmwareImage X .fw_file_name w).1 =
    .err .firmware_already_in_system then w.candidate else cur) (nextPc x) w') w
  have hexits := fun (e : Error) (he : (checkFirmwareImage X .fw_file_name w).1 = .err e) =>
    (wp_of_run (checkFirmwareImage_spec X .fw_file_name w) (Prod.ext he rfl)).2
  split
  · rename_i h
    obtain ⟨ht, hexit⟩ := h
    obtain h | h | ⟨h, -⟩ | ⟨-, c, hc, hfit, heq⟩ := hexits _ hexit
    any_goals cases h
    have hcand : w.candidate = c := by rw [Device.candidate, hc]; rfl
    have hin : Holds w.candidate w := by
      rw [hcand] at hX ⊢
      exact ⟨hfit, (hX c hc heq).symm⟩
    have hacc := hg.known rfl ht ⟨c, hc, hfit, heq⟩
    exact check_kept ⟨.inr hacc, fun _ => hin, hi.attempt⟩ (hg.compared rfl) fun _ _ _ => hin
  · rename_i h
    refine check_kept hi (hg.compared rfl) ?_
    rintro e hexit (rfl | rfl)
    · refine hi.kept (.inl fun ht => ?_)
      obtain h' | h' | ⟨-, href⟩ | ⟨h', -⟩ := hexits _ hexit
      any_goals cases h'
      exact hg.not_refused rfl ht href
    · exact hi.kept (.inl fun ht => h ⟨ht, hexit⟩)

/-- A guarded step of `firmwareUpdate()` keeps the invariant. -/
theorem update_kept {st : update_state} (hX : CollisionFree X ⟨.update st, w, img, cur⟩)
    (hp : Preserved img (.update st) w) (hi : Kept img cur (.update st) w)
    (hg : Guarded X ⟨.update st, w, img, cur⟩) :
    wp (taskStep X fuel (.update st)) (fun x w' => Kept img
      (Sys.placed X ⟨.update st, w, img, cur⟩ (nextPc x)) (nextPc x) w') w := by
  obtain ⟨phase, app_len, backup_len⟩ := st
  cases phase with
  | check => exact check_ends (hX _ rfl) hi hg
  | backup => exact backup_kept hi
  | erase_flash =>
    refine flashing_kept hi (erase_round X fuel (.inl ⟨rfl, rfl⟩) app_len backup_len w)
      (fun _ h => h) ?_ (by rintro _ _ rfl; simp)
    rintro _ w' ⟨rfl, -⟩
    exact ⟨_, rfl, by simp⟩
  | flash =>
    refine flashing_kept hi (flash_round X fuel app_len backup_len w) (fun _ h => h.1) ?_
      fun _ _ he => external_continues he
    rintro _ w' (⟨n, rfl, -⟩ | rfl | ⟨rfl, -⟩)
    · exact ⟨_, rfl, by simp⟩
    · exact ⟨_, rfl, by simp⟩
    · exact ⟨_, rfl, by simp⟩
  | verify_flash => exact verify_flash_kept (hX _ rfl) hi
  | erase_flash_before_restore =>
    refine flashing_kept hi (erase_round X fuel (.inr ⟨rfl, rfl⟩) app_len backup_len w)
      (fun _ h => h) ?_ (by rintro _ _ rfl; simp)
    rintro _ w' ⟨rfl, -⟩
    exact ⟨_, rfl, by simp⟩
  | restore_backup =>
    refine flashing_kept hi (restore_round X fuel app_len backup_len w) (fun _ h => h.1) ?_ ?_
    · rintro _ w' (⟨n, rfl, -⟩ | ⟨rfl, -⟩)
      · exact ⟨_, rfl, by simp⟩
      · exact ⟨_, rfl, by simp⟩
    · rintro _ _ (he | rfl)
      · exact external_continues he
      · simp
  | verify_backup => exact verify_backup_kept (hp.restored (hX _ rfl)) hi
  | complete => exact (Kept.finished hi.origin (hi.kept (.inr (.inr (.inl rfl))))).wp_finishAttempt
  | backup_restored =>
    exact (Kept.finished hi.origin (hi.kept (.inr (.inr (.inr rfl))))).wp_finishAttempt

/-- A guarded step of `taskFunction` keeps the invariant. -/
theorem taskStep_kept {s : Sys} (hX : CollisionFree X s)
    (hp : Preserved s.installed s.pc s.dev) (hi : Kept s.installed s.current s.pc s.dev)
    (hpc : s.pc ≠ .jump) (hg : Guarded X s) :
    wp (taskStep X fuel s.pc)
      (fun x w' => Kept s.installed (s.placed X (nextPc x)) (nextPc x) w') s.dev := by
  obtain ⟨pc, w, img, cur⟩ := s
  cases pc with
  | start =>
    refine wp_mono (start_step X fuel hp.nvm) ?_
    intro x w' hx
    have hs {pc' : Pc} (hc : Configuring w w') (hpc' : pc' = .start ∨ pc' = .head) :
        Kept img cur pc' w' := by
      obtain rfl | rfl := hpc' <;> exact hi.still (hc.calm.still hc.attempting) False.elim trivial
    cases x with
    | ok pc =>
      obtain ⟨hc, rfl⟩ := hx
      exact hs hc (.inr rfl)
    | err e => exact hx.2.elim
    | trap => exact hx.2.elim
    | halt => exact hs hx (.inl rfl)
  | head =>
    refine wp_mono (head_step X fuel w) ?_
    intro x w' hx
    cases x with
    | ok pc =>
      obtain ⟨hq, ⟨rfl, hreq⟩ | ⟨rfl, hout⟩⟩ := hx
      · exact hi.still (hq.calm.still hq.attempting) (by simp [Placed, update_state.start])
          ⟨hq.attempting.requested.mpr hreq, by simp [update_state.start]⟩
      · exact hi.still (hq.calm.still hq.attempting) (fun _ => hi.kept ((hg.left hout).imp_right .inl)) trivial
    | err e => exact hx.2.elim
    | trap => exact hx.2.elim
    | halt => exact hi.still (hx.calm.still hx.attempting) False.elim trivial
  | update st => exact update_kept hX hp hi hg
  | restore st =>
    refine restore_kept hp.restore (fun hphase hm => hp.restored ?_ hm) hi
    obtain ⟨phase, app_len, backup_len⟩ := st
    cases hphase
    exact hX _ rfl
  | jump => exact absurd rfl hpc

end Steps

/-! ## Histories -/

variable {X}

omit [DecidableEq Digest] in
theorem Initial.kept {s : Sys} (h : Initial s) : Kept s.installed s.current s.pc s.dev := by
  rw [h.pc, h.current]
  exact ⟨.inl rfl, fun _ => h.installed, trivial⟩

/-- A guarded step keeps the invariant. -/
theorem step_kept {C : Sys → Prop} {s s' : Sys} (hX : C s → CollisionFree X s)
    (hC : C s → Guarded X s) (hp : Preserved s.installed s.pc s.dev) (hk : Kept s.installed s.current s.pc s.dev)
    (h : Step X C s s') : Kept s'.installed s'.current s'.pc s'.dev := by
  obtain ⟨fuel, hpc, hg⟩ | ⟨config, pub_key⟩ | ⟨hpc, hcur, hflash, hsize, hnvm, hlog⟩ := h
  · exact next_of_wp (Q := fun s => Kept s.installed s.current s.pc s.dev)
      (taskStep_kept (hX hg) hp hk hpc (hC hg))
  · refine ⟨hk.origin, fun h => ?_, trivial⟩
    obtain h | h | h := h
    · exact (hk.kept (.inl h)).congr rfl
    · exact (hk.kept (.inr (.inl h))).congr rfl
    · exact h.elim
  · exact ⟨.inl rfl, fun _ => hcur.congr hflash, trivial⟩

/-- **Jump safety.**  In a history of guarded steps, whenever `taskFunction` is at `prepareJump()`
    the region begins with the installed image or with an accepted candidate. -/
theorem jump_safe {s₀ s : Sys} (h₀ : Initial s₀)
    (h : History X (fun s => (Guarded X s ∧ SizedBackup s) ∧ CollisionFree X s) s₀ s)
    (hpc : s.pc = .jump) :
    ∃ img, (img = s.installed ∨ WasAccepted s.dev img) ∧ Holds img s.dev := by
  have hi : Preserved s.installed s.pc s.dev ∧ Kept s.installed s.current s.pc s.dev := by
    refine h.invariant (I := fun s => Preserved s.installed s.pc s.dev ∧
      Kept s.installed s.current s.pc s.dev) ⟨h₀.preserved, h₀.kept⟩ ?_
    rintro s _ ⟨hp, hk⟩ hstep
    exact ⟨step_preserved hp (fun hC => ⟨hC.1.1.first_backup, hC.1.2, hC.1.1.own_backup⟩) hstep,
      step_kept And.right (fun hC => hC.1.1) hp hk hstep⟩
  refine ⟨s.current, hi.2.origin, hi.2.kept (.inr (.inr ?_))⟩
  rw [hpc]
  trivial

/-! ## Samples -/

instance (s : Sys) : Decidable (Guarded X s) :=
  decidable_of_iff (FirstBackup s ∧ OwnBackup s ∧
    (s.pc = .head → (Touched s.dev ∧ Requested s.dev) →
      (s.dev.faults s.dev.tick).fails = false ∧ (s.dev.faults (s.dev.tick + 1)).fails = false) ∧
    (s.pc.updating = some .check → ComparisonFails .fw_file_name s.dev →
      WasAccepted s.dev s.dev.candidate) ∧
    (s.pc.updating = some .check → Touched s.dev → ¬ Refusable X .fw_file_name s.dev) ∧
    (s.pc.updating = some .check → Touched s.dev → InRegion X .fw_file_name s.dev →
      WasAccepted s.dev s.dev.candidate))
    ⟨fun h => ⟨h.1, h.2.1, h.2.2.1, h.2.2.2.1, h.2.2.2.2.1, h.2.2.2.2.2⟩,
      fun h => ⟨h.1, h.2, h.3, h.4, h.5, h.6⟩⟩

instance (img : List UInt8) (w : Device) : Decidable (Holds img w) :=
  inferInstanceAs (Decidable (_ ∧ _))

/-- An update to `[0x42]` without failures. -/
theorem jump_safe_sample : ∃ img,
    (img = [0x41] ∨ WasAccepted ((Sys.sample (fun _ => .none) [0x42]).steps .short 4 9).dev img) ∧
      Holds img ((Sys.sample (fun _ => .none) [0x42]).steps .short 4 9).dev :=
  jump_safe (X := .short) (Sys.sample_initial (fun _ => .none) [0x42])
    (history_steps 4 9 _ (by decide +kernel)) (by decide +kernel)

/-- An erase fails and clears the first byte, the fallback cannot open `APP.BAK`, and the mount of
    the retry fails: the loop is left with a damaged image. -/
theorem failed_mount_jumps :
    ¬ ∀ s₀ s : Sys, Initial s₀ → History .plain (fun _ => True) s₀ s → s.pc = .jump →
      ∃ img, (img = s.installed ∨ WasAccepted s.dev img) ∧ Holds img s.dev := by
  intro hall
  let faults : Nat → Fault := fun t =>
    if t = 49 then .fail .fr_disk_err [0x00] else if t ∈ [50, 53] then .fail .fr_disk_err [] else .none
  let s := (Sys.sample faults [0x42]).steps .plain 4 7
  obtain ⟨img, himg, hholds⟩ := hall _ s (Sys.sample_initial faults [0x42])
    (history_steps 4 7 _ (by decide +kernel)) (by decide +kernel)
  have hlog : s.dev.log = [.MSC_ErasePage 0, .bootutil_img_validate [0x42] true] := by
    decide +kernel
  have hcases : img = [0x41] ∨ img = [0x42] := by
    refine himg.imp_right fun h => ?_
    rw [WasAccepted, hlog] at h
    simpa using h
  obtain rfl | rfl := hcases
  · revert hholds
    decide +kernel
  · revert hholds
    decide +kernel

end Miso.Boot
