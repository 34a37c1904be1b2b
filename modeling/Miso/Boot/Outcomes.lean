import Miso.Boot.Phases

/-!
# What the outcomes of the update state machine mean

The invariants of `firmwareUpdateStateMachine` started at `check` (`Updating`) and at
`restore_backup` (`Restoring`), kept by every round whatever fails and is retried, and from them:

* `update_success` — after `success` the region is `FW.BIN` followed by `0xFF`, and its size is
  recorded unless the write of the counter failed;
* `restore_success` — after `backup_restore` the region begins with `APP.BAK`.
-/

namespace Miso.Boot

open Zig

variable {Digest : Type} [DecidableEq Digest] (X : Externs Digest) (fuel : Nat)

/-- What every phase but `verify_flash` leaves alone. -/
structure Settled (w w' : Device) : Prop where
  candidate : w'.sd .fw_file_name = w.sd .fw_file_name
  faults : w'.faults = w.faults
  nvm : w'.nvm = w.nvm

theorem settled_frame : Frame Settled where
  refl _ := ⟨rfl, rfl, rfl⟩
  trans h h' := ⟨h'.1.trans h.1, h'.2.trans h.2, h'.3.trans h.3⟩

theorem Quiet.settled {w w' : Device} (h : Quiet w w') : Settled w w' := by
  obtain ⟨t, rfl⟩ := h
  exact ⟨rfl, rfl, rfl⟩

theorem Checking.settled {w w' : Device} (h : Checking w w') : Settled w w' := by
  obtain ⟨t, k, l, rfl, -⟩ := h
  exact ⟨rfl, rfl, rfl⟩

theorem Flashing.settled {w w' : Device} (h : Flashing w w') : Settled w w' := by
  obtain ⟨t, f, l, rfl, -⟩ := h
  exact ⟨rfl, rfl, rfl⟩

theorem Saving.settled {w w' : Device} (h : Saving .app_backup_file_name w w') : Settled w w' := by
  obtain ⟨t, d, rfl, hd⟩ := h
  exact ⟨hd _ (by decide), rfl, rfl⟩

/-! ## The update -/

/-- The size counter after a completed update of `n` bytes: written, or as in `w₀` because the
    last call of the run has failed. -/
def SizeRecorded (w₀ w : Device) (n : Nat) : Prop :=
  Stored w n ∨ w.nvm = w₀.nvm ∧ 0 < w.tick ∧ (w₀.faults (w.tick - 1)).fails = true

/-- The candidate is in the region and its size is recorded. -/
def Installed (w₀ w : Device) : Prop :=
  ∃ c, w₀.sd .fw_file_name = some c ∧ Image c w ∧ SizeRecorded w₀ w c.length

/-- The invariant of the machine started at `check` from `w₀`. -/
def Updating (w₀ : Device) (st : update_state) (w : Device) : Prop :=
  match st.phase with
  | .flash => Settled w₀ w ∧ Erased w
  | .verify_flash => Settled w₀ w ∧
      ∃ c, w₀.sd .fw_file_name = some c ∧ st.app_len = c.length ∧ Image c w
  | .complete => Installed w₀ w
  | _ => Settled w₀ w

theorem phaseStep_updating {w₀ : Device} (st : update_state) (w : Device)
    (hi : Updating w₀ st w) :
    wp (phaseStep (.device X fuel) st) (Ends (fun _ => True)
      (fun r w' => Sum.elim (fun st' => Updating w₀ st' w')
        (fun o => o = .success → Installed w₀ w') r)
      (fun _ _ => True) True) w := by
  obtain ⟨phase, app_len, backup_len⟩ := st
  have hnext {w' : Device} (h : Settled w₀ w) (h' : Settled w w') := settled_frame.trans h h'
  cases phase with
  | check =>
    refine wp_ends_mono (check_round X fuel app_len backup_len w) (fun _ _ => trivial) ?_
      (fun _ _ _ _ => trivial) id
    rintro _ w' hP ⟨rfl, -⟩
    exact hnext hi hP.settled
  | backup =>
    refine wp_ends_mono (backup_round X fuel app_len backup_len w) (fun _ _ => trivial) ?_
      (fun _ _ _ _ => trivial) id
    rintro _ w' hP ⟨n, rfl, -⟩
    exact hnext hi hP.settled
  | erase_flash =>
    refine wp_ends_mono (erase_round X fuel (.inl ⟨rfl, rfl⟩) app_len backup_len w)
      (fun _ _ => trivial) ?_ (fun _ _ _ _ => trivial) False.elim
    rintro _ w' hP ⟨rfl, -, he⟩
    exact ⟨hnext hi hP.settled, he⟩
  | flash =>
    obtain ⟨hs, he⟩ := hi
    refine wp_ends_mono (flash_round X fuel app_len backup_len w) (fun _ _ => trivial) ?_
      (fun _ _ _ _ => trivial) False.elim
    rintro _ w' ⟨hP, -⟩ (⟨_, rfl, c, hc, rfl, hle, hp⟩ | rfl | ⟨rfl, -⟩)
    · exact ⟨hnext hs hP.settled, c, hs.candidate ▸ hc, rfl, he.image hle hp⟩
    · exact hnext hs hP.settled
    · exact hnext hs hP.settled
  | verify_flash =>
    obtain ⟨hs, c, hc, rfl, him⟩ := hi
    refine wp_ends_mono (verify_flash_round X fuel c.length backup_len w) (fun _ _ => trivial) ?_
      (fun _ _ _ _ => trivial) fun _ => trivial
    rintro _ w' - (⟨rfl, -, ⟨t, rfl⟩ | ⟨c', t, -, -, rfl, hf⟩⟩ | ⟨rfl, hq, -⟩)
    · exact ⟨c, hc, him, .inl (setNvm_self w .firmware_size (.counter c.length))⟩
    · exact ⟨c, hc, him, .inr ⟨hs.nvm, Nat.succ_pos t, hs.faults ▸ hf⟩⟩
    · exact hnext hs hq.settled
  | erase_flash_before_restore =>
    refine wp_ends_mono (erase_round X fuel (.inr ⟨rfl, rfl⟩) app_len backup_len w)
      (fun _ _ => trivial) ?_ (fun _ _ _ _ => trivial) False.elim
    rintro _ w' hP ⟨rfl, -⟩
    exact hnext hi hP.settled
  | restore_backup =>
    refine wp_ends_mono (restore_round X fuel app_len backup_len w) (fun _ _ => trivial) ?_
      (fun _ _ _ _ => trivial) False.elim
    rintro _ w' ⟨hP, -⟩ (⟨n, rfl, -⟩ | ⟨rfl, -⟩)
    · exact hnext hi hP.settled
    · exact hnext hi hP.settled
  | verify_backup =>
    refine wp_ends_mono (verify_backup_round X fuel app_len backup_len w) (fun _ _ => trivial) ?_
      (fun _ _ _ _ => trivial) fun _ => trivial
    rintro _ w' hP (⟨rfl, -⟩ | ⟨rfl, -⟩)
    · exact hnext hi hP.settled
    · exact hnext hi hP.settled
  | complete => exact ⟨trivial, fun _ => hi⟩
  | backup_restored => exact ⟨trivial, fun h => by cases h⟩

/-- **`success` means that the candidate is installed.** -/
theorem update_success (n : Nat) (w : Device) :
    wp (firmwareUpdateStateMachine (.device X fuel) n (some .check))
      (fun x w' => x = .ok .success → Installed w w') w := by
  refine wp_mono (wp_loop (K := fun o w' => o = .success → Installed w w') (Updating w)
    (phaseStep_updating X fuel) (fun _ _ _ => trivial) n _ w (settled_frame.refl w)) ?_
  rintro _ w' h rfl
  exact h.2 rfl

/-! ## The restore -/

theorem Quiet.sd {w w' : Device} (h : Quiet w w') : w'.sd = w.sd := by
  obtain ⟨t, rfl⟩ := h
  rfl

/-- The hash tells the file at `path` from the first `n` bytes of the region. -/
def Tells (path : Path) (w : Device) (n : Nat) : Prop :=
  ∀ c ∈ w.sd path, X.sha256 c = X.sha256 (w.bytes 0 n) → c = w.bytes 0 n

instance (path : Path) (w : Device) (n : Nat) : Decidable (Tells X path w n) :=
  inferInstanceAs (Decidable (∀ c ∈ w.sd path, _ → _))

omit [DecidableEq Digest] in
/-- A verified file is in the region, if the hash tells the two. -/
theorem Matches.image {X : Externs Digest} {path : Path} {w : Device} {n : Nat}
    (h : Matches X path w n) (hX : Tells X path w n) :
    ∃ c, w.sd path = some c ∧ n = c.length ∧ Holds c w := by
  obtain ⟨hle, c, hc, heq⟩ := h
  have hbytes := hX c hc heq
  obtain rfl : n = c.length := by rw [hbytes, bytes_length]
  exact ⟨c, hc, rfl, hle, hbytes.symm⟩

omit [DecidableEq Digest] in
theorem Matches.congr {X : Externs Digest} {path : Path} {w w' : Device} {n : Nat}
    (h : Matches X path w n) (hsd : w'.sd = w.sd) (hflash : w'.flash = w.flash) :
    Matches X path w' n := by
  obtain ⟨hle, c, hc, heq⟩ := h
  refine ⟨hle, c, by rw [hsd, hc], ?_⟩
  rw [heq]
  unfold Device.bytes
  rw [hflash]

/-- The card is as in `w₀`, and `APP.BAK` has the hash of the region. -/
def Verified (w₀ w : Device) : Prop :=
  w.sd = w₀.sd ∧ ∃ c, w₀.sd .app_backup_file_name = some c ∧ Matches X .app_backup_file_name w c.length

/-- The invariant of the machine started at `restore_backup` with the card as in `w₀`. -/
def Restoring (w₀ : Device) (st : update_state) (w : Device) : Prop :=
  w.sd = w₀.sd ∧
  match st.phase with
  | .restore_backup | .erase_flash_before_restore => True
  | .verify_backup => ∃ c, w₀.sd .app_backup_file_name = some c ∧ st.app_len = c.length
  | .backup_restored => Verified X w₀ w
  | _ => False

theorem phaseStep_restoring {w₀ : Device} (st : update_state)
    (w : Device) (hi : Restoring X w₀ st w) :
    wp (phaseStep (.device X fuel) st) (Ends (fun _ => True)
      (fun r w' => Sum.elim (fun st' => Restoring X w₀ st' w')
        (fun o => o = .backup_restore ∧ Verified X w₀ w') r)
      (fun _ _ => True) True) w := by
  obtain ⟨phase, app_len, backup_len⟩ := st
  obtain ⟨hsd, hi⟩ := hi
  cases phase with
  | erase_flash_before_restore =>
    refine wp_ends_mono (erase_round X fuel (.inr ⟨rfl, rfl⟩) app_len backup_len w)
      (fun _ _ => trivial) ?_ (fun _ _ _ _ => trivial) False.elim
    rintro _ w' hP ⟨rfl, -⟩
    exact ⟨hP.sd.trans hsd, trivial⟩
  | restore_backup =>
    refine wp_ends_mono (restore_round X fuel app_len backup_len w) (fun _ _ => trivial) ?_
      (fun _ _ _ _ => trivial) False.elim
    rintro _ w' ⟨hP, -⟩ (⟨_, rfl, c, hc, rfl, -⟩ | ⟨rfl, -⟩)
    · exact ⟨hP.sd.trans hsd, c, hsd ▸ hc, rfl⟩
    · exact ⟨hP.sd.trans hsd, trivial⟩
  | verify_backup =>
    obtain ⟨c, hc, rfl⟩ := hi
    refine wp_ends_mono (verify_backup_round X fuel c.length backup_len w) (fun _ _ => trivial) ?_
      (fun _ _ _ _ => trivial) fun _ => trivial
    rintro _ w' ⟨t, rfl⟩ (⟨rfl, hm⟩ | ⟨rfl, -⟩)
    · exact ⟨hsd, hsd, c, hc, hm.congr rfl rfl⟩
    · exact ⟨hsd, trivial⟩
  | backup_restored => exact ⟨trivial, rfl, hi⟩
  | _ => exact hi.elim

theorem restore_verified (n : Nat) (w : Device) :
    wp (firmwareUpdateStateMachine (.device X fuel) n (some .restore_backup))
      (fun x w' => x = .ok .backup_restore → Verified X w w') w := by
  refine wp_mono (wp_loop (K := fun o w' => o = .backup_restore ∧ Verified X w w') (Restoring X w)
    (phaseStep_restoring X fuel) (fun _ _ _ => trivial) n _ w ⟨rfl, trivial⟩) ?_
  rintro _ w' h rfl
  exact h.2.2

/-- **`backup_restore` means that the backup is in the region**, where the hash tells `APP.BAK` from
    what the region then holds. -/
theorem restore_success (n : Nat) (w : Device)
    (hX : ∀ c ∈ w.sd .app_backup_file_name, Tells X .app_backup_file_name
      (firmwareUpdateStateMachine (.device X fuel) n (some .restore_backup) w).2 c.length)
    (hok : (firmwareUpdateStateMachine (.device X fuel) n (some .restore_backup) w).1 =
      .ok .backup_restore) :
    ∃ c, w.sd .app_backup_file_name = some c ∧
      Holds c (firmwareUpdateStateMachine (.device X fuel) n (some .restore_backup) w).2 := by
  obtain ⟨hsd, c, hc, hm⟩ := restore_verified X fuel n w hok
  obtain ⟨c', hc', -, hholds⟩ := hm.image (hX c hc)
  rw [hsd, hc] at hc'
  cases hc'
  exact ⟨c, hc, hholds⟩

/-- **What the outcomes mean**, for every content of the card and the region and every pattern
    of failing and retried steps. -/
theorem update_outcomes (n : Nat) (w : Device)
    (hX : ∀ c ∈ w.sd .app_backup_file_name, Tells X .app_backup_file_name
      (firmwareUpdateStateMachine (.device X fuel) n (some .restore_backup) w).2 c.length) :
    ((firmwareUpdateStateMachine (.device X fuel) n (some .check) w).1 = .ok .success →
      Installed w (firmwareUpdateStateMachine (.device X fuel) n (some .check) w).2) ∧
    ((firmwareUpdateStateMachine (.device X fuel) n (some .restore_backup) w).1 =
        .ok .backup_restore →
      ∃ c, w.sd .app_backup_file_name = some c ∧
        Holds c (firmwareUpdateStateMachine (.device X fuel) n (some .restore_backup) w).2) :=
  ⟨update_success X fuel n w, restore_success X fuel n w hX⟩

/-! ## A sample device -/

/-- An image library that accepts every image, with the identity as hash. -/
def Externs.plain : Externs (List UInt8) where
  sha256 := id
  base64_decode s _ := some s
  boot_image_load_header _ := true
  bootutil_img_validate _ _ := true

/-- The same library with a digest of 32 bytes: the length and the first 28 bytes. -/
def Externs.short : Externs (Vector UInt8 32) where
  sha256 c := Vector.ofFn fun i =>
    if i.1 < 4 then (c.length >>> (8 * i.1)).toUInt8 else c.getD (i.1 - 4) 0
  base64_decode s _ := some s
  boot_image_load_header _ := true
  bootutil_img_validate _ _ := true

/-- A device with the image `[0x41]` installed and recorded, and an update requested. -/
def Device.sample (faults : Nat → Fault) (fw backup : Option (List UInt8)) : Device where
  flash i := if i = 0 then 0x41 else 0xFF
  sd
    | .fw_file_name => fw
    | .app_backup_file_name => backup
    | _ => none
  nvm
    | .firmware_size | .update_request => some (.counter 1)
    | _ => some (.counter 0)
  config _ := []
  pub_key := []
  log := []
  faults := faults
  tick := 0

/-- On the sample device an update to `[0x42]` and a restore of `[0x43, 0x44]` run to their ends. -/
theorem update_outcomes_sample :
    Installed (.sample (fun _ => .none) (some [0x42]) none)
      (firmwareUpdateStateMachine (.device .short 4) 8 (some .check)
        (.sample (fun _ => .none) (some [0x42]) none)).2 ∧
    ∃ c, (Device.sample (fun _ => .none) none (some [0x43, 0x44])).sd .app_backup_file_name =
        some c ∧
      Holds c (firmwareUpdateStateMachine (.device .short 4) 8 (some .restore_backup)
        (.sample (fun _ => .none) none (some [0x43, 0x44]))).2 :=
  ⟨(update_outcomes .short 4 8 _ (by decide +kernel)).1 (by decide +kernel),
    (update_outcomes .short 4 8 _ (by decide +kernel)).2 (by decide +kernel)⟩

end Miso.Boot
