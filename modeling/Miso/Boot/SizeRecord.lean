import Miso.Boot.Safety

/-!
# The recorded firmware size

`size_recorded`: over a history, whenever `taskFunction` is at `prepareJump()` the counter
`firmware_size` is 0 or the length of the image that was put in place last.  The counter is written
in one phase only, with its error dropped; `SizeKept` names the steps that put another image in
place.
-/

namespace Miso.Boot

open Zig

variable {Digest : Type} [DecidableEq Digest] (X : Externs Digest)

/-- The counter is 0 or `n`. -/
def Records (w : Device) (n : Nat) : Prop := Stored w 0 ∨ Stored w n

instance (w : Device) (n : Nat) : Decidable (Records w n) :=
  inferInstanceAs (Decidable (w.nvm .firmware_size = some (.counter 0) ∨
    w.nvm .firmware_size = some (.counter n)))

/-- A step of `taskFunction` that leaves the right size behind. -/
structure SizeKept (s : Sys) : Prop where
  /-- The counter is written behind a verified update, or its value will do. -/
  written : s.pc.updating = some .verify_flash → ∀ c, s.dev.sd .fw_file_name = some c →
    (s.dev.faults (s.dev.tick + (compareCalls c.length).length)).fails = true →
    Records s.dev c.length
  /-- A restore is verified under a value that will do for the installed image. -/
  restored : s.pc.updating = some .verify_backup ∨ s.pc.restoring = some .verify_backup →
    Records s.dev s.installed.length
  /-- A candidate is found in a region that has been worked on under a value that will do for it. -/
  known : s.pc.updating = some .check → Touched s.dev → InRegion X .fw_file_name s.dev →
    Records s.dev s.dev.candidate.length

/-- The counter describes the image put in place last, unless an update is unfinished. -/
structure Sized (img cur : List UInt8) (pc : Pc) (w : Device) : Prop where
  fresh : ¬ Touched w → cur = img
  worked : pc.updating = some .flash ∨ pc.updating = some .verify_flash → Touched w
  sized : ¬ Touched w ∨ ¬ Requested w ∨ Placed pc → Records w cur.length

/-! ## Frames -/

/-- What all steps of an attempt but its end and `verify_flash` leave alone. -/
structure Unsized (w w' : Device) : Prop extends Attempting w w' where
  size : w'.nvm .firmware_size = w.nvm .firmware_size

theorem Quiet.unsized {w w' : Device} (h : Quiet w w') : Unsized w w' := by
  refine ⟨h.attempting, ?_⟩
  obtain ⟨t, rfl⟩ := h
  rfl

theorem Configuring.unsized {w w' : Device} (h : Configuring w w') : Unsized w w' := by
  refine ⟨h.attempting, ?_⟩
  obtain ⟨t, g, rfl⟩ := h
  rfl

theorem Checking.unsized {w w' : Device} (h : Checking w w') : Unsized w w' := by
  refine ⟨h.attempting, ?_⟩
  obtain ⟨t, k, l, rfl, -⟩ := h
  rfl

theorem Saving.unsized {w w' : Device} (h : Saving .app_backup_file_name w w') : Unsized w w' := by
  refine ⟨h.attempting, ?_⟩
  obtain ⟨t, d, rfl, -⟩ := h
  rfl

theorem Flashing.unsized {w w' : Device} (h : Flashing w w') : Unsized w w' := by
  refine ⟨h.attempting, ?_⟩
  obtain ⟨t, f, l, rfl, -⟩ := h
  rfl

theorem Attempting.touched {w w' : Device} (h : Attempting w w') (ht : Touched w) : Touched w' := by
  obtain ⟨c, hc, hm⟩ := ht
  exact ⟨c, h.log hc, hm⟩

theorem Records.unsized {w w' : Device} {n : Nat} (h : Records w n)
    (hs : w'.nvm .firmware_size = w.nvm .firmware_size) : Records w' n := by
  unfold Records Stored
  rw [hs]
  exact h

section Frames

variable {img cur : List UInt8} {pc pc' : Pc} {w w' : Device}

/-- A step that does not write the counter keeps the invariant. -/
theorem Sized.unsized (h : Sized img cur pc w) (hu : Unsized w w')
    (hw : pc'.updating = some .flash ∨ pc'.updating = some .verify_flash → Touched w')
    (hp : Placed pc' → Records w cur.length) : Sized img cur pc' w' where
  fresh ht := h.fresh fun ht' => ht (hu.touched ht')
  worked := hw
  sized := by
    rintro (h' | h' | h')
    · exact (h.sized (.inl fun ht => h' (hu.touched ht))).unsized hu.size
    · exact (h.sized (.inr (.inl fun hr => h' (hu.requested.mpr hr)))).unsized hu.size
    · exact (hp h').unsized hu.size

theorem Sized.outside (h : Sized img cur pc w) (hu : Unsized w w') (hpc : pc' = .start ∨ pc' = .head) :
    Sized img cur pc' w' := by
  obtain rfl | rfl := hpc
  · exact h.unsized hu (by simp [Pc.updating]) False.elim
  · exact h.unsized hu (by simp [Pc.updating]) False.elim

/-- An attempt may end under a counter that describes the image in place. -/
theorem Sized.finished (h : Sized img cur pc w) (hr : Records w cur.length) :
    Finished (fun pc => Sized img cur pc) w := by
  intro w'
  refine ⟨fun hq => h.outside hq.unsized (.inl rfl), ?_⟩
  rintro ⟨t, rfl⟩
  exact ⟨⟨h.fresh, by simp [Pc.updating], fun _ => hr⟩, ⟨h.fresh, by simp [Pc.updating], fun _ => hr⟩⟩

end Frames

/-! ## Steps of `taskFunction` -/

section Steps

variable {X} {fuel app_len backup_len : Nat} {img cur : List UInt8} {w : Device}

/-- A phase that neither writes the counter nor ends the attempt. -/
theorem phase_sized {st : update_state} {P : Device → Prop}
    {K : update_state ⊕ firmware_update_outcome → Device → Prop} {E : Error → Device → Prop}
    {T : Prop} (hi : Sized img cur (.update st) w)
    (h : wp (phaseStep (.device X fuel) st) (Ends P K E T) w) (hP : ∀ w', P w' → Unsized w w')
    (hnext : ∀ r w', K r w' → ∃ st', r = .inl st' ∧
      st'.phase ∉ [.complete, .backup_restored] ∧
      (st'.phase ∈ [.flash, .verify_flash] → st.phase = .flash ∨ Touched w'))
    (herr : ∀ e w', E e w' →
      ¬ (e = .firmware_candidate_not_valid ∨ e = .firmware_already_in_system)) :
    wp (taskStep X fuel (.update st)) (fun x w' => Sized img cur (nextPc x) w') w := by
  refine wp_update_step h ?_ ?_ ?_ ?_ ?_
  · intro st' w' hw' hr
    obtain ⟨_, ⟨⟩, hph, hwork⟩ := hnext _ _ hr
    refine hi.unsized (hP w' hw') ?_ fun hp => absurd hp (by simpa [Placed] using hph)
    intro hpc
    obtain hfl | ht := hwork (by simpa [Pc.updating] using hpc)
    · exact (hP w' hw').touched (hi.worked (.inl (congrArg some hfl)))
    · exact ht
  · intro o w' hw' hr
    obtain ⟨_, ⟨⟩, -⟩ := hnext _ _ hr
  · exact fun e w' _ he h' => absurd h' (herr e w' he)
  · exact fun e w' hw' _ => hi.unsized (hP w' hw') (by simp [Pc.updating])
      (by simp [Placed, update_state.start])
  · exact fun w' hw' => hi.outside (hP w' hw') (.inl rfl)

theorem check_sized (hi : Sized img cur (.update ⟨.check, app_len, backup_len⟩) w)
    (hend : ∀ e, (checkFirmwareImage X .fw_file_name w).1 = .err e →
      e = .firmware_candidate_not_valid ∨ e = .firmware_already_in_system → Records w cur.length) :
    wp (taskStep X fuel (.update ⟨.check, app_len, backup_len⟩))
      (fun x w' => Sized img cur (nextPc x) w') w := by
  refine wp_update_step (check_round X fuel app_len backup_len w) ?_ ?_ ?_ ?_ ?_
  · rintro st' w' hP ⟨⟨⟩, -⟩
    exact hi.unsized hP.unsized (by simp [Pc.updating]) (by simp [Placed])
  · rintro o w' hP ⟨⟨⟩, -⟩
  · rintro e w' hP ⟨hexit, -⟩ he
    exact (hi.outside hP.unsized (.inl rfl)).finished ((hend e hexit he).unsized hP.unsized.size)
  · exact fun e w' hP _ => hi.unsized hP.unsized (by simp [Pc.updating])
      (by simp [Placed, update_state.start])
  · exact fun w' hP => hi.outside hP.unsized (.inl rfl)

/-- Where `check` ends an attempt the counter describes the image in place. -/
theorem check_ends_sized
    (hi : Sized img cur (.update ⟨.check, app_len, backup_len⟩) w)
    (hg : Guarded X ⟨.update ⟨.check, app_len, backup_len⟩, w, img, cur⟩)
    (hs : SizeKept X ⟨.update ⟨.check, app_len, backup_len⟩, w, img, cur⟩) :
    wp (taskStep X fuel (.update ⟨.check, app_len, backup_len⟩)) (fun x w' => Sized img
      (Sys.placed X ⟨.update ⟨.check, app_len, backup_len⟩, w, img, cur⟩ (nextPc x))
      (nextPc x) w') w := by
  show wp _ (fun x w' => Sized img (if Touched w ∧ (checkFirmwareImage X .fw_file_name w).1 =
    .err .firmware_already_in_system then w.candidate else cur) (nextPc x) w') w
  have hexits := fun (e : Error) (he : (checkFirmwareImage X .fw_file_name w).1 = .err e) =>
    (wp_of_run (checkFirmwareImage_spec X .fw_file_name w) (Prod.ext he rfl)).2
  split
  · rename_i h
    obtain ⟨ht, hexit⟩ := h
    obtain h | h | ⟨h, -⟩ | ⟨-, hin⟩ := hexits _ hexit
    any_goals cases h
    have hrec := hs.known rfl ht hin
    exact check_sized ⟨fun ht' => absurd ht ht', by simp [Pc.updating], fun _ => hrec⟩ fun _ _ _ => hrec
  · rename_i h
    refine check_sized hi ?_
    rintro e hexit (rfl | rfl)
    · refine hi.sized (.inl fun ht => ?_)
      obtain h' | h' | ⟨-, href⟩ | ⟨h', -⟩ := hexits _ hexit
      any_goals cases h'
      exact hg.not_refused rfl ht href
    · exact hi.sized (.inl fun ht => h ⟨ht, hexit⟩)

omit [DecidableEq Digest] in
/-- In the middle of an attempt on a region that has been worked on, the counter may be anything. -/
theorem sized_unfinished {pc : Pc} (ht : Touched w) (hr : Requested w) (hp : ¬ Placed pc) :
    Sized img cur pc w :=
  ⟨fun h => absurd ht h, fun _ => ht, fun h => by
    obtain h | h | h := h
    · exact absurd ht h
    · exact absurd hr h
    · exact absurd h hp⟩

/-- `verify_flash` records the length of the candidate. -/
theorem verify_flash_sized (hX : Tells X .fw_file_name w app_len)
    (hi : Sized img cur (.update ⟨.verify_flash, app_len, backup_len⟩) w) (hreq : Requested w)
    (hs : SizeKept X ⟨.update ⟨.verify_flash, app_len, backup_len⟩, w, img, cur⟩) :
    wp (taskStep X fuel (.update ⟨.verify_flash, app_len, backup_len⟩)) (fun x w' => Sized img
      (Sys.placed X ⟨.update ⟨.verify_flash, app_len, backup_len⟩, w, img, cur⟩ (nextPc x))
      (nextPc x) w') w := by
  have ht : Touched w := hi.worked (.inr rfl)
  have hmid {pc : Pc} {w' : Device} (hP : Recording app_len w w') (hp : ¬ Placed pc) :
      Sized img cur pc w' :=
    sized_unfinished (hP.attempting.touched ht) (hP.attempting.requested.mpr hreq) hp
  refine wp_update_step (I := fun pc w' => Sized img
    (Sys.placed X ⟨.update ⟨.verify_flash, app_len, backup_len⟩, w, img, cur⟩ pc) pc w')
    (verify_flash_round X fuel app_len backup_len w) ?_ ?_ ?_ ?_ ?_
  · rintro st' w' hP (⟨⟨⟩, ⟨-, c, hc, heq⟩, hrec⟩ | ⟨⟨⟩, -⟩)
    · have hlen : app_len = c.length := by rw [hX c hc heq, bytes_length]
      have hcand : w.candidate = c := by rw [Device.candidate, hc]; rfl
      refine ⟨fun h => absurd (hP.attempting.touched ht) h, by simp [Pc.updating], fun _ => ?_⟩
      show Records w' w.candidate.length
      rw [hcand]
      obtain ⟨t, rfl⟩ | ⟨c', t, hc', rfl, rfl, hfail⟩ := hrec
      · exact .inr (by rw [← hlen]; exact setNvm_self w .firmware_size (.counter app_len))
      · rw [hc] at hc'
        cases hc'
        exact (hs.written rfl c hc hfail).unsized rfl
    · exact hmid hP (by simp [Placed])
  · rintro o w' hP (⟨⟨⟩, -⟩ | ⟨⟨⟩, -⟩)
  · exact fun e w' _ he h => absurd h (external_continues he)
  · exact fun e w' hP _ => hmid hP (by simp [Placed, update_state.start])
  · exact fun w' hP => hmid hP id

/-- `verify_backup` of an update. -/
theorem verify_backup_sized
    (hi : Sized img cur (.update ⟨.verify_backup, app_len, backup_len⟩) w)
    (hs : SizeKept X ⟨.update ⟨.verify_backup, app_len, backup_len⟩, w, img, cur⟩) :
    wp (taskStep X fuel (.update ⟨.verify_backup, app_len, backup_len⟩)) (fun x w' => Sized img
      (Sys.placed X ⟨.update ⟨.verify_backup, app_len, backup_len⟩, w, img, cur⟩ (nextPc x))
      (nextPc x) w') w := by
  refine wp_update_step (I := fun pc w' => Sized img
    (Sys.placed X ⟨.update ⟨.verify_backup, app_len, backup_len⟩, w, img, cur⟩ pc) pc w')
    (verify_backup_round X fuel app_len backup_len w) ?_ ?_ ?_ ?_ ?_
  · rintro st' w' hP (⟨⟨⟩, -⟩ | ⟨⟨⟩, -⟩)
    · exact ⟨fun _ => rfl, by simp [Pc.updating],
        fun _ => (hs.restored (.inl rfl)).unsized hP.unsized.size⟩
    · exact hi.unsized hP.unsized (by simp [Pc.updating]) (by simp [Placed])
  · rintro o w' hP (⟨⟨⟩, -⟩ | ⟨⟨⟩, -⟩)
  · exact fun e w' _ he h => absurd h (external_continues he)
  · exact fun e w' hP _ => hi.unsized hP.unsized (by simp [Pc.updating])
      (by simp [Placed, update_state.start])
  · exact fun w' hP => hi.outside hP.unsized (.inl rfl)

theorem update_sized {st : update_state} (hX : CollisionFree X ⟨.update st, w, img, cur⟩)
    (hreq : Requested w) (hi : Sized img cur (.update st) w) (hg : Guarded X ⟨.update st, w, img, cur⟩)
    (hs : SizeKept X ⟨.update st, w, img, cur⟩) :
    wp (taskStep X fuel (.update st)) (fun x w' => Sized img
      (Sys.placed X ⟨.update st, w, img, cur⟩ (nextPc x)) (nextPc x) w') w := by
  obtain ⟨phase, app_len, backup_len⟩ := st
  cases phase with
  | check => exact check_ends_sized hi hg hs
  | backup =>
    refine phase_sized hi (backup_round X fuel app_len backup_len w) (fun _ h => h.unsized) ?_ ?_
    · rintro _ w' ⟨n, rfl, -⟩
      exact ⟨_, rfl, by simp⟩
    · rintro _ _ (he | rfl)
      · exact external_continues he
      · simp
  | erase_flash =>
    refine phase_sized hi (erase_round X fuel (.inl ⟨rfl, rfl⟩) app_len backup_len w)
      (fun _ h => h.unsized) ?_ (by rintro _ _ rfl; simp)
    rintro _ w' ⟨rfl, hpage, -⟩
    exact ⟨_, rfl, by simp, fun _ => .inr hpage.touched⟩
  | flash =>
    refine phase_sized hi (flash_round X fuel app_len backup_len w) (fun _ h => h.1.unsized) ?_
      fun _ _ he => external_continues he
    rintro _ w' (⟨n, rfl, -⟩ | rfl | ⟨rfl, -⟩)
    · exact ⟨_, rfl, by simp⟩
    · exact ⟨_, rfl, by simp⟩
    · exact ⟨_, rfl, by simp⟩
  | verify_flash => exact verify_flash_sized (hX _ rfl) hi hreq hs
  | erase_flash_before_restore =>
    refine phase_sized hi (erase_round X fuel (.inr ⟨rfl, rfl⟩) app_len backup_len w)
      (fun _ h => h.unsized) ?_ (by rintro _ _ rfl; simp)
    rintro _ w' ⟨rfl, -⟩
    exact ⟨_, rfl, by simp⟩
  | restore_backup =>
    refine phase_sized hi (restore_round X fuel app_len backup_len w) (fun _ h => h.1.unsized) ?_ ?_
    · rintro _ w' (⟨n, rfl, -⟩ | ⟨rfl, -⟩)
      · exact ⟨_, rfl, by simp⟩
      · exact ⟨_, rfl, by simp⟩
    · rintro _ _ (he | rfl)
      · exact external_continues he
      · simp
  | verify_backup => exact verify_backup_sized hi hs
  | complete => exact (hi.finished (hi.sized (.inr (.inr (.inl rfl))))).wp_finishAttempt
  | backup_restored => exact (hi.finished (hi.sized (.inr (.inr (.inr rfl))))).wp_finishAttempt

theorem restore_sized {st : update_state} (hpc : InRestore (.restore st))
    (hi : Sized img cur (.restore st) w) (hs : SizeKept X ⟨.restore st, w, img, cur⟩) :
    wp (taskStep X fuel (.restore st)) (fun x w' => Sized img
      (Sys.placed X ⟨.restore st, w, img, cur⟩ (nextPc x)) (nextPc x) w') w := by
  obtain ⟨phase, app_len, backup_len⟩ := st
  have hmid {w' : Device} {pc : Pc} (hu : Unsized w w')
      (hpc : pc.updating = none) (hp : ¬ Placed pc) : Sized img cur pc w' :=
    hi.unsized hu (by simp [hpc]) fun h => absurd h hp
  have hafter {w' w'' : Device} (hu : Unsized w w') (hq : Quiet w' w'') :
      Sized img cur .start w'' ∧ Sized img cur .head w'' :=
    ⟨(hi.outside hu (.inl rfl)).outside hq.unsized (.inl rfl),
      (hi.outside hu (.inl rfl)).outside hq.unsized (.inr rfl)⟩
  cases phase with
  | erase_flash_before_restore =>
    refine wp_restore_step (I := fun pc w' => Sized img cur pc w')
      (erase_round X fuel (.inr ⟨rfl, rfl⟩) app_len backup_len w) ?_ ?_ ?_ ?_
    · rintro st' w' hP ⟨⟨⟩, -⟩
      exact hmid hP.unsized rfl (by simp [Placed])
    · rintro o w' hP ⟨⟨⟩, -⟩
    · exact fun e w' w'' hP _ hq => hafter hP.unsized hq
    · exact fun w' hP => hmid hP.unsized rfl id
  | restore_backup =>
    refine wp_restore_step (I := fun pc w' => Sized img cur pc w')
      (restore_round X fuel app_len backup_len w) ?_ ?_ ?_ ?_
    · rintro st' w' ⟨hP, -⟩ (⟨_, ⟨⟩, -⟩ | ⟨⟨⟩, -⟩)
      · exact hmid hP.unsized rfl (by simp [Placed])
      · exact hmid hP.unsized rfl (by simp [Placed])
    · rintro o w' hP (⟨n, ⟨⟩, -⟩ | ⟨⟨⟩, -⟩)
    · exact fun e w' w'' hP _ hq => hafter hP.1.unsized hq
    · exact fun w' hP => hmid hP.1.unsized rfl id
  | verify_backup =>
    refine wp_restore_step (I := fun pc w' => Sized img
      (Sys.placed X ⟨.restore ⟨.verify_backup, app_len, backup_len⟩, w, img, cur⟩ pc) pc w')
      (verify_backup_round X fuel app_len backup_len w) ?_ ?_ ?_ ?_
    · rintro st' w' hP (⟨⟨⟩, -⟩ | ⟨⟨⟩, -⟩)
      · exact ⟨fun _ => rfl, by simp [Pc.updating],
          fun _ => (hs.restored (.inr rfl)).unsized hP.unsized.size⟩
      · exact hmid hP.unsized rfl (by simp [Placed])
    · rintro o w' hP (⟨⟨⟩, -⟩ | ⟨⟨⟩, -⟩)
    · exact fun e w' w'' hP _ hq => hafter hP.unsized hq
    · exact fun w' hP => hmid hP.unsized rfl id
  | backup_restored => exact (hi.finished (hi.sized (.inr (.inr rfl)))).wp_finishAttempt
  | _ => exact absurd hpc (by simp [InRestore])

theorem taskStep_sized {s : Sys} (hX : CollisionFree X s)
    (hp : Preserved s.installed s.pc s.dev) (hk : Kept s.installed s.current s.pc s.dev)
    (hi : Sized s.installed s.current s.pc s.dev) (hpc : s.pc ≠ .jump) (hg : Guarded X s)
    (hs : SizeKept X s) :
    wp (taskStep X fuel s.pc)
      (fun x w' => Sized s.installed (s.placed X (nextPc x)) (nextPc x) w') s.dev := by
  obtain ⟨pc, w, img, cur⟩ := s
  cases pc with
  | start =>
    refine wp_mono (start_step X fuel hp.nvm) ?_
    intro x w' hx
    cases x with
    | ok pc =>
      obtain ⟨hc, rfl⟩ := hx
      exact hi.outside hc.unsized (.inr rfl)
    | err e => exact hx.2.elim
    | trap => exact hx.2.elim
    | halt => exact hi.outside hx.unsized (.inl rfl)
  | head =>
    refine wp_mono (head_step X fuel w) ?_
    intro x w' hx
    cases x with
    | ok pc =>
      obtain ⟨hq, ⟨rfl, -⟩ | ⟨rfl, hout⟩⟩ := hx
      · exact hi.unsized hq.unsized (by simp [Pc.updating, update_state.start])
          (by simp [Placed, update_state.start])
      · exact hi.unsized hq.unsized (by simp [Pc.updating])
          (fun _ => hi.sized ((hg.left hout).imp_right .inl))
    | err e => exact hx.2.elim
    | trap => exact hx.2.elim
    | halt => exact hi.outside hx.unsized (.inl rfl)
  | update st => exact update_sized hX hk.attempt.1 hi hg hs
  | restore st => exact restore_sized hp.restore hi hs
  | jump => exact absurd rfl hpc

end Steps

/-! ## Histories -/

variable {X}

theorem step_sized {s s' : Sys}
    (hp : Preserved s.installed s.pc s.dev) (hk : Kept s.installed s.current s.pc s.dev)
    (hi : Sized s.installed s.current s.pc s.dev)
    (h : Step X (fun s => (Guarded X s ∧ SizeKept X s) ∧ CollisionFree X s) s s') :
    Sized s'.installed s'.current s'.pc s'.dev := by
  obtain ⟨fuel, hpc, ⟨hg, hs⟩, hX⟩ | ⟨config, pub_key⟩ | ⟨hpc, hcur, hflash, hsize, hnvm, hlog⟩ := h
  · exact next_of_wp (Q := fun s => Sized s.installed s.current s.pc s.dev)
      (taskStep_sized hX hp hk hi hpc hg hs)
  · exact hi.outside ⟨⟨List.Subset.refl _, rfl, rfl⟩, rfl⟩ (.inl rfl)
  · refine ⟨fun _ => rfl, by simp [Pc.updating], fun _ => ?_⟩
    exact (hi.sized (.inr (.inr (by rw [hpc]; trivial)))).unsized hsize

/-- The invariant makes the next backup complete. -/
theorem Sized.covers {s : Sys} (h : Sized s.installed s.current s.pc s.dev) (ht : ¬ Touched s.dev) :
    SizeCovers s.dev s.installed.length := by
  intro n hn
  have hrec := h.sized (.inl ht)
  rw [h.fresh ht] at hrec
  obtain h' | h' := hrec
  · left
    rw [Stored, hn] at h'
    cases h'
    rfl
  · right
    rw [Stored, hn] at h'
    cases h'
    exact Nat.le_refl _

/-- **The recorded size describes the image in the region**, in a history of steps that keep it. -/
theorem size_recorded {s₀ s : Sys} (h₀ : Initial s₀) (hr : Records s₀.dev s₀.installed.length)
    (h : History X (fun s => (Guarded X s ∧ SizeKept X s) ∧ CollisionFree X s) s₀ s) (hpc : s.pc = .jump) :
    Holds s.current s.dev ∧ Records s.dev s.current.length := by
  have hi : Preserved s.installed s.pc s.dev ∧ Kept s.installed s.current s.pc s.dev ∧
      Sized s.installed s.current s.pc s.dev := by
    refine h.invariant (I := fun s => Preserved s.installed s.pc s.dev ∧
      Kept s.installed s.current s.pc s.dev ∧ Sized s.installed s.current s.pc s.dev)
      ⟨h₀.preserved, h₀.kept, ?_⟩ ?_
    · rw [h₀.pc, h₀.current]
      exact ⟨fun _ => rfl, by simp [Pc.updating], fun _ => hr⟩
    · rintro s _ ⟨hp, hk, hs⟩ hstep
      have hC : (Guarded X s ∧ SizeKept X s) ∧ CollisionFree X s → FirstBackup s ∧ SizedBackup s ∧ OwnBackup s :=
        fun hC => ⟨hC.1.1.first_backup, fun hb => hs.covers (hC.1.1.first_backup hb),
          hC.1.1.own_backup⟩
      exact ⟨step_preserved hp hC hstep, step_kept And.right (fun hC => hC.1.1) hp hk hstep,
        step_sized hp hk hs hstep⟩
  have hplaced : Placed s.pc := by rw [hpc]; trivial
  exact ⟨hi.2.1.kept (.inr (.inr hplaced)), hi.2.2.sized (.inr (.inr hplaced))⟩

instance (s : Sys) : Decidable (SizeKept X s) :=
  decidable_of_iff (
    (s.pc.updating = some .verify_flash → ∀ c ∈ s.dev.sd .fw_file_name,
      (s.dev.faults (s.dev.tick + (compareCalls c.length).length)).fails = true →
      Records s.dev c.length) ∧
    (s.pc.updating = some .verify_backup ∨ s.pc.restoring = some .verify_backup →
      Records s.dev s.installed.length) ∧
    (s.pc.updating = some .check → Touched s.dev → InRegion X .fw_file_name s.dev →
      Records s.dev s.dev.candidate.length))
    ⟨fun h => ⟨h.1, h.2.1, h.2.2⟩, fun h => ⟨h.1, h.2, h.3⟩⟩

/-- An update to a longer image without failures. -/
theorem size_recorded_sample :
    Holds [0x42, 0x43] ((Sys.sample (fun _ => .none) [0x42, 0x43]).steps .short 4 9).dev ∧
      Records ((Sys.sample (fun _ => .none) [0x42, 0x43]).steps .short 4 9).dev 2 := by
  have h := size_recorded (X := .short)
    (Sys.sample_initial (fun _ => .none) [0x42, 0x43]) (by decide +kernel)
    (history_steps 4 9 _ (by decide +kernel)) (by decide +kernel)
  have hcur : ((Sys.sample (fun _ => .none) [0x42, 0x43]).steps .short 4 9).current = [0x42, 0x43] := by
    decide +kernel
  rw [hcur] at h
  exact h

/-- The write of the counter fails behind a verified update: the application is started under the
    length of the old image. -/
theorem failed_write_stale_size :
    ¬ ∀ s₀ s : Sys, Initial s₀ → Records s₀.dev s₀.installed.length →
      History .plain (fun _ => True) s₀ s → s.pc = .jump →
      Holds s.current s.dev ∧ Records s.dev s.current.length := by
  intro hall
  let faults : Nat → Fault := fun t => if t = 240 then .fail .fr_disk_err [] else .none
  have h := (hall _ ((Sys.sample faults [0x42, 0x43]).steps .plain 4 9)
    (Sys.sample_initial faults [0x42, 0x43]) (by decide +kernel)
    (history_steps 4 9 _ (by decide +kernel)) (by decide +kernel)).2
  revert h
  decide +kernel

end Miso.Boot
