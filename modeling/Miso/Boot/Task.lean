import Miso.Boot.Phases

/-!
# The steps of `taskFunction` around the machine

What one `taskStep` does where no phase of the machine is involved (`start_step`, `head_step`,
`finishAttempt_spec`), and the rules that carry a property over the steps that perform one
(`wp_update_step`, `wp_restore_step`).
-/

namespace Miso.Boot

open Zig

variable {Digest : Type} [DecidableEq Digest] (X : Externs Digest) (fuel : Nat)

/-- Where a step of `taskFunction` leads to; a step that does not end restarts the device. -/
def nextPc : Exit Error Pc → Pc
  | .ok pc => pc
  | _ => .start

@[simp] theorem nextPc_ok (pc : Pc) : nextPc (.ok pc) = pc := rfl

/-- An update is requested. -/
def Requested (w : Device) : Prop := ∃ v, w.nvm .update_request = some (.counter v) ∧ v ≠ 0

instance (w : Device) : Decidable (Requested w) :=
  match h : w.nvm .update_request with
  | some (.counter v) => decidable_of_iff (v ≠ 0)
      ⟨fun hv => ⟨v, h, hv⟩, by rintro ⟨v', h', hv⟩; rw [h] at h'; cases h'; exact hv⟩
  | some (.data _) => isFalse (by rintro ⟨v, h', -⟩; rw [h] at h'; cases h')
  | none => isFalse (by rintro ⟨v, h', -⟩; rw [h] at h'; cases h')

/-- The device with the request cleared. -/
def Device.cleared (w : Device) : Device := w.setNvm .update_request (.counter 0)

/-- `unmount() catch {}`. -/
theorem unmount_spec (w : Device) :
    wp unmount.orIgnore (Ends (Quiet w) (fun _ _ => True) (fun _ _ => False) False) w :=
  wp_orIgnore_ends (checked_spec FRESULT.check_external w) fun _ _ _ _ => trivial

theorem clearUpdateRequest_spec (w : Device) :
    wp clearUpdateRequest.orUnreachable (Ends (fun w' => Quiet w w' ∨ Quiet w.cleared w')
      (fun _ w' => Quiet w.cleared w') (fun _ _ => False) True) w :=
  wp_orUnreachable_ends (nvmWrite_spec .update_request (.counter 0) w)

/-- The end of an attempt: the request is cleared. -/
theorem finishAttempt_spec (w : Device) :
    wp finishAttempt (Ends (fun w' => Quiet w w' ∨ Quiet w.cleared w')
      (fun pc w' => pc = .head ∧ Quiet w.cleared w') (fun _ _ => False) True) w := by
  unfold finishAttempt
  refine wp_bind_ends (clearUpdateRequest_spec w) ?_
  intro _ w₁ _ hq₁
  refine wp_bind_ends (K := fun _ w' => Quiet w.cleared w') (wp_ends_mono (unmount_spec w₁)
    (fun _ h => .inr (quiet_frame.trans hq₁ h)) (fun _ _ h _ => quiet_frame.trans hq₁ h)
    (fun _ _ _ h => h.elim) False.elim) ?_
  exact fun _ w₂ hP hq₂ => ⟨hP, rfl, hq₂⟩

/-- `nvm.isUpdateRequested() catch false`. -/
theorem isUpdateRequested_spec (w : Device) :
    wp (isUpdateRequested.tryCatch fun _ => pure false) (Ends (Quiet w)
      (fun b w' => b = true ∧ Requested w ∧ w' = w.seek (w.tick + 1) ∨
        b = false ∧ (¬ Requested w ∨ (w.faults w.tick).fails = true))
      (fun _ _ => False) False) w := by
  have hq := quiet_seek w (w.tick + 1)
  unfold isUpdateRequested readCounter
  rw [wp_tryCatch, wp_bind, wp_bind]
  refine wp_of_eq (checked_run _ w) ?_
  cases hf : w.faults w.tick with
  | fail r part => exact ⟨hq, .inr ⟨rfl, .inr rfl⟩⟩
  | halt part => exact hq
  | none | short =>
    simp only [thenPost_ok, wp_bind, wp_get, Device.seek_nvm]
    split
    · rename_i v hv
      refine ⟨hq, ?_⟩
      by_cases h0 : v = 0
      · subst h0
        refine .inr ⟨rfl, .inl ?_⟩
        rintro ⟨v', hv', hne⟩
        rw [hv] at hv'
        cases hv'
        exact hne rfl
      · exact .inl ⟨by simpa using h0, ⟨v, hv, h0⟩, rfl⟩
    · rename_i hnot
      refine ⟨hq, .inr ⟨rfl, .inl ?_⟩⟩
      rintro ⟨v, hv, -⟩
      exact hnot v hv

/-- The loop condition and the mount: the loop is left only if no update is requested or one of
    the two calls has failed. -/
theorem head_step (w : Device) :
    wp (taskStep X fuel .head) (Ends (Quiet w)
      (fun pc _ => pc = .update (.start .check) ∧ Requested w ∨
        pc = .jump ∧ (¬ Requested w ∨ (w.faults w.tick).fails = true ∨
          (w.faults (w.tick + 1)).fails = true))
      (fun _ _ => False) False) w := by
  unfold taskStep
  refine wp_bind_ends (isUpdateRequested_spec w) ?_
  rintro _ w₁ hq₁ (⟨rfl, hreq, rfl⟩ | ⟨rfl, h⟩)
  · rw [if_pos rfl, wp_bind, wp_attempt]
    refine wp_of_eq (checked_run _ _) ?_
    have hq₂ := quiet_seek w (w.tick + 2)
    rw [Device.seek_tick, Device.seek_faults]
    cases hf : w.faults (w.tick + 1) with
    | fail r part => exact ⟨hq₂, .inr ⟨rfl, .inr (.inr rfl)⟩⟩
    | halt part => exact hq₂
    | none => exact ⟨hq₂, .inl ⟨rfl, hreq⟩⟩
    | short => exact ⟨hq₂, .inl ⟨rfl, hreq⟩⟩
  · rw [if_neg (by simp)]
    exact ⟨hq₁, .inr ⟨rfl, h.imp_right .inl⟩⟩

/-! ### Inside an attempt -/

/-- The property `I` holds wherever the end of an attempt in `w` leads: cut off, with the request
    cleared or not, or back at the head of the loop with the request cleared. -/
def Finished (I : Pc → Device → Prop) (w : Device) : Prop :=
  ∀ w', (Quiet w w' → I .start w') ∧ (Quiet w.cleared w' → I .start w' ∧ I .head w')

section Attempt

variable {X fuel} {I : Pc → Device → Prop} {P : Device → Prop}
  {K : update_state ⊕ firmware_update_outcome → Device → Prop} {E : Error → Device → Prop}
  {T : Prop} {st : update_state} {w : Device}

theorem Finished.wp_finishAttempt (h : Finished I w) :
    wp finishAttempt (fun x w' => I (nextPc x) w') w := by
  refine wp_mono (finishAttempt_spec w) ?_
  have hstart : ∀ w', Quiet w w' ∨ Quiet w.cleared w' → I .start w' := fun w' hw =>
    hw.elim (h w').1 fun hc => ((h w').2 hc).1
  intro x w' hx
  cases x with
  | ok pc =>
    obtain ⟨-, rfl, hc⟩ := hx
    exact ((h w').2 hc).2
  | err e => exact hx.2.elim
  | trap => exact hstart w' hx.1
  | halt => exact hstart w' hx

/-- A step of `firmwareUpdate()`, from the round it performs. -/
theorem wp_update_step (h : wp (phaseStep (.device X fuel) st) (Ends P K E T) w)
    (hnext : ∀ st' w', P w' → K (.inl st') w' → I (.update st') w')
    (hdone : ∀ o w', P w' → K (.inr o) w' → Finished I w')
    (hrefused : ∀ e w', P w' → E e w' →
      e = .firmware_candidate_not_valid ∨ e = .firmware_already_in_system → Finished I w')
    (hfail : ∀ e w', P w' → E e w' → I (.restore (.start .restore_backup)) w')
    (hcut : ∀ w', P w' → I .start w') :
    wp (taskStep X fuel (.update st)) (fun x w' => I (nextPc x) w') w := by
  unfold taskStep
  rw [wp_bind, wp_attempt]
  refine wp_mono h ?_
  intro x w' hx
  cases x with
  | ok r =>
    cases r with
    | inl st' => exact hnext st' w' hx.1 hx.2
    | inr o => exact (hdone o w' hx.1 hx.2).wp_finishAttempt
  | err e =>
    simp only [unionPost_err, thenPost_ok]
    by_cases h₁ : e = .firmware_candidate_not_valid
    · rw [if_pos h₁]
      exact (hrefused e w' hx.1 hx.2 (.inl h₁)).wp_finishAttempt
    · rw [if_neg h₁]
      by_cases h₂ : e = .firmware_already_in_system
      · rw [if_pos h₂]
        exact (hrefused e w' hx.1 hx.2 (.inr h₂)).wp_finishAttempt
      · rw [if_neg h₂]
        exact hfail e w' hx.1 hx.2
  | trap => exact hcut w' hx.1
  | halt => exact hcut w' hx

/-- A step of the fallback `firmwareRestore()`, from the round it performs. -/
theorem wp_restore_step (h : wp (phaseStep (.device X fuel) st) (Ends P K E T) w)
    (hnext : ∀ st' w', P w' → K (.inl st') w' → I (.restore st') w')
    (hdone : ∀ o w', P w' → K (.inr o) w' → Finished I w')
    (hfail : ∀ e w' w'', P w' → E e w' → Quiet w' w'' → I .start w'' ∧ I .head w'')
    (hcut : ∀ w', P w' → I .start w') :
    wp (taskStep X fuel (.restore st)) (fun x w' => I (nextPc x) w') w := by
  unfold taskStep
  rw [wp_bind, wp_attempt]
  refine wp_mono h ?_
  intro x w' hx
  cases x with
  | ok r =>
    cases r with
    | inl st' => exact hnext st' w' hx.1 hx.2
    | inr o => exact (hdone o w' hx.1 hx.2).wp_finishAttempt
  | err e =>
    simp only [unionPost_err, thenPost_ok, wp_bind]
    refine wp_mono (unmount_spec w') ?_
    intro y w'' hy
    cases y with
    | ok a => exact (hfail e w' w'' hx.1 hx.2 hy.1).2
    | err e => exact hy.2.elim
    | trap => exact hy.2.elim
    | halt => exact (hfail e w' w'' hx.1 hx.2 hy).1
  | trap => exact hcut w' hx.1
  | halt => exact hcut w' hx

end Attempt

/-! ### The start -/

/-- Only the settings have changed. -/
def Configuring (w w' : Device) : Prop := ∃ t g, w' = { w with tick := t, config := g }

theorem configuring_frame : Frame Configuring where
  refl w := ⟨w.tick, w.config, rfl⟩
  trans := by
    rintro w₁ _ _ ⟨t, g, rfl⟩ ⟨t', g', rfl⟩
    exact ⟨t', g', rfl⟩

theorem Quiet.configuring {w w' : Device} (h : Quiet w w') : Configuring w w' := by
  obtain ⟨t, rfl⟩ := h
  exact ⟨t, w.config, rfl⟩

theorem readCString_spec (key : app_nvm_keys) (w : Device) :
    wp (readCString key).orIgnore (Ends (Configuring w) (fun _ _ => True) (fun _ _ => False) False)
      w := by
  have hchecked : ∀ w₁, wp (checked fun _ => .generic_error) (Ends (Configuring w₁)
      (fun _ w' => Quiet w₁ w') (fun _ _ => True) False) w₁ := fun w₁ =>
    wp_ends_mono (checked_spec (fun _ => rfl) w₁) (fun _ h => h.configuring) (fun _ _ h _ => h)
      (fun _ _ _ _ => trivial) id
  have hread : wp (readCString key) (Ends (Configuring w) (fun _ _ => True) (fun _ _ => True)
      False) w := by
    unfold readCString
    refine wp_bind_ends (hchecked w) ?_
    rintro _ w₁ hc₁ -
    rw [wp_bind, wp_get, thenPost_ok]
    split
    · exact ⟨hc₁, trivial⟩
    · exact ⟨hc₁, trivial⟩
    · refine wp_bind_ends (wp_ends_mono (hchecked w₁) (fun _ h => configuring_frame.trans hc₁ h)
        (fun _ _ _ h => h) (fun _ _ _ h => h) id) ?_
      intro _ w₂ hc₂ _
      exact ⟨configuring_frame.trans hc₂ ⟨w₂.tick, _, rfl⟩, trivial⟩
  exact wp_orIgnore_ends hread fun _ _ _ _ => trivial

theorem load_config_spec (keys : List app_nvm_keys) (w₀ w : Device) (hw : Configuring w₀ w) :
    wp (keys.foldr (fun key rest => do (readCString key).orIgnore; rest) (pure ()))
      (Ends (Configuring w₀) (fun _ _ => True) (fun _ _ => False) False) w := by
  induction keys generalizing w with
  | nil => exact ⟨hw, trivial⟩
  | cons key keys ih =>
    refine wp_bind_ends (wp_ends_mono (readCString_spec key w)
      (fun _ h => configuring_frame.trans hw h) (fun _ _ _ h => h) (fun _ _ _ h => h) id) ?_
    exact fun _ w₁ hc₁ _ => ih w₁ hc₁

/-- With an initialised NVM, the start only loads the settings. -/
theorem start_step {w : Device} (h : 9 ≤ countObjects w.nvm) :
    wp (taskStep X fuel .start) (Ends (Configuring w) (fun pc _ => pc = .head)
      (fun _ _ => False) False) w := by
  have hinit : nvm_init.orIgnore w = (.ok (), w) := by
    unfold nvm_init Prog.orIgnore Prog.tryCatch
    rw [Prog.bind_ok _ (show (Prog.get : BootM Device) w = (.ok w, w) from rfl),
      if_neg (Nat.not_lt.mpr h)]
    rfl
  unfold taskStep load_config_from_nvm
  rw [wp_bind]
  refine wp_of_eq hinit ?_
  refine wp_bind_ends (wp_orIgnore_ends (load_config_spec configKeys w w (configuring_frame.refl w))
    fun _ _ _ h => h.elim) fun _ _ hc _ => ⟨hc, rfl⟩

end Miso.Boot
