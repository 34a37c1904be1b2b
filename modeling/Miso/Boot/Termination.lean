import Mathlib.Order.WellFounded
import Miso.Boot.App

/-!
# Termination of the update state machine

The machine over a script of outcomes (`Firmware.scripted`): the `k`-th call of a function of
`firmware.zig` or `nvm.zig` ends as the script says.  The phase graph has cycles that no counter
bounds, and `terminates_iff` says for every start phase which scripts run into them: the machine
does not terminate if and only if it reaches an erase from which on the script repeats retries
(`Retry`) for ever.
-/

namespace Miso.Boot

open Zig

/-! ## Scripted outcomes -/

/-- The outcome of the next call. -/
def scripted (ω : Nat → Except Error Nat) : Prog Nat Error Nat := fun k =>
  match ω k with
  | .ok v => (.ok v, k + 1)
  | .error e => (.err e, k + 1)

/-- The functions that the machine calls, with scripted outcomes; the state counts the calls. -/
def Firmware.scripted (ω : Nat → Except Error Nat) : Firmware Nat where
  checkFirmwareImage _ := do let _ ← Boot.scripted ω
  backupFirmware _ _ := Boot.scripted ω
  verifyBackup _ _ := do let _ ← Boot.scripted ω
  eraseFlash _ := do let _ ← Boot.scripted ω
  flashFirmware _ _ := Boot.scripted ω
  getFirmwareSize := Boot.scripted ω
  setFirmwareSize _ := do let _ ← Boot.scripted ω

variable (ω : Nat → Except Error Nat)

/-- The machine leaves its loop after finitely many rounds. -/
def Terminates (start_phase : Option update_phase) : Prop :=
  ∃ n, (firmwareUpdateStateMachine (.scripted ω) n start_phase 0).1 ≠ .halt

/-- The `k`-th call succeeds. -/
def Succeeds (k : Nat) : Prop := ∃ v, ω k = .ok v

/-- A retry from call `k` to call `k'`: an erase, followed by a write error or by a write and a
    mismatch. -/
def Retry (k k' : Nat) : Prop :=
  Succeeds ω k ∧
    (ω (k + 1) = .error .flash_write_error ∧ k' = k + 2 ∨
      Succeeds ω (k + 1) ∧ ω (k + 2) = .error .hash_compare_mismatch ∧ k' = k + 3)

/-- From call `k` on, retries for ever. -/
def Retries (k : Nat) : Prop := ∃ p : Nat → Nat, p 0 = k ∧ ∀ i, Retry ω (p i) (p (i + 1))

/-- A restore from call `k` on that fails into endless retries. -/
def RestoreRetries (k : Nat) : Prop :=
  ω k = .error .flash_write_error ∧ Retries ω (k + 1) ∨
    Succeeds ω k ∧ ω (k + 1) = .error .hash_compare_mismatch ∧ Retries ω (k + 2)

/-- Retries of the update from call `k` on, for ever or until the candidate is found too large
    and the restore retries for ever. -/
def UpdateRetries (k : Nat) : Prop :=
  Retries ω k ∨ ∃ j, Relation.ReflTransGen (Retry ω) k j ∧
    Succeeds ω j ∧ ω (j + 1) = .error .flash_firmware_size_error ∧ RestoreRetries ω (j + 2)

/-- The scripts on which the machine, in the given phase before call `k`, does not terminate. -/
def Loops : update_phase → Nat → Prop
  | .check, k => Succeeds ω k ∧ Succeeds ω (k + 2) ∧ Succeeds ω (k + 3) ∧ UpdateRetries ω (k + 4)
  | .backup, k => Succeeds ω (k + 1) ∧ Succeeds ω (k + 2) ∧ UpdateRetries ω (k + 3)
  | .erase_flash, k => UpdateRetries ω k
  | .flash, k =>
    ω k = .error .flash_write_error ∧ UpdateRetries ω (k + 1) ∨
      ω k = .error .flash_firmware_size_error ∧ RestoreRetries ω (k + 1) ∨
      Succeeds ω k ∧ ω (k + 1) = .error .hash_compare_mismatch ∧ UpdateRetries ω (k + 2)
  | .verify_flash, k => ω k = .error .hash_compare_mismatch ∧ UpdateRetries ω (k + 1)
  | .erase_flash_before_restore, k => Retries ω k
  | .restore_backup, k => RestoreRetries ω k
  | .verify_backup, k => ω k = .error .hash_compare_mismatch ∧ Retries ω (k + 1)
  | .complete, _ => False
  | .backup_restored, _ => False

/-! ## One round -/

section Rounds

variable (a b k : Nat)

theorem scripted_check : phaseStep (.scripted ω) ⟨.check, a, b⟩ k =
    match ω k with
    | .ok _ => (.ok (.inl ⟨.backup, a, b⟩), k + 1)
    | .error e => (.err e, k + 1) := by
  cases h : ω k <;>
    simp [phaseStep, checkFirmwareCandidate, Firmware.scripted, scripted, bind, Prog.seq, pure,
      Prog.ret, h]

theorem scripted_backup : phaseStep (.scripted ω) ⟨.backup, a, b⟩ k =
    match ω (k + 1), ω (k + 2) with
    | .ok n, .ok _ => (.ok (.inl ⟨.erase_flash, a, n⟩), k + 3)
    | .ok _, .error e => (.err e, k + 3)
    | .error e, _ => (.err e, k + 2) := by
  cases h₀ : ω k <;> cases h₁ : ω (k + 1) <;> cases h₂ : ω (k + 2) <;>
    simp [phaseStep, performFirmwareBackup, Firmware.scripted, scripted, bind, Prog.seq, pure,
      Prog.ret, Prog.tryCatch, h₀, h₁, h₂]

theorem scripted_erase_flash : phaseStep (.scripted ω) ⟨.erase_flash, a, b⟩ k =
    match ω k with
    | .ok _ => (.ok (.inl ⟨.flash, a, b⟩), k + 1)
    | .error e => (.err e, k + 1) := by
  cases h : ω k <;>
    simp [phaseStep, erasePhase, Firmware.scripted, scripted, bind, Prog.seq, pure, Prog.ret, h]

theorem scripted_flash : phaseStep (.scripted ω) ⟨.flash, a, b⟩ k =
    match ω k with
    | .ok n => (.ok (.inl ⟨.verify_flash, n, b⟩), k + 1)
    | .error .flash_firmware_size_error => (.ok (.inl ⟨.restore_backup, 0, b⟩), k + 1)
    | .error .flash_write_error => (.ok (.inl ⟨.erase_flash, 0, b⟩), k + 1)
    | .error e => (.err e, k + 1) := by
  rcases h : ω k with e | n
  · cases e <;>
      simp [phaseStep, flashImage, Firmware.scripted, scripted, bind, Prog.seq, pure, Prog.ret,
        Prog.attempt, Prog.throw, h]
  · simp [phaseStep, flashImage, Firmware.scripted, scripted, bind, Prog.seq, pure, Prog.ret,
      Prog.attempt, h]

theorem scripted_verify_flash : phaseStep (.scripted ω) ⟨.verify_flash, a, b⟩ k =
    match ω k with
    | .ok _ => (.ok (.inl ⟨.complete, a, b⟩), k + 2)
    | .error .hash_compare_mismatch => (.ok (.inl ⟨.erase_flash, a, b⟩), k + 1)
    | .error e => (.err e, k + 1) := by
  rcases h : ω k with e | n
  · cases e <;>
      simp [phaseStep, verifyImage, Firmware.scripted, scripted, bind, Prog.seq, pure, Prog.ret,
        Prog.attempt, Prog.throw, h]
  · cases h₁ : ω (k + 1) <;>
      simp [phaseStep, verifyImage, Firmware.scripted, scripted, bind, Prog.seq, pure, Prog.ret,
        Prog.attempt, Prog.orIgnore, Prog.tryCatch, h, h₁]

theorem scripted_erase_flash_before_restore :
    phaseStep (.scripted ω) ⟨.erase_flash_before_restore, a, b⟩ k =
      match ω k with
      | .ok _ => (.ok (.inl ⟨.restore_backup, a, b⟩), k + 1)
      | .error e => (.err e, k + 1) := by
  cases h : ω k <;>
    simp [phaseStep, eraseFlashBeforeRestore, Firmware.scripted, scripted, bind, Prog.seq, pure,
      Prog.ret, h]

theorem scripted_restore_backup : phaseStep (.scripted ω) ⟨.restore_backup, a, b⟩ k =
    match ω k with
    | .ok n => (.ok (.inl ⟨.verify_backup, n, b⟩), k + 1)
    | .error .flash_write_error => (.ok (.inl ⟨.erase_flash_before_restore, 0, b⟩), k + 1)
    | .error e => (.err e, k + 1) := by
  rcases h : ω k with e | n
  · cases e <;>
      simp [phaseStep, restoreBackup, Firmware.scripted, scripted, bind, Prog.seq, pure, Prog.ret,
        Prog.attempt, Prog.throw, h]
  · simp [phaseStep, restoreBackup, Firmware.scripted, scripted, bind, Prog.seq, pure, Prog.ret,
      Prog.attempt, h]

theorem scripted_verify_backup : phaseStep (.scripted ω) ⟨.verify_backup, a, b⟩ k =
    match ω k with
    | .ok _ => (.ok (.inl ⟨.backup_restored, a, b⟩), k + 1)
    | .error .hash_compare_mismatch =>
      (.ok (.inl ⟨.erase_flash_before_restore, a, b⟩), k + 1)
    | .error e => (.err e, k + 1) := by
  rcases h : ω k with e | n
  · cases e <;>
      simp [phaseStep, verifyBackupPhase, Firmware.scripted, scripted, bind, Prog.seq, pure,
        Prog.ret, Prog.attempt, Prog.throw, h]
  · simp [phaseStep, verifyBackupPhase, Firmware.scripted, scripted, bind, Prog.seq, pure, Prog.ret,
      Prog.attempt, h]

end Rounds

/-! ## Endless runs -/

/-- The machine never leaves its loop. -/
def Diverges (st : update_state) (k : Nat) : Prop :=
  ∀ n, (Prog.loop (phaseStep (.scripted ω)) n st k).1 = .halt

variable {ω}

/-- An endless run goes on after its first round. -/
theorem Diverges.round {st : update_state} {k : Nat} (h : Diverges ω st k) :
    match phaseStep (.scripted ω) st k with
    | (.ok (.inl st'), k') => Diverges ω st' k'
    | (.halt, _) => True
    | _ => False := by
  rcases hr : phaseStep (.scripted ω) st k with ⟨x, k'⟩
  have hone := h 1
  cases x with
  | halt => trivial
  | trap =>
    rw [Prog.loop_trap 0 hr] at hone
    cases hone
  | err e =>
    rw [Prog.loop_err 0 hr] at hone
    cases hone
  | ok r =>
    cases r with
    | inl st' =>
      intro n
      have := h (n + 1)
      rw [Prog.loop_inl n hr] at this
      exact this
    | inr o =>
      rw [Prog.loop_inr 0 hr] at hone
      cases hone

/-- A set of states that no round leaves is endless. -/
theorem diverges_of_closed (S : update_state → Nat → Prop)
    (hS : ∀ st k, S st k → ∃ st' k', phaseStep (.scripted ω) st k = (.ok (.inl st'), k') ∧
      S st' k') : ∀ (n : Nat) (st : update_state) (k : Nat), S st k →
      (Prog.loop (phaseStep (.scripted ω)) n st k).1 = .halt
  | 0, _, _, _ => rfl
  | n + 1, st, k, h => by
    obtain ⟨st', k', hr, h'⟩ := hS st k h
    rw [Prog.loop_inl n hr]
    exact diverges_of_closed S hS n st' k' h'

/-! ## Which scripts are endless -/

theorem Retries.unfold {k : Nat} (h : Retries ω k) : ∃ k', Retry ω k k' ∧ Retries ω k' := by
  obtain ⟨p, rfl, hp⟩ := h
  exact ⟨p 1, hp 0, fun i => p (i + 1), rfl, fun i => hp (i + 1)⟩

/-- Retries that never stop being possible go on for ever. -/
theorem retries_of_closed {S : Nat → Prop} (hS : ∀ k, S k → ∃ k', Retry ω k k' ∧ S k') {k : Nat}
    (hk : S k) : Retries ω k := by
  unfold Retries
  refine (not_acc_iff_exists_descending_chain (r := fun k' k => Retry ω k k')).mp fun hacc => ?_
  induction hacc with
  | intro k _ ih =>
    obtain ⟨k', hr, hk'⟩ := hS k hk
    exact ih k' hr hk'

theorem UpdateRetries.unfold {k : Nat} (h : UpdateRetries ω k) :
    Succeeds ω k ∧ Loops ω .flash (k + 1) := by
  obtain h | ⟨j, hchain, hok, hsize, hrest⟩ := h
  · obtain ⟨k', ⟨hok, h⟩, h'⟩ := h.unfold
    obtain ⟨hw, rfl⟩ | ⟨hf, hm, rfl⟩ := h
    · exact ⟨hok, .inl ⟨hw, .inl h'⟩⟩
    · exact ⟨hok, .inr (.inr ⟨hf, hm, .inl h'⟩)⟩
  · obtain rfl | ⟨k', ⟨hok', h⟩, h'⟩ := hchain.cases_head
    · exact ⟨hok, .inr (.inl ⟨hsize, hrest⟩)⟩
    · have hnext : UpdateRetries ω k' := .inr ⟨j, h', hok, hsize, hrest⟩
      obtain ⟨hw, rfl⟩ | ⟨hf, hm, rfl⟩ := h
      · exact ⟨hok', .inl ⟨hw, hnext⟩⟩
      · exact ⟨hok', .inr (.inr ⟨hf, hm, hnext⟩)⟩

/-- A script of the kind `Loops` keeps the machine in its loop. -/
theorem Loops.round {st : update_state} {k : Nat} (h : Loops ω st.phase k) :
    ∃ st' k', phaseStep (.scripted ω) st k = (.ok (.inl st'), k') ∧ Loops ω st'.phase k' := by
  obtain ⟨phase, a, b⟩ := st
  cases phase with
  | check =>
    obtain ⟨⟨v, h₀⟩, h₂, h₃, h₄⟩ := h
    exact ⟨⟨.backup, a, b⟩, k + 1, by rw [scripted_check, h₀], h₂, h₃, h₄⟩
  | backup =>
    obtain ⟨⟨v, h₁⟩, ⟨_, h₂⟩, h₃⟩ := h
    exact ⟨⟨.erase_flash, a, v⟩, k + 3, by rw [scripted_backup, h₁, h₂], h₃⟩
  | erase_flash =>
    obtain ⟨⟨v, h₀⟩, h⟩ := h.unfold
    exact ⟨⟨.flash, a, b⟩, k + 1, by rw [scripted_erase_flash, h₀], h⟩
  | flash =>
    obtain ⟨h₀, h⟩ | ⟨h₀, h⟩ | ⟨⟨v, h₀⟩, h⟩ := h
    · exact ⟨⟨.erase_flash, 0, b⟩, k + 1, by rw [scripted_flash, h₀], h⟩
    · exact ⟨⟨.restore_backup, 0, b⟩, k + 1, by rw [scripted_flash, h₀], h⟩
    · exact ⟨⟨.verify_flash, v, b⟩, k + 1, by rw [scripted_flash, h₀], h⟩
  | verify_flash =>
    obtain ⟨h₀, h⟩ := h
    exact ⟨⟨.erase_flash, a, b⟩, k + 1, by rw [scripted_verify_flash, h₀], h⟩
  | erase_flash_before_restore =>
    obtain ⟨k', ⟨⟨v, h₀⟩, h⟩, h'⟩ := h.unfold
    refine ⟨⟨.restore_backup, a, b⟩, k + 1, by rw [scripted_erase_flash_before_restore, h₀], ?_⟩
    obtain ⟨hw, rfl⟩ | ⟨hf, hm, rfl⟩ := h
    · exact .inl ⟨hw, h'⟩
    · exact .inr ⟨hf, hm, h'⟩
  | restore_backup =>
    obtain ⟨h₀, h⟩ | ⟨⟨v, h₀⟩, h⟩ := h
    · exact ⟨⟨.erase_flash_before_restore, 0, b⟩, k + 1, by rw [scripted_restore_backup, h₀], h⟩
    · exact ⟨⟨.verify_backup, v, b⟩, k + 1, by rw [scripted_restore_backup, h₀], h⟩
  | verify_backup =>
    obtain ⟨h₀, h⟩ := h
    exact ⟨⟨.erase_flash_before_restore, a, b⟩, k + 1, by rw [scripted_verify_backup, h₀], h⟩
  | complete => exact h.elim
  | backup_restored => exact h.elim

theorem loops_diverges (st : update_state) {k : Nat} (h : Loops ω st.phase k) :
    Diverges ω st k :=
  fun n => diverges_of_closed (fun st k => Loops ω st.phase k) (fun _ _ h => h.round) n st k h

section Converse

variable {a b k : Nat}

theorem not_diverges_complete : ¬ Diverges ω ⟨.complete, a, b⟩ k := fun h => h.round

theorem not_diverges_restored : ¬ Diverges ω ⟨.backup_restored, a, b⟩ k := fun h => h.round

theorem Diverges.verify_backup (h : Diverges ω ⟨.verify_backup, a, b⟩ k) :
    ω k = .error .hash_compare_mismatch ∧
      Diverges ω ⟨.erase_flash_before_restore, a, b⟩ (k + 1) := by
  have hr := h.round
  rw [scripted_verify_backup] at hr
  rcases h₀ : ω k with e | v
  · rw [h₀] at hr
    cases e <;> first | exact ⟨rfl, hr⟩ | exact hr.elim
  · rw [h₀] at hr
    exact absurd hr not_diverges_restored

theorem Diverges.restore_backup (h : Diverges ω ⟨.restore_backup, a, b⟩ k) :
    ω k = .error .flash_write_error ∧ Diverges ω ⟨.erase_flash_before_restore, 0, b⟩ (k + 1) ∨
      Succeeds ω k ∧ ω (k + 1) = .error .hash_compare_mismatch ∧
        ∃ a', Diverges ω ⟨.erase_flash_before_restore, a', b⟩ (k + 2) := by
  have hr := h.round
  rw [scripted_restore_backup] at hr
  rcases h₀ : ω k with e | v
  · rw [h₀] at hr
    cases e <;> first | exact .inl ⟨rfl, hr⟩ | exact hr.elim
  · rw [h₀] at hr
    have hv := Diverges.verify_backup hr
    exact .inr ⟨⟨v, h₀⟩, hv.1, v, hv.2⟩

theorem Diverges.retries (h : Diverges ω ⟨.erase_flash_before_restore, a, b⟩ k) :
    Retries ω k := by
  refine retries_of_closed (S := fun k => ∃ a, Diverges ω ⟨.erase_flash_before_restore, a, b⟩ k)
    ?_ ⟨a, h⟩
  rintro k ⟨a, h⟩
  have hr := h.round
  rw [scripted_erase_flash_before_restore] at hr
  rcases h₀ : ω k with e | v
  · rw [h₀] at hr
    exact hr.elim
  · rw [h₀] at hr
    obtain ⟨hw, h'⟩ | ⟨hf, hm, h'⟩ := Diverges.restore_backup hr
    · exact ⟨k + 2, ⟨⟨v, h₀⟩, .inl ⟨hw, rfl⟩⟩, 0, h'⟩
    · exact ⟨k + 3, ⟨⟨v, h₀⟩, .inr ⟨hf, hm, rfl⟩⟩, h'⟩

theorem Diverges.restoreRetries (h : Diverges ω ⟨.restore_backup, a, b⟩ k) :
    RestoreRetries ω k := by
  obtain ⟨hw, h'⟩ | ⟨hf, hm, a', h'⟩ := h.restore_backup
  · exact .inl ⟨hw, h'.retries⟩
  · exact .inr ⟨hf, hm, h'.retries⟩

theorem Diverges.verify_flash (h : Diverges ω ⟨.verify_flash, a, b⟩ k) :
    ω k = .error .hash_compare_mismatch ∧ Diverges ω ⟨.erase_flash, a, b⟩ (k + 1) := by
  have hr := h.round
  rw [scripted_verify_flash] at hr
  rcases h₀ : ω k with e | v
  · rw [h₀] at hr
    cases e <;> first | exact ⟨rfl, hr⟩ | exact hr.elim
  · rw [h₀] at hr
    exact absurd hr not_diverges_complete

theorem Diverges.flash (h : Diverges ω ⟨.flash, a, b⟩ k) :
    ω k = .error .flash_write_error ∧ Diverges ω ⟨.erase_flash, 0, b⟩ (k + 1) ∨
      ω k = .error .flash_firmware_size_error ∧ RestoreRetries ω (k + 1) ∨
      Succeeds ω k ∧ ω (k + 1) = .error .hash_compare_mismatch ∧
        ∃ a', Diverges ω ⟨.erase_flash, a', b⟩ (k + 2) := by
  have hr := h.round
  rw [scripted_flash] at hr
  rcases h₀ : ω k with e | v
  · rw [h₀] at hr
    cases e <;> first
      | exact .inl ⟨rfl, hr⟩
      | exact .inr (.inl ⟨rfl, Diverges.restoreRetries hr⟩)
      | exact hr.elim
  · rw [h₀] at hr
    have hv := Diverges.verify_flash hr
    exact .inr (.inr ⟨⟨v, h₀⟩, hv.1, v, hv.2⟩)

/-- One attempt at erasing and flashing: a retry, or the switch to the restore. -/
theorem Diverges.erase_flash (h : Diverges ω ⟨.erase_flash, a, b⟩ k) :
    (∃ k' a', Retry ω k k' ∧ Diverges ω ⟨.erase_flash, a', b⟩ k') ∨
      Succeeds ω k ∧ ω (k + 1) = .error .flash_firmware_size_error ∧ RestoreRetries ω (k + 2) := by
  have hr := h.round
  rw [scripted_erase_flash] at hr
  rcases h₀ : ω k with e | v
  · rw [h₀] at hr
    exact hr.elim
  · rw [h₀] at hr
    obtain ⟨hw, h'⟩ | ⟨hs, h'⟩ | ⟨hf, hm, a', h'⟩ := Diverges.flash hr
    · exact .inl ⟨k + 2, 0, ⟨⟨v, h₀⟩, .inl ⟨hw, rfl⟩⟩, h'⟩
    · exact .inr ⟨⟨v, h₀⟩, hs, h'⟩
    · exact .inl ⟨k + 3, a', ⟨⟨v, h₀⟩, .inr ⟨hf, hm, rfl⟩⟩, h'⟩

theorem Diverges.updateRetries (h : Diverges ω ⟨.erase_flash, a, b⟩ k) : UpdateRetries ω k := by
  by_cases hswitch : ∃ j, Relation.ReflTransGen (Retry ω) k j ∧ Succeeds ω j ∧
      ω (j + 1) = .error .flash_firmware_size_error ∧ RestoreRetries ω (j + 2)
  · exact .inr hswitch
  · -- no switch to the restore: every attempt is followed by a retry
    refine .inl (retries_of_closed (S := fun j => Relation.ReflTransGen (Retry ω) k j ∧
      ∃ a, Diverges ω ⟨.erase_flash, a, b⟩ j) ?_ ⟨.refl, a, h⟩)
    rintro j ⟨hchain, a, h⟩
    obtain ⟨j', a', hretry, h'⟩ | h' := h.erase_flash
    · exact ⟨j', hretry, hchain.tail hretry, a', h'⟩
    · exact absurd ⟨j, hchain, h'⟩ hswitch

theorem Diverges.backup (h : Diverges ω ⟨.backup, a, b⟩ k) :
    Succeeds ω (k + 1) ∧ Succeeds ω (k + 2) ∧ UpdateRetries ω (k + 3) := by
  have hr := h.round
  rw [scripted_backup] at hr
  rcases h₁ : ω (k + 1) with e | v
  · rw [h₁] at hr
    exact hr.elim
  · rcases h₂ : ω (k + 2) with e | v'
    · rw [h₁, h₂] at hr
      exact hr.elim
    · rw [h₁, h₂] at hr
      exact ⟨⟨v, h₁⟩, ⟨v', h₂⟩, Diverges.updateRetries hr⟩

end Converse

theorem Diverges.loops {st : update_state} {k : Nat} (h : Diverges ω st k) :
    Loops ω st.phase k := by
  obtain ⟨phase, a, b⟩ := st
  cases phase with
  | check =>
    have hr := h.round
    rw [scripted_check] at hr
    rcases h₀ : ω k with e | v
    · rw [h₀] at hr
      exact hr.elim
    · rw [h₀] at hr
      exact ⟨⟨v, h₀⟩, Diverges.backup hr⟩
  | backup => exact h.backup
  | erase_flash => exact h.updateRetries
  | flash =>
    obtain ⟨hw, h'⟩ | h' | ⟨hf, hm, a', h'⟩ := h.flash
    · exact .inl ⟨hw, h'.updateRetries⟩
    · exact .inr (.inl h')
    · exact .inr (.inr ⟨hf, hm, h'.updateRetries⟩)
  | verify_flash => exact ⟨h.verify_flash.1, h.verify_flash.2.updateRetries⟩
  | erase_flash_before_restore => exact h.retries
  | restore_backup => exact h.restoreRetries
  | verify_backup => exact ⟨h.verify_backup.1, h.verify_backup.2.retries⟩
  | complete => exact absurd h not_diverges_complete
  | backup_restored => exact absurd h not_diverges_restored

/-- **The machine terminates exactly on the scripts without endless retries.** -/
theorem terminates_iff (ω : Nat → Except Error Nat) (start_phase : Option update_phase) :
    Terminates ω start_phase ↔ ¬ Loops ω (start_phase.getD .check) 0 := by
  have hstart : (update_state.start (start_phase.getD .check)).phase = start_phase.getD .check := rfl
  constructor
  · rintro ⟨n, hn⟩ hloops
    exact hn (loops_diverges (.start (start_phase.getD .check)) hloops n)
  · intro hloops
    by_contra hnot
    refine hloops (hstart ▸ Diverges.loops fun n => ?_)
    exact not_not.mp fun hn => hnot ⟨n, hn⟩

/-- A flash that erases but never programs: after the check and the backup, every write fails. -/
def unprogrammable (k : Nat) : Except Error Nat :=
  if k < 4 ∨ k % 2 = 0 then .ok 0 else .error .flash_write_error

theorem unprogrammable_loops : Loops unprogrammable .check 0 := by
  refine ⟨⟨0, rfl⟩, ⟨0, rfl⟩, ⟨0, rfl⟩, .inl ⟨fun i => 4 + 2 * i, rfl, fun i => ?_⟩⟩
  have heven : (4 + 2 * i) % 2 = 0 := by omega
  have hodd : ¬ (4 + 2 * i + 1 < 4 ∨ (4 + 2 * i + 1) % 2 = 0) := by omega
  exact ⟨⟨0, if_pos (.inr heven)⟩, .inl ⟨if_neg hodd, rfl⟩⟩

/-- On that flash the machine started at `check` neither returns nor restores the backup. -/
theorem unprogrammable_not_terminates : ¬ Terminates unprogrammable (some .check) := by
  rintro ⟨n, hn⟩
  exact hn (loops_diverges (.start .check) unprogrammable_loops n)

end Miso.Boot
