import Miso.Boot.Firmware

/-!
# The update state machine and the boot task (`boot/app.zig`)

The phase functions and `firmwareUpdateStateMachine` are stated over the calls they make
(`Firmware`), in any state type; `Firmware.device` is the module `firmware.zig` on the device.
`taskFunction` is a `while` loop around the machine.  For the properties of whole histories it is
also given in small steps: `taskStep` performs one evaluation of the loop condition, one phase of
the machine or one dispatch of its result (`taskFunction_steps` relates the two).
-/

namespace Miso.Boot

open Zig

inductive firmware_update_outcome where
  | incomplete
  | success
  | backup_restore
  deriving DecidableEq, Repr

inductive update_phase where
  | check
  | backup
  | erase_flash
  | flash
  | verify_flash
  | erase_flash_before_restore
  | restore_backup
  | verify_backup
  | complete
  | backup_restored
  deriving DecidableEq, Repr

structure update_state where
  phase : update_phase
  app_len : Nat
  backup_len : Nat
  deriving DecidableEq, Repr

/-- The functions of `firmware.zig` and `nvm.zig` that the state machine calls. -/
structure Firmware (σ : Type) where
  checkFirmwareImage : Path → Prog σ Error Unit
  backupFirmware : Path → Option Nat → Prog σ Error Nat
  verifyBackup : Path → Option Nat → Prog σ Error Unit
  eraseFlash : Option Nat → Prog σ Error Unit
  flashFirmware : Path → Option Nat → Prog σ Error Nat
  getFirmwareSize : Prog σ Error Nat
  setFirmwareSize : Nat → Prog σ Error Unit

/-! ## Phases -/

section Phases

variable {σ : Type} (F : Firmware σ)

/-- `checkFirmwareCandidate`. -/
def checkFirmwareCandidate : Prog σ Error update_phase := do
  F.checkFirmwareImage .fw_file_name
  pure .backup

/-- `performFirmwareBackup`. -/
def performFirmwareBackup : Prog σ Error (update_phase × Nat) := do
  let fw_len ← F.getFirmwareSize.tryCatch fun _ => pure 0
  let backup_len ← F.backupFirmware .app_backup_file_name (if fw_len ≠ 0 then some fw_len else none)
  F.verifyBackup .app_backup_file_name (some backup_len)
  pure (.erase_flash, backup_len)

/-- `eraseFlash` of `app.zig`. -/
def erasePhase : Prog σ Error update_phase := do
  F.eraseFlash none
  pure .flash

/-- `eraseFlashBeforeRestore`. -/
def eraseFlashBeforeRestore : Prog σ Error update_phase := do
  F.eraseFlash none
  pure .restore_backup

/-- `restoreBackup`. -/
def restoreBackup : Prog σ Error (update_phase × Nat) := do
  match ← (F.flashFirmware .app_backup_file_name none).attempt with
  | .ok val => pure (.verify_backup, val)
  | .error err =>
    if err = .flash_write_error then pure (.erase_flash_before_restore, 0) else Prog.throw err

/-- `verifyImage`. -/
def verifyImage (app_len : Nat) : Prog σ Error update_phase := do
  match ← (F.verifyBackup .fw_file_name (some app_len)).attempt with
  | .ok () =>
    (F.setFirmwareSize app_len).orIgnore
    pure .complete
  | .error err =>
    if err = .hash_compare_mismatch then pure .erase_flash else Prog.throw err

/-- `verifyBackup` of `app.zig`. -/
def verifyBackupPhase (app_len : Nat) : Prog σ Error update_phase := do
  match ← (F.verifyBackup .app_backup_file_name (some app_len)).attempt with
  | .ok () => pure .backup_restored
  | .error err =>
    if err = .hash_compare_mismatch then pure .erase_flash_before_restore else Prog.throw err

/-- `flashImage`. -/
def flashImage : Prog σ Error (update_phase × Nat) := do
  match ← (F.flashFirmware .fw_file_name none).attempt with
  | .ok val => pure (.verify_flash, val)
  | .error err =>
    if err = .flash_firmware_size_error then pure (.restore_backup, 0)
    else if err = .flash_write_error then pure (.erase_flash, 0)
    else Prog.throw err

/-- One round of the `while (true)` loop of `firmwareUpdateStateMachine`. -/
def phaseStep (st : update_state) : Prog σ Error (update_state ⊕ firmware_update_outcome) :=
  match st.phase with
  | .check => do
    let phase ← checkFirmwareCandidate F
    pure (.inl { st with phase := phase })
  | .backup => do
    let (phase, backup_len) ← performFirmwareBackup F
    pure (.inl { st with phase := phase, backup_len := backup_len })
  | .erase_flash => do
    let phase ← erasePhase F
    pure (.inl { st with phase := phase })
  | .flash => do
    let (phase, app_len) ← flashImage F
    pure (.inl { st with phase := phase, app_len := app_len })
  | .verify_flash => do
    let phase ← verifyImage F st.app_len
    pure (.inl { st with phase := phase })
  | .erase_flash_before_restore => do
    let phase ← eraseFlashBeforeRestore F
    pure (.inl { st with phase := phase })
  | .restore_backup => do
    let (phase, app_len) ← restoreBackup F
    pure (.inl { st with phase := phase, app_len := app_len })
  | .verify_backup => do
    let phase ← verifyBackupPhase F st.app_len
    pure (.inl { st with phase := phase })
  | .complete => pure (.inr .success)
  | .backup_restored => pure (.inr .backup_restore)

/-- The variables of the machine before its loop. -/
def update_state.start (phase : update_phase) : update_state := ⟨phase, 0, 0⟩

/-- `firmwareUpdateStateMachine`; the loop is not bounded by the code, so it runs on `fuel`. -/
def firmwareUpdateStateMachine (fuel : Nat) (start_phase : Option update_phase) :
    Prog σ Error firmware_update_outcome :=
  Prog.loop (phaseStep F) fuel (.start (start_phase.getD .check))

/-- `firmwareUpdate`. -/
def firmwareUpdate (fuel : Nat) : Prog σ Error firmware_update_outcome :=
  firmwareUpdateStateMachine F fuel (some .check)

/-- `firmwareRestore`. -/
def firmwareRestore (fuel : Nat) : Prog σ Error firmware_update_outcome :=
  firmwareUpdateStateMachine F fuel (some .restore_backup)

end Phases

/-! ## The boot task -/

section Task

variable {Digest : Type} [DecidableEq Digest] (X : Externs Digest)

/-- `firmware.zig` and the firmware size counter on the device. -/
def Firmware.device (fuel : Nat) : Firmware Device where
  checkFirmwareImage := Boot.checkFirmwareImage X
  backupFirmware := Boot.backupFirmware fuel
  verifyBackup := Boot.verifyBackup X
  eraseFlash := Boot.eraseFlash
  flashFirmware := Boot.flashFirmware
  getFirmwareSize := readCounter .firmware_size
  setFirmwareSize := writeCounter .firmware_size

/-- `nvm.init`. -/
def nvm_init : BootM Unit := do
  if countObjects (← Prog.get).nvm < 9 then
    eraseAll
    writeCounter .start_counter 0
    writeCounter .reset_counter 0
    writeCounter .timestamp 0
    writeCounter .firmware_download_counter 0
    writeData .device_uuid (List.replicate 36 0xFF)
    writeData .config_sha256 (List.replicate 32 0xFF)
    writeCounter .boot_request 0
    writeCounter .update_request 0
    writeCounter .firmware_size 0

/-- The settings that `load_config_from_nvm` reads, in its order. -/
def configKeys : List app_nvm_keys :=
  [.wifi_ssid, .wifi_psk, .lwm2m_uri, .lwm2m_device_id, .lwm2m_psk_id, .lwm2m_psk_key,
   .mqtt_uri, .mqtt_psk_id, .mqtt_psk_key, .mqtt_device_id, .http_uri, .http_sig_uri, .http_sig_key]

/-- `config.load_config_from_nvm`. -/
def load_config_from_nvm : BootM Unit :=
  configKeys.foldr (fun key rest => do
    (readCString key).orIgnore
    rest) (pure ())

/-- `nvm.isUpdateRequested`. -/
def isUpdateRequested : BootM Bool := do
  let v ← readCounter .update_request
  pure (v != 0)

/-- `nvm.clearUpdateRequest`. -/
def clearUpdateRequest : BootM Unit := writeCounter .update_request 0

/-- The body of the `while` loop of `taskFunction` behind the mount. -/
def updateAttempt (fuel : Nat) : BootM Unit :=
  Prog.deferring unmount do
    match ← (firmwareUpdate (.device X fuel) fuel).attempt with
    | .ok _ => clearUpdateRequest.orUnreachable
    | .error err =>
      if err = .firmware_candidate_not_valid then clearUpdateRequest.orUnreachable
      else if err = .firmware_already_in_system then clearUpdateRequest.orUnreachable
      else
        match ← (firmwareRestore (.device X fuel) fuel).attempt with
        | .ok _ => clearUpdateRequest.orUnreachable
        | .error _ => pure ()

/-- `taskFunction` up to `prepareJump()`. -/
def taskFunction (fuel : Nat) : BootM Unit := do
  nvm_init.orIgnore
  load_config_from_nvm.orIgnore
  Prog.loop (fun _ => do
    if ← isUpdateRequested.tryCatch fun _ => pure false then
      match ← mount.attempt with
      | .error _ => pure (.inr ())
      | .ok () => do
        updateAttempt X fuel
        pure (.inl ())
    else pure (.inr ())) fuel ()

/-! ### `taskFunction` step by step -/

/-- Where `taskFunction` is. -/
inductive Pc where
  /-- Before `nvm.init`. -/
  | start
  /-- At the condition of the `while` loop. -/
  | head
  /-- In `firmwareUpdate()`, before the next phase. -/
  | update (st : update_state)
  /-- In the fallback `firmwareRestore()`, before the next phase. -/
  | restore (st : update_state)
  /-- At `prepareJump()`. -/
  | jump
  deriving DecidableEq, Repr

/-- `nvm.clearUpdateRequest() catch unreachable`, and the deferred unmount at the end of the
    loop body. -/
def finishAttempt : BootM Pc := do
  clearUpdateRequest.orUnreachable
  unmount.orIgnore
  pure .head

/-- One step of `taskFunction`. -/
def taskStep (fuel : Nat) : Pc → BootM Pc
  | .start => do
    nvm_init.orIgnore
    load_config_from_nvm.orIgnore
    pure .head
  | .head => do
    if ← isUpdateRequested.tryCatch fun _ => pure false then
      match ← mount.attempt with
      | .error _ => pure .jump
      | .ok () => pure (.update (.start .check))
    else pure .jump
  | .update st => do
    match ← (phaseStep (.device X fuel) st).attempt with
    | .ok (.inl st') => pure (.update st')
    | .ok (.inr _) => finishAttempt
    | .error err =>
      if err = .firmware_candidate_not_valid then finishAttempt
      else if err = .firmware_already_in_system then finishAttempt
      else pure (.restore (.start .restore_backup))
  | .restore st => do
    match ← (phaseStep (.device X fuel) st).attempt with
    | .ok (.inl st') => pure (.restore st')
    | .ok (.inr _) => finishAttempt
    | .error _ => do
      unmount.orIgnore
      pure .head
  | .jump => pure .jump

end Task

end Miso.Boot
