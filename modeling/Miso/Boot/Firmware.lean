import Miso.Boot.Device

/-!
# Hashing, checking, erasing and flashing images

`config.calculateFileHash` / `calculateMemHash` and the functions of `boot/firmware.zig`, in the
order of their sources.  A slice `fw[0..len]` is represented by its length (`appSlice`), since
every slice of the region that the code forms starts at its first byte.
-/

namespace Miso.Boot

open Zig

variable {Digest : Type} (X : Externs Digest)

def fMode.read : Mode := ⟨true, false, false⟩
def fMode.create_always_write : Mode := ⟨false, true, true⟩

/-! ## Hashes (`config.zig`) -/

/-- One round of the `while (try file.readEof(mem_block))` loop of `calculateFileHash`. -/
def hashRound (block : Nat) (s : File × List UInt8) :
    BootM ((File × List UInt8) ⊕ List UInt8) := do
  match ← readEof s.1 block with
  | (none, _) => pure (.inr s.2)
  | (some br, file) => do
    let ctx ← sha_update s.2 br
    pure (.inl (file, ctx))

/-- `config.calculateFileHash`. -/
def calculateFileHash (path : Path) : BootM Digest := do
  let file ← f_open path fMode.read
  Prog.deferring (f_close file) do
    let block := if file.size ≥ file_block_size then file_block_size else file.size
    alloc block
    let ctx ← sha_start
    let ctx ← Prog.loop (hashRound block) (file.size + 1) (file, ctx)
    sha_finish X ctx

/-- `config.calculateMemHash`. -/
def calculateMemHash (slice : List UInt8) : BootM Digest := do
  let ctx ← sha_start
  let ctx ← sha_update ctx slice
  sha_finish X ctx

/-! ## Candidate checks (`firmware.zig`) -/

/-- `fw[0..(app_len orelse fw.len)]`, by its length. -/
def appSlice (app_len : Option Nat) : BootM Nat :=
  let len := app_len.getD firmware_max_size
  if len ≤ firmware_max_size then pure len else Prog.trap

/-- `checkFirmwareCandidateSize`. -/
def checkFirmwareCandidateSize (path : Path) (app_len : Option Nat) : BootM Nat := do
  let len ← appSlice app_len
  let fw_cand ← f_open path fMode.read
  Prog.deferring (f_close fw_cand) do
    f_sync fw_cand
    if fw_cand.size > len then Prog.throw .flash_firmware_size_error else pure fw_cand.size

/-- `verifyBackup`. -/
def verifyBackup [DecidableEq Digest] (path : Path) (app_len : Option Nat) : BootM Unit := do
  let len ← appSlice app_len
  let hash_backup ← calculateFileHash X path
  let hash_flash ← calculateMemHash X ((← Prog.get).bytes 0 len)
  if hash_backup ≠ hash_flash then Prog.throw .hash_compare_mismatch

/-- `boot_image_load_header`; the C function reads the file through `flash_area_read`, whose
    FatFs calls are `catch unreachable`. -/
def boot_image_load_header (img : File) : BootM Unit := do
  (checked FRESULT.check).orUnreachable
  if X.boot_image_load_header (((← Prog.get).sd img.path).getD []) then pure ()
  else Prog.throw .generic_error

/-- `bootutil_img_validate`, with the file accesses of `boot_image_load_header`. -/
def bootutil_img_validate (img : File) : BootM Unit := do
  (checked FRESULT.check).orUnreachable
  let w ← Prog.get
  let content := (w.sd img.path).getD []
  let success := X.bootutil_img_validate w.pub_key content
  Prog.modify (·.record (.bootutil_img_validate content success))
  if success then pure () else Prog.throw .generic_error

/-- `verifyFirmware`. -/
def verifyFirmware (path : Path) : BootM Unit := do
  let img ← (f_open path fMode.read).orUnreachable
  Prog.deferring (f_close img) do
    boot_image_load_header X img
    alloc 512
    bootutil_img_validate X img

/-- `config.getHttpSigKey`: the buffer up to its first NUL. -/
def getHttpSigKey (w : Device) : List UInt8 := (w.config .http_sig_key).takeWhile (· != 0)

/-- `load_global_public_key`. -/
def load_global_public_key : BootM Unit := do
  match X.base64_decode (getHttpSigKey (← Prog.get)) 256 with
  | none => Prog.trap
  | some key => Prog.modify fun w => { w with pub_key := key }

/-- `checkFirmwareImage`: an error of the comparison other than `hash_compare_mismatch` falls
    through both branches and is dropped. -/
def checkFirmwareImage [DecidableEq Digest] (path : Path) : BootM Unit := do
  let cand_len ← checkFirmwareCandidateSize path none
  match ← (verifyBackup X path (some cand_len)).attempt with
  | .ok () => Prog.throw .firmware_already_in_system
  | .error err =>
    if err = .hash_compare_mismatch then do
      load_global_public_key X
      (verifyFirmware X path).tryCatch fun _ => Prog.throw .firmware_candidate_not_valid
    else pure ()

/-! ## Backup, erase and flash -/

/-- One round of the loop of `backupFirmware`. -/
def backupRound (len : Nat) (backup : File) : BootM (File ⊕ File) := do
  if backup.tell < len then
    let start_position := backup.tell
    let end_position :=
      if start_position + sd_page_size > len then len else start_position + sd_page_size
    let (_, backup) ← f_write backup
      ((← Prog.get).bytes start_position (end_position - start_position))
    f_sync backup
    pure (.inl backup)
  else pure (.inr backup)

/-- `backupFirmware`; the loop is not bounded by the code, so it runs on `fuel`. -/
def backupFirmware (fuel : Nat) (path : Path) (app_len : Option Nat) : BootM Nat := do
  let len ← appSlice app_len
  let backup ← f_open path fMode.create_always_write
  Prog.deferring (f_close backup) do
    f_sync backup
    let backup ← Prog.loop (backupRound len) fuel backup
    pure backup.size

def flash_page_addr_mask : Nat := 0xFFFFF000

/-- One round of the loop of `eraseFlash`. -/
def eraseRound (len : Nat) (current_pos : Nat) : BootM (Nat ⊕ Unit) := do
  if current_pos < len then
    let start_pos := current_pos &&& flash_page_addr_mask
    let end_pos := if start_pos + flash_page_size > len then len else start_pos + flash_page_size
    if !(← MSC_ErasePage start_pos) then Prog.throw .flash_erase_error
    pure (.inl end_pos)
  else pure (.inr ())

/-- `eraseFlash`. -/
def eraseFlash (app_len : Option Nat) : BootM Unit := do
  let len ← appSlice app_len
  Prog.loop (eraseRound len) (len + 1) 0

/-- One round of the loop of `flashFirmware`. -/
def flashRound (len : Nat) (s : File × Nat) : BootM ((File × Nat) ⊕ Unit) := do
  match ← readEof s.1 flash_page_size with
  | (none, _) => pure (.inr ())
  | (some br, file) => do
    if s.2 + flash_page_size > len then Prog.trap
    let scratch_area := br ++ List.replicate (flash_page_size - br.length) 0xFF
    if !(← MSC_WriteWord s.2 scratch_area) then Prog.throw .flash_write_error
    pure (.inl (file, file.tell))

/-- `flashFirmware`. -/
def flashFirmware (path : Path) (app_len : Option Nat) : BootM Nat := do
  let len ← appSlice app_len
  let file ← f_open path fMode.read
  Prog.deferring (f_close file) do
    f_sync file
    if file.size > len then Prog.throw .flash_firmware_size_error
    Prog.loop (flashRound len) (file.size + 1) (file, 0)
    pure file.size

end Miso.Boot
