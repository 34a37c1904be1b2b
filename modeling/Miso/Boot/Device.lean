import Miso.Zig.Prog
import Mathlib.Data.List.GetD

/-!
# The device under the bootloader

The state the bootloader works on (`Device`) and the calls it makes into code that is not part
of the repository: the flash controller (`MSC_*`), FatFs (`f_*`), NVM3 (`nvm3_*`), the heap and
mbedTLS' SHA-256.  Every such call first draws a `Fault` from the oracle `Device.faults`, so that
"for every pattern of failures" is "for every `faults`":

* a call that fails or is cut off by a reset may leave any partial effect (`part`) that the
  hardware allows — an erase leaves an arbitrary page, a program operation can only clear bits
  (`Device.program`), a file write stores a prefix of the data, an NVM write is atomic;
* `f_write` may store fewer bytes than asked and still report success (`Fault.short`), as
  `ff.c` does on a full card.

The application region is a function from offsets to bytes; offsets below `firmware_max_size`
are the region, and no call of the bootloader is made beyond it.  Mounting has no state of its
own: a volume that is not mounted is a failing call.
-/

namespace Miso.Boot

open Zig

/-! ## Memory map (`chips.zig`, `firmware.zig`) -/

def KiB : Nat := 1024
def NVM3_SIZE : Nat := 64 * KiB
def FLASH_SIZE : Nat := 1024 * KiB
def FLASH_BOOTLOADER_SIZE : Nat := 256 * KiB
def FLASH_APP_SIZE : Nat := FLASH_SIZE - NVM3_SIZE - FLASH_BOOTLOADER_SIZE

def firmware_max_size : Nat := FLASH_APP_SIZE
def flash_page_size : Nat := 4096
def sd_page_size : Nat := 512
def file_block_size : Nat := 512

theorem firmware_max_size_eq : firmware_max_size = 176 * flash_page_size := rfl

/-! ## Errors -/

/-- The global error set, as far as the bootloader can produce it. -/
inductive Error where
  -- `fatfs.frError`
  | FR_DISK_ERR | FR_INT_ERR | FR_NOT_READY | FR_NO_FILE | FR_NO_PATH | FR_INVALID_NAME
  | FR_DENIED | FR_EXIST | FR_INVALID_OBJECT | FR_WRITE_PROTECTED | FR_INVALID_DRIVE
  | FR_NOT_ENABLED | FR_NO_FILESYSTEM | FR_MKFS_ABORTED | FR_TIMEOUT | FR_LOCKED
  | FR_NOT_ENOUGH_CORE | FR_TOO_MANY_OPEN_FILES | FR_INVALID_PARAMETER | buffer_overflow
  -- `sha256.sha256_error` and `std.mem.Allocator.Error`
  | start_error | update_error | finish_error | OutOfMemory
  -- `nvm.nvmError`; `generic_error` is also in `frError` and `mcuBootError`
  | generic_error | buffer_size_error | invalid_object_type
  -- `firmware.firmware_error`
  | firmware_already_in_system | firmware_candidate_not_valid | hash_compare_mismatch
  | flash_erase_error | flash_write_error | flash_firmware_size_error
  deriving DecidableEq, Repr

/-- The codes other than `FR_OK` that FatFs returns. -/
inductive FRESULT where
  | fr_disk_err | fr_int_err | fr_not_ready | fr_no_file | fr_no_path | fr_invalid_name
  | fr_denied | fr_exist | fr_invalid_object | fr_write_protected | fr_invalid_drive
  | fr_not_enabled | fr_no_filesystem | fr_mkfs_aborted | fr_timeout | fr_locked
  | fr_not_enough_core | fr_too_many_open_files | fr_invalid_parameter
  deriving DecidableEq, Repr

/-- `fRet.check`. -/
def FRESULT.check : FRESULT → Error
  | .fr_disk_err => .FR_DISK_ERR
  | .fr_int_err => .FR_INT_ERR
  | .fr_not_ready => .FR_NOT_READY
  | .fr_no_file => .FR_NO_FILE
  | .fr_no_path => .FR_NO_PATH
  | .fr_invalid_name => .FR_INVALID_NAME
  | .fr_denied => .FR_DENIED
  | .fr_exist => .FR_EXIST
  | .fr_invalid_object => .FR_INVALID_OBJECT
  | .fr_write_protected => .FR_WRITE_PROTECTED
  | .fr_invalid_drive => .FR_INVALID_DRIVE
  | .fr_not_enabled => .FR_NOT_ENABLED
  | .fr_no_filesystem => .FR_NO_FILESYSTEM
  | .fr_mkfs_aborted => .FR_MKFS_ABORTED
  | .fr_timeout => .FR_TIMEOUT
  | .fr_locked => .FR_LOCKED
  | .fr_not_enough_core => .FR_NOT_ENOUGH_CORE
  | .fr_too_many_open_files => .FR_TOO_MANY_OPEN_FILES
  | .fr_invalid_parameter => .FR_INVALID_PARAMETER

/-- What happens to one call into the environment. -/
inductive Fault where
  /-- The call does what it is documented to do. -/
  | none
  /-- The call reports a failure, with a partial effect described by `part`. -/
  | fail (r : FRESULT) (part : List UInt8)
  /-- `f_write` stores at most `n` bytes and reports `FR_OK`. -/
  | short (n : Nat)
  /-- The device is reset during the call, with a partial effect described by `part`. -/
  | halt (part : List UInt8)
  deriving DecidableEq, Repr

/-! ## State -/

/-- The SD-card files that `config.zig` names. -/
inductive Path where
  | fw_file_name
  | fw_sig_file_name
  | config_file_name
  | config_sig_file_name
  | config_pub_key_file_name
  | app_backup_file_name
  deriving DecidableEq, Repr

/-- `nvm.app_nvm_keys`. -/
inductive app_nvm_keys where
  | start_counter | reset_counter | timestamp | device_uuid
  | config_sha256 | config_pubkey | wifi_ssid | wifi_psk | ntp_uri
  | mqtt_uri | mqtt_psk_id | mqtt_psk_key | mqtt_device_id
  | http_uri | http_sig_uri | http_sig_key | http_psk_id | http_psk_key
  | lwm2m_uri | lwm2m_psk_id | lwm2m_psk_key | lwm2m_device_id
  | firmware_etag | firmware_update_trigger | firmware_download_counter | firmware_update_state
  | config_uri | update_request | boot_request | firmware_size | max_key
  deriving DecidableEq, Repr

def app_nvm_keys.all : List app_nvm_keys :=
  [.start_counter, .reset_counter, .timestamp, .device_uuid,
   .config_sha256, .config_pubkey, .wifi_ssid, .wifi_psk, .ntp_uri,
   .mqtt_uri, .mqtt_psk_id, .mqtt_psk_key, .mqtt_device_id,
   .http_uri, .http_sig_uri, .http_sig_key, .http_psk_id, .http_psk_key,
   .lwm2m_uri, .lwm2m_psk_id, .lwm2m_psk_key, .lwm2m_device_id,
   .firmware_etag, .firmware_update_trigger, .firmware_download_counter, .firmware_update_state,
   .config_uri, .update_request, .boot_request, .firmware_size, .max_key]

theorem app_nvm_keys.mem_all (k : app_nvm_keys) : k ∈ app_nvm_keys.all := by
  cases k <;> decide

/-- An object of the NVM3 store. -/
inductive NvmObject where
  | data (bytes : List UInt8)
  | counter (value : Nat)
  deriving DecidableEq, Repr

abbrev Nvm := app_nvm_keys → Option NvmObject

/-- The calls whose order and arguments the properties speak about. -/
inductive Call where
  | MSC_ErasePage (addr : Nat)
  | MSC_WriteWord (addr len : Nat)
  | bootutil_img_validate (img : List UInt8) (success : Bool)
  deriving DecidableEq, Repr

/-- The device: persistent state, the RAM the bootloader uses and the fault oracle. -/
structure Device where
  /-- The application region, by offset from `firmware_start_address`. -/
  flash : Nat → UInt8
  /-- The files of the SD card. -/
  sd : Path → Option (List UInt8)
  nvm : Nvm
  /-- The `config_*` buffers of `config.c`, by the NVM key they are loaded from. -/
  config : app_nvm_keys → List UInt8
  /-- `pub_key[0..pub_key_len]`. -/
  pub_key : List UInt8
  /-- Newest call first. -/
  log : List Call
  faults : Nat → Fault
  tick : Nat

abbrev BootM := Prog Device Error

namespace Device

def setFile (w : Device) (p : Path) (c : List UInt8) : Device :=
  { w with sd := fun q => if q = p then some c else w.sd q }

def setNvm (w : Device) (k : app_nvm_keys) (o : NvmObject) : Device :=
  { w with nvm := fun j => if j = k then some o else w.nvm j }

/-- The `len` bytes of the region from offset `off`. -/
def bytes (w : Device) (off len : Nat) : List UInt8 :=
  (List.range len).map fun i => w.flash (off + i)

/-- Put arbitrary bytes at `off`; positions past `data` keep their byte. -/
def overwrite (w : Device) (off : Nat) (data : List UInt8) : Device :=
  { w with flash := fun i => if off ≤ i then data.getD (i - off) (w.flash i) else w.flash i }

/-- Program `data` at `off`: a programmed bit is cleared, never set. -/
def program (w : Device) (off : Nat) (data : List UInt8) : Device :=
  { w with flash := fun i => if off ≤ i then w.flash i &&& data.getD (i - off) 0xFF else w.flash i }

def record (w : Device) (c : Call) : Device := { w with log := c :: w.log }

end Device

/-! ## Calls into the environment -/

/-- Draw the fault of the next call. -/
def draw : BootM Fault := fun w => (.ok (w.faults w.tick), { w with tick := w.tick + 1 })

/-- A call without an effect on the device: it succeeds, fails with `onFail` or is cut off. -/
def checked (onFail : FRESULT → Error) : BootM Unit := do
  match ← draw with
  | .fail r _ => Prog.throw (onFail r)
  | .halt _ => Prog.halt id
  | _ => pure ()

/-- `allocator.alloc(u8, n)`; an empty slice is not requested from the heap. -/
def alloc (n : Nat) : BootM Unit :=
  if n = 0 then pure () else checked fun _ => .OutOfMemory

/-! ### FatFs -/

/-- The bits of `file.fMode` that the bootloader uses. -/
structure Mode where
  read : Bool
  write : Bool
  create_always : Bool
  deriving DecidableEq, Repr

/-- An open file (`FIL`): the path, the file pointer and the size held in the handle. -/
structure File where
  path : Path
  fptr : Nat
  objsize : Nat
  deriving DecidableEq, Repr

def File.size (f : File) : Nat := f.objsize
def File.tell (f : File) : Nat := f.fptr
def File.eof (f : File) : Bool := f.fptr == f.objsize

/-- `file.open`: with `create_always` the file is created, or truncated if it exists. -/
def f_open (path : Path) (mode : Mode) : BootM File := do
  match ← draw with
  | .fail r part =>
    if mode.create_always && part != [] then Prog.modify (·.setFile path [])
    Prog.throw r.check
  | .halt part =>
    Prog.halt fun w => if mode.create_always && part != [] then w.setFile path [] else w
  | _ =>
    if mode.create_always then
      Prog.modify (·.setFile path [])
      pure ⟨path, 0, 0⟩
    else
      match (← Prog.get).sd path with
      | none => Prog.throw .FR_NO_FILE
      | some c => pure ⟨path, 0, c.length⟩

/-- `file.close`. -/
def f_close (_ : File) : BootM Unit := checked FRESULT.check

/-- `file.sync`. -/
def f_sync (_ : File) : BootM Unit := checked FRESULT.check

/-- `file.read`: `f_read` truncates the request to the rest of the file. -/
def f_read (f : File) (len : Nat) : BootM (List UInt8 × File) := do
  checked FRESULT.check
  let content := ((← Prog.get).sd f.path).getD []
  let data := (content.drop f.fptr).take (min len (f.objsize - f.fptr))
  if data.length > len then Prog.throw .buffer_overflow
  pure (data, { f with fptr := f.fptr + data.length })

/-- `file.readEof`. -/
def readEof (f : File) (len : Nat) : BootM (Option (List UInt8) × File) := do
  if f.eof then pure (none, f)
  else
    let (data, f') ← f_read f len
    if data.length = 0 then pure (none, f') else pure (some data, f')

/-- The file content after `data` has been written at `fptr`. -/
def spliceAt (content : List UInt8) (fptr : Nat) (data : List UInt8) : List UInt8 :=
  content.take fptr ++ data ++ content.drop (fptr + data.length)

/-- `file.write`: the bytes that were stored are in the file also when the call fails. -/
def f_write (f : File) (data : List UInt8) : BootM (Nat × File) := do
  let content := ((← Prog.get).sd f.path).getD []
  match ← draw with
  | .fail r part =>
    Prog.modify (·.setFile f.path (spliceAt content f.fptr (data.take part.length)))
    Prog.throw r.check
  | .halt part =>
    Prog.halt (·.setFile f.path (spliceAt content f.fptr (data.take part.length)))
  | .short n =>
    let stored := data.take n
    Prog.modify (·.setFile f.path (spliceAt content f.fptr stored))
    pure (stored.length,
      { f with fptr := f.fptr + stored.length, objsize := max f.objsize (f.fptr + stored.length) })
  | .none =>
    Prog.modify (·.setFile f.path (spliceAt content f.fptr data))
    pure (data.length,
      { f with fptr := f.fptr + data.length, objsize := max f.objsize (f.fptr + data.length) })

/-- `fatfs.mount`. -/
def mount : BootM Unit := checked FRESULT.check

/-- `fatfs.unmount`. -/
def unmount : BootM Unit := checked FRESULT.check

/-! ### Flash controller -/

/-- `MSC_ErasePage`; the result says whether it was `mscReturnOk`. -/
def MSC_ErasePage (addr : Nat) : BootM Bool := do
  Prog.modify (·.record (.MSC_ErasePage addr))
  match ← draw with
  | .fail _ part =>
    Prog.modify (·.overwrite addr (part.take flash_page_size))
    pure false
  | .halt part => Prog.halt (·.overwrite addr (part.take flash_page_size))
  | _ =>
    Prog.modify (·.overwrite addr (List.replicate flash_page_size 0xFF))
    pure true

/-- `MSC_WriteWord`; the result says whether it was `mscReturnOk`. -/
def MSC_WriteWord (addr : Nat) (data : List UInt8) : BootM Bool := do
  Prog.modify (·.record (.MSC_WriteWord addr data.length))
  match ← draw with
  | .fail _ part =>
    Prog.modify (·.program addr (part.take data.length))
    pure false
  | .halt part => Prog.halt (·.program addr (part.take data.length))
  | _ =>
    Prog.modify (·.program addr data)
    pure true

/-! ### NVM3 -/

/-- `readCounter`. -/
def readCounter (key : app_nvm_keys) : BootM Nat := do
  checked fun _ => .generic_error
  match (← Prog.get).nvm key with
  | some (.counter v) => pure v
  | _ => Prog.throw .generic_error

/-- An NVM3 write is atomic: cut off, it has taken place or it has not. -/
def nvmWrite (key : app_nvm_keys) (o : NvmObject) : BootM Unit := do
  match ← draw with
  | .fail _ _ => Prog.throw .generic_error
  | .halt part => Prog.halt fun w => if part = [] then w else w.setNvm key o
  | _ => Prog.modify (·.setNvm key o)

/-- `writeCounter`. -/
def writeCounter (key : app_nvm_keys) (value : Nat) : BootM Unit := nvmWrite key (.counter value)

/-- `writeData`. -/
def writeData (key : app_nvm_keys) (value : List UInt8) : BootM Unit := nvmWrite key (.data value)

/-- `eraseAll`. -/
def eraseAll : BootM Unit := do
  match ← draw with
  | .fail _ _ => Prog.throw .generic_error
  | .halt part => Prog.halt fun w => if part = [] then w else { w with nvm := fun _ => none }
  | _ => Prog.modify fun w => { w with nvm := fun _ => none }

/-- `countObjects`. -/
def countObjects (n : Nvm) : Nat := app_nvm_keys.all.countP fun k => (n k).isSome

/-- `readCString` into the buffer of the same key. -/
def readCString (key : app_nvm_keys) : BootM Unit := do
  checked fun _ => .generic_error
  match (← Prog.get).nvm key with
  | none => Prog.throw .generic_error
  | some (.counter _) => Prog.throw .invalid_object_type
  | some (.data bytes) => do
    checked fun _ => .generic_error
    Prog.modify fun w => { w with
      config := fun k => if k = key then bytes ++ (w.config k).drop bytes.length else w.config k }

/-! ### SHA-256 and the image library -/

/-- Code that is not part of the repository: mbedTLS and MCUboot's `bootutil`. -/
structure Externs (Digest : Type) where
  sha256 : List UInt8 → Digest
  /-- `mbedtls_base64_decode` of a string into a buffer of the given length. -/
  base64_decode : List UInt8 → Nat → Option (List UInt8)
  /-- `boot_image_load_header` returns `FIH_SUCCESS` on this image. -/
  boot_image_load_header : List UInt8 → Bool
  /-- `bootutil_img_validate` returns `FIH_SUCCESS` for this key and image. -/
  bootutil_img_validate : List UInt8 → List UInt8 → Bool

/-- `sha256.start`; the context is the data hashed so far. -/
def sha_start : BootM (List UInt8) := do
  checked fun _ => .start_error
  pure []

/-- `sha256.update`. -/
def sha_update (ctx buffer : List UInt8) : BootM (List UInt8) := do
  checked fun _ => .update_error
  pure (ctx ++ buffer)

/-- `sha256.finish`. -/
def sha_finish {Digest : Type} (X : Externs Digest) (ctx : List UInt8) : BootM Digest := do
  checked fun _ => .finish_error
  pure (X.sha256 ctx)

end Miso.Boot
