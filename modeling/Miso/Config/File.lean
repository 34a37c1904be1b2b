import Miso.Boot.App
import Miso.Config.Load

/-!
# The configuration file and the NVM (`config.zig`, `nvm.zig`, `user.zig`)

* `readData`, `writeDataCString`, `incrementCounter` — the functions of `nvm.zig` that the bootloader does
  not use; `readCString`, `load_config_from_nvm` and `nvm_init` are those of the bootloader;
* `store_config_in_nvm`, `open_config_file`.

`open_config_file` is cut in two: `checkConfigFile` is everything up to and including
`miso_load_config()`, and returns the hash of a file that has been loaded; what follows is
`storeConfig`.
-/

namespace Miso.Config

open Zig Boot

/-! ## `nvm.zig` -/

def max_object_size : Nat := 256

/-- `sizeof` a counter object. -/
def counter_size : Nat := 4

/-- `readData` into a buffer of `len` bytes. -/
def readData (key : app_nvm_keys) (len : Nat) : BootM (List UInt8) := do
  checked fun _ => .generic_error
  match (← Prog.get).nvm key with
  | none => Prog.throw .generic_error
  | some (.counter _) =>
    if counter_size > len then Prog.throw .buffer_size_error else Prog.throw .invalid_object_type
  | some (.data bytes) =>
    if bytes.length > len then Prog.throw .buffer_size_error
    else do
      checked fun _ => .generic_error
      pure bytes

/-- The object that `writeDataCString` writes: `strlen` runs on behind a buffer without a NUL. -/
def stringObject (L : Libs) (g : Buffers) (key : app_nvm_keys) : List UInt8 :=
  cstr (g key ++ L.behind g key) ++ [0]

/-- `writeDataCString` of the buffer of the same key; NVM3 refuses an object that is too long. -/
def writeDataCString (L : Libs) (key : app_nvm_keys) : BootM Unit := do
  let object := stringObject L (← Prog.get).config key
  if object.length > max_object_size then Prog.throw .generic_error
  else nvmWrite key (.data object)

/-- `incrementCounter`; the counter has 32 bits. -/
def incrementCounter (key : app_nvm_keys) : BootM Unit := do
  match (← Prog.get).nvm key with
  | some (.counter value) => writeCounter key ((value + 1) % 2 ^ 32)
  | _ => Prog.throw .generic_error

/-! ## `config.zig` -/

/-- `store_config_in_nvm`; its order is that of `load_config_from_nvm`. -/
def store_config_in_nvm (L : Libs) : BootM Unit :=
  configKeys.foldr (fun key rest => do
    writeDataCString L key
    rest) (pure ())

/-- The errors of `open_config_file`. -/
inductive config_error where
  /-- An error of FatFs, mbedTLS' SHA-256, the heap or the NVM. -/
  | device (err : Boot.Error)
  | parse_key_error
  | verify_error
  deriving DecidableEq, Repr

abbrev ConfigM := Prog Device config_error

/-- A call whose errors are those of the device. -/
def call {α : Type} (m : BootM α) : ConfigM α := m.mapErr .device

section File

variable (X : Externs (List UInt8)) (L : Libs)

/-- `load_public_key_from_file`; the context holds the text that has been parsed. -/
def load_public_key_from_file (path : Path) : ConfigM (List UInt8) := do
  let key_file ← call (f_open path fMode.read)
  Prog.deferring (call (f_close key_file)) do
    call (alloc (key_file.size + 1))
    let (content, _) ← call (f_read key_file (key_file.size + 1))
    if L.mbedtls_pk_parse_public_key (content ++ [0]) then pure (content ++ [0])
    else Prog.throw .parse_key_error

/-- `pk.verify`; a context without a key accepts nothing. -/
def pk_verify (pk_ctx : Option (List UInt8)) (hash sig : List UInt8) : ConfigM Unit :=
  match pk_ctx with
  | some key => if L.mbedtls_pk_verify key hash sig then pure () else Prog.throw .verify_error
  | none => Prog.throw .verify_error

def hash_size : Nat := 32

/-- The reference hash, from the object that has been read into the cleared buffer. -/
def padHash (bytes : List UInt8) : List UInt8 := bytes ++ List.replicate (hash_size - bytes.length) 0

/-- `open_config_file` up to `miso_load_config()`: the hash of a file that has been loaded, or `none`
    if the hash is the one in the NVM. -/
def checkConfigFile : ConfigM (Option (List UInt8)) := do
  let ref ← (do
    let bytes ← call (readData .config_sha256 hash_size)
    pure (padHash bytes)).tryCatch fun _ => pure (padHash [])
  let hash ← call (calculateFileHash X .config_file_name)
  if ref ≠ hash then do
    let sig_file ← call (f_open .config_sig_file_name fMode.read)
    Prog.errdeferring (call (f_close sig_file)) do
      call (alloc sig_file.size)
      let (sig, _) ← call (f_read sig_file sig_file.size)
      call (f_close sig_file)
      let pk_ctx ← (load_public_key_from_file L .config_pub_key_file_name).attempt
      pk_verify L pk_ctx.toOption hash sig
      call (miso_load_config L)
      pure (some hash)
  else pure none

/-- `open_config_file` behind `miso_load_config()`; the `errdefer` of the signature file is still in
    force. -/
def storeConfig (hash : List UInt8) : BootM Unit :=
  Prog.errdeferring (f_close ⟨.config_sig_file_name, 0, 0⟩) do
    store_config_in_nvm L
    writeData .config_sha256 hash

/-- `open_config_file(config_file_name)`. -/
def open_config_file : ConfigM Unit := do
  match ← checkConfigFile X L with
  | some hash => call (storeConfig L hash)
  | none => pure ()

end File

end Miso.Config
