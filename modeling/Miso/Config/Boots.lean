import Miso.Boot.Outcomes
import Miso.Boot.Task
import Miso.Config.File
import Miso.Zig.System

/-!
# Boots of the device

A device boots into the bootloader, `taskFunction` of which hands over to the application with
`prepareJump()`; the user task of the application loads and stores the settings before it starts the
connectivity.  `boots` is the device over any number of boots:

* `bootStep` — what runs from one program position to the next, under the oracle of the device;
* `Input` — a step, a reset (at any time, and with any card in the slot afterwards) or an increment of
  a counter by a function of `nvm.zig`;
* `Life` — the state, with two ghosts: what the last completed `store_config_in_nvm` left behind and
  whether a later one has been left incomplete.
-/

namespace Miso.Config

open Zig Boot

/-- What became of `open_config_file`. -/
inductive Opened where
  /-- The hash of the file is the one in the NVM. -/
  | unchanged
  /-- The settings and the hash are stored. -/
  | stored
  | failed
  deriving DecidableEq, Repr

/-- Where the device is. -/
inductive Pc where
  /-- In `main` of the bootloader. -/
  | bootMain
  /-- In `taskFunction` of the bootloader. -/
  | boot (pc : Boot.Pc)
  /-- In `main` of the application. -/
  | main
  /-- In the user task, before `nvm.init`. -/
  | init
  /-- Before `fatfs.mount`. -/
  | mount
  /-- In the state `verify_config`, before `load_config_from_nvm`. -/
  | loadConfig
  /-- Before `open_config_file`. -/
  | openConfig
  /-- In `open_config_file`, behind `miso_load_config()` on a file with this hash. -/
  | storeConfig (hash : List UInt8)
  /-- In the state `start_connectivity` or later. -/
  | started (config : Opened)
  deriving DecidableEq, Repr

section Step

variable (X : Externs (List UInt8)) (L : Libs) (fuel : Nat)

/-- From one program position to the next. -/
def bootStep : Pc → ConfigM Pc
  | .bootMain => do
    call (incrementCounter .start_counter).orIgnore
    pure (.boot .start)
  | .boot .jump => do
    -- the application starts with its own RAM
    Prog.modify fun w => { w with config := zeroed }
    pure .main
  | .boot pc => do
    let pc ← call (taskStep X fuel pc)
    pure (.boot pc)
  | .main => do
    call (incrementCounter .start_counter).orIgnore
    pure .init
  | .init => do
    call nvm_init.orIgnore
    pure .mount
  | .mount => do
    call Boot.mount.orUnreachable
    pure .loadConfig
  | .loadConfig => do
    call load_config_from_nvm.orIgnore
    pure .openConfig
  | .openConfig => do
    match ← (checkConfigFile X L).attempt with
    | .ok (some hash) => pure (.storeConfig hash)
    | .ok none => pure (.started .unchanged)
    | .error _ => pure (.started .failed)
  | .storeConfig hash => do
    match ← (call (storeConfig L hash)).attempt with
    | .ok () => pure (.started .stored)
    | .error _ => pure (.started .failed)
  | .started config => pure (.started config)

end Step

/-! ## The system -/

/-- Where a step leads to; a step that does not end resets the device. -/
def nextPc : Exit config_error Pc → Pc
  | .ok pc => pc
  | _ => .bootMain

@[simp] theorem nextPc_ok (pc : Pc) : nextPc (.ok pc) = pc := rfl

/-- Settings that have been stored, and the hash that was stored with them. -/
structure Stored where
  hash : List UInt8
  nvm : Nvm

/-- A setting differs. -/
def changed (n n' : Nvm) : Bool := configKeys.any fun k => n k != n' k

/-- The strings of the buffers and the hash are in the NVM. -/
def isStored (L : Libs) (g : Buffers) (hash : List UInt8) (n : Nvm) : Bool :=
  configKeys.all (fun k => n k == some (.data (stringObject L g k))) &&
    n .config_sha256 == some (.data hash)

structure Life where
  pc : Pc
  dev : Device
  /-- Left behind by the last `storeConfig` whose strings and hash have all arrived in the NVM. -/
  stored : Option Stored
  /-- Since then one was left incomplete when it had changed a setting. -/
  torn : Bool

/-- The device behind a reset, with the files that are then on the card. -/
def restart (w : Device) (sd : Path → Option (List UInt8)) : Device :=
  { w with sd := sd, config := zeroed, pub_key := [] }

/-- What happens to the device. -/
inductive Input where
  | step (fuel : Nat)
  | reset (sd : Path → Option (List UInt8))
  | increment (key : app_nvm_keys)

/-- The counters that `nvm.zig` increments. -/
def counterKeys : List app_nvm_keys := [.start_counter, .reset_counter, .boot_request, .update_request]

namespace Life

/-- The state after a step that has ended with `x` in `w`. -/
def after (L : Libs) (s : Life) (x : Exit config_error Pc) (w : Device) : Life where
  pc := nextPc x
  dev := if x.returned then w else restart w w.sd
  stored :=
    match s.pc with
    | .storeConfig hash =>
      if isStored L s.dev.config hash w.nvm then some ⟨hash, w.nvm⟩ else s.stored
    | _ => s.stored
  torn :=
    match s.pc with
    | .storeConfig hash =>
      if isStored L s.dev.config hash w.nvm then false else s.torn || changed s.dev.nvm w.nvm
    | _ => s.torn

/-- The application is up. -/
def isStarted (s : Life) : Bool :=
  match s.pc with
  | .started _ => true
  | _ => false

def Enabled (s : Life) : Input → Prop
  | .increment key => s.isStarted = true ∧ key ∈ counterKeys
  | _ => True

instance (s : Life) : ∀ i, Decidable (s.Enabled i)
  | .increment key => inferInstanceAs (Decidable (s.isStarted = true ∧ key ∈ counterKeys))
  | .step _ => isTrue trivial
  | .reset _ => isTrue trivial

end Life

/-- The device over any number of boots. -/
def boots (X : Externs (List UInt8)) (L : Libs) : System Life Input where
  Enabled := Life.Enabled
  next s
    | .step fuel => s.after L (bootStep X L fuel s.pc s.dev).1 (bootStep X L fuel s.pc s.dev).2
    | .reset sd => { s with pc := .bootMain, dev := restart s.dev sd }
    | .increment key =>
      let r := (incrementCounter key).orIgnore s.dev
      if r.1.returned then { s with dev := r.2 }
      else { s with pc := .bootMain, dev := restart r.2 r.2.sd }

theorem next_increment_cases (X : Externs (List UInt8)) (L : Libs) (s : Life) (key : app_nvm_keys) :
    (boots X L).next s (.increment key) = { s with dev := ((incrementCounter key).orIgnore s.dev).2 } ∨
      (boots X L).next s (.increment key) = { s with
        pc := .bootMain
        dev := restart ((incrementCounter key).orIgnore s.dev).2
          ((incrementCounter key).orIgnore s.dev).2.sd } := by
  unfold boots
  simp only []
  split
  · exact .inl rfl
  · exact .inr rfl

instance (X : Externs (List UInt8)) (L : Libs) (s : Life) (i : Input) :
    Decidable ((boots X L).Enabled s i) := inferInstanceAs (Decidable (s.Enabled i))

/-- A device that has never run. -/
structure Fresh (s : Life) : Prop where
  pc : s.pc = .bootMain
  nvm : ∀ k, s.dev.nvm k = none
  config : s.dev.config = zeroed
  stored : s.stored = none
  torn : s.torn = false

/-! ### A device with a valid file -/

/-- Every key and every signature is accepted, and the RAM behind a buffer is zero. -/
def Libs.sample (jsmn_parse : List UInt8 → Option (List jsmntok_t)) : Libs where
  jsmn_parse := jsmn_parse
  heap := ⟨.JSMN_UNDEFINED, 0, 0, 0⟩
  behind _ _ := []
  mbedtls_pk_parse_public_key _ := true
  mbedtls_pk_verify _ _ _ := true

/-- The card with a `CONFIG.TXT`, a signature and a key. -/
def sampleCard (text : List UInt8) : Path → Option (List UInt8)
  | .config_file_name => some text
  | .config_sig_file_name => some [0x30]
  | .config_pub_key_file_name => some [0x2D]
  | _ => none

/-- A file with one setting. -/
def homeText : List UInt8 := bytesOf "\x7b\"wifi\":\x7b\"ssid\":\"home\"\x7d\x7d"

def homeTokens : List jsmntok_t :=
  [⟨.JSMN_OBJECT, 0, 24, -1⟩, ⟨.JSMN_STRING, 2, 6, 0⟩, ⟨.JSMN_OBJECT, 8, 23, 1⟩,
   ⟨.JSMN_STRING, 10, 14, 2⟩, ⟨.JSMN_STRING, 17, 21, 3⟩]

/-- The SHA-256 of `homeText`. -/
def homeHash : List UInt8 :=
  [0xC1, 0x3D, 0xBA, 0xDA, 0x2C, 0xBF, 0xDE, 0xC0, 0x18, 0xA7, 0x31, 0xCD, 0xDA, 0xEB, 0x07, 0x2A,
   0xC2, 0x89, 0x23, 0x05, 0x6C, 0x2C, 0x64, 0x7A, 0x55, 0x9C, 0x34, 0xE4, 0x47, 0x22, 0xDD, 0x91]

/-- The libraries on `homeText`. -/
def homeLibs : Libs := .sample fun text => if text = homeText then some homeTokens else none

def homeExterns : Externs (List UInt8) := { Externs.plain with sha256 := fun _ => homeHash }

/-- A device that has never run, with this card and this oracle. -/
def Life.sample (text : List UInt8) (faults : Nat → Fault) : Life where
  pc := .bootMain
  dev :=
    { flash := fun _ => 0xFF, sd := sampleCard text, nvm := fun _ => none, config := zeroed,
      pub_key := [], log := [], faults := faults, tick := 0 }
  stored := none
  torn := false

theorem Life.sample_fresh (text : List UInt8) (faults : Nat → Fault) :
    Fresh (.sample text faults) where
  pc := rfl
  nvm _ := rfl
  config := rfl
  stored := rfl
  torn := rfl

end Miso.Config
