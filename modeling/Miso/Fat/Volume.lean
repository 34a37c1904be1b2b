import Miso.Sd.Device

/-!
# The allocation table of a FAT volume (`ff.c`)

* `Disk` — the functions of `diskio.h`, with the status that they need;
* `Geometry` — a volume that is well formed;
* `FATFS` — the window into the disk, and what is known of the free clusters;
* `sync_window`, `move_window`, `sync_fs` — the window is written back and moved;
* `mount_volume` — what is known of the free clusters at the beginning;
* `get_fat`, `put_fat` — an entry of the table;
* `create_chain`, `remove_chain` — the clusters of a file.

Sectors, clusters and entries are numbers; nothing that is computed from those of a volume exceeds
32 bits, except where the code says so.
-/

namespace Miso.Fat

open Sd

inductive FRESULT where
  | FR_OK
  | FR_DISK_ERR
  | FR_INT_ERR
  | FR_DENIED
  deriving DecidableEq, Repr

inductive FsType where
  | FS_FAT12
  | FS_FAT16
  | FS_FAT32
  deriving DecidableEq, Repr

/-- `disk_read`, `disk_write` and the `CTRL_SYNC` of `disk_ioctl`. -/
structure Disk (δ : Type) where
  disk_read : Nat → Nat → StateM δ (DRESULT × List UInt8)
  disk_write : List UInt8 → Nat → Nat → StateM δ DRESULT
  sync : StateM δ DRESULT

/-- The bytes that a table of `n` entries needs. -/
def FsType.tableSize : FsType → Nat → Nat
  | FS_FAT12, n => n * 3 / 2 + n % 2
  | FS_FAT16, n => n * 2
  | FS_FAT32, n => n * 4

/-- The most entries that a table can have. -/
def FsType.limit : FsType → Nat
  | FS_FAT12 => 0xFF7
  | FS_FAT16 => 0xFFF7
  | FS_FAT32 => 0x0FFFFFF7

/-- **A well-formed volume**, on a disk of `capacity` sectors. -/
structure Geometry where
  fs_type : FsType
  csize : Nat
  n_fats : Nat
  fsize : Nat
  n_fatent : Nat
  volbase : Nat
  fatbase : Nat
  database : Nat
  /-- 1 if the volume has an `FSINFO` sector, on a volume with entries of 32 bits. -/
  BPB_FSInfo32 : Nat
  capacity : Nat
  n_fats_cases : n_fats = 1 ∨ n_fats = 2
  csize_pos : 0 < csize
  csize_lt : csize < 256
  csize_pow : csize &&& (csize - 1) = 0
  three_le : 3 ≤ n_fatent
  le_limit : n_fatent ≤ fs_type.limit
  table_fits : fs_type.tableSize n_fatent ≤ fsize * 512
  volbase_lt : volbase < fatbase
  /-- The `FSINFO` sector is a reserved one; `mount_volume` does not check this. -/
  fsinfo_lt : fs_type = .FS_FAT32 → volbase + 1 < fatbase
  table_le : fatbase + n_fats * fsize ≤ database
  data_le : database + csize * (n_fatent - 2) ≤ capacity
  capacity_lt : capacity < 4294967296

/-- What changes while a volume is mounted, with the disk. -/
structure FATFS (δ : Type) where
  last_clst : Nat
  free_clst : Nat
  fsi_flag : UInt8
  wflag : Bool
  winsect : Nat
  win : Block
  disk : δ

/-! ## Bytes of a sector -/

/-- The byte at `i`. -/
def byte (b : Block) (i : Nat) : UInt8 := b.toList.getD i 0

/-- The byte at `i` is replaced. -/
def setByte (b : Block) (i : Nat) (x : UInt8) : Block := Card.received (b.toList.set i x)

/-- A buffer after bytes have been read into it. -/
def filled (win : Block) (bytes : List UInt8) : Block :=
  Card.received (bytes ++ win.toList.drop bytes.length)

def ld_word (win : Block) (ptr : Nat) : Nat :=
  (byte win (ptr + 1)).toNat <<< 8 ||| (byte win ptr).toNat

def ld_dword (win : Block) (ptr : Nat) : Nat :=
  (((byte win (ptr + 3)).toNat <<< 8 ||| (byte win (ptr + 2)).toNat) <<< 8 |||
    (byte win (ptr + 1)).toNat) <<< 8 ||| (byte win ptr).toNat

def st_word (win : Block) (ptr val : Nat) : Block :=
  setByte (setByte win ptr (UInt8.ofNat val)) (ptr + 1) (UInt8.ofNat (val >>> 8))

def st_dword (win : Block) (ptr val : Nat) : Block :=
  setByte (setByte (setByte (setByte win ptr (UInt8.ofNat val)) (ptr + 1) (UInt8.ofNat (val >>> 8)))
    (ptr + 2) (UInt8.ofNat (val >>> 16))) (ptr + 3) (UInt8.ofNat (val >>> 24))

section Functions

variable {δ : Type} (G : Geometry) (D : Disk δ)

/-- A function of the disk. -/
def onDisk {α : Type} (m : StateM δ α) : StateM (FATFS δ) α := fun fs =>
  ((m fs.disk).1, { fs with disk := (m fs.disk).2 })

/-! ## The window -/

/-- A sector of the first table is written to the second one, too. -/
def sync_window.reflect (winsect : Nat) (win : Block) : StateM (FATFS δ) Unit :=
  if (winsect + 4294967296 - G.fatbase) % 4294967296 < G.fsize ∧ G.n_fats = 2 then do
    let _ ← onDisk (D.disk_write win.toList (winsect + G.fsize) 1)
  else return

/-- The dirty window is written back. -/
def sync_window.write (winsect : Nat) (win : Block) : StateM (FATFS δ) FRESULT := do
  if (← onDisk (D.disk_write win.toList winsect 1)) ≠ .RES_OK then return .FR_DISK_ERR
  modify fun fs => { fs with wflag := false }
  sync_window.reflect G D winsect win
  return .FR_OK

def sync_window : StateM (FATFS δ) FRESULT := do
  let fs ← get
  if fs.wflag then sync_window.write G D fs.winsect fs.win else return .FR_OK

/-- The window is filled; it is at no sector if that fails. -/
def move_window.fill (sect : Nat) : StateM (FATFS δ) FRESULT := do
  let x ← onDisk (D.disk_read sect 1)
  modify fun fs => { fs with
    win := filled fs.win x.2
    winsect := if x.1 = .RES_OK then sect else 0xFFFFFFFF }
  return if x.1 = .RES_OK then .FR_OK else .FR_DISK_ERR

def move_window (sect : Nat) : StateM (FATFS δ) FRESULT := do
  if sect = (← get).winsect then return .FR_OK
  let res ← sync_window G D
  if res ≠ .FR_OK then return res
  move_window.fill D sect

/-- The `FSINFO` sector. -/
def sync_fs.info (free_clst last_clst : Nat) : Block :=
  st_dword (st_dword (st_dword (st_dword (st_word (Vector.replicate 512 0) 510 0xAA55)
    0 0x41615252) 484 0x61417272) 488 free_clst) 492 last_clst

/-- It is written through the window; an error is not noticed. -/
def sync_fs.store (info : Block) : StateM (FATFS δ) Unit := do
  modify fun fs => { fs with win := info, winsect := G.volbase + 1 }
  let _ ← onDisk (D.disk_write info.toList (G.volbase + 1) 1)
  modify fun fs => { fs with fsi_flag := 0 }

def sync_fs.update : StateM (FATFS δ) Unit := do
  let fs ← get
  if G.fs_type = .FS_FAT32 ∧ fs.fsi_flag = 1 then
    sync_fs.store G D (sync_fs.info fs.free_clst fs.last_clst)
  else return

def sync_fs : StateM (FATFS δ) FRESULT := do
  let res ← sync_window G D
  if res ≠ .FR_OK then return res
  sync_fs.update G D
  return if (← onDisk D.sync) ≠ .RES_OK then .FR_DISK_ERR else .FR_OK

/-! ## Mounting -/

/-- `find_volume` ends with the boot sector in the window.  The volume that it describes is `G`. -/
def mount_volume.boot : StateM (FATFS δ) FRESULT := do
  modify fun fs => { fs with wflag := false, winsect := 0xFFFFFFFF }
  move_window G D G.volbase

/-- The signatures of an `FSINFO` sector. -/
def Signed (win : Block) : Prop :=
  ld_word win 510 = 0xAA55 ∧ ld_dword win 0 = 0x41615252 ∧ ld_dword win 484 = 0x61417272

instance (win : Block) : Decidable (Signed win) := inferInstanceAs (Decidable (_ ∧ _ ∧ _))

/-- The `FSINFO` sector is in the window. -/
def mount_volume.load : StateM (FATFS δ) Unit := modify fun fs =>
  if Signed fs.win then
    { fs with
      fsi_flag := 0
      free_clst := ld_dword fs.win 488
      last_clst := ld_dword fs.win 492 }
  else { fs with fsi_flag := 0 }

def mount_volume.info : StateM (FATFS δ) Unit := do
  modify fun fs => { fs with last_clst := 0xFFFFFFFF, free_clst := 0xFFFFFFFF, fsi_flag := 0x80 }
  if G.fs_type = .FS_FAT32 ∧ G.BPB_FSInfo32 = 1 then
    if (← move_window G D (G.volbase + 1)) = .FR_OK then mount_volume.load else return
  else return

def mount_volume : StateM (FATFS δ) FRESULT := do
  if (← mount_volume.boot G D) ≠ .FR_OK then return .FR_DISK_ERR
  mount_volume.info G D
  return .FR_OK

/-! ## Entries -/

/-- 0 if there is no such cluster. -/
def clst2sect (clst : Nat) : Nat :=
  let clst := (clst + 4294967294) % 4294967296
  if G.n_fatent - 2 ≤ clst then 0 else G.database + G.csize * clst

def get_fat.fat12 (clst : Nat) : StateM (FATFS δ) Nat := do
  let bc := clst + clst / 2
  if (← move_window G D (G.fatbase + bc / 512)) ≠ .FR_OK then return 0xFFFFFFFF
  let first := byte (← get).win (bc % 512)
  if (← move_window G D (G.fatbase + (bc + 1) / 512)) ≠ .FR_OK then return 0xFFFFFFFF
  let wc := first.toNat ||| (byte (← get).win ((bc + 1) % 512)).toNat <<< 8
  return if clst % 2 = 1 then wc >>> 4 else wc &&& 0xFFF

def get_fat.fat16 (clst : Nat) : StateM (FATFS δ) Nat := do
  if (← move_window G D (G.fatbase + clst / (512 / 2))) ≠ .FR_OK then return 0xFFFFFFFF
  return ld_word (← get).win (clst * 2 % 512)

def get_fat.fat32 (clst : Nat) : StateM (FATFS δ) Nat := do
  if (← move_window G D (G.fatbase + clst / (512 / 4))) ≠ .FR_OK then return 0xFFFFFFFF
  return ld_dword (← get).win (clst * 4 % 512) &&& 0x0FFFFFFF

/-- `0xFFFFFFFF` is a disk error, and 1 an internal one. -/
def get_fat (clst : Nat) : StateM (FATFS δ) Nat :=
  if clst < 2 ∨ G.n_fatent ≤ clst then return 1
  else match G.fs_type with
    | .FS_FAT12 => get_fat.fat12 G D clst
    | .FS_FAT16 => get_fat.fat16 G D clst
    | .FS_FAT32 => get_fat.fat32 G D clst

/-- The window is changed. -/
def edit (f : Block → Block) : StateM (FATFS δ) Unit :=
  modify fun fs => { fs with win := f fs.win, wflag := true }

/-- The first byte of an entry of 12 bits. -/
def put_fat.low (clst val : Nat) (p : UInt8) : UInt8 :=
  if clst % 2 = 1 then (p &&& (0x0F : UInt8)) ||| (UInt8.ofNat val <<< (4 : UInt8))
  else UInt8.ofNat val

/-- The second byte of an entry of 12 bits. -/
def put_fat.high (clst val : Nat) (p : UInt8) : UInt8 :=
  if clst % 2 = 1 then UInt8.ofNat (val >>> 4)
  else (p &&& (0xF0 : UInt8)) ||| (UInt8.ofNat (val >>> 8) &&& (0x0F : UInt8))

def put_fat.fat12 (clst val : Nat) : StateM (FATFS δ) FRESULT := do
  let bc := clst + clst / 2
  let res ← move_window G D (G.fatbase + bc / 512)
  if res ≠ .FR_OK then return res
  edit fun win => setByte win (bc % 512) (put_fat.low clst val (byte win (bc % 512)))
  let res ← move_window G D (G.fatbase + (bc + 1) / 512)
  if res ≠ .FR_OK then return res
  edit fun win => setByte win ((bc + 1) % 512) (put_fat.high clst val (byte win ((bc + 1) % 512)))
  return .FR_OK

def put_fat.fat16 (clst val : Nat) : StateM (FATFS δ) FRESULT := do
  let res ← move_window G D (G.fatbase + clst / (512 / 2))
  if res ≠ .FR_OK then return res
  edit fun win => st_word win (clst * 2 % 512) val
  return .FR_OK

/-- The upper four bits are left as they are. -/
def put_fat.fat32 (clst val : Nat) : StateM (FATFS δ) FRESULT := do
  let res ← move_window G D (G.fatbase + clst / (512 / 4))
  if res ≠ .FR_OK then return res
  edit fun win => st_dword win (clst * 4 % 512)
    ((val &&& 0x0FFFFFFF) ||| (ld_dword win (clst * 4 % 512) &&& 0xF0000000))
  return .FR_OK

def put_fat (clst val : Nat) : StateM (FATFS δ) FRESULT :=
  if 2 ≤ clst ∧ clst < G.n_fatent then
    match G.fs_type with
    | .FS_FAT12 => put_fat.fat12 G D clst val
    | .FS_FAT16 => put_fat.fat16 G D clst val
    | .FS_FAT32 => put_fat.fat32 G D clst val
  else return .FR_INT_ERR

/-! ## Chains -/

/-- One more free cluster. -/
def remove_chain.count : StateM (FATFS δ) Unit :=
  modify fun fs =>
    if fs.free_clst < G.n_fatent - 2 then
      { fs with free_clst := fs.free_clst + 1, fsi_flag := fs.fsi_flag ||| 1 }
    else fs

/-- The loop of `remove_chain`, which goes round at most `fuel` times. -/
def remove_chain.loop : Nat → Nat → StateM (FATFS δ) (Option FRESULT)
  | 0, _ => return none
  | fuel + 1, clst => do
    let nxt ← get_fat G D clst
    if nxt = 0 then return some .FR_OK
    if nxt = 1 then return some .FR_INT_ERR
    if nxt = 0xFFFFFFFF then return some .FR_DISK_ERR
    let res ← put_fat G D clst 0
    if res ≠ .FR_OK then return some res
    remove_chain.count G
    if nxt < G.n_fatent then remove_chain.loop fuel nxt else return some .FR_OK

/-- The end of the chain that is left. -/
def remove_chain.cut (pclst : Nat) : StateM (FATFS δ) FRESULT :=
  if pclst ≠ 0 then put_fat G D pclst 0xFFFFFFFF else return .FR_OK

/-- `none` if the loop would go on. -/
def remove_chain (clst pclst : Nat) : StateM (FATFS δ) (Option FRESULT) :=
  if clst < 2 ∨ G.n_fatent ≤ clst then return some .FR_INT_ERR
  else do
    let res ← remove_chain.cut G D pclst
    if res ≠ .FR_OK then return some res
    remove_chain.loop G D G.n_fatent clst

/-- A free cluster, or what `create_chain` returns. -/
inductive Found where
  | free (ncl : Nat)
  | code (val : Nat)
  deriving DecidableEq, Repr

/-- A cluster is looked at; `next` is how the search goes on. -/
def create_chain.look (scl ncl : Nat) (next : StateM (FATFS δ) (Option Found)) :
    StateM (FATFS δ) (Option Found) := do
  let cs ← get_fat G D ncl
  if cs = 0 then return some (.free ncl)
  if cs = 1 ∨ cs = 0xFFFFFFFF then return some (.code cs)
  if ncl = scl then return some (.code 0)
  next

/-- The search for a free cluster behind `ncl`, round to `scl`; `none` if it would go on. -/
def create_chain.search (scl : Nat) : Nat → Nat → StateM (FATFS δ) (Option Found)
  | 0, _ => return none
  | fuel + 1, ncl =>
    if G.n_fatent ≤ ncl + 1 then
      if scl < 2 then return some (.code 0)
      else create_chain.look G D scl 2 (create_chain.search scl fuel 2)
    else create_chain.look G D scl (ncl + 1) (create_chain.search scl fuel (ncl + 1))

/-- The cluster behind the one that is stretched, and where else the search starts. -/
def create_chain.behind (scl : Nat) : StateM (FATFS δ) (Option Found) := do
  let ncl := if G.n_fatent ≤ scl + 1 then 2 else scl + 1
  let cs ← get_fat G D ncl
  if cs = 1 ∨ cs = 0xFFFFFFFF then return some (.code cs)
  if cs = 0 then return some (.free ncl)
  let cs := (← get).last_clst
  let scl := if 2 ≤ cs ∧ cs < G.n_fatent then cs else scl
  create_chain.search G D scl G.n_fatent scl

/-- The new cluster becomes the end of the chain. -/
def create_chain.link (clst ncl : Nat) : StateM (FATFS δ) FRESULT := do
  let res ← put_fat G D ncl 0xFFFFFFFF
  if res = .FR_OK ∧ clst ≠ 0 then put_fat G D clst ncl else return res

/-- One free cluster less. -/
def create_chain.count (ncl : Nat) : StateM (FATFS δ) Unit := modify fun fs =>
  { fs with
    last_clst := ncl
    free_clst := if fs.free_clst ≤ G.n_fatent - 2 then (fs.free_clst + 4294967295) % 4294967296
      else fs.free_clst
    fsi_flag := fs.fsi_flag ||| 1 }

/-- A free cluster is added to the chain. -/
def create_chain.take (clst ncl : Nat) : StateM (FATFS δ) Nat := do
  let res ← create_chain.link G D clst ncl
  if res ≠ .FR_OK then return if res = .FR_DISK_ERR then 0xFFFFFFFF else 1
  create_chain.count G ncl
  return ncl

/-- A cluster is looked for from `scl` on, for the chain that ends with `clst`. -/
def create_chain.add (clst scl : Nat) : StateM (FATFS δ) (Option Nat) := do
  if (← get).free_clst = 0 then return some 0
  match ← (if scl = clst then create_chain.behind G D scl
    else create_chain.search G D scl G.n_fatent scl) with
  | none => return none
  | some (.code val) => return some val
  | some (.free ncl) => return some (← create_chain.take G D clst ncl)

/-- A new chain. -/
def create_chain.fresh : StateM (FATFS δ) (Option Nat) := do
  let scl := (← get).last_clst
  create_chain.add G D 0 (if scl = 0 ∨ G.n_fatent ≤ scl then 1 else scl)

/-- 0 if there is no free cluster, 1 and `0xFFFFFFFF` for an error; `none` if the search would go
on. -/
def create_chain (clst : Nat) : StateM (FATFS δ) (Option Nat) :=
  if clst = 0 then create_chain.fresh G D
  else do
    let cs ← get_fat G D clst
    if cs < 2 then return some 1
    if cs = 0xFFFFFFFF then return some cs
    if cs < G.n_fatent then return some cs
    create_chain.add G D clst clst

end Functions

end Miso.Fat
