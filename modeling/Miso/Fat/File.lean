import Miso.Fat.Volume
import Miso.Zig.Tries

/-!
# Open files of a FAT volume (`ff.c`)

* `FIL`, `Opened` — an open file, with the sector that it has in its buffer, and its volume;
* `f_read`, `f_write`, `f_lseek`, `f_truncate`, `f_sync` — the functions of an open file;
* `f_open.entry` — the file that its directory entry describes.

The volume stays mounted, so that `validate` finds every file valid.  A loop that would go on is
`none`.
-/

namespace Miso.Fat

open Sd

/-- An open file.  `FA_READ`, …, `FA_DIRTY` are bits of `flag`; `dir_ptr` is an offset in the sector
`dir_sect`. -/
structure FIL where
  sclust : Nat
  objsize : Nat
  FA_READ : Bool
  FA_WRITE : Bool
  FA_MODIFIED : Bool
  FA_DIRTY : Bool
  err : FRESULT
  fptr : Nat
  clust : Nat
  sect : Nat
  dir_sect : Nat
  dir_ptr : Nat
  buf : Block

/-- An open file with its volume. -/
structure Opened (δ : Type) where
  fs : FATFS δ
  fp : FIL

/-- What a function of a file does before it returns; an error is `none` if a loop would go on. -/
abbrev Act (δ : Type) := ExceptT (Option FRESULT) (StateM (Opened δ))

/-- Bytes of a sector are replaced from `ofs` on. -/
def splice (b : Block) (ofs : Nat) (bytes : List UInt8) : Block :=
  Card.received (b.toList.take ofs ++ bytes ++ b.toList.drop (ofs + bytes.length))

section Functions

variable {δ : Type} (G : Geometry) (D : Disk δ)

def onVolume {α : Type} (m : StateM (FATFS δ) α) : StateM (Opened δ) α := fun s =>
  ((m s.fs).1, { s with fs := (m s.fs).2 })

def volume {α : Type} (m : StateM (FATFS δ) α) : Act δ α := liftM (onVolume m)

/-- A function of the disk. -/
def disk {α : Type} (m : StateM δ α) : Act δ α := volume (onDisk m)

def fil : Act δ FIL := do return (← get).fp

def setFil (f : FIL → FIL) : Act δ Unit := modify fun s => { s with fp := f s.fp }

/-- `ABORT`: the file cannot be used any more. -/
def abort (res : FRESULT) : Act δ Unit := do
  setFil fun fp => { fp with err := res }
  throw (some res)

def abortIf (c : Prop) [Decidable c] (res : FRESULT) : Act δ Unit := if c then abort res else return

/-- `create_chain`. -/
def chain (clst : Nat) : Act δ Nat := do
  match ← volume (create_chain G D clst) with
  | some x => return x
  | none => throw none

/-- `create_chain` or the start of the file has failed. -/
def checked (clst : Nat) : Act δ Unit := do
  abortIf (clst = 1) .FR_INT_ERR
  abortIf (clst = 0xFFFFFFFF) .FR_DISK_ERR

def flush.write (fp : FIL) : Act δ Unit := do
  let r ← disk (D.disk_write fp.buf.toList fp.sect 1)
  abortIf (r ≠ .RES_OK) .FR_DISK_ERR
  setFil fun fp => { fp with FA_DIRTY := false }

/-- The dirty sector is written back. -/
def flush : Act δ Unit := do
  let fp ← fil
  if fp.FA_DIRTY then flush.write D fp else return

/-- A sector is read into the buffer. -/
def fill (sect : Nat) : Act δ Unit := do
  let x ← disk (D.disk_read sect 1)
  setFil fun fp => { fp with buf := filled fp.buf x.2 }
  abortIf (x.1 ≠ .RES_OK) .FR_DISK_ERR

/-- The current sector, which is the `csect`-th one of the cluster. -/
def sector (csect : Nat) : Act δ Nat := do
  let fp ← fil
  abortIf (clst2sect G fp.clust = 0) .FR_INT_ERR
  return clst2sect G fp.clust + csect

/-- As many sectors as there are in the cluster. -/
def clipped (csect cc : Nat) : Nat := if G.csize < csect + cc then G.csize - csect else cc

/-! ## Reading -/

def f_read.next : Act δ Nat := do
  let fp ← fil
  if fp.fptr = 0 then return fp.sclust else volume (get_fat G D fp.clust)

def f_read.cluster : Act δ Unit := do
  let clst ← f_read.next G D
  abortIf (clst < 2) .FR_INT_ERR
  abortIf (clst = 0xFFFFFFFF) .FR_DISK_ERR
  setFil fun fp => { fp with clust := clst }

/-- On the cluster boundary the next cluster is followed to. -/
def f_read.advance (csect : Nat) : Act δ Unit :=
  if csect = 0 then f_read.cluster G D else return

/-- The sector of the buffer, if it is dirty and has been read. -/
def f_read.cached (fp : FIL) (sect cc : Nat) (bytes : List UInt8) : List UInt8 :=
  let k := (fp.sect + 4294967296 - sect) % 4294967296
  if fp.FA_DIRTY ∧ k < cc then
    bytes.take (k * 512) ++ fp.buf.toList ++ bytes.drop (k * 512 + 512)
  else bytes

/-- Sectors are read directly. -/
def f_read.direct (sect cc : Nat) : Act δ (List UInt8) := do
  let x ← disk (D.disk_read sect cc)
  abortIf (x.1 ≠ .RES_OK) .FR_DISK_ERR
  return f_read.cached (← fil) sect cc x.2

/-- The sector is brought into the buffer. -/
def f_read.hold (sect : Nat) : Act δ Unit := do
  let fp ← fil
  if fp.sect ≠ sect then
    flush D
    fill D sect
  else return

def f_read.buffer (sect : Nat) : Act δ Unit := do
  f_read.hold D sect
  setFil fun fp => { fp with sect := sect }

/-- Bytes of the buffer. -/
def f_read.part (btr : Nat) : Act δ (List UInt8) := do
  let fp ← fil
  return (fp.buf.toList.drop (fp.fptr % 512)).take (min (512 - fp.fptr % 512) btr)

def f_read.transfer (csect sect btr : Nat) : Act δ (List UInt8) :=
  if 0 < btr / 512 then f_read.direct D sect (clipped G csect (btr / 512))
  else do
    f_read.buffer D sect
    f_read.part btr

/-- On the sector boundary. -/
def f_read.aligned (csect btr : Nat) : Act δ (List UInt8) := do
  f_read.advance G D csect
  let sect ← sector G csect
  f_read.transfer G D csect sect btr

/-- The bytes of one round. -/
def f_read.round (btr : Nat) : Act δ (List UInt8) := do
  let fp ← fil
  if fp.fptr % 512 = 0 then f_read.aligned G D (fp.fptr / 512 &&& (G.csize - 1)) btr
  else f_read.part btr

/-- What a round leads to; `rest` are the rounds that follow. -/
def f_read.go (btr : Nat) (rest : Nat → StateM (Opened δ) (Option (FRESULT × List UInt8))) :
    Except (Option FRESULT) (List UInt8) → StateM (Opened δ) (Option (FRESULT × List UInt8))
  | .error res => return res.map fun res => (res, [])
  | .ok bytes => do
    modify fun s => { s with fp := { s.fp with fptr := s.fp.fptr + bytes.length } }
    let r ← rest (btr - bytes.length)
    return r.map fun x => (x.1, bytes ++ x.2)

def f_read.loop : Nat → Nat → StateM (Opened δ) (Option (FRESULT × List UInt8))
  | 0, _ => return none
  | fuel + 1, btr =>
    if btr = 0 then return some (.FR_OK, [])
    else do
      let r ← ExceptT.run (f_read.round G D btr)
      f_read.go btr (f_read.loop fuel) r

/-- The bytes that have been read are those of `*br`. -/
def f_read (btr : Nat) : StateM (Opened δ) (Option (FRESULT × List UInt8)) := do
  let fp := (← get).fp
  if fp.err ≠ .FR_OK then return some (fp.err, [])
  if ¬fp.FA_READ then return some (.FR_DENIED, [])
  let remain := (fp.objsize + 4294967296 - fp.fptr) % 4294967296
  f_read.loop G D (min btr remain + 1) (min btr remain)

/-! ## Writing -/

def f_write.next : Act δ Nat := do
  let fp ← fil
  if fp.fptr = 0 then
    if fp.sclust = 0 then chain G D 0 else return fp.sclust
  else chain G D fp.clust

/-- The current cluster is set. -/
def f_write.enter (clst : Nat) : Act δ Bool := do
  checked clst
  setFil fun fp => { fp with clust := clst, sclust := if fp.sclust = 0 then clst else fp.sclust }
  return true

/-- `false` if the volume is full. -/
def f_write.cluster : Act δ Bool := do
  let clst ← f_write.next G D
  if clst = 0 then return false else f_write.enter clst

def f_write.advance (csect : Nat) : Act δ Bool :=
  if csect = 0 then f_write.cluster G D else return true

/-- The buffer, if its sector has been written directly. -/
def f_write.refill (sect cc : Nat) (wbuff : List UInt8) (fp : FIL) : FIL :=
  let k := (fp.sect + 4294967296 - sect) % 4294967296
  if k < cc then { fp with buf := Card.received (wbuff.drop (k * 512)), FA_DIRTY := false } else fp

/-- Sectors are written directly. -/
def f_write.direct (sect cc : Nat) (wbuff : List UInt8) : Act δ Nat := do
  let r ← disk (D.disk_write wbuff sect cc)
  abortIf (r ≠ .RES_OK) .FR_DISK_ERR
  setFil (f_write.refill sect cc wbuff)
  return 512 * cc

/-- The sector is brought into the buffer, unless it is behind the end of the file. -/
def f_write.hold (sect : Nat) : Act δ Unit := do
  let fp ← fil
  if fp.sect ≠ sect ∧ fp.fptr < fp.objsize then fill D sect else return

def f_write.buffer (sect : Nat) : Act δ Unit := do
  f_write.hold D sect
  setFil fun fp => { fp with sect := sect }

/-- Bytes go into the buffer. -/
def f_write.part (wbuff : List UInt8) : Act δ Nat := do
  let fp ← fil
  let wcnt := min (512 - fp.fptr % 512) wbuff.length
  setFil fun fp => { fp with buf := splice fp.buf (fp.fptr % 512) (wbuff.take wcnt), FA_DIRTY := true }
  return wcnt

def f_write.transfer (csect sect : Nat) (wbuff : List UInt8) : Act δ Nat :=
  if 0 < wbuff.length / 512 then f_write.direct D sect (clipped G csect (wbuff.length / 512)) wbuff
  else do
    f_write.buffer D sect
    f_write.part wbuff

def f_write.store (csect : Nat) (wbuff : List UInt8) : Act δ (Option Nat) := do
  flush D
  let sect ← sector G csect
  let wcnt ← f_write.transfer G D csect sect wbuff
  return some wcnt

/-- On the sector boundary. -/
def f_write.aligned (csect : Nat) (wbuff : List UInt8) : Act δ (Option Nat) := do
  let more ← f_write.advance G D csect
  if more then f_write.store G D csect wbuff else return none

/-- The number of bytes of one round; `none` if the volume is full. -/
def f_write.round (wbuff : List UInt8) : Act δ (Option Nat) := do
  let fp ← fil
  if fp.fptr % 512 = 0 then f_write.aligned G D (fp.fptr / 512 &&& (G.csize - 1)) wbuff
  else some <$> f_write.part wbuff

/-- All has been written that could be. -/
def f_write.finish : StateM (Opened δ) (Option (FRESULT × Nat)) := do
  modify fun s => { s with fp := { s.fp with FA_MODIFIED := true } }
  return some (.FR_OK, 0)

def f_write.moved (wcnt : Nat) (fp : FIL) : FIL :=
  { fp with fptr := fp.fptr + wcnt, objsize := max (fp.fptr + wcnt) fp.objsize }

def f_write.go (wbuff : List UInt8) (rest : List UInt8 → StateM (Opened δ) (Option (FRESULT × Nat))) :
    Except (Option FRESULT) (Option Nat) → StateM (Opened δ) (Option (FRESULT × Nat))
  | .error res => return res.map fun res => (res, 0)
  | .ok none => f_write.finish
  | .ok (some wcnt) => do
    modify fun s => { s with fp := f_write.moved wcnt s.fp }
    let r ← rest (wbuff.drop wcnt)
    return r.map fun x => (x.1, wcnt + x.2)

def f_write.loop : Nat → List UInt8 → StateM (Opened δ) (Option (FRESULT × Nat))
  | 0, _ => return none
  | fuel + 1, wbuff =>
    if wbuff = [] then f_write.finish
    else do
      let r ← ExceptT.run (f_write.round G D wbuff)
      f_write.go wbuff (f_write.loop fuel) r

/-- The number of bytes that have been written is `*bw`; a file has less than 4 GiB. -/
def f_write (buff : List UInt8) : StateM (Opened δ) (Option (FRESULT × Nat)) := do
  let fp := (← get).fp
  if fp.err ≠ .FR_OK then return some (fp.err, 0)
  if ¬fp.FA_WRITE then return some (.FR_DENIED, 0)
  let wbuff := if (fp.fptr + buff.length) % 4294967296 < fp.fptr then buff.take (0xFFFFFFFF - fp.fptr)
    else buff
  f_write.loop G D (wbuff.length + 1) wbuff

/-! ## Seeking -/

def f_lseek.valid (clst : Nat) : Act δ Unit := do
  abortIf (clst = 0xFFFFFFFF) .FR_DISK_ERR
  abortIf (clst ≤ 1 ∨ G.n_fatent ≤ clst) .FR_INT_ERR
  setFil fun fp => { fp with clust := clst }

/-- The next cluster, and a new one if need be; `none` if the volume is full. -/
def f_lseek.next (clst : Nat) : Act δ (Option Nat) := do
  let fp ← fil
  if fp.FA_WRITE then (fun clst => if clst = 0 then none else some clst) <$> chain G D clst
  else some <$> volume (get_fat G D clst)

/-- The loop that follows the clusters: the last one, and the offset in it. -/
def f_lseek.follow (bcs : Nat) : Nat → Nat → Nat → Act δ (Nat × Nat)
  | 0, _, _ => throw none
  | fuel + 1, clst, ofs =>
    if ofs ≤ bcs then return (clst, ofs)
    else do
      setFil fun fp => { fp with fptr := fp.fptr + bcs }
      match ← f_lseek.next G D clst with
      | none => return (0, 0)
      | some clst => do
        f_lseek.valid G clst
        f_lseek.follow bcs fuel clst (ofs - bcs)

/-- The first cluster. -/
def f_lseek.first : Act δ Nat := do
  let fp ← fil
  if fp.sclust = 0 then
    let clst ← chain G D 0
    checked clst
    setFil fun fp => { fp with sclust := clst }
    return clst
  else return fp.sclust

/-- From the first cluster on. -/
def f_lseek.back (ofs : Nat) : Act δ (Nat × Nat) := do
  let clst ← f_lseek.first G D
  setFil fun fp => { fp with clust := clst }
  return (clst, ofs)

/-- From the current cluster on, if that is not too far. -/
def f_lseek.start (bcs ofs ifptr : Nat) : Act δ (Nat × Nat) :=
  if 0 < ifptr ∧ (ifptr - 1) / bcs ≤ (ofs - 1) / bcs then do
    let fptr := (ifptr - 1) &&& (4294967295 - (bcs - 1))
    setFil fun fp => { fp with fptr := fptr }
    return ((← fil).clust, ofs - fptr)
  else f_lseek.back G D ofs

/-- The sector of the offset, 0 if it is on the boundary. -/
def f_lseek.locate (clst ofs : Nat) : Act δ Nat := do
  setFil fun fp => { fp with fptr := fp.fptr + ofs }
  if ofs % 512 ≠ 0 then
    abortIf (clst2sect G clst = 0) .FR_INT_ERR
    return clst2sect G clst + ofs / 512
  else return 0

def f_lseek.reach (bcs : Nat) (start : Nat × Nat) : Act δ Nat :=
  if start.1 = 0 then return 0
  else do
    let x ← f_lseek.follow G D bcs (start.2 / bcs + 1) start.1 start.2
    f_lseek.locate G x.1 x.2

def f_lseek.move (ofs ifptr : Nat) : Act δ Nat :=
  if 0 < ofs then do
    let start ← f_lseek.start G D (G.csize * 512) ofs ifptr
    f_lseek.reach G D (G.csize * 512) start
  else return 0

/-- The size is extended. -/
def f_lseek.extend (fp : FIL) : FIL :=
  if fp.objsize < fp.fptr then { fp with objsize := fp.fptr, FA_MODIFIED := true } else fp

def f_lseek.buffer (nsect : Nat) : Act δ Unit := do
  let fp ← fil
  if fp.fptr % 512 ≠ 0 ∧ nsect ≠ fp.sect then
    flush D
    fill D nsect
    setFil fun fp => { fp with sect := nsect }
  else return

def f_lseek.seek (ofs : Nat) : Act δ Unit := do
  let fp ← fil
  setFil fun fp => { fp with fptr := 0 }
  let nsect ← f_lseek.move G D (if fp.objsize < ofs ∧ ¬fp.FA_WRITE then fp.objsize else ofs) fp.fptr
  setFil f_lseek.extend
  f_lseek.buffer D nsect

/-- The result of what a function has done. -/
def result : Except (Option FRESULT) Unit → Option FRESULT
  | .ok () => some .FR_OK
  | .error res => res

def f_lseek (ofs : Nat) : StateM (Opened δ) (Option FRESULT) := do
  let fp := (← get).fp
  if fp.err ≠ .FR_OK then return some fp.err
  let r ← ExceptT.run (f_lseek.seek G D ofs)
  return result r

/-! ## Truncating -/

/-- All clusters are removed. -/
def f_truncate.all : StateM (Opened δ) (Option FRESULT) := do
  let fp := (← get).fp
  let res ← onVolume (remove_chain G D fp.sclust 0)
  modify fun s => { s with fp := { s.fp with sclust := 0 } }
  return res

/-- The clusters behind the current one are removed. -/
def f_truncate.behind (clust ncl : Nat) : StateM (Opened δ) (Option FRESULT) :=
  if ncl = 0xFFFFFFFF then return some .FR_DISK_ERR
  else if ncl = 1 then return some .FR_INT_ERR
  else if ncl < G.n_fatent then onVolume (remove_chain G D ncl clust)
  else return some .FR_OK

def f_truncate.rest : StateM (Opened δ) (Option FRESULT) := do
  let fp := (← get).fp
  let ncl ← onVolume (get_fat G D fp.clust)
  f_truncate.behind G D fp.clust ncl

def f_truncate.chain : StateM (Opened δ) (Option FRESULT) := do
  let fp := (← get).fp
  if fp.fptr = 0 then f_truncate.all G D else f_truncate.rest G D

/-- The size is set, and the buffer written back. -/
def f_truncate.finish (res : Option FRESULT) : StateM (Opened δ) (Option FRESULT) := do
  modify fun s => { s with fp := { s.fp with objsize := s.fp.fptr, FA_MODIFIED := true } }
  if res = some .FR_OK then
    let r ← ExceptT.run (flush D)
    return result r
  else do
    modify fun s => { s with fp := { s.fp with err := res.getD s.fp.err } }
    return res

def f_truncate.cut : StateM (Opened δ) (Option FRESULT) := do
  let res ← f_truncate.chain G D
  f_truncate.finish D res

def f_truncate : StateM (Opened δ) (Option FRESULT) := do
  let fp := (← get).fp
  if fp.err ≠ .FR_OK then return some fp.err
  if ¬fp.FA_WRITE then return some .FR_DENIED
  if fp.fptr < fp.objsize then f_truncate.cut G D else return some .FR_OK

/-! ## The directory entry -/

def ld_clust (win : Block) (dir : Nat) : Nat :=
  if G.fs_type = .FS_FAT32 then ld_word win (dir + 26) ||| ld_word win (dir + 20) <<< 16
  else ld_word win (dir + 26)

def st_clust (win : Block) (dir cl : Nat) : Block :=
  if G.fs_type = .FS_FAT32 then st_word (st_word win (dir + 26) cl) (dir + 20) (cl >>> 16)
  else st_word win (dir + 26) cl

/-- The directory entry of a file that has been changed. -/
def f_sync.entry (fp : FIL) (tm : Nat) (win : Block) : Block :=
  let win := setByte win (fp.dir_ptr + 11) (byte win (fp.dir_ptr + 11) ||| (0x20 : UInt8))
  let win := st_clust G win fp.dir_ptr fp.sclust
  let win := st_dword win (fp.dir_ptr + 28) fp.objsize
  let win := st_dword win (fp.dir_ptr + 22) tm
  st_word win (fp.dir_ptr + 18) 0

/-- It is written, and the volume is synchronised. -/
def f_sync.update (tm : Nat) (fp : FIL) : StateM (FATFS δ) (FRESULT × Bool) := do
  let res ← move_window G D fp.dir_sect
  if res ≠ .FR_OK then return (res, fp.FA_MODIFIED)
  edit (f_sync.entry G fp tm)
  let res ← sync_fs G D
  return (res, false)

def f_sync.modified (tm : Nat) : StateM (Opened δ) FRESULT := do
  let x ← onVolume (f_sync.update G D tm (← get).fp)
  modify fun s => { s with fp := { s.fp with FA_MODIFIED := x.2 } }
  return x.1

/-- The dirty sector is written back; an error leaves the file as it is. -/
def f_sync.flush : StateM (Opened δ) DRESULT := do
  let fp := (← get).fp
  if fp.FA_DIRTY then
    let r ← onVolume (onDisk (D.disk_write fp.buf.toList fp.sect 1))
    modify fun s => { s with fp := { s.fp with FA_DIRTY := if r = .RES_OK then false else true } }
    return r
  else return .RES_OK

/-- `tm` is what `GET_FATTIME` returns. -/
def f_sync (tm : Nat) : StateM (Opened δ) FRESULT := do
  let fp := (← get).fp
  if ¬fp.FA_MODIFIED then return .FR_OK
  let r ← f_sync.flush D
  if r ≠ .RES_OK then return .FR_DISK_ERR
  f_sync.modified G D tm

/-- The file that its directory entry describes, as `f_open` sets it up. -/
def f_open.entry (win : Block) (dir_sect dir_ptr : Nat) (FA_READ FA_WRITE : Bool) : FIL where
  sclust := ld_clust G win dir_ptr
  objsize := ld_dword win (dir_ptr + 28)
  FA_READ := FA_READ
  FA_WRITE := FA_WRITE
  FA_MODIFIED := false
  FA_DIRTY := false
  err := .FR_OK
  fptr := 0
  clust := 0
  sect := 0
  dir_sect := dir_sect
  dir_ptr := dir_ptr
  buf := Vector.replicate 512 0

end Functions

end Miso.Fat
