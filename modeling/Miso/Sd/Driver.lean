import Mathlib.Data.List.Basic

/-!
# The SD card driver (`sdmm.c`)

The layer under FatFs: commands and data blocks over the SPI bus.

* `Bus` — whatever is connected to the bus: it takes a byte and gives a byte;
* `Sdmm` — the variables of the driver, the CS# pin, the SPI driver and the transfers so far;
* `send_cmd`, `rcvr_datablock`, `xmit_datablock` — the transfers of a command and of a block;
* `disk_initialize`, `disk_status`, `disk_read`, `disk_write`, `disk_ioctl` — what FatFs calls;
* `Call`, `Event`, `runs` — any number of calls, with any exchange of the card between them.
-/

namespace Miso.Sd

/-! ## The bus -/

/-- What is connected to the SPI bus; it sees whether CS# is low. -/
structure Bus (σ : Type) where
  exchange : Bool → UInt8 → σ → UInt8 × σ
  IsInserted : σ → Bool

/-- The answers to the bytes that are clocked out. -/
def Bus.clock {σ : Type} (B : Bus σ) (selected : Bool) : List UInt8 → σ → List UInt8 × σ
  | [], c => ([], c)
  | b :: bytes, c =>
    ((B.exchange selected b c).1 :: (B.clock selected bytes (B.exchange selected b c).2).1,
      (B.clock selected bytes (B.exchange selected b c).2).2)

inductive Rate where
  | wakeup
  | fast
  deriving DecidableEq, Repr

inductive Direction where
  | tx
  | rx
  deriving DecidableEq, Repr

/-- A transfer of the SPI driver, which has no bit rate while it is not initialised. -/
structure Transfer where
  direction : Direction
  selected : Bool
  rate : Option Rate
  bytes : List UInt8
  deriving DecidableEq, Repr

/-- The driver and the card. -/
structure Sdmm (σ : Type) where
  Stat : UInt8
  CardType : UInt8
  /-- CS# is low. -/
  selected : Bool
  rate : Option Rate
  card : σ
  log : List Transfer

/-! ## Constants -/

def CMD0 : UInt8 := 0
def CMD1 : UInt8 := 1
def ACMD41 : UInt8 := 0x80 + 41
def CMD8 : UInt8 := 8
def CMD9 : UInt8 := 9
def CMD12 : UInt8 := 12
def CMD16 : UInt8 := 16
def CMD17 : UInt8 := 17
def CMD18 : UInt8 := 18
def ACMD23 : UInt8 := 0x80 + 23
def CMD24 : UInt8 := 24
def CMD25 : UInt8 := 25
def CMD55 : UInt8 := 55
def CMD58 : UInt8 := 58

def CT_MMC3 : UInt8 := 0x01
def CT_SDC2 : UInt8 := 0x08
def CT_SDC : UInt8 := 0x0C
def CT_BLOCK : UInt8 := 0x10

def STA_NOINIT : UInt8 := 0x01
def STA_NODISK : UInt8 := 0x02

def CTRL_SYNC : UInt8 := 0
def GET_SECTOR_COUNT : UInt8 := 1
def GET_BLOCK_SIZE : UInt8 := 3

inductive DRESULT where
  | RES_OK
  | RES_ERROR
  | RES_WRPRT
  | RES_NOTRDY
  | RES_PARERR
  deriving DecidableEq, Repr

/-- The number of a `DRESULT`, for `disk_initialize`, which returns one as a status. -/
def DRESULT.toByte : DRESULT → UInt8
  | RES_OK => 0
  | RES_ERROR => 1
  | RES_WRPRT => 2
  | RES_NOTRDY => 3
  | RES_PARERR => 4

section Functions

variable {σ : Type} (B : Bus σ)

/-! ## The board -/

def CS_H : StateM (Sdmm σ) Unit := modify fun d => { d with selected := false }

def CS_L : StateM (Sdmm σ) Unit := modify fun d => { d with selected := true }

/-- `SPIDRV_Init`. -/
def BOARD_SD_Card_Enable : StateM (Sdmm σ) Unit := modify fun d => { d with rate := some .wakeup }

/-- `SPIDRV_DeInit`; the pins are released. -/
def BOARD_SD_Card_Disable : StateM (Sdmm σ) Unit :=
  modify fun d => { d with rate := none, selected := false }

/-- The CS# pin is driven high. -/
def BOARD_SD_Card_Init : StateM (Sdmm σ) Unit := modify fun d => { d with selected := false }

def BOARD_SD_CARD_SetFastBaudrate : StateM (Sdmm σ) Unit :=
  modify fun d => { d with rate := d.rate.map fun _ => .fast }

/-- `BOARD_SD_CARD_Send`. -/
def xmit_mmc (buff : List UInt8) : StateM (Sdmm σ) Unit := modify fun d =>
  { d with
    card := (B.clock d.selected buff d.card).2
    log := d.log ++ [⟨.tx, d.selected, d.rate, buff⟩] }

/-- `BOARD_SD_CARD_Recieve`, which clocks out `dummyTxValue`. -/
def rcvr_mmc (bc : Nat) : StateM (Sdmm σ) (List UInt8) := fun d =>
  ((B.clock d.selected (List.replicate bc 0xFF) d.card).1,
    { d with
      card := (B.clock d.selected (List.replicate bc 0xFF) d.card).2
      log := d.log ++
        [⟨.rx, d.selected, d.rate, (B.clock d.selected (List.replicate bc 0xFF) d.card).1⟩] })

/-- One byte. -/
def rcvr_byte : StateM (Sdmm σ) UInt8 := do
  let d ← rcvr_mmc B 1
  return d.headD 0xFF

/-! ## Commands and blocks -/

def wait_ready.loop : Nat → StateM (Sdmm σ) Bool
  | 0 => return false
  | tmr + 1 => do
    let d ← rcvr_byte B
    if d = 0xFF then return true
    wait_ready.loop tmr

def wait_ready : StateM (Sdmm σ) Bool := wait_ready.loop B 5000

def deselect : StateM (Sdmm σ) Unit := do
  CS_H
  let _ ← rcvr_byte B

def select : StateM (Sdmm σ) Bool := do
  CS_L
  let _ ← rcvr_byte B
  if ← wait_ready B then return true
  deselect B
  return false

/-- What has been received when the wait for a data packet ends. -/
def rcvr_datablock.token : Nat → StateM (Sdmm σ) UInt8
  | 0 => return 0xFF
  | tmr + 1 => do
    let d ← rcvr_byte B
    if d ≠ 0xFF then return d
    rcvr_datablock.token tmr

/-- The `btr` bytes that are stored, if the function returns 1. -/
def rcvr_datablock (btr : Nat) : StateM (Sdmm σ) (Option (List UInt8)) := do
  let d ← rcvr_datablock.token B 1000
  if d ≠ 0xFE then return none
  let buff ← rcvr_mmc B btr
  let _ ← rcvr_mmc B 2
  return some buff

/-- `buff` is what the pointer points to. -/
def xmit_datablock (buff : List UInt8) (token : UInt8) : StateM (Sdmm σ) Bool := do
  if !(← wait_ready B) then return false
  xmit_mmc B [token]
  if token ≠ 0xFD then
    xmit_mmc B (buff.take 512)
    let _ ← rcvr_mmc B 2
    let d ← rcvr_byte B
    if d &&& 0x1F ≠ 0x05 then return false
  return true

/-- The six bytes of a command. -/
def send_cmd.packet (cmd : UInt8) (arg : UInt32) : List UInt8 :=
  [0x40 ||| cmd, (arg >>> 24).toUInt8, (arg >>> 16).toUInt8, (arg >>> 8).toUInt8, arg.toUInt8,
    if cmd = CMD8 then 0x87 else if cmd = CMD0 then 0x95 else 0x01]

/-- The wait for a response, with `n` more attempts after the next one. -/
def send_cmd.response : Nat → StateM (Sdmm σ) UInt8
  | 0 => rcvr_byte B
  | n + 1 => do
    let d ← rcvr_byte B
    if d &&& 0x80 = 0 then return d
    send_cmd.response n

/-- The card is selected and ready, except to stop a multiple block read. -/
def send_cmd.ready (cmd : UInt8) : StateM (Sdmm σ) Bool :=
  if cmd = CMD12 then return true
  else do
    deselect B
    select B

/-- A stuff byte is skipped when a read is stopped. -/
def send_cmd.stuff (cmd : UInt8) : StateM (Sdmm σ) UInt8 :=
  if cmd = CMD12 then rcvr_byte B else return 0xFF

/-- `send_cmd` of a command that is not preceded by `CMD55`. -/
def send_cmd.single (cmd : UInt8) (arg : UInt32) : StateM (Sdmm σ) UInt8 := do
  if !(← send_cmd.ready B cmd) then return 0xFF
  xmit_mmc B (send_cmd.packet cmd arg)
  let _ ← send_cmd.stuff B cmd
  send_cmd.response B 9

def send_cmd (cmd : UInt8) (arg : UInt32) : StateM (Sdmm σ) UInt8 := do
  if cmd &&& 0x80 ≠ 0 then
    let n ← send_cmd.single B CMD55 0
    if n > 1 then return n
    send_cmd.single B (cmd &&& 0x7F) arg
  else send_cmd.single B cmd arg

/-! ## The functions of `diskio.h` -/

/-- `Stat` at the end of `disk_status`. -/
def disk_status.next (drv : UInt8) (inserted : Bool) (Stat : UInt8) : UInt8 :=
  let Stat := if drv ≠ 0 then Stat ||| STA_NOINIT else Stat
  if inserted then Stat &&& ~~~STA_NODISK else Stat ||| STA_NODISK

def disk_status (drv : UInt8) : StateM (Sdmm σ) UInt8 := fun d =>
  (disk_status.next drv (B.IsInserted d.card) d.Stat,
    { d with Stat := disk_status.next drv (B.IsInserted d.card) d.Stat })

def disk_disable : StateM (Sdmm σ) UInt8 := do
  BOARD_SD_Card_Disable
  BOARD_SD_Card_Init
  disk_status B 0

/-- The wait for leaving the idle state, and whether time was left. -/
def leave_idle (cmd : UInt8) (arg : UInt32) : Nat → StateM (Sdmm σ) Bool
  | 0 => return false
  | tmr + 1 => do
    if (← send_cmd B cmd arg) = 0 then return true
    leave_idle cmd arg tmr

/-- An SD card of version 2. -/
def card_type.version2 : StateM (Sdmm σ) UInt8 := do
  let buf ← rcvr_mmc B 4
  if ¬(buf.getD 2 0 = 0x01 ∧ buf.getD 3 0 = 0xAA) then return 0
  if !(← leave_idle B ACMD41 0x40000000 1000) then return 0
  if (← send_cmd B CMD58 0) ≠ 0 then return 0
  let buf ← rcvr_mmc B 4
  return if buf.getD 0 0 &&& 0x40 ≠ 0 then CT_SDC2 ||| CT_BLOCK else CT_SDC2

/-- An SD card of version 1, or an MMC card, which is of type `ty` and leaves the idle state on
`cmd`. -/
def card_type.old (ty cmd : UInt8) : StateM (Sdmm σ) UInt8 := do
  if !(← leave_idle B cmd 0 1000) then return 0
  if (← send_cmd B CMD16 512) ≠ 0 then return 0
  return ty

/-- The type of the card, or 0. -/
def card_type : StateM (Sdmm σ) UInt8 := do
  if (← send_cmd B CMD0 0) ≠ 1 then return 0
  if (← send_cmd B CMD8 0x1AA) = 1 then card_type.version2 B
  else if (← send_cmd B ACMD41 0) ≤ 1 then card_type.old B CT_SDC2 ACMD41
  else card_type.old B CT_MMC3 CMD1

/-- The pins and the SPI driver. -/
def enable : StateM (Sdmm σ) Unit := do
  CS_L
  CS_H
  BOARD_SD_Card_Enable

def disk_initialize (drv : UInt8) : StateM (Sdmm σ) UInt8 := do
  if drv ≠ 0 then return DRESULT.RES_NOTRDY.toByte
  if (← disk_status B drv) = 0 then return 0
  enable
  let _ ← rcvr_mmc B 10
  let ty ← card_type B
  let s := if ty ≠ 0 then 0 else STA_NOINIT
  modify fun d => { d with CardType := ty, Stat := s }
  deselect B
  if ty ≠ 0 then
    BOARD_SD_CARD_SetFastBaudrate
    return s
  disk_disable B

/-- The iterations of a `do … while (--count)` over a 32-bit counter. -/
def iterations (count : UInt32) : Nat := if count = 0 then 4294967296 else count.toNat

/-- The loop of `disk_read`: what is left of the counter, and what has been stored. -/
def disk_read.blocks : Nat → UInt32 → List UInt8 → StateM (Sdmm σ) (UInt32 × List UInt8)
  | 0, count, buff => return (count, buff)
  | n + 1, count, buff => do
    match ← rcvr_datablock B 512 with
    | none => return (count, buff)
    | some data => disk_read.blocks n (count - 1) (buff ++ data)

/-- The address of a sector. -/
def address (CardType : UInt8) (sector : UInt32) : UInt32 :=
  if CardType &&& CT_BLOCK = 0 then sector * 512 else sector

/-- The command of `disk_read` and what follows it. -/
def disk_read.transfer (cmd : UInt8) (sect count : UInt32) :
    StateM (Sdmm σ) (UInt32 × List UInt8) := do
  if (← send_cmd B cmd sect) ≠ 0 then return (count, [])
  let left ← disk_read.blocks B (iterations count) count []
  if cmd = CMD18 then
    let _ ← send_cmd B CMD12 0
  return left

/-- The result, and what has been stored behind `buff`. -/
def disk_read (drv : UInt8) (sector count : UInt32) :
    StateM (Sdmm σ) (DRESULT × List UInt8) := do
  if (← disk_status B drv) &&& STA_NOINIT ≠ 0 then return (.RES_NOTRDY, [])
  let sect := address (← get).CardType sector
  let left ← disk_read.transfer B (if 1 < count then CMD18 else CMD17) sect count
  deselect B
  return (if left.1 ≠ 0 then .RES_ERROR else .RES_OK, left.2)

/-- The loop of `disk_write`. -/
def disk_write.blocks : Nat → UInt32 → List UInt8 → StateM (Sdmm σ) UInt32
  | 0, count, _ => return count
  | n + 1, count, buff => do
    if !(← xmit_datablock B buff 0xFC) then return count
    disk_write.blocks n (count - 1) (buff.drop 512)

/-- A single block write: what is left of the counter. -/
def disk_write.one (buff : List UInt8) (sect count : UInt32) : StateM (Sdmm σ) UInt32 := do
  if (← send_cmd B CMD24 sect) ≠ 0 then return count
  if ← xmit_datablock B buff 0xFE then return 0
  return count

/-- The number of blocks is told to an SD card beforehand. -/
def disk_write.erase (CardType : UInt8) (count : UInt32) : StateM (Sdmm σ) Unit :=
  if CardType &&& CT_SDC ≠ 0 then do let _ ← send_cmd B ACMD23 count else return

/-- A multiple block write. -/
def disk_write.many (buff : List UInt8) (sect count : UInt32) : StateM (Sdmm σ) UInt32 := do
  disk_write.erase B (← get).CardType count
  if (← send_cmd B CMD25 sect) ≠ 0 then return count
  let left ← disk_write.blocks B (iterations count) count buff
  if ← xmit_datablock B [] 0xFD then return left
  return 1

def disk_write.transfer (buff : List UInt8) (sect count : UInt32) : StateM (Sdmm σ) UInt32 :=
  if count = 1 then disk_write.one B buff sect count else disk_write.many B buff sect count

def disk_write (drv : UInt8) (buff : List UInt8) (sector count : UInt32) :
    StateM (Sdmm σ) DRESULT := do
  if (← disk_status B drv) &&& STA_NOINIT ≠ 0 then return .RES_NOTRDY
  let sect := address (← get).CardType sector
  let left ← disk_write.transfer B buff sect count
  deselect B
  return if left ≠ 0 then .RES_ERROR else .RES_OK

/-- `GET_SECTOR_COUNT`: the number of sectors that a CSD tells. -/
def sectors (csd : List UInt8) : UInt32 :=
  let byte (i : Nat) : UInt32 := (csd.getD i 0).toUInt32
  if byte 0 >>> 6 = 1 then (byte 9 + (byte 8 <<< 8) + ((byte 7 &&& 63) <<< 16) + 1) <<< 10
  else
    let READ_BL_LEN : UInt32 := byte 5 &&& 15
    let C_SIZE_MULT : UInt32 := ((byte 10 &&& 128) >>> 7) + ((byte 9 &&& 3) <<< 1)
    let n := READ_BL_LEN + C_SIZE_MULT + 2
    ((byte 8 >>> 6) + (byte 7 <<< 2) + ((byte 6 &&& 3) <<< 10) + 1) <<< (n - 9)

/-- The `switch` of `disk_ioctl`. -/
def disk_ioctl.request (ctrl : UInt8) : StateM (Sdmm σ) (DRESULT × Option UInt32) := do
  if ctrl = CTRL_SYNC then
    return (if ← select B then .RES_OK else .RES_ERROR, none)
  if ctrl = GET_SECTOR_COUNT then
    if (← send_cmd B CMD9 0) ≠ 0 then return (.RES_ERROR, none)
    match ← rcvr_datablock B 16 with
    | none => return (.RES_ERROR, none)
    | some csd => return (.RES_OK, some (sectors csd))
  if ctrl = GET_BLOCK_SIZE then
    return (.RES_OK, some 128)
  return (.RES_PARERR, none)

/-- The result, and the number that is stored, if one is. -/
def disk_ioctl (drv ctrl : UInt8) : StateM (Sdmm σ) (DRESULT × Option UInt32) := do
  if (← disk_status B drv) &&& STA_NOINIT ≠ 0 then return (.RES_NOTRDY, none)
  let res ← disk_ioctl.request B ctrl
  deselect B
  return res

/-! ## Runs -/

/-- A call of FatFs. -/
inductive Call where
  | status (drv : UInt8)
  | init (drv : UInt8)
  | read (drv : UInt8) (sector count : UInt32)
  | write (drv : UInt8) (buff : List UInt8) (sector count : UInt32)
  | ioctl (drv ctrl : UInt8)
  deriving DecidableEq, Repr

/-- What a call returns, with what it has stored. -/
inductive Answer where
  | status (Stat : UInt8)
  | data (res : DRESULT) (buff : List UInt8)
  | result (res : DRESULT)
  | number (res : DRESULT) (value : Option UInt32)
  deriving DecidableEq, Repr

def Call.run : Call → StateM (Sdmm σ) Answer
  | status drv => do return .status (← disk_status B drv)
  | init drv => do return .status (← disk_initialize B drv)
  | read drv sector count => do
    let x ← disk_read B drv sector count
    return .data x.1 x.2
  | write drv buff sector count => do return .result (← disk_write B drv buff sector count)
  | ioctl drv ctrl => do
    let x ← disk_ioctl B drv ctrl
    return .number x.1 x.2

/-- A call, or what happens to the card between two calls. -/
inductive Event (σ : Type) where
  | call (c : Call)
  | card (c : σ)

def Event.run : Event σ → Sdmm σ → Sdmm σ
  | call c, d => (c.run B d).2
  | card c, d => { d with card := c }

end Functions

/-- Before the first call. -/
def Sdmm.start {σ : Type} (c : σ) : Sdmm σ := ⟨STA_NOINIT, 0, false, none, c, []⟩

/-- Any number of calls. -/
def runs {σ : Type} (B : Bus σ) (c : σ) (events : List (Event σ)) : Sdmm σ :=
  events.foldl (fun d e => e.run B d) (.start c)

end Miso.Sd
