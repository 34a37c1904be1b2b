import Mathlib.Logic.Function.Basic
import Mathlib.Tactic.Common
import Miso.Sd.Csd
import Miso.Sd.Driver

/-!
# An SD card

What the driver expects to find on the bus: a card of version 2 of the SD specification, in SPI
mode.

* `Kind` — what does not change: the capacity, the registers, and how long the card takes;
* `Card.execute` — a command; `Card.exchange` — a byte in and a byte out;
* `clock_out`, `clock_packet`, `clock_data` — the bytes of an answer, of a command and of a block.
-/

namespace Miso.Sd

/-- The contents of a sector. -/
abbrev Block := Vector UInt8 512

/-- A card, which answers while the driver is still waiting. -/
structure Kind where
  capacity : Nat
  /-- Sectors are addressed, not bytes. -/
  high : Bool
  csd : Vector UInt8 16
  crc : List UInt8 → UInt8 × UInt8
  /-- The bytes before the next response, before the next data block, and while it is busy. -/
  response : Nat → Nat
  access : Nat → Nat
  busy : Nat → Nat
  /-- The times that the card is asked to leave the idle state in vain. -/
  startup : Nat
  csd_tells : Tells csd.toList capacity
  capacity_lt : capacity < 2 ^ 32
  /-- Bytes are addressed by 32 bits. -/
  capacity_le : high = false → capacity * 512 ≤ 4294967296
  response_lt : ∀ k, response k < 10
  access_lt : ∀ k, access k < 1000
  busy_lt : ∀ k, busy k < 5000
  startup_lt : startup < 1000

/-- A data block, with its start token and its CRC. -/
def Kind.packet (K : Kind) (tick : Nat) (bytes : List UInt8) : List UInt8 :=
  List.replicate (K.access tick) 0xFF ++ 0xFE :: (bytes ++ [(K.crc bytes).1, (K.crc bytes).2])

inductive Mode where
  /-- A command is expected. -/
  | command
  /-- The block `a` and those behind it are sent until a command comes. -/
  | reading (a : Nat)
  /-- The start of the block `a` is expected, and of further ones. -/
  | token (a : Nat) (many : Bool)
  /-- The block `a` is being received. -/
  | data (a : Nat) (many : Bool)
  deriving DecidableEq

/-- No block is being received. -/
def Mode.listens : Mode → Bool
  | data _ _ => false
  | _ => true

/-- Commands are expected, also while blocks are being sent. -/
def Mode.commands : Mode → Bool
  | command => true
  | reading _ => true
  | _ => false

/-- No blocks are being sent, either. -/
def Mode.waits : Mode → Bool
  | command => true
  | token _ _ => true
  | _ => false

structure Card where
  blocks : Nat → Block
  mode : Mode
  /-- What is sent next. -/
  out : List UInt8
  /-- What has been received of a command or of a block. -/
  frame : List UInt8
  /-- The bytes without CS# that are needed before the first command. -/
  asleep : Nat
  idle : Bool
  /-- The last command was `CMD55`. -/
  app : Bool
  startup : Nat
  tick : Nat

namespace Card

variable (K : Kind) (c : Card)

/-- The sector of an address, if there is one. -/
def sector (arg : Nat) : Option Nat :=
  if K.high then if arg < K.capacity then some arg else none
  else if arg % 512 = 0 ∧ arg / 512 < K.capacity then some (arg / 512) else none

/-- What is sent behind a command. -/
def answer (bytes : List UInt8) : Card :=
  { c with out := List.replicate (K.response c.tick) 0xFF ++ bytes }

/-- A command that needs a sector. -/
def withSector (arg : Nat) (f : Nat → Card) : Card :=
  if c.idle then c.answer K [0x05] else
  match sector K arg with
  | some a => f a
  | none => c.answer K [0x40]

/-- The answer to a command, in the state `c` between two commands. -/
def respond (cmd : UInt8) (arg : Nat) : Card :=
  let r := if c.idle then 0x01 else 0x00
  if cmd = CMD0 then { c with idle := true }.answer K [0x01]
  else if cmd = CMD8 then
    c.answer K [r, 0, 0, UInt8.ofNat (arg / 256 % 16), UInt8.ofNat (arg % 256)]
  else if cmd = CMD55 then { c with app := true }.answer K [r]
  else if c.app ∧ cmd = 41 then
    if c.startup = 0 then { c with idle := false }.answer K [0x00]
    else { c with startup := c.startup - 1 }.answer K [0x01]
  else if cmd = CMD58 then c.answer K [r, if K.high then 0xC0 else 0x80, 0xFF, 0x80, 0x00]
  else if cmd = CMD9 ∧ !c.idle then c.answer K ([0x00] ++ K.packet c.tick K.csd.toList)
  else if c.app ∧ cmd = 23 then c.answer K [r]
  else if cmd = CMD17 then
    c.withSector K arg fun a => c.answer K ([0x00] ++ K.packet c.tick (c.blocks a).toList)
  else if cmd = CMD18 then
    c.withSector K arg fun a => { c with mode := .reading a }.answer K [0x00]
  else if cmd = CMD24 then
    c.withSector K arg fun a => { c with mode := .token a false }.answer K [0x00]
  else if cmd = CMD25 then
    c.withSector K arg fun a => { c with mode := .token a true }.answer K [0x00]
  else c.answer K [0x04 ||| r]

/-- The answer to `CMD12`: a stuff byte, the response, and the time until the card is ready. -/
def stop : Card :=
  { c with out := 0xFF :: (List.replicate (K.response c.tick) 0xFF ++
      0x00 :: List.replicate (K.busy c.tick) 0x00) }

/-- A command. -/
def execute (cmd : UInt8) (arg : Nat) : Card :=
  let c' := { c with mode := .command, out := [], frame := [], tick := c.tick + 1 }
  if cmd = CMD12 then { c'.stop K with app := false }
  else if cmd = CMD55 then c'.respond K cmd arg
  else { c'.respond K cmd arg with app := false }

/-- The next block is fetched when there is nothing else to send. -/
def refill : Card :=
  match c.mode with
  | .reading a =>
    if c.out ≠ [] then c
    else if a < K.capacity then
      { c with out := K.packet c.tick (c.blocks a).toList, mode := .reading (a + 1), tick := c.tick + 1 }
    else { c with out := [0x08] }
  | _ => c

/-- The block of the bytes that have been received. -/
def received (bytes : List UInt8) : Block := Vector.ofFn fun i => bytes.getD i.val 0

/-- The number that four bytes make up. -/
def number : List UInt8 → Nat
  | [a, b, c, d] => a.toNat * 16777216 + b.toNat * 65536 + c.toNat * 256 + d.toNat
  | _ => 0

/-- A byte of a command. -/
def takeCommand (b : UInt8) : Card :=
  if c.frame = [] then if b &&& 0xC0 = 0x40 then { c with frame := [b] } else c
  else if c.frame.length < 5 then { c with frame := c.frame ++ [b] }
  else c.execute K (c.frame.headD 0 &&& 0x3F) (number c.frame.tail)

/-- A byte where the start of a block, or the end of the blocks, is expected. -/
def takeToken (a : Nat) (many : Bool) (b : UInt8) : Card :=
  if b = (if many then 0xFC else 0xFE) then { c with mode := .data a many }
  else if many ∧ b = 0xFD then
    { c with mode := .command, out := List.replicate (K.busy c.tick) 0x00, tick := c.tick + 1 }
  else c

/-- The end of a block: the data response, and the time until the card is ready. -/
def ended (many : Bool) (a : Nat) (response : UInt8) : Card :=
  { c with
    frame := []
    mode := if many then .token (a + 1) true else .command
    out := response :: List.replicate (K.busy c.tick) 0x00
    tick := c.tick + 1 }

/-- The bytes that have come in are stored. -/
def stored (a : Nat) (bytes : List UInt8) : Card :=
  { c with blocks := Function.update c.blocks a (received bytes) }

/-- A byte of a block or of its CRC. -/
def takeData (a : Nat) (many : Bool) (b : UInt8) : Card :=
  if c.frame.length < 513 then { c with frame := c.frame ++ [b] }
  else if a < K.capacity then (c.stored a c.frame).ended K many a 0x05
  else c.ended K many a 0x0D

/-- What becomes of a byte that comes in. -/
def take (b : UInt8) : Card :=
  match c.mode with
  | .command => c.takeCommand K b
  | .reading _ => c.takeCommand K b
  | .token a many => c.takeToken K a many b
  | .data a many => c.takeData K a many b

/-- A byte has been sent. -/
def sent : Card := { c with out := c.out.tail }

/-- Time has passed. -/
def ticked (tick : Nat) : Card := { c with tick := tick }

/-- Some bytes of the block `a` have come in. -/
def filling (a : Nat) (many : Bool) (frame : List UInt8) : Card :=
  { c with mode := .data a many, out := [], frame := frame }

/-- The card has something else to send. -/
def sending (out : List UInt8) : Card := { c with out := out }

/-- A byte in and a byte out. -/
def exchange (selected : Bool) (b : UInt8) : UInt8 × Card :=
  if selected then
    if c.asleep = 0 then ((c.refill K).out.headD 0xFF, (c.refill K).sent.take K b) else (0xFF, c)
  else (0xFF, { c with asleep := c.asleep - 1, frame := [] })

end Card

/-- The card is in its socket. -/
def Kind.bus (K : Kind) : Bus Card := ⟨fun selected b c => c.exchange K selected b, fun _ => true⟩

/-! ## Bytes of the card -/

namespace Card

/-- The card is awake, and nothing of a command or of a block has come in. -/
structure Calm (c : Card) : Prop where
  asleep : c.asleep = 0
  frame : c.frame = []

variable {K : Kind} {c : Card}

theorem sending_of_out {l : List UInt8} (h : c.out = l) : c.sending l = c := by
  subst h
  rfl

theorem Calm.sending (h : c.Calm) (l : List UInt8) : (c.sending l).Calm := ⟨h.asleep, h.frame⟩

theorem refill_of_out (h : c.out ≠ []) : c.refill K = c := by
  unfold refill
  cases c.mode with
  | reading a => exact if_pos h
  | command => rfl
  | token a many => rfl
  | data a many => rfl

theorem refill_of_waits (h : c.mode.waits = true) : c.refill K = c := by
  unfold refill
  cases hmode : c.mode with
  | reading a => rw [hmode] at h; cases h
  | command => rfl
  | token a many => rfl
  | data a many => rfl

/-- The next block while blocks are being sent. -/
theorem refill_reading {a : Nat} (hmode : c.mode = .reading a) (hout : c.out = [])
    (ha : a < K.capacity) : c.refill K =
      { c with out := K.packet c.tick (c.blocks a).toList, mode := .reading (a + 1),
               tick := c.tick + 1 } := by
  unfold refill
  rw [hmode]
  dsimp only
  rw [if_neg (not_not.mpr hout), if_pos ha]

theorem refill_beyond {a : Nat} (hmode : c.mode = .reading a) (hout : c.out = [])
    (ha : ¬a < K.capacity) : c.refill K = { c with out := [0x08] } := by
  unfold refill
  rw [hmode]
  dsimp only
  rw [if_neg (not_not.mpr hout), if_neg ha]

/-- Only what is sent, the next block and the time change. -/
theorem refill_eq : ∃ o m t, c.refill K = { c with out := o, mode := m, tick := t } ∧
    m.listens = c.mode.listens ∧ m.commands = c.mode.commands := by
  by_cases hread : ∃ a, c.mode = .reading a
  · obtain ⟨a, hm⟩ := hread
    by_cases hout : c.out = []
    · by_cases ha : a < K.capacity
      · exact ⟨_, _, _, refill_reading hm hout ha, by rw [hm]; rfl, by rw [hm]; rfl⟩
      · exact ⟨_, c.mode, c.tick, refill_beyond hm hout ha, rfl, rfl⟩
    · exact ⟨c.out, c.mode, c.tick, refill_of_out hout, rfl, rfl⟩
  · refine ⟨c.out, c.mode, c.tick, ?_, rfl, rfl⟩
    unfold refill
    cases hm : c.mode with
    | reading a => exact absurd ⟨a, hm⟩ hread
    | command => show c = _; rw [← hm]
    | token a many => show c = _; rw [← hm]
    | data a many => show c = _; rw [← hm]

theorem Calm.refill (h : c.Calm) : (c.refill K).Calm := by
  obtain ⟨o, m, t, heq, -⟩ := refill_eq (K := K) (c := c)
  rw [heq]
  exact ⟨h.asleep, h.frame⟩

theorem refill_listens (h : c.mode.listens = true) : (c.refill K).mode.listens = true := by
  obtain ⟨o, m, t, heq, hm, -⟩ := refill_eq (K := K) (c := c)
  rw [heq]
  exact hm.trans h

/-- A block is fetched before the next byte. -/
theorem exchange_refill (h : c.asleep = 0) (hout : (c.refill K).out ≠ []) (b : UInt8) :
    c.exchange K true b = (c.refill K).exchange K true b := by
  have hasleep : (c.refill K).asleep = 0 := by
    obtain ⟨o, m, t, heq, -⟩ := refill_eq (K := K) (c := c)
    rw [heq]
    exact h
  unfold exchange
  rw [if_pos rfl, if_pos h, if_pos rfl, if_pos hasleep, refill_of_out hout]

/-- `0xFF` is neither a command nor a token. -/
theorem take_ff (h : c.Calm) (hmode : c.mode.listens = true) : c.take K 0xFF = c := by
  have hcommand : c.takeCommand K 0xFF = c := by
    unfold takeCommand
    rw [if_pos h.frame, if_neg (by decide)]
  unfold take
  cases hm : c.mode with
  | reading a => exact hcommand
  | command => exact hcommand
  | token a many => cases many <;> rfl
  | data a many => rw [hm] at hmode; cases hmode

theorem exchange_out {x : UInt8} {l : List UInt8} (h : c.Calm) (hmode : c.mode.listens = true)
    (hout : c.out = x :: l) : c.exchange K true 0xFF = (x, c.sending l) := by
  have hsent : c.sent = c.sending l := by rw [sent, hout]; rfl
  have htake : (c.sending l).take K 0xFF = c.sending l := take_ff (h.sending l) hmode
  unfold exchange
  rw [if_pos rfl, if_pos h.asleep, refill_of_out (by rw [hout]; exact List.cons_ne_nil x l), hsent,
    htake, hout]
  rfl

theorem listens_of_waits {m : Mode} (h : m.waits = true) : m.listens = true := by
  cases m with
  | data a many => cases h
  | command => rfl
  | reading a => rfl
  | token a many => rfl

theorem exchange_empty (h : c.Calm) (hmode : c.mode.waits = true) (hout : c.out = []) :
    c.exchange K true 0xFF = (0xFF, c) := by
  have hsent : c.sent = c := by
    unfold sent
    rw [hout, List.tail_nil, ← hout]
  unfold exchange
  rw [if_pos rfl, if_pos h.asleep, refill_of_waits hmode, hsent, take_ff h (listens_of_waits hmode),
    hout]
  rfl

/-- The bytes that are sent. -/
theorem clock_out {l rest : List UInt8} (h : c.Calm) (hmode : c.mode.listens = true)
    (hout : c.out = l ++ rest) :
    K.bus.clock true (List.replicate l.length 0xFF) c = (l, c.sending rest) := by
  induction l generalizing c with
  | nil =>
    show ([], c) = _
    rw [sending_of_out (l := rest) hout]
  | cons x l ih =>
    have hx : c.exchange K true 0xFF = (x, c.sending (l ++ rest)) := exchange_out h hmode hout
    have hl := ih (h.sending (l ++ rest)) hmode rfl
    rw [List.length_cons, List.replicate_succ]
    show ((c.exchange K true 0xFF).1 :: (K.bus.clock true _ (c.exchange K true 0xFF).2).1,
      (K.bus.clock true _ (c.exchange K true 0xFF).2).2) = _
    rw [hx, hl]
    rfl

/-- A card that is not selected. -/
theorem exchange_deselected (h : c.Calm) (b : UInt8) : c.exchange K false b = (0xFF, c) := by
  have hsame : { c with asleep := c.asleep - 1, frame := [] } = c := by
    rw [h.asleep, ← h.frame]
    show { c with asleep := 0 } = c
    rw [← h.asleep]
  exact congrArg (Prod.mk 0xFF) hsame

/-! ### Commands -/

/-- A byte that comes in while commands are expected. -/
theorem exchange_command (b : UInt8) (hasleep : c.asleep = 0) (hmode : c.mode.commands = true) :
    ∃ o m t, m.commands = true ∧
      (c.exchange K true b).2 = { c with out := o, mode := m, tick := t }.takeCommand K b := by
  obtain ⟨o, m, t, hrefill, -, hm⟩ := refill_eq (K := K) (c := c)
  rw [hmode] at hm
  refine ⟨o.tail, m, t, hm, ?_⟩
  unfold exchange
  rw [if_pos rfl, if_pos hasleep, hrefill]
  cases m with
  | command => rfl
  | reading a => rfl
  | token a many => cases hm
  | data a many => cases hm

theorem takeCommand_start {b : UInt8} (h : c.frame = []) (hb : b &&& 0xC0 = 0x40) :
    c.takeCommand K b = { c with frame := [b] } := by
  unfold takeCommand
  rw [if_pos h, if_pos hb]

theorem takeCommand_more {b : UInt8} (h : c.frame ≠ []) (hlen : c.frame.length < 5) :
    c.takeCommand K b = { c with frame := c.frame ++ [b] } := by
  unfold takeCommand
  rw [if_neg h, if_pos hlen]

theorem takeCommand_last {b : UInt8} (hlen : c.frame.length = 5) :
    c.takeCommand K b = c.execute K (c.frame.headD 0 &&& 0x3F) (number c.frame.tail) := by
  have hne : c.frame ≠ [] := fun h => by
    rw [h] at hlen
    cases hlen
  unfold takeCommand
  rw [if_neg hne, if_neg (by omega)]

/-- The bytes of a command that are still missing. -/
theorem clock_rest {l : List UInt8} (hasleep : c.asleep = 0) (hmode : c.mode.commands = true)
    (hframe : c.frame ≠ []) (hlen : c.frame.length + l.length = 5) (last : UInt8) :
    ∃ t, (K.bus.clock true (l ++ [last]) c).2 = (c.ticked t).execute K
      ((c.frame ++ l).headD 0 &&& 0x3F) (number (c.frame ++ l).tail) := by
  induction l generalizing c with
  | nil =>
    obtain ⟨o, m, t, -, hrun⟩ := exchange_command (K := K) last hasleep hmode
    refine ⟨t, ?_⟩
    show (c.exchange K true last).2 = _
    rw [hrun, takeCommand_last (c := { c with out := o, mode := m, tick := t }) hlen, List.append_nil]
    rfl
  | cons b l ih =>
    obtain ⟨o, m, t, hm, hrun⟩ := exchange_command (K := K) b hasleep hmode
    rw [List.length_cons] at hlen
    rw [takeCommand_more (c := { c with out := o, mode := m, tick := t }) hframe
      (show c.frame.length < 5 by omega)] at hrun
    obtain ⟨t', hrest⟩ := ih (c := { c with out := o, mode := m, tick := t, frame := c.frame ++ [b] })
      hasleep hm (by simp) (by
        show (c.frame ++ [b]).length + l.length = 5
        rw [List.length_append, List.length_singleton]
        omega)
    refine ⟨t', ?_⟩
    show (K.bus.clock true (l ++ [last]) (c.exchange K true b).2).2 = _
    rw [hrun, hrest]
    show Card.execute K _ ((c.frame ++ [b] ++ l).headD 0 &&& 0x3F) (number (c.frame ++ [b] ++ l).tail) = _
    rw [List.append_assoc]
    rfl

theorem toNat_shiftRight_toUInt8 (arg n : UInt32) (hn : n.toNat < 32) :
    (arg >>> n).toUInt8.toNat = (arg.toNat >>> n.toNat) % 256 := by
  rw [UInt32.toNat_toUInt8, UInt32.toNat_shiftRight, Nat.mod_eq_of_lt hn]

/-- The four bytes of the argument. -/
theorem number_packet (arg : UInt32) : number [(arg >>> 24).toUInt8, (arg >>> 16).toUInt8,
    (arg >>> 8).toUInt8, arg.toUInt8] = arg.toNat := by
  have hlt := arg.toNat_lt
  have h24 : (arg >>> 24).toUInt8.toNat = arg.toNat / 16777216 % 256 :=
    (toNat_shiftRight_toUInt8 arg 24 (by decide)).trans (by
      rw [Nat.shiftRight_eq_div_pow]
      rfl)
  have h16 : (arg >>> 16).toUInt8.toNat = arg.toNat / 65536 % 256 :=
    (toNat_shiftRight_toUInt8 arg 16 (by decide)).trans (by
      rw [Nat.shiftRight_eq_div_pow]
      rfl)
  have h8 : (arg >>> 8).toUInt8.toNat = arg.toNat / 256 % 256 :=
    (toNat_shiftRight_toUInt8 arg 8 (by decide)).trans (by
      rw [Nat.shiftRight_eq_div_pow]
      rfl)
  have h0 : arg.toUInt8.toNat = arg.toNat % 256 := UInt32.toNat_toUInt8 arg
  show (arg >>> 24).toUInt8.toNat * 16777216 + (arg >>> 16).toUInt8.toNat * 65536 +
    (arg >>> 8).toUInt8.toNat * 256 + arg.toUInt8.toNat = arg.toNat
  rw [h24, h16, h8, h0]
  omega

/-- **A command has come in.** -/
theorem clock_packet {cmd : UInt8} (h : c.Calm) (hmode : c.mode.commands = true)
    (hstart : (0x40 ||| cmd) &&& 0xC0 = 0x40) (hcmd : (0x40 ||| cmd) &&& 0x3F = cmd) (arg : UInt32) :
    ∃ t, (K.bus.clock true (send_cmd.packet cmd arg) c).2 =
      (c.ticked t).execute K cmd arg.toNat := by
  obtain ⟨o, m, t, hm, hrun⟩ := exchange_command (K := K) (0x40 ||| cmd) h.asleep hmode
  rw [takeCommand_start (c := { c with out := o, mode := m, tick := t }) h.frame hstart] at hrun
  obtain ⟨t', hrest⟩ := clock_rest (K := K)
    (c := { c with out := o, mode := m, tick := t, frame := [0x40 ||| cmd] })
    (l := [(arg >>> 24).toUInt8, (arg >>> 16).toUInt8, (arg >>> 8).toUInt8, arg.toUInt8])
    h.asleep hm (List.cons_ne_nil _ _) rfl
    (if cmd = CMD8 then 0x87 else if cmd = CMD0 then 0x95 else 0x01)
  refine ⟨t', ?_⟩
  show (K.bus.clock true _ (c.exchange K true (0x40 ||| cmd)).2).2 = _
  rw [hrun]
  refine hrest.trans ?_
  show Card.execute K _ ((0x40 ||| cmd) &&& 0x3F) (number [_, _, _, _]) = _
  rw [hcmd, number_packet]
  rfl

/-- The card behind a command that it has answered. -/
def answered (K : Kind) (c : Card) (mode : Mode) (app : Bool) (bytes : List UInt8) : Card :=
  { c with
    mode := mode
    out := List.replicate (K.response (c.tick + 1)) 0xFF ++ bytes
    frame := []
    app := app
    tick := c.tick + 1 }

section Execute

variable {n a : Nat}

theorem execute_read (hidle : c.idle = false) (hsector : sector K n = some a) :
    c.execute K CMD17 n = c.answered K .command false (0x00 :: K.packet (c.tick + 1) (c.blocks a).toList) := by
  simp [execute, respond, withSector, hidle, hsector, CMD0, CMD8, CMD9, CMD12, CMD17, CMD55, CMD58,
    answer, answered]

theorem execute_read_many (hidle : c.idle = false) (hsector : sector K n = some a) :
    c.execute K CMD18 n = c.answered K (.reading a) false [0x00] := by
  simp [execute, respond, withSector, hidle, hsector, CMD0, CMD8, CMD9, CMD12, CMD17, CMD18, CMD55,
    CMD58, answer, answered]

theorem execute_write (hidle : c.idle = false) (hsector : sector K n = some a) :
    c.execute K CMD24 n = c.answered K (.token a false) false [0x00] := by
  simp [execute, respond, withSector, hidle, hsector, CMD0, CMD8, CMD9, CMD12, CMD17, CMD18, CMD24,
    CMD55, CMD58, answer, answered]

theorem execute_write_many (hidle : c.idle = false) (hsector : sector K n = some a) :
    c.execute K CMD25 n = c.answered K (.token a true) false [0x00] := by
  simp [execute, respond, withSector, hidle, hsector, CMD0, CMD8, CMD9, CMD12, CMD17, CMD18, CMD24,
    CMD25, CMD55, CMD58, answer, answered]

theorem execute_csd (hidle : c.idle = false) :
    c.execute K CMD9 n = c.answered K .command false (0x00 :: K.packet (c.tick + 1) K.csd.toList) := by
  simp [execute, respond, hidle, CMD0, CMD8, CMD9, CMD12, CMD55, CMD58, answer, answered]

theorem execute_erase (hidle : c.idle = false) (happ : c.app = true) :
    c.execute K 23 n = c.answered K .command false [0x00] := by
  simp [execute, respond, hidle, happ, CMD0, CMD8, CMD9, CMD12, CMD55, CMD58, answer, answered]

theorem execute_app (r : UInt8) (hr : r = if c.idle then 0x01 else 0x00) :
    c.execute K CMD55 n = c.answered K .command true [r] := by
  simp [execute, respond, hr, CMD0, CMD8, CMD12, CMD55, answer, answered]

theorem execute_reset : c.execute K CMD0 n =
    { c with idle := true }.answered K .command false [0x01] := by
  simp [execute, respond, CMD0, CMD12, CMD55, answer, answered]

theorem execute_check (hidle : c.idle = true) :
    c.execute K CMD8 0x1AA = c.answered K .command false [0x01, 0, 0, 0x01, 0xAA] := by
  simp [execute, respond, hidle, CMD0, CMD8, CMD12, CMD55, answer, answered]

theorem execute_leave (happ : c.app = true) (hstartup : c.startup = 0) :
    c.execute K 41 n = { c with idle := false }.answered K .command false [0x00] := by
  simp [execute, respond, happ, hstartup, CMD0, CMD8, CMD12, CMD55, answer, answered]

theorem execute_stay (happ : c.app = true) (hstartup : c.startup ≠ 0) :
    c.execute K 41 n = { c with startup := c.startup - 1 }.answered K .command false [0x01] := by
  simp [execute, respond, happ, hstartup, CMD0, CMD8, CMD12, CMD55, answer, answered]

theorem execute_ocr (hidle : c.idle = false) : c.execute K CMD58 n =
    c.answered K .command false [0x00, if K.high then 0xC0 else 0x80, 0xFF, 0x80, 0x00] := by
  simp [execute, respond, hidle, CMD0, CMD8, CMD12, CMD55, CMD58, answer, answered]

theorem execute_stop : c.execute K CMD12 n =
    (c.answered K .command false (0x00 :: List.replicate (K.busy (c.tick + 1)) 0x00)).sending
      (0xFF :: (List.replicate (K.response (c.tick + 1)) 0xFF ++
        0x00 :: List.replicate (K.busy (c.tick + 1)) 0x00)) := by
  simp [execute, stop, answered, sending]

end Execute

/-! ### Blocks -/

theorem exchange_data {a : Nat} {many : Bool} (b : UInt8) (hasleep : c.asleep = 0)
    (hmode : c.mode = .data a many) (hout : c.out = []) :
    (c.exchange K true b).2 = c.takeData K a many b := by
  have hrefill : c.refill K = c := by
    unfold refill
    rw [hmode]
  have hsent : c.sent = c := by
    unfold sent
    rw [hout, List.tail_nil, ← hout]
  unfold exchange
  rw [if_pos rfl, if_pos hasleep, hrefill, hsent]
  show c.take K b = _
  unfold take
  rw [hmode]

/-- The bytes of a block. -/
theorem clock_data {a : Nat} {many : Bool} {l : List UInt8} (hasleep : c.asleep = 0)
    (hmode : c.mode = .data a many) (hout : c.out = []) (hlen : c.frame.length + l.length ≤ 513) :
    (K.bus.clock true l c).2 = { c with frame := c.frame ++ l } := by
  induction l generalizing c with
  | nil => rw [List.append_nil]; rfl
  | cons b l ih =>
    rw [List.length_cons] at hlen
    have hb : (c.exchange K true b).2 = { c with frame := c.frame ++ [b] } := by
      rw [exchange_data b hasleep hmode hout]
      exact if_pos (show c.frame.length < 513 by omega)
    show (K.bus.clock true l (c.exchange K true b).2).2 = _
    rw [hb, ih (c := { c with frame := c.frame ++ [b] }) hasleep hmode hout (by
      show (c.frame ++ [b]).length + l.length ≤ 513
      rw [List.length_append, List.length_singleton]
      omega)]
    show { c with frame := c.frame ++ [b] ++ l } = _
    rw [List.append_assoc]
    rfl

/-- The token in front of a block. -/
theorem exchange_token {a : Nat} {many : Bool} (h : c.asleep = 0) (hmode : c.mode = .token a many)
    (hout : c.out = []) (b : UInt8) : (c.exchange K true b).2 = c.takeToken K a many b := by
  have hsent : c.sent = c := by
    unfold sent
    rw [hout, List.tail_nil, ← hout]
  unfold exchange
  rw [if_pos rfl, if_pos h, refill_of_waits (by rw [hmode]; rfl), hsent]
  show c.take K b = _
  unfold take
  rw [hmode]

theorem received_take {buff : List UInt8} (h : 512 ≤ buff.length) (l : List UInt8) :
    received (buff.take 512 ++ l) = received buff := by
  unfold received
  congr 1
  funext i
  have hi : i.val < (buff.take 512).length := by
    rw [List.length_take]
    omega
  rw [List.getD_eq_getElem?_getD, List.getD_eq_getElem?_getD, List.getElem?_append_left hi,
    List.getElem?_take_of_lt i.isLt]

/-- The CRC of a block, whatever it is. -/
theorem clock_crc {a : Nat} {many : Bool} {buff : List UInt8} (hasleep : c.asleep = 0)
    (hmode : c.mode = .data a many) (hout : c.out = []) (hbuff : 512 ≤ buff.length)
    (hframe : c.frame = buff.take 512) (ha : a < K.capacity) :
    (K.bus.clock true (List.replicate 2 0xFF) c).2 = (c.stored a buff).ended K many a 0x05 := by
  have hlen : c.frame.length = 512 := by
    rw [hframe, List.length_take]
    omega
  have hfirst : (c.exchange K true 0xFF).2 = { c with frame := c.frame ++ [0xFF] } := by
    rw [exchange_data 0xFF hasleep hmode hout]
    exact if_pos (by omega)
  show ((c.exchange K true 0xFF).2.exchange K true 0xFF).2 = _
  rw [hfirst, exchange_data (c := { c with frame := c.frame ++ [0xFF] }) 0xFF hasleep hmode hout]
  have hfull : ¬(c.frame ++ [0xFF]).length < 513 := by
    rw [List.length_append, hlen]
    decide
  refine (if_neg hfull).trans ((if_pos ha).trans ?_)
  have hreceived : received (c.frame ++ [0xFF]) = received buff := by
    rw [hframe, received_take hbuff]
  show Card.ended K (Card.stored { c with frame := c.frame ++ [0xFF] } a (c.frame ++ [0xFF])) many a 0x05 = _
  unfold stored
  rw [hreceived]
  rfl

end Card

end Miso.Sd
