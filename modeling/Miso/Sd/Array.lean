import Miso.Sd.Device

/-!
# The SD card as an array of blocks

* `identified` — `disk_initialize` on a card that has been switched on;
* `Call.array` — a call on an array of blocks;
* `Call.run_array` — a call of the driver is answered as by the array, and changes the sectors alike;
* `array_runs` — so is every sequence of calls that begins with `disk_initialize`.
-/

namespace Miso.Sd

open Zig

section Identification

variable {K : Kind} {s ty : UInt8} {sel : Bool} {c : Card} {blocks : Nat → Block}

/-- A card that has been switched on. -/
structure Card.Off (K : Kind) (c : Card) : Prop where
  asleep : c.asleep ≤ 10
  mode : c.mode = .command
  out : c.out = []
  startup : c.startup = K.startup

/-- The card is in the idle state, and will be asked to leave it `n` times in vain. -/
structure Waking (blocks : Nat → Block) (n : Nat) (out : List UInt8) (c : Card) : Prop where
  calm : c.Calm
  mode : c.mode = .command
  idle : c.idle = true
  out : c.out = out
  startup : c.startup = n
  blocks : c.blocks = blocks

/-- Something is about to be sent. -/
structure Sent (blocks : Nat → Block) (out : List UInt8) (c : Card) : Prop where
  calm : c.Calm
  mode : c.mode = .command
  idle : c.idle = false
  out : c.out = out
  blocks : c.blocks = blocks

theorem clock_deselected (n : Nat) : (K.bus.clock false (List.replicate (n + 1) 0xFF) c).2 =
    { c with asleep := c.asleep - (n + 1), frame := [] } := by
  induction n generalizing c with
  | zero => rfl
  | succ n ih =>
    rw [List.replicate_succ]
    show (K.bus.clock false (List.replicate (n + 1) 0xFF) { c with asleep := c.asleep - 1, frame := [] }).2 = _
    rw [ih]
    show ({ c with asleep := c.asleep - 1 - (n + 1), frame := [] } : Card) = _
    rw [Nat.sub_sub, Nat.add_comm 1]

theorem single_waking {n : Nat} {cmd r : UInt8} {arg : UInt32} {P : Card → Prop} (hcmd : Coded cmd)
    (h : Waking blocks n [] c) (hr : r &&& 0x80 = 0)
    (hans : ∀ t, Answers ((c.ticked t).execute K cmd arg.toNat) r P) :
    Runs (At s ty sel c) (send_cmd.single K.bus cmd arg) r (In s ty true P) :=
  single_at hcmd h.calm h.mode (k := 0) h.out (by decide) hr hans

/-- A command that the card answers in the idle state with `r`, and with `out`. -/
theorem answers_waking {n : Nat} {r : UInt8} {out : List UInt8} (h : c.asleep = 0)
    (hidle : c.idle = true) (hstartup : c.startup = n) (hblocks : c.blocks = blocks) (app : Bool) :
    Answers (c.answered K .command app (r :: out)) r (Waking blocks n out) :=
  ⟨⟨h, rfl⟩, rfl, _, _, K.response_lt _, rfl, ⟨h, rfl⟩, rfl, hidle, rfl, hstartup, hblocks⟩

theorem rcvr_waking {n : Nat} {out : List UInt8} (h : Waking blocks n out c) :
    Runs (At s ty true c) (rcvr_mmc K.bus out.length) out (In s ty true (Waking blocks n [])) :=
  (rcvr_mmc_out h.calm (by rw [h.mode]; rfl) (by rw [h.out, List.append_nil])).conseq
    (fun _ hd => hd) fun d hd =>
      ⟨_, ⟨h.calm.sending [], h.mode, h.idle, rfl, h.startup, h.blocks⟩, hd⟩

/-- `ACMD41`, given the answer to its second half. -/
theorem acmd41_at {n : Nat} {r : UInt8} {P : Card → Prop} (h : Waking blocks n [] c) (hr : r &&& 0x80 = 0)
    (hans : ∀ c' : Card, Waking blocks n [] c' → c'.app = true →
      ∀ t, Answers ((c'.ticked t).execute K 41 0x40000000) r P) :
    Runs (At s ty sel c) (send_cmd K.bus ACMD41 0x40000000) r (In s ty true P) := by
  have happ : Runs (At s ty sel c) (send_cmd.single K.bus CMD55 0) 0x01
      (In s ty true fun c => Waking blocks n [] c ∧ c.app = true) := by
    refine single_waking (by decide) h (by decide) fun t => ?_
    rw [Card.execute_app (c := c.ticked t) 0x01 (by rw [show (c.ticked t).idle = true from h.idle]; rfl)]
    exact ⟨⟨h.calm.asleep, rfl⟩, rfl, _, _, K.response_lt _, rfl,
      ⟨⟨h.calm.asleep, rfl⟩, rfl, h.idle, rfl, h.startup, h.blocks⟩, rfl⟩
  unfold send_cmd
  rw [if_pos (by decide)]
  refine happ.bind ?_
  rw [if_neg (by decide)]
  refine In.triple fun c' hc' => ?_
  rw [show ACMD41 &&& 0x7F = 41 by decide]
  exact single_waking (by decide) hc'.1 hr (hans c' hc'.1 hc'.2)

/-- The card leaves the idle state when it has been asked often enough. -/
theorem leave_idle_at {n tmr : Nat} (hn : n < tmr) :
    Runs (In s ty true (Waking blocks n [])) (leave_idle K.bus ACMD41 0x40000000 tmr) true
      (In s ty true (Rest blocks)) := by
  induction tmr generalizing n with
  | zero => exact absurd hn (Nat.not_lt_zero n)
  | succ tmr ih =>
    refine In.triple fun c hc => ?_
    cases n with
    | zero =>
      have hsend : Runs (At s ty true c) (send_cmd K.bus ACMD41 0x40000000) 0x00
          (In s ty true (Rest blocks)) := by
        refine acmd41_at hc (by decide) fun c' hc' happ t => ?_
        rw [Card.execute_leave (c := c'.ticked t) happ hc'.startup]
        exact ⟨⟨hc'.calm.asleep, rfl⟩, rfl, _, _, K.response_lt _, rfl,
          ⟨hc'.calm.asleep, rfl⟩, rfl, rfl, ⟨0, by decide, rfl⟩, hc'.blocks⟩
      refine hsend.bind ?_
      rw [if_pos rfl]
      exact Runs.ret
    | succ n =>
      have hsend : Runs (At s ty true c) (send_cmd K.bus ACMD41 0x40000000) 0x01
          (In s ty true (Waking blocks n [])) := by
        refine acmd41_at hc (by decide) fun c' hc' happ t => ?_
        rw [Card.execute_stay (c := c'.ticked t) happ (by rw [show (c'.ticked t).startup = n + 1 from hc'.startup]; exact Nat.succ_ne_zero n)]
        exact answers_waking (c := { c'.ticked t with startup := (c'.ticked t).startup - 1 })
          hc'.calm.asleep hc'.idle (congrArg (· - 1) hc'.startup) hc'.blocks false
      refine hsend.bind ?_
      rw [if_neg (by decide)]
      exact ih (Nat.lt_of_succ_lt_succ hn)

/-- The response to `CMD58`, with the OCR. -/
theorem ocr_at : Runs (In s ty true (Rest blocks)) (send_cmd K.bus CMD58 0) 0x00
    (In s ty true (Sent blocks [if K.high then 0xC0 else 0x80, 0xFF, 0x80, 0x00])) := by
  refine In.triple fun c hc => ?_
  rw [send_cmd_eq (by decide)]
  refine single_rest (by decide) hc (by decide) fun t => ?_
  rw [Card.execute_ocr (c := c.ticked t) hc.idle]
  exact ⟨⟨hc.calm.asleep, rfl⟩, rfl, _, _, K.response_lt _, rfl, ⟨hc.calm.asleep, rfl⟩, rfl, hc.idle,
    rfl, hc.blocks⟩

theorem version2_at (h : Waking blocks K.startup [0, 0, 0x01, 0xAA] c) :
    Runs (At s ty true c) (card_type.version2 K.bus) K.CardType (In s ty true (Rest blocks)) := by
  refine (rcvr_waking h).bind ?_
  rw [if_neg (by decide)]
  refine (leave_idle_at K.startup_lt).bind ?_
  rw [if_neg (by decide)]
  refine ocr_at.bind (Triple.ite (fun hne => absurd rfl hne) fun _ => ?_)
  refine In.triple fun c hc => ?_
  have hocr : Runs (At s ty true c) (rcvr_mmc K.bus 4) [if K.high then 0xC0 else 0x80, 0xFF, 0x80, 0x00]
      (At s ty true (c.sending [])) :=
    rcvr_mmc_out (l := [if K.high then 0xC0 else 0x80, 0xFF, 0x80, 0x00]) hc.calm
      (by rw [hc.mode]; rfl) (by rw [hc.out]; rfl)
  refine hocr.bind ?_
  have htype : (if (if K.high then (0xC0 : UInt8) else 0x80) &&& 0x40 ≠ 0 then CT_SDC2 ||| CT_BLOCK
      else CT_SDC2) = K.CardType := by
    unfold Kind.CardType
    cases K.high <;> decide
  show Triple _ (pure (if (if K.high then (0xC0 : UInt8) else 0x80) &&& 0x40 ≠ 0 then
    CT_SDC2 ||| CT_BLOCK else CT_SDC2)) _
  rw [htype]
  exact Runs.ret.conseq (fun _ hd => hd) fun d hd =>
    ⟨_, ⟨hc.calm.sending [], hc.mode, hc.idle, ⟨0, by decide, rfl⟩, hc.blocks⟩, hd⟩

theorem card_type_at (h : c.asleep = 0) (hframe : c.frame = []) (hmode : c.mode = .command)
    (hout : c.out = []) (hstartup : c.startup = K.startup) :
    Runs (At s ty sel c) (card_type K.bus) K.CardType (In s ty true (Rest c.blocks)) := by
  have hreset : Runs (At s ty sel c) (send_cmd K.bus CMD0 0) 0x01
      (In s ty true (Waking c.blocks K.startup [])) := by
    rw [send_cmd_eq (by decide)]
    refine single_at (k := 0) (by decide) ⟨h, hframe⟩ hmode hout (by decide) (by decide) fun t => ?_
    rw [Card.execute_reset (c := c.ticked t)]
    exact answers_waking (c := { c.ticked t with idle := true }) h rfl hstartup rfl false
  have hcheck : Runs (In s ty true (Waking c.blocks K.startup [])) (send_cmd K.bus CMD8 0x1AA) 0x01
      (In s ty true (Waking c.blocks K.startup [0, 0, 0x01, 0xAA])) := by
    refine In.triple fun c' hc' => ?_
    rw [send_cmd_eq (by decide)]
    refine single_waking (by decide) hc' (by decide) fun t => ?_
    show Answers ((c'.ticked t).execute K CMD8 0x1AA) _ _
    rw [Card.execute_check (c := c'.ticked t) hc'.idle]
    exact answers_waking (c := c'.ticked t) hc'.calm.asleep hc'.idle hc'.startup hc'.blocks false
  refine hreset.bind ?_
  rw [if_neg (by decide)]
  refine hcheck.bind ?_
  rw [if_pos rfl]
  exact In.triple fun c' hc' => version2_at hc'

theorem Kind.CardType_ne (K : Kind) : K.CardType ≠ 0 := by
  unfold CardType
  cases K.high <;> decide

theorem Kind.CardType_sdc (K : Kind) : K.CardType &&& CT_SDC ≠ 0 := by
  unfold CardType
  cases K.high <;> decide

/-- The status of drive 0. -/
theorem disk_status_at (h : disk_status.next 0 true s = s) :
    Runs (At s ty sel c) (disk_status K.bus 0) s (At s ty sel c) := by
  rintro d ⟨rfl, rfl, rfl, rfl⟩
  exact ⟨h, h, rfl, rfl, rfl⟩

/-- Between two calls, with the driver. -/
def Ready (K : Kind) (blocks : Nat → Block) : Sdmm Card → Prop := In 0 K.CardType false (Rest blocks)

/-- **A card that has been switched on is identified.** -/
theorem identified (h : c.Off K) : Runs (fun d => d = Sdmm.start c) ( disk_initialize K.bus 0) 0
    (Ready K c.blocks) := by
  have hstart : ∀ d, d = Sdmm.start c → At STA_NOINIT 0 false c d := by
    rintro d rfl
    exact ⟨rfl, rfl, rfl, rfl⟩
  refine Triple.pre ?_ hstart
  refine Triple.ite (fun hne => absurd rfl hne) fun _ => ?_
  refine (disk_status_at (by decide)).bind (Triple.ite (fun h0 => absurd h0 (by decide)) fun _ => ?_)
  have henable : Runs (At STA_NOINIT 0 false c) (enable : StateM (Sdmm Card) Unit) ()
      (At STA_NOINIT 0 false c) := by
    rintro d ⟨hs, ht, -, hc⟩
    exact ⟨rfl, hs, ht, rfl, hc⟩
  -- The card is clocked 80 times before its first command.
  refine henable.bind ((rcvr_mmc_skip (clock_deselected 9)).bind ?_)
  refine (card_type_at (c := { c with asleep := c.asleep - 10, frame := [] })
    (Nat.sub_eq_zero_of_le h.asleep) rfl h.mode h.out h.startup).bind ?_
  have hset : Runs (In STA_NOINIT 0 true (Rest c.blocks)) (modify fun d : Sdmm Card =>
      { d with CardType := K.CardType, Stat := if K.CardType ≠ 0 then 0 else STA_NOINIT }) ()
        (In 0 K.CardType true (Rest c.blocks)) := by
    rintro d ⟨c', hc', hd⟩
    exact ⟨rfl, c', hc', if_pos K.CardType_ne, rfl, hd.selected, hd.card⟩
  refine hset.bind (In.triple fun c' hc' => (deselect_at hc'.calm).bind ?_)
  rw [if_pos K.CardType_ne, if_pos K.CardType_ne]
  have hfast : Runs (At 0 K.CardType false c') (BOARD_SD_CARD_SetFastBaudrate : StateM (Sdmm Card) Unit) ()
      (Ready K c.blocks) := by
    intro d hd
    exact ⟨rfl, c', hc', hd.Stat, hd.CardType, hd.selected, hd.card⟩
  exact hfast.bind Runs.ret

end Identification

/-! ## Calls -/

section Calls

variable {K : Kind} {blocks : Nat → Block}

/-- What FatFs asks of the driver once the card is identified. -/
def Call.InRange (K : Kind) : Call → Prop
  | status drv => drv = 0
  | init drv => drv = 0
  | read drv sector count => drv = 0 ∧ count ≠ 0 ∧ sector.toNat + count.toNat ≤ K.capacity
  | write drv buff sector count => drv = 0 ∧ count ≠ 0 ∧ sector.toNat + count.toNat ≤ K.capacity ∧
      512 * count.toNat ≤ buff.length
  | ioctl drv _ => drv = 0

/-- What does not depend on the blocks. -/
def Kind.ioctl (K : Kind) (ctrl : UInt8) : DRESULT × Option UInt32 :=
  if ctrl = CTRL_SYNC then (.RES_OK, none)
  else if ctrl = GET_SECTOR_COUNT then (.RES_OK, some (UInt32.ofNat K.capacity))
  else if ctrl = GET_BLOCK_SIZE then (.RES_OK, some 128)
  else (.RES_PARERR, none)

/-- A call on an array of blocks. -/
def Call.array (K : Kind) (blocks : Nat → Block) : Call → Answer × (Nat → Block)
  | status _ => (.status 0, blocks)
  | init _ => (.status 0, blocks)
  | read _ sector count => (.data .RES_OK (load blocks sector.toNat count.toNat), blocks)
  | write _ buff sector count => (.result .RES_OK, store blocks sector.toNat count.toNat buff)
  | ioctl _ ctrl => (.number (K.ioctl ctrl).1 (K.ioctl ctrl).2, blocks)

/-- The answers to a sequence of calls, and what it leaves. -/
def Call.arrays (K : Kind) : (Nat → Block) → List Call → List Answer × (Nat → Block)
  | blocks, [] => ([], blocks)
  | blocks, call :: calls =>
    ((call.array K blocks).1 :: (Call.arrays K (call.array K blocks).2 calls).1,
      (Call.arrays K (call.array K blocks).2 calls).2)

/-- A sequence of calls of the driver. -/
def Call.runs {σ : Type} (B : Bus σ) : List Call → StateM (Sdmm σ) (List Answer)
  | [] => return []
  | call :: calls => do
    let a ← call.run B
    let as ← Call.runs B calls
    return a :: as

theorem Ready.status : Runs (Ready K blocks) (disk_status K.bus 0) 0 (Ready K blocks) :=
  In.triple fun c hc => (disk_status_at (by decide)).conseq (fun _ hd => hd) fun _ hd => ⟨c, hc, hd⟩

/-- The card is deselected. -/
theorem Ready.deselect {s ty : UInt8} {sel : Bool} : Runs (In s ty sel (Rest blocks))
    (deselect K.bus) () (In s ty false (Rest blocks)) :=
  In.triple fun c hc => (deselect_at hc.calm).conseq (fun _ hd => hd) fun _ hd => ⟨c, hc, hd⟩

/-- The sector of a call in range. -/
theorem sector_of_range {sector count : UInt32} (hcount : count ≠ 0)
    (h : sector.toNat + count.toNat ≤ K.capacity) :
    Card.sector K (address K.CardType sector).toNat = some sector.toNat := by
  have hpos : 0 < count.toNat := Nat.pos_of_ne_zero fun h0 => hcount (UInt32.toNat_inj.mp h0)
  refine sector_address (by omega) fun hlow => ?_
  have hle := K.capacity_le hlow
  omega

theorem disk_read_at {sector count : UInt32} (hcount : count ≠ 0)
    (hrange : sector.toNat + count.toNat ≤ K.capacity) :
    Runs (Ready K blocks) (disk_read K.bus 0 sector count)
      (.RES_OK, load blocks sector.toNat count.toNat) (Ready K blocks) := by
  have hsect := sector_of_range hcount hrange
  refine Ready.status.bind ?_
  rw [if_neg (by decide)]
  refine In.triple fun c hc => ?_
  have htransfer : Runs (At 0 K.CardType false c)
      (disk_read.transfer K.bus (if 1 < count then CMD18 else CMD17) (address K.CardType sector) count)
      (0, load blocks sector.toNat count.toNat) (In 0 K.CardType true (Rest blocks)) := by
    by_cases hone : 1 < count
    · rw [if_pos hone]
      exact read_many hc hsect hcount hrange
    · obtain rfl : count = 1 := by
        have hle : count.toNat ≤ 1 := UInt32.le_iff_toNat_le.mp (UInt32.not_lt.mp hone)
        have hne : count.toNat ≠ 0 := fun h0 => hcount (UInt32.toNat_inj.mp h0)
        exact UInt32.toNat_inj.mp (show count.toNat = 1 by omega)
      have hload : load blocks sector.toNat (1 : UInt32).toNat = (blocks sector.toNat).toList :=
        List.append_nil _
      rw [if_neg (by decide), hload]
      exact read_one hc hsect
  refine get_at.bind fun d => Triple.assume fun hd => ?_
  rw [hd]
  exact htransfer.bind (Ready.deselect.bind Runs.ret)

theorem disk_write_at {buff : List UInt8} {sector count : UInt32} (hcount : count ≠ 0)
    (hrange : sector.toNat + count.toNat ≤ K.capacity) (hbuff : 512 * count.toNat ≤ buff.length) :
    Runs (Ready K blocks) (disk_write K.bus 0 buff sector count) .RES_OK
      (Ready K (store blocks sector.toNat count.toNat buff)) := by
  have hsect := sector_of_range hcount hrange
  refine Ready.status.bind ?_
  rw [if_neg (by decide)]
  refine In.triple fun c hc => ?_
  have htransfer : Runs (At 0 K.CardType false c)
      (disk_write.transfer K.bus buff (address K.CardType sector) count) 0
      (In 0 K.CardType true (Rest (store blocks sector.toNat count.toNat buff))) := by
    unfold disk_write.transfer
    by_cases hone : count = 1
    · subst hone
      rw [if_pos rfl]
      exact write_one hc hsect hrange hbuff
    · rw [if_neg hone]
      exact write_many hc K.CardType_sdc hsect hcount hrange hbuff
  refine get_at.bind fun d => Triple.assume fun hd => ?_
  rw [hd]
  exact htransfer.bind (Ready.deselect.bind Runs.ret)

/-- The card is asked whether it is ready. -/
theorem sync_at : Runs (Ready K blocks) (disk_ioctl.request K.bus CTRL_SYNC) (.RES_OK, none)
    (In 0 K.CardType true (Rest blocks)) := by
  refine In.triple fun c hc => ?_
  obtain ⟨k, hk, hout⟩ := hc.ready
  refine (select_at hc.calm (by rw [hc.mode]; rfl) hout hk).bind ?_
  refine Runs.ret.conseq (fun _ hd => hd) fun d hd => ?_
  exact ⟨_, ⟨hc.calm.sending [], hc.mode, hc.idle, ⟨0, by decide, rfl⟩, hc.blocks⟩, hd⟩

/-- The number of sectors is read from the card. -/
theorem csd_at : Runs (Ready K blocks) (disk_ioctl.request K.bus GET_SECTOR_COUNT)
    (.RES_OK, some (UInt32.ofNat K.capacity)) (In 0 K.CardType true (Rest blocks)) := by
  refine In.triple fun c hc => ?_
  have hsend : Runs (At 0 K.CardType false c) (send_cmd K.bus CMD9 0) 0x00
      (In 0 K.CardType true (Sending (K := K) blocks K.csd.toList)) := by
    rw [send_cmd_eq (by decide)]
    refine single_rest (by decide) hc (by decide) fun t => ?_
    rw [Card.execute_csd (c := c.ticked t) hc.idle]
    exact ⟨⟨hc.calm.asleep, rfl⟩, rfl, _, _, K.response_lt _, rfl, ⟨hc.calm.asleep, rfl⟩, rfl, hc.idle,
      ⟨_, rfl⟩, hc.blocks⟩
  unfold disk_ioctl.request
  rw [if_neg (by decide), if_pos rfl]
  refine hsend.bind (Triple.ite (fun hne => absurd rfl hne) fun _ => In.triple fun c' hc' => ?_)
  obtain ⟨t, hout⟩ := hc'.out
  have hrefill : c'.refill K = c' := Card.refill_of_waits (by rw [hc'.mode]; rfl)
  have hcsd : Runs (At 0 K.CardType true c') (rcvr_datablock K.bus K.csd.toList.length)
      (some K.csd.toList) (At 0 K.CardType true ((c'.refill K).sending [])) :=
    rcvr_datablock_at hc'.calm (by rw [hc'.mode]; rfl) (by rw [hrefill, List.append_nil]; exact hout)
  have hlen : K.csd.toList.length = 16 := Vector.length_toList
  rw [hlen, hrefill] at hcsd
  rw [← sectors_eq hlen K.csd_tells K.capacity_lt]
  refine hcsd.bind (Runs.ret.conseq (fun _ hd => hd) fun d hd => ?_)
  exact ⟨_, ⟨hc'.calm.sending [], hc'.mode, hc'.idle, ⟨0, by decide, rfl⟩, hc'.blocks⟩, hd⟩

theorem disk_ioctl_at (ctrl : UInt8) :
    Runs (Ready K blocks) (disk_ioctl K.bus 0 ctrl) (K.ioctl ctrl) (Ready K blocks) := by
  have hrequest : ∃ sel, Runs (Ready K blocks) (disk_ioctl.request K.bus ctrl) (K.ioctl ctrl)
      (In 0 K.CardType sel (Rest blocks)) := by
    unfold Kind.ioctl
    by_cases hsync : ctrl = CTRL_SYNC
    · subst hsync
      exact ⟨true, sync_at⟩
    rw [if_neg hsync]
    by_cases hcount : ctrl = GET_SECTOR_COUNT
    · subst hcount
      exact ⟨true, csd_at⟩
    unfold disk_ioctl.request
    rw [if_neg hcount, if_neg hsync, if_neg hcount]
    by_cases hsize : ctrl = GET_BLOCK_SIZE
    · rw [if_pos hsize, if_pos hsize]
      exact ⟨false, Runs.ret⟩
    · rw [if_neg hsize, if_neg hsize]
      exact ⟨false, Runs.ret⟩
  obtain ⟨sel, hrequest⟩ := hrequest
  refine Ready.status.bind ?_
  rw [if_neg (by decide)]
  exact hrequest.bind (Ready.deselect.bind Runs.ret)

/-- **A call is answered as by the array**, and changes the sectors alike. -/
theorem Call.run_array {call : Call} (h : call.InRange K) :
    Runs (Ready K blocks) (call.run K.bus) (call.array K blocks).1
      (Ready K (call.array K blocks).2) := by
  cases call with
  | status drv =>
    obtain rfl : drv = 0 := h
    exact Ready.status.bind Runs.ret
  | init drv =>
    obtain rfl : drv = 0 := h
    have hinit : Runs (Ready K blocks) ( disk_initialize K.bus 0) 0 (Ready K blocks) := by
      refine Triple.ite (fun hne => absurd rfl hne) fun _ => Ready.status.bind ?_
      rw [if_pos rfl]
      exact Runs.ret
    exact hinit.bind Runs.ret
  | read drv sector count =>
    obtain ⟨rfl, hcount, hrange⟩ := h
    exact (disk_read_at hcount hrange).bind Runs.ret
  | write drv buff sector count =>
    obtain ⟨rfl, hcount, hrange, hbuff⟩ := h
    exact (disk_write_at hcount hrange hbuff).bind Runs.ret
  | ioctl drv ctrl =>
    obtain rfl : drv = 0 := h
    exact (disk_ioctl_at ctrl).bind Runs.ret

theorem Call.runs_ready {calls : List Call} (h : ∀ call ∈ calls, call.InRange K) :
    Runs (Ready K blocks) (Call.runs K.bus calls) (Call.arrays K blocks calls).1
      (Ready K (Call.arrays K blocks calls).2) := by
  induction calls generalizing blocks with
  | nil => exact Runs.ret
  | cons call calls ih =>
    refine (Call.run_array (h call List.mem_cons_self)).bind ?_
    exact (ih fun x hx => h x (List.mem_cons_of_mem call hx)).bind Runs.ret

/-- The card is identified first. -/
theorem Call.runs_start {c : Card} (hc : c.Off K) {calls : List Call}
    (h : ∀ call ∈ calls, call.InRange K) :
    Runs (fun d => d = Sdmm.start c) (Call.runs K.bus (.init 0 :: calls))
      (.status 0 :: (Call.arrays K c.blocks calls).1) (Ready K (Call.arrays K c.blocks calls).2) := by
  have hinit : Runs (fun d => d = Sdmm.start c) ((Call.init 0).run K.bus) (.status 0)
      (Ready K c.blocks) := (identified hc).bind Runs.ret
  exact hinit.bind ((Call.runs_ready h).bind Runs.ret)

/-- **The driver and the card are an array of blocks**: whatever FatFs asks for within the card's
capacity is answered as by the array, and the card holds what the array holds. -/
theorem array_runs {c : Card} (hc : c.Off K) {calls : List Call}
    (h : ∀ call ∈ calls, call.InRange K) :
    (Call.runs K.bus (.init 0 :: calls) (Sdmm.start c)).1 =
        .status 0 :: (Call.arrays K c.blocks calls).1 ∧
      (Call.runs K.bus (.init 0 :: calls) (Sdmm.start c)).2.card.blocks =
        (Call.arrays K c.blocks calls).2 := by
  obtain ⟨hanswers, c', hc', hd⟩ := Call.runs_start hc h _ rfl
  exact ⟨hanswers, by rw [hd.card, hc'.blocks]⟩

/-! ## What has been written is read -/

theorem received_toList {l : List UInt8} (h : 512 ≤ l.length) :
    (Card.received l).toList = l.take 512 := by
  have hlen : (Card.received l).toList.length = 512 := Vector.length_toList
  refine List.ext_getElem (by rw [hlen, List.length_take, Nat.min_eq_left h]) fun i hi _ => ?_
  rw [hlen] at hi
  have hin : i < l.length := Nat.lt_of_lt_of_le hi h
  simp [Card.received, List.getElem?_eq_getElem hin]

/-- Sectors that have been written, from whichever of them on they are read. -/
theorem load_store {a n b m : Nat} {buff : List UInt8} (hbuff : 512 * n ≤ buff.length) (hab : a ≤ b)
    (hend : b + m ≤ a + n) :
    load (store blocks a n buff) b m = (buff.drop (512 * (b - a))).take (512 * m) := by
  induction m generalizing b with
  | zero => rfl
  | succ m ih =>
    have hfirst : store blocks a n buff b = Card.received (buff.drop (512 * (b - a))) :=
      if_pos (by omega)
    have hlen : 512 ≤ (buff.drop (512 * (b - a))).length := by
      rw [List.length_drop]
      omega
    have hstep : load (store blocks a n buff) b (m + 1) =
        (store blocks a n buff b).toList ++ load (store blocks a n buff) (b + 1) m := rfl
    have hdrop : 512 * (b - a) + 512 = 512 * (b + 1 - a) := by omega
    rw [hstep, hfirst, received_toList hlen, ih (by omega) (by omega), Nat.mul_add, Nat.mul_one,
      Nat.add_comm (512 * m), List.take_add, List.drop_drop, hdrop]

/-- The sectors that a call writes. -/
def Call.writes : Call → Nat → Prop
  | write _ _ sector count, i => sector.toNat ≤ i ∧ i < sector.toNat + count.toNat
  | _, _ => False

theorem Call.array_frame {call : Call} {i : Nat} (h : ¬call.writes i) :
    (call.array K blocks).2 i = blocks i := by
  cases call with
  | write drv buff sector count => exact if_neg h
  | status drv => rfl
  | init drv => rfl
  | read drv sector count => rfl
  | ioctl drv ctrl => rfl

theorem Call.arrays_frame {calls : List Call} {i : Nat} (h : ∀ call ∈ calls, ¬call.writes i) :
    (Call.arrays K blocks calls).2 i = blocks i := by
  induction calls generalizing blocks with
  | nil => rfl
  | cons call calls ih =>
    have hrest : (Call.arrays K (call.array K blocks).2 calls).2 i = (call.array K blocks).2 i :=
      ih fun x hx => h x (List.mem_cons_of_mem call hx)
    exact hrest.trans (Call.array_frame (h call List.mem_cons_self))

theorem Call.arrays_append (calls calls' : List Call) :
    Call.arrays K blocks (calls ++ calls') =
      ((Call.arrays K blocks calls).1 ++ (Call.arrays K (Call.arrays K blocks calls).2 calls').1,
        (Call.arrays K (Call.arrays K blocks calls).2 calls').2) := by
  induction calls generalizing blocks with
  | nil => rfl
  | cons call calls ih =>
    show (_ :: (Call.arrays K _ (calls ++ calls')).1, (Call.arrays K _ (calls ++ calls')).2) = _
    rw [ih]
    rfl

theorem load_congr {blocks' : Nat → Block} {b m : Nat}
    (h : ∀ i, b ≤ i → i < b + m → blocks i = blocks' i) : load blocks b m = load blocks' b m := by
  induction m generalizing b with
  | zero => rfl
  | succ m ih =>
    have hstep (f : Nat → Block) : load f b (m + 1) = (f b).toList ++ load f (b + 1) m := rfl
    rw [hstep, hstep, h b (Nat.le_refl b) (by omega), ih fun i hi hend => h i (by omega) (by omega)]

/-- **What has been written is read back**: some of the sectors of one write, read by one call, after any
calls that do not write to them. -/
theorem read_back {c : Card} (hc : c.Off K) (before between : List Call) {buff : List UInt8}
    {sector count sector' count' : UInt32}
    (hrange : ∀ call ∈ before ++ .write 0 buff sector count :: (between ++ [.read 0 sector' count']),
      call.InRange K)
    (hfrom : sector.toNat ≤ sector'.toNat)
    (hto : sector'.toNat + count'.toNat ≤ sector.toNat + count.toNat)
    (hbetween : ∀ call ∈ between, ∀ i, sector'.toNat ≤ i → i < sector'.toNat + count'.toNat →
      ¬call.writes i) :
    (Call.runs K.bus (.init 0 :: (before ++ .write 0 buff sector count ::
        (between ++ [.read 0 sector' count']))) (Sdmm.start c)).1.getLast? =
      some (.data .RES_OK
        ((buff.drop (512 * (sector'.toNat - sector.toNat))).take (512 * count'.toNat))) := by
  obtain ⟨hanswers, -⟩ := Call.runs_start hc hrange _ rfl
  have hwrite := hrange _ (List.mem_append_right before List.mem_cons_self)
  have hload : load (Call.arrays K (store (Call.arrays K c.blocks before).2 sector.toNat count.toNat buff)
      between).2 sector'.toNat count'.toNat =
        (buff.drop (512 * (sector'.toNat - sector.toNat))).take (512 * count'.toNat) := by
    rw [load_congr fun i hi hend => Call.arrays_frame fun call hcall => hbetween call hcall i hi hend]
    exact load_store hwrite.2.2.2 hfrom hto
  rw [hanswers, Call.arrays_append, ← hload]
  have hlast (blocks : Nat → Block) : (Call.arrays K blocks (.write 0 buff sector count ::
      (between ++ [.read 0 sector' count']))).1 = (.result .RES_OK ::
        (Call.arrays K (store blocks sector.toNat count.toNat buff) between).1) ++
          [.data .RES_OK (load (Call.arrays K (store blocks sector.toNat count.toNat buff) between).2
            sector'.toNat count'.toNat)] := by
    show _ :: (Call.arrays K _ (between ++ [.read 0 sector' count'])).1 = _
    rw [Call.arrays_append]
    rfl
  rw [hlast, ← List.cons_append, ← List.append_assoc]
  exact List.getLast?_concat

/-! ## A small card -/

/-- A card of four sectors, which never lets the driver wait. -/
def Kind.quick : Kind where
  capacity := 4
  high := true
  csd := #v[0, 0, 0, 0, 0, 9, 0, 0, 0, 0, 0, 0, 0, 0, 0, 0]
  crc := fun _ => (0, 0)
  response := fun _ => 0
  access := fun _ => 0
  busy := fun _ => 0
  startup := 0
  csd_tells := by decide
  capacity_lt := by decide
  capacity_le := fun h => by cases h
  response_lt := fun _ => by decide
  access_lt := fun _ => by decide
  busy_lt := fun _ => by decide
  startup_lt := by decide

/-- Before the first clock. -/
def Card.blank : Card where
  blocks := fun _ => Vector.replicate 512 0
  mode := .command
  out := []
  frame := []
  asleep := 10
  idle := false
  app := false
  startup := 0
  tick := 0

theorem Card.blank_off : Card.blank.Off Kind.quick := ⟨by decide, rfl, rfl, rfl⟩

/-- Two sectors are written at once, and the second one is read. -/
theorem array_runs_quick :
    (Call.runs Kind.quick.bus [.init 0, .write 0 (List.replicate 1024 7) 1 2, .read 0 2 1]
      (Sdmm.start Card.blank)).1 =
        [.status 0, .result .RES_OK, .data .RES_OK (List.replicate 512 7)] := by
  have hwrite : Call.InRange Kind.quick (.write 0 (List.replicate 1024 7) 1 2) :=
    ⟨rfl, by decide, by decide, by rw [List.length_replicate]; decide⟩
  have hread : Call.InRange Kind.quick (.read 0 2 1) := ⟨rfl, by decide, by decide⟩
  refine (array_runs Card.blank_off (List.forall_mem_cons.mpr
    ⟨hwrite, List.forall_mem_singleton.mpr hread⟩)).1.trans ?_
  have hload : load (store Card.blank.blocks 1 2 (List.replicate 1024 7)) 2 1 =
      ((List.replicate 1024 7).drop 512).take 512 :=
    load_store (Nat.le_of_eq List.length_replicate.symm) (by decide) (by decide)
  rw [List.drop_replicate, List.take_replicate] at hload
  exact congrArg (fun l => [Answer.status 0, .result .RES_OK, .data .RES_OK l]) hload

/-- Another sector is written before the second one is read. -/
theorem read_back_quick :
    (Call.runs Kind.quick.bus [.init 0, .status 0, .write 0 (List.replicate 1024 7) 1 2,
        .write 0 (List.replicate 512 9) 1 1, .read 0 2 1] (Sdmm.start Card.blank)).1.getLast? =
      some (.data .RES_OK (List.replicate 512 7)) := by
  have hwrite : Call.InRange Kind.quick (.write 0 (List.replicate 1024 7) 1 2) :=
    ⟨rfl, by decide, by decide, by rw [List.length_replicate]; decide⟩
  have hother : Call.InRange Kind.quick (.write 0 (List.replicate 512 9) 1 1) :=
    ⟨rfl, by decide, by decide, by rw [List.length_replicate]; decide⟩
  have hread : Call.InRange Kind.quick (.read 0 2 1) := ⟨rfl, by decide, by decide⟩
  have hcalls : ∀ call ∈ [Call.status 0, .write 0 (List.replicate 1024 7) 1 2,
      .write 0 (List.replicate 512 9) 1 1, .read 0 2 1], call.InRange Kind.quick :=
    List.forall_mem_cons.mpr ⟨rfl, List.forall_mem_cons.mpr ⟨hwrite, List.forall_mem_cons.mpr
      ⟨hother, List.forall_mem_singleton.mpr hread⟩⟩⟩
  refine (read_back Card.blank_off [.status 0] [.write 0 (List.replicate 512 9) 1 1] hcalls
    (by decide) (by decide) ?_).trans ?_
  · refine List.forall_mem_singleton.mpr fun i hi _ hin => absurd (Nat.lt_of_le_of_lt hi hin.2) ?_
    decide
  · rw [List.drop_replicate, List.take_replicate]
    rfl

end Calls

end Miso.Sd
