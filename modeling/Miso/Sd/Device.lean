import Miso.Zig.Triple
import Miso.Sd.Card

/-!
# The driver on a card

The functions of the driver on a card that answers in time.

* `At` — the card and the driver in a state;
* `wait_ready_at`, `single_at`, `rcvr_datablock_at`, `xmit_datablock_at` — what the functions do on
  the card;
* `read_one`, `read_many`, `write_one`, `write_many` — the contents of the sectors are received, and
  are replaced.
-/

namespace Miso.Sd

open Zig

/-! ## Bytes -/

section Bytes

variable {K : Kind} {s ty : UInt8} {sel : Bool} {c : Card}

/-- The status, the type of the card, CS# and the card. -/
structure At (s ty : UInt8) (sel : Bool) (c : Card) (d : Sdmm Card) : Prop where
  Stat : d.Stat = s
  CardType : d.CardType = ty
  selected : d.selected = sel
  card : d.card = c

/-- The type of the card is looked at. -/
theorem get_at : Triple (At s ty sel c) get fun d d' => d.CardType = ty ∧ At s ty sel c d' :=
  fun _ hd => ⟨hd.CardType, hd⟩

theorem rcvr_mmc_at {n : Nat} {bytes : List UInt8} {c' : Card}
    (h : K.bus.clock sel (List.replicate n 0xFF) c = (bytes, c')) :
    Runs (At s ty sel c) (rcvr_mmc K.bus n) bytes (At s ty sel c') := by
  rintro d ⟨rfl, rfl, rfl, rfl⟩
  exact ⟨congrArg Prod.fst h, rfl, rfl, rfl, congrArg Prod.snd h⟩

/-- Bytes that are not looked at. -/
theorem rcvr_mmc_skip {n : Nat} {c' : Card}
    (h : (K.bus.clock sel (List.replicate n 0xFF) c).2 = c') :
    Runs (At s ty sel c) (rcvr_mmc K.bus n) (K.bus.clock sel (List.replicate n 0xFF) c).1
      (At s ty sel c') := rcvr_mmc_at (Prod.ext rfl h)

theorem xmit_mmc_at {l : List UInt8} {c' : Card} (h : (K.bus.clock sel l c).2 = c') :
    Runs (At s ty sel c) (xmit_mmc K.bus l) () (At s ty sel c') := by
  rintro d ⟨rfl, rfl, rfl, rfl⟩
  exact ⟨rfl, rfl, rfl, rfl, h⟩

theorem rcvr_byte_at {x : UInt8} {c' : Card} (h : c.exchange K sel 0xFF = (x, c')) :
    Runs (At s ty sel c) (rcvr_byte K.bus) x (At s ty sel c') := by
  have hclock : K.bus.clock sel (List.replicate 1 0xFF) c = ([x], c') := by
    show ([(c.exchange K sel 0xFF).1], (c.exchange K sel 0xFF).2) = _
    rw [h]
  exact (rcvr_mmc_at hclock).bind Runs.ret

/-- The next byte that the card sends. -/
theorem rcvr_byte_out {x : UInt8} {l : List UInt8} (h : c.Calm) (hmode : c.mode.listens = true)
    (hout : c.out = x :: l) :
    Runs (At s ty true c) (rcvr_byte K.bus) x (At s ty true (c.sending l)) :=
  rcvr_byte_at (Card.exchange_out h hmode hout)

theorem rcvr_mmc_out {l rest : List UInt8} (h : c.Calm) (hmode : c.mode.listens = true)
    (hout : c.out = l ++ rest) :
    Runs (At s ty true c) (rcvr_mmc K.bus l.length) l (At s ty true (c.sending rest)) :=
  rcvr_mmc_at (Card.clock_out h hmode hout)

theorem wait_ready_at {k : Nat} (h : c.Calm) (hmode : c.mode.waits = true)
    (hout : c.out = List.replicate k 0x00) (hk : k < 5000) :
    Runs (At s ty true c) (wait_ready K.bus) true (At s ty true (c.sending [])) := by
  suffices hloop : ∀ n k c, c.Calm → c.mode.waits = true → c.out = List.replicate k 0x00 → k < n →
      Runs (At s ty true c) (wait_ready.loop K.bus n) true (At s ty true (c.sending [])) from
    hloop 5000 k c h hmode hout hk
  intro n
  induction n with
  | zero => exact fun k _ _ _ _ hk => absurd hk (Nat.not_lt_zero k)
  | succ n ih =>
    intro k c h hmode hout hk
    cases k with
    | zero =>
      rw [Card.sending_of_out (l := []) hout]
      exact (rcvr_byte_at (Card.exchange_empty h hmode hout)).bind Runs.ret
    | succ k =>
      refine (rcvr_byte_out h (Card.listens_of_waits hmode) hout).bind ?_
      exact ih k (c.sending _) (h.sending _) hmode rfl (by omega)

/-- The wait for the response to a command. -/
theorem response_at {n k : Nat} {x : UInt8} {rest : List UInt8} (h : c.Calm)
    (hmode : c.mode.listens = true) (hout : c.out = List.replicate k 0xFF ++ x :: rest)
    (hx : x &&& 0x80 = 0) (hk : k ≤ n) :
    Runs (At s ty true c) (send_cmd.response K.bus n) x (At s ty true (c.sending rest)) := by
  induction n generalizing k c with
  | zero =>
    obtain rfl : k = 0 := Nat.le_zero.mp hk
    exact rcvr_byte_out h hmode hout
  | succ n ih =>
    cases k with
    | zero =>
      refine (rcvr_byte_out h hmode hout).bind ?_
      rw [if_pos hx]
      exact Runs.ret
    | succ k =>
      refine (rcvr_byte_out h hmode hout).bind ?_
      rw [if_neg (by decide)]
      exact ih (h.sending (List.replicate k 0xFF ++ x :: rest)) hmode rfl (by omega)

/-- The next byte of a card that may have to fetch a block first. -/
theorem rcvr_byte_refill {x : UInt8} {l : List UInt8} (h : c.Calm) (hmode : c.mode.listens = true)
    (hout : (c.refill K).out = x :: l) :
    Runs (At s ty true c) (rcvr_byte K.bus) x (At s ty true ((c.refill K).sending l)) := by
  refine rcvr_byte_at ?_
  rw [Card.exchange_refill h.asleep (by rw [hout]; exact List.cons_ne_nil x l)]
  exact Card.exchange_out h.refill (Card.refill_listens hmode) hout

/-- The wait for a data token. -/
theorem token_at {n k : Nat} {x : UInt8} {rest : List UInt8} (h : c.Calm)
    (hmode : c.mode.listens = true) (hout : (c.refill K).out = List.replicate k 0xFF ++ x :: rest)
    (hx : x ≠ 0xFF) (hk : k < n) :
    Runs (At s ty true c) (rcvr_datablock.token K.bus n) x
      (At s ty true ((c.refill K).sending rest)) := by
  induction n generalizing k c with
  | zero => exact absurd hk (Nat.not_lt_zero k)
  | succ n ih =>
    cases k with
    | zero =>
      refine (rcvr_byte_refill h hmode hout).bind ?_
      rw [if_pos hx]
      exact Runs.ret
    | succ k =>
      refine (rcvr_byte_refill h hmode hout).bind ?_
      rw [if_neg (not_not.mpr rfl)]
      have hne : ((c.refill K).sending (List.replicate k 0xFF ++ x :: rest)).out ≠ [] := by
        show List.replicate k 0xFF ++ x :: rest ≠ []
        simp
      have hrest := ih (c := (c.refill K).sending (List.replicate k 0xFF ++ x :: rest))
        (h.refill.sending _) (Card.refill_listens hmode) (by rw [Card.refill_of_out hne]; rfl) (by omega)
      rw [Card.refill_of_out hne] at hrest
      exact hrest

/-- A data block comes in. -/
theorem rcvr_datablock_at {t : Nat} {bytes rest : List UInt8} (h : c.Calm)
    (hmode : c.mode.listens = true) (hout : (c.refill K).out = K.packet t bytes ++ rest) :
    Runs (At s ty true c) (rcvr_datablock K.bus bytes.length) (some bytes)
      (At s ty true ((c.refill K).sending rest)) := by
  have htoken : (c.refill K).out = List.replicate (K.access t) 0xFF ++ 0xFE ::
      (bytes ++ ([(K.crc bytes).1, (K.crc bytes).2] ++ rest)) := by
    rw [hout, Kind.packet, List.append_assoc, List.cons_append, List.append_assoc]
  have hlistens := Card.refill_listens (K := K) hmode
  refine (token_at h hmode htoken (by decide) (K.access_lt t)).bind ?_
  rw [if_neg (not_not.mpr rfl)]
  refine (rcvr_mmc_out (l := bytes) (h.refill.sending (bytes ++ _)) hlistens rfl).bind ?_
  refine (rcvr_mmc_out (l := [(K.crc bytes).1, (K.crc bytes).2]) (h.refill.sending (_ ++ rest))
    hlistens rfl).bind ?_
  exact Runs.ret

/-- A block comes in, and nothing follows. -/
theorem block_at {t : Nat} {b : Block} (h : c.Calm) (hmode : c.mode.listens = true)
    (hout : (c.refill K).out = K.packet t b.toList) :
    Runs (At s ty true c) (rcvr_datablock K.bus 512) (some b.toList)
      (At s ty true ((c.refill K).sending [])) := by
  have hlen : b.toList.length = 512 := Vector.length_toList
  have hbytes : Runs (At s ty true c) (rcvr_datablock K.bus b.toList.length) (some b.toList)
      (At s ty true ((c.refill K).sending [])) :=
    rcvr_datablock_at h hmode (by rw [hout, List.append_nil])
  rw [hlen] at hbytes
  exact hbytes

/-! ## Selecting the card -/

theorem deselect_at (h : c.Calm) :
    Runs (At s ty sel c) (deselect K.bus) () (At s ty false c) := by
  have hcs : Runs (At s ty sel c) (CS_H : StateM (Sdmm Card) Unit) () (At s ty false c) := by
    rintro d ⟨rfl, rfl, -, rfl⟩
    exact ⟨rfl, rfl, rfl, rfl, rfl⟩
  exact hcs.bind ((rcvr_byte_at (Card.exchange_deselected h 0xFF)).bind Runs.ret)

theorem select_at {k : Nat} (h : c.Calm) (hmode : c.mode.waits = true)
    (hout : c.out = List.replicate k 0x00) (hk : k < 5000) :
    Runs (At s ty sel c) (select K.bus) true (At s ty true (c.sending [])) := by
  have hcs : Runs (At s ty sel c) (CS_L : StateM (Sdmm Card) Unit) () (At s ty true c) := by
    rintro d ⟨rfl, rfl, -, rfl⟩
    exact ⟨rfl, rfl, rfl, rfl, rfl⟩
  refine hcs.bind ?_
  cases k with
  | zero =>
    refine (rcvr_byte_at (Card.exchange_empty h hmode hout)).bind ?_
    exact (wait_ready_at h hmode hout hk).bind Runs.ret
  | succ k =>
    refine (rcvr_byte_out h (Card.listens_of_waits hmode) hout).bind ?_
    exact (wait_ready_at (h.sending (List.replicate k 0x00)) hmode rfl (Nat.lt_of_succ_lt hk)).bind
      Runs.ret

/-! ## Commands -/

/-- The card has a property. -/
def In (s ty : UInt8) (sel : Bool) (P : Card → Prop) (d : Sdmm Card) : Prop :=
  ∃ c, P c ∧ At s ty sel c d

/-- The card answers with `r`, and then it has the property. -/
def Answers (e : Card) (r : UInt8) (P : Card → Prop) : Prop :=
  e.Calm ∧ e.mode.listens = true ∧ ∃ k rest, k < 10 ∧ e.out = List.replicate k 0xFF ++ r :: rest ∧
    P (e.sending rest)

theorem In.triple {α : Type} {P : Card → Prop} {m : StateM (Sdmm Card) α} {Q : α → Sdmm Card → Prop}
    (h : ∀ c, P c → Triple (At s ty sel c) m Q) : Triple (In s ty sel P) m Q := by
  rintro d ⟨c, hP, hd⟩
  exact h c hP d hd

/-- The bits of a command. -/
def Coded (cmd : UInt8) : Prop :=
  cmd ≠ CMD12 ∧ (0x40 ||| cmd) &&& 0xC0 = 0x40 ∧ (0x40 ||| cmd) &&& 0x3F = cmd

instance (cmd : UInt8) : Decidable (Coded cmd) := by
  unfold Coded
  infer_instance

theorem single_at {cmd r : UInt8} {arg : UInt32} {k : Nat} {P : Card → Prop} (hcmd : Coded cmd)
    (h : c.Calm) (hmode : c.mode = .command) (hout : c.out = List.replicate k 0x00) (hk : k < 5000)
    (hr : r &&& 0x80 = 0)
    (hans : ∀ t, Answers ((c.ticked t).execute K cmd arg.toNat) r P) :
    Runs (At s ty sel c) (send_cmd.single K.bus cmd arg) r (In s ty true P) := by
  have hwaits : c.mode.waits = true := by rw [hmode]; rfl
  have hready : Runs (At s ty sel c) (send_cmd.ready K.bus cmd) true (At s ty true (c.sending [])) := by
    unfold send_cmd.ready
    rw [if_neg hcmd.1]
    exact (deselect_at h).bind (select_at h hwaits hout hk)
  obtain ⟨t, hclock⟩ := Card.clock_packet (K := K) (h.sending []) (by rw [show (c.sending []).mode = c.mode from rfl, hmode]; rfl)
    hcmd.2.1 hcmd.2.2 arg
  obtain ⟨hcalm, hlistens, w, rest, hw, hsent, hP⟩ := hans t
  refine hready.bind ((xmit_mmc_at hclock).bind ?_)
  have hstuff : Runs (At s ty true ((c.ticked t).execute K cmd arg.toNat)) (send_cmd.stuff K.bus cmd) 0xFF (At s ty true
      ((c.ticked t).execute K cmd arg.toNat)) := by
    unfold send_cmd.stuff
    rw [if_neg hcmd.1]
    exact Runs.ret
  refine hstuff.bind ?_
  exact (response_at hcalm hlistens hsent hr (Nat.le_of_lt_succ hw)).conseq (fun _ hd => hd)
    fun d hd => ⟨_, hP, hd⟩

/-! ## Reading -/

/-- Between two calls. -/
structure Rest (blocks : Nat → Block) (c : Card) : Prop where
  calm : c.Calm
  mode : c.mode = .command
  idle : c.idle = false
  ready : ∃ k, k < 5000 ∧ c.out = List.replicate k 0x00
  blocks : c.blocks = blocks

/-- The blocks from `a` on are being sent. -/
structure Streaming (blocks : Nat → Block) (a : Nat) (c : Card) : Prop where
  calm : c.Calm
  mode : c.mode = .reading a
  idle : c.idle = false
  out : c.out = []
  blocks : c.blocks = blocks

/-- A data block is about to be sent. -/
structure Sending (blocks : Nat → Block) (bytes : List UInt8) (c : Card) : Prop where
  calm : c.Calm
  mode : c.mode = .command
  idle : c.idle = false
  out : ∃ t, c.out = K.packet t bytes
  blocks : c.blocks = blocks

variable {blocks : Nat → Block} {a : Nat}

theorem single_rest {cmd r : UInt8} {arg : UInt32} {P : Card → Prop} (hcmd : Coded cmd)
    (h : Rest blocks c) (hr : r &&& 0x80 = 0)
    (hans : ∀ t, Answers ((c.ticked t).execute K cmd arg.toNat) r P) :
    Runs (At s ty sel c) (send_cmd.single K.bus cmd arg) r (In s ty true P) := by
  obtain ⟨k, hk, hout⟩ := h.ready
  exact single_at hcmd h.calm h.mode hout hk hr hans

theorem address_block (sector : UInt32) : address (CT_SDC2 ||| CT_BLOCK) sector = sector :=
  if_neg (by decide)

theorem address_byte (sector : UInt32) : address CT_SDC2 sector = sector * 512 := if_pos (by decide)

/-- The type that the driver finds out. -/
def Kind.CardType (K : Kind) : UInt8 := if K.high then CT_SDC2 ||| CT_BLOCK else CT_SDC2

/-- The sector that the driver addresses. -/
theorem sector_address {sector : UInt32} (hcap : sector.toNat < K.capacity)
    (hbytes : K.high = false → sector.toNat * 512 < 4294967296) :
    Card.sector K (address K.CardType sector).toNat = some sector.toNat := by
  unfold Card.sector Kind.CardType
  cases hhigh : K.high with
  | true => rw [if_pos rfl, if_pos rfl, address_block, if_pos hcap]
  | false =>
    have hmul : (sector * 512).toNat = sector.toNat * 512 := by
      rw [UInt32.toNat_mul]
      exact Nat.mod_eq_of_lt (hbytes hhigh)
    rw [if_neg Bool.false_ne_true, if_neg Bool.false_ne_true, address_byte, hmul, Nat.mul_mod_left,
      Nat.mul_div_cancel _ (by decide), if_pos ⟨rfl, hcap⟩]

/-- A command that is not preceded by `CMD55`. -/
theorem send_cmd_eq {cmd : UInt8} (h : cmd &&& 0x80 = 0) (arg : UInt32) :
    send_cmd K.bus cmd arg = send_cmd.single K.bus cmd arg := if_neg (not_not.mpr h)

theorem read_one (h : Rest blocks c) {sect : UInt32} (hsect : Card.sector K sect.toNat = some a) :
    Runs (At s ty sel c) (disk_read.transfer K.bus CMD17 sect 1) (0, (blocks a).toList)
      (In s ty true (Rest blocks)) := by
  have hsend : Runs (At s ty sel c) (send_cmd K.bus CMD17 sect) 0x00
      (In s ty true (Sending (K := K) blocks (blocks a).toList)) := by
    rw [send_cmd_eq (by decide)]
    refine single_rest (by decide) h (by decide) fun t => ?_
    rw [Card.execute_read (c := c.ticked t) h.idle hsect]
    refine ⟨⟨h.calm.asleep, rfl⟩, rfl, _, _, K.response_lt _, rfl, ?_⟩
    exact ⟨⟨h.calm.asleep, rfl⟩, rfl, h.idle, ⟨t + 1, by rw [← h.blocks]; rfl⟩, h.blocks⟩
  refine hsend.bind (In.triple fun c' hc' => ?_)
  obtain ⟨t, hout⟩ := hc'.out
  have hrefill : c'.refill K = c' := Card.refill_of_waits (by rw [hc'.mode]; rfl)
  have hblock : Runs (At s ty true c') (rcvr_datablock K.bus 512) (some (blocks a).toList)
      (At s ty true ((c'.refill K).sending [])) :=
    block_at hc'.calm (by rw [hc'.mode]; rfl) (by rw [hrefill]; exact hout)
  rw [hrefill] at hblock
  have hblocks : Runs (At s ty true c') (disk_read.blocks K.bus (iterations 1) 1 [])
      (0, (blocks a).toList) (At s ty true (c'.sending [])) := hblock.bind Runs.ret
  refine hblocks.bind ?_
  rw [if_neg (by decide)]
  exact Runs.ret.conseq (fun _ hd => hd) fun d hd =>
    ⟨c'.sending [], ⟨hc'.calm.sending [], hc'.mode, hc'.idle, ⟨0, by decide, rfl⟩, hc'.blocks⟩, hd⟩

/-- The contents of `n` sectors. -/
def load (blocks : Nat → Block) (a n : Nat) : List UInt8 :=
  (List.range' a n).flatMap fun i => (blocks i).toList

theorem toNat_pred {count : UInt32} {n : Nat} (h : count.toNat = n + 1) : (count - 1).toNat = n := by
  have hone : (1 : UInt32) ≤ count := UInt32.le_iff_toNat_le.mpr (by
    show 1 ≤ count.toNat
    omega)
  rw [UInt32.toNat_sub_of_le _ _ hone, h]
  rfl

/-- The loop of a multiple block read. -/
theorem read_blocks_at {n : Nat} {count : UInt32} (hn : count.toNat = n) (ha : a + n ≤ K.capacity)
    (buff : List UInt8) :
    Runs (In s ty true (Streaming blocks a)) (disk_read.blocks K.bus n count buff)
      (0, buff ++ load blocks a n) (In s ty true (Streaming blocks (a + n))) := by
  induction n generalizing a count buff with
  | zero =>
    have hzero : count = 0 := UInt32.toNat_inj.mp hn
    subst hzero
    have hnone : buff ++ load blocks a 0 = buff := List.append_nil buff
    rw [hnone]
    exact Runs.ret
  | succ n ih =>
    refine In.triple fun c hc => ?_
    have hrefill := Card.refill_reading (K := K) hc.mode hc.out (by omega)
    have hblock : Runs (At s ty true c) (rcvr_datablock K.bus 512) (some (blocks a).toList)
        (At s ty true ((c.refill K).sending [])) :=
      block_at hc.calm (by rw [hc.mode]; rfl) (by rw [hrefill, ← hc.blocks])
    have hnext : Streaming blocks (a + 1) ((c.refill K).sending []) := by
      rw [hrefill]
      exact ⟨⟨hc.calm.asleep, hc.calm.frame⟩, rfl, hc.idle, rfl, hc.blocks⟩
    have hrest := ih (toNat_pred hn) (a := a + 1) (by omega) (buff ++ (blocks a).toList)
    have hload : buff ++ (blocks a).toList ++ load blocks (a + 1) n = buff ++ load blocks a (n + 1) := by
      rw [List.append_assoc]
      rfl
    rw [hload, Nat.add_assoc, Nat.add_comm 1 n] at hrest
    exact hblock.bind (hrest.pre fun d hd => ⟨_, hnext, hd⟩)

/-- What follows `CMD12`: a stuff byte, and the response. -/
theorem stopped_at (h : c.Calm) (hmode : c.mode.listens = true) {k : Nat} {rest : List UInt8}
    (hout : c.out = 0xFF :: (List.replicate k 0xFF ++ 0x00 :: rest)) (hk : k < 10) :
    Runs (At s ty true c)
      (do
        let _ ← send_cmd.stuff K.bus CMD12
        send_cmd.response K.bus 9) 0x00 (At s ty true (c.sending rest)) := by
  have hstuff : Runs (At s ty true c) (send_cmd.stuff K.bus CMD12) 0xFF
      (At s ty true (c.sending (List.replicate k 0xFF ++ 0x00 :: rest))) := by
    unfold send_cmd.stuff
    rw [if_pos rfl]
    exact rcvr_byte_out h hmode hout
  refine hstuff.bind ?_
  exact response_at (h.sending (List.replicate k 0xFF ++ 0x00 :: rest)) hmode rfl (by decide)
    (Nat.le_of_lt_succ hk)

/-- A multiple block read is stopped. -/
theorem stop_at : Runs (In s ty true (Streaming blocks a)) (send_cmd K.bus CMD12 0) 0x00
    (In s ty true (Rest blocks)) := by
  refine In.triple fun c hc => ?_
  obtain ⟨t, hclock⟩ := Card.clock_packet (K := K) hc.calm (by rw [hc.mode]; rfl)
    (show (0x40 ||| CMD12) &&& 0xC0 = 0x40 by decide) (by decide) 0
  rw [Card.execute_stop] at hclock
  rw [send_cmd_eq (by decide)]
  have hready : Runs (At s ty true c) (send_cmd.ready K.bus CMD12) true (At s ty true c) := by
    unfold send_cmd.ready
    rw [if_pos rfl]
    exact Runs.ret
  refine hready.bind ((xmit_mmc_at hclock).bind ?_)
  have hcalm : ((c.ticked t).answered K .command false
      (0x00 :: List.replicate (K.busy (t + 1)) 0x00)).Calm := ⟨hc.calm.asleep, rfl⟩
  refine Runs.conseq (stopped_at (hcalm.sending _) rfl rfl (K.response_lt (t + 1))) (fun _ hd => hd) ?_
  exact fun d hd => ⟨_, ⟨hcalm.sending _, rfl, hc.idle, ⟨_, K.busy_lt _, rfl⟩, hc.blocks⟩, hd⟩

theorem read_many (h : Rest blocks c) {sect count : UInt32}
    (hsect : Card.sector K sect.toNat = some a) (hcount : count ≠ 0)
    (ha : a + count.toNat ≤ K.capacity) :
    Runs (At s ty sel c) (disk_read.transfer K.bus CMD18 sect count)
      (0, load blocks a count.toNat) (In s ty true (Rest blocks)) := by
  have hsend : Runs (At s ty sel c) (send_cmd K.bus CMD18 sect) 0x00
      (In s ty true (Streaming blocks a)) := by
    rw [send_cmd_eq (by decide)]
    refine single_rest (by decide) h (by decide) fun t => ?_
    rw [Card.execute_read_many (c := c.ticked t) h.idle hsect]
    exact ⟨⟨h.calm.asleep, rfl⟩, rfl, _, _, K.response_lt _, rfl, ⟨h.calm.asleep, rfl⟩, rfl, h.idle,
      rfl, h.blocks⟩
  have hloop : iterations count = count.toNat := if_neg hcount
  refine hsend.bind ?_
  rw [if_neg (not_not.mpr rfl), hloop]
  refine (read_blocks_at rfl ha []).bind ?_
  rw [if_pos rfl]
  exact stop_at.bind Runs.ret

/-! ## Writing -/

/-- The block `a` is expected. -/
structure Accepting (blocks : Nat → Block) (a : Nat) (many : Bool) (c : Card) : Prop where
  calm : c.Calm
  mode : c.mode = .token a many
  idle : c.idle = false
  ready : ∃ k, k < 5000 ∧ c.out = List.replicate k 0x00
  blocks : c.blocks = blocks

/-- A block has been stored. -/
def Stored (blocks : Nat → Block) (a : Nat) : Bool → Card → Prop
  | true => Accepting blocks (a + 1) true
  | false => Rest blocks

/-- A block goes out. -/
theorem xmit_datablock_at (many : Bool) {buff : List UInt8} (hbuff : 512 ≤ buff.length)
    (ha : a < K.capacity) :
    Runs (In s ty true (Accepting blocks a many))
      (xmit_datablock K.bus buff (if many then 0xFC else 0xFE)) true
      (In s ty true (Stored (Function.update blocks a (Card.received buff)) a many)) := by
  refine In.triple fun c hc => ?_
  obtain ⟨k, hk, hout⟩ := hc.ready
  refine (wait_ready_at hc.calm (by rw [hc.mode]; rfl) hout hk).bind ?_
  rw [if_neg (by decide)]
  have htoken : (K.bus.clock true [if many then 0xFC else 0xFE] (c.sending [])).2 =
      c.filling a many c.frame := by
    refine (Card.exchange_token (c := c.sending []) hc.calm.asleep hc.mode rfl _).trans ?_
    exact if_pos rfl
  refine (xmit_mmc_at htoken).bind ?_
  rw [if_pos (by cases many <;> decide), hc.calm.frame]
  have hdata : (K.bus.clock true (buff.take 512) (c.filling a many [])).2 =
      c.filling a many (buff.take 512) := by
    refine Card.clock_data hc.calm.asleep rfl rfl ?_
    rw [List.length_take]
    show 0 + min 512 buff.length ≤ 513
    omega
  refine (xmit_mmc_at hdata).bind ?_
  have hcrc := Card.clock_crc (K := K) (c := c.filling a many (buff.take 512)) hc.calm.asleep rfl rfl
    hbuff rfl ha
  refine (rcvr_mmc_skip hcrc).bind ?_
  have hcalm : (((c.filling a many (buff.take 512)).stored a buff).ended K many a 0x05).Calm :=
    ⟨hc.calm.asleep, rfl⟩
  refine (rcvr_byte_out hcalm (by cases many <;> rfl) rfl).bind ?_
  rw [if_neg (by decide)]
  refine Runs.ret.conseq (fun _ hd => hd) fun d hd => ⟨_, ?_, hd⟩
  have hblocks : Function.update c.blocks a (Card.received buff) =
      Function.update blocks a (Card.received buff) := by rw [hc.blocks]
  cases many with
  | true => exact ⟨hcalm.sending _, rfl, hc.idle, ⟨_, K.busy_lt _, rfl⟩, hblocks⟩
  | false => exact ⟨hcalm.sending _, rfl, hc.idle, ⟨_, K.busy_lt _, rfl⟩, hblocks⟩

/-- The sectors after `n` blocks have been written from `a` on. -/
def store (blocks : Nat → Block) (a n : Nat) (buff : List UInt8) : Nat → Block := fun i =>
  if a ≤ i ∧ i < a + n then Card.received (buff.drop (512 * (i - a))) else blocks i

theorem store_zero (buff : List UInt8) : store blocks a 0 buff = blocks := by
  funext i
  exact if_neg (by omega)

/-- The first block is written first. -/
theorem store_succ (n : Nat) (buff : List UInt8) :
    store (Function.update blocks a (Card.received buff)) (a + 1) n (buff.drop 512) =
      store blocks a (n + 1) buff := by
  funext i
  unfold store
  by_cases hi : i = a
  · subst hi
    rw [if_neg (by omega), if_pos (by omega), Function.update_self, Nat.sub_self]
    rfl
  · rw [Function.update_of_ne hi, List.drop_drop]
    by_cases hin : a + 1 ≤ i ∧ i < a + 1 + n
    · rw [if_pos hin, if_pos (by omega)]
      congr 2
      omega
    · rw [if_neg hin, if_neg (by omega)]

/-- The loop of a multiple block write. -/
theorem write_blocks_at {n : Nat} {count : UInt32} (hn : count.toNat = n) (ha : a + n ≤ K.capacity)
    {buff : List UInt8} (hbuff : 512 * n ≤ buff.length) :
    Runs (In s ty true (Accepting blocks a true)) (disk_write.blocks K.bus n count buff) 0
      (In s ty true (Accepting (store blocks a n buff) (a + n) true)) := by
  induction n generalizing blocks a count buff with
  | zero =>
    have hzero : count = 0 := UInt32.toNat_inj.mp hn
    subst hzero
    rw [store_zero]
    exact Runs.ret
  | succ n ih =>
    have hblock : Runs (In s ty true (Accepting blocks a true)) (xmit_datablock K.bus buff 0xFC) true
        (In s ty true (Accepting (Function.update blocks a (Card.received buff)) (a + 1) true)) :=
      xmit_datablock_at true (by omega) (by omega)
    refine hblock.bind ?_
    rw [if_neg (by decide)]
    have hrest : Runs (In s ty true (Accepting (Function.update blocks a (Card.received buff)) (a + 1) true))
        (disk_write.blocks K.bus n (count - 1) (buff.drop 512)) 0 _ :=
      ih (toNat_pred hn) (by omega) (by rw [List.length_drop]; omega)
    rw [store_succ, Nat.add_assoc, Nat.add_comm 1 n] at hrest
    exact hrest

/-- The end of the blocks. -/
theorem xmit_stop_at : Runs (In s ty true (Accepting blocks a true)) (xmit_datablock K.bus [] 0xFD) true
    (In s ty true (Rest blocks)) := by
  refine In.triple fun c hc => ?_
  obtain ⟨k, hk, hout⟩ := hc.ready
  refine (wait_ready_at hc.calm (by rw [hc.mode]; rfl) hout hk).bind ?_
  rw [if_neg (by decide)]
  have htoken : (K.bus.clock true [0xFD] (c.sending [])).2 =
      { c with mode := .command, out := List.replicate (K.busy c.tick) 0x00, tick := c.tick + 1 } :=
    Card.exchange_token (c := c.sending []) hc.calm.asleep hc.mode rfl _
  refine (xmit_mmc_at htoken).bind ?_
  rw [if_neg (by decide)]
  refine Runs.ret.conseq (fun _ hd => hd) fun d hd => ⟨_, ?_, hd⟩
  exact ⟨⟨hc.calm.asleep, hc.calm.frame⟩, rfl, hc.idle, ⟨_, K.busy_lt _, rfl⟩, hc.blocks⟩

theorem write_one (h : Rest blocks c) {buff : List UInt8} {sect : UInt32}
    (hsect : Card.sector K sect.toNat = some a) (ha : a < K.capacity) (hbuff : 512 ≤ buff.length) :
    Runs (At s ty sel c) (disk_write.one K.bus buff sect 1) 0
      (In s ty true (Rest (store blocks a 1 buff))) := by
  have hsend : Runs (At s ty sel c) (send_cmd K.bus CMD24 sect) 0x00
      (In s ty true (Accepting blocks a false)) := by
    rw [send_cmd_eq (by decide)]
    refine single_rest (by decide) h (by decide) fun t => ?_
    rw [Card.execute_write (c := c.ticked t) h.idle hsect]
    exact ⟨⟨h.calm.asleep, rfl⟩, rfl, _, _, K.response_lt _, rfl, ⟨h.calm.asleep, rfl⟩, rfl, h.idle,
      ⟨0, by decide, rfl⟩, h.blocks⟩
  have hblock : Runs (In s ty true (Accepting blocks a false)) (xmit_datablock K.bus buff 0xFE) true
      (In s ty true (Rest (Function.update blocks a (Card.received buff)))) :=
    xmit_datablock_at false hbuff ha
  refine hsend.bind ?_
  rw [if_neg (not_not.mpr rfl)]
  refine hblock.bind ?_
  rw [if_pos rfl, ← store_succ, store_zero]
  exact Runs.ret

/-- The number of blocks is told to the card. -/
theorem erase_at (h : Rest blocks c) {CardType : UInt8} (htype : CardType &&& CT_SDC ≠ 0)
    (count : UInt32) : Runs (At s ty sel c) (disk_write.erase K.bus CardType count) ()
      (In s ty true (Rest blocks)) := by
  have happ : Runs (At s ty sel c) (send_cmd.single K.bus CMD55 0) 0x00
      (In s ty true fun c => Rest blocks c ∧ c.app = true) := by
    refine single_rest (by decide) h (by decide) fun t => ?_
    rw [Card.execute_app (c := c.ticked t) 0x00 (by rw [show (c.ticked t).idle = false from h.idle]; rfl)]
    exact ⟨⟨h.calm.asleep, rfl⟩, rfl, _, _, K.response_lt _, rfl,
      ⟨⟨h.calm.asleep, rfl⟩, rfl, h.idle, ⟨0, by decide, rfl⟩, h.blocks⟩, rfl⟩
  have hsend : Runs (At s ty sel c) (send_cmd K.bus ACMD23 count) 0x00 (In s ty true (Rest blocks)) := by
    unfold send_cmd
    rw [if_pos (by decide)]
    refine happ.bind ?_
    rw [if_neg (by decide)]
    refine In.triple fun c' hc' => single_rest (by decide) hc'.1 (by decide) fun t => ?_
    rw [show ACMD23 &&& 0x7F = 23 by decide, Card.execute_erase (c := c'.ticked t) hc'.1.idle hc'.2]
    exact ⟨⟨hc'.1.calm.asleep, rfl⟩, rfl, _, _, K.response_lt _, rfl,
      ⟨hc'.1.calm.asleep, rfl⟩, rfl, hc'.1.idle, ⟨0, by decide, rfl⟩, hc'.1.blocks⟩
  unfold disk_write.erase
  rw [if_pos htype]
  exact hsend.bind Runs.ret

theorem write_many (h : Rest blocks c) (hty : ty &&& CT_SDC ≠ 0) {buff : List UInt8}
    {sect count : UInt32} (hsect : Card.sector K sect.toNat = some a) (hcount : count ≠ 0)
    (ha : a + count.toNat ≤ K.capacity) (hbuff : 512 * count.toNat ≤ buff.length) :
    Runs (At s ty sel c) (disk_write.many K.bus buff sect count) 0
      (In s ty true (Rest (store blocks a count.toNat buff))) := by
  have hsend : Runs (In s ty true (Rest blocks)) (send_cmd K.bus CMD25 sect) 0x00
      (In s ty true (Accepting blocks a true)) := by
    refine In.triple fun c hc => ?_
    rw [send_cmd_eq (by decide)]
    refine single_rest (by decide) hc (by decide) fun t => ?_
    rw [Card.execute_write_many (c := c.ticked t) hc.idle hsect]
    exact ⟨⟨hc.calm.asleep, rfl⟩, rfl, _, _, K.response_lt _, rfl, ⟨hc.calm.asleep, rfl⟩, rfl, hc.idle,
      ⟨0, by decide, rfl⟩, hc.blocks⟩
  have hloop : iterations count = count.toNat := if_neg hcount
  refine get_at.bind fun d => Triple.assume fun hd => ?_
  rw [hd]
  refine (erase_at h hty count).bind (hsend.bind ?_)
  rw [if_neg (not_not.mpr rfl), hloop]
  refine (write_blocks_at rfl ha hbuff).bind (xmit_stop_at.bind ?_)
  rw [if_pos rfl]
  exact Runs.ret

end Bytes

end Miso.Sd
