import Miso.Zig.Triple
import Miso.Sd.Driver

/-!
# The discipline of the SD bus

Which transfers the driver makes, whatever is connected to the bus and however it answers.

* `Phase` — which command is open, and how far it has come, by the transfers so far;
* `Allowed` — what a transfer may be: a command only if none is open and the card is ready, a block
  only behind the response that accepts its command;
* `Inv` — between two calls CS# is high, no command is open, and an initialised drive runs at the fast
  rate;
* `disciplined_runs` — every transfer of every run is allowed.
-/

namespace Miso.Sd

open Zig

/-! ## Commands that are open -/

inductive Phase where
  | closed
  /-- The response is awaited. -/
  | asked (cmd : UInt8)
  /-- The card has accepted the command, and sends blocks. -/
  | reading (cmd : UInt8)
  /-- The card has accepted the command, and is sent blocks. -/
  | writing (cmd : UInt8)
  /-- The start token of a block has been sent. -/
  | started (cmd : UInt8)
  /-- The bytes of a block have been sent, and its CRC is next. -/
  | filled (cmd : UInt8)
  /-- The data response is awaited. -/
  | judged (cmd : UInt8)
  /-- The card has refused a block, and is sent no more. -/
  | refused (cmd : UInt8)
  deriving DecidableEq, Repr

namespace Phase

/-- A command has been accepted. -/
def opened (cmd : UInt8) : Phase :=
  if cmd ∈ [CMD24, CMD25] then writing cmd
  else if cmd ∈ [CMD9, CMD17, CMD18] then reading cmd
  else closed

/-- The card has sent a byte where the response to a command is awaited. -/
def answered (cmd b : UInt8) : Phase :=
  if b &&& 0x80 ≠ 0 then asked cmd else if b = 0 then opened cmd else closed

/-- The data response; a single block is the last one. -/
def decided (cmd b : UInt8) : Phase :=
  if cmd ≠ CMD25 then closed else if b &&& 0x1F = 0x05 then writing cmd else refused cmd

/-- A transfer while the card is selected; one while it is not closes the command. -/
def next (p : Phase) (t : Transfer) : Phase :=
  if t.selected = false then closed
  else match t.direction, p with
  | .tx, writing cmd => if t.bytes = [0xFD] then closed else started cmd
  | .tx, refused _ => closed
  | .tx, started cmd => filled cmd
  | .tx, _ => asked (t.bytes.headD 0 &&& 0x3F)
  | .rx, asked cmd => answered cmd (t.bytes.headD 0xFF)
  | .rx, filled cmd => judged cmd
  | .rx, judged cmd => decided cmd (t.bytes.headD 0xFF)
  | .rx, p => p

/-- The phase after some transfers. -/
def after (log : List Transfer) : Phase := log.foldl next closed

/-- Receiving changes nothing. -/
def quiet : Phase → Bool
  | asked _ => false
  | filled _ => false
  | judged _ => false
  | _ => true

theorem next_quiet {p : Phase} (h : p.quiet = true) (r : Option Rate) (bytes : List UInt8) :
    p.next ⟨.rx, true, r, bytes⟩ = p := by
  cases p with
  | asked cmd => cases h
  | filled cmd => cases h
  | judged cmd => cases h
  | _ => rfl

theorem after_concat (log : List Transfer) (t : Transfer) :
    after (log ++ [t]) = (after log).next t := by
  unfold after
  rw [List.foldl_append]
  rfl

end Phase

/-! ## Transfers -/

/-- The commands for identifying a card, and for reading and writing it. -/
def Rate.commands : Rate → List UInt8
  | wakeup => [CMD0, CMD1, CMD8, CMD16, CMD55, CMD58, 41]
  | fast => [CMD9, CMD17, CMD18, CMD24, CMD25, CMD55, 23]

/-- The card shows that it is ready. -/
def ready (r : Rate) : Option Transfer := some ⟨.rx, true, some r, [0xFF]⟩

/-- **What is sent, and when**: a transfer, given the phase and the transfer before it. -/
inductive Allowed : Phase → Option Transfer → Transfer → Prop where
  | receive (p : Phase) (before : Option Transfer) (selected : Bool) (r : Rate)
    (bytes : List UInt8) : Allowed p before ⟨.rx, selected, some r, bytes⟩
  | command (r : Rate) (cmd : UInt8) (arg : UInt32) : cmd ∈ r.commands →
    Allowed .closed (ready r) ⟨.tx, true, some r, send_cmd.packet cmd arg⟩
  /-- A multiple block read is stopped. -/
  | stop (bytes : List UInt8) : Allowed (.reading CMD18) (some ⟨.rx, true, some .fast, bytes⟩)
    ⟨.tx, true, some .fast, send_cmd.packet CMD12 0⟩
  | token (cmd t : UInt8) : (cmd, t) ∈ [(CMD24, 0xFE), (CMD25, 0xFC), (CMD25, 0xFD)] →
    Allowed (.writing cmd) (ready .fast) ⟨.tx, true, some .fast, [t]⟩
  /-- No block follows one that has been refused. -/
  | finish : Allowed (.refused CMD25) (ready .fast) ⟨.tx, true, some .fast, [0xFD]⟩
  | data (cmd t : UInt8) (buff : List UInt8) : buff.length ≤ 512 →
    Allowed (.started cmd) (some ⟨.tx, true, some .fast, [t]⟩) ⟨.tx, true, some .fast, buff⟩

/-- Each transfer is allowed behind those before it. -/
def Disciplined (log : List Transfer) : Prop :=
  ∀ before t after, log = before ++ t :: after → Allowed (Phase.after before) before.getLast? t

theorem Disciplined.nil : Disciplined [] := by
  intro before t after h
  exact absurd h.symm (by simp)

theorem Disciplined.snoc {log : List Transfer} {t : Transfer} (h : Disciplined log)
    (ht : Allowed (Phase.after log) log.getLast? t) : Disciplined (log ++ [t]) := by
  intro before u after heq
  rcases List.eq_nil_or_concat after with rfl | ⟨after', v, rfl⟩
  · obtain ⟨rfl, hu⟩ := List.append_inj' heq rfl
    cases hu
    exact ht
  · rw [List.concat_eq_append, ← List.cons_append, ← List.append_assoc] at heq
    exact h before u after' (List.append_inj' heq rfl).1

/-- **Between two calls**: every transfer so far is allowed, the card is deselected and no command is
open. -/
structure Inv {σ : Type} (d : Sdmm σ) : Prop where
  log : Disciplined d.log
  deselected : d.selected = false
  closed : Phase.after d.log = .closed
  rate : d.Stat &&& STA_NOINIT = 0 → d.rate = some .fast

/-! ## Within a call -/

section Calls

variable {σ : Type} {B : Bus σ}

/-- The rate and the status do not change, and the card is selected or not. -/
structure Has (r : Rate) (Stat : UInt8) (selected : Bool) (p : Phase) (d : Sdmm σ) : Prop where
  log : Disciplined d.log
  rate : d.rate = some r
  Stat : d.Stat = Stat
  selected : d.selected = selected
  phase : Phase.after d.log = p

/-- The last transfer has received `bytes` from the card. -/
def Received (r : Rate) (Stat : UInt8) (p : Phase) (bytes : List UInt8) (d : Sdmm σ) : Prop :=
  Has r Stat true p d ∧ d.log.getLast? = some ⟨.rx, true, some r, bytes⟩

/-- The card is selected, and the last transfer was a reception. -/
def Reading (r : Rate) (Stat : UInt8) (p : Phase) (d : Sdmm σ) : Prop :=
  ∃ bytes, Received r Stat p bytes d

/-- The card is selected. -/
def Selected (r : Rate) (Stat : UInt8) (d : Sdmm σ) : Prop := ∃ p, Has r Stat true p d

/-- The card is selected or not. -/
def Open (r : Rate) (Stat : UInt8) (d : Sdmm σ) : Prop := ∃ selected p, Has r Stat selected p d

variable {r : Rate} {s : UInt8} {sel : Bool} {p : Phase}

theorem Reading.has {d : Sdmm σ} (h : Reading r s p d) : Has r s true p d := h.elim fun _ h => h.1

theorem Has.toOpen {d : Sdmm σ} (h : Has r s sel p d) : Open r s d := ⟨sel, p, h⟩

theorem Selected.toOpen {d : Sdmm σ} (h : Selected r s d) : Open r s d := ⟨true, h⟩

theorem rcvr_mmc_any (bc : Nat) :
    Triple (Has r s sel p) (rcvr_mmc B bc) fun bytes d =>
      Has r s sel (p.next ⟨.rx, sel, some r, bytes⟩) d ∧
        d.log.getLast? = some ⟨.rx, sel, some r, bytes⟩ := by
  intro d h
  obtain ⟨hlog, hrate, rfl, rfl, rfl⟩ := h
  refine ⟨⟨hlog.snoc ?_, hrate, rfl, rfl, ?_⟩, ?_⟩
  · rw [hrate]
    exact .receive _ _ _ _ _
  · show Phase.after (d.log ++ [_]) = _
    rw [Phase.after_concat, hrate]
    rfl
  · show (d.log ++ [_]).getLast? = _
    rw [List.getLast?_concat, hrate]
    rfl

theorem rcvr_mmc_quiet (hp : p.quiet = true) (bc : Nat) :
    Triple (Has r s true p) (rcvr_mmc B bc) fun bytes d => Received r s p bytes d := by
  refine (rcvr_mmc_any bc).post fun bytes d h => ?_
  rw [Phase.next_quiet hp] at h
  exact h

/-- The phase that a byte leads to. -/
theorem rcvr_byte_next : Triple (Has r s true p) (rcvr_byte B) fun b d =>
    Received r s (p.next ⟨.rx, true, some r, [b]⟩) [b] d := by
  intro d h
  obtain ⟨hhas, hlast⟩ := rcvr_mmc_any (B := B) 1 d h
  exact ⟨hhas, hlast⟩

theorem rcvr_byte_received (hp : p.quiet = true) :
    Triple (Has r s true p) (rcvr_byte B) fun b d => Received r s p [b] d := by
  refine rcvr_byte_next.post fun b d h => ?_
  rw [Phase.next_quiet hp] at h
  exact h

theorem rcvr_byte_selected : Triple (Selected r s) (rcvr_byte B) fun _ => Selected r s := by
  refine Triple.exists fun p => rcvr_byte_next.post fun b d h => ⟨_, h.1⟩

theorem xmit_mmc_any {before : Transfer} {buff : List UInt8}
    (h : Allowed p (some before) ⟨.tx, true, some r, buff⟩) :
    Triple (fun d => Has r s true p d ∧ d.log.getLast? = some before) (xmit_mmc B buff)
      fun _ d => Has r s true (p.next ⟨.tx, true, some r, buff⟩) d ∧
        d.log.getLast? = some ⟨.tx, true, some r, buff⟩ := by
  rintro d ⟨⟨hlog, hrate, rfl, hsel, rfl⟩, hlast⟩
  refine ⟨⟨hlog.snoc ?_, hrate, rfl, hsel, ?_⟩, ?_⟩
  · rw [hlast, hrate, hsel]
    exact h
  · show Phase.after (d.log ++ [_]) = _
    rw [Phase.after_concat, hrate, hsel]
  · show (d.log ++ [_]).getLast? = _
    rw [List.getLast?_concat, hrate, hsel]

theorem wait_ready_any (hp : p.quiet = true) :
    Triple (Has r s true p) (wait_ready B) fun ok d =>
      Has r s true p d ∧ (ok = true → Received r s p [0xFF] d) := by
  suffices h : ∀ n, Triple (Has r s true p) (wait_ready.loop B n) fun ok d =>
      Has r s true p d ∧ (ok = true → Received r s p [0xFF] d) from h 5000
  intro n
  induction n with
  | zero => exact Triple.ret fun d h => ⟨h, fun hok => by cases hok⟩
  | succ n ih =>
    refine (rcvr_byte_received hp).bind fun b => Triple.ite (fun hb => ?_) fun _ => ?_
    · subst hb
      exact Triple.ret fun d h => ⟨h.1, fun _ => h⟩
    · exact ih.pre fun d h => h.1

/-- A transfer without CS# closes the command. -/
theorem deselect_any : Triple (Open r s) (deselect B) fun _ => Has r s false .closed := by
  have hcs : Triple (Open r s) (CS_H : StateM (Sdmm σ) Unit) fun _ d =>
      ∃ p, Has r s false p d := by
    rintro d ⟨_, p, h⟩
    exact ⟨p, h.log, h.rate, h.Stat, rfl, h.phase⟩
  refine hcs.bind fun _ => Triple.exists fun p => ?_
  refine Triple.bind (R := fun _ => Has r s false .closed) ?_ fun _ => Triple.ret fun _ h => h
  exact (rcvr_mmc_any 1).bind fun _ => Triple.ret fun _ h => h.1

theorem select_any : Triple (Has r s false .closed) (select B) fun ok d =>
    Open r s d ∧ (ok = true → Received r s .closed [0xFF] d) := by
  have hcs : Triple (Has r s false .closed) (CS_L : StateM (Sdmm σ) Unit) fun _ =>
      Has r s true .closed := by
    intro d h
    exact ⟨h.log, h.rate, h.Stat, rfl, h.phase⟩
  refine hcs.bind fun _ => (rcvr_byte_received rfl).bind fun _ => ?_
  refine Triple.bind ((wait_ready_any rfl).pre fun d h => h.1) fun ok => ?_
  refine Triple.ite (fun hok => ?_) fun _ => ?_
  · exact Triple.ret fun d h => ⟨h.1.toOpen, fun _ => h.2 hok⟩
  · refine Triple.bind (deselect_any.pre fun d h => h.1.toOpen) fun _ => ?_
    exact Triple.ret fun d h => ⟨h.toOpen, fun hok => by cases hok⟩

/-- The response decides what is open. -/
def Answered (r : Rate) (Stat cmd b : UInt8) (d : Sdmm σ) : Prop :=
  Reading r Stat (.answered cmd b) d

theorem response_any {cmd : UInt8} (n : Nat) :
    Triple (Has r s true (.asked cmd)) (send_cmd.response B n) fun b => Answered r s cmd b := by
  induction n with
  | zero => exact rcvr_byte_next.post fun b d h => ⟨[b], h⟩
  | succ n ih =>
    refine rcvr_byte_next.bind fun b => Triple.ite (fun _ => ?_) fun hb => ?_
    · exact Triple.ret fun d h => ⟨[b], h⟩
    · refine ih.pre fun d h => ?_
      have hphase := h.1
      rw [show (Phase.asked cmd).next ⟨.rx, true, some r, [b]⟩ = .asked cmd from if_pos hb]
        at hphase
      exact hphase

theorem response_selected (n : Nat) :
    Triple (Selected r s) (send_cmd.response B n) fun _ => Selected r s := by
  induction n with
  | zero => exact rcvr_byte_selected
  | succ n ih =>
    exact rcvr_byte_selected.bind fun b => Triple.ite (fun _ => Triple.ret fun _ h => h) fun _ => ih

theorem asked_packet {cmd : UInt8} (hcmd : cmd ∈ r.commands) (arg : UInt32) :
    Phase.closed.next ⟨.tx, true, some r, send_cmd.packet cmd arg⟩ = .asked cmd := by
  have hmask : (r.commands.all fun cmd => (0x40 ||| cmd) &&& 0x3F == cmd) = true := by
    cases r <;> decide
  exact congrArg Phase.asked (beq_iff_eq.mp (List.all_eq_true.mp hmask cmd hcmd))

/-- The command has been accepted. -/
def Opened (r : Rate) (Stat cmd : UInt8) (d : Sdmm σ) : Prop := Reading r Stat (.opened cmd) d

/-- A command that the card accepts is open from then on. -/
theorem single_any {cmd : UInt8} (hcmd : cmd ∈ r.commands) (arg : UInt32) :
    Triple (Open r s) (send_cmd.single B cmd arg) fun n d =>
      Open r s d ∧ (n = 0 → Opened r s cmd d) := by
  have hplain : cmd ≠ CMD12 := by
    rintro rfl
    revert hcmd
    cases r <;> decide
  have hready : Triple (Open r s) (send_cmd.ready B cmd) fun ok d =>
      Open r s d ∧ (ok = true → Received r s .closed [0xFF] d) := by
    unfold send_cmd.ready
    rw [if_neg hplain]
    exact deselect_any.bind fun _ => select_any
  have hsend : Triple (Received r s .closed [0xFF]) (do
      xmit_mmc B (send_cmd.packet cmd arg)
      let _ ← send_cmd.stuff B cmd
      send_cmd.response B 9) fun n d => Open r s d ∧ (n = 0 → Opened r s cmd d) := by
    unfold send_cmd.stuff
    rw [if_neg hplain]
    refine (xmit_mmc_any (.command r cmd arg hcmd)).bind fun _ => ?_
    rw [asked_packet hcmd]
    refine Triple.bind (R := fun _ => Has r s true (.asked cmd)) (Triple.ret fun _ h => h.1)
      fun _ => ?_
    refine (response_any 9).post fun n d h => ⟨Has.toOpen (Reading.has h), ?_⟩
    rintro rfl
    exact h
  refine hready.bind fun ok => Triple.ite (fun _ => ?_) fun hok => ?_
  · exact Triple.ret fun d h => ⟨h.1, fun hzero => absurd hzero (by decide)⟩
  · exact hsend.pre fun d h => h.2 (by simpa using hok)

/-- The end of a multiple block read. -/
theorem stop_any : Triple (Reading .fast s (.reading CMD18)) (send_cmd B CMD12 0) fun _ =>
    Selected .fast s := by
  have hsend (bytes : List UInt8) : Triple (Received .fast s (.reading CMD18) bytes) (do
      xmit_mmc B (send_cmd.packet CMD12 0)
      let _ ← send_cmd.stuff B CMD12
      send_cmd.response B 9) fun _ => Selected .fast s := by
    refine (xmit_mmc_any (.stop bytes)).bind fun _ => ?_
    refine Triple.bind (R := fun _ => Selected .fast s) ?_ fun _ => response_selected 9
    exact rcvr_byte_selected.pre fun d h => ⟨_, h.1⟩
  exact Triple.exists fun bytes => hsend bytes

theorem rcvr_datablock_any (hp : p.quiet = true) (btr : Nat) :
    Triple (Has r s true p) (rcvr_datablock B btr) fun _ => Reading r s p := by
  have htoken : ∀ n, Triple (Has r s true p) (rcvr_datablock.token B (n + 1)) fun _ =>
      Reading r s p := by
    intro n
    induction n with
    | zero =>
      refine (rcvr_byte_received hp).bind fun b => Triple.ite (fun _ => ?_) fun _ => ?_
      · exact Triple.ret fun d h => ⟨[b], h⟩
      · exact Triple.ret fun d h => ⟨[b], h⟩
    | succ n ih =>
      refine (rcvr_byte_received hp).bind fun b => Triple.ite (fun _ => ?_) fun _ => ?_
      · exact Triple.ret fun d h => ⟨[b], h⟩
      · exact ih.pre fun d h => h.1
  refine (htoken 999).bind fun _ => Triple.ite (fun _ => Triple.ret fun _ h => h) fun _ => ?_
  refine ((rcvr_mmc_quiet hp btr).pre fun d h => h.has).bind fun _ => ?_
  refine ((rcvr_mmc_quiet hp 2).pre fun d h => h.1).bind fun bytes => ?_
  exact Triple.ret fun d h => ⟨bytes, h⟩

/-- The bytes of a block, its CRC and the data response. -/
theorem block_any {β : Type} {cmd t : UInt8} {f : UInt8 → StateM (Sdmm σ) β}
    {Q : β → Sdmm σ → Prop} (buff : List UInt8)
    (hf : ∀ b, Triple (Has .fast s true (.decided cmd b)) (f b) Q) :
    Triple (fun d => Has .fast s true (.started cmd) d ∧
        d.log.getLast? = some ⟨.tx, true, some .fast, [t]⟩)
      (do
        xmit_mmc B (buff.take 512)
        let _ ← rcvr_mmc B 2
        let b ← rcvr_byte B
        f b) Q := by
  refine (xmit_mmc_any (.data cmd t _ (List.length_take_le 512 buff))).bind fun _ => ?_
  refine ((rcvr_mmc_any 2).pre fun d h => h.1).bind fun _ => ?_
  exact (rcvr_byte_next.pre fun d h => h.1).bind fun b => (hf b).pre fun d h => h.1

/-- More blocks may be sent, or only their end. -/
def Writable (Stat : UInt8) (d : Sdmm σ) : Prop :=
  Has .fast Stat true (.writing CMD25) d ∨ Has .fast Stat true (.refused CMD25) d

theorem Writable.selected {d : Sdmm σ} (h : Writable s d) : Selected .fast s d :=
  h.elim (fun h => ⟨_, h⟩) fun h => ⟨_, h⟩

/-- A block of a multiple block write. -/
theorem xmit_block_any (buff : List UInt8) :
    Triple (Has .fast s true (.writing CMD25)) (xmit_datablock B buff 0xFC) fun ok d =>
      Writable s d ∧ (ok = true → Has .fast s true (.writing CMD25) d) := by
  refine (wait_ready_any rfl).bind fun ok => Triple.ite (fun _ => ?_) fun hok => ?_
  · exact Triple.ret fun d h => ⟨.inl h.1, fun hno => by cases hno⟩
  · refine ((xmit_mmc_any (.token CMD25 0xFC (by decide))).pre fun d h =>
      h.2 (by simpa using hok)).bind fun _ => ?_
    rw [if_pos (by decide)]
    refine block_any buff fun b => Triple.ite (fun hbad => ?_) fun hgood => ?_
    · refine Triple.ret fun d h => ⟨.inr ?_, fun hno => by cases hno⟩
      rwa [Phase.decided, if_neg (by decide), if_neg hbad] at h
    · refine Triple.ret fun d h => ?_
      rw [Phase.decided, if_neg (by decide), if_pos (not_not.mp hgood)] at h
      exact ⟨.inl h, fun _ => h⟩

/-- The block of a single block write. -/
theorem xmit_single_any (buff : List UInt8) :
    Triple (Has .fast s true (.writing CMD24)) (xmit_datablock B buff 0xFE) fun _ =>
      Selected .fast s := by
  refine (wait_ready_any rfl).bind fun ok => Triple.ite (fun _ => ?_) fun hok => ?_
  · exact Triple.ret fun d h => ⟨_, h.1⟩
  · refine ((xmit_mmc_any (.token CMD24 0xFE (by decide))).pre fun d h =>
      h.2 (by simpa using hok)).bind fun _ => ?_
    rw [if_pos (by decide)]
    refine block_any buff fun b => Triple.ite (fun _ => ?_) fun _ => ?_
    · exact Triple.ret fun d h => ⟨_, h⟩
    · exact Triple.ret fun d h => ⟨_, h⟩

/-- The end of the blocks. -/
theorem xmit_finish_any :
    Triple (Writable s) (xmit_datablock B [] 0xFD) fun _ => Selected .fast s := by
  have hfinish {p : Phase} (hp : p.quiet = true)
      (h : Allowed p (ready .fast) ⟨.tx, true, some .fast, [0xFD]⟩) :
      Triple (Has .fast s true p) (xmit_datablock B [] 0xFD) fun _ => Selected .fast s := by
    refine (wait_ready_any hp).bind fun ok => Triple.ite (fun _ => ?_) fun hok => ?_
    · exact Triple.ret fun d h => ⟨_, h.1⟩
    · refine ((xmit_mmc_any h).pre fun d h => h.2 (by simpa using hok)).bind fun _ => ?_
      rw [if_neg (by decide)]
      exact Triple.ret fun d h => ⟨_, h.1⟩
  rintro d (h | h)
  · exact hfinish rfl (.token CMD25 0xFD (by decide)) d h
  · exact hfinish rfl .finish d h

/-- The blocks of a read. -/
theorem read_blocks_any (hp : p.quiet = true) (n : Nat) (count : UInt32) (buff : List UInt8) :
    Triple (Reading .fast s p) (disk_read.blocks B n count buff) fun _ => Reading .fast s p := by
  induction n generalizing count buff with
  | zero => exact Triple.ret fun _ h => h
  | succ n ih =>
    refine Triple.bind ((rcvr_datablock_any hp 512).pre fun d h => h.has) fun data => ?_
    cases data with
    | none => exact Triple.ret fun _ h => h
    | some data => exact ih _ _

/-- A command that is not preceded by `CMD55`. -/
theorem send_cmd_single {cmd : UInt8} (hcmd : cmd ∈ r.commands) (hplain : cmd &&& 0x80 = 0)
    (arg : UInt32) : Triple (Open r s) (send_cmd B cmd arg) fun n d =>
      Open r s d ∧ (n = 0 → Opened r s cmd d) := by
  unfold send_cmd
  rw [if_neg (not_not.mpr hplain)]
  exact single_any hcmd arg

/-- A command that is preceded by `CMD55`. -/
theorem send_cmd_double {cmd : UInt8} (hcmd : cmd &&& 0x7F ∈ r.commands) (h55 : CMD55 ∈ r.commands)
    (hdouble : cmd &&& 0x80 ≠ 0) (arg : UInt32) :
    Triple (Open r s) (send_cmd B cmd arg) fun _ => Open r s := by
  unfold send_cmd
  rw [if_pos hdouble]
  refine (single_any h55 0).bind fun n => Triple.ite (fun _ => ?_) fun _ => ?_
  · exact Triple.ret fun _ h => h.1
  · exact (single_any hcmd arg).conseq (fun d h => h.1) fun _ d h => h.1

/-- A command that opens nothing that matters. -/
theorem send_cmd_plain {cmd : UInt8} (hcmd : cmd ∈ r.commands) (hplain : cmd &&& 0x80 = 0)
    (arg : UInt32) : Triple (Open r s) (send_cmd B cmd arg) fun _ => Open r s :=
  (send_cmd_single hcmd hplain arg).post fun _ _ h => h.1

theorem read_transfer_any {cmd : UInt8} (hcmd : cmd ∈ [CMD17, CMD18]) (sect count : UInt32) :
    Triple (Open .fast s) (disk_read.transfer B cmd sect count) fun _ => Open .fast s := by
  have hfast : cmd ∈ Rate.fast.commands ∧ cmd &&& 0x80 = 0 ∧ Phase.opened cmd = .reading cmd := by
    rw [List.mem_pair] at hcmd
    obtain rfl | rfl := hcmd
    · exact ⟨by decide, by decide, rfl⟩
    · exact ⟨by decide, by decide, rfl⟩
  obtain ⟨hfast, hplain, hopened⟩ := hfast
  refine (send_cmd_single hfast hplain sect).bind fun n => ?_
  refine Triple.ite (fun _ => Triple.ret fun _ h => h.1) fun hn => ?_
  refine Triple.bind ((read_blocks_any (s := s) (p := .reading cmd) rfl _ _ _).pre fun d h => ?_) fun left => ?_
  · have hread := h.2 (not_not.mp hn)
    rwa [Opened, hopened] at hread
  · refine Triple.ite (fun hstop => ?_) fun _ => Triple.ret fun _ h => h.has.toOpen
    rw [hstop]
    exact stop_any.bind fun _ => Triple.ret fun _ h => h.toOpen

/-- The blocks of a write. -/
theorem write_blocks_any (n : Nat) (count : UInt32) (buff : List UInt8) :
    Triple (Has .fast s true (.writing CMD25)) (disk_write.blocks B n count buff) fun _ =>
      Writable s := by
  induction n generalizing count buff with
  | zero => exact Triple.ret fun _ h => .inl h
  | succ n ih =>
    refine (xmit_block_any buff).bind fun ok => Triple.ite (fun _ => ?_) fun hok => ?_
    · exact Triple.ret fun _ h => h.1
    · exact (ih _ _).pre fun d h => h.2 (by simpa using hok)

theorem write_one_any (buff : List UInt8) (sect count : UInt32) :
    Triple (Open .fast s) (disk_write.one B buff sect count) fun _ => Open .fast s := by
  refine (send_cmd_single (by decide) (by decide) sect).bind fun n => ?_
  refine Triple.ite (fun _ => Triple.ret fun _ h => h.1) fun hn => ?_
  refine Triple.bind ((xmit_single_any buff).pre fun d h => (h.2 (not_not.mp hn)).has) fun ok => ?_
  refine Triple.ite (fun _ => ?_) fun _ => ?_
  · exact Triple.ret fun _ h => h.toOpen
  · exact Triple.ret fun _ h => h.toOpen

/-- `send_cmd(CMD25, …)` and what follows it. -/
theorem write_many_any (buff : List UInt8) (sect count : UInt32) :
    Triple (Open .fast s) (disk_write.many B buff sect count) fun _ => Open .fast s := by
  have hcount (ty : UInt8) : Triple (Open .fast s) (disk_write.erase B ty count) fun _ =>
      Open .fast s := by
    refine Triple.ite (fun _ => ?_) fun _ => Triple.ret fun _ h => h
    refine (send_cmd_double (by decide) (by decide) (by decide) count).bind fun _ => ?_
    exact Triple.ret fun _ h => h
  refine Triple.bind (R := fun _ => Open .fast s) (Triple.get fun _ h => h) fun d => ?_
  refine (hcount d.CardType).bind fun _ => ?_
  refine (send_cmd_single (by decide) (by decide) sect).bind fun n => ?_
  refine Triple.ite (fun _ => Triple.ret fun _ h => h.1) fun hn => ?_
  refine Triple.bind ((write_blocks_any _ _ _).pre fun d h => (h.2 (not_not.mp hn)).has) fun left => ?_
  refine xmit_finish_any.bind fun ok => Triple.ite (fun _ => ?_) fun _ => ?_
  · exact Triple.ret fun _ h => h.toOpen
  · exact Triple.ret fun _ h => h.toOpen

theorem request_any (ctrl : UInt8) :
    Triple (Has .fast s false .closed) (disk_ioctl.request B ctrl) fun _ => Open .fast s := by
  refine Triple.ite (fun _ => ?_) fun _ => Triple.ite (fun _ => ?_) fun _ => ?_
  · exact select_any.bind fun _ => Triple.ret fun _ h => h.1
  · refine Triple.bind ((send_cmd_single (by decide) (by decide) 0).pre fun d h => h.toOpen) fun n => ?_
    refine Triple.ite (fun _ => Triple.ret fun _ h => h.1) fun hn => ?_
    refine Triple.bind ((rcvr_datablock_any (p := .opened CMD9) rfl 16).pre fun d h =>
      (h.2 (not_not.mp hn)).has) fun csd => ?_
    cases csd with
    | none => exact Triple.ret fun _ h => h.has.toOpen
    | some csd => exact Triple.ret fun _ h => h.has.toOpen
  · refine Triple.ite (fun _ => ?_) fun _ => ?_
    · exact Triple.ret fun _ h => h.toOpen
    · exact Triple.ret fun _ h => h.toOpen

/-! ## Identification -/

theorem leave_any (cmd : UInt8) (arg : UInt32)
    (hsend : Triple (Open .wakeup s) (send_cmd B cmd arg) fun _ => Open .wakeup s) (n : Nat) :
    Triple (Open .wakeup s) (leave_idle B cmd arg n) fun _ => Open .wakeup s := by
  induction n with
  | zero => exact Triple.ret fun _ h => h
  | succ n ih =>
    exact hsend.bind fun a => Triple.ite (fun _ => Triple.ret fun _ h => h) fun _ => ih

theorem rcvr_open (bc : Nat) : Triple (Open r s) (rcvr_mmc B bc) fun _ => Open r s := by
  refine Triple.exists fun sel => Triple.exists fun p => ?_
  exact (rcvr_mmc_any bc).post fun _ d h => h.1.toOpen

theorem version2_any : Triple (Open .wakeup s) (card_type.version2 B) fun _ => Open .wakeup s := by
  have hleave := leave_any (B := B) (s := s) ACMD41 0x40000000
    (send_cmd_double (by decide) (by decide) (by decide) _) 1000
  refine (rcvr_open 4).bind fun buf => Triple.ite (fun _ => Triple.ret fun _ h => h) fun _ => ?_
  refine hleave.bind fun ok => Triple.ite (fun _ => Triple.ret fun _ h => h) fun _ => ?_
  refine (send_cmd_plain (by decide) (by decide) 0).bind fun n => ?_
  refine Triple.ite (fun _ => Triple.ret fun _ h => h) fun _ => ?_
  exact (rcvr_open 4).bind fun _ => Triple.ret fun _ h => h

theorem old_any (ty : UInt8) {cmd : UInt8}
    (hsend : Triple (Open .wakeup s) (send_cmd B cmd 0) fun _ => Open .wakeup s) :
    Triple (Open .wakeup s) (card_type.old B ty cmd) fun _ => Open .wakeup s := by
  refine (leave_any cmd 0 hsend 1000).bind fun ok => ?_
  refine Triple.ite (fun _ => Triple.ret fun _ h => h) fun _ => ?_
  refine (send_cmd_plain (by decide) (by decide) 512).bind fun n => ?_
  exact Triple.ite (fun _ => Triple.ret fun _ h => h) fun _ => Triple.ret fun _ h => h

theorem type_any : Triple (Open .wakeup s) (card_type B) fun _ => Open .wakeup s := by
  refine (send_cmd_plain (by decide) (by decide) 0).bind fun n => ?_
  refine Triple.ite (fun _ => Triple.ret fun _ h => h) fun _ => ?_
  refine (send_cmd_plain (by decide) (by decide) _).bind fun n => ?_
  refine Triple.ite (fun _ => version2_any) fun _ => ?_
  refine (send_cmd_double (by decide) (by decide) (by decide) 0).bind fun n => ?_
  refine Triple.ite (fun _ => ?_) fun _ => ?_
  · exact old_any _ (send_cmd_double (by decide) (by decide) (by decide) 0)
  · exact old_any _ (send_cmd_plain (by decide) (by decide) 0)

end Calls

/-! ## The functions of `diskio.h` -/

section Functions

variable {σ : Type} {B : Bus σ}

theorem or_and_noinit (a b : UInt8) : (a ||| b) &&& STA_NOINIT = a &&& STA_NOINIT ||| b &&& STA_NOINIT :=
  UInt8.toBitVec_inj.1 BitVec.and_or_distrib_right

theorem noinit_disk (Stat : UInt8) : (Stat ||| STA_NODISK) &&& STA_NOINIT = Stat &&& STA_NOINIT ∧
    (Stat &&& ~~~STA_NODISK) &&& STA_NOINIT = Stat &&& STA_NOINIT := by
  constructor
  · rw [or_and_noinit]
    exact UInt8.or_zero
  · rw [UInt8.and_assoc]
    rfl

theorem noinit_set (Stat : UInt8) : (Stat ||| STA_NOINIT) &&& STA_NOINIT ≠ 0 := by
  rw [or_and_noinit, UInt8.and_self]
  intro h
  exact absurd (UInt8.or_eq_zero_iff.mp h).2 (by decide)

/-- `disk_status` sets `STA_NOINIT` for another drive, and never clears it. -/
theorem noinit_next (drv : UInt8) (inserted : Bool) (Stat : UInt8) :
    disk_status.next drv inserted Stat &&& STA_NOINIT = 0 ↔ drv = 0 ∧ Stat &&& STA_NOINIT = 0 := by
  have hdisk : disk_status.next drv inserted Stat &&& STA_NOINIT =
      (if drv ≠ 0 then Stat ||| STA_NOINIT else Stat) &&& STA_NOINIT := by
    unfold disk_status.next
    cases inserted with
    | true => exact (noinit_disk _).2
    | false => exact (noinit_disk _).1
  rw [hdisk]
  by_cases hdrv : drv = 0
  · rw [if_neg (not_not.mpr hdrv)]
    exact (and_iff_right hdrv).symm
  · rw [if_pos hdrv]
    exact iff_of_false (noinit_set Stat) fun h => hdrv h.1

theorem disk_status_inv (drv : UInt8) :
    Triple Inv (disk_status B drv) fun Stat d => Inv d ∧ d.Stat = Stat := by
  intro d h
  exact ⟨⟨h.log, h.deselected, h.closed, fun hzero => h.rate ((noinit_next _ _ _).mp hzero).2⟩, rfl⟩

/-- An initialised drive has an open bus. -/
theorem Inv.has {d : Sdmm σ} (h : Inv d) (hinit : ¬d.Stat &&& STA_NOINIT ≠ 0) :
    Has .fast d.Stat false .closed d :=
  ⟨h.log, h.rate (not_not.mp hinit), rfl, h.deselected, h.closed⟩

theorem Has.inv {Stat : UInt8} {d : Sdmm σ} (h : Has .fast Stat false .closed d) : Inv d :=
  ⟨h.log, h.selected, h.phase, fun _ => h.rate⟩

/-- A function that checks the status, uses the bus and deselects the card. -/
theorem guarded_inv {α β : Type} (drv : UInt8) {busy : β} {f : StateM (Sdmm σ) α} {g : α → β}
    (hf : ∀ Stat, Triple (Has .fast Stat false .closed) f fun _ => Open .fast Stat) :
    Triple Inv (do
      if (← disk_status B drv) &&& STA_NOINIT ≠ 0 then return busy
      let x ← f
      deselect B
      return g x) fun _ => Inv := by
  refine (disk_status_inv drv).bind fun Stat => Triple.ite (fun _ => Triple.ret fun _ h => h.1) fun h => ?_
  refine Triple.bind (R := fun _ => Open .fast Stat) ?_ fun _ => ?_
  · refine (hf Stat).pre ?_
    rintro d ⟨hinv, rfl⟩
    exact hinv.has h
  · exact deselect_any.bind fun _ => Triple.ret fun _ h => h.inv

theorem disk_read_inv (drv : UInt8) (sector count : UInt32) :
    Triple Inv (disk_read B drv sector count) fun _ => Inv := by
  have hcmd (big : Bool) : (if big then CMD18 else CMD17) ∈ [CMD17, CMD18] := by
    cases big <;> decide
  refine guarded_inv (g := fun left : UInt32 × List UInt8 =>
    (if left.1 ≠ 0 then DRESULT.RES_ERROR else .RES_OK, left.2)) drv (f := do
      let sect := address (← get).CardType sector
      disk_read.transfer B (if 1 < count then CMD18 else CMD17) sect count) fun Stat => ?_
  refine Triple.bind (R := fun _ => Open .fast Stat) (Triple.get fun _ h => h.toOpen) fun d => ?_
  exact read_transfer_any (by simpa using hcmd (1 < count)) _ _

theorem disk_write_inv (drv : UInt8) (buff : List UInt8) (sector count : UInt32) :
    Triple Inv (disk_write B drv buff sector count) fun _ => Inv := by
  refine guarded_inv (g := fun left : UInt32 =>
    if left ≠ 0 then DRESULT.RES_ERROR else .RES_OK) drv (f := do
      let sect := address (← get).CardType sector
      disk_write.transfer B buff sect count) fun Stat => ?_
  refine Triple.bind (R := fun _ => Open .fast Stat) (Triple.get fun _ h => h.toOpen) fun d => ?_
  exact Triple.ite (fun _ => write_one_any _ _ _) fun _ => write_many_any _ _ _

theorem disk_ioctl_inv (drv ctrl : UInt8) : Triple Inv (disk_ioctl B drv ctrl) fun _ => Inv :=
  guarded_inv (g := id) drv fun _ => request_any ctrl

/-- A card that has been identified, or not. -/
theorem identified_inv (ty : UInt8) :
    Triple (Open .wakeup (if ty ≠ 0 then 0 else STA_NOINIT)) (do
      deselect B
      if ty ≠ 0 then
        BOARD_SD_CARD_SetFastBaudrate
        return if ty ≠ 0 then 0 else STA_NOINIT
      disk_disable B) fun _ => Inv := by
  refine deselect_any.bind fun _ => Triple.ite (fun _ => ?_) fun hty => ?_
  · refine Triple.bind (R := fun _ => Inv) (Triple.modify fun d h => ?_) fun _ => Triple.ret fun _ h => h
    exact ⟨h.log, h.selected, h.phase, fun _ => by rw [h.rate]; rfl⟩
  · have hdisable : Triple (Has .wakeup (if ty ≠ 0 then 0 else STA_NOINIT) false .closed)
        (BOARD_SD_Card_Disable : StateM (Sdmm σ) Unit) fun _ => Inv := by
      intro d h
      refine ⟨h.log, rfl, h.phase, fun hzero => ?_⟩
      have hStat := h.Stat
      rw [if_neg hty] at hStat
      exact absurd (hStat ▸ hzero) (by decide)
    refine hdisable.bind fun _ => Triple.bind (R := fun _ => Inv) (Triple.modify fun d h => ?_) fun _ => ?_
    · exact ⟨h.log, rfl, h.closed, h.rate⟩
    · exact (disk_status_inv 0).post fun _ d h => h.1

theorem disk_initialize_inv (drv : UInt8) :
    Triple Inv ( disk_initialize B drv) fun _ => Inv := by
  refine Triple.ite (fun _ => Triple.ret fun _ h => h) fun _ => ?_
  refine (disk_status_inv drv).bind fun Stat => Triple.ite (fun _ => Triple.ret fun _ h => h.1) fun _ => ?_
  have hpins : Triple (fun d => Inv d ∧ d.Stat = Stat) (enable : StateM (Sdmm σ) Unit) fun _ =>
      Open .wakeup Stat := by
    rintro d ⟨h, rfl⟩
    exact ⟨false, .closed, h.log, rfl, rfl, rfl, h.closed⟩
  refine hpins.bind fun _ => (rcvr_open 10).bind fun _ => type_any.bind fun ty => ?_
  have hset : Triple (Open .wakeup Stat) (modify fun d : Sdmm σ =>
      { d with CardType := ty, Stat := if ty ≠ 0 then 0 else STA_NOINIT }) fun _ =>
        Open .wakeup (if ty ≠ 0 then 0 else STA_NOINIT) := by
    rintro d ⟨selected, p, h⟩
    exact ⟨selected, p, h.log, h.rate, rfl, h.selected, h.phase⟩
  exact hset.bind fun _ => identified_inv ty

/-- A call keeps the discipline. -/
theorem Call.run_inv (c : Call) : Triple Inv (c.run B) fun _ => Inv := by
  cases c with
  | status drv => exact (disk_status_inv drv).bind fun _ => Triple.ret fun _ h => h.1
  | init drv => exact ( disk_initialize_inv drv).bind fun _ => Triple.ret fun _ h => h
  | read drv sector count =>
    exact (disk_read_inv drv sector count).bind fun _ => Triple.ret fun _ h => h
  | write drv buff sector count =>
    exact (disk_write_inv drv buff sector count).bind fun _ => Triple.ret fun _ h => h
  | ioctl drv ctrl => exact (disk_ioctl_inv drv ctrl).bind fun _ => Triple.ret fun _ h => h

theorem Event.run_inv (e : Event σ) {d : Sdmm σ} (h : Inv d) : Inv (e.run B d) := by
  cases e with
  | call c => exact c.run_inv d h
  | card c => exact ⟨h.log, h.deselected, h.closed, h.rate⟩

theorem Inv.start (c : σ) : Inv (Sdmm.start c) :=
  ⟨Disciplined.nil, rfl, rfl, fun hzero => absurd (show STA_NOINIT &&& STA_NOINIT = 0 from hzero) (by decide)⟩

/-- **Every transfer of every run is allowed**, whatever is connected to the bus and whenever the card
is exchanged; between the calls the card is deselected. -/
theorem disciplined_runs (B : Bus σ) (c : σ) (events : List (Event σ)) :
    Inv (runs B c events) := by
  suffices h : ∀ d : Sdmm σ, Inv d → Inv (events.foldl (fun d e => e.run B d) d) from h _ (.start c)
  intro d h
  induction events generalizing d with
  | nil => exact h
  | cons e events ih => exact ih _ (e.run_inv h)

end Functions

end Miso.Sd
