import Miso.Fat.Sessions
import Miso.Sd.Array

/-!
# Files on an SD card

The functions of `diskio.h` are those of the driver (`sdmm.c`), with a card on the bus.

* `onCard_keeps` — the card keeps what is written to it;
* `card_survives` — when the power has been lost, the card has what has been synchronised.
-/

namespace Miso.Fat

open Sd Zig

/-- The driver, with an SD card. -/
def onCard (K : Kind) : Disk (Sdmm Card) where
  disk_read sector count := Sd.disk_read K.bus 0 (UInt32.ofNat sector) (UInt32.ofNat count)
  disk_write buff sector count := Sd.disk_write K.bus 0 buff (UInt32.ofNat sector) (UInt32.ofNat count)
  sync := do
    let x ← Sd.disk_ioctl K.bus 0 CTRL_SYNC
    return x.1

theorem toNat_ofNat {n : Nat} (h : n < 4294967296) : (UInt32.ofNat n).toNat = n :=
  UInt32.toNat_ofNat_of_lt' h

theorem ofNat_ne {n : Nat} (hpos : 0 < n) (h : n < 4294967296) : UInt32.ofNat n ≠ 0 := by
  intro heq
  have hn := toNat_ofNat h
  rw [heq] at hn
  have hzero : (0 : UInt32).toNat = 0 := rfl
  omega

/-- **An SD card keeps what is written to it.** -/
theorem onCard_keeps {K : Kind} {capacity : Nat} (hcap : capacity ≤ K.capacity)
    (hlt : capacity < 4294967296) : (onCard K).Keeps capacity False (Ready K) := by
  refine ⟨fun blocks s n hn hend => ?_, fun blocks buff s n hn hend hbuff => ?_, fun blocks => ?_⟩
  · have hs := toNat_ofNat (n := s) (by omega)
    have hcount := toNat_ofNat (n := n) (by omega)
    have hread : Runs (Ready K blocks) (Sd.disk_read K.bus 0 (UInt32.ofNat s) (UInt32.ofNat n))
        (.RES_OK, load blocks (UInt32.ofNat s).toNat (UInt32.ofNat n).toNat) (Ready K blocks) :=
      Sd.disk_read_at (ofNat_ne hn (by omega)) (by omega)
    rw [hs, hcount] at hread
    refine Triple.post hread ?_
    rintro x d ⟨rfl, hd⟩
    exact ⟨hd, fun _ => rfl, fun hne => hne rfl⟩
  · have hs := toNat_ofNat (n := s) (by omega)
    have hcount := toNat_ofNat (n := n) (by omega)
    have hwrite : Runs (Ready K blocks) (Sd.disk_write K.bus 0 buff (UInt32.ofNat s) (UInt32.ofNat n)) .RES_OK
        (Ready K (store blocks (UInt32.ofNat s).toNat (UInt32.ofNat n).toNat buff)) :=
      Sd.disk_write_at (ofNat_ne hn (by omega)) (by omega) (by omega)
    rw [hs, hcount] at hwrite
    refine Triple.post hwrite ?_
    rintro r d ⟨rfl, hd⟩
    exact ⟨_, hd, fun i hi => if_neg hi, fun _ => rfl, fun hne => hne rfl⟩
  · refine (Sd.disk_ioctl_at CTRL_SYNC).bind (Triple.ret fun d hd => ⟨hd, fun hne => hne ?_⟩)
    rfl

/-- A volume on an SD card. -/
def Mounted.onCard (G : Geometry) (K : Kind) (W : Nat → Prop) (windowed : G.Windowed W)
    (hcap : G.capacity ≤ K.capacity) : Mounted (Sdmm Card) where
  G := G
  D := Fat.onCard K
  W := W
  faulty := False
  Has := Ready K
  keeps := onCard_keeps hcap G.capacity_lt
  windowed := windowed
  whole := fun _ h => h

section Card

variable {ι : Type} [DecidableEq ι] {G : Geometry} {K : Kind} {W : Nat → Prop} {hW : G.Windowed W}
  {hcap : G.capacity ≤ K.capacity} {files : ι → List Nat} {other : Nat → Prop} {streams : ι → Stream}
  {d : Desk (Sdmm Card) ι} {i : ι}

/-- The card after the power has been lost: it is off, with the same blocks. -/
structure Restarted (K : Kind) (card card' : Card) : Prop where
  off : card'.Off K
  blocks : card'.blocks = card.blocks

/-- A card that is switched on and identified again has its blocks. -/
theorem Restarted.ready {blocks : Nat → Block} {disk : Sdmm Card} {c : Card} (h : Restarted K disk.card c)
    (hready : Ready K blocks disk) : Ready K blocks ( Sd.disk_initialize K.bus 0 (Sdmm.start c)).2 := by
  obtain ⟨c', hc', hd⟩ := hready
  have hblocks : c.blocks = blocks := by
    rw [h.blocks, hd.card, hc'.blocks]
  have hidentified := (identified h.off (Sdmm.start c) rfl).2
  rwa [hblocks] at hidentified

/-- **Files on a card survive**: if the power is lost when `f_sync` has returned, after whatever requests,
then the card is identified again, the volume is mounted again, and the file has the contents it had. -/
theorem card_survives (hM : (Mounted.onCard G K W hW hcap).Sane other) {qs : List (ι × Request)}
    (hqs : ∀ q ∈ qs, q.2.Fits) (hd : (Mounted.onCard G K W hW hcap).Serving other files streams d) {tm : Nat}
    {c : Card} {fs' : FATFS (Sdmm Card)} (r w : Bool)
    (hmod : ((Request.session G (onCard K) qs d).2.fps i).FA_MODIFIED = true)
    (hc : Restarted K
      (Request.on G (onCard K) i (.sync tm) (Request.session G (onCard K) qs d).2).2.fs.disk.card c)
    (hdisk : fs'.disk = ( Sd.disk_initialize K.bus 0 (Sdmm.start c)).2) :
    ∃ files' streams' data' fp', Mounted.Session (Mounted.onCard G K W hW hcap) other streams qs
        (Request.session G (onCard K) qs d).1 files' streams' ∧
      (mount_volume G (onCard K) fs').1 = .FR_OK ∧
      (reopen G (onCard K) ((Request.session G (onCard K) qs d).2.fps i).dir_sect
        ((Request.session G (onCard K) qs d).2.fps i).dir_ptr r w (mount_volume G (onCard K) fs').2).1 =
          some fp' ∧
      (Mounted.onCard G K W hW hcap).Shows data' (files' i)
        { streams' i with pos := 0, readable := r, writable := w } fp' := by
  obtain ⟨files', streams', hsession, data, hfs, hshows⟩ := Mounted.sessions_at hM hqs d hd
  obtain ⟨hok, data', fp', hopen, -, hshow⟩ := Mounted.sync_durable hM hfs hshows hmod
    (fun blocks hready => hdisk ▸ hc.ready hready) r w
  exact ⟨files', streams', data', fp', hsession, hok, hopen, hshow⟩

end Card

/-! ## A card with a formatted volume -/

def Kind.small : Kind := { Kind.quick with
  capacity := 66560
  csd := #v[0x40, 0, 0, 0, 0, 9, 0, 0, 0, 64, 0, 0, 0, 0, 0, 0]
  csd_tells := by decide
  capacity_lt := by decide
  capacity_le := fun h => by cases h }

/-- The card before it is switched on. -/
def Card.formatted : Card := { Card.blank with blocks := Fat.formatted }

/-- It is switched off. -/
theorem Restarted.blank (card : Card) : Restarted Kind.small card { Card.blank with blocks := card.blocks } :=
  ⟨⟨by show 10 ≤ 10; decide, rfl, rfl, rfl⟩, rfl⟩

def Mounted.formattedCard : Mounted (Sdmm Card) :=
  Mounted.onCard Geometry.formatted Kind.small (fun s => Geometry.formatted.First s ∨ s = 544)
    Geometry.formatted_windowed (by decide : 66070 ≤ 66560)

/-- A file with three bytes is synchronised, and found on the card. -/
theorem card_survives_small : ∃ disk c fs', Ready Kind.small Fat.formatted disk ∧
    Restarted Kind.small (Request.on Geometry.formatted (onCard Kind.small) () (.sync 0)
      (Request.session Geometry.formatted (onCard Kind.small) Request.three
        (Desk.mounted disk)).2).2.fs.disk.card c ∧
    ∃ files' streams' data' fp', Mounted.Session Mounted.formattedCard (· ≤ 2) (fun _ => Stream.empty)
        Request.three (Request.session Geometry.formatted (onCard Kind.small) Request.three
          (Desk.mounted disk)).1 files' streams' ∧
      (mount_volume Geometry.formatted (onCard Kind.small) fs').1 = .FR_OK ∧
      (reopen Geometry.formatted (onCard Kind.small)
        ((Request.session Geometry.formatted (onCard Kind.small) Request.three
          (Desk.mounted disk)).2.fps ()).dir_sect
        ((Request.session Geometry.formatted (onCard Kind.small) Request.three
          (Desk.mounted disk)).2.fps ()).dir_ptr
        true false (mount_volume Geometry.formatted (onCard Kind.small) fs').2).1 = some fp' ∧
      Mounted.formattedCard.Shows data' (files' ())
        { streams' () with pos := 0, readable := true, writable := false } fp' := by
  have hsane : Mounted.formattedCard.Sane (· ≤ 2) :=
    ⟨fun h => h, fun s c hs hin => formatted_window hs hin⟩
  have hfits : ∀ q ∈ Request.three, q.2.Fits := by
    simp [Request.three, Request.Fits]
  have hoff : Card.formatted.Off Kind.small := ⟨by decide, rfl, rfl, rfl⟩
  obtain ⟨disk, hready, hmod⟩ : ∃ disk, Ready Kind.small Fat.formatted disk ∧
      ((Request.session Geometry.formatted (onCard Kind.small) Request.three
        (Desk.mounted disk)).2.fps ()).FA_MODIFIED = true :=
    ⟨_, (identified hoff (Sdmm.start Card.formatted) rfl).2, by decide +kernel⟩
  have hserving : Mounted.formattedCard.Serving (· ≤ 2) (fun _ => []) (fun _ => Stream.empty)
      (Desk.mounted disk) := formatted_serving rfl rfl hready
  obtain ⟨c, hc⟩ : ∃ c, Restarted Kind.small (Request.on Geometry.formatted (onCard Kind.small) () (.sync 0)
      (Request.session Geometry.formatted (onCard Kind.small) Request.three
        (Desk.mounted disk)).2).2.fs.disk.card c := ⟨_, Restarted.blank _⟩
  refine ⟨disk, c, .zero ( Sd.disk_initialize Kind.small.bus 0 (Sdmm.start c)).2, hready, hc, ?_⟩
  exact card_survives hsane hfits hserving true false hmod hc rfl

end Miso.Fat
