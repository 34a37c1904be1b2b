import Miso.Boot.Outcomes

/-!
# Reads of an image file (`flash_area_read`)

The image library reads a candidate through `flash_area_read`, whose FatFs calls are
`catch unreachable` and whose result is always 0.

* `Calling` — a sequence of calls whose failures are all handled in the same way;
* `flash_area_read_calls` — what a read does: two calls, and as much of the buffer is filled as the
  file has bytes;
* `reads_complete_iff` — a read is complete whenever it reports success exactly if no call fails
  and the range is in the file.
-/

namespace Miso.Boot

open Zig

/-! ## Sequences of calls -/

/-- How the failure of a call is handled: with `try`, or with `catch unreachable`. -/
inductive Handling where
  | reported
  | unreachable
  deriving DecidableEq, Repr

/-- The exit behind a failing call. -/
def Handling.Exits {α : Type} : Handling → Exit Error α → Prop
  | .reported, x => x.failed = true
  | .unreachable, x => x = .trap

/-- From `w`, `m` makes `n` calls, handles their failures by `h` and returns `a`; it only reads. -/
def Calling {α : Type} (h : Handling) (m : BootM α) (n : Nat) (a : α) (w : Device) : Prop :=
  match survey w.faults (List.replicate n true) w.tick with
  | .passed => m w = (.ok a, w.seek (w.tick + n))
  | .failed => h.Exits (m w).1 ∧ Quiet w (m w).2
  | .halted => (m w).1 = .halt ∧ Quiet w (m w).2

namespace Calling

variable {α β : Type} {h : Handling} {m : BootM α} {n k : Nat} {a : α} {b : β} {w : Device}

theorem passed (hm : Calling h m n a w)
    (hs : survey w.faults (List.replicate n true) w.tick = .passed) :
    m w = (.ok a, w.seek (w.tick + n)) := by
  unfold Calling at hm
  rwa [hs] at hm

theorem failed (hm : Calling h m n a w)
    (hs : survey w.faults (List.replicate n true) w.tick = .failed) :
    h.Exits (m w).1 ∧ Quiet w (m w).2 := by
  unfold Calling at hm
  rwa [hs] at hm

theorem halted (hm : Calling h m n a w)
    (hs : survey w.faults (List.replicate n true) w.tick = .halted) :
    (m w).1 = .halt ∧ Quiet w (m w).2 := by
  unfold Calling at hm
  rwa [hs] at hm

protected theorem pure (a : α) (w : Device) : Calling h (pure a) 0 a w := rfl

/-- Sequences of calls are appended by sequencing. -/
protected theorem bind {f : α → BootM β} (hm : Calling h m n a w)
    (hf : Calling h (f a) k b (w.seek (w.tick + n))) : Calling h (m >>= f) (n + k) b w := by
  unfold Calling
  rw [← List.replicate_append_replicate, survey_append, List.length_replicate]
  cases hs : survey w.faults (List.replicate n true) w.tick with
  | passed =>
    rw [Prog.bind_ok f (hm.passed hs), ← Nat.add_assoc]
    exact hf
  | failed =>
    obtain ⟨hexit, hq⟩ := hm.failed hs
    cases h with
    | reported =>
      cases hx : (m w).1 with
      | err e =>
        show Exit.failed ((m >>= f) w).1 = true ∧ Quiet w ((m >>= f) w).2
        rw [Prog.bind_err f (Prog.run_of_exit hx)]
        exact ⟨rfl, hq⟩
      | ok a => rw [hx] at hexit; cases hexit
      | trap => rw [hx] at hexit; cases hexit
      | halt => rw [hx] at hexit; cases hexit
    | unreachable =>
      show ((m >>= f) w).1 = .trap ∧ Quiet w ((m >>= f) w).2
      rw [Prog.bind_trap f (Prog.run_of_exit hexit)]
      exact ⟨rfl, hq⟩
  | halted =>
    obtain ⟨hexit, hq⟩ := hm.halted hs
    show ((m >>= f) w).1 = .halt ∧ Quiet w ((m >>= f) w).2
    rw [Prog.bind_halt f (Prog.run_of_exit hexit)]
    exact ⟨rfl, hq⟩

/-- `catch unreachable` behind calls whose failures are reported. -/
theorem orUnreachable (hm : Calling .reported m n a w) :
    Calling .unreachable m.orUnreachable n a w := by
  unfold Calling
  cases hs : survey w.faults (List.replicate n true) w.tick with
  | passed => exact Prog.orUnreachable_ok (hm.passed hs)
  | failed =>
    obtain ⟨hexit, hq⟩ := hm.failed hs
    cases hx : (m w).1 with
    | err e =>
      show (m.orUnreachable w).1 = .trap ∧ Quiet w (m.orUnreachable w).2
      rw [Prog.orUnreachable_err (Prog.run_of_exit hx)]
      exact ⟨rfl, hq⟩
    | ok a => rw [hx] at hexit; cases hexit
    | trap => rw [hx] at hexit; cases hexit
    | halt => rw [hx] at hexit; cases hexit
  | halted =>
    obtain ⟨hexit, hq⟩ := hm.halted hs
    show (m.orUnreachable w).1 = .halt ∧ Quiet w (m.orUnreachable w).2
    rw [Prog.orUnreachable_halt (Prog.run_of_exit hexit)]
    exact ⟨rfl, hq⟩

theorem of_single {e : FRESULT → Error} (hm : Single m e a w) : Calling .reported m 1 a w := by
  unfold Single at hm
  unfold Calling
  rw [show List.replicate 1 true = [true] from rfl]
  simp only [survey, hm]
  cases w.faults w.tick with
  | none | short => rfl
  | fail r part => exact ⟨rfl, quiet_seek _ _⟩
  | halt part => exact ⟨rfl, quiet_seek _ _⟩

end Calling

/-! ## The flash area of a file -/

/-- `file.lseek` on a file that is open for reading: the offset is clipped to the size. -/
def f_lseek (f : File) (offset : Nat) : BootM File := do
  checked FRESULT.check
  pure { f with fptr := min offset f.objsize }

/-- `struct flash_area`: the device, and the file behind `fp`. -/
structure flash_area where
  fa_device_id : Nat
  fp : File
  deriving DecidableEq, Repr

def flash_area_get_device_id (fa : flash_area) : Nat := fa.fa_device_id

/-- `flash_area_read` of `dst.length` bytes: the result, the buffer and the area behind it. -/
def flash_area_read (fa : flash_area) (off : Nat) (dst : List UInt8) :
    BootM (Int × List UInt8 × flash_area) := do
  if 0 = flash_area_get_device_id fa then
    let fil ← (f_lseek fa.fp off).orUnreachable
    let (data, fil) ← (f_read fil dst.length).orUnreachable
    pure (0, data ++ dst.drop data.length, { fa with fp := fil })
  else if firmware_max_size < off + dst.length then Prog.trap
  else pure (0, (← Prog.get).bytes off dst.length, fa)

/-- The area is the file with the content `c`. -/
structure flash_area.Reads (fa : flash_area) (w : Device) (c : List UInt8) : Prop where
  device : fa.fa_device_id = 0
  file : fa.fp.Reads w c

theorem flash_area.Reads.seek {fa : flash_area} {w : Device} {c : List UInt8} (h : fa.Reads w c)
    (t : Nat) : fa.Reads (w.seek t) c := ⟨h.device, h.file.quiet (quiet_seek w t)⟩

/-- The bytes that the file has in the range. -/
def within (c : List UInt8) (off len : Nat) : List UInt8 := (c.drop off).take len

theorem within_clip (c : List UInt8) (off len : Nat) :
    within c (min off c.length) len = within c off len := by
  unfold within
  by_cases h : off ≤ c.length
  · rw [Nat.min_eq_left h]
  · rw [Nat.min_eq_right (Nat.le_of_not_le h), List.drop_length,
      List.drop_eq_nil_of_le (Nat.le_of_not_le h)]

/-- The bytes of the range are all in the file exactly if as many are found. -/
theorem within_length_iff (c : List UInt8) (off len : Nat) :
    (within c off len).length = len ↔ ∀ i < len, off + i < c.length := by
  unfold within
  rw [List.length_take, List.length_drop]
  constructor
  · intro h i hi
    omega
  · intro h
    cases len with
    | zero => exact Nat.zero_min _
    | succ n =>
      have hlast := h n (Nat.lt_succ_self n)
      omega

/-- The buffer behind a read. -/
def filled (c : List UInt8) (off : Nat) (dst : List UInt8) : List UInt8 :=
  within c off dst.length ++ dst.drop (within c off dst.length).length

/-- The area behind a read. -/
def flash_area.behind (fa : flash_area) (c : List UInt8) (off len : Nat) : flash_area :=
  { fa with fp := { fa.fp with fptr := min off c.length + (within c off len).length } }

theorem flash_area.Reads.behind {fa : flash_area} {w : Device} {c : List UInt8} (h : fa.Reads w c)
    (off len : Nat) : (fa.behind c off len).Reads w c := by
  refine ⟨h.device, h.file.content, h.file.size, ?_⟩
  show min off c.length + (within c off len).length ≤ c.length
  rw [← within_clip]
  unfold within
  rw [List.length_take, List.length_drop]
  omega

/-- **What a read of a file does**: two calls, and the buffer is filled as far as the file goes. -/
theorem flash_area_read_calls {fa : flash_area} {w : Device} {c : List UInt8} (h : fa.Reads w c)
    (off : Nat) (dst : List UInt8) :
    Calling .unreachable (flash_area_read fa off dst) 2
      (0, filled c off dst, fa.behind c off dst.length) w := by
  unfold flash_area_read flash_area_get_device_id
  rw [if_pos h.device.symm]
  have hclip : min off fa.fp.objsize = min off c.length := by rw [h.file.size]
  have hseek : Calling .reported (f_lseek fa.fp off) 1
      ⟨fa.fp.path, min off c.length, fa.fp.objsize⟩ w := by
    rw [← hclip]
    exact Calling.bind (k := 0) (.of_single (Single.checked _ w)) (Calling.pure _ _)
  have hreads : File.Reads ⟨fa.fp.path, min off c.length, fa.fp.objsize⟩ (w.seek (w.tick + 1)) c :=
    ⟨h.file.content, h.file.size, Nat.min_le_right _ _⟩
  refine Calling.bind (k := 1) hseek.orUnreachable ?_
  refine Calling.bind (k := 0) (Calling.of_single (Single.f_read hreads dst.length)).orUnreachable ?_
  have hwithin : (c.drop (min off c.length)).take dst.length = within c off dst.length :=
    within_clip c off dst.length
  simp only [hwithin]
  exact Calling.pure _ _

/-! ## Complete reads -/

/-- The range of `len` bytes at `off` is in the file. -/
def InFile (c : List UInt8) (off len : Nat) : Prop := ∀ i < len, off + i < c.length

/-- **The read reports success only for complete data**: it returns 0 only if the range is in the
file and the buffer holds its bytes, and otherwise it returns another value. -/
def ReadsComplete (fa : flash_area) (off : Nat) (dst c : List UInt8) (w : Device) : Prop :=
  match (flash_area_read fa off dst w).1 with
  | .ok (code, dst', _) =>
    code = 0 → InFile c off dst.length ∧ dst' = within c off dst.length
  | .halt => True
  | _ => False

instance (c : List UInt8) (off len : Nat) : Decidable (InFile c off len) :=
  inferInstanceAs (Decidable (∀ i < len, off + i < c.length))

theorem filled_eq_within {c : List UInt8} {off : Nat} {dst : List UInt8}
    (h : InFile c off dst.length) : filled c off dst = within c off dst.length := by
  have hlen := (within_length_iff c off dst.length).mpr h
  unfold filled
  rw [hlen, List.drop_length, List.append_nil]

/-- **When reads are complete**: seek and read do not fail, and the range is in the file. -/
theorem reads_complete_iff {fa : flash_area} {w : Device} {c : List UInt8} (h : fa.Reads w c)
    (off : Nat) (dst : List UInt8) :
    ReadsComplete fa off dst c w ↔ survey w.faults [true, true] w.tick = .halted ∨
      survey w.faults [true, true] w.tick = .passed ∧ InFile c off dst.length := by
  have hread := flash_area_read_calls h off dst
  unfold ReadsComplete
  cases hs : survey w.faults [true, true] w.tick with
  | passed =>
    rw [hread.passed hs]
    constructor
    · intro hcomplete
      exact .inr ⟨rfl, (hcomplete rfl).1⟩
    · rintro (hhalt | ⟨-, hin⟩)
      · cases hhalt
      · exact fun _ => ⟨hin, filled_eq_within hin⟩
  | failed =>
    rw [show (flash_area_read fa off dst w).1 = .trap from (hread.failed hs).1]
    constructor
    · exact False.elim
    · rintro (hhalt | ⟨hpass, -⟩)
      · cases hhalt
      · cases hpass
  | halted =>
    rw [(hread.halted hs).1]
    exact ⟨fun _ => .inl rfl, fun _ => trivial⟩

/-- The area of the file of `Device.sample`. -/
def flash_area.sample : flash_area := ⟨0, .fw_file_name, 0, 1⟩

theorem flash_area.sample_reads :
    flash_area.sample.Reads (.sample (fun _ => .none) (some [0x42]) none) [0x42] :=
  ⟨rfl, rfl, rfl, Nat.zero_le 1⟩

theorem reads_complete_iff_sample :
    ReadsComplete .sample 0 [0xAA] [0x42] (.sample (fun _ => .none) (some [0x42]) none) ↔
      survey (fun _ => .none) [true, true] 0 = .halted ∨
        survey (fun _ => .none) [true, true] 0 = .passed ∧ InFile [0x42] 0 1 :=
  reads_complete_iff flash_area.sample_reads 0 [0xAA]

/-- Of a file of one byte two are read with success: the second is what the buffer held. -/
theorem truncated_read_succeeds :
    ¬ReadsComplete .sample 0 [0xAA, 0xAA] [0x42] (.sample (fun _ => .none) (some [0x42]) none) := by
  intro h
  have hin := (h (by decide +kernel)).1
  exact absurd hin (by decide)

end Miso.Boot
