import Miso.Boot.Calls
import Miso.Boot.Firmware

/-!
# What the functions of `firmware.zig` do

One specification for each function, for every content of the card and the region and every
pattern of faults; callers use these and do not look into the functions.

* `calculateFileHash_schedule`, `verifyBackup_schedule` — which calls the hash comparison makes;
* `verifyBackup_spec` — it compares the whole file with the slice;
* `eraseFlash_spec`, `flashFirmware_spec` — they change nothing but the region, and say what is
  in it when they succeed;
* `backupFirmware_spec` — it changes nothing but the file, and the file is the slice when it
  succeeds;
* `checkFirmwareImage_spec` — which validations and comparisons lie behind each of its results.
-/

namespace Miso.Boot

open Zig

variable {Digest : Type} (X : Externs Digest)

/-! ## Hashing and comparing -/

/-- The number of blocks of `block` bytes that `n` bytes take. -/
def blocks (block n : Nat) : Nat := (n + block - 1) / block

theorem blocks_zero (block : Nat) : blocks block 0 = 0 := by
  rcases Nat.eq_zero_or_pos block with rfl | h
  · rfl
  · exact Nat.div_eq_of_lt (by omega)

theorem blocks_next {block n : Nat} (hb : 0 < block) (hn : 0 < n) :
    blocks block n = blocks block (n - min block n) + 1 := by
  have hsub : blocks block n = (n - 1) / block + 1 := by
    unfold blocks
    rw [← Nat.add_div_right _ hb]
    congr 1
    omega
  rw [hsub]
  by_cases h : block ≤ n
  · unfold blocks
    congr 2
    omega
  · rw [Nat.min_eq_right (by omega), Nat.sub_self, blocks_zero, Nat.div_eq_of_lt (by omega)]

/-- The length of the buffer that `calculateFileHash` reads a file of `n` bytes into. -/
def blockLen (n : Nat) : Nat := if n ≥ file_block_size then file_block_size else n

theorem blockLen_pos {n : Nat} (h : 0 < n) : 0 < blockLen n := by
  unfold blockLen file_block_size
  split <;> omega

/-- The calls of `calculateFileHash` on a file of `n` bytes: open, the buffer, start, one read
    and one update for each block, finish and close. -/
def fileHashCalls (n : Nat) : List Bool :=
  [true] ++ (((if n = 0 then [] else [true]) ++ ([true] ++
    (List.replicate (2 * blocks (blockLen n) n) true ++ [true]))) ++ [false])

/-- The calls of `calculateMemHash`. -/
def memHashCalls : List Bool := [true, true, true]

/-- The calls of `verifyBackup` on a file of `n` bytes. -/
def compareCalls (n : Nat) : List Bool := fileHashCalls n ++ memHashCalls

/-- The hashing loop feeds the rest of the file into the context. -/
theorem hashLoop_schedule {block : Nat} {c : List UInt8} (hblock : 0 < block ∨ c = []) :
    ∀ (n : Nat) (f : File) (ctx : List UInt8) (w : Device), f.Reads w c →
      c.length - f.fptr < n →
      Schedule (Prog.loop (hashRound block) n (f, ctx))
        (List.replicate (2 * blocks block (c.length - f.fptr)) true)
        (.ok (ctx ++ c.drop f.fptr)) w
  | 0, _, _, _, _, hn => absurd hn (Nat.not_lt_zero _)
  | n + 1, f, ctx, w, hr, hn => by
    unfold Prog.loop
    by_cases he : f.fptr = c.length
    · have hnil : c.drop f.fptr = [] := List.drop_eq_nil_of_le (by omega)
      rw [hnil, List.append_nil, he, Nat.sub_self, blocks_zero]
      refine Schedule.bind [] [] (a := .inr ctx) ?_ (Schedule.pure _ _)
      unfold hashRound
      exact Schedule.bind _ [] (Schedule.readEof_end hr he block) (Schedule.pure _ _)
    · have hlt : f.fptr < c.length := Nat.lt_of_le_of_ne hr.fptr_le he
      have hpos : 0 < block := by
        rcases hblock with h | rfl
        · exact h
        · simp at hlt
      have hread := Schedule.readEof_next hr hlt hpos
      generalize hbr : (c.drop f.fptr).take block = br at hread
      have hlen : br.length = min block (c.length - f.fptr) := by rw [← hbr]; simp
      have hdrop : c.drop f.fptr = br ++ c.drop (f.fptr + br.length) := by
        have hmin : (c.drop f.fptr).take br.length = br := by
          rw [← hbr]
          simp
        rw [← List.drop_drop]
        conv => lhs; rw [← List.take_append_drop br.length (c.drop f.fptr)]
        rw [hmin]
      have hcalls : List.replicate (2 * blocks block (c.length - f.fptr)) true =
          ([true] ++ [true]) ++
            List.replicate (2 * blocks block (c.length - (f.fptr + br.length))) true := by
        rw [blocks_next hpos (by omega), ← hlen, Nat.sub_sub, Nat.mul_add, Nat.add_comm,
          ← List.replicate_append_replicate]
        rfl
      rw [hcalls, hdrop, ← List.append_assoc ctx]
      refine Schedule.bind _ _ (a := .inl ({ f with fptr := f.fptr + br.length }, ctx ++ br)) ?_ ?_
      · unfold hashRound
        refine Schedule.bind _ _ hread ?_
        exact ((Schedule.checked (fun _ => rfl) _).map fun _ => ctx ++ br).map
          fun ctx => Sum.inl (_, ctx)
      · exact hashLoop_schedule hblock n _ _ _ ⟨hr.content, hr.size, by simp only; omega⟩
          (by simp only; omega)

/-- **`calculateFileHash` hashes the whole file.** -/
theorem calculateFileHash_schedule {path : Path} {w : Device} {c : List UInt8}
    (hc : w.sd path = some c) :
    Schedule (calculateFileHash X path) (fileHashCalls c.length) (.ok (X.sha256 c)) w := by
  unfold calculateFileHash fileHashCalls
  refine Schedule.bind _ _ (Schedule.f_open hc) ?_
  refine Schedule.closing _ ⟨by simp, by simp⟩ ?_
  have hblock : (if File.size ⟨path, 0, c.length⟩ ≥ file_block_size then file_block_size
      else File.size ⟨path, 0, c.length⟩) = blockLen c.length := rfl
  simp only [hblock]
  refine Schedule.bind _ _ (a := ()) ?_ ?_
  · unfold alloc
    by_cases hz : c.length = 0
    · rw [if_pos hz, if_pos (by unfold blockLen file_block_size; split <;> omega)]
      exact Schedule.pure _ _
    · rw [if_neg hz, if_neg (by have := blockLen_pos (Nat.pos_of_ne_zero hz); omega)]
      exact Schedule.checked (fun _ => rfl) _
  refine Schedule.bind _ _ (a := []) ?_ ?_
  · exact (Schedule.checked (fun _ => rfl) _).map _
  refine Schedule.bind _ _ (a := c) ?_ ?_
  · have hfresh : File.Reads ⟨path, 0, c.length⟩ w c := ⟨hc, rfl, Nat.zero_le _⟩
    have hpos : 0 < blockLen c.length ∨ c = [] := by
      rcases Nat.eq_zero_or_pos c.length with h | h
      · exact .inr (List.length_eq_zero_iff.mp h)
      · exact .inl (blockLen_pos h)
    exact hashLoop_schedule hpos _ _ [] _ (hfresh.quiet (quiet_seek w _)) (Nat.lt_succ_self _)
  · exact (Schedule.checked (fun _ => rfl) _).map _

theorem calculateFileHash_spec (path : Path) (w : Device) :
    wp (calculateFileHash X path)
      (Reading w fun d => ∃ c, w.sd path = some c ∧ d = X.sha256 c) w := by
  cases hc : w.sd path with
  | none =>
    unfold calculateFileHash
    refine wp_bind_reading (quiet_frame.refl w) (f_open_read_missing hc) ?_
    exact fun _ _ _ h => h.elim
  | some c => exact (calculateFileHash_schedule X hc).reading_mono ⟨c, rfl, rfl⟩

/-- `calculateMemHash` hashes the slice. -/
theorem calculateMemHash_schedule (slice : List UInt8) (w : Device) :
    Schedule (calculateMemHash X slice) memHashCalls (.ok (X.sha256 slice)) w := by
  unfold calculateMemHash memHashCalls
  refine Schedule.bind [true] [true, true] (a := []) ?_ ?_
  · exact (Schedule.checked (fun _ => rfl) _).map _
  refine Schedule.bind [true] [true] (a := slice) ?_ ?_
  · exact (Schedule.checked (fun _ => rfl) _).map _
  · exact (Schedule.checked (fun _ => rfl) _).map _

theorem appSlice_spec (app_len : Option Nat) (w : Device) :
    wp (appSlice app_len) (Ends (Quiet w)
      (fun len _ => len = app_len.getD firmware_max_size ∧ len ≤ firmware_max_size)
      (fun _ _ => False) (firmware_max_size < app_len.getD firmware_max_size)) w := by
  unfold appSlice
  by_cases h : app_len.getD firmware_max_size ≤ firmware_max_size
  · rw [if_pos h]
    exact ⟨quiet_frame.refl w, rfl, h⟩
  · rw [if_neg h]
    exact ⟨quiet_frame.refl w, by omega⟩

theorem appSlice_run {app_len : Option Nat} (len : Nat) (hlen : app_len.getD firmware_max_size = len)
    (h : len ≤ firmware_max_size) (w : Device) : appSlice app_len w = (.ok len, w) := by
  unfold appSlice
  rw [hlen, if_pos h]
  rfl

theorem bytes_quiet {w w' : Device} (hq : Quiet w w') (off len : Nat) :
    w'.bytes off len = w.bytes off len := by
  obtain ⟨t, rfl⟩ := hq
  rfl

/-- **`verifyBackup` compares the hash of the file with the hash of the slice**, and the first
    of its calls that fails decides the result otherwise. -/
theorem verifyBackup_schedule [DecidableEq Digest] {path : Path} (app_len : Option Nat) (len : Nat)
    {w : Device} {c : List UInt8} (ha : app_len.getD firmware_max_size = len)
    (hlen : len ≤ firmware_max_size) (hc : w.sd path = some c) :
    Schedule (verifyBackup X path app_len) (compareCalls c.length)
      (if X.sha256 c = X.sha256 (w.bytes 0 len) then .ok () else .err .hash_compare_mismatch) w := by
  unfold verifyBackup compareCalls
  refine Schedule.bind [] _ (a := len) (appSlice_run len ha hlen w) ?_
  refine Schedule.bind _ _ (calculateFileHash_schedule X hc) ?_
  refine Schedule.bind [] _ (a := w.seek _) rfl ?_
  refine Schedule.bind _ [] (calculateMemHash_schedule X (w.bytes 0 len) _) ?_
  by_cases h : X.sha256 c = X.sha256 (w.bytes 0 len)
  · rw [if_pos h, if_neg (not_not.mpr h)]
    exact Schedule.pure _ _
  · rw [if_neg h, if_pos h]
    exact Schedule.throw _ _

/-- What each result of `verifyBackup` says; a success also says how many calls were made. -/
theorem verifyBackup_spec [DecidableEq Digest] (path : Path) (app_len : Option Nat) {len : Nat}
    (ha : app_len.getD firmware_max_size = len) (w : Device) :
    wp (verifyBackup X path app_len) (Ends (Quiet w)
      (fun _ w' => len ≤ firmware_max_size ∧ ∃ c, w.sd path = some c ∧
        X.sha256 c = X.sha256 (w.bytes 0 len) ∧
        w' = w.seek (w.tick + (compareCalls c.length).length))
      (fun e _ => e.external = true ∨ e = .hash_compare_mismatch ∧ ∃ c, w.sd path = some c ∧
        X.sha256 c ≠ X.sha256 (w.bytes 0 len))
      (firmware_max_size < len)) w := by
  by_cases hlen : len ≤ firmware_max_size
  · cases hc : w.sd path with
    | none =>
      unfold verifyBackup
      rw [wp_bind]
      refine wp_of_eq (appSlice_run len ha hlen w) ?_
      refine wp_bind_ends (K := fun _ _ => False)
        (wp_ends_mono (calculateFileHash_spec X path w) (fun _ h => h) ?_ (fun _ _ _ h => .inl h)
          False.elim) fun _ _ _ h => h.elim
      rintro d w' - ⟨c, hc', -⟩
      rw [hc] at hc'
      cases hc'
    | some c =>
      obtain ⟨-, h⟩ | ⟨-, t, e, he, h⟩ | ⟨-, t, h⟩ :=
        (verifyBackup_schedule X app_len len ha hlen hc).exits
      · by_cases heq : X.sha256 c = X.sha256 (w.bytes 0 len)
        · rw [if_pos heq] at h
          exact wp_of_eq h ⟨quiet_seek _ _, hlen, c, rfl, heq, rfl⟩
        · rw [if_neg heq] at h
          exact wp_of_eq h ⟨quiet_seek _ _, .inr ⟨rfl, c, rfl, heq⟩⟩
      · exact wp_of_eq h ⟨quiet_seek _ _, .inl he⟩
      · exact wp_of_eq h (quiet_seek _ _)
  · unfold verifyBackup
    refine wp_bind_ends (wp_ends_mono (appSlice_spec app_len w) (fun _ h => h) (fun _ _ _ h => h)
      (fun _ _ _ h => h.elim) fun h => ha ▸ h) ?_
    rintro _ _ - ⟨rfl, h⟩
    exact absurd (ha ▸ h) hlen

/-! ## Erasing and flashing -/

/-- Calls of the flash controller. -/
def Call.msc : Call → Bool
  | .MSC_ErasePage _ => true
  | .MSC_WriteWord _ _ => true
  | .bootutil_img_validate _ _ => false

/-- The region has been erased or programmed since the log was emptied. -/
def Touched (w : Device) : Prop := ∃ c ∈ w.log, c.msc = true

instance (w : Device) : Decidable (Touched w) :=
  inferInstanceAs (Decidable (∃ c ∈ w.log, c.msc = true))

/-- A page has been erased since the log was emptied. -/
def PageErased (w : Device) : Prop := ∃ addr, .MSC_ErasePage addr ∈ w.log

theorem PageErased.touched {w : Device} (h : PageErased w) : Touched w := by
  obtain ⟨addr, hmem⟩ := h
  exact ⟨_, hmem, rfl⟩

/-- Only the region has changed, by calls of the flash controller that are in the log. -/
def Flashing (w w' : Device) : Prop :=
  ∃ t f l, w' = { w with tick := t, flash := f, log := l ++ w.log } ∧
    (∀ c ∈ l, c.msc = true) ∧ (l = [] → f = w.flash)

theorem flashing_frame : Frame Flashing where
  refl w := ⟨w.tick, w.flash, [], rfl, by simp, fun _ => rfl⟩
  trans := by
    rintro w₁ _ _ ⟨t, f, l, rfl, hl, hf⟩ ⟨t', f', l', rfl, hl', hf'⟩
    refine ⟨t', f', l' ++ l, by simp, ?_, ?_⟩
    · intro c hc
      rcases List.mem_append.mp hc with h | h
      · exact hl' c h
      · exact hl c h
    · intro h
      obtain ⟨h', h⟩ := List.append_eq_nil_iff.mp h
      rw [hf' h']
      exact hf h

theorem Quiet.flashing {w w' : Device} (h : Quiet w w') : Flashing w w' := by
  obtain ⟨t, rfl⟩ := h
  exact ⟨t, w.flash, [], rfl, by simp, fun _ => rfl⟩

theorem Flashing.sd {w w' : Device} (h : Flashing w w') : w'.sd = w.sd := by
  obtain ⟨t, f, l, rfl, -, -⟩ := h
  rfl

theorem overwrite_erased (w : Device) (addr i : Nat) :
    (w.overwrite addr (List.replicate flash_page_size 0xFF)).flash i =
      if addr ≤ i ∧ i < addr + flash_page_size then 0xFF else w.flash i := by
  simp only [Device.overwrite]
  by_cases h : addr ≤ i
  · by_cases h' : i < addr + flash_page_size
    · rw [if_pos h, if_pos ⟨h, h'⟩, List.getD_eq_getElem _ _ (by simp; omega)]
      simp
    · rw [if_pos h, if_neg (by omega), List.getD_eq_default _ _ (by simp; omega)]
  · rw [if_neg h, if_neg (by omega)]

theorem MSC_ErasePage_spec (addr : Nat) (w : Device) :
    wp (MSC_ErasePage addr) (Ends (Flashing w) (fun r w' => PageErased w' ∧ (r = true →
      ∀ i, w'.flash i = if addr ≤ i ∧ i < addr + flash_page_size then 0xFF else w.flash i))
      (fun _ _ => False) False) w := by
  unfold MSC_ErasePage
  simp only [wp_bind, wp_modify, thenPost_ok, wp_draw]
  cases (w.record (.MSC_ErasePage addr)).faults (w.record (.MSC_ErasePage addr)).tick with
  | fail r part =>
    exact ⟨⟨_, _, [.MSC_ErasePage addr], rfl, by simp [Call.msc], by simp⟩,
      ⟨addr, List.mem_cons_self⟩, by simp⟩
  | halt part => exact ⟨_, _, [.MSC_ErasePage addr], rfl, by simp [Call.msc], by simp⟩
  | none | short =>
    exact ⟨⟨_, _, [.MSC_ErasePage addr], rfl, by simp [Call.msc], by simp⟩,
      ⟨addr, List.mem_cons_self⟩, fun _ i => overwrite_erased w addr i⟩

theorem MSC_WriteWord_spec (addr : Nat) (data : List UInt8) (w : Device) :
    wp (MSC_WriteWord addr data) (Ends (Flashing w) (fun r w' => r = true →
      ∀ i, w'.flash i = if addr ≤ i then w.flash i &&& data.getD (i - addr) 0xFF else w.flash i)
      (fun _ _ => False) False) w := by
  unfold MSC_WriteWord
  simp only [wp_bind, wp_modify, thenPost_ok, wp_draw]
  cases (w.record (.MSC_WriteWord addr data.length)).faults
      (w.record (.MSC_WriteWord addr data.length)).tick with
  | fail r part =>
    exact ⟨⟨_, _, [.MSC_WriteWord addr data.length], rfl, by simp [Call.msc], by simp⟩, by simp⟩
  | halt part => exact ⟨_, _, [.MSC_WriteWord addr data.length], rfl, by simp [Call.msc], by simp⟩
  | none | short =>
    exact ⟨⟨_, _, [.MSC_WriteWord addr data.length], rfl, by simp [Call.msc], by simp⟩,
      fun _ _ => rfl⟩

theorem page_aligned {pos : Nat} (h : pos % flash_page_size = 0) (hle : pos ≤ firmware_max_size) :
    pos &&& flash_page_addr_mask = pos := by
  have hpages : ∀ k < 177, (4096 * k) &&& flash_page_addr_mask = 4096 * k := by
    decide +kernel
  obtain ⟨k, rfl⟩ : ∃ k, pos = 4096 * k := ⟨pos / 4096, by unfold flash_page_size at h; omega⟩
  exact hpages k (by rw [firmware_max_size_eq] at hle; unfold flash_page_size at hle; omega)

/-- The invariant of the erase loop: the pages before the position are erased. -/
def Erasing (w₀ : Device) (pos : Nat) (w : Device) : Prop :=
  Flashing w₀ w ∧ pos % flash_page_size = 0 ∧ pos ≤ firmware_max_size ∧
    (∀ i < pos, w.flash i = 0xFF) ∧ (0 < pos → PageErased w)

theorem eraseRound_spec {w₀ : Device} (pos : Nat) (w : Device) (hi : Erasing w₀ pos w) :
    wp (eraseRound firmware_max_size pos) (Ends (Flashing w₀) (fun r w' =>
      Sum.elim (fun pos' => Erasing w₀ pos' w' ∧
          firmware_max_size - pos' < firmware_max_size - pos)
        (fun _ => PageErased w' ∧ ∀ i < firmware_max_size, w'.flash i = 0xFF) r)
      (fun e _ => e = .flash_erase_error) False) w := by
  obtain ⟨hfl, hmod, hle, herased, hlog⟩ := hi
  have hmax := firmware_max_size_eq
  unfold eraseRound
  by_cases hlt : pos < firmware_max_size
  · have hend : pos + flash_page_size ≤ firmware_max_size := by
      rw [hmax] at hlt ⊢; unfold flash_page_size at *; omega
    rw [if_pos hlt]
    simp only [page_aligned hmod hle]
    rw [if_neg (by omega)]
    refine wp_bind_ends (wp_ends_mono (MSC_ErasePage_spec pos w)
      (fun _ h => flashing_frame.trans hfl h) (fun r w' _ h => h) (fun _ _ _ h => h.elim) id) ?_
    rintro (_ | _) w₁ hfl₁ hr
    · exact ⟨hfl₁, rfl⟩
    · obtain ⟨hpage, hr⟩ := hr
      have hr := hr rfl
      show Ends _ _ _ _ (.ok (Sum.inl (pos + flash_page_size))) w₁
      refine ⟨hfl₁, ⟨hfl₁, by unfold flash_page_size at *; omega, hend, fun i hi => ?_,
        fun _ => hpage⟩, by unfold flash_page_size at *; omega⟩
      rw [hr i]
      split
      · rfl
      · exact herased i (by omega)
  · rw [if_neg hlt]
    refine ⟨hfl, hlog ?_, fun i hi => herased i (by omega)⟩
    have : 0 < firmware_max_size := by decide
    omega

/-- **`eraseFlash(null)`** touches nothing but the region; when it returns, every byte of the
    region is `0xFF`. -/
theorem eraseFlash_spec (w : Device) :
    wp (eraseFlash none) (Ends (Flashing w)
      (fun _ w' => PageErased w' ∧ ∀ i < firmware_max_size, w'.flash i = 0xFF)
      (fun e _ => e = .flash_erase_error) False) w := by
  unfold eraseFlash
  refine wp_bind_ends (wp_ends_mono (appSlice_spec none w) (fun _ h => h.flashing)
    (fun len _ _ h => h.1) (fun _ _ _ h => h.elim) (fun h => (Nat.lt_irrefl _ h).elim)) ?_
  rintro _ w₁ hfl₁ rfl
  simp only [Option.getD_none]
  exact wp_loop_total (fun pos => firmware_max_size - pos) (Erasing w) eraseRound_spec _ 0 w₁
    (by simp) ⟨hfl₁, rfl, Nat.zero_le _, by simp, by simp⟩

/-- The invariant of the flashing loop: the bytes before the position are programmed. -/
def Programming (w₀ : Device) (c : List UInt8) (s : File × Nat) (w : Device) : Prop :=
  Flashing w₀ w ∧ s.1.Reads w c ∧ s.2 = s.1.fptr ∧
    (s.2 % flash_page_size = 0 ∨ s.2 = c.length) ∧
    ∀ i, w.flash i = w₀.flash i &&& (c.take s.2).getD i 0xFF

theorem and_allOnes (x : UInt8) : x &&& 0xFF = x := by
  have : (0xFF : UInt8) = -1 := rfl
  rw [this, UInt8.and_neg_one]

theorem getD_replicate (k j : Nat) : (List.replicate k (0xFF : UInt8)).getD j 0xFF = 0xFF := by
  by_cases hk : j < k
  · rw [List.getD_eq_getElem _ _ (by simpa using hk), List.getElem_replicate]
  · exact List.getD_eq_default _ _ (by simpa using hk)

/-- A page written at `pos` extends the programmed prefix by the bytes read. -/
theorem program_take {c br : List UInt8} {pos i n : Nat} (x : UInt8)
    (hbr : br = (c.drop pos).take n) (hle : pos ≤ c.length) (hpos : pos ≤ i) (k : Nat) :
    (x &&& (c.take pos).getD i 0xFF) &&& (br ++ List.replicate k 0xFF).getD (i - pos) 0xFF =
      x &&& (c.take (pos + br.length)).getD i 0xFF := by
  have hlen : (c.take pos).length = pos := by simp; omega
  have htake : c.take (pos + br.length) = c.take pos ++ br := by
    rw [List.take_add]
    congr 1
    rw [hbr]
    simp
  have hin : (br ++ List.replicate k 0xFF).getD (i - pos) 0xFF =
      (c.take (pos + br.length)).getD i 0xFF := by
    rw [htake, List.getD_append_right (c.take pos) _ _ _ (by omega), hlen]
    by_cases hb : i - pos < br.length
    · rw [List.getD_append _ _ _ _ hb]
    · rw [List.getD_append_right _ _ _ _ (by omega), List.getD_eq_default br _ (by omega),
        getD_replicate]
  rw [List.getD_eq_default (c.take pos) _ (by omega), hin, and_allOnes]

/-- Programming the next page keeps the invariant. -/
theorem Programming.next {c br : List UInt8} {w₀ w w₁ w₂ : Device} {s : File × Nat}
    (hi : Programming w₀ c s w) (hqw : Quiet w w₁) (hfl : Flashing w₀ w₂) (hsd : w₂.sd = w₁.sd)
    (hbr : br = (c.drop s.1.fptr).take flash_page_size) (hle : s.1.fptr + br.length ≤ c.length)
    (hflash : ∀ i, w₂.flash i = if s.2 ≤ i then w₁.flash i &&&
      (br ++ List.replicate (flash_page_size - br.length) 0xFF).getD (i - s.2) 0xFF
      else w₁.flash i) :
    Programming w₀ c ({ s.1 with fptr := s.1.fptr + br.length }, s.1.fptr + br.length) w₂ := by
  obtain ⟨-, hr, hpos, hmod, hprog⟩ := hi
  obtain ⟨t, rfl⟩ := hqw
  have hblen : br.length = min flash_page_size (c.length - s.1.fptr) := by rw [hbr]; simp
  refine ⟨hfl, ⟨by rw [hsd]; exact hr.content, hr.size, hle⟩, rfl, ?_, fun i => ?_⟩
  · simp only
    unfold flash_page_size at *
    omega
  · rw [hflash i]
    simp only [hprog i, ← hpos]
    split
    · rename_i hge
      exact program_take _ (by rw [hbr, hpos]) (by rw [hpos]; exact hr.fptr_le) hge _
    · congr 1
      rw [List.getD_eq_getElem?_getD, List.getD_eq_getElem?_getD, List.getElem?_take_of_lt
        (by omega), List.getElem?_take_of_lt (by omega)]

theorem flashRound_spec {c : List UInt8} {w₀ : Device} (hc : c.length ≤ firmware_max_size)
    (s : File × Nat) (w : Device) (hi : Programming w₀ c s w) :
    wp (flashRound firmware_max_size s) (Ends (Flashing w₀) (fun r w' =>
      Sum.elim (fun s' => Programming w₀ c s' w' ∧ c.length - s'.1.fptr < c.length - s.1.fptr)
        (fun _ => ∀ i, w'.flash i = w₀.flash i &&& c.getD i 0xFF) r)
      (fun e _ => e.external = true ∨ e = .flash_write_error) False) w := by
  have hmax := firmware_max_size_eq
  have hr := hi.2.1
  have hpos := hi.2.2.1
  have hread := readEof_spec hr (show 0 < flash_page_size by unfold flash_page_size; omega)
  unfold flashRound
  refine wp_bind_ends (K := fun r w' => Quiet w w' ∧ NextBlock s.1 c flash_page_size r)
    (wp_ends_mono hread (fun _ h => flashing_frame.trans hi.1 h.flashing)
      (fun _ _ h hn => ⟨h, hn⟩) (fun _ _ _ h => .inl h) id) ?_
  rintro ⟨_ | br, f'⟩ w₁ hfl₁ hread
  · have hend : s.2 = c.length := hpos.trans (nextBlock_none.mp hread.2)
    obtain ⟨t, rfl⟩ := hread.1
    refine ⟨hfl₁, fun i => ?_⟩
    have := hi.2.2.2.2 i
    rw [hend, List.take_length] at this
    exact this
  · have hqw := hread.1
    have hblock := nextBlock_some.mp hread.2
    have hlt := hblock.2.1
    have hle := hblock.2.2.1
    have hf' := hblock.2.2.2
    subst hf'
    have hroom : s.2 + flash_page_size ≤ firmware_max_size := by
      have hmod := hi.2.2.2.1
      rw [hmax] at hc ⊢
      unfold flash_page_size at *
      omega
    simp only
    rw [if_neg (by omega)]
    refine wp_bind_ends (K := fun r w' => Flashing w₁ w' ∧ (r = true → _))
      (wp_ends_mono (MSC_WriteWord_spec s.2 _ w₁) (fun _ h => flashing_frame.trans hfl₁ h)
        (fun _ _ h hr => ⟨h, hr⟩) (fun _ _ _ h => h.elim) id) ?_
    rintro (_ | _) w₂ hfl₂ ⟨hfl₁₂, hflash⟩
    · exact ⟨hfl₂, .inr rfl⟩
    · refine ⟨hfl₂, hi.next hqw hfl₂ hfl₁₂.sd hblock.1 hle (hflash rfl), ?_⟩
      simp only
      omega

theorem flashLoop_end {f : File} {w : Device} {c : List UInt8} (hr : f.Reads w c)
    (he : f.fptr = c.length) (len : Nat) (n pos : Nat) :
    Prog.loop (flashRound len) (n + 1) (f, pos) w = (.ok (), w) := by
  have hread : readEof f flash_page_size w = (.ok (none, f), w) := Schedule.readEof_end hr he _
  have hround : flashRound len (f, pos) w = (.ok (.inr ()), w) := by
    unfold flashRound
    exact Prog.bind_ok _ hread
  unfold Prog.loop
  exact Prog.bind_ok _ hround

/-- There is nothing in the file that `flashFirmware(path, null)` would program. -/
def Inert (w : Device) (path : Path) : Prop :=
  ∀ c, w.sd path = some c → c = [] ∨ firmware_max_size < c.length

/-- **`flashFirmware(path, null)`** touches nothing but the region; when it returns, the file
    fits and every bit of the region that is 0 in the file (continued by `0xFF`) is cleared. -/
theorem flashFirmware_spec (path : Path) (w : Device) :
    wp (flashFirmware path none) (Ends (fun w' => Flashing w w' ∧ (Inert w path → Quiet w w'))
      (fun n w' => ∃ c, w.sd path = some c ∧ n = c.length ∧ n ≤ firmware_max_size ∧
        ∀ i, w'.flash i = w.flash i &&& c.getD i 0xFF)
      (fun e w' => e.external = true ∨
        e = .flash_write_error ∧ ¬ Inert w path ∨
        e = .flash_firmware_size_error ∧ Quiet w w')
      False) w := by
  have hP : ∀ w', Quiet w w' → Flashing w w' ∧ (Inert w path → Quiet w w') :=
    fun _ h => ⟨h.flashing, fun _ => h⟩
  unfold flashFirmware
  refine wp_bind_ends (K := fun len w' => len = firmware_max_size ∧ Quiet w w')
    (wp_ends_mono (appSlice_spec none w) hP (fun _ _ h hk => ⟨hk.1, h⟩)
    (fun _ _ _ h => h.elim) (fun h => (Nat.lt_irrefl _ h).elim)) ?_
  rintro _ w₁ - ⟨rfl, hq₁⟩
  refine wp_bind_ends (K := fun f w' => Quiet w w' ∧ f.path = path ∧ f.fptr = 0 ∧ ∃ c, f.Reads w' c)
    (wp_ends_mono (f_open_read_spec path w₁) (fun _ h => hP _ (quiet_frame.trans hq₁ h))
      ?_ (fun _ _ _ h => .inl h) id) ?_
  · rintro f w₂ h ⟨hp, h0, c, hr⟩
    exact ⟨quiet_frame.trans hq₁ h, hp, h0, c, hr.quiet h⟩
  rintro f w₂ - ⟨hq₂, rfl, h0, c, hr⟩
  have hsd : w.sd f.path = some c := by
    obtain ⟨t, rfl⟩ := hq₂
    exact hr.content
  refine wp_closing ?_ ?_ ?_ ?_
  · refine wp_bind_ends (K := fun _ w' => Quiet w₂ w') (wp_ends_mono (checked_spec FRESULT.check_external w₂)
      (fun _ h => hP _ (quiet_frame.trans hq₂ h)) (fun _ _ h _ => h) (fun _ _ _ h => .inl h) id) ?_
    intro _ w₃ hP₃ hq₂₃
    have hq₃ := quiet_frame.trans hq₂ hq₂₃
    by_cases hsize : f.size > firmware_max_size
    · rw [if_pos hsize]
      exact ⟨hP₃, .inr (.inr ⟨rfl, hq₃⟩)⟩
    · rw [if_neg hsize]
      have hr₃ := hr.quiet hq₂₃
      have hfit : c.length ≤ firmware_max_size := by rw [← hr.size]; exact Nat.not_lt.mp hsize
      refine wp_bind_ends (K := fun _ w' => ∀ i, w'.flash i = w.flash i &&& c.getD i 0xFF) ?_
        fun _ w₄ h hK => ⟨h, c, hsd, hr.size, by rw [← hr.size] at hfit; exact hfit, hK⟩
      by_cases hc : c = []
      · subst hc
        have hrun := flashLoop_end hr₃ (by simpa using h0) firmware_max_size f.size 0
        unfold wp
        rw [hrun]
        refine ⟨hP₃, fun i => ?_⟩
        obtain ⟨t, rfl⟩ := hq₃
        simp [and_allOnes]
      · have hnot : ¬ Inert w f.path := fun h => (h c hsd).elim hc (by omega)
        have hstart : Programming w c (f, 0) w₃ := by
          refine ⟨hq₃.flashing, hr₃, h0.symm, .inl rfl, fun i => ?_⟩
          obtain ⟨t, rfl⟩ := hq₃
          simp [and_allOnes]
        refine wp_ends_mono (wp_loop_total (fun s => c.length - s.1.fptr) (Programming w c)
          (flashRound_spec hfit) _ (f, 0) w₃ ?_ hstart) (fun _ h => ⟨h, fun h' => (hnot h').elim⟩)
          (fun _ _ _ h => h) ?_ id
        · simp only [File.size, hr.size]
          omega
        · rintro e w₄ - (h | h)
          · exact .inl h
          · exact .inr (.inl ⟨h, hnot⟩)
  · rintro w₃ w₄ hq ⟨hfl, hin⟩
    exact ⟨flashing_frame.trans hfl hq.flashing, fun h => quiet_frame.trans (hin h) hq⟩
  · rintro n w₃ w₄ ⟨t, rfl⟩ h
    exact h
  · rintro e w₃ w₄ hq (h | h | ⟨h, h'⟩)
    · exact .inl h
    · exact .inr (.inl h)
    · exact .inr (.inr ⟨h, quiet_frame.trans h' hq⟩)

/-! ## Backing up -/

/-- Only the file at `path` has changed. -/
def Saving (path : Path) (w w' : Device) : Prop :=
  ∃ t d, w' = { w with tick := t, sd := d } ∧ ∀ q, q ≠ path → d q = w.sd q

theorem saving_frame (path : Path) : Frame (Saving path) where
  refl w := ⟨w.tick, w.sd, rfl, fun _ _ => rfl⟩
  trans := by
    rintro w₁ _ _ ⟨t, d, rfl, h⟩ ⟨t', d', rfl, h'⟩
    exact ⟨t', d', rfl, fun q hq => (h' q hq).trans (h q hq)⟩

theorem Quiet.saving {w w' : Device} (h : Quiet w w') (path : Path) : Saving path w w' := by
  obtain ⟨t, rfl⟩ := h
  exact ⟨t, w.sd, rfl, fun _ _ => rfl⟩

theorem saving_setFile (w : Device) (path : Path) (c : List UInt8) (t : Nat) :
    Saving path w ((w.seek t).setFile path c) :=
  ⟨t, _, rfl, fun _ hq => if_neg hq⟩

theorem setFile_self (w : Device) (path : Path) (c : List UInt8) :
    (w.setFile path c).sd path = some c := if_pos rfl

theorem Saving.bytes {path : Path} {w w' : Device} (h : Saving path w w') (off len : Nat) :
    w'.bytes off len = w.bytes off len := by
  obtain ⟨t, d, rfl, -⟩ := h
  rfl

/-- Opening with `create_always`: an empty file. -/
theorem f_open_create_spec (path : Path) (w : Device) :
    wp (f_open path fMode.create_always_write) (Ends (Saving path w)
      (fun f w' => f = ⟨path, 0, 0⟩ ∧ w'.sd path = some []) (fun e _ => e.external = true) False)
      w := by
  have hq := (quiet_seek w (w.tick + 1)).saving path
  have hset := saving_setFile w path [] (w.tick + 1)
  unfold f_open
  rw [wp_bind, wp_draw]
  simp only [thenPost_ok]
  cases w.faults w.tick with
  | none | short => exact ⟨hset, rfl, setFile_self _ _ _⟩
  | fail r part =>
    by_cases hp : part = []
    · subst hp
      exact ⟨hq, r.check_external⟩
    · have : (fMode.create_always_write.create_always && part != []) = true := by
        simpa [fMode.create_always_write] using hp
      simp only [this, if_true, wp_bind, wp_modify, thenPost_ok, wp_throw, ends_err]
      exact ⟨hset, r.check_external⟩
  | halt part =>
    simp only [wp_halt, ends_halt]
    split
    · exact hset
    · exact hq

theorem spliceAt_end (content data : List UInt8) :
    spliceAt content content.length data = content ++ data := by
  simp [spliceAt]

/-- Writing at the end of the file: a prefix of the data is appended. -/
theorem f_write_spec {f : File} {w : Device} {content : List UInt8} (data : List UInt8)
    (hc : w.sd f.path = some content) (hf : f.fptr = content.length) (ho : f.objsize = f.fptr) :
    wp (f_write f data) (Ends (Saving f.path w) (fun r w' => ∃ k ≤ data.length,
        r.2 = { f with fptr := f.fptr + k, objsize := f.fptr + k } ∧
        w'.sd f.path = some (content ++ data.take k))
      (fun e _ => e.external = true) False) w := by
  have hset := fun c => saving_setFile w f.path c (w.tick + 1)
  unfold f_write
  simp only [wp_bind, wp_get, thenPost_ok, wp_draw, hc, Option.getD_some, hf, spliceAt_end]
  cases w.faults w.tick with
  | none =>
    refine ⟨hset _, data.length, Nat.le_refl _, ?_, ?_⟩
    · rw [ho, hf, Nat.max_eq_right (Nat.le_add_right _ _)]
    · rw [List.take_length]
      exact setFile_self _ _ _
  | short n =>
    refine ⟨hset _, (data.take n).length, ?_, ?_, ?_⟩
    · simp only [List.length_take]
      omega
    · rw [ho, hf, Nat.max_eq_right (Nat.le_add_right _ _)]
    · have htake : data.take (data.take n).length = data.take n := by simp
      rw [htake]
      exact setFile_self _ _ _
  | fail r part => exact ⟨hset _, r.check_external⟩
  | halt part => exact hset _

theorem bytes_append (w : Device) (n k : Nat) : w.bytes 0 n ++ w.bytes n k = w.bytes 0 (n + k) := by
  unfold Device.bytes
  rw [List.range_add, List.map_append, List.map_map]
  simp [Function.comp_def]

theorem bytes_take (w : Device) {off len k : Nat} (h : k ≤ len) :
    (w.bytes off len).take k = w.bytes off k := by
  unfold Device.bytes
  rw [← List.map_take, List.take_range, Nat.min_eq_left h]

theorem bytes_length (w : Device) (off len : Nat) : (w.bytes off len).length = len := by
  simp [Device.bytes]

/-- The invariant of the backup loop: the file holds the slice up to the file pointer. -/
def Backing (w₀ : Device) (path : Path) (len : Nat) (f : File) (w : Device) : Prop :=
  Saving path w₀ w ∧ f.path = path ∧ f.objsize = f.fptr ∧ f.fptr ≤ len ∧
    w.sd path = some (w₀.bytes 0 f.fptr)

theorem backupRound_spec {w₀ : Device} {path : Path} {len : Nat} (f : File) (w : Device)
    (hi : Backing w₀ path len f w) :
    wp (backupRound len f) (Ends (Saving path w₀) (fun r w' =>
      Sum.elim (fun f' => Backing w₀ path len f' w')
        (fun f' => f'.objsize = len ∧ w'.sd path = some (w₀.bytes 0 len)) r)
      (fun e _ => e.external = true) False) w := by
  obtain ⟨hs, rfl, ho, hle, hc⟩ := hi
  unfold backupRound
  by_cases hlt : f.tell < len
  · rw [if_pos hlt]
    have hlt : f.fptr < len := hlt
    generalize hk : (if f.tell + sd_page_size > len then len else f.tell + sd_page_size) - f.tell = k
    have hkle : f.fptr + k ≤ len := by
      show f.tell + k ≤ len
      rw [← hk]
      split <;> omega
    simp only [hk]
    rw [wp_bind, wp_get, thenPost_ok]
    refine wp_bind_ends (wp_ends_mono
      (f_write_spec (w.bytes f.tell k) hc (bytes_length _ _ _).symm ho)
      (fun _ h => (saving_frame f.path).trans hs h) (fun _ _ _ h => h) (fun _ _ _ h => h) id) ?_
    rintro ⟨n, f'⟩ w₁ hs₁ ⟨j, hj, hf', hc₁⟩
    rw [bytes_length] at hj
    have hc₁ : w₁.sd f.path = some (w₀.bytes 0 (f.fptr + j)) := by
      rw [hc₁, bytes_take w hj, hs.bytes, ← bytes_append]
      rfl
    simp only at hf'
    subst hf'
    refine wp_bind_ends (K := fun _ w₂ => Quiet w₁ w₂) (wp_ends_mono
      (checked_spec FRESULT.check_external w₁)
      (fun _ h => (saving_frame f.path).trans hs₁ (h.saving f.path)) (fun _ _ h _ => h)
      (fun _ _ _ h => h) id) ?_
    rintro _ w₂ hs₂ ⟨t, rfl⟩
    exact ⟨hs₂, hs₂, rfl, rfl, by simp only; omega, hc₁⟩
  · rw [if_neg hlt]
    have hend : f.fptr = len := Nat.le_antisymm hle (Nat.not_lt.mp hlt)
    rw [hend] at hc ho
    exact ⟨hs, ho, hc⟩

/-- **`backupFirmware` touches nothing but the file**; when it returns, the file is the slice. -/
theorem backupFirmware_spec (fuel : Nat) (path : Path) (app_len : Option Nat) (w : Device) :
    wp (backupFirmware fuel path app_len) (Ends (Saving path w)
      (fun n w' => n = app_len.getD firmware_max_size ∧ n ≤ firmware_max_size ∧
        w'.sd path = some (w.bytes 0 n))
      (fun e _ => e.external = true) (firmware_max_size < app_len.getD firmware_max_size)) w := by
  have hframe := saving_frame path
  unfold backupFirmware
  refine wp_bind_ends (wp_ends_mono (appSlice_spec app_len w) (fun _ h => h.saving path)
    (fun len w' h hk => (⟨hk, h⟩ : _ ∧ Quiet w w')) (fun _ _ _ h => h.elim) id) ?_
  rintro _ w₁ - ⟨⟨rfl, hle⟩, hq₁⟩
  refine wp_bind_ends (K := fun f w' => Saving path w w' ∧ f = ⟨path, 0, 0⟩ ∧ w'.sd path = some [])
    (wp_ends_mono (f_open_create_spec path w₁) (fun _ h => hframe.trans (hq₁.saving path) h)
      (fun _ _ h hk => ⟨hframe.trans (hq₁.saving path) h, hk⟩) (fun _ _ _ h => h) False.elim) ?_
  rintro _ w₂ - ⟨hs₂, rfl, hc₂⟩
  refine wp_closing ?_ (fun _ _ hq h => hframe.trans h (hq.saving path)) ?_ (fun _ _ _ _ h => h)
  · refine wp_bind_ends (K := fun _ w' => Quiet w₂ w') (wp_ends_mono
      (checked_spec FRESULT.check_external w₂) (fun _ h => hframe.trans hs₂ (h.saving path))
      (fun _ _ h _ => h) (fun _ _ _ h => h) False.elim) ?_
    rintro _ w₃ hs₃ ⟨t, rfl⟩
    generalize hlen : app_len.getD firmware_max_size = len at hle ⊢
    refine wp_bind_ends (K := fun f w' => f.objsize = len ∧ w'.sd path = some (w.bytes 0 len))
      (wp_loop (Backing w path len) (fun f w' hi => ?_) (fun _ _ hi => hi.1) fuel _ _
        ⟨hs₃, rfl, rfl, Nat.zero_le _, hc₂⟩) ?_
    · exact wp_ends_mono (backupRound_spec f w' hi) (fun _ h => h) (fun _ _ _ h => h)
        (fun _ _ _ h => h) False.elim
    · rintro f w₄ hs₄ ⟨ho, hc₄⟩
      exact ⟨hs₄, ho, by simp only [File.size, ho]; exact hle, by simp only [File.size, ho]; exact hc₄⟩
  · rintro n w₃ w₄ ⟨t, rfl⟩ h
    exact h

/-! ## Checking a candidate -/

/-- Only the public key and the log have changed, by calls other than the flash controller's. -/
def Checking (w w' : Device) : Prop :=
  ∃ t k l, w' = { w with tick := t, pub_key := k, log := l ++ w.log } ∧ ∀ c ∈ l, c.msc = false

theorem checking_frame : Frame Checking where
  refl w := ⟨w.tick, w.pub_key, [], rfl, by simp⟩
  trans := by
    rintro w₁ _ _ ⟨t, k, l, rfl, h⟩ ⟨t', k', l', rfl, h'⟩
    refine ⟨t', k', l' ++ l, by simp, ?_⟩
    intro c hc
    rcases List.mem_append.mp hc with hc | hc
    · exact h' c hc
    · exact h c hc

theorem Quiet.checking {w w' : Device} (h : Quiet w w') : Checking w w' := by
  obtain ⟨t, rfl⟩ := h
  exact ⟨t, w.pub_key, [], rfl, by simp⟩

/-- Between `w` and `w'` the file at `path` was accepted by `verifyFirmware` under the
    configured key. -/
def Accepted (path : Path) (w w' : Device) : Prop :=
  ∃ c key, w.sd path = some c ∧ X.base64_decode (getHttpSigKey w) 256 = some key ∧
    X.boot_image_load_header c = true ∧ X.bootutil_img_validate key c = true ∧
    ∃ l, w'.log = l ++ w.log ∧ .bootutil_img_validate c true ∈ l

/-- The calls of `checkFirmwareCandidateSize`: open, sync and close. -/
def sizeCheckCalls : List Bool := [true, true, false]

theorem checkFirmwareCandidateSize_schedule {path : Path} {w : Device} {c : List UInt8}
    (hc : w.sd path = some c) :
    Schedule (checkFirmwareCandidateSize path none) sizeCheckCalls
      (if c.length ≤ firmware_max_size then .ok c.length else .err .flash_firmware_size_error) w := by
  unfold checkFirmwareCandidateSize sizeCheckCalls
  refine Schedule.bind [] [true, true, false] (a := firmware_max_size)
    (appSlice_run _ rfl (Nat.le_refl _) w) ?_
  refine Schedule.bind [true] [true, false] (Schedule.f_open hc) ?_
  refine Schedule.closing [true] (by split <;> simp) ?_
  refine Schedule.bind _ [] (Schedule.checked FRESULT.check_external _) ?_
  by_cases h : c.length ≤ firmware_max_size
  · rw [if_pos h, if_neg (show ¬ File.size ⟨path, 0, c.length⟩ > firmware_max_size from
      Nat.not_lt.mpr h)]
    exact Schedule.pure _ _
  · rw [if_neg h, if_pos (show File.size ⟨path, 0, c.length⟩ > firmware_max_size from
      Nat.not_le.mp h)]
    exact Schedule.throw _ _

/-- `verifyFirmware` succeeds only by a positive verdict on the file, which is in the log; it
    fails by a negative one or for want of memory. -/
theorem verifyFirmware_spec {path : Path} {w : Device} {c : List UInt8} (hc : w.sd path = some c) :
    wp (verifyFirmware X path) (Ends (Checking w) (fun _ w' =>
      X.boot_image_load_header c = true ∧ X.bootutil_img_validate w.pub_key c = true ∧
        ∃ l, w'.log = l ++ w.log ∧ .bootutil_img_validate c true ∈ l)
      (fun _ _ => X.boot_image_load_header c = false ∨ X.bootutil_img_validate w.pub_key c = false ∨
        (w.faults (w.tick + 2)).fails = true) True) w := by
  unfold verifyFirmware
  refine wp_bind_ends (K := fun f w₁ => f = ⟨path, 0, c.length⟩ ∧ w₁ = w.seek (w.tick + 1))
    (wp_ends_mono (wp_orUnreachable_ends (Schedule.f_open hc).counted) (fun _ h => h.checking)
    (fun _ _ _ h => h) (fun _ _ _ h => h.elim) id) ?_
  rintro _ _ - ⟨rfl, rfl⟩
  refine wp_closing ?_ (fun _ _ hq h => checking_frame.trans h hq.checking) ?_ (fun _ _ _ _ h => h)
  · have hq : ∀ t w', Quiet (w.seek t) w' → Checking w w' := fun t _ h =>
      (quiet_frame.trans (quiet_seek w t) h).checking
    unfold boot_image_load_header
    refine wp_bind_ends (K := fun _ w₂ => w₂ = w.seek (w.tick + 2) ∧ X.boot_image_load_header c = true)
      ?_ ?_
    · refine wp_bind_ends (K := fun _ w₂ => w₂ = w.seek (w.tick + 2)) (wp_ends_mono
        (wp_orUnreachable_ends (Schedule.checked FRESULT.check_external _).counted)
        (fun _ h => hq _ _ h) (fun _ _ _ h => h.2) (fun _ _ _ h => h.elim) id) ?_
      rintro _ _ hP₂ rfl
      simp only [wp_bind, wp_get, thenPost_ok, Device.seek_sd, hc, Option.getD_some]
      split
      · rename_i hh
        exact ⟨hP₂, rfl, hh⟩
      · rename_i hh
        exact ⟨hP₂, .inl (by simpa using hh)⟩
    rintro _ _ - ⟨rfl, hh⟩
    refine wp_bind_ends (K := fun _ w₃ => Quiet w w₃) ?_ ?_
    · exact wp_ends_mono (Schedule.checked (fun _ => rfl) (w.seek (w.tick + 2))).counted
        (fun _ h => hq _ _ h) (fun _ _ h _ => quiet_frame.trans (quiet_seek w _) h)
        (fun _ _ _ h => .inr (.inr (survey_single h.2))) False.elim
    rintro _ w₃ - hq₃
    unfold bootutil_img_validate
    refine wp_bind_ends (K := fun _ w' => Quiet w w') (wp_ends_mono
      (wp_orUnreachable_ends (checked_spec FRESULT.check_external w₃))
      (fun _ h => (quiet_frame.trans hq₃ h).checking) (fun _ _ h _ => quiet_frame.trans hq₃ h)
      (fun _ _ _ h => h.elim) id) ?_
    rintro _ w₄ - ⟨t, rfl⟩
    simp only [wp_bind, wp_get, wp_modify, thenPost_ok, hc, Option.getD_some]
    cases hv : X.bootutil_img_validate w.pub_key c with
    | true =>
      exact ⟨⟨t, w.pub_key, [_], rfl, by simp [Call.msc]⟩, hh, rfl, [_], rfl, by simp⟩
    | false => exact ⟨⟨t, w.pub_key, [_], rfl, by simp [Call.msc]⟩, .inr (.inl rfl)⟩
  · rintro _ w₂ w₃ ⟨t, rfl⟩ h
    exact h

theorem load_global_public_key_spec (w : Device) :
    wp (load_global_public_key X) (Ends (Checking w) (fun _ w' =>
      ∃ key, X.base64_decode (getHttpSigKey w) 256 = some key ∧ w' = { w with pub_key := key })
      (fun _ _ => False) True) w := by
  unfold load_global_public_key
  simp only [wp_bind, wp_get, thenPost_ok]
  split
  · exact ⟨checking_frame.refl w, trivial⟩
  · rename_i key hkey
    exact ⟨⟨w.tick, key, [], rfl, by simp⟩, key, hkey, rfl⟩

/-- The hash comparison that `checkFirmwareImage` makes from `w` on the file at `path` meets a
    failing call. -/
def ComparisonFails (path : Path) (w : Device) : Prop :=
  ∃ c, w.sd path = some c ∧ c.length ≤ firmware_max_size ∧
    survey w.faults sizeCheckCalls w.tick = .passed ∧
    survey w.faults (compareCalls c.length) (w.tick + sizeCheckCalls.length) = .failed

instance (path : Path) (w : Device) : Decidable (ComparisonFails path w) :=
  inferInstanceAs (Decidable (∃ c ∈ w.sd path, c.length ≤ firmware_max_size ∧
    survey w.faults sizeCheckCalls w.tick = .passed ∧
    survey w.faults (compareCalls c.length) (w.tick + sizeCheckCalls.length) = .failed))

/-- The file at `path` fits and has the hash of the beginning of the region. -/
def InRegion (path : Path) (w : Device) : Prop :=
  ∃ c, w.sd path = some c ∧ c.length ≤ firmware_max_size ∧
    X.sha256 c = X.sha256 (w.bytes 0 c.length)

instance [DecidableEq Digest] (path : Path) (w : Device) : Decidable (InRegion X path w) :=
  inferInstanceAs (Decidable (∃ c ∈ w.sd path, c.length ≤ firmware_max_size ∧
    X.sha256 c = X.sha256 (w.bytes 0 c.length)))

/-- The check that `checkFirmwareImage` makes from `w` on the file at `path` refuses it: the image
    library does, under the configured key, or there is no memory for its buffer. -/
def Refusable (path : Path) (w : Device) : Prop :=
  ∃ c, w.sd path = some c ∧ X.sha256 c ≠ X.sha256 (w.bytes 0 c.length) ∧
    ∃ key, X.base64_decode (getHttpSigKey w) 256 = some key ∧
    (X.boot_image_load_header c = false ∨ X.bootutil_img_validate key c = false ∨
      (w.faults (w.tick + sizeCheckCalls.length + (compareCalls c.length).length + 2)).fails = true)

instance [DecidableEq Digest] (path : Path) (w : Device) : Decidable (Refusable X path w) :=
  inferInstanceAs (Decidable (∃ c ∈ w.sd path, X.sha256 c ≠ X.sha256 (w.bytes 0 c.length) ∧
    ∃ key ∈ X.base64_decode (getHttpSigKey w) 256,
    (X.boot_image_load_header c = false ∨ X.bootutil_img_validate key c = false ∨
      (w.faults (w.tick + sizeCheckCalls.length + (compareCalls c.length).length + 2)).fails = true)))

theorem checkFirmwareCandidateSize_missing {path : Path} {w : Device} (hc : w.sd path = none) :
    wp (checkFirmwareCandidateSize path none) (Reading w fun _ => False) w := by
  unfold checkFirmwareCandidateSize
  refine wp_bind_reading (k := fun _ => True) (quiet_frame.refl w)
    (wp_of_eq (appSlice_run _ rfl (Nat.le_refl _) w) ⟨quiet_frame.refl w, trivial⟩) ?_
  rintro _ w₁ ⟨t, rfl⟩ -
  refine wp_bind_reading (quiet_seek w t) (f_open_read_missing hc) ?_
  exact fun _ _ _ h => h.elim

/-- The part of `checkFirmwareImage` behind a mismatch. -/
theorem validateCandidate_spec {path : Path} {w : Device} {c : List UInt8}
    (hc : w.sd path = some c) (hne : X.sha256 c ≠ X.sha256 (w.bytes 0 c.length)) :
    wp (do
        load_global_public_key X
        (verifyFirmware X path).tryCatch fun _ => Prog.throw .firmware_candidate_not_valid)
      (Ends (Checking w) (fun _ w' => Accepted X path w w')
        (fun e _ => e = .firmware_candidate_not_valid ∧ Refusable X path w) True)
      (w.seek (w.tick + sizeCheckCalls.length + (compareCalls c.length).length)) := by
  refine wp_bind_ends (wp_ends_mono (load_global_public_key_spec X _)
    (fun _ h => checking_frame.trans (quiet_seek w _).checking h) (fun _ _ _ h => h)
    (fun _ _ _ h => h.elim) id) ?_
  rintro _ _ hch ⟨key, hkey, rfl⟩
  rw [wp_tryCatch]
  refine wp_mono (verifyFirmware_spec X hc) ?_
  intro x w' hx
  cases x with
  | ok a =>
    obtain ⟨hch', hhdr, hval, l, hlog, hl⟩ := hx
    exact ⟨checking_frame.trans hch hch', c, key, hc, hkey, hhdr, hval, l, hlog, hl⟩
  | err e => exact ⟨checking_frame.trans hch hx.1, rfl, c, hc, hne, key, hkey, hx.2⟩
  | trap => exact ⟨checking_frame.trans hch hx.1, trivial⟩
  | halt => exact checking_frame.trans hch hx

/-- **Behind every result of `checkFirmwareImage`**: it returns without an error only if the file
    was accepted or the comparison has met a failing call. -/
theorem checkFirmwareImage_spec [DecidableEq Digest] (path : Path) (w : Device) :
    wp (checkFirmwareImage X path) (Ends (Checking w)
      (fun _ w' => Accepted X path w w' ∨ ComparisonFails path w)
      (fun e _ => e.external = true ∨ e = .flash_firmware_size_error ∨
        e = .firmware_candidate_not_valid ∧ Refusable X path w ∨
        e = .firmware_already_in_system ∧ InRegion X path w)
      True) w := by
  unfold checkFirmwareImage
  rw [wp_bind]
  cases hc : w.sd path with
  | none =>
    refine wp_mono (checkFirmwareCandidateSize_missing hc) ?_
    intro x w' hx
    cases x with
    | ok a => exact hx.2.elim
    | err e => exact ⟨hx.1.checking, .inl hx.2⟩
    | trap => exact hx.2.elim
    | halt => exact hx.checking
  | some c =>
    obtain ⟨hs, hrun⟩ | ⟨-, t, e, he, hrun⟩ | ⟨-, t, hrun⟩ :=
      (checkFirmwareCandidateSize_schedule hc).exits
    · by_cases hfit : c.length ≤ firmware_max_size
      · rw [if_pos hfit] at hrun
        refine wp_of_eq hrun ?_
        rw [thenPost_ok, wp_bind, wp_attempt]
        have hq := quiet_seek w (w.tick + sizeCheckCalls.length)
        obtain ⟨-, hrun⟩ | ⟨hf, t, e, he, hrun⟩ | ⟨-, t, hrun⟩ :=
          (verifyBackup_schedule X (some c.length) c.length (w := w.seek (w.tick + sizeCheckCalls.length)) rfl
            hfit hc).exits
        · by_cases heq : X.sha256 c = X.sha256 (w.bytes 0 c.length)
          · rw [Device.seek_bytes, if_pos heq] at hrun
            exact wp_of_eq hrun ⟨(quiet_seek _ _).checking, .inr (.inr (.inr ⟨rfl, c, hc, hfit, heq⟩))⟩
          · rw [Device.seek_bytes, if_neg heq] at hrun
            refine wp_of_eq hrun ?_
            simp only [unionPost_err, thenPost_ok, if_true]
            refine wp_ends_mono (validateCandidate_spec X hc heq) (fun _ h => h)
              (fun _ _ _ h => .inl h) (fun _ _ _ h => .inr (.inr (.inl h))) id
        · refine wp_of_eq hrun ?_
          have hne : e ≠ .hash_compare_mismatch := by
            rintro rfl
            cases he
          simp only [unionPost_err, thenPost_ok, if_neg hne]
          exact ⟨(quiet_seek _ _).checking, .inr ⟨c, hc, hfit, hs, hf⟩⟩
        · exact wp_of_eq hrun (quiet_seek _ _).checking
      · rw [if_neg hfit] at hrun
        exact wp_of_eq hrun ⟨(quiet_seek _ _).checking, .inr (.inl rfl)⟩
    · exact wp_of_eq hrun ⟨(quiet_seek _ _).checking, .inl he⟩
    · exact wp_of_eq hrun (quiet_seek _ _).checking

/-- A failing call of the comparison is dropped: `checkFirmwareImage` returns without an error
    and has not looked at the signature. -/
theorem checkFirmwareImage_dropped [DecidableEq Digest] {path : Path} {w : Device}
    (hno : ¬ w.Interrupted) (hf : ComparisonFails path w) :
    ∃ t, checkFirmwareImage X path w = (.ok (), w.seek t) := by
  obtain ⟨c, hc, hfit, hs, hf⟩ := hf
  have hsize := checkFirmwareCandidateSize_schedule hc
  have hcmp := verifyBackup_schedule X (some c.length) c.length
    (w := w.seek (w.tick + sizeCheckCalls.length)) rfl hfit hc
  unfold Schedule at hsize
  rw [hs, if_pos hfit] at hsize
  unfold Schedule at hcmp
  rw [Device.seek_faults, Device.seek_tick, hf] at hcmp
  obtain ⟨t, ⟨e, he, hrun⟩ | ⟨hi, -⟩⟩ := hcmp
  · refine ⟨t, ?_⟩
    have hne : e ≠ .hash_compare_mismatch := by
      rintro rfl
      cases he
    unfold checkFirmwareImage
    rw [Prog.bind_ok _ hsize, Prog.bind_ok _ (Prog.attempt_err hrun)]
    simp only [if_neg hne]
    rfl
  · exact absurd hi hno

end Miso.Boot
