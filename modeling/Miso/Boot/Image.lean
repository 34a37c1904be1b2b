import Miso.Boot.Outcomes
import Mathlib.Data.List.Nodup

/-!
# Erasing and flashing an image

`eraseFlash(null)` followed by `flashFirmware(path, null)` on a device on which no call fails.

* `eraseFlash_passing` — the pages of the region are erased one after the other, each once;
* `flashFirmware_passing` — whole pages are written, on page boundaries inside the region;
* `erase_flash_image` — together they leave exactly the file in the region, continued by `0xFF`.
-/

namespace Miso.Boot

open Zig

/-! ## Calls of the flash controller -/

/-- The pages of the application region. -/
def firmware_pages : Nat := firmware_max_size / flash_page_size

/-- A call of the flash controller starts on a page boundary and stays inside the region. -/
def Call.OnPage : Call → Prop
  | .MSC_ErasePage addr => addr % flash_page_size = 0 ∧ addr + flash_page_size ≤ firmware_max_size
  | .MSC_WriteWord addr len => addr % flash_page_size = 0 ∧ addr + len ≤ firmware_max_size
  | .bootutil_img_validate _ _ => True

/-- The erase calls of the first `n` pages. -/
def pageErasures (n : Nat) : List Call :=
  (List.range n).map fun p => .MSC_ErasePage (p * flash_page_size)

theorem pageErasures_succ (n : Nat) :
    pageErasures (n + 1) = pageErasures n ++ [.MSC_ErasePage (n * flash_page_size)] := by
  simp [pageErasures, List.range_succ]

theorem pageErasures_nodup (n : Nat) : (pageErasures n).Nodup := by
  apply List.Nodup.map _ List.nodup_range
  intro p q h
  simp only [Call.MSC_ErasePage.injEq, flash_page_size] at h
  omega

theorem pageErasures_count {p n : Nat} (hp : p < n) :
    (pageErasures n).count (.MSC_ErasePage (p * flash_page_size)) = 1 := by
  apply List.count_eq_one_of_mem (pageErasures_nodup n)
  exact List.mem_map_of_mem (List.mem_range.mpr hp)

theorem pageErasures_onPage {c : Call} (hc : c ∈ pageErasures firmware_pages) : c.OnPage := by
  obtain ⟨p, hp, rfl⟩ := List.mem_map.mp hc
  have hp : p < 176 := List.mem_range.mp hp
  have hmax := firmware_max_size_eq
  simp only [Call.OnPage, flash_page_size] at *
  omega

theorem Flashing.passing {w w' : Device} (h : Flashing w w') (hw : w.Passing) : w'.Passing := by
  obtain ⟨t, f, l, rfl, -, -⟩ := h
  exact hw

theorem f_sync_passing {w : Device} (hw : w.Passing) (f : File) :
    f_sync f w = (.ok (), w.seek (w.tick + 1)) :=
  (Schedule.checked FRESULT.check_external w).passing hw

theorem MSC_ErasePage_passing {w : Device} (hw : w.Passing) (addr : Nat) :
    wp (MSC_ErasePage addr) (Returns fun r w' => r = true ∧ Flashing w w' ∧
      w'.log = .MSC_ErasePage addr :: w.log) w := by
  obtain ⟨hfails, hhalts⟩ := hw w.tick
  have hframe := MSC_ErasePage_spec addr w
  unfold MSC_ErasePage at hframe ⊢
  simp only [wp_bind, wp_modify, thenPost_ok, wp_draw, Device.record] at hframe ⊢
  cases hfault : w.faults w.tick with
  | fail r part =>
    rw [hfault] at hfails
    cases hfails
  | halt part =>
    rw [hfault] at hhalts
    cases hhalts
  | none | short =>
    rw [hfault] at hframe
    exact ⟨rfl, hframe.1, rfl⟩

theorem MSC_WriteWord_passing {w : Device} (hw : w.Passing) (addr : Nat) (data : List UInt8) :
    wp (MSC_WriteWord addr data) (Returns fun r w' => r = true ∧ Flashing w w' ∧
      w'.log = .MSC_WriteWord addr data.length :: w.log) w := by
  obtain ⟨hfails, hhalts⟩ := hw w.tick
  have hframe := MSC_WriteWord_spec addr data w
  unfold MSC_WriteWord at hframe ⊢
  simp only [wp_bind, wp_modify, thenPost_ok, wp_draw, Device.record] at hframe ⊢
  cases hfault : w.faults w.tick with
  | fail r part =>
    rw [hfault] at hfails
    cases hfails
  | halt part =>
    rw [hfault] at hhalts
    cases hhalts
  | none | short =>
    rw [hfault] at hframe
    exact ⟨rfl, hframe.1, rfl⟩

/-! ## Erasing -/

/-- The invariant of the erase loop: the pages before the position have been erased in order. -/
def ErasedTo (w₀ : Device) (pos : Nat) (w : Device) : Prop :=
  pos % flash_page_size = 0 ∧ pos ≤ firmware_max_size ∧ Flashing w₀ w ∧
    w.log = (pageErasures (pos / flash_page_size)).reverse ++ w₀.log

theorem eraseRound_passing {w₀ : Device} (hw : w₀.Passing) (pos : Nat) (w : Device)
    (hi : ErasedTo w₀ pos w) :
    wp (eraseRound firmware_max_size pos) (Returns fun r w' =>
      Sum.elim (fun pos' => ErasedTo w₀ pos' w' ∧
          firmware_max_size - pos' < firmware_max_size - pos)
        (fun _ => Flashing w₀ w' ∧ w'.log = (pageErasures firmware_pages).reverse ++ w₀.log) r)
      w := by
  obtain ⟨hmod, hle, hfl, hlog⟩ := hi
  have hmax := firmware_max_size_eq
  unfold eraseRound
  by_cases hlt : pos < firmware_max_size
  · have hend : pos + flash_page_size ≤ firmware_max_size := by
      rw [hmax] at hlt ⊢
      unfold flash_page_size at *
      omega
    rw [if_pos hlt]
    simp only [page_aligned hmod hle]
    rw [if_neg (by omega)]
    apply wp_bind_returns (MSC_ErasePage_passing (hfl.passing hw) pos)
    intro r w₁ h
    obtain ⟨rfl, hfl₁, hlog₁⟩ := h
    simp only [Bool.not_true, Bool.false_eq_true, if_false, wp_pure,
      returns_ok, Sum.elim_inl]
    have hnext : (pos + flash_page_size) / flash_page_size = pos / flash_page_size + 1 := by
      unfold flash_page_size
      omega
    have hpos : pos / flash_page_size * flash_page_size = pos := by
      unfold flash_page_size at *
      omega
    constructor
    · refine ⟨?_, hend, flashing_frame.trans hfl hfl₁, ?_⟩
      · unfold flash_page_size at *
        omega
      · rw [hlog₁, hlog, hnext, pageErasures_succ, hpos]
        simp
    · unfold flash_page_size at *
      omega
  · rw [if_neg hlt]
    have hpos : pos = firmware_max_size := by omega
    rw [hpos] at hlog
    exact ⟨hfl, hlog⟩

/-- **`eraseFlash(null)` on a device on which nothing fails** erases every page once, in order. -/
theorem eraseFlash_passing {w : Device} (hw : w.Passing) :
    wp (eraseFlash none) (Returns fun _ w' => Flashing w w' ∧
      w'.log = (pageErasures firmware_pages).reverse ++ w.log) w := by
  unfold eraseFlash
  apply wp_bind_returns (K := fun len w' => len = firmware_max_size ∧ w' = w)
  · exact wp_of_eq (appSlice_run firmware_max_size rfl (Nat.le_refl _) w) ⟨rfl, rfl⟩
  · intro len w' h
    obtain ⟨rfl, rfl⟩ := h
    apply wp_loop_returns (fun pos => firmware_max_size - pos) (ErasedTo w')
      (eraseRound_passing hw)
    · omega
    · exact ⟨rfl, Nat.zero_le _, flashing_frame.refl w', rfl⟩

/-! ## Flashing -/

/-- A call that writes one page, on a page boundary inside the region. -/
def Call.WritesPage (c : Call) : Prop :=
  ∃ addr, c = .MSC_WriteWord addr flash_page_size ∧ c.OnPage

/-- Calls that each write a page have been added to the log. -/
def WritesLogged (w₀ w : Device) : Prop := ∃ l, w.log = l ++ w₀.log ∧ ∀ c ∈ l, c.WritesPage

theorem WritesLogged.next {w₀ w w' : Device} {c : Call} (h : WritesLogged w₀ w)
    (hlog : w'.log = c :: w.log) (hc : c.WritesPage) : WritesLogged w₀ w' := by
  obtain ⟨l, hl, hwrites⟩ := h
  refine ⟨c :: l, by rw [hlog, hl, List.cons_append], ?_⟩
  intro call hcall
  cases hcall with
  | head => exact hc
  | tail _ hmem => exact hwrites call hmem

/-- The invariant of the flashing loop: it stands on a page boundary or at the end of the file. -/
def WrittenTo (w₀ : Device) (c : List UInt8) (s : File × Nat) (w : Device) : Prop :=
  s.1.Reads w c ∧ s.2 = s.1.fptr ∧ (s.2 % flash_page_size = 0 ∨ s.2 = c.length) ∧
    Flashing w₀ w ∧ WritesLogged w₀ w

theorem flashRound_passing {c : List UInt8} {w₀ : Device} (hw : w₀.Passing)
    (hc : c.length ≤ firmware_max_size) (s : File × Nat) (w : Device) (hi : WrittenTo w₀ c s w) :
    wp (flashRound firmware_max_size s) (Returns fun r w' =>
      Sum.elim (fun s' => WrittenTo w₀ c s' w' ∧ c.length - s'.1.fptr < c.length - s.1.fptr)
        (fun _ => Flashing w₀ w' ∧ WritesLogged w₀ w') r) w := by
  obtain ⟨hr, hpos, hmod, hfl, hwrites⟩ := hi
  have hpass := hfl.passing hw
  unfold flashRound
  by_cases he : s.1.fptr = c.length
  · have hread := (Schedule.readEof_end hr he flash_page_size).passing hpass
    apply wp_of_same (Prog.bind_ok _ hread)
    exact ⟨flashing_frame.trans hfl (quiet_seek w _).flashing, hwrites⟩
  · have hlt : s.1.fptr < c.length := Nat.lt_of_le_of_ne hr.fptr_le he
    have hpage : 0 < flash_page_size := by decide
    have hread := (Schedule.readEof_next hr hlt hpage).passing hpass
    apply wp_of_same (Prog.bind_ok _ hread)
    have hmax := firmware_max_size_eq
    -- the destination is a whole page also for the last, padded chunk
    have hroom : s.2 + flash_page_size ≤ firmware_max_size := by
      rw [hmax] at hc ⊢
      unfold flash_page_size at *
      omega
    generalize hbr : (c.drop s.1.fptr).take flash_page_size = br
    have hlen : br.length = min flash_page_size (c.length - s.1.fptr) := by
      rw [← hbr]
      simp
    have hpad : (br ++ List.replicate (flash_page_size - br.length) 0xFF).length =
        flash_page_size := by
      simp only [List.length_append, List.length_replicate]
      omega
    have hpass₁ : (w.seek (w.tick + [true].length)).Passing := hpass
    simp only
    rw [if_neg (by omega)]
    apply wp_bind_returns (MSC_WriteWord_passing hpass₁ s.2 _)
    intro r w₁ h
    obtain ⟨rfl, hfl₁, hlog₁⟩ := h
    rw [hpad] at hlog₁
    simp only [Bool.not_true, Bool.false_eq_true, if_false, wp_pure, returns_ok, Sum.elim_inl]
    refine ⟨⟨⟨?_, hr.size, ?_⟩, rfl, ?_, ?_, ?_⟩, ?_⟩
    · rw [hfl₁.sd]
      exact hr.content
    · simp only
      omega
    · simp only [File.tell]
      unfold flash_page_size at *
      omega
    · exact flashing_frame.trans hfl (flashing_frame.trans (quiet_seek w _).flashing hfl₁)
    · refine hwrites.next hlog₁ ⟨s.2, rfl, ?_, hroom⟩
      omega
    · omega

/-- **`flashFirmware(path, null)` on a device on which nothing fails** writes whole pages of the
    region and returns the length of the file. -/
theorem flashFirmware_passing {path : Path} {c : List UInt8} {w : Device} (hw : w.Passing)
    (hsd : w.sd path = some c) (hc : c.length ≤ firmware_max_size) :
    wp (flashFirmware path none) (Returns fun n w' => n = c.length ∧ Flashing w w' ∧
      WritesLogged w w') w := by
  unfold flashFirmware
  apply wp_of_same (Prog.bind_ok _ (appSlice_run firmware_max_size rfl (Nat.le_refl _) w))
  apply wp_of_same (Prog.bind_ok _ ((Schedule.f_open hsd).passing hw))
  apply wp_deferring_ok (K := fun n w' => n = c.length ∧ Flashing w w' ∧ WritesLogged w w')
  · have hw₁ : (w.seek (w.tick + 1)).Passing := hw
    apply wp_of_same (Prog.bind_ok _ (f_sync_passing hw₁ _))
    have hsize : ¬ (⟨path, 0, c.length⟩ : File).size > firmware_max_size := Nat.not_lt.mpr hc
    dsimp only
    rw [if_neg hsize]
    apply wp_bind_returns (K := fun _ w' => Flashing w w' ∧ WritesLogged w w')
    · apply wp_loop_returns (fun s => c.length - s.1.fptr) (WrittenTo w c)
        (flashRound_passing hw hc)
      · exact Nat.lt_succ_of_le (Nat.sub_le _ _)
      · exact ⟨⟨hsd, rfl, Nat.zero_le _⟩, rfl, .inl rfl, (quiet_seek w _).flashing,
          [], rfl, nofun⟩
    · intro _ w' h
      exact ⟨rfl, h⟩
  · intro n w' h
    obtain ⟨hn, hfl, hwrites⟩ := h
    apply wp_of_eq ((Schedule.checked FRESULT.check_external w').passing (hfl.passing hw))
    exact ⟨hn, flashing_frame.trans hfl (quiet_seek w' _).flashing, hwrites⟩

/-! ## Both -/

/-- `eraseFlash(null)` followed by `flashFirmware(path, null)`. -/
def eraseAndFlash (path : Path) : BootM Nat := do
  eraseFlash none
  flashFirmware path none

/-- **Erasing and flashing write exactly the file.** On a device on which no call fails, for
    every file that fits and every content of the region, the two return the length of the file
    and leave it in the region, continued by `0xFF`; every page is erased exactly once, and all
    calls of the flash controller start on a page boundary and stay inside the region. -/
theorem erase_flash_image (path : Path) (c : List UInt8) (w : Device) (hw : w.Passing)
    (hsd : w.sd path = some c) (hc : c.length ≤ firmware_max_size) :
    ∃ w' calls, eraseAndFlash path w = (.ok c.length, w') ∧ w'.log = calls ++ w.log ∧
      (∀ i < firmware_max_size, w'.flash i = c.getD i 0xFF) ∧
      (∀ p < firmware_pages, calls.count (.MSC_ErasePage (p * flash_page_size)) = 1) ∧
      ∀ call ∈ calls, call.OnPage := by
  obtain ⟨_, w₁, hrun₁, hfl₁, hlog₁⟩ := wp_returns_run (eraseFlash_passing hw)
  have herased := (wp_of_run (eraseFlash_spec w) hrun₁).2.2
  have hsd₁ : w₁.sd path = some c := by
    rw [hfl₁.sd]
    exact hsd
  obtain ⟨n, w₂, hrun₂, rfl, -, l, hlog₂, hwrites⟩ :=
    wp_returns_run (flashFirmware_passing (hfl₁.passing hw) hsd₁ hc)
  obtain ⟨-, c', hc', -, -, hflash⟩ := wp_of_run (flashFirmware_spec path w₁) hrun₂
  rw [hsd₁] at hc'
  cases hc'
  refine ⟨w₂, l ++ (pageErasures firmware_pages).reverse, ?_, ?_, ?_, ?_, ?_⟩
  · exact (Prog.bind_ok _ hrun₁).trans hrun₂
  · rw [hlog₂, hlog₁, List.append_assoc]
  · intro i hi
    rw [hflash i, herased i hi, UInt8.and_comm, and_allOnes]
  · intro p hp
    have hnone : l.count (.MSC_ErasePage (p * flash_page_size)) = 0 := by
      apply List.count_eq_zero_of_not_mem
      intro hmem
      obtain ⟨addr, heq, -⟩ := hwrites _ hmem
      cases heq
    rw [List.count_append, List.count_reverse, hnone, pageErasures_count hp]
  · intro call hcall
    rcases List.mem_append.mp hcall with hmem | hmem
    · obtain ⟨_, -, hon⟩ := hwrites call hmem
      exact hon
    · exact pageErasures_onPage (List.mem_reverse.mp hmem)

theorem erase_flash_image_sample :
    ∃ w' calls, eraseAndFlash .fw_file_name (.sample (fun _ => .none) (some [0x42]) none) =
        (.ok 1, w') ∧ w'.log = calls ++ [] ∧
      (∀ i < firmware_max_size, w'.flash i = [0x42].getD i 0xFF) ∧
      (∀ p < firmware_pages, calls.count (.MSC_ErasePage (p * flash_page_size)) = 1) ∧
      ∀ call ∈ calls, call.OnPage :=
  erase_flash_image .fw_file_name [0x42] (.sample (fun _ => .none) (some [0x42]) none)
    (fun _ => ⟨rfl, rfl⟩) rfl (by decide)

end Miso.Boot
