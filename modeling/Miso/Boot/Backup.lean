import Miso.Boot.Outcomes

/-!
# When the backup ends

`backupFirmware` drops the count that `f_write` returns and goes round again from the position of
the file, so on a card that stores nothing and reports `FR_OK` it makes no progress.

* `backupRound_advances` — one round moves the position by what the card stores;
* `backup_starved` — on a card that never stores `app_len` bytes the loop outruns every fuel;
* `backup_ends` — on every other card it ends;
* `backup_complete_iff` — the two together with what the file holds at the end.
-/

namespace Miso.Boot

open Zig

/-! ## What the card stores -/

/-- The bytes of a full block that a write with this outcome stores. -/
def Fault.count : Fault → Nat
  | .none => sd_page_size
  | .short n => min n sd_page_size
  | .fail _ _ => 0
  | .halt _ => 0

theorem Fault.count_le (f : Fault) : f.count ≤ sd_page_size := by
  cases f with
  | none => exact Nat.le_refl _
  | short n => exact Nat.min_le_right _ _
  | fail r part => exact Nat.zero_le _
  | halt part => exact Nat.zero_le _

/-- The bytes that the first `n` writes store when every second call from `t` on is a write. -/
def accepted (faults : Nat → Fault) (t : Nat) : Nat → Nat
  | 0 => 0
  | n + 1 => accepted faults t n + (faults (t + 2 * n)).count

/-- No call reports an error, and the writes never store `len` bytes, however many there are.
    The first two calls open the file and sync it. -/
def Starved (w : Device) (len : Nat) : Prop :=
  (∀ t, (w.faults (w.tick + t)).fails = false) ∧
    ∀ n, accepted w.faults (w.tick + 2) n < len

/-! ## One round -/

/-- What a call does on a device that is not reset: it returns `K` if its fault lets it pass, and
    an error otherwise. -/
def Answers {α : Type} (w : Device) (K : α → Prop) (x : Exit Error α) (w' : Device) : Prop :=
  w'.faults = w.faults ∧ w'.tick = w.tick + 1 ∧ match x with
    | .ok a => K a ∧ (w.faults w.tick).fails = false
    | .err _ => (w.faults w.tick).fails = true
    | .trap | .halt => False

theorem interrupted_of_faults {w w' : Device} (h : w'.faults = w.faults) (hno : ¬ w.Interrupted) :
    ¬ w'.Interrupted := by
  unfold Device.Interrupted
  rw [h]
  exact hno

theorem f_sync_answers {w : Device} (hno : ¬ w.Interrupted) (f : File) :
    wp (f_sync f) (Answers w fun _ => True) w := by
  have hrun := checked_run FRESULT.check w
  cases hfault : w.faults w.tick with
  | none | short =>
    rw [hfault] at hrun
    exact wp_of_eq hrun ⟨rfl, rfl, trivial, by rw [hfault]; rfl⟩
  | fail r part =>
    rw [hfault] at hrun
    exact wp_of_eq hrun ⟨rfl, rfl, by rw [hfault]; rfl⟩
  | halt part => exact absurd ⟨w.tick, by rw [hfault]; rfl⟩ hno

theorem f_open_create_answers {w : Device} (hno : ¬ w.Interrupted) (path : Path) :
    wp (f_open path fMode.create_always_write) (Answers w fun f => f.tell = 0) w := by
  unfold f_open
  rw [wp_bind, wp_draw, thenPost_ok]
  cases hfault : w.faults w.tick with
  | none | short => exact ⟨rfl, rfl, rfl, by rw [hfault]; rfl⟩
  | fail r part =>
    have herr : (w.faults w.tick).fails = true := by
      rw [hfault]
      rfl
    by_cases hp : (fMode.create_always_write.create_always && part != []) = true
    · simp only [hp, if_true, wp_bind, wp_modify, thenPost_ok, wp_throw]
      exact ⟨rfl, rfl, herr⟩
    · simp only [hp, Bool.false_eq_true, if_false, wp_throw]
      exact ⟨rfl, rfl, herr⟩
  | halt part => exact absurd ⟨w.tick, by rw [hfault]; rfl⟩ hno

theorem f_write_answers {w : Device} (hno : ¬ w.Interrupted) (f : File) (data : List UInt8)
    (hdata : data.length ≤ sd_page_size) :
    wp (f_write f data) (Answers w fun r =>
      r.2.tell = f.tell + min data.length (w.faults w.tick).count) w := by
  unfold f_write
  simp only [wp_bind, wp_get, thenPost_ok, wp_draw]
  cases hfault : w.faults w.tick with
  | none =>
    refine ⟨rfl, rfl, ?_, by rw [hfault]; rfl⟩
    simp only [File.tell, Fault.count]
    omega
  | short n =>
    refine ⟨rfl, rfl, ?_, by rw [hfault]; rfl⟩
    simp only [File.tell, Fault.count, List.length_take]
    omega
  | fail r part => exact ⟨rfl, rfl, by rw [hfault]; rfl⟩
  | halt part => exact absurd ⟨w.tick, by rw [hfault]; rfl⟩ hno

/-- A round writes the next block and syncs the file. -/
def Advances (len : Nat) (f : File) (w : Device) (x : Exit Error (File ⊕ File)) (w' : Device) :
    Prop :=
  w'.faults = w.faults ∧ match x with
    | .ok r => w'.tick = w.tick + 2 ∧
        (∃ f', r = .inl f' ∧ f'.tell = min len (f.tell + (w.faults w.tick).count)) ∧
        (w.faults w.tick).fails = false ∧ (w.faults (w.tick + 1)).fails = false
    | .err _ => (w.faults w.tick).fails = true ∨ (w.faults (w.tick + 1)).fails = true
    | .trap | .halt => False

/-- **One round moves the position by what the card stores of the next block.** -/
theorem backupRound_advances {len : Nat} {f : File} {w : Device} (hno : ¬ w.Interrupted)
    (hlt : f.tell < len) : wp (backupRound len f) (Advances len f w) w := by
  unfold backupRound
  rw [if_pos hlt]
  generalize hk : (if f.tell + sd_page_size > len then len else f.tell + sd_page_size) - f.tell = k
  have hmin : k = min sd_page_size (len - f.tell) := by
    rw [← hk]
    split <;> omega
  simp only [hk]
  rw [wp_bind, wp_get, thenPost_ok, wp_bind]
  have hlen := bytes_length w f.tell k
  apply wp_mono (f_write_answers hno f (w.bytes f.tell k) (by omega))
  intro x w₁ hx
  obtain ⟨hfaults, htick, hx⟩ := hx
  cases x with
  | ok r =>
    obtain ⟨hr, hpass⟩ := hx
    rw [hlen] at hr
    simp only [thenPost_ok]
    rw [wp_bind]
    apply wp_mono (f_sync_answers (interrupted_of_faults hfaults hno) r.2)
    intro y w₂ hy
    obtain ⟨hfaults₂, htick₂, hy⟩ := hy
    rw [hfaults, htick] at hy
    have hfaults₂ := hfaults₂.trans hfaults
    cases y with
    | ok u =>
      have hcount := (w.faults w.tick).count_le
      show Advances len f w (.ok (.inl r.2)) w₂
      exact ⟨hfaults₂, by rw [htick₂, htick], ⟨r.2, rfl, by omega⟩, hpass, hy.2⟩
    | err e => exact ⟨hfaults₂, .inr hy⟩
    | trap => exact hy.elim
    | halt => exact hy.elim
  | err e => exact ⟨hfaults, .inl hx⟩
  | trap => exact hx.elim
  | halt => exact hx.elim

/-! ## The loop -/

/-- After `n` rounds the position is what the card has stored, up to the end. -/
structure Reached (w₀ : Device) (len n : Nat) (f : File) (w : Device) : Prop where
  tell : f.tell = min len (accepted w₀.faults (w₀.tick + 2) n)
  tick : w.tick = w₀.tick + 2 + 2 * n
  faults : w.faults = w₀.faults

theorem Reached.next {w₀ w w' : Device} {len n : Nat} {f : File} {r : File ⊕ File}
    (h : Reached w₀ len n f w) (hadv : Advances len f w (.ok r) w') :
    ∃ f', r = .inl f' ∧ Reached w₀ len (n + 1) f' w' := by
  obtain ⟨hfaults, htick, ⟨f', rfl, htell⟩, -, -⟩ := hadv
  refine ⟨f', rfl, ?_, ?_, hfaults.trans h.faults⟩
  · rw [h.faults, h.tick] at htell
    have := h.tell
    simp only [accepted]
    omega
  · rw [htick, h.tick]
    omega

/-- On a card that never stores enough the loop goes round for ever. -/
theorem backupLoop_starved {w₀ : Device} {len : Nat} (hno : ¬ w₀.Interrupted)
    (hstarved : Starved w₀ len) (fuel : Nat) (f : File) (w : Device)
    (hi : Reached w₀ len 0 f w) :
    wp (Prog.loop (backupRound len) fuel f) (fun x _ => x = .halt) w := by
  obtain ⟨hpass, hfew⟩ := hstarved
  apply wp_loop_post fun f w => ∃ n, Reached w₀ len n f w
  · intro f w hi
    obtain ⟨n, hi⟩ := hi
    have hlt : f.tell < len := by
      rw [hi.tell]
      have := hfew n
      omega
    apply wp_mono (backupRound_advances (interrupted_of_faults hi.faults hno) hlt)
    intro x w' hadv
    cases x with
    | ok r =>
      obtain ⟨f', rfl, hi'⟩ := hi.next hadv
      exact ⟨n + 1, hi'⟩
    | err e =>
      have hfail := hadv.2
      simp only [hi.faults, hi.tick, Nat.add_assoc, hpass] at hfail
      simp at hfail
    | trap => exact hadv.2.elim
    | halt => rfl
  · intro f w hi
    rfl
  · exact ⟨0, hi⟩

/-- The loop ends within `n` more rounds: a call of theirs fails, or they store enough. -/
def EndsWithin (w₀ : Device) (len k n : Nat) : Prop :=
  len ≤ accepted w₀.faults (w₀.tick + 2) (k + n) ∨
    ∃ t, 2 * k ≤ t ∧ t < 2 * (k + n) ∧ (w₀.faults (w₀.tick + 2 + t)).fails = true

theorem backupLoop_ends {w₀ : Device} {len : Nat} (hno : ¬ w₀.Interrupted) (n k : Nat) (f : File)
    (w : Device) (hi : Reached w₀ len k f w) (hends : EndsWithin w₀ len k n) :
    wp (Prog.loop (backupRound len) (n + 1) f)
      (fun x w' => x ≠ .halt ∧ w'.faults = w₀.faults) w := by
  induction n generalizing k f w with
  | zero =>
    obtain hle | ⟨t, hle, hlt, -⟩ := hends
    · have hle : len ≤ accepted w₀.faults (w₀.tick + 2) k := hle
      have hnot : ¬ f.tell < len := by
        rw [hi.tell]
        omega
      unfold Prog.loop backupRound
      rw [if_neg hnot]
      exact ⟨(fun h => by cases h), hi.faults⟩
    · omega
  | succ n ih =>
    unfold Prog.loop
    by_cases hlt : f.tell < len
    · rw [wp_bind]
      apply wp_mono (backupRound_advances (interrupted_of_faults hi.faults hno) hlt)
      intro x w' hadv
      cases x with
      | ok r =>
        obtain ⟨f', rfl, hi'⟩ := hi.next hadv
        obtain ⟨-, -, -, hpass, hpass'⟩ := hadv
        rw [hi.faults, hi.tick] at hpass hpass'
        apply ih (k + 1) f' w' hi'
        obtain hle | ⟨t, hle, hlt, hfail⟩ := hends
        · exact .inl (by rw [Nat.add_right_comm]; exact hle)
        · refine .inr ⟨t, ?_, by omega, hfail⟩
          -- neither of the two calls of this round has failed
          have h₀ : t ≠ 2 * k := by
            intro heq
            rw [heq, hpass] at hfail
            cases hfail
          have h₁ : t ≠ 2 * k + 1 := by
            intro heq
            rw [heq, ← Nat.add_assoc, hpass'] at hfail
            cases hfail
          omega
      | err e => exact ⟨(fun h => by cases h), hadv.1.trans hi.faults⟩
      | trap => exact hadv.2.elim
      | halt => exact hadv.2.elim
    · unfold backupRound
      rw [if_neg hlt]
      exact ⟨(fun h => by cases h), hi.faults⟩

/-! ## The whole backup -/

/-- Up to the loop: the file is open and synced, and the first two calls have passed. -/
theorem backupFirmware_starts {path : Path} {app_len : Option Nat} {w : Device} {fuel : Nat}
    {Q : Exit Error Nat → Prop} (hno : ¬ w.Interrupted)
    (hlen : app_len.getD firmware_max_size ≤ firmware_max_size)
    (herr : ∀ e, (w.faults w.tick).fails = true ∨ (w.faults (w.tick + 1)).fails = true → Q (.err e))
    (hloop : ∀ f w', Reached w (app_len.getD firmware_max_size) 0 f w' →
      (w.faults w.tick).fails = false → (w.faults (w.tick + 1)).fails = false →
      wp (Prog.loop (backupRound (app_len.getD firmware_max_size)) fuel f)
        (fun x w'' => match x with
          | .ok f' => Q (.ok f'.size) ∧ w''.faults = w.faults
          | .err e => Q (.err e) ∧ w''.faults = w.faults
          | .trap => Q .trap
          | .halt => Q .halt) w') :
    wp (backupFirmware fuel path app_len) (fun x _ => Q x) w := by
  have hclose {w' : Device} {f : File} {x : Exit Error Nat} (hfaults : w'.faults = w.faults)
      (hQ : Q x) : wp (f_close f) (fun y _ => (y = .ok () ∨ ∃ e, y = .err e) ∧ Q x) w' := by
    apply wp_mono (f_sync_answers (interrupted_of_faults hfaults hno) f)
    intro y w'' hy
    cases y with
    | ok u => exact ⟨.inl rfl, hQ⟩
    | err e => exact ⟨.inr ⟨e, rfl⟩, hQ⟩
    | trap => exact hy.2.2.elim
    | halt => exact hy.2.2.elim
  unfold backupFirmware
  apply wp_of_same (Prog.bind_ok _ (appSlice_run _ rfl hlen w))
  rw [wp_bind]
  apply wp_mono (f_open_create_answers hno path)
  intro x w₁ hx
  obtain ⟨hfaults, htick, hx⟩ := hx
  cases x with
  | ok f =>
    obtain ⟨htell, hpass⟩ := hx
    simp only [thenPost_ok]
    apply wp_deferring_returns
    rw [wp_bind]
    apply wp_mono (f_sync_answers (interrupted_of_faults hfaults hno) f)
    intro y w₂ hy
    obtain ⟨hfaults₂, htick₂, hy⟩ := hy
    rw [hfaults, htick] at hy
    have hfaults₂ := hfaults₂.trans hfaults
    cases y with
    | ok u =>
      have hi : Reached w (app_len.getD firmware_max_size) 0 f w₂ := by
        refine ⟨?_, ?_, hfaults₂⟩
        · rw [htell]
          exact (Nat.min_zero _).symm
        · rw [htick₂, htick]
      simp only [thenPost_ok]
      rw [wp_bind]
      apply wp_mono (hloop f w₂ hi hpass hy.2)
      intro z w₃ hz
      cases z with
      | ok f' => exact hclose hz.2 hz.1
      | err e => exact hclose hz.2 hz.1
      | trap => exact hz
      | halt => exact hz
    | err e => exact hclose hfaults₂ (herr e (.inr hy))
    | trap => exact hy.elim
    | halt => exact hy.elim
  | err e => exact herr e (.inl hx)
  | trap => exact hx.elim
  | halt => exact hx.elim

/-- **On a starved card the backup never ends.** -/
theorem backup_starved {path : Path} {app_len : Option Nat} {w : Device} (hno : ¬ w.Interrupted)
    (hlen : app_len.getD firmware_max_size ≤ firmware_max_size)
    (hstarved : Starved w (app_len.getD firmware_max_size)) (fuel : Nat) :
    (backupFirmware fuel path app_len w).1 = .halt := by
  apply backupFirmware_starts (Q := (· = .halt)) hno hlen
  · intro e hfail
    have hfirst := hstarved.1 0
    rw [Nat.add_zero] at hfirst
    rw [hfirst, hstarved.1 1] at hfail
    simp at hfail
  · intro f w' hi _ _
    apply wp_mono (backupLoop_starved hno hstarved fuel f w' hi)
    intro x w'' hx
    rw [hx]

/-- **On every other card it ends.** -/
theorem backup_ends {path : Path} {app_len : Option Nat} {w : Device} (hno : ¬ w.Interrupted)
    (hlen : app_len.getD firmware_max_size ≤ firmware_max_size)
    (hnot : ¬ Starved w (app_len.getD firmware_max_size)) :
    ∃ fuel, (backupFirmware fuel path app_len w).1 ≠ .halt := by
  have hrounds : ∃ n, (w.faults w.tick).fails = false → (w.faults (w.tick + 1)).fails = false →
      EndsWithin w (app_len.getD firmware_max_size) 0 n := by
    unfold Starved at hnot
    simp only [not_and_or, not_forall, Bool.not_eq_false, Nat.not_lt] at hnot
    obtain ⟨t, hfail⟩ | ⟨n, hle⟩ := hnot
    · refine ⟨t, fun hfirst hsecond => ?_⟩
      have h₀ : t ≠ 0 := by
        intro heq
        rw [heq, Nat.add_zero, hfirst] at hfail
        cases hfail
      have h₁ : t ≠ 1 := by
        intro heq
        rw [heq, hsecond] at hfail
        cases hfail
      refine .inr ⟨t - 2, Nat.zero_le _, by omega, ?_⟩
      rw [Nat.add_assoc, Nat.add_sub_cancel' (by omega)]
      exact hfail
    · exact ⟨n, fun _ _ => .inl (by rwa [Nat.zero_add])⟩
  obtain ⟨n, hends⟩ := hrounds
  refine ⟨n + 1, ?_⟩
  apply backupFirmware_starts (Q := (· ≠ .halt)) hno hlen
  · exact fun e _ => nofun
  · intro f w' hi hfirst hsecond
    apply wp_mono (backupLoop_ends hno n 0 f w' hi (hends hfirst hsecond))
    intro x w'' hx
    cases x with
    | ok f' => exact ⟨nofun, hx.2⟩
    | err e => exact ⟨nofun, hx.2⟩
    | trap => exact nofun
    | halt => exact absurd rfl hx.1

/-! ## Exactly when the backup ends, and ends well -/

/-- The backup ends, and whenever it returns a length that is `app_len` and the file is the
    slice. -/
def BackupComplete (path : Path) (app_len : Option Nat) (w : Device) : Prop :=
  (∃ fuel, (backupFirmware fuel path app_len w).1 ≠ .halt) ∧
    ∀ fuel n w', backupFirmware fuel path app_len w = (.ok n, w') →
      n = app_len.getD firmware_max_size ∧ w'.sd path = some (w.bytes 0 n)

/-- **The backup is complete exactly when the card is not starved**: on a device that is not
    reset, for every length up to the size of the region and every sequence of outcomes. -/
theorem backup_complete_iff (path : Path) (app_len : Option Nat) (w : Device)
    (hno : ¬ w.Interrupted) (hlen : app_len.getD firmware_max_size ≤ firmware_max_size) :
    BackupComplete path app_len w ↔ ¬ Starved w (app_len.getD firmware_max_size) := by
  constructor
  · intro h hstarved
    obtain ⟨fuel, hends⟩ := h.1
    exact hends (backup_starved hno hlen hstarved fuel)
  · intro hnot
    refine ⟨backup_ends hno hlen hnot, ?_⟩
    intro fuel n w' hrun
    obtain ⟨-, hn, -, hfile⟩ := wp_of_run (backupFirmware_spec fuel path app_len w) hrun
    exact ⟨hn, hfile⟩

theorem backup_complete_iff_sample :
    BackupComplete .app_backup_file_name (some 600) (.sample (fun _ => .none) none none) ↔
      ¬ Starved (.sample (fun _ => .none) none none) 600 :=
  backup_complete_iff .app_backup_file_name (some 600) (.sample (fun _ => .none) none none)
    (by rintro ⟨t, h⟩; cases h) (by decide)

/-- On a full card the backup of a single byte never ends. -/
theorem backup_full_card :
    ¬ BackupComplete .app_backup_file_name (some 1) (.sample (fun _ => .short 0) none none) := by
  intro h
  obtain ⟨fuel, hends⟩ := h.1
  refine hends (backup_starved ?_ (by decide) ⟨fun _ => rfl, ?_⟩ fuel)
  · rintro ⟨t, h⟩
    cases h
  · intro n
    have hzero : accepted (fun _ => .short 0) 2 n = 0 := by
      induction n with
      | zero => rfl
      | succ n ih =>
        unfold accepted
        rw [ih]
        rfl
    show accepted (fun _ => .short 0) 2 n < 1
    omega

end Miso.Boot
