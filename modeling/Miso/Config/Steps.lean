import Miso.Boot.Preservation
import Miso.Config.Writes

/-!
# What a step does to the NVM and to the buffers

* `taskStep_apart` — the bootloader behind its start writes two counters and no buffer;
* `load_config_loads`, `checkConfigFile_spec` — the two functions that write buffers;
* `bootStep_nvm`, `bootStep_config` — what a step of `boots` does to the NVM and to the buffers.
-/

namespace Miso.Config

open Zig Boot

variable (X : Externs (List UInt8)) (L : Libs) (fuel : Nat)

/-! ## The bootloader -/

/-- The counters that are incremented or written behind `nvm.init`. -/
def IsCounter (k : app_nvm_keys) : Prop := k ∈ counterKeys ∨ k = .firmware_size

/-- No more than counters has been written. -/
def Counting (n n' : Nvm) : Prop :=
  ∀ k, n' k = n k ∨ IsCounter k ∧ ∃ value, n' k = some (.counter value)

theorem Counting.refl (n : Nvm) : Counting n n := fun _ => .inl rfl

theorem Counting.trans {n₁ n₂ n₃ : Nvm} (h₁ : Counting n₁ n₂) (h₂ : Counting n₂ n₃) :
    Counting n₁ n₃ := by
  intro k
  obtain hk | hk := h₂ k
  · rw [hk]
    exact h₁ k
  · exact .inr hk

theorem Counting.set {w : Device} {k : app_nvm_keys} (hk : IsCounter k) (value : Nat) :
    Counting w.nvm (w.setNvm k (.counter value)).nvm := by
  intro j
  by_cases hj : j = k
  · subst hj
    exact .inr ⟨hk, value, setNvm_self w j _⟩
  · exact .inl (if_neg hj)

/-- A counter is neither a setting nor the hash. -/
theorem Counting.setting {n n' : Nvm} (h : Counting n n') {k : app_nvm_keys}
    (hk : k ∈ configKeys ∨ k = .config_sha256) : n' k = n k := by
  obtain hsame | ⟨hcounter, -⟩ := h k
  · exact hsame
  · apply absurd hcounter
    revert hk
    unfold IsCounter
    cases k <;> decide

/-- The buffers are as before, and no more than counters has been written. -/
structure Apart (w w' : Device) : Prop where
  config : w'.config = w.config
  nvm : Counting w.nvm w'.nvm

theorem apart_frame : Frame Apart where
  refl w := ⟨rfl, .refl w.nvm⟩
  trans h h' := ⟨h'.config.trans h.config, h.nvm.trans h'.nvm⟩

theorem Quiet.apart {w w' : Device} (h : Quiet w w') : Apart w w' := by
  obtain ⟨t, rfl⟩ := h
  exact ⟨rfl, .refl _⟩

theorem Checking.apart {w w' : Device} (h : Checking w w') : Apart w w' := by
  obtain ⟨t, k, l, rfl, -⟩ := h
  exact ⟨rfl, .refl _⟩

theorem Saving.apart {path : Path} {w w' : Device} (h : Saving path w w') : Apart w w' := by
  obtain ⟨t, d, rfl, -⟩ := h
  exact ⟨rfl, .refl _⟩

theorem Flashing.apart {w w' : Device} (h : Flashing w w') : Apart w w' := by
  obtain ⟨t, f, l, rfl, -⟩ := h
  exact ⟨rfl, .refl _⟩

theorem Apart.set {w w' : Device} {k : app_nvm_keys} {value : Nat} (hk : IsCounter k)
    (h : Quiet (w.setNvm k (.counter value)) w') : Apart w w' := by
  obtain ⟨t, rfl⟩ := h
  exact ⟨rfl, .set hk value⟩

theorem phaseStep_apart (st : update_state) :
    Keeps Apart (phaseStep (.device X fuel) st) := by
  obtain ⟨phase, app_len, backup_len⟩ := st
  intro w
  cases phase with
  | check => exact Checking.apart (check_round X fuel app_len backup_len w).state
  | backup => exact Saving.apart (backup_round X fuel app_len backup_len w).state
  | erase_flash =>
    exact Flashing.apart (erase_round X fuel (.inl ⟨rfl, rfl⟩) app_len backup_len w).state
  | flash => exact Flashing.apart (flash_round X fuel app_len backup_len w).state.1
  | verify_flash =>
    obtain h | h := (verify_flash_round X fuel app_len backup_len w).state
    · exact Quiet.apart h
    · exact Apart.set (.inr rfl) h
  | erase_flash_before_restore =>
    exact Flashing.apart (erase_round X fuel (.inr ⟨rfl, rfl⟩) app_len backup_len w).state
  | restore_backup => exact Flashing.apart (restore_round X fuel app_len backup_len w).state.1
  | verify_backup => exact Quiet.apart (verify_backup_round X fuel app_len backup_len w).state
  | complete => exact apart_frame.refl w
  | backup_restored => exact apart_frame.refl w

theorem finishAttempt_apart : Keeps Apart finishAttempt := by
  intro w
  obtain h | h := (finishAttempt_spec w).state
  · exact Quiet.apart h
  · exact Apart.set (.inl (by decide)) h

/-- Behind its start the bootloader writes two counters and no buffer. -/
theorem taskStep_apart {pc : Boot.Pc} (h : pc ≠ .start) : Keeps Apart (taskStep X fuel pc) := by
  have hunmount : Keeps Apart unmount.orIgnore := fun w => Quiet.apart (unmount_spec w).state
  cases pc with
  | start => exact absurd rfl h
  | head => exact fun w => Quiet.apart (head_step X fuel w).state
  | update st =>
    apply (phaseStep_apart X fuel st).attempt.bind apart_frame
    intro r
    cases r with
    | ok r =>
      cases r with
      | inl st' => exact .pure apart_frame _
      | inr o => exact finishAttempt_apart
    | error err =>
      apply Keeps.ite
      · exact finishAttempt_apart
      · exact .ite _ finishAttempt_apart (.pure apart_frame _)
  | restore st =>
    apply (phaseStep_apart X fuel st).attempt.bind apart_frame
    intro r
    cases r with
    | ok r =>
      cases r with
      | inl st' => exact .pure apart_frame _
      | inr o => exact finishAttempt_apart
    | error err => exact hunmount.bind apart_frame fun _ => .pure apart_frame _
  | jump => exact .pure apart_frame _

theorem incrementCounter_apart {key : app_nvm_keys} (h : key ∈ counterKeys) :
    Keeps Apart (incrementCounter key) := by
  intro w
  have hrun : wp (incrementCounter key) (fun _ w' => Apart w w') w := by
    unfold incrementCounter
    rw [wp_bind, wp_get, thenPost_ok]
    split
    · apply wp_mono (nvmWrite_spec key _ w)
      intro x w' hx
      obtain hq | hq := hx.state
      · exact Quiet.apart hq
      · exact Apart.set (.inl h) hq
    · exact apart_frame.refl w
  exact hrun

theorem incrementCounter_sd (key : app_nvm_keys) :
    Keeps (fun w w' : Device => w'.sd = w.sd) (incrementCounter key) := by
  intro w
  have hrun : wp (incrementCounter key) (fun _ w' => w'.sd = w.sd) w := by
    unfold incrementCounter
    rw [wp_bind, wp_get, thenPost_ok]
    split
    · apply wp_mono (nvmWrite_spec key _ w)
      intro x w' hx
      obtain ⟨t, rfl⟩ | ⟨t, rfl⟩ := hx.state
      · rfl
      · rfl
    · rfl
  exact hrun

/-! ## Loading the settings -/

/-- Some buffers have been read from the NVM; a longer string is written behind the end. -/
def Loaded (n : Nvm) (g g' : Buffers) : Prop :=
  ∀ k, g' k = g k ∨ k ∈ configKeys ∧ ∃ bytes, n k = some (.data bytes) ∧
    g' k = bytes ++ (g k).drop bytes.length

theorem Loaded.refl (n : Nvm) (g : Buffers) : Loaded n g g := fun _ => .inl rfl

theorem Loaded.trans {n : Nvm} {g₁ g₂ g₃ : Buffers} (h₁ : Loaded n g₁ g₂) (h₂ : Loaded n g₂ g₃) :
    Loaded n g₁ g₃ := by
  intro k
  obtain h | ⟨hk, bytes, hn, h⟩ := h₂ k
  · rw [h]
    exact h₁ k
  · refine .inr ⟨hk, bytes, hn, ?_⟩
    obtain h' | ⟨-, bytes', hn', h'⟩ := h₁ k
    · rw [h, h']
    · have heq : bytes' = bytes := by
        rw [hn] at hn'
        cases hn'
        rfl
      subst heq
      rw [h, h', List.drop_left]

/-- Only buffers have been written, from the NVM. -/
structure Loading (w w' : Device) : Prop where
  rest : ∃ t g, w' = { w with tick := t, config := g }
  config : Loaded w.nvm w.config w'.config

theorem loading_frame : Frame Loading where
  refl w := ⟨⟨w.tick, w.config, rfl⟩, .refl _ _⟩
  trans := by
    intro w₁ w₂ w₃ h₁ h₂
    obtain ⟨t, g, rfl⟩ := h₁.rest
    obtain ⟨t', g', rfl⟩ := h₂.rest
    exact ⟨⟨t', g', rfl⟩, h₁.config.trans h₂.config⟩

theorem Quiet.loading {w w' : Device} (h : Quiet w w') : Loading w w' := by
  obtain ⟨t, rfl⟩ := h
  exact ⟨⟨t, w.config, rfl⟩, .refl _ _⟩

theorem readCString_loads {key : app_nvm_keys} (h : key ∈ configKeys) :
    Keeps Loading (readCString key) := by
  have hchecked : Keeps Loading (checked fun _ => .generic_error) :=
    fun w => Quiet.loading (checked_spec (fun _ => rfl) w).state
  apply hchecked.bind loading_frame
  intro _ w
  show wp (Prog.get >>= _) (fun (_ : Exit Boot.Error Unit) w' => Loading w w') w
  rw [wp_bind, wp_get, thenPost_ok]
  split
  · exact loading_frame.refl w
  · exact loading_frame.refl w
  · rename_i bytes hn
    rw [wp_bind]
    apply wp_mono (checked_spec (fun _ => rfl) w)
    intro x w₁ hx
    have hq := hx.state
    cases x with
    | ok u =>
      obtain ⟨t, rfl⟩ := hq
      refine ⟨⟨t, _, rfl⟩, ?_⟩
      intro k
      by_cases hk : k = key
      · subst hk
        exact .inr ⟨h, bytes, hn, if_pos rfl⟩
      · exact .inl (if_neg hk)
    | err e => exact Quiet.loading hq
    | trap => exact Quiet.loading hq
    | halt => exact Quiet.loading hq

/-- **`load_config_from_nvm`** reads strings into the buffers of their keys. -/
theorem load_config_loads : Keeps Loading load_config_from_nvm := by
  have hkeys (keys : List app_nvm_keys) (h : ∀ k ∈ keys, k ∈ configKeys) :
      Keeps Loading (keys.foldr (fun key rest => do (readCString key).orIgnore; rest)
        (pure () : BootM Unit)) := by
    induction keys with
    | nil => exact .pure loading_frame ()
    | cons key keys ih =>
      apply ((readCString_loads (h key List.mem_cons_self)).orIgnore loading_frame).bind
        loading_frame
      exact fun _ => ih fun k hk => h k (List.mem_cons_of_mem key hk)
  exact hkeys configKeys fun _ h => h

/-! ## The configuration file -/

/-- Only buffers have been written, from the file. -/
structure Parsing (w w' : Device) : Prop where
  rest : ∃ t g, w' = { w with tick := t, config := g }
  config : w'.config = w.config ∨ ∃ text, w.sd .config_file_name = some text ∧
    w'.config = applyAll text w.config (L.copies text)

variable {L}

theorem Quiet.parsing {w w' : Device} (h : Quiet w w') : Parsing L w w' := by
  obtain ⟨t, rfl⟩ := h
  exact ⟨⟨t, w.config, rfl⟩, .inl rfl⟩

theorem Parsing.after_quiet {w w₁ w₂ : Device} (hq : Quiet w w₁) (h : Parsing L w₁ w₂) :
    Parsing L w w₂ := by
  obtain ⟨t, rfl⟩ := hq
  obtain ⟨t', g, rfl⟩ := h.rest
  exact ⟨⟨t', g, rfl⟩, h.config⟩

theorem Parsing.quiet {w w₁ w₂ : Device} (h : Parsing L w w₁) (hq : Quiet w₁ w₂) :
    Parsing L w w₂ := by
  obtain ⟨t, rfl⟩ := hq
  obtain ⟨t', g, rfl⟩ := h.rest
  exact ⟨⟨t, g, rfl⟩, h.config⟩

theorem alloc_schedule (n : Nat) (w : Device) :
    Schedule (alloc n) (if n = 0 then [] else [true]) (.ok ()) w := by
  unfold alloc
  by_cases h : n = 0
  · rw [if_pos h, if_pos h]
    exact Schedule.pure () w
  · rw [if_neg h, if_neg h]
    exact Schedule.checked (fun _ => rfl) w

theorem alloc_spec (n : Nat) (w : Device) : wp (alloc n) (Reading w fun _ => True) w :=
  (alloc_schedule n w).reading_mono trivial

/-- Reading a fresh handle to its end. -/
theorem f_read_whole {f : File} {c : List UInt8} {w : Device} (h : f.Reads w c) (h0 : f.fptr = 0)
    {len : Nat} (hlen : c.length ≤ len) : wp (f_read f len) (Reading w fun r => r.1 = c) w := by
  apply (Schedule.f_read h len).reading_mono
  rw [h0, List.drop_zero]
  exact List.take_of_length_le hlen

/-- **`miso_load_config`** makes the copies of the file, or none. -/
theorem miso_load_config_spec (w : Device) :
    wp (miso_load_config L) (Ends (Parsing L w) (fun _ _ => True) (fun _ _ => False) True) w := by
  have hclose (f : File) {w₁ : Device} (h : Parsing L w w₁) : wp (f_close f).orIgnore
      (Ends (Parsing L w) (fun _ _ => True) (fun _ _ => False) True) w₁ :=
    wp_ends_mono (wp_orIgnore_ends (checked_spec FRESULT.check_external w₁) fun _ _ _ _ => trivial)
      (fun _ hq => h.quiet hq) (fun _ _ _ _ => trivial) (fun _ _ _ h => h) False.elim
  unfold miso_load_config
  have hopen : wp (f_open .config_file_name fMode.read) (Ends (Parsing L w)
      (fun f w' => Quiet w w' ∧ f.path = .config_file_name ∧ f.fptr = 0 ∧ ∃ c, f.Reads w c)
      (fun _ _ => True) True) w :=
    wp_ends_mono (f_open_read_spec .config_file_name w) (fun _ hq => Quiet.parsing hq)
      (fun _ _ hq h => ⟨hq, h⟩) (fun _ _ _ _ => trivial) False.elim
  apply wp_bind_attempt hopen
  · rintro file w₁ - ⟨hq, hpath, h0, text, hreads⟩
    apply wp_orIgnore_ends (E := fun _ _ => True) (wp_closing ?_ ?_ ?_ ?_) (fun _ _ _ _ => trivial)
    · apply wp_bind_ends (K := fun _ w₂ => Quiet w w₂)
      · exact wp_ends_mono (alloc_spec file.size w₁)
          (fun _ h => Quiet.parsing (quiet_frame.trans hq h))
          (fun _ _ h _ => quiet_frame.trans hq h) (fun _ _ _ _ => trivial) False.elim
      intro _ w₂ _ hq₂
      have hreads₂ : file.Reads w₂ text := by
        obtain ⟨t, rfl⟩ := hq
        obtain ⟨t', rfl⟩ := hq₂
        exact ⟨hreads.content, hreads.size, hreads.fptr_le⟩
      apply wp_bind_ends (K := fun r w₃ => r.1 = text ∧ Quiet w w₃)
      · exact wp_ends_mono (f_read_whole hreads₂ h0 (Nat.le_of_eq hreads.size.symm))
          (fun _ h => Quiet.parsing (quiet_frame.trans hq₂ h))
          (fun _ _ h hr => ⟨hr, quiet_frame.trans hq₂ h⟩) (fun _ _ _ _ => trivial) False.elim
      rintro ⟨_, f'⟩ w₃ - ⟨rfl, hq₃⟩
      apply wp_bind_ends (K := fun _ w₄ => Quiet w w₄)
      · exact wp_ends_mono (wp_orUnreachable_ends (alloc_spec _ w₃))
          (fun _ h => Quiet.parsing (quiet_frame.trans hq₃ h))
          (fun _ _ h _ => quiet_frame.trans hq₃ h) (fun _ _ _ _ => trivial) id
      rintro _ w₄ - ⟨t, rfl⟩
      refine ⟨⟨⟨t, _, rfl⟩, .inr ⟨_, ?_, rfl⟩⟩, trivial⟩
      obtain ⟨t', rfl⟩ := hq
      exact hpath ▸ hreads.content
    · exact fun _ _ hq h => h.quiet hq
    · exact fun _ _ _ _ h => h
    · exact fun _ _ _ _ h => h
  · intro e w₁ hw₁ _
    exact hclose _ hw₁

/-- A call of the device; its errors say nothing more. -/
theorem wp_call {α : Type} {m : BootM α} {P : Device → Prop} {K : α → Device → Prop}
    {E : Boot.Error → Device → Prop} {T : Prop} {w : Device} (h : wp m (Ends P K E T) w) :
    wp (call m) (Ends P K (fun _ _ => True) T) w := by
  unfold call
  rw [wp_mapErr]
  apply wp_mono h
  intro x w' hx
  cases x with
  | ok a => exact hx
  | err e => exact ⟨hx.1, trivial⟩
  | trap => exact hx
  | halt => exact hx

/-- A reading call behind others that have only read. -/
theorem wp_call_reading {α : Type} {m : BootM α} {k : α → Prop} {w w₁ : Device} (hq : Quiet w w₁)
    (h : wp m (Reading w₁ k) w₁) :
    wp (call m) (Ends (Parsing L w) (fun a w' => Quiet w w' ∧ k a) (fun _ _ => True) True) w₁ :=
  wp_ends_mono (wp_call h) (fun _ h => Quiet.parsing (quiet_frame.trans hq h))
    (fun _ _ h hk => ⟨quiet_frame.trans hq h, hk⟩) (fun _ _ _ h => h) False.elim

theorem readData_spec (key : app_nvm_keys) (len : Nat) (w : Device) :
    wp (readData key len)
      (Reading w fun bytes => w.nvm key = some (.data bytes) ∧ bytes.length ≤ len) w := by
  unfold readData
  apply wp_bind_reading (quiet_frame.refl w) (checked_spec (fun _ => rfl) w)
  rintro _ w₁ ⟨t, rfl⟩ -
  rw [wp_bind, wp_get, thenPost_ok]
  have hq : Quiet w { w with tick := t } := ⟨t, rfl⟩
  split
  · exact ⟨hq, rfl⟩
  · rw [wp_ite]
    split
    · exact ⟨hq, rfl⟩
    · exact ⟨hq, rfl⟩
  · rename_i bytes hn
    rw [wp_ite]
    split
    · exact ⟨hq, rfl⟩
    · rename_i hlen
      apply wp_bind_reading hq (checked_spec (fun _ => rfl) _)
      exact fun _ w₂ hq₂ _ => ⟨hq₂, hn, Nat.not_lt.mp hlen⟩

/-- What `open_config_file` compares the hash of the file with. -/
def IsReference (n : Nvm) (ref : List UInt8) : Prop :=
  ref = padHash [] ∨
    ∃ bytes, n .config_sha256 = some (.data bytes) ∧ bytes.length ≤ hash_size ∧ ref = padHash bytes

/-- The hash of the file on the card. -/
def HashOf (w : Device) (hash : List UInt8) : Prop :=
  ∃ text, w.sd .config_file_name = some text ∧ hash = X.sha256 text

theorem load_public_key_spec {w w₁ : Device} (hq : Quiet w w₁) (path : Path) :
    wp (load_public_key_from_file L path) (Ends (Parsing L w) (fun _ w' => Quiet w w')
      (fun _ w' => Quiet w w') True) w₁ := by
  have hkeep : Keeps Quiet (load_public_key_from_file L path) := by
    have hcall {α : Type} {m : BootM α} {k : Device → α → Prop}
        (h : ∀ w, wp m (Reading w (k w)) w) : Keeps Quiet (call m) :=
      fun w => (wp_call (h w)).state
    have hchecked (e : FRESULT → Boot.Error) (he : ∀ r, (e r).external = true) :
        Keeps Quiet (call (checked e)) := hcall (checked_spec he)
    apply (hcall (f_open_read_spec path)).bind quiet_frame
    intro f
    apply Keeps.deferring quiet_frame (hchecked _ FRESULT.check_external)
    apply (hcall (alloc_spec _)).bind quiet_frame
    intro _
    have hread : Keeps Quiet (call (f_read f (f.size + 1))) := by
      intro w
      have hrun : wp (f_read f (f.size + 1)) (fun _ w' => Quiet w w') w := by
        unfold f_read
        rw [wp_bind]
        apply wp_mono (checked_spec FRESULT.check_external w)
        intro x w' hx
        have hq := hx.state
        cases x with
        | ok u =>
          rw [thenPost_ok, wp_bind, wp_get, thenPost_ok]
          simp only []
          split
          · exact hq
          · exact hq
        | err e => exact hq
        | trap => exact hq
        | halt => exact hq
      show Quiet w (Prog.mapErr _ _ w).2
      unfold Prog.mapErr
      revert hrun
      unfold wp
      rcases f_read f (f.size + 1) w with ⟨x, w'⟩
      intro hrun
      cases x <;> exact hrun
    apply hread.bind quiet_frame
    rintro ⟨content, f'⟩
    apply Keeps.ite
    · exact .pure quiet_frame _
    · exact .throw quiet_frame _
  have hw := quiet_frame.trans hq (hkeep w₁)
  unfold wp
  cases (load_public_key_from_file L path w₁).1 with
  | ok a => exact ⟨Quiet.parsing hw, hw⟩
  | err e => exact ⟨Quiet.parsing hw, hw⟩
  | trap => exact ⟨Quiet.parsing hw, trivial⟩
  | halt => exact Quiet.parsing hw

/-- **`checkConfigFile`**: a file whose hash is the reference changes nothing; another one is copied from
    and its hash returned. -/
theorem checkConfigFile_spec (w : Device) :
    wp (checkConfigFile X L) (Ends (Parsing L w)
      (fun r w' => match r with
        | some hash => HashOf X w hash
        | none => Quiet w w' ∧ ∃ hash, HashOf X w hash ∧ IsReference w.nvm hash)
      (fun _ _ => True) True) w := by
  unfold checkConfigFile
  apply wp_bind_ends (K := fun ref w' => Quiet w w' ∧ IsReference w.nvm ref)
  · rw [wp_tryCatch, wp_bind]
    apply wp_mono (wp_call (readData_spec .config_sha256 hash_size w))
    intro x w₁ hx
    cases x with
    | ok bytes => exact ⟨Quiet.parsing hx.1, hx.1, .inr ⟨bytes, hx.2.1, hx.2.2, rfl⟩⟩
    | err e => exact ⟨Quiet.parsing hx.1, hx.1, .inl rfl⟩
    | trap => exact ⟨Quiet.parsing hx.1, trivial⟩
    | halt => exact Quiet.parsing hx
  rintro ref w₁ - ⟨hq₁, href⟩
  apply wp_bind_ends (K := fun hash w' => Quiet w w' ∧ HashOf X w hash)
  · apply wp_ends_mono (wp_call_reading hq₁ (calculateFileHash_spec X .config_file_name w₁))
    · exact fun _ h => h
    · rintro hash w₂ - ⟨hq₂, text, htext, rfl⟩
      obtain ⟨t, rfl⟩ := hq₁
      exact ⟨hq₂, text, htext, rfl⟩
    · exact fun _ _ _ h => h
    · exact id
  rintro hash w₂ - ⟨hq₂, hhash⟩
  by_cases heq : ref = hash
  · rw [if_neg (not_not_intro heq)]
    exact ⟨Quiet.parsing hq₂, hq₂, hash, hhash, heq ▸ href⟩
  · rw [if_pos heq]
    apply wp_bind_ends (wp_call_reading hq₂ (f_open_read_spec .config_sig_file_name w₂))
    rintro sig_file w₃ - ⟨hq₃, -, h0, sig, hsig⟩
    have hclose {w' : Device} (h : Parsing L w w') : wp (call (f_close sig_file)).orIgnore
        (Ends (Parsing L w) (fun _ _ => True) (fun _ _ => True) True) w' :=
      wp_ends_mono (wp_orIgnore_ends (wp_call (checked_spec FRESULT.check_external w'))
        fun _ _ _ _ => trivial) (fun _ hq => h.quiet hq) (fun _ _ _ _ => trivial)
        (fun _ _ _ _ => trivial) False.elim
    have hload (pk_ctx : Option (List UInt8)) {w' : Device} (hq : Quiet w w') :
        wp (do pk_verify L pk_ctx hash sig; call (miso_load_config L); pure (some hash))
          (Ends (Parsing L w) (fun r w' => match r with
            | some hash => HashOf X w hash
            | none => Quiet w w' ∧ ∃ hash, HashOf X w hash ∧ IsReference w.nvm hash)
            (fun _ _ => True) True) w' := by
      apply wp_bind_ends (K := fun _ w'' => w'' = w')
      · unfold pk_verify
        split
        · rw [wp_ite]
          split
          · exact ⟨Quiet.parsing hq, rfl⟩
          · exact ⟨Quiet.parsing hq, trivial⟩
        · exact ⟨Quiet.parsing hq, trivial⟩
      · rintro _ _ - rfl
        apply wp_bind_ends (K := fun _ _ => True)
        · exact wp_ends_mono (wp_call (miso_load_config_spec _))
            (fun _ h => Parsing.after_quiet hq h) (fun _ _ _ h => h) (fun _ _ _ h => h) id
        · exact fun _ _ hw' _ => ⟨hw', hhash⟩
    apply wp_errdeferring
    · apply wp_bind_ends (wp_call_reading hq₃ (alloc_spec sig_file.size w₃))
      rintro _ w₄ - ⟨hq₄, -⟩
      have hsig₄ : sig_file.Reads w₄ sig := by
        obtain ⟨t, rfl⟩ := hq₂
        obtain ⟨t', rfl⟩ := hq₄
        exact ⟨hsig.content, hsig.size, hsig.fptr_le⟩
      apply wp_bind_ends (wp_call_reading hq₄ (f_read_whole hsig₄ h0 (Nat.le_of_eq hsig.size.symm)))
      rintro ⟨_, f'⟩ w₅ - ⟨hq₅, rfl⟩
      apply wp_bind_ends (wp_call_reading hq₅ (checked_spec FRESULT.check_external w₅))
      rintro _ w₆ - ⟨hq₆, -⟩
      apply wp_bind_attempt (load_public_key_spec hq₆ .config_pub_key_file_name)
      · exact fun key _ _ hq₇ => hload (some key) hq₇
      · exact fun _ _ _ hq₇ => hload none hq₇
    · exact fun _ h => hclose h

/-! ## Steps -/

/-- Objects of `nvm.init`, in an NVM that has been erased. -/
def BaseOnly (n : Nvm) : Prop := ∀ k, n k = none ∨ (baseObjects k).isSome ∧ n k = baseObjects k

/-- What `nvm.init` leaves behind in every case. -/
structure Initialising (w w' : Device) : Prop where
  config : w'.config = w.config
  nvm : w'.nvm = w.nvm ∨ countObjects w.nvm < 9 ∧ BaseOnly w'.nvm

theorem orIgnore_state {m : BootM Unit} (w : Device) : (m.orIgnore w).2 = (m w).2 := by
  unfold Prog.orIgnore Prog.tryCatch
  rcases m w with ⟨x, w'⟩
  cases x <;> rfl

theorem nvm_init_keeps : Keeps Initialising nvm_init := by
  intro w
  obtain hfull | hless := Nat.lt_or_ge 8 (countObjects w.nvm)
  · rw [nvm_init_full hfull]
    exact ⟨rfl, .inl rfl⟩
  · have hlt : countObjects w.nvm < 9 := by omega
    obtain ⟨t, hq⟩ | h := (nvm_init_spec hlt).state
    · rw [hq]
      exact ⟨rfl, .inl rfl⟩
    · exact ⟨h.config, .inr ⟨hlt, h.nvm⟩⟩

variable (L) in
/-- What a step does to the NVM. -/
inductive NvmStep : Pc → Device → Nvm → Prop where
  | counting {pc : Pc} {w : Device} {n : Nvm} : (∀ hash, pc ≠ .storeConfig hash) →
    Counting w.nvm n → NvmStep pc w n
  | init {pc : Pc} {w : Device} {n : Nvm} : (∀ hash, pc ≠ .storeConfig hash) →
    countObjects w.nvm < 9 → BaseOnly n → NvmStep pc w n
  | store {hash : List UInt8} {w w' : Device} : Storing L hash w w' →
    NvmStep (.storeConfig hash) w w'.nvm

variable (L) in
/-- What a step does to the buffers. -/
inductive ConfigStep : Pc → Device → Device → Prop where
  | kept {pc : Pc} {w w' : Device} : w'.config = w.config → ConfigStep pc w w'
  | cleared {pc : Pc} {w w' : Device} : w'.config = zeroed → ConfigStep pc w w'
  | loaded {pc : Pc} {w w' : Device} : Loaded w'.nvm w.config w'.config → ConfigStep pc w w'
  | parsed {w w' : Device} (text : List UInt8) : w.sd .config_file_name = some text →
    w'.config = applyAll text w.config (L.copies text) → ConfigStep .openConfig w w'

theorem keeps_call {α : Type} {R : Device → Device → Prop} {m : BootM α} (h : Keeps R m) :
    Keeps R (call m) := by
  intro w
  have hw := h w
  show R w (Prog.mapErr _ m w).2
  unfold Prog.mapErr
  rcases hrun : m w with ⟨x, w'⟩
  rw [hrun] at hw
  cases x <;> exact hw

/-- The position that follows does not matter to the state. -/
theorem bind_pure_state {α β : Type} (m : ConfigM α) (f : α → β) (w : Device) :
    ((m >>= fun a => pure (f a) : ConfigM β) w).2 = (m w).2 := by
  show (Prog.seq m (fun a => Prog.ret (f a)) w).2 = _
  unfold Prog.seq
  rcases m w with ⟨x, w'⟩
  cases x <;> rfl

theorem attempt_state {α : Type} (m : ConfigM α) (w : Device) : (m.attempt w).2 = (m w).2 := by
  unfold Prog.attempt
  rcases m w with ⟨x, w'⟩
  cases x <;> rfl

theorem bootStep_openConfig_eq :
    bootStep X L fuel .openConfig = ((checkConfigFile X L).attempt >>= fun r =>
      pure (match r with
        | .ok (some hash) => Pc.storeConfig hash
        | .ok none => .started .unchanged
        | .error _ => .started .failed) : ConfigM Pc) := by
  apply congrArg fun f => (checkConfigFile X L).attempt >>= f
  funext r
  obtain err | hash | hash := r
  · rfl
  · rfl
  · rfl

theorem bootStep_storeConfig_eq (hash : List UInt8) :
    bootStep X L fuel (.storeConfig hash) = ((call (storeConfig L hash)).attempt >>= fun r =>
      pure (match r with
        | .ok () => Pc.started .stored
        | .error _ => .started .failed) : ConfigM Pc) := by
  apply congrArg fun f => (call (storeConfig L hash)).attempt >>= f
  funext r
  cases r <;> rfl

theorem bootStep_openConfig (w : Device) :
    (bootStep X L fuel .openConfig w).2 = (checkConfigFile X L w).2 := by
  rw [bootStep_openConfig_eq, bind_pure_state, attempt_state]

theorem bootStep_storeConfig (hash : List UInt8) (w : Device) :
    (bootStep X L fuel (.storeConfig hash) w).2 = (storeConfig L hash w).2 := by
  rw [bootStep_storeConfig_eq, bind_pure_state, attempt_state]
  exact keeps_call (R := fun w w' => w' = (storeConfig L hash w).2) (fun _ => rfl) w

/-- The bootloader's start. -/
theorem start_state (w : Device) :
    ∃ w₁, Initialising w w₁ ∧ Loading w₁ (taskStep X fuel .start w).2 := by
  have hinit := nvm_init_keeps w
  rw [← orIgnore_state] at hinit
  have hload := (load_config_loads.orIgnore loading_frame).bind loading_frame
    fun _ => Keeps.pure loading_frame (Boot.Pc.head : Boot.Pc)
  show ∃ w₁, _ ∧ Loading w₁ (Prog.seq nvm_init.orIgnore _ w).2
  unfold Prog.seq
  rcases hrun : nvm_init.orIgnore w with ⟨x, w₁⟩
  rw [hrun] at hinit
  refine ⟨w₁, hinit, ?_⟩
  cases x with
  | ok u => exact hload w₁
  | err e => exact loading_frame.refl w₁
  | trap => exact loading_frame.refl w₁
  | halt => exact loading_frame.refl w₁

theorem Loading.nvm {w w' : Device} (h : Loading w w') : w'.nvm = w.nvm := by
  obtain ⟨t, g, rfl⟩ := h.rest
  rfl

theorem Parsing.nvm {w w' : Device} (h : Parsing L w w') : w'.nvm = w.nvm := by
  obtain ⟨t, g, rfl⟩ := h.rest
  rfl

theorem mount_apart : Keeps Apart Boot.mount :=
  fun w => Quiet.apart (checked_spec FRESULT.check_external w).state

theorem count_start : Keeps Apart (call (incrementCounter .start_counter).orIgnore) :=
  keeps_call ((incrementCounter_apart (by decide)).orIgnore apart_frame)

theorem bootStep_main : Keeps Apart (bootStep X L fuel .main) := by
  intro w
  rw [show bootStep X L fuel .main = (call (incrementCounter .start_counter).orIgnore >>=
    fun _ => pure .init : ConfigM Pc) from rfl, bind_pure_state]
  exact count_start w

theorem bootStep_init : Keeps Initialising (bootStep X L fuel .init) := by
  intro w
  rw [show bootStep X L fuel .init = (call nvm_init.orIgnore >>=
    fun _ => pure .mount : ConfigM Pc) from rfl, bind_pure_state]
  apply keeps_call (R := Initialising)
  intro w
  rw [orIgnore_state]
  exact nvm_init_keeps w

theorem bootStep_mount : Keeps Apart (bootStep X L fuel .mount) := by
  intro w
  rw [show bootStep X L fuel .mount = (call Boot.mount.orUnreachable >>=
    fun _ => pure .loadConfig : ConfigM Pc) from rfl, bind_pure_state]
  exact keeps_call (mount_apart.orUnreachable apart_frame) w

theorem bootStep_loadConfig : Keeps Loading (bootStep X L fuel .loadConfig) := by
  intro w
  rw [show bootStep X L fuel .loadConfig = (call load_config_from_nvm.orIgnore >>=
    fun _ => pure .openConfig : ConfigM Pc) from rfl, bind_pure_state]
  exact keeps_call (load_config_loads.orIgnore loading_frame) w

/-- **What a step does to the NVM and to the buffers.** -/
theorem bootStep_effect (pc : Pc) (w : Device) :
    NvmStep L pc w (bootStep X L fuel pc w).2.nvm ∧
      ConfigStep L pc w (bootStep X L fuel pc w).2 := by
  have hapart (pc : Pc) {w' : Device} (hpc : ∀ hash, pc ≠ .storeConfig hash) (h : Apart w w') :
      NvmStep L pc w w'.nvm ∧ ConfigStep L pc w w' := ⟨.counting hpc h.nvm, .kept h.config⟩
  have hinit {pc : Pc} {w₁ : Device} (hpc : ∀ hash, pc ≠ .storeConfig hash)
      (h : Initialising w w₁) : NvmStep L pc w w₁.nvm := by
    obtain hsame | ⟨hlt, hbase⟩ := h.nvm
    · rw [hsame]
      exact .counting hpc (.refl _)
    · exact .init hpc hlt hbase
  cases pc with
  | bootMain =>
    apply hapart .bootMain nofun
    rw [show bootStep X L fuel .bootMain = (call (incrementCounter .start_counter).orIgnore >>=
      fun _ => pure (.boot .start) : ConfigM Pc) from rfl, bind_pure_state]
    exact count_start w
  | main => exact hapart .main nofun (bootStep_main X fuel w)
  | boot pc =>
    by_cases hjump : pc = .jump
    · subst hjump
      exact ⟨.counting nofun (.refl _), .cleared rfl⟩
    · have hstate : (bootStep X L fuel (.boot pc) w).2 = (taskStep X fuel pc w).2 := by
        have hcall : bootStep X L fuel (.boot pc) = (call (taskStep X fuel pc) >>=
            fun pc => pure (.boot pc) : ConfigM Pc) := by
          cases pc with
          | jump => exact absurd rfl hjump
          | _ => rfl
        rw [hcall, bind_pure_state]
        exact keeps_call (R := fun w w' => w' = (taskStep X fuel pc w).2) (fun _ => rfl) w
      rw [hstate]
      by_cases hstart : pc = .start
      · subst hstart
        obtain ⟨w₁, hw₁, hload⟩ := start_state X fuel w
        have hconfig := hload.config
        rw [hw₁.config, ← hload.nvm] at hconfig
        refine ⟨?_, .loaded hconfig⟩
        rw [hload.nvm]
        exact hinit nofun hw₁
      · exact hapart (.boot pc) nofun (taskStep_apart X fuel hstart w)
  | init =>
    have hkeep : Initialising w (bootStep X L fuel .init w).2 := bootStep_init X fuel w
    exact ⟨hinit nofun hkeep, .kept hkeep.config⟩
  | mount => exact hapart .mount nofun (bootStep_mount X fuel w)
  | loadConfig =>
    have hkeep : Loading w (bootStep X L fuel .loadConfig w).2 := bootStep_loadConfig X fuel w
    have hconfig := hkeep.config
    rw [← hkeep.nvm] at hconfig
    refine ⟨?_, .loaded hconfig⟩
    rw [hkeep.nvm]
    exact .counting nofun (.refl _)
  | openConfig =>
    have hcheck := (checkConfigFile_spec X w (L := L)).state
    rw [bootStep_openConfig, hcheck.nvm]
    refine ⟨.counting nofun (.refl _), ?_⟩
    obtain hkept | ⟨text, htext, hparsed⟩ := hcheck.config
    · exact .kept hkept
    · exact .parsed text htext hparsed
  | storeConfig hash =>
    have hstore := (storeConfig_spec L hash w).state
    rw [bootStep_storeConfig]
    refine ⟨.store hstore, .kept ?_⟩
    obtain ⟨t, n, hrest⟩ := hstore.rest
    rw [hrest]
  | started config => exact ⟨.counting nofun (.refl _), .kept rfl⟩

end Miso.Config
