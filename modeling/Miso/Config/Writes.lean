import Miso.Config.Boots

/-!
# What is written to the NVM

* `Writing objects w w'` — nothing but objects of the table `objects` has been written;
* `nvm_init_spec` — `nvm.init` leaves the NVM alone, or writes the nine base objects into an erased one;
* `store_config_spec` — `store_config_in_nvm` writes the strings of the buffers, each of them if it returns;
* `bootloader_apart` — the bootloader behind its start writes counters only, and no buffer.
-/

namespace Miso.Config

open Zig Boot

/-! ## Writing the objects of a table -/

/-- Only objects of the table have been written, and nothing but the NVM has changed. -/
structure Writing (objects : Nvm) (w w' : Device) : Prop where
  rest : ∃ t n, w' = { w with tick := t, nvm := n }
  nvm : ∀ k, w'.nvm k = w.nvm k ∨ (objects k).isSome ∧ w'.nvm k = objects k

theorem writing_frame (objects : Nvm) : Frame (Writing objects) where
  refl w := ⟨⟨w.tick, w.nvm, rfl⟩, fun _ => .inl rfl⟩
  trans := by
    intro w₁ w₂ w₃ h₁ h₂
    constructor
    · obtain ⟨t, n, rfl⟩ := h₁.rest
      obtain ⟨t', n', rfl⟩ := h₂.rest
      exact ⟨t', n', rfl⟩
    · intro k
      obtain hk | hk := h₂.nvm k
      · rw [hk]
        exact h₁.nvm k
      · exact .inr hk

theorem Quiet.writing {w w' : Device} (h : Quiet w w') (objects : Nvm) : Writing objects w w' := by
  obtain ⟨t, rfl⟩ := h
  exact ⟨⟨t, w.nvm, rfl⟩, fun _ => .inl rfl⟩

theorem Writing.config {objects : Nvm} {w w' : Device} (h : Writing objects w w') :
    w'.config = w.config := by
  obtain ⟨t, n, rfl⟩ := h.rest
  rfl

theorem Writing.sd {objects : Nvm} {w w' : Device} (h : Writing objects w w') : w'.sd = w.sd := by
  obtain ⟨t, n, rfl⟩ := h.rest
  rfl

theorem Writing.faults {objects : Nvm} {w w' : Device} (h : Writing objects w w') :
    w'.faults = w.faults := by
  obtain ⟨t, n, rfl⟩ := h.rest
  rfl

/-- What has been written stays, since only the same object can be written again. -/
theorem Writing.written {objects : Nvm} {w w' : Device} (h : Writing objects w w')
    {k : app_nvm_keys} (hk : w.nvm k = objects k) : w'.nvm k = objects k := by
  obtain h | h := h.nvm k
  · exact h.trans hk
  · exact h.2

/-- A key that is not in the table. -/
theorem Writing.apart {objects : Nvm} {w w' : Device} (h : Writing objects w w')
    {k : app_nvm_keys} (hk : objects k = none) : w'.nvm k = w.nvm k := by
  obtain h | h := h.nvm k
  · exact h
  · rw [hk] at h
    cases h.1

/-- The specification of calls that write objects of a table. -/
abbrev Writer {α : Type} (objects : Nvm) (w : Device) (K : Device → Prop) :
    Exit Boot.Error α → Device → Prop :=
  Ends (Writing objects w) (fun _ => K) (fun _ _ => True) False

theorem nvmWrite_writing {objects : Nvm} {key : app_nvm_keys} {o : NvmObject}
    (ho : objects key = some o) (w : Device) :
    wp (nvmWrite key o) (Writer objects w fun w' => w'.nvm key = objects key) w := by
  have hset {w' : Device} (h : Quiet (w.setNvm key o) w') : Writing objects w w' := by
    obtain ⟨t, rfl⟩ := h
    refine ⟨⟨t, (w.setNvm key o).nvm, rfl⟩, ?_⟩
    intro k
    by_cases hk : k = key
    · subst hk
      exact .inr ⟨by rw [ho]; rfl, (setNvm_self w k o).trans ho.symm⟩
    · exact .inl (if_neg hk)
  apply wp_ends_mono (nvmWrite_spec key o w)
  · rintro w' (h | h)
    · exact Quiet.writing h objects
    · exact hset h
  · rintro _ w' - ⟨t, rfl⟩
    exact (setNvm_self w key o).trans ho.symm
  · exact fun _ _ _ _ => trivial
  · exact id

/-- **One call after the other**: if all of them return, every object of the keys is in place. -/
theorem foldr_writing {objects : Nvm} {m : app_nvm_keys → BootM Unit} {w₀ : Device}
    (keys : List app_nvm_keys)
    (hm : ∀ k ∈ keys, ∀ w, Writing objects w₀ w →
      wp (m k) (Writer objects w fun w' => w'.nvm k = objects k) w)
    (w : Device) (hw : Writing objects w₀ w) :
    wp (keys.foldr (fun k rest => do m k; rest) (pure ()))
      (Writer objects w₀ fun w' => ∀ k ∈ keys, w'.nvm k = objects k) w := by
  suffices h : wp (keys.foldr (fun k rest => do m k; rest) (pure ()))
      (Writer objects w fun w' => ∀ k ∈ keys, w'.nvm k = objects k) w from
    wp_ends_mono h (fun _ h => (writing_frame objects).trans hw h) (fun _ _ _ h => h)
      (fun _ _ _ h => h) id
  induction keys generalizing w with
  | nil => exact ⟨(writing_frame objects).refl w, nofun⟩
  | cons k keys ih =>
    apply wp_bind_ends (K := fun _ w' => w'.nvm k = objects k) (hm k List.mem_cons_self w hw)
    intro _ w₁ hw₁ hk
    have hrest := ih (fun j hj => hm j (List.mem_cons_of_mem k hj)) w₁
      ((writing_frame objects).trans hw hw₁)
    apply wp_ends_mono hrest
    · exact fun _ h => (writing_frame objects).trans hw₁ h
    · intro _ w₂ hw₂ hkeys j hj
      obtain rfl | hj := List.mem_cons.mp hj
      · exact hw₂.written hk
      · exact hkeys j hj
    · exact fun _ _ _ h => h
    · exact id

/-! ## `nvm.init` -/

/-- The objects that `nvm.init` writes. -/
def baseObjects : Nvm
  | .start_counter | .reset_counter | .timestamp | .firmware_download_counter => some (.counter 0)
  | .device_uuid => some (.data (List.replicate 36 0xFF))
  | .config_sha256 => some (.data (List.replicate 32 0xFF))
  | .boot_request | .update_request | .firmware_size => some (.counter 0)
  | _ => none

/-- Their keys, in the order of `nvm.init`. -/
def baseKeys : List app_nvm_keys :=
  [.start_counter, .reset_counter, .timestamp, .firmware_download_counter, .device_uuid,
   .config_sha256, .boot_request, .update_request, .firmware_size]

theorem mem_baseKeys {k : app_nvm_keys} : k ∈ baseKeys ↔ (baseObjects k).isSome := by
  cases k <;> decide

/-- Write the object of the table. -/
def writeBase (k : app_nvm_keys) : BootM Unit :=
  match baseObjects k with
  | some o => nvmWrite k o
  | none => pure ()

theorem bind_pure_unit (m : BootM Unit) : (do m; pure ()) = m := by
  funext w
  show Prog.seq m (fun _ => Prog.ret ()) w = m w
  unfold Prog.seq
  rcases m w with ⟨x, w'⟩
  cases x <;> rfl

theorem nvm_init_eq : nvm_init = (do
    if countObjects (← Prog.get).nvm < 9 then
      eraseAll
      baseKeys.foldr (fun k rest => do writeBase k; rest) (pure ()) : BootM Unit) := by
  have hlast : (do writeBase .firmware_size; pure () : BootM Unit) =
      writeCounter .firmware_size 0 := bind_pure_unit _
  unfold nvm_init baseKeys
  simp only [List.foldr_cons, List.foldr_nil, hlast]
  rfl

/-- The device with an empty NVM. -/
def erased (w : Device) : Device := { w with nvm := fun _ => none }

theorem eraseAll_spec (w : Device) :
    wp eraseAll (Ends (fun w' => Quiet w w' ∨ Quiet (erased w) w')
      (fun _ w' => Quiet (erased w) w') (fun _ w' => Quiet w w') False) w := by
  unfold eraseAll
  rw [wp_bind, wp_draw, thenPost_ok]
  have hkept : Quiet w (w.seek (w.tick + 1)) := quiet_seek w _
  have herased : Quiet (erased w) (erased (w.seek (w.tick + 1))) := ⟨w.tick + 1, rfl⟩
  cases w.faults w.tick with
  | none => exact ⟨.inr herased, herased⟩
  | short n => exact ⟨.inr herased, herased⟩
  | fail r part => exact ⟨.inl hkept, hkept⟩
  | halt part =>
    simp only [wp_halt, ends_halt]
    split
    · exact .inl hkept
    · exact .inr herased

/-- Keys whose objects exist are counted. -/
theorem countP_le_countObjects {n : Nvm} {p : app_nvm_keys → Bool}
    (h : ∀ k, p k = true → (n k).isSome = true) : app_nvm_keys.all.countP p ≤ countObjects n :=
  List.countP_mono_left fun k _ hk => h k hk

/-- With nine objects `nvm.init` does nothing. -/
theorem nvm_init_full {w : Device} (h : 9 ≤ countObjects w.nvm) : nvm_init w = (.ok (), w) := by
  unfold nvm_init
  rw [Prog.bind_ok _ (show (Prog.get : BootM Device) w = (.ok w, w) from rfl),
    if_neg (Nat.not_lt.mpr h)]
  rfl

/-- **What `nvm.init` does to an NVM with fewer objects.** -/
theorem nvm_init_spec {w : Device} (h : countObjects w.nvm < 9) :
    wp nvm_init (Ends (fun w' => Quiet w w' ∨ Writing baseObjects (erased w) w')
      (fun _ w' => Writing baseObjects (erased w) w' ∧ ∀ k ∈ baseKeys, w'.nvm k = baseObjects k)
      (fun _ _ => True) False) w := by
  rw [nvm_init_eq, wp_bind, wp_get, thenPost_ok, if_pos h]
  apply wp_bind_ends (K := fun _ w' => Quiet (erased w) w')
  · apply wp_ends_mono (eraseAll_spec w)
    · rintro w' (h | h)
      · exact .inl h
      · exact .inr (Quiet.writing h _)
    · exact fun _ _ _ h => h
    · exact fun _ _ _ _ => trivial
    · exact id
  · intro _ w₁ _ hq
    have hbase : ∀ k ∈ baseKeys, ∀ w₂, Writing baseObjects (erased w) w₂ →
        wp (writeBase k) (Writer baseObjects w₂ fun w' => w'.nvm k = baseObjects k) w₂ := by
      intro k hk w₂ _
      obtain ⟨o, ho⟩ := Option.isSome_iff_exists.mp (mem_baseKeys.mp hk)
      have hwrite : writeBase k = nvmWrite k o := by
        unfold writeBase
        rw [ho]
      rw [hwrite]
      exact nvmWrite_writing ho w₂
    apply wp_ends_mono (foldr_writing baseKeys hbase w₁ (Quiet.writing hq _))
    · exact fun _ h => .inr h
    · exact fun _ _ hw hall => ⟨hw, hall⟩
    · exact fun _ _ _ h => h
    · exact id

/-! ## `store_config_in_nvm` -/

/-- The objects of `store_config_in_nvm`. -/
def settingObjects (L : Libs) (g : Buffers) : Nvm := fun k =>
  if k ∈ configKeys then some (.data (stringObject L g k)) else none

theorem settingObjects_mem {L : Libs} {g : Buffers} {k : app_nvm_keys} (h : k ∈ configKeys) :
    settingObjects L g k = some (.data (stringObject L g k)) := if_pos h

theorem settingObjects_notMem {L : Libs} {g : Buffers} {k : app_nvm_keys} (h : k ∉ configKeys) :
    settingObjects L g k = none := if_neg h

theorem config_sha256_notMem : app_nvm_keys.config_sha256 ∉ configKeys := by decide

theorem writeDataCString_writing (L : Libs) {k : app_nvm_keys} (hk : k ∈ configKeys) (w : Device) :
    wp (writeDataCString L k) (Writer (settingObjects L w.config) w
      fun w' => w'.nvm k = settingObjects L w.config k) w := by
  unfold writeDataCString
  rw [wp_bind, wp_get, thenPost_ok, wp_ite]
  split
  · exact ⟨(writing_frame _).refl w, trivial⟩
  · exact nvmWrite_writing (settingObjects_mem hk) w

/-- **`store_config_in_nvm`** writes settings; if it returns, all of them. -/
theorem store_config_spec (L : Libs) (w : Device) :
    wp (store_config_in_nvm L) (Writer (settingObjects L w.config) w
      fun w' => ∀ k ∈ configKeys, w'.nvm k = settingObjects L w.config k) w := by
  apply foldr_writing configKeys _ w ((writing_frame _).refl w)
  intro k hk w₁ hw₁
  have hwrite := writeDataCString_writing L hk w₁
  rwa [hw₁.config] at hwrite

/-- What `storeConfig` leaves behind in every case: settings, and the hash only behind all of them. -/
structure Storing (L : Libs) (hash : List UInt8) (w w' : Device) : Prop where
  rest : ∃ t n, w' = { w with tick := t, nvm := n }
  setting : ∀ k ∈ configKeys, w'.nvm k = w.nvm k ∨
    w'.nvm k = some (.data (stringObject L w.config k))
  other : ∀ k, k ∉ configKeys → k ≠ .config_sha256 → w'.nvm k = w.nvm k
  hash : w'.nvm .config_sha256 = w.nvm .config_sha256 ∨ isStored L w.config hash w'.nvm = true

theorem isStored_iff {L : Libs} {g : Buffers} {hash : List UInt8} {n : Nvm} :
    isStored L g hash n = true ↔ (∀ k ∈ configKeys, n k = some (.data (stringObject L g k))) ∧
      n .config_sha256 = some (.data hash) := by
  simp [isStored]

theorem Writing.storing {L : Libs} {w w' : Device} (h : Writing (settingObjects L w.config) w w')
    (hash : List UInt8) : Storing L hash w w' where
  rest := h.rest
  setting := by
    intro k hk
    have hnvm := h.nvm k
    rw [settingObjects_mem hk] at hnvm
    exact hnvm.imp_right And.right
  other := fun k hk _ => h.apart (settingObjects_notMem hk)
  hash := .inl (h.apart (settingObjects_notMem config_sha256_notMem))

theorem Storing.quiet {L : Libs} {hash : List UInt8} {w w₁ w₂ : Device} (h : Storing L hash w w₁)
    (hq : Quiet w₁ w₂) : Storing L hash w w₂ := by
  obtain ⟨t, rfl⟩ := hq
  obtain ⟨t', n, rfl⟩ := h.rest
  exact ⟨⟨t, n, rfl⟩, h.setting, h.other, h.hash⟩

/-- **`storeConfig`** stores the hash last. -/
theorem storeConfig_spec (L : Libs) (hash : List UInt8) (w : Device) :
    wp (storeConfig L hash) (Ends (Storing L hash w)
      (fun _ w' => isStored L w.config hash w'.nvm = true) (fun _ _ => True) False) w := by
  apply wp_errdeferring
  · apply wp_bind_ends (K := fun _ w' => Writing (settingObjects L w.config) w w' ∧
      ∀ k ∈ configKeys, w'.nvm k = settingObjects L w.config k)
    · apply wp_ends_mono (store_config_spec L w)
      · exact fun _ h => h.storing hash
      · exact fun _ _ hw h => ⟨hw, h⟩
      · exact fun _ _ _ h => h
      · exact id
    · rintro _ w₁ hs ⟨hw, hall⟩
      have hset {w' : Device} (h : Quiet (w₁.setNvm .config_sha256 (.data hash)) w') :
          Storing L hash w w' ∧ isStored L w.config hash w'.nvm = true := by
        obtain ⟨t, rfl⟩ := h
        have hne {k : app_nvm_keys} (hk : k ∈ configKeys) : k ≠ .config_sha256 := by
          rintro rfl
          exact config_sha256_notMem hk
        have hstored : isStored L w.config hash (w₁.setNvm .config_sha256 (.data hash)).nvm = true := by
          apply isStored_iff.mpr
          constructor
          · intro k hk
            exact (if_neg (hne hk)).trans ((hall k hk).trans (settingObjects_mem hk))
          · exact setNvm_self w₁ _ _
        refine ⟨⟨?_, ?_, ?_, .inr hstored⟩, hstored⟩
        · obtain ⟨t', n, rfl⟩ := hs.rest
          exact ⟨t, _, rfl⟩
        · exact fun k hk => .inr ((isStored_iff.mp hstored).1 k hk)
        · intro k hk hk'
          exact (if_neg hk').trans (hs.other k hk hk')
      apply wp_ends_mono (nvmWrite_spec .config_sha256 (.data hash) w₁)
      · rintro w' (h | h)
        · exact hs.quiet h
        · exact (hset h).1
      · exact fun _ _ _ h => (hset h).2
      · exact fun _ _ _ _ => trivial
      · exact id
  · intro w' hw'
    have hclose : wp (f_close ⟨.config_sig_file_name, 0, 0⟩).orIgnore (Ends (Quiet w')
        (fun _ _ => True) (fun _ _ => False) False) w' :=
      wp_orIgnore_ends (checked_spec FRESULT.check_external w') fun _ _ _ _ => trivial
    exact wp_ends_mono hclose (fun _ hq => hw'.quiet hq) (fun _ _ _ _ => trivial)
      (fun _ _ _ _ => trivial) id

end Miso.Config
