import Miso.Config.Steps

/-!
# What the stored hash vouches for

`open_config_file` skips a file whose hash is in the NVM.

* `skip_vouched` — the settings are then those that were stored with this hash, in every history in which no
  file whose hash could be taken for the stored one is opened behind an incomplete store or before
  the first store;
* `torn_vouched` — without the condition an interrupted store of another file leaves a mixture that the
  old hash vouches for.
-/

namespace Miso.Config

open Zig Boot

variable {X : Externs (List UInt8)} {L : Libs}

/-! ## Positions -/

/-- The positions behind a comparison of the hashes. -/
def Pc.compared : Pc → Bool
  | .storeConfig _ => true
  | .started .unchanged => true
  | _ => false

theorem nextPc_bind_pure {α : Type} (P : Pc → Prop) (m : ConfigM α) (f : α → Pc)
    (w : Device) (hf : ∀ a, P (f a)) (h₀ : P .bootMain) :
    P (nextPc ((m >>= fun a => pure (f a) : ConfigM Pc) w).1) := by
  show P (nextPc (Prog.seq m (fun a => Prog.ret (f a)) w).1)
  unfold Prog.seq
  rcases m w with ⟨x, w'⟩
  cases x with
  | ok a => exact hf a
  | err e => exact h₀
  | trap => exact h₀
  | halt => exact h₀

/-- Only `open_config_file` leads behind the comparison. -/
theorem bootStep_compared (fuel : Nat) {pc : Pc} (w : Device) (h : pc ≠ .openConfig)
    (h' : ∀ config, pc ≠ .started config) :
    (nextPc (bootStep X L fuel pc w).1).compared = false := by
  have hconst (m : ConfigM Unit) (pc' : Pc) (hpc' : pc'.compared = false) :
      (nextPc ((m >>= fun _ => pure pc' : ConfigM Pc) w).1).compared = false :=
    nextPc_bind_pure (fun pc => pc.compared = false) m (fun _ => pc') w (fun _ => hpc') rfl
  cases pc with
  | bootMain => exact hconst _ _ rfl
  | boot pc =>
    by_cases hjump : pc = .jump
    · subst hjump
      exact hconst _ _ rfl
    · have hcall : bootStep X L fuel (.boot pc) = (call (taskStep X fuel pc) >>=
          fun pc => pure (.boot pc) : ConfigM Pc) := by
        cases pc with
        | jump => exact absurd rfl hjump
        | _ => rfl
      rw [hcall]
      exact nextPc_bind_pure (fun pc => pc.compared = false) _ _ w (fun _ => rfl) rfl
  | main => exact hconst _ _ rfl
  | init => exact hconst _ _ rfl
  | mount => exact hconst _ _ rfl
  | loadConfig => exact hconst _ _ rfl
  | openConfig => exact absurd rfl h
  | storeConfig hash =>
    rw [bootStep_storeConfig_eq]
    apply nextPc_bind_pure (fun pc => pc.compared = false) _ _ w _ rfl
    intro r
    cases r <;> rfl
  | started config => exact absurd rfl (h' config)

/-- What the comparison says. -/
theorem openConfig_next (fuel : Nat) (w : Device) :
    match nextPc (bootStep X L fuel .openConfig w).1 with
    | .storeConfig hash => HashOf X w hash
    | .started .unchanged => ∃ hash, HashOf X w hash ∧ IsReference w.nvm hash
    | _ => True := by
  have hcheck := checkConfigFile_spec X w (L := L)
  rw [bootStep_openConfig_eq]
  show match nextPc (Prog.seq (Prog.attempt _) _ w).1 with
    | .storeConfig hash => HashOf X w hash
    | .started .unchanged => ∃ hash, HashOf X w hash ∧ IsReference w.nvm hash
    | _ => True
  unfold Prog.seq Prog.attempt
  unfold wp at hcheck
  rcases hrun : checkConfigFile X L w with ⟨x, w'⟩
  rw [hrun] at hcheck
  cases x with
  | ok r =>
    cases r with
    | some hash => exact hcheck.2
    | none => exact hcheck.2.2
  | err e => trivial
  | trap => trivial
  | halt => trivial

/-! ## The invariant -/

/-- The hash in the NVM is that of the last complete store; so are the settings, unless a later store was
    left incomplete. -/
structure Vouched (S : Stored) (s : Life) : Prop where
  hash : s.dev.nvm .config_sha256 = some (.data S.hash)
  size : S.hash.length = hash_size
  present : ∀ k ∈ configKeys, (s.dev.nvm k).isSome = true
  settings : s.torn = false → ∀ k ∈ configKeys, s.dev.nvm k = S.nvm k

/-- The invariant of a history. -/
structure Consistent (X : Externs (List UInt8)) (s : Life) : Prop where
  vouched : ∀ S ∈ s.stored, Vouched S s
  storing : ∀ hash, s.pc = .storeConfig hash → hash.length = hash_size
  unchanged : s.pc = .started .unchanged → s.torn = false ∧ ∃ S, s.stored = some S ∧
    HashOf X s.dev S.hash

/-- With the settings in place there are more than nine objects. -/
theorem settings_counted {n : Nvm} (h : ∀ k ∈ configKeys, (n k).isSome = true) :
    9 ≤ countObjects n := by
  have hsettings : app_nvm_keys.all.countP (fun k => k ∈ configKeys) = 13 := by decide
  have hmono : app_nvm_keys.all.countP (fun k => k ∈ configKeys) ≤ countObjects n := by
    apply countP_le_countObjects
    intro k hk
    exact h k (by simpa using hk)
  omega

theorem padHash_full {hash : List UInt8} (h : hash.length = hash_size) : padHash hash = hash := by
  unfold padHash
  rw [h, Nat.sub_self, List.replicate_zero, List.append_nil]

theorem Vouched.counting {S : Stored} {s s' : Life} (h : Vouched S s)
    (hn : Counting s.dev.nvm s'.dev.nvm) (ht : s'.torn = s.torn) : Vouched S s' where
  hash := (hn.setting (.inr rfl)).trans h.hash
  size := h.size
  present := by
    intro k hk
    rw [hn.setting (.inl hk)]
    exact h.present k hk
  settings := by
    intro htorn k hk
    rw [hn.setting (.inl hk)]
    exact h.settings (ht ▸ htorn) k hk

/-- Nothing that could be taken for the stored hash is opened behind an incomplete store or before the
    first one, and no file has the hash zero. -/
def Guarded (X : Externs (List UInt8)) (s : Life) : Input → Prop
  | .step _ =>
    match s.pc with
    | .openConfig => ∀ text ∈ s.dev.sd .config_file_name,
        IsReference s.dev.nvm (X.sha256 text) →
          X.sha256 text ≠ padHash [] ∧ s.stored.isSome = true ∧ s.torn = false
    | _ => True
  | _ => True

instance (n : Nvm) (ref : List UInt8) : Decidable (IsReference n ref) :=
  match h : n .config_sha256 with
  | some (.data bytes) =>
    decidable_of_iff (ref = padHash [] ∨ bytes.length ≤ hash_size ∧ ref = padHash bytes)
      (by simp [IsReference, h])
  | some (.counter _) => decidable_of_iff (ref = padHash []) (by simp [IsReference, h])
  | none => decidable_of_iff (ref = padHash []) (by simp [IsReference, h])

instance (X : Externs (List UInt8)) (s : Life) : ∀ i, Decidable (Guarded X s i)
  | .step _ =>
    match h : s.pc with
    | .openConfig => decidable_of_iff (∀ text ∈ s.dev.sd .config_file_name,
        IsReference s.dev.nvm (X.sha256 text) →
          X.sha256 text ≠ padHash [] ∧ s.stored.isSome = true ∧ s.torn = false)
        (by simp [Guarded, h])
    | .bootMain | .boot _ | .main | .init | .mount | .loadConfig | .storeConfig _ | .started _ =>
      isTrue (by simp [Guarded, h])
  | .reset _ => isTrue trivial
  | .increment _ => isTrue trivial

/-! ### The steps -/

theorem after_nvm (s : Life) (x : Exit config_error Pc) (w : Device) :
    (s.after L x w).dev.nvm = w.nvm := by
  show (if _ then _ else _ : Device).nvm = _
  split <;> rfl

theorem after_sd (s : Life) (x : Exit config_error Pc) (w : Device) :
    (s.after L x w).dev.sd = w.sd := by
  show (if _ then _ else _ : Device).sd = _
  split <;> rfl

theorem after_stored {s : Life} (h : ∀ hash, s.pc ≠ .storeConfig hash) (x : Exit config_error Pc)
    (w : Device) : (s.after L x w).stored = s.stored ∧ (s.after L x w).torn = s.torn := by
  unfold Life.after
  generalize s.pc = pc at h
  cases pc with
  | storeConfig hash => exact absurd rfl (h hash)
  | _ => exact ⟨rfl, rfl⟩

/-- A store leaves a complete stock behind, or the old hash. -/
theorem store_vouched {s : Life} {hash : List UInt8} (hpc : s.pc = .storeConfig hash)
    (hsize : hash.length = hash_size) (hs : ∀ S ∈ s.stored, Vouched S s) {x : Exit config_error Pc}
    {w : Device} (h : Storing L hash s.dev w) : ∀ S ∈ (s.after L x w).stored,
      Vouched S (s.after L x w) := by
  have hnvm := after_nvm (L := L) s x w
  intro S hS
  by_cases hstored : isStored L s.dev.config hash w.nvm = true
  · have hnew : (s.after L x w).stored = some ⟨hash, w.nvm⟩ := by
      simp only [Life.after, hpc, hstored, if_true]
    rw [hnew] at hS
    cases hS
    obtain ⟨hall, hhash⟩ := isStored_iff.mp hstored
    refine ⟨hnvm ▸ hhash, hsize, ?_, ?_⟩
    · intro k hk
      rw [hnvm, hall k hk]
      rfl
    · intro _ k _
      rw [hnvm]
  · have hold : (s.after L x w).stored = s.stored := by
      simp only [Life.after, hpc, hstored, Bool.false_eq_true, if_false]
    have htorn : (s.after L x w).torn = (s.torn || changed s.dev.nvm w.nvm) := by
      simp only [Life.after, hpc, hstored, Bool.false_eq_true, if_false]
    rw [hold] at hS
    have hv := hs S hS
    have hhash : w.nvm .config_sha256 = s.dev.nvm .config_sha256 :=
      h.hash.resolve_right hstored
    refine ⟨?_, hv.size, ?_, ?_⟩
    · rw [hnvm, hhash]
      exact hv.hash
    · intro k hk
      rw [hnvm]
      obtain hsame | hset := h.setting k hk
      · rw [hsame]
        exact hv.present k hk
      · rw [hset]
        rfl
    · intro ht k hk
      rw [htorn, Bool.or_eq_false_iff] at ht
      have hsame : s.dev.nvm k = w.nvm k := by
        have hany := List.any_eq_false.mp ht.2 k hk
        simpa using hany
      rw [hnvm, ← hsame]
      exact hv.settings ht.1 k hk

/-- A step that stores nothing keeps what has been vouched for. -/
theorem other_vouched {s s' : Life} (hs : ∀ S ∈ s.stored, Vouched S s)
    (hn : NvmStep L s.pc s.dev s'.dev.nvm) (hpc : ∀ hash, s.pc ≠ .storeConfig hash)
    (hstored : s'.stored = s.stored) (htorn : s'.torn = s.torn) :
    ∀ S ∈ s'.stored, Vouched S s' := by
  intro S hS
  have hv := hs S (hstored ▸ hS)
  have hnine := settings_counted hv.present
  generalize hpc' : s.pc = pc at hn
  generalize hdev : s.dev = w at hn
  generalize hnvm : s'.dev.nvm = n at hn
  cases hn with
  | counting _ hcount =>
    subst hdev hnvm
    exact hv.counting hcount htorn
  | init _ hless _ =>
    subst hdev
    omega
  | store _ => exact absurd hpc' (hpc _)

/-- The comparison of the hashes. -/
theorem openConfig_consistent (hX : ∀ text, (X.sha256 text).length = hash_size) {s : Life}
    (fuel : Nat) (hs : Consistent X s) (hpc : s.pc = .openConfig)
    (hC : Guarded X s (.step fuel)) {s' : Life}
    (hnext : s'.pc = nextPc (bootStep X L fuel .openConfig s.dev).1)
    (hsd : s'.dev.sd = s.dev.sd) (hstored : s'.stored = s.stored) (htorn : s'.torn = s.torn) :
    (∀ hash, s'.pc = .storeConfig hash → hash.length = hash_size) ∧
      (s'.pc = .started .unchanged → s'.torn = false ∧ ∃ S, s'.stored = some S ∧
        HashOf X s'.dev S.hash) := by
  have hcheck := openConfig_next (X := X) (L := L) fuel s.dev
  rw [← hnext] at hcheck
  constructor
  · intro hash hpc'
    rw [hpc'] at hcheck
    obtain ⟨text, -, rfl⟩ := hcheck
    exact hX text
  · intro hpc'
    rw [hpc'] at hcheck
    obtain ⟨_, ⟨text, htext, rfl⟩, href⟩ := hcheck
    simp only [Guarded, hpc] at hC
    obtain ⟨hzero, hsome, hclean⟩ := hC text htext href
    obtain ⟨S, hS⟩ := Option.isSome_iff_exists.mp hsome
    have hv := hs.vouched S hS
    refine ⟨htorn.trans hclean, S, hstored.trans hS, text, hsd ▸ htext, ?_⟩
    obtain hz | ⟨bytes, hbytes, -, hpad⟩ := href
    · exact absurd hz hzero
    · have heq : S.hash = bytes := by
        have hboth := hv.hash.symm.trans hbytes
        cases hboth
        rfl
      rw [hpad, ← heq, padHash_full hv.size]

theorem step_consistent (hX : ∀ text, (X.sha256 text).length = hash_size) {s : Life} (fuel : Nat)
    (hs : Consistent X s) (hC : Guarded X s (.step fuel)) :
    Consistent X ((boots X L).next s (.step fuel)) := by
  let r := bootStep X L fuel s.pc s.dev
  show Consistent X (s.after L r.1 r.2)
  have hpcs (h : (nextPc r.1).compared = false) :
      (∀ hash, nextPc r.1 = .storeConfig hash → hash.length = hash_size) ∧
        (nextPc r.1 = .started .unchanged → (s.after L r.1 r.2).torn = false ∧
          ∃ S, (s.after L r.1 r.2).stored = some S ∧ HashOf X (s.after L r.1 r.2).dev S.hash) := by
    constructor
    · intro hash hpc
      rw [hpc] at h
      cases h
    · intro hpc
      rw [hpc] at h
      cases h
  by_cases hstore : ∃ hash, s.pc = .storeConfig hash
  · obtain ⟨hash, hpc⟩ := hstore
    have hstoring : Storing L hash s.dev r.2 := by
      have hspec := (storeConfig_spec L hash s.dev).state
      rwa [← bootStep_storeConfig X fuel, ← hpc] at hspec
    have hcompared := hpcs (bootStep_compared fuel s.dev (by simp [hpc]) (by simp [hpc]))
    exact ⟨store_vouched hpc (hs.storing hash hpc) hs.vouched hstoring, hcompared.1, hcompared.2⟩
  · have hnot : ∀ hash, s.pc ≠ .storeConfig hash := fun hash heq => hstore ⟨hash, heq⟩
    obtain ⟨hstored, htorn⟩ := after_stored (L := L) hnot r.1 r.2
    have heffect := (bootStep_effect (L := L) X fuel s.pc s.dev).1
    rw [← after_nvm (L := L) s r.1] at heffect
    have hvouched := other_vouched hs.vouched heffect hnot hstored htorn
    by_cases hopen : s.pc = .openConfig
    · have hsd : (s.after L r.1 r.2).dev.sd = s.dev.sd := by
        have hspec := (checkConfigFile_spec X s.dev (L := L)).state
        obtain ⟨t, g, hrest⟩ := hspec.rest
        rw [← bootStep_openConfig X fuel, ← hopen] at hrest
        rw [after_sd, hrest]
      have hnext : (s.after L r.1 r.2).pc = nextPc (bootStep X L fuel .openConfig s.dev).1 := by
        rw [← hopen]
        rfl
      obtain ⟨hstoring, hunchanged⟩ :=
        openConfig_consistent hX fuel hs hopen hC hnext hsd hstored htorn
      exact ⟨hvouched, hstoring, hunchanged⟩
    · by_cases hstarted : ∃ config, s.pc = .started config
      · obtain ⟨config, hpc⟩ := hstarted
        have hr : r = (.ok (.started config), s.dev) := by
          show bootStep X L fuel s.pc s.dev = _
          rw [hpc]
          rfl
        have hafter : s.after L r.1 r.2 = s := by
          rw [hr]
          unfold Life.after
          rw [hpc]
          cases s
          subst hpc
          rfl
        rw [hafter]
        exact hs
      · have hcompared := hpcs (bootStep_compared fuel s.dev hopen
          fun config heq => hstarted ⟨config, heq⟩)
        exact ⟨hvouched, hcompared.1, hcompared.2⟩

/-! ### Runs -/

/-- The system behind an increment. -/
theorem next_increment (s : Life) {key : app_nvm_keys} (h : key ∈ counterKeys) :
    Counting s.dev.nvm ((boots X L).next s (.increment key)).dev.nvm ∧
      ((boots X L).next s (.increment key)).dev.sd = s.dev.sd ∧
      ((boots X L).next s (.increment key)).stored = s.stored ∧
      ((boots X L).next s (.increment key)).torn = s.torn ∧
      (((boots X L).next s (.increment key)).pc = s.pc ∨
        ((boots X L).next s (.increment key)).pc = .bootMain) := by
  have hcount := (incrementCounter_apart h s.dev).nvm
  have hsd := incrementCounter_sd key s.dev
  rw [← orIgnore_state] at hcount hsd
  obtain hnext | hnext := next_increment_cases X L s key
  · rw [hnext]
    exact ⟨hcount, hsd, rfl, rfl, .inl rfl⟩
  · rw [hnext]
    exact ⟨hcount, hsd, rfl, rfl, .inr rfl⟩

theorem next_consistent (hX : ∀ text, (X.sha256 text).length = hash_size) {s : Life} {i : Input}
    (hs : Consistent X s) (hi : s.Enabled i) (hC : Guarded X s i) :
    Consistent X ((boots X L).next s i) := by
  cases i with
  | step fuel => exact step_consistent hX fuel hs hC
  | reset sd =>
    refine ⟨?_, nofun, nofun⟩
    exact fun S hS => (hs.vouched S hS).counting (.refl _) rfl
  | increment key =>
    obtain ⟨hcount, hsd, hstored, htorn, hpc⟩ := next_increment (X := X) (L := L) s hi.2
    generalize (boots X L).next s (.increment key) = s' at *
    refine ⟨?_, ?_, ?_⟩
    · intro S hS
      exact (hs.vouched S (hstored ▸ hS)).counting hcount htorn
    · intro hash hpc'
      obtain hsame | hmain := hpc
      · exact hs.storing hash (hsame ▸ hpc')
      · rw [hmain] at hpc'
        cases hpc'
    · intro hpc'
      obtain hsame | hmain := hpc
      · obtain ⟨hclean, S, hS, text, htext, hhash⟩ := hs.unchanged (hsame ▸ hpc')
        exact ⟨htorn.trans hclean, S, hstored.trans hS, text, hsd ▸ htext, hhash⟩
      · rw [hmain] at hpc'
        cases hpc'

/-- The settings in the NVM are those that were stored with the hash of the file. -/
def SkipVouched (X : Externs (List UInt8)) (s : Life) : Prop :=
  ∃ S, s.stored = some S ∧ HashOf X s.dev S.hash ∧
    s.dev.nvm .config_sha256 = some (.data S.hash) ∧ ∀ k ∈ configKeys, s.dev.nvm k = S.nvm k

/-- **A file that is skipped has been stored**, in every history in which no file whose hash could be taken
    for the stored one is opened behind an incomplete store or before the first one. -/
theorem skip_vouched (hX : ∀ text, (X.sha256 text).length = hash_size) {s₀ s : Life}
    (h₀ : Fresh s₀) (h : (boots X L).Reaches (Guarded X) s₀ s)
    (hpc : s.pc = .started .unchanged) : SkipVouched X s := by
  have hs : Consistent X s := by
    apply System.Reaches.invariant (I := Consistent X) h
    · refine ⟨?_, ?_, ?_⟩
      · intro S hS
        rw [h₀.stored] at hS
        cases hS
      · intro hash hpc
        rw [h₀.pc] at hpc
        cases hpc
      · intro hpc
        rw [h₀.pc] at hpc
        cases hpc
    · exact fun s i hs hi hC => next_consistent hX hs hi hC
  obtain ⟨hclean, S, hS, hhash⟩ := hs.unchanged hpc
  have hv := hs.vouched S hS
  exact ⟨S, hS, hhash, hv.hash, hv.settings hclean⟩

/-- Another file of the length of `homeText`. -/
def workText : List UInt8 := bytesOf "\x7b\"wifi\":\x7b\"ssid\":\"work\"\x7d\x7d"

/-- The SHA-256 of `workText`. -/
def workHash : List UInt8 :=
  [0xA1, 0xE4, 0x04, 0x09, 0xED, 0xB2, 0x4A, 0x99, 0x5F, 0x17, 0x31, 0x60, 0xBB, 0x01, 0x3E, 0xAA,
   0xF1, 0xDE, 0x82, 0x15, 0x41, 0xD4, 0x0C, 0x7D, 0xC6, 0x63, 0xCF, 0x58, 0x4C, 0xDF, 0x6D, 0xAA]

/-- The libraries on the two files, which have the same tokens. -/
def twoLibs : Libs :=
  .sample fun text => if text = homeText ∨ text = workText then some homeTokens else none

def twoExterns : Externs (List UInt8) :=
  { Externs.plain with sha256 := fun text => if text = workText then workHash else homeHash }

/-- The second file is stored while the first one is in the NVM, and then the first one is back. -/
def swapInputs : List Input :=
  List.replicate 10 (.step 1) ++ .reset (sampleCard workText) :: List.replicate 10 (.step 1) ++
    .reset (sampleCard homeText) :: List.replicate 9 (.step 1)

theorem twoExterns_size (text : List UInt8) : (twoExterns.sha256 text).length = hash_size := by
  show (if text = workText then workHash else homeHash).length = _
  split <;> rfl

/-- A file that is opened again after it has been stored. -/
theorem skip_vouched_home :
    ∃ s, (boots twoExterns twoLibs).Reaches (Guarded twoExterns) (.sample homeText fun _ => .none) s ∧
      s.pc = .started .unchanged ∧ SkipVouched twoExterns s := by
  have hreach : (boots twoExterns twoLibs).Reaches (Guarded twoExterns)
      (.sample homeText fun _ => .none) ((boots twoExterns twoLibs).run
        (.sample homeText fun _ => .none)
        (List.replicate 10 (.step 1) ++ .reset (sampleCard homeText) :: List.replicate 9 (.step 1))) :=
    System.reaches_run (by decide +kernel)
  have hpc : ((boots twoExterns twoLibs).run (.sample homeText fun _ => .none)
      (List.replicate 10 (.step 1) ++ .reset (sampleCard homeText) ::
        List.replicate 9 (.step 1))).pc = .started .unchanged := by decide +kernel
  exact ⟨_, hreach, hpc, skip_vouched twoExterns_size (Life.sample_fresh homeText _) hreach hpc⟩

/-- The reset behind the first setting of the second file. -/
def tornFaults (t : Nat) : Fault := if t = 154 then .halt [] else .none

/-- A store that is cut off leaves settings behind that the old hash vouches for. -/
theorem torn_vouched : ¬ ∀ (X : Externs (List UInt8)) (L : Libs) (s₀ s : Life),
    (∀ text, (X.sha256 text).length = hash_size) → Fresh s₀ →
    (boots X L).Reaches System.Free s₀ s → s.pc = .started .unchanged → SkipVouched X s := by
  intro hall
  have hreach : (boots twoExterns twoLibs).Reaches System.Free (.sample homeText tornFaults)
      ((boots twoExterns twoLibs).run (.sample homeText tornFaults) swapInputs) :=
    System.reaches_run (by decide +kernel)
  have hpc : ((boots twoExterns twoLibs).run (.sample homeText tornFaults) swapInputs).pc =
      .started .unchanged := by decide +kernel
  obtain ⟨S, hS, -, -, hsettings⟩ := hall _ _ _ _ twoExterns_size
    (Life.sample_fresh homeText tornFaults) hreach hpc
  have hssid : ((boots twoExterns twoLibs).run (.sample homeText tornFaults) swapInputs).dev.nvm
      .wifi_ssid = some (.data (bytesOf "work" ++ [0])) := by decide +kernel
  have hstored : (((boots twoExterns twoLibs).run (.sample homeText tornFaults)
      swapInputs).stored.bind fun S => S.nvm .wifi_ssid) = some (.data (bytesOf "home" ++ [0])) := by
    decide +kernel
  rw [hS, Option.bind_some, ← hsettings .wifi_ssid (by decide), hssid] at hstored
  revert hstored
  decide

end Miso.Config
