import Miso.Config.Strings
import Miso.Config.Vouching

/-!
# The settings of the next boot

One boot parses `CONFIG.TXT` and stores the settings; the next one finds the hash in the NVM and loads
them.

* `fileValue` — the value that a file gives to a setting, from the copies it leads to;
* `Loads` — what `load_config_from_nvm` reads when all its calls succeed;
* `cached_same_iff` — the `config_get_*` return the same strings after both boots exactly if the file
  gives no value to `config.uri`, whose key is in neither of the lists of `config.zig`.

The buffers are modelled one by one: what a value that is longer than its buffer writes over the
neighbours is not part of the model.
-/

namespace Miso.Config

open Zig Boot

/-! ## Strings -/

/-- The string that a `config_get_*` points to. -/
def config_get (L : Libs) (g : Buffers) (k : app_nvm_keys) : List UInt8 := cstr (g k ++ L.behind g k)

/-- The value of `k` behind a copy, if it was `v` before. -/
def Copy.value (text : List UInt8) (k : app_nvm_keys) (v : List UInt8) : Copy → List UInt8
  | .copyString dest _ start src_len =>
    if dest = k then cstr ((text.drop start).take src_len) else v
  | .strncpy dest start src_len =>
    if dest = k ∧ 0 < src_len then cstr ((text.drop start).take src_len) else v

/-- The value that the copies give to a setting: the last one counts. -/
def fileValue (text : List UInt8) (k : app_nvm_keys) (cs : List Copy) : List UInt8 :=
  cs.foldl (Copy.value text k) []

/-- A buffer with a first byte, whose string is empty exactly if `v` is. -/
structure Holding (v area : List UInt8) : Prop where
  ne_nil : area ≠ []
  empty : cstr area = [] ↔ v = []

theorem strncpy_ne_nil {dest : List UInt8} (h : dest ≠ []) (src : List UInt8) (n : Nat) :
    strncpy dest src n ≠ [] := by
  apply List.ne_nil_of_length_pos
  have hpos := List.length_pos_iff.mpr h
  rw [strncpy_length]
  omega

theorem strncpy_zero (dest src : List UInt8) : strncpy dest src 0 = dest := by
  simp [strncpy, cstr]

/-- A copy of `n` bytes, of which `m` are made. -/
theorem Holding.strncpy {dest src : List UInt8} {m n : Nat} (h : dest ≠ []) (hm : 0 < m)
    (hn : 0 < n) : Holding (cstr (src.take n)) (Zig.strncpy dest src m) := by
  refine ⟨strncpy_ne_nil h src m, ?_⟩
  rw [cstr_strncpy_eq_nil hm, cstr_take_eq_nil hn]

theorem Copy.apply_holding (text : List UInt8) {g : Buffers} {k : app_nvm_keys} {v : List UInt8}
    (hk : 0 < bufferSize k) (h : Holding v (g k)) {c : Copy} (hsized : c.Sized) :
    Holding (c.value text k v) (c.apply text g k) := by
  cases c with
  | copyString dest dest_len start src_len =>
    obtain rfl : dest_len = bufferSize dest := hsized
    unfold Copy.value Copy.apply
    simp only []
    by_cases hdest : dest = k
    · subst hdest
      rw [if_pos rfl, Buffers.set_self]
      unfold Config.copyString
      simp only []
      have hzero : zeroFill (g dest) (bufferSize dest) ≠ [] := by
        apply List.ne_nil_of_length_pos
        rw [zeroFill_length]
        omega
      by_cases hlen : src_len = 0
      · subst hlen
        rw [if_neg (Nat.not_lt_zero _), strncpy_zero]
        refine ⟨hzero, ?_⟩
        rw [List.take_zero]
        exact iff_of_true (cstr_replicate_zero _ _ hk) rfl
      · apply Holding.strncpy hzero
        · split <;> omega
        · omega
    · rw [if_neg hdest, Buffers.set_of_ne (Ne.symm hdest)]
      exact h
  | strncpy dest start src_len =>
    unfold Copy.value Copy.apply
    simp only []
    by_cases hdest : dest = k
    · subst hdest
      rw [Buffers.set_self]
      by_cases hlen : 0 < src_len
      · rw [if_pos ⟨rfl, hlen⟩]
        exact Holding.strncpy h.ne_nil hlen hlen
      · obtain rfl : src_len = 0 := by omega
        rw [if_neg fun hc => hlen hc.2, strncpy_zero]
        exact h
    · rw [if_neg fun hc => hdest hc.1, Buffers.set_of_ne (Ne.symm hdest)]
      exact h

theorem applyAll_holding (text : List UInt8) {k : app_nvm_keys} (hk : 0 < bufferSize k)
    {cs : List Copy} {g : Buffers} {v : List UInt8} (h : Holding v (g k))
    (hsized : ∀ c ∈ cs, c.Sized) :
    Holding (cs.foldl (Copy.value text k) v) (applyAll text g cs k) := by
  induction cs generalizing g v with
  | nil => exact h
  | cons c cs ih =>
    apply ih (Copy.apply_holding text hk h (hsized c List.mem_cons_self))
    exact fun d hd => hsized d (List.mem_cons_of_mem c hd)

/-- The string of a setting is empty exactly if the value in the file is. -/
theorem fileValue_empty (L : Libs) (text : List UInt8) {k : app_nvm_keys} (hk : k ∈ buffers)
    {g : Buffers} (hg : g k = zeroed k) :
    config_get L (applyAll text g (L.copies text)) k = [] ↔ fileValue text k (L.copies text) = [] := by
  have hpos := bufferSize_pos hk
  have hzero : Holding [] (g k) := by
    rw [hg]
    refine ⟨fun hnil => ?_, iff_of_true ?_ rfl⟩
    · have hlen := congrArg List.length hnil
      rw [zeroed, List.length_replicate, List.length_nil] at hlen
      omega
    · have hempty := cstr_replicate_zero (bufferSize k) [] hpos
      rwa [List.append_nil] at hempty
  have hall := applyAll_holding text hpos hzero (libs_copies_sized L text)
  unfold config_get
  rw [cstr_append_eq_nil hall.ne_nil]
  exact hall.empty

/-! ## Loading -/

/-- The two reads of a string that is there. -/
theorem readCString_run {key : app_nvm_keys} {bytes : List UInt8} {w : Device}
    (hn : w.nvm key = some (.data bytes))
    (hpass : survey w.faults [true, true] w.tick = .passed) :
    ∃ g, readCString key w = (.ok (), { w with tick := w.tick + 2, config := g }) ∧
      g key = bytes ++ (w.config key).drop bytes.length ∧ ∀ k, k ≠ key → g k = w.config k := by
  have hboth : survey w.faults ([true] ++ [true]) w.tick = .passed := hpass
  obtain ⟨hfirst, hsecond⟩ := survey_append_passed.mp hboth
  have hopen := (Schedule.checked (e := fun _ => .generic_error) (fun _ => rfl) w).run hfirst
  have hread := (Schedule.checked (e := fun _ => .generic_error) (fun _ => rfl)
    (w.seek (w.tick + 1))).run hsecond
  have hget : (Prog.get : BootM Device) (w.seek (w.tick + 1)) =
      (.ok (w.seek (w.tick + 1)), w.seek (w.tick + 1)) := rfl
  refine ⟨fun k => if k = key then bytes ++ (w.config k).drop bytes.length else w.config k,
    ?_, if_pos rfl, fun k hk => if_neg hk⟩
  unfold readCString
  apply (Prog.bind_ok _ hopen).trans
  apply (Prog.bind_ok _ hget).trans
  simp only [Device.seek_nvm, hn]
  exact Prog.bind_ok _ hread

theorem loadKeys_run {v : app_nvm_keys → List UInt8} (keys : List app_nvm_keys) {w : Device}
    (hn : ∀ k ∈ keys, w.nvm k = some (.data (v k)))
    (hpass : survey w.faults (List.replicate (2 * keys.length) true) w.tick = .passed) :
    ∃ t g, keys.foldr (fun key rest => do (readCString key).orIgnore; rest) (pure () : BootM Unit) w =
        (.ok (), { w with tick := t, config := g }) ∧
      ∀ k, k ∈ keys ∨ v k <+: w.config k → v k <+: g k := by
  induction keys generalizing w with
  | nil =>
    refine ⟨w.tick, w.config, rfl, ?_⟩
    rintro k (hk | hk)
    · cases hk
    · exact hk
  | cons key keys ih =>
    have hcalls : List.replicate (2 * (key :: keys).length) true =
        [true, true] ++ List.replicate (2 * keys.length) true := by
      rw [List.length_cons, Nat.mul_succ, Nat.add_comm, List.replicate_add]
      rfl
    rw [hcalls] at hpass
    obtain ⟨hkey, hkeys⟩ := survey_append_passed.mp hpass
    obtain ⟨g, hrun, hread, hother⟩ := readCString_run (hn key List.mem_cons_self) hkey
    have hfirst : (readCString key).orIgnore w = (.ok (), { w with tick := w.tick + 2, config := g }) := by
      unfold Prog.orIgnore Prog.tryCatch
      rw [hrun]
    obtain ⟨t, g', hrest, hprefix⟩ := ih (w := { w with tick := w.tick + 2, config := g })
      (fun k hk => hn k (List.mem_cons_of_mem key hk)) hkeys
    refine ⟨t, g', (Prog.bind_ok _ hfirst).trans hrest, ?_⟩
    intro k hk
    apply hprefix k
    by_cases heq : k = key
    · subst heq
      refine .inr ?_
      show v k <+: g k
      rw [hread]
      exact List.prefix_append _ _
    · obtain hk | hk := hk
      · exact .inl ((List.mem_cons.mp hk).resolve_left heq)
      · refine .inr ?_
        show v k <+: g k
        rw [hother k heq]
        exact hk

/-! ## What a step does to the buffers -/

/-- Before `load_config_from_nvm` in the application. -/
def Pc.isEarly : Pc → Bool
  | .main => true
  | .init => true
  | .mount => true
  | .loadConfig => true
  | _ => false

/-- Behind `load_config_from_nvm`, with no file parsed. -/
def Pc.isRead : Pc → Bool
  | .openConfig => true
  | .started .unchanged => true
  | _ => false

section Step

variable {X : Externs (List UInt8)} {L : Libs} (fuel : Nat)

/-- A call with one position behind it. -/
theorem nextPc_const_false (P : Pc → Bool) (m : ConfigM Unit) {pc : Pc} (hpc : P pc = false)
    (hmain : P .bootMain = false) (w : Device) :
    P (nextPc ((m >>= fun _ => pure pc : ConfigM Pc) w).1) = false :=
  nextPc_bind_pure (fun pc => P pc = false) m (fun _ => pc) w (fun _ => hpc) hmain

/-- The bootloader stays by itself until it jumps. -/
theorem bootStep_boot {pc : Boot.Pc} (h : pc ≠ .jump) (w : Device) :
    nextPc (bootStep X L fuel (.boot pc) w).1 = .bootMain ∨
      ∃ pc', nextPc (bootStep X L fuel (.boot pc) w).1 = .boot pc' := by
  have hcall : bootStep X L fuel (.boot pc) = (call (taskStep X fuel pc) >>=
      fun pc => pure (.boot pc) : ConfigM Pc) := by
    cases pc with
    | jump => exact absurd rfl h
    | _ => rfl
  rw [hcall]
  exact nextPc_bind_pure (fun pc => pc = .bootMain ∨ ∃ pc', pc = .boot pc') _ _ w
    (fun pc' => .inr ⟨pc', rfl⟩) (.inl rfl)

/-- The RAM is as the application found it until `load_config_from_nvm`. -/
theorem bootStep_early {pc : Pc} {w : Device}
    (h : (nextPc (bootStep X L fuel pc w).1).isEarly = true) :
    (bootStep X L fuel pc w).2.config = zeroed ∨
      pc.isEarly = true ∧ (bootStep X L fuel pc w).2.config = w.config := by
  have hother (hfalse : (nextPc (bootStep X L fuel pc w).1).isEarly = false) :
      (bootStep X L fuel pc w).2.config = zeroed ∨
        pc.isEarly = true ∧ (bootStep X L fuel pc w).2.config = w.config := by
    rw [hfalse] at h
    cases h
  cases pc with
  | bootMain => exact hother (nextPc_const_false Pc.isEarly _ rfl rfl w)
  | boot pc =>
    by_cases hjump : pc = .jump
    · subst hjump
      exact .inl rfl
    · obtain hnext | ⟨pc', hnext⟩ := bootStep_boot (X := X) (L := L) fuel hjump w
      · exact hother (congrArg Pc.isEarly hnext)
      · exact hother (congrArg Pc.isEarly hnext)
  | main => exact .inr ⟨rfl, (bootStep_main X fuel w).config⟩
  | init => exact .inr ⟨rfl, (bootStep_init X fuel w).config⟩
  | mount => exact .inr ⟨rfl, (bootStep_mount X fuel w).config⟩
  | loadConfig => exact hother (nextPc_const_false Pc.isEarly _ rfl rfl w)
  | openConfig =>
    apply hother
    rw [bootStep_openConfig_eq]
    apply nextPc_bind_pure (fun pc => pc.isEarly = false) _ _ w _ rfl
    intro r
    obtain err | hash | hash := r <;> rfl
  | storeConfig hash =>
    apply hother
    rw [bootStep_storeConfig_eq]
    apply nextPc_bind_pure (fun pc => pc.isEarly = false) _ _ w _ rfl
    intro r
    cases r <;> rfl
  | started config => exact hother rfl

/-- The settings are those that `load_config_from_nvm` has read. -/
theorem bootStep_read {pc : Pc} {w : Device}
    (h : (nextPc (bootStep X L fuel pc w).1).isRead = true) :
    pc = .loadConfig ∨ pc.isRead = true ∧ (bootStep X L fuel pc w).2.config = w.config := by
  have hother (hfalse : (nextPc (bootStep X L fuel pc w).1).isRead = false) :
      pc = .loadConfig ∨ pc.isRead = true ∧ (bootStep X L fuel pc w).2.config = w.config := by
    rw [hfalse] at h
    cases h
  cases pc with
  | bootMain => exact hother (nextPc_const_false Pc.isRead _ rfl rfl w)
  | boot pc =>
    by_cases hjump : pc = .jump
    · subst hjump
      exact hother rfl
    · obtain hnext | ⟨pc', hnext⟩ := bootStep_boot (X := X) (L := L) fuel hjump w
      · exact hother (congrArg Pc.isRead hnext)
      · exact hother (congrArg Pc.isRead hnext)
  | main => exact hother (nextPc_const_false Pc.isRead _ rfl rfl w)
  | init => exact hother (nextPc_const_false Pc.isRead _ rfl rfl w)
  | mount => exact hother (nextPc_const_false Pc.isRead _ rfl rfl w)
  | loadConfig => exact .inl rfl
  | openConfig =>
    refine .inr ⟨rfl, ?_⟩
    have hcheck := checkConfigFile_spec X w (L := L)
    rw [bootStep_openConfig]
    rw [bootStep_openConfig_eq] at h
    change (nextPc (Prog.seq (Prog.attempt _) _ w).1).isRead = true at h
    revert h
    unfold Prog.seq Prog.attempt
    unfold wp at hcheck
    rcases hrun : checkConfigFile X L w with ⟨x, w'⟩
    rw [hrun] at hcheck
    intro h
    cases x with
    | ok r =>
      cases r with
      | none =>
        obtain ⟨t, rfl⟩ := hcheck.2.1
        rfl
      | some hash => cases h
    | err e => cases h
    | trap => cases h
    | halt => cases h
  | storeConfig hash =>
    apply hother
    rw [bootStep_storeConfig_eq]
    apply nextPc_bind_pure (fun pc => pc.isRead = false) _ _ w _ rfl
    intro r
    cases r <;> rfl
  | started config => exact .inr ⟨h, rfl⟩

end Step

/-! ## Histories -/

variable {X : Externs (List UInt8)} {L : Libs}

/-- A step that does not lead back to the beginning has returned. -/
theorem after_dev {s : Life} {x : Exit config_error Pc} {w : Device} (h : nextPc x ≠ .bootMain) :
    (s.after L x w).dev = w := by
  cases x with
  | ok pc => rfl
  | err e => exact absurd rfl h
  | trap => exact absurd rfl h
  | halt => exact absurd rfl h

/-- A buffer that is in no list of `config.zig` is as the application found it. -/
structure Clear (s : Life) : Prop where
  early : s.pc.isEarly = true → s.dev.config = zeroed
  read : s.pc.isRead = true → ∀ k, k ∉ configKeys → s.dev.config k = zeroed k

/-- What an increment does. -/
theorem increment_config {s : Life} {key : app_nvm_keys} (h : key ∈ counterKeys) :
    (((boots X L).next s (.increment key)).pc = s.pc ∧
      ((boots X L).next s (.increment key)).dev.config = s.dev.config) ∨
      ((boots X L).next s (.increment key)).pc = .bootMain := by
  have hkeep := (incrementCounter_apart h s.dev).config
  rw [← orIgnore_state] at hkeep
  obtain hnext | hnext := next_increment_cases X L s key
  · rw [hnext]
    exact .inl ⟨rfl, hkeep⟩
  · rw [hnext]
    exact .inr rfl

theorem Clear.step {s : Life} (hs : Clear s) (fuel : Nat) :
    Clear ((boots X L).next s (.step fuel)) := by
  have hdev {P : Pc → Bool} (hP : P .bootMain = false)
      (h : P (nextPc (bootStep X L fuel s.pc s.dev).1) = true) :
      ((boots X L).next s (.step fuel)).dev = (bootStep X L fuel s.pc s.dev).2 := by
    apply after_dev
    intro hmain
    rw [hmain, hP] at h
    cases h
  constructor
  · intro hearly
    rw [hdev (P := Pc.isEarly) rfl hearly]
    obtain hzero | ⟨hpc, hsame⟩ := bootStep_early fuel hearly
    · exact hzero
    · rw [hsame]
      exact hs.early hpc
  · intro hread k hk
    rw [hdev (P := Pc.isRead) rfl hread]
    obtain hpc | ⟨hpc, hsame⟩ := bootStep_read fuel hread
    · have hload : Loading s.dev (bootStep X L fuel .loadConfig s.dev).2 :=
        bootStep_loadConfig X fuel s.dev
      have hzero := hs.early (by rw [hpc]; rfl)
      obtain hsame | ⟨hmem, -⟩ := hload.config k
      · rw [hpc, hsame, hzero]
      · exact absurd hmem hk
    · rw [hsame]
      exact hs.read hpc k hk

theorem Clear.next {s : Life} {i : Input} (hs : Clear s) (hi : s.Enabled i) :
    Clear ((boots X L).next s i) := by
  cases i with
  | step fuel => exact hs.step fuel
  | reset sd =>
    constructor
    · exact fun h => by cases h
    · exact fun h => by cases h
  | increment key =>
    obtain ⟨hpc, hconfig⟩ | hpc := increment_config (X := X) (L := L) hi.2
    · constructor
      · rw [hpc, hconfig]
        exact hs.early
      · rw [hpc, hconfig]
        exact hs.read
    · constructor
      · rw [hpc]
        exact fun h => by cases h
      · rw [hpc]
        exact fun h => by cases h

theorem clear_reaches {C : Life → Input → Prop} {s₀ s : Life} (h₀ : Clear s₀)
    (h : (boots X L).Reaches C s₀ s) : Clear s :=
  h.invariant (I := Clear) h₀ fun _ _ hs hi _ => hs.next hi

/-- At `store_config_in_nvm`. -/
def Pc.isStore : Pc → Bool
  | .storeConfig _ => true
  | _ => false

/-- Nothing is stored, and the reads of `load_config_from_nvm` in the application succeed. -/
def Cached (s : Life) : Input → Prop
  | .step _ => s.pc.isStore = false ∧ (s.pc = .loadConfig →
      survey s.dev.faults (List.replicate (2 * configKeys.length) true) s.dev.tick = .passed)
  | _ => True

instance (s : Life) : ∀ i, Decidable (Cached s i)
  | .step _ => inferInstanceAs (Decidable (_ ∧ _))
  | .reset _ => isTrue trivial
  | .increment _ => isTrue trivial

/-- The settings in the NVM are the strings `v`, and so are those that have been read from it. -/
structure Kept (v : app_nvm_keys → List UInt8) (s : Life) : Prop where
  nvm : ∀ k ∈ configKeys, s.dev.nvm k = some (.data (v k))
  read : s.pc.isRead = true → ∀ k ∈ configKeys, v k <+: s.dev.config k

section Kept

variable {v : app_nvm_keys → List UInt8}

theorem Kept.counting {s s' : Life} (hs : Kept v s) (hn : Counting s.dev.nvm s'.dev.nvm)
    (hread : s'.pc.isRead = true → s.pc.isRead = true ∧ s'.dev.config = s.dev.config) :
    Kept v s' := by
  constructor
  · intro k hk
    rw [hn.setting (.inl hk)]
    exact hs.nvm k hk
  · intro hpc
    obtain ⟨hpc', hconfig⟩ := hread hpc
    rw [hconfig]
    exact hs.read hpc'

/-- `load_config_from_nvm` reads all settings. -/
theorem loadConfig_read {w : Device} (fuel : Nat) (hn : ∀ k ∈ configKeys, w.nvm k = some (.data (v k)))
    (hpass : survey w.faults (List.replicate (2 * configKeys.length) true) w.tick = .passed) :
    ∀ k ∈ configKeys, v k <+: (bootStep X L fuel .loadConfig w).2.config k := by
  obtain ⟨t, g, hrun, hprefix⟩ := loadKeys_run configKeys hn hpass
  have hload : load_config_from_nvm w = (.ok (), { w with tick := t, config := g }) := hrun
  have hstate : (bootStep X L fuel .loadConfig w).2 = { w with tick := t, config := g } := by
    rw [show bootStep X L fuel .loadConfig = (call load_config_from_nvm.orIgnore >>=
      fun _ => pure .openConfig : ConfigM Pc) from rfl, bind_pure_state]
    have hcall := Prog.mapErr_state config_error.device load_config_from_nvm.orIgnore w
    rw [orIgnore_state, hload] at hcall
    exact hcall
  intro k hk
  rw [hstate]
  exact hprefix k (.inl hk)

theorem Kept.step {s : Life} (hs : Kept v s) (fuel : Nat) (hC : Cached s (.step fuel)) :
    Kept v ((boots X L).next s (.step fuel)) := by
  obtain ⟨hstore, hpass⟩ := hC
  have hnvm : ((boots X L).next s (.step fuel)).dev.nvm = (bootStep X L fuel s.pc s.dev).2.nvm :=
    after_nvm s _ _
  obtain ⟨heffect, -⟩ := bootStep_effect (L := L) X fuel s.pc s.dev
  constructor
  · intro k hk
    rw [hnvm]
    generalize (bootStep X L fuel s.pc s.dev).2.nvm = n at heffect
    generalize hpc : s.pc = pc at heffect
    generalize hdev : s.dev = w at heffect
    cases heffect with
    | counting _ hcount =>
      rw [hcount.setting (.inl hk), ← hdev]
      exact hs.nvm k hk
    | init _ hless _ =>
      have hnine : 9 ≤ countObjects s.dev.nvm := by
        apply settings_counted
        intro j hj
        rw [hs.nvm j hj]
        rfl
      rw [← hdev] at hless
      omega
    | store _ =>
      rw [hpc] at hstore
      cases hstore
  · intro hread k hk
    have hdev : ((boots X L).next s (.step fuel)).dev = (bootStep X L fuel s.pc s.dev).2 := by
      apply after_dev
      intro hmain
      have hfalse : (nextPc (bootStep X L fuel s.pc s.dev).1).isRead = true := hread
      rw [hmain] at hfalse
      cases hfalse
    rw [hdev]
    obtain hpc | ⟨hpc, hsame⟩ := bootStep_read fuel hread
    · rw [hpc]
      exact loadConfig_read fuel hs.nvm (hpass hpc) k hk
    · rw [hsame]
      exact hs.read hpc k hk

theorem Kept.next {s : Life} {i : Input} (hs : Kept v s) (hi : s.Enabled i) (hC : Cached s i) :
    Kept v ((boots X L).next s i) := by
  cases i with
  | step fuel => exact hs.step fuel hC
  | reset sd => exact hs.counting (.refl _) fun h => by cases h
  | increment key =>
    obtain ⟨hcount, -⟩ := next_increment (X := X) (L := L) s hi.2
    apply hs.counting hcount
    intro hread
    obtain ⟨hpc, hconfig⟩ | hpc := increment_config (X := X) (L := L) hi.2
    · rw [hpc] at hread
      exact ⟨hread, hconfig⟩
    · rw [hpc] at hread
      cases hread

end Kept

/-! ## Two boots -/

/-- From `open_config_file` on, a boot parses the file and stores the settings. -/
structure Parses (X : Externs (List UInt8)) (L : Libs) (text : List UInt8) (a a' : Life) : Prop where
  pc : a.pc = .openConfig
  file : a.dev.sd .config_file_name = some text
  steps : ∃ f f', a' = (boots X L).next ((boots X L).next a (.step f)) (.step f') ∧
    ((boots X L).next a (.step f)).dev.config = applyAll text a.dev.config (L.copies text)
  stored : a'.pc = .started .stored

/-- `open_config_file` stores nothing by itself. -/
theorem openConfig_ne_stored (fuel : Nat) (w : Device) :
    nextPc (bootStep X L fuel .openConfig w).1 ≠ .started .stored := by
  rw [bootStep_openConfig_eq]
  apply nextPc_bind_pure (fun pc => pc ≠ .started .stored) _ _ w
  · intro r
    obtain err | hash | hash := r <;> exact fun h => by cases h
  · exact fun h => by cases h

/-- The settings are stored by `storeConfig`. -/
theorem stored_from {fuel : Nat} {pc : Pc} {w : Device} (hpc : pc ≠ .started .stored)
    (h : nextPc (bootStep X L fuel pc w).1 = .started .stored) :
    (bootStep X L fuel pc w).2.config = w.config ∧
      ∀ k ∈ configKeys, (bootStep X L fuel pc w).2.nvm k =
        some (.data (config_get L w.config k ++ [0])) := by
  have hconst (m : ConfigM Unit) (pc' : Pc) (hpc' : pc' ≠ .started .stored) :
      nextPc ((m >>= fun _ => pure pc' : ConfigM Pc) w).1 ≠ .started .stored :=
    nextPc_bind_pure (fun pc => pc ≠ .started .stored) m (fun _ => pc') w (fun _ => hpc') nofun
  cases pc with
  | bootMain => exact absurd h (hconst _ _ nofun)
  | boot pc =>
    by_cases hjump : pc = .jump
    · subst hjump
      cases h
    · obtain hnext | ⟨pc', hnext⟩ := bootStep_boot (X := X) (L := L) fuel hjump w
      · rw [hnext] at h
        cases h
      · rw [hnext] at h
        cases h
  | main => exact absurd h (hconst _ _ nofun)
  | init => exact absurd h (hconst _ _ nofun)
  | mount => exact absurd h (hconst _ _ nofun)
  | loadConfig => exact absurd h (hconst _ _ nofun)
  | openConfig => exact absurd h (openConfig_ne_stored fuel w)
  | started config =>
    cases h
    exact absurd rfl hpc
  | storeConfig hash =>
    have hspec := storeConfig_spec L hash w
    rw [bootStep_storeConfig]
    rw [bootStep_storeConfig_eq] at h
    change nextPc (Prog.seq (Prog.attempt (Prog.mapErr _ _)) _ w).1 = .started .stored at h
    revert h
    unfold Prog.seq Prog.attempt Prog.mapErr
    unfold wp at hspec
    rcases hrun : storeConfig L hash w with ⟨x, w'⟩
    rw [hrun] at hspec
    intro h
    cases x with
    | ok u =>
      obtain ⟨hstoring, hstored⟩ := hspec
      refine ⟨?_, (isStored_iff.mp hstored).1⟩
      obtain ⟨t, n, rfl⟩ := hstoring.rest
      rfl
    | err e => cases h
    | trap => cases h
    | halt => cases h

theorem Parses.dev {text : List UInt8} {a a' : Life} (h : Parses X L text a a') :
    a'.dev.config = applyAll text a.dev.config (L.copies text) ∧
      ∀ k ∈ configKeys, a'.dev.nvm k = some (.data (config_get L a'.dev.config k ++ [0])) := by
  obtain ⟨f, f', rfl, hparsed⟩ := h.steps
  have hpc := h.stored
  have hfirst : ((boots X L).next a (.step f)).pc ≠ .started .stored := by
    show nextPc (bootStep X L f a.pc a.dev).1 ≠ .started .stored
    rw [h.pc]
    exact openConfig_ne_stored f a.dev
  generalize (boots X L).next a (.step f) = a₁ at *
  have hnext : nextPc (bootStep X L f' a₁.pc a₁.dev).1 = .started .stored := hpc
  have hdev : ((boots X L).next a₁ (.step f')).dev = (bootStep X L f' a₁.pc a₁.dev).2 := by
    apply after_dev
    rw [hnext]
    exact nofun
  obtain ⟨hconfig, hnvm⟩ := stored_from hfirst hnext
  rw [hdev, hconfig]
  exact ⟨hparsed, hnvm⟩

theorem getters_cases {k : app_nvm_keys} (h : k ∈ getters) : k ∈ configKeys ∨ k = .config_uri := by
  revert h
  cases k <;> decide

/-- A setting that has been read from its string. -/
theorem config_get_of_prefix {g : Buffers} {k : app_nvm_keys} {v : List UInt8} (hv : 0 ∉ v)
    (h : v ++ [0] <+: g k) : config_get L g k = v := by
  obtain ⟨rest, hrest⟩ := h
  unfold config_get
  rw [← hrest, List.append_assoc, List.append_assoc]
  exact cstr_append_zero hv _

/-- **When the next boot has the same settings.**  A boot parses the file and stores the settings; a
    later one finds the hash in the NVM, and nothing has been stored in between.  All `config_get_*`
    return the same strings after both exactly if the file gives no value to `config.uri`. -/
theorem cached_same_iff (X : Externs (List UInt8)) (L : Libs) {text : List UInt8}
    {s₀ a a' b : Life} (h₀ : Fresh s₀) (ha : (boots X L).Reaches System.Free s₀ a)
    (hparse : Parses X L text a a') (hb : (boots X L).Reaches Cached a' b)
    (hpc : b.pc = .started .unchanged) :
    (∀ k ∈ getters, config_get L b.dev.config k = config_get L a'.dev.config k) ↔
      fileValue text .config_uri (L.copies text) = [] := by
  have hfresh : Clear s₀ := by
    constructor
    · rw [h₀.pc]
      exact nofun
    · rw [h₀.pc]
      exact nofun
  have hclear := clear_reaches hfresh ha
  obtain ⟨hconfig, hnvm⟩ := hparse.dev
  have hread : b.pc.isRead = true := by rw [hpc]; rfl
  have hkept : Kept (fun k => config_get L a'.dev.config k ++ [0]) b := by
    refine hb.invariant (I := Kept _) ⟨hnvm, ?_⟩ fun _ _ hs hi hC => hs.next hi hC
    rw [hparse.stored]
    exact nofun
  have hclear' : Clear a' := by
    constructor
    · rw [hparse.stored]
      exact nofun
    · rw [hparse.stored]
      exact nofun
  have hsame : ∀ k ∈ configKeys, config_get L b.dev.config k = config_get L a'.dev.config k :=
    fun k hk => config_get_of_prefix (zero_notMem_cstr _) (hkept.read hread k hk)
  have hafter : config_get L b.dev.config .config_uri = [] := by
    unfold config_get
    rw [(clear_reaches hclear' hb).read hread .config_uri (by decide)]
    exact cstr_replicate_zero _ _ (by decide)
  have hbefore : config_get L a'.dev.config .config_uri = [] ↔
      fileValue text .config_uri (L.copies text) = [] := by
    rw [hconfig]
    apply fileValue_empty L text (by decide)
    exact hclear.read (by rw [hparse.pc]; rfl) .config_uri (by decide)
  rw [← hbefore]
  constructor
  · intro hall
    rw [← hall .config_uri (by decide)]
    exact hafter
  · intro hempty k hk
    obtain hk | rfl := getters_cases hk
    · exact hsame k hk
    · rw [hafter, hempty]

/-! ### Sample boots -/

/-- A buffer that `open_config_file` has changed has been written from the file. -/
theorem parsed_of_ne {a : Life} {text : List UInt8} (f : Nat) (hpc : a.pc = .openConfig)
    (hfile : a.dev.sd .config_file_name = some text)
    (hmain : ((boots X L).next a (.step f)).pc ≠ .bootMain) {k : app_nvm_keys}
    (hne : ((boots X L).next a (.step f)).dev.config k ≠ a.dev.config k) :
    ((boots X L).next a (.step f)).dev.config = applyAll text a.dev.config (L.copies text) := by
  have hdev : ((boots X L).next a (.step f)).dev = (checkConfigFile X L a.dev).2 := by
    rw [← bootStep_openConfig X f, ← hpc]
    exact after_dev hmain
  rw [hdev] at hne ⊢
  obtain hsame | ⟨text', hfile', hparsed⟩ := (checkConfigFile_spec X a.dev (L := L)).state.config
  · exact absurd (congrFun hsame k) hne
  · rw [hfile] at hfile'
    cases hfile'
    exact hparsed

/-- The device after `n` steps without a failing call. -/
def Life.boot (L : Libs) (text : List UInt8) (n : Nat) : Life :=
  (boots homeExterns L).run (.sample text fun _ => .none) (List.replicate n (.step 1))

/-- The device after the next boot with the same card. -/
def Life.reboot (L : Libs) (text : List UInt8) : Life :=
  (boots homeExterns L).run (.boot L text 10)
    (.reset (sampleCard text) :: List.replicate 9 (.step 1))

theorem cached_same_home :
    (∀ k ∈ getters, config_get homeLibs (Life.reboot homeLibs homeText).dev.config k =
        config_get homeLibs (Life.boot homeLibs homeText 10).dev.config k) ↔
      fileValue homeText .config_uri (homeLibs.copies homeText) = [] := by
  have hparse : Parses homeExterns homeLibs homeText (.boot homeLibs homeText 8)
      (.boot homeLibs homeText 10) := by
    refine ⟨by decide +kernel, by decide +kernel, ⟨1, 1, rfl, ?_⟩, by decide +kernel⟩
    exact parsed_of_ne 1 (k := .wifi_ssid) (by decide +kernel) (by decide +kernel)
      (by decide +kernel) (by decide +kernel)
  exact cached_same_iff homeExterns homeLibs (Life.sample_fresh homeText _)
    (System.reaches_run (by decide +kernel)) hparse (System.reaches_run (by decide +kernel))
    (by decide +kernel)

/-- A file with a `config.uri`. -/
def uriText : List UInt8 := bytesOf "\x7b\"config\":\x7b\"uri\":\"http://c\"\x7d\x7d"

/-- The libraries on `uriText`. -/
def uriLibs : Libs := .sample fun text =>
  if text = uriText then some
    [⟨.JSMN_OBJECT, 0, 29, -1⟩, ⟨.JSMN_STRING, 2, 8, 0⟩, ⟨.JSMN_OBJECT, 10, 28, 1⟩,
     ⟨.JSMN_STRING, 12, 15, 2⟩, ⟨.JSMN_STRING, 18, 26, 3⟩]
  else none

/-- `config.uri` is lost with the next boot. -/
theorem cached_uri_lost : ¬ ∀ (X : Externs (List UInt8)) (L : Libs) (text : List UInt8)
    (s₀ a a' b : Life), Fresh s₀ → (boots X L).Reaches System.Free s₀ a → Parses X L text a a' →
    (boots X L).Reaches Cached a' b → b.pc = .started .unchanged →
    (∀ c ∈ L.copies text, c.Short) →
    ∀ k ∈ getters, config_get L b.dev.config k = config_get L a'.dev.config k := by
  intro hall
  have hparse : Parses homeExterns uriLibs uriText (.boot uriLibs uriText 8)
      (.boot uriLibs uriText 10) := by
    refine ⟨by decide +kernel, by decide +kernel, ⟨1, 1, rfl, ?_⟩, by decide +kernel⟩
    exact parsed_of_ne 1 (k := .config_uri) (by decide +kernel) (by decide +kernel)
      (by decide +kernel) (by decide +kernel)
  have huri := hall homeExterns uriLibs uriText _ _ _ (.reboot uriLibs uriText)
    (Life.sample_fresh uriText _) (System.reaches_run (by decide +kernel)) hparse
    (System.reaches_run (by decide +kernel)) (by decide +kernel) (by decide +kernel) .config_uri
    (by decide)
  revert huri
  decide +kernel

end Miso.Config
