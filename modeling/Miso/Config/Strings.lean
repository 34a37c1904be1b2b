import Miso.Config.Steps

/-!
# Settings are terminated strings

* `copies_sized` — every copy is made with the size of its buffer;
* `strings_fit` — every buffer is terminated within its size, nothing has been written behind one, and every
  stored string fits the buffer it is read back into, in every history in which the values of the files
  that are opened are shorter than their buffers;
* `strings_overrun` — a value of exactly the size of its buffer is not terminated.
-/

namespace Miso.Config

open Zig Boot

variable {X : Externs (List UInt8)} {L : Libs}

/-! ## Copies -/

def Copy.dest : Copy → app_nvm_keys
  | .copyString dest _ _ _ => dest
  | .strncpy dest _ _ => dest

def Copy.src_len : Copy → Nat
  | .copyString _ _ _ src_len => src_len
  | .strncpy _ _ src_len => src_len

/-- The value is shorter than the buffer. -/
def Copy.Short (c : Copy) : Prop := c.src_len < bufferSize c.dest

instance (c : Copy) : Decidable c.Short := inferInstanceAs (Decidable (_ < _))

/-- The size that is passed to `copyString` is that of the buffer. -/
def Copy.Sized : Copy → Prop
  | .copyString dest dest_len _ _ => dest_len = bufferSize dest
  | .strncpy .. => True

/-- A destination comes with its size. -/
def DestSized (d : Option (app_nvm_keys × Nat)) : Prop := ∀ p ∈ d, p.2 = bufferSize p.1

theorem destSized_none : DestSized none := nofun

theorem destSized_destination (k : app_nvm_keys) : DestSized (destination k) := by
  intro p hp
  cases hp
  rfl

theorem wifiDest_sized (json_key : List UInt8) : DestSized (wifiDest json_key) := by
  unfold wifiDest
  split
  · intro p hp
    cases hp
    rfl
  · split
    · exact destSized_destination _
    · exact destSized_none

theorem lwm2mEntry_sized (json_key : List UInt8) (i : Nat) (k : Keys) :
    DestSized (lwm2mEntry json_key i k).2 := by
  unfold lwm2mEntry
  repeat' split
  all_goals first | exact destSized_destination _ | exact destSized_none

theorem mqttEntry_sized (json_key : List UInt8) (i : Nat) (k : Keys) :
    DestSized (mqttEntry json_key i k).2 := by
  unfold mqttEntry
  repeat' split
  all_goals first | exact destSized_destination _ | exact destSized_none

theorem pskDest_sized (json_key : List UInt8) (psk_id psk_key : app_nvm_keys) :
    DestSized (pskDest json_key psk_id psk_key) := by
  unfold pskDest
  repeat' split
  all_goals first | exact destSized_destination _ | exact destSized_none

theorem httpDest_sized (json_key : List UInt8) : DestSized (httpDest json_key) := by
  unfold httpDest
  simp only []
  repeat' split
  all_goals first | exact destSized_destination _ | exact destSized_none

theorem configDest_sized (json_key : List UInt8) : DestSized (configDest json_key) := by
  unfold configDest
  split
  · exact destSized_destination _
  · exact destSized_none

theorem copyNext_sized {next : jsmntok_t} {d : Option (app_nvm_keys × Nat)} (h : DestSized d) :
    ∀ c ∈ copyNext next d, c.Sized := by
  intro c hc
  unfold copyNext at hc
  split at hc
  · rename_i dest_ptr dest_len
    split at hc
    · cases hc
      exact h _ rfl
    · cases hc
  · cases hc

/-- The copy of a round is made with the size of its buffer. -/
def RoundSized (r : Keys × Option Copy) : Prop := ∀ c ∈ r.2, c.Sized

theorem RoundSized.ite (p : Prop) [Decidable p] {r r' : Keys × Option Copy} (h : RoundSized r)
    (h' : RoundSized r') : RoundSized (if p then r else r') := by
  split
  · exact h
  · exact h'

theorem RoundSized.of_none (k : Keys) : RoundSized (k, none) := nofun

theorem RoundSized.of_dest (k : Keys) (next : jsmntok_t) {d : Option (app_nvm_keys × Nat)}
    (h : DestSized d) : RoundSized (k, copyNext next d) := copyNext_sized h

theorem tokenStep_sized (text : List UInt8) (next : jsmntok_t) (i : Nat) (tok : jsmntok_t)
    (k : Keys) : RoundSized (tokenStep text next i tok k) := by
  unfold tokenStep
  apply RoundSized.ite _ (.of_none _)
  apply RoundSized.ite _ (.of_dest _ _ (wifiDest_sized _))
  apply RoundSized.ite _ (.of_dest _ _ (lwm2mEntry_sized _ _ _))
  apply RoundSized.ite _ (.of_none _)
  apply RoundSized.ite _ (.of_none _)
  apply RoundSized.ite
  · intro c hc
    cases hc
    trivial
  apply RoundSized.ite _ (.of_dest _ _ (mqttEntry_sized _ _ _))
  apply RoundSized.ite _ (.of_dest _ _ (pskDest_sized _ _ _))
  apply RoundSized.ite _ (.of_dest _ _ (pskDest_sized _ _ _))
  apply RoundSized.ite _ (.of_dest _ _ (httpDest_sized _))
  exact RoundSized.ite _ (.of_dest _ _ (configDest_sized _)) (.of_none _)

/-- **Every copy is made with the size of its buffer.** -/
theorem copies_sized (text : List UInt8) (heap : jsmntok_t) (i : Nat) (toks : List jsmntok_t)
    (k : Keys) : ∀ c ∈ copies text heap i toks k, c.Sized := by
  induction toks generalizing i k with
  | nil => exact nofun
  | cons tok rest ih =>
    intro c hc
    obtain hc | hc := List.mem_append.mp hc
    · exact tokenStep_sized _ _ _ _ _ c (Option.mem_toList.mp hc)
    · exact ih _ _ c hc

theorem libs_copies_sized (L : Libs) (text : List UInt8) : ∀ c ∈ L.copies text, c.Sized := by
  unfold Libs.copies
  split
  · exact copies_sized _ _ _ _ _
  · exact nofun

/-! ## Buffers -/

/-- A buffer that nothing has been written behind and that ends in a NUL. -/
structure Ended (k : app_nvm_keys) (c : List UInt8) : Prop where
  length : c.length = bufferSize k
  last : c.getLast? = some 0

theorem ended_zeros {k : app_nvm_keys} (h : 0 < bufferSize k) :
    Ended k (List.replicate (bufferSize k) 0) := by
  refine ⟨List.length_replicate, ?_⟩
  rw [List.getLast?_replicate, if_neg (Nat.ne_of_gt h)]

/-- All buffers are. -/
def AllEnded (g : Buffers) : Prop := ∀ k ∈ buffers, Ended k (g k)

theorem bufferSize_pos {k : app_nvm_keys} (h : k ∈ buffers) : 0 < bufferSize k := by
  revert h
  cases k <;> decide

theorem allEnded_zeroed : AllEnded zeroed := fun _ hk => ended_zeros (bufferSize_pos hk)

/-- A short value leaves its buffer ended. -/
theorem Copy.apply_ended (text : List UInt8) {g : Buffers} (hg : AllEnded g) {c : Copy}
    (hsized : c.Sized) (hshort : c.Short) : AllEnded (c.apply text g) := by
  intro k hk
  cases c with
  | copyString dest dest_len start src_len =>
    by_cases hkd : k = dest
    · subst hkd
      have hlen : src_len < bufferSize k := hshort
      have hdest : dest_len = bufferSize k := hsized
      have hold := (hg k hk).length
      have hnot : ¬ src_len > dest_len := by omega
      have hzero : zeroFill (g k) dest_len = List.replicate (bufferSize k) 0 := by
        rw [zeroFill_all (by omega), hdest]
      show Ended k (Buffers.set g k _ k)
      rw [Buffers.set_self]
      unfold Config.copyString
      simp only [if_neg hnot, hzero]
      constructor
      · rw [strncpy_length, List.length_replicate]
        omega
      · rw [strncpy_last (by simpa using hlen)]
        exact (ended_zeros (bufferSize_pos hk)).last
    · show Ended k (Buffers.set g dest _ k)
      rw [Buffers.set_of_ne hkd]
      exact hg k hk
  | strncpy dest start src_len =>
    by_cases hkd : k = dest
    · subst hkd
      have hlen : src_len < bufferSize k := hshort
      have hold := hg k hk
      show Ended k (Buffers.set g k _ k)
      rw [Buffers.set_self]
      constructor
      · rw [strncpy_length, hold.length]
        omega
      · rw [strncpy_last (by rw [hold.length]; exact hlen)]
        exact hold.last
    · show Ended k (Buffers.set g dest _ k)
      rw [Buffers.set_of_ne hkd]
      exact hg k hk

theorem applyAll_ended (text : List UInt8) {cs : List Copy} {g : Buffers} (hg : AllEnded g)
    (hsized : ∀ c ∈ cs, c.Sized) (hshort : ∀ c ∈ cs, c.Short) : AllEnded (applyAll text g cs) := by
  induction cs generalizing g with
  | nil => exact hg
  | cons c cs ih =>
    have hc := Copy.apply_ended text hg (hsized c List.mem_cons_self) (hshort c List.mem_cons_self)
    exact ih hc (fun d hd => hsized d (List.mem_cons_of_mem c hd))
      fun d hd => hshort d (List.mem_cons_of_mem c hd)

/-! ## Stored strings -/

/-- The stored settings end in a NUL and fit the buffers they are read back into. -/
def AllFit (n : Nvm) : Prop := ∀ k ∈ configKeys, ∀ bytes, n k = some (.data bytes) →
  bytes.length ≤ bufferSize k ∧ bytes.getLast? = some 0

theorem configKeys_buffers {k : app_nvm_keys} (h : k ∈ configKeys) : k ∈ buffers := by
  revert h
  cases k <;> decide

theorem Ended.terminated {k : app_nvm_keys} {c : List UInt8} (h : Ended k c) : 0 ∈ c :=
  List.mem_of_getLast? h.last

/-- The object of an ended buffer is its string with a NUL. -/
theorem stringObject_ended {g : Buffers} {k : app_nvm_keys} (h : Ended k (g k)) :
    stringObject L g k = cstr (g k) ++ [0] := by
  unfold stringObject
  rw [cstr_append_of_mem h.terminated]

theorem stringObject_fits {g : Buffers} {k : app_nvm_keys} (h : Ended k (g k)) :
    (stringObject L g k).length ≤ bufferSize k ∧ (stringObject L g k).getLast? = some 0 := by
  rw [stringObject_ended h]
  constructor
  · have hlt := cstr_length_lt h.terminated
    have hlen := h.length
    simp only [List.length_append, List.length_singleton]
    omega
  · simp

theorem NvmStep.fits {pc : Pc} {w : Device} {n : Nvm} (h : NvmStep L pc w n) (hg : AllEnded w.config)
    (hn : AllFit w.nvm) : AllFit n := by
  intro k hk bytes hbytes
  cases h with
  | counting _ hcount =>
    rw [hcount.setting (.inl hk)] at hbytes
    exact hn k hk bytes hbytes
  | init _ _ hbase =>
    have hnone : baseObjects k = none := by
      revert hk
      cases k <;> decide
    obtain hempty | ⟨hsome, -⟩ := hbase k
    · rw [hempty] at hbytes
      cases hbytes
    · rw [hnone] at hsome
      cases hsome
  | store hstoring =>
    obtain hsame | hset := hstoring.setting k hk
    · rw [hsame] at hbytes
      exact hn k hk bytes hbytes
    · rw [hset] at hbytes
      cases hbytes
      exact stringObject_fits (hg k (configKeys_buffers hk))

/-- A string that fits leaves the buffer it is read into ended. -/
theorem Loaded.ended {n : Nvm} {g g' : Buffers} (h : Loaded n g g') (hg : AllEnded g)
    (hn : AllFit n) : AllEnded g' := by
  intro k hk
  have hold := hg k hk
  obtain hsame | ⟨hkey, bytes, hbytes, hread⟩ := h k
  · rw [hsame]
    exact hold
  · obtain ⟨hle, hlast⟩ := hn k hkey bytes hbytes
    rw [hread]
    constructor
    · have hlen := hold.length
      simp only [List.length_append, List.length_drop]
      omega
    · obtain hlt | hge := Nat.lt_or_ge bytes.length (g k).length
      · rw [getLast?_append_drop hlt]
        exact hold.last
      · rw [List.drop_eq_nil_of_le hge, List.append_nil]
        exact hlast

/-! ## Runs -/

/-- The values of a file that is opened are shorter than their buffers. -/
def ShortFiles (L : Libs) (s : Life) : Input → Prop
  | .step _ =>
    match s.pc with
    | .openConfig => ∀ text ∈ s.dev.sd .config_file_name, ∀ c ∈ L.copies text, c.Short
    | _ => True
  | _ => True

instance (L : Libs) (s : Life) : ∀ i, Decidable (ShortFiles L s i)
  | .step _ =>
    match h : s.pc with
    | .openConfig =>
      decidable_of_iff (∀ text ∈ s.dev.sd .config_file_name, ∀ c ∈ L.copies text, c.Short)
        (by simp [ShortFiles, h])
    | .bootMain | .boot _ | .main | .init | .mount | .loadConfig | .storeConfig _ | .started _ =>
      isTrue (by simp [ShortFiles, h])
  | .reset _ => isTrue trivial
  | .increment _ => isTrue trivial

theorem step_strings {s : Life} (fuel : Nat) (hg : AllEnded s.dev.config) (hn : AllFit s.dev.nvm)
    (hC : ShortFiles L s (.step fuel)) :
    AllEnded ((boots X L).next s (.step fuel)).dev.config ∧
      AllFit ((boots X L).next s (.step fuel)).dev.nvm := by
  obtain ⟨hnvm, hconfig⟩ := bootStep_effect (L := L) X fuel s.pc s.dev
  have hfits := hnvm.fits hg hn
  have hended : AllEnded (bootStep X L fuel s.pc s.dev).2.config := by
    generalize hpc : s.pc = pc at hconfig hfits ⊢
    generalize (bootStep X L fuel pc s.dev).2 = w' at hconfig hfits
    generalize hdev : s.dev = w at hconfig
    cases hconfig with
    | kept h =>
      rw [h, ← hdev]
      exact hg
    | cleared h =>
      rw [h]
      exact allEnded_zeroed
    | loaded h =>
      rw [← hdev] at h
      exact h.ended hg hfits
    | parsed text htext h =>
      rw [← hdev] at htext h
      simp only [ShortFiles, hpc] at hC
      rw [h]
      exact applyAll_ended text hg (libs_copies_sized L text) (hC text htext)
  show AllEnded (if _ then _ else _ : Device).config ∧ AllFit (if _ then _ else _ : Device).nvm
  split
  · exact ⟨hended, hfits⟩
  · exact ⟨allEnded_zeroed, hfits⟩

theorem next_strings {s : Life} {i : Input} (hs : AllEnded s.dev.config ∧ AllFit s.dev.nvm)
    (hi : s.Enabled i) (hC : ShortFiles L s i) :
    AllEnded ((boots X L).next s i).dev.config ∧ AllFit ((boots X L).next s i).dev.nvm := by
  cases i with
  | step fuel => exact step_strings fuel hs.1 hs.2 hC
  | reset sd => exact ⟨allEnded_zeroed, hs.2⟩
  | increment key =>
    have hkeep := incrementCounter_apart hi.2 s.dev
    rw [← orIgnore_state] at hkeep
    have hfits : AllFit ((incrementCounter key).orIgnore s.dev).2.nvm := by
      intro k hk bytes hbytes
      rw [hkeep.nvm.setting (.inl hk)] at hbytes
      exact hs.2 k hk bytes hbytes
    obtain hnext | hnext := next_increment_cases X L s key
    · rw [hnext]
      refine ⟨?_, hfits⟩
      show AllEnded ((incrementCounter key).orIgnore s.dev).2.config
      rw [hkeep.config]
      exact hs.1
    · rw [hnext]
      exact ⟨allEnded_zeroed, hfits⟩

/-- Every buffer has a NUL within its size and nothing has been written behind it, and every stored string
    is no longer than the buffer it is read back into. -/
def StringsFit (s : Life) : Prop :=
  (∀ k ∈ buffers, (s.dev.config k).length = bufferSize k ∧ 0 ∈ s.dev.config k) ∧
    ∀ k ∈ configKeys, ∀ bytes, s.dev.nvm k = some (.data bytes) → bytes.length ≤ bufferSize k

/-- **Every setting stays a terminated string that fits its buffer**, in every history in which the values of
    the files that are opened are shorter than their buffers. -/
theorem strings_fit {s₀ s : Life} (h₀ : Fresh s₀) (h : (boots X L).Reaches (ShortFiles L) s₀ s) :
    StringsFit s := by
  have hs : AllEnded s.dev.config ∧ AllFit s.dev.nvm := by
    apply System.Reaches.invariant (I := fun s => AllEnded s.dev.config ∧ AllFit s.dev.nvm) h
    · constructor
      · rw [h₀.config]
        exact allEnded_zeroed
      · intro k _ bytes hbytes
        rw [h₀.nvm k] at hbytes
        cases hbytes
    · exact fun s i hs hi hC => next_strings hs hi hC
  exact ⟨fun k hk => ⟨(hs.1 k hk).length, (hs.1 k hk).terminated⟩,
    fun k hk bytes hbytes => (hs.2 k hk bytes hbytes).1⟩

theorem strings_fit_home :
    ∃ s, (boots homeExterns homeLibs).Reaches (ShortFiles homeLibs) (.sample homeText fun _ => .none) s ∧
      s.pc = .started .stored ∧ StringsFit s := by
  have hreach : (boots homeExterns homeLibs).Reaches (ShortFiles homeLibs)
      (.sample homeText fun _ => .none)
      ((boots homeExterns homeLibs).run (.sample homeText fun _ => .none)
        (List.replicate 10 (.step 1))) := System.reaches_run (by decide +kernel)
  exact ⟨_, hreach, by decide +kernel, strings_fit (Life.sample_fresh homeText _) hreach⟩

/-- A file with an SSID of 32 bytes. -/
def longText : List UInt8 :=
  bytesOf "\x7b\"wifi\":\x7b\"ssid\":\"0123456789abcdef0123456789abcdef\"\x7d\x7d"

/-- The libraries on `longText`. -/
def longLibs : Libs := .sample fun text =>
  if text = longText then some
    [⟨.JSMN_OBJECT, 0, 52, -1⟩, ⟨.JSMN_STRING, 2, 6, 0⟩, ⟨.JSMN_OBJECT, 8, 51, 1⟩,
     ⟨.JSMN_STRING, 10, 14, 2⟩, ⟨.JSMN_STRING, 17, 49, 3⟩]
  else none

/-- An SSID of 32 bytes fills its buffer without a NUL. -/
theorem strings_overrun : ¬ ∀ (X : Externs (List UInt8)) (L : Libs) (s₀ s : Life), Fresh s₀ →
    (boots X L).Reaches System.Free s₀ s → StringsFit s := by
  intro hall
  have hreach : (boots homeExterns longLibs).Reaches System.Free (.sample longText fun _ => .none)
      ((boots homeExterns longLibs).run (.sample longText fun _ => .none)
        (List.replicate 9 (.step 1))) := System.reaches_run (by decide +kernel)
  have hterminated := ((hall _ _ _ _ (Life.sample_fresh longText _) hreach).1 .wifi_ssid
    (by decide)).2
  revert hterminated
  decide +kernel

end Miso.Config
