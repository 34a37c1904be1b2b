import Miso.Config.Steps

/-!
# The base objects of the NVM

`nvm.init` infers from a count of objects that its nine objects exist.

* `nvm_init_keeps_all` — it never erases an NVM in which they do;
* `init_complete` — it succeeds on a complete NVM only, provided that no setting is stored while an object
  is missing;
* `init_incomplete` — without the condition the settings make up for the missing objects.
-/

namespace Miso.Config

open Zig Boot

variable {X : Externs (List UInt8)} {L : Libs}

/-- `nvm.objectType`. -/
inductive objectType where
  | data
  | counter
  deriving DecidableEq, Repr

/-- The type of an object. -/
def typeOf : NvmObject → objectType
  | .data _ => .data
  | .counter _ => .counter

/-- All nine base objects exist with their type. -/
def Complete (n : Nvm) : Prop := ∀ k ∈ baseKeys, (n k).map typeOf = (baseObjects k).map typeOf

instance (n : Nvm) : Decidable (Complete n) :=
  inferInstanceAs (Decidable (∀ k ∈ baseKeys, _ = _))

/-! ## Counting objects -/

/-- Nine objects are counted when the base objects exist. -/
theorem nine_le_countObjects {n : Nvm} (h : ∀ k ∈ baseKeys, (n k).isSome = true) :
    9 ≤ countObjects n := by
  have hbase : app_nvm_keys.all.countP (fun k => (baseObjects k).isSome) = 9 := by decide
  rw [← hbase]
  apply countP_le_countObjects
  intro k hk
  exact h k (mem_baseKeys.mpr hk)

/-- **`nvm.init` never erases an NVM in which the base objects exist.** -/
theorem nvm_init_keeps_all {w : Device} (h : ∀ k ∈ baseKeys, (w.nvm k).isSome = true) :
    nvm_init w = (.ok (), w) :=
  nvm_init_full (nine_le_countObjects h)

/-- Where nothing else exists, nine objects are the base objects. -/
theorem all_of_count {n : Nvm} (hbase : ∀ k, (n k).isSome = true → k ∈ baseKeys)
    (h : 9 ≤ countObjects n) : ∀ k ∈ baseKeys, (n k).isSome = true := by
  intro j hj
  apply Classical.byContradiction
  intro hmissing
  have hcount : countObjects n ≤ app_nvm_keys.all.countP (fun k => k ∈ baseKeys ∧ k ≠ j) := by
    apply List.countP_mono_left
    intro k _ hk
    have hne : k ≠ j := fun heq => hmissing (heq ▸ hk)
    simpa using And.intro (hbase k hk) hne
  have height : app_nvm_keys.all.countP (fun k => k ∈ baseKeys ∧ k ≠ j) = 8 := by
    revert hj
    cases j <;> decide
  omega

/-! ## The invariant -/

/-- The base objects that exist have their type; either all of them do, or nothing else does. -/
structure Sound (n : Nvm) : Prop where
  typed : ∀ k ∈ baseKeys, n k = none ∨ (n k).map typeOf = (baseObjects k).map typeOf
  complete : Complete n ∨ ∀ k, (n k).isSome = true → k ∈ baseKeys

theorem Sound.complete_of_count {n : Nvm} (h : Sound n) (hc : 9 ≤ countObjects n) : Complete n := by
  obtain hall | hbase := h.complete
  · exact hall
  · intro k hk
    have hsome := all_of_count hbase hc k hk
    obtain hnone | htype := h.typed k hk
    · rw [hnone] at hsome
      cases hsome
    · exact htype

theorem BaseOnly.sound {n : Nvm} (h : BaseOnly n) : Sound n where
  typed := by
    intro k _
    obtain hk | ⟨-, hk⟩ := h k
    · exact .inl hk
    · exact .inr (by rw [hk])
  complete := by
    right
    intro k hk
    obtain hnone | ⟨hbase, -⟩ := h k
    · rw [hnone] at hk
      cases hk
    · exact mem_baseKeys.mpr hbase

/-- A counter that is written is a base object of that type. -/
theorem IsCounter.base {k : app_nvm_keys} (h : IsCounter k) :
    k ∈ baseKeys ∧ (baseObjects k).map typeOf = some .counter := by
  unfold IsCounter at h
  revert h
  cases k <;> decide

theorem Counting.typed {n n' : Nvm} (h : Counting n n') {k : app_nvm_keys}
    (hk : (n k).map typeOf = (baseObjects k).map typeOf) :
    (n' k).map typeOf = (baseObjects k).map typeOf := by
  obtain hsame | ⟨hcounter, value, hset⟩ := h k
  · rw [hsame, hk]
  · rw [hset, hcounter.base.2]
    rfl

theorem Sound.counting {n n' : Nvm} (hs : Sound n) (h : Counting n n') : Sound n' where
  typed := by
    intro k hk
    obtain hsame | ⟨hcounter, value, hset⟩ := h k
    · rw [hsame]
      exact hs.typed k hk
    · right
      rw [hset, hcounter.base.2]
      rfl
  complete := by
    obtain hall | hbase := hs.complete
    · exact .inl fun k hk => h.typed (hall k hk)
    · right
      intro k hk
      obtain hsame | ⟨hcounter, -⟩ := h k
      · rw [hsame] at hk
        exact hbase k hk
      · exact hcounter.base.1

/-- Storing settings and the hash keeps a complete NVM complete. -/
theorem Storing.complete {hash : List UInt8} {w w' : Device} (h : Storing L hash w w')
    (hc : Complete w.nvm) : Complete w'.nvm := by
  intro k hk
  have hnot : k ∉ configKeys := by
    revert hk
    cases k <;> decide
  by_cases hsha : k = .config_sha256
  · subst hsha
    obtain hsame | hstored := h.hash
    · rw [hsame]
      exact hc _ hk
    · rw [(isStored_iff.mp hstored).2]
      rfl
  · rw [h.other k hnot hsha]
    exact hc k hk

/-- Nothing is stored while a base object is missing. -/
def StoresComplete (s : Life) : Input → Prop
  | .step _ =>
    match s.pc with
    | .storeConfig _ => Complete s.dev.nvm
    | _ => True
  | _ => True

instance (s : Life) : ∀ i, Decidable (StoresComplete s i)
  | .step _ =>
    match h : s.pc with
    | .storeConfig _ => decidable_of_iff (Complete s.dev.nvm) (by simp [StoresComplete, h])
    | .bootMain | .boot _ | .main | .init | .mount | .loadConfig | .openConfig | .started _ =>
      isTrue (by simp [StoresComplete, h])
  | .reset _ => isTrue trivial
  | .increment _ => isTrue trivial

theorem NvmStep.sound {pc : Pc} {w : Device} {n : Nvm} (h : NvmStep L pc w n) (hs : Sound w.nvm)
    (hstore : ∀ hash, pc = .storeConfig hash → Complete w.nvm) : Sound n := by
  cases h with
  | counting _ hcount => exact hs.counting hcount
  | init _ _ hbase => exact hbase.sound
  | store hstoring =>
    have hall := hstoring.complete (hstore _ rfl)
    exact ⟨fun k hk => .inr (hall k hk), .inl hall⟩

/-- The NVM of the state that a step leads to. -/
theorem next_nvm (s : Life) (fuel : Nat) :
    ((boots X L).next s (.step fuel)).dev.nvm = (bootStep X L fuel s.pc s.dev).2.nvm := by
  show (if _ then _ else _ : Device).nvm = _
  split <;> rfl

theorem next_sound {s : Life} {i : Input} (hs : Sound s.dev.nvm) (hi : s.Enabled i)
    (hC : StoresComplete s i) : Sound ((boots X L).next s i).dev.nvm := by
  cases i with
  | step fuel =>
    rw [next_nvm]
    apply (bootStep_effect X fuel s.pc s.dev).1.sound hs
    intro hash hpc
    simpa [StoresComplete, hpc] using hC
  | reset sd => exact hs
  | increment key =>
    have hcount := (incrementCounter_apart hi.2 s.dev).nvm
    rw [← orIgnore_state] at hcount
    obtain hnext | hnext := next_increment_cases X L s key
    · rw [hnext]
      exact hs.counting hcount
    · rw [hnext]
      exact hs.counting hcount

/-- **`nvm.init` succeeds on a complete NVM only**, in every history in which nothing is stored while a
    base object is missing; and it never erases an NVM in which the base objects exist. -/
theorem init_complete {s₀ s : Life} (h₀ : Fresh s₀) (h : (boots X L).Reaches StoresComplete s₀ s) :
    (∀ w', nvm_init s.dev = (.ok (), w') → Complete w'.nvm) ∧
      ((∀ k ∈ baseKeys, (s.dev.nvm k).isSome = true) → nvm_init s.dev = (.ok (), s.dev)) := by
  have hs : Sound s.dev.nvm := by
    apply System.Reaches.invariant (I := fun s => Sound s.dev.nvm) h
    · refine ⟨fun k _ => .inl (h₀.nvm k), .inr ?_⟩
      intro k hk
      rw [h₀.nvm k] at hk
      cases hk
    · exact fun s i hs hi hC => next_sound hs hi hC
  refine ⟨?_, nvm_init_keeps_all⟩
  intro w' hrun
  obtain hfull | hless := Nat.lt_or_ge 8 (countObjects s.dev.nvm)
  · rw [nvm_init_full hfull] at hrun
    cases hrun
    exact hs.complete_of_count hfull
  · have hlt : countObjects s.dev.nvm < 9 := by omega
    obtain ⟨-, -, hall⟩ := wp_of_run (nvm_init_spec hlt) hrun
    intro k hk
    rw [hall k hk]

/-- A boot that stores a file, and the next one up to `nvm.init`. -/
def initInputs : List Input := List.replicate 10 (.step 1) ++ [.reset (sampleCard homeText), .step 1]

theorem init_complete_home :
    ∃ s, (boots homeExterns homeLibs).Reaches StoresComplete (.sample homeText fun _ => .none) s ∧
      s.pc = .boot .start ∧ (nvm_init s.dev).1 = .ok () ∧ Complete (nvm_init s.dev).2.nvm := by
  have hreach : (boots homeExterns homeLibs).Reaches StoresComplete (.sample homeText fun _ => .none)
      ((boots homeExterns homeLibs).run (.sample homeText fun _ => .none) initInputs) :=
    System.reaches_run (by decide +kernel)
  have hok : (nvm_init ((boots homeExterns homeLibs).run (.sample homeText fun _ => .none)
      initInputs).dev).1 = .ok () := by decide +kernel
  refine ⟨_, hreach, by decide +kernel, hok, ?_⟩
  exact (init_complete (Life.sample_fresh homeText _) hreach).1 _ (Prog.run_of_exit hok)

/-- The calls at which the writes of `device_uuid` by the bootloader and by the application fail. -/
def uuidFaults (t : Nat) : Fault := if t = 5 ∨ t = 26 then .fail .fr_disk_err [] else .none

/-- The thirteen settings make up for the objects that a failed `nvm.init` has not written. -/
theorem init_incomplete : ¬ ∀ (X : Externs (List UInt8)) (L : Libs) (s₀ s : Life), Fresh s₀ →
    (boots X L).Reaches System.Free s₀ s →
      ∀ w', nvm_init s.dev = (.ok (), w') → Complete w'.nvm := by
  intro hall
  have hreach : (boots homeExterns homeLibs).Reaches System.Free (.sample homeText uuidFaults)
      ((boots homeExterns homeLibs).run (.sample homeText uuidFaults) initInputs) :=
    System.reaches_run (by decide +kernel)
  have hok : (nvm_init ((boots homeExterns homeLibs).run (.sample homeText uuidFaults)
      initInputs).dev).1 = .ok () := by decide +kernel
  have hcomplete := hall _ _ _ _ (Life.sample_fresh homeText uuidFaults) hreach _
    (Prog.run_of_exit hok)
  have hmissing : (nvm_init ((boots homeExterns homeLibs).run (.sample homeText uuidFaults)
      initInputs).dev).2.nvm .device_uuid = none := by decide +kernel
  have huuid := hcomplete .device_uuid (by decide)
  rw [hmissing] at huuid
  cases huuid

end Miso.Config
