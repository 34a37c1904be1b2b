import Miso.Boot.FlashArea

/-!
# The candidate check with its callbacks

`checkFirmwareImage` hands the candidate to the image library, which calls back into
`firmware.zig`.  Here the library is a client of these callbacks: what it reads and hashes may
depend on everything it has been given before.

* `Client` — a function of the library, by the callbacks it makes;
* `Client.calling` — on a file with a given content it makes a number of calls and comes to a
  result, and a failing call is a trap;
* `answers_iff` — which inputs trap the check: an undecodable key, and a call that fails where the
  failure is `catch unreachable`;
* `verifyFirmware_passing` — where nothing fails the verdict is that of the library on the content.
-/

namespace Miso.Boot.Candidate

open Zig

variable {Digest Header : Type}

/-! ## The image library and its callbacks -/

/-- A function of the image library: it has a result, or calls `flash_area_read` with an offset
and a buffer, or `boot_retrieve_public_key_hash`, and goes on with what it is given. -/
inductive Client (Digest α : Type) where
  | done (a : α)
  | read (off : Nat) (dst : List UInt8) (next : Int → List UInt8 → Client Digest α)
  | key_hash (next : Int → Digest → Client Digest α)

/-- The functions of the image library that `firmware.zig` calls; a header is what
`boot_image_load_header` leaves behind where it returns `FIH_SUCCESS`. -/
structure Bootutil (Digest Header : Type) where
  boot_image_load_header : Client Digest (Option Header)
  /-- The header and the key; the result says whether it was `FIH_SUCCESS`. -/
  bootutil_img_validate : Header → List UInt8 → Client Digest Bool

variable (X : Externs Digest) (B : Bootutil Digest Header)

/-- `boot_retrieve_public_key_hash`: the result and the hash. -/
def boot_retrieve_public_key_hash : BootM (Int × Digest) := do
  let hash ← (calculateMemHash X (← Prog.get).pub_key).orUnreachable
  pure (0, hash)

/-- The client with the callbacks of `firmware.zig` on an area. -/
def Client.run {α : Type} (fa : flash_area) : Client Digest α → BootM (α × flash_area)
  | .done a => pure (a, fa)
  | .read off dst next => do
    let (code, dst', fa') ← flash_area_read fa off dst
    (next code dst').run fa'
  | .key_hash next => do
    let (code, hash) ← boot_retrieve_public_key_hash X
    (next code hash).run fa

/-- `boot_image_load_header`. -/
def boot_image_load_header (fa : flash_area) : BootM (Header × flash_area) := do
  match ← B.boot_image_load_header.run X fa with
  | (some hdr, fa') => pure (hdr, fa')
  | (none, _) => Prog.throw .generic_error

/-- `bootutil_img_validate`. -/
def bootutil_img_validate (hdr : Header) (fa : flash_area) : BootM Unit := do
  let (success, _) ← (B.bootutil_img_validate hdr (← Prog.get).pub_key).run X fa
  if success then pure () else Prog.throw .generic_error

/-- `verifyFirmware`. -/
def verifyFirmware (path : Path) : BootM Unit := do
  let img ← (f_open path fMode.read).orUnreachable
  Prog.deferring (f_close img) do
    let (hdr, fa) ← boot_image_load_header X B ⟨0, img⟩
    alloc 512
    bootutil_img_validate X B hdr fa

/-- `checkFirmwareImage`. -/
def checkFirmwareImage [DecidableEq Digest] (path : Path) : BootM Unit := do
  let cand_len ← checkFirmwareCandidateSize path none
  match ← (verifyBackup X path (some cand_len)).attempt with
  | .ok () => Prog.throw .firmware_already_in_system
  | .error err =>
    if err = .hash_compare_mismatch then do
      load_global_public_key X
      (verifyFirmware X B path).tryCatch fun _ => Prog.throw .firmware_candidate_not_valid
    else pure ()

/-! ## What a client does -/

section Clients

variable {α : Type} (c key : List UInt8)

/-- The result on a file with the content `c`, under the key `key`. -/
def Client.result : Client Digest α → α
  | .done a => a
  | .read off dst next => (next 0 (filled c off dst)).result
  | .key_hash next => (next 0 (X.sha256 key)).result

/-- The number of calls of FatFs and of the hash behind it. -/
def Client.calls : Client Digest α → Nat
  | .done _ => 0
  | .read off dst next => 2 + (next 0 (filled c off dst)).calls
  | .key_hash next => 3 + (next 0 (X.sha256 key)).calls

variable {c key}

theorem calculateMemHash_calling (slice : List UInt8) (w : Device) :
    Calling .reported (calculateMemHash X slice) 3 (X.sha256 slice) w := by
  refine Calling.bind (k := 2) (a := []) (n := 1) ?_ ?_
  · exact .of_single ((Single.checked _ w).map rfl)
  refine Calling.bind (k := 1) (a := slice) (n := 1) ?_ ?_
  · exact .of_single ((Single.checked _ _).map rfl)
  exact .of_single ((Single.checked _ _).map rfl)

theorem boot_retrieve_public_key_hash_calling (w : Device) :
    Calling .unreachable (boot_retrieve_public_key_hash X) 3 (0, X.sha256 w.pub_key) w := by
  refine Calling.bind (n := 0) (k := 3) (a := w) rfl ?_
  exact Calling.bind (k := 0) (calculateMemHash_calling X w.pub_key _).orUnreachable (.pure _ _)

/-- **What a client does** on the area of a file: its calls, of which none may fail, and its
result. -/
theorem Client.calling (client : Client Digest α) {fa : flash_area} {w : Device}
    (h : fa.Reads w c) : ∃ fa', fa'.Reads w c ∧
      Calling .unreachable (client.run X fa) (client.calls X c w.pub_key)
        (client.result X c w.pub_key, fa') w := by
  induction client generalizing fa w with
  | done a => exact ⟨fa, h, Calling.pure _ w⟩
  | read off dst next ih =>
    obtain ⟨fa', hreads, hnext⟩ := ih 0 (filled c off dst)
      ((h.behind off dst.length).seek (w.tick + 2))
    exact ⟨fa', ⟨hreads.device, hreads.file.content, hreads.file.size, hreads.file.fptr_le⟩,
      Calling.bind (flash_area_read_calls h off dst) hnext⟩
  | key_hash next ih =>
    obtain ⟨fa', hreads, hnext⟩ := ih 0 (X.sha256 w.pub_key) (h.seek (w.tick + 3))
    exact ⟨fa', ⟨hreads.device, hreads.file.content, hreads.file.size, hreads.file.fptr_le⟩,
      Calling.bind (boot_retrieve_public_key_hash_calling X w) hnext⟩

end Clients

/-! ## What traps the check -/

section Traps

variable (c key : List UInt8) (faults : Nat → Fault)

/-- The calls of `verifyFirmware` up to the header: the file is opened, and the library reads. -/
def headerCalls : List Bool :=
  true :: List.replicate (B.boot_image_load_header.calls X c key) true

/-- From tick `t` on, a call of `verifyFirmware` fails whose failure is `catch unreachable`: before
the header is there, or behind the allocation of the buffer. -/
def Unverifiable (t : Nat) : Prop :=
  survey faults (headerCalls X B c key) t = .failed ∨
    survey faults (headerCalls X B c key ++ [true]) t = .passed ∧
    ∃ hdr ∈ B.boot_image_load_header.result X c key,
      survey faults (List.replicate ((B.bootutil_img_validate hdr key).calls X c key) true)
        (t + (headerCalls X B c key).length + 1) = .failed

/-- The comparison of the file with the region is made, and finds a difference. -/
structure Differs (w : Device) : Prop where
  fits : c.length ≤ firmware_max_size
  sized : survey w.faults sizeCheckCalls w.tick = .passed
  compared : survey w.faults (compareCalls c.length) (w.tick + sizeCheckCalls.length) = .passed
  hash : X.sha256 c ≠ X.sha256 (w.bytes 0 c.length)

/-- **What traps the check** of the file at `path`: it differs from the region, and the configured
key does not decode into 256 bytes, or a call of the verification fails. -/
def Unsafe (path : Path) (w : Device) : Prop :=
  ∃ c ∈ w.sd path, Differs X c w ∧ ∀ key ∈ X.base64_decode (getHttpSigKey w) 256,
    Unverifiable X B c key w.faults
      (w.tick + sizeCheckCalls.length + (compareCalls c.length).length)

end Traps

/-! ## Exits -/

/-- The exit of `m` from `w` is a trap exactly if `T`, and only a reset cuts it off. -/
structure Decides {α : Type} (m : BootM α) (T : Prop) (w : Device) : Prop where
  trap_iff : (m w).1 = .trap ↔ T
  cut : (m w).1 = .halt → w.Interrupted
  faults : (m w).2.faults = w.faults

section Decides

variable {α β : Type} {m : BootM α} {T T' : Prop} {w v : Device}

theorem survey_halted {faults : Nat → Fault} {calls : List Bool} {t : Nat}
    (h : survey faults calls t = .halted) : ∃ t', (faults t').halts = true := by
  induction calls generalizing t with
  | nil => cases h
  | cons reported calls ih =>
    unfold survey at h
    split at h
    · exact ⟨t, by assumption⟩
    · split at h
      · cases h
      · exact ih h

theorem survey_append_failed_iff {faults : Nat → Fault} {calls calls' : List Bool} {t : Nat} :
    survey faults (calls ++ calls') t = .failed ↔ survey faults calls t = .failed ∨
      survey faults calls t = .passed ∧ survey faults calls' (t + calls.length) = .failed := by
  rw [survey_append]
  cases survey faults calls t <;> simp

theorem survey_append_passed_iff {faults : Nat → Fault} {calls calls' : List Bool} {t : Nat} :
    survey faults (calls ++ calls') t = .passed ↔ survey faults calls t = .passed ∧
      survey faults calls' (t + calls.length) = .passed := by
  rw [survey_append]
  cases survey faults calls t <;> simp

namespace Decides

theorem congr (hm : Decides m T w) (h : T ↔ T') : Decides m T' w :=
  ⟨hm.trap_iff.trans h, hm.cut, hm.faults⟩

theorem of_run {x : Exit Error α} (h : m w = (x, v)) (hf : v.faults = w.faults)
    (hcut : x = .halt → w.Interrupted) : Decides m (x = .trap) w := by
  refine ⟨?_, ?_, ?_⟩
  · rw [h]
  · rw [h]
    exact hcut
  · rw [h]
    exact hf

theorem ok {a : α} (h : m w = (.ok a, v)) (hf : v.faults = w.faults) : Decides m False w :=
  (of_run h hf fun hx => by cases hx).congr (by simp)

theorem err {e : Error} (h : m w = (.err e, v)) (hf : v.faults = w.faults) :
    Decides m False w :=
  (of_run h hf fun hx => by cases hx).congr (by simp)

theorem halt (h : m w = (.halt, v)) (hf : v.faults = w.faults) (hi : w.Interrupted) :
    Decides m False w :=
  (of_run h hf fun _ => hi).congr (by simp)

theorem trap (h : m w = (.trap, v)) (hf : v.faults = w.faults) : Decides m True w :=
  (of_run h hf fun hx => by cases hx).congr (by simp)

/-- The rest of a program decides. -/
theorem of_same {m' : BootM β} {f : β → BootM α} {a : β} (h : m' w = (.ok a, v))
    (hf : v.faults = w.faults) (hr : Decides (f a) T v) : Decides (m' >>= f) T w := by
  have hrun := Prog.bind_ok f h
  refine ⟨?_, ?_, ?_⟩
  · rw [hrun]
    exact hr.trap_iff
  · rw [hrun]
    intro hx
    obtain ⟨t, ht⟩ := hr.cut hx
    exact ⟨t, hf ▸ ht⟩
  · rw [hrun]
    exact hr.faults.trans hf

/-- Calls whose failure is `catch unreachable`, and what is behind them. -/
theorem calling {m' : BootM β} {f : β → BootM α} {n : Nat} {a : β}
    (h : Calling .unreachable m' n a w) (hr : Decides (f a) T (w.seek (w.tick + n))) :
    Decides (m' >>= f) (survey w.faults (List.replicate n true) w.tick = .failed ∨
      survey w.faults (List.replicate n true) w.tick = .passed ∧ T) w := by
  cases hs : survey w.faults (List.replicate n true) w.tick with
  | passed => exact (of_same (h.passed hs) rfl hr).congr (by simp)
  | failed =>
    obtain ⟨hexit, t, hq⟩ := h.failed hs
    have hrun : m' w = (.trap, w.seek t) := Prod.ext hexit hq
    exact (trap (Prog.bind_trap f hrun) rfl).congr (by simp)
  | halted =>
    obtain ⟨hexit, t, hq⟩ := h.halted hs
    have hrun : m' w = (.halt, w.seek t) := Prod.ext hexit hq
    exact (halt (Prog.bind_halt f hrun) rfl (survey_halted hs)).congr (by simp)

/-- One call whose failure is reported, and what is behind it. -/
theorem single {m' : BootM β} {f : β → BootM α} {e : FRESULT → Error} {a : β}
    (h : Single m' e a w) (hr : Decides (f a) T (w.seek (w.tick + 1))) :
    Decides (m' >>= f) (survey w.faults [true] w.tick = .passed ∧ T) w := by
  have hcalls := Calling.of_single h
  cases hs : survey w.faults [true] w.tick with
  | passed => exact (of_same (hcalls.passed hs) rfl hr).congr (by simp)
  | failed =>
    obtain ⟨hexit, t, hq⟩ := hcalls.failed hs
    cases hx : (m' w).1 with
    | err e =>
      have hrun : m' w = (.err e, w.seek t) := Prod.ext hx hq
      exact (err (Prog.bind_err f hrun) rfl).congr (by simp)
    | ok a => rw [hx] at hexit; cases hexit
    | trap => rw [hx] at hexit; cases hexit
    | halt => rw [hx] at hexit; cases hexit
  | halted =>
    obtain ⟨hexit, t, hq⟩ := hcalls.halted hs
    have hrun : m' w = (.halt, w.seek t) := Prod.ext hexit hq
    exact (halt (Prog.bind_halt f hrun) rfl (survey_halted hs)).congr (by simp)

/-- A deferred `close` adds no trap. -/
theorem closing {f : File} (hm : Decides m T w) :
    Decides (Prog.deferring (f_close f) m) T w := by
  have hreset : ((m w).2.faults (m w).2.tick).halts = true → w.Interrupted := by
    intro hh
    rw [hm.faults] at hh
    exact ⟨_, hh⟩
  cases hx : (m w).1 with
  | ok a =>
    have hrun := closing_ok (f := f) (Prog.run_of_exit hx)
    refine Decides.congr ?_ (T := False) (hm.trap_iff.symm.trans (by simp [hx])).symm
    by_cases hh : ((m w).2.faults (m w).2.tick).halts = true
    · exact halt (hrun.trans (if_pos hh)) hm.faults (hreset hh)
    · exact ok (hrun.trans (if_neg hh)) hm.faults
  | err e =>
    have hrun := closing_err (f := f) (Prog.run_of_exit hx)
    refine Decides.congr ?_ (T := False) (hm.trap_iff.symm.trans (by simp [hx])).symm
    by_cases hh : ((m w).2.faults (m w).2.tick).halts = true
    · exact halt (hrun.trans (if_pos hh)) hm.faults (hreset hh)
    · exact err (hrun.trans (if_neg hh)) hm.faults
  | trap =>
    refine (trap (Prog.deferring_trap (Prog.run_of_exit hx)) hm.faults).congr ?_
    exact (hm.trap_iff.symm.trans (by simp [hx])).symm
  | halt =>
    refine (halt (Prog.deferring_halt (Prog.run_of_exit hx)) hm.faults (hm.cut hx)).congr ?_
    exact (hm.trap_iff.symm.trans (by simp [hx])).symm

/-- An error that is turned into another one adds no trap. -/
theorem tryCatch_throw {e : Error} (hm : Decides m T w) :
    Decides (m.tryCatch fun _ => Prog.throw e) T w := by
  have hT : ((m w).1 = .trap) = T := propext hm.trap_iff
  have hrun : m.tryCatch (fun _ => Prog.throw e) w =
      (if (m w).1.failed then .err e else (m w).1, (m w).2) := by
    unfold Prog.tryCatch Exit.failed Prog.throw
    rcases m w with ⟨x, w'⟩
    cases x <;> rfl
  refine (of_run hrun hm.faults ?_).congr ?_
  · cases hx : (m w).1 with
    | halt => exact fun _ => hm.cut hx
    | ok a => exact fun h => by cases h
    | err e' => exact fun h => by cases h
    | trap => exact fun h => by cases h
  · rw [← hT]
    cases (m w).1 <;> simp [Exit.failed]

end Decides

end Decides

/-! ## When the check answers -/

section Answers

variable {path : Path} {c : List UInt8} {w : Device}

/-- The check answers: it succeeds or fails with an error, unless the device is reset. -/
def Answers (x : Exit Error Unit) (w : Device) : Prop :=
  x ≠ .trap ∧ (x = .halt → w.Interrupted)

theorem bootutil_img_validate_decides {fa : flash_area} (hfa : fa.Reads w c) (hdr : Header) :
    Decides (bootutil_img_validate X B hdr fa)
      (survey w.faults (List.replicate ((B.bootutil_img_validate hdr w.pub_key).calls X c w.pub_key)
        true) w.tick = .failed) w := by
  unfold bootutil_img_validate
  obtain ⟨fa', -, hrun⟩ := (B.bootutil_img_validate hdr w.pub_key).calling X hfa
  refine Decides.of_same (a := w) rfl rfl ((Decides.calling (T := False) hrun ?_).congr (by simp))
  simp only
  split
  · exact .ok rfl rfl
  · exact .err rfl rfl

/-- What is behind the opened candidate. -/
theorem verification_decides {fa : flash_area} (hfa : fa.Reads w c) :
    Decides (do
        let (hdr, fa) ← boot_image_load_header X B fa
        alloc 512
        bootutil_img_validate X B hdr fa)
      (survey w.faults (List.replicate (B.boot_image_load_header.calls X c w.pub_key) true) w.tick =
          .failed ∨
        survey w.faults (List.replicate (B.boot_image_load_header.calls X c w.pub_key) true) w.tick =
          .passed ∧
        ∃ hdr ∈ B.boot_image_load_header.result X c w.pub_key,
          survey w.faults [true] (w.tick + B.boot_image_load_header.calls X c w.pub_key) = .passed ∧
          survey w.faults (List.replicate
            ((B.bootutil_img_validate hdr w.pub_key).calls X c w.pub_key) true)
            (w.tick + B.boot_image_load_header.calls X c w.pub_key + 1) = .failed) w := by
  unfold boot_image_load_header
  rw [Prog.bind_assoc]
  obtain ⟨fa', hfa', hrun⟩ := B.boot_image_load_header.calling X hfa
  refine Decides.calling hrun ?_
  simp only
  cases hres : B.boot_image_load_header.result X c w.pub_key with
  | none => exact (Decides.err rfl rfl).congr (by simp)
  | some hdr =>
    refine (Decides.of_same rfl rfl (Decides.single (Single.checked _ _)
      (bootutil_img_validate_decides X B (hfa'.seek _) hdr))).congr ?_
    simp

/-- **What traps the verification** of a candidate under the loaded key. -/
theorem verifyFirmware_decides (hc : w.sd path = some c) :
    Decides (verifyFirmware X B path) (Unverifiable X B c w.pub_key w.faults w.tick) w := by
  unfold verifyFirmware
  have hopen := (Calling.of_single (Single.f_open hc)).orUnreachable
  have hfa : flash_area.Reads ⟨0, ⟨path, 0, c.length⟩⟩ (w.seek (w.tick + 1)) c :=
    ⟨rfl, hc, rfl, Nat.zero_le _⟩
  refine (Decides.calling hopen (verification_decides X B hfa).closing).congr ?_
  have hcalls : headerCalls X B c w.pub_key = List.replicate 1 true ++
      List.replicate (B.boot_image_load_header.calls X c w.pub_key) true := rfl
  have hlen : (headerCalls X B c w.pub_key).length =
      1 + B.boot_image_load_header.calls X c w.pub_key := by
    rw [hcalls, List.length_append, List.length_replicate, List.length_replicate]
  unfold Unverifiable
  rw [survey_append_passed_iff, hlen, hcalls, survey_append_failed_iff, survey_append_passed_iff]
  simp only [List.length_replicate, Device.seek_tick, Device.seek_faults, Device.seek_pub_key,
    ← Nat.add_assoc]
  constructor
  · rintro (hopen | ⟨hopen, hread | ⟨hread, hdr, hres, hmem, hval⟩⟩)
    · exact .inl (.inl hopen)
    · exact .inl (.inr ⟨hopen, hread⟩)
    · exact .inr ⟨⟨⟨hopen, hread⟩, hmem⟩, hdr, hres, hval⟩
  · rintro ((hopen | ⟨hopen, hread⟩) | ⟨⟨⟨hopen, hread⟩, hmem⟩, hdr, hres, hval⟩)
    · exact .inl hopen
    · exact .inr ⟨hopen, .inl hread⟩
    · exact .inr ⟨hopen, .inr ⟨hread, hdr, hres, hmem, hval⟩⟩

/-- A candidate that does not exist fails to open. -/
theorem missing_decides {α : Type} (hc : w.sd path = none) (f : Nat → BootM α) :
    Decides (checkFirmwareCandidateSize path none >>= f) False w := by
  have hslice : appSlice none w = (.ok firmware_max_size, w) :=
    appSlice_run firmware_max_size rfl (Nat.le_refl _) w
  have hdraw : draw w = (.ok (w.faults w.tick), w.seek (w.tick + 1)) := rfl
  unfold checkFirmwareCandidateSize
  rw [Prog.bind_assoc]
  refine .of_same hslice rfl ?_
  rw [Prog.bind_assoc]
  cases hf : w.faults w.tick with
  | fail r part =>
    have hopen : f_open path fMode.read w = (.err r.check, w.seek (w.tick + 1)) := by
      unfold f_open
      refine (Prog.bind_ok _ hdraw).trans ?_
      rw [hf]
      rfl
    exact .err (Prog.bind_err _ hopen) rfl
  | halt part =>
    have hopen : f_open path fMode.read w = (.halt, w.seek (w.tick + 1)) := by
      unfold f_open
      refine (Prog.bind_ok _ hdraw).trans ?_
      rw [hf]
      rfl
    exact .halt (Prog.bind_halt _ hopen) rfl ⟨w.tick, by rw [hf]; rfl⟩
  | none | short =>
    have hopen : f_open path fMode.read w = (.err .FR_NO_FILE, w.seek (w.tick + 1)) := by
      unfold f_open
      refine (Prog.bind_ok _ hdraw).trans ?_
      rw [hf]
      refine (Prog.bind_ok _ (show Prog.get _ = (.ok (w.seek (w.tick + 1)), _) from rfl)).trans ?_
      rw [Device.seek_sd, hc]
      rfl
    exact .err (Prog.bind_err _ hopen) rfl

theorem comparison_decides [DecidableEq Digest] (hc : w.sd path = some c)
    (hfit : c.length ≤ firmware_max_size) {T : Prop} {f : Except Error Unit → BootM Unit}
    (hsame : ∀ w', w'.faults = w.faults → Decides (f (.ok ())) False w')
    (hdropped : ∀ e w', e ≠ .hash_compare_mismatch → w'.faults = w.faults →
      Decides (f (.error e)) False w')
    (hdiff : Decides (f (.error .hash_compare_mismatch)) T
      (w.seek (w.tick + (compareCalls c.length).length))) :
    Decides ((verifyBackup X path (some c.length)).attempt >>= f)
      (survey w.faults (compareCalls c.length) w.tick = .passed ∧
        X.sha256 c ≠ X.sha256 (w.bytes 0 c.length) ∧ T) w := by
  have h := verifyBackup_schedule X (some c.length) c.length rfl hfit hc
  unfold Schedule at h
  cases hs : survey w.faults (compareCalls c.length) w.tick with
  | passed =>
    rw [hs] at h
    by_cases heq : X.sha256 c = X.sha256 (w.bytes 0 c.length)
    · rw [if_pos heq] at h
      exact (Decides.of_same (Prog.attempt_ok h) rfl (hsame _ rfl)).congr (by simp [heq])
    · rw [if_neg heq] at h
      exact (Decides.of_same (Prog.attempt_err h) rfl hdiff).congr (by simp [heq])
  | failed =>
    rw [hs] at h
    obtain ⟨t, ⟨e, he, h⟩ | ⟨hi, h⟩⟩ := h
    · have hne : e ≠ .hash_compare_mismatch := by
        rintro rfl
        cases he
      exact (Decides.of_same (Prog.attempt_err h) rfl (hdropped e _ hne rfl)).congr (by simp)
    · exact (Decides.halt (Prog.bind_halt f (Prog.attempt_halt h)) rfl hi).congr (by simp)
  | halted =>
    rw [hs] at h
    obtain ⟨t, hi, h⟩ := h
    exact (Decides.halt (Prog.bind_halt f (Prog.attempt_halt h)) rfl hi).congr (by simp)

theorem sizeCheck_decides (hc : w.sd path = some c) {T : Prop} {f : Nat → BootM Unit}
    (hr : c.length ≤ firmware_max_size →
      Decides (f c.length) T (w.seek (w.tick + sizeCheckCalls.length))) :
    Decides (checkFirmwareCandidateSize path none >>= f)
      (c.length ≤ firmware_max_size ∧ survey w.faults sizeCheckCalls w.tick = .passed ∧ T) w := by
  have h := checkFirmwareCandidateSize_schedule hc
  unfold Schedule at h
  cases hs : survey w.faults sizeCheckCalls w.tick with
  | passed =>
    rw [hs] at h
    by_cases hfit : c.length ≤ firmware_max_size
    · rw [if_pos hfit] at h
      exact (Decides.of_same h rfl (hr hfit)).congr (by simp [hfit])
    · rw [if_neg hfit] at h
      exact (Decides.err (Prog.bind_err f h) rfl).congr (by simp [hfit])
  | failed =>
    rw [hs] at h
    obtain ⟨t, ⟨e, -, h⟩ | ⟨hi, h⟩⟩ := h
    · exact (Decides.err (Prog.bind_err f h) rfl).congr (by simp)
    · exact (Decides.halt (Prog.bind_halt f h) rfl hi).congr (by simp)
  | halted =>
    rw [hs] at h
    obtain ⟨t, hi, h⟩ := h
    exact (Decides.halt (Prog.bind_halt f h) rfl hi).congr (by simp)

/-- Behind a mismatch the key is loaded and the candidate verified. -/
theorem validation_decides (hc : w.sd path = some c) :
    Decides (do
        load_global_public_key X
        (verifyFirmware X B path).tryCatch fun _ => Prog.throw .firmware_candidate_not_valid)
      (∀ key ∈ X.base64_decode (getHttpSigKey w) 256,
        Unverifiable X B c key w.faults w.tick) w := by
  cases hkey : X.base64_decode (getHttpSigKey w) 256 with
  | none =>
    have hrun : load_global_public_key X w = (.trap, w) := by
      unfold load_global_public_key
      refine (Prog.bind_ok _ (show Prog.get w = (.ok w, w) from rfl)).trans ?_
      rw [hkey]
      rfl
    exact (Decides.trap (Prog.bind_trap _ hrun) rfl).congr (by simp)
  | some key =>
    have hrun : load_global_public_key X w = (.ok (), { w with pub_key := key }) := by
      unfold load_global_public_key
      refine (Prog.bind_ok _ (show Prog.get w = (.ok w, w) from rfl)).trans ?_
      rw [hkey]
      rfl
    have hloaded := verifyFirmware_decides X B (w := { w with pub_key := key }) hc
    exact (Decides.of_same hrun rfl hloaded.tryCatch_throw).congr (by simp)

/-- **What traps the check.** -/
theorem checkFirmwareImage_decides [DecidableEq Digest] (path : Path) (w : Device) :
    Decides (checkFirmwareImage X B path) (Unsafe X B path w) w := by
  unfold checkFirmwareImage
  cases hc : w.sd path with
  | none =>
    refine (missing_decides hc _).congr ⟨False.elim, ?_⟩
    rintro ⟨c, hmem, -⟩
    rw [hc] at hmem
    cases hmem
  | some c =>
    have hseek : (w.seek (w.tick + sizeCheckCalls.length)).sd path = some c := hc
    have hrest := validation_decides X B (w := w.seek (w.tick + sizeCheckCalls.length +
      (compareCalls c.length).length)) hc
    refine (sizeCheck_decides hc fun hfit => comparison_decides X hseek hfit ?_ ?_ hrest).congr ?_
    · exact fun _ _ => .err rfl rfl
    · intro e w' hne _
      refine Decides.ok (a := ()) (v := w') ?_ rfl
      simp only [if_neg hne]
      rfl
    · simp only [Device.seek_tick, Device.seek_faults, Device.seek_bytes]
      constructor
      · rintro ⟨hfit, hsize, hcmp, hne, hkey⟩
        exact ⟨c, hc, ⟨hfit, hsize, hcmp, hne⟩, hkey⟩
      · rintro ⟨c', hmem, hdiff, hkey⟩
        obtain rfl : c = c' := by simpa [hc] using hmem
        exact ⟨hdiff.fits, hdiff.sized, hdiff.compared, hdiff.hash, hkey⟩

/-- **When the check answers**: exactly where the configured key decodes and no call of the
verification fails, or the verification is not reached. -/
theorem answers_iff [DecidableEq Digest] (path : Path) (w : Device) :
    Answers (checkFirmwareImage X B path w).1 w ↔ ¬Unsafe X B path w := by
  have h := checkFirmwareImage_decides X B path w
  constructor
  · exact fun hx hunsafe => hx.1 (h.trap_iff.mpr hunsafe)
  · exact fun hsafe => ⟨fun hx => hsafe (h.trap_iff.mp hx), h.cut⟩

/-- An image library that reads two bytes and accepts every image. -/
def Bootutil.plain : Bootutil (List UInt8) Unit where
  boot_image_load_header := .read 0 [0, 0] fun _ _ => .done (some ())
  bootutil_img_validate _ _ := .key_hash fun _ _ => .done true

/-- `Externs.plain` with a decoder that refuses a `!`. -/
def Externs.strict : Externs (List UInt8) :=
  { Externs.plain with base64_decode s _ := if 0x21 ∈ s then none else some s }

/-- The key `!` is not base64, and the check of a new candidate traps. -/
theorem undecodable_key_traps :
    ¬Answers (checkFirmwareImage Externs.strict Bootutil.plain .fw_file_name
      { Device.sample (fun _ => .none) (some [0x42]) none with config _ := [0x21] }).1
      { Device.sample (fun _ => .none) (some [0x42]) none with config _ := [0x21] } :=
  fun h => h.1 (by decide +kernel)

end Answers

/-! ## The verdict where nothing fails -/

section Verdict

variable {c key : List UInt8} {path : Path} {w : Device}

/-- The library loads a header and validates the image with it. -/
def Bootutil.accepts (c key : List UInt8) : Bool :=
  match B.boot_image_load_header.result X c key with
  | some hdr => (B.bootutil_img_validate hdr key).result X c key
  | none => false

/-- The verdicts of the library as functions of the content. -/
def Bootutil.verdicts (key : List UInt8) : Externs Digest :=
  { X with
    boot_image_load_header c := (B.boot_image_load_header.result X c key).isSome
    bootutil_img_validate key c := B.accepts X c key }

theorem calling_passing {α : Type} {h : Handling} {m : BootM α} {n : Nat} {a : α}
    (hm : Calling h m n a w) (hw : w.Passing) : m w = (.ok a, w.seek (w.tick + n)) :=
  hm.passed (survey_passing hw _ _)

/-- `m` ends with `x` and leaves the oracle alone. -/
def Exits {α : Type} (m : BootM α) (x : Exit Error α) (w : Device) : Prop :=
  ∃ w', w'.faults = w.faults ∧ m w = (x, w')

theorem Exits.behind {α β : Type} {m : BootM α} {f : α → BootM β} {a : α} {x : Exit Error β}
    {v : Device} (h : m w = (.ok a, v)) (hf : v.faults = w.faults) (hx : Exits (f a) x v) :
    Exits (m >>= f) x w := by
  obtain ⟨w', hf', hrun⟩ := hx
  exact ⟨w', hf'.trans hf, (Prog.bind_ok f h).trans hrun⟩

theorem Exits.verdict (b : Bool) (w : Device) : Exits
    (if b = true then pure () else Prog.throw .generic_error : BootM Unit)
    (if b = true then .ok () else .err .generic_error) w := by
  cases b with
  | true => exact ⟨w, rfl, rfl⟩
  | false => exact ⟨w, rfl, rfl⟩

/-- Where nothing fails a deferred `close` leaves the exit alone. -/
theorem Exits.closing {α : Type} {m : BootM α} {f : File} {x : Exit Error α} (hw : w.Passing)
    (hm : Exits m x w) : Exits (Prog.deferring (f_close f) m) x w := by
  obtain ⟨w', hf, hm⟩ := hm
  have hnot : ¬(w'.faults w'.tick).halts = true := by
    rw [hf, (hw _).2]
    exact Bool.false_ne_true
  cases x with
  | ok a => exact ⟨w'.seek (w'.tick + 1), hf, (closing_ok hm).trans (if_neg hnot)⟩
  | err e => exact ⟨w'.seek (w'.tick + 1), hf, (closing_err hm).trans (if_neg hnot)⟩
  | trap => exact ⟨w', hf, Prog.deferring_trap hm⟩
  | halt => exact ⟨w', hf, Prog.deferring_halt hm⟩

/-- The verification where nothing fails. -/
theorem verifyFirmware_exits (hw : w.Passing) (hc : w.sd path = some c) :
    Exits (verifyFirmware X B path)
      (if B.accepts X c w.pub_key then .ok () else .err .generic_error) w := by
  have hfa : flash_area.Reads ⟨0, ⟨path, 0, c.length⟩⟩ (w.seek (w.tick + 1)) c :=
    ⟨rfl, hc, rfl, Nat.zero_le _⟩
  have hopen := calling_passing (Calling.of_single (Single.f_open hc)).orUnreachable hw
  obtain ⟨fa', hfa', hload⟩ := B.boot_image_load_header.calling X hfa
  refine Exits.behind hopen rfl (Exits.closing hw ?_)
  unfold Bootutil.accepts boot_image_load_header
  rw [Prog.bind_assoc]
  refine Exits.behind (calling_passing hload hw) rfl ?_
  simp only [Device.seek_pub_key]
  cases B.boot_image_load_header.result X c w.pub_key with
  | none => exact ⟨_, rfl, rfl⟩
  | some hdr =>
    refine Exits.behind (v := (w.seek _).seek _) rfl rfl ?_
    refine Exits.behind (calling_passing (Calling.of_single (Single.checked _ _)) hw) rfl ?_
    obtain ⟨fa'', -, hvalidate⟩ := (B.bootutil_img_validate hdr w.pub_key).calling X
      (hfa'.seek (w.tick + 1 + B.boot_image_load_header.calls X c w.pub_key + 1))
    refine Exits.behind (a := _) (v := _) rfl rfl ?_
    refine Exits.behind (calling_passing hvalidate hw) rfl ?_
    exact .verdict _ _

theorem boot_verifyFirmware_exits {X : Externs Digest} (hw : w.Passing) (hc : w.sd path = some c) :
    Exits (Boot.verifyFirmware X path) (if (X.boot_image_load_header c &&
      X.bootutil_img_validate w.pub_key c) = true then .ok () else .err .generic_error) w := by
  have hopen := calling_passing (Calling.of_single (Single.f_open hc)).orUnreachable hw
  have hcheck (w' : Device) (hw' : w'.Passing) := calling_passing
    (Calling.of_single (Single.checked FRESULT.check w')).orUnreachable hw'
  refine Exits.behind hopen rfl (Exits.closing hw ?_)
  unfold Boot.boot_image_load_header
  rw [Prog.bind_assoc]
  refine Exits.behind (hcheck _ hw) rfl ?_
  rw [Prog.bind_assoc]
  refine Exits.behind (a := _) (v := _) rfl rfl ?_
  simp only [Device.seek_sd, hc, Option.getD_some]
  cases X.boot_image_load_header c with
  | false => exact ⟨_, rfl, rfl⟩
  | true =>
    refine Exits.behind (v := (w.seek _).seek _) rfl rfl ?_
    refine Exits.behind (calling_passing (Calling.of_single (Single.checked _ _)) hw) rfl ?_
    refine Exits.behind (hcheck _ hw) rfl ?_
    refine Exits.behind (a := _) (v := _) rfl rfl ?_
    simp only [Device.seek_sd, Device.seek_pub_key, hc, Option.getD_some]
    refine Exits.behind (a := ()) (v := Device.record _ _) rfl rfl ?_
    exact .verdict _ _

/-- **The verdict where nothing fails** is that of the library on the content of the file. -/
theorem verifyFirmware_passing (hw : w.Passing) (hc : w.sd path = some c) :
    (verifyFirmware X B path w).1 = (Boot.verifyFirmware (B.verdicts X w.pub_key) path w).1 := by
  obtain ⟨w₁, -, hrun⟩ := verifyFirmware_exits X B hw hc
  obtain ⟨w₂, -, hrun'⟩ := boot_verifyFirmware_exits (X := B.verdicts X w.pub_key) hw hc
  rw [hrun, hrun']
  show _ = if ((B.boot_image_load_header.result X c w.pub_key).isSome &&
    B.accepts X c w.pub_key) = true then _ else _
  unfold Bootutil.accepts
  cases B.boot_image_load_header.result X c w.pub_key with
  | none => rfl
  | some hdr => rw [Option.isSome_some, Bool.true_and]

end Verdict


end Miso.Boot.Candidate
