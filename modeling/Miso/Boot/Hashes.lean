import Miso.Boot.Outcomes

/-!
# The two hashes of an image (`config.zig`)

A file is hashed block by block, the region at once; `verifyBackup` compares the two.

* `Whole` — a hash that is that of the whole content, or an error, where a call failed;
* `hashes_agree` — both functions have it, for every content.
-/

namespace Miso.Boot

open Zig

variable {Digest : Type}

/-- The function ends, with the digest of the whole content where none of its calls fails, and with
an error exactly where one does. -/
structure Whole (m : BootM Digest) (calls : List Bool) (digest : Digest) (w : Device) : Prop where
  safe : (m w).1 ≠ .trap
  ends : (m w).1 = .halt → w.Interrupted
  passed : survey w.faults calls w.tick = .passed → (m w).1 = .ok digest
  whole : ∀ d, (m w).1 = .ok d → d = digest
  failed : ¬w.Interrupted →
    ((∃ e, (m w).1 = .err e) ↔ survey w.faults calls w.tick = .failed)

/-- A schedule with a digest at its end. -/
theorem Schedule.whole {m : BootM Digest} {calls : List Bool} {digest : Digest} {w : Device}
    (h : Schedule m calls (.ok digest) w) : Whole m calls digest w := by
  obtain ⟨hs, hrun⟩ | ⟨hs, t, e, -, hrun⟩ | ⟨hi, t, hrun⟩ := h.exits
  · refine ⟨?_, ?_, ?_, ?_, ?_⟩ <;> rw [hrun]
    · exact fun htrap => by cases htrap
    · exact fun hhalt => by cases hhalt
    · exact fun _ => rfl
    · exact fun d hd => (Exit.ok.inj hd).symm
    · rw [hs]
      intro _
      constructor
      · intro herr
        obtain ⟨e, he⟩ := herr
        cases he
      · exact fun hfailed => by cases hfailed
  · refine ⟨?_, ?_, ?_, ?_, ?_⟩ <;> rw [hrun]
    · exact fun htrap => by cases htrap
    · exact fun hhalt => by cases hhalt
    · rw [hs]
      exact fun hpassed => by cases hpassed
    · exact fun d hd => by cases hd
    · exact fun _ => ⟨fun _ => hs, fun _ => ⟨e, rfl⟩⟩
  · refine ⟨?_, fun _ => hi, ?_, ?_, fun hni => absurd hi hni⟩
    · rw [hrun]
      exact fun htrap => by cases htrap
    · intro hs
      have hpassed := h.run hs
      rw [hrun] at hpassed
      cases hpassed
    · rw [hrun]
      exact fun d hd => by cases hd

variable (X : Externs Digest)

/-- **Hashing a file and hashing its content agree**: whatever the length, both give the digest of
the whole content, or an error where opening, allocating, reading or hashing fails. -/
theorem hashes_agree {path : Path} {content : List UInt8} {w : Device}
    (h : w.sd path = some content) (v : Device) :
    Whole (calculateFileHash X path) (fileHashCalls content.length) (X.sha256 content) w ∧
      Whole (calculateMemHash X content) memHashCalls (X.sha256 content) v :=
  ⟨(calculateFileHash_schedule X h).whole, (calculateMemHash_schedule X content v).whole⟩

/-- Two blocks. -/
theorem hashes_agree_blocks :
    (Device.sample (fun _ => .none) (some (List.replicate 1024 0x42)) none).sd .fw_file_name =
        some (List.replicate 1024 0x42) ∧
      Whole (calculateFileHash .plain .fw_file_name) (fileHashCalls 1024)
        (List.replicate 1024 0x42)
        (.sample (fun _ => .none) (some (List.replicate 1024 0x42)) none) ∧
      Whole (calculateMemHash .plain (List.replicate 1024 0x42)) memHashCalls
        (List.replicate 1024 0x42) (.sample (fun _ => .none) none none) := by
  have h : (Device.sample (fun _ => .none) (some (List.replicate 1024 0x42)) none).sd
      .fw_file_name = some (List.replicate 1024 0x42) := rfl
  have hagree := hashes_agree .plain h (.sample (fun _ => .none) none none)
  rw [List.length_replicate] at hagree
  exact ⟨h, hagree⟩

end Miso.Boot
