import Miso.Boot.History

/-!
# `taskFunction` and its steps

`taskFunction_steps`: whatever `taskFunction` does, its steps do.  A run that reaches
`prepareJump()` is a sequence of `taskStep`s from `start` to `jump`; a run that traps, is cut off or
is observed for a while only is a sequence of steps up to that point.  What is proved of histories
is therefore proved of `taskFunction` (`taskFunction_history`).
-/

namespace Miso.Boot

open Zig

variable {Digest : Type} [DecidableEq Digest] (X : Externs Digest) (fuel : Nat)

/-- One step after the other leads from `a` to `b`. -/
def Leads (a b : Pc × Device) : Prop :=
  Relation.ReflTransGen (fun a b => a.1 ≠ .jump ∧ taskStep X fuel a.1 a.2 = (.ok b.1, b.2)) a b

/-- The steps from `a` stop in `w`: observed no longer, or cut off in the middle of one. -/
def Stops (a : Pc × Device) (w : Device) : Prop :=
  (∃ pc, Leads X fuel a (pc, w)) ∨
    ∃ pc w', Leads X fuel a (pc, w') ∧ pc ≠ .jump ∧ taskStep X fuel pc w' = (.halt, w)

/-- The steps from `a` trap in `w`. -/
def Traps (a : Pc × Device) (w : Device) : Prop :=
  ∃ pc w', Leads X fuel a (pc, w') ∧ pc ≠ .jump ∧ taskStep X fuel pc w' = (.trap, w)

/-- The steps from `a` do what a program did: they are at `pc` where it has returned. -/
def Stepwise {α : Type} (a : Pc × Device) (pc : α → Pc) : Exit Error α → Device → Prop
  | .ok v, w => Leads X fuel a (pc v, w)
  | .err _, _ => False
  | .trap, w => Traps X fuel a w
  | .halt, w => Stops X fuel a w

/-- The steps from `a` have followed a run of the machine up to its last round. -/
def Rounds (a : Pc × Device) (pos : update_state → Pc) :
    Exit Error firmware_update_outcome → Device → Prop
  | .ok o, w => ∃ st w', Leads X fuel a (pos st, w') ∧
      phaseStep (.device X fuel) st w' = (.ok (.inr o), w)
  | .err e, w => ∃ st w', Leads X fuel a (pos st, w') ∧
      phaseStep (.device X fuel) st w' = (.err e, w)
  | .trap, w => Traps X fuel a w
  | .halt, w => Stops X fuel a w

variable {X fuel}

theorem Leads.step {a : Pc × Device} {pc pc' : Pc} {w w' : Device} (h : Leads X fuel a (pc, w))
    (hpc : pc ≠ .jump) (hs : taskStep X fuel pc w = (.ok pc', w')) : Leads X fuel a (pc', w') :=
  h.tail ⟨hpc, hs⟩

/-! ## The machine -/

/-- The machine takes its rounds one step at a time. -/
theorem machine_rounds {a : Pc × Device} {pos : update_state → Pc}
    (hpos : pos = .update ∨ pos = .restore) (n : Nat) (st : update_state) (w : Device)
    (h : Leads X fuel a (pos st, w)) :
    wp (Prog.loop (phaseStep (.device X fuel)) n st) (Rounds X fuel a pos) w := by
  refine wp_loop_post (fun st w => Leads X fuel a (pos st, w)) ?_ (fun st w h => .inl ⟨pos st, h⟩)
    n st w h
  intro st w h
  have hjump : pos st ≠ .jump := by rcases hpos with rfl | rfl <;> simp
  show thenPost _ _ (phaseStep (.device X fuel) st w).1 (phaseStep (.device X fuel) st w).2
  cases hs : phaseStep (.device X fuel) st w with
  | mk x w' =>
    cases x with
    | ok r =>
      cases r with
      | inl st' =>
        refine h.step hjump ?_
        obtain rfl | rfl := hpos
        · exact Prog.bind_ok _ (Prog.attempt_ok hs)
        · exact Prog.bind_ok _ (Prog.attempt_ok hs)
      | inr o => exact ⟨st, w, h, hs⟩
    | err e => exact ⟨st, w, h, hs⟩
    | trap =>
      refine ⟨pos st, w, h, hjump, ?_⟩
      obtain rfl | rfl := hpos
      · exact Prog.bind_trap _ (Prog.attempt_trap hs)
      · exact Prog.bind_trap _ (Prog.attempt_trap hs)
    | halt =>
      refine .inr ⟨pos st, w, h, hjump, ?_⟩
      obtain rfl | rfl := hpos
      · exact Prog.bind_halt _ (Prog.attempt_halt hs)
      · exact Prog.bind_halt _ (Prog.attempt_halt hs)

/-! ## An attempt -/

/-- The end of the loop body behind `m`, with the position it leads to. -/
theorem ending_run {m : BootM Unit} (hm : ∀ w e w', m w ≠ (.err e, w')) (w : Device) :
    ∃ w', Prog.deferring unmount m w = (.ok (), w') ∧
        (do m; unmount.orIgnore; pure Pc.head : BootM Pc) w = (.ok .head, w') ∨
      Prog.deferring unmount m w = (.trap, w') ∧
        (do m; unmount.orIgnore; pure Pc.head : BootM Pc) w = (.trap, w') ∨
      Prog.deferring unmount m w = (.halt, w') ∧
        (do m; unmount.orIgnore; pure Pc.head : BootM Pc) w = (.halt, w') := by
  cases hrun : m w with
  | mk x w₁ =>
    cases x with
    | ok a =>
      have hun := unmount_spec w₁
      unfold wp at hun
      cases hrun' : unmount.orIgnore w₁ with
      | mk y w₂ =>
        rw [hrun'] at hun
        cases y with
        | ok b =>
          refine ⟨w₂, .inl ⟨?_, ?_⟩⟩
          · exact (Prog.bind_ok _ (Prog.attempt_ok hrun)).trans (Prog.bind_ok _ hrun')
          · exact (Prog.bind_ok _ hrun).trans (Prog.bind_ok _ hrun')
        | err e => exact hun.2.elim
        | trap => exact hun.2.elim
        | halt =>
          refine ⟨w₂, .inr (.inr ⟨?_, ?_⟩)⟩
          · exact (Prog.bind_ok _ (Prog.attempt_ok hrun)).trans (Prog.bind_halt _ hrun')
          · exact (Prog.bind_ok _ hrun).trans (Prog.bind_halt _ hrun')
    | err e => exact absurd hrun (hm w e w₁)
    | trap => exact ⟨w₁, .inr (.inl ⟨Prog.deferring_trap hrun, Prog.bind_trap _ hrun⟩)⟩
    | halt => exact ⟨w₁, .inr (.inr ⟨Prog.deferring_halt hrun, Prog.bind_halt _ hrun⟩)⟩

/-- A step that performs the end of the loop body. -/
theorem Leads.ending {a : Pc × Device} {pc : Pc} {w w₁ : Device} (h : Leads X fuel a (pc, w₁))
    (hpc : pc ≠ .jump) {m : BootM Unit} (hm : ∀ w e w', m w ≠ (.err e, w'))
    (hs : taskStep X fuel pc w₁ = (do m; unmount.orIgnore; pure Pc.head : BootM Pc) w) :
    wp (Prog.deferring unmount m) (Stepwise X fuel a fun _ => .head) w := by
  obtain ⟨w', ⟨hd, hr⟩ | ⟨hd, hr⟩ | ⟨hd, hr⟩⟩ := ending_run hm w
  · exact wp_of_eq hd (h.step hpc (hs.trans hr))
  · exact wp_of_eq hd ⟨pc, w₁, h, hpc, hs.trans hr⟩
  · exact wp_of_eq hd (.inr ⟨pc, w₁, h, hpc, hs.trans hr⟩)

theorem orUnreachable_noErr {m : BootM Unit} (w : Device) (e : Error) (w' : Device) :
    m.orUnreachable w ≠ (.err e, w') := by
  intro h
  have hrun : wp m.orUnreachable (fun x _ => x ≠ .err e) w := by
    rw [wp_orUnreachable]
    show catchPost _ _ (m w).1 (m w).2
    cases (m w).1 <;> simp
  exact wp_of_run hrun h rfl

theorem orIgnore_noErr {m : BootM Unit} (w : Device) (e : Error) (w' : Device) :
    m.orIgnore w ≠ (.err e, w') := by
  intro h
  have hrun : wp m.orIgnore (fun x _ => x ≠ .err e) w := by
    rw [wp_orIgnore]
    show catchPost _ _ (m w).1 (m w).2
    cases (m w).1 <;> simp
  exact wp_of_run hrun h rfl

/-- The fallback takes its phases one step at a time. -/
theorem restore_stepwise {a : Pc × Device} {w : Device}
    (h : Leads X fuel a (.restore (.start .restore_backup), w)) :
    wp (Prog.deferring unmount (do
      match ← (firmwareRestore (.device X fuel) fuel).attempt with
      | .ok _ => clearUpdateRequest.orUnreachable
      | .error _ => pure ())) (Stepwise X fuel a fun _ => .head) w := by
  have hm := machine_rounds (.inr rfl) fuel (.start .restore_backup) w h
  cases hrun : firmwareRestore (.device X fuel) fuel w with
  | mk x w' =>
    have hx := wp_of_run hm hrun
    cases x with
    | ok o =>
      obtain ⟨st, w₁, hl, hs⟩ := hx
      refine wp_of_same (Prog.deferring_bind_ok _ (Prog.attempt_ok hrun)) ?_
      exact hl.ending (by simp) orUnreachable_noErr (Prog.bind_ok _ (Prog.attempt_ok hs))
    | err e =>
      obtain ⟨st, w₁, hl, hs⟩ := hx
      refine wp_of_same (Prog.deferring_bind_ok _ (Prog.attempt_err hrun)) ?_
      exact hl.ending (m := pure ()) (by simp) (fun _ _ _ h => by cases h) (Prog.bind_ok _ (Prog.attempt_err hs))
    | trap => exact wp_of_eq (Prog.deferring_trap (Prog.bind_trap _ (Prog.attempt_trap hrun))) hx
    | halt => exact wp_of_eq (Prog.deferring_halt (Prog.bind_halt _ (Prog.attempt_halt hrun))) hx

/-- An attempt takes its phases one step at a time. -/
theorem attempt_stepwise {a : Pc × Device} {w : Device}
    (h : Leads X fuel a (.update (.start .check), w)) :
    wp (updateAttempt X fuel) (Stepwise X fuel a fun _ => .head) w := by
  have hm := machine_rounds (.inl rfl) fuel (.start .check) w h
  unfold updateAttempt
  cases hrun : firmwareUpdate (.device X fuel) fuel w with
  | mk x w' =>
    have hx := wp_of_run hm hrun
    cases x with
    | ok o =>
      obtain ⟨st, w₁, hl, hs⟩ := hx
      refine wp_of_same (Prog.deferring_bind_ok _ (Prog.attempt_ok hrun)) ?_
      exact hl.ending (by simp) orUnreachable_noErr (Prog.bind_ok _ (Prog.attempt_ok hs))
    | err e =>
      obtain ⟨st, w₁, hl, hs⟩ := hx
      refine wp_of_same (Prog.deferring_bind_ok _ (Prog.attempt_err hrun)) ?_
      have hstep : taskStep X fuel (.update st) w₁ =
          (if e = .firmware_candidate_not_valid then finishAttempt
            else if e = .firmware_already_in_system then finishAttempt
            else pure (.restore (.start .restore_backup)) : BootM Pc) w' :=
        Prog.bind_ok _ (Prog.attempt_err hs)
      show wp (Prog.deferring unmount (if e = .firmware_candidate_not_valid then _ else _)) _ _
      by_cases h₁ : e = .firmware_candidate_not_valid
      · rw [if_pos h₁] at hstep ⊢
        exact hl.ending (by simp) orUnreachable_noErr hstep
      · rw [if_neg h₁] at hstep ⊢
        by_cases h₂ : e = .firmware_already_in_system
        · rw [if_pos h₂] at hstep ⊢
          exact hl.ending (by simp) orUnreachable_noErr hstep
        · rw [if_neg h₂] at hstep ⊢
          exact restore_stepwise (hl.step (by simp) hstep)
    | trap => exact wp_of_eq (Prog.deferring_trap (Prog.bind_trap _ (Prog.attempt_trap hrun))) hx
    | halt => exact wp_of_eq (Prog.deferring_halt (Prog.bind_halt _ (Prog.attempt_halt hrun))) hx

/-! ## The loop -/

/-- One round of the `while` loop of `taskFunction`. -/
theorem loop_stepwise {a : Pc × Device} {w : Device} (h : Leads X fuel a (.head, w)) :
    wp (do
      if ← isUpdateRequested.tryCatch fun _ => pure false then
        match ← mount.attempt with
        | .error _ => pure (.inr ())
        | .ok () => do
          updateAttempt X fuel
          pure (.inl ())
      else pure (.inr ()) : BootM (Unit ⊕ Unit))
      (Stepwise X fuel a fun r => if r.isLeft then .head else .jump) w := by
  cases hreq : (isUpdateRequested.tryCatch fun _ => pure false) w with
  | mk x w₁ =>
    have hx := wp_of_run (isUpdateRequested_spec w) hreq
    cases x with
    | ok b =>
      refine wp_of_same (Prog.bind_ok _ hreq) ?_
      have hstep := Prog.bind_ok (m := isUpdateRequested.tryCatch fun _ => pure false) (fun b => do
        if b then
          match ← mount.attempt with
          | .error _ => pure .jump
          | .ok () => pure (.update (.start .check))
        else pure .jump : Bool → BootM Pc) hreq
      cases b with
      | false => exact h.step (by simp) hstep
      | true =>
        have hm := checked_run FRESULT.check w₁
        cases hmount : mount w₁ with
        | mk y w₂ =>
          cases y with
          | ok u =>
            have hl := h.step (by simp) (hstep.trans (Prog.bind_ok _ (Prog.attempt_ok hmount)))
            refine wp_of_same (Prog.bind_ok _ (Prog.attempt_ok hmount)) ?_
            rw [wp_bind]
            refine wp_mono (attempt_stepwise hl) ?_
            intro z w₃ hz
            cases z with
            | ok v => exact hz
            | err e => exact hz.elim
            | trap => exact hz
            | halt => exact hz
          | err e =>
            refine wp_of_same (Prog.bind_ok _ (Prog.attempt_err hmount)) ?_
            exact h.step (by simp) (hstep.trans (Prog.bind_ok _ (Prog.attempt_err hmount)))
          | trap =>
            refine wp_of_eq (Prog.bind_trap _ (Prog.attempt_trap hmount)) ?_
            exact ⟨.head, w, h, by simp, hstep.trans (Prog.bind_trap _ (Prog.attempt_trap hmount))⟩
          | halt =>
            refine wp_of_eq (Prog.bind_halt _ (Prog.attempt_halt hmount)) ?_
            exact .inr ⟨.head, w, h, by simp,
              hstep.trans (Prog.bind_halt _ (Prog.attempt_halt hmount))⟩
    | err e => exact hx.2.elim
    | trap => exact hx.2.elim
    | halt =>
      refine wp_of_eq (Prog.bind_halt _ hreq) ?_
      exact .inr ⟨.head, w, h, by simp, Prog.bind_halt _ hreq⟩

/-- **Whatever `taskFunction` does, its steps do.** -/
theorem taskFunction_steps (w : Device) :
    wp (taskFunction X fuel) (Stepwise X fuel (.start, w) fun _ => .jump) w := by
  have hstart : Leads X fuel (.start, w) (.start, w) := .refl
  cases hinit : nvm_init.orIgnore w with
  | mk x w₁ =>
    cases x with
    | ok u =>
      cases hload : load_config_from_nvm.orIgnore w₁ with
      | mk y w₂ =>
        refine wp_of_same (Prog.bind_ok _ hinit) ?_
        cases y with
        | ok v =>
          have hhead : Leads X fuel (.start, w) (.head, w₂) :=
            hstart.step (by simp) ((Prog.bind_ok _ hinit).trans (Prog.bind_ok _ hload))
          refine wp_of_same (Prog.bind_ok _ hload) ?_
          refine wp_loop_post (fun _ w' => Leads X fuel (.start, w) (.head, w')) ?_
            (fun _ w' h => .inl ⟨.head, h⟩) fuel () w₂ hhead
          intro _ w' h
          refine wp_mono (loop_stepwise h) ?_
          intro z w'' hz
          cases z with
          | ok r => cases r <;> exact hz
          | err e => exact hz
          | trap => exact hz
          | halt => exact hz
        | err e => exact absurd hload (orIgnore_noErr w₁ e w₂)
        | trap =>
          refine wp_of_eq (Prog.bind_trap _ hload) ⟨.start, w, hstart, by simp, ?_⟩
          exact (Prog.bind_ok _ hinit).trans (Prog.bind_trap _ hload)
        | halt =>
          refine wp_of_eq (Prog.bind_halt _ hload) (.inr ⟨.start, w, hstart, by simp, ?_⟩)
          exact (Prog.bind_ok _ hinit).trans (Prog.bind_halt _ hload)
    | err e => exact absurd hinit (orIgnore_noErr w e w₁)
    | trap =>
      exact wp_of_eq (Prog.bind_trap _ hinit)
        ⟨.start, w, hstart, by simp, Prog.bind_trap _ hinit⟩
    | halt =>
      exact wp_of_eq (Prog.bind_halt _ hinit)
        (.inr ⟨.start, w, hstart, by simp, Prog.bind_halt _ hinit⟩)

/-! ## Histories -/

/-- Steps are part of a history. -/
theorem Leads.history {s : Sys} {b : Pc × Device} (h : Leads X fuel (s.pc, s.dev) b) :
    ∃ cur, History X (fun _ => True) s ⟨b.1, b.2, s.installed, cur⟩ := by
  induction h with
  | refl => exact ⟨s.current, .refl⟩
  | @tail b c _ hstep ih =>
    obtain ⟨cur, hist⟩ := ih
    have hnext := Step.task (X := X) (C := fun _ => True) fuel (s := ⟨b.1, b.2, s.installed, cur⟩)
      hstep.1 trivial
    unfold Sys.next at hnext
    rw [hstep.2] at hnext
    exact ⟨_, Relation.ReflTransGen.tail hist hnext⟩

/-- A run of `taskFunction` that reaches `prepareJump()` is part of a history. -/
theorem taskFunction_history {s : Sys} (hpc : s.pc = .start) {w : Device}
    (hrun : taskFunction X fuel s.dev = (.ok (), w)) :
    ∃ cur, History X (fun _ => True) s ⟨.jump, w, s.installed, cur⟩ := by
  have h := wp_of_run (taskFunction_steps s.dev) hrun
  rw [← hpc] at h
  exact Leads.history h

end Miso.Boot
