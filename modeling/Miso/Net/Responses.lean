import Mathlib.Tactic.ByContra
import Miso.Net.Waits

/-!
# Responses of the select task

Every wait is answered in a run of the network mediator in which no step takes a slot away from a
client that holds it.

* `Attended` — the request of a client that waits is not overlooked, and the mutex has a holder;
* `State.Near` — the round of the select task in which the response is sent has begun;
* `Near.step`, `delay_step` — each step of the select task brings the response nearer;
* `served_of_undisturbed` — the waits of such a run are served and answered.

The slot of a client that has not sent its request yet has no deadline, so that the select task
may free it, and two clients may find the same slot free (`wait_lost`).
-/

namespace Miso.Net.Mediator

open Zig

/-- How far the select task has come in a round of its loop; eight steps for each slot. -/
def Select.Pc.place : Select.Pc → Nat
  | .top => 0
  | .scan i => 1 + 8 * min i 4
  | .rx_queue k => 2 + 8 * k
  | .tx_queue k => 3 + 8 * k
  | .deadline k => 4 + 8 * k
  | .take k => 5 + 8 * k
  | .invalidate k => 6 + 8 * k
  | .give k => 7 + 8 * k
  | .timeout k => 8 + 8 * k
  | .scanned => 34
  | .sl_Select => 35
  | .deliver i => 36 + 2 * min i 4
  | .ready k => 37 + 2 * k
  | .waitForNotify => 35

/-- The select task has taken the mutex. -/
def Select.Pc.locks : Select.Pc → Bool
  | .invalidate _ => true
  | .give _ => true
  | _ => false

theorem Select.Pc.place_le (pc : Select.Pc) : pc.place ≤ 44 := by
  cases pc <;> simp only [place] <;> omega

section Responses

variable {ι : Type} [DecidableEq ι] {sd : ι → Nat}

namespace State

variable {s : State ι}

/-! ## Nothing is overlooked -/

omit [DecidableEq ι] in
/-- A slot that has a request is in use. -/
theorem Inv.requested (hi : s.Inv sd) {k : Index} (h : (s.slots k).rx_queue ≠ none) :
    0 ≤ (s.slots k).sd := by
  have hle := hi.tokens_le k
  unfold tokens connectionManagerElement.tokens at hle
  rw [if_neg h] at hle
  apply hi.sd_nonneg
  · unfold tokens connectionManagerElement.tokens
    rw [if_neg h]
    omega
  · by_contra hs
    rw [if_neg hs] at hle
    omega

omit [DecidableEq ι] in
theorem Inv.accepted (hi : s.Inv sd) {k : Index} (h : (s.slots k).rx_wait_deadline_ms ≠ 0) :
    0 ≤ (s.slots k).sd := by
  have hle := hi.tokens_le k
  unfold tokens connectionManagerElement.tokens at hle
  rw [if_neg h] at hle
  apply hi.sd_nonneg
  · unfold tokens connectionManagerElement.tokens
    rw [if_neg h]
    omega
  · by_contra hs
    rw [if_neg hs] at hle
    omega

/-- **What every step preserves**: a request is that of the client that waits, one that has not been
read will be before the select task sleeps, a deadline that has been read is in the read set, and
the mutex has a holder. -/
structure Attended (s : State ι) : Prop where
  asks : ∀ c k d, (s.clients c).pc.waits = some k → (s.slots k).rx_queue = some d →
    d = (s.clients c).deadline_ms
  accepted : ∀ c k, (s.clients c).pc.waits = some k → (s.slots k).rx_wait_deadline_ms ≠ 0 →
    (s.slots k).rx_wait_deadline_ms = (s.clients c).deadline_ms
  unread : ∀ c k, (s.clients c).pc = .recieve k → (s.slots k).rx_queue ≠ none →
    s.notified = true ∨ s.select.pc.place ≤ 2 + 8 * k
  watched : ∀ k : Index, (s.slots k).rx_wait_deadline_ms ≠ 0 → 4 + 8 * k < s.select.pc.place →
    s.select.pc.place ≤ 34 → 8 + 8 * k < s.select.pc.place ∧ s.select.read_fd_set ≠ []
  asleep : s.select.pc = .waitForNotify → ∀ k, (s.slots k).rx_wait_deadline_ms = 0
  held : s.mutex = true → (∃ d, (s.clients d).pc.locks = true) ∨ s.select.pc.locks = true

omit [DecidableEq ι] in
theorem Attended.initial : (State.initial : State ι).Attended where
  asks := nofun
  accepted := nofun
  unread := nofun
  watched := fun _ h => absurd rfl h
  asleep := nofun
  held := nofun

omit [DecidableEq ι] in
/-- A store to a slot that is not to its deadline. -/
theorem kept_deadline {k j : Index} {x : connectionManagerElement}
    (h : x.rx_wait_deadline_ms = (s.slots k).rx_wait_deadline_ms) :
    ((s.setSlot k x).slots j).rx_wait_deadline_ms = (s.slots j).rx_wait_deadline_ms := by
  by_cases hjk : j = k
  · subst hjk
    rwa [setSlot_self]
  · rw [setSlot_other hjk]

omit [DecidableEq ι] in
/-- A store to a slot that is not to its request or deadline. -/
theorem kept {k j : Index} {x : connectionManagerElement}
    (hqueue : x.rx_queue = (s.slots k).rx_queue)
    (hdeadline : x.rx_wait_deadline_ms = (s.slots k).rx_wait_deadline_ms) :
    ((s.setSlot k x).slots j).rx_queue = (s.slots j).rx_queue ∧
      ((s.setSlot k x).slots j).rx_wait_deadline_ms = (s.slots j).rx_wait_deadline_ms := by
  refine ⟨?_, kept_deadline hdeadline⟩
  by_cases hjk : j = k
  · subst hjk
    rwa [setSlot_self]
  · rw [setSlot_other hjk]

/-- A step of a client that does not send a request. -/
theorem Attended.work (ha : s.Attended) {c : ι} {x : Client}
    {slots : Index → connectionManagerElement} {mutex notified : Bool} {now : Nat}
    (hslots : ∀ k, (slots k).rx_queue = (s.slots k).rx_queue ∧
      (slots k).rx_wait_deadline_ms = (s.slots k).rx_wait_deadline_ms)
    (hwaits : ∀ k, x.pc.waits = some k →
      (s.clients c).pc.waits = some k ∧ x.deadline_ms = (s.clients c).deadline_ms)
    (hrecieve : ∀ k, x.pc = .recieve k → notified = true ∨ (s.clients c).pc = .recieve k)
    (hnotified : s.notified = true → notified = true)
    (hheld : mutex = true → x.pc.locks = true ∨ s.mutex = true ∧ (s.clients c).pc.locks = false) :
    Attended ⟨slots, mutex, Function.update s.clients c x, s.select, notified, now⟩ := by
  have hself : Function.update s.clients c x c = x := Function.update_self ..
  have hother : ∀ d, d ≠ c → Function.update s.clients c x d = s.clients d :=
    fun d hd => Function.update_of_ne hd x s.clients
  -- a client that waits has waited before, with the same deadline
  have hwaited : ∀ d k, (Function.update s.clients c x d).pc.waits = some k →
      (s.clients d).pc.waits = some k ∧
        (Function.update s.clients c x d).deadline_ms = (s.clients d).deadline_ms := by
    intro d k hd
    by_cases hdc : d = c
    · subst hdc
      rw [hself] at hd ⊢
      exact hwaits k hd
    · rw [hother d hdc] at hd ⊢
      exact ⟨hd, rfl⟩
  constructor
  · intro d k r hd hr
    obtain ⟨hw, hdeadline⟩ := hwaited d k hd
    rw [hdeadline]
    exact ha.asks d k r hw ((hslots k).1.symm.trans hr)
  · intro d k hd hk
    obtain ⟨hw, hdeadline⟩ := hwaited d k hd
    simp only [(hslots k).2] at hk ⊢
    rw [hdeadline]
    exact ha.accepted d k hw hk
  · intro d k hd hk
    simp only [(hslots k).1] at hk
    by_cases hdc : d = c
    · subst hdc
      simp only [hself] at hd
      obtain hn | hbefore := hrecieve k hd
      · exact .inl hn
      · exact (ha.unread d k hbefore hk).imp_left hnotified
    · simp only [hother d hdc] at hd
      exact (ha.unread d k hd hk).imp_left hnotified
  · intro k hk
    simp only [(hslots k).2] at hk
    exact ha.watched k hk
  · intro hpc k
    simp only [(hslots k).2]
    exact ha.asleep hpc k
  · intro hm
    obtain hx | ⟨hmutex, hc⟩ := hheld hm
    · exact .inl ⟨c, by simp only [hself, hx]⟩
    · obtain ⟨d, hd⟩ | hselect := ha.held hmutex
      · have hdc : d ≠ c := by
          rintro rfl
          rw [hc] at hd
          cases hd
        exact .inl ⟨d, by simp only [hother d hdc, hd]⟩
      · exact .inr hselect

/-- A step after which the client does not wait. -/
theorem Attended.prepare (ha : s.Attended) {c : ι} {x : Client}
    {slots : Index → connectionManagerElement} {mutex : Bool} {now : Nat}
    (hslots : ∀ k, (slots k).rx_queue = (s.slots k).rx_queue ∧
      (slots k).rx_wait_deadline_ms = (s.slots k).rx_wait_deadline_ms)
    (hnone : x.pc.waits = none)
    (hheld : mutex = true → x.pc.locks = true ∨ s.mutex = true ∧ (s.clients c).pc.locks = false) :
    Attended ⟨slots, mutex, Function.update s.clients c x, s.select, s.notified, now⟩ := by
  refine ha.work hslots ?_ ?_ id hheld
  · intro k hk
    rw [hnone] at hk
    cases hk
  · intro k hk
    rw [hk] at hnone
    cases hnone

/-- The request is sent to a slot that has none. -/
theorem Attended.send (ha : s.Attended) (hi : s.Inv sd) {c : ι} {k : Index}
    (hpc : (s.clients c).pc = .send k) : (s.clientStep sd c).Attended := by
  have hholds : (s.clients c).pc.holds = some k := by simp [hpc, Client.Pc.holds]
  have hnone : s.tokens k = 0 :=
    hi.no_tokens (hi.holding hholds).1 (by simp [hpc, Client.Pc.waits])
  unfold tokens connectionManagerElement.tokens at hnone
  have hqueue : (s.slots k).rx_queue = none := by
    by_contra hsome
    rw [if_neg hsome] at hnone
    omega
  have hdeadline : (s.slots k).rx_wait_deadline_ms = 0 := by
    by_contra hne
    rw [if_neg hne] at hnone
    omega
  -- a client that waits on the slot is `c`
  have hsole : ∀ d, (s.clients d).pc.waits = some k → d = c :=
    fun d hd => hi.sole d c k (Client.Pc.waits_holds hd) hholds
  unfold clientStep
  simp only [hpc, hqueue]
  constructor
  · intro d j r hd hr
    by_cases hdc : d = c
    · subst hdc
      obtain rfl : k = j := by simpa [goto, Client.Pc.waits] using hd
      simpa [goto, eq_comm] using hr
    · rw [goto, setClient_other hdc] at hd ⊢
      have hjk : j ≠ k := by
        rintro rfl
        exact hdc (hsole d hd)
      rw [goto, setClient_slots, setSlot_other hjk] at hr
      exact ha.asks d j r hd hr
  · intro d j hd hj
    by_cases hjk : j = k
    · subst hjk
      simp only [goto, setClient_slots, setSlot_self] at hj
      exact absurd hdeadline hj
    · rw [goto, setClient_slots, setSlot_other hjk] at hj ⊢
      by_cases hdc : d = c
      · subst hdc
        exact absurd (by simpa [goto, Client.Pc.waits, eq_comm] using hd) hjk
      · rw [goto, setClient_other hdc] at hd
        rw [setClient_other hdc]
        exact ha.accepted d j hd hj
  · intro d j hd hj
    by_cases hdc : d = c
    · subst hdc
      simp [goto] at hd
    · rw [goto, setClient_other hdc] at hd
      have hjk : j ≠ k := by
        rintro rfl
        exact hdc (hsole d (by rw [show (s.clients d).pc = .recieve j from hd]; rfl))
      rw [goto, setClient_slots, setSlot_other hjk] at hj
      exact ha.unread d j hd hj
  · intro j hj
    by_cases hjk : j = k
    · subst hjk
      simp only [goto, setClient_slots, setSlot_self] at hj
      exact absurd hdeadline hj
    · rw [goto, setClient_slots, setSlot_other hjk] at hj
      exact ha.watched j hj
  · intro hsleep j
    by_cases hjk : j = k
    · subst hjk
      simp only [goto, setClient_slots, setSlot_self]
      exact hdeadline
    · rw [goto, setClient_slots, setSlot_other hjk]
      exact ha.asleep hsleep j
  · intro hm
    obtain ⟨d, hd⟩ | hselect := ha.held hm
    · have hdc : d ≠ c := by
        rintro rfl
        rw [hpc] at hd
        cases hd
      exact .inl ⟨d, by rw [goto, setClient_other hdc]; exact hd⟩
    · exact .inr hselect

/-- **A step of a client.** -/
theorem Attended.client (ha : s.Attended) (hi : s.Inv sd) (c : ι) :
    (s.clientStep sd c).Attended := by
  have hsame : ∀ k, (s.slots k).rx_queue = (s.slots k).rx_queue ∧
      (s.slots k).rx_wait_deadline_ms = (s.slots k).rx_wait_deadline_ms :=
    fun _ => ⟨rfl, rfl⟩
  cases hpc : (s.clients c).pc with
  | idle => simpa only [clientStep, hpc] using ha
  | findSocket i =>
    have hfree : (s.clients c).pc.locks = false := by rw [hpc]; rfl
    unfold clientStep
    simp only [hpc]
    split
    · split
      · exact ha.prepare hsame rfl fun hm => .inr ⟨hm, hfree⟩
      · exact ha.prepare hsame rfl fun hm => .inr ⟨hm, hfree⟩
    · exact ha.prepare hsame rfl fun hm => .inr ⟨hm, hfree⟩
  | findFreeSocket i =>
    have hfree : (s.clients c).pc.locks = false := by rw [hpc]; rfl
    unfold clientStep
    simp only [hpc]
    split
    · split
      · exact ha.prepare hsame rfl fun hm => .inr ⟨hm, hfree⟩
      · exact ha.prepare hsame rfl fun hm => .inr ⟨hm, hfree⟩
    · exact ha.prepare hsame rfl fun hm => .inr ⟨hm, hfree⟩
  | take k =>
    unfold clientStep
    simp only [hpc]
    split
    · exact ha
    · exact ha.prepare hsame rfl fun _ => .inl rfl
  | claim k =>
    unfold clientStep
    simp only [hpc]
    exact ha.prepare (fun _ => kept rfl rfl) rfl fun _ => .inl rfl
  | give k =>
    unfold clientStep
    simp only [hpc]
    exact ha.prepare hsame rfl fun hm => absurd hm Bool.false_ne_true
  | reset k =>
    have hfree : (s.clients c).pc.locks = false := by rw [hpc]; rfl
    unfold clientStep
    simp only [hpc]
    exact ha.prepare (fun _ => kept rfl rfl) rfl fun hm => .inr ⟨hm, hfree⟩
  | send k => exact ha.send hi hpc
  | notify k =>
    have hfree : (s.clients c).pc.locks = false := by rw [hpc]; rfl
    have hwaits : (s.clients c).pc.waits = some k := by rw [hpc]; rfl
    unfold clientStep
    simp only [hpc]
    refine ha.work hsame ?_ (fun _ _ => .inl rfl) (fun _ => rfl) fun hm => .inr ⟨hm, hfree⟩
    intro j hj
    exact ⟨hwaits.trans hj, rfl⟩
  | recieve k =>
    have hfree : (s.clients c).pc.locks = false := by rw [hpc]; rfl
    unfold clientStep
    simp only [hpc]
    split
    · exact ha
    · exact ha.prepare (fun _ => kept rfl rfl) rfl fun hm => .inr ⟨hm, hfree⟩
  | unreachable => simpa only [clientStep, hpc] using ha

theorem Attended.call (ha : s.Attended) {c : ι} {timeout_s : Nat}
    (hidle : (s.clients c).pc = .idle) : (s.call c timeout_s).Attended := by
  have hfree : (s.clients c).pc.locks = false := by rw [hidle]; rfl
  unfold State.call
  split
  · exact ha.prepare (fun _ => ⟨rfl, rfl⟩) rfl fun hm => .inr ⟨hm, hfree⟩
  · exact ha.prepare (fun _ => ⟨rfl, rfl⟩) rfl fun hm => .inr ⟨hm, hfree⟩

omit [DecidableEq ι] in
/-- A step of the select task. -/
theorem Attended.turn (ha : s.Attended) {slots : Index → connectionManagerElement}
    {select : Select} {mutex notified : Bool}
    (hqueue : ∀ k d, (slots k).rx_queue = some d → (s.slots k).rx_queue = some d)
    (hdeadline : ∀ k, (slots k).rx_wait_deadline_ms ≠ 0 →
      (slots k).rx_wait_deadline_ms = (s.slots k).rx_wait_deadline_ms ∨
        (s.slots k).rx_queue = some (slots k).rx_wait_deadline_ms)
    (hunread : ∀ k, (slots k).rx_queue ≠ none →
      s.notified = true ∨ s.select.pc.place ≤ 2 + 8 * k →
        notified = true ∨ select.pc.place ≤ 2 + 8 * k)
    (hwatched : ∀ k : Index, (slots k).rx_wait_deadline_ms ≠ 0 → 4 + 8 * k < select.pc.place →
      select.pc.place ≤ 34 → 8 + 8 * k < select.pc.place ∧ select.read_fd_set ≠ [])
    (hasleep : select.pc = .waitForNotify → ∀ k, (slots k).rx_wait_deadline_ms = 0)
    (hheld : mutex = true →
      s.mutex = true ∧ s.select.pc.locks = false ∨ select.pc.locks = true) :
    Attended { s with slots := slots, select := select, mutex := mutex, notified := notified } where
  asks := fun c k d hc hd => ha.asks c k d hc (hqueue k d hd)
  accepted := by
    intro c k hc hk
    obtain hsame | hread := hdeadline k hk
    · exact hsame.trans (ha.accepted c k hc (by rwa [← hsame]))
    · exact ha.asks c k _ hc hread
  unread := by
    intro c k hc hk
    refine hunread k hk (ha.unread c k hc ?_)
    obtain ⟨d, hd⟩ := Option.ne_none_iff_exists'.1 hk
    rw [hqueue k d hd]
    exact Option.some_ne_none d
  watched := hwatched
  asleep := hasleep
  held := by
    intro hm
    obtain ⟨hmutex, hselect⟩ | hselect := hheld hm
    · obtain hd | hlocks := ha.held hmutex
      · exact .inl hd
      · rw [hselect] at hlocks
        cases hlocks
    · exact .inr hselect

omit [DecidableEq ι] in
/-- The select task goes on to another part of its loop. -/
theorem Attended.turn_to (ha : s.Attended) {slots : Index → connectionManagerElement}
    {pc : Select.Pc} {maintenance : Nat} {mutex : Bool}
    (hsame : ∀ j, (slots j).rx_queue = (s.slots j).rx_queue ∧
      (slots j).rx_wait_deadline_ms = (s.slots j).rx_wait_deadline_ms)
    (hunread : ∀ j : Index, (s.slots j).rx_queue ≠ none → s.select.pc.place ≤ 2 + 8 * j →
      pc.place ≤ 2 + 8 * j)
    (hwatched : ∀ j : Index, (s.slots j).rx_wait_deadline_ms ≠ 0 → 4 + 8 * j < pc.place →
      pc.place ≤ 34 → 4 + 8 * j < s.select.pc.place ∧ s.select.pc.place ≤ pc.place)
    (hasleep : pc = .waitForNotify → ∀ j, (s.slots j).rx_wait_deadline_ms = 0)
    (hheld : mutex = true → s.mutex = true ∧ s.select.pc.locks = false ∨ pc.locks = true) :
    Attended { s with
      slots := slots
      select := { s.select with pc := pc, maintenance := maintenance }
      mutex := mutex } := by
  refine ha.turn ?_ ?_ ?_ ?_ ?_ hheld
  · intro j d hd
    rwa [(hsame j).1] at hd
  · exact fun j _ => .inl (hsame j).2
  · intro j hj
    rw [(hsame j).1] at hj
    exact Or.imp_right (hunread j hj)
  · intro j hj hlt hle
    rw [(hsame j).2] at hj
    obtain ⟨hbefore, hplace⟩ := hwatched j hj hlt hle
    have hle : pc.place ≤ 34 := hle
    obtain ⟨hpast, hset⟩ := ha.watched j hj hbefore (by omega)
    exact ⟨Nat.lt_of_lt_of_le hpast hplace, hset⟩
  · intro hpc j
    rw [(hsame j).2]
    exact hasleep hpc j

omit [DecidableEq ι] in
/-- The request of a slot becomes its deadline. -/
theorem Attended.rx_queue (ha : s.Attended) {k : Index} (hpc : s.select.pc = .rx_queue k)
    (res : Int) (ready : List Int) : (s.selectStep res ready).Attended := by
  have hplace : s.select.pc.place = 2 + 8 * k := by rw [hpc]; rfl
  unfold selectStep
  simp only [hpc]
  refine ha.turn ?_ ?_ ?_ ?_ nofun fun hm => .inl ⟨hm, by rw [hpc]; rfl⟩
  · intro j d hd
    by_cases hjk : j = k
    · subst hjk
      rw [setSlot_self] at hd
      cases hd
    · rwa [setSlot_other hjk] at hd
  · intro j hj
    by_cases hjk : j = k
    · subst hjk
      rw [setSlot_self]
      cases hq : (s.slots j).rx_queue with
      | none => exact .inl rfl
      | some d =>
        simp only [accept]
        split
        · exact .inr rfl
        · exact .inl rfl
    · rw [setSlot_other hjk]
      exact .inl rfl
  · intro j hj
    have hjk : j ≠ k := by
      rintro rfl
      rw [setSlot_self] at hj
      exact hj rfl
    have hjk : j.val ≠ k := Fin.val_ne_of_ne hjk
    refine Or.imp_right fun hle => ?_
    show 3 + 8 * k.val ≤ 2 + 8 * j
    omega
  · intro j hj hlt hle
    have hlt : 4 + 8 * j.val < 3 + 8 * k := hlt
    have hle : 3 + 8 * k.val ≤ 34 := hle
    have hjk : j ≠ k := by
      rintro rfl
      exact absurd hlt (by omega)
    rw [setSlot_other hjk] at hj
    obtain ⟨hpast, hset⟩ := ha.watched j hj (by omega) (by omega)
    refine ⟨?_, hset⟩
    show 8 + 8 * j.val < 3 + 8 * k
    omega

omit [DecidableEq ι] in
/-- A deadline that is there is watched, or answered when it has passed. -/
theorem Attended.deadline (ha : s.Attended) {k : Index} (hpc : s.select.pc = .deadline k) :
    (s.testDeadline k).Attended := by
  have hplace : s.select.pc.place = 4 + 8 * k := by rw [hpc]; rfl
  have hfree : s.select.pc.locks = false := by rw [hpc]; rfl
  unfold testDeadline
  dsimp only
  split
  · rename_i hnone
    refine ha.turn_to (fun _ => ⟨rfl, rfl⟩) ?_ ?_ nofun fun hm => .inl ⟨hm, hfree⟩
    · intro j _ hle
      simp only [Select.Pc.place]
      omega
    · intro j hj hlt _
      have hjk : j ≠ k := by
        rintro rfl
        exact hj hnone
      have hjk : j.val ≠ k := Fin.val_ne_of_ne hjk
      have hlt : 4 + 8 * j.val < 5 + 8 * k := hlt
      rw [hplace]
      simp only [Select.Pc.place]
      omega
  · split
    · refine ha.turn (fun _ _ h => h) (fun _ _ => .inl rfl) ?_ ?_ nofun fun hm => .inl ⟨hm, hfree⟩
      · intro j _
        refine Or.imp_right fun hle => ?_
        simp only [Select.Pc.place]
        omega
      · intro j _ hlt _
        simp only [Select.Pc.place] at hlt ⊢
        exact ⟨by omega, List.cons_ne_nil _ _⟩
    · refine ha.turn ?_ ?_ ?_ ?_ nofun fun hm => .inl ⟨hm, hfree⟩
      · intro j d hd
        by_cases hjk : j = k
        · subst hjk
          rwa [setSlot_self] at hd
        · rwa [setSlot_other hjk] at hd
      · intro j hj
        by_cases hjk : j = k
        · subst hjk
          rw [setSlot_self] at hj
          exact absurd rfl hj
        · rw [setSlot_other hjk]
          exact .inl rfl
      · intro j _
        refine Or.imp_right fun hle => ?_
        show 8 + 8 * k.val ≤ 2 + 8 * j
        omega
      · intro j hj hlt hle
        have hlt : 4 + 8 * j.val < 8 + 8 * k := hlt
        have hle : 8 + 8 * k.val ≤ 34 := hle
        have hjk : j ≠ k := by
          rintro rfl
          rw [setSlot_self] at hj
          exact hj rfl
        rw [setSlot_other hjk] at hj
        have hjk : j.val ≠ k := Fin.val_ne_of_ne hjk
        obtain ⟨hpast, hset⟩ := ha.watched j hj (by omega) (by omega)
        refine ⟨?_, hset⟩
        show 8 + 8 * j.val < 8 + 8 * k
        omega

omit [DecidableEq ι] in
/-- The response is sent when the slot has none. -/
theorem Attended.respond (ha : s.Attended) {k : Index} {timeout maintenance : Nat}
    {pc : Select.Pc}
    (hunread : ∀ j : Index, s.select.pc.place ≤ 2 + 8 * j → pc.place ≤ 2 + 8 * j)
    (hwatched : ∀ j : Index, 4 + 8 * j < pc.place → pc.place ≤ 34 →
      4 + 8 * j < s.select.pc.place ∧ s.select.pc.place ≤ pc.place)
    (hpc : pc ≠ .waitForNotify) (hfree : s.select.pc.locks = false) :
    (s.respond k timeout { s.select with pc := pc, maintenance := maintenance }).Attended := by
  unfold State.respond
  split
  · exact ha
  · exact ha.turn_to (fun _ => kept rfl rfl) (fun j _ => hunread j) (fun j _ => hwatched j)
      (fun h => absurd h hpc) fun hm => .inl ⟨hm, hfree⟩

omit [DecidableEq ι] in
/-- **A step of the select task.** -/
theorem Attended.select (ha : s.Attended) (hi : s.Inv sd) (res : Int) (ready : List Int) :
    (s.selectStep res ready).Attended := by
  cases hpc : s.select.pc with
  | top =>
    unfold selectStep
    simp only [hpc]
    refine ha.turn (fun _ _ h => h) (fun _ _ => .inl rfl) ?_ ?_ nofun
      fun hm => .inl ⟨hm, by rw [hpc]; rfl⟩
    · intro j _ _
      right
      show 1 ≤ 2 + 8 * j.val
      omega
    · intro j _ hlt _
      have hlt : 4 + 8 * j.val < 1 := hlt
      omega
  | scan i =>
    have hplace : s.select.pc.place = 1 + 8 * min i 4 := by rw [hpc]; rfl
    have hfree : s.select.pc.locks = false := by rw [hpc]; rfl
    unfold selectStep
    simp only [hpc]
    split
    · rename_i hlt
      split
      · refine ha.turn_to (fun _ => ⟨rfl, rfl⟩) ?_ ?_ nofun fun hm => .inl ⟨hm, hfree⟩
        · intro j _ hle
          show 2 + 8 * i ≤ 2 + 8 * j.val
          omega
        · intro j _ hj _
          have hj : 4 + 8 * j.val < 2 + 8 * i := hj
          rw [hplace]
          show _ ∧ _ ≤ 2 + 8 * i
          omega
      · rename_i hfreed
        refine ha.turn_to (fun _ => ⟨rfl, rfl⟩) ?_ ?_ nofun fun hm => .inl ⟨hm, hfree⟩
        · intro j hj hle
          -- a slot that has a request is in use
          have hji : j ≠ ⟨i, hlt⟩ := by
            rintro rfl
            exact hfreed (hi.requested hj)
          have hji : j.val ≠ i := fun h => hji (Fin.ext h)
          show 1 + 8 * min (i + 1) 4 ≤ 2 + 8 * j.val
          omega
        · intro j hj hlt' _
          have hji : j ≠ ⟨i, hlt⟩ := by
            rintro rfl
            exact hfreed (hi.accepted hj)
          have hji : j.val ≠ i := fun h => hji (Fin.ext h)
          have hlt' : 4 + 8 * j.val < 1 + 8 * min (i + 1) 4 := hlt'
          rw [hplace]
          show _ ∧ _ ≤ 1 + 8 * min (i + 1) 4
          omega
    · refine ha.turn_to (fun _ => ⟨rfl, rfl⟩) ?_ ?_ nofun fun hm => .inl ⟨hm, hfree⟩
      · intro j _ hle
        show 34 ≤ 2 + 8 * j.val
        omega
      · intro j _ _ _
        rw [hplace]
        show _ ∧ _ ≤ 34
        omega
  | rx_queue k => exact ha.rx_queue hpc res ready
  | tx_queue k =>
    have hplace : s.select.pc.place = 3 + 8 * k := by rw [hpc]; rfl
    unfold selectStep
    simp only [hpc]
    refine ha.turn_to (fun _ => kept rfl rfl) ?_ ?_ nofun fun hm => .inl ⟨hm, by rw [hpc]; rfl⟩
    · intro j _ hle
      show 4 + 8 * k.val ≤ 2 + 8 * j
      omega
    · intro j _ hlt _
      have hlt : 4 + 8 * j.val < 4 + 8 * k := hlt
      rw [hplace]
      show _ ∧ _ ≤ 4 + 8 * k.val
      omega
  | deadline k =>
    unfold selectStep
    simp only [hpc]
    exact ha.deadline hpc
  | take k =>
    have hplace : s.select.pc.place = 5 + 8 * k := by rw [hpc]; rfl
    unfold selectStep
    simp only [hpc]
    split
    · exact ha
    · refine ha.turn_to (fun _ => ⟨rfl, rfl⟩) ?_ ?_ nofun fun _ => .inr rfl
      · intro j _ hle
        show 6 + 8 * k.val ≤ 2 + 8 * j
        omega
      · intro j _ hlt _
        have hlt : 4 + 8 * j.val < 6 + 8 * k := hlt
        rw [hplace]
        show _ ∧ _ ≤ 6 + 8 * k.val
        omega
  | invalidate k =>
    have hplace : s.select.pc.place = 6 + 8 * k := by rw [hpc]; rfl
    unfold selectStep
    simp only [hpc]
    refine ha.turn_to (fun _ => kept rfl rfl) ?_ ?_ nofun fun _ => .inr rfl
    · intro j _ hle
      show 7 + 8 * k.val ≤ 2 + 8 * j
      omega
    · intro j _ hlt _
      have hlt : 4 + 8 * j.val < 7 + 8 * k := hlt
      rw [hplace]
      show _ ∧ _ ≤ 7 + 8 * k.val
      omega
  | give k =>
    have hplace : s.select.pc.place = 7 + 8 * k := by rw [hpc]; rfl
    unfold selectStep
    simp only [hpc]
    refine ha.turn_to (fun _ => ⟨rfl, rfl⟩) ?_ ?_ nofun nofun
    · intro j _ hle
      show 1 + 8 * min (k.val + 1) 4 ≤ 2 + 8 * j
      omega
    · intro j _ hlt _
      have hlt : 4 + 8 * j.val < 1 + 8 * min (k.val + 1) 4 := hlt
      rw [hplace]
      show _ ∧ _ ≤ 1 + 8 * min (k.val + 1) 4
      omega
  | timeout k =>
    have hplace : s.select.pc.place = 8 + 8 * k := by rw [hpc]; rfl
    unfold selectStep
    simp only [hpc]
    refine ha.respond ?_ ?_ nofun (by rw [hpc]; rfl)
    · intro j hle
      show 1 + 8 * min (k.val + 1) 4 ≤ 2 + 8 * j
      omega
    · intro j hlt _
      have hlt : 4 + 8 * j.val < 1 + 8 * min (k.val + 1) 4 := hlt
      rw [hplace]
      show _ ∧ _ ≤ 1 + 8 * min (k.val + 1) 4
      omega
  | scanned =>
    have hplace : s.select.pc.place = 34 := by rw [hpc]; rfl
    have hfree : s.select.pc.locks = false := by rw [hpc]; rfl
    unfold selectStep
    simp only [hpc]
    split
    · exact ha.turn_to (fun _ => ⟨rfl, rfl⟩) (fun j _ hle => by omega)
        (fun j _ _ hle => absurd hle (by decide)) nofun fun hm => .inl ⟨hm, hfree⟩
    · rename_i hset
      split
      · exact ha.turn_to (fun _ => ⟨rfl, rfl⟩) (fun j _ hle => by omega)
          (fun j _ hlt => absurd hlt (Nat.not_lt_zero _)) nofun fun hm => .inl ⟨hm, hfree⟩
      · refine ha.turn_to (fun _ => ⟨rfl, rfl⟩) (fun j _ hle => by omega)
          (fun j _ _ hle => absurd hle (by decide)) ?_ fun hm => .inl ⟨hm, hfree⟩
        intro _ j
        by_contra hj
        exact hset (ha.watched j hj (by omega) (by omega)).2
  | sl_Select =>
    have hplace : s.select.pc.place = 35 := by rw [hpc]; rfl
    have hfree : s.select.pc.locks = false := by rw [hpc]; rfl
    unfold selectStep
    simp only [hpc]
    split
    · exact ha.turn (fun _ _ h => h) (fun _ _ => .inl rfl)
        (fun j _ => Or.imp_right fun hle => by omega)
        (fun j _ _ hle => absurd hle (by simp [Select.Pc.place])) nofun fun hm => .inl ⟨hm, hfree⟩
    · exact ha.turn_to (fun _ => ⟨rfl, rfl⟩) (fun j _ hle => by omega)
        (fun j _ hlt => absurd hlt (Nat.not_lt_zero _)) nofun fun hm => .inl ⟨hm, hfree⟩
  | deliver i =>
    have hplace : s.select.pc.place = 36 + 2 * min i 4 := by rw [hpc]; rfl
    have hfree : s.select.pc.locks = false := by rw [hpc]; rfl
    unfold selectStep
    simp only [hpc]
    split
    · rename_i hlt
      split
      · refine ha.turn ?_ ?_ (fun j _ => Or.imp_right fun hle => by omega) ?_ nofun
          fun hm => .inl ⟨hm, hfree⟩
        · intro j d hd
          by_cases hji : j = ⟨i, hlt⟩
          · subst hji
            rwa [setSlot_self] at hd
          · rwa [setSlot_other hji] at hd
        · intro j hj
          by_cases hji : j = ⟨i, hlt⟩
          · subst hji
            rw [setSlot_self] at hj
            exact absurd rfl hj
          · rw [setSlot_other hji]
            exact .inl rfl
        · intro j _ _ hle
          have hle : 37 + 2 * i ≤ 34 := hle
          omega
      · refine ha.turn_to (fun _ => ⟨rfl, rfl⟩) (fun j _ hle => by omega) ?_ nofun
          fun hm => .inl ⟨hm, hfree⟩
        intro j _ _ hle
        have hle : 36 + 2 * min (i + 1) 4 ≤ 34 := hle
        omega
    · exact ha.turn_to (fun _ => ⟨rfl, rfl⟩) (fun j _ hle => by omega)
        (fun j _ hlt => absurd hlt (Nat.not_lt_zero _)) nofun fun hm => .inl ⟨hm, hfree⟩
  | ready k =>
    have hplace : s.select.pc.place = 37 + 2 * k := by rw [hpc]; rfl
    unfold selectStep
    simp only [hpc]
    refine ha.respond (fun j hle => by omega) ?_ nofun (by rw [hpc]; rfl)
    intro j _ hle
    have hle : 36 + 2 * min (k.val + 1) 4 ≤ 34 := hle
    omega
  | waitForNotify =>
    unfold selectStep
    simp only [hpc]
    split
    · exact ha.turn (fun _ _ h => h) (fun _ _ => .inl rfl) (fun j _ _ => .inr (Nat.zero_le _))
        (fun j _ hlt => absurd hlt (Nat.not_lt_zero _)) nofun
        fun hm => .inl ⟨hm, by rw [hpc]; rfl⟩
    · exact ha

/-- **A step.** -/
theorem Attended.next (ha : s.Attended) (hi : s.Inv sd) {i : Input ι} (hen : s.Enabled i) :
    (s.next sd i).Attended := by
  cases i with
  | call c timeout_s => exact ha.call hen
  | client c => exact ha.client hi c
  | select res ready => exact ha.select hi res ready
  | tick => exact { ha with }

omit [DecidableEq ι] in
/-- Where a client waits for its response, its request is in the queue, accepted, or answered. -/
theorem Awaits.token {c : ι} {k : Index} (h : s.Awaits c k) (hi : s.Inv sd) :
    (s.slots k).rx_queue ≠ none ∨ (s.slots k).rx_wait_deadline_ms ≠ 0 ∨
      s.select.pc.answers = some k := by
  have hone := hi.waiting c k (by rw [h.1]; rfl)
  unfold tokens connectionManagerElement.tokens at hone
  by_contra hnone
  push Not at hnone
  obtain ⟨hqueue, hdeadline, hanswers⟩ := hnone
  rw [if_pos hqueue, if_pos hdeadline, if_pos h.2, if_neg hanswers] at hone
  cases hone

omit [DecidableEq ι] in
/-- The queue of the response that is sent is empty. -/
theorem Inv.answering (hi : s.Inv sd) {k : Index} (h : s.select.pc.answers = some k) :
    (s.slots k).rx_signal = none := by
  have hle := hi.tokens_le k
  unfold tokens connectionManagerElement.tokens at hle
  by_contra hsignal
  rw [if_pos h, if_neg hsignal] at hle
  omega

omit [DecidableEq ι] in
/-- **The select task goes on** while a client waits, unless a client has the mutex. -/
theorem Attended.awake (ha : s.Attended) (hi : s.Inv sd) {c : ι} {k : Index} (h : s.Awaits c k)
    (hblocked : s.blocked = true) : ∃ d, (s.clients d).pc.locks = true := by
  unfold blocked at hblocked
  cases hpc : s.select.pc with
  | take j =>
    simp only [hpc] at hblocked
    obtain hd | hlocks := ha.held hblocked
    · exact hd
    · rw [hpc] at hlocks
      cases hlocks
  | timeout j =>
    simp only [hpc, hi.answering (show s.select.pc.answers = some j by rw [hpc]; rfl)] at hblocked
    cases hblocked
  | ready j =>
    simp only [hpc, hi.answering (show s.select.pc.answers = some j by rw [hpc]; rfl)] at hblocked
    cases hblocked
  | waitForNotify =>
    simp only [hpc] at hblocked
    obtain hqueue | hdeadline | hanswers := h.token hi
    · obtain hnotified | hplace := ha.unread c k h.1 hqueue
      · rw [hnotified] at hblocked
        cases hblocked
      · rw [hpc] at hplace
        simp only [Select.Pc.place] at hplace
        omega
    · exact absurd (ha.asleep hpc k) hdeadline
    · rw [hpc] at hanswers
      cases hanswers
  | _ =>
    simp only [hpc] at hblocked
    cases hblocked

/-! ## Progress -/

omit [DecidableEq ι] in
@[simp] theorem respond_clients {k : Index} {timeout : Nat} {select : Select} :
    (s.respond k timeout select).clients = s.clients := by
  unfold State.respond
  split <;> rfl

omit [DecidableEq ι] in
theorem selectStep_blocked (h : s.blocked = true) (res : Int) (ready : List Int) :
    s.selectStep res ready = s := by
  unfold blocked at h
  cases hpc : s.select.pc with
  | take k =>
    simp only [hpc] at h
    simp only [selectStep, hpc, if_pos h]
  | timeout k =>
    simp only [hpc] at h
    obtain ⟨r, hr⟩ := Option.isSome_iff_exists.1 h
    simp only [selectStep, hpc, State.respond, hr]
  | ready k =>
    simp only [hpc] at h
    obtain ⟨r, hr⟩ := Option.isSome_iff_exists.1 h
    simp only [selectStep, hpc, State.respond, hr]
  | waitForNotify =>
    simp only [hpc, Bool.not_eq_true'] at h
    simp only [selectStep, hpc, h, Bool.false_eq_true, if_false]
  | _ =>
    simp only [hpc] at h
    cases h

omit [DecidableEq ι] in
/-- A response that is sent: the select task goes on with the next slot. -/
theorem respond_sent {k : Index} {timeout : Nat} {select : Select}
    (h : (s.slots k).rx_signal = none) :
    (s.respond k timeout select).select = select ∧
      ((s.respond k timeout select).slots k).rx_signal ≠ none := by
  unfold State.respond
  split
  · rename_i hsome
    rw [h] at hsome
    cases hsome
  · refine ⟨rfl, ?_⟩
    show ((s.setSlot k _).slots k).rx_signal ≠ none
    rw [setSlot_self]
    nofun

omit [DecidableEq ι] in
/-- **A step of the select task** that can go on is one further in the round. -/
theorem selectStep_place (h : s.blocked = false) (res : Int) (ready : List Int) :
    (s.selectStep res ready).select.pc = .top ∨
      s.select.pc.place < (s.selectStep res ready).select.pc.place := by
  unfold blocked at h
  cases hpc : s.select.pc with
  | top =>
    right
    simp only [selectStep, hpc]
    exact Nat.zero_lt_one
  | scan i =>
    right
    unfold selectStep
    simp only [hpc]
    split
    · split
      · show 1 + 8 * min i 4 < 2 + 8 * i
        omega
      · show 1 + 8 * min i 4 < 1 + 8 * min (i + 1) 4
        omega
    · show 1 + 8 * min i 4 < 34
      omega
  | rx_queue k =>
    right
    simp only [selectStep, hpc]
    show 2 + 8 * k.val < 3 + 8 * k
    omega
  | tx_queue k =>
    right
    simp only [selectStep, hpc]
    show 3 + 8 * k.val < 4 + 8 * k
    omega
  | deadline k =>
    right
    unfold selectStep testDeadline
    simp only [hpc]
    split
    · show 4 + 8 * k.val < 5 + 8 * k
      omega
    · split
      · show 4 + 8 * k.val < 1 + 8 * min (k.val + 1) 4
        omega
      · show 4 + 8 * k.val < 8 + 8 * k
        omega
  | take k =>
    right
    simp only [hpc] at h
    simp only [selectStep, hpc, h, Bool.false_eq_true, if_false]
    show 5 + 8 * k.val < 6 + 8 * k
    omega
  | invalidate k =>
    right
    simp only [selectStep, hpc]
    show 6 + 8 * k.val < 7 + 8 * k
    omega
  | give k =>
    right
    simp only [selectStep, hpc]
    show 7 + 8 * k.val < 1 + 8 * min (k.val + 1) 4
    omega
  | timeout k =>
    right
    simp only [hpc, Option.isSome_eq_false_iff, Option.isNone_iff_eq_none] at h
    simp only [selectStep, hpc, (respond_sent h).1]
    show 8 + 8 * k.val < 1 + 8 * min (k.val + 1) 4
    omega
  | scanned =>
    unfold selectStep
    simp only [hpc]
    split
    · exact .inr (Nat.lt_succ_self 34)
    · split
      · exact .inl rfl
      · exact .inr (Nat.lt_succ_self 34)
  | sl_Select =>
    unfold selectStep
    simp only [hpc]
    split
    · exact .inr (Nat.lt_succ_self 35)
    · exact .inl rfl
  | deliver i =>
    unfold selectStep
    simp only [hpc]
    split
    · right
      split
      · show 36 + 2 * min i 4 < 37 + 2 * i
        omega
      · show 36 + 2 * min i 4 < 36 + 2 * min (i + 1) 4
        omega
    · exact .inl rfl
  | ready k =>
    right
    simp only [hpc, Option.isSome_eq_false_iff, Option.isNone_iff_eq_none] at h
    simp only [selectStep, hpc, (respond_sent h).1]
    show 37 + 2 * k.val < 36 + 2 * min (k.val + 1) 4
    omega
  | waitForNotify =>
    left
    simp only [hpc, Bool.not_eq_false'] at h
    simp only [selectStep, hpc, h, if_true]
    rfl

variable {c : ι} {k : Index}

/-- The slot is still to be tested in this round, which began after the deadline. -/
def Due (s : State ι) (c : ι) (k : Index) : Prop :=
  (s.clients c).deadline_ms < s.select.current_time ∧ (s.select.pc.place ≤ 2 + 8 * k ∨
    (s.slots k).rx_wait_deadline_ms ≠ 0 ∧ s.select.pc.place ≤ 4 + 8 * k)

instance (c : ι) (k : Index) : Decidable (s.Due c k) := inferInstanceAs (Decidable (_ ∧ _))

/-- The response is sent before the round of the select task ends. -/
def Near (s : State ι) (c : ι) (k : Index) : Prop :=
  s.select.pc = .top ∨ s.select.pc.answers = some k ∨ s.Due c k

instance (c : ι) (k : Index) : Decidable (s.Near c k) :=
  inferInstanceAs (Decidable (_ ∨ _ ∨ _))

omit [DecidableEq ι] in
/-- The request of a client that waits becomes the deadline, unless that is there. -/
theorem Inv.accept_ne_zero (hi : s.Inv sd) {k : Index}
    (h : (s.slots k).rx_queue ≠ none ∨ (s.slots k).rx_wait_deadline_ms ≠ 0) :
    accept (s.slots k).rx_wait_deadline_ms (s.slots k).rx_queue ≠ 0 := by
  cases hq : (s.slots k).rx_queue with
  | none => exact h.resolve_left fun hsome => hsome hq
  | some d =>
    have hd : d ≠ 0 := by
      intro hd
      exact hi.queued k (by rw [hq, hd])
    simp only [accept]
    split <;> omega

omit [DecidableEq ι] in
/-- Until the slot is tested, a step of the select task brings it nearer. -/
theorem Due.step (hdue : s.Due c k) (h : s.Awaits c k) (hi : s.Inv sd) (ha : s.Attended)
    (hblocked : s.blocked = false) (htop : s.select.pc ≠ .top) (res : Int) (ready : List Int) :
    (s.selectStep res ready).select.pc ≠ .top ∧
      ((s.selectStep res ready).select.pc.answers = some k ∨
        (s.selectStep res ready).Due c k) := by
  obtain ⟨hlate, hplace⟩ := hdue
  have hk := k.isLt
  unfold blocked at hblocked
  cases hpc : s.select.pc with
  | top => exact absurd hpc htop
  | scan i =>
    have hi4 : 1 + 8 * min i 4 ≤ 4 + 8 * k.val := by
      rw [hpc] at hplace
      simp only [Select.Pc.place] at hplace
      omega
    have hlt : i < 4 := by omega
    unfold selectStep
    simp only [hpc, dif_pos hlt]
    split
    · refine ⟨nofun, .inr ⟨hlate, .inl ?_⟩⟩
      show 2 + 8 * i ≤ 2 + 8 * k.val
      omega
    · rename_i hfreed
      -- the slot of the client is in use, and is not passed over
      have hne : k ≠ ⟨i, hlt⟩ := by
        rintro rfl
        obtain hqueue | hdeadline | hanswers := h.token hi
        · exact hfreed (hi.requested hqueue)
        · exact hfreed (hi.accepted hdeadline)
        · rw [hpc] at hanswers
          cases hanswers
      have hne : k.val ≠ i := fun heq => hne (Fin.ext heq)
      refine ⟨nofun, .inr ⟨hlate, .inl ?_⟩⟩
      show 1 + 8 * min (i + 1) 4 ≤ 2 + 8 * k.val
      omega
  | rx_queue j =>
    simp only [hpc, Select.Pc.place] at hplace
    simp only [selectStep, hpc]
    refine ⟨nofun, .inr ⟨hlate, ?_⟩⟩
    by_cases hjk : j = k
    · subst hjk
      refine .inr ⟨?_, Nat.add_le_add_right (by decide) _⟩
      show ((s.setSlot j _).slots j).rx_wait_deadline_ms ≠ 0
      rw [setSlot_self]
      apply hi.accept_ne_zero
      obtain hqueue | hdeadline | hanswers := h.token hi
      · exact .inl hqueue
      · exact .inr hdeadline
      · rw [hpc] at hanswers
        cases hanswers
    · have hjk : j.val ≠ k := Fin.val_ne_of_ne hjk
      left
      show 3 + 8 * j.val ≤ 2 + 8 * k
      omega
  | tx_queue j =>
    simp only [hpc, Select.Pc.place] at hplace
    simp only [selectStep, hpc]
    refine ⟨nofun, .inr ⟨hlate, ?_⟩⟩
    by_cases hjk : j = k
    · subst hjk
      refine .inr ⟨?_, le_refl _⟩
      show ((s.setSlot j _).slots j).rx_wait_deadline_ms ≠ 0
      rw [setSlot_self]
      obtain hlt | ⟨hdeadline, -⟩ := hplace
      · omega
      · exact hdeadline
    · have hjk : j.val ≠ k := Fin.val_ne_of_ne hjk
      left
      show 4 + 8 * j.val ≤ 2 + 8 * k
      omega
  | deadline j =>
    simp only [hpc, Select.Pc.place] at hplace
    unfold selectStep testDeadline
    simp only [hpc]
    by_cases hjk : j = k
    · subst hjk
      have hdeadline : (s.slots j).rx_wait_deadline_ms ≠ 0 := by
        obtain hlt | ⟨hdeadline, -⟩ := hplace
        · omega
        · exact hdeadline
      have hpassed : ¬(s.slots j).rx_wait_deadline_ms ≥ s.select.current_time := by
        rw [ha.accepted c j (by rw [h.1]; rfl) hdeadline]
        omega
      rw [if_neg hdeadline, if_neg hpassed]
      exact ⟨nofun, .inl rfl⟩
    · have hjk : j.val ≠ k := Fin.val_ne_of_ne hjk
      split
      · refine ⟨nofun, .inr ⟨hlate, .inl ?_⟩⟩
        show 5 + 8 * j.val ≤ 2 + 8 * k
        omega
      · split
        · refine ⟨nofun, .inr ⟨hlate, .inl ?_⟩⟩
          show 1 + 8 * min (j.val + 1) 4 ≤ 2 + 8 * k
          omega
        · refine ⟨nofun, .inr ⟨hlate, .inl ?_⟩⟩
          show 8 + 8 * j.val ≤ 2 + 8 * k
          omega
  | take j =>
    simp only [hpc, Select.Pc.place] at hplace
    simp only [hpc] at hblocked
    simp only [selectStep, hpc, hblocked, Bool.false_eq_true, if_false]
    refine ⟨nofun, .inr ⟨hlate, .inl ?_⟩⟩
    show 6 + 8 * j.val ≤ 2 + 8 * k
    omega
  | invalidate j =>
    simp only [hpc, Select.Pc.place] at hplace
    simp only [selectStep, hpc]
    refine ⟨nofun, .inr ⟨hlate, .inl ?_⟩⟩
    show 7 + 8 * j.val ≤ 2 + 8 * k
    omega
  | give j =>
    simp only [hpc, Select.Pc.place] at hplace
    simp only [selectStep, hpc]
    refine ⟨nofun, .inr ⟨hlate, .inl ?_⟩⟩
    show 1 + 8 * min (j.val + 1) 4 ≤ 2 + 8 * k
    omega
  | timeout j =>
    simp only [hpc, Select.Pc.place] at hplace
    simp only [hpc, Option.isSome_eq_false_iff, Option.isNone_iff_eq_none] at hblocked
    simp only [selectStep, hpc, Due, respond_clients, (respond_sent hblocked).1]
    refine ⟨nofun, .inr ⟨hlate, .inl ?_⟩⟩
    show 1 + 8 * min (j.val + 1) 4 ≤ 2 + 8 * k
    omega
  | _ =>
    simp only [hpc, Select.Pc.place] at hplace
    omega

omit [DecidableEq ι] in
/-- The response that the select task is about to send is sent. -/
theorem Awaits.answered (h : s.Awaits c k) (hanswers : s.select.pc.answers = some k) (res : Int)
    (ready : List Int) : ((s.selectStep res ready).slots k).rx_signal ≠ none := by
  cases hpc : s.select.pc with
  | timeout j =>
    obtain rfl : j = k := by simpa [hpc, Select.Pc.answers] using hanswers
    simp only [selectStep, hpc]
    exact (respond_sent h.2).2
  | ready j =>
    obtain rfl : j = k := by simpa [hpc, Select.Pc.answers] using hanswers
    simp only [selectStep, hpc]
    exact (respond_sent h.2).2
  | _ =>
    rw [hpc] at hanswers
    cases hanswers

omit [DecidableEq ι] in
/-- **A step of the select task brings the response nearer**, in the round in which it is sent. -/
theorem Near.step (hnear : s.Near c k) (h : s.Awaits c k) (hi : s.Inv sd) (ha : s.Attended)
    (hlate : (s.clients c).deadline_ms < s.now) (hblocked : s.blocked = false) (res : Int)
    (ready : List Int) (hafter : (s.selectStep res ready).Awaits c k) :
    (s.selectStep res ready).Near c k ∧
      s.select.pc.place < (s.selectStep res ready).select.pc.place := by
  by_cases htop : s.select.pc = .top
  · unfold selectStep
    simp only [htop]
    refine ⟨.inr (.inr ⟨hlate, .inl ?_⟩), Nat.zero_lt_one⟩
    show 1 ≤ 2 + 8 * k.val
    omega
  · obtain hanswers | hdue := hnear.resolve_left htop
    · exact absurd hafter.2 (h.answered hanswers res ready)
    · obtain ⟨hgoes, hnext⟩ := hdue.step h hi ha hblocked htop res ready
      exact ⟨.inr hnext, (selectStep_place hblocked res ready).resolve_left hgoes⟩

/-- The steps that the select task needs at most: to the end of a round, and one more round unless
the response is sent in this one. -/
def delay (s : State ι) (c : ι) (k : Index) : Nat :=
  if s.Near c k then 45 - s.select.pc.place else 90 - s.select.pc.place

omit [DecidableEq ι] in
theorem delay_pos : 0 < s.delay c k := by
  have hle := s.select.pc.place_le
  unfold delay
  split <;> omega

omit [DecidableEq ι] in
theorem delay_step (h : s.Awaits c k) (hi : s.Inv sd) (ha : s.Attended)
    (hlate : (s.clients c).deadline_ms < s.now) (hblocked : s.blocked = false) (res : Int)
    (ready : List Int) (hafter : (s.selectStep res ready).Awaits c k) :
    (s.selectStep res ready).delay c k < s.delay c k := by
  have hle := s.select.pc.place_le
  have hle' := (s.selectStep res ready).select.pc.place_le
  unfold delay
  by_cases hnear : s.Near c k
  · obtain ⟨hnext, hplace⟩ := hnear.step h hi ha hlate hblocked res ready hafter
    rw [if_pos hnear, if_pos hnext]
    omega
  · rw [if_neg hnear]
    obtain htop | hplace := selectStep_place hblocked res ready
    · rw [if_pos (show (s.selectStep res ready).Near c k from .inl htop)]
      omega
    · split <;> omega

omit [DecidableEq ι] in
theorem delay_congr {t : State ι} (hselect : t.select = s.select)
    (hclient : (t.clients c).deadline_ms = (s.clients c).deadline_ms)
    (hslot : (t.slots k).rx_wait_deadline_ms = (s.slots k).rx_wait_deadline_ms) :
    t.delay c k = s.delay c k := by
  have hnear : t.Near c k ↔ s.Near c k := by
    unfold Near Due
    rw [hselect, hclient, hslot]
  unfold delay
  rw [hselect]
  exact if_congr hnear rfl rfl

theorem goto_deadline {d : ι} {pc : Client.Pc} :
    ((s.goto d pc).clients c).deadline_ms = (s.clients c).deadline_ms := by
  by_cases hdc : c = d
  · subst hdc
    rw [goto, setClient_self]
  · rw [goto, setClient_other hdc]

/-- A step of a client delays no response. -/
theorem delay_client (d : ι) : (s.clientStep sd d).delay c k = s.delay c k := by
  unfold clientStep
  split
  · rfl
  · split
    · split
      · exact delay_congr rfl goto_deadline rfl
      · exact delay_congr rfl goto_deadline rfl
    · exact delay_congr rfl goto_deadline rfl
  · split
    · split
      · exact delay_congr rfl goto_deadline rfl
      · exact delay_congr rfl goto_deadline rfl
    · exact delay_congr rfl goto_deadline rfl
  · split
    · rfl
    · exact delay_congr rfl goto_deadline rfl
  · refine delay_congr rfl goto_deadline ?_
    exact kept_deadline rfl
  · exact delay_congr rfl goto_deadline rfl
  · refine delay_congr rfl goto_deadline ?_
    exact kept_deadline rfl
  · split
    · rfl
    · refine delay_congr rfl goto_deadline ?_
      rename_i j _ _ _
      by_cases hkj : k = j
      · subst hkj
        rw [goto, setClient_slots, setSlot_self]
      · rw [goto, setClient_slots, setSlot_other hkj]
  · exact delay_congr rfl goto_deadline rfl
  · split
    · rfl
    · refine delay_congr rfl ?_ ?_
      · by_cases hdc : c = d
        · subst hdc
          rw [setClient_self]
        · rw [setClient_other hdc]
          rfl
      · show ((s.setSlot _ _).slots k).rx_wait_deadline_ms = _
        exact kept_deadline rfl
  · rfl

/-- A client that calls does not wait for a response. -/
theorem Awaits.delay_call (h : s.Awaits c k) {d : ι} {timeout_s : Nat}
    (hidle : (s.clients d).pc = .idle) : (s.call d timeout_s).delay c k = s.delay c k := by
  have hcd : c ≠ d := by
    rintro rfl
    rw [h.1] at hidle
    cases hidle
  unfold State.call
  split
  · exact delay_congr rfl (by rw [setClient_other hcd]) rfl
  · exact delay_congr rfl goto_deadline rfl

/-- **The response is sent in time**, by induction on the run that waits for it. -/
theorem Attended.selectSteps_le (ha : s.Attended) (hi : s.Inv sd) (hinj : Function.Injective sd)
    {l : List (Input ι)}
    (h : (mediator sd).Allows (fun s i => s.Undisturbed i ∧ s.Awaits c k ∧
      (s.clients c).deadline_ms < s.now) s l) : s.selectSteps sd l ≤ s.delay c k := by
  induction l generalizing s with
  | nil => exact Nat.zero_le _
  | cons i l ih =>
    obtain ⟨⟨hen, hundisturbed, hawaits, hlate⟩, hrest⟩ := h
    have hrest' := ih (ha.next hi hen) (hi.next hinj hen hundisturbed) hrest
    unfold selectSteps
    cases i with
    | call d timeout_s =>
      rw [Nat.zero_add]
      exact hrest'.trans (hawaits.delay_call hen).le
    | client d =>
      rw [Nat.zero_add]
      exact hrest'.trans (delay_client d).le
    | select res ready =>
      cases hblocked : s.blocked with
      | true =>
        rw [show s.next sd (.select res ready) = s from selectStep_blocked hblocked res ready]
          at hrest' ⊢
        simpa only [if_true, Nat.zero_add] using hrest'
      | false =>
        simp only [Bool.false_eq_true, if_false]
        cases l with
        | nil => exact delay_pos
        | cons j l =>
          have hafter : (s.selectStep res ready).Awaits c k := hrest.1.2.2.1
          have hlt := delay_step hawaits hi ha hlate hblocked res ready hafter
          have hle : (s.next sd (.select res ready)).selectSteps sd (j :: l) ≤
            (s.selectStep res ready).delay c k := hrest'
          omega
    | tick =>
      rw [Nat.zero_add]
      exact hrest'

omit [DecidableEq ι] in
theorem delay_le : s.delay c k ≤ 90 := by
  unfold delay
  split <;> omega

/-- **What holds in a run that does not take a slot away from a client.** -/
theorem attended_of_undisturbed (hinj : Function.Injective sd)
    (h : (mediator sd).Reaches (fun s i => s.Undisturbed i) State.initial s) :
    s.Inv sd ∧ s.Attended :=
  h.invariant (I := fun s => s.Inv sd ∧ s.Attended) ⟨.initial, .initial⟩
    fun _ _ ⟨hi, ha⟩ hen hundisturbed => ⟨hi.next hinj hen hundisturbed, ha.next hi hen⟩

/-- **Waits are served and answered** in every run that does not take a slot away from a client. -/
theorem served_of_undisturbed (hinj : Function.Injective sd)
    (h : (mediator sd).Reaches (fun s i => s.Undisturbed i) State.initial s) :
    s.Served sd ∧ s.Answered sd := by
  obtain ⟨hi, ha⟩ := attended_of_undisturbed hinj h
  refine ⟨hi.served, fun c k hawaits => ha.awake hi hawaits, ?_⟩
  intro c k l hl
  exact (ha.selectSteps_le hi hinj hl).trans delay_le

instance (s : State ι) (i : Input ι) : Decidable ((mediator sd).Enabled s i) :=
  inferInstanceAs (Decidable (s.Enabled i))

end State

end Responses

/-! ## Two clients -/

/-- The sockets of two clients. -/
def sockets (c : Fin 2) : Nat := if c = 0 then 3 else 7

/-- A client claims the first slot. -/
def claiming : List (Input (Fin 2)) := .call 0 5 :: List.replicate 9 (.client 0)

/-- A client waits, and the select task has accepted its request. -/
theorem served_of_undisturbed_accepted :
    let s := (mediator sockets).run State.initial (claiming ++ List.replicate 3 (.client 0) ++
      List.replicate 5 (.select 0 []))
    s.Served sockets ∧ s.Answered sockets :=
  State.served_of_undisturbed (by decide) (System.reaches_run (by decide +kernel))

/-- The select task frees the slot between the claim and the request: the client waits on a slot
without a socket, which the select task passes over. -/
theorem wait_lost :
    ∃ s, (mediator sockets).Reaches System.Free State.initial s ∧
      (s.clients 0).pc = .recieve 0 ∧ (s.slots 0).sd = -1 ∧ (s.slots 0).rx_signal = none ∧
      ¬ s.Served sockets := by
  refine ⟨(mediator sockets).run State.initial (claiming ++ List.replicate 7 (.select 0 []) ++
    List.replicate 3 (.client 0)), System.reaches_run (by decide +kernel), by decide +kernel,
    by decide +kernel, by decide +kernel, ?_⟩
  intro h
  exact absurd (h.slot 0 0 (by decide +kernel)) (by decide +kernel)

end Miso.Net.Mediator
