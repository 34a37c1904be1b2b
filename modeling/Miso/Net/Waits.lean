import Mathlib.Tactic.ByContra
import Miso.Net.Mediator

/-!
# Waits for a socket

What holds in a run of the network mediator in which no step takes a slot away from a client that
holds it.

* `Inv` — who holds a slot holds it alone, and there is one token for a client that waits;
* `Inv.client`, `Inv.select` — the steps of a client and of the select task keep it;
* `Inv.served` — no wait is misdelivered.
-/

namespace Miso.Net.Mediator

open Zig

section Waits

variable {ι : Type} [DecidableEq ι] (sd : ι → Nat)

/-! ## The invariant -/

/-- The slots that may be in the read set, below the second number; from the first on, they have a
deadline. -/
def Select.Pc.watches : Select.Pc → Option (Nat × Nat)
  | .scan i => some (0, i)
  | .rx_queue k => some (0, k)
  | .tx_queue k => some (0, k)
  | .deadline k => some (0, k)
  | .take k => some (0, k)
  | .invalidate k => some (0, k)
  | .give k => some (0, k)
  | .timeout k => some (0, k)
  | .scanned => some (0, 4)
  | .sl_Select => some (0, 4)
  | .deliver i => some (i, 4)
  | .ready k => some (k + 1, 4)
  | .top => none
  | .waitForNotify => none

/-- What is known of the read set at one place holds at the other. -/
def Select.Pc.Precedes (pc pc' : Select.Pc) : Prop :=
  ∀ lo' hi', pc'.watches = some (lo', hi') →
    ∃ lo hi, pc.watches = some (lo, hi) ∧ lo ≤ lo' ∧ (hi ≤ hi' ∨ 4 ≤ hi')

namespace Select.Pc

variable {pc pc' : Select.Pc}

theorem Precedes.of_eq (h : pc'.watches = pc.watches) : pc.Precedes pc' := by
  intro lo hi hw
  exact ⟨lo, hi, by rw [← h, hw], le_refl lo, .inl (le_refl hi)⟩

theorem Precedes.of_none (h : pc'.watches = none) : pc.Precedes pc' := by
  intro lo hi hw
  rw [h] at hw
  exact absurd hw (by simp)

theorem Precedes.of_le {lo hi lo' hi' : Nat} (h : pc.watches = some (lo, hi))
    (h' : pc'.watches = some (lo', hi')) (hlo : lo ≤ lo') (hhi : hi ≤ hi' ∨ 4 ≤ hi') :
    pc.Precedes pc' := by
  intro lo₁ hi₁ hw
  obtain ⟨rfl, rfl⟩ : lo' = lo₁ ∧ hi' = hi₁ := by simpa using h'.symm.trans hw
  exact ⟨lo, hi, h, hlo, hhi⟩

end Select.Pc

namespace State

variable (s : State ι)

/-- The read set holds the sockets of slots that were scanned, with a deadline unless the response
was delivered. -/
def Watching (slots : Index → connectionManagerElement) (select : Select) : Prop :=
  ∀ lo hi, select.pc.watches = some (lo, hi) → ∀ x ∈ select.read_fd_set,
    0 ≤ x ∧ ∃ k : Index, k.val < hi ∧ (slots k).sd = x ∧
      (lo ≤ k.val → (slots k).rx_wait_deadline_ms ≠ 0)

/-- **What every step preserves**. -/
structure Inv : Prop where
  sole : ∀ c d k, (s.clients c).pc.holds = some k → (s.clients d).pc.holds = some k → c = d
  owned : ∀ c k, (s.clients c).pc.holds = some k → (s.slots k).sd = sd c ∨
    (s.slots k).sd = -1 ∧ (s.clients c).pc.waits = some k ∧ (s.slots k).rx_signal ≠ none
  unique : ∀ j k, (s.slots j).sd = (s.slots k).sd → 0 ≤ (s.slots j).sd → j = k
  excluded : ∀ c k, (s.clients c).pc.excludes k → (s.slots k).sd ≠ sd c
  waiting : ∀ c k, (s.clients c).pc.waits = some k → s.tokens k = 1
  resting : ∀ k, (∀ c, (s.clients c).pc.waits ≠ some k) → s.tokens k = 0
  own : ∀ c k r, (s.clients c).pc.waits = some k → (s.slots k).rx_signal = some r →
    r.about = sd c
  asked : ∀ c, (s.clients c).pc ≠ .idle → (s.clients c).deadline_ms ≠ 0
  queued : ∀ k, (s.slots k).rx_queue ≠ some 0
  watching : Watching s.slots s.select
  found : ∀ c, (s.clients c).pc ≠ .unreachable

variable {sd s}

omit [DecidableEq ι] in
theorem Inv.served (hi : s.Inv sd) : s.Served sd where
  slot := by
    intro c k hc
    obtain hsd | ⟨-, -, hsignal⟩ := hi.owned c k (Client.Pc.waits_holds hc)
    · left
      refine ⟨hsd, ?_⟩
      intro d hdc hd
      exact hdc (hi.sole d c k (Client.Pc.waits_holds hd) (Client.Pc.waits_holds hc))
    · exact .inr hsignal
  once := hi.waiting
  own := hi.own
  found := hi.found

omit [DecidableEq ι] in
theorem Inv.initial : (State.initial : State ι).Inv sd where
  sole := nofun
  owned := nofun
  unique := by
    intro j k _ hj
    exact absurd (show (0 : Int) ≤ -1 from hj) (by decide)
  excluded := nofun
  waiting := nofun
  resting := fun _ _ => rfl
  own := nofun
  asked := fun _ h => absurd rfl h
  queued := nofun
  watching := nofun
  found := nofun

/-! ### Steps of a client -/

/-- A step of a client that leaves the slots alone. -/
theorem Inv.move (hi : s.Inv sd) {c : ι} {x : Client} {mutex notified : Bool} {now : Nat}
    (hholds : ∀ k, x.pc.holds = some k → (∀ d, d ≠ c → (s.clients d).pc.holds ≠ some k) ∧
      ((s.slots k).sd = sd c ∨
        (s.slots k).sd = -1 ∧ x.pc.waits = some k ∧ (s.slots k).rx_signal ≠ none))
    (hwaits : x.pc.waits = (s.clients c).pc.waits)
    (hexcludes : ∀ k, x.pc.excludes k → (s.slots k).sd ≠ sd c)
    (hasked : x.pc ≠ .idle → x.deadline_ms ≠ 0) (hfound : x.pc ≠ .unreachable) :
    Inv sd { s.setClient c x with mutex := mutex, notified := notified, now := now } := by
  have hself : ∀ d, d = c → Function.update s.clients c x d = x := by
    intro d hd
    rw [hd, Function.update_self]
  have hother : ∀ d, d ≠ c → Function.update s.clients c x d = s.clients d :=
    fun d hd => Function.update_of_ne hd x s.clients
  have hwait : ∀ d, (Function.update s.clients c x d).pc.waits = (s.clients d).pc.waits := by
    intro d
    by_cases hd : d = c
    · rw [hself d hd, hwaits, hd]
    · rw [hother d hd]
  constructor
  · intro d e k hd he
    simp only [setClient] at hd he
    by_cases hdc : d = c
    · by_cases hec : e = c
      · rw [hdc, hec]
      · rw [hself d hdc] at hd
        rw [hother e hec] at he
        exact absurd he ((hholds k hd).1 e hec)
    · by_cases hec : e = c
      · rw [hself e hec] at he
        rw [hother d hdc] at hd
        exact absurd hd ((hholds k he).1 d hdc)
      · rw [hother d hdc] at hd
        rw [hother e hec] at he
        exact hi.sole d e k hd he
  · intro d k hd
    simp only [setClient] at hd ⊢
    by_cases hdc : d = c
    · rw [hself d hdc] at hd ⊢
      rw [hdc]
      exact (hholds k hd).2
    · rw [hother d hdc] at hd ⊢
      exact hi.owned d k hd
  · exact hi.unique
  · intro d k hd
    simp only [setClient] at hd ⊢
    by_cases hdc : d = c
    · rw [hself d hdc] at hd
      rw [hdc]
      exact hexcludes k hd
    · rw [hother d hdc] at hd
      exact hi.excluded d k hd
  · intro d k hd
    simp only [setClient, hwait] at hd
    exact hi.waiting d k hd
  · intro k hk
    simp only [setClient, hwait] at hk
    exact hi.resting k hk
  · intro d k r hd
    simp only [setClient, hwait] at hd
    exact hi.own d k r hd
  · intro d hd
    simp only [setClient] at hd ⊢
    by_cases hdc : d = c
    · rw [hself d hdc] at hd ⊢
      exact hasked hd
    · rw [hother d hdc] at hd ⊢
      exact hi.asked d hd
  · exact hi.queued
  · exact hi.watching
  · intro d
    simp only [setClient]
    by_cases hdc : d = c
    · rw [hself d hdc]
      exact hfound
    · rw [hother d hdc]
      exact hi.found d

omit [DecidableEq ι] in
/-- Nobody else holds the slot of a client, which is its own or has its response. -/
theorem Inv.holding (hi : s.Inv sd) {c : ι} {k : Index} (h : (s.clients c).pc.holds = some k) :
    (∀ d, d ≠ c → (s.clients d).pc.holds ≠ some k) ∧ ((s.slots k).sd = sd c ∨
      (s.slots k).sd = -1 ∧ (s.clients c).pc.waits = some k ∧ (s.slots k).rx_signal ≠ none) :=
  ⟨fun d hdc hd => hdc (hi.sole d c k hd h), hi.owned c k h⟩

/-- A slot that nobody but `c` holds has no tokens while `c` does not wait. -/
theorem Inv.no_tokens (hi : s.Inv sd) {c : ι} {k : Index}
    (halone : ∀ d, d ≠ c → (s.clients d).pc.holds ≠ some k)
    (hc : (s.clients c).pc.waits ≠ some k) : s.tokens k = 0 := by
  apply hi.resting
  intro d hd
  by_cases hdc : d = c
  · exact hc (hdc ▸ hd)
  · exact halone d hdc (Client.Pc.waits_holds hd)

/-- A store to a slot leaves what is watched, unless the slot may be in the read set and its socket
or a deadline that is needed is taken away. -/
theorem Watching.update {slots : Index → connectionManagerElement} {select : Select}
    {k : Index} {x : connectionManagerElement} (h : Watching slots select)
    (hstore : ∀ lo hi, select.pc.watches = some (lo, hi) → k.val < hi →
      (x.sd = (slots k).sd ∨ (slots k).sd < 0) ∧
      (lo ≤ k.val → (slots k).rx_wait_deadline_ms ≠ 0 → x.rx_wait_deadline_ms ≠ 0)) :
    Watching (Function.update slots k x) select := by
  intro lo hi hpc y hy
  obtain ⟨hpos, j, hj, hjy, hd⟩ := h lo hi hpc y hy
  refine ⟨hpos, j, hj, ?_⟩
  by_cases hjk : j = k
  · subst hjk
    obtain ⟨hsd, hdeadline⟩ := hstore lo hi hpc hj
    rw [Function.update_self]
    refine ⟨?_, fun hlo => hdeadline hlo (hd hlo)⟩
    obtain hsd | hneg := hsd
    · rw [hsd, hjy]
    · omega
  · rw [Function.update_of_ne hjk]
    exact ⟨hjy, hd⟩

/-- The select task goes on with fewer sockets, or with more slots that need no deadline. -/
theorem Watching.weaken {slots : Index → connectionManagerElement} {select : Select}
    (h : Watching slots select) (select' : Select)
    (hset : ∀ x ∈ select'.read_fd_set, x ∈ select.read_fd_set)
    (hpc : select.pc.Precedes select'.pc) : Watching slots select' := by
  intro lo' hi' hpc' x hx
  obtain ⟨lo, hi, hw, hlo, hhi⟩ := hpc lo' hi' hpc'
  obtain ⟨hpos, k, hk, hkx, hd⟩ := h lo hi hw x (hset x hx)
  exact ⟨hpos, k, by omega, hkx, fun hle => hd (by omega)⟩

/-- A step of a client that stores to the slot that it holds, or claims. -/
theorem Inv.work (hi : s.Inv sd) (hinj : Function.Injective sd) {c : ι} {k : Index}
    {x : connectionManagerElement} {y : Client}
    (halone : ∀ d, d ≠ c → (s.clients d).pc.holds ≠ some k)
    (hbefore : ∀ j, (s.clients c).pc.holds = some j → j = k)
    (hafter : ∀ j, y.pc.holds = some j → j = k)
    (howned : y.pc.holds = some k → x.sd = sd c ∨
      x.sd = -1 ∧ y.pc.waits = some k ∧ x.rx_signal ≠ none)
    (hsd : x.sd = (s.slots k).sd ∨
      x.sd = sd c ∧ (s.slots k).sd < 0 ∧ ∀ j, (s.slots j).sd ≠ sd c)
    (htokens : (x.tokens + if s.select.pc.answers = some k then 1 else 0) =
      if y.pc.waits = some k then 1 else 0)
    (hown : ∀ r, y.pc.waits = some k → x.rx_signal = some r → r.about = sd c)
    (hqueue : x.rx_queue ≠ some 0)
    (hdeadline : x.rx_wait_deadline_ms = (s.slots k).rx_wait_deadline_ms)
    (hexcludes : ∀ j, ¬ y.pc.excludes j)
    (hasked : y.pc ≠ .idle → y.deadline_ms ≠ 0) (hfound : y.pc ≠ .unreachable) :
    Inv sd ((s.setSlot k x).setClient c y) := by
  have hself : ((s.setSlot k x).setClient c y).clients c = y := setClient_self
  have hother : ∀ d, d ≠ c → ((s.setSlot k x).setClient c y).clients d = s.clients d :=
    fun d hd => setClient_other hd
  have hstored : ((s.setSlot k x).setClient c y).slots k = x := setSlot_self
  have hkept : ∀ j, j ≠ k → ((s.setSlot k x).setClient c y).slots j = s.slots j :=
    fun j hj => setSlot_other hj
  have hselect : ((s.setSlot k x).setClient c y).select = s.select := rfl
  have hwatching : Watching ((s.setSlot k x).setClient c y).slots s.select := by
    apply hi.watching.update
    intro _ _ _ _
    refine ⟨?_, ?_⟩
    · obtain hsd | ⟨-, hneg, -⟩ := hsd
      · exact .inl hsd
      · exact .inr hneg
    · intro _ hd
      rw [hdeadline]
      exact hd
  generalize (s.setSlot k x).setClient c y = t at *
  have htokens_other : ∀ j, j ≠ k → t.tokens j = s.tokens j := by
    intro j hj
    unfold tokens
    rw [hkept j hj, hselect]
  have htokens_self : t.tokens k = if y.pc.waits = some k then 1 else 0 := by
    rw [← htokens]
    unfold tokens
    rw [hstored, hselect]
  -- a client other than `c` that holds a slot holds another one
  have hne : ∀ d j, d ≠ c → (s.clients d).pc.holds = some j → j ≠ k := by
    intro d j hdc hd hjk
    exact halone d hdc (hjk ▸ hd)
  constructor
  · intro d e j hd he
    by_cases hdc : d = c
    · by_cases hec : e = c
      · rw [hdc, hec]
      · rw [hdc, hself] at hd
        rw [hother e hec] at he
        exact absurd (hafter j hd) (hne e j hec he)
    · by_cases hec : e = c
      · rw [hec, hself] at he
        rw [hother d hdc] at hd
        exact absurd (hafter j he) (hne d j hdc hd)
      · rw [hother d hdc] at hd
        rw [hother e hec] at he
        exact hi.sole d e j hd he
  · intro d j hd
    by_cases hdc : d = c
    · rw [hdc, hself] at hd ⊢
      obtain rfl := hafter j hd
      rw [hstored]
      exact howned hd
    · rw [hother d hdc] at hd ⊢
      rw [hkept j (hne d j hdc hd)]
      exact hi.owned d j hd
  · intro i j hij hpos
    by_cases hik : i = k
    · by_cases hjk : j = k
      · rw [hik, hjk]
      · subst hik
        rw [hstored] at hij hpos
        rw [hkept j hjk] at hij
        obtain hsd | ⟨hclaimed, -, hfresh⟩ := hsd
        · rw [hsd] at hij hpos
          exact hi.unique i j hij hpos
        · exact absurd (hij.symm.trans hclaimed) (hfresh j)
    · rw [hkept i hik] at hij hpos
      by_cases hjk : j = k
      · subst hjk
        rw [hstored] at hij
        obtain hsd | ⟨hclaimed, -, hfresh⟩ := hsd
        · rw [hsd] at hij
          exact hi.unique i j hij hpos
        · exact absurd (hij.trans hclaimed) (hfresh i)
      · rw [hkept j hjk] at hij
        exact hi.unique i j hij hpos
  · intro d j hd
    by_cases hdc : d = c
    · rw [hdc, hself] at hd
      exact absurd hd (hexcludes j)
    · rw [hother d hdc] at hd
      by_cases hjk : j = k
      · subst hjk
        rw [hstored]
        obtain hsd | ⟨hclaimed, -, -⟩ := hsd
        · rw [hsd]
          exact hi.excluded d j hd
        · rw [hclaimed]
          intro heq
          exact hdc (hinj (by omega))
      · rw [hkept j hjk]
        exact hi.excluded d j hd
  · intro d j hd
    by_cases hdc : d = c
    · rw [hdc, hself] at hd
      obtain rfl := hafter j (Client.Pc.waits_holds hd)
      rw [htokens_self, if_pos hd]
    · rw [hother d hdc] at hd
      rw [htokens_other j (hne d j hdc (Client.Pc.waits_holds hd))]
      exact hi.waiting d j hd
  · intro j hj
    by_cases hjk : j = k
    · subst hjk
      have hc := hj c
      rw [hself] at hc
      rw [htokens_self, if_neg hc]
    · rw [htokens_other j hjk]
      apply hi.resting
      intro d hd
      by_cases hdc : d = c
      · rw [hdc] at hd
        exact hjk (hbefore j (Client.Pc.waits_holds hd))
      · apply hj d
        rw [hother d hdc]
        exact hd
  · intro d j r hd hr
    by_cases hdc : d = c
    · rw [hdc, hself] at hd
      obtain rfl := hafter j (Client.Pc.waits_holds hd)
      rw [hstored] at hr
      rw [hdc]
      exact hown r hd hr
    · rw [hother d hdc] at hd
      rw [hkept j (hne d j hdc (Client.Pc.waits_holds hd))] at hr
      exact hi.own d j r hd hr
  · intro d hd
    by_cases hdc : d = c
    · rw [hdc, hself] at hd ⊢
      exact hasked hd
    · rw [hother d hdc] at hd ⊢
      exact hi.asked d hd
  · intro j
    by_cases hjk : j = k
    · rw [hjk, hstored]
      exact hqueue
    · rw [hkept j hjk]
      exact hi.queued j
  · rw [hselect]
    exact hwatching
  · intro d
    by_cases hdc : d = c
    · rw [hdc, hself]
      exact hfound
    · rw [hother d hdc]
      exact hi.found d

theorem Inv.call (hi : s.Inv sd) {c : ι} {timeout_s : Nat}
    (hidle : (s.clients c).pc = .idle) (hdeadline : s.now + timeout_s * 1024 ≠ 0)
    (hfits : s.now + timeout_s * 1024 < 2 ^ 32) : (s.call c timeout_s).Inv sd := by
  unfold State.call
  rw [if_pos hfits]
  refine hi.move ?_ ?_ ?_ ?_ ?_
  · intro k hk
    exact absurd hk (by simp [Client.Pc.holds])
  · simp [Client.Pc.waits, hidle]
  · intro k hk
    exact absurd hk (by simp [Client.Pc.excludes])
  · intro _
    exact hdeadline
  · simp

/-- A client that goes on looking for a slot. -/
theorem Inv.look (hi : s.Inv sd) {c : ι} {pc : Client.Pc} {mutex : Bool}
    (hidle : (s.clients c).pc ≠ .idle) (hwaits : (s.clients c).pc.waits = none)
    (hholds : pc.holds = none) (hexcludes : ∀ k, pc.excludes k → (s.slots k).sd ≠ sd c)
    (hfound : pc ≠ .unreachable) : Inv sd { s.goto c pc with mutex := mutex } := by
  refine hi.move ?_ ?_ hexcludes ?_ hfound
  · intro k hk
    rw [hholds] at hk
    exact absurd hk (by simp)
  · rw [hwaits]
    cases h : pc.waits with
    | none => rfl
    | some k =>
      rw [Client.Pc.waits_holds h] at hholds
      exact absurd hholds (by simp)
  · intro _
    exact hi.asked c hidle

/-- A client that goes on with the slot that it holds. -/
theorem Inv.keep (hi : s.Inv sd) {c : ι} {pc : Client.Pc} {mutex notified : Bool} {k : Index}
    (hidle : (s.clients c).pc ≠ .idle) (hbefore : (s.clients c).pc.holds = some k)
    (hafter : pc.holds = some k) (hwaits : pc.waits = (s.clients c).pc.waits)
    (hexcludes : ∀ j, ¬ pc.excludes j) :
    Inv sd { s.goto c pc with mutex := mutex, notified := notified } := by
  refine hi.move ?_ hwaits ?_ ?_ ?_
  · intro j hj
    obtain rfl : k = j := Option.some.inj (hafter.symm.trans hj)
    show _ ∧ (_ ∨ _ ∧ pc.waits = some k ∧ _)
    rw [hwaits]
    exact hi.holding hbefore
  · intro j hj
    exact absurd hj (hexcludes j)
  · intro _
    exact hi.asked c hidle
  · intro h
    have hpc : pc = .unreachable := h
    rw [hpc] at hafter
    exact absurd hafter (by simp [Client.Pc.holds])

omit [DecidableEq ι] in
/-- The slot of the socket of `c` is held by no other client. -/
theorem Inv.not_held (hi : s.Inv sd) (hinj : Function.Injective sd) {c : ι} {k : Index}
    (h : (s.slots k).sd = sd c) : ∀ d, d ≠ c → (s.clients d).pc.holds ≠ some k := by
  intro d hdc hd
  obtain hsd | ⟨hsd, -, -⟩ := hi.owned d k hd
  · exact hdc (hinj (by omega))
  · omega

theorem Inv.findSocket (hi : s.Inv sd) (hinj : Function.Injective sd) {c : ι} {i : Nat}
    (hpc : (s.clients c).pc = .findSocket i) : (s.clientStep sd c).Inv sd := by
  have hidle : (s.clients c).pc ≠ .idle := by simp [hpc]
  have hwaits : (s.clients c).pc.waits = none := by simp [hpc, Client.Pc.waits]
  have hseen : ∀ k : Index, k.val < i → (s.slots k).sd ≠ sd c := by
    intro k hk
    apply hi.excluded
    rw [hpc]
    exact hk
  unfold clientStep
  simp only [hpc]
  split
  · rename_i hlt
    split
    · rename_i hsd
      refine hi.move ?_ ?_ ?_ ?_ ?_
      · intro k hk
        obtain rfl : ⟨i, hlt⟩ = k := by simpa [Client.Pc.holds] using hk
        exact ⟨hi.not_held hinj hsd, .inl hsd⟩
      · rw [hwaits]
        rfl
      · intro k hk
        exact absurd hk (by simp [Client.Pc.excludes])
      · intro _
        exact hi.asked c hidle
      · simp
    · rename_i hsd
      refine hi.look hidle hwaits rfl ?_ (by simp)
      intro k hk
      have hk : k.val < i + 1 := hk
      by_cases hki : k.val < i
      · exact hseen k hki
      · obtain rfl : k = ⟨i, hlt⟩ := Fin.ext (by simp; omega)
        exact hsd
  · refine hi.look hidle hwaits rfl ?_ (by simp)
    intro k _
    exact hseen k (by omega)

theorem Inv.findFreeSocket (hi : s.Inv sd) {c : ι} {i : Nat}
    (hpc : (s.clients c).pc = .findFreeSocket i) (hclaims : s.Claims c) :
    (s.clientStep sd c).Inv sd := by
  have hidle : (s.clients c).pc ≠ .idle := by simp [hpc]
  have hwaits : (s.clients c).pc.waits = none := by simp [hpc, Client.Pc.waits]
  have hseen : ∀ k : Index, (s.slots k).sd ≠ sd c := by
    intro k
    apply hi.excluded
    rw [hpc]
    trivial
  have hlt : i < 4 := by
    have hroom := hclaims.2
    rw [hpc] at hroom
    have hroom : decide (4 ≤ i) = false := hroom
    rw [decide_eq_false_iff_not] at hroom
    omega
  unfold clientStep
  simp only [hpc]
  rw [dif_pos hlt]
  split
  · exact hi.look hidle hwaits rfl (fun k _ => hseen k) (by simp)
  · exact hi.look hidle hwaits rfl (fun k _ => hseen k) (by simp)

theorem Inv.claim (hi : s.Inv sd) (hinj : Function.Injective sd) {c : ι} {k : Index}
    (hpc : (s.clients c).pc = .claim k) (hclaims : s.Claims c) : (s.clientStep sd c).Inv sd := by
  obtain ⟨hfree, halone⟩ := hclaims.1 k hpc
  have hnone : s.tokens k = 0 := hi.no_tokens halone (by simp [hpc, Client.Pc.waits])
  unfold clientStep
  simp only [hpc]
  apply hi.work hinj halone
  · intro j hj
    simp [hpc, Client.Pc.holds] at hj
  · intro j hj
    simpa [Client.Pc.holds, eq_comm] using hj
  · intro _
    exact .inl rfl
  · refine .inr ⟨rfl, hfree, ?_⟩
    intro j
    apply hi.excluded
    rw [hpc]
    trivial
  · exact hnone
  · intro r hr
    exact absurd hr (by simp [Client.Pc.waits])
  · exact hi.queued k
  · rfl
  · intro j hj
    exact absurd hj (by simp [Client.Pc.excludes])
  · intro _
    exact hi.asked c (by simp [hpc])
  · simp

/-- Resetting the signal of a slot that has no tokens. -/
theorem Inv.reset (hi : s.Inv sd) (hinj : Function.Injective sd) {c : ι} {k : Index}
    (hpc : (s.clients c).pc = .reset k) : (s.clientStep sd c).Inv sd := by
  have hholds : (s.clients c).pc.holds = some k := by simp [hpc, Client.Pc.holds]
  have hwaits : (s.clients c).pc.waits = none := by simp [hpc, Client.Pc.waits]
  obtain ⟨halone, howned⟩ := hi.holding hholds
  have hnone : s.tokens k = 0 := hi.no_tokens halone (by simp [hwaits])
  unfold clientStep
  simp only [hpc]
  apply hi.work hinj halone
  · intro j hj
    exact Option.some.inj (hj.symm.trans hholds)
  · intro j hj
    simpa [Client.Pc.holds, eq_comm] using hj
  · intro _
    obtain hsd | ⟨-, hw, -⟩ := howned
    · exact .inl hsd
    · rw [hwaits] at hw
      exact absurd hw (by simp)
  · exact .inl rfl
  · unfold tokens connectionManagerElement.tokens at hnone
    simp only [Client.Pc.waits, connectionManagerElement.tokens, if_true, reduceCtorEq, if_false]
    omega
  · intro r hr
    exact absurd hr (by simp [Client.Pc.waits])
  · exact hi.queued k
  · rfl
  · intro j hj
    exact absurd hj (by simp [Client.Pc.excludes])
  · intro _
    exact hi.asked c (by simp [hpc])
  · simp

/-- The request is the one token of its slot. -/
theorem Inv.send (hi : s.Inv sd) (hinj : Function.Injective sd) {c : ι} {k : Index}
    (hpc : (s.clients c).pc = .send k) : (s.clientStep sd c).Inv sd := by
  have hholds : (s.clients c).pc.holds = some k := by simp [hpc, Client.Pc.holds]
  have hwaits : (s.clients c).pc.waits = none := by simp [hpc, Client.Pc.waits]
  obtain ⟨halone, howned⟩ := hi.holding hholds
  have hnone : s.tokens k = 0 := hi.no_tokens halone (by simp [hwaits])
  unfold tokens connectionManagerElement.tokens at hnone
  have hqueue : (s.slots k).rx_queue = none := by
    by_contra hsome
    rw [if_neg hsome] at hnone
    omega
  have hsignal : (s.slots k).rx_signal = none := by
    by_contra hsome
    rw [if_neg hsome] at hnone
    omega
  unfold clientStep
  simp only [hpc, hqueue]
  apply hi.work hinj halone
  · intro j hj
    exact Option.some.inj (hj.symm.trans hholds)
  · intro j hj
    simpa [Client.Pc.holds, eq_comm] using hj
  · intro _
    obtain hsd | ⟨-, hw, -⟩ := howned
    · exact .inl hsd
    · rw [hwaits] at hw
      exact absurd hw (by simp)
  · exact .inl rfl
  · rw [if_pos hqueue, if_pos hsignal] at hnone
    simp only [Client.Pc.waits, connectionManagerElement.tokens, if_true, reduceCtorEq, if_false,
      hsignal]
    omega
  · intro r _ hr
    have hr : (s.slots k).rx_signal = some r := hr
    rw [hsignal] at hr
    exact absurd hr (by simp)
  · intro h
    exact hi.asked c (by simp [hpc]) (Option.some.inj h)
  · rfl
  · intro j hj
    exact absurd hj (by simp [Client.Pc.excludes])
  · intro _
    exact hi.asked c (by simp [hpc])
  · simp

/-- The client takes its response, and the slot has no token left. -/
theorem Inv.recieve (hi : s.Inv sd) (hinj : Function.Injective sd) {c : ι} {k : Index}
    (hpc : (s.clients c).pc = .recieve k) : (s.clientStep sd c).Inv sd := by
  have hholds : (s.clients c).pc.holds = some k := by simp [hpc, Client.Pc.holds]
  have hwaits : (s.clients c).pc.waits = some k := by simp [hpc, Client.Pc.waits]
  obtain ⟨halone, -⟩ := hi.holding hholds
  have hone : s.tokens k = 1 := hi.waiting c k hwaits
  unfold clientStep
  simp only [hpc]
  split
  · exact hi
  · rename_i r hr
    apply hi.work hinj halone
    · intro j hj
      exact Option.some.inj (hj.symm.trans hholds)
    · intro j hj
      exact absurd hj (by simp [Client.Pc.holds])
    · intro h
      exact absurd h (by simp [Client.Pc.holds])
    · exact .inl rfl
    · unfold tokens connectionManagerElement.tokens at hone
      rw [if_neg (show (s.slots k).rx_signal ≠ none by simp [hr])] at hone
      simp only [Client.Pc.waits, connectionManagerElement.tokens, if_true, reduceCtorEq, if_false]
      omega
    · intro r' h
      exact absurd h (by simp [Client.Pc.waits])
    · exact hi.queued k
    · rfl
    · intro j hj
      exact absurd hj (by simp [Client.Pc.excludes])
    · intro h
      exact absurd rfl h
    · simp

/-- **A step of a client.** -/
theorem Inv.client (hi : s.Inv sd) (hinj : Function.Injective sd) (c : ι) (hclaims : s.Claims c) :
    (s.clientStep sd c).Inv sd := by
  cases hpc : (s.clients c).pc with
  | idle => simpa [clientStep, hpc] using hi
  | findSocket i => exact hi.findSocket hinj hpc
  | findFreeSocket i => exact hi.findFreeSocket hpc hclaims
  | take k =>
    have hseen : ∀ j, (s.slots j).sd ≠ sd c := fun j => hi.excluded c j (by rw [hpc]; trivial)
    unfold clientStep
    simp only [hpc]
    split
    · exact hi
    · exact hi.look (by simp [hpc]) (by simp [hpc, Client.Pc.waits]) rfl (fun j _ => hseen j)
        (by simp)
  | claim k => exact hi.claim hinj hpc hclaims
  | give k =>
    unfold clientStep
    simp only [hpc]
    exact hi.keep (by simp [hpc]) (by rw [hpc]; rfl) rfl (by rw [hpc]; rfl) (fun _ h => h)
  | reset k => exact hi.reset hinj hpc
  | send k => exact hi.send hinj hpc
  | notify k =>
    unfold clientStep
    simp only [hpc]
    exact hi.keep (by simp [hpc]) (by rw [hpc]; rfl) rfl (by rw [hpc]; rfl) (fun _ h => h)
  | recieve k => exact hi.recieve hinj hpc
  | unreachable => exact absurd hpc (hi.found c)

/-! ### Steps of the select task -/

section Select

omit [DecidableEq ι]

/-- A step of the select task that leaves the slots alone and answers nobody. -/
theorem Inv.turn (hi : s.Inv sd) {select : Select} {mutex notified : Bool}
    (hbefore : s.select.pc.answers = none) (hafter : select.pc.answers = none)
    (hwatching : Watching s.slots select) :
    Inv sd { s with select := select, mutex := mutex, notified := notified } := by
  have htokens : ∀ k, State.tokens { s with
      select := select, mutex := mutex, notified := notified } k = s.tokens k := by
    intro k
    unfold tokens
    simp only [hbefore, hafter]
  constructor
  · exact hi.sole
  · exact hi.owned
  · exact hi.unique
  · exact hi.excluded
  · intro c k hc
    rw [htokens]
    exact hi.waiting c k hc
  · intro k hk
    rw [htokens]
    exact hi.resting k hk
  · exact hi.own
  · exact hi.asked
  · exact hi.queued
  · exact hwatching
  · exact hi.found

/-- A step of the select task that stores to a slot and keeps its token, with the response if it
sends one; it frees the slot only if nobody needs it any more. -/
theorem Inv.store (hi : s.Inv sd) {k : Index} {x : connectionManagerElement} {select : Select}
    (hsd : x.sd = (s.slots k).sd ∨ x.sd = -1 ∧ ∀ c, (s.clients c).pc.holds = some k →
      (s.clients c).pc.waits = some k ∧ x.rx_signal ≠ none)
    (hsignal : x.rx_signal = (s.slots k).rx_signal ∨
      (s.slots k).rx_signal = none ∧ ∃ timeout, x.rx_signal = some ⟨timeout, (s.slots k).sd⟩)
    (hqueue : x.rx_queue ≠ some 0)
    (htokens : (x.tokens + if select.pc.answers = some k then 1 else 0) = s.tokens k)
    (hbefore : ∀ j, s.select.pc.answers = some j → j = k)
    (hafter : ∀ j, select.pc.answers = some j → j = k)
    (hwatching : Watching (Function.update s.slots k x) select) :
    Inv sd { s.setSlot k x with select := select } := by
  have hstored : ({ s.setSlot k x with select := select } : State ι).slots k = x := setSlot_self
  have hkept : ∀ j, j ≠ k →
      ({ s.setSlot k x with select := select } : State ι).slots j = s.slots j :=
    fun j hj => setSlot_other hj
  have hclients : ({ s.setSlot k x with select := select } : State ι).clients = s.clients := rfl
  have hcount : ∀ j, ({ s.setSlot k x with select := select } : State ι).tokens j = s.tokens j := by
    intro j
    by_cases hjk : j = k
    · rw [hjk, ← htokens]
      unfold tokens
      rw [hstored]
    · have hb : s.select.pc.answers ≠ some j := fun h => hjk (hbefore j h)
      have ha : select.pc.answers ≠ some j := fun h => hjk (hafter j h)
      unfold tokens
      rw [hkept j hjk, if_neg hb, if_neg ha]
  have hwatching : Watching ({ s.setSlot k x with select := select } : State ι).slots
    ({ s.setSlot k x with select := select } : State ι).select := hwatching
  generalize ({ s.setSlot k x with select := select } : State ι) = t at *
  -- a slot that has a socket has it as before
  have hsame : ∀ j, (t.slots j).sd = (s.slots j).sd ∨ (t.slots j).sd = -1 := by
    intro j
    by_cases hjk : j = k
    · rw [hjk, hstored]
      exact hsd.imp_right And.left
    · rw [hkept j hjk]
      exact .inl rfl
  constructor
  · rw [hclients]
    exact hi.sole
  · intro c j hc
    rw [hclients] at hc ⊢
    by_cases hjk : j = k
    · subst hjk
      rw [hstored]
      obtain hsd | ⟨hfreed, hdone⟩ := hsd
      · rw [hsd]
        obtain hown | ⟨hneg, hw, hs⟩ := hi.owned c j hc
        · exact .inl hown
        · refine .inr ⟨hneg, hw, ?_⟩
          obtain hsignal | ⟨hnone, -⟩ := hsignal
          · rw [hsignal]
            exact hs
          · exact absurd hnone hs
      · exact .inr ⟨hfreed, hdone c hc⟩
    · rw [hkept j hjk]
      exact hi.owned c j hc
  · intro i j hij hpos
    obtain hi₁ | hi₁ := hsame i
    · obtain hj₁ | hj₁ := hsame j
      · rw [hi₁, hj₁] at hij
        rw [hi₁] at hpos
        exact hi.unique i j hij hpos
      · omega
    · omega
  · intro c j hc
    rw [hclients] at hc
    obtain hj | hj := hsame j
    · rw [hj]
      exact hi.excluded c j hc
    · omega
  · intro c j hc
    rw [hclients] at hc
    rw [hcount]
    exact hi.waiting c j hc
  · intro j hj
    rw [hclients] at hj
    rw [hcount]
    exact hi.resting j hj
  · intro c j r hc hr
    rw [hclients] at hc
    by_cases hjk : j = k
    · subst hjk
      rw [hstored] at hr
      obtain hsignal | ⟨hnone, timeout, hsome⟩ := hsignal
      · rw [hsignal] at hr
        exact hi.own c j r hc hr
      · -- the response is new, so that the slot is the client's own
        obtain hown | ⟨-, -, hs⟩ := hi.owned c j (Client.Pc.waits_holds hc)
        · rw [hsome] at hr
          rw [← Option.some.inj hr]
          exact hown
        · exact absurd hnone hs
    · rw [hkept j hjk] at hr
      exact hi.own c j r hc hr
  · rw [hclients]
    exact hi.asked
  · intro j
    by_cases hjk : j = k
    · rw [hjk, hstored]
      exact hqueue
    · rw [hkept j hjk]
      exact hi.queued j
  · exact hwatching
  · rw [hclients]
    exact hi.found

/-- A slot has one token at most. -/
theorem Inv.tokens_le (hi : s.Inv sd) (k : Index) : s.tokens k ≤ 1 := by
  by_cases hw : ∃ c, (s.clients c).pc.waits = some k
  · obtain ⟨c, hc⟩ := hw
    rw [hi.waiting c k hc]
  · rw [hi.resting k (fun c hc => hw ⟨c, hc⟩)]
    omega

/-- A slot that has a token and no response is one of a client. -/
theorem Inv.sd_nonneg (hi : s.Inv sd) {k : Index} (htoken : s.tokens k ≠ 0)
    (hsignal : (s.slots k).rx_signal = none) : 0 ≤ (s.slots k).sd := by
  by_contra hneg
  apply htoken
  apply hi.resting
  intro c hc
  obtain hsd | ⟨-, -, hs⟩ := hi.owned c k (Client.Pc.waits_holds hc)
  · omega
  · exact hs hsignal

/-- The select task goes on to the next part of its loop. -/
theorem Inv.turn_to (hi : s.Inv sd) {pc : Select.Pc} {mutex notified : Bool} {maintenance : Nat}
    (hbefore : s.select.pc.answers = none) (hafter : pc.answers = none)
    (hpc : s.select.pc.Precedes pc) :
    Inv sd { s with
      select := { s.select with pc := pc, maintenance := maintenance }
      mutex := mutex
      notified := notified } :=
  hi.turn hbefore hafter (hi.watching.weaken _ (fun _ hx => hx) hpc)

/-- Storing to the slot that is scanned does not touch the read set, which is of the slots before
it. -/
theorem Watching.scanned {slots : Index → connectionManagerElement} {select : Select} {k : Index}
    (h : Watching slots select) (hw : select.pc.watches = some (0, k.val)) (pc : Select.Pc)
    (hpc : pc.watches = some (0, k.val)) (x : connectionManagerElement) :
    Watching (Function.update slots k x) { select with pc := pc } := by
  refine (h.weaken { select with pc := pc } (fun _ hx => hx) (.of_eq (hpc.trans hw.symm))).update ?_
  intro lo hi hlohi hlt
  obtain ⟨-, rfl⟩ : 0 = lo ∧ k.val = hi := by simpa using hpc.symm.trans hlohi
  omega

/-- Reading the request of a slot makes it the deadline. -/
theorem Inv.rx_queue (hi : s.Inv sd) {k : Index} (hpc : s.select.pc = .rx_queue k)
    (res : Int) (ready : List Int) : (s.selectStep res ready).Inv sd := by
  have hle := hi.tokens_le k
  have hanswers : s.select.pc.answers = none := by rw [hpc]; rfl
  unfold selectStep
  simp only [hpc]
  apply hi.store
  · exact .inl rfl
  · exact .inl rfl
  · simp
  · unfold tokens connectionManagerElement.tokens at hle ⊢
    rw [hanswers] at hle ⊢
    cases hq : (s.slots k).rx_queue with
    | none => rfl
    | some d =>
      have hd : d ≠ 0 := by
        intro hd
        exact hi.queued k (by rw [hq, hd])
      have hdeadline : (s.slots k).rx_wait_deadline_ms = 0 := by
        by_contra hne
        rw [hq, if_neg hne, if_neg (Option.some_ne_none d)] at hle
        omega
      simp [accept, Select.Pc.answers, hdeadline, hd]
  · intro j hj
    rw [hanswers] at hj
    exact absurd hj (by simp)
  · intro j hj
    exact absurd hj (by simp [Select.Pc.answers])
  · exact hi.watching.scanned (by rw [hpc]; rfl) _ rfl _

theorem Inv.tx_queue (hi : s.Inv sd) {k : Index} (hpc : s.select.pc = .tx_queue k)
    (res : Int) (ready : List Int) : (s.selectStep res ready).Inv sd := by
  have hanswers : s.select.pc.answers = none := by rw [hpc]; rfl
  unfold selectStep
  simp only [hpc]
  apply hi.store
  · exact .inl rfl
  · exact .inl rfl
  · exact hi.queued k
  · unfold tokens
    rw [hanswers]
    rfl
  · intro j hj
    rw [hanswers] at hj
    exact absurd hj (by simp)
  · intro j hj
    exact absurd hj (by simp [Select.Pc.answers])
  · exact hi.watching.scanned (by rw [hpc]; rfl) _ rfl _

/-- A deadline that is there is watched, or answered when it has passed. -/
theorem Inv.deadline (hi : s.Inv sd) {k : Index} (hpc : s.select.pc = .deadline k) :
    (s.testDeadline k).Inv sd := by
  have hle := hi.tokens_le k
  have hanswers : s.select.pc.answers = none := by rw [hpc]; rfl
  have hwatches : s.select.pc.watches = some (0, k.val) := by rw [hpc]; rfl
  unfold testDeadline
  dsimp only
  split
  · exact hi.turn_to hanswers rfl (.of_eq hwatches.symm)
  · rename_i hdeadline
    split
    · refine hi.turn hanswers rfl ?_
      intro lo hi' hw x hx
      obtain ⟨rfl, rfl⟩ : 0 = lo ∧ k.val + 1 = hi' := by simpa [Select.Pc.watches] using hw
      obtain rfl | hx := List.mem_cons.1 hx
      · refine ⟨?_, k, by omega, rfl, fun _ => hdeadline⟩
        unfold tokens connectionManagerElement.tokens at hle
        rw [if_neg hdeadline] at hle
        apply hi.sd_nonneg
        · unfold tokens connectionManagerElement.tokens
          rw [if_neg hdeadline]
          omega
        · by_contra hs
          rw [if_neg hs] at hle
          omega
      · obtain ⟨hpos, j, hj, hjx, hd⟩ := hi.watching 0 k.val hwatches x hx
        exact ⟨hpos, j, by omega, hjx, hd⟩
    · apply hi.store
      · exact .inl rfl
      · exact .inl rfl
      · exact hi.queued k
      · unfold tokens connectionManagerElement.tokens
        rw [hanswers, if_neg hdeadline]
        simp [Select.Pc.answers]
        omega
      · intro j hj
        rw [hanswers] at hj
        exact absurd hj (by simp)
      · intro j hj
        simpa [Select.Pc.answers, eq_comm] using hj
      · exact hi.watching.scanned hwatches _ rfl _

/-- The response is the token of its slot from then on. -/
theorem Inv.respond (hi : s.Inv sd) {k : Index} {timeout : Nat} {select : Select}
    (hbefore : s.select.pc.answers = some k) (hafter : select.pc.answers = none)
    (hwatching : Watching s.slots select) : (s.respond k timeout select).Inv sd := by
  unfold State.respond
  split
  · exact hi
  · rename_i hsignal
    apply hi.store
    · exact .inl rfl
    · exact .inr ⟨hsignal, timeout, rfl⟩
    · exact hi.queued k
    · unfold tokens connectionManagerElement.tokens
      rw [hbefore, hafter, hsignal]
      simp
    · intro j hj
      rw [hbefore] at hj
      exact (Option.some.inj hj).symm
    · intro j hj
      rw [hafter] at hj
      exact absurd hj (by simp)
    · apply hwatching.update
      intro _ _ _ _
      exact ⟨.inl rfl, fun _ h => h⟩

/-- The sockets that are ready are those of slots with a deadline. -/
theorem Inv.deliver (hi : s.Inv sd) {i : Nat} (hpc : s.select.pc = .deliver i)
    (res : Int) (ready : List Int) : (s.selectStep res ready).Inv sd := by
  have hanswers : s.select.pc.answers = none := by rw [hpc]; rfl
  have hwatches : s.select.pc.watches = some (i, 4) := by rw [hpc]; rfl
  unfold selectStep
  simp only [hpc]
  split
  · rename_i hlt
    split
    · rename_i hready
      obtain ⟨hpos, hmem⟩ := hready
      have hdeadline : (s.slots ⟨i, hlt⟩).rx_wait_deadline_ms ≠ 0 := by
        obtain ⟨-, k, -, hk, hd⟩ := hi.watching i 4 hwatches _ hmem
        obtain rfl := hi.unique _ _ hk.symm hpos
        exact hd (by simp)
      apply hi.store
      · exact .inl rfl
      · exact .inl rfl
      · exact hi.queued _
      · unfold tokens connectionManagerElement.tokens
        rw [hanswers, if_neg hdeadline]
        simp [Select.Pc.answers]
        omega
      · intro j hj
        rw [hanswers] at hj
        exact absurd hj (by simp)
      · intro j hj
        simpa [Select.Pc.answers, eq_comm] using hj
      · have hnext : s.select.pc.Precedes (.ready ⟨i, hlt⟩) :=
          .of_le hwatches rfl (Nat.le_succ i) (.inl (le_refl 4))
        refine (hi.watching.weaken { s.select with pc := .ready ⟨i, hlt⟩ }
          (fun _ hx => hx) hnext).update ?_
        intro lo hi hw _
        obtain ⟨rfl, -⟩ : i + 1 = lo ∧ 4 = hi := by simpa [Select.Pc.watches] using hw
        refine ⟨.inl rfl, ?_⟩
        intro hle
        have hle : i + 1 ≤ i := hle
        omega
    · exact hi.turn_to hanswers rfl (.of_le hwatches rfl (Nat.le_succ i) (.inl (le_refl 4)))
  · exact hi.turn_to hanswers rfl (.of_none rfl)

/-- **A step of the select task.** -/
theorem Inv.select (hi : s.Inv sd) (hfrees : s.Frees) (res : Int) (ready : List Int) :
    (s.selectStep res ready).Inv sd := by
  cases hpc : s.select.pc with
  | top =>
    unfold selectStep
    simp only [hpc]
    refine hi.turn (by rw [hpc]; rfl) rfl ?_
    intro _ _ _ x hx
    exact absurd hx (by simp)
  | scan i =>
    have hanswers : s.select.pc.answers = none := by rw [hpc]; rfl
    have hwatches : s.select.pc.watches = some (0, i) := by rw [hpc]; rfl
    unfold selectStep
    simp only [hpc]
    split
    · split
      · exact hi.turn_to hanswers rfl (.of_eq hwatches.symm)
      · exact hi.turn_to hanswers rfl (.of_le hwatches rfl (le_refl 0) (.inl (Nat.le_succ i)))
    · exact hi.turn_to hanswers rfl (.of_le hwatches rfl (le_refl 0) (.inr (le_refl 4)))
  | rx_queue k => exact hi.rx_queue hpc res ready
  | tx_queue k => exact hi.tx_queue hpc res ready
  | deadline k =>
    unfold selectStep
    simp only [hpc]
    exact hi.deadline hpc
  | take k =>
    unfold selectStep
    simp only [hpc]
    split
    · exact hi
    · exact hi.turn_to (by rw [hpc]; rfl) rfl (.of_eq (by rw [hpc]; rfl))
  | invalidate k =>
    have hanswers : s.select.pc.answers = none := by rw [hpc]; rfl
    unfold selectStep
    simp only [hpc]
    apply hi.store
    · exact .inr ⟨rfl, hfrees k hpc⟩
    · exact .inl rfl
    · exact hi.queued k
    · unfold tokens
      rw [hanswers]
      rfl
    · intro j hj
      rw [hanswers] at hj
      exact absurd hj (by simp)
    · intro j hj
      exact absurd hj (by simp [Select.Pc.answers])
    · exact hi.watching.scanned (by rw [hpc]; rfl) _ rfl _
  | give k =>
    have hwatches : s.select.pc.watches = some (0, k.val) := by rw [hpc]; rfl
    unfold selectStep
    simp only [hpc]
    exact hi.turn_to (by rw [hpc]; rfl) rfl
      (.of_le hwatches rfl (le_refl 0) (.inl (Nat.le_succ k)))
  | timeout k =>
    have hwatches : s.select.pc.watches = some (0, k.val) := by rw [hpc]; rfl
    unfold selectStep
    simp only [hpc]
    exact hi.respond (by rw [hpc]; rfl) rfl (hi.watching.weaken _ (fun _ hx => hx)
      (.of_le hwatches rfl (le_refl 0) (.inl (Nat.le_succ k))))
  | scanned =>
    have hanswers : s.select.pc.answers = none := by rw [hpc]; rfl
    unfold selectStep
    simp only [hpc]
    split
    · exact hi.turn_to hanswers rfl (.of_eq (by rw [hpc]; rfl))
    · split
      · exact hi.turn_to hanswers rfl (.of_none rfl)
      · exact hi.turn_to hanswers rfl (.of_none rfl)
  | sl_Select =>
    unfold selectStep
    simp only [hpc]
    split
    · refine hi.turn (by rw [hpc]; rfl) rfl (hi.watching.weaken _ ?_ ?_)
      · intro x hx
        exact (List.mem_filter.1 hx).1
      · exact .of_eq (by rw [hpc]; rfl)
    · exact hi.turn_to (by rw [hpc]; rfl) rfl (.of_none rfl)
  | deliver i => exact hi.deliver hpc res ready
  | ready k =>
    unfold selectStep
    simp only [hpc]
    exact hi.respond (by rw [hpc]; rfl) rfl (hi.watching.weaken _ (fun _ hx => hx)
      (.of_eq (by rw [hpc]; rfl)))
  | waitForNotify =>
    unfold selectStep
    simp only [hpc]
    split
    · exact hi.turn_to (by rw [hpc]; rfl) rfl (.of_none rfl)
    · exact hi

end Select

/-- **A step** that does not take a slot away from a client. -/
theorem Inv.next (hi : s.Inv sd) (hinj : Function.Injective sd) {i : Input ι}
    (hen : s.Enabled i) (hundisturbed : s.Undisturbed i) : (s.next sd i).Inv sd := by
  cases i with
  | call c timeout_s => exact hi.call hen hundisturbed.1 hundisturbed.2
  | client c => exact hi.client hinj c hundisturbed
  | select res ready => exact hi.select hundisturbed res ready
  | tick => exact { hi with }

end State

end Waits

end Miso.Net.Mediator
