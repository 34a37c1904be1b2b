import Miso.Mqtt.AtMostOnce
import Miso.Zig.XorLinear
import Mathlib.Data.List.DropRight
import Mathlib.Tactic.NormNum.Prime

/-!
# Packet identifiers

The identifiers of published and subscribed packets come out of a generator of 16 bits, and no
look at `qosQueue` goes with them.

* `identifier_eq_iff` — the generator has period 65535 and never gives zero;
* `Moved.advances` — a step takes one identifier at most, and brings no other into `qosQueue`;
* `packetIds_fresh` — a new identifier is that of an outstanding message exactly if the message has
  outlasted 65534 others.
-/

namespace Miso.Mqtt

open Zig Net Function

/-! ## The generator -/

/-- `xorShift` on numbers. -/
def shiftXor (x : Nat) : Nat :=
  let x := x ^^^ x <<< 7 % 2 ^ 16
  let x := x ^^^ x >>> 9
  x ^^^ x <<< 8 % 2 ^ 16

theorem xorShift_toNat (x : UInt16) : (xorShift x).toNat = shiftXor x.toNat := by
  simp [xorShift, shiftXor]

theorem shiftXor_linear : Linear shiftXor := by
  have h₁ : Linear fun x => x ^^^ x <<< 7 % 2 ^ 16 := Linear.id.xor ((Linear.id.shiftLeft 7).mod 16)
  have h₂ : Linear fun x => x ^^^ x >>> 9 := Linear.id.xor (Linear.id.shiftRight 9)
  have h₃ : Linear fun x => x ^^^ x <<< 8 % 2 ^ 16 := Linear.id.xor ((Linear.id.shiftLeft 8).mod 16)
  exact h₃.comp (h₂.comp h₁)

theorem shiftXor_lt (x : Nat) (hx : x < 2 ^ 16) : shiftXor x < 2 ^ 16 := by
  have h := (xorShift (.ofNat x)).toNat_lt
  rwa [xorShift_toNat, UInt16.toNat_ofNat_of_lt' hx] at h

/-- `shiftXor^[k] 1` from the digits of `k`. -/
theorem shiftXor_iterate {k : Nat} (hk : k < 2 ^ 16) :
    shiftXor^[k] 1 = jump (images shiftXor 16) 16 k 1 :=
  (jump_eq (shiftXor_linear.table 16) shiftXor_lt hk (by decide)).symm

/-- **The period is 65535 = 3 · 5 · 17 · 257**, as long as it can be. -/
theorem shiftXor_period : minimalPeriod shiftXor 1 = 65535 := by
  apply minimalPeriod_eq
  · rw [shiftXor_iterate (by decide)]
    decide +kernel
  · intro p hp hdvd
    have hmem : p ∈ [3, 5, 17, 257] := by
      have hfactor : p ∣ 3 * 5 * 17 * 257 := hdvd
      rw [hp.dvd_mul, hp.dvd_mul, hp.dvd_mul, Nat.prime_dvd_prime_iff_eq hp (by norm_num),
        Nat.prime_dvd_prime_iff_eq hp (by norm_num), Nat.prime_dvd_prime_iff_eq hp (by norm_num),
        Nat.prime_dvd_prime_iff_eq hp (by norm_num)] at hfactor
      simpa [or_assoc] using hfactor
    have hjump : ∀ p ∈ [3, 5, 17, 257], jump (images shiftXor 16) 16 (65535 / p) 1 ≠ 1 := by
      decide +kernel
    rw [shiftXor_iterate (Nat.lt_of_le_of_lt (Nat.div_le_self _ _) (by decide))]
    exact hjump p hmem

theorem shiftXor_period_pos : 0 < minimalPeriod shiftXor 1 := by
  rw [shiftXor_period]
  decide

theorem shiftXor_ne_zero (n : Nat) : shiftXor^[n] 1 ≠ 0 :=
  shiftXor_linear.iterate_ne_zero (by decide) shiftXor_period_pos n

/-- The identifiers in the order in which they are taken. -/
def identifier (n : Nat) : UInt16 := nextPacketId^[n] 1

theorem identifier_succ (n : Nat) : identifier (n + 1) = nextPacketId (identifier n) :=
  iterate_succ_apply' _ _ _

theorem identifier_toNat (n : Nat) : (identifier n).toNat = shiftXor^[n] 1 := by
  induction n with
  | zero => rfl
  | succ n ih =>
    have hne : identifier n ≠ 0 := by
      intro hzero
      rw [hzero] at ih
      exact shiftXor_ne_zero n ih.symm
    rw [identifier_succ, nextPacketId, if_pos hne, xorShift_toNat, ih, iterate_succ_apply']

/-- **The generator never gives zero.** -/
theorem identifier_ne_zero (n : Nat) : identifier n ≠ 0 := by
  intro hzero
  apply shiftXor_ne_zero n
  rw [← identifier_toNat, hzero]
  rfl

/-- **Two identifiers agree exactly if they are periods apart.** -/
theorem identifier_eq_iff (i j : Nat) : identifier i = identifier j ↔ i ≡ j [MOD 65535] := by
  have h := iterate_eq_iff shiftXor_period_pos i j
  rw [shiftXor_period, ← identifier_toNat, ← identifier_toNat] at h
  rw [← h, UInt16.toNat_inj]

/-! ## What is outstanding -/

/-- The entries of `qosQueue` have identifiers of the list. -/
def Known (ids : List UInt16) (s : Service) : Prop := ∀ m ∈ s.qosQueue, m.packetId ∈ ids

/-- The generator stays where it is, and no other identifier comes into `qosQueue`. -/
def Carries (ids : List UInt16) (s s' : Service) : Prop :=
  Known ids s → s'.packetIdState = s.packetIdState ∧ Known ids s'

/-- The generator is used once at most, and no other identifier comes into `qosQueue`. -/
inductive Advances (ids : List UInt16) (s s' : Service) : Prop where
  | carries : s'.packetIdState = s.packetIdState → Known ids s' → Advances ids s s'
  | issues : s'.packetIdState = nextPacketId s.packetIdState →
    Known (ids ++ [nextPacketId s.packetIdState]) s' → Advances ids s s'

section Relations

variable {X : Externs} {ok : Os → Nat → Bool} {ids : List UInt16} {s s' : Service}

theorem Known.mono {ids' : List UInt16} (h : Known ids s) (hids : ids ⊆ ids') : Known ids' s :=
  fun m hm => hids (h m hm)

theorem Known.congr (h : Known ids s) (hqueue : s'.qosQueue = s.qosQueue) : Known ids s' := by
  unfold Known
  rw [hqueue]
  exact h

theorem Known.append {m : QueuedMessage} (h : Known ids s)
    (hqueue : s'.qosQueue = s.qosQueue ++ [m]) (hm : m.packetId ∈ ids) : Known ids s' := by
  unfold Known
  rw [hqueue]
  intro m' hm'
  rcases List.mem_append.mp hm' with hm' | hm'
  · exact h m' hm'
  · obtain rfl := List.mem_singleton.mp hm'
    exact hm

namespace Carries

theorem same (hstate : s'.packetIdState = s.packetIdState) (hqueue : s'.qosQueue = s.qosQueue) :
    Carries ids s s' :=
  fun h => ⟨hstate, h.congr hqueue⟩

theorem refl (ids : List UInt16) (s : Service) : Carries ids s s := .same rfl rfl

theorem trans {s₁ s₂ s₃ : Service} (h : Carries ids s₁ s₂) (h' : Carries ids s₂ s₃) :
    Carries ids s₁ s₃ := by
  intro hknown
  obtain ⟨hstate, hknown₂⟩ := h hknown
  obtain ⟨hstate', hknown₃⟩ := h' hknown₂
  exact ⟨hstate'.trans hstate, hknown₃⟩

theorem removed (hstate : s'.packetIdState = s.packetIdState)
    (hqueue : ∀ m ∈ s'.qosQueue, m ∈ s.qosQueue) : Carries ids s s' :=
  fun h => ⟨hstate, fun m hm => h m (hqueue m hm)⟩

theorem added {m : QueuedMessage} (hstate : s'.packetIdState = s.packetIdState)
    (hqueue : s'.qosQueue = s.qosQueue ++ [m]) (hm : m.packetId ∈ ids) : Carries ids s s' :=
  fun h => ⟨hstate, h.append hqueue hm⟩

theorem advances (h : Carries ids s s') (hs : Known ids s) : Advances ids s s' :=
  .carries (h hs).1 (h hs).2

end Carries

theorem Advances.same (hs : Known ids s) (hstate : s'.packetIdState = s.packetIdState)
    (hqueue : s'.qosQueue = s.qosQueue) : Advances ids s s' := .carries hstate (hs.congr hqueue)

/-- What goes before takes no identifier. -/
theorem Advances.after {s₁ s₂ s₃ : Service} (h : Advances ids s₂ s₃) (h' : Carries ids s₁ s₂)
    (hs : Known ids s₁) : Advances ids s₁ s₃ := by
  have hstate := (h' hs).1
  cases h with
  | carries hstate' hknown => exact .carries (hstate'.trans hstate) hknown
  | issues hstate' hknown =>
    rw [hstate] at hstate' hknown
    exact .issues hstate' hknown

/-! ## The functions of the service -/

theorem alloc_packetIdState (s : Service) (bytes : List UInt8) :
    (s.alloc bytes).2.packetIdState = s.packetIdState := by
  unfold Service.alloc
  split <;> rfl

theorem freed_carries (s : Service) (c : Content) : Carries ids s (s.freed c) := by
  cases c <;> exact .same rfl rfl

/-- A packet may take an identifier, and leaves `qosQueue` alone. -/
theorem Prepared.generator {p : Packet} {k id : UInt16} {x : Exit Error UInt16}
    (h : Prepared X ok s p k id x s') :
    (s'.packetIdState = s.packetIdState ∨ s'.packetIdState = k) ∧ s'.qosQueue = s.qosQueue := by
  cases h with
  | queued => exact ⟨.inr rfl, rfl⟩
  | failed _ _ _ _ hk => exact ⟨hk.symm.imp_left And.right, rfl⟩
  | stuck => exact ⟨.inl rfl, rfl⟩
  | blocked => exact ⟨.inr rfl, rfl⟩

theorem Prepared.carries {p : Packet} {id : UInt16} {x : Exit Error UInt16}
    (h : Prepared X ok s p s.packetIdState id x s') : Carries ids s s' := by
  obtain ⟨hstate, hqueue⟩ := h.generator
  exact .same (or_self_iff.mp hstate) hqueue

theorem Prepared.advances {p : Packet} {id : UInt16} {x : Exit Error UInt16}
    (h : Prepared X ok s p (nextPacketId s.packetIdState) id x s') (hs : Known ids s) :
    Advances ids s s' := by
  obtain ⟨hstate, hqueue⟩ := h.generator
  have hknown : Known ids s' := hs.congr hqueue
  rcases hstate with hstate | hstate
  · exact .carries hstate hknown
  · exact .issues hstate (hknown.mono (List.subset_append_left ids _))

theorem Stored.packetIdState {q : Queue} {packetId : UInt16} {qos : QoS} {dup retained : Bool}
    {topic payload : List UInt8} {deadline : Nat} {x : Exit Error Unit}
    (h : Stored ok s q packetId qos dup retained topic payload deadline x s') :
    s'.packetIdState = s.packetIdState := by
  have hp := alloc_packetIdState s payload
  have ht := alloc_packetIdState (s.alloc payload).2 topic
  cases h with
  | stored => cases q <;> exact ht.trans hp
  | noPayload => rfl
  | noTopic => exact hp
  | noAppend => exact ht.trans hp

/-- A message is stored under its identifier. -/
theorem Stored.carries {q : Queue} {packetId : UInt16} {qos : QoS} {dup retained : Bool}
    {topic payload : List UInt8} {deadline : Nat} {x : Exit Error Unit}
    (h : Stored ok s q packetId qos dup retained topic payload deadline x s')
    (hid : q = .qosQueue → packetId ∈ ids) : Carries ids s s' := by
  have hstate := h.packetIdState
  cases q with
  | qosQueue =>
    by_cases hx : x.returned = true
    · cases h with
      | stored =>
        obtain ⟨t, p, -, -, hqueue⟩ :=
          stored_queue s .qosQueue packetId qos dup retained topic payload deadline
        exact .added hstate hqueue (hid rfl)
      | _ => cases hx
    · exact .same hstate (h.not_fits (Bool.eq_false_iff.mpr hx)).2
  | qos2Queue => exact .same hstate (h.other (q := .qosQueue) fun h => by cases h)

/-- `publish` takes an identifier, if none is given, and stores the message under it. -/
theorem Published.advances {topic payload : List UInt8} {qos : QoS} {dup : Bool}
    {packetId : Option UInt16} {deadline : Nat} {x : Exit Error Unit}
    (h : Published X ok s topic payload qos dup packetId deadline x s')
    (hid : ∀ id ∈ packetId, id ∈ ids) (hs : Known ids s) : Advances ids s s' := by
  have hprepared {x : Exit Error UInt16}
      (hprep : Prepared X ok s (publishPacket s topic payload qos dup packetId)
        (publishState s packetId) (publishId s packetId) x s') : Advances ids s s' := by
    cases packetId with
    | some id => exact hprep.carries.advances hs
    | none => exact hprep.advances hs
  cases h with
  | failed _ _ hprep => exact hprepared hprep
  | halted _ hprep => exact hprepared hprep
  | queued x _ _ hstored =>
    cases packetId with
    | some id =>
      have hcarries : Carries ids s s' :=
        (Carries.same rfl rfl).trans (hstored.carries fun _ => hid id rfl)
      exact hcarries.advances hs
    | none =>
      have hmem : nextPacketId s.packetIdState ∈ ids ++ [nextPacketId s.packetIdState] :=
        List.mem_append_right _ (List.mem_singleton.mpr rfl)
      have hknown : Known (ids ++ [nextPacketId s.packetIdState]) s :=
        hs.mono (List.subset_append_left ids _)
      obtain ⟨hstate, hknown'⟩ := hstored.carries (fun _ => hmem) (hknown.congr rfl)
      exact .issues hstate hknown'

theorem Released.carries {packetId : UInt16} {dup stored : Bool} {x : Exit Error Unit}
    (h : Released X ok s packetId dup stored x s') (hid : packetId ∈ ids) : Carries ids s s' := by
  cases h with
  | failed _ _ hprep => exact hprep.carries
  | halted _ hprep => exact hprep.carries
  | overflow => exact .same rfl rfl
  | noAppend => exact .same rfl rfl
  | queued => exact .added rfl rfl hid

theorem Delivered.carries {packetId : UInt16} {r : publish_response} {x : Exit Error Pc}
    (h : Delivered ok s packetId r x s') : Carries ids s s' := by
  cases h with
  | reset => exact .same rfl rfl
  | printed => exact .same rfl rfl
  | kept _ _ _ _ hstored => exact hstored.carries fun h => by cases h
  | lost _ _ _ _ _ hstored => exact hstored.carries fun h => by cases h
  | _ => exact .refl ids s

theorem acknowledged_carries {id : UInt16} {packetType : msgTypes}
    (h : s.acknowledged id packetType = some s') : Carries ids s s' := by
  unfold Service.acknowledged at h
  obtain ⟨r, hr, rfl⟩ := Option.map_eq_some_iff.mp h
  have hremoved : Carries ids s { s with qosQueue := r.2 } :=
    .removed rfl fun m hm => ((removeFirst_mem hr).2 m).mpr (.inr hm)
  exact hremoved.trans (freed_carries _ _)

theorem acknowledged_getD_carries (s : Service) (id : UInt16) (packetType : msgTypes) :
    Carries ids s ((s.acknowledged id packetType).getD s) := by
  cases h : s.acknowledged id packetType with
  | none => exact .refl ids s
  | some s' => exact acknowledged_carries h

/-- Only what is outstanding can be acknowledged. -/
theorem acknowledged_mem {id : UInt16} {packetType : msgTypes}
    (h : s.acknowledged id packetType = some s') (hs : Known ids s) : id ∈ ids := by
  unfold Service.acknowledged at h
  obtain ⟨r, hr, -⟩ := Option.map_eq_some_iff.mp h
  obtain ⟨hacks, hmem⟩ := removeFirst_mem hr
  have hid : r.1.packetId = id := (of_decide_eq_true hacks).1
  rw [← hid]
  exact hs r.1 ((hmem r.1).mpr (.inl rfl))

/-- The receive loop takes no identifiers; a PUBREL has that of the message before it. -/
theorem Received.carries {m : Inbound} {x : Exit Error Pc} (h : Received X ok s m x s') :
    Carries ids s s' := by
  cases h with
  | publish0 _ _ _ _ _ _ hdel => exact hdel.carries
  | publish1 => exact .same rfl rfl
  | publish2 _ _ _ _ _ _ _ hdel => exact (Carries.same rfl rfl).trans hdel.carries
  | unanswered _ _ _ _ _ _ _ hprep => exact hprep.carries
  | unansweredHalt _ _ _ _ _ _ hprep => exact hprep.carries
  | puback _ _ _ _ hack => exact acknowledged_carries hack
  | pingresp => exact .same rfl rfl
  | pingrespUnknown => exact .same rfl rfl
  | pubrec _ id s₁ _ _ _ hack hrel =>
    intro hs
    have hreleased := hrel.carries (acknowledged_mem hack hs)
    exact ((acknowledged_carries hack).trans
      ((acknowledged_getD_carries s₁ id .pubrel).trans hreleased)) hs
  | pubrel => exact .same rfl rfl
  | pubrelFailed _ _ _ rest _ _ _ _ hprep =>
    have htaken : Carries ids s { s with qos2Queue := rest } := .same rfl rfl
    exact htaken.trans hprep.carries
  | pubrelHalted _ _ _ rest _ _ _ hprep =>
    have htaken : Carries ids s { s with qos2Queue := rest } := .same rfl rfl
    exact htaken.trans hprep.carries
  | pubcomp _ _ _ _ hack => exact acknowledged_carries hack
  | suback => exact .same rfl rfl
  | subackLong => exact .same rfl rfl
  | _ => exact .refl ids s

end Relations

/-! ## The steps -/

section Steps

variable {X : Externs} {ids : List UInt16}

/-- The task takes an identifier for SUBSCRIBE only. -/
theorem Taken.advances {e : Env} {fuel : Nat} {l l' : Link} {pc : Pc} {s s' : Service}
    {x : Exit Error Pc} (h : Taken X e fuel l pc s x s' l') (hs : Known ids s) :
    Advances ids s s' := by
  have hread : Carries ids s (s.record [.received (e.read 0)]) := .same rfl rfl
  cases h with
  | connectPacket _ _ _ hprep => exact hprep.carries.advances hs
  | subscribe _ _ _ hprep => exact hprep.advances hs
  | retransmit _ msg rest _ _ _ _ hr _ _ hpub =>
    have hmem := (removeFirst_mem hr).2
    have hremoved : Carries ids s { s with qosQueue := rest } :=
      .removed rfl fun m hm => (hmem m).mpr (.inr hm)
    refine (hpub.advances ?_ (hremoved hs).2).after hremoved hs
    intro id hid
    obtain rfl := Option.some.inj hid
    exact hs msg ((hmem msg).mpr (.inl rfl))
  | retransmitOverflow _ _ rest _ _ hr =>
    have hremoved : Carries ids s { s with qosQueue := rest } :=
      .removed rfl fun m hm => ((removeFirst_mem hr).2 m).mpr (.inr hm)
    exact hremoved.advances hs
  | retransmitPubrel _ msg rest _ _ hr _ hrel =>
    have hmem := (removeFirst_mem hr).2
    have hremoved : Carries ids s { s with qosQueue := rest } :=
      .removed rfl fun m hm => (hmem m).mpr (.inr hm)
    have hreleased := hrel.carries (hs msg ((hmem msg).mpr (.inl rfl)))
    exact (hremoved.trans hreleased).advances hs
  | expire _ msg rest =>
    have htaken : Carries ids s { s with qos2Queue := rest } := .same rfl rfl
    exact (htaken.trans (freed_carries _ msg.content)).advances hs
  | received _ _ _ _ hrec => exact (hread.trans hrec.carries).advances hs
  | deliver _ _ _ _ _ hdel => exact hdel.carries.advances hs
  | completed packetId msg _ topic payload =>
    have hover : Carries ids s
        (s.record [.handover packetId msg.qos topic.bytes payload.bytes]) := .same rfl rfl
    exact (hover.trans (freed_carries _ msg.content)).advances hs
  | disconnect _ _ _ _ hprep =>
    have hstopped : Carries ids s s.disconnecting := .same rfl rfl
    exact (hstopped.trans hprep.carries).advances hs
  | _ => exact .same hs rfl rfl

theorem Called.advances {ok : Os → Nat → Bool} {s s' : Service} {j : Job} {x : Exit Error Unit}
    (h : Called X ok s j x s') (hs : Known ids s) : Advances ids s s' := by
  have hnone : ∀ id ∈ (none : Option UInt16), id ∈ ids := fun id hid => by cases hid
  cases h with
  | pinged => exact .same hs rfl rfl
  | pingFailed _ _ _ hprep => exact hprep.carries.advances hs
  | pingWaits _ _ hprep => exact hprep.carries.advances hs
  | published _ _ _ _ _ _ _ hpub => exact hpub.advances hnone hs
  | publishFailed _ _ _ _ _ _ hpub => exact hpub.advances hnone hs
  | pubTimerFailed _ _ _ hpub => exact hpub.advances hnone hs
  | publishWaits _ _ _ _ _ _ _ hpub => exact hpub.advances hnone hs
  | overflow => exact .same hs rfl rfl

theorem begun_carries (j : Job) (s : Service) : Carries ids s (j.begun s) := by
  cases j <;> exact .same rfl rfl

/-- **One step of the system takes one identifier at most.** -/
theorem Moved.advances {s s' : Sys} {i : Input} (h : Moved X s i s') (hs : Known ids s.srv) :
    Advances ids s.srv s'.srv := by
  cases h with
  | task a x srv' link' htaken => exact htaken.advances hs
  | pingFull => exact .same hs rfl rfl
  | job j env x srv' _ hcalled =>
    have hbegun : Carries ids s.srv (j.begun s.srv) := begun_carries j s.srv
    exact (hcalled.advances (hbegun hs).2).after hbegun hs
  | waits j =>
    have hbegun : Carries ids s.srv (j.begun s.srv) := begun_carries j s.srv
    have hwaits : Carries ids s.srv { j.begun s.srv with waiting := some j } :=
      hbegun.trans (.same rfl rfl)
    exact hwaits.advances hs
  | idle => exact .same hs rfl rfl
  | resumed j env x srv' _ hcalled =>
    have hresumed : Carries ids s.srv { s.srv with waiting := none } := .same rfl rfl
    exact (hcalled.advances (hresumed hs).2).after hresumed hs
  | stays => exact .same hs rfl rfl
  | clock => exact .same hs rfl rfl

end Steps

/-! ## The runs -/

/-- The identifier that has been taken between two states of the service. -/
def issued (s s' : Service) : Option UInt16 :=
  if s'.packetIdState = s.packetIdState then none else some s'.packetIdState

/-- The identifiers taken in a run, oldest first. -/
def identifiers (X : Externs) (s : Sys) : List Input → List UInt16
  | [] => []
  | i :: l => (issued s.srv (s.next X i).srv).toList ++ identifiers X (s.next X i) l

theorem identifiers_concat (X : Externs) (s : Sys) (l : List Input) (i : Input) :
    identifiers X s (l ++ [i]) = identifiers X s l ++
      (issued ((mqtt X).run s l).srv (((mqtt X).run s l).next X i).srv).toList := by
  induction l generalizing s with
  | nil => exact List.append_nil _
  | cons k l ih =>
    show _ ++ identifiers X (s.next X k) (l ++ [i]) = _ ++ identifiers X (s.next X k) l ++ _
    rw [ih, ← List.append_assoc]
    rfl

/-- The identifiers have been taken one after another, and nothing else is outstanding. -/
structure Numbered (ids : List UInt16) (s : Service) : Prop where
  order : ids = (List.range ids.length).map fun n => identifier (n + 1)
  state : s.packetIdState = identifier ids.length
  known : Known ids s

/-- **A new identifier**: behind those in `ids` it belongs to an outstanding message exactly if the
identifier of the message is not among the last 65534. -/
structure Fresh (ids : List UInt16) (s : Service) (id : UInt16) : Prop where
  nonzero : id ≠ 0
  outstanding : ∀ m ∈ s.qosQueue, m.packetId ∈ ids
  reused : ∀ m ∈ s.qosQueue, m.packetId = id ↔ m.packetId ∉ ids.rtake 65534

section Runs

variable {X : Externs} {ids : List UInt16} {s s' : Service}

theorem identifier_succ_ne (n : Nat) : identifier (n + 1) ≠ identifier n := by
  rw [Ne, identifier_eq_iff, Nat.ModEq]
  omega

theorem Numbered.next (h : Numbered ids s) :
    nextPacketId s.packetIdState = identifier (ids.length + 1) := by
  rw [h.state, identifier_succ]

/-- A step that takes an identifier takes the next one. -/
theorem Advances.issued (hstep : Advances ids s s') {id : UInt16}
    (hid : id ∈ Mqtt.issued s s') : id = nextPacketId s.packetIdState := by
  unfold Mqtt.issued at hid
  cases hstep with
  | carries hstate =>
    rw [if_pos hstate] at hid
    cases hid
  | issues hstate =>
    split at hid
    · cases hid
    · exact (Option.some.inj hid).symm.trans hstate

theorem Numbered.step (h : Numbered ids s) (hstep : Advances ids s s') :
    Numbered (ids ++ (Mqtt.issued s s').toList) s' := by
  unfold Mqtt.issued
  cases hstep with
  | carries hstate hknown =>
    rw [if_pos hstate, Option.toList_none, List.append_nil]
    exact ⟨h.order, hstate.trans h.state, hknown⟩
  | issues hstate hknown =>
    have hne : s'.packetIdState ≠ s.packetIdState := by
      rw [hstate, h.next, h.state]
      exact identifier_succ_ne _
    rw [if_neg hne, hstate, Option.toList_some]
    refine ⟨?_, ?_, hknown⟩
    · rw [List.length_append, List.length_singleton, List.range_succ, List.map_append, ← h.order,
        h.next]
      rfl
    · rw [hstate, h.next, List.length_append, List.length_singleton]

theorem Initial.numbered {s₀ : Sys} {l : List Input} (h₀ : Initial s₀)
    (h : (mqtt X).Allows System.Free s₀ l) :
    Numbered (identifiers X s₀ l) ((mqtt X).run s₀ l).srv := by
  have hall := h.history
    (I := fun l s => s = (mqtt X).run s₀ l ∧ Numbered (identifiers X s₀ l) s.srv) ⟨rfl, ?_⟩ ?_
  · exact hall.2
  · rw [h₀.srv]
    exact ⟨rfl, rfl, fun m hm => absurd hm List.not_mem_nil⟩
  · intro l s i hs hi _
    obtain ⟨rfl, hnumbered⟩ := hs
    refine ⟨(System.run_concat l i).symm, ?_⟩
    rw [identifiers_concat]
    exact hnumbered.step ((next_moved X _ i).advances hnumbered.known)

/-- The identifiers among the last `k`. -/
theorem Numbered.mem_rtake (h : Numbered ids s) (k : Nat) (id : UInt16) :
    id ∈ ids.rtake k ↔ ∃ j, ids.length ≤ j + k ∧ j < ids.length ∧ identifier (j + 1) = id := by
  have hrtake : ids.rtake k =
      (List.range' (ids.length - k) (ids.length - (ids.length - k))).map
        fun n => identifier (n + 1) := by
    have hdrop : ids.drop (ids.length - k) =
        ((List.range ids.length).drop (ids.length - k)).map fun n => identifier (n + 1) := by
      rw [List.map_drop, ← h.order]
    unfold List.rtake
    rw [hdrop, List.range_eq_range', List.drop_range', Nat.zero_add, Nat.mul_one]
  rw [hrtake, List.mem_map]
  constructor
  · rintro ⟨j, hj, rfl⟩
    rw [List.mem_range'_1] at hj
    exact ⟨j, by omega, by omega, rfl⟩
  · rintro ⟨j, hle, hlt, rfl⟩
    refine ⟨j, ?_, rfl⟩
    rw [List.mem_range'_1]
    omega

theorem Numbered.fresh (h : Numbered ids s) : Fresh ids s (nextPacketId s.packetIdState) := by
  rw [h.next]
  refine ⟨identifier_ne_zero _, h.known, ?_⟩
  intro m hm
  have hmem := h.known m hm
  rw [h.order, List.mem_map] at hmem
  obtain ⟨i, hi, hid⟩ := hmem
  rw [List.mem_range] at hi
  rw [h.mem_rtake, ← hid, identifier_eq_iff, Nat.ModEq]
  constructor
  · rintro hmod ⟨j, hle, hlt, hj⟩
    rw [identifier_eq_iff, Nat.ModEq] at hj
    omega
  · intro hnone
    by_contra hmod
    -- the last time that the identifier of the message has been taken
    refine hnone ⟨ids.length - (ids.length - i) % 65535, by omega, by omega, ?_⟩
    rw [identifier_eq_iff, Nat.ModEq]
    omega

end Runs

variable (X : Externs)

/-- The function allocates the identifier and returns it. -/
inductive Allocates (t : State) (id : UInt16) : Prop where
  | generate : (generatePacketId t).1 = .ok id → Allocates t id
  | publish (topic payload : List UInt8) (qos : QoS) (dup : Bool) :
    (preparePublishPacket X topic payload qos dup none t).1 = .ok id → Allocates t id
  | subscribe (topicFilter : List (List UInt8)) (qos : List QoS) :
    (prepareSubscribePacket X topicFilter qos t).1 = .ok id → Allocates t id

variable {X}

theorem Prepared.returned_id {ok : Os → Nat → Bool} {s s' : Service} {p : Packet} {k id id' : UInt16}
    {x : Exit Error UInt16} (h : Prepared X ok s p k id x s') (hx : x = .ok id') : id' = id := by
  cases h with
  | queued => exact (Exit.ok.inj hx).symm
  | _ => cases hx

theorem prepareSubscribePacket_mismatch {topicFilter : List (List UInt8)} {qos : List QoS}
    (hlen : topicFilter.length ≠ qos.length) (t : State) (id : UInt16) :
    (prepareSubscribePacket X topicFilter qos t).1 ≠ .ok id := by
  have hthrows : wp (prepareSubscribePacket X topicFilter qos) (fun x _ => x ≠ .ok id) t := by
    apply take_spec
    · exact fun _ hx => by cases hx
    · exact fun _ _ _ _ hx => by cases hx
    · intro t' _ _ _ _ _
      rw [if_pos hlen]
      exact fun hx => by cases hx
  exact hthrows

theorem Allocates.next {t : State} {id : UInt16} (h : Allocates X t id) :
    id = nextPacketId t.srv.packetIdState := by
  cases h with
  | generate hx => exact (Exit.ok.inj hx).symm
  | publish topic payload qos dup hx =>
    exact (preparePublishPacket_spec X topic payload qos dup none t).2.returned_id hx
  | subscribe topicFilter qos hx =>
    by_cases hlen : topicFilter.length = qos.length
    · exact (prepareSubscribePacket_spec X hlen t).2.returned_id hx
    · exact absurd hx (prepareSubscribePacket_mismatch hlen t id)

/-- **New identifiers**: in every state of every run, what the functions allocate, and what the next
step takes, is not zero, and it is the identifier of an outstanding message exactly if 65534
identifiers have been taken since the message got it. -/
theorem packetIds_fresh (X : Externs) {s₀ : Sys} {l : List Input} (h₀ : Initial s₀)
    (h : (mqtt X).Allows System.Free s₀ l) :
    (∀ t id, t.srv = ((mqtt X).run s₀ l).srv → Allocates X t id →
      Fresh (identifiers X s₀ l) t.srv id) ∧
    ∀ i, ∀ id ∈ issued ((mqtt X).run s₀ l).srv ((mqtt X).run s₀ (l ++ [i])).srv,
      Fresh (identifiers X s₀ l) ((mqtt X).run s₀ l).srv id := by
  have hnumbered := h₀.numbered h
  constructor
  · intro t id ht halloc
    rw [halloc.next, ht]
    exact hnumbered.fresh
  · intro i id hid
    rw [System.run_concat] at hid
    rw [((next_moved X _ i).advances hnumbered.known).issued hid]
    exact hnumbered.fresh

/-! ## An identifier that is taken again -/

namespace Input

/-- A message that is stored. -/
def accepted : Input := .job (.publish (ascii "a") (ascii "b") .qos1) (Answers.smooth none 0).env

/-- A message that does not fit into `workBuffer`. -/
def refused : Input :=
  .job (.publish (ascii "a") (List.replicate workBuffer_len 0) .qos1) (Answers.smooth none 0).env

end Input

theorem packetIds_fresh_accepted :
    (∀ t id, t.srv = ((mqtt .documented).run Sys.initial (Input.established ++ [.accepted])).srv →
      Allocates .documented t id →
      Fresh (identifiers .documented Sys.initial (Input.established ++ [.accepted])) t.srv id) ∧
    ∀ i, ∀ id ∈ issued
        ((mqtt .documented).run Sys.initial (Input.established ++ [.accepted])).srv
        ((mqtt .documented).run Sys.initial (Input.established ++ [.accepted] ++ [i])).srv,
      Fresh (identifiers .documented Sys.initial (Input.established ++ [.accepted]))
        ((mqtt .documented).run Sys.initial (Input.established ++ [.accepted])).srv id :=
  packetIds_fresh .documented Sys.initial_initial (by decide +kernel)

theorem refused_unserialized (s : Service) : ¬Serializes .documented
    (publishPacket s (ascii "a") (List.replicate workBuffer_len 0) .qos1 false none) := by
  have hsize : ¬0 < Externs.documented.MQTTSerialize
      (.publish false .qos1 false 0 (ascii "a") (List.replicate workBuffer_len 0))
        workBuffer_len := by
    decide +kernel
  exact fun h => hsize h.1

/-- A message that is refused costs an identifier. -/
theorem refused_next {s : Sys} (hwaiting : s.srv.waiting = none) (hnow : s.srv.now ≤ u32_max - 2000) :
    s.next .documented .refused =
      ⟨s.pc, s.srv.withId (nextPacketId s.srv.packetIdState), s.link⟩ := by
  have hnot := refused_unserialized s.srv
  have hmoved := next_moved .documented s .refused
  unfold Input.refused at *
  generalize Sys.next .documented s _ = s' at *
  cases hmoved with
  | job _ _ x srv' _ hcalled hx =>
    cases hcalled with
    | published _ _ _ _ _ hj _ hpub =>
      cases hj
      cases hpub with
      | queued _ _ hready => exact absurd hready.serializes hnot
    | publishFailed _ _ _ _ _ _ hpub =>
      cases hpub with
      | failed _ _ hprep =>
        cases hprep with
        | failed _ k' _ _ hk =>
          rcases hk with rfl | ⟨htake, -⟩
          · rfl
          · cases htake
      | queued _ _ hready => exact absurd hready.serializes hnot
    | publishWaits => exact absurd rfl hx
    | overflow _ _ _ _ _ hlt => exact absurd hnow (Nat.not_le.mpr hlt)
  | waits _ _ _ _ hcalled =>
    cases hcalled with
    | publishWaits _ _ _ _ _ hj _ hpub =>
      cases hj
      cases hpub with
      | halted _ hprep =>
        cases hprep with
        | stuck hstuck => exact absurd hwaiting hstuck
        | blocked _ _ hser => exact absurd hser hnot
      | queued _ _ hready => exact absurd hready.serializes hnot

/-- Any number of them may come. -/
theorem refused_run {s : Sys} (hpc : s.pc ≠ .trapped) (hwaiting : s.srv.waiting = none)
    (hnow : s.srv.now ≤ u32_max - 2000) (n : Nat) :
    (mqtt .documented).Allows System.Free s (List.replicate n .refused) ∧
      (mqtt .documented).run s (List.replicate n .refused) =
        ⟨s.pc, s.srv.withId (nextPacketId^[n] s.srv.packetIdState), s.link⟩ := by
  induction n generalizing s with
  | zero => exact ⟨trivial, rfl⟩
  | succ n ih =>
    have hnext := refused_next hwaiting hnow
    obtain ⟨hallows, hrun⟩ := @ih ⟨s.pc, s.srv.withId (nextPacketId s.srv.packetIdState), s.link⟩
      hpc hwaiting hnow
    rw [← hnext] at hallows hrun
    refine ⟨⟨⟨⟨hpc, hwaiting, rfl⟩, trivial⟩, hallows⟩, ?_⟩
    show (mqtt .documented).run (s.next .documented .refused) (List.replicate n .refused) = _
    rw [hrun, hnext]
    rfl

/-- The service behind the first message. -/
def Sys.accepted : Sys := (mqtt .documented).run Sys.initial (Input.established ++ [.accepted])

/-- The service behind `n` messages that have been refused. -/
theorem accepted_run (n : Nat) :
    (mqtt .documented).Allows System.Free Sys.initial
        (Input.established ++ [.accepted] ++ List.replicate n .refused) ∧
      (mqtt .documented).run Sys.initial
          (Input.established ++ [.accepted] ++ List.replicate n .refused) =
        ⟨Sys.accepted.pc, Sys.accepted.srv.withId (identifier (n + 2)), Sys.accepted.link⟩ := by
  have hstate : Sys.accepted.srv.packetIdState = identifier 2 := by decide +kernel
  have hid : nextPacketId^[n] (identifier 2) = identifier (n + 2) :=
    (iterate_add_apply nextPacketId n 2 1).symm
  obtain ⟨hallows, hrun⟩ := refused_run (s := Sys.accepted) (by decide +kernel) (by decide +kernel)
    (by decide +kernel) n
  rw [hstate, hid] at hrun
  have hfirst : (mqtt .documented).Allows System.Free Sys.initial
      (Input.established ++ [.accepted]) := by decide +kernel
  refine ⟨(System.allows_append _ _).mpr ⟨hfirst, hallows⟩, ?_⟩
  rw [← hrun]
  exact List.foldl_append

/-- **A message that outlasts 65534 others has its identifier taken again.** -/
theorem packetId_taken_again : ¬∀ (X : Externs) (s₀ : Sys) (l : List Input) (i : Input),
    Initial s₀ → (mqtt X).Allows System.Free s₀ (l ++ [i]) →
    ∀ id ∈ issued ((mqtt X).run s₀ l).srv ((mqtt X).run s₀ (l ++ [i])).srv,
      ∀ m ∈ ((mqtt X).run s₀ l).srv.qosQueue, m.packetId ≠ id := by
  intro h
  obtain ⟨n, hn⟩ : ∃ n, n + 2 ≡ 1 [MOD 65535] := ⟨65534, by decide⟩
  obtain ⟨hallows, hrun⟩ := accepted_run n
  rw [(identifier_eq_iff (n + 2) 1).mpr hn] at hrun
  have hlast : (mqtt .documented).Allows System.Free
      ((mqtt .documented).run Sys.initial
        (Input.established ++ [.accepted] ++ List.replicate n .refused)) [.accepted] := by
    rw [hrun]
    decide +kernel
  have hids := h .documented Sys.initial _ .accepted Sys.initial_initial
    ((System.allows_append _ _).mpr ⟨hallows, hlast⟩)
  rw [System.run_concat, hrun] at hids
  have hissued : issued (Sys.accepted.srv.withId (identifier 1)) ((mqtt .documented).next
      ⟨Sys.accepted.pc, Sys.accepted.srv.withId (identifier 1), Sys.accepted.link⟩ .accepted).srv =
        some (identifier 2) := by decide +kernel
  have hmem : identifier 2 ∈ Sys.accepted.srv.qosQueue.map QueuedMessage.packetId := by
    decide +kernel
  obtain ⟨m, hm, hid⟩ := List.mem_map.mp hmem
  exact hids _ hissued m hm hid

end Miso.Mqtt
