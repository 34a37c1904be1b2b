import Miso.Mqtt.Events

/-!
# The errors of the service

* `Stray` — a packet that acknowledges what is not in `qosQueue`; it is the only source of
  `qos_packet_not_found` and `pubrel_packet_not_found`;
* `Taken.error_cases` — the errors of a step of the task;
* `Taken.error` — an error is reported until the task connects again.
-/

namespace Miso.Mqtt

open Zig Net

/-! ## Acknowledgements -/

/-- What a packet acknowledges: the type of the packet that it answers, and its identifier. -/
def Inbound.acked : Inbound → Option (msgTypes × UInt16)
  | .puback fields => (deserializePuback fields).toOption.map fun id => (.publish, id)
  | .pubrec fields => (deserializePubrec fields).toOption.map fun id => (.publish, id)
  | .pubcomp fields => (deserializePubcomp fields).toOption.map fun id => (.pubrel, id)
  | _ => none

/-- The packet acknowledges what is not in `qosQueue`. -/
def Inbound.Stray (s : Service) (m : Inbound) : Prop :=
  ∃ a, m.acked = some a ∧ removeFirst (acks a.2 a.1) s.qosQueue = none

theorem puback_acked {fields : Option AckFields} {id : UInt16}
    (h : deserializePuback fields = .ok id) :
    (Inbound.puback fields).acked = some (.publish, id) := by
  simp [Inbound.acked, h, Except.toOption]

theorem pubrec_acked {fields : Option AckFields} {id : UInt16}
    (h : deserializePubrec fields = .ok id) :
    (Inbound.pubrec fields).acked = some (.publish, id) := by
  simp [Inbound.acked, h, Except.toOption]

theorem pubcomp_acked {fields : Option AckFields} {id : UInt16}
    (h : deserializePubcomp fields = .ok id) :
    (Inbound.pubcomp fields).acked = some (.pubrel, id) := by
  simp [Inbound.acked, h, Except.toOption]

theorem acknowledged_none {s : Service} {id : UInt16} {packetType : msgTypes}
    (h : s.acknowledged id packetType = none) :
    removeFirst (acks id packetType) s.qosQueue = none := Option.map_eq_none_iff.mp h

/-! ## Where errors come from -/

section Errors

variable {X : Externs} {ok : Os → Nat → Bool} {s s' : Service} {err : Error}

theorem Prepared.common {p : Packet} {k id : UInt16}
    (h : Prepared X ok s p k id (.err err) s') : Common err := by
  cases h with
  | failed _ _ _ herr => exact herr

theorem Stored.common {q : Queue} {packetId : UInt16} {qos : QoS} {dup retained : Bool}
    {topic payload : List UInt8} {deadline : Nat}
    (h : Stored ok s q packetId qos dup retained topic payload deadline (.err err) s') :
    Common err := by
  cases h <;> decide

theorem Published.common {topic payload : List UInt8} {qos : QoS} {dup : Bool}
    {packetId : Option UInt16} {deadline : Nat}
    (h : Published X ok s topic payload qos dup packetId deadline (.err err) s') : Common err := by
  cases h with
  | failed _ _ hprep => exact hprep.common
  | queued _ _ _ hstored => exact hstored.common

theorem Released.common {packetId : UInt16} {dup stored : Bool}
    (h : Released X ok s packetId dup stored (.err err) s') : Common err := by
  cases h with
  | failed _ _ hprep => exact hprep.common
  | noAppend => decide

theorem Delivered.common {packetId : UInt16} {r : publish_response}
    (h : Delivered ok s packetId r (.err err) s') : Common err := by
  cases h with
  | noSpace => decide
  | lost _ _ _ _ _ hstored => exact hstored.common

/-- The exit whose value has been replaced has the same error. -/
theorem Exit.as_err {α β : Type} {b : β} {x : Exit Error α} (h : x.as b = .err err) :
    x = .err err := by
  cases x <;> cases h
  rfl

theorem Received.error_cases {m : Inbound} (h : Received X ok s m (.err err) s') :
    Common err ∨ err ≠ .create_error ∧ m.Stray s := by
  generalize hx : (Exit.err err : Exit Error Pc) = x at h
  cases h with
  | malformed _ _ _ herr =>
    cases hx
    exact .inl herr
  | publish0 _ _ _ _ _ _ hdel =>
    subst hx
    exact .inl hdel.common
  | publish2 _ _ _ _ _ _ _ hdel =>
    subst hx
    exact .inl hdel.common
  | unanswered _ _ _ _ _ _ _ hprep =>
    cases hx
    exact .inl hprep.common
  | pubackUnknown _ _ hid hack =>
    cases hx
    exact .inr ⟨nofun, _, puback_acked hid, acknowledged_none hack⟩
  | pubrec _ _ _ x _ _ _ hrel =>
    obtain rfl := Exit.as_err hx.symm
    exact .inl hrel.common
  | pubrecUnknown _ _ hid hack =>
    cases hx
    exact .inr ⟨nofun, _, pubrec_acked hid, acknowledged_none hack⟩
  | pubrelFailed _ _ _ _ _ _ _ _ hprep =>
    cases hx
    exact .inl hprep.common
  | pubcompUnknown _ _ hid hack =>
    cases hx
    exact .inr ⟨nofun, _, pubcomp_acked hid, acknowledged_none hack⟩
  | _ => cases hx

/-- **The errors of a step**: `create_error` is none of them, and a packet is not found only if it
is a stray acknowledgement that is read in the receive loop. -/
theorem Taken.error_cases {e : Env} {fuel : Nat} {l l' : Link} {pc : Pc}
    (h : Taken X e fuel l pc s (.err err) s' l') : Common err ∨
      err ≠ .create_error ∧ pc = .receive ∧ e.waitRx 0 = some true ∧ (e.read 0).Stray s := by
  generalize hx : (Exit.err err : Exit Error Pc) = x at h
  cases h with
  | openFailed _ _ _ hopen =>
    cases hx
    have hraises := TlsContext.open_raises fuel connectionType X.config_get_mqtt_url l
    exact .inl (wp_of_run hraises hopen err rfl)
  | sendFailed _ _ p _ _ _ _ hsend =>
    cases hx
    have hraises := TlsContext.send_tls_raises fuel (X.size p) l
    exact .inl (wp_of_run hraises hsend err rfl)
  | connackError =>
    cases hx
    exact .inl (by decide)
  | connackRefused _ _ _ _ _ herr =>
    cases hx
    exact .inl herr
  | subackError =>
    cases hx
    exact .inl (by decide)
  | subackMalformed =>
    cases hx
    exact .inl (by decide)
  | connectPacket _ x _ hprep =>
    obtain rfl := Exit.as_err hx.symm
    exact .inl hprep.common
  | subscribe _ x _ hprep =>
    obtain rfl := Exit.as_err hx.symm
    exact .inl hprep.common
  | disconnect _ _ x _ hprep =>
    obtain rfl := Exit.as_err hx.symm
    exact .inl hprep.common
  | retransmit _ _ _ _ _ x _ _ _ _ hpub =>
    obtain rfl := Exit.as_err hx.symm
    exact .inl hpub.common
  | retransmitPubrel _ _ _ x _ _ _ hrel =>
    obtain rfl := Exit.as_err hx.symm
    exact .inl hrel.common
  | received _ _ _ hwait hrec =>
    subst hx
    rcases hrec.error_cases with hcommon | ⟨hne, hstray⟩
    · exact .inl hcommon
    · exact .inr ⟨hne, rfl, hwait, hstray⟩
  | deliver _ _ _ _ _ hdel =>
    subst hx
    exact .inl hdel.common
  | completeNoSpace =>
    cases hx
    exact .inl (by decide)
  | _ => cases hx

end Errors

/-! ## What is reported -/

/-- The error that the task is going to report. -/
def Pc.error : Pc → Option Error
  | refused err => some err
  | disconnect err => some err
  | close err => some err
  | lost err => some err
  | drain (.disconnect err) => some err
  | _ => none

theorem Pc.handler_error (pc : Pc) (e err : Error) (h : (pc.handler e).error = some err) :
    err = e ∨ pc.error = some err := by
  cases pc with
  | drain caller =>
    cases caller with
    | disconnect err' => exact .inr h
    | _ =>
      cases h
      exact .inl rfl
  | refused err' => exact .inr h
  | disconnect err' => exact .inr h
  | close err' => exact .inr h
  | lost err' => cases h
  | halted => cases h
  | trapped => cases h
  | _ =>
    cases h
    exact .inl rfl

section Steps

variable {X : Externs} {ok : Os → Nat → Bool} {e : Env} {fuel : Nat} {l l' : Link} {pc : Pc}
  {s s' : Service} {x : Exit Error Pc}

theorem Exit.as_ok {α β : Type} {b b' : β} {x : Exit Error α} (h : x.as b = .ok b') : b' = b := by
  cases x <;> cases h
  rfl

theorem Delivered.ok_error {packetId : UInt16} {r : publish_response} {pc' : Pc}
    (h : Delivered ok s packetId r (.ok pc') s') : pc' ≠ .start ∧ pc'.error = none := by
  cases h <;> exact ⟨nofun, rfl⟩

theorem Received.ok_error {m : Inbound} {pc' : Pc} (h : Received X ok s m (.ok pc') s') :
    pc' ≠ .start ∧ pc'.error = none := by
  generalize hx : (Exit.ok pc' : Exit Error Pc) = x at h
  cases h with
  | publish0 _ _ _ _ _ _ hdel =>
    subst hx
    exact hdel.ok_error
  | publish2 _ _ _ _ _ _ _ hdel =>
    subst hx
    exact hdel.ok_error
  | pubrec _ _ _ x =>
    rw [Exit.as_ok hx.symm]
    exact ⟨nofun, rfl⟩
  | _ => cases hx <;> exact ⟨nofun, rfl⟩

/-- A step that returns carries the error on; it never leads to the beginning. -/
theorem Taken.ok_error {pc' : Pc} (h : Taken X e fuel l pc s (.ok pc') s' l') :
    pc' ≠ .start ∧ (pc'.error = none ∨ pc'.error = pc.error) := by
  generalize hx : (Exit.ok pc' : Exit Error Pc) = x at h
  cases h with
  | connectPacket _ x =>
    rw [Exit.as_ok hx.symm]
    exact ⟨nofun, .inl rfl⟩
  | subscribe _ x =>
    rw [Exit.as_ok hx.symm]
    exact ⟨nofun, .inl rfl⟩
  | retransmit _ _ _ _ _ x =>
    rw [Exit.as_ok hx.symm]
    exact ⟨nofun, .inl rfl⟩
  | retransmitPubrel _ _ _ x =>
    rw [Exit.as_ok hx.symm]
    exact ⟨nofun, .inl rfl⟩
  | disconnect _ _ x =>
    rw [Exit.as_ok hx.symm]
    exact ⟨nofun, .inr rfl⟩
  | received _ _ _ _ hrec =>
    subst hx
    exact ⟨hrec.ok_error.1, .inl hrec.ok_error.2⟩
  | deliver _ _ _ _ _ hdel =>
    subst hx
    exact ⟨hdel.ok_error.1, .inl hdel.ok_error.2⟩
  | drained caller =>
    cases hx
    cases caller with
    | disconnect err => exact ⟨nofun, .inr rfl⟩
    | _ => exact ⟨nofun, .inl rfl⟩
  | sent =>
    cases hx
    exact ⟨nofun, .inr rfl⟩
  | refused =>
    cases hx
    exact ⟨nofun, .inr rfl⟩
  | close =>
    cases hx
    exact ⟨nofun, .inr rfl⟩
  | _ => cases hx <;> exact ⟨nofun, .inl rfl⟩

theorem Pc.handler_ne_start (pc : Pc) (err : Error) : pc.handler err ≠ .start := by
  cases pc with
  | drain caller => cases caller <;> exact nofun
  | _ => exact nofun

theorem Taken.ne_start (h : Taken X e fuel l pc s x s' l') : pc.next x ≠ .start := by
  cases x with
  | ok pc' => exact h.ok_error.1
  | err err => exact pc.handler_ne_start err
  | trap => exact nofun
  | halt => exact nofun

/-- What holds of the errors of the step, and of the one that is reported, goes on to hold. -/
theorem Taken.error {E : Error → Prop} (h : Taken X e fuel l pc s x s' l')
    (hx : ∀ err, x = .err err → E err) (hpc : ∀ err, pc.error = some err → E err) (err : Error)
    (hnext : (pc.next x).error = some err) : E err := by
  cases x with
  | ok pc' =>
    rcases h.ok_error.2 with hnone | hsame
    · rw [Pc.next, hnone] at hnext
      cases hnext
    · rw [Pc.next, hsame] at hnext
      exact hpc err hnext
  | err e =>
    rcases pc.handler_error e err hnext with rfl | hold
    · exact hx err rfl
    · exact hpc err hold
  | trap => cases hnext
  | halt => cases hnext

end Steps

end Miso.Mqtt
