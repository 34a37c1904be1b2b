import Miso.Mqtt.Events

/-!
# Sessions

A session lasts from `connection.open` to `connection.close`.

* `Taken.phase` — where a step may lead to;
* `connected_truthful` — the state `.connected` and the CONNACK of the connection that is open.
-/

namespace Miso.Mqtt

open Zig Net

/-! ## Phases -/

/-- How far the connection has come. -/
inductive Phase where
  | down
  /-- Open, and CONNECT has not been prepared. -/
  | opened
  /-- Before `connect` goes on behind CONNACK. -/
  | opening
  | accepted
  | up
  | stopped
  deriving DecidableEq, Repr

def Pc.phase : Pc → Phase
  | start => .down
  | connect => .down
  | refused _ => .down
  | lost _ => .down
  | connectPacket => .opened
  | drain .connect => .opening
  | connack => .opening
  | subscribe => .accepted
  | drain (.subscribe _) => .accepted
  | suback _ => .accepted
  | halted => .stopped
  | trapped => .stopped
  | _ => .up

/-- The phases that an ordinary step may lead to. -/
def Phase.next (p q : Phase) : Bool :=
  q = p || q = .stopped || (q = .down && (p = .opened || p = .opening || p = .accepted))

theorem Pc.phase_next_trap (pc : Pc) : pc.phase.next (pc.next .trap).phase = true := by
  cases pc with
  | drain caller => cases caller <;> rfl
  | _ => rfl

theorem Pc.phase_next_halt (pc : Pc) : pc.phase.next (pc.next .halt).phase = true := by
  cases pc with
  | drain caller => cases caller <;> rfl
  | _ => rfl

/-- An error leads to the end of the session. -/
theorem Pc.phase_next_err (pc : Pc) (err : Error) (h : ∀ err', pc ≠ .close err') :
    pc.phase.next (pc.next (.err err)).phase = true := by
  cases pc with
  | close err' => exact absurd rfl (h err')
  | drain caller => cases caller <;> rfl
  | _ => rfl

/-- An exit whose value, if it has one, stays in the phase. -/
theorem Pc.phase_next_as {α : Type} (pc pc' : Pc) (x : Exit Error α) (h : ∀ err', pc ≠ .close err')
    (hpc : pc.phase.next pc'.phase = true) : pc.phase.next (pc.next (x.as pc')).phase = true := by
  cases x with
  | ok a => exact hpc
  | err err => exact pc.phase_next_err err h
  | trap => exact pc.phase_next_trap
  | halt => exact pc.phase_next_halt

section Steps

variable {X : Externs} {ok : Os → Nat → Bool} {e : Env} {fuel : Nat} {l l' : Link} {pc : Pc}
  {s s' : Service} {x : Exit Error Pc}

theorem Delivered.phase {packetId : UInt16} {r : publish_response} (pc : Pc)
    (h : Delivered ok s packetId r x s') (hpc : pc.phase = .up) (hclose : ∀ err', pc ≠ .close err') :
    pc.phase.next (pc.next x).phase = true := by
  cases h with
  | undefined => exact pc.phase_next_trap
  | short => exact pc.phase_next_trap
  | reset => rw [hpc]; rfl
  | noSpace => exact pc.phase_next_err _ hclose
  | printed => rw [hpc]; rfl
  | overflow => exact pc.phase_next_trap
  | kept => rw [hpc]; rfl
  | lost => exact pc.phase_next_err _ hclose

theorem Received.phase {m : Inbound} (h : Received X ok s m x s') :
    Phase.next .up (Pc.next .receive x).phase = true := by
  cases h with
  | publish0 _ r _ _ _ _ hdel => exact hdel.phase .receive rfl nofun
  | publish2 _ r _ _ _ _ _ hdel => exact hdel.phase .receive rfl nofun
  | pubrec _ _ _ x => exact Pc.phase_next_as .receive .receive x nofun rfl
  | _ => rfl

/-- The steps with which a session gets further, or ends. -/
inductive Passes : Pc → Exit Error Pc → Prop where
  | opened : Passes .connect (.ok .connectPacket)
  | connect : Passes .connectPacket (.ok (.drain .connect))
  | connack : Passes .connack (.ok .subscribe)
  | suback (id : UInt16) : Passes (.suback id) (.ok .retransmit)
  | close (err : Error) : Passes (.close err) (.ok (.lost err))

/-- **Where a step leads to.** -/
theorem Taken.phase (h : Taken X e fuel l pc s x s' l') :
    pc.phase.next (pc.next x).phase = true ∨ Passes pc x := by
  cases h with
  | opened => exact .inr .opened
  | connectPacket _ x =>
    cases x with
    | ok id => exact .inr .connect
    | err err => exact .inl rfl
    | trap => exact .inl rfl
    | halt => exact .inl rfl
  | connackTimeout => exact .inr .connack
  | connackAccepted => exact .inr .connack
  | subscribe _ x => exact .inl (Pc.phase_next_as _ _ x nofun rfl)
  | subackTimeout id => exact .inr (.suback id)
  | subackOther id => exact .inr (.suback id)
  | suback id => exact .inr (.suback id)
  | retransmit _ _ _ _ _ x => exact .inl (Pc.phase_next_as _ _ x nofun rfl)
  | retransmitPubrel _ _ _ x => exact .inl (Pc.phase_next_as _ _ x nofun rfl)
  | drained caller => cases caller <;> exact .inl rfl
  | sent caller => cases caller <;> exact .inl rfl
  | sendFailed caller => cases caller <;> exact .inl rfl
  | sendTrap caller => cases caller <;> exact .inl rfl
  | sendHalt caller => cases caller <;> exact .inl rfl
  | received _ _ _ _ hrec => exact .inl hrec.phase
  | deliver packetId r _ _ _ hdel => exact .inl (hdel.phase _ rfl nofun)
  | disconnect _ _ x => exact .inl (Pc.phase_next_as _ _ x nofun rfl)
  | close err => exact .inr (.close err)
  | _ => exact .inl rfl

end Steps

/-! ## The connected state -/

/-- The connection has been opened and not been closed since. -/
def Opened (log : List Event) : Prop :=
  ∃ before after, Since .opened log before after ∧ .closed ∉ after

/-- A CONNACK with return code 0 has been received on the connection that is open. -/
def Accepted (log : List Event) : Prop :=
  ∃ before after, Since .opened log before after ∧ .closed ∉ after ∧
    .received (.connack (some 0)) ∈ after

/-- The connection and the state stay as they are. -/
structure Steady (s s' : Service) : Prop where
  state : s'.state = s.state
  log : ∃ es, s'.log = s.log ++ es ∧ .opened ∉ es ∧ .closed ∉ es

theorem Inside.steady {s s' : Service} (h : Inside s s') : Steady s s' := by
  obtain ⟨hstate, es, hlog, hinner, -⟩ := h
  exact ⟨hstate, es, hlog, opened_notMem_inner hinner, closed_notMem_inner hinner⟩

theorem Opened.append {log es : List Event} (h : Opened log) (hopened : .opened ∉ es)
    (hclosed : .closed ∉ es) : Opened (log ++ es) := by
  obtain ⟨before, after, hsince, hopen⟩ := h
  refine ⟨before, after ++ es, hsince.append hopened, ?_⟩
  intro hmem
  rcases List.mem_append.mp hmem with h | h
  · exact hopen h
  · exact hclosed h

theorem Accepted.append {log es : List Event} (h : Accepted log) (hopened : .opened ∉ es)
    (hclosed : .closed ∉ es) : Accepted (log ++ es) := by
  obtain ⟨before, after, hsince, hopen, hconnack⟩ := h
  refine ⟨before, after ++ es, hsince.append hopened, ?_, List.mem_append_left es hconnack⟩
  intro hmem
  rcases List.mem_append.mp hmem with h | h
  · exact hopen h
  · exact hclosed h

/-- The CONNACK arrives. -/
theorem Opened.accept {log : List Event} (h : Opened log) :
    Accepted (log ++ [.received (.connack (some 0))]) := by
  obtain ⟨before, after, hsince, hopen⟩ := h
  refine ⟨before, after ++ [.received (.connack (some 0))], hsince.append (by simp), ?_, by simp⟩
  intro hmem
  rcases List.mem_append.mp hmem with h | h
  · exact hopen h
  · simp at h

/-- What `.connected` and the record say in each phase. -/
def Truthful : Phase → Service → Prop
  | .down, s => s.state ≠ .connected
  | .opened, s => s.state ≠ .connected ∧ Opened s.log
  | .opening, s => s.state ≠ .connected ∧ Opened s.log
  | .accepted, s => s.state ≠ .connected ∧ Accepted s.log
  | .up, s => Accepted s.log
  | .stopped, s => s.state = .connected → Accepted s.log

theorem Truthful.steady {p : Phase} {s s' : Service} (h : Truthful p s) (hs : Steady s s') :
    Truthful p s' := by
  obtain ⟨hstate, es, hlog, hopened, hclosed⟩ := hs
  cases p with
  | down => exact fun hc => h (hstate ▸ hc)
  | opened =>
    refine ⟨fun hc => h.1 (hstate ▸ hc), ?_⟩
    rw [hlog]
    exact h.2.append hopened hclosed
  | opening =>
    refine ⟨fun hc => h.1 (hstate ▸ hc), ?_⟩
    rw [hlog]
    exact h.2.append hopened hclosed
  | accepted =>
    refine ⟨fun hc => h.1 (hstate ▸ hc), ?_⟩
    rw [hlog]
    exact h.2.append hopened hclosed
  | up =>
    show Accepted s'.log
    rw [hlog]
    exact Accepted.append h hopened hclosed
  | stopped =>
    intro hc
    rw [hlog]
    exact (h (hstate ▸ hc)).append hopened hclosed

theorem Truthful.next {p q : Phase} {s : Service} (h : Truthful p s) (hq : p.next q = true) :
    Truthful q s := by
  cases p <;> cases q <;> first
    | exact h
    | exact h.1
    | exact fun hc => absurd hc h
    | exact fun hc => absurd hc h.1
    | exact fun _ => h
    | cases hq

theorem Truthful.connected {p : Phase} {s : Service} (h : Truthful p s) :
    s.state = .connected → Accepted s.log := by
  intro hc
  cases p with
  | down => exact absurd hc h
  | opened => exact absurd hc h.1
  | opening => exact absurd hc h.1
  | accepted => exact h.2
  | up => exact h
  | stopped => exact h hc

/-- The end of `disconnect`. -/
def Pc.closing : Pc → Bool
  | close _ => true
  | _ => false

/-- No wait for CONNACK times out, and no session that has been established ends. -/
def Lasting (s : Sys) : Input → Prop
  | .task a => (s.pc = .connack → a.env.waitRx 0 ≠ some false) ∧ s.pc.closing = false
  | _ => True

instance (s : Sys) : ∀ i : Input, Decidable (Lasting s i)
  | .task _ => inferInstanceAs (Decidable (_ ∧ _))
  | .job _ _ => inferInstanceAs (Decidable True)
  | .resume _ => inferInstanceAs (Decidable True)
  | .clock _ => inferInstanceAs (Decidable True)

section Steps

variable {X : Externs} {e : Env} {fuel : Nat} {l l' : Link} {pc : Pc} {s s' : Service}
  {x : Exit Error Pc}

/-- Only `connect`, its end and the two ends of a session are not steady. -/
theorem Taken.steady (h : Taken X e fuel l pc s x s' l') (hconnect : pc ≠ .connect)
    (hrefused : ∀ err, pc ≠ .refused err) (hclose : ∀ err, pc ≠ .close err) :
    Steady s s' ∨ ∃ id s₁, pc = .suback id ∧ x = .ok .retransmit ∧ Steady s s₁ ∧
      s' = s₁.connected := by
  by_cases hcalm : pc.calm = true
  · rcases h.inside hcalm with h | ⟨id, s₁, hpc, hx, h, hs'⟩
    · exact .inl h.steady
    · exact .inr ⟨id, s₁, hpc, hx, h.steady, hs'⟩
  · cases h with
    | drained => exact .inl ⟨rfl, [.drained], rfl, by simp, by simp⟩
    | sent _ _ p => exact .inl ⟨rfl, [.sent p], rfl, by simp, by simp⟩
    | sendFailed _ _ p => exact .inl ⟨rfl, [.sent p], rfl, by simp, by simp⟩
    | sendTrap _ _ p => exact .inl ⟨rfl, [.sent p], rfl, by simp, by simp⟩
    | sendHalt _ _ p => exact .inl ⟨rfl, [.sent p], rfl, by simp, by simp⟩
    | opened => exact absurd rfl hconnect
    | openFailed => exact absurd rfl hconnect
    | openTrap => exact absurd rfl hconnect
    | openHalt => exact absurd rfl hconnect
    | refused err => exact absurd rfl (hrefused err)
    | close err => exact absurd rfl (hclose err)
    | _ => exact absurd rfl hcalm

theorem connecting_ne (s : Service) : s.connecting.state ≠ .connected := by
  simp [Service.connecting]

theorem Taken.truthful (h : Taken X e fuel l pc s x s' l') (hs : Truthful pc.phase s)
    (hwait : pc = .connack → e.waitRx 0 ≠ some false) (hclose : ∀ err, pc ≠ .close err) :
    Truthful (pc.next x).phase s' := by
  by_cases hconnect : pc = .connect
  · subst hconnect
    cases h with
    | opened => exact ⟨connecting_ne s, s.log, [], since_last, by simp⟩
    | openFailed => exact connecting_ne s
    | openTrap => exact fun hc => absurd hc (connecting_ne s)
    | openHalt => exact fun hc => absurd hc (connecting_ne s)
  by_cases hrefused : ∀ err, pc ≠ .refused err
  · rcases h.phase with hnext | hpass
    · rcases h.steady hconnect hrefused hclose with hsteady | ⟨id, s₁, rfl, rfl, hsteady, rfl⟩
      · exact (hs.steady hsteady).next hnext
      · cases hnext
    · cases hpass with
      | opened => exact absurd rfl hconnect
      | connect =>
        rcases h.steady hconnect hrefused hclose with hsteady | ⟨_, _, hpc, -⟩
        · exact hs.steady hsteady
        · cases hpc
      | connack =>
        cases h with
        | connackTimeout _ hfalse => exact absurd hfalse (hwait rfl)
        | connackAccepted _ _ hread =>
          rw [hread]
          exact ⟨hs.1, hs.2.accept⟩
      | suback id =>
        rcases h.steady hconnect hrefused hclose with hsteady | ⟨_, s₁, -, -, hsteady, rfl⟩
        · exact (hs.steady hsteady).2
        · exact (hs.steady hsteady).2
      | close err => exact absurd rfl (hclose err)
  · push Not at hrefused
    obtain ⟨err, rfl⟩ := hrefused
    cases h with
    | refused => exact fun hc => nomatch hc

end Steps

/-- **`.connected` means accepted.**  In every run in which no wait for CONNACK times out and no
    established session ends, the state is `.connected` only if a CONNACK with return code 0 has
    been received on the connection that is open. -/
theorem connected_truthful (X : Externs) {s₀ s : Sys} (h₀ : Initial s₀)
    (h : (mqtt X).Reaches Lasting s₀ s) : s.srv.state = .connected → Accepted s.srv.log := by
  have hinv : Truthful s.pc.phase s.srv := by
    apply h.invariant (I := fun s => Truthful s.pc.phase s.srv)
    · rw [h₀.pc]
      show s₀.srv.state ≠ .connected
      rw [h₀.srv]
      nofun
    · intro s i hs _ hC
      have hmoved := next_moved X s i
      show Truthful (s.next X i).pc.phase (s.next X i).srv
      generalize s.next X i = s' at hmoved
      by_cases hi : ∀ a, i ≠ .task a
      · obtain ⟨hin, hpc | hpc⟩ := hmoved.inside hi
        · rw [hpc]
          exact hs.steady hin.steady
        · rw [hpc]
          exact (hs.steady hin.steady).connected
      · push Not at hi
        obtain ⟨a, rfl⟩ := hi
        obtain ⟨hwait, hclosing⟩ := hC
        have hclose : ∀ err, s.pc ≠ .close err := by
          intro err hpc
          rw [hpc] at hclosing
          cases hclosing
        cases hmoved with
        | task a x srv' link' htaken => exact htaken.truthful hs hwait hclose
  exact hinv.connected

theorem connected_truthful_established :
    Accepted ((mqtt .documented).run Sys.initial Input.established).srv.log :=
  connected_truthful .documented Sys.initial_initial (System.reaches_run (by decide +kernel))
    (by decide +kernel)

theorem Accepted.received {log : List Event} (h : Accepted log) :
    .received (.connack (some 0)) ∈ log := by
  obtain ⟨before, after, ⟨rfl, -⟩, -, hmem⟩ := h
  exact List.mem_append_right before (List.mem_cons_of_mem _ hmem)

/-- A wait for CONNACK that times out is passed over. -/
theorem connected_unaccepted : ¬∀ (X : Externs) (s₀ s : Sys), Initial s₀ →
    (mqtt X).Reaches System.Free s₀ s → s.srv.state = .connected → Accepted s.srv.log := by
  intro h
  have hreach : (mqtt .documented).Reaches System.Free Sys.initial
      ((mqtt .documented).run Sys.initial
        ([.go] ++ Input.connecting ++ [.go] ++ Input.subscribing 33153)) :=
    System.reaches_run (by decide +kernel)
  have haccepted := h .documented Sys.initial _ Sys.initial_initial hreach (by decide +kernel)
  have hreceived := haccepted.received
  revert hreceived
  decide +kernel

end Miso.Mqtt
