import Miso.Mqtt.Errors

/-!
# Pings

`pingTimer` puts a time stamp into `pingQueue`, and the handler of PINGRESP takes it out.

* `Taken.raised` — no step returns `create_error`, the error at which `taskFunction` resets
  `pingQueue`;
* `pings_alternate` — the queue is full at an expiry, or empty at a PINGRESP, exactly if expiries
  and PINGRESPs do not alternate.
-/

namespace Miso.Mqtt

open Zig Net

/-! ## Errors -/

/-- The error is not the one that `taskFunction` waits for. -/
def Raised (e : Error) : Prop := e ≠ .create_error

/-- **No step returns `create_error`.** -/
theorem Taken.raised {X : Externs} {e : Env} {fuel : Nat} {l l' : Link} {pc : Pc} {s s' : Service}
    {err : Error} (h : Taken X e fuel l pc s (.err err) s' l') : Raised err := by
  rcases h.error_cases with hcommon | ⟨hne, -⟩
  · exact hcommon.1
  · exact hne

/-! ## The bookkeeping -/

/-- The expiries of `pingTimer`. -/
def expiries (log : List Event) : Nat := log.count .ping

/-- The PINGRESPs that have been handled. -/
def responses (log : List Event) : Nat := log.count .pingresp

/-- `pingQueue` holds the time stamp of the expiry that has not been answered. -/
def Balanced (s : Service) : Prop :=
  expiries s.log = responses s.log + if s.pingQueue.isSome then 1 else 0

/-- Nothing happens to the pings. -/
structure Unpinged (s s' : Service) : Prop where
  queue : s'.pingQueue = s.pingQueue
  timer : s'.pingTimer = s.pingTimer
  expiries : expiries s'.log = expiries s.log
  responses : responses s'.log = responses s.log

theorem unpinged_frame : Frame Unpinged where
  refl _ := ⟨rfl, rfl, rfl, rfl⟩
  trans h h' := ⟨h'.queue.trans h.queue, h'.timer.trans h.timer, h'.expiries.trans h.expiries,
    h'.responses.trans h.responses⟩

/-- Events that are not about pings. -/
theorem Unpinged.log {s s' : Service} (es : List Event) (hqueue : s'.pingQueue = s.pingQueue)
    (htimer : s'.pingTimer = s.pingTimer) (hlog : s'.log = s.log ++ es) (hping : .ping ∉ es)
    (hresp : .pingresp ∉ es) : Unpinged s s' := by
  refine ⟨hqueue, htimer, ?_, ?_⟩
  · unfold Mqtt.expiries
    rw [hlog, List.count_append, List.count_eq_zero.mpr hping, Nat.add_zero]
  · unfold Mqtt.responses
    rw [hlog, List.count_append, List.count_eq_zero.mpr hresp, Nat.add_zero]

theorem Change.unpinged {s s' : Service} (h : Change s s') : Unpinged s s' := by
  cases h with
  | withId k => exact .log [] rfl rfl (by simp [Service.withId]) (by simp) (by simp)
  | enqueue p => exact .log [.queued p] rfl rfl rfl (by simp) (by simp)
  | record ev hev =>
    refine .log [ev] rfl rfl rfl ?_ ?_
    · intro hmem
      obtain rfl := List.mem_singleton.mp hmem
      cases hev
    · intro hmem
      obtain rfl := List.mem_singleton.mp hmem
      cases hev
  | heap moves blocks => exact .log [] rfl rfl (by simp) (by simp) (by simp)
  | setQueue q l => cases q <;> exact .log [] rfl rfl (by simp [Service.setQueue]) (by simp) (by simp)

theorem Changes.unpinged {s s' : Service} (h : Changes s s') : Unpinged s s' :=
  h.frame unpinged_frame fun _ _ => Change.unpinged

theorem Balanced.unpinged {s s' : Service} (hs : Balanced s) (h : Unpinged s s') :
    Balanced s' := by
  unfold Balanced at *
  rw [h.expiries, h.responses, h.queue]
  exact hs

/-! ## The invariant -/

structure Pinging (pc : Pc) (s : Service) : Prop where
  balanced : Balanced s
  /-- The queue has been created empty, and the timer does not run yet. -/
  start : pc = .start → s.pingQueue = none ∧ s.pingTimer = false
  error : ∀ err, pc.error = some err → Raised err

section Steps

variable {X : Externs} {e : Env} {fuel : Nat} {l l' : Link} {pc : Pc} {s s' : Service}
  {x : Exit Error Pc}

/-- The steps that open, close and send. -/
theorem Taken.unpinged (h : Taken X e fuel l pc s x s' l') (hpc : pc.calm = false) :
    Unpinged s s' := by
  cases h with
  | opened => exact .log [.opened] rfl rfl rfl (by simp) (by simp)
  | openFailed => exact .log [] rfl rfl (by simp [Service.connecting]) (by simp) (by simp)
  | openTrap => exact .log [] rfl rfl (by simp [Service.connecting]) (by simp) (by simp)
  | openHalt => exact .log [] rfl rfl (by simp [Service.connecting]) (by simp) (by simp)
  | drained => exact .log [.drained] rfl rfl rfl (by simp) (by simp)
  | sent _ _ p => exact .log [.sent p] rfl rfl rfl (by simp) (by simp)
  | sendFailed _ _ p => exact .log [.sent p] rfl rfl rfl (by simp) (by simp)
  | sendTrap _ _ p => exact .log [.sent p] rfl rfl rfl (by simp) (by simp)
  | sendHalt _ _ p => exact .log [.sent p] rfl rfl rfl (by simp) (by simp)
  | refused => exact .log [.closed] rfl rfl rfl (by simp) (by simp)
  | close => exact .log [.closed] rfl rfl rfl (by simp) (by simp)
  | _ => cases hpc

/-- The handler of PINGRESP empties the queue, or traps. -/
theorem Received.balanced {ok : Os → Nat → Bool}
    (h : Received X ok (s.record [.received .pingresp]) .pingresp x s') (hs : Balanced s) :
    x = .trap ∨ Balanced s' := by
  cases h with
  | again _ hm => rcases hm with hm | hm | hm <;> cases hm
  | left _ hm => rcases hm with hm | hm <;> cases hm
  | malformed _ _ herr => cases herr
  | pingrespUnknown => exact .inl rfl
  | pingresp tick hqueue =>
    right
    have hq : s.pingQueue = some tick := hqueue
    unfold Balanced at *
    rw [hq] at hs
    show expiries ((s.log ++ [.received .pingresp]) ++ [.pingresp]) =
      responses ((s.log ++ [.received .pingresp]) ++ [.pingresp]) + 0
    simpa [expiries, responses, List.count_append] using hs

theorem Taken.balanced (h : Taken X e fuel l pc s x s' l') (hs : Pinging pc s) :
    x = .trap ∨ Balanced s' := by
  by_cases hcalm : pc.calm = true
  · cases h.calm hcalm with
    | changes _ _ _ hch => exact .inr (hs.balanced.unpinged hch.unpinged)
    | started =>
      right
      have hqueue := (hs.start rfl).1
      have hbalanced := hs.balanced
      unfold Balanced at *
      rw [hqueue] at hbalanced
      exact hbalanced
    | connected id s₁ hch =>
      have hbalanced : Balanced s₁ := hs.balanced.unpinged hch.unpinged
      exact .inr hbalanced
    | disconnecting err _ _ hch =>
      have hdisconnecting : Balanced s.disconnecting := hs.balanced
      exact .inr (hdisconnecting.unpinged hch.unpinged)
    | pingresp _ _ _ _ hrec => exact hrec.balanced hs.balanced
    | reset => exact absurd rfl (hs.error .create_error rfl)
  · exact .inr (hs.balanced.unpinged (h.unpinged (Bool.eq_false_iff.mpr hcalm)))

theorem Taken.pinging (h : Taken X e fuel l pc s x s' l') (hs : Pinging pc s) :
    pc.next x = .trapped ∨ Pinging (pc.next x) s' := by
  rcases h.balanced hs with rfl | hbalanced
  · exact .inl rfl
  · refine .inr ⟨hbalanced, fun hstart => absurd hstart h.ne_start, ?_⟩
    apply h.error _ hs.error
    intro err herr
    subst herr
    exact h.raised

end Steps

/-- What does not concern the pings. -/
theorem Pinging.unpinged {pc : Pc} {s s' : Service} (hs : Pinging pc s) (h : Unpinged s s') :
    Pinging pc s' :=
  ⟨hs.balanced.unpinged h,
    fun hpc => ⟨h.queue.trans (hs.start hpc).1, h.timer.trans (hs.start hpc).2⟩, hs.error⟩

/-- An expiry finds the queue empty. -/
theorem Pinging.begun {pc : Pc} {s : Service} {j : Job} (hs : Pinging pc s)
    (hactive : j.active s = true) (hqueue : ∀ tick, j = .pingTimer tick → s.pingQueue = none) :
    Pinging pc (j.begun s) := by
  cases j with
  | pingTimer tick =>
    have hnone := hqueue tick rfl
    refine ⟨?_, ?_, hs.error⟩
    · have hbalanced := hs.balanced
      unfold Balanced at *
      rw [hnone] at hbalanced
      show expiries (s.log ++ [.ping]) = responses (s.log ++ [.ping]) + 1
      simpa [expiries, responses, List.count_append] using hbalanced
    · intro hpc
      have hstopped := (hs.start hpc).2
      have hrunning : s.pingTimer = true := hactive
      rw [hrunning] at hstopped
      cases hstopped
  | pubTimer => exact hs
  | publish topic payload qos => exact hs

theorem Moved.pinging {X : Externs} {s s' : Sys} {i : Input} (h : Moved X s i s')
    (hi : (mqtt X).Enabled s i) (hs : Pinging s.pc s.srv) :
    s'.pc = .trapped ∨ Pinging s'.pc s'.srv := by
  have hafter : ∀ (x : Exit Error Unit) (srv' : Service), Pinging s.pc srv' →
      s.pc.after x = .trapped ∨ Pinging (s.pc.after x) srv' := by
    intro x srv' h'
    cases x with
    | trap => exact .inl rfl
    | _ => exact .inr h'
  cases h with
  | task a x srv' link' htaken => exact htaken.pinging hs
  | pingFull => exact .inl rfl
  | job j env x srv' hqueue hcalled =>
    exact hafter x srv' ((hs.begun hi.2.2 hqueue).unpinged hcalled.changes.unpinged)
  | waits j env srv' hqueue =>
    have hbegun := hs.begun hi.2.2 hqueue
    exact .inr ⟨hbegun.balanced, hbegun.start, hbegun.error⟩
  | idle => exact .inr hs
  | resumed j env x srv' _ hcalled =>
    have hresumed : Pinging s.pc { s.srv with waiting := none } := ⟨hs.balanced, hs.start, hs.error⟩
    exact hafter x srv' (hresumed.unpinged hcalled.changes.unpinged)
  | stays => exact .inr hs
  | clock now => exact .inr ⟨hs.balanced, hs.start, hs.error⟩

/-- The step executes the failing case of `pingTimer`, or of the handler of PINGRESP. -/
def PingFails (s : Sys) : Input → Prop
  | .job (.pingTimer curr_tick) env => (countPing curr_tick ⟨s.srv, s.link, env⟩).1 = .trap
  | .task a => s.pc = .receive ∧ a.env.waitRx 0 = some true ∧ a.env.read 0 = .pingresp ∧
    (onPingresp (s.start a)).1 = .trap
  | _ => False

/-- An expiry comes after as many PINGRESPs as expiries, and a PINGRESP after one less. -/
def Alternating (s : Sys) : Input → Prop
  | .job (.pingTimer _) _ => expiries s.srv.log = responses s.srv.log
  | .task a => s.pc = .receive → a.env.waitRx 0 = some true → a.env.read 0 = .pingresp →
    expiries s.srv.log = responses s.srv.log + 1
  | _ => True

theorem countPing_trap (tick : Nat) (s : State) :
    (countPing tick s).1 = .trap ↔ s.srv.pingQueue.isSome = true := by
  have hrun : (countPing tick s).1 = ((if s.srv.pingQueue.isSome then Prog.trap
      else update fun s => { s with pingQueue := some tick, pingCounter := s.pingCounter + 1 } :
        MqttM Unit) { s with srv := s.srv.record [.ping] }).1 := rfl
  rw [hrun]
  by_cases h : s.srv.pingQueue.isSome = true
  · rw [if_pos h]
    exact ⟨fun _ => h, fun _ => rfl⟩
  · rw [if_neg h]
    exact ⟨nofun, fun h' => absurd h' h⟩

theorem onPingresp_trap (s : State) :
    (onPingresp s).1 = .trap ↔ ¬s.srv.pingQueue.isSome = true := by
  show wp onPingresp (fun x _ => x = .trap ↔ _) s
  unfold onPingresp
  rw [wp_bind, wp_record, thenPost_ok, wp_bind, wp_service, thenPost_ok]
  dsimp only
  rw [show (s.srv.record [.pingresp]).pingQueue = s.srv.pingQueue from rfl]
  cases s.srv.pingQueue with
  | none => exact iff_of_true rfl Bool.false_ne_true
  | some tick => exact iff_of_false (fun h => by cases h) fun h => h rfl

theorem Balanced.fails {s : Sys} (h : Balanced s.srv) (i : Input) :
    ¬PingFails s i ↔ Alternating s i := by
  unfold Balanced at h
  cases i with
  | job j env =>
    cases j with
    | pingTimer tick =>
      show ¬(countPing tick _).1 = .trap ↔ expiries s.srv.log = responses s.srv.log
      rw [countPing_trap]
      split at h <;> simp_all
    | pubTimer => exact ⟨fun _ => trivial, fun _ => id⟩
    | publish topic payload qos => exact ⟨fun _ => trivial, fun _ => id⟩
  | resume env => exact ⟨fun _ => trivial, fun _ => id⟩
  | clock now => exact ⟨fun _ => trivial, fun _ => id⟩
  | task a =>
    show ¬(s.pc = .receive ∧ a.env.waitRx 0 = some true ∧ a.env.read 0 = .pingresp ∧
      (onPingresp (s.start a)).1 = .trap) ↔ (s.pc = .receive → _ → _ → _)
    rw [onPingresp_trap]
    have hqueue : (s.start a).srv.pingQueue = s.srv.pingQueue := rfl
    rw [hqueue]
    constructor
    · intro hnot hpc hwait hread
      have hsome : s.srv.pingQueue.isSome = true := by
        by_contra hnone
        exact hnot ⟨hpc, hwait, hread, hnone⟩
      rw [if_pos hsome] at h
      exact h
    · rintro himp ⟨hpc, hwait, hread, hnone⟩
      rw [if_neg hnone, himp hpc hwait hread] at h
      omega

/-- **Pings alternate or trap.**  In every run, `pingTimer` finds room in `pingQueue` and the
    handler of PINGRESP finds an element in it exactly if expiries and handled PINGRESPs
    alternate, over all sessions and beginning with an expiry. -/
theorem pings_alternate (X : Externs) {s₀ s : Sys} (h₀ : Initial s₀)
    (h : (mqtt X).Reaches System.Free s₀ s) (i : Input) (hi : (mqtt X).Enabled s i) :
    ¬PingFails s i ↔ Alternating s i := by
  have hinv : s.pc = .trapped ∨ Pinging s.pc s.srv := by
    apply h.invariant (I := fun s => s.pc = .trapped ∨ Pinging s.pc s.srv)
    · right
      rw [h₀.pc, h₀.srv]
      exact ⟨rfl, fun _ => ⟨rfl, rfl⟩, nofun⟩
    · intro s i hs hi _
      exact (next_moved X s i).pinging hi (hs.resolve_left (enabled_untrapped hi))
  exact (hinv.resolve_left (enabled_untrapped hi)).balanced.fails i

/-- An expiry of `pingTimer` at which no call fails. -/
def Input.ping : Input := .job (.pingTimer 0) (Answers.smooth none 0).env

theorem first_ping_fits :
    ¬PingFails ((mqtt .documented).run Sys.initial Input.established) Input.ping :=
  (pings_alternate .documented Sys.initial_initial (System.reaches_run (by decide +kernel))
    Input.ping (by decide +kernel)).mpr (show expiries _ = responses _ by decide +kernel)

/-- A PINGRESP is missing when `pingTimer` expires for the second time. -/
theorem second_ping_fails : ¬∀ (X : Externs) (s₀ s : Sys) (i : Input), Initial s₀ →
    (mqtt X).Reaches System.Free s₀ s → (mqtt X).Enabled s i → ¬PingFails s i := by
  intro h
  have hreach : (mqtt .documented).Reaches System.Free Sys.initial
      ((mqtt .documented).run Sys.initial (Input.established ++ [.ping])) :=
    System.reaches_run (by decide +kernel)
  have hfails : (countPing 0 ⟨((mqtt .documented).run Sys.initial
      (Input.established ++ [.ping])).srv, ((mqtt .documented).run Sys.initial
      (Input.established ++ [.ping])).link, (Answers.smooth none 0).env⟩).1 = .trap := by
    decide +kernel
  exact h .documented Sys.initial _ .ping Sys.initial_initial hreach (by decide +kernel) hfails

end Miso.Mqtt
