import Miso.Mqtt.Steps

/-!
# The task and its steps

`taskFunction_reaches`: whatever `taskFunction` does, the system does in steps of the task.  The
call does not come to an end; where it traps, is cut off or is observed no longer, the steps have
led to the same service and the same connection.  What is proved of the states of all runs is
therefore proved of `taskFunction`.
-/

namespace Miso.Mqtt

open Zig Net

/-- The task takes steps. -/
def Pc.live : Pc → Bool
  | .halted => false
  | .trapped => false
  | _ => true

section Follows

variable (X : Externs) (fuel : Nat)

/-- One step after the other leads from `a` to `b`. -/
def Leads (a b : Pc × State) : Prop :=
  Relation.ReflTransGen (fun a b => a.1.live = true ∧
    b = (a.1.next (taskStep X fuel a.1 a.2).1, (taskStep X fuel a.1 a.2).2)) a b

/-- The steps from `a` have done what a program did: they are at `k v` where it has returned `v`,
and at `h e` where it has failed. -/
def Follows {α : Type} (a : Pc × State) (k : α → Pc) (h : Error → Pc) : Exit Error α → State → Prop
  | .ok v, s => Leads X fuel a (k v, s)
  | .err e, s => Leads X fuel a (h e, s)
  | .trap, s => Leads X fuel a (.trapped, s)
  | .halt, s => ∃ pc, Leads X fuel a (pc, s)

variable {X fuel} {α β : Type} {a : Pc × State} {pc : Pc} {s s₁ : State} {k : α → Pc} {k' : β → Pc}
  {h : Error → Pc}

/-- A step that performs a program. -/
theorem Leads.step {m : MqttM α} (hl : Leads X fuel a (pc, s)) (hpc : pc.live = true)
    (hs : taskStep X fuel pc s = (m >>= fun v => pure (k v)) s₁) :
    wp m (Follows X fuel a k pc.handler) s₁ := by
  have hnext {x : Exit Error Pc} {s' : State} (hrun : (m >>= fun v => pure (k v)) s₁ = (x, s')) :
      Leads X fuel a (pc.next x, s') := by
    refine hl.tail ⟨hpc, ?_⟩
    rw [hs, hrun]
  cases hm : m s₁ with
  | mk x s' =>
    refine wp_of_eq hm ?_
    cases x with
    | ok v => exact hnext (Prog.bind_ok _ hm)
    | err e => exact hnext (Prog.bind_err _ hm)
    | trap => exact hnext (Prog.bind_trap _ hm)
    | halt => exact ⟨_, hnext (Prog.bind_halt _ hm)⟩

theorem Follows.bind {m : MqttM α} {f : α → MqttM β} (hm : wp m (Follows X fuel a k h) s)
    (hf : ∀ v s', Leads X fuel a (k v, s') → wp (f v) (Follows X fuel a k' h) s') :
    wp (m >>= f) (Follows X fuel a k' h) s := by
  rw [wp_bind]
  refine wp_mono hm ?_
  intro x s' hx
  cases x with
  | ok v => exact hf v s' hx
  | err e => exact hx
  | trap => exact hx
  | halt => exact hx

theorem Follows.loop {body : MqttM (Unit ⊕ α)}
    (hbody : ∀ s, Leads X fuel a (pc, s) →
      wp body (Follows X fuel a (Sum.elim (fun _ => pc) k) h) s)
    (n : Nat) (hl : Leads X fuel a (pc, s)) :
    wp (Prog.loop (fun _ => body) n ()) (Follows X fuel a k h) s := by
  refine wp_loop_post (fun _ s => Leads X fuel a (pc, s)) (fun _ s hl => ?_)
    (fun _ s hl => ⟨pc, hl⟩) n () s hl
  refine wp_mono (hbody s hl) ?_
  intro x s' hx
  cases x with
  | ok r => cases r <;> exact hx
  | err e => exact hx
  | trap => exact hx
  | halt => exact hx

/-- The round of a loop, and where it leads to. -/
theorem round_eq {m : MqttM (Unit ⊕ Unit)} {p q : Pc} :
    (do match ← m with
        | .inl () => pure p
        | .inr () => pure q : MqttM Pc) =
      m >>= fun r => pure (Sum.elim (fun _ => p) (fun _ => q) r) := by
  show m >>= _ = m >>= _
  congr 1
  funext r
  cases r <;> rfl

theorem orIgnore_noErr {m : MqttM Unit} (s : State) :
    wp m.orIgnore (fun x _ => ∀ e, x ≠ .err e) s := by
  rw [wp_orIgnore]
  show catchPost _ _ (m s).1 (m s).2
  cases (m s).1 <;> simp [catchPost]

variable (pc) in
/-- A cleanup that is a step of its own. -/
theorem Follows.cleanup {d : MqttM Unit} {m : MqttM α} {h' : Error → Pc}
    (hd : wp d (Follows X fuel a (fun _ => pc) h') s) (hquiet : wp d (fun x _ => ∀ e, x ≠ .err e) s)
    (hm : ∀ s, Leads X fuel a (pc, s) → wp m (Follows X fuel a k h) s) :
    wp (d.orIgnore >>= fun _ => m) (Follows X fuel a k h) s := by
  rw [wp_bind, wp_orIgnore]
  cases hrun : d s with
  | mk x s' =>
    have hx := wp_of_run hd hrun
    refine wp_of_eq hrun ?_
    cases x with
    | ok u => exact hm s' hx
    | err e => exact absurd rfl (wp_of_run hquiet hrun e)
    | trap => exact hx
    | halt => exact hx

/-! ## `connect` and `disconnect` -/

theorem drain_follows {caller : Drain} (hl : Leads X fuel a (.drain caller, s)) :
    wp (processSendQueue X fuel) (Follows X fuel a (fun _ => caller.next) caller.handler) s := by
  refine Follows.loop (fun s hl => ?_) fuel hl
  exact hl.step rfl (congrFun round_eq s)

/-- The `errdefer` of `connect`. -/
theorem refused_follows {m : MqttM α} (hm : wp m (Follows X fuel a k .refused) s) :
    wp (Prog.errdeferring (do
      update fun s => { s with state := .err }
      connection.close.orIgnore) m) (Follows X fuel a k .lost) s := by
  unfold Prog.errdeferring
  rw [wp_bind, wp_attempt]
  refine wp_mono hm ?_
  intro x s' hx
  cases x with
  | ok v => exact hx
  | trap => exact hx
  | halt => exact hx
  | err e =>
    refine Follows.cleanup (.lost e)
      (hx.step rfl (congrFun (Prog.bind_assoc _ _ _).symm s')) ?_ fun _ hl => hl
    rw [wp_bind]
    exact orIgnore_noErr _

theorem connect_follows (hl : Leads X fuel a (.connect, s)) :
    wp (connect X fuel X.config_get_mqtt_url)
      (Follows X fuel a (fun _ => .retransmit) .lost) s := by
  refine refused_follows ?_
  refine Follows.bind (k := fun _ => .connectPacket) (hl.step rfl rfl) fun _ s hl => ?_
  refine Follows.bind (k := fun _ => .drain .connect) (hl.step rfl rfl) fun _ s hl => ?_
  refine Follows.bind (drain_follows hl) fun _ s hl => ?_
  refine Follows.bind (k := fun _ => .subscribe) (hl.step rfl rfl) fun _ s hl => ?_
  refine Follows.bind (k := fun packetId => .drain (.subscribe packetId)) (hl.step rfl rfl)
    fun packetId s hl => ?_
  refine Follows.bind (drain_follows hl) fun _ s hl => ?_
  exact hl.step rfl (congrFun (Prog.bind_assoc _ _ _).symm s)

/-- `disconnect` runs after an error. -/
theorem disconnect_follows {e : Error} (hl : Leads X fuel a (.disconnect e, s)) :
    wp (disconnect X fuel) (Follows X fuel a (fun _ => .lost e) fun _ => .lost e) s := by
  -- the `defer` of `disconnect`, and what the error path does behind it
  have hclose {s : State} {m : MqttM Unit} (hl : Leads X fuel a (.close e, s))
      (hm : ∀ s, Leads X fuel a (.lost e, s) →
        wp m (Follows X fuel a (fun _ => .lost e) fun _ => .lost e) s) :
      wp (Prog.orIgnore (do
          connection.close.orIgnore
          update fun s => { s with disconnectionCounter := s.disconnectionCounter + 1 })
        >>= fun _ => m) (Follows X fuel a (fun _ => .lost e) fun _ => .lost e) s := by
    refine Follows.cleanup (.lost e)
      (hl.step rfl (congrFun (Prog.bind_assoc _ _ _).symm s)) ?_ hm
    rw [wp_bind]
    refine wp_mono (orIgnore_noErr s) ?_
    intro x s' hx
    cases x with
    | ok u => exact fun e h => by cases h
    | err e => exact absurd rfl (hx e)
    | trap => exact fun e h => by cases h
    | halt => exact fun e h => by cases h
  have hbody : wp (do
      let _ ← prepareDisconnectPacket X
      processSendQueue X fuel) (Follows X fuel a (fun _ => .close e) fun _ => .close e)
      { s with srv := { s.srv with pingTimer := false, pubTimer := false } } :=
    Follows.bind (k := fun _ => .drain (.disconnect e)) (hl.step rfl rfl)
      fun _ s hl => drain_follows hl
  show wp (Prog.deferring _ (do
      let _ ← prepareDisconnectPacket X
      processSendQueue X fuel)) _
    { s with srv := { s.srv with pingTimer := false, pubTimer := false } }
  unfold Prog.deferring
  rw [wp_bind, wp_attempt]
  refine wp_mono hbody ?_
  intro x s' hx
  cases x with
  | ok u => exact hclose hx fun _ hl => hl
  | err e' => exact hclose hx fun _ hl => hl
  | trap => exact hx
  | halt => exact hx

/-! ## `loop` -/

theorem findAndRemove_ok (q : Queue) (packetId : UInt16) (s : State) :
    ∃ r s', QueuedMessgeQueue.findAndRemove q packetId s = (.ok r, s') := by
  unfold QueuedMessgeQueue.findAndRemove QueuedMessgeQueue.take
  rw [Prog.bind_ok _ (show service s = (.ok s.srv, s) from rfl)]
  generalize removeFirst _ (s.srv.queue q) = found
  cases found with
  | some r => exact ⟨_, _, rfl⟩
  | none => exact ⟨_, _, rfl⟩

/-- A packet that has been read is processed. -/
theorem dispatch_follows {m : Inbound} {s₁ : State} (hl : Leads X fuel a (.receive, s))
    (hs : taskStep X fuel .receive s = dispatchStep X fuel m s₁) :
    wp (dispatch X fuel m) (Follows X fuel a Flow.next .disconnect) s₁ := by
  have hother (heq : dispatchStep X fuel m = dispatch X fuel m >>= fun flow => pure flow.next) :
      wp (dispatch X fuel m) (Follows X fuel a Flow.next .disconnect) s₁ :=
    hl.step rfl (hs.trans (congrFun heq s₁))
  cases m with
  | publish fields =>
    show wp (onPublish X fuel fields) _ s₁
    unfold onPublish
    have hstep : taskStep X fuel .receive s = publishStep X fields s₁ := hs
    unfold publishStep at hstep
    cases hr : deserializePublish fields with
    | error e =>
      rw [hr] at hstep
      exact hl.step (m := Prog.throw e) (k := fun _ : Unit => .receive) rfl hstep
    | ok r =>
      have hstep' : taskStep X fuel .receive s = (answerPublish X r >>= fun packetId =>
          if r.qos = .qos1 then pure (.drain (.publish packetId r)) else do
            let flow ← deliver packetId r
            pure flow.next) s₁ := by
        rw [hr] at hstep
        exact hstep
      show wp (answerPublish X r >>= fun packetId => _) _ s₁
      by_cases hq : r.qos = .qos1
      · simp only [hq, if_true] at hstep' ⊢
        refine Follows.bind (k := fun packetId => .drain (.publish packetId r)) (hl.step rfl hstep')
          fun packetId s hl => ?_
        exact Follows.bind (drain_follows hl) fun _ s hl => hl.step rfl rfl
      · simp only [hq, if_false] at hstep' ⊢
        rw [← Prog.bind_assoc] at hstep'
        exact hl.step rfl hstep'
  | pubrel fields =>
    have hstep : taskStep X fuel .receive s = pubrelStep X fields s₁ := hs
    show wp (onPubrel X fuel fields) _ s₁
    unfold onPubrel
    unfold pubrelStep at hstep
    cases hr : deserializePubrel fields with
    | error e =>
      rw [hr] at hstep
      exact hl.step (m := Prog.throw e) (k := fun _ : Unit => .receive) rfl hstep
    | ok packetId =>
      rw [hr] at hstep
      obtain ⟨r, s₂, hfound⟩ := findAndRemove_ok .qos2Queue packetId s₁
      show wp (QueuedMessgeQueue.findAndRemove .qos2Queue packetId >>= fun _ => _) _ s₁
      refine wp_of_same (Prog.bind_ok _ hfound) ?_
      have hstep' : taskStep X fuel .receive s = _ := hstep.trans
        (Prog.bind_ok (m := QueuedMessgeQueue.findAndRemove .qos2Queue packetId) _ hfound)
      cases r with
      | some msg =>
        refine Follows.bind (k := fun _ => .drain (.pubrel packetId msg)) (hl.step rfl hstep')
          fun _ s hl => ?_
        refine Follows.bind (drain_follows hl) fun _ s hl => ?_
        exact Follows.bind (k := fun _ => .receive) (hl.step rfl rfl) fun _ s hl => hl
      | none => exact hl.step (m := pure Flow.again) (k := Flow.next) rfl hstep'
  | _ => exact hother rfl

theorem receive_follows (hl : Leads X fuel a (.receive, s)) :
    wp (receive X fuel)
      (Follows X fuel a (Sum.elim (fun _ => .receive) fun _ => .retransmit) .disconnect) s := by
  have hwait : ∃ b s', (connection.waitRx 1).tryCatch (fun _ => pure false) s = (.ok b, s') := by
    unfold Prog.tryCatch connection.waitRx
    cases s.env.waitRx 0 with
    | some b => exact ⟨_, _, rfl⟩
    | none => exact ⟨_, _, rfl⟩
  obtain ⟨b, s₁, hwait⟩ := hwait
  refine wp_of_same (Prog.bind_ok _ hwait) ?_
  have hstep : taskStep X fuel .receive s = _ := Prog.bind_ok _ hwait
  cases b with
  | false =>
    exact hl.step (m := pure (.inr ()))
      (k := Sum.elim (fun _ : Unit => .receive) fun _ : Unit => .retransmit) rfl hstep
  | true =>
    refine Follows.bind (k := Flow.next) (dispatch_follows hl hstep) fun flow s hl => ?_
    cases flow with
    | again => exact hl
    | «break» => exact hl

/-- One round of the `while (true)` loop. -/
theorem cycle_follows (hl : Leads X fuel a (.retransmit, s)) :
    wp (cycle X fuel) (Follows X fuel a (fun _ => .retransmit) .disconnect) s := by
  refine Follows.bind (k := fun _ => .expire) (Follows.loop (fun s hl => ?_) fuel hl)
    fun _ s hl => ?_
  · exact hl.step rfl (congrFun round_eq s)
  refine Follows.bind (k := fun _ => .drain .cycle) (Follows.loop (fun s hl => ?_) fuel hl)
    fun _ s hl => ?_
  · exact hl.step rfl (congrFun round_eq s)
  refine Follows.bind (drain_follows hl) fun _ s hl => ?_
  exact Follows.loop (fun s hl => receive_follows hl) fuel hl

/-- The steps have followed a program that does not return. -/
def Runs (X : Externs) (fuel : Nat) (a : Pc × State) (h : Error → Pc) :
    Exit Error Unit → State → Prop
  | .ok _, _ => False
  | .err e, s => Leads X fuel a (h e, s)
  | .trap, s => Leads X fuel a (.trapped, s)
  | .halt, s => ∃ pc, Leads X fuel a (pc, s)

theorem loop_follows (hl : Leads X fuel a (.connect, s)) :
    wp (loop X fuel X.config_get_mqtt_url) (Runs X fuel a .lost) s := by
  unfold Mqtt.loop
  rw [wp_bind]
  refine wp_mono (connect_follows hl) ?_
  intro x s hx
  cases x with
  | err e => exact hx
  | trap => exact hx
  | halt => exact hx
  | ok u =>
    have hloop : wp (Prog.loop (fun _ => do
        cycle X fuel
        pure (.inl ()) : Unit → MqttM (Unit ⊕ Unit)) fuel ()) (Runs X fuel a .disconnect) s := by
      refine wp_loop_post (fun _ s => Leads X fuel a (.retransmit, s)) (fun _ s hl => ?_)
        (fun _ s hl => ⟨_, hl⟩) fuel () s hx
      rw [wp_bind]
      refine wp_mono (cycle_follows hl) ?_
      intro x s' hx
      cases x with
      | ok u => exact hx
      | err e => exact hx
      | trap => exact hx
      | halt => exact hx
    rw [thenPost_ok]
    unfold Prog.deferring
    rw [wp_bind, wp_attempt]
    refine wp_mono hloop ?_
    intro x s hx
    cases x with
    | ok u => exact hx.elim
    | trap => exact hx
    | halt => exact hx
    | err e =>
      rw [unionPost_err, thenPost_ok, wp_bind, wp_orIgnore]
      refine wp_mono (disconnect_follows hx) ?_
      intro x s hx
      cases x with
      | ok u => exact hx
      | err e => exact hx
      | trap => exact hx
      | halt => exact hx

/-- The steps have followed a program that does not come to an end. -/
def Lasts (X : Externs) (fuel : Nat) (a : Pc × State) : Exit Error Unit → State → Prop
  | .ok _, _ => False
  | .err _, _ => False
  | .trap, s => Leads X fuel a (.trapped, s)
  | .halt, s => ∃ pc, Leads X fuel a (pc, s)

/-- **Whatever `taskFunction` does, its steps do**, and it does not come to an end. -/
theorem taskFunction_follows (s : State) :
    wp (taskFunction X fuel) (Lasts X fuel (.start, s)) s := by
  have hconnect : Leads X fuel (.start, s) (.connect, { s with srv := { s.srv with
      connectionCounter := 0, disconnectionCounter := 0, pingCounter := 0, pingQueue := none } }) :=
    Relation.ReflTransGen.single ⟨rfl, rfl⟩
  refine wp_loop_post (fun _ s' => Leads X fuel (.start, s) (.connect, s')) (fun _ s' hl => ?_)
    (fun _ s' hl => ⟨_, hl⟩) fuel () _ hconnect
  rw [wp_bind, wp_attempt]
  refine wp_mono (loop_follows hl) ?_
  intro x s' hx
  cases x with
  | ok u => exact hx.elim
  | trap => exact hx
  | halt => exact hx
  | err e =>
    -- the `catch` of `taskFunction` and the next round
    have hnext {s₁ : State} (hs : taskStep X fuel (.lost e) s' = (.ok .connect, s₁)) :
        Leads X fuel (.start, s) (.connect, s₁) := by
      refine hx.tail ⟨rfl, ?_⟩
      rw [hs]
      rfl
    rw [unionPost_err, thenPost_ok]
    by_cases he : e = .create_error
    · simp only [he, if_true]
      exact hnext (congrFun (if_pos he) s')
    · simp only [he, if_false]
      exact hnext (congrFun (if_neg he) s')

/-- Steps of the task are steps of the system. -/
theorem Leads.reaches {b : Pc × State} (hl : Leads X fuel a b) :
    (mqtt X).Reaches System.Free ⟨a.1, a.2.srv, a.2.link⟩ ⟨b.1, b.2.srv, b.2.link⟩ := by
  induction hl with
  | refl => exact .refl
  | @tail b c _ hstep ih =>
    obtain ⟨hlive, rfl⟩ := hstep
    refine ih.tail ⟨.task ⟨b.2.env, b.2.link.code, b.2.link.auth, fuel⟩, ?_, trivial, rfl⟩
    obtain ⟨pc, s⟩ := b
    constructor
    · rintro rfl
      cases hlive
    · rintro rfl
      cases hlive

end Follows

/-- **A run of `taskFunction` is a run of the system.**  It does not come to an end; the service and
the connection it leaves are those of a state that the system reaches, after a trap in `trapped`. -/
theorem taskFunction_reaches (X : Externs) (fuel : Nat) (s : State) :
    wp (taskFunction X fuel) (fun x s' => ∃ pc, (x = .trap ∧ pc = .trapped ∨ x = .halt) ∧
      (mqtt X).Reaches System.Free ⟨.start, s.srv, s.link⟩ ⟨pc, s'.srv, s'.link⟩) s := by
  refine wp_mono (taskFunction_follows s) ?_
  intro x s' hx
  cases x with
  | ok u => exact hx.elim
  | err e => exact hx.elim
  | trap => exact ⟨.trapped, .inl ⟨rfl, rfl⟩, hx.reaches⟩
  | halt =>
    obtain ⟨pc, hl⟩ := hx
    exact ⟨pc, .inr rfl, hl.reaches⟩

end Miso.Mqtt
