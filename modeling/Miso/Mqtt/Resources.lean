import Miso.Mqtt.Errors
import Miso.Net.Opening
import Miso.Net.Writes

/-!
# The context and the socket

What the connection of the service holds, over any number of sessions.

* `Accounted` — nothing between the sessions, one context and one socket in a session;
* `released_once` — they are released once each, if no `connection.open` fails.

An `open` that fails has taken back what it has made, and the `errdefer` of `connect` is armed
before it.
-/

namespace Miso.Mqtt

open Zig Net

/-! ## The property -/

/-- No connection is open at `pc`. -/
def Pc.between : Pc → Bool
  | start => true
  | connect => true
  | lost _ => true
  | _ => false

/-- A connection is open at `pc`. -/
def Pc.session : Pc → Bool
  | halted => false
  | trapped => false
  | pc => !pc.between

/-- The context and the sockets are released once each. -/
structure ReleasedOnce (s : Sys) : Prop where
  /-- `messup` and `cleanup` take turns. -/
  alternate : Ledger.Alternate .tls false (Ledger.movesOf .tls (moves s.link.log))
  /-- A socket that is closed has been opened, and has not been closed since. -/
  close : ∀ sd before after, moves s.link.log = before ++ .release (.socket sd) :: after →
    before.count (.acquire (.socket sd)) = before.count (.release (.socket sd)) + 1
  /-- Between the sessions every socket has been closed as often as it has been opened. -/
  closed : s.pc.between = true → ∀ sd,
    (moves s.link.log).count (.release (.socket sd)) =
      (moves s.link.log).count (.acquire (.socket sd))

/-! ## The invariant -/

/-- What the calls so far have left is what the connection holds at `pc`; a task that has stopped
    may be in the middle of them. -/
structure Accounted (pc : Pc) (l : Link) (held : List Resource) : Prop where
  holds : Ledger.Holds (moves l.log) held
  between : pc.between = true → held = []
  session : pc.session = true → held = [.socket l.sd, .tls]

theorem Accounted.releasedOnce {s : Sys} {held : List Resource}
    (h : Accounted s.pc s.link held) : ReleasedOnce s := by
  have hreplay := h.holds.replay
  refine ⟨?_, fun sd before after hsplit => Ledger.replay_release hreplay hsplit, ?_⟩
  · have halternate := Ledger.replay_alternates .tls hreplay
    simpa using halternate
  · intro hbetween sd
    rw [h.between hbetween] at hreplay
    exact Ledger.replay_balanced _ hreplay

/-- The calls below go on with the same log and socket. -/
theorem Accounted.frame {pc pc' : Pc} {l l' : Link} {held : List Resource}
    (h : Accounted pc l held) (hlog : l'.log = l.log) (hsd : l'.sd = l.sd)
    (hbetween : pc'.between = true → pc.between = true)
    (hsession : pc'.session = true → pc.session = true) : Accounted pc' l' held := by
  refine ⟨hlog ▸ h.holds, fun hpc => h.between (hbetween hpc), fun hpc => ?_⟩
  rw [hsd]
  exact h.session (hsession hpc)

/-- Sending does not open or close anything. -/
theorem send_tls_keeps (fuel len : Nat) :
    Keeps (fun l l' : Link => (l'.log, l'.sd) = (l.log, l.sd)) (TlsContext.send_tls fuel len) := by
  have hframe : Frame fun l l' : Link => (l'.log, l'.sd) = (l.log, l.sd) :=
    Frame.proj fun l : Link => (l.log, l.sd)
  rw [send_tls_eq]
  apply Keeps.bind hframe
  · apply Keeps.loop hframe
    intro v
    refine .ite _ ?_ (.pure hframe _)
    apply Keeps.bind hframe (fun s => rfl)
    intro num_bytes
    exact .ite _ (.pure hframe _) (.ite _ (.pure hframe _) (.pure hframe _))
  · intro r
    exact .ite _ (.pure hframe _) (.throw hframe _)

section Steps

variable {X : Externs} {ok : Os → Nat → Bool} {e : Env} {fuel : Nat} {l l' : Link} {pc : Pc}
  {s s' : Service} {x : Exit Error Pc} {held : List Resource}

theorem send_tls_same {len : Nat} {y : Exit Error Nat}
    (h : TlsContext.send_tls fuel len l = (y, l')) : l'.log = l.log ∧ l'.sd = l.sd := by
  have hkeeps := send_tls_keeps fuel len l
  rw [h] at hkeeps
  injection hkeeps with hlog hsd
  exact ⟨hlog, hsd⟩

/-- The other steps leave the connection alone. -/
theorem Taken.same_link (h : Taken X e fuel l pc s x s' l') (hconnect : pc ≠ .connect)
    (hrefused : ∀ err, pc ≠ .refused err) (hclose : ∀ err, pc ≠ .close err) :
    l'.log = l.log ∧ l'.sd = l.sd := by
  cases h with
  | opened => exact absurd rfl hconnect
  | openFailed => exact absurd rfl hconnect
  | openTrap => exact absurd rfl hconnect
  | openHalt => exact absurd rfl hconnect
  | refused err => exact absurd rfl (hrefused err)
  | close err => exact absurd rfl (hclose err)
  | sent _ _ _ _ _ _ _ hsend => exact send_tls_same hsend
  | sendFailed _ _ _ _ _ _ _ hsend => exact send_tls_same hsend
  | sendTrap _ _ _ _ _ _ hsend => exact send_tls_same hsend
  | sendHalt _ _ _ _ _ _ hsend => exact send_tls_same hsend
  | _ => exact ⟨rfl, rfl⟩

theorem Delivered.ok_session {packetId : UInt16} {r : publish_response} {pc' : Pc}
    (h : Delivered ok s packetId r (.ok pc') s') : pc'.between = false := by
  cases h <;> rfl

theorem Received.ok_session {m : Inbound} {pc' : Pc} (h : Received X ok s m (.ok pc') s') :
    pc'.between = false := by
  generalize hx : (Exit.ok pc' : Exit Error Pc) = x at h
  cases h with
  | publish0 _ _ _ _ _ _ hdel =>
    subst hx
    exact hdel.ok_session
  | publish2 _ _ _ _ _ _ _ hdel =>
    subst hx
    exact hdel.ok_session
  | pubrec _ _ _ x =>
    rw [Exit.as_ok hx.symm]
    rfl
  | _ => cases hx <;> rfl

theorem Taken.ok_session {pc' : Pc} (h : Taken X e fuel l pc s (.ok pc') s' l')
    (hpc : pc.session = true) (hrefused : ∀ err, pc ≠ .refused err)
    (hclose : ∀ err, pc ≠ .close err) : pc'.between = false := by
  generalize hx : (Exit.ok pc' : Exit Error Pc) = x at h
  cases h with
  | start => cases hpc
  | opened => cases hpc
  | lost => cases hpc
  | lostReset => cases hpc
  | refused err => exact absurd rfl (hrefused err)
  | close err => exact absurd rfl (hclose err)
  | connectPacket _ x =>
    rw [Exit.as_ok hx.symm]
    rfl
  | subscribe _ x =>
    rw [Exit.as_ok hx.symm]
    rfl
  | retransmit _ _ _ _ _ x =>
    rw [Exit.as_ok hx.symm]
    rfl
  | retransmitPubrel _ _ _ x =>
    rw [Exit.as_ok hx.symm]
    rfl
  | disconnect _ _ x =>
    rw [Exit.as_ok hx.symm]
    rfl
  | received _ _ _ _ hrec =>
    subst hx
    exact hrec.ok_session
  | deliver _ _ _ _ _ hdel =>
    subst hx
    exact hdel.ok_session
  | drained caller =>
    cases hx
    cases caller <;> rfl
  | _ => cases hx <;> rfl

/-- A session goes on, or the task stops in it. -/
theorem Taken.session (h : Taken X e fuel l pc s x s' l') (hpc : pc.session = true)
    (hrefused : ∀ err, pc ≠ .refused err) (hclose : ∀ err, pc ≠ .close err) :
    (pc.next x).between = false := by
  cases x with
  | ok pc' => exact h.ok_session hpc hrefused hclose
  | trap => rfl
  | halt => rfl
  | err err =>
    show (pc.handler err).between = false
    cases pc with
    | refused err' => exact absurd rfl (hrefused err')
    | close err' => exact absurd rfl (hclose err')
    | drain caller => cases caller <;> rfl
    | start => cases hpc
    | connect => cases hpc
    | lost => cases hpc
    | _ => rfl

/-- Closing releases the socket and the context. -/
theorem Accounted.closed {pc' : Pc} {y : Exit Error Unit} (h : Accounted pc l held)
    (hpc : pc.session = true) (hclose : TlsContext.close l = (y, l'))
    (hnext : pc'.session = false) : Accounted pc' l' [] := by
  rw [TlsContext.close_run] at hclose
  injection hclose with _ hl
  subst hl
  refine ⟨?_, fun _ => rfl, fun hs => ?_⟩
  · have hholds := h.holds
    rw [h.session hpc] at hholds
    show Ledger.Holds (moves (l.log ++ [.sl_Close l.sd] ++ [.cleanup])) []
    rw [moves_append, moves_append]
    exact hholds.release.release
  · rw [hnext] at hs
    cases hs

/-- `connection.open` begins with nothing. -/
theorem Accounted.opened {y : Exit Error Unit} {pc' : Pc} (h : Accounted .connect l held)
    (hl : Unrefused connectionType X.config_get_mqtt_url l)
    (hopen : TlsContext.open fuel connectionType X.config_get_mqtt_url l = (y, l'))
    (hbetween : pc'.between = false) (hsession : pc'.session = true → y = .ok ()) :
    ∃ held', Accounted pc' l' held' := by
  obtain ⟨-, es, held', hlog, hholds, hok⟩ := wp_of_run (hl.open_run fuel) hopen
  refine ⟨held', ?_, fun hpc => ?_, fun hpc => hok (hsession hpc)⟩
  · have hbefore := h.holds
    rw [h.between rfl] at hbefore
    rw [hlog, moves_append]
    exact hbefore.next hholds
  · rw [hbetween] at hpc
    cases hpc

/-- The steps within a session, and out of one that is over. -/
theorem Taken.accounted_session (h : Taken X e fuel l pc s x s' l') (hs : Accounted pc l held)
    (hpc : pc.session = true) (hrefused : ∀ err, pc ≠ .refused err)
    (hclose : ∀ err, pc ≠ .close err) : Accounted (pc.next x) l' held := by
  have hconnect : pc ≠ .connect := by
    rintro rfl
    cases hpc
  obtain ⟨hlog, hsd⟩ := h.same_link hconnect hrefused hclose
  have hnext := h.session hpc hrefused hclose
  refine hs.frame hlog hsd (fun hbetween => ?_) fun _ => hpc
  rw [hnext] at hbetween
  cases hbetween

theorem Taken.accounted (h : Taken X e fuel l pc s x s' l') (hs : Accounted pc l held)
    (hl : pc = .connect → Unrefused connectionType X.config_get_mqtt_url l) :
    ∃ held', Accounted (pc.next x) l' held' := by
  cases pc with
  | connect =>
    cases h with
    | opened _ _ hopen => exact hs.opened (hl rfl) hopen rfl fun _ => rfl
    | openFailed _ err _ hopen =>
      obtain ⟨hnone, -⟩ := wp_of_run ((hl rfl).open_run fuel) hopen
      exact absurd rfl (hnone err)
    | openTrap _ _ hopen => exact hs.opened (hl rfl) hopen rfl fun hpc => by cases hpc
    | openHalt _ _ hopen => exact hs.opened (hl rfl) hopen rfl fun hpc => by cases hpc
  | refused err =>
    cases h with
    | refused _ _ _ _ hclose => exact ⟨[], hs.closed rfl hclose rfl⟩
  | close err =>
    cases h with
    | close _ _ _ _ hclose => exact ⟨[], hs.closed rfl hclose rfl⟩
  | start =>
    cases h with
    | start => exact ⟨held, hs.frame rfl rfl (fun _ => rfl) fun hpc => hpc⟩
  | lost err =>
    cases h with
    | lost => exact ⟨held, hs.frame rfl rfl (fun _ => rfl) fun hpc => hpc⟩
    | lostReset => exact ⟨held, hs.frame rfl rfl (fun _ => rfl) fun hpc => hpc⟩
  | halted =>
    cases h with
    | halted => exact ⟨held, hs⟩
  | trapped =>
    cases h with
    | trapped => exact ⟨held, hs⟩
  | _ =>
    refine ⟨held, h.accounted_session hs rfl ?_ ?_⟩
    · exact fun err heq => by cases heq
    · exact fun err heq => by cases heq

end Steps

/-! ## Runs -/

/-- No `connection.open` fails. -/
def Dials (X : Externs) (s : Sys) : Input → Prop
  | .task a => s.pc = .connect → Unrefused connectionType X.config_get_mqtt_url (s.start a).link
  | _ => True

/-- A callback leaves the connection alone. -/
theorem Moved.same_link {X : Externs} {s s' : Sys} {i : Input} (h : Moved X s i s')
    (hi : ∀ a, i ≠ .task a) : s'.link = s.link ∧ (s'.pc = s.pc ∨ s'.pc = .trapped) := by
  cases h with
  | task a => exact absurd rfl (hi a)
  | pingFull => exact ⟨rfl, .inr rfl⟩
  | job _ _ x =>
    cases x with
    | trap => exact ⟨rfl, .inr rfl⟩
    | _ => exact ⟨rfl, .inl rfl⟩
  | resumed _ _ x =>
    cases x with
    | trap => exact ⟨rfl, .inr rfl⟩
    | _ => exact ⟨rfl, .inl rfl⟩
  | _ => exact ⟨rfl, .inl rfl⟩

/-- **The resources are released once each** in every run in which no `connection.open` fails. -/
theorem released_once (X : Externs) {s₀ s : Sys} (h₀ : Initial s₀)
    (h : (mqtt X).Reaches (Dials X) s₀ s) : ReleasedOnce s := by
  have hinv : ∃ held, Accounted s.pc s.link held := by
    apply h.invariant (I := fun s => ∃ held, Accounted s.pc s.link held)
    · refine ⟨[], ?_, fun _ => rfl, ?_⟩
      · rw [h₀.link]
        exact Ledger.Holds.nil
      · rw [h₀.pc]
        exact fun hpc => by cases hpc
    · rintro s i ⟨held, hs⟩ _ hC
      have hmoved := next_moved X s i
      show ∃ held, Accounted (s.next X i).pc (s.next X i).link held
      generalize s.next X i = s' at hmoved
      by_cases hi : ∀ a, i ≠ .task a
      · obtain ⟨hlink, hpc | hpc⟩ := hmoved.same_link hi
        · rw [hpc, hlink]
          exact ⟨held, hs⟩
        · rw [hpc, hlink]
          refine ⟨held, hs.holds, ?_, ?_⟩
          · exact fun hbetween => by cases hbetween
          · exact fun hsession => by cases hsession
      · push Not at hi
        obtain ⟨a, rfl⟩ := hi
        cases hmoved with
        | task a x srv' link' htaken =>
          have hstart : Accounted s.pc (s.start a).link held :=
            ⟨hs.holds, hs.between, hs.session⟩
          exact htaken.accounted hstart hC
  obtain ⟨held, hheld⟩ := hinv
  exact hheld.releasedOnce

theorem smooth_unrefused (m : Option Inbound) (written : Int) (s : Sys) :
    Unrefused connectionType Externs.documented.config_get_mqtt_url
      (s.start (.smooth m written)).link := by
  intro scheme h
  obtain rfl : scheme = .mqtts := by
    cases h
    rfl
  refine ⟨by decide, ⟨rfl, rfl, .inl rfl, .inl rfl, fun _ => rfl, rfl, rfl, fun _ => rfl,
    fun _ => rfl⟩, fun _ hrefuses => ?_⟩
  obtain hdns | hsocket | ⟨k, -, hneg⟩ := hrefuses
  · exact absurd hdns (Int.lt_irrefl 0)
  · exact absurd hsocket (Int.lt_irrefl 0)
  · exact absurd hneg (Int.lt_irrefl 0)

/-- A session that ends with a packet that cannot be parsed, and the next `connection.open`. -/
def Input.twice : List Input :=
  established ++ rounds ++ [receive (.puback none), go, send 2, go, go, go, go]

theorem released_once_twice :
    ReleasedOnce ((mqtt .documented).run Sys.initial Input.twice) ∧
      moves ((mqtt .documented).run Sys.initial Input.twice).link.log =
        [.acquire .tls, .acquire (.socket 0), .release (.socket 0), .release .tls,
          .acquire .tls, .acquire (.socket 0)] := by
  have hsmooth : Input.twice = ([(none, 0), (none, 0), (none, 0), (none, 18), (none, 0),
      (some (.connack (some 0)), 0), (none, 0), (none, 24), (none, 0),
      (some (.suback (some (33153, [1, 2]))), 0), (none, 0), (none, 0), (none, 0),
      (some (.puback none), 0), (none, 0), (none, 2), (none, 0), (none, 0), (none, 0),
      (none, 0)] : List (Option Inbound × Int)).map fun p => .task (.smooth p.1 p.2) := rfl
  refine ⟨released_once .documented Sys.initial_initial (System.reaches_run ?_), by decide +kernel⟩
  apply System.Allows.of_inputs (D := System.Free) (by decide +kernel)
  intro i hi s
  rw [hsmooth] at hi
  obtain ⟨p, -, rfl⟩ := List.mem_map.mp hi
  exact fun _ => smooth_unrefused p.1 p.2 s

/-- The host name cannot be resolved. -/
def Answers.unresolved : Answers :=
  { smooth none 0 with code := fun a _ => if a = .sl_NetAppDnsGetHostByName then -161 else 0 }

/-- A `connection.open` that fails is cleaned up twice. -/
theorem released_twice : ¬∀ (X : Externs) (s₀ s : Sys), Initial s₀ →
    (mqtt X).Reaches System.Free s₀ s → ReleasedOnce s := by
  intro h
  have hreach : (mqtt .documented).Reaches System.Free Sys.initial
      ((mqtt .documented).run Sys.initial [.go, .task .unresolved, .go]) :=
    System.reaches_run (by decide +kernel)
  have hclose := (h .documented Sys.initial _ Sys.initial_initial hreach).close (-1)
    [.acquire .tls, .release .tls] [.release .tls] (by decide +kernel)
  exact absurd hclose (by decide)

end Miso.Mqtt
