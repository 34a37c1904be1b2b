import Miso.Http.Download
import Miso.Zig.Fuel

/-!
# When a download comes to an end

No loop of the download has a bound of its own.

* `Event.stall` — what can go on for ever: a wait that times out, a range that begins behind the
  file pointer or before it, a write that comes short;
* `filedownload_cost` — a download that is cut off has stalled for as long as its fuel has lasted;
* `returns_iff` — a download comes to an end exactly if there is a bound on its stalls.
-/

namespace Miso.Net

/-- `sl_Connect` asks for another call less than `C` times in a row. -/
def Link.Settles (C : Nat) (l : Link) : Prop :=
  ∀ k, ∃ j, j < C ∧ ¬Connecting (l.code .sl_Connect (k + j))

end Miso.Net

namespace Miso.Http

open Zig Net Boot

/-- Nothing that brings the download nearer to its end. -/
def Event.stall : Event → Bool
  | .timeout | .rewound | .sought _ _ | .short => true
  | _ => false

def State.stalls (s : State) : Nat := s.log.countP Event.stall

/-- The download comes to an end: more fuel does not change how it ends. -/
def Returns (X : Externs) (url : Except Error Url) (block_size max_file_size : Nat) (s : State) :
    Prop :=
  ∃ n, ∀ fuel, n ≤ fuel → (filedownload X fuel url block_size max_file_size s).1 ≠ .halt

/-! ## The connection -/

section Link

variable {C : Nat} {l : Link}

theorem settles_advance (h : l.Settles C) (a : Api) : (l.advance a).Settles C := by
  intro k
  by_cases ha : a = .sl_Connect
  · subst ha
    obtain ⟨j, hj, hstop⟩ := h (k + 1)
    refine ⟨j, hj, ?_⟩
    rw [Nat.add_right_comm] at hstop
    rw [Link.advance_code_self]
    exact hstop
  · rw [l.advance_code_ne (Ne.symm ha)]
    exact h k

theorem settles_advances (h : l.Settles C) (a : Api) (k : Nat) : (l.advances a k).Settles C := by
  induction k generalizing l with
  | zero => exact h
  | succ k ih => exact ih (settles_advance h a)

/-- No cut, as long as the driver settles. -/
abbrev Quick (C : Nat) {α : Type} (m : NetM α) : Prop := HaltsAfter (Link.Settles C) (fun _ => 0) 1 m

theorem call_quick (a : Api) : Quick C (call a) :=
  .of_keeps fun _ => ⟨nofun, fun h => settles_advance h a, Nat.le_refl 0⟩

theorem close_quick : Quick C SimpleLinkConnection.close := by
  apply HaltsAfter.of_keeps
  intro l
  rw [Net.close_run]
  refine ⟨?_, fun h => ?_, Nat.le_refl 0⟩
  · split
    · exact nofun
    · exact nofun
  · exact @settles_advance C (l.record [.sl_Close l.sd]) h .sl_Close

theorem socket_quick : Quick C (SimpleLinkConnection.socket .tcp_ip4) := by
  apply HaltsAfter.of_keeps
  intro l
  rw [socket_run]
  refine ⟨?_, fun h => ?_, Nat.le_refl 0⟩
  · split
    · exact nofun
    · exact nofun
  · exact settles_advance h .sl_Socket

theorem connect_quick {fuel : Nat} (hfuel : C ≤ fuel) :
    Quick C (SimpleLinkConnection.connect fuel) := by
  intro l hl
  rcases @stops_or_again Connecting _ (l.code .sl_Connect) fuel with ⟨k, hk, hstop⟩ | hall
  · obtain ⟨n, rfl⟩ : ∃ n, fuel = k + 1 + n := ⟨fuel - (k + 1), by omega⟩
    rw [connect_stops hstop n]
    refine ⟨settles_advances hl .sl_Connect (k + 1), Nat.le_refl 0, fun hx => ?_⟩
    split at hx
    · cases hx
    · cases hx
  · obtain ⟨j, hj, hstop⟩ := hl 0
    rw [Nat.zero_add] at hstop
    exact absurd (hall j (by omega)) hstop

theorem open_quick {fuel : Nat} (hfuel : C ≤ fuel) (uri : Uri) :
    Quick C (SimpleLinkConnection.open fuel .tcp_ip4 uri) := by
  unfold SimpleLinkConnection.open
  split
  · apply (call_quick _).bind
    intro dns
    have hrest := socket_quick.bind fun _ => close_quick.errdeferring (connect_quick hfuel)
    by_cases hdns : dns < 0
    · simp only [hdns, if_true]
      exact (HaltsAfter.throw _).bind fun _ => hrest
    · simp only [hdns, if_false]
      exact (HaltsAfter.pure ()).bind fun _ => hrest
  · exact .trap

end Link

/-! ## What a stall costs -/

section Costs

variable {C c : Nat}

theorem stalls_le {s s' : State} (h : Extends s s') : s.stalls ≤ s'.stalls := by
  obtain ⟨es, hes⟩ := h
  unfold State.stalls
  rw [hes, List.countP_append]
  omega

/-- A cut costs `c` stalls, as long as the driver settles. -/
abbrev Costs (C c : Nat) {α : Type} (m : HttpM α) : Prop :=
  HaltsAfter (fun s => s.link.Settles C) State.stalls c m

/-- A call that returns, and has nothing to do with the connection. -/
theorem Costs.of_spec {α : Type} {m : HttpM α}
    (h : ∀ s, wp m (fun x s' => x ≠ .halt ∧ s'.link = s.link ∧ Extends s s') s) :
    Costs C c m := by
  apply HaltsAfter.of_keeps
  intro s
  obtain ⟨hx, hlink, hextends⟩ := h s
  refine ⟨hx, fun hs => ?_, stalls_le hextends⟩
  rw [hlink]
  exact hs

theorem record_costs (l : List Event) : Costs C c (record l) :=
  .of_spec fun _ => ⟨nofun, rfl, l, rfl⟩

theorem onLink_costs {α : Type} {m : NetM α} (hm : Quick C m) : Costs C c (onLink m) := by
  intro s hs
  obtain ⟨hI, -, hhalt⟩ := hm s.link hs
  unfold onLink Prog.zoom Prog.mapErr
  cases hrun : m s.link with
  | mk x l =>
    rw [hrun] at hI hhalt
    cases x with
    | halt => exact absurd (hhalt rfl) (by simp)
    | _ => exact ⟨hI, Nat.le_refl _, nofun⟩

theorem close_costs : Costs C c connection.close :=
  (record_costs _).bind fun _ => onLink_costs close_quick

theorem open_costs {fuel : Nat} (hfuel : C ≤ fuel) (uri : Uri) :
    Costs C c (connection.open fuel uri) :=
  (onLink_costs (open_quick hfuel uri)).bind fun _ => record_costs _

theorem check_costs (a : Fs) : Costs C c (file.check a) := by
  apply Costs.of_spec
  intro s
  apply wp_mono (check_spec s a)
  intro x s' hx
  obtain ⟨⟨-, hlog, hlink⟩, hx⟩ := hx
  refine ⟨?_, hlink, [], hlog.trans (List.append_nil _).symm⟩
  rcases hx with rfl | ⟨e, rfl⟩
  · exact nofun
  · exact nofun

theorem modify_costs {f : State → State} (hf : ∀ s, (f s).link = s.link ∧ (f s).log = s.log) :
    Costs C c (Prog.modify f : HttpM Unit) :=
  .of_spec fun s => ⟨nofun, (hf s).1, [], (hf s).2.trans (List.append_nil _).symm⟩

theorem file_open_costs : Costs C c file.open :=
  (check_costs _).bind fun _ => modify_costs fun _ => ⟨rfl, rfl⟩

theorem lseek_costs (offset : Nat) : Costs C c (file.lseek offset) :=
  (check_costs _).bind fun _ => modify_costs fun _ => ⟨rfl, rfl⟩

theorem tell_costs : Costs C c file.tell :=
  .of_spec fun s => ⟨nofun, rfl, .refl s⟩

theorem store_costs (payload : List UInt8) : Costs C c (store payload) := by
  apply Costs.of_spec
  intro s
  apply wp_mono (store_spec s payload)
  intro x s' hx
  obtain ⟨n, ⟨hlog, hlink⟩, hx⟩ := hx
  refine ⟨?_, hlink, _, hlog⟩
  rcases hx with ⟨rfl, -⟩ | ⟨e, rfl⟩
  · exact nofun
  · exact nofun

theorem send_costs (request : String) : Costs C c (connection.send request) := by
  apply Costs.of_spec
  intro s
  apply wp_mono (send_spec s request)
  intro x s' hx
  obtain ⟨⟨-, hlink⟩, hlog, hx⟩ := hx
  refine ⟨?_, hlink, _, hlog⟩
  rcases hx with rfl | ⟨e, rfl⟩
  · exact nofun
  · exact nofun

theorem host_costs (url : Url) : Costs C c url.host := by
  unfold Url.host
  split
  · exact .pure _
  · exact .trap

theorem print_send_costs (text : String) : Costs C c (bufPrint text >>= connection.send) :=
  (HaltsAfter.ite _ (.pure _) (.throw _)).bind send_costs

theorem reconnect_costs {fuel : Nat} (hfuel : C ≤ fuel) (url : Url) (p : parsedResponse) :
    Costs C c (reconnect fuel url p) := by
  unfold reconnect
  split
  · exact close_costs.bind fun _ => open_costs hfuel _
  · exact .pure ()

theorem storeRange_costs {fuel : Nat} (hfuel : C ≤ fuel) (url : Url) (p : parsedResponse) :
    Costs C c (storeRange fuel url p) := by
  unfold storeRange
  apply HaltsAfter.ite
  · split
    · exact .trap
    · apply tell_costs.bind
      intro position
      apply HaltsAfter.ite
      · exact (lseek_costs 0).bind fun _ => (check_costs _).bind fun _ =>
          (record_costs _).bind fun _ => .pure _
      · apply (HaltsAfter.ite _ ((lseek_costs _).bind fun _ => record_costs _) (.pure _)).bind
        intro _
        split
        · exact .trap
        · exact (store_costs _).bind fun _ => (reconnect_costs hfuel url p).bind fun _ => .pure _
  · exact .throw _

/-! ### The responses -/

variable {X : Externs}

/-- A round of `recieveResponse` waits, or there is less room for more. -/
theorem receiveStep_costs (v : Receiving) (s : State) (hs : s.link.Settles C) :
    wp (receiveStep X v) (HaltsAfter.Round (fun s => s.link.Settles C) (fun _ _ => True)
      State.stalls (fun v _ => rx_buffer_len - v.rx_count) c v s) s := by
  by_cases h : v.pret = -2 ∧ v.rx_count < rx_buffer_len
  · cases harrival : s.env.arrival 0 with
    | timeout =>
      apply wp_of_eq (receiveStep_timeout h harrival)
      have hmore : State.stalls { s with env := s.env.advanceArrival, log := s.log ++ [.timeout] } =
          s.stalls + 1 := by simp [State.stalls, Event.stall]
      refine ⟨⟨hs, ?_, nofun⟩, fun v' hv' => ⟨trivial, .inl ?_⟩⟩
      · omega
      · omega
    | failed =>
      apply wp_of_eq (receiveStep_failed h harrival)
      exact ⟨⟨hs, Nat.le_refl _, nofun⟩, nofun⟩
    | bytes data =>
      apply wp_of_eq (receiveStep_bytes h harrival)
      refine ⟨⟨hs, Nat.le_refl _, ?_⟩, ?_⟩
      · split
        · exact nofun
        · split <;> exact nofun
      · intro v' hv'
        split at hv'
        · cases hv'
        · rename_i hne
          split at hv'
          · cases hv'
          · cases hv'
            refine ⟨trivial, .inr ?_⟩
            have hpos : 0 < data.length := List.length_pos_iff.mpr hne
            show rx_buffer_len - (v.rx_count + data.length) < rx_buffer_len - v.rx_count
            omega
  · apply wp_of_eq (receiveStep_done h)
    exact ⟨⟨hs, Nat.le_refl _, nofun⟩, nofun⟩

theorem response_ne_halt (v : Receiving) (rx_buffer : List UInt8) :
    v.response rx_buffer ≠ .halt := by
  unfold Receiving.response
  split
  · split <;> exact nofun
  · split <;> exact nofun

theorem recieveResponse_costs (fuel : Nat) :
    Costs C (fuel / (rx_buffer_len + 1)) (recieveResponse X fuel) := by
  have hloop : Costs C (fuel / (rx_buffer_len + 1)) (Prog.loop (receiveStep X) fuel .init) := by
    intro s hs
    have hrank (v : Receiving) (s : State) (_ : True) :
        rx_buffer_len - v.rx_count < rx_buffer_len + 1 := by omega
    have hcost := HaltsAfter.loop (fun v s hs _ =>
      @receiveStep_costs C (fuel / (rx_buffer_len + 1)) X v s hs) hrank fuel .init s hs trivial
    rw [Nat.min_self] at hcost
    exact hcost
  have hget : Costs C (fuel / (rx_buffer_len + 1)) (Prog.get : HttpM State) :=
    .of_spec fun s => ⟨nofun, rfl, .refl s⟩
  unfold recieveResponse
  apply hloop.bind
  intro v
  apply hget.bind
  intro s
  exact .ofExit (response_ne_halt v _)

/-! ### The rounds -/

theorem parseUsize_ne_halt (buf : List UInt8) : parseUsize buf ≠ .halt := by
  unfold parseUsize
  split <;> exact nofun

theorem nextNumber_ne_halt (l : List (List UInt8)) : nextNumber l ≠ .halt := by
  cases l with
  | nil => exact nofun
  | cons val rest => exact Exit.bind_ne_halt (parseUsize_ne_halt val) fun _ => nofun

theorem slice_ne_halt (h : phr_header) (n : Nat) : h.slice n ≠ .halt := by
  unfold phr_header.slice
  split <;> exact nofun

theorem rangeResponse_ne_halt (h : phr_header) : rangeResponse.ofHeader h ≠ .halt := by
  unfold rangeResponse.ofHeader
  apply Exit.bind_ne_halt (slice_ne_halt h 6)
  intro unit
  split
  · exact nofun
  · apply Exit.bind_ne_halt (slice_ne_halt h 7)
    intro star
    split
    · exact nofun
    · split
      · exact nofun
      · apply Exit.bind_ne_halt (parseUsize_ne_halt _)
        intro start
        apply Exit.bind_ne_halt (nextNumber_ne_halt _)
        intro last
        exact Exit.bind_ne_halt (nextNumber_ne_halt _) fun _ => nofun

theorem processHeader_ne_halt (p : parsedResponse) (h : phr_header) :
    parsedResponse.processHeader p h ≠ .halt := by
  unfold parsedResponse.processHeader
  split
  · exact Exit.bind_ne_halt (rangeResponse_ne_halt h) fun _ => nofun
  · refine Exit.bind_ne_halt ?_ fun _ => nofun
    unfold acceptRanges.ofHeader
    split <;> exact nofun
  · exact Exit.bind_ne_halt (parseUsize_ne_halt _) fun _ => nofun
  · exact nofun
  · refine Exit.bind_ne_halt ?_ fun _ => nofun
    unfold keepAlive.ofHeader
    split <;> exact nofun
  · exact nofun

theorem processHeaders_ne_halt (rx : rx_response) : parsedResponse.processHeaders rx ≠ .halt := by
  have hfold (l : List phr_header) (p : parsedResponse) :
      l.foldlM parsedResponse.processHeader p ≠ .halt := by
    induction l generalizing p with
    | nil => exact nofun
    | cons h l ih =>
      rw [List.foldlM_cons]
      exact Exit.bind_ne_halt (processHeader_ne_halt p h) ih
  exact hfold _ _

/-- What cuts a round off has cost something. -/
theorem rangeStep_costs {fuel : Nat} (hfuel : C ≤ fuel) (url : Url) (block_size fileSize : Nat) :
    Costs C (fuel / (rx_buffer_len + 1)) (rangeStep X fuel url block_size fileSize) := by
  unfold rangeStep
  apply tell_costs.bind
  intro position
  apply HaltsAfter.ite
  · apply HaltsAfter.bind
    · exact (host_costs url).bind fun _ => print_send_costs _
    intro _
    apply (recieveResponse_costs fuel).bind
    intro rx
    apply (record_costs _).bind
    intro _
    apply (HaltsAfter.ofExit (processHeaders_ne_halt rx)).bind
    intro p
    exact storeRange_costs hfuel url p
  · exact .pure _

theorem stalls_lt {s s' : State} {es : List Event} (h : s'.log = s.log ++ es)
    (hstall : ∃ ev ∈ es, ev.stall = true) : s.stalls < s'.stalls := by
  have hpos : 0 < es.countP Event.stall := List.countP_pos_iff.mpr hstall
  unfold State.stalls
  rw [h, List.countP_append]
  omega

/-- A response that is dealt with without a stall moves the file pointer forward. -/
theorem Stored.progress {url : Url} {p : parsedResponse} {s s' : State} {r : Unit ⊕ Unit}
    (h : Stored url p s (.ok r) s') (hpayload : p.payload ≠ some []) :
    s.stalls < s'.stalls ∨ s.file.fptr < s'.file.fptr := by
  generalize hx : (Exit.ok r : Exit Error (Unit ⊕ Unit)) = x at h
  cases h with
  | unexpected => cases hx
  | unranged => cases hx
  | rewound _ _ _ _ _ _ hlog => exact .inl (stalls_lt hlog (by simp [Event.stall]))
  | bare => cases hx
  | stored range payload n s₁ y _ hle _ _ hsome hfile hlog hrenewed =>
    by_cases hseek : range.start < s.file.fptr
    · left
      refine Nat.lt_of_lt_of_le (stalls_lt hlog ?_) (stalls_le hrenewed.extends)
      rw [seeking, if_pos hseek]
      exact ⟨_, List.mem_append_left _ List.mem_cons_self, rfl⟩
    by_cases hshort : n < payload.length
    · left
      refine Nat.lt_of_lt_of_le (stalls_lt hlog ?_) (stalls_le hrenewed.extends)
      rw [shortage, if_pos hshort]
      exact ⟨_, List.mem_append_right _ List.mem_cons_self, rfl⟩
    · right
      have hpos : 0 < payload.length := by
        rw [List.length_pos_iff]
        intro hnil
        rw [hnil] at hsome
        exact hpayload hsome
      have hstart : range.start = s.file.fptr := by omega
      rw [hrenewed.file, hfile, File.stored, if_neg hshort]
      show s.file.fptr < range.start + payload.length
      omega
  | unmoved => cases hx
  | unstored => cases hx

/-- A round that does not stall comes nearer to the end of the file. -/
theorem Ranged.progress {url : Url} {fileSize : Nat} {s s' : State} {u : Unit}
    (h : Ranged X url fileSize s (.ok (.inl u)) s') :
    s.stalls < s'.stalls ∨ fileSize - s'.file.fptr < fileSize - s.file.fptr := by
  generalize hx : (Exit.ok (.inl u) : Exit Error (Unit ⊕ Unit)) = x at h
  cases h with
  | done => cases hx
  | unanswered _ _ _ hun =>
    rw [← hx] at hun
    cases hun.exit
  | refused _ _ _ _ _ hreturned =>
    rw [← hx] at hreturned
    cases hreturned
  | answered rx p s₁ _ _ hlt hanswered hp hstored =>
    have hpayload : p.payload ≠ some [] := by
      rw [parsedResponse.processHeaders_payload hp]
      exact hanswered.payload
    rw [← hx] at hstored
    rcases hstored.progress hpayload with hstall | hmoved
    · exact .inl (Nat.lt_of_le_of_lt (stalls_le hanswered.extends) hstall)
    · rw [hanswered.file] at hmoved
      exact .inr (by omega)

/-! ### The download -/

/-- What a download has to stall for, if its fuel is exhausted. -/
def patience (fuel max_file_size : Nat) : Nat :=
  min (fuel / (rx_buffer_len + 1)) (fuel / (max_file_size + 1))

theorem rounds_costs {fuel : Nat} (hfuel : C ≤ fuel) {url : Url} (hurl : url.Complete)
    (block_size : Nat) {fileSize max_file_size : Nat} (hsize : fileSize ≤ max_file_size) :
    Costs C (patience fuel max_file_size)
      (Prog.loop (fun _ => rangeStep X fuel url block_size fileSize) fuel ()) := by
  intro s hs
  have hround (u : Unit) (s : State) (hs : s.link.Settles C) (_ : True) :
      wp (rangeStep X fuel url block_size fileSize) (HaltsAfter.Round (fun s => s.link.Settles C)
        (fun _ _ => True) State.stalls (fun _ s => fileSize - s.file.fptr)
        (fuel / (rx_buffer_len + 1)) u s) s := by
    refine ⟨rangeStep_costs hfuel url block_size fileSize s hs, fun u' hu' => ⟨trivial, ?_⟩⟩
    have hranged := rangeStep_spec X fuel hurl block_size fileSize s
    unfold wp at hranged
    rw [hu'] at hranged
    exact hranged.progress
  have hrank (u : Unit) (s : State) (_ : True) : fileSize - s.file.fptr < max_file_size + 1 := by
    omega
  exact HaltsAfter.loop hround hrank fuel () s hs trivial

theorem fetch_costs {fuel : Nat} (hfuel : C ≤ fuel) {url : Url} (hurl : url.Complete)
    (block_size : Nat) {fileSize max_file_size : Nat} (hsize : fileSize ≤ max_file_size) :
    Costs C (patience fuel max_file_size) (fetch X fuel url block_size fileSize) := by
  unfold fetch
  apply file_open_costs.bind
  intro _
  apply (check_costs _).deferring
  apply (check_costs _).bind
  intro _
  apply (rounds_costs hfuel hurl block_size hsize).bind
  intro _
  apply tell_costs.bind
  intro position
  exact .ite _ (.throw _) (.pure _)

theorem keepEtag_costs (etag : Option (List UInt8)) : Costs C c (keepEtag etag) := by
  unfold keepEtag
  split
  · exact .pure _
  · exact .ite _ .trap (modify_costs fun _ => ⟨rfl, rfl⟩)

theorem acceptHead_ne_halt (max_file_size : Nat) (rx : rx_response) :
    acceptHead max_file_size rx ≠ .halt := by
  unfold acceptHead
  apply Exit.bind_ne_halt (processHeaders_ne_halt rx)
  intro p
  split
  · exact nofun
  · split
    · exact nofun
    · split <;> exact nofun

/-- **What a cut costs**: a download whose fuel is exhausted has stalled for as long as it has
lasted. -/
theorem filedownload_costs {fuel : Nat} (hfuel : C ≤ fuel) (url : Except Error Url)
    (block_size max_file_size : Nat) : Costs C (patience fuel max_file_size)
      (filedownload X fuel url block_size max_file_size) := by
  cases url with
  | error e => exact .throw e
  | ok url =>
    by_cases hurl : url.Complete
    · unfold filedownload
      simp only
      apply (open_costs hfuel _).bind
      intro _
      apply close_costs.deferring
      apply HaltsAfter.bind
      · exact (host_costs url).bind fun _ => print_send_costs _
      intro _
      apply ((recieveResponse_costs fuel).mono (Nat.min_le_left _ _)).bind
      intro rx
      apply (record_costs _).bind
      intro _
      apply HaltsAfter.bind_ofExit (acceptHead_ne_halt max_file_size rx)
      intro r haccept
      obtain ⟨fileSize, etag⟩ := r
      obtain ⟨-, -, -, -, -, hsize⟩ := acceptHead_ok haccept
      apply (keepEtag_costs etag).bind
      intro _
      exact fetch_costs hfuel hurl block_size hsize
    · apply HaltsAfter.of_keeps
      intro s
      rw [filedownload_incomplete X fuel hurl block_size max_file_size s]
      exact ⟨nofun, id, Nat.le_refl _⟩

end Costs

/-! ## More fuel -/

section Fuel

variable {X : Externs} {n n' : Nat}

theorem extends_frame : Frame Extends := ⟨Extends.refl, Extends.trans⟩

theorem connect_unfolds (h : n ≤ n') : Unfolds (fun _ _ : Link => True)
    (SimpleLinkConnection.connect n) (SimpleLinkConnection.connect n') := by
  have hframe : Frame fun _ _ : Link => True := ⟨fun _ => trivial, fun _ _ => trivial⟩
  exact Unfolds.loop hframe (fun _ => .refl _) (fun _ _ => trivial) h ()

theorem simpleLink_open_unfolds (h : n ≤ n') (uri : Uri) : Unfolds (fun _ _ : Link => True)
    (SimpleLinkConnection.open n .tcp_ip4 uri) (SimpleLinkConnection.open n' .tcp_ip4 uri) := by
  have hframe : Frame fun _ _ : Link => True := ⟨fun _ => trivial, fun _ _ => trivial⟩
  have hclose : Keeps (fun _ _ : Link => True) SimpleLinkConnection.close := fun _ => trivial
  have hconnect := (connect_unfolds h).errdeferring hframe hclose
  unfold SimpleLinkConnection.open
  split
  · apply Unfolds.behind
    intro dns
    have hrest := Unfolds.behind (SimpleLinkConnection.socket .tcp_ip4) fun _ => hconnect
    by_cases hdns : dns < 0
    · simp only [hdns, if_true]
      exact .behind _ fun _ => hrest
    · simp only [hdns, if_false]
      exact hrest
  · exact .refl _

theorem record_extends (l : List Event) : Keeps Extends (record l) := fun _ => ⟨l, rfl⟩

theorem open_unfolds (h : n ≤ n') (uri : Uri) :
    Unfolds Extends (connection.open n uri) (connection.open n' uri) := by
  have hlink : Unfolds Extends (onLink (SimpleLinkConnection.open n .tcp_ip4 uri))
      (onLink (SimpleLinkConnection.open n' .tcp_ip4 uri)) :=
    ((simpleLink_open_unfolds h uri).mapErr Error.connection).zoom
      fun _ _ s _ => ⟨[], (List.append_nil _).symm⟩
  exact hlink.bind extends_frame (fun _ => .refl _) fun _ => record_extends _

theorem waitRx_extends : Keeps Extends connection.waitRx := by
  intro s
  unfold connection.waitRx
  split
  · exact ⟨_, rfl⟩
  · exact ⟨[], (List.append_nil _).symm⟩
  · exact .refl s

theorem recieve_extends (rx_count : Nat) : Keeps Extends (connection.recieve rx_count) := by
  intro s
  unfold connection.recieve
  have hsame (s' : State) (hlog : s'.log = s.log) : Extends s s' :=
    ⟨[], hlog.trans (List.append_nil _).symm⟩
  split
  · split
    · exact hsame _ rfl
    · split
      · exact hsame _ rfl
      · exact hsame _ rfl
  · exact .refl s

theorem receiveStep_extends (v : Receiving) : Keeps Extends (receiveStep X v) := by
  unfold receiveStep
  apply Keeps.ite
  · apply waitRx_extends.bind extends_frame
    intro b
    apply Keeps.ite
    · exact (recieve_extends _).bind extends_frame fun _ => .pure extends_frame _
    · exact .pure extends_frame _
  · exact .pure extends_frame _

theorem recieveResponse_unfolds (h : n ≤ n') :
    Unfolds Extends (recieveResponse X n) (recieveResponse X n') := by
  have hloop : Unfolds Extends (Prog.loop (receiveStep X) n .init)
      (Prog.loop (receiveStep X) n' .init) :=
    .loop extends_frame (fun _ => .refl _) receiveStep_extends h _
  exact hloop.bind extends_frame (fun _ => .refl _) fun v s => .refl s

theorem close_extends : Keeps Extends connection.close := by
  intro s
  obtain ⟨-, hlog, -⟩ := close_spec s
  exact ⟨_, hlog⟩

theorem check_extends (a : Fs) : Keeps Extends (file.check a) := by
  intro s
  obtain ⟨⟨-, hlog, -⟩, -⟩ := check_spec s a
  exact ⟨[], hlog.trans (List.append_nil _).symm⟩

theorem reconnect_unfolds (h : n ≤ n') (url : Url) (p : parsedResponse) :
    Unfolds Extends (reconnect n url p) (reconnect n' url p) := by
  unfold reconnect
  split
  · exact .behind _ fun _ => open_unfolds h _
  · exact .refl _

theorem storeRange_unfolds (h : n ≤ n') (url : Url) (p : parsedResponse) :
    Unfolds Extends (storeRange n url p) (storeRange n' url p) := by
  have hreconnect : Unfolds Extends (reconnect n url p >>= fun _ => pure (.inl () : Unit ⊕ Unit))
      (reconnect n' url p >>= fun _ => pure (.inl ())) :=
    (reconnect_unfolds h url p).bind extends_frame (fun _ => .refl _)
      fun _ => .pure extends_frame _
  unfold storeRange
  apply Unfolds.ite _ _ (.refl _)
  split
  · exact .refl _
  · apply Unfolds.behind
    intro position
    apply Unfolds.ite _ (.refl _)
    apply Unfolds.behind
    intro _
    split
    · exact .refl _
    · exact .behind _ fun _ => hreconnect

theorem rangeStep_unfolds (h : n ≤ n') (url : Url) (block_size fileSize : Nat) :
    Unfolds Extends (rangeStep X n url block_size fileSize)
      (rangeStep X n' url block_size fileSize) := by
  unfold rangeStep
  apply Unfolds.behind
  intro position
  apply Unfolds.ite _ _ (.refl _)
  apply Unfolds.behind
  intro _
  apply (recieveResponse_unfolds h).bind extends_frame
  · intro rx
    apply Unfolds.behind
    intro _
    exact .behind _ fun p => storeRange_unfolds h url p
  · intro rx
    apply (record_extends _).bind extends_frame
    intro _
    apply Keeps.bind extends_frame fun s => .refl s
    intro p s
    exact (storeRange_spec n' url p s).extends

theorem fetch_unfolds (h : n ≤ n') {url : Url} (hurl : url.Complete) (block_size fileSize : Nat) :
    Unfolds Extends (fetch X n url block_size fileSize) (fetch X n' url block_size fileSize) := by
  have hround (u : Unit) : Keeps Extends (rangeStep X n' url block_size fileSize) :=
    fun s => (rangeStep_spec X n' hurl block_size fileSize s).extends
  unfold fetch
  apply Unfolds.behind
  intro _
  apply Unfolds.deferring extends_frame (check_extends _)
  apply Unfolds.behind
  intro _
  apply (Unfolds.loop extends_frame (fun _ => rangeStep_unfolds h url block_size fileSize)
    hround h ()).bind extends_frame fun _ => .refl _
  intro _
  apply Keeps.bind extends_frame fun s => .refl s
  intro position
  exact .ite _ (.throw extends_frame _) (.pure extends_frame _)

theorem Fetched.extends {url : Url} {fileSize : Nat} {s s' : State} {x : Exit Error Unit}
    (h : Fetched X url fileSize s x s') : Extends s s' := by
  cases h with
  | unwritten _ _ hlog => exact ⟨[], hlog.trans (List.append_nil _).symm⟩
  | fetched s₂ s₃ _ _ _ hlog hrounds _ hlog' =>
    obtain ⟨es, hes⟩ := rounds_extends hrounds
    exact ⟨es, by rw [hlog', hes, hlog]⟩

theorem Sent.extends {s s' : State} {x : Exit Error Unit} (h : Sent s x s') : Extends s s' := by
  cases h with
  | sent _ _ _ _ hlog => exact ⟨_, hlog⟩
  | unsent _ _ _ _ hlog => exact ⟨_, hlog⟩
  | unwritten => exact .refl s

theorem keepEtag_extends (etag : Option (List UInt8)) : Keeps Extends (keepEtag etag) := by
  unfold keepEtag
  split
  · exact .pure extends_frame _
  · exact .ite _ (.trap extends_frame) fun s => ⟨[], (List.append_nil _).symm⟩

/-- **More fuel goes on where less has stopped.** -/
theorem filedownload_unfolds (h : n ≤ n') (url : Except Error Url) (block_size max_file_size : Nat) :
    Unfolds Extends (filedownload X n url block_size max_file_size)
      (filedownload X n' url block_size max_file_size) := by
  cases url with
  | error e => exact .refl _
  | ok url =>
    by_cases hurl : url.Complete
    · have hhead (rx : rx_response) : Keeps Extends (do
          record [.head rx]
          let r ← Prog.ofExit (acceptHead max_file_size rx)
          keepEtag r.2
          fetch X n' url block_size r.1) := by
        apply (record_extends _).bind extends_frame
        intro _
        apply Keeps.bind extends_frame fun s => .refl s
        intro r
        apply (keepEtag_extends _).bind extends_frame
        intro _ s
        exact (fetch_spec X n' hurl block_size _ s).extends
      have hrecieve : Keeps Extends (recieveResponse X n') := by
        intro s
        obtain ⟨hwaited, -⟩ := recieveResponse_spec X n' s
        obtain ⟨k, hk⟩ := hwaited.timeouts
        exact ⟨_, hk⟩
      unfold filedownload
      apply (open_unfolds h _).bind extends_frame
      · intro _
        apply Unfolds.deferring extends_frame close_extends
        apply Unfolds.behind
        intro _
        apply (recieveResponse_unfolds h).bind extends_frame _ hhead
        intro rx
        apply Unfolds.behind
        intro _
        apply Unfolds.behind
        intro r
        exact .behind _ fun _ => fetch_unfolds h hurl block_size _
      · intro _
        apply close_extends.deferring extends_frame
        apply Keeps.bind extends_frame fun s => (sendHeadRequest_spec s hurl).extends
        intro _
        exact hrecieve.bind extends_frame hhead
    · intro s
      left
      rw [filedownload_incomplete X n hurl block_size max_file_size s,
        filedownload_incomplete X n' hurl block_size max_file_size s]

end Fuel

/-! ## The end of a download -/

/-- **A download comes to an end exactly if there is a bound on its stalls.** -/
theorem returns_iff (X : Externs) (url : Except Error Url) (block_size max_file_size : Nat)
    (s : State) {C : Nat} (hC : s.link.Settles C) :
    Returns X url block_size max_file_size s ↔
      ∃ N, ∀ fuel, (filedownload X fuel url block_size max_file_size s).2.stalls ≤ N := by
  constructor
  · intro h
    obtain ⟨n, hn⟩ := h
    refine ⟨(filedownload X n url block_size max_file_size s).2.stalls, ?_⟩
    intro fuel
    rcases Nat.le_total fuel n with hle | hle
    · rcases filedownload_unfolds (X := X) hle url block_size max_file_size s with heq | ⟨-, hext⟩
      · rw [heq]
      · exact stalls_le hext
    · have heq := (filedownload_unfolds (X := X) hle url block_size max_file_size).eq_of_ends
        (hn n (Nat.le_refl n))
      rw [heq]
  · intro h
    obtain ⟨N, hN⟩ := h
    refine ⟨C + (N + 1) * (rx_buffer_len + 1) + (N + 1) * (max_file_size + 1), ?_⟩
    intro fuel hfuel hhalt
    have hbuffer : 0 < rx_buffer_len + 1 := Nat.succ_pos _
    have hmax : 0 < max_file_size + 1 := Nat.succ_pos _
    have hpatience : N + 1 ≤ patience fuel max_file_size := by
      apply Nat.le_min.mpr
      constructor
      · rw [Nat.le_div_iff_mul_le hbuffer]
        omega
      · rw [Nat.le_div_iff_mul_le hmax]
        omega
    have hC' : C ≤ fuel := by omega
    obtain ⟨-, -, hcost⟩ := filedownload_costs (X := X) hC' url block_size max_file_size s hC
    have hstalled := hcost hhalt
    have hbound := hN fuel
    omega

/-! ### A server that does not answer -/

theorem settles_smooth (arrivals : List Arrival) (room : Nat → Nat) :
    (State.smooth arrivals room).link.Settles 1 := by
  intro k
  refine ⟨0, Nat.one_pos, ?_⟩
  show ¬((0 : Int) = SL_EALREADY)
  decide

theorem returns_iff_silent :
    Returns (.parsing []) (.ok .example) 4 100 (Reply.arriving []) ↔ ∃ N, ∀ fuel,
      (filedownload (.parsing []) fuel (.ok .example) 4 100 (Reply.arriving [])).2.stalls ≤ N :=
  returns_iff (.parsing []) (.ok .example) 4 100 (Reply.arriving []) (settles_smooth _ _)

theorem recieveResponse_silent (X : Externs) (n : Nat) {s : State}
    (h : ∀ k, s.env.arrival k = .timeout) : (recieveResponse X n s).1 = .halt :=
  congrArg Prod.fst (Prog.bind_halt _ (Prog.run_of_exit (receive_silent (by decide) n h)))

theorem silent_forever :
    ¬Returns (.parsing []) (.ok .example) 4 100 (Reply.arriving []) := by
  intro h
  obtain ⟨n, hn⟩ := h
  apply hn (n + 1) (Nat.le_succ n)
  have hopen : (connection.open (n + 1) Url.example.uri (Reply.arriving [])).1 = .ok () := rfl
  have hsend : (sendHeadRequest .example
      (connection.open (n + 1) Url.example.uri (Reply.arriving [])).2).1 = .ok () := rfl
  have hsilent (k : Nat) : (sendHeadRequest .example
      (connection.open (n + 1) Url.example.uri (Reply.arriving [])).2).2.env.arrival k =
    .timeout := rfl
  have hhead := recieveResponse_silent (.parsing []) (n + 1) hsilent
  have hrun := Prog.bind_ok (fun _ => recieveResponse (.parsing []) (n + 1) >>= fun rx => do
    record [.head rx]
    let r ← Prog.ofExit (acceptHead 100 rx)
    keepEtag r.2
    fetch (.parsing []) (n + 1) .example 4 r.1) (Prog.run_of_exit hsend)
  rw [Prog.bind_halt _ (Prog.run_of_exit hhead)] at hrun
  have hdownload := Prog.bind_ok (fun _ => Prog.deferring connection.close do
    sendHeadRequest .example
    let rx ← recieveResponse (.parsing []) (n + 1)
    record [.head rx]
    let r ← Prog.ofExit (acceptHead 100 rx)
    keepEtag r.2
    fetch (.parsing []) (n + 1) .example 4 r.1) (Prog.run_of_exit hopen)
  rw [Prog.deferring_halt hrun] at hdownload
  exact congrArg Prod.fst hdownload

end Miso.Http
