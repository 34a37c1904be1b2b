import Miso.Http.Download

/-!
# Responses that come in pieces

* `Wire` — a response as it is sent, with the length of its header block;
* `Cut` — its bytes in successive receives; `Delivers` — the receives, with timeouts between them;
* `Intact` — what `recieveResponse` is to return, whatever the cut;
* `intact_iff` — it does so, for every cut behind a first receive, exactly if that receive brings
  the whole header block.
-/

namespace Miso.Http

open Zig Net Boot

/-! ## The property -/

/-- A response as it is sent. -/
structure Wire where
  bytes : List UInt8
  /-- The length of the header block. -/
  head : Nat
  status : Nat
  headers : List HeaderAt
  head_pos : 0 < head
  head_le : head ≤ bytes.length
  fits : head ≤ rx_buffer_len
  within : ∀ h ∈ headers, h.name + h.name_len ≤ head ∧ h.value + h.value_len ≤ head

/-- `phr_parse_response` parses the header block, given all that has been received of it. -/
structure Externs.Parses (X : Externs) (w : Wire) : Prop where
  incomplete (k : Nat) : 0 < k → k < w.head →
    (X.phr_parse_response (w.bytes.take k) headers_len 0).pret = -2
  complete (k : Nat) : w.head ≤ k → k ≤ w.bytes.length →
    X.phr_parse_response (w.bytes.take k) headers_len 0 = ⟨w.head, w.status, w.headers⟩

/-- The response in successive receives, at least as far as its header block; none of them is
longer than there is room. -/
structure Cut (w : Wire) (pieces : List (List UInt8)) : Prop where
  nonempty : ∀ d ∈ pieces, d ≠ []
  isPrefix : pieces.flatten <+: w.bytes
  whole : w.head ≤ pieces.flatten.length
  room : ∀ before d after, pieces = before ++ d :: after → before.flatten.length < w.head →
    before.flatten.length + d.length ≤ rx_buffer_len

/-- The pieces arrive one after the other, with timeouts between them. -/
inductive Delivers : (Nat → Arrival) → List (List UInt8) → Prop where
  | done (arrival : Nat → Arrival) : Delivers arrival []
  | timeout (arrival : Nat → Arrival) (pieces : List (List UInt8)) : arrival 0 = .timeout →
    Delivers (fun n => arrival (n + 1)) pieces → Delivers arrival pieces
  | piece (arrival : Nat → Arrival) (d : List UInt8) (pieces : List (List UInt8)) :
    arrival 0 = .bytes d → Delivers (fun n => arrival (n + 1)) pieces →
    Delivers arrival (d :: pieces)

/-- How much has been received, when the header block is there. -/
def Wire.received (w : Wire) : Nat → List (List UInt8) → Nat
  | k, [] => k
  | k, d :: pieces => if w.head ≤ k then k else w.received (k + d.length) pieces

/-- The status and the headers of the response, and the bytes of its body among the first `k`. -/
structure Wire.Intact (w : Wire) (k : Nat) (rx : rx_response) : Prop where
  status : rx.status = w.status
  headers : rx.headers.map (fun h => (h.name, h.text)) =
    w.headers.map fun h => ((h.view w.bytes).name, (h.view w.bytes).text)
  payload : rx.payload = if k = w.head then none else some ((w.bytes.take k).drop w.head)

/-- The response is received as it is. -/
def Received (X : Externs) (w : Wire) (pieces : List (List UInt8)) (s : State) : Prop :=
  ∃ rx, (∃ n, ∀ fuel, n ≤ fuel → (recieveResponse X fuel s).1 = .ok rx) ∧
    w.Intact (w.received 0 pieces) rx

/-! ## Receiving a piece -/

section Receiving

variable {X : Externs} {v : Receiving} {s : State} {d : List UInt8} {pieces : List (List UInt8)}

/-- The loop goes on to the next piece. -/
theorem receive_piece (h : Delivers s.env.arrival (d :: pieces))
    (hv : v.pret = -2 ∧ v.rx_count < rx_buffer_len) (hd : d ≠ [])
    (hroom : v.rx_count + d.length ≤ rx_buffer_len) :
    ∃ n s', (∀ k, Prog.loop (receiveStep X) (n + 1 + k) v s =
        Prog.loop (receiveStep X) k (v.parse X d) s') ∧
      s'.rx_buffer = s.rx_buffer.write v.rx_count d ∧ Delivers s'.env.arrival pieces ∧
      ∀ k, s'.env.arrival k = s.env.arrival (k + (n + 1)) := by
  generalize harrival : s.env.arrival = arrival at h
  generalize hpieces : d :: pieces = ds at h
  induction h generalizing s with
  | done => cases hpieces
  | timeout arrival ds htimeout _ ih =>
    rw [← harrival] at htimeout
    have hstep := receiveStep_timeout (X := X) hv htimeout
    obtain ⟨n, s', hloop, hbuffer, hrest, hlater⟩ := ih
      (s := { s with env := s.env.advanceArrival, log := s.log ++ [.timeout] })
      (by rw [← harrival]; rfl) hpieces
    refine ⟨n + 1, s', fun k => ?_, hbuffer, hrest, fun k => ?_⟩
    · rw [Nat.add_right_comm (n + 1) 1 k, Prog.loop_inl _ hstep]
      exact hloop k
    · rw [hlater k, ← harrival]
      rfl
  | piece arrival d' ds hbytes hrest =>
    cases hpieces
    rw [← harrival] at hbytes
    have hstep := receiveStep_bytes (X := X) hv hbytes
    have hle : ¬rx_buffer_len - v.rx_count < d.length := by omega
    rw [if_neg hd, if_neg hle] at hstep
    refine ⟨0, s.received v.rx_count d, fun k => ?_, ?_, ?_, fun k => ?_⟩
    · rw [Nat.zero_add, Nat.add_comm 1 k]
      exact Prog.loop_inl _ hstep
    · show s.rx_buffer.write v.rx_count (d.take (rx_buffer_len - v.rx_count)) = _
      rw [List.take_of_length_le (by omega)]
    · rw [← harrival] at hrest
      exact hrest
    · rw [← harrival]
      rfl

/-- Behind the loop. -/
theorem recieveResponse_of_loop {fuel : Nat} {s' : State}
    (h : Prog.loop (receiveStep X) fuel .init s = (.ok v, s')) :
    (recieveResponse X fuel s).1 = v.response s'.rx_buffer.content :=
  congrArg Prod.fst (Prog.bind_ok _ h)

end Receiving

/-! ## The first receive -/

theorem Wire.received_of_le {w : Wire} {k : Nat} (h : w.head ≤ k) (pieces : List (List UInt8)) :
    w.received k pieces = k := by
  cases pieces with
  | nil => rfl
  | cons d pieces => exact if_pos h

/-- A slice within a common prefix. -/
theorem slice_eq_of_take {a b : List UInt8} {m i n : Nat} (h : a.take m = b.take m)
    (hle : i + n ≤ m) : (a.drop i).take n = (b.drop i).take n := by
  rw [List.take_drop, List.take_drop, ← Nat.min_eq_left hle, ← List.take_take, ← List.take_take, h]

theorem Buffer.write_take {n : Nat} (b : Buffer n) (data : List UInt8) (h : data.length ≤ n) :
    (b.write 0 data).content.take data.length = data := by
  unfold Buffer.write spliceAt
  simp [List.take_take, Nat.min_eq_left h]

theorem HeaderAt.shift_zero (h : HeaderAt) : h.shift 0 = h := by
  simp [shift]

section First

variable {X : Externs} {w : Wire} {m : Nat}

/-- The whole header block comes with the first receive. -/
theorem received_of_le (hw : X.Parses w) (hm : m ≤ w.bytes.length) (hroom : m ≤ rx_buffer_len)
    (hhead : w.head ≤ m) {pieces : List (List UInt8)} {s : State}
    (h : Delivers s.env.arrival (w.bytes.take m :: pieces)) :
    Received X w (w.bytes.take m :: pieces) s := by
  have hpos := w.head_pos
  have hlength : (w.bytes.take m).length = m := by
    rw [List.length_take]
    omega
  have hnonempty : w.bytes.take m ≠ [] := by
    rw [← List.length_pos_iff]
    omega
  obtain ⟨n, s', hloop, hbuffer, -, -⟩ := receive_piece (X := X) (v := .init) h (by decide)
    hnonempty (by rw [hlength]; exact (Nat.zero_add m).trans_le hroom)
  have hparse := hw.complete m hhead hm
  have hv : Receiving.parse X .init (w.bytes.take m) =
      ⟨w.head, m, 0, w.headers.length, w.status, w.headers⟩ := by
    unfold Receiving.parse Receiving.init
    rw [hparse, hlength]
    simp [HeaderAt.shift_zero]
  have hcontent : s'.rx_buffer.content.take m = w.bytes.take m := by
    rw [hbuffer]
    have hwrite := s.rx_buffer.write_take (w.bytes.take m) (by omega)
    rw [hlength] at hwrite
    exact hwrite
  have hdone (k : Nat) : Prog.loop (receiveStep X) (n + 1 + (k + 1)) .init s =
      (.ok ⟨w.head, m, 0, w.headers.length, w.status, w.headers⟩, s') := by
    rw [hloop, hv]
    apply Prog.loop_inr
    apply receiveStep_done
    simp only
    omega
  have hresponse : Receiving.response ⟨w.head, m, 0, w.headers.length, w.status, w.headers⟩
      s'.rx_buffer.content = .ok ⟨if m = w.head then none
          else some ((s'.rx_buffer.content.take m).drop w.head),
        w.headers.map (·.view s'.rx_buffer.content), w.status⟩ := by
    unfold Receiving.response
    have hcount : ¬(m < ((w.head : Int)).toNat ∨ (w.status : Int) < 0) := by omega
    rw [if_pos (by simp only; omega), if_neg hcount]
    rfl
  refine ⟨⟨if m = w.head then none else some ((s'.rx_buffer.content.take m).drop w.head),
    w.headers.map (·.view s'.rx_buffer.content), w.status⟩, ⟨n + 2, fun fuel hfuel => ?_⟩,
    rfl, ?_, ?_⟩
  · obtain ⟨k, rfl⟩ : ∃ k, fuel = n + 1 + (k + 1) := ⟨fuel - (n + 2), by omega⟩
    rw [recieveResponse_of_loop (hdone k)]
    exact hresponse
  · simp only [List.map_map]
    apply List.map_congr_left
    intro h hmem
    obtain ⟨hname, hvalue⟩ := w.within h hmem
    simp only [Function.comp_apply, HeaderAt.view, phr_header.text, Prod.mk.injEq]
    exact ⟨slice_eq_of_take hcontent (hname.trans hhead),
      slice_eq_of_take hcontent (hvalue.trans hhead)⟩
  · have hreceived : w.received 0 (w.bytes.take m :: pieces) = m := by
      have hno : ¬w.head ≤ 0 := by omega
      rw [Wire.received, if_neg hno, hlength, Nat.zero_add, Wire.received_of_le hhead]
    rw [hreceived, hcontent]

/-- What the variables hold behind two pieces: only the second one has been parsed. -/
theorem parse_parse (hX : X.Documented) (d d' : List UInt8) :
    ((Receiving.init.parse X d).parse X d').rx_count = d.length + d'.length ∧
      ((Receiving.init.parse X d).parse X d').pret ≤ d'.length := by
  refine ⟨?_, hX.consumed d' _ _⟩
  simp [Receiving.parse, Receiving.init]

/-- A response whose length of the header is too small is not the response. -/
theorem notIntact_of_pret {v : Receiving} {rx_buffer : List UInt8} {rx : rx_response}
    (hcount : v.rx_count = w.head) (hpret : v.pret < w.head)
    (h : v.response rx_buffer = .ok rx) : ¬w.Intact w.head rx := by
  intro hintact
  have hpayload := hintact.payload
  unfold Receiving.response at h
  split at h
  · rename_i hpos
    split at h
    · cases h
    · have hne : ¬v.rx_count = v.pret.toNat := by omega
      cases h
      simp [hne] at hpayload
  · split at h <;> cases h

/-- The header block comes in two halves. -/
theorem notReceived_of_lt (hX : X.Documented) (hw : X.Parses w) (hpos : 0 < m)
    (hhead : m < w.head) : ∃ d s, Cut w [w.bytes.take m, d] ∧
      Delivers s.env.arrival [w.bytes.take m, d] ∧ ¬Received X w [w.bytes.take m, d] s := by
  have hle := w.head_le
  have hfits := w.fits
  have hfirst : (w.bytes.take m).length = m := by
    rw [List.length_take]
    omega
  have hsecond : ((w.bytes.take w.head).drop m).length = w.head - m := by
    rw [List.length_drop, List.length_take]
    omega
  have hall : w.bytes.take m ++ (w.bytes.take w.head).drop m = w.bytes.take w.head := by
    rw [← Nat.min_eq_left hhead.le, ← List.take_take, Nat.min_eq_left hhead.le,
      List.take_append_drop]
  have hnonempty : w.bytes.take m ≠ [] ∧ (w.bytes.take w.head).drop m ≠ [] := by
    rw [← List.length_pos_iff, ← List.length_pos_iff]
    omega
  have hcut : Cut w [w.bytes.take m, (w.bytes.take w.head).drop m] := by
    constructor
    · intro d hd
      rcases List.mem_pair.mp hd with rfl | rfl
      · exact hnonempty.1
      · exact hnonempty.2
    · rw [List.flatten_cons, List.flatten_singleton, hall]
      exact List.take_prefix _ _
    · rw [List.flatten_cons, List.flatten_singleton, hall, List.length_take]
      omega
    · intro before d after hsplit _
      have htotal := congrArg (fun l => l.flatten.length) hsplit
      simp only [List.flatten_cons, List.flatten_nil, List.append_nil, List.flatten_append,
        List.length_append] at htotal
      omega
  generalize hs : State.smooth [.bytes (w.bytes.take m),
    .bytes ((w.bytes.take w.head).drop m)] (fun _ => 0) = s
  have hdelivers : Delivers s.env.arrival [w.bytes.take m, (w.bytes.take w.head).drop m] := by
    rw [← hs]
    exact .piece _ _ _ rfl (.piece _ _ _ rfl (.done _))
  have hlater (k : Nat) : s.env.arrival (k + 2) = .timeout := by
    rw [← hs]
    rfl
  refine ⟨(w.bytes.take w.head).drop m, s, hcut, hdelivers, ?_⟩
  have hpret := hw.incomplete m hpos hhead
  obtain ⟨n₁, s₁, hloop₁, -, hrest, harrival₁⟩ := receive_piece (X := X) (v := .init) hdelivers
    (by decide) hnonempty.1 (by rw [hfirst]; exact (Nat.zero_add m).trans_le (by omega))
  have hcount₁ : (Receiving.init.parse X (w.bytes.take m)).rx_count = m :=
    (Nat.zero_add _).trans hfirst
  obtain ⟨n₂, s₂, hloop₂, -, -, harrival₂⟩ := receive_piece (X := X)
    (v := Receiving.init.parse X (w.bytes.take m)) hrest ⟨hpret, by omega⟩ hnonempty.2 (by omega)
  obtain ⟨hcount, hsmall⟩ := parse_parse hX (w.bytes.take m) ((w.bytes.take w.head).drop m)
  rw [hfirst, hsecond, Nat.add_sub_cancel' hhead.le] at hcount
  rw [hsecond] at hsmall
  generalize (Receiving.init.parse X (w.bytes.take m)).parse X
    ((w.bytes.take w.head).drop m) = v at *
  have hloop (k : Nat) : Prog.loop (receiveStep X) (n₁ + 1 + (n₂ + 1 + k)) .init s =
      Prog.loop (receiveStep X) k v s₂ := (hloop₁ _).trans (hloop₂ k)
  intro hreceived
  obtain ⟨rx, ⟨n, hn⟩, hintact⟩ := hreceived
  have hfuel := hn (n₁ + 1 + (n₂ + 1 + (n + 1))) (by omega)
  by_cases hmore : v.pret = -2 ∧ v.rx_count < rx_buffer_len
  · have hsilent (k : Nat) : s₂.env.arrival k = .timeout := by
      rw [harrival₂, harrival₁]
      have hk : k + (n₂ + 1) + (n₁ + 1) = k + (n₂ + n₁) + 2 := by omega
      rw [hk]
      exact hlater _
    have hhalt := receive_silent (X := X) hmore (n + 1) hsilent
    rw [← hloop] at hhalt
    have hrun : (recieveResponse X (n₁ + 1 + (n₂ + 1 + (n + 1))) s).1 = .halt :=
      congrArg Prod.fst (Prog.bind_halt _ (Prog.run_of_exit hhalt))
    rw [hrun] at hfuel
    cases hfuel
  · have hend : Prog.loop (receiveStep X) (n₁ + 1 + (n₂ + 1 + (n + 1))) .init s = (.ok v, s₂) :=
      (hloop (n + 1)).trans (Prog.loop_inr n (receiveStep_done hmore))
    rw [recieveResponse_of_loop hend] at hfuel
    have hreceived : w.received 0 [w.bytes.take m, (w.bytes.take w.head).drop m] = w.head := by
      have hno : ¬w.head ≤ 0 := by omega
      have hno' : ¬w.head ≤ 0 + m := by omega
      rw [Wire.received, if_neg hno, hfirst, Wire.received, if_neg hno', hsecond, Wire.received]
      omega
    rw [hreceived] at hintact
    exact notIntact_of_pret hcount (by omega) hfuel hintact

end First

/-- **The cut matters, unless the whole header block comes first.**  Behind a first receive, the
response is received as it is for every cut of the rest exactly if that receive brings the whole
header block. -/
theorem intact_iff (X : Externs) (hX : X.Documented) (w : Wire) (hw : X.Parses w) {m : Nat}
    (hpos : 0 < m) (hm : m ≤ w.bytes.length) (hroom : m ≤ rx_buffer_len) :
    (∀ pieces s, Cut w (w.bytes.take m :: pieces) →
      Delivers s.env.arrival (w.bytes.take m :: pieces) →
      Received X w (w.bytes.take m :: pieces) s) ↔ w.head ≤ m := by
  constructor
  · intro h
    by_contra hlt
    obtain ⟨d, s, hcut, hdelivers, hno⟩ := notReceived_of_lt hX hw hpos (Nat.not_le.mp hlt)
    exact hno (h [d] s hcut hdelivers)
  · intro hhead pieces s _ hdelivers
    exact received_of_le hw hm hroom hhead hdelivers

namespace Reply

/-- The reply as it is sent. -/
def wire (r : Reply) (hfits : r.head.length ≤ rx_buffer_len)
    (hwithin : ∀ h ∈ headersAt r.statusLine.length r.headers,
      h.name + h.name_len ≤ r.head.length ∧ h.value + h.value_len ≤ r.head.length) : Wire where
  bytes := r.bytes
  head := r.head.length
  status := r.status
  headers := headersAt r.statusLine.length r.headers
  head_pos := by
    have hend : 0 < (bytesOf "\r\n").length := by decide
    simp only [head, List.length_append]
    omega
  head_le := by simp [bytes]
  fits := hfits
  within := hwithin

theorem parses (r : Reply) (hfits : r.head.length ≤ rx_buffer_len)
    (hwithin : ∀ h ∈ headersAt r.statusLine.length r.headers,
      h.name + h.name_len ≤ r.head.length ∧ h.value + h.value_len ≤ r.head.length)
    (hcount : (headersAt r.statusLine.length r.headers).length ≤ headers_len) :
    (Externs.parsing [r]).Parses (r.wire hfits hwithin) := by
  have hfind {buf : List UInt8} (h : r.head <+: buf ∨ buf <+: r.head) :
      (Externs.parsing [r]).phr_parse_response buf headers_len 0 = r.parse buf headers_len := by
    simp [Externs.parsing, h]
  constructor
  · intro k _ hk
    show ((Externs.parsing [r]).phr_parse_response (r.bytes.take k) headers_len 0).pret = -2
    have htake : r.bytes.take k = r.head.take k := List.take_append_of_le_length (Nat.le_of_lt hk)
    have hno : ¬r.head <+: r.head.take k := by
      intro h
      have hle := h.length_le
      rw [List.length_take] at hle
      change k < r.head.length at hk
      omega
    rw [htake, hfind (.inr (List.take_prefix _ _)), parse, if_neg hno]
  · intro k hk _
    show (Externs.parsing [r]).phr_parse_response (r.bytes.take k) headers_len 0 = _
    have hprefix : r.head <+: r.bytes.take k := by
      rw [bytes, List.take_append, List.take_of_length_le hk]
      exact List.prefix_append _ _
    rw [hfind (.inl hprefix), parse, if_pos hprefix, if_neg (Nat.not_lt.mpr hcount)]
    rfl

/-- The first half of a firmware. -/
def range : Reply := ⟨206, [("Content-Range", "bytes 0-3/8")], "firm"⟩

def rangeWire : Wire := range.wire (by decide +kernel) (by decide +kernel)

end Reply

theorem intact_iff_range :
    (∀ pieces s, Cut Reply.rangeWire (Reply.rangeWire.bytes.take 49 :: pieces) →
      Delivers s.env.arrival (Reply.rangeWire.bytes.take 49 :: pieces) →
      Received (.parsing [Reply.range]) Reply.rangeWire (Reply.rangeWire.bytes.take 49 :: pieces)
        s) ↔ Reply.rangeWire.head ≤ 49 :=
  intact_iff (.parsing [Reply.range]) (Externs.parsing_documented _) Reply.rangeWire
    (Reply.range.parses _ _ (by decide +kernel)) (by decide) (by decide +kernel) (by decide)

theorem segments_matter : ¬∀ (X : Externs) (w : Wire) (pieces : List (List UInt8)) (s : State),
    X.Documented → X.Parses w → Cut w pieces → Delivers s.env.arrival pieces →
      Received X w pieces s := by
  intro h
  have hparses : (Externs.parsing [Reply.range]).Parses Reply.rangeWire :=
    Reply.range.parses _ _ (by decide +kernel)
  obtain ⟨d, s, hcut, hdelivers, hno⟩ := notReceived_of_lt (Externs.parsing_documented _) hparses
    (m := 10) (by decide) (by decide +kernel)
  exact hno (h _ _ _ s (Externs.parsing_documented _) hparses hcut hdelivers)

end Miso.Http
