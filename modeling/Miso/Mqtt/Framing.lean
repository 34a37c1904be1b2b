import Mathlib.Data.List.Basic
import Miso.Mqtt.Packet

/-!
# Packets and their pieces

`packet.read` over the bytes of a connection.

* `ControlPacket` — a packet as it is sent;
* `Source` — the bytes that arrive, and how many of them the calls of `getFn` return;
* `Call`, `Documented` — what is known about `MQTTPacket_readnb`, which is a parameter here;
* `framed_iff` — the packets that are read are those of the stream exactly if `getFn` returns less
  than it is asked for only at the beginning of a packet, and then nothing.
-/

namespace Miso.Mqtt

/-! ## Packets -/

/-- The bytes of the remaining length; a packet that fits into `rxBuffer` has one or two. -/
def lengthBytes (n : Nat) : List UInt8 :=
  if n < 128 then [UInt8.ofNat n] else [UInt8.ofNat (n % 128 + 128), UInt8.ofNat (n / 128)]

/-- A packet that fits into `rxBuffer`. -/
@[ext] structure ControlPacket where
  header : UInt8
  body : List UInt8
  known : 0 < header.toNat / 16 ∧ header.toNat / 16 < 15
  fits : 1 + (lengthBytes body.length).length + body.length ≤ rxBuffer_len

/-- `@enumFromInt` of `msgTypes`. -/
def msgTypes.enumFromInt (n : Int) : Option msgTypes :=
  if n = -1 then some .err_msg
  else if n < 0 then none
  else [try_again, connect, connack, publish, puback, pubrec, pubrel, pubcomp, subscribe, suback,
    unsubscribe, unsuback, pingreq, pingresp, disconnect][n.toNat]?

/-- A packet has been read. -/
def msgTypes.isPacket : msgTypes → Bool
  | err_msg => false
  | try_again => false
  | _ => true

/-- The length of the packet at the beginning of `l`, or 0 if its bytes are not there yet. -/
def frameLength : List UInt8 → Nat
  | _ :: a :: rest =>
    if a.toNat < 128 then 2 + a.toNat
    else match rest with
    | b :: _ => 3 + (a.toNat - 128) + 128 * b.toNat
    | [] => 0
  | _ => 0

/-- The packet at the beginning of `l`. -/
def firstFrame (l : List UInt8) : List UInt8 := l.take (frameLength l)

/-- A fixed header tells the length of its packet. -/
theorem frameLength_header {n : Nat} (hn : n < 512) (b : UInt8) (rest : List UInt8) :
    frameLength (b :: (lengthBytes n ++ rest)) = 1 + (lengthBytes n).length + n := by
  unfold lengthBytes
  by_cases hshort : n < 128
  · have ha : (UInt8.ofNat n).toNat = n := UInt8.toNat_ofNat_of_lt' (by unfold UInt8.size; omega)
    rw [if_pos hshort]
    show (if (UInt8.ofNat n).toNat < 128 then 2 + (UInt8.ofNat n).toNat else _) = 1 + 1 + n
    rw [ha, if_pos hshort]
  · have ha : (UInt8.ofNat (n % 128 + 128)).toNat = n % 128 + 128 :=
      UInt8.toNat_ofNat_of_lt' (by unfold UInt8.size; omega)
    have hb : (UInt8.ofNat (n / 128)).toNat = n / 128 :=
      UInt8.toNat_ofNat_of_lt' (by unfold UInt8.size; omega)
    rw [if_neg hshort]
    show (if (UInt8.ofNat (n % 128 + 128)).toNat < 128 then _
      else 3 + ((UInt8.ofNat (n % 128 + 128)).toNat - 128) + 128 * (UInt8.ofNat (n / 128)).toNat) =
        1 + 2 + n
    rw [ha, hb, if_neg (by omega)]
    omega

namespace ControlPacket

variable (F : ControlPacket)

def bytes : List UInt8 := F.header :: (lengthBytes F.body.length ++ F.body)

/-- The type in the upper half of the header. -/
def code : Nat := F.header.toNat / 16

def type : msgTypes := (msgTypes.enumFromInt F.code).getD .err_msg

theorem enumFromInt_code : msgTypes.enumFromInt F.code = some F.type ∧ F.type.isPacket = true := by
  have hall : ∀ n : Fin 15, 0 < n.val → ∃ t, msgTypes.enumFromInt n.val = some t ∧
      t.isPacket = true := by decide
  obtain ⟨t, ht, hpacket⟩ := hall ⟨F.code, F.known.2⟩ F.known.1
  have htype : F.type = t := by
    unfold type
    rw [ht]
    rfl
  rw [htype]
  exact ⟨ht, hpacket⟩

theorem bytes_length : F.bytes.length = 1 + (lengthBytes F.body.length).length + F.body.length := by
  unfold bytes
  rw [List.length_cons, List.length_append]
  omega

theorem bytes_pos : 0 < F.bytes.length := by
  rw [bytes_length]
  omega

theorem bytes_le : F.bytes.length ≤ rxBuffer_len := by
  rw [bytes_length]
  exact F.fits

theorem body_le : F.body.length < 512 := by
  have hfits := F.fits
  unfold rxBuffer_len at hfits
  omega

/-- The bytes of a packet tell its length once its header is complete. -/
theorem frameLength_begin {l : List UInt8} (h : l <+: F.bytes) :
    frameLength l = 0 ∧ l.length < F.bytes.length ∨ frameLength l = F.bytes.length := by
  have hlen := F.bytes_length
  by_cases hheader : 1 + (lengthBytes F.body.length).length ≤ l.length
  · have hbytes : F.header :: lengthBytes F.body.length <+: F.bytes := List.prefix_append _ F.body
    obtain ⟨rest, rfl⟩ := List.prefix_of_prefix_length_le hbytes h (by
      rw [List.length_cons]
      omega)
    rw [hlen]
    exact .inr (frameLength_header F.body_le F.header rest)
  · refine .inl ⟨?_, by omega⟩
    rcases l with _ | ⟨b, _ | ⟨a, rest⟩⟩
    · rfl
    · rfl
    · by_cases hshort : F.body.length < 128
      · unfold lengthBytes at hheader
        rw [if_pos hshort] at hheader
        simp at hheader
      · unfold bytes lengthBytes at h
        unfold lengthBytes at hheader
        rw [if_neg hshort] at h hheader
        obtain rfl : rest = [] := by
          cases rest with
          | nil => rfl
          | cons c rest => simp at hheader
        obtain ⟨-, htail⟩ := List.cons_prefix_cons.mp h
        obtain ⟨rfl, -⟩ := List.cons_prefix_cons.mp htail
        have ha : (UInt8.ofNat (F.body.length % 128 + 128)).toNat = F.body.length % 128 + 128 :=
          UInt8.toNat_ofNat_of_lt' (by unfold UInt8.size; omega)
        show (if (UInt8.ofNat (F.body.length % 128 + 128)).toNat < 128 then _ else 0) = 0
        rw [ha, if_neg (by omega)]

theorem firstFrame_begin {l : List UInt8} (h : F.bytes <+: l) : firstFrame l = F.bytes := by
  obtain ⟨rest, rfl⟩ := h
  have hlen : frameLength (F.bytes ++ rest) = F.bytes.length := by
    rw [bytes_length]
    unfold bytes
    rw [List.cons_append, List.append_assoc]
    exact frameLength_header F.body_le F.header _
  unfold firstFrame
  rw [hlen, List.take_left]

end ControlPacket

/-! ## The connection -/

/-- The bytes that are still to come, and how many of them the calls of `recieve` return at most;
nothing comes behind the last of these. -/
structure Source where
  bytes : List UInt8
  cuts : List Nat
  deriving DecidableEq

def Source.recieve (n : Nat) (s : Source) : List UInt8 × Source :=
  match s.cuts with
  | [] => ([], s)
  | c :: cuts => (s.bytes.take (min c n), ⟨s.bytes.drop (min c n), cuts⟩)

theorem Source.recieve_bytes (n : Nat) (s : Source) :
    (s.recieve n).1 ++ (s.recieve n).2.bytes = s.bytes := by
  unfold recieve
  cases s.cuts with
  | nil => rfl
  | cons c cuts => exact List.take_append_drop _ _

theorem Source.recieve_length (n : Nat) (s : Source) : (s.recieve n).1.length ≤ n := by
  unfold recieve
  cases s.cuts with
  | nil => exact Nat.zero_le n
  | cons c cuts => exact (List.length_take_le _ _).trans (Nat.min_le_right c n)

/-- Less than `n` bytes come although there are more. -/
theorem Source.recieve_short {n : Nat} {s : Source} (hn : n ≤ s.bytes.length)
    (h : (s.recieve n).1.length < n) :
    (s.cuts = [] ∧ s.recieve n = ([], s)) ∨
      ∃ c cuts, s.cuts = c :: cuts ∧ c < n ∧ s.recieve n = (s.bytes.take c, ⟨s.bytes.drop c, cuts⟩) := by
  cases hcuts : s.cuts with
  | nil =>
    refine .inl ⟨rfl, ?_⟩
    unfold recieve
    rw [hcuts]
  | cons c cuts =>
    have hrun : s.recieve n = (s.bytes.take (min c n), ⟨s.bytes.drop (min c n), cuts⟩) := by
      unfold recieve
      rw [hcuts]
    rw [hrun, List.length_take] at h
    have hmin : min c n = c := by omega
    rw [hmin] at hrun
    exact .inr ⟨c, cuts, rfl, by omega, hrun⟩

/-- All `n` bytes come. -/
theorem Source.recieve_full {n : Nat} {s : Source} (hpos : 0 < n)
    (h : (s.recieve n).1.length = n) :
    ∃ c cuts, s.cuts = c :: cuts ∧ n ≤ c ∧ s.recieve n = (s.bytes.take n, ⟨s.bytes.drop n, cuts⟩) := by
  unfold recieve at h ⊢
  cases hcuts : s.cuts with
  | nil =>
    rw [hcuts] at h
    exact absurd h (Nat.ne_of_lt hpos)
  | cons c cuts =>
    rw [hcuts] at h
    have hlen : (s.bytes.take (min c n)).length = n := h
    rw [List.length_take] at hlen
    have hmin : min c n = n := by omega
    refine ⟨c, cuts, rfl, by omega, ?_⟩
    show (s.bytes.take (min c n), (⟨s.bytes.drop (min c n), cuts⟩ : Source)) = _
    rw [hmin]

namespace packet

/-- `getFn` over a connection that does not fail: the number of bytes, and the bytes. -/
def getFn (buf_len : Nat) (s : Source) : Int × List UInt8 × Source :=
  ((s.recieve buf_len).1.length, (s.recieve buf_len).1, (s.recieve buf_len).2)

end packet

/-! ## `MQTTPacket_readnb` -/

/-- `MQTTTransport`, apart from `getfn` and its argument. -/
structure MQTTTransport where
  multiplier : Int
  rem_len : Int
  len : Int
  state : Int

/-- What `MQTTPacket_readnb` leaves behind. -/
structure Returned where
  code : Int
  buffer : Vector UInt8 rxBuffer_len
  transport : MQTTTransport
  source : Source

abbrev Readnb := (Nat → Source → Int × List UInt8 × Source) → Vector UInt8 rxBuffer_len →
  MQTTTransport → Source → Returned

/-- **A call of `MQTTPacket_readnb` that holds the first bytes of a packet**: it asks for more of them
until it gets less than it asks for, and returns 0, or has the whole packet. -/
inductive Call (ask : List UInt8 → Nat) (F : ControlPacket) :
    List UInt8 → Source → Int → List UInt8 → Source → Prop where
  | short (held got : List UInt8) (n : Int) (s s' : Source) :
    packet.getFn (ask held) s = (n, got, s') → n < ask held →
    Call ask F held s 0 (held ++ got) s'
  | more (held got : List UInt8) (n : Int) (s s' : Source) (code : Int) (held' : List UInt8)
      (s'' : Source) : packet.getFn (ask held) s = (n, got, s') → n = ask held →
    held ++ got ≠ F.bytes → Call ask F (held ++ got) s' code held' s'' →
    Call ask F held s code held' s''
  | complete (held got : List UInt8) (n : Int) (s s' : Source) :
    packet.getFn (ask held) s = (n, got, s') → n = ask held → held ++ got = F.bytes →
    Call ask F held s F.code F.bytes s'

/-- **What is documented about `MQTTPacket_readnb`**: what it asks for if it holds some bytes of a
packet, which bytes it holds in a transport and a buffer, and how a call goes. -/
structure Documented (readnb : Readnb) (ask : List UInt8 → Nat)
    (Holds : MQTTTransport → Vector UInt8 rxBuffer_len → List UInt8 → Prop) : Prop where
  /-- In state 0 it holds nothing. -/
  start : ∀ trp buf, trp.state = 0 → Holds trp buf []
  /-- It asks for nothing beyond the packet. -/
  asks : ∀ (F : ControlPacket) (held : List UInt8), held <+: F.bytes → held ≠ F.bytes →
    0 < ask held ∧ held.length + ask held ≤ F.bytes.length
  /-- It goes on with what it holds. -/
  call : ∀ (F : ControlPacket) (held rest : List UInt8) (trp : MQTTTransport)
    (buf : Vector UInt8 rxBuffer_len) (s : Source), Holds trp buf held → held <+: F.bytes →
    held ≠ F.bytes → held ++ s.bytes = F.bytes ++ rest →
    ∃ held', Call ask F held s (readnb packet.getFn buf trp s).code held'
        (readnb packet.getFn buf trp s).source ∧
      ((readnb packet.getFn buf trp s).code = 0 →
        Holds (readnb packet.getFn buf trp s).transport (readnb packet.getFn buf trp s).buffer held') ∧
      (held' = F.bytes → F.bytes <+: (readnb packet.getFn buf trp s).buffer.toList)
  /-- A packet that is read from whatever comes has no more bytes than have come. -/
  sound : ∀ (trp : MQTTTransport) (buf : Vector UInt8 rxBuffer_len) (s : Source), trp.state = 0 →
    ∃ n ≤ s.bytes.length, (readnb packet.getFn buf trp s).source.bytes = s.bytes.drop n ∧
      ∀ t, msgTypes.enumFromInt (readnb packet.getFn buf trp s).code = some t → t.isPacket = true →
        ∃ F : ControlPacket, F.bytes <+: (readnb packet.getFn buf trp s).buffer.toList ∧ F.bytes.length ≤ n

/-! ## `packet.read` -/

/-- The transport, `rxBuffer`, and the connection under them. -/
structure Reader where
  transport : MQTTTransport
  rxBuffer : Vector UInt8 rxBuffer_len
  source : Source

namespace packet

variable (readnb : Readnb)

/-- `packet.read`; `none` is an integer that `msgTypes` does not have. -/
def read (r : Reader) : Option msgTypes × Reader :=
  let x := readnb getFn r.rxBuffer { r.transport with state := 0 } r.source
  (msgTypes.enumFromInt x.code, ⟨x.transport, x.buffer, x.source⟩)

/-- The packets that `k` calls of `read` deliver. -/
def reads : Nat → Reader → List (msgTypes × List UInt8) × Reader
  | 0, r => ([], r)
  | k + 1, r =>
    match read readnb r with
    | (none, r') => ([], r')
    | (some t, r') =>
      ((if t.isPacket then [(t, firstFrame r'.rxBuffer.toList)] else []) ++ (reads k r').1,
        (reads k r').2)

end packet

/-- **Within a packet nothing is missing**: each call of `recieve` returns what it is asked for; at
the beginning of a packet it may return nothing. -/
def Fills (ask : List UInt8 → Nat) : List UInt8 → List ControlPacket → List Nat → Prop
  | _, [], _ => True
  | _, _ :: _, [] => False
  | held, F :: l, c :: cuts =>
    if c = 0 ∧ held = [] then Fills ask [] (F :: l) cuts
    else ask held ≤ c ∧
      if F.bytes.take (held.length + ask held) = F.bytes then Fills ask [] l cuts
      else Fills ask (F.bytes.take (held.length + ask held)) (F :: l) cuts

/-- What is delivered with a packet. -/
def ControlPacket.delivery (F : ControlPacket) : msgTypes × List UInt8 := (F.type, F.bytes)

/-! ## One call -/

section Calls

variable {ask : List UInt8 → Nat} {F : ControlPacket} {held rest : List UInt8} {s : Source}

/-- A call has read the packet, has read nothing at its beginning, or has stopped within it. -/
inductive Outcome (ask : List UInt8 → Nat) (F : ControlPacket) (rest held : List UInt8) (s : Source) :
    Int → List UInt8 → Source → Prop where
  | whole (s' : Source) : s'.bytes = rest →
    (∀ l, Fills ask held (F :: l) s.cuts ↔ Fills ask [] l s'.cuts) →
    Outcome ask F rest held s F.code F.bytes s'
  | idle (s' : Source) : held = [] → s'.bytes = s.bytes →
    (∀ l, Fills ask [] (F :: l) s.cuts ↔ Fills ask [] (F :: l) s'.cuts) →
    Outcome ask F rest held s 0 [] s'
  | torn (held' : List UInt8) (s' : Source) : s'.bytes.length < F.bytes.length + rest.length →
    (∀ l, ¬Fills ask held (F :: l) s.cuts) → Outcome ask F rest held s 0 held' s'

theorem fills_nil (cuts : List Nat) : Fills ask held [] cuts := by
  unfold Fills
  trivial

theorem fills_cons {c : Nat} {cuts : List Nat} {l : List ControlPacket} (h : ¬(c = 0 ∧ held = [])) :
    Fills ask held (F :: l) (c :: cuts) ↔ ask held ≤ c ∧
      if F.bytes.take (held.length + ask held) = F.bytes then Fills ask [] l cuts
      else Fills ask (F.bytes.take (held.length + ask held)) (F :: l) cuts := by
  rw [Fills, if_neg h]

/-- What a call gets belongs to the packet. -/
theorem recieve_bytes_of_packet (hs : held ++ s.bytes = F.bytes ++ rest)
    (hle : held.length + ask held ≤ F.bytes.length) :
    held ++ s.bytes.take (ask held) = F.bytes.take (held.length + ask held) := by
  have htake := congrArg (List.take (held.length + ask held)) hs
  rwa [List.take_length_add_append, List.take_append_of_le_length hle] at htake

theorem short_outcome (hpos : 0 < ask held) (hle : held.length + ask held ≤ F.bytes.length)
    (hs : held ++ s.bytes = F.bytes ++ rest)
    (hshort : (s.recieve (ask held)).1.length < ask held) :
    Outcome ask F rest held s 0 (held ++ (s.recieve (ask held)).1) (s.recieve (ask held)).2 := by
  have hlen := congrArg List.length hs
  rw [List.length_append, List.length_append] at hlen
  have hheld : held ≠ [] → 0 < held.length := List.length_pos_iff.mpr
  obtain ⟨hcuts, hrun⟩ | ⟨c, cuts, hcuts, hc, hrun⟩ := Source.recieve_short (by omega) hshort
  · rw [hrun]
    by_cases hnil : held = []
    · subst hnil
      exact .idle s rfl rfl fun l => Iff.rfl
    · have hpos := hheld hnil
      refine .torn _ s (by omega) fun l => ?_
      rw [hcuts]
      exact id
  · rw [hrun]
    by_cases hnone : c = 0 ∧ held = []
    · obtain ⟨rfl, rfl⟩ := hnone
      refine .idle _ rfl rfl fun l => ?_
      rw [hcuts, Fills, if_pos ⟨rfl, rfl⟩]
    · have hsome : 0 < held.length + c := by
        by_cases hnil : held = []
        · have hne : c ≠ 0 := fun hzero => hnone ⟨hzero, hnil⟩
          omega
        · have hpos := hheld hnil
          omega
      refine .torn _ _ ?_ fun l => ?_
      · show (s.bytes.drop c).length < _
        rw [List.length_drop]
        omega
      · rw [hcuts, fills_cons hnone]
        exact fun hfills => absurd hfills.1 (Nat.not_le.mpr hc)

theorem Call.outcome {code : Int} {held' : List UInt8} {s' : Source}
    (hasks : ∀ held, held <+: F.bytes → held ≠ F.bytes →
      0 < ask held ∧ held.length + ask held ≤ F.bytes.length)
    (h : Call ask F held s code held' s') (hbegin : held <+: F.bytes) (hne : held ≠ F.bytes)
    (hs : held ++ s.bytes = F.bytes ++ rest) : Outcome ask F rest held s code held' s' := by
  induction h with
  | short held got n s s' hget hlt =>
    obtain ⟨hpos, hle⟩ := hasks held hbegin hne
    cases hget
    exact short_outcome hpos hle hs (by exact_mod_cast hlt)
  | more held got n s s' code held' s'' hget hn hmore _ ih =>
    obtain ⟨hpos, hle⟩ := hasks held hbegin hne
    cases hget
    obtain ⟨c, cuts, hcuts, hc, hrun⟩ := Source.recieve_full hpos (by exact_mod_cast hn)
    have hbytes := recieve_bytes_of_packet hs hle
    have hrest := s.recieve_bytes (ask held)
    rw [hrun] at hmore ih hrest
    have hnext := ih (hbytes ▸ List.take_prefix _ _) hmore (by
      rw [List.append_assoc, hrest]
      exact hs)
    have hfills (l : List ControlPacket) : Fills ask held (F :: l) s.cuts ↔
        Fills ask (held ++ s.bytes.take (ask held)) (F :: l) cuts := by
      rw [hcuts, fills_cons fun hzero => by omega, ← hbytes, if_neg hmore]
      exact and_iff_right hc
    cases hnext with
    | whole s'' hwhole hall => exact .whole s'' hwhole fun l => (hfills l).trans (hall l)
    | idle s'' hnil =>
      have hzero := congrArg List.length (hbytes.symm.trans hnil)
      rw [List.length_take, List.length_nil] at hzero
      omega
    | torn _ s'' hlt hall => exact .torn _ s'' hlt fun l hl => hall l ((hfills l).mp hl)
  | complete held got n s s' hget hn hdone =>
    obtain ⟨hpos, hle⟩ := hasks held hbegin hne
    cases hget
    obtain ⟨c, cuts, hcuts, hc, hrun⟩ := Source.recieve_full hpos (by exact_mod_cast hn)
    have hbytes := recieve_bytes_of_packet hs hle
    have hrest := s.recieve_bytes (ask held)
    rw [hrun] at hdone hrest ⊢
    refine .whole _ ?_ fun l => ?_
    · rw [← hrest, ← List.append_assoc, hdone] at hs
      exact List.append_cancel_left hs
    · rw [hcuts, fills_cons fun hzero => by omega, ← hbytes, if_pos hdone]
      exact and_iff_right hc

end Calls

/-! ## All calls -/

section Reads

variable {readnb : Readnb} {ask : List UInt8 → Nat}
  {Holds : MQTTTransport → Vector UInt8 rxBuffer_len → List UInt8 → Prop}

theorem reads_stuck {k : Nat} {r r' : Reader} (h : packet.read readnb r = (none, r')) :
    packet.reads readnb (k + 1) r = ([], r') := by
  rw [packet.reads, h]

theorem reads_idle {k : Nat} {r r' : Reader} {t : msgTypes}
    (h : packet.read readnb r = (some t, r')) (ht : t.isPacket = false) :
    packet.reads readnb (k + 1) r = packet.reads readnb k r' := by
  rw [packet.reads, h]
  show ((if t.isPacket = true then _ else []) ++ _, _) = _
  rw [if_neg (by rw [ht]; exact Bool.false_ne_true)]
  rfl

theorem reads_packet {k : Nat} {r r' : Reader} {t : msgTypes}
    (h : packet.read readnb r = (some t, r')) (ht : t.isPacket = true) :
    packet.reads readnb (k + 1) r =
      ((t, firstFrame r'.rxBuffer.toList) :: (packet.reads readnb k r').1,
        (packet.reads readnb k r').2) := by
  rw [packet.reads, h]
  show ((if t.isPacket = true then _ else []) ++ _, _) = _
  rw [if_pos ht]
  rfl

theorem read_eq {r : Reader} {x : Returned}
    (h : readnb packet.getFn r.rxBuffer { r.transport with state := 0 } r.source = x) :
    packet.read readnb r =
      (msgTypes.enumFromInt x.code, ⟨x.transport, x.buffer, x.source⟩) := by
  unfold packet.read
  rw [h]

/-- The bytes of what is delivered. -/
def deliveredBytes (l : List (msgTypes × List UInt8)) : Nat := (l.map fun d => d.2.length).sum

/-- No more bytes are delivered than come. -/
theorem reads_bytes (h : Documented readnb ask Holds) (k : Nat) (r : Reader) :
    deliveredBytes (packet.reads readnb k r).1 ≤ r.source.bytes.length := by
  induction k generalizing r with
  | zero => exact Nat.zero_le _
  | succ k ih =>
    obtain ⟨n, hn, hbytes, hsound⟩ := h.sound { r.transport with state := 0 } r.rxBuffer r.source rfl
    generalize hx : readnb packet.getFn r.rxBuffer { r.transport with state := 0 } r.source = x at *
    have hread := read_eq hx
    have hleft : x.source.bytes.length = r.source.bytes.length - n := by
      rw [hbytes, List.length_drop]
    have hrest : deliveredBytes (packet.reads readnb k ⟨x.transport, x.buffer, x.source⟩).1 ≤
        x.source.bytes.length := ih _
    cases hcode : msgTypes.enumFromInt x.code with
    | none =>
      rw [hcode] at hread
      rw [reads_stuck hread]
      exact Nat.zero_le _
    | some t =>
      rw [hcode] at hread
      cases ht : t.isPacket with
      | false =>
        rw [reads_idle hread ht]
        omega
      | true =>
        obtain ⟨F, hF, hle⟩ := hsound t hcode ht
        rw [reads_packet hread ht, F.firstFrame_begin hF]
        show F.bytes.length + deliveredBytes _ ≤ _
        omega

theorem delivered_frames (l : List ControlPacket) :
    deliveredBytes (l.map ControlPacket.delivery) = (l.map ControlPacket.bytes).flatten.length := by
  unfold deliveredBytes
  rw [List.map_map, List.length_flatten, List.map_map]
  rfl

/-- Nothing comes out of an empty stream. -/
theorem reads_empty (h : Documented readnb ask Holds) (k : Nat) {r : Reader}
    (hr : r.source.bytes = []) : (packet.reads readnb k r).1 = [] := by
  induction k generalizing r with
  | zero => rfl
  | succ k ih =>
    obtain ⟨n, hn, hbytes, hsound⟩ := h.sound { r.transport with state := 0 } r.rxBuffer r.source rfl
    generalize hx : readnb packet.getFn r.rxBuffer { r.transport with state := 0 } r.source = x at *
    have hread := read_eq hx
    cases hcode : msgTypes.enumFromInt x.code with
    | none =>
      rw [hcode] at hread
      rw [reads_stuck hread]
    | some t =>
      rw [hcode] at hread
      cases ht : t.isPacket with
      | false =>
        rw [reads_idle hread ht]
        apply ih
        rw [hbytes, hr, List.drop_nil]
      | true =>
        obtain ⟨F, -, hle⟩ := hsound t hcode ht
        have hpos := F.bytes_pos
        rw [hr, List.length_nil] at hn
        omega

/-- **When the packets of a stream are delivered**: if all bytes of a stream of packets have been read,
the packets have been delivered exactly if no call of `getFn` within a packet has returned less than
it was asked for. -/
theorem framed_iff (h : Documented readnb ask Holds) {l : List ControlPacket} {k : Nat} {r : Reader}
    (hr : r.source.bytes = (l.map ControlPacket.bytes).flatten)
    (hk : (packet.reads readnb k r).2.source.bytes = []) :
    (packet.reads readnb k r).1 = l.map ControlPacket.delivery ↔ Fills ask [] l r.source.cuts := by
  induction k generalizing l r with
  | zero =>
    have hnil : l = [] := by
      cases l with
      | nil => rfl
      | cons F l =>
        have hlen := congrArg List.length (hr.symm.trans hk)
        rw [List.map_cons, List.flatten_cons, List.length_append, List.length_nil] at hlen
        have hpos := F.bytes_pos
        omega
    subst hnil
    exact iff_of_true rfl (fills_nil _)
  | succ k ih =>
    cases l with
    | nil => exact iff_of_true (reads_empty h _ hr) (fills_nil _)
    | cons F l =>
      have hbytes : [] ++ r.source.bytes = F.bytes ++ (l.map ControlPacket.bytes).flatten := hr
      have hne : [] ≠ F.bytes := fun hnil => by
        have hpos := F.bytes_pos
        rw [← hnil] at hpos
        exact absurd hpos (Nat.lt_irrefl 0)
      obtain ⟨held', hcall, -, hbuffer⟩ := h.call F [] _ { r.transport with state := 0 } r.rxBuffer
        r.source (h.start _ _ rfl) List.nil_prefix hne hbytes
      have hout := hcall.outcome (h.asks F) List.nil_prefix hne hbytes
      generalize hx : readnb packet.getFn r.rxBuffer { r.transport with state := 0 } r.source = x
        at *
      have hread := read_eq hx
      generalize hcode : x.code = code at hout
      generalize hsource : x.source = s' at hout
      cases hout with
      | whole _ hrest hfills =>
        obtain ⟨htype, hpacket⟩ := F.enumFromInt_code
        rw [hcode, htype] at hread
        rw [reads_packet hread hpacket] at hk ⊢
        have hnext := ih (l := l) (r := ⟨x.transport, x.buffer, x.source⟩) (hsource ▸ hrest) hk
        rw [F.firstFrame_begin (hbuffer rfl), hfills l, List.map_cons, ControlPacket.delivery,
          List.cons_inj_right, hnext, hsource]
      | idle _ _ hsame hfills =>
        rw [hcode] at hread
        rw [reads_idle (t := .try_again) hread rfl] at hk ⊢
        have hnext := ih (l := F :: l) (r := ⟨x.transport, x.buffer, x.source⟩)
          ((hsource ▸ hsame : x.source.bytes = r.source.bytes).trans hr) hk
        rw [hnext, hfills l, hsource]
      | torn held' _ hlt hfills =>
        rw [hcode] at hread
        rw [reads_idle (t := .try_again) hread rfl]
        refine iff_of_false (fun hall => ?_) (hfills l)
        have hle := reads_bytes h k ⟨x.transport, x.buffer, x.source⟩
        rw [hall, delivered_frames, List.map_cons, List.flatten_cons, List.length_append] at hle
        rw [← hsource] at hlt
        exact absurd hle (Nat.not_le.mpr hlt)

end Reads


/-! ## A reader -/

namespace Sample

/-- What follows the remaining length, which begins with `a`. -/
def bodyAfter (a : UInt8) (rest : List UInt8) : List UInt8 :=
  if a.toNat < 128 then rest else rest.drop 1

def ofParts (b : UInt8) (body : List UInt8) : Option ControlPacket :=
  if h : (0 < b.toNat / 16 ∧ b.toNat / 16 < 15) ∧
      1 + (lengthBytes body.length).length + body.length ≤ rxBuffer_len then
    some ⟨b, body, h.1, h.2⟩
  else none

/-- The packet that `l` is, if it is one. -/
def decode (l : List UInt8) : Option ControlPacket :=
  match l with
  | b :: a :: rest => (ofParts b (bodyAfter a rest)).filter fun F => F.bytes = l
  | _ => none

/-- One byte at a time until the length is known, then the rest. -/
def missing (held : List UInt8) : Nat :=
  if frameLength held = 0 then 1 else frameLength held - held.length

def collect (getFn : Nat → Source → Int × List UInt8 × Source) :
    Nat → List UInt8 → Source → Int × List UInt8 × Source
  | 0, held, s => (-1, held, s)
  | n + 1, held, s =>
    match getFn (missing held) s with
    | (k, got, s') =>
      if k < missing held then (0, held ++ got, s')
      else match decode (held ++ got) with
        | some F => (F.code, held ++ got, s')
        | none => collect getFn n (held ++ got) s'

/-- The bytes at the beginning of the buffer. -/
def store (buf : Vector UInt8 rxBuffer_len) (held : List UInt8) : Vector UInt8 rxBuffer_len :=
  Vector.ofFn fun i => held[i.val]?.getD buf[i]

def heldIn (trp : MQTTTransport) (buf : Vector UInt8 rxBuffer_len) : List UInt8 :=
  if trp.state = 0 then [] else buf.toList.take trp.len.toNat

/-- `MQTTPacket_readnb` as far as it is documented. -/
def readnb : Readnb := fun getFn buf trp s =>
  let x := collect getFn rxBuffer_len (heldIn trp buf) s
  ⟨x.1, store buf x.2.1, ⟨1, 0, x.2.1.length, if x.1 = 0 then 1 else 0⟩, x.2.2⟩

theorem decode_some {l : List UInt8} {F : ControlPacket} (h : decode l = some F) : F.bytes = l := by
  unfold decode at h
  split at h
  · exact of_decide_eq_true (Option.filter_eq_some_iff.mp h).2
  · cases h

theorem decode_bytes (F : ControlPacket) : decode F.bytes = some F := by
  have hle := F.body_le
  obtain ⟨a, rest, hrest, hbody⟩ : ∃ a rest, lengthBytes F.body.length ++ F.body = a :: rest ∧
      bodyAfter a rest = F.body := by
    unfold lengthBytes bodyAfter
    by_cases hshort : F.body.length < 128
    · refine ⟨UInt8.ofNat F.body.length, F.body, by rw [if_pos hshort]; rfl, ?_⟩
      rw [UInt8.toNat_ofNat_of_lt' (by unfold UInt8.size; omega), if_pos hshort]
    · refine ⟨UInt8.ofNat (F.body.length % 128 + 128), UInt8.ofNat (F.body.length / 128) :: F.body,
        by rw [if_neg hshort]; rfl, ?_⟩
      rw [UInt8.toNat_ofNat_of_lt' (by unfold UInt8.size; omega), if_neg (by omega)]
      rfl
  have hbytes : F.bytes = F.header :: a :: rest := congrArg (F.header :: ·) hrest
  have hparts : ofParts F.header F.body = some F := dif_pos ⟨F.known, F.fits⟩
  rw [hbytes]
  show (ofParts F.header (bodyAfter a rest)).filter _ = some F
  rw [hbody, hparts, ← hbytes]
  exact Option.filter_eq_some_iff.mpr ⟨rfl, decide_eq_true rfl⟩

/-- A packet is not the beginning of another one. -/
theorem decode_begin {F : ControlPacket} {l : List UInt8} (h : l <+: F.bytes) (hne : l ≠ F.bytes) :
    decode l = none := by
  cases hF : decode l with
  | none => rfl
  | some F' =>
    obtain rfl := decode_some hF
    have hpos := F'.bytes_pos
    have hown := F'.frameLength_begin (List.prefix_refl _)
    have hlen := F.frameLength_begin h
    exact absurd (h.eq_of_length (by omega)) hne

theorem missing_begin {F : ControlPacket} {held : List UInt8} (h : held <+: F.bytes)
    (hne : held ≠ F.bytes) : 0 < missing held ∧ held.length + missing held ≤ F.bytes.length := by
  have hlt : held.length < F.bytes.length :=
    Nat.lt_of_le_of_ne h.length_le fun heq => hne (h.eq_of_length heq)
  have hpos := F.bytes_pos
  unfold missing
  obtain ⟨hzero, -⟩ | hlen := F.frameLength_begin h
  · rw [if_pos hzero]
    omega
  · rw [if_neg (by omega)]
    omega

theorem store_begin {b : Vector UInt8 rxBuffer_len} {held : List UInt8}
    (h : held.length ≤ rxBuffer_len) : held <+: (store b held).toList := by
  rw [List.prefix_iff_eq_take]
  apply List.ext_getElem
  · rw [List.length_take, Vector.length_toList]
    omega
  · intro i hi _
    rw [List.getElem_take, Vector.getElem_toList]
    unfold store
    rw [Vector.getElem_ofFn, List.getElem?_eq_getElem hi]
    rfl

section Collect

variable {held got : List UInt8} {s s' : Source} {k : Int} (n : Nat)

theorem collect_short (h : packet.getFn (missing held) s = (k, got, s')) (hk : k < missing held) :
    collect packet.getFn (n + 1) held s = (0, held ++ got, s') := by
  rw [collect, h]
  exact if_pos hk

theorem collect_done {F : ControlPacket} (h : packet.getFn (missing held) s = (k, got, s'))
    (hk : ¬k < missing held) (hF : decode (held ++ got) = some F) :
    collect packet.getFn (n + 1) held s = ((F.code : Int), held ++ got, s') := by
  rw [collect, h]
  apply (if_neg hk).trans
  rw [hF]

theorem collect_more (h : packet.getFn (missing held) s = (k, got, s'))
    (hk : ¬k < missing held) (hF : decode (held ++ got) = none) :
    collect packet.getFn (n + 1) held s = collect packet.getFn n (held ++ got) s' := by
  rw [collect, h]
  apply (if_neg hk).trans
  rw [hF]

end Collect

theorem getFn_run {got : List UInt8} {s s' : Source} {k : Int} {n : Nat}
    (h : packet.getFn n s = (k, got, s')) : k ≤ n ∧ got.length = k ∧ got ++ s'.bytes = s.bytes := by
  cases h
  refine ⟨?_, rfl, s.recieve_bytes n⟩
  have hle := s.recieve_length n
  exact_mod_cast hle

/-- The calls of `getFn` make up a call that holds the beginning of a packet. -/
theorem collect_call {F : ControlPacket} {rest held : List UInt8} {s : Source} {n : Nat}
    {x : Int × List UInt8 × Source} (hx : collect packet.getFn n held s = x)
    (hn : F.bytes.length ≤ held.length + n) (h : held <+: F.bytes) (hne : held ≠ F.bytes)
    (hs : held ++ s.bytes = F.bytes ++ rest) :
    Call missing F held s x.1 x.2.1 x.2.2 ∧ x.2.1 <+: F.bytes := by
  induction n generalizing held s with
  | zero => exact absurd (h.eq_of_length (Nat.le_antisymm h.length_le hn)) hne
  | succ n ih =>
    obtain ⟨hpos, hle⟩ := missing_begin h hne
    obtain ⟨k, got, s', hget⟩ : ∃ k got s', packet.getFn (missing held) s = (k, got, s') :=
      ⟨_, _, _, rfl⟩
    obtain ⟨hk, hlen, hbytes⟩ := getFn_run hget
    have hall : held ++ got ++ s'.bytes = F.bytes ++ rest := by
      rw [List.append_assoc, hbytes]
      exact hs
    have hbegin : held ++ got <+: F.bytes := by
      refine List.prefix_of_prefix_length_le ⟨_, hall⟩ (List.prefix_append _ _) ?_
      rw [List.length_append]
      omega
    by_cases hshort : k < missing held
    · rw [collect_short n hget hshort] at hx
      subst hx
      exact ⟨.short held got k s s' hget hshort, hbegin⟩
    · have hfull : k = missing held := by omega
      by_cases hdone : held ++ got = F.bytes
      · rw [collect_done n hget hshort (hdone ▸ decode_bytes F), hdone] at hx
        subst hx
        exact ⟨.complete held got k s s' hget hfull hdone, List.prefix_refl _⟩
      · rw [collect_more n hget hshort (decode_begin hbegin hdone)] at hx
        have hgrow : (held ++ got).length = held.length + got.length := List.length_append
        obtain ⟨hcall, hheld⟩ := ih hx (by omega) hbegin hdone hall
        exact ⟨.more held got k s s' x.1 x.2.1 x.2.2 hget hfull hdone hcall, hheld⟩

/-- Whatever comes, the bytes are kept in their order, and a packet is what is held. -/
theorem collect_sound {held : List UInt8} {s : Source} {n : Nat} {x : Int × List UInt8 × Source}
    (hx : collect packet.getFn n held s = x) : x.2.1 ++ x.2.2.bytes = held ++ s.bytes ∧
      (x.1 = 0 ∨ x.1 = -1 ∨ ∃ F : ControlPacket, x.2.1 = F.bytes) := by
  induction n generalizing held s with
  | zero =>
    subst hx
    exact ⟨rfl, .inr (.inl rfl)⟩
  | succ n ih =>
    obtain ⟨k, got, s', hget⟩ : ∃ k got s', packet.getFn (missing held) s = (k, got, s') :=
      ⟨_, _, _, rfl⟩
    obtain ⟨-, -, hbytes⟩ := getFn_run hget
    have hall : held ++ got ++ s'.bytes = held ++ s.bytes := by rw [List.append_assoc, hbytes]
    by_cases hshort : k < missing held
    · rw [collect_short n hget hshort] at hx
      subst hx
      exact ⟨hall, .inl rfl⟩
    · cases hF : decode (held ++ got) with
      | some F =>
        rw [collect_done n hget hshort hF] at hx
        subst hx
        exact ⟨hall, .inr (.inr ⟨F, (decode_some hF).symm⟩)⟩
      | none =>
        rw [collect_more n hget hshort hF] at hx
        obtain ⟨hnext, hend⟩ := ih hx
        exact ⟨hnext.trans hall, hend⟩

/-- A call that has stopped holds what it has stored. -/
theorem heldIn_next {code : Int} (h : code = 0) {buf : Vector UInt8 rxBuffer_len} {n : Nat} :
    heldIn ⟨1, 0, n, if code = 0 then 1 else 0⟩ buf = buf.toList.take n := by
  rw [if_pos h]
  rfl

theorem documented : Documented readnb missing fun trp buf held => held = heldIn trp buf where
  start trp buf h := (if_pos h).symm
  asks F held := missing_begin
  call F held rest trp buf s hheld hbegin hne hs := by
    subst hheld
    have hn : F.bytes.length ≤ (heldIn trp buf).length + rxBuffer_len := Nat.le_add_left_of_le F.bytes_le
    obtain ⟨hcall, hwhole⟩ := collect_call rfl hn hbegin hne hs
    have hstore := store_begin (b := buf) (hwhole.length_le.trans F.bytes_le)
    refine ⟨_, hcall, fun hcode => ?_, fun hF => ?_⟩
    · exact (List.prefix_iff_eq_take.mp hstore).trans (heldIn_next hcode).symm
    · rw [← hF]
      exact hstore
  sound trp buf s h := by
    have hnone : heldIn trp buf = [] := if_pos h
    generalize hx : collect packet.getFn rxBuffer_len (heldIn trp buf) s = x
    obtain ⟨hbytes, hend⟩ := collect_sound hx
    have hrun : readnb packet.getFn buf trp s =
        ⟨x.1, store buf x.2.1, ⟨1, 0, x.2.1.length, if x.1 = 0 then 1 else 0⟩, x.2.2⟩ := by
      rw [readnb, hx]
    have hstream : x.2.1 ++ x.2.2.bytes = s.bytes := by rwa [hnone] at hbytes
    rw [hrun]
    refine ⟨x.2.1.length, ?_, ?_, fun t ht hpacket => ?_⟩
    · rw [← hstream, List.length_append]
      exact Nat.le_add_right _ _
    · rw [← hstream, List.drop_left]
    · obtain hzero | hfail | ⟨F, hF⟩ := hend
      · rw [hzero] at ht
        cases ht
        cases hpacket
      · rw [hfail] at ht
        cases ht
        cases hpacket
      · have hle : x.2.1.length ≤ rxBuffer_len := by
          rw [hF]
          exact F.bytes_le
        exact ⟨F, hF ▸ store_begin hle, Nat.le_of_eq (congrArg List.length hF.symm)⟩

/-- A PUBACK of the packet 7. -/
def puback : ControlPacket := ⟨0x40, [0, 7], by decide, by decide⟩

def pingresp : ControlPacket := ⟨0xd0, [], by decide, by decide⟩

def reader (cuts : List Nat) : Reader :=
  ⟨⟨0, 0, 0, 0⟩, Vector.replicate _ 0, ⟨puback.bytes ++ pingresp.bytes, cuts⟩⟩

end Sample

open Sample in
/-- An empty read before the second packet does no harm. -/
theorem framed_iff_example :
    (packet.reads readnb 4 (reader [1, 1, 2, 0, 1, 1])).1 = [puback.delivery, pingresp.delivery] :=
  (framed_iff (l := [puback, pingresp]) documented rfl (by decide)).mpr (by
    show Fills missing [] [puback, pingresp] [1, 1, 2, 0, 1, 1]
    simp [Fills, missing, frameLength, ControlPacket.bytes, lengthBytes, puback, pingresp])

end Miso.Mqtt
