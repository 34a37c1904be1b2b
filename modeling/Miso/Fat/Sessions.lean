import Miso.Fat.Seeking
import Miso.Fat.Truncating
import Miso.Fat.Mounting

/-!
# Sessions with open files

* `Stream` — a file as its user sees it: its bytes, as far as they are known, its size and the pointer;
* `Stream.Answers` — what a request may return, and what it leaves;
* `Serving` — the open files of a volume are streams;
* `Request.on_at` — a request is answered as by the stream, and the other streams stay as they are;
* `sessions_at` — so are all requests of a session, in whatever order the files are used;
* `synced_survives` — what has been synchronised is there when the power has been lost.
-/

namespace Miso.Fat

open Sd Zig

/-- A request for an open file. -/
inductive Request where
  | read (btr : Nat)
  | write (buff : List UInt8)
  | lseek (ofs : Nat)
  | truncate
  | sync (tm : Nat)

/-- What it returns. -/
inductive Reply where
  | bytes (r : Option (FRESULT × List UInt8))
  | count (r : Option (FRESULT × Nat))
  | result (r : Option FRESULT)
  deriving DecidableEq

/-- A volume with its open files. -/
structure Desk (δ ι : Type) where
  fs : FATFS δ
  fps : ι → FIL

section Requests

variable {δ ι : Type} [DecidableEq ι] (G : Geometry) (D : Disk δ)

def Request.run : Request → StateM (Opened δ) Reply
  | read btr => do return .bytes (← f_read G D btr)
  | write buff => do return .count (← f_write G D buff)
  | lseek ofs => do return .result (← f_lseek G D ofs)
  | truncate => do return .result (← f_truncate G D)
  | sync tm => do return .result (some (← f_sync G D tm))

/-- A request for the file `i`. -/
def Request.on (i : ι) (q : Request) : StateM (Desk δ ι) Reply := fun d =>
  let x := q.run G D ⟨d.fs, d.fps i⟩
  (x.1, ⟨x.2.fs, Function.update d.fps i x.2.fp⟩)

/-- Requests for the files. -/
def Request.session : List (ι × Request) → StateM (Desk δ ι) (List Reply)
  | [] => return []
  | q :: qs => do
    let a ← Request.on G D q.1 q.2
    let as ← Request.session qs
    return a :: as

end Requests

/-- The arguments have 32 bits. -/
def Request.Fits : Request → Prop
  | read _ => True
  | write buff => buff.length < 4294967296
  | lseek ofs => ofs < 4294967296
  | truncate => True
  | sync _ => True

/-! ## Streams -/

/-- **A file as its user sees it.**  A byte that has not been written is `none`. -/
structure Stream where
  bytes : Nat → Option UInt8
  size : Nat
  pos : Nat
  readable : Bool
  writable : Bool

namespace Stream

/-- Where a seek leads to: a file that is only read is not extended. -/
def target (s : Stream) (ofs : Nat) : Nat := if s.size < ofs ∧ ¬s.writable then s.size else ofs

/-- **The answers of a stream**; `full` says that there is no free cluster. -/
inductive Answers (full : Prop) (s : Stream) : Request → Reply → Stream → Prop
  | read (btr : Nat) (bs : List UInt8) (mode : s.readable = true)
      (length : bs.length = min btr (s.size - s.pos)) (reads : Reads s.bytes s.pos bs) :
      Answers full s (.read btr) (.bytes (some (.FR_OK, bs))) { s with pos := s.pos + bs.length }
  | unreadable (btr : Nat) (mode : ¬s.readable) :
      Answers full s (.read btr) (.bytes (some (.FR_DENIED, []))) s
  | write (buff : List UInt8) (m : Nat) (mode : s.writable = true)
      (most : m ≤ min buff.length (4294967295 - s.pos))
      (short : m < min buff.length (4294967295 - s.pos) → full) :
      Answers full s (.write buff) (.count (some (.FR_OK, m))) { s with
        bytes := patch s.bytes s.pos (buff.take m), size := max (s.pos + m) s.size, pos := s.pos + m }
  | unwritable (buff : List UInt8) (mode : ¬s.writable) :
      Answers full s (.write buff) (.count (some (.FR_DENIED, 0))) s
  | lseek (ofs p : Nat) (short : p ≠ s.target ofs → p < s.target ofs ∧ s.size ≤ p ∧ full) :
      Answers full s (.lseek ofs) (.result (some .FR_OK)) { s with size := max p s.size, pos := p }
  | truncate (mode : s.writable = true) :
      Answers full s .truncate (.result (some .FR_OK)) { s with bytes := cut s.bytes s.pos, size := s.pos }
  | untruncated (mode : ¬s.writable) : Answers full s .truncate (.result (some .FR_DENIED)) s
  | sync (tm : Nat) : Answers full s (.sync tm) (.result (some .FR_OK)) s

end Stream

namespace Mounted

variable {δ ι : Type} {M : Mounted δ} {files : ι → List Nat} {other : Nat → Prop}
  {data data' : Nat → Block} {i : ι}

/-- The file `fp` with the clusters `l` is the stream `s`. -/
structure Shows (M : Mounted δ) (data : Nat → Block) (l : List Nat) (s : Stream) (fp : FIL) : Prop where
  sound : Sound M.G data l s.bytes fp
  size : fp.objsize = s.size
  pos : fp.fptr = s.pos
  readable : fp.FA_READ = s.readable
  writable : fp.FA_WRITE = s.writable
  err : fp.err = .FR_OK
  listed : M.Listed fp

/-- **The open files are streams.** -/
def Serving (M : Mounted δ) (other : Nat → Prop) (files : ι → List Nat) (streams : ι → Stream)
    (d : Desk δ ι) : Prop :=
  ∃ data, M.Chained files other data d.fs ∧ ∀ i, M.Shows data (files i) (streams i) (d.fps i)

/-- Another file is not written to. -/
theorem Chained.elsewhere {fs : FATFS δ} (h : M.Chained files other data fs) {data₀ : Nat → Block}
    (hown : Own M.G (files i) data₀ data') {j : ι} (hj : j ≠ i) :
    ∀ c ∈ files j, ∀ s, M.G.InCluster c s → data' s = data₀ s := fun c hc s hin => by
  obtain ⟨T, h', -, hb⟩ := h
  refine hown s fun c' hc' hin' => hj ?_
  have heq := hin.eq hin' (hb.chains.range j c hc).1 (hb.chains.range i c' hc').1
  exact hb.chains.apart j i c hc (heq ▸ hc')

/-- Clusters that are not written to keep their stream. -/
theorem Shows.apart {l : List Nat} {s : Stream} {fp : FIL} (h : M.Shows data l s fp)
    (hdata : ∀ c ∈ l, ∀ t, M.G.InCluster c t → data' t = data t) : M.Shows data' l s fp :=
  ⟨⟨h.sound.sized, h.sound.buffered.apart h.sound.sized hdata, h.sound.placed⟩, h.size, h.pos, h.readable,
    h.writable, h.err, h.listed⟩

/-- The mode of a file has not changed. -/
theorem Shows.of {l : List Nat} {s s' : Stream} {fp fp' : FIL} (h : M.Shows data l s fp) {l' : List Nat}
    (hsound : Sound M.G data' l' s'.bytes fp') (hmode : fp.Mode fp') (hsize : fp'.objsize = s'.size)
    (hpos : fp'.fptr = s'.pos) (hread : s'.readable = s.readable) (hwrite : s'.writable = s.writable) :
    M.Shows data' l' s' fp' := by
  refine ⟨hsound, hsize, hpos, ?_, ?_, hmode.err.trans h.err, ?_, ?_, ?_⟩
  · rw [hmode.read, h.readable, hread]
  · rw [hmode.write, h.writable, hwrite]
  · rw [hmode.dir_sect]
    exact h.listed.window
  · rw [hmode.dir_sect]
    exact h.listed.first
  · rw [hmode.dir_ptr]
    exact h.listed.ptr

variable [DecidableEq ι]

/-- One file has changed. -/
theorem serving_update {streams : ι → Stream} {d : Desk δ ι} {files' : ι → List Nat} {s' : Stream}
    {fs' : FATFS δ} {fp' : FIL} (hd : ∀ j, M.Shows data (files j) (streams j) (d.fps j))
    (hfs' : M.Chained files' other data' fs') (hothers : ∀ j, j ≠ i → files' j = files j)
    (hdata : ∀ j, j ≠ i → ∀ c ∈ files j, ∀ t, M.G.InCluster c t → data' t = data t)
    (hi : M.Shows data' (files' i) s' fp') :
    M.Serving other files' (Function.update streams i s') ⟨fs', Function.update d.fps i fp'⟩ := by
  refine ⟨data', hfs', fun j => ?_⟩
  by_cases hj : j = i
  · subst hj
    show M.Shows data' (files' j) (Function.update streams j s' j) (Function.update d.fps j fp' j)
    rw [Function.update_self, Function.update_self]
    exact hi
  · show M.Shows data' (files' j) (Function.update streams i s' j) (Function.update d.fps i fp' j)
    rw [Function.update_of_ne hj, Function.update_of_ne hj, hothers j hj]
    exact (hd j).apart (hdata j hj)

/-- What a request is about: the answer and what is left. -/
def Answered (M : Mounted δ) (other : Nat → Prop) (streams : ι → Stream) (i : ι) (q : Request) (a : Reply)
    (d : Desk δ ι) : Prop :=
  ∃ files' s', Stream.Answers (M.Full files' other) (streams i) q a s' ∧
    M.Serving other files' (Function.update streams i s') d

variable (hM : M.Sane other) {streams : ι → Stream} {d : Desk δ ι}
  (hfs : M.Chained files other data d.fs) (hd : ∀ j, M.Shows data (files j) (streams j) (d.fps j))

theorem answered_of {q : Request} {a : Reply} {o' : Opened δ}
    (hrun : q.run M.G M.D ⟨d.fs, d.fps i⟩ = (a, o'))
    (h : M.Answered other streams i q a ⟨o'.fs, Function.update d.fps i o'.fp⟩) :
    M.Answered other streams i q (q.on M.G M.D i d).1 (q.on M.G M.D i d).2 := by
  unfold Request.on
  rw [hrun]
  exact h

/-- The error and the mode of a file are looked at before anything else. -/
theorem denied_of {α : Type} {o : Opened δ} {mode : Opened δ → Prop} [DecidablePred mode] {f : Opened δ → α}
    {a : α} {m : Opened δ → StateM (Opened δ) α} (herr : o.fp.err = .FR_OK) (hmode : mode o) :
    Triple (fun o' => o' = o) (get >>= fun s => if s.fp.err ≠ .FR_OK then pure (f s) else
      if mode s then pure a else m s) fun r o' => r = a ∧ o' = o := by
  refine Triple.get_bind fun s hs => ?_
  rw [hs]
  refine Triple.ite (fun hne => absurd herr hne) fun _ => Triple.ite (fun _ => ?_) fun hno => absurd hmode hno
  exact Triple.ret fun o' ho' => ⟨rfl, ho'⟩

/-- A request that is denied changes nothing. -/
theorem answered_denied {q : Request} {a : Reply} (hrun : q.run M.G M.D ⟨d.fs, d.fps i⟩ = (a, ⟨d.fs, d.fps i⟩))
    (hfs : M.Chained files other data d.fs) (hd : ∀ j, M.Shows data (files j) (streams j) (d.fps j))
    (ha : Stream.Answers (M.Full files other) (streams i) q a (streams i)) :
    M.Answered other streams i q (q.on M.G M.D i d).1 (q.on M.G M.D i d).2 :=
  answered_of hrun ⟨files, streams i, ha,
    serving_update hd hfs (fun _ _ => rfl) (fun _ _ _ _ _ _ => rfl) (hd i)⟩

include hM hfs hd in
theorem read_answered (btr : Nat) : M.Answered other streams i (.read btr)
    (Request.on M.G M.D i (.read btr) d).1 (Request.on M.G M.D i (.read btr) d).2 := by
  have hi := hd i
  by_cases hmode : (d.fps i).FA_READ = true
  · obtain ⟨bytes, data', fp', hr, hlen, hread, hhold⟩ := f_read_at hM (hfs.mine i) btr hi.sound hi.err hmode
      ⟨d.fs, d.fps i⟩ ⟨rfl, hfs⟩
    have hmode' : (d.fps i).Mode fp' := by
      rw [hread.same]
      exact ⟨rfl, rfl, rfl, rfl, rfl⟩
    refine answered_of (Prod.ext (congrArg Reply.bytes hr) rfl)
      ⟨files, { streams i with pos := (streams i).pos + bytes.length }, ?_, ?_⟩
    · exact .read btr bytes (hi.readable.symm.trans hmode) (by rw [hlen, hi.size, hi.pos]) (hi.pos ▸ hread.reads)
    · refine serving_update hd hhold.fs (fun _ _ => rfl) (fun j hj => hfs.elsewhere hread.own hj) ?_
      show M.Shows data' (files i) _ (f_read M.G M.D btr ⟨d.fs, d.fps i⟩).2.fp
      rw [hhold.fp]
      refine hi.of hread.sound hmode' ?_ ?_ rfl rfl
      · rw [hread.same]
        exact hi.size
      · rw [hread.same, ← hi.pos]
  · have hdenied : Triple (fun o => o = ⟨d.fs, d.fps i⟩) (f_read M.G M.D btr) fun r o =>
        r = some (.FR_DENIED, []) ∧ o = ⟨d.fs, d.fps i⟩ :=
      denied_of hi.err hmode
    obtain ⟨hr, ho⟩ := hdenied _ rfl
    exact answered_denied (Prod.ext (congrArg Reply.bytes hr) ho) hfs hd
      (.unreadable btr fun h => hmode (hi.readable.trans h))

include hM hfs hd in
theorem write_answered {buff : List UInt8} (hbuff : buff.length < 4294967296) :
    M.Answered other streams i (.write buff) (Request.on M.G M.D i (.write buff) d).1
      (Request.on M.G M.D i (.write buff) d).2 := by
  have hi := hd i
  by_cases hmode : (d.fps i).FA_WRITE = true
  · obtain ⟨m, files', data', fp', hr, hmost, hshort, -, hwritten, hhold⟩ := f_write_at hM (hfs.mine i) hbuff
      hi.sound hi.err hmode ⟨d.fs, d.fps i⟩ ⟨rfl, hfs⟩
    have hlen : (buff.take m).length = m := by
      rw [List.length_take]
      omega
    have hmode' : (d.fps i).Mode fp' := by
      rw [hwritten.same]
      exact ⟨rfl, rfl, rfl, rfl, rfl⟩
    rw [hi.pos] at hmost hshort
    refine answered_of (Prod.ext (congrArg Reply.count hr) rfl) ⟨files', { streams i with
      bytes := patch (streams i).bytes (streams i).pos (buff.take m),
      size := max ((streams i).pos + m) (streams i).size, pos := (streams i).pos + m }, ?_, ?_⟩
    · exact .write buff m (hi.writable.symm.trans hmode) hmost hshort
    · refine serving_update hd hhold.fs hwritten.extended.others (fun j hj => ?_) ?_
      · rw [← hwritten.extended.others j hj]
        exact hhold.fs.elsewhere hwritten.own hj
      · show M.Shows data' (files' i) _ (f_write M.G M.D buff ⟨d.fs, d.fps i⟩).2.fp
        rw [hhold.fp]
        refine hi.of (hi.pos ▸ hwritten.sound) hmode' ?_ ?_ rfl rfl
        · rw [hwritten.same, hlen, hi.pos, hi.size]
        · rw [hwritten.same, hlen, hi.pos]
  · have hdenied : Triple (fun o => o = ⟨d.fs, d.fps i⟩) (f_write M.G M.D buff) fun r o =>
        r = some (.FR_DENIED, 0) ∧ o = ⟨d.fs, d.fps i⟩ :=
      denied_of hi.err hmode
    obtain ⟨hr, ho⟩ := hdenied _ rfl
    exact answered_denied (Prod.ext (congrArg Reply.count hr) ho) hfs hd
      (.unwritable buff fun h => hmode (hi.writable.trans h))

include hM hfs hd in
theorem lseek_answered {ofs : Nat} (hofs : ofs < 4294967296) :
    M.Answered other streams i (.lseek ofs) (Request.on M.G M.D i (.lseek ofs) d).1
      (Request.on M.G M.D i (.lseek ofs) d).2 := by
  have hi := hd i
  obtain ⟨files', data', fp', hr, hseeked, hhold⟩ := f_lseek_at hM (hfs.mine i) hi.sound hi.err hofs
    ⟨d.fs, d.fps i⟩ ⟨rfl, hfs⟩
  have hmode' : (d.fps i).Mode fp' := by
    rw [hseeked.same]
    exact ⟨rfl, rfl, rfl, rfl, rfl⟩
  have htarget : FIL.target (d.fps i) ofs = (streams i).target ofs := by
    unfold FIL.target Stream.target
    rw [hi.size, hi.writable]
  have hthere := hseeked.there
  rw [htarget, hi.size] at hthere
  refine answered_of (Prod.ext (congrArg Reply.result hr) rfl)
    ⟨files', { streams i with size := max fp'.fptr (streams i).size, pos := fp'.fptr }, ?_, ?_⟩
  · exact .lseek ofs fp'.fptr hthere
  · refine serving_update hd hhold.fs hseeked.extended.others (fun j hj => ?_) ?_
    · rw [← hseeked.extended.others j hj]
      exact hhold.fs.elsewhere hseeked.own hj
    · show M.Shows data' (files' i) _ (f_lseek M.G M.D ofs ⟨d.fs, d.fps i⟩).2.fp
      rw [hhold.fp]
      refine hi.of hseeked.sound hmode' ?_ rfl rfl rfl
      show fp'.objsize = max fp'.fptr (streams i).size
      rw [← hi.size]
      exact congrArg FIL.objsize hseeked.same

include hM hfs hd in
theorem truncate_answered : M.Answered other streams i .truncate (Request.on M.G M.D i .truncate d).1
    (Request.on M.G M.D i .truncate d).2 := by
  have hi := hd i
  by_cases hmode : (d.fps i).FA_WRITE = true
  · obtain ⟨files', data', fp', hr, htruncated, hhold⟩ := f_truncate_at hM (hfs.mine i) hi.sound hi.err hmode
      ⟨d.fs, d.fps i⟩ ⟨rfl, hfs⟩
    have hmode' : (d.fps i).Mode fp' := by
      rw [htruncated.same]
      exact ⟨rfl, rfl, rfl, rfl, rfl⟩
    have hothers : ∀ j, j ≠ i → files' j = files j := fun j hj => by
      have hle := hi.sound.placed.fptr_le
      obtain hlt | heq := Nat.lt_or_eq_of_le hle
      · rw [htruncated.removed hlt]
        exact Function.update_of_ne hj ..
      · rw [htruncated.idle heq]
    refine answered_of (Prod.ext (congrArg Reply.result hr) rfl) ⟨files', { streams i with
      bytes := cut (streams i).bytes (streams i).pos, size := (streams i).pos }, ?_, ?_⟩
    · exact .truncate (hi.writable.symm.trans hmode)
    · refine serving_update hd hhold.fs hothers (fun j hj => hfs.elsewhere htruncated.own hj) ?_
      show M.Shows data' (files' i) _ (f_truncate M.G M.D ⟨d.fs, d.fps i⟩).2.fp
      rw [hhold.fp]
      refine hi.of (hi.pos ▸ htruncated.sound) hmode' ?_ ?_ rfl rfl
      · rw [htruncated.same]
        exact hi.pos
      · rw [htruncated.same]
        exact hi.pos
  · have hdenied : Triple (fun o => o = ⟨d.fs, d.fps i⟩) (f_truncate M.G M.D) fun r o =>
        r = some .FR_DENIED ∧ o = ⟨d.fs, d.fps i⟩ :=
      denied_of hi.err hmode
    obtain ⟨hr, ho⟩ := hdenied _ rfl
    exact answered_denied (Prod.ext (congrArg Reply.result hr) ho) hfs hd
      (.untruncated fun h => hmode (hi.writable.trans h))

include hM hfs hd in
theorem sync_answered (tm : Nat) : M.Answered other streams i (.sync tm)
    (Request.on M.G M.D i (.sync tm) d).1 (Request.on M.G M.D i (.sync tm) d).2 := by
  have hi := hd i
  obtain ⟨data', fp', hr, -, hsynced, hhold⟩ := f_sync_at hM hi.listed tm (hfs.mine i) hi.sound
    ⟨d.fs, d.fps i⟩ ⟨rfl, hfs⟩
  have hmode' : (d.fps i).Mode fp' := by
    rw [hsynced.same]
    exact ⟨rfl, rfl, rfl, rfl, rfl⟩
  have hother : ∀ j, j ≠ i → ∀ c ∈ files j, ∀ t, M.G.InCluster c t → data' t = data t := by
    intro j hj c hc t hin
    obtain ⟨T, h', -, hb⟩ := hfs
    refine hsynced.own t (fun heq => ?_) fun c' hc' hin' => hj ?_
    · rw [heq] at hin
      exact hb.spares.apart c j (hM.window _ c hi.listed.window hin) hc
    · have heq := hin.eq hin' (hb.chains.range j c hc).1 (hb.chains.range i c' hc').1
      exact hb.chains.apart j i c hc (heq ▸ hc')
  refine answered_of (Prod.ext (congrArg (fun r => Reply.result (some r)) hr) rfl) ⟨files, streams i, ?_, ?_⟩
  · exact .sync tm
  · refine serving_update hd hhold.fs (fun _ _ => rfl) hother ?_
    show M.Shows data' (files i) _ (f_sync M.G M.D tm ⟨d.fs, d.fps i⟩).2.fp
    rw [hhold.fp]
    refine hi.of hsynced.sound hmode' ?_ ?_ rfl rfl
    · rw [hsynced.same]
      exact hi.size
    · rw [hsynced.same]
      exact hi.pos

include hM in
/-- **A request is answered as by the stream of its file**, and no other stream changes. -/
theorem Request.on_at {q : Request} (hq : q.Fits) {files : ι → List Nat} :
    Triple (M.Serving other files streams) (q.on M.G M.D i) (M.Answered other streams i q) := by
  rintro d ⟨data, hfs, hd⟩
  cases q with
  | read btr => exact read_answered hM hfs hd btr
  | write buff => exact write_answered hM hfs hd hq
  | lseek ofs => exact lseek_answered hM hfs hd hq
  | truncate => exact truncate_answered hM hfs hd
  | sync tm => exact sync_answered hM hfs hd tm

/-- **A session**: each request is answered as by the stream of its file. -/
inductive Session (M : Mounted δ) (other : Nat → Prop) : (ι → Stream) → List (ι × Request) → List Reply →
    (ι → List Nat) → (ι → Stream) → Prop
  | nil (files : ι → List Nat) (streams : ι → Stream) : Session M other streams [] [] files streams
  | cons {streams streams' : ι → Stream} {q : ι × Request} {qs : List (ι × Request)} {a : Reply}
      {as : List Reply} {files files' : ι → List Nat} {s : Stream}
      (answer : Stream.Answers (M.Full files other) (streams q.1) q.2 a s)
      (rest : Session M other (Function.update streams q.1 s) qs as files' streams') :
      Session M other streams (q :: qs) (a :: as) files' streams'

include hM in
/-- **The open files of a volume are streams**, in whatever order they are used. -/
theorem sessions_at {qs : List (ι × Request)} (hqs : ∀ q ∈ qs, q.2.Fits) {files : ι → List Nat} :
    Triple (M.Serving other files streams) (Request.session M.G M.D qs) fun as d => ∃ files' streams',
      Session M other streams qs as files' streams' ∧ M.Serving other files' streams' d := by
  induction qs generalizing streams files with
  | nil => exact Triple.ret fun d hd => ⟨files, streams, .nil files streams, hd⟩
  | cons q qs ih =>
    refine Triple.bind (Request.on_at hM (hqs q List.mem_cons_self)) fun a => ?_
    rintro d ⟨files', s, ha, hd⟩
    obtain ⟨files'', streams', hsession, hd'⟩ := ih (fun x hx => hqs x (List.mem_cons_of_mem q hx)) d hd
    exact ⟨files'', streams', .cons ha hsession, hd'⟩

include hM in
/-- **The open files of a volume are streams**: whatever requests are made of them, and in whatever order,
each is answered as by the stream of its file, and no other stream changes. -/
theorem sessions_answered {qs : List (ι × Request)} (hqs : ∀ q ∈ qs, q.2.Fits) {files : ι → List Nat}
    (hd : M.Serving other files streams d) : ∃ files' streams',
      Session M other streams qs (Request.session M.G M.D qs d).1 files' streams' ∧
        M.Serving other files' streams' (Request.session M.G M.D qs d).2 := sessions_at hM hqs d hd

/-! ## Losing the power -/

include hM hfs hd in
/-- After `f_sync` the disk has the file. -/
theorem sync_durable {tm : Nat} (hmod : (d.fps i).FA_MODIFIED = true) {fs' : FATFS δ}
    (hfs' : ∀ blocks, M.Has blocks (Request.on M.G M.D i (.sync tm) d).2.fs.disk → M.Has blocks fs'.disk)
    (r w : Bool) : (mount_volume M.G M.D fs').1 = .FR_OK ∧
      ∃ data' fp', (reopen M.G M.D (d.fps i).dir_sect (d.fps i).dir_ptr r w (mount_volume M.G M.D fs').2).1 =
          some fp' ∧
        M.Chained files other data'
          (reopen M.G M.D (d.fps i).dir_sect (d.fps i).dir_ptr r w (mount_volume M.G M.D fs').2).2 ∧
        M.Shows data' (files i) { streams i with pos := 0, readable := r, writable := w } fp' := by
  have hi := hd i
  obtain ⟨data', fp', -, hsettled, hsynced, hhold⟩ := f_sync_at hM hi.listed tm (hfs.mine i) hi.sound
    ⟨d.fs, d.fps i⟩ ⟨rfl, hfs⟩
  have hsame := hsynced.same
  have hsect : fp'.dir_sect = (d.fps i).dir_sect := by rw [hsame]
  have hptr : fp'.dir_ptr = (d.fps i).dir_ptr := by rw [hsame]
  have hsize : fp'.objsize = (d.fps i).objsize := by rw [hsame]
  have hdescribed : Described M.G (data' fp'.dir_sect) fp' := by
    have hlimit : (d.fps i).sclust ≤ M.G.fs_type.limit := by
      have hle := M.G.le_limit
      rw [hi.sound.sized.start]
      cases hfiles : files i with
      | nil => exact Nat.zero_le _
      | cons c l =>
        have hrange := (hfs.mine i).range c (by simp [hfiles])
        show c ≤ _
        omega
    have hentry : Described M.G (f_sync.entry M.G (d.fps i) tm (data (d.fps i).dir_sect)) (d.fps i) :=
      entry_described hi.listed.ptr hlimit hi.sound.sized.size_lt
    have hdir := hsynced.dir
    rw [if_pos hmod] at hdir
    rw [hsect, hdir]
    refine ⟨?_, ?_⟩
    · rw [hptr, hsame]
      exact hentry.start
    · rw [hptr, hsize]
      exact hentry.size
  obtain ⟨hok, hremount⟩ := hhold.fs.remount hM (hsettled hmod) hfs'
  obtain ⟨hopen, hchained⟩ := reopen_at hM hi.listed r w _ hremount
  refine ⟨hok, data', _, hopen, hchained, ?_⟩
  have hsound := reopened (r := r) (w := w) hsynced.sound (hsynced.dirty hmod) hdescribed
  rw [hsect, hptr] at hsound
  refine ⟨hsound, ?_, rfl, rfl, rfl, rfl, hi.listed.window, hi.listed.first, hi.listed.ptr⟩
  rw [hsect] at hdescribed
  have hobjsize := hdescribed.size
  rw [hptr, hsize, hi.size] at hobjsize
  exact hobjsize

include hM in
/-- **What has been synchronised survives**: if the power is lost when `f_sync` has returned, after whatever
requests, and the volume is mounted again, from whatever the file system object holds then, the file has the
contents it had. -/
theorem synced_survives {qs : List (ι × Request)} (hqs : ∀ q ∈ qs, q.2.Fits) {files : ι → List Nat}
    (hd : M.Serving other files streams d) {tm : Nat} {fs' : FATFS δ} (r w : Bool)
    (hmod : ((Request.session M.G M.D qs d).2.fps i).FA_MODIFIED = true)
    (hfs' : ∀ blocks,
      M.Has blocks (Request.on M.G M.D i (.sync tm) (Request.session M.G M.D qs d).2).2.fs.disk →
        M.Has blocks fs'.disk) :
    ∃ files' streams' data' fp', Session M other streams qs (Request.session M.G M.D qs d).1 files' streams' ∧
      (mount_volume M.G M.D fs').1 = .FR_OK ∧
      (reopen M.G M.D ((Request.session M.G M.D qs d).2.fps i).dir_sect
        ((Request.session M.G M.D qs d).2.fps i).dir_ptr r w (mount_volume M.G M.D fs').2).1 = some fp' ∧
      M.Chained files' other data' (reopen M.G M.D ((Request.session M.G M.D qs d).2.fps i).dir_sect
        ((Request.session M.G M.D qs d).2.fps i).dir_ptr r w (mount_volume M.G M.D fs').2).2 ∧
      M.Shows data' (files' i) { streams' i with pos := 0, readable := r, writable := w } fp' := by
  obtain ⟨files', streams', hsession, data, hfs, hshows⟩ := sessions_at hM hqs d hd
  obtain ⟨hok, data', fp', hopen, hchained, hshow⟩ := sync_durable hM hfs hshows hmod hfs' r w
  exact ⟨files', streams', data', fp', hsession, hok, hopen, hchained, hshow⟩

end Mounted

/-! ## A small volume -/

/-- A disk that is an array of sectors. -/
def Disk.array : Disk (Nat → Block) where
  disk_read s n := fun blocks => ((.RES_OK, load blocks s n), blocks)
  disk_write buff s n := fun blocks => (.RES_OK, store blocks s n buff)
  sync := fun blocks => (.RES_OK, blocks)

theorem Disk.array_keeps (capacity : Nat) :
    Disk.array.Keeps capacity False fun blocks d => d = blocks := by
  refine ⟨?_, ?_, ?_⟩
  · rintro blocks s n - - _ rfl
    exact ⟨rfl, fun _ => rfl, fun hne => hne rfl⟩
  · rintro blocks buff s n - - - _ rfl
    exact ⟨_, rfl, fun i hi => if_neg hi, fun _ => rfl, fun hne => hne rfl⟩
  · rintro blocks _ rfl
    exact ⟨rfl, fun hne => hne rfl⟩

/-- Eight clusters of one sector; the table is in sector 1, and the directory in sector 2. -/
def Geometry.small : Geometry where
  fs_type := .FS_FAT12
  csize := 1
  n_fats := 1
  fsize := 1
  n_fatent := 10
  volbase := 0
  fatbase := 1
  database := 3
  BPB_FSInfo32 := 0
  capacity := 11
  n_fats_cases := .inl rfl
  csize_pos := by decide
  csize_lt := by decide
  csize_pow := by decide
  three_le := by decide
  le_limit := by decide
  table_fits := by decide
  volbase_lt := by decide
  fsinfo_lt := fun h => absurd h (by decide)
  table_le := by decide
  data_le := by decide
  capacity_lt := by decide

def Mounted.small : Mounted (Nat → Block) where
  G := Geometry.small
  D := Disk.array
  W := fun s => s = 1 ∨ s = 2
  faulty := False
  Has := fun blocks d => d = blocks
  keeps := Disk.array_keeps _
  windowed := by
    refine ⟨fun s hs => ⟨?_, fun h => absurd h.1 (by decide), fun h => absurd h.1 (by decide)⟩, fun s hs => .inl ?_⟩
    · obtain rfl | rfl := hs <;> decide
    · obtain ⟨hlow, hhigh⟩ : 1 ≤ s ∧ s < 1 + 1 := hs
      omega
  whole := fun _ h => h

/-- A file that has just been created. -/
def FIL.created : FIL where
  sclust := 0
  objsize := 0
  FA_READ := true
  FA_WRITE := true
  FA_MODIFIED := true
  FA_DIRTY := false
  err := .FR_OK
  fptr := 0
  clust := 0
  sect := 0
  dir_sect := 2
  dir_ptr := 0
  buf := Vector.replicate 512 0

/-- The empty volume, with its file. -/
def Desk.empty {δ : Type} (disk : δ) : Desk δ Unit where
  fs := ⟨0, 8, 0, false, 0, Vector.replicate 512 0, disk⟩
  fps := fun _ => FIL.created

def Desk.small : Desk (Nat → Block) Unit := Desk.empty fun _ => Vector.replicate 512 0

def Stream.empty : Stream := ⟨fun _ => none, 0, 0, true, true⟩

theorem Mounted.small_sane : Mounted.small.Sane fun _ => False := by
  refine ⟨fun h => h, fun s c hs hin => ?_⟩
  have hbase : 3 + 1 * (c - 2) ≤ s := hin.1
  obtain rfl | rfl := hs <;> omega

/-- The bytes of empty sectors. -/
theorem empty_bytes (G : Geometry) : G.bytes (fun _ => Vector.replicate 512 0) = fun _ => 0 := by
  funext k
  show (Vector.replicate 512 (0 : UInt8)).toList.getD (k % 512) 0 = 0
  rw [Vector.toList_replicate, List.getD_eq_getElem?_getD, List.getElem?_replicate_of_lt (Nat.mod_lt _ (by decide))]
  rfl

theorem empty_entry (t : FsType) (c : Nat) : t.entry (fun _ => 0) c = 0 := by
  cases t with
  | FS_FAT12 =>
    simp only [FsType.entry]
    split <;> decide
  | FS_FAT16 => rfl
  | FS_FAT32 => rfl

theorem empty_chained {δ ι : Type} {M : Mounted δ} {disk : δ} (hn : M.G.n_fatent = 10) (hfats : M.G.n_fats = 1)
    (hinfo : M.G.BPB_FSInfo32 = 0)
    (hW : ¬M.W 0) (hhas : M.Has (fun _ => Vector.replicate 512 0) disk) :
    M.Chained (fun _ : ι => []) (fun _ => False) (fun _ => Vector.replicate 512 0) (Desk.empty disk).fs := by
  refine ⟨fun _ => 0, (Desk.empty disk).fs.hints,
    ⟨fun _ => Vector.replicate 512 0, ⟨rfl, _, hhas, ?_⟩, fun c _ _ => ?_, fun _ _ _ => rfl⟩, ?_⟩
  · exact ⟨fun h => absurd h Bool.false_ne_true, fun h => absurd h hW, fun _ _ _ => rfl,
      fun _ h => absurd (hfats.symm.trans h) (by decide),
      fun _ hi => absurd (hinfo.symm.trans hi.2) (by decide)⟩
  · rw [empty_bytes]
    exact empty_entry _ c
  · have hcounted : Counted M.G.n_fatent (fun _ => 0) 8 := by
      rw [hn]
      exact fun _ => show 8 = (freeSet 10 fun _ => 0).card by decide
    exact ⟨⟨by simp, fun _ => rfl, fun _ => List.nodup_nil, by simp, by simp⟩,
      ⟨by simp, rfl, List.nodup_nil, by simp⟩, ⟨fun _ h => h.elim, by simp⟩, by simp,
      fun _ _ _ _ h => absurd rfl h, fun _ => hcounted⟩

theorem empty_serving {δ : Type} {M : Mounted δ} {disk : δ} (hG : M.G = Geometry.small)
    (hW : M.W = fun s => s = 1 ∨ s = 2) (hhas : M.Has (fun _ => Vector.replicate 512 0) disk) :
    M.Serving (fun _ => False) (fun _ => []) (fun _ => Stream.empty) (Desk.empty disk) := by
  obtain ⟨G, D, W, faulty, Has, keeps, windowed, whole⟩ := M
  obtain rfl : G = Geometry.small := hG
  obtain rfl : W = fun s => s = 1 ∨ s = 2 := hW
  refine ⟨fun _ => Vector.replicate 512 0, empty_chained rfl rfl rfl ?_ hhas, fun _ => ?_⟩
  · exact show ¬((0 : Nat) = 1 ∨ (0 : Nat) = 2) by decide
  · have hnone (o : Nat) (b : UInt8) (P : Prop) : Stream.empty.bytes o = some b → P := fun h => by cases h
    have hsound : Sound Geometry.small (fun _ => Vector.replicate 512 0) [] Stream.empty.bytes FIL.created :=
      ⟨⟨rfl, fun o b h => hnone o b _ h, Nat.zero_le _, by decide⟩, ⟨fun o b h => hnone o b _ h,
        fun o b h => hnone o b _ h, fun h => absurd h (by decide), by decide⟩, ⟨Nat.le_refl _,
          fun h => absurd h (by decide), fun h => absurd h (by decide)⟩⟩
    have hfirst : ¬Geometry.small.First 2 := fun h => absurd h.2 (by decide)
    exact ⟨hsound, rfl, rfl, rfl, rfl, rfl, .inr rfl, hfirst, show 0 + 32 ≤ 512 by decide⟩

theorem Mounted.small_serving :
    Mounted.small.Serving (fun _ => False) (fun _ => []) (fun _ => Stream.empty) Desk.small :=
  empty_serving rfl rfl rfl

/-- Three bytes are written, and read. -/
theorem Mounted.sessions_answered_small : ∃ files' streams', Mounted.Session Mounted.small (fun _ => False)
    (fun _ => Stream.empty) [((), .write [1, 2, 3]), ((), .lseek 0), ((), .read 3), ((), .sync 0)]
    (Request.session Mounted.small.G Mounted.small.D
      [((), .write [1, 2, 3]), ((), .lseek 0), ((), .read 3), ((), .sync 0)] Desk.small).1 files' streams' ∧
    Mounted.small.Serving (fun _ => False) files' streams' (Request.session Mounted.small.G Mounted.small.D
      [((), .write [1, 2, 3]), ((), .lseek 0), ((), .read 3), ((), .sync 0)] Desk.small).2 := by
  refine Mounted.sessions_answered Mounted.small_sane (fun q hq => ?_) Mounted.small_serving
  simp only [List.mem_cons, List.not_mem_nil, or_false] at hq
  obtain rfl | rfl | rfl | rfl := hq
  · exact show 3 < 4294967296 by decide
  · exact show 0 < 4294967296 by decide
  · exact trivial
  · exact trivial

/-! ## A formatted volume -/

/-- A volume with entries of 32 bits, and `FSINFO`. -/
def Geometry.formatted : Geometry where
  fs_type := .FS_FAT32
  csize := 1
  n_fats := 1
  fsize := 512
  n_fatent := 65528
  volbase := 0
  fatbase := 32
  database := 544
  BPB_FSInfo32 := 1
  capacity := 66070
  n_fats_cases := .inl rfl
  csize_pos := by decide
  csize_lt := by decide
  csize_pow := by decide
  three_le := by decide
  le_limit := by decide
  table_fits := by decide
  volbase_lt := by decide
  fsinfo_lt := fun _ => by decide
  table_le := by decide
  data_le := by decide
  capacity_lt := by decide

/-- The root directory has cluster 2, and the others are free. -/
def formatted (i : Nat) : Block :=
  if i = 1 then sync_fs.info 65525 2
  else if i = 32 then st_dword (Vector.replicate 512 0) 8 0x0FFFFFFF
  else Vector.replicate 512 0

/-- Its table; the first two entries are reserved. -/
def formattedTable (c : Nat) : Nat := if c ≤ 2 then 0x0FFFFFFF else 0

theorem formatted_bytes (k : Nat) :
    Geometry.formatted.bytes formatted k = if k = 11 then 0x0F else if 8 ≤ k ∧ k < 11 then 0xFF else 0 := by
  unfold Geometry.bytes formatted
  have hzero {j : Nat} (hj : j < 512) : byte (Vector.replicate 512 0) j = 0 := by
    unfold byte
    rw [Vector.toList_replicate, List.getD_eq_getElem?_getD, List.getElem?_replicate_of_lt hj]
    rfl
  have hbase : Geometry.formatted.fatbase = 32 := rfl
  have hlt : k % 512 < 512 := Nat.mod_lt _ (by decide)
  rw [hbase, if_neg (by omega)]
  by_cases hk : k < 512
  · rw [if_pos (by omega), byte_st_dword (by decide) hlt, hzero hlt, Nat.mod_eq_of_lt hk]
    split_ifs <;> first | rfl | omega
  · rw [if_neg (by omega), hzero hlt, if_neg (by omega), if_neg (by omega)]

theorem formatted_entry {c : Nat} (hlow : 2 ≤ c) :
    FsType.FS_FAT32.entry (Geometry.formatted.bytes formatted) c = formattedTable c := by
  show ((Geometry.formatted.bytes formatted (c * 4)).toNat + 256 * (Geometry.formatted.bytes formatted (c * 4 + 1)).toNat +
    65536 * (Geometry.formatted.bytes formatted (c * 4 + 2)).toNat +
      16777216 * (Geometry.formatted.bytes formatted (c * 4 + 3)).toNat) % 268435456 = formattedTable c
  rw [formatted_bytes, formatted_bytes, formatted_bytes, formatted_bytes]
  by_cases hc : c = 2
  · subst hc
    decide
  · unfold formattedTable
    rw [if_neg (by omega), if_neg (by omega), if_neg (by omega), if_neg (by omega),
      if_neg (by omega), if_neg (by omega), if_neg (by omega), if_neg (by omega),
      if_neg (by omega)]
    rfl

theorem formatted_free : (freeSet 65528 formattedTable).card = 65525 := by
  have hset : freeSet 65528 formattedTable = Finset.Ico 3 65528 := by
    ext c
    unfold freeSet formattedTable
    rw [Finset.mem_filter, Finset.mem_Ico, Finset.mem_Ico]
    by_cases hc : c ≤ 2
    · rw [if_pos hc]
      omega
    · rw [if_neg hc]
      omega
  rw [hset, Nat.card_Ico]

/-- The volume has been mounted: `FSINFO` is in the window. -/
def Desk.mounted {δ : Type} (disk : δ) : Desk δ Unit where
  fs := ⟨2, 65525, 0, false, 1, sync_fs.info 65525 2, disk⟩
  fps := fun _ => { FIL.created with dir_sect := 544 }

theorem formatted_chained {δ ι : Type} {M : Mounted δ} {disk : δ} (hG : M.G = Geometry.formatted)
    (hhas : M.Has formatted disk) : M.Chained (fun _ : ι => []) (· ≤ 2) formatted (Desk.mounted disk).fs := by
  obtain ⟨G, D, W, faulty, Has, keeps, windowed, whole⟩ := M
  obtain rfl : G = Geometry.formatted := hG
  refine ⟨formattedTable, (Desk.mounted disk).fs.hints,
    ⟨formatted, ⟨rfl, _, hhas, ?_⟩, fun c hlow _ => formatted_entry hlow, fun _ _ _ => rfl⟩, ?_⟩
  · refine ⟨fun h => absurd h Bool.false_ne_true, fun h => ?_, fun _ _ _ => rfl,
      fun _ h => absurd (show (1 : Nat) = 2 from h) (by decide),
      fun _ _ => ⟨.inl rfl, show 65525 < 4294967296 by decide, fun _ _ => ?_⟩⟩
    · exact absurd ⟨rfl, rfl⟩ (windowed.core _ h).2.2
    · exact info_free (by decide)
  · have hcounted : Counted 65528 formattedTable 65525 := fun _ => formatted_free.symm
    refine ⟨⟨by simp, fun _ => rfl, fun _ => List.nodup_nil, by simp, fun c _ _ => ?_⟩,
      ⟨by simp, rfl, List.nodup_nil, by simp⟩, ⟨fun c hc => ?_, by simp⟩, by simp,
      fun _ c _ _ hused => .inr (.inl ?_), fun _ => hcounted⟩
    · unfold formattedTable
      split <;> decide
    · unfold formattedTable
      rw [if_pos hc]
      decide
    · exact Classical.byContradiction fun hne => hused (if_neg hne)

theorem Geometry.formatted_windowed :
    Geometry.formatted.Windowed fun s => Geometry.formatted.First s ∨ s = 544 := by
  refine ⟨fun s hs => ?_, fun s hs => .inl hs⟩
  obtain hs | rfl := hs
  · exact hs.core
  · exact ⟨by decide, fun h => absurd h.1 (by decide), fun h => absurd h.2 (by decide)⟩

theorem formatted_window {s c : Nat} (hs : Geometry.formatted.First s ∨ s = 544)
    (hin : Geometry.formatted.InCluster c s) : c ≤ 2 := by
  have hbase : 544 + 1 * (c - 2) ≤ s := hin.1
  obtain hs | hs := hs
  · have hlt : s < 32 + 512 := hs.2
    omega
  · omega

theorem formatted_serving {δ : Type} {M : Mounted δ} {disk : δ} (hG : M.G = Geometry.formatted)
    (hW : M.W = fun s => Geometry.formatted.First s ∨ s = 544) (hhas : M.Has formatted disk) :
    M.Serving (· ≤ 2) (fun _ => []) (fun _ => Stream.empty) (Desk.mounted disk) := by
  refine ⟨formatted, formatted_chained hG hhas, fun _ => ?_⟩
  obtain ⟨G, D, W, faulty, Has, keeps, windowed, whole⟩ := M
  obtain rfl : G = Geometry.formatted := hG
  obtain rfl : W = fun s => Geometry.formatted.First s ∨ s = 544 := hW
  have hnone (o : Nat) (b : UInt8) (P : Prop) : Stream.empty.bytes o = some b → P := fun h => by cases h
  have hsound : Sound Geometry.formatted formatted [] Stream.empty.bytes { FIL.created with dir_sect := 544 } :=
    ⟨⟨rfl, fun o b h => hnone o b _ h, Nat.zero_le _, by decide⟩, ⟨fun o b h => hnone o b _ h,
      fun o b h => hnone o b _ h, fun h => absurd h (by decide), by decide⟩, ⟨Nat.le_refl _,
        fun h => absurd h (by decide), fun h => absurd h (by decide)⟩⟩
  have hfirst : ¬Geometry.formatted.First 544 := fun h => absurd h.2 (by decide)
  exact ⟨hsound, rfl, rfl, rfl, rfl, rfl, .inr rfl, hfirst, show 0 + 32 ≤ 512 by decide⟩

def Mounted.formatted : Mounted (Nat → Block) where
  G := Geometry.formatted
  D := Disk.array
  W := fun s => Geometry.formatted.First s ∨ s = 544
  faulty := False
  Has := fun blocks d => d = blocks
  keeps := Disk.array_keeps _
  windowed := Geometry.formatted_windowed
  whole := fun _ h => h

/-- Three bytes are written, and two of them read. -/
def Request.three : List (Unit × Request) := [((), .write [1, 2, 3]), ((), .lseek 0), ((), .read 2)]

/-- After a reset, the file system object is zero. -/
def FATFS.zero {δ : Type} (disk : δ) : FATFS δ := ⟨0, 0, 0, false, 0, Vector.replicate 512 0, disk⟩

/-- A file with three bytes is synchronised, and found on the disk. -/
theorem Mounted.synced_survives_formatted : ∃ s t files' streams' data' fp',
    Request.session Mounted.formatted.G Mounted.formatted.D Request.three (Desk.mounted Fat.formatted) = s ∧
    Request.on Mounted.formatted.G Mounted.formatted.D () (.sync 0) s.2 = t ∧
    Mounted.Session Mounted.formatted (· ≤ 2) (fun _ => Stream.empty) Request.three s.1 files' streams' ∧
    (mount_volume Mounted.formatted.G Mounted.formatted.D (.zero t.2.fs.disk)).1 = .FR_OK ∧
    (reopen Mounted.formatted.G Mounted.formatted.D (s.2.fps ()).dir_sect (s.2.fps ()).dir_ptr true false
      (mount_volume Mounted.formatted.G Mounted.formatted.D (.zero t.2.fs.disk)).2).1 = some fp' ∧
    Mounted.formatted.Chained files' (· ≤ 2) data' (reopen Mounted.formatted.G Mounted.formatted.D
      (s.2.fps ()).dir_sect (s.2.fps ()).dir_ptr true false
      (mount_volume Mounted.formatted.G Mounted.formatted.D (.zero t.2.fs.disk)).2).2 ∧
    Mounted.formatted.Shows data' (files' ())
      { streams' () with pos := 0, readable := true, writable := false } fp' := by
  have hsane : Mounted.formatted.Sane (· ≤ 2) := ⟨fun h => h, fun s c hs hin => formatted_window hs hin⟩
  have hserving : Mounted.formatted.Serving (· ≤ 2) (fun _ => []) (fun _ => Stream.empty)
      (Desk.mounted Fat.formatted) := formatted_serving rfl rfl rfl
  have hfits : ∀ q ∈ Request.three, q.2.Fits := by
    simp [Request.three, Request.Fits]
  have hmod : ((Request.session Mounted.formatted.G Mounted.formatted.D Request.three
      (Desk.mounted Fat.formatted)).2.fps ()).FA_MODIFIED = true := by
    decide +kernel
  have hdisk (disk : Nat → Block) (blocks : Nat → Block) (hhas : Mounted.formatted.Has blocks disk) :
      Mounted.formatted.Has blocks (FATFS.zero disk).disk := hhas
  obtain ⟨files', streams', data', fp', hsurvives⟩ :=
    Mounted.synced_survives hsane hfits hserving true false hmod (hdisk (Request.on Mounted.formatted.G
      Mounted.formatted.D () (.sync 0) (Request.session Mounted.formatted.G Mounted.formatted.D
        Request.three (Desk.mounted Fat.formatted)).2).2.fs.disk)
  exact ⟨_, _, files', streams', data', fp', rfl, rfl, hsurvives⟩

end Miso.Fat
