import Miso.Zig.Chain
import Miso.Zig.System

/-!
# The session list of the LwM2M client

`lwm2m_connect_server` and `lwm2m_close_connection` (`miso_lightclient.c`) keep a list of nodes,
which `connection_create` allocates (`connection.c`); each node stands for a connection that
`lwm2mservice_create_connection` (`lwm2m.zig`) opened.  At the end the client task calls
`connection_free` on the list.

* `Listed` — the list holds the sessions that are open, in opening order, in every state;
* `Matched` — each connection opened is closed once, after its session has ended;
* `Released` — after `connection_free` no node is allocated any more;
* `corresponds_iff` — all three hold of a run exactly if no connection is open when it reaches
  `connection_free`, and the list is right in any case.

Closing a session frees its node and not its connection, `connection_free` leaves out the last
one of two nodes or more, and frees none.
-/

namespace Miso.Lwm2m

open Zig

/-- The address of a node. -/
abbrev Address := Nat

/-- What `void * param` points to. -/
abbrev Param := Nat

structure connection_s where
  next : Option Address
  parent : Param
  deriving DecidableEq, Repr

/-- The fields of `client_data_t` that the list needs. -/
structure client_data_t where
  connList : Option Address
  param : Param
  deriving DecidableEq, Repr

/-- A call to the service that changed the transport. -/
inductive Call where
  | opened (param : Param)
  | closed (param : Param)
  deriving DecidableEq, Repr

def Call.isOpened : Call → Bool
  | .opened _ => true
  | .closed _ => false

/-- The nodes in memory, those that are allocated, the client's data and the calls so far. -/
structure World where
  heap : Address → connection_s
  live : List Address
  data : client_data_t
  calls : List Call

namespace World

variable (w : World)

def next (a : Address) : Option Address := (w.heap a).next

def setNext (a : Address) (p : Option Address) : World :=
  { w with heap := Function.update w.heap a { w.heap a with next := p } }

/-- A node from `lwm2m_malloc`, filled in by `connection_create`. -/
def prepare (newConn : Address) (ctx : Param) : World :=
  { w with heap := Function.update w.heap newConn ⟨none, ctx⟩, live := w.live ++ [newConn] }

def lwm2m_free (a : Address) : World := { w with live := w.live.erase a }

/-- The connections opened so far, and those closed. -/
def opened : Nat := w.calls.countP Call.isOpened

def closed : Nat := w.calls.countP fun c => !c.isOpened

/-! ## The service -/

/-- `lwm2mservice_create_connection`, when the URI parses and when `connection.open` succeeds. -/
def lwm2mservice_create_connection (param : Param) (parses opens : Bool) : Int × World :=
  if parses && opens then (0, { w with calls := w.calls ++ [.opened param] }) else (-1, w)

def lwm2mservice_close_connection (param : Param) : World :=
  { w with calls := w.calls ++ [.closed param] }

/-! ## The list; `none` stands for a loop that does not end -/

def connection_create (malloc connList : Option Address) (ctx : Param) :
    Option (Option Address × World) :=
  match malloc with
  | none => some (none, w)
  | some newConn =>
    let w := w.prepare newConn ctx
    match connList with
    | none => some (some newConn, w)
    | some _ =>
      match follow w.next (fun a => (w.next a).isNone) w.live.length connList with
      | some (some connList_traversal) =>
        some (some newConn, w.setNext connList_traversal (some newConn))
      | _ => none

/-- The loop of `connection_free`. -/
def freeLoop : Nat → World → Address → Option World
  | 0, _, _ => none
  | n + 1, w, connList =>
    let w := w.lwm2mservice_close_connection (w.heap connList).parent
    let connList := (w.next connList).getD connList
    match w.next connList with
    | none => some w
    | some _ => freeLoop n w connList

def connection_free (connList : Option Address) : Option World :=
  match connList with
  | none => some w
  | some connList => freeLoop w.live.length w connList

/-- The node of a new session, which is the list when that is empty. -/
def enlist (malloc : Option Address) : Option (Option Address × World) :=
  (w.connection_create malloc w.data.connList w.data.param).map fun (newConnP, w) =>
    if newConnP ≠ none ∧ w.data.connList = none then
      (newConnP, { w with data := { w.data with connList := newConnP } })
    else (newConnP, w)

/-- `lwm2m_connect_server`: `uri` when `get_server_uri` finds one, `malloc` the new node. -/
def lwm2m_connect_server (uri parses opens : Bool) (malloc : Option Address) :
    Option (Option Address × World) :=
  if uri then
    match w.lwm2mservice_create_connection w.data.param parses opens with
    | (ret, w) => if ret = 0 then w.enlist malloc else some (none, w)
  else some (none, w)

def lwm2m_close_connection (targetP : Address) : Option World :=
  if w.data.connList = some targetP then
    some ({ w with data := { w.data with connList := w.next targetP } }.lwm2m_free targetP)
  else
    match follow w.next (fun a => w.next a = some targetP) (w.live.length + 1) w.data.connList with
    | some (some parentP) => some ((w.setNext parentP (w.next targetP)).lwm2m_free targetP)
    | some none => some w
    | none => none

@[simp] theorem setNext_next (a : Address) (p : Option Address) :
    (w.setNext a p).next = Function.update w.next a p := by
  funext b
  unfold next setNext
  by_cases hb : b = a
  · subst hb
    simp
  · simp [hb]

@[simp] theorem setNext_parent (a b : Address) (p : Option Address) :
    ((w.setNext a p).heap b).parent = (w.heap b).parent := by
  unfold setNext
  by_cases hb : b = a
  · subst hb
    simp
  · simp [hb]

@[simp] theorem prepare_next (a : Address) (ctx : Param) :
    (w.prepare a ctx).next = Function.update w.next a none := by
  funext b
  unfold next prepare
  by_cases hb : b = a
  · subst hb
    simp
  · simp [hb]

theorem prepare_parent {a b : Address} {ctx : Param} (h : b ≠ a) :
    ((w.prepare a ctx).heap b).parent = (w.heap b).parent := by
  simp [prepare, h]

@[simp] theorem prepare_parent_self (a : Address) (ctx : Param) :
    ((w.prepare a ctx).heap a).parent = ctx := by
  simp [prepare]

/-! ## What the operations do to a list of nodes -/

/-- The nodes `l`, in this order, are on the list, and no other node is allocated. -/
structure Holds (l : List Address) : Prop where
  seg : Seg w.next w.data.connList l none
  live : w.live = l
  nodup : l.Nodup
  parent : ∀ a ∈ l, (w.heap a).parent = w.data.param

variable {w} {l : List Address} {a : Address}

/-- What the list of nodes does not see: the calls. -/
theorem Holds.of_calls (h : w.Holds l) (calls : List Call) :
    World.Holds { w with calls := calls } l :=
  ⟨h.seg, h.live, h.nodup, h.parent⟩

/-- A new node on the empty list. -/
theorem Holds.first (h : w.Holds []) :
    World.Holds { w.prepare a w.data.param with
      data := { w.data with connList := some a } } [a] where
  seg := by
    refine ⟨rfl, ?_⟩
    show (w.prepare a w.data.param).next a = none
    simp
  live := by
    show w.live ++ [a] = [a]
    rw [h.live, List.nil_append]
  nodup := List.nodup_singleton a
  parent := by
    intro b hb
    obtain rfl := List.mem_singleton.1 hb
    exact w.prepare_parent_self b w.data.param

/-- The loop of `connection_create` finds the last node. -/
theorem Holds.traverse {c : Address} (h : w.Holds (l ++ [c])) (ha : a ∉ l ++ [c]) :
    follow (w.prepare a w.data.param).next (fun b => ((w.prepare a w.data.param).next b).isNone)
      (w.prepare a w.data.param).live.length w.data.connList = some (some c) := by
  have hseg : Seg (w.prepare a w.data.param).next w.data.connList (l ++ [c]) none := by
    rw [prepare_next]
    exact h.seg.update ha
  have hlength : (l ++ [c]).length < (w.prepare a w.data.param).live.length := by
    show (l ++ [c]).length < (w.live ++ [a]).length
    rw [h.live]
    simp
  rw [follow_eq hseg hlength, hseg.find_last]

/-- A new node behind the last one. -/
theorem Holds.push {c : Address} (h : w.Holds (l ++ [c])) (ha : a ∉ l ++ [c]) :
    ((w.prepare a w.data.param).setNext c (some a)).Holds (l ++ [c] ++ [a]) where
  seg := by
    rw [setNext_next, prepare_next]
    exact (h.seg.update ha).push h.nodup ha (Function.update_self ..)
  live := by
    show w.live ++ [a] = l ++ [c] ++ [a]
    rw [h.live]
  nodup := by
    rw [← List.concat_eq_append]
    exact List.Nodup.concat ha h.nodup
  parent := by
    intro b hb
    rw [setNext_parent]
    obtain hb | hb := List.mem_append.1 hb
    · have hba : b ≠ a := fun hba => ha (hba ▸ hb)
      rw [prepare_parent w hba]
      exact h.parent b hb
    · obtain rfl := List.mem_singleton.1 hb
      exact w.prepare_parent_self b w.data.param

/-- A list that has a last node has a first one. -/
theorem Holds.connList_some {c : Address} (h : w.Holds (l ++ [c])) :
    ∃ b, w.data.connList = some b := by
  cases hb : w.data.connList with
  | some b => exact ⟨b, rfl⟩
  | none =>
    have hseg := h.seg
    rw [hb] at hseg
    exact absurd hseg.eq_nil (by simp)

/-- A new node is the last one of the list. -/
theorem Holds.enlist (h : w.Holds l) {malloc : Option Address}
    (hfresh : ∀ a ∈ malloc, a ∉ w.live) :
    ∃ r w', w.enlist malloc = some (r, w') ∧ w'.Holds (l ++ r.toList) ∧
      w'.data.param = w.data.param ∧ w'.calls = w.calls := by
  unfold World.enlist connection_create
  cases malloc with
  | none => exact ⟨none, w, by simp, by simpa using h, rfl, rfl⟩
  | some a =>
    have ha : a ∉ l := by
      rw [← h.live]
      exact hfresh a rfl
    obtain rfl | ⟨l, c, rfl⟩ := l.eq_nil_or_concat'
    · have hnil : w.data.connList = none := h.seg
      have hnil' : (w.prepare a w.data.param).data.connList = none := hnil
      refine ⟨some a, _, ?_, h.first, rfl, rfl⟩
      simp only [hnil, Option.map_some, hnil']
      rfl
    · obtain ⟨b, hb⟩ := h.connList_some
      have hb' : ((w.prepare a w.data.param).setNext c (some a)).data.connList = some b := hb
      have htraverse := h.traverse ha
      rw [hb] at htraverse
      refine ⟨some a, _, ?_, h.push ha, rfl, rfl⟩
      simp only [hb, htraverse, Option.map_some, hb']
      simp

/-- The calls that one attempt adds. -/
def openings (param : Param) (uri parses opens : Bool) : List Call :=
  if uri && parses && opens then [.opened param] else []

/-- **`lwm2m_connect_server` returns**: a session that it returns is the last one of the list, and
it returns none when a step before it fails. -/
theorem Holds.lwm2m_connect_server (h : w.Holds l) (uri parses opens : Bool)
    {malloc : Option Address} (hfresh : ∀ a ∈ malloc, a ∉ w.live) :
    ∃ r w', w.lwm2m_connect_server uri parses opens malloc = some (r, w') ∧
      w'.Holds (l ++ r.toList) ∧ w'.data.param = w.data.param ∧
      w'.calls = w.calls ++ openings w.data.param uri parses opens ∧
      (r.isSome = true → openings w.data.param uri parses opens ≠ []) := by
  have hnone : w.Holds (l ++ (none : Option Address).toList) := by simpa using h
  unfold World.lwm2m_connect_server World.lwm2mservice_create_connection openings
  cases uri with
  | false => exact ⟨none, w, by simp, hnone, rfl, by simp, by simp⟩
  | true =>
    cases hopen : parses && opens with
    | false => exact ⟨none, w, by simp, hnone, rfl, by simp [hopen], by simp⟩
    | true =>
      obtain ⟨r, w', hr, hl, hparam, hcalls⟩ :=
        (h.of_calls (w.calls ++ [.opened w.data.param])).enlist hfresh
      refine ⟨r, w', by simpa using hr, hl, hparam, ?_, by simp [hopen]⟩
      rw [hcalls]
      simp [hopen]

/-- Closing the first session. -/
theorem Holds.shift (h : w.Holds (a :: l)) :
    ({ w with data := { w.data with connList := w.next a } }.lwm2m_free a).Holds l where
  seg := h.seg.2
  live := by
    show w.live.erase a = l
    rw [h.live, List.erase_cons_head]
  nodup := (List.nodup_cons.1 h.nodup).2
  parent := fun b hb => h.parent b (List.mem_cons_of_mem a hb)

/-- Closing a session that has another one before it. -/
theorem Holds.unlink {b : Address} {l₁ l₂ : List Address} (h : w.Holds (l₁ ++ b :: a :: l₂)) :
    ((w.setNext b (w.next a)).lwm2m_free a).Holds (l₁ ++ b :: l₂) := by
  have hsub : (l₁ ++ b :: l₂).Sublist (l₁ ++ b :: a :: l₂) := by simp
  constructor
  · show Seg (w.setNext b (w.next a)).next w.data.connList (l₁ ++ b :: l₂) none
    rw [setNext_next]
    exact h.seg.unlink h.nodup
  · show w.live.erase a = l₁ ++ b :: l₂
    obtain ⟨-, hnd, hdisj⟩ := List.nodup_append.1 h.nodup
    have ha : a ∉ l₁ := fun ha => hdisj a ha a (by simp) rfl
    have hba : b ≠ a := by
      intro hba
      exact (List.nodup_cons.1 hnd).1 (by simp [hba])
    rw [h.live, List.erase_append_right _ ha, List.erase_cons_tail (by simp [hba]),
      List.erase_cons_head]
  · exact h.nodup.sublist hsub
  · intro c hc
    show ((w.setNext b (w.next a)).heap c).parent = w.data.param
    rw [setNext_parent]
    exact h.parent c (hsub.subset hc)

/-- **`lwm2m_close_connection` returns**, and takes an open session out of the list; it calls
nothing. -/
theorem Holds.lwm2m_close_connection (h : w.Holds l) (ha : a ∈ l) :
    ∃ w', w.lwm2m_close_connection a = some w' ∧ w'.Holds (l.erase a) ∧
      w'.data.param = w.data.param ∧ w'.calls = w.calls := by
  unfold World.lwm2m_close_connection
  obtain ⟨l₁, l₂, rfl⟩ := List.append_of_mem ha
  obtain rfl | ⟨l₁, b, rfl⟩ := l₁.eq_nil_or_concat'
  · rw [List.nil_append] at h ⊢
    rw [if_pos h.seg.1, List.erase_cons_head]
    exact ⟨_, rfl, h.shift, rfl, rfl⟩
  · have hal : a ∉ l₁ ++ [b] := by
      intro hal
      exact (List.nodup_append.1 h.nodup).2.2 a hal a List.mem_cons_self rfl
    rw [List.erase_append_right _ hal, List.erase_cons_head]
    rw [List.append_assoc, List.singleton_append] at h ⊢
    have hhead : w.data.connList ≠ some a := by
      intro hhead
      have hseg := h.seg
      cases l₁ with
      | nil =>
        obtain rfl : b = a := Option.some.inj (hseg.1.symm.trans hhead)
        exact hal (by simp)
      | cons c l₁ =>
        obtain rfl : c = a := Option.some.inj (hseg.1.symm.trans hhead)
        exact hal (by simp)
    have hlength : (l₁ ++ b :: a :: l₂).length < w.live.length + 1 := by
      rw [h.live]
      omega
    rw [if_neg hhead, follow_eq h.seg hlength, h.seg.find_before h.nodup]
    exact ⟨_, rfl, h.unlink, rfl, rfl⟩

/-- What `connection_free` closes of a list with `n` nodes: all but the last one, of one node
that one. -/
def closings (n : Nat) : Nat := if n ≤ 1 then n else n - 1

theorem freeLoop_eq {param : Param} {n : Nat} (hseg : Seg w.next (some a) (a :: l) none)
    (hparent : ∀ b ∈ a :: l, (w.heap b).parent = param) (hn : l.length < n) :
    freeLoop n w a =
      some { w with
        calls := w.calls ++ List.replicate (closings (l.length + 1)) (.closed param) } := by
  induction l generalizing w a n with
  | nil =>
    obtain ⟨n, rfl⟩ : ∃ m, n = m + 1 := ⟨n - 1, by omega⟩
    have hnext : (w.lwm2mservice_close_connection param).next a = none := hseg.2
    unfold freeLoop
    simp only [hparent a List.mem_cons_self, hnext, Option.getD_none]
    rfl
  | cons b l ih =>
    obtain ⟨n, rfl⟩ : ∃ m, n = m + 1 := ⟨n - 1, by omega⟩
    obtain ⟨-, hnext, hlast⟩ := hseg
    have hnext : (w.lwm2mservice_close_connection param).next a = some b := hnext
    unfold freeLoop
    simp only [hparent a List.mem_cons_self, hnext, Option.getD_some]
    cases l with
    | nil =>
      have hlast : (w.lwm2mservice_close_connection param).next b = none := hlast
      simp only [hlast]
      rfl
    | cons c l =>
      have hc : (w.lwm2mservice_close_connection param).next b = some c := hlast.1
      have hrest := ih (w := w.lwm2mservice_close_connection param) (n := n) ⟨rfl, hlast⟩
        (fun d hd => hparent d (List.mem_cons_of_mem a hd)) (by simp at hn ⊢; omega)
      simp only [hc, hrest]
      simp [lwm2mservice_close_connection, closings, List.replicate_succ]

/-- **`connection_free` returns**; it leaves the nodes where they are. -/
theorem Holds.connection_free (h : w.Holds l) :
    w.connection_free w.data.connList =
      some { w with calls := w.calls ++
        List.replicate (closings l.length) (.closed w.data.param) } := by
  unfold World.connection_free
  cases l with
  | nil =>
    have hnil : w.data.connList = none := h.seg
    simp [hnil, closings]
  | cons a l =>
    have ha : w.data.connList = some a := h.seg.1
    have hlength : l.length < w.live.length := by
      rw [h.live]
      exact Nat.lt_succ_self l.length
    simp only [ha]
    exact freeLoop_eq (ha ▸ h.seg) h.parent hlength

end World

/-! ## Runs of the client -/

/-- The client in a run: the open sessions, in opening order, the number of sessions closed, that
of connections opened for which no session came about, whether `connection_free` was called, and
whether a call did not return. -/
structure Client where
  world : World
  sessions : List Address
  ended : Nat
  lost : Nat
  freed : Bool
  hung : Bool

inductive Input where
  | lwm2m_connect_server (uri parses opens : Bool) (malloc : Option Address)
  | lwm2m_close_connection (sessionH : Address)
  | connection_free
  deriving DecidableEq, Repr

namespace Client

variable (s : Client)

def next : Input → Client
  | .lwm2m_connect_server uri parses opens malloc =>
    match s.world.lwm2m_connect_server uri parses opens malloc with
    | some (some a, w) => { s with world := w, sessions := s.sessions ++ [a] }
    | some (none, w) => { s with world := w, lost := s.lost + (w.opened - s.world.opened) }
    | none => { s with hung := true }
  | .lwm2m_close_connection sessionH =>
    match s.world.lwm2m_close_connection sessionH with
    | some w => { s with world := w, sessions := s.sessions.erase sessionH, ended := s.ended + 1 }
    | none => { s with hung := true }
  | .connection_free =>
    match s.world.connection_free s.world.data.connList with
    | some w => { s with world := w, freed := true }
    | none => { s with hung := true }

/-- Memory that is allocated is not handed out again, only open sessions are closed, and
`connection_free` comes last. -/
def Enabled (i : Input) : Prop :=
  s.freed = false ∧
    match i with
    | .lwm2m_connect_server _ _ _ malloc => ∀ a ∈ malloc, a ∉ s.world.live
    | .lwm2m_close_connection sessionH => sessionH ∈ s.sessions
    | .connection_free => True

instance : ∀ i, Decidable (s.Enabled i)
  | .lwm2m_connect_server _ _ _ malloc =>
    inferInstanceAs (Decidable (s.freed = false ∧ ∀ a ∈ malloc, a ∉ s.world.live))
  | .lwm2m_close_connection sessionH =>
    inferInstanceAs (Decidable (s.freed = false ∧ sessionH ∈ s.sessions))
  | .connection_free => inferInstanceAs (Decidable (s.freed = false ∧ True))

/-- The client when `lwm2m_client_task_runner` has set its data up. -/
def start (param : Param) (heap : Address → connection_s) : Client :=
  ⟨⟨heap, [], ⟨none, param⟩, []⟩, [], 0, 0, false, false⟩

/-! ## Sessions and connections -/

/-- The sessions that are open when the list is freed end then. -/
def ends : Nat := s.ended + s.lost + if s.freed then s.sessions.length else 0

/-- Every call returned, and the list holds the sessions. -/
def Listed : Prop :=
  s.hung = false ∧ Seg s.world.next s.world.data.connList s.sessions none

/-- No connection is closed before its session ends, and at the end each of them is closed once. -/
def Matched : Prop :=
  s.world.closed ≤ s.ends ∧ (s.freed = true → s.world.closed = s.world.opened)

/-- No node stays allocated. -/
def Released : Prop := s.freed = true → s.world.live = []

def Corresponds : Prop := s.Listed ∧ s.Matched ∧ s.Released

/-- **What one step preserves**. -/
structure Inv : Prop where
  holds : s.world.Holds s.sessions
  hung : s.hung = false
  opened : s.world.opened = s.ended + s.lost + s.sessions.length
  closed : s.world.closed = if s.freed then World.closings s.sessions.length else 0

theorem openings_countP (param : Param) (uri parses opens : Bool) :
    (World.openings param uri parses opens).countP Call.isOpened =
      (World.openings param uri parses opens).length ∧
    (World.openings param uri parses opens).countP (fun c => !c.isOpened) = 0 := by
  unfold World.openings
  split <;> simp [Call.isOpened]

variable {s} {param : Param} {heap : Address → connection_s}

theorem Inv.start : (start param heap).Inv where
  holds := ⟨rfl, rfl, List.nodup_nil, by simp [Client.start]⟩
  hung := rfl
  opened := rfl
  closed := rfl

theorem Inv.connect (hi : s.Inv) (uri parses opens : Bool) {malloc : Option Address}
    (hen : s.Enabled (.lwm2m_connect_server uri parses opens malloc)) :
    (s.next (.lwm2m_connect_server uri parses opens malloc)).Inv := by
  obtain ⟨hfreed, hfresh⟩ := hen
  obtain ⟨r, w, hr, hl, -, hcalls, hsome⟩ :=
    hi.holds.lwm2m_connect_server uri parses opens hfresh
  obtain ⟨hcount, hcount'⟩ := openings_countP s.world.data.param uri parses opens
  have hopened : w.opened = s.world.opened +
      (World.openings s.world.data.param uri parses opens).length := by
    unfold World.opened
    rw [hcalls, List.countP_append, hcount]
  have hclosed : w.closed = s.world.closed := by
    unfold World.closed
    rw [hcalls, List.countP_append, hcount', Nat.add_zero]
  have hlength : (World.openings s.world.data.param uri parses opens).length ≤ 1 := by
    unfold World.openings
    split <;> simp
  have hi_opened := hi.opened
  have hi_closed := hi.closed
  rw [hfreed] at hi_closed
  simp only [Client.next, hr]
  cases r with
  | none =>
    refine ⟨by simpa using hl, hi.hung, ?_, ?_⟩
    · show w.opened = s.ended + (s.lost + (w.opened - s.world.opened)) + s.sessions.length
      omega
    · show w.closed = if s.freed then World.closings s.sessions.length else 0
      rw [hclosed, hi_closed, hfreed]
  | some a =>
    have hpos := List.length_pos_iff.2 (hsome rfl)
    refine ⟨hl, hi.hung, ?_, ?_⟩
    · show w.opened = s.ended + s.lost + (s.sessions ++ [a]).length
      rw [List.length_append, List.length_singleton]
      omega
    · show w.closed = if s.freed then World.closings (s.sessions ++ [a]).length else 0
      rw [hclosed, hi_closed, hfreed]
      rfl

theorem Inv.close (hi : s.Inv) {sessionH : Address}
    (hen : s.Enabled (.lwm2m_close_connection sessionH)) :
    (s.next (.lwm2m_close_connection sessionH)).Inv := by
  obtain ⟨hfreed, hmem⟩ := hen
  obtain ⟨w, hw, hl, -, hcalls⟩ := hi.holds.lwm2m_close_connection hmem
  have hlength : (s.sessions.erase sessionH).length + 1 = s.sessions.length :=
    List.length_erase_add_one hmem
  have hi_opened := hi.opened
  have hi_closed := hi.closed
  rw [hfreed] at hi_closed
  simp only [Client.next, hw]
  refine ⟨hl, hi.hung, ?_, ?_⟩
  · show w.opened = s.ended + 1 + s.lost + (s.sessions.erase sessionH).length
    have hopened : w.opened = s.world.opened := congrArg (List.countP Call.isOpened) hcalls
    omega
  · show w.closed = if s.freed then World.closings (s.sessions.erase sessionH).length else 0
    have hclosed : w.closed = s.world.closed :=
      congrArg (List.countP fun c : Call => !c.isOpened) hcalls
    rw [hclosed, hi_closed, hfreed]
    rfl

theorem Inv.free (hi : s.Inv) (hen : s.Enabled .connection_free) :
    (s.next .connection_free).Inv := by
  have hi_opened := hi.opened
  have hi_closed := hi.closed
  rw [hen.1] at hi_closed
  simp only [Client.next, hi.holds.connection_free]
  refine ⟨hi.holds.of_calls _, hi.hung, ?_, ?_⟩
  · show List.countP Call.isOpened (s.world.calls ++ _) = s.ended + s.lost + s.sessions.length
    rw [List.countP_append, ← hi_opened]
    simp [Call.isOpened, World.opened, List.countP_replicate]
  · show List.countP (fun c => !c.isOpened) (s.world.calls ++ _) =
      World.closings s.sessions.length
    have hzero : List.countP (fun c => !c.isOpened) s.world.calls = 0 := hi_closed
    rw [List.countP_append, hzero]
    simp [Call.isOpened, List.countP_replicate]

end Client

def clients : System Client Input where
  Enabled := Client.Enabled
  next := Client.next

instance (s : Client) (i : Input) : Decidable (clients.Enabled s i) :=
  inferInstanceAs (Decidable (s.Enabled i))

namespace Client

variable {s : Client} {param : Param} {heap : Address → connection_s}

theorem inv (h : clients.Reaches System.Free (start param heap) s) : s.Inv := by
  apply h.invariant Inv.start
  intro s i hi hen _
  cases i with
  | lwm2m_connect_server uri parses opens malloc => exact hi.connect uri parses opens hen
  | lwm2m_close_connection sessionH => exact hi.close hen
  | connection_free => exact hi.free hen

theorem Inv.listed (hi : s.Inv) : s.Listed := ⟨hi.hung, hi.holds.seg⟩

/-- The connections are closed as they should exactly if every session was still open at the end,
and there was at most one. -/
theorem Inv.matched_iff (hi : s.Inv) :
    s.Matched ↔ (s.freed = true → s.ended = 0 ∧ s.lost = 0 ∧ s.sessions.length ≤ 1) := by
  have hopened := hi.opened
  have hclosed := hi.closed
  unfold Matched ends World.closings at *
  cases hfreed : s.freed with
  | false =>
    simp only [hfreed] at hclosed
    simp [hclosed]
  | true =>
    simp only [hfreed, if_true, forall_const] at hclosed ⊢
    split at hclosed <;> omega

/-- The nodes are freed exactly if there is none at the end. -/
theorem Inv.released_iff (hi : s.Inv) :
    s.Released ↔ (s.freed = true → s.sessions.length = 0) := by
  unfold Released
  rw [hi.holds.live, List.length_eq_zero_iff]

/-- **Sessions and connections correspond** exactly in the runs that end without a connection ever
opened; the list is right in all of them, and the connections alone are closed as they should also
when the only one is still open at the end. -/
theorem corresponds_iff (h : clients.Reaches System.Free (start param heap) s) :
    (s.Corresponds ↔ (s.freed = true → s.world.opened = 0)) ∧ s.Listed ∧
    (s.Matched ↔ (s.freed = true → s.world.opened = s.sessions.length ∧ s.world.opened ≤ 1)) := by
  have hi := inv h
  have hopened := hi.opened
  refine ⟨?_, hi.listed, ?_⟩
  · unfold Corresponds
    rw [hi.matched_iff, hi.released_iff]
    constructor
    · intro hc hfreed
      have hmatched := hc.2.1 hfreed
      have hreleased := hc.2.2 hfreed
      omega
    · intro hc
      refine ⟨hi.listed, ?_, ?_⟩
      · intro hfreed
        have hnone := hc hfreed
        omega
      · intro hfreed
        have hnone := hc hfreed
        omega
  · rw [hi.matched_iff]
    constructor
    · intro hc hfreed
      have hmatched := hc hfreed
      omega
    · intro hc hfreed
      have hmatched := hc hfreed
      omega

/-- Memory before the first call. -/
def blank : Address → connection_s := fun _ => ⟨none, 0⟩

/-- A session is opened, another one is opened and closed, and the client ends. -/
def session : List Input :=
  [.lwm2m_connect_server true true true (some 1), .lwm2m_connect_server true true true (some 2),
    .lwm2m_close_connection 1, .connection_free]

theorem corresponds_iff_session :
    clients.Reaches System.Free (start 7 blank) (clients.run (start 7 blank) session) ∧
    ((clients.run (start 7 blank) session).Corresponds ↔
      ((clients.run (start 7 blank) session).freed = true →
        (clients.run (start 7 blank) session).world.opened = 0)) :=
  have hrun := System.reaches_run (by decide)
  ⟨hrun, (corresponds_iff hrun).1⟩

/-- One session is opened and closed and one stays open: one of the two connections is never
closed, and the node of the second session is not freed. -/
theorem connection_kept :
    ∃ s, clients.Reaches System.Free (start 7 blank) s ∧ s.freed = true ∧ ¬ s.Corresponds ∧
      s.world.opened = 2 ∧ s.world.closed = 1 ∧ s.world.live = [2] := by
  refine ⟨clients.run (start 7 blank) session, System.reaches_run (by decide), by decide, ?_,
    by decide, by decide, by decide⟩
  intro hc
  exact absurd (hc.2.1.2 (by decide)) (by decide)

end Client
end Miso.Lwm2m
