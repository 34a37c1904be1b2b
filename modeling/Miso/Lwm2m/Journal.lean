import Mathlib.Data.List.Nodup
import Mathlib.Data.List.Sort
import Mathlib.Logic.Function.Basic
import Miso.Lwm2m.Server

/-!
# The server object as a journal

What a server sees of the server object: for each instance, the settings that have been accepted since
it was created.

* `Setting`, `settingOf` — what a resource of a write says;
* `Journal`, `Request.journal` — a request on a journal;
* `Holds` — the instances are the ones that the journal leads to;
* `server_runs` — every sequence of requests is answered as by the journal.
-/

namespace Miso.Lwm2m.Server

open Zig

/-! ## Settings -/

/-- What an accepted resource says. -/
inductive Setting where
  | shortServerId (value : UInt16)
  | lifetime (value : UInt32)
  | storing (value : Bool)
  | binding (buffer : List UInt8)
  deriving DecidableEq, Repr

def Setting.set (targetP : server_instance_t) : Setting → server_instance_t
  | shortServerId value => { targetP with shortServerId := value }
  | lifetime value => { targetP with lifetime := value }
  | storing value => { targetP with storing := value }
  | binding buffer => { targetP with binding := strncpy targetP.binding buffer buffer.length }

section Functions

variable (W : Wakaama)

/-- The setting of a resource, or why it is refused. -/
def settingOf (dataP : lwm2m_data_t) : Except Coap Setting :=
  if dataP.value = .LWM2M_TYPE_MULTIPLE_RESOURCE then .error .COAP_404_NOT_FOUND
  else if dataP.id = LWM2M_SERVER_SHORT_ID_ID then
    match prv_set_int_value W dataP.value with
    | .ok value =>
      if 0 < value ∧ value ≤ 0xFFFF then .ok (.shortServerId value.toUInt16)
      else .error .COAP_406_NOT_ACCEPTABLE
    | .error result => .error result
  else if dataP.id = LWM2M_SERVER_LIFETIME_ID then
    match prv_set_int_value W dataP.value with
    | .ok value => .ok (.lifetime value)
    | .error result => .error result
  else if dataP.id = LWM2M_SERVER_DISABLE_ID ∨ dataP.id = LWM2M_SERVER_UPDATE_ID then
    .error .COAP_405_METHOD_NOT_ALLOWED
  else if dataP.id = LWM2M_SERVER_STORING_ID then
    match W.lwm2m_data_decode_bool dataP.value with
    | some value => .ok (.storing value)
    | none => .error .COAP_400_BAD_REQUEST
  else if dataP.id = LWM2M_SERVER_BINDING_ID then
    match dataP.value.asBuffer with
    | some buffer =>
      if 0 < buffer.length ∧ buffer.length ≤ 3 then .ok (.binding buffer)
      else .error .COAP_400_BAD_REQUEST
    | none => .error .COAP_400_BAD_REQUEST
  else .error .COAP_404_NOT_FOUND

/-- The settings in front of the first resource that is refused, and why it is. -/
def settings : List lwm2m_data_t → List Setting × Option Coap
  | [] => ([], none)
  | dataP :: rest =>
    match settingOf W dataP with
    | .ok x => (x :: (settings rest).1, (settings rest).2)
    | .error result => ([], some result)

/-! ## The journal -/

/-- The settings of each instance, oldest first. -/
abbrev Journal := UInt16 → Option (List Setting)

/-- The instance that the settings lead to. -/
def built (id : UInt16) (l : List Setting) : server_instance_t := l.foldl Setting.set (.zeroed id)

/-- The last setting of a kind. -/
def lastOf {α : Type} (f : Setting → Option α) (l : List Setting) (default : α) : α :=
  (l.filterMap f).getLastD default

def Setting.shortServerId? : Setting → Option UInt16
  | shortServerId value => some value
  | _ => none

def Setting.lifetime? : Setting → Option UInt32
  | lifetime value => some value
  | _ => none

def Setting.storing? : Setting → Option Bool
  | storing value => some value
  | _ => none

def Setting.binding? : Setting → Option (List UInt8)
  | binding buffer => some buffer
  | _ => none

/-- Each binding is written over the one before it. -/
def bindings (l : List Setting) : List UInt8 :=
  (l.filterMap Setting.binding?).foldl (fun area buffer => strncpy area buffer buffer.length) [0, 0, 0, 0]

/-- What a server reads. -/
def readable (l : List Setting) (id : UInt16) : Coap × Value :=
  if id = LWM2M_SERVER_SHORT_ID_ID then
    (.COAP_205_CONTENT, .LWM2M_TYPE_INTEGER (lastOf Setting.shortServerId? l 0).toNat)
  else if id = LWM2M_SERVER_LIFETIME_ID then
    (.COAP_205_CONTENT, .LWM2M_TYPE_INTEGER (lastOf Setting.lifetime? l 0).toNat)
  else if id = LWM2M_SERVER_STORING_ID then
    (.COAP_205_CONTENT, .LWM2M_TYPE_BOOLEAN (lastOf Setting.storing? l false))
  else if id = LWM2M_SERVER_BINDING_ID then
    (.COAP_205_CONTENT, .LWM2M_TYPE_STRING (cstr (bindings l)))
  else if id = LWM2M_SERVER_DISABLE_ID ∨ id = LWM2M_SERVER_UPDATE_ID then
    (.COAP_405_METHOD_NOT_ALLOWED, .LWM2M_TYPE_UNDEFINED)
  else (.COAP_404_NOT_FOUND, .LWM2M_TYPE_UNDEFINED)

/-- The resources up to the first one that cannot be read, with their values. -/
def readAll (l : List Setting) : List lwm2m_data_t → Coap × List lwm2m_data_t
  | [] => (.COAP_205_CONTENT, [])
  | dataP :: rest =>
    if dataP.value = .LWM2M_TYPE_MULTIPLE_RESOURCE then (.COAP_404_NOT_FOUND, dataP :: rest)
    else if (readable l dataP.id).1 = .COAP_205_CONTENT then
      ((readAll l rest).1, { dataP with value := (readable l dataP.id).2 } :: (readAll l rest).2)
    else ((readable l dataP.id).1, dataP :: rest)

/-- What a server discovers, whatever was set: the object has the resources 0 to 8. -/
def discovered (malloc : Bool) (data : List lwm2m_data_t) : Answer :=
  if data = [] then
    if malloc then
      ⟨.COAP_205_CONTENT, (List.range 9).map fun id => ⟨UInt16.ofNat id, .LWM2M_TYPE_UNDEFINED⟩⟩
    else ⟨.COAP_500_INTERNAL_SERVER_ERROR, []⟩
  else if ∀ dataP ∈ data, dataP.id < 9 then ⟨.COAP_205_CONTENT, data⟩
  else ⟨.COAP_404_NOT_FOUND, data⟩

/-- A request on a journal. -/
def Request.journal (j : Journal) : Request → Answer × Journal
  | read malloc id data =>
    match j id with
    | none => (⟨.COAP_404_NOT_FOUND, data⟩, j)
    | some l =>
      if data = [] ∧ ¬malloc then (⟨.COAP_500_INTERNAL_SERVER_ERROR, data⟩, j)
      else
        let x := readAll l (if data = [] then lwm2m_data_new resList else data)
        (⟨x.1, x.2⟩, j)
  | discover malloc data => (discovered malloc data, j)
  | write malloc id data writeType =>
    match j id with
    | none => (⟨.COAP_404_NOT_FOUND, []⟩, j)
    | some l =>
      let (accepted, refused) := settings W data
      if writeType = .LWM2M_WRITE_REPLACE_INSTANCE then
        -- The instance that is to be replaced is gone whether or not there is a new one.
        if ¬malloc then (⟨.COAP_500_INTERNAL_SERVER_ERROR, []⟩, Function.update j id none)
        else match refused with
          | none => (⟨.COAP_204_CHANGED, []⟩, Function.update j id (some accepted))
          | some result => (⟨result, []⟩, Function.update j id none)
      else (⟨refused.getD .COAP_204_CHANGED, []⟩, Function.update j id (some (l ++ accepted)))
  | execute id resourceId =>
    (⟨if j id = none then .COAP_404_NOT_FOUND
      else if resourceId = LWM2M_SERVER_DISABLE_ID ∨ resourceId = LWM2M_SERVER_UPDATE_ID then
        .COAP_204_CHANGED
      else .COAP_405_METHOD_NOT_ALLOWED, []⟩, j)
  | create malloc id data =>
    let (accepted, refused) := settings W data
    if ¬malloc then (⟨.COAP_500_INTERNAL_SERVER_ERROR, []⟩, j)
    else match refused with
      | none => (⟨.COAP_201_CREATED, []⟩, Function.update j id (some accepted))
      | some result => (⟨result, []⟩, j)
  | delete id =>
    match j id with
    | none => (⟨.COAP_404_NOT_FOUND, []⟩, j)
    | some _ => (⟨.COAP_202_DELETED, []⟩, Function.update j id none)

/-- What the library promises: it passes on no empty write, and creates no instance twice. -/
def Request.Promised (j : Journal) : Request → Prop
  | write _ _ data _ => data ≠ []
  | create _ id data => data ≠ [] ∧ j id = none
  | _ => True

/-- The answers to a sequence of requests, and the journal after it. -/
def journals (j : Journal) : List Request → List Answer × Journal
  | [] => ([], j)
  | request :: requests =>
    ((request.journal W j).1 :: (journals (request.journal W j).2 requests).1,
      (journals (request.journal W j).2 requests).2)

def AllPromised (j : Journal) : List Request → Prop
  | [] => True
  | request :: requests => request.Promised j ∧ AllPromised (request.journal W j).2 requests

/-- The journal of `get_server_object`. -/
def Journal.start : Journal := fun id =>
  if id = 0 then some [.shortServerId 123, .lifetime (15 * 60), .binding [85]] else none

/-! ## Writes -/

variable {W}

theorem prv_set_value_eq (targetP : server_instance_t) (dataP : lwm2m_data_t) :
    prv_set_value W targetP dataP = (settingOf W dataP).map (Setting.set targetP) := by
  unfold prv_set_value settingOf
  by_cases hmultiple : dataP.value = .LWM2M_TYPE_MULTIPLE_RESOURCE
  · rw [if_pos hmultiple, if_pos hmultiple]
    rfl
  rw [if_neg hmultiple, if_neg hmultiple]
  by_cases hshort : dataP.id = LWM2M_SERVER_SHORT_ID_ID
  · rw [if_pos hshort, if_pos hshort]
    cases prv_set_int_value W dataP.value with
    | error result => rfl
    | ok value =>
      dsimp only
      by_cases hrange : 0 < value ∧ value ≤ 0xFFFF
      · rw [if_pos hrange, if_pos hrange]
        rfl
      · rw [if_neg hrange, if_neg hrange]
        rfl
  rw [if_neg hshort, if_neg hshort]
  by_cases hlifetime : dataP.id = LWM2M_SERVER_LIFETIME_ID
  · rw [if_pos hlifetime, if_pos hlifetime]
    cases prv_set_int_value W dataP.value <;> rfl
  rw [if_neg hlifetime, if_neg hlifetime]
  by_cases hdisable : dataP.id = LWM2M_SERVER_DISABLE_ID
  · rw [if_pos hdisable, if_pos (Or.inl hdisable)]
    rfl
  rw [if_neg hdisable]
  by_cases hupdate : dataP.id = LWM2M_SERVER_UPDATE_ID
  · rw [if_pos (Or.inr hupdate), hupdate, if_neg (by decide), if_neg (by decide), if_pos rfl]
    rfl
  rw [if_neg (not_or.mpr ⟨hdisable, hupdate⟩)]
  by_cases hstoring : dataP.id = LWM2M_SERVER_STORING_ID
  · rw [if_pos hstoring, if_pos hstoring]
    cases W.lwm2m_data_decode_bool dataP.value <;> rfl
  rw [if_neg hstoring, if_neg hstoring]
  by_cases hbinding : dataP.id = LWM2M_SERVER_BINDING_ID
  · rw [if_pos hbinding, if_pos hbinding]
    cases dataP.value.asBuffer with
    | none => rfl
    | some buffer =>
      dsimp only
      by_cases hlen : 0 < buffer.length ∧ buffer.length ≤ 3
      · rw [if_pos hlen, if_pos hlen]
        rfl
      · rw [if_neg hlen, if_neg hlen]
        rfl
  rw [if_neg hbinding, if_neg hbinding, if_neg hupdate]
  rfl

/-- The loop applies the settings in front of the first refused resource. -/
theorem writeLoop_eq {data : List lwm2m_data_t} (h : data ≠ []) (targetP : server_instance_t) :
    writeLoop W targetP data =
      some ((settings W data).2.getD .COAP_204_CHANGED, (settings W data).1.foldl Setting.set targetP) := by
  induction data generalizing targetP with
  | nil => exact absurd rfl h
  | cons dataP rest ih =>
    unfold writeLoop settings
    rw [prv_set_value_eq]
    cases settingOf W dataP with
    | error result => rfl
    | ok x =>
      show (if rest = [] then some (Coap.COAP_204_CHANGED, x.set targetP)
        else writeLoop W (x.set targetP) rest) = _
      by_cases hrest : rest = []
      · subst hrest
        rfl
      · rw [if_neg hrest, ih hrest]
        rfl

/-- The bindings leave the last byte of their buffer alone. -/
def Short (l : List Setting) : Prop := ∀ buffer, .binding buffer ∈ l → buffer.length ≤ 3

theorem Short.append {l l' : List Setting} (h : Short l) (h' : Short l') : Short (l ++ l') := by
  intro buffer hb
  obtain hb | hb := List.mem_append.mp hb
  · exact h buffer hb
  · exact h' buffer hb

/-- A refusal is neither a change nor a creation. -/
def Refusal (result : Coap) : Prop := result ≠ .COAP_204_CHANGED ∧ result ≠ .COAP_201_CREATED

/-- A setting whose binding is short, or a refusal. -/
def Settled : Except Coap Setting → Prop
  | .ok x => ∀ buffer, x = .binding buffer → buffer.length ≤ 3
  | .error result => Refusal result

theorem prv_set_int_value_refuses {value : Value} {result : Coap}
    (h : prv_set_int_value W value = .error result) : Refusal result := by
  unfold prv_set_int_value at h
  split at h
  · split at h
    · cases h
    · cases h
      exact ⟨by decide, by decide⟩
  · cases h
    exact ⟨by decide, by decide⟩

theorem settingOf_settled (dataP : lwm2m_data_t) : Settled (settingOf W dataP) := by
  have hrefuses : ∀ result, result ≠ .COAP_204_CHANGED → result ≠ .COAP_201_CREATED →
      Settled (.error result) := fun _ h h' => ⟨h, h'⟩
  unfold settingOf
  split
  · exact hrefuses _ (by decide) (by decide)
  split
  · cases hvalue : prv_set_int_value W dataP.value with
    | error result => exact prv_set_int_value_refuses hvalue
    | ok value =>
      dsimp only
      split
      · exact fun _ h => by cases h
      · exact hrefuses _ (by decide) (by decide)
  split
  · cases hvalue : prv_set_int_value W dataP.value with
    | error result => exact prv_set_int_value_refuses hvalue
    | ok value => exact fun _ h => by cases h
  split
  · exact hrefuses _ (by decide) (by decide)
  split
  · cases W.lwm2m_data_decode_bool dataP.value with
    | none => exact hrefuses _ (by decide) (by decide)
    | some value => exact fun _ h => by cases h
  split
  · cases dataP.value.asBuffer with
    | none => exact hrefuses _ (by decide) (by decide)
    | some buffer =>
      dsimp only
      split
      · rintro _ ⟨⟩
        exact And.right (by assumption)
      · exact hrefuses _ (by decide) (by decide)
  · exact hrefuses _ (by decide) (by decide)

theorem settings_settled (data : List lwm2m_data_t) :
    (∀ result, (settings W data).2 = some result → Refusal result) ∧ Short (settings W data).1 := by
  induction data with
  | nil => exact ⟨fun _ h => absurd h (by simp [settings]), fun _ h => absurd h List.not_mem_nil⟩
  | cons dataP rest ih =>
    have hsettled := settingOf_settled (W := W) dataP
    unfold settings
    cases hsetting : settingOf W dataP with
    | error r =>
      rw [hsetting] at hsettled
      refine ⟨?_, fun _ h => absurd h List.not_mem_nil⟩
      rintro _ ⟨⟩
      exact hsettled
    | ok x =>
      rw [hsetting] at hsettled
      refine ⟨ih.1, fun buffer h => ?_⟩
      obtain heq | hrest := List.mem_cons.mp h
      · exact hsettled buffer heq.symm
      · exact ih.2 buffer hrest

/-! ## Bindings -/

/-- The buffer ends with a NUL. -/
theorem bindings_ended {l : List Setting} (h : Short l) :
    (bindings l).length = 4 ∧ (bindings l).getLast? = some 0 := by
  unfold bindings
  suffices hfold : ∀ (bs : List (List UInt8)) (area : List UInt8), (∀ b ∈ bs, b.length ≤ 3) →
      area.length = 4 ∧ area.getLast? = some 0 →
      (bs.foldl (fun area buffer => strncpy area buffer buffer.length) area).length = 4 ∧
        (bs.foldl (fun area buffer => strncpy area buffer buffer.length) area).getLast? = some 0 by
    refine hfold _ _ ?_ ⟨rfl, rfl⟩
    intro b hb
    obtain ⟨x, hx, hb⟩ := List.mem_filterMap.mp hb
    cases x with
    | binding buffer =>
      obtain rfl : buffer = b := by simpa [Setting.binding?] using hb
      exact h buffer hx
    | shortServerId value => cases hb
    | lifetime value => cases hb
    | storing value => cases hb
  intro bs
  induction bs with
  | nil => exact fun _ _ h => h
  | cons b bs ih =>
    intro area hbs harea
    have hb : b.length ≤ 3 := hbs b List.mem_cons_self
    refine ih _ (fun x hx => hbs x (List.mem_cons_of_mem b hx)) ⟨?_, ?_⟩
    · rw [strncpy_length, harea.1]
      omega
    · rw [strncpy_last (by omega), harea.2]

/-! ## Reads -/

theorem foldl_set_instanceId (l : List Setting) (targetP : server_instance_t) :
    (l.foldl Setting.set targetP).instanceId = targetP.instanceId := by
  induction l generalizing targetP with
  | nil => rfl
  | cons x l ih =>
    rw [List.foldl_cons, ih]
    cases x <;> rfl

theorem built_instanceId (id : UInt16) (l : List Setting) : (built id l).instanceId = id :=
  foldl_set_instanceId l _

/-- A field is set by the last setting of its kind. -/
theorem foldl_set_field {α : Type} (field : server_instance_t → α) (f : Setting → Option α)
    (h : ∀ (targetP : server_instance_t) x, field (x.set targetP) = (f x).getD (field targetP))
    (l : List Setting) (targetP : server_instance_t) :
    field (l.foldl Setting.set targetP) = lastOf f l (field targetP) := by
  unfold lastOf
  induction l generalizing targetP with
  | nil => rfl
  | cons x l ih =>
    rw [List.foldl_cons, ih, h]
    cases hx : f x with
    | none => rw [List.filterMap_cons_none hx]; rfl
    | some v => rw [List.filterMap_cons_some hx, List.getLastD_cons]; rfl

theorem foldl_set_binding (l : List Setting) (targetP : server_instance_t) :
    (l.foldl Setting.set targetP).binding = (l.filterMap Setting.binding?).foldl
      (fun area buffer => strncpy area buffer buffer.length) targetP.binding := by
  induction l generalizing targetP with
  | nil => rfl
  | cons x l ih =>
    rw [List.foldl_cons, ih]
    cases x <;> rfl

/-- **A resource is read as the journal says.** -/
theorem prv_get_value_built {l : List Setting} (h : Short l) (id r : UInt16) :
    prv_get_value W r (built id l) = readable l r := by
  have hshort : (built id l).shortServerId = lastOf Setting.shortServerId? l 0 :=
    foldl_set_field (·.shortServerId) _ (fun _ x => by cases x <;> rfl) l _
  have hlifetime : (built id l).lifetime = lastOf Setting.lifetime? l 0 :=
    foldl_set_field (·.lifetime) _ (fun _ x => by cases x <;> rfl) l _
  have hstoring : (built id l).storing = lastOf Setting.storing? l false :=
    foldl_set_field (·.storing) _ (fun _ x => by cases x <;> rfl) l _
  have hbinding : (built id l).binding = bindings l := foldl_set_binding l _
  -- The string ends in its buffer, whatever is behind it.
  have hstring : cstr ((built id l).binding ++ W.behind (built id l)) = cstr (bindings l) := by
    rw [hbinding]
    exact cstr_append_of_mem (List.mem_of_getLast? (bindings_ended h).2) _
  unfold prv_get_value readable
  rw [hshort, hlifetime, hstoring, hstring]
  by_cases hdisable : r = LWM2M_SERVER_DISABLE_ID
  · subst hdisable
    rfl
  by_cases hupdate : r = LWM2M_SERVER_UPDATE_ID
  · subst hupdate
    rfl
  rw [if_neg hdisable, if_neg hupdate, if_neg (not_or.mpr ⟨hdisable, hupdate⟩)]

theorem readLoop_built {l : List Setting} (h : Short l) (id : UInt16) {data : List lwm2m_data_t}
    (hdata : data ≠ []) : readLoop W (built id l) data = some (readAll l data) := by
  induction data with
  | nil => exact absurd rfl hdata
  | cons dataP rest ih =>
    unfold readLoop readAll readStep
    rw [prv_get_value_built h]
    by_cases hmultiple : dataP.value = .LWM2M_TYPE_MULTIPLE_RESOURCE
    · rw [if_pos hmultiple, if_pos hmultiple]
      exact if_neg fun hnot => absurd hnot.2 (by decide)
    rw [if_neg hmultiple, if_neg hmultiple]
    by_cases hok : (readable l dataP.id).1 = .COAP_205_CONTENT
    · dsimp only
      rw [if_pos hok, if_pos hok]
      by_cases hrest : rest = []
      · subst hrest
        rw [if_neg fun hnot => hnot.1 rfl, hok]
        rfl
      · rw [if_pos ⟨hrest, hok⟩, ih hrest]
        rfl
    · dsimp only
      rw [if_neg hok, if_neg hok, if_neg fun hnot => hok hnot.2]

/-! ## The instances -/

variable {objectP : List server_instance_t} {j : Journal}

/-- **The instances are the ones that the journal leads to.** -/
structure Holds (objectP : List server_instance_t) (j : Journal) : Prop where
  nodup : (objectP.map (·.instanceId)).Nodup
  mem_iff : ∀ x, x ∈ objectP ↔ ∃ l, j x.instanceId = some l ∧ x = built x.instanceId l
  short : ∀ id l, j id = some l → Short l

theorem Holds.find (h : Holds objectP j) (id : UInt16) :
    objectP.find? (·.instanceId = id) = (j id).map (built id) := by
  cases hj : j id with
  | none =>
    refine List.find?_eq_none.mpr fun x hx hid => ?_
    obtain ⟨l, hl, -⟩ := (h.mem_iff x).mp hx
    rw [of_decide_eq_true hid, hj] at hl
    cases hl
  | some l =>
    have hmem : built id l ∈ objectP :=
      (h.mem_iff _).mpr ⟨l, by rw [built_instanceId, hj], by rw [built_instanceId]⟩
    cases hfind : objectP.find? (·.instanceId = id) with
    | none =>
      exact absurd (decide_eq_true (built_instanceId id l)) (List.find?_eq_none.mp hfind _ hmem)
    | some x =>
      have hid : x.instanceId = id := by simpa using List.find?_some hfind
      obtain ⟨l', hl', hx⟩ := (h.mem_iff x).mp (List.mem_of_find?_eq_some hfind)
      rw [hid, hj] at hl'
      rw [hid] at hx
      cases hl'
      rw [hx]
      rfl

/-- One instance is put in another state, or taken out. -/
theorem Holds.update (h : Holds objectP j) {objectP' : List server_instance_t} {id : UInt16}
    {v : Option (List Setting)} (hnodup : (objectP'.map (·.instanceId)).Nodup)
    (hshort : ∀ l, v = some l → Short l)
    (hmem : ∀ x, x ∈ objectP' ↔ (x ∈ objectP ∧ x.instanceId ≠ id) ∨ ∃ l, v = some l ∧ x = built id l) :
    Holds objectP' (Function.update j id v) := by
  refine ⟨hnodup, fun x => ?_, fun i l hl => ?_⟩
  · rw [hmem, h.mem_iff]
    by_cases hid : x.instanceId = id
    · subst hid
      rw [Function.update_self]
      exact or_iff_right fun hnot => hnot.2 rfl
    · rw [Function.update_of_ne hid]
      refine ⟨?_, fun hx => Or.inl ⟨hx, hid⟩⟩
      rintro (hx | ⟨l, -, rfl⟩)
      · exact hx.1
      · exact absurd (built_instanceId id l) hid
  · by_cases hid : i = id
    · subst hid
      rw [Function.update_self] at hl
      exact hshort l hl
    · rw [Function.update_of_ne hid] at hl
      exact h.short i l hl

theorem eraseP_nodup (h : (objectP.map (·.instanceId)).Nodup) (id : UInt16) :
    ((objectP.eraseP (·.instanceId = id)).map (·.instanceId)).Nodup :=
  h.sublist (List.eraseP_sublist.map _)

/-- Identifiers are not shared. -/
theorem mem_eraseP (h : (objectP.map (·.instanceId)).Nodup) {id : UInt16} {x : server_instance_t} :
    x ∈ objectP.eraseP (·.instanceId = id) ↔ x ∈ objectP ∧ x.instanceId ≠ id := by
  induction objectP with
  | nil => simp
  | cons y l ih =>
    rw [List.map_cons] at h
    obtain ⟨hy, hl⟩ := List.nodup_cons.mp h
    by_cases hid : y.instanceId = id
    · rw [List.eraseP_cons_of_pos (p := fun x : server_instance_t => decide (x.instanceId = id))
        (by simpa using hid)]
      refine ⟨fun hx => ⟨List.mem_cons_of_mem y hx, fun hxid => hy ?_⟩, fun hx => ?_⟩
      · rw [hid, ← hxid]
        exact List.mem_map_of_mem hx
      · obtain rfl | hmem := List.mem_cons.mp hx.1
        · exact absurd hid hx.2
        · exact hmem
    · rw [List.eraseP_cons_of_neg (p := fun x : server_instance_t => decide (x.instanceId = id))
        (by simpa using hid), List.mem_cons, List.mem_cons, ih hl]
      refine ⟨?_, ?_⟩
      · rintro (rfl | hx)
        · exact ⟨Or.inl rfl, hid⟩
        · exact ⟨Or.inr hx.1, hx.2⟩
      · rintro ⟨rfl | hx, hne⟩
        · exact Or.inl rfl
        · exact Or.inr ⟨hx, hne⟩

theorem setInstance_ids {id : UInt16} {targetP : server_instance_t} (h : targetP.instanceId = id) :
    (setInstance id targetP objectP).map (·.instanceId) = objectP.map (·.instanceId) := by
  induction objectP with
  | nil => rfl
  | cons y l ih =>
    unfold setInstance
    by_cases hid : y.instanceId = id
    · rw [if_pos hid, List.map_cons, List.map_cons, h, hid]
    · rw [if_neg hid, List.map_cons, List.map_cons, ih]

theorem mem_setInstance (h : (objectP.map (·.instanceId)).Nodup) {id : UInt16}
    {targetP x : server_instance_t} (hid : id ∈ objectP.map (·.instanceId)) :
    x ∈ setInstance id targetP objectP ↔ (x ∈ objectP ∧ x.instanceId ≠ id) ∨ x = targetP := by
  induction objectP with
  | nil => cases hid
  | cons y l ih =>
    rw [List.map_cons] at h
    obtain ⟨hy, hl⟩ := List.nodup_cons.mp h
    unfold setInstance
    by_cases hyid : y.instanceId = id
    · have hne : ∀ z ∈ l, z.instanceId ≠ id := fun z hz hzid =>
        hy (by rw [hyid, ← hzid]; exact List.mem_map_of_mem hz)
      rw [if_pos hyid, List.mem_cons, List.mem_cons]
      refine ⟨?_, ?_⟩
      · rintro (rfl | hx)
        · exact Or.inr rfl
        · exact Or.inl ⟨Or.inr hx, hne x hx⟩
      · rintro (⟨rfl | hx, hxid⟩ | rfl)
        · exact absurd hyid hxid
        · exact Or.inr hx
        · exact Or.inl rfl
    · have hid' : id ∈ l.map (·.instanceId) := (List.mem_cons.mp hid).resolve_left fun heq => hyid heq.symm
      rw [if_neg hyid, List.mem_cons, List.mem_cons, ih hl hid']
      refine ⟨?_, ?_⟩
      · rintro (rfl | ⟨hx, hxid⟩ | rfl)
        · exact Or.inl ⟨Or.inl rfl, hyid⟩
        · exact Or.inl ⟨Or.inr hx, hxid⟩
        · exact Or.inr rfl
      · rintro (⟨rfl | hx, hxid⟩ | rfl)
        · exact Or.inl rfl
        · exact Or.inr (Or.inl ⟨hx, hxid⟩)
        · exact Or.inr (Or.inr rfl)

/-! ## Requests -/

theorem Holds.list_find (h : Holds objectP j) (id : UInt16) :
    W.lwm2m_list_find objectP id = (j id).map (built id) := by
  rw [W.find_eq, h.find]

theorem Holds.delete (h : Holds objectP j) (id : UInt16) :
    (prv_server_delete W id objectP).1 = (if j id = none then .COAP_404_NOT_FOUND else .COAP_202_DELETED) ∧
      Holds (prv_server_delete W id objectP).2 (Function.update j id none) := by
  unfold prv_server_delete
  rw [W.remove_eq]
  refine ⟨?_, h.update (eraseP_nodup h.nodup id) (fun _ hl => by cases hl) fun x => ?_⟩
  · show (if (objectP.find? _).isSome then Coap.COAP_202_DELETED else .COAP_404_NOT_FOUND) = _
    rw [h.find]
    cases j id <;> rfl
  · refine (mem_eraseP h.nodup).trans (or_iff_left ?_).symm
    rintro ⟨l, hl, -⟩
    cases hl

theorem Holds.add (h : Holds objectP j) {id : UInt16} (hid : j id = none) :
    Holds (W.LWM2M_LIST_ADD objectP (.zeroed id)) (Function.update j id (some [])) := by
  have hperm := W.add_perm objectP (.zeroed id)
  have hnew : id ∉ objectP.map (·.instanceId) := by
    intro hmem
    obtain ⟨x, hx, hxid⟩ := List.mem_map.mp hmem
    obtain ⟨l, hl, -⟩ := (h.mem_iff x).mp hx
    rw [hxid, hid] at hl
    cases hl
  refine h.update ?_ ?_ fun x => ?_
  · exact (hperm.map (·.instanceId)).nodup_iff.mpr (List.nodup_cons.mpr ⟨hnew, h.nodup⟩)
  · rintro l ⟨⟩
    exact fun _ hb => absurd hb List.not_mem_nil
  · rw [hperm.mem_iff, List.mem_cons]
    refine ⟨?_, ?_⟩
    · rintro (rfl | hx)
      · exact Or.inr ⟨[], rfl, rfl⟩
      · exact Or.inl ⟨hx, fun hxid => hnew (hxid ▸ List.mem_map_of_mem hx)⟩
    · rintro (hx | ⟨l, hl, rfl⟩)
      · exact Or.inr hx.1
      · cases hl
        exact Or.inl rfl

theorem Holds.writeResources (h : Holds objectP j) {id : UInt16} {l : List Setting} (hid : j id = some l)
    {data : List lwm2m_data_t} (hdata : data ≠ []) :
    ∃ objectP', writeResources W id data objectP =
        some ((settings W data).2.getD .COAP_204_CHANGED, objectP') ∧
      Holds objectP' (Function.update j id (some (l ++ (settings W data).1))) := by
  have htarget : built id (l ++ (settings W data).1) =
      (settings W data).1.foldl Setting.set (built id l) := List.foldl_append
  unfold Server.writeResources
  rw [h.list_find, hid]
  refine ⟨setInstance id (built id (l ++ (settings W data).1)) objectP, ?_, h.update ?_ ?_ ?_⟩
  · show Option.map _ (writeLoop W (built id l) data) = _
    rw [writeLoop_eq hdata, htarget]
    rfl
  · rw [setInstance_ids (built_instanceId _ _)]
    exact h.nodup
  · rintro l' ⟨⟩
    exact (h.short id l hid).append (settings_settled data).2
  · intro x
    have hmem : id ∈ objectP.map (·.instanceId) := by
      refine List.mem_map.mpr ⟨built id l, (h.mem_iff _).mpr ⟨l, ?_, ?_⟩, built_instanceId id l⟩
      · rw [built_instanceId, hid]
      · rw [built_instanceId]
    rw [mem_setInstance h.nodup hmem]
    refine or_congr_right ⟨fun hx => ⟨_, rfl, hx⟩, ?_⟩
    rintro ⟨l', hl', rfl⟩
    cases hl'
    rfl

/-- What is created is what is written to a new instance; if that is refused, nothing is left of it. -/
theorem Holds.create (h : Holds objectP j) {id : UInt16} (hid : j id = none) {data : List lwm2m_data_t}
    (hdata : data ≠ []) : ∃ objectP',
      prv_server_create W true id data objectP = some ((settings W data).2.getD .COAP_201_CREATED, objectP') ∧
        Holds objectP' (if (settings W data).2 = none then
          Function.update j id (some (settings W data).1) else j) := by
  obtain ⟨objectP', hrun, hholds⟩ := (h.add (W := W) hid).writeResources (W := W)
    (Function.update_self id (some []) j) hdata
  rw [Function.update_idem, List.nil_append] at hholds
  unfold prv_server_create
  rw [if_pos rfl, hrun]
  cases hrefused : (settings W data).2 with
  | none => exact ⟨objectP', rfl, hholds⟩
  | some result =>
    obtain ⟨hne, -⟩ := (settings_settled data).1 result hrefused
    refine ⟨(prv_server_delete W id objectP').2, ?_, ?_⟩
    · show some (if result = .COAP_204_CHANGED then (Coap.COAP_201_CREATED, objectP') else _) = _
      rw [if_neg hne]
      rfl
    · have hgone := (hholds.delete (W := W) id).2
      rw [Function.update_idem, ← hid, Function.update_eq_self] at hgone
      exact hgone

theorem Holds.read (h : Holds objectP j) (malloc : Bool) (id : UInt16) (data : List lwm2m_data_t) :
    (Request.read malloc id data).run W objectP =
        some (((Request.read malloc id data).journal W j).1, objectP) ∧
      ((Request.read malloc id data).journal W j).2 = j := by
  have hfind := h.list_find (W := W) id
  unfold Request.run Request.journal prv_server_read
  dsimp only
  cases hj : j id with
  | none =>
    rw [hj] at hfind
    rw [hfind]
    exact ⟨rfl, rfl⟩
  | some l =>
    rw [hj] at hfind
    rw [hfind]
    dsimp only [Option.map_some]
    by_cases hdata : data = []
    · rw [if_pos hdata]
      cases malloc with
      | false =>
        rw [if_pos (show data = [] ∧ ¬false = true from ⟨hdata, Bool.false_ne_true⟩)]
        exact ⟨rfl, rfl⟩
      | true =>
        rw [if_neg (show ¬(data = [] ∧ ¬true = true) from fun hnot => hnot.2 rfl), if_pos rfl,
          if_pos hdata, readLoop_built (h.short id l hj) id (by decide)]
        exact ⟨rfl, rfl⟩
    · rw [if_neg hdata, if_neg (show ¬(data = [] ∧ ¬malloc = true) from fun hnot => hdata hnot.1),
        if_neg hdata, readLoop_built (h.short id l hj) id hdata]
      exact ⟨rfl, rfl⟩

/-- An instance that is replaced is deleted first. -/
theorem Holds.replace (h : Holds objectP j) {id : UInt16} {l : List Setting} (hj : j id = some l)
    (malloc : Bool) {data : List lwm2m_data_t} (hdata : data ≠ []) :
    ∃ objectP', (Request.write malloc id data .LWM2M_WRITE_REPLACE_INSTANCE).run W objectP =
        some (((Request.write malloc id data .LWM2M_WRITE_REPLACE_INSTANCE).journal W j).1, objectP') ∧
      Holds objectP' ((Request.write malloc id data .LWM2M_WRITE_REPLACE_INSTANCE).journal W j).2 := by
  obtain ⟨hresult, hgone⟩ := h.delete (W := W) id
  rw [if_neg (by rw [hj]; exact Option.some_ne_none l)] at hresult
  have hfind := h.list_find (W := W) id
  rw [hj] at hfind
  unfold Request.run Request.journal prv_server_write
  dsimp only
  rw [hfind, hj]
  dsimp only [Option.map_some]
  rw [if_pos rfl, if_pos hresult, if_pos rfl]
  cases malloc with
  | false =>
    rw [if_pos (by decide)]
    exact ⟨_, rfl, hgone⟩
  | true =>
    rw [if_neg fun hnot => hnot rfl]
    obtain ⟨objectP', hrun, hholds⟩ := hgone.create (W := W) (Function.update_self id none j) hdata
    rw [hrun]
    refine ⟨objectP', ?_, ?_⟩
    · cases hrefused : (settings W data).2 with
      | none => rfl
      | some result =>
        obtain ⟨-, hne⟩ := (settings_settled data).1 result hrefused
        show some (Answer.mk (if result = .COAP_201_CREATED then _ else result) [], objectP') = _
        rw [if_neg hne]
    · rw [Function.update_idem] at hholds
      cases hrefused : (settings W data).2 with
      | none =>
        rw [if_pos hrefused] at hholds
        exact hholds
      | some result =>
        rw [if_neg (by rw [hrefused]; exact Option.some_ne_none result)] at hholds
        exact hholds

/-! ## Discovers -/

theorem mem_discoverList (id : UInt16) : id ∈ discoverList ↔ id < 9 := by
  have hlt : id < 9 ↔ id.toNat < 9 := Iff.rfl
  have hlist : discoverList.map UInt16.toNat = List.range 9 := by decide
  rw [hlt, ← List.mem_range, ← hlist, List.mem_map_of_injective fun _ _ => UInt16.toNat.inj]

theorem prv_server_discover_eq (malloc : Bool) (data : List lwm2m_data_t) :
    Answer.mk (prv_server_discover malloc data).1 (prv_server_discover malloc data).2 =
      discovered malloc data := by
  unfold prv_server_discover discovered
  by_cases hdata : data = []
  · rw [if_pos hdata, if_pos hdata]
    by_cases hmalloc : malloc = true
    · rw [if_pos hmalloc, if_pos hmalloc]
      rfl
    · rw [if_neg hmalloc, if_neg hmalloc, hdata]
  · have hall : (data.all fun dataP => decide (dataP.id ∈ discoverList)) = true ↔
        ∀ dataP ∈ data, dataP.id < 9 := by
      simp only [List.all_eq_true, decide_eq_true_eq, mem_discoverList]
    rw [if_neg hdata, if_neg hdata]
    by_cases hknown : ∀ dataP ∈ data, dataP.id < 9
    · rw [if_pos hknown, if_pos (hall.mpr hknown)]
    · rw [if_neg hknown, if_neg (hall.not.mpr hknown)]

/-- **A request is answered as by the journal**, and changes the instances alike. -/
theorem Holds.run (h : Holds objectP j) {request : Request} (hpromised : request.Promised j) :
    ∃ objectP', request.run W objectP = some ((request.journal W j).1, objectP') ∧
      Holds objectP' (request.journal W j).2 := by
  cases request with
  | read malloc id data =>
    obtain ⟨hrun, hj⟩ := h.read (W := W) malloc id data
    exact ⟨objectP, hrun, by rw [hj]; exact h⟩
  | discover malloc data =>
    refine ⟨objectP, ?_, h⟩
    rw [Request.journal, ← prv_server_discover_eq]
    rfl
  | write malloc id data writeType =>
    have hdata : data ≠ [] := hpromised
    have hfind := h.list_find (W := W) id
    cases hj : j id with
    | none =>
      rw [hj] at hfind
      refine ⟨objectP, ?_, ?_⟩
      · simp only [Request.run, prv_server_write, hfind, Request.journal, hj, Option.map_none,
          Option.map_some]
      · simp only [Request.journal, hj]
        exact h
    | some l =>
      by_cases htype : writeType = .LWM2M_WRITE_REPLACE_INSTANCE
      · subst htype
        exact h.replace hj malloc hdata
      · rw [hj] at hfind
        obtain ⟨objectP', hrun, hholds⟩ := h.writeResources (W := W) hj hdata
        refine ⟨objectP', ?_, ?_⟩
        · simp only [Request.run, prv_server_write, hfind, Request.journal, hj, Option.map_some,
            if_neg htype, hrun]
        · simp only [Request.journal, hj, if_neg htype]
          exact hholds
  | execute id resourceId =>
    refine ⟨objectP, ?_, h⟩
    have hfind := h.list_find (W := W) id
    unfold Request.run Request.journal prv_server_execute
    dsimp only
    rw [hfind]
    cases j id with
    | none => rfl
    | some l =>
      dsimp only [Option.map_some]
      rw [if_neg (Option.some_ne_none l)]
      by_cases hdisable : resourceId = LWM2M_SERVER_DISABLE_ID
      · rw [if_pos hdisable, if_pos (Or.inl hdisable)]
      by_cases hupdate : resourceId = LWM2M_SERVER_UPDATE_ID
      · rw [if_neg hdisable, if_pos hupdate, if_pos (Or.inr hupdate)]
      · rw [if_neg hdisable, if_neg hupdate, if_neg (not_or.mpr ⟨hdisable, hupdate⟩)]
  | create malloc id data =>
    obtain ⟨hdata, hj⟩ := hpromised
    cases malloc with
    | false => exact ⟨objectP, rfl, h⟩
    | true =>
      obtain ⟨objectP', hrun, hholds⟩ := h.create (W := W) hj hdata
      refine ⟨objectP', ?_, ?_⟩
      · unfold Request.run Request.journal
        dsimp only
        rw [hrun, if_neg fun hnot => hnot rfl]
        cases (settings W data).2 <;> rfl
      · unfold Request.journal
        dsimp only
        rw [if_neg fun hnot => hnot rfl]
        cases hrefused : (settings W data).2 with
        | none =>
          rw [if_pos hrefused] at hholds
          exact hholds
        | some result =>
          rw [if_neg (by rw [hrefused]; exact Option.some_ne_none result)] at hholds
          exact hholds
  | delete id =>
    obtain ⟨hresult, hgone⟩ := h.delete (W := W) id
    refine ⟨(prv_server_delete W id objectP).2, ?_, ?_⟩
    · show some (Answer.mk (prv_server_delete W id objectP).1 [], _) = _
      rw [hresult]
      unfold Request.journal
      dsimp only
      cases j id <;> rfl
    · unfold Request.journal
      dsimp only
      cases hj : j id with
      | none =>
        rw [← hj, Function.update_eq_self] at hgone
        exact hgone
      | some l => exact hgone

theorem Holds.start : Holds (get_server_object W) Journal.start := by
  have hperm := W.add_perm [] ⟨0, 123, 15 * 60, false, [85, 0, 0, 0]⟩
  have hbuilt : built 0 [.shortServerId 123, .lifetime (15 * 60), .binding [85]] =
      ⟨0, 123, 15 * 60, false, [85, 0, 0, 0]⟩ := by decide
  refine ⟨(hperm.map (·.instanceId)).nodup_iff.mpr (List.nodup_singleton _), fun x => ?_, ?_⟩
  · refine hperm.mem_iff.trans (List.mem_singleton.trans ⟨?_, ?_⟩)
    · rintro rfl
      exact ⟨_, rfl, hbuilt.symm⟩
    · rintro ⟨l, hl, hx⟩
      by_cases hid : x.instanceId = 0
      · rw [hid] at hl hx
        cases hl
        exact hx.trans hbuilt
      · rw [show Journal.start x.instanceId = none from if_neg hid] at hl
        cases hl
  · intro id l hl buffer hb
    by_cases hid : id = 0
    · subst hid
      cases hl
      simp only [List.mem_cons, reduceCtorEq, List.not_mem_nil, or_false, false_or] at hb
      cases hb
      decide
    · rw [show Journal.start id = none from if_neg hid] at hl
      cases hl

theorem Holds.runs (h : Holds objectP j) {requests : List Request} (hall : AllPromised W j requests) :
    ∃ objectP', Server.runs W objectP requests = some ((journals W j requests).1, objectP') ∧
      Holds objectP' (journals W j requests).2 := by
  induction requests generalizing objectP j with
  | nil => exact ⟨objectP, rfl, h⟩
  | cons request requests ih =>
    obtain ⟨objectP', hrun, hholds⟩ := h.run hall.1
    obtain ⟨objectP'', hruns, hholds'⟩ := ih hholds hall.2
    refine ⟨objectP'', ?_, hholds'⟩
    unfold Server.runs
    rw [hrun, Option.bind_some, hruns]
    rfl

def Coap.isSuccess : Coap → Bool
  | COAP_201_CREATED => true
  | COAP_202_DELETED => true
  | COAP_204_CHANGED => true
  | COAP_205_CONTENT => true
  | _ => false

/-- What a refused request leaves behind: an instance that has been changed in part, or that is gone. -/
def Request.Tears (W : Wakaama) (j : Journal) : Request → Prop
  | write _ id data writeType => ∃ l, j id = some l ∧
    (writeType = .LWM2M_WRITE_REPLACE_INSTANCE ∨ built id (l ++ (settings W data).1) ≠ built id l)
  | _ => False

/-- What a refused request leaves: of a write of resources what stands in front of the refused one,
and of an instance that was to be replaced nothing. -/
def Request.remains (W : Wakaama) (j : Journal) : Request → Journal
  | write _ id data writeType =>
    if writeType = .LWM2M_WRITE_REPLACE_INSTANCE then Function.update j id none
    else Function.update j id ((j id).map (· ++ (settings W data).1))
  | _ => j

theorem Request.journal_refused {request : Request}
    (hrefused : (request.journal W j).1.result.isSuccess = false) :
    (request.journal W j).2 = request.remains W j := by
  cases request with
  | read malloc id data =>
    unfold Request.journal
    dsimp only
    cases hj : j id with
    | none => rfl
    | some l =>
      dsimp only
      split <;> rfl
  | discover malloc data => rfl
  | execute id resourceId => rfl
  | create malloc id data =>
    unfold Request.journal at hrefused ⊢
    dsimp only at hrefused ⊢
    by_cases hmalloc : ¬malloc = true
    · rw [if_pos hmalloc]
      rfl
    · rw [if_neg hmalloc] at hrefused ⊢
      cases hsettings : (settings W data).2 with
      | none =>
        rw [hsettings] at hrefused
        cases hrefused
      | some result => rfl
  | delete id =>
    unfold Request.journal at hrefused ⊢
    dsimp only at hrefused ⊢
    cases hj : j id with
    | none => rfl
    | some l =>
      rw [hj] at hrefused
      cases hrefused
  | write malloc id data writeType =>
    unfold Request.journal at hrefused ⊢
    unfold Request.remains
    dsimp only at hrefused ⊢
    cases hj : j id with
    | none =>
      have hsame : Function.update j id none = j := by
        rw [← hj]
        exact Function.update_eq_self id j
      rw [Option.map_none, hsame, ite_self]
    | some l =>
      rw [hj] at hrefused
      dsimp only at hrefused ⊢
      by_cases htype : writeType = .LWM2M_WRITE_REPLACE_INSTANCE
      · -- what was to be replaced is gone
        rw [if_pos htype] at hrefused ⊢
        rw [if_pos htype]
        by_cases hmalloc : ¬malloc = true
        · rw [if_pos hmalloc]
        · rw [if_neg hmalloc] at hrefused ⊢
          cases hsettings : (settings W data).2 with
          | none =>
            rw [hsettings] at hrefused
            cases hrefused
          | some result => rfl
      · rw [if_neg htype, if_neg htype]
        rfl

/-- The instances behind an update of the journal are those before it. -/
theorem Holds.unchanged_iff {objectP' : List server_instance_t} {id : UInt16} {l : List Setting}
    {v : Option (List Setting)} (h : Holds objectP j) (h' : Holds objectP' (Function.update j id v))
    (hj : j id = some l) :
    (∀ x, x ∈ objectP' ↔ x ∈ objectP) ↔ v.map (built id) = some (built id l) := by
  have hmem : built id l ∈ objectP :=
    (h.mem_iff _).mpr ⟨l, by rw [built_instanceId, hj], by rw [built_instanceId]⟩
  refine ⟨fun hall => ?_, fun hv x => ?_⟩
  · obtain ⟨l', hl', hx⟩ := (h'.mem_iff _).mp ((hall _).mpr hmem)
    rw [built_instanceId, Function.update_self] at hl'
    rw [built_instanceId] at hx
    rw [hl', hx]
    rfl
  · rw [h'.mem_iff, h.mem_iff]
    by_cases hid : x.instanceId = id
    · obtain ⟨l', rfl, hl'⟩ := Option.map_eq_some_iff.mp hv
      rw [hid, Function.update_self, hj]
      refine ⟨?_, ?_⟩
      · rintro ⟨k, hk, rfl⟩
        cases hk
        exact ⟨l, rfl, hl'⟩
      · rintro ⟨k, hk, rfl⟩
        cases hk
        exact ⟨l', rfl, hl'.symm⟩
    · rw [Function.update_of_ne hid]

theorem Holds.same {objectP' : List server_instance_t} (h : Holds objectP j) (h' : Holds objectP' j)
    (x : server_instance_t) : x ∈ objectP' ↔ x ∈ objectP := by
  rw [h'.mem_iff, h.mem_iff]

/-- A refused write to an instance that is there. -/
theorem Holds.torn_iff {objectP' : List server_instance_t} (h : Holds objectP j) {malloc : Bool}
    {id : UInt16} {l : List Setting} (hj : j id = some l) {data : List lwm2m_data_t}
    {writeType : lwm2m_write_type_t}
    (h' : Holds objectP' ((Request.write malloc id data writeType).remains W j)) :
    (∀ x, x ∈ objectP' ↔ x ∈ objectP) ↔ ¬(Request.write malloc id data writeType).Tears W j := by
  have htears : (Request.write malloc id data writeType).Tears W j ↔
      writeType = .LWM2M_WRITE_REPLACE_INSTANCE ∨ built id (l ++ (settings W data).1) ≠ built id l := by
    refine ⟨?_, fun ht => ⟨l, hj, ht⟩⟩
    rintro ⟨k, hk, ht⟩
    cases hj.symm.trans hk
    exact ht
  rw [htears]
  unfold Request.remains at h'
  dsimp only at h'
  by_cases htype : writeType = .LWM2M_WRITE_REPLACE_INSTANCE
  · rw [if_pos htype] at h'
    rw [h.unchanged_iff h' hj]
    refine iff_of_false (fun hnot => by cases hnot) fun hnot => hnot (Or.inl htype)
  · rw [if_neg htype, hj, Option.map_some] at h'
    rw [h.unchanged_iff h' hj, or_iff_right htype, not_not, Option.map_some, Option.some_inj]

/-- **A refused request leaves every instance as it was, except for two**: a write of resources keeps
what stands in front of the refused one, and an instance that was to be replaced is gone. -/
theorem refused_iff (requests : List Request) (hall : AllPromised W Journal.start requests)
    (request : Request) (hpromised : request.Promised (journals W Journal.start requests).2)
    {answers : List Answer} {answer : Answer} {objectP objectP' : List server_instance_t}
    (hruns : runs W (get_server_object W) requests = some (answers, objectP))
    (hrun : request.run W objectP = some (answer, objectP')) (hrefused : answer.result.isSuccess = false) :
    ((∀ x, x ∈ objectP' ↔ x ∈ objectP) ↔
        ¬request.Tears W (journals W Journal.start requests).2) ∧
      Holds objectP' (request.remains W (journals W Journal.start requests).2) := by
  obtain ⟨o, ho, h⟩ := Holds.start.runs hall
  obtain ⟨-, rfl⟩ := Prod.mk.inj (Option.some.inj (hruns.symm.trans ho))
  generalize (journals W Journal.start requests).2 = j at h hpromised ⊢
  obtain ⟨o', ho', h'⟩ := h.run hpromised
  obtain ⟨rfl, rfl⟩ := Prod.mk.inj (Option.some.inj (hrun.symm.trans ho'))
  rw [Request.journal_refused hrefused] at h'
  refine ⟨?_, h'⟩
  have hkept (hj : request.remains W j = j) (hnot : ¬request.Tears W j) :
      (∀ x, x ∈ objectP' ↔ x ∈ objectP) ↔ ¬request.Tears W j :=
    iff_of_true (h.same (hj ▸ h')) hnot
  cases request with
  | read malloc id data => exact hkept rfl (fun ht => ht)
  | discover malloc data => exact hkept rfl (fun ht => ht)
  | execute id resourceId => exact hkept rfl (fun ht => ht)
  | create malloc id data => exact hkept rfl (fun ht => ht)
  | delete id => exact hkept rfl (fun ht => ht)
  | write malloc id data writeType =>
    cases hj : j id with
    | none =>
      refine hkept ?_ ?_
      · have hsame : Function.update j id none = j := by
          rw [← hj]
          exact Function.update_eq_self id j
        unfold Request.remains
        dsimp only
        rw [hj, Option.map_none, hsame, ite_self]
      · rintro ⟨l, hl, -⟩
        rw [hj] at hl
        cases hl
    | some l => exact h.torn_iff hj h'

end Functions

/-! ## A small library -/

/-- The library on values that need no conversion. -/
def Wakaama.plain : Wakaama where
  lwm2m_data_decode_int := fun value => match value with
    | .LWM2M_TYPE_INTEGER v => some v
    | _ => none
  lwm2m_data_decode_bool := fun value => match value with
    | .LWM2M_TYPE_BOOLEAN b => some b
    | _ => none
  lwm2m_list_find := fun l id => l.find? (·.instanceId = id)
  lwm2m_list_remove := fun l id => (l.eraseP (·.instanceId = id), l.find? (·.instanceId = id))
  LWM2M_LIST_ADD := fun l x => l.orderedInsert (fun a b => a.instanceId < b.instanceId) x
  behind := fun _ => []
  find_eq := fun _ _ => rfl
  remove_eq := fun _ _ => rfl
  add_perm := fun l x => List.perm_orderedInsert _ x l

/-- The lifetime in front of a refused resource is kept. -/
theorem refused_iff_lifetime : ∃ objectP,
    Request.run .plain (get_server_object .plain)
      (.write true 0 [⟨1, .LWM2M_TYPE_INTEGER 60⟩, ⟨4, .LWM2M_TYPE_INTEGER 0⟩]
        .LWM2M_WRITE_REPLACE_RESOURCES) = some (⟨.COAP_405_METHOD_NOT_ALLOWED, []⟩, objectP) ∧
      ¬∀ x, x ∈ objectP ↔ x ∈ get_server_object .plain := by
  refine ⟨_, rfl, fun hsame => ?_⟩
  obtain ⟨hiff, -⟩ := refused_iff (W := .plain) [] trivial
    (.write true 0 [⟨1, .LWM2M_TYPE_INTEGER 60⟩, ⟨4, .LWM2M_TYPE_INTEGER 0⟩]
      .LWM2M_WRITE_REPLACE_RESOURCES) (List.cons_ne_nil _ _) rfl rfl rfl
  exact hiff.mp hsame ⟨_, rfl, Or.inr (by decide)⟩

end Miso.Lwm2m.Server
