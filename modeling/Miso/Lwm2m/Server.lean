import Miso.Zig.CString

/-!
# The LwM2M server object (`object_server.c`)

* `Wakaama` — the lists and the data of the library;
* `prv_get_value`, `prv_set_value` — one resource of an instance;
* `prv_server_read`, `prv_server_discover`, `prv_server_write`, `prv_server_execute`,
  `prv_server_create`, `prv_server_delete` — the functions that the library calls;
* `Request`, `Request.run`, `runs` — any number of requests.

`none` stands for the read of a resource that is not there, in the loops that look at the first one
without a test.
-/

namespace Miso.Lwm2m.Server

open Zig

inductive Coap where
  | COAP_201_CREATED
  | COAP_202_DELETED
  | COAP_204_CHANGED
  | COAP_205_CONTENT
  | COAP_400_BAD_REQUEST
  | COAP_404_NOT_FOUND
  | COAP_405_METHOD_NOT_ALLOWED
  | COAP_406_NOT_ACCEPTABLE
  | COAP_500_INTERNAL_SERVER_ERROR
  deriving DecidableEq, Repr

/-- The type of a `lwm2m_data_t`, with its value. -/
inductive Value where
  | LWM2M_TYPE_UNDEFINED
  | LWM2M_TYPE_MULTIPLE_RESOURCE
  | LWM2M_TYPE_STRING (buffer : List UInt8)
  | LWM2M_TYPE_OPAQUE (buffer : List UInt8)
  | LWM2M_TYPE_INTEGER (value : Int)
  | LWM2M_TYPE_BOOLEAN (value : Bool)
  deriving DecidableEq, Repr

structure lwm2m_data_t where
  id : UInt16
  value : Value
  deriving DecidableEq, Repr

structure server_instance_t where
  instanceId : UInt16
  shortServerId : UInt16
  lifetime : UInt32
  storing : Bool
  binding : List UInt8
  deriving DecidableEq, Repr

/-! ## Resources -/

def LWM2M_SERVER_SHORT_ID_ID : UInt16 := 0
def LWM2M_SERVER_LIFETIME_ID : UInt16 := 1
def LWM2M_SERVER_MIN_PERIOD_ID : UInt16 := 2
def LWM2M_SERVER_MAX_PERIOD_ID : UInt16 := 3
def LWM2M_SERVER_DISABLE_ID : UInt16 := 4
def LWM2M_SERVER_TIMEOUT_ID : UInt16 := 5
def LWM2M_SERVER_STORING_ID : UInt16 := 6
def LWM2M_SERVER_BINDING_ID : UInt16 := 7
def LWM2M_SERVER_UPDATE_ID : UInt16 := 8

/-- What is read of a whole instance. -/
def resList : List UInt16 :=
  [LWM2M_SERVER_SHORT_ID_ID, LWM2M_SERVER_LIFETIME_ID, LWM2M_SERVER_STORING_ID,
    LWM2M_SERVER_BINDING_ID]

/-- What is discovered of a whole instance. -/
def discoverList : List UInt16 :=
  [LWM2M_SERVER_SHORT_ID_ID, LWM2M_SERVER_LIFETIME_ID, LWM2M_SERVER_MIN_PERIOD_ID,
    LWM2M_SERVER_MAX_PERIOD_ID, LWM2M_SERVER_DISABLE_ID, LWM2M_SERVER_TIMEOUT_ID,
    LWM2M_SERVER_STORING_ID, LWM2M_SERVER_BINDING_ID, LWM2M_SERVER_UPDATE_ID]

/-- `lwm2m_data_new`, with the identifiers. -/
def lwm2m_data_new (ids : List UInt16) : List lwm2m_data_t := ids.map (⟨·, .LWM2M_TYPE_UNDEFINED⟩)

/-- The library, as it is documented. -/
structure Wakaama where
  lwm2m_data_decode_int : Value → Option Int
  lwm2m_data_decode_bool : Value → Option Bool
  lwm2m_list_find : List server_instance_t → UInt16 → Option server_instance_t
  /-- The list, and what has been taken out. -/
  lwm2m_list_remove : List server_instance_t → UInt16 →
    List server_instance_t × Option server_instance_t
  LWM2M_LIST_ADD : List server_instance_t → server_instance_t → List server_instance_t
  /-- The memory behind the binding of an instance. -/
  behind : server_instance_t → List UInt8
  find_eq : ∀ l id, lwm2m_list_find l id = l.find? (·.instanceId = id)
  remove_eq : ∀ l id, lwm2m_list_remove l id =
    (l.eraseP (·.instanceId = id), l.find? (·.instanceId = id))
  add_perm : ∀ l x, (LWM2M_LIST_ADD l x).Perm (x :: l)

section Functions

variable (W : Wakaama)

/-- One resource. -/
def prv_get_value (id : UInt16) (targetP : server_instance_t) : Coap × Value :=
  if id = LWM2M_SERVER_SHORT_ID_ID then
    (.COAP_205_CONTENT, .LWM2M_TYPE_INTEGER targetP.shortServerId.toNat)
  else if id = LWM2M_SERVER_LIFETIME_ID then
    (.COAP_205_CONTENT, .LWM2M_TYPE_INTEGER targetP.lifetime.toNat)
  else if id = LWM2M_SERVER_DISABLE_ID then (.COAP_405_METHOD_NOT_ALLOWED, .LWM2M_TYPE_UNDEFINED)
  else if id = LWM2M_SERVER_STORING_ID then (.COAP_205_CONTENT, .LWM2M_TYPE_BOOLEAN targetP.storing)
  else if id = LWM2M_SERVER_BINDING_ID then
    (.COAP_205_CONTENT, .LWM2M_TYPE_STRING (cstr (targetP.binding ++ W.behind targetP)))
  else if id = LWM2M_SERVER_UPDATE_ID then (.COAP_405_METHOD_NOT_ALLOWED, .LWM2M_TYPE_UNDEFINED)
  else (.COAP_404_NOT_FOUND, .LWM2M_TYPE_UNDEFINED)

/-- The result for a resource, and what becomes of it. -/
def readStep (targetP : server_instance_t) (dataP : lwm2m_data_t) : Coap × lwm2m_data_t :=
  if dataP.value = .LWM2M_TYPE_MULTIPLE_RESOURCE then (.COAP_404_NOT_FOUND, dataP)
  else
    let (result, value) := prv_get_value W dataP.id targetP
    (result, if result = .COAP_205_CONTENT then { dataP with value } else dataP)

/-- The loop of `prv_server_read`. -/
def readLoop (targetP : server_instance_t) : List lwm2m_data_t → Option (Coap × List lwm2m_data_t)
  | [] => none
  | dataP :: rest =>
    let (result, dataP') := readStep W targetP dataP
    if rest ≠ [] ∧ result = .COAP_205_CONTENT then
      (readLoop targetP rest).map fun x => (x.1, dataP' :: x.2)
    else some (result, dataP' :: rest)

/-- The result and the resources; `malloc` is whether `lwm2m_data_new` succeeds. -/
def prv_server_read (malloc : Bool) (instanceId : UInt16) (data : List lwm2m_data_t)
    (objectP : List server_instance_t) : Option (Coap × List lwm2m_data_t) :=
  match W.lwm2m_list_find objectP instanceId with
  | none => some (.COAP_404_NOT_FOUND, data)
  | some targetP =>
    if data = [] then
      if malloc then readLoop W targetP (lwm2m_data_new resList)
      else some (.COAP_500_INTERNAL_SERVER_ERROR, data)
    else readLoop W targetP data

def prv_server_discover (malloc : Bool) (data : List lwm2m_data_t) : Coap × List lwm2m_data_t :=
  if data = [] then
    if malloc then (.COAP_205_CONTENT, lwm2m_data_new discoverList)
    else (.COAP_500_INTERNAL_SERVER_ERROR, data)
  else if data.all fun dataP => dataP.id ∈ discoverList then (.COAP_205_CONTENT, data)
  else (.COAP_404_NOT_FOUND, data)

def prv_set_int_value (value : Value) : Except Coap UInt32 :=
  match W.lwm2m_data_decode_int value with
  | some v =>
    if 0 ≤ v ∧ v ≤ 0xFFFFFFFF then .ok (UInt32.ofNat v.toNat) else .error .COAP_406_NOT_ACCEPTABLE
  | none => .error .COAP_400_BAD_REQUEST

/-- The buffer of a string or of an opaque value. -/
def Value.asBuffer : Value → Option (List UInt8)
  | LWM2M_TYPE_STRING buffer => some buffer
  | LWM2M_TYPE_OPAQUE buffer => some buffer
  | _ => none

/-- One resource of a write, in the instance. -/
def prv_set_value (targetP : server_instance_t) (dataP : lwm2m_data_t) :
    Except Coap server_instance_t :=
  if dataP.value = .LWM2M_TYPE_MULTIPLE_RESOURCE then .error .COAP_404_NOT_FOUND
  else if dataP.id = LWM2M_SERVER_SHORT_ID_ID then
    match prv_set_int_value W dataP.value with
    | .ok value =>
      if 0 < value ∧ value ≤ 0xFFFF then .ok { targetP with shortServerId := value.toUInt16 }
      else .error .COAP_406_NOT_ACCEPTABLE
    | .error result => .error result
  else if dataP.id = LWM2M_SERVER_LIFETIME_ID then
    match prv_set_int_value W dataP.value with
    | .ok value => .ok { targetP with lifetime := value }
    | .error result => .error result
  else if dataP.id = LWM2M_SERVER_DISABLE_ID then .error .COAP_405_METHOD_NOT_ALLOWED
  else if dataP.id = LWM2M_SERVER_STORING_ID then
    match W.lwm2m_data_decode_bool dataP.value with
    | some value => .ok { targetP with storing := value }
    | none => .error .COAP_400_BAD_REQUEST
  else if dataP.id = LWM2M_SERVER_BINDING_ID then
    match dataP.value.asBuffer with
    | some buffer =>
      if 0 < buffer.length ∧ buffer.length ≤ 3 then
        .ok { targetP with binding := strncpy targetP.binding buffer buffer.length }
      else .error .COAP_400_BAD_REQUEST
    | none => .error .COAP_400_BAD_REQUEST
  else if dataP.id = LWM2M_SERVER_UPDATE_ID then .error .COAP_405_METHOD_NOT_ALLOWED
  else .error .COAP_404_NOT_FOUND

/-- The loop of `prv_server_write`, and the instance after it. -/
def writeLoop (targetP : server_instance_t) : List lwm2m_data_t → Option (Coap × server_instance_t)
  | [] => none
  | dataP :: rest =>
    match prv_set_value W targetP dataP with
    | .ok targetP' => if rest = [] then some (.COAP_204_CHANGED, targetP') else writeLoop targetP' rest
    | .error result => some (result, targetP)

/-- The instance is changed in its place. -/
def setInstance (id : UInt16) (targetP : server_instance_t) :
    List server_instance_t → List server_instance_t
  | [] => []
  | x :: l => if x.instanceId = id then targetP :: l else x :: setInstance id targetP l

inductive lwm2m_write_type_t where
  | LWM2M_WRITE_PARTIAL_UPDATE
  | LWM2M_WRITE_REPLACE_RESOURCES
  | LWM2M_WRITE_REPLACE_INSTANCE
  deriving DecidableEq, Repr

def prv_server_delete (id : UInt16) (objectP : List server_instance_t) :
    Coap × List server_instance_t :=
  let (instanceList, serverInstance) := W.lwm2m_list_remove objectP id
  (if serverInstance.isSome then .COAP_202_DELETED else .COAP_404_NOT_FOUND, instanceList)

/-- `prv_server_write` of resources. -/
def writeResources (instanceId : UInt16) (data : List lwm2m_data_t)
    (objectP : List server_instance_t) : Option (Coap × List server_instance_t) :=
  match W.lwm2m_list_find objectP instanceId with
  | none => some (.COAP_404_NOT_FOUND, objectP)
  | some targetP =>
    (writeLoop W targetP data).map fun x => (x.1, setInstance instanceId x.2 objectP)

/-- The new instance, zeroed. -/
def server_instance_t.zeroed (instanceId : UInt16) : server_instance_t :=
  ⟨instanceId, 0, 0, false, [0, 0, 0, 0]⟩

/-- `malloc` is whether there is memory for the instance. -/
def prv_server_create (malloc : Bool) (instanceId : UInt16) (data : List lwm2m_data_t)
    (objectP : List server_instance_t) : Option (Coap × List server_instance_t) :=
  if malloc then
    (writeResources W instanceId data (W.LWM2M_LIST_ADD objectP (.zeroed instanceId))).map fun x =>
      if x.1 = .COAP_204_CHANGED then (.COAP_201_CREATED, x.2)
      else (x.1, (prv_server_delete W instanceId x.2).2)
  else some (.COAP_500_INTERNAL_SERVER_ERROR, objectP)

def prv_server_write (malloc : Bool) (instanceId : UInt16) (data : List lwm2m_data_t)
    (writeType : lwm2m_write_type_t) (objectP : List server_instance_t) :
    Option (Coap × List server_instance_t) :=
  match W.lwm2m_list_find objectP instanceId with
  | none => some (.COAP_404_NOT_FOUND, objectP)
  | some _ =>
    if writeType = .LWM2M_WRITE_REPLACE_INSTANCE then
      let (result, objectP') := prv_server_delete W instanceId objectP
      if result = .COAP_202_DELETED then
        (prv_server_create W malloc instanceId data objectP').map fun x =>
          (if x.1 = .COAP_201_CREATED then .COAP_204_CHANGED else x.1, x.2)
      else some (result, objectP')
    else writeResources W instanceId data objectP

def prv_server_execute (instanceId resourceId : UInt16) (objectP : List server_instance_t) : Coap :=
  match W.lwm2m_list_find objectP instanceId with
  | none => .COAP_404_NOT_FOUND
  | some _ =>
    if resourceId = LWM2M_SERVER_DISABLE_ID then .COAP_204_CHANGED
    else if resourceId = LWM2M_SERVER_UPDATE_ID then .COAP_204_CHANGED
    else .COAP_405_METHOD_NOT_ALLOWED

/-- `get_server_object`, if there is memory. -/
def get_server_object : List server_instance_t := W.LWM2M_LIST_ADD [] ⟨0, 123, 15 * 60, false, [85, 0, 0, 0]⟩

/-! ## Requests -/

/-- What the library asks for, with whether there is memory. -/
inductive Request where
  | read (malloc : Bool) (instanceId : UInt16) (data : List lwm2m_data_t)
  | discover (malloc : Bool) (data : List lwm2m_data_t)
  | write (malloc : Bool) (instanceId : UInt16) (data : List lwm2m_data_t)
    (writeType : lwm2m_write_type_t)
  | execute (instanceId resourceId : UInt16)
  | create (malloc : Bool) (instanceId : UInt16) (data : List lwm2m_data_t)
  | delete (instanceId : UInt16)
  deriving DecidableEq, Repr

/-- The answer to a request. -/
structure Answer where
  result : Coap
  /-- The resources that are read or discovered. -/
  data : List lwm2m_data_t
  deriving DecidableEq, Repr

def Request.run (objectP : List server_instance_t) :
    Request → Option (Answer × List server_instance_t)
  | read malloc instanceId data =>
    (prv_server_read W malloc instanceId data objectP).map fun x => (⟨x.1, x.2⟩, objectP)
  | discover malloc data =>
    let (result, data') := prv_server_discover malloc data
    some (⟨result, data'⟩, objectP)
  | write malloc instanceId data writeType =>
    (prv_server_write W malloc instanceId data writeType objectP).map fun x => (⟨x.1, []⟩, x.2)
  | execute instanceId resourceId => some (⟨prv_server_execute W instanceId resourceId objectP, []⟩, objectP)
  | create malloc instanceId data =>
    (prv_server_create W malloc instanceId data objectP).map fun x => (⟨x.1, []⟩, x.2)
  | delete instanceId =>
    let (result, objectP') := prv_server_delete W instanceId objectP
    some (⟨result, []⟩, objectP')

/-- The answers to a sequence of requests, and the object after it. -/
def runs (objectP : List server_instance_t) :
    List Request → Option (List Answer × List server_instance_t)
  | [] => some ([], objectP)
  | request :: requests => (request.run W objectP).bind fun x =>
    (runs x.2 requests).map fun y => (x.1 :: y.1, y.2)

end Functions

end Miso.Lwm2m.Server
