import Miso.Boot.Firmware
import Miso.Zig.CString
import Miso.Zig.Fmt

/-!
# Loading the settings (`config.c`)

The `config_*` buffers are the component `config` of the device, by the NVM key under which
`config.zig` stores them: `config_wifi_key` is the buffer of `wifi_psk`, `config_lwm2m_endpoint` that of
`lwm2m_device_id`, `config_http_key` that of `http_sig_key`, `config_ntp_url` that of `ntp_uri` and
`config_config_uri` that of `config_uri`.  A buffer that is longer than its `bufferSize` has been written
behind its end.

* `copyString`, `Copy.apply` — the copies into a buffer;
* `tokenStep`, `copies` — the pass of `miso_load_config` over the tokens of `jsmn`;
* `miso_load_config`.

`jsmn` is not part of the repository; it is the parameter `Libs.jsmn_parse`.
-/

namespace Miso.Config

open Zig Boot

/-! ## Buffers -/

/-- `sizeof` the buffer of a setting. -/
def bufferSize : app_nvm_keys → Nat
  | .wifi_ssid | .wifi_psk => 32
  | .lwm2m_device_id | .lwm2m_uri | .lwm2m_psk_id => 128
  | .lwm2m_psk_key => 64
  | .ntp_uri => 64
  | .mqtt_uri | .mqtt_device_id | .mqtt_psk_id => 128
  | .mqtt_psk_key => 64
  | .http_uri | .http_sig_uri => 128
  | .http_sig_key => 256
  | .config_uri => 128
  | _ => 0

/-- The buffers of `config.c`, in the order of their declarations. -/
def buffers : List app_nvm_keys :=
  [.wifi_ssid, .wifi_psk, .lwm2m_device_id, .lwm2m_uri, .lwm2m_psk_id, .lwm2m_psk_key, .ntp_uri,
   .mqtt_uri, .mqtt_device_id, .mqtt_psk_id, .mqtt_psk_key, .http_uri, .http_sig_uri, .http_sig_key,
   .config_uri]

/-- The buffers that have a `config_get_*`. -/
def getters : List app_nvm_keys :=
  [.wifi_ssid, .wifi_psk, .lwm2m_uri, .lwm2m_psk_id, .lwm2m_psk_key, .mqtt_uri, .mqtt_device_id,
   .lwm2m_device_id, .mqtt_psk_id, .mqtt_psk_key, .http_uri, .http_sig_uri, .http_sig_key,
   .config_uri]

abbrev Buffers := app_nvm_keys → List UInt8

/-- The buffers after a reset. -/
def zeroed : Buffers := fun k => List.replicate (bufferSize k) 0

/-- `copyString`. -/
def copyString (dest : List UInt8) (dest_len : Nat) (src : List UInt8) (src_len : Nat) :
    List UInt8 :=
  let src_len := if src_len > dest_len then dest_len else src_len
  strncpy (zeroFill dest dest_len) src src_len

/-- One buffer gets another content. -/
def Buffers.set (g : Buffers) (k : app_nvm_keys) (c : List UInt8) : Buffers :=
  fun j => if j = k then c else g j

@[simp] theorem Buffers.set_self (g : Buffers) (k : app_nvm_keys) (c : List UInt8) :
    g.set k c k = c := if_pos rfl

theorem Buffers.set_of_ne {k j : app_nvm_keys} (h : j ≠ k) (g : Buffers) (c : List UInt8) :
    g.set k c j = g j := if_neg h

/-! ## Tokens -/

inductive jsmntype_t where
  | JSMN_UNDEFINED
  | JSMN_OBJECT
  | JSMN_ARRAY
  | JSMN_STRING
  | JSMN_PRIMITIVE
  deriving DecidableEq, Repr

/-- A token of `jsmn` with parent links; a string begins behind its opening quote. -/
structure jsmntok_t where
  type : jsmntype_t
  start : Nat
  «end» : Nat
  parent : Int
  deriving DecidableEq, Repr

/-- Code that is not part of the repository, and memory that no declaration of it fixes. -/
structure Libs where
  /-- `jsmn_parse` of the whole text; `none` is a negative result. -/
  jsmn_parse : List UInt8 → Option (List jsmntok_t)
  /-- What the heap holds behind the array of tokens. -/
  heap : jsmntok_t
  /-- What the RAM holds behind a buffer, up to a NUL. -/
  behind : Buffers → app_nvm_keys → List UInt8
  /-- `mbedtls_pk_parse_public_key` accepts the key. -/
  mbedtls_pk_parse_public_key : List UInt8 → Bool
  /-- `mbedtls_pk_verify` accepts the signature, for this key and hash. -/
  mbedtls_pk_verify : List UInt8 → List UInt8 → List UInt8 → Bool

/-! ## The pass over the tokens -/

/-- `0 == strncmp(json_key, name, strlen(name))`. -/
def named (json_key : List UInt8) (name : String) : Bool := beginsWith json_key (bytesOf name)

def INT8_MIN : Int := -128

/-- The indices that `miso_load_config` keeps. -/
structure Keys where
  wifi_key : Int := INT8_MIN
  lwm2m_key : Int := INT8_MIN
  ntp_key : Int := INT8_MIN
  lwm2m_psk_key : Int := INT8_MIN
  lwm2m_cert_key : Int := INT8_MIN
  ntp_url_key : Int := INT8_MIN
  ntp_url_array : Int := INT8_MIN
  mqtt_key : Int := INT8_MIN
  mqtt_psk_key : Int := INT8_MIN
  mqtt_cert_key : Int := INT8_MIN
  http_key : Int := INT8_MIN
  config_key : Int := INT8_MIN
  deriving DecidableEq, Repr

/-- A copy into a buffer; the source is given by its place in the text. -/
inductive Copy where
  | copyString (dest : app_nvm_keys) (dest_len start src_len : Nat)
  | strncpy (dest : app_nvm_keys) (start src_len : Nat)
  deriving DecidableEq, Repr

/-- The buffers after a copy. -/
def Copy.apply (text : List UInt8) (g : Buffers) : Copy → Buffers
  | .copyString dest dest_len start src_len =>
    g.set dest (Config.copyString (g dest) dest_len (text.drop start) src_len)
  | .strncpy dest start src_len => g.set dest (Zig.strncpy (g dest) (text.drop start) src_len)

/-- `dest_ptr` and `dest_len` of a buffer. -/
def destination (k : app_nvm_keys) : Option (app_nvm_keys × Nat) := some (k, bufferSize k)

section Branches

variable (json_key : List UInt8) (i : Nat) (k : Keys)

/-- A key of the root object. -/
def rootKey : Keys :=
  if named json_key "wifi" then { k with wifi_key := i }
  else if named json_key "lwm2m" then { k with lwm2m_key := i }
  else if named json_key "ntp" then { k with ntp_key := i }
  else if named json_key "mqtt" then { k with mqtt_key := i }
  else if named json_key "http" then { k with http_key := i }
  else if named json_key "config" then { k with config_key := i }
  else k

/-- A string in `wifi`; both buffers are copied to with the size of `config_wifi_key`. -/
def wifiDest : Option (app_nvm_keys × Nat) :=
  if named json_key "ssid" then some (.wifi_ssid, bufferSize .wifi_psk)
  else if named json_key "key" then destination .wifi_psk
  else none

/-- A string in `lwm2m`. -/
def lwm2mEntry : Keys × Option (app_nvm_keys × Nat) :=
  if named json_key "uri" || named json_key "url" then (k, destination .lwm2m_uri)
  else if named json_key "psk" then ({ k with lwm2m_psk_key := i }, none)
  else if named json_key "cert" then ({ k with lwm2m_cert_key := i }, none)
  else if named json_key "bootstrap" then (k, none)
  else if named json_key "endpoint" || named json_key "device" then
    (k, destination .lwm2m_device_id)
  else (k, none)

/-- A string in `mqtt`. -/
def mqttEntry : Keys × Option (app_nvm_keys × Nat) :=
  if named json_key "uri" || named json_key "url" then (k, destination .mqtt_uri)
  else if named json_key "device" then (k, destination .mqtt_device_id)
  else if named json_key "username" then (k, none)
  else if named json_key "password" then (k, none)
  else if named json_key "psk" then ({ k with mqtt_psk_key := i }, none)
  else if named json_key "cert" then ({ k with mqtt_cert_key := i }, none)
  else (k, none)

/-- A string in a `psk`. -/
def pskDest (psk_id psk_key : app_nvm_keys) : Option (app_nvm_keys × Nat) :=
  if named json_key "id" then destination psk_id
  else if named json_key "key" then destination psk_key
  else none

/-- A string in `http`: the test for `uri` is not part of the chain behind it. -/
def httpDest : Option (app_nvm_keys × Nat) :=
  let dest := if named json_key "uri" || named json_key "url" then destination .http_uri else none
  if named json_key "sig" || named json_key "sig_uri" then destination .http_sig_uri
  else if named json_key "key" then destination .http_sig_key
  else dest

/-- A string in `config`. -/
def configDest : Option (app_nvm_keys × Nat) :=
  if named json_key "uri" || named json_key "url" then destination .config_uri else none

end Branches

/-- The copy of the next token, if it is a string and there is a destination. -/
def copyNext (next : jsmntok_t) (dest : Option (app_nvm_keys × Nat)) : Option Copy :=
  match dest with
  | some (dest_ptr, dest_len) =>
    if next.type = .JSMN_STRING then
      some (.copyString dest_ptr dest_len next.start (next.end - next.start))
    else none
  | none => none

/-- One round of the loop, for the token `tok` at index `i` with `next` behind it. -/
def tokenStep (text : List UInt8) (next : jsmntok_t) (i : Nat) (tok : jsmntok_t) (k : Keys) :
    Keys × Option Copy :=
  let json_key := text.drop tok.start
  if 0 = tok.parent ∧ tok.type = .JSMN_STRING then (rootKey json_key i k, none)
  else if k.wifi_key + 1 = tok.parent ∧ tok.type = .JSMN_STRING then
    (k, copyNext next (wifiDest json_key))
  else if k.lwm2m_key + 1 = tok.parent ∧ tok.type = .JSMN_STRING then
    ((lwm2mEntry json_key i k).1, copyNext next (lwm2mEntry json_key i k).2)
  else if k.ntp_key + 1 = tok.parent ∧ tok.type = .JSMN_STRING then
    (if named json_key "url" then { k with ntp_url_key := i } else k, none)
  else if k.ntp_url_key = tok.parent ∧ tok.type = .JSMN_ARRAY then
    ({ k with ntp_url_array := i }, none)
  else if k.ntp_url_array = tok.parent ∧ tok.type = .JSMN_STRING then
    (k, some (.strncpy .ntp_uri tok.start (tok.end - tok.start)))
  else if k.mqtt_key + 1 = tok.parent ∧ tok.type = .JSMN_STRING then
    ((mqttEntry json_key i k).1, copyNext next (mqttEntry json_key i k).2)
  else if k.lwm2m_psk_key + 1 = tok.parent ∧ tok.type = .JSMN_STRING then
    (k, copyNext next (pskDest json_key .lwm2m_psk_id .lwm2m_psk_key))
  else if k.mqtt_psk_key + 1 = tok.parent ∧ tok.type = .JSMN_STRING then
    (k, copyNext next (pskDest json_key .mqtt_psk_id .mqtt_psk_key))
  else if k.http_key + 1 = tok.parent ∧ tok.type = .JSMN_STRING then
    (k, copyNext next (httpDest json_key))
  else if k.config_key + 1 = tok.parent ∧ tok.type = .JSMN_STRING then
    (k, copyNext next (configDest json_key))
  else (k, none)

/-- The copies of the loop from index `i` on.  No round reads a buffer, so they are listed first and
    made afterwards; behind the last token the loop looks at `heap`. -/
def copies (text : List UInt8) (heap : jsmntok_t) : Nat → List jsmntok_t → Keys → List Copy
  | _, [], _ => []
  | i, tok :: rest, k =>
    (tokenStep text (rest.headD heap) i tok k).2.toList ++
      copies text heap (i + 1) rest (tokenStep text (rest.headD heap) i tok k).1

/-- The copies that a text leads to. -/
def Libs.copies (L : Libs) (text : List UInt8) : List Copy :=
  match L.jsmn_parse text with
  | some json_tokens => Config.copies text L.heap 0 json_tokens {}
  | none => []

/-- The buffers after the copies. -/
def applyAll (text : List UInt8) (g : Buffers) (cs : List Copy) : Buffers :=
  cs.foldl (Copy.apply text) g

/-- `miso_load_config`.  Without memory for the tokens the loop follows a null pointer. -/
def miso_load_config (L : Libs) : BootM Unit := do
  match ← (f_open .config_file_name fMode.read).attempt with
  | .error _ => (f_close ⟨.config_file_name, 0, 0⟩).orIgnore
  | .ok file =>
    (Prog.deferring (f_close file) do
      alloc file.size
      let (read_buffer, _) ← f_read file file.size
      (alloc ((L.jsmn_parse read_buffer).getD []).length).orUnreachable
      Prog.modify fun w =>
        { w with config := applyAll read_buffer w.config (L.copies read_buffer) }).orIgnore

end Miso.Config
