import Mathlib.Algebra.Order.Field.Rat
import Mathlib.Tactic.Linarith
import WifiRepeater.Lib.CString

/-!
# Requests, and the JSON they carry

A handler gets the length a request announces and receives the body as the network
delivers it.  The text is parsed by the vendored cJSON library; the parser itself is a
parameter of the model, of which the code uses that an empty text is no JSON, while the
access to the parsed tree is translated.

## Main definitions

* `CJson`, `cJsonGetObjectItem`, `valueint` — parsed JSON and its access.
* `CJsonParser` — the parser.
* `Request`, `httpdReqRecv` — a request and the first receive call on it.
* `Served` — what a handler has done.
-/

namespace WifiRepeater

/-! ### JSON -/

/-- `cJSON`: an item with its type and value. -/
inductive CJson
  /-- `cJSON_NULL`. -/
  | null
  /-- `cJSON_False` and `cJSON_True`. -/
  | bool (value : Bool)
  /-- `cJSON_Number`, with its `valuedouble`. -/
  | number (value : ℚ)
  /-- `cJSON_String`, with its `valuestring`. -/
  | string (value : CStr)
  /-- `cJSON_Array`. -/
  | array (items : List CJson)
  /-- `cJSON_Object`, its members in order. -/
  | object (members : List (CStr × CJson))

/-- `tolower` in the C locale. -/
def tolower (b : UInt8) : UInt8 := if 0x41 ≤ b ∧ b ≤ 0x5a then b + 0x20 else b

/-- `case_insensitive_strcmp(a, b) == 0`. -/
def caseInsensitiveEq (a b : CStr) : Bool := a.bytes.map tolower = b.bytes.map tolower

/-- `cJSON_GetObjectItem`: the first member with the name, whatever the case of its
letters. -/
def cJsonGetObjectItem (name : CStr) : CJson → Option CJson
  | .object members => (members.find? fun m => caseInsensitiveEq name m.1).map Prod.snd
  | .null | .bool _ | .number _ | .string _ | .array _ => none

/-- `valueint`: the number truncated, and saturated to an `int`. -/
def valueint (value : ℚ) : ℤ :=
  if 2147483647 ≤ value then 2147483647
  else if value ≤ -2147483648 then -2147483648
  else value.num.tdiv value.den

/-- The cast of an `int` to `uint8_t`. -/
def uint8Cast (v : ℤ) : UInt8 := UInt8.ofNat (v % 256).toNat

/-- `cJSON_Parse`, `none` for `NULL`. -/
structure CJsonParser where
  /-- The parser. -/
  parse : CStr → Option CJson
  /-- There is no value in an empty text. -/
  parse_empty : parse .empty = none

/-- An integer of a byte's range is its own `valueint`. -/
theorem uint8Cast_valueint {n : ℕ} (h : n < 256) : uint8Cast (valueint n) = UInt8.ofNat n := by
  have hn : (n : ℚ) < 256 := by exact_mod_cast h
  have hn0 : (0 : ℚ) ≤ n := Nat.cast_nonneg n
  -- far from both ends of an `int`, nothing saturates
  have hval : valueint n = n := by
    unfold valueint
    rw [if_neg (by linarith), if_neg (by linarith)]
    simp
  rw [hval]
  unfold uint8Cast
  congr 1
  omega

/-! ### Requests -/

/-- An HTTP request. -/
structure Request where
  /-- The length it announces. -/
  contentLen : ℕ
  /-- The body, as the network delivers it. -/
  segments : List (List UInt8)

/-- A request whose body is delivered in one piece. -/
def Request.whole (body : List UInt8) : Request := ⟨body.length, [body]⟩

/-- The first call of `httpd_req_recv`, for `n` bytes: what has arrived by then, `none`
for an error. -/
def httpdReqRecv (req : Request) (n : ℕ) : Option (List UInt8) :=
  req.segments.head?.map (List.take n)

/-- The body as the handlers read it: what one receive call returns, terminated, and
`none` when that is nothing. -/
def recvBody (req : Request) : Option CStr :=
  match httpdReqRecv req req.contentLen with
  | some bytes => if bytes.length = 0 then none else some (.ofMem bytes)
  | none => none

/-- A nonempty body delivered in one piece is read as a whole. -/
theorem recvBody_whole {body : List UInt8} (h : body ≠ []) :
    recvBody (.whole body) = some (.ofMem body) := by
  have hpos : body.length ≠ 0 := by simpa using h
  simp [recvBody, httpdReqRecv, Request.whole, hpos]

/-- What a handler sends. -/
structure Response where
  /-- The HTTP status. -/
  status : ℕ
  /-- The body. -/
  body : String
  deriving DecidableEq

/-- What a handler has done by the time it returns. -/
structure Served where
  /-- The response it sent. -/
  response : Option Response
  /-- The delay in milliseconds after which it had the device restart. -/
  restart : Option ℕ
  /-- Whether it started a scan. -/
  scan : Bool
  /-- Whether it returned `ESP_OK`. -/
  ok : Bool
  deriving DecidableEq

/-- `httpd_resp_send_err` and `return ESP_FAIL`. -/
def sendErr (status : ℕ) (message : String) : Served := ⟨some ⟨status, message⟩, none, false, false⟩

/-- What keeps a handler from sending the JSON it builds. -/
inductive JsonFailure
  /-- `cJSON_CreateObject` or `cJSON_CreateArray` returns `NULL`. -/
  | alloc
  /-- `cJSON_PrintUnformatted` does. -/
  | render
  deriving DecidableEq

/-- The message that is sent instead. -/
def JsonFailure.message : JsonFailure → String
  | .alloc => "JSON alloc failed"
  | .render => "JSON render failed"

/-- The text of the JSON that a handler builds. -/
abbrev JsonOutcome := Except JsonFailure String

/-- `return ESP_FAIL` without a response. -/
def dropped : Served := ⟨none, none, false, false⟩

end WifiRepeater
