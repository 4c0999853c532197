import Mathlib.Data.List.DropRight
import WifiRepeater.Json.FromJs
import WifiRepeater.Lib.Numbers
import WifiRepeater.Web.ConfigJson

/-!
# Saving a form

The dashboard and the set-up page both have a form for the configuration.  A page looks at
what was typed, and then posts it as JSON: names that are missing and passwords that are too
short do not get past the page.  It measures a password in code units and the device measures
it in bytes, of which there are no fewer, so that the device never refuses what the page has
let through because a string is too short; what is too long is cut by the device, and the
number of stations is its own affair.

## Main definitions

* `SettingsForm`, `saveSettings` — the dialog of the dashboard.
* `SetupForm`, `saveConfig` — the set-up page.
* `PageConfig` — what either of them posts.

## Main results

* `page_accepted_iff` — **when the device accepts what a page has let through.**
* `typed_is_saved` — **what a page posts is what is saved.**
* `setup_saved` — **on a device without a configuration what the set-up page posts is saved.**
-/

namespace WifiRepeater

open Json (Doubles ofJs ofJsMembers ofJsMember Sendable NulFree Fits sent cJsonParser)
open Js (utf8 ofChars quote stringify stringifyMembers stringifyMember)

/-! ### The pages -/

/-- `parseInt(value, 10)`, `none` for `NaN` and for an infinity. -/
def parseInt (value : List Char) : Option ℤ :=
  let cs := value.dropWhile Js.isSpace
  let digits := ((if cs.head? = some '-' ∨ cs.head? = some '+' then cs.tail else cs).takeWhile
    Char.isDigit)
  if digits = [] then none
  else
    (Js.nearestNumber (Nat.ofDigitChars 10 digits 0)).map fun n : ℕ =>
      if cs.head? = some '-' then -(n : ℤ) else n

/-- `trim`. -/
def trim (value : List Char) : List Char := (value.dropWhile Js.isSpace).rdropWhile Js.isSpace

/-- What a page posts. -/
structure PageConfig where
  staSsid : List Char
  staPass : List Char
  /-- `none` when there is no such member. -/
  apSsid : Option (List Char)
  /-- `none` when there is no such member. -/
  apPass : Option (List Char)
  /-- `none` when there is no such member, and `none` within for a `NaN` or an infinity. -/
  apMaxConn : Option (Option ℤ)

/-- A member that may be missing. -/
def member (name : String) : Option Js.Value → List (List Char × Js.Value)
  | some v => [(name.toList, v)]
  | none => []

/-- A number, or the `null` that is written for what is none. -/
def numberOrNull : Option ℤ → Js.Value
  | some n => .number n
  | none => .null

/-- The object that is given to `JSON.stringify`. -/
def PageConfig.value (c : PageConfig) : Js.Value :=
  .object (("sta_ssid".toList, .string c.staSsid) :: ("sta_pass".toList, .string c.staPass) ::
    (member "ap_ssid" (c.apSsid.map .string) ++ member "ap_pass" (c.apPass.map .string) ++
      member "ap_max_conn" (c.apMaxConn.map numberOrNull)))

/-- What a page does when its button is pressed. -/
inductive PageAction
  /-- It shows a message. -/
  | message (text : String)
  /-- It does nothing: the question was answered with no. -/
  | nothing
  /-- It posts a configuration. -/
  | post (c : PageConfig)

/-- The inputs of the dialog. -/
structure SettingsForm where
  staSsid : List Char
  staPass : List Char
  apSsid : List Char
  apPass : List Char
  apMaxConn : List Char

/-- `saveSettings`, and the answer to its question. -/
def saveSettings (f : SettingsForm) (confirmed : Bool) : PageAction :=
  if f.staSsid = [] then .message "Uplink SSID is required"
  else if f.apSsid = [] then .message "Repeater SSID is required"
  else if f.apPass ≠ [] ∧ (ofChars f.apPass).length < 8 then
    .message "AP Password must be at least 8 characters"
  else if confirmed = false then .nothing
  else .post ⟨f.staSsid, f.staPass, some f.apSsid, some f.apPass, some (parseInt f.apMaxConn)⟩

/-- The inputs of the set-up page. -/
structure SetupForm where
  ssid : List Char
  password : List Char
  apSsid : List Char
  apPass : List Char

/-- `saveConfig`. -/
def saveConfig (f : SetupForm) : PageAction :=
  let ssid := trim f.ssid
  let apSsid := trim f.apSsid
  if ssid = [] then .message "Please enter or select a network SSID."
  else if f.apPass ≠ [] ∧ (ofChars f.apPass).length < 8 then
    .message "AP password must be at least 8 characters."
  else .post ⟨ssid, f.password, if apSsid = [] then none else some apSsid,
    if f.apPass = [] then none else some f.apPass, none⟩

/-! ### What gets past a page -/

/-- What a page has let through: names are there, and a password is empty or has eight bytes
at least. -/
structure PageConfig.Checked (c : PageConfig) : Prop where
  staSsid : c.staSsid ≠ []
  apSsid : ∀ s ∈ c.apSsid, s ≠ []
  apPass : ∀ s ∈ c.apPass, s = [] ∨ 8 ≤ (utf8 s).length

/-- A password of eight code units has eight bytes. -/
theorem long_enough {s : List Char} (h : ¬(s ≠ [] ∧ (ofChars s).length < 8)) :
    s = [] ∨ 8 ≤ (utf8 s).length := by
  have hle := Js.length_ofChars_le s
  by_cases hs : s = []
  · exact .inl hs
  · have := not_and.mp h hs
    exact .inr (by omega)

theorem checked_of_saveSettings {f : SettingsForm} {confirmed : Bool} {c : PageConfig}
    (h : saveSettings f confirmed = .post c) : c.Checked := by
  unfold saveSettings at h
  split_ifs at h with hsta hap hpass
  obtain rfl := PageAction.post.inj h
  exact ⟨hsta, fun s hs => Option.mem_some_iff.mp hs ▸ hap,
    fun s hs => Option.mem_some_iff.mp hs ▸ long_enough hpass⟩

theorem checked_of_saveConfig {f : SetupForm} {c : PageConfig} (h : saveConfig f = .post c) :
    c.Checked := by
  unfold saveConfig at h
  simp only at h
  split_ifs at h with hsta hpass hap hempty hempty
  all_goals obtain rfl := PageAction.post.inj h
  · exact ⟨hsta, fun s hs => by simp at hs, fun s hs => by simp at hs⟩
  · exact ⟨hsta, fun s hs => by simp at hs,
      fun s hs => Option.mem_some_iff.mp hs ▸ long_enough hpass⟩
  · exact ⟨hsta, fun s hs => Option.mem_some_iff.mp hs ▸ hap, fun s hs => by simp at hs⟩
  · exact ⟨hsta, fun s hs => Option.mem_some_iff.mp hs ▸ hap,
      fun s hs => Option.mem_some_iff.mp hs ▸ long_enough hpass⟩

/-! ### What is posted -/

/-- A string as it is sent. -/
def bytes (s : List Char) : CStr := .ofMem (utf8 s)

section Posted

variable (c : PageConfig)

theorem postedString_value :
    postedString (ofJs c.value) "sta_ssid" = some (bytes c.staSsid) ∧
      postedString (ofJs c.value) "sta_pass" = some (bytes c.staPass) ∧
      postedString (ofJs c.value) "ap_ssid" = c.apSsid.map bytes ∧
      postedString (ofJs c.value) "ap_pass" = c.apPass.map bytes := by
  obtain ⟨staSsid, staPass, apSsid, apPass, apMaxConn⟩ := c
  refine ⟨rfl, rfl, ?_, ?_⟩
  · rcases apSsid with _ | apSsid <;> rcases apPass with _ | apPass <;>
      rcases apMaxConn with _ | _ | n <;> rfl
  · rcases apSsid with _ | apSsid <;> rcases apPass with _ | apPass <;>
      rcases apMaxConn with _ | _ | n <;> rfl

theorem postedNumber_value :
    postedNumber (ofJs c.value) "ap_max_conn"
      = c.apMaxConn.join.map (fun n : ℤ => (n : ℚ)) := by
  obtain ⟨staSsid, staPass, apSsid, apPass, apMaxConn⟩ := c
  rcases apSsid with _ | apSsid <;> rcases apPass with _ | apPass <;>
    rcases apMaxConn with _ | _ | n <;> rfl

theorem postedPassword_value :
    postedPassword (ofJs c.value) "sta_pass"
        = (some (bytes c.staPass)).filter (fun v => decide (0 < v.length)) ∧
      postedPassword (ofJs c.value) "ap_pass"
        = (c.apPass.map bytes).filter (fun v => decide (0 < v.length)) := by
  obtain ⟨-, hsta, -, hap⟩ := postedString_value c
  rw [postedPassword, postedPassword, hsta, hap]
  exact ⟨rfl, rfl⟩

end Posted

/-- The strings that were typed have no NUL, and the number has fifteen digits at most. -/
structure PageConfig.Sendable (c : PageConfig) : Prop where
  staSsid : NulFree c.staSsid
  staPass : NulFree c.staPass
  apSsid : ∀ s ∈ c.apSsid, NulFree s
  apPass : ∀ s ∈ c.apPass, NulFree s
  apMaxConn : ∀ n ∈ c.apMaxConn.join, Fits n

theorem length_bytes {s : List Char} (h : NulFree s) : (bytes s).length = (utf8 s).length := by
  rw [bytes, CStr.length, CStr.ofMem_of_noNul (Json.utf8_noNul h)]

theorem length_bytes_pos {s : List Char} (h : NulFree s) (hne : s ≠ []) :
    0 < (bytes s).length := by
  obtain ⟨a, l, rfl⟩ := List.exists_cons_of_ne_nil hne
  rw [length_bytes h, Js.utf8_cons, List.length_append, String.length_utf8EncodeChar]
  exact Nat.add_pos_left a.utf8Size_pos _

theorem nulFree_ascii {s : List Char} (h : s.all (fun c => c ≠ '\x00')) : NulFree s :=
  fun c hc => by simpa using List.all_eq_true.mp h c hc

/-- A member that may be missing can be sent. -/
theorem sendableMembers_member {name : String} (hname : NulFree name.toList) {v : Option Js.Value}
    (hv : ∀ w ∈ v, Sendable w) : Json.SendableMembers (member name v) := by
  cases v with
  | none => trivial
  | some w => exact ⟨⟨hname, hv w rfl⟩, trivial⟩

theorem sendableMembers_append {ms ns : List (List Char × Js.Value)}
    (hm : Json.SendableMembers ms) (hn : Json.SendableMembers ns) :
    Json.SendableMembers (ms ++ ns) := by
  induction ms with
  | nil => exact hn
  | cons m ms ih => exact ⟨hm.1, ih hm.2⟩

theorem sendable_value {c : PageConfig} (h : c.Sendable) : Sendable c.value := by
  have hstring : ∀ {o : Option (List Char)}, (∀ s ∈ o, NulFree s) →
      ∀ w ∈ o.map Js.Value.string, Sendable w := by
    intro o ho w hw
    obtain ⟨s, hs, rfl⟩ := Option.mem_map.mp hw
    exact ho s hs
  refine ⟨⟨nulFree_ascii rfl, h.staSsid⟩, ⟨nulFree_ascii rfl, h.staPass⟩,
    sendableMembers_append (sendableMembers_append
      (sendableMembers_member (nulFree_ascii rfl) (hstring h.apSsid))
      (sendableMembers_member (nulFree_ascii rfl) (hstring h.apPass)))
      (sendableMembers_member (nulFree_ascii rfl) fun w hw => ?_)⟩
  obtain ⟨o, ho, rfl⟩ := Option.mem_map.mp hw
  cases o with
  | none => trivial
  | some n => exact h.apMaxConn n (by rw [ho]; rfl)

theorem depth_value_le (c : PageConfig) : Json.depth (ofJs c.value) ≤ Json.nestingLimit := by
  have hone : Json.depth (ofJs c.value) = 1 := by
    obtain ⟨staSsid, staPass, apSsid, apPass, apMaxConn⟩ := c
    rcases apSsid with _ | apSsid <;> rcases apPass with _ | apPass <;>
      rcases apMaxConn with _ | _ | n <;> rfl
  rw [hone]
  decide

section Accepted

variable (D : Doubles) (fresh : (n : ℕ) → Buf n)

/-- The request a page makes. -/
def PageConfig.request (c : PageConfig) : Request := .whole (utf8 (stringify c.value))

theorem recvBody_request (c : PageConfig) : recvBody c.request = some (sent c.value) := by
  have hne : utf8 (stringify c.value) ≠ [] := by
    rw [PageConfig.value, stringify, List.cons_append, Js.utf8_cons]
    exact List.cons_ne_nil _ _
  rw [PageConfig.request, recvBody_whole hne]
  rfl

/-- **The device reads what the page has written.** -/
theorem parse_sent {c : PageConfig} (h : c.Sendable) :
    (cJsonParser D fresh).parse (sent c.value) = some (ofJs c.value) := by
  simp only [cJsonParser, Json.cJsonParse_stringify D fresh (sendable_value h) (depth_value_le c)]

/-! ### What the device makes of it -/

/-- What the cast to a byte leaves of the number of stations is in range. -/
def PageConfig.StationsInRange (c : PageConfig) : Prop :=
  ∀ n : ℤ, n ∈ c.apMaxConn.join →
    0 < (uint8Cast (valueint n)).toNat ∧ (uint8Cast (valueint n)).toNat ≤ 10

/-- What a page has let through is in range but for the number of stations. -/
theorem cutInRange_value_iff {c : PageConfig} (hcheck : c.Checked) (h : c.Sendable) :
    CutInRange (ofJs c.value) ↔ c.StationsInRange := by
  obtain ⟨hsta, -, hap, -⟩ := postedString_value c
  have hnumber := postedNumber_value c
  constructor
  · intro hin n hn
    refine hin.apMaxConnections n ?_
    rw [hnumber, Option.mem_map]
    exact ⟨n, hn, rfl⟩
  · intro hn
    constructor
    · rw [hsta]
      exact fun v hv => Option.mem_some_iff.mp hv ▸ length_bytes_pos h.staSsid hcheck.staSsid
    · rw [hap]
      intro v hv
      obtain ⟨s, hs, rfl⟩ := Option.mem_map.mp hv
      exact length_bytes_pos (h.apSsid s hs) (hcheck.apSsid s hs)
    · rw [(postedPassword_value c).2]
      intro v hv
      obtain ⟨hv, hv0⟩ := Option.mem_filter_iff.mp hv
      obtain ⟨s, hs, rfl⟩ := Option.mem_map.mp hv
      rw [decide_eq_true_eq, length_bytes (h.apPass s hs)] at hv0
      rw [length_bytes (h.apPass s hs)]
      rcases hcheck.apPass s hs with rfl | hge
      · exact absurd hv0 (by simp)
      · exact hge
    · rw [hnumber]
      intro q hq
      obtain ⟨n, hmem, rfl⟩ := Option.mem_map.mp hq
      exact hn n hmem

/-- A configuration that one of the pages posts. -/
def PageConfig.Posted (c : PageConfig) : Prop :=
  (∃ f confirmed, saveSettings f confirmed = .post c) ∨ ∃ f, saveConfig f = .post c

theorem PageConfig.Posted.checked {c : PageConfig} (h : c.Posted) : c.Checked := by
  rcases h with ⟨f, confirmed, h⟩ | ⟨f, h⟩
  · exact checked_of_saveSettings h
  · exact checked_of_saveConfig h

/-- What the device makes of a page's request. -/
theorem post_request {P : CJsonParser} {c : PageConfig} (hcheck : c.Checked) (hsend : c.Sendable)
    (hroot : P.parse (sent c.value) = some (ofJs c.value)) (c₀ : RepeaterConfig) (s : Nvs) :
    let out := (apiConfigPostHandler P c.request c₀).run nvs [] s
    (out.value = savedOk ↔ c.request.contentLen < 1024 ∧ c.StationsInRange ∧
        ∀ st, storedSettings s = some st → st.Valid → AllCut (ofJs c.value) st c₀) ∧
      (out.value = savedOk →
        shown out.state = (shown s).save (merged (ofJs c.value) (inForce s)) ∧
          (wifiConfigHasStaCredentials.run nvs [] out.state).value = true) ∧
      (out.value ≠ savedOk → Refused P c.request c₀ s) := by
  have htakes : Takes c.request (ofJs c.value) c₀ s ↔ c.request.contentLen < 1024 ∧
      c.StationsInRange ∧
        ∀ st, storedSettings s = some st → st.Valid → AllCut (ofJs c.value) st c₀ := by
    have hrange := cutInRange_value_iff hcheck hsend
    have hends := zeroBehind_iff (ofJs c.value) c₀ s
    exact ⟨fun h => ⟨h.short, hrange.mp h.inRange, hends.mp h.ends⟩,
      fun h => ⟨h.1, hrange.mpr h.2.1, hends.mpr h.2.2⟩⟩
  rw [← htakes]
  exact post_read (recvBody_request c) hroot c₀ s

/-- **When the device accepts what a page has let through**: when it is not too long, the
number of stations is in range, and no value meets a leftover byte.  It never finds a string
too short.  The body comes in one piece, and no call of the store fails. -/
theorem page_accepted_iff {c : PageConfig} (hpage : c.Posted) (hsend : c.Sendable)
    (c₀ : RepeaterConfig) (s : Nvs) :
    let P := cJsonParser D fresh
    let out := (apiConfigPostHandler P c.request c₀).run nvs [] s
    (out.value = savedOk ↔ c.request.contentLen < 1024 ∧ c.StationsInRange ∧
        ∀ st, storedSettings s = some st → st.Valid → AllCut (ofJs c.value) st c₀) ∧
      (out.value = savedOk →
        shown out.state = (shown s).save (merged (ofJs c.value) (inForce s)) ∧
          (wifiConfigHasStaCredentials.run nvs [] out.state).value = true) ∧
      (out.value ≠ savedOk → Refused P c.request c₀ s) :=
  post_request hpage.checked hsend (parse_sent D fresh hsend) c₀ s

end Accepted

/-! ### What was typed -/

/-- What was typed fits its arrays, and the number of stations is one of 1 to 10. -/
structure PageConfig.Fits (c : PageConfig) : Prop where
  staSsid : (utf8 c.staSsid).length ≤ maxSsidLen
  staPass : (utf8 c.staPass).length ≤ maxPasswordLen
  apSsid : ∀ s ∈ c.apSsid, (utf8 s).length ≤ maxSsidLen
  apPass : ∀ s ∈ c.apPass, (utf8 s).length ≤ maxPasswordLen
  apMaxConn : ∀ n ∈ c.apMaxConn.join, 1 ≤ n ∧ n ≤ 10

/-- There are no control characters in it. -/
structure PageConfig.Printable (c : PageConfig) : Prop where
  staSsid : ∀ a ∈ c.staSsid, 0x20 ≤ a.toNat
  staPass : ∀ a ∈ c.staPass, 0x20 ≤ a.toNat
  apSsid : ∀ s ∈ c.apSsid, ∀ a ∈ s, 0x20 ≤ a.toNat
  apPass : ∀ s ∈ c.apPass, ∀ a ∈ s, 0x20 ≤ a.toNat

/-- A password, where an empty one is not posted. -/
def passwordOver (typed : List Char) (old : CStr) : CStr := if typed = [] then old else bytes typed

/-- What was typed, over the values that were there. -/
def PageConfig.over (c : PageConfig) (st : Settings) : Settings where
  staSsid := bytes c.staSsid
  staPassword := passwordOver c.staPass st.staPassword
  apSsid := (c.apSsid.map bytes).getD st.apSsid
  apPassword := (c.apPass.map fun s => passwordOver s st.apPassword).getD st.apPassword
  apMaxConnections :=
    (c.apMaxConn.join.map fun n => UInt8.ofNat n.toNat).getD st.apMaxConnections

section Typed

variable {c : PageConfig}

theorem nulFree_of_printable {s : List Char} (h : ∀ a ∈ s, 0x20 ≤ a.toNat) : NulFree s := by
  rintro a ha rfl
  exact absurd (h _ ha) (by decide)

theorem sendable_of_printable (hprint : c.Printable) (hfits : c.Fits) : c.Sendable where
  staSsid := nulFree_of_printable hprint.staSsid
  staPass := nulFree_of_printable hprint.staPass
  apSsid s hs := nulFree_of_printable (hprint.apSsid s hs)
  apPass s hs := nulFree_of_printable (hprint.apPass s hs)
  apMaxConn n hn := by
    have hrange := hfits.apMaxConn n hn
    show n.natAbs < 10 ^ 15
    omega

/-- The cast leaves one of 1 to 10 as it is. -/
theorem uint8Cast_of_fits {n : ℤ} (h : 1 ≤ n ∧ n ≤ 10) :
    uint8Cast (valueint n) = UInt8.ofNat n.toNat ∧ (UInt8.ofNat n.toNat).toNat = n.toNat := by
  obtain ⟨k, rfl⟩ := Int.eq_ofNat_of_zero_le (by omega : 0 ≤ n)
  refine ⟨?_, ?_⟩
  · exact uint8Cast_valueint (n := k) (by omega)
  · rw [UInt8.toNat_ofNat', Nat.mod_eq_of_lt (by omega)]

theorem stationsInRange_of_fits (h : c.Fits) : c.StationsInRange := by
  intro n hn
  have hrange := h.apMaxConn n hn
  obtain ⟨hcast, hval⟩ := uint8Cast_of_fits hrange
  rw [hcast, hval]
  omega

/-- A password that is posted, if it is not empty. -/
theorem getD_password {s : List Char} (hnul : NulFree s) (hle : (utf8 s).length ≤ maxPasswordLen)
    (old : CStr) :
    (((some (bytes s)).filter fun v => decide (0 < v.length)).map
      (CStr.take maxPasswordLen)).getD old = passwordOver s old := by
  have hlen := length_bytes hnul
  rw [passwordOver]
  by_cases hs : s = []
  · rw [if_pos hs, hs]
    rfl
  · rw [if_neg hs, Option.filter_some, if_pos (decide_eq_true (length_bytes_pos hnul hs)),
      Option.map_some, Option.getD_some, CStr.take_of_length_le (hlen ▸ hle)]

/-- **What fits is not cut.** -/
theorem merged_value (hfits : c.Fits) (hsend : c.Sendable) (st : Settings) :
    merged (ofJs c.value) st = c.over st := by
  obtain ⟨hsta, -, hap, -⟩ := postedString_value c
  obtain ⟨hstaPass, hapPass⟩ := postedPassword_value c
  have hnumber := postedNumber_value c
  have htake : ∀ {s : List Char}, NulFree s → (utf8 s).length ≤ maxSsidLen →
      (bytes s).take maxSsidLen = bytes s := fun hnul hle =>
    CStr.take_of_length_le (length_bytes hnul ▸ hle)
  rw [merged, PageConfig.over, hsta, hap, hstaPass, hapPass, hnumber]
  congr 1
  · rw [Option.map_some, Option.getD_some, htake hsend.staSsid hfits.staSsid]
  · exact getD_password hsend.staPass hfits.staPass _
  · cases hs : c.apSsid with
    | none => rfl
    | some s =>
      exact htake (hsend.apSsid s hs) (hfits.apSsid s hs)
  · cases hs : c.apPass with
    | none => rfl
    | some s => exact getD_password (hsend.apPass s hs) (hfits.apPass s hs) _
  · cases hn : c.apMaxConn.join with
    | none => rfl
    | some n => exact (uint8Cast_of_fits (hfits.apMaxConn n hn)).1

/-- The bytes of some members, each with a comma. -/
def membersLength (ms : List (List Char × Js.Value)) : ℕ :=
  (ms.map fun m => (utf8 (stringifyMember m)).length + 1).sum

theorem length_stringifyMembers_le (ms : List (List Char × Js.Value)) :
    (utf8 (stringifyMembers ms)).length ≤ membersLength ms := by
  induction ms with
  | nil => exact Nat.zero_le _
  | cons m ms ih =>
    have hcomma : (utf8 (if ms.isEmpty then [] else [','])).length ≤ 1 := by
      cases ms with
      | nil => exact Nat.zero_le _
      | cons m' ms => exact le_rfl
    rw [stringifyMembers, Js.utf8_append, Js.utf8_append, List.length_append, List.length_append,
      membersLength, List.map_cons, List.sum_cons]
    rw [membersLength] at ih
    omega

theorem membersLength_append (ms ns : List (List Char × Js.Value)) :
    membersLength (ms ++ ns) = membersLength ms + membersLength ns := by
  rw [membersLength, List.map_append, List.sum_append, membersLength, membersLength]

theorem membersLength_cons (m : List Char × Js.Value) (ms : List (List Char × Js.Value)) :
    membersLength (m :: ms) = membersLength [m] + membersLength ms :=
  membersLength_append [m] ms

/-- A member whose value is a string of `n` bytes. -/
theorem length_member_string (name : List Char) {s : List Char} {n : ℕ}
    (hname : (utf8 (quote name)).length ≤ 16)
    (hs : ∀ a ∈ s, 0x20 ≤ a.toNat) (hle : (utf8 s).length ≤ n) :
    membersLength [(name, .string s)] ≤ 2 * n + 20 := by
  have hquote := Js.length_utf8_quote_le hs
  have hcolon : (String.utf8EncodeChar ':').length = 1 := by decide
  rw [membersLength, List.map_singleton, List.sum_singleton, stringifyMember, stringify,
    Js.utf8_append, Js.utf8_cons, List.length_append, List.length_append]
  omega

theorem length_member_optional (name : String) {o : Option (List Char)} {n : ℕ}
    (hname : (utf8 (quote name.toList)).length ≤ 16) (hs : ∀ s ∈ o, ∀ a ∈ s, 0x20 ≤ a.toNat)
    (hle : ∀ s ∈ o, (utf8 s).length ≤ n) :
    membersLength (member name (o.map .string)) ≤ 2 * n + 20 := by
  cases o with
  | none => exact Nat.zero_le _
  | some s => exact length_member_string _ hname (hs s rfl) (hle s rfl)

theorem length_member_number (name : String) {o : Option (Option ℤ)}
    (hname : (utf8 (quote name.toList)).length ≤ 16) (hn : ∀ n ∈ o.join, 1 ≤ n ∧ n ≤ 10) :
    membersLength (member name (o.map numberOrNull)) ≤ 24 := by
  have hcolon : (String.utf8EncodeChar ':').length = 1 := by decide
  have hnumber : ∀ m ∈ o, (utf8 (stringify (numberOrNull m))).length ≤ 4 := by
    intro m hm
    cases m with
    | none => decide
    | some n =>
      have hrange := hn n (by rw [Option.mem_def.mp hm]; rfl)
      rw [numberOrNull, stringify, ← Json.decimal_eq_utf8]
      exact (Json.length_decimal_le (e := 2) (by decide) (by omega)).trans (by decide)
  cases o with
  | none => exact Nat.zero_le _
  | some m =>
    have := hnumber m rfl
    rw [Option.map_some, member, membersLength, List.map_singleton, List.sum_singleton,
      stringifyMember, Js.utf8_append, Js.utf8_cons, List.length_append, List.length_append]
    omega

/-- **What fits and is printable is short enough for the handler.** -/
theorem length_request_lt (hfits : c.Fits) (hprint : c.Printable) :
    c.request.contentLen < 1024 := by
  have h₁ := length_member_string "sta_ssid".toList (by decide) hprint.staSsid
    hfits.staSsid
  have h₂ := length_member_string "sta_pass".toList (by decide) hprint.staPass
    hfits.staPass
  have h₃ := length_member_optional "ap_ssid" (by decide) hprint.apSsid hfits.apSsid
  have h₄ := length_member_optional "ap_pass" (by decide) hprint.apPass hfits.apPass
  have h₅ := length_member_number "ap_max_conn" (by decide) hfits.apMaxConn
  show (utf8 (stringify c.value)).length < 1024
  have hbraces : (String.utf8EncodeChar '\x7b').length + (utf8 ['\x7d']).length = 2 := by decide
  have hmembers := length_stringifyMembers_le (("sta_ssid".toList, .string c.staSsid) ::
    ("sta_pass".toList, .string c.staPass) :: (member "ap_ssid" (c.apSsid.map .string) ++
      member "ap_pass" (c.apPass.map .string) ++
        member "ap_max_conn" (c.apMaxConn.map numberOrNull)))
  rw [membersLength_cons, membersLength_cons ("sta_pass".toList, _), membersLength_append,
    membersLength_append] at hmembers
  rw [PageConfig.value, stringify, Js.utf8_append, Js.utf8_cons, List.length_append,
    List.length_append]
  have hssid : maxSsidLen = 32 := rfl
  have hpassword : maxPasswordLen = 64 := rfl
  omega

variable (D : Doubles) (fresh : (n : ℕ) → Buf n)

/-- What is typed into a page and fits is what the device makes of it, but for leftover
bytes. -/
theorem typed_of_posted (hpage : c.Posted) (hfits : c.Fits) (hprint : c.Printable)
    (c₀ : RepeaterConfig) (s : Nvs) :
    let P := cJsonParser D fresh
    let out := (apiConfigPostHandler P c.request c₀).run nvs [] s
    (out.value = savedOk ↔
        ∀ st, storedSettings s = some st → st.Valid → AllCut (ofJs c.value) st c₀) ∧
      (out.value = savedOk → shown out.state = (shown s).save (c.over (inForce s)) ∧
        (wifiConfigHasStaCredentials.run nvs [] out.state).value = true) ∧
      (out.value ≠ savedOk → Refused P c.request c₀ s) := by
  have hsend := sendable_of_printable hprint hfits
  have hpost := post_request hpage.checked hsend (parse_sent D fresh hsend) c₀ s
  rw [merged_value hfits hsend] at hpost
  obtain ⟨hiff, hsaved, hrefused⟩ := hpost
  refine ⟨hiff.trans ?_, hsaved, hrefused⟩
  exact ⟨fun h => h.2.2,
    fun h => ⟨length_request_lt hfits hprint, stationsInRange_of_fits hfits, h⟩⟩

/-- **What a page posts of what was typed is what is saved**, the passwords that were left empty
as they were and the name at the front of the history: always, but for a value that fills its
array and meets a leftover byte, and then nothing is saved.  The set-up page has trimmed both
names; the body comes in one piece, and no call of the store fails. -/
theorem typed_is_saved (hpage : c.Posted) (hfits : c.Fits) (hprint : c.Printable)
    (c₀ : RepeaterConfig) (s : Nvs) :
    let P := cJsonParser D fresh
    let out := (apiConfigPostHandler P c.request c₀).run nvs [] s
    (out.value = savedOk ↔
        ∀ st, storedSettings s = some st → st.Valid → AllCut (ofJs c.value) st c₀) ∧
      (out.value = savedOk → shown out.state = (shown s).save (c.over (inForce s)) ∧
        (wifiConfigHasStaCredentials.run nvs [] out.state).value = true) ∧
      (out.value ≠ savedOk → Refused P c.request c₀ s) :=
  typed_of_posted D fresh hpage hfits hprint c₀ s

/-- **On a device without a configuration no value of the set-up page meets a leftover byte**:
there the handler works on the defaults, which it has written itself, and saves what the page
posts over them, if the body comes in one piece and no call of the store fails. -/
theorem setup_saved {f : SetupForm} (hpage : saveConfig f = .post c) (hfits : c.Fits)
    (hprint : c.Printable) (c₀ : RepeaterConfig) {s : Nvs}
    (hnone : ∀ st, storedSettings s = some st → ¬st.Valid) :
    let out := (apiConfigPostHandler (cJsonParser D fresh) c.request c₀).run nvs [] s
    out.value = savedOk ∧ inForce out.state = c.over defaultSettings ∧
      (wifiConfigHasStaCredentials.run nvs [] out.state).value = true := by
  intro out
  have hdefault : inForce s = defaultSettings := by
    unfold inForce
    cases hst : storedSettings s with
    | none => rfl
    | some st => exact if_neg (hnone st hst)
  obtain ⟨hiff, hsaved, -⟩ := typed_of_posted D fresh (.inr ⟨f, hpage⟩) hfits hprint c₀ s
  have hok := hiff.mpr fun st hst hv => absurd hv (hnone st hst)
  obtain ⟨hshown, hprovisioned⟩ := hsaved hok
  rw [hdefault] at hshown
  exact ⟨hok, congrArg Shown.settings hshown, hprovisioned⟩

end Typed

/-! ### Two forms -/

/-- The dialog, with another uplink, another name and the old password of the access point. -/
def dialogForm : SettingsForm :=
  ⟨['H', 'o', 'm', 'e'], ['s', 'e', 'c', 'r', 'e', 't'], ['A', 't', 't', 'i', 'c'], [], ['4']⟩

/-- What the dialog posts. -/
def dialogPage : PageConfig :=
  ⟨['H', 'o', 'm', 'e'], ['s', 'e', 'c', 'r', 'e', 't'], some ['A', 't', 't', 'i', 'c'], some [],
    some (some 4)⟩

theorem saveSettings_dialogForm : saveSettings dialogForm true = .post dialogPage := by
  have hnumber : Js.nearestNumber 4 = some 4 := by decide +kernel
  have hstations : parseInt ['4'] = some 4 := by
    show (Js.nearestNumber 4).map _ = _
    rw [hnumber]
    rfl
  show PageAction.post ⟨_, _, _, _, some (parseInt ['4'])⟩ = _
  rw [hstations]
  rfl

theorem dialogPage_fits : dialogPage.Fits where
  staSsid := by decide
  staPass := by decide
  apSsid := by simp [dialogPage]; decide
  apPass := by simp [dialogPage]
  apMaxConn := by simp [dialogPage]

theorem dialogPage_printable : dialogPage.Printable where
  staSsid := by simp [dialogPage]
  staPass := by simp [dialogPage]
  apSsid := by simp [dialogPage]
  apPass := by simp [dialogPage]

/-- A device without a configuration takes it. -/
theorem dialogPage_accepted :
    ((apiConfigPostHandler (cJsonParser Json.wholeDoubles Buf.zero) dialogPage.request
      wifiConfigGetDefault).run nvs [] none).value = savedOk :=
  (page_accepted_iff Json.wholeDoubles Buf.zero (.inl ⟨dialogForm, true, saveSettings_dialogForm⟩)
    (sendable_of_printable dialogPage_printable dialogPage_fits) wifiConfigGetDefault none).1.mpr
      ⟨by decide, stationsInRange_of_fits dialogPage_fits,
        fun st hst => absurd hst (by simp [storedSettings])⟩

/-- What it works on from then on. -/
theorem dialogPage_saved :
    shown ((apiConfigPostHandler (cJsonParser Json.wholeDoubles Buf.zero) dialogPage.request
      wifiConfigGetDefault).run nvs [] none).state
        = ⟨⟨.lit "Home", .lit "secret", .lit "Attic", defaultSettings.apPassword, 4⟩,
            [.lit "Home"]⟩ := by
  have h := typed_is_saved Json.wholeDoubles Buf.zero
    (.inl ⟨dialogForm, true, saveSettings_dialogForm⟩) dialogPage_fits dialogPage_printable
    wifiConfigGetDefault none
  exact (h.2.1 (h.1.mpr fun st hst => absurd hst (by simp [storedSettings]))).1

/-- A network and its password, typed into the set-up page. -/
def homeForm : SetupForm := ⟨[' ', 'H', 'o', 'm', 'e'], ['s', 'e', 'c', 'r', 'e', 't'], [], []⟩

/-- What the page posts. -/
def homePage : PageConfig :=
  ⟨['H', 'o', 'm', 'e'], ['s', 'e', 'c', 'r', 'e', 't'], none, none, none⟩

theorem saveConfig_homeForm : saveConfig homeForm = .post homePage := rfl

theorem homePage_fits : homePage.Fits where
  staSsid := by decide
  staPass := by decide
  apSsid := by simp [homePage]
  apPass := by simp [homePage]
  apMaxConn := by simp [homePage]

theorem homePage_printable : homePage.Printable where
  staSsid := by simp [homePage]
  staPass := by simp [homePage]
  apSsid := by simp [homePage]
  apPass := by simp [homePage]

/-- The next boot of a new device that takes it is no set-up boot. -/
theorem homePage_set_up :
    (wifiConfigHasStaCredentials.run nvs [] ((apiConfigPostHandler
      (cJsonParser Json.wholeDoubles Buf.zero) homePage.request
      wifiConfigGetDefault).run nvs [] none).state).value = true :=
  (setup_saved Json.wholeDoubles Buf.zero saveConfig_homeForm homePage_fits homePage_printable
    wifiConfigGetDefault fun st hst => absurd hst (by simp [storedSettings])).2.2

end WifiRepeater
