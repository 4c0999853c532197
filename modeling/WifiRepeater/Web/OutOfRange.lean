import WifiRepeater.Web.ConfigPost

/-!
# Posted values that are out of range

`POST /api/config` copies and narrows what is posted before it validates: a string is cut
off at the size of its array, a number is taken modulo 256.  What is validated is the
result, and that can be in range when the posted value is not.

## Main definitions

* `OutOfRange` — a body with a value the configuration does not allow.
* `Refused` — the handler answers an error and leaves the store as it was.
* `CutInRange` — what is left of the posted values is in range.

## Main results

* `valid_updateConfig_cut_iff` — when a merge is valid.
* `refused_iff` — when a body is refused.
* `out_of_range_refused_iff` — **bodies with a value out of range.**
-/

namespace WifiRepeater

/-! ### What is claimed -/

/-- A body posts a value that the configuration does not allow. -/
inductive OutOfRange (root : CJson) : Prop
  /-- An SSID of the uplink that is empty or too long. -/
  | staSsid (v : CStr) (hv : v ∈ postedString root "sta_ssid")
      (hout : v.length = 0 ∨ maxSsidLen < v.length)
  /-- A password of the uplink that is too long. -/
  | staPassword (v : CStr) (hv : v ∈ postedString root "sta_pass")
      (hout : maxPasswordLen < v.length)
  /-- An SSID of the access point that is empty or too long. -/
  | apSsid (v : CStr) (hv : v ∈ postedString root "ap_ssid")
      (hout : v.length = 0 ∨ maxSsidLen < v.length)
  /-- A password of the access point that is too short or too long. -/
  | apPassword (v : CStr) (hv : v ∈ postedString root "ap_pass")
      (hout : 0 < v.length ∧ v.length < 8 ∨ maxPasswordLen < v.length)
  /-- A number of stations beyond 1 to 10. -/
  | apMaxConnections (v : ℚ) (hv : v ∈ postedNumber root "ap_max_conn") (hout : v < 1 ∨ 10 < v)

/-- The handler answers an error and leaves the store unchanged. -/
def Refused (P : CJsonParser) (req : Request) (c₀ : RepeaterConfig) (s : Nvs) : Prop :=
  let out := (apiConfigPostHandler P req c₀).run nvs [] s
  (∃ status message, 400 ≤ status ∧ out.value = sendErr status message) ∧ out.state = s

/-! ### What is left of a posted value -/

/-- What the copies and the cast leave of the posted values is in range: no SSID is empty,
a password of the access point has 8 bytes at least, and the number is one of 1 to 10
modulo 256. -/
structure CutInRange (root : CJson) : Prop where
  staSsid : ∀ v ∈ postedString root "sta_ssid", 0 < v.length
  apSsid : ∀ v ∈ postedString root "ap_ssid", 0 < v.length
  apPassword : ∀ v ∈ postedPassword root "ap_pass", 8 ≤ v.length
  apMaxConnections : ∀ v ∈ postedNumber root "ap_max_conn",
    0 < (uint8Cast (valueint v)).toNat ∧ (uint8Cast (valueint v)).toNat ≤ 10

/-- The length of what is copied over a string. -/
theorem length_getD_take {n : ℕ} (posted : Option CStr) (old : CStr) :
    ((posted.map (CStr.take n)).getD old).length
      = (posted.map fun v => min n v.length).getD old.length := by
  cases posted with
  | none => rfl
  | some v => exact List.length_take

/-- A property of the value in force that the old value has is one of the posted value. -/
theorem getD_map_iff {α β : Type} (posted : Option α) (f : α → β) {old : β} {P : β → Prop}
    (hold : P old) : P ((posted.map f).getD old) ↔ ∀ v ∈ posted, P (f v) := by
  cases posted with
  | none => exact iff_of_true hold fun v hv => absurd hv (by simp)
  | some v => simp

section Merge

variable {root : CJson} {c : RepeaterConfig}

/-- **When a merge is valid**: what is left of the posted values is. -/
theorem valid_updateConfig_cut_iff (hc : c.Terminated) (hv : c.settings.Valid) :
    (updateConfig (Posted.of root) c).settings.Valid ↔ CutInRange root ∧ ZeroBehind root c := by
  have hpos : ∀ v ∈ postedPassword root "ap_pass", 0 < v.length := fun v hmem =>
    (mem_postedPassword.mp hmem).2
  by_cases hz : ¬ZeroBehind root c
  · refine iff_of_false (fun h => hz ?_) fun h => hz h.2
    exact (terminated_updateConfig_cut_iff hc).mp (RepeaterConfig.terminated_of_valid h)
  rw [not_not] at hz
  rw [settings_updateConfig_cut hc hz, merged, Settings.valid_iff]
  simp only [length_getD_take]
  have hssid : maxSsidLen = 32 := rfl
  have hpassword : maxPasswordLen = 64 := rfl
  -- field by field: the old value is in range, so the posted one decides
  have h1 := getD_map_iff (postedString root "sta_ssid")
    (fun v => min maxSsidLen v.length) (P := fun k => 0 < k ∧ k ≤ maxSsidLen)
    ⟨hv.staSsid_pos, hv.staSsid_le⟩
  have h2 := getD_map_iff (postedPassword root "sta_pass")
    (fun v => min maxPasswordLen v.length) (P := fun k => k ≤ maxPasswordLen)
    hv.staPassword_le
  have h3 := getD_map_iff (postedString root "ap_ssid")
    (fun v => min maxSsidLen v.length) (P := fun k => 0 < k ∧ k ≤ maxSsidLen)
    ⟨hv.apSsid_pos, hv.apSsid_le⟩
  have h4 := getD_map_iff (postedPassword root "ap_pass")
    (fun v => min maxPasswordLen v.length)
    (P := fun k => (k = 0 ∨ 8 ≤ k) ∧ k ≤ maxPasswordLen) ⟨hv.apPassword_ge, hv.apPassword_le⟩
  have h5 := getD_map_iff (postedNumber root "ap_max_conn")
    (fun v => uint8Cast (valueint v)) (P := fun k => 0 < k.toNat ∧ k.toNat ≤ 10)
    ⟨hv.apMaxConnections_pos, hv.apMaxConnections_le⟩
  constructor
  · rintro ⟨r1, -, r3, r4, r4', r5⟩
    refine ⟨⟨fun v hmem => ?_, fun v hmem => ?_, fun v hmem => ?_, h5.mp r5⟩, hz⟩
    · have := h1.mp r1 v hmem; omega
    · have := h3.mp r3 v hmem; omega
    · have := h4.mp ⟨r4, r4'⟩ v hmem
      have := hpos v hmem
      omega
  · rintro ⟨hin, -⟩
    have r4 := h4.mpr fun v hmem => by
      have := hin.apPassword v hmem
      omega
    refine ⟨h1.mpr fun v hmem => ?_, h2.mpr fun v _ => Nat.min_le_left _ _,
      h3.mpr fun v hmem => ?_, r4.1, r4.2, h5.mpr hin.apMaxConnections⟩
    · have := hin.staSsid v hmem; omega
    · have := hin.apSsid v hmem; omega

end Merge

/-! ### When a body is refused -/

section Refused

variable {P : CJsonParser} {req : Request} {text : CStr} {root : CJson}

/-- **When a body is refused**: when it is too long for the handler, or when the merge is
not valid. -/
theorem refused_iff (htext : recvBody req = some text) (hroot : P.parse text = some root)
    (c₀ : RepeaterConfig) (s : Nvs) :
    Refused P req c₀ s ↔ 1024 ≤ req.contentLen ∨
      ¬(updateConfig (Posted.of root) ((loadOrDefault c₀).run nvs [] s).value).settings.Valid := by
  by_cases hlen : req.contentLen ≥ 1024
  · refine iff_of_true ?_ (.inl hlen)
    simp only [Refused, apiConfigPostHandler, postAndSave, if_pos hlen, Script.run_bind,
      Script.pure_eq, Script.run_done, and_true]
    exact ⟨500, _, by decide, rfl⟩
  have hmerge : mergedConfig P req c₀ [] s = some (updateConfig (Posted.of root)
      ((loadOrDefault c₀).run nvs [] s).value) := by
    rw [mergedConfig, htext, Option.bind_some, hroot, Option.map_some]
  by_cases hvalid : (updateConfig (Posted.of root)
      ((loadOrDefault c₀).run nvs [] s).value).settings.Valid
  -- a valid merge is saved, and success is answered
  · refine iff_of_false ?_ fun h => h.elim hlen fun h => h hvalid
    rintro ⟨⟨status, message, -, hout⟩, -⟩
    have hsaved := postAndSave_nil (by omega) hmerge hvalid
    rw [apiConfigPostHandler_of_ok hsaved, (run_recordSaved _ _ _).1] at hout
    have hok : true = false := congrArg Served.ok hout
    exact absurd hok (by decide)
  · refine iff_of_true ?_ (.inr hvalid)
    obtain ⟨e, he⟩ : ∃ e, wifiConfigValidate (updateConfig (Posted.of root)
        ((loadOrDefault c₀).run nvs [] s).value) = .error e := by
      cases hval : wifiConfigValidate (updateConfig (Posted.of root)
        ((loadOrDefault c₀).run nvs [] s).value) with
      | error e => exact ⟨e, rfl⟩
      | ok u => exact absurd ((wifiConfigValidate_eq_ok_iff _).mp hval) hvalid
    simp only [Refused, apiConfigPostHandler, postAndSave, if_neg hlen, htext, hroot, mergeAndSave,
      Script.run_bind, run_state_of_reads (loadOrDefault_reads c₀), he, Script.pure_eq,
      Script.run_done, and_true]
    exact ⟨400, _, le_rfl, rfl⟩

/-- **Bodies with a value out of range are refused** just when the request is too long for
the handler anyway, or when what is left of the posted values is still out of range or does
not end in its array. -/
theorem out_of_range_refused_iff (htext : recvBody req = some text)
    (hroot : P.parse text = some root) (c₀ : RepeaterConfig) (s : Nvs) :
    (OutOfRange root → Refused P req c₀ s) ↔ (OutOfRange root → 1024 ≤ req.contentLen ∨
      ¬(CutInRange root ∧ ∀ st, storedSettings s = some st → st.Valid → AllCut root st c₀)) := by
  have hset := settings_loadOrDefault c₀ s
  have hv : ((loadOrDefault c₀).run nvs [] s).value.settings.Valid := hset ▸ inForce_valid s
  have hc := RepeaterConfig.terminated_of_valid hv
  rw [refused_iff htext hroot, valid_updateConfig_cut_iff hc hv, zeroBehind_iff]

end Refused

/-- The text of a body that posts an empty network name. -/
def emptySsidText : CStr := .lit "\x7b\"sta_ssid\":\"\"\x7d"

/-- An empty name is refused, whatever is stored. -/
theorem empty_ssid_refused : Refused (.knowing emptySsidText (ssidBody .empty))
    (.whole emptySsidText.bytes) wifiConfigGetDefault none := by
  have htext : recvBody (.whole emptySsidText.bytes) = some emptySsidText := by
    rw [recvBody_whole (by decide), CStr.ofMem_bytes]
  refine (out_of_range_refused_iff htext (knowing_parse (by decide) _) wifiConfigGetDefault
    none).mpr (fun _ => .inr fun h => ?_) (.staSsid .empty rfl (.inl rfl))
  exact absurd (h.1.staSsid .empty rfl) (by decide)

/-- A network name of 33 bytes. -/
def overlongSsid : CStr := .lit "abcdefghijklmnopqrstuvwxyz0123456"

/-- The text of a body that posts it. -/
def overlongText : CStr := .lit "\x7b\"sta_ssid\":\"abcdefghijklmnopqrstuvwxyz0123456\"\x7d"

/-- **A name that is too long is taken**: its first 32 bytes are stored. -/
theorem overlong_ssid_accepted :
    recvBody (.whole overlongText.bytes) = some overlongText ∧
      (CJsonParser.knowing overlongText (ssidBody overlongSsid)).parse overlongText
        = some (ssidBody overlongSsid) ∧
      OutOfRange (ssidBody overlongSsid) ∧
      ¬Refused (.knowing overlongText (ssidBody overlongSsid)) (.whole overlongText.bytes)
        wifiConfigGetDefault none := by
  refine ⟨?_, knowing_parse (by decide) _, .staSsid overlongSsid rfl (.inr (by decide)), ?_⟩
  · rw [recvBody_whole (by decide), CStr.ofMem_bytes]
  · rintro ⟨-, hstate⟩
    exact absurd (congrArg Option.isSome hstate) (by decide +kernel)

end WifiRepeater
