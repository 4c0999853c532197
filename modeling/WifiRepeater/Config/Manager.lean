import WifiRepeater.Config.Nvs

/-!
# The configuration manager

Loading, validating and saving the repeater's configuration.  The configuration is a
struct of character arrays; its strings are read where they start and end at the first
NUL byte, which may lie in a later field.  So a configuration has an abstract side, the
five values a reader of the struct sees, and validity is a property of those values; it
implies that every string ends in its own array.

## Main definitions

* `RepeaterConfig`, `Settings` — the struct, and the values read from it.
* `wifiConfigGetDefault`, `wifiConfigValidate`, `wifiConfigLoad` — the functions of the manager
  that obtain a configuration.
* `storedSettings` — the five values in a store.

## Main results

* `wifiConfigValidate_eq_ok_iff` — validation is validity of the values.
* `run_wifiConfigLoad` — **a load is the stored configuration or the defaults.**
-/

namespace WifiRepeater

/-! ### The struct and its values -/

/-- `WIFI_CFG_MAX_SSID_LEN`. -/
abbrev maxSsidLen : ℕ := 32

/-- `WIFI_CFG_MAX_PASSWORD_LEN`. -/
abbrev maxPasswordLen : ℕ := 64

/-- `repeater_config_t`. -/
structure RepeaterConfig where
  /-- The uplink's SSID. -/
  staSsid : Buf (maxSsidLen + 1)
  /-- The uplink's password. -/
  staPassword : Buf (maxPasswordLen + 1)
  /-- The access point's SSID. -/
  apSsid : Buf (maxSsidLen + 1)
  /-- The access point's password. -/
  apPassword : Buf (maxPasswordLen + 1)
  /-- How many stations the access point admits. -/
  apMaxConnections : UInt8

/-- The values of a configuration. -/
structure Settings where
  /-- The uplink's SSID. -/
  staSsid : CStr
  /-- The uplink's password. -/
  staPassword : CStr
  /-- The access point's SSID. -/
  apSsid : CStr
  /-- The access point's password. -/
  apPassword : CStr
  /-- How many stations the access point admits. -/
  apMaxConnections : UInt8
  deriving DecidableEq

namespace RepeaterConfig

/-- The struct's memory from `ap_password` on. -/
def memApPassword (c : RepeaterConfig) : List UInt8 := c.apPassword.bytes ++ [c.apMaxConnections]

/-- From `ap_ssid` on. -/
def memApSsid (c : RepeaterConfig) : List UInt8 := c.apSsid.bytes ++ c.memApPassword

/-- From `sta_password` on. -/
def memStaPassword (c : RepeaterConfig) : List UInt8 := c.staPassword.bytes ++ c.memApSsid

/-- From `sta_ssid` on. -/
def memStaSsid (c : RepeaterConfig) : List UInt8 := c.staSsid.bytes ++ c.memStaPassword

/-- What a reader of the struct's strings sees. -/
def settings (c : RepeaterConfig) : Settings where
  staSsid := .ofMem c.memStaSsid
  staPassword := .ofMem c.memStaPassword
  apSsid := .ofMem c.memApSsid
  apPassword := .ofMem c.memApPassword
  apMaxConnections := c.apMaxConnections

/-- Every string ends in its own array. -/
structure Terminated (c : RepeaterConfig) : Prop where
  /-- `sta_ssid` does. -/
  staSsid : 0 ∈ c.staSsid.bytes
  /-- `sta_password` does. -/
  staPassword : 0 ∈ c.staPassword.bytes
  /-- `ap_ssid` does. -/
  apSsid : 0 ∈ c.apSsid.bytes
  /-- `ap_password` does. -/
  apPassword : 0 ∈ c.apPassword.bytes

/-- Then every string is that of its array. -/
theorem Terminated.settings_eq {c : RepeaterConfig} (h : c.Terminated) :
    c.settings = ⟨c.staSsid.str, c.staPassword.str, c.apSsid.str, c.apPassword.str,
      c.apMaxConnections⟩ := by
  unfold settings memStaSsid memStaPassword memApSsid memApPassword
  rw [CStr.ofMem_append h.staSsid, CStr.ofMem_append h.staPassword, CStr.ofMem_append h.apSsid,
    CStr.ofMem_append h.apPassword]
  rfl

end RepeaterConfig

/-! ### Defaults and validation -/

/-- `wifi_config_get_default`: the struct cleared, and the compile-time defaults. -/
def wifiConfigGetDefault : RepeaterConfig where
  staSsid := (Buf.zero _).strncpy (.lit "Router1") maxSsidLen (by decide)
  staPassword := (Buf.zero _).strncpy (.lit "12345678") maxPasswordLen (by decide)
  apSsid := (Buf.zero _).strncpy (.lit "Zains_ESP_Repeater") maxSsidLen (by decide)
  apPassword := (Buf.zero _).strncpy (.lit "12345678") maxPasswordLen (by decide)
  apMaxConnections := 4

/-- `wifi_config_validate`. -/
def wifiConfigValidate (c : RepeaterConfig) : EspResult :=
  let staSsidLen := strlen c.memStaSsid
  let staPassLen := strlen c.memStaPassword
  let apSsidLen := strlen c.memApSsid
  let apPassLen := strlen c.memApPassword
  if staSsidLen = 0 ∨ staSsidLen > maxSsidLen then .error .invalidArg
  -- an empty station password stands for an open network
  else if staPassLen > maxPasswordLen then .error .invalidArg
  else if apSsidLen = 0 ∨ apSsidLen > maxSsidLen then .error .invalidArg
  else if apPassLen > 0 ∧ apPassLen < 8 then .error .invalidArg
  else if apPassLen > maxPasswordLen then .error .invalidArg
  else if c.apMaxConnections = 0 ∨ c.apMaxConnections > 10 then .error .invalidArg
  else espOk

/-- Values a validated configuration can have. -/
structure Settings.Valid (st : Settings) : Prop where
  /-- The uplink has a name. -/
  staSsid_pos : 0 < st.staSsid.length
  /-- It has at most 32 bytes. -/
  staSsid_le : st.staSsid.length ≤ maxSsidLen
  /-- The password has at most 64 bytes. -/
  staPassword_le : st.staPassword.length ≤ maxPasswordLen
  /-- The access point has a name. -/
  apSsid_pos : 0 < st.apSsid.length
  /-- It has at most 32 bytes. -/
  apSsid_le : st.apSsid.length ≤ maxSsidLen
  /-- Its password is empty, or WPA2 admits it. -/
  apPassword_ge : st.apPassword.length = 0 ∨ 8 ≤ st.apPassword.length
  /-- It has at most 64 bytes. -/
  apPassword_le : st.apPassword.length ≤ maxPasswordLen
  /-- There is room for a station. -/
  apMaxConnections_pos : 0 < st.apMaxConnections.toNat
  /-- There is room for ten at most. -/
  apMaxConnections_le : st.apMaxConnections.toNat ≤ 10

theorem Settings.valid_iff (st : Settings) :
    st.Valid ↔ (0 < st.staSsid.length ∧ st.staSsid.length ≤ maxSsidLen) ∧
      st.staPassword.length ≤ maxPasswordLen ∧
      (0 < st.apSsid.length ∧ st.apSsid.length ≤ maxSsidLen) ∧
      (st.apPassword.length = 0 ∨ 8 ≤ st.apPassword.length) ∧
      st.apPassword.length ≤ maxPasswordLen ∧
      0 < st.apMaxConnections.toNat ∧ st.apMaxConnections.toNat ≤ 10 := by
  constructor
  · rintro ⟨h1, h2, h3, h4, h5, h6, h7, h8, h9⟩
    exact ⟨⟨h1, h2⟩, h3, ⟨h4, h5⟩, h6, h7, h8, h9⟩
  · rintro ⟨⟨h1, h2⟩, h3, ⟨h4, h5⟩, h6, h7, h8, h9⟩
    exact ⟨h1, h2, h3, h4, h5, h6, h7, h8, h9⟩

instance (st : Settings) : Decidable st.Valid := decidable_of_iff' _ st.valid_iff

/-- **Validation is validity of the values.** -/
theorem wifiConfigValidate_eq_ok_iff (c : RepeaterConfig) :
    wifiConfigValidate c = espOk ↔ c.settings.Valid := by
  have hzero : c.apMaxConnections = 0 ↔ c.apMaxConnections.toNat = 0 := by
    rw [← UInt8.toNat_inj]; rfl
  have hten : c.apMaxConnections > 10 ↔ 10 < c.apMaxConnections.toNat := by
    rw [gt_iff_lt, UInt8.lt_iff_toNat_lt]; rfl
  rw [Settings.valid_iff]
  unfold wifiConfigValidate
  simp only [hzero, hten, RepeaterConfig.settings, strlen]
  split_ifs <;> simp <;> omega

/-- A validated configuration has its strings in their arrays. -/
theorem RepeaterConfig.terminated_of_valid {c : RepeaterConfig} (h : c.settings.Valid) :
    c.Terminated where
  staSsid := Buf.zero_mem_of_strlen_lt (Nat.lt_succ_of_le h.staSsid_le)
  staPassword := Buf.zero_mem_of_strlen_lt (Nat.lt_succ_of_le h.staPassword_le)
  apSsid := Buf.zero_mem_of_strlen_lt (Nat.lt_succ_of_le h.apSsid_le)
  apPassword := Buf.zero_mem_of_strlen_lt (Nat.lt_succ_of_le h.apPassword_le)

/-- The compile-time defaults. -/
def defaultSettings : Settings :=
  ⟨.lit "Router1", .lit "12345678", .lit "Zains_ESP_Repeater", .lit "12345678", 4⟩

theorem settings_default : wifiConfigGetDefault.settings = defaultSettings := by decide +kernel

theorem defaultSettings_valid : defaultSettings.Valid := by decide

/-! ### Loading -/

/-- `nvs_open` with `NVS_READONLY`. -/
def nvsOpenReadOnly : Prog EspResult := .call .openReadOnly .done

/-- The five reads of `wifi_config_load`, and whether all of them returned `ESP_OK`. -/
def readConfig (c₀ : RepeaterConfig) : Prog (Bool × RepeaterConfig) := do
  let staSsid ← nvsGetStr .staSsid c₀.staSsid
  let staPassword ← nvsGetStr .staPass c₀.staPassword
  let apSsid ← nvsGetStr .apSsid c₀.apSsid
  let apPassword ← nvsGetStr .apPass c₀.apPassword
  let maxConn ← nvsGetU8 .apMaxConn
  pure (staSsid.1 && staPassword.1 && apSsid.1 && apPassword.1 && maxConn.isSome,
    ⟨staSsid.2, staPassword.2, apSsid.2, apPassword.2, maxConn.getD c₀.apMaxConnections⟩)

/-- The end of `wifi_config_load`: an incomplete or invalid configuration gives way to the
defaults. -/
def checkLoaded (complete : Bool) (c : RepeaterConfig) : EspResult × RepeaterConfig :=
  if complete = false then (.error .nvsNotFound, wifiConfigGetDefault)
  else
    match wifiConfigValidate c with
    | .error e => (.error e, wifiConfigGetDefault)
    | .ok _ => (espOk, c)

/-- `wifi_config_load` into a struct that holds `c₀`. -/
def wifiConfigLoad (c₀ : RepeaterConfig) : Prog (EspResult × RepeaterConfig) := do
  match ← nvsOpenReadOnly with
  -- nothing stored yet, and any other error
  | .error e => pure (.error e, wifiConfigGetDefault)
  | .ok _ =>
      let r ← readConfig c₀
      pure (checkLoaded r.1 r.2)

/-- The five values in a store, when all are there and of the right kind. -/
def storedSettings (s : Nvs) : Option Settings :=
  match s.get .staSsid, s.get .staPass, s.get .apSsid, s.get .apPass, s.get .apMaxConn with
  | some (.str a), some (.str b), some (.str c), some (.str d), some (.u8 n) => some ⟨a, b, c, d, n⟩
  | _, _, _, _, _ => none

theorem storedSettings_eq_some_iff (s : Nvs) (st : Settings) :
    storedSettings s = some st ↔ s.get .staSsid = some (.str st.staSsid) ∧
      s.get .staPass = some (.str st.staPassword) ∧ s.get .apSsid = some (.str st.apSsid) ∧
      s.get .apPass = some (.str st.apPassword) ∧
      s.get .apMaxConn = some (.u8 st.apMaxConnections) := by
  unfold storedSettings
  constructor
  · intro h
    split at h
    · next h1 h2 h3 h4 h5 =>
      rw [Option.some.injEq] at h
      rw [← h]
      exact ⟨h1, h2, h3, h4, h5⟩
    · exact absurd h (by simp)
  · rintro ⟨h1, h2, h3, h4, h5⟩
    rw [h1, h2, h3, h4, h5]

/-- `c` is what reading the values `st` into the struct `c₀` leaves. -/
structure LoadedFrom (c₀ : RepeaterConfig) (st : Settings) (c : RepeaterConfig) : Prop where
  /-- The bytes of `sta_ssid`. -/
  staSsid : ∃ h, c.staSsid = c₀.staSsid.put st.staSsid h
  /-- The bytes of `sta_password`. -/
  staPassword : ∃ h, c.staPassword = c₀.staPassword.put st.staPassword h
  /-- The bytes of `ap_ssid`. -/
  apSsid : ∃ h, c.apSsid = c₀.apSsid.put st.apSsid h
  /-- The bytes of `ap_password`. -/
  apPassword : ∃ h, c.apPassword = c₀.apPassword.put st.apPassword h
  /-- The byte itself. -/
  apMaxConnections : c.apMaxConnections = st.apMaxConnections

namespace LoadedFrom

variable {c₀ c : RepeaterConfig} {st : Settings}

theorem terminated (h : LoadedFrom c₀ st c) : c.Terminated := by
  obtain ⟨⟨h1, e1⟩, ⟨h2, e2⟩, ⟨h3, e3⟩, ⟨h4, e4⟩, -⟩ := h
  refine ⟨?_, ?_, ?_, ?_⟩
  · rw [e1]; exact Buf.zero_mem_put _ _ _
  · rw [e2]; exact Buf.zero_mem_put _ _ _
  · rw [e3]; exact Buf.zero_mem_put _ _ _
  · rw [e4]; exact Buf.zero_mem_put _ _ _

theorem settings_eq (h : LoadedFrom c₀ st c) : c.settings = st := by
  rw [h.terminated.settings_eq]
  obtain ⟨⟨h1, e1⟩, ⟨h2, e2⟩, ⟨h3, e3⟩, ⟨h4, e4⟩, h5⟩ := h
  rw [e1, e2, e3, e4, h5]
  simp only [Buf.str_put]

end LoadedFrom

theorem readConfig_reads (c₀ : RepeaterConfig) :
    (readConfig c₀).Issues fun op => op.isRead = true :=
  (nvsGetStr_reads _ _).bind fun _ => (nvsGetStr_reads _ _).bind fun _ =>
    (nvsGetStr_reads _ _).bind fun _ => (nvsGetStr_reads _ _).bind fun _ =>
      (nvsGetU8_reads _).bind fun _ => trivial

theorem wifiConfigLoad_reads (c₀ : RepeaterConfig) :
    (wifiConfigLoad c₀).Issues fun op => op.isRead = true := by
  refine ⟨rfl, fun (r : EspResult) => ?_⟩
  cases r with
  | error e => exact trivial
  | ok _ => exact (readConfig_reads c₀).bind fun _ => trivial

/-- The reads succeed together only on a complete store, and leave its values. -/
theorem run_readConfig (c₀ : RepeaterConfig) (fs : List (Option EspErr)) (s : Nvs)
    (h : ((readConfig c₀).run nvs fs s).value.1 = true) :
    ∃ st, storedSettings s = some st ∧
      LoadedFrom c₀ st ((readConfig c₀).run nvs fs s).value.2 := by
  unfold readConfig at h ⊢
  simp only [Script.run_bind, run_nvsGetStr, run_nvsGetU8, Script.pure_eq, Script.run_done,
    Bool.and_eq_true] at h ⊢
  obtain ⟨⟨⟨⟨h1, h2⟩, h3⟩, h4⟩, h5⟩ := h
  -- every read succeeded, so each value was there and fitted its array
  obtain ⟨a, ha, hga, ea⟩ := Nvs.readStr_of_ok h1
  obtain ⟨b, hb, hgb, eb⟩ := Nvs.readStr_of_ok h2
  obtain ⟨d, hd, hgd, ed⟩ := Nvs.readStr_of_ok h3
  obtain ⟨e, he, hge, ee⟩ := Nvs.readStr_of_ok h4
  obtain ⟨n, hn⟩ := Option.isSome_iff_exists.mp h5
  have hgn : s.get .apMaxConn = some (.u8 n) := by
    split_ifs at hn
    exact (Nvs.readU8_eq_some_iff s _ n).mp hn
  refine ⟨⟨a, b, d, e, n⟩, (storedSettings_eq_some_iff s _).mpr ⟨hga, hgb, hgd, hge, hgn⟩,
    ⟨ha, ea⟩, ⟨hb, eb⟩, ⟨hd, ed⟩, ⟨he, ee⟩, ?_⟩
  simp only [hn, Option.getD_some]

theorem headD_drop (fs : List (Option EspErr)) (i : ℕ) :
    (fs.drop i).headD none = fs.getD i none := by
  rw [List.headD_eq_head?_getD, List.head?_drop, List.getD_eq_getElem?_getD]

theorem faults_readConfig (c₀ : RepeaterConfig) (fs : List (Option EspErr)) (s : Nvs) :
    ((readConfig c₀).run nvs fs s).faults = fs.drop 5 := by
  unfold readConfig
  simp only [Script.run_bind, run_nvsGetStr, run_nvsGetU8, Script.pure_eq, Script.run_done,
    ← List.drop_one, List.drop_drop, Nat.reduceAdd]

/-- A complete store whose strings fit is read when none of the five reads fails. -/
theorem run_readConfig_clear (c₀ : RepeaterConfig) {fs : List (Option EspErr)}
    (hfs : ∀ i < 5, fs.getD i none = none) {s : Nvs} {st : Settings}
    (hst : storedSettings s = some st) (hv : st.Valid) :
    ((readConfig c₀).run nvs fs s).value.1 = true := by
  obtain ⟨h1, h2, h3, h4, h5⟩ := (storedSettings_eq_some_iff s st).mp hst
  have hclear : ∀ i < 5, (fs.drop i).headD none = none := fun i hi =>
    (headD_drop fs i).trans (hfs i hi)
  have hfirst := hclear 0 (by decide)
  rw [List.drop_zero] at hfirst
  unfold readConfig
  simp only [Script.run_bind, run_nvsGetStr, run_nvsGetU8, Script.pure_eq, Script.run_done,
    ← List.drop_one, List.drop_drop, Nat.reduceAdd, hfirst, hclear 1 (by decide),
    hclear 2 (by decide), hclear 3 (by decide), hclear 4 (by decide),
    Option.isSome_none, Bool.false_eq_true, if_false]
  rw [Nvs.readStr_eq h1 (Nat.lt_succ_of_le hv.staSsid_le),
    Nvs.readStr_eq h2 (Nat.lt_succ_of_le hv.staPassword_le),
    Nvs.readStr_eq h3 (Nat.lt_succ_of_le hv.apSsid_le),
    Nvs.readStr_eq h4 (Nat.lt_succ_of_le hv.apPassword_le),
    (Nvs.readU8_eq_some_iff s _ _).mpr h5]
  rfl

/-- The end of a load: the configuration that was read, or the defaults. -/
theorem checkLoaded_cases (complete : Bool) (c : RepeaterConfig) :
    (complete = true ∧ c.settings.Valid ∧ checkLoaded complete c = (espOk, c)) ∨
      ((complete = true → ¬c.settings.Valid) ∧ ∃ e,
        checkLoaded complete c = (.error e, wifiConfigGetDefault)) := by
  unfold checkLoaded
  cases complete with
  | false => exact Or.inr ⟨fun h => absurd h (by decide), _, rfl⟩
  | true =>
    rw [if_neg (by decide)]
    have hiff := wifiConfigValidate_eq_ok_iff c
    cases hval : wifiConfigValidate c with
    | error e =>
      refine Or.inr ⟨fun _ hv => ?_, e, rfl⟩
      rw [hiff.mpr hv] at hval
      exact absurd hval (by simp)
    | ok u => exact Or.inl ⟨rfl, hiff.mp hval, rfl⟩

/-- **A load is the stored configuration or the defaults**, under every pattern of
failing calls. -/
theorem run_wifiConfigLoad (c₀ : RepeaterConfig) (fs : List (Option EspErr)) (s : Nvs) :
    (∃ st, storedSettings s = some st ∧ st.Valid ∧
      ((wifiConfigLoad c₀).run nvs fs s).value.1 = espOk ∧
      LoadedFrom c₀ st ((wifiConfigLoad c₀).run nvs fs s).value.2) ∨
      ∃ e, ((wifiConfigLoad c₀).run nvs fs s).value = (.error e, wifiConfigGetDefault) := by
  unfold wifiConfigLoad
  rw [Script.run_bind]
  cases (nvsOpenReadOnly.run nvs fs s).value with
  | error e => exact Or.inr ⟨e, rfl⟩
  | ok u =>
    -- opening for reading changed nothing: the reads find the store as it was
    have hstate : (nvsOpenReadOnly.run nvs fs s).state = s :=
      run_state_of_reads (m := nvsOpenReadOnly) ⟨rfl, fun _ => trivial⟩ fs s
    simp only [Script.run_bind, Script.pure_eq, Script.run_done, hstate]
    have hread := run_readConfig c₀ (nvsOpenReadOnly.run nvs fs s).faults s
    generalize (readConfig c₀).run nvs (nvsOpenReadOnly.run nvs fs s).faults s = out at hread ⊢
    rcases checkLoaded_cases out.value.1 out.value.2 with ⟨hok, hv, heq⟩ | ⟨-, e, heq⟩
    · obtain ⟨st, hst, hload⟩ := hread hok
      rw [hload.settings_eq] at hv
      rw [heq]
      exact Or.inl ⟨st, hst, hv, rfl, hload⟩
    · rw [heq]
      exact Or.inr ⟨e, rfl⟩

/-- Opening a namespace that exists is one call. -/
theorem run_openReadOnly (fs : List (Option EspErr)) {s : Nvs} (hs : s ≠ none) :
    nvsOpenReadOnly.run nvs fs s
      = ⟨match fs.headD none with | some e => .error e | none => espOk, fs.tail, s⟩ := by
  obtain ⟨m, rfl⟩ := Option.ne_none_iff_exists'.mp hs
  unfold nvsOpenReadOnly Script.run
  cases fs.headD none <;> rfl

theorem ne_none_of_storedSettings {s : Nvs} {st : Settings} (h : storedSettings s = some st) :
    s ≠ none := by
  rintro rfl
  exact absurd h (by simp [storedSettings])

/-- How many calls a load makes: one when that fails, else six. -/
def loadCalls (fs : List (Option EspErr)) : ℕ := if (fs.headD none).isSome then 1 else 6

theorem faults_wifiConfigLoad (c₀ : RepeaterConfig) (fs : List (Option EspErr)) {s : Nvs}
    (hs : s ≠ none) : ((wifiConfigLoad c₀).run nvs fs s).faults = fs.drop (loadCalls fs) := by
  unfold wifiConfigLoad loadCalls
  rw [Script.run_bind, run_openReadOnly fs hs]
  cases fs.headD none with
  | some e => exact List.drop_one.symm
  | none =>
    simp only [Script.run_bind, Script.pure_eq, Script.run_done, faults_readConfig,
      ← List.drop_one, List.drop_drop, Nat.reduceAdd]
    rfl

/-- A complete valid configuration is loaded when none of the six calls fails. -/
theorem run_wifiConfigLoad_clear (c₀ : RepeaterConfig) {fs : List (Option EspErr)}
    (hfs : ∀ i < 6, fs.getD i none = none) {s : Nvs} {st : Settings}
    (hst : storedSettings s = some st) (hv : st.Valid) :
    ((wifiConfigLoad c₀).run nvs fs s).value.1 = espOk ∧
      ((wifiConfigLoad c₀).run nvs fs s).value.2.settings = st := by
  have hfirst : fs.headD none = none := by
    have := (headD_drop fs 0).trans (hfs 0 (by decide))
    rwa [List.drop_zero] at this
  have hrest : ∀ i < 5, fs.tail.getD i none = none := fun i hi => by
    rw [← headD_drop, ← List.drop_one, List.drop_drop, headD_drop]
    exact hfs (1 + i) (by omega)
  have hok := run_readConfig_clear c₀ hrest hst hv
  obtain ⟨st', hst', hload⟩ := run_readConfig c₀ fs.tail s hok
  obtain rfl := Option.some.inj (hst.symm.trans hst')
  unfold wifiConfigLoad
  simp only [Script.run_bind, run_openReadOnly fs (ne_none_of_storedSettings hst), hfirst,
    Script.pure_eq, Script.run_done]
  rcases checkLoaded_cases ((readConfig c₀).run nvs fs.tail s).value.1
    ((readConfig c₀).run nvs fs.tail s).value.2 with ⟨-, -, heq⟩ | ⟨hbad, -⟩
  · rw [heq]
    exact ⟨rfl, hload.settings_eq⟩
  · refine absurd ?_ (hbad hok)
    rw [hload.settings_eq]
    exact hv

/-- Without faults, exactly a complete valid configuration is loaded. -/
theorem run_wifiConfigLoad_ok_iff (c₀ : RepeaterConfig) (s : Nvs) :
    ((wifiConfigLoad c₀).run nvs [] s).value.1 = espOk ↔
      ∃ st, storedSettings s = some st ∧ st.Valid := by
  constructor
  · intro h
    rcases run_wifiConfigLoad c₀ [] s with ⟨st, hst, hv, -, -⟩ | ⟨e, he⟩
    · exact ⟨st, hst, hv⟩
    · rw [he] at h
      exact absurd h (by simp)
  · rintro ⟨st, hst, hv⟩
    exact (run_wifiConfigLoad_clear c₀ (by simp) hst hv).1

/-- The values in force: the stored ones when they are complete and valid, else the
defaults. -/
def inForce (s : Nvs) : Settings :=
  match storedSettings s with
  | some st => if st.Valid then st else defaultSettings
  | none => defaultSettings

theorem inForce_valid (s : Nvs) : (inForce s).Valid := by
  unfold inForce
  split
  · split_ifs with hv
    · exact hv
    · exact defaultSettings_valid
  · exact defaultSettings_valid

/-- A load without faults answers the values in force. -/
theorem run_wifiConfigLoad_settings (c₀ : RepeaterConfig) (s : Nvs) :
    ((wifiConfigLoad c₀).run nvs [] s).value.2.settings = inForce s := by
  unfold inForce
  have hiff := run_wifiConfigLoad_ok_iff c₀ s
  rcases run_wifiConfigLoad c₀ [] s with ⟨st, hst, hv, -, hload⟩ | ⟨e, he⟩
  · rw [hload.settings_eq, hst]
    simp only
    rw [if_pos hv]
  · rw [he, settings_default]
    split
    · next st hst =>
      rw [if_neg]
      intro hv
      rw [he] at hiff
      exact absurd (hiff.mpr ⟨st, hst, hv⟩) (by simp)
    · rfl

end WifiRepeater
