import WifiRepeater.Web.Handlers

/-!
# What a posted configuration leaves behind

`POST /api/config` answers a success message once the configuration is saved.  By then
it has also added the SSID to the history and set the provisioning flag, but it does not
look at what these two updates return.  And the values it saves are those of a struct
whose arrays were filled by copies that need not write a terminator.

## Main definitions

* `merged` — what a body leaves in force.
* `Recorded st s` — what the message promises of the store.
* `SuccessMeansDone` — the message is sent only when it is true.
* `WithinLimits`, `overlay` — the bodies the handler is made for, and what they ask for.
* `AllEnd`, `AllCut` — the posted values end in their arrays, within the limits and in general.

## Main results

* `success_means_done_iff` — **the message is true exactly when no write of the two
  updates failed.**
* `posted_is_stored_iff` — **what is posted is what is stored, unless a value of maximal
  length is copied in front of a leftover byte.**
-/

namespace WifiRepeater

/-! ### What is merged -/

/-- The values a body leaves in force: what it posts, cut to the arrays, over the old ones. -/
def merged (root : CJson) (st : Settings) : Settings where
  staSsid := ((postedString root "sta_ssid").map (CStr.take maxSsidLen)).getD st.staSsid
  staPassword :=
    ((postedPassword root "sta_pass").map (CStr.take maxPasswordLen)).getD st.staPassword
  apSsid := ((postedString root "ap_ssid").map (CStr.take maxSsidLen)).getD st.apSsid
  apPassword := ((postedPassword root "ap_pass").map (CStr.take maxPasswordLen)).getD st.apPassword
  apMaxConnections := ((postedNumber root "ap_max_conn").map fun v =>
    uint8Cast (valueint v)).getD st.apMaxConnections

/-- A copy ends in its array exactly when it leaves room or the last byte is zero. -/
theorem zero_mem_putPosted {n : ℕ} {field : Buf (n + 1)} (hfield : 0 ∈ field.bytes)
    (posted : Option CStr) :
    0 ∈ (putPosted field posted).bytes ↔ ∀ v ∈ posted, n ≤ v.length → field.get n = 0 := by
  cases posted with
  | none => exact ⟨fun _ v hv => absurd hv (by simp), fun _ => hfield⟩
  | some v =>
    simp only [Option.mem_some_iff, forall_eq', putPosted]
    rcases Nat.lt_or_ge v.length n with hlt | hge
    · exact ⟨fun _ h => absurd h (by omega),
        fun _ => Buf.zero_mem_strncpy_of_lt field (Nat.le_succ n) hlt⟩
    -- a value that fills the array leaves its last byte as it was
    · constructor
      · intro hmem _
        by_contra hne
        exact Buf.zero_notMem_strncpy_last field hge hne hmem
      · intro h
        rw [Buf.strncpy_bytes_last field hge, h hge]
        simp

/-- A copy that ends in its array is the front of the posted value. -/
theorem str_putPosted_take {n : ℕ} {field : Buf (n + 1)} {posted : Option CStr}
    (h : ∀ v ∈ posted, n ≤ v.length → field.get n = 0) :
    (putPosted field posted).str = (posted.map (CStr.take n)).getD field.str := by
  cases posted with
  | none => rfl
  | some v =>
    rw [Option.map_some, Option.getD_some]
    rcases Nat.lt_or_ge v.length n with hlt | hge
    · rw [CStr.take_of_length_le hlt.le]
      exact Buf.str_strncpy_of_lt field (Nat.le_succ n) hlt
    · exact CStr.ext (Buf.str_strncpy_last field hge (h v rfl hge))

/-- Where a posted value fills its array, the byte behind it is zero. -/
structure ZeroBehind (root : CJson) (c : RepeaterConfig) : Prop where
  staSsid : ∀ v ∈ postedString root "sta_ssid", maxSsidLen ≤ v.length →
    c.staSsid.get maxSsidLen = 0
  staPassword : ∀ v ∈ postedPassword root "sta_pass", maxPasswordLen ≤ v.length →
    c.staPassword.get maxPasswordLen = 0
  apSsid : ∀ v ∈ postedString root "ap_ssid", maxSsidLen ≤ v.length →
    c.apSsid.get maxSsidLen = 0
  apPassword : ∀ v ∈ postedPassword root "ap_pass", maxPasswordLen ≤ v.length →
    c.apPassword.get maxPasswordLen = 0

section Merge

variable {root : CJson} {c : RepeaterConfig}

/-- The merge leaves every string in its array exactly when no such byte is left over. -/
theorem terminated_updateConfig_cut_iff (hc : c.Terminated) :
    (updateConfig (Posted.of root) c).Terminated ↔ ZeroBehind root c := by
  have h1 := zero_mem_putPosted hc.staSsid (postedString root "sta_ssid")
  have h2 := zero_mem_putPosted hc.staPassword (postedPassword root "sta_pass")
  have h3 := zero_mem_putPosted hc.apSsid (postedString root "ap_ssid")
  have h4 := zero_mem_putPosted hc.apPassword (postedPassword root "ap_pass")
  exact ⟨fun h => ⟨h1.mp h.staSsid, h2.mp h.staPassword, h3.mp h.apSsid, h4.mp h.apPassword⟩,
    fun h => ⟨h1.mpr h.staSsid, h2.mpr h.staPassword, h3.mpr h.apSsid, h4.mpr h.apPassword⟩⟩

/-- A merge whose strings end in their arrays has these values. -/
theorem settings_updateConfig_cut (hc : c.Terminated) (h : ZeroBehind root c) :
    (updateConfig (Posted.of root) c).settings = merged root c.settings := by
  rw [((terminated_updateConfig_cut_iff hc).mpr h).settings_eq, hc.settings_eq]
  unfold updateConfig Posted.of merged
  rw [str_putPosted_take h.staSsid, str_putPosted_take h.staPassword, str_putPosted_take h.apSsid,
    str_putPosted_take h.apPassword]

end Merge

/-- The configuration the handler works on is the one the load has returned. -/
theorem settings_loadOrDefault_eq (c₀ : RepeaterConfig) (fs : List (Option EspErr)) (s : Nvs) :
    ((loadOrDefault c₀).run nvs fs s).value.Terminated ∧
      ((loadOrDefault c₀).run nvs fs s).value.settings
        = ((wifiConfigLoad c₀).run nvs fs s).value.2.settings := by
  unfold loadOrDefault
  rw [Script.run_bind]
  rcases run_wifiConfigLoad c₀ fs s with ⟨st, -, -, hok, hload⟩ | ⟨e, he⟩
  · rw [hok]
    exact ⟨hload.terminated, rfl⟩
  · rw [he]
    exact ⟨RepeaterConfig.terminated_of_valid defaultSettings_valid, rfl⟩

/-- A configuration that the handler has saved is the posted one over the loaded one. -/
theorem merged_of_saved {P : CJsonParser} {req : Request} {c₀ c : RepeaterConfig}
    {fs : List (Option EspErr)} {s : Nvs} (h : mergedConfig P req c₀ fs s = some c)
    (hv : c.settings.Valid) :
    ∃ root, (recvBody req).bind P.parse = some root ∧
      c.settings = merged root ((wifiConfigLoad c₀).run nvs fs s).value.2.settings := by
  obtain ⟨root, hroot, rfl⟩ := Option.map_eq_some_iff.mp h
  obtain ⟨hterm, hset⟩ := settings_loadOrDefault_eq c₀ fs s
  refine ⟨root, hroot, ?_⟩
  rw [← hset]
  exact settings_updateConfig_cut hterm ((terminated_updateConfig_cut_iff hterm).mp
    (RepeaterConfig.terminated_of_valid hv))

/-! ### Success means done -/

/-- What the success message promises: the next boot skips provisioning, it loads the
configuration, and the dashboard offers its SSID first. -/
structure Recorded (st : Settings) (s : Nvs) : Prop where
  provisioned : (wifiConfigHasStaCredentials.run nvs [] s).value = true
  configured : ∀ c₁ : RepeaterConfig, ((wifiConfigLoad c₁).run nvs [] s).value.1 = espOk ∧
    ((wifiConfigLoad c₁).run nvs [] s).value.2.settings = st
  first : (wifiConfigLoadSsidHistory.run nvs [] s).value.head? = some st.staSsid

section Success

variable (P : CJsonParser) (req : Request) (c₀ : RepeaterConfig) (fs : List (Option EspErr))
  (s : Nvs)

/-- One of the steps failed: the part up to the save, the history or the flag. -/
def StepFailed : Prop :=
  let saved := (postAndSave P req c₀).run nvs fs s
  match saved.value with
  | .error _ => True
  | .ok c =>
      let added := (wifiConfigAddSsidToHistory c.settings.staSsid).run nvs saved.faults saved.state
      added.value ≠ espOk ∨
        ((wifiConfigSetProvisioned true).run nvs added.faults added.state).value ≠ espOk

/-- The handler answers success only when all is done, which means that the values of the
body are recorded over those that its load has returned, and an error when a step failed. -/
def SuccessMeansDone : Prop :=
  let out := (apiConfigPostHandler P req c₀).run nvs fs s
  let loaded := ((wifiConfigLoad c₀).run nvs fs s).value.2.settings
  (out.value = savedOk → ∃ text root, recvBody req = some text ∧ P.parse text = some root ∧
      Recorded (merged root loaded) out.state) ∧
    (StepFailed P req c₀ fs s → out.value ≠ savedOk)

/-- The calls of the two updates that the fault pattern hits, if the handler comes to
them. -/
def updateFailures : List NvsOp :=
  let saved := (postAndSave P req c₀).run nvs fs s
  match saved.value with
  | .error _ => []
  | .ok c => (recordSaved c).failures nvs saved.faults saved.state

end Success

theorem run_recordSaved (c : RepeaterConfig) (fs : List (Option EspErr)) (s : Nvs) :
    let added := (wifiConfigAddSsidToHistory c.settings.staSsid).run nvs fs s
    let flagged := (wifiConfigSetProvisioned true).run nvs added.faults added.state
    (recordSaved c).run nvs fs s = ⟨savedOk, flagged.faults, flagged.state⟩ ∧
      (recordSaved c).failures nvs fs s
        = (wifiConfigAddSsidToHistory c.settings.staSsid).failures nvs fs s ++
          (wifiConfigSetProvisioned true).failures nvs added.faults added.state := by
  unfold recordSaved
  simp only [Script.run_bind, Script.failures_bind, Script.pure_eq, Script.run_done,
    Script.failures_done, List.append_nil, and_self]

/-- When both updates succeed after a save, everything is recorded. -/
theorem recorded_of_ok {c : RepeaterConfig} (hv : c.settings.Valid) (fs : List (Option EspErr))
    (s : Nvs) :
    let added := (wifiConfigAddSsidToHistory c.settings.staSsid).run nvs fs
      (Script.applyAll (saveEffects c.settings) s)
    let flagged := (wifiConfigSetProvisioned true).run nvs added.faults added.state
    added.value = espOk → flagged.value = espOk → Recorded c.settings flagged.state := by
  intro added flagged hadded hflagged
  have hkeepFlag := fun k (hk : k ≠ NvsKey.provisioned) =>
    run_get_of_writesOnly ((wifiConfigSetProvisioned_issues true).mono fun _ h => h.2) hk
      added.faults added.state
  have hkeepHist := fun k (hk : ¬IsHistoryKey k) =>
    run_get_of_writesOnly (wifiConfigAddSsidToHistory_writesOnly c.settings.staSsid) hk fs
      (Script.applyAll (saveEffects c.settings) s)
  -- neither update touches the five values that were saved
  have hstored : storedSettings flagged.state = some c.settings := by
    rw [← storedSettings_saved s c.settings]
    exact storedSettings_congr fun k hk hk' => (hkeepFlag k hk').trans (hkeepHist k hk)
  -- the flag is none of the keys of the history
  have hfirst : FirstOfHistory c.settings.staSsid flagged.state :=
    (first_of_added hv.staSsid_le hadded).congr fun k hk => hkeepFlag k fun heq => by
      rw [heq] at hk
      exact hk
  constructor
  case provisioned => rw [run_wifiConfigHasStaCredentials, provisioned_of_set hflagged]
  case configured =>
    intro c₁
    refine ⟨(run_wifiConfigLoad_ok_iff c₁ _).mpr ⟨_, hstored, hv⟩, ?_⟩
    rw [run_wifiConfigLoad_settings]
    unfold inForce
    simp only [hstored, if_pos hv]
  case first => exact load_first hv.staSsid_le hfirst

/-- A parser for one text. -/
def CJsonParser.knowing (text : CStr) (root : CJson) : CJsonParser where
  parse t := if t = text ∧ t ≠ .empty then some root else none
  parse_empty := if_neg fun h => h.2 rfl

/-- The JSON object with nothing but `sta_ssid`. -/
def ssidBody (ssid : CStr) : CJson := .object [(.lit "sta_ssid", .string ssid)]

/-- The text of such an object that names the network `Home`. -/
def homeText : CStr := .lit "\x7b\"sta_ssid\":\"Home\"\x7d"

/-- The values of a body are within their limits. -/
structure WithinLimits (root : CJson) : Prop where
  staSsid : ∀ v ∈ postedString root "sta_ssid", 1 ≤ v.length ∧ v.length ≤ maxSsidLen
  staPassword : ∀ v ∈ postedString root "sta_pass", v.length ≤ maxPasswordLen
  apSsid : ∀ v ∈ postedString root "ap_ssid", 1 ≤ v.length ∧ v.length ≤ maxSsidLen
  apPassword : ∀ v ∈ postedString root "ap_pass",
    v.length = 0 ∨ 8 ≤ v.length ∧ v.length ≤ maxPasswordLen
  apMaxConnections : ∀ v ∈ postedNumber root "ap_max_conn", ∃ n : ℕ, v = n ∧ 1 ≤ n ∧ n ≤ 10

/-- What a body asks for: the values that are there, each present SSID, number and
nonempty password replaced by the posted one. -/
def overlay (root : CJson) (st : Settings) : Settings where
  staSsid := (postedString root "sta_ssid").getD st.staSsid
  staPassword := (postedPassword root "sta_pass").getD st.staPassword
  apSsid := (postedString root "ap_ssid").getD st.apSsid
  apPassword := (postedPassword root "ap_pass").getD st.apPassword
  apMaxConnections := ((postedNumber root "ap_max_conn").map fun v =>
    UInt8.ofNat v.num.toNat).getD st.apMaxConnections

/-- The handler answers success, and the next load finds the posted values over those
that were in force. -/
def PostedIsStored (P : CJsonParser) (req : Request) (c₀ : RepeaterConfig) (s : Nvs)
    (root : CJson) : Prop :=
  let out := (apiConfigPostHandler P req c₀).run nvs [] s
  out.value = savedOk ∧
    ∀ c₁ : RepeaterConfig, ((wifiConfigLoad c₁).run nvs [] out.state).value.1 = espOk ∧
      ((wifiConfigLoad c₁).run nvs [] out.state).value.2.settings = overlay root (inForce s)

/-- A value copied into an array that holds a stored string ends in it: it leaves room,
or the stored string had written the last byte too, or that byte happens to be zero. -/
def EndsInField {n : ℕ} (posted : Option CStr) (stored : CStr) (leftover : Buf (n + 1)) : Prop :=
  ∀ v ∈ posted, v.length = n → stored.length = n ∨ leftover.get n = 0

/-- All four strings do. -/
structure AllEnd (root : CJson) (st : Settings) (c₀ : RepeaterConfig) : Prop where
  staSsid : EndsInField (postedString root "sta_ssid") st.staSsid c₀.staSsid
  staPassword : EndsInField (postedPassword root "sta_pass") st.staPassword c₀.staPassword
  apSsid : EndsInField (postedString root "ap_ssid") st.apSsid c₀.apSsid
  apPassword : EndsInField (postedPassword root "ap_pass") st.apPassword c₀.apPassword

/-- A value that fills its array ends in it: the stored string fills it too, or the byte
behind happens to be zero. -/
def CutEnds {n : ℕ} (posted : Option CStr) (stored : CStr) (leftover : Buf (n + 1)) : Prop :=
  ∀ v ∈ posted, n ≤ v.length → stored.length = n ∨ leftover.get n = 0

/-- All four strings do. -/
structure AllCut (root : CJson) (st : Settings) (c₀ : RepeaterConfig) : Prop where
  staSsid : CutEnds (postedString root "sta_ssid") st.staSsid c₀.staSsid
  staPassword : CutEnds (postedPassword root "sta_pass") st.staPassword c₀.staPassword
  apSsid : CutEnds (postedString root "ap_ssid") st.apSsid c₀.apSsid
  apPassword : CutEnds (postedPassword root "ap_pass") st.apPassword c₀.apPassword

theorem mem_postedPassword {root : CJson} {name : String} {v : CStr} :
    v ∈ postedPassword root name ↔ v ∈ postedString root name ∧ 0 < v.length := by
  unfold postedPassword
  rw [Option.mem_def, Option.filter_eq_some_iff, decide_eq_true_eq, Option.mem_def]

/-- For values within the limit this is about those of maximal length. -/
theorem fills_iff_of_le {n : ℕ} {posted : Option CStr} {P : Prop}
    (hle : ∀ v ∈ posted, v.length ≤ n) :
    (∀ v ∈ posted, n ≤ v.length → P) ↔ ∀ v ∈ posted, v.length = n → P :=
  forall₂_congr fun v hv => ⟨fun h heq => h heq.ge, fun h hge => h (le_antisymm (hle v hv) hge)⟩

/-- Where a posted value of maximal length is copied to, the byte behind it is zero. -/
structure NoLeftover (root : CJson) (c : RepeaterConfig) : Prop where
  staSsid : ∀ v ∈ postedString root "sta_ssid", v.length = maxSsidLen →
    c.staSsid.get maxSsidLen = 0
  staPassword : ∀ v ∈ postedPassword root "sta_pass", v.length = maxPasswordLen →
    c.staPassword.get maxPasswordLen = 0
  apSsid : ∀ v ∈ postedString root "ap_ssid", v.length = maxSsidLen →
    c.apSsid.get maxSsidLen = 0
  apPassword : ∀ v ∈ postedPassword root "ap_pass", v.length = maxPasswordLen →
    c.apPassword.get maxPasswordLen = 0

section Merge

variable {root : CJson} {c : RepeaterConfig} (hw : WithinLimits root)
include hw

theorem WithinLimits.staPassword_le {v : CStr} (hv : v ∈ postedPassword root "sta_pass") :
    v.length ≤ maxPasswordLen := hw.staPassword v (mem_postedPassword.mp hv).1

theorem WithinLimits.apPassword_mem {v : CStr} (hv : v ∈ postedPassword root "ap_pass") :
    8 ≤ v.length ∧ v.length ≤ maxPasswordLen := by
  obtain ⟨hmem, hpos⟩ := mem_postedPassword.mp hv
  rcases hw.apPassword v hmem with h0 | h
  · omega
  · exact h

/-- What is asked for within the limits is valid. -/
theorem overlay_valid {st : Settings} (hv : st.Valid) : (overlay root st).Valid := by
  have hssid := fun name (h : ∀ v ∈ postedString root name, 1 ≤ v.length ∧ v.length ≤ maxSsidLen)
      (old : CStr) (hold : 1 ≤ old.length ∧ old.length ≤ maxSsidLen) => by
    show 1 ≤ ((postedString root name).getD old).length ∧
      ((postedString root name).getD old).length ≤ maxSsidLen
    cases hp : postedString root name with
    | none => exact hold
    | some v => exact h v hp
  have hsta := hssid "sta_ssid" hw.staSsid st.staSsid ⟨hv.staSsid_pos, hv.staSsid_le⟩
  have hap := hssid "ap_ssid" hw.apSsid st.apSsid ⟨hv.apSsid_pos, hv.apSsid_le⟩
  have hpass : (overlay root st).staPassword.length ≤ maxPasswordLen := by
    unfold overlay
    cases hp : postedPassword root "sta_pass" with
    | none => exact hv.staPassword_le
    | some v => exact hw.staPassword_le hp
  have happ : ((overlay root st).apPassword.length = 0 ∨ 8 ≤ (overlay root st).apPassword.length) ∧
      (overlay root st).apPassword.length ≤ maxPasswordLen := by
    unfold overlay
    cases hp : postedPassword root "ap_pass" with
    | none => exact ⟨hv.apPassword_ge, hv.apPassword_le⟩
    | some v => exact ⟨Or.inr (hw.apPassword_mem hp).1, (hw.apPassword_mem hp).2⟩
  have hconn : 0 < (overlay root st).apMaxConnections.toNat ∧
      (overlay root st).apMaxConnections.toNat ≤ 10 := by
    unfold overlay
    cases hp : postedNumber root "ap_max_conn" with
    | none => exact ⟨hv.apMaxConnections_pos, hv.apMaxConnections_le⟩
    | some v =>
      obtain ⟨n, rfl, h1, h10⟩ := hw.apMaxConnections v hp
      have hnat : (UInt8.ofNat n).toNat = n :=
        UInt8.toNat_ofNat_of_lt' (by unfold UInt8.size; omega)
      simp only [Option.map_some, Option.getD_some, Rat.num_natCast, Int.toNat_natCast, hnat]
      omega
  exact ⟨hsta.1, hsta.2, hpass, hap.1, hap.2, happ.1, happ.2, hconn.1, hconn.2⟩

/-- Within the limits only values of maximal length fill their arrays. -/
theorem WithinLimits.fills_iff :
    (∀ P, (∀ v ∈ postedString root "sta_ssid", maxSsidLen ≤ v.length → P) ↔
      ∀ v ∈ postedString root "sta_ssid", v.length = maxSsidLen → P) ∧
    (∀ P, (∀ v ∈ postedPassword root "sta_pass", maxPasswordLen ≤ v.length → P) ↔
      ∀ v ∈ postedPassword root "sta_pass", v.length = maxPasswordLen → P) ∧
    (∀ P, (∀ v ∈ postedString root "ap_ssid", maxSsidLen ≤ v.length → P) ↔
      ∀ v ∈ postedString root "ap_ssid", v.length = maxSsidLen → P) ∧
    ∀ P, (∀ v ∈ postedPassword root "ap_pass", maxPasswordLen ≤ v.length → P) ↔
      ∀ v ∈ postedPassword root "ap_pass", v.length = maxPasswordLen → P :=
  ⟨fun _ => fills_iff_of_le fun v hv => (hw.staSsid v hv).2,
    fun _ => fills_iff_of_le fun _ hv => hw.staPassword_le hv,
    fun _ => fills_iff_of_le fun v hv => (hw.apSsid v hv).2,
    fun _ => fills_iff_of_le fun _ hv => (hw.apPassword_mem hv).2⟩

theorem noLeftover_iff_zeroBehind : NoLeftover root c ↔ ZeroBehind root c := by
  obtain ⟨h1, h2, h3, h4⟩ := hw.fills_iff
  exact ⟨fun h => ⟨(h1 _).mpr h.staSsid, (h2 _).mpr h.staPassword, (h3 _).mpr h.apSsid,
      (h4 _).mpr h.apPassword⟩,
    fun h => ⟨(h1 _).mp h.staSsid, (h2 _).mp h.staPassword, (h3 _).mp h.apSsid,
      (h4 _).mp h.apPassword⟩⟩

theorem allEnd_iff_allCut {st : Settings} {c₀ : RepeaterConfig} :
    AllEnd root st c₀ ↔ AllCut root st c₀ := by
  obtain ⟨h1, h2, h3, h4⟩ := hw.fills_iff
  exact ⟨fun h => ⟨(h1 _).mpr h.staSsid, (h2 _).mpr h.staPassword, (h3 _).mpr h.apSsid,
      (h4 _).mpr h.apPassword⟩,
    fun h => ⟨(h1 _).mp h.staSsid, (h2 _).mp h.staPassword, (h3 _).mp h.apSsid,
      (h4 _).mp h.apPassword⟩⟩

/-- A merge within the limits has the values that are asked for. -/
theorem settings_updateConfig (hc : c.Terminated) (h : NoLeftover root c) :
    (updateConfig (Posted.of root) c).settings = overlay root c.settings := by
  have htake : ∀ {n : ℕ} {posted : Option CStr}, (∀ v ∈ posted, v.length ≤ n) →
      posted.map (CStr.take n) = posted := by
    intro n posted hle
    cases posted with
    | none => rfl
    | some v => exact congrArg some (CStr.take_of_length_le (hle v rfl))
  have hconn : ((postedNumber root "ap_max_conn").map fun v => uint8Cast (valueint v))
      = (postedNumber root "ap_max_conn").map fun v => UInt8.ofNat v.num.toNat := by
    cases hp : postedNumber root "ap_max_conn" with
    | none => rfl
    | some v =>
      obtain ⟨n, rfl, h1, h10⟩ := hw.apMaxConnections v hp
      simp only [Option.map_some, Rat.num_natCast, Int.toNat_natCast]
      rw [uint8Cast_valueint (by omega)]
  rw [settings_updateConfig_cut hc ((noLeftover_iff_zeroBehind hw).mp h), merged, hconn,
    htake fun v hv => (hw.staSsid v hv).2, htake fun _ hv => hw.staPassword_le hv,
    htake fun v hv => (hw.apSsid v hv).2, htake fun _ hv => (hw.apPassword_mem hv).2]
  rfl

/-- **When a merge within the limits is accepted.** -/
theorem valid_updateConfig_iff (hc : c.Terminated) (hv : c.settings.Valid) :
    (updateConfig (Posted.of root) c).settings.Valid ↔ NoLeftover root c := by
  constructor
  · intro h
    exact (noLeftover_iff_zeroBehind hw).mpr
      ((terminated_updateConfig_cut_iff hc).mp (RepeaterConfig.terminated_of_valid h))
  · intro h
    rw [settings_updateConfig hw hc h]
    exact overlay_valid hw hv

end Merge

/-- A load without faults is the stored configuration or, when there is none, the
defaults. -/
theorem loadOrDefault_cases (c₀ : RepeaterConfig) (s : Nvs) :
    (∃ st, storedSettings s = some st ∧ st.Valid ∧
      LoadedFrom c₀ st ((loadOrDefault c₀).run nvs [] s).value) ∨
      (∀ st, storedSettings s = some st → ¬st.Valid) ∧
        ((loadOrDefault c₀).run nvs [] s).value = wifiConfigGetDefault := by
  by_cases hex : ∃ st, storedSettings s = some st ∧ st.Valid
  · left
    have hok := (run_wifiConfigLoad_ok_iff c₀ s).mpr hex
    unfold loadOrDefault
    rw [Script.run_bind]
    rcases run_wifiConfigLoad c₀ [] s with ⟨st, hst, hv, -, hload⟩ | ⟨e, he⟩
    · rw [hok]
      exact ⟨st, hst, hv, hload⟩
    · rw [he] at hok
      exact absurd hok (by simp)
  · right
    push Not at hex
    refine ⟨hex, ?_⟩
    rcases run_loadOrDefault c₀ [] s with ⟨st, hst, hv, -⟩ | h
    · exact absurd hv (hex st hst)
    · exact h

/-- The last byte of an array is the stack's when a shorter string was loaded into it; the
defaults are written to a cleared struct. -/
theorem get_loadOrDefault_iff (c₀ : RepeaterConfig) (s : Nvs) {n : ℕ}
    (field : RepeaterConfig → Buf (n + 1)) (value : Settings → CStr)
    (hload : ∀ st c, LoadedFrom c₀ st c → ∃ h, field c = (field c₀).put (value st) h)
    (hdefault : (field wifiConfigGetDefault).get n = 0) :
    (field ((loadOrDefault c₀).run nvs [] s).value).get n = 0 ↔
      ∀ st, storedSettings s = some st → st.Valid →
        (value st).length = n ∨ (field c₀).get n = 0 := by
  rcases loadOrDefault_cases c₀ s with ⟨st, hst, hv, hfrom⟩ | ⟨hno, hdef⟩
  · obtain ⟨h, hfield⟩ := hload st _ hfrom
    have hone : (∀ st', storedSettings s = some st' → st'.Valid →
        (value st').length = n ∨ (field c₀).get n = 0) ↔
          (value st).length = n ∨ (field c₀).get n = 0 := by
      refine ⟨fun h => h st hst hv, fun h st' hst' _ => ?_⟩
      rw [hst, Option.some.injEq] at hst'
      exact hst' ▸ h
    rw [hone, hfield, Buf.get_put]
    -- a stored string of maximal length has put its terminator into the last byte
    by_cases heq : (value st).length = n <;> simp [heq]
  · rw [hdef]
    exact iff_of_true hdefault fun st hst hv => absurd hv (hno st hst)

section LastBytes

variable (c₀ : RepeaterConfig) (s : Nvs)

theorem get_staSsid_iff : ((loadOrDefault c₀).run nvs [] s).value.staSsid.get maxSsidLen = 0 ↔
    ∀ st, storedSettings s = some st → st.Valid →
      st.staSsid.length = maxSsidLen ∨ c₀.staSsid.get maxSsidLen = 0 :=
  get_loadOrDefault_iff c₀ s RepeaterConfig.staSsid Settings.staSsid (fun _ _ h => h.staSsid)
    (by decide +kernel)

theorem get_staPassword_iff :
    ((loadOrDefault c₀).run nvs [] s).value.staPassword.get maxPasswordLen = 0 ↔
      ∀ st, storedSettings s = some st → st.Valid →
        st.staPassword.length = maxPasswordLen ∨ c₀.staPassword.get maxPasswordLen = 0 :=
  get_loadOrDefault_iff c₀ s RepeaterConfig.staPassword Settings.staPassword
    (fun _ _ h => h.staPassword) (by decide +kernel)

theorem get_apSsid_iff : ((loadOrDefault c₀).run nvs [] s).value.apSsid.get maxSsidLen = 0 ↔
    ∀ st, storedSettings s = some st → st.Valid →
      st.apSsid.length = maxSsidLen ∨ c₀.apSsid.get maxSsidLen = 0 :=
  get_loadOrDefault_iff c₀ s RepeaterConfig.apSsid Settings.apSsid (fun _ _ h => h.apSsid)
    (by decide +kernel)

theorem get_apPassword_iff :
    ((loadOrDefault c₀).run nvs [] s).value.apPassword.get maxPasswordLen = 0 ↔
      ∀ st, storedSettings s = some st → st.Valid →
        st.apPassword.length = maxPasswordLen ∨ c₀.apPassword.get maxPasswordLen = 0 :=
  get_loadOrDefault_iff c₀ s RepeaterConfig.apPassword Settings.apPassword
    (fun _ _ h => h.apPassword) (by decide +kernel)

end LastBytes

/-- The leftover bytes come from the struct when a configuration was loaded into it. -/
theorem zeroBehind_iff (root : CJson) (c₀ : RepeaterConfig) (s : Nvs) :
    ZeroBehind root ((loadOrDefault c₀).run nvs [] s).value ↔
      ∀ st, storedSettings s = some st → st.Valid → AllCut root st c₀ := by
  constructor
  · rintro ⟨h1, h2, h3, h4⟩ st hst hv
    exact ⟨fun v hmem hlen => (get_staSsid_iff c₀ s).mp (h1 v hmem hlen) st hst hv,
      fun v hmem hlen => (get_staPassword_iff c₀ s).mp (h2 v hmem hlen) st hst hv,
      fun v hmem hlen => (get_apSsid_iff c₀ s).mp (h3 v hmem hlen) st hst hv,
      fun v hmem hlen => (get_apPassword_iff c₀ s).mp (h4 v hmem hlen) st hst hv⟩
  · intro h
    refine ⟨fun v hmem hlen => (get_staSsid_iff c₀ s).mpr fun st hst hv => ?_,
      fun v hmem hlen => (get_staPassword_iff c₀ s).mpr fun st hst hv => ?_,
      fun v hmem hlen => (get_apSsid_iff c₀ s).mpr fun st hst hv => ?_,
      fun v hmem hlen => (get_apPassword_iff c₀ s).mpr fun st hst hv => ?_⟩
    · exact (h st hst hv).staSsid v hmem hlen
    · exact (h st hst hv).staPassword v hmem hlen
    · exact (h st hst hv).apSsid v hmem hlen
    · exact (h st hst hv).apPassword v hmem hlen

/-- **What is posted is what is stored**, exactly when the body is short enough to be
read and no posted value of maximal length meets a leftover byte: the stored value is as
long, or the byte on the stack is zero. -/
theorem posted_is_stored_iff {P : CJsonParser} {req : Request} {text : CStr} {root : CJson}
    (htext : recvBody req = some text) (hroot : P.parse text = some root)
    (hw : WithinLimits root) (c₀ : RepeaterConfig) (s : Nvs) :
    PostedIsStored P req c₀ s root ↔ req.contentLen < 1024 ∧
      ∀ st, storedSettings s = some st → st.Valid → AllEnd root st c₀ := by
  have hset := settings_loadOrDefault c₀ s
  have hv : ((loadOrDefault c₀).run nvs [] s).value.settings.Valid := hset ▸ inForce_valid s
  have hc := RepeaterConfig.terminated_of_valid hv
  have hmerge : mergedConfig P req c₀ [] s = some (updateConfig (Posted.of root)
      ((loadOrDefault c₀).run nvs [] s).value) := by
    unfold mergedConfig
    rw [htext, Option.bind_some, hroot, Option.map_some]
  have hends : (∀ st, storedSettings s = some st → st.Valid → AllEnd root st c₀) ↔
      NoLeftover root ((loadOrDefault c₀).run nvs [] s).value := by
    rw [noLeftover_iff_zeroBehind hw, zeroBehind_iff]
    exact forall₃_congr fun _ _ _ => allEnd_iff_allCut hw
  rw [hends, ← valid_updateConfig_iff hw hc hv]
  unfold PostedIsStored
  constructor
  · rintro ⟨hok, -⟩
    -- success means that the merge was valid
    rcases postAndSave_cases P req c₀ [] s with ⟨a, ha, hno⟩ | ⟨c, -, hlen, hc', hvalid, -⟩
    · rw [apiConfigPostHandler_of_error ha] at hok
      rw [hok] at hno
      exact absurd hno (by decide)
    · rw [hmerge, Option.some.injEq] at hc'
      exact ⟨hlen, hc' ▸ hvalid⟩
  · rintro ⟨hlen, hvalid⟩
    have hsaved := postAndSave_nil hlen hmerge hvalid
    rcases postAndSave_cases P req c₀ [] s with ⟨a, ha, -⟩ | ⟨c, hok, -, -, -, hstate, -⟩
    · rw [ha] at hsaved
      exact absurd hsaved (by simp)
    rw [hsaved, Except.ok.injEq] at hok
    subst hok
    have hdone := recorded_of_ok hvalid [] s
      ((wifiConfigAddSsidToHistory_ok_iff hvalid.staSsid_pos _ _).mpr (by simp))
      ((wifiConfigSetProvisioned_ok_iff _ _ _).mpr (by simp))
    rw [apiConfigPostHandler_of_ok hsaved, (run_recordSaved _ _ _).1, hstate, Script.faults_nil]
    refine ⟨rfl, ?_⟩
    rw [← hset, ← settings_updateConfig hw hc ((valid_updateConfig_iff hw hc hv).mp hvalid)]
    exact hdone.configured

theorem knowing_parse {text : CStr} (h : text ≠ .empty) (root : CJson) :
    (CJsonParser.knowing text root).parse text = some root := if_pos ⟨rfl, h⟩

theorem withinLimits_ssidBody {ssid : CStr} (hpos : 1 ≤ ssid.length)
    (hle : ssid.length ≤ maxSsidLen) : WithinLimits (ssidBody ssid) where
  staSsid v hv := by
    rw [show postedString (ssidBody ssid) "sta_ssid" = some ssid from rfl,
      Option.mem_some_iff] at hv
    exact hv ▸ ⟨hpos, hle⟩
  staPassword v hv := by
    rw [show postedString (ssidBody ssid) "sta_pass" = none from rfl] at hv
    exact absurd hv (by simp)
  apSsid v hv := by
    rw [show postedString (ssidBody ssid) "ap_ssid" = none from rfl] at hv
    exact absurd hv (by simp)
  apPassword v hv := by
    rw [show postedString (ssidBody ssid) "ap_pass" = none from rfl] at hv
    exact absurd hv (by simp)
  apMaxConnections v hv := by
    rw [show postedNumber (ssidBody ssid) "ap_max_conn" = none from rfl] at hv
    exact absurd hv (by simp)

/-- The network at home, posted to an empty store. -/
theorem home_is_stored :
    PostedIsStored (.knowing homeText (ssidBody (.lit "Home"))) (.whole homeText.bytes)
      wifiConfigGetDefault none (ssidBody (.lit "Home")) := by
  have htext : recvBody (.whole homeText.bytes) = some homeText := by
    rw [recvBody_whole (by decide), CStr.ofMem_bytes]
  refine (posted_is_stored_iff htext (knowing_parse (by decide) _)
    (withinLimits_ssidBody (by decide) (by decide)) wifiConfigGetDefault none).mpr
      ⟨by decide, fun st hst => absurd hst ?_⟩
  simp [storedSettings]

/-- A struct of leftover bytes. -/
def dirtyConfig : RepeaterConfig where
  staSsid := ⟨List.replicate _ 0xff, List.length_replicate⟩
  staPassword := ⟨List.replicate _ 0xff, List.length_replicate⟩
  apSsid := ⟨List.replicate _ 0xff, List.length_replicate⟩
  apPassword := ⟨List.replicate _ 0xff, List.length_replicate⟩
  apMaxConnections := 0xff

/-- A network name of 32 bytes. -/
def longSsid : CStr := .lit "abcdefghijklmnopqrstuvwxyz012345"

/-- The text of a body that posts it. -/
def longText : CStr := .lit "\x7b\"sta_ssid\":\"abcdefghijklmnopqrstuvwxyz012345\"\x7d"

/-- **A name within its limit that is refused**: it has 32 bytes, the stored one has four,
and the last byte of the array is what lay on the stack. -/
theorem long_ssid_refused :
    recvBody (.whole longText.bytes) = some longText ∧
      (CJsonParser.knowing longText (ssidBody longSsid)).parse longText = some (ssidBody longSsid) ∧
      WithinLimits (ssidBody longSsid) ∧
      ¬PostedIsStored (.knowing longText (ssidBody longSsid)) (.whole longText.bytes) dirtyConfig
        (storeOf homeConfig.settings) (ssidBody longSsid) := by
  refine ⟨?_, knowing_parse (by decide) _, withinLimits_ssidBody (by decide) (by decide),
    fun h => absurd h.1 ?_⟩
  · rw [recvBody_whole (by decide), CStr.ofMem_bytes]
  · decide +kernel

end WifiRepeater
