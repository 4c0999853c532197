import WifiRepeater.Config.Auth
import WifiRepeater.Config.History
import WifiRepeater.Web.Request

/-!
# The handlers that change something

`POST /api/config` merges what a body posts into the configuration in force, validates
and saves it, and then records the SSID and sets the provisioning flag;
`POST /api/config/reset` erases the store; `GET /api/scan` has the radio scan, and
`POST /api/auth` checks a login.  A handler is a program on the store that ends in what
it has sent and scheduled.  The struct of the configuration lies on the handler's stack
and is not initialised, so what it holds before the load is a parameter.

## Main definitions

* `Posted`, `updateConfig` — what a body posts, and the merge.
* `apiConfigPostHandler`, `apiConfigResetHandler`, `apiScanHandler`, `apiAuthHandler` — the
  handlers.
* `guardAuth` — the guard.

## Main results

* `postAndSave_cases` — how the part of the handler up to the save can end.
* `postAndSave_nil` — without faults, a valid merge is saved.
-/

namespace WifiRepeater

/-! ### What a body posts -/

/-- A member that `cJSON_IsString` accepts. -/
def postedString (root : CJson) (name : String) : Option CStr :=
  match cJsonGetObjectItem (.lit name) root with
  | some (.string v) => some v
  | _ => none

/-- A password: an empty one counts as not posted. -/
def postedPassword (root : CJson) (name : String) : Option CStr :=
  (postedString root name).filter fun v => 0 < v.length

/-- A member that `cJSON_IsNumber` accepts. -/
def postedNumber (root : CJson) (name : String) : Option ℚ :=
  match cJsonGetObjectItem (.lit name) root with
  | some (.number v) => some v
  | _ => none

/-- The values a body posts. -/
structure Posted where
  /-- `sta_ssid`. -/
  staSsid : Option CStr
  /-- `sta_pass`. -/
  staPassword : Option CStr
  /-- `ap_ssid`. -/
  apSsid : Option CStr
  /-- `ap_pass`. -/
  apPassword : Option CStr
  /-- `ap_max_conn`, cast to a byte. -/
  apMaxConnections : Option UInt8

/-- What a parsed body posts. -/
def Posted.of (root : CJson) : Posted where
  staSsid := postedString root "sta_ssid"
  staPassword := postedPassword root "sta_pass"
  apSsid := postedString root "ap_ssid"
  apPassword := postedPassword root "ap_pass"
  apMaxConnections := (postedNumber root "ap_max_conn").map fun v => uint8Cast (valueint v)

/-- `strncpy` into a field, with one byte less than its size. -/
def putPosted {n : ℕ} (field : Buf (n + 1)) : Option CStr → Buf (n + 1)
  | some v => field.strncpy v n (Nat.le_succ n)
  | none => field

/-- The merge of `api_config_post_handler`. -/
def updateConfig (p : Posted) (c : RepeaterConfig) : RepeaterConfig where
  staSsid := putPosted c.staSsid p.staSsid
  staPassword := putPosted c.staPassword p.staPassword
  apSsid := putPosted c.apSsid p.apSsid
  apPassword := putPosted c.apPassword p.apPassword
  apMaxConnections := p.apMaxConnections.getD c.apMaxConnections

/-! ### `POST /api/config` -/

/-- The configuration in force, or the defaults when the load fails. -/
def loadOrDefault (c₀ : RepeaterConfig) : Prog RepeaterConfig := do
  let r ← wifiConfigLoad c₀
  match r.1 with
  | .ok _ => pure r.2
  | .error _ => pure wifiConfigGetDefault

/-- The part of `api_config_post_handler` that works with the parsed body, up to
`wifi_config_save`: the configuration it saved, or what it answered instead. -/
def mergeAndSave (root : CJson) (c₀ : RepeaterConfig) : Prog (Except Served RepeaterConfig) := do
  let c ← loadOrDefault c₀
  let c := updateConfig (Posted.of root) c
  match wifiConfigValidate c with
  | .error _ => pure (.error (sendErr 400 "Invalid configuration values"))
  | .ok _ =>
      -- validated here, and once more by the save itself
      match ← wifiConfigSave c with
      | .error _ => pure (.error (sendErr 500 "Failed to save to NVS"))
      | .ok _ => pure (.ok c)

/-- The handler up to `wifi_config_save`, from the request on. -/
def postAndSave (P : CJsonParser) (req : Request) (c₀ : RepeaterConfig) :
    Prog (Except Served RepeaterConfig) :=
  if req.contentLen ≥ 1024 then pure (.error (sendErr 500 "Content too large"))
  else
    match recvBody req with
    | none => pure (.error dropped)
    | some body =>
        match P.parse body with
        | none => pure (.error (sendErr 400 "Invalid JSON"))
        | some root => mergeAndSave root c₀

/-- The answer to a configuration that was saved. -/
def savedOk : Served where
  response := some ⟨200, "\x7b\"status\":\"ok\",\"message\":\"Saved. Restarting...\"\x7d"⟩
  restart := some 1000
  scan := false
  ok := true

/-- The rest of the handler: the results of the two updates are not looked at. -/
def recordSaved (c : RepeaterConfig) : Prog Served := do
  let _ ← wifiConfigAddSsidToHistory c.settings.staSsid
  let _ ← wifiConfigSetProvisioned true
  pure savedOk

/-- `api_config_post_handler`. -/
def apiConfigPostHandler (P : CJsonParser) (req : Request) (c₀ : RepeaterConfig) :
    Prog Served := do
  match ← postAndSave P req c₀ with
  | .error answer => pure answer
  | .ok c => recordSaved c

/-! ### The other handlers -/

/-- The methods of HTTP, as far as the server tells them apart. -/
inductive HttpMethod
  /-- `HTTP_GET`. -/
  | get
  /-- `HTTP_POST`. -/
  | post
  /-- Any other. -/
  | other
  deriving DecidableEq

/-- `api_config_reset_handler`. -/
def apiConfigResetHandler (method : HttpMethod) : Prog Served :=
  if method ≠ .post then pure (sendErr 405 "POST method required")
  else do
    match ← wifiConfigErase with
    | .error _ => pure (sendErr 500 "Reset failed")
    | .ok _ =>
        pure ⟨some ⟨200, "\x7b\"status\":\"reset_ok\",\"message\":\"Erased. Restarting into provisioning...\"\x7d"⟩,
          some 500, false, true⟩

/-- `guard_auth`: both branches let the request pass. -/
def guardAuth (provisioning : Bool) : EspResult :=
  if provisioning = true then espOk else espOk

/-- What the radio and the rendering of its records give: an error of the scan, or the
JSON text. -/
abbrev ScanOutcome := Except EspErr JsonOutcome

/-- `api_scan_handler`. -/
def apiScanHandler (provisioning : Bool) (scan : ScanOutcome) : Prog Served :=
  match guardAuth provisioning with
  | .error _ => pure dropped
  | .ok _ =>
      match scan with
      | .error _ => pure { sendErr 500 "Scan failed" with scan := true }
      | .ok (.error e) => pure { sendErr 500 e.message with scan := true }
      | .ok (.ok json) => pure ⟨some ⟨200, json⟩, none, true, true⟩

/-- `api_auth_handler`. -/
def apiAuthHandler (P : CJsonParser) (method : HttpMethod) (req : Request) : Prog Served :=
  if method ≠ .post then pure (sendErr 405 "POST required")
  else if req.contentLen = 0 ∨ req.contentLen ≥ 256 then pure (sendErr 400 "Invalid body")
  else
    match recvBody req with
    | none => pure dropped
    | some body =>
        match P.parse body with
        | none => pure (sendErr 400 "Invalid JSON")
        | some root =>
            match postedString root "username", postedString root "password" with
            | some username, some password => do
                let ok ← wifiConfigVerifyAuth username password
                if ok = false then
                  pure ⟨some ⟨401, "\x7b\"ok\":false,\"error\":\"Invalid credentials\"\x7d"⟩, none,
                    false, true⟩
                else pure ⟨some ⟨200, "\x7b\"ok\":true\x7d"⟩, none, false, true⟩
            | _, _ => pure (sendErr 400 "Missing credentials")

theorem apiAuthHandler_reads (P : CJsonParser) (method : HttpMethod) (req : Request) :
    (apiAuthHandler P method req).Issues fun op => op.isRead = true := by
  unfold apiAuthHandler
  split_ifs
  · exact trivial
  · exact trivial
  cases recvBody req with
  | none => exact trivial
  | some text =>
    simp only
    cases P.parse text with
    | none => exact trivial
    | some root =>
      simp only
      cases postedString root "username" with
      | none => exact trivial
      | some username =>
        cases postedString root "password" with
        | none => exact trivial
        | some password =>
          refine (wifiConfigVerifyAuth_reads username password).bind fun ok => ?_
          cases ok <;> exact trivial

/-! ### How the first part ends -/

/-- The load never fails the handler: it works on with a validated configuration. -/
theorem run_loadOrDefault (c₀ : RepeaterConfig) (fs : List (Option EspErr)) (s : Nvs) :
    (∃ st, storedSettings s = some st ∧ st.Valid ∧
      LoadedFrom c₀ st ((loadOrDefault c₀).run nvs fs s).value) ∨
      ((loadOrDefault c₀).run nvs fs s).value = wifiConfigGetDefault := by
  unfold loadOrDefault
  rw [Script.run_bind]
  rcases run_wifiConfigLoad c₀ fs s with ⟨st, hst, hv, hok, hload⟩ | ⟨e, he⟩
  · left
    rw [hok]
    exact ⟨st, hst, hv, hload⟩
  · right
    rw [he]
    rfl

theorem loadOrDefault_reads (c₀ : RepeaterConfig) :
    (loadOrDefault c₀).Issues fun op => op.isRead = true :=
  (wifiConfigLoad_reads c₀).bind fun r => by
    rcases r with ⟨e | u, c⟩ <;> exact trivial

/-- What is loaded is valid, or the defaults. -/
theorem wifiConfigLoad_returns (c₀ : RepeaterConfig) :
    (wifiConfigLoad c₀).Returns fun r => r.2.settings.Valid := by
  have hdefault : wifiConfigGetDefault.settings.Valid := settings_default ▸ defaultSettings_valid
  refine (Script.returns_trivial nvsOpenReadOnly).bind fun r _ => ?_
  cases r with
  | error e => exact hdefault
  | ok u =>
    refine (Script.returns_trivial (readConfig c₀)).bind fun out _ => ?_
    show (checkLoaded out.1 out.2).2.settings.Valid
    rcases checkLoaded_cases out.1 out.2 with ⟨-, hv, heq⟩ | ⟨-, e, heq⟩
    · rw [heq]
      exact hv
    · rw [heq]
      exact hdefault

theorem loadOrDefault_returns (c₀ : RepeaterConfig) :
    (loadOrDefault c₀).Returns fun c => c.settings.Valid := by
  refine (wifiConfigLoad_returns c₀).bind fun r hr => ?_
  obtain ⟨e, c⟩ := r
  cases e with
  | error e =>
    show wifiConfigGetDefault.settings.Valid
    rw [settings_default]
    exact defaultSettings_valid
  | ok u => exact hr

/-- The values a load without faults works on with are those in force. -/
theorem settings_loadOrDefault (c₀ : RepeaterConfig) (s : Nvs) :
    ((loadOrDefault c₀).run nvs [] s).value.settings = inForce s := by
  have hset := run_wifiConfigLoad_settings c₀ s
  unfold loadOrDefault
  rw [Script.run_bind]
  rcases run_wifiConfigLoad c₀ [] s with ⟨st, -, -, hok, -⟩ | ⟨e, he⟩
  · rw [hok]
    exact hset
  · rw [he] at hset ⊢
    exact hset

/-- What the handler merges: the posted values over the configuration it works on. -/
def mergedConfig (P : CJsonParser) (req : Request) (c₀ : RepeaterConfig)
    (fs : List (Option EspErr)) (s : Nvs) : Option RepeaterConfig :=
  ((recvBody req).bind P.parse).map fun root =>
    updateConfig (Posted.of root) ((loadOrDefault c₀).run nvs fs s).value

/-- **How the handler's first part ends**: with an answer that is no success, or with the
merged configuration saved and no write hit. -/
theorem postAndSave_cases (P : CJsonParser) (req : Request) (c₀ : RepeaterConfig)
    (fs : List (Option EspErr)) (s : Nvs) :
    (∃ a, ((postAndSave P req c₀).run nvs fs s).value = .error a ∧ a.ok = false) ∨
      ∃ c, ((postAndSave P req c₀).run nvs fs s).value = .ok c ∧ req.contentLen < 1024 ∧
        mergedConfig P req c₀ fs s = some c ∧ c.settings.Valid ∧
        ((postAndSave P req c₀).run nvs fs s).state
          = Script.applyAll (saveEffects c.settings) s ∧
        ∀ op ∈ (postAndSave P req c₀).failures nvs fs s, op.isRead = true := by
  unfold postAndSave mergedConfig
  by_cases hlen : req.contentLen ≥ 1024
  · rw [if_pos hlen]
    exact Or.inl ⟨_, rfl, rfl⟩
  rw [if_neg hlen]
  cases recvBody req with
  | none => exact Or.inl ⟨_, rfl, rfl⟩
  | some body =>
    simp only [Option.bind_some]
    cases P.parse body with
    | none => exact Or.inl ⟨_, rfl, rfl⟩
    | some root =>
      have hreads := loadOrDefault_reads c₀
      simp only [Option.map_some, mergeAndSave, Script.run_bind, Script.failures_bind,
        run_state_of_reads hreads]
      -- reading changed nothing, so the save starts on `s`
      generalize updateConfig (Posted.of root) ((loadOrDefault c₀).run nvs fs s).value = c
      generalize ((loadOrDefault c₀).run nvs fs s).faults = fs'
      cases hval : wifiConfigValidate c with
      | error e => exact Or.inl ⟨_, rfl, rfl⟩
      | ok u =>
        simp only [Script.run_bind, Script.failures_bind]
        cases hsave : ((wifiConfigSave c).run nvs fs' s).value with
        | error e => exact Or.inl ⟨_, rfl, rfl⟩
        | ok u =>
          obtain ⟨hv, hstate, hfail⟩ := run_wifiConfigSave (c := c) hsave
          refine Or.inr ⟨c, rfl, by omega, rfl, hv, hstate, ?_⟩
          intro op hop
          simp only [hfail, Script.pure_eq, Script.failures_done, List.append_nil] at hop
          exact hreads.failures fs s op hop

/-- An answer of the first part is the handler's. -/
theorem apiConfigPostHandler_of_error {P : CJsonParser} {req : Request} {c₀ : RepeaterConfig}
    {fs : List (Option EspErr)} {s : Nvs} {a : Served}
    (h : ((postAndSave P req c₀).run nvs fs s).value = .error a) :
    ((apiConfigPostHandler P req c₀).run nvs fs s).value = a := by
  unfold apiConfigPostHandler
  rw [Script.run_bind, h]
  rfl

/-- A configuration that was saved is recorded. -/
theorem apiConfigPostHandler_of_ok {P : CJsonParser} {req : Request} {c₀ c : RepeaterConfig}
    {fs : List (Option EspErr)} {s : Nvs}
    (h : ((postAndSave P req c₀).run nvs fs s).value = .ok c) :
    (apiConfigPostHandler P req c₀).run nvs fs s
      = (recordSaved c).run nvs ((postAndSave P req c₀).run nvs fs s).faults
          ((postAndSave P req c₀).run nvs fs s).state := by
  unfold apiConfigPostHandler
  rw [Script.run_bind, h]

/-- Without faults, a merged configuration that is valid is saved. -/
theorem postAndSave_nil {P : CJsonParser} {req : Request} {c₀ : RepeaterConfig} {s : Nvs}
    {c : RepeaterConfig} (hlen : req.contentLen < 1024)
    (hc : mergedConfig P req c₀ [] s = some c) (hv : c.settings.Valid) :
    ((postAndSave P req c₀).run nvs [] s).value = .ok c := by
  have hval := (wifiConfigValidate_eq_ok_iff c).mpr hv
  have hsave : ((wifiConfigSave c).run nvs [] s).value = espOk := by
    rw [wifiConfigSave_eq hval]
    exact (Script.run_tryAll (saveCalls_writes c.settings) [] s).2.1.mpr (Script.clear_nil _)
  unfold mergedConfig at hc
  -- what was merged came from a body that was received and parsed
  obtain ⟨root, hroot, rfl⟩ := Option.map_eq_some_iff.mp hc
  obtain ⟨body, hbody, hparse⟩ := Option.bind_eq_some_iff.mp hroot
  unfold postAndSave
  rw [if_neg (by omega), hbody]
  simp only [hparse, mergeAndSave, Script.run_bind, Script.faults_nil,
    run_state_of_reads (loadOrDefault_reads c₀), hval, hsave, Script.pure_eq, Script.run_done]

end WifiRepeater
