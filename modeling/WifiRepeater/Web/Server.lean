import WifiRepeater.Web.ConfigPost

/-!
# The web server

The server finds the handler of a request in the table of what was registered, by its
URI and method, and lets it run on the store.  Files, measurements and the rendering of
JSON come from outside and are parameters.  Once the device is provisioned three of the
endpoints are to be refused to a client that has not logged in.

## Main definitions

* `registered`, `route` — the table, and the search in it.
* `serve` — what a request does.
* `handleAll` — a sequence of requests on one store.
* `AuthEnforced` — what the guard is for.

## Main results

* `auth_enforced_iff` — **no request is ever refused**: a sequence is handled as the
  guard is to see to it only when none of its requests needs the guard.
-/

namespace WifiRepeater

/-! ### The table -/

/-- The URIs of the table, and any other. -/
inductive Uri
  | root
  | styleCss
  | scriptJs
  | apiNetwork
  | apiStats
  | apiShutdown
  | apiConfig
  | apiConfigReset
  | apiRestart
  | apiAuth
  | apiScan
  | setup
  | other
  deriving DecidableEq

/-- The handlers of the table. -/
inductive UriHandler
  | rootHandler
  | cssHandler
  | jsHandler
  | apiNetworkHandler
  | apiStatsHandler
  | shutdownHandler
  | apiConfigGetHandler
  | apiConfigPostHandler
  | apiConfigResetHandler
  | restartHandler
  | apiAuthHandler
  | apiScanHandler
  | setupHandler
  deriving DecidableEq

/-- What `web_server_init` registers, in order. -/
def registered : List (Uri × HttpMethod × UriHandler) :=
  [(.root, .get, .rootHandler), (.styleCss, .get, .cssHandler), (.scriptJs, .get, .jsHandler),
    (.apiNetwork, .get, .apiNetworkHandler), (.apiStats, .get, .apiStatsHandler),
    (.apiShutdown, .post, .shutdownHandler), (.apiConfig, .get, .apiConfigGetHandler),
    (.apiConfig, .post, .apiConfigPostHandler),
    (.apiConfigReset, .post, .apiConfigResetHandler), (.apiRestart, .post, .restartHandler),
    (.apiAuth, .post, .apiAuthHandler), (.apiScan, .get, .apiScanHandler),
    (.setup, .get, .setupHandler)]

/-- Where a request goes. -/
inductive Route
  | handler (h : UriHandler)
  /-- The URI is known, with another method. -/
  | methodNotAllowed
  | notFound
  deriving DecidableEq

/-- The search of the table. -/
def route (uri : Uri) (method : HttpMethod) : Route :=
  match registered.find? fun r => r.1 = uri ∧ r.2.1 = method with
  | some r => .handler r.2.2
  | none => if registered.any fun r => r.1 = uri then .methodNotAllowed else .notFound

/-! ### Serving a request -/

/-- What the server works with besides the store. -/
structure WebEnv where
  /-- The JSON parser. -/
  parser : CJsonParser
  /-- The files under `/www`. -/
  www : String → Option String
  /-- The JSON text of a configuration and the history. -/
  renderConfig : Settings → List CStr → JsonOutcome

/-- A request, and what its handler finds when it is served. -/
structure HttpRequest where
  uri : Uri
  method : HttpMethod
  message : Request
  /-- The bytes of the uninitialised configuration on the stack. -/
  leftover : RepeaterConfig
  /-- What a scan gives. -/
  scan : ScanOutcome
  /-- The JSON text of the measurements. -/
  measured : JsonOutcome

/-- `serve_static_file`. -/
def serveStaticFile (E : WebEnv) (path : String) : Served :=
  match E.www path with
  | none => sendErr 404 "File not found"
  | some content => ⟨some ⟨200, content⟩, none, false, true⟩

/-- A JSON text, or why there is none. -/
def sendJson : JsonOutcome → Served
  | .error e => sendErr 500 e.message
  | .ok json => ⟨some ⟨200, json⟩, none, false, true⟩

/-- `root_handler`. -/
def rootHandler (E : WebEnv) (provisioning : Bool) : Served :=
  serveStaticFile E (if provisioning then "setup.html" else "index.html")

/-- `shutdown_handler`: a confirmed request is answered before the device goes to sleep. -/
def shutdownHandler (P : CJsonParser) (method : HttpMethod) (req : Request) : Served :=
  if method ≠ .post then sendErr 405 "POST method required"
  else
    let confirm := do
      let bytes ← httpdReqRecv req (min 99 req.contentLen)
      let root ← P.parse (.ofMem bytes)
      cJsonGetObjectItem (.lit "confirm") root
    match confirm with
    | some (.bool true) => ⟨some ⟨200, "\x7b\"status\":\"shutting_down\"\x7d"⟩, none, false, true⟩
    | _ => sendErr 400 "Invalid request"

/-- `api_config_get_handler`. -/
def apiConfigGetHandler (E : WebEnv) (c₀ : RepeaterConfig) : Prog Served := do
  let c ← loadOrDefault c₀
  let history ← wifiConfigLoadSsidHistory
  pure (sendJson (E.renderConfig c.settings history))

/-- `restart_handler`. -/
def restartHandler : Served :=
  ⟨some ⟨200, "\x7b\"status\":\"restarting\"\x7d"⟩, some 500, false, true⟩

/-- `captive_404_handler`. -/
def captive404Handler (provisioning : Bool) : Served :=
  if provisioning then ⟨some ⟨302, ""⟩, none, false, true⟩ else sendErr 404 "Not found"

/-- What a request does. -/
def serve (E : WebEnv) (provisioning : Bool) (r : HttpRequest) : Prog Served :=
  match route r.uri r.method with
  | .methodNotAllowed => pure (sendErr 405 "Specified method is invalid for this resource")
  | .notFound => pure (captive404Handler provisioning)
  -- three of the handlers test the method once more themselves
  | .handler h =>
      match h with
      | .rootHandler => pure (rootHandler E provisioning)
      | .cssHandler => pure (serveStaticFile E "style.css")
      | .jsHandler => pure (serveStaticFile E "script.js")
      | .apiNetworkHandler | .apiStatsHandler => pure (sendJson r.measured)
      | .shutdownHandler => pure (shutdownHandler E.parser r.method r.message)
      | .apiConfigGetHandler => apiConfigGetHandler E r.leftover
      | .apiConfigPostHandler => apiConfigPostHandler E.parser r.message r.leftover
      | .apiConfigResetHandler => apiConfigResetHandler r.method
      | .restartHandler => pure restartHandler
      | .apiAuthHandler => apiAuthHandler E.parser r.method r.message
      | .apiScanHandler => apiScanHandler provisioning r.scan
      | .setupHandler => pure (serveStaticFile E "setup.html")

/-- **Two handlers write the store**; all others only read it. -/
theorem serve_cases (E : WebEnv) (provisioning : Bool) (r : HttpRequest) :
    (serve E provisioning r).Issues (fun op => op.isRead = true) ∨
      (route r.uri r.method = .handler .apiConfigPostHandler ∧
        serve E provisioning r = apiConfigPostHandler E.parser r.message r.leftover) ∨
      serve E provisioning r = apiConfigResetHandler r.method := by
  unfold serve
  cases route r.uri r.method with
  | methodNotAllowed => exact Or.inl trivial
  | notFound => exact Or.inl trivial
  | handler h =>
    cases h with
    | apiConfigPostHandler => exact Or.inr (Or.inl ⟨rfl, rfl⟩)
    | apiConfigResetHandler => exact Or.inr (Or.inr rfl)
    | apiConfigGetHandler =>
      exact Or.inl ((loadOrDefault_reads _).bind fun _ =>
        wifiConfigLoadSsidHistory_reads.bind fun _ => trivial)
    | apiAuthHandler => exact Or.inl (apiAuthHandler_reads _ _ _)
    | apiScanHandler =>
      left
      unfold apiScanHandler
      cases guardAuth provisioning with
      | error e => exact trivial
      | ok u => rcases r.scan with e | e | json <;> exact trivial
    | rootHandler | cssHandler | jsHandler | apiNetworkHandler | apiStatsHandler
    | shutdownHandler | restartHandler | setupHandler => exact Or.inl trivial

/-! ### Sequences of requests -/

/-- A request that was handled. -/
structure Handled where
  request : HttpRequest
  /-- The faults its calls of the store met. -/
  faults : List (Option EspErr)
  /-- The store it found. -/
  before : Nvs
  served : Served
  /-- The store it left. -/
  after : Nvs

/-- The requests of a provisioned device, one after the other. -/
def handleAll (E : WebEnv) : List (HttpRequest × List (Option EspErr)) → Nvs → List Handled
  | [], _ => []
  | (r, fs) :: rest, s =>
      let out := (serve E false r).run nvs fs s
      ⟨r, fs, s, out.value, out.state⟩ :: handleAll E rest out.state

/-- The endpoints that need a login once the device is provisioned. -/
def HttpRequest.Guarded (r : HttpRequest) : Prop :=
  (r.uri, r.method) = (.apiConfig, .post) ∨ (r.uri, r.method) = (.apiConfigReset, .post) ∨
    (r.uri, r.method) = (.apiScan, .get)

/-- The user name and password in the body of a request. -/
def presented (P : CJsonParser) (req : Request) : Option (CStr × CStr) := do
  let text ← recvBody req
  let root ← P.parse text
  let username ← postedString root "username"
  let password ← postedString root "password"
  pure (username, password)

/-- The request presented a pair that is accepted. -/
def Handled.Accepted (E : WebEnv) (h : Handled) : Prop :=
  ∃ pair ∈ presented E.parser h.request.message,
    ((wifiConfigVerifyAuth pair.1 pair.2).run nvs h.faults h.before).value = true

/-- The request was refused with 401, and nothing was done. -/
structure Handled.Refused (h : Handled) : Prop where
  status : h.served.response.map Response.status = some 401
  unchanged : h.after = h.before
  noRestart : h.served.restart = none
  noScan : h.served.scan = false

/-- What the guard is for: while nobody has presented an accepted pair, the requests to the
guarded endpoints are refused. -/
def AuthEnforced (E : WebEnv) (reqs : List (HttpRequest × List (Option EspErr))) (s : Nvs) :
    Prop :=
  (∀ h ∈ handleAll E reqs s, ¬h.Accepted E) →
    ∀ h ∈ handleAll E reqs s, h.request.Guarded → h.Refused

/-! ### Nobody is refused -/

/-- An answer other than 401. -/
def Admits (a : Served) : Prop := ∀ r ∈ a.response, r.status ≠ 401

theorem admits_mk {status : ℕ} (h : status ≠ 401) (body : String) (restart : Option ℕ)
    (scan ok : Bool) : Admits ⟨some ⟨status, body⟩, restart, scan, ok⟩ := by
  intro r hr
  rw [Option.mem_some_iff] at hr
  rw [← hr]
  exact h

theorem admits_dropped : Admits dropped := fun r hr => absurd hr (by simp [dropped])

theorem guardAuth_eq (provisioning : Bool) : guardAuth provisioning = espOk := by
  unfold guardAuth
  split <;> rfl

theorem apiScanHandler_admits (provisioning : Bool) (scan : ScanOutcome) :
    (apiScanHandler provisioning scan).Returns Admits := by
  unfold apiScanHandler
  rw [guardAuth_eq]
  rcases scan with e | e | json
  · exact admits_mk (by decide) _ _ _ _
  · exact admits_mk (by decide) _ _ _ _
  · exact admits_mk (by decide) _ _ _ _

theorem apiConfigResetHandler_admits (method : HttpMethod) :
    (apiConfigResetHandler method).Returns Admits := by
  unfold apiConfigResetHandler
  split_ifs
  · exact admits_mk (by decide) _ _ _ _
  · refine (Script.returns_trivial wifiConfigErase).bind fun r _ => ?_
    rcases r with e | u
    · exact admits_mk (by decide) _ _ _ _
    · exact admits_mk (by decide) _ _ _ _

/-- The handler up to the save answers a client error or a server error. -/
theorem postAndSave_admits (P : CJsonParser) (req : Request) (c₀ : RepeaterConfig) :
    (postAndSave P req c₀).Returns fun r => ∀ a, r = .error a → Admits a := by
  have herr : ∀ b : Served, Admits b →
      ∀ a, (Except.error b : Except Served RepeaterConfig) = .error a → Admits a :=
    fun b hb a h => by rw [← Except.error.inj h]; exact hb
  unfold postAndSave
  split_ifs
  · exact herr _ (admits_mk (by decide) _ _ _ _)
  cases recvBody req with
  | none => exact herr _ admits_dropped
  | some text =>
    simp only
    cases P.parse text with
    | none => exact herr _ (admits_mk (by decide) _ _ _ _)
    | some root =>
      refine (Script.returns_trivial (loadOrDefault c₀)).bind fun c _ => ?_
      dsimp only
      cases wifiConfigValidate (updateConfig (Posted.of root) c) with
      | error e => exact herr _ (admits_mk (by decide) _ _ _ _)
      | ok u =>
        refine (Script.returns_trivial (wifiConfigSave _)).bind fun r _ => ?_
        cases r with
        | error e => exact herr _ (admits_mk (by decide) _ _ _ _)
        | ok u => exact fun a h => absurd h (by simp)

theorem apiConfigPostHandler_admits (P : CJsonParser) (req : Request) (c₀ : RepeaterConfig) :
    (apiConfigPostHandler P req c₀).Returns Admits := by
  unfold apiConfigPostHandler
  refine (postAndSave_admits P req c₀).bind fun r hr => ?_
  cases r with
  | error a => exact hr a rfl
  | ok c =>
    refine (Script.returns_trivial (wifiConfigAddSsidToHistory _)).bind fun _ _ => ?_
    refine (Script.returns_trivial (wifiConfigSetProvisioned true)).bind fun _ _ => ?_
    exact admits_mk (by decide) _ _ _ _

/-- **A guarded endpoint admits every request.** -/
theorem serve_admits (E : WebEnv) (provisioning : Bool) {r : HttpRequest} (h : r.Guarded) :
    (serve E provisioning r).Returns Admits := by
  unfold serve
  rcases h with h | h | h <;> rw [Prod.mk.injEq] at h <;> rw [h.1, h.2]
  · exact apiConfigPostHandler_admits E.parser r.message r.leftover
  · exact apiConfigResetHandler_admits .post
  · exact apiScanHandler_admits provisioning r.scan

/-- Every request of a sequence is handled, and none of the guarded ones is refused. -/
theorem exists_handled (E : WebEnv) : ∀ (reqs : List (HttpRequest × List (Option EspErr)))
    (s : Nvs), ∀ r ∈ reqs, ∃ h ∈ handleAll E reqs s, h.request = r.1 ∧
      (r.1.Guarded → Admits h.served) := by
  intro reqs
  induction reqs with
  | nil => intro s r hr; exact absurd hr (by simp)
  | cons q rest ih =>
    intro s r hr
    -- the first request meets `s`, the others the store it left
    rcases List.mem_cons.mp hr with rfl | hr
    · exact ⟨_, List.mem_cons_self, rfl, fun hg => (serve_admits E false hg).run _ _⟩
    · obtain ⟨h, hmem, hreq⟩ := ih _ r hr
      exact ⟨h, List.mem_cons_of_mem _ hmem, hreq⟩

theorem request_mem (E : WebEnv) : ∀ (reqs : List (HttpRequest × List (Option EspErr)))
    (s : Nvs), ∀ h ∈ handleAll E reqs s, ∃ r ∈ reqs, r.1 = h.request := by
  intro reqs
  induction reqs with
  | nil => intro s h hh; exact absurd hh (by simp [handleAll])
  | cons q rest ih =>
    intro s h hh
    rcases List.mem_cons.mp hh with rfl | hh
    · exact ⟨q, List.mem_cons_self, rfl⟩
    · obtain ⟨r, hr, heq⟩ := ih _ h hh
      exact ⟨r, List.mem_cons_of_mem _ hr, heq⟩

/-- **When the guard does its work**: for a sequence without an accepted login, exactly when
it has no request to a guarded endpoint. -/
theorem auth_enforced_iff (E : WebEnv) (reqs : List (HttpRequest × List (Option EspErr)))
    (s : Nvs) :
    AuthEnforced E reqs s ↔
      ((∀ h ∈ handleAll E reqs s, ¬h.Accepted E) → ∀ r ∈ reqs, ¬r.1.Guarded) := by
  unfold AuthEnforced
  refine imp_congr_right fun _ => ⟨fun hall r hr hg => ?_, fun hno h hh hg => ?_⟩
  -- a guarded request would be refused and admitted at once
  · obtain ⟨h, hmem, hreq, hadm⟩ := exists_handled E reqs s r hr
    have href := (hall h hmem (hreq ▸ hg)).status
    obtain ⟨resp, hresp, hst⟩ := Option.map_eq_some_iff.mp href
    exact hadm hg resp hresp hst
  · obtain ⟨r, hr, heq⟩ := request_mem E reqs s h hh
    exact absurd (heq ▸ hg) (hno r hr)

/-- A server without files. -/
def bareEnv : WebEnv where
  parser := .knowing homeText (ssidBody (.lit "Home"))
  www _ := none
  renderConfig _ _ := .error .render

/-- `POST /api/config/reset`, with nothing in it. -/
def resetRequest : HttpRequest where
  uri := .apiConfigReset
  method := .post
  message := ⟨0, []⟩
  leftover := wifiConfigGetDefault
  scan := .error .fail
  measured := .error .render

/-- `POST /api/config`, handled over what was left on the stack. -/
def postRequest (body : List UInt8) (leftover : RepeaterConfig) : HttpRequest where
  uri := .apiConfig
  method := .post
  message := .whole body
  leftover := leftover
  scan := .error .fail
  measured := .error .render

/-- **A reset without a login**: the store is erased and a restart is scheduled. -/
theorem reset_without_login :
    ¬AuthEnforced bareEnv [(resetRequest, [])] (storeOf homeConfig.settings) ∧
      (handleAll bareEnv [(resetRequest, [])] (storeOf homeConfig.settings)).map
          (fun h => (h.served.restart, storedSettings h.after)) = [(some 500, none)] := by
  refine ⟨fun h => ?_, by decide +kernel⟩
  have hno : ∀ x ∈ handleAll bareEnv [(resetRequest, [])] (storeOf homeConfig.settings),
      ¬x.Accepted bareEnv := by
    intro x hx
    rw [handleAll, handleAll, List.mem_singleton] at hx
    rintro ⟨pair, hpair, -⟩
    have hnone : presented bareEnv.parser resetRequest.message = none := rfl
    rw [hx, hnone] at hpair
    exact absurd hpair (by simp)
  have href := (h hno _ List.mem_cons_self (Or.inr (Or.inl rfl))).status
  exact absurd href (by decide +kernel)

end WifiRepeater
