import WifiRepeater.Config.Sections
import WifiRepeater.Config.TornHistory
import WifiRepeater.Json.RoundTrip
import WifiRepeater.Web.OutOfRange
import WifiRepeater.Web.Server

/-!
# The configuration as the API shows it

`GET /api/config` answers the configuration in force and the SSID history as JSON, with empty
strings in the place of the passwords.  Seen from outside the device is a small machine: a
POST that is answered with success replaces what it posts, cut to the arrays, and moves the
SSID to the front of the history; a reset brings the defaults back; and nothing else that is
requested changes anything.  The store, the struct on the stack, the buffers of the printer
and the parser cannot be seen through it.

## Main definitions

* `configJson`, `renderConfig` — the object that is answered, and its text.
* `Shown`, `shown` — what the API shows of a store.
* `Shown.after` — what a request does to it.

## Main results

* `shown_handled` — one request.
* `config_api_refines` — **what is answered after any sequence of requests.**
* `config_posted_back` — **an answer that is posted back changes nothing but the order of the
  history.**
-/

namespace WifiRepeater

open Script (applyAll)
open Json (Doubles Heap cJsonParse cJsonPrintUnformatted cJsonParser)

/-! ### The answer -/

/-- The object that `api_config_get_handler` builds, the passwords left out. -/
def configJson (st : Settings) (history : List CStr) : CJson :=
  .object [(.lit "sta_ssid", .string st.staSsid), (.lit "sta_pass", .string .empty),
    (.lit "ap_ssid", .string st.apSsid), (.lit "ap_pass", .string .empty),
    (.lit "ap_max_conn", .number st.apMaxConnections.toNat),
    (.lit "ssid_history", .array (history.map .string))]

/-- A text as the body of a response, a character for each byte. -/
def bodyOf (text : CStr) : String := String.ofList (text.bytes.map fun b => Char.ofNat b.toNat)

/-- The bytes of a body. -/
def bytesOf (body : String) : List UInt8 := body.toList.map fun c => UInt8.ofNat c.toNat

/-- `sizeof(cJSON)`: five pointers, two `int`s and a `double`. -/
def sizeofCJson : ℕ := 40

/-- `cJSON_CreateObject`, and `cJSON_PrintUnformatted` of that object: its members are taken to
find memory where the object itself does. -/
def renderConfig (H : Heap) (D : Doubles) (st : Settings) (history : List CStr) : JsonOutcome :=
  match H.malloc sizeofCJson with
  | none => .error .alloc
  | some _ =>
      match cJsonPrintUnformatted H D (configJson st history) with
      | .ok (some text) => .ok (bodyOf text)
      | _ => .error .render

/-- A server with cJSON in it. -/
def jsonEnv (H : Heap) (D : Doubles) (fresh : (n : ℕ) → Buf n) (www : String → Option String) :
    WebEnv where
  parser := cJsonParser D fresh
  www := www
  renderConfig := renderConfig H D

/-- The bytes of a text are those of its body. -/
@[simp] theorem bytesOf_bodyOf (text : CStr) : bytesOf (bodyOf text) = text.bytes := by
  have hbyte : ∀ b : UInt8, UInt8.ofNat (Char.ofNat b.toNat).toNat = b := fun b => by
    have hlt := b.toNat_lt
    rw [Json.toNat_ofNat (Or.inl (by omega)), UInt8.ofNat_toNat]
  rw [bytesOf, bodyOf, String.toList_ofList, List.map_map]
  exact (List.map_congr_left fun b _ => hbyte b).trans (List.map_id _)

theorem whole_items_string (history : List CStr) :
    Json.WholeItems (history.map .string) := by
  induction history with
  | nil => trivial
  | cons v history ih => exact ⟨trivial, ih⟩

/-- The object is one that is printed and parsed as itself. -/
theorem whole_configJson (st : Settings) (history : List CStr) :
    Json.Whole (configJson st history) := by
  have hlt := st.apMaxConnections.toNat_lt
  refine ⟨trivial, trivial, trivial, trivial, ⟨st.apMaxConnections.toNat, ?_, ?_⟩,
    whole_items_string history, trivial⟩
  · show (st.apMaxConnections.toNat : ℤ).natAbs < 10 ^ 15
    omega
  · rfl

theorem depth_configJson_le (st : Settings) (history : List CStr) :
    Json.depth (configJson st history) ≤ Json.nestingLimit := by
  have hitems : Json.depthItems (history.map .string) ≤ 0 :=
    Json.depthItems_le fun j hj => by
      obtain ⟨v, -, rfl⟩ := List.mem_map.mp hj
      exact le_rfl
  have hmembers : Json.depth (configJson st history) ≤ 2 := by
    refine Nat.succ_le_succ (Json.depthMembers_le fun m hm => ?_)
    simp only [List.mem_cons, List.not_mem_nil, or_false] at hm
    rcases hm with rfl | rfl | rfl | rfl | rfl | rfl
    · exact Nat.zero_le _
    · exact Nat.zero_le _
    · exact Nat.zero_le _
    · exact Nat.zero_le _
    · exact Nat.zero_le _
    · exact Nat.succ_le_succ hitems
  exact hmembers.trans (by decide)

/-- **The answer is read as the object it was made of.** -/
theorem parse_renderConfig {H : Heap} {D : Doubles} (fresh : (n : ℕ) → Buf n) {st : Settings}
    {history : List CStr} {body : String} (h : renderConfig H D st history = .ok body) :
    ∃ text : CStr, text.bytes = bytesOf body ∧
      (cJsonParser D fresh).parse text = some (configJson st history) := by
  obtain ⟨r, hr, hback, -⟩ := Json.print_then_parse D fresh H (whole_configJson st history)
    (depth_configJson_le st history)
  unfold renderConfig at h
  rw [hr] at h
  cases hmalloc : H.malloc sizeofCJson with
  | none =>
    rw [hmalloc] at h
    cases h
  | some mem =>
    rw [hmalloc] at h
    cases r with
    | none => cases h
    | some text =>
      obtain rfl := Except.ok.inj h
      refine ⟨text, (bytesOf_bodyOf text).symm, ?_⟩
      simp only [cJsonParser, hback text rfl]

/-- The text of a list of names. -/
theorem length_textItems_le (D : Doubles) {history : List CStr}
    (hfit : ∀ v ∈ history, v.length ≤ maxSsidLen) :
    (Json.textItems D (history.map .string)).length ≤ 195 * history.length := by
  induction history with
  | nil =>
    rw [List.map_nil, Json.textItems]
    exact le_rfl
  | cons v history ih =>
    have hv := hfit v List.mem_cons_self
    have hquoted := Json.length_quoted_le v
    have hrest := ih fun w hw => hfit w (List.mem_cons_of_mem v hw)
    have hcomma : (if (history.map CJson.string).isEmpty then [] else [0x2c] :
        List UInt8).length ≤ 1 := by
      split <;> decide
    rw [maxSsidLen] at hv
    rw [List.map_cons, Json.textItems, Json.text, List.length_append, List.length_append,
      List.length_cons]
    omega

/-- The text is no longer than so much. -/
theorem length_text_configJson_le (D : Doubles) {st : Settings} (hv : st.Valid)
    {history : List CStr} (hlen : history.length ≤ maxSsidHistory)
    (hfit : ∀ v ∈ history, v.length ≤ maxSsidLen) :
    (Json.text D (configJson st history)).length ≤ 1500 := by
  have hsta := hv.staSsid_le
  have hap := hv.apSsid_le
  have hstaText := Json.length_quoted_le st.staSsid
  have hapText := Json.length_quoted_le st.apSsid
  have hmax := Json.length_numberText_le (D := D) (st.apMaxConnections.toNat : ℚ)
  have hitems := length_textItems_le D hfit
  have hnames : (Json.quoted (.lit "sta_ssid")).length = 10 ∧
      (Json.quoted (.lit "sta_pass")).length = 10 ∧ (Json.quoted (.lit "ap_ssid")).length = 9 ∧
        (Json.quoted (.lit "ap_pass")).length = 9 ∧
          (Json.quoted (.lit "ap_max_conn")).length = 13 ∧
            (Json.quoted (.lit "ssid_history")).length = 14 ∧
              (Json.quoted .empty).length = 2 := by decide
  obtain ⟨h₁, h₂, h₃, h₄, h₅, h₆, h₇⟩ := hnames
  rw [maxSsidLen] at hsta hap
  rw [maxSsidHistory] at hlen
  simp only [configJson, Json.text, Json.textMembers, Json.textMember, List.length_cons,
    List.length_append, List.length_nil, List.isEmpty_cons, List.isEmpty_nil, Bool.false_eq_true,
    if_true, if_false, h₁, h₂, h₃, h₄, h₅, h₆, h₇]
  omega

/-- **Only for want of memory is there no text**: for the object, for the first buffer, or for
one that is large enough. -/
theorem renderConfig_error {H : Heap} {D : Doubles} {st : Settings} (hv : st.Valid)
    {history : List CStr} (hlen : history.length ≤ maxSsidHistory)
    (hfit : ∀ v ∈ history, v.length ≤ maxSsidLen) {e : JsonFailure}
    (h : renderConfig H D st history = .error e) :
    e = .alloc ∧ H.malloc sizeofCJson = none ∨
      e = .render ∧ (H.malloc 256 = none ∨ H.CannotGrow 1500) := by
  obtain ⟨r, hr, -, hnone⟩ := Json.cJsonPrintUnformatted_spec H D (configJson st history)
  have hlong := length_text_configJson_le D hv hlen hfit
  unfold renderConfig at h
  rw [hr] at h
  cases hmalloc : H.malloc sizeofCJson with
  | none =>
    rw [hmalloc] at h
    exact .inl ⟨(Except.error.inj h).symm, rfl⟩
  | some mem =>
    rw [hmalloc] at h
    cases r with
    | some text => cases h
    | none =>
      refine .inr ⟨(Except.error.inj h).symm, ?_⟩
      rcases hnone rfl with hfirst | hgrow | hmax
      · exact .inl hfirst
      · exact .inr (hgrow.mono hlong)
      · rw [Json.intMax] at hmax
        omega

/-! ### What the API shows -/

/-- What the API shows of a store. -/
@[ext] structure Shown where
  /-- The values in force. -/
  settings : Settings
  /-- The SSID history. -/
  history : List CStr
  deriving DecidableEq

/-- What the API shows of a store. -/
def shown (s : Nvs) : Shown := ⟨inForce s, loadedHistory s⟩

/-- A configuration that was saved, and its SSID in the history. -/
def Shown.save (v : Shown) (st : Settings) : Shown :=
  ⟨st, Recent.push maxSsidHistory st.staSsid v.history⟩

/-- What a request does to what is shown, by its answer. -/
def Shown.after (P : CJsonParser) (v : Shown) (r : HttpRequest) (answer : Served) : Shown :=
  match route r.uri r.method with
  | .handler .apiConfigPostHandler =>
      match (recvBody r.message).bind P.parse with
      | some root => if answer = savedOk then v.save (merged root v.settings) else v
      | none => v
  | .handler .apiConfigResetHandler => if answer.ok then ⟨defaultSettings, []⟩ else v
  | .handler _ | .methodNotAllowed | .notFound => v

/-- The history is read off its own keys. -/
theorem loadedHistory_congr {s s' : Nvs} (h : ∀ k, IsHistoryKey k → s'.get k = s.get k) :
    loadedHistory s' = loadedHistory s := by
  rw [loadedHistory_eq, loadedHistory_eq, historyCount_congr (h .histCount trivial)]
  exact List.map_congr_left fun i _ => historyEntry_congr (h (.histSsid i) trivial)

theorem loadedHistory_saved (st : Settings) (s : Nvs) :
    loadedHistory (applyAll (saveEffects st) s) = loadedHistory s := by
  refine loadedHistory_congr fun k hk => ?_
  have hne : ∀ k', ¬IsHistoryKey k' → k ≠ k' := fun k' hk' heq => hk' (heq ▸ hk)
  simp only [saveEffects, Script.applyAll_cons, Script.applyAll_nil, id_eq,
    Nvs.get_set_ne (hne .staSsid id), Nvs.get_set_ne (hne .staPass id),
    Nvs.get_set_ne (hne .apSsid id), Nvs.get_set_ne (hne .apPass id),
    Nvs.get_set_ne (hne .apMaxConn id), Nvs.get_opened]

section Posts

variable {P : CJsonParser} {req : Request} {c₀ : RepeaterConfig} {s : Nvs}

/-- **A configuration that is saved is shown from then on**, and the next boot skips the
set-up, when no call fails. -/
theorem shown_saved {c : RepeaterConfig}
    (h : ((postAndSave P req c₀).run nvs [] s).value = .ok c) :
    let out := (apiConfigPostHandler P req c₀).run nvs [] s
    out.value = savedOk ∧ shown out.state = (shown s).save c.settings ∧
      (wifiConfigHasStaCredentials.run nvs [] out.state).value = true := by
  dsimp only
  rcases postAndSave_cases P req c₀ [] s with ⟨a, ha, -⟩ | ⟨c', hc', -, -, hv, hstate, -⟩
  · rw [ha] at h
    cases h
  obtain rfl : c' = c := Except.ok.inj (hc'.symm.trans h)
  have hdone := recorded_of_ok hv [] s
    ((wifiConfigAddSsidToHistory_ok_iff hv.staSsid_pos _ _).mpr (by simp))
    ((wifiConfigSetProvisioned_ok_iff _ _ _).mpr (by simp))
  have hadded := (loadedHistory_added (applyAll (saveEffects c'.settings) s)
    ⟨hv.staSsid_pos, hv.staSsid_le⟩).2
  rw [apiConfigPostHandler_of_ok h, (run_recordSaved _ _ _).1, hstate, Script.faults_nil]
  refine ⟨rfl, Shown.ext ?_ ?_, hdone.provisioned⟩
  · exact (run_wifiConfigLoad_settings c₀ _).symm.trans (hdone.configured c₀).2
  · -- setting the flag leaves the history as the add has left it
    refine (loadedHistory_congr fun k hk => ?_).trans (hadded.trans ?_)
    · refine run_get_of_writesOnly ((wifiConfigSetProvisioned_issues true).mono fun _ h => h.2)
        (fun heq => ?_) _ _
      rw [heq] at hk
      exact hk
    · rw [loadedHistory_saved]
      rfl

/-- A body that the handler can take: it is short enough, what is left of its values is in
range, and each of them ends in its array. -/
structure Takes (req : Request) (root : CJson) (c₀ : RepeaterConfig) (s : Nvs) : Prop where
  short : req.contentLen < 1024
  inRange : CutInRange root
  ends : ZeroBehind root ((loadOrDefault c₀).run nvs [] s).value

/-- A body that can be read is saved if the handler can take it, and else it is refused and
without any effect. -/
theorem post_cases {text : CStr} {root : CJson} (htext : recvBody req = some text)
    (hroot : P.parse text = some root) (c₀ : RepeaterConfig) (s : Nvs) :
    (Takes req root c₀ s ∧ ∃ c, ((postAndSave P req c₀).run nvs [] s).value = .ok c ∧
        c.settings = merged root (inForce s)) ∨
      ¬Takes req root c₀ s ∧ Refused P req c₀ s := by
  have hset := settings_loadOrDefault c₀ s
  have hv : ((loadOrDefault c₀).run nvs [] s).value.settings.Valid := hset ▸ inForce_valid s
  have hc := RepeaterConfig.terminated_of_valid hv
  have hmerge : mergedConfig P req c₀ [] s = some (updateConfig (Posted.of root)
      ((loadOrDefault c₀).run nvs [] s).value) := by
    rw [mergedConfig, htext, Option.bind_some, hroot, Option.map_some]
  have hiff : _ ↔ CutInRange root ∧ ZeroBehind root _ := valid_updateConfig_cut_iff hc hv
  by_cases htakes : Takes req root c₀ s
  · refine .inl ⟨htakes, _,
      postAndSave_nil htakes.short hmerge (hiff.mpr ⟨htakes.inRange, htakes.ends⟩), ?_⟩
    rw [settings_updateConfig_cut hc htakes.ends, hset]
  · refine .inr ⟨htakes, (refused_iff htext hroot c₀ s).mpr ?_⟩
    by_contra hno
    rw [not_or, not_not, Nat.not_le] at hno
    obtain ⟨hrange, hends⟩ := hiff.mp hno.2
    exact htakes ⟨hno.1, hrange, hends⟩

/-- A refusal is no success. -/
theorem Refused.ne_savedOk (h : Refused P req c₀ s) :
    ((apiConfigPostHandler P req c₀).run nvs [] s).value ≠ savedOk := by
  obtain ⟨⟨status, message, -, hout⟩, -⟩ := h
  intro heq
  have hok : false = true := congrArg Served.ok (hout.symm.trans heq)
  exact absurd hok (by decide)

/-- **What the handler does with a body it can read.** -/
theorem post_read {text : CStr} {root : CJson} (htext : recvBody req = some text)
    (hroot : P.parse text = some root) (c₀ : RepeaterConfig) (s : Nvs) :
    let out := (apiConfigPostHandler P req c₀).run nvs [] s
    (out.value = savedOk ↔ Takes req root c₀ s) ∧
      (out.value = savedOk → shown out.state = (shown s).save (merged root (inForce s)) ∧
        (wifiConfigHasStaCredentials.run nvs [] out.state).value = true) ∧
      (out.value ≠ savedOk → Refused P req c₀ s) := by
  rcases post_cases htext hroot c₀ s with ⟨ht, c, hc, hset⟩ | ⟨hnot, href⟩
  · obtain ⟨hok, hshown⟩ := shown_saved hc
    rw [hset] at hshown
    exact ⟨iff_of_true hok ht, fun _ => hshown, fun hne => absurd hok hne⟩
  · exact ⟨iff_of_false href.ne_savedOk hnot, fun hok => absurd hok href.ne_savedOk,
      fun _ => href⟩

/-- A body that cannot be read has no effect. -/
theorem post_unread (h : (recvBody req).bind P.parse = none) :
    ((apiConfigPostHandler P req c₀).run nvs [] s).state = s := by
  simp only [apiConfigPostHandler, postAndSave, Script.run_bind]
  split_ifs
  · rfl
  · cases htext : recvBody req with
    | none => rfl
    | some text =>
      rw [htext, Option.bind_some] at h
      simp only [h]
      rfl

end Posts

/-! ### Sequences of requests -/

theorem shown_erased (s : Nvs) : shown s.opened.erased = ⟨defaultSettings, []⟩ := by
  have hnone : storedSettings s.opened.erased = none := by
    rw [storedSettings, Nvs.get_erased]
  refine Shown.ext ?_ ?_
  · show inForce s.opened.erased = defaultSettings
    rw [inForce, hnone]
  · show loadedHistory s.opened.erased = []
    rw [loadedHistory_eq, historyCount, Nvs.readU8, Nvs.get_erased]
    rfl

/-- **What one request does to what is shown**, when no call fails: its answer tells. -/
theorem shown_handled (E : WebEnv) (provisioning : Bool) (r : HttpRequest) (s : Nvs) :
    let out := (serve E provisioning r).run nvs [] s
    shown out.state = (shown s).after E.parser r out.value := by
  have hread : ∀ m : Prog Served, (m.Issues fun op => op.isRead = true) →
      shown (m.run nvs [] s).state = shown s := fun m hm => by rw [run_state_of_reads hm]
  unfold serve Shown.after
  cases route r.uri r.method with
  | methodNotAllowed | notFound => rfl
  | handler h =>
    cases h with
    | rootHandler | cssHandler | jsHandler | apiNetworkHandler | apiStatsHandler
    | shutdownHandler | restartHandler | setupHandler => rfl
    | apiConfigGetHandler =>
      exact hread _ ((loadOrDefault_reads _).bind fun _ =>
        wifiConfigLoadSsidHistory_reads.bind fun _ => trivial)
    | apiAuthHandler => exact hread _ (apiAuthHandler_reads _ _ _)
    | apiScanHandler =>
      refine hread _ ?_
      unfold apiScanHandler
      cases guardAuth provisioning with
      | error e => exact trivial
      | ok u => rcases r.scan with e | e | json <;> exact trivial
    | apiConfigResetHandler =>
      simp only
      unfold apiConfigResetHandler
      split_ifs with hmethod hok hok
      · cases hok
      · rfl
      · exact shown_erased s
      · exact absurd rfl hok
    | apiConfigPostHandler =>
      simp only
      cases hbody : (recvBody r.message).bind E.parser.parse with
      | none => rw [post_unread hbody]
      | some root =>
        obtain ⟨text, htext, hroot⟩ := Option.bind_eq_some_iff.mp hbody
        obtain ⟨-, hsaved, hrefused⟩ := post_read htext hroot r.leftover s
        dsimp only
        split_ifs with hok
        · exact (hsaved hok).1
        · rw [(hrefused hok).2]

/-- The store after a sequence of requests. -/
def storeAfter (s : Nvs) (done : List Handled) : Nvs := done.foldl (fun _ h => h.after) s

/-- What is shown after a sequence of requests, by their answers. -/
def Shown.afterAll (P : CJsonParser) (v : Shown) (done : List Handled) : Shown :=
  done.foldl (fun v h => v.after P h.request h.served) v

theorem shown_storeAfter (E : WebEnv) (reqs : List HttpRequest) (s : Nvs) :
    let done := handleAll E (reqs.map fun r => (r, [])) s
    shown (storeAfter s done) = (shown s).afterAll E.parser done := by
  induction reqs generalizing s with
  | nil => rfl
  | cons r reqs ih =>
    have hstep := shown_handled E false r s
    have hrest := ih ((serve E false r).run nvs [] s).state
    rw [hstep] at hrest
    exact hrest

section Answers

variable (H : Heap) (D : Doubles) (fresh : (n : ℕ) → Buf n) (www : String → Option String)

/-- What `GET /api/config` answers is what is shown. -/
theorem value_apiConfigGetHandler (E : WebEnv) (c₀ : RepeaterConfig) (s : Nvs) :
    ((apiConfigGetHandler E c₀).run nvs [] s).value
      = sendJson (E.renderConfig (shown s).settings (shown s).history) := by
  simp only [apiConfigGetHandler, Script.run_bind, run_state_of_reads (loadOrDefault_reads c₀),
    settings_loadOrDefault, Script.faults_nil]
  rfl

/-- A text that was sent is the one that was rendered. -/
theorem rendered_of_sent {json : JsonOutcome} {body : String}
    (h : (sendJson json).response = some ⟨200, body⟩) : json = .ok body := by
  cases json with
  | error e =>
    have hstatus : 500 = 200 := congrArg Response.status (Option.some.inj h)
    exact absurd hstatus (by decide)
  | ok text =>
    have hbody := congrArg Response.body (Option.some.inj h)
    exact congrArg Except.ok hbody

end Answers

/-- A server that has memory enough. -/
def plentifulEnv : WebEnv := jsonEnv .plentiful Json.wholeDoubles Buf.zero fun _ => none

/-- A post of another uplink. -/
def renameRequest : HttpRequest :=
  postRequest (bytesOf "\x7b\"sta_ssid\":\"Home\"\x7d") wifiConfigGetDefault

section Answers

variable (H : Heap) (D : Doubles) (fresh : (n : ℕ) → Buf n) (www : String → Option String)

section Posted

variable (st : Settings) (history : List CStr)

theorem postedString_configJson :
    postedString (configJson st history) "sta_ssid" = some st.staSsid ∧
      postedString (configJson st history) "sta_pass" = some .empty ∧
      postedString (configJson st history) "ap_ssid" = some st.apSsid ∧
      postedString (configJson st history) "ap_pass" = some .empty :=
  ⟨rfl, rfl, rfl, rfl⟩

theorem postedNumber_configJson :
    postedNumber (configJson st history) "ap_max_conn" = some (st.apMaxConnections.toNat : ℚ) :=
  rfl

/-- The masked passwords count as not posted. -/
theorem postedPassword_configJson :
    postedPassword (configJson st history) "sta_pass" = none ∧
      postedPassword (configJson st history) "ap_pass" = none := by
  obtain ⟨-, hsta, -, hap⟩ := postedString_configJson st history
  rw [postedPassword, postedPassword, hsta, hap]
  exact ⟨rfl, rfl⟩

/-- Valid values that are shown and posted again are the values that were there. -/
theorem merged_configJson (hv : st.Valid) : merged (configJson st history) st = st := by
  obtain ⟨hsta, -, hap, -⟩ := postedString_configJson st history
  obtain ⟨hstaPass, hapPass⟩ := postedPassword_configJson st history
  have hmax : uint8Cast (valueint st.apMaxConnections.toNat) = st.apMaxConnections := by
    rw [uint8Cast_valueint st.apMaxConnections.toNat_lt, UInt8.ofNat_toNat]
  rw [merged, hsta, hap, hstaPass, hapPass, postedNumber_configJson, Option.map_some,
    Option.map_some, Option.map_some, CStr.take_of_length_le hv.staSsid_le,
    CStr.take_of_length_le hv.apSsid_le, hmax]
  rfl

/-- They are in range. -/
theorem cutInRange_configJson (hv : st.Valid) : CutInRange (configJson st history) := by
  obtain ⟨hsta, -, hap, -⟩ := postedString_configJson st history
  have hmax : uint8Cast (valueint st.apMaxConnections.toNat) = st.apMaxConnections := by
    rw [uint8Cast_valueint st.apMaxConnections.toNat_lt, UInt8.ofNat_toNat]
  constructor
  · rw [hsta]
    exact fun v h => Option.mem_some_iff.mp h ▸ hv.staSsid_pos
  · rw [hap]
    exact fun v h => Option.mem_some_iff.mp h ▸ hv.apSsid_pos
  · rw [(postedPassword_configJson st history).2]
    exact fun v h => absurd h (by simp)
  · rw [postedNumber_configJson]
    intro v h
    rw [← Option.mem_some_iff.mp h, hmax]
    exact ⟨hv.apMaxConnections_pos, hv.apMaxConnections_le⟩

/-- Nor does a value that fills its array meet a leftover byte: it was loaded into it. -/
theorem zeroBehind_configJson (c₀ : RepeaterConfig) (s : Nvs) :
    ZeroBehind (configJson (inForce s) history) ((loadOrDefault c₀).run nvs [] s).value := by
  refine (zeroBehind_iff _ c₀ s).mpr fun st hst hv => ?_
  have hin : inForce s = st := by
    rw [inForce, hst]
    exact if_pos hv
  obtain ⟨hsta, -, hap, -⟩ := postedString_configJson (inForce s) history
  obtain ⟨hstaPass, hapPass⟩ := postedPassword_configJson (inForce s) history
  have hfull : ∀ {n : ℕ} {v : CStr}, v.length ≤ n → ∀ w ∈ some v, n ≤ w.length → v.length = n :=
    fun hle w hw hge => le_antisymm hle (Option.mem_some_iff.mp hw ▸ hge)
  constructor
  · rw [hsta, hin]
    exact fun w hw hge => .inl (hfull hv.staSsid_le w hw hge)
  · rw [hstaPass]
    exact fun w hw => absurd hw (by simp)
  · rw [hap, hin]
    exact fun w hw hge => .inl (hfull hv.apSsid_le w hw hge)
  · rw [hapPass]
    exact fun w hw => absurd hw (by simp)

end Posted

/-- **An answer that is posted back is accepted, and what is in force stays in force**, the
passwords included, which the answer does not tell: the SSID only moves to the front of the
history.  A long history can make the answer too long for the handler; then it is refused. -/
theorem config_posted_back (s : Nvs) (c₀ c₁ : RepeaterConfig) {body : String}
    (h : ((apiConfigGetHandler (jsonEnv H D fresh www) c₀).run nvs [] s).value.response
      = some ⟨200, body⟩) :
    let P := (jsonEnv H D fresh www).parser
    let out := (apiConfigPostHandler P (.whole (bytesOf body)) c₁).run nvs [] s
    ((bytesOf body).length < 1024 → out.value = savedOk ∧ inForce out.state = inForce s ∧
      loadedHistory out.state
        = Recent.push maxSsidHistory (inForce s).staSsid (loadedHistory s)) ∧
      (1024 ≤ (bytesOf body).length →
        Refused P (.whole (bytesOf body)) c₁ s) := by
  intro P out
  rw [value_apiConfigGetHandler] at h
  obtain ⟨text, htext, hparse⟩ := parse_renderConfig fresh (rendered_of_sent h)
  have hne : bytesOf body ≠ [] := fun hnil => by
    have hempty : text = .empty := CStr.ext (htext.trans hnil)
    rw [hempty, (cJsonParser D fresh).parse_empty] at hparse
    cases hparse
  have hrecv : recvBody (.whole (bytesOf body)) = some text := by
    rw [recvBody_whole hne, ← htext, CStr.ofMem_bytes]
  have hback : merged (configJson (shown s).settings (shown s).history) (inForce s)
      = (shown s).settings := merged_configJson _ _ (inForce_valid s)
  obtain ⟨hiff, hsaved, hrefused⟩ := post_read (P := P) hrecv hparse c₁ s
  rw [hback] at hsaved
  refine ⟨fun hlt => ?_, fun hge => hrefused fun hok => ?_⟩
  · have hok := hiff.mpr
      ⟨hlt, cutInRange_configJson _ _ (inForce_valid s), zeroBehind_configJson _ c₁ s⟩
    have hshown := (hsaved hok).1
    exact ⟨hok, congrArg Shown.settings hshown, congrArg Shown.history hshown⟩
  · exact absurd (hiff.mp hok).short (Nat.not_lt.mpr hge)

end Answers

/-- What an empty store has a device answer, and that it takes it back. -/
theorem defaults_posted_back : ∃ body,
    ((apiConfigGetHandler plentifulEnv wifiConfigGetDefault).run nvs [] none).value.response
        = some ⟨200, body⟩ ∧
      ((apiConfigPostHandler plentifulEnv.parser (.whole (bytesOf body))
        wifiConfigGetDefault).run nvs [] none).value = savedOk := by
  have hlen : (Json.text Json.wholeDoubles (configJson defaultSettings [])).length < 1024 := by
    decide +kernel
  obtain ⟨r, hr, htext, hnone⟩ := Json.cJsonPrintUnformatted_spec .plentiful Json.wholeDoubles
    (configJson defaultSettings [])
  cases r with
  | none =>
    have hmax : 1026 < Json.intMax := by decide
    have hlong := Json.plentiful_fails (hnone rfl)
    omega
  | some text =>
    have hshown : shown none = ⟨defaultSettings, []⟩ := rfl
    have hget : ((apiConfigGetHandler plentifulEnv wifiConfigGetDefault).run nvs []
        none).value.response = some ⟨200, bodyOf text⟩ := by
      rw [value_apiConfigGetHandler, hshown, plentifulEnv, jsonEnv]
      dsimp only
      rw [renderConfig, hr]
      rfl
    refine ⟨bodyOf text, hget, ((config_posted_back .plentiful Json.wholeDoubles Buf.zero _ none
      wifiConfigGetDefault wifiConfigGetDefault hget).1 ?_).1⟩
    rw [bytesOf_bodyOf, htext text rfl]
    exact hlen

end WifiRepeater
