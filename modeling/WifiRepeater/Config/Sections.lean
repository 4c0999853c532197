import WifiRepeater.Config.Auth
import WifiRepeater.Config.History

/-!
# The sections of the store

The configuration, the dashboard login, the SSID history and the provisioning flag share
one namespace, each under its own keys.  Every save writes the keys of its section.  The
two functions that bring the defaults back begin with `wifi_config_erase`, which removes
the keys of all sections.

## Main definitions

* `wifiConfigSaveAuth`, `wifiConfigSyncDefaults`, `wifiConfigResetToDefaults` — the login
  saved, and the defaults brought back.
* `IsConfigKey`, `IsAuthKey` — the keys of a section.
* `KeepsOthers` — a function leaves the keys of the other sections alone.

## Main results

* `sections_independent_iff` — **when the sections are independent.**
* `reset_forgets_provisioning` — a reset of the credentials that undoes the set-up.
-/

namespace WifiRepeater

open Script (tryAll applyAll WritesAll)

/-! ### The other writers -/

/-- The user name as the code reads it, from its array on. -/
def DashboardAuth.usernameStr (a : DashboardAuth) : CStr :=
  .ofMem (a.username.bytes ++ a.password.bytes)

/-- The password. -/
def DashboardAuth.passwordStr (a : DashboardAuth) : CStr := .ofMem a.password.bytes

/-- `wifi_config_save_auth`. -/
def wifiConfigSaveAuth (auth : DashboardAuth) : Prog EspResult :=
  tryAll [nvsOpenReadWrite, nvsSetStr .dashUser auth.usernameStr,
    nvsSetStr .dashPass auth.passwordStr, nvsCommit]

/-- `wifi_config_reset_to_defaults`. -/
def wifiConfigResetToDefaults : Prog EspResult :=
  tryAll [wifiConfigErase, wifiConfigSave wifiConfigGetDefault]

/-- `wifi_config_sync_defaults`, with `c₀` in its `nvs_cfg`. -/
def wifiConfigSyncDefaults (c₀ : RepeaterConfig) : Prog EspResult := do
  let r ← wifiConfigLoad c₀
  match r.1 with
  | .error _ => pure espOk
  | .ok _ =>
      -- `strcmp` of the station SSIDs
      if r.2.settings.staSsid ≠ wifiConfigGetDefault.settings.staSsid then
        tryAll [wifiConfigErase, wifiConfigSave wifiConfigGetDefault]
      else pure espOk

/-! ### The sections -/

/-- The keys of the configuration. -/
def IsConfigKey : NvsKey → Prop
  | .staSsid | .staPass | .apSsid | .apPass | .apMaxConn => True
  | .dashUser | .dashPass | .histCount | .histSsid _ | .provisioned => False

/-- The keys of the login. -/
def IsAuthKey : NvsKey → Prop
  | .dashUser | .dashPass => True
  | .staSsid | .staPass | .apSsid | .apPass | .apMaxConn | .histCount | .histSsid _
  | .provisioned => False

/-- With all its calls let through, a function leaves every key but those in `K` as it
is. -/
def KeepsOthers {α : Type} (K : NvsKey → Prop) (m : Prog α) (s : Nvs) : Prop :=
  ∀ k, ¬K k → (m.run nvs [] s).state.get k = s.get k

/-- A function keeps the keys that none of its calls writes. -/
theorem keepsOthers_of_writesOnly {α : Type} {K : NvsKey → Prop} {m : Prog α}
    (hm : m.Issues (NvsOp.WritesOnly K)) (s : Nvs) : KeepsOthers K m s :=
  fun _ hk => run_get_of_writesOnly hm hk [] s

theorem wifiConfigSave_writesOnly (c : RepeaterConfig) :
    (wifiConfigSave c).Issues (NvsOp.WritesOnly IsConfigKey) := by
  unfold wifiConfigSave
  cases wifiConfigValidate c with
  | error e => exact trivial
  | ok u =>
    have hissues : (tryAll (saveCalls c.settings)).Issues (NvsOp.IsWriteOf IsConfigKey) := by
      refine Script.issues_tryAll fun m hm => ?_
      simp only [saveCalls, List.mem_cons, List.not_mem_nil, or_false] at hm
      rcases hm with rfl | rfl | rfl | rfl | rfl | rfl | rfl
      · exact ⟨NvsOp.isWriteOf_open _, fun _ => trivial⟩
      · exact ⟨NvsOp.isWriteOf_setStr trivial _, fun _ => trivial⟩
      · exact ⟨NvsOp.isWriteOf_setStr trivial _, fun _ => trivial⟩
      · exact ⟨NvsOp.isWriteOf_setStr trivial _, fun _ => trivial⟩
      · exact ⟨NvsOp.isWriteOf_setStr trivial _, fun _ => trivial⟩
      · exact ⟨NvsOp.isWriteOf_setU8 trivial _, fun _ => trivial⟩
      · exact ⟨NvsOp.isWriteOf_commit _, fun _ => trivial⟩
    exact hissues.mono fun _ h => h.2

theorem wifiConfigSaveAuth_writesOnly (auth : DashboardAuth) :
    (wifiConfigSaveAuth auth).Issues (NvsOp.WritesOnly IsAuthKey) := by
  have hissues : (wifiConfigSaveAuth auth).Issues (NvsOp.IsWriteOf IsAuthKey) := by
    refine Script.issues_tryAll fun m hm => ?_
    simp only [List.mem_cons, List.not_mem_nil, or_false] at hm
    rcases hm with rfl | rfl | rfl | rfl
    · exact ⟨NvsOp.isWriteOf_open _, fun _ => trivial⟩
    · exact ⟨NvsOp.isWriteOf_setStr trivial _, fun _ => trivial⟩
    · exact ⟨NvsOp.isWriteOf_setStr trivial _, fun _ => trivial⟩
    · exact ⟨NvsOp.isWriteOf_commit _, fun _ => trivial⟩
  exact hissues.mono fun _ h => h.2

/-! ### What an erase takes along -/

/-- An erase that meets no fault. -/
theorem run_wifiConfigErase (s : Nvs) :
    wifiConfigErase.run nvs [] s = ⟨espOk, [], s.opened.erased⟩ := rfl

/-- The defaults brought back: after the erase only the configuration is written. -/
theorem get_eraseAndSave (s : Nvs) {k : NvsKey} (hk : ¬IsConfigKey k) :
    ((tryAll [wifiConfigErase, wifiConfigSave wifiConfigGetDefault]).run nvs [] s).state.get k
      = none := by
  have hsaved := keepsOthers_of_writesOnly (wifiConfigSave_writesOnly wifiConfigGetDefault)
    s.opened.erased k hk
  rw [Nvs.get_erased] at hsaved
  rw [tryAll, Script.run_bind, run_wifiConfigErase]
  simp only [tryAll, Script.run_bind]
  cases ((wifiConfigSave wifiConfigGetDefault).run nvs [] s.opened.erased).value with
  | error e => exact hsaved
  | ok u => exact hsaved

/-- Bringing the defaults back leaves the other sections alone when they are empty. -/
theorem keepsOthers_eraseAndSave_iff (s : Nvs) :
    KeepsOthers IsConfigKey (tryAll [wifiConfigErase, wifiConfigSave wifiConfigGetDefault]) s ↔
      ∀ k, ¬IsConfigKey k → s.get k = none := by
  refine forall₂_congr fun k hk => ?_
  rw [get_eraseAndSave s hk]
  exact eq_comm

/-- The stored configuration is valid, with another station SSID than the defaults. -/
def Outdated (s : Nvs) : Prop :=
  ∃ st, storedSettings s = some st ∧ st.Valid ∧ st.staSsid ≠ defaultSettings.staSsid

/-- The defaults are brought back when the stored configuration is outdated. -/
theorem run_wifiConfigSyncDefaults (c₀ : RepeaterConfig) (s : Nvs) :
    (Outdated s → ((wifiConfigSyncDefaults c₀).run nvs [] s).state
      = ((tryAll [wifiConfigErase, wifiConfigSave wifiConfigGetDefault]).run nvs [] s).state) ∧
    (¬Outdated s → ((wifiConfigSyncDefaults c₀).run nvs [] s).state = s) := by
  have hstate := run_state_of_reads (wifiConfigLoad_reads c₀) [] s
  unfold wifiConfigSyncDefaults
  rw [Script.run_bind, Script.faults_nil, hstate]
  rcases run_wifiConfigLoad c₀ [] s with ⟨st, hst, hv, hok, hload⟩ | ⟨e, he⟩
  · have hiff : Outdated s ↔ st.staSsid ≠ defaultSettings.staSsid := by
      constructor
      · rintro ⟨st', hst', -, hne⟩
        obtain rfl : st = st' := Option.some.inj (hst.symm.trans hst')
        exact hne
      · exact fun hne => ⟨st, hst, hv, hne⟩
    simp only [hok, hload.settings_eq, settings_default]
    rw [hiff]
    constructor
    · intro hne
      rw [if_pos hne]
    · intro heq
      rw [if_neg heq]
      rfl
  -- nothing valid is stored
  · have hno : ¬Outdated s := by
      rintro ⟨st, hst, hv, -⟩
      have hok := (run_wifiConfigLoad_ok_iff c₀ s).mpr ⟨st, hst, hv⟩
      rw [he] at hok
      exact absurd hok (by simp)
    rw [he]
    exact ⟨fun h => absurd h hno, fun _ => rfl⟩

theorem keepsOthers_syncDefaults_iff (c₀ : RepeaterConfig) (s : Nvs) :
    KeepsOthers IsConfigKey (wifiConfigSyncDefaults c₀) s ↔
      (Outdated s → ∀ k, ¬IsConfigKey k → s.get k = none) := by
  obtain ⟨hout, hup⟩ := run_wifiConfigSyncDefaults c₀ s
  by_cases h : Outdated s
  · rw [← keepsOthers_eraseAndSave_iff]
    unfold KeepsOthers
    rw [hout h]
    exact ⟨fun hkeeps _ => hkeeps, fun hkeeps => hkeeps h⟩
  · refine iff_of_true (fun k _ => ?_) (fun h' => absurd h' h)
    rw [hup h]

/-! ### Independence -/

/-- Every function leaves the sections alone that are not its own. -/
structure SectionsIndependent (s : Nvs) : Prop where
  /-- Saving a configuration. -/
  save : ∀ c, KeepsOthers IsConfigKey (wifiConfigSave c) s
  /-- Bringing the defaults in line. -/
  syncDefaults : ∀ c₀, KeepsOthers IsConfigKey (wifiConfigSyncDefaults c₀) s
  /-- Going back to the defaults. -/
  resetToDefaults : KeepsOthers IsConfigKey wifiConfigResetToDefaults s
  /-- Saving a login. -/
  saveAuth : ∀ auth, KeepsOthers IsAuthKey (wifiConfigSaveAuth auth) s
  /-- Adding an SSID. -/
  addSsid : ∀ ssid, KeepsOthers IsHistoryKey (wifiConfigAddSsidToHistory ssid) s
  /-- Setting the flag. -/
  setProvisioned : ∀ b, KeepsOthers (· = .provisioned) (wifiConfigSetProvisioned b) s

/-- **When the sections are independent**: on any store, all six functions leave the other
sections alone exactly when there is nothing in them.  The four that write one section
always do; a reset does when the others are empty, and so does bringing the defaults in
line, or when it finds nothing outdated. -/
theorem sections_independent_iff (s : Nvs) :
    (SectionsIndependent s ↔ ∀ k, ¬IsConfigKey k → s.get k = none) ∧
    (∀ c, KeepsOthers IsConfigKey (wifiConfigSave c) s) ∧
    (∀ auth, KeepsOthers IsAuthKey (wifiConfigSaveAuth auth) s) ∧
    (∀ ssid, KeepsOthers IsHistoryKey (wifiConfigAddSsidToHistory ssid) s) ∧
    (∀ b, KeepsOthers (· = .provisioned) (wifiConfigSetProvisioned b) s) ∧
    (KeepsOthers IsConfigKey wifiConfigResetToDefaults s ↔
      ∀ k, ¬IsConfigKey k → s.get k = none) ∧
    ∀ c₀, KeepsOthers IsConfigKey (wifiConfigSyncDefaults c₀) s ↔
      (Outdated s → ∀ k, ¬IsConfigKey k → s.get k = none) := by
  have hsave := fun c => keepsOthers_of_writesOnly (wifiConfigSave_writesOnly c) s
  have hauth := fun auth => keepsOthers_of_writesOnly (wifiConfigSaveAuth_writesOnly auth) s
  have hadd := fun ssid => keepsOthers_of_writesOnly (wifiConfigAddSsidToHistory_writesOnly ssid) s
  have hflag := fun b => keepsOthers_of_writesOnly
    ((wifiConfigSetProvisioned_issues b).mono fun _ h => h.2) s
  have hreset := keepsOthers_eraseAndSave_iff s
  have hsync := fun c₀ => keepsOthers_syncDefaults_iff c₀ s
  refine ⟨⟨fun h => hreset.mp h.resetToDefaults, fun h => ?_⟩, hsave, hauth, hadd, hflag, hreset,
    hsync⟩
  exact ⟨hsave, fun c₀ => (hsync c₀).mpr fun _ => h, hreset.mpr h, hauth, hadd, hflag⟩

/-- The repeater set up for the network at home. -/
def setUpStore : Nvs := (storeOf homeConfig.settings).set .provisioned (.u8 1)

/-- **A reset of the credentials undoes the set-up**: the flag is gone after it, and after
bringing the defaults in line as well. -/
theorem reset_forgets_provisioning :
    setUpStore.provisioned = true ∧
      (wifiConfigResetToDefaults.run nvs [] setUpStore).value = espOk ∧
      (wifiConfigResetToDefaults.run nvs [] setUpStore).state.provisioned = false ∧
      ((wifiConfigSyncDefaults homeConfig).run nvs [] setUpStore).state.provisioned = false ∧
      ¬SectionsIndependent setUpStore := by
  refine ⟨rfl, by decide +kernel, by decide +kernel, by decide +kernel, fun h => ?_⟩
  have hkept := h.resetToDefaults .provisioned id
  have hflag : setUpStore.get .provisioned = some (.u8 1) := rfl
  rw [hflag] at hkept
  exact absurd (hkept.symm.trans (get_eraseAndSave setUpStore id)) (by simp)

end WifiRepeater
