import Mathlib.Tactic.IntervalCases
import WifiRepeater.Config.Manager

/-!
# Saving and erasing

`wifi_config_save` writes the five values one key after the other and commits at the
end; the first call that fails ends it.  Every set is in the store when its call
returns, so a save that is cut short, by a fault or by a loss of power, leaves the first
values new and the others as they were.  What is left is a valid configuration again,
and the next load takes it for one.

## Main definitions

* `wifiConfigSave`, `wifiConfigErase` — the writers of the manager.
* `Settings.mix n old new` — the first `n` values new, the others old.
* `setsDone n fs` — how many values a save has written when it ends.
* `LoadsOneOf c₀ s a b` — the next load finds one of two configurations.

## Main results

* `storedSettings_applyAll` — **what a save cut short leaves.**
* `save_cut_iff` — when the next load finds the old or the new configuration.
* `save_cut_mixes` — the new name with the old password.
* `load_whole_and_round_trip` — **a load is whole, and it finds what was saved.**
-/

namespace WifiRepeater

open Script (tryAll applyAll clear WritesAll)

/-! ### The writers -/

/-- The calls of `wifi_config_save`, in order. -/
def saveCalls (st : Settings) : List (Prog EspResult) :=
  [nvsOpenReadWrite, nvsSetStr .staSsid st.staSsid, nvsSetStr .staPass st.staPassword,
    nvsSetStr .apSsid st.apSsid, nvsSetStr .apPass st.apPassword,
    nvsSetU8 .apMaxConn st.apMaxConnections, nvsCommit]

/-- `wifi_config_save`. -/
def wifiConfigSave (c : RepeaterConfig) : Prog EspResult :=
  match wifiConfigValidate c with
  -- nothing is written of a configuration that does not validate
  | .error e => .done (.error e)
  | .ok _ => tryAll (saveCalls c.settings)

/-- `wifi_config_erase`. -/
def wifiConfigErase : Prog EspResult := tryAll [nvsOpenReadWrite, nvsEraseAll, nvsCommit]

/-- What the calls of a save do to the store. -/
def saveEffects (st : Settings) : List (Nvs → Nvs) :=
  [Nvs.opened, Nvs.set .staSsid (.str st.staSsid), Nvs.set .staPass (.str st.staPassword),
    Nvs.set .apSsid (.str st.apSsid), Nvs.set .apPass (.str st.apPassword),
    Nvs.set .apMaxConn (.u8 st.apMaxConnections), id]

theorem saveCalls_writes (st : Settings) : WritesAll nvs (saveCalls st) (saveEffects st) :=
  .cons writes_open <| .cons (writes_setStr _ _) <| .cons (writes_setStr _ _) <|
    .cons (writes_setStr _ _) <| .cons (writes_setStr _ _) <| .cons (writes_setU8 _ _) <|
      .cons writes_commit .nil

theorem wifiConfigSave_eq {c : RepeaterConfig} (h : wifiConfigValidate c = espOk) :
    wifiConfigSave c = tryAll (saveCalls c.settings) := by
  unfold wifiConfigSave
  rw [h]

/-! ### Values old and new -/

/-- The first `n` values of `new` and the others of `old`, in the order of the save. -/
def Settings.mix (n : ℕ) (old new : Settings) : Settings where
  staSsid := if 0 < n then new.staSsid else old.staSsid
  staPassword := if 1 < n then new.staPassword else old.staPassword
  apSsid := if 2 < n then new.apSsid else old.apSsid
  apPassword := if 3 < n then new.apPassword else old.apPassword
  apMaxConnections := if 4 < n then new.apMaxConnections else old.apMaxConnections

/-- The values that satisfy `P`, by their place in the order of the save, agree. -/
def Settings.AgreeOn (P : ℕ → Prop) (a b : Settings) : Prop :=
  (P 0 → a.staSsid = b.staSsid) ∧ (P 1 → a.staPassword = b.staPassword) ∧
    (P 2 → a.apSsid = b.apSsid) ∧ (P 3 → a.apPassword = b.apPassword) ∧
    (P 4 → a.apMaxConnections = b.apMaxConnections)

/-- A mix is the old configuration when the values written agree. -/
theorem Settings.mix_eq_old_iff (n : ℕ) (old new : Settings) :
    Settings.mix n old new = old ↔ Settings.AgreeOn (· < n) old new := by
  cases old
  simp only [Settings.mix, Settings.AgreeOn, Settings.mk.injEq, ite_eq_right_iff]
  simp only [eq_comm]

/-- It is the new one when the values not written agree. -/
theorem Settings.mix_eq_new_iff (n : ℕ) (old new : Settings) :
    Settings.mix n old new = new ↔ Settings.AgreeOn (n ≤ ·) old new := by
  cases new
  simp only [Settings.mix, Settings.AgreeOn, Settings.mk.injEq, ← not_lt,
    ite_eq_left_iff]

/-- Validity is checked value by value, so a mix of valid configurations is valid. -/
theorem Settings.mix_valid {old new : Settings} (ho : old.Valid) (hn : new.Valid) (n : ℕ) :
    (Settings.mix n old new).Valid := by
  rw [Settings.valid_iff] at ho hn ⊢
  unfold Settings.mix
  refine ⟨?_, ?_, ?_, ?_, ?_, ?_⟩
  · by_cases h : 0 < n
    · simpa only [if_pos h] using hn.1
    · simpa only [if_neg h] using ho.1
  · by_cases h : 1 < n
    · simpa only [if_pos h] using hn.2.1
    · simpa only [if_neg h] using ho.2.1
  · by_cases h : 2 < n
    · simpa only [if_pos h] using hn.2.2.1
    · simpa only [if_neg h] using ho.2.2.1
  · by_cases h : 3 < n
    · simpa only [if_pos h] using hn.2.2.2.1
    · simpa only [if_neg h] using ho.2.2.2.1
  · by_cases h : 3 < n
    · simpa only [if_pos h] using hn.2.2.2.2.1
    · simpa only [if_neg h] using ho.2.2.2.2.1
  · by_cases h : 4 < n
    · simpa only [if_pos h] using hn.2.2.2.2.2
    · simpa only [if_neg h] using ho.2.2.2.2.2

/-! ### A save cut short -/

/-- How many values a save has written that ends after `n` calls at the latest and whose
calls meet the faults `fs`: its first call opens the store. -/
def setsDone (n : ℕ) (fs : List (Option EspErr)) : ℕ := clear (min n 6) fs - 1

/-- **What a save cut short leaves**: the first values new, the others old. -/
theorem storedSettings_applyAll {s : Nvs} {old : Settings} (h : storedSettings s = some old)
    (new : Settings) {k : ℕ} (hk : k ≤ 7) :
    storedSettings (applyAll ((saveEffects new).take k) s)
      = some (Settings.mix (k - 1) old new) := by
  obtain ⟨h1, h2, h3, h4, h5⟩ := (storedSettings_eq_some_iff s old).mp h
  rw [storedSettings_eq_some_iff]
  unfold saveEffects Settings.mix
  interval_cases k <;> simp [h1, h2, h3, h4, h5]

/-- A save that is not cut short leaves its configuration, whatever was stored. -/
theorem storedSettings_saved (s : Nvs) (new : Settings) :
    storedSettings (applyAll (saveEffects new) s) = some new := by
  rw [storedSettings_eq_some_iff]
  unfold saveEffects
  simp

theorem storedSettings_cutAfter {s : Nvs} {old : Settings} (h : storedSettings s = some old)
    {c : RepeaterConfig} (hc : wifiConfigValidate c = espOk) (n : ℕ)
    (fs : List (Option EspErr)) :
    storedSettings ((wifiConfigSave c).cutAfter nvs n fs s)
      = some (Settings.mix (setsDone n fs) old c.settings) := by
  rw [wifiConfigSave_eq hc, Script.cutAfter_tryAll (saveCalls_writes _)]
  have hlen : (saveCalls c.settings).length = 7 := rfl
  have hle := Script.clear_le (min n 7) fs
  -- the last call is the commit, which writes nothing
  have hsix : clear (min n 6) fs = min 6 (clear (min n 7) fs) := by
    have h1 := Script.clear_min n 6 fs
    have h2 := Script.clear_min n 7 fs
    have h3 := Script.clear_min 6 7 fs
    rw [show min 6 7 = 6 from rfl] at h3
    omega
  rw [hlen, storedSettings_applyAll h c.settings (by omega), Option.some.injEq]
  unfold setsDone
  rw [hsix]
  unfold Settings.mix
  congr 1 <;> exact if_congr (by omega) rfl rfl

/-- The calls of a save that ran to its end met no fault, and its state. -/
theorem run_wifiConfigSave {c : RepeaterConfig} {fs : List (Option EspErr)} {s : Nvs}
    (hok : ((wifiConfigSave c).run nvs fs s).value = espOk) :
    c.settings.Valid ∧
      ((wifiConfigSave c).run nvs fs s).state = Script.applyAll (saveEffects c.settings) s ∧
      (wifiConfigSave c).failures nvs fs s = [] := by
  cases hval : wifiConfigValidate c with
  | error e =>
    unfold wifiConfigSave at hok
    rw [hval] at hok
    exact absurd hok (by simp)
  | ok u =>
    have hc : wifiConfigValidate c = espOk := hval
    rw [wifiConfigSave_eq hc] at hok ⊢
    obtain ⟨hstate, hall, hfail⟩ := Script.run_tryAll (saveCalls_writes c.settings) fs s
    have hclear := hall.mp hok
    refine ⟨(wifiConfigValidate_eq_ok_iff c).mp hc, ?_, hfail.mpr hclear⟩
    rw [hstate, hclear]
    rfl

/-- The next load, into a struct that holds `c₀`, finds one of two configurations. -/
def LoadsOneOf (c₀ : RepeaterConfig) (s : Nvs) (a b : Settings) : Prop :=
  ((wifiConfigLoad c₀).run nvs [] s).value.1 = espOk ∧
    (((wifiConfigLoad c₀).run nvs [] s).value.2.settings = a ∨
      ((wifiConfigLoad c₀).run nvs [] s).value.2.settings = b)

/-- **When a save cut short is all or nothing**: the next load finds the old or the new
configuration exactly when the values written by then are the same in both, or the
values not written are. -/
theorem save_cut_iff {s : Nvs} {old : Settings} (hold : storedSettings s = some old)
    (hv : old.Valid) {c : RepeaterConfig} (hc : wifiConfigValidate c = espOk) (n : ℕ)
    (fs : List (Option EspErr)) (c₀ : RepeaterConfig) :
    LoadsOneOf c₀ ((wifiConfigSave c).cutAfter nvs n fs s) old c.settings ↔
      Settings.AgreeOn (· < setsDone n fs) old c.settings ∨
        Settings.AgreeOn (setsDone n fs ≤ ·) old c.settings := by
  have hst := storedSettings_cutAfter hold hc n fs
  -- the mix is valid, so the load takes it
  have hmix := Settings.mix_valid hv ((wifiConfigValidate_eq_ok_iff c).mp hc) (setsDone n fs)
  have hok := (run_wifiConfigLoad_ok_iff c₀ _).mpr ⟨_, hst, hmix⟩
  have hload := run_wifiConfigLoad_settings c₀ ((wifiConfigSave c).cutAfter nvs n fs s)
  unfold inForce at hload
  simp only [hst, if_pos hmix] at hload
  unfold LoadsOneOf
  rw [hload, Settings.mix_eq_old_iff, Settings.mix_eq_new_iff]
  exact ⟨fun h => h.2, fun h => ⟨hok, h⟩⟩

/-- A configuration with the given strings. -/
def configOf (staSsid staPassword apSsid apPassword : CStr) (n : UInt8) : RepeaterConfig where
  staSsid := (Buf.zero _).strncpy staSsid maxSsidLen (Nat.le_succ _)
  staPassword := (Buf.zero _).strncpy staPassword maxPasswordLen (Nat.le_succ _)
  apSsid := (Buf.zero _).strncpy apSsid maxSsidLen (Nat.le_succ _)
  apPassword := (Buf.zero _).strncpy apPassword maxPasswordLen (Nat.le_succ _)
  apMaxConnections := n

/-- A store that holds the given values. -/
def storeOf (st : Settings) : Nvs := applyAll (saveEffects st) none

/-- The network at home. -/
def homeConfig : RepeaterConfig := configOf (.lit "Home") (.lit "homesecret") (.lit "Repeater")
  (.lit "repeater1") 4

/-- The network in the office, behind the same access point. -/
def officeConfig : RepeaterConfig := configOf (.lit "Office") (.lit "officesecret")
  (.lit "Repeater") (.lit "repeater1") 4

/-- A save that runs to its end. -/
theorem save_uncut :
    LoadsOneOf homeConfig
      ((wifiConfigSave officeConfig).cutAfter nvs 7 [] (storeOf homeConfig.settings))
      homeConfig.settings officeConfig.settings :=
  (save_cut_iff (storedSettings_saved none homeConfig.settings) (by decide +kernel)
    (by decide +kernel) 7 [] homeConfig).mpr (Or.inr ⟨by decide, by decide, by decide, by decide,
      by decide⟩)

/-- **The new name with the old password**: power is lost after the second call of the
save, and the next load takes the mix for a configuration. -/
theorem save_cut_mixes :
    storedSettings (storeOf homeConfig.settings) = some homeConfig.settings ∧
      homeConfig.settings.Valid ∧ wifiConfigValidate officeConfig = espOk ∧
      ¬LoadsOneOf homeConfig
        ((wifiConfigSave officeConfig).cutAfter nvs 2 [] (storeOf homeConfig.settings))
        homeConfig.settings officeConfig.settings := by
  refine ⟨storedSettings_saved none _, by decide +kernel, by decide +kernel, ?_⟩
  unfold LoadsOneOf
  rw [run_wifiConfigLoad_settings]
  decide +kernel

/-! ### Saving and loading back -/

/-- **A load is whole, and it finds what was saved**: whatever the store holds and
whichever reads fail, a load leaves a valid configuration, the five stored values or the
defaults; after a save that returned `ESP_OK` it finds the saved values. -/
theorem load_whole_and_round_trip :
    (∀ (c₀ : RepeaterConfig) (fs : List (Option EspErr)) (s : Nvs),
      let r := ((wifiConfigLoad c₀).run nvs fs s).value
      wifiConfigValidate r.2 = espOk ∧
        ((r.1 = espOk ∧ storedSettings s = some r.2.settings) ∨
          (r.1 ≠ espOk ∧ r.2 = wifiConfigGetDefault))) ∧
      ∀ (c c₀ : RepeaterConfig) (fs : List (Option EspErr)) (s : Nvs),
        wifiConfigValidate c = espOk → ((wifiConfigSave c).run nvs fs s).value = espOk →
        let r := ((wifiConfigLoad c₀).run nvs [] ((wifiConfigSave c).run nvs fs s).state).value
        r.1 = espOk ∧ r.2.settings = c.settings := by
  constructor
  · intro c₀ fs s
    dsimp only
    rw [wifiConfigValidate_eq_ok_iff]
    rcases run_wifiConfigLoad c₀ fs s with ⟨st, hst, hv, hok, hload⟩ | ⟨e, he⟩
    · rw [hload.settings_eq]
      exact ⟨hv, Or.inl ⟨hok, hst⟩⟩
    · rw [he, settings_default]
      exact ⟨defaultSettings_valid, Or.inr ⟨by simp, rfl⟩⟩
  · intro c c₀ fs s _ hok
    obtain ⟨hv, hstate, -⟩ := run_wifiConfigSave hok
    dsimp only
    rw [hstate]
    have hst := storedSettings_saved s c.settings
    refine ⟨(run_wifiConfigLoad_ok_iff c₀ _).mpr ⟨_, hst, hv⟩, ?_⟩
    rw [run_wifiConfigLoad_settings]
    unfold inForce
    simp only [hst, if_pos hv]

/-- The office configuration, saved over that of the home. -/
theorem office_round_trip :
    let r := ((wifiConfigLoad homeConfig).run nvs []
      ((wifiConfigSave officeConfig).run nvs [] (storeOf homeConfig.settings)).state).value
    r.1 = espOk ∧ r.2.settings = officeConfig.settings :=
  load_whole_and_round_trip.2 officeConfig homeConfig [] (storeOf homeConfig.settings)
    (by decide +kernel) (by decide +kernel)

end WifiRepeater
