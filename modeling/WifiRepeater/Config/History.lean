import WifiRepeater.Config.Save

/-!
# The SSID history and the provisioning flag

Beside the configuration the store holds the last five station SSIDs, newest first, and
the flag that decides whether the next boot is a set-up boot.  Both are written by
functions of their own, after the configuration has been saved.

## Main definitions

* `wifiConfigLoadSsidHistory`, `wifiConfigAddSsidToHistory` — the history.
* `wifiConfigHasStaCredentials`, `wifiConfigSetProvisioned` — the flag.

## Main results

* `wifiConfigAddSsidToHistory_writesOnly`, `wifiConfigSetProvisioned_issues` — each writes
  its own keys.
* `first_of_added`, `load_first` — **an SSID that was added is the first of the history.**
-/

namespace WifiRepeater

open Script (tryAll applyAll clear WritesAll)

/-! ### The history -/

/-- `WIFI_CFG_MAX_SSID_HISTORY`. -/
abbrev maxSsidHistory : ℕ := 5

/-- The reads of `wifi_config_load_ssid_history`: `n` entries from the `i`-th on, each into
a cleared array, so that a read that fails leaves an empty entry. -/
def loadEntries : ℕ → ℕ → Prog (List CStr)
  | 0, _ => pure []
  | n + 1, i => do
      let r ← nvsGetStr (.histSsid i) (Buf.zero (maxSsidLen + 1))
      let rest ← loadEntries n (i + 1)
      pure (r.2.str :: rest)

/-- `wifi_config_load_ssid_history`: the valid entries.  A count that is missing or too
large stands for none. -/
def wifiConfigLoadSsidHistory : Prog (List CStr) := do
  match ← nvsOpenReadOnly with
  | .error _ => pure []
  | .ok _ =>
      let r ← nvsGetU8 .histCount
      let count := ((r.map UInt8.toNat).filter (· ≤ maxSsidHistory)).getD 0
      loadEntries count 0

/-- The history with an SSID moved or added to its front. -/
def pushSsid (ssid : CStr) (history : List CStr) : List CStr :=
  -- each entry goes through an array of its own, which cuts it
  let temp := (history.filter (· ≠ ssid)).map (CStr.take maxSsidLen)
  ssid.take maxSsidLen :: temp.take (maxSsidHistory - 1)

/-- The sets of the entries, from the `i`-th on, and the commit. -/
def entryCalls : ℕ → List CStr → List (Prog EspResult)
  | _, [] => [nvsCommit]
  | i, v :: vs => nvsSetStr (.histSsid i) v :: entryCalls (i + 1) vs

/-- The calls that write a history. -/
def historyCalls (history : List CStr) : List (Prog EspResult) :=
  nvsOpenReadWrite :: nvsSetU8 .histCount (UInt8.ofNat history.length) :: entryCalls 0 history

/-- `wifi_config_add_ssid_to_history`. -/
def wifiConfigAddSsidToHistory (ssid : CStr) : Prog EspResult :=
  if ssid.length = 0 then pure (.error .invalidArg)
  else do
    let history ← wifiConfigLoadSsidHistory
    tryAll (historyCalls (pushSsid ssid history))

/-! ### The flag -/

/-- `wifi_config_has_sta_credentials`. -/
def wifiConfigHasStaCredentials : Prog Bool := do
  match ← nvsOpenReadOnly with
  | .error _ => pure false
  | .ok _ =>
      let flag ← nvsGetU8 .provisioned
      pure (flag == some 1)

/-- The flag is read by two calls, and only if it is set. -/
theorem wifiConfigHasStaCredentials_true {fs : List (Option EspErr)} {s : Nvs}
    (h : (wifiConfigHasStaCredentials.run nvs fs s).value = true) :
    s.get .provisioned = some (.u8 1) ∧ ∀ i < 2, fs.getD i none = none := by
  unfold wifiConfigHasStaCredentials at h
  rw [Script.run_bind] at h
  cases s with
  | none =>
    have hopen : ∃ e, (nvsOpenReadOnly.run nvs fs none).value = .error e := by
      unfold nvsOpenReadOnly Script.run
      cases fs.headD none <;> exact ⟨_, rfl⟩
    obtain ⟨e, he⟩ := hopen
    rw [he] at h
    cases h
  | some m =>
    rw [run_openReadOnly fs (by simp)] at h
    cases hfirst : fs.headD none with
    | some e =>
      rw [hfirst] at h
      cases h
    | none =>
      simp only [hfirst, Script.run_bind, run_nvsGetU8, Script.pure_eq, Script.run_done,
        beq_iff_eq] at h
      split_ifs at h with hsecond
      refine ⟨(Nvs.readU8_eq_some_iff _ _ _).mp h, fun i hi => ?_⟩
      rw [← headD_drop]
      interval_cases i
      · exact hfirst
      · rw [List.drop_one]
        simpa using hsecond

/-- `wifi_config_set_provisioned`. -/
def wifiConfigSetProvisioned (provisioned : Bool) : Prog EspResult :=
  tryAll [nvsOpenReadWrite, nvsSetU8 .provisioned (if provisioned then 1 else 0), nvsCommit]

/-- The flag as a store without faults answers it. -/
def Nvs.provisioned (s : Nvs) : Bool := s.get .provisioned == some (.u8 1)

theorem run_wifiConfigHasStaCredentials (s : Nvs) :
    (wifiConfigHasStaCredentials.run nvs [] s).value = s.provisioned := by
  cases s with
  | none => rfl
  | some m =>
    have hopen : nvsOpenReadOnly.run nvs [] (some m) = ⟨espOk, [], some m⟩ := rfl
    unfold wifiConfigHasStaCredentials
    simp only [Script.run_bind, hopen, run_nvsGetU8, Script.pure_eq, Script.run_done,
      List.headD_nil, Option.isSome_none, Bool.false_eq_true, if_false]
    unfold Nvs.provisioned Nvs.readU8
    cases Nvs.get (some m) .provisioned with
    | none => rfl
    | some v => cases v <;> simp

/-! ### What they leave alone -/

/-- The keys of the history. -/
def IsHistoryKey : NvsKey → Prop
  | .histCount | .histSsid _ => True
  | .staSsid | .staPass | .apSsid | .apPass | .apMaxConn | .dashUser | .dashPass
  | .provisioned => False

theorem loadEntries_reads : ∀ n i : ℕ, (loadEntries n i).Issues fun op => op.isRead = true := by
  intro n
  induction n with
  | zero => intro i; exact trivial
  | succ n ih => intro i; exact (nvsGetStr_reads _ _).bind fun _ => (ih _).bind fun _ => trivial

theorem wifiConfigLoadSsidHistory_reads :
    wifiConfigLoadSsidHistory.Issues fun op => op.isRead = true := by
  refine ⟨rfl, fun (r : EspResult) => ?_⟩
  cases r with
  | error e => exact trivial
  | ok _ => exact (nvsGetU8_reads _).bind fun _ => loadEntries_reads _ _

theorem entryCalls_issues : ∀ (vs : List CStr) (i : ℕ), ∀ m ∈ entryCalls i vs,
    Script.Issues (NvsOp.IsWriteOf IsHistoryKey) m := by
  intro vs
  induction vs with
  | nil =>
    intro i m hm
    rw [List.mem_singleton.mp hm]
    exact ⟨NvsOp.isWriteOf_commit _, fun _ => trivial⟩
  | cons v vs ih =>
    intro i m hm
    rcases List.mem_cons.mp hm with rfl | hm
    · exact ⟨NvsOp.isWriteOf_setStr trivial v, fun _ => trivial⟩
    · exact ih (i + 1) m hm

theorem historyCalls_issues (history : List CStr) :
    (tryAll (historyCalls history)).Issues (NvsOp.IsWriteOf IsHistoryKey) := by
  refine Script.issues_tryAll fun m hm => ?_
  rcases List.mem_cons.mp hm with rfl | hm
  · exact ⟨NvsOp.isWriteOf_open _, fun _ => trivial⟩
  · rcases List.mem_cons.mp hm with rfl | hm
    · exact ⟨NvsOp.isWriteOf_setU8 trivial _, fun _ => trivial⟩
    · exact entryCalls_issues history 0 m hm

/-- **Adding an SSID writes the history and nothing else.** -/
theorem wifiConfigAddSsidToHistory_writesOnly (ssid : CStr) :
    (wifiConfigAddSsidToHistory ssid).Issues (NvsOp.WritesOnly IsHistoryKey) := by
  unfold wifiConfigAddSsidToHistory
  split_ifs
  · exact trivial
  · exact (wifiConfigLoadSsidHistory_reads.mono fun _ h => NvsOp.writesOnly_of_isRead h _).bind
      fun _ => (historyCalls_issues _).mono fun _ h => h.2

/-- **Setting the flag writes the flag and nothing else.** -/
theorem wifiConfigSetProvisioned_issues (b : Bool) :
    (wifiConfigSetProvisioned b).Issues (NvsOp.IsWriteOf (· = .provisioned)) := by
  refine Script.issues_tryAll fun m hm => ?_
  simp only [List.mem_cons, List.not_mem_nil, or_false] at hm
  rcases hm with rfl | rfl | rfl
  · exact ⟨NvsOp.isWriteOf_open _, fun _ => trivial⟩
  · exact ⟨⟨rfl, fun _ hk heq => hk heq.symm⟩, fun _ => trivial⟩
  · exact ⟨NvsOp.isWriteOf_commit _, fun _ => trivial⟩

/-- The configuration is read off its own five keys. -/
theorem storedSettings_congr {s s' : Nvs}
    (h : ∀ k, ¬IsHistoryKey k → k ≠ .provisioned → s.get k = s'.get k) :
    storedSettings s = storedSettings s' := by
  unfold storedSettings
  rw [h .staSsid id (by decide), h .staPass id (by decide), h .apSsid id (by decide),
    h .apPass id (by decide), h .apMaxConn id (by decide)]

/-! ### What a write of the history leaves -/

/-- What the sets of the entries do to the store. -/
def entryEffects : ℕ → List CStr → List (Nvs → Nvs)
  | _, [] => [id]
  | i, v :: vs => Nvs.set (.histSsid i) (.str v) :: entryEffects (i + 1) vs

/-- What the calls that write a history do to the store. -/
def historyEffects (history : List CStr) : List (Nvs → Nvs) :=
  Nvs.opened :: Nvs.set .histCount (.u8 (UInt8.ofNat history.length)) :: entryEffects 0 history

theorem entryCalls_writes : ∀ (vs : List CStr) (i : ℕ),
    WritesAll nvs (entryCalls i vs) (entryEffects i vs) := by
  intro vs
  induction vs with
  | nil => intro i; exact .cons writes_commit .nil
  | cons v vs ih => intro i; exact .cons (writes_setStr _ _) (ih (i + 1))

theorem historyCalls_writes (history : List CStr) :
    WritesAll nvs (historyCalls history) (historyEffects history) :=
  .cons writes_open (.cons (writes_setU8 _ _) (entryCalls_writes history 0))

/-- The sets of the entries leave a key alone that is none of theirs. -/
theorem get_entryEffects : ∀ (vs : List CStr) (i : ℕ) (s : Nvs) (k : NvsKey),
    (∀ j, i ≤ j → j < i + vs.length → k ≠ .histSsid j) →
      (applyAll (entryEffects i vs) s).get k = s.get k := by
  intro vs
  induction vs with
  | nil => intro i s k _; rfl
  | cons v vs ih =>
    intro i s k hk
    rw [List.length_cons] at hk
    rw [entryEffects, Script.applyAll_cons,
      ih (i + 1) _ k fun j hj hlt => hk j (by omega) (by omega),
      Nvs.get_set_ne (hk i le_rfl (by omega))]

/-- The first entry of a history that was written, and its length. -/
theorem get_historyEffects (v : CStr) (vs : List CStr) (s : Nvs) :
    (applyAll (historyEffects (v :: vs)) s).get (.histSsid 0) = some (.str v) ∧
      (applyAll (historyEffects (v :: vs)) s).get .histCount
        = some (.u8 (UInt8.ofNat (vs.length + 1))) := by
  unfold historyEffects
  simp only [Script.applyAll_cons, entryEffects]
  constructor
  · rw [get_entryEffects _ _ _ _ fun j hj _ => by
      rw [Ne, NvsKey.histSsid.injEq]; omega, Nvs.get_set_self]
  · rw [get_entryEffects _ _ _ _ fun _ _ _ => by simp, Nvs.get_set_ne (by simp), Nvs.get_set_self,
      List.length_cons]

/-- The history in the store is not empty and begins with an SSID. -/
def FirstOfHistory (ssid : CStr) (s : Nvs) : Prop :=
  s.get (.histSsid 0) = some (.str ssid) ∧
    ∃ n, n + 1 ≤ maxSsidHistory ∧ s.get .histCount = some (.u8 (UInt8.ofNat (n + 1)))

/-- Calls that leave the history alone leave its first entry. -/
theorem FirstOfHistory.congr {ssid : CStr} {s s' : Nvs} (h : FirstOfHistory ssid s)
    (hs : ∀ k, IsHistoryKey k → s'.get k = s.get k) : FirstOfHistory ssid s' := by
  obtain ⟨h0, n, hn, hc⟩ := h
  refine ⟨?_, n, hn, ?_⟩
  · rw [hs (.histSsid 0) trivial, h0]
  · rw [hs .histCount trivial, hc]

/-- A load finds the first entry. -/
theorem load_first {s : Nvs} {ssid : CStr} (hle : ssid.length ≤ maxSsidLen)
    (h : FirstOfHistory ssid s) :
    (wifiConfigLoadSsidHistory.run nvs [] s).value.head? = some ssid := by
  obtain ⟨h0, n, hn, hc⟩ := h
  obtain ⟨m, rfl⟩ : ∃ m, s = some m := by
    cases s with
    | none => exact absurd h0 (by simp)
    | some m => exact ⟨m, rfl⟩
  have hopen : nvsOpenReadOnly.run nvs [] (some m) = ⟨espOk, [], some m⟩ := rfl
  have hmax : maxSsidHistory = 5 := rfl
  -- the count that was written is the count that is read
  have hcount : (((Nvs.readU8 (some m) .histCount).map UInt8.toNat).filter
      (· ≤ maxSsidHistory)).getD 0 = n + 1 := by
    have hnat : (UInt8.ofNat (n + 1)).toNat = n + 1 :=
      UInt8.toNat_ofNat_of_lt' (by unfold UInt8.size; omega)
    rw [(Nvs.readU8_eq_some_iff _ _ _).mpr hc, Option.map_some, hnat,
      Option.filter_some_pos (by simpa using hn), Option.getD_some]
  unfold wifiConfigLoadSsidHistory
  simp only [Script.run_bind, hopen, run_nvsGetU8, List.headD_nil, Option.isSome_none,
    Bool.false_eq_true, if_false, hcount, loadEntries, run_nvsGetStr, Script.pure_eq,
    Script.run_done, List.head?_cons, List.tail_nil]
  rw [Nvs.readStr_eq h0 (Nat.lt_succ_of_le hle), Buf.str_put]

/-- An add that succeeded has written the history it made. -/
theorem state_of_added {ssid : CStr} (hpos : 0 < ssid.length) {fs : List (Option EspErr)}
    {s : Nvs} (hok : ((wifiConfigAddSsidToHistory ssid).run nvs fs s).value = espOk) :
    ((wifiConfigAddSsidToHistory ssid).run nvs fs s).state
      = applyAll (historyEffects
          (pushSsid ssid (wifiConfigLoadSsidHistory.run nvs fs s).value)) s := by
  unfold wifiConfigAddSsidToHistory at hok ⊢
  rw [if_neg (by omega), Script.run_bind, run_state_of_reads wifiConfigLoadSsidHistory_reads]
    at hok ⊢
  -- every call of the write succeeded, so all its effects are there
  exact tryAll_state_of_ok (historyCalls_writes _) hok

/-- **An SSID that was added is the first of the history.** -/
theorem first_of_added {ssid : CStr} (hle : ssid.length ≤ maxSsidLen)
    {fs : List (Option EspErr)} {s : Nvs}
    (hok : ((wifiConfigAddSsidToHistory ssid).run nvs fs s).value = espOk) :
    FirstOfHistory ssid ((wifiConfigAddSsidToHistory ssid).run nvs fs s).state := by
  have hpos : 0 < ssid.length := by
    by_contra hzero
    rw [wifiConfigAddSsidToHistory, if_pos (by omega)] at hok
    exact absurd hok (by simp)
  rw [state_of_added hpos hok, pushSsid, CStr.take_of_length_le hle]
  obtain ⟨h0, hc⟩ := get_historyEffects ssid (List.take (maxSsidHistory - 1)
    (((wifiConfigLoadSsidHistory.run nvs fs s).value.filter (· ≠ ssid)).map
      (CStr.take maxSsidLen))) s
  refine ⟨h0, _, ?_, hc⟩
  have hmax : maxSsidHistory = 5 := rfl
  rw [List.length_take]
  omega

/-- Adding an SSID fails exactly when a write fails: the history is taken for empty when
it cannot be read. -/
theorem wifiConfigAddSsidToHistory_ok_iff {ssid : CStr} (hpos : 0 < ssid.length)
    (fs : List (Option EspErr)) (s : Nvs) :
    ((wifiConfigAddSsidToHistory ssid).run nvs fs s).value = espOk ↔
      ∀ op ∈ (wifiConfigAddSsidToHistory ssid).failures nvs fs s, op.isRead = true := by
  unfold wifiConfigAddSsidToHistory
  rw [if_neg (by omega), Script.run_bind, Script.failures_bind,
    tryAll_ok_iff (historyCalls_writes _) (historyCalls_issues _)]
  constructor
  · intro h op hop
    rcases List.mem_append.mp hop with hop | hop
    · exact wifiConfigLoadSsidHistory_reads.failures fs s op hop
    · exact h op hop
  · exact fun h op hop => h op (List.mem_append_right _ hop)

/-! ### What setting the flag leaves -/

theorem wifiConfigSetProvisioned_writes (b : Bool) : WritesAll nvs
    [nvsOpenReadWrite, nvsSetU8 .provisioned (if b then 1 else 0), nvsCommit]
    [Nvs.opened, Nvs.set .provisioned (.u8 (if b then 1 else 0)), id] :=
  .cons writes_open (.cons (writes_setU8 _ _) (.cons writes_commit .nil))

theorem wifiConfigSetProvisioned_ok_iff (b : Bool) (fs : List (Option EspErr)) (s : Nvs) :
    ((wifiConfigSetProvisioned b).run nvs fs s).value = espOk ↔
      ∀ op ∈ (wifiConfigSetProvisioned b).failures nvs fs s, op.isRead = true :=
  tryAll_ok_iff (wifiConfigSetProvisioned_writes b) (wifiConfigSetProvisioned_issues b) fs s

/-- A flag that was set is set. -/
theorem provisioned_of_set {fs : List (Option EspErr)} {s : Nvs}
    (hok : ((wifiConfigSetProvisioned true).run nvs fs s).value = espOk) :
    ((wifiConfigSetProvisioned true).run nvs fs s).state.provisioned = true := by
  have hstate : ((wifiConfigSetProvisioned true).run nvs fs s).state = _ :=
    tryAll_state_of_ok (wifiConfigSetProvisioned_writes true) hok
  rw [hstate]
  unfold Nvs.provisioned
  simp

end WifiRepeater
