import WifiRepeater.Device.Repeater
import WifiRepeater.Json.RoundTrip
import WifiRepeater.Web.OutOfRange

/-!
# Provisioned implies configured

The flag that ends provisioning mode is set after the configuration was saved, by
another call.  So once it is set a complete and valid configuration is stored, as long
as nothing comes between the save and the flag.  The button does not ask whether a
request is being handled: an erase after the first set of a save takes back what was
saved, and the flag is set all the same.

A configuration is not yet one with the credentials of somebody's network.  A POST that
leaves them out is merged into what the handler has loaded, the defaults if nothing is
stored, and sets the flag over them; and a boot whose load fails goes on with the defaults
if only the flag can be read.

## Main definitions

* `OwnCredentials` — the credentials of the uplink are not those compiled in.
* `ProvisionedImpliesConfigured` — where the flag is set, a load finds the stored
  configuration, and a boot that skips provisioning runs on credentials of its own.
* `EraseOutsideSave` — no erase by the button falls between the first set of a save and
  the set of the flag.
* `PostsOwn`, `BootReads` — the bodies that post credentials, and the boots that read them.

## Main results

* `provisioned_implies_configured` — **every state reached by runs of such steps has the
  property.**
* `provisioned_unconfigured` — runs with other steps that have not.
-/

namespace WifiRepeater

open Script (tryAll Guards Contract Writes)

/-! ### The five keys -/

/-- The keys of the configuration. -/
def configKeys : List NvsKey := [.staSsid, .staPass, .apSsid, .apPass, .apMaxConn]

/-- A value that a valid configuration can have under a key. -/
def ValidFor : NvsKey → NvsValue → Prop
  | .staSsid, .str v | .apSsid, .str v => 0 < v.length ∧ v.length ≤ maxSsidLen
  | .staPass, .str v => v.length ≤ maxPasswordLen
  | .apPass, .str v => (v.length = 0 ∨ 8 ≤ v.length) ∧ v.length ≤ maxPasswordLen
  | .apMaxConn, .u8 n => 0 < n.toNat ∧ n.toNat ≤ 10
  | _, _ => False

/-- The credentials of the uplink are not those compiled in. -/
def OwnCredentials (st : Settings) : Prop :=
  ¬(st.staSsid = defaultSettings.staSsid ∧ st.staPassword = defaultSettings.staPassword)

instance (st : Settings) : Decidable (OwnCredentials st) := inferInstanceAs (Decidable ¬_)

/-- The store does not hold the credentials compiled in. -/
def StoresOwn (s : Nvs) : Prop :=
  ¬(s.get .staSsid = some (.str defaultSettings.staSsid) ∧
    s.get .staPass = some (.str defaultSettings.staPassword))

theorem storesOwn_iff {s : Nvs} {st : Settings} (h : storedSettings s = some st) :
    StoresOwn s ↔ OwnCredentials st := by
  obtain ⟨h1, h2, -⟩ := (storedSettings_eq_some_iff s st).mp h
  simp only [StoresOwn, OwnCredentials, h1, h2, Option.some.injEq, NvsValue.str.injEq]

/-- The store holds a complete and valid configuration. -/
def Configured (s : Nvs) : Prop := ∃ st, storedSettings s = some st ∧ st.Valid

/-- Validity is a matter of each key by itself. -/
theorem configured_iff (s : Nvs) :
    Configured s ↔ ∀ k ∈ configKeys, ∃ v, s.get k = some v ∧ ValidFor k v := by
  unfold Configured configKeys
  simp only [List.forall_mem_cons, List.not_mem_nil, false_imp_iff, implies_true, and_true,
    storedSettings_eq_some_iff]
  constructor
  · rintro ⟨st, ⟨h1, h2, h3, h4, h5⟩, hv⟩
    exact ⟨⟨_, h1, hv.staSsid_pos, hv.staSsid_le⟩, ⟨_, h2, hv.staPassword_le⟩,
      ⟨_, h3, hv.apSsid_pos, hv.apSsid_le⟩, ⟨_, h4, hv.apPassword_ge, hv.apPassword_le⟩,
      ⟨_, h5, hv.apMaxConnections_pos, hv.apMaxConnections_le⟩⟩
  · rintro ⟨⟨a, h1, v1⟩, ⟨b, h2, v2⟩, ⟨c, h3, v3⟩, ⟨d, h4, v4⟩, ⟨e, h5, v5⟩⟩
    -- a value of the wrong kind is valid for no key
    cases a with
    | u8 => exact v1.elim
    | str a =>
    cases b with
    | u8 => exact v2.elim
    | str b =>
    cases c with
    | u8 => exact v3.elim
    | str c =>
    cases d with
    | u8 => exact v4.elim
    | str d =>
    cases e with
    | str => exact v5.elim
    | u8 e =>
      exact ⟨⟨a, b, c, d, e⟩, ⟨h1, h2, h3, h4, h5⟩, v1.1, v1.2, v2, v3.1, v3.2, v4.1, v4.2, v5.1,
        v5.2⟩

theorem Configured.set {s : Nvs} (h : Configured s) {k : NvsKey} {v : NvsValue}
    (hv : ValidFor k v) : Configured (s.set k v) := by
  rw [configured_iff] at h ⊢
  intro k' hk'
  by_cases heq : k' = k
  · exact ⟨v, by rw [heq, Nvs.get_set_self], heq ▸ hv⟩
  · rw [Nvs.get_set_ne heq]
    exact h k' hk'

/-- The value of a configuration under each of its keys. -/
def Settings.value (st : Settings) : NvsKey → NvsValue
  | .staSsid => .str st.staSsid
  | .staPass => .str st.staPassword
  | .apSsid => .str st.apSsid
  | .apPass => .str st.apPassword
  | _ => .u8 st.apMaxConnections

theorem storedSettings_iff_value (s : Nvs) (st : Settings) :
    storedSettings s = some st ↔ ∀ k ∈ configKeys, s.get k = some (st.value k) := by
  rw [storedSettings_eq_some_iff]
  simp [configKeys, Settings.value]

theorem validFor_value {st : Settings} (hv : st.Valid) :
    ∀ k ∈ configKeys, ValidFor k (st.value k) := by
  have hst := storedSettings_saved none st
  intro k hk
  obtain ⟨v, hget, hvalid⟩ := (configured_iff _).mp ⟨st, hst, hv⟩ k hk
  rw [(storedSettings_iff_value _ st).mp hst k hk, Option.some.injEq] at hget
  exact hget ▸ hvalid

/-- The set of a value. -/
def nvsSet (k : NvsKey) : NvsValue → Prog EspResult
  | .str v => nvsSetStr k v
  | .u8 n => nvsSetU8 k n

/-- The call it makes. -/
def setOp (k : NvsKey) : NvsValue → NvsOp
  | .str v => .setStr k v
  | .u8 n => .setU8 k n

def writes_set (k : NvsKey) : (v : NvsValue) → Writes nvs (setOp k v) (nvsSet k v) (Nvs.set k v)
  | .str v => writes_setStr k v
  | .u8 n => writes_setU8 k n

theorem saveCalls_eq (st : Settings) : saveCalls st =
    nvsOpenReadWrite :: (configKeys.map (fun k => nvsSet k (st.value k)) ++ [nvsCommit]) := rfl

/-! ### The invariant -/

/-- Where the flag is set a configuration with credentials of its own is stored. -/
def FlagConfigured (s : Nvs) : Prop := s.provisioned = true → Configured s ∧ StoresOwn s

/-- What the button does to the store: nothing, or it erases everything. -/
def ErasedOrSame (s s' : Nvs) : Prop := (∀ k, s'.get k = s.get k) ∨ ∀ k, s'.get k = none

/-- What the handler expects of the button: between the first set of a save and that of the
flag, to leave every key alone. -/
def saveRely : Bool → Nvs → Nvs → Prop
  | true, s, s' => ∀ k, s'.get k = s.get k
  | false, s, s' => ErasedOrSame s s'

theorem saveRely_refl : ∀ g s, saveRely g s s := by
  intro g s
  cases g with
  | true => exact fun _ => rfl
  | false => exact .inl fun _ => rfl

theorem saveRely_trans : ∀ g s s' s'', saveRely g s s' → saveRely g s' s'' →
    saveRely g s s'' := by
  intro g s s' s'' h h'
  cases g with
  | true => exact fun k => (h' k).trans (h k)
  | false =>
    rcases h' with hsame' | herased'
    · rcases h with hsame | herased
      · exact .inl fun k => (hsame' k).trans (hsame k)
      · exact .inr fun k => (hsame' k).trans (herased k)
    · exact .inr herased'

theorem Configured.congr {s s' : Nvs} (h : Configured s) (hs : ∀ k, s'.get k = s.get k) :
    Configured s' := by
  rw [configured_iff] at h ⊢
  intro k hk
  rw [hs]
  exact h k hk

theorem FlagConfigured.congr {s s' : Nvs} (h : FlagConfigured s) (hs : ∀ k, s'.get k = s.get k) :
    FlagConfigured s' := by
  intro hflag
  unfold Nvs.provisioned at hflag
  rw [hs] at hflag
  obtain ⟨hconf, hown⟩ := h hflag
  refine ⟨hconf.congr hs, ?_⟩
  unfold StoresOwn
  rw [hs, hs]
  exact hown

/-- In an erased store the flag is not set. -/
theorem not_provisioned_of_erased {s : Nvs} (h : ∀ k, s.get k = none) :
    s.provisioned = false := by
  unfold Nvs.provisioned
  rw [h]
  rfl

theorem FlagConfigured.of_erasedOrSame {s s' : Nvs} (h : FlagConfigured s)
    (hs : ErasedOrSame s s') : FlagConfigured s' := by
  rcases hs with hsame | herased
  · exact h.congr hsame
  · intro hflag
    rw [not_provisioned_of_erased herased] at hflag
    cases hflag

/-- A valid value under a key of the configuration keeps the invariant, unless it completes the
credentials compiled in. -/
theorem FlagConfigured.set {s : Nvs} (h : FlagConfigured s) {k : NvsKey} {v : NvsValue}
    (hk : k ∈ configKeys) (hv : ValidFor k v)
    (hown : s.provisioned = true → StoresOwn (s.set k v)) : FlagConfigured (s.set k v) := by
  have hne : NvsKey.provisioned ≠ k := fun heq => by rw [← heq] at hk; exact absurd hk (by decide)
  intro hflag
  unfold Nvs.provisioned at hflag
  rw [Nvs.get_set_ne hne] at hflag
  exact ⟨(h hflag).1.set hv, hown hflag⟩

/-- The password under which the SSID may be set to that of the defaults. -/
def KeepsPassword (s : Nvs) : Prop :=
  s.provisioned = true → s.get .staPass ≠ some (.str defaultSettings.staPassword)

theorem KeepsPassword.of_erasedOrSame {s s' : Nvs} (h : KeepsPassword s)
    (hs : ErasedOrSame s s') : KeepsPassword s' := by
  rcases hs with hsame | herased
  · intro hflag
    unfold Nvs.provisioned at hflag
    rw [hsame] at hflag ⊢
    exact h hflag
  · intro hflag
    rw [not_provisioned_of_erased herased] at hflag
    cases hflag

theorem markSave_setOp {k : NvsKey} (hk : k ∈ configKeys) (v : NvsValue) :
    markSave true (setOp k v) = true := by
  have hne : k ≠ NvsKey.provisioned := fun heq => by rw [heq] at hk; exact absurd hk (by decide)
  cases v with
  | str v => cases k <;> rfl
  | u8 n => cases k <;> first | rfl | exact absurd rfl hne

/-! ### The handler keeps it -/

/-- The sets of a save that are still to do after that of the SSID, and the commit. -/
theorem sets_guards {st : Settings} (hv : st.Valid) (hown : OwnCredentials st) :
    ∀ (todo done : List NvsKey) (s : Nvs), done ++ todo = configKeys → .staSsid ∈ done →
      .staSsid ∉ todo → FlagConfigured s → (∀ k ∈ done, s.get k = some (st.value k)) →
      (tryAll (todo.map (fun k => nvsSet k (st.value k)) ++ [nvsCommit])).Guards nvs
        (contract FlagConfigured saveRely)
        (fun g r s => r = espOk → g = true ∧ storedSettings s = some st) true s := by
  intro todo
  induction todo with
  | nil =>
    intro done s hall _ _ hs hdone
    rw [List.append_nil] at hall
    refine writes_commit.guards (fun s' hs' => ⟨hs.congr hs', fun s'' hs'' _ => ⟨rfl, ?_⟩⟩)
      fun s' hs' => ⟨hs.congr hs', fun e s'' _ h => absurd h (by simp)⟩
    rw [storedSettings_iff_value, ← hall]
    intro k hk
    -- the button touches nothing here, so what was set is still there
    have h1 : s''.get k = s'.get k := hs'' k
    rw [h1, hs' k]
    exact hdone k hk
  | cons k todo ih =>
    intro done s hall hssid hnot hs hdone
    have hkey : k ∈ configKeys := hall ▸ List.mem_append_right _ List.mem_cons_self
    have hne : NvsKey.staSsid ≠ k := fun heq => hnot (heq ▸ List.mem_cons_self)
    refine (writes_set k (st.value k)).guards (fun s' hs' => ?_) fun s' hs' =>
      ⟨hs.congr hs', fun _ _ _ h => absurd h (by simp)⟩
    -- the SSID stands already, and the password is not set to complete the defaults
    have hstores : s'.provisioned = true → StoresOwn (s'.set k (st.value k)) := by
      intro hflag
      by_cases hpass : k = .staPass
      · subst hpass
        unfold StoresOwn
        rw [Nvs.get_set_ne hne, Nvs.get_set_self, hs' .staSsid, hdone _ hssid]
        simpa [Settings.value, OwnCredentials] using hown
      · unfold StoresOwn
        rw [Nvs.get_set_ne hne, Nvs.get_set_ne (Ne.symm hpass)]
        exact ((hs.congr hs') hflag).2
    -- the set is hit and changes nothing, or it writes a valid value
    have hinv := (hs.congr hs').set hkey (validFor_value hv k hkey) hstores
    refine ⟨hinv, ?_⟩
    show Guards nvs _ _ (markSave true (setOp k (st.value k))) _ _
    rw [markSave_setOp hkey]
    refine ih (done ++ [k]) _ (by simpa using hall) (List.mem_append_left _ hssid)
      (fun hmem => hnot (List.mem_cons_of_mem _ hmem)) hinv fun k' hk' => ?_
    by_cases heq : k' = k
    · rw [heq, Nvs.get_set_self]
    · rw [Nvs.get_set_ne heq, hs' k']
      rcases List.mem_append.mp hk' with hold | hnew
      · exact hdone k' hold
      · exact absurd (List.mem_singleton.mp hnew) heq

/-- **A save of credentials of one's own keeps the invariant** and, when it succeeds, leaves
its configuration. -/
theorem save_guards {st : Settings} (hv : st.Valid) (hown : OwnCredentials st) {s : Nvs}
    (hs : FlagConfigured s) (hssid : st.staSsid ≠ defaultSettings.staSsid ∨ KeepsPassword s) :
    (tryAll (saveCalls st)).Guards nvs (contract FlagConfigured saveRely)
      (fun g r s => r = espOk → g = true ∧ storedSettings s = some st) false s := by
  have hkeep : ∀ {s s' : Nvs}, (st.staSsid ≠ defaultSettings.staSsid ∨ KeepsPassword s) →
      ErasedOrSame s s' → (st.staSsid ≠ defaultSettings.staSsid ∨ KeepsPassword s') :=
    fun h hs => h.imp_right fun hp => hp.of_erasedOrSame hs
  rw [saveCalls_eq]
  refine writes_open.guards (fun s' hs' => ?_) fun s' hs' =>
    ⟨hs.of_erasedOrSame hs', fun _ _ _ h => absurd h (by simp)⟩
  have hopen := (hs.of_erasedOrSame hs').congr (Nvs.get_opened s')
  have hssid' := hkeep (hkeep hssid hs') (.inl (Nvs.get_opened s'))
  refine ⟨hopen, ?_⟩
  -- the first set is where the button has to stop
  show Guards nvs _ _ false (tryAll (_ :: _)) _
  refine (writes_set .staSsid (st.value .staSsid)).guards (fun s'' hs'' => ?_) fun s'' hs'' =>
    ⟨hopen.of_erasedOrSame hs'', fun _ _ _ h => absurd h (by simp)⟩
  have hstores : s''.provisioned = true → StoresOwn (s''.set .staSsid (st.value .staSsid)) := by
    intro hflag hboth
    rw [Nvs.get_set_self, Nvs.get_set_ne (by decide)] at hboth
    rcases hkeep hssid' hs'' with hne | hpass
    · exact hne (NvsValue.str.inj (Option.some.inj hboth.1))
    · exact hpass hflag hboth.2
  have hinv := (hopen.of_erasedOrSame hs'').set (by decide)
    (validFor_value hv .staSsid (by decide)) hstores
  refine ⟨hinv, sets_guards hv hown _ [.staSsid] _ rfl (by decide) (by decide) hinv fun k hk => ?_⟩
  rw [List.mem_singleton.mp hk, Nvs.get_set_self]

/-- A configuration that is stored makes the invariant hold. -/
theorem flagConfigured_of_stored {s : Nvs} {st : Settings} (hv : st.Valid)
    (hown : OwnCredentials st) (h : storedSettings s = some st) : FlagConfigured s :=
  fun _ => ⟨⟨st, h, hv⟩, (storesOwn_iff h).mpr hown⟩

theorem storedSettings_congr_get {s s' : Nvs} (h : ∀ k, s'.get k = s.get k) :
    storedSettings s' = storedSettings s := storedSettings_congr fun k _ _ => h k

/-- **The updates after the save keep the invariant.** -/
theorem record_guards {c : RepeaterConfig} (hv : c.settings.Valid)
    (hown : OwnCredentials c.settings) {s : Nvs} (hs : storedSettings s = some c.settings) :
    Keeps FlagConfigured saveRely true (recordSaved c) s := by
  have hadd : (wifiConfigAddSsidToHistory c.settings.staSsid).Guards nvs
      (contract FlagConfigured saveRely)
      (fun g _ s => g = true ∧ storedSettings s = some c.settings) true s := by
    refine Script.guards_of_issues (A := fun g s => g = true ∧ storedSettings s = some c.settings)
      ?_ ?_ (fun _ _ h => flagConfigured_of_stored hv hown h.2)
      (wifiConfigAddSsidToHistory_writesOnly _) ⟨rfl, hs⟩
    · rintro g s s' ⟨rfl, h⟩ hr
      exact ⟨rfl, (storedSettings_congr_get hr).trans h⟩
    · rintro op hop f g s ⟨rfl, h⟩
      refine ⟨?_, ?_⟩
      · -- the flag is none of the keys of the history
        have hflag := hop .provisioned id
        cases op with
        | setU8 k v => cases k <;> first | rfl | exact absurd rfl hflag
        | setStr k v => cases k <;> rfl
        | openReadOnly | openReadWrite | getStr | getU8 | eraseAll | commit => rfl
      · rw [← h]
        exact storedSettings_congr fun k hk _ => exec_of_keeps (hop k hk) f s
  refine Script.guards_bind saveRely_refl (hadd.mono ?_)
  rintro g r s ⟨rfl, hs⟩
  have hflag : (wifiConfigSetProvisioned true).Guards nvs (contract FlagConfigured saveRely)
      (fun _ _ _ => True) true s := by
    have hkeep : ∀ s', saveRely true s s' → storedSettings s' = some c.settings :=
      fun s' hs' => (storedSettings_congr_get hs').trans hs
    refine writes_open.guards (fun s' hs' => ?_) fun s' hs' =>
      ⟨flagConfigured_of_stored hv hown (hkeep s' hs'), fun _ _ _ => trivial⟩
    have hopen : storedSettings s'.opened = some c.settings :=
      (storedSettings_congr_get (Nvs.get_opened s')).trans (hkeep s' hs')
    refine ⟨flagConfigured_of_stored hv hown hopen, ?_⟩
    refine (writes_setU8 .provisioned 1).guards (fun s'' hs'' => ?_) fun s'' hs'' =>
      ⟨flagConfigured_of_stored hv hown ((storedSettings_congr_get hs'').trans hopen),
        fun _ _ _ => trivial⟩
    -- what was saved is still there when the flag is set
    have hset : storedSettings (s''.set .provisioned (.u8 1)) = some c.settings := by
      rw [← hopen, ← storedSettings_congr_get hs'']
      exact storedSettings_congr fun k _ hk => Nvs.get_set_ne hk _ _
    have hinv := flagConfigured_of_stored hv hown hset
    exact ⟨hinv, writes_commit.guards
      (fun s₃ hs₃ => ⟨hinv.of_erasedOrSame hs₃, fun _ _ => trivial⟩) fun s₃ hs₃ =>
        ⟨hinv.of_erasedOrSame hs₃, fun _ _ _ => trivial⟩⟩
  exact Script.guards_bind saveRely_refl (hflag.mono fun _ _ _ _ _ _ => trivial)

/-- The body posts credentials: another SSID than that of the defaults, or another password
where it cannot meet the defaults' one in a store with the flag. -/
def PostsOwn (root : CJson) (s : Nvs) : Prop :=
  (∃ v ∈ postedString root "sta_ssid", v.take maxSsidLen ≠ defaultSettings.staSsid) ∨
    (∃ v ∈ postedPassword root "sta_pass", v.take maxPasswordLen ≠ defaultSettings.staPassword) ∧
      KeepsPassword s

theorem PostsOwn.of_erasedOrSame {root : CJson} {s s' : Nvs} (h : PostsOwn root s)
    (hs : ErasedOrSame s s') : PostsOwn root s' :=
  h.imp_right fun hpass => ⟨hpass.1, hpass.2.of_erasedOrSame hs⟩

/-- What such a body leaves has its credentials, whatever it is merged into. -/
theorem PostsOwn.merged {root : CJson} {s : Nvs} (h : PostsOwn root s) (st : Settings) :
    OwnCredentials (merged root st) ∧
      ((merged root st).staSsid ≠ defaultSettings.staSsid ∨ KeepsPassword s) := by
  rcases h with ⟨v, hv, hne⟩ | ⟨⟨v, hv, hne⟩, hpass⟩
  · have hssid : (WifiRepeater.merged root st).staSsid = v.take maxSsidLen := by
      rw [WifiRepeater.merged, Option.mem_def.mp hv]
      rfl
    exact ⟨fun hboth => hne (hssid ▸ hboth.1), .inl (hssid ▸ hne)⟩
  · have hpassword : (WifiRepeater.merged root st).staPassword = v.take maxPasswordLen := by
      rw [WifiRepeater.merged, Option.mem_def.mp hv]
      rfl
    exact ⟨fun hboth => hne (hpassword ▸ hboth.2), .inr hpass⟩

/-- **The handler of `POST /api/config` keeps the invariant** if the body, when its values can
be saved, posts credentials. -/
theorem apiConfigPostHandler_keeps (P : CJsonParser) (req : Request) (c₀ : RepeaterConfig) {s : Nvs}
    (hs : FlagConfigured s)
    (hposts : ∀ root ∈ (recvBody req).bind P.parse, req.contentLen < 1024 → CutInRange root →
      PostsOwn root s) :
    Keeps FlagConfigured saveRely false (apiConfigPostHandler P req c₀) s := by
  -- what holds while the handler reads
  let Ready : Nvs → Prop := fun s => FlagConfigured s ∧
    ∀ root ∈ (recvBody req).bind P.parse, req.contentLen < 1024 → CutInRange root → PostsOwn root s
  have hready : ∀ {s s' : Nvs}, Ready s → ErasedOrSame s s' → Ready s' := fun h hr =>
    ⟨h.1.of_erasedOrSame hr, fun root hroot hlen hin =>
      (h.2 root hroot hlen hin).of_erasedOrSame hr⟩
  refine apiConfigPostHandler_guards saveRely_refl (L := fun c s => Ready s ∧ c.settings.Valid)
    (W := fun c g s => g = true ∧ c.settings.Valid ∧ OwnCredentials c.settings ∧
      storedSettings s = some c.settings) ?_ ?_ ?_ ?_
  · have hload : (loadOrDefault c₀).Guards nvs (contract FlagConfigured saveRely)
        (fun g _ s => g = false ∧ Ready s) false s := by
      refine Script.guards_of_issues (A := fun g s => g = false ∧ Ready s) ?_ ?_
        (fun _ _ h => h.2.1) (loadOrDefault_reads c₀) ⟨rfl, hs, hposts⟩
      · rintro g s s' ⟨rfl, h⟩ hr
        exact ⟨rfl, hready h hr⟩
      · rintro op hop f g s ⟨rfl, h⟩
        rw [exec_of_isRead hop]
        exact ⟨markSave_of_isRead hop false, h⟩
    exact (hload.and_returns (loadOrDefault_returns c₀)).mono fun _ _ _ h =>
      ⟨h.1.1, h.1.2, h.2⟩
  · intro root c s hlen hroot hc hv
    have hterm := RepeaterConfig.terminated_of_valid hc.2
    obtain ⟨hin, hzero⟩ := (valid_updateConfig_cut_iff hterm hc.2).mp hv
    obtain ⟨hown, hssid⟩ := (hc.1.2 root hroot hlen hin).merged c.settings
    rw [← settings_updateConfig_cut hterm hzero] at hown hssid
    exact (save_guards hv hown hc.1.1 hssid).mono fun _ _ _ h hok =>
      ⟨(h hok).1, hv, hown, (h hok).2⟩
  · rintro c g s s' ⟨rfl, hv, hown, hst⟩ hr
    exact ⟨rfl, hv, hown, (storedSettings_congr_get hr).trans hst⟩
  · rintro c g s ⟨rfl, hv, hown, hst⟩
    exact record_guards hv hown hst

/-! ### Every run -/

/-- No erase by the button takes effect while the handler of a request is between the first
set of a save and the set of the flag. -/
def EraseOutsideSave (s : Repeater) : Event → Prop
  | .buttonCall none =>
      match s.button with
      | some (.call .eraseAll _) => s.inSave = false
      | _ => True
  | _ => True

instance (s : Repeater) (e : Event) : Decidable (EraseOutsideSave s e) := by
  unfold EraseOutsideSave
  split
  · split <;> infer_instance
  · infer_instance

/-- A boot that reads the flag has read the configuration: if one of the calls of the load
fails, one of the two that read the flag fails as well. -/
def BootReads (fs : List (Option EspErr)) : Prop :=
  (∀ i < 6, fs.getD i none = none) ∨ ∃ i < 2, (fs.getD (loadCalls fs + i) none).isSome = true

instance (fs : List (Option EspErr)) : Decidable (BootReads fs) :=
  inferInstanceAs (Decidable (_ ∨ _))

instance (root : CJson) (s : Nvs) : Decidable (PostsOwn root s) := by
  unfold PostsOwn KeepsPassword
  infer_instance

instance (root : CJson) : Decidable (CutInRange root) :=
  decidable_of_iff ((∀ v ∈ postedString root "sta_ssid", 0 < v.length) ∧
      (∀ v ∈ postedString root "ap_ssid", 0 < v.length) ∧
      (∀ v ∈ postedPassword root "ap_pass", 8 ≤ v.length) ∧
      ∀ v ∈ postedNumber root "ap_max_conn",
        0 < (uint8Cast (valueint v)).toNat ∧ (uint8Cast (valueint v)).toNat ≤ 10)
    ⟨fun h => ⟨h.1, h.2.1, h.2.2.1, h.2.2.2⟩, fun h => ⟨h.1, h.2, h.3, h.4⟩⟩

/-- The steps that keep credentials of one's own under the flag: a boot of a device with the
flag reads them, a POST whose values can be saved posts them, and the button does not erase
them in the middle of a save. -/
def KeepsCredentials (E : WebEnv) (s : Repeater) : Event → Prop
  | .boot flashErased _ _ faults =>
      flashErased = false → s.store.provisioned = true → BootReads faults
  | .request r => route r.uri r.method = .handler .apiConfigPostHandler →
      ∀ root ∈ (recvBody r.message).bind E.parser.parse, r.message.contentLen < 1024 →
        CutInRange root → PostsOwn root s.store
  | .buttonCall fault => EraseOutsideSave s (.buttonCall fault)
  | .httpCall _ | .press => True

instance (E : WebEnv) (s : Repeater) (e : Event) : Decidable (KeepsCredentials E s e) := by
  unfold KeepsCredentials
  split <;> infer_instance

/-- Where the device takes itself for provisioned, a load finds the configuration that is
stored, which is none of the defaults' credentials; and a boot that has skipped provisioning
runs on such. -/
structure ProvisionedImpliesConfigured (s : Repeater) : Prop where
  stored : (wifiConfigHasStaCredentials.run nvs [] s.store).value = true →
    ∃ st, storedSettings s.store = some st ∧ OwnCredentials st ∧ ∀ c₀ : RepeaterConfig,
      ((wifiConfigLoad c₀).run nvs [] s.store).value.1 = espOk ∧
        ((wifiConfigLoad c₀).run nvs [] s.store).value.2.settings = st
  boot : ∀ b ∈ s.boot, b.provisioning = false →
    OwnCredentials b.loaded.settings ∧ b.sta = some (staConfig b.loaded.settings)

/-- **A boot runs on what is stored** if it skips provisioning. -/
theorem boot_runs_own {s : Nvs} (hs : FlagConfigured s) {fs : List (Option EspErr)}
    (hfs : s.provisioned = true → BootReads fs) (c₀ : RepeaterConfig) (behind : List UInt8) :
    let b := ((wifiInitRepeater c₀ behind).run nvs fs s).value
    b.provisioning = false →
      OwnCredentials b.loaded.settings ∧ b.sta = some (staConfig b.loaded.settings) := by
  intro b hskip
  obtain ⟨hflag, hsta⟩ := run_wifiInitRepeater_sta c₀ behind fs s
  have hloaded := (run_wifiInitRepeater c₀ behind fs s).1
  rw [hskip] at hflag hsta
  -- the flag was read, so it is set, and neither of its two calls has failed
  obtain ⟨hget, hread⟩ := wifiConfigHasStaCredentials_true (by simpa using hflag.symm)
  have hset : s.provisioned = true := by
    unfold Nvs.provisioned
    rw [hget]
    rfl
  obtain ⟨⟨st, hst, hv⟩, hown⟩ := hs hset
  refine ⟨?_, hsta⟩
  rcases hfs hset with hclear | ⟨i, hi, hhit⟩
  · rw [hloaded, (run_wifiConfigLoad_clear c₀ hclear hst hv).2]
    exact (storesOwn_iff hst).mp hown
  · have hnone := hread i hi
    rw [faults_wifiConfigLoad c₀ fs (ne_none_of_storedSettings hst), ← headD_drop,
      List.drop_drop, headD_drop] at hnone
    rw [hnone] at hhit
    cases hhit

/-- What the button's calls do. -/
theorem erasedOrSame_exec {op : NvsOp} (hop : IsEraseCall op) (f : Option EspErr) (s : Nvs) :
    ErasedOrSame s (nvs.exec op f s).2 ∧
      ((f = none → op ≠ .eraseAll) → ∀ k, (nvs.exec op f s).2.get k = s.get k) := by
  cases f with
  | some e => exact ⟨.inl fun _ => rfl, fun _ _ => rfl⟩
  | none =>
    cases op with
    | openReadWrite => exact ⟨.inl (Nvs.get_opened s), fun _ => Nvs.get_opened s⟩
    | commit => exact ⟨.inl fun _ => rfl, fun _ _ => rfl⟩
    | eraseAll =>
      refine ⟨.inr fun k => ?_, fun h => absurd rfl (h rfl)⟩
      rw [exec_none, NvsOp.perform]
      exact Nvs.get_erased s k
    | openReadOnly | getStr | getU8 | setStr | setU8 => exact hop.elim

theorem flagConfigured_sound (E : WebEnv) :
    Sound E FlagConfigured saveRely
      (fun b => b.provisioning = false →
        OwnCredentials b.loaded.settings ∧ b.sta = some (staConfig b.loaded.settings))
      (KeepsCredentials E) where
  refl := saveRely_refl
  trans := saveRely_trans
  empty hflag := absurd hflag (by decide)
  boot s flashErased c₀ behind fs hok hs := by
    refine boot_runs_own hs (fun hflag => ?_) c₀ behind
    cases flashErased with
    | true =>
      rw [if_pos rfl] at hflag
      exact absurd hflag (by decide)
    | false => exact hok rfl hflag
  serve s provisioning r hok hs := serve_guards (fun _ _ h hr => h.of_erasedOrSame hr)
    (fun _ hop f s h => h.of_erasedOrSame (erasedOrSame_exec hop f s).1) provisioning r hs
    fun hroute => apiConfigPostHandler_keeps E.parser r.message r.leftover hs (hok hroute)
  button s op next f hcall hok hop hs := by
    obtain ⟨herased, hsame⟩ := erasedOrSame_exec hop f s.store
    refine ⟨hs.of_erasedOrSame herased, ?_⟩
    -- outside of a save the button may erase what it likes
    cases hsave : s.inSave with
    | false => exact herased
    | true =>
      refine hsame fun hf hop => ?_
      subst hf hop
      -- the run admits no such erase here
      change EraseOutsideSave s (.buttonCall none) at hok
      unfold EraseOutsideSave at hok
      rw [hcall] at hok
      exact absurd (hsave.symm.trans hok) (by decide)

/-- **Provisioned implies configured**, in every state reached by runs in which a device with
the flag reads its credentials at a boot, a POST that is saved posts credentials, and the
button erases nothing between the first set of a save and the set of the flag. -/
theorem provisioned_implies_configured (E : WebEnv) {s : Repeater}
    (h : Machine.Reach (step E) (KeepsCredentials E) factory s) :
    ProvisionedImpliesConfigured s where
  stored hflag := by
    rw [run_wifiConfigHasStaCredentials] at hflag
    obtain ⟨⟨st, hst, hv⟩, hown⟩ := ((flagConfigured_sound E).reach h).store hflag
    exact ⟨st, hst, (storesOwn_iff hst).mp hown, fun c₀ =>
      run_wifiConfigLoad_clear c₀ (by simp) hst hv⟩
  boot := ((flagConfigured_sound E).reach h).boot

/-- The server with cJSON in it. -/
def cjsonEnv : WebEnv :=
  { bareEnv with parser := Json.cJsonParser Json.wholeDoubles Buf.zero }

/-- A set-up without anybody at the button: seventeen calls; and the boot that follows. -/
def setupEvents (body : List UInt8) : List Event :=
  [firstBoot, .request (postRequest body wifiConfigGetDefault)] ++
    List.replicate 17 (.httpCall none) ++ [firstBoot]

/-- A long press during the set-up: the erase takes effect after the first set of the
save. -/
def pressedEvents : List Event :=
  [firstBoot, .request (postRequest homeText.bytes wifiConfigGetDefault)] ++
    List.replicate 3 (.httpCall none) ++ [.press, .buttonCall none, .buttonCall none] ++
    List.replicate 14 (.httpCall none)

/-- After the set-up the device is provisioned and configured, and it boots as such. -/
theorem setup_configures :
    ∃ s, Machine.exec (step cjsonEnv) factory (setupEvents homeText.bytes) = some s ∧
      (∃ b ∈ s.boot, b.provisioning = false ∧ b.loaded.settings.staSsid = .lit "Home") ∧
      s.store.provisioned = true ∧ ProvisionedImpliesConfigured s := by
  have hany : (Machine.exec (step cjsonEnv) factory (setupEvents homeText.bytes)).any
      fun s => s.store.provisioned && s.boot.any fun b =>
        !b.provisioning && b.loaded.settings.staSsid = .lit "Home" := by decide +kernel
  obtain ⟨s, hs, hboth⟩ := (Option.any_eq_true _ _).mp hany
  rw [Bool.and_eq_true] at hboth
  obtain ⟨b, hb, hhome⟩ := (Option.any_eq_true _ _).mp hboth.2
  rw [Bool.and_eq_true, Bool.not_eq_true', decide_eq_true_eq] at hhome
  exact ⟨s, hs, ⟨b, hb, hhome⟩, hboth.1, provisioned_implies_configured cjsonEnv
    (Machine.reach_of_exec (by decide +kernel) hs)⟩

/-- **Provisioned without a configuration**: after an erase in the middle of a save the flag
is set and nothing is stored; and after a POST of an empty object the next boot runs on the
defaults. -/
theorem provisioned_unconfigured :
    (∃ s, Machine.exec (step cjsonEnv) factory pressedEvents = some s ∧
      ¬ProvisionedImpliesConfigured s) ∧
    ∃ s, Machine.exec (step cjsonEnv) factory (setupEvents (CStr.lit "\x7b\x7d").bytes) = some s ∧
      (∃ b ∈ s.boot, b.provisioning = false ∧ ¬OwnCredentials b.loaded.settings) ∧
      ¬ProvisionedImpliesConfigured s := by
  constructor
  · have hany : (Machine.exec (step cjsonEnv) factory pressedEvents).any
        fun s => s.store.provisioned && (storedSettings s.store).isNone := by decide +kernel
    obtain ⟨s, hs, hbad⟩ := (Option.any_eq_true _ _).mp hany
    rw [Bool.and_eq_true, Option.isNone_iff_eq_none] at hbad
    refine ⟨s, hs, fun h => ?_⟩
    obtain ⟨st, hst, -⟩ := h.stored ((run_wifiConfigHasStaCredentials _).trans hbad.1)
    rw [hbad.2] at hst
    cases hst
  · have hany : (Machine.exec (step cjsonEnv) factory
        (setupEvents (CStr.lit "\x7b\x7d").bytes)).any
          fun s => s.boot.any fun b =>
            !b.provisioning && !decide (OwnCredentials b.loaded.settings) := by
      decide +kernel
    obtain ⟨s, hs, hbad⟩ := (Option.any_eq_true _ _).mp hany
    obtain ⟨b, hb, hdefault⟩ := (Option.any_eq_true _ _).mp hbad
    rw [Bool.and_eq_true, Bool.not_eq_true', Bool.not_eq_true', decide_eq_false_iff_not] at hdefault
    exact ⟨s, hs, ⟨b, hb, hdefault⟩, fun h => hdefault.2 (h.boot b hb hdefault.1).1⟩

end WifiRepeater
