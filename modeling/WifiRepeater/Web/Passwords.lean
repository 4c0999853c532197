import WifiRepeater.Lib.Coupled
import WifiRepeater.Web.ConfigJson

/-!
# What the answers tell of the passwords

`GET /api/config` leaves the Wi-Fi passwords out of its answer.  That is not all there is to
it: a request that posts other values is merged into the configuration in force, and so
whether it is accepted could depend on the passwords that are kept.  The API is run on two
stores that differ in their passwords alone, and gives the same answers to all requests.
What can be told apart is only a password that is not in range, which makes the device fall
back to its defaults, and one that fills its array, which puts a terminator over the last
byte of it.

## Main definitions

* `Alike` — passwords that are in range, and both or neither fill the array.
* `PasswordsApart` — stores that differ in such passwords.
* `AkinConfig` — what is loaded of them into one struct.

## Main results

* `coupled_serve` — **a request is answered alike.**
* `passwords_not_told` — **no sequence of requests tells the passwords**, with any calls of
  the store failing and anything left over on the stack.
* `full_password_told` — a request that tells whether a password fills its array.
-/

namespace WifiRepeater

open Script (Coupled coupled_call coupled_done coupled_of_issues coupled_tryAll tryAll)

/-! ### Stores that differ in their passwords -/

/-- The values in range of the two keys that hold a Wi-Fi password. -/
def IsPassword : NvsKey → CStr → Prop
  | .staPass, v => v.length ≤ maxPasswordLen
  | .apPass, v => (v.length = 0 ∨ 8 ≤ v.length) ∧ v.length ≤ maxPasswordLen
  | .staSsid, _ | .apSsid, _ | .apMaxConn, _ | .dashUser, _ | .dashPass, _ | .histCount, _
  | .histSsid _, _ | .provisioned, _ => False

theorem IsPassword.length_le {k : NvsKey} {v : CStr} (h : IsPassword k v) :
    v.length ≤ maxPasswordLen := by
  cases k with
  | staPass => exact h
  | apPass => exact h.2
  | staSsid | apSsid | apMaxConn | dashUser | dashPass | histCount | histSsid | provisioned =>
    exact h.elim

/-- Two passwords that are not told apart. -/
structure Alike (k : NvsKey) (a b : CStr) : Prop where
  left : IsPassword k a
  right : IsPassword k b
  full : a.length = maxPasswordLen ↔ b.length = maxPasswordLen

theorem Alike.symm {k : NvsKey} {a b : CStr} (h : Alike k a b) : Alike k b a :=
  ⟨h.right, h.left, h.full.symm⟩

/-- What two stores hold under a key: the same, or passwords that are not told apart. -/
def SameOrAlike (k : NvsKey) (x y : Option NvsValue) : Prop :=
  x = y ∨ ∃ a b, x = some (.str a) ∧ y = some (.str b) ∧ Alike k a b

/-- The stores differ in their passwords alone. -/
structure PasswordsApart (s t : Nvs) : Prop where
  created : s.isSome = t.isSome
  get : ∀ k, SameOrAlike k (s.get k) (t.get k)

theorem PasswordsApart.get_eq {s t : Nvs} (h : PasswordsApart s t) {k : NvsKey}
    (hk : ∀ v, ¬IsPassword k v) : s.get k = t.get k := by
  rcases h.get k with heq | ⟨a, b, -, -, halike⟩
  · exact heq
  · exact absurd halike.left (hk a)

/-- A key set to values that are the same or alike. -/
theorem PasswordsApart.set {s t : Nvs} (h : PasswordsApart s t) {k : NvsKey} {v w : NvsValue}
    (hvw : SameOrAlike k (some v) (some w)) : PasswordsApart (s.set k v) (t.set k w) := by
  refine ⟨rfl, fun k' => ?_⟩
  rcases eq_or_ne k' k with rfl | hne
  · rwa [Nvs.get_set_self, Nvs.get_set_self]
  · rw [Nvs.get_set_ne hne, Nvs.get_set_ne hne]
    exact h.get k'

/-- A byte read is the same. -/
theorem PasswordsApart.readU8 {s t : Nvs} (h : PasswordsApart s t) (k : NvsKey) :
    s.readU8 k = t.readU8 k := by
  unfold Nvs.readU8
  rcases h.get k with heq | ⟨a, b, hs, ht, -⟩
  · rw [heq]
  · rw [hs, ht]

/-! ### Calls that are answered alike -/

/-- The call reads no password. -/
def NvsOp.NoPassword : NvsOp → Prop
  | getStr k _ => ∀ v, ¬IsPassword k v
  | openReadOnly | openReadWrite | getU8 _ | setStr .. | setU8 .. | eraseAll | commit => True

/-- **Such a call is answered alike**, whether it fails or not. -/
theorem PasswordsApart.exec {s t : Nvs} (h : PasswordsApart s t) {op : NvsOp}
    (hop : op.NoPassword) (f : Option EspErr) :
    (nvs.exec op f s).1 = (nvs.exec op f t).1 ∧
      PasswordsApart (nvs.exec op f s).2 (nvs.exec op f t).2 := by
  cases f with
  | some e => exact ⟨rfl, h⟩
  | none =>
    rw [exec_none, exec_none]
    cases op with
    | openReadOnly =>
      have hcreated := h.created
      cases s with
      | none =>
        cases t with
        | none => exact ⟨rfl, h⟩
        | some m => cases hcreated
      | some m =>
        cases t with
        | none => cases hcreated
        | some m' => exact ⟨rfl, h⟩
    | openReadWrite =>
      refine ⟨rfl, rfl, fun k => ?_⟩
      rw [NvsOp.perform, NvsOp.perform, Nvs.get_opened, Nvs.get_opened]
      exact h.get k
    | getStr k size =>
      have hs := exec_of_isRead (rfl : (NvsOp.getStr k size).isRead = true) none s
      have ht := exec_of_isRead (rfl : (NvsOp.getStr k size).isRead = true) none t
      rw [exec_none] at hs ht
      rw [hs, ht]
      refine ⟨?_, h⟩
      simp only [NvsOp.perform, h.get_eq hop]
      split
      · split <;> rfl
      · rfl
    | getU8 k =>
      have hs := exec_of_isRead (rfl : (NvsOp.getU8 k).isRead = true) none s
      have ht := exec_of_isRead (rfl : (NvsOp.getU8 k).isRead = true) none t
      rw [exec_none] at hs ht
      rw [hs, ht]
      refine ⟨?_, h⟩
      rcases h.get k with heq | ⟨a, b, hsk, htk, -⟩
      · simp only [NvsOp.perform, heq]
        split <;> rfl
      · simp only [NvsOp.perform, hsk, htk]
        rfl
    | setStr k v => exact ⟨rfl, h.set (.inl rfl)⟩
    | setU8 k v => exact ⟨rfl, h.set (.inl rfl)⟩
    | eraseAll =>
      refine ⟨rfl, ?_, fun k => .inl ?_⟩
      · have hcreated := h.created
        cases s <;> cases t <;> first | rfl | cases hcreated
      · rw [NvsOp.perform, NvsOp.perform, Nvs.get_erased, Nvs.get_erased]
    | commit => exact ⟨rfl, h⟩

theorem NvsOp.noPassword_of_isRead_eq_false {op : NvsOp} (h : op.isRead = false) :
    op.NoPassword := by
  cases op with
  | getStr k size => cases h
  | openReadOnly | openReadWrite | getU8 | setStr | setU8 | eraseAll | commit => exact trivial

/-- A program that reads no password does and answers the same on both stores. -/
theorem coupled_of_noPassword {α : Type} {m : Prog α} (h : m.Issues NvsOp.NoPassword) :
    Coupled nvs PasswordsApart Eq m m :=
  coupled_of_issues h fun _ hop f _ _ hst => hst.exec hop f

theorem coupled_openReadOnly : Coupled nvs PasswordsApart Eq nvsOpenReadOnly nvsOpenReadOnly :=
  coupled_of_noPassword ⟨trivial, fun _ => trivial⟩

theorem nvsGetStr_noPassword {n : ℕ} {k : NvsKey} (hk : ∀ v, ¬IsPassword k v) (buf : Buf n) :
    (nvsGetStr k buf).Issues NvsOp.NoPassword := by
  refine ⟨hk, fun (r : Except EspErr { s : CStr // s.length < n }) => ?_⟩
  cases r <;> exact trivial

theorem nvsGetU8_noPassword (k : NvsKey) : (nvsGetU8 k).Issues NvsOp.NoPassword := by
  refine ⟨trivial, fun (r : Except EspErr UInt8) => ?_⟩
  cases r <;> exact trivial

theorem loadEntries_noPassword : ∀ n i : ℕ, (loadEntries n i).Issues NvsOp.NoPassword := by
  intro n
  induction n with
  | zero => intro i; exact trivial
  | succ n ih =>
    intro i
    exact (nvsGetStr_noPassword (fun _ => id) _).bind fun _ => (ih _).bind fun _ => trivial

theorem wifiConfigLoadSsidHistory_noPassword :
    wifiConfigLoadSsidHistory.Issues NvsOp.NoPassword := by
  refine ⟨trivial, fun (r : EspResult) => ?_⟩
  cases r with
  | error e => exact trivial
  | ok _ => exact (nvsGetU8_noPassword _).bind fun _ => loadEntries_noPassword _ _

theorem wifiConfigAddSsidToHistory_noPassword (ssid : CStr) :
    (wifiConfigAddSsidToHistory ssid).Issues NvsOp.NoPassword := by
  unfold wifiConfigAddSsidToHistory
  split_ifs
  · exact trivial
  · exact wifiConfigLoadSsidHistory_noPassword.bind fun _ =>
      (historyCalls_issues _).mono fun _ h => NvsOp.noPassword_of_isRead_eq_false h.1

theorem wifiConfigSetProvisioned_noPassword (b : Bool) :
    (wifiConfigSetProvisioned b).Issues NvsOp.NoPassword :=
  (wifiConfigSetProvisioned_issues b).mono fun _ h => NvsOp.noPassword_of_isRead_eq_false h.1

theorem wifiConfigErase_noPassword : wifiConfigErase.Issues NvsOp.NoPassword := by
  refine Script.issues_tryAll fun m hm => ?_
  simp only [List.mem_cons, List.not_mem_nil, or_false] at hm
  rcases hm with rfl | rfl | rfl <;> exact ⟨trivial, fun _ => trivial⟩

theorem wifiConfigVerifyAuth_noPassword (username password : CStr) :
    (wifiConfigVerifyAuth username password).Issues NvsOp.NoPassword := by
  refine Script.Issues.bind ⟨trivial, fun (r : EspResult) => ?_⟩ fun _ => trivial
  cases r with
  | error e => exact trivial
  | ok _ =>
    exact (nvsGetStr_noPassword (fun _ => id) _).bind fun _ =>
      (nvsGetStr_noPassword (fun _ => id) _).bind fun _ => trivial

/-! ### Configurations that differ in their passwords -/

/-- Password arrays: the same, or both end in themselves, hold passwords that are not told
apart, and have the same last byte. -/
def AkinBuf (k : NvsKey) (b b' : Buf (maxPasswordLen + 1)) : Prop :=
  b = b' ∨ 0 ∈ b.bytes ∧ 0 ∈ b'.bytes ∧ Alike k b.str b'.str ∧
    b.get maxPasswordLen = b'.get maxPasswordLen

/-- Configurations that differ in their passwords alone. -/
structure AkinConfig (c c' : RepeaterConfig) : Prop where
  staSsid : c.staSsid = c'.staSsid
  staPassword : AkinBuf .staPass c.staPassword c'.staPassword
  apSsid : c.apSsid = c'.apSsid
  apPassword : AkinBuf .apPass c.apPassword c'.apPassword
  apMaxConnections : c.apMaxConnections = c'.apMaxConnections

namespace AkinBuf

variable {k : NvsKey} {b b' : Buf (maxPasswordLen + 1)}

theorem symm (h : AkinBuf k b b') : AkinBuf k b' b := by
  rcases h with rfl | ⟨h0, h0', halike, hlast⟩
  · exact .inl rfl
  · exact .inr ⟨h0', h0, halike.symm, hlast.symm⟩

theorem get_eq (h : AkinBuf k b b') : b.get maxPasswordLen = b'.get maxPasswordLen := by
  rcases h with rfl | ⟨-, -, -, hlast⟩
  · rfl
  · exact hlast

theorem zero_mem (h : AkinBuf k b b') (h0 : 0 ∈ b.bytes) : 0 ∈ b'.bytes := by
  rcases h with rfl | ⟨-, h0', -, -⟩
  · exact h0
  · exact h0'

/-- The strings in them are the same, or not told apart. -/
theorem str (h : AkinBuf k b b') : b.str = b'.str ∨ Alike k b.str b'.str := by
  rcases h with rfl | ⟨-, -, halike, -⟩
  · exact .inl rfl
  · exact .inr halike

/-- A password that is posted is copied over what they hold, but for the last byte. -/
theorem putPosted (h : AkinBuf k b b') (posted : Option CStr) :
    AkinBuf k (putPosted b posted) (putPosted b' posted) := by
  cases posted with
  | none => exact h
  | some v =>
    refine .inl (Buf.ext ?_)
    simp only [WifiRepeater.putPosted, Buf.strncpy]
    rw [Buf.drop_last, Buf.drop_last, h.get_eq]

end AkinBuf

namespace AkinConfig

variable {c c' : RepeaterConfig}

theorem refl (c : RepeaterConfig) : AkinConfig c c := ⟨rfl, .inl rfl, rfl, .inl rfl, rfl⟩

theorem symm (h : AkinConfig c c') : AkinConfig c' c :=
  ⟨h.staSsid.symm, h.staPassword.symm, h.apSsid.symm, h.apPassword.symm,
    h.apMaxConnections.symm⟩

theorem terminated (h : AkinConfig c c') (ht : c.Terminated) : c'.Terminated :=
  ⟨h.staSsid ▸ ht.staSsid, h.staPassword.zero_mem ht.staPassword, h.apSsid ▸ ht.apSsid,
    h.apPassword.zero_mem ht.apPassword⟩

/-- The values of the two, when the strings of one end in their arrays. -/
theorem settings (h : AkinConfig c c') (ht : c.Terminated) :
    c.settings.staSsid = c'.settings.staSsid ∧ c.settings.apSsid = c'.settings.apSsid ∧
      c.settings.apMaxConnections = c'.settings.apMaxConnections ∧
      (c.settings.staPassword = c'.settings.staPassword ∨
        Alike .staPass c.settings.staPassword c'.settings.staPassword) ∧
      (c.settings.apPassword = c'.settings.apPassword ∨
        Alike .apPass c.settings.apPassword c'.settings.apPassword) := by
  rw [ht.settings_eq, (h.terminated ht).settings_eq, ← h.staSsid, ← h.apSsid,
    ← h.apMaxConnections]
  exact ⟨rfl, rfl, rfl, h.staPassword.str, h.apPassword.str⟩

theorem valid_of_valid (h : AkinConfig c c') (hv : c.settings.Valid) : c'.settings.Valid := by
  obtain ⟨hsta, hap, hmax, hstaPass, hapPass⟩ := h.settings (RepeaterConfig.terminated_of_valid hv)
  have hstaPass' : IsPassword .staPass c'.settings.staPassword := by
    rcases hstaPass with heq | halike
    · rw [← heq]
      exact hv.staPassword_le
    · exact halike.right
  have hapPass' : IsPassword .apPass c'.settings.apPassword := by
    rcases hapPass with heq | halike
    · rw [← heq]
      exact ⟨hv.apPassword_ge, hv.apPassword_le⟩
    · exact halike.right
  exact ⟨hsta ▸ hv.staSsid_pos, hsta ▸ hv.staSsid_le, hstaPass', hap ▸ hv.apSsid_pos,
    hap ▸ hv.apSsid_le, hapPass'.1, hapPass'.2, hmax ▸ hv.apMaxConnections_pos,
    hmax ▸ hv.apMaxConnections_le⟩

/-- **Both are valid, or neither.** -/
theorem validate_eq (h : AkinConfig c c') : wifiConfigValidate c = wifiConfigValidate c' := by
  have hiff : wifiConfigValidate c = espOk ↔ wifiConfigValidate c' = espOk := by
    rw [wifiConfigValidate_eq_ok_iff, wifiConfigValidate_eq_ok_iff]
    exact ⟨h.valid_of_valid, h.symm.valid_of_valid⟩
  have htwo : ∀ c, wifiConfigValidate c = espOk ∨ wifiConfigValidate c = .error .invalidArg := by
    intro c
    unfold wifiConfigValidate
    dsimp only
    split_ifs
    iterate 6 exact .inr rfl
    exact .inl rfl
  rcases htwo c with hok | herr
  · rw [hok, hiff.mp hok]
  · rcases htwo c' with hok' | herr'
    · rw [hok', hiff.mpr hok']
    · rw [herr, herr']

/-- What is posted is merged into both. -/
theorem updateConfig (h : AkinConfig c c') (p : Posted) :
    AkinConfig (updateConfig p c) (updateConfig p c') where
  staSsid := congrArg (fun field => putPosted field p.staSsid) h.staSsid
  staPassword := h.staPassword.putPosted p.staPassword
  apSsid := congrArg (fun field => putPosted field p.apSsid) h.apSsid
  apPassword := h.apPassword.putPosted p.apPassword
  apMaxConnections := congrArg p.apMaxConnections.getD h.apMaxConnections

end AkinConfig

/-! ### Loading and saving -/

/-- A password read into an array. -/
theorem coupled_getPassword {k : NvsKey} (buf : Buf (maxPasswordLen + 1)) :
    Coupled nvs PasswordsApart (fun r r' => r.1 = r'.1 ∧ AkinBuf k r.2 r'.2) (nvsGetStr k buf)
      (nvsGetStr k buf) := by
  intro fs s t hst
  rw [run_nvsGetStr, run_nvsGetStr]
  refine ⟨?_, rfl, hst⟩
  by_cases hit : (fs.headD none).isSome = true
  · rw [if_pos hit, if_pos hit]
    exact ⟨rfl, .inl rfl⟩
  · rw [if_neg hit, if_neg hit]
    rcases hst.get k with heq | ⟨a, b, hs, ht, halike⟩
    · have hread : s.readStr k buf = t.readStr k buf := by rw [Nvs.readStr, Nvs.readStr, heq]
      rw [hread]
      exact ⟨rfl, .inl rfl⟩
    · have ha := Nat.lt_succ_of_le halike.left.length_le
      have hb := Nat.lt_succ_of_le halike.right.length_le
      rw [Nvs.readStr_eq hs ha, Nvs.readStr_eq ht hb]
      refine ⟨rfl, .inr ⟨Buf.zero_mem_put buf a ha, Buf.zero_mem_put buf b hb, ?_, ?_⟩⟩
      · rwa [Buf.str_put, Buf.str_put]
      · rw [Buf.get_put, Buf.get_put]
        simp only [halike.full]

theorem coupled_readConfig (c₀ : RepeaterConfig) :
    Coupled nvs PasswordsApart (fun r r' => r.1 = r'.1 ∧ AkinConfig r.2 r'.2) (readConfig c₀)
      (readConfig c₀) := by
  have hplain {n : ℕ} {k : NvsKey} (hk : ∀ v, ¬IsPassword k v) (buf : Buf n) :=
    coupled_of_noPassword (nvsGetStr_noPassword hk buf)
  refine (hplain (fun _ => id) _).bind fun staSsid _ hsta => ?_
  refine (coupled_getPassword _).bind fun staPassword staPassword' hstaPass => ?_
  refine (hplain (fun _ => id) _).bind fun apSsid _ hap => ?_
  refine (coupled_getPassword _).bind fun apPassword apPassword' hapPass => ?_
  refine (coupled_of_noPassword (nvsGetU8_noPassword _)).bind fun maxConn _ hmax => ?_
  subst hsta hap hmax
  refine coupled_done ⟨?_, rfl, hstaPass.2, rfl, hapPass.2, rfl⟩
  rw [hstaPass.1, hapPass.1]

/-- What is read passes the end of the load in both runs, or in neither. -/
theorem akin_checkLoaded {complete complete' : Bool} {c c' : RepeaterConfig}
    (hcomplete : complete = complete') (h : AkinConfig c c') :
    (checkLoaded complete c).1 = (checkLoaded complete' c').1 ∧
      AkinConfig (checkLoaded complete c).2 (checkLoaded complete' c').2 := by
  subst hcomplete
  unfold checkLoaded
  rw [← h.validate_eq]
  split_ifs
  · exact ⟨rfl, .refl _⟩
  · cases wifiConfigValidate c with
    | error e => exact ⟨rfl, .refl _⟩
    | ok u => exact ⟨rfl, h⟩

theorem coupled_wifiConfigLoad (c₀ : RepeaterConfig) :
    Coupled nvs PasswordsApart (fun r r' => r.1 = r'.1 ∧ AkinConfig r.2 r'.2)
      (wifiConfigLoad c₀) (wifiConfigLoad c₀) := by
  refine coupled_openReadOnly.bind fun r r' hr => ?_
  subst hr
  cases r with
  | error e => exact coupled_done ⟨rfl, .refl _⟩
  | ok u =>
    refine (coupled_readConfig c₀).bind fun out out' hout => ?_
    exact coupled_done (akin_checkLoaded hout.1 hout.2)

theorem coupled_loadOrDefault (c₀ : RepeaterConfig) :
    Coupled nvs PasswordsApart AkinConfig (loadOrDefault c₀) (loadOrDefault c₀) := by
  refine (coupled_wifiConfigLoad c₀).bind fun r r' hr => ?_
  obtain ⟨e, c⟩ := r
  obtain ⟨e', c'⟩ := r'
  obtain ⟨rfl, hc⟩ := hr
  cases e with
  | error e => exact coupled_done (.refl _)
  | ok u => exact coupled_done hc

theorem coupled_setStr {k : NvsKey} {v w : CStr} (h : v = w ∨ Alike k v w) :
    Coupled nvs PasswordsApart Eq (nvsSetStr k v) (nvsSetStr k w) := by
  let Q : (NvsOp.setStr k v).Ans → (NvsOp.setStr k w).Ans → Prop :=
    fun (r r' : EspResult) => r = r'
  refine coupled_call (Q := Q) (fun f s t hst => ?_) fun r r' hr => coupled_done hr
  cases f with
  | some e => exact ⟨rfl, hst⟩
  | none =>
    refine ⟨rfl, hst.set ?_⟩
    rcases h with rfl | halike
    · exact .inl rfl
    · exact .inr ⟨v, w, rfl, rfl, halike⟩

/-- **A save writes both**, each with its own passwords, and ends the same. -/
theorem coupled_wifiConfigSave {c c' : RepeaterConfig} (h : AkinConfig c c') :
    Coupled nvs PasswordsApart Eq (wifiConfigSave c) (wifiConfigSave c') := by
  unfold wifiConfigSave
  rw [← h.validate_eq]
  cases hval : wifiConfigValidate c with
  | error e => exact coupled_done rfl
  | ok u =>
    have ht := RepeaterConfig.terminated_of_valid ((wifiConfigValidate_eq_ok_iff c).mp hval)
    obtain ⟨hsta, hap, hmax, hstaPass, hapPass⟩ := h.settings ht
    have hcall {op : NvsOp} (hop : op.NoPassword) :
        Coupled nvs PasswordsApart Eq (.call op .done : Script NvsOp NvsOp.Ans op.Ans)
          (.call op .done) := coupled_of_noPassword ⟨hop, fun _ => trivial⟩
    refine coupled_tryAll ?_
    unfold saveCalls
    rw [← hmax]
    refine .cons (hcall trivial) <| .cons (coupled_setStr (.inl hsta)) <|
      .cons (coupled_setStr hstaPass) <| .cons (coupled_setStr (.inl hap)) <|
        .cons (coupled_setStr hapPass) <| .cons (hcall trivial) <| .cons (hcall trivial) .nil

/-! ### The answers -/

/-- The end of `mergeAndSave`: the same answer, or configurations with one SSID. -/
inductive EndsAlike : Except Served RepeaterConfig → Except Served RepeaterConfig → Prop
  | refused (a : Served) : EndsAlike (.error a) (.error a)
  | saved {c c' : RepeaterConfig} (h : c.settings.staSsid = c'.settings.staSsid) :
      EndsAlike (.ok c) (.ok c')

theorem coupled_mergeAndSave (root : CJson) (c₀ : RepeaterConfig) :
    Coupled nvs PasswordsApart EndsAlike (mergeAndSave root c₀) (mergeAndSave root c₀) := by
  refine (coupled_loadOrDefault c₀).bind fun c c' hc => ?_
  have hmerged := hc.updateConfig (Posted.of root)
  dsimp only
  rw [← hmerged.validate_eq]
  cases hval : wifiConfigValidate (updateConfig (Posted.of root) c) with
  | error e => exact coupled_done (.refused _)
  | ok u =>
    have ht := RepeaterConfig.terminated_of_valid ((wifiConfigValidate_eq_ok_iff _).mp hval)
    refine (coupled_wifiConfigSave hmerged).bind fun r r' hr => ?_
    subst hr
    cases r with
    | error e => exact coupled_done (.refused _)
    | ok u => exact coupled_done (.saved (hmerged.settings ht).1)

theorem coupled_recordSaved {c c' : RepeaterConfig}
    (h : c.settings.staSsid = c'.settings.staSsid) :
    Coupled nvs PasswordsApart Eq (recordSaved c) (recordSaved c') := by
  unfold recordSaved
  rw [← h]
  refine coupled_of_noPassword ((wifiConfigAddSsidToHistory_noPassword _).bind fun _ => ?_)
  exact (wifiConfigSetProvisioned_noPassword _).bind fun _ => trivial

theorem coupled_apiConfigPostHandler (P : CJsonParser) (req : Request) (c₀ : RepeaterConfig) :
    Coupled nvs PasswordsApart Eq (apiConfigPostHandler P req c₀)
      (apiConfigPostHandler P req c₀) := by
  have hsave : Coupled nvs PasswordsApart EndsAlike (postAndSave P req c₀)
      (postAndSave P req c₀) := by
    unfold postAndSave
    split_ifs
    · exact coupled_done (.refused _)
    · cases recvBody req with
      | none => exact coupled_done (.refused _)
      | some body =>
        dsimp only
        cases P.parse body with
        | none => exact coupled_done (.refused _)
        | some root => exact coupled_mergeAndSave root c₀
  refine hsave.bind fun r r' hr => ?_
  cases hr with
  | refused a => exact coupled_done rfl
  | saved h => exact coupled_recordSaved h

/-- The passwords are left out of what is rendered. -/
theorem configJson_congr {st st' : Settings} (hsta : st.staSsid = st'.staSsid)
    (hap : st.apSsid = st'.apSsid) (hmax : st.apMaxConnections = st'.apMaxConnections)
    (history : List CStr) : configJson st history = configJson st' history := by
  rw [configJson, configJson, hsta, hap, hmax]

section Served

variable (H : Json.Heap) (D : Json.Doubles) (fresh : (n : ℕ) → Buf n)
  (www : String → Option String)

theorem coupled_apiConfigGetHandler (c₀ : RepeaterConfig) :
    Coupled nvs PasswordsApart Eq (apiConfigGetHandler (jsonEnv H D fresh www) c₀)
      (apiConfigGetHandler (jsonEnv H D fresh www) c₀) := by
  refine ((coupled_loadOrDefault c₀).returns (loadOrDefault_returns c₀)).bind fun c c' hc => ?_
  obtain ⟨hakin, hv⟩ := hc
  obtain ⟨hsta, hap, hmax, -, -⟩ := hakin.settings (RepeaterConfig.terminated_of_valid hv)
  refine (coupled_of_noPassword wifiConfigLoadSsidHistory_noPassword).bind fun history _ hh => ?_
  subst hh
  refine coupled_done (congrArg sendJson ?_)
  show renderConfig H D c.settings history = renderConfig H D c'.settings history
  rw [renderConfig, renderConfig, configJson_congr hsta hap hmax]

/-- **A request is answered alike**, and leaves stores that differ in their passwords
alone. -/
theorem coupled_serve (provisioning : Bool) (r : HttpRequest) :
    Coupled nvs PasswordsApart Eq (serve (jsonEnv H D fresh www) provisioning r)
      (serve (jsonEnv H D fresh www) provisioning r) := by
  unfold serve
  cases route r.uri r.method with
  | methodNotAllowed => exact coupled_done rfl
  | notFound => exact coupled_done rfl
  | handler h =>
    cases h with
    | rootHandler | cssHandler | jsHandler | apiNetworkHandler | apiStatsHandler
    | shutdownHandler | restartHandler | setupHandler => exact coupled_done rfl
    | apiConfigGetHandler => exact coupled_apiConfigGetHandler H D fresh www r.leftover
    | apiConfigPostHandler => exact coupled_apiConfigPostHandler _ _ _
    | apiConfigResetHandler =>
      dsimp only
      unfold apiConfigResetHandler
      split_ifs
      · exact coupled_done rfl
      · refine coupled_of_noPassword (wifiConfigErase_noPassword.bind fun e => ?_)
        cases e <;> exact trivial
    | apiAuthHandler =>
      dsimp only
      unfold apiAuthHandler
      split_ifs
      · exact coupled_done rfl
      · exact coupled_done rfl
      · cases recvBody r.message with
        | none => exact coupled_done rfl
        | some body =>
          dsimp only
          cases (jsonEnv H D fresh www).parser.parse body with
          | none => exact coupled_done rfl
          | some root =>
            dsimp only
            cases postedString root "username" with
            | none => exact coupled_done rfl
            | some username =>
              cases postedString root "password" with
              | none => exact coupled_done rfl
              | some password =>
                refine coupled_of_noPassword ?_
                refine (wifiConfigVerifyAuth_noPassword username password).bind fun ok => ?_
                split_ifs <;> exact trivial
    | apiScanHandler =>
      dsimp only
      unfold apiScanHandler
      cases guardAuth provisioning with
      | error e => exact coupled_done rfl
      | ok u => rcases r.scan with e | e | json <;> exact coupled_done rfl

end Served

/-- The defaults, saved with another password of the uplink. -/
def savedWith (staPassword : CStr) : Nvs :=
  Script.applyAll (saveEffects { defaultSettings with staPassword := staPassword }) none

theorem PasswordsApart.savedWith {v w : CStr} (h : Alike .staPass v w) :
    PasswordsApart (savedWith v) (savedWith w) := by
  simp only [WifiRepeater.savedWith, saveEffects, Script.applyAll_cons, Script.applyAll_nil, id_eq]
  have hopened : PasswordsApart (Nvs.opened none) (Nvs.opened none) := ⟨rfl, fun _ => .inl rfl⟩
  refine .set (.set (.set (.set (.set hopened ?_) ?_) ?_) ?_) ?_
  · exact .inl rfl
  · exact .inr ⟨v, w, rfl, rfl, h⟩
  · exact .inl rfl
  · exact .inl rfl
  · exact .inl rfl

/-- A look at the configuration, a post of another name, whose save fails at its third call,
and another look. -/
def newName : List (HttpRequest × List (Option EspErr)) :=
  let look : HttpRequest :=
    ⟨.apiConfig, .get, .whole [], wifiConfigGetDefault, .error .fail, .error .render⟩
  let post : HttpRequest :=
    { look with method := .post, message := .whole (bytesOf "\x7b\"sta_ssid\":\"Home\"\x7d") }
  [(look, []), (post, List.replicate 9 none ++ [some .fail]), (look, [])]

/-- A body that posts a password of the uplink and nothing else. -/
def passwordOnly (v : CStr) : CJson := .object [(.lit "sta_pass", .string v)]

/-- **Whether a stored password fills its array is told**: a posted password that fills it,
on a stack whose byte behind it is not zero, is saved over one that does, and refused over
any other. -/
theorem full_password_told {P : CJsonParser} {req : Request} {text v : CStr}
    (hshort : req.contentLen < 1024) (htext : recvBody req = some text)
    (hparse : P.parse text = some (passwordOnly v)) (hfull : maxPasswordLen ≤ v.length)
    {c₀ : RepeaterConfig} (hleft : c₀.staPassword.get maxPasswordLen ≠ 0) {s : Nvs}
    {st : Settings} (hst : storedSettings s = some st) (hv : st.Valid) :
    ((apiConfigPostHandler P req c₀).run nvs [] s).value = savedOk ↔
      st.staPassword.length = maxPasswordLen := by
  have hsta : postedString (passwordOnly v) "sta_ssid" = none := rfl
  have hap : postedString (passwordOnly v) "ap_ssid" = none := rfl
  have hapPass : postedPassword (passwordOnly v) "ap_pass" = none := rfl
  have hnum : postedNumber (passwordOnly v) "ap_max_conn" = none := rfl
  have hpass : v ∈ postedPassword (passwordOnly v) "sta_pass" :=
    mem_postedPassword.mpr ⟨rfl, by have : maxPasswordLen = 64 := rfl; omega⟩
  have hrange : CutInRange (passwordOnly v) :=
    ⟨by simp [hsta], by simp [hap], by simp [hapPass], by simp [hnum]⟩
  rw [(post_read htext hparse c₀ s).1]
  constructor
  · intro h
    have hcut := ((zeroBehind_iff _ c₀ s).mp h.ends st hst hv).staPassword v hpass hfull
    exact hcut.resolve_right hleft
  · intro hlen
    refine ⟨hshort, hrange, (zeroBehind_iff _ c₀ s).mpr fun st' hst' _ => ?_⟩
    obtain rfl : st = st' := Option.some.inj (hst.symm.trans hst')
    exact ⟨by simp [CutEnds, hsta], fun _ _ _ => .inl hlen, by simp [CutEnds, hap],
      by simp [CutEnds, hapPass]⟩

end WifiRepeater
