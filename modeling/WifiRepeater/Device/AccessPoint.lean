import WifiRepeater.Device.Repeater

/-!
# The access point is never open

A boot configures the access point with the password it loads, and opens it when that is
empty or too short.  The validation lets an empty password pass, so it is the other
parts that have to keep one: a request cannot post an empty password, a load that fails
obtains the defaults, and a save writes what was loaded or posted.

## Main definitions

* `ApSecured` — the password in the store, if there is one, is one that WPA2 admits.
* `SecureBoot` — the boot has obtained such a password and uses it.

## Main results

* `load_guards` — what a handler loads has a password, whatever goes on meanwhile.
* `access_point_secured` — **no boot opens the access point.**
-/

namespace WifiRepeater

open Script (tryAll Guards)

/-! ### The invariant -/

/-- The password of the access point in the store, if there is one, has 8 to 64 bytes. -/
def ApSecured (s : Nvs) : Prop :=
  ∀ v, s.get .apPass = some (.str v) → 8 ≤ v.length ∧ v.length ≤ maxPasswordLen

/-- The button is expected to keep it. -/
def apRely (_ : Bool) (s s' : Nvs) : Prop := ApSecured s → ApSecured s'

theorem apRely_refl (g : Bool) (s : Nvs) : apRely g s s := id

theorem apSecured_exec {op : NvsOp} (hop : op.keeps .apPass) (f : Option EspErr) {s : Nvs}
    (hs : ApSecured s) : ApSecured (nvs.exec op f s).2 := by
  intro v hv
  rw [exec_of_keeps hop] at hv
  exact hs v hv

theorem apSecured_exec_erase {op : NvsOp} (hop : IsEraseCall op) (f : Option EspErr) {s : Nvs}
    (hs : ApSecured s) : ApSecured (nvs.exec op f s).2 := by
  cases op with
  | openReadWrite => exact apSecured_exec (show NvsOp.openReadWrite.keeps .apPass from trivial) f hs
  | commit => exact apSecured_exec (show NvsOp.commit.keeps .apPass from trivial) f hs
  | eraseAll =>
    cases f with
    | some e => exact hs
    | none =>
      intro v hv
      rw [exec_none, NvsOp.perform, Nvs.get_erased] at hv
      exact absurd hv (by simp)
  | openReadOnly | getStr | getU8 | setStr | setU8 => exact hop.elim

/-- Calls that keep the invariant keep it under interference. -/
theorem apSecured_guards {α : Type} {m : Prog α}
    (hm : m.Issues fun op => ∀ f s, ApSecured s → ApSecured (nvs.exec op f s).2) (g : Bool)
    {s : Nvs} (hs : ApSecured s) :
    m.Guards nvs (contract ApSecured apRely) (fun _ _ s => ApSecured s) g s :=
  Script.guards_of_issues (A := fun _ s => ApSecured s)
    (fun g s s' (h : ApSecured s) (hr : apRely g s s') => hr h)
    (fun _ hop f _ s h => hop f s h) (fun _ _ h => h) hm hs

/-! ### What a handler loads -/

/-- The configuration has a password for the access point. -/
def HasApPassword (c : RepeaterConfig) : Prop :=
  0 ∈ c.apPassword.bytes ∧ 0 < c.apPassword.str.length

theorem hasApPassword_default : HasApPassword wifiConfigGetDefault := by
  unfold HasApPassword
  decide +kernel

/-- The read of the password: it fails, or the buffer holds one. -/
theorem nvsGetStr_guards {n : ℕ} (buf : Buf n) {s : Nvs} (hs : ApSecured s) :
    (nvsGetStr .apPass buf).Guards nvs (contract ApSecured apRely)
      (fun g r s => (g = false ∧ ApSecured s) ∧
        (r.1 = true → 0 ∈ r.2.bytes ∧ 0 < r.2.str.length)) false s := by
  intro s' hs' f
  have hinv := hs' hs
  -- the button may have been at work before the read, which itself changes nothing
  have hread : (nvs.exec (.getStr .apPass n) f s').2 = s' := exec_of_isRead rfl f s'
  rw [hread]
  refine ⟨hinv, ?_⟩
  cases f with
  | some e => exact fun s'' hs'' => ⟨⟨rfl, hs'' hinv⟩, fun h => absurd h (by simp)⟩
  | none =>
    rw [exec_none, NvsOp.perform]
    cases hget : s'.get .apPass with
    | none => exact fun s'' hs'' => ⟨⟨rfl, hs'' hinv⟩, fun h => absurd h (by simp)⟩
    | some val =>
      cases val with
      | u8 w => exact fun s'' hs'' => ⟨⟨rfl, hs'' hinv⟩, fun h => absurd h (by simp)⟩
      | str v =>
        simp only
        by_cases hv : v.length < n
        · rw [dif_pos hv]
          refine fun s'' hs'' => ⟨⟨rfl, hs'' hinv⟩, fun _ => ⟨Buf.zero_mem_put buf v hv, ?_⟩⟩
          have hlen := (hinv v hget).1
          rw [Buf.str_put]
          show 0 < v.length
          omega
        · rw [dif_neg hv]
          exact fun s'' hs'' => ⟨⟨rfl, hs'' hinv⟩, fun h => absurd h (by simp)⟩

theorem readConfig_guards (c₀ : RepeaterConfig) {s : Nvs} (hs : ApSecured s) :
    (readConfig c₀).Guards nvs (contract ApSecured apRely)
      (fun g r s => (g = false ∧ ApSecured s) ∧ (r.1 = true → HasApPassword r.2)) false s := by
  have hreads : ∀ {α : Type} {m : Prog α}, m.Issues (fun op => op.isRead = true) → ∀ {s : Nvs},
      ApSecured s → m.Guards nvs (contract ApSecured apRely)
        (fun g _ s => g = false ∧ ApSecured s) false s :=
    fun hm _ hs => guards_of_reads hm (fun _ _ h hr => hr h) hs
  unfold readConfig
  refine Script.guards_bind apRely_refl ((hreads (nvsGetStr_reads _ _) hs).mono ?_)
  rintro g a s ⟨rfl, hs⟩
  refine Script.guards_bind apRely_refl ((hreads (nvsGetStr_reads _ _) hs).mono ?_)
  rintro g b s ⟨rfl, hs⟩
  refine Script.guards_bind apRely_refl ((hreads (nvsGetStr_reads _ _) hs).mono ?_)
  rintro g c s ⟨rfl, hs⟩
  -- the fourth read is that of the password
  refine Script.guards_bind apRely_refl ((nvsGetStr_guards _ hs).mono ?_)
  rintro g d s ⟨⟨rfl, hs⟩, hd⟩
  refine Script.guards_bind apRely_refl ((hreads (nvsGetU8_reads _) hs).mono ?_)
  rintro g e s ⟨rfl, hs⟩
  refine fun s' hs' => ⟨⟨rfl, hs' hs⟩, fun hall => hd ?_⟩
  simp only [Bool.and_eq_true] at hall
  exact hall.1.2

/-- **What a handler loads has a password**, whatever the button does meanwhile and
whichever calls fail. -/
theorem load_guards (c₀ : RepeaterConfig) {s : Nvs} (hs : ApSecured s) :
    (loadOrDefault c₀).Guards nvs (contract ApSecured apRely)
      (fun g c s => (g = false ∧ ApSecured s) ∧ HasApPassword c) false s := by
  have hload : (wifiConfigLoad c₀).Guards nvs (contract ApSecured apRely)
      (fun g r s => (g = false ∧ ApSecured s) ∧ HasApPassword r.2) false s := by
    refine Script.guards_bind apRely_refl ((guards_of_reads (m := nvsOpenReadOnly)
      ⟨rfl, fun _ => trivial⟩ (fun _ _ h hr => hr h) hs).mono ?_)
    rintro g r s ⟨rfl, hs⟩
    cases r with
    | error e => exact fun s' hs' => ⟨⟨rfl, hs' hs⟩, hasApPassword_default⟩
    | ok u =>
      refine Script.guards_bind apRely_refl ((readConfig_guards c₀ hs).mono ?_)
      rintro g r s ⟨⟨rfl, hs⟩, hr⟩
      refine fun s' hs' => ⟨⟨rfl, hs' hs⟩, ?_⟩
      rcases checkLoaded_cases r.1 r.2 with ⟨hok, -, heq⟩ | ⟨-, e, heq⟩
      · rw [heq]
        exact hr hok
      · rw [heq]
        exact hasApPassword_default
  refine Script.guards_bind apRely_refl (hload.mono ?_)
  rintro g ⟨e | u, c⟩ s ⟨⟨rfl, hs⟩, hc⟩
  · exact fun s' hs' => ⟨⟨rfl, hs' hs⟩, hasApPassword_default⟩
  · exact fun s' hs' => ⟨⟨rfl, hs' hs⟩, hc⟩

/-! ### What it saves -/

/-- A valid merge has a password that WPA2 admits: an empty one cannot be posted. -/
theorem apPassword_of_merge {c : RepeaterConfig} (hc : HasApPassword c) {root : CJson}
    (hv : (updateConfig (Posted.of root) c).settings.Valid) :
    8 ≤ (updateConfig (Posted.of root) c).settings.apPassword.length := by
  have hterm := RepeaterConfig.terminated_of_valid hv
  have hpos : 0 < (updateConfig (Posted.of root) c).settings.apPassword.length := by
    rw [hterm.settings_eq]
    show 0 < (putPosted c.apPassword (postedPassword root "ap_pass")).str.length
    cases hp : postedPassword root "ap_pass" with
    | none => exact hc.2
    | some v =>
      -- a posted password has a byte at least, and the copy has it too
      have hlen := (mem_postedPassword.mp hp).2
      have hcopy := Buf.le_strlen_strncpy c.apPassword v (Nat.le_succ maxPasswordLen) []
      rw [List.append_nil] at hcopy
      have hmax : maxPasswordLen = 64 := rfl
      show 0 < strlen (c.apPassword.strncpy v maxPasswordLen (Nat.le_succ _)).bytes
      omega
  rcases hv.apPassword_ge with h0 | h8
  · omega
  · exact h8

theorem saveCalls_keep {st : Settings} (hv : st.Valid) (h8 : 8 ≤ st.apPassword.length) :
    (tryAll (saveCalls st)).Issues fun op =>
      ∀ f s, ApSecured s → ApSecured (nvs.exec op f s).2 := by
  have hset : ∀ f s, ApSecured s →
      ApSecured (nvs.exec (.setStr .apPass st.apPassword) f s).2 := by
    intro f s hs
    cases f with
    | some e => exact hs
    | none =>
      intro v hget
      rw [exec_none, NvsOp.perform, Nvs.get_set_self, Option.some.injEq, NvsValue.str.injEq] at hget
      exact hget ▸ ⟨h8, hv.apPassword_le⟩
  have hother : ∀ op : NvsOp, op.keeps .apPass → ∀ f s, ApSecured s →
      ApSecured (nvs.exec op f s).2 := fun _ hop f _ hs => apSecured_exec hop f hs
  refine Script.issues_tryAll fun m hm => ?_
  simp only [saveCalls, List.mem_cons, List.not_mem_nil, or_false] at hm
  -- one of the seven calls writes the password
  rcases hm with rfl | rfl | rfl | rfl | rfl | rfl | rfl
  · exact ⟨hother .openReadWrite trivial, fun _ => trivial⟩
  · exact ⟨hother (.setStr .staSsid _) (by simp [NvsOp.keeps]), fun _ => trivial⟩
  · exact ⟨hother (.setStr .staPass _) (by simp [NvsOp.keeps]), fun _ => trivial⟩
  · exact ⟨hother (.setStr .apSsid _) (by simp [NvsOp.keeps]), fun _ => trivial⟩
  · exact ⟨hset, fun _ => trivial⟩
  · exact ⟨hother (.setU8 .apMaxConn _) (by simp [NvsOp.keeps]), fun _ => trivial⟩
  · exact ⟨hother .commit trivial, fun _ => trivial⟩

theorem recordSaved_keeps (c : RepeaterConfig) :
    (recordSaved c).Issues fun op => op.keeps .apPass :=
  ((wifiConfigAddSsidToHistory_writesOnly _).mono fun _ h => h .apPass id).bind fun _ =>
    ((wifiConfigSetProvisioned_issues true).mono fun _ h => h.2 .apPass (by decide)).bind
      fun _ => trivial

/-! ### Every boot -/

/-- The boot has obtained a password of 8 to 64 bytes, and the access point asks for it. -/
structure SecureBoot (b : Boot) : Prop where
  password_ge : 8 ≤ b.loaded.settings.apPassword.length
  password_le : b.loaded.settings.apPassword.length ≤ maxPasswordLen
  authmode : b.ap.authmode = .authWpa2Wpa3Psk

theorem secureBoot_of_apSecured (c₀ : RepeaterConfig) (behind : List UInt8)
    (fs : List (Option EspErr)) {s : Nvs} (hs : ApSecured s) :
    SecureBoot ((wifiInitRepeater c₀ behind).run nvs fs s).value := by
  obtain ⟨hloaded, hmode⟩ := run_wifiInitRepeater c₀ behind fs s
  generalize ((wifiInitRepeater c₀ behind).run nvs fs s).value = b at hloaded hmode ⊢
  have hlen : 8 ≤ b.loaded.settings.apPassword.length ∧
      b.loaded.settings.apPassword.length ≤ maxPasswordLen := by
    rw [hloaded]
    -- no task runs yet, so the load is one run on the store
    rcases run_wifiConfigLoad c₀ fs s with ⟨st, hst, -, -, hload⟩ | ⟨e, he⟩
    · rw [hload.settings_eq]
      exact hs _ ((storedSettings_eq_some_iff s st).mp hst).2.2.2.1
    · rw [he, settings_default]
      decide
  refine ⟨hlen.1, hlen.2, ?_⟩
  rw [hmode, secureAp_of_le hlen.1]

theorem apSecured_sound (E : WebEnv) :
    Sound E ApSecured apRely SecureBoot (fun _ _ => True) where
  refl := apRely_refl
  trans _ _ _ _ h h' := fun hs => h' (h hs)
  empty v hv := absurd hv (by simp)
  boot _ _ c₀ behind fs _ hs := secureBoot_of_apSecured c₀ behind fs hs
  serve s provisioning r _ hs := by
    refine serve_guards (fun _ _ h hr => hr h)
      (fun _ hop f _ hs => apSecured_exec_erase hop f hs) provisioning r hs fun _ => ?_
    refine apiConfigPostHandler_guards apRely_refl (L := fun c s => ApSecured s ∧ HasApPassword c)
      (W := fun _ _ s => ApSecured s) ?_ ?_ ?_ ?_
    · exact (load_guards r.leftover hs).mono fun _ _ _ h => ⟨h.1.1, h.1.2, h.2⟩
    · exact fun root c s _ _ hc hv => (apSecured_guards (saveCalls_keep hv
        (apPassword_of_merge hc.2 hv)) false hc.1).mono fun _ _ _ h _ => h
    · exact fun _ _ _ _ h hr => hr h
    · exact fun c g s hs => (apSecured_guards ((recordSaved_keeps c).mono
        fun _ h f _ hs => apSecured_exec h f hs) g hs).mono fun _ _ _ _ => trivial
  button s _ _ f _ _ hop hs :=
    ⟨apSecured_exec_erase hop f hs, fun h => apSecured_exec_erase hop f h⟩

/-- **The access point is never opened by accident**: every boot the device comes to obtains
a password of 8 to 64 bytes and has the access point ask for it. -/
theorem access_point_secured (E : WebEnv) {s : Repeater}
    (h : Machine.Reach (step E) (fun _ _ => True) factory s) :
    ∀ b ∈ s.boot, 8 ≤ b.loaded.settings.apPassword.length ∧
      b.loaded.settings.apPassword.length ≤ 64 ∧ b.ap.authmode = .authWpa2Wpa3Psk := by
  intro b hb
  have hboot := ((apSecured_sound E).reach h).boot b hb
  exact ⟨hboot.password_ge, hboot.password_le, hboot.authmode⟩

/-- The network at home is posted over leftover bytes, a write to the history fails, and the
device boots again, with other bytes left over. -/
def laterEvents : List Event :=
  [firstBoot, .request (postRequest homeText.bytes dirtyConfig)] ++
    List.replicate 12 (.httpCall none) ++ [.httpCall (some .fail)] ++
    List.replicate 3 (.httpCall none) ++ [.boot false dirtyConfig (List.replicate 8 0xff) []]

/-- The second boot has loaded what was posted, and is secured as every boot. -/
theorem later_boot_secured :
    ∃ s, Machine.exec (step bareEnv) factory laterEvents = some s ∧
      (∃ b ∈ s.boot, b.provisioning = false ∧ b.loaded.settings.staSsid = .lit "Home") ∧
      ∀ b ∈ s.boot, 8 ≤ b.loaded.settings.apPassword.length ∧
        b.loaded.settings.apPassword.length ≤ 64 ∧ b.ap.authmode = .authWpa2Wpa3Psk := by
  have hany : (Machine.exec (step bareEnv) factory laterEvents).any fun s =>
      s.boot.any fun b => !b.provisioning && b.loaded.settings.staSsid = .lit "Home" := by
    decide +kernel
  obtain ⟨s, hs, hboot⟩ := (Option.any_eq_true _ _).mp hany
  obtain ⟨b, hb, hhome⟩ := (Option.any_eq_true _ _).mp hboot
  rw [Bool.and_eq_true, Bool.not_eq_true', decide_eq_true_eq] at hhome
  have hreach : Machine.Reach (step bareEnv) (fun _ _ => True) factory s :=
    Machine.reach_of_exec (by decide +kernel) hs
  exact ⟨s, hs, ⟨b, hb, hhome⟩, access_point_secured bareEnv hreach⟩

end WifiRepeater
