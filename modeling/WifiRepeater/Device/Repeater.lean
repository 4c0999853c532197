import WifiRepeater.Lib.Machine
import WifiRepeater.Web.Server

/-!
# The device

At every boot the device configures its radio from the store, before any other task
runs.  From then on two tasks work on the store: the web server handles one request
after the other, and a long press of the button has its own task erase everything.
Their calls interleave in any order, each call may fail, and the device may lose its
power or restart between any two of them.

## Main definitions

* `wifiInitRepeater`, `Boot` — the radio's configuration at a boot.
* `Repeater`, `Event`, `step` — the device and what can happen to it.
* `markSave` — where a request stands between the first set of a save and the flag.
* `Sound` — what an invariant of the store has to satisfy.

## Main results

* `serve_guards` — the handlers keep an invariant if their parts do.
* `Sound.reach` — **the invariant rule**: what is sound holds of every reachable state.
-/

namespace WifiRepeater

open Script (tryAll Guards Contract)

/-! ### Booting -/

/-- The values of `wifi_auth_mode_t` the code uses. -/
inductive AuthMode
  /-- `WIFI_AUTH_OPEN`. -/
  | authOpen
  /-- `WIFI_AUTH_WPA2_WPA3_PSK`. -/
  | authWpa2Wpa3Psk
  deriving DecidableEq

/-- The part `.sta` of a `wifi_config_t`. -/
structure StaConfig where
  ssid : Buf 32
  password : Buf 64

/-- The part `.ap` of a `wifi_config_t`. -/
structure ApConfig where
  ssid : Buf 32
  password : Buf 64
  ssidLen : UInt8
  authmode : AuthMode
  maxConnection : UInt8

/-- What a boot has found and configured. -/
structure Boot where
  /-- What `wifi_config_load` obtained. -/
  loaded : RepeaterConfig
  /-- `g_provisioning_mode`. -/
  provisioning : Bool
  /-- The uplink, configured only outside of provisioning mode. -/
  sta : Option StaConfig
  ap : ApConfig

/-- The password of the access point and its mode.  The array need not be terminated:
`behind` is what follows it in the struct. -/
def secureAp (password : Buf 64) (behind : List UInt8) : Buf 64 × AuthMode :=
  let apPassLen := strlen (password.bytes ++ behind)
  if apPassLen = 0 then (password, .authOpen)
  else if apPassLen < 8 then (password.setByte 0 0, .authOpen)
  else (password, .authWpa2Wpa3Psk)

/-- The credentials of the uplink as they are handed to the driver. -/
def staConfig (st : Settings) : StaConfig where
  ssid := (Buf.zero 32).strncpy st.staSsid 32 le_rfl
  password := (Buf.zero 64).strncpy st.staPassword 64 le_rfl

/-- `wifi_init_repeater`, as far as it depends on the store; `c₀` is what its struct of the
configuration holds before the load. -/
def wifiInitRepeater (c₀ : RepeaterConfig) (behind : List UInt8) : Prog Boot := do
  -- whatever the load returns, it has filled in the struct
  let r ← wifiConfigLoad c₀
  let provisioned ← wifiConfigHasStaCredentials
  let st := r.2.settings
  let ap := secureAp ((Buf.zero 64).strncpy st.apPassword 64 le_rfl) behind
  pure {
    loaded := r.2
    provisioning := !provisioned
    sta := if provisioned then some (staConfig st) else none
    ap := ⟨(Buf.zero 32).strncpy st.apSsid 32 le_rfl, ap.1, UInt8.ofNat st.apSsid.length, ap.2,
      st.apMaxConnections⟩ }

/-- What a boot makes of the configuration it obtains. -/
theorem run_wifiInitRepeater (c₀ : RepeaterConfig) (behind : List UInt8)
    (fs : List (Option EspErr)) (s : Nvs) :
    let b := ((wifiInitRepeater c₀ behind).run nvs fs s).value
    b.loaded = ((wifiConfigLoad c₀).run nvs fs s).value.2 ∧
      b.ap.authmode = (secureAp ((Buf.zero 64).strncpy b.loaded.settings.apPassword 64 le_rfl)
        behind).2 := by
  unfold wifiInitRepeater
  simp only [Script.run_bind, Script.pure_eq, Script.run_done, and_self]

/-- Whether it skips provisioning, and on which credentials it then runs. -/
theorem run_wifiInitRepeater_sta (c₀ : RepeaterConfig) (behind : List UInt8)
    (fs : List (Option EspErr)) (s : Nvs) :
    let b := ((wifiInitRepeater c₀ behind).run nvs fs s).value
    b.provisioning = !(wifiConfigHasStaCredentials.run nvs ((wifiConfigLoad c₀).run nvs fs s).faults
        s).value ∧
      b.sta = if b.provisioning then none else some (staConfig b.loaded.settings) := by
  unfold wifiInitRepeater
  simp only [Script.run_bind, Script.pure_eq, Script.run_done,
    run_state_of_reads (wifiConfigLoad_reads c₀), true_and]
  cases (wifiConfigHasStaCredentials.run nvs ((wifiConfigLoad c₀).run nvs fs s).faults s).value <;>
    rfl

/-- A password of eight bytes at least is used, wherever the string in its array ends. -/
theorem secureAp_of_le {password : CStr} (h : 8 ≤ password.length) (behind : List UInt8) :
    secureAp ((Buf.zero 64).strncpy password 64 le_rfl) behind
      = ((Buf.zero 64).strncpy password 64 le_rfl, .authWpa2Wpa3Psk) := by
  have hlen := Buf.le_strlen_strncpy (Buf.zero 64) password (le_refl 64) behind
  unfold secureAp
  simp only
  rw [if_neg (by omega), if_neg (by omega)]

/-! ### The machine -/

/-- The device. -/
structure Repeater where
  /-- The flash store. -/
  store : Nvs
  /-- The latest boot, `none` before the first. -/
  boot : Option Boot
  /-- The request that is being handled: the calls its handler is still to make. -/
  http : Option (Prog Served)
  /-- Its handler has come to the first set of a save and not yet to that of the flag. -/
  inSave : Bool
  /-- The erase the button task is at. -/
  button : Option (Prog EspResult)

/-- The device as it leaves the factory. -/
def factory : Repeater := ⟨none, none, none, false, none⟩

/-- What can happen. -/
inductive Event
  /-- A boot: of the flash library's verdict on the partition, the bytes of the struct, what
  lies behind the password, and the failing calls. -/
  | boot (flashErased : Bool) (leftover : RepeaterConfig) (behind : List UInt8)
      (faults : List (Option EspErr))
  /-- A request comes in. -/
  | request (r : HttpRequest)
  /-- The handler's next call. -/
  | httpCall (fault : Option EspErr)
  /-- A long press. -/
  | press
  /-- The next call of the erase. -/
  | buttonCall (fault : Option EspErr)

/-- A boot without faults. -/
def firstBoot : Event := .boot false wifiConfigGetDefault [] []

/-- A program that still has calls to make. -/
def pending {α : Type} : Prog α → Option (Prog α)
  | .done _ => none
  | .call op next => some (.call op next)

/-- Where a handler stands after a call. -/
def markSave (g : Bool) : NvsOp → Bool
  | .setStr .staSsid _ => true
  | .setU8 .provisioned _ => false
  | _ => g

/-- What an event does, `none` when it cannot happen. -/
def step (E : WebEnv) (s : Repeater) : Event → Option Repeater
  | .boot flashErased leftover behind faults =>
      -- a partition the library rejects is erased and opened again
      let store := if flashErased then none else s.store
      some ⟨store, some ((wifiInitRepeater leftover behind).run nvs faults store).value, none,
        false, none⟩
  | .request r =>
      match s.boot, s.http with
      | some b, none => some { s with http := pending (serve E b.provisioning r) }
      | _, _ => none
  | .httpCall fault =>
      match s.http with
      | some (.call op next) =>
          let out := nvs.exec op fault s.store
          let rest := pending (next out.1)
          some
            { s with store := out.2, http := rest, inSave := rest.isSome && markSave s.inSave op }
      | _ => none
  | .press =>
      match s.boot, s.button with
      | some _, none => some { s with button := pending wifiConfigErase }
      | _, _ => none
  | .buttonCall fault =>
      match s.button with
      | some (.call op next) =>
          let out := nvs.exec op fault s.store
          some { s with store := out.2, button := pending (next out.1) }
      | _ => none

/-! ### Invariants -/

/-- The calls of an erase. -/
def IsEraseCall : NvsOp → Prop
  | .openReadWrite | .eraseAll | .commit => True
  | .openReadOnly | .getStr .. | .getU8 _ | .setStr .. | .setU8 .. => False

theorem wifiConfigErase_issues : wifiConfigErase.Issues IsEraseCall := by
  refine Script.issues_tryAll fun m hm => ?_
  simp only [List.mem_cons, List.not_mem_nil, or_false] at hm
  rcases hm with rfl | rfl | rfl <;> exact ⟨trivial, fun _ => trivial⟩

theorem apiConfigResetHandler_issues (method : HttpMethod) :
    (apiConfigResetHandler method).Issues IsEraseCall := by
  unfold apiConfigResetHandler
  split_ifs
  · exact trivial
  · exact wifiConfigErase_issues.bind fun r => by cases r <;> exact trivial

/-- The contract between the handlers and the button: the invariant `I`, and what the
handler expects of the button when it stands at `g`. -/
def contract (I : Nvs → Prop) (rely : Bool → Nvs → Nvs → Prop) : Contract NvsOp Nvs Bool where
  inv _ := I
  rely := rely
  mark := markSave

/-- A handler keeps its side, whatever it answers. -/
abbrev Keeps (I : Nvs → Prop) (rely : Bool → Nvs → Nvs → Prop) {α : Type} (g : Bool)
    (m : Prog α) (s : Nvs) : Prop :=
  m.Guards nvs (contract I rely) (fun _ _ _ => True) g s

/-- `I` is an invariant of the store, and `B` holds of every boot, in the runs that `ok`
admits. -/
structure Sound (E : WebEnv) (I : Nvs → Prop) (rely : Bool → Nvs → Nvs → Prop)
    (B : Boot → Prop) (ok : Repeater → Event → Prop) : Prop where
  refl : ∀ g s, rely g s s
  trans : ∀ g s s' s'', rely g s s' → rely g s' s'' → rely g s s''
  empty : I none
  boot : ∀ (s : Repeater) flashErased c₀ behind fs, ok s (.boot flashErased c₀ behind fs) →
    I (if flashErased then none else s.store) →
      B ((wifiInitRepeater c₀ behind).run nvs fs (if flashErased then none else s.store)).value
  serve : ∀ (s : Repeater) provisioning r, ok s (.request r) → I s.store →
    Keeps I rely false (serve E provisioning r) s.store
  button : ∀ s op next f, s.button = some (.call op next) → ok s (.buttonCall f) →
    IsEraseCall op → I s.store →
      I (nvs.exec op f s.store).2 ∧ rely s.inSave s.store (nvs.exec op f s.store).2

/-- What holds of a device whose store satisfies a sound invariant. -/
structure Guarded (I : Nvs → Prop) (rely : Bool → Nvs → Nvs → Prop) (B : Boot → Prop)
    (s : Repeater) : Prop where
  store : I s.store
  boot : ∀ b ∈ s.boot, B b
  http : ∀ m ∈ s.http, Keeps I rely s.inSave m s.store
  idle : s.http = none → s.inSave = false
  button : ∀ m ∈ s.button, m.Issues IsEraseCall

theorem mem_pending {α : Type} {m m' : Prog α} (h : m' ∈ pending m) : m' = m := by
  cases m with
  | done a => exact absurd h (by simp [pending])
  | call op next => exact (Option.mem_some_iff.mp h).symm

section Rule

variable {E : WebEnv} {I : Nvs → Prop} {rely : Bool → Nvs → Nvs → Prop} {B : Boot → Prop}
  {ok : Repeater → Event → Prop}

/-- One step of a sound invariant. -/
theorem Sound.step (h : Sound E I rely B ok) {s s' : Repeater} {e : Event}
    (hs : Guarded I rely B s) (hok : ok s e) (hstep : step E s e = some s') :
    Guarded I rely B s' := by
  obtain ⟨hstore, hboot, hhttp, hidle, hbutton⟩ := hs
  cases e with
  -- both tasks are gone, and the store is as it was or empty
  | boot flashErased leftover behind faults =>
    rw [WifiRepeater.step, Option.some.injEq] at hstep
    have hI : I (if flashErased then none else s.store) := by
      split_ifs
      · exact h.empty
      · exact hstore
    rw [← hstep]
    exact ⟨hI, fun b hb => Option.mem_some_iff.mp hb ▸ h.boot s _ _ _ _ hok hI,
      fun m hm => absurd hm (by simp), fun _ => rfl, fun m hm => absurd hm (by simp)⟩
  | request r =>
    rw [WifiRepeater.step] at hstep
    split at hstep
    · next b hb hnone =>
      rw [Option.some.injEq] at hstep
      rw [← hstep]
      refine ⟨hstore, hboot, fun m hm => ?_, fun _ => hidle hnone, hbutton⟩
      show Keeps I rely s.inSave m s.store
      rw [mem_pending hm, hidle hnone]
      exact h.serve s _ r hok hstore
    · exact absurd hstep (by simp)
  | httpCall fault =>
    rw [WifiRepeater.step] at hstep
    split at hstep
    · next op next hcall =>
      rw [Option.some.injEq] at hstep
      -- the guarantee of the handler, with no interference before this call
      obtain ⟨hI, hrest⟩ := hhttp _ hcall _ (h.refl _ _) fault
      rw [← hstep]
      refine ⟨hI, hboot, fun m hm => ?_, fun hnone => ?_, hbutton⟩
      · have hsome : (pending (next (nvs.exec op fault s.store).1)).isSome = true :=
          Option.isSome_of_mem hm
        show Keeps I rely (_ && _) m _
        rw [mem_pending hm, hsome, Bool.true_and]
        exact hrest
      · show (Option.isSome _ && _) = false
        rw [show pending (next (nvs.exec op fault s.store).1) = none from hnone]
        rfl
    · exact absurd hstep (by simp)
  | press =>
    rw [WifiRepeater.step] at hstep
    split at hstep
    · rw [Option.some.injEq] at hstep
      rw [← hstep]
      refine ⟨hstore, hboot, hhttp, hidle, fun m (hm : m ∈ pending wifiConfigErase) => ?_⟩
      rw [mem_pending hm]
      exact wifiConfigErase_issues
    · exact absurd hstep (by simp)
  | buttonCall fault =>
    rw [WifiRepeater.step] at hstep
    split at hstep
    · next op next hcall =>
      rw [Option.some.injEq] at hstep
      have hissues := hbutton _ hcall
      -- what the button does is what the handler expects of it
      obtain ⟨hI, hrely⟩ := h.button s op next fault hcall hok hissues.1 hstore
      rw [← hstep]
      refine ⟨hI, hboot, fun m hm => (hhttp m hm).stable h.trans hrely, hidle, fun m hm => ?_⟩
      rw [mem_pending hm]
      exact hissues.2 _
    · exact absurd hstep (by simp)

/-- **The invariant rule**: what is sound holds of every state the device can reach. -/
theorem Sound.reach (h : Sound E I rely B ok) {s : Repeater}
    (hs : Machine.Reach (WifiRepeater.step E) ok factory s) : Guarded I rely B s := by
  refine hs.invariant ?_ fun s e s' => h.step
  exact ⟨h.empty, fun b hb => absurd hb (by simp [factory]),
    fun m hm => absurd hm (by simp [factory]), fun _ => rfl,
    fun m hm => absurd hm (by simp [factory])⟩

end Rule

/-! ### The handlers under a contract -/

theorem markSave_of_isRead {op : NvsOp} (h : op.isRead = true) (g : Bool) : markSave g op = g := by
  cases op with
  | openReadOnly | getStr | getU8 => rfl
  | openReadWrite | setStr | setU8 | eraseAll | commit => exact Bool.noConfusion h

theorem markSave_of_isEraseCall {op : NvsOp} (h : IsEraseCall op) (g : Bool) :
    markSave g op = g := by
  cases op with
  | openReadWrite | eraseAll | commit => rfl
  | openReadOnly | getStr | getU8 | setStr | setU8 => exact h.elim

section Handlers

variable {E : WebEnv} {I : Nvs → Prop} {rely : Bool → Nvs → Nvs → Prop}

/-- Calls that keep the invariant, at a place where the button may do what keeps it. -/
theorem guards_of_keep {α : Type} {P : NvsOp → Prop} {m : Prog α} (hm : m.Issues P)
    (hrely : ∀ s s', I s → rely false s s' → I s')
    (hmark : ∀ op, P op → markSave false op = false)
    (hexec : ∀ op, P op → ∀ f s, I s → I (nvs.exec op f s).2) {s : Nvs} (hs : I s) :
    m.Guards nvs (contract I rely) (fun g _ s => g = false ∧ I s) false s :=
  Script.guards_of_issues (A := fun g s => g = false ∧ I s)
    (fun _ s s' h hr => ⟨h.1, hrely s s' h.2 (h.1 ▸ hr)⟩)
    (fun op hop f _ s h => ⟨h.1 ▸ hmark op hop, hexec op hop f s h.2⟩)
    (fun _ _ h => h.2) hm ⟨rfl, hs⟩

theorem guards_of_reads {α : Type} {m : Prog α} (hm : m.Issues fun op => op.isRead = true)
    (hrely : ∀ s s', I s → rely false s s' → I s') {s : Nvs} (hs : I s) :
    m.Guards nvs (contract I rely) (fun g _ s => g = false ∧ I s) false s :=
  guards_of_keep hm hrely (fun _ h => markSave_of_isRead h false)
    (fun _ h f s hs => by rw [exec_of_isRead h]; exact hs) hs

/-- **The handlers keep an invariant** that an erase keeps, if the handler of
`POST /api/config` does. -/
theorem serve_guards (hrely : ∀ s s', I s → rely false s s' → I s')
    (herase : ∀ op, IsEraseCall op → ∀ f s, I s → I (nvs.exec op f s).2)
    (provisioning : Bool) (r : HttpRequest) {s : Nvs} (hs : I s)
    (hpost : route r.uri r.method = .handler .apiConfigPostHandler →
      Keeps I rely false (apiConfigPostHandler E.parser r.message r.leftover) s) :
    Keeps I rely false (serve E provisioning r) s := by
  rcases serve_cases E provisioning r with hreads | ⟨hroute, heq⟩ | heq
  · exact (guards_of_reads hreads hrely hs).mono fun _ _ _ _ => trivial
  · rw [heq]
    exact hpost hroute
  · rw [heq]
    exact (guards_of_keep (apiConfigResetHandler_issues r.method) hrely
      (fun _ h => markSave_of_isEraseCall h false) herase hs).mono fun _ _ _ _ => trivial

/-- **The handler of `POST /api/config` in three parts**: the load leads to `L`, the save of
what is then merged leads to `W`, and from there the two updates keep the invariant. -/
theorem apiConfigPostHandler_guards (hrefl : ∀ g s, rely g s s) {P : CJsonParser} {req : Request}
    {c₀ : RepeaterConfig} {L : RepeaterConfig → Nvs → Prop} {W : RepeaterConfig → Bool → Nvs → Prop}
    {s : Nvs}
    (hload : (loadOrDefault c₀).Guards nvs (contract I rely) (fun g c s => g = false ∧ L c s)
      false s)
    (hsave : ∀ root c s, req.contentLen < 1024 → (recvBody req).bind P.parse = some root → L c s →
      (updateConfig (Posted.of root) c).settings.Valid →
        (tryAll (saveCalls (updateConfig (Posted.of root) c).settings)).Guards nvs (contract I rely)
          (fun g r s => r = espOk → W (updateConfig (Posted.of root) c) g s) false s)
    (hstable : ∀ c g s s', W c g s → rely g s s' → W c g s')
    (hrecord : ∀ c g s, W c g s → Keeps I rely g (recordSaved c) s) :
    Keeps I rely false (apiConfigPostHandler P req c₀) s := by
  -- an answer before the save ends the handler
  have herr : ∀ (g : Bool) (a : Served) (s : Nvs),
      Guards nvs (contract I rely) (fun g r s => ∀ c, r = .ok c → W c g s) g
        (.done (Except.error a)) s := fun g a s s' _ c h => absurd h (by simp)
  have hfirst : (postAndSave P req c₀).Guards nvs (contract I rely)
      (fun g r s => ∀ c, r = .ok c → W c g s) false s := by
    unfold postAndSave
    split_ifs with hlen
    · exact herr _ _ _
    cases htext : recvBody req with
    | none => exact herr _ _ _
    | some text =>
      simp only
      cases hparse : P.parse text with
      | none => exact herr _ _ _
      | some root =>
        have hroot : (recvBody req).bind P.parse = some root := by
          rw [htext, Option.bind_some, hparse]
        refine Script.guards_bind hrefl (hload.mono ?_)
        rintro g c s ⟨rfl, hL⟩
        dsimp only
        cases hval : wifiConfigValidate (updateConfig (Posted.of root) c) with
        | error e => exact herr _ _ _
        | ok u =>
          rw [wifiConfigSave_eq hval]
          have hv := (wifiConfigValidate_eq_ok_iff _).mp hval
          refine Script.guards_bind hrefl ((hsave root c s (by omega) hroot hL hv).mono ?_)
          intro g r s hW
          cases r with
          | error e => exact herr _ _ _
          | ok u =>
            intro s' hs' c' hc'
            rw [← Except.ok.inj hc']
            exact hstable _ g s s' (hW rfl) hs'
  refine Script.guards_bind hrefl (hfirst.mono ?_)
  intro g r s hW
  cases r with
  | error a => exact fun _ _ => trivial
  | ok c => exact hrecord c g s (hW c rfl)

end Handlers

end WifiRepeater
