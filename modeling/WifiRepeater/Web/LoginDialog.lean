import Mathlib.Data.List.DropRight
import WifiRepeater.Config.Login
import WifiRepeater.Web.SaveSettings

/-!
# The login dialog

The dashboard asks for a user name and a password before it shows its settings.  The pair goes
to the device as JSON and is compared there with the stored one; a script of the page remembers
that a login was accepted, and opens the dialogs.  Logins can be under way at the same time, for
the button is disabled meanwhile and the Enter key is not, and their answers come in any order,
or never.

## Main definitions

* `credentials`, `loginRequest`, `loginOutcome` — a login on its way there and back.
* `LoginPage`, `PageEvent`, `LoginSystem.step` — the dialogs of the page, and the device.
* `Locked` — nothing was opened.

## Main results

* `typedOutcome_iff` — **which pairs are let in.**
* `dialogs_consistent` — what the dialogs show.
* `settings_behind_login` — **the settings are behind an accepted login.**
* `login_opens` — **which logins there are**, and which stored pairs can be typed at all.
-/

namespace WifiRepeater

open Json (Doubles ofJs NulFree Sendable sent cJsonParser)
open Js (utf8 stringify)

/-! ### A login on its way -/

/-- What is typed into an input: there is no NUL on a keyboard. -/
@[ext]
structure Typed where
  /-- Its characters. -/
  text : List Char
  /-- They are no NUL. -/
  nulFree : NulFree text

/-- Nothing typed. -/
def Typed.empty : Typed := ⟨[], fun _ h => absurd h List.not_mem_nil⟩

theorem mem_of_mem_trim {a : Char} {s : List Char} (h : a ∈ trim s) : a ∈ s :=
  (List.dropWhile_suffix _).subset ((List.rdropWhile_prefix _ _).subset h)

/-- `trim`, on an input. -/
def Typed.trim (t : Typed) : Typed :=
  ⟨WifiRepeater.trim t.text, fun a h => t.nulFree a (mem_of_mem_trim h)⟩

/-- Trimming once is enough. -/
theorem trim_trim (s : List Char) : trim (trim s) = trim s := by
  have hfront : (trim s).dropWhile Js.isSpace = trim s := by
    rw [List.dropWhile_eq_self_iff]
    intro hpos
    -- what is left begins as it did before the end was cut
    have hprefix : trim s <+: s.dropWhile Js.isSpace := List.rdropWhile_prefix _ _
    obtain ⟨rest, hrest⟩ := hprefix
    have hlen : 0 < (s.dropWhile Js.isSpace).length := by
      rw [← hrest, List.length_append]
      omega
    have hhead := List.dropWhile_get_zero_not Js.isSpace s hlen
    simp only [← hrest, List.get_eq_getElem, List.getElem_append_left hpos] at hhead
    exact hhead
  conv_lhs => rw [trim, hfront, trim]
  exact List.rdropWhile_idempotent _ _

/-- The object that is given to `JSON.stringify`. -/
def credentials (username password : List Char) : Js.Value :=
  .object [("username".toList, .string username), ("password".toList, .string password)]

/-- The request of `submitLogin`. -/
def loginRequest (username password : List Char) : Request :=
  .whole (utf8 (stringify (credentials username password)))

/-- What the page makes of an answer. -/
inductive LoginOutcome
  /-- `data.ok` is true. -/
  | accepted
  /-- It is not. -/
  | refused
  /-- There was no answer, or it was no JSON. -/
  | error
  deriving DecidableEq

/-- The answer to a pair that is let in. -/
def loginOk : Served := ⟨some ⟨200, "\x7b\"ok\":true\x7d"⟩, none, false, true⟩

/-- The answer to a pair that is not. -/
def loginRefused : Served :=
  ⟨some ⟨401, "\x7b\"ok\":false,\"error\":\"Invalid credentials\"\x7d"⟩, none, false, true⟩

/-- An answer of `api_auth_handler` as the page reads it: of the texts the handler sends, these
two are JSON. -/
def loginOutcome (answer : Served) : LoginOutcome :=
  if answer = loginOk then .accepted
  else if answer = loginRefused then .refused
  else .error

section Answer

variable (D : Doubles) (fresh : (n : ℕ) → Buf n)

theorem sendable_credentials {username password : List Char} (hu : NulFree username)
    (hp : NulFree password) : Sendable (credentials username password) :=
  ⟨⟨nulFree_ascii rfl, hu⟩, ⟨nulFree_ascii rfl, hp⟩, trivial⟩

theorem depth_credentials_le (username password : List Char) :
    Json.depth (ofJs (credentials username password)) ≤ Json.nestingLimit := by
  have hone : Json.depth (ofJs (credentials username password)) = 1 := rfl
  rw [hone]
  decide

theorem recvBody_loginRequest (username password : List Char) :
    recvBody (loginRequest username password) = some (sent (credentials username password)) := by
  have hne : utf8 (stringify (credentials username password)) ≠ [] := by
    rw [credentials, stringify, List.cons_append, Js.utf8_cons]
    exact List.cons_ne_nil _ _
  rw [loginRequest, recvBody_whole hne]
  rfl

/-- **What the device answers to a pair**: it is compared as it was typed, if its text is not
too long. -/
theorem run_apiAuthHandler_typed (username password : Typed) (fs : List (Option EspErr))
    (s : Nvs) :
    ((apiAuthHandler (cJsonParser D fresh) .post
        (loginRequest username.text password.text)).run nvs fs s).value
      = if 256 ≤ (loginRequest username.text password.text).contentLen then
          sendErr 400 "Invalid body"
        else if ((wifiConfigVerifyAuth (bytes username.text) (bytes password.text)).run nvs fs
            s).value = true then loginOk
        else loginRefused := by
  have hsend := sendable_credentials username.nulFree password.nulFree
  have hparse : (cJsonParser D fresh).parse (sent (credentials username.text password.text))
      = some (ofJs (credentials username.text password.text)) := by
    simp only [cJsonParser, Json.cJsonParse_stringify D fresh hsend (depth_credentials_le _ _)]
  have hpos : (loginRequest username.text password.text).contentLen ≠ 0 := by
    show (utf8 (stringify (credentials username.text password.text))).length ≠ 0
    rw [credentials, stringify, List.cons_append, Js.utf8_cons, List.length_append]
    exact Nat.ne_of_gt (Nat.add_pos_left (by decide) _)
  unfold apiAuthHandler
  rw [if_neg (not_not_intro rfl)]
  by_cases hlong : 256 ≤ (loginRequest username.text password.text).contentLen
  · rw [if_pos (.inr hlong), if_pos hlong]
    rfl
  · rw [if_neg (not_or.mpr ⟨hpos, hlong⟩), if_neg hlong, recvBody_loginRequest]
    simp only [hparse]
    have husername : postedString (ofJs (credentials username.text password.text)) "username"
        = some (bytes username.text) := rfl
    have hpassword : postedString (ofJs (credentials username.text password.text)) "password"
        = some (bytes password.text) := rfl
    simp only [husername, hpassword]
    rw [Script.run_bind]
    cases hv : ((wifiConfigVerifyAuth (bytes username.text) (bytes password.text)).run nvs fs
      s).value
    · rfl
    · rfl

/-- What the page makes of a pair. -/
def typedOutcome (username password : Typed) (s : Nvs) : LoginOutcome :=
  loginOutcome ((apiAuthHandler (cJsonParser D fresh) .post
    (loginRequest username.text password.text)).run nvs [] s).value

/-- **Which pairs are let in**: the stored one, if its text is not too long; of a text that is
too long the page says that there was no connection. -/
theorem typedOutcome_iff (username password : Typed) (s : Nvs) :
    (typedOutcome D fresh username password s = .accepted ↔
        (loginRequest username.text password.text).contentLen < 256 ∧
          (bytes username.text, bytes password.text) = s.login) ∧
      (typedOutcome D fresh username password s = .error ↔
        256 ≤ (loginRequest username.text password.text).contentLen) := by
  have hanswer := run_apiAuthHandler_typed D fresh username password [] s
  have hverify := run_wifiConfigVerifyAuth s (bytes username.text) (bytes password.text)
  unfold typedOutcome
  rw [hanswer]
  by_cases hlong : 256 ≤ (loginRequest username.text password.text).contentLen
  · rw [if_pos hlong]
    have herror : loginOutcome (sendErr 400 "Invalid body") = .error := by decide
    rw [herror]
    exact ⟨iff_of_false (by decide) fun h => absurd h.1 (Nat.not_lt.mpr hlong),
      iff_of_true rfl hlong⟩
  · rw [if_neg hlong, ← hverify]
    cases ((wifiConfigVerifyAuth (bytes username.text) (bytes password.text)).run nvs [] s).value
    · exact ⟨iff_of_false (by decide) fun h => absurd h.2 (by decide),
        iff_of_false (by decide) hlong⟩
    · exact ⟨iff_of_true (by decide) ⟨Nat.lt_of_not_le hlong, rfl⟩,
        iff_of_false (by decide) hlong⟩

end Answer

/-- A pair of printable strings that fit their arrays is short enough. -/
theorem length_loginRequest_lt {username password : List Char}
    (hu : ∀ a ∈ username, 0x20 ≤ a.toNat) (hp : ∀ a ∈ password, 0x20 ≤ a.toNat)
    (hulen : (utf8 username).length ≤ maxUsernameLen)
    (hplen : (utf8 password).length ≤ maxDashPassLen) :
    (loginRequest username password).contentLen < 256 := by
  have husername := length_member_string "username".toList (by decide) hu hulen
  have hpassword := length_member_string "password".toList (by decide) hp hplen
  have hmembers := length_stringifyMembers_le [("username".toList, .string username),
    ("password".toList, .string password)]
  have hbraces : (String.utf8EncodeChar '\x7b').length + (utf8 ['\x7d']).length = 2 := by decide
  show (utf8 (stringify (credentials username password))).length < 256
  rw [membersLength_cons] at hmembers
  rw [credentials, stringify, Js.utf8_append, Js.utf8_cons, List.length_append,
    List.length_append]
  have huser : maxUsernameLen = 32 := rfl
  have hpass : maxDashPassLen = 64 := rfl
  omega

/-! ### The dialogs -/

/-- A login that is under way. -/
structure Attempt where
  /-- The user name, trimmed. -/
  username : Typed
  /-- The password. -/
  password : Typed
  /-- What the device has answered, once it has. -/
  answer : Option Served

/-- What the page posts apart from logins. -/
inductive PagePost
  /-- To `/api/config`. -/
  | config (c : PageConfig)
  /-- To `/api/restart`. -/
  | restart
  /-- To `/api/config/reset`. -/
  | reset
  /-- To `/api/shutdown`. -/
  | shutdown

/-- The dialogs of the dashboard, from one load of the page to the next. -/
structure LoginPage where
  /-- `dashboardAuthenticated`. -/
  dashboardAuthenticated : Bool
  /-- Whether `loginModal` is displayed. -/
  loginModal : Bool
  /-- Whether `settingsModal` is displayed. -/
  settingsModal : Bool
  /-- Whether `resetModal` is displayed. -/
  resetModal : Bool
  /-- Whether `shutdownModal` is displayed. -/
  shutdownModal : Bool
  /-- `login_user`. -/
  loginUser : Typed
  /-- `login_pass`. -/
  loginPass : Typed
  /-- The text of `loginError`, `none` while it is not displayed. -/
  loginError : Option String
  /-- Whether `loginSubmitBtn` is disabled, with the text `Verifying...`. -/
  submitDisabled : Bool
  /-- The logins under way. -/
  attempts : List Attempt
  /-- The configurations that were posted and not yet answered. -/
  saving : ℕ
  /-- What was posted, newest first. -/
  posts : List PagePost

/-- The page as it is loaded. -/
def LoginPage.loaded : LoginPage :=
  ⟨false, false, false, false, false, .empty, .empty, none, false, [], 0, []⟩

namespace LoginPage

/-- `openLoginModal`. -/
def openLoginModal (p : LoginPage) : LoginPage :=
  { p with loginError := none, loginUser := .empty, loginPass := .empty, loginModal := true }

/-- `closeLoginModal`. -/
def closeLoginModal (p : LoginPage) : LoginPage := { p with loginModal := false }

/-- `openSettingsPanel`. -/
def openSettingsPanel (p : LoginPage) : LoginPage := { p with settingsModal := true }

/-- `openSettings`. -/
def openSettings (p : LoginPage) : LoginPage :=
  if p.dashboardAuthenticated = false then p.openLoginModal else p.openSettingsPanel

/-- `closeSettings`. -/
def closeSettings (p : LoginPage) : LoginPage := { p with settingsModal := false }

/-- `submitLogin`, up to its request. -/
def submitLogin (p : LoginPage) : LoginPage :=
  let username := p.loginUser.trim
  let password := p.loginPass
  if username.text = [] ∨ password.text = [] then
    { p with loginError := some "❌ Please enter both username and password." }
  else
    { p with submitDisabled := true, attempts := p.attempts ++ [⟨username, password, none⟩] }

/-- The rest of `submitLogin`, when its request has ended. -/
def loginEnded (p : LoginPage) : LoginOutcome → LoginPage
  | .accepted =>
      openSettingsPanel (closeLoginModal
        { p with submitDisabled := false, dashboardAuthenticated := true })
  | .refused =>
      { p with submitDisabled := false, loginError := some "❌ Invalid username or password." }
  | .error =>
      { p with submitDisabled := false, loginError := some "❌ Connection error. Try again." }

/-- `saveSettings`, up to its request. -/
def submitSettings (p : LoginPage) (f : SettingsForm) (confirmed : Bool) : LoginPage :=
  match saveSettings f confirmed with
  | .message _ | .nothing => p
  | .post c => { p with saving := p.saving + 1, posts := .config c :: p.posts }

/-- The rest of `saveSettings`. -/
def saveEnded (p : LoginPage) (saved : Bool) : LoginPage :=
  if saved = true then { p.closeSettings with saving := p.saving - 1, posts := .restart :: p.posts }
  else { p with saving := p.saving - 1 }

/-- `showResetModal`. -/
def showResetModal (p : LoginPage) : LoginPage :=
  { p with settingsModal := false, resetModal := true }

/-- `closeResetModal`. -/
def closeResetModal (p : LoginPage) : LoginPage :=
  { p with resetModal := false, settingsModal := true }

/-- `confirmReset`. -/
def confirmReset (p : LoginPage) : LoginPage :=
  { p with resetModal := false, posts := .reset :: p.posts }

/-- `showShutdownModal`. -/
def showShutdownModal (p : LoginPage) : LoginPage := { p with shutdownModal := true }

/-- `closeShutdownModal`. -/
def closeShutdownModal (p : LoginPage) : LoginPage := { p with shutdownModal := false }

/-- `confirmShutdown`. -/
def confirmShutdown (p : LoginPage) : LoginPage :=
  { p.closeShutdownModal with posts := .shutdown :: p.posts }

end LoginPage

/-- The page and the device. -/
structure LoginSystem where
  /-- The page. -/
  page : LoginPage
  /-- The store of the device. -/
  store : Nvs

/-- What happens.  A click beside a dialog does what the button does that closes it. -/
inductive PageEvent
  /-- A user name is typed. -/
  | typeUser (t : Typed)
  /-- A password is typed. -/
  | typePass (t : Typed)
  /-- The button of the header. -/
  | openSettings
  /-- The dialog is cancelled. -/
  | closeLogin
  /-- The button of the login dialog. -/
  | submit
  /-- The Enter key in the password. -/
  | enter
  /-- The device handles a login; some of the reads of its store may fail. -/
  | handled (i : ℕ) (fs : List (Option EspErr))
  /-- The answer to a login arrives. -/
  | answered (i : ℕ)
  /-- The connection of a login is lost. -/
  | lost (i : ℕ)
  /-- The settings are closed. -/
  | closeSettings
  /-- The settings are saved, from what the inputs hold. -/
  | save (f : SettingsForm) (confirmed : Bool)
  /-- A save has ended. -/
  | saveEnded (saved : Bool)
  /-- The button for the defaults. -/
  | showReset
  /-- The reset is cancelled. -/
  | closeReset
  /-- The reset is confirmed. -/
  | confirmReset
  /-- The button of the header. -/
  | showShutdown
  /-- The shutdown is cancelled. -/
  | closeShutdown
  /-- The shutdown is confirmed. -/
  | confirmShutdown
  /-- Something else is done to the store. -/
  | store (s : Nvs)

namespace LoginSystem

/-- A step of the page alone. -/
def onPage (s : LoginSystem) (p : LoginPage) : LoginSystem := { s with page := p }

/-- What is in a dialog can be used while the dialog is displayed. -/
def within (shown : Bool) (s : LoginSystem) (p : LoginPage) : Option LoginSystem :=
  if shown = true then some (s.onPage p) else none

/-- What an event does; the page is the dashboard, whose parser is `P`. -/
def step (P : CJsonParser) (s : LoginSystem) : PageEvent → Option LoginSystem
  | .typeUser t => s.within s.page.loginModal { s.page with loginUser := t }
  | .typePass t => s.within s.page.loginModal { s.page with loginPass := t }
  | .openSettings => some (s.onPage s.page.openSettings)
  | .closeLogin => s.within s.page.loginModal s.page.closeLoginModal
  | .submit => s.within (s.page.loginModal && !s.page.submitDisabled) s.page.submitLogin
  | .enter => s.within s.page.loginModal s.page.submitLogin
  | .handled i fs =>
      s.page.attempts[i]?.bind fun a =>
        match a.answer with
        | some _ => none
        | none =>
            let answer := ((apiAuthHandler P .post
              (loginRequest a.username.text a.password.text)).run nvs fs s.store).value
            some (s.onPage { s.page with attempts := s.page.attempts.set i { a with answer } })
  | .answered i =>
      s.page.attempts[i]?.bind fun a => a.answer.map fun answer =>
        s.onPage ({ s.page with attempts := s.page.attempts.eraseIdx i }.loginEnded
          (loginOutcome answer))
  | .lost i =>
      s.page.attempts[i]?.map fun _ =>
        s.onPage ({ s.page with attempts := s.page.attempts.eraseIdx i }.loginEnded .error)
  | .closeSettings => s.within s.page.settingsModal s.page.closeSettings
  | .save f confirmed => s.within s.page.settingsModal (s.page.submitSettings f confirmed)
  | .saveEnded saved => s.within (0 < s.page.saving) (s.page.saveEnded saved)
  | .showReset => s.within s.page.settingsModal s.page.showResetModal
  | .closeReset => s.within s.page.resetModal s.page.closeResetModal
  | .confirmReset => s.within s.page.resetModal s.page.confirmReset
  | .showShutdown => some (s.onPage s.page.showShutdownModal)
  | .closeShutdown => s.within s.page.shutdownModal s.page.closeShutdownModal
  | .confirmShutdown => s.within s.page.shutdownModal s.page.confirmShutdown
  | .store t => some { s with store := t }

theorem within_eq_some {shown : Bool} {s s' : LoginSystem} {p : LoginPage} :
    s.within shown p = some s' ↔ shown = true ∧ s' = s.onPage p := by
  unfold within
  by_cases h : shown = true
  · rw [if_pos h, Option.some.injEq]
    exact ⟨fun hs => ⟨h, hs.symm⟩, fun hs => hs.2.symm⟩
  · rw [if_neg h]
    exact iff_of_false (by simp) fun hs => h hs.1

end LoginSystem

/-! ### What the dialogs show -/

/-- The dialogs agree with each other. -/
structure Consistent (p : LoginPage) : Prop where
  /-- The settings and the reset are displayed after an accepted login. -/
  opened : p.settingsModal = true ∨ p.resetModal = true → p.dashboardAuthenticated = true
  /-- The login dialog is displayed before one. -/
  closed : p.dashboardAuthenticated = true → p.loginModal = false
  /-- The button is disabled while a login is under way. -/
  disabled : p.submitDisabled = true → p.attempts ≠ []

theorem consistent_loaded : Consistent .loaded :=
  ⟨by simp [LoginPage.loaded], by simp [LoginPage.loaded], by simp [LoginPage.loaded]⟩

namespace Consistent

variable {p : LoginPage}

theorem openSettings (h : Consistent p) : Consistent p.openSettings := by
  rw [LoginPage.openSettings]
  split_ifs with hauth
  · exact ⟨h.opened, fun ha => absurd ha (by simp [LoginPage.openLoginModal, hauth]), h.disabled⟩
  · exact ⟨fun _ => Bool.eq_true_of_not_eq_false hauth, h.closed, h.disabled⟩

theorem submitLogin (h : Consistent p) : Consistent p.submitLogin := by
  unfold LoginPage.submitLogin
  simp only
  split_ifs
  · exact { h with }
  · exact ⟨h.opened, h.closed, fun _ => by simp⟩

/-- When a login ends, the button is enabled. -/
theorem loginEnded (h : Consistent p) (attempts : List Attempt) (outcome : LoginOutcome) :
    Consistent ({ p with attempts }.loginEnded outcome) := by
  cases outcome with
  | accepted => exact ⟨fun _ => rfl, fun _ => rfl, fun hd => absurd hd Bool.false_ne_true⟩
  | refused => exact ⟨h.opened, h.closed, fun hd => absurd hd Bool.false_ne_true⟩
  | error => exact ⟨h.opened, h.closed, fun hd => absurd hd Bool.false_ne_true⟩

theorem submitSettings (h : Consistent p) (f : SettingsForm) (confirmed : Bool) :
    Consistent (p.submitSettings f confirmed) := by
  unfold LoginPage.submitSettings
  cases saveSettings f confirmed with
  | message text => exact h
  | nothing => exact h
  | post c => exact { h with }

theorem saveEnded (h : Consistent p) (saved : Bool) : Consistent (p.saveEnded saved) := by
  unfold LoginPage.saveEnded
  split_ifs
  · exact ⟨fun hshown => h.opened (.inr (hshown.resolve_left Bool.false_ne_true)), h.closed,
      h.disabled⟩
  · exact { h with }

end Consistent

theorem consistent_step {P : CJsonParser} {s s' : LoginSystem} {e : PageEvent}
    (h : Consistent s.page) (hs : LoginSystem.step P s e = some s') : Consistent s'.page := by
  cases e with
  | typeUser t | typePass t | showShutdown | closeShutdown | confirmShutdown =>
    first
    | obtain ⟨-, rfl⟩ := LoginSystem.within_eq_some.mp hs
      exact { h with }
    | obtain rfl := Option.some.inj hs
      exact { h with }
  | openSettings =>
    obtain rfl := Option.some.inj hs
    exact h.openSettings
  | closeLogin =>
    obtain ⟨-, rfl⟩ := LoginSystem.within_eq_some.mp hs
    exact ⟨h.opened, fun _ => rfl, h.disabled⟩
  | submit =>
    obtain ⟨-, rfl⟩ := LoginSystem.within_eq_some.mp hs
    exact h.submitLogin
  | enter =>
    obtain ⟨-, rfl⟩ := LoginSystem.within_eq_some.mp hs
    exact h.submitLogin
  | handled i fs =>
    obtain ⟨a, ha, hs⟩ := Option.bind_eq_some_iff.mp hs
    cases hanswer : a.answer with
    | some answer =>
      simp only [hanswer] at hs
      exact absurd hs (by simp)
    | none =>
      simp only [hanswer, Option.some.injEq] at hs
      subst hs
      exact ⟨h.opened, h.closed, fun hd => by
        rw [LoginSystem.onPage, ne_eq, List.set_eq_nil_iff]
        exact h.disabled hd⟩
  | answered i =>
    obtain ⟨a, -, hs⟩ := Option.bind_eq_some_iff.mp hs
    obtain ⟨answer, -, rfl⟩ := Option.map_eq_some_iff.mp hs
    exact h.loginEnded _ _
  | lost i =>
    obtain ⟨a, -, rfl⟩ := Option.map_eq_some_iff.mp hs
    exact h.loginEnded _ .error
  | closeSettings =>
    obtain ⟨hshown, rfl⟩ := LoginSystem.within_eq_some.mp hs
    exact ⟨fun _ => h.opened (.inl hshown), h.closed, h.disabled⟩
  | save f confirmed =>
    obtain ⟨-, rfl⟩ := LoginSystem.within_eq_some.mp hs
    exact h.submitSettings f confirmed
  | saveEnded saved =>
    obtain ⟨-, rfl⟩ := LoginSystem.within_eq_some.mp hs
    exact h.saveEnded saved
  | showReset =>
    obtain ⟨hshown, rfl⟩ := LoginSystem.within_eq_some.mp hs
    exact ⟨fun _ => h.opened (.inl hshown), h.closed, h.disabled⟩
  | closeReset =>
    obtain ⟨hshown, rfl⟩ := LoginSystem.within_eq_some.mp hs
    exact ⟨fun _ => h.opened (.inr hshown), h.closed, h.disabled⟩
  | confirmReset =>
    obtain ⟨hshown, rfl⟩ := LoginSystem.within_eq_some.mp hs
    exact ⟨fun _ => h.opened (.inr hshown), h.closed, h.disabled⟩
  | store t =>
    obtain rfl := Option.some.inj hs
    exact h

/-- **What the dialogs show**, in every state the page can reach. -/
theorem dialogs_consistent {P : CJsonParser} {es : List PageEvent} {s₀ : Nvs} {s : LoginSystem}
    (h : Machine.exec (LoginSystem.step P) ⟨.loaded, s₀⟩ es = some s) : Consistent s.page := by
  have hreach : Machine.Reach (LoginSystem.step P) (fun _ _ => True) ⟨.loaded, s₀⟩ s :=
    Machine.reach_of_exec (Machine.admitted_of_forall fun _ _ => trivial) h
  exact hreach.invariant (I := fun s => Consistent s.page) consistent_loaded
    fun _ _ _ hi _ hs => consistent_step hi hs

/-! ### Behind the login -/

/-- No login was accepted, nothing was opened, and nothing but the shutdown was posted. -/
structure Locked (p : LoginPage) : Prop where
  /-- No login was accepted. -/
  authenticated : p.dashboardAuthenticated = false
  /-- The settings are not displayed. -/
  settings : p.settingsModal = false
  /-- The reset is not displayed. -/
  reset : p.resetModal = false
  /-- No answer that is on its way accepts a login. -/
  attempts : ∀ a ∈ p.attempts, ∀ answer ∈ a.answer, loginOutcome answer ≠ .accepted
  /-- No configuration is being saved. -/
  saving : p.saving = 0
  /-- Only the shutdown was posted. -/
  posts : ∀ post ∈ p.posts, post = .shutdown

theorem locked_loaded : Locked .loaded where
  authenticated := rfl
  settings := rfl
  reset := rfl
  attempts _ ha := absurd ha List.not_mem_nil
  saving := rfl
  posts _ hp := absurd hp List.not_mem_nil

namespace Locked

variable {p : LoginPage}

theorem openSettings (h : Locked p) : Locked p.openSettings := by
  rw [LoginPage.openSettings, if_pos h.authenticated]
  exact { h with }

theorem submitLogin (h : Locked p) : Locked p.submitLogin := by
  unfold LoginPage.submitLogin
  simp only
  split_ifs
  · exact { h with }
  · refine { h with attempts := ?_ }
    rintro a ha answer hanswer
    rcases List.mem_append.mp ha with ha | ha
    · exact h.attempts a ha answer hanswer
    -- the new login has no answer yet
    · rw [List.mem_singleton.mp ha] at hanswer
      exact absurd hanswer (by simp)

theorem loginEnded (h : Locked p) {outcome : LoginOutcome} (hne : outcome ≠ .accepted) :
    Locked (p.loginEnded outcome) := by
  cases outcome with
  | accepted => exact absurd rfl hne
  | refused => exact { h with }
  | error => exact { h with }

theorem eraseIdx (h : Locked p) (i : ℕ) :
    Locked { p with attempts := p.attempts.eraseIdx i } :=
  { h with attempts := fun a ha => h.attempts a (List.mem_of_mem_eraseIdx ha) }

theorem set (h : Locked p) (i : ℕ) {a : Attempt}
    (ha : ∀ answer ∈ a.answer, loginOutcome answer ≠ .accepted) :
    Locked { p with attempts := p.attempts.set i a } := by
  refine { h with attempts := fun b hb => ?_ }
  rcases List.mem_or_eq_of_mem_set hb with hb | rfl
  · exact h.attempts b hb
  · exact ha

end Locked

/-- The device lets a pair in. -/
def LetsIn (s : LoginSystem) (e : PageEvent) : Prop :=
  ∃ i fs a, e = .handled i fs ∧ s.page.attempts[i]? = some a ∧
    (loginRequest a.username.text a.password.text).contentLen < 256 ∧
    ((wifiConfigVerifyAuth (bytes a.username.text) (bytes a.password.text)).run nvs fs
      s.store).value = true

section Run

variable (D : Doubles) (fresh : (n : ℕ) → Buf n)

/-- An answer that accepts a login, and why. -/
theorem verified_of_accepted {username password : Typed} {fs : List (Option EspErr)} {s : Nvs}
    (h : loginOutcome ((apiAuthHandler (cJsonParser D fresh) .post
      (loginRequest username.text password.text)).run nvs fs s).value = .accepted) :
    (loginRequest username.text password.text).contentLen < 256 ∧
      ((wifiConfigVerifyAuth (bytes username.text) (bytes password.text)).run nvs fs s).value
        = true := by
  rw [run_apiAuthHandler_typed] at h
  split_ifs at h with hlong hv
  · exact absurd h (by decide)
  · exact ⟨Nat.lt_of_not_le hlong, hv⟩
  · exact absurd h (by decide)

/-- **A step**: the page stays locked unless the device lets a pair in. -/
theorem locked_step {s s' : LoginSystem} {e : PageEvent} (h : Locked s.page)
    (hs : LoginSystem.step (cJsonParser D fresh) s e = some s') :
    Locked s'.page ∨ LetsIn s e := by
  cases e with
  | typeUser t =>
    obtain ⟨-, rfl⟩ := LoginSystem.within_eq_some.mp hs
    exact .inl { h with }
  | typePass t =>
    obtain ⟨-, rfl⟩ := LoginSystem.within_eq_some.mp hs
    exact .inl { h with }
  | openSettings =>
    obtain rfl := Option.some.inj hs
    exact .inl h.openSettings
  | closeLogin =>
    obtain ⟨-, rfl⟩ := LoginSystem.within_eq_some.mp hs
    exact .inl { h with }
  | submit =>
    obtain ⟨-, rfl⟩ := LoginSystem.within_eq_some.mp hs
    exact .inl h.submitLogin
  | enter =>
    obtain ⟨-, rfl⟩ := LoginSystem.within_eq_some.mp hs
    exact .inl h.submitLogin
  | handled i fs =>
    obtain ⟨a, ha, hs⟩ := Option.bind_eq_some_iff.mp hs
    cases hanswer : a.answer with
    | some answer =>
      simp only [hanswer] at hs
      exact absurd hs (by simp)
    | none =>
      simp only [hanswer, Option.some.injEq] at hs
      subst hs
      by_cases haccepted : loginOutcome ((apiAuthHandler (cJsonParser D fresh) .post
          (loginRequest a.username.text a.password.text)).run nvs fs s.store).value = .accepted
      · exact .inr ⟨i, fs, a, rfl, ha, verified_of_accepted D fresh haccepted⟩
      · refine .inl (h.set i fun answer hmem => ?_)
        rwa [← Option.mem_some_iff.mp hmem]
  | answered i =>
    obtain ⟨a, ha, hs⟩ := Option.bind_eq_some_iff.mp hs
    obtain ⟨answer, hanswer, rfl⟩ := Option.map_eq_some_iff.mp hs
    exact .inl ((h.eraseIdx i).loginEnded
      (h.attempts a (List.mem_of_getElem? ha) answer hanswer))
  | lost i =>
    obtain ⟨a, -, rfl⟩ := Option.map_eq_some_iff.mp hs
    exact .inl ((h.eraseIdx i).loginEnded (by decide : LoginOutcome.error ≠ .accepted))
  -- what is in a dialog that is not displayed cannot be used
  | closeSettings =>
    obtain ⟨hshown, -⟩ := LoginSystem.within_eq_some.mp hs
    exact absurd hshown (by simp [h.settings])
  | save f confirmed =>
    obtain ⟨hshown, -⟩ := LoginSystem.within_eq_some.mp hs
    exact absurd hshown (by simp [h.settings])
  | saveEnded saved =>
    obtain ⟨hsaving, -⟩ := LoginSystem.within_eq_some.mp hs
    exact absurd hsaving (by simp [h.saving])
  | showReset =>
    obtain ⟨hshown, -⟩ := LoginSystem.within_eq_some.mp hs
    exact absurd hshown (by simp [h.settings])
  | closeReset =>
    obtain ⟨hshown, -⟩ := LoginSystem.within_eq_some.mp hs
    exact absurd hshown (by simp [h.reset])
  | confirmReset =>
    obtain ⟨hshown, -⟩ := LoginSystem.within_eq_some.mp hs
    exact absurd hshown (by simp [h.reset])
  | showShutdown =>
    obtain rfl := Option.some.inj hs
    exact .inl { h with }
  | closeShutdown =>
    obtain ⟨-, rfl⟩ := LoginSystem.within_eq_some.mp hs
    exact .inl { h with }
  | confirmShutdown =>
    obtain ⟨-, rfl⟩ := LoginSystem.within_eq_some.mp hs
    refine .inl { h with posts := fun post hpost => ?_ }
    rcases List.mem_cons.mp hpost with rfl | hpost
    · rfl
    · exact h.posts post hpost
  | store t =>
    obtain rfl := Option.some.inj hs
    exact .inl h

/-- **The settings are behind an accepted login**: where one of their dialogs is displayed, or
a configuration, a reset or a restart was posted, the device has let in a pair that was sent
from this page, and that was the stored one at that moment. -/
theorem settings_behind_login {es : List PageEvent} {s₀ : Nvs} {s : LoginSystem}
    (h : Machine.exec (LoginSystem.step (cJsonParser D fresh)) ⟨.loaded, s₀⟩ es = some s)
    (hopen : s.page.settingsModal = true ∨ s.page.resetModal = true ∨
      ∃ post ∈ s.page.posts, post ≠ .shutdown) :
    ∃ before i fs after t a, es = before ++ .handled i fs :: after ∧
      Machine.exec (LoginSystem.step (cJsonParser D fresh)) ⟨.loaded, s₀⟩ before = some t ∧
      t.page.attempts[i]? = some a ∧
      ((wifiConfigVerifyAuth (bytes a.username.text) (bytes a.password.text)).run nvs fs
        t.store).value = true ∧
      ((∀ f ∈ fs, f = none) → (bytes a.username.text, bytes a.password.text) = t.store.login) := by
  have hnot : ¬Locked s.page := by
    intro hl
    rcases hopen with hshown | hshown | ⟨post, hpost, hne⟩
    · exact absurd hshown (by simp [hl.settings])
    · exact absurd hshown (by simp [hl.reset])
    · exact hne (hl.posts post hpost)
  obtain ⟨before, e, after, t, rfl, ht, -, i, fs, a, rfl, ha, -, hv⟩ :=
    Machine.exists_step_of_exec (P := fun s => ¬Locked s.page) (Q := LetsIn)
      (fun s e s' hl hs hnot =>
        (locked_step D fresh (not_not.mp hl) hs).resolve_left hnot) h
      (not_not_intro locked_loaded) hnot
  refine ⟨before, i, fs, after, t, a, rfl, ht, ha, hv, fun hfs => ?_⟩
  rw [(Script.run_of_noFault nvs _ hfs _).1] at hv
  exact (run_wifiConfigVerifyAuth _ _ _).mp hv

/-! ### Letting in -/

/-- A pair is typed into the login dialog, submitted, handled and answered. -/
def logIn (username password : Typed) (n : ℕ) : List PageEvent :=
  [.typeUser username, .typePass password, .submit, .handled n [], .answered n]

/-- That leads to the settings. -/
def Opens (s : LoginSystem) (username password : Typed) : Prop :=
  ∃ s', Machine.exec (LoginSystem.step (cJsonParser D fresh)) s
      (logIn username password s.page.attempts.length) = some s' ∧
    s'.page.settingsModal = true

/-- The dialog sends a pair on, and its text is not too long for the device. -/
structure Passes (username password : Typed) : Prop where
  /-- There is a user name. -/
  named : username.trim.text ≠ []
  /-- There is a password. -/
  secret : password.text ≠ []
  /-- The two fit the buffer. -/
  short : (loginRequest username.trim.text password.text).contentLen < 256

theorem submitLogin_typed {p : LoginPage} (hname : p.loginUser.trim.text ≠ [])
    (hpass : p.loginPass.text ≠ []) :
    p.submitLogin = { p with
      submitDisabled := true
      attempts := p.attempts ++ [⟨p.loginUser.trim, p.loginPass, none⟩] } := by
  unfold LoginPage.submitLogin
  exact if_neg (not_or.mpr ⟨hname, hpass⟩)

theorem settingsModal_loginEnded (p : LoginPage) (outcome : LoginOutcome) :
    (p.loginEnded outcome).settingsModal = true ↔
      outcome = .accepted ∨ p.settingsModal = true := by
  cases outcome with
  | accepted => exact iff_of_true rfl (.inl rfl)
  | refused => exact (or_iff_right (by decide)).symm
  | error => exact (or_iff_right (by decide)).symm

/-- A login that was sent, handled and answered. -/
theorem exec_handled_answered {t : LoginSystem} {n : ℕ} {username password : Typed}
    (h : t.page.attempts[n]? = some ⟨username, password, none⟩) :
    ∃ attempts, Machine.exec (LoginSystem.step (cJsonParser D fresh)) t
        [.handled n [], .answered n]
      = some (t.onPage ({ t.page with attempts }.loginEnded
          (typedOutcome D fresh username password t.store))) := by
  have hlt : n < t.page.attempts.length := (List.getElem?_eq_some_iff.mp h).1
  let answer := ((apiAuthHandler (cJsonParser D fresh) .post
    (loginRequest username.text password.text)).run nvs [] t.store).value
  refine ⟨(t.page.attempts.set n ⟨username, password, some answer⟩).eraseIdx n, ?_⟩
  simp only [Machine.exec, LoginSystem.step, h, Option.bind_some, LoginSystem.onPage,
    List.getElem?_set_self hlt, Option.map_some]
  rfl

/-- **The dialog opens for the pair that is stored**, and for no other. -/
theorem opens_iff {s : LoginSystem} (hmodal : s.page.loginModal = true)
    (henabled : s.page.submitDisabled = false) (hclosed : s.page.settingsModal = false)
    (username password : Typed) :
    Opens D fresh s username password ↔ Passes username password ∧
      (bytes username.trim.text, bytes password.text) = s.store.login := by
  let p : LoginPage := { s.page with loginUser := username, loginPass := password }
  let n := s.page.attempts.length
  have hsubmit : Machine.exec (LoginSystem.step (cJsonParser D fresh)) s (logIn username password n)
      = Machine.exec (LoginSystem.step (cJsonParser D fresh)) (s.onPage p.submitLogin)
          [.handled n [], .answered n] := by
    simp [logIn, Machine.exec, LoginSystem.step, LoginSystem.within, LoginSystem.onPage, hmodal,
      henabled, p]
  unfold Opens
  rw [hsubmit]
  by_cases hsent : username.trim.text ≠ [] ∧ password.text ≠ []
  · have hattempts : p.submitLogin.attempts[n]? = some ⟨username.trim, password, none⟩ := by
      rw [submitLogin_typed hsent.1 hsent.2]
      simp [p, n]
    have hsettings : p.submitLogin.settingsModal = false := by
      rw [submitLogin_typed hsent.1 hsent.2]
      exact hclosed
    obtain ⟨attempts, hrun⟩ := exec_handled_answered D fresh (t := s.onPage p.submitLogin) hattempts
    rw [hrun]
    simp only [Option.some.injEq, exists_eq_left']
    rw [LoginSystem.onPage, settingsModal_loginEnded, LoginSystem.onPage, hsettings,
      or_iff_left (by decide), (typedOutcome_iff D fresh _ _ _).1]
    exact ⟨fun h => ⟨⟨hsent.1, hsent.2, h.1⟩, h.2⟩, fun h => ⟨h.1.short, h.2⟩⟩
  -- nothing is sent, so that there is nothing to handle
  · have hattempts : p.submitLogin.attempts[n]? = none := by
      unfold LoginPage.submitLogin
      rw [not_and_or, not_not, not_not] at hsent
      simp [p, n, hsent]
    refine iff_of_false ?_ fun h => hsent ⟨h.1.named, h.1.secret⟩
    rintro ⟨s', hs', -⟩
    rw [Machine.exec, Option.bind_eq_some_iff] at hs'
    obtain ⟨t, ht, -⟩ := hs'
    obtain ⟨a, ha, -⟩ := Option.bind_eq_some_iff.mp ht
    exact absurd (hattempts.symm.trans ha) (by simp)

end Run

/-! ### The first login -/

/-- The default user name, with a blank too many. -/
def typedAdmin : Typed := ⟨"admin ".toList, nulFree_ascii rfl⟩

/-- The default password. -/
def typedDefault : Typed := ⟨"12345678".toList, nulFree_ascii rfl⟩

theorem exec_openSettings (P : CJsonParser) (p : LoginPage) (s : Nvs) (es : List PageEvent) :
    Machine.exec (LoginSystem.step P) ⟨p, s⟩ (.openSettings :: es)
      = Machine.exec (LoginSystem.step P) ⟨p.openSettings, s⟩ es := rfl

theorem printable_of_all {s : List Char} (h : s.all fun a => 0x20 ≤ a.toNat) :
    ∀ a ∈ s, 0x20 ≤ a.toNat :=
  fun a ha => by simpa using List.all_eq_true.mp h a ha

theorem passes_default : Passes typedAdmin typedDefault where
  named := by decide
  secret := by decide
  short := length_loginRequest_lt (printable_of_all rfl) (printable_of_all rfl) (by decide)
    (by decide)

/-- The login that was let in there. -/
theorem default_let_in :
    ∃ before i fs after t a,
      .openSettings :: logIn typedAdmin typedDefault 0 = before ++ .handled i fs :: after ∧
      Machine.exec (LoginSystem.step (cJsonParser Json.wholeDoubles Buf.zero)) ⟨.loaded, none⟩
        before = some t ∧
      t.page.attempts[i]? = some a ∧
      ((wifiConfigVerifyAuth (bytes a.username.text) (bytes a.password.text)).run nvs fs
        t.store).value = true ∧
      ((∀ f ∈ fs, f = none) → (bytes a.username.text, bytes a.password.text) = t.store.login) := by
  obtain ⟨s', hs', hshown⟩ := (opens_iff Json.wholeDoubles Buf.zero
    (s := ⟨LoginPage.loaded.openSettings, none⟩) rfl rfl rfl typedAdmin typedDefault).mpr
      ⟨passes_default, by decide⟩
  have hlen : (LoginPage.loaded.openSettings).attempts.length = 0 := rfl
  rw [hlen, ← exec_openSettings] at hs'
  exact settings_behind_login Json.wholeDoubles Buf.zero hs' (.inl hshown)

end WifiRepeater
