import WifiRepeater.Config.Manager

/-!
# The dashboard login

The login has compile-time defaults that hold until others are stored; the two strings
are stored under keys of their own and read one by one, each falling back to its default.

## Main definitions

* `DashboardAuth`, `wifiConfigLoadAuth`, `wifiConfigVerifyAuth` — the login in force, and
  the check of a pair against it.

## Main results

* `wifiConfigVerifyAuth_reads` — checking a pair changes nothing.
-/

namespace WifiRepeater

/-- `WIFI_CFG_MAX_USERNAME_LEN`. -/
abbrev maxUsernameLen : ℕ := 32

/-- `WIFI_CFG_MAX_DASH_PASS_LEN`. -/
abbrev maxDashPassLen : ℕ := 64

/-- `dashboard_auth_t`. -/
structure DashboardAuth where
  /-- The user name. -/
  username : Buf (maxUsernameLen + 1)
  /-- The password. -/
  password : Buf (maxDashPassLen + 1)

/-- The compile-time login. -/
def defaultAuth : DashboardAuth where
  username := (Buf.zero _).strncpy (.lit "admin") maxUsernameLen (by decide)
  password := (Buf.zero _).strncpy (.lit "12345678") maxDashPassLen (by decide)

/-- `wifi_config_load_auth`: a string that cannot be read keeps its default. -/
def wifiConfigLoadAuth : Prog DashboardAuth := do
  match ← nvsOpenReadOnly with
  | .error _ => pure defaultAuth
  | .ok _ =>
      let username ← nvsGetStr .dashUser defaultAuth.username
      let password ← nvsGetStr .dashPass defaultAuth.password
      pure ⟨username.2, password.2⟩

/-- `wifi_config_verify_auth`. -/
def wifiConfigVerifyAuth (username password : CStr) : Prog Bool := do
  let auth ← wifiConfigLoadAuth
  pure (auth.username.str == username && auth.password.str == password)

theorem wifiConfigLoadAuth_reads :
    wifiConfigLoadAuth.Issues fun op => op.isRead = true := by
  refine ⟨rfl, fun (r : EspResult) => ?_⟩
  cases r with
  | error e => exact trivial
  | ok _ => exact (nvsGetStr_reads _ _).bind fun _ => (nvsGetStr_reads _ _).bind fun _ => trivial

/-- **Checking a pair changes nothing.** -/
theorem wifiConfigVerifyAuth_reads (username password : CStr) :
    (wifiConfigVerifyAuth username password).Issues fun op => op.isRead = true :=
  wifiConfigLoadAuth_reads.bind fun _ => trivial

end WifiRepeater
