import Mathlib.Tactic.IntervalCases
import WifiRepeater.Config.Sections
import WifiRepeater.Lib.Machine

/-!
# One login at a time

The user name and the password are stored by two calls, and read by two calls that fall
back to their defaults one by one.  A pair saved as a whole is the only pair accepted.  A
save that is cut short between its two strings, a save or an erase whose commit fails, and
a string that is too long to be read leave a login that nobody has saved: half of it is the
new one, and half is the one before or the default.

## Main definitions

* `Nvs.login` — the pair that the store lets in.
* `LoginCall`, `LoginRun` — the calls under faults, and the store with the pairs that it is
  to know.
* `OnePair` — the pair last saved is the one let in.
* `LeavesOnePair` — the calls that keep it so.

## Main results

* `run_wifiConfigVerifyAuth` — the check of a pair is the comparison with the login.
* `login_accepts_one_pair_iff` — **when one pair only is let in.**
* `half_saved_login` — a new name with the password of another.
-/

namespace WifiRepeater

open Script (tryAll applyAll clear WritesAll)

/-! ### The login in force -/

/-- The default of the user name. -/
def defaultUser : CStr := .lit "admin"

/-- The default of the password. -/
def defaultPass : CStr := .lit "12345678"

/-- The default pair. -/
def defaultLogin : CStr × CStr := (defaultUser, defaultPass)

/-- What a string of at most `n` bytes is read back as: a longer one is not read. -/
def readBack (n : ℕ) (default v : CStr) : CStr := if v.length ≤ n then v else default

/-- What is read under a key. -/
def Nvs.strOr (s : Nvs) (k : NvsKey) (n : ℕ) (default : CStr) : CStr :=
  match s.get k with
  | some (.str v) => readBack n default v
  | _ => default

/-- The pair that is let in. -/
def Nvs.login (s : Nvs) : CStr × CStr :=
  (s.strOr .dashUser maxUsernameLen defaultUser, s.strOr .dashPass maxDashPassLen defaultPass)

/-- The pair of strings that a login to save holds. -/
def DashboardAuth.pair (a : DashboardAuth) : CStr × CStr := (a.usernameStr, a.passwordStr)

/-- A string that is read back as itself fits. -/
theorem readBack_eq_self_iff {n : ℕ} {d : CStr} (hd : d.length ≤ n) (v : CStr) :
    readBack n d v = v ↔ v.length ≤ n := by
  unfold readBack
  by_cases h : v.length ≤ n
  · rw [if_pos h]
    exact iff_of_true rfl h
  · rw [if_neg h]
    refine iff_of_false (fun heq => ?_) h
    rw [← heq] at h
    exact h hd

/-- A read into a buffer that holds the default. -/
theorem str_readStr {n : ℕ} (s : Nvs) (k : NvsKey) (buf : Buf (n + 1)) :
    (s.readStr k buf).2.str = s.strOr k n buf.str := by
  unfold Nvs.readStr Nvs.strOr
  cases s.get k with
  | none => rfl
  | some v =>
    cases v with
    | u8 v => rfl
    | str v =>
      simp only [readBack, Nat.lt_succ_iff]
      by_cases h : v.length ≤ n
      · rw [dif_pos h, if_pos h, Buf.str_put]
      · rw [dif_neg h, if_neg h]

theorem str_defaultAuth :
    defaultAuth.username.str = defaultUser ∧ defaultAuth.password.str = defaultPass := by
  decide

/-- A load that meets no fault reads the two strings over their defaults. -/
theorem run_wifiConfigLoadAuth (s : Nvs) :
    (wifiConfigLoadAuth.run nvs [] s).value
      = ⟨(s.readStr .dashUser defaultAuth.username).2,
        (s.readStr .dashPass defaultAuth.password).2⟩ := by
  cases s with
  -- nothing was ever written: the namespace cannot be opened
  | none => rfl
  | some m =>
    unfold wifiConfigLoadAuth nvsOpenReadOnly
    simp only [Script.run, List.headD_nil, List.tail_nil, exec_none, NvsOp.perform,
      Script.run_bind, run_nvsGetStr, Option.isSome_none, Bool.false_eq_true, if_false,
      Script.pure_eq]

/-- **The check of a pair is the comparison with the login.** -/
theorem run_wifiConfigVerifyAuth (s : Nvs) (username password : CStr) :
    ((wifiConfigVerifyAuth username password).run nvs [] s).value = true ↔
      (username, password) = s.login := by
  unfold wifiConfigVerifyAuth Nvs.login
  rw [Script.run_bind, run_wifiConfigLoadAuth, Script.pure_eq, Script.run_done,
    Bool.and_eq_true, beq_iff_eq, beq_iff_eq, str_readStr, str_readStr, str_defaultAuth.1,
    str_defaultAuth.2, Prod.mk.injEq]
  exact and_congr eq_comm eq_comm

/-! ### What the calls leave -/

/-- The calls of a save of the login, and what they do to the store. -/
theorem saveAuthCalls_writes (a : DashboardAuth) :
    WritesAll nvs [nvsOpenReadWrite, nvsSetStr .dashUser a.usernameStr,
        nvsSetStr .dashPass a.passwordStr, nvsCommit]
      [Nvs.opened, Nvs.set .dashUser (.str a.usernameStr), Nvs.set .dashPass (.str a.passwordStr),
        id] :=
  .cons writes_open <| .cons (writes_setStr _ _) <| .cons (writes_setStr _ _) <|
    .cons writes_commit .nil

theorem eraseCalls_writes :
    WritesAll nvs [nvsOpenReadWrite, nvsEraseAll, nvsCommit] [Nvs.opened, Nvs.erased, id] :=
  .cons writes_open <| .cons writes_eraseAll <| .cons writes_commit .nil

/-- **What a save of the login leaves**: the strings it has written are read back, and the
others are those of before. -/
theorem login_saveAuth (a : DashboardAuth) (fs : List (Option EspErr)) (s : Nvs) :
    ((wifiConfigSaveAuth a).run nvs fs s).state.login
      = (if 2 ≤ clear 4 fs then readBack maxUsernameLen defaultUser a.usernameStr
          else s.login.1,
        if 3 ≤ clear 4 fs then readBack maxDashPassLen defaultPass a.passwordStr
          else s.login.2) := by
  unfold wifiConfigSaveAuth
  rw [(Script.run_tryAll (saveAuthCalls_writes a) fs s).1]
  have hle := Script.clear_le 4 fs
  simp only [List.length_cons, List.length_nil, Nat.zero_add, Nat.reduceAdd]
  generalize clear 4 fs = k at hle
  unfold Nvs.login Nvs.strOr
  interval_cases k <;> simp

/-- **What an erase leaves**: the defaults, once the keys are gone. -/
theorem login_erase (fs : List (Option EspErr)) (s : Nvs) :
    (wifiConfigErase.run nvs fs s).state.login
      = if 2 ≤ clear 3 fs then defaultLogin else s.login := by
  unfold wifiConfigErase
  rw [(Script.run_tryAll eraseCalls_writes fs s).1]
  have hle := Script.clear_le 3 fs
  simp only [List.length_cons, List.length_nil, Nat.zero_add, Nat.reduceAdd]
  generalize clear 3 fs = k at hle
  unfold Nvs.login Nvs.strOr defaultLogin
  interval_cases k <;> simp

theorem run_wifiConfigSaveAuth_ok_iff (a : DashboardAuth) (fs : List (Option EspErr)) (s : Nvs) :
    ((wifiConfigSaveAuth a).run nvs fs s).value = espOk ↔ clear 4 fs = 4 :=
  (Script.run_tryAll (saveAuthCalls_writes a) fs s).2.1

theorem run_wifiConfigErase_ok_iff (fs : List (Option EspErr)) (s : Nvs) :
    (wifiConfigErase.run nvs fs s).value = espOk ↔ clear 3 fs = 3 :=
  (Script.run_tryAll eraseCalls_writes fs s).2.1

/-! ### Runs of the calls -/

/-- A call that changes the login, and which of its own calls fail. -/
inductive LoginCall
  /-- `wifi_config_save_auth`. -/
  | saveAuth (auth : DashboardAuth) (fs : List (Option EspErr))
  /-- `wifi_config_erase`. -/
  | erase (fs : List (Option EspErr))

/-- The store, and the pairs that were saved since it was last erased. -/
structure LoginRun where
  /-- The store. -/
  store : Nvs
  /-- The pairs of the saves that returned `ESP_OK`, newest first. -/
  saved : List (CStr × CStr)

namespace LoginRun

/-- The store before anything is written. -/
def empty : LoginRun := ⟨none, []⟩

/-- The pair last saved, and the default if there is none. -/
def last (s : LoginRun) : CStr × CStr := s.saved.headD defaultLogin

/-- One call. -/
def step (s : LoginRun) : LoginCall → Option LoginRun
  | .saveAuth auth fs =>
      let r := (wifiConfigSaveAuth auth).run nvs fs s.store
      some ⟨r.state, if r.value = espOk then auth.pair :: s.saved else s.saved⟩
  | .erase fs =>
      let r := wifiConfigErase.run nvs fs s.store
      some ⟨r.state, if r.value = espOk then [] else s.saved⟩

/-- One pair is let in. -/
structure OnePair (s : LoginRun) : Prop where
  /-- It is the pair last saved, or the default. -/
  last : ∀ username password,
    ((wifiConfigVerifyAuth username password).run nvs [] s.store).value = true ↔
      (username, password) = s.last
  /-- No user name comes with a password that it was not saved with. -/
  together : ∀ username password,
    ((wifiConfigVerifyAuth username password).run nvs [] s.store).value = true →
      (username, password) ∈ defaultLogin :: s.saved

/-- The calls that leave one pair. -/
def LeavesOnePair (s : LoginRun) : LoginCall → Prop
  | .saveAuth auth fs =>
      match clear 4 fs with
      -- the store was not opened, or the user name was not written
      | 0 | 1 => True
      -- the user name alone was written
      | 2 => readBack maxUsernameLen defaultUser auth.usernameStr = s.last.1
      -- both were written, and the save failed
      | 3 =>
          (readBack maxUsernameLen defaultUser auth.usernameStr,
            readBack maxDashPassLen defaultPass auth.passwordStr) = s.last
      | _ => auth.usernameStr.length ≤ maxUsernameLen ∧ auth.passwordStr.length ≤ maxDashPassLen
  -- the keys are gone, and the erase failed
  | .erase fs => clear 3 fs = 2 → s.last = defaultLogin

/-- One pair is let in when the login in force is the pair last saved. -/
theorem onePair_iff (s : LoginRun) : OnePair s ↔ s.store.login = s.last := by
  constructor
  · intro h
    exact (h.last _ _).mp ((run_wifiConfigVerifyAuth s.store _ _).mpr rfl)
  · intro h
    refine ⟨fun username password => ?_, fun username password hv => ?_⟩
    · rw [run_wifiConfigVerifyAuth, h]
    · rw [run_wifiConfigVerifyAuth, h] at hv
      rw [hv, last]
      cases s.saved with
      | nil => exact List.mem_cons_self
      | cons p ps => exact List.mem_cons_of_mem _ List.mem_cons_self

theorem onePair_empty : OnePair empty := (onePair_iff empty).mpr rfl

/-- **A step**: from a state that lets one pair in, the calls that leave one pair are those
that satisfy the condition. -/
theorem leavesOnePair_iff {s : LoginRun} (h : OnePair s) (c : LoginCall) :
    LeavesOnePair s c ↔ ∀ s' ∈ step s c, OnePair s' := by
  rw [onePair_iff] at h
  cases c with
  | saveAuth auth fs =>
    simp only [step, Option.mem_some_iff, forall_eq', onePair_iff, LeavesOnePair,
      login_saveAuth, run_wifiConfigSaveAuth_ok_iff, h]
    have hle := Script.clear_le 4 fs
    generalize clear 4 fs = k at hle
    interval_cases k
    · simp [last]
    · simp [last]
    -- the password in force is still that of the pair last saved
    · simp [last, Prod.ext_iff]
    · simp [last]
    -- the pair is saved, and it is read back if it fits
    · have huser := readBack_eq_self_iff (d := defaultUser) (n := maxUsernameLen)
        (by decide) auth.usernameStr
      have hpass := readBack_eq_self_iff (d := defaultPass) (n := maxDashPassLen)
        (by decide) auth.passwordStr
      simp [last, DashboardAuth.pair, huser, hpass]
  | erase fs =>
    simp only [step, Option.mem_some_iff, forall_eq', onePair_iff, LeavesOnePair,
      login_erase, run_wifiConfigErase_ok_iff, h]
    have hle := Script.clear_le 3 fs
    generalize clear 3 fs = k at hle
    interval_cases k <;> simp [last, eq_comm]

/-- **When one pair only is let in**: after every call of a run from the empty store, exactly
when every call of the run leaves one pair. -/
theorem login_accepts_one_pair_iff (calls : List LoginCall) :
    Machine.Admitted step LeavesOnePair empty calls ↔
      ∀ before, before <+: calls → ∀ s ∈ Machine.exec step empty before, OnePair s :=
  Machine.admitted_iff_forall_prefix (I := fun _ => True) (fun _ _ _ _ _ => trivial)
    (fun _ c _ h => leavesOnePair_iff h c) trivial onePair_empty

/-- A login that is saved. -/
def firstLogin : DashboardAuth where
  username := (Buf.zero _).put (.lit "alice") (by decide)
  password := (Buf.zero _).put (.lit "wonderland") (by decide)

/-- One whose save is cut short. -/
def secondLogin : DashboardAuth where
  username := (Buf.zero _).put (.lit "bob") (by decide)
  password := (Buf.zero _).put (.lit "builder1") (by decide)

/-- **A new name with the password of another**: the write of the second password fails, the
save returns the error, and the pair that was saved is shut out. -/
theorem half_saved_login :
    ∃ s, Machine.exec step empty [.saveAuth firstLogin [], .saveAuth secondLogin
        [none, none, some .fail]] = some s ∧
      s.last = (.lit "alice", .lit "wonderland") ∧
      ((wifiConfigVerifyAuth (.lit "bob") (.lit "wonderland")).run nvs [] s.store).value = true ∧
      ((wifiConfigVerifyAuth (.lit "alice") (.lit "wonderland")).run nvs [] s.store).value
        = false ∧
      ¬OnePair s := by
  refine ⟨_, rfl, by decide +kernel, by decide +kernel, by decide +kernel, fun h => ?_⟩
  have hlogin := (onePair_iff _).mp h
  exact absurd hlogin (by decide +kernel)

end LoginRun

end WifiRepeater
