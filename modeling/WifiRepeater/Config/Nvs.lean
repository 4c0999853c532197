import Mathlib.Logic.Function.Basic
import WifiRepeater.Lib.CString
import WifiRepeater.Lib.Script

/-!
# The flash store

The firmware keeps its settings in one namespace of the NVS library, under keys of its
own.  The library is not part of the repository; what the code relies on is modelled as
a device.  A set takes effect at the call, a call that fails changes nothing and returns
an error, an erase clears all keys or none, and reading is without effect.  The namespace
comes into being when it is first opened for writing, and opening it for reading before
that fails.

## Main definitions

* `NvsKey`, `NvsValue`, `Nvs` — the keys of the namespace `wifi_cfg` and their values.
* `NvsOp`, `nvs` — the calls, and the device that executes them.
* `Prog` — programs that make such calls.

## Main results

* `exec_of_isRead`, `exec_of_keeps` — reading changes nothing, writing one key.
* `run_nvsGetStr` — what a read into a buffer leaves, under every fault.
-/

namespace WifiRepeater

/-! ### Keys and values -/

/-- The values of `esp_err_t` other than `ESP_OK`. -/
inductive EspErr
  /-- `ESP_FAIL`. -/
  | fail
  /-- `ESP_ERR_INVALID_ARG`. -/
  | invalidArg
  /-- `ESP_ERR_NVS_NOT_FOUND`. -/
  | nvsNotFound
  /-- `ESP_ERR_NVS_INVALID_LENGTH`. -/
  | nvsInvalidLength
  /-- Any other code. -/
  | other (code : ℕ)
  deriving DecidableEq

/-- An `esp_err_t`. -/
abbrev EspResult := Except EspErr Unit

/-- `ESP_OK`. -/
abbrev espOk : EspResult := .ok ()

/-- The keys of the namespace `wifi_cfg`. -/
inductive NvsKey
  /-- `sta_ssid`. -/
  | staSsid
  /-- `sta_pass`. -/
  | staPass
  /-- `ap_ssid`. -/
  | apSsid
  /-- `ap_pass`. -/
  | apPass
  /-- `ap_max_conn`. -/
  | apMaxConn
  /-- `dash_user`. -/
  | dashUser
  /-- `dash_pass`. -/
  | dashPass
  /-- `hist_count`. -/
  | histCount
  /-- `hist_ssid_%d`. -/
  | histSsid (i : ℕ)
  /-- `provisioned`. -/
  | provisioned
  deriving DecidableEq

/-- What is stored under a key. -/
inductive NvsValue
  /-- A string. -/
  | str (s : CStr)
  /-- A byte. -/
  | u8 (v : UInt8)
  deriving DecidableEq

/-- The namespace, `none` before it is first opened for writing. -/
abbrev Nvs := Option (NvsKey → Option NvsValue)

namespace Nvs

/-- The value of a key. -/
def get (s : Nvs) (k : NvsKey) : Option NvsValue := s.bind fun m => m k

/-- The namespace created. -/
def opened (s : Nvs) : Nvs := some (s.getD fun _ => none)

/-- A key set. -/
def set (k : NvsKey) (v : NvsValue) (s : Nvs) : Nvs :=
  some (Function.update (s.getD fun _ => none) k (some v))

/-- All keys removed. -/
def erased (s : Nvs) : Nvs := s.map fun _ _ => none

@[simp] theorem get_none (k : NvsKey) : Nvs.get none k = none := rfl

@[simp] theorem get_opened (s : Nvs) (k : NvsKey) : s.opened.get k = s.get k := by
  cases s <;> rfl

@[simp] theorem get_set_self (k : NvsKey) (v : NvsValue) (s : Nvs) :
    (s.set k v).get k = some v := Function.update_self ..

@[simp] theorem get_set_ne {k k' : NvsKey} (h : k' ≠ k) (v : NvsValue) (s : Nvs) :
    (s.set k v).get k' = s.get k' := by
  unfold get set
  rw [Option.bind_some, Function.update_of_ne h]
  cases s <;> rfl

@[simp] theorem get_erased (s : Nvs) (k : NvsKey) : s.erased.get k = none := by
  cases s <;> rfl

end Nvs

/-! ### The calls -/

/-- A call of the library, on the one namespace. -/
inductive NvsOp
  /-- `nvs_open` with `NVS_READONLY`. -/
  | openReadOnly
  /-- `nvs_open` with `NVS_READWRITE`. -/
  | openReadWrite
  /-- `nvs_get_str` into a buffer of `size` bytes. -/
  | getStr (key : NvsKey) (size : ℕ)
  /-- `nvs_get_u8`. -/
  | getU8 (key : NvsKey)
  /-- `nvs_set_str`. -/
  | setStr (key : NvsKey) (value : CStr)
  /-- `nvs_set_u8`. -/
  | setU8 (key : NvsKey) (value : UInt8)
  /-- `nvs_erase_all`. -/
  | eraseAll
  /-- `nvs_commit`. -/
  | commit

namespace NvsOp

/-- What a call answers. -/
def Ans : NvsOp → Type
  | getStr _ size => Except EspErr { s : CStr // s.length < size }
  | getU8 _ => Except EspErr UInt8
  | openReadOnly | openReadWrite | setStr .. | setU8 .. | eraseAll | commit => EspResult

/-- A call that failed. -/
def failed : (op : NvsOp) → EspErr → op.Ans
  | getStr .., e => Except.error e
  | getU8 _, e => Except.error e
  | openReadOnly, e | openReadWrite, e | setStr .., e | setU8 .., e | eraseAll, e | commit, e =>
      Except.error e

/-- A call that the flash lets through. -/
def perform : (op : NvsOp) → Nvs → op.Ans × Nvs
  -- a namespace that was never written cannot be opened for reading
  | openReadOnly, none => (Except.error .nvsNotFound, none)
  | openReadOnly, some m => (espOk, some m)
  | openReadWrite, s => (espOk, s.opened)
  | getStr k size, s =>
      match s.get k with
      | some (.str v) =>
          if h : v.length < size then (Except.ok ⟨v, h⟩, s)
          else (Except.error .nvsInvalidLength, s)
      | _ => (Except.error .nvsNotFound, s)
  | getU8 k, s =>
      match s.get k with
      | some (.u8 v) => (Except.ok v, s)
      | _ => (Except.error .nvsNotFound, s)
  | setStr k v, s => (espOk, s.set k (.str v))
  | setU8 k v, s => (espOk, s.set k (.u8 v))
  | eraseAll, s => (espOk, s.erased)
  | commit, s => (espOk, s)

/-- Calls that only read. -/
def isRead : NvsOp → Bool
  | openReadOnly | getStr .. | getU8 _ => true
  | openReadWrite | setStr .. | setU8 .. | eraseAll | commit => false

/-- Calls that leave a key alone. -/
def keeps (k : NvsKey) : NvsOp → Prop
  | setStr k' _ | setU8 k' _ => k' ≠ k
  | eraseAll => False
  | openReadOnly | openReadWrite | getStr .. | getU8 _ | commit => True

theorem keeps_of_isRead {op : NvsOp} (h : op.isRead = true) (k : NvsKey) : op.keeps k := by
  cases op with
  | openReadOnly | getStr | getU8 => exact trivial
  | openReadWrite | setStr | setU8 | eraseAll | commit => exact Bool.noConfusion h

/-- Calls that write no key but those in `K`. -/
def WritesOnly (K : NvsKey → Prop) (op : NvsOp) : Prop := ∀ k, ¬K k → op.keeps k

theorem WritesOnly.mono {K K' : NvsKey → Prop} {op : NvsOp} (h : op.WritesOnly K)
    (hK : ∀ k, K k → K' k) : op.WritesOnly K' := fun k hk => h k fun h' => hk (hK k h')

theorem writesOnly_of_isRead {op : NvsOp} (h : op.isRead = true) (K : NvsKey → Prop) :
    op.WritesOnly K := fun k _ => keeps_of_isRead h k

/-- A call that is no read and writes no key but those in `K`. -/
def IsWriteOf (K : NvsKey → Prop) (op : NvsOp) : Prop := op.isRead = false ∧ op.WritesOnly K

theorem isWriteOf_open (K : NvsKey → Prop) : openReadWrite.IsWriteOf K :=
  ⟨rfl, fun _ _ => trivial⟩

theorem isWriteOf_commit (K : NvsKey → Prop) : commit.IsWriteOf K := ⟨rfl, fun _ _ => trivial⟩

theorem isWriteOf_setStr {K : NvsKey → Prop} {k : NvsKey} (h : K k) (v : CStr) :
    (setStr k v).IsWriteOf K := ⟨rfl, fun _ hk' heq => hk' (heq ▸ h)⟩

theorem isWriteOf_setU8 {K : NvsKey → Prop} {k : NvsKey} (h : K k) (v : UInt8) :
    (setU8 k v).IsWriteOf K := ⟨rfl, fun _ hk' heq => hk' (heq ▸ h)⟩

end NvsOp

/-- A program that works on the store. -/
abbrev Prog (α : Type) := Script NvsOp NvsOp.Ans α

/-- The store as a device: a call fails with the given error or is let through. -/
def nvs : Device NvsOp NvsOp.Ans EspErr Nvs where
  exec op fault s :=
    match fault with
    | some e => (op.failed e, s)
    | none => op.perform s

@[simp] theorem exec_none (op : NvsOp) (s : Nvs) : nvs.exec op none s = op.perform s := rfl

/-- **Reading changes nothing**, whether it succeeds or fails. -/
theorem exec_of_isRead {op : NvsOp} (h : op.isRead = true) (f : Option EspErr) (s : Nvs) :
    (nvs.exec op f s).2 = s := by
  cases f with
  | some e => rfl
  | none =>
    cases op with
    | openReadOnly => cases s <;> rfl
    | getStr k size =>
      rw [exec_none, NvsOp.perform]
      split
      · split <;> rfl
      · rfl
    | getU8 k =>
      rw [exec_none, NvsOp.perform]
      split <;> rfl
    | openReadWrite | setStr | setU8 | eraseAll | commit => exact Bool.noConfusion h

/-- **The frame of a call**: a key it does not write keeps its value. -/
theorem exec_of_keeps {op : NvsOp} {k : NvsKey} (h : op.keeps k) (f : Option EspErr) (s : Nvs) :
    (nvs.exec op f s).2.get k = s.get k := by
  cases f with
  | some e => rfl
  | none =>
    cases op with
    | openReadOnly | getStr | getU8 => rw [exec_of_isRead rfl]
    | openReadWrite => exact Nvs.get_opened s k
    | setStr k' v => exact Nvs.get_set_ne (Ne.symm h) _ s
    | setU8 k' v => exact Nvs.get_set_ne (Ne.symm h) _ s
    | eraseAll => exact h.elim
    | commit => rfl

/-- A program that only reads leaves the store alone. -/
theorem run_state_of_reads {α : Type} {m : Prog α}
    (hm : m.Issues fun op => op.isRead = true) (fs : List (Option EspErr)) (s : Nvs) :
    (m.run nvs fs s).state = s :=
  hm.run_state (fun _ h f s => exec_of_isRead h f s) fs s

/-- A program keeps the keys that none of its calls writes. -/
theorem run_get_of_writesOnly {α : Type} {K : NvsKey → Prop} {m : Prog α}
    (hm : m.Issues (NvsOp.WritesOnly K)) {k : NvsKey} (hk : ¬K k) (fs : List (Option EspErr))
    (s : Nvs) : (m.run nvs fs s).state.get k = s.get k := by
  have hkeep := hm.run_invariant (D := nvs) (I := fun s' => s'.get k = s.get k)
    fun op hop f s' hs' => by rw [exec_of_keeps (hop k hk), hs']
  exact hkeep fs s rfl

/-! ### Reading into a buffer -/

/-- `nvs_get_str` into a buffer, and whether it returned `ESP_OK`.  It writes the string
and its terminator, or nothing. -/
def nvsGetStr {n : ℕ} (k : NvsKey) (buf : Buf n) : Prog (Bool × Buf n) :=
  .call (.getStr k n) fun (r : Except EspErr { s : CStr // s.length < n }) =>
    match r with
    | .ok v => .done (true, buf.put v.1 v.2)
    | .error _ => .done (false, buf)

/-- `nvs_get_u8`, `none` when it did not return `ESP_OK`. -/
def nvsGetU8 (k : NvsKey) : Prog (Option UInt8) :=
  .call (.getU8 k) fun (r : Except EspErr UInt8) =>
    match r with
    | .ok v => .done (some v)
    | .error _ => .done none

/-- What a read that meets no fault leaves in the buffer. -/
def Nvs.readStr {n : ℕ} (s : Nvs) (k : NvsKey) (buf : Buf n) : Bool × Buf n :=
  match s.get k with
  | some (.str v) => if h : v.length < n then (true, buf.put v h) else (false, buf)
  | _ => (false, buf)

/-- What a read of a byte that meets no fault answers. -/
def Nvs.readU8 (s : Nvs) (k : NvsKey) : Option UInt8 :=
  match s.get k with
  | some (.u8 v) => some v
  | _ => none

theorem nvsGetStr_reads {n : ℕ} (k : NvsKey) (buf : Buf n) :
    (nvsGetStr k buf).Issues fun op => op.isRead = true := by
  refine ⟨rfl, fun (r : Except EspErr { s : CStr // s.length < n }) => ?_⟩
  cases r <;> exact trivial

theorem nvsGetU8_reads (k : NvsKey) : (nvsGetU8 k).Issues fun op => op.isRead = true := by
  refine ⟨rfl, fun (r : Except EspErr UInt8) => ?_⟩
  cases r <;> exact trivial

/-- **A read into a buffer**: hit by a fault it leaves the buffer alone. -/
theorem run_nvsGetStr {n : ℕ} (k : NvsKey) (buf : Buf n) (fs : List (Option EspErr)) (s : Nvs) :
    (nvsGetStr k buf).run nvs fs s
      = ⟨if (fs.headD none).isSome then (false, buf) else s.readStr k buf, fs.tail, s⟩ := by
  unfold nvsGetStr Script.run
  cases fs.headD none with
  | some e => rfl
  | none =>
    rw [exec_none, NvsOp.perform, Nvs.readStr]
    cases s.get k with
    | none => rfl
    | some v =>
      cases v with
      | u8 v => rfl
      | str v =>
        simp only
        by_cases h : v.length < n
        · rw [dif_pos h, dif_pos h]
          rfl
        · rw [dif_neg h, dif_neg h]
          rfl

theorem run_nvsGetU8 (k : NvsKey) (fs : List (Option EspErr)) (s : Nvs) :
    (nvsGetU8 k).run nvs fs s
      = ⟨if (fs.headD none).isSome then none else s.readU8 k, fs.tail, s⟩ := by
  unfold nvsGetU8 Script.run
  cases fs.headD none with
  | some e => rfl
  | none =>
    rw [exec_none, NvsOp.perform, Nvs.readU8]
    cases s.get k with
    | none => rfl
    | some v => cases v <;> rfl

/-- What a successful read has put into the buffer. -/
theorem Nvs.readStr_of_ok {n : ℕ} {hit : Bool} {s : Nvs} {k : NvsKey} {buf : Buf n}
    (h : (if hit = true then (false, buf) else s.readStr k buf).1 = true) :
    ∃ v, ∃ hv : v.length < n, s.get k = some (.str v) ∧
      (if hit = true then (false, buf) else s.readStr k buf).2 = buf.put v hv := by
  cases hit with
  | true => exact absurd h (by simp)
  | false =>
    unfold Nvs.readStr at h ⊢
    cases hget : s.get k with
    | none => simp [hget] at h
    | some val =>
      cases val with
      | u8 w => simp [hget] at h
      | str v =>
        simp only [hget, Bool.false_eq_true, if_false] at h ⊢
        by_cases hv : v.length < n
        · exact ⟨v, hv, rfl, by rw [dif_pos hv]⟩
        · rw [dif_neg hv] at h
          exact absurd h (by simp)

/-- A stored string that fits is read. -/
theorem Nvs.readStr_eq {n : ℕ} {s : Nvs} {k : NvsKey} {v : CStr} (hget : s.get k = some (.str v))
    (hv : v.length < n) (buf : Buf n) : s.readStr k buf = (true, buf.put v hv) := by
  unfold Nvs.readStr
  simp only [hget, dif_pos hv]

theorem Nvs.readU8_eq_some_iff (s : Nvs) (k : NvsKey) (v : UInt8) :
    s.readU8 k = some v ↔ s.get k = some (.u8 v) := by
  unfold Nvs.readU8
  split
  · next w hw => simp [hw]
  · next hne => exact ⟨fun h => absurd h (by simp), fun h => absurd h (hne v)⟩

/-! ### Writing -/

/-- `nvs_open` with `NVS_READWRITE`. -/
def nvsOpenReadWrite : Prog EspResult := .call .openReadWrite .done

/-- `nvs_set_str`. -/
def nvsSetStr (k : NvsKey) (v : CStr) : Prog EspResult := .call (.setStr k v) .done

/-- `nvs_set_u8`. -/
def nvsSetU8 (k : NvsKey) (v : UInt8) : Prog EspResult := .call (.setU8 k v) .done

/-- `nvs_erase_all`. -/
def nvsEraseAll : Prog EspResult := .call .eraseAll .done

/-- `nvs_commit`. -/
def nvsCommit : Prog EspResult := .call .commit .done

open Script (Writes)

/-- Opening for writing is a write that creates the namespace. -/
def writes_open : Writes nvs .openReadWrite nvsOpenReadWrite Nvs.opened where
  read r := r
  eq := rfl
  clear _ := ⟨rfl, rfl⟩
  hit e _ := ⟨⟨e, rfl⟩, rfl⟩

/-- A set is a write of its key. -/
def writes_setStr (k : NvsKey) (v : CStr) :
    Writes nvs (.setStr k v) (nvsSetStr k v) (Nvs.set k (.str v)) where
  read r := r
  eq := rfl
  clear _ := ⟨rfl, rfl⟩
  hit e _ := ⟨⟨e, rfl⟩, rfl⟩

/-- So is a set of a byte. -/
def writes_setU8 (k : NvsKey) (v : UInt8) :
    Writes nvs (.setU8 k v) (nvsSetU8 k v) (Nvs.set k (.u8 v)) where
  read r := r
  eq := rfl
  clear _ := ⟨rfl, rfl⟩
  hit e _ := ⟨⟨e, rfl⟩, rfl⟩

/-- An erase is a write that removes all keys. -/
def writes_eraseAll : Writes nvs .eraseAll nvsEraseAll Nvs.erased where
  read r := r
  eq := rfl
  clear _ := ⟨rfl, rfl⟩
  hit e _ := ⟨⟨e, rfl⟩, rfl⟩

/-- A commit changes nothing: the sets have taken effect. -/
def writes_commit : Writes nvs .commit nvsCommit id where
  read r := r
  eq := rfl
  clear _ := ⟨rfl, rfl⟩
  hit e _ := ⟨⟨e, rfl⟩, rfl⟩

/-- A sequence of writes answers `ESP_OK` exactly when none of its calls failed: a read is
not among them. -/
theorem tryAll_ok_iff {K : NvsKey → Prop} {ms : List (Prog EspResult)}
    {effs : List (Nvs → Nvs)} (h : Script.WritesAll nvs ms effs)
    (hw : (Script.tryAll ms).Issues (NvsOp.IsWriteOf K)) (fs : List (Option EspErr)) (s : Nvs) :
    ((Script.tryAll ms).run nvs fs s).value = espOk ↔
      ∀ op ∈ (Script.tryAll ms).failures nvs fs s, op.isRead = true := by
  obtain ⟨-, hall, hfail⟩ := Script.run_tryAll h fs s
  refine hall.trans (hfail.symm.trans ⟨fun hnone op hop => ?_, fun hf => ?_⟩)
  · rw [hnone] at hop
    exact absurd hop (by simp)
  · rw [List.eq_nil_iff_forall_not_mem]
    intro op hop
    -- a call that was hit would be a write and a read
    have hwrite := (hw.failures fs s op hop).1
    rw [hf op hop] at hwrite
    exact Bool.noConfusion hwrite

/-- Then all its effects are in the store. -/
theorem tryAll_state_of_ok {ms : List (Prog EspResult)} {effs : List (Nvs → Nvs)}
    (h : Script.WritesAll nvs ms effs) {fs : List (Option EspErr)} {s : Nvs}
    (hok : ((Script.tryAll ms).run nvs fs s).value = espOk) :
    ((Script.tryAll ms).run nvs fs s).state = Script.applyAll effs s := by
  obtain ⟨hstate, hall, -⟩ := Script.run_tryAll h fs s
  rw [hstate, hall.mp hok, ← h.length_eq, List.take_length]

end WifiRepeater
