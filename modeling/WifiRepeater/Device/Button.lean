import Mathlib.Algebra.Group.Nat.Defs
import WifiRepeater.Config.Nvs
import WifiRepeater.Lib.Machine

/-!
# The factory-reset button

`start_button_task` looks at the boot button every 50 ms and erases the configuration when
the button has been held for three seconds.  The time is the tick count times the tick
period, both of 32 bits, so that it wraps while the device runs; the task only ever
subtracts two such times.  After an erase that succeeded the task restarts the device;
after one that failed it stays in an inner loop until the button is released.

The task is a machine whose events are its looks at the button, in either loop.  A sample
has the ticks since the device started, uncut; the code is shown their low 32 bits.  The
lines of the log, which alone tell how long a short press was, are left out.

## Main definitions

* `Sample`, `ButtonTask` — what a look finds, and the variables of the task.
* `step period` — the two loops, for any tick period.
* `IsPress` — a longest run of samples that find the button down.

## Main results

* `toNat_currentTime_sub` — wrapped times have the right difference.
* `erases_of_held` — what the task does while the button is down.
* `erase_once_per_long_press` — **a press erases exactly if it was long, and once.**
-/

namespace WifiRepeater
namespace Device
namespace Button

/-- `gpio_get_level`: the button pulls the pin down. -/
inductive Level
  /-- 0, the button is held. -/
  | low
  /-- 1. -/
  | high
  deriving DecidableEq

/-- One look at the button. -/
structure Sample where
  /-- What `gpio_get_level` returns. -/
  level : Level
  /-- The ticks since the device started. -/
  ticks : ℕ
  /-- What `wifi_config_erase` returns, should it be called now. -/
  eraseErr : EspResult

/-- `xTaskGetTickCount() * portTICK_PERIOD_MS`. -/
def Sample.currentTime (period : UInt32) (x : Sample) : UInt32 := UInt32.ofNat x.ticks * period

/-- Where the task stands before it looks at the button. -/
inductive Place
  /-- At the top of its loop. -/
  | polling
  /-- In the inner loop, behind an erase that failed. -/
  | waiting
  /-- Nowhere: `esp_restart` has been called. -/
  | restarted
  deriving DecidableEq

/-- The variables of the task, and how often it has called `wifi_config_erase`. -/
structure ButtonTask where
  /-- The loop it is in. -/
  place : Place
  /-- `button_pressed`. -/
  buttonPressed : Bool
  /-- `press_start_time`. -/
  pressStartTime : UInt32
  /-- The calls of `wifi_config_erase` so far. -/
  erases : ℕ

/-- The task before its first look. -/
def start : ButtonTask := ⟨.polling, false, 0, 0⟩

/-- `LONG_PRESS_TIME_MS`. -/
def longPressTimeMs : UInt32 := 3000

/-- A long press: erase, and then restart or wait for the release. -/
def ButtonTask.eraseConfig (s : ButtonTask) (eraseErr : EspResult) : ButtonTask :=
  { s with
    erases := s.erases + 1
    place := match eraseErr with
      | .ok () => .restarted
      | .error _ => .waiting }

/-- One turn of the loop. -/
def ButtonTask.poll (period : UInt32) (s : ButtonTask) (x : Sample) : ButtonTask :=
  let currentTime := x.currentTime period
  match x.level, s.buttonPressed with
  | .low, false => { s with buttonPressed := true, pressStartTime := currentTime }
  | .low, true =>
      let pressDuration := currentTime - s.pressStartTime
      if longPressTimeMs ≤ pressDuration then s.eraseConfig x.eraseErr else s
  | .high, true => { s with buttonPressed := false }
  | .high, false => s

/-- One test of the inner loop, which ends with the first sample that is not low. -/
def ButtonTask.wait (s : ButtonTask) (x : Sample) : ButtonTask :=
  match x.level with
  | .low => s
  | .high => { s with place := .polling, buttonPressed := false }

/-- `start_button_task` from one look at the button to the next; none after the restart. -/
def step (period : UInt32) (s : ButtonTask) (x : Sample) : Option ButtonTask :=
  match s.place with
  | .polling => some (s.poll period x)
  | .waiting => some (s.wait x)
  | .restarted => none

/-! ### Times -/

/-- The milliseconds between two samples. -/
def Sample.msSince (period : UInt32) (x first : Sample) : ℕ :=
  period.toNat * (x.ticks - first.ticks)

/-- **Wrapped times have the right difference**, whichever of the tick count and the
product wrapped in between, and how often. -/
theorem toNat_currentTime_sub {period : UInt32} {x first : Sample} (hle : first.ticks ≤ x.ticks)
    (hheld : x.msSince period first < 2 ^ 32) :
    (x.currentTime period - first.currentTime period).toNat = x.msSince period first := by
  have hadd : x.currentTime period =
      first.currentTime period + UInt32.ofNat (x.msSince period first) := by
    obtain ⟨d, hd⟩ := Nat.exists_eq_add_of_le hle
    rw [Sample.currentTime, Sample.currentTime, Sample.msSince, hd, Nat.add_sub_cancel_left,
      UInt32.ofNat_add, UInt32.add_mul, UInt32.ofNat_mul, UInt32.ofNat_toNat,
      UInt32.mul_comm period]
  rw [hadd, UInt32.add_comm, UInt32.add_sub_cancel, UInt32.toNat_ofNat', Nat.mod_eq_of_lt hheld]

/-- The test of the code is the test of the time that has passed. -/
theorem longPressTimeMs_le_iff {period : UInt32} {x first : Sample} (hle : first.ticks ≤ x.ticks)
    (hheld : x.msSince period first < 2 ^ 32) :
    longPressTimeMs ≤ x.currentTime period - first.currentTime period ↔
      3000 ≤ x.msSince period first := by
  rw [UInt32.le_iff_toNat_le, toNat_currentTime_sub hle hheld]
  rfl

/-! ### One look -/

variable {period : UInt32} {s s' : ButtonTask} {x : Sample}

/-- The task waits for a press. -/
def ButtonTask.Idle (s : ButtonTask) : Prop := s.place = .polling ∧ s.buttonPressed = false

/-- A press that began with `first` has not been long so far. -/
def ButtonTask.Timing (period : UInt32) (first : Sample) (s : ButtonTask) : Prop :=
  s.place = .polling ∧ s.buttonPressed = true ∧ s.pressStartTime = first.currentTime period

/-- A button that is up: the task waits for a press, whatever it did before, and does not
erase. -/
theorem step_high (hs : step period s x = some s') (hx : x.level = .high) :
    s'.Idle ∧ s'.erases = s.erases := by
  obtain ⟨place, pressed, since, erases⟩ := s
  cases place with
  | polling =>
    cases pressed <;>
      simp only [step, ButtonTask.poll, hx, Option.some.injEq] at hs <;>
      exact hs ▸ ⟨⟨rfl, rfl⟩, rfl⟩
  | waiting =>
    simp only [step, ButtonTask.wait, hx, Option.some.injEq] at hs
    exact hs ▸ ⟨⟨rfl, rfl⟩, rfl⟩
  | restarted => cases hs

/-- A press begins. -/
theorem step_first (h : s.Idle) (hx : x.level = .low) (hs : step period s x = some s') :
    s'.Timing period x ∧ s'.erases = s.erases := by
  simp only [step, h.1, ButtonTask.poll, hx, h.2, Option.some.injEq] at hs
  exact hs ▸ ⟨⟨rfl, rfl, rfl⟩, rfl⟩

/-- The button is still down. -/
theorem step_held {first : Sample} (h : s.Timing period first) (hx : x.level = .low) :
    step period s x =
      some (if longPressTimeMs ≤ x.currentTime period - first.currentTime period then
        s.eraseConfig x.eraseErr else s) := by
  obtain ⟨hplace, hpressed, hsince⟩ := h
  simp only [step, hplace, ButtonTask.poll, hx, hpressed, hsince]

/-! ### One press -/

/-- Behind an erase the task does nothing more while the button is down. -/
theorem exec_of_not_polling (hplace : s.place ≠ .polling) : ∀ {rest : List Sample},
    (∀ x ∈ rest, x.level = .low) → Machine.exec (step period) s rest = some s' → s' = s := by
  intro rest
  induction rest with
  | nil => intro _ hs; exact (Option.some.inj hs).symm
  | cons x rest ih =>
    intro hlow hs
    rw [List.forall_mem_cons] at hlow
    obtain ⟨t, ht, hrest⟩ := Option.bind_eq_some_iff.mp hs
    cases hp : s.place with
    | polling => exact absurd hp hplace
    | waiting =>
      simp only [step, hp, ButtonTask.wait, hlow.1, Option.some.injEq] at ht
      exact ih hlow.2 (ht ▸ hrest)
    | restarted => simp only [step, hp, reduceCtorEq] at ht

/-- **What the task does while the button is down**: it erases once at most, and, unless
the button is held until the times have come round, exactly if some sample is 3000 ms or
more behind the first one. -/
theorem erases_of_held {first : Sample} (h : s.Timing period first) :
    ∀ {rest : List Sample}, (∀ x ∈ rest, x.level = .low) → (∀ x ∈ rest, first.ticks ≤ x.ticks) →
      Machine.exec (step period) s rest = some s' →
      s.erases ≤ s'.erases ∧ s'.erases ≤ s.erases + 1 ∧
        ((∀ x ∈ rest, x.msSince period first < 2 ^ 32) →
          (s.erases < s'.erases ↔ ∃ x ∈ rest, 3000 ≤ x.msSince period first)) := by
  intro rest
  induction rest with
  | nil =>
    intro _ _ hs
    obtain rfl := Option.some.inj hs
    exact ⟨le_rfl, by omega, fun _ => by simp⟩
  | cons x rest ih =>
    intro hlow hticks hs
    rw [List.forall_mem_cons] at hlow hticks
    rw [Machine.exec, step_held h hlow.1, Option.bind_some] at hs
    by_cases hlong : longPressTimeMs ≤ x.currentTime period - first.currentTime period
    · rw [if_pos hlong] at hs
      have hplace : (s.eraseConfig x.eraseErr).place ≠ .polling := by
        cases hx : x.eraseErr <;> simp [ButtonTask.eraseConfig]
      obtain rfl := exec_of_not_polling hplace hlow.2 hs
      refine ⟨Nat.le_succ _, le_rfl, fun hheld => iff_of_true (Nat.lt_succ_self _) ?_⟩
      exact ⟨x, List.mem_cons_self,
        (longPressTimeMs_le_iff hticks.1 (hheld x List.mem_cons_self)).mp hlong⟩
    · rw [if_neg hlong] at hs
      obtain ⟨hle, hone, hiff⟩ := ih hlow.2 hticks.2 hs
      refine ⟨hle, hone, fun hheld => ?_⟩
      rw [List.forall_mem_cons] at hheld
      rw [hiff hheld.2, List.exists_mem_cons_iff, ← longPressTimeMs_le_iff hticks.1 hheld.1]
      exact (or_iff_right hlong).symm

/-! ### Presses -/

/-- A press: a longest run of consecutive samples that find the button down, `first` and
`rest`, the samples of the task being those before, the press, and those after. -/
structure IsPress (samples before : List Sample) (first : Sample) (rest after : List Sample) :
    Prop where
  /-- Where it lies. -/
  split : samples = before ++ (first :: rest ++ after)
  /-- The button is down. -/
  low : ∀ x ∈ first :: rest, x.level = .low
  /-- It was up before. -/
  starts : ∀ x ∈ before.getLast?, x.level = .high
  /-- It is up afterwards. -/
  ends : ∀ x ∈ after.head?, x.level = .high

/-- The task waits for a press when one begins. -/
theorem idle_of_starts {before : List Sample} (hup : ∀ x ∈ before.getLast?, x.level = .high)
    (hs : Machine.exec (step period) start before = some s) : s.Idle := by
  rcases List.eq_nil_or_concat' before with rfl | ⟨init, x, rfl⟩
  · obtain rfl := Option.some.inj hs
    exact ⟨rfl, rfl⟩
  · rw [Machine.exec_append] at hs
    obtain ⟨t, -, hlast⟩ := Option.bind_eq_some_iff.mp hs
    obtain ⟨u, hu, hnil⟩ := Option.bind_eq_some_iff.mp hlast
    obtain rfl := Option.some.inj hnil
    exact (step_high hu (hup x (by simp))).1

/-- **A press erases exactly if it was long, and once.**  The task has seen `samples`, in
the order of their times.  During a press it calls `wifi_config_erase` once at most, and,
unless the press took `2 ^ 32` milliseconds or more, exactly if one of its samples is
3000 ms or more behind its first one, whatever the calls return and however the tick count
and the times wrap.  With the button up it never does. -/
theorem erase_once_per_long_press (period : UInt32) {samples : List Sample} {last : ButtonTask}
    (hrun : Machine.exec (step period) start samples = some last)
    (htimes : samples.Pairwise fun x y => x.ticks ≤ y.ticks) :
    (∀ before first rest after, IsPress samples before first rest after →
      ∃ s₁ s₂, Machine.exec (step period) start before = some s₁ ∧
        Machine.exec (step period) s₁ (first :: rest) = some s₂ ∧
        s₂.erases ≤ s₁.erases + 1 ∧
        ((∀ x ∈ first :: rest, x.msSince period first < 2 ^ 32) →
          (s₁.erases < s₂.erases ↔ ∃ x ∈ first :: rest, 3000 ≤ x.msSince period first))) ∧
      ∀ before x after, samples = before ++ x :: after → x.level = .high →
        ∃ s₁ s₂, Machine.exec (step period) start before = some s₁ ∧
          step period s₁ x = some s₂ ∧ s₂.erases = s₁.erases := by
  constructor
  · rintro before first rest after ⟨rfl, hlow, hup, -⟩
    rw [Machine.exec_append] at hrun
    obtain ⟨s₁, hs₁, hrun⟩ := Option.bind_eq_some_iff.mp hrun
    rw [Machine.exec_append] at hrun
    obtain ⟨s₂, hs₂, -⟩ := Option.bind_eq_some_iff.mp hrun
    obtain ⟨t, ht, hrest⟩ := Option.bind_eq_some_iff.mp hs₂
    rw [List.forall_mem_cons] at hlow
    obtain ⟨htiming, herases⟩ := step_first (idle_of_starts hup hs₁) hlow.1 ht
    -- the samples of the press are in order
    rw [List.pairwise_append, List.cons_append, List.pairwise_cons] at htimes
    have hticks : ∀ x ∈ rest, first.ticks ≤ x.ticks := fun x hx =>
      htimes.2.1.1 x (List.mem_append_left _ hx)
    obtain ⟨-, hone, hiff⟩ := erases_of_held htiming hlow.2 hticks hrest
    refine ⟨s₁, s₂, hs₁, hs₂, herases ▸ hone, fun hheld => ?_⟩
    rw [List.forall_mem_cons] at hheld
    have hfirst : ¬3000 ≤ first.msSince period first := by simp [Sample.msSince]
    rw [← herases, hiff hheld.2, List.exists_mem_cons_iff]
    exact (or_iff_right hfirst).symm
  · rintro before x after rfl hx
    rw [Machine.exec_append] at hrun
    obtain ⟨s₁, hs₁, hrun⟩ := Option.bind_eq_some_iff.mp hrun
    obtain ⟨s₂, hs₂, -⟩ := Option.bind_eq_some_iff.mp hrun
    exact ⟨s₁, s₂, hs₁, hs₂, (step_high hs₂ hx).2⟩

/-- The button is pressed 296 ms before the times wrap, with a tick of 10 ms. -/
def pressedLate : Sample := ⟨.low, 429496700, espOk⟩

/-- It is held for eight seconds, while the configuration cannot be erased. -/
def heldOn : List Sample :=
  [⟨.low, 429496999, espOk⟩, ⟨.low, 429497000, .error .fail⟩, ⟨.low, 429497500, espOk⟩]

/-- It is released. -/
def released : Sample := ⟨.high, 429497510, espOk⟩

/-- The erase is called in this press, and not again. -/
theorem erase_once_pressedLate :
    ∃ s₁ s₂, Machine.exec (step 10) start [] = some s₁ ∧
      Machine.exec (step 10) s₁ (pressedLate :: heldOn) = some s₂ ∧
      s₂.erases ≤ s₁.erases + 1 ∧ s₁.erases < s₂.erases := by
  have hrun : Machine.exec (step 10) start (pressedLate :: heldOn ++ [released]) =
      some ⟨.polling, false, 4294967000, 1⟩ := rfl
  obtain ⟨s₁, s₂, hs₁, hs₂, hone, hiff⟩ := (erase_once_per_long_press 10 hrun (by decide)).1
    [] pressedLate heldOn [released] ⟨rfl, by decide, by decide, by decide⟩
  exact ⟨s₁, s₂, hs₁, hs₂, hone, (hiff (by decide)).mpr (by decide)⟩

end Button
end Device
end WifiRepeater
