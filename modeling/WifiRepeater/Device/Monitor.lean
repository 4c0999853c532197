import WifiRepeater.Lib.CString
import WifiRepeater.Lib.Machine
import Mathlib.Algebra.Group.Nat.Defs

/-!
# The system monitor

The monitor turns counters of the system into the numbers of the status page: processor
time into percentages, free memory into a percentage, latencies into averages.  All of it
is done in words of 32 bits, and a product or a sum that does not fit is cut off before
the division that would have made it small again.

## Main definitions

* `CpuStats`, `MemStats`, `Bench` — the statistics and the variables behind them.
* `updateCpuStats`, `updateMemStats` — one sample of the processor and of the heap.
* `sysMonitorRecordDnsQuery`, `sysMonitorRecordHttpRequest` — one latency.
* `CpuRight`, `HeapRight`, `Exact` — what the numbers should be.

## Main results

* `mod_div_eq_iff` — cutting off before a division shows in the quotient.
* `cpu_percent_right_iff` — **percentages of processor time.**
* `heap_usage_right_iff` — **percentages of memory, over every run.**
* `latency_statistics_exact_iff` — **averages, over every run.**
-/

namespace WifiRepeater
namespace Monitor

/-! ### Cutting off before a division -/

/-- **Cutting off before a division shows in the quotient**: as long as the divisor is no
larger than the modulus, the quotient survives only when nothing was cut off. -/
theorem mod_div_eq_iff {x d M : ℕ} (hd : 0 < d) (hdM : d ≤ M) : x % M / d = x / d ↔ x < M := by
  constructor
  · intro h
    by_contra hlt
    have hone : 1 ≤ x / M := (Nat.one_le_div_iff (by omega)).mpr (by omega)
    have hsplit := Nat.div_add_mod x M
    have hle : M ≤ M * (x / M) := Nat.le_mul_of_pos_right M hone
    -- the part cut off is worth one more at least
    have hmore : (x % M + d) / d ≤ x / d := Nat.div_le_div_right (by omega)
    rw [Nat.add_div_right _ hd] at hmore
    omega
  · intro h
    rw [Nat.mod_eq_of_lt h]

/-- A part is no more than a hundred percent. -/
theorem percent_le {x d : ℕ} (hd : 0 < d) (hx : x ≤ 100 * d) : x / d ≤ 100 := by
  have hdiv := Nat.div_le_div_right (c := d) hx
  rwa [Nat.mul_div_cancel _ hd] at hdiv

/-! ### Processor time -/

/-- What FreeRTOS says of a task. -/
structure TaskStatus where
  /-- `pcTaskName`. -/
  pcTaskName : CStr
  /-- `ulRunTimeCounter`, in microseconds. -/
  ulRunTimeCounter : UInt32
  /-- `usStackHighWaterMark`, in elements of `StackType_t`, which is a byte here. -/
  usStackHighWaterMark : UInt32

/-- The tasks at one moment. -/
structure Snapshot where
  /-- The tasks. -/
  tasks : List TaskStatus
  /-- The run-time counter of the system. -/
  totalRuntime : UInt32

/-- `uxTaskGetSystemState`: nothing is filled in when the array is too small. -/
def uxTaskGetSystemState (snap : Snapshot) (arraySize : ℕ) : List TaskStatus × UInt32 :=
  if snap.tasks.length ≤ arraySize then (snap.tasks, snap.totalRuntime) else ([], 0)

/-- `sys_monitor_task_stats_t`. -/
structure TaskStats where
  /-- `task_name`. -/
  taskName : Buf 16
  /-- `runtime_counter`. -/
  runtimeCounter : UInt32
  /-- `cpu_percent`. -/
  cpuPercent : UInt8
  /-- `stack_hwm`. -/
  stackHwm : UInt32

/-- `sys_monitor_cpu_stats_t`. -/
structure CpuStats where
  /-- `total_cpu_percent`. -/
  totalCpuPercent : UInt8
  /-- `task_count`. -/
  taskCount : UInt32
  /-- `tasks`. -/
  tasks : Vector TaskStats 16

/-- The percentage of one task: `ulRunTimeCounter * 100UL` has 32 bits on this target. -/
def cpuPercentOf (counter total : UInt32) : UInt8 :=
  if total > 0 then (counter * 100 / total).toUInt8 else 0

/-- What the loop writes for one task. -/
def taskStats (old : TaskStats) (st : TaskStatus) (total : UInt32) : TaskStats where
  taskName := (old.taskName.strncpy st.pcTaskName 15 (by decide)).setByte 15 0
  runtimeCounter := st.ulRunTimeCounter
  cpuPercent := cpuPercentOf st.ulRunTimeCounter total
  stackHwm := st.usStackHighWaterMark

/-- `strncmp(task_name, "IDLE", 4) == 0`. -/
def isIdle (name : CStr) : Bool := name.strncmpEq (CStr.lit "IDLE") 4

/-- The loop over the tasks, from index `i` on. -/
def cpuLoop (total : UInt32) :
    List TaskStatus → ℕ → Vector TaskStats 16 → UInt32 → Vector TaskStats 16 × UInt32
  | [], _, tasks, totalCpu => (tasks, totalCpu)
  | st :: rest, i, tasks, totalCpu =>
      if h : i < 16 then
        let t := taskStats tasks[i] st total
        cpuLoop total rest (i + 1) (tasks.set i t)
          (if isIdle t.taskName.str then totalCpu else totalCpu + t.cpuPercent.toUInt32)
      else (tasks, totalCpu)

/-- `update_cpu_stats`, `allocated` being whether `pvPortMalloc` found the memory. -/
def updateCpuStats (cpu : CpuStats) (snap : Snapshot) (allocated : Bool) : CpuStats :=
  let taskCount := if snap.tasks.length > 16 then 16 else snap.tasks.length
  let cpu := { cpu with taskCount := UInt32.ofNat taskCount }
  if allocated = false then cpu
  else
    let (statuses, total) := uxTaskGetSystemState snap taskCount
    let (tasks, totalCpu) := cpuLoop total statuses 0 cpu.tasks 0
    { cpu with
      tasks := tasks
      totalCpuPercent := if totalCpu > 100 then 100 else totalCpu.toUInt8 }

/-- A sum over the tasks whose name does not begin with `IDLE`. -/
def busySum (f : TaskStatus → ℕ) : List TaskStatus → ℕ
  | [] => 0
  | st :: rest => (if isIdle st.pcTaskName then 0 else f st) + busySum f rest

/-- The share of a task, in whole percent. -/
def share (snap : Snapshot) (st : TaskStatus) : ℕ :=
  100 * st.ulRunTimeCounter.toNat / snap.totalRuntime.toNat

/-- The percentages are right. -/
structure CpuRight (snap : Snapshot) (cpu : CpuStats) : Prop where
  /-- The percentage of each task is its share, and 100 at most. -/
  percent : ∀ (i : ℕ) (st : TaskStatus), snap.tasks[i]? = some st →
    ∃ t : TaskStats, cpu.tasks[i]? = some t ∧ t.cpuPercent.toNat = share snap st ∧
      t.cpuPercent.toNat ≤ 100
  /-- The total is that of the tasks other than the idle ones, up to 100. -/
  total : cpu.totalCpuPercent.toNat = min 100 (busySum (share snap) snap.tasks)

/-- **What is stored for a task**: the product cut off at 32 bits, and then divided. -/
theorem cpuPercentOf_toNat {counter total : UInt32} (hpos : 0 < total) (hle : counter ≤ total) :
    (cpuPercentOf counter total).toNat
      = 100 * counter.toNat % 2 ^ 32 / total.toNat ∧ (cpuPercentOf counter total).toNat ≤ 100 := by
  have hposn : 0 < total.toNat := hpos
  have hlen : counter.toNat ≤ total.toNat := hle
  have hbound : 100 * counter.toNat % 2 ^ 32 / total.toNat ≤ 100 := by
    have hmod := Nat.mod_le (100 * counter.toNat) (2 ^ 32)
    exact percent_le hposn (by omega)
  have hval : (cpuPercentOf counter total).toNat
      = 100 * counter.toNat % 2 ^ 32 / total.toNat := by
    rw [cpuPercentOf, if_pos hpos, UInt32.toNat_toUInt8, UInt32.toNat_div, UInt32.toNat_mul,
      show (100 : UInt32).toNat = 100 from rfl, Nat.mul_comm]
    exact Nat.mod_eq_of_lt (by omega)
  exact ⟨hval, hval ▸ hbound⟩

/-- A name is idle by its first four characters, which the copy keeps. -/
theorem isIdle_taskStats (old : TaskStats) (st : TaskStatus) (total : UInt32) :
    isIdle (taskStats old st total).taskName.str = isIdle st.pcTaskName := by
  have hname := (Buf.str_strncpy_setByte old.taskName st.pcTaskName).1
  rw [isIdle, isIdle, CStr.strncmpEq, CStr.strncmpEq, taskStats, hname, List.take_take]
  rfl

/-- What the loop adds up. -/
def busyPercent (total : UInt32) : List TaskStatus → ℕ :=
  busySum fun st => (cpuPercentOf st.ulRunTimeCounter total).toNat

/-- What a task adds to the total. -/
def addBusy (total totalCpu : UInt32) (st : TaskStatus) : UInt32 :=
  if isIdle st.pcTaskName then totalCpu
  else totalCpu + (cpuPercentOf st.ulRunTimeCounter total).toUInt32

/-- One round of the loop. -/
theorem cpuLoop_cons {total : UInt32} {i : ℕ} (hi : i < 16) (st : TaskStatus)
    (sts : List TaskStatus) (tasks : Vector TaskStats 16) (totalCpu : UInt32) :
    cpuLoop total (st :: sts) i tasks totalCpu
      = cpuLoop total sts (i + 1) (tasks.set i (taskStats tasks[i] st total))
          (addBusy total totalCpu st) := by
  rw [cpuLoop, dif_pos hi]
  simp only [isIdle_taskStats]
  rfl

/-- The sum stays far below 32 bits. -/
theorem addBusy_toNat {total totalCpu : UInt32} {st : TaskStatus} (hpos : 0 < total)
    (hle : st.ulRunTimeCounter ≤ total) (hsum : totalCpu.toNat ≤ 1600) :
    (addBusy total totalCpu st).toNat = totalCpu.toNat + busyPercent total [st] ∧
      (addBusy total totalCpu st).toNat ≤ totalCpu.toNat + 100 := by
  have hmax := (cpuPercentOf_toNat hpos hle).2
  have hone : busyPercent total [st]
      = if isIdle st.pcTaskName then 0 else (cpuPercentOf st.ulRunTimeCounter total).toNat := rfl
  unfold addBusy
  rw [hone]
  split_ifs
  · exact ⟨rfl, Nat.le_add_right _ _⟩
  · have hadd : (totalCpu + (cpuPercentOf st.ulRunTimeCounter total).toUInt32).toNat
        = totalCpu.toNat + (cpuPercentOf st.ulRunTimeCounter total).toNat := by
      rw [UInt32.toNat_add, UInt8.toNat_toUInt32]
      exact Nat.mod_eq_of_lt (by omega)
    exact ⟨hadd, by omega⟩

/-- **The loop** writes one slot for each task and leaves the others; it adds up the
percentages of the tasks that are not idle, which are too few to overflow. -/
theorem cpuLoop_spec {total : UInt32} (hpos : 0 < total) : ∀ (sts : List TaskStatus) (i : ℕ)
    (tasks : Vector TaskStats 16) (totalCpu : UInt32), i + sts.length ≤ 16 →
      (∀ st ∈ sts, st.ulRunTimeCounter ≤ total) → totalCpu.toNat ≤ 100 * i →
      (∀ k, k < i → (cpuLoop total sts i tasks totalCpu).1[k]? = tasks[k]?) ∧
      (∀ j st, sts[j]? = some st → ∃ old,
        (cpuLoop total sts i tasks totalCpu).1[i + j]? = some (taskStats old st total)) ∧
      (cpuLoop total sts i tasks totalCpu).2.toNat = totalCpu.toNat + busyPercent total sts := by
  intro sts
  induction sts with
  | nil => intro i tasks totalCpu _ _ _; exact ⟨fun _ _ => rfl, by simp, rfl⟩
  | cons st sts ih =>
    intro i tasks totalCpu hlen hle hsum
    rw [List.length_cons] at hlen
    rw [List.forall_mem_cons] at hle
    have hi : i < 16 := by omega
    obtain ⟨hadd, hmax⟩ := addBusy_toNat hpos hle.1 (show totalCpu.toNat ≤ 1600 by omega)
    obtain ⟨hbefore, hslots, htotal⟩ := ih (i + 1) (tasks.set i (taskStats tasks[i] st total))
      (addBusy total totalCpu st) (by omega) hle.2 (by omega)
    rw [cpuLoop_cons hi]
    refine ⟨fun k hk => ?_, fun j st' hj => ?_, ?_⟩
    · rw [hbefore k (by omega), Vector.getElem?_set_ne]
      omega
    · cases j with
      | zero =>
        obtain rfl : st = st' := by simpa using hj
        exact ⟨tasks[i], (hbefore i (by omega)).trans (Vector.getElem?_set_self hi)⟩
      | succ j =>
        rw [List.getElem?_cons_succ] at hj
        obtain ⟨old, hold⟩ := hslots j st' hj
        exact ⟨old, by rw [← hold]; congr 1; omega⟩
    · have hsplit : busyPercent total (st :: sts)
          = busyPercent total [st] + busyPercent total sts := by
        simp only [busyPercent, busySum]
        omega
      rw [htotal, hadd, hsplit, Nat.add_assoc]

/-- The sums of two functions that agree. -/
theorem busySum_congr {f g : TaskStatus → ℕ} : ∀ {sts : List TaskStatus},
    (∀ st ∈ sts, f st = g st) → busySum f sts = busySum g sts := by
  intro sts
  induction sts with
  | nil => intro _; rfl
  | cons st sts ih =>
    intro h
    rw [List.forall_mem_cons] at h
    rw [busySum, busySum, h.1, ih h.2]

/-- A snapshot that fits the array is taken as a whole. -/
theorem updateCpuStats_eq (cpu : CpuStats) {snap : Snapshot} (hlen : snap.tasks.length ≤ 16) :
    (updateCpuStats cpu snap true).tasks
        = (cpuLoop snap.totalRuntime snap.tasks 0 cpu.tasks 0).1 ∧
      (updateCpuStats cpu snap true).totalCpuPercent
        = if (cpuLoop snap.totalRuntime snap.tasks 0 cpu.tasks 0).2 > 100 then 100
          else (cpuLoop snap.totalRuntime snap.tasks 0 cpu.tasks 0).2.toUInt8 := by
  simp [updateCpuStats, uxTaskGetSystemState, if_neg (show ¬16 < snap.tasks.length by omega)]

/-- **Percentages of processor time are right** just when no product is cut off: for every
snapshot of at most 16 tasks, none of which ran longer than the system, that is when every
counter is below 2^32 / 100, some 43 seconds. -/
theorem cpu_percent_right_iff (cpu : CpuStats) (snap : Snapshot) (hlen : snap.tasks.length ≤ 16)
    (hpos : 0 < snap.totalRuntime)
    (hle : ∀ st ∈ snap.tasks, st.ulRunTimeCounter ≤ snap.totalRuntime) :
    CpuRight snap (updateCpuStats cpu snap true) ↔
      ∀ st ∈ snap.tasks, 100 * st.ulRunTimeCounter.toNat < 2 ^ 32 := by
  obtain ⟨-, hslots, hsum⟩ := cpuLoop_spec hpos snap.tasks 0 cpu.tasks 0 (by omega) hle (by simp)
  obtain ⟨htasks, htotal⟩ := updateCpuStats_eq cpu hlen
  have hposn : 0 < snap.totalRuntime.toNat := hpos
  have hT : snap.totalRuntime.toNat ≤ 2 ^ 32 := by have := snap.totalRuntime.toNat_lt; omega
  constructor
  · intro h st hst
    obtain ⟨i, hi⟩ := List.getElem?_of_mem hst
    obtain ⟨t, ht, hshare, -⟩ := h.percent i st hi
    obtain ⟨old, hold⟩ := hslots i st hi
    rw [htasks, ← Nat.zero_add i, hold, Option.some.injEq] at ht
    rw [← mod_div_eq_iff hposn hT, ← (cpuPercentOf_toNat hpos (hle st hst)).1]
    rw [← ht] at hshare
    exact hshare
  · intro h
    -- nothing is cut off, so what is stored is the share
    have hstored : ∀ st ∈ snap.tasks,
        (cpuPercentOf st.ulRunTimeCounter snap.totalRuntime).toNat = share snap st := by
      intro st hst
      rw [(cpuPercentOf_toNat hpos (hle st hst)).1, share, mod_div_eq_iff hposn hT]
      exact h st hst
    refine ⟨fun i st hi => ?_, ?_⟩
    · have hst := List.mem_of_getElem? hi
      obtain ⟨old, hold⟩ := hslots i st hi
      refine ⟨_, by rw [htasks, ← Nat.zero_add i, hold], hstored st hst, ?_⟩
      exact (cpuPercentOf_toNat hpos (hle st hst)).2
    · rw [busyPercent, busySum_congr hstored, UInt32.toNat_zero, Nat.zero_add] at hsum
      rw [htotal, ← hsum]
      split_ifs with hcap
      · have hcapn : 100 < _ := UInt32.lt_iff_toNat_lt.mp hcap
        exact (Nat.min_eq_left (Nat.le_of_lt hcapn)).symm
      · have hcapn := UInt32.not_lt.mp hcap
        have hle100 : UInt32.toNat _ ≤ 100 := UInt32.le_iff_toNat_le.mp hcapn
        rw [Nat.min_eq_right hle100, UInt32.toNat_toUInt8]
        exact Nat.mod_eq_of_lt (by omega)

/-- The statistics at the start. -/
def noCpuStats : CpuStats := ⟨0, 0, Vector.replicate 16 ⟨Buf.zero 16, 0, 0, 0⟩⟩

/-- A task that ran for half of the time, after `halfUs` microseconds each. -/
def halfBusy (halfUs : UInt32) : Snapshot :=
  ⟨[⟨CStr.lit "main", halfUs, 512⟩, ⟨CStr.lit "IDLE", halfUs, 256⟩], 2 * halfUs⟩

/-- After ten seconds the percentages are right. -/
theorem cpu_percent_after_ten_seconds :
    CpuRight (halfBusy 5000000) (updateCpuStats noCpuStats (halfBusy 5000000) true) :=
  (cpu_percent_right_iff noCpuStats (halfBusy 5000000) (by decide) (by decide) (by decide)).mpr
    (by decide)

/-- After a hundred seconds the task that ran for half of them is said to take 7 percent. -/
theorem cpu_percent_after_hundred_seconds :
    ((updateCpuStats noCpuStats (halfBusy 50000000) true).tasks[0]?.map TaskStats.cpuPercent
      = some 7) ∧ share (halfBusy 50000000) ⟨CStr.lit "main", 50000000, 512⟩ = 50 ∧
      ¬CpuRight (halfBusy 50000000) (updateCpuStats noCpuStats (halfBusy 50000000) true) := by
  have hstored : (updateCpuStats noCpuStats (halfBusy 50000000) true).tasks[0]?.map
      TaskStats.cpuPercent = some 7 := by decide
  have hshare : share (halfBusy 50000000) ⟨CStr.lit "main", 50000000, 512⟩ = 50 := by decide
  refine ⟨hstored, hshare, fun h => ?_⟩
  obtain ⟨t, ht, hpercent, -⟩ := h.percent 0 ⟨CStr.lit "main", 50000000, 512⟩ rfl
  rw [ht, Option.map_some, Option.some.injEq] at hstored
  rw [hstored, hshare] at hpercent
  exact absurd hpercent (by decide)

/-! ### Memory -/

/-- What the heap allocator answers. -/
structure HeapReading where
  /-- `esp_get_free_heap_size()`. -/
  free : UInt32
  /-- `esp_get_minimum_free_heap_size()`. -/
  minFree : UInt32
  /-- `heap_caps_get_largest_free_block(MALLOC_CAP_DEFAULT)`. -/
  largest : UInt32

/-- `sys_monitor_mem_stats_t`. -/
structure MemStats where
  /-- `free_heap`. -/
  freeHeap : UInt32
  /-- `total_heap`. -/
  totalHeap : UInt32
  /-- `min_free_heap`. -/
  minFreeHeap : UInt32
  /-- `largest_free_block`. -/
  largestFreeBlock : UInt32
  /-- `heap_usage_percent`. -/
  heapUsagePercent : UInt8

/-- What is stored for a reading, `totalHeap` being the total. -/
def memStats (totalHeap : UInt32) (r : HeapReading) : MemStats :=
  let usedHeap := totalHeap - r.free
  let percent := (usedHeap * 100 / totalHeap).toUInt8
  ⟨r.free, totalHeap, r.minFree, r.largest, if percent > 100 then 100 else percent⟩

/-- `update_mem_stats`, with its static variable `total_heap`: the total is a guess made
at the first call.  It answers that variable and what it has stored. -/
def updateMemStats (totalHeap : UInt32) (r : HeapReading) : UInt32 × MemStats :=
  let totalHeap := if totalHeap = 0 then r.free + 32768 else totalHeap
  (totalHeap, memStats totalHeap r)

/-- Successive calls: each reading with what was stored for it. -/
def memRun : UInt32 → List HeapReading → List (HeapReading × MemStats)
  | _, [] => []
  | totalHeap, r :: rs =>
      let updated := updateMemStats totalHeap r
      (r, updated.2) :: memRun updated.1 rs

/-- The usage reported in a run is a true percentage. -/
structure HeapRight (run : List (HeapReading × MemStats)) : Prop where
  /-- It is the used part of the reported total. -/
  percent : ∀ p ∈ run, p.2.heapUsagePercent.toNat ≤ 100 ∧ p.2.heapUsagePercent.toNat
    = 100 * (p.2.totalHeap.toNat - p.1.free.toNat) / p.2.totalHeap.toNat
  /-- More free memory never means more usage. -/
  monotone : ∀ p ∈ run, ∀ p' ∈ run, p.1.free ≤ p'.1.free →
    p'.2.heapUsagePercent ≤ p.2.heapUsagePercent

/-- A reading is within the total, or the wrapped product happens to leave a zero in the
lowest byte of the quotient. -/
def Within (total free : ℕ) : Prop :=
  free ≤ total ∨ 256 ∣ (2 ^ 32 - 100 * (free - total)) / total

/-- The total is kept from the first call on. -/
theorem memRun_eq {totalHeap : UInt32} (h : totalHeap ≠ 0) : ∀ rs : List HeapReading,
    memRun totalHeap rs = rs.map fun r => (r, memStats totalHeap r) := by
  intro rs
  induction rs with
  | nil => rfl
  | cons r rs ih =>
    rw [memRun, updateMemStats, if_neg h, List.map_cons, ← ih]

/-- What the clamp stores. -/
theorem memStats_percent (totalHeap : UInt32) (r : HeapReading) :
    (memStats totalHeap r).heapUsagePercent.toNat
      = min 100 ((totalHeap - r.free) * 100 / totalHeap).toUInt8.toNat := by
  simp only [memStats]
  split_ifs with hcap
  · have hcapn : 100 < UInt8.toNat _ := UInt8.lt_iff_toNat_lt.mp hcap
    exact (Nat.min_eq_left (Nat.le_of_lt hcapn)).symm
  · have hcapn : UInt8.toNat _ ≤ 100 := UInt8.le_iff_toNat_le.mp (UInt8.not_lt.mp hcap)
    exact (Nat.min_eq_right hcapn).symm

/-- A reading within the total: nothing wraps. -/
theorem memStats_of_le {totalHeap : UInt32} {r : HeapReading} (hpos : 0 < totalHeap.toNat)
    (hT : totalHeap.toNat < 2 ^ 25 + 32768) (hle : r.free.toNat ≤ totalHeap.toNat) :
    (memStats totalHeap r).heapUsagePercent.toNat ≤ 100 ∧
      (memStats totalHeap r).heapUsagePercent.toNat
        = 100 * (totalHeap.toNat - r.free.toNat) / totalHeap.toNat := by
  have hsub : (totalHeap - r.free).toNat = totalHeap.toNat - r.free.toNat :=
    UInt32.toNat_sub_of_le _ _ (UInt32.le_iff_toNat_le.mpr hle)
  have hq : 100 * (totalHeap.toNat - r.free.toNat) / totalHeap.toNat ≤ 100 :=
    percent_le hpos (by omega)
  have hval : ((totalHeap - r.free) * 100 / totalHeap).toUInt8.toNat
      = 100 * (totalHeap.toNat - r.free.toNat) / totalHeap.toNat := by
    rw [UInt32.toNat_toUInt8, UInt32.toNat_div, UInt32.toNat_mul, hsub,
      show (100 : UInt32).toNat = 100 from rfl, Nat.mul_comm,
      Nat.mod_eq_of_lt (show 100 * (totalHeap.toNat - r.free.toNat) < 2 ^ 32 by omega)]
    exact Nat.mod_eq_of_lt (by omega)
  rw [memStats_percent, hval, Nat.min_eq_right hq]
  exact ⟨hq, rfl⟩

/-- A reading beyond the total: the difference wraps, and so does the product. -/
theorem memStats_of_gt {totalHeap : UInt32} {r : HeapReading} (hf : r.free.toNat < 2 ^ 25)
    (hgt : totalHeap.toNat < r.free.toNat) :
    (memStats totalHeap r).heapUsagePercent.toNat
      = min 100 ((2 ^ 32 - 100 * (r.free.toNat - totalHeap.toNat)) / totalHeap.toNat % 256) := by
  have hsub : (totalHeap - r.free).toNat = 2 ^ 32 - (r.free.toNat - totalHeap.toNat) := by
    have hT := totalHeap.toNat_lt
    rw [UInt32.toNat_sub, Nat.mod_eq_of_lt (by omega)]
    omega
  rw [memStats_percent, UInt32.toNat_toUInt8, UInt32.toNat_div, UInt32.toNat_mul, hsub,
    show (100 : UInt32).toNat = 100 from rfl]
  congr 3
  omega

/-- **One reading** is reported rightly just when it is within the total, the coincidence
apart. -/
theorem memStats_right_iff {T : UInt32} {r : HeapReading} (hpos : 0 < T.toNat)
    (hT : T.toNat < 2 ^ 25 + 32768) (hf : r.free.toNat < 2 ^ 25) :
    (memStats T r).heapUsagePercent.toNat = 100 * (T.toNat - r.free.toNat) / T.toNat ↔
      Within T.toNat r.free.toNat := by
  rcases Nat.lt_or_ge T.toNat r.free.toNat with hgt | hle
  · rw [memStats_of_gt hf hgt, Nat.sub_eq_zero_of_le hgt.le, Nat.mul_zero, Nat.zero_div, Within,
      Nat.dvd_iff_mod_eq_zero]
    omega
  · exact iff_of_true (memStats_of_le hpos hT hle).2 (.inl hle)

/-- **Percentages of memory are right over every run** just when no reading exceeds the
total guessed from the first one, the coincidence apart. -/
theorem heap_usage_right_iff (first : HeapReading) (rest : List HeapReading)
    (hrange : ∀ r ∈ first :: rest, r.free.toNat < 2 ^ 25) :
    HeapRight (memRun 0 (first :: rest)) ↔
      ∀ r ∈ first :: rest, Within (first.free.toNat + 32768) r.free.toNat := by
  have hfirst := hrange first (by simp)
  have htotal : (first.free + 32768).toNat = first.free.toNat + 32768 := by
    rw [UInt32.toNat_add, show (32768 : UInt32).toNat = 32768 from rfl]
    exact Nat.mod_eq_of_lt (by omega)
  have hne : first.free + 32768 ≠ 0 := by
    intro h0
    rw [h0, UInt32.toNat_zero] at htotal
    omega
  have hrun : memRun 0 (first :: rest)
      = (first :: rest).map fun r => (r, memStats (first.free + 32768) r) := by
    rw [memRun, updateMemStats, if_pos rfl, List.map_cons, ← memRun_eq hne]
  have hright := fun r (hr : r ∈ first :: rest) =>
    memStats_right_iff (T := first.free + 32768) (by omega) (by omega) (hrange r hr)
  rw [hrun, ← htotal]
  constructor
  · intro h r hr
    exact (hright r hr).mp (h.percent _ (List.mem_map_of_mem hr)).2
  · intro h
    refine ⟨?_, ?_⟩
    · intro p hp
      obtain ⟨r, hr, rfl⟩ := List.mem_map.mp hp
      refine ⟨?_, (hright r hr).mpr (h r hr)⟩
      rw [memStats_percent]
      exact Nat.min_le_left _ _
    -- the exact percentage falls as the free memory grows
    · intro p hp p' hp' hle
      obtain ⟨r, hr, rfl⟩ := List.mem_map.mp hp
      obtain ⟨r', hr', rfl⟩ := List.mem_map.mp hp'
      have hlen : r.free.toNat ≤ r'.free.toNat := hle
      rw [UInt8.le_iff_toNat_le, (hright r hr).mpr (h r hr), (hright r' hr').mpr (h r' hr')]
      exact Nat.div_le_div_right (by omega)

/-- A reading of which only the free memory matters. -/
def freeOnly (free : UInt32) : HeapReading := ⟨free, free, free⟩

/-- A run within the total of its first reading. -/
theorem heap_usage_within :
    HeapRight (memRun 0 (freeOnly 200000 :: [freeOnly 150000, freeOnly 220000])) :=
  (heap_usage_right_iff (freeOnly 200000) [freeOnly 150000, freeOnly 220000]
    (by decide)).mpr (by
      intro r hr
      refine .inl ?_
      revert r
      decide)

/-- Memory set free after the first reading is reported as a heap in full use. -/
theorem heap_usage_after_release :
    ((memRun 0 [freeOnly 200000, freeOnly 300000]).map fun p => p.2.heapUsagePercent) = [14, 100] ∧
      ¬HeapRight (memRun 0 [freeOnly 200000, freeOnly 300000]) := by
  refine ⟨by decide, fun h => ?_⟩
  have hlast := (h.percent _ (List.mem_of_getElem? (i := 1) rfl)).2
  exact absurd hlast (by decide)

/-! ### Latencies -/

/-- The statistics of one kind of operation: three fields of
`sys_monitor_benchmark_stats_t` and the static variable that adds up the latencies. -/
structure Latency where
  /-- `dns_query_count` or `http_request_count`. -/
  count : UInt32
  /-- `dns_avg_latency_us` or `http_avg_latency_us`. -/
  avgUs : UInt32
  /-- `dns_max_latency_us` or `http_max_latency_us`. -/
  maxUs : UInt32
  /-- `g_dns_total_latency` or `g_http_total_latency`. -/
  total : UInt32

/-- One more latency; `none` is the division by zero. -/
def Latency.record (l : Latency) (latencyUs : UInt32) : Option Latency :=
  let count := l.count + 1
  let total := l.total + latencyUs
  if count = 0 then none
  else some ⟨count, total / count, if latencyUs > l.maxUs then latencyUs else l.maxUs, total⟩

/-- The benchmark statistics. -/
structure Bench where
  /-- Those of DNS queries. -/
  dns : Latency
  /-- Those of HTTP requests. -/
  http : Latency
  /-- `dns_cache_hits`. -/
  dnsCacheHits : UInt32
  /-- `dns_cache_misses`. -/
  dnsCacheMisses : UInt32

/-- What `sys_monitor_init` clears: the statistics, not the two totals. -/
def sysMonitorInit (b : Bench) : Bench := ⟨⟨0, 0, 0, b.dns.total⟩, ⟨0, 0, 0, b.http.total⟩, 0, 0⟩

/-- The start of the device, and `sys_monitor_init` before anything is recorded. -/
def initialized : Bench := sysMonitorInit ⟨⟨0, 0, 0, 0⟩, ⟨0, 0, 0, 0⟩, 0, 0⟩

/-- `sys_monitor_record_dns_query`. -/
def sysMonitorRecordDnsQuery (b : Bench) (latencyUs : UInt32) : Option Bench :=
  (b.dns.record latencyUs).map fun l => { b with dns := l }

/-- `sys_monitor_record_http_request`. -/
def sysMonitorRecordHttpRequest (b : Bench) (latencyUs : UInt32) : Option Bench :=
  (b.http.record latencyUs).map fun l => { b with http := l }

/-- `sys_monitor_record_dns_cache_hit`. -/
def sysMonitorRecordDnsCacheHit (b : Bench) : Bench :=
  { b with dnsCacheHits := b.dnsCacheHits + 1 }

/-- `sys_monitor_record_dns_cache_miss`. -/
def sysMonitorRecordDnsCacheMiss (b : Bench) : Bench :=
  { b with dnsCacheMisses := b.dnsCacheMisses + 1 }

/-- The calls that record something. -/
inductive BenchEvent
  /-- A DNS query was answered. -/
  | dnsQuery (latencyUs : UInt32)
  /-- An HTTP request was answered. -/
  | httpRequest (latencyUs : UInt32)
  /-- The cache had the answer. -/
  | cacheHit
  /-- It had not. -/
  | cacheMiss

/-- What a call does. -/
def benchStep (b : Bench) : BenchEvent → Option Bench
  | .dnsQuery latencyUs => sysMonitorRecordDnsQuery b latencyUs
  | .httpRequest latencyUs => sysMonitorRecordHttpRequest b latencyUs
  | .cacheHit => some (sysMonitorRecordDnsCacheHit b)
  | .cacheMiss => some (sysMonitorRecordDnsCacheMiss b)

/-- The latency of a DNS query. -/
def dnsLatency : BenchEvent → Option UInt32
  | .dnsQuery latencyUs => some latencyUs
  | _ => none

/-- The latency of an HTTP request. -/
def httpLatency : BenchEvent → Option UInt32
  | .httpRequest latencyUs => some latencyUs
  | _ => none

/-- The latencies together. -/
def latencySum : List UInt32 → ℕ
  | [] => 0
  | x :: xs => x.toNat + latencySum xs

/-- The statistics say what the latencies were. -/
structure Exact (lats : List UInt32) (l : Latency) : Prop where
  /-- Their number. -/
  count : l.count.toNat = lats.length
  /-- Their average. -/
  average : l.avgUs.toNat = latencySum lats / lats.length
  /-- The largest of them, which is one of them if there are any. -/
  maximum : (∀ x ∈ lats, x ≤ l.maxUs) ∧ (lats ≠ [] → l.maxUs ∈ lats)
  /-- The average does not exceed it. -/
  le : l.avgUs ≤ l.maxUs

/-- The count and the sum have 32 bits. -/
def InRange (lats : List UInt32) : Prop := lats.length < 2 ^ 32 ∧ latencySum lats < 2 ^ 32

theorem latencySum_append (xs ys : List UInt32) :
    latencySum (xs ++ ys) = latencySum xs + latencySum ys := by
  induction xs with
  | nil => simp [latencySum]
  | cons x xs ih =>
    rw [List.cons_append, latencySum, latencySum, ih]
    omega

theorem latencySum_le {m : UInt32} : ∀ {xs : List UInt32}, (∀ x ∈ xs, x ≤ m) →
    latencySum xs ≤ m.toNat * xs.length := by
  intro xs
  induction xs with
  | nil => intro _; exact Nat.zero_le _
  | cons x xs ih =>
    intro h
    rw [List.forall_mem_cons] at h
    have hx : x.toNat ≤ m.toNat := h.1
    have hxs := ih h.2
    rw [latencySum, List.length_cons, Nat.mul_succ]
    omega

/-- What the accumulators hold after the latencies `lats`, in words of 32 bits. -/
structure Represents (lats : List UInt32) (l : Latency) : Prop where
  /-- The count. -/
  count : l.count = UInt32.ofNat lats.length
  /-- The sum. -/
  total : l.total = UInt32.ofNat (latencySum lats)
  /-- The quotient of the two. -/
  average : l.avgUs = l.total / l.count
  /-- The maximum. -/
  maximum : (∀ x ∈ lats, x ≤ l.maxUs) ∧ (lats = [] ∧ l.maxUs = 0 ∨ l.maxUs ∈ lats)

/-- One more latency. -/
theorem Represents.record {lats : List UInt32} {l l' : Latency} {x : UInt32}
    (h : Represents lats l) (hl : l.record x = some l') : Represents (lats ++ [x]) l' := by
  rw [Latency.record] at hl
  by_cases hzero : l.count + 1 = 0
  · rw [if_pos hzero] at hl
    exact absurd hl (by simp)
  rw [if_neg hzero] at hl
  obtain rfl := Option.some.inj hl
  refine ⟨?_, ?_, rfl, ?_, ?_⟩
  · show l.count + 1 = _
    rw [h.count, List.length_append, List.length_singleton, UInt32.ofNat_add]
    rfl
  · show l.total + x = _
    rw [h.total, latencySum_append, latencySum, latencySum, Nat.add_zero, UInt32.ofNat_add,
      UInt32.ofNat_toNat]
  · intro y hy
    rw [List.mem_append, List.mem_singleton] at hy
    show y ≤ if x > l.maxUs then x else l.maxUs
    rcases hy with hy | rfl
    · have hle := h.maximum.1 y hy
      split_ifs with hgt
      · exact UInt32.le_trans hle (UInt32.le_of_lt hgt)
      · exact hle
    · split_ifs with hgt
      · exact UInt32.le_refl y
      · exact UInt32.not_lt.mp hgt
  · refine .inr ?_
    show (if x > l.maxUs then x else l.maxUs) ∈ _
    rw [List.mem_append, List.mem_singleton]
    split_ifs with hgt
    · exact .inr rfl
    · rcases h.maximum.2 with ⟨-, h0⟩ | hmem
      -- no latency yet, and this one is zero
      · rw [h0] at hgt ⊢
        exact .inr (UInt32.le_antisymm (UInt32.zero_le) (UInt32.not_lt.mp hgt))
      · exact .inl hmem

/-- A run of latencies. -/
theorem Represents.exec {lats xs : List UInt32} {l l' : Latency} (h : Represents lats l)
    (hl : Machine.exec Latency.record l xs = some l') : Represents (lats ++ xs) l' := by
  induction xs generalizing lats l with
  | nil =>
    rw [Machine.exec, Option.some.injEq] at hl
    rwa [List.append_nil, ← hl]
  | cons x xs ih =>
    rw [Machine.exec, Option.bind_eq_some_iff] at hl
    obtain ⟨m, hm, hl⟩ := hl
    have := ih (h.record hm) hl
    rwa [List.append_assoc] at this

/-- **The accumulators are exact** just when count and sum have 32 bits. -/
theorem Represents.exact_iff {lats : List UInt32} {l : Latency} (h : Represents lats l) :
    Exact lats l ↔ InRange lats := by
  have hcount : l.count.toNat = lats.length % 2 ^ 32 := by rw [h.count, UInt32.toNat_ofNat']
  have htotal : l.total.toNat = latencySum lats % 2 ^ 32 := by rw [h.total, UInt32.toNat_ofNat']
  have haverage : l.avgUs.toNat = latencySum lats % 2 ^ 32 / (lats.length % 2 ^ 32) := by
    rw [h.average, UInt32.toNat_div, hcount, htotal]
  constructor
  · intro hexact
    have hlen : lats.length < 2 ^ 32 := by
      rw [← hexact.count]
      exact l.count.toNat_lt
    refine ⟨hlen, ?_⟩
    rw [Nat.mod_eq_of_lt hlen] at haverage
    rcases Nat.eq_zero_or_pos lats.length with h0 | hpos
    · rw [List.length_eq_zero_iff.mp h0, latencySum]
      omega
    · exact (mod_div_eq_iff hpos hlen.le).mp (haverage.symm.trans hexact.average)
  · rintro ⟨hlen, hsum⟩
    rw [Nat.mod_eq_of_lt hlen, Nat.mod_eq_of_lt hsum] at haverage
    refine ⟨?_, haverage, ⟨h.maximum.1, fun hne => ?_⟩, ?_⟩
    · rw [hcount, Nat.mod_eq_of_lt hlen]
    · exact h.maximum.2.resolve_left fun hnil => hne hnil.1
    · rw [UInt32.le_iff_toNat_le, haverage]
      rcases Nat.eq_zero_or_pos lats.length with h0 | hpos
      · rw [h0, Nat.div_zero]
        exact Nat.zero_le _
      · exact (Nat.div_le_iff_le_mul_add_pred hpos).mpr
          (Nat.le_add_right_of_le (Nat.mul_comm _ _ ▸ latencySum_le h.maximum.1))

/-! ### Both kinds of operation -/

/-- The latencies of the DNS queries. -/
def dnsLatencies (es : List BenchEvent) : List UInt32 := es.filterMap dnsLatency

/-- The latencies of the HTTP requests. -/
def httpLatencies (es : List BenchEvent) : List UInt32 := es.filterMap httpLatency

/-- A run of calls is a run of either accumulator. -/
theorem exec_dns {es : List BenchEvent} {b b' : Bench}
    (h : Machine.exec benchStep b es = some b') :
    Machine.exec Latency.record b.dns (dnsLatencies es) = some b'.dns := by
  refine Machine.exec_component (p := Bench.dns) ?_ h
  intro b e b' hb
  cases e with
  | dnsQuery x =>
    obtain ⟨l, hl, rfl⟩ := Option.map_eq_some_iff.mp hb
    exact .inl ⟨x, rfl, hl⟩
  | httpRequest x =>
    obtain ⟨l, -, rfl⟩ := Option.map_eq_some_iff.mp hb
    exact .inr ⟨rfl, rfl⟩
  | cacheHit => exact .inr ⟨rfl, Option.some.inj hb ▸ rfl⟩
  | cacheMiss => exact .inr ⟨rfl, Option.some.inj hb ▸ rfl⟩

theorem exec_http {es : List BenchEvent} {b b' : Bench}
    (h : Machine.exec benchStep b es = some b') :
    Machine.exec Latency.record b.http (httpLatencies es) = some b'.http := by
  refine Machine.exec_component (p := Bench.http) ?_ h
  intro b e b' hb
  cases e with
  | dnsQuery x =>
    obtain ⟨l, -, rfl⟩ := Option.map_eq_some_iff.mp hb
    exact .inr ⟨rfl, rfl⟩
  | httpRequest x =>
    obtain ⟨l, hl, rfl⟩ := Option.map_eq_some_iff.mp hb
    exact .inl ⟨x, rfl, hl⟩
  | cacheHit => exact .inr ⟨rfl, Option.some.inj hb ▸ rfl⟩
  | cacheMiss => exact .inr ⟨rfl, Option.some.inj hb ▸ rfl⟩

/-- A count below 32 bits is not zero after it was raised. -/
theorem record_of_lt {l : Latency} {x : UInt32} (h : l.count.toNat + 1 < 2 ^ 32) :
    ∃ l', l.record x = some l' ∧ l'.count.toNat = l.count.toNat + 1 := by
  have hcount : (l.count + 1).toNat = l.count.toNat + 1 := by
    rw [UInt32.toNat_add]
    exact Nat.mod_eq_of_lt h
  have hne : l.count + 1 ≠ 0 := by
    intro h0
    rw [h0, UInt32.toNat_zero] at hcount
    omega
  rw [Latency.record, if_neg hne]
  exact ⟨_, rfl, hcount⟩

/-- **No division by zero** while both counts stay below 32 bits. -/
theorem exists_exec : ∀ (es : List BenchEvent) (b : Bench),
    b.dns.count.toNat + (dnsLatencies es).length < 2 ^ 32 →
    b.http.count.toNat + (httpLatencies es).length < 2 ^ 32 →
      ∃ b', Machine.exec benchStep b es = some b' := by
  intro es
  induction es with
  | nil => intro b _ _; exact ⟨b, rfl⟩
  | cons e es ih =>
    intro b hdns hhttp
    cases e with
    | dnsQuery x =>
      have hcons : dnsLatencies (.dnsQuery x :: es) = x :: dnsLatencies es := rfl
      rw [hcons, List.length_cons] at hdns
      obtain ⟨l, hl, hcount⟩ := record_of_lt (l := b.dns) (x := x) (by omega)
      obtain ⟨b', hb'⟩ := ih { b with dns := l } (by simp only; omega) hhttp
      refine ⟨b', ?_⟩
      rw [Machine.exec, benchStep, sysMonitorRecordDnsQuery, hl]
      exact hb'
    | httpRequest x =>
      have hcons : httpLatencies (.httpRequest x :: es) = x :: httpLatencies es := rfl
      rw [hcons, List.length_cons] at hhttp
      obtain ⟨l, hl, hcount⟩ := record_of_lt (l := b.http) (x := x) (by omega)
      obtain ⟨b', hb'⟩ := ih { b with http := l } hdns (by simp only; omega)
      refine ⟨b', ?_⟩
      rw [Machine.exec, benchStep, sysMonitorRecordHttpRequest, hl]
      exact hb'
    | cacheHit => exact ih (sysMonitorRecordDnsCacheHit b) hdns hhttp
    | cacheMiss => exact ih (sysMonitorRecordDnsCacheMiss b) hdns hhttp

theorem represents_zero : Represents [] ⟨0, 0, 0, 0⟩ :=
  ⟨rfl, rfl, by decide, by simp, .inl ⟨rfl, rfl⟩⟩

/-- **Latency statistics are exact over every run** just when the latencies of either kind
are fewer than 2^32 and add up to less than 2^32 microseconds, some 72 minutes: then no
call divides by zero, and count, average and maximum are those of the latencies. -/
theorem latency_statistics_exact_iff (es : List BenchEvent) :
    (∃ b, Machine.exec benchStep initialized es = some b ∧ Exact (dnsLatencies es) b.dns ∧
      Exact (httpLatencies es) b.http) ↔
      InRange (dnsLatencies es) ∧ InRange (httpLatencies es) := by
  have hrepresents : ∀ b, Machine.exec benchStep initialized es = some b →
      Represents (dnsLatencies es) b.dns ∧ Represents (httpLatencies es) b.http := fun b hb =>
    ⟨represents_zero.exec (exec_dns hb), represents_zero.exec (exec_http hb)⟩
  constructor
  · rintro ⟨b, hb, hdns, hhttp⟩
    obtain ⟨hrd, hrh⟩ := hrepresents b hb
    exact ⟨hrd.exact_iff.mp hdns, hrh.exact_iff.mp hhttp⟩
  · rintro ⟨hdns, hhttp⟩
    have hzero : (0 : UInt32).toNat = 0 := rfl
    obtain ⟨b, hb⟩ := exists_exec es initialized
      (by show (0 : UInt32).toNat + _ < _; rw [hzero, Nat.zero_add]; exact hdns.1)
      (by show (0 : UInt32).toNat + _ < _; rw [hzero, Nat.zero_add]; exact hhttp.1)
    obtain ⟨hrd, hrh⟩ := hrepresents b hb
    exact ⟨b, hb, hrd.exact_iff.mpr hdns, hrh.exact_iff.mpr hhttp⟩

/-- Two latencies that add up to 2^32 microseconds are said to average zero. -/
theorem latency_average_wraps :
    ((Machine.exec benchStep initialized [.dnsQuery 0x80000000, .dnsQuery 0x80000000]).map
      fun b => (b.dns.avgUs, b.dns.maxUs)) = some (0, 0x80000000) ∧
      ¬∃ b, Machine.exec benchStep initialized
          [.dnsQuery 0x80000000, .dnsQuery 0x80000000] = some b ∧
        Exact (dnsLatencies [.dnsQuery 0x80000000, .dnsQuery 0x80000000]) b.dns ∧
        Exact (httpLatencies [.dnsQuery 0x80000000, .dnsQuery 0x80000000]) b.http := by
  have hrun : (Machine.exec benchStep initialized
      [.dnsQuery 0x80000000, .dnsQuery 0x80000000]).map (fun b => (b.dns.avgUs, b.dns.maxUs))
        = some (0, 0x80000000) := by decide
  refine ⟨hrun, ?_⟩
  rintro ⟨b, hb, hdns, -⟩
  rw [hb, Option.map_some, Option.some.injEq, Prod.mk.injEq] at hrun
  have haverage := hdns.average
  rw [hrun.1] at haverage
  exact absurd haverage (by decide)

end Monitor
end WifiRepeater
