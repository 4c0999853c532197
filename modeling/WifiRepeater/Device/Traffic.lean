import WifiRepeater.Device.Monitor

/-!
# Throughput

The monitor reads the packet counters of the IP stack, takes every packet for 800 bytes, and
divides what came since its last sample by the time since then.  The counters have a width of
their own and come round; a counter that has become smaller is taken for one that has not moved.

## Main definitions

* `IpStats`, `NetStats`, `updateNetStats` — one sample.
* `Sample`, `netRun` — successive samples of counters that never come round.
* `TrafficRight` — the rates are those of the packets.

## Main results

* `rate_right_iff` — one counter.
* `throughput_right_iff` — **the rates over every run.**
-/

namespace WifiRepeater
namespace Monitor

/-! ### A sample -/

/-- `lwip_stats.ip`, as far as it is read. -/
structure IpStats where
  xmit : UInt32
  recv : UInt32
  drop : UInt32
  chkerr : UInt32
  lenerr : UInt32
  memerr : UInt32
  rterr : UInt32
  proterr : UInt32
  opterr : UInt32
  err : UInt32

/-- `sys_monitor_net_stats_t`. -/
structure NetStats where
  txBytes : UInt64
  rxBytes : UInt64
  txPackets : UInt32
  rxPackets : UInt32
  txBytesPerSec : UInt32
  rxBytesPerSec : UInt32
  txErrors : UInt32
  rxErrors : UInt32

/-- The statistics, and the static variables behind them. -/
structure NetMonitor where
  net : NetStats
  /-- `g_prev_tx_bytes`. -/
  prevTxBytes : UInt64
  /-- `g_prev_rx_bytes`. -/
  prevRxBytes : UInt64
  /-- `g_prev_sample_time`. -/
  prevSampleTime : ℤ

/-- What was counted since the last sample: a counter that has become smaller counts as 0. -/
def deltaOf (current prev : UInt64) : UInt64 := if current ≥ prev then current - prev else 0

/-- Bytes in microseconds, as bytes per second. -/
def bytesPerSec (delta : UInt64) (timeDeltaUs : ℤ) : UInt32 :=
  (delta * 1000000 / UInt64.ofNat timeDeltaUs.toNat).toUInt32

/-- `update_net_stats`, with `LWIP_STATS`. -/
def updateNetStats (m : NetMonitor) (ip : IpStats) (currentTime : ℤ) : NetMonitor :=
  let timeDeltaUs := currentTime - m.prevSampleTime
  -- 800 bytes a packet are an estimate of the source
  let currentTxBytes := ip.xmit.toUInt64 * 800
  let currentRxBytes := ip.recv.toUInt64 * 800
  let rated := 0 < timeDeltaUs ∧ 0 < m.prevSampleTime ∧ 1000 < timeDeltaUs
  { net :=
      { txBytes := currentTxBytes
        rxBytes := currentRxBytes
        txPackets := ip.xmit
        rxPackets := ip.recv
        txBytesPerSec :=
          if rated then bytesPerSec (deltaOf currentTxBytes m.prevTxBytes) timeDeltaUs
          else m.net.txBytesPerSec
        rxBytesPerSec :=
          if rated then bytesPerSec (deltaOf currentRxBytes m.prevRxBytes) timeDeltaUs
          else m.net.rxBytesPerSec
        txErrors := ip.drop
        rxErrors := ip.chkerr + ip.lenerr + ip.memerr + ip.rterr + ip.proterr + ip.opterr +
          ip.err + ip.drop }
    prevTxBytes := currentTxBytes
    prevRxBytes := currentRxBytes
    prevSampleTime := currentTime }

/-! ### Successive samples -/

/-- A sample: how many packets there were since the start, and the clock. -/
structure Sample where
  /-- `esp_timer_get_time`. -/
  time : ℤ
  /-- The packets sent. -/
  sent : ℕ
  /-- The packets received. -/
  received : ℕ
  /-- The counters of errors. -/
  errors : IpStats

/-- What the stack's counters of `w` bits show. -/
def Sample.ip (w : ℕ) (s : Sample) : IpStats :=
  { s.errors with
    xmit := UInt32.ofNat (s.sent % 2 ^ w)
    recv := UInt32.ofNat (s.received % 2 ^ w) }

/-- The samples after a first one, each with the one before and with what was stored. -/
def netRun (w : ℕ) : NetMonitor → Sample → List Sample → List (Sample × Sample × NetStats)
  | _, _, [] => []
  | m, prev, s :: ss =>
      let m' := updateNetStats m (s.ip w) s.time
      (prev, s, m'.net) :: netRun w m' s ss

/-- The rate that some packets are, by the estimate. -/
def rateOf (packets : ℕ) (micros : ℕ) : ℕ := 800 * packets * 1000000 / micros

/-- The rates are those of the packets since the sample before. -/
structure TrafficRight (prev s : Sample) (net : NetStats) : Prop where
  tx : net.txBytesPerSec.toNat = rateOf (s.sent - prev.sent) (s.time - prev.time).toNat
  rx : net.rxBytesPerSec.toNat = rateOf (s.received - prev.received) (s.time - prev.time).toNat

/-- A sample that comes more than a millisecond after the one before, and not later than 800
seconds. -/
structure Regular (prev s : Sample) : Prop where
  started : 0 < prev.time
  after : prev.time + 1000 < s.time
  soon : s.time ≤ prev.time + 800000000
  sent : prev.sent ≤ s.sent
  received : prev.received ≤ s.received

/-- A counter of `w` bits has not come round, and the rate has 32 bits. -/
def InWords (w before packets micros : ℕ) : Prop :=
  before % 2 ^ w + packets < 2 ^ w ∧ rateOf packets micros < 2 ^ 32

/-- Neither counter has come round, and both rates have 32 bits. -/
structure TrafficInWords (w : ℕ) (prev s : Sample) : Prop where
  tx : InWords w prev.sent (s.sent - prev.sent) (s.time - prev.time).toNat
  rx : InWords w prev.received (s.received - prev.received) (s.time - prev.time).toNat

/-! ### One counter -/

/-- What the counters show is less than the packets since, by one at least, if a counter came
round. -/
theorem shown_lt_of_wrapped {M p n : ℕ} (hM : 0 < M) (h : M ≤ p % M + n) :
    (p + n) % M - p % M < n := by
  have hp := Nat.mod_lt p hM
  have hsum := Nat.mod_lt (p + n) hM
  omega

theorem add_mod_of_lt {M p n : ℕ} (h : p % M + n < M) : (p + n) % M = p % M + n := by
  rw [← Nat.mod_add_mod, Nat.mod_eq_of_lt h]

/-- Eight hundred bytes less make a smaller rate, if the time is not too long. -/
theorem rateOf_lt {n n' micros : ℕ} (hmicros : 0 < micros) (hle : micros ≤ 800000000)
    (hlt : n' < n) : rateOf n' micros < rateOf n micros := by
  have hstep : 800 * n' * 1000000 + micros ≤ 800 * n * 1000000 := by omega
  have hdiv := Nat.div_le_div_right (c := micros) hstep
  rw [Nat.add_div_right _ hmicros] at hdiv
  exact hdiv

/-- The words of the source hold what they should. -/
theorem toNat_bytesPerSec {p c : UInt32} {micros : ℕ} (hmicros : 0 < micros)
    (hle : micros ≤ 800000000) :
    (bytesPerSec (deltaOf (c.toUInt64 * 800) (p.toUInt64 * 800)) micros).toNat
      = rateOf (c.toNat - p.toNat) micros % 2 ^ 32 := by
  have hp := p.toNat_lt
  have hc := c.toNat_lt
  have hpbytes : (p.toUInt64 * 800).toNat = p.toNat * 800 := by
    rw [UInt64.toNat_mul, UInt32.toNat_toUInt64]
    exact Nat.mod_eq_of_lt (by simp; omega)
  have hcbytes : (c.toUInt64 * 800).toNat = c.toNat * 800 := by
    rw [UInt64.toNat_mul, UInt32.toNat_toUInt64]
    exact Nat.mod_eq_of_lt (by simp; omega)
  have hdelta : (deltaOf (c.toUInt64 * 800) (p.toUInt64 * 800)).toNat
      = 800 * (c.toNat - p.toNat) := by
    unfold deltaOf
    split_ifs with hge
    · rw [UInt64.toNat_sub_of_le _ _ hge, hpbytes, hcbytes]
      omega
    · rw [ge_iff_le, UInt64.le_iff_toNat_le, hpbytes, hcbytes] at hge
      rw [UInt64.toNat_zero]
      omega
  rw [bytesPerSec, UInt64.toNat_toUInt32, UInt64.toNat_div, UInt64.toNat_mul, hdelta,
    UInt64.toNat_ofNat', Int.toNat_natCast]
  have hmillion : (1000000 : UInt64).toNat = 1000000 := rfl
  have hproduct : 800 * (c.toNat - p.toNat) * 1000000 < 2 ^ 64 := by omega
  have htime : micros < 2 ^ 64 := by omega
  rw [hmillion, Nat.mod_eq_of_lt hproduct, Nat.mod_eq_of_lt htime]
  rfl

/-- **One counter** gives the right rate just when it has not come round and the rate has 32
bits. -/
theorem rate_right_iff (w before packets : ℕ) {micros : ℕ} (hmicros : 0 < micros)
    (hle : micros ≤ 800000000) :
    rateOf ((before + packets) % 2 ^ w - before % 2 ^ w) micros % 2 ^ 32 = rateOf packets micros ↔
      InWords w before packets micros := by
  have hM : 0 < 2 ^ w := Nat.two_pow_pos w
  constructor
  · intro h
    have hsmall : rateOf packets micros < 2 ^ 32 := by
      rw [← h]
      exact Nat.mod_lt _ (Nat.two_pow_pos 32)
    refine ⟨?_, hsmall⟩
    by_contra hwrap
    have hlt := rateOf_lt hmicros hle (shown_lt_of_wrapped hM (Nat.le_of_not_lt hwrap))
    have hmod := Nat.mod_le (rateOf ((before + packets) % 2 ^ w - before % 2 ^ w) micros) (2 ^ 32)
    omega
  · rintro ⟨hwords, hsmall⟩
    rw [add_mod_of_lt hwords, Nat.add_sub_cancel_left, Nat.mod_eq_of_lt hsmall]

/-! ### Every run -/

/-- The variables are those of a sample. -/
structure Holds (w : ℕ) (m : NetMonitor) (s : Sample) : Prop where
  tx : m.prevTxBytes = (UInt32.ofNat (s.sent % 2 ^ w)).toUInt64 * 800
  rx : m.prevRxBytes = (UInt32.ofNat (s.received % 2 ^ w)).toUInt64 * 800
  time : m.prevSampleTime = s.time

theorem holds_updateNetStats (w : ℕ) (m : NetMonitor) (s : Sample) :
    Holds w (updateNetStats m (s.ip w) s.time) s := ⟨rfl, rfl, rfl⟩

theorem toNat_ofNat_mod {w : ℕ} (hw : w ≤ 32) (n : ℕ) :
    (UInt32.ofNat (n % 2 ^ w)).toNat = n % 2 ^ w := by
  rw [UInt32.toNat_ofNat', Nat.mod_eq_of_lt]
  exact (Nat.mod_lt n (Nat.two_pow_pos w)).trans_le (Nat.pow_le_pow_right (by decide) hw)

/-- **One sample** gives the right rates just when no counter came round and the rates have 32
bits. -/
theorem updateNetStats_right_iff {w : ℕ} (hw : w ≤ 32) {m : NetMonitor} {prev s : Sample}
    (hm : Holds w m prev) (h : Regular prev s) :
    TrafficRight prev s (updateNetStats m (s.ip w) s.time).net ↔ TrafficInWords w prev s := by
  have hstarted := h.started
  have hafter := h.after
  have hsoon := h.soon
  obtain ⟨micros, hmicros⟩ := Int.eq_ofNat_of_zero_le (show 0 ≤ s.time - prev.time by omega)
  have hpos : 0 < micros := by omega
  have hle : micros ≤ 800000000 := by omega
  have hrated : 0 < s.time - m.prevSampleTime ∧ 0 < m.prevSampleTime ∧
      1000 < s.time - m.prevSampleTime := by
    rw [hm.time]
    omega
  have hrate : ∀ {before now : ℕ}, before ≤ now →
      ((bytesPerSec (deltaOf ((UInt32.ofNat (now % 2 ^ w)).toUInt64 * 800)
        ((UInt32.ofNat (before % 2 ^ w)).toUInt64 * 800)) micros).toNat
          = rateOf (now - before) micros ↔ InWords w before (now - before) micros) := by
    intro before now hbefore
    have hiff := rate_right_iff w before (now - before) hpos hle
    rw [Nat.add_sub_cancel' hbefore] at hiff
    rw [toNat_bytesPerSec hpos hle, toNat_ofNat_mod hw, toNat_ofNat_mod hw, hiff]
  have htx := hrate h.sent
  have hrx := hrate h.received
  have hnet : (updateNetStats m (s.ip w) s.time).net.txBytesPerSec
        = bytesPerSec (deltaOf ((UInt32.ofNat (s.sent % 2 ^ w)).toUInt64 * 800)
            ((UInt32.ofNat (prev.sent % 2 ^ w)).toUInt64 * 800)) micros ∧
      (updateNetStats m (s.ip w) s.time).net.rxBytesPerSec
        = bytesPerSec (deltaOf ((UInt32.ofNat (s.received % 2 ^ w)).toUInt64 * 800)
            ((UInt32.ofNat (prev.received % 2 ^ w)).toUInt64 * 800)) micros := by
    simp only [updateNetStats, if_pos hrated, hm.tx, hm.rx]
    rw [hm.time, hmicros]
    exact ⟨rfl, rfl⟩
  have hnat : (s.time - prev.time).toNat = micros := by rw [hmicros, Int.toNat_natCast]
  constructor
  · rintro ⟨hright, hright'⟩
    rw [hnet.1, hnat] at hright
    rw [hnet.2, hnat] at hright'
    refine ⟨?_, ?_⟩
    · rw [hnat]
      exact htx.mp hright
    · rw [hnat]
      exact hrx.mp hright'
  · rintro ⟨hwords, hwords'⟩
    rw [hnat] at hwords hwords'
    refine ⟨?_, ?_⟩
    · rw [hnet.1, hnat]
      exact htx.mpr hwords
    · rw [hnet.2, hnat]
      exact hrx.mpr hwords'

/-- The run from any sample on. -/
theorem netRun_right_iff {w : ℕ} (hw : w ≤ 32) : ∀ {ss : List Sample} {m : NetMonitor}
    {prev : Sample}, Holds w m prev → (∀ x ∈ netRun w m prev ss, Regular x.1 x.2.1) →
      ((∀ x ∈ netRun w m prev ss, TrafficRight x.1 x.2.1 x.2.2) ↔
        ∀ x ∈ netRun w m prev ss, TrafficInWords w x.1 x.2.1) := by
  intro ss
  induction ss with
  | nil => exact fun _ _ => iff_of_true (by simp [netRun]) (by simp [netRun])
  | cons s ss ih =>
    intro m prev hm hregular
    rw [netRun, List.forall_mem_cons] at hregular
    rw [netRun, List.forall_mem_cons, List.forall_mem_cons]
    exact and_congr (updateNetStats_right_iff hw hm hregular.1)
      (ih (holds_updateNetStats w m s) hregular.2)

/-- What `sys_monitor_init` leaves at the time `start`. -/
def initMonitor (start : ℤ) : NetMonitor := ⟨⟨0, 0, 0, 0, 0, 0, 0, 0⟩, 0, 0, start⟩

/-- Nothing was sent by then. -/
def firstSample (start : ℤ) : Sample := ⟨start, 0, 0, ⟨0, 0, 0, 0, 0, 0, 0, 0, 0, 0⟩⟩

/-- **The rates over every run** are those of the packets, from the start of the monitor on, just
when between two samples no counter came round and no rate had more than 32 bits; whatever the
width of the counters is. -/
theorem throughput_right_iff {w : ℕ} (hw : w ≤ 32) {start : ℤ} {ss : List Sample}
    (h : ∀ x ∈ netRun w (initMonitor start) (firstSample start) ss, Regular x.1 x.2.1) :
    (∀ x ∈ netRun w (initMonitor start) (firstSample start) ss, TrafficRight x.1 x.2.1 x.2.2) ↔
      ∀ x ∈ netRun w (initMonitor start) (firstSample start) ss, TrafficInWords w x.1 x.2.1 := by
  refine netRun_right_iff hw ⟨?_, ?_, rfl⟩ h
  all_goals
    simp only [initMonitor, firstSample, Nat.zero_mod]
    rfl

/-- A thousand packets every three seconds, counted in 16 bits. -/
def steadySample (i : ℕ) : Sample :=
  ⟨5 + 3000000 * i, 1000 * i, 1000 * i, ⟨0, 0, 0, 0, 0, 0, 0, 0, 0, 0⟩⟩

/-- Two samples of it are right. -/
theorem steady_right :
    (netRun 16 (initMonitor 5) (firstSample 5) [steadySample 1, steadySample 2]).length = 2 ∧
      ∀ x ∈ netRun 16 (initMonitor 5) (firstSample 5) [steadySample 1, steadySample 2],
        TrafficRight x.1 x.2.1 x.2.2 := by
  refine ⟨rfl, (throughput_right_iff (by decide) ?_).mpr ?_⟩
  · intro x hx
    simp only [netRun, List.mem_cons, List.not_mem_nil, or_false] at hx
    rcases hx with rfl | rfl
    · constructor <;> decide
    · constructor <;> decide
  · intro x hx
    simp only [netRun, List.mem_cons, List.not_mem_nil, or_false] at hx
    rcases hx with rfl | rfl
    · exact ⟨⟨by decide, by decide⟩, ⟨by decide, by decide⟩⟩
    · exact ⟨⟨by decide, by decide⟩, ⟨by decide, by decide⟩⟩

end Monitor
end WifiRepeater
