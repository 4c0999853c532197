import WifiRepeater.Dns.Proxy
import WifiRepeater.Lib.RingBuffer

/-!
# The log of the last queries

`dns_log_add` writes each query into the slot at `s_head` of a table of 32 and
`dns_log_get_latest` copies the newest of them out.  An entry is written over the one the
slot held: `copy_str` pads a string with zeros to the end of its field, but for `NULL` it
writes a single terminator and leaves the bytes behind it.

## Main definitions

* `DnsLogEntry`, `DnsLog` — an entry and the table.
* `copyStr`, `writeEntry`, `dnsLogAdd`, `dnsLogGetLatest` — the functions of `dns_log.c`.
* `LogCall`, `logAfter`, `addsOf` — a sequence of calls, the table after it, and the adds
  among them.
* `DnsLogEntry.Shows` — an entry that shows an add.

## Main results

* `dns_log_newest_first` — **the table is the list of the newest adds**, every byte of
  the strings included.
* `null_keeps_slot_bytes` — but not of a `NULL`: what `out` holds then depends on an add
  that is long overwritten.
-/

namespace WifiRepeater
namespace Dns

/-- `DNS_LOG_MAX_ENTRIES`. -/
def dnsLogMaxEntries : ℕ := 32

/-- `dns_log_entry_t`. -/
structure DnsLogEntry where
  /-- Seconds since the start. -/
  timestampS : UInt32
  /-- The client's MAC address, as text. -/
  mac : Buf 18
  /-- Its IP address, as text. -/
  ip : Buf 16
  /-- The name asked for. -/
  domain : Buf 128
  /-- The type asked for. -/
  qtype : UInt16
  deriving DecidableEq

/-- `copy_str`, `none` for `NULL`. -/
def copyStr {n : ℕ} (dst : Buf n) (src : Option CStr) : Buf n :=
  if n = 0 then dst
  else
    match src with
    | none => dst.setByte 0 0
    | some s =>
        let copyLen := n - 1
        let dst := if copyLen > 0 then dst.strncpy s copyLen (Nat.sub_le n 1) else dst
        dst.setByte copyLen 0

/-- The arguments of a `dns_log_add`, and what the clock read then. -/
structure LogAdd where
  /-- `esp_timer_get_time`, in microseconds. -/
  time : UInt64
  /-- `mac`. -/
  mac : Option CStr
  /-- `ip`. -/
  ip : Option CStr
  /-- `domain`. -/
  domain : Option CStr
  /-- `qtype`. -/
  qtype : UInt16
  deriving DecidableEq

/-- `timestamp_s`. -/
def LogAdd.timestampS (a : LogAdd) : UInt32 := (a.time / 1000000).toUInt32

/-- The writes of `dns_log_add` to the entry at `s_head`. -/
def writeEntry (a : LogAdd) (entry : DnsLogEntry) : DnsLogEntry where
  timestampS := a.timestampS
  mac := copyStr entry.mac a.mac
  ip := copyStr entry.ip a.ip
  domain := copyStr entry.domain a.domain
  qtype := a.qtype

/-- `s_entries` with `s_head` and `s_count`. -/
abbrev DnsLog := RingBuffer DnsLogEntry dnsLogMaxEntries

/-- An entry of the table before anything is written to it. -/
def zeroEntry : DnsLogEntry := ⟨0, .zero 18, .zero 16, .zero 128, 0⟩

/-- The table the device starts with. -/
def zeroLog : DnsLog := .init zeroEntry (Nat.succ_pos _)

/-- `dns_log_add`. -/
def dnsLogAdd (log : DnsLog) (a : LogAdd) : DnsLog := log.push (writeEntry a)

/-- `dns_log_get_latest`: the value returned, and `out` after the call. -/
def dnsLogGetLatest (log : DnsLog) (out : Option (List DnsLogEntry)) (maxEntries : ℕ) :
    ℕ × Option (List DnsLogEntry) :=
  match out with
  | none => (0, none)
  | some out =>
      if maxEntries = 0 then (0, some out)
      else
        let entries := log.latest maxEntries
        (entries.length, some (entries ++ out.drop entries.length))

/-! ### Sequences of calls -/

/-- A call to the log. -/
inductive LogCall
  /-- `dns_log_add`. -/
  | add (a : LogAdd)
  /-- `dns_log_get_latest`, which leaves the table as it is. -/
  | getLatest (maxEntries : ℕ)
  deriving DecidableEq

/-- What a call does to the table. -/
def LogCall.apply (log : DnsLog) : LogCall → DnsLog
  | .add a => dnsLogAdd log a
  | .getLatest _ => log

/-- The table after a sequence of calls. -/
def logAfter (calls : List LogCall) : DnsLog := calls.foldl LogCall.apply zeroLog

/-- The adds of a sequence of calls, in order. -/
def addsOf (calls : List LogCall) : List LogAdd :=
  calls.filterMap fun call =>
    match call with
    | .add a => some a
    | .getLatest _ => none

/-- The table holds the adds, each written over its slot. -/
theorem holds_logAfter (calls : List LogCall) :
    RingBuffer.Holds zeroEntry (logAfter calls) ((addsOf calls).reverse.map writeEntry) := by
  induction calls using List.reverseRecOn with
  | nil => exact RingBuffer.holds_init _ _
  | append_singleton calls call ih =>
    have hlast : logAfter (calls ++ [call]) = call.apply (logAfter calls) := by
      rw [logAfter, List.foldl_append]
      rfl
    have hadds : addsOf (calls ++ [call]) = addsOf calls ++ addsOf [call] :=
      List.filterMap_append
    rw [hlast, hadds, List.reverse_append, List.map_append]
    cases call with
    | add a => exact ih.push (writeEntry a)
    | getLatest m => exact ih

/-! ### What an entry shows -/

/-- A field shows a string: its front, a terminator and zeros to the end.  For `NULL` it
is the empty string, whatever lies behind the terminator. -/
structure FieldShows {n : ℕ} (src : Option CStr) (dst : Buf (n + 1)) : Prop where
  /-- The string in the field is what fits of the source. -/
  str : dst.str = (src.getD .empty).take n
  /-- It ends in the field. -/
  terminated : 0 ∈ dst.bytes
  /-- Nothing but zeros follows the copy of a string. -/
  bytes : ∀ s ∈ src, dst.bytes = s.bytes.take n ++ List.replicate (n + 1 - min n s.length) 0

/-- An entry shows an add. -/
structure DnsLogEntry.Shows (a : LogAdd) (e : DnsLogEntry) : Prop where
  /-- Its own time. -/
  timestampS : e.timestampS = (a.time / 1000000).toUInt32
  /-- Its own type. -/
  qtype : e.qtype = a.qtype
  /-- The MAC address, cut to 17 bytes. -/
  mac : FieldShows a.mac e.mac
  /-- The IP address, cut to 15 bytes. -/
  ip : FieldShows a.ip e.ip
  /-- The name, cut to 127 bytes. -/
  domain : FieldShows a.domain e.domain

theorem copyStr_some {n : ℕ} (dst : Buf (n + 1)) (s : CStr) :
    copyStr dst (some s) = (dst.strncpy s n (Nat.le_succ n)).setByte n 0 := by
  unfold copyStr
  rw [if_neg (Nat.succ_ne_zero n)]
  rcases Nat.eq_zero_or_pos n with rfl | hpos
  -- a field of one byte: nothing is copied, with and without the call
  · apply Buf.ext
    simp [Buf.strncpy]
  · exact congrArg (fun b => Buf.setByte b n 0) (if_pos hpos)

/-- `copy_str` leaves what it is given, whatever the field held. -/
theorem fieldShows_copyStr {n : ℕ} (src : Option CStr) (old : Buf (n + 1)) :
    FieldShows src (copyStr old src) := by
  cases src with
  | none =>
    obtain ⟨b, bs, hbytes⟩ : ∃ b bs, old.bytes = b :: bs :=
      List.exists_cons_of_length_eq_add_one old.size
    have hset : (copyStr old none).bytes = 0 :: bs := by
      show old.bytes.set 0 0 = _
      rw [hbytes, List.set_cons_zero]
    refine ⟨?_, by simp [hset], by simp⟩
    rw [Buf.str, hset]
    exact (CStr.ofMem_terminated .empty bs).trans (CStr.ext (by simp [CStr.empty, CStr.take]))
  | some s =>
    rw [copyStr_some]
    obtain ⟨hstr, hzero⟩ := Buf.str_strncpy_setByte old s
    refine ⟨CStr.ext hstr, hzero, fun s' hs' => ?_⟩
    obtain rfl : s = s' := Option.some.inj hs'
    exact Buf.bytes_strncpy_setByte old s

theorem shows_writeEntry (a : LogAdd) (old : DnsLogEntry) : (writeEntry a old).Shows a where
  timestampS := rfl
  qtype := rfl
  mac := fieldShows_copyStr _ _
  ip := fieldShows_copyStr _ _
  domain := fieldShows_copyStr _ _

/-- **The table is the list of the newest adds**: after any sequence of calls,
`dns_log_get_latest` of at most `m` returns how many there are of the adds, at most `m`
and at most 32, and the front of `out` shows the newest of them, the newest first; the
rest of `out` is left alone. -/
theorem dns_log_newest_first (calls : List LogCall) (out : List DnsLogEntry) (m : ℕ) :
    ∃ shown, dnsLogGetLatest (logAfter calls) (some out) m
        = (shown.length, some (shown ++ out.drop shown.length)) ∧
      shown.length = min m (min 32 (addsOf calls).length) ∧
      List.Forall₂ DnsLogEntry.Shows ((addsOf calls).reverse.take (min m 32)) shown := by
  have hholds := holds_logAfter calls
  refine ⟨(logAfter calls).latest m, ?_, ?_, hholds.forall₂_latest shows_writeEntry m⟩
  · rcases Nat.eq_zero_or_pos m with rfl | hpos
    · have hnone : (logAfter calls).latest 0 = [] := by
        apply List.eq_nil_of_length_eq_zero
        rw [RingBuffer.length_latest, Nat.zero_min]
      rw [dnsLogGetLatest, if_pos rfl, hnone]
      rfl
    · rw [dnsLogGetLatest, if_neg (by omega)]
  · rw [RingBuffer.length_latest, hholds.count, List.length_map, List.length_reverse]
    rfl

/-! ### What a `NULL` leaves -/

/-- An add of a short name by the client with the given address. -/
def addFrom (mac : Option CStr) : LogCall :=
  .add ⟨0, mac, some (.lit "10.0.0.2"), some (.lit "a"), 1⟩

/-- A first add, as many more as fill the table, and then one with no MAC address. -/
def nullAfter (first : CStr) : List LogCall :=
  addFrom (some first) :: List.replicate 31 (addFrom (some (.lit "aa"))) ++ [addFrom none]

/-- **A `NULL` leaves what its slot held**: two histories whose newest add is the same
leave different bytes in `out`, those of the MAC address the slot held 32 adds before. -/
theorem null_keeps_slot_bytes :
    (addsOf (nullAfter (.lit "b8:27"))).reverse.take 1
        = (addsOf (nullAfter (.lit "dc:a6"))).reverse.take 1 ∧
      ((logAfter (nullAfter (.lit "b8:27"))).latest 1).map (fun e => e.mac.bytes.take 5)
        = [[0, 0x38, 0x3a, 0x32, 0x37]] ∧
      dnsLogGetLatest (logAfter (nullAfter (.lit "b8:27"))) (some [zeroEntry]) 1
        ≠ dnsLogGetLatest (logAfter (nullAfter (.lit "dc:a6"))) (some [zeroEntry]) 1 := by
  decide +kernel

end Dns
end WifiRepeater
