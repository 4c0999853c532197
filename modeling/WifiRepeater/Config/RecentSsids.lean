import WifiRepeater.Config.History
import WifiRepeater.Lib.Recent

/-!
# The history as a most-recently-used list

An add loads the history, copies what is not the added SSID into an array of its own,
shifts the front of that array back by one place, puts the SSID first, and writes the
entries out one key at a time.  Whatever the store held, a load after it finds the SSID
followed by the history that a load before it found, without the SSID and cut to five.

## Main definitions

* `loadedHistory`, `addAll` — the history of a store, and a store after some adds.
* `addLoops` — the loops of an add on the array that was loaded.

## Main results

* `addLoops_eq` — the loops compute `pushSsid`.
* `loadedHistory_added` — an add does to the loaded history what `Recent.push` does.
* `ssid_history_mru` — **the history is the front of the distinct SSIDs, newest first.**
-/

namespace WifiRepeater

open Script (applyAll)

/-! ### The loops -/

/-- The loop that copies every entry but the added SSID. -/
def compactLoop (ssid : CStr) : List CStr → List CStr → List CStr
  | [], temp => temp
  | entry :: ssids, temp =>
      compactLoop ssid ssids (if entry ≠ ssid then temp ++ [entry.take maxSsidLen] else temp)

/-- The loop that moves the first `n` copies one place down, the last of them first. -/
def shiftLoop (temp : List CStr) : ℕ → List CStr → List CStr
  | 0, ssids => ssids
  | i + 1, ssids =>
      shiftLoop temp i (ssids.set (i + 1) ((temp.getD i .empty).take maxSsidLen))

/-- What an add makes of the loaded array and its count. -/
def addLoops (ssid : CStr) (ssids : List CStr) (count : ℕ) : List CStr × ℕ :=
  let temp := compactLoop ssid (ssids.take count) []
  let maxOld := if temp.length < maxSsidHistory - 1 then temp.length else maxSsidHistory - 1
  ((shiftLoop temp maxOld ssids).set 0 (ssid.take maxSsidLen), maxOld + 1)

theorem compactLoop_eq (ssid : CStr) (ssids temp : List CStr) :
    compactLoop ssid ssids temp
      = temp ++ (ssids.filter (· ≠ ssid)).map (CStr.take maxSsidLen) := by
  induction ssids generalizing temp with
  | nil => exact (List.append_nil temp).symm
  | cons entry ssids ih =>
    rw [compactLoop, ih]
    by_cases h : entry = ssid
    · rw [if_neg (not_not_intro h), List.filter_cons_of_neg (by simpa using h)]
    · rw [if_pos h, List.filter_cons_of_pos (by simpa using h), List.map_cons, List.append_assoc,
        List.singleton_append]

/-- The shift leaves the copies behind the first place; that it runs backwards does not
matter, for it reads from another array than it writes to. -/
theorem shiftLoop_eq (temp : List CStr) (first : CStr) (n : ℕ) (ssids : List CStr)
    (hn : n ≤ temp.length) (hlen : n ≤ ssids.length) :
    shiftLoop temp n (first :: ssids)
      = first :: ((temp.take n).map (CStr.take maxSsidLen) ++ ssids.drop n) := by
  induction n generalizing ssids with
  | zero => rfl
  | succ n ih =>
    have hplace : n < (ssids.set n ((temp.getD n .empty).take maxSsidLen)).length := by
      rw [List.length_set]
      omega
    rw [shiftLoop, List.set_cons_succ, ih _ (by omega) hplace.le,
      List.drop_eq_getElem_cons hplace, List.getElem_set_self,
      List.drop_set_of_lt (Nat.lt_succ_self n),
      ← List.take_append_getElem (by omega), List.map_append, List.getD_eq_getElem _ _ (by omega),
      List.append_assoc]
    rfl

/-- **The loops of an add**: the front of the array they leave is `pushSsid`. -/
theorem addLoops_eq (ssid : CStr) {ssids : List CStr} (hssids : ssids.length = maxSsidHistory)
    (count : ℕ) :
    (addLoops ssid ssids count).1.take (addLoops ssid ssids count).2
        = pushSsid ssid (ssids.take count) ∧
      (addLoops ssid ssids count).2 = (pushSsid ssid (ssids.take count)).length := by
  obtain ⟨first, rest, rfl⟩ : ∃ first rest, ssids = first :: rest :=
    List.exists_cons_of_length_pos (by rw [hssids]; decide)
  have hrest : rest.length = maxSsidHistory - 1 := by
    rw [List.length_cons] at hssids
    omega
  have hold : ∀ n : ℕ, (if n < maxSsidHistory - 1 then n else maxSsidHistory - 1)
      = min (maxSsidHistory - 1) n := by
    intro n
    split_ifs <;> omega
  unfold addLoops pushSsid
  simp only [compactLoop_eq, List.nil_append, hold]
  generalize ((first :: rest).take count).filter (· ≠ ssid) = kept
  -- the copies have been cut already when they were made
  have hcut : ((kept.map (CStr.take maxSsidLen)).map (CStr.take maxSsidLen))
      = kept.map (CStr.take maxSsidLen) := by
    rw [List.map_map]
    exact List.map_congr_left fun v _ => CStr.take_of_length_le (CStr.length_take_le _ v)
  rw [shiftLoop_eq _ _ _ _ (min_le_right _ _) (by rw [hrest]; exact min_le_left _ _),
    List.set_cons_zero, List.take_succ_cons, List.map_take, hcut, List.length_cons,
    List.length_take]
  refine ⟨congrArg _ ?_, rfl⟩
  rw [List.take_append_of_le_length (by rw [List.length_take]; omega), List.take_take, min_self]
  exact List.take_eq_take_min.symm

/-! ### What a load finds -/

/-- The history in a store, as a load without faults finds it. -/
def loadedHistory (s : Nvs) : List CStr := (wifiConfigLoadSsidHistory.run nvs [] s).value

/-- The number of entries it finds. -/
def historyCount (s : Nvs) : ℕ :=
  (((s.readU8 .histCount).map UInt8.toNat).filter (· ≤ maxSsidHistory)).getD 0

theorem historyCount_le (s : Nvs) : historyCount s ≤ maxSsidHistory := by
  unfold historyCount
  cases h : ((s.readU8 .histCount).map UInt8.toNat).filter (· ≤ maxSsidHistory) with
  | none => exact Nat.zero_le _
  | some n => simpa using (Option.filter_eq_some_iff.mp h).2

/-- The entry it finds at an index. -/
def historyEntry (s : Nvs) (i : ℕ) : CStr :=
  (s.readStr (.histSsid i) (Buf.zero (maxSsidLen + 1))).2.str

theorem run_loadEntries (s : Nvs) (n i : ℕ) :
    ((loadEntries n i).run nvs [] s).value = (List.range' i n).map (historyEntry s) := by
  induction n generalizing i with
  | zero => rfl
  | succ n ih =>
    simp only [loadEntries, Script.run_bind, run_nvsGetStr, List.headD_nil, Option.isSome_none,
      Bool.false_eq_true, if_false, List.tail_nil, ih, Script.pure_eq, Script.run_done,
      List.range'_succ, List.map_cons]
    rfl

theorem loadedHistory_eq (s : Nvs) :
    loadedHistory s = (List.range (historyCount s)).map (historyEntry s) := by
  cases s with
  | none => rfl
  | some m =>
    have hopen : nvsOpenReadOnly.run nvs [] (some m) = ⟨espOk, [], some m⟩ := rfl
    unfold loadedHistory wifiConfigLoadSsidHistory
    simp only [Script.run_bind, hopen, run_nvsGetU8, List.headD_nil, Option.isSome_none,
      Bool.false_eq_true, if_false, List.tail_nil, run_loadEntries, List.range_eq_range']
    rfl

/-- An entry fits the array it was read into. -/
theorem length_historyEntry_le (s : Nvs) (i : ℕ) : (historyEntry s i).length ≤ maxSsidLen := by
  have hzero : (Buf.zero (maxSsidLen + 1)).str.length ≤ maxSsidLen :=
    Nat.le_of_lt_succ (Buf.length_str_lt (by decide))
  unfold historyEntry Nvs.readStr
  split
  · split
    · next h => exact Nat.le_of_lt_succ (by rwa [Buf.str_put])
    · exact hzero
  · exact hzero

theorem length_le_of_mem_loadedHistory {s : Nvs} {v : CStr} (hv : v ∈ loadedHistory s) :
    v.length ≤ maxSsidLen := by
  rw [loadedHistory_eq] at hv
  obtain ⟨i, -, rfl⟩ := List.mem_map.mp hv
  exact length_historyEntry_le s i

/-- The sets of the entries write them all. -/
theorem get_entryEffects_self (vs : List CStr) (i : ℕ) (s : Nvs) (j : ℕ) (hj : j < vs.length) :
    (applyAll (entryEffects i vs) s).get (.histSsid (i + j)) = some (.str vs[j]) := by
  induction vs generalizing i s j with
  | nil => exact absurd hj (Nat.not_lt_zero j)
  | cons v vs ih =>
    rw [entryEffects, Script.applyAll_cons]
    cases j with
    | zero =>
      rw [get_entryEffects _ _ _ _ fun k hk _ => by rw [Ne, NvsKey.histSsid.injEq]; omega]
      exact Nvs.get_set_self _ _ _
    | succ j =>
      have hij : i + (j + 1) = (i + 1) + j := by omega
      rw [hij, ih (i + 1) _ j (Nat.lt_of_succ_lt_succ hj)]
      rfl

/-- A count that is in range is the count that is found. -/
theorem historyCount_eq {s : Nvs} {n : ℕ} (hn : n ≤ maxSsidHistory)
    (h : s.get .histCount = some (.u8 (UInt8.ofNat n))) : historyCount s = n := by
  have hmax : maxSsidHistory = 5 := rfl
  have hnat : (UInt8.ofNat n).toNat = n := UInt8.toNat_ofNat_of_lt' (by unfold UInt8.size; omega)
  rw [historyCount, (Nvs.readU8_eq_some_iff _ _ _).mpr h, Option.map_some, hnat,
    Option.filter_some_pos (by simpa using hn), Option.getD_some]

/-- An entry that fits is the entry that is found. -/
theorem historyEntry_eq {s : Nvs} {i : ℕ} {v : CStr} (hv : v.length ≤ maxSsidLen)
    (h : s.get (.histSsid i) = some (.str v)) : historyEntry s i = v := by
  rw [historyEntry, Nvs.readStr_eq h (Nat.lt_succ_of_le hv), Buf.str_put]

/-- **What was written is loaded.** -/
theorem loadedHistory_historyEffects (vs : List CStr) (s : Nvs)
    (hlen : vs.length ≤ maxSsidHistory) (hvs : ∀ v ∈ vs, v.length ≤ maxSsidLen) :
    loadedHistory (applyAll (historyEffects vs) s) = vs := by
  have hcount : historyCount (applyAll (historyEffects vs) s) = vs.length := by
    refine historyCount_eq hlen ?_
    rw [historyEffects, Script.applyAll_cons, Script.applyAll_cons,
      get_entryEffects _ _ _ _ fun _ _ _ => by simp, Nvs.get_set_self]
  have hentry : ∀ (j : ℕ) (hj : j < vs.length),
      historyEntry (applyAll (historyEffects vs) s) j = vs[j] := by
    intro j hj
    refine historyEntry_eq (hvs _ (List.getElem_mem hj)) ?_
    rw [historyEffects, Script.applyAll_cons, Script.applyAll_cons]
    simpa only [Nat.zero_add] using get_entryEffects_self vs 0 _ j hj
  rw [loadedHistory_eq, hcount]
  refine List.ext_getElem (by rw [List.length_map, List.length_range]) fun j hj hj' => ?_
  rw [List.getElem_map, List.getElem_range, hentry j hj']

/-! ### A run of adds -/

/-- The SSIDs that a station can be given. -/
def IsSsid (ssid : CStr) : Prop := 0 < ssid.length ∧ ssid.length ≤ maxSsidLen

instance (ssid : CStr) : Decidable (IsSsid ssid) :=
  inferInstanceAs (Decidable (0 < ssid.length ∧ ssid.length ≤ maxSsidLen))

/-- The store after some adds. -/
def addAll (s : Nvs) (adds : List CStr) : Nvs :=
  adds.foldl (fun s ssid => ((wifiConfigAddSsidToHistory ssid).run nvs [] s).state) s

/-- On entries that were loaded nothing is cut. -/
theorem pushSsid_eq {ssid : CStr} (hle : ssid.length ≤ maxSsidLen) {history : List CStr}
    (hhistory : ∀ v ∈ history, v.length ≤ maxSsidLen) :
    pushSsid ssid history = Recent.push maxSsidHistory ssid history := by
  have hcut : (history.filter (· ≠ ssid)).map (CStr.take maxSsidLen)
      = history.filter (· ≠ ssid) := by
    refine (List.map_congr_left fun v hv => ?_).trans (List.map_id _)
    exact CStr.take_of_length_le (hhistory v (List.mem_of_mem_filter hv))
  rw [pushSsid, hcut, CStr.take_of_length_le hle, Recent.push, List.take_succ_cons]
  rfl

/-- **An add is an addition to a most-recently-used list**, whatever the store holds. -/
theorem loadedHistory_added (s : Nvs) {ssid : CStr} (hssid : IsSsid ssid) :
    ((wifiConfigAddSsidToHistory ssid).run nvs [] s).value = espOk ∧
      loadedHistory ((wifiConfigAddSsidToHistory ssid).run nvs [] s).state
        = Recent.push maxSsidHistory ssid (loadedHistory s) := by
  obtain ⟨hpos, hle⟩ := hssid
  have hok : ((wifiConfigAddSsidToHistory ssid).run nvs [] s).value = espOk := by
    rw [wifiConfigAddSsidToHistory_ok_iff hpos, Script.failures_nil]
    exact fun op hop => absurd hop (List.not_mem_nil)
  have hpush := pushSsid_eq hle fun v hv => length_le_of_mem_loadedHistory (s := s) hv
  have hload : loadedHistory (applyAll (historyEffects (pushSsid ssid (loadedHistory s))) s)
      = pushSsid ssid (loadedHistory s) := by
    rw [hpush]
    refine loadedHistory_historyEffects _ s (Recent.length_push_le _ _ _) fun v hv => ?_
    rcases List.mem_cons.mp (List.mem_of_mem_take hv) with rfl | hmem
    · exact hle
    · exact length_le_of_mem_loadedHistory (List.mem_of_mem_filter hmem)
  rw [state_of_added hpos hok]
  exact ⟨hok, hload.trans hpush⟩

theorem loadedHistory_addAll (adds : List CStr) (hadds : ∀ ssid ∈ adds, IsSsid ssid) (s : Nvs) :
    loadedHistory (addAll s adds)
      = adds.foldl (fun l ssid => Recent.push maxSsidHistory ssid l) (loadedHistory s) := by
  induction adds generalizing s with
  | nil => rfl
  | cons ssid adds ih =>
    rw [addAll, List.foldl_cons, List.foldl_cons,
      ← (loadedHistory_added s (hadds ssid List.mem_cons_self)).2]
    exact ih (fun v hv => hadds v (List.mem_cons_of_mem _ hv)) _

/-- **The history is a most-recently-used list of five.**  Every add moves its SSID to the
front and cuts the list; from a store without a history, any adds leave the front of their
distinct SSIDs, in the order in which these were last added. -/
theorem ssid_history_mru :
    (∀ (s : Nvs) (ssid : CStr), IsSsid ssid →
      ((wifiConfigAddSsidToHistory ssid).run nvs [] s).value = espOk ∧
        loadedHistory ((wifiConfigAddSsidToHistory ssid).run nvs [] s).state
          = (ssid :: (loadedHistory s).filter (· ≠ ssid)).take maxSsidHistory) ∧
    ∀ (s : Nvs) (adds : List CStr), s.get .histCount = none → (∀ ssid ∈ adds, IsSsid ssid) →
      loadedHistory (addAll s adds) = (Recent.distinct adds).take maxSsidHistory ∧
        (loadedHistory (addAll s adds)).Pairwise
          (fun a b => a ≠ b ∧ Recent.age adds a < Recent.age adds b) ∧
        ∀ ssid ∈ loadedHistory (addAll s adds), 0 < ssid.length := by
  refine ⟨fun s ssid hssid => loadedHistory_added s hssid, fun s adds hnone hadds => ?_⟩
  have hempty : loadedHistory s = [] := by
    rw [loadedHistory_eq, historyCount, Nvs.readU8, hnone]
    rfl
  have hload : loadedHistory (addAll s adds) = (Recent.distinct adds).take maxSsidHistory := by
    rw [loadedHistory_addAll adds hadds s, hempty, Recent.foldl_push]
  rw [hload]
  refine ⟨rfl, ?_, fun ssid hssid => ?_⟩
  · exact ((Recent.nodup_distinct adds).and (Recent.pairwise_distinct adds)).sublist
      (List.take_sublist _ _)
  · exact (hadds ssid (Recent.mem_distinct.mp (List.mem_of_mem_take hssid))).1

/-- Six networks, the first of them joined again before the last. -/
def joined : List CStr :=
  [.lit "Home", .lit "Cafe", .lit "Hotel", .lit "Train", .lit "Office", .lit "Home", .lit "Car"]

/-- The one that was not joined again falls off. -/
theorem joined_loaded :
    loadedHistory (addAll none joined)
      = [.lit "Car", .lit "Home", .lit "Office", .lit "Train", .lit "Hotel"] :=
  (ssid_history_mru.2 none joined rfl (by decide)).1.trans (by decide)

end WifiRepeater
