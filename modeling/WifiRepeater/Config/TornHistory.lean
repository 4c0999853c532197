import WifiRepeater.Config.RecentSsids
import WifiRepeater.Lib.Machine
import WifiRepeater.Lib.TornRecent

/-!
# The history under failures

An add writes the new count first and then the entries, from the newest on.  A write that
fails ends it, with some entries new and the others where they were: the last one may have
been counted and not written, and an SSID that was to move to the front may stand at its old
place as well.  An entry whose read fails is taken for an empty one and written back.

## Main definitions

* `readHistory`, `readCalls` — what a load under faults finds, and how many calls it makes.
* `WellFormedHistory` — at most five entries, none empty and none twice.
* `HistoryCall` — an add under faults.
* `LeavesWellFormed` — the adds that leave a history well formed.

## Main results

* `run_wifiConfigLoadSsidHistory` — what a load under faults finds.
* `loadedHistory_cut` — **what an add leaves whose writes are cut short.**
* `history_wellFormed_iff` — **when the history stays well formed.**
* `half_added` — an empty entry, and one that stands twice.
-/

namespace WifiRepeater

open Script (applyAll clear)

/-! ### Loading under faults -/

/-- Entries that are read one by one: an empty one stands for each whose read fails. -/
def readEntries (s : Nvs) (n i : ℕ) (fs : List (Option EspErr)) : List CStr :=
  (List.range n).map fun j =>
    if (fs.getD j none).isSome then .empty else historyEntry s (i + j)

/-- The history under faults: none when the store is not opened or the count is not read. -/
def readHistory (s : Nvs) (fs : List (Option EspErr)) : List CStr :=
  if (fs.getD 0 none).isSome ∨ (fs.getD 1 none).isSome then []
  else readEntries s (historyCount s) 0 (fs.drop 2)

/-- The calls that are made for it. -/
def readCalls (s : Nvs) (fs : List (Option EspErr)) : ℕ :=
  if s.isNone ∨ (fs.getD 0 none).isSome then 1
  else if (fs.getD 1 none).isSome then 2
  else 2 + historyCount s

theorem readEntries_succ (s : Nvs) (n i : ℕ) (fs : List (Option EspErr)) :
    readEntries s (n + 1) i fs
      = (if (fs.headD none).isSome then .empty else historyEntry s i)
        :: readEntries s n (i + 1) fs.tail := by
  have htail : ∀ j, fs.getD (j + 1) none = fs.tail.getD j none := fun j => by
    rw [← headD_drop, ← headD_drop, ← List.drop_one, List.drop_drop, Nat.add_comm 1 j]
  have hhead : fs.getD 0 none = fs.headD none := (headD_drop fs 0).symm
  rw [readEntries, List.range_succ_eq_map, List.map_cons, List.map_map, hhead]
  refine congrArg (_ :: ·) (List.map_congr_left fun j _ => ?_)
  simp only [Function.comp_apply, htail, Nat.succ_eq_add_one, Nat.add_assoc, Nat.add_comm 1 j]

theorem run_loadEntries_faults (s : Nvs) (n : ℕ) : ∀ (i : ℕ) (fs : List (Option EspErr)),
    (loadEntries n i).run nvs fs s = ⟨readEntries s n i fs, fs.drop n, s⟩ := by
  induction n with
  | zero => intro i fs; rfl
  | succ n ih =>
    intro i fs
    have hempty : (Buf.zero (maxSsidLen + 1)).str = .empty := by decide
    rw [loadEntries, Script.run_bind, run_nvsGetStr, Script.run_bind, ih, readEntries_succ]
    cases (fs.headD none).isSome with
    | true => simp [hempty]
    | false => simp [historyEntry]

/-- **What a load under faults finds**, and the faults it leaves. -/
theorem run_wifiConfigLoadSsidHistory (fs : List (Option EspErr)) (s : Nvs) :
    wifiConfigLoadSsidHistory.run nvs fs s
      = ⟨readHistory s fs, fs.drop (readCalls s fs), s⟩ := by
  have hfirst : fs.getD 0 none = fs.headD none := (headD_drop fs 0).symm
  have hsecond : fs.getD 1 none = fs.tail.headD none := by rw [← headD_drop, List.drop_one]
  unfold wifiConfigLoadSsidHistory readHistory readCalls
  cases hs : s with
  | none =>
    obtain ⟨e, hopen⟩ : ∃ e, nvsOpenReadOnly.run nvs fs none = ⟨.error e, fs.tail, none⟩ := by
      unfold nvsOpenReadOnly Script.run
      cases fs.headD none <;> exact ⟨_, rfl⟩
    have hnone : readEntries none (historyCount none) 0 (fs.drop 2) = [] := rfl
    simp [Script.run_bind, hopen, hnone]
  | some m =>
    rw [Script.run_bind, run_openReadOnly fs (Option.some_ne_none m), hfirst, hsecond]
    cases fs.headD none with
    | some e => simp
    | none =>
      simp only [Script.run_bind, run_nvsGetU8, run_loadEntries_faults]
      cases (fs.tail.headD none).isSome with
      | true => simp [readEntries]
      | false =>
        have hrest : fs.tail.tail = fs.drop 2 := by
          rw [← List.drop_one, ← List.drop_one, List.drop_drop]
        rw [hrest, List.drop_drop]
        rfl

/-- What is found is the history without the entries whose read failed. -/
theorem readOf_readEntries (s : Nvs) (n : ℕ) : ∀ (i : ℕ) (fs : List (Option EspErr)),
    Recent.ReadOf .empty ((List.range' i n).map (historyEntry s)) (readEntries s n i fs) := by
  induction n with
  | zero => intro i fs; exact .stop _
  | succ n ih =>
    intro i fs
    rw [readEntries_succ, List.range'_succ, List.map_cons]
    cases (fs.headD none).isSome with
    | true => exact .missed _ (ih _ _)
    | false => exact .read _ (ih _ _)

theorem readOf_readHistory (s : Nvs) (fs : List (Option EspErr)) :
    Recent.ReadOf .empty (loadedHistory s) (readHistory s fs) := by
  unfold readHistory
  split_ifs
  · exact .stop _
  · rw [loadedHistory_eq, List.range_eq_range']
    exact readOf_readEntries s _ 0 _

/-! ### Writing under faults -/

theorem length_historyCalls (vs : List CStr) : (historyCalls vs).length = vs.length + 3 := by
  have hentries : ∀ i : ℕ, (entryCalls i vs).length = vs.length + 1 := by
    induction vs with
    | nil => exact fun _ => rfl
    | cons v vs ih => exact fun i => congrArg (· + 1) (ih (i + 1))
  rw [historyCalls, List.length_cons, List.length_cons, hentries]

/-- **An add under faults** applies the front of its effects. -/
theorem run_wifiConfigAddSsidToHistory {ssid : CStr} (hpos : 0 < ssid.length)
    (fs : List (Option EspErr)) (s : Nvs) :
    ((wifiConfigAddSsidToHistory ssid).run nvs fs s).state
      = applyAll ((historyEffects (pushSsid ssid (readHistory s fs))).take
          (clear ((pushSsid ssid (readHistory s fs)).length + 3)
            (fs.drop (readCalls s fs)))) s := by
  unfold wifiConfigAddSsidToHistory
  rw [if_neg (by omega), Script.run_bind, run_wifiConfigLoadSsidHistory,
    (Script.run_tryAll (historyCalls_writes _) _ s).1, length_historyCalls]

/-- The first effects on the entries are the effects of writing the first entries. -/
theorem applyAll_take_entryEffects : ∀ (vs : List CStr) (i w : ℕ) (s : Nvs),
    applyAll ((entryEffects i vs).take w) s = applyAll (entryEffects i (vs.take w)) s := by
  intro vs
  induction vs with
  | nil =>
    intro i w s
    cases w <;> simp [entryEffects]
  | cons v vs ih =>
    intro i w s
    cases w with
    | zero => rfl
    | succ w =>
      rw [entryEffects, List.take_succ_cons, List.take_succ_cons, entryEffects,
        Script.applyAll_cons, Script.applyAll_cons, ih]

theorem historyCount_congr {s s' : Nvs} (h : s'.get .histCount = s.get .histCount) :
    historyCount s' = historyCount s := by
  unfold historyCount Nvs.readU8
  rw [h]

theorem historyEntry_congr {s s' : Nvs} {i : ℕ}
    (h : s'.get (.histSsid i) = s.get (.histSsid i)) : historyEntry s' i = historyEntry s i := by
  unfold historyEntry Nvs.readStr
  rw [h]

/-- **What an add leaves whose writes are cut short**, after the count was written: the new
entries up to the cut, and behind it the old ones. -/
theorem loadedHistory_cut (s : Nvs) (vs : List CStr) (hlen : vs.length ≤ maxSsidHistory)
    (hvs : ∀ v ∈ vs, v.length ≤ maxSsidLen) (w : ℕ) :
    loadedHistory (applyAll ((historyEffects vs).take (w + 2)) s)
      = Recent.torn (min w vs.length) vs (historyEntry s) := by
  have hstate : applyAll ((historyEffects vs).take (w + 2)) s
      = applyAll (entryEffects 0 (vs.take w))
        (s.opened.set .histCount (.u8 (UInt8.ofNat vs.length))) := by
    rw [historyEffects, List.take_succ_cons, List.take_succ_cons, Script.applyAll_cons,
      Script.applyAll_cons, applyAll_take_entryEffects]
  have hcount : historyCount (applyAll ((historyEffects vs).take (w + 2)) s) = vs.length := by
    refine historyCount_eq hlen ?_
    rw [hstate, get_entryEffects _ _ _ _ fun _ _ _ => by simp, Nvs.get_set_self]
  have hentry : ∀ i, historyEntry (applyAll ((historyEffects vs).take (w + 2)) s) i
      = if h : i < (vs.take w).length then (vs.take w)[i] else historyEntry s i := by
    intro i
    split
    · next h =>
      refine historyEntry_eq (hvs _ (List.mem_of_mem_take (List.getElem_mem h))) ?_
      rw [hstate]
      simpa only [Nat.zero_add] using get_entryEffects_self (vs.take w) 0 _ i h
    · next h =>
      refine historyEntry_congr ?_
      rw [hstate, get_entryEffects _ _ _ _ fun j _ hj => by rw [Ne, NvsKey.histSsid.injEq]; omega,
        Nvs.get_set_ne (by simp), Nvs.get_opened]
  rw [loadedHistory_eq, hcount]
  refine List.ext_getElem (by simp) fun i hi hi' => ?_
  rw [List.length_map, List.length_range] at hi
  rw [List.getElem_map, List.getElem_range, hentry, Recent.getElem_torn hi]
  by_cases hw : i < w
  · rw [dif_pos (by rw [List.length_take]; omega), if_pos (by omega), List.getElem_take]
  · rw [dif_neg (by rw [List.length_take]; omega), if_neg (by omega)]

/-- An add that has written nothing. -/
theorem loadedHistory_opened (s : Nvs) : loadedHistory s.opened = loadedHistory s := by
  have hentry : historyEntry s.opened = historyEntry s :=
    funext fun i => historyEntry_congr (Nvs.get_opened s _)
  rw [loadedHistory_eq, loadedHistory_eq, historyCount_congr (Nvs.get_opened s _), hentry]

/-! ### Runs of adds -/

/-- At most five entries, none empty and none twice. -/
structure WellFormedHistory (history : List CStr) : Prop where
  /-- The entries fit. -/
  le : history.length ≤ maxSsidHistory
  /-- None is empty. -/
  filled : ∀ ssid ∈ history, 0 < ssid.length
  /-- None stands twice. -/
  nodup : history.Nodup

/-- An add, and which of its calls fail. -/
structure HistoryCall where
  /-- The SSID. -/
  ssid : CStr
  /-- A station can be given it. -/
  isSsid : IsSsid ssid
  /-- The faults. -/
  fs : List (Option EspErr)

namespace HistoryCall

/-- One add. -/
def step (s : Nvs) (c : HistoryCall) : Option Nvs :=
  some ((wifiConfigAddSsidToHistory c.ssid).run nvs c.fs s).state

/-- The adds that leave a history well formed. -/
def LeavesWellFormed (s : Nvs) (c : HistoryCall) : Prop :=
  let found := readHistory s c.fs
  let n := min maxSsidHistory ((found.filter (· ≠ c.ssid)).length + 1)
  match clear (n + 3) (c.fs.drop (readCalls s c.fs)) with
  -- the store was not opened, or the count was not written
  | 0 | 1 => True
  | w + 2 =>
      Recent.SoundCut .empty maxSsidHistory c.ssid (loadedHistory s) found (historyEntry s)
        (min w n)

theorem length_loadedHistory_le (s : Nvs) : (loadedHistory s).length ≤ maxSsidHistory := by
  rw [loadedHistory_eq, List.length_map, List.length_range]
  exact historyCount_le s

theorem wellFormedHistory_iff (s : Nvs) :
    WellFormedHistory (loadedHistory s) ↔ Recent.Sound .empty (loadedHistory s) := by
  constructor
  · intro h
    exact ⟨h.nodup, fun hmem => absurd (h.filled _ hmem) (by decide)⟩
  · intro h
    refine ⟨length_loadedHistory_le s, fun ssid hmem => Nat.pos_of_ne_zero fun hzero => ?_, h.nodup⟩
    have hempty : ssid = .empty := CStr.ext (List.eq_nil_of_length_eq_zero hzero)
    exact h.filled (hempty ▸ hmem)

/-- The entries of the store are the history. -/
theorem map_historyEntry (s : Nvs) :
    (List.range (loadedHistory s).length).map (historyEntry s) = loadedHistory s := by
  rw [loadedHistory_eq, List.length_map, List.length_range]

/-- What an add writes fits the arrays. -/
theorem length_le_of_mem_push {s : Nvs} {ssid : CStr} (hle : ssid.length ≤ maxSsidLen)
    {found : List CStr} (hread : Recent.ReadOf .empty (loadedHistory s) found) {v : CStr}
    (hv : v ∈ ssid :: found) : v.length ≤ maxSsidLen := by
  rcases List.mem_cons.mp hv with rfl | hv
  · exact hle
  · by_cases hempty : v = .empty
    · rw [hempty]
      decide
    · exact length_le_of_mem_loadedHistory (hread.mem hv hempty)

/-- **A step**: from a well-formed history, the adds that leave it well formed are those
that satisfy the condition. -/
theorem leavesWellFormed_iff {s : Nvs} (h : WellFormedHistory (loadedHistory s))
    (c : HistoryCall) :
    LeavesWellFormed s c ↔ ∀ s' ∈ step s c, WellFormedHistory (loadedHistory s') := by
  obtain ⟨hpos, hle⟩ := c.isSsid
  have hread := readOf_readHistory s c.fs
  have hfits : ∀ v ∈ c.ssid :: readHistory s c.fs, v.length ≤ maxSsidLen := fun v hv =>
    length_le_of_mem_push hle hread hv
  have hpush := pushSsid_eq hle (List.forall_mem_cons.mp hfits).2
  have hssid : c.ssid ≠ .empty := fun heq => by
    rw [heq] at hpos
    exact absurd hpos (by decide)
  have hlength : (Recent.push maxSsidHistory c.ssid (readHistory s c.fs)).length
      = min maxSsidHistory (((readHistory s c.fs).filter (· ≠ c.ssid)).length + 1) :=
    List.length_take
  simp only [step, Option.mem_some_iff, forall_eq', LeavesWellFormed,
    run_wifiConfigAddSsidToHistory hpos, hpush, hlength]
  split
  · next hk =>
    rw [hk]
    exact iff_of_true trivial h
  · next hk =>
    have hopened : WellFormedHistory (loadedHistory s.opened) := by rwa [loadedHistory_opened]
    rw [hk]
    exact iff_of_true trivial hopened
  · next w hk =>
    rw [hk, wellFormedHistory_iff, loadedHistory_cut s _ (Recent.length_push_le _ _ _), ← hlength]
    · exact (Recent.sound_torn_push_iff (map_historyEntry s) ((wellFormedHistory_iff s).mp h)
        hread hssid (min_le_right _ _)).symm
    · intro v hv
      have hmem := List.mem_of_mem_take hv
      rw [List.mem_cons, List.mem_filter] at hmem
      exact hfits v (List.mem_cons.mpr (hmem.imp_right And.left))

/-- **When the history stays well formed**: after every add of a run from the empty store,
exactly when every add of the run satisfies the condition. -/
theorem history_wellFormed_iff (calls : List HistoryCall) :
    Machine.Admitted step LeavesWellFormed none calls ↔
      ∀ before, before <+: calls → ∀ s ∈ Machine.exec step none before,
        WellFormedHistory (loadedHistory s) :=
  Machine.admitted_iff_forall_prefix (I := fun _ => True) (fun _ _ _ _ _ => trivial)
    (fun _ c _ h => leavesWellFormed_iff h c) trivial ⟨by decide, by decide, by decide⟩

/-- The network at home added, with the given faults. -/
def addHome (fs : List (Option EspErr)) : HistoryCall := ⟨.lit "Home", by decide, fs⟩

/-- The network of a café. -/
def addCafe (fs : List (Option EspErr)) : HistoryCall := ⟨.lit "Cafe", by decide, fs⟩

/-- **An empty entry, and one that stands twice.**  In both runs the write of the second
entry fails: the first time it is the end of a list that grew, the second time it is the old
place of the SSID that moved. -/
theorem half_added :
    (∃ s, Machine.exec step none [addHome [], addCafe (List.replicate 6 none ++ [some .fail])]
        = some s ∧
      loadedHistory s = [.lit "Cafe", .empty] ∧ ¬WellFormedHistory (loadedHistory s)) ∧
    ∃ s, Machine.exec step none
        [addHome [], addCafe [], addHome (List.replicate 7 none ++ [some .fail])] = some s ∧
      loadedHistory s = [.lit "Home", .lit "Home"] ∧ ¬WellFormedHistory (loadedHistory s) := by
  refine ⟨⟨_, rfl, ?_⟩, _, rfl, ?_⟩
  · refine and_iff_left_of_imp (fun heq h => ?_) |>.mpr (by decide +kernel)
    rw [heq] at h
    exact absurd (h.filled .empty (by simp)) (by decide)
  · refine and_iff_left_of_imp (fun heq h => ?_) |>.mpr (by decide +kernel)
    rw [heq] at h
    exact absurd h.nodup (by simp)

end HistoryCall

end WifiRepeater
