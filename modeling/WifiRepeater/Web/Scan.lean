import WifiRepeater.Lib.CString
import WifiRepeater.Lib.FirstByKey
import WifiRepeater.Web.ScannedNetworks

/-!
# The list of a scan

`api_scan_handler` turns the records of a scan into the list the pages show, with one
entry for each name.  By its own comments it keeps the strongest signal of a name.  It
keeps the first record of a name, whatever the signals, and relies on the driver to
deliver the records strongest first.

An SSID is the C string in its field, which the driver ends with a NUL.  Memory for the
entries is taken to be there.

## Main definitions

* `WifiApRecord`, `ScanRecords` — the records, twenty at most.
* `scanTurn`, `scanItems` — the loop, and the list it builds.
* `KeepsStrongest recs items` — what the comments say of the list.

## Main results

* `scanItems_eq` — the list is the first visible record of every name.
* `keepsStrongest_iff` — **when the strongest signal is kept.**
* `keepsStrongest_of_sorted` — it is if the records come strongest first.
-/

namespace WifiRepeater

/-! ### The loop -/

/-- A record of the driver, `wifi_ap_record_t`, as far as the handler reads it. -/
structure WifiApRecord where
  /-- `ssid`. -/
  ssid : Buf 33
  /-- An SSID has 32 bytes at most, and a NUL behind them. -/
  terminated : 0 ∈ ssid.bytes
  /-- `rssi`. -/
  rssi : Int8
  /-- `primary`, the channel. -/
  primary : UInt8
  /-- `authmode`. -/
  authmode : ScanAuth

/-- The name of the network. -/
def WifiApRecord.name (r : WifiApRecord) : CStr := r.ssid.str

/-- The filled part of `recs`. -/
structure ScanRecords where
  /-- The records. -/
  recs : List WifiApRecord
  /-- The array has twenty elements. -/
  le : recs.length ≤ 20

/-- What `esp_wifi_scan_get_ap_records` leaves, the count having been cut down to 20. -/
def ScanRecords.read (found : List WifiApRecord) : ScanRecords :=
  ⟨found.take 20, List.length_take_le _ _⟩

/-- An entry of the array that is sent. -/
structure ScanItem where
  /-- `ssid`. -/
  ssid : CStr
  /-- `rssi`. -/
  rssi : Int8
  /-- `channel`. -/
  channel : UInt8
  /-- `auth`. -/
  auth : List Char
  deriving DecidableEq

/-- The entry made of a record. -/
def WifiApRecord.item (r : WifiApRecord) : ScanItem :=
  ⟨r.name, r.rssi, r.primary, r.authmode.authStr⟩

/-- The variables of the loop. -/
structure ScanState where
  /-- `seen_ssids`, as far as it is filled. -/
  seenSsids : List CStr
  /-- `arr`. -/
  arr : List ScanItem

/-- One turn of the loop. -/
def scanTurn (s : ScanState) (r : WifiApRecord) : ScanState :=
  -- hidden networks
  if r.ssid.get 0 = 0 then s
  else if s.seenSsids.any (· == r.name) then s
  else
    let seenSsids :=
      if s.seenSsids.length < 20 then s.seenSsids ++ [r.name.take 32] else s.seenSsids
    ⟨seenSsids, s.arr ++ [r.item]⟩

/-- The list that `api_scan_handler` sends. -/
def scanItems (recs : ScanRecords) : List ScanItem := (recs.recs.foldl scanTurn ⟨[], []⟩).arr

/-! ### What the loop keeps -/

/-- The network is not hidden. -/
def WifiApRecord.Visible (r : WifiApRecord) : Prop := r.name ≠ CStr.empty

instance (r : WifiApRecord) : Decidable r.Visible := inferInstanceAs (Decidable (_ ≠ _))

/-- The handler looks at the first byte. -/
theorem get_zero_eq_iff (r : WifiApRecord) : r.ssid.get 0 = 0 ↔ ¬r.Visible := by
  rw [WifiApRecord.Visible, not_not, WifiApRecord.name, Buf.str, CStr.ext_iff, CStr.bytes_ofMem,
    Buf.get]
  cases hbytes : r.ssid.bytes with
  | nil => exact absurd r.ssid.size (by simp [hbytes])
  | cons b mem =>
    by_cases hb : b = 0 <;> simp [hb, CStr.empty]

/-- A name fits into the row of names seen. -/
theorem take_name (r : WifiApRecord) : r.name.take 32 = r.name :=
  CStr.take_of_length_le (Nat.le_of_lt_succ (Buf.length_str_lt r.terminated))

/-- A hidden network is skipped. -/
theorem scanTurn_hidden {s : ScanState} {r : WifiApRecord} (h : ¬r.Visible) : scanTurn s r = s :=
  if_pos ((get_zero_eq_iff r).mpr h)

/-- So is a name that was seen before. -/
theorem scanTurn_seen {s : ScanState} {r : WifiApRecord} (h : r.Visible)
    (hseen : r.name ∈ s.seenSsids) : scanTurn s r = s := by
  rw [scanTurn, if_neg fun h0 => (get_zero_eq_iff r).mp h0 h,
    if_pos (List.any_eq_true.mpr ⟨r.name, hseen, by simp⟩)]

/-- A new name is remembered and listed. -/
theorem scanTurn_new {s : ScanState} {r : WifiApRecord} (h : r.Visible)
    (hnew : r.name ∉ s.seenSsids) (hroom : s.seenSsids.length < 20) :
    scanTurn s r = ⟨s.seenSsids ++ [r.name], s.arr ++ [r.item]⟩ := by
  have hany : ¬s.seenSsids.any (· == r.name) = true := by
    rw [List.any_eq_true]
    rintro ⟨name, hmem, heq⟩
    exact hnew (beq_iff_eq.mp heq ▸ hmem)
  rw [scanTurn, if_neg fun h0 => (get_zero_eq_iff r).mp h0 h, if_neg hany, if_pos hroom, take_name]

/-- **The list is the first visible record of every name**, while there is room for all
names. -/
theorem foldl_scanTurn : ∀ (recs : List WifiApRecord) (s : ScanState),
    s.seenSsids.length + recs.length ≤ 20 →
      (recs.foldl scanTurn s).arr = s.arr ++
        (firstsFrom WifiApRecord.name s.seenSsids (recs.filter (·.Visible))).map
          WifiApRecord.item := by
  intro recs
  induction recs with
  | nil => intro s _; simp [firstsFrom]
  | cons r recs ih =>
    intro s hroom
    rw [List.length_cons] at hroom
    rw [List.foldl_cons, List.filter_cons]
    by_cases hv : r.Visible
    · rw [if_pos (by simpa using hv), firstsFrom]
      by_cases hseen : r.name ∈ s.seenSsids
      · rw [if_pos hseen, scanTurn_seen hv hseen, ih s (by omega)]
      · rw [if_neg hseen, scanTurn_new hv hseen (by omega), ih _ (by simp; omega),
          List.map_cons, List.append_assoc]
        rfl
    · rw [if_neg (by simpa using hv), scanTurn_hidden hv, ih s (by omega)]

theorem scanItems_eq (recs : ScanRecords) : scanItems recs =
    (firstsFrom WifiApRecord.name [] (recs.recs.filter (·.Visible))).map WifiApRecord.item :=
  foldl_scanTurn recs.recs ⟨[], []⟩ (by simpa using recs.le)

/-! ### The strongest signal -/

/-- **What the comments say of the list**: the names are those of the visible networks,
each once, and an entry tells of the strongest record of its name. -/
structure KeepsStrongest (recs : List WifiApRecord) (items : List ScanItem) : Prop where
  /-- Every name that is not empty is there once. -/
  once : ∀ r ∈ recs, r.Visible → (items.map ScanItem.ssid).count r.name = 1
  /-- No other is there. -/
  visible : ∀ i ∈ items, i.ssid ≠ CStr.empty
  /-- The entry is that of a record of the name, and no other record of it is stronger. -/
  strongest : ∀ i ∈ items, ∃ r ∈ recs, r.name = i.ssid ∧ r.rssi = i.rssi ∧
    r.primary = i.channel ∧ r.authmode.authStr = i.auth ∧
      ∀ r' ∈ recs, r'.name = i.ssid → r'.rssi ≤ r.rssi

/-- A network of the same name is not hidden either. -/
theorem WifiApRecord.Visible.of_name_eq {r r' : WifiApRecord} (h : r.Visible)
    (hname : r'.name = r.name) : r'.Visible := by
  rw [WifiApRecord.Visible, hname]
  exact h

/-- The first record of a name is the first visible one. -/
theorem find?_visible {recs : List WifiApRecord} {r : WifiApRecord} (h : r.Visible) :
    (recs.filter (·.Visible)).find? (fun f => f.name = r.name) =
      recs.find? (fun f => f.name = r.name) := by
  rw [List.find?_filter]
  refine congrArg (fun p => recs.find? p) (funext fun f => ?_)
  by_cases hname : f.name = r.name
  · simp [hname, h.of_name_eq hname]
  · simp [hname]

/-- The names are right whatever the signals, so that the list is good exactly if each
record it is made of is the strongest of its name. -/
theorem keepsStrongest_iff_forall_firsts (recs : ScanRecords) :
    KeepsStrongest recs.recs (scanItems recs) ↔
      ∀ a ∈ firstsFrom WifiApRecord.name [] (recs.recs.filter (·.Visible)),
        ∀ b ∈ recs.recs.filter (·.Visible), b.name = a.name → b.rssi ≤ a.rssi := by
  rw [scanItems_eq]
  constructor
  · rintro ⟨-, -, hstrongest⟩ a ha b hb hname
    obtain ⟨r, -, -, hrssi, -, -, hmax⟩ := hstrongest a.item (List.mem_map_of_mem ha)
    exact (hmax b (List.mem_of_mem_filter hb) hname).trans_eq hrssi
  · intro hbest
    refine ⟨fun r hr hv => ?_, fun i hi => ?_, fun i hi => ?_⟩
    · rw [List.map_map]
      refine List.count_eq_one_of_mem (nodup_map_firstsFrom _ _) (mem_map_firstsFrom_iff.mpr ?_)
      exact ⟨List.not_mem_nil, List.mem_map_of_mem (List.mem_filter.mpr ⟨hr, by simpa using hv⟩)⟩
    · obtain ⟨a, ha, rfl⟩ := List.mem_map.mp hi
      have hv : a.Visible := by simpa using (List.mem_filter.mp (mem_of_mem_firstsFrom ha)).2
      exact hv
    · obtain ⟨a, ha, rfl⟩ := List.mem_map.mp hi
      obtain ⟨hmem, hv⟩ := List.mem_filter.mp (mem_of_mem_firstsFrom ha)
      refine ⟨a, hmem, rfl, rfl, rfl, rfl, fun r' hr' hname => hbest a ha r' ?_ hname⟩
      have hv' : r'.Visible := WifiApRecord.Visible.of_name_eq (by simpa using hv) hname
      exact List.mem_filter.mpr ⟨hr', by simpa using hv'⟩

/-- **When the strongest signal is kept**: exactly when no record of a name is stronger
than the first one of that name. -/
theorem keepsStrongest_iff (recs : ScanRecords) : KeepsStrongest recs.recs (scanItems recs) ↔
    ∀ r ∈ recs.recs, r.Visible →
      ∀ first ∈ recs.recs.find? (fun f => f.name = r.name), r.rssi ≤ first.rssi := by
  rw [keepsStrongest_iff_forall_firsts, firsts_best_iff]
  constructor
  · intro h r hr hv
    rw [← find?_visible hv]
    exact h r (List.mem_filter.mpr ⟨hr, by simpa using hv⟩)
  · intro h r hr
    obtain ⟨hmem, hv⟩ := List.mem_filter.mp hr
    rw [find?_visible (by simpa using hv)]
    exact h r hmem (by simpa using hv)

/-- Records that come strongest first are turned into a good list. -/
theorem keepsStrongest_of_sorted (recs : ScanRecords)
    (h : recs.recs.Pairwise fun r r' => r'.rssi ≤ r.rssi) :
    KeepsStrongest recs.recs (scanItems recs) :=
  (keepsStrongest_iff_forall_firsts recs).mpr
    (firsts_best_of_sorted Int8.le_refl (h.filter _))

/-- A record with a name of four letters. -/
def homeRecord (rssi : Int8) (primary : UInt8) : WifiApRecord where
  ssid := (Buf.zero 33).put (CStr.lit "Home") (by decide)
  terminated := Buf.zero_mem_put _ _ _
  rssi := rssi
  primary := primary
  authmode := .authWpa2Psk

/-- Two access points of a network, the far one first. -/
def farFirst : ScanRecords := .read [homeRecord (-70) 1, homeRecord (-40) 6]

/-- The list tells of the far one. -/
theorem scanItems_farFirst :
    scanItems farFirst = [⟨CStr.lit "Home", -70, 1, ScanAuth.authWpa2Psk.authStr⟩] ∧
      ¬KeepsStrongest farFirst.recs (scanItems farFirst) := by
  have hitems : scanItems farFirst =
      [⟨CStr.lit "Home", -70, 1, ScanAuth.authWpa2Psk.authStr⟩] := rfl
  refine ⟨hitems, fun h => ?_⟩
  rw [hitems] at h
  obtain ⟨r, -, -, hrssi, -, -, hmax⟩ := h.strongest _ List.mem_cons_self
  have hle := hmax (homeRecord (-40) 6) (by simp [farFirst, ScanRecords.read]) (by decide)
  exact absurd (hle.trans_eq hrssi) (by decide)

end WifiRepeater
