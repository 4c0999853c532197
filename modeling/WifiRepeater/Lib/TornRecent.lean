import WifiRepeater.Lib.Recent

/-!
# Most-recently-used lists rewritten cell by cell

A list is kept as a count and a row of cells.  An addition reads it, sets the count, and
rewrites the cells from the front.  Cut short, it leaves the new entries in the cells it
has reached and the old ones behind them, and of an old list that had no duplicate it may
make one that has.  An entry that cannot be read is read as a blank, and it is written back
as one.

## Main definitions

* `Sound` — lists of distinct entries, none of them blank.
* `ReadOf` — what may be read of a list.
* `torn` — what the cells hold when the first of them have been rewritten.
* `SoundCut` — where an addition may be cut.

## Main results

* `ReadOf.sublist` — what was read and is not blank stands in the list, in its order.
* `sound_torn_push_iff` — **a cut addition leaves a sound list at just these places.**
-/

namespace Recent

variable {α : Type*} {blank a : α} {l m : List α}

/-! ### Sound lists -/

/-- No entry is blank and none occurs twice. -/
structure Sound (blank : α) (l : List α) : Prop where
  /-- The entries are distinct. -/
  nodup : l.Nodup
  /-- None of them is blank. -/
  filled : blank ∉ l

theorem Sound.sublist (h : Sound blank l) (hm : m.Sublist l) : Sound blank m :=
  ⟨h.nodup.sublist hm, fun hb => h.filled (hm.subset hb)⟩

theorem sound_cons_iff :
    Sound blank (a :: l) ↔ (a ≠ blank ∧ a ∉ l) ∧ Sound blank l := by
  constructor
  · intro h
    obtain ⟨ha, hl⟩ := List.nodup_cons.mp h.nodup
    refine ⟨⟨fun heq => h.filled (heq ▸ List.mem_cons_self), ha⟩, hl, fun hb => ?_⟩
    exact h.filled (List.mem_cons_of_mem _ hb)
  · rintro ⟨⟨hne, ha⟩, hl⟩
    refine ⟨List.nodup_cons.mpr ⟨ha, hl.nodup⟩, fun hb => ?_⟩
    rcases List.mem_cons.mp hb with heq | hb
    · exact hne heq.symm
    · exact hl.filled hb

/-- One more entry behind the last. -/
theorem sound_concat_iff :
    Sound blank (l ++ [a]) ↔ Sound blank l ∧ a ∉ blank :: l := by
  rw [List.mem_cons, not_or]
  constructor
  · intro h
    have hl := h.sublist (List.sublist_append_left l [a])
    obtain ⟨-, -, hdisj⟩ := List.nodup_append.mp h.nodup
    refine ⟨hl, fun heq => h.filled (by simp [heq]), fun ha => ?_⟩
    exact hdisj a ha a (List.mem_singleton_self a) rfl
  · rintro ⟨hl, hne, ha⟩
    refine ⟨List.nodup_append.mpr ⟨hl.nodup, List.nodup_singleton a, ?_⟩, ?_⟩
    · rintro x hx y hy rfl
      exact ha (List.mem_singleton.mp hy ▸ hx)
    · intro hb
      rcases List.mem_append.mp hb with hb | hb
      · exact hl.filled hb
      · exact hne (List.mem_singleton.mp hb).symm

/-! ### Cells -/

/-- The list in the cells, when the first `w` of them have been rewritten to those of `l`. -/
def torn (w : ℕ) (l : List α) (cells : ℕ → α) : List α :=
  l.take w ++ ((List.range l.length).map cells).drop w

@[simp] theorem length_torn (w : ℕ) (l : List α) (cells : ℕ → α) :
    (torn w l cells).length = l.length := by
  unfold torn
  rw [List.length_append, List.length_take, List.length_drop, List.length_map, List.length_range]
  omega

/-- The entry at an index is the new one before the cut. -/
theorem getElem_torn {w : ℕ} {l : List α} {cells : ℕ → α} {i : ℕ} (hi : i < l.length)
    (hi' : i < (torn w l cells).length) :
    (torn w l cells)[i] = if i < w then l[i] else cells i := by
  simp only [torn, List.getElem_append]
  by_cases hw : i < w
  · rw [dif_pos (by rw [List.length_take]; omega), if_pos hw, List.getElem_take]
  · have hlen : (l.take w).length = w := by
      rw [List.length_take]
      omega
    rw [dif_neg (by omega), if_neg hw, List.getElem_drop, List.getElem_map, List.getElem_range,
      hlen]
    congr
    omega

/-! ### Reading -/

/-- `m` may be read of `l`: it is read from the front, perhaps not to its end, and an entry
that cannot be read is a blank. -/
inductive ReadOf (blank : α) : List α → List α → Prop
  /-- Nothing more is read. -/
  | stop (l : List α) : ReadOf blank l []
  /-- An entry is read. -/
  | read {l m : List α} (v : α) (h : ReadOf blank l m) : ReadOf blank (v :: l) (v :: m)
  /-- An entry cannot be read. -/
  | missed {l m : List α} (v : α) (h : ReadOf blank l m) : ReadOf blank (v :: l) (blank :: m)

theorem ReadOf.length_le (h : ReadOf blank l m) : m.length ≤ l.length := by
  induction h with
  | stop l => exact Nat.zero_le _
  | read v _ ih => exact Nat.succ_le_succ ih
  | missed v _ ih => exact Nat.succ_le_succ ih

/-- The front of what was read is read of the front. -/
theorem ReadOf.take (h : ReadOf blank l m) (n : ℕ) : ReadOf blank (l.take n) (m.take n) := by
  induction h generalizing n with
  | stop l =>
    rw [List.take_nil]
    exact .stop _
  | read v _ ih =>
    cases n with
    | zero => exact .stop _
    | succ n => exact .read v (ih n)
  | missed v _ ih =>
    cases n with
    | zero => exact .stop _
    | succ n => exact .missed v (ih n)

/-- **What was read and is not blank** stands in the list, in its order. -/
theorem ReadOf.sublist (h : ReadOf blank l m) {p : List α} (hp : p.Sublist m)
    (hb : blank ∉ p) : p.Sublist l := by
  induction h generalizing p with
  | stop l =>
    rw [List.sublist_nil.mp hp]
    exact List.nil_sublist l
  | read v _ ih =>
    cases hp with
    | cons _ hp => exact (ih hp hb).cons v
    | cons_cons _ hp => exact (ih hp fun h => hb (List.mem_cons_of_mem _ h)).cons_cons v
  | missed v _ ih =>
    cases hp with
    | cons _ hp => exact (ih hp hb).cons v
    | cons_cons _ hp => exact absurd List.mem_cons_self hb

theorem ReadOf.mem (h : ReadOf blank l m) {v : α} (hv : v ∈ m) (hb : v ≠ blank) : v ∈ l := by
  refine (h.sublist (List.singleton_sublist.mpr hv) fun hm => ?_).subset List.mem_cons_self
  exact hb (List.mem_singleton.mp hm).symm

variable [DecidableEq α]

/-- Without one element, the first entries that were read are among the first of the list
and one more. -/
theorem ReadOf.mem_take_filter (h : ReadOf blank l m) (hl : Sound blank l) (ha : a ≠ blank)
    {n : ℕ} {v : α} (hv : v ∈ (m.filter (· ≠ a)).take n) (hb : v ≠ blank) :
    v ∈ l.take (n + 1) := by
  induction h generalizing n with
  | stop l => simp at hv
  | @read l m u h ih =>
    obtain ⟨⟨-, hu⟩, hl⟩ := sound_cons_iff.mp hl
    rw [List.take_succ_cons]
    by_cases hua : u = a
    -- the element is left out, and it does not occur again
    · have hrest : (m.filter (· ≠ a)) = m := by
        refine List.filter_eq_self.mpr fun x hx => decide_eq_true fun heq => ?_
        exact hu (h.mem (hua ▸ heq ▸ hx) (hua ▸ ha))
      rw [List.filter_cons_of_neg (by simpa using hua), hrest] at hv
      exact List.mem_cons_of_mem _ ((h.take n).mem hv hb)
    · rw [List.filter_cons_of_pos (by simpa using hua)] at hv
      cases n with
      | zero => simp at hv
      | succ n =>
        rcases List.mem_cons.mp hv with rfl | hv
        · exact List.mem_cons_self
        · exact List.mem_cons_of_mem _ (ih hl hv)
  | @missed l m u h ih =>
    have hl := (sound_cons_iff.mp hl).2
    rw [List.filter_cons_of_pos (by simpa using ha.symm)] at hv
    cases n with
    | zero => simp at hv
    | succ n =>
      rcases List.mem_cons.mp hv with heq | hv
      · exact absurd heq hb
      · exact List.mem_cons_of_mem _ (ih hl hv)

/-! ### An addition cut short -/

/-- Where the addition of `a` to the list `l`, of which `m` was read, may be cut: after `w`
cells. -/
structure SoundCut (blank : α) (cap : ℕ) (a : α) (l m : List α) (cells : ℕ → α) (w : ℕ) :
    Prop where
  /-- No blank that was read is written back. -/
  filled : blank ∉ (m.filter (· ≠ a)).take (w - 1)
  /-- The element, once it is written, does not stand behind the cut as well. -/
  moved : 0 < w → a ∉ (l.take (push cap a m).length).drop w
  /-- When the list grows and the cut is before its new end, the cell there has an entry
  already, and it is no other one. -/
  grown : (push cap a m).length = l.length + 1 → w ≤ l.length →
    cells l.length ∉ blank :: ((a :: m).take w ++ l.drop w)

/-- The entries written and the old ones behind them. -/
theorem sound_cut_iff (hl : Sound blank l) (hm : ReadOf blank l m) (ha : a ≠ blank) (n w : ℕ) :
    Sound blank ((a :: m.filter (· ≠ a)).take w ++ (l.take n).drop w) ↔
      blank ∉ (m.filter (· ≠ a)).take (w - 1) ∧ (0 < w → a ∉ (l.take n).drop w) := by
  cases w with
  | zero =>
    rw [List.take_zero, List.nil_append, List.drop_zero]
    exact iff_of_true (hl.sublist (List.take_sublist n l)) ⟨by simp, fun h => absurd h (by simp)⟩
  | succ w =>
    rw [List.take_succ_cons, List.cons_append, sound_cons_iff, Nat.add_sub_cancel]
    have hself : a ∉ (m.filter (· ≠ a)).take w := fun hmem => by
      simpa using List.mem_of_mem_take hmem
    have hold : Sound blank ((l.take n).drop (w + 1)) :=
      hl.sublist ((List.drop_sublist _ _).trans (List.take_sublist _ _))
    rw [List.mem_append, not_or]
    constructor
    · rintro ⟨⟨-, -, hmoved⟩, hsound⟩
      exact ⟨fun hb => hsound.filled (List.mem_append_left _ hb), fun _ => hmoved⟩
    · rintro ⟨hb, hmoved⟩
      refine ⟨⟨ha, hself, hmoved (Nat.succ_pos w)⟩, List.nodup_append.mpr ⟨?_, hold.nodup, ?_⟩, ?_⟩
      · exact hl.nodup.sublist
          (hm.sublist ((List.take_sublist _ _).trans List.filter_sublist) hb)
      -- what was written stood before the cut, or one place behind it
      · rintro x hx y hy rfl
        have hfront := hm.mem_take_filter hl ha hx fun heq => hb (heq ▸ hx)
        rw [List.drop_take] at hy
        exact List.disjoint_take_drop hl.nodup le_rfl hfront (List.mem_of_mem_take hy)
      · intro hmem
        rcases List.mem_append.mp hmem with hmem | hmem
        · exact hb hmem
        · exact hold.filled hmem

/-- **A cut addition** to a sound list, in cells that hold it, leaves a sound list when the
cut is at one of the places, and not otherwise. -/
theorem sound_torn_push_iff {cells : ℕ → α} (hcells : (List.range l.length).map cells = l)
    (hl : Sound blank l) (hm : ReadOf blank l m) (ha : a ≠ blank) {cap w : ℕ}
    (hw : w ≤ (push cap a m).length) :
    Sound blank (torn w (push cap a m) cells) ↔ SoundCut blank cap a l m cells w := by
  have hlen : (push cap a m).length = min cap ((m.filter (· ≠ a)).length + 1) := by
    rw [push, List.length_take, List.length_cons]
  have hfilter : (m.filter (· ≠ a)).length ≤ m.length := List.length_filter_le _ _
  have hread := hm.length_le
  have hcut := sound_cut_iff hl hm ha (push cap a m).length w
  have hfront : (push cap a m).take w = (a :: m.filter (· ≠ a)).take w := by
    rw [push, List.take_take, min_eq_left (by omega)]
  unfold torn
  rw [hfront]
  by_cases hgrown : (push cap a m).length = l.length + 1
  -- the list grows: all of it was read, and the element is new
  · have hrow : (List.range (push cap a m).length).map cells = l ++ [cells l.length] := by
      rw [hgrown, List.range_succ, List.map_append, hcells, List.map_singleton]
    have hkept : m.filter (· ≠ a) = m := List.filter_sublist.eq_of_length (by omega)
    have hall : l.take (push cap a m).length = l := List.take_of_length_le (by omega)
    by_cases hend : w ≤ l.length
    · have hrest : (l ++ [cells l.length]).drop w
          = (l.take (push cap a m).length).drop w ++ [cells l.length] := by
        rw [List.drop_append_of_le_length hend, hall]
      rw [hrow, hrest, ← List.append_assoc, sound_concat_iff, hcut, hkept, hall]
      refine ⟨fun h => ⟨?_, ?_, fun _ _ => h.2⟩, fun h => ⟨⟨?_, ?_⟩, h.grown hgrown hend⟩⟩
      · simpa only [hkept] using h.1.1
      · simpa only [hall] using h.1.2
      · simpa only [hkept] using h.filled
      · simpa only [hall] using h.moved
    -- all cells have been rewritten
    · have hnone : (l ++ [cells l.length]).drop w = (l.take (push cap a m).length).drop w := by
        have hlong : (l ++ [cells l.length]).length ≤ w := by
          rw [List.length_append, List.length_singleton]
          omega
        rw [hall, List.drop_of_length_le hlong, List.drop_of_length_le (by omega)]
      rw [hrow, hnone, hcut]
      exact ⟨fun h => ⟨h.1, h.2, fun _ h' => absurd h' hend⟩, fun h => ⟨h.filled, h.moved⟩⟩
  · have hrow : (List.range (push cap a m).length).map cells
        = l.take (push cap a m).length := by
      conv_rhs => rw [← hcells]
      rw [← List.map_take, List.take_range, min_eq_left (by omega)]
    rw [hrow, hcut]
    exact ⟨fun h => ⟨h.1, h.2, fun h' => absurd h' hgrown⟩, fun h => ⟨h.filled, h.moved⟩⟩

end Recent
