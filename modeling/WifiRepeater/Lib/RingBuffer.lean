import Mathlib.Data.List.Basic
import Mathlib.Data.List.Forall2

/-!
# Ring buffers whose slots are written over

A ring of `cap` slots keeps the newest `cap` entries.  An entry is not put in the place
of an older one but written over it, field by field, so what a slot holds may depend on
what it held before.  The history of a ring is the list of its writes, the newest first;
slot by slot it says exactly what the ring holds.

## Main definitions

* `RingBuffer α cap` — the slots, the slot the next write goes to, and how many are used.
* `RingBuffer.push`, `RingBuffer.latest` — one more write, and the newest entries.
* `replay` — what the slot of the `i`-th newest write holds, by the history alone.

## Main results

* `RingBuffer.Holds.push` — a write keeps ring and history together.
* `RingBuffer.Holds.latest_eq` — **the newest entries are the newest writes**, each over what
  its slot held.
* `RingBuffer.Holds.forall₂_latest` — what every write establishes holds of every entry shown.
-/

/-- What the slot of the `i`-th newest write of `hist` holds: the write over what the
slot held one turn of the ring earlier, `z` before the first. -/
def replay {α : Type*} (cap : ℕ) (z : α) (hist : List (α → α)) (i : ℕ) : α :=
  if h : i < hist.length ∧ 0 < cap then hist[i] (replay cap z hist (i + cap)) else z
termination_by hist.length - i

section Replay

variable {α : Type*} {cap : ℕ} {z : α}

theorem replay_of_lt {hist : List (α → α)} {i : ℕ} (hcap : 0 < cap) (h : i < hist.length) :
    replay cap z hist i = hist[i] (replay cap z hist (i + cap)) := by
  rw [replay, dif_pos ⟨h, hcap⟩]

theorem replay_of_ge {hist : List (α → α)} {i : ℕ} (h : hist.length ≤ i) :
    replay cap z hist i = z := by
  rw [replay, dif_neg (by omega)]

/-- One more write moves every other entry back by one. -/
theorem replay_cons_succ (hcap : 0 < cap) (w : α → α) (hist : List (α → α)) (i : ℕ) :
    replay cap z (w :: hist) (i + 1) = replay cap z hist i := by
  induction h : hist.length - i using Nat.strongRecOn generalizing i with
  | ind n ih =>
    rcases Nat.lt_or_ge i hist.length with hi | hi
    · have hlt : i + 1 < (w :: hist).length := by rw [List.length_cons]; omega
      have hprev := ih (hist.length - (i + cap)) (by omega) (i + cap) rfl
      rw [replay_of_lt hcap hlt, replay_of_lt hcap hi, List.getElem_cons_succ, Nat.add_right_comm,
        hprev]
    · rw [replay_of_ge hi, replay_of_ge (by rw [List.length_cons]; omega)]

/-- The newest write goes over what was the oldest slot. -/
theorem replay_cons_zero (hcap : 0 < cap) (w : α → α) (hist : List (α → α)) :
    replay cap z (w :: hist) 0 = w (replay cap z hist (cap - 1)) := by
  have hpos : 0 < (w :: hist).length := Nat.succ_pos _
  obtain ⟨k, rfl⟩ : ∃ k, cap = k + 1 := ⟨cap - 1, by omega⟩
  rw [replay_of_lt hcap hpos, Nat.zero_add, replay_cons_succ hcap]
  rfl

end Replay

/-- A ring buffer of `cap` slots. -/
structure RingBuffer (α : Type*) (cap : ℕ) where
  /-- The slots. -/
  slots : Vector α cap
  /-- The slot of the next write. -/
  head : Fin cap
  /-- The number of slots written so far. -/
  count : ℕ
  /-- There are no more than there are slots. -/
  count_le : count ≤ cap

namespace RingBuffer

variable {α ι : Type*} {cap : ℕ}

/-- A ring nothing was written to, all slots holding `z`. -/
def init (z : α) (hcap : 0 < cap) : RingBuffer α cap :=
  ⟨.replicate cap z, ⟨0, hcap⟩, 0, Nat.zero_le _⟩

/-- What a slot holds. -/
def slot (r : RingBuffer α cap) (i : Fin cap) : α := r.slots[i]

/-- The slot `i` steps before the newest one. -/
def back (r : RingBuffer α cap) (i : ℕ) : Fin cap :=
  ⟨(r.head + cap - 1 - i) % cap, Nat.mod_lt _ r.head.pos⟩

/-- One more write, over what the slot at `head` holds. -/
def push (r : RingBuffer α cap) (w : α → α) : RingBuffer α cap where
  slots := r.slots.set r.head (w (r.slot r.head))
  head := ⟨(r.head + 1) % cap, Nat.mod_lt _ r.head.pos⟩
  count := if r.count < cap then r.count + 1 else r.count
  count_le := by
    have := r.count_le
    split_ifs <;> omega

/-- The newest entries, at most `m`. -/
def latest (r : RingBuffer α cap) (m : ℕ) : List α :=
  (List.range (if m < r.count then m else r.count)).map fun i => r.slot (r.back i)

theorem slot_init (z : α) (hcap : 0 < cap) (i : Fin cap) : (init z hcap).slot i = z :=
  Vector.getElem_replicate _

theorem slot_push_head (r : RingBuffer α cap) (w : α → α) :
    (r.push w).slot r.head = w (r.slot r.head) := Vector.getElem_set_self _

/-- A write leaves the other slots as they were. -/
theorem slot_push_of_ne (r : RingBuffer α cap) (w : α → α) {i : Fin cap} (hi : i ≠ r.head) :
    (r.push w).slot i = r.slot i :=
  Vector.getElem_set_ne r.head.isLt i.isLt fun heq => hi (Fin.ext heq.symm)

theorem count_push (r : RingBuffer α cap) (w : α → α) :
    (r.push w).count = min cap (r.count + 1) := by
  have := r.count_le
  show (if r.count < cap then r.count + 1 else r.count) = _
  split_ifs <;> omega

theorem length_latest (r : RingBuffer α cap) (m : ℕ) : (r.latest m).length = min m r.count := by
  rw [latest, List.length_map, List.length_range]
  split_ifs <;> omega

/-- After a write the newest slot is the one written to. -/
theorem back_push_zero (r : RingBuffer α cap) (w : α → α) : (r.push w).back 0 = r.head := by
  have hlt := r.head.isLt
  apply Fin.ext
  show ((r.head + 1) % cap + cap - 1 - 0) % cap = r.head
  rcases Nat.lt_or_ge (r.head + 1) cap with h | h
  · rw [Nat.mod_eq_of_lt h, show (r.head : ℕ) + 1 + cap - 1 - 0 = r.head + cap by omega,
      Nat.add_mod_right, Nat.mod_eq_of_lt hlt]
  · have hlast : (r.head : ℕ) + 1 = cap := by omega
    rw [hlast, Nat.mod_self, Nat.mod_eq_of_lt (by omega)]
    omega

/-- Every older slot is one step further back. -/
theorem back_push_succ (r : RingBuffer α cap) (w : α → α) {i : ℕ} (hi : i + 1 < cap) :
    (r.push w).back (i + 1) = r.back i := by
  have hlt := r.head.isLt
  apply Fin.ext
  show ((r.head + 1) % cap + cap - 1 - (i + 1)) % cap = (r.head + cap - 1 - i) % cap
  rcases Nat.lt_or_ge (r.head + 1) cap with h | h
  · rw [Nat.mod_eq_of_lt h]
    congr 1
    omega
  · have hlast : (r.head : ℕ) + 1 = cap := by omega
    have hback : (r.head : ℕ) + cap - 1 - i = (0 + cap - 1 - (i + 1)) + cap := by omega
    rw [hlast, Nat.mod_self, hback, Nat.add_mod_right]

/-- The slot before the oldest entry of a full turn is the one the next write goes to. -/
theorem back_last (r : RingBuffer α cap) : r.back (cap - 1) = r.head := by
  have hlt := r.head.isLt
  apply Fin.ext
  show (r.head + cap - 1 - (cap - 1)) % cap = r.head
  rw [show (r.head : ℕ) + cap - 1 - (cap - 1) = r.head by omega, Nat.mod_eq_of_lt hlt]

/-- An older slot is not the one the next write goes to. -/
theorem back_ne_head (r : RingBuffer α cap) {i : ℕ} (hi : i + 1 < cap) : r.back i ≠ r.head := by
  have hlt := r.head.isLt
  intro heq
  have hval : (r.head + cap - 1 - i) % cap = r.head := congrArg Fin.val heq
  rcases Nat.lt_or_ge i r.head with h | h
  · rw [show (r.head : ℕ) + cap - 1 - i = (r.head - 1 - i) + cap by omega, Nat.add_mod_right,
      Nat.mod_eq_of_lt (by omega)] at hval
    omega
  · rw [Nat.mod_eq_of_lt (by omega)] at hval
    omega

/-- The ring holds what the history, newest write first, says of every slot. -/
structure Holds (z : α) (r : RingBuffer α cap) (hist : List (α → α)) : Prop where
  /-- The number of used slots. -/
  count : r.count = min cap hist.length
  /-- Their contents, and those of the slots not used yet. -/
  slot : ∀ i < cap, r.slot (r.back i) = replay cap z hist i

theorem holds_init (z : α) (hcap : 0 < cap) :
    Holds z (RingBuffer.init z hcap : RingBuffer α cap) [] where
  count := by rw [List.length_nil, Nat.min_zero]; rfl
  slot i _ := by rw [slot_init, replay_of_ge (Nat.zero_le _)]

/-- **A write keeps ring and history together.** -/
theorem Holds.push {z : α} {r : RingBuffer α cap} {hist : List (α → α)} (h : Holds z r hist)
    (w : α → α) : Holds z (r.push w) (w :: hist) where
  count := by rw [count_push, h.count, List.length_cons]; omega
  slot i hi := by
    have hcap : 0 < cap := r.head.pos
    cases i with
    -- the slot just written: it was the last of the turn before
    | zero =>
      have hold := h.slot (cap - 1) (by omega)
      rw [back_last] at hold
      rw [replay_cons_zero hcap, ← hold, back_push_zero, slot_push_head]
    | succ i =>
      rw [replay_cons_succ hcap, ← h.slot i (by omega), back_push_succ r w hi,
        slot_push_of_ne r w (back_ne_head r hi)]

/-- **The newest entries are the newest writes**, each over what its slot held. -/
theorem Holds.latest_eq {z : α} {r : RingBuffer α cap} {hist : List (α → α)} (h : Holds z r hist)
    (m : ℕ) : r.latest m
      = (List.range (min m (min cap hist.length))).map (replay cap z hist) := by
  have hcount : (if m < r.count then m else r.count) = min m (min cap hist.length) := by
    have := h.count
    split_ifs <;> omega
  rw [latest, hcount]
  refine List.map_congr_left fun i hi => ?_
  rw [List.mem_range] at hi
  exact h.slot i (by omega)

/-- What every write establishes, whatever it goes over, holds of every entry shown. -/
theorem Holds.forall₂_latest {z : α} {r : RingBuffer α cap} {hist : List ι} {write : ι → α → α}
    (h : Holds z r (hist.map write)) {R : ι → α → Prop} (hR : ∀ a old, R a (write a old))
    (m : ℕ) : List.Forall₂ R (hist.take (min m cap)) (r.latest m) := by
  rw [h.latest_eq, List.length_map, List.forall₂_iff_get]
  refine ⟨by rw [List.length_take, List.length_map, List.length_range]; omega, fun i h₁ h₂ => ?_⟩
  have hi : i < hist.length := by rw [List.length_take] at h₁; omega
  simp only [List.get_eq_getElem, List.getElem_take, List.getElem_map, List.getElem_range]
  rw [replay_of_lt r.head.pos (by rwa [List.length_map]), List.getElem_map]
  exact hR _ _

end RingBuffer
