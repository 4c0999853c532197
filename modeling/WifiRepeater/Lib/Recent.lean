import Mathlib.Data.List.Induction
import Mathlib.Data.List.Nodup
import Mathlib.Order.Lattice

/-!
# Most-recently-used lists

A list of at most `n` elements, the newest first.  An element that is added goes to the
front and out of the place where it stood; what no longer fits falls off the end.  Such a
list forgets, and yet it is the front of the list that never forgets: an element that fell
off was older than all that are left, and so it is in neither front.

## Main definitions

* `Recent.push` — an addition.
* `Recent.distinct` — the distinct elements of a sequence of additions, newest first.

## Main results

* `Recent.foldl_push` — **after any additions to an empty list it is the front of the
  distinct ones.**
* `Recent.pairwise_distinct` — these are in the order of their last addition.
-/

namespace Recent

variable {α : Type*} [DecidableEq α]

/-- An addition to a list of at most `n` elements. -/
def push (n : ℕ) (a : α) (l : List α) : List α := (a :: l.filter (· ≠ a)).take n

/-- The distinct elements of a sequence of additions, the newest first. -/
def distinct (adds : List α) : List α := adds.reverse.eraseDups

/-- How many additions ago an element was last added. -/
def age (adds : List α) (a : α) : ℕ := adds.reverse.idxOf a

theorem length_push_le (n : ℕ) (a : α) (l : List α) : (push n a l).length ≤ n :=
  List.length_take_le _ _

/-! ### The distinct elements -/

theorem mem_distinct {adds : List α} {a : α} : a ∈ distinct adds ↔ a ∈ adds := by
  rw [distinct, List.mem_eraseDups, List.mem_reverse]

/-- Filtering commutes with leaving out the duplicates. -/
theorem eraseDups_filter (p : α → Bool) (l : List α) :
    (l.filter p).eraseDups = l.eraseDups.filter p := by
  -- the recursion leaves the head out of the whole tail, so it is on the length
  induction h : l.length using Nat.strongRecOn generalizing l with
  | ind n ih =>
    cases l with
    | nil => rfl
    | cons a l =>
      have hlen : (l.filter fun b => !b == a).length < n := by
        rw [← h, List.length_cons]
        exact Nat.lt_succ_of_le (List.length_filter_le _ _)
      have htail := ih _ hlen (l.filter fun b => !b == a) rfl
      rw [List.eraseDups_cons, List.filter_cons, List.filter_cons, ← htail]
      by_cases ha : p a = true
      · rw [if_pos ha, if_pos ha, List.eraseDups_cons, List.filter_filter, List.filter_filter]
        simp only [Bool.and_comm]
      · rw [if_neg ha, if_neg ha, List.filter_filter]
        -- an element that passes is not the head, which does not
        refine congrArg _ (List.filter_congr fun b _ => ?_)
        by_cases hb : b = a
        · simp [hb, ha]
        · simp [hb]

/-- What an addition does to the distinct elements. -/
theorem distinct_snoc (adds : List α) (a : α) :
    distinct (adds ++ [a]) = a :: (distinct adds).filter (· ≠ a) := by
  rw [distinct, List.reverse_append, List.reverse_singleton, List.singleton_append,
    List.eraseDups_cons, eraseDups_filter]
  refine congrArg _ (List.filter_congr fun b _ => ?_)
  by_cases hb : b = a <;> simp [hb]

theorem nodup_distinct (adds : List α) : (distinct adds).Nodup := by
  induction adds using List.reverseRecOn with
  | nil => exact List.nodup_nil
  | append_singleton adds a ih =>
    rw [distinct_snoc]
    exact List.nodup_cons.mpr ⟨by simp, ih.filter _⟩

theorem age_snoc_self (adds : List α) (a : α) : age (adds ++ [a]) a = 0 := by
  rw [age, List.reverse_append, List.reverse_singleton, List.singleton_append, List.idxOf_cons_self]

theorem age_snoc_of_ne (adds : List α) {a b : α} (h : b ≠ a) :
    age (adds ++ [a]) b = age adds b + 1 := by
  rw [age, List.reverse_append, List.reverse_singleton, List.singleton_append,
    List.idxOf_cons_ne _ h.symm, age]

/-- **The newest first**: the distinct elements are in the order of their last addition. -/
theorem pairwise_distinct (adds : List α) :
    (distinct adds).Pairwise fun a b => age adds a < age adds b := by
  induction adds using List.reverseRecOn with
  | nil => exact List.Pairwise.nil
  | append_singleton adds a ih =>
    have hne : ∀ b ∈ (distinct adds).filter (· ≠ a), b ≠ a := by
      intro b hb
      simpa using (List.mem_filter.mp hb).2
    rw [distinct_snoc]
    refine List.pairwise_cons.mpr ⟨fun b hb => ?_, (ih.filter _).imp_of_mem fun hb hc hlt => ?_⟩
    · rw [age_snoc_self, age_snoc_of_ne adds (hne b hb)]
      exact Nat.succ_pos _
    · rw [age_snoc_of_ne adds (hne _ hb), age_snoc_of_ne adds (hne _ hc)]
      exact Nat.succ_lt_succ hlt

/-! ### The front of them -/

/-- Leaving one element out of the front: when the front was one longer, nothing is
missing, for it held the element once at most. -/
theorem take_filter_take {l : List α} (hl : l.Nodup) (a : α) (n : ℕ) :
    ((l.take (n + 1)).filter (· ≠ a)).take n = (l.filter (· ≠ a)).take n := by
  induction l generalizing n with
  | nil => rfl
  | cons b l ih =>
    obtain ⟨hb, hl⟩ := List.nodup_cons.mp hl
    rw [List.take_succ_cons]
    by_cases hba : b = a
    · -- the rest does not hold it again
      have hrest : ∀ m : List α, m ⊆ l → m.filter (· ≠ a) = m := fun m hm =>
        List.filter_eq_self.mpr fun c hc => by
          have : c ≠ a := fun heq => hb (hba ▸ heq ▸ hm hc)
          simpa using this
      rw [List.filter_cons_of_neg (by simpa using hba),
        List.filter_cons_of_neg (by simpa using hba),
        hrest _ (List.take_subset _ _), hrest _ (List.Subset.refl l), List.take_take, min_self]
    · rw [List.filter_cons_of_pos (by simpa using hba),
        List.filter_cons_of_pos (by simpa using hba)]
      cases n with
      | zero => rfl
      | succ n => rw [List.take_succ_cons, List.take_succ_cons, ih hl n]

/-- **What fell off is not missed**: an addition to the front of a list is the front of an
addition to the list. -/
theorem push_take {l : List α} (hl : l.Nodup) (a : α) (n : ℕ) :
    push n a (l.take n) = push n a l := by
  unfold push
  cases n with
  | zero => rfl
  | succ n => rw [List.take_succ_cons, List.take_succ_cons, take_filter_take hl a n]

/-- **A run of additions** to an empty list leaves the front of the distinct ones. -/
theorem foldl_push (n : ℕ) (adds : List α) :
    adds.foldl (fun l a => push n a l) [] = (distinct adds).take n := by
  induction adds using List.reverseRecOn with
  | nil => exact List.take_nil.symm
  | append_singleton adds a ih =>
    rw [List.foldl_append, List.foldl_cons, List.foldl_nil, ih, push_take (nodup_distinct adds),
      push, distinct_snoc]

end Recent
