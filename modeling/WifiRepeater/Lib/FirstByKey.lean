import Mathlib.Data.List.Nodup

/-!
# The first element of every key

A pass over a list that drops whatever has a key it has met before.  What it keeps is the
first element of every key, which need not be the best of them.

## Main definitions

* `firstsFrom key seen l` — the elements kept, when the keys `seen` have been met already.

## Main results

* `mem_firstsFrom_iff` — what is kept.
* `nodup_map_firstsFrom`, `mem_map_firstsFrom_iff` — every key once.
* `firsts_best_iff` — **when the elements kept are the best of their keys.**
* `firsts_best_of_sorted` — they are in a list that has the best first.
-/

variable {α κ β : Type*} [DecidableEq κ]

/-- The elements of a list whose key has not been met before, `seen` being the keys met
so far. -/
def firstsFrom (key : α → κ) : List κ → List α → List α
  | _, [] => []
  | seen, a :: l =>
      if key a ∈ seen then firstsFrom key seen l else a :: firstsFrom key (seen ++ [key a]) l

variable {key : α → κ}

/-- **What is kept**: the first element of each key that is new. -/
theorem mem_firstsFrom_iff {a : α} : ∀ {l : List α} {seen : List κ}, a ∈ firstsFrom key seen l ↔
    key a ∉ seen ∧ l.find? (fun b => key b = key a) = some a := by
  intro l
  induction l with
  | nil => intro seen; simp [firstsFrom]
  | cons b l ih =>
    intro seen
    rw [firstsFrom]
    by_cases hb : key b ∈ seen
    · rw [if_pos hb, ih]
      refine and_congr_right fun ha => ?_
      rw [List.find?_cons_of_neg (by simpa using fun h : key b = key a => ha (h ▸ hb))]
    · rw [if_neg hb, List.mem_cons, ih, List.mem_append, List.mem_singleton, not_or]
      by_cases hkey : key b = key a
      · rw [List.find?_cons_of_pos (by simpa using hkey), Option.some.injEq]
        constructor
        · rintro (rfl | ⟨⟨-, hne⟩, -⟩)
          · exact ⟨hb, rfl⟩
          · exact absurd hkey.symm hne
        · rintro ⟨-, rfl⟩
          exact .inl rfl
      · rw [List.find?_cons_of_neg (by simpa using hkey)]
        constructor
        · rintro (rfl | ⟨⟨ha, -⟩, hfind⟩)
          · exact absurd rfl hkey
          · exact ⟨ha, hfind⟩
        · rintro ⟨ha, hfind⟩
          exact .inr ⟨⟨ha, fun h => hkey h.symm⟩, hfind⟩

/-- What is kept was in the list. -/
theorem mem_of_mem_firstsFrom {a : α} {l : List α} {seen : List κ}
    (h : a ∈ firstsFrom key seen l) : a ∈ l :=
  List.mem_of_find?_eq_some (mem_firstsFrom_iff.mp h).2

/-- Every key that is new is kept. -/
theorem mem_map_firstsFrom_iff {k : κ} {l : List α} {seen : List κ} :
    k ∈ (firstsFrom key seen l).map key ↔ k ∉ seen ∧ k ∈ l.map key := by
  simp only [List.mem_map]
  constructor
  · rintro ⟨a, ha, rfl⟩
    exact ⟨(mem_firstsFrom_iff.mp ha).1, a, mem_of_mem_firstsFrom ha, rfl⟩
  · rintro ⟨hk, b, hb, rfl⟩
    have hsome : (l.find? fun a => key a = key b).isSome := by
      rw [List.find?_isSome]
      exact ⟨b, hb, by simp⟩
    obtain ⟨a, ha⟩ := Option.isSome_iff_exists.mp hsome
    have hkey : key a = key b := by simpa using List.find?_some ha
    exact ⟨a, mem_firstsFrom_iff.mpr ⟨hkey ▸ hk, hkey ▸ ha⟩, hkey⟩

/-- And no key twice. -/
theorem nodup_map_firstsFrom : ∀ (l : List α) (seen : List κ),
    ((firstsFrom key seen l).map key).Nodup := by
  intro l
  induction l with
  | nil => intro seen; simp [firstsFrom]
  | cons a l ih =>
    intro seen
    rw [firstsFrom]
    split_ifs with ha
    · exact ih seen
    · rw [List.map_cons, List.nodup_cons, mem_map_firstsFrom_iff]
      exact ⟨fun h => h.1 (by simp), ih _⟩

/-- **When the elements kept are the best of their keys**: when no element is better than
the first one of its key. -/
theorem firsts_best_iff [LE β] {value : α → β} {l : List α} :
    (∀ a ∈ firstsFrom key [] l, ∀ b ∈ l, key b = key a → value b ≤ value a) ↔
      ∀ b ∈ l, ∀ a ∈ l.find? (fun a => key a = key b), value b ≤ value a := by
  constructor
  · intro h b hb a ha
    have hkey : key a = key b := by simpa using List.find?_some ha
    exact h a (mem_firstsFrom_iff.mpr ⟨List.not_mem_nil, hkey ▸ ha⟩) b hb hkey.symm
  · intro h a ha b hb hkey
    exact h b hb a (hkey ▸ (mem_firstsFrom_iff.mp ha).2)

/-- In a list that has the best elements first they are. -/
theorem firsts_best_of_sorted [LE β] {value : α → β} {l : List α} (hrefl : ∀ b : β, b ≤ b)
    (h : l.Pairwise fun a b => value b ≤ value a) :
    ∀ a ∈ firstsFrom key [] l, ∀ b ∈ l, key b = key a → value b ≤ value a := by
  intro a ha b hb hkey
  obtain ⟨-, before, after, rfl, hbefore⟩ :=
    List.find?_eq_some_iff_append.mp (mem_firstsFrom_iff.mp ha).2
  rw [List.mem_append, List.mem_cons] at hb
  rcases hb with hb | rfl | hb
  · exact absurd hkey (by simpa using hbefore b hb)
  · exact hrefl _
  · exact (List.pairwise_cons.mp (List.pairwise_append.mp h).2.1).1 b hb
