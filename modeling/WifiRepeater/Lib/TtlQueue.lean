import Mathlib.Data.List.Nodup
import Mathlib.Data.List.Perm.Subperm
import Mathlib.Data.Option.Basic
import Mathlib.Order.Lattice

/-!
# Bounded queues whose entries run out

A cache with a fixed number of slots, a deadline on each entry and the policy *reuse a
slot that is empty or has run out, else the one with the nearest deadline* behaves like
a queue: it answers for the last `cap` entries stored, each up to its deadline.  The
slots themselves are in no order, so the abstraction is an invariant between the slots
and the list of all stores, newest first.

## Main definitions

* `Entry` — a key, a value and a deadline.
* `Answers cap h k t v` — the queue answers `v` for `k` at time `t`.
* `Refines cap slots h t` — the slots hold what the queue answers from.
* `slotLookup` — search the slots in order, dropping an entry found to have run out.
* `Choice` — which slot the policy may reuse.

## Main results

* `slotLookup_eq_some_iff` — **a lookup answers what the queue answers.**
* `Refines.store` — **reusing a slot by the policy stores into the queue.**
-/

namespace TtlQueue

variable {κ ν τ : Type*}

/-- A stored value under its key, good until its deadline. -/
structure Entry (κ ν τ : Type*) where
  /-- The key. -/
  key : κ
  /-- The value. -/
  value : ν
  /-- The last time at which the entry is answered. -/
  deadline : τ

variable [LinearOrder τ]

/-- The queue answers from its `cap` newest entries, each up to its deadline. -/
def Answers (cap : ℕ) (h : List (Entry κ ν τ)) (k : κ) (t : τ) (v : ν) : Prop :=
  ∃ e ∈ h.take cap, e.key = k ∧ t ≤ e.deadline ∧ e.value = v

/-- A slot that can still answer. -/
def Live (t : τ) : Option (Entry κ ν τ) → Prop
  | none => False
  | some e => t ≤ e.deadline

/-- The slots stand for the history `h` at time `t`. -/
structure Refines (cap : ℕ) (slots : List (Option (Entry κ ν τ)))
    (h : List (Entry κ ν τ)) (t : τ) : Prop where
  /-- There are `cap` slots. -/
  size : slots.length = cap
  /-- No key is in two slots. -/
  keys : ∀ (i j : ℕ) (e e' : Entry κ ν τ), slots[i]? = some (some e) →
    slots[j]? = some (some e') → e.key = e'.key → i = j
  /-- What is live is recent. -/
  recent : ∀ e, some e ∈ slots → t ≤ e.deadline → e ∈ h.take cap
  /-- What is recent and has time left is in a slot. -/
  kept : ∀ e ∈ h.take cap, t ≤ e.deadline → some e ∈ slots
  /-- Newer entries have later deadlines. -/
  order : h.Pairwise fun e e' => e'.deadline < e.deadline

/-- The slot the policy reuses: one that is not live, or, when all are, one with the
nearest deadline. -/
def Choice (slots : List (Option (Entry κ ν τ))) (t : τ) (i : ℕ) : Prop :=
  (∃ s, slots[i]? = some s ∧ ¬Live t s) ∨
    ((∀ s ∈ slots, Live t s) ∧ ∃ e, slots[i]? = some (some e) ∧
      ∀ e', some e' ∈ slots → e.deadline ≤ e'.deadline)

/-! ### Slots by their index -/

/-- The slots other than `i`. -/
theorem mem_eraseIdx_iff {α : Type*} {l : List α} {i : ℕ} {a : α} :
    a ∈ l.eraseIdx i ↔ ∃ j, j ≠ i ∧ l[j]? = some a := by
  constructor
  · intro hm
    obtain ⟨j, hj, hne, hget⟩ := List.mem_eraseIdx_iff_getElem.mp hm
    exact ⟨j, by omega, by rw [List.getElem?_eq_getElem hj, hget]⟩
  · rintro ⟨j, hne, hget⟩
    obtain ⟨hj, hget⟩ := List.getElem?_eq_some_iff.mp hget
    exact List.mem_eraseIdx_iff_getElem.mpr ⟨j, hj, by omega, hget⟩

/-- A slot written, and the others. -/
theorem mem_set_iff {α : Type*} {l : List α} {i : ℕ} (hi : i < l.length) {a b : α} :
    a ∈ l.set i b ↔ a = b ∨ a ∈ l.eraseIdx i := by
  rw [mem_eraseIdx_iff, List.mem_iff_getElem?]
  constructor
  · rintro ⟨j, hj⟩
    by_cases hji : i = j
    · rw [hji, List.getElem?_set_self (by omega), Option.some.injEq] at hj
      exact Or.inl hj.symm
    · rw [List.getElem?_set_ne hji] at hj
      exact Or.inr ⟨j, fun h => hji h.symm, hj⟩
  · rintro (rfl | ⟨j, hne, hj⟩)
    · exact ⟨i, List.getElem?_set_self hi⟩
    · exact ⟨j, by rw [List.getElem?_set_ne (fun h => hne h.symm), hj]⟩

/-! ### The invariant -/

namespace Refines

variable {cap : ℕ} {slots : List (Option (Entry κ ν τ))} {h : List (Entry κ ν τ)} {t t' : τ}

/-- As time passes fewer entries are live, so the slots keep standing for the
history. -/
theorem mono (hr : Refines cap slots h t) (ht : t ≤ t') : Refines cap slots h t' where
  size := hr.size
  keys := hr.keys
  recent e he hd := hr.recent e he (ht.trans hd)
  kept e he hd := hr.kept e he (ht.trans hd)
  order := hr.order

/-- Empty slots stand for no history. -/
theorem empty (hsize : slots.length = cap) (hnone : ∀ s ∈ slots, s = none) (t : τ) :
    Refines cap slots ([] : List (Entry κ ν τ)) t where
  size := hsize
  keys i j e e' hi _ _ := by simpa using hnone _ (List.mem_of_getElem? hi)
  recent e he _ := by simpa using hnone _ he
  kept e he _ := by simp at he
  order := List.Pairwise.nil

theorem nodup_history (hr : Refines cap slots h t) : h.Nodup :=
  hr.order.imp fun hlt heq => absurd (heq ▸ hlt) (lt_irrefl _)

/-- Equal keys are in the same slot, so an entry is in one slot only. -/
theorem index_unique (hr : Refines cap slots h t) {i j : ℕ} {e : Entry κ ν τ}
    (hi : slots[i]? = some (some e)) (hj : slots[j]? = some (some e)) : i = j :=
  hr.keys i j e e hi hj rfl

/-- All of the last `cap` entries cannot be live in the slots other than one. -/
theorem not_full_of_eraseIdx (hr : Refines cap slots h t) {i : ℕ} (hi : i < slots.length)
    (hlen : cap ≤ h.length) :
    ¬∀ e ∈ h.take cap, some e ∈ slots.eraseIdx i := by
  intro hall
  have hnodup : ((h.take cap).map some).Nodup :=
    (hr.nodup_history.sublist (List.take_sublist _ _)).map (Option.some_injective _)
  have hsub : (h.take cap).map some ⊆ slots.eraseIdx i := by
    intro s hs
    obtain ⟨e, he, rfl⟩ := List.mem_map.mp hs
    exact hall e he
  -- distinct entries in distinct slots: `cap` of them do not fit into `cap - 1`
  have hle := (List.subperm_of_subset hnodup hsub).length_le
  have := hr.size
  rw [List.length_map, List.length_take, List.length_eraseIdx, if_pos hi] at hle
  omega

omit [LinearOrder τ] in
/-- An entry of the last `cap` is among the last `cap - 1`, or it is the oldest of
them. -/
theorem mem_take_pred_or {e : Entry κ ν τ} (he : e ∈ h.take cap) :
    e ∈ h.take (cap - 1) ∨ h[cap - 1]? = some e := by
  obtain ⟨j, hj, hget⟩ := List.mem_iff_getElem.mp he
  rw [List.length_take] at hj
  rw [List.getElem_take] at hget
  rcases Nat.lt_or_ge j (cap - 1) with hlt | hge
  · left
    rw [← hget]
    exact List.mem_take_iff_getElem.mpr ⟨j, by omega, rfl⟩
  · right
    have hj' : j = cap - 1 := by omega
    rw [← hj', List.getElem?_eq_getElem (by omega), hget]

/-- The oldest of the last `cap` entries is no newer than any of them. -/
theorem oldest_le (hr : Refines cap slots h t) {o e : Entry κ ν τ}
    (ho : h[cap - 1]? = some o) (he : e ∈ h.take cap) : e = o ∨ o.deadline < e.deadline := by
  obtain ⟨hlt, hget⟩ := List.getElem?_eq_some_iff.mp ho
  obtain ⟨j, hj, hje⟩ := List.mem_iff_getElem.mp he
  rw [List.length_take] at hj
  rw [List.getElem_take] at hje
  rcases Nat.lt_or_ge j (cap - 1) with hjlt | hge
  · right
    have := List.pairwise_iff_getElem.mp hr.order j (cap - 1) (by omega) hlt hjlt
    rwa [hget, hje] at this
  · left
    have hj' : j = cap - 1 := by omega
    subst hj'
    rw [← hje, hget]

/-- Being among the last `cap - 1` excludes being the oldest of the last `cap`. -/
theorem notMem_take_pred (hr : Refines cap slots h t) {o : Entry κ ν τ}
    (ho : h[cap - 1]? = some o) : o ∉ h.take (cap - 1) := by
  intro hmem
  obtain ⟨hlt, hget⟩ := List.getElem?_eq_some_iff.mp ho
  obtain ⟨j, hj, hje⟩ := List.mem_iff_getElem.mp hmem
  rw [List.length_take] at hj
  rw [List.getElem_take] at hje
  have := List.pairwise_iff_getElem.mp hr.order j (cap - 1) (by omega) hlt (by omega)
  rw [hget, hje] at this
  exact lt_irrefl _ this

/-- When every slot is live, the slots hold exactly the last `cap` entries. -/
theorem mem_slots_of_all_live (hr : Refines cap slots h t) (hall : ∀ s ∈ slots, Live t s) :
    cap ≤ h.length ∧ ∀ e ∈ h.take cap, some e ∈ slots := by
  have hnodup : slots.Nodup := by
    rw [List.nodup_iff_getElem?_ne_getElem?]
    intro i j hij hj heq
    have hs := hall _ (List.getElem_mem hj)
    cases hsj : slots[j] with
    | none => rw [hsj] at hs; exact hs
    | some e =>
      have hj' : slots[j]? = some (some e) := by rw [List.getElem?_eq_getElem hj, hsj]
      exact absurd (hr.index_unique (heq.trans hj') hj') (by omega)
  -- `cap` distinct live slots inside the last `cap` entries: there is no room for a difference
  have hsub : slots ⊆ (h.take cap).map some := by
    intro s hs
    have hlive := hall s hs
    cases s with
    | none => exact absurd hlive id
    | some e => exact List.mem_map_of_mem (hr.recent e hs hlive)
  have hsp := List.subperm_of_subset hnodup hsub
  have hle := hsp.length_le
  have hsize := hr.size
  rw [List.length_map, List.length_take] at hle
  have hperm := hsp.perm_of_length_le (by rw [List.length_map, List.length_take]; omega)
  refine ⟨by omega, fun e he => ?_⟩
  exact hperm.mem_iff.mpr (List.mem_map_of_mem he)

/-- **What the policy keeps**: the live entries outside the reused slot are those among
the last `cap - 1`. -/
theorem mem_eraseIdx_choice (hr : Refines cap slots h t) {i : ℕ} (hc : Choice slots t i)
    {e : Entry κ ν τ} (hlive : t ≤ e.deadline) :
    some e ∈ slots.eraseIdx i ↔ e ∈ h.take (cap - 1) := by
  have htake : ∀ e ∈ h.take (cap - 1), e ∈ h.take cap := fun e he =>
    (List.take_sublist_take_left (by omega)).subset he
  rcases hc with ⟨s, hs, hdead⟩ | ⟨hall, o, ho, hmin⟩
  · -- a slot that is not live is reused
    have hi : i < slots.length := (List.getElem?_eq_some_iff.mp hs).1
    have hother : ∀ e, t ≤ e.deadline → some e ∈ slots → some e ∈ slots.eraseIdx i := by
      intro e hd he
      obtain ⟨j, hj⟩ := List.mem_iff_getElem?.mp he
      refine mem_eraseIdx_iff.mpr ⟨j, ?_, hj⟩
      rintro rfl
      rw [hs, Option.some.injEq] at hj
      rw [hj] at hdead
      exact hdead hd
    constructor
    · intro he
      rcases mem_take_pred_or (hr.recent e (List.mem_of_mem_eraseIdx he) hlive) with h1 | h1
      · exact h1
      · -- the oldest of the last `cap` is live: then all of them are, one too many
        exfalso
        have hlen := (List.getElem?_eq_some_iff.mp h1).1
        refine hr.not_full_of_eraseIdx hi (by omega) fun e' he' => ?_
        have hd' : t ≤ e'.deadline := by
          rcases hr.oldest_le h1 he' with rfl | hlt
          · exact hlive
          · exact hlive.trans hlt.le
        exact hother e' hd' (hr.kept e' he' hd')
    · intro he
      exact hother e hlive (hr.kept e (htake e he) hlive)
  · -- all slots are live: the oldest entry gives way
    obtain ⟨hlen, hsub⟩ := hr.mem_slots_of_all_live hall
    have hi : i < slots.length := (List.getElem?_eq_some_iff.mp ho).1
    have hsize := hr.size
    -- the slot chosen has the nearest deadline, and deadlines are in the order of the history
    have hold : h[cap - 1]? = some o := by
      have hlt : cap - 1 < h.length := by omega
      have hoc := hr.recent o (List.mem_of_getElem? ho) (hall _ (List.mem_of_getElem? ho))
      have hlast : h[cap - 1] ∈ h.take cap := List.mem_take_iff_getElem.mpr ⟨cap - 1, by omega, rfl⟩
      rcases hr.oldest_le (List.getElem?_eq_getElem hlt) hoc with heq | hlt'
      · rw [heq, List.getElem?_eq_getElem hlt]
      · exact absurd (hmin _ (hsub _ hlast)) (not_le.mpr hlt')
    constructor
    · intro he
      rcases mem_take_pred_or (hr.recent e (List.mem_of_mem_eraseIdx he) hlive) with h1 | h1
      · exact h1
      · rw [hold, Option.some.injEq] at h1
        obtain ⟨j, hne, hj⟩ := mem_eraseIdx_iff.mp he
        exact absurd (hr.index_unique hj (h1 ▸ ho)) hne
    · intro he
      obtain ⟨j, hj⟩ := List.mem_iff_getElem?.mp (hsub e (htake e he))
      refine mem_eraseIdx_iff.mpr ⟨j, ?_, hj⟩
      rintro rfl
      rw [ho, Option.some.injEq, Option.some.injEq] at hj
      exact hr.notMem_take_pred hold (hj ▸ he)

theorem choice_lt {i : ℕ} (hc : Choice slots t i) : i < slots.length := by
  rcases hc with ⟨s, hs, -⟩ | ⟨-, e, he, -⟩
  · exact (List.getElem?_eq_some_iff.mp hs).1
  · exact (List.getElem?_eq_some_iff.mp he).1

/-- **Reusing a slot by the policy stores into the queue**, when no slot holds the new
key and the new deadline is the latest. -/
theorem store (hr : Refines cap slots h t) {i : ℕ} (hc : Choice slots t i) {e : Entry κ ν τ}
    (hkey : ∀ e', some e' ∈ slots → e'.key ≠ e.key)
    (hnew : ∀ e' ∈ h, e'.deadline < e.deadline) :
    Refines cap (slots.set i (some e)) (e :: h) t := by
  have hi := choice_lt hc
  have hsize := hr.size
  obtain ⟨n, hn⟩ : ∃ n, cap = n + 1 := ⟨cap - 1, by omega⟩
  have htake : (e :: h).take cap = e :: h.take (cap - 1) := by rw [hn]; rfl
  refine ⟨by simpa using hr.size, ?_, ?_, ?_, List.pairwise_cons.mpr ⟨hnew, hr.order⟩⟩
  -- no key twice
  · intro a b x x' ha hb hxx
    by_cases hai : i = a <;> by_cases hbi : i = b
    · exact hai.symm.trans hbi
    · rw [← hai, List.getElem?_set_self hi, Option.some.injEq, Option.some.injEq] at ha
      rw [List.getElem?_set_ne hbi] at hb
      exact absurd (hxx.symm.trans (ha ▸ rfl)) (hkey x' (List.mem_of_getElem? hb))
    · rw [← hbi, List.getElem?_set_self hi, Option.some.injEq, Option.some.injEq] at hb
      rw [List.getElem?_set_ne hai] at ha
      exact absurd (hxx.trans (hb ▸ rfl)) (hkey x (List.mem_of_getElem? ha))
    · rw [List.getElem?_set_ne hai] at ha
      rw [List.getElem?_set_ne hbi] at hb
      exact hr.keys a b x x' ha hb hxx
  -- what is live is recent
  · intro x hx hd
    rw [htake, List.mem_cons]
    rcases (mem_set_iff hi).mp hx with heq | hx
    · exact Or.inl (Option.some.inj heq)
    · exact Or.inr ((hr.mem_eraseIdx_choice hc hd).mp hx)
  -- what is recent and has time left is in a slot
  · intro x hx hd
    rw [htake, List.mem_cons] at hx
    rcases hx with rfl | hx
    · exact (mem_set_iff hi).mpr (Or.inl rfl)
    · exact (mem_set_iff hi).mpr (Or.inr ((hr.mem_eraseIdx_choice hc hd).mpr hx))

end Refines

/-! ### Searching the slots -/

section Lookup

variable [DecidableEq κ]

/-- Search in order for the key; an entry found to have run out is dropped and nothing
is answered. -/
def slotLookup (k : κ) (t : τ) :
    List (Option (Entry κ ν τ)) → Option ν × List (Option (Entry κ ν τ))
  | [] => (none, [])
  | none :: ss => ((slotLookup k t ss).1, none :: (slotLookup k t ss).2)
  | some e :: ss =>
      if e.key = k then
        if e.deadline < t then (none, none :: ss) else (some e.value, some e :: ss)
      else ((slotLookup k t ss).1, some e :: (slotLookup k t ss).2)

/-- What a search does, when the key is in no slot and when it is in one. -/
theorem slotLookup_cases (k : κ) (t : τ) : ∀ slots : List (Option (Entry κ ν τ)),
    ((∀ e, some e ∈ slots → e.key ≠ k) ∧ slotLookup k t slots = (none, slots)) ∨
      ∃ i e, slots[i]? = some (some e) ∧ e.key = k ∧
        slotLookup k t slots
          = if e.deadline < t then (none, slots.set i none) else (some e.value, slots) := by
  intro slots
  induction slots with
  | nil => exact Or.inl ⟨by simp, rfl⟩
  | cons s ss ih =>
    -- only the first slot with the key is looked at
    by_cases hk : ∃ e, s = some e ∧ e.key = k
    · obtain ⟨e, rfl, hek⟩ := hk
      exact Or.inr ⟨0, e, rfl, hek, by simp [slotLookup, hek]⟩
    · have hskip : slotLookup k t (s :: ss)
          = ((slotLookup k t ss).1, s :: (slotLookup k t ss).2) := by
        cases s with
        | none => rfl
        | some e => rw [slotLookup, if_neg fun h => hk ⟨e, rfl, h⟩]
      rcases ih with ⟨hno, heq⟩ | ⟨i, e, hi, hek, heq⟩
      · refine Or.inl ⟨?_, by rw [hskip, heq]⟩
        intro e he hek
        rcases List.mem_cons.mp he with h | h
        · exact hk ⟨e, h.symm, hek⟩
        · exact hno e h hek
      · refine Or.inr ⟨i + 1, e, by simpa using hi, hek, ?_⟩
        rw [hskip, heq]
        split <;> simp

variable {cap : ℕ} {slots : List (Option (Entry κ ν τ))} {h : List (Entry κ ν τ)} {t : τ}

/-- **A lookup answers what the queue answers.** -/
theorem slotLookup_eq_some_iff (hr : Refines cap slots h t) (k : κ) (v : ν) :
    (slotLookup k t slots).1 = some v ↔ Answers cap h k t v := by
  rcases slotLookup_cases k t slots with ⟨hno, heq⟩ | ⟨i, e, hi, hek, heq⟩
  · rw [heq]
    simp only [reduceCtorEq, false_iff]
    rintro ⟨e, he, hek, hd, -⟩
    exact hno e (hr.kept e he hd) hek
  · rw [heq]
    split
    · next hlt =>
      simp only [reduceCtorEq, false_iff]
      rintro ⟨e', he', hek', hd', -⟩
      obtain ⟨j, hj⟩ := List.mem_iff_getElem?.mp (hr.kept e' he' hd')
      obtain rfl := hr.keys i j e e' hi hj (hek.trans hek'.symm)
      rw [hi, Option.some.injEq, Option.some.injEq] at hj
      rw [hj] at hlt
      exact absurd hd' (not_le.mpr hlt)
    · next hge =>
      have hd : t ≤ e.deadline := not_lt.mp hge
      simp only [Option.some.injEq]
      constructor
      · rintro rfl
        exact ⟨e, hr.recent e (List.mem_of_getElem? hi) hd, hek, hd, rfl⟩
      · rintro ⟨e', he', hek', hd', rfl⟩
        obtain ⟨j, hj⟩ := List.mem_iff_getElem?.mp (hr.kept e' he' hd')
        obtain rfl := hr.keys i j e e' hi hj (hek.trans hek'.symm)
        rw [hi, Option.some.injEq, Option.some.injEq] at hj
        rw [hj]

/-- Dropping an entry that has run out loses nothing. -/
theorem Refines.lookup (hr : Refines cap slots h t) (k : κ) :
    Refines cap (slotLookup k t slots).2 h t := by
  rcases slotLookup_cases k t slots with ⟨-, heq⟩ | ⟨i, e, hi, hek, heq⟩
  · rw [heq]; exact hr
  · rw [heq]
    split
    · next hlt =>
      have hil := (List.getElem?_eq_some_iff.mp hi).1
      have hback : ∀ (j : ℕ) (x : Entry κ ν τ), (slots.set i none)[j]? = some (some x) →
          slots[j]? = some (some x) := by
        intro j x hx
        by_cases hij : i = j
        · rw [← hij, List.getElem?_set_self hil] at hx; simp at hx
        · rwa [List.getElem?_set_ne hij] at hx
      refine ⟨by simpa using hr.size, fun a b x x' ha hb => ?_, fun x hx => ?_,
        fun x hx hd => ?_, hr.order⟩
      · exact hr.keys a b x x' (hback a x ha) (hback b x' hb)
      · obtain ⟨j, hj⟩ := List.mem_iff_getElem?.mp hx
        exact hr.recent x (List.mem_of_getElem? (hback j x hj))
      · obtain ⟨j, hj⟩ := List.mem_iff_getElem?.mp (hr.kept x hx hd)
        refine (mem_set_iff hil).mpr (Or.inr (mem_eraseIdx_iff.mpr ⟨j, ?_, hj⟩))
        rintro rfl
        rw [hi, Option.some.injEq, Option.some.injEq] at hj
        rw [hj] at hlt
        exact absurd hd (not_le.mpr hlt)
    · exact hr

/-- After a lookup that answered nothing, no slot holds the key. -/
theorem slotLookup_miss (hr : Refines cap slots h t) {k : κ}
    (hmiss : (slotLookup k t slots).1 = none) :
    ∀ e, some e ∈ (slotLookup k t slots).2 → e.key ≠ k := by
  rcases slotLookup_cases k t slots with ⟨hno, heq⟩ | ⟨i, e, hi, hek, heq⟩
  · rw [heq]; exact hno
  · rw [heq] at hmiss ⊢
    split at hmiss
    · next hlt =>
      rw [if_pos hlt]
      intro x hx hxk
      have hil := (List.getElem?_eq_some_iff.mp hi).1
      rcases (mem_set_iff hil).mp hx with h0 | hx
      · simp at h0
      · obtain ⟨j, hne, hj⟩ := mem_eraseIdx_iff.mp hx
        exact hne (hr.keys j i x e hj hi (hxk.trans hek.symm))
    · simp at hmiss

end Lookup

end TtlQueue
