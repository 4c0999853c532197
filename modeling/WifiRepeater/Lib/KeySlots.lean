import Mathlib.Data.Finmap

/-!
# Maps kept in a fixed number of slots

A table of slots, each free or holding one entry, is a small map: an entry is found by
its key, a new one goes to the first free slot, and when there is none it is dropped.
The map behind such a table is a `Finmap` that takes a new key only while it has fewer
keys than the table has slots.

## Main definitions

* `updateFirst` — the first element that satisfies a test, written over.
* `KeySlots.assign`, `KeySlots.release`, `KeySlots.lookup` — the operations of a table.
* `KeySlots.Represents` — a table in which no key stands twice, and its map.
* `Finmap.capInsert` — insertion into a map of limited size.

## Main results

* `KeySlots.Represents.assign`, `KeySlots.Represents.release` — **the operations are
  insertion and removal.**
* `KeySlots.Represents.lookup` — a table is searched as its map is.
-/

/-! ### The first element that satisfies a test -/

section UpdateFirst

variable {α β : Type*}

/-- The first element that satisfies `p`, written over by `f`; `none` when there is
none. -/
def updateFirst (p : α → Bool) (f : α → α) : List α → Option (List α)
  | [] => none
  | a :: l => if p a then some (f a :: l) else (updateFirst p f l).map (a :: ·)

theorem updateFirst_eq_none_iff {p : α → Bool} {f : α → α} {l : List α} :
    updateFirst p f l = none ↔ ∀ a ∈ l, p a = false := by
  induction l with
  | nil => simp [updateFirst]
  | cons a l ih =>
    rw [updateFirst, List.forall_mem_cons]
    cases hp : p a with
    | true => simp
    | false => rw [if_neg (by simp), Option.map_eq_none_iff, ih]; simp

/-- What is written over stands somewhere in the list, and nothing else changes. -/
theorem exists_of_updateFirst_eq_some {p : α → Bool} {f : α → α} {l l' : List α}
    (h : updateFirst p f l = some l') :
    ∃ l₁ a l₂, l = l₁ ++ a :: l₂ ∧ p a = true ∧ l' = l₁ ++ f a :: l₂ := by
  induction l generalizing l' with
  | nil => exact absurd h (by simp [updateFirst])
  | cons a l ih =>
    rw [updateFirst] at h
    cases hp : p a with
    | true =>
      rw [if_pos hp, Option.some.injEq] at h
      exact ⟨[], a, l, rfl, hp, h.symm⟩
    | false =>
      rw [if_neg (by simp [hp]), Option.map_eq_some_iff] at h
      obtain ⟨l'', hl'', rfl⟩ := h
      obtain ⟨l₁, b, l₂, rfl, hb, rfl⟩ := ih hl''
      exact ⟨a :: l₁, b, l₂, rfl, hb, rfl⟩

/-- The length stays. -/
theorem length_of_updateFirst_eq_some {p : α → Bool} {f : α → α} {l l' : List α}
    (h : updateFirst p f l = some l') : l'.length = l.length := by
  obtain ⟨l₁, a, l₂, rfl, -, rfl⟩ := exists_of_updateFirst_eq_some h
  simp

/-- The update of a list seen through `g`. -/
theorem updateFirst_map {p : α → Bool} {f : α → α} {q : β → Bool} {h : β → β} {g : α → β}
    {l : List α} (hp : ∀ a ∈ l, q (g a) = p a) (hf : ∀ a, h (g a) = g (f a)) :
    updateFirst q h (l.map g) = (updateFirst p f l).map (List.map g) := by
  induction l with
  | nil => rfl
  | cons a l ih =>
    rw [List.forall_mem_cons] at hp
    rw [List.map_cons, updateFirst, updateFirst, hp.1, ih hp.2]
    cases hpa : p a with
    | true => rw [if_pos rfl, if_pos rfl, hf a]; rfl
    | false =>
      rw [if_neg (by simp), if_neg (by simp), Option.map_map, Option.map_map]
      rfl

end UpdateFirst

/-- Insertion into a map that has room for `n` keys: a key it holds gets the new value,
a new key is dropped when there is no room. -/
def Finmap.capInsert {κ ν : Type*} [DecidableEq κ] (n : ℕ) (k : κ) (v : ν)
    (m : Finmap fun _ : κ => ν) : Finmap fun _ : κ => ν :=
  if k ∈ m ∨ m.keys.card < n then m.insert k v else m

theorem Finmap.erase_of_notMem {κ ν : Type*} [DecidableEq κ] {k : κ}
    {m : Finmap fun _ : κ => ν} (h : k ∉ m) : m.erase k = m := by
  refine Finmap.ext_lookup fun k' => ?_
  rcases eq_or_ne k' k with rfl | hne
  · rw [Finmap.lookup_erase, Finmap.lookup_eq_none.mpr h]
  · exact Finmap.lookup_erase_ne hne

namespace KeySlots

variable {κ ν : Type*}

/-! ### The keys in a table -/

/-- The keys in the slots, in order. -/
def keys (t : List (Option (κ × ν))) : List κ := t.filterMap (Option.map Prod.fst)

theorem mem_keys {k : κ} {t : List (Option (κ × ν))} : k ∈ keys t ↔ ∃ v, some (k, v) ∈ t := by
  simp [keys]

/-- A free slot has no key. -/
theorem keys_none (t₁ t₂ : List (Option (κ × ν))) :
    keys (t₁ ++ none :: t₂) = keys (t₁ ++ t₂) := by
  unfold keys
  rw [List.filterMap_append, List.filterMap_append]
  rfl

/-- A used slot has one. -/
theorem keys_some_perm (t₁ t₂ : List (Option (κ × ν))) (k : κ) (v : ν) :
    (keys (t₁ ++ some (k, v) :: t₂)).Perm (k :: keys (t₁ ++ t₂)) := by
  unfold keys
  rw [List.filterMap_append, List.filterMap_append]
  exact List.perm_middle

/-- A table is full when it has as many keys as slots. -/
theorem length_keys_eq {t : List (Option (κ × ν))} (h : ∀ s ∈ t, s.isNone = false) :
    (keys t).length = t.length := by
  rw [keys, List.filterMap_length_eq_length]
  intro s hs
  simpa using h s hs

/-- A table with a free slot has fewer. -/
theorem length_keys_lt (t₁ t₂ : List (Option (κ × ν))) :
    (keys (t₁ ++ none :: t₂)).length < (t₁ ++ none :: t₂).length := by
  have hle : (keys (t₁ ++ t₂)).length ≤ (t₁ ++ t₂).length := List.length_filterMap_le _ _
  rw [keys_none]
  rw [List.length_append] at hle ⊢
  rw [List.length_cons]
  omega

/-! ### The operations -/

variable [DecidableEq κ]

/-- A slot holds the key. -/
def holdsKey (k : κ) (s : Option (κ × ν)) : Bool := s.any fun p => p.1 = k

/-- The entry of a key written: over the slot that holds the key, else to the first free
slot, else nowhere. -/
def assign (k : κ) (v : ν) (t : List (Option (κ × ν))) : List (Option (κ × ν)) :=
  match updateFirst (holdsKey k) (fun _ => some (k, v)) t with
  | some t' => t'
  | none => (updateFirst Option.isNone (fun _ => some (k, v)) t).getD t

/-- The slot of a key freed. -/
def release (k : κ) (t : List (Option (κ × ν))) : List (Option (κ × ν)) :=
  (updateFirst (holdsKey k) (fun _ => none) t).getD t

/-- The value in the first slot that holds the key. -/
def lookup (k : κ) (t : List (Option (κ × ν))) : Option ν :=
  t.findSome? fun s => s.bind fun p => if p.1 = k then some p.2 else none

theorem holdsKey_eq_true {k : κ} {s : Option (κ × ν)} :
    holdsKey k s = true ↔ ∃ v, s = some (k, v) := by
  cases s with
  | none => simp [holdsKey]
  | some p =>
    obtain ⟨k', v⟩ := p
    simp [holdsKey]

/-- No key stands twice, and the entries are those of the map. -/
structure Represents (t : List (Option (κ × ν))) (m : Finmap fun _ : κ => ν) : Prop where
  /-- The keys are distinct. -/
  nodup : (keys t).Nodup
  /-- The entries of the table are those of the map. -/
  mem : ∀ k v, some (k, v) ∈ t ↔ m.lookup k = some v

theorem represents_replicate (n : ℕ) :
    Represents (List.replicate n none) (∅ : Finmap fun _ : κ => ν) where
  nodup := by rw [keys, List.filterMap_replicate_of_none rfl]; exact List.nodup_nil
  mem k v := by simp

namespace Represents

variable {t : List (Option (κ × ν))} {m : Finmap fun _ : κ => ν}

theorem mem_keys_iff (h : Represents t m) {k : κ} : k ∈ keys t ↔ k ∈ m := by
  rw [mem_keys, Finmap.mem_iff]
  simp only [h.mem]

/-- The size of the map is the number of used slots. -/
theorem card_keys (h : Represents t m) : m.keys.card = (keys t).length := by
  rw [← List.toFinset_card_of_nodup h.nodup]
  congr 1
  ext k
  rw [Finmap.mem_keys, List.mem_toFinset, h.mem_keys_iff]

/-- A table is searched as its map is. -/
theorem lookup (h : Represents t m) (k : κ) : KeySlots.lookup k t = m.lookup k := by
  have hiff : ∀ v, KeySlots.lookup k t = some v → m.lookup k = some v := by
    intro v hv
    obtain ⟨s, hs, hsv⟩ := List.exists_of_findSome?_eq_some hv
    rw [Option.bind_eq_some_iff] at hsv
    obtain ⟨⟨k', v'⟩, rfl, hp⟩ := hsv
    split_ifs at hp with hk
    obtain rfl := Option.some.inj hp
    exact (h.mem k v').mp (hk ▸ hs)
  cases hl : KeySlots.lookup k t with
  | some v => exact (hiff v hl).symm
  | none =>
    symm
    rw [Option.eq_none_iff_forall_ne_some]
    intro v hv
    have hnone := List.findSome?_eq_none_iff.mp hl _ ((h.mem k v).mpr hv)
    exact absurd hnone (by simp)

/-- An entry written over a slot that was free or held the same key. -/
theorem insert {t₁ t₂ : List (Option (κ × ν))} {s : Option (κ × ν)} {k : κ}
    (h : Represents (t₁ ++ s :: t₂) m) (hs : ∀ p ∈ s, p.1 = k) (hk : k ∉ keys (t₁ ++ t₂))
    (v : ν) : Represents (t₁ ++ some (k, v) :: t₂) (m.insert k v) := by
  have hother : ∀ v', some (k, v') ∉ t₁ ++ t₂ := fun v' hmem => hk (mem_keys.mpr ⟨v', hmem⟩)
  constructor
  · have hsub : (t₁ ++ t₂).Sublist (t₁ ++ s :: t₂) :=
      (List.sublist_cons_self s t₂).append_left t₁
    have hnodup : (keys (t₁ ++ t₂)).Nodup := h.nodup.sublist (hsub.filterMap _)
    rw [(keys_some_perm t₁ t₂ k v).nodup_iff]
    exact List.nodup_cons.mpr ⟨hk, hnodup⟩
  · intro k' v'
    rcases eq_or_ne k' k with rfl | hne
    · rw [Finmap.lookup_insert]
      have := hother v'
      simp only [List.mem_append, List.mem_cons, Option.some.injEq, Prod.mk.injEq] at this ⊢
      grind
    · rw [Finmap.lookup_insert_of_ne _ hne, ← h.mem]
      have hne' : some (k', v') ≠ s := fun heq => hne (hs (k', v') heq.symm)
      simp [hne, hne']

/-- A slot freed. -/
theorem erase {t₁ t₂ : List (Option (κ × ν))} {k : κ} {v : ν}
    (h : Represents (t₁ ++ some (k, v) :: t₂) m) :
    Represents (t₁ ++ none :: t₂) (m.erase k) := by
  have hnodup := h.nodup
  rw [(keys_some_perm t₁ t₂ k v).nodup_iff, List.nodup_cons] at hnodup
  constructor
  · rw [keys_none]
    exact hnodup.2
  · intro k' v'
    rcases eq_or_ne k' k with rfl | hne
    · have hno : some (k', v') ∉ t₁ ++ t₂ := fun hmem => hnodup.1 (mem_keys.mpr ⟨v', hmem⟩)
      rw [Finmap.lookup_erase]
      simpa using hno
    · rw [Finmap.lookup_erase_ne hne, ← h.mem]
      simp [hne]

/-- **Assigning is inserting**, while there is room. -/
theorem assign (h : Represents t m) (k : κ) (v : ν) :
    Represents (KeySlots.assign k v t) (m.capInsert t.length k v) := by
  unfold KeySlots.assign Finmap.capInsert
  cases hkey : updateFirst (holdsKey k) (fun _ => some (k, v)) t with
  -- the slot of the key
  | some t' =>
    obtain ⟨t₁, s, t₂, rfl, hs, rfl⟩ := exists_of_updateFirst_eq_some hkey
    obtain ⟨v', rfl⟩ := holdsKey_eq_true.mp hs
    have hmem : k ∈ m := h.mem_keys_iff.mp (mem_keys.mpr ⟨v', by simp⟩)
    have hnodup := h.nodup
    rw [(keys_some_perm t₁ t₂ k v').nodup_iff, List.nodup_cons] at hnodup
    rw [if_pos (Or.inl hmem)]
    exact h.insert (by simp) hnodup.1 v
  | none =>
    rw [updateFirst_eq_none_iff] at hkey
    have hnot : k ∉ keys t := by
      rintro hk
      obtain ⟨v', hv'⟩ := mem_keys.mp hk
      exact absurd (hkey _ hv') (by simp [holdsKey])
    cases hfree : updateFirst Option.isNone (fun _ => some (k, v)) t with
    -- the first free slot
    | some t' =>
      obtain ⟨t₁, s, t₂, rfl, hs, rfl⟩ := exists_of_updateFirst_eq_some hfree
      obtain rfl := Option.isNone_iff_eq_none.mp hs
      have hroom : m.keys.card < (t₁ ++ none :: t₂).length := by
        rw [h.card_keys]
        exact length_keys_lt t₁ t₂
      rw [if_pos (Or.inr hroom)]
      rw [keys_none] at hnot
      exact h.insert (by simp) hnot v
    -- no slot: the table has as many keys as slots
    | none =>
      rw [updateFirst_eq_none_iff] at hfree
      have hfull : ¬(k ∈ m ∨ m.keys.card < t.length) := by
        rw [← h.mem_keys_iff, h.card_keys, length_keys_eq hfree]
        simpa using hnot
      rw [if_neg hfull]
      exact h

/-- **Releasing is removing.** -/
theorem release (h : Represents t m) (k : κ) :
    Represents (KeySlots.release k t) (m.erase k) := by
  unfold KeySlots.release
  cases hkey : updateFirst (holdsKey k) (fun _ => none) t with
  | some t' =>
    obtain ⟨t₁, s, t₂, rfl, hs, rfl⟩ := exists_of_updateFirst_eq_some hkey
    obtain ⟨v, rfl⟩ := holdsKey_eq_true.mp hs
    exact h.erase
  | none =>
    rw [updateFirst_eq_none_iff] at hkey
    have hnot : k ∉ m := by
      rw [← h.mem_keys_iff, mem_keys]
      rintro ⟨v, hv⟩
      exact absurd (hkey _ hv) (by simp [holdsKey])
    rw [Finmap.erase_of_notMem hnot]
    exact h

end Represents

end KeySlots
