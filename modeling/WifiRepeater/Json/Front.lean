import WifiRepeater.Json.Parse

/-!
# The front of a text

A handler that reads a part of a body parses the front of a text.  `cJSON_Parse` stops behind
the value it has read and lets anything follow, so a front that it accepts is read as the
whole text is: whatever led to the value stands in the front.  Only a number that runs up to
the end of the front may go on behind it, and only where no array and no object is around it.

## Main definitions

* `Settled` — a value that what follows cannot change.
* `Stands` — what a parser has read in the front it reads in the whole.

## Main results

* `cJsonParse_front` — **a front that is accepted**: the whole text is read as the same value,
  unless both are numbers, or the number in the front goes on to something that is none.
-/

namespace WifiRepeater
namespace Json

variable {front rest : List UInt8}

/-! ### What is looked at -/

/-- A byte that is no terminator is found in the front. -/
theorem getElem?_front {o : ℕ} {c : UInt8} (hc : c ≠ 0) (h : (front ++ [0])[o]? = some c) :
    front[o]? = some c := by
  rcases Nat.lt_or_ge o front.length with hlt | hge
  · rwa [List.getElem?_append_left hlt] at h
  · rw [List.getElem?_append_right hge, List.getElem?_singleton] at h
    split_ifs at h
    exact absurd (Option.some.inj h).symm hc

theorem lt_of_getElem?_front {o : ℕ} {c : UInt8} (h : front[o]? = some c) : o < front.length :=
  (List.getElem?_eq_some_iff.mp h).1

/-- Within the front the memory does not tell what follows. -/
theorem isAt_front {o : ℕ} (h : o < front.length) (r : List UInt8) (c : UInt8) :
    isAt (front ++ r) o c = .ok (front[o]? == some c) := by
  rw [isAt_eq, List.getElem?_append_left h]

/-- White space that ends within the front ends there in the whole. -/
theorem afterSpaces_front (hrest : rest ≠ []) {o : ℕ} (ho : o ≤ front.length) :
    afterSpaces (front ++ [0]) o ≤ front.length ∧
      (afterSpaces (front ++ [0]) o < front.length →
        afterSpaces (front ++ rest) o = afterSpaces (front ++ [0]) o) := by
  have hdrop : ∀ r, (front ++ r).drop o = front.drop o ++ r := fun r =>
    List.drop_append_of_le_length ho
  have hrun := (List.takeWhile_sublist (· ≤ (32 : UInt8)) (l := front.drop o)).length_le
  have hlen : (front.drop o).length = front.length - o := List.length_drop
  have hpos := List.length_pos_iff.mpr hrest
  by_cases hall : ((front.drop o).takeWhile (· ≤ (32 : UInt8))).length = (front.drop o).length
  -- white space up to the end of the front, and the terminator counts as such
  · have hend : afterSpaces (front ++ [0]) o = front.length := by
      rw [afterSpaces, hdrop, List.takeWhile_append, if_pos hall]
      have hzero : [(0 : UInt8)].takeWhile (· ≤ 32) = [0] := rfl
      simp only [hzero, List.length_append, List.length_singleton]
      rw [if_pos ⟨by omega, by omega⟩]
      omega
    exact ⟨hend.le, fun hlt => absurd hend hlt.ne⟩
  · have hstop : ∀ r : List UInt8, 0 < r.length → afterSpaces (front ++ r) o
        = o + ((front.drop o).takeWhile (· ≤ (32 : UInt8))).length := fun r hr => by
      rw [afterSpaces, hdrop, List.takeWhile_append, if_neg hall]
      simp only [List.length_append]
      exact if_neg fun h => by omega
    rw [hstop [0] Nat.zero_lt_one, hstop rest hpos]
    exact ⟨by omega, fun _ => rfl⟩

variable (rest) in
/-- A word without a terminator is read within the front. -/
theorem readsWord_front {o : ℕ} (ho : o ≤ front.length) {word : List UInt8} (hword : word ≠ [])
    (hnul : 0 ∉ word) (h : word <+: (front ++ [0]).drop o) :
    o + word.length ≤ front.length ∧ readsWord (front ++ rest) o word = .ok true := by
  rw [List.drop_append_of_le_length ho] at h
  have hpre : word <+: front.drop o := by
    rcases List.prefix_concat_iff.mp h with heq | hpre
    · exact absurd (heq ▸ List.mem_append_right _ (List.mem_singleton.mpr rfl)) hnul
    · exact hpre
  have hle := hpre.length_le
  rw [List.length_drop] at hle
  refine ⟨by omega, ?_⟩
  rw [readsWord_eq _ hword, List.drop_append_of_le_length ho,
    decide_eq_true (hpre.trans (List.prefix_append _ _))]

/-- A word that begins with another byte is not read. -/
theorem readsWord_ne {mem : List UInt8} {o : ℕ} {b c : UInt8} (hb : mem[o]? = some b)
    (hne : b ≠ c) (word : List UInt8) : readsWord mem o (c :: word) = .ok false := by
  rw [readsWord_eq _ (List.cons_ne_nil _ _)]
  refine congrArg Except.ok (decide_eq_false ?_)
  rintro ⟨r, hr⟩
  have hhead : (mem.drop o)[0]? = some c := by rw [← hr]; rfl
  rw [List.getElem?_drop, Nat.add_zero, hb] at hhead
  exact hne (Option.some.inj hhead)

/-! ### Strings -/

/-- The quote that ends a string is found without looking behind it. -/
theorem scan_front (r r' : List UInt8) : ∀ (m : ℕ) (c : List UInt8), c.length ≤ m → ∀ {n k : ℕ},
    scan (c ++ r) = some (n, k) → n < c.length → scan (c ++ r') = some (n, k) := by
  intro m
  induction m with
  | zero => intro c hc n k _ hn; omega
  | succ m ih =>
    intro c hc n k h hn
    cases c with
    | nil => simp at hn
    | cons b c =>
      rw [List.length_cons] at hc hn
      rw [List.cons_append, scan_cons] at h ⊢
      by_cases hquote : b = 0x22
      · rwa [if_pos hquote] at h ⊢
      rw [if_neg hquote] at h ⊢
      by_cases hesc : b = 0x5c
      · rw [if_pos hesc] at h ⊢
        cases c with
        | nil =>
          -- the backslash was the last byte, and an escape has two
          cases r with
          | nil => cases h
          | cons b' r =>
            obtain ⟨⟨n', k'⟩, -, hr⟩ := Option.map_eq_some_iff.mp h
            obtain ⟨rfl, -⟩ := Prod.mk.inj hr
            simp at hn
        | cons b' c =>
          obtain ⟨⟨n', k'⟩, hscan, hr⟩ := Option.map_eq_some_iff.mp h
          obtain ⟨rfl, rfl⟩ := Prod.mk.inj hr
          rw [List.length_cons] at hc hn
          exact congrArg (Option.map _) (ih c (by omega) hscan (by simp only at hn; omega))
      · rw [if_neg hesc] at h ⊢
        obtain ⟨⟨n', k'⟩, hscan, hr⟩ := Option.map_eq_some_iff.mp h
        obtain ⟨rfl, rfl⟩ := Prod.mk.inj hr
        exact congrArg (Option.map _) (ih c (by omega) hscan (by simp only at hn; omega))

theorem hex4Value_front {c : List UInt8} (hc : 4 ≤ c.length) (r r' : List UInt8) :
    hex4Value (c ++ r) = hex4Value (c ++ r') := by
  rw [hex4Value, hex4Value, List.take_append_of_le_length hc, List.take_append_of_le_length hc]

/-- An escape is read from the bytes of the string. -/
theorem readLiteral_front {n : ℕ} {c : List UInt8} (hn : n ≤ c.length) (r r' : List UInt8) :
    readLiteral n (c ++ r) = readLiteral n (c ++ r') := by
  by_cases h6 : n < 6
  · simp only [readLiteral, h6, true_or, if_true]
  have hfirst : hex4Value ((c ++ r).drop 2) = hex4Value ((c ++ r').drop 2) := by
    rw [List.drop_append_of_le_length (by omega), List.drop_append_of_le_length (by omega)]
    exact hex4Value_front (by rw [List.length_drop]; omega) r r'
  by_cases h12 : n < 12
  · simp only [readLiteral, hfirst, h12, true_or, if_true]
  have hsecond : hex4Value ((c ++ r).drop 8) = hex4Value ((c ++ r').drop 8) := by
    rw [List.drop_append_of_le_length (by omega), List.drop_append_of_le_length (by omega)]
    exact hex4Value_front (by rw [List.length_drop]; omega) r r'
  simp only [readLiteral, hfirst, hsecond, List.getElem?_append_left (show 6 < c.length by omega),
    List.getElem?_append_left (show 7 < c.length by omega)]

/-- A string is decoded without looking behind the quote that ends it. -/
theorem decode_front (r r' : List UInt8) : ∀ (n : ℕ) (c : List UInt8), n < c.length →
    decode n (c ++ r) = decode n (c ++ r') := by
  intro n
  induction n using Nat.strong_induction_on with
  | _ n ih =>
    intro c hn
    cases n with
    | zero => rw [decode_zero, decode_zero]
    | succ n =>
      cases c with
      | nil => simp at hn
      | cons b c =>
        rw [List.length_cons] at hn
        by_cases hplain : b ≠ 0x5c
        · rw [List.cons_append, List.cons_append, decode_plain hplain, decode_plain hplain,
            ih n (by omega) c (by omega)]
        rw [not_not] at hplain
        subst hplain
        cases c with
        | nil => simp at hn
        | cons u c =>
          rw [List.length_cons] at hn
          by_cases hu : u = 0x75
          · subst hu
            have hlit := readLiteral_front (n := n + 1) (c := 0x5c :: 0x75 :: c)
              (by simp only [List.length_cons]; omega) r r'
            simp only [List.cons_append] at hlit ⊢
            rw [decode_literal, decode_literal, hlit]
            rcases hread : readLiteral (n + 1) (0x5c :: 0x75 :: (c ++ r')) with _ | ⟨v, k⟩
            · rfl
            · -- the escape lies in the front, so what is left of the front comes next
              obtain ⟨hk, hle, -⟩ := readLiteral_some hread
              have hdrop : ∀ t : List UInt8, (0x5c :: 0x75 :: (c ++ t)).drop k
                  = (0x5c :: 0x75 :: c).drop k ++ t := fun t => by
                rw [← List.cons_append, ← List.cons_append, List.drop_append_of_le_length]
                simp only [List.length_cons]
                omega
              simp only [hdrop]
              rw [ih (n + 1 - k) (by omega) _
                (by simp only [List.length_drop, List.length_cons]; omega)]
          · simp only [List.cons_append]
            rw [decode_short hu, decode_short hu]
            cases shortEscape u with
            | none => rfl
            | some v =>
              simp only
              rcases Nat.eq_zero_or_pos n with rfl | hpos
              · rw [decode_zero, decode_zero]
              · rw [ih (n - 1) (by omega) c (by omega)]

variable (rest) in
/-- **A string in the front** is read as it is in the whole. -/
theorem readString_front {c : List UInt8} {s : CStr} {k : ℕ}
    (h : readString (c ++ [0]) = some (s, k)) :
    k ≤ c.length ∧ readString (c ++ rest) = some (s, k) := by
  cases c with
  | nil => exact absurd h (by simp [readString])
  | cons b c =>
    rw [List.cons_append, readString] at h ⊢
    by_cases hquote : b ≠ 0x22
    · rw [if_pos hquote] at h
      cases h
    rw [if_neg hquote] at h ⊢
    rcases hscan : scan (c ++ [0]) with _ | ⟨n, j⟩
    · rw [hscan] at h
      cases h
    have hlt := lt_of_getElem?_front
      (getElem?_front (by decide) (scan_spec _ hscan).1)
    simp only [hscan] at h
    obtain ⟨w, hw, hr⟩ := Option.map_eq_some_iff.mp h
    obtain ⟨rfl, rfl⟩ := Prod.mk.inj hr
    rw [scan_front [0] rest _ c le_rfl hscan hlt]
    refine ⟨by rw [List.length_cons]; omega, ?_⟩
    simp only [← decode_front [0] rest n c hlt, hw, Option.map_some]

/-! ### Values -/

/-- A value that what follows cannot change: no number, or one behind which another byte
stands. -/
def Settled (front : List UInt8) (a : CJson) (o : ℕ) : Prop :=
  (∃ q, a = .number q) → ∃ c, front[o]? = some c ∧ isNumberChar c = false

/-- A value between two offsets of the front, which is read in the whole by `p'`. -/
structure StandsAt (front : List UInt8) (p' : Parser CJson) (o : ℕ) (a : CJson) (o' : ℕ) :
    Prop where
  start : o < front.length
  stop : o' ≤ front.length
  /-- It is read as itself if it is settled. -/
  same : Settled front a o' → p' o = .ok (some (a, o'))
  /-- Otherwise it is a number, and nothing but a number is read. -/
  number : (∃ q, a = .number q) → ∃ r, p' o = .ok r ∧ ∀ x ∈ r, ∃ q, x.1 = .number q

/-- What is read in the front and then a terminator, by `p`, is read in the whole, by `p'`. -/
def Stands (front : List UInt8) (p p' : Parser CJson) : Prop :=
  ∀ o a o', o ≤ front.length → p o = .ok (some (a, o')) → StandsAt front p' o a o'

theorem StandsAt.of_eq {p' : Parser CJson} {o o' : ℕ} {a : CJson} (hstart : o < front.length)
    (hstop : o' ≤ front.length) (hne : ∀ q, a ≠ .number q) (h : p' o = .ok (some (a, o'))) :
    StandsAt front p' o a o' :=
  ⟨hstart, hstop, fun _ => h, fun ⟨q, hq⟩ => absurd hq (hne q)⟩

/-- When the whole has been read, a part of it has. -/
theorem some_of_bind {α β : Type} {x : Checked (Option (α × ℕ))}
    {k : Option (α × ℕ) → Checked (Option β)} {b : β} (h : (x >>= k) = .ok (some b))
    (hnone : k none = .ok none) :
    ∃ a o, x = .ok (some (a, o)) ∧ k (some (a, o)) = .ok (some b) := by
  rcases x with e | _ | ⟨a, o⟩
  · cases h
  · rw [Checked.ok_bind, hnone] at h
    cases h
  · exact ⟨a, o, rfl, h⟩

variable {D : Doubles}

variable (rest) in
/-- A number in the front. -/
theorem parseNumber_front {o o' : ℕ} {a : CJson} (ho : o ≤ front.length)
    (h : parseNumber (front ++ [0]) D o = .ok (some (a, o'))) :
    StandsAt front (parseNumber (front ++ rest) D) o a o' := by
  have hrun : ((front ++ [0]).drop o).takeWhile isNumberChar
      = (front.drop o).takeWhile isNumberChar := by
    rw [List.drop_append_of_le_length ho, List.takeWhile_append]
    split_ifs with hall
    · rw [show [(0 : UInt8)].takeWhile isNumberChar = [] from rfl, List.append_nil]
      exact (List.IsPrefix.eq_of_length (List.takeWhile_prefix _) hall).symm
    · rfl
  have hle := (List.takeWhile_sublist isNumberChar (l := front.drop o)).length_le
  rw [List.length_drop] at hle
  rw [parseNumber, numberChars_eq _ _ (by omega), Checked.ok_bind, hrun] at h
  rcases hread : D.strtod ((front.drop o).takeWhile isNumberChar) with _ | ⟨q, n⟩
  · rw [hread] at h
    cases h
  rw [hread] at h
  obtain ⟨rfl, rfl⟩ := Prod.mk.inj (Option.some.inj (Except.ok.inj h))
  obtain ⟨hpos, hn⟩ := D.strtod_le hread
  refine ⟨by omega, by omega, fun hset => ?_, fun _ => ?_⟩
  · -- another byte stands behind the number, so the characters of the number end there
    obtain ⟨c, hc, hchar⟩ := hset ⟨q, rfl⟩
    rw [parseNumber, numberChars_eq _ _ (by omega), Checked.ok_bind,
      List.drop_append_of_le_length ho, List.takeWhile_append, if_neg ?_, hread]
    · rfl
    intro hall
    have hself := List.IsPrefix.eq_of_length (List.takeWhile_prefix isNumberChar) hall
    rw [← List.getElem?_drop, ← hself] at hc
    rw [List.mem_takeWhile_imp (List.mem_of_getElem? hc)] at hchar
    cases hchar
  · rw [parseNumber, numberChars_eq _ _ (by omega), Checked.ok_bind]
    rcases D.strtod (((front ++ rest).drop o).takeWhile isNumberChar) with _ | ⟨q', n'⟩
    · exact ⟨none, rfl, fun _ hx => by cases hx⟩
    · exact ⟨_, rfl, fun x hx => ⟨q', by rw [← Option.some.inj hx]⟩⟩

/-- A value with white space and a byte of the syntax behind it is settled. -/
theorem settled_of_next {a : CJson} {o : ℕ} {c : UInt8} (ho : o ≤ front.length)
    (h : front[afterSpaces (front ++ [0]) o]? = some c) (hc : isNumberChar c = false) :
    Settled front a o := by
  intro _
  have hlt : o < front.length :=
    (le_afterSpaces _ _).trans_lt (lt_of_getElem?_front h)
  refine ⟨front[o], List.getElem?_eq_getElem hlt, ?_⟩
  by_cases hspace : front[o] ≤ 32
  · -- white space is no part of a number
    rw [UInt8.le_iff_toNat_le] at hspace
    simp only [isNumberChar, UInt8.le_iff_toNat_le, Bool.or_eq_false_iff, Bool.and_eq_false_iff,
      decide_eq_false_iff_not, beq_eq_false_iff_ne, ne_eq, ← UInt8.toNat_inj]
    simp only [UInt8.toNat_ofNat] at hspace ⊢
    omega
  · have hhead : (front ++ [0]).drop o = front[o] :: (front.drop (o + 1) ++ [0]) := by
      rw [List.drop_append_of_le_length ho, List.drop_eq_getElem_cons hlt, List.cons_append]
    have hstay := afterSpaces_of_head hhead (UInt8.not_le.mp hspace)
    rw [hstay, List.getElem?_eq_getElem hlt] at h
    rwa [Option.some.inj h]

variable {fresh : (n : ℕ) → Buf n} {p p' : Parser CJson}

/-- The elements of an array in the front. -/
theorem parseElements_front (hrest : rest ≠ []) (hp : Stands front p p') :
    ∀ (fuel fuel' offset : ℕ) (items : List CJson) (o' : ℕ), fuel ≤ fuel' →
      offset + 1 ≤ front.length →
      parseElements (front ++ [0]) p fuel offset = .ok (some (items, o')) →
      afterSpaces (front ++ [0]) (offset + 1) < front.length ∧ o' ≤ front.length ∧
        parseElements (front ++ rest) p' fuel' offset = .ok (some (items, o')) := by
  intro fuel
  induction fuel with
  | zero => intro fuel' offset items o' _ _ h; cases h
  | succ fuel ih =>
    intro fuel' offset items o' hfuel hoffset h
    obtain ⟨fuel', rfl⟩ : ∃ k, fuel' = k + 1 := ⟨fuel' - 1, by omega⟩
    rw [parseElements, bufferSkipWhitespace_eq, Checked.ok_bind] at h
    obtain ⟨hle, hsame⟩ := afterSpaces_front hrest hoffset
    obtain ⟨item, o₁, hitem, h⟩ := some_of_bind h rfl
    obtain ⟨hstart, hstop, hread, -⟩ := hp _ _ _ hle hitem
    obtain ⟨hle₁, hsame₁⟩ := afterSpaces_front hrest hstop
    rw [parseElements, bufferSkipWhitespace_eq, Checked.ok_bind, hsame hstart]
    simp only [bufferSkipWhitespace_eq, isAt_eq, Checked.ok_bind] at h
    refine ⟨hstart, ?_⟩
    split at h
    next hcomma =>
      have hnext := getElem?_front (by decide) (beq_iff_eq.mp hcomma)
      have hlt := lt_of_getElem?_front hnext
      obtain ⟨items', o₂, hitems, h⟩ := some_of_bind h rfl
      obtain ⟨rfl, rfl⟩ := Prod.mk.inj (Option.some.inj (Except.ok.inj h))
      obtain ⟨-, hstop₂, hread₂⟩ := ih fuel' _ _ _ (by omega) (by omega) hitems
      rw [hread (settled_of_next hstop hnext rfl), Checked.ok_bind]
      simp only [bufferSkipWhitespace_eq, hsame₁ hlt, isAt_front hlt, hnext, Checked.ok_bind,
        beq_self_eq_true, if_true, hread₂]
      exact ⟨hstop₂, rfl⟩
    next hcomma =>
      split at h
      next hclose =>
        have hnext := getElem?_front (by decide) (beq_iff_eq.mp hclose)
        have hlt := lt_of_getElem?_front hnext
        obtain ⟨rfl, rfl⟩ := Prod.mk.inj (Option.some.inj (Except.ok.inj h))
        rw [hread (settled_of_next hstop hnext rfl), Checked.ok_bind]
        simp only [bufferSkipWhitespace_eq, hsame₁ hlt, isAt_front hlt, hnext, Checked.ok_bind]
        exact ⟨hlt, rfl⟩
      next => cases h

/-- An array in the front. -/
theorem parseArray_front (hrest : rest ≠ []) (hp : Stands front p p') {o o' : ℕ} {a : CJson}
    (ho : o < front.length) (h : parseArray (front ++ [0]) p o = .ok (some (a, o'))) :
    o' ≤ front.length ∧ (∀ q, a ≠ .number q) ∧
      parseArray (front ++ rest) p' o = .ok (some (a, o')) := by
  have hpos := List.length_pos_iff.mpr hrest
  obtain ⟨hle, hsame⟩ := afterSpaces_front hrest (o := o + 1) ho
  have hhead : ∀ r, readAt (front ++ r) o = .ok front[o] := fun r => by
    rw [readAt_eq (by rw [List.length_append]; omega), List.getElem_append_left ho]
  rw [parseArray, hhead, Checked.ok_bind] at h ⊢
  by_cases hopen : front[o] ≠ 0x5b
  · rw [if_pos hopen] at h
    cases h
  rw [if_neg hopen] at h ⊢
  rw [bufferSkipWhitespace_eq, Checked.ok_bind, isAt_eq, Checked.ok_bind] at h
  split at h
  next hclose =>
    have hnext := getElem?_front (by decide) (beq_iff_eq.mp hclose)
    have hlt := lt_of_getElem?_front hnext
    obtain ⟨rfl, rfl⟩ := Prod.mk.inj (Option.some.inj (Except.ok.inj h))
    rw [bufferSkipWhitespace_eq, Checked.ok_bind, hsame hlt, isAt_front hlt, hnext]
    exact ⟨hlt, (fun q hq => by cases hq), rfl⟩
  next hclose =>
    have hspaces := le_afterSpaces (front ++ [0]) (o + 1)
    split at h
    next => cases h
    next =>
      obtain ⟨items, o₂, hitems, h⟩ := some_of_bind h rfl
      obtain ⟨rfl, rfl⟩ := Prod.mk.inj (Option.some.inj (Except.ok.inj h))
      obtain ⟨hstart, hstop, hread⟩ := parseElements_front hrest hp _ ((front ++ rest).length + 1)
        _ _ _ (by simp only [List.length_append, List.length_singleton]; omega) (by omega) hitems
      -- an element begins within the front, and so does what is no bracket
      have hlt : afterSpaces (front ++ [0]) (o + 1) < front.length := by
        have := le_afterSpaces (front ++ [0]) (afterSpaces (front ++ [0]) (o + 1) - 1 + 1)
        omega
      rw [List.getElem?_append_left hlt] at hclose
      rw [bufferSkipWhitespace_eq, Checked.ok_bind, hsame hlt, isAt_front hlt, Checked.ok_bind,
        if_neg hclose, if_neg (by rw [List.length_append]; omega), hread]
      exact ⟨hstop, (fun q hq => by cases hq), rfl⟩

variable (rest) in
/-- A name in the front. -/
theorem parseString_front {o o' : ℕ} {s : CStr} (ho : o ≤ front.length)
    (h : parseString fresh (front ++ [0]) o = .ok (some (s, o'))) :
    o < front.length ∧ o' ≤ front.length ∧
      parseString fresh (front ++ rest) o = .ok (some (s, o')) := by
  rw [parseString_eq _ (by simp only [List.length_append, List.length_singleton]; omega),
    List.drop_append_of_le_length ho] at h
  obtain ⟨⟨s', k⟩, hread, hr⟩ := Option.map_eq_some_iff.mp (Except.ok.inj h)
  obtain ⟨rfl, rfl⟩ := Prod.mk.inj hr
  obtain ⟨hpos, -⟩ := readString_le hread
  obtain ⟨hle, hsame⟩ := readString_front rest hread
  rw [List.length_drop] at hle
  refine ⟨by omega, by simp only; omega, ?_⟩
  rw [parseString_eq _ (by rw [List.length_append]; omega), List.drop_append_of_le_length ho, hsame]
  rfl

/-- The members of an object in the front. -/
theorem parseMembers_front (hrest : rest ≠ []) (hp : Stands front p p') :
    ∀ (fuel fuel' offset : ℕ) (members : List (CStr × CJson)) (o' : ℕ), fuel ≤ fuel' →
      offset + 1 ≤ front.length →
      parseMembers (front ++ [0]) fresh p fuel offset = .ok (some (members, o')) →
      afterSpaces (front ++ [0]) (offset + 1) < front.length ∧ o' ≤ front.length ∧
        parseMembers (front ++ rest) fresh p' fuel' offset = .ok (some (members, o')) := by
  intro fuel
  induction fuel with
  | zero => intro fuel' offset members o' _ _ h; cases h
  | succ fuel ih =>
    intro fuel' offset members o' hfuel hoffset h
    obtain ⟨fuel', rfl⟩ : ∃ k, fuel' = k + 1 := ⟨fuel' - 1, by omega⟩
    have hpos := List.length_pos_iff.mpr hrest
    rw [parseMembers, if_neg (by simp only [List.length_append, List.length_singleton]; omega),
      bufferSkipWhitespace_eq, Checked.ok_bind] at h
    rw [parseMembers, if_neg (by rw [List.length_append]; omega), bufferSkipWhitespace_eq,
      Checked.ok_bind]
    -- the name
    obtain ⟨hle, hsame⟩ := afterSpaces_front hrest hoffset
    obtain ⟨name, o₁, hname, h⟩ := some_of_bind h rfl
    obtain ⟨hstart, hstop₁, hread₁⟩ := parseString_front rest hle hname
    rw [hsame hstart, hread₁, Checked.ok_bind]
    simp only [bufferSkipWhitespace_eq, isAt_eq, Checked.ok_bind] at h
    refine ⟨hstart, ?_⟩
    -- the colon
    obtain ⟨hle₁, hsame₁⟩ := afterSpaces_front hrest hstop₁
    split at h
    next => cases h
    next hcolon =>
      rw [Bool.not_eq_true, Bool.not_eq_false', beq_iff_eq] at hcolon
      have hnext₁ := getElem?_front (by decide) hcolon
      have hlt₁ := lt_of_getElem?_front hnext₁
      -- the value
      obtain ⟨hle₂, hsame₂⟩ := afterSpaces_front hrest (o := afterSpaces (front ++ [0]) o₁ + 1) hlt₁
      obtain ⟨item, o₂, hitem, h⟩ := some_of_bind h rfl
      obtain ⟨hstart₂, hstop₂, hread₂, -⟩ := hp _ _ _ hle₂ hitem
      obtain ⟨hle₃, hsame₃⟩ := afterSpaces_front hrest hstop₂
      simp only [bufferSkipWhitespace_eq, hsame₁ hlt₁, isAt_front hlt₁, hnext₁, Checked.ok_bind,
        hsame₂ hstart₂, beq_self_eq_true, Bool.not_true, Bool.false_eq_true, if_false]
      dsimp only at h
      split at h
      next hcomma =>
        have hnext := getElem?_front (by decide) (beq_iff_eq.mp hcomma)
        have hlt := lt_of_getElem?_front hnext
        obtain ⟨members', o₃, hmembers, h⟩ := some_of_bind h rfl
        obtain ⟨rfl, rfl⟩ := Prod.mk.inj (Option.some.inj (Except.ok.inj h))
        obtain ⟨-, hstop₃, hread₃⟩ := ih fuel' _ _ _ (by omega) (by omega) hmembers
        rw [hread₂ (settled_of_next hstop₂ hnext rfl), Checked.ok_bind]
        simp only [hsame₃ hlt, isAt_front hlt, hnext, Checked.ok_bind,
          beq_self_eq_true, if_true, hread₃]
        exact ⟨hstop₃, rfl⟩
      next hcomma =>
        split at h
        next hclose =>
          have hnext := getElem?_front (by decide) (beq_iff_eq.mp hclose)
          have hlt := lt_of_getElem?_front hnext
          obtain ⟨rfl, rfl⟩ := Prod.mk.inj (Option.some.inj (Except.ok.inj h))
          rw [hread₂ (settled_of_next hstop₂ hnext rfl), Checked.ok_bind]
          simp only [hsame₃ hlt, isAt_front hlt, hnext, Checked.ok_bind]
          exact ⟨hlt, rfl⟩
        next => cases h

/-- An object in the front. -/
theorem parseObject_front (hrest : rest ≠ []) (hp : Stands front p p') {o o' : ℕ} {a : CJson}
    (ho : o < front.length) (h : parseObject (front ++ [0]) fresh p o = .ok (some (a, o'))) :
    o' ≤ front.length ∧ (∀ q, a ≠ .number q) ∧
      parseObject (front ++ rest) fresh p' o = .ok (some (a, o')) := by
  have hpos := List.length_pos_iff.mpr hrest
  obtain ⟨hle, hsame⟩ := afterSpaces_front hrest (o := o + 1) ho
  rw [parseObject, isAt_front ho, Checked.ok_bind] at h ⊢
  split at h
  next => cases h
  next hopen =>
    rw [if_neg hopen]
    rw [bufferSkipWhitespace_eq, Checked.ok_bind, isAt_eq, Checked.ok_bind] at h
    split at h
    next hclose =>
      have hnext := getElem?_front (by decide) (beq_iff_eq.mp hclose)
      have hlt := lt_of_getElem?_front hnext
      obtain ⟨rfl, rfl⟩ := Prod.mk.inj (Option.some.inj (Except.ok.inj h))
      rw [bufferSkipWhitespace_eq, Checked.ok_bind, hsame hlt, isAt_front hlt, hnext]
      exact ⟨hlt, (fun q hq => by cases hq), rfl⟩
    next hclose =>
      have hspaces := le_afterSpaces (front ++ [0]) (o + 1)
      split at h
      next => cases h
      next =>
        obtain ⟨members, o₂, hmembers, h⟩ := some_of_bind h rfl
        obtain ⟨rfl, rfl⟩ := Prod.mk.inj (Option.some.inj (Except.ok.inj h))
        obtain ⟨hstart, hstop, hread⟩ := parseMembers_front hrest hp _
          ((front ++ rest).length + 1) _ _ _
          (by simp only [List.length_append, List.length_singleton]; omega) (by omega) hmembers
        have hlt : afterSpaces (front ++ [0]) (o + 1) < front.length := by
          have := le_afterSpaces (front ++ [0]) (afterSpaces (front ++ [0]) (o + 1) - 1 + 1)
          omega
        rw [List.getElem?_append_left hlt] at hclose
        rw [bufferSkipWhitespace_eq, Checked.ok_bind, hsame hlt, isAt_front hlt, Checked.ok_bind,
          if_neg hclose, if_neg (by rw [List.length_append]; omega), hread]
        exact ⟨hstop, (fun q hq => by cases hq), rfl⟩

/-- The word that begins with a letter, and what it stands for. -/
def wordOf (b : UInt8) : Option (List UInt8 × CJson) :=
  if b = 0x6e then some (nullText, .null)
  else if b = 0x66 then some (falseText, .bool false)
  else if b = 0x74 then some (trueText, .bool true)
  else none

/-- A value that begins with none of the letters of the words. -/
theorem parseValueWith_of_head {mem : List UInt8} {o : ℕ} {b : UInt8} (hb : mem[o]? = some b)
    (hword : wordOf b = none) (nested : Option (Parser CJson)) :
    parseValueWith mem D fresh nested o =
      if b = 0x22 then do
        match ← parseString fresh mem o with
        | none => pure none
        | some (s, offset) => pure (some (.string s, offset))
      else if b = 0x2d ∨ 0x30 ≤ b ∧ b ≤ 0x39 then parseNumber mem D o
      else if b = 0x5b then
        match nested with
        | none => pure none
        | some value => parseArray mem value o
      else if b = 0x7b then
        match nested with
        | none => pure none
        | some value => parseObject mem fresh value o
      else pure none := by
  unfold wordOf at hword
  split_ifs at hword with hnull hfalse htrue
  have h₁ : readsWord mem o nullText = .ok false := readsWord_ne hb hnull _
  have h₂ : readsWord mem o falseText = .ok false := readsWord_ne hb hfalse _
  have h₃ : readsWord mem o trueText = .ok false := readsWord_ne hb htrue _
  obtain ⟨hlt, hget⟩ := List.getElem?_eq_some_iff.mp hb
  rw [parseValueWith.eq_def, h₁, h₂, h₃]
  simp only [Checked.ok_bind, Bool.false_eq_true, if_false]
  have hread : readAt mem o = .ok b := (readAt_eq hlt).trans (congrArg Except.ok hget)
  exact (if_pos hlt).trans (congrArg (fun x => x >>= _) hread)

/-- A value that begins with the letter of a word is the word. -/
theorem parseValueWith_of_word {mem : List UInt8} {o : ℕ} {b : UInt8} (hb : mem[o]? = some b)
    {word : List UInt8} {v : CJson} (hword : wordOf b = some (word, v))
    (nested : Option (Parser CJson)) :
    parseValueWith mem D fresh nested o = (do
      if ← readsWord mem o word then pure (some (v, o + word.length)) else pure none) := by
  have hother : ∀ c w, c ≠ b → readsWord mem o (c :: w) = .ok false := fun c w hne =>
    readsWord_ne hb hne.symm w
  unfold wordOf at hword
  rw [parseValueWith.eq_def]
  split_ifs at hword with hnull hfalse htrue
  all_goals
    obtain ⟨rfl, rfl⟩ := Prod.mk.inj (Option.some.inj hword)
    subst b
    obtain ⟨hlt, hget⟩ := List.getElem?_eq_some_iff.mp hb
  · have h₂ : readsWord mem o falseText = .ok false := hother _ _ (by decide)
    have h₃ : readsWord mem o trueText = .ok false := hother _ _ (by decide)
    rw [readsWord_eq _ (by decide)]
    simp only [Checked.ok_bind, h₂, h₃, if_pos hlt, readAt_eq hlt, hget]
    exact if_congr Iff.rfl rfl rfl
  · have h₁ : readsWord mem o nullText = .ok false := hother _ _ (by decide)
    have h₃ : readsWord mem o trueText = .ok false := hother _ _ (by decide)
    rw [h₁, readsWord_eq _ (by decide)]
    simp only [Checked.ok_bind, h₃, if_pos hlt, readAt_eq hlt, hget]
    rw [if_neg Bool.false_ne_true]
    exact if_congr Iff.rfl rfl rfl
  · have h₁ : readsWord mem o nullText = .ok false := hother _ _ (by decide)
    have h₂ : readsWord mem o falseText = .ok false := hother _ _ (by decide)
    rw [h₁, h₂, readsWord_eq _ (by decide)]
    simp only [Checked.ok_bind, if_pos hlt, readAt_eq hlt, hget]
    rw [if_neg Bool.false_ne_true, if_neg Bool.false_ne_true]
    exact if_congr Iff.rfl rfl rfl

/-- What is known of the words. -/
theorem wordOf_some {b : UInt8} {word : List UInt8} {v : CJson} (h : wordOf b = some (word, v)) :
    b ≠ 0 ∧ word ≠ [] ∧ 0 ∉ word ∧ ∀ q, v ≠ .number q := by
  unfold wordOf at h
  split_ifs at h with hnull hfalse htrue
  all_goals
    obtain ⟨rfl, rfl⟩ := Prod.mk.inj (Option.some.inj h)
    subst b
    exact ⟨by decide, by decide, by decide, fun q hq => by cases hq⟩

/-- **A value in the front.** -/
theorem parseValueWith_front (hrest : rest ≠ []) {nested nested' : Option (Parser CJson)}
    (hnested : ∀ p ∈ nested, ∃ p' ∈ nested', Stands front p p') :
    Stands front (parseValueWith (front ++ [0]) D fresh nested)
      (parseValueWith (front ++ rest) D fresh nested') := by
  intro o a o' ho h
  have hmem : o < (front ++ [0]).length := by
    simp only [List.length_append, List.length_singleton]
    omega
  obtain ⟨b, hb⟩ : ∃ b, (front ++ [0])[o]? = some b := ⟨_, List.getElem?_eq_getElem hmem⟩
  -- a byte that is found in the front is found in the whole
  have hwhole : b ≠ 0 → o < front.length ∧ (front ++ rest)[o]? = some b := fun hne => by
    have hfront := getElem?_front hne hb
    have hlt := lt_of_getElem?_front hfront
    exact ⟨hlt, by rwa [List.getElem?_append_left hlt]⟩
  cases hword : wordOf b with
  | some w =>
    obtain ⟨word, v⟩ := w
    obtain ⟨hb0, hne, hnul, hv⟩ := wordOf_some hword
    obtain ⟨hlt, hb'⟩ := hwhole hb0
    rw [parseValueWith_of_word hb hword, readsWord_eq _ hne, Checked.ok_bind] at h
    split at h
    next hpre =>
      obtain ⟨rfl, rfl⟩ := Prod.mk.inj (Option.some.inj (Except.ok.inj h))
      obtain ⟨hle, hsame⟩ := readsWord_front rest ho hne hnul (of_decide_eq_true hpre)
      refine .of_eq hlt hle hv ?_
      rw [parseValueWith_of_word hb' hword, hsame, Checked.ok_bind]
      rfl
    next => cases h
  | none =>
    rw [parseValueWith_of_head hb hword] at h
    have hb0 : b ≠ 0 := by
      rintro rfl
      cases h
    obtain ⟨hlt, hb'⟩ := hwhole hb0
    have hread : parseValueWith (front ++ rest) D fresh nested' o = _ :=
      parseValueWith_of_head hb' hword nested'
    split at h
    next hquote =>
      obtain ⟨s, o₁, hs, h⟩ := some_of_bind h rfl
      obtain ⟨rfl, rfl⟩ := Prod.mk.inj (Option.some.inj (Except.ok.inj h))
      obtain ⟨-, hstop, hsame⟩ := parseString_front rest ho hs
      refine .of_eq hlt hstop (fun q hq => by cases hq) ?_
      rw [hread, if_pos hquote, hsame, Checked.ok_bind]
      rfl
    next hquote =>
    rw [if_neg hquote] at hread
    split at h
    next hnumber =>
      rw [if_pos hnumber] at hread
      obtain ⟨hstart, hstop, hsame, hany⟩ := parseNumber_front rest ho h
      exact ⟨hstart, hstop, fun hset => hread.trans (hsame hset), fun hq => hread ▸ hany hq⟩
    next hnumber =>
    rw [if_neg hnumber] at hread
    split at h
    next hopen =>
      rw [if_pos hopen] at hread
      cases nested with
      | none => cases h
      | some p =>
        obtain ⟨p', hp', hstands⟩ := hnested p rfl
        obtain rfl := Option.mem_def.mp hp'
        obtain ⟨hstop, hne, hsame⟩ := parseArray_front hrest hstands hlt h
        exact .of_eq hlt hstop hne (hread.trans hsame)
    next hopen =>
    rw [if_neg hopen] at hread
    split at h
    next hbrace =>
      rw [if_pos hbrace] at hread
      cases nested with
      | none => cases h
      | some p =>
        obtain ⟨p', hp', hstands⟩ := hnested p rfl
        obtain rfl := Option.mem_def.mp hp'
        obtain ⟨hstop, hne, hsame⟩ := parseObject_front hrest hstands hlt h
        exact .of_eq hlt hstop hne (hread.trans hsame)
    next => cases h

theorem parseValue_front (hrest : rest ≠ []) : ∀ levels,
    Stands front (parseValue (front ++ [0]) D fresh levels)
      (parseValue (front ++ rest) D fresh levels) := by
  intro levels
  induction levels with
  | zero => exact parseValueWith_front hrest (by simp)
  | succ levels ih =>
    refine parseValueWith_front hrest fun p hp => ?_
    obtain rfl := Option.some.inj hp
    exact ⟨_, rfl, ih⟩

/-! ### Texts -/

theorem skipUtf8Bom_eq (mem : List UInt8) :
    skipUtf8Bom mem = .ok (if 4 < mem.length ∧ bomText <+: mem then 3 else 0) := by
  rw [skipUtf8Bom]
  by_cases hlen : 4 < mem.length
  · rw [if_pos hlen, strncmpAt_eq _ _ (by simp [bomText]; omega), Checked.ok_bind, List.drop_zero]
    by_cases hpre : bomText <+: mem
    · rw [if_pos (decide_eq_true hpre), if_pos ⟨hlen, hpre⟩]
      rfl
    · rw [if_neg (by simpa using hpre), if_neg fun h => hpre h.2]
      rfl
  · rw [if_neg hlen, if_neg fun h => hlen h.1]
    rfl

/-- No value begins with the first byte of the mark. -/
theorem parseValue_bom {mem : List UInt8} {o : ℕ} (h : mem[o]? = some 0xEF) (levels : ℕ) :
    parseValue mem D fresh levels o = .ok none := by
  cases levels with
  | zero => exact parseValueWith_of_head h rfl none
  | succ levels => exact parseValueWith_of_head h rfl (some (parseValue mem D fresh levels))

/-- The mark is skipped in the whole if it is in the front, when a value follows. -/
theorem skipUtf8Bom_front {o o' : ℕ} {j : CJson}
    (ho : skipUtf8Bom (front ++ [0]) = .ok o)
    (h : parseValue (front ++ [0]) D fresh nestingLimit (afterSpaces (front ++ [0]) o)
      = .ok (some (j, o'))) (hlt : afterSpaces (front ++ [0]) o < front.length)
    (hrest : rest ≠ []) : skipUtf8Bom (front ++ rest) = .ok o := by
  have hpos := List.length_pos_iff.mpr hrest
  have hthree : bomText.length = 3 := rfl
  rw [← ho, skipUtf8Bom_eq, skipUtf8Bom_eq]
  have hpre : ∀ r : List UInt8, 3 ≤ front.length →
      (bomText <+: front ++ r ↔ bomText <+: front) := fun r hlen =>
    ⟨fun hp => List.prefix_of_prefix_length_le hp (List.prefix_append _ _) (by omega),
      fun hp => hp.trans (List.prefix_append _ _)⟩
  refine congrArg Except.ok (if_congr ?_ rfl rfl)
  simp only [List.length_append, List.length_singleton]
  by_cases hlen : 3 < front.length
  · rw [hpre _ hlen.le, hpre _ hlen.le]
    exact and_congr_left fun _ => by omega
  · refine iff_of_false (fun hbom => ?_) fun hbom => by omega
    -- the front begins with the first byte of the mark, and no value does
    have hne : front ≠ [] := List.length_pos_iff.mp (by omega)
    obtain ⟨b, tail, rfl⟩ := List.exists_cons_of_ne_nil hne
    obtain rfl : 0xEF = b := (List.cons_prefix_cons.mp hbom.2).1
    rw [skipUtf8Bom_eq, if_neg fun hc => by
      simp only [List.length_append, List.length_singleton] at hc; omega] at ho
    obtain rfl : 0 = o := Except.ok.inj ho
    have hhead : (0xEF :: tail ++ [0]).drop 0 = 0xEF :: (tail ++ [0]) := rfl
    rw [afterSpaces_of_head hhead (by decide), parseValue_bom rfl] at h
    cases h

/-- **A front that is accepted.**  The whole text is read as the same value, or both are
numbers: then the whole is read as another number, or not at all. -/
theorem cJsonParse_front {a b : CStr} (hpre : a.bytes <+: b.bytes) {j : CJson}
    (h : cJsonParse D fresh a = .ok (some j)) :
    cJsonParse D fresh b = .ok (some j) ∨
      (∃ q, j = .number q) ∧
        ∃ r, cJsonParse D fresh b = .ok r ∧ ∀ j' ∈ r, ∃ q, j' = .number q := by
  obtain ⟨d, hd⟩ := hpre
  have hrest : d ++ [0] ≠ [] := List.append_ne_nil_of_right_ne_nil _ (List.cons_ne_nil _ _)
  rw [cJsonParse, parseBuffer, if_neg (by simp)] at h
  rw [cJsonParse, ← hd, List.append_assoc, parseBuffer, if_neg (by simp)]
  obtain ⟨o, ho⟩ := skipUtf8Bom_reads (a.bytes ++ [0])
  rw [ho, Checked.ok_bind, bufferSkipWhitespace_eq, Checked.ok_bind] at h
  obtain ⟨item, o₁, hvalue, h⟩ := some_of_bind h rfl
  obtain rfl := Option.some.inj (Except.ok.inj h)
  have hbom : o ≤ a.bytes.length := by
    rw [skipUtf8Bom_eq] at ho
    obtain rfl := Except.ok.inj ho
    split_ifs with hc
    · simp only [List.length_append, List.length_singleton] at hc
      omega
    · exact Nat.zero_le _
  obtain ⟨hle, hsame⟩ := afterSpaces_front hrest hbom
  obtain ⟨hstart, -, hread, hnumber⟩ := parseValue_front hrest nestingLimit _ _ _
      hle hvalue
  rw [skipUtf8Bom_front ho hvalue hstart hrest, Checked.ok_bind, bufferSkipWhitespace_eq,
    Checked.ok_bind, hsame hstart]
  by_cases hnum : ∃ q, item = .number q
  · refine .inr ⟨hnum, ?_⟩
    obtain ⟨r, hr, hall⟩ := hnumber hnum
    rw [hr, Checked.ok_bind]
    rcases r with _ | ⟨j', o'⟩
    · exact ⟨none, rfl, fun _ hj' => by cases hj'⟩
    · exact ⟨some j', rfl, fun j'' hj'' => Option.some.inj hj'' ▸ hall _ rfl⟩
  · rw [hread fun hq => absurd hq hnum, Checked.ok_bind]
    exact .inl rfl

end Json
end WifiRepeater
