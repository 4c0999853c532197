import WifiRepeater.Json.Strings
import WifiRepeater.Web.Request

/-!
# The JSON parser

cJSON parses by recursive descent over a buffer whose length it knows.  The text comes from
whoever sends a request, and the parser looks ahead, steps back after white space at the end
of the buffer, and calls itself for every level of nesting.  Here it is with every access
checked; the nesting is bounded by `CJSON_NESTING_LIMIT`, and the model recurses on the
number of levels that are left.

The conversions between numbers and text are those of the C library.  They are a parameter,
of which is used that whole numbers of at most fifteen digits are converted exactly; an
overflow to infinity is taken for a large number, as `valueint` does.  Allocations succeed.

## Main definitions

* `Doubles` — the conversions.
* `bufferSkipWhitespace`, `parseNumber`, `parseArray`, `parseObject`, `parseValue` — the
  parser.
* `cJsonParse` — `cJSON_Parse`.

## Main results

* `parseBuffer_safe` — **whatever the buffer holds, the parser ends and stays within it**,
  and what it returns is no deeper than the limit.
-/

namespace WifiRepeater
namespace Json

/-! ### Numbers -/

/-- `%d`. -/
def decimal (n : ℤ) : List UInt8 :=
  (if n < 0 then [0x2d] else []) ++
    (Nat.toDigits 10 n.natAbs).map fun c => UInt8.ofNat c.toNat

/-- The numbers that fifteen digits write. -/
def Fits (n : ℤ) : Prop := n.natAbs < 10 ^ 15

/-- The conversions of the C library. -/
structure Doubles where
  /-- `strtod`: the value, and the length of what was converted; `none` when it is zero. -/
  strtod : List UInt8 → Option (ℚ × ℕ)
  /-- `%1.15g`, or `%1.17g` where that is read back as another number. -/
  format : ℚ → CStr
  /-- What is converted is at the front of the text. -/
  strtod_le : ∀ {l q n}, strtod l = some (q, n) → 0 < n ∧ n ≤ l.length
  /-- A whole number is converted as a whole. -/
  strtod_decimal : ∀ {n : ℤ}, Fits n →
    strtod (decimal n) = some ((n : ℚ), (decimal n).length)
  /-- Seventeen digits, a sign, a point and an exponent at most. -/
  format_length : ∀ q, (format q).length ≤ 25
  /-- A whole number is written without a point or an exponent. -/
  format_decimal : ∀ {n : ℤ}, Fits n → (format (n : ℚ)).bytes = decimal n

/-! ### Looking at the buffer -/

variable (mem : List UInt8)

/-- `can_access_at_index(buffer, 0) && buffer_at_offset(buffer)[0] == c`. -/
def isAt (offset : ℕ) (c : UInt8) : Checked Bool :=
  if offset < mem.length then do pure ((← readAt mem offset) == c) else pure false

/-- The loop of `buffer_skip_whitespace`. -/
def skipSpaces : ℕ → ℕ → Checked ℕ
  | 0, _ => .error .endless
  | fuel + 1, offset =>
      if offset < mem.length then do
        if (← readAt mem offset) ≤ 32 then skipSpaces fuel (offset + 1) else pure offset
      else pure offset

/-- `buffer_skip_whitespace`: at the end of the buffer it steps back. -/
def bufferSkipWhitespace (offset : ℕ) : Checked ℕ :=
  if offset < mem.length then do
    let offset ← skipSpaces mem (mem.length + 1) offset
    pure (if offset = mem.length then offset - 1 else offset)
  else pure offset

/-- `strncmp(buffer_at_offset(buffer), word, strlen(word)) == 0`. -/
def strncmpAt : ℕ → List UInt8 → Checked Bool
  | _, [] => pure true
  | offset, c :: cs => do
      if (← readAt mem offset) = c then strncmpAt (offset + 1) cs else pure false

/-- A word, when `can_read` finds it long enough. -/
def readsWord (offset : ℕ) (word : List UInt8) : Checked Bool :=
  if offset + word.length ≤ mem.length then strncmpAt mem offset word else pure false

/-- `"null"`. -/
def nullText : List UInt8 := [0x6e, 0x75, 0x6c, 0x6c]

/-- `"false"`. -/
def falseText : List UInt8 := [0x66, 0x61, 0x6c, 0x73, 0x65]

/-- `"true"`. -/
def trueText : List UInt8 := [0x74, 0x72, 0x75, 0x65]

/-- The byte order mark. -/
def bomText : List UInt8 := [0xEF, 0xBB, 0xBF]

/-- `skip_utf8_bom`, at the start of the buffer. -/
def skipUtf8Bom : Checked ℕ :=
  if 4 < mem.length then do
    if ← strncmpAt mem 0 bomText then pure 3 else pure 0
  else pure 0

/-! ### Values -/

/-- The characters `parse_number` copies. -/
def isNumberChar (b : UInt8) : Bool :=
  (0x30 ≤ b && b ≤ 0x39) || b == 0x2b || b == 0x2d || b == 0x65 || b == 0x45 || b == 0x2e

/-- The first loop of `parse_number`. -/
def numberChars : ℕ → ℕ → Checked (List UInt8)
  | 0, _ => .error .endless
  | fuel + 1, i =>
      if i < mem.length then do
        let b ← readAt mem i
        if isNumberChar b then pure (b :: (← numberChars fuel (i + 1))) else pure []
      else pure []

/-- A parser, from an offset: what it has parsed and the offset behind it, or a failure. -/
abbrev Parser (α : Type) := ℕ → Checked (Option (α × ℕ))

variable (D : Doubles) (fresh : (n : ℕ) → Buf n)

/-- `parse_number`. -/
def parseNumber : Parser CJson := fun offset => do
  match D.strtod (← numberChars mem (mem.length + 1) offset) with
  | none => pure none
  | some (q, n) => pure (some (.number q, offset + n))

/-- The loop of `parse_array`, one byte before an element. -/
def parseElements (value : Parser CJson) : ℕ → Parser (List CJson)
  | 0, _ => .error .endless
  | fuel + 1, offset => do
      match ← value (← bufferSkipWhitespace mem (offset + 1)) with
      | none => pure none
      | some (item, offset) =>
          let offset ← bufferSkipWhitespace mem offset
          if ← isAt mem offset 0x2c then
            match ← parseElements value fuel offset with
            | none => pure none
            | some (items, offset) => pure (some (item :: items, offset))
          else if ← isAt mem offset 0x5d then pure (some ([item], offset + 1))
          else pure none

/-- `parse_array`, where `value` parses the elements. -/
def parseArray (value : Parser CJson) : Parser CJson := fun offset => do
  if (← readAt mem offset) ≠ 0x5b then pure none
  else
    let offset ← bufferSkipWhitespace mem (offset + 1)
    if ← isAt mem offset 0x5d then pure (some (.array [], offset + 1))
    else if mem.length ≤ offset then pure none
    else
      match ← parseElements mem value (mem.length + 1) (offset - 1) with
      | none => pure none
      | some (items, offset) => pure (some (.array items, offset))

/-- The loop of `parse_object`, one byte before a name. -/
def parseMembers (value : Parser CJson) : ℕ → Parser (List (CStr × CJson))
  | 0, _ => .error .endless
  | fuel + 1, offset =>
      if mem.length ≤ offset + 1 then pure none
      else do
        match ← parseString fresh mem (← bufferSkipWhitespace mem (offset + 1)) with
        | none => pure none
        | some (name, offset) =>
            let offset ← bufferSkipWhitespace mem offset
            if !(← isAt mem offset 0x3a) then pure none
            else
              match ← value (← bufferSkipWhitespace mem (offset + 1)) with
              | none => pure none
              | some (item, offset) =>
                  let offset ← bufferSkipWhitespace mem offset
                  if ← isAt mem offset 0x2c then
                    match ← parseMembers value fuel offset with
                    | none => pure none
                    | some (members, offset) => pure (some ((name, item) :: members, offset))
                  else if ← isAt mem offset 0x7d then pure (some ([(name, item)], offset + 1))
                  else pure none

/-- `parse_object`, where `value` parses the values of the members. -/
def parseObject (value : Parser CJson) : Parser CJson := fun offset => do
  if !(← isAt mem offset 0x7b) then pure none
  else
    let offset ← bufferSkipWhitespace mem (offset + 1)
    if ← isAt mem offset 0x7d then pure (some (.object [], offset + 1))
    else if mem.length ≤ offset then pure none
    else
      match ← parseMembers mem fresh value (mem.length + 1) (offset - 1) with
      | none => pure none
      | some (members, offset) => pure (some (.object members, offset))

/-- The tests of `parse_value`, in their order.  What is inside an array or an object is
parsed by `nested`, which is missing at the nesting limit. -/
def parseValueWith (nested : Option (Parser CJson)) : Parser CJson := fun offset => do
  if ← readsWord mem offset nullText then pure (some (.null, offset + 4))
  else if ← readsWord mem offset falseText then pure (some (.bool false, offset + 5))
  else if ← readsWord mem offset trueText then pure (some (.bool true, offset + 4))
  else if offset < mem.length then
    let b ← readAt mem offset
    if b = 0x22 then
      match ← parseString fresh mem offset with
      | none => pure none
      | some (s, offset) => pure (some (.string s, offset))
    else if b = 0x2d ∨ 0x30 ≤ b ∧ b ≤ 0x39 then parseNumber mem D offset
    else if b = 0x5b then
      match nested with
      | none => pure none
      | some value => parseArray mem value offset
    else if b = 0x7b then
      match nested with
      | none => pure none
      | some value => parseObject mem fresh value offset
    else pure none
  else pure none

/-- `parse_value` with `levels` levels of nesting left. -/
def parseValue : ℕ → Parser CJson
  | 0 => parseValueWith mem D fresh none
  | levels + 1 => parseValueWith mem D fresh (some (parseValue levels))

/-- `CJSON_NESTING_LIMIT`. -/
def nestingLimit : ℕ := 1000

/-- `cJSON_ParseWithLengthOpts` of a buffer, whatever follows the value. -/
def parseBuffer : Checked (Option CJson) :=
  if mem.length = 0 then pure none
  else do
    let offset ← bufferSkipWhitespace mem (← skipUtf8Bom mem)
    match ← parseValue mem D fresh nestingLimit offset with
    | none => pure none
    | some (item, _) => pure (some item)

/-- `cJSON_Parse`: the terminator belongs to the buffer. -/
def cJsonParse (value : CStr) : Checked (Option CJson) :=
  parseBuffer (value.bytes ++ [0]) D fresh

/-! ### What the small functions find -/

section Looking

variable {mem : List UInt8}

theorem isAt_eq (offset : ℕ) (c : UInt8) :
    isAt mem offset c = .ok (mem[offset]? == some c) := by
  rw [isAt]
  by_cases h : offset < mem.length
  · rw [if_pos h, readAt_eq h, List.getElem?_eq_getElem h]
    rfl
  · rw [if_neg h, List.getElem?_eq_none (Nat.le_of_not_lt h)]
    rfl

/-- Where `buffer_skip_whitespace` stops. -/
def afterSpaces (mem : List UInt8) (offset : ℕ) : ℕ :=
  let stop := offset + ((mem.drop offset).takeWhile (· ≤ 32)).length
  if offset < mem.length ∧ stop = mem.length then stop - 1 else stop

theorem skipSpaces_eq : ∀ (fuel offset : ℕ), mem.length - offset < fuel →
    skipSpaces mem fuel offset
      = .ok (offset + ((mem.drop offset).takeWhile (· ≤ 32)).length) := by
  intro fuel
  induction fuel with
  | zero => intro offset h; omega
  | succ fuel ih =>
    intro offset h
    rw [skipSpaces]
    by_cases hlt : offset < mem.length
    case neg =>
      rw [if_neg hlt, List.drop_eq_nil_of_le (by omega)]
      rfl
    rw [if_pos hlt, readAt_eq hlt, Checked.ok_bind, List.drop_eq_getElem_cons hlt,
      List.takeWhile_cons]
    by_cases hspace : mem[offset] ≤ 32
    · rw [if_pos hspace, if_pos (by simpa using hspace), ih _ (by omega), List.length_cons,
        Nat.add_assoc, Nat.add_comm 1]
    · rw [if_neg hspace, if_neg (by simpa using hspace)]
      rfl

theorem bufferSkipWhitespace_eq (offset : ℕ) :
    bufferSkipWhitespace mem offset = .ok (afterSpaces mem offset) := by
  rw [bufferSkipWhitespace, afterSpaces]
  by_cases hlt : offset < mem.length
  · rw [if_pos hlt, skipSpaces_eq _ _ (by omega), Checked.ok_bind]
    simp only [hlt, true_and]
    rfl
  · rw [if_neg hlt, if_neg (by tauto), List.drop_eq_nil_of_le (by omega)]
    rfl

/-- Within the buffer white space is skipped within the buffer. -/
theorem afterSpaces_lt {offset : ℕ} (h : offset < mem.length) :
    offset ≤ afterSpaces mem offset ∧ afterSpaces mem offset < mem.length := by
  have hle := (List.takeWhile_sublist (· ≤ (32 : UInt8)) (l := mem.drop offset)).length_le
  rw [List.length_drop] at hle
  rw [afterSpaces]
  split_ifs with hend <;> omega

theorem afterSpaces_of_le {offset : ℕ} (h : mem.length ≤ offset) :
    afterSpaces mem offset = offset := by
  rw [afterSpaces, if_neg (by omega), List.drop_eq_nil_of_le h]
  rfl

/-- Where no white space stands, nothing is skipped. -/
theorem afterSpaces_of_head {offset : ℕ} {b : UInt8} {rest : List UInt8}
    (h : mem.drop offset = b :: rest) (hb : 32 < b) : afterSpaces mem offset = offset := by
  have hlt : offset < mem.length := by
    by_contra hle
    rw [List.drop_eq_nil_of_le (by omega)] at h
    cases h
  have hnone : (mem.drop offset).takeWhile (· ≤ 32) = [] := by
    rw [h, List.takeWhile_cons, if_neg (by simpa using hb)]
  simp only [afterSpaces, hnone, List.length_nil, Nat.add_zero]
  exact if_neg (by omega)

theorem strncmpAt_eq : ∀ (word : List UInt8) (offset : ℕ), offset + word.length ≤ mem.length →
    strncmpAt mem offset word = .ok (decide (word <+: mem.drop offset)) := by
  intro word
  induction word with
  | nil => intro offset _; simp [strncmpAt]; rfl
  | cons c cs ih =>
    intro offset h
    rw [List.length_cons] at h
    rw [strncmpAt, readAt_eq (by omega), Checked.ok_bind, List.drop_eq_getElem_cons (by omega)]
    by_cases hc : mem[offset] = c
    · rw [if_pos hc, ih _ (by omega), hc]
      simp only [List.prefix_cons_inj]
    · rw [if_neg hc, decide_eq_false fun hpre => hc (List.cons_prefix_cons.mp hpre).1.symm]
      rfl

theorem readsWord_eq (offset : ℕ) {word : List UInt8} (hword : word ≠ []) :
    readsWord mem offset word = .ok (decide (word <+: mem.drop offset)) := by
  rw [readsWord]
  by_cases h : offset + word.length ≤ mem.length
  · rw [if_pos h, strncmpAt_eq _ _ h]
  · rw [if_neg h]
    refine congrArg Except.ok (decide_eq_false fun hpre => ?_).symm
    have hle := hpre.length_le
    have hpos := List.length_pos_iff.mpr hword
    rw [List.length_drop] at hle
    omega

theorem numberChars_eq : ∀ (fuel i : ℕ), mem.length - i < fuel →
    numberChars mem fuel i = .ok ((mem.drop i).takeWhile isNumberChar) := by
  intro fuel
  induction fuel with
  | zero => intro i h; omega
  | succ fuel ih =>
    intro i h
    rw [numberChars]
    by_cases hlt : i < mem.length
    case neg =>
      rw [if_neg hlt, List.drop_eq_nil_of_le (by omega)]
      rfl
    rw [if_pos hlt, readAt_eq hlt, Checked.ok_bind, List.drop_eq_getElem_cons hlt,
      List.takeWhile_cons]
    by_cases hnumber : isNumberChar mem[i] = true
    · rw [if_pos hnumber, if_pos hnumber, ih _ (by omega)]
      rfl
    · rw [if_neg hnumber, if_neg hnumber]
      rfl

theorem le_afterSpaces (mem : List UInt8) (offset : ℕ) : offset ≤ afterSpaces mem offset := by
  rcases Nat.lt_or_ge offset mem.length with h | h
  · exact (afterSpaces_lt h).1
  · exact (afterSpaces_of_le h).ge

end Looking

/-! ### The parser stays within the buffer -/

mutual

/-- How deep arrays and objects are nested in a value. -/
def depth : CJson → ℕ
  | .null | .bool _ | .number _ | .string _ => 0
  | .array items => depthItems items + 1
  | .object members => depthMembers members + 1

/-- The depth of the deepest element. -/
def depthItems : List CJson → ℕ
  | [] => 0
  | item :: items => max (depth item) (depthItems items)

/-- The depth of the deepest member. -/
def depthMembers : List (CStr × CJson) → ℕ
  | [] => 0
  | member :: members => max (depthMember member) (depthMembers members)

/-- The depth of a member's value. -/
def depthMember : CStr × CJson → ℕ
  | (_, item) => depth item

end

theorem depthItems_le {items : List CJson} {n : ℕ} (h : ∀ j ∈ items, depth j ≤ n) :
    depthItems items ≤ n := by
  induction items with
  | nil => exact Nat.zero_le n
  | cons j items ih =>
    rw [List.forall_mem_cons] at h
    exact Nat.max_le.mpr ⟨h.1, ih h.2⟩

theorem depthMembers_le {members : List (CStr × CJson)} {n : ℕ}
    (h : ∀ m ∈ members, depth m.2 ≤ n) : depthMembers members ≤ n := by
  induction members with
  | nil => exact Nat.zero_le n
  | cons m members ih =>
    obtain ⟨name, item⟩ := m
    rw [List.forall_mem_cons] at h
    exact Nat.max_le.mpr ⟨h.1, ih h.2⟩

section Safety

variable {α : Type} {mem : List UInt8}

/-- A parser ends within the buffer, and ahead of where it began when it has parsed
something, which then is good. -/
def Reads (mem : List UInt8) (good : α → Prop) (offset : ℕ) (x : Checked (Option (α × ℕ))) :
    Prop :=
  ∃ r, x = .ok r ∧ ∀ a o, r = some (a, o) → offset < o ∧ o ≤ mem.length ∧ good a

theorem Reads.fail (mem : List UInt8) (good : α → Prop) (offset : ℕ) :
    Reads mem good offset (.ok none) :=
  ⟨none, rfl, fun _ _ h => by cases h⟩

theorem Reads.done {good : α → Prop} {offset o : ℕ} {a : α} (hlt : offset < o)
    (hle : o ≤ mem.length) (hgood : good a) : Reads mem good offset (.ok (some (a, o))) := by
  refine ⟨_, rfl, fun a' o' h => ?_⟩
  obtain ⟨rfl, rfl⟩ := Prod.mk.inj (Option.some.inj h)
  exact ⟨hlt, hle, hgood⟩

/-- After a part has been parsed, the rest. -/
theorem Reads.andThen {β : Type} {good : α → Prop} {good' : β → Prop} {offset offset' : ℕ}
    {x : Checked (Option (α × ℕ))} {k : Option (α × ℕ) → Checked (Option (β × ℕ))}
    (hx : Reads mem good offset x) (hnone : k none = .ok none)
    (hsome : ∀ a o, offset < o → o ≤ mem.length → good a →
      Reads mem good' offset' (k (some (a, o)))) :
    Reads mem good' offset' (x >>= k) := by
  obtain ⟨r, rfl, hr⟩ := hx
  rw [Checked.ok_bind]
  rcases r with _ | ⟨a, o⟩
  · rw [hnone]
    exact .fail ..
  · obtain ⟨hlt, hle, hgood⟩ := hr a o rfl
    exact hsome a o hlt hle hgood

theorem lt_of_isAt {offset : ℕ} {c : UInt8} (h : (mem[offset]? == some c) = true) :
    offset < mem.length :=
  (List.getElem?_eq_some_iff.mp (beq_iff_eq.mp h)).1

variable (D : Doubles) (fresh : (n : ℕ) → Buf n)

theorem parseString_reads {offset : ℕ} (h : offset < mem.length) :
    Reads mem (fun _ => True) offset (parseString fresh mem offset) := by
  rw [parseString_eq fresh h]
  refine ⟨_, rfl, fun s o hread => ?_⟩
  obtain ⟨⟨s', k⟩, hk, hr⟩ := Option.map_eq_some_iff.mp hread
  obtain ⟨-, rfl⟩ := Prod.mk.inj hr
  obtain ⟨hpos, hle⟩ := readString_le hk
  rw [List.length_drop] at hle
  exact ⟨by simp only; omega, by simp only; omega, trivial⟩

theorem parseNumber_reads (mem : List UInt8) (offset : ℕ) :
    Reads mem (fun j => depth j = 0) offset (parseNumber mem D offset) := by
  rw [parseNumber, numberChars_eq _ _ (by omega), Checked.ok_bind]
  rcases hread : D.strtod ((mem.drop offset).takeWhile isNumberChar) with _ | ⟨q, n⟩
  · exact .fail ..
  · obtain ⟨hpos, hle⟩ := D.strtod_le hread
    have hlen := (List.takeWhile_sublist isNumberChar (l := mem.drop offset)).length_le
    rw [List.length_drop] at hlen
    exact .done (by omega) (by omega) rfl

variable {value : Parser CJson} {good : CJson → Prop}

/-- The loop of an array: every turn goes ahead. -/
theorem parseElements_reads (hvalue : ∀ o, Reads mem good o (value o)) : ∀ (fuel offset : ℕ),
    mem.length - offset < fuel →
      Reads mem (∀ j ∈ ·, good j) offset (parseElements mem value fuel offset) := by
  intro fuel
  induction fuel with
  | zero => intro offset h; omega
  | succ fuel ih =>
    intro offset h
    rw [parseElements, bufferSkipWhitespace_eq, Checked.ok_bind]
    have hstart := le_afterSpaces mem (offset + 1)
    refine (hvalue _).andThen rfl fun item o hlt hle hgood => ?_
    have hspaces := le_afterSpaces mem o
    simp only [bufferSkipWhitespace_eq, isAt_eq, Checked.ok_bind]
    split
    · refine (ih _ (by omega)).andThen rfl fun items o' hlt' hle' hgood' => ?_
      exact .done (by omega) hle' (List.forall_mem_cons.mpr ⟨hgood, hgood'⟩)
    · split
      next hclose =>
        have := lt_of_isAt hclose
        exact .done (by omega) (by omega) (by simpa using hgood)
      next => exact .fail ..

theorem parseArray_reads {levels offset : ℕ} (hlt : offset < mem.length)
    (hvalue : ∀ o, Reads mem (depth · ≤ levels) o (value o)) :
    Reads mem (depth · ≤ levels + 1) offset (parseArray mem value offset) := by
  rw [parseArray, readAt_eq hlt, Checked.ok_bind]
  by_cases hopen : mem[offset] ≠ 0x5b
  · rw [if_pos hopen]
    exact .fail ..
  rw [if_neg hopen, bufferSkipWhitespace_eq, Checked.ok_bind, isAt_eq, Checked.ok_bind]
  have hspaces := le_afterSpaces mem (offset + 1)
  split
  next hclose =>
    have := lt_of_isAt hclose
    exact .done (by omega) (by omega) (Nat.succ_le_succ (Nat.zero_le _))
  split
  next => exact .fail ..
  next =>
    refine (parseElements_reads hvalue _ _ (by omega)).andThen rfl fun items o hlt' hle hgood => ?_
    exact .done (by omega) hle (Nat.succ_le_succ (depthItems_le hgood))

/-- The loop of an object. -/
theorem parseMembers_reads (hvalue : ∀ o, Reads mem good o (value o)) : ∀ (fuel offset : ℕ),
    mem.length - offset < fuel →
      Reads mem (∀ m ∈ ·, good m.2) offset (parseMembers mem fresh value fuel offset) := by
  intro fuel
  induction fuel with
  | zero => intro offset h; omega
  | succ fuel ih =>
    intro offset h
    rw [parseMembers]
    by_cases hlast : mem.length ≤ offset + 1
    · rw [if_pos hlast]
      exact .fail ..
    rw [if_neg hlast, bufferSkipWhitespace_eq, Checked.ok_bind]
    obtain ⟨hstart, hlt⟩ := afterSpaces_lt (Nat.lt_of_not_le hlast)
    refine (parseString_reads fresh hlt).andThen rfl fun name o₁ hlt₁ _ _ => ?_
    have hspaces₁ := le_afterSpaces mem o₁
    simp only [bufferSkipWhitespace_eq, isAt_eq, Checked.ok_bind]
    split
    next => exact .fail ..
    next hcolon =>
      have hspaces₂ := le_afterSpaces mem (afterSpaces mem o₁ + 1)
      refine (hvalue _).andThen rfl fun item o₂ hlt₂ hle₂ hgood => ?_
      have hspaces₃ := le_afterSpaces mem o₂
      dsimp only
      split
      · refine (ih _ (by omega)).andThen rfl fun members o' hlt' hle' hgood' => ?_
        exact .done (by omega) hle' (List.forall_mem_cons.mpr ⟨hgood, hgood'⟩)
      · split
        next hclose =>
          have := lt_of_isAt hclose
          exact .done (by omega) (by omega) (by simpa using hgood)
        next => exact .fail ..

theorem parseObject_reads {levels : ℕ} (offset : ℕ)
    (hvalue : ∀ o, Reads mem (depth · ≤ levels) o (value o)) :
    Reads mem (depth · ≤ levels + 1) offset (parseObject mem fresh value offset) := by
  rw [parseObject, isAt_eq, Checked.ok_bind]
  split
  next => exact .fail ..
  rw [bufferSkipWhitespace_eq, Checked.ok_bind, isAt_eq, Checked.ok_bind]
  have hspaces := le_afterSpaces mem (offset + 1)
  split
  next hclose =>
    have := lt_of_isAt hclose
    exact .done (by omega) (by omega) (Nat.succ_le_succ (Nat.zero_le _))
  split
  next => exact .fail ..
  next =>
    refine (parseMembers_reads fresh hvalue _ _ (by omega)).andThen rfl
      fun members o hlt' hle hgood => ?_
    exact .done (by omega) hle (Nat.succ_le_succ (depthMembers_le hgood))

/-- A word that is read lies in the buffer. -/
theorem word_le {offset : ℕ} {word : List UInt8} (h : word <+: mem.drop offset)
    (hword : 0 < word.length) : offset + word.length ≤ mem.length := by
  have := h.length_le
  rw [List.length_drop] at this
  omega

/-- The tests of `parse_value`, with arrays and objects of `levels` levels or none at all. -/
theorem parseValueWith_reads {levels : ℕ} {nested : Option (Parser CJson)}
    (hnested : ∀ p ∈ nested, 0 < levels ∧ ∀ o, Reads mem (depth · ≤ levels - 1) o (p o))
    (offset : ℕ) :
    Reads mem (depth · ≤ levels) offset (parseValueWith mem D fresh nested offset) := by
  rw [parseValueWith.eq_def, readsWord_eq _ (by decide), readsWord_eq _ (by decide),
    readsWord_eq _ (by decide)]
  simp only [Checked.ok_bind, decide_eq_true_eq]
  split
  next hword =>
    exact .done (by omega) (word_le hword (by decide)) (Nat.zero_le levels)
  split
  next hword =>
    exact .done (by omega) (word_le hword (by decide)) (Nat.zero_le levels)
  split
  next hword =>
    exact .done (by omega) (word_le hword (by decide)) (Nat.zero_le levels)
  split
  next hlt =>
    rw [readAt_eq hlt, Checked.ok_bind]
    split
    · exact (parseString_reads fresh hlt).andThen rfl fun s o hlt' hle _ =>
        .done hlt' hle (Nat.zero_le levels)
    split
    · obtain ⟨r, hr, hspec⟩ := parseNumber_reads D mem offset
      refine ⟨r, hr, fun a o h => ?_⟩
      obtain ⟨hlt', hle, hdepth⟩ := hspec a o h
      exact ⟨hlt', hle, hdepth.trans_le (Nat.zero_le levels)⟩
    split
    · rcases nested with _ | p
      · exact .fail ..
      · obtain ⟨hpos, hp⟩ := hnested p rfl
        have := parseArray_reads hlt hp
        rwa [Nat.sub_add_cancel hpos] at this
    split
    · rcases nested with _ | p
      · exact .fail ..
      · obtain ⟨hpos, hp⟩ := hnested p rfl
        have := parseObject_reads fresh offset hp
        rwa [Nat.sub_add_cancel hpos] at this
    · exact .fail ..
  next => exact .fail ..

theorem parseValue_reads (mem : List UInt8) : ∀ (levels offset : ℕ),
    Reads mem (depth · ≤ levels) offset (parseValue mem D fresh levels offset) := by
  intro levels
  induction levels with
  | zero =>
    intro offset
    exact parseValueWith_reads D fresh (by simp) offset
  | succ levels ih =>
    intro offset
    refine parseValueWith_reads D fresh (fun p hp => ?_) offset
    obtain rfl := Option.some.inj hp
    exact ⟨Nat.succ_pos levels, ih⟩

theorem skipUtf8Bom_reads (mem : List UInt8) : ∃ o, skipUtf8Bom mem = .ok o := by
  rw [skipUtf8Bom]
  split
  next h =>
    rw [strncmpAt_eq _ _ (by simp [bomText]; omega), Checked.ok_bind]
    split <;> exact ⟨_, rfl⟩
  next => exact ⟨_, rfl⟩

/-- **The parser is safe on every input.**  Whatever bytes the buffer holds, `cJSON_Parse`
ends, reads nothing outside the buffer and writes nothing outside its allocations, and a
value it returns is nested no deeper than the limit. -/
theorem parseBuffer_safe (mem : List UInt8) :
    ∃ r, parseBuffer mem D fresh = .ok r ∧ ∀ j ∈ r, depth j ≤ nestingLimit := by
  rw [parseBuffer]
  split
  next => exact ⟨none, rfl, by simp⟩
  obtain ⟨o, ho⟩ := skipUtf8Bom_reads mem
  obtain ⟨r, hr, hspec⟩ := parseValue_reads D fresh mem nestingLimit (afterSpaces mem o)
  rw [ho, Checked.ok_bind, bufferSkipWhitespace_eq, Checked.ok_bind, hr, Checked.ok_bind]
  rcases r with _ | ⟨j, o'⟩
  · exact ⟨none, rfl, by simp⟩
  · exact ⟨some j, rfl, fun j' hj' => Option.some.inj hj' ▸ (hspec j o' rfl).2.2⟩

end Safety

end Json
end WifiRepeater
