import WifiRepeater.Json.Front
import WifiRepeater.Json.Print

/-!
# What is printed is parsed

The text the printer makes of a value is read back as that value, whatever follows it in the
buffer, as long as its numbers are whole and it is not nested too deeply.

## Main definitions

* `Whole j` — every number of the value is whole and has fifteen digits at most.

## Main results

* `body_escape` — the text of a string is made of pieces that say its bytes.
* `parseValue_text` — a text in the middle of a buffer.
* `cJsonParse_print` — **printing and parsing give the value back.**
* `cJsonParse_normal` — what is parsed can be printed and parsed again.
-/

namespace WifiRepeater
namespace Json

/-! ### Strings -/

theorem hexDigit_hexChar {d : ℕ} (h : d < 16) : hexDigit (hexChar d) = some d := by
  have hall : ∀ d < 16, hexDigit (hexChar d) = some d := by decide
  exact hall d h

/-- `%04x` writes the digits of a unit. -/
theorem hex4_spec {n : ℕ} (h : n < 0x10000) : Hex4 (hex4 n) n := by
  have hlt : ∀ k, k % 16 < 16 := fun k => Nat.mod_lt k (by decide)
  refine ⟨n / 4096 % 16, n / 256 % 16, n / 16 % 16, n % 16, ?_, by omega⟩
  simp only [hex4, List.map_cons, List.map_nil, hexDigit_hexChar (hlt _)]

/-- A letter that is written for a byte is read as that byte. -/
theorem shortEscape_of_escapeLetter {b c : UInt8} (h : escapeLetter b = some c) :
    shortEscape c = some b := by
  unfold escapeLetter at h
  split_ifs at h with h₁ h₂ h₃ h₄ h₅ h₆
  · obtain rfl := Option.some.inj h
    rcases h₁ with rfl | rfl <;> rfl
  all_goals
    obtain rfl := Option.some.inj h
    subst b
    rfl

/-- A byte of the text of a string is a piece. -/
theorem piece_escapeByte (b : UInt8) : Piece (escapeByte b) [b] := by
  unfold escapeByte
  split
  next hplain => exact .plain hplain.2.1 hplain.2.2
  next hplain =>
    split
    next c hc => exact .short (shortEscape_of_escapeLetter hc)
    next hnone =>
      -- neither plain nor with a letter of its own: a control character
      have hlow : b.toNat < 32 := by
        by_contra hge
        refine hplain ⟨?_, ?_, ?_⟩
        · rw [UInt8.lt_iff_toNat_lt]
          simp
          omega
        · rintro rfl
          cases hnone
        · rintro rfl
          cases hnone
      have hval : (Char.ofNat b.toNat).toNat = b.toNat := toNat_ofNat (.inl (by omega))
      have hspells : Spells (Js.units (Char.ofNat b.toNat)) (0x5c :: 0x75 :: hex4 b.toNat) := by
        rw [Js.units, Js.codePoint, hval, if_pos (by omega)]
        have := Spells.cons (hex4_spec (n := b.toNat) (by omega)) .nil
        rwa [List.append_nil] at this
      have hbyte : String.utf8EncodeChar (Char.ofNat b.toNat) = [b] := by
        rw [String.utf8EncodeChar.eq_1,
          show (Char.ofNat b.toNat).val.toNat = b.toNat from hval, if_pos (by omega),
          UInt8.ofNat_toNat]
      have hpiece := Piece.units hspells
      rwa [hbyte] at hpiece

/-- The text of a string is made of pieces. -/
theorem body_escape (l : List UInt8) : Body (l.flatMap escapeByte) l := by
  induction l with
  | nil => exact .nil
  | cons b l ih => exact .cons (piece_escapeByte b) ih

section Reading

variable {mem : List UInt8} {offset : ℕ}

theorem lt_of_drop {b : UInt8} {l : List UInt8} (h : mem.drop offset = b :: l) :
    offset < mem.length := by
  by_contra hle
  rw [List.drop_eq_nil_of_le (by omega)] at h
  cases h

/-- What stands behind a text. -/
theorem drop_of_append {a r : List UInt8} (h : mem.drop offset = a ++ r) :
    mem.drop (offset + a.length) = r := by
  rw [← List.drop_drop, h, List.drop_left]

theorem isAt_of_drop {b : UInt8} {l : List UInt8} (h : mem.drop offset = b :: l) (c : UInt8) :
    isAt mem offset c = .ok (b == c) := by
  have hget : mem[offset]? = some b := by
    have := congrArg (fun l => l[0]?) h
    rwa [List.getElem?_drop, Nat.add_zero] at this
  rw [isAt_eq, hget]
  rfl

theorem readAt_of_drop_cons {b : UInt8} {l : List UInt8} (h : mem.drop offset = b :: l) :
    readAt mem offset = .ok b :=
  readAt_of_drop (k := 0) (by rw [h]; rfl)

/-- White space is no concern where the next byte is none. -/
theorem skip_of_drop {b : UInt8} {l : List UInt8} (h : mem.drop offset = b :: l) (hb : 32 < b) :
    bufferSkipWhitespace mem offset = .ok offset := by
  rw [bufferSkipWhitespace_eq, afterSpaces_of_head h hb]

variable (fresh : (n : ℕ) → Buf n)

theorem parseString_quoted {s : CStr} {rest : List UInt8}
    (h : mem.drop offset = quoted s ++ rest) :
    parseString fresh mem offset = .ok (some (s, offset + (quoted s).length)) := by
  have hquoted : quoted s ++ rest = 0x22 :: s.bytes.flatMap escapeByte ++ 0x22 :: rest := by
    simp [quoted]
  rw [hquoted] at h
  rw [parseString_eq fresh (lt_of_drop h), h, readString_body (body_escape s.bytes),
    CStr.ofMem_bytes]
  simp [quoted]

/-! ### Numbers -/

/-- A whole number is written in decimal, whichever branch of `print_number` writes it. -/
theorem numberText_int (D : Doubles) {n : ℤ} (h : Fits n) : numberText D n = decimal n := by
  unfold numberText
  split
  next heq =>
    have hint : n = valueint n := by exact_mod_cast heq
    rw [← hint]
  next => exact D.format_decimal h

/-- A digit. -/
theorem digit_range {n : ℕ} {c : Char} (hc : c ∈ Nat.toDigits 10 n) :
    0x30 ≤ UInt8.ofNat c.toNat ∧ UInt8.ofNat c.toNat ≤ 0x39 := by
  have hdigit := Nat.isDigit_of_mem_toDigits (by decide) (by decide) hc
  rw [Char.isDigit_iff_toNat, show '0'.toNat = 48 from rfl, show '9'.toNat = 57 from rfl] at hdigit
  simp only [UInt8.le_iff_toNat_le, UInt8.toNat_ofNat']
  simp
  omega

/-- The characters of a number are characters that `parse_number` copies. -/
theorem isNumberChar_decimal (n : ℤ) : ∀ b ∈ decimal n, isNumberChar b = true := by
  intro b hb
  rw [decimal, List.mem_append] at hb
  rcases hb with hb | hb
  · split_ifs at hb
    · rw [List.mem_singleton.mp hb]
      decide
    · cases hb
  · obtain ⟨c, hc, rfl⟩ := List.mem_map.mp hb
    simp [isNumberChar, digit_range hc]

/-- What a number begins with. -/
theorem decimal_head (n : ℤ) : ∃ b l, decimal n = b :: l ∧ (b = 0x2d ∨ 0x30 ≤ b ∧ b ≤ 0x39) := by
  rw [decimal]
  split
  · exact ⟨_, _, rfl, .inl rfl⟩
  · obtain ⟨c, cs, hcs⟩ :=
      List.exists_cons_of_ne_nil (Nat.toDigits_ne_nil (b := 10) (n := n.natAbs))
    refine ⟨_, _, by rw [hcs]; rfl, .inr (digit_range (n := n.natAbs) ?_)⟩
    rw [hcs]
    exact List.mem_cons_self

/-- What may stand behind a number. -/
def Follows (rest : List UInt8) : Prop := ∀ b ∈ rest.head?, isNumberChar b = false

theorem parseNumber_decimal (D : Doubles) {n : ℤ} (hn : Fits n) {rest : List UInt8}
    (hrest : Follows rest) (h : mem.drop offset = decimal n ++ rest) :
    parseNumber mem D offset = .ok (some (.number n, offset + (decimal n).length)) := by
  have hchars : (decimal n ++ rest).takeWhile isNumberChar = decimal n := by
    rw [List.takeWhile_append_of_pos (isNumberChar_decimal n)]
    cases rest with
    | nil => simp
    | cons b rest =>
      have hb : isNumberChar b = false := hrest b rfl
      rw [List.takeWhile_cons, if_neg (by simp [hb]), List.append_nil]
  rw [parseNumber, numberChars_eq _ _ (by omega), h, hchars, Checked.ok_bind,
    D.strtod_decimal hn]
  rfl

/-! ### Values -/

mutual

/-- Every number of a value is whole, and has fifteen digits at most. -/
def Whole : CJson → Prop
  | .null | .bool _ | .string _ => True
  | .number q => ∃ n : ℤ, Fits n ∧ q = n
  | .array items => WholeItems items
  | .object members => WholeMembers members

/-- The same of every element. -/
def WholeItems : List CJson → Prop
  | [] => True
  | item :: items => Whole item ∧ WholeItems items

/-- The same of every member. -/
def WholeMembers : List (CStr × CJson) → Prop
  | [] => True
  | member :: members => WholeMember member ∧ WholeMembers members

/-- The same of a member's value. -/
def WholeMember : CStr × CJson → Prop
  | (_, item) => Whole item

end

variable (D : Doubles) (fresh : (n : ℕ) → Buf n)

/-- What a text begins with is no white space, and closes nothing. -/
theorem text_head {j : CJson} (hj : Whole j) :
    ∃ b l, text D j = b :: l ∧ 32 < b ∧ b ≠ 0x5d ∧ b ≠ 0xEF := by
  cases j with
  | null => exact ⟨_, _, by rw [text]; rfl, by decide, by decide, by decide⟩
  | bool b => cases b <;> exact ⟨_, _, by rw [text]; rfl, by decide, by decide, by decide⟩
  | number q =>
    rw [Whole] at hj
    obtain ⟨n, hn, rfl⟩ := hj
    obtain ⟨b, l, hbl, hb⟩ := decimal_head n
    refine ⟨b, l, by rw [text, numberText_int D hn, hbl], ?_⟩
    rcases hb with rfl | ⟨h₁, h₂⟩
    · exact ⟨by decide, by decide, by decide⟩
    · rw [UInt8.le_iff_toNat_le] at h₁ h₂
      refine ⟨?_, ?_, ?_⟩
      · rw [UInt8.lt_iff_toNat_lt]
        exact lt_of_lt_of_le (by decide) h₁
      · rintro rfl
        exact absurd h₂ (by decide)
      · rintro rfl
        exact absurd h₂ (by decide)
  | string s => exact ⟨_, _, by rw [text]; rfl, by decide, by decide, by decide⟩
  | array items => exact ⟨_, _, by rw [text]; rfl, by decide, by decide, by decide⟩
  | object members => exact ⟨_, _, by rw [text]; rfl, by decide, by decide, by decide⟩

/-- The tests of `parse_value` on a first byte that begins no word. -/
theorem parseValueWith_cons {nested : Option (Parser CJson)} {b : UInt8} {l : List UInt8}
    (h : mem.drop offset = b :: l) (hn : b ≠ 0x6e) (hf : b ≠ 0x66) (ht : b ≠ 0x74) :
    parseValueWith mem D fresh nested offset =
      if b = 0x22 then do
        match ← parseString fresh mem offset with
        | none => pure none
        | some (s, offset) => pure (some (.string s, offset))
      else if b = 0x2d ∨ 0x30 ≤ b ∧ b ≤ 0x39 then parseNumber mem D offset
      else if b = 0x5b then
        match nested with
        | none => pure none
        | some value => parseArray mem value offset
      else if b = 0x7b then
        match nested with
        | none => pure none
        | some value => parseObject mem fresh value offset
      else pure none := by
  have hword : ∀ c cs, b ≠ c → ¬c :: cs <+: mem.drop offset := by
    intro c cs hne hpre
    rw [h, List.cons_prefix_cons] at hpre
    exact hne hpre.1.symm
  rw [parseValueWith.eq_def, readsWord_eq _ (by decide), readsWord_eq _ (by decide),
    readsWord_eq _ (by decide), nullText, falseText, trueText]
  simp only [Checked.ok_bind, decide_eq_false (hword _ _ hn), decide_eq_false (hword _ _ hf),
    decide_eq_false (hword _ _ ht)]
  rw [if_neg (by decide), if_neg (by decide), if_neg (by decide), if_pos (lt_of_drop h),
    readAt_of_drop_cons h]
  rfl

end Reading

section Trees

variable {mem : List UInt8} (D : Doubles) (fresh : (n : ℕ) → Buf n)

theorem parseValue_eq (mem : List UInt8) (levels : ℕ) :
    ∃ nested, parseValue mem D fresh levels = parseValueWith mem D fresh nested := by
  cases levels <;> exact ⟨_, rfl⟩

/-- A word is read where it stands. -/
theorem readsWord_of_drop {offset : ℕ} {word rest : List UInt8} (hword : word ≠ [])
    (h : mem.drop offset = word ++ rest) : readsWord mem offset word = .ok true := by
  rw [readsWord_eq _ hword, h, decide_eq_true (List.prefix_append _ _)]

theorem readsWord_of_ne {offset : ℕ} {b c : UInt8} {l word : List UInt8}
    (h : mem.drop offset = b :: l) (hne : b ≠ c) :
    readsWord mem offset (c :: word) = .ok false := by
  rw [readsWord_eq _ (by simp), h, decide_eq_false]
  exact fun hpre => hne (List.cons_prefix_cons.mp hpre).1.symm

theorem follows_cons {b : UInt8} (hb : isNumberChar b = false) (rest : List UInt8) :
    Follows (b :: rest) := by
  intro a ha
  rwa [← Option.some.inj ha]

/-- An array is read when its elements are. -/
theorem parseArray_text {value : Parser CJson} {items : List CJson} {offset : ℕ}
    {l rest : List UInt8} (hitems : WholeItems items) (h : mem.drop offset = 0x5b :: l)
    (hnext : mem.drop (offset + 1) = textItems D items ++ 0x5d :: rest)
    (hparse : items ≠ [] → parseElements mem value (mem.length + 1) offset
      = .ok (some (items, offset + 1 + (textItems D items).length + 1))) :
    parseArray mem value offset
      = .ok (some (.array items, offset + (text D (.array items)).length)) := by
  rw [parseArray, readAt_of_drop_cons h, Checked.ok_bind, if_neg (by decide)]
  cases items with
  | nil =>
    rw [textItems, List.nil_append] at hnext
    rw [skip_of_drop hnext (by decide), Checked.ok_bind, isAt_of_drop hnext, text, textItems]
    rfl
  | cons item items =>
    rw [WholeItems] at hitems
    obtain ⟨b, l, hbl, hlow, hclose, -⟩ := text_head D hitems.1
    have hfirst : mem.drop (offset + 1) = b :: (l ++ (if items.isEmpty then [] else [0x2c]) ++
        textItems D items ++ 0x5d :: rest) := by
      rw [hnext, textItems, hbl]
      rfl
    have hlt := lt_of_drop hfirst
    rw [skip_of_drop hfirst hlow, Checked.ok_bind, isAt_of_drop hfirst, Checked.ok_bind,
      if_neg (by simpa using hclose), if_neg (by omega), Nat.add_sub_cancel,
      hparse (List.cons_ne_nil _ _), Checked.ok_bind, text]
    simp only [List.length_append, List.length_cons, List.length_nil]
    refine congrArg Except.ok (congrArg some (Prod.ext rfl ?_))
    simp only
    omega

/-- An object is read when its members are. -/
theorem parseObject_text {value : Parser CJson} {members : List (CStr × CJson)} {offset : ℕ}
    {l rest : List UInt8} (h : mem.drop offset = 0x7b :: l)
    (hnext : mem.drop (offset + 1) = textMembers D members ++ 0x7d :: rest)
    (hparse : members ≠ [] → parseMembers mem fresh value (mem.length + 1) offset
      = .ok (some (members, offset + 1 + (textMembers D members).length + 1))) :
    parseObject mem fresh value offset
      = .ok (some (.object members, offset + (text D (.object members)).length)) := by
  rw [parseObject, isAt_of_drop h, Checked.ok_bind, if_neg (by decide)]
  cases members with
  | nil =>
    rw [textMembers, List.nil_append] at hnext
    rw [skip_of_drop hnext (by decide), Checked.ok_bind, isAt_of_drop hnext, text, textMembers]
    rfl
  | cons member members =>
    obtain ⟨name, item⟩ := member
    have hfirst : mem.drop (offset + 1) = 0x22 :: (name.bytes.flatMap escapeByte ++ [0x22] ++
        0x3a :: text D item ++ (if members.isEmpty then [] else [0x2c]) ++
        textMembers D members ++ 0x7d :: rest) := by
      rw [hnext, textMembers, textMember, quoted]
      simp only [List.append_assoc, List.cons_append]
    have hlt := lt_of_drop hfirst
    rw [skip_of_drop hfirst (by decide), Checked.ok_bind, isAt_of_drop hfirst, Checked.ok_bind,
      if_neg (by decide), if_neg (by omega), Nat.add_sub_cancel, hparse (List.cons_ne_nil _ _),
      Checked.ok_bind, text]
    simp only [List.length_append, List.length_cons, List.length_nil]
    refine congrArg Except.ok (congrArg some (Prod.ext rfl ?_))
    simp only
    omega

mutual

/-- **A text is read as the value it is of**, whatever follows it. -/
theorem parseValue_text : ∀ (j : CJson) {levels offset : ℕ} {rest : List UInt8}, Whole j →
    depth j ≤ levels → Follows rest → mem.drop offset = text D j ++ rest →
      parseValue mem D fresh levels offset = .ok (some (j, offset + (text D j).length))
  | .null, levels, offset, rest, _, _, _, h => by
      obtain ⟨nested, hlevels⟩ := parseValue_eq D fresh mem levels
      rw [text] at h ⊢
      rw [hlevels, parseValueWith.eq_def, readsWord_of_drop (by decide) h, Checked.ok_bind,
        if_pos rfl]
      rfl
  | .bool false, levels, offset, rest, _, _, _, h => by
      obtain ⟨nested, hlevels⟩ := parseValue_eq D fresh mem levels
      rw [text, if_neg (by decide)] at h ⊢
      rw [hlevels, parseValueWith.eq_def, nullText, readsWord_of_ne h (by decide),
        readsWord_of_drop (by decide) h]
      rfl
  | .bool true, levels, offset, rest, _, _, _, h => by
      obtain ⟨nested, hlevels⟩ := parseValue_eq D fresh mem levels
      rw [text, if_pos rfl] at h ⊢
      rw [hlevels, parseValueWith.eq_def, nullText, readsWord_of_ne h (by decide), falseText,
        readsWord_of_ne h (by decide), readsWord_of_drop (by decide) h]
      rfl
  | .number q, levels, offset, rest, hj, _, hrest, h => by
      obtain ⟨nested, hlevels⟩ := parseValue_eq D fresh mem levels
      rw [Whole] at hj
      obtain ⟨n, hn, rfl⟩ := hj
      rw [text, numberText_int D hn] at h ⊢
      obtain ⟨b, l, hbl, hb⟩ := decimal_head n
      have hdrop : mem.drop offset = b :: (l ++ rest) := by rw [h, hbl]; rfl
      have hne : ∀ c : UInt8, c ≠ 0x2d → ¬(0x30 ≤ c ∧ c ≤ 0x39) → b ≠ c := by
        rintro c hc hc' rfl
        tauto
      rw [hlevels, parseValueWith_cons D fresh hdrop (hne _ (by decide) (by decide))
        (hne _ (by decide) (by decide)) (hne _ (by decide) (by decide)),
        if_neg (hne _ (by decide) (by decide)), if_pos hb, parseNumber_decimal D hn hrest h]
  | .string s, levels, offset, rest, _, _, _, h => by
      obtain ⟨nested, hlevels⟩ := parseValue_eq D fresh mem levels
      rw [text] at h ⊢
      rw [hlevels, parseValueWith_cons D fresh h (by decide) (by decide) (by decide), if_pos rfl,
        parseString_quoted fresh h, Checked.ok_bind]
      rfl
  | .array items, 0, offset, rest, _, hdepth, _, h => by
      rw [depth] at hdepth
      omega
  | .array items, levels + 1, offset, rest, hj, hdepth, _, h => by
      rw [depth] at hdepth
      rw [Whole] at hj
      rw [text, List.cons_append, List.cons_append, List.append_assoc, List.singleton_append] at h
      have hnext : mem.drop (offset + 1) = textItems D items ++ 0x5d :: rest := by
        rw [← List.drop_drop, h]
        rfl
      rw [parseValue, parseValueWith_cons D fresh h (by decide) (by decide) (by decide),
        if_neg (by decide), if_neg (by decide), if_pos rfl]
      exact parseArray_text D hj h hnext fun hne =>
        parseElements_text items hne hj (Nat.le_of_succ_le_succ hdepth) hnext (by omega)
  | .object members, 0, offset, rest, _, hdepth, _, h => by
      rw [depth] at hdepth
      omega
  | .object members, levels + 1, offset, rest, hj, hdepth, _, h => by
      rw [depth] at hdepth
      rw [Whole] at hj
      rw [text, List.cons_append, List.cons_append, List.append_assoc, List.singleton_append] at h
      have hnext : mem.drop (offset + 1) = textMembers D members ++ 0x7d :: rest := by
        rw [← List.drop_drop, h]
        rfl
      rw [parseValue, parseValueWith_cons D fresh h (by decide) (by decide) (by decide),
        if_neg (by decide), if_neg (by decide), if_neg (by decide), if_pos rfl]
      exact parseObject_text D fresh h hnext fun hne =>
        parseMembers_text members hne hj (Nat.le_of_succ_le_succ hdepth) hnext (by omega)

/-- The elements of an array, from one byte before the first. -/
theorem parseElements_text : ∀ (items : List CJson) {levels fuel offset : ℕ} {rest : List UInt8},
    items ≠ [] → WholeItems items → depthItems items ≤ levels →
      mem.drop (offset + 1) = textItems D items ++ 0x5d :: rest → mem.length - offset < fuel →
        parseElements mem (parseValue mem D fresh levels) fuel offset
          = .ok (some (items, offset + 1 + (textItems D items).length + 1))
  | [], _, _, _, _, hne, _, _, _, _ => absurd rfl hne
  | item :: items, levels, 0, offset, rest, _, _, _, _, hfuel => absurd hfuel (Nat.not_lt_zero _)
  | item :: items, levels, fuel + 1, offset, rest, _, hitems, hdepth, h, hfuel => by
      rw [WholeItems] at hitems
      rw [depthItems] at hdepth
      rw [textItems, List.append_assoc, List.append_assoc] at h
      obtain ⟨b, l, hbl, hlow, -⟩ := text_head D hitems.1
      have hfirst : mem.drop (offset + 1) = b :: (l ++ ((if items.isEmpty then [] else [0x2c]) ++
          (textItems D items ++ 0x5d :: rest))) := by
        rw [h, hbl]
        rfl
      have hlt := lt_of_drop hfirst
      have hbehind := drop_of_append h
      rw [parseElements, skip_of_drop hfirst hlow, Checked.ok_bind, textItems]
      rcases comma_eq items with ⟨hcomma, rfl⟩ | ⟨hcomma, hne⟩
      · rw [hcomma, textItems] at h hbehind ⊢
        rw [parseValue_text item hitems.1 ((Nat.le_max_left _ _).trans hdepth)
          (follows_cons (by decide) rest) h, Checked.ok_bind]
        dsimp only
        rw [skip_of_drop hbehind (by decide), Checked.ok_bind, isAt_of_drop hbehind,
          Checked.ok_bind, if_neg (by decide), isAt_of_drop hbehind, List.append_nil,
          List.append_nil]
        rfl
      · rw [hcomma] at h hbehind ⊢
        rw [parseValue_text item hitems.1 ((Nat.le_max_left _ _).trans hdepth)
          (follows_cons (by decide) _) h, Checked.ok_bind]
        dsimp only
        have hnext : mem.drop (offset + 1 + (text D item).length + 1)
            = textItems D items ++ 0x5d :: rest := by
          rw [← List.drop_drop, hbehind]
          rfl
        rw [skip_of_drop hbehind (by decide), Checked.ok_bind, isAt_of_drop hbehind,
          Checked.ok_bind, if_pos (by decide),
          parseElements_text items (by rintro rfl; simp at hne) hitems.2
            ((Nat.le_max_right _ _).trans hdepth) hnext (by omega), Checked.ok_bind]
        simp only [List.length_append, List.length_cons, List.length_nil]
        refine congrArg Except.ok (congrArg some (Prod.ext rfl ?_))
        simp only
        omega

/-- The members of an object, from one byte before the first name. -/
theorem parseMembers_text : ∀ (members : List (CStr × CJson)) {levels fuel offset : ℕ}
    {rest : List UInt8}, members ≠ [] → WholeMembers members → depthMembers members ≤ levels →
      mem.drop (offset + 1) = textMembers D members ++ 0x7d :: rest → mem.length - offset < fuel →
        parseMembers mem fresh (parseValue mem D fresh levels) fuel offset
          = .ok (some (members, offset + 1 + (textMembers D members).length + 1))
  | [], _, _, _, _, hne, _, _, _, _ => absurd rfl hne
  | _ :: _, _, 0, _, _, _, _, _, _, hfuel => absurd hfuel (Nat.not_lt_zero _)
  | (name, item) :: members, levels, fuel + 1, offset, rest, _, hmembers, hdepth, h, hfuel => by
      rw [WholeMembers, WholeMember] at hmembers
      rw [depthMembers, depthMember] at hdepth
      rw [textMembers, textMember, List.append_assoc, List.append_assoc, List.append_assoc,
        List.cons_append] at h
      have hfirst : mem.drop (offset + 1) = 0x22 :: (name.bytes.flatMap escapeByte ++ [0x22] ++
          0x3a :: (text D item ++ ((if members.isEmpty then [] else [0x2c]) ++
            (textMembers D members ++ 0x7d :: rest)))) := by
        rw [h, quoted]
        simp only [List.append_assoc, List.cons_append]
      have hlt := lt_of_drop hfirst
      have hcolon := drop_of_append h
      have hvalue : mem.drop (offset + 1 + (quoted name).length + 1) = text D item ++
            ((if members.isEmpty then [] else [0x2c]) ++
              (textMembers D members ++ 0x7d :: rest)) := by
        rw [← List.drop_drop, hcolon]
        rfl
      obtain ⟨b, l, hbl, hlow, -⟩ := text_head D hmembers.1
      have hvalueFirst : mem.drop (offset + 1 + (quoted name).length + 1) = b :: (l ++
            ((if members.isEmpty then [] else [0x2c]) ++
              (textMembers D members ++ 0x7d :: rest))) := by
        rw [hvalue, hbl]
        rfl
      have hbehind := drop_of_append hvalue
      rw [parseMembers, if_neg (by omega), skip_of_drop hfirst (by decide), Checked.ok_bind,
        parseString_quoted fresh h, Checked.ok_bind]
      dsimp only
      rw [skip_of_drop hcolon (by decide), Checked.ok_bind, isAt_of_drop hcolon, Checked.ok_bind,
        if_neg (by decide), skip_of_drop hvalueFirst hlow, Checked.ok_bind, textMembers, textMember]
      rcases comma_eq members with ⟨hcomma, rfl⟩ | ⟨hcomma, hne⟩
      · rw [hcomma, textMembers] at hvalue hbehind ⊢
        rw [parseValue_text item hmembers.1 ((Nat.le_max_left _ _).trans hdepth)
          (follows_cons (by decide) rest) hvalue, Checked.ok_bind]
        dsimp only
        rw [skip_of_drop hbehind (by decide), Checked.ok_bind, isAt_of_drop hbehind,
          Checked.ok_bind, if_neg (by decide), isAt_of_drop hbehind, Checked.ok_bind,
          if_pos (by decide), List.append_nil, List.append_nil, List.length_append,
          List.length_cons]
        refine congrArg Except.ok (congrArg some (Prod.ext rfl ?_))
        simp only
        omega
      · rw [hcomma] at hvalue hbehind ⊢
        rw [parseValue_text item hmembers.1 ((Nat.le_max_left _ _).trans hdepth)
          (follows_cons (by decide) _) hvalue, Checked.ok_bind]
        dsimp only
        have hnext : mem.drop (offset + 1 + (quoted name).length + 1 + (text D item).length + 1)
            = textMembers D members ++ 0x7d :: rest := by
          rw [← List.drop_drop, hbehind]
          rfl
        rw [skip_of_drop hbehind (by decide), Checked.ok_bind, isAt_of_drop hbehind,
          Checked.ok_bind, if_pos (by decide),
          parseMembers_text members (by rintro rfl; simp at hne) hmembers.2
            ((Nat.le_max_right _ _).trans hdepth) hnext (by omega), Checked.ok_bind]
        simp only [List.length_append, List.length_cons, List.length_nil]
        refine congrArg Except.ok (congrArg some (Prod.ext rfl ?_))
        simp only
        omega

end

end Trees

/-! ### Conversions of whole numbers -/

/-- The digits at the front of a text, as characters. -/
def leadingDigits (l : List UInt8) : List Char :=
  (l.takeWhile fun b => 0x30 ≤ b && b ≤ 0x39).map fun b => Char.ofNat b.toNat

/-- `strtod`, of a text without a point or an exponent. -/
def wholeStrtod (l : List UInt8) : Option (ℚ × ℕ) :=
  let minus := l.head? = some 0x2d
  let digits := leadingDigits (if minus then l.tail else l)
  if digits = [] then none
  else
    let n : ℤ := Nat.ofDigitChars 10 digits 0
    some (if minus then (-n, digits.length + 1) else (n, digits.length))

theorem leadingDigits_toDigits (n : ℕ) :
    leadingDigits ((Nat.toDigits 10 n).map fun c => UInt8.ofNat c.toNat) = Nat.toDigits 10 n := by
  rw [leadingDigits, List.takeWhile_eq_self_iff.mpr, List.map_map]
  · refine (List.map_congr_left fun c hc => ?_).trans (List.map_id _)
    have hdigit := Nat.isDigit_of_mem_toDigits (by decide) (by decide) hc
    rw [Char.isDigit_iff_toNat, show '9'.toNat = 57 from rfl] at hdigit
    rw [Function.comp_apply, UInt8.toNat_ofNat', Nat.mod_eq_of_lt (by omega), Char.ofNat_toNat]
    rfl
  · intro b hb
    obtain ⟨c, hc, rfl⟩ := List.mem_map.mp hb
    simpa using digit_range hc

theorem wholeStrtod_decimal (n : ℤ) :
    wholeStrtod (decimal n) = some ((n : ℚ), (decimal n).length) := by
  have hne := Nat.toDigits_ne_nil (b := 10) (n := n.natAbs)
  rw [decimal]
  by_cases hneg : n < 0
  · rw [if_pos hneg, wholeStrtod]
    simp only [List.singleton_append, List.head?_cons, List.tail_cons, if_true,
      leadingDigits_toDigits, if_neg hne, Nat.ofDigitChars_ten_toDigits, List.length_cons,
      List.length_map]
    have habs : -((n.natAbs : ℤ) : ℚ) = n := by
      rw [Int.ofNat_natAbs_of_nonpos hneg.le]
      simp
    rw [habs]
  · obtain ⟨c, cs, hcs⟩ := List.exists_cons_of_ne_nil hne
    have hminus :
        ¬((Nat.toDigits 10 n.natAbs).map fun c => UInt8.ofNat c.toNat).head? = some 0x2d := by
      rw [hcs]
      intro h
      have hrange := digit_range (n := n.natAbs) (c := c) (by rw [hcs]; exact List.mem_cons_self)
      have hc : UInt8.ofNat c.toNat = 0x2d := Option.some.inj h
      rw [hc] at hrange
      exact absurd hrange.1 (by decide)
    rw [if_neg hneg, List.nil_append, wholeStrtod]
    simp only [if_neg hminus, leadingDigits_toDigits, if_neg hne, Nat.ofDigitChars_ten_toDigits,
      List.length_map]
    have habs : ((n.natAbs : ℤ) : ℚ) = n := by
      rw [Int.natAbs_of_nonneg (not_lt.mp hneg)]
    rw [habs]

theorem wholeStrtod_le {l : List UInt8} {q : ℚ} {n : ℕ} (h : wholeStrtod l = some (q, n)) :
    0 < n ∧ n ≤ l.length := by
  have hlen : ∀ l, (leadingDigits l).length ≤ l.length := fun l => by
    rw [leadingDigits, List.length_map]
    exact (List.takeWhile_sublist _).length_le
  rw [wholeStrtod] at h
  by_cases hne : leadingDigits (if l.head? = some 0x2d then l.tail else l) = []
  · rw [if_pos hne] at h
    cases h
  · rw [if_neg hne] at h
    have hpos := List.length_pos_iff.mpr hne
    by_cases hminus : l.head? = some 0x2d
    · simp only [hminus, if_true, Option.some.injEq, Prod.mk.injEq] at h hpos
      have htail := hlen l.tail
      have hl : l ≠ [] := by rintro rfl; cases hminus
      have := List.length_pos_iff.mpr hl
      rw [List.length_tail] at htail
      omega
    · simp only [hminus, if_false, Option.some.injEq, Prod.mk.injEq] at h hpos
      have := hlen l
      omega

/-- Conversions that know whole numbers only. -/
def wholeDoubles : Doubles where
  strtod := wholeStrtod
  format q := if q.num.natAbs < 10 ^ 15 then ⟨decimal q.num, decimal_noNul _⟩ else .empty
  strtod_le := wholeStrtod_le
  strtod_decimal _ := wholeStrtod_decimal _
  format_length q := by
    split
    next h => exact (length_decimal_le (by decide) h).trans (by decide)
    next => exact Nat.zero_le _
  format_decimal {n} h := by
    rw [Rat.num_intCast, if_pos (show n.natAbs < 10 ^ 15 from h)]

section Trees

variable {mem : List UInt8} (D : Doubles) (fresh : (n : ℕ) → Buf n)

/-! ### Whole texts -/

/-- A text that is all the buffer holds, but for the terminator. -/
theorem cJsonParse_text {j : CJson} (hwhole : Whole j) (hdepth : depth j ≤ nestingLimit)
    {s : CStr} (hs : s.bytes = text D j) : cJsonParse D fresh s = .ok (some j) := by
  obtain ⟨b, l, hbl, hlow, -, hbom⟩ := text_head D hwhole
  have hfirst : (text D j ++ [0]).drop 0 = b :: (l ++ [0]) := by rw [hbl]; rfl
  have hskip : skipUtf8Bom (text D j ++ [0]) = .ok 0 := by
    rw [skipUtf8Bom]
    split
    next hlen =>
      rw [strncmpAt_eq _ _ (by simp only [bomText, List.length_cons, List.length_nil]; omega),
        Checked.ok_bind, decide_eq_false fun hpre => hbom ?_]
      · rfl
      · rw [hfirst] at hpre
        exact (List.cons_prefix_cons.mp hpre).1.symm
    next => rfl
  rw [cJsonParse, hs, parseBuffer, if_neg (by simp), hskip, Checked.ok_bind,
    skip_of_drop hfirst hlow, Checked.ok_bind,
    parseValue_text D fresh j hwhole hdepth (follows_cons (by decide) []) rfl]
  rfl

/-- What the printer returns is parsed as the value that was printed. -/
theorem print_then_parse (H : Heap) {j : CJson} (hwhole : Whole j)
    (hdepth : depth j ≤ nestingLimit) :
    ∃ r, cJsonPrintUnformatted H D j = .ok r ∧
      (∀ s, r = some s → cJsonParse D fresh s = .ok (some j)) ∧
        (r = none → H.malloc 256 = none ∨ H.CannotGrow (text D j).length ∨
          intMax < (text D j).length + 2) := by
  obtain ⟨r, hr, htext, hnone⟩ := cJsonPrintUnformatted_spec H D j
  exact ⟨r, hr, fun s hs => cJsonParse_text D fresh hwhole hdepth (htext s hs), hnone⟩

/-- A heap that never runs out leaves nothing but the length of the text to fail at. -/
theorem plentiful_fails {n m : ℕ} (h : Heap.plentiful.malloc 256 = none ∨
    Heap.plentiful.CannotGrow n ∨ intMax < m) : intMax < m := by
  rcases h with hmalloc | ⟨mem, k, -, hrealloc⟩ | hlong
  · cases hmalloc
  · cases hrealloc
  · exact hlong

/-- An array with every kind of escape in it, and a member without a name. -/
def sampleValue : CJson :=
  .array [.number 7, .string (.lit "\x01\n\"\\"), .object [(.empty, .bool false)]]

/-- **Neither direction touches memory that is not its own**: the parser ends within every
buffer there is, with a value of limited depth, and the printer within what the heap gives
it, with the text of the value.  Buffers and allocations are meant: the stack that either
recursion takes up is not modelled. -/
theorem json_memory_safe (H : Heap) :
    (∀ mem, ∃ r, parseBuffer mem D fresh = .ok r ∧ ∀ j ∈ r, depth j ≤ nestingLimit) ∧
      ∀ j, ∃ r, cJsonPrintUnformatted H D j = .ok r ∧ ∀ s, r = some s → s.bytes = text D j := by
  refine ⟨parseBuffer_safe D fresh, fun j => ?_⟩
  obtain ⟨r, hr, htext, -⟩ := cJsonPrintUnformatted_spec H D j
  exact ⟨r, hr, htext⟩

/-- **A string is read as what its pieces say**, wherever in a buffer it stands and whatever
follows it: bytes, short escapes, and the escapes of characters in one unit or two. -/
theorem parseString_body {offset : ℕ} {t v rest : List UInt8} (hbody : Body t v)
    (h : mem.drop offset = 0x22 :: t ++ 0x22 :: rest) :
    parseString fresh mem offset = .ok (some (.ofMem v, offset + (t.length + 2))) := by
  rw [parseString_eq fresh (lt_of_drop h), h, readString_body hbody]
  rfl

/-- A face outside of the first plane: its units, the digits in either case. -/
theorem spells_face : Spells (Js.units '😀')
    [0x5c, 0x75, 0x44, 0x38, 0x33, 0x64, 0x5c, 0x75, 0x64, 0x65, 0x30, 0x30] := by
  show Spells [0xD83D, 0xDE00] (0x5c :: 0x75 :: [0x44, 0x38, 0x33, 0x64] ++
    (0x5c :: 0x75 :: [0x64, 0x65, 0x30, 0x30] ++ []))
  exact .cons ⟨13, 8, 3, 13, rfl, rfl⟩ (.cons ⟨13, 14, 0, 0, rfl, rfl⟩ .nil)

/-- The face behind a tabulator. -/
theorem face_read : parseString Buf.zero
    [0x22, 0x5c, 0x74, 0x5c, 0x75, 0x44, 0x38, 0x33, 0x64, 0x5c, 0x75, 0x64, 0x65, 0x30, 0x30, 0x22]
      0 = .ok (some (.ofMem [0x09, 0xf0, 0x9f, 0x98, 0x80], 16)) :=
  parseString_body Buf.zero
    (.cons (.short rfl) (.cons (.units spells_face) .nil)) rfl

/-- A text with white space and an escape that would be written in another way. -/
def spacedText : CStr := .lit " [ true,\n\"\\/\" ]"

theorem spacedText_parsed : cJsonParse wholeDoubles Buf.zero spacedText
    = .ok (some (.array [.bool true, .string (.lit "/")])) := rfl

/-- There is no value in an empty text: the parser steps back to the terminator. -/
theorem cJsonParse_empty : cJsonParse D fresh .empty = .ok none := by
  rfl

/-- `cJSON_Parse` as the handlers use it. -/
def cJsonParser : CJsonParser where
  parse s :=
    match cJsonParse D fresh s with
    | .ok r => r
    | .error _ => none
  parse_empty := by rw [cJsonParse_empty]

/-- A front that is accepted, as the handlers see it. -/
theorem cJsonParser_front {a b : CStr} (hpre : a.bytes <+: b.bytes) {j : CJson}
    (h : (cJsonParser D fresh).parse a = some j) :
    (cJsonParser D fresh).parse b = some j ∨
      (∃ q, j = .number q) ∧ ∀ j' ∈ (cJsonParser D fresh).parse b, ∃ q, j' = .number q := by
  have hfront : cJsonParse D fresh a = .ok (some j) := by
    simp only [cJsonParser] at h
    split at h
    next r hr => rw [hr, h]
    next => cases h
  rcases cJsonParse_front hpre hfront with hb | ⟨hj, r, hb, hall⟩
  · left
    simp only [cJsonParser, hb]
  · refine .inr ⟨hj, ?_⟩
    simpa only [cJsonParser, hb] using hall

end Trees

end Json
end WifiRepeater
