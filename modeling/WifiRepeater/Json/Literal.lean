import Mathlib.Algebra.Group.Nat.Defs
import Mathlib.Data.List.Basic
import WifiRepeater.Lib.Checked
import WifiRepeater.Lib.Js

/-!
# The `\u` escapes of a JSON text

A JSON text may write a character as the four hexadecimal digits of each of its UTF-16 code
units.  cJSON decodes such an escape in the middle of a string: it reads the digits of one
unit, or of the two of a surrogate pair, and writes the UTF-8 bytes of the code point, the
last one first.  Digits that are none read as zero.

## Main definitions

* `parseHex4`, `utf16LiteralToUtf8` — the two functions, access by access.
* `hex4Value`, `readLiteral` — what they compute.
* `Hex4`, `Spells` — hexadecimal digits in either case, and the escapes of a character.

## Main results

* `utf16LiteralToUtf8_eq` — **within the string and with room for its output the decoder
  does not fault**, and it writes the UTF-8 encoding of what it reads.
* `readLiteral_of_spells` — **the escapes of a character are read as that character**, the
  surrogate pairs included.
-/

namespace WifiRepeater
namespace Json

/-! ### Hexadecimal digits -/

/-- The value of a digit, `none` where `parse_hex4` finds an invalid one. -/
def hexDigit (b : UInt8) : Option ℕ :=
  if 0x30 ≤ b ∧ b ≤ 0x39 then some (b.toNat - 0x30)
  else if 0x41 ≤ b ∧ b ≤ 0x46 then some (10 + b.toNat - 0x41)
  else if 0x61 ≤ b ∧ b ≤ 0x66 then some (10 + b.toNat - 0x61)
  else none

/-- The loop of `parse_hex4`, with `k` digits to go and the value `h` so far. -/
def parseHexDigits (mem : List UInt8) : ℕ → ℕ → ℕ → Checked ℕ
  | 0, _, h => pure h
  | k + 1, i, h => do
      match hexDigit (← readAt mem i) with
      | none => pure 0
      | some d => parseHexDigits mem k (i + 1) (if 0 < k then (h + d) <<< 4 else h + d)

/-- `parse_hex4` of the digits at `input`. -/
def parseHex4 (mem : List UInt8) (input : ℕ) : Checked ℕ := parseHexDigits mem 4 input 0

/-- The value of four digits, or zero. -/
def hex4Value (l : List UInt8) : ℕ :=
  match (l.take 4).map hexDigit with
  | [some a, some b, some c, some d] => ((a * 16 + b) * 16 + c) * 16 + d
  | _ => 0

/-- The digits of a unit, in either case. -/
def Hex4 (ds : List UInt8) (n : ℕ) : Prop :=
  ∃ a b c d : ℕ, ds.map hexDigit = [some a, some b, some c, some d] ∧
    n = ((a * 16 + b) * 16 + c) * 16 + d

theorem Hex4.length {ds : List UInt8} {n : ℕ} (h : Hex4 ds n) : ds.length = 4 := by
  obtain ⟨a, b, c, d, hds, -⟩ := h
  simpa using congrArg List.length hds

theorem hex4Value_of_hex4 {ds : List UInt8} {n : ℕ} (h : Hex4 ds n) (rest : List UInt8) :
    hex4Value (ds ++ rest) = n := by
  have hlen := h.length
  obtain ⟨a, b, c, d, hds, rfl⟩ := h
  rw [hex4Value, List.take_append_of_le_length hlen.ge, List.take_of_length_le hlen.le, hds]

theorem hexDigit_lt {b : UInt8} {d : ℕ} (h : hexDigit b = some d) : d < 16 := by
  unfold hexDigit at h
  simp only [UInt8.le_iff_toNat_le] at h
  split_ifs at h with h1 h2 h3
  all_goals
    simp only [Option.some.injEq] at h
    simp at *
    omega

/-- Four digits make a unit of 16 bits. -/
theorem hex4Value_lt (l : List UInt8) : hex4Value l < 0x10000 := by
  unfold hex4Value
  split
  next a b c d heq =>
    have hdigit : ∀ x, some x ∈ (l.take 4).map hexDigit → x < 16 := by
      intro x hx
      obtain ⟨b, -, hb⟩ := List.mem_map.mp hx
      exact hexDigit_lt hb
    rw [heq] at hdigit
    have ha := hdigit a (by simp)
    have hb := hdigit b (by simp)
    have hc := hdigit c (by simp)
    have hd := hdigit d (by simp)
    omega
  next => decide

/-- Four digits that lie within the memory are read without a fault. -/
theorem parseHex4_eq {mem : List UInt8} {i : ℕ} (h : i + 4 ≤ mem.length) :
    parseHex4 mem i = .ok (hex4Value (mem.drop i)) := by
  obtain ⟨b₀, b₁, b₂, b₃, rest, hdrop⟩ : ∃ b₀ b₁ b₂ b₃ rest,
      mem.drop i = b₀ :: b₁ :: b₂ :: b₃ :: rest := by
    refine ⟨mem[i], mem[i + 1], mem[i + 2], mem[i + 3], mem.drop (i + 4), ?_⟩
    rw [List.drop_eq_getElem_cons (by omega), List.drop_eq_getElem_cons (by omega),
      List.drop_eq_getElem_cons (by omega), List.drop_eq_getElem_cons (by omega)]
  have h₀ : readAt mem i = .ok b₀ := readAt_of_drop (i := i) (k := 0) (by rw [hdrop]; rfl)
  have h₁ : readAt mem (i + 1) = .ok b₁ := readAt_of_drop (by rw [hdrop]; rfl)
  have h₂ : readAt mem (i + 1 + 1) = .ok b₂ := readAt_of_drop (k := 2) (by rw [hdrop]; rfl)
  have h₃ : readAt mem (i + 1 + 1 + 1) = .ok b₃ := readAt_of_drop (k := 3) (by rw [hdrop]; rfl)
  rw [hdrop, hex4Value]
  simp only [parseHex4, parseHexDigits, h₀, h₁, h₂, h₃, Checked.ok_bind, List.take_succ_cons,
    List.take_zero, List.map_cons, List.map_nil]
  -- the loop ends at the first digit that is none
  rcases hexDigit b₀ with _ | a
  · rfl
  rcases hexDigit b₁ with _ | b
  · rfl
  rcases hexDigit b₂ with _ | c
  · rfl
  rcases hexDigit b₃ with _ | d
  · rfl
  have hvalue : (((0 + a) <<< 4 + b) <<< 4 + c) <<< 4 + d = ((a * 16 + b) * 16 + c) * 16 + d := by
    simp only [Nat.shiftLeft_eq]
    omega
  exact congrArg Except.ok hvalue

/-! ### Writing UTF-8 -/

/-- Where the output of a string goes. -/
structure Output (m : ℕ) where
  /-- `*output_pointer`, as an index. -/
  pos : ℕ
  /-- The memory that was allocated. -/
  mem : Buf m

variable {m : ℕ}

/-- The output so far is `w`. -/
def Output.Holds (out : Output m) (w : List UInt8) : Prop :=
  out.pos = w.length ∧ w <+: out.mem.bytes

/-- `*output_pointer++ = b`. -/
def Output.push (out : Output m) (b : UInt8) : Checked (Output m) := do
  pure ⟨out.pos + 1, ← writeAt out.mem out.pos b⟩

theorem Output.Holds.le {out : Output m} {w : List UInt8} (h : out.Holds w) : w.length ≤ m := by
  simpa [out.mem.size] using h.2.length_le

/-- A byte is written behind the output while there is room. -/
theorem Output.Holds.push {out : Output m} {w : List UInt8} (h : out.Holds w) (b : UInt8)
    (hroom : w.length < m) : ∃ out', out.push b = .ok out' ∧ out'.Holds (w ++ [b]) := by
  obtain ⟨hpos, r, hr⟩ := h
  obtain ⟨x, r, rfl⟩ : ∃ x r', r = x :: r' := by
    refine List.exists_cons_of_ne_nil fun hnil => ?_
    have := out.mem.size
    rw [← hr, hnil, List.append_nil] at this
    omega
  refine ⟨⟨out.pos + 1, out.mem.setByte out.pos b⟩, ?_, by simp [hpos], r, ?_⟩
  · rw [Output.push, writeAt_of_lt (by omega)]
    rfl
  · rw [Buf.bytes_setByte, ← hr, hpos, List.set_append_right _ _ le_rfl, Nat.sub_self]
    simp

/-- The loop over `utf8_position`: `k` continuation bytes, the last one first.  What is left
of the code point is for the first byte. -/
def encodeTail : ℕ → ℕ → Output m → Checked (ℕ × Output m)
  | 0, codepoint, out => pure (codepoint, out)
  | k + 1, codepoint, out => do
      let mem ← writeAt out.mem (out.pos + (k + 1)) (UInt8.ofNat ((codepoint ||| 0x80) &&& 0xBF))
      encodeTail k (codepoint >>> 6) { out with mem := mem }

/-- `utf8_length` and `first_byte_mark`. -/
def lengthAndMark (codepoint : ℕ) : ℕ × ℕ :=
  if codepoint < 0x80 then (1, 0)
  else if codepoint < 0x800 then (2, 0xC0)
  else if codepoint < 0x10000 then (3, 0xE0)
  else (4, 0xF0)

/-- The second half of `utf16_literal_to_utf8`: the code point is encoded, and
`sequence_length` returned. -/
def encodeUtf8 (codepoint sequenceLength : ℕ) (out : Output m) : Checked (ℕ × Output m) :=
  if 0x10FFFF < codepoint then pure (0, out)
  else do
    let (length, mark) := lengthAndMark codepoint
    let (codepoint, out) ← encodeTail (length - 1) codepoint out
    let first := if 1 < length then (codepoint ||| mark) &&& 0xFF else codepoint &&& 0x7F
    let mem ← writeAt out.mem out.pos (UInt8.ofNat first)
    pure (sequenceLength, ⟨out.pos + length, mem⟩)

/-- `utf16_literal_to_utf8`: the length of the escape, and zero for a failure. -/
def utf16LiteralToUtf8 (mem : List UInt8) (input inputEnd : ℕ) (out : Output m) :
    Checked (ℕ × Output m) :=
  if inputEnd - input < 6 then pure (0, out)
  else do
    let first ← parseHex4 mem (input + 2)
    if 0xDC00 ≤ first ∧ first ≤ 0xDFFF then pure (0, out)
    else if 0xD800 ≤ first ∧ first ≤ 0xDBFF then
      if inputEnd - (input + 6) < 6 then pure (0, out)
      else if (← readAt mem (input + 6)) ≠ 0x5c then pure (0, out)
      else if (← readAt mem (input + 7)) ≠ 0x75 then pure (0, out)
      else
        let second ← parseHex4 mem (input + 8)
        if second < 0xDC00 ∨ 0xDFFF < second then pure (0, out)
        else encodeUtf8 (0x10000 + ((first &&& 0x3FF) <<< 10 ||| second &&& 0x3FF)) 12 out
    else encodeUtf8 first 6 out

/-- What an escape says that begins a text, of which `n` bytes are in the string: the
character, and the length of the escape. -/
def readLiteral (n : ℕ) (l : List UInt8) : Option (Char × ℕ) :=
  let first := hex4Value (l.drop 2)
  let second := hex4Value (l.drop 8)
  if n < 6 ∨ 0xDC00 ≤ first ∧ first ≤ 0xDFFF then none
  else if 0xD800 ≤ first ∧ first ≤ 0xDBFF then
    if n < 12 ∨ l[6]? ≠ some 0x5c ∨ l[7]? ≠ some 0x75 ∨ second < 0xDC00 ∨ 0xDFFF < second then none
    else some (Char.ofNat (0x10000 + (first - 0xD800) * 0x400 + (second - 0xDC00)), 12)
  else some (Char.ofNat first, 6)

/-- The continuation bytes of a code point. -/
def tailBytes : ℕ → ℕ → List UInt8
  | 0, _ => []
  | k + 1, codepoint => tailBytes k (codepoint / 64) ++ [UInt8.ofNat (codepoint % 64 + 0x80)]

theorem length_tailBytes (k codepoint : ℕ) : (tailBytes k codepoint).length = k := by
  induction k generalizing codepoint with
  | zero => rfl
  | succ k ih => simp [tailBytes, ih]

/-- The masks of a continuation byte. -/
theorem continuation_eq (codepoint : ℕ) :
    UInt8.ofNat ((codepoint ||| 0x80) &&& 0xBF) = UInt8.ofNat (codepoint % 64 + 0x80) := by
  have hsmall : ∀ r < 256, (r ||| 0x80) &&& 0xBF = r % 64 + 0x80 := by decide +kernel
  have hmod : (codepoint ||| 0x80) &&& 0xBF = (codepoint % 256 ||| 0x80) &&& 0xBF := by
    have h1 : ∀ x, x &&& 0xBF = x % 2 ^ 8 &&& 0xBF := by
      intro x
      have := Nat.and_mod_two_pow (a := x) (b := 0xBF) (n := 8)
      rw [Nat.mod_eq_of_lt (lt_of_le_of_lt Nat.and_le_right (by decide))] at this
      exact this
    rw [h1, Nat.or_mod_two_pow, h1 (codepoint % 256 ||| 0x80), Nat.or_mod_two_pow, Nat.mod_mod]
  rw [hmod, hsmall _ (Nat.mod_lt _ (by decide)), Nat.mod_mod_of_dvd _ (by decide)]

/-- The loop fills the room behind the first byte. -/
theorem encodeTail_spec : ∀ (k codepoint : ℕ) (out : Output m) (w g r : List UInt8) (x : UInt8),
    out.pos = w.length → out.mem.bytes = w ++ x :: g ++ r → g.length = k →
      ∃ mem, encodeTail k codepoint out = .ok (codepoint / 64 ^ k, ⟨out.pos, mem⟩) ∧
        mem.bytes = w ++ x :: tailBytes k codepoint ++ r := by
  intro k
  induction k with
  | zero =>
    intro codepoint out w g r x _ hmem hg
    obtain rfl := List.length_eq_zero_iff.mp hg
    exact ⟨out.mem, by simp [encodeTail]; rfl, hmem⟩
  | succ k ih =>
    intro codepoint out w g r x hpos hmem hg
    obtain ⟨g, y, rfl⟩ : ∃ g' y, g = g' ++ [y] :=
      (List.eq_nil_or_concat' g).resolve_left (by rintro rfl; simp at hg)
    have hgk : g.length = k := by simpa using hg
    have hlen := out.mem.size
    rw [hmem] at hlen
    simp only [List.length_append, List.length_cons, List.length_nil] at hlen
    set b := UInt8.ofNat (codepoint % 64 + 0x80) with hb
    obtain ⟨mem, hrun, hbytes⟩ := ih (codepoint / 64)
      ⟨out.pos, out.mem.setByte (out.pos + (k + 1)) b⟩ w g (b :: r) x hpos (by
        rw [Buf.bytes_setByte, hmem, hpos, List.append_assoc, List.set_append_right _ _ (by omega)]
        simp [hgk]) hgk
    refine ⟨mem, ?_, by rw [hbytes]; simp [tailBytes, hb]⟩
    rw [encodeTail, continuation_eq, writeAt_of_lt (by omega), Checked.ok_bind,
      Nat.shiftRight_eq_div_pow, hrun, Nat.div_div_eq_div_mul, Nat.pow_succ, Nat.mul_comm]

/-- The encoder writes the UTF-8 encoding of a character behind the output, when there is
room for it. -/
theorem encodeUtf8_spec {out : Output m} {w : List UInt8} (hw : out.Holds w) (c : Char) (n : ℕ)
    (hroom : w.length + (String.utf8EncodeChar c).length ≤ m) :
    ∃ out', encodeUtf8 c.toNat n out = .ok (n, out') ∧
      out'.Holds (w ++ String.utf8EncodeChar c) := by
  obtain ⟨hpos, r, hr⟩ := hw
  have hvalid : c.toNat < 0xD800 ∨ 0xDFFF < c.toNat ∧ c.toNat < 0x110000 := c.valid
  set v := c.toNat with hv
  -- the first byte is written last, over `x`
  have hfinish : ∀ (length mark : ℕ) (b : UInt8), lengthAndMark v = (length, mark) → 0 < length →
      String.utf8EncodeChar c = b :: tailBytes (length - 1) v →
      b = UInt8.ofNat (if 1 < length then (v / 64 ^ (length - 1) ||| mark) &&& 0xFF
        else v / 64 ^ (length - 1) &&& 0x7F) →
      ∃ out', encodeUtf8 v n out = .ok (n, out') ∧ out'.Holds (w ++ String.utf8EncodeChar c) := by
    intro length mark b hlm hlen henc hb
    rw [henc, List.length_cons, length_tailBytes] at hroom
    have hsize := out.mem.size
    rw [← hr, List.length_append] at hsize
    obtain ⟨x, g, r', rfl, hg⟩ : ∃ x g r', r = x :: (g ++ r') ∧ g.length = length - 1 := by
      obtain ⟨x, r', rfl⟩ : ∃ x r', r = x :: r' :=
        List.exists_cons_of_ne_nil (by rintro rfl; simp at hsize; omega)
      refine ⟨x, r'.take (length - 1), r'.drop (length - 1), by rw [List.take_append_drop], ?_⟩
      simp only [List.length_cons] at hsize
      rw [List.length_take]
      omega
    obtain ⟨mem, hrun, hmem⟩ := encodeTail_spec (length - 1) v out w g r' x hpos (by simp [← hr]) hg
    refine ⟨⟨out.pos + length, mem.setByte out.pos b⟩, ?_, ?_, r', ?_⟩
    · rw [encodeUtf8, if_neg (by omega), hlm]
      simp only [hrun, Checked.ok_bind]
      rw [writeAt_of_lt (by omega), ← hb]
      rfl
    · show out.pos + length = _
      rw [henc, hpos, List.length_append, List.length_cons, length_tailBytes]
      omega
    · rw [Buf.bytes_setByte, hmem, hpos, List.append_assoc, List.append_assoc,
        List.set_append_right _ _ le_rfl, Nat.sub_self, henc]
      simp
  have h1 : ∀ x < 0x80, x &&& 0x7F = x := by decide +kernel
  have h2 : ∀ x < 0x20, (x ||| 0xC0) &&& 0xFF = x + 0xC0 := by decide
  have h3 : ∀ x < 0x10, (x ||| 0xE0) &&& 0xFF = x + 0xE0 := by decide
  have h4 : ∀ x < 8, (x ||| 0xF0) &&& 0xFF = x + 0xF0 := by decide
  have henc := String.utf8EncodeChar.eq_1 c
  rw [show c.val.toNat = v from rfl] at henc
  by_cases hc1 : v < 0x80
  · refine hfinish 1 0 (UInt8.ofNat v) (if_pos hc1) (by decide) ?_ ?_
    · rw [henc, if_pos (by omega)]
      rfl
    · rw [if_neg (by decide), Nat.sub_self, Nat.pow_zero, Nat.div_one, h1 v hc1]
  by_cases hc2 : v < 0x800
  · refine hfinish 2 0xC0 (UInt8.ofNat (v / 64 % 0x20 + 0xc0)) ?_ (by decide) ?_ ?_
    · rw [lengthAndMark, if_neg hc1, if_pos hc2]
    · rw [henc, if_neg (by omega), if_pos (by omega)]
      rfl
    · rw [if_pos (by decide), h2 _ (by omega), Nat.mod_eq_of_lt (by omega)]
      rfl
  by_cases hc3 : v < 0x10000
  · refine hfinish 3 0xE0 (UInt8.ofNat (v / 4096 % 0x10 + 0xe0)) ?_ (by decide) ?_ ?_
    · rw [lengthAndMark, if_neg hc1, if_neg hc2, if_pos hc3]
    · rw [henc, if_neg (by omega), if_neg (by omega), if_pos (by omega)]
      rfl
    · rw [if_pos (by decide), h3 _ (by omega), Nat.mod_eq_of_lt (by omega)]
      rfl
  · refine hfinish 4 0xF0 (UInt8.ofNat (v / 262144 % 0x08 + 0xf0)) ?_ (by decide) ?_ ?_
    · rw [lengthAndMark, if_neg hc1, if_neg hc2, if_neg hc3]
    · rw [henc, if_neg (by omega), if_neg (by omega), if_neg (by omega)]
      simp [tailBytes, Nat.div_div_eq_div_mul]
    · rw [if_pos (by decide), h4 _ (by omega), Nat.mod_eq_of_lt (by omega)]
      rfl

/-! ### Reading an escape -/

/-- The two halves of a surrogate pair, put together. -/
theorem surrogates_eq {first second : ℕ} (h₁ : 0xD800 ≤ first ∧ first ≤ 0xDBFF)
    (h₂ : 0xDC00 ≤ second ∧ second ≤ 0xDFFF) :
    0x10000 + ((first &&& 0x3FF) <<< 10 ||| second &&& 0x3FF)
      = 0x10000 + (first - 0xD800) * 0x400 + (second - 0xDC00) := by
  have hmask : ∀ x, x &&& 0x3FF = x % 2 ^ 10 := fun x => Nat.and_two_pow_sub_one_eq_mod x 10
  rw [hmask, hmask, ← Nat.shiftLeft_add_eq_or_of_lt (Nat.mod_lt _ (by decide)), Nat.shiftLeft_eq]
  omega

/-- The scalar values of Unicode are the characters. -/
theorem toNat_ofNat {v : ℕ} (h : v < 0xD800 ∨ 0xDFFF < v ∧ v < 0x110000) :
    (Char.ofNat v).toNat = v := by
  have hvalid : v.isValidChar := h
  rw [Char.ofNat, dif_pos hvalid]
  rfl

/-- An escape lies within the string, and takes twice as many bytes as its character. -/
theorem readLiteral_some {n k : ℕ} {l : List UInt8} {c : Char}
    (h : readLiteral n l = some (c, k)) :
    (k = 6 ∨ k = 12) ∧ k ≤ n ∧ 2 * (String.utf8EncodeChar c).length ≤ k := by
  have hlt := hex4Value_lt (l.drop 2)
  unfold readLiteral at h
  simp only at h
  split_ifs at h with h1 h2 h3
  · obtain ⟨rfl, rfl⟩ := Prod.mk.inj (Option.some.inj h)
    have hsize := Char.utf8Size_le_four (Char.ofNat
      (0x10000 + (hex4Value (l.drop 2) - 0xD800) * 0x400 + (hex4Value (l.drop 8) - 0xDC00)))
    rw [String.length_utf8EncodeChar]
    omega
  · obtain ⟨rfl, rfl⟩ := Prod.mk.inj (Option.some.inj h)
    have hval := toNat_ofNat (v := hex4Value (l.drop 2)) (by omega)
    have hsize : (Char.ofNat (hex4Value (l.drop 2))).utf8Size ≤ 3 := by
      have h3 : (Char.ofNat (hex4Value (l.drop 2))).val.toNat ≤ 0xFFFF := by
        rw [show (Char.ofNat (hex4Value (l.drop 2))).val.toNat = hex4Value (l.drop 2) from hval]
        omega
      unfold Char.utf8Size
      simp only [UInt32.le_iff_toNat_le]
      split_ifs <;> first | decide | exact absurd h3 ‹_›
    rw [String.length_utf8EncodeChar]
    omega

/-- **The decoder of escapes.**  For an escape that begins within the string, and with room
for four bytes behind the output or for as many as it reads, it neither reads nor writes
outside its memories; it fails where there is no character to read, and else writes the
UTF-8 encoding of that character. -/
theorem utf16LiteralToUtf8_eq {mem : List UInt8} {input n : ℕ} {out : Output m} {w : List UInt8}
    (hw : out.Holds w) (hmem : input + n ≤ mem.length)
    (hroom : ∀ c k, readLiteral n (mem.drop input) = some (c, k) →
      w.length + (String.utf8EncodeChar c).length ≤ m) :
    match readLiteral n (mem.drop input) with
    | none => utf16LiteralToUtf8 mem input (input + n) out = .ok (0, out)
    | some (c, k) => ∃ out', utf16LiteralToUtf8 mem input (input + n) out = .ok (k, out') ∧
        out'.Holds (w ++ String.utf8EncodeChar c) := by
  have hdrop : ∀ j, (mem.drop input).drop j = mem.drop (input + j) := fun j => by
    rw [List.drop_drop]
  have hget : ∀ j, j < n → ∃ b, (mem.drop input)[j]? = some b ∧
      readAt mem (input + j) = .ok b := by
    intro j hj
    have hsome : (mem.drop input)[j]? = some (mem[input + j]) := by
      rw [List.getElem?_drop, List.getElem?_eq_getElem]
    exact ⟨_, hsome, readAt_of_drop hsome⟩
  rw [utf16LiteralToUtf8, Nat.add_sub_cancel_left]
  unfold readLiteral at hroom ⊢
  simp only [hdrop] at hroom ⊢
  by_cases hn : n < 6
  · rw [if_pos (Or.inl hn), if_pos hn]
    rfl
  rw [if_neg hn, parseHex4_eq (by omega)]
  simp only [Checked.ok_bind, hn, false_or] at hroom ⊢
  have hlt := hex4Value_lt (mem.drop (input + 2))
  set first := hex4Value (mem.drop (input + 2)) with hfirst
  by_cases hlow : 0xDC00 ≤ first ∧ first ≤ 0xDFFF
  · rw [if_pos hlow, if_pos hlow]
    rfl
  rw [if_neg hlow] at hroom
  rw [if_neg hlow, if_neg hlow]
  by_cases hhigh : 0xD800 ≤ first ∧ first ≤ 0xDBFF
  · rw [if_pos hhigh] at hroom
    rw [if_pos hhigh, if_pos hhigh, Nat.sub_add_eq, Nat.add_sub_cancel_left]
    by_cases hn12 : n < 12
    · rw [if_pos (Or.inl hn12), if_pos (by omega)]
      rfl
    rw [if_neg (show ¬n - 6 < 6 by omega), parseHex4_eq (by omega)]
    obtain ⟨b, hb, hreadb⟩ := hget 6 (by omega)
    obtain ⟨u, hu, hreadu⟩ := hget 7 (by omega)
    simp only [hb, hu, hreadb, hreadu, Checked.ok_bind, hn12, false_or, ne_eq,
      Option.some.injEq] at hroom ⊢
    by_cases hb5c : b = 0x5c
    case neg => simp [hb5c]; rfl
    by_cases hu75 : u = 0x75
    case neg => simp [hb5c, hu75]; rfl
    simp only [hb5c, hu75, not_true_eq_false, false_or, if_false] at hroom ⊢
    set second := hex4Value (mem.drop (input + 8)) with hsecond
    by_cases hbad : second < 0xDC00 ∨ 0xDFFF < second
    · rw [if_pos hbad, if_pos hbad]
      rfl
    rw [if_neg hbad] at hroom
    rw [if_neg hbad, if_neg hbad, surrogates_eq hhigh (by omega)]
    have hspec := encodeUtf8_spec hw
      (Char.ofNat (0x10000 + (first - 0xD800) * 0x400 + (second - 0xDC00))) 12 (hroom _ _ rfl)
    rwa [toNat_ofNat (by omega)] at hspec
  · rw [if_neg hhigh] at hroom
    rw [if_neg hhigh, if_neg hhigh]
    have hspec := encodeUtf8_spec hw (Char.ofNat first) 6 (hroom _ _ rfl)
    rwa [toNat_ofNat (by omega)] at hspec

/-- The escapes of the code units `us`. -/
inductive Spells : List ℕ → List UInt8 → Prop
  /-- No units. -/
  | nil : Spells [] []
  /-- One more unit: a backslash, `u`, and its digits. -/
  | cons {n : ℕ} {us : List ℕ} {ds l : List UInt8} (hds : Hex4 ds n) (hl : Spells us l) :
      Spells (n :: us) (0x5c :: 0x75 :: ds ++ l)

theorem Spells.length {us : List ℕ} {l : List UInt8} (h : Spells us l) :
    l.length = 6 * us.length := by
  induction h with
  | nil => rfl
  | cons hds _ ih =>
    simp only [List.cons_append, List.length_cons, List.length_append, hds.length, ih]
    omega

theorem Spells.inv {n : ℕ} {us : List ℕ} {l : List UInt8} (h : Spells (n :: us) l) :
    ∃ ds l', Hex4 ds n ∧ Spells us l' ∧ l = 0x5c :: 0x75 :: ds ++ l' := by
  cases h with
  | cons hds hl => exact ⟨_, _, hds, hl, rfl⟩

theorem Spells.eq_nil {l : List UInt8} (h : Spells [] l) : l = [] := by
  cases h
  rfl

/-- **The escapes of a character are read as that character**, in whichever case its digits
are and whatever follows. -/
theorem readLiteral_of_spells {c : Char} {l : List UInt8} (h : Spells (Js.units c) l) {n : ℕ}
    (hn : l.length ≤ n) (rest : List UInt8) :
    readLiteral n (l ++ rest) = some (c, l.length) := by
  have hvalid : c.toNat < 0xD800 ∨ 0xDFFF < c.toNat ∧ c.toNat < 0x110000 := c.valid
  have hlen := h.length
  rw [Js.units, Js.codePoint] at h hlen
  by_cases hbmp : c.toNat < 0x10000
  · rw [if_pos hbmp] at h hlen
    obtain ⟨ds, l', hds, hl', rfl⟩ := h.inv
    obtain rfl := hl'.eq_nil
    simp only [List.length_singleton] at hlen
    rw [hlen] at hn ⊢
    rw [readLiteral]
    simp only [List.append_nil, List.cons_append, List.drop_succ_cons, List.drop_zero,
      hex4Value_of_hex4 hds]
    rw [if_neg (by omega), if_neg (by omega), Char.ofNat_toNat]
  · rw [if_neg hbmp] at h hlen
    obtain ⟨ds₁, l₁, hds₁, hl₁, rfl⟩ := h.inv
    obtain ⟨ds₂, l₂, hds₂, hl₂, rfl⟩ := hl₁.inv
    obtain rfl := hl₂.eq_nil
    simp only [List.length_cons, List.length_nil] at hlen
    rw [hlen] at hn ⊢
    obtain ⟨d₀, d₁, d₂, d₃, rfl⟩ := List.length_eq_four.mp hds₁.length
    have hfirst := hex4Value_of_hex4 hds₁ (0x5c :: 0x75 :: ds₂ ++ rest)
    rw [readLiteral]
    simp only [List.append_nil, List.cons_append, List.nil_append, List.drop_succ_cons,
      List.drop_zero, hex4Value_of_hex4 hds₂] at hfirst ⊢
    have hback : 0x10000 + (0xD800 + (c.toNat - 0x10000) / 0x400 - 0xD800) * 0x400 +
        (0xDC00 + (c.toNat - 0x10000) % 0x400 - 0xDC00) = c.toNat := by
      generalize c.toNat = v at hvalid hbmp
      omega
    rw [hfirst, if_neg (by omega), if_pos (by omega), if_neg]
    · rw [hback, Char.ofNat_toNat]
    · simp only [List.getElem?_cons_succ, List.getElem?_cons_zero, ne_eq, not_true_eq_false,
        false_or]
      omega

end Json
end WifiRepeater
