import Mathlib.Data.Int.Notation
import Mathlib.Data.List.Basic
import WifiRepeater.Lib.Js

/-!
# `JSON.stringify`

The texts that JavaScript makes of values: of `null`, Booleans, integers, strings, and
arrays and objects of them.  Strings are sequences of characters here, without unpaired
halves, integers are written in decimal as those below `2 ^ 53` are, and what is sent of a
text is its UTF-8.

A character other than a control character is escaped by one character at most, so that the
text of a string takes at most twice as many bytes as the string.

## Main definitions

* `Value`, `stringify` — values and their texts.
* `utf8` — the bytes of a text.

## Main results

* `length_ofChars_le` — code units and bytes.
* `length_utf8_quote_le` — **how long the text of a string is.**
-/

namespace Js

/-- The values that have a text. -/
inductive Value
  | null
  | bool (b : Bool)
  /-- A whole number: from `2 ^ 53` on it is written with as few digits as tell it from others,
  and from `10 ^ 21` on with an exponent. -/
  | number (n : ℤ)
  | string (cs : List Char)
  | array (items : List Value)
  | object (members : List (List Char × Value))

/-- The UTF-8 of a text. -/
def utf8 (cs : List Char) : List UInt8 := cs.flatMap String.utf8EncodeChar

@[simp] theorem utf8_nil : utf8 [] = [] := rfl

@[simp] theorem utf8_cons (c : Char) (cs : List Char) :
    utf8 (c :: cs) = String.utf8EncodeChar c ++ utf8 cs := List.flatMap_cons

@[simp] theorem utf8_append (cs ds : List Char) : utf8 (cs ++ ds) = utf8 cs ++ utf8 ds :=
  List.flatMap_append

/-- **A string has at most as many code units as bytes.** -/
theorem length_ofChars_le (cs : List Char) : (ofChars cs).length ≤ (utf8 cs).length := by
  induction cs with
  | nil => exact le_rfl
  | cons c cs ih =>
    have hc : (units c).length ≤ (String.utf8EncodeChar c).length := by
      have hv : c.val.toNat = c.toNat := rfl
      rw [units, codePoint, String.utf8EncodeChar.eq_1]
      simp only [hv]
      -- two units only where four bytes are
      split_ifs <;> simp only [List.length_cons, List.length_nil] <;> omega
    rw [ofChars_cons, utf8_cons, List.length_append, List.length_append]
    omega

/-! ### Strings -/

/-- A character of a string in its text. -/
def quoteChar (c : Char) : List Char :=
  if c = '"' ∨ c = '\\' then ['\\', c]
  else if c = '\x08' then ['\\', 'b']
  else if c = '\t' then ['\\', 't']
  else if c = '\n' then ['\\', 'n']
  else if c = '\x0c' then ['\\', 'f']
  else if c = '\r' then ['\\', 'r']
  else if c.toNat < 0x20 then
    ['\\', 'u', '0', '0', (c.toNat / 16).digitChar, (c.toNat % 16).digitChar]
  else [c]

/-- A string in quotes. -/
def quote (cs : List Char) : List Char := '"' :: cs.flatMap quoteChar ++ ['"']

/-- What is no control character grows by one byte at most. -/
theorem length_utf8_quoteChar_le {c : Char} (h : 0x20 ≤ c.toNat) :
    (utf8 (quoteChar c)).length ≤ 2 * (String.utf8EncodeChar c).length := by
  have hne : ∀ d : Char, d.toNat < 0x20 → c ≠ d := by
    rintro d hd rfl
    omega
  rw [quoteChar]
  split_ifs with hquote h₁ h₂ h₃ h₄ h₅
  · rcases hquote with rfl | rfl <;> decide
  · exact absurd h₁ (hne _ (by decide))
  · exact absurd h₂ (hne _ (by decide))
  · exact absurd h₃ (hne _ (by decide))
  · exact absurd h₄ (hne _ (by decide))
  · exact absurd h₅ (hne _ (by decide))
  · omega
  · rw [utf8_cons, utf8_nil, List.append_nil]
    omega

/-- **The text of a string without control characters** takes at most twice as many bytes
as the string, and the quotes. -/
theorem length_utf8_quote_le {cs : List Char} (h : ∀ c ∈ cs, 0x20 ≤ c.toNat) :
    (utf8 (quote cs)).length ≤ 2 * (utf8 cs).length + 2 := by
  have hbody : (utf8 (cs.flatMap quoteChar)).length ≤ 2 * (utf8 cs).length := by
    induction cs with
    | nil => exact le_rfl
    | cons c cs ih =>
      rw [List.forall_mem_cons] at h
      have hhead := length_utf8_quoteChar_le h.1
      have htail := ih h.2
      rw [List.flatMap_cons, utf8_append, utf8_cons, List.length_append, List.length_append]
      omega
  rw [quote, utf8_append, List.length_append, utf8_cons, List.length_append]
  have hends : (String.utf8EncodeChar '"').length + (utf8 ['"']).length = 2 := by decide
  omega

/-! ### Values -/

mutual

/-- The text of a value. -/
def stringify : Value → List Char
  | .null => ['n', 'u', 'l', 'l']
  | .bool true => ['t', 'r', 'u', 'e']
  | .bool false => ['f', 'a', 'l', 's', 'e']
  | .number n => (if n < 0 then ['-'] else []) ++ Nat.toDigits 10 n.natAbs
  | .string cs => quote cs
  | .array items => '[' :: stringifyItems items ++ [']']
  | .object members => '\x7b' :: stringifyMembers members ++ ['\x7d']

/-- The texts of the elements. -/
def stringifyItems : List Value → List Char
  | [] => []
  | item :: items => stringify item ++ (if items.isEmpty then [] else [',']) ++ stringifyItems items

/-- The texts of the members. -/
def stringifyMembers : List (List Char × Value) → List Char
  | [] => []
  | member :: members =>
      stringifyMember member ++ (if members.isEmpty then [] else [',']) ++
        stringifyMembers members

/-- The name of a member, and its value. -/
def stringifyMember : List Char × Value → List Char
  | (name, item) => quote name ++ ':' :: stringify item

end

end Js
