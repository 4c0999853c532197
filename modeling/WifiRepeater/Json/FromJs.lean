import WifiRepeater.Json.RoundTrip
import WifiRepeater.Lib.Stringify

/-!
# What JavaScript writes and cJSON reads

The pages make their requests with `JSON.stringify`, and the device reads them with cJSON.
The two printers escape the same bytes in the same way, so what JavaScript writes is what
cJSON would have printed, and cJSON reads it as the value that was written, its strings in
UTF-8.

## Main definitions

* `ofJs` — a value of JavaScript as cJSON holds it.
* `Sendable` — its strings have no NUL, and its numbers have fifteen digits at most.

## Main results

* `text_ofJs` — **the two texts are the same.**
* `cJsonParse_stringify` — **what is written is what is read.**
-/

namespace WifiRepeater
namespace Json

open Js (Value utf8 quote quoteChar stringify stringifyItems stringifyMembers stringifyMember)

/-! ### The values -/

mutual

/-- A value of JavaScript as cJSON holds it. -/
def ofJs : Value → CJson
  | .null => .null
  | .bool b => .bool b
  | .number n => .number n
  | .string cs => .string (.ofMem (utf8 cs))
  | .array items => .array (ofJsItems items)
  | .object members => .object (ofJsMembers members)

/-- The elements of an array. -/
def ofJsItems : List Value → List CJson
  | [] => []
  | item :: items => ofJs item :: ofJsItems items

/-- The members of an object. -/
def ofJsMembers : List (List Char × Value) → List (CStr × CJson)
  | [] => []
  | member :: members => ofJsMember member :: ofJsMembers members

/-- A member. -/
def ofJsMember : List Char × Value → CStr × CJson
  | (name, item) => (.ofMem (utf8 name), ofJs item)

end

/-- A text without a NUL. -/
def NulFree (cs : List Char) : Prop := ∀ c ∈ cs, c ≠ '\x00'

mutual

/-- A value that cJSON can hold: its strings have no NUL, and its numbers have fifteen
digits at most. -/
def Sendable : Value → Prop
  | .null | .bool _ => True
  | .number n => Fits n
  | .string cs => NulFree cs
  | .array items => SendableItems items
  | .object members => SendableMembers members

/-- The same of every element. -/
def SendableItems : List Value → Prop
  | [] => True
  | item :: items => Sendable item ∧ SendableItems items

/-- The same of every member. -/
def SendableMembers : List (List Char × Value) → Prop
  | [] => True
  | member :: members => SendableMember member ∧ SendableMembers members

/-- The same of a member's name and value. -/
def SendableMember : List Char × Value → Prop
  | (name, item) => NulFree name ∧ Sendable item

end

/-! ### Strings -/

/-- A character beyond ASCII is written with bytes that are not escaped. -/
theorem high_utf8EncodeChar {c : Char} (h : 0x80 ≤ c.toNat) :
    ∀ b ∈ String.utf8EncodeChar c, 0x80 ≤ b.toNat := by
  have hv : c.val.toNat = c.toNat := rfl
  have hbyte : ∀ n, 0x80 ≤ n % 256 → 0x80 ≤ (UInt8.ofNat n).toNat := fun n hn => by
    rwa [UInt8.toNat_ofNat']
  rw [String.utf8EncodeChar.eq_1]
  simp only [hv]
  split_ifs <;> simp only [List.forall_mem_cons, List.not_mem_nil, false_imp_iff, implies_true,
    and_true]
  · omega
  · exact ⟨hbyte _ (by omega), hbyte _ (by omega)⟩
  · exact ⟨hbyte _ (by omega), hbyte _ (by omega), hbyte _ (by omega)⟩
  · exact ⟨hbyte _ (by omega), hbyte _ (by omega), hbyte _ (by omega), hbyte _ (by omega)⟩

/-- **JavaScript and cJSON escape alike.** -/
theorem flatMap_escapeByte_utf8EncodeChar (c : Char) :
    (String.utf8EncodeChar c).flatMap escapeByte = utf8 (quoteChar c) := by
  by_cases h : c.toNat < 0x80
  · have hall : ∀ n < 0x80, (String.utf8EncodeChar (Char.ofNat n)).flatMap escapeByte
        = utf8 (quoteChar (Char.ofNat n)) := by decide +kernel
    have hc := hall c.toNat h
    rwa [Char.ofNat_toNat] at hc
  · rw [Nat.not_lt] at h
    have hself : (String.utf8EncodeChar c).flatMap escapeByte = String.utf8EncodeChar c := by
      refine (List.flatMap_congr fun b hb => ?_).trans (List.flatMap_singleton' _)
      have hb' := high_utf8EncodeChar h b hb
      rw [escapeByte, if_pos]
      refine ⟨?_, ?_, ?_⟩
      · rw [UInt8.lt_iff_toNat_lt]
        exact lt_of_lt_of_le (by decide) hb'
      · rintro rfl
        exact absurd hb' (by decide)
      · rintro rfl
        exact absurd hb' (by decide)
    have hne : ∀ d : Char, d.toNat < 0x80 → c ≠ d := by
      rintro d hd rfl
      omega
    rw [hself, quoteChar, if_neg (by
        rintro (hc | hc)
        · exact hne _ (by decide) hc
        · exact hne _ (by decide) hc),
      if_neg (hne _ (by decide)), if_neg (hne _ (by decide)), if_neg (hne _ (by decide)),
      if_neg (hne _ (by decide)), if_neg (hne _ (by decide)), if_neg (by omega)]
    simp

theorem flatMap_escapeByte_utf8 (cs : List Char) :
    (utf8 cs).flatMap escapeByte = utf8 (cs.flatMap quoteChar) := by
  induction cs with
  | nil => rfl
  | cons c cs ih =>
    rw [Js.utf8_cons, List.flatMap_append, flatMap_escapeByte_utf8EncodeChar, ih,
      List.flatMap_cons, Js.utf8_append]

/-- The only character with a NUL in its bytes is the NUL. -/
theorem utf8_noNul {cs : List Char} (h : NulFree cs) : ∀ b ∈ utf8 cs, b ≠ 0 := by
  intro b hb
  obtain ⟨c, hc, hbc⟩ := List.mem_flatMap.mp hb
  rintro rfl
  by_cases hlow : c.toNat < 0x80
  · have hall : ∀ n < 0x80, 0 ∈ String.utf8EncodeChar (Char.ofNat n) → n = 0 := by decide +kernel
    have hzero := hall c.toNat hlow (by rwa [Char.ofNat_toNat])
    refine h c hc ?_
    rw [← Char.ofNat_toNat c, hzero]
  · exact absurd (high_utf8EncodeChar (Nat.not_lt.mp hlow) 0 hbc) (by decide)

/-- The text of a string. -/
theorem quoted_utf8 {cs : List Char} (h : NulFree cs) :
    quoted (.ofMem (utf8 cs)) = utf8 (quote cs) := by
  rw [quoted, CStr.ofMem_of_noNul (utf8_noNul h), flatMap_escapeByte_utf8, quote, Js.utf8_append,
    Js.utf8_cons]
  rfl

/-! ### Values -/

theorem decimal_eq_utf8 (n : ℤ) :
    decimal n = utf8 ((if n < 0 then ['-'] else []) ++ Nat.toDigits 10 n.natAbs) := by
  have hdigits : ∀ cs : List Char, (∀ c ∈ cs, c.toNat < 0x80) →
      utf8 cs = cs.map fun c => UInt8.ofNat c.toNat := by
    intro cs hcs
    induction cs with
    | nil => rfl
    | cons c cs ih =>
      rw [List.forall_mem_cons] at hcs
      have hv : c.val.toNat = c.toNat := rfl
      rw [Js.utf8_cons, ih hcs.2, String.utf8EncodeChar.eq_1, if_pos (by omega)]
      rfl
  rw [decimal, Js.utf8_append, hdigits (Nat.toDigits 10 n.natAbs)]
  · by_cases hneg : n < 0
    · rw [if_pos hneg, if_pos hneg]
      rfl
    · rw [if_neg hneg, if_neg hneg]
      rfl
  · intro c hc
    have hdigit := Nat.isDigit_of_mem_toDigits (by decide) (by decide) hc
    rw [Char.isDigit_iff_toNat, show '9'.toNat = 57 from rfl] at hdigit
    omega

variable (D : Doubles)

mutual

/-- **The two texts are the same.** -/
theorem text_ofJs : ∀ v : Value, Sendable v → text D (ofJs v) = utf8 (stringify v)
  | .null, _ | .bool true, _ | .bool false, _ => by rw [ofJs, text, stringify]; rfl
  | .number n, h => by
      rw [ofJs, text, stringify, numberText_int D h, decimal_eq_utf8]
  | .string cs, h => by
      rw [ofJs, text, stringify, quoted_utf8 h]
  | .array items, h => by
      rw [ofJs, text, stringify, textItems_ofJs items h, Js.utf8_append, Js.utf8_cons]
      rfl
  | .object members, h => by
      rw [ofJs, text, stringify, textMembers_ofJs members h, Js.utf8_append, Js.utf8_cons]
      rfl

theorem textItems_ofJs : ∀ items : List Value, SendableItems items →
    textItems D (ofJsItems items) = utf8 (stringifyItems items)
  | [], _ => rfl
  | item :: items, h => by
      have hcomma : (if (ofJsItems items).isEmpty then [] else [0x2c])
          = utf8 (if items.isEmpty then [] else [',']) := by
        cases items <;> rfl
      rw [ofJsItems, textItems, stringifyItems, text_ofJs item h.1, textItems_ofJs items h.2,
        hcomma, Js.utf8_append, Js.utf8_append]

theorem textMembers_ofJs : ∀ members : List (List Char × Value), SendableMembers members →
    textMembers D (ofJsMembers members) = utf8 (stringifyMembers members)
  | [], _ => rfl
  | (name, item) :: members, h => by
      have hcomma : (if (ofJsMembers members).isEmpty then [] else [0x2c])
          = utf8 (if members.isEmpty then [] else [',']) := by
        cases members <;> rfl
      rw [ofJsMembers, textMembers, stringifyMembers, ofJsMember, textMember, stringifyMember,
        text_ofJs item h.1.2, quoted_utf8 h.1.1, textMembers_ofJs members h.2, hcomma,
        Js.utf8_append, Js.utf8_append, Js.utf8_append, Js.utf8_cons]
      rfl

end

mutual

theorem whole_ofJs : ∀ v : Value, Sendable v → Whole (ofJs v)
  | .null, _ | .bool _, _ | .string _, _ => trivial
  | .number n, h => ⟨n, h, rfl⟩
  | .array items, h => wholeItems_ofJs items h
  | .object members, h => wholeMembers_ofJs members h

theorem wholeItems_ofJs : ∀ items : List Value, SendableItems items →
    WholeItems (ofJsItems items)
  | [], _ => trivial
  | item :: items, h => ⟨whole_ofJs item h.1, wholeItems_ofJs items h.2⟩

theorem wholeMembers_ofJs : ∀ members : List (List Char × Value), SendableMembers members →
    WholeMembers (ofJsMembers members)
  | [], _ => trivial
  | (_, item) :: members, h => ⟨whole_ofJs item h.1.2, wholeMembers_ofJs members h.2⟩

end

/-- What is sent of a value, as a C string. -/
def sent (v : Value) : CStr := .ofMem (utf8 (stringify v))

theorem bytes_sent {v : Value} (h : Sendable v) : (sent v).bytes = utf8 (stringify v) := by
  refine CStr.ofMem_of_noNul fun b hb => ?_
  rw [← text_ofJs wholeDoubles v h] at hb
  exact text_noNul wholeDoubles (ofJs v) b hb

/-- **What is written is what is read.** -/
theorem cJsonParse_stringify (fresh : (n : ℕ) → Buf n) {v : Value} (h : Sendable v)
    (hdepth : depth (ofJs v) ≤ nestingLimit) : cJsonParse D fresh (sent v) = .ok (some (ofJs v)) :=
  cJsonParse_text D fresh (whole_ofJs v h) hdepth ((bytes_sent h).trans (text_ofJs D v h).symm)

/-- **The two ends agree on JSON**: JavaScript writes what cJSON prints, and cJSON reads it as
the value that was written. -/
theorem javascript_agrees (fresh : (n : ℕ) → Buf n) {v : Value} (h : Sendable v)
    (hdepth : depth (ofJs v) ≤ nestingLimit) :
    text D (ofJs v) = utf8 (stringify v) ∧ cJsonParse D fresh (sent v) = .ok (some (ofJs v)) :=
  ⟨text_ofJs D v h, cJsonParse_stringify D fresh h hdepth⟩

/-- A name with a quote, an umlaut and a line end in it. -/
def umlautValue : Value :=
  .object [(['n', '"'], .array [.string ['ü', '\n'], .number (-12), .null])]

theorem umlautValue_agrees :
    text wholeDoubles (ofJs umlautValue) = utf8 (stringify umlautValue) ∧
      cJsonParse wholeDoubles Buf.zero (sent umlautValue) = .ok (some (ofJs umlautValue)) :=
  javascript_agrees wholeDoubles Buf.zero
    ⟨⟨by simp [NulFree], by simp [Sendable, SendableItems, NulFree, Fits]⟩, trivial⟩ (by decide)

end Json
end WifiRepeater
