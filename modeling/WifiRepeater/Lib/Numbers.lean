import Mathlib.Data.Int.Log
import Mathlib.Data.Rat.Floor

/-!
# Numbers of JavaScript

The numbers of JavaScript are doubles.  Where the exact result of an operation is none of them
the nearest one stands for it, and of two that are as near the one with the even significand.
A number is written with a fixed number of digits behind the point as the nearest decimal
fraction, and of two as near as the larger.

## Main definitions

* `nearestDouble` — the number that stands for a fraction.
* `nearestNumber` — the number that stands for a whole number.
* `toFixed` — a number with so many digits behind the point.

## Main results

* `mem_toFixed` — there are digits in it, and a point.
-/

namespace Js

/-- The nearest whole number, and of two as near the even one. -/
def nearestEven (q : ℚ) : ℤ :=
  if Int.fract q < 1 / 2 ∨ Int.fract q = 1 / 2 ∧ ⌊q⌋ % 2 = 0 then ⌊q⌋ else ⌊q⌋ + 1

/-- The number that stands for zero, or for a positive fraction in the range of the numbers with
53 bits. -/
def nearestDouble (q : ℚ) : ℚ :=
  let unit : ℚ := 2 ^ (Int.log 2 q - 52)
  nearestEven (q / unit) * unit

example : nearestDouble (1 / 3) = 6004799503160661 / 2 ^ 54 := by decide +kernel

/-- The number that stands for a whole number, `none` for the infinity. -/
def nearestNumber (n : ℕ) : Option ℕ :=
  let m := ⌊nearestDouble n⌋₊
  if m.log2 < 1024 then some m else none

example : nearestNumber (2 ^ 53 - 1) = some (2 ^ 53 - 1) ∧
    nearestNumber (2 ^ 53 + 1) = some (2 ^ 53) ∧ nearestNumber (10 ^ 309) = none := by
  decide +kernel

/-- `toFixed`, of a number that is not negative and less than `10 ^ 21`. -/
def toFixed (q : ℚ) (digits : ℕ) : List Char :=
  let decimal := Nat.toDigits 10 ⌊q * 10 ^ digits + 1 / 2⌋₊
  if digits = 0 then decimal
  else
    let decimal := decimal.leftpad (digits + 1) '0'
    let whole := decimal.length - digits
    decimal.take whole ++ '.' :: decimal.drop whole

example : toFixed (49 / 4) 1 = ['1', '2', '.', '3'] ∧ toFixed (1 / 20) 1 = ['0', '.', '1'] ∧
    toFixed (5 / 2) 0 = ['3'] := by
  decide +kernel

/-- There are digits in it, and a point. -/
theorem mem_toFixed {q : ℚ} {digits : ℕ} {c : Char} (hc : c ∈ toFixed q digits) :
    c.isDigit = true ∨ c = '.' := by
  have hdecimal : ∀ n : ℕ, ∀ d ∈ Nat.toDigits 10 n, d.isDigit = true := fun n d hd =>
    Nat.isDigit_of_mem_toDigits (by decide) (by decide) hd
  have hpadded : ∀ n k : ℕ, ∀ d ∈ (Nat.toDigits 10 n).leftpad k '0', d.isDigit = true := by
    intro n k d hd
    rw [List.leftpad, List.mem_append] at hd
    rcases hd with hd | hd
    · rw [List.eq_of_mem_replicate hd]
      rfl
    · exact hdecimal n d hd
  unfold toFixed at hc
  simp only at hc
  split_ifs at hc with hdigits
  · exact .inl (hdecimal _ c hc)
  · rcases List.mem_append.mp hc with hc | hc
    · exact .inl (hpadded _ _ c (List.mem_of_mem_take hc))
    · rcases List.mem_cons.mp hc with hc | hc
      · exact .inr hc
      · exact .inl (hpadded _ _ c (List.mem_of_mem_drop hc))

end Js
