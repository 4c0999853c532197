import WifiRepeater.Dns.Access
import WifiRepeater.Dns.Answers

/-!
# Where a question ends

`question_end` is given whatever a client sent, and both captive answers copy as many
bytes of it as the function says.  Its own comment promises `-1` for malformed input.  The
loop is bounded by the datagram, but the five bytes for the zero byte, the type and the
class are added behind it and not compared with anything: a datagram that stops inside
these five bytes is answered with an offset past its end.

A datagram has at most 1024 bytes, so that no sum here comes near the range of an `int`.

## Main definitions

* `walkTurn`, `questionEndChecked` — the function, access by access.
* `LabelChain buf off p` — labels lead from `off` to `p`.
* `QuestionEndsAt buf len r` — the question of the datagram is whole and ends at `r`.
* `QuestionEndContract buf len` — what the function promises for one datagram.

## Main results

* `questionEndChecked_eq` — **the function ends, and reads received bytes only.**
* `questionEnd_eq_some_iff` — what it answers.
* `questionEndContract_iff` — **when it keeps its promise.**
* `questionEndContract_of_parseDnsQuery` — it does for all that the parser accepts.
-/

namespace WifiRepeater
namespace Dns

variable {buf : List UInt8} {len : ℕ}

/-! ### The function, access by access -/

/-- One turn of the loop.  It goes on, or leaves with the offset. -/
def walkTurn (buf : List UInt8) (off : ℕ) : Checked (ℕ ⊕ ℕ) :=
  if off < buf.length then do
    if (← readAt buf off) = 0 then pure (.inr off)
    else
      let step ← readAt buf off
      pure (.inl (off + (step.toNat + 1)))
  else pure (.inr off)

/-- `question_end` on a datagram of `buf.length` bytes. -/
def questionEndChecked (buf : List UInt8) : Checked (Option ℕ) := do
  let off ← Checked.loop (walkTurn buf) (buf.length + 1) 12
  pure (if off < buf.length then some (off + 1 + 4) else none)

/-! ### Chains of labels -/

/-- Labels lead from one offset to another: at each a length byte that is not zero, and
the next one as many bytes behind it. -/
inductive LabelChain (buf : List UInt8) : ℕ → ℕ → Prop
  /-- No label. -/
  | refl (off : ℕ) : LabelChain buf off off
  /-- One more label in front. -/
  | label {off p : ℕ} (hne : byteAt buf off ≠ 0)
      (rest : LabelChain buf (off + ((byteAt buf off).toNat + 1)) p) : LabelChain buf off p

theorem LabelChain.le {off p : ℕ} (h : LabelChain buf off p) : off ≤ p := by
  induction h with
  | refl off => exact le_rfl
  | label hne rest ih => omega

/-- The loop follows a chain of labels, and stops within the datagram at zero bytes
only. -/
theorem walkLabels_spec (buf : List UInt8) : ∀ (fuel off : ℕ), len - off ≤ fuel →
    LabelChain buf off (walkLabels buf len fuel off) ∧
      (walkLabels buf len fuel off < len → byteAt buf (walkLabels buf len fuel off) = 0) := by
  intro fuel
  induction fuel with
  | zero => intro off h; exact ⟨.refl off, fun hlt => by rw [walkLabels] at hlt; omega⟩
  | succ fuel ih =>
    intro off h
    rw [walkLabels]
    split_ifs with hgo
    · obtain ⟨hchain, hzero⟩ := ih (off + ((byteAt buf off).toNat + 1)) (by omega)
      exact ⟨.label hgo.2 hchain, hzero⟩
    · refine ⟨.refl off, fun hlt => ?_⟩
      by_contra hne
      exact hgo ⟨hlt, hne⟩

/-- The first zero byte a chain of labels meets is where the loop stops. -/
theorem LabelChain.walkLabels_eq {off p : ℕ} (h : LabelChain buf off p) (hlt : p < len)
    (hzero : byteAt buf p = 0) :
    ∀ fuel, len - off ≤ fuel → walkLabels buf len fuel off = p := by
  induction h with
  | refl off =>
    intro fuel _
    cases fuel with
    | zero => rfl
    | succ fuel => rw [walkLabels, if_neg fun hgo => hgo.2 hzero]
  | @label off p hne rest ih =>
    intro fuel hfuel
    have hle := rest.le
    obtain ⟨fuel, rfl⟩ : ∃ k, fuel = k + 1 := ⟨fuel - 1, by omega⟩
    rw [walkLabels, if_pos ⟨by omega, hne⟩]
    exact ih hlt hzero fuel (by omega)

/-- **What the function answers**: the place five bytes on from the zero byte the labels
lead to, if that byte was received. -/
theorem questionEnd_eq_some_iff {r : ℕ} : questionEnd buf len = some r ↔
    ∃ p, LabelChain buf 12 p ∧ p < len ∧ byteAt buf p = 0 ∧ r = p + 5 := by
  rw [questionEnd]
  constructor
  · intro h
    obtain ⟨hchain, hzero⟩ := walkLabels_spec buf len 12 (Nat.sub_le _ _)
    split_ifs at h with hlt
    exact ⟨_, hchain, hlt, hzero hlt, (Option.some.inj h).symm⟩
  · rintro ⟨p, hchain, hlt, hzero, rfl⟩
    rw [hchain.walkLabels_eq hlt hzero len (Nat.sub_le _ _), if_pos hlt]

/-! ### Nothing but received bytes is read -/

/-- A turn within the datagram, its bytes read. -/
theorem walkTurn_of_lt {off : ℕ} (h : off < buf.length) :
    walkTurn buf off = if byteAt buf off = 0 then .ok (.inr off)
      else .ok (.inl (off + ((byteAt buf off).toNat + 1))) := by
  rw [walkTurn, if_pos h, readAt_byteAt h]
  rfl

/-- Turns past the end of the datagram change nothing. -/
theorem walkLabels_fuel : ∀ (fuel fuel' off : ℕ), len - off ≤ fuel → len - off ≤ fuel' →
    walkLabels buf len fuel off = walkLabels buf len fuel' off := by
  intro fuel
  induction fuel with
  | zero =>
    intro fuel' off h _
    cases fuel' with
    | zero => rfl
    | succ fuel' => rw [walkLabels, walkLabels, if_neg (by omega)]
  | succ fuel ih =>
    intro fuel' off h h'
    cases fuel' with
    | zero => rw [walkLabels, walkLabels, if_neg (by omega)]
    | succ fuel' =>
      rw [walkLabels, walkLabels]
      by_cases hgo : off < len ∧ byteAt buf off ≠ 0
      · rw [if_pos hgo, if_pos hgo, ih fuel' _ (by omega) (by omega)]
      · rw [if_neg hgo, if_neg hgo]

/-- **One turn**: it reads within the datagram and agrees with the plain loop; a turn that
goes on has moved the offset. -/
theorem walkTurn_spec (buf : List UInt8) (off : ℕ) :
    (∃ off', walkTurn buf off = .ok (.inl off') ∧
      walkLabels buf buf.length buf.length off' = walkLabels buf buf.length buf.length off ∧
        buf.length - off' < buf.length - off) ∨
      walkTurn buf off = .ok (.inr (walkLabels buf buf.length buf.length off)) := by
  rw [walkLabels_fuel buf.length (buf.length + 1) off (by omega) (by omega), walkLabels]
  by_cases hlt : off < buf.length
  · rw [walkTurn_of_lt hlt]
    by_cases hzero : byteAt buf off = 0
    · have hstop : ¬(off < buf.length ∧ byteAt buf off ≠ 0) := fun hgo => hgo.2 hzero
      rw [if_pos hzero, if_neg hstop]
      exact .inr rfl
    · rw [if_neg hzero, if_pos ⟨hlt, hzero⟩]
      exact .inl ⟨_, rfl, rfl, by omega⟩
  · rw [if_neg fun hgo => hlt hgo.1]
    exact .inr (by rw [walkTurn, if_neg hlt]; rfl)

/-- **The checked function refines the plain one**: it ends, and no read is outside the
datagram. -/
theorem questionEndChecked_eq (buf : List UInt8) :
    questionEndChecked buf = .ok (questionEnd buf buf.length) := by
  let stop := walkLabels buf buf.length buf.length 12
  have hloop : ∃ off, Checked.loop (walkTurn buf) (buf.length + 1) 12 = .ok off ∧ off = stop := by
    refine Checked.loop_spec (I := fun off => walkLabels buf buf.length buf.length off = stop)
      (fun off => buf.length - off) (fun off hoff => ?_) _ 12 rfl (by omega)
    rcases walkTurn_spec buf off with ⟨off', hturn, hwalk, hless⟩ | hturn
    · exact .inl ⟨off', hturn, hwalk.trans hoff, hless⟩
    · exact .inr ⟨_, hturn, hoff⟩
  obtain ⟨off, hok, rfl⟩ := hloop
  rw [questionEndChecked, hok]
  rfl

/-- What lies behind the received bytes does not matter. -/
theorem questionEnd_received (buf : List UInt8) (len : ℕ) :
    questionEnd (received buf len) len = questionEnd buf len := by
  have hwalk : ∀ fuel off,
      walkLabels (received buf len) len fuel off = walkLabels buf len fuel off := by
    intro fuel
    induction fuel with
    | zero => exact fun off => rfl
    | succ fuel ih =>
      intro off
      rw [walkLabels, walkLabels]
      by_cases hlt : off < len
      · rw [byteAt_received hlt, ih]
      · rw [if_neg fun hgo => hlt hgo.1, if_neg fun hgo => hlt hgo.1]
  rw [questionEnd, questionEnd, hwalk]

/-! ### What the function promises -/

/-- The question of the datagram is whole, and ends at `r`: labels lead from the header to
a zero byte, and four more bytes were received. -/
def QuestionEndsAt (buf : List UInt8) (len r : ℕ) : Prop :=
  12 < r ∧ r ≤ len ∧ ∃ p, LabelChain buf 12 p ∧ byteAt buf p = 0 ∧ r = p + 5

/-- **What the function promises** for one datagram: it ends and stays within the received
bytes, it answers where the question ends or `-1`, and `-1` if the question is not
whole. -/
def QuestionEndContract (buf : List UInt8) (len : ℕ) : Prop :=
  ∃ answer, questionEndChecked (received buf len) = .ok answer ∧
    (∀ r, answer = some r → QuestionEndsAt buf len r) ∧
      ((∀ r, ¬QuestionEndsAt buf len r) → answer = none)

/-- The promise comes down to one bound: no answer is past the end. -/
theorem questionEndContract_iff_le :
    QuestionEndContract buf len ↔ ∀ r, questionEnd buf len = some r → r ≤ len := by
  have hrun : questionEndChecked (received buf len) = .ok (questionEnd buf len) := by
    have h := questionEndChecked_eq (received buf len)
    rwa [received, length_copyBytes, ← received, questionEnd_received] at h
  constructor
  · rintro ⟨answer, hok, hends, -⟩ r hr
    rw [hrun, Except.ok.injEq] at hok
    exact (hends r (hok ▸ hr)).2.1
  · intro hbound
    have hends : ∀ r, questionEnd buf len = some r → QuestionEndsAt buf len r := by
      intro r hr
      obtain ⟨p, hchain, -, hzero, hp⟩ := questionEnd_eq_some_iff.mp hr
      have hle := hchain.le
      exact ⟨by omega, hbound r hr, p, hchain, hzero, hp⟩
    refine ⟨_, hrun, hends, fun hcut => ?_⟩
    cases hr : questionEnd buf len with
    | none => rfl
    | some r => exact absurd (hends r hr) (hcut r)

/-- **When the function keeps its promise**: exactly when the zero byte that the labels
lead to, if it was received at all, is not one of the last four bytes.  Otherwise the
datagram was cut off within the type and the class, and the function answers all the
same. -/
theorem questionEndContract_iff (buf : List UInt8) (len : ℕ) : QuestionEndContract buf len ↔
    ∀ p, LabelChain buf 12 p → byteAt buf p = 0 → p < len → p + 4 < len := by
  rw [questionEndContract_iff_le]
  constructor
  · intro hbound p hchain hzero hlt
    have hle := hbound _ (questionEnd_eq_some_iff.mpr ⟨p, hchain, hlt, hzero, rfl⟩)
    omega
  · intro hwhole r hr
    obtain ⟨p, hchain, hlt, hzero, rfl⟩ := questionEnd_eq_some_iff.mp hr
    have hfour := hwhole p hchain hzero hlt
    omega

/-- A header, the empty name, and nothing more. -/
def nameOnly : List UInt8 := [0, 7, 1, 0, 0, 1, 0, 0, 0, 0, 0, 0, 0]

/-- The function answers 17 for these thirteen bytes. -/
theorem questionEnd_nameOnly : questionEnd nameOnly 13 = some 17 ∧
    ¬QuestionEndContract nameOnly 13 := by
  have hanswer : questionEnd nameOnly 13 = some 17 := by decide
  refine ⟨hanswer, fun h => ?_⟩
  have hle := questionEndContract_iff_le.mp h 17 hanswer
  omega

/-- The proxy asks only about datagrams that its parser has accepted, and in these the
parser has found the type and the class. -/
theorem questionEndContract_of_parseDnsQuery {n : ℕ} {name : List UInt8} {qtype : UInt16}
    (h : parseDnsQuery buf len n = some (name, qtype)) : QuestionEndContract buf len := by
  obtain ⟨-, -, q, hq, -⟩ := (parseDnsQuery_eq_some_iff (two_le_of_parseDnsQuery h)).mp h
  have hle := hq.length_le
  rw [questionEndContract_iff_le]
  intro r hr
  rw [questionEnd_of_carries hq, Option.some.injEq] at hr
  omega

end Dns
end WifiRepeater
