import Mathlib.Data.Nat.Digits.Lemmas
import Mathlib.Data.List.TakeWhile

/-!
# Chunked bodies

A body whose length is not known beforehand is sent in chunks: the length of a chunk in
hexadecimal digits, the end of a line, the bytes, and the end of a line again.  A chunk of no
bytes ends the body.  A reader knows by that chunk whether a body is complete, and so a chunk
that was not sent as a whole is never taken for one, even if the end of the body follows.

## Main definitions

* `encode`, `last` — a chunk, and the end of a body.
* `decode` — the body, if it is complete.

## Main results

* `decode_encode` — a chunk is read back, and the rest is read as before.
* `decode_append` — what follows a complete body is not looked at.
* `decode_torn` — **a chunk that was cut short is never read as the end.**
-/

namespace Chunked

/-! ### Lengths -/

/-- A hexadecimal digit. -/
def hexByte (d : ℕ) : UInt8 := if d < 10 then UInt8.ofNat (0x30 + d) else UInt8.ofNat (0x57 + d)

/-- The value of a digit. -/
def hexValue (b : UInt8) : Option ℕ :=
  if 0x30 ≤ b ∧ b ≤ 0x39 then some (b.toNat - 0x30)
  else if 0x61 ≤ b ∧ b ≤ 0x66 then some (b.toNat - 0x57)
  else if 0x41 ≤ b ∧ b ≤ 0x46 then some (b.toNat - 0x37)
  else none

theorem hexValue_hexByte : ∀ d < 16, hexValue (hexByte d) = some d := by decide

/-- A length, without leading zeros. -/
def hexLength (n : ℕ) : List UInt8 :=
  if n = 0 then [hexByte 0] else (Nat.digits 16 n).reverse.map hexByte

/-- The digits at the front, read on from a value, and what follows them. -/
def readHex (value : ℕ) : List UInt8 → ℕ × List UInt8
  | [] => (value, [])
  | b :: bs =>
      match hexValue b with
      | some d => readHex (16 * value + d) bs
      | none => (value, b :: bs)

/-- Digits are read one by one. -/
theorem readHex_map (ds : List ℕ) (hds : ∀ d ∈ ds, d < 16) (value : ℕ) (rest : List UInt8) :
    readHex value (ds.map hexByte ++ rest)
      = readHex (ds.foldl (fun v d => 16 * v + d) value) rest := by
  induction ds generalizing value with
  | nil => rfl
  | cons d ds ih =>
    rw [List.forall_mem_cons] at hds
    rw [List.map_cons, List.cons_append, readHex, hexValue_hexByte d hds.1]
    exact ih hds.2 _

theorem foldl_reverse_digits (n : ℕ) :
    (Nat.digits 16 n).reverse.foldl (fun v d => 16 * v + d) 0 = n := by
  rw [List.foldl_reverse]
  conv_rhs => rw [← Nat.ofDigits_digits 16 n]
  rw [Nat.ofDigits_eq_foldr]
  exact congrArg (fun f => List.foldr f 0 (Nat.digits 16 n)) (funext₂ fun d v => by simp [add_comm])

/-- A length is read back. -/
theorem readHex_hexLength {rest : List UInt8} (n : ℕ) (hrest : (readHex n rest) = (n, rest)) :
    readHex 0 (hexLength n ++ rest) = (n, rest) := by
  unfold hexLength
  split_ifs with h
  · rw [h] at hrest ⊢
    exact hrest
  · rw [readHex_map _ fun d hd => Nat.digits_lt_base (by decide) (List.mem_reverse.mp hd),
      foldl_reverse_digits, hrest]

/-! ### Bodies -/

/-- The end of a line. -/
def crlf : List UInt8 := [0x0d, 0x0a]

/-- A chunk. -/
def encode (chunk : List UInt8) : List UInt8 :=
  hexLength chunk.length ++ (crlf ++ (chunk ++ crlf))

/-- The end of a body, which is a chunk of no bytes. -/
def last : List UInt8 := [0x30, 0x0d, 0x0a, 0x0d, 0x0a]

/-- The list without a front, if it has it. -/
def stripFront (front l : List UInt8) : Option (List UInt8) :=
  if front <+: l then some (l.drop front.length) else none

/-- The length of the next chunk, and what follows its line. -/
def readLine (l : List UInt8) : Option (ℕ × List UInt8) :=
  -- there is a digit at least
  if (readHex 0 l).2.length = l.length then none
  else (stripFront crlf (readHex 0 l).2).map fun rest => ((readHex 0 l).1, rest)

/-- The body, with fuel for the chunks. -/
def decodeWith : ℕ → List UInt8 → Option (List UInt8)
  | 0, _ => none
  | fuel + 1, l =>
      (readLine l).bind fun line =>
        if line.1 = 0 then (stripFront crlf line.2).map fun _ => []
        else
          (stripFront crlf (line.2.drop line.1)).bind fun rest =>
            (decodeWith fuel rest).map (line.2.take line.1 ++ ·)

/-- The body, if it is complete; what follows it is not looked at. -/
def decode (l : List UInt8) : Option (List UInt8) := decodeWith l.length l

theorem stripFront_eq_some {front l rest : List UInt8} :
    stripFront front l = some rest ↔ l = front ++ rest := by
  unfold stripFront
  split_ifs with h
  · obtain ⟨r, rfl⟩ := h
    simp
  · refine iff_of_false (by simp) ?_
    rintro rfl
    exact h (List.prefix_append _ _)

@[simp] theorem stripFront_append (front l : List UInt8) : stripFront front (front ++ l) = some l :=
  stripFront_eq_some.mpr rfl

theorem length_readHex_le (value : ℕ) (l : List UInt8) : (readHex value l).2.length ≤ l.length := by
  induction l generalizing value with
  | nil => exact le_rfl
  | cons b l ih =>
    rw [readHex]
    cases hexValue b with
    | none => exact le_rfl
    | some d => exact (ih _).trans (Nat.le_succ _)

/-- A line is not empty. -/
theorem length_of_readLine {l rest : List UInt8} {n : ℕ} (h : readLine l = some (n, rest)) :
    rest.length < l.length := by
  unfold readLine at h
  split_ifs at h
  obtain ⟨r, hr, hpair⟩ := Option.map_eq_some_iff.mp h
  obtain ⟨-, rfl⟩ := Prod.mk.inj hpair
  have hle := length_readHex_le 0 l
  rw [stripFront_eq_some.mp hr, List.length_append] at hle
  have hcrlf : crlf.length = 2 := rfl
  omega

/-- More fuel than bytes makes no difference. -/
theorem decodeWith_eq {k k' : ℕ} : ∀ {l : List UInt8}, l.length ≤ k → l.length ≤ k' →
    decodeWith k l = decodeWith k' l := by
  induction k generalizing k' with
  | zero =>
    intro l hl _
    rw [List.length_eq_zero_iff.mp (Nat.le_zero.mp hl)]
    cases k' <;> rfl
  | succ k ih =>
    intro l hl hl'
    cases k' with
    | zero =>
      rw [List.length_eq_zero_iff.mp (Nat.le_zero.mp hl')]
      rfl
    | succ k' =>
      rw [decodeWith, decodeWith]
      refine Option.bind_congr fun line hline => ?_
      have hlt : line.2.length < l.length := length_of_readLine hline
      split_ifs with hzero
      · rfl
      · refine Option.bind_congr fun rest hrest => ?_
        have hdrop := congrArg List.length (stripFront_eq_some.mp hrest)
        rw [List.length_drop, List.length_append] at hdrop
        have hk : rest.length ≤ k := by omega
        have hk' : rest.length ≤ k' := by omega
        rw [ih hk hk']

/-- One chunk at a time. -/
theorem decode_eq (l : List UInt8) :
    decode l = (readLine l).bind fun line =>
      if line.1 = 0 then (stripFront crlf line.2).map fun _ => []
      else
        (stripFront crlf (line.2.drop line.1)).bind fun rest =>
          (decode rest).map (line.2.take line.1 ++ ·) := by
  rw [decode, decodeWith_eq le_rfl (Nat.le_succ _), decodeWith]
  refine Option.bind_congr fun line hline => ?_
  have hlt : line.2.length < l.length := length_of_readLine hline
  split_ifs with hzero
  · rfl
  · refine Option.bind_congr fun rest hrest => ?_
    have hdrop := congrArg List.length (stripFront_eq_some.mp hrest)
    rw [List.length_drop, List.length_append] at hdrop
    rw [decode, decodeWith_eq (by omega) le_rfl]

/-! ### Reading back -/

theorem hexLength_ne_nil (n : ℕ) : hexLength n ≠ [] := by
  unfold hexLength
  split_ifs with h
  · exact List.cons_ne_nil _ _
  · simpa [Nat.digits_eq_nil_iff_eq_zero] using h

/-- A length and the end of its line. -/
theorem readLine_hexLength (n : ℕ) (rest : List UInt8) :
    readLine (hexLength n ++ (crlf ++ rest)) = some (n, rest) := by
  have hread : readHex 0 (hexLength n ++ (crlf ++ rest)) = (n, crlf ++ rest) :=
    readHex_hexLength n rfl
  have hpos := List.length_pos_iff.mpr (hexLength_ne_nil n)
  rw [readLine, hread, if_neg]
  · rw [stripFront_append, Option.map_some]
  · simp only [List.length_append]
    omega

/-- **A chunk is read back**, and the rest is read as before. -/
theorem decode_encode {chunk : List UInt8} (h : chunk ≠ []) (l : List UInt8) :
    decode (encode chunk ++ l) = (decode l).map (chunk ++ ·) := by
  have hlen : chunk.length ≠ 0 := mt List.length_eq_zero_iff.mp h
  rw [decode_eq, encode, List.append_assoc, List.append_assoc, readLine_hexLength,
    Option.bind_some]
  simp only [if_neg hlen, List.append_assoc, List.drop_left, List.take_left, stripFront_append,
    Option.bind_some]

theorem decode_last (l : List UInt8) : decode (last ++ l) = some [] := by
  have hline : readLine (last ++ l) = some (0, crlf ++ l) := readLine_hexLength 0 (crlf ++ l)
  rw [decode_eq, hline, Option.bind_some]
  simp

/-! ### What follows -/

theorem readHex_append {value n : ℕ} {b : UInt8} {l rest : List UInt8}
    (h : readHex value l = (n, b :: rest)) (m : List UInt8) :
    readHex value (l ++ m) = (n, b :: (rest ++ m)) := by
  induction l generalizing value with
  | nil => exact absurd (congrArg Prod.snd h) (by simp [readHex])
  | cons a l ih =>
    rw [List.cons_append, readHex]
    rw [readHex] at h
    cases ha : hexValue a with
    | some d =>
      rw [ha] at h
      exact ih h
    | none =>
      rw [ha] at h
      obtain ⟨rfl, hl⟩ := Prod.mk.inj h
      obtain ⟨rfl, rfl⟩ := List.cons.inj hl
      rfl

theorem readLine_append {l rest : List UInt8} {n : ℕ} (h : readLine l = some (n, rest))
    (m : List UInt8) : readLine (l ++ m) = some (n, rest ++ m) := by
  unfold readLine at h
  split_ifs at h with hne
  obtain ⟨r, hr, hpair⟩ := Option.map_eq_some_iff.mp h
  obtain ⟨hn, rfl⟩ := Prod.mk.inj hpair
  have hread : readHex 0 l = (n, 0x0d :: 0x0a :: r) :=
    Prod.ext hn (stripFront_eq_some.mp hr)
  have hmore := readHex_append hread m
  rw [hread] at hne
  rw [readLine, hmore, if_neg]
  · exact congrArg (Option.map _) (stripFront_append crlf (r ++ m))
  · simp only [List.length_cons, List.length_append] at hne ⊢
    omega

/-- **What follows a complete body is not looked at.** -/
theorem decode_append {l body : List UInt8} (h : decode l = some body) (m : List UInt8) :
    decode (l ++ m) = some body := by
  induction hk : l.length using Nat.strong_induction_on generalizing l body with
  | _ k ih =>
    rw [decode_eq] at h
    obtain ⟨⟨n, rest⟩, hline, h⟩ := Option.bind_eq_some_iff.mp h
    have hlt := length_of_readLine hline
    rw [decode_eq, readLine_append hline, Option.bind_some]
    simp only at h ⊢
    split_ifs at h ⊢ with hzero
    · obtain ⟨r, hr, rfl⟩ := Option.map_eq_some_iff.mp h
      rw [stripFront_eq_some.mp hr, List.append_assoc, stripFront_append, Option.map_some]
    · obtain ⟨r, hr, h⟩ := Option.bind_eq_some_iff.mp h
      obtain ⟨b, hb, rfl⟩ := Option.map_eq_some_iff.mp h
      have hdrop := stripFront_eq_some.mp hr
      have hlen := congrArg List.length hdrop
      have hcrlf : crlf.length = 2 := rfl
      rw [List.length_drop, List.length_append] at hlen
      rw [List.drop_append_of_le_length (by omega), hdrop, List.append_assoc, stripFront_append,
        Option.bind_some, List.take_append_of_le_length (by omega),
        ih r.length (by omega) hb rfl, Option.map_some]

/-! ### Chunks that were cut short -/

theorem foldl_pos {ds : List ℕ} {v : ℕ} (hv : 0 < v) : 0 < ds.foldl (fun v d => 16 * v + d) v := by
  induction ds generalizing v with
  | nil => exact hv
  | cons d ds ih =>
    have hnext : 0 < 16 * v + d := by omega
    exact ih hnext

/-- The front of a length is a length, and not 0. -/
theorem exists_take_hexLength {n : ℕ} (hn : n ≠ 0) {k : ℕ} (hk : 0 < k) :
    ∃ v, 0 < v ∧ ∀ rest, readHex 0 ((hexLength n).take k ++ rest) = readHex v rest := by
  let ds := (Nat.digits 16 n).reverse
  have hds : ∀ d ∈ ds.take k, d < 16 := fun d hd =>
    Nat.digits_lt_base (by decide) (List.mem_reverse.mp (List.mem_of_mem_take hd))
  refine ⟨(ds.take k).foldl (fun v d => 16 * v + d) 0, ?_, fun rest => ?_⟩
  · have hne : Nat.digits 16 n ≠ [] := Nat.digits_ne_nil_iff_ne_zero.mpr hn
    have hhead := Nat.getLast_digit_ne_zero 16 hn
    obtain ⟨j, rfl⟩ := Nat.exists_eq_succ_of_ne_zero (Nat.ne_of_gt hk)
    obtain ⟨d, l, hl⟩ := List.exists_cons_of_ne_nil (List.reverse_ne_nil_iff.mpr hne)
    -- the first digit is the last of the value's, which is not 0
    have hd : d = (Nat.digits 16 n).getLast hne := by
      have := List.head_reverse (List.reverse_ne_nil_iff.mpr hne)
      rw [← this]
      simp [hl]
    show 0 < ((Nat.digits 16 n).reverse.take (j + 1)).foldl (fun v d => 16 * v + d) 0
    rw [hl, List.take_succ_cons, List.foldl_cons]
    exact foldl_pos (by rw [hd]; omega)
  · rw [hexLength, if_neg hn, ← List.map_take, readHex_map _ hds]

/-- A length that was cut short, and the end of the body. -/
theorem decode_torn_length {n : ℕ} (hn : n ≠ 0) {k : ℕ} (hk : 0 < k) :
    decode ((hexLength n).take k ++ last) = none := by
  obtain ⟨v, hv, hread⟩ := exists_take_hexLength hn hk
  -- the end of the body is read as one more digit
  have hlast : readHex 0 ((hexLength n).take k ++ last) = (16 * v, crlf ++ crlf) := by
    rw [hread]
    rfl
  rw [decode_eq, readLine, hlast]
  split_ifs
  · rfl
  · have hdrop : crlf.drop (16 * v) = [] := List.drop_eq_nil_of_le (by
      have hcrlf : crlf.length = 2 := rfl
      omega)
    rw [stripFront_append, Option.map_some, Option.bind_some, if_neg (by omega), hdrop]
    rfl

/-- A chunk that was cut short in its bytes, and the end of the body. -/
theorem decode_torn_bytes {chunk : List UInt8} (hc : chunk ≠ []) {j : ℕ}
    (hj : j < chunk.length + 2) :
    decode (hexLength chunk.length ++ (crlf ++ ((chunk ++ crlf).take j ++ last))) = none := by
  have hlen : chunk.length ≠ 0 := mt List.length_eq_zero_iff.mp hc
  rw [decode_eq, readLine_hexLength, Option.bind_some, if_neg hlen]
  simp only
  by_cases hle : j ≤ chunk.length
  · -- the end of the body is read as the bytes that are missing
    have htake : (chunk ++ crlf).take j = chunk.take j := List.take_append_of_le_length hle
    have hdrop : ((chunk ++ crlf).take j ++ last).drop chunk.length
        = last.drop (chunk.length - j) := by
      rw [htake, List.drop_append, List.length_take, Nat.min_eq_left hle,
        List.drop_eq_nil_of_le (by rw [List.length_take]; omega), List.nil_append]
    rw [hdrop]
    generalize chunk.length - j = m
    match m with
    | 0 => rfl
    | 1 => rfl
    | 2 => rfl
    | 3 => rfl
    | 4 => rfl
    | m + 5 =>
      have hnil : last.drop (m + 5) = [] := List.drop_eq_nil_of_le (Nat.le_add_left 5 m)
      rw [hnil]
      rfl
  · obtain rfl : j = chunk.length + 1 := by omega
    have htake : (chunk ++ crlf).take (chunk.length + 1) = chunk ++ [0x0d] := by
      rw [List.take_append, List.take_of_length_le (Nat.le_succ _)]
      simp [crlf]
    rw [htake, List.append_assoc, List.drop_left]
    rfl

/-- **A chunk that was cut short is never read as the end**, though the end of the body
follows. -/
theorem decode_torn {chunk : List UInt8} (hc : chunk ≠ []) {k : ℕ} (hk : 0 < k)
    (hlt : k < (encode chunk).length) : decode ((encode chunk).take k ++ last) = none := by
  have hlen : chunk.length ≠ 0 := mt List.length_eq_zero_iff.mp hc
  by_cases hline : k ≤ (hexLength chunk.length).length
  · rw [encode, List.take_append_of_le_length hline]
    exact decode_torn_length hlen hk
  · rw [Nat.not_le] at hline
    obtain ⟨j, rfl⟩ := Nat.exists_eq_add_of_lt hline
    rw [encode, List.length_append, List.length_append, List.length_append] at hlt
    have hcrlf : crlf.length = 2 := rfl
    cases j with
    -- the line ends with one byte
    | zero =>
      have htake : (encode chunk).take ((hexLength chunk.length).length + 0 + 1)
          = hexLength chunk.length ++ [0x0d] := by
        rw [encode, Nat.add_zero, List.take_append, List.take_of_length_le (Nat.le_succ _)]
        simp [crlf]
      have hread : readHex 0 (hexLength chunk.length ++ ([0x0d] ++ last))
          = (chunk.length, [0x0d] ++ last) := readHex_hexLength _ rfl
      rw [htake, List.append_assoc, decode_eq, readLine, hread]
      split_ifs <;> rfl
    | succ j =>
      have htake : (encode chunk).take ((hexLength chunk.length).length + (j + 1) + 1)
          = hexLength chunk.length ++ (crlf ++ (chunk ++ crlf).take j) := by
        rw [encode, List.take_append, List.take_of_length_le (by omega), Nat.add_assoc,
          Nat.add_sub_cancel_left, List.take_append, List.take_of_length_le (by omega), hcrlf]
        rfl
      rw [htake, List.append_assoc, List.append_assoc]
      exact decode_torn_bytes hc (by omega)

/-- Nor is it if the end of the body is cut short as well. -/
theorem decode_torn_prefix {chunk : List UInt8} (hc : chunk ≠ []) {k : ℕ} (hk : 0 < k)
    (hlt : k < (encode chunk).length) {tail : List UInt8} (htail : tail <+: last) :
    decode ((encode chunk).take k ++ tail) = none := by
  obtain ⟨more, hmore⟩ := htail
  rw [Option.eq_none_iff_forall_ne_some]
  intro body hbody
  have hall := decode_append hbody more
  rw [List.append_assoc, hmore, decode_torn hc hk hlt] at hall
  exact absurd hall (by simp)

/-- An end that was cut short is no end. -/
theorem decode_take_last {k : ℕ} (hk : k < last.length) : decode (last.take k) = none := by
  have hlast : last.length = 5 := rfl
  rw [hlast] at hk
  match k, hk with
  | 0, _ => rfl
  | 1, _ => rfl
  | 2, _ => rfl
  | 3, _ => rfl
  | 4, _ => rfl

end Chunked
