import WifiRepeater.Json.Literal

/-!
# The strings of a JSON text

`parse_string` goes over a string twice.  The first loop looks for the quote that ends it
and counts the escapes, so that the output can be allocated; the second one copies, and
resolves the escapes.  The two do not step alike: the first takes two bytes for every
escape, the second takes the six of a `\u` escape at once, whatever the four behind the `u`
are.  Where one of these is a backslash the loops come out of step, and the second may take
the last quote for an escaped one and end behind it.  The allocation is large enough all the
same: every byte of output is paid for by a byte of the text that is no counted backslash.

## Main definitions

* `findEnd`, `unescape`, `parseString` — the function, access by access.
* `scan`, `decode`, `readString` — what the loops compute.
* `Piece`, `Body` — the pieces of a string that is written as it should be.

## Main results

* `parseString_eq` — **no string, however it is written, is read or decoded outside its
  memory.**
* `readString_body` — **a string of pieces is read as what the pieces say.**
-/

namespace WifiRepeater
namespace Json

variable {m : ℕ}

/-! ### `parse_string` -/

/-- The first loop of `parse_string`: `input_end` and `skipped_bytes`, and `none` when the
string does not end. -/
def findEnd (mem : List UInt8) : ℕ → ℕ → ℕ → Checked (Option (ℕ × ℕ))
  | 0, _, _ => .error .endless
  | fuel + 1, inputEnd, skipped =>
      if inputEnd < mem.length then do
        let b ← readAt mem inputEnd
        if b = 0x22 then pure (some (inputEnd, skipped))
        else if b = 0x5c then
          if mem.length ≤ inputEnd + 1 then pure none
          else findEnd mem fuel (inputEnd + 2) (skipped + 1)
        else findEnd mem fuel (inputEnd + 1) skipped
      else pure none

/-- What the letter behind a backslash stands for, except `u`. -/
def shortEscape (c : UInt8) : Option UInt8 :=
  if c = 0x62 then some 0x08
  else if c = 0x66 then some 0x0c
  else if c = 0x6e then some 0x0a
  else if c = 0x72 then some 0x0d
  else if c = 0x74 then some 0x09
  else if c = 0x22 ∨ c = 0x5c ∨ c = 0x2f then some c
  else none

/-- The second loop of `parse_string`. -/
def unescape (mem : List UInt8) (inputEnd : ℕ) : ℕ → ℕ → Output m → Checked (Option (Output m))
  | 0, _, _ => .error .endless
  | fuel + 1, input, out =>
      if input < inputEnd then do
        let b ← readAt mem input
        if b ≠ 0x5c then unescape mem inputEnd fuel (input + 1) (← out.push b)
        else
          let c ← readAt mem (input + 1)
          if c = 0x75 then
            let r ← utf16LiteralToUtf8 mem input inputEnd out
            if r.1 = 0 then pure none else unescape mem inputEnd fuel (input + r.1) r.2
          else
            match shortEscape c with
            | none => pure none
            | some v => unescape mem inputEnd fuel (input + 2) (← out.push v)
      else pure (some out)

variable (fresh : (n : ℕ) → Buf n)

/-- `parse_string` at `offset`, where `fresh n` is what an allocation of `n` bytes holds: the
string and the offset behind it. -/
def parseString (mem : List UInt8) (offset : ℕ) : Checked (Option (CStr × ℕ)) := do
  if (← readAt mem offset) ≠ 0x22 then pure none
  else
    match ← findEnd mem (mem.length + 1) (offset + 1) 0 with
    | none => pure none
    | some (inputEnd, skipped) =>
        let allocationLength := inputEnd - offset - skipped
        match ← unescape mem inputEnd (mem.length + 1) (offset + 1)
            ⟨0, fresh (allocationLength + 1)⟩ with
        | none => pure none
        | some out => do
            let output ← writeAt out.mem out.pos 0
            pure (some (output.str, inputEnd + 1))

/-! ### The two loops -/

/-- What the first loop finds: the number of bytes before the quote, and of the escapes. -/
def scan : List UInt8 → Option (ℕ × ℕ)
  | [] => none
  | b :: l =>
      if b = 0x22 then some (0, 0)
      else if b = 0x5c then
        match l with
        | [] => none
        | _ :: l => (scan l).map fun r => (r.1 + 2, r.2 + 1)
      else (scan l).map fun r => (r.1 + 1, r.2)

/-- What the second loop writes, with `n` bytes to go. -/
def decode (n : ℕ) (l : List UInt8) : Option (List UInt8) :=
  if n = 0 then some []
  else
    match l with
    | [] => none
    | b :: rest =>
        if b ≠ 0x5c then (decode (n - 1) rest).map (b :: ·)
        else if rest.head? = some 0x75 then
          match _h : readLiteral n l with
          | none => none
          | some (c, k) => (decode (n - k) (l.drop k)).map (String.utf8EncodeChar c ++ ·)
        else
          match rest with
          | [] => none
          | c :: rest =>
              match shortEscape c with
              | none => none
              | some v => (decode (n - 2) rest).map (v :: ·)
termination_by n
decreasing_by
  · omega
  · have := readLiteral_some _h
    omega
  · omega

/-- A string at the front of a text, and its length there. -/
def readString : List UInt8 → Option (CStr × ℕ)
  | [] => none
  | b :: l =>
      if b ≠ 0x22 then none
      else
        match scan l with
        | none => none
        | some (n, _) => (decode n l).map fun w => (.ofMem w, n + 2)

theorem scan_cons (b : UInt8) (l : List UInt8) :
    scan (b :: l) = if b = 0x22 then some (0, 0)
      else if b = 0x5c then
        match l with
        | [] => none
        | _ :: l => (scan l).map fun r => (r.1 + 2, r.2 + 1)
      else (scan l).map fun r => (r.1 + 1, r.2) := by
  rw [scan.eq_def]

theorem findEnd_eq {mem : List UInt8} : ∀ (fuel e k : ℕ), mem.length - e < fuel →
    findEnd mem fuel e k = .ok ((scan (mem.drop e)).map fun r => (e + r.1, k + r.2)) := by
  intro fuel
  induction fuel with
  | zero => intro e k h; omega
  | succ fuel ih =>
    intro e k hfuel
    rw [findEnd]
    by_cases he : e < mem.length
    case neg =>
      rw [if_neg he, List.drop_eq_nil_of_le (by omega)]
      rfl
    rw [if_pos he, readAt_eq he, List.drop_eq_getElem_cons he, scan_cons,
      Checked.ok_bind]
    generalize mem[e] = b
    by_cases hquote : b = 0x22
    · rw [if_pos hquote, if_pos hquote]
      rfl
    rw [if_neg hquote, if_neg hquote]
    by_cases hesc : b = 0x5c
    case neg =>
      rw [if_neg hesc, if_neg hesc, ih _ _ (by omega), Option.map_map]
      refine congrArg Except.ok (congrArg₂ Option.map (funext fun r => ?_) rfl)
      exact Prod.ext (by simp only [Function.comp_apply]; omega) rfl
    rw [if_pos hesc, if_pos hesc]
    by_cases hlast : mem.length ≤ e + 1
    · rw [if_pos hlast, List.drop_eq_nil_of_le hlast]
      rfl
    rw [if_neg hlast, ih _ _ (by omega),
      List.drop_eq_getElem_cons (Nat.lt_of_not_le hlast), Option.map_map]
    refine congrArg Except.ok (congrArg₂ Option.map (funext fun r => ?_) rfl)
    exact Prod.ext (by simp only [Function.comp_apply]; omega)
      (by simp only [Function.comp_apply]; omega)

/-! ### The escapes and the room they leave -/

/-- The escapes among bytes, as the first loop counts them; `escaped` tells whether a
backslash stands before them. -/
def skips : Bool → List UInt8 → ℕ
  | _, [] => 0
  | true, _ :: l => skips false l
  | false, b :: l => if b = 0x5c then skips true l + 1 else skips false l

/-- Of two bytes at most one is the backslash of an escape. -/
theorem two_mul_skips_le (l : List UInt8) :
    2 * skips false l ≤ l.length + 1 ∧ 2 * skips true l ≤ l.length := by
  induction l with
  | nil => simp [skips]
  | cons b l ih =>
    simp only [skips, List.length_cons]
    split_ifs <;> omega

theorem skips_append_le (e : Bool) (l r : List UInt8) :
    2 * skips e (l ++ r) ≤ 2 * skips e l + r.length + 1 := by
  induction l generalizing e with
  | nil =>
    have := two_mul_skips_le r
    cases e <;> simp only [List.nil_append, skips] <;> omega
  | cons b l ih =>
    have hf := ih false
    have ht := ih true
    cases e <;> simp only [List.cons_append, skips]
    · split_ifs <;> omega
    · omega

theorem le_skips_append (e : Bool) (l r : List UInt8) : skips e l ≤ skips e (l ++ r) := by
  induction l generalizing e with
  | nil => simp [skips]
  | cons b l ih =>
    have hf := ih false
    have ht := ih true
    cases e <;> simp only [List.cons_append, skips]
    · split_ifs <;> omega
    · omega

/-- A byte that is no backslash begins no escape. -/
theorem skips_concat {b : UInt8} (hb : b ≠ 0x5c) (e : Bool) (l : List UInt8) :
    skips e (l ++ [b]) = skips e l := by
  induction l generalizing e with
  | nil => cases e <;> simp [skips, hb]
  | cons a l ih =>
    cases e <;> simp only [List.cons_append, skips, ih]

/-- What the first loop finds in the text behind the first quote. -/
theorem scan_spec (l : List UInt8) {n k : ℕ} (h : scan l = some (n, k)) :
    l[n]? = some 0x22 ∧ k = skips false (l.take n) := by
  fun_induction scan l generalizing n k with
  | case1 => cases h
  | case2 l =>
    obtain ⟨rfl, rfl⟩ := Prod.mk.inj (Option.some.inj h)
    exact ⟨rfl, rfl⟩
  | case3 => cases h
  | case4 c l hq ih =>
    obtain ⟨⟨n, k⟩, hscan, hr⟩ := Option.map_eq_some_iff.mp h
    obtain ⟨rfl, rfl⟩ := Prod.mk.inj hr
    obtain ⟨hquote, hk⟩ := ih hscan
    exact ⟨hquote, by simp [skips, hk]⟩
  | case5 b l hq hesc ih =>
    obtain ⟨⟨n, k⟩, hscan, hr⟩ := Option.map_eq_some_iff.mp h
    obtain ⟨rfl, rfl⟩ := Prod.mk.inj hr
    obtain ⟨hquote, hk⟩ := ih hscan
    exact ⟨hquote, by simp [skips, hesc, hk]⟩

theorem decode_zero (l : List UInt8) : decode 0 l = some [] := by
  rw [decode.eq_def, if_pos rfl]

/-- A plain byte. -/
theorem decode_plain {n : ℕ} {b : UInt8} (hb : b ≠ 0x5c) (l : List UInt8) :
    decode (n + 1) (b :: l) = (decode n l).map (b :: ·) := by
  rw [decode.eq_def]
  simp only [if_neg (Nat.succ_ne_zero n), if_pos hb, Nat.add_sub_cancel]

/-- A `\u` escape. -/
theorem decode_literal {n : ℕ} (l : List UInt8) :
    decode (n + 1) (0x5c :: 0x75 :: l) =
      match readLiteral (n + 1) (0x5c :: 0x75 :: l) with
      | none => none
      | some (c, k) =>
          (decode (n + 1 - k) ((0x5c :: 0x75 :: l).drop k)).map (String.utf8EncodeChar c ++ ·) := by
  rw [decode.eq_def]
  simp only [if_neg (Nat.succ_ne_zero n), ne_eq, not_true_eq_false, if_false, List.head?_cons,
    if_true]
  rcases readLiteral (n + 1) (0x5c :: 0x75 :: l) with _ | ⟨c, k⟩ <;> rfl

/-- Another escape. -/
theorem decode_short {n : ℕ} {c : UInt8} (hc : c ≠ 0x75) (l : List UInt8) :
    decode (n + 1) (0x5c :: c :: l) =
      match shortEscape c with
      | none => none
      | some v => (decode (n - 1) l).map (v :: ·) := by
  rw [decode.eq_def]
  have hne : ¬(c :: l).head? = some 0x75 := by simpa using hc
  simp only [if_neg (Nat.succ_ne_zero n), ne_eq, not_true_eq_false, if_false]
  rw [if_neg hne]
  rfl

section Decoding

variable {mem : List UInt8} {start len : ℕ}

/-- The backslashes counted before the position `p` of the string. -/
def skipsAt (mem : List UInt8) (start p : ℕ) : ℕ := skips false ((mem.drop start).take p)

theorem skipsAt_add_le (mem : List UInt8) (start p j : ℕ) :
    2 * skipsAt mem start (p + j) ≤ 2 * skipsAt mem start p + j + 1 := by
  have happ := skips_append_le false ((mem.drop start).take p) (((mem.drop start).drop p).take j)
  rw [← List.take_add] at happ
  have hle := List.length_take_le j ((mem.drop start).drop p)
  unfold skipsAt
  omega

/-- Between two turns of the second loop, at the position `p` with the output `w`: every
byte of output is paid for, so that there is room for one more and for the terminator. -/
theorem room (mem : List UInt8) (start len : ℕ) {p w : ℕ}
    (hpaid : w + skipsAt mem start p ≤ p) (hp : p ≤ len + 1) :
    w < len + 2 - skipsAt mem start len := by
  rcases Nat.lt_or_ge len p with hlt | hle
  · obtain rfl : p = len + 1 := by omega
    have hmono : skipsAt mem start len ≤ skipsAt mem start (len + 1) := by
      unfold skipsAt
      rw [List.take_add]
      exact le_skips_append _ _ _
    omega
  · have hadd := skipsAt_add_le mem start p (len - p)
    rw [Nat.add_sub_cancel' hle] at hadd
    omega

/-- The second loop, from a position where every byte of output is paid for. -/
theorem unescape_eq (hend : start + len < mem.length)
    (hm : m = len + 2 - skipsAt mem start len) : ∀ (fuel p : ℕ) (w : List UInt8)
    (out : Output m), out.Holds w → w.length + skipsAt mem start p ≤ p → p ≤ len + 1 →
      len + 1 - p < fuel →
        match decode (len - p) (mem.drop (start + p)) with
        | none => unescape mem (start + len) fuel (start + p) out = .ok none
        | some v => ∃ out', unescape mem (start + len) fuel (start + p) out = .ok (some out') ∧
            out'.Holds (w ++ v) ∧ (w ++ v).length < m := by
  subst hm
  intro fuel
  induction fuel with
  | zero => intro p w out _ _ _ h; omega
  | succ fuel ih =>
    intro p w out hw hpaid hp hfuel
    have hroom := room mem start len hpaid hp
    rw [unescape]
    by_cases hlt : p < len
    case neg =>
      rw [if_neg (by omega), Nat.sub_eq_zero_of_le (by omega), decode_zero]
      exact ⟨out, rfl, by rwa [List.append_nil], by rwa [List.append_nil]⟩
    -- what follows a turn that has written `x` and is at `p + j`
    have hnext : ∀ (j : ℕ) (x : List UInt8) (out' : Output (len + 2 - skipsAt mem start len)),
        out'.Holds (w ++ x) → 0 < j → p + j ≤ len + 1 → x.length + skipsAt mem start (p + j)
          ≤ skipsAt mem start p + j →
        match (decode (len - (p + j)) (mem.drop (start + (p + j)))).map (x ++ ·) with
        | none => unescape mem (start + len) fuel (start + (p + j)) out' = .ok none
        | some v =>
            ∃ out'', unescape mem (start + len) fuel (start + (p + j)) out' = .ok (some out'') ∧
              out''.Holds (w ++ v) ∧ (w ++ v).length < len + 2 - skipsAt mem start len := by
      intro j x out' hx hj hpj hpay
      have hrest := ih (p + j) (w ++ x) out' hx (by rw [List.length_append]; omega) hpj (by omega)
      generalize decode (len - (p + j)) (mem.drop (start + (p + j))) = r at hrest ⊢
      cases r with
      | none => exact hrest
      | some v => simpa only [Option.map_some, List.append_assoc] using hrest
    obtain ⟨n, hn⟩ : ∃ n, len - p = n + 1 := ⟨len - p - 1, by omega⟩
    rw [if_pos (by omega), readAt_eq (by omega), Checked.ok_bind, hn,
      List.drop_eq_getElem_cons (i := start + p) (by omega)]
    by_cases hplain : mem[start + p] ≠ 0x5c
    · obtain ⟨out', hpush, hout'⟩ := hw.push (mem[start + p]) hroom
      have hskip : skipsAt mem start (p + 1) = skipsAt mem start p := by
        unfold skipsAt
        rw [List.take_succ_eq_append_getElem (by rw [List.length_drop]; omega), List.getElem_drop,
          skips_concat hplain]
      rw [if_pos hplain, hpush, Checked.ok_bind, decode_plain hplain]
      have := hnext 1 [_] out' hout' Nat.one_pos (by omega) (by simp; omega)
      rwa [show len - (p + 1) = n by omega] at this
    rw [if_neg hplain, readAt_eq (by omega), Checked.ok_bind, not_not.mp hplain,
      List.drop_eq_getElem_cons (i := start + p + 1) (by omega)]
    have htwo := skipsAt_add_le mem start p 2
    by_cases hu : mem[start + p + 1] = 0x75
    · have htext : mem.drop (start + p) = 0x5c :: 0x75 :: mem.drop (start + p + 1 + 1) := by
        rw [List.drop_eq_getElem_cons (by omega), List.drop_eq_getElem_cons (by omega),
          not_not.mp hplain, hu]
      have hfits : start + p + (n + 1) ≤ mem.length := by omega
      have hliteral := utf16LiteralToUtf8_eq hw hfits (by
        intro c k hread
        obtain ⟨hk, hle, henc⟩ := readLiteral_some hread
        have hadd := skipsAt_add_le mem start p k
        have hpaid' : w.length + (String.utf8EncodeChar c).length + skipsAt mem start (p + k)
          ≤ p + k := by omega
        exact (room mem start len hpaid' (by omega)).le)
      rw [if_pos hu, hu, decode_literal, ← htext]
      rw [show start + p + (n + 1) = start + len by omega] at hliteral
      rcases hread : readLiteral (n + 1) (mem.drop (start + p)) with _ | ⟨c, k⟩
      · rw [hread] at hliteral
        simp only at hliteral ⊢
        rw [hliteral]
        rfl
      · obtain ⟨hk, hle, henc⟩ := readLiteral_some hread
        have hadd := skipsAt_add_le mem start p k
        rw [hread] at hliteral
        obtain ⟨out', hrun, hout'⟩ := hliteral
        have := hnext k (String.utf8EncodeChar c) out' hout' (by omega) (by omega) (by omega)
        simp only [hrun, Checked.ok_bind, List.drop_drop]
        rw [if_neg (by omega)]
        rwa [show len - (p + k) = n + 1 - k by omega, ← Nat.add_assoc] at this
    · rw [if_neg hu, decode_short hu]
      rcases shortEscape (mem[start + p + 1]) with _ | v
      · rfl
      · obtain ⟨out', hpush, hout'⟩ := hw.push v hroom
        have := hnext 2 [v] out' hout' (by omega) (by omega) (by simp; omega)
        simp only [hpush, Checked.ok_bind]
        rwa [show len - (p + 2) = n - 1 by omega] at this

end Decoding

/-- A terminator ends a string, whatever follows. -/
theorem ofMem_zero (w r : List UInt8) : CStr.ofMem (w ++ 0 :: r) = .ofMem w := by
  apply CStr.ext
  rw [CStr.bytes_ofMem, CStr.bytes_ofMem]
  induction w with
  | nil => rfl
  | cons b w ih => rw [List.cons_append, List.takeWhile_cons, List.takeWhile_cons, ih]

theorem Output.Holds.terminate {out : Output m} {w : List UInt8} (h : out.Holds w)
    (hroom : w.length < m) :
    ∃ output, writeAt out.mem out.pos 0 = .ok output ∧ output.str = .ofMem w := by
  obtain ⟨out', hpush, -, r, hr⟩ := h.push 0 hroom
  rw [Output.push] at hpush
  rcases hwrite : writeAt out.mem out.pos 0 with f | output
  · rw [hwrite] at hpush
    cases hpush
  · rw [hwrite] at hpush
    obtain rfl := Except.ok.inj hpush
    refine ⟨output, rfl, ?_⟩
    rw [Buf.str, ← hr, List.append_assoc, List.singleton_append, ofMem_zero]

/-- **Strings are parsed within their memory.**  Wherever in the memory a string is looked
for, and whatever its bytes are, nothing outside the text is read and nothing outside the
allocation written; what is found is what the loops say. -/
theorem parseString_eq {mem : List UInt8} {offset : ℕ} (h : offset < mem.length) :
    parseString fresh mem offset
      = .ok ((readString (mem.drop offset)).map fun r => (r.1, offset + r.2)) := by
  rw [parseString, readAt_eq h, List.drop_eq_getElem_cons h, readString, Checked.ok_bind]
  by_cases hquote : mem[offset] ≠ 0x22
  · rw [if_pos hquote, if_pos hquote]
    rfl
  rw [if_neg hquote, if_neg hquote, findEnd_eq _ _ _ (by omega), Checked.ok_bind]
  rcases hscan : scan (mem.drop (offset + 1)) with _ | ⟨n, k⟩
  · rfl
  obtain ⟨hend, hk⟩ := scan_spec _ hscan
  have hlt : offset + 1 + n < mem.length := by
    rw [List.getElem?_drop] at hend
    exact (List.getElem?_eq_some_iff.mp hend).1
  have hroom := room mem (offset + 1) n (p := 0) (w := 0) (by simp [skipsAt, skips]) (by omega)
  rw [show skipsAt mem (offset + 1) n = k from hk.symm] at hroom
  simp only [Option.map_some, Nat.zero_add]
  have hdecode := unescape_eq hlt (m := offset + 1 + n - offset - k + 1)
    (by rw [show skipsAt mem (offset + 1) n = k from hk.symm]; omega) (mem.length + 1) 0 []
    ⟨0, fresh _⟩ ⟨rfl, List.nil_prefix⟩ (by simp [skipsAt, skips]) (by omega) (by omega)
  rw [Nat.sub_zero, Nat.add_zero] at hdecode
  rcases hw : decode n (mem.drop (offset + 1)) with _ | w
  all_goals rw [hw] at hdecode
  · simp only at hdecode
    rw [hdecode]
    rfl
  · obtain ⟨out, hrun, hout, hlen⟩ := hdecode
    obtain ⟨output, hwrite, hstr⟩ := hout.terminate hlen
    rw [List.nil_append] at hstr
    simp only [hrun, hwrite, Checked.ok_bind, hstr]
    rw [Option.map_some, Option.map_some, show offset + 1 + n + 1 = offset + (n + 2) by omega]
    rfl

/-- A string is found within the text. -/
theorem readString_le {l : List UInt8} {s : CStr} {k : ℕ} (h : readString l = some (s, k)) :
    2 ≤ k ∧ k ≤ l.length := by
  cases l with
  | nil => cases h
  | cons b l =>
    rw [readString] at h
    by_cases hquote : b ≠ 0x22
    · rw [if_pos hquote] at h
      cases h
    rw [if_neg hquote] at h
    rcases hscan : scan l with _ | ⟨n, j⟩
    · rw [hscan] at h
      cases h
    rw [hscan] at h
    obtain ⟨w, -, hw⟩ := Option.map_eq_some_iff.mp h
    obtain ⟨-, rfl⟩ := Prod.mk.inj hw
    have hlt := (List.getElem?_eq_some_iff.mp (scan_spec l hscan).1).1
    rw [List.length_cons]
    omega

/-! ### Strings that are written as they should be -/

/-- A piece of a string, and the bytes it stands for. -/
inductive Piece : List UInt8 → List UInt8 → Prop
  /-- A byte that stands for itself. -/
  | plain {b : UInt8} (hquote : b ≠ 0x22) (hesc : b ≠ 0x5c) : Piece [b] [b]
  /-- A backslash and a letter. -/
  | short {c v : UInt8} (h : shortEscape c = some v) : Piece [0x5c, c] [v]
  /-- The escapes of the code units of a character. -/
  | units {c : Char} {l : List UInt8} (h : Spells (Js.units c) l) :
      Piece l (String.utf8EncodeChar c)

/-- What stands between the quotes, and the bytes it stands for. -/
inductive Body : List UInt8 → List UInt8 → Prop
  /-- Nothing. -/
  | nil : Body [] []
  /-- One more piece. -/
  | cons {t v ts vs : List UInt8} (hpiece : Piece t v) (hbody : Body ts vs) :
      Body (t ++ ts) (v ++ vs)

/-- The first loop passes over bytes that are neither quotes nor backslashes. -/
theorem scan_plain {l : List UInt8} (h : ∀ b ∈ l, b ≠ 0x22 ∧ b ≠ 0x5c) (r : List UInt8) :
    scan (l ++ r) = (scan r).map fun q => (l.length + q.1, q.2) := by
  induction l with
  | nil => simp
  | cons b l ih =>
    obtain ⟨hquote, hesc⟩ := h b (by simp)
    rw [List.cons_append, scan_cons, if_neg hquote, if_neg hesc, ih fun a ha => h a (by simp [ha]),
      Option.map_map]
    refine congrArg₂ Option.map (funext fun q => Prod.ext ?_ rfl) rfl
    simp only [Function.comp_apply, List.length_cons]
    omega

theorem Hex4.plain {ds : List UInt8} {n : ℕ} (h : Hex4 ds n) : ∀ b ∈ ds, b ≠ 0x22 ∧ b ≠ 0x5c := by
  obtain ⟨a₀, a₁, a₂, a₃, hds, -⟩ := h
  intro b hb
  have hsome : hexDigit b ≠ none := by
    have hmem : hexDigit b ∈ ds.map hexDigit := List.mem_map_of_mem hb
    rw [hds] at hmem
    simp only [List.mem_cons, List.not_mem_nil, or_false] at hmem
    rcases hmem with h | h | h | h <;> simp [h]
  refine ⟨?_, ?_⟩ <;> rintro rfl <;> exact hsome (by decide)

/-- The first loop passes over the escapes of code units. -/
theorem scan_spells {us : List ℕ} {l : List UInt8} (h : Spells us l) (r : List UInt8) :
    ∃ k, scan (l ++ r) = (scan r).map fun q => (l.length + q.1, k + q.2) := by
  induction h with
  | nil => exact ⟨0, by simp⟩
  | @cons n us ds l hds _ ih =>
    obtain ⟨k, ih⟩ := ih
    refine ⟨k + 1, ?_⟩
    rw [List.cons_append, List.cons_append, List.append_assoc, List.cons_append, scan_cons,
      if_neg (by decide), if_pos rfl]
    simp only
    rw [scan_plain hds.plain, ih, Option.map_map, Option.map_map]
    refine congrArg₂ Option.map (funext fun q => Prod.ext ?_ ?_) rfl
    · simp only [Function.comp_apply, List.length_cons, List.length_append]
      omega
    · simp only [Function.comp_apply]
      omega

theorem scan_piece {t v : List UInt8} (h : Piece t v) (r : List UInt8) :
    ∃ k, scan (t ++ r) = (scan r).map fun q => (t.length + q.1, k + q.2) := by
  cases h with
  | plain hquote hesc =>
    exact ⟨0, by simpa using scan_plain (l := [_]) (by simpa using ⟨hquote, hesc⟩) r⟩
  | @short c v h =>
    refine ⟨1, ?_⟩
    rw [List.cons_append, scan_cons, if_neg (by decide), if_pos rfl]
    refine congrArg₂ Option.map (funext fun q => Prod.ext ?_ ?_) rfl
    · simp only [List.length_cons, List.length_nil]
      omega
    · simp only
      omega
  | units h => exact scan_spells h r

/-- The second loop resolves a piece. -/
theorem decode_piece {t v : List UInt8} (h : Piece t v) (n : ℕ) (r : List UInt8) :
    decode (t.length + n) (t ++ r) = (decode n r).map (v ++ ·) := by
  cases h with
  | plain hquote hesc =>
    rw [List.length_singleton, Nat.add_comm, List.singleton_append, decode_plain hesc]
    rfl
  | @short c v h =>
    have hc : c ≠ 0x75 := by
      rintro rfl
      cases h
    rw [show [0x5c, c].length + n = n + 1 + 1 by simp; omega]
    show decode (n + 1 + 1) (0x5c :: c :: r) = _
    rw [decode_short hc, h, Nat.add_sub_cancel]
    rfl
  | @units c _ h =>
    have hread := readLiteral_of_spells h (n := t.length + n) (Nat.le_add_right _ _) r
    obtain ⟨u, us, hus⟩ : ∃ u us, Js.units c = u :: us := by
      rw [Js.units, Js.codePoint]
      split_ifs <;> exact ⟨_, _, rfl⟩
    rw [hus] at h
    obtain ⟨ds, l', -, -, rfl⟩ := h.inv
    obtain ⟨k, hk⟩ : ∃ k, (0x5c :: 0x75 :: ds ++ l').length + n = k + 1 :=
      ⟨_, by rw [List.cons_append, List.length_cons]; exact Nat.add_right_comm _ 1 n⟩
    rw [hk] at hread ⊢
    show decode (k + 1) (0x5c :: 0x75 :: (ds ++ l' ++ r)) = _
    rw [decode_literal]
    simp only [List.cons_append] at hread ⊢
    rw [hread]
    simp only [List.append_assoc]
    have hleft : k + 1 - (0x5c :: 0x75 :: (ds ++ l')).length = n := by
      rw [← hk]
      exact Nat.add_sub_cancel_left ..
    have hdrop :
        (0x5c :: 0x75 :: (ds ++ (l' ++ r))).drop (0x5c :: 0x75 :: (ds ++ l')).length = r := by
      rw [← List.append_assoc]
      exact List.drop_left
    rw [hleft, hdrop]

/-- Both loops, over what stands between the quotes. -/
theorem decode_body {t v : List UInt8} (h : Body t v) (r : List UInt8) :
    decode t.length (t ++ r) = some v ∧
      ∃ k, scan (t ++ r) = (scan r).map fun q => (t.length + q.1, k + q.2) := by
  induction h with
  | nil => exact ⟨by rw [List.length_nil, decode_zero], 0, by simp⟩
  | cons hpiece _ ih =>
    obtain ⟨hdecode, k, hscan⟩ := ih
    obtain ⟨k', hscan'⟩ := scan_piece hpiece (_ ++ r)
    refine ⟨?_, k' + k, ?_⟩
    · rw [List.length_append, List.append_assoc, decode_piece hpiece, hdecode]
      rfl
    · rw [List.append_assoc, hscan', hscan, Option.map_map]
      refine congrArg₂ Option.map (funext fun q => Prod.ext ?_ ?_) rfl
      · simp only [Function.comp_apply, List.length_append]
        omega
      · simp only [Function.comp_apply]
        omega

/-- **A string of pieces is read as what the pieces say**, whatever follows it. -/
theorem readString_body {t v : List UInt8} (h : Body t v) (r : List UInt8) :
    readString (0x22 :: t ++ 0x22 :: r) = some (.ofMem v, t.length + 2) := by
  obtain ⟨hdecode, k, hscan⟩ := decode_body h (0x22 :: r)
  rw [List.cons_append, readString, if_neg (by decide), hscan, scan_cons, if_pos rfl]
  simp only [Option.map_some, Nat.add_zero, hdecode]

end Json
end WifiRepeater
