import Mathlib.Data.Nat.Digits.Defs
import WifiRepeater.Json.Parse

/-!
# The JSON printer

cJSON prints into a buffer that it lets grow: before every piece it asks for as much room as
the piece takes, which may move the buffer, and after a value it finds the end of the output
again with `strlen`.  For a string it counts the escapes first, and puts the last quote
where the count says, so that the count and the loop that copies have to agree.

What is printed is the text of the value, on one line and without white space.  The printer
gives up only when there is no memory or the text comes near `INT_MAX`.

## Main definitions

* `text D j` — the text of a value.
* `PrintBuffer`, `ensure`, `printStringPtr`, `printNumber`, `printValue` — the printer,
  access by access.
* `cJsonPrintUnformatted` — `cJSON_PrintUnformatted`.

## Main results

* `printValue_ends` — **no write of the printer is outside the buffer**, and what it leaves
  there is the text.
* `cJsonPrintUnformatted_spec` — **the string it returns is the text of the value.**
-/

namespace WifiRepeater
namespace Json

/-! ### The text of a value -/

/-- A hexadecimal digit, as `%x` writes it. -/
def hexChar (d : ℕ) : UInt8 := if d < 10 then UInt8.ofNat (0x30 + d) else UInt8.ofNat (0x57 + d)

/-- `%04x`. -/
def hex4 (n : ℕ) : List UInt8 :=
  [hexChar (n / 4096 % 16), hexChar (n / 256 % 16), hexChar (n / 16 % 16), hexChar (n % 16)]

/-- The letter of a short escape, as the `switch` of `print_string_ptr` has it. -/
def escapeLetter (b : UInt8) : Option UInt8 :=
  if b = 0x5c ∨ b = 0x22 then some b
  else if b = 0x08 then some 0x62
  else if b = 0x0c then some 0x66
  else if b = 0x0a then some 0x6e
  else if b = 0x0d then some 0x72
  else if b = 0x09 then some 0x74
  else none

/-- A byte of a string in the text. -/
def escapeByte (b : UInt8) : List UInt8 :=
  if 31 < b ∧ b ≠ 0x22 ∧ b ≠ 0x5c then [b]
  else
    match escapeLetter b with
    | some c => [0x5c, c]
    | none => 0x5c :: 0x75 :: hex4 b.toNat

/-- A string with its quotes. -/
def quoted (s : CStr) : List UInt8 := 0x22 :: s.bytes.flatMap escapeByte ++ [0x22]

/-- The text of a number: the integer it is equal to, or else what `%g` makes of it. -/
def numberText (D : Doubles) (q : ℚ) : List UInt8 :=
  if q = valueint q then decimal (valueint q) else (D.format q).bytes

mutual

/-- The text of a value. -/
def text (D : Doubles) : CJson → List UInt8
  | .null => nullText
  | .bool b => if b then trueText else falseText
  | .number q => numberText D q
  | .string s => quoted s
  | .array items => 0x5b :: textItems D items ++ [0x5d]
  | .object members => 0x7b :: textMembers D members ++ [0x7d]

/-- The texts of the elements, with commas between them. -/
def textItems (D : Doubles) : List CJson → List UInt8
  | [] => []
  | item :: items => text D item ++ (if items.isEmpty then [] else [0x2c]) ++ textItems D items

/-- The texts of the members, with commas between them. -/
def textMembers (D : Doubles) : List (CStr × CJson) → List UInt8
  | [] => []
  | member :: members =>
      textMember D member ++ (if members.isEmpty then [] else [0x2c]) ++ textMembers D members

/-- A name, a colon and a value. -/
def textMember (D : Doubles) : CStr × CJson → List UInt8
  | (name, item) => quoted name ++ 0x3a :: text D item

end

/-! ### The buffer -/

/-- `printbuffer`; its `length` is that of the memory. -/
structure PrintBuffer where
  /-- `buffer`. -/
  mem : List UInt8
  /-- `offset`. -/
  offset : ℕ

/-- The heap: what allocations return, and `none` when there is no memory. -/
structure Heap where
  /-- `malloc`. -/
  malloc : ℕ → Option (List UInt8)
  /-- `realloc`. -/
  realloc : List UInt8 → ℕ → Option (List UInt8)
  /-- The size of an allocation. -/
  length_malloc : ∀ {n mem}, malloc n = some mem → mem.length = n
  /-- The size of a reallocation, and what it keeps. -/
  realloc_some : ∀ {mem n mem'}, realloc mem n = some mem' →
    mem'.length = n ∧ mem.take n <+: mem'

/-- A heap that never runs out. -/
def Heap.plentiful : Heap where
  malloc n := some (List.replicate n 0)
  realloc mem n := some (mem.take n ++ List.replicate (n - mem.length) 0)
  length_malloc h := by
    rw [← Option.some.inj h, List.length_replicate]
  realloc_some h := by
    rw [← Option.some.inj h, List.length_append, List.length_take, List.length_replicate]
    exact ⟨by omega, List.prefix_append _ _⟩

/-- A buffer that a text of `n` bytes can ask for is not to be had: `ensure` doubles what is
needed. -/
def Heap.CannotGrow (H : Heap) (n : ℕ) : Prop :=
  ∃ mem k, k ≤ 2 * (n + 2) ∧ H.realloc mem k = none

theorem Heap.CannotGrow.mono {H : Heap} {n n' : ℕ} (h : H.CannotGrow n) (hle : n ≤ n') :
    H.CannotGrow n' := by
  obtain ⟨mem, k, hk, hnone⟩ := h
  exact ⟨mem, k, by omega, hnone⟩

/-- `INT_MAX`. -/
def intMax : ℕ := 2147483647

variable (H : Heap)

/-- `ensure`: room for `needed` bytes and one more behind the offset. -/
def ensure (p : PrintBuffer) (needed : ℕ) : Option PrintBuffer :=
  if 0 < p.mem.length ∧ p.mem.length ≤ p.offset then none
  else if intMax < needed then none
  else
    let needed := needed + (p.offset + 1)
    if needed ≤ p.mem.length then some p
    else if intMax / 2 < needed then
      if needed ≤ intMax then
        (H.realloc p.mem intMax).map fun mem => ⟨mem, p.offset⟩
      else none
    else (H.realloc p.mem (needed * 2)).map fun mem => ⟨mem, p.offset⟩

/-- Bytes written one after the other, from the index `i` on. -/
def writeBytes (mem : List UInt8) (i : ℕ) (bs : List UInt8) : Checked (List UInt8) :=
  if i + bs.length ≤ mem.length then
    .ok (mem.take i ++ bs ++ mem.drop (i + bs.length))
  else .error (.write (i + bs.length))

/-- `strlen`, of the string at the index `i`. -/
def strlenAt (mem : List UInt8) : ℕ → ℕ → Checked ℕ
  | 0, _ => .error .endless
  | fuel + 1, i => do
      if (← readAt mem i) = 0 then pure 0 else pure ((← strlenAt mem fuel (i + 1)) + 1)

/-- `update_offset`. -/
def updateOffset (p : PrintBuffer) : Checked PrintBuffer := do
  pure ⟨p.mem, p.offset + (← strlenAt p.mem (p.mem.length + 1) p.offset)⟩

/-- Room for a piece, and the piece written at the offset; the offset moves by `k`. -/
def put (p : PrintBuffer) (needed : ℕ) (bs : List UInt8) (k : ℕ) : Checked (Option PrintBuffer) :=
  match ensure H p needed with
  | none => pure none
  | some p => do pure (some ⟨← writeBytes p.mem p.offset bs, p.offset + k⟩)

/-! ### The printer -/

/-- `escape_characters`, for a byte. -/
def escapeCharacters (b : UInt8) : ℕ :=
  if b = 0x22 ∨ b = 0x5c ∨ b = 0x08 ∨ b = 0x0c ∨ b = 0x0a ∨ b = 0x0d ∨ b = 0x09 then 1
  else if b < 32 then 5
  else 0

/-- The loop of `print_string_ptr`.  What `sprintf` writes for a control character has a
terminator, over which the next byte is written. -/
def copyEscaped : List UInt8 → List UInt8 → ℕ → Checked (List UInt8)
  | [], mem, _ => pure mem
  | b :: input, mem, i =>
      if 31 < b ∧ b ≠ 0x22 ∧ b ≠ 0x5c then do
        copyEscaped input (← writeBytes mem i [b]) (i + 1)
      else
        match escapeLetter b with
        | some c => do copyEscaped input (← writeBytes mem i [0x5c, c]) (i + 2)
        | none => do
            copyEscaped input (← writeBytes mem i (0x5c :: 0x75 :: hex4 b.toNat ++ [0])) (i + 6)

/-- `print_string_ptr`. -/
def printStringPtr (input : CStr) (p : PrintBuffer) : Checked (Option PrintBuffer) :=
  let escapes := (input.bytes.map escapeCharacters).sum
  let outputLength := input.length + escapes
  match ensure H p (outputLength + 3) with
  | none => pure none
  | some p =>
      if escapes = 0 then do
        let mem ← writeBytes p.mem p.offset (0x22 :: input.bytes)
        let mem ← writeBytes mem (p.offset + (outputLength + 1)) [0x22, 0]
        pure (some ⟨mem, p.offset⟩)
      else do
        let mem ← writeBytes p.mem p.offset [0x22]
        let mem ← copyEscaped input.bytes mem (p.offset + 1)
        let mem ← writeBytes mem (p.offset + (outputLength + 1)) [0x22, 0]
        pure (some ⟨mem, p.offset⟩)

variable (D : Doubles)

/-- `print_number`.  Unlike the other functions it moves the offset itself. -/
def printNumber (q : ℚ) (p : PrintBuffer) : Checked (Option PrintBuffer) :=
  let number := numberText D q
  if 25 < number.length then pure none
  else put H p (number.length + 1) (number ++ [0]) number.length

mutual

/-- `print_value`, unformatted. -/
def printValue : CJson → PrintBuffer → Checked (Option PrintBuffer)
  | .null, p => put H p 5 (nullText ++ [0]) 0
  | .bool false, p => put H p 6 (falseText ++ [0]) 0
  | .bool true, p => put H p 5 (trueText ++ [0]) 0
  | .number q, p => printNumber H D q p
  | .string s, p => printStringPtr H s p
  | .array items, p => do
      match ← put H p 1 [0x5b] 1 with
      | none => pure none
      | some p =>
          match ← printElements items p with
          | none => pure none
          | some p => put H p 2 [0x5d, 0] 0
  | .object members, p => do
      match ← put H p 2 [0x7b] 1 with
      | none => pure none
      | some p =>
          match ← printMembers members p with
          | none => pure none
          | some p => put H p 2 [0x7d, 0] 0

/-- The loop of `print_array`. -/
def printElements : List CJson → PrintBuffer → Checked (Option PrintBuffer)
  | [], p => pure (some p)
  | item :: items, p => do
      match ← printValue item p with
      | none => pure none
      | some p =>
          let p ← updateOffset p
          if items.isEmpty then pure (some p)
          else
            match ← put H p 2 [0x2c, 0] 1 with
            | none => pure none
            | some p => printElements items p

/-- The loop of `print_object`. -/
def printMembers : List (CStr × CJson) → PrintBuffer → Checked (Option PrintBuffer)
  | [], p => pure (some p)
  | member :: members, p => do
      match ← printMember member p with
      | none => pure none
      | some p =>
          let p ← updateOffset p
          match ← (if members.isEmpty then put H p 1 [0] 0 else put H p 2 [0x2c, 0] 1) with
          | none => pure none
          | some p => printMembers members p

/-- A name and the value behind it. -/
def printMember : CStr × CJson → PrintBuffer → Checked (Option PrintBuffer)
  | (name, item), p => do
      match ← printStringPtr H name p with
      | none => pure none
      | some p =>
          match ← put H (← updateOffset p) 1 [0x3a] 1 with
          | none => pure none
          | some p => printValue item p

end

/-- `cJSON_PrintUnformatted`, and the string it returns. -/
def cJsonPrintUnformatted (j : CJson) : Checked (Option CStr) :=
  match H.malloc 256 with
  | none => pure none
  | some mem => do
      match ← printValue H D j ⟨mem, 0⟩ with
      | none => pure none
      | some p =>
          let p ← updateOffset p
          pure ((H.realloc p.mem (p.offset + 1)).map CStr.ofMem)

/-! ### No text holds a terminator -/

theorem hexChar_ne_zero {d : ℕ} (h : d < 16) : hexChar d ≠ 0 := by
  have hall : ∀ d < 16, hexChar d ≠ 0 := by decide
  exact hall d h

theorem hex4_noNul (n : ℕ) : ∀ b ∈ hex4 n, b ≠ 0 := by
  have hlt : ∀ k, k % 16 < 16 := fun k => Nat.mod_lt k (by decide)
  simp only [hex4, List.forall_mem_cons]
  exact ⟨hexChar_ne_zero (hlt _), hexChar_ne_zero (hlt _), hexChar_ne_zero (hlt _),
    hexChar_ne_zero (hlt _), by simp⟩

theorem escapeByte_noNul {b : UInt8} (hb : b ≠ 0) : ∀ a ∈ escapeByte b, a ≠ 0 := by
  unfold escapeByte
  split
  · simpa using hb
  · split
    next c hc =>
      have hne : c ≠ 0 := by
        unfold escapeLetter at hc
        split_ifs at hc <;> obtain rfl := Option.some.inj hc
        · exact hb
        all_goals decide
      simpa using hne
    next =>
      simp only [List.forall_mem_cons]
      exact ⟨by decide, by decide, hex4_noNul _⟩

theorem quoted_noNul (s : CStr) : ∀ b ∈ quoted s, b ≠ 0 := by
  intro b hb
  simp only [quoted, List.cons_append, List.mem_cons, List.mem_append, List.mem_flatMap,
    List.not_mem_nil, or_false] at hb
  rcases hb with rfl | ⟨a, ha, hb⟩ | rfl
  · decide
  · exact escapeByte_noNul (s.noNul a ha) b hb
  · decide

theorem decimal_noNul (n : ℤ) : ∀ b ∈ decimal n, b ≠ 0 := by
  intro b hb
  rw [decimal, List.mem_append] at hb
  rcases hb with hb | hb
  · split_ifs at hb
    · rw [List.mem_singleton.mp hb]
      decide
    · cases hb
  · obtain ⟨c, hc, rfl⟩ := List.mem_map.mp hb
    have hdigit := Nat.isDigit_of_mem_toDigits (by decide) (by decide) hc
    rw [Char.isDigit_iff_toNat, show '0'.toNat = 48 from rfl,
      show '9'.toNat = 57 from rfl] at hdigit
    intro h0
    have := congrArg UInt8.toNat h0
    simp at this
    omega

theorem numberText_noNul (q : ℚ) : ∀ b ∈ numberText D q, b ≠ 0 := by
  unfold numberText
  split
  · exact decimal_noNul _
  · exact (D.format q).noNul

/-- The comma behind all but the last. -/
theorem comma_noNul {α : Type} (l : List α) :
    ∀ b ∈ (if l.isEmpty then [] else [0x2c] : List UInt8), b ≠ 0 := by
  split <;> simp

mutual

theorem text_noNul : ∀ j : CJson, ∀ b ∈ text D j, b ≠ 0
  | .null => by rw [text]; simp [nullText]
  | .bool true => by rw [text, if_pos rfl]; simp [trueText]
  | .bool false => by rw [text, if_neg (by decide)]; simp [falseText]
  | .number q => by rw [text]; exact numberText_noNul D q
  | .string s => by rw [text]; exact quoted_noNul s
  | .array items => by
      rw [text, List.cons_append, List.forall_mem_cons, List.forall_mem_append]
      exact ⟨by decide, textItems_noNul items, by simp⟩
  | .object members => by
      rw [text, List.cons_append, List.forall_mem_cons, List.forall_mem_append]
      exact ⟨by decide, textMembers_noNul members, by simp⟩

theorem textItems_noNul : ∀ items : List CJson, ∀ b ∈ textItems D items, b ≠ 0
  | [] => by rw [textItems]; simp
  | item :: items => by
      rw [textItems, List.forall_mem_append, List.forall_mem_append]
      exact ⟨⟨text_noNul item, comma_noNul items⟩, textItems_noNul items⟩

theorem textMembers_noNul : ∀ members : List (CStr × CJson),
    ∀ b ∈ textMembers D members, b ≠ 0
  | [] => by rw [textMembers]; simp
  | member :: members => by
      rw [textMembers, List.forall_mem_append, List.forall_mem_append]
      exact ⟨⟨textMember_noNul member, comma_noNul members⟩, textMembers_noNul members⟩

theorem textMember_noNul : ∀ member : CStr × CJson, ∀ b ∈ textMember D member, b ≠ 0
  | (name, item) => by
      rw [textMember, List.forall_mem_append, List.forall_mem_cons]
      exact ⟨quoted_noNul name, by decide, text_noNul item⟩

end

/-! ### The pieces -/

/-- Between two pieces: the output so far is `w`, and the buffer goes on behind it. -/
structure At (w : List UInt8) (p : PrintBuffer) : Prop where
  /-- The offset is behind the output. -/
  offset : p.offset = w.length
  /-- The output is at the front of the buffer. -/
  output : w <+: p.mem
  /-- There is room for a terminator. -/
  room : w.length < p.mem.length

/-- After a value: its text `t` has been written behind `w`, with a terminator. -/
structure Ends (w t : List UInt8) (p : PrintBuffer) : Prop where
  /-- The offset is somewhere before the end of it. -/
  offset : w.length ≤ p.offset ∧ p.offset ≤ (w ++ t).length
  /-- What is in the buffer. -/
  output : w ++ t ++ [0] <+: p.mem

/-- A step of the printer that does not fault, and gives up only when there is no memory or
a text of `n` bytes is too long. -/
def Delivers (n : ℕ) (good : PrintBuffer → Prop) (x : Checked (Option PrintBuffer)) : Prop :=
  ∃ r, x = .ok r ∧ (∀ p, r = some p → good p) ∧
    (r = none → H.CannotGrow n ∨ intMax < n + 2)

variable {H D}

theorem Delivers.done {n : ℕ} {good : PrintBuffer → Prop} {p : PrintBuffer} (h : good p) :
    Delivers H n good (.ok (some p)) :=
  ⟨_, rfl, fun _ hp => Option.some.inj hp ▸ h, fun hnone => by cases hnone⟩

theorem Delivers.mono {n n' : ℕ} {good good' : PrintBuffer → Prop}
    {x : Checked (Option PrintBuffer)} (hx : Delivers H n good x) (hle : n ≤ n')
    (himp : ∀ p, good p → good' p) : Delivers H n' good' x := by
  obtain ⟨r, hr, hgood, hout⟩ := hx
  exact ⟨r, hr, fun p hp => himp p (hgood p hp), fun hnone =>
    (hout hnone).imp (·.mono hle) (by omega)⟩

/-- What ends behind a part of the text ends behind it all. -/
theorem Ends.behind {w a t : List UInt8} {p : PrintBuffer} (h : Ends (w ++ a) t p) :
    Ends w (a ++ t) p := by
  obtain ⟨⟨hle, hge⟩, houtput⟩ := h
  rw [List.append_assoc w] at hge houtput
  exact ⟨⟨by rw [List.length_append] at hle; omega, hge⟩, houtput⟩

/-- One step after the other. -/
theorem Delivers.andThen {n n' : ℕ} {good good' : PrintBuffer → Prop}
    {x : Checked (Option PrintBuffer)} {k : Option PrintBuffer → Checked (Option PrintBuffer)}
    (hx : Delivers H n good x) (hle : n ≤ n') (hnone : k none = .ok none)
    (hsome : ∀ p, good p → Delivers H n' good' (k (some p))) : Delivers H n' good' (x >>= k) := by
  obtain ⟨r, rfl, hgood, hout⟩ := hx
  rw [Checked.ok_bind]
  rcases r with _ | p
  · rw [hnone]
    exact ⟨none, rfl, fun p hp => (by cases hp), fun _ => (hout rfl).imp (·.mono hle) (by omega)⟩
  · exact hsome p (hgood p rfl)

/-- A piece is written behind the output when there is room for it. -/
theorem writeBytes_spec {mem w : List UInt8} (hw : w <+: mem) (bs : List UInt8)
    (hroom : w.length + bs.length ≤ mem.length) :
    ∃ mem', writeBytes mem w.length bs = .ok mem' ∧ w ++ bs <+: mem' ∧
      mem'.length = mem.length := by
  obtain ⟨r, rfl⟩ := hw
  refine ⟨_, by rw [writeBytes, if_pos hroom], ?_, ?_⟩
  · rw [List.take_left]
    exact List.prefix_append _ _
  · simp only [List.length_append] at hroom
    simp only [List.length_append, List.length_take, List.length_drop]
    omega

/-- What `ensure` gives: the output is where it was, and there is room. -/
theorem ensure_spec {w : List UInt8} {p : PrintBuffer} (hp : At w p) (needed : ℕ) :
    match ensure H p needed with
    | none => H.CannotGrow (w.length + needed - 1) ∨ intMax < w.length + needed + 1
    | some p' => p'.offset = w.length ∧ w <+: p'.mem ∧ w.length + needed + 1 ≤ p'.mem.length := by
  have hgrow : ∀ n, p.mem.length ≤ n → w.length + needed + 1 ≤ n →
      n ≤ 2 * (w.length + needed + 1) →
      match (H.realloc p.mem n).map fun mem => (⟨mem, p.offset⟩ : PrintBuffer) with
      | none => H.CannotGrow (w.length + needed - 1) ∨ intMax < w.length + needed + 1
      | some p' => p'.offset = w.length ∧ w <+: p'.mem ∧
          w.length + needed + 1 ≤ p'.mem.length := by
    intro n hlen hn hdouble
    rcases hr : H.realloc p.mem n with _ | mem
    · exact .inl ⟨_, _, by omega, hr⟩
    · obtain ⟨hsize, hkeeps⟩ := H.realloc_some hr
      rw [List.take_of_length_le hlen] at hkeeps
      exact ⟨hp.offset, hp.output.trans hkeeps, by simp only; omega⟩
  have hroom := hp.room
  have hoffset := hp.offset
  rw [ensure, if_neg (by omega)]
  by_cases hmax : intMax < needed
  · rw [if_pos hmax]
    exact .inr (by omega)
  rw [if_neg hmax]
  simp only
  by_cases hfits : needed + (p.offset + 1) ≤ p.mem.length
  · rw [if_pos hfits]
    exact ⟨hoffset, hp.output, by omega⟩
  rw [if_neg hfits]
  by_cases hhalf : intMax / 2 < needed + (p.offset + 1)
  · rw [if_pos hhalf]
    by_cases hle : needed + (p.offset + 1) ≤ intMax
    · rw [if_pos hle]
      exact hgrow intMax (by omega) (by omega) (by omega)
    · rw [if_neg hle]
      exact .inr (by omega)
  · rw [if_neg hhalf]
    exact hgrow _ (by omega) (by omega) (by omega)

/-- A piece with the terminator behind it. -/
theorem put_ends {w : List UInt8} {p : PrintBuffer} (hp : At w p) {t : List UInt8} {k needed : ℕ}
    (hk : k ≤ t.length) (hneeded : needed = t.length + 1) :
    Delivers H (w ++ t).length (Ends w t) (put H p needed (t ++ [0]) k) := by
  have hensure := ensure_spec (H := H) hp needed
  rw [put]
  generalize ensure H p needed = r at hensure ⊢
  rcases r with _ | p'
  · exact ⟨none, rfl, fun p hp => (by cases hp), fun _ => by
      rw [List.length_append]
      exact hensure.imp (·.mono (by omega)) (by omega)⟩
  · obtain ⟨hoffset, houtput, hroom⟩ := hensure
    obtain ⟨mem, hwrite, hmem, -⟩ := writeBytes_spec houtput (t ++ [0])
      (by rw [List.length_append, List.length_singleton]; omega)
    simp only [hoffset, hwrite, Checked.ok_bind]
    refine .done ⟨?_, by rwa [List.append_assoc]⟩
    rw [List.length_append]
    simp only
    omega

/-- A piece behind which the output goes on, over the terminator `x` if there is one. -/
theorem put_at {w : List UInt8} {p : PrintBuffer} (hp : At w p) (t x : List UInt8) {needed : ℕ}
    (hle : t.length + x.length ≤ needed) (hneeded : needed ≤ t.length + 1) :
    Delivers H (w ++ t).length (At (w ++ t)) (put H p needed (t ++ x) t.length) := by
  have hensure := ensure_spec (H := H) hp needed
  rw [put]
  generalize ensure H p needed = r at hensure ⊢
  rcases r with _ | p'
  · exact ⟨none, rfl, fun p hp => (by cases hp), fun _ => by
      rw [List.length_append]
      exact hensure.imp (·.mono (by omega)) (by omega)⟩
  · obtain ⟨hoffset, houtput, hroom⟩ := hensure
    obtain ⟨mem, hwrite, hmem, hlen⟩ := writeBytes_spec houtput (t ++ x)
      (by rw [List.length_append]; omega)
    rw [← List.append_assoc] at hmem
    simp only [hoffset, hwrite, Checked.ok_bind]
    refine .done ⟨(List.length_append ..).symm, (List.prefix_append _ _).trans hmem, ?_⟩
    rw [List.length_append]
    simp only
    omega

/-- The end of the output is found again. -/
theorem strlenAt_eq {mem : List UInt8} : ∀ (t w : List UInt8) (fuel : ℕ), (∀ b ∈ t, b ≠ 0) →
    w ++ t ++ [0] <+: mem → t.length < fuel → strlenAt mem fuel w.length = .ok t.length := by
  intro t
  induction t with
  | nil =>
    intro w fuel _ hmem hfuel
    obtain ⟨r, rfl⟩ := hmem
    obtain ⟨fuel, rfl⟩ : ∃ k, fuel = k + 1 := ⟨fuel - 1, by simp at hfuel; omega⟩
    rw [strlenAt, readAt_eq (by simp)]
    simp [Checked.ok_bind]
    rfl
  | cons b t ih =>
    intro w fuel hnul hmem hfuel
    obtain ⟨fuel, rfl⟩ : ∃ k, fuel = k + 1 := ⟨fuel - 1, by simp at hfuel; omega⟩
    have hrest := ih (w ++ [b]) fuel (fun a ha => hnul a (by simp [ha])) (by simpa using hmem)
      (by simpa using hfuel)
    obtain ⟨r, rfl⟩ := hmem
    rw [List.length_append, List.length_singleton] at hrest
    rw [strlenAt, readAt_eq (by simp), Checked.ok_bind, if_neg, hrest]
    · rfl
    · simpa using hnul b (by simp)

/-- After a value the offset is put behind its text. -/
theorem updateOffset_eq {w t : List UInt8} {p : PrintBuffer} (hp : Ends w t p)
    (hnul : ∀ b ∈ t, b ≠ 0) : ∃ p', updateOffset p = .ok p' ∧ At (w ++ t) p' ∧ p'.mem = p.mem := by
  have hlen := hp.output.length_le
  simp only [List.length_append, List.length_singleton] at hlen
  refine ⟨⟨p.mem, (w ++ t).length⟩, ?_,
    ⟨rfl, (List.prefix_append _ _).trans hp.output, ?_⟩, rfl⟩
  · obtain ⟨hle, hge⟩ := hp.offset
    rw [List.length_append] at hge
    obtain ⟨k, hk⟩ := Nat.exists_eq_add_of_le hle
    -- `k` bytes of the text are behind the offset already
    have hoffset : p.offset = (w ++ t.take k).length := by
      rw [List.length_append, List.length_take]
      omega
    have houtput : w ++ t.take k ++ t.drop k ++ [0] <+: p.mem := by
      rw [List.append_assoc w, List.take_append_drop]
      exact hp.output
    have hrest := strlenAt_eq (t.drop k) (w ++ t.take k) (p.mem.length + 1)
      (fun b hb => hnul b (List.mem_of_mem_drop hb)) houtput (by rw [List.length_drop]; omega)
    rw [updateOffset, hoffset, hrest, Checked.ok_bind, List.length_append, List.length_append,
      List.length_take, List.length_drop]
    refine congrArg Except.ok (congrArg _ ?_)
    omega
  · simp only [List.length_append]
    omega

/-! ### Strings -/

/-- What the first loop counts is what the second one writes more. -/
theorem length_escapeByte (b : UInt8) : (escapeByte b).length = escapeCharacters b + 1 := by
  rw [escapeByte, escapeCharacters]
  by_cases hplain : 31 < b ∧ b ≠ 0x22 ∧ b ≠ 0x5c
  · have hshort :
        ¬(b = 0x22 ∨ b = 0x5c ∨ b = 0x08 ∨ b = 0x0c ∨ b = 0x0a ∨ b = 0x0d ∨ b = 0x09) := by
      rintro (rfl | rfl | rfl | rfl | rfl | rfl | rfl) <;> revert hplain <;> decide
    have hlow : ¬b < 32 := by
      have := hplain.1
      rw [UInt8.lt_iff_toNat_lt] at this ⊢
      simp at this ⊢
      omega
    rw [if_pos hplain, if_neg hshort, if_neg hlow]
    rfl
  rw [if_neg hplain]
  by_cases hshort : b = 0x22 ∨ b = 0x5c ∨ b = 0x08 ∨ b = 0x0c ∨ b = 0x0a ∨ b = 0x0d ∨ b = 0x09
  · rw [if_pos hshort]
    rcases hshort with rfl | rfl | rfl | rfl | rfl | rfl | rfl <;> rfl
  · have hnone : escapeLetter b = none := by
      simp only [not_or] at hshort
      simp [escapeLetter, hshort]
    have hlow : b < 32 := by
      by_contra hge
      refine hplain ⟨?_, fun h => hshort (.inl h), fun h => hshort (.inr (.inl h))⟩
      rw [UInt8.lt_iff_toNat_lt] at hge ⊢
      simp at hge ⊢
      omega
    rw [if_neg hshort, hnone, if_pos hlow]
    rfl

theorem length_escapeByte_le (b : UInt8) : (escapeByte b).length ≤ 6 := by
  rw [length_escapeByte, escapeCharacters]
  split_ifs <;> omega

theorem length_flatMap_escapeByte (l : List UInt8) :
    (l.flatMap escapeByte).length = l.length + (l.map escapeCharacters).sum := by
  induction l with
  | nil => rfl
  | cons b l ih =>
    rw [List.flatMap_cons, List.length_append, ih, length_escapeByte, List.length_cons,
      List.map_cons, List.sum_cons]
    omega

/-- The text of a string takes up to six bytes for each of its own. -/
theorem length_quoted_le (s : CStr) : (quoted s).length ≤ 6 * s.length + 2 := by
  have hbytes : ∀ l : List UInt8, (l.flatMap escapeByte).length ≤ 6 * l.length := by
    intro l
    induction l with
    | nil => exact le_rfl
    | cons b l ih =>
      have hb := length_escapeByte_le b
      rw [List.flatMap_cons, List.length_append, List.length_cons]
      omega
  have hs := hbytes s.bytes
  rw [quoted, List.length_append, List.length_cons, List.length_singleton]
  unfold CStr.length
  omega

/-- Where there is nothing to escape, the string is copied as it is. -/
theorem flatMap_escapeByte_of_sum {l : List UInt8} (h : (l.map escapeCharacters).sum = 0) :
    l.flatMap escapeByte = l := by
  induction l with
  | nil => rfl
  | cons b l ih =>
    rw [List.map_cons, List.sum_cons, Nat.add_eq_zero_iff] at h
    have hb : escapeByte b = [b] := by
      have hlen := length_escapeByte b
      rw [h.1] at hlen
      unfold escapeByte at hlen ⊢
      split
      next => rfl
      next hplain =>
        rw [if_neg hplain] at hlen
        split at hlen <;> simp at hlen
    rw [List.flatMap_cons, ih h.2, hb]
    rfl

/-- The loop that escapes. -/
theorem copyEscaped_spec : ∀ (input : List UInt8) {mem w : List UInt8}, w <+: mem →
    w.length + (input.flatMap escapeByte).length + 1 ≤ mem.length →
      ∃ mem', copyEscaped input mem w.length = .ok mem' ∧
        w ++ input.flatMap escapeByte <+: mem' ∧ mem'.length = mem.length := by
  intro input
  induction input with
  | nil => intro mem w hw _; exact ⟨mem, rfl, by simpa using hw, rfl⟩
  | cons b input ih =>
    intro mem w hw hroom
    rw [List.flatMap_cons, List.length_append] at hroom
    -- `bs` is written, of which the bytes of `escapeByte b` stay
    have hstep : ∀ bs x : List UInt8, escapeByte b ++ x = bs → x.length ≤ 1 →
        ∃ mem', (writeBytes mem w.length bs >>= fun mem =>
            copyEscaped input mem (w.length + (escapeByte b).length)) = .ok mem' ∧
          w ++ (b :: input).flatMap escapeByte <+: mem' ∧ mem'.length = mem.length := by
      rintro _ x rfl hx
      obtain ⟨mem₁, hwrite, hmem₁, hlen₁⟩ := writeBytes_spec hw (escapeByte b ++ x)
        (by rw [List.length_append]; omega)
      rw [← List.append_assoc] at hmem₁
      obtain ⟨mem₂, hcopy, hmem₂, hlen₂⟩ := ih ((List.prefix_append _ _).trans hmem₁)
        (by rw [List.length_append]; omega)
      rw [List.length_append] at hcopy
      refine ⟨mem₂, by rw [hwrite, Checked.ok_bind, hcopy], ?_, hlen₂.trans hlen₁⟩
      rwa [List.flatMap_cons, ← List.append_assoc]
    rw [copyEscaped]
    by_cases hplain : 31 < b ∧ b ≠ 0x22 ∧ b ≠ 0x5c
    · have hb : escapeByte b = [b] := if_pos hplain
      have := hstep [b] [] (by rw [hb]; rfl) (by simp)
      rw [if_pos hplain]
      rwa [hb] at this
    rw [if_neg hplain]
    rcases hletter : escapeLetter b with _ | c
    · have hb : escapeByte b = 0x5c :: 0x75 :: hex4 b.toNat := by
        rw [escapeByte, if_neg hplain, hletter]
      have := hstep (0x5c :: 0x75 :: hex4 b.toNat ++ [0]) [0] (by rw [hb]) (by simp)
      rwa [hb] at this
    · have hb : escapeByte b = [0x5c, c] := by rw [escapeByte, if_neg hplain, hletter]
      have := hstep [0x5c, c] [] (by rw [hb]; rfl) (by simp)
      rwa [hb] at this

/-- **A string is printed within the room its escapes were counted for.** -/
theorem printStringPtr_ends {w : List UInt8} {p : PrintBuffer} (hp : At w p) (s : CStr) :
    Delivers H (w ++ quoted s).length (Ends w (quoted s)) (printStringPtr H s p) := by
  have hensure := ensure_spec (H := H) hp (s.length + (s.bytes.map escapeCharacters).sum + 3)
  have hlen := length_flatMap_escapeByte s.bytes
  have hquoted : (quoted s).length = s.length + (s.bytes.map escapeCharacters).sum + 2 := by
    rw [quoted, List.length_append, List.length_cons, hlen, List.length_singleton]
    rfl
  rw [printStringPtr]
  generalize ensure H p (s.length + (s.bytes.map escapeCharacters).sum + 3) = r at hensure ⊢
  rcases r with _ | p'
  · exact ⟨none, rfl, fun p hp => (by cases hp), fun _ => by
      rw [List.length_append]
      exact hensure.imp (·.mono (by omega)) (by omega)⟩
  obtain ⟨hoffset, houtput, hroom⟩ := hensure
  -- the last quote is put where the text of the string ends
  have hclose : ∀ mem : List UInt8, w ++ 0x22 :: s.bytes.flatMap escapeByte <+: mem →
      mem.length = p'.mem.length →
      Delivers H (w ++ quoted s).length (Ends w (quoted s))
        (writeBytes mem (p'.offset + (s.length + (s.bytes.map escapeCharacters).sum + 1)) [0x22, 0]
          >>= fun mem => pure (some ⟨mem, p'.offset⟩)) := by
    intro mem hmem hsize
    have hat : p'.offset + (s.length + (s.bytes.map escapeCharacters).sum + 1)
        = (w ++ 0x22 :: s.bytes.flatMap escapeByte).length := by
      rw [List.length_append, List.length_cons, hlen, hoffset]
      rfl
    obtain ⟨mem', hwrite, hmem', -⟩ := writeBytes_spec hmem ([0x22, 0]) (by
      rw [← hat, List.length_cons, List.length_singleton]
      omega)
    rw [hat, hwrite, Checked.ok_bind]
    refine .done ⟨⟨hoffset.ge, by rw [List.length_append]; simp only; omega⟩, ?_⟩
    have hbytes : w ++ quoted s ++ [0] = w ++ 0x22 :: s.bytes.flatMap escapeByte ++ [0x22, 0] := by
      simp [quoted]
    rwa [hbytes]
  dsimp only
  by_cases hzero : (s.bytes.map escapeCharacters).sum = 0
  · obtain ⟨mem, hwrite, hmem, hsize⟩ := writeBytes_spec houtput (0x22 :: s.bytes) (by
      rw [List.length_cons]
      exact (Nat.le_of_eq rfl).trans (by unfold CStr.length at hroom; omega))
    rw [if_pos hzero, hoffset, hwrite, Checked.ok_bind, ← hoffset]
    exact hclose mem (by rwa [flatMap_escapeByte_of_sum hzero]) hsize
  · obtain ⟨mem, hwrite, hmem, hsize⟩ := writeBytes_spec houtput ([0x22]) (by
      rw [List.length_singleton]
      omega)
    obtain ⟨mem', hcopy, hmem', hsize'⟩ := copyEscaped_spec s.bytes hmem (by
      rw [List.length_append, List.length_singleton, hlen]
      unfold CStr.length at hroom
      omega)
    rw [List.length_append, List.length_singleton] at hcopy
    rw [if_neg hzero, hoffset, hwrite, Checked.ok_bind, hcopy, Checked.ok_bind, ← hoffset]
    exact hclose mem' (by simpa using hmem') (hsize'.trans hsize)

/-! ### Values -/

/-- An `int` has ten digits at most. -/
theorem natAbs_valueint_lt (q : ℚ) : (valueint q).natAbs < 10 ^ 10 := by
  unfold valueint
  split_ifs with hmax hmin
  · decide
  · decide
  · rw [not_le] at hmax hmin
    have hden : (0 : ℚ) < q.den := by exact_mod_cast q.den_pos
    have hnum : (q.num : ℚ) = q * q.den := (Rat.mul_den_eq_num q).symm
    have habove : (q.num : ℚ) < 2147483647 * q.den := by
      rw [hnum]
      exact mul_lt_mul_of_pos_right hmax hden
    have hbelow : -2147483648 * (q.den : ℚ) < q.num := by
      rw [hnum]
      exact mul_lt_mul_of_pos_right hmin hden
    have habove' : q.num < 2147483647 * q.den := by exact_mod_cast habove
    have hbelow' : -2147483648 * (q.den : ℤ) < q.num := by exact_mod_cast hbelow
    rw [Int.natAbs_tdiv, Int.natAbs_natCast,
      show q.num.natAbs.div q.den = q.num.natAbs / q.den from rfl,
      Nat.div_lt_iff_lt_mul q.den_pos]
    have hpos := q.den_pos
    omega

theorem length_decimal_le {n : ℤ} {e : ℕ} (he : 0 < e) (h : n.natAbs < 10 ^ e) :
    (decimal n).length ≤ e + 1 := by
  have hdigits := Nat.toDigits_length 10 n.natAbs e he h
  rw [decimal, List.length_append, List.length_map]
  split
  · simp only [List.length_singleton]
    omega
  · simp only [List.length_nil]
    omega

theorem length_numberText_le (q : ℚ) : (numberText D q).length ≤ 25 := by
  unfold numberText
  split
  · exact (length_decimal_le (by decide) (natAbs_valueint_lt q)).trans (by decide)
  · exact D.format_length q

/-- The two ways in which a list of texts goes on. -/
theorem comma_eq {α : Type} (l : List α) :
    (if l.isEmpty then [] else [0x2c] : List UInt8) = [] ∧ l = [] ∨
      (if l.isEmpty then [] else [0x2c] : List UInt8) = [0x2c] ∧ l.isEmpty = false := by
  cases l <;> simp

mutual

theorem printValue_ends : ∀ (j : CJson) {w : List UInt8} {p : PrintBuffer}, At w p →
    Delivers H (w ++ text D j).length (Ends w (text D j)) (printValue H D j p)
  | .null, w, p, hp => by
      rw [text, printValue]
      exact put_ends hp (Nat.zero_le _) rfl
  | .bool true, w, p, hp => by
      rw [text, printValue, if_pos rfl]
      exact put_ends hp (Nat.zero_le _) rfl
  | .bool false, w, p, hp => by
      rw [text, printValue, if_neg (by decide)]
      exact put_ends hp (Nat.zero_le _) rfl
  | .number q, w, p, hp => by
      rw [text, printValue, printNumber, if_neg (Nat.not_lt.mpr (length_numberText_le q))]
      exact put_ends hp le_rfl rfl
  | .string s, w, p, hp => by
      rw [text, printValue]
      exact printStringPtr_ends hp s
  | .array items, w, p, hp => by
      rw [text, printValue]
      refine (put_at hp [0x5b] [] (by decide) (by decide)).andThen (by simp) rfl fun p₁ hp₁ => ?_
      refine (printElements_at items hp₁).andThen (by simp) rfl fun p₂ hp₂ => ?_
      refine (put_ends hp₂ (t := [0x5d]) (Nat.zero_le _) rfl).mono (by simp) fun p₃ hp₃ => ?_
      rw [List.append_assoc] at hp₃
      exact hp₃.behind
  | .object members, w, p, hp => by
      rw [text, printValue]
      refine (put_at hp [0x7b] [] (by decide) (by decide)).andThen (by simp) rfl fun p₁ hp₁ => ?_
      refine (printMembers_at members hp₁).andThen (by simp) rfl fun p₂ hp₂ => ?_
      refine (put_ends hp₂ (t := [0x7d]) (Nat.zero_le _) rfl).mono (by simp) fun p₃ hp₃ => ?_
      rw [List.append_assoc] at hp₃
      exact hp₃.behind

theorem printElements_at : ∀ (items : List CJson) {w : List UInt8} {p : PrintBuffer}, At w p →
    Delivers H (w ++ textItems D items).length (At (w ++ textItems D items))
      (printElements H D items p)
  | [], w, p, hp => by
      rw [textItems, printElements, List.append_nil]
      exact .done hp
  | item :: items, w, p, hp => by
      rw [textItems, printElements, ← List.append_assoc, ← List.append_assoc]
      refine (printValue_ends item hp).andThen (by simp) rfl fun p₁ hp₁ => ?_
      obtain ⟨p₂, hupdate, hp₂, -⟩ := updateOffset_eq hp₁ (text_noNul D item)
      simp only [hupdate, Checked.ok_bind]
      rcases comma_eq items with ⟨hcomma, rfl⟩ | ⟨hcomma, hitems⟩
      · rw [hcomma, textItems, List.append_nil, List.append_nil]
        exact .done hp₂
      · rw [hcomma, if_neg (by simp [hitems])]
        exact (put_at hp₂ [0x2c] [0] le_rfl le_rfl).andThen (by simp) rfl fun p₃ hp₃ =>
          printElements_at items hp₃

theorem printMembers_at : ∀ (members : List (CStr × CJson)) {w : List UInt8} {p : PrintBuffer},
    At w p → Delivers H (w ++ textMembers D members).length (At (w ++ textMembers D members))
      (printMembers H D members p)
  | [], w, p, hp => by
      rw [textMembers, printMembers, List.append_nil]
      exact .done hp
  | member :: members, w, p, hp => by
      rw [textMembers, printMembers, ← List.append_assoc, ← List.append_assoc]
      refine (printMember_ends member hp).andThen (by simp) rfl fun p₁ hp₁ => ?_
      obtain ⟨p₂, hupdate, hp₂, -⟩ := updateOffset_eq hp₁ (textMember_noNul D member)
      simp only [hupdate, Checked.ok_bind]
      rcases comma_eq members with ⟨hcomma, rfl⟩ | ⟨hcomma, hmembers⟩
      · rw [hcomma, textMembers, List.append_nil, List.append_nil]
        have hlast := put_at (H := H) hp₂ [] [0] (le_refl 1) (le_refl 1)
        rw [List.append_nil] at hlast
        exact hlast.andThen le_rfl rfl fun p₃ hp₃ => .done hp₃
      · rw [hcomma, if_neg (by simp [hmembers])]
        exact (put_at hp₂ [0x2c] [0] le_rfl le_rfl).andThen (by simp) rfl fun p₃ hp₃ =>
          printMembers_at members hp₃

theorem printMember_ends : ∀ (member : CStr × CJson) {w : List UInt8} {p : PrintBuffer}, At w p →
    Delivers H (w ++ textMember D member).length (Ends w (textMember D member))
      (printMember H D member p)
  | (name, item), w, p, hp => by
      rw [textMember, printMember]
      refine (printStringPtr_ends hp name).andThen (by simp) rfl fun p₁ hp₁ => ?_
      obtain ⟨p₂, hupdate, hp₂, -⟩ := updateOffset_eq hp₁ (quoted_noNul name)
      simp only [hupdate, Checked.ok_bind]
      refine (put_at hp₂ [0x3a] [] le_rfl (Nat.le_succ _)).andThen (by simp) rfl
        fun p₃ hp₃ => ?_
      refine (printValue_ends item hp₃).mono (by simp) fun p₄ hp₄ => ?_
      rw [List.append_assoc w] at hp₄
      rw [List.append_cons]
      exact hp₄.behind

end

/-- **What the printer returns is the text of the value.**  No access is outside its memory,
whatever the heap gives; `NULL` is returned only when there is no memory or the text is as
long as `INT_MAX`. -/
theorem cJsonPrintUnformatted_spec (H : Heap) (D : Doubles) (j : CJson) :
    ∃ r, cJsonPrintUnformatted H D j = .ok r ∧ (∀ s, r = some s → s.bytes = text D j) ∧
      (r = none → H.malloc 256 = none ∨ H.CannotGrow (text D j).length ∨
        intMax < (text D j).length + 2) := by
  rw [cJsonPrintUnformatted]
  rcases hmalloc : H.malloc 256 with _ | mem
  · exact ⟨none, rfl, by simp, fun _ => .inl rfl⟩
  have hstart : At [] ⟨mem, 0⟩ :=
    ⟨rfl, List.nil_prefix, by simp only [H.length_malloc hmalloc]; decide⟩
  obtain ⟨r, hr, hends, hout⟩ := printValue_ends (H := H) (D := D) j hstart
  dsimp only
  rw [hr, Checked.ok_bind]
  rcases r with _ | p
  · exact ⟨none, rfl, by simp, fun _ => .inr (hout rfl)⟩
  have hnul := text_noNul D j
  obtain ⟨p', hupdate, hp', hmem⟩ := updateOffset_eq (hends p rfl) hnul
  have houtput := (hends p rfl).output
  have hoffset := hp'.offset
  rw [List.nil_append] at hoffset houtput
  dsimp only
  rw [hupdate, Checked.ok_bind, hmem, hoffset]
  refine ⟨_, rfl, fun s hs => ?_, fun hnone =>
    .inr (.inl ⟨_, _, by omega, Option.map_eq_none_iff.mp hnone⟩)⟩
  obtain ⟨mem', hrealloc, rfl⟩ := Option.map_eq_some_iff.mp hs
  obtain ⟨-, r', rfl⟩ := H.realloc_some hrealloc
  -- what is kept of the buffer is the text and its terminator
  have htake : p.mem.take ((text D j).length + 1) = text D j ++ [0] := by
    obtain ⟨rest, hrest⟩ := houtput
    rw [← hrest, List.take_left' (by simp)]
  rw [htake, List.append_assoc, List.singleton_append, ofMem_zero, CStr.ofMem_of_noNul hnul]

end Json
end WifiRepeater
