import Mathlib.Data.List.TakeWhile
import Mathlib.Data.Nat.Basic

/-!
# Calls in JavaScript

The value of an event handler is the body of a function.  Read here are the bodies that are
a single call: a name, and in parentheses one string literal, with white space and comments
between the parts and semicolons behind them.  A literal ends at the first quote that is not
escaped; what it stands for is a sequence of UTF-16 code units, into which the escapes have
been resolved, the octal ones and the line continuations included.

What a literal stands for is never longer than it is written, and the characters that are
counted here are those other than its quote: an escaped quote costs its backslash, and every
other escape costs more than it stands for.

## Main definitions

* `units`, `ofChars` — the code units of a text.
* `escape`, `literal` — escape sequences and string literals.
* `call` — the calls.
* `escapeQuotes` — a backslash before every quote.

## Main results

* `literal_le` — what a literal stands for is no longer than it is written.
* `literal_escapeQuotes` — **a text without backslashes and line ends is read back.**
* `plain_of_literal` — no other text is.
-/

namespace Js

/-! ### Strings -/

/-- The code units of a code point. -/
def codePoint (n : ℕ) : List ℕ :=
  if n < 0x10000 then [n] else [0xD800 + (n - 0x10000) / 0x400, 0xDC00 + (n - 0x10000) % 0x400]

/-- The code units of a character. -/
def units (c : Char) : List ℕ := codePoint c.toNat

/-- The string of a text. -/
def ofChars (cs : List Char) : List ℕ := cs.flatMap units

/-- The number of units that are not the second half of a pair. -/
def leads (us : List ℕ) : ℕ := us.countP fun u => !(0xDC00 ≤ u && u < 0xE000)

@[simp] theorem leads_nil : leads [] = 0 := rfl

@[simp] theorem leads_append (us vs : List ℕ) : leads (us ++ vs) = leads us + leads vs :=
  List.countP_append ..

theorem leads_singleton (n : ℕ) :
    leads [n] = if 0xDC00 ≤ n ∧ n < 0xE000 then 0 else 1 := by
  unfold leads
  by_cases h : 0xDC00 ≤ n ∧ n < 0xE000
  · rw [if_pos h, List.countP_cons_of_neg (by simpa using h), List.countP_nil]
  · rw [if_neg h, List.countP_cons_of_pos (by simp; omega), List.countP_nil]

theorem leads_singleton_le (n : ℕ) : leads [n] ≤ 1 := List.countP_le_length

/-- The second unit of a code point is the second half of a pair. -/
theorem leads_codePoint (n : ℕ) :
    leads (codePoint n)
      = if n < 0x10000 then leads [n] else leads [0xD800 + (n - 0x10000) / 0x400] := by
  have hmod : (n - 0x10000) % 0x400 < 0x400 := Nat.mod_lt _ (Nat.succ_pos _)
  unfold codePoint
  split_ifs
  · rfl
  · rw [← List.singleton_append, leads_append, leads_singleton (0xDC00 + _), if_pos (by omega),
      Nat.add_zero]

theorem leads_codePoint_le (n : ℕ) : leads (codePoint n) ≤ 1 := by
  rw [leads_codePoint]
  split_ifs <;> exact leads_singleton_le _

/-- A character is no half of a pair. -/
theorem leads_units (c : Char) : leads (units c) = 1 := by
  have hvalid : c.toNat < 0xD800 ∨ 0xDFFF < c.toNat ∧ c.toNat < 0x110000 := c.valid
  rw [units, leads_codePoint]
  split_ifs
  · rw [leads_singleton, if_neg (by omega)]
  · rw [leads_singleton, if_neg (by omega)]

@[simp] theorem ofChars_nil : ofChars [] = [] := rfl

@[simp] theorem ofChars_cons (c : Char) (cs : List Char) :
    ofChars (c :: cs) = units c ++ ofChars cs := rfl

@[simp] theorem leads_ofChars (cs : List Char) : leads (ofChars cs) = cs.length := by
  induction cs with
  | nil => rfl
  | cons c cs ih => rw [ofChars_cons, leads_append, leads_units, ih, List.length_cons, Nat.add_comm]

/-! ### Literals -/

/-- The ends of a line. -/
def lineEnds : List Char := ['\n', '\r', '\u2028', '\u2029']

/-- Hexadecimal digits. -/
def isHexDigit (c : Char) : Bool :=
  c.isDigit || 'a' ≤ c && c ≤ 'f' || 'A' ≤ c && c ≤ 'F'

/-- Octal digits. -/
def isOctDigit (c : Char) : Bool := '0' ≤ c && c ≤ '7'

/-- The value of a digit. -/
def digitValue (c : Char) : ℕ :=
  if c.isDigit then c.toNat - '0'.toNat
  else if 'a' ≤ c then c.toNat - 'a'.toNat + 10
  else c.toNat - 'A'.toNat + 10

/-- The number that digits write. -/
def number (base : ℕ) (digits : List Char) : ℕ :=
  digits.foldl (fun n c => base * n + digitValue c) 0

/-- An escape of `n` hexadecimal digits, behind a letter. -/
def hexEscape (n : ℕ) (cs : List Char) : Option (List ℕ × ℕ) :=
  if (cs.take n).length = n ∧ (cs.take n).all isHexDigit then
    some ([number 16 (cs.take n)], n + 1)
  else none

/-- The escape of a code point in braces. -/
def braceEscape (cs : List Char) : Option (List ℕ × ℕ) :=
  let digits := cs.takeWhile isHexDigit
  if digits ≠ [] ∧ number 16 digits < 0x110000
      ∧ (cs.drop digits.length).head? = some '\x7d' then
    some (codePoint (number 16 digits), digits.length + 3)
  else none

/-- An octal escape: at most three digits, and a value below 256. -/
def octEscape (c : Char) (cs : List Char) : List ℕ × ℕ :=
  let digits := (cs.take (if c ≤ '3' then 2 else 1)).takeWhile isOctDigit
  ([number 8 (c :: digits)], digits.length + 1)

/-- The escape of one character. -/
def singleEscape : Char → List ℕ
  | 'b' => [8]
  | 't' => [9]
  | 'n' => [10]
  | 'v' => [11]
  | 'f' => [12]
  | 'r' => [13]
  | c => units c

/-- What is escaped by a backslash: the units it stands for, and how many characters behind
the backslash belong to it. -/
def escape : List Char → Option (List ℕ × ℕ)
  | [] => none
  | 'x' :: cs => hexEscape 2 cs
  | 'u' :: '\x7b' :: cs => braceEscape cs
  | 'u' :: cs => hexEscape 4 cs
  -- a line continuation
  | '\r' :: '\n' :: _ => some ([], 2)
  | c :: cs =>
      if c ∈ lineEnds then some ([], 1)
      else if isOctDigit c then some (octEscape c cs)
      else some (singleEscape c, 1)

/-- A part of a literal and what follows it. -/
def prepend (us : List ℕ) (rest : Option (List ℕ × List Char)) : Option (List ℕ × List Char) :=
  rest.map fun r => (us ++ r.1, r.2)

theorem prepend_eq_some_iff {us vs : List ℕ} {o : Option (List ℕ × List Char)}
    {rest : List Char} :
    prepend us o = some (vs, rest) ↔ ∃ ws, o = some (ws, rest) ∧ us ++ ws = vs := by
  cases o with
  | none => simp [prepend]
  | some r =>
    obtain ⟨ws, rest'⟩ := r
    simp only [prepend, Option.map_some, Option.some.injEq, Prod.mk.injEq]
    constructor
    · rintro ⟨h, rfl⟩
      exact ⟨ws, ⟨rfl, rfl⟩, h⟩
    · rintro ⟨ws, ⟨rfl, rfl⟩, h⟩
      exact ⟨h, rfl⟩

/-- A string literal, from behind its opening quote on, the first characters passed over:
what it stands for, and the text behind it. -/
def literal (q : Char) : List Char → ℕ → Option (List ℕ × List Char)
  | [], _ => none
  | _ :: cs, n + 1 => literal q cs n
  | c :: cs, 0 =>
      if c = q then some ([], cs)
      else if c = '\\' then
        match escape cs with
        | none => none
        | some (us, n) => prepend us (literal q cs n)
      else if c = '\n' ∨ c = '\r' then none
      else prepend (units c) (literal q cs 0)

/-- The number of characters other than the quote. -/
def weight (q : Char) (cs : List Char) : ℕ := cs.countP (· ≠ q)

section

variable {q : Char}

@[simp] theorem weight_nil : weight q [] = 0 := rfl

@[simp] theorem weight_append (cs ds : List Char) :
    weight q (cs ++ ds) = weight q cs + weight q ds := List.countP_append ..

@[simp] theorem weight_quote (cs : List Char) : weight q (q :: cs) = weight q cs :=
  List.countP_cons_of_neg (by simp)

theorem weight_cons {c : Char} (h : c ≠ q) (cs : List Char) :
    weight q (c :: cs) = weight q cs + 1 :=
  List.countP_cons_of_pos (by simpa using h)

theorem weight_sublist {cs ds : List Char} (h : cs.Sublist ds) :
    weight q cs ≤ weight q ds := h.countP_le

theorem hexEscape_le {k n : ℕ} {cs : List Char} {us : List ℕ}
    (h : hexEscape k cs = some (us, n)) : 1 ≤ n ∧ leads us ≤ 1 := by
  unfold hexEscape at h
  split_ifs at h
  obtain ⟨rfl, rfl⟩ := Prod.mk.inj (Option.some.inj h)
  exact ⟨Nat.succ_pos _, leads_singleton_le _⟩

theorem braceEscape_le {n : ℕ} {cs : List Char} {us : List ℕ}
    (h : braceEscape cs = some (us, n)) : 1 ≤ n ∧ leads us ≤ 1 := by
  unfold braceEscape at h
  simp only at h
  split_ifs at h
  obtain ⟨rfl, rfl⟩ := Prod.mk.inj (Option.some.inj h)
  exact ⟨Nat.succ_pos _, leads_codePoint_le _⟩

theorem leads_singleEscape_le (c : Char) : leads (singleEscape c) ≤ 1 := by
  unfold singleEscape
  split
  all_goals first
    | exact leads_singleton_le _
    | exact (leads_units _).le

/-- **An escape** has at least one character, and it stands for one at most. -/
theorem escape_le {cs : List Char} {us : List ℕ} {n : ℕ} (h : escape cs = some (us, n)) :
    1 ≤ n ∧ leads us ≤ 1 := by
  unfold escape at h
  split at h
  · exact absurd h (by simp)
  · exact hexEscape_le h
  · exact braceEscape_le h
  · exact hexEscape_le h
  · obtain ⟨rfl, rfl⟩ := Prod.mk.inj (Option.some.inj h)
    exact ⟨by decide, Nat.zero_le _⟩
  · split_ifs at h
    · obtain ⟨rfl, rfl⟩ := Prod.mk.inj (Option.some.inj h)
      exact ⟨le_rfl, Nat.zero_le _⟩
    · obtain ⟨rfl, rfl⟩ := Prod.mk.inj (Option.some.inj h)
      exact ⟨Nat.succ_pos _, leads_singleton_le _⟩
    · obtain ⟨rfl, rfl⟩ := Prod.mk.inj (Option.some.inj h)
      exact ⟨Nat.le_refl 1, leads_singleEscape_le _⟩

/-- **What a literal stands for** is no longer than it is written. -/
theorem literal_le {cs rest : List Char} {us : List ℕ} {n : ℕ}
    (h : literal q cs n = some (us, rest)) :
    leads us + weight q rest ≤ weight q (cs.drop n) := by
  induction cs generalizing n us with
  | nil => exact absurd h (by simp [literal])
  | cons c cs ih =>
    cases n with
    | succ n => exact ih h
    | zero =>
      rw [literal] at h
      rw [List.drop_zero]
      split_ifs at h with hc hslash hend
      · obtain ⟨rfl, rfl⟩ := Prod.mk.inj (Option.some.inj h)
        rw [hc, weight_quote]
        exact (Nat.zero_add _).le
      · rw [weight_cons hc]
        cases hesc : escape cs with
        | none => simp [hesc] at h
        | some e =>
          obtain ⟨es, k⟩ := e
          rw [hesc] at h
          obtain ⟨vs, hlit, rfl⟩ := prepend_eq_some_iff.mp h
          have hle := ih hlit
          have hes := (escape_le hesc).2
          have hdrop := weight_sublist (q := q) (List.drop_sublist k cs)
          rw [leads_append]
          omega
      · rw [weight_cons hc]
        obtain ⟨vs, hlit, rfl⟩ := prepend_eq_some_iff.mp h
        have hle := ih hlit
        rw [List.drop_zero] at hle
        rw [leads_append, leads_units]
        omega

/-- An escape of anything but the quote costs more than it stands for. -/
theorem literal_lt (hquote : q ≠ '\\') {c : Char} (hc : c ≠ q) {cs rest : List Char}
    {us : List ℕ} (h : literal q ('\\' :: c :: cs) 0 = some (us, rest)) :
    leads us + weight q rest < weight q ('\\' :: c :: cs) := by
  rw [literal, if_neg hquote.symm, if_pos rfl] at h
  cases hesc : escape (c :: cs) with
  | none => simp [hesc] at h
  | some e =>
    obtain ⟨es, k⟩ := e
    rw [hesc] at h
    obtain ⟨vs, hlit, rfl⟩ := prepend_eq_some_iff.mp h
    obtain ⟨hk, hes⟩ := escape_le hesc
    obtain ⟨k, rfl⟩ : ∃ j, k = j + 1 := ⟨k - 1, by omega⟩
    have hle := literal_le hlit
    rw [List.drop_succ_cons] at hle
    have hdrop := weight_sublist (q := q) (List.drop_sublist k cs)
    rw [leads_append, weight_cons hquote.symm, weight_cons hc]
    omega

end

/-! ### Escaped quotes -/

/-- A backslash before every quote. -/
def escapeQuotes (cs : List Char) : List Char :=
  cs.flatMap fun c => if c = '\'' then ['\\', '\''] else [c]

/-- The characters that stand for themselves in a literal. -/
def Plain (c : Char) : Prop := c ≠ '\\' ∧ c ≠ '\n' ∧ c ≠ '\r'

instance (c : Char) : Decidable (Plain c) := inferInstanceAs (Decidable (_ ∧ _ ∧ _))

@[simp] theorem escapeQuotes_nil : escapeQuotes [] = [] := rfl

@[simp] theorem escapeQuotes_quote (cs : List Char) :
    escapeQuotes ('\'' :: cs) = '\\' :: '\'' :: escapeQuotes cs := rfl

theorem escapeQuotes_cons {c : Char} (h : c ≠ '\'') (cs : List Char) :
    escapeQuotes (c :: cs) = c :: escapeQuotes cs := by
  unfold escapeQuotes
  rw [List.flatMap_cons, if_neg h]
  rfl

theorem escapeQuotes_append (cs ds : List Char) :
    escapeQuotes (cs ++ ds) = escapeQuotes cs ++ escapeQuotes ds := List.flatMap_append

/-- Nothing but backslashes is added. -/
theorem mem_of_mem_escapeQuotes {c : Char} (hc : c ≠ '\\') {cs : List Char}
    (h : c ∈ escapeQuotes cs) : c ∈ cs := by
  obtain ⟨d, hd, hcd⟩ := List.mem_flatMap.mp h
  split_ifs at hcd with hquote
  · rw [List.mem_cons, or_iff_right hc, List.mem_singleton] at hcd
    rwa [hcd, ← hquote]
  · rwa [List.mem_singleton.mp hcd]

/-- The backslashes that were added take the places of the quotes. -/
theorem weight_escapeQuotes (cs : List Char) : weight '\'' (escapeQuotes cs) = cs.length := by
  induction cs with
  | nil => rfl
  | cons c cs ih =>
    by_cases h : c = '\''
    · rw [h, escapeQuotes_quote, weight_cons (by decide), weight_quote, ih, List.length_cons]
    · rw [escapeQuotes_cons h, weight_cons h, ih, List.length_cons]

/-- A quote that is escaped belongs to the literal. -/
theorem literal_escaped (cs : List Char) :
    literal '\'' ('\\' :: '\'' :: cs) 0 = prepend (units '\'') (literal '\'' cs 0) := rfl

/-- So does a plain character. -/
theorem literal_plain {c : Char} (hc : c ≠ '\'') (h : Plain c) (cs : List Char) :
    literal '\'' (c :: cs) 0 = prepend (units c) (literal '\'' cs 0) := by
  rw [literal, if_neg hc, if_neg h.1, if_neg (not_or.mpr h.2)]

/-- **A plain text is read back**, its quotes escaped. -/
theorem literal_escapeQuotes {cs : List Char} (h : ∀ c ∈ cs, Plain c) (rest : List Char) :
    literal '\'' (escapeQuotes cs ++ '\'' :: rest) 0 = some (ofChars cs, rest) := by
  induction cs with
  | nil => rfl
  | cons c cs ih =>
    rw [List.forall_mem_cons] at h
    by_cases hc : c = '\''
    · rw [hc, escapeQuotes_quote, List.cons_append, List.cons_append, literal_escaped, ih h.2]
      rfl
    · rw [escapeQuotes_cons hc, List.cons_append, literal_plain hc h.1, ih h.2]
      rfl

/-- **No other text is**: what is read back in its full length, before a parenthesis, is
plain. -/
theorem plain_of_literal {cs rest : List Char} {us : List ℕ}
    (h : literal '\'' (escapeQuotes cs ++ ['\'', ')']) 0 = some (us, rest))
    (hrest : 0 < weight '\'' rest) (hlen : cs.length ≤ leads us) : ∀ c ∈ cs, Plain c := by
  induction cs generalizing us with
  | nil => exact fun c hc => absurd hc List.not_mem_nil
  | cons c cs ih =>
    rw [List.length_cons] at hlen
    by_cases hquote : c = '\''
    · rw [hquote, escapeQuotes_quote, List.cons_append, List.cons_append, literal_escaped] at h
      obtain ⟨vs, hlit, rfl⟩ := prepend_eq_some_iff.mp h
      rw [leads_append, leads_units] at hlen
      exact List.forall_mem_cons.mpr ⟨by rw [hquote]; decide, ih hlit (by omega)⟩
    by_cases hslash : c = '\\'
    -- the backslash escapes what is next, and less is read than was written
    · exfalso
      rw [escapeQuotes_cons hquote, hslash, List.cons_append] at h
      cases cs with
      | nil =>
        have hnone : literal '\'' ['\\', '\'', ')'] 0 = none := rfl
        exact absurd (hnone.symm.trans h) (by simp)
      | cons d cs =>
        obtain ⟨e, ds, he, heq⟩ : ∃ e ds, e ≠ '\'' ∧ escapeQuotes (d :: cs) = e :: ds := by
          by_cases hd : d = '\''
          · exact ⟨'\\', '\'' :: escapeQuotes cs, by decide, by rw [hd, escapeQuotes_quote]⟩
          · exact ⟨d, escapeQuotes cs, hd, escapeQuotes_cons hd cs⟩
        have hweight := weight_escapeQuotes (d :: cs)
        rw [heq] at h hweight
        rw [List.cons_append] at h
        have hlt := literal_lt (by decide) he h
        rw [weight_cons (by decide), ← List.cons_append, weight_append, hweight, weight_quote,
          weight_cons (by decide), weight_nil] at hlt
        omega
    · have hend : ¬(c = '\n' ∨ c = '\r') := by
        intro hend
        rw [escapeQuotes_cons hquote, List.cons_append, literal, if_neg hquote, if_neg hslash,
          if_pos hend] at h
        exact absurd h (by simp)
      have hplain : Plain c := ⟨hslash, not_or.mp hend⟩
      rw [escapeQuotes_cons hquote, List.cons_append, literal_plain hquote hplain] at h
      obtain ⟨vs, hlit, rfl⟩ := prepend_eq_some_iff.mp h
      rw [leads_append, leads_units] at hlen
      exact List.forall_mem_cons.mpr ⟨hplain, ih hlit (by omega)⟩

/-! ### Calls -/

/-- White space within a line. -/
def blanks : List Char :=
  ['\t', '\x0b', '\x0c', ' ', '\u00a0', '\u1680', '\u2000', '\u2001', '\u2002', '\u2003', '\u2004',
    '\u2005', '\u2006', '\u2007', '\u2008', '\u2009', '\u200a', '\u202f', '\u205f', '\u3000',
    '\ufeff']

/-- White space. -/
def isSpace (c : Char) : Bool := c ∈ lineEnds ++ blanks

/-- What a name is made of. -/
def isNameChar (c : Char) : Bool := c.isAlphanum || c = '$' || c = '_'

/-- A name does not begin with a digit. -/
def isName (cs : List Char) : Bool := cs.all isNameChar && cs.head?.any fun c => !c.isDigit

/-- Where in what is passed over a character stands. -/
inductive Place
  /-- Outside of a comment. -/
  | code
  /-- In a comment that ends with its line. -/
  | line
  /-- In a comment that ends with a mark. -/
  | block

/-- The text behind comments and characters that are passed over: there is none when a
comment does not end. -/
def trivia (skips : Char → Bool) : Place → List Char → Option (List Char)
  | .code, [] => some []
  | .code, '/' :: '/' :: cs => trivia skips .line cs
  | .code, '/' :: '*' :: cs => trivia skips .block cs
  | .code, c :: cs => if skips c then trivia skips .code cs else some (c :: cs)
  | .line, [] => some []
  | .line, c :: cs => trivia skips (if c ∈ lineEnds then .code else .line) cs
  | .block, [] => none
  | .block, '*' :: '/' :: cs => trivia skips .code cs
  | .block, _ :: cs => trivia skips .block cs

/-- The text behind white space and comments. -/
def skipSpace (cs : List Char) : Option (List Char) := trivia isSpace .code cs

/-- The text behind a comma, which may stand behind the last argument. -/
def skipComma (cs : List Char) : Option (List Char) :=
  match skipSpace cs with
  | some (',' :: cs) => skipSpace cs
  | r => r

/-- The end of a call, with nothing but semicolons behind it. -/
def closes (cs : List Char) : Bool :=
  match skipComma cs with
  | some (')' :: cs) => trivia (fun c => isSpace c || c = ';') .code cs == some []
  | _ => false

/-- A literal and the end of a call. -/
def argument (cs : List Char) : Option (List ℕ) :=
  match skipSpace cs with
  | some (c :: cs) =>
      if c = '\'' ∨ c = '"' then
        (literal c cs 0).bind fun r => if closes r.2 then some r.1 else none
      else none
  | _ => none

/-- **A single call**: the name of the function and its argument. -/
def call (cs : List Char) : Option (List Char × List ℕ) :=
  (skipSpace cs).bind fun cs =>
    let name := cs.takeWhile isNameChar
    if isName name then
      match skipSpace (cs.drop name.length) with
      | some ('(' :: cs) => (argument cs).map fun us => (name, us)
      | _ => none
    else none

/-- What is not passed over is the end of the text. -/
theorem trivia_suffix {skips : Char → Bool} {p : Place} {cs rest : List Char}
    (h : trivia skips p cs = some rest) : rest <:+ cs := by
  fun_induction trivia skips p cs with
  | case1 => exact Option.some.inj h ▸ List.suffix_refl _
  | case2 cs ih => exact (ih h).trans ⟨['/', '/'], rfl⟩
  | case3 cs ih => exact (ih h).trans ⟨['/', '*'], rfl⟩
  | case4 c cs _ _ hskip ih => exact (ih h).trans (List.suffix_cons c cs)
  | case5 c cs _ _ hskip => exact Option.some.inj h ▸ List.suffix_refl _
  | case6 => exact Option.some.inj h ▸ List.suffix_refl _
  | case7 c cs ih => exact (ih h).trans (List.suffix_cons c cs)
  | case8 => exact absurd h (by simp)
  | case9 cs ih => exact (ih h).trans ⟨['*', '/'], rfl⟩
  | case10 c cs _ ih => exact (ih h).trans (List.suffix_cons c cs)

/-- A call that is closed has its parenthesis. -/
theorem mem_of_closes {cs : List Char} (h : closes cs = true) : ')' ∈ cs := by
  unfold closes at h
  split at h
  · next heq =>
    unfold skipComma at heq
    split at heq
    · next hcomma =>
      have hrest := (trivia_suffix heq).subset List.mem_cons_self
      exact (trivia_suffix hcomma).subset (List.mem_cons_of_mem _ hrest)
    · exact (trivia_suffix heq).subset List.mem_cons_self
  · exact absurd h (by simp)

/-- What is no space and begins no comment is not passed over. -/
theorem skipSpace_cons {c : Char} (hspace : isSpace c = false) (hslash : c ≠ '/')
    (cs : List Char) : skipSpace (c :: cs) = some (c :: cs) := by
  rw [skipSpace, trivia, hspace]
  · rfl
  · exact fun _ heq _ => absurd heq hslash
  · exact fun _ heq _ => absurd heq hslash

/-- A character of a name is neither. -/
theorem isSpace_of_isNameChar {c : Char} (h : isNameChar c = true) :
    isSpace c = false ∧ c ≠ '/' := by
  have hne : ∀ d : Char, isNameChar d = false → c ≠ d := by
    rintro d hd rfl
    rw [hd] at h
    exact Bool.noConfusion h
  refine ⟨decide_eq_false fun hmem => ?_, hne '/' rfl⟩
  have hspaces : (lineEnds ++ blanks).any isNameChar = false := by decide
  exact hne c (Bool.eq_false_iff.mpr (List.any_eq_false.mp hspaces c hmem)) rfl

theorem isNameChar_of_isName {name : List Char} (h : isName name = true) :
    ∀ c ∈ name, isNameChar c = true := List.all_eq_true.mp (Bool.and_eq_true_iff.mp h).1

/-- **How a call is read** whose argument begins with a single quote. -/
theorem call_eq {name : List Char} (hname : isName name = true) (cs : List Char) :
    call (name ++ '(' :: '\'' :: cs)
      = (literal '\'' cs 0).bind fun r => if closes r.2 then some (name, r.1) else none := by
  have hchars := isNameChar_of_isName hname
  have hwhole : skipSpace (name ++ '(' :: '\'' :: cs) = some (name ++ '(' :: '\'' :: cs) := by
    cases name with
    | nil => exact absurd hname (by decide)
    | cons c name =>
      have hc := isSpace_of_isNameChar (hchars c List.mem_cons_self)
      exact skipSpace_cons hc.1 hc.2 _
  have htake : (name ++ '(' :: '\'' :: cs).takeWhile isNameChar = name := by
    rw [List.takeWhile_append_of_pos hchars, List.takeWhile_cons_of_neg (by decide),
      List.append_nil]
  have hopen : skipSpace ('(' :: '\'' :: cs) = some ('(' :: '\'' :: cs) :=
    skipSpace_cons (by decide) (by decide) _
  have hquote : skipSpace ('\'' :: cs) = some ('\'' :: cs) :=
    skipSpace_cons (by decide) (by decide) _
  have hargument : argument ('\'' :: cs)
      = (literal '\'' cs 0).bind fun r => if closes r.2 then some r.1 else none := by
    rw [argument, hquote]
    exact if_pos (.inl rfl)
  unfold call
  simp only [hwhole, Option.bind_some, htake, hname, if_true, List.drop_left, hopen, hargument]
  cases literal '\'' cs 0 with
  | none => rfl
  | some r =>
    simp only [Option.bind_some]
    split_ifs <;> rfl

/-- The literal of a call, with the parenthesis behind it. -/
theorem literal_of_call {name name' cs : List Char} {us : List ℕ} (hname : isName name = true)
    (h : call (name ++ '(' :: '\'' :: cs) = some (name', us)) :
    ∃ rest, literal '\'' cs 0 = some (us, rest) ∧ 0 < weight '\'' rest := by
  rw [call_eq hname] at h
  obtain ⟨⟨vs, rest⟩, hlit, hcloses⟩ := Option.bind_eq_some_iff.mp h
  simp only at hcloses
  split_ifs at hcloses with hclosed
  obtain ⟨-, rfl⟩ := Prod.mk.inj (Option.some.inj hcloses)
  exact ⟨rest, hlit, List.countP_pos_iff.mpr ⟨')', mem_of_closes hclosed, by decide⟩⟩

/-- A plain text is the argument of the call it is written into. -/
theorem call_escapeQuotes {name cs : List Char} (hname : isName name = true)
    (h : ∀ c ∈ cs, Plain c) :
    call (name ++ '(' :: '\'' :: (escapeQuotes cs ++ ['\'', ')'])) = some (name, ofChars cs) := by
  rw [call_eq hname, literal_escapeQuotes h]
  rfl

end Js
