import WifiRepeater.Lib.Html.Steps

/-!
# Text in markup

Text is put between tags as it is.  It comes out as the same characters exactly when
nothing in it begins a tag, a comment or a character reference; and where something does,
characters are missing, whatever follows: what is read as part of a tag or of a reference is
not emitted, and a tag of the markup ends with the `>` at its end, in whatever state it is
read.

## Main definitions

* `IsTag` — how a tag is written.
* `Rules.inert` — a text in which nothing begins.

## Main results

* `bound_markup` — no character comes out of a tag, in whatever state it is read.
* `run_inert` — inert text comes out as it is.
* `bound_of_not_inert` — **text that is not inert yields fewer characters than it has.**
-/

namespace Html

variable {R : Rules}

/-! ### Tags -/

/-- How a tag is written: in brackets, beginning as a start tag or an end tag does. -/
def IsTag (markup : List Char) : Prop :=
  ∃ d body, markup = '<' :: d :: (body ++ ['>']) ∧ (d.isAlpha = true ∨ d = '/') ∧
    ∀ c ∈ d :: body, c ≠ '>' ∧ c ≠ '&'

/-- Inside a tag or a comment nothing comes out of characters before the next `>`. -/
theorem bound_inside {tail : List Char} {k : ℕ}
    (h : ∀ s : State, s.Reading → Bound R (s.pending + k) s tail) (body : List Char)
    (hbody : ∀ c ∈ body, c ≠ '>' ∧ c ≠ '&') {s : State} (hs : s.inside = true) :
    Bound R k s (body ++ '>' :: tail) := by
  induction body generalizing s with
  | nil =>
    have hstep := inside_step (R := R) hs '>' tail
    refine (bound_cons (reading_of_inside hs) hstep.quiet.own fun hnext => ?_).mono
      (by rw [hstep.quiet.tokens, Nat.zero_add])
    rw [hstep.skip (by decide), List.drop_zero]
    simpa only [hstep.quiet.pending, Nat.zero_add] using h _ hnext
  | cons c body ih =>
    obtain ⟨hgt, hamp⟩ := hbody c List.mem_cons_self
    have hstep := inside_step (R := R) hs c (body ++ '>' :: tail)
    refine (bound_cons (reading_of_inside hs) hstep.quiet.own fun _ => ?_).mono
      (by rw [hstep.quiet.tokens, Nat.zero_add])
    rw [hstep.skip hamp, List.drop_zero]
    exact ih (fun d hd => hbody d (List.mem_cons_of_mem _ hd)) (hstep.stays hgt).2

/-- Whatever state a tag is read in, no character comes out of it. -/
theorem bound_markup {tail : List Char} {k : ℕ}
    (h : ∀ s : State, s.Reading → Bound R (s.pending + k) s tail) {markup : List Char}
    (hm : IsTag markup) (s : State) (hs : s.Reading) :
    Bound R (s.pending + k) s (markup ++ tail) := by
  obtain ⟨d, body, rfl, hd, hbody⟩ := hm
  have hsplit : '<' :: d :: (body ++ ['>']) ++ tail = '<' :: d :: (body ++ '>' :: tail) := by
    simp
  rw [hsplit]
  have hinside : ∀ s : State, s.inside = true →
      Bound R k s ('<' :: d :: (body ++ '>' :: tail)) := fun s hs =>
    bound_inside h ('<' :: d :: body) (List.forall_mem_cons.mpr ⟨by decide, hbody⟩) hs
  have hopen : Bound R k .tagOpen (d :: (body ++ '>' :: tail)) := by
    obtain ⟨s', hs', hstep⟩ : ∃ s' : State, s'.inside = true ∧
        step R .tagOpen d (body ++ '>' :: tail) = goto s' := by
      rw [step]
      rcases hd with hd | rfl
      · have hbang : d ≠ '!' := fun heq => absurd hd (by rw [heq]; decide)
        have hslash : d ≠ '/' := fun heq => absurd hd (by rw [heq]; decide)
        rw [if_neg hbang, if_neg hslash, if_pos hd]
        exact ⟨_, rfl, rfl⟩
      · exact ⟨.endTagOpen, rfl, rfl⟩
    have hbody' : ∀ c ∈ body, c ≠ '>' ∧ c ≠ '&' := fun c hc => hbody c (List.mem_cons_of_mem _ hc)
    exact bound_goto (reading_of rfl) hstep (reading_of_inside hs') (bound_inside h body hbody' hs')
  cases s with
  | content name => exact absurd rfl (hs name)
  | endTagOpen => exact (hinside _ rfl).mono (Nat.le_add_left _ _)
  | tag | comment | bogusComment | doctype =>
    exact (hinside _ rfl).mono (Nat.le_add_left _ _)
  | data =>
    exact (bound_goto hs rfl (reading_of rfl) hopen).mono (Nat.le_add_left _ _)
  | tagOpen =>
    -- the bracket that was held back was a character
    exact bound_cons (k := k) hs (.inl (reading_of rfl)) fun _ => hopen
  | markupDeclaration =>
    refine (bound_goto hs rfl (reading_of rfl) ?_).mono (Nat.le_add_left _ _)
    exact bound_inside h (d :: body) hbody rfl

/-! ### Inert text -/

/-- What begins a tag or a comment behind `<`. -/
def opensMarkup (d : Char) : Bool := d.isAlpha || d = '/' || d = '!' || d = '?'

/-- Nothing in the text begins a tag, a comment or a character reference. -/
def Rules.inert (R : Rules) : List Char → Bool
  | [] => true
  | c :: cs =>
      !(c = '<' && cs.head?.any opensMarkup) && (R.reference c cs).isNone && R.inert cs

/-- A text without the two characters that begin anything. -/
def NoMarkup (text : List Char) : Prop := ∀ c ∈ text, c ≠ '<' ∧ c ≠ '&'

instance (text : List Char) : Decidable (NoMarkup text) := List.decidableBAll _ text

theorem inert_of_noMarkup {text : List Char} (h : NoMarkup text) : R.inert text = true := by
  induction text with
  | nil => rfl
  | cons c text ih =>
    obtain ⟨hopen, hamp⟩ := h c List.mem_cons_self
    rw [Rules.inert, Rules.reference, if_neg hamp, ih fun d hd => h d (List.mem_cons_of_mem _ hd)]
    simp [hopen]

theorem NoMarkup.append {a b : List Char} (ha : NoMarkup a) (hb : NoMarkup b) :
    NoMarkup (a ++ b) := List.forall_mem_append.mpr ⟨ha, hb⟩

theorem NoMarkup.take {text : List Char} (h : NoMarkup text) (n : ℕ) :
    NoMarkup (text.take n) := fun c hc => h c (List.mem_of_mem_take hc)

/-- A bracket that opens nothing is a character. -/
theorem run_tagOpen {cs : List Char} (h : cs.head?.any opensMarkup = false) :
    run R cs 0 .tagOpen = .char '<' :: run R cs 0 .data := by
  cases cs with
  | nil => rfl
  | cons d cs =>
    have hd : opensMarkup d = false := h
    simp only [opensMarkup, Bool.or_eq_false_iff, decide_eq_false_iff_not] at hd
    obtain ⟨⟨⟨halpha, hslash⟩, hbang⟩, hmark⟩ := hd
    rw [run_cons (reading_of rfl), run_cons (reading_of rfl)]
    have hstep : step R .tagOpen d cs = ⟨.char '<' :: (dataStep R d cs).tokens,
        (dataStep R d cs).skip, (dataStep R d cs).state⟩ := by
      rw [step, if_neg hbang, if_neg hslash, if_neg (by simp [halpha]), if_neg hmark]
    rw [hstep]
    rfl

/-- A character that begins nothing comes out. -/
theorem run_char {c : Char} {cs : List Char} (hopen : c = '<' → cs.head?.any opensMarkup = false)
    (href : R.reference c cs = none) :
    run R (c :: cs) 0 .data = .char c :: run R cs 0 .data := by
  rw [run_cons (reading_of rfl)]
  by_cases hc : c = '<'
  · rw [step, dataStep, if_pos hc, hc, ← run_tagOpen (hopen hc)]
    rfl
  · rw [step, dataStep, if_neg hc, href]
    rfl

theorem reference_append_markup (c : Char) (cs : List Char) {tail : List Char}
    (htail : IsMarkup tail) : R.reference c (cs ++ tail) = R.reference c cs := by
  rw [Rules.reference, Rules.reference, takeWhile_append_markup rfl cs htail]

/-- The markup behind a text does not make its last bracket open anything. -/
theorem opensMarkup_append_markup (cs : List Char) {tail : List Char} (htail : IsMarkup tail) :
    (cs ++ tail).head?.any opensMarkup = cs.head?.any opensMarkup := by
  cases cs with
  | nil =>
    have htail : tail.head? = some '<' := htail
    rw [List.nil_append, htail]
    rfl
  | cons c cs => rfl

/-- **Inert text comes out as it is.** -/
theorem run_inert {tail : List Char} (htail : IsMarkup tail) (text : List Char)
    (h : R.inert text = true) :
    run R (text ++ tail) 0 .data = text.map .char ++ run R tail 0 .data := by
  induction text with
  | nil => rfl
  | cons c text ih =>
    rw [Rules.inert, Bool.and_eq_true, Bool.and_eq_true, Bool.not_eq_true',
      Option.isNone_iff_eq_none] at h
    obtain ⟨⟨hopen, href⟩, hrest⟩ := h
    rw [List.cons_append, run_char, ih hrest, List.map_cons, List.cons_append]
    · intro hc
      rw [opensMarkup_append_markup text htail]
      simpa [hc] using hopen
    · rw [reference_append_markup c text htail, href]

/-- A text without brackets yields characters, whatever references are in it. -/
theorem run_of_noBracket {tail : List Char} (htail : IsMarkup tail) {text : List Char}
    (h : '<' ∉ text) : ∀ n ≤ text.length,
      ∃ cs : List Char, run R (text ++ tail) n .data = cs.map .char ++ run R tail 0 .data := by
  induction text with
  | nil =>
    intro n hn
    obtain rfl := Nat.le_zero.mp hn
    exact ⟨[], rfl⟩
  | cons c text ih =>
    rw [List.mem_cons, not_or] at h
    intro n hn
    cases n with
    | succ n => exact ih h.2 n (Nat.le_of_succ_le_succ hn)
    | zero =>
      have hrun : run R (c :: text ++ tail) 0 .data = (dataStep R c (text ++ tail)).tokens
          ++ run R (text ++ tail) (dataStep R c (text ++ tail)).skip
            (dataStep R c (text ++ tail)).state := rfl
      rw [hrun, dataStep, if_neg (Ne.symm h.1), reference_append_markup c text htail]
      cases href : R.reference c text with
      | none =>
        obtain ⟨cs, hcs⟩ := ih h.2 0 (Nat.zero_le _)
        exact ⟨c :: cs, congrArg (Token.char c :: ·) hcs⟩
      | some r =>
        -- a reference ends before the markup
        obtain ⟨cs, hcs⟩ := ih h.2 r.2 (reference_take href).2.1
        refine ⟨r.1 ++ cs, ?_⟩
        rw [List.map_append, List.append_assoc, ← hcs]

/-- A text that opens a tag or a comment yields less than its length. -/
theorem bound_of_opens {tail : List Char} (htail : IsMarkup tail) {k : ℕ}
    (h : ∀ s : State, s.Reading → Bound R (s.pending + k) s tail) {d : Char}
    (hd : opensMarkup d = true) (text : List Char) :
    Bound R (text.length + k) .tagOpen (d :: (text ++ tail)) := by
  -- in no state of a tag or a comment is a character held back
  have hgoto : ∀ s : State, s.Reading → s.pending = 0 →
      step R .tagOpen d (text ++ tail) = goto s →
        Bound R (text.length + k) .tagOpen (d :: (text ++ tail)) := by
    intro s hs hpending hstep
    have htext := bound_text htail h text s hs
    rw [hpending, Nat.zero_add] at htext
    exact bound_goto (reading_of rfl) hstep hs htext
  by_cases hbang : d = '!'
  · exact hgoto .markupDeclaration (reading_of rfl) rfl (by rw [step, if_pos hbang])
  by_cases hslash : d = '/'
  · have hstep : step R .tagOpen d (text ++ tail) = goto .endTagOpen := by
      rw [step, if_neg hbang, if_pos hslash]
    refine bound_goto (reading_of rfl) hstep (reading_of rfl) ?_
    cases text with
    | nil =>
      -- the markup behind the slash is read as in a comment
      obtain ⟨rest, rfl⟩ : ∃ rest, tail = '<' :: rest := List.head?_eq_some_iff.mp htail
      have hbogus : Bound R (0 + k) (.bogusComment []) ('<' :: rest) :=
        h (.bogusComment []) (reading_of rfl)
      exact hbogus
    | cons e text =>
      have hinside := inside_step (R := R) (s := .endTagOpen) rfl e (text ++ tail)
      have hle := le_length_of_ne htail hinside.skipsText.1 hinside.skipsText.2
      refine (bound_cons (k := text.length + k) (reading_of rfl)
        hinside.quiet.own fun hreading => ?_).mono
          (by rw [hinside.quiet.tokens, List.length_cons]; omega)
      rw [List.drop_append_of_le_length hle]
      have htext := bound_text htail h (text.drop (step R .endTagOpen e (text ++ tail)).skip) _
        hreading
      rw [hinside.quiet.pending, Nat.zero_add] at htext
      exact htext.mono (by rw [List.length_drop]; omega)
  by_cases halpha : d.isAlpha = true
  · exact hgoto (.tag ⟨false, [d.toLower], []⟩ .name) (reading_of rfl) rfl
      (by rw [step, if_neg hbang, if_neg hslash, if_pos halpha])
  · have hmark : d = '?' := by
      simpa [opensMarkup, hbang, hslash, halpha] using hd
    refine hgoto (.bogusComment ['?']) (reading_of rfl) rfl ?_
    rw [step, if_neg hbang, if_neg hslash, if_neg halpha, if_pos hmark, hmark]
    rfl

/-- **Text that is not inert** yields fewer characters than it has, whatever follows. -/
theorem bound_of_not_inert {tail : List Char} (htail : IsMarkup tail) {k : ℕ}
    (h : ∀ s : State, s.Reading → Bound R (s.pending + k) s tail) (text : List Char)
    (hinert : R.inert text = false) :
    ∃ n, n < text.length + k ∧ Bound R n .data (text ++ tail) := by
  induction text with
  | nil => exact absurd hinert (by simp [Rules.inert])
  | cons c text ih =>
    have hdata : State.data.Reading := reading_of rfl
    by_cases hopen : c = '<' ∧ text.head?.any opensMarkup = true
    · obtain ⟨rfl, hopen⟩ := hopen
      obtain ⟨d, rest, rfl⟩ : ∃ d rest, text = d :: rest := by
        cases text with
        | nil => exact absurd hopen (by simp)
        | cons d rest => exact ⟨d, rest, rfl⟩
      refine ⟨rest.length + k, by rw [List.length_cons, List.length_cons]; omega, ?_⟩
      exact bound_goto hdata rfl (reading_of rfl)
        (bound_of_opens htail h hopen rest)
    cases href : R.reference c text with
    | none =>
      have hrest : R.inert text = false := by
        rw [Rules.inert, href] at hinert
        by_cases hc : c = '<'
        · have hany : text.head?.any opensMarkup = false := by
            simpa using fun htrue => hopen ⟨hc, htrue⟩
          simpa [hc, hany] using hinert
        · simpa [hc] using hinert
      obtain ⟨n, hn, hbound⟩ := ih hrest
      refine ⟨n + 1, by rw [List.length_cons]; omega, ?_⟩
      rw [Bound, List.cons_append, run_char]
      · exact hbound.imp (fun h => h.append_left [_]) fun hle => by
          rw [countChars, List.countP_cons_of_pos rfl]
          exact Nat.succ_le_succ hle
      · intro hc
        rw [opensMarkup_append_markup text htail]
        simpa using fun htrue => hopen ⟨hc, htrue⟩
      · rw [reference_append_markup c text htail, href]
    | some r =>
      obtain ⟨chars, n⟩ := r
      obtain ⟨hchars, hle, -⟩ := reference_take href
      have hstep : step R .data c (text ++ tail) = ⟨chars.map .char, n, .data⟩ := by
        have hne : c ≠ '<' := by
          intro heq
          rw [Rules.reference, heq] at href
          exact absurd href (by simp)
        rw [step, dataStep, if_neg hne, reference_append_markup c text htail, href]
      have htext := bound_text htail h (text.drop n) .data hdata
      rw [← List.drop_append_of_le_length hle, State.pending, Nat.zero_add] at htext
      refine ⟨_, ?_, bound_of_step hdata hstep hdata htext⟩
      rw [countChars_map_char, List.length_drop, List.length_cons]
      omega

end Html
