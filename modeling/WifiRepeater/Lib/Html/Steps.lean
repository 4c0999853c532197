import Mathlib.Data.List.TakeWhile
import WifiRepeater.Lib.Html.Tokenizer

/-!
# What one character leads to

A character of a text brings out itself at most, beside what an unfinished tag or reference
held back; inside a tag or a comment nothing comes out before the next `>`.  What is said of
one step is summed up over the run: in whatever state a text is read, and whatever it holds,
no more characters come out of it than it has.

The one exception is the start tag of an element with rules of its own: what follows it is
not for the tokenizer to say, but the tag itself has come out.

## Main definitions

* `State.pending`, `State.inside` — what a state holds back, and where nothing comes out.
* `Step.Continues` — what a step in a tag makes of it.
* `Step.Inside`, `Step.FromText` — what a step brings out, in markup and anywhere.
* `Bound` — at most so many characters come out of a run, or such a start tag does.

## Main results

* `reference_take` — a reference is no longer than what it stands for.
* `continues_tagStep` — what a character in a tag leads to.
* `inside_step`, `fromText_step` — what the next character leads to.
* `bound_text` — **no text yields more characters than it has.**
-/

namespace Html

variable {R : Rules}

/-! ### What lies behind a text -/

/-- What begins with a bracket. -/
def IsMarkup (l : List Char) : Prop := l.head? = some '<'

/-- Characters before the next bracket lie before the markup. -/
theorem le_length_of_ne {l tail : List Char} (htail : IsMarkup tail) {n : ℕ}
    (hn : n ≤ (l ++ tail).length) (hne : ∀ c ∈ (l ++ tail).take n, c ≠ '<') : n ≤ l.length := by
  by_contra hlt
  obtain ⟨rest, rfl⟩ : ∃ rest, tail = '<' :: rest := List.head?_eq_some_iff.mp htail
  have hmem : '<' ∈ (l ++ '<' :: rest).take n := by
    obtain ⟨k, rfl⟩ : ∃ k, n = l.length + (k + 1) := ⟨n - l.length - 1, by omega⟩
    rw [List.take_length_add_append, List.take_succ_cons]
    simp
  exact hne _ hmem rfl

/-- What a predicate takes ends before a character that does not satisfy it. -/
theorem takeWhile_append_cons {p : Char → Bool} {d : Char} (hd : p d = false)
    (l tail : List Char) : (l ++ d :: tail).takeWhile p = l.takeWhile p := by
  induction l with
  | nil => simp [hd]
  | cons c l ih =>
    rw [List.cons_append, List.takeWhile_cons, List.takeWhile_cons, ih]

theorem takeWhile_append_markup {p : Char → Bool} (hp : p '<' = false) (l : List Char)
    {tail : List Char} (htail : IsMarkup tail) :
    (l ++ tail).takeWhile p = l.takeWhile p := by
  obtain ⟨rest, rfl⟩ : ∃ rest, tail = '<' :: rest := List.head?_eq_some_iff.mp htail
  exact takeWhile_append_cons hp l rest

/-! ### References -/

theorem numericReference_le {hex : Bool} {before n : ℕ} {rest text : List Char}
    (hbefore : 0 < before) (h : R.numericReference hex before rest = some (text, n)) :
    text.length ≤ n ∧ n ≤ before + rest.length := by
  unfold Rules.numericReference at h
  simp only at h
  by_cases hdigits : rest.takeWhile (isRefDigit hex) = []
  · rw [if_pos hdigits] at h
    exact absurd h (by simp)
  · rw [if_neg hdigits, Option.some.injEq, Prod.mk.injEq] at h
    obtain ⟨rfl, rfl⟩ := h
    have hle : (rest.takeWhile (isRefDigit hex)).length ≤ rest.length :=
      (List.takeWhile_sublist _).length_le
    refine ⟨by rw [List.length_singleton]; omega, ?_⟩
    split_ifs with hsemi
    -- the semicolon is a character behind the digits
    · have hpos : 0 < (rest.drop (rest.takeWhile (isRefDigit hex)).length).length := by
        rw [List.length_pos_iff]
        intro hnil
        rw [hnil] at hsemi
        exact absurd hsemi (by simp)
      rw [List.length_drop] at hpos
      omega
    · omega

/-- **A reference is no longer than what it stands for**, and no longer than the run of
characters it is found in. -/
theorem referenceOf_le {chars text : List Char} {n : ℕ}
    (h : R.referenceOf chars = some (text, n)) : text.length ≤ n ∧ n ≤ chars.length := by
  unfold Rules.referenceOf at h
  split at h
  · have := numericReference_le (by omega) h
    simp only [List.length_cons]
    omega
  · have := numericReference_le (by omega) h
    simp only [List.length_cons]
    omega
  · have := numericReference_le (by omega) h
    simp only [List.length_cons]
    omega
  · obtain ⟨e, he, heq⟩ := Option.map_eq_some_iff.mp h
    obtain ⟨rfl, rfl⟩ := Prod.mk.inj heq
    have hmem := List.argmax_mem he
    rw [List.mem_filter] at hmem
    have hlen := R.named_le e hmem.1
    exact ⟨by omega, (List.isPrefixOf_iff_prefix.mp hmem.2).length_le⟩

/-- A reference is made of the characters that references are made of. -/
theorem isRefChar_of_reference {c : Char} {cs text : List Char} {n : ℕ}
    (h : R.reference c cs = some (text, n)) : ∀ d ∈ cs.take n, isRefChar d = true := by
  unfold Rules.reference at h
  split_ifs at h
  have hpre : cs.takeWhile isRefChar <+: cs := List.takeWhile_prefix _
  have htake : cs.take n = (cs.takeWhile isRefChar).take n := by
    rw [List.prefix_iff_eq_take.mp hpre, List.take_take, min_eq_left (referenceOf_le h).2]
  intro d hd
  rw [htake] at hd
  exact List.mem_takeWhile_imp (List.mem_of_mem_take hd)

/-- A reference is made of characters other than brackets. -/
theorem reference_take {c : Char} {cs text : List Char} {n : ℕ}
    (h : R.reference c cs = some (text, n)) :
    text.length ≤ n ∧ n ≤ cs.length ∧ ∀ d ∈ cs.take n, d ≠ '<' := by
  have hchars := isRefChar_of_reference h
  unfold Rules.reference at h
  split_ifs at h
  obtain ⟨htext, hn⟩ := referenceOf_le h
  refine ⟨htext, hn.trans (List.takeWhile_prefix _).length_le, fun d hd => ?_⟩
  rintro rfl
  exact absurd (hchars _ hd) (by decide)

theorem reference_of_attrReference {c : Char} {cs : List Char} {r : List Char × ℕ}
    (h : R.attrReference c cs = some r) : R.reference c cs = some r :=
  (Option.filter_eq_some_iff.mp h).1

/-! ### What a character leads to -/

/-- The number of characters emitted. -/
def countChars (tokens : List Token) : ℕ :=
  tokens.countP fun
    | .char _ => true
    | _ => false

/-- The start tag of an element with rules of its own was emitted. -/
def HasOwn (tokens : List Token) : Prop :=
  ∃ name attrs, Token.startTag name attrs ∈ tokens ∧ name ∈ ownContent

/-- The characters that a state may still have to emit. -/
def State.pending : State → ℕ
  | .tagOpen => 1
  | .endTagOpen => 2
  | .data | .markupDeclaration | .tag .. | .comment .. | .bogusComment _ | .doctype _
  | .content _ => 0

/-- The states in which nothing is emitted before the next `>`. -/
def State.inside : State → Bool
  | .endTagOpen | .tag .. | .comment .. | .bogusComment _ | .doctype _ => true
  | .data | .tagOpen | .markupDeclaration | .content _ => false

/-- The rules of an element are entered behind its start tag only. -/
def State.Reading (s : State) : Prop := ∀ name, s ≠ .content name

/-- Whether the rules of an element are followed. -/
def State.own : State → Bool
  | .content _ => true
  | _ => false

theorem reading_of {s : State} (h : s.own = false) : s.Reading := by
  rintro name rfl
  exact Bool.noConfusion h

theorem reading_of_inside {s : State} (h : s.inside = true) : s.Reading := by
  rintro name rfl
  exact Bool.noConfusion h

/-- What is passed over lies before the next bracket. -/
def Step.SkipsText (r : Step) (cs : List Char) : Prop :=
  r.skip ≤ cs.length ∧ ∀ d ∈ cs.take r.skip, d ≠ '<'

/-- A step that emits no character. -/
structure Step.Quiet (r : Step) : Prop where
  /-- None is emitted. -/
  tokens : countChars r.tokens = 0
  /-- And none is held back. -/
  pending : r.state.pending = 0
  /-- The rules of an element are entered behind its start tag. -/
  own : r.state.Reading ∨ HasOwn r.tokens

/-- What a character inside a tag or a comment leads to. -/
structure Step.Inside (c : Char) (cs : List Char) (r : Step) : Prop where
  /-- No character is emitted. -/
  quiet : r.Quiet
  /-- What is passed over lies before the next bracket. -/
  skipsText : r.SkipsText cs
  /-- Nothing is complete before the next `>`. -/
  stays : c ≠ '>' → r.tokens = [] ∧ r.state.inside = true
  /-- Only a reference is passed over. -/
  skip : c ≠ '&' → r.skip = 0

theorem skipsText_zero {r : Step} (h : r.skip = 0) (cs : List Char) : r.SkipsText cs := by
  rw [Step.SkipsText, h]
  exact ⟨Nat.zero_le _, by simp⟩

/-- Another place in the same tag or comment. -/
theorem inside_goto {s : State} (hs : s.inside = true) (hpending : s.pending = 0) (c : Char)
    (cs : List Char) : (goto s).Inside c cs where
  quiet := ⟨rfl, hpending, .inl (reading_of_inside hs)⟩
  skipsText := skipsText_zero rfl cs
  stays _ := ⟨rfl, hs⟩
  skip _ := rfl

/-- The end of a tag. -/
theorem inside_emitTag (t : Tag) (cs : List Char) : (emitTag t).Inside '>' cs where
  quiet := by
    obtain ⟨isEnd, name, attrs⟩ := t
    unfold emitTag Tag.token
    cases isEnd with
    | true => exact ⟨rfl, rfl, .inl (reading_of rfl)⟩
    | false =>
      by_cases hown : name ∈ ownContent
      · refine ⟨rfl, by simp [hown, State.pending], .inr ⟨name, attrs, ?_, hown⟩⟩
        exact List.mem_singleton.mpr rfl
      · refine ⟨rfl, by simp [hown, State.pending], .inl fun name h => ?_⟩
        simp [hown] at h
  skipsText := skipsText_zero rfl cs
  stays h := absurd rfl h
  skip _ := rfl

/-- The end of a comment or a declaration. -/
theorem inside_emit {token : Token} (h : countChars [token] = 0) (cs : List Char) :
    Step.Inside '>' cs ⟨[token], 0, .data⟩ where
  quiet := ⟨h, rfl, .inl (reading_of rfl)⟩
  skipsText := skipsText_zero rfl cs
  stays h := absurd rfl h
  skip _ := rfl

/-- A reference in an attribute value. -/
theorem inside_reference {c : Char} {cs : List Char} {r : List Char × ℕ}
    (h : R.attrReference c cs = some r) (t : Tag) (place : TagState) :
    Step.Inside c cs ⟨[], r.2, .tag t place⟩ where
  quiet := ⟨rfl, rfl, .inl (reading_of rfl)⟩
  skipsText := (reference_take (reference_of_attrReference h)).2
  stays _ := ⟨rfl, rfl⟩
  skip hc := by
    have href := reference_of_attrReference h
    rw [Rules.reference, if_neg hc] at href
    exact absurd href (by simp)

/-- What a tag may become: no attribute of it is lost. -/
structure Tag.Extends (t t' : Tag) : Prop where
  /-- It is a start tag or an end tag for good. -/
  isEnd : t'.isEnd = t.isEnd
  /-- Attributes are added behind the others. -/
  attrs : t.attrs <+: t'.attrs

theorem Tag.Extends.refl (t : Tag) : t.Extends t := ⟨rfl, List.prefix_refl _⟩

theorem Tag.Extends.trans {t t' t'' : Tag} (h : t.Extends t') (h' : t'.Extends t'') :
    t.Extends t'' := ⟨h'.isEnd.trans h.isEnd, h.attrs.trans h'.attrs⟩

theorem Tag.extends_addAttr (t : Tag) (name value : List Char) :
    t.Extends (t.addAttr name value) := by
  unfold Tag.addAttr
  split_ifs
  · exact .refl t
  · exact ⟨rfl, List.prefix_append _ _⟩

theorem Tag.extends_name (t : Tag) (name : List Char) : t.Extends { t with name := name } :=
  ⟨rfl, List.prefix_refl _⟩

/-- What a character in a tag leads to. -/
inductive Step.Continues (R : Rules) (t : Tag) (c : Char) (cs : List Char) : Step → Prop
  /-- Another place in the tag. -/
  | moves {t' : Tag} (h : t.Extends t') (place : TagState) :
      Continues R t c cs (goto (.tag t' place))
  /-- Behind a reference in a value. -/
  | reference {r : List Char × ℕ} (h : R.attrReference c cs = some r) (place : TagState) :
      Continues R t c cs ⟨[], r.2, .tag t place⟩
  /-- The end of the tag. -/
  | ends {t' : Tag} (hc : c = '>') (h : t.Extends t') : Continues R t c cs (emitTag t')

theorem continues_beforeAttrNameStep (t : Tag) (c : Char) (cs : List Char) :
    (beforeAttrNameStep t c).Continues R t c cs := by
  unfold beforeAttrNameStep
  split_ifs with _ _ h
  · exact .moves (.refl t) _
  · exact .moves (.refl t) _
  · exact .ends h (.refl t)
  · exact .moves (.refl t) _

theorem continues_unquotedStep (t : Tag) (name value : List Char) (c : Char) (cs : List Char) :
    (unquotedStep R t name value c cs).Continues R t c cs := by
  unfold unquotedStep
  split_ifs with _ h
  · exact .moves (t.extends_addAttr _ _) _
  · exact .ends h (t.extends_addAttr _ _)
  · split
    · next href => exact .reference href _
    · exact .moves (.refl t) _

/-- **A character in a tag** adds to it, or completes it. -/
theorem continues_tagStep (t : Tag) (place : TagState) (c : Char) (cs : List Char) :
    (tagStep R t place c cs).Continues R t c cs := by
  cases place with
  | name =>
    rw [tagStep]
    split_ifs with _ _ h
    · exact .moves (.refl t) _
    · exact .moves (.refl t) _
    · exact .ends h (.refl t)
    · exact .moves (t.extends_name _) _
  | beforeAttrName => exact continues_beforeAttrNameStep t c cs
  | attrName name =>
    rw [tagStep]
    split_ifs with _ _ h
    · exact .moves (.refl t) _
    · exact .moves (t.extends_addAttr _ _) _
    · exact .ends h (t.extends_addAttr _ _)
    · exact .moves (.refl t) _
    · exact .moves (.refl t) _
  | afterAttrName name =>
    rw [tagStep]
    split_ifs with _ _ _ h
    · exact .moves (.refl t) _
    · exact .moves (t.extends_addAttr _ _) _
    · exact .moves (.refl t) _
    · exact .ends h (t.extends_addAttr _ _)
    · exact .moves (t.extends_addAttr _ _) _
  | beforeAttrValue name =>
    rw [tagStep]
    split_ifs with _ _ h
    · exact .moves (.refl t) _
    · exact .moves (.refl t) _
    · exact .ends h (t.extends_addAttr _ _)
    · exact continues_unquotedStep t name [] c cs
  | attrValue quote name value =>
    cases quote with
    | none => exact continues_unquotedStep t name value c cs
    | some quote =>
      rw [tagStep]
      split_ifs
      · exact .moves (t.extends_addAttr _ _) _
      · split
        · next href => exact .reference href _
        · exact .moves (.refl t) _
  | afterAttrValue => exact continues_beforeAttrNameStep t c cs
  | selfClosing => exact continues_beforeAttrNameStep t c cs

theorem Step.Continues.inside {t : Tag} {c : Char} {cs : List Char} {r : Step}
    (h : r.Continues R t c cs) : r.Inside c cs := by
  cases h with
  | moves _ place => exact inside_goto rfl rfl c cs
  | reference href place => exact inside_reference href t place
  | ends hc _ => exact hc ▸ inside_emitTag _ cs

theorem inside_commentStep (text : List Char) (place : CommentState) (c : Char)
    (cs : List Char) : (commentStep text place c).Inside c cs := by
  have htext : ∀ text, (commentTextStep text c).Inside c cs := by
    intro text
    unfold commentTextStep
    split_ifs <;> exact inside_goto rfl rfl c cs
  have hemit : c = '>' → (emitComment text).Inside c cs := fun h => h ▸ inside_emit rfl cs
  cases place with
  | text => exact htext text
  | start | startDash | dash | dashes | dashesBang =>
    rw [commentStep]
    split_ifs <;>
      first
        | exact inside_goto rfl rfl c cs
        | exact htext _
        | exact hemit ‹_›

theorem inside_bogusStep (text : List Char) (c : Char) (cs : List Char) :
    (bogusStep text c).Inside c cs := by
  unfold bogusStep
  split_ifs with h
  · exact h ▸ inside_emit rfl cs
  · exact inside_goto rfl rfl c cs

/-- **Inside a tag or a comment** nothing comes out before the next `>`. -/
theorem inside_step {s : State} (hs : s.inside = true) (c : Char) (cs : List Char) :
    (step R s c cs).Inside c cs := by
  cases s with
  | data | tagOpen | markupDeclaration | content => exact Bool.noConfusion hs
  | endTagOpen =>
    rw [step]
    split_ifs with _ h
    · exact inside_goto rfl rfl c cs
    · -- `</>` is dropped as a whole
      exact ⟨⟨rfl, rfl, .inl (reading_of rfl)⟩, skipsText_zero rfl cs,
        fun hne => absurd h hne, fun _ => rfl⟩
    · exact inside_bogusStep [] c cs
  | tag t place => exact (continues_tagStep t place c cs).inside
  | comment text place => exact inside_commentStep text place c cs
  | bogusComment text => exact inside_bogusStep text c cs
  | doctype text =>
    rw [step]
    split_ifs with h
    · exact h ▸ inside_emit rfl cs
    · exact inside_goto rfl rfl c cs

/-- What a character of the text leads to. -/
structure Step.FromText (s : State) (cs : List Char) (r : Step) : Prop where
  /-- One character and what was held back come out at most. -/
  count_le : countChars r.tokens + r.state.pending ≤ s.pending + 1 + r.skip
  /-- The rules of an element are entered behind its start tag. -/
  own : r.state.Reading ∨ HasOwn r.tokens
  /-- What is passed over lies before the next bracket. -/
  skipsText : r.SkipsText cs

theorem Step.Inside.fromText {s : State} {c : Char} {cs : List Char} {r : Step}
    (h : r.Inside c cs) : r.FromText s cs where
  count_le := by
    rw [h.quiet.tokens, h.quiet.pending]
    exact Nat.zero_le _
  own := h.quiet.own
  skipsText := h.skipsText

theorem fromText_goto {s s' : State} (hs' : s'.Reading) (h : s'.pending ≤ s.pending + 1)
    (cs : List Char) : (goto s').FromText s cs :=
  ⟨by simpa [goto, countChars] using h, .inl hs', skipsText_zero rfl cs⟩

theorem countChars_map_char (text : List Char) : countChars (text.map .char) = text.length := by
  unfold countChars
  rw [List.countP_map]
  exact List.countP_eq_length.mpr fun _ _ => rfl

theorem fromText_dataStep (c : Char) (cs : List Char) :
    (dataStep R c cs).FromText .data cs := by
  unfold dataStep
  split_ifs
  · exact fromText_goto (reading_of rfl) le_rfl cs
  · split
    · next text n href =>
      obtain ⟨htext, hskip⟩ := reference_take href
      refine ⟨?_, .inl (reading_of rfl), hskip⟩
      show countChars (text.map .char) + 0 ≤ 0 + 1 + n
      rw [countChars_map_char]
      omega
    · exact ⟨le_rfl, .inl (reading_of rfl), skipsText_zero rfl cs⟩

theorem fromText_declarationStep (s : State) (c : Char) (cs : List Char) :
    (declarationStep c cs).FromText s cs := by
  unfold declarationStep
  split_ifs with hdashes hdoctype
  · obtain ⟨rest, rfl⟩ : ∃ rest, cs = '-' :: rest := List.head?_eq_some_iff.mp hdashes.2
    refine ⟨Nat.zero_le _, .inl (reading_of rfl),
      Nat.succ_le_succ (Nat.zero_le _), ?_⟩
    simp
  · have hlen := congrArg List.length hdoctype
    rw [List.length_map, List.length_cons, List.length_take] at hlen
    have hword : "doctype".toList.length = 7 := rfl
    refine ⟨Nat.zero_le _, .inl (reading_of rfl), ?_, fun d hd heq => ?_⟩
    · show 6 ≤ cs.length
      omega
    · have hmem : d.toLower ∈ "doctype".toList := by
        rw [← hdoctype]
        exact List.mem_map_of_mem (List.mem_cons_of_mem _ hd)
      rw [heq] at hmem
      exact absurd hmem (by decide)
  · exact (inside_bogusStep [] c cs).fromText

/-- **One character** brings out one character at most, beside what was held back. -/
theorem fromText_step {s : State} (hs : s.Reading) (c : Char) (cs : List Char) :
    (step R s c cs).FromText s cs := by
  cases s with
  | data => exact fromText_dataStep c cs
  | tagOpen =>
    rw [step]
    split_ifs
    · exact fromText_goto (reading_of rfl) (Nat.zero_le _) cs
    · exact fromText_goto (reading_of rfl) le_rfl cs
    · exact fromText_goto (reading_of rfl) (Nat.zero_le _) cs
    · exact (inside_bogusStep [] c cs).fromText
    · obtain ⟨hcount, hown, hskip⟩ := fromText_dataStep (R := R) c cs
      refine ⟨?_, hown.imp id fun ⟨name, attrs, hmem, h⟩ =>
        ⟨name, attrs, List.mem_cons_of_mem _ hmem, h⟩, hskip⟩
      have hone : countChars (.char '<' :: (dataStep R c cs).tokens)
          = countChars (dataStep R c cs).tokens + 1 := List.countP_cons_of_pos rfl
      simp only [hone, State.pending] at hcount ⊢
      omega
  | markupDeclaration => exact fromText_declarationStep _ c cs
  | endTagOpen | tag | comment | bogusComment | doctype => exact (inside_step rfl c cs).fromText
  | content name => exact absurd rfl (hs name)

/-! ### Runs -/

/-- What is passed over is dropped. -/
theorem run_skip (l : List Char) (n : ℕ) (s : State) : run R l n s = run R (l.drop n) 0 s := by
  induction l generalizing n with
  | nil => rw [List.drop_nil]; rfl
  | cons c l ih =>
    cases n with
    | zero => rfl
    | succ n => exact ih n

theorem run_cons {s : State} (hs : s.Reading) (c : Char) (cs : List Char) :
    run R (c :: cs) 0 s
      = (step R s c cs).tokens
        ++ run R (cs.drop (step R s c cs).skip) 0 (step R s c cs).state := by
  rw [← run_skip]
  cases s with
  | content name => exact absurd rfl (hs name)
  | data | tagOpen | endTagOpen | markupDeclaration | tag | comment | bogusComment | doctype => rfl

/-- At most `k` characters come out of the rest of the input, or the start tag of an element
with rules of its own does. -/
def Bound (R : Rules) (k : ℕ) (s : State) (l : List Char) : Prop :=
  HasOwn (run R l 0 s) ∨ countChars (run R l 0 s) ≤ k

theorem Bound.mono {k k' : ℕ} {s : State} {l : List Char} (h : Bound R k s l) (hk : k ≤ k') :
    Bound R k' s l := h.imp id fun h => h.trans hk

theorem HasOwn.append_left {l : List Token} (h : HasOwn l) (l' : List Token) :
    HasOwn (l' ++ l) := by
  obtain ⟨name, attrs, hmem, hown⟩ := h
  exact ⟨name, attrs, List.mem_append_right _ hmem, hown⟩

theorem HasOwn.append_right {l : List Token} (h : HasOwn l) (l' : List Token) :
    HasOwn (l ++ l') := by
  obtain ⟨name, attrs, hmem, hown⟩ := h
  exact ⟨name, attrs, List.mem_append_left _ hmem, hown⟩

/-- The bound of a run is that of its first step and of the rest. -/
theorem bound_cons {s : State} (hs : s.Reading) {c : Char} {cs : List Char} {k : ℕ}
    (hown : (step R s c cs).state.Reading ∨ HasOwn (step R s c cs).tokens)
    (h : (step R s c cs).state.Reading →
      Bound R k (step R s c cs).state (cs.drop (step R s c cs).skip)) :
    Bound R (countChars (step R s c cs).tokens + k) s (c :: cs) := by
  unfold Bound
  rw [run_cons hs]
  rcases hown with hreading | hown
  · refine (h hreading).imp (fun h => h.append_left _) fun h => ?_
    rw [countChars, List.countP_append]
    exact Nat.add_le_add_left h _
  · exact .inl (hown.append_right _)

/-- The same, of a step whose outcome is known. -/
theorem bound_of_step {s s' : State} (hs : s.Reading) {c : Char} {cs : List Char}
    {tokens : List Token} {n k : ℕ} (hstep : step R s c cs = ⟨tokens, n, s'⟩) (hs' : s'.Reading)
    (h : Bound R k s' (cs.drop n)) : Bound R (countChars tokens + k) s (c :: cs) := by
  have hcons : ∀ r : Step, step R s c cs = r → r.state.Reading →
      Bound R k r.state (cs.drop r.skip) → Bound R (countChars r.tokens + k) s (c :: cs) := by
    rintro r rfl hreading hrest
    exact bound_cons hs (.inl hreading) fun _ => hrest
  exact hcons _ hstep hs' h

/-- A step that emits nothing. -/
theorem bound_goto {s s' : State} (hs : s.Reading) {c : Char} {cs : List Char} {k : ℕ}
    (hstep : step R s c cs = goto s') (hs' : s'.Reading) (h : Bound R k s' cs) :
    Bound R k s (c :: cs) := (bound_of_step hs hstep hs' h).mono (Nat.zero_add k).le

/-- Whatever state a text is read in, no more characters come out of it than it has. -/
theorem bound_text {tail : List Char} (htail : IsMarkup tail) {k : ℕ}
    (h : ∀ s : State, s.Reading → Bound R (s.pending + k) s tail) (text : List Char) :
    ∀ s : State, s.Reading → Bound R (s.pending + (text.length + k)) s (text ++ tail) := by
  -- a reference takes more than one character, so the induction is on the length
  induction hlen : text.length using Nat.strongRecOn generalizing text with
  | ind n ih =>
    intro s hs
    cases text with
    | nil =>
      obtain rfl : 0 = n := hlen
      rw [Nat.zero_add]
      exact h s hs
    | cons c text =>
      rw [List.length_cons] at hlen
      obtain ⟨hcount, hown, hskip⟩ := fromText_step (R := R) hs c (text ++ tail)
      have hle := le_length_of_ne htail hskip.1 hskip.2
      refine (bound_cons (k := (step R s c (text ++ tail)).state.pending
        + (n - (1 + (step R s c (text ++ tail)).skip) + k)) hs hown fun hreading => ?_).mono
          (by omega)
      rw [List.drop_append_of_le_length hle]
      exact ih _ (by omega) _ (by rw [List.length_drop]; omega) _ hreading

end Html
