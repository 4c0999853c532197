import WifiRepeater.Lib.Html.Steps

/-!
# Attributes with quoted values

A start tag is read part by part: its name, and then each attribute up to the quote that
ends its value, with the references in it replaced.  A value does not depend on what stands
behind its quote, and an attribute that was read stays, whatever the rest of the tag holds.

A reference that is replaced makes a value shorter, whatever the tables say.

## Main definitions

* `normalizeNewlines` — what is done to the ends of lines before the tokenizer runs.
* `Rules.attrText`, `Rules.attrInert` — a value with its references replaced, and the texts
  that have none.
* `renderAttr`, `plainName` — how an attribute is written, and the names that need no care.

## Main results

* `attrText_append` — a value is read in parts.
* `countP_attrText_lt` — **a reference makes a value shorter.**
* `run_startTag`, `run_renderAttr`, `run_gt` — the parts of a start tag.
* `attrs_of_run` — an attribute that was read stays.
-/

namespace Html

variable {R : Rules}

/-! ### The ends of lines -/

/-- A carriage return, and the line feed behind it, is a line feed. -/
def normalizeNewlines : List Char → List Char
  | [] => []
  | '\r' :: '\n' :: cs => '\n' :: normalizeNewlines cs
  | c :: cs => (if c = '\r' then '\n' else c) :: normalizeNewlines cs

@[simp] theorem normalizeNewlines_nil : normalizeNewlines [] = [] := rfl

theorem normalizeNewlines_cons {c : Char} (h : c ≠ '\r') (cs : List Char) :
    normalizeNewlines (c :: cs) = c :: normalizeNewlines cs := by
  rw [normalizeNewlines, if_neg h]
  exact fun _ heq => absurd heq h

/-- Without carriage returns nothing changes. -/
theorem normalizeNewlines_append {cs : List Char} (h : '\r' ∉ cs) (ds : List Char) :
    normalizeNewlines (cs ++ ds) = cs ++ normalizeNewlines ds := by
  induction cs with
  | nil => rfl
  | cons c cs ih =>
    rw [List.mem_cons, not_or] at h
    rw [List.cons_append, normalizeNewlines_cons (Ne.symm h.1), ih h.2, List.cons_append]

theorem length_normalizeNewlines_le (cs : List Char) :
    (normalizeNewlines cs).length ≤ cs.length := by
  fun_induction normalizeNewlines cs with
  | case1 => exact le_rfl
  | case2 cs ih => exact (Nat.succ_le_succ ih).trans (Nat.le_succ _)
  | case3 c cs _ ih => exact Nat.succ_le_succ ih

/-- A text that has no end of a line afterwards had none before. -/
theorem normalizeNewlines_eq_self {cs : List Char} (h : '\n' ∉ normalizeNewlines cs) :
    normalizeNewlines cs = cs ∧ '\r' ∉ cs := by
  fun_induction normalizeNewlines cs with
  | case1 => exact ⟨rfl, List.not_mem_nil⟩
  | case2 cs ih => exact absurd List.mem_cons_self h
  | case3 c cs _ ih =>
    rw [List.mem_cons, not_or] at h
    have hc : c ≠ '\r' := by
      rintro rfl
      exact h.1 (if_pos rfl).symm
    obtain ⟨heq, hcs⟩ := ih h.2
    rw [if_neg hc, heq]
    exact ⟨rfl, fun hmem => (List.mem_cons.mp hmem).elim (fun h => hc h.symm) hcs⟩

/-! ### References in values -/

/-- A value with its references replaced, its first characters passed over. -/
def Rules.attrText (R : Rules) : List Char → ℕ → List Char
  | [], _ => []
  | _ :: cs, n + 1 => R.attrText cs n
  | c :: cs, 0 =>
      match R.attrReference c cs with
      | some (text, n) => text ++ R.attrText cs n
      | none => c :: R.attrText cs 0

/-- No reference begins in a value. -/
def Rules.attrInert (R : Rules) : List Char → Bool
  | [] => true
  | c :: cs => (R.attrReference c cs).isNone && R.attrInert cs

/-- What ends a reference: none goes on with it, and none is held up by it. -/
def EndsRef (c : Char) : Prop := isRefChar c = false ∧ c ≠ '='

instance (c : Char) : Decidable (EndsRef c) := inferInstanceAs (Decidable (_ ∧ _))

theorem referenceOf_pos {chars text : List Char} {n : ℕ}
    (h : R.referenceOf chars = some (text, n)) : 0 < n := by
  have hnumeric : ∀ {hex : Bool} {k : ℕ} {rest : List Char},
      R.numericReference hex (k + 1) rest = some (text, n) → 0 < n := by
    intro hex k rest h
    unfold Rules.numericReference at h
    simp only at h
    by_cases hdigits : rest.takeWhile (isRefDigit hex) = []
    · rw [if_pos hdigits] at h
      exact absurd h (by simp)
    · rw [if_neg hdigits] at h
      obtain ⟨-, rfl⟩ := Prod.mk.inj (Option.some.inj h)
      omega
  unfold Rules.referenceOf at h
  split at h
  · exact hnumeric h
  · exact hnumeric h
  · exact hnumeric h
  · obtain ⟨e, he, heq⟩ := Option.map_eq_some_iff.mp h
    obtain ⟨-, rfl⟩ := Prod.mk.inj heq
    have hlen := R.named_le e (List.mem_filter.mp (List.argmax_mem he)).1
    omega

theorem attrReference_of_ne {c : Char} (h : c ≠ '&') (cs : List Char) :
    R.attrReference c cs = none := by
  rw [Rules.attrReference, Rules.reference, if_neg h, Option.filter_none]

/-- The characters that satisfy a predicate stand at the front. -/
theorem getElem?_of_lt_takeWhile {p : Char → Bool} {cs : List Char} {i : ℕ}
    (h : i < (cs.takeWhile p).length) : cs[i]? = (cs.takeWhile p)[i]? := by
  conv_lhs => rw [← List.takeWhile_append_dropWhile (p := p) (l := cs)]
  exact List.getElem?_append_left h

/-- The first one behind them is no part of a name. -/
theorem any_behind_takeWhile (cs : List Char) :
    (cs[(cs.takeWhile isRefChar).length]?.any fun d => d = '=' || d.isAlphanum)
      = decide ((cs.dropWhile isRefChar).head? = some '=') := by
  have hget : cs[(cs.takeWhile isRefChar).length]? = (cs.dropWhile isRefChar).head? := by
    conv_lhs => rw [← List.takeWhile_append_dropWhile (p := isRefChar) (l := cs)]
    rw [List.getElem?_append_right (by rw [List.takeWhile_append_dropWhile]),
      List.takeWhile_append_dropWhile, Nat.sub_self, List.head?_eq_getElem?]
  rw [hget]
  cases hd : (cs.dropWhile isRefChar).head? with
  | none => rfl
  | some d =>
    have hchar : isRefChar d = false := by
      have := List.head?_dropWhile_not isRefChar cs
      rw [hd] at this
      simpa using this
    simp only [isRefChar, Bool.or_eq_false_iff] at hchar
    simp [hchar.1.1]

/-- **A reference is found by the characters it is made of**, and by whether an equals sign
stands behind them. -/
theorem attrReference_congr (c : Char) {cs ds : List Char}
    (htake : cs.takeWhile isRefChar = ds.takeWhile isRefChar)
    (hhead : (cs.dropWhile isRefChar).head? = some '=' ↔
      (ds.dropWhile isRefChar).head? = some '=') :
    R.attrReference c cs = R.attrReference c ds := by
  have href : R.reference c cs = R.reference c ds := by
    unfold Rules.reference
    rw [htake]
  unfold Rules.attrReference
  rw [href]
  cases hr : R.reference c ds with
  | none => rfl
  | some r =>
    obtain ⟨text, n⟩ := r
    unfold Rules.reference at hr
    split_ifs at hr
    have hpos := referenceOf_pos hr
    have hle := (referenceOf_le hr).2
    have hget : ∀ i, i < (ds.takeWhile isRefChar).length → cs[i]? = ds[i]? := by
      intro i hi
      rw [getElem?_of_lt_takeWhile hi, ← htake]
      exact getElem?_of_lt_takeWhile (htake ▸ hi)
    rw [Option.filter_some, Option.filter_some]
    refine congrArg (fun b : Bool => if b = true then some (text, n) else none) ?_
    simp only [List.head?_eq_getElem?, List.getElem?_drop, Nat.add_zero]
    rw [hget 0 (by omega), hget (n - 1) (by omega)]
    refine congrArg _ (congrArg not ?_)
    -- a reference ends before the last of the characters, or with it
    rcases Nat.lt_or_ge n (ds.takeWhile isRefChar).length with hlt | hge
    · rw [hget n hlt]
    · obtain rfl : n = (ds.takeWhile isRefChar).length := by omega
      have hcs := any_behind_takeWhile cs
      rw [htake] at hcs
      rw [hcs, any_behind_takeWhile ds]
      simp only [hhead]

/-- What ends a reference ends the text as far as references go. -/
theorem attrReference_append {d : Char} (hd : EndsRef d) (c : Char) (cs ds : List Char) :
    R.attrReference c (cs ++ d :: ds) = R.attrReference c cs := by
  refine attrReference_congr c (takeWhile_append_cons hd.1 cs ds) ?_
  have hdrop : (cs ++ d :: ds).dropWhile isRefChar = cs.dropWhile isRefChar ++ d :: ds := by
    induction cs with
    | nil => rw [List.nil_append, List.dropWhile_cons_of_neg (by rw [hd.1]; decide)]; rfl
    | cons c cs ih =>
      rw [List.cons_append, List.dropWhile_cons, List.dropWhile_cons, ih]
      split_ifs <;> rfl
  rw [hdrop]
  cases cs.dropWhile isRefChar with
  | nil => simp [hd.2]
  | cons b bs => rfl

/-- **A value is read in parts**, where something ends every reference. -/
theorem attrText_append {d : Char} (hd : EndsRef d) (ds : List Char) :
    ∀ (cs : List Char) (n : ℕ), n ≤ cs.length →
      R.attrText (cs ++ d :: ds) n = R.attrText cs n ++ R.attrText (d :: ds) 0 := by
  intro cs
  induction cs with
  | nil =>
    intro n hn
    obtain rfl := Nat.le_zero.mp hn
    rfl
  | cons c cs ih =>
    intro n hn
    cases n with
    | succ n => exact ih n (Nat.le_of_succ_le_succ hn)
    | zero =>
      rw [List.cons_append, Rules.attrText, Rules.attrText, attrReference_append hd]
      cases href : R.attrReference c cs with
      | none => simp only [ih 0 (Nat.zero_le _), List.cons_append]
      | some r =>
        obtain ⟨text, k⟩ := r
        have hle := (reference_take (reference_of_attrReference href)).2.1
        simp only [ih k hle, List.append_assoc]

/-- A character that begins no reference stands for itself. -/
theorem attrText_cons {c : Char} (h : c ≠ '&') (cs : List Char) :
    R.attrText (c :: cs) 0 = c :: R.attrText cs 0 := by
  rw [Rules.attrText, attrReference_of_ne h]

theorem attrText_of_noAmp {cs : List Char} (h : '&' ∉ cs) (ds : List Char) :
    R.attrText (cs ++ ds) 0 = cs ++ R.attrText ds 0 := by
  induction cs with
  | nil => rfl
  | cons c cs ih =>
    rw [List.mem_cons, not_or] at h
    rw [List.cons_append, attrText_cons (Ne.symm h.1), ih h.2, List.cons_append]

theorem attrText_eq_self {cs : List Char} (h : '&' ∉ cs) : R.attrText cs 0 = cs := by
  have happend := attrText_of_noAmp (R := R) h []
  rwa [List.append_nil, Rules.attrText, List.append_nil] at happend

/-- A value without references is read as it is. -/
theorem attrText_of_attrInert {cs : List Char} (h : R.attrInert cs = true) :
    R.attrText cs 0 = cs := by
  induction cs with
  | nil => rfl
  | cons c cs ih =>
    rw [Rules.attrInert, Bool.and_eq_true, Option.isNone_iff_eq_none] at h
    rw [Rules.attrText, h.1]
    exact congrArg (c :: ·) (ih h.2)

/-- A reference has more characters than it stands for. -/
theorem countP_reference {p : Char → Bool} (hamp : p '&' = true)
    (hp : ∀ c, isRefChar c = true → p c = true) {c : Char} {cs : List Char} {r : List Char × ℕ}
    (h : R.attrReference c cs = some r) :
    r.1.countP p + (cs.drop r.2).countP p < (c :: cs).countP p := by
  obtain ⟨text, n⟩ := r
  have hc : c = '&' := by
    by_contra hne
    rw [attrReference_of_ne hne] at h
    exact absurd h (by simp)
  have href := reference_of_attrReference h
  obtain ⟨htext, hn, -⟩ := reference_take href
  have hall : (cs.take n).countP p = n := by
    rw [List.countP_eq_length.mpr fun d hd => hp d (isRefChar_of_reference href d hd),
      List.length_take, min_eq_left hn]
  have hsplit : cs.countP p = (cs.take n).countP p + (cs.drop n).countP p := by
    rw [← List.countP_append, List.take_append_drop]
  have hcount : text.countP p ≤ text.length := List.countP_le_length
  rw [hc, List.countP_cons_of_pos hamp]
  show text.countP p + (cs.drop n).countP p < cs.countP p + 1
  omega

/-- What counts the characters of references counts no more of them in the value. -/
theorem countP_attrText_le {p : Char → Bool} (hamp : p '&' = true)
    (hp : ∀ c, isRefChar c = true → p c = true) (cs : List Char) :
    ∀ n : ℕ, (R.attrText cs n).countP p ≤ (cs.drop n).countP p := by
  induction cs with
  | nil => intro n; exact Nat.zero_le _
  | cons c cs ih =>
    intro n
    cases n with
    | succ n => exact ih n
    | zero =>
      rw [Rules.attrText, List.drop_zero]
      cases href : R.attrReference c cs with
      | none =>
        have hrest := ih 0
        rw [List.drop_zero] at hrest
        simp only [List.countP_cons]
        omega
      | some r =>
        have hshort := countP_reference hamp hp href
        have hrest := ih r.2
        simp only [List.countP_append]
        omega

/-- **A reference makes a value shorter.** -/
theorem countP_attrText_lt {p : Char → Bool} (hamp : p '&' = true)
    (hp : ∀ c, isRefChar c = true → p c = true) {cs : List Char}
    (h : R.attrInert cs = false) : (R.attrText cs 0).countP p < cs.countP p := by
  induction cs with
  | nil => exact absurd h (by simp [Rules.attrInert])
  | cons c cs ih =>
    rw [Rules.attrText]
    cases href : R.attrReference c cs with
    | none =>
      rw [Rules.attrInert, href] at h
      have hrest := ih (by simpa using h)
      simp only [List.countP_cons]
      omega
    | some r =>
      have hshort := countP_reference hamp hp href
      have hrest := countP_attrText_le (R := R) hamp hp cs r.2
      simp only [List.countP_append]
      omega

/-! ### The parts of a start tag -/

/-- How an attribute is written. -/
def renderAttr (a : List Char × List Char) : List Char :=
  ' ' :: (a.1 ++ '=' :: '"' :: (a.2 ++ ['"']))

/-- What a plain name is made of. -/
def plainChar (c : Char) : Bool := (c.isAlphanum || c = '-') && c.toLower = c

/-- A name that needs no care. -/
def plainName (name : List Char) : Bool := name.head?.any Char.isAlpha && name.all plainChar

theorem plainChar_ne {c d : Char} (hc : plainChar c = true) (hd : plainChar d = false) :
    c ≠ d := fun h => Bool.noConfusion (hc.symm.trans (h ▸ hd))

/-- A plain name begins with a letter. -/
theorem exists_cons_of_plainName {name : List Char} (h : plainName name = true) :
    ∃ c cs, name = c :: cs ∧ c.isAlpha = true ∧ ∀ d ∈ c :: cs, plainChar d = true := by
  cases name with
  | nil => exact absurd h (by simp [plainName])
  | cons c cs =>
    obtain ⟨halpha, hplain⟩ := Bool.and_eq_true_iff.mp h
    exact ⟨c, cs, rfl, halpha, List.all_eq_true.mp hplain⟩

theorem ne_slash_of_plain {c : Char} (hc : plainChar c = true) : c ≠ '/' :=
  plainChar_ne hc (by decide)

theorem ne_gt_of_plain {c : Char} (hc : plainChar c = true) : c ≠ '>' :=
  plainChar_ne hc (by decide)

theorem isSpace_of_plain {c : Char} (hc : plainChar c = true) : isSpace c = false := by
  have hne : ∀ d, plainChar d = false → ¬c = d := fun d hd => plainChar_ne hc hd
  simp [isSpace, hne ' ' (by decide), hne '\t' (by decide), hne '\n' (by decide),
    hne '\x0c' (by decide)]

theorem toLower_of_plain {c : Char} (hc : plainChar c = true) : c.toLower = c := by
  unfold plainChar at hc
  exact of_decide_eq_true (Bool.and_eq_true_iff.mp hc).2

/-- A character that leads to another state only. -/
theorem run_of_goto {s t : State} {c : Char} {cs : List Char} (hs : s.Reading)
    (h : step R s c cs = goto t) : run R (c :: cs) 0 s = run R cs 0 t := by
  rw [run_cons hs, h]
  rfl

theorem reading_tag (t : Tag) (place : TagState) : (State.tag t place).Reading :=
  reading_of rfl

theorem run_name (t : Tag) (rest : List Char) (name : List Char)
    (h : ∀ c ∈ name, plainChar c = true) :
    run R (name ++ rest) 0 (.tag t .name)
      = run R rest 0 (.tag { t with name := t.name ++ name } .name) := by
  induction name generalizing t with
  | nil => simp
  | cons c name ih =>
    have hc := h c List.mem_cons_self
    have hstep : step R (.tag t .name) c (name ++ rest)
        = goto (.tag { t with name := t.name ++ [c] } .name) := by
      rw [step, tagStep, isSpace_of_plain hc, toLower_of_plain hc,
        if_neg (ne_slash_of_plain hc), if_neg (ne_gt_of_plain hc)]
      rfl
    rw [List.cons_append, run_of_goto (reading_tag _ _) hstep,
      ih _ fun d hd => h d (List.mem_cons_of_mem _ hd)]
    simp

theorem run_attrName (t : Tag) (rest : List Char) (front name : List Char)
    (h : ∀ c ∈ name, plainChar c = true) :
    run R (name ++ '=' :: rest) 0 (.tag t (.attrName front))
      = run R rest 0 (.tag t (.beforeAttrValue (front ++ name))) := by
  induction name generalizing front with
  | nil =>
    rw [List.append_nil]
    exact run_of_goto (reading_tag _ _) rfl
  | cons c name ih =>
    have hc := h c List.mem_cons_self
    have hstep : step R (.tag t (.attrName front)) c (name ++ '=' :: rest)
        = goto (.tag t (.attrName (front ++ [c]))) := by
      rw [step, tagStep, isSpace_of_plain hc, toLower_of_plain hc,
        if_neg (ne_slash_of_plain hc), if_neg (ne_gt_of_plain hc),
        if_neg (plainChar_ne hc (by decide : plainChar '=' = false))]
      rfl
    rw [List.cons_append, run_of_goto (reading_tag _ _) hstep,
      ih _ fun d hd => h d (List.mem_cons_of_mem _ hd), List.append_assoc, List.singleton_append]

/-- A value is read up to its quote. -/
theorem run_attrValue (t : Tag) (name text : List Char) (htext : '"' ∉ text) (rest : List Char) :
    ∀ (n : ℕ) (value : List Char), n ≤ text.length →
      run R (text ++ '"' :: rest) n (.tag t (.attrValue (some '"') name value))
        = run R rest 0 (.tag (t.addAttr name (value ++ R.attrText text n)) .afterAttrValue) := by
  induction text with
  | nil =>
    intro n value hn
    obtain rfl := Nat.le_zero.mp hn
    rw [Rules.attrText, List.append_nil]
    exact run_of_goto (reading_tag _ _) rfl
  | cons c text ih =>
    rw [List.mem_cons, not_or] at htext
    have ih := ih htext.2
    intro n value hn
    cases n with
    | succ n => exact ih n value (Nat.le_of_succ_le_succ hn)
    | zero =>
      have hend : EndsRef '"' := by decide
      have hsame := attrReference_append (R := R) hend c text rest
      rw [List.cons_append, run_cons (reading_tag _ _), Rules.attrText]
      cases href : R.attrReference c text with
      | none =>
        have hstep : step R (.tag t (.attrValue (some '"') name value)) c (text ++ '"' :: rest)
            = goto (.tag t (.attrValue (some '"') name (value ++ [c]))) := by
          rw [step, tagStep, if_neg (Ne.symm htext.1), hsame, href]
        have hrest := ih 0 (value ++ [c]) (Nat.zero_le _)
        rw [List.append_assoc] at hrest
        rw [hstep]
        exact hrest
      | some r =>
        obtain ⟨chars, k⟩ := r
        have hstep : step R (.tag t (.attrValue (some '"') name value)) c (text ++ '"' :: rest)
            = ⟨[], k, .tag t (.attrValue (some '"') name (value ++ chars))⟩ := by
          rw [step, tagStep, if_neg (Ne.symm htext.1), hsame, href]
        rw [hstep]
        have hle := (reference_take (reference_of_attrReference href)).2.1
        have hrest := ih k (value ++ chars) hle
        rw [List.append_assoc, run_skip] at hrest
        exact hrest

/-- **An attribute** that is written behind a name or another attribute. -/
theorem run_renderAttr {t : Tag} {place : TagState}
    (hplace : place = .name ∨ place = .afterAttrValue)
    {a : List Char × List Char} (hname : plainName a.1 = true) (hquote : '"' ∉ a.2)
    (rest : List Char) :
    run R (renderAttr a ++ rest) 0 (.tag t place)
      = run R rest 0 (.tag (t.addAttr a.1 (R.attrText a.2 0)) .afterAttrValue) := by
  obtain ⟨name, value⟩ := a
  obtain ⟨c, name, rfl, -, hplain⟩ := exists_cons_of_plainName hname
  have hc := hplain c List.mem_cons_self
  have hsplit : renderAttr (c :: name, value) ++ rest
      = ' ' :: c :: (name ++ '=' :: '"' :: (value ++ '"' :: rest)) := by
    simp [renderAttr]
  have hspace : ∀ cs, step R (.tag t place) ' ' cs = goto (.tag t .beforeAttrName) := by
    intro cs
    rcases hplace with rfl | rfl <;> rfl
  have hfirst : ∀ cs, step R (.tag t .beforeAttrName) c cs = goto (.tag t (.attrName [c])) :=
    fun cs => by
      rw [step, tagStep, beforeAttrNameStep, isSpace_of_plain hc, toLower_of_plain hc,
        if_neg (ne_slash_of_plain hc), if_neg (ne_gt_of_plain hc)]
      rfl
  rw [hsplit, run_of_goto (reading_tag _ _) (hspace _), run_of_goto (reading_tag _ _) (hfirst _),
    run_attrName t _ [c] name fun d hd => hplain d (List.mem_cons_of_mem _ hd),
    run_of_goto (t := .tag t (.attrValue (some '"') ([c] ++ name) [])) (reading_tag _ _) rfl,
    run_attrValue t _ value hquote rest 0 [] (Nat.zero_le _)]
  rfl

/-- **The name of a start tag.** -/
theorem run_startTag {name : List Char} (hname : plainName name = true) (rest : List Char) :
    run R ('<' :: (name ++ rest)) 0 .data = run R rest 0 (.tag ⟨false, name, []⟩ .name) := by
  obtain ⟨c, name, rfl, halpha, hplain⟩ := exists_cons_of_plainName hname
  have hopen : step R .tagOpen c (name ++ rest) = goto (.tag ⟨false, [c], []⟩ .name) := by
    have hc := hplain c List.mem_cons_self
    rw [step, if_neg (plainChar_ne hc (by decide : plainChar '!' = false)),
      if_neg (ne_slash_of_plain hc), if_pos halpha, toLower_of_plain hc]
  rw [run_of_goto (t := .tagOpen) (reading_of rfl) rfl, List.cons_append,
    run_of_goto (reading_of rfl) hopen,
    run_name ⟨false, [c], []⟩ _ name fun d hd => hplain d (List.mem_cons_of_mem _ hd)]
  rfl

/-- **The end of a tag.** -/
theorem run_gt {t : Tag} {place : TagState} (hplace : place = .name ∨ place = .afterAttrValue)
    (rest : List Char) :
    run R ('>' :: rest) 0 (.tag t place)
      = (emitTag t).tokens ++ run R rest 0 (emitTag t).state := by
  have hstep : step R (.tag t place) '>' rest = emitTag t := by
    rcases hplace with rfl | rfl <;> rfl
  rw [run_cons (reading_tag _ _), hstep]
  rfl

/-- A start tag of an element without rules of its own. -/
theorem emitTag_start {name : List Char} (hown : name ∉ ownContent)
    (attrs : List (List Char × List Char)) :
    emitTag ⟨false, name, attrs⟩ = ⟨[.startTag name attrs], 0, .data⟩ := by
  rw [emitTag, if_neg fun h => hown h.2]
  rfl

/-! ### What was read of a tag -/

/-- **What was read of a tag stays**: the first token is the tag, with the attributes that
were read before the others. -/
theorem attrs_of_run {token : Token} {rest : List Token} (cs : List Char) :
    ∀ (n : ℕ) (t : Tag) (place : TagState), run R cs n (.tag t place) = token :: rest →
      ∃ t', t.Extends t' ∧ token = t'.token := by
  induction cs with
  | nil => intro n t place h; exact absurd h (by simp [run, atEnd])
  | cons c cs ih =>
    intro n t place h
    cases n with
    | succ n => exact ih n t place h
    | zero =>
      have hrun : run R (c :: cs) 0 (.tag t place) = (tagStep R t place c cs).tokens
          ++ run R cs (tagStep R t place c cs).skip (tagStep R t place c cs).state := rfl
      rw [hrun] at h
      have hstep := continues_tagStep (R := R) t place c cs
      generalize tagStep R t place c cs = r at h hstep
      cases hstep with
      | moves ht place' =>
        obtain ⟨t'', ht', htoken⟩ := ih 0 _ place' h
        exact ⟨t'', ht.trans ht', htoken⟩
      | reference href place' => exact ih _ t place' h
      | ends hc ht => exact ⟨_, ht, (List.cons.inj h).1.symm⟩

end Html
