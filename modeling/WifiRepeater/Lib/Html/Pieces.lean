import WifiRepeater.Lib.Html.Attributes
import WifiRepeater.Lib.Html.Text

/-!
# Trees written as markup

A tree of elements and text is written down by putting its texts between its tags as they
are.  Its pieces in a row are its start tags, its end tags and its texts.  Plain tags are read
as they were written, and inert texts between them are.

## Main definitions

* `Node`, `Piece`, `piecesOf` — trees and their pieces.
* `render`, `tokensOf` — how a tree is written, and the tokens it is meant to be.
* `WellFormed` — the tags are plain, and no two texts stand side by side.

## Main results

* `run_openTag`, `run_closeTag` — a plain tag is read as it was written.
* `run_pieces` — **so are pieces whose texts are inert.**
* `filterMap_run_pieces` — texts without brackets yield characters only.
* `bound_pieces_lt` — when a text is not inert, fewer characters come out.
-/

namespace Html

variable {R : Rules}

/-! ### Trees and pieces -/

/-- An element with its content, or a text. -/
inductive Node
  /-- An element. -/
  | element (name : List Char) (attrs : List (List Char × List Char)) (children : List Node)
  /-- A text. -/
  | text (text : List Char)

/-- What stands in a row in markup. -/
inductive Piece
  /-- A start tag. -/
  | openTag (name : List Char) (attrs : List (List Char × List Char))
  /-- An end tag. -/
  | closeTag (name : List Char)
  /-- A text. -/
  | text (text : List Char)
  deriving DecidableEq

mutual

/-- The pieces of a node. -/
def Node.pieces : Node → List Piece
  | .element name attrs children =>
      .openTag name attrs :: (piecesOf children ++ [.closeTag name])
  | .text text => [.text text]

/-- The pieces of a row of nodes. -/
def piecesOf : List Node → List Piece
  | [] => []
  | node :: nodes => node.pieces ++ piecesOf nodes

end

namespace Piece

/-- How a piece is written: a text as it is. -/
def render : Piece → List Char
  | openTag name attrs => '<' :: (name ++ (attrs.flatMap renderAttr ++ ['>']))
  | closeTag name => '<' :: '/' :: (name ++ ['>'])
  | text t => t

/-- The tokens it is meant to be. -/
def tokens : Piece → List Token
  | openTag name attrs => [.startTag name attrs]
  | closeTag name => [.endTag name]
  | text t => t.map .char

end Piece

/-- How a row of nodes is written. -/
def render (nodes : List Node) : List Char := (piecesOf nodes).flatMap Piece.render

/-- The tokens that a row of nodes is meant to be. -/
def tokensOf (nodes : List Node) : List Token := (piecesOf nodes).flatMap Piece.tokens

/-! ### Plain tags -/

/-- The elements without content. -/
def voidElements : List (List Char) :=
  ["area", "base", "br", "col", "embed", "hr", "img", "input", "link", "meta", "source", "track",
    "wbr"].map String.toList

/-- Attributes that need no care: their values hold no quote, reference, bracket or carriage
return. -/
def plainAttrs (attrs : List (List Char × List Char)) : Bool :=
  (attrs.map Prod.fst).Nodup &&
    attrs.all fun a => plainName a.1 && a.2.all fun c =>
      c ≠ '"' && c ≠ '&' && c ≠ '>' && c ≠ '\r'

/-- A tag that needs no care, of an element that has content and no rules of its own. -/
def plainTag (name : List Char) (attrs : List (List Char × List Char)) : Bool :=
  plainName name && !ownContent.contains name && !voidElements.contains name && plainAttrs attrs

/-- The pieces are plain tags and texts, each text followed by a tag. -/
def WellFormed : List Piece → Prop
  | [] => True
  | .openTag name attrs :: ps => plainTag name attrs = true ∧ WellFormed ps
  | .closeTag name :: ps => plainName name = true ∧ WellFormed ps
  | .text text :: ps => text ≠ [] ∧ (∃ p ∈ ps.head?, ∀ t, p ≠ .text t) ∧ WellFormed ps

/-- An element is well formed when its tag is plain and its content is well formed. -/
theorem wellFormed_element {name : List Char} {attrs : List (List Char × List Char)}
    {children nodes : List Node} {ps : List Piece} (htag : plainTag name attrs = true)
    (h : WellFormed (piecesOf children ++ .closeTag name :: (piecesOf nodes ++ ps))) :
    WellFormed (piecesOf (.element name attrs children :: nodes) ++ ps) := by
  rw [piecesOf, Node.pieces, List.cons_append, List.cons_append, List.append_assoc,
    List.append_assoc]
  exact ⟨htag, h⟩

/-- The end tag of a plain tag. -/
theorem wellFormed_closeTag {name : List Char} {attrs : List (List Char × List Char)}
    {ps : List Piece} (htag : plainTag name attrs = true) (h : WellFormed ps) :
    WellFormed (.closeTag name :: ps) := by
  simp only [plainTag, Bool.and_eq_true] at htag
  exact ⟨htag.1.1.1, h⟩

/-- A text is well formed as the content of an element. -/
theorem wellFormed_text {t name : List Char} {ps : List Piece} (ht : t ≠ [])
    (h : WellFormed (.closeTag name :: ps)) :
    WellFormed (piecesOf [.text t] ++ .closeTag name :: ps) :=
  ⟨ht, ⟨_, rfl, fun _ h => Piece.noConfusion h⟩, h⟩

@[simp] theorem text_mem_element {t name : List Char} {attrs : List (List Char × List Char)}
    {children nodes : List Node} :
    .text t ∈ piecesOf (.element name attrs children :: nodes) ↔
      .text t ∈ piecesOf children ∨ .text t ∈ piecesOf nodes := by
  simp [piecesOf, Node.pieces]

@[simp] theorem text_mem_text {t t' : List Char} {nodes : List Node} :
    .text t ∈ piecesOf (.text t' :: nodes) ↔ t = t' ∨ .text t ∈ piecesOf nodes := by
  simp [piecesOf, Node.pieces]

@[simp] theorem text_notMem_nil (t : List Char) : .text t ∉ piecesOf [] := by simp [piecesOf]

/-! ### How a plain tag is read -/

/-- The attributes and the end of a tag. -/
theorem run_attrs (rest : List Char) (attrs : List (List Char × List Char)) :
    ∀ {t : Tag} {place : TagState}, place = .name ∨ place = .afterAttrValue →
      ((t.attrs ++ attrs).map Prod.fst).Nodup →
      (∀ a ∈ attrs, plainName a.1 = true ∧ ∀ c ∈ a.2, c ≠ '"' ∧ c ≠ '&') →
      run R (attrs.flatMap renderAttr ++ '>' :: rest) 0 (.tag t place)
        = (emitTag { t with attrs := t.attrs ++ attrs }).tokens
          ++ run R rest 0 (emitTag { t with attrs := t.attrs ++ attrs }).state := by
  induction attrs with
  | nil =>
    intro t place hplace _ _
    rw [List.append_nil, List.flatMap_nil, List.nil_append, run_gt hplace]
  | cons a attrs ih =>
    intro t place hplace hnodup hplain
    obtain ⟨hname, hvalue⟩ := hplain a List.mem_cons_self
    have hassoc : t.attrs ++ a :: attrs = (t.attrs ++ [a]) ++ attrs := by simp
    have hadd : t.addAttr a.1 a.2 = { t with attrs := t.attrs ++ [a] } := by
      have hnew : a.1 ∉ t.attrs.map Prod.fst := by
        intro hmem
        rw [List.map_append, List.map_cons] at hnodup
        exact (List.nodup_append.mp hnodup).2.2 _ hmem _ List.mem_cons_self rfl
      rw [Tag.addAttr, if_neg hnew]
    have hquote : '"' ∉ a.2 := fun hmem => (hvalue _ hmem).1 rfl
    have hamp : '&' ∉ a.2 := fun hmem => (hvalue _ hmem).2 rfl
    rw [List.flatMap_cons, List.append_assoc, run_renderAttr hplace hname hquote,
      attrText_eq_self hamp, hadd,
      ih (.inr rfl) (hassoc ▸ hnodup) fun b hb => hplain b (List.mem_cons_of_mem _ hb), hassoc]

/-- **A plain start tag is read as it was written.** -/
theorem run_openTag {name : List Char} {attrs : List (List Char × List Char)}
    (h : plainTag name attrs = true) (rest : List Char) :
    run R ((Piece.openTag name attrs).render ++ rest) 0 .data
      = .startTag name attrs :: run R rest 0 .data := by
  simp only [plainTag, Bool.and_eq_true, Bool.not_eq_true', List.contains_eq_mem,
    decide_eq_true_eq, decide_eq_false_iff_not, plainAttrs, List.all_eq_true] at h
  obtain ⟨⟨⟨hname, hown⟩, -⟩, hnodup, hattrs⟩ := h
  have hsplit : (Piece.openTag name attrs).render ++ rest
      = '<' :: (name ++ (attrs.flatMap renderAttr ++ '>' :: rest)) := by
    simp [Piece.render]
  have hattrs' : ∀ a ∈ attrs, plainName a.1 = true ∧ ∀ d ∈ a.2, d ≠ '"' ∧ d ≠ '&' := fun a ha =>
    ⟨(hattrs a ha).1, fun d hd => by simpa using ((hattrs a ha).2 d hd).1.1⟩
  have hend := run_attrs (R := R) rest attrs (t := ⟨false, name, []⟩) (.inl rfl) hnodup hattrs'
  rw [List.nil_append, emitTag_start hown] at hend
  rw [hsplit, run_startTag hname]
  exact hend

/-- So is an end tag. -/
theorem run_closeTag {name : List Char} (h : plainName name = true) (rest : List Char) :
    run R ((Piece.closeTag name).render ++ rest) 0 .data
      = .endTag name :: run R rest 0 .data := by
  obtain ⟨c, name, rfl, halpha, hplain⟩ := exists_cons_of_plainName h
  have hsplit : (Piece.closeTag (c :: name)).render ++ rest
      = '<' :: '/' :: c :: (name ++ '>' :: rest) := by
    simp [Piece.render]
  have hopen : ∀ cs, step R .endTagOpen c cs = goto (.tag ⟨true, [c], []⟩ .name) := by
    intro cs
    rw [step, if_pos halpha, toLower_of_plain (hplain c List.mem_cons_self)]
  rw [hsplit, run_of_goto (t := .tagOpen) (reading_of rfl) rfl,
    run_of_goto (t := .endTagOpen) (reading_of rfl) rfl,
    run_of_goto (reading_of rfl) (hopen _),
    run_name ⟨true, [c], []⟩ _ name fun d hd => hplain d (List.mem_cons_of_mem _ hd),
    run_cons (reading_tag _ _)]
  rfl

/-! ### Rows of pieces -/

theorem isMarkup_render {ps : List Piece} (h : ∃ p ∈ ps.head?, ∀ t, p ≠ .text t) :
    IsMarkup (ps.flatMap Piece.render) := by
  obtain ⟨p, hp, htag⟩ := h
  obtain ⟨rest, rfl⟩ : ∃ rest, ps = p :: rest := List.head?_eq_some_iff.mp hp
  cases p with
  | openTag name attrs => rfl
  | closeTag name => rfl
  | text t => exact absurd rfl (htag t)

theorem plainChar_markup {c : Char} (h : plainChar c = true) : c ≠ '>' ∧ c ≠ '&' :=
  ⟨ne_gt_of_plain h, plainChar_ne h (by decide)⟩

/-- What holds of the characters of names and values, and of those that are put between them,
holds of all that stands in a plain start tag. -/
theorem forall_mem_openTag {p : Char → Prop} {name : List Char}
    {attrs : List (List Char × List Char)} (h : plainTag name attrs = true)
    (hname : ∀ c, plainChar c = true → p c)
    (hvalue : ∀ c, c ≠ '&' → c ≠ '>' → c ≠ '\r' → p c) :
    ∀ c ∈ name ++ attrs.flatMap renderAttr, p c := by
  simp only [plainTag, Bool.and_eq_true, decide_eq_true_eq, plainAttrs, List.all_eq_true] at h
  obtain ⟨⟨⟨hplain, -⟩, -⟩, -, hattrs⟩ := h
  have hchars : ∀ name : List Char, plainName name = true → ∀ c ∈ name, p c :=
    fun name hplain c hc =>
      hname c (List.all_eq_true.mp (Bool.and_eq_true_iff.mp hplain).2 c hc)
  refine List.forall_mem_append.mpr ⟨hchars name hplain, fun c hc => ?_⟩
  obtain ⟨a, ha, hc⟩ := List.mem_flatMap.mp hc
  obtain ⟨haname, havalue⟩ := hattrs a ha
  simp only [renderAttr, List.mem_cons, List.mem_append, List.not_mem_nil, or_false] at hc
  rcases hc with rfl | hc | rfl | rfl | hc | rfl
  · exact hvalue _ (by decide) (by decide) (by decide)
  · exact hchars a.1 haname c hc
  · exact hvalue _ (by decide) (by decide) (by decide)
  · exact hvalue _ (by decide) (by decide) (by decide)
  · obtain ⟨⟨⟨-, hamp⟩, hgt⟩, hreturn⟩ := havalue c hc
    exact hvalue c hamp hgt hreturn
  · exact hvalue _ (by decide) (by decide) (by decide)

theorem isTag_openTag {name : List Char} {attrs : List (List Char × List Char)}
    (h : plainTag name attrs = true) : IsTag (Piece.openTag name attrs).render := by
  have hchars := forall_mem_openTag h (p := fun c => c ≠ '>' ∧ c ≠ '&')
    (fun _ hc => plainChar_markup hc) fun _ hamp hgt _ => ⟨hgt, hamp⟩
  simp only [plainTag, Bool.and_eq_true] at h
  obtain ⟨c, name, rfl, halpha, -⟩ := exists_cons_of_plainName h.1.1.1
  exact ⟨c, name ++ attrs.flatMap renderAttr, by simp [Piece.render], .inl halpha, hchars⟩

/-- No line ends in a plain tag with a carriage return. -/
theorem noReturn_openTag {name : List Char} {attrs : List (List Char × List Char)}
    (h : plainTag name attrs = true) : '\r' ∉ (Piece.openTag name attrs).render := by
  have hchars := forall_mem_openTag h (p := (· ≠ '\r'))
    (fun _ hc => plainChar_ne hc (by decide)) fun _ _ _ hreturn => hreturn
  intro hmem
  rw [Piece.render, List.mem_cons, ← List.append_assoc, List.mem_append, List.mem_singleton] at hmem
  rcases hmem with hmem | hmem | hmem
  · exact absurd hmem (by decide)
  · exact hchars _ hmem rfl
  · exact absurd hmem (by decide)

theorem noReturn_closeTag {name : List Char} (h : plainName name = true) :
    '\r' ∉ (Piece.closeTag name).render := by
  have hchars : ∀ c ∈ name, c ≠ '\r' := fun c hc =>
    plainChar_ne (List.all_eq_true.mp (Bool.and_eq_true_iff.mp h).2 c hc) (by decide)
  intro hmem
  simp only [Piece.render, List.mem_cons, List.mem_append, List.not_mem_nil, or_false] at hmem
  rcases hmem with hmem | hmem | hmem | hmem
  · exact absurd hmem (by decide)
  · exact absurd hmem (by decide)
  · exact hchars _ hmem rfl
  · exact absurd hmem (by decide)

theorem isTag_closeTag {name : List Char} (h : plainName name = true) :
    IsTag (Piece.closeTag name).render :=
  ⟨'/', name, rfl, .inr rfl, List.forall_mem_cons.mpr ⟨by decide, fun _ hc =>
    plainChar_markup (List.all_eq_true.mp (Bool.and_eq_true_iff.mp h).2 _ hc)⟩⟩

/-- **Pieces with inert texts are read as they were written.** -/
theorem run_pieces {ps : List Piece} (hps : WellFormed ps)
    (hinert : ∀ t, .text t ∈ ps → R.inert t = true) :
    run R (ps.flatMap Piece.render) 0 .data = ps.flatMap Piece.tokens := by
  induction ps with
  | nil => rfl
  | cons p ps ih =>
    have hrest : ∀ t, .text t ∈ ps → R.inert t = true := fun t ht =>
      hinert t (List.mem_cons_of_mem _ ht)
    rw [List.flatMap_cons, List.flatMap_cons]
    cases p with
    | openTag name attrs =>
      rw [run_openTag hps.1, ih hps.2 hrest]
      rfl
    | closeTag name =>
      rw [run_closeTag hps.1, ih hps.2 hrest]
      rfl
    | text t =>
      obtain ⟨-, hnext, hps⟩ := hps
      have hrun := run_inert (isMarkup_render hnext) t (hinert t List.mem_cons_self)
      rw [ih hps hrest] at hrun
      exact hrun

/-- **Pieces whose texts hold no brackets** yield their tags, and characters between them. -/
theorem filterMap_run_pieces {β : Type*} {f : Token → Option β} (hf : ∀ c, f (.char c) = none)
    {ps : List Piece} (hps : WellFormed ps) (htext : ∀ t, .text t ∈ ps → '<' ∉ t)
    (tail : List Char) :
    (run R (ps.flatMap Piece.render ++ tail) 0 .data).filterMap f
      = (ps.flatMap Piece.tokens).filterMap f ++ (run R tail 0 .data).filterMap f := by
  have hchars : ∀ (cs : List Char) (l : List Token),
      (cs.map Token.char ++ l).filterMap f = l.filterMap f := by
    intro cs l
    have hnone : (cs.map Token.char).filterMap f = [] := by
      rw [List.filterMap_map]
      exact List.filterMap_eq_nil_iff.mpr fun c _ => hf c
    rw [List.filterMap_append, hnone, List.nil_append]
  induction ps with
  | nil => rfl
  | cons p ps ih =>
    have hrest : ∀ t, .text t ∈ ps → '<' ∉ t := fun t ht => htext t (List.mem_cons_of_mem _ ht)
    rw [List.flatMap_cons, List.flatMap_cons, List.append_assoc]
    cases p with
    | openTag name attrs =>
      rw [run_openTag hps.1, List.filterMap_append, List.append_assoc, ← ih hps.2 hrest,
        Piece.tokens, ← List.filterMap_append]
      rfl
    | closeTag name =>
      rw [run_closeTag hps.1, List.filterMap_append, List.append_assoc, ← ih hps.2 hrest,
        Piece.tokens, ← List.filterMap_append]
      rfl
    | text t =>
      obtain ⟨-, hnext, hps⟩ := hps
      have hmarkup : IsMarkup (ps.flatMap Piece.render ++ tail) := by
        have hhead := isMarkup_render hnext
        obtain ⟨rest, heq⟩ : ∃ rest, ps.flatMap Piece.render = '<' :: rest :=
          List.head?_eq_some_iff.mp hhead
        rw [heq]
        rfl
      obtain ⟨cs, hcs⟩ := run_of_noBracket hmarkup (htext t List.mem_cons_self) 0 (Nat.zero_le _)
      rw [Piece.render, hcs, hchars, ih hps hrest, Piece.tokens, hchars]

/-- The characters that pieces are meant to yield. -/
def textLength (ps : List Piece) : ℕ := countChars (ps.flatMap Piece.tokens)

theorem textLength_cons (p : Piece) (ps : List Piece) :
    textLength (p :: ps) = countChars p.tokens + textLength ps := by
  rw [textLength, List.flatMap_cons, countChars, List.countP_append]
  rfl

/-- Whatever state they are read in, no more characters come out of them. -/
theorem bound_pieces {ps : List Piece} (hps : WellFormed ps) (s : State) (hs : s.Reading) :
    Bound R (s.pending + textLength ps) s (ps.flatMap Piece.render) := by
  induction ps generalizing s with
  | nil =>
    refine .inr ?_
    cases s with
    | content name => exact absurd rfl (hs name)
    | data | tagOpen | endTagOpen | markupDeclaration | tag | comment | bogusComment | doctype =>
      exact le_rfl
  | cons p ps ih =>
    rw [List.flatMap_cons, textLength_cons]
    cases p with
    | openTag name attrs =>
      exact (bound_markup (ih hps.2) (isTag_openTag hps.1) s hs).mono
        (Nat.add_le_add_left (Nat.le_add_left _ _) _)
    | closeTag name =>
      exact (bound_markup (ih hps.2) (isTag_closeTag hps.1) s hs).mono
        (Nat.add_le_add_left (Nat.le_add_left _ _) _)
    | text t =>
      obtain ⟨-, hnext, hps⟩ := hps
      rw [Piece.tokens, countChars_map_char]
      exact bound_text (isMarkup_render hnext) (ih hps) t s hs

/-- **When a text among them is not inert**, fewer characters come out. -/
theorem bound_pieces_lt {ps : List Piece} (hps : WellFormed ps) {t : List Char}
    (ht : .text t ∈ ps) (hinert : R.inert t = false) :
    ∃ n, n < textLength ps ∧ Bound R n .data (ps.flatMap Piece.render) := by
  induction ps with
  | nil => exact absurd ht List.not_mem_nil
  | cons p ps ih =>
    have hdata : State.data.Reading := reading_of rfl
    rw [List.flatMap_cons, textLength_cons]
    cases p with
    | openTag name attrs =>
      obtain ⟨n, hn, hbound⟩ := ih hps.2 (List.mem_of_ne_of_mem (by simp) ht)
      refine ⟨n, hn.trans_le (Nat.le_add_left _ _), ?_⟩
      rw [Bound, run_openTag hps.1]
      exact hbound.imp (fun h => h.append_left [_]) id
    | closeTag name =>
      obtain ⟨n, hn, hbound⟩ := ih hps.2 (List.mem_of_ne_of_mem (by simp) ht)
      refine ⟨n, hn.trans_le (Nat.le_add_left _ _), ?_⟩
      rw [Bound, run_closeTag hps.1]
      exact hbound.imp (fun h => h.append_left [_]) id
    | text t' =>
      obtain ⟨-, hnext, hps⟩ := hps
      rw [Piece.tokens, countChars_map_char]
      by_cases hfirst : R.inert t' = true
      · have hne : Piece.text t ≠ .text t' := by
          intro heq
          obtain rfl : t = t' := Piece.text.inj heq
          exact Bool.noConfusion (hfirst.symm.trans hinert)
        obtain ⟨n, hn, hbound⟩ := ih hps (List.mem_of_ne_of_mem hne ht)
        refine ⟨t'.length + n, Nat.add_lt_add_left hn _, ?_⟩
        rw [Bound, Piece.render, run_inert (isMarkup_render hnext) t' hfirst]
        refine hbound.imp (fun h => h.append_left _) fun hle => ?_
        rw [countChars, List.countP_append]
        exact Nat.add_le_add (countChars_map_char t').le hle
      · exact bound_of_not_inert (isMarkup_render hnext) (bound_pieces hps) t'
          (Bool.eq_false_iff.mpr hfirst)

/-- Plain tags are those of elements without rules of their own. -/
theorem not_hasOwn_tokens {ps : List Piece} (hps : WellFormed ps) :
    ¬HasOwn (ps.flatMap Piece.tokens) := by
  rintro ⟨name, attrs, hmem, hown⟩
  induction ps with
  | nil => exact absurd hmem List.not_mem_nil
  | cons p ps ih =>
    rw [List.flatMap_cons, List.mem_append] at hmem
    cases p with
    | openTag name' attrs' =>
      rcases hmem with hmem | hmem
      · obtain ⟨rfl, rfl⟩ := Token.startTag.inj (List.mem_singleton.mp hmem)
        have hplain := hps.1
        simp only [plainTag, Bool.and_eq_true, Bool.not_eq_true', List.contains_eq_mem,
          decide_eq_false_iff_not] at hplain
        exact hplain.1.1.2 hown
      · exact ih hps.2 hmem
    | closeTag name' =>
      rcases hmem with hmem | hmem
      · exact Token.noConfusion (List.mem_singleton.mp hmem)
      · exact ih hps.2 hmem
    | text t =>
      rcases hmem with hmem | hmem
      · obtain ⟨c, -, hc⟩ := List.mem_map.mp hmem
        exact Token.noConfusion hc
      · exact ih hps.2.2 hmem

end Html
