import WifiRepeater.Lib.Html.Tree

/-!
# Templates

A page puts texts into a tree of elements that its script writes down.  Whether such a tree can
be read back at all is a matter of its tags and of where its texts stand, and is settled
element by element.  What is left is that the texts are inert, and rows that stand side by side
do not disturb each other.  The ends of lines, which are normalized before the tokenizer runs, are
a matter of each text for itself.

## Main definitions

* `textsOf` — the texts of a row of nodes.
* `Neat` — the tags are plain, no text is empty, and none stands behind another.
* `textNodes` — a text that may be missing.
* `InertTexts` — every text is inert.
* `normalizeTexts` — the row with the ends of lines in its texts normalized.

## Main results

* `wellFormed_of_neat` — a neat row of elements is well formed.
* `parse_neat_iff` — **it is read back if and only if its texts are inert.**
* `parse_append_iff` — **rows side by side are read back if and only if each is.**
* `parse_normalized_iff` — **the ends of lines make no difference to that.**
-/

namespace Html

variable {R : Rules}

/-! ### The texts of a tree -/

mutual

/-- The texts of a node. -/
def Node.texts : Node → List (List Char)
  | .element _ _ children => textsOf children
  | .text t => [t]

/-- The texts of a row of nodes. -/
def textsOf : List Node → List (List Char)
  | [] => []
  | node :: nodes => node.texts ++ textsOf nodes

end

@[simp] theorem textsOf_nil : textsOf [] = [] := rfl

@[simp] theorem textsOf_element (name : List Char) (attrs : List (List Char × List Char))
    (children nodes : List Node) :
    textsOf (.element name attrs children :: nodes) = textsOf children ++ textsOf nodes := rfl

@[simp] theorem textsOf_text (t : List Char) (nodes : List Node) :
    textsOf (.text t :: nodes) = t :: textsOf nodes := rfl

@[simp] theorem textsOf_append (nodes nodes' : List Node) :
    textsOf (nodes ++ nodes') = textsOf nodes ++ textsOf nodes' := by
  induction nodes with
  | nil => rfl
  | cons node nodes ih => rw [List.cons_append, textsOf, textsOf, ih, List.append_assoc]

mutual

theorem text_mem_pieces {t : List Char} : ∀ node : Node, .text t ∈ node.pieces ↔ t ∈ node.texts
  | .element name attrs children => by
    simp [Node.pieces, Node.texts, text_mem_piecesOf children]
  | .text t' => by simp [Node.pieces, Node.texts]

/-- The texts are the pieces that are texts. -/
theorem text_mem_piecesOf {t : List Char} : ∀ nodes : List Node,
    .text t ∈ piecesOf nodes ↔ t ∈ textsOf nodes
  | [] => by simp [piecesOf]
  | node :: nodes => by
    rw [piecesOf, textsOf, List.mem_append, List.mem_append, text_mem_pieces node,
      text_mem_piecesOf nodes]

end

/-- Nothing in any text of the row begins a tag, a comment or a character reference. -/
def InertTexts (R : Rules) (nodes : List Node) : Prop := ∀ t ∈ textsOf nodes, R.inert t = true

@[simp] theorem inertTexts_nil : InertTexts R [] := fun _ ht => absurd ht List.not_mem_nil

@[simp] theorem inertTexts_element {name : List Char} {attrs : List (List Char × List Char)}
    {children nodes : List Node} :
    InertTexts R (.element name attrs children :: nodes) ↔
      InertTexts R children ∧ InertTexts R nodes := by
  simp only [InertTexts, textsOf_element, List.forall_mem_append]

@[simp] theorem inertTexts_text {t : List Char} {nodes : List Node} :
    InertTexts R (.text t :: nodes) ↔ R.inert t = true ∧ InertTexts R nodes := by
  simp only [InertTexts, textsOf_text, List.forall_mem_cons]

@[simp] theorem inertTexts_append {nodes nodes' : List Node} :
    InertTexts R (nodes ++ nodes') ↔ InertTexts R nodes ∧ InertTexts R nodes' := by
  simp only [InertTexts, textsOf_append, List.forall_mem_append]

/-- A row made of the items of a list. -/
theorem inertTexts_map {α : Type*} {f : α → Node} {l : List α} :
    InertTexts R (l.map f) ↔ ∀ a ∈ l, InertTexts R [f a] := by
  induction l with
  | nil => simp
  | cons a l ih =>
    rw [List.map_cons, List.forall_mem_cons, ← ih, ← List.singleton_append, inertTexts_append]

/-! ### Neat rows -/

/-- The node is a text. -/
def Node.isText : Node → Bool
  | .element .. => false
  | .text _ => true

mutual

/-- The tags of the node are plain, no text is empty, and none stands behind another. -/
def Node.Neat : Node → Prop
  | .element name attrs children => plainTag name attrs = true ∧ Neat children
  | .text t => t ≠ []

/-- So are those of a row. -/
def Neat : List Node → Prop
  | [] => True
  | node :: nodes =>
      node.Neat ∧ ¬(node.isText = true ∧ nodes.head?.any Node.isText = true) ∧ Neat nodes

end

@[simp] theorem neat_nil : Neat [] := trivial

@[simp] theorem neat_element {name : List Char} {attrs : List (List Char × List Char)}
    {children nodes : List Node} :
    Neat (.element name attrs children :: nodes) ↔
      plainTag name attrs = true ∧ Neat children ∧ Neat nodes := by
  simp [Neat, Node.Neat, Node.isText, and_assoc]

/-- Behind an element, anything may stand. -/
theorem neat_cons {node : Node} {nodes : List Node} (hnode : node.isText = false) :
    Neat (node :: nodes) ↔ node.Neat ∧ Neat nodes := by
  simp [Neat, hnode]

/-- A row of neat elements. -/
theorem neat_of_forall {nodes : List Node} (h : ∀ node ∈ nodes, node.Neat ∧ node.isText = false) :
    Neat nodes := by
  induction nodes with
  | nil => trivial
  | cons node nodes ih =>
    obtain ⟨hnode, hrest⟩ := List.forall_mem_cons.mp h
    exact (neat_cons hnode.2).mpr ⟨hnode.1, ih hrest⟩

/-- A text, or nothing if it is empty. -/
def textNodes (t : List Char) : List Node := if t = [] then [] else [.text t]

/-- A text in front of an element, or alone. -/
theorem neat_textNodes_append {t : List Char} {nodes : List Node}
    (hnodes : nodes.head?.any Node.isText = false) (h : Neat nodes) :
    Neat (textNodes t ++ nodes) := by
  unfold textNodes
  split_ifs with ht
  · exact h
  · exact ⟨ht, by simp [hnodes], h⟩

theorem neat_textNodes (t : List Char) : Neat (textNodes t) := by
  have hneat : Neat (textNodes t ++ []) := neat_textNodes_append rfl trivial
  rwa [List.append_nil] at hneat

theorem render_textNodes (t : List Char) : render (textNodes t) = t := by
  unfold textNodes
  split_ifs with ht
  · rw [ht]
    rfl
  · simp [render, piecesOf, Node.pieces, Piece.render]

/-- A text that is not there is as good as an inert one. -/
@[simp] theorem inertTexts_textNodes {t : List Char} :
    InertTexts R (textNodes t) ↔ R.inert t = true := by
  unfold textNodes
  split_ifs with ht
  · simp [ht, Rules.inert]
  · simp

/-! ### How neat rows are read -/

mutual

theorem wellFormed_pieces : ∀ (node : Node) {ps : List Piece}, node.Neat → WellFormed ps →
    (node.isText = true → ∃ p ∈ ps.head?, ∀ t, p ≠ .text t) → WellFormed (node.pieces ++ ps)
  | .element name attrs children, ps, h, hps, _ => by
    obtain ⟨htag, hchildren⟩ := h
    rw [Node.pieces, List.cons_append, List.append_assoc]
    refine ⟨htag, wellFormed_inside children hchildren (wellFormed_closeTag htag hps) ?_⟩
    exact ⟨_, rfl, fun _ h => Piece.noConfusion h⟩
  | .text t, ps, h, hps, hnext => ⟨h, hnext rfl, hps⟩

/-- A neat row in front of a tag. -/
theorem wellFormed_inside : ∀ (nodes : List Node) {ps : List Piece}, Neat nodes → WellFormed ps →
    (∃ p ∈ ps.head?, ∀ t, p ≠ .text t) → WellFormed (piecesOf nodes ++ ps)
  | [], _, _, hps, _ => hps
  | node :: nodes, ps, h, hps, hnext => by
    obtain ⟨hnode, hapart, hnodes⟩ := h
    rw [piecesOf, List.append_assoc]
    refine wellFormed_pieces node hnode (wellFormed_inside nodes hnodes hps hnext) fun htext => ?_
    cases nodes with
    | nil => exact hnext
    | cons next nodes =>
      cases next with
      | element name attrs children => exact ⟨_, rfl, fun _ h => Piece.noConfusion h⟩
      | text t => exact absurd ⟨htext, rfl⟩ hapart

end

/-- **A neat row of elements** is well formed. -/
theorem wellFormed_of_neat {nodes : List Node} (h : Neat nodes)
    (helements : ∀ node ∈ nodes, node.isText = false) : WellFormed (piecesOf nodes) := by
  induction nodes with
  | nil => trivial
  | cons node nodes ih =>
    obtain ⟨hnode, hrest⟩ := List.forall_mem_cons.mp helements
    obtain ⟨hneat, hnodes⟩ := (neat_cons hnode).mp h
    refine wellFormed_pieces node hneat (ih hnodes hrest) fun htext => ?_
    exact absurd (hnode.symm.trans htext) Bool.noConfusion

theorem wellFormed_append {ps qs : List Piece} (hps : WellFormed ps) (hqs : WellFormed qs) :
    WellFormed (ps ++ qs) := by
  induction ps with
  | nil => exact hqs
  | cons p ps ih =>
    cases p with
    | openTag name attrs => exact ⟨hps.1, ih hps.2⟩
    | closeTag name => exact ⟨hps.1, ih hps.2⟩
    | text t =>
      obtain ⟨ht, ⟨p, hp, htag⟩, hps⟩ := hps
      obtain ⟨rest, rfl⟩ : ∃ rest, ps = p :: rest := List.head?_eq_some_iff.mp hp
      exact ⟨ht, ⟨p, rfl, htag⟩, ih hps⟩

theorem piecesOf_append (nodes nodes' : List Node) :
    piecesOf (nodes ++ nodes') = piecesOf nodes ++ piecesOf nodes' := by
  induction nodes with
  | nil => rfl
  | cons node nodes ih => rw [List.cons_append, piecesOf, piecesOf, ih, List.append_assoc]

theorem render_append (nodes nodes' : List Node) :
    render (nodes ++ nodes') = render nodes ++ render nodes' := by
  rw [render, render, render, piecesOf_append, List.flatMap_append]

/-- **When a neat row of elements is read back**: exactly when its texts are inert. -/
theorem parse_neat_iff {nodes : List Node} (h : Neat nodes)
    (helements : ∀ node ∈ nodes, node.isText = false) :
    parse R (render nodes) = nodes ↔ InertTexts R nodes := by
  rw [parse_render_iff (wellFormed_of_neat h helements)]
  simp only [text_mem_piecesOf, InertTexts]

/-- **Rows side by side** are read back exactly when each of them is. -/
theorem parse_append_iff {nodes nodes' : List Node} (h : WellFormed (piecesOf nodes))
    (h' : WellFormed (piecesOf nodes')) :
    parse R (render (nodes ++ nodes')) = nodes ++ nodes' ↔
      parse R (render nodes) = nodes ∧ parse R (render nodes') = nodes' := by
  have happend : WellFormed (piecesOf (nodes ++ nodes')) := by
    rw [piecesOf_append]
    exact wellFormed_append h h'
  rw [parse_render_iff happend, parse_render_iff h, parse_render_iff h', piecesOf_append]
  simp only [List.mem_append, or_imp, forall_and]

/-! ### The ends of lines -/

mutual

/-- The node with the ends of lines in its texts normalized. -/
def Node.normalizeTexts : Node → Node
  | .element name attrs children => .element name attrs (normalizeTexts children)
  | .text t => .text (normalizeNewlines t)

/-- The row with the ends of lines in its texts normalized. -/
def normalizeTexts : List Node → List Node
  | [] => []
  | node :: nodes => node.normalizeTexts :: normalizeTexts nodes

end

/-- So are its pieces. -/
def Piece.normalized : Piece → Piece
  | .text t => .text (normalizeNewlines t)
  | p => p

mutual

theorem pieces_normalizeTexts : ∀ node : Node,
    node.normalizeTexts.pieces = node.pieces.map Piece.normalized
  | .element name attrs children => by
    rw [Node.normalizeTexts, Node.pieces, Node.pieces, piecesOf_normalizeTexts children,
      List.map_cons, List.map_append]
    rfl
  | .text t => rfl

theorem piecesOf_normalizeTexts : ∀ nodes : List Node,
    piecesOf (normalizeTexts nodes) = (piecesOf nodes).map Piece.normalized
  | [] => rfl
  | node :: nodes => by
    rw [normalizeTexts, piecesOf, piecesOf, pieces_normalizeTexts node,
      piecesOf_normalizeTexts nodes, List.map_append]

end

/-- In front of what is no line feed, a text is normalized as it is alone. -/
theorem normalizeNewlines_append_cons (t : List Char) {c : Char} (hc : c ≠ '\n')
    (cs : List Char) :
    normalizeNewlines (t ++ c :: cs) = normalizeNewlines t ++ normalizeNewlines (c :: cs) := by
  fun_induction normalizeNewlines t with
  | case1 => rfl
  | case2 t ih => rw [List.cons_append, List.cons_append, normalizeNewlines, ih, List.cons_append]
  | case3 d t hd ih =>
    rw [List.cons_append, normalizeNewlines, ih, List.cons_append]
    rintro cs' rfl hcons
    cases t with
    | nil => exact hc (List.cons.inj hcons).1
    | cons e t => exact hd _ rfl (congrArg (· :: t) (List.cons.inj hcons).1)

theorem normalizeNewlines_ne_nil {t : List Char} (h : t ≠ []) : normalizeNewlines t ≠ [] := by
  fun_cases normalizeNewlines t with
  | case1 => exact absurd rfl h
  | case2 t => exact List.cons_ne_nil _ _
  | case3 c t _ => exact List.cons_ne_nil _ _

/-- What an ampersand or a bracket looks at ends in front of the end of a line. -/
theorem front_normalizeNewlines (t : List Char) :
    (normalizeNewlines t).takeWhile isRefChar = t.takeWhile isRefChar ∧
      (normalizeNewlines t).head?.any opensMarkup = t.head?.any opensMarkup := by
  fun_induction normalizeNewlines t with
  | case1 => exact ⟨rfl, rfl⟩
  | case2 t _ => exact ⟨rfl, rfl⟩
  | case3 c t _ ih =>
    split_ifs with hc
    · subst hc
      exact ⟨rfl, rfl⟩
    · rw [List.takeWhile_cons, List.takeWhile_cons, ih.1]
      exact ⟨rfl, rfl⟩

/-- The ends of lines open nothing, and are no part of a reference. -/
theorem inert_normalizeNewlines (t : List Char) :
    R.inert (normalizeNewlines t) = R.inert t := by
  have hline : ∀ c : Char, c = '\r' ∨ c = '\n' → ∀ cs, R.inert (c :: cs) = R.inert cs := by
    rintro c (rfl | rfl) cs <;> simp [Rules.inert, Rules.reference]
  fun_induction normalizeNewlines t with
  | case1 => rfl
  | case2 t ih => rw [hline _ (.inr rfl), hline _ (.inl rfl), hline _ (.inr rfl), ih]
  | case3 c t _ ih =>
    split_ifs with hc
    · rw [hline _ (.inr rfl), hline _ (.inl hc), ih]
    · obtain ⟨href, hopen⟩ := front_normalizeNewlines t
      rw [Rules.inert, Rules.inert, Rules.reference, Rules.reference, ih, href, hopen]

/-- The tags of a row have no ends of lines in them. -/
theorem normalizeNewlines_pieces {ps : List Piece} (h : WellFormed ps) :
    normalizeNewlines (ps.flatMap Piece.render)
      = (ps.map Piece.normalized).flatMap Piece.render := by
  induction ps with
  | nil => rfl
  | cons p ps ih =>
    rw [List.flatMap_cons, List.map_cons, List.flatMap_cons]
    cases p with
    | openTag name attrs =>
      rw [normalizeNewlines_append (noReturn_openTag h.1), ih h.2]
      rfl
    | closeTag name =>
      rw [normalizeNewlines_append (noReturn_closeTag h.1), ih h.2]
      rfl
    | text t =>
      obtain ⟨-, hnext, hps⟩ := h
      obtain ⟨rest, hrest⟩ : ∃ rest, ps.flatMap Piece.render = '<' :: rest :=
        List.head?_eq_some_iff.mp (isMarkup_render hnext)
      rw [← ih hps, hrest]
      exact normalizeNewlines_append_cons t (by decide) rest

theorem wellFormed_normalized {ps : List Piece} (h : WellFormed ps) :
    WellFormed (ps.map Piece.normalized) := by
  induction ps with
  | nil => trivial
  | cons p ps ih =>
    cases p with
    | openTag name attrs => exact ⟨h.1, ih h.2⟩
    | closeTag name => exact ⟨h.1, ih h.2⟩
    | text t =>
      obtain ⟨ht, ⟨p, hp, htag⟩, hps⟩ := h
      refine ⟨normalizeNewlines_ne_nil ht, ⟨p.normalized, ?_, ?_⟩, ih hps⟩
      · rw [List.head?_map, Option.mem_def.mp hp]
        rfl
      · cases p with
        | text t' => exact absurd rfl (htag t')
        | openTag name attrs => exact fun _ h => Piece.noConfusion h
        | closeTag name => exact fun _ h => Piece.noConfusion h

/-- **The ends of lines make no difference**: the row is read back as a browser reads it, with the
ends of lines in its texts normalized, exactly when it is read back at all. -/
theorem parse_normalized_iff {nodes : List Node} (h : WellFormed (piecesOf nodes)) :
    parse R (normalizeNewlines (render nodes)) = normalizeTexts nodes ↔
      parse R (render nodes) = nodes := by
  have hpieces := piecesOf_normalizeTexts nodes
  have hwf : WellFormed (piecesOf (normalizeTexts nodes)) := by
    rw [hpieces]
    exact wellFormed_normalized h
  have hrender : normalizeNewlines (render nodes) = render (normalizeTexts nodes) := by
    rw [render, render, hpieces, normalizeNewlines_pieces h]
  rw [hrender, parse_render_iff hwf, parse_render_iff h, hpieces]
  constructor
  · intro hinert t ht
    rw [← inert_normalizeNewlines]
    exact hinert _ (List.mem_map.mpr ⟨_, ht, rfl⟩)
  · intro hinert t ht
    obtain ⟨p, hp, heq⟩ := List.mem_map.mp ht
    cases p with
    | openTag name attrs => exact Piece.noConfusion heq
    | closeTag name => exact Piece.noConfusion heq
    | text t' =>
      obtain rfl : normalizeNewlines t' = t := Piece.text.inj heq
      rw [inert_normalizeNewlines]
      exact hinert t' hp

end Html
