import WifiRepeater.Lib.Html.Pieces

/-!
# Trees read from markup

A tree is built from the tokens with a stack of open elements: a start tag opens an element
in the one that is open, an end tag closes the elements up to the next of its name, and
characters are put into the text where they stand.  These are the rules for elements that
may stand anywhere, such as `div`; comments and declarations are left out.

## Main definitions

* `treeStep`, `build`, `parse` — a tree from tokens, and from markup.

## Main results

* `build_tokensOf` — the tree is built back from its tokens.
* `countP_build` — a tree has the characters and the start tags of its tokens.
* `parse_render_iff` — **a tree is read back if and only if its texts are inert.**
-/

namespace Html

variable {R : Rules}

/-! ### Building a tree -/

/-- An open element, with what stands before it in its parent, the last first. -/
structure Frame where
  /-- Its name. -/
  name : List Char
  /-- Its attributes. -/
  attrs : List (List Char × List Char)
  /-- The nodes before it. -/
  before : List Node

/-- A character behind some nodes, of which the last is first. -/
def addChar (top : List Node) (c : Char) : List Node :=
  match top with
  | .text t :: before => .text (t ++ [c]) :: before
  | top => .text [c] :: top

/-- The open element becomes a node of its parent. -/
def Frame.close (f : Frame) (top : List Node) : List Node :=
  .element f.name f.attrs top.reverse :: f.before

/-- Elements are closed up to the innermost of a name. -/
def closeTo (name : List Char) (top : List Node) : List Frame → List Node × List Frame
  | [] => (top, [])
  | f :: frames =>
      if f.name = name then (f.close top, frames) else closeTo name (f.close top) frames

/-- What a token does to the content of the open element and the elements around it. -/
def treeStep (s : List Node × List Frame) : Token → List Node × List Frame
  | .char c => (addChar s.1 c, s.2)
  | .startTag name attrs =>
      if voidElements.contains name then (.element name attrs [] :: s.1, s.2)
      else ([], ⟨name, attrs, s.1⟩ :: s.2)
  | .endTag name => if s.2.any fun f => f.name = name then closeTo name s.1 s.2 else s
  | .comment _ => s
  | .doctype _ => s

/-- The nodes when all elements are closed. -/
def closeAll (s : List Node × List Frame) : List Node :=
  (s.2.foldl (fun top f => f.close top) s.1).reverse

/-- The tree of some tokens. -/
def build (tokens : List Token) : List Node := closeAll (tokens.foldl treeStep ([], []))

/-- **The tree of a text.** -/
def parse (R : Rules) (input : List Char) : List Node := build (tokenize R input)

/-- The last node is no text that a character could be added to. -/
def NoText (top : List Node) : Prop := ∀ t, top.head? ≠ some (.text t)

/-- The characters of a text become a text node. -/
theorem foldl_text (t : List Char) (hne : t ≠ []) {top : List Node} (htop : NoText top)
    (frames : List Frame) :
    (t.map Token.char).foldl treeStep (top, frames) = (.text t :: top, frames) := by
  have hmore : ∀ (rest front : List Char),
      (rest.map Token.char).foldl treeStep (.text front :: top, frames)
        = (.text (front ++ rest) :: top, frames) := by
    intro rest
    induction rest with
    | nil => intro front; rw [List.append_nil]; rfl
    | cons c rest ih =>
      intro front
      rw [List.map_cons, List.foldl_cons, treeStep, addChar, ih, List.append_assoc,
        List.singleton_append]
  cases t with
  | nil => exact absurd rfl hne
  | cons c t =>
    have hfirst : addChar top c = .text [c] :: top := by
      cases top with
      | nil => rfl
      | cons node top =>
        cases node with
        | element => rfl
        | text t' => exact absurd rfl (htop t')
    rw [List.map_cons, List.foldl_cons, treeStep, hfirst]
    exact hmore t [c]

theorem wellFormed_append_right {ps qs : List Piece} (h : WellFormed (ps ++ qs)) :
    WellFormed qs := by
  induction ps with
  | nil => exact h
  | cons p ps ih =>
    cases p with
    | openTag name attrs => exact ih h.2
    | closeTag name => exact ih h.2
    | text t => exact ih h.2.2

/-- Behind a node of a well-formed row there is no text that a text could be added to. -/
theorem noText_cons {node : Node} {nodes : List Node} {rest : List Piece}
    (h : WellFormed (node.pieces ++ (piecesOf nodes ++ rest))) {t : List Char}
    (ht : nodes.head? = some (.text t)) (top : List Node) : NoText (node :: top) := by
  cases node with
  | element name attrs children => exact fun t h => by simp at h
  | text t' =>
    obtain ⟨nodes, rfl⟩ : ∃ ns, nodes = .text t :: ns := List.head?_eq_some_iff.mp ht
    rw [Node.pieces, piecesOf, Node.pieces] at h
    -- a text that follows a text
    obtain ⟨-, ⟨p, hp, htag⟩, -⟩ := h
    exact absurd (Option.some.inj hp).symm (htag t)

mutual

theorem foldl_pieces : ∀ (node : Node) (rest : List Piece), WellFormed (node.pieces ++ rest) →
    ∀ (top : List Node) (frames : List Frame), (∀ t, node = .text t → NoText top) →
      (node.pieces.flatMap Piece.tokens).foldl treeStep (top, frames) = (node :: top, frames)
  | .text t, rest, h, top, frames, htop => by
    rw [Node.pieces, List.flatMap_singleton]
    exact foldl_text t h.1 (htop t rfl) frames
  | .element name attrs children, rest, h, top, frames, _ => by
    rw [Node.pieces, List.cons_append, List.append_assoc] at h
    obtain ⟨hplain, hchildren⟩ := h
    simp only [plainTag, Bool.and_eq_true, Bool.not_eq_true'] at hplain
    have hopen : treeStep (top, frames) (.startTag name attrs)
        = ([], ⟨name, attrs, top⟩ :: frames) := if_neg (Bool.eq_false_iff.mp hplain.1.2)
    have hclose : treeStep (children.reverse ++ [], ⟨name, attrs, top⟩ :: frames) (.endTag name)
        = (.element name attrs children :: top, frames) := by
      rw [treeStep, if_pos (by simp), closeTo, if_pos rfl, Frame.close, List.append_nil,
        List.reverse_reverse]
    have hinner := foldl_piecesOf children _ hchildren [] (⟨name, attrs, top⟩ :: frames)
      fun _ _ _ h => by simp at h
    rw [Node.pieces, List.flatMap_cons, List.flatMap_append, List.foldl_append, List.foldl_append,
      List.flatMap_singleton]
    show (List.foldl treeStep (List.foldl treeStep (treeStep (top, frames) (.startTag name attrs))
      _) [.endTag name]) = _
    rw [hopen, hinner]
    exact hclose

theorem foldl_piecesOf : ∀ (nodes : List Node) (rest : List Piece),
    WellFormed (piecesOf nodes ++ rest) → ∀ (top : List Node) (frames : List Frame),
      (∀ t, nodes.head? = some (.text t) → NoText top) →
      ((piecesOf nodes).flatMap Piece.tokens).foldl treeStep (top, frames)
        = (nodes.reverse ++ top, frames)
  | [], _, _, top, frames, _ => rfl
  | node :: nodes, rest, h, top, frames, htop => by
    rw [piecesOf, List.append_assoc] at h
    have hnode := foldl_pieces node (piecesOf nodes ++ rest) h top frames fun t ht =>
      htop t (congrArg some ht)
    have hnodes := foldl_piecesOf nodes rest (wellFormed_append_right h) (node :: top) frames
      fun t ht => noText_cons h ht top
    rw [piecesOf, List.flatMap_append, List.foldl_append, hnode, hnodes, List.reverse_cons,
      List.append_assoc, List.singleton_append]

end

/-- **A tree is built back from its tokens.** -/
theorem build_tokensOf {nodes : List Node} (h : WellFormed (piecesOf nodes)) :
    build (tokensOf nodes) = nodes := by
  have hfold := foldl_piecesOf nodes [] (by rwa [List.append_nil]) [] [] fun _ _ _ h => by
    simp at h
  rw [build, tokensOf, hfold, List.append_nil]
  exact List.reverse_reverse nodes

/-! ### What a tree keeps of its tokens -/

/-- A property of characters and start tags. -/
structure OfKept (p : Token → Bool) : Prop where
  /-- No end tag has it. -/
  endTag : ∀ name, p (.endTag name) = false
  /-- No comment has it. -/
  comment : ∀ text, p (.comment text) = false
  /-- No declaration has it. -/
  doctype : ∀ text, p (.doctype text) = false

/-- How many tokens with a property an unfinished tree stands for. -/
def kept (p : Token → Bool) (s : List Node × List Frame) : ℕ :=
  (tokensOf s.1).countP p +
    (s.2.flatMap fun f => Token.startTag f.name f.attrs :: tokensOf f.before).countP p

theorem tokensOf_cons (node : Node) (nodes : List Node) :
    tokensOf (node :: nodes) = node.pieces.flatMap Piece.tokens ++ tokensOf nodes := by
  rw [tokensOf, piecesOf, List.flatMap_append]
  rfl

theorem tokens_element (name : List Char) (attrs : List (List Char × List Char))
    (children : List Node) :
    (Node.element name attrs children).pieces.flatMap Piece.tokens
      = .startTag name attrs :: (tokensOf children ++ [.endTag name]) := by
  rw [Node.pieces, List.flatMap_cons, List.flatMap_append]
  rfl

theorem tokens_text (t : List Char) :
    (Node.text t).pieces.flatMap Piece.tokens = t.map .char := by
  rw [Node.pieces, List.flatMap_singleton]
  rfl

section Kept

variable {p : Token → Bool}

theorem countP_tokensOf_cons (node : Node) (nodes : List Node) :
    (tokensOf (node :: nodes)).countP p
      = (node.pieces.flatMap Piece.tokens).countP p + (tokensOf nodes).countP p := by
  rw [tokensOf_cons, List.countP_append]

theorem countP_tokensOf_reverse (nodes : List Node) :
    (tokensOf nodes.reverse).countP p = (tokensOf nodes).countP p := by
  have happend : ∀ l l' : List Node,
      (tokensOf (l ++ l')).countP p = (tokensOf l).countP p + (tokensOf l').countP p := by
    intro l l'
    induction l with
    | nil => exact (Nat.zero_add _).symm
    | cons node l ih => rw [List.cons_append, countP_tokensOf_cons, countP_tokensOf_cons, ih]; omega
  induction nodes with
  | nil => rfl
  | cons node nodes ih =>
    rw [List.reverse_cons, happend, ih, countP_tokensOf_cons, countP_tokensOf_cons]
    exact Nat.add_comm _ _

/-- The element that is closed keeps its content. -/
theorem countP_close (hp : OfKept p) (f : Frame) (top : List Node) :
    (tokensOf (f.close top)).countP p
      = (tokensOf top).countP p
        + (Token.startTag f.name f.attrs :: tokensOf f.before).countP p := by
  rw [Frame.close, countP_tokensOf_cons, tokens_element, List.countP_cons, List.countP_cons,
    List.countP_append, countP_tokensOf_reverse,
    List.countP_cons_of_neg (by simp [hp.endTag]), List.countP_nil]
  omega

theorem kept_closeTo (hp : OfKept p) (name : List Char) (top : List Node) (frames : List Frame) :
    kept p (closeTo name top frames) = kept p (top, frames) := by
  induction frames generalizing top with
  | nil => rfl
  | cons f frames ih =>
    have hclose : kept p (f.close top, frames) = kept p (top, f :: frames) := by
      simp only [kept, countP_close hp, List.flatMap_cons, List.countP_append]
      omega
    rw [closeTo]
    split_ifs
    · exact hclose
    · rw [ih, hclose]

/-- **Each token is kept**: a character as a character, a start tag as an element. -/
theorem kept_treeStep (hp : OfKept p) (s : List Node × List Frame) (token : Token) :
    kept p (treeStep s token) = kept p s + [token].countP p := by
  obtain ⟨top, frames⟩ := s
  cases token with
  | char c =>
    have hadd : (tokensOf (addChar top c)).countP p
        = (tokensOf top).countP p + [Token.char c].countP p := by
      unfold addChar
      split
      · rw [countP_tokensOf_cons, countP_tokensOf_cons, tokens_text, tokens_text, List.map_append,
          List.countP_append]
        simp only [List.map_cons, List.map_nil]
        omega
      · rw [countP_tokensOf_cons, tokens_text]
        exact Nat.add_comm _ _
    simp only [treeStep, kept, hadd]
    omega
  | startTag name attrs =>
    have hvoid : (tokensOf (.element name attrs [] :: top)).countP p
        = (tokensOf top).countP p + [Token.startTag name attrs].countP p := by
      rw [countP_tokensOf_cons, tokens_element, List.countP_cons, List.countP_append,
        List.countP_cons_of_neg (by simp [hp.endTag]), List.countP_cons]
      exact Nat.add_comm _ _
    have hnone : (tokensOf []).countP p = 0 := rfl
    rw [treeStep]
    split_ifs
    · simp only [kept, hvoid]
      omega
    · simp only [kept, hnone, List.flatMap_cons, List.countP_append, List.countP_cons,
        List.countP_nil]
      omega
  | endTag name =>
    rw [treeStep, List.countP_cons_of_neg (by simp [hp.endTag]), List.countP_nil]
    split_ifs
    · exact kept_closeTo hp name top frames
    · rfl
  | comment text => rw [treeStep, List.countP_cons_of_neg (by simp [hp.comment])]; rfl
  | doctype text => rw [treeStep, List.countP_cons_of_neg (by simp [hp.doctype])]; rfl

theorem countP_closeAll (hp : OfKept p) (s : List Node × List Frame) :
    (tokensOf (closeAll s)).countP p = kept p s := by
  obtain ⟨top, frames⟩ := s
  rw [closeAll, countP_tokensOf_reverse]
  induction frames generalizing top with
  | nil => rfl
  | cons f frames ih =>
    rw [List.foldl_cons, ih]
    simp only [kept, countP_close hp, List.flatMap_cons, List.countP_append]
    omega

/-- **A tree has the characters and the start tags of its tokens.** -/
theorem countP_build (hp : OfKept p) (tokens : List Token) :
    (tokensOf (build tokens)).countP p = tokens.countP p := by
  have hfold : ∀ s, kept p (tokens.foldl treeStep s) = kept p s + tokens.countP p := by
    induction tokens with
    | nil => exact fun s => rfl
    | cons token tokens ih =>
      intro s
      rw [List.foldl_cons, ih, kept_treeStep hp, List.countP_cons (l := tokens), List.countP_cons,
        List.countP_nil]
      omega
  rw [build, countP_closeAll hp, hfold]
  exact Nat.zero_add _

end Kept

/-- **When a tree is read back**: exactly when each of its texts is inert. -/
theorem parse_render_iff {nodes : List Node} (h : WellFormed (piecesOf nodes)) :
    parse R (render nodes) = nodes ↔ ∀ t, .text t ∈ piecesOf nodes → R.inert t = true := by
  constructor
  · intro hparse t ht
    by_contra hinert
    obtain ⟨n, hn, hbound⟩ := bound_pieces_lt h ht (Bool.eq_false_iff.mpr hinert)
    have hkept : ∀ p, OfKept p → (tokenize R (render nodes)).countP p = (tokensOf nodes).countP p :=
      fun p hp => by rw [← countP_build hp, ← parse, hparse]
    rcases hbound with ⟨name, attrs, hmem, hown⟩ | hle
    -- the element would have to stand in the tree
    · have hpos : 0 < (tokensOf nodes).countP (· = .startTag name attrs) := by
        rw [← hkept _ ⟨by simp, by simp, by simp⟩]
        exact List.countP_pos_iff.mpr ⟨_, hmem, by simp⟩
      obtain ⟨token, htoken, heq⟩ := List.countP_pos_iff.mp hpos
      obtain rfl : token = .startTag name attrs := by simpa using heq
      exact not_hasOwn_tokens h ⟨name, attrs, htoken, hown⟩
    -- the characters that are missing would have to stand in it
    · have hcount : countChars (tokenize R (render nodes)) = textLength (piecesOf nodes) :=
        hkept _ ⟨fun _ => rfl, fun _ => rfl, fun _ => rfl⟩
      have hle : countChars (tokenize R (render nodes)) ≤ n := hle
      omega
  · intro hinert
    rw [parse, tokenize, render, run_pieces h hinert]
    exact build_tokensOf h

end Html
