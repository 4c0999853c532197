import WifiRepeater.Lib.Js
import WifiRepeater.Web.Dashboard

/-!
# Picking a network by a click

A click on a scanned network is to fill in its name.  The name, which a stranger chose, is
put into the handler of the click: into a string of the script, in the value of an
attribute.  It is escaped for neither; a backslash is put before every apostrophe, and that
is all.

## Main definitions

* `pickTag` — the start tag of an item, with its handler.
* `Clickable`, `clickables` — what can be clicked on in markup, and what a click calls.
* `Pickable` — the names that need no more than their apostrophes escaped.

## Main results

* `tokenize_of_noQuote`, `startTag_of_quote` — the tag as it is read, up to its handler's end.
* `clickables_pickTag`, `head?_clickables_pickTag` — **an item whose name is pickable, and one
  whose name is not.**
-/

namespace WifiRepeater

open Html (Rules Token normalizeNewlines renderAttr)

/-! ### Picking -/

/-- The start tag of an item: its handler calls a function with the SSID. -/
def pickTag (cls callee ssid : List Char) : List Char :=
  js "<div class=\"" ++ cls ++ js "\" onclick=\"" ++ callee ++ js "('" ++ Js.escapeQuotes ssid ++
    js "')\">"

/-- An element whose clicks are handled. -/
structure Clickable where
  /-- Its name. -/
  name : List Char
  /-- Its other attributes. -/
  attrs : List (List Char × List Char)
  /-- The call that its handler is. -/
  call : Option (List Char × List ℕ)
  deriving DecidableEq

/-- Whether a token begins one. -/
def clickable : Token → Option Clickable
  | .startTag name attrs => (attrs.lookup (js "onclick")).map fun handler =>
      ⟨name, attrs.filter (·.1 ≠ js "onclick"), Js.call handler⟩
  | _ => none

/-- What can be clicked on in markup. -/
def clickables (R : Rules) (markup : List Char) : List Clickable :=
  (Html.tokenize R (normalizeNewlines markup)).filterMap clickable

/-- An element of the template: a click calls the function with the SSID. -/
def picks (cls callee ssid : List Char) : Clickable :=
  ⟨js "div", [(js "class", cls)], some (callee, Js.ofChars ssid)⟩

/-- The SSIDs that hold no double quote, no backslash, no end of a line and no character
reference. -/
def Pickable (R : Rules) (ssid : List Char) : Prop :=
  (∀ c ∈ ssid, c ≠ '"' ∧ Js.Plain c) ∧ R.attrInert ssid = true

instance (R : Rules) (ssid : List Char) : Decidable (Pickable R ssid) :=
  @instDecidableAnd _ _ (List.decidableBAll _ ssid) inferInstance

/-! ### The tag as it is read -/

/-- The ends of lines in an SSID, with its apostrophes escaped. -/
theorem normalizeNewlines_escapeQuotes (ssid rest : List Char) :
    normalizeNewlines (Js.escapeQuotes ssid ++ '\'' :: rest)
      = Js.escapeQuotes (normalizeNewlines ssid) ++ normalizeNewlines ('\'' :: rest) := by
  fun_induction normalizeNewlines ssid with
  | case1 => rfl
  | case2 cs ih =>
    rw [Js.escapeQuotes_cons (by decide), Js.escapeQuotes_cons (by decide),
      Js.escapeQuotes_cons (by decide), List.cons_append, List.cons_append, List.cons_append,
      normalizeNewlines, ih]
  | case3 c cs hcrlf ih =>
    by_cases hquote : c = '\''
    · rw [hquote, if_neg (by decide), Js.escapeQuotes_quote, Js.escapeQuotes_quote,
        List.cons_append, List.cons_append, Html.normalizeNewlines_cons (by decide),
        Html.normalizeNewlines_cons (by decide), ih]
      rfl
    · have hline : ∀ ds, c = '\r' → Js.escapeQuotes cs ++ '\'' :: rest = '\n' :: ds → False := by
        intro ds hc heq
        cases cs with
        | nil => exact absurd (List.cons.inj heq).1 (by decide)
        | cons d cs =>
          by_cases hd : d = '\''
          · rw [hd, Js.escapeQuotes_quote] at heq
            exact absurd (List.cons.inj heq).1 (by decide)
          · rw [Js.escapeQuotes_cons hd] at heq
            exact hcrlf cs hc (congrArg (· :: cs) (List.cons.inj heq).1)
      have hne : (if c = '\r' then '\n' else c) ≠ '\'' := by
        split_ifs
        · decide
        · exact hquote
      rw [Js.escapeQuotes_cons hquote, Js.escapeQuotes_cons hne, List.cons_append,
        List.cons_append, normalizeNewlines, ih]
      exact hline

/-- The tag is written by parts. -/
theorem pickTag_eq (cls callee ssid tail : List Char) :
    pickTag cls callee ssid ++ tail
      = '<' :: (js "div" ++ (renderAttr (js "class", cls) ++ (js " onclick=\"" ++
          (callee ++ '(' :: '\'' ::
            (Js.escapeQuotes ssid ++ '\'' :: ')' :: '"' :: '>' :: tail))))) := by
  have hopen : js "<div class=\"" = '<' :: (js "div" ++ ' ' :: (js "class" ++ ['=', '"'])) := by
    simp only [js]
    rfl
  have hhandler : js "\" onclick=\"" = '"' :: js " onclick=\"" := by
    simp only [js]
    rfl
  have hcall : js "('" = ['(', '\''] := by
    simp only [js]
    rfl
  have hclose : js "')\">" = ['\'', ')', '"', '>'] := by
    simp only [js]
    rfl
  rw [pickTag, hopen, hhandler, hcall, hclose, renderAttr]
  simp only [List.append_assoc, List.cons_append, List.nil_append]

/-- The ends of lines in the tag are those of the SSID. -/
theorem normalizeNewlines_pickTag {cls callee : List Char} (hcls : '\r' ∉ cls)
    (hcallee : '\r' ∉ callee) (ssid tail : List Char) :
    normalizeNewlines (pickTag cls callee ssid ++ tail)
      = pickTag cls callee (normalizeNewlines ssid) ++ normalizeNewlines tail := by
  have hfront : '\r' ∉ js "<div class=\"" ++ cls ++ js "\" onclick=\"" ++ callee ++ js "('" := by
    simp only [List.mem_append, not_or]
    refine ⟨⟨⟨⟨?_, hcls⟩, ?_⟩, hcallee⟩, ?_⟩ <;> rw [js] <;> decide
  have hback : js "')\">" = ['\'', ')', '"', '>'] := by
    rw [js]
    rfl
  unfold pickTag
  rw [List.append_assoc, List.append_assoc, Html.normalizeNewlines_append hfront, hback,
    List.cons_append, normalizeNewlines_escapeQuotes]
  simp only [List.cons_append, List.nil_append, List.append_assoc]
  rw [Html.normalizeNewlines_cons (by decide), Html.normalizeNewlines_cons (by decide),
    Html.normalizeNewlines_cons (by decide), Html.normalizeNewlines_cons (by decide)]

section

variable {R : Rules} {cls callee : List Char}

/-- The value of the handler, with its references replaced. -/
theorem attrText_call (hcallee : Js.isName callee = true) (text : List Char) :
    R.attrText (callee ++ '(' :: '\'' :: text) 0 = callee ++ '(' :: '\'' :: R.attrText text 0 := by
  have hamp : '&' ∉ callee := fun hmem =>
    absurd (Js.isNameChar_of_isName hcallee _ hmem) (by decide)
  rw [Html.attrText_of_noAmp hamp, Html.attrText_cons (by decide), Html.attrText_cons (by decide)]

/-- **The tag up to its handler.** -/
theorem tokenize_pickTag (hcls : '"' ∉ cls ∧ '&' ∉ cls) (ssid tail : List Char) :
    Html.tokenize R (pickTag cls callee ssid ++ tail)
      = Html.run R (js " onclick=\"" ++
          (callee ++ '(' :: '\'' :: (Js.escapeQuotes ssid ++ '\'' :: ')' :: '"' :: '>' :: tail))) 0
        (.tag ⟨false, js "div", [(js "class", cls)]⟩ .afterAttrValue) := by
  have hdiv : Html.plainName (js "div") = true := by
    rw [js]
    decide
  have hclass : Html.plainName (js "class") = true := by
    rw [js]
    decide
  rw [pickTag_eq, Html.tokenize, Html.run_startTag hdiv,
    Html.run_renderAttr (.inl rfl) hclass hcls.1, Html.attrText_eq_self hcls.2]
  rfl

/-- **A value of the handler**, up to a double quote. -/
theorem run_onclick {value : List Char}
    (hvalue : '"' ∉ value) (rest : List Char) :
    Html.run R (js " onclick=\"" ++ (value ++ '"' :: rest)) 0
        (.tag ⟨false, js "div", [(js "class", cls)]⟩ .afterAttrValue)
      = Html.run R rest 0 (.tag ⟨false, js "div",
          [(js "class", cls), (js "onclick", R.attrText value 0)]⟩ .afterAttrValue) := by
  have hname : Html.plainName (js "onclick") = true := by
    rw [js]
    decide
  have hne : js "onclick" ≠ js "class" := by
    rw [js, js]
    decide
  have hnew : js "onclick" ∉ [(js "class", cls)].map Prod.fst := by
    rw [List.map_singleton, List.mem_singleton]
    exact hne
  have hopen : js " onclick=\"" = ' ' :: (js "onclick" ++ ['=', '"']) := by
    rw [js, js]
    rfl
  have hsplit : js " onclick=\"" ++ (value ++ '"' :: rest)
      = renderAttr (js "onclick", value) ++ rest := by
    rw [hopen, renderAttr]
    simp only [List.append_assoc, List.cons_append, List.nil_append]
  rw [hsplit, Html.run_renderAttr (.inr rfl) hname hvalue, Html.Tag.addAttr, if_neg hnew]
  rfl

/-- A handler that was read up to a double quote holds none. -/
theorem quote_notMem_handler (hcallee : Js.isName callee = true) {ssid : List Char}
    (h : '"' ∉ ssid) : '"' ∉ callee ++ '(' :: '\'' :: Js.escapeQuotes ssid := by
  intro hmem
  rcases List.mem_append.mp hmem with hmem | hmem
  · exact absurd (Js.isNameChar_of_isName hcallee _ hmem) (by decide)
  · rw [List.mem_cons, or_iff_right (by decide), List.mem_cons, or_iff_right (by decide)] at hmem
    exact h (Js.mem_of_mem_escapeQuotes (by decide) hmem)

/-- **An SSID without a double quote** stays in the handler, and the tag is the template's. -/
theorem tokenize_of_noQuote (hcls : '"' ∉ cls ∧ '&' ∉ cls)
    (hcallee : Js.isName callee = true) {ssid : List Char} (h : '"' ∉ ssid) (tail : List Char) :
    Html.tokenize R (pickTag cls callee ssid ++ tail)
      = .startTag (js "div") [(js "class", cls), (js "onclick", callee ++ '(' :: '\'' ::
          (R.attrText (Js.escapeQuotes ssid) 0 ++ ['\'', ')']))] :: Html.tokenize R tail := by
  have hend : Html.EndsRef '\'' := by decide
  have hclose : R.attrText ['\'', ')'] 0 = ['\'', ')'] := Html.attrText_eq_self (by decide)
  have htext : R.attrText (Js.escapeQuotes ssid ++ ['\'', ')']) 0
      = R.attrText (Js.escapeQuotes ssid) 0 ++ ['\'', ')'] := by
    rw [Html.attrText_append hend _ _ 0 (Nat.zero_le _), hclose]
  have hvalue : '"' ∉ callee ++ '(' :: '\'' :: (Js.escapeQuotes ssid ++ ['\'', ')']) := by
    have hfront := quote_notMem_handler hcallee h
    intro hmem
    rw [← List.cons_append, ← List.cons_append, ← List.append_assoc, List.mem_append] at hmem
    exact hmem.elim hfront (by decide)
  have hdiv : js "div" ∉ Html.ownContent := by
    rw [js]
    decide
  have hsplit : callee ++ '(' :: '\'' :: (Js.escapeQuotes ssid ++ '\'' :: ')' :: '"' :: '>' :: tail)
      = (callee ++ '(' :: '\'' :: (Js.escapeQuotes ssid ++ ['\'', ')'])) ++ '"' :: '>' :: tail := by
    simp only [List.append_assoc, List.cons_append, List.nil_append]
  rw [tokenize_pickTag hcls, hsplit, run_onclick hvalue, attrText_call hcallee, htext,
    Html.run_gt (.inr rfl), Html.emitTag_start hdiv]
  rfl

/-- **A double quote ends the handler**: what was read of it before stays. -/
theorem startTag_of_quote (hcls : '"' ∉ cls ∧ '&' ∉ cls)
    (hcallee : Js.isName callee = true) {front : List Char} (h : '"' ∉ front)
    {back tail : List Char} {token : Token} {rest : List Token}
    (htokens : Html.tokenize R (pickTag cls callee (front ++ '"' :: back) ++ tail)
      = token :: rest) :
    ∃ name attrs, token = .startTag name ([(js "class", cls), (js "onclick", callee ++ '(' ::
      '\'' :: R.attrText (Js.escapeQuotes front) 0)] ++ attrs) := by
  have hvalue : '"' ∉ callee ++ '(' :: '\'' :: Js.escapeQuotes front :=
    quote_notMem_handler hcallee h
  have hsplit : callee ++ '(' :: '\'' :: (Js.escapeQuotes (front ++ '"' :: back)
        ++ '\'' :: ')' :: '"' :: '>' :: tail)
      = (callee ++ '(' :: '\'' :: Js.escapeQuotes front)
        ++ '"' :: (Js.escapeQuotes back ++ '\'' :: ')' :: '"' :: '>' :: tail) := by
    rw [Js.escapeQuotes_append, Js.escapeQuotes_cons (by decide)]
    simp only [List.append_assoc, List.cons_append]
  rw [tokenize_pickTag hcls, hsplit, run_onclick hvalue, attrText_call hcallee] at htokens
  obtain ⟨⟨isEnd, name, attrs⟩, ht, rfl⟩ := Html.attrs_of_run _ 0 _ _ htokens
  obtain ⟨attrs, rfl⟩ := ht.attrs
  obtain rfl : isEnd = false := ht.isEnd
  exact ⟨name, attrs, rfl⟩

/-- The backslashes that are added end a reference as the apostrophes do. -/
theorem attrReference_escapeQuotes (c : Char) (ssid : List Char) :
    R.attrReference c (Js.escapeQuotes ssid) = R.attrReference c ssid := by
  refine Html.attrReference_congr c ?_ ?_
  · induction ssid with
    | nil => rfl
    | cons d ssid ih =>
      by_cases hd : d = '\''
      · rw [hd, Js.escapeQuotes_quote, List.takeWhile_cons_of_neg (by decide),
          List.takeWhile_cons_of_neg (by decide)]
      · rw [Js.escapeQuotes_cons hd, List.takeWhile_cons, List.takeWhile_cons, ih]
  · induction ssid with
    | nil => rfl
    | cons d ssid ih =>
      by_cases hd : d = '\''
      · rw [hd, Js.escapeQuotes_quote, List.dropWhile_cons_of_neg (by decide),
          List.dropWhile_cons_of_neg (by decide)]
        exact iff_of_false (by simp) (by simp)
      · rw [Js.escapeQuotes_cons hd, List.dropWhile_cons, List.dropWhile_cons]
        split_ifs
        · exact ih
        · rfl

theorem attrInert_escapeQuotes (ssid : List Char) :
    R.attrInert (Js.escapeQuotes ssid) = R.attrInert ssid := by
  induction ssid with
  | nil => rfl
  | cons c ssid ih =>
    by_cases hc : c = '\''
    · rw [hc, Js.escapeQuotes_quote, Rules.attrInert, Rules.attrInert, Rules.attrInert, ih,
        Html.attrReference_of_ne (by decide), Html.attrReference_of_ne (by decide),
        Html.attrReference_of_ne (by decide)]
      rfl
    · rw [Js.escapeQuotes_cons hc, Rules.attrInert, Rules.attrInert, ih,
        attrReference_escapeQuotes]

/-- A value is no longer than it is written, and shorter when a reference is in it. -/
theorem weight_attrText_escapeQuotes (ssid : List Char) :
    Js.weight '\'' (R.attrText (Js.escapeQuotes ssid) 0) ≤ ssid.length ∧
      (ssid.length ≤ Js.weight '\'' (R.attrText (Js.escapeQuotes ssid) 0) →
        R.attrInert ssid = true) := by
  have hchars : ∀ c, Html.isRefChar c = true → decide (c ≠ '\'') = true := by
    rintro c hc
    refine decide_eq_true ?_
    rintro rfl
    exact absurd hc (by decide)
  rw [← Js.weight_escapeQuotes ssid, ← attrInert_escapeQuotes]
  refine ⟨Html.countP_attrText_le (by decide) hchars _ 0, fun hle => ?_⟩
  by_contra hinert
  have hlt := Html.countP_attrText_lt (R := R) (by decide) hchars
    (Bool.eq_false_iff.mpr hinert)
  exact absurd hle (Nat.not_le.mpr hlt)

/-- The handler of a tag of the template is what its clicks call. -/
theorem clickable_startTag (name handler : List Char) (attrs : List (List Char × List Char)) :
    clickable (.startTag name ([(js "class", cls), (js "onclick", handler)] ++ attrs))
      = some ⟨name, (js "class", cls) :: attrs.filter (·.1 ≠ js "onclick"), Js.call handler⟩ := by
  have hne : js "class" ≠ js "onclick" := by
    rw [js, js]
    decide
  have hlookup : (js "onclick" == js "class") = false := beq_false_of_ne hne.symm
  simp [clickable, List.lookup_cons, hlookup, hne]

/-- An item of the list, up to what stands in it. -/
structure IsItem (cls callee : List Char) : Prop where
  /-- Its class needs no care. -/
  plain : '"' ∉ cls ∧ '&' ∉ cls
  /-- And is one line. -/
  line : '\r' ∉ cls
  /-- A function is called. -/
  name : Js.isName callee = true

theorem IsItem.noReturn (h : IsItem cls callee) : '\r' ∉ callee := fun hmem =>
  absurd (Js.isNameChar_of_isName h.name _ hmem) (by decide)

/-- **A pickable SSID is picked**, whatever stands behind the tag. -/
theorem clickables_pickTag (h : IsItem cls callee) {ssid : List Char} (hssid : Pickable R ssid)
    (tail : List Char) :
    clickables R (pickTag cls callee ssid ++ tail)
      = picks cls callee ssid :: clickables R tail := by
  obtain ⟨hchars, hinert⟩ := hssid
  have hquote : '"' ∉ ssid := fun hmem => (hchars _ hmem).1 rfl
  have hself : normalizeNewlines ssid = ssid := by
    have happend := Html.normalizeNewlines_append (fun hmem => (hchars _ hmem).2.2.2 rfl) []
    rwa [List.append_nil, Html.normalizeNewlines_nil, List.append_nil] at happend
  have hcall := Js.call_escapeQuotes h.name fun c hc => (hchars c hc).2
  have hclick := @clickable_startTag cls (js "div")
    (callee ++ '(' :: '\'' :: (Js.escapeQuotes ssid ++ ['\'', ')'])) []
  rw [clickables, normalizeNewlines_pickTag h.line h.noReturn, hself,
    tokenize_of_noQuote h.plain h.name hquote,
    Html.attrText_of_attrInert ((attrInert_escapeQuotes _).trans hinert)]
  rw [hcall] at hclick
  exact List.filterMap_cons_some hclick

/-- A handler that was ended by a double quote is too short for the SSID. -/
theorem call_ne_of_quote (hcallee : Js.isName callee = true) {ssid front back : List Char}
    (hssid : normalizeNewlines ssid = front ++ '"' :: back) :
    Js.call (callee ++ '(' :: '\'' :: R.attrText (Js.escapeQuotes front) 0)
      ≠ some (callee, Js.ofChars ssid) := by
  intro hcall
  obtain ⟨after, hlit, -⟩ := Js.literal_of_call hcallee hcall
  have hle := Js.literal_le hlit
  have hlen := Html.length_normalizeNewlines_le ssid
  have hweight := (weight_attrText_escapeQuotes (R := R) front).1
  rw [List.drop_zero, Js.leads_ofChars] at hle
  rw [hssid, List.length_append, List.length_cons] at hlen
  omega

/-- A handler that is the call is one of a pickable SSID. -/
theorem pickable_of_call (hcallee : Js.isName callee = true) {ssid : List Char}
    (hquote : '"' ∉ normalizeNewlines ssid)
    (hcall : Js.call (callee ++ '(' :: '\'' ::
        (R.attrText (Js.escapeQuotes (normalizeNewlines ssid)) 0 ++ ['\'', ')']))
      = some (callee, Js.ofChars ssid)) : Pickable R ssid := by
  have hlen := Html.length_normalizeNewlines_le ssid
  obtain ⟨after, hlit, hpos⟩ := Js.literal_of_call hcallee hcall
  have hle := Js.literal_le hlit
  have hclose : Js.weight '\'' ['\'', ')'] = 1 := by decide
  rw [List.drop_zero, Js.leads_ofChars, Js.weight_append, hclose] at hle
  -- every character of the SSID is in the value, so none was lost to a reference
  have hinert := (weight_attrText_escapeQuotes (R := R) (normalizeNewlines ssid)).2 (by omega)
  rw [Html.attrText_of_attrInert ((attrInert_escapeQuotes _).trans hinert)] at hlit
  have hplain := Js.plain_of_literal hlit hpos (by rw [Js.leads_ofChars]; exact hlen)
  have hself := (Html.normalizeNewlines_eq_self fun hmem => (hplain _ hmem).2.1 rfl).1
  rw [hself] at hquote hplain hinert
  exact ⟨fun c hc => ⟨fun heq => hquote (heq ▸ hc), hplain c hc⟩, hinert⟩

/-- **No other SSID is picked**: its tag is lost, or it does something else. -/
theorem head?_clickables_pickTag (h : IsItem cls callee) {ssid : List Char}
    (hssid : ¬Pickable R ssid) (tail : List Char) :
    (clickables R (pickTag cls callee ssid ++ tail)).head? ≠ some (picks cls callee ssid) := by
  rw [clickables, normalizeNewlines_pickTag h.line h.noReturn]
  cases htokens : Html.tokenize R
      (pickTag cls callee (normalizeNewlines ssid) ++ normalizeNewlines tail) with
  | nil => exact nofun
  | cons token rest =>
    obtain ⟨c, hclick, hne⟩ :
        ∃ c, clickable token = some c ∧ c.call ≠ some (callee, Js.ofChars ssid) := by
      by_cases hquote : '"' ∈ normalizeNewlines ssid
      · obtain ⟨front, back, heq, hfront⟩ := List.eq_append_cons_of_mem hquote
        rw [heq] at htokens
        obtain ⟨name, attrs, rfl⟩ := startTag_of_quote h.plain h.name hfront htokens
        exact ⟨_, clickable_startTag name _ attrs, call_ne_of_quote h.name heq⟩
      · rw [tokenize_of_noQuote h.plain h.name hquote] at htokens
        obtain ⟨rfl, -⟩ := List.cons.inj htokens
        exact ⟨_, clickable_startTag (js "div") _ [], fun hcall =>
          hssid (pickable_of_call h.name hquote hcall)⟩
    rw [List.filterMap_cons_some hclick, List.head?_cons]
    rintro heq
    exact hne (congrArg Clickable.call (Option.some.inj heq))

end

end WifiRepeater
