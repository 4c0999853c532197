import WifiRepeater.Lib.CString
import WifiRepeater.Lib.Html.Tree

/-!
# The DNS card of the dashboard

`renderDashboard` puts the log entries it was sent into a string of markup, between the tags
of a fixed template, and lets the browser read it.  The fields go in as they are; the function
that escapes them, `escapeHtmlStr`, is used for the list of scanned networks only.

## Main definitions

* `DnsLogJson`, `formatUptime`, `dnsItem`, `dnsCard` — the entries and the string.
* `dnsItemNode`, `dnsCardNode` — the template, with the fields as texts.

## Main results

* `dnsCard_eq` — the string is the template, written down.
* `parse_dnsCard_iff` — **when the browser reads the template with the domains as texts.**
-/

namespace WifiRepeater

open Html (Node Piece)

/-! ### The string -/

/-- A string literal of the script. -/
@[irreducible] def js (literal : String) : List Char := literal.toList

/-- An entry of `dns_logs`. -/
structure DnsLogJson where
  /-- `ts`. -/
  ts : ℕ
  /-- `mac`. -/
  mac : List Char
  /-- `ip`. -/
  ip : List Char
  /-- `domain`. -/
  domain : List Char
  /-- `qtype`. -/
  qtype : ℕ
  deriving DecidableEq

/-- `text || other`: the empty string counts as false. -/
def orElse (text other : List Char) : List Char := if text = [] then other else text

/-- A number in a string. -/
def numberText (n : ℕ) : List Char := (toString n).toList

/-- `formatUptime`. -/
def formatUptime (seconds : ℕ) : List Char :=
  let h := seconds / 3600
  let m := seconds % 3600 / 60
  let s := seconds % 60
  [' '].intercalate
    ((if h > 0 then [numberText h ++ ['h']] else []) ++
      [numberText m ++ ['m'], numberText s ++ ['s']])

/-- What stands in the first line of an entry. -/
def dnsMeta (log : DnsLogJson) : List Char :=
  formatUptime log.ts ++ js " | " ++ orElse log.mac (js "unknown") ++ js " | " ++
    orElse log.ip (js "-") ++ js " | type " ++ numberText log.qtype

/-- The markup of the entry at an index. -/
def dnsItem (i : ℕ) (log : DnsLogJson) : List Char :=
  js "<div class=\"dns-item" ++ (if i = 0 then js " latest" else []) ++ js "\">" ++
    (js "<div class=\"dns-meta\">" ++ dnsMeta log ++ js "</div>") ++
    (js "<div class=\"dns-domain\">" ++ orElse log.domain (js "-") ++ js "</div>") ++
    js "</div>"

/-- The number of entries shown. -/
def maxDns (dnsExpanded : Bool) (logs : List DnsLogJson) : ℕ :=
  if dnsExpanded then logs.length else min 4 logs.length

/-- The button below a log of more than four entries. -/
def dnsToggle (dnsExpanded : Bool) : List Char :=
  js "<div class=\"dns-toggle\"><button onclick=\"toggleDnsLogs()\">" ++
    (if dnsExpanded then js "Show less" else js "Show more") ++
    js "</button></div>"

/-- The DNS card of `renderDashboard`. -/
def dnsCard (dnsExpanded : Bool) (logs : List DnsLogJson) : List Char :=
  js "<div class=\"card\"><h2>🧭 DNS Activity</h2>" ++
    (if logs.length ≠ 0 then
      js "<div class=\"dns-list\">" ++
        ((logs.take (maxDns dnsExpanded logs)).mapIdx dnsItem).flatten ++ js "</div>" ++
        (if logs.length > 4 then dnsToggle dnsExpanded else [])
    else js "<div class=\"loading\">No DNS activity yet</div>") ++
    js "</div>"

/-! ### The template -/

/-- An element of the template. -/
def el (name : String) (attrs : List (String × String)) (children : List Node) : Node :=
  .element name.toList (attrs.map fun a => (a.1.toList, a.2.toList)) children

/-- The entry at an index. -/
def dnsItemNode (i : ℕ) (log : DnsLogJson) : Node :=
  el "div" [("class", if i = 0 then "dns-item latest" else "dns-item")]
    [el "div" [("class", "dns-meta")] [.text (dnsMeta log)],
      el "div" [("class", "dns-domain")] [.text (orElse log.domain (js "-"))]]

/-- The button. -/
def dnsToggleNode (dnsExpanded : Bool) : Node :=
  el "div" [("class", "dns-toggle")]
    [el "button" [("onclick", "toggleDnsLogs()")]
      [.text (if dnsExpanded then js "Show less" else js "Show more")]]

/-- The card. -/
def dnsCardNode (dnsExpanded : Bool) (logs : List DnsLogJson) : Node :=
  el "div" [("class", "card")] <|
    el "h2" [] [.text (js "🧭 DNS Activity")] ::
      if logs.length ≠ 0 then
        el "div" [("class", "dns-list")]
            ((logs.take (maxDns dnsExpanded logs)).mapIdx dnsItemNode) ::
          if logs.length > 4 then [dnsToggleNode dnsExpanded] else []
      else [el "div" [("class", "loading")] [.text (js "No DNS activity yet")]]

/-! ### The string is the template -/

/-- How the start tag of an element of the template is written. -/
def openText (name : String) (attrs : List (String × String)) : List Char :=
  (Piece.openTag name.toList (attrs.map fun a => (a.1.toList, a.2.toList))).render

theorem render_cons (node : Node) (nodes : List Node) :
    Html.render (node :: nodes) = Html.render [node] ++ Html.render nodes := by
  simp [Html.render, Html.piecesOf]

theorem render_text (t : List Char) : Html.render [.text t] = t := by
  simp [Html.render, Html.piecesOf, Node.pieces, Piece.render]

theorem render_el (name : String) (attrs : List (String × String)) (children : List Node) :
    Html.render [el name attrs children]
      = openText name attrs
        ++ (Html.render children ++ (Piece.closeTag name.toList).render) := by
  simp [Html.render, el, Html.piecesOf, Node.pieces, openText]

theorem render_el_cons (name : String) (attrs : List (String × String))
    (children nodes : List Node) :
    Html.render (el name attrs children :: nodes)
      = openText name attrs ++ (Html.render children
        ++ ((Piece.closeTag name.toList).render ++ Html.render nodes)) := by
  rw [render_cons, render_el, List.append_assoc, List.append_assoc]

theorem render_text_cons (t : List Char) (nodes : List Node) :
    Html.render (.text t :: nodes) = t ++ Html.render nodes := by
  rw [render_cons, render_text]

theorem render_nil : Html.render [] = [] := rfl

theorem closeText_div : (Piece.closeTag "div".toList).render = js "</div>" := by
  rw [js]
  decide +kernel

theorem dnsItem_eq (i : ℕ) (log : DnsLogJson) :
    dnsItem i log = Html.render [dnsItemNode i log] := by
  have hitem : openText "div" [("class", if i = 0 then "dns-item latest" else "dns-item")]
      = js "<div class=\"dns-item" ++ (if i = 0 then js " latest" else []) ++ js "\">" := by
    simp only [js]
    split_ifs <;> rfl
  have hmeta : openText "div" [("class", "dns-meta")] = js "<div class=\"dns-meta\">" := by
    rw [js]
    decide +kernel
  have hdomain : openText "div" [("class", "dns-domain")] = js "<div class=\"dns-domain\">" := by
    rw [js]
    decide +kernel
  rw [dnsItem, dnsItemNode, render_el, render_cons, render_el, render_el, render_text, render_text,
    hitem, hmeta, hdomain, closeText_div]
  simp only [List.append_assoc]

theorem dnsToggle_eq (dnsExpanded : Bool) :
    dnsToggle dnsExpanded = Html.render [dnsToggleNode dnsExpanded] := by
  have hopen : openText "div" [("class", "dns-toggle")]
      ++ openText "button" [("onclick", "toggleDnsLogs()")]
      = js "<div class=\"dns-toggle\"><button onclick=\"toggleDnsLogs()\">" := by
    rw [js]
    decide +kernel
  have hclose : (Piece.closeTag "button".toList).render ++ js "</div>"
      = js "</button></div>" := by
    rw [js, js]
    decide +kernel
  rw [dnsToggle, dnsToggleNode, render_el, render_el, render_text, closeText_div, ← hopen, ← hclose]
  simp only [List.append_assoc]

/-- The entries from an index on. -/
theorem dnsItems_eq (logs : List DnsLogJson) (n : ℕ) :
    (logs.mapIdx fun i => dnsItem (n + i)).flatten
      = Html.render (logs.mapIdx fun i => dnsItemNode (n + i)) := by
  induction logs generalizing n with
  | nil => rfl
  | cons log logs ih =>
    have hshift : ∀ i, n + (i + 1) = (n + 1) + i := fun i => by omega
    rw [List.mapIdx_cons, List.mapIdx_cons, List.flatten_cons, render_cons, dnsItem_eq,
      funext fun i => congrArg dnsItem (hshift i),
      funext fun i => congrArg dnsItemNode (hshift i), ih]

/-- **The string is the template**, written down. -/
theorem dnsCard_eq (dnsExpanded : Bool) (logs : List DnsLogJson) :
    dnsCard dnsExpanded logs = Html.render [dnsCardNode dnsExpanded logs] := by
  have hitems := dnsItems_eq (logs.take (maxDns dnsExpanded logs)) 0
  simp only [Nat.zero_add] at hitems
  have hcard : openText "div" [("class", "card")] ++ (openText "h2" [] ++
      (js "🧭 DNS Activity" ++ (Piece.closeTag "h2".toList).render))
      = js "<div class=\"card\"><h2>🧭 DNS Activity</h2>" := by
    rw [js, js]
    decide +kernel
  have hlist : openText "div" [("class", "dns-list")] = js "<div class=\"dns-list\">" := by
    rw [js]
    decide +kernel
  have hloading : openText "div" [("class", "loading")] ++
      (js "No DNS activity yet" ++ js "</div>")
      = js "<div class=\"loading\">No DNS activity yet</div>" := by
    rw [js, js, js]
    decide +kernel
  have hnil : Html.render [] = [] := rfl
  rw [dnsCard, dnsCardNode, render_el, render_cons, render_el, render_text, closeText_div]
  rw [← hcard]
  split_ifs with hempty hmore
  · rw [render_cons, render_el, ← hitems, ← dnsToggle_eq, hlist, closeText_div]
    simp only [List.append_assoc]
  · rw [render_cons, render_el, ← hitems, hnil, hlist, closeText_div]
    simp only [List.append_assoc]
  · rw [render_el, render_text, ← hloading, closeText_div]
    simp only [List.append_assoc]

/-! ### The texts of the template -/

/-- Neither address of an entry holds markup. -/
def DnsLogJson.PlainAddresses (log : DnsLogJson) : Prop :=
  Html.NoMarkup log.mac ∧ Html.NoMarkup log.ip

theorem orElse_ne_nil {text other : List Char} (h : other ≠ []) : orElse text other ≠ [] := by
  unfold orElse
  split_ifs with htext
  · exact h
  · exact htext

theorem noMarkup_orElse {text other : List Char} (htext : Html.NoMarkup text)
    (hother : Html.NoMarkup other) : Html.NoMarkup (orElse text other) := by
  unfold orElse
  split_ifs
  · exact hother
  · exact htext

theorem isDigit_of_mem_numberText {n : ℕ} {c : Char} (hc : c ∈ numberText n) :
    c.isDigit = true := by
  rw [numberText, Nat.toString_eq_ofList_toDigits, String.toList_ofList] at hc
  exact Nat.isDigit_of_mem_toDigits (by decide) (by decide) hc

theorem noMarkup_numberText (n : ℕ) : Html.NoMarkup (numberText n) := by
  intro c hc
  have hdigit := isDigit_of_mem_numberText hc
  constructor <;>
    · rintro rfl
      exact absurd hdigit (by decide)

theorem noMarkup_formatUptime (seconds : ℕ) : Html.NoMarkup (formatUptime seconds) := by
  have hpart : ∀ (n : ℕ) (c : Char), c ≠ '<' ∧ c ≠ '&' → Html.NoMarkup (numberText n ++ [c]) :=
    fun n c hc => (noMarkup_numberText n).append fun d hd => by
      rw [List.mem_singleton.mp hd]
      exact hc
  refine List.forall_mem_intercalate (by simp) fun l hl => ?_
  rcases List.mem_append.mp hl with hl | hl
  · split_ifs at hl
    · rw [List.mem_singleton.mp hl]
      exact hpart _ 'h' (by decide)
    · exact absurd hl List.not_mem_nil
  · simp only [List.mem_cons, List.not_mem_nil, or_false] at hl
    rcases hl with rfl | rfl
    · exact hpart _ 'm' (by decide)
    · exact hpart _ 's' (by decide)

theorem noMarkup_dnsMeta {log : DnsLogJson} (h : log.PlainAddresses) :
    Html.NoMarkup (dnsMeta log) := by
  have hliteral : Html.NoMarkup (js " | ") ∧ Html.NoMarkup (js "unknown") ∧
      Html.NoMarkup (js "-") ∧ Html.NoMarkup (js " | type ") := by
    simp only [js]
    decide
  obtain ⟨hbar, hunknown, hdash, htype⟩ := hliteral
  exact ((((((noMarkup_formatUptime _).append hbar).append (noMarkup_orElse h.1 hunknown)).append
    hbar).append (noMarkup_orElse h.2 hdash)).append htype).append (noMarkup_numberText _)

theorem dnsMeta_ne_nil (log : DnsLogJson) : dnsMeta log ≠ [] := by
  have hbar : js " | type " ≠ [] := by
    rw [js]
    decide
  simp [dnsMeta, hbar]

/-- The entries are well formed: a domain that is missing is shown as a dash. -/
theorem wellFormed_dnsItems (logs : List DnsLogJson) (n : ℕ) {ps : List Piece}
    (h : Html.WellFormed ps) :
    Html.WellFormed (Html.piecesOf (logs.mapIdx fun i => dnsItemNode (n + i)) ++ ps) := by
  have hmeta : Html.plainTag "div".toList [("class".toList, "dns-meta".toList)] = true := by
    decide +kernel
  have hdomain : Html.plainTag "div".toList [("class".toList, "dns-domain".toList)] = true := by
    decide +kernel
  have hitem : ∀ i : ℕ, Html.plainTag "div".toList
      [("class".toList, (if i = 0 then "dns-item latest" else "dns-item").toList)] = true := by
    intro i
    split_ifs <;> decide +kernel
  have hdash : js "-" ≠ [] := by
    rw [js]
    decide
  induction logs generalizing n with
  | nil => exact h
  | cons log logs ih =>
    have hshift : ∀ i, n + (i + 1) = (n + 1) + i := fun i => by omega
    have hrest := ih (n + 1)
    rw [List.mapIdx_cons, funext fun i => congrArg dnsItemNode (hshift i)]
    refine Html.wellFormed_element (hitem _) (Html.wellFormed_element hmeta ?_)
    refine Html.wellFormed_text (dnsMeta_ne_nil log) (Html.wellFormed_closeTag hmeta ?_)
    refine Html.wellFormed_element hdomain ?_
    exact Html.wellFormed_text (orElse_ne_nil hdash) (Html.wellFormed_closeTag hdomain
      (Html.wellFormed_closeTag (hitem 0) hrest))

theorem wellFormed_dnsCardNode (dnsExpanded : Bool) (logs : List DnsLogJson) :
    Html.WellFormed (Html.piecesOf [dnsCardNode dnsExpanded logs]) := by
  have hdiv : ∀ c ∈ ["card", "dns-list", "loading", "dns-toggle"],
      Html.plainTag "div".toList [("class".toList, c.toList)] = true := by
    decide +kernel
  have hcard := hdiv "card" (by simp)
  have hlist := hdiv "dns-list" (by simp)
  have hloading := hdiv "loading" (by simp)
  have htoggle := hdiv "dns-toggle" (by simp)
  have hh2 : Html.plainTag "h2".toList [] = true := by decide +kernel
  have hbutton : Html.plainTag "button".toList
      [("onclick".toList, "toggleDnsLogs()".toList)] = true := by
    decide +kernel
  have htexts : js "🧭 DNS Activity" ≠ [] ∧ js "No DNS activity yet" ≠ [] ∧
      js "Show less" ≠ [] ∧ js "Show more" ≠ [] := by
    simp only [js]
    decide
  obtain ⟨htitle, hnone, hless, hmore⟩ := htexts
  have hlabel : (if dnsExpanded then js "Show less" else js "Show more") ≠ [] := by
    split_ifs
    · exact hless
    · exact hmore
  have hend : Html.WellFormed (.closeTag "div".toList :: ([] : List Piece)) :=
    Html.wellFormed_closeTag hcard trivial
  rw [← List.append_nil (Html.piecesOf _)]
  refine Html.wellFormed_element hcard (Html.wellFormed_element hh2 ?_)
  refine Html.wellFormed_text htitle (Html.wellFormed_closeTag hh2 ?_)
  split_ifs with hempty hmany
  · have hitems := fun ps => @wellFormed_dnsItems (logs.take (maxDns dnsExpanded logs)) 0 ps
    simp only [Nat.zero_add] at hitems
    refine Html.wellFormed_element hlist (hitems _ (Html.wellFormed_closeTag hlist ?_))
    refine Html.wellFormed_element htoggle (Html.wellFormed_element hbutton ?_)
    exact Html.wellFormed_text hlabel (Html.wellFormed_closeTag hbutton
      (Html.wellFormed_closeTag htoggle hend))
  · have hitems := fun ps => @wellFormed_dnsItems (logs.take (maxDns dnsExpanded logs)) 0 ps
    simp only [Nat.zero_add] at hitems
    exact Html.wellFormed_element hlist (hitems _ (Html.wellFormed_closeTag hlist hend))
  · refine Html.wellFormed_element hloading ?_
    exact Html.wellFormed_text hnone (Html.wellFormed_closeTag hloading hend)

/-- The texts of the entries. -/
theorem text_mem_dnsItems (logs : List DnsLogJson) (n : ℕ) (t : List Char) :
    .text t ∈ Html.piecesOf (logs.mapIdx fun i => dnsItemNode (n + i)) ↔
      ∃ log ∈ logs, t = dnsMeta log ∨ t = orElse log.domain (js "-") := by
  induction logs generalizing n with
  | nil => simp
  | cons log logs ih =>
    have hshift : ∀ i, n + (i + 1) = (n + 1) + i := fun i => by omega
    rw [List.mapIdx_cons, funext fun i => congrArg dnsItemNode (hshift i), dnsItemNode]
    simp [el, ih (n + 1)]

/-- The texts of the template that are the same for every log. -/
def cardTexts : List (List Char) :=
  [js "🧭 DNS Activity", js "No DNS activity yet", js "Show less", js "Show more"]

theorem noMarkup_cardTexts : ∀ t ∈ cardTexts, Html.NoMarkup t := by
  simp only [cardTexts, js]
  decide

/-- Every text of the card is one of these, or stands in an entry. -/
theorem text_cases {dnsExpanded : Bool} {logs : List DnsLogJson} {t : List Char}
    (ht : .text t ∈ Html.piecesOf [dnsCardNode dnsExpanded logs]) :
    t ∈ cardTexts ∨
      ∃ log ∈ logs.take (maxDns dnsExpanded logs),
        t = dnsMeta log ∨ t = orElse log.domain (js "-") := by
  have hitems := text_mem_dnsItems (logs.take (maxDns dnsExpanded logs)) 0 t
  simp only [Nat.zero_add] at hitems
  simp only [dnsCardNode, el, Html.text_mem_element, Html.text_mem_text, Html.text_notMem_nil,
    or_false] at ht
  rcases ht with rfl | ht
  · exact .inl (by simp [cardTexts])
  · split_ifs at ht with hempty hmany
    · simp only [Html.text_mem_element, hitems, dnsToggleNode, el, Html.text_mem_text,
        Html.text_notMem_nil, or_false] at ht
      rcases ht with hlog | rfl
      · exact .inr hlog
      · refine .inl ?_
        split_ifs <;> simp [cardTexts]
    · simp only [Html.text_mem_element, hitems, Html.text_notMem_nil, or_false] at ht
      exact .inr ht
    · simp only [Html.text_mem_element, Html.text_mem_text, Html.text_notMem_nil, or_false] at ht
      exact .inl (by simp [cardTexts, ht])

/-- Every domain that is shown is a text of the card. -/
theorem domain_mem_texts {dnsExpanded : Bool} {logs : List DnsLogJson} {log : DnsLogJson}
    (hlog : log ∈ logs.take (maxDns dnsExpanded logs)) :
    .text (orElse log.domain (js "-")) ∈ Html.piecesOf [dnsCardNode dnsExpanded logs] := by
  have hitems := text_mem_dnsItems (logs.take (maxDns dnsExpanded logs)) 0
    (orElse log.domain (js "-"))
  simp only [Nat.zero_add] at hitems
  have hpos : logs.length ≠ 0 := by
    intro h
    rw [List.eq_nil_of_length_eq_zero h, List.take_nil] at hlog
    exact absurd hlog List.not_mem_nil
  rw [dnsCardNode, if_pos hpos, el, el, el, Html.text_mem_element, Html.text_mem_element,
    Html.text_mem_element, hitems]
  exact .inl (.inr (.inl ⟨log, hlog, .inr rfl⟩))

/-- **When the browser reads the template**: exactly when every domain shown is inert, if the
addresses hold no markup. -/
theorem parse_dnsCard_iff (R : Html.Rules) (dnsExpanded : Bool) {logs : List DnsLogJson}
    (hplain : ∀ log ∈ logs, log.PlainAddresses) :
    Html.parse R (dnsCard dnsExpanded logs) = [dnsCardNode dnsExpanded logs] ↔
      ∀ log ∈ logs.take (maxDns dnsExpanded logs),
        R.inert (orElse log.domain (js "-")) = true := by
  rw [dnsCard_eq, Html.parse_render_iff (wellFormed_dnsCardNode dnsExpanded logs)]
  constructor
  · intro hinert log hlog
    exact hinert _ (domain_mem_texts hlog)
  · intro hinert t ht
    rcases text_cases ht with hfixed | ⟨log, hlog, rfl | rfl⟩
    · exact Html.inert_of_noMarkup (noMarkup_cardTexts t hfixed)
    · exact Html.inert_of_noMarkup (noMarkup_dnsMeta (hplain log (List.mem_of_mem_take hlog)))
    · exact hinert log hlog

end WifiRepeater
