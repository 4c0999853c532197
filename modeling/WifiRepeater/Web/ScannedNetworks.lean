import WifiRepeater.Web.PickTag

/-!
# The scanned networks

The setup page and the settings of the dashboard show the networks that were found as a
list.  Each item begins with a tag whose handler picks the network; what stands in it, the
name once more among it, is escaped as a text, and nothing in it can be clicked on.

## Main definitions

* `ScannedNetwork`, `renderNetworks`, `scanResults` — the lists.
* `Quiet` — rows of pieces in which nothing is there to click on.

## Main results

* `netItem_eq`, `scanItem_eq` — an item is its tag and quiet pieces.
* `take_clickables_items` — the items of a list, one by one.
* `networks_picked_exactly_iff` — **which networks are picked exactly**, on both pages.
* `stranger_runs_script` — a name that ends the string.
-/

namespace WifiRepeater

open Html (Rules Node Piece normalizeNewlines piecesOf)

/-! ### The lists -/

/-- The values of `wifi_auth_mode_t` that `api_scan_handler` tells apart. -/
inductive ScanAuth
  /-- `WIFI_AUTH_OPEN`. -/
  | authOpen
  /-- `WIFI_AUTH_WEP`. -/
  | authWep
  /-- `WIFI_AUTH_WPA_PSK`. -/
  | authWpaPsk
  /-- `WIFI_AUTH_WPA2_PSK`. -/
  | authWpa2Psk
  /-- `WIFI_AUTH_WPA_WPA2_PSK`. -/
  | authWpaWpa2Psk
  /-- `WIFI_AUTH_WPA3_PSK`. -/
  | authWpa3Psk
  /-- `WIFI_AUTH_WPA2_WPA3_PSK`. -/
  | authWpa2Wpa3Psk
  /-- The others. -/
  | authOther
  deriving DecidableEq

/-- `auth_str`. -/
def ScanAuth.authStr : ScanAuth → List Char
  | .authOpen => js "Open"
  | .authWep => js "WEP"
  | .authWpaPsk => js "WPA"
  | .authWpa2Psk => js "WPA2"
  | .authWpaWpa2Psk => js "WPA/WPA2"
  | .authWpa3Psk => js "WPA3"
  | .authWpa2Wpa3Psk => js "WPA2/WPA3"
  | .authOther => js "Other"

/-- An entry of `/api/scan`. -/
structure ScannedNetwork where
  /-- `ssid`. -/
  ssid : List Char
  /-- It was a C string. -/
  noNul : '\x00' ∉ ssid
  /-- Hidden networks are skipped. -/
  visible : ssid ≠ []
  /-- `rssi`. -/
  rssi : ℤ
  /-- `auth`. -/
  auth : ScanAuth
  /-- `channel`. -/
  channel : ℕ

/-- How a character of a text node is written down. -/
def escapeChar (c : Char) : List Char :=
  if c = '&' then js "&amp;"
  else if c = '<' then js "&lt;"
  else if c = '>' then js "&gt;"
  else if c = '\u00a0' then js "&nbsp;"
  else [c]

/-- `escapeHtml`, and `escapeHtmlStr` as well: a text node, written down. -/
def escapeHtml (str : List Char) : List Char := str.flatMap escapeChar

/-- A number that may be negative in a string. -/
def intText (n : ℤ) : List Char := (toString n).toList

/-- `level` in `signalBars`. -/
def signalLevel (rssi : ℤ) : ℕ :=
  if rssi ≥ -50 then 4 else if rssi ≥ -60 then 3 else if rssi ≥ -70 then 2 else 1

/-- `signalBars`. -/
def signalBars (rssi : ℤ) : List Char :=
  js "<span class=\"signal-bars\">" ++
    ((List.range' 1 4).flatMap fun i =>
      js "<span class=\"bar" ++ (if i ≤ signalLevel rssi then js " active" else []) ++
        js "\"></span>") ++
    js "</span>"

/-- The icon of a network. -/
def netIcon (n : ScannedNetwork) : List Char :=
  if n.auth.authStr = js "Open" then js "🔓" else js "🔒"

/-- The class of an item of `renderNetworks`. -/
def netClass (selectedSSID : List Char) (n : ScannedNetwork) : List Char :=
  js "net-item" ++ (if n.ssid = selectedSSID then js " selected" else [])

/-- What is said of a network besides its name. -/
def netMeta (n : ScannedNetwork) : List Char :=
  n.auth.authStr ++ js " · Ch " ++ numberText n.channel ++ js " · " ++ intText n.rssi ++ js " dBm"

/-- An item of `renderNetworks`. -/
def netItem (selectedSSID : List Char) (n : ScannedNetwork) : List Char :=
  pickTag (netClass selectedSSID n) (js "selectNetwork") n.ssid ++
    (js "<span class=\"net-icon\">" ++ netIcon n ++ js "</span>") ++
    js "<div class=\"net-info\">" ++
    (js "<div class=\"net-ssid\">" ++ escapeHtml n.ssid ++ js "</div>") ++
    (js "<div class=\"net-meta\">" ++ netMeta n ++ signalBars n.rssi ++ js "</div>") ++
    js "</div></div>"

/-- The markup that `renderNetworks` puts into the page. -/
def renderNetworks (selectedSSID : List Char) (networks : List ScannedNetwork) : List Char :=
  if networks.length = 0 then []
  else
    js "<div class=\"net-list\">" ++ networks.flatMap (netItem selectedSSID) ++ js "</div>"

/-- What `scanNetworksSettings` says of a network. -/
def scanMeta (n : ScannedNetwork) : List Char :=
  intText n.rssi ++ js " dBm · " ++ n.auth.authStr

/-- An item of `scanNetworksSettings`. -/
def scanItem (n : ScannedNetwork) : List Char :=
  pickTag (js "scan-item") (js "pickScanSSID") n.ssid ++
    (js "<span class=\"scan-icon\">" ++ netIcon n ++ js "</span>") ++
    (js "<span class=\"scan-ssid\">" ++ escapeHtml n.ssid ++ js "</span>") ++
    (js "<span class=\"scan-meta\">" ++ scanMeta n ++ js "</span>") ++
    js "</div>"

/-- The markup that `scanNetworksSettings` puts into the page. -/
def scanResults (data : List ScannedNetwork) : List Char :=
  if data.length = 0 then
    js "<div style=\"color:#999;font-size:0.85em;padding:8px\">No networks found</div>"
  else js "<div class=\"scan-results\">" ++ data.flatMap scanItem ++ js "</div>"

section

variable {R : Rules} {callee : List Char}

/-! ### What stands in an item -/

/-- A text that opens nothing, on one line. -/
def QuietText (t : List Char) : Prop := '<' ∉ t ∧ '\r' ∉ t

instance (t : List Char) : Decidable (QuietText t) := inferInstanceAs (Decidable (_ ∧ _))

theorem QuietText.append {t t' : List Char} (h : QuietText t) (h' : QuietText t') :
    QuietText (t ++ t') :=
  ⟨fun hmem => (List.mem_append.mp hmem).elim h.1 h'.1,
    fun hmem => (List.mem_append.mp hmem).elim h.2 h'.2⟩

/-- Nothing is there to click on. -/
def QuietPiece : Piece → Prop
  | .text t => QuietText t
  | p => '\r' ∉ p.render ∧ p.tokens.filterMap clickable = []

/-- A row of plain tags and texts in which nothing is there to click on. -/
structure Quiet (ps : List Piece) : Prop where
  /-- The tags are plain. -/
  wellFormed : Html.WellFormed ps
  /-- Each piece is quiet. -/
  pieces : ∀ p ∈ ps, QuietPiece p

/-- **Quiet pieces** are passed over. -/
theorem clickables_pieces {ps : List Piece} (h : Quiet ps) (tail : List Char) :
    clickables R (ps.flatMap Piece.render ++ tail) = clickables R tail := by
  have hreturn : '\r' ∉ ps.flatMap Piece.render := by
    intro hmem
    obtain ⟨p, hp, hmem⟩ := List.mem_flatMap.mp hmem
    have hquiet := h.pieces p hp
    cases p with
    | text t => exact hquiet.2 hmem
    | openTag name attrs => exact hquiet.1 hmem
    | closeTag name => exact hquiet.1 hmem
  have hnone : (ps.flatMap Piece.tokens).filterMap clickable = [] := by
    rw [List.filterMap_eq_nil_iff]
    intro token hmem
    obtain ⟨p, hp, hmem⟩ := List.mem_flatMap.mp hmem
    have hquiet := h.pieces p hp
    cases p with
    | text t =>
      obtain ⟨c, -, rfl⟩ := List.mem_map.mp hmem
      rfl
    | openTag name attrs => exact List.filterMap_eq_nil_iff.mp hquiet.2 token hmem
    | closeTag name => exact List.filterMap_eq_nil_iff.mp hquiet.2 token hmem
  rw [clickables, Html.normalizeNewlines_append hreturn, Html.tokenize,
    Html.filterMap_run_pieces (fun _ => rfl) h.wellFormed
      (fun t ht => (show QuietText t from h.pieces _ ht).1), hnone]
  rfl

/-- A tag that brings nothing to click on. -/
def quietTag (name : List Char) (attrs : List (List Char × List Char)) : Bool :=
  Html.plainTag name attrs && !(attrs.map Prod.fst).contains "onclick".toList &&
    !((Piece.openTag name attrs).render ++ (Piece.closeTag name).render).contains '\r'

theorem quiet_tags {name : List Char} {attrs : List (List Char × List Char)}
    (h : quietTag name attrs = true) :
    Html.plainTag name attrs = true ∧ QuietPiece (.openTag name attrs) ∧
      QuietPiece (.closeTag name) := by
  simp only [quietTag, Bool.and_eq_true, Bool.not_eq_true', List.contains_eq_mem,
    decide_eq_false_iff_not, List.mem_append, not_or] at h
  obtain ⟨⟨hplain, hclick⟩, hopen, hclose⟩ := h
  refine ⟨hplain, ⟨hopen, ?_⟩, hclose, rfl⟩
  have hlookup : attrs.lookup (js "onclick") = none := by
    rw [List.lookup_eq_none_iff]
    intro a ha
    rw [js, bne_iff_ne]
    exact fun heq => hclick (heq ▸ List.mem_map_of_mem ha)
  rw [Piece.tokens, List.filterMap_cons, clickable, hlookup]
  rfl

/-- An element is quiet when its tag and its content are. -/
theorem quiet_el {name : String} {attrs : List (String × String)} {children nodes : List Node}
    {ps : List Piece}
    (htag : quietTag name.toList (attrs.map fun a => (a.1.toList, a.2.toList)) = true)
    (h : Quiet (piecesOf children ++ .closeTag name.toList :: (piecesOf nodes ++ ps))) :
    Quiet (piecesOf (el name attrs children :: nodes) ++ ps) := by
  obtain ⟨hplain, hopen, -⟩ := quiet_tags htag
  refine ⟨Html.wellFormed_element hplain h.wellFormed, fun p hp => ?_⟩
  rw [el, piecesOf, Node.pieces, List.cons_append, List.cons_append, List.append_assoc,
    List.append_assoc, List.mem_cons] at hp
  rcases hp with rfl | hp
  · exact hopen
  · exact h.pieces p hp

theorem quiet_closeTag {name : List Char} {attrs : List (List Char × List Char)}
    {ps : List Piece} (htag : quietTag name attrs = true) (h : Quiet ps) :
    Quiet (.closeTag name :: ps) := by
  obtain ⟨hplain, -, hclose⟩ := quiet_tags htag
  exact ⟨Html.wellFormed_closeTag hplain h.wellFormed, List.forall_mem_cons.mpr ⟨hclose, h.pieces⟩⟩

/-- A text is followed by a tag. -/
theorem quiet_text {t : List Char} {ps : List Piece} (ht : QuietText t) (hne : t ≠ [])
    (hnext : ∃ p ∈ ps.head?, ∀ t, p ≠ .text t) (h : Quiet ps) :
    Quiet (.text t :: ps) :=
  ⟨⟨hne, hnext, h.wellFormed⟩, List.forall_mem_cons.mpr ⟨ht, h.pieces⟩⟩

/-! ### The items -/

/-- The bars, from a level on. -/
def barNodes (level : ℕ) (bars : List ℕ) : List Node :=
  bars.map fun i => el "span" [("class", if i ≤ level then "bar active" else "bar")] []

/-- The bars. -/
def signalNode (rssi : ℤ) : Node :=
  el "span" [("class", "signal-bars")] (barNodes (signalLevel rssi) (List.range' 1 4))

/-- What stands in an item of `renderNetworks`. -/
def netItemPieces (n : ScannedNetwork) : List Piece :=
  piecesOf [el "span" [("class", "net-icon")] [.text (netIcon n)],
    el "div" [("class", "net-info")]
      [el "div" [("class", "net-ssid")] [.text (escapeHtml n.ssid)],
        el "div" [("class", "net-meta")] [.text (netMeta n), signalNode n.rssi]]] ++
    [.closeTag "div".toList]

/-- What stands in an item of `scanNetworksSettings`. -/
def scanItemPieces (n : ScannedNetwork) : List Piece :=
  piecesOf [el "span" [("class", "scan-icon")] [.text (netIcon n)],
    el "span" [("class", "scan-ssid")] [.text (escapeHtml n.ssid)],
    el "span" [("class", "scan-meta")] [.text (scanMeta n)]] ++ [.closeTag "div".toList]

theorem signalBars_eq (rssi : ℤ) : signalBars rssi = Html.render [signalNode rssi] := by
  have hopen : openText "span" [("class", "signal-bars")] = js "<span class=\"signal-bars\">" := by
    rw [js]
    decide +kernel
  have hclose : (Piece.closeTag "span".toList).render = js "</span>" := by
    rw [js]
    decide +kernel
  have hbar : ∀ (level i : ℕ),
      js "<span class=\"bar" ++ (if i ≤ level then js " active" else []) ++ js "\"></span>"
        = Html.render [el "span" [("class", if i ≤ level then "bar active" else "bar")] []] := by
    intro level i
    rw [render_el]
    simp only [js]
    split_ifs <;> decide +kernel
  have hbars : ∀ (level : ℕ) (bars : List ℕ),
      (bars.flatMap fun i =>
          js "<span class=\"bar" ++ (if i ≤ level then js " active" else []) ++ js "\"></span>")
        = Html.render (barNodes level bars) := by
    intro level bars
    induction bars with
    | nil => rfl
    | cons i bars ih =>
      rw [List.flatMap_cons, ih, hbar, ← render_cons]
      rfl
  rw [signalBars, signalNode, render_el, hopen, hclose, ← hbars, List.append_assoc]

theorem netItem_eq (selectedSSID : List Char) (n : ScannedNetwork) :
    netItem selectedSSID n = pickTag (netClass selectedSSID n) (js "selectNetwork") n.ssid
      ++ (netItemPieces n).flatMap Piece.render := by
  have hicon : openText "span" [("class", "net-icon")] = js "<span class=\"net-icon\">" := by
    rw [js]
    decide +kernel
  have hdivs : openText "div" [("class", "net-info")] = js "<div class=\"net-info\">" ∧
      openText "div" [("class", "net-ssid")] = js "<div class=\"net-ssid\">" ∧
      openText "div" [("class", "net-meta")] = js "<div class=\"net-meta\">" := by
    simp only [js]
    decide +kernel
  have hspan : (Piece.closeTag "span".toList).render = js "</span>" := by
    rw [js]
    decide +kernel
  have hend : js "</div></div>" = js "</div>" ++ js "</div>" := by
    simp only [js]
    decide +kernel
  have hrow : (netItemPieces n).flatMap Piece.render
      = Html.render [el "span" [("class", "net-icon")] [.text (netIcon n)],
          el "div" [("class", "net-info")]
            [el "div" [("class", "net-ssid")] [.text (escapeHtml n.ssid)],
              el "div" [("class", "net-meta")] [.text (netMeta n), signalNode n.rssi]]]
        ++ (Piece.closeTag "div".toList).render := by
    rw [netItemPieces, List.flatMap_append, List.flatMap_singleton]
    rfl
  rw [netItem, hrow, hend, signalBars_eq]
  simp only [render_el_cons, render_text_cons, render_nil, hicon, hdivs, hspan, closeText_div,
    List.append_assoc, List.append_nil]

theorem scanItem_eq (n : ScannedNetwork) :
    scanItem n = pickTag (js "scan-item") (js "pickScanSSID") n.ssid
      ++ (scanItemPieces n).flatMap Piece.render := by
  have hspans : openText "span" [("class", "scan-icon")] = js "<span class=\"scan-icon\">" ∧
      openText "span" [("class", "scan-ssid")] = js "<span class=\"scan-ssid\">" ∧
      openText "span" [("class", "scan-meta")] = js "<span class=\"scan-meta\">" := by
    simp only [js]
    decide +kernel
  have hspan : (Piece.closeTag "span".toList).render = js "</span>" := by
    rw [js]
    decide +kernel
  have hrow : (scanItemPieces n).flatMap Piece.render
      = Html.render [el "span" [("class", "scan-icon")] [.text (netIcon n)],
          el "span" [("class", "scan-ssid")] [.text (escapeHtml n.ssid)],
          el "span" [("class", "scan-meta")] [.text (scanMeta n)]]
        ++ (Piece.closeTag "div".toList).render := by
    rw [scanItemPieces, List.flatMap_append, List.flatMap_singleton]
    rfl
  rw [scanItem, hrow]
  simp only [render_el_cons, render_text_cons, render_nil, hspans, hspan, closeText_div,
    List.append_assoc, List.append_nil]

/-- The bars are quiet. -/
theorem quiet_bars (level : ℕ) (bars : List ℕ) {ps : List Piece} (h : Quiet ps) :
    Quiet (piecesOf (barNodes level bars) ++ ps) := by
  have hbar : ∀ i : ℕ, quietTag "span".toList
      [("class".toList, (if i ≤ level then "bar active" else "bar").toList)] = true := by
    intro i
    split_ifs <;> decide +kernel
  induction bars with
  | nil => exact h
  | cons i bars ih => exact quiet_el (hbar i) (quiet_closeTag (hbar i) ih)

/-- An escaped character opens nothing. -/
theorem quietText_escapeChar {c : Char} (h : c ≠ '\r') :
    QuietText (escapeChar c) ∧ escapeChar c ≠ [] := by
  have hescapes : ∀ t ∈ [js "&amp;", js "&lt;", js "&gt;", js "&nbsp;"],
      QuietText t ∧ t ≠ [] := by
    simp only [js]
    decide
  unfold escapeChar
  split_ifs with _ hlt
  · exact hescapes _ (by simp)
  · exact hescapes _ (by simp)
  · exact hescapes _ (by simp)
  · exact hescapes _ (by simp)
  · exact ⟨⟨fun hmem => hlt (List.mem_singleton.mp hmem).symm,
      fun hmem => h (List.mem_singleton.mp hmem).symm⟩, List.cons_ne_nil _ _⟩

theorem quietText_escapeHtml {ssid : List Char} (h : '\r' ∉ ssid) (hne : ssid ≠ []) :
    QuietText (escapeHtml ssid) ∧ escapeHtml ssid ≠ [] := by
  have hchar : ∀ c ∈ ssid, QuietText (escapeChar c) ∧ escapeChar c ≠ [] := fun c hc =>
    quietText_escapeChar fun heq => h (heq ▸ hc)
  refine ⟨⟨fun hmem => ?_, fun hmem => ?_⟩, fun hnil => ?_⟩
  · obtain ⟨c, hc, hmem⟩ := List.mem_flatMap.mp hmem
    exact (hchar c hc).1.1 hmem
  · obtain ⟨c, hc, hmem⟩ := List.mem_flatMap.mp hmem
    exact (hchar c hc).1.2 hmem
  · obtain ⟨c, hc⟩ := List.exists_mem_of_ne_nil ssid hne
    exact (hchar c hc).2 (List.flatMap_eq_nil_iff.mp hnil c hc)

theorem quietText_of_digits {t : List Char} (h : ∀ c ∈ t, c.isDigit = true ∨ c = '-') :
    QuietText t := by
  constructor <;>
    · intro hmem
      exact absurd (h _ hmem) (by decide)

theorem quietText_numberText (n : ℕ) : QuietText (numberText n) :=
  quietText_of_digits fun _ hc => .inl (isDigit_of_mem_numberText hc)

theorem quietText_intText (n : ℤ) : QuietText (intText n) := by
  refine quietText_of_digits fun c hc => ?_
  cases n with
  | ofNat n => exact .inl (isDigit_of_mem_numberText hc)
  | negSucc n =>
    have htext : intText (.negSucc n) = '-' :: numberText (n + 1) := by
      show ("-" ++ toString (n + 1)).toList = _
      rw [String.toList_append]
      rfl
    rw [htext, List.mem_cons] at hc
    exact hc.symm.imp isDigit_of_mem_numberText id

theorem quietText_authStr (auth : ScanAuth) : QuietText auth.authStr := by
  cases auth <;>
    · rw [ScanAuth.authStr, js]
      decide

theorem quietText_netIcon (n : ScannedNetwork) : QuietText (netIcon n) ∧ netIcon n ≠ [] := by
  unfold netIcon
  split_ifs <;>
    · rw [js]
      decide

theorem quietText_netMeta (n : ScannedNetwork) : QuietText (netMeta n) ∧ netMeta n ≠ [] := by
  have hparts : QuietText (js " · Ch ") ∧ QuietText (js " · ") ∧ QuietText (js " dBm") ∧
      js " dBm" ≠ [] := by
    simp only [js]
    decide
  obtain ⟨hchannel, hdot, hdbm, hne⟩ := hparts
  exact ⟨(((((quietText_authStr _).append hchannel).append (quietText_numberText _)).append
    hdot).append (quietText_intText _)).append hdbm, List.append_ne_nil_of_right_ne_nil _ hne⟩

theorem quietText_scanMeta (n : ScannedNetwork) : QuietText (scanMeta n) ∧ scanMeta n ≠ [] := by
  have hdbm : QuietText (js " dBm · ") ∧ js " dBm · " ≠ [] := by
    simp only [js]
    decide
  exact ⟨((quietText_intText _).append hdbm.1).append (quietText_authStr _),
    List.append_ne_nil_of_left_ne_nil (List.append_ne_nil_of_right_ne_nil _ hdbm.2) _⟩

theorem quiet_netItemPieces {n : ScannedNetwork} (h : '\r' ∉ n.ssid) :
    Quiet (netItemPieces n) := by
  have htags : ∀ t ∈ [("span", "net-icon"), ("div", "net-info"), ("div", "net-ssid"),
      ("div", "net-meta"), ("span", "signal-bars")],
      quietTag t.1.toList [("class".toList, t.2.toList)] = true := by
    decide +kernel
  have hicon := htags ("span", "net-icon") (by simp)
  have hinfo := htags ("div", "net-info") (by simp)
  have hname := htags ("div", "net-ssid") (by simp)
  have hmeta := htags ("div", "net-meta") (by simp)
  have hbars := htags ("span", "signal-bars") (by simp)
  have hend : Quiet [] := ⟨trivial, fun _ hp => absurd hp List.not_mem_nil⟩
  refine quiet_el hicon (quiet_text (quietText_netIcon n).1 (quietText_netIcon n).2
    ⟨_, rfl, nofun⟩ (quiet_closeTag hicon ?_))
  obtain ⟨hssid, hne⟩ := quietText_escapeHtml h n.visible
  refine quiet_el hinfo (quiet_el hname (quiet_text hssid hne
    ⟨_, rfl, nofun⟩ (quiet_closeTag hname ?_)))
  refine quiet_el hmeta (quiet_text (quietText_netMeta n).1 (quietText_netMeta n).2
    ⟨_, rfl, nofun⟩ (quiet_el hbars ?_))
  exact quiet_bars _ _ (quiet_closeTag hbars (quiet_closeTag hmeta
    (quiet_closeTag hinfo (quiet_closeTag hinfo hend))))

theorem quiet_scanItemPieces {n : ScannedNetwork} (h : '\r' ∉ n.ssid) :
    Quiet (scanItemPieces n) := by
  have htags : ∀ t ∈ [("span", "scan-icon"), ("span", "scan-ssid"), ("span", "scan-meta"),
      ("div", "scan-item")], quietTag t.1.toList [("class".toList, t.2.toList)] = true := by
    decide +kernel
  have hicon := htags ("span", "scan-icon") (by simp)
  have hname := htags ("span", "scan-ssid") (by simp)
  have hmeta := htags ("span", "scan-meta") (by simp)
  have hitem := htags ("div", "scan-item") (by simp)
  have hend : Quiet [] := ⟨trivial, fun _ hp => absurd hp List.not_mem_nil⟩
  refine quiet_el hicon (quiet_text (quietText_netIcon n).1 (quietText_netIcon n).2
    ⟨_, rfl, nofun⟩ (quiet_closeTag hicon ?_))
  obtain ⟨hssid, hne⟩ := quietText_escapeHtml h n.visible
  refine quiet_el hname (quiet_text hssid hne ⟨_, rfl, nofun⟩ (quiet_closeTag hname ?_))
  exact quiet_el hmeta (quiet_text (quietText_scanMeta n).1 (quietText_scanMeta n).2
    ⟨_, rfl, nofun⟩ (quiet_closeTag hmeta (quiet_closeTag hitem hend)))

/-! ### Which networks are picked -/

theorem isItem_netItem (selectedSSID : List Char) (n : ScannedNetwork) :
    IsItem (netClass selectedSSID n) (js "selectNetwork") where
  plain := by
    unfold netClass
    simp only [js]
    split_ifs <;> decide
  line := by
    unfold netClass
    simp only [js]
    split_ifs <;> decide
  name := by
    rw [js]
    decide

theorem isItem_scanItem : IsItem (js "scan-item") (js "pickScanSSID") where
  plain := by
    rw [js]
    decide
  line := by
    rw [js]
    decide
  name := by
    rw [js]
    decide

/-- **The items of a list.**  The first of them are picked exactly when their SSIDs are
pickable: one that is not shows at its place. -/
theorem take_clickables_items {cls : ScannedNetwork → List Char}
    {body : ScannedNetwork → List Piece} (hitem : ∀ n, IsItem (cls n) callee)
    (hbody : ∀ n : ScannedNetwork, '\r' ∉ n.ssid → Quiet (body n)) {tail : List Char}
    (htail : clickables R tail = []) (networks : List ScannedNetwork) : ∀ k : ℕ,
      (clickables R (networks.flatMap (fun n => pickTag (cls n) callee n.ssid
          ++ (body n).flatMap Piece.render) ++ tail)).take k
        = (networks.take k).map (fun n => picks (cls n) callee n.ssid) ↔
      ∀ n ∈ networks.take k, Pickable R n.ssid := by
  induction networks with
  | nil =>
    intro k
    rw [List.flatMap_nil, List.nil_append, htail, List.take_nil, List.take_nil]
    exact iff_of_true rfl fun _ hn => absurd hn List.not_mem_nil
  | cons n networks ih =>
    intro k
    cases k with
    | zero => exact iff_of_true rfl fun _ hn => absurd hn List.not_mem_nil
    | succ k =>
      rw [List.flatMap_cons, List.append_assoc, List.append_assoc, List.take_succ_cons,
        List.map_cons, List.forall_mem_cons]
      by_cases hn : Pickable R n.ssid
      · have hreturn : '\r' ∉ n.ssid := fun hmem => (hn.1 _ hmem).2.2.2 rfl
        rw [clickables_pickTag (hitem n) hn, clickables_pieces (hbody n hreturn),
          List.take_succ_cons, List.cons.injEq, ih k]
        exact and_congr_left fun _ => iff_of_true rfl hn
      · refine iff_of_false (fun heq => ?_) fun h => hn h.1
        refine head?_clickables_pickTag (hitem n) hn
          ((body n).flatMap Piece.render ++ (networks.flatMap (fun n =>
            pickTag (cls n) callee n.ssid ++ (body n).flatMap Piece.render) ++ tail)) ?_
        have hhead := congrArg List.head? heq
        rwa [List.head?_take, if_neg (Nat.succ_ne_zero k), List.head?_cons] at hhead

/-- The end of either list. -/
theorem clickables_end : clickables R (js "</div>") = [] := by
  have hquiet : Quiet [.closeTag "div".toList] :=
    quiet_closeTag (show quietTag "div".toList [] = true by decide +kernel)
      ⟨trivial, fun _ hp => absurd hp List.not_mem_nil⟩
  have hpass := clickables_pieces (R := R) hquiet []
  rw [List.flatMap_singleton, closeText_div, List.append_nil] at hpass
  exact hpass

/-- The beginning of a list. -/
theorem clickables_openDiv {cls : String}
    (htag : quietTag "div".toList [("class".toList, cls.toList)] = true) (tail : List Char) :
    clickables R (openText "div" [("class", cls)] ++ tail) = clickables R tail := by
  obtain ⟨hplain, hopen, -⟩ := quiet_tags htag
  have hquiet : Quiet [.openTag "div".toList [("class".toList, cls.toList)]] :=
    ⟨⟨hplain, trivial⟩, List.forall_mem_singleton.mpr hopen⟩
  have hpass := clickables_pieces (R := R) hquiet tail
  rw [List.flatMap_singleton] at hpass
  exact hpass

/-- The text in place of an empty list. -/
theorem clickables_noNetworks : clickables R
    (js "<div style=\"color:#999;font-size:0.85em;padding:8px\">No networks found</div>") = [] := by
  have htag : quietTag "div".toList
      [("style".toList, "color:#999;font-size:0.85em;padding:8px".toList)] = true := by
    decide +kernel
  have htext : QuietText (js "No networks found") ∧ js "No networks found" ≠ [] := by
    rw [js]
    decide
  have hmarkup : js "<div style=\"color:#999;font-size:0.85em;padding:8px\">No networks found</div>"
      = Html.render [el "div" [("style", "color:#999;font-size:0.85em;padding:8px")]
          [.text (js "No networks found")]] := by
    rw [render_el, render_text]
    simp only [js]
    decide +kernel
  have hquiet : Quiet (piecesOf [el "div" [("style", "color:#999;font-size:0.85em;padding:8px")]
      [.text (js "No networks found")]] ++ []) :=
    quiet_el htag (quiet_text htext.1 htext.2 ⟨_, rfl, nofun⟩ (quiet_closeTag htag
      ⟨trivial, fun _ hp => absurd hp List.not_mem_nil⟩))
  have hpass := clickables_pieces (R := R) hquiet []
  rw [List.append_nil, List.append_nil] at hpass
  rw [hmarkup]
  exact hpass

end

/-- **Which networks are picked exactly.**  On either page, the first elements that can be
clicked on are those of the template, and call the function with the SSID as it was received,
exactly when the SSIDs of the first networks are pickable. -/
theorem networks_picked_exactly_iff (R : Rules) (selectedSSID : List Char)
    (networks : List ScannedNetwork) (k : ℕ) :
    ((clickables R (renderNetworks selectedSSID networks)).take k
        = (networks.take k).map (fun n =>
          picks (netClass selectedSSID n) (js "selectNetwork") n.ssid) ↔
      ∀ n ∈ networks.take k, Pickable R n.ssid) ∧
    ((clickables R (scanResults networks)).take k
        = (networks.take k).map (fun n => picks (js "scan-item") (js "pickScanSSID") n.ssid) ↔
      ∀ n ∈ networks.take k, Pickable R n.ssid) := by
  constructor
  · have hitems := take_clickables_items (R := R) (isItem_netItem selectedSSID)
      (fun _ => quiet_netItemPieces) clickables_end networks k
    have hopen : openText "div" [("class", "net-list")] = js "<div class=\"net-list\">" := by
      rw [js]
      decide +kernel
    rw [← hitems, renderNetworks]
    split_ifs with hempty
    · rw [List.length_eq_zero_iff.mp hempty, List.flatMap_nil, List.nil_append, clickables_end]
      rfl
    · rw [List.append_assoc, ← hopen, clickables_openDiv (by decide +kernel),
        funext (netItem_eq selectedSSID)]
  · have hitems := take_clickables_items (R := R) (fun _ => isItem_scanItem)
      (fun _ => quiet_scanItemPieces) clickables_end networks k
    have hopen : openText "div" [("class", "scan-results")]
        = js "<div class=\"scan-results\">" := by
      rw [js]
      decide +kernel
    rw [← hitems, scanResults]
    split_ifs with hempty
    · rw [List.length_eq_zero_iff.mp hempty, List.flatMap_nil, List.nil_append, clickables_end,
        clickables_noNetworks]
    · rw [List.append_assoc, ← hopen, clickables_openDiv (by decide +kernel), funext scanItem_eq]

/-! ### What a stranger can send -/

/-- The tables of a browser that knows the names of the brackets. -/
def bracketNames : Rules where
  named := [("lt;".toList, ['<']), ("gt;".toList, ['>'])]
  named_le := by decide
  numeric _ _ := '?'
  content _ rest := rest.map .char

/-- A network whose SSID has a backslash before its apostrophe. -/
def backslashNetwork : ScannedNetwork where
  ssid := "\\');alert(1)//".toList
  noNul := by decide
  visible := by decide
  rssi := -40
  auth := .authOpen
  channel := 6

/-- A network whose SSID has double quotes. -/
def quotesNetwork : ScannedNetwork where
  ssid := "\" onmouseover=\"alert(1)//".toList
  noNul := by decide
  visible := by decide
  rssi := -40
  auth := .authOpen
  channel := 6

/-- **A stranger runs a script**: the backslash that is added escapes the other one, and the
apostrophe ends the string; a double quote ends the attribute, and another one follows. -/
theorem stranger_runs_script :
    (.startTag "div".toList [("class".toList, "scan-item".toList),
        ("onclick".toList, "pickScanSSID('\\\\');alert(1)//')".toList)]
      ∈ Html.tokenize bracketNames (normalizeNewlines (scanResults [backslashNetwork])) ∧
    clickables bracketNames (scanResults [backslashNetwork])
      ≠ [picks (js "scan-item") (js "pickScanSSID") backslashNetwork.ssid]) ∧
    (.startTag "div".toList [("class".toList, "net-item".toList),
        ("onclick".toList, "selectNetwork('".toList),
        ("onmouseover".toList, "alert(1)//')".toList)]
      ∈ Html.tokenize bracketNames (normalizeNewlines (renderNetworks [] [quotesNetwork])) ∧
    clickables bracketNames (renderNetworks [] [quotesNetwork])
      ≠ [picks (netClass [] quotesNetwork) (js "selectNetwork") quotesNetwork.ssid]) := by
  refine ⟨⟨?_, ?_⟩, ?_, ?_⟩
  · decide +kernel
  · decide +kernel
  · decide +kernel
  · decide +kernel

end WifiRepeater
