import WifiRepeater.Lib.Html.Template
import WifiRepeater.Lib.Numbers
import WifiRepeater.Web.Network

/-!
# The whole dashboard

`renderDashboard` writes four cards, or eight with the statistics, from what the device has sent,
and the browser reads them.  No text is escaped on the way.  What the device makes itself is
harmless, so that three kinds of text decide how the page is read: the name of the network the
station is connected to, the name of the access point, and the domains in the log.

## Main definitions

* `formatBytes`, `formatBytesPerSec` — the script's formats.
* `staCard`, `apCard`, `featuresCard`, `renderMonitoringCards`, `renderDashboard` — the string.
* `dashboardNodes` — the template.

## Main results

* `renderDashboard_eq` — the string is the template, written down.
* `parse_renderDashboard_iff` — when it is read back, for any answer of the device.
* `dashboard_read_iff` — **when the dashboard is read as its template**, from the store and the
  datagrams on.
-/

namespace WifiRepeater

open Html (Node Piece InertTexts normalizeNewlines normalizeTexts)

/-! ### The string -/

/-- A number of bytes, with the unit that the logarithm tells and so many digits.  What comes out
for `Math.floor(Math.log(n) / Math.log(1024))` is left to the browser. -/
def formatWith (zero : String) (sizes : List String) (digits : ℕ) (floorLog : ℕ → ℕ) (n : ℕ) :
    List Char :=
  if n = 0 then js zero
  else
    -- the quotient by a power of two is exact
    Js.toFixed (n / 1024 ^ floorLog n) digits ++ js " " ++
      js (sizes[floorLog n]?.getD "undefined")

/-- `formatBytes`. -/
def formatBytes : (ℕ → ℕ) → ℕ → List Char := formatWith "0 B" ["B", "KB", "MB", "GB"] 1

/-- `formatBytesPerSec`. -/
def formatBytesPerSec : (ℕ → ℕ) → ℕ → List Char := formatWith "0 B/s" ["B/s", "KB/s", "MB/s"] 2

example : formatBytes (Nat.log 1024) 1536 = js "1.5 KB" ∧
    formatBytesPerSec (Nat.log 1024) (5 * 1024 ^ 3) = js "5.00 undefined" := by
  simp only [js]
  decide +kernel

/-- `(us / 1000).toFixed(digits)`. -/
def millisText (us digits : ℕ) : List Char := Js.toFixed (Js.nearestDouble (us / 1000)) digits

/-- A card with a title. -/
def card (title : String) (body : List Char) : List Char :=
  js "<div class=\"card\"><h2>" ++ js title ++ js "</h2>" ++ body ++ js "</div>"

/-- A row of a card. -/
def infoRow (label valueClass : String) (value : List Char) : List Char :=
  js "<div class=\"info-row\"><span class=\"label\">" ++ js label ++ js "</span><span class=\"" ++
    js valueClass ++ js "\">" ++ value ++ js "</span></div>"

/-- A span with a class and a text of the script. -/
def spanText (cls text : String) : List Char :=
  js "<span class=\"" ++ js cls ++ js "\">" ++ js text ++ js "</span>"

/-- The row with the bar in it. -/
def signalRow (d : NetworkJson) : List Char :=
  js "<div class=\"info-row\"><span class=\"label\">Signal Strength</span>" ++
    (js "<span class=\"value " ++ js d.rssiInfo.color.name ++ js "\">" ++ d.rssiInfo.text ++
      js " (" ++ intText d.rssi ++ js " dBm)</span>") ++
    (js "<div class=\"rssi-bar\"><div class=\"rssi-fill\" style=\"width: " ++
      numberText d.rssiInfo.percent ++ js "%\"></div></div>") ++
    js "</div>"

/-- `staHTML`. -/
def staCard (d : NetworkJson) : List Char :=
  card "⬆️ Uplink (STA)" <|
    infoRow "Status" "value" (if d.staConnected then spanText "badge badge-connected" "Connected"
      else spanText "badge badge-disconnected" "Disconnected") ++
    if d.staConnected then
      infoRow "SSID" "value" d.staSsid ++ infoRow "IP Address" "value" d.staIp ++
        infoRow "Netmask" "value" d.staNetmask ++ infoRow "Gateway" "value" d.staGw ++
        infoRow "Channel" "value" (numberText d.staChannel) ++
        infoRow "Band" "value" d.staBand ++ signalRow d
    else []

/-- An entry of the list of clients. -/
def clientItem (c : ClientJson) : List Char :=
  js "<div class=\"client-item\">" ++ orElse c.mac (js "unknown") ++
    js " <div class=\"client-ipv4\">IPv4: " ++ orElse c.ipv4 (js "-") ++ js "</div></div>"

/-- `apHTML`. -/
def apCard (d : NetworkJson) : List Char :=
  card "⬇️ Access Point (AP)" <|
    infoRow "SSID" "value" d.apSsid ++ infoRow "IP Address" "value" d.apIp ++
      infoRow "Netmask" "value" d.apNetmask ++ infoRow "Gateway" "value" d.apGw ++
      infoRow "Connected Clients" "value status-good" (numberText d.apClients) ++
      if d.apClients > 0 ∧ d.clientList.length ≠ 0 then
        js "<div class=\"clients-list\">" ++ d.clientList.flatMap clientItem ++ js "</div>"
      else []

/-- `featuresHTML`. -/
def featuresCard (d : NetworkJson) : List Char :=
  card "⚙️ Features & Power" <|
    infoRow "NAT Enabled" "value" (if d.natEnabled then spanText "status-good" "Yes"
      else spanText "status-bad" "No") ++
      infoRow "Monitoring" "value status-good" (js "Active") ++
      infoRow "Power Mode" "value" d.powerMode ++
      infoRow "Estimated Power" "value status-warning" d.estimatedPower ++
      infoRow "Uptime" "value" d.uptime

/-- The colour of a percentage, with the bound of the warning. -/
def levelColor (warning percent : ℕ) : StatusColor :=
  if percent > 80 then .bad else if percent > warning then .warning else .good

/-- A bar, with its text. -/
def progressBar (fillClass : String) (percent : ℕ) (text : List Char) : List Char :=
  js "<div class=\"progress-bar\"><div class=\"" ++ js fillClass ++ js "\" style=\"width: " ++
    numberText percent ++ js "%\">" ++ text ++ js "</div></div>"

/-- A box of a grid. -/
def metricBox (valueClass : String) (value : List Char) (label : String) : List Char :=
  js "<div class=\"metric-box\"><div class=\"" ++ js valueClass ++ js "\">" ++ value ++
    js "</div><div class=\"metric-label\">" ++ js label ++ js "</div></div>"

/-- Two boxes. -/
def metricGrid (boxes : List Char) : List Char :=
  js "<div class=\"metric-grid\">" ++ boxes ++ js "</div>"

/-- The CPU card. -/
def cpuCard (s : StatsJson) : List Char :=
  card "💻 CPU Usage" <|
    infoRow "Total CPU" ("value " ++ (levelColor 50 s.totalPercent).name)
        (numberText s.totalPercent ++ js "%") ++
      progressBar "progress-fill progress-cpu" s.totalPercent
        (numberText s.totalPercent ++ js "%") ++
      infoRow "Active Tasks" "value" (numberText s.taskCount)

/-- The memory card.  The percentage is an integer, so that `toFixed(1)` adds a zero to it. -/
def memCard (floorLog : ℕ → ℕ) (s : StatsJson) : List Char :=
  card "🧠 Memory" <|
    infoRow "Usage" ("value " ++ (levelColor 60 s.heapUsagePercent).name)
        (numberText s.heapUsagePercent ++ js ".0%") ++
      progressBar "progress-fill progress-mem" s.heapUsagePercent
        (numberText s.heapUsagePercent ++ js ".0%") ++
      metricGrid (metricBox "metric-value" (formatBytes floorLog s.freeHeap) "Free" ++
        metricBox "metric-value" (formatBytes floorLog s.totalHeap) "Total")

/-- The throughput card. -/
def throughputCard (floorLog : ℕ → ℕ) (s : StatsJson) : List Char :=
  card "📊 Network Throughput" <|
    metricGrid
        (metricBox "metric-value throughput-value" (formatBytesPerSec floorLog s.txBytesPerSec)
            "TX Rate" ++
          metricBox "metric-value throughput-value" (formatBytesPerSec floorLog s.rxBytesPerSec)
            "RX Rate") ++
      infoRow "TX Total" "value" (formatBytes floorLog s.txBytes) ++
      infoRow "RX Total" "value" (formatBytes floorLog s.rxBytes)

/-- `hitRate`. -/
def hitRateText (s : StatsJson) : List Char :=
  if s.dnsCacheHits + s.dnsCacheMisses > 0 then
    Js.toFixed (Js.nearestDouble
      (Js.nearestDouble (s.dnsCacheHits / (s.dnsCacheHits + s.dnsCacheMisses)) * 100)) 1
  else numberText 0

/-- The card of the DNS statistics. -/
def dnsStatsCard (s : StatsJson) : List Char :=
  card "⚡ DNS Performance" <|
    metricGrid (metricBox "metric-value status-good" (hitRateText s ++ js "%") "Cache Hit Rate" ++
        metricBox "metric-value" (millisText s.dnsMaxLatencyUs 0 ++ js "ms") "Max Latency") ++
      infoRow "Cache Hits" "value status-good" (numberText s.dnsCacheHits) ++
      infoRow "Cache Misses" "value" (numberText s.dnsCacheMisses) ++
      infoRow "Avg Latency" "value" (millisText s.dnsAvgLatencyUs 1 ++ js " ms")

/-- `renderMonitoringCards`: nothing before the first statistics have come. -/
def renderMonitoringCards (floorLog : ℕ → ℕ) (statsData : Option StatsJson) : List Char :=
  match statsData with
  | none => []
  | some s => cpuCard s ++ memCard floorLog s ++ throughputCard floorLog s ++ dnsStatsCard s

/-- `renderDashboard`. -/
def renderDashboard (floorLog : ℕ → ℕ) (dnsExpanded : Bool) (statsData : Option StatsJson)
    (d : NetworkJson) : List Char :=
  staCard d ++ apCard d ++ renderMonitoringCards floorLog statsData ++ featuresCard d ++
    dnsCard dnsExpanded d.dnsLogs

/-! ### The template -/

/-- The template of a card. -/
def cardNode (title : String) (body : List Node) : Node :=
  el "div" [("class", "card")] (el "h2" [] [.text (js title)] :: body)

/-- A row. -/
def infoRowNode (label valueClass : String) (value : List Node) : Node :=
  el "div" [("class", "info-row")]
    [el "span" [("class", "label")] [.text (js label)], el "span" [("class", valueClass)] value]

/-- The style of a bar. -/
def widthStyle (percent : ℕ) : String := "width: " ++ toString percent ++ "%"

/-- A row with a text. -/
def infoText (label valueClass : String) (value : List Char) : Node :=
  infoRowNode label valueClass (Html.textNodes value)

/-- The text of a signal. -/
def signalText (d : NetworkJson) : List Char :=
  d.rssiInfo.text ++ js " (" ++ intText d.rssi ++ js " dBm)"

/-- The row with the bar. -/
def signalRowNode (d : NetworkJson) : Node :=
  el "div" [("class", "info-row")]
    [el "span" [("class", "label")] [.text (js "Signal Strength")],
      el "span" [("class", "value " ++ d.rssiInfo.color.name)] (Html.textNodes (signalText d)),
      el "div" [("class", "rssi-bar")]
        [el "div" [("class", "rssi-fill"), ("style", widthStyle d.rssiInfo.percent)] []]]

/-- The card of the uplink. -/
def staCardNode (d : NetworkJson) : Node :=
  cardNode "⬆️ Uplink (STA)" <|
    infoRowNode "Status" "value"
        [if d.staConnected then el "span" [("class", "badge badge-connected")]
            [.text (js "Connected")]
          else el "span" [("class", "badge badge-disconnected")] [.text (js "Disconnected")]] ::
      if d.staConnected then
        [infoText "SSID" "value" d.staSsid, infoText "IP Address" "value" d.staIp,
          infoText "Netmask" "value" d.staNetmask, infoText "Gateway" "value" d.staGw,
          infoText "Channel" "value" (numberText d.staChannel),
          infoText "Band" "value" d.staBand, signalRowNode d]
      else []

/-- A client. -/
def clientItemNode (c : ClientJson) : Node :=
  el "div" [("class", "client-item")]
    [.text (orElse c.mac (js "unknown") ++ js " "),
      el "div" [("class", "client-ipv4")] [.text (js "IPv4: " ++ orElse c.ipv4 (js "-"))]]

/-- The card of the access point. -/
def apCardNode (d : NetworkJson) : Node :=
  cardNode "⬇️ Access Point (AP)" <|
    [infoText "SSID" "value" d.apSsid, infoText "IP Address" "value" d.apIp,
      infoText "Netmask" "value" d.apNetmask, infoText "Gateway" "value" d.apGw,
      infoText "Connected Clients" "value status-good" (numberText d.apClients)] ++
    if d.apClients > 0 ∧ d.clientList.length ≠ 0 then
      [el "div" [("class", "clients-list")] (d.clientList.map clientItemNode)]
    else []

/-- The card of the features. -/
def featuresCardNode (d : NetworkJson) : Node :=
  cardNode "⚙️ Features & Power"
    [infoRowNode "NAT Enabled" "value"
        [if d.natEnabled then el "span" [("class", "status-good")] [.text (js "Yes")]
          else el "span" [("class", "status-bad")] [.text (js "No")]],
      infoText "Monitoring" "value status-good" (js "Active"),
      infoText "Power Mode" "value" d.powerMode,
      infoText "Estimated Power" "value status-warning" d.estimatedPower,
      infoText "Uptime" "value" d.uptime]

/-- A bar. -/
def progressBarNode (fillClass : String) (percent : ℕ) (text : List Char) : Node :=
  el "div" [("class", "progress-bar")]
    [el "div" [("class", fillClass), ("style", widthStyle percent)]
      (Html.textNodes text)]

/-- A box. -/
def metricBoxNode (valueClass : String) (value : List Char) (label : String) : Node :=
  el "div" [("class", "metric-box")]
    [el "div" [("class", valueClass)] (Html.textNodes value),
      el "div" [("class", "metric-label")] [.text (js label)]]

/-- A grid. -/
def metricGridNode (boxes : List Node) : Node := el "div" [("class", "metric-grid")] boxes

/-- The CPU card. -/
def cpuCardNode (s : StatsJson) : Node :=
  cardNode "💻 CPU Usage"
    [infoText "Total CPU" ("value " ++ (levelColor 50 s.totalPercent).name)
        (numberText s.totalPercent ++ js "%"),
      progressBarNode "progress-fill progress-cpu" s.totalPercent
        (numberText s.totalPercent ++ js "%"),
      infoText "Active Tasks" "value" (numberText s.taskCount)]

/-- The memory card. -/
def memCardNode (floorLog : ℕ → ℕ) (s : StatsJson) : Node :=
  cardNode "🧠 Memory"
    [infoText "Usage" ("value " ++ (levelColor 60 s.heapUsagePercent).name)
        (numberText s.heapUsagePercent ++ js ".0%"),
      progressBarNode "progress-fill progress-mem" s.heapUsagePercent
        (numberText s.heapUsagePercent ++ js ".0%"),
      metricGridNode [metricBoxNode "metric-value" (formatBytes floorLog s.freeHeap) "Free",
        metricBoxNode "metric-value" (formatBytes floorLog s.totalHeap) "Total"]]

/-- The throughput card. -/
def throughputCardNode (floorLog : ℕ → ℕ) (s : StatsJson) : Node :=
  cardNode "📊 Network Throughput"
    [metricGridNode
        [metricBoxNode "metric-value throughput-value" (formatBytesPerSec floorLog s.txBytesPerSec)
            "TX Rate",
          metricBoxNode "metric-value throughput-value" (formatBytesPerSec floorLog s.rxBytesPerSec)
            "RX Rate"],
      infoText "TX Total" "value" (formatBytes floorLog s.txBytes),
      infoText "RX Total" "value" (formatBytes floorLog s.rxBytes)]

/-- The card of the DNS statistics. -/
def dnsStatsCardNode (s : StatsJson) : Node :=
  cardNode "⚡ DNS Performance"
    [metricGridNode
        [metricBoxNode "metric-value status-good" (hitRateText s ++ js "%") "Cache Hit Rate",
          metricBoxNode "metric-value" (millisText s.dnsMaxLatencyUs 0 ++ js "ms") "Max Latency"],
      infoText "Cache Hits" "value status-good" (numberText s.dnsCacheHits),
      infoText "Cache Misses" "value" (numberText s.dnsCacheMisses),
      infoText "Avg Latency" "value" (millisText s.dnsAvgLatencyUs 1 ++ js " ms")]

/-- The cards of the statistics. -/
def monitoringNodes (floorLog : ℕ → ℕ) (statsData : Option StatsJson) : List Node :=
  match statsData with
  | none => []
  | some s =>
      [cpuCardNode s, memCardNode floorLog s, throughputCardNode floorLog s, dnsStatsCardNode s]

/-- All cards but the last. -/
def ownCards (floorLog : ℕ → ℕ) (statsData : Option StatsJson) (d : NetworkJson) : List Node :=
  [staCardNode d, apCardNode d] ++ monitoringNodes floorLog statsData ++ [featuresCardNode d]

/-- **The template of the dashboard.** -/
def dashboardNodes (floorLog : ℕ → ℕ) (dnsExpanded : Bool) (statsData : Option StatsJson)
    (d : NetworkJson) : List Node :=
  ownCards floorLog statsData d ++ [dnsCardNode dnsExpanded d.dnsLogs]

/-! ### The string is the template -/

theorem card_eq (title : String) (body : List Node) :
    card title (Html.render body) = Html.render [cardNode title body] := by
  simp [card, cardNode, el, Html.render, Html.piecesOf, Node.pieces, Piece.render,
    Html.renderAttr, js]

theorem infoRow_eq (label valueClass : String) (value : List Node) :
    infoRow label valueClass (Html.render value)
      = Html.render [infoRowNode label valueClass value] := by
  simp [infoRow, infoRowNode, el, Html.render, Html.piecesOf, Node.pieces, Piece.render,
    Html.renderAttr, js]

theorem infoRow_text (label valueClass : String) (value : List Char) :
    infoRow label valueClass value = Html.render [infoText label valueClass value] := by
  rw [infoText, ← infoRow_eq, Html.render_textNodes]

theorem spanText_eq (cls text : String) :
    spanText cls text = Html.render [el "span" [("class", cls)] [.text (js text)]] := by
  simp [spanText, el, Html.render, Html.piecesOf, Node.pieces, Piece.render, Html.renderAttr, js]

theorem toList_widthStyle (percent : ℕ) :
    (widthStyle percent).toList = js "width: " ++ numberText percent ++ js "%" := by
  rw [widthStyle, String.toList_append, String.toList_append, js, js, numberText]

theorem signalRow_eq (d : NetworkJson) : signalRow d = Html.render [signalRowNode d] := by
  have hspan : js "<span class=\"value " ++ js d.rssiInfo.color.name ++ js "\">" ++ d.rssiInfo.text
        ++ js " (" ++ intText d.rssi ++ js " dBm)</span>"
      = Html.render [el "span" [("class", "value " ++ d.rssiInfo.color.name)]
          (Html.textNodes (signalText d))] := by
    rw [render_el, Html.render_textNodes, signalText]
    simp [openText, Piece.render, Html.renderAttr, js]
  have hbar : js "<div class=\"rssi-bar\"><div class=\"rssi-fill\" style=\"width: " ++
        numberText d.rssiInfo.percent ++ js "%\"></div></div>"
      = Html.render [el "div" [("class", "rssi-bar")]
          [el "div" [("class", "rssi-fill"), ("style", widthStyle d.rssiInfo.percent)] []]] := by
    simp [el, Html.render, Html.piecesOf, Node.pieces, Piece.render, Html.renderAttr,
      toList_widthStyle, js]
  have hrow : js "<div class=\"info-row\"><span class=\"label\">Signal Strength</span>"
      = openText "div" [("class", "info-row")] ++
        Html.render [el "span" [("class", "label")] [.text (js "Signal Strength")]] := by
    simp [openText, el, Html.render, Html.piecesOf, Node.pieces, Piece.render, Html.renderAttr, js]
  rw [signalRow, signalRowNode, render_el, render_cons _ [_, _], render_cons _ [_], hspan, hbar,
    hrow, closeText_div]
  simp only [List.append_assoc]

theorem clientItem_eq (c : ClientJson) : clientItem c = Html.render [clientItemNode c] := by
  simp [clientItem, clientItemNode, el, Html.render, Html.piecesOf, Node.pieces, Piece.render,
    Html.renderAttr, js]

theorem progressBar_eq (fillClass : String) (percent : ℕ) (text : List Char) :
    progressBar fillClass percent text = Html.render [progressBarNode fillClass percent text] := by
  have htext : (Html.piecesOf (Html.textNodes text)).flatMap Piece.render = text :=
    Html.render_textNodes _
  simp [progressBar, progressBarNode, el, Html.render, Html.piecesOf, Node.pieces, Piece.render,
    Html.renderAttr, htext, toList_widthStyle, js]

theorem metricBox_eq (valueClass : String) (value : List Char) (label : String) :
    metricBox valueClass value label = Html.render [metricBoxNode valueClass value label] := by
  have hvalue : (Html.piecesOf (Html.textNodes value)).flatMap Piece.render = value :=
    Html.render_textNodes _
  simp [metricBox, metricBoxNode, el, Html.render, Html.piecesOf, Node.pieces, Piece.render,
    Html.renderAttr, hvalue, js]

theorem metricGrid_eq (boxes : List Node) :
    metricGrid (Html.render boxes) = Html.render [metricGridNode boxes] := by
  simp [metricGrid, metricGridNode, el, Html.render, Html.piecesOf, Node.pieces, Piece.render,
    Html.renderAttr, js]

/-- The items of a list. -/
theorem flatMap_clientItem (l : List ClientJson) :
    l.flatMap clientItem = Html.render (l.map clientItemNode) := by
  induction l with
  | nil => rfl
  | cons c l ih => rw [List.flatMap_cons, List.map_cons, render_cons, clientItem_eq, ih]

theorem staCard_eq (d : NetworkJson) : staCard d = Html.render [staCardNode d] := by
  rw [staCard, staCardNode, ← card_eq]
  congr 1
  rw [render_cons, ← infoRow_eq]
  congr 1
  · split_ifs <;> rw [spanText_eq]
  · split_ifs
    · simp only [infoRow_text, signalRow_eq, ← Html.render_append, List.cons_append,
        List.nil_append]
    · rfl

theorem apCard_eq (d : NetworkJson) : apCard d = Html.render [apCardNode d] := by
  have hlist : js "<div class=\"clients-list\">" ++ d.clientList.flatMap clientItem ++ js "</div>"
      = Html.render [el "div" [("class", "clients-list")] (d.clientList.map clientItemNode)] := by
    rw [flatMap_clientItem]
    simp [el, Html.render, Html.piecesOf, Node.pieces, Piece.render, Html.renderAttr, js]
  rw [apCard, apCardNode, ← card_eq, Html.render_append]
  congr 1
  congr 1
  · simp only [infoRow_text, ← Html.render_append, List.cons_append, List.nil_append]
  · split_ifs
    · exact hlist
    · rfl

theorem featuresCard_eq (d : NetworkJson) : featuresCard d = Html.render [featuresCardNode d] := by
  rw [featuresCard, featuresCardNode, ← card_eq, render_cons, ← infoRow_eq]
  simp only [infoRow_text, List.append_assoc]
  congr 2
  · split_ifs <;> rw [spanText_eq]
  · simp only [← Html.render_append, List.cons_append, List.nil_append]

theorem renderMonitoringCards_eq (floorLog : ℕ → ℕ) (statsData : Option StatsJson) :
    renderMonitoringCards floorLog statsData
      = Html.render (monitoringNodes floorLog statsData) := by
  cases statsData with
  | none => rfl
  | some s =>
    have hcpu : cpuCard s = Html.render [cpuCardNode s] := by
      rw [cpuCard, cpuCardNode, ← card_eq]
      simp only [infoRow_text, progressBar_eq, ← Html.render_append, List.cons_append,
        List.nil_append]
    have hmem : memCard floorLog s = Html.render [memCardNode floorLog s] := by
      rw [memCard, memCardNode, ← card_eq]
      simp only [infoRow_text, progressBar_eq, metricBox_eq, metricGrid_eq, ← Html.render_append,
        List.cons_append, List.nil_append]
    have hthroughput : throughputCard floorLog s = Html.render [throughputCardNode floorLog s] := by
      rw [throughputCard, throughputCardNode, ← card_eq]
      simp only [infoRow_text, metricBox_eq, metricGrid_eq, ← Html.render_append,
        List.cons_append, List.nil_append]
    have hdns : dnsStatsCard s = Html.render [dnsStatsCardNode s] := by
      rw [dnsStatsCard, dnsStatsCardNode, ← card_eq]
      simp only [infoRow_text, metricBox_eq, metricGrid_eq, ← Html.render_append,
        List.cons_append, List.nil_append]
    simp only [renderMonitoringCards, monitoringNodes, hcpu, hmem, hthroughput, hdns,
      ← Html.render_append, List.cons_append, List.nil_append]

/-- **The string is the template**, written down. -/
theorem renderDashboard_eq (floorLog : ℕ → ℕ) (dnsExpanded : Bool) (statsData : Option StatsJson)
    (d : NetworkJson) :
    renderDashboard floorLog dnsExpanded statsData d
      = Html.render (dashboardNodes floorLog dnsExpanded statsData d) := by
  rw [renderDashboard, staCard_eq, apCard_eq, renderMonitoringCards_eq, featuresCard_eq,
    dnsCard_eq]
  simp only [← Html.render_append, dashboardNodes, ownCards, List.cons_append, List.nil_append]

/-! ### The template is neat -/

/-- The literals of the script that stand in texts. -/
def cardLabels : List String :=
  ["⬆️ Uplink (STA)", "⬇️ Access Point (AP)", "💻 CPU Usage", "🧠 Memory", "📊 Network Throughput",
    "⚡ DNS Performance", "Status", "Connected", "Disconnected", "SSID", "IP Address", "Netmask",
    "Gateway", "Channel", "Band", "Signal Strength", " (", " dBm)", "Connected Clients", " ",
    "IPv4: ", "unknown", "-", "⚙️ Features ", " Power", "NAT Enabled", "Yes", "No", "Monitoring",
    "Active", "Power Mode", "Estimated Power", "Uptime", "Total CPU", "%", "Active Tasks", "Usage",
    ".0%", "Free", "Total", "TX Rate", "RX Rate", "TX Total", "RX Total", "Cache Hit Rate",
    "Max Latency", "ms", "Cache Hits", "Cache Misses", "Avg Latency", " ms"]

/-- Those that stand in a class. -/
def cardClasses : List String :=
  ["card", "info-row", "label", "value", "value status-good", "value status-warning",
    "value status-bad", "badge badge-connected", "badge badge-disconnected", "rssi-bar",
    "rssi-fill", "clients-list", "client-item", "client-ipv4", "status-good", "status-bad",
    "progress-bar", "progress-fill progress-cpu", "progress-fill progress-mem", "metric-box",
    "metric-label", "metric-value", "metric-value throughput-value", "metric-value status-good",
    "metric-grid"]

theorem label_facts : ∀ label ∈ cardLabels,
    label.toList ≠ [] ∧ Html.NoMarkup label.toList := by
  decide +kernel

theorem ne_nil_label {label : String} (h : label ∈ cardLabels) : js label ≠ [] := by
  rw [js]
  exact (label_facts label h).1

theorem noMarkup_label {label : String} (h : label ∈ cardLabels) : Html.NoMarkup (js label) := by
  rw [js]
  exact (label_facts label h).2

theorem inert_label {R : Html.Rules} {label : String} (h : label ∈ cardLabels) :
    R.inert (js label) = true := Html.inert_of_noMarkup (noMarkup_label h)

/-- No character of the value ends it or a line, or begins a reference. -/
def plainValue (value : List Char) : Bool :=
  value.all fun c => c ≠ '"' && c ≠ '&' && c ≠ '>' && c ≠ '\r'

theorem plainValue_class : ∀ cls ∈ cardClasses, plainValue cls.toList = true := by
  decide +kernel

/-- The names of tags and attributes in the cards. -/
theorem tag_facts : (∀ name ∈ ["div", "span"], (Html.plainName name.toList &&
      !Html.ownContent.contains name.toList && !Html.voidElements.contains name.toList) = true) ∧
    Html.plainName "class".toList = true ∧ Html.plainName "style".toList = true ∧
    Html.plainTag "h2".toList [] = true := by
  decide +kernel

theorem plainTag_class {name cls : String} (hname : name = "div" ∨ name = "span")
    (hcls : cls ∈ cardClasses) :
    Html.plainTag name.toList [("class".toList, cls.toList)] = true := by
  rw [Html.plainTag, tag_facts.1 name (by simpa using hname), Bool.true_and, Html.plainAttrs,
    Bool.and_eq_true, List.all_eq_true]
  refine ⟨by simp, fun a ha => ?_⟩
  rw [List.mem_singleton.mp ha]
  exact Bool.and_eq_true_iff.mpr ⟨tag_facts.2.1, plainValue_class cls hcls⟩

theorem plainValue_width (percent : ℕ) : plainValue (widthStyle percent).toList = true := by
  have hunits : plainValue (js "width: ") = true ∧ plainValue (js "%") = true := by
    simp only [js]
    decide +kernel
  have hdigits : plainValue (numberText percent) = true := by
    refine List.all_eq_true.mpr fun c hc => ?_
    have hne : ∀ d : Char, d.isDigit = false → c ≠ d := by
      rintro d hd rfl
      exact absurd (isDigit_of_mem_numberText hc) (by simp [hd])
    simp [hne '"' rfl, hne '&' rfl, hne '>' rfl, hne '\r' rfl]
  have happend : ∀ a b : List Char, plainValue (a ++ b) = (plainValue a && plainValue b) :=
    fun a b => List.all_append
  rw [toList_widthStyle, happend, happend, hunits.1, hdigits, hunits.2]
  rfl

theorem plainTag_width {cls : String} (hcls : cls ∈ cardClasses) (percent : ℕ) :
    Html.plainTag "div".toList
      [("class".toList, cls.toList), ("style".toList, (widthStyle percent).toList)] = true := by
  rw [Html.plainTag, tag_facts.1 "div" (by simp), Bool.true_and, Html.plainAttrs,
    Bool.and_eq_true, List.all_eq_true]
  refine ⟨by simp, fun a ha => ?_⟩
  simp only [List.mem_cons, List.not_mem_nil, or_false] at ha
  rcases ha with rfl | rfl
  · exact Bool.and_eq_true_iff.mpr ⟨tag_facts.2.1, plainValue_class cls hcls⟩
  · exact Bool.and_eq_true_iff.mpr ⟨tag_facts.2.2.1, plainValue_width percent⟩

theorem neat_el_class {name cls : String} {children nodes : List Node}
    (hname : name = "div" ∨ name = "span") (hcls : cls ∈ cardClasses) :
    Html.Neat (el name [("class", cls)] children :: nodes) ↔
      Html.Neat children ∧ Html.Neat nodes :=
  Html.neat_element.trans (and_iff_right (plainTag_class hname hcls))

/-- A label behind which an element may stand. -/
theorem neat_label {label : String} (h : label ∈ cardLabels) : Html.Neat [.text (js label)] :=
  ⟨ne_nil_label h, by simp, trivial⟩

theorem neat_infoRowNode {label valueClass : String} {value nodes : List Node}
    (hlabel : label ∈ cardLabels) (hcls : valueClass ∈ cardClasses) :
    Html.Neat (infoRowNode label valueClass value :: nodes) ↔
      Html.Neat value ∧ Html.Neat nodes := by
  have hfixed : "info-row" ∈ cardClasses ∧ "label" ∈ cardClasses := by simp [cardClasses]
  rw [infoRowNode, neat_el_class (.inl rfl) hfixed.1, neat_el_class (.inr rfl) hfixed.2,
    neat_el_class (.inr rfl) hcls]
  simp [neat_label hlabel]

theorem neat_infoText {label valueClass : String} {value : List Char} {nodes : List Node}
    (hlabel : label ∈ cardLabels) (hcls : valueClass ∈ cardClasses) :
    Html.Neat (infoText label valueClass value :: nodes) ↔ Html.Neat nodes := by
  rw [infoText, neat_infoRowNode hlabel hcls, and_iff_right (Html.neat_textNodes value)]

theorem neat_cardNode {title : String} {body nodes : List Node} (htitle : js title ≠ []) :
    Html.Neat (cardNode title body :: nodes) ↔ Html.Neat body ∧ Html.Neat nodes := by
  have hcard : "card" ∈ cardClasses := by simp [cardClasses]
  have hh2 : Html.plainTag "h2".toList [] = true := tag_facts.2.2.2
  have hname : Html.Neat [.text (js title)] := ⟨htitle, by simp, trivial⟩
  have hhead : Html.Neat (el "h2" [] [.text (js title)] :: body) ↔ Html.Neat body :=
    Html.neat_element.trans ((and_iff_right hh2).trans (and_iff_right hname))
  rw [cardNode, neat_el_class (.inl rfl) hcard, hhead]

/-- The texts of a card are its title and those of its rows. -/
theorem inertTexts_cardNode {R : Html.Rules} {title : String} {body nodes : List Node} :
    InertTexts R (cardNode title body :: nodes) ↔
      R.inert (js title) = true ∧ InertTexts R body ∧ InertTexts R nodes := by
  simp [cardNode, el, and_assoc]

theorem inertTexts_infoRowNode {R : Html.Rules} {label valueClass : String}
    {value nodes : List Node} (hlabel : label ∈ cardLabels) :
    InertTexts R (infoRowNode label valueClass value :: nodes) ↔
      InertTexts R value ∧ InertTexts R nodes := by
  simp [infoRowNode, el, inert_label hlabel]

theorem inertTexts_infoText {R : Html.Rules} {label valueClass : String} {value : List Char}
    {nodes : List Node} (hlabel : label ∈ cardLabels) :
    InertTexts R (infoText label valueClass value :: nodes) ↔
      R.inert value = true ∧ InertTexts R nodes := by
  rw [infoText, inertTexts_infoRowNode hlabel, Html.inertTexts_textNodes]

/-! ### The cards -/

theorem class_color (color : StatusColor) : "value " ++ color.name ∈ cardClasses := by
  cases color <;> simp [cardClasses, StatusColor.name]

theorem neat_el_width {cls : String} {percent : ℕ} {children nodes : List Node}
    (hcls : cls ∈ cardClasses) :
    Html.Neat (el "div" [("class", cls), ("style", widthStyle percent)] children :: nodes) ↔
      Html.Neat children ∧ Html.Neat nodes :=
  Html.neat_element.trans (and_iff_right (plainTag_width hcls percent))

theorem neat_signalRowNode (d : NetworkJson) : Html.Neat [signalRowNode d] := by
  have hlabel : "Signal Strength" ∈ cardLabels := by simp [cardLabels]
  have hclasses : "info-row" ∈ cardClasses ∧ "label" ∈ cardClasses ∧ "rssi-bar" ∈ cardClasses ∧
      "rssi-fill" ∈ cardClasses := by
    simp [cardClasses]
  obtain ⟨hrow, hname, hbar, hfill⟩ := hclasses
  rw [signalRowNode, neat_el_class (.inl rfl) hrow, neat_el_class (.inr rfl) hname,
    neat_el_class (.inr rfl) (class_color _), neat_el_class (.inl rfl) hbar, neat_el_width hfill]
  simp [neat_label hlabel, Html.neat_textNodes]

/-- A span with a text of the script. -/
theorem neat_span {cls text : String} (hcls : cls ∈ cardClasses) (htext : text ∈ cardLabels) :
    Html.Neat [el "span" [("class", cls)] [.text (js text)]] := by
  rw [neat_el_class (.inr rfl) hcls]
  exact ⟨neat_label htext, trivial⟩

theorem neat_staCardNode (d : NetworkJson) : Html.Neat [staCardNode d] := by
  have htitle : "⬆️ Uplink (STA)" ∈ cardLabels := by simp [cardLabels]
  have hstatus : Html.Neat [if d.staConnected then
      el "span" [("class", "badge badge-connected")] [.text (js "Connected")]
      else el "span" [("class", "badge badge-disconnected")] [.text (js "Disconnected")]] := by
    split_ifs <;> exact neat_span (by simp [cardClasses]) (by simp [cardLabels])
  rw [staCardNode, neat_cardNode (ne_nil_label htitle),
    neat_infoRowNode (by simp [cardLabels]) (by simp [cardClasses])]
  refine ⟨⟨hstatus, ?_⟩, trivial⟩
  split_ifs
  · repeat rw [neat_infoText (by simp [cardLabels]) (by simp [cardClasses])]
    exact neat_signalRowNode d
  · trivial

theorem neat_apCardNode (d : NetworkJson) : Html.Neat [apCardNode d] := by
  have htitle : "⬇️ Access Point (AP)" ∈ cardLabels := by simp [cardLabels]
  have hclasses : "clients-list" ∈ cardClasses ∧ "client-item" ∈ cardClasses ∧
      "client-ipv4" ∈ cardClasses := by
    simp [cardClasses]
  obtain ⟨hlist, hitem, hipv4⟩ := hclasses
  have hliterals : js " " ≠ [] ∧ js "IPv4: " ≠ [] := by
    simp only [js]
    decide
  have hclient : ∀ c : ClientJson, (clientItemNode c).Neat ∧ (clientItemNode c).isText = false := by
    intro c
    refine ⟨((Html.neat_cons rfl).mp (?_ : Html.Neat [clientItemNode c])).1, rfl⟩
    rw [clientItemNode, neat_el_class (.inl rfl) hitem]
    refine ⟨⟨List.append_ne_nil_of_right_ne_nil _ hliterals.1, by simp [el, Html.Node.isText], ?_⟩,
      trivial⟩
    rw [neat_el_class (.inl rfl) hipv4]
    exact ⟨⟨List.append_ne_nil_of_left_ne_nil hliterals.2 _, by simp, trivial⟩, trivial⟩
  rw [apCardNode, neat_cardNode (ne_nil_label htitle)]
  refine ⟨?_, trivial⟩
  simp only [List.cons_append, List.nil_append]
  repeat rw [neat_infoText (by simp [cardLabels]) (by simp [cardClasses])]
  split_ifs
  · rw [neat_el_class (.inl rfl) hlist]
    refine ⟨Html.neat_of_forall fun node hnode => ?_, trivial⟩
    obtain ⟨c, -, rfl⟩ := List.mem_map.mp hnode
    exact hclient c
  · trivial

theorem neat_featuresCardNode (d : NetworkJson) : Html.Neat [featuresCardNode d] := by
  have htitle : js "⚙️ Features & Power" ≠ [] := by
    rw [js]
    decide +kernel
  have hnat : Html.Neat [if d.natEnabled then
      el "span" [("class", "status-good")] [.text (js "Yes")]
      else el "span" [("class", "status-bad")] [.text (js "No")]] := by
    split_ifs <;> exact neat_span (by simp [cardClasses]) (by simp [cardLabels])
  rw [featuresCardNode, neat_cardNode htitle,
    neat_infoRowNode (by simp [cardLabels]) (by simp [cardClasses])]
  repeat rw [neat_infoText (by simp [cardLabels]) (by simp [cardClasses])]
  exact ⟨⟨hnat, trivial⟩, trivial⟩

theorem neat_progressBarNode {fillClass : String} {percent : ℕ} {text : List Char}
    {nodes : List Node} (hfill : fillClass ∈ cardClasses) :
    Html.Neat (progressBarNode fillClass percent text :: nodes) ↔ Html.Neat nodes := by
  have hbar : "progress-bar" ∈ cardClasses := by simp [cardClasses]
  rw [progressBarNode, neat_el_class (.inl rfl) hbar, neat_el_width hfill]
  simp [Html.neat_textNodes]

theorem neat_metricBoxNode {valueClass label : String} {value : List Char} {nodes : List Node}
    (hcls : valueClass ∈ cardClasses) (hlabel : label ∈ cardLabels) :
    Html.Neat (metricBoxNode valueClass value label :: nodes) ↔ Html.Neat nodes := by
  have hclasses : "metric-box" ∈ cardClasses ∧ "metric-label" ∈ cardClasses := by simp [cardClasses]
  rw [metricBoxNode, neat_el_class (.inl rfl) hclasses.1, neat_el_class (.inl rfl) hcls,
    neat_el_class (.inl rfl) hclasses.2]
  simp [neat_label hlabel, Html.neat_textNodes]

theorem neat_metricGridNode {boxes nodes : List Node} :
    Html.Neat (metricGridNode boxes :: nodes) ↔ Html.Neat boxes ∧ Html.Neat nodes := by
  have hgrid : "metric-grid" ∈ cardClasses := by simp [cardClasses]
  rw [metricGridNode, neat_el_class (.inl rfl) hgrid]

/-- A neat element in front of a neat row. -/
theorem neat_row_cons {node : Node} {nodes : List Node} (hnode : Html.Neat [node])
    (htext : node.isText = false) (hnodes : Html.Neat nodes) : Html.Neat (node :: nodes) :=
  (Html.neat_cons htext).mpr ⟨((Html.neat_cons htext).mp hnode).1, hnodes⟩

theorem neat_cpuCardNode (s : StatsJson) : Html.Neat [cpuCardNode s] := by
  rw [cpuCardNode, neat_cardNode (ne_nil_label (by simp [cardLabels])),
    neat_infoText (by simp [cardLabels]) (class_color _),
    neat_progressBarNode (by simp [cardClasses]),
    neat_infoText (by simp [cardLabels]) (by simp [cardClasses])]
  exact ⟨trivial, trivial⟩

theorem neat_memCardNode (floorLog : ℕ → ℕ) (s : StatsJson) :
    Html.Neat [memCardNode floorLog s] := by
  rw [memCardNode, neat_cardNode (ne_nil_label (by simp [cardLabels])),
    neat_infoText (by simp [cardLabels]) (class_color _),
    neat_progressBarNode (by simp [cardClasses]), neat_metricGridNode]
  repeat rw [neat_metricBoxNode (by simp [cardClasses]) (by simp [cardLabels])]
  exact ⟨⟨trivial, trivial⟩, trivial⟩

theorem neat_throughputCardNode (floorLog : ℕ → ℕ) (s : StatsJson) :
    Html.Neat [throughputCardNode floorLog s] := by
  rw [throughputCardNode, neat_cardNode (ne_nil_label (by simp [cardLabels])), neat_metricGridNode]
  repeat rw [neat_metricBoxNode (by simp [cardClasses]) (by simp [cardLabels])]
  repeat rw [neat_infoText (by simp [cardLabels]) (by simp [cardClasses])]
  exact ⟨⟨trivial, trivial⟩, trivial⟩

theorem neat_dnsStatsCardNode (s : StatsJson) :
    Html.Neat [dnsStatsCardNode s] := by
  rw [dnsStatsCardNode, neat_cardNode (ne_nil_label (by simp [cardLabels])), neat_metricGridNode]
  repeat rw [neat_metricBoxNode (by simp [cardClasses]) (by simp [cardLabels])]
  repeat rw [neat_infoText (by simp [cardLabels]) (by simp [cardClasses])]
  exact ⟨⟨trivial, trivial⟩, trivial⟩

theorem neat_monitoringNodes (floorLog : ℕ → ℕ) (statsData : Option StatsJson) {nodes : List Node}
    (h : Html.Neat nodes) : Html.Neat (monitoringNodes floorLog statsData ++ nodes) := by
  cases statsData with
  | none => exact h
  | some s =>
    exact neat_row_cons (neat_cpuCardNode s) rfl (neat_row_cons (neat_memCardNode floorLog s) rfl
      (neat_row_cons (neat_throughputCardNode floorLog s) rfl
        (neat_row_cons (neat_dnsStatsCardNode s) rfl h)))

theorem neat_ownCards (floorLog : ℕ → ℕ) (statsData : Option StatsJson) (d : NetworkJson) :
    Html.Neat (ownCards floorLog statsData d) := by
  simp only [ownCards, List.cons_append, List.nil_append]
  exact neat_row_cons (neat_staCardNode d) rfl (neat_row_cons (neat_apCardNode d) rfl
    (neat_monitoringNodes floorLog statsData (neat_featuresCardNode d)))

/-- Each of them is an element. -/
theorem isText_ownCards (floorLog : ℕ → ℕ) (statsData : Option StatsJson) (d : NetworkJson) :
    ∀ node ∈ ownCards floorLog statsData d, node.isText = false := by
  intro node hnode
  cases statsData with
  | none =>
    simp only [ownCards, monitoringNodes, List.cons_append, List.nil_append, List.mem_cons,
      List.not_mem_nil, or_false] at hnode
    rcases hnode with rfl | rfl | rfl <;> rfl
  | some s =>
    simp only [ownCards, monitoringNodes, List.cons_append, List.nil_append, List.mem_cons,
      List.not_mem_nil, or_false] at hnode
    rcases hnode with rfl | rfl | rfl | rfl | rfl | rfl | rfl <;> rfl

/-! ### Which texts have to be inert -/

theorem noMarkup_intText (n : ℤ) : Html.NoMarkup (intText n) := by
  cases n with
  | ofNat n => exact noMarkup_numberText n
  | negSucc n =>
    have htext : intText (.negSucc n) = '-' :: numberText (n + 1) := by
      show ("-" ++ toString (n + 1)).toList = _
      rw [String.toList_append]
      rfl
    rw [htext]
    exact List.forall_mem_cons.mpr ⟨by decide, noMarkup_numberText _⟩

/-- An ampersand with a blank behind it begins no reference. -/
theorem reference_blank (R : Html.Rules) (c : Char) (cs : List Char) :
    R.reference c (' ' :: cs) = none := by
  cases href : R.reference c (' ' :: cs) with
  | none => rfl
  | some r =>
    obtain ⟨text, n⟩ := r
    have hchars := Html.isRefChar_of_reference href
    unfold Html.Rules.reference at href
    split_ifs at href
    obtain ⟨n, rfl⟩ : ∃ m, n = m + 1 := ⟨n - 1, by have := Html.referenceOf_pos href; omega⟩
    exact absurd (hchars ' ' List.mem_cons_self) (by decide)

/-- The title with the ampersand. -/
theorem inert_features (R : Html.Rules) : R.inert (js "⚙️ Features & Power") = true := by
  have hpower : R.inert (js " Power") = true := inert_label (by simp [cardLabels])
  have hblank : ∃ cs, js " Power" = ' ' :: cs := ⟨js "Power", by
    simp only [js]
    decide +kernel⟩
  obtain ⟨cs, hcs⟩ := hblank
  have hamp : R.inert ('&' :: js " Power") = true := by
    rw [Html.Rules.inert, hpower, hcs, reference_blank]
    rfl
  have hfront : ∀ text : List Char, Html.NoMarkup text →
      R.inert (text ++ '&' :: js " Power") = true := by
    intro text htext
    induction text with
    | nil => exact hamp
    | cons c text ih =>
      obtain ⟨⟨hopen, hc⟩, htext⟩ := List.forall_mem_cons.mp htext
      rw [List.cons_append, Html.Rules.inert, Html.Rules.reference, if_neg hc, ih htext]
      simp [hopen]
  have hsplit : js "⚙️ Features & Power" = js "⚙️ Features " ++ '&' :: js " Power" := by
    simp only [js]
    decide +kernel
  rw [hsplit]
  exact hfront _ (noMarkup_label (by simp [cardLabels]))

/-- A span with a text of the script. -/
theorem inertTexts_span {R : Html.Rules} {cls text : String} (htext : text ∈ cardLabels) :
    InertTexts R [el "span" [("class", cls)] [.text (js text)]] := by
  simp [el, inert_label htext]

/-- The row of the signal is made of a text of the device and a number. -/
theorem inertTexts_signalRowNode {R : Html.Rules} {d : NetworkJson} (h : d.Plain) :
    InertTexts R [signalRowNode d] := by
  have hlabel : R.inert (js "Signal Strength") = true := inert_label (by simp [cardLabels])
  have hunits : Html.NoMarkup (js " (") ∧ Html.NoMarkup (js " dBm)") :=
    ⟨noMarkup_label (by simp [cardLabels]), noMarkup_label (by simp [cardLabels])⟩
  have htext : Html.NoMarkup d.rssiInfo.text := h.own _ (by simp [NetworkJson.ownTexts])
  have hsignal : R.inert (signalText d) = true := Html.inert_of_noMarkup
    (((htext.append hunits.1).append (noMarkup_intText _)).append hunits.2)
  simp [signalRowNode, el, hlabel, hsignal]

/-- The name of the network counts only while the station is connected. -/
theorem inertTexts_staCardNode {R : Html.Rules} {d : NetworkJson} (h : d.Plain) :
    InertTexts R [staCardNode d] ↔ (d.staConnected = true → R.inert d.staSsid = true) := by
  have htitle : R.inert (js "⬆️ Uplink (STA)") = true := inert_label (by simp [cardLabels])
  have hown : ∀ t ∈ d.ownTexts, R.inert t = true := fun t ht => Html.inert_of_noMarkup (h.own t ht)
  have hstatus : InertTexts R [if d.staConnected then
      el "span" [("class", "badge badge-connected")] [.text (js "Connected")]
      else el "span" [("class", "badge badge-disconnected")] [.text (js "Disconnected")]] := by
    split_ifs <;> exact inertTexts_span (by simp [cardLabels])
  rw [staCardNode, inertTexts_cardNode, inertTexts_infoRowNode (by simp [cardLabels])]
  simp only [htitle, hstatus, Html.inertTexts_nil, and_true, true_and]
  split_ifs with hconnected
  · have haddresses : R.inert d.staIp = true ∧ R.inert d.staNetmask = true ∧
        R.inert d.staGw = true ∧ R.inert d.staBand = true := by
      refine ⟨hown _ ?_, hown _ ?_, hown _ ?_, hown _ ?_⟩ <;> simp [NetworkJson.ownTexts]
    obtain ⟨hip, hmask, hgw, hband⟩ := haddresses
    have hchannel : R.inert (numberText d.staChannel) = true :=
      Html.inert_of_noMarkup (noMarkup_numberText _)
    repeat rw [inertTexts_infoText (by simp [cardLabels])]
    simp [hip, hmask, hgw, hband, hchannel, inertTexts_signalRowNode h, hconnected]
  · simp [hconnected]

theorem inertTexts_apCardNode {R : Html.Rules} {d : NetworkJson} (h : d.Plain) :
    InertTexts R [apCardNode d] ↔ R.inert d.apSsid = true := by
  have htitle : R.inert (js "⬇️ Access Point (AP)") = true := inert_label (by simp [cardLabels])
  have hown : ∀ t ∈ d.ownTexts, R.inert t = true := fun t ht => Html.inert_of_noMarkup (h.own t ht)
  have haddresses : R.inert d.apIp = true ∧ R.inert d.apNetmask = true ∧
      R.inert d.apGw = true := by
    refine ⟨hown _ ?_, hown _ ?_, hown _ ?_⟩ <;> simp [NetworkJson.ownTexts]
  obtain ⟨hip, hmask, hgw⟩ := haddresses
  have hclients : R.inert (numberText d.apClients) = true :=
    Html.inert_of_noMarkup (noMarkup_numberText _)
  have hliterals : Html.NoMarkup (js "unknown") ∧ Html.NoMarkup (js "-") ∧
      Html.NoMarkup (js " ") ∧ Html.NoMarkup (js "IPv4: ") := by
    simp only [js]
    decide
  obtain ⟨hunknown, hdash, hblank, hipv4⟩ := hliterals
  have hclient : ∀ c ∈ d.clientList, InertTexts R [clientItemNode c] := by
    intro c hc
    have htexts : Html.NoMarkup c.mac ∧ Html.NoMarkup c.ipv4 :=
      ⟨h.own _ (List.mem_append_right _ (List.mem_flatMap.mpr ⟨c, hc, by simp⟩)),
        h.own _ (List.mem_append_right _ (List.mem_flatMap.mpr ⟨c, hc, by simp⟩))⟩
    have hfirst := Html.inert_of_noMarkup (R := R)
      ((noMarkup_orElse htexts.1 hunknown).append hblank)
    have hsecond := Html.inert_of_noMarkup (R := R)
      (hipv4.append (noMarkup_orElse htexts.2 hdash))
    simp [clientItemNode, el, hfirst, hsecond]
  have hlist : InertTexts R (if d.apClients > 0 ∧ d.clientList.length ≠ 0 then
      [el "div" [("class", "clients-list")] (d.clientList.map clientItemNode)] else []) := by
    split_ifs
    · rw [el, Html.inertTexts_element]
      exact ⟨Html.inertTexts_map.mpr hclient, Html.inertTexts_nil⟩
    · exact Html.inertTexts_nil
  rw [apCardNode, inertTexts_cardNode, Html.inertTexts_append]
  repeat rw [inertTexts_infoText (by simp [cardLabels])]
  simp only [htitle, hip, hmask, hgw, hclients, hlist, Html.inertTexts_nil, and_true, true_and]

theorem inertTexts_featuresCardNode {R : Html.Rules} {d : NetworkJson} (h : d.Plain) :
    InertTexts R [featuresCardNode d] := by
  have hown : ∀ t ∈ d.ownTexts, R.inert t = true := fun t ht => Html.inert_of_noMarkup (h.own t ht)
  have htexts : R.inert d.powerMode = true ∧ R.inert d.estimatedPower = true ∧
      R.inert d.uptime = true := by
    refine ⟨hown _ ?_, hown _ ?_, hown _ ?_⟩ <;> simp [NetworkJson.ownTexts]
  have hactive : R.inert (js "Active") = true := inert_label (by simp [cardLabels])
  have hnat : InertTexts R [if d.natEnabled then
      el "span" [("class", "status-good")] [.text (js "Yes")]
      else el "span" [("class", "status-bad")] [.text (js "No")]] := by
    split_ifs <;> exact inertTexts_span (by simp [cardLabels])
  rw [featuresCardNode, inertTexts_cardNode, inertTexts_infoRowNode (by simp [cardLabels])]
  repeat rw [inertTexts_infoText (by simp [cardLabels])]
  simp only [inert_features, hnat, hactive, htexts, Html.inertTexts_nil, and_self]

theorem inertTexts_progressBarNode {R : Html.Rules} {fillClass : String} {percent : ℕ}
    {text : List Char} {nodes : List Node} :
    InertTexts R (progressBarNode fillClass percent text :: nodes) ↔
      R.inert text = true ∧ InertTexts R nodes := by
  simp [progressBarNode, el]

theorem inertTexts_metricBoxNode {R : Html.Rules} {valueClass label : String} {value : List Char}
    {nodes : List Node} (hlabel : label ∈ cardLabels) :
    InertTexts R (metricBoxNode valueClass value label :: nodes) ↔
      R.inert value = true ∧ InertTexts R nodes := by
  simp [metricBoxNode, el, inert_label hlabel]

theorem inertTexts_metricGridNode {R : Html.Rules} {boxes nodes : List Node} :
    InertTexts R (metricGridNode boxes :: nodes) ↔ InertTexts R boxes ∧ InertTexts R nodes := by
  simp [metricGridNode, el]

theorem inert_numberText (R : Html.Rules) (n : ℕ) : R.inert (numberText n) = true :=
  Html.inert_of_noMarkup (noMarkup_numberText n)

/-- A number with its unit. -/
theorem inert_unit {R : Html.Rules} {text : List Char} {unit : String}
    (htext : Html.NoMarkup text) (hunit : unit ∈ cardLabels) : R.inert (text ++ js unit) = true :=
  Html.inert_of_noMarkup (htext.append (noMarkup_label hunit))

theorem noMarkup_toFixed (q : ℚ) (digits : ℕ) : Html.NoMarkup (Js.toFixed q digits) := by
  intro c hc
  rcases Js.mem_toFixed hc with hdigit | rfl
  · constructor <;>
      · rintro rfl
        exact absurd hdigit (by decide)
  · decide

theorem noMarkup_formatWith {zero : String} {sizes : List String}
    (hliterals : ∀ literal ∈ zero :: "undefined" :: " " :: sizes, Html.NoMarkup (js literal))
    (digits : ℕ) (floorLog : ℕ → ℕ) (n : ℕ) :
    Html.NoMarkup (formatWith zero sizes digits floorLog n) := by
  obtain ⟨hzero, hundefined, hblank, hsizes⟩ :
      Html.NoMarkup (js zero) ∧ Html.NoMarkup (js "undefined") ∧ Html.NoMarkup (js " ") ∧
        ∀ size ∈ sizes, Html.NoMarkup (js size) := by
    simpa only [List.forall_mem_cons] using hliterals
  unfold formatWith
  split_ifs
  · exact hzero
  · refine ((noMarkup_toFixed _ _).append hblank).append ?_
    cases hsize : sizes[floorLog n]? with
    | none => exact hundefined
    | some size => exact hsizes size (List.mem_of_getElem? hsize)

theorem inert_formats (R : Html.Rules) (floorLog : ℕ → ℕ) (n : ℕ) :
    R.inert (formatBytes floorLog n) = true ∧ R.inert (formatBytesPerSec floorLog n) = true := by
  constructor <;> refine Html.inert_of_noMarkup (noMarkup_formatWith ?_ _ _ _) <;>
    · simp only [js]
      decide +kernel

theorem inertTexts_cpuCardNode (R : Html.Rules) (s : StatsJson) :
    InertTexts R [cpuCardNode s] := by
  have htitle : "💻 CPU Usage" ∈ cardLabels := by simp [cardLabels]
  have hpercent : R.inert (numberText s.totalPercent ++ js "%") = true :=
    inert_unit (noMarkup_numberText _) (by simp [cardLabels])
  rw [cpuCardNode, inertTexts_cardNode, inertTexts_infoText (by simp [cardLabels]),
    inertTexts_progressBarNode, inertTexts_infoText (by simp [cardLabels])]
  simp [inert_label htitle, hpercent, inert_numberText]

theorem inertTexts_memCardNode (R : Html.Rules) (floorLog : ℕ → ℕ) (s : StatsJson) :
    InertTexts R [memCardNode floorLog s] := by
  have htitle : "🧠 Memory" ∈ cardLabels := by simp [cardLabels]
  have hpercent : R.inert (numberText s.heapUsagePercent ++ js ".0%") = true :=
    inert_unit (noMarkup_numberText _) (by simp [cardLabels])
  rw [memCardNode, inertTexts_cardNode, inertTexts_infoText (by simp [cardLabels]),
    inertTexts_progressBarNode, inertTexts_metricGridNode]
  repeat rw [inertTexts_metricBoxNode (by simp [cardLabels])]
  simp [inert_label htitle, hpercent, inert_formats]

theorem inertTexts_throughputCardNode (R : Html.Rules) (floorLog : ℕ → ℕ) (s : StatsJson) :
    InertTexts R [throughputCardNode floorLog s] := by
  have htitle : "📊 Network Throughput" ∈ cardLabels := by simp [cardLabels]
  rw [throughputCardNode, inertTexts_cardNode, inertTexts_metricGridNode]
  repeat rw [inertTexts_metricBoxNode (by simp [cardLabels])]
  repeat rw [inertTexts_infoText (by simp [cardLabels])]
  simp [inert_label htitle, inert_formats]

theorem inertTexts_dnsStatsCardNode (R : Html.Rules) (s : StatsJson) :
    InertTexts R [dnsStatsCardNode s] := by
  have htitle : "⚡ DNS Performance" ∈ cardLabels := by simp [cardLabels]
  have hrate : Html.NoMarkup (hitRateText s) := by
    unfold hitRateText
    split_ifs
    · exact noMarkup_toFixed _ _
    · exact noMarkup_numberText 0
  have hpercent : R.inert (hitRateText s ++ js "%") = true :=
    inert_unit hrate (by simp [cardLabels])
  have hmax : R.inert (millisText s.dnsMaxLatencyUs 0 ++ js "ms") = true :=
    inert_unit (noMarkup_toFixed _ _) (by simp [cardLabels])
  have havg : R.inert (millisText s.dnsAvgLatencyUs 1 ++ js " ms") = true :=
    inert_unit (noMarkup_toFixed _ _) (by simp [cardLabels])
  rw [dnsStatsCardNode, inertTexts_cardNode, inertTexts_metricGridNode]
  repeat rw [inertTexts_metricBoxNode (by simp [cardLabels])]
  repeat rw [inertTexts_infoText (by simp [cardLabels])]
  simp [inert_label htitle, hpercent, hmax, havg, inert_numberText]

/-- A card in front of others. -/
theorem inertTexts_cons {R : Html.Rules} (node : Node) (nodes : List Node) :
    InertTexts R (node :: nodes) ↔ InertTexts R [node] ∧ InertTexts R nodes := by
  rw [← Html.inertTexts_append, List.singleton_append]

/-- The statistics are numbers and literals. -/
theorem inertTexts_monitoringNodes (R : Html.Rules) (floorLog : ℕ → ℕ)
    (statsData : Option StatsJson) :
    InertTexts R (monitoringNodes floorLog statsData) := by
  cases statsData with
  | none => exact Html.inertTexts_nil
  | some s =>
    rw [monitoringNodes, inertTexts_cons (cpuCardNode s), inertTexts_cons (memCardNode floorLog s),
      inertTexts_cons (throughputCardNode floorLog s)]
    exact ⟨inertTexts_cpuCardNode R s, inertTexts_memCardNode R floorLog s,
      inertTexts_throughputCardNode R floorLog s, inertTexts_dnsStatsCardNode R s⟩

/-! ### How the dashboard is read -/

/-- The cards in front of the last one are read back when the two names are inert. -/
theorem parse_ownCards_iff (R : Html.Rules) (floorLog : ℕ → ℕ) (statsData : Option StatsJson)
    {d : NetworkJson} (h : d.Plain) :
    Html.parse R (Html.render (ownCards floorLog statsData d)) = ownCards floorLog statsData d ↔
      (d.staConnected = true → R.inert d.staSsid = true) ∧ R.inert d.apSsid = true := by
  rw [Html.parse_neat_iff (neat_ownCards floorLog statsData d)
      (isText_ownCards floorLog statsData d), ownCards,
    List.append_assoc, List.cons_append, List.cons_append, List.nil_append,
    inertTexts_cons (staCardNode d), inertTexts_cons (apCardNode d), Html.inertTexts_append,
    inertTexts_staCardNode h, inertTexts_apCardNode h]
  simp only [inertTexts_monitoringNodes, inertTexts_featuresCardNode h, and_true]

/-- **When a browser reads the template back**, for any answer whose own texts hold no markup:
exactly when the names and the domains shown are inert. -/
theorem parse_renderDashboard_iff (R : Html.Rules) (floorLog : ℕ → ℕ) (dnsExpanded : Bool)
    (statsData : Option StatsJson) {d : NetworkJson} (h : d.Plain) :
    Html.parse R (normalizeNewlines (renderDashboard floorLog dnsExpanded statsData d))
        = normalizeTexts (dashboardNodes floorLog dnsExpanded statsData d) ↔
      (d.staConnected = true → R.inert d.staSsid = true) ∧ R.inert d.apSsid = true ∧
        ∀ log ∈ d.dnsLogs.take (maxDns dnsExpanded d.dnsLogs),
          R.inert (orElse log.domain (js "-")) = true := by
  have hown := Html.wellFormed_of_neat (neat_ownCards floorLog statsData d)
    (isText_ownCards floorLog statsData d)
  have hlog := wellFormed_dnsCardNode dnsExpanded d.dnsLogs
  have hall : Html.WellFormed
      (Html.piecesOf (dashboardNodes floorLog dnsExpanded statsData d)) := by
    rw [dashboardNodes, Html.piecesOf_append]
    exact Html.wellFormed_append hown hlog
  rw [renderDashboard_eq, Html.parse_normalized_iff hall, dashboardNodes,
    Html.parse_append_iff hown hlog, parse_ownCards_iff R floorLog statsData h, ← dnsCard_eq,
    parse_dnsCard_iff R dnsExpanded h.logs, and_assoc]

/-- The domains shown are inert exactly when the queries name inert ones. -/
theorem inert_domains_iff (R : Html.Rules) (dnsExpanded : Bool) (queries : List HandledQuery) :
    (∀ log ∈ (addDnsLogsJson (logOf queries)).take
        (maxDns dnsExpanded (addDnsLogsJson (logOf queries))),
      R.inert (orElse log.domain (js "-")) = true) ↔
      ∀ q ∈ shownQueries dnsExpanded queries, NamedInert R q.datagram := by
  have hlen : (recentQueries queries).length ≤ Dns.dnsLogMaxEntries := List.length_take_le _ _
  have hshown : (recentQueries queries).take
      (maxDns dnsExpanded ((recentQueries queries).map HandledQuery.json))
      = shownQueries dnsExpanded queries := by
    rw [shownQueries, List.take_eq_take_iff, maxDns, List.length_map]
    split_ifs <;> omega
  rw [addDnsLogsJson_logOf, ← List.map_take, hshown, List.forall_mem_map]
  refine forall₂_congr fun q _ => ?_
  -- no name is empty, so that no dash is shown
  have hne : q.json.domain ≠ [] := by
    rw [HandledQuery.json, ne_eq, List.take_eq_nil_iff]
    exact fun h => h.elim (by decide) (loggedName_ne_nil q.datagram)
  rw [orElse, if_neg hne, ← inert_loggedName_iff, HandledQuery.json]

/-- The name of the access point that the device sends: the one the boot has found, if the driver
still has it, and a dash if it does not answer. -/
theorem apSsidOf_driver {c₀ : RepeaterConfig} {behind : List UInt8} {fs : List (Option EspErr)}
    {s : Nvs} {b : Boot} (hb : b = ((wifiInitRepeater c₀ behind).run nvs fs s).value)
    {apConfig : Option ApConfig}
    (hap : ∀ ap ∈ apConfig, ap.ssid = b.ap.ssid ∧ ap.ssidLen = b.ap.ssidLen) :
    apSsidOf apConfig
      = if apConfig.isSome then b.loaded.settings.apSsid else .lit "-" := by
  cases apConfig with
  | none => rfl
  | some ap =>
    obtain ⟨hssid, hlen⟩ := hap ap rfl
    have hboot : apSsidOf (some b.ap) = b.loaded.settings.apSsid := by
      rw [hb]
      exact apSsidOf_boot c₀ behind fs s
    rw [Option.isSome_some, if_pos rfl, ← hboot]
    simp only [apSsidOf, hssid, hlen]

/-- **When a browser reads the dashboard as its template**: whatever the store holds at the boot
and whichever of its calls fail, whatever the driver and the monitor report, and whatever queries
were handled since, exactly when the name of the connected network, the name of the access point
that the boot has found, and the names in the queries shown are inert. -/
theorem dashboard_read_iff (R : Html.Rules) (decode : CStr → List Char) (floorLog : ℕ → ℕ)
    (dnsExpanded : Bool) (stats : Option SystemStats) (queries : List HandledQuery)
    {c₀ : RepeaterConfig} {behind : List UInt8} {fs : List (Option EspErr)} {s : Nvs} {b : Boot}
    (hb : b = ((wifiInitRepeater c₀ behind).run nvs fs s).value) {w : NetworkState}
    (hap : ∀ ap ∈ w.apConfig, ap.ssid = b.ap.ssid ∧ ap.ssidLen = b.ap.ssidLen) :
    let d := apiNetworkHandler decode { w with log := logOf queries }
    Html.parse R
        (normalizeNewlines (renderDashboard floorLog dnsExpanded (stats.map apiStatsHandler) d))
        = normalizeTexts (dashboardNodes floorLog dnsExpanded (stats.map apiStatsHandler) d) ↔
      (∀ r ∈ w.apInfo, R.inert (decode r.name) = true) ∧
        R.inert (decode (if w.apConfig.isSome then b.loaded.settings.apSsid else .lit "-"))
          = true ∧
        ∀ q ∈ shownQueries dnsExpanded queries, NamedInert R q.datagram := by
  intro d
  have hplain : d.Plain := plain_apiNetworkHandler decode w queries
  have hname : d.apSsid
      = decode (if w.apConfig.isSome then b.loaded.settings.apSsid else .lit "-") :=
    congrArg decode (apSsidOf_driver hb hap)
  have hstation : (d.staConnected = true → R.inert d.staSsid = true) ↔
      ∀ r ∈ w.apInfo, R.inert (decode r.name) = true := by
    have hsent : d.staConnected = w.apInfo.isSome ∧
        ∀ r ∈ w.apInfo, d.staSsid = decode r.name := by
      refine ⟨rfl, fun r hr => ?_⟩
      simp only [d, apiNetworkHandler, Option.mem_def.mp hr]
    rw [hsent.1]
    constructor
    · intro h r hr
      rw [← hsent.2 r hr]
      exact h (Option.isSome_of_mem hr)
    · intro h hsome
      obtain ⟨r, hr⟩ := Option.isSome_iff_exists.mp hsome
      rw [hsent.2 r hr]
      exact h r hr
  rw [parse_renderDashboard_iff R floorLog dnsExpanded _ hplain, hstation, hname]
  exact and_congr_right fun _ => and_congr_right fun _ => inert_domains_iff R dnsExpanded queries

/-- What a device has booted whose store is empty. -/
def emptyStoreBoot : Boot := ((wifiInitRepeater wifiConfigGetDefault []).run nvs [] none).value

/-- What it is asked for a minute later, connected to a network. -/
def connectedTo (network : WifiApRecord) : NetworkState where
  apInfo := some network
  staIp := none
  apIp := none
  apConfig := some emptyStoreBoot.ap
  clients := none
  log := logOf []
  napt := true
  startTimeUs := 0
  currentTimeUs := 60000000

/-- A network that brings in an element. -/
def boldRecord : WifiApRecord where
  ssid := (Buf.zero 33).put (CStr.lit "<b>") (by decide)
  terminated := Buf.zero_mem_put _ _ _
  rssi := -40
  primary := 6
  authmode := .authOpen

/-- **A network that spoils the page**: connected to `Home` the device sends a page that is read as
its template, connected to `<b>` it does not. -/
theorem home_dashboard_read :
    Html.parse fewNames (normalizeNewlines (renderDashboard (Nat.log 1024) false none
        (apiNetworkHandler CStr.chars (connectedTo (homeRecord (-40) 6)))))
        = normalizeTexts (dashboardNodes (Nat.log 1024) false none
            (apiNetworkHandler CStr.chars (connectedTo (homeRecord (-40) 6)))) ∧
      Html.parse fewNames (normalizeNewlines (renderDashboard (Nat.log 1024) false none
        (apiNetworkHandler CStr.chars (connectedTo boldRecord))))
        ≠ normalizeTexts (dashboardNodes (Nat.log 1024) false none
            (apiNetworkHandler CStr.chars (connectedTo boldRecord))) := by
  have hap : ∀ ap ∈ some emptyStoreBoot.ap,
      ap.ssid = emptyStoreBoot.ap.ssid ∧ ap.ssidLen = emptyStoreBoot.ap.ssidLen := by
    rintro ap ⟨⟩
    exact ⟨rfl, rfl⟩
  constructor
  · refine (dashboard_read_iff fewNames CStr.chars (Nat.log 1024) false none [] rfl
      (w := connectedTo (homeRecord (-40) 6)) hap).mpr ⟨?_, ?_, fun q hq => ?_⟩
    · rintro r ⟨⟩
      decide +kernel
    · decide +kernel
    · exact absurd hq List.not_mem_nil
  · intro hread
    have hinert := ((dashboard_read_iff fewNames CStr.chars (Nat.log 1024) false none [] rfl
      (w := connectedTo boldRecord) hap).mp hread).1 boldRecord rfl
    exact absurd hinert (by decide +kernel)

end WifiRepeater
