import WifiRepeater.Device.Attribution
import WifiRepeater.Dns.Log
import WifiRepeater.Web.Dashboard

/-!
# From a datagram to the dashboard

The name in a DNS query is read by the proxy, logged, sent to the dashboard as JSON, and put
into the markup of the DNS card.  Every Wi-Fi client can send such a query.  The JSON carries
the printable characters that the parser leaves in a name as they are.

## Main definitions

* `HandledQuery`, `logOf` — queries, and the log after them.
* `addDnsLogsJson` — what the dashboard is sent.
* `shownQueries`, `NamedInert` — the queries on the card, and those whose names are harmless.

## Main results

* `logged_names_text_iff` — **when the names come out as texts.**
* `image_in_the_card` — a name that brings in an element with a script.
-/

namespace WifiRepeater

open Dns

/-! ### From the queries to the JSON -/

/-- A query the task handles: whatever it was set to and knew then. -/
structure HandledQuery where
  /-- The variables that steer the task. -/
  flags : ProxyFlags
  /-- The cache. -/
  cache : DnsCache
  /-- What the task learns from the system. -/
  env : Surroundings
  /-- Where the query came from. -/
  client : Client
  /-- What was received. -/
  datagram : Datagram
  /-- The clock when it is logged, in microseconds. -/
  time : UInt64

/-- The calls of `dns_log_add` while it is handled. -/
def HandledQuery.logCalls (q : HandledQuery) : List LogCall :=
  (dnsProxyTaskQuery q.flags q.cache q.env q.client q.datagram).effects.filterMap fun e =>
    match e with
    | .logAdd mac ip domain qtype => some (.add ⟨q.time, some mac, some ip, some domain, qtype⟩)
    | _ => none

/-- The log after some queries. -/
def logOf (queries : List HandledQuery) : DnsLog :=
  logAfter (queries.flatMap HandledQuery.logCalls)

/-- `b[0] ? b : other`, and the characters of the JSON string. -/
def jsonText {n : ℕ} (b : Buf n) (other : CStr) : List Char :=
  (if b.get 0 ≠ 0 then b.str else other).chars

/-- The object made of an entry. -/
def entryJson (e : DnsLogEntry) : DnsLogJson where
  ts := e.timestampS.toNat
  mac := jsonText e.mac (.lit "unknown")
  ip := jsonText e.ip (.lit "-")
  domain := jsonText e.domain (.lit "-")
  qtype := e.qtype.toNat

/-- `add_dns_logs_json`. -/
def addDnsLogsJson (log : DnsLog) : List DnsLogJson :=
  let r := dnsLogGetLatest log (some (List.replicate dnsLogMaxEntries zeroEntry)) dnsLogMaxEntries
  ((r.2.getD []).take r.1).map entryJson

/-! ### What is logged -/

/-- The name a query is logged with. -/
def loggedName (d : Datagram) : CStr :=
  match parseDnsQuery d.buf.bytes d.len qnameSize with
  | some (name, _) => .ofMem name
  | none => .lit "<unparsed>"

/-- The MAC address a query is logged with. -/
def HandledQuery.loggedMac (q : HandledQuery) : CStr :=
  (lookupMacForIp q.env.clients q.client.addr).getD (.lit "unknown")

/-- What is added to the log for a query. -/
def HandledQuery.logAdd (q : HandledQuery) : LogAdd where
  time := q.time
  mac := some q.loggedMac
  ip := some (ipText q.client.addr)
  domain := some (loggedName q.datagram)
  qtype := ((parseDnsQuery q.datagram.buf.bytes q.datagram.len qnameSize).map Prod.snd).getD 0

/-- A query is logged once, or dropped before. -/
theorem logCalls_eq (q : HandledQuery) :
    q.logCalls = if q.flags.hasUpstream then [.add q.logAdd] else [] := by
  unfold HandledQuery.logCalls HandledQuery.logAdd loggedName
  have hturn := dnsProxyTaskQuery_cases q.flags q.cache q.env q.client q.datagram
  generalize dnsProxyTaskQuery q.flags q.cache q.env q.client q.datagram = turn at hturn ⊢
  -- whatever is answered, nothing is logged after the first call
  cases hturn with
  | dropped hup => rw [hup]; rfl
  | unparsed hup hparse | hit hup hparse | miss hup hparse => rw [hup, hparse]; rfl
  | captive hup hparse =>
    rw [hup, hparse]
    cases captiveAnswer q.datagram _ q.flags.captiveIp <;> rfl

/-! ### What the dashboard is sent -/

/-- The queries in the log, the newest first. -/
def recentQueries (queries : List HandledQuery) : List HandledQuery :=
  (queries.filter (·.flags.hasUpstream)).reverse.take dnsLogMaxEntries

/-- What the dashboard is sent of a query. -/
def HandledQuery.json (q : HandledQuery) : DnsLogJson where
  ts := q.logAdd.timestampS.toNat
  mac := q.loggedMac.chars.take 17
  ip := (ipText q.client.addr).chars.take 15
  domain := (loggedName q.datagram).chars.take 127
  qtype := q.logAdd.qtype.toNat

theorem addsOf_logCalls (queries : List HandledQuery) :
    addsOf (queries.flatMap HandledQuery.logCalls)
      = (queries.filter (·.flags.hasUpstream)).map HandledQuery.logAdd := by
  induction queries with
  | nil => rfl
  | cons q queries ih =>
    have happend : addsOf (q.logCalls ++ queries.flatMap HandledQuery.logCalls)
        = addsOf q.logCalls ++ addsOf (queries.flatMap HandledQuery.logCalls) :=
      List.filterMap_append
    rw [List.flatMap_cons, happend, ih, logCalls_eq, List.filter_cons]
    split_ifs <;> rfl

theorem addDnsLogsJson_eq (log : DnsLog) :
    addDnsLogsJson log = (log.latest dnsLogMaxEntries).map entryJson := by
  have hmax : dnsLogMaxEntries ≠ 0 := by decide
  rw [addDnsLogsJson, dnsLogGetLatest, if_neg hmax]
  simp only [Option.getD_some, List.take_left]

/-- A field that shows a string that is not empty is sent as what fits of it. -/
theorem jsonText_of_shows {n : ℕ} (hn : 0 < n) {s : CStr} (hs : s.chars ≠ []) {b : Buf (n + 1)}
    (h : FieldShows (some s) b) (other : CStr) : jsonText b other = s.chars.take n := by
  have hfirst : b.get 0 ≠ 0 := by
    obtain ⟨c, cs, hbytes⟩ : ∃ c cs, s.bytes = c :: cs := by
      refine List.exists_cons_of_ne_nil fun hnil => hs ?_
      rw [CStr.chars, hnil]
      rfl
    obtain ⟨m, rfl⟩ : ∃ m, n = m + 1 := ⟨n - 1, by omega⟩
    rw [Buf.get, h.bytes s rfl, hbytes]
    exact s.noNul c (hbytes ▸ List.mem_cons_self)
  rw [jsonText, if_pos hfirst, h.str, Option.getD_some, CStr.chars, CStr.take, CStr.chars,
    List.map_take]

/-! ### The texts that are logged -/

/-- The text of an address: four numbers with dots between them. -/
theorem chars_ipText (ip : UInt32) :
    (ipText ip).chars = ['.'].intercalate ((ipBytes ip).map fun b => numberText b.toNat) := by
  have htext : (".".intercalate ((ipBytes ip).map fun b => toString b.toNat)).toList
      = ['.'].intercalate ((ipBytes ip).map fun b => numberText b.toNat) := by
    rw [String.toList_intercalate, List.map_map]
    rfl
  have hrange : ∀ c ∈ ['.'].intercalate ((ipBytes ip).map fun b => numberText b.toNat),
      0 < c.toNat ∧ c.toNat < 256 := by
    refine List.forall_mem_intercalate (by simp) fun l hl c hc => ?_
    obtain ⟨b, -, rfl⟩ := List.mem_map.mp hl
    have hdigit := isDigit_of_mem_numberText hc
    simp only [Char.isDigit, Bool.and_eq_true, decide_eq_true_eq, UInt32.le_iff_toNat_le] at hdigit
    obtain ⟨hge, hle⟩ : 48 ≤ c.toNat ∧ c.toNat ≤ 57 := hdigit
    omega
  rw [ipText, CStr.chars_lit (by rwa [htext]), htext]

/-- Parts with a separator between them are no empty text. -/
theorem intercalate_ne_nil (c : Char) (a b : List Char) (ls : List (List Char)) :
    [c].intercalate (a :: b :: ls) ≠ [] := by
  rw [List.intercalate_cons_cons]
  simp

theorem ipText_ne_nil (ip : UInt32) : (ipText ip).chars ≠ [] := by
  rw [chars_ipText]
  exact intercalate_ne_nil _ _ _ _

theorem noMarkup_ipText (ip : UInt32) : Html.NoMarkup (ipText ip).chars := by
  rw [chars_ipText]
  refine List.forall_mem_intercalate (by simp) fun l hl => ?_
  obtain ⟨b, -, rfl⟩ := List.mem_map.mp hl
  exact noMarkup_numberText _

theorem chars_unknown : (CStr.lit "unknown").chars = js "unknown" := by
  rw [js]
  decide

/-- The MAC address is the text of one, or the word for none. -/
theorem loggedMac_cases (q : HandledQuery) :
    q.loggedMac.chars = js "unknown" ∨
      ∃ mac : Mac, q.loggedMac.chars = [':'].intercalate (mac.bytes.map hexChars) := by
  unfold HandledQuery.loggedMac
  cases hlookup : lookupMacForIp q.env.clients q.client.addr with
  | none => exact .inl chars_unknown
  | some text =>
    obtain ⟨c, -, hc⟩ := List.exists_of_findSome?_eq_some hlookup
    split_ifs at hc
    · obtain rfl := Option.some.inj hc
      exact .inr ⟨c.mac, chars_formatMac c.mac⟩

theorem loggedMac_ne_nil (q : HandledQuery) : q.loggedMac.chars ≠ [] := by
  rcases loggedMac_cases q with h | ⟨mac, h⟩
  · rw [h, js]
    decide
  · obtain ⟨a, as, hbytes⟩ := List.exists_cons_of_length_eq_add_one mac.size
    have hsize := mac.size
    rw [hbytes, List.length_cons, Nat.add_right_cancel_iff] at hsize
    obtain ⟨b, bs, rfl⟩ := List.exists_cons_of_length_eq_add_one hsize
    rw [h, hbytes]
    exact intercalate_ne_nil _ _ _ _

theorem noMarkup_loggedMac (q : HandledQuery) : Html.NoMarkup q.loggedMac.chars := by
  rcases loggedMac_cases q with h | ⟨mac, h⟩
  · rw [h, js]
    decide
  · have hdigit : ∀ n : Fin 16, Nat.digitChar n ≠ '<' ∧ Nat.digitChar n ≠ '&' := by decide
    rw [h]
    refine List.forall_mem_intercalate (by simp) fun l hl c hc => ?_
    obtain ⟨b, -, rfl⟩ := List.mem_map.mp hl
    have hb := b.toNat_lt
    rw [hexChars, List.mem_cons, List.mem_singleton] at hc
    rcases hc with rfl | rfl
    · exact hdigit ⟨b.toNat / 16, by omega⟩
    · exact hdigit ⟨b.toNat % 16, by omega⟩

/-- The addresses sent hold no markup. -/
theorem plainAddresses_json (q : HandledQuery) : q.json.PlainAddresses := by
  simp only [DnsLogJson.PlainAddresses, HandledQuery.json]
  exact ⟨(noMarkup_loggedMac q).take 17, (noMarkup_ipText q.client.addr).take 15⟩

/-! ### The names that are logged -/

/-- The labels of a name as the log shows them: with dots between them, as far as the field
of an entry reaches. -/
def loggedText (labels : List Label) : List Char :=
  (((dotted labels).map shown).take 127).map fun b => Char.ofNat b.toNat

/-- A datagram carries a question with a name, and the characters shown for its name are
inert. -/
def NamedInert (R : Html.Rules) (d : Datagram) : Prop :=
  12 ≤ d.len ∧ ¬(byteAt d.buf.bytes 4 = 0 ∧ byteAt d.buf.bytes 5 = 0) ∧
    ∃ q, Carries d.buf.bytes d.len q ∧ q.labels ≠ [] ∧ R.inert (loggedText q.labels) = true

/-- The parser shows printable characters only. -/
theorem shown_ne_zero (b : UInt8) : shown b ≠ 0 := by
  unfold shown isprint
  split_ifs with h
  · rintro rfl
    exact absurd h (by decide)
  · decide

theorem chars_ofMem_render (labels : List Label) :
    (CStr.ofMem (render qnameSize labels)).chars.take 127 = loggedText labels := by
  have hnul : ∀ b ∈ render qnameSize labels, b ≠ 0 := by
    intro b hb
    obtain ⟨b, -, rfl⟩ := List.mem_map.mp (List.mem_of_mem_take hb)
    exact shown_ne_zero b
  have hfits : min 127 (qnameSize - 1) = 127 := by decide
  rw [CStr.chars, CStr.ofMem_of_noNul hnul, ← List.map_take, render, List.take_take, hfits,
    loggedText]

theorem loggedText_ne_nil {labels : List Label} (h : labels ≠ []) : loggedText labels ≠ [] := by
  have hpos := length_render_pos (n := 128) (by decide) h
  rw [loggedText, ne_eq, List.map_eq_nil_iff]
  exact List.ne_nil_of_length_pos hpos

/-- What is logged of a datagram that carries a question with a name. -/
theorem loggedName_of_carries {d : Datagram} (hlen : 12 ≤ d.len)
    (hcount : ¬(byteAt d.buf.bytes 4 = 0 ∧ byteAt d.buf.bytes 5 = 0)) {q : Question}
    (hq : Carries d.buf.bytes d.len q) (hlabels : q.labels ≠ []) :
    (loggedName d).chars.take 127 = loggedText q.labels := by
  have hparse : parseDnsQuery d.buf.bytes d.len qnameSize
      = some (render qnameSize q.labels, q.qtype) :=
    (parseDnsQuery_eq_some_iff (by decide)).mpr ⟨hlen, hcount, q, hq, hlabels, rfl, rfl⟩
  rw [loggedName, hparse]
  exact chars_ofMem_render q.labels

/-- What is logged of any other datagram begins like a tag. -/
theorem loggedName_of_unparsed {d : Datagram}
    (h : parseDnsQuery d.buf.bytes d.len qnameSize = none) :
    (loggedName d).chars = js "<unparsed>" := by
  rw [loggedName, h, js]
  decide

theorem loggedName_ne_nil (d : Datagram) : (loggedName d).chars ≠ [] := by
  cases hparse : parseDnsQuery d.buf.bytes d.len qnameSize with
  | none =>
    rw [loggedName_of_unparsed hparse, js]
    decide
  | some parsed =>
    obtain ⟨name, qtype⟩ := parsed
    obtain ⟨hlen, hcount, q, hq, hlabels, -⟩ := (parseDnsQuery_eq_some_iff (by decide)).mp hparse
    intro hnil
    have htext := loggedName_of_carries hlen hcount hq hlabels
    rw [hnil, List.take_nil] at htext
    exact loggedText_ne_nil hlabels htext.symm

/-- **When the name shown is inert**: exactly when the datagram carries a question with a name
whose characters are. -/
theorem inert_loggedName_iff (R : Html.Rules) (d : Datagram) :
    R.inert ((loggedName d).chars.take 127) = true ↔ NamedInert R d := by
  constructor
  · intro hinert
    cases hparse : parseDnsQuery d.buf.bytes d.len qnameSize with
    -- the text for a query that is not parsed begins like a tag
    | none =>
      rw [loggedName_of_unparsed hparse, js] at hinert
      exact absurd hinert (by simp [Html.Rules.inert, Html.opensMarkup])
    | some parsed =>
      obtain ⟨name, qtype⟩ := parsed
      obtain ⟨hlen, hcount, q, hq, hlabels, -⟩ := (parseDnsQuery_eq_some_iff (by decide)).mp hparse
      rw [loggedName_of_carries hlen hcount hq hlabels] at hinert
      exact ⟨hlen, hcount, q, hq, hlabels, hinert⟩
  · rintro ⟨hlen, hcount, q, hq, hlabels, hinert⟩
    rwa [loggedName_of_carries hlen hcount hq hlabels]

/-! ### From the datagrams to the card -/

/-- **The dashboard is sent what was logged.** -/
theorem addDnsLogsJson_logOf (queries : List HandledQuery) :
    addDnsLogsJson (logOf queries) = (recentQueries queries).map HandledQuery.json := by
  have hentry : ∀ (q : HandledQuery) (e : DnsLogEntry),
      e.Shows q.logAdd → entryJson e = q.json := by
    intro q e h
    rw [entryJson, HandledQuery.json, h.timestampS, h.qtype,
      jsonText_of_shows (by decide) (loggedMac_ne_nil q) h.mac,
      jsonText_of_shows (by decide) (ipText_ne_nil _) h.ip,
      jsonText_of_shows (by decide) (loggedName_ne_nil _) h.domain]
    rfl
  have hholds := holds_logAfter (queries.flatMap HandledQuery.logCalls)
  rw [addsOf_logCalls, ← List.map_reverse] at hholds
  have hshows := hholds.forall₂_latest shows_writeEntry dnsLogMaxEntries
  rw [Nat.min_self, ← List.map_take, List.forall₂_map_left_iff] at hshows
  have heq : List.Forall₂ (· = ·) ((recentQueries queries).map HandledQuery.json)
      (((logOf queries).latest dnsLogMaxEntries).map entryJson) := by
    rw [List.forall₂_map_left_iff, List.forall₂_map_right_iff]
    exact hshows.imp fun q e h => (hentry q e h).symm
  rw [addDnsLogsJson_eq]
  exact (List.forall₂_eq_eq_eq ▸ heq : _ = _).symm

/-- The queries that stand on the card. -/
def shownQueries (dnsExpanded : Bool) (queries : List HandledQuery) : List HandledQuery :=
  (recentQueries queries).take (if dnsExpanded then dnsLogMaxEntries else 4)

/-- **When the names come out as texts**: the domains sent are the names of the last queries
that were logged, and the card is read as the template with these names as texts exactly when
each query on it carries a name with inert characters. -/
theorem logged_names_text_iff (R : Html.Rules) (dnsExpanded : Bool)
    (queries : List HandledQuery) :
    (addDnsLogsJson (logOf queries)).map DnsLogJson.domain
        = (recentQueries queries).map (fun q => (loggedName q.datagram).chars.take 127) ∧
      (Html.parse R (dnsCard dnsExpanded (addDnsLogsJson (logOf queries)))
          = [dnsCardNode dnsExpanded (addDnsLogsJson (logOf queries))] ↔
        ∀ q ∈ shownQueries dnsExpanded queries, NamedInert R q.datagram) := by
  rw [addDnsLogsJson_logOf]
  have hplain : ∀ log ∈ (recentQueries queries).map HandledQuery.json, log.PlainAddresses := by
    intro log hlog
    obtain ⟨q, -, rfl⟩ := List.mem_map.mp hlog
    exact plainAddresses_json q
  have hshown : (recentQueries queries).take
      (maxDns dnsExpanded ((recentQueries queries).map HandledQuery.json))
      = shownQueries dnsExpanded queries := by
    have hlen : (recentQueries queries).length ≤ dnsLogMaxEntries := List.length_take_le _ _
    rw [shownQueries, List.take_eq_take_iff, maxDns, List.length_map]
    split_ifs <;> omega
  refine ⟨by rw [List.map_map]; rfl, ?_⟩
  rw [parse_dnsCard_iff R dnsExpanded hplain, ← List.map_take, hshown, List.forall_mem_map]
  refine forall₂_congr fun q _ => ?_
  -- a name is never empty, so the dash never stands for one
  have hne : q.json.domain ≠ [] := by
    rw [HandledQuery.json, ne_eq, List.take_eq_nil_iff]
    exact fun h => h.elim (by decide) (loggedName_ne_nil q.datagram)
  rw [orElse, if_neg hne, ← inert_loggedName_iff, HandledQuery.json]

/-! ### An image in the card -/

/-- The tables of a browser that knows four names. -/
def fewNames : Html.Rules where
  named := [("lt;", "<"), ("gt;", ">"), ("amp;", "&"), ("quot;", "\"")].map fun e =>
    (e.1.toList, e.2.toList)
  named_le := by decide
  numeric _ _ := '?'
  content _ rest := rest.map .char

/-- The label `<img src=x onerror=alert(1)>`. -/
def imageLabel : Label where
  bytes := "<img src=x onerror=alert(1)>".toList.map fun c => UInt8.ofNat c.toNat
  pos := by decide
  le := by decide

/-- A query of a client for a name of this label. -/
def imageQuery : HandledQuery where
  flags := ⟨true, 0x08080808, false, 0⟩
  cache := zeroCache
  env := quiet
  client := ⟨0x0204a8c0, 5353⟩
  datagram := .ofBytes ([0x12, 0x34, 1, 0, 0, 1, 0, 0, 0, 0, 0, 0] ++
    Question.encode ⟨[imageLabel], 1, 1⟩) (by decide)
  time := 60000000

/-- **A name that brings in an element with a script**: the card holds an image whose handler
the browser runs, and is not read as the template. -/
theorem image_in_the_card :
    .startTag "img".toList
        [("src".toList, "x".toList), ("onerror".toList, "alert(1)".toList)]
        ∈ Html.tokenize fewNames (dnsCard false (addDnsLogsJson (logOf [imageQuery]))) ∧
      Html.parse fewNames (dnsCard false (addDnsLogsJson (logOf [imageQuery])))
        ≠ [dnsCardNode false (addDnsLogsJson (logOf [imageQuery]))] := by
  rw [addDnsLogsJson_logOf]
  have hrecent : recentQueries [imageQuery] = [imageQuery] := rfl
  rw [hrecent]
  constructor
  · decide +kernel
  · have hplain : ∀ log ∈ [imageQuery].map HandledQuery.json, log.PlainAddresses :=
      List.forall_mem_singleton.mpr (plainAddresses_json imageQuery)
    rw [ne_eq, parse_dnsCard_iff fewNames false hplain]
    decide +kernel

end WifiRepeater
