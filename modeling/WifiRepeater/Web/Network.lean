import WifiRepeater.Device.Repeater
import WifiRepeater.Device.Traffic
import WifiRepeater.Lib.Numbers
import WifiRepeater.Web.LoggedNames
import WifiRepeater.Web.Scan

/-!
# What the dashboard is sent

`api_network_handler` asks the system about the uplink, the access point and its clients, and
`api_stats_handler` takes the statistics of the monitor.  All of it goes into JSON objects that
the dashboard asks for every two seconds.

The names of the two networks are the only texts that the device has not made itself, apart
from the domains of the DNS log.  A name is a row of bytes; how a browser decodes it is left
open.  Memory for the objects is taken to be there.

## Main definitions

* `NetworkState`, `NetworkJson`, `apiNetworkHandler` — what is asked for, and the answer.
* `apSsidOf` — the name that is read back from the driver.
* `SystemStats`, `StatsJson`, `apiStatsHandler` — the statistics.

## Main results

* `plain_apiNetworkHandler` — every text but the names and the domains is free of markup.
* `apSsidOf_boot` — **the name read back is the one the boot has found**, whatever the store
  holds and whichever calls fail.
-/

namespace WifiRepeater

open Dns (ApClientInfo DnsLog ipText formatMac)
open Monitor (CpuStats MemStats NetStats Bench)

/-! ### The network -/

/-- `esp_netif_ip_info_t`. -/
structure IpInfo where
  /-- `ip`. -/
  ip : UInt32
  /-- `netmask`. -/
  netmask : UInt32
  /-- `gw`. -/
  gw : UInt32

/-- What `api_network_handler` asks the system for; `none` when the call fails. -/
structure NetworkState where
  /-- `esp_wifi_sta_get_ap_info`: the network the station is connected to. -/
  apInfo : Option WifiApRecord
  /-- `esp_netif_get_ip_info` for the uplink. -/
  staIp : Option IpInfo
  /-- `esp_netif_get_ip_info` for the access point. -/
  apIp : Option IpInfo
  /-- `esp_wifi_get_config`. -/
  apConfig : Option ApConfig
  /-- `ap_clients_get`. -/
  clients : Option (List ApClientInfo)
  /-- The DNS log. -/
  log : DnsLog
  /-- `CONFIG_LWIP_IPV4_NAPT`. -/
  napt : Bool
  /-- `start_time_us`, once it is set. -/
  startTimeUs : UInt64
  /-- `current_time_us`. -/
  currentTimeUs : UInt64

/-- The classes a value of the dashboard is coloured by. -/
inductive StatusColor
  /-- `status-good`. -/
  | good
  /-- `status-warning`. -/
  | warning
  /-- `status-bad`. -/
  | bad
  deriving DecidableEq

/-- The name of the class. -/
def StatusColor.name : StatusColor → String
  | good => "status-good"
  | warning => "status-warning"
  | bad => "status-bad"

/-- `rssi_info`. -/
structure RssiInfo where
  /-- `text`. -/
  text : List Char
  /-- `color`. -/
  color : StatusColor
  /-- `percent`. -/
  percent : ℕ

/-- An entry of `client_list`. -/
structure ClientJson where
  /-- `mac`. -/
  mac : List Char
  /-- `ipv4`. -/
  ipv4 : List Char

/-- The answer of `api_network_handler`, as the script sees it. -/
structure NetworkJson where
  staConnected : Bool
  staSsid : List Char
  rssi : ℤ
  staChannel : ℕ
  staBand : List Char
  rssiInfo : RssiInfo
  staIp : List Char
  staNetmask : List Char
  staGw : List Char
  apIp : List Char
  apNetmask : List Char
  apGw : List Char
  apSsid : List Char
  apClients : ℕ
  clientList : List ClientJson
  dnsLogs : List DnsLogJson
  natEnabled : Bool
  uptime : List Char
  powerMode : List Char
  estimatedPower : List Char

/-- `wifi_band_for_channel`. -/
def wifiBandForChannel (channel : UInt8) : List Char :=
  if channel ≥ 1 ∧ channel ≤ 14 then js "2.4 GHz"
  else if channel ≥ 36 then js "5 GHz"
  else js "-"

/-- `rssi_info` of a network, and the script's `formatRSSI`. -/
def formatRSSI (rssi : ℤ) : RssiInfo :=
  if rssi ≥ -50 then ⟨js "Excellent", .good, 100⟩
  else if rssi ≥ -60 then ⟨js "Very Good", .good, 80⟩
  else if rssi ≥ -70 then ⟨js "Good", .good, 60⟩
  else if rssi ≥ -80 then ⟨js "Fair", .warning, 40⟩
  else ⟨js "Weak", .bad, 20⟩

/-- An entry of `add_ap_clients_json`. -/
def clientJson (c : ApClientInfo) : ClientJson where
  mac := (formatMac c.mac).chars
  ipv4 := if c.hasIp = true ∧ c.ip ≠ 0 then (ipText c.ip).chars else js "-"

/-- `add_ap_clients_json`: the number, which has 16 bits, and the entries. -/
def addApClientsJson (clients : Option (List ApClientInfo)) : ℕ × List ClientJson :=
  match clients with
  | none => (0, [])
  | some list => (list.length % 2 ^ 16, list.map clientJson)

/-- `ap_ssid`: `ssid_len` bytes of the field, or as many as there are in front of a NUL if the
length is none. -/
def apSsidOf (apConfig : Option ApConfig) : CStr :=
  match apConfig with
  | none => .lit "-"
  | some ap =>
      let len := ap.ssidLen.toNat
      let len := if len = 0 ∨ len > 32 then strlen ap.ssid.bytes else len
      let len := if len > 32 then 32 else len
      -- `ap_ssid` has 33 bytes, cleared before
      CStr.ofMem (ap.ssid.bytes.take len ++ List.replicate (33 - len) 0)

/-- An address, or a dash. -/
def addressText (info : Option IpInfo) (field : IpInfo → UInt32) : List Char :=
  match info with
  | none => js "-"
  | some info => (ipText (field info)).chars

/-- `uptime_str`; the seconds have 32 bits. -/
def uptimeText (startTimeUs currentTimeUs : UInt64) : List Char :=
  let totalSecs := ((currentTimeUs - startTimeUs) / 1000000).toNat % 2 ^ 32
  numberText (totalSecs / 3600) ++ js " h " ++ numberText (totalSecs % 3600 / 60) ++ js " m " ++
    numberText (totalSecs % 60) ++ js " s"

/-- `api_network_handler`, with the decoding of the page's browser. -/
def apiNetworkHandler (decode : CStr → List Char) (w : NetworkState) : NetworkJson :=
  let clients := addApClientsJson w.clients
  { staConnected := w.apInfo.isSome
    staSsid := match w.apInfo with
      | some r => decode r.name
      | none => js "—"
    rssi := match w.apInfo with
      | some r => r.rssi.toInt
      | none => 0
    staChannel := match w.apInfo with
      | some r => r.primary.toNat
      | none => 0
    staBand := match w.apInfo with
      | some r => wifiBandForChannel r.primary
      | none => js "-"
    rssiInfo := match w.apInfo with
      | some r => formatRSSI r.rssi.toInt
      | none => ⟨js "Disconnected", .bad, 0⟩
    staIp := addressText w.staIp IpInfo.ip
    staNetmask := addressText w.staIp IpInfo.netmask
    staGw := addressText w.staIp IpInfo.gw
    apIp := addressText w.apIp IpInfo.ip
    apNetmask := addressText w.apIp IpInfo.netmask
    apGw := addressText w.apIp IpInfo.gw
    apSsid := decode (apSsidOf w.apConfig)
    apClients := clients.1
    clientList := clients.2
    dnsLogs := addDnsLogsJson w.log
    natEnabled := w.napt
    uptime := uptimeText w.startTimeUs w.currentTimeUs
    powerMode := js "Full Performance (PS=NONE)"
    estimatedPower := js "~" ++ numberText (120 + clients.1 * 15) ++ js " mA" }

/-! ### The statistics -/

/-- What the monitor has of the system, as far as the dashboard shows it. -/
structure SystemStats where
  cpu : CpuStats
  mem : MemStats
  net : NetStats
  bench : Bench

/-- The answer of `api_stats_handler`, as far as the script reads it. -/
structure StatsJson where
  /-- `cpu.total_percent`. -/
  totalPercent : ℕ
  /-- `cpu.task_count`. -/
  taskCount : ℕ
  /-- `mem.heap_usage_percent`. -/
  heapUsagePercent : ℕ
  /-- `mem.free_heap`. -/
  freeHeap : ℕ
  /-- `mem.total_heap`. -/
  totalHeap : ℕ
  /-- `net.tx_bytes`. -/
  txBytes : ℕ
  /-- `net.rx_bytes`. -/
  rxBytes : ℕ
  /-- `net.tx_bytes_per_sec`. -/
  txBytesPerSec : ℕ
  /-- `net.rx_bytes_per_sec`. -/
  rxBytesPerSec : ℕ
  /-- `bench.dns_cache_hits`. -/
  dnsCacheHits : ℕ
  /-- `bench.dns_cache_misses`. -/
  dnsCacheMisses : ℕ
  /-- `bench.dns_avg_latency_us`. -/
  dnsAvgLatencyUs : ℕ
  /-- `bench.dns_max_latency_us`. -/
  dnsMaxLatencyUs : ℕ

/-- `api_stats_handler`. -/
def apiStatsHandler (s : SystemStats) : StatsJson where
  totalPercent := s.cpu.totalCpuPercent.toNat
  taskCount := s.cpu.taskCount.toNat
  heapUsagePercent := s.mem.heapUsagePercent.toNat
  freeHeap := s.mem.freeHeap.toNat
  totalHeap := s.mem.totalHeap.toNat
  -- the casts to `double`
  txBytes := ⌊Js.nearestDouble s.net.txBytes.toNat⌋₊
  rxBytes := ⌊Js.nearestDouble s.net.rxBytes.toNat⌋₊
  txBytesPerSec := s.net.txBytesPerSec.toNat
  rxBytesPerSec := s.net.rxBytesPerSec.toNat
  dnsCacheHits := s.bench.dnsCacheHits.toNat
  dnsCacheMisses := s.bench.dnsCacheMisses.toNat
  dnsAvgLatencyUs := s.bench.dns.avgUs.toNat
  dnsMaxLatencyUs := s.bench.dns.maxUs.toNat

/-! ### The texts of the device -/

/-- The texts of the answer that the device has made itself. -/
def NetworkJson.ownTexts (d : NetworkJson) : List (List Char) :=
  [d.staBand, d.rssiInfo.text, d.staIp, d.staNetmask, d.staGw, d.apIp, d.apNetmask, d.apGw,
      d.uptime, d.powerMode, d.estimatedPower] ++
    d.clientList.flatMap fun c => [c.mac, c.ipv4]

/-- Nothing but the names and the domains can hold markup. -/
structure NetworkJson.Plain (d : NetworkJson) : Prop where
  /-- The texts of the device do not. -/
  own : ∀ t ∈ d.ownTexts, Html.NoMarkup t
  /-- Nor do the addresses in the log. -/
  logs : ∀ log ∈ d.dnsLogs, log.PlainAddresses

theorem noMarkup_dash : Html.NoMarkup (js "-") := by
  rw [js]
  decide

theorem noMarkup_formatMac (mac : Mac) : Html.NoMarkup (formatMac mac).chars := by
  have hdigit : ∀ n : Fin 16, Nat.digitChar n ≠ '<' ∧ Nat.digitChar n ≠ '&' := by decide
  rw [chars_formatMac]
  refine List.forall_mem_intercalate (by simp) fun l hl c hc => ?_
  obtain ⟨b, -, rfl⟩ := List.mem_map.mp hl
  have hb := b.toNat_lt
  rw [hexChars, List.mem_cons, List.mem_singleton] at hc
  rcases hc with rfl | rfl
  · exact hdigit ⟨b.toNat / 16, by omega⟩
  · exact hdigit ⟨b.toNat % 16, by omega⟩

theorem noMarkup_wifiBandForChannel (channel : UInt8) :
    Html.NoMarkup (wifiBandForChannel channel) := by
  unfold wifiBandForChannel
  simp only [js]
  split_ifs <;> decide

theorem noMarkup_formatRSSI (rssi : ℤ) : Html.NoMarkup (formatRSSI rssi).text := by
  unfold formatRSSI
  simp only [js]
  split_ifs <;> decide

theorem noMarkup_addressText (info : Option IpInfo) (field : IpInfo → UInt32) :
    Html.NoMarkup (addressText info field) := by
  cases info with
  | none => exact noMarkup_dash
  | some info => exact noMarkup_ipText _

theorem noMarkup_uptimeText (startTimeUs currentTimeUs : UInt64) :
    Html.NoMarkup (uptimeText startTimeUs currentTimeUs) := by
  have hunits : Html.NoMarkup (js " h ") ∧ Html.NoMarkup (js " m ") ∧ Html.NoMarkup (js " s") := by
    simp only [js]
    decide
  obtain ⟨hh, hm, hs⟩ := hunits
  exact (((((noMarkup_numberText _).append hh).append (noMarkup_numberText _)).append hm).append
    (noMarkup_numberText _)).append hs

theorem noMarkup_clientJson (c : ApClientInfo) :
    Html.NoMarkup (clientJson c).mac ∧ Html.NoMarkup (clientJson c).ipv4 := by
  refine ⟨noMarkup_formatMac c.mac, ?_⟩
  unfold clientJson
  simp only
  split_ifs
  · exact noMarkup_ipText _
  · exact noMarkup_dash

theorem noMarkup_addApClientsJson {clients : Option (List ApClientInfo)} {c : ClientJson}
    (hc : c ∈ (addApClientsJson clients).2) :
    Html.NoMarkup c.mac ∧ Html.NoMarkup c.ipv4 := by
  cases clients with
  | none => exact absurd hc List.not_mem_nil
  | some list =>
    obtain ⟨c, -, rfl⟩ := List.mem_map.mp hc
    exact noMarkup_clientJson c

/-- The texts about the uplink. -/
theorem noMarkup_uplink (decode : CStr → List Char) (w : NetworkState) :
    Html.NoMarkup (apiNetworkHandler decode w).staBand ∧
      Html.NoMarkup (apiNetworkHandler decode w).rssiInfo.text := by
  unfold apiNetworkHandler
  cases w.apInfo with
  | none =>
    refine ⟨noMarkup_dash, ?_⟩
    simp only [js]
    decide
  | some r => exact ⟨noMarkup_wifiBandForChannel r.primary, noMarkup_formatRSSI r.rssi.toInt⟩

/-- **The device's own texts** hold no markup. -/
theorem plain_apiNetworkHandler (decode : CStr → List Char) (w : NetworkState)
    (queries : List HandledQuery) :
    (apiNetworkHandler decode { w with log := logOf queries }).Plain where
  own := by
    have huplink := noMarkup_uplink decode { w with log := logOf queries }
    have hpower : Html.NoMarkup (js "~") ∧ Html.NoMarkup (js " mA") ∧
        Html.NoMarkup (js "Full Performance (PS=NONE)") := by
      simp only [js]
      decide
    obtain ⟨htilde, hunit, hmode⟩ := hpower
    intro t ht
    rw [NetworkJson.ownTexts, List.mem_append] at ht
    rcases ht with ht | ht
    · simp only [List.mem_cons, List.not_mem_nil, or_false] at ht
      rcases ht with rfl | rfl | rfl | rfl | rfl | rfl | rfl | rfl | rfl | rfl | rfl
      · exact huplink.1
      · exact huplink.2
      · exact noMarkup_addressText _ _
      · exact noMarkup_addressText _ _
      · exact noMarkup_addressText _ _
      · exact noMarkup_addressText _ _
      · exact noMarkup_addressText _ _
      · exact noMarkup_addressText _ _
      · exact noMarkup_uptimeText _ _
      · exact hmode
      · exact (htilde.append (noMarkup_numberText _)).append hunit
    · obtain ⟨c, hc, ht⟩ := List.mem_flatMap.mp ht
      simp only [List.mem_cons, List.not_mem_nil, or_false] at ht
      rcases ht with rfl | rfl
      · exact (noMarkup_addApClientsJson hc).1
      · exact (noMarkup_addApClientsJson hc).2
  logs := by
    intro log hlog
    have hlogs : log ∈ addDnsLogsJson (logOf queries) := hlog
    rw [addDnsLogsJson_logOf] at hlogs
    obtain ⟨q, -, rfl⟩ := List.mem_map.mp hlogs
    exact plainAddresses_json q

/-! ### The name of the access point -/

/-- Whatever is loaded, the access point has a name, of 32 bytes at most. -/
theorem length_loaded_apSsid (c₀ : RepeaterConfig) (fs : List (Option EspErr)) (s : Nvs) :
    0 < ((wifiConfigLoad c₀).run nvs fs s).value.2.settings.apSsid.length ∧
      ((wifiConfigLoad c₀).run nvs fs s).value.2.settings.apSsid.length ≤ 32 := by
  have hdefault : 0 < wifiConfigGetDefault.settings.apSsid.length ∧
      wifiConfigGetDefault.settings.apSsid.length ≤ 32 := by
    decide +kernel
  rcases run_wifiConfigLoad c₀ fs s with ⟨st, -, hvalid, -, hloaded⟩ | ⟨e, he⟩
  · rw [hloaded.settings_eq]
    exact ⟨hvalid.apSsid_pos, hvalid.apSsid_le⟩
  · rw [he]
    exact hdefault

/-- A name that `strncpy` and `strlen` have brought into the driver's field is read back,
whether or not there is room for a NUL. -/
theorem apSsidOf_strncpy {name : CStr} (hpos : 0 < name.length) (hle : name.length ≤ 32)
    {ap : ApConfig} (hssid : ap.ssid = (Buf.zero 32).strncpy name 32 le_rfl)
    (hlen : ap.ssidLen = UInt8.ofNat name.length) : apSsidOf (some ap) = name := by
  have hlen' : ap.ssidLen.toNat = name.length := by
    rw [hlen, UInt8.toNat_ofNat']
    exact Nat.mod_eq_of_lt (by omega)
  have htake : ap.ssid.bytes.take name.length = name.bytes := by
    have hbytes : ap.ssid.bytes = name.bytes.take 32 ++
        (List.replicate (32 - name.length) 0 ++ (Buf.zero 32).bytes.drop 32) := by
      rw [hssid, ← List.append_assoc]
      rfl
    rw [hbytes, List.take_of_length_le hle]
    exact List.take_left
  obtain ⟨n, hn⟩ : ∃ n, 33 - name.length = n + 1 := ⟨32 - name.length, by omega⟩
  have hrange : ¬(name.length = 0 ∨ name.length > 32) := by omega
  simp only [apSsidOf, hlen', if_neg hrange, if_neg (show ¬name.length > 32 by omega), htake, hn]
  exact CStr.ofMem_terminated name _

/-- **The name read back is the one the boot has found**: that of the stored configuration when
it could be loaded, else that of the defaults. -/
theorem apSsidOf_boot (c₀ : RepeaterConfig) (behind : List UInt8) (fs : List (Option EspErr))
    (s : Nvs) :
    let b := ((wifiInitRepeater c₀ behind).run nvs fs s).value
    apSsidOf (some b.ap) = b.loaded.settings.apSsid := by
  have hlength := length_loaded_apSsid c₀ fs s
  unfold wifiInitRepeater
  simp only [Script.run_bind, Script.pure_eq, Script.run_done]
  exact apSsidOf_strncpy hlength.1 hlength.2 rfl rfl

end WifiRepeater
