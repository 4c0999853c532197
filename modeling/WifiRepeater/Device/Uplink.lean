import WifiRepeater.Dns.Lifecycle
import WifiRepeater.Dns.Proxy
import Mathlib.Algebra.Group.Nat.Defs

/-!
# The uplink

The radio posts what happens to the station into the queue of the event loop, and
`wifi_event_handler` takes one event after the other from it.  It has the radio connect when
it starts and whenever a connection is lost, and when an address was leased it sets up what
the clients of the access point need: address translation, the upstream server of the proxy,
the proxy itself, and what the DHCP server offers.  What the calls of the Wi-Fi driver, of
`esp_netif` and of the scheduler return comes from outside, and most of it the handler does not
look at.  Meanwhile the radio goes on, the task of the proxy runs, and in a set-up boot `app_main`
switches captive mode on.

## Main definitions

* `Radio`, `WifiEvent` — the station side of the radio, and what it posts.
* `HandlerAt` — how far the handler is with a lease.
* `Uplink`, `Event`, `step` — the machine.

## Main results

* `uplink_never_stuck` — **no lost connection is forgotten before a call of
  `esp_wifi_connect` fails**, and every one is from then on.
* `handler_counts` — what the handler's variables say about what it has handled.
* `resolver_offered` — **the resolver that clients are offered is there.**
* `captive_silent` — **the captive portal answers no query.**
-/

namespace WifiRepeater
namespace Device

open Dns

/-! ### The machine -/

/-- The station side of the radio. -/
inductive Radio
  /-- Before `esp_wifi_start`. -/
  | off
  /-- Not connected, and not trying. -/
  | idle
  /-- A connection was asked for. -/
  | connecting
  /-- Connected. -/
  | connected
  deriving DecidableEq

/-- What is posted to the handler. -/
inductive WifiEvent
  /-- `WIFI_EVENT_STA_START`. -/
  | staStart
  /-- `WIFI_EVENT_STA_CONNECTED`. -/
  | staConnected (channel : UInt8)
  /-- `WIFI_EVENT_STA_DISCONNECTED`. -/
  | staDisconnected
  /-- `IP_EVENT_STA_GOT_IP`. -/
  | staGotIp
  /-- An event that the handler only logs, or ignores. -/
  | other
  deriving DecidableEq

/-- The radio when `esp_wifi_connect` has returned, with `ESP_OK` or not: only a call that has
not failed has an idle radio connect. -/
def afterConnect (ok : Bool) : Radio → Radio
  | .idle => if ok then .connecting else .idle
  | r => r

/-- How far the handler is with `IP_EVENT_STA_GOT_IP`, with the locals it still needs. -/
inductive HandlerAt
  /-- It waits for an event. -/
  | idle
  /-- Before `dns_proxy_start`. -/
  | startProxy (apIp upstreamDns : UInt32)
  /-- Before `esp_netif_dhcps_stop`. -/
  | stopDhcps (apIp dnsOffer : UInt32)
  /-- Before the gateway, the DNS server and the options are set. -/
  | setOffer (apIp dnsOffer : UInt32)
  /-- Before `esp_netif_dhcps_start`. -/
  | startDhcps
  /-- Before the test of `s_bw_task_handle`. -/
  | startBandwidth
  deriving DecidableEq

/-- The DHCP server of the access point. -/
structure Dhcps where
  running : Bool
  /-- The gateway it was told of. -/
  gateway : Option UInt32
  /-- The DNS server it was told of. -/
  dns : Option UInt32
  /-- `ESP_NETIF_ROUTER_SOLICITATION_ADDRESS` is set. -/
  routerOption : Bool
  /-- `ESP_NETIF_DOMAIN_NAME_SERVER` is set. -/
  dnsOption : Bool

/-- What the calls for the DHCP server return: whether it is `ESP_OK`. -/
structure DhcpsResults where
  /-- `esp_netif_dhcps_stop`. -/
  stop : Bool
  /-- `esp_netif_set_ip_info`. -/
  setIpInfo : Bool
  /-- `esp_netif_set_dns_info`, for the main server; nothing looks at the backup. -/
  setDnsInfo : Bool
  /-- `esp_netif_dhcps_option`, for the router. -/
  setRouterOption : Bool
  /-- `esp_netif_dhcps_option`, for the DNS server. -/
  setDnsOption : Bool
  /-- `esp_netif_dhcps_start`. -/
  start : Bool

/-- None of the calls fails. -/
structure DhcpsResults.AllOk (r : DhcpsResults) : Prop where
  stop : r.stop = true
  setIpInfo : r.setIpInfo = true
  setDnsInfo : r.setDnsInfo = true
  setRouterOption : r.setRouterOption = true
  setDnsOption : r.setDnsOption = true
  start : r.start = true

namespace Dhcps

variable (d : Dhcps) (r : DhcpsResults)

/-- `esp_netif_dhcps_stop`; a call that fails leaves everything as it was. -/
def stop : Dhcps := if r.stop then { d with running := false } else d

/-- `esp_netif_set_ip_info`, as far as the gateway goes. -/
def setIpInfo (gateway : UInt32) : Dhcps :=
  if r.setIpInfo then { d with gateway := some gateway } else d

/-- `esp_netif_set_dns_info`. -/
def setDnsInfo (dns : UInt32) : Dhcps := if r.setDnsInfo then { d with dns := some dns } else d

/-- `esp_netif_dhcps_option`, for the router. -/
def setRouterOption : Dhcps := if r.setRouterOption then { d with routerOption := true } else d

/-- `esp_netif_dhcps_option`, for the DNS server. -/
def setDnsOption : Dhcps := if r.setDnsOption then { d with dnsOption := true } else d

/-- `esp_netif_dhcps_start`. -/
def start : Dhcps := if r.start then { d with running := true } else d

/-- The gateway that clients are told of. -/
def offeredGateway : Option UInt32 := if d.routerOption then d.gateway else none

/-- The DNS server that clients are told of. -/
def offeredDns : Option UInt32 := if d.dnsOption then d.dns else none

end Dhcps

/-- The handler, and what it works on. -/
structure Uplink where
  /-- `g_provisioning_mode`. -/
  provisioning : Bool
  radio : Radio
  /-- The events that were posted, the oldest first. -/
  queue : List WifiEvent
  handler : HandlerAt
  /-- `s_retry_num`. -/
  retryNum : Int32
  /-- `s_bw_task_handle` is not `NULL`. -/
  bwTask : Bool
  /-- Address translation is on at the access point. -/
  napt : Bool
  /-- The channel that `esp_wifi_set_channel` was last called with. -/
  channel : Option UInt8
  dhcps : Dhcps
  /-- The variables of the proxy. -/
  flags : ProxyFlags
  /-- Its task. -/
  tasks : ProxyTasks
  /-- `app_main` is past the captive portal. -/
  captiveDone : Bool
  /-- For the record: the events that were handled, the latest first. -/
  handled : List WifiEvent
  /-- For the record: the calls of `esp_wifi_connect`, the latest first, with what the radio was
  doing and whether they returned `ESP_OK`. -/
  connects : List (Radio × Bool)

/-- The device after `wifi_init_repeater` has found out its mode. -/
def Uplink.booted (provisioning : Bool) : Uplink where
  provisioning := provisioning
  radio := .off
  queue := []
  handler := .idle
  retryNum := 0
  bwTask := false
  napt := false
  channel := none
  dhcps := ⟨true, none, none, false, false⟩
  flags := .initial
  tasks := .initial
  captiveDone := false
  handled := []
  connects := []

/-- What the handler finds when it goes on. -/
structure Readings where
  /-- `esp_netif_get_ip_info` of the access point, `none` when it fails. -/
  apIp : Option UInt32
  /-- What `ap_ip` holds before that. -/
  leftover : UInt32
  /-- `esp_netif_get_dns_info` of the station, `none` when it fails. -/
  staDns : Option UInt32
  /-- `xTaskCreate` succeeds. -/
  pdPass : Bool
  /-- `esp_wifi_connect` returns `ESP_OK`. -/
  connectOk : Bool
  /-- What the calls for the DHCP server return. -/
  dhcps : DhcpsResults

/-- What can happen. -/
inductive Event
  /-- `esp_wifi_start`. -/
  | wifiStart
  /-- The radio has connected. -/
  | associated (channel : UInt8)
  /-- It could not connect, or has lost the connection. -/
  | lost
  /-- An address was leased. -/
  | leased
  /-- Something else is posted. -/
  | posted
  /-- The handler goes on. -/
  | handle (r : Readings)
  /-- The captive portal of `app_main`: the address of the access point, what the calls for the
  DHCP server return, and whether `xTaskCreate` succeeds. -/
  | captive (apIp : UInt32) (r : DhcpsResults) (pdPass : Bool)
  /-- A step of a task of the proxy. -/
  | proxy (i : ℕ)
  /-- It could not create or bind its sockets. -/
  | proxyFails (i : ℕ)

/-- 8.8.8.8. -/
def fallbackDns : UInt32 := 0x08080808

/-- The server that is taken for the upstream one. -/
def chooseUpstream : Option UInt32 → UInt32
  | some dns => if dns ≠ 0 then dns else fallbackDns
  | none => fallbackDns

/-- The call of `esp_wifi_connect`, whose result nobody looks at. -/
def Uplink.connect (s : Uplink) (ok : Bool) : Uplink :=
  { s with radio := afterConnect ok s.radio, connects := (s.radio, ok) :: s.connects }

/-- `wifi_event_handler`, for a lease up to `dns_proxy_set_upstream`. -/
def wifiEventHandler (s : Uplink) (r : Readings) : WifiEvent → Uplink
  | .staStart => if s.provisioning then s else s.connect r.connectOk
  | .staConnected channel => { s with channel := some channel }
  | .staDisconnected =>
      let s := { s with bwTask := false }
      -- the maximum is -1, and so there is always another try
      if s.provisioning then s else { s.connect r.connectOk with retryNum := s.retryNum + 1 }
  | .staGotIp =>
      let upstreamDns := chooseUpstream r.staDns
      { s with
        retryNum := 0
        napt := s.napt || r.apIp.isSome
        flags := dnsProxySetUpstream s.flags (some upstreamDns)
        -- an address that could not be read is used all the same
        handler := .startProxy (r.apIp.getD r.leftover) upstreamDns }
  | .other => s

/-- The rest of the handler for a lease, from one wait or call to the next. -/
def handleLease (s : Uplink) (r : Readings) : HandlerAt → Uplink
  | .idle => s
  | .startProxy apIp upstreamDns =>
      let tasks := dnsProxyStart s.tasks r.pdPass
      { s with
        tasks := tasks
        handler := .stopDhcps apIp
          (if tasks.lastCall = some .startOk then apIp else upstreamDns) }
  | .stopDhcps apIp dnsOffer =>
      { s with dhcps := s.dhcps.stop r.dhcps, handler := .setOffer apIp dnsOffer }
  | .setOffer apIp dnsOffer =>
      let dhcps := (s.dhcps.setIpInfo r.dhcps apIp).setDnsInfo r.dhcps dnsOffer
      { s with
        dhcps := (dhcps.setRouterOption r.dhcps).setDnsOption r.dhcps
        handler := .startDhcps }
  | .startDhcps => { s with dhcps := s.dhcps.start r.dhcps, handler := .startBandwidth }
  | .startBandwidth => { s with bwTask := s.bwTask || r.pdPass, handler := .idle }

/-- What an event does, `none` when it cannot happen. -/
def step (s : Uplink) : Event → Option Uplink
  | .wifiStart =>
      if s.radio = .off then some { s with radio := .idle, queue := s.queue ++ [.staStart] }
      else none
  | .associated channel =>
      if s.radio = .connecting then
        some { s with radio := .connected, queue := s.queue ++ [.staConnected channel] }
      else none
  | .lost =>
      if s.radio = .connecting ∨ s.radio = .connected then
        some { s with radio := .idle, queue := s.queue ++ [.staDisconnected] }
      else none
  | .leased =>
      if s.radio = .connected then some { s with queue := s.queue ++ [.staGotIp] } else none
  | .posted => some { s with queue := s.queue ++ [.other] }
  | .handle r =>
      if s.handler = .idle then
        match s.queue with
        | [] => none
        | e :: queue =>
            some (wifiEventHandler { s with queue := queue, handled := e :: s.handled } r e)
      else some (handleLease s r s.handler)
  | .captive apIp r pdPass =>
      if s.provisioning = true ∧ s.radio ≠ .off ∧ s.captiveDone = false then
        some { s with
          dhcps := (((s.dhcps.stop r).setDnsInfo r apIp).setDnsOption r).start r
          flags := dnsProxySetCaptiveMode s.flags true (some apIp)
          tasks := dnsProxyStart s.tasks pdPass
          captiveDone := true }
      else none
  | .proxy i => (dnsProxyTaskStep s.tasks i).map fun tasks => { s with tasks := tasks }
  | .proxyFails i =>
      if s.tasks.tasks[i]? = some .setup then
        some { s with tasks := { s.tasks with tasks := s.tasks.tasks.set i .closeSockets } }
      else none

/-- The states a device can come to after a boot, by events that `ok` admits. -/
def Reachable (ok : Event → Prop) (provisioning : Bool) (s : Uplink) : Prop :=
  Machine.Reach step (fun _ e => ok e) (Uplink.booted provisioning) s

theorem reachable_of_exec (ok : Event → Prop) (provisioning : Bool) (es : List Event) {s : Uplink}
    (hok : ∀ e ∈ es, ok e) (h : Machine.exec step (.booted provisioning) es = some s) :
    Reachable ok provisioning s :=
  Machine.reach_of_exec (Machine.admitted_of_forall_mem hok) h

/-! ### What a step can do -/

section Lease

variable (s : Uplink) (r : Readings) (h : HandlerAt)

@[simp] theorem provisioning_handleLease :
    (handleLease s r h).provisioning = s.provisioning := by cases h <;> rfl

@[simp] theorem radio_handleLease : (handleLease s r h).radio = s.radio := by cases h <;> rfl

@[simp] theorem queue_handleLease : (handleLease s r h).queue = s.queue := by cases h <;> rfl

@[simp] theorem handled_handleLease : (handleLease s r h).handled = s.handled := by cases h <;> rfl

@[simp] theorem connects_handleLease : (handleLease s r h).connects = s.connects := by
  cases h <;> rfl

@[simp] theorem flags_handleLease : (handleLease s r h).flags = s.flags := by cases h <;> rfl

@[simp] theorem retryNum_handleLease : (handleLease s r h).retryNum = s.retryNum := by
  cases h <;> rfl

end Lease

/-- **What a step can do**, apart from the handler and `app_main`: it leaves everything but
the radio, the queue and the tasks of the proxy as it was. -/
theorem step_cases {s s' : Uplink} {e : Event} (h : step s e = some s') :
    (s.radio = .off ∧ s' = { s with radio := .idle, queue := s.queue ++ [.staStart] }) ∨
    (s.radio = .connecting ∧ ∃ channel,
      s' = { s with radio := .connected, queue := s.queue ++ [.staConnected channel] }) ∨
    ((s.radio = .connecting ∨ s.radio = .connected) ∧
      s' = { s with radio := .idle, queue := s.queue ++ [.staDisconnected] }) ∨
    (s.radio = .connected ∧ s' = { s with queue := s.queue ++ [.staGotIp] }) ∨
    s' = { s with queue := s.queue ++ [.other] } ∨
    (∃ r a queue, e = .handle r ∧ s.handler = .idle ∧ s.queue = a :: queue ∧
      s' = wifiEventHandler { s with queue := queue, handled := a :: s.handled } r a) ∨
    (∃ r, e = .handle r ∧ s.handler ≠ .idle ∧ s' = handleLease s r s.handler) ∨
    (∃ apIp r pdPass, s.provisioning = true ∧ s' = { s with
      dhcps := (((s.dhcps.stop r).setDnsInfo r apIp).setDnsOption r).start r
      flags := dnsProxySetCaptiveMode s.flags true (some apIp)
      tasks := dnsProxyStart s.tasks pdPass
      captiveDone := true }) ∨
    ∃ tasks, s' = { s with tasks := tasks } ∧
      ((∃ i, dnsProxyTaskStep s.tasks i = some tasks) ∨ ∃ i, e = .proxyFails i) := by
  cases e with
  | wifiStart =>
    rw [step] at h
    split_ifs at h with hradio
    exact .inl ⟨hradio, (Option.some.inj h).symm⟩
  | associated channel =>
    rw [step] at h
    split_ifs at h with hradio
    exact .inr <| .inl ⟨hradio, channel, (Option.some.inj h).symm⟩
  | lost =>
    rw [step] at h
    split_ifs at h with hradio
    exact .inr <| .inr <| .inl ⟨hradio, (Option.some.inj h).symm⟩
  | leased =>
    rw [step] at h
    split_ifs at h with hradio
    exact .inr <| .inr <| .inr <| .inl ⟨hradio, (Option.some.inj h).symm⟩
  | posted => exact .inr <| .inr <| .inr <| .inr <| .inl (Option.some.inj h).symm
  | handle r =>
    rw [step] at h
    split_ifs at h with hidle
    · cases hqueue : s.queue with
      | nil =>
        rw [hqueue] at h
        cases h
      | cons a queue =>
        rw [hqueue] at h
        exact .inr <| .inr <| .inr <| .inr <| .inr <| .inl
          ⟨r, a, queue, rfl, hidle, rfl, (Option.some.inj h).symm⟩
    · exact .inr <| .inr <| .inr <| .inr <| .inr <| .inr <| .inl
        ⟨r, rfl, hidle, (Option.some.inj h).symm⟩
  | captive apIp r pdPass =>
    rw [step] at h
    split_ifs at h with hmode
    exact .inr <| .inr <| .inr <| .inr <| .inr <| .inr <| .inr <| .inl
      ⟨apIp, r, pdPass, hmode.1, (Option.some.inj h).symm⟩
  | proxy i =>
    obtain ⟨tasks, htasks, rfl⟩ := Option.map_eq_some_iff.mp h
    exact .inr <| .inr <| .inr <| .inr <| .inr <| .inr <| .inr <| .inr
      ⟨tasks, rfl, .inl ⟨i, htasks⟩⟩
  | proxyFails i =>
    rw [step] at h
    split_ifs at h
    exact .inr <| .inr <| .inr <| .inr <| .inr <| .inr <| .inr <| .inr
      ⟨_, (Option.some.inj h).symm, .inr ⟨i, rfl⟩⟩

variable {ok : Event → Prop} {s s' : Uplink} {e : Event}

/-! ### The radio and the handler -/

/-- The events that have the handler call `esp_wifi_connect`. -/
def WifiEvent.connects : WifiEvent → Bool
  | staStart | staDisconnected => true
  | staConnected _ | staGotIp | other => false

/-- No call of `esp_wifi_connect` has failed. -/
def Uplink.NoneFailed (s : Uplink) : Prop := ∀ c ∈ s.connects, c.2 = true

instance (s : Uplink) : Decidable s.NoneFailed :=
  inferInstanceAs (Decidable (∀ c ∈ s.connects, c.2 = true))

/-- **The handler is owed one event while the radio is idle**, and none while it is not, or once
a call has failed. -/
structure Minded (s : Uplink) : Prop where
  mode : s.provisioning = false
  queue : s.queue.countP WifiEvent.connects = if s.radio = .idle ∧ s.NoneFailed then 1 else 0
  /-- There was a call for each event that asks for one, and none met a busy radio. -/
  connects : s.connects.map Prod.fst = List.replicate (s.handled.countP WifiEvent.connects) .idle
  /-- A call that fails leaves the radio idle. -/
  failed : s.radio ≠ .idle → s.NoneFailed

/-- An event that asks for a call finds the radio idle, and is the only one. -/
theorem Minded.of_connects (h : Minded s) {a : WifiEvent} {queue : List WifiEvent}
    (hqueue : s.queue = a :: queue) (ha : a.connects = true) :
    s.radio = .idle ∧ s.NoneFailed ∧ queue.countP WifiEvent.connects = 0 := by
  have hcount := h.queue
  rw [hqueue, List.countP_cons_of_pos ha] at hcount
  split_ifs at hcount with hradio
  exact ⟨hradio.1, hradio.2, Nat.succ.inj hcount⟩

/-- The handler leaves the radio alone for every other event. -/
theorem radio_wifiEventHandler (s : Uplink) (r : Readings) {a : WifiEvent}
    (ha : a.connects = false) :
    (wifiEventHandler s r a).radio = s.radio ∧ (wifiEventHandler s r a).queue = s.queue ∧
      (wifiEventHandler s r a).provisioning = s.provisioning ∧
      (wifiEventHandler s r a).handled = s.handled ∧
      (wifiEventHandler s r a).connects = s.connects := by
  cases a with
  | staStart => cases ha
  | staDisconnected => cases ha
  | staConnected channel => exact ⟨rfl, rfl, rfl, rfl, rfl⟩
  | staGotIp => exact ⟨rfl, rfl, rfl, rfl, rfl⟩
  | other => exact ⟨rfl, rfl, rfl, rfl, rfl⟩

/-- It has the radio connect for those that ask for it. -/
theorem connect_wifiEventHandler (hmode : s.provisioning = false) (r : Readings) {a : WifiEvent}
    (ha : a.connects = true) :
    (wifiEventHandler s r a).radio = afterConnect r.connectOk s.radio ∧
      (wifiEventHandler s r a).queue = s.queue ∧
      (wifiEventHandler s r a).provisioning = false ∧
      (wifiEventHandler s r a).handled = s.handled ∧
      (wifiEventHandler s r a).connects = (s.radio, r.connectOk) :: s.connects := by
  cases a with
  | staStart => simp [wifiEventHandler, Uplink.connect, hmode]
  | staDisconnected => simp [wifiEventHandler, Uplink.connect, hmode]
  | staConnected channel => cases ha
  | staGotIp => cases ha
  | other => cases ha

/-- A state with the same calls behind it, and as many events that ask for one before it. -/
theorem Minded.of_eq (h : Minded s) (hmode : s'.provisioning = s.provisioning)
    (hcount : s'.queue.countP WifiEvent.connects
      = if s'.radio = .idle ∧ s.NoneFailed then 1 else 0)
    (hconnects : s'.connects = s.connects)
    (hhandled : s'.handled.countP WifiEvent.connects = s.handled.countP WifiEvent.connects)
    (hradio : s'.radio ≠ .idle → s.NoneFailed) : Minded s' := by
  have hnone : s'.NoneFailed ↔ s.NoneFailed := by
    unfold Uplink.NoneFailed
    rw [hconnects]
  refine ⟨hmode.trans h.mode, ?_, ?_, fun hne => hnone.mpr (hradio hne)⟩
  · simpa only [hnone] using hcount
  · rw [hconnects, hhandled, h.connects]

/-- An event that asks for a call is the last one, if the call fails. -/
theorem Minded.connect (h : Minded s) (r : Readings) {a : WifiEvent} {queue : List WifiEvent}
    (htake : s.queue = a :: queue) (ha : a.connects = true) :
    Minded (wifiEventHandler { s with queue := queue, handled := a :: s.handled } r a) := by
  obtain ⟨hidle, hnone, hlast⟩ := h.of_connects htake ha
  obtain ⟨hradio, hqueue, hmode, hhandled, hconnects⟩ := connect_wifiEventHandler
    (s := { s with queue := queue, handled := a :: s.handled }) h.mode r ha
  have hcalled := hradio.trans (congrArg (afterConnect r.connectOk) hidle)
  refine ⟨hmode, ?_, ?_, fun hne => ?_⟩
  · rw [hqueue, hlast, if_neg]
    rintro ⟨hstill, hall⟩
    have hok : r.connectOk = true := hall (s.radio, r.connectOk) (by rw [hconnects]; exact .head _)
    rw [hcalled, afterConnect, if_pos hok] at hstill
    cases hstill
  · rw [hconnects, hhandled, List.map_cons, h.connects, List.countP_cons_of_pos ha,
      List.replicate_succ]
    exact congrArg (· :: _) hidle
  · have hok : r.connectOk = true := by
      by_contra hfail
      exact hne (hcalled.trans (if_neg hfail))
    rw [Uplink.NoneFailed, hconnects, List.forall_mem_cons]
    exact ⟨hok, hnone⟩

theorem Minded.step (h : Minded s) (hs : step s e = some s') : Minded s' := by
  have hqueue := h.queue
  rcases step_cases hs with ⟨hradio, rfl⟩ | ⟨hradio, channel, rfl⟩ | ⟨hradio, rfl⟩ | ⟨hradio, rfl⟩ |
    rfl | ⟨r, a, queue, -, -, htake, rfl⟩ | ⟨r, -, -, rfl⟩ | ⟨_, _, _, hsetup, -⟩ | ⟨tasks, rfl, -⟩
  · have hnone := h.failed (by simp [hradio])
    exact h.of_eq rfl (by simp [hqueue, hradio, hnone, WifiEvent.connects]) rfl rfl fun _ => hnone
  · have hnone := h.failed (by simp [hradio])
    exact h.of_eq rfl (by simp [hqueue, hradio, WifiEvent.connects]) rfl rfl fun _ => hnone
  · have hnone := h.failed (by rcases hradio with hradio | hradio <;> simp [hradio])
    refine h.of_eq rfl ?_ rfl rfl fun _ => hnone
    rcases hradio with hradio | hradio <;> simp [hqueue, hradio, hnone, WifiEvent.connects]
  · exact h.of_eq rfl (by simp [hqueue, WifiEvent.connects]) rfl rfl h.failed
  · exact h.of_eq rfl (by simp [hqueue, WifiEvent.connects]) rfl rfl h.failed
  · cases ha : a.connects with
    | true => exact h.connect r htake ha
    | false =>
      obtain ⟨hradio, hsame, hmode, hhandled, hconnects⟩ :=
        radio_wifiEventHandler { s with queue := queue, handled := a :: s.handled } r ha
      rw [htake, List.countP_cons_of_neg (by simp [ha])] at hqueue
      refine h.of_eq hmode ?_ hconnects ?_ ?_
      · rw [hradio, hsame]
        exact hqueue
      · rw [hhandled, List.countP_cons_of_neg (by simp [ha])]
      · rw [hradio]
        exact h.failed
  · exact h.of_eq (by simp) (by simpa using hqueue) (by simp) (by simp) (by simpa using h.failed)
  · exact absurd hsetup (by simp [h.mode])
  · exact h.of_eq rfl hqueue rfl rfl h.failed

theorem Minded.booted : Minded (.booted false) :=
  ⟨rfl, rfl, rfl, fun _ _ hc => absurd hc List.not_mem_nil⟩

/-- A call that has failed has failed. -/
theorem connects_suffix (hs : step s e = some s') : s.connects <:+ s'.connects := by
  rcases step_cases hs with ⟨-, rfl⟩ | ⟨-, channel, rfl⟩ | ⟨-, rfl⟩ | ⟨-, rfl⟩ | rfl |
    ⟨r, a, queue, -, -, -, rfl⟩ | ⟨r, -, -, rfl⟩ | ⟨_, _, _, -, rfl⟩ | ⟨tasks, rfl, -⟩
  · exact List.suffix_rfl
  · exact List.suffix_rfl
  · exact List.suffix_rfl
  · exact List.suffix_rfl
  · exact List.suffix_rfl
  · cases a with
    | staStart | staDisconnected =>
      rw [wifiEventHandler]
      split
      · exact List.suffix_rfl
      · exact List.suffix_cons _ _
    | staConnected channel => exact List.suffix_rfl
    | staGotIp => exact List.suffix_rfl
    | other => exact List.suffix_rfl
  · simp
  · exact List.suffix_rfl
  · exact List.suffix_rfl

/-- **After a call that failed the radio is never asked again.** -/
theorem Minded.stuck (h : Minded s) (hfailed : ¬s.NoneFailed)
    (hreach : Machine.Reach Device.step (fun _ e => ok e) s s') :
    s'.radio = .idle ∧ s'.queue.countP WifiEvent.connects = 0 := by
  obtain ⟨hminded, hstill⟩ : Minded s' ∧ ¬s'.NoneFailed :=
    hreach.invariant (I := fun t => Minded t ∧ ¬t.NoneFailed) ⟨h, hfailed⟩
      fun t e t' ⟨ht, hno⟩ _ hs =>
        ⟨ht.step hs, fun hall => hno fun c hc => hall c ((connects_suffix hs).subset hc)⟩
  have hcount := hminded.queue
  rw [if_neg fun hboth => hstill hboth.2] at hcount
  exact ⟨by_contra fun hne => hstill (hminded.failed hne), hcount⟩

/-- How many turns the handler needs to be done with a lease. -/
def HandlerAt.left : HandlerAt → ℕ
  | idle => 0
  | startProxy .. => 5
  | stopDhcps .. => 4
  | setOffer .. => 3
  | startDhcps => 2
  | startBandwidth => 1

/-- How many turns it needs to come to an event that asks for a call, and to call. -/
def turnsUntilConnect : List WifiEvent → ℕ
  | [] => 0
  | .staStart :: _ => 1
  | .staDisconnected :: _ => 1
  | .staGotIp :: queue => turnsUntilConnect queue + 6
  | .staConnected _ :: queue => turnsUntilConnect queue + 1
  | .other :: queue => turnsUntilConnect queue + 1

theorem left_handleLease (s : Uplink) (r : Readings) {h : HandlerAt} (hh : h ≠ .idle) :
    (handleLease s r h).handler.left + 1 = h.left := by
  cases h with
  | idle => exact absurd rfl hh
  | startProxy => rfl
  | stopDhcps => rfl
  | setOffer => rfl
  | startDhcps => rfl
  | startBandwidth => rfl

/-- **The handler comes to the call**, whatever it finds on the way. -/
theorem connects_in_turn (rs : List Readings) {s : Uplink} (hmode : s.provisioning = false)
    (hradio : s.radio = .idle) (hqueue : s.queue.countP WifiEvent.connects ≠ 0)
    (hlen : rs.length = s.handler.left + turnsUntilConnect s.queue) :
    ∃ s', Machine.exec step s (rs.map Event.handle) = some s' ∧
      ∃ r ∈ rs, s'.connects = (.idle, r.connectOk) :: s.connects ∧
        (r.connectOk = true → s'.radio = .connecting) := by
  induction rs generalizing s with
  | nil =>
    rw [List.length_nil] at hlen
    cases htake : s.queue with
    | nil => exact absurd (by rw [htake]; rfl) hqueue
    | cons a queue =>
      rw [htake] at hlen
      cases a <;> simp [turnsUntilConnect] at hlen
  | cons r rs ih =>
    rw [List.map_cons, Machine.exec]
    rw [List.length_cons] at hlen
    by_cases hidle : s.handler = .idle
    · cases htake : s.queue with
      | nil => exact absurd (by rw [htake]; rfl) hqueue
      | cons a queue =>
        rw [step, if_pos hidle, htake, Option.bind_some]
        rw [htake, hidle, HandlerAt.left, Nat.zero_add] at hlen
        rw [htake] at hqueue
        cases a with
        | staStart =>
          obtain rfl : rs = [] := List.eq_nil_of_length_eq_zero (Nat.succ.inj hlen)
          exact ⟨_, rfl, r, .head _, by simp [wifiEventHandler, Uplink.connect, hmode, hradio],
            fun hr => by simp [wifiEventHandler, Uplink.connect, hmode, hradio, afterConnect, hr]⟩
        | staDisconnected =>
          obtain rfl : rs = [] := List.eq_nil_of_length_eq_zero (Nat.succ.inj hlen)
          exact ⟨_, rfl, r, .head _, by simp [wifiEventHandler, Uplink.connect, hmode, hradio],
            fun hr => by simp [wifiEventHandler, Uplink.connect, hmode, hradio, afterConnect, hr]⟩
        | staConnected channel =>
          obtain ⟨s', hs', r', hr', hcall⟩ := ih hmode hradio hqueue (s :=
              wifiEventHandler
                { s with queue := queue, handled := .staConnected channel :: s.handled } r
                (.staConnected channel))
            (by simpa [wifiEventHandler, hidle, HandlerAt.left, turnsUntilConnect] using hlen)
          exact ⟨s', hs', r', .tail _ hr', hcall⟩
        | staGotIp =>
          obtain ⟨s', hs', r', hr', hcall⟩ := ih hmode hradio hqueue (s :=
              wifiEventHandler { s with queue := queue, handled := .staGotIp :: s.handled } r
                .staGotIp) (by
            simp only [turnsUntilConnect] at hlen
            simp only [wifiEventHandler, HandlerAt.left]
            omega)
          exact ⟨s', hs', r', .tail _ hr', hcall⟩
        | other =>
          obtain ⟨s', hs', r', hr', hcall⟩ := ih hmode hradio hqueue (s :=
              wifiEventHandler { s with queue := queue, handled := .other :: s.handled } r .other)
            (by simpa [wifiEventHandler, hidle, HandlerAt.left, turnsUntilConnect] using hlen)
          exact ⟨s', hs', r', .tail _ hr', hcall⟩
    · rw [step, if_neg hidle, Option.bind_some]
      have hleft := left_handleLease s r hidle
      obtain ⟨s', hs', r', hr', hcall⟩ := ih (s := handleLease s r s.handler) (by simpa using hmode)
        (by simpa using hradio) (by simpa using hqueue) (by rw [queue_handleLease]; omega)
      rw [connects_handleLease] at hcall
      exact ⟨s', hs', r', .tail _ hr', hcall⟩

/-- **No lost connection is forgotten before a call of `esp_wifi_connect` fails**: outside of a
set-up boot, whenever the radio is idle one event is waiting that will have the handler make the
call, and it comes to it after a number of turns that is fixed, whatever it reads; while the
radio is not idle no such event is waiting.  There was one call for each event that asks for
one, and each of them found the radio idle.  Once a call has failed, no other is ever made. -/
theorem uplink_never_stuck (h : Reachable ok false s) :
    s.connects.map Prod.fst = List.replicate (s.handled.countP WifiEvent.connects) .idle ∧
      (s.radio ≠ .idle → s.queue.countP WifiEvent.connects = 0) ∧
      ((∀ c ∈ s.connects, c.2 = true) → s.radio = .idle →
        s.queue.countP WifiEvent.connects = 1 ∧
          ∀ rs : List Readings, rs.length = s.handler.left + turnsUntilConnect s.queue →
            ∃ s', Machine.exec step s (rs.map Event.handle) = some s' ∧
              ∃ r ∈ rs, s'.connects = (.idle, r.connectOk) :: s.connects ∧
                (r.connectOk = true → s'.radio = .connecting)) ∧
      ((∃ c ∈ s.connects, c.2 = false) →
        ∀ s', Machine.Reach step (fun _ e => ok e) s s' →
          s'.radio = .idle ∧ s'.queue.countP WifiEvent.connects = 0) := by
  have hminded : Minded s := h.invariant .booted fun _ _ _ h _ hs => h.step hs
  have hqueue := hminded.queue
  refine ⟨hminded.connects, fun hradio => ?_, fun hnone hradio => ?_, fun hfailed s' hs' => ?_⟩
  · rwa [if_neg fun hboth => hradio hboth.1] at hqueue
  · rw [if_pos ⟨hradio, hnone⟩] at hqueue
    exact ⟨hqueue, fun rs => connects_in_turn rs hminded.mode hradio (by simp [hqueue])⟩
  · obtain ⟨c, hc, hfalse⟩ := hfailed
    exact hminded.stuck (fun hall => by simp [hall c hc] at hfalse) hs'

/-- No call for the DHCP server fails. -/
def dhcpsOk : DhcpsResults := ⟨true, true, true, true, true, true⟩

/-- The access point at 192.168.4.1, and a lease that names 1.1.1.1. -/
def homeReadings : Readings := ⟨some 0x0104A8C0, 0, some 0x01010101, true, true, dhcpsOk⟩

/-- The connection is lost while the handler is busy with the first lease. -/
def lostInLease : List Event :=
  [.wifiStart, .handle homeReadings, .associated 6, .handle homeReadings, .leased, .posted,
    .handle homeReadings, .lost]

/-- Seven turns later the radio connects again. -/
theorem reconnected :
    ∃ s, Machine.exec step (.booted false) lostInLease = some s ∧
      ∃ s', Machine.exec step s ((List.replicate 7 homeReadings).map Event.handle) = some s' ∧
        s'.radio = .connecting := by
  have h := reachable_of_exec (fun _ => True) false lostInLease (fun _ _ => trivial) rfl
  obtain ⟨-, -, hwaiting, -⟩ := uplink_never_stuck h
  obtain ⟨s', hs', r, hr, -, hradio⟩ :=
    (hwaiting (by decide) rfl).2 (List.replicate 7 homeReadings) rfl
  exact ⟨_, rfl, s', hs', hradio (by rw [List.eq_of_mem_replicate hr]; rfl)⟩

/-! ### What the handler's variables say -/

/-- The connections lost since the latest lease; the latest event comes first. -/
def retries : List WifiEvent → ℕ
  | [] => 0
  | .staGotIp :: _ => 0
  | .staDisconnected :: es => retries es + 1
  | .staStart :: es => retries es
  | .staConnected _ :: es => retries es
  | .other :: es => retries es

/-- There was a lease, and no connection was lost since. -/
def leasedSince : List WifiEvent → Bool
  | [] => false
  | .staGotIp :: _ => true
  | .staDisconnected :: _ => false
  | .staStart :: es => leasedSince es
  | .staConnected _ :: es => leasedSince es
  | .other :: es => leasedSince es

/-- The variables agree with the events that were handled. -/
structure Counted (ok : Event → Prop) (s : Uplink) : Prop where
  mode : s.provisioning = false
  retryNum : s.retryNum = Int32.ofNat (retries s.handled)
  bwTask : s.bwTask = true → leasedSince s.handled = true
  /-- While the handler is busy with a lease it takes no other event. -/
  busy : s.handler ≠ .idle → leasedSince s.handled = true
  /-- The task is there once the handler is done, if it could be created. -/
  created : (∀ r, ok (.handle r) → r.pdPass = true) → s.handler = .idle →
    leasedSince s.handled = true → s.bwTask = true

theorem Counted.booted (ok : Event → Prop) : Counted ok (.booted false) :=
  ⟨rfl, rfl, fun h => absurd h (by simp [Uplink.booted]), fun h => absurd rfl h,
    fun _ _ h => absurd h (by simp [Uplink.booted, leasedSince])⟩

/-- Nothing of it is about the radio, the queue or the tasks of the proxy. -/
theorem Counted.of_eq (h : Counted ok s) (hmode : s'.provisioning = s.provisioning)
    (hretry : s'.retryNum = s.retryNum) (hbw : s'.bwTask = s.bwTask)
    (hhandler : s'.handler = s.handler) (hhandled : s'.handled = s.handled) : Counted ok s' where
  mode := hmode.trans h.mode
  retryNum := by rw [hretry, hhandled, h.retryNum]
  bwTask := by rw [hbw, hhandled]; exact h.bwTask
  busy := by rw [hhandler, hhandled]; exact h.busy
  created := by rw [hhandler, hhandled, hbw]; exact h.created

/-- An event that is neither a lease nor a lost connection changes neither variable. -/
theorem Counted.event (h : Counted ok s) (hidle : s.handler = .idle) (r : Readings)
    (queue : List WifiEvent) (a : WifiEvent) :
    Counted ok (wifiEventHandler { s with queue := queue, handled := a :: s.handled } r a) := by
  cases a with
  | staStart =>
    refine ⟨?_, ?_, ?_, ?_, ?_⟩ <;>
      simp [wifiEventHandler, Uplink.connect, h.mode, hidle, retries, leasedSince]
    · exact h.retryNum
    · exact h.bwTask
    · exact fun hpass => h.created hpass hidle
  | staConnected channel =>
    refine ⟨h.mode, h.retryNum, h.bwTask, fun hbusy => absurd hidle hbusy, ?_⟩
    exact h.created
  | staDisconnected =>
    refine ⟨?_, ?_, ?_, ?_, ?_⟩ <;>
      simp [wifiEventHandler, Uplink.connect, h.mode, hidle, retries, leasedSince, h.retryNum]
  | staGotIp =>
    refine ⟨h.mode, rfl, fun _ => rfl, fun _ => rfl, fun _ hno => ?_⟩
    exact absurd hno (by simp [wifiEventHandler])
  | other =>
    refine ⟨h.mode, h.retryNum, h.bwTask, fun hbusy => absurd hidle hbusy, ?_⟩
    exact h.created

/-- The rest of the handler for a lease ends with the task. -/
theorem Counted.lease (h : Counted ok s) {r : Readings} (hr : ok (.handle r))
    (hbusy : s.handler ≠ .idle) : Counted ok (handleLease s r s.handler) := by
  have hsince := h.busy hbusy
  refine ⟨?_, ?_, ?_, ?_, ?_⟩
  · simpa using h.mode
  · simpa using h.retryNum
  · exact fun _ => by simpa using hsince
  · exact fun _ => by simpa using hsince
  · intro hpass hidle _
    cases hat : s.handler with
    | idle => exact absurd hat hbusy
    | startBandwidth => simp [handleLease, hpass r hr]
    | startProxy apIp dns => exact absurd hidle (by simp [hat, handleLease])
    | stopDhcps apIp dns => exact absurd hidle (by simp [hat, handleLease])
    | setOffer apIp dns => exact absurd hidle (by simp [hat, handleLease])
    | startDhcps => exact absurd hidle (by simp [hat, handleLease])

theorem Counted.step (h : Counted ok s) (he : ok e) (hs : step s e = some s') :
    Counted ok s' := by
  rcases step_cases hs with ⟨-, rfl⟩ | ⟨-, channel, rfl⟩ | ⟨-, rfl⟩ | ⟨-, rfl⟩ | rfl |
    ⟨r, a, queue, -, hidle, -, rfl⟩ | ⟨r, rfl, hbusy, rfl⟩ | ⟨_, _, _, hsetup, -⟩ |
    ⟨tasks, rfl, -⟩
  · exact h.of_eq rfl rfl rfl rfl rfl
  · exact h.of_eq rfl rfl rfl rfl rfl
  · exact h.of_eq rfl rfl rfl rfl rfl
  · exact h.of_eq rfl rfl rfl rfl rfl
  · exact h.of_eq rfl rfl rfl rfl rfl
  · exact h.event hidle r queue a
  · exact h.lease he hbusy
  · exact absurd hsetup (by simp [h.mode])
  · exact h.of_eq rfl rfl rfl rfl rfl

/-- **What the handler's variables say**: the retry counter is the number of connections lost
since the latest lease, as long as an `int` holds it, and the bandwidth monitor runs only while a
lease holds; it does run whenever the handler has come to the end of one, if its task could be
created. -/
theorem handler_counts (h : Reachable ok false s) :
    (retries s.handled < 2 ^ 31 → s.retryNum.toInt = retries s.handled) ∧
      (s.bwTask = true → leasedSince s.handled = true) ∧
      ((∀ r, ok (.handle r) → r.pdPass = true) → s.handler = .idle →
        leasedSince s.handled = true → s.bwTask = true) := by
  have hcounted : Counted ok s :=
    h.invariant (.booted ok) fun _ _ _ h he hs => h.step he hs
  refine ⟨fun hlt => ?_, hcounted.bwTask, hcounted.created⟩
  rw [hcounted.retryNum, Int32.toInt_ofNat_of_lt hlt]

/-- A first connection and its lease, to the end of the handler. -/
def firstLease : List Event :=
  [.wifiStart, .handle homeReadings, .associated 6, .handle homeReadings, .leased] ++
    List.replicate 6 (.handle homeReadings)

/-- The monitor runs after the first lease. -/
theorem first_lease_monitored :
    ∃ s, Machine.exec step (.booted false) firstLease = some s ∧ s.retryNum.toInt = 0 ∧
      s.bwTask = true := by
  have hok : ∀ e ∈ firstLease, ∀ r, e = .handle r → r.pdPass = true := by
    simp [firstLease, homeReadings]
  have hcounts := handler_counts (reachable_of_exec _ false firstLease hok rfl)
  exact ⟨_, rfl, hcounts.1 (by decide), hcounts.2.2 (fun r h => h r rfl) rfl rfl⟩

/-! ### The proxy while nobody stops it -/

/-- The task of the handle, if there is one, serves. -/
structure Steady (t : ProxyTasks) : Prop where
  one : OneTask t
  running : t.dnsTask.isSome = true → t.dnsRunning = true

theorem Steady.initial : Steady .initial :=
  ⟨.initial, fun h => absurd h (by simp [ProxyTasks.initial])⟩

theorem Steady.serves {t : ProxyTasks} (h : Steady t) (hsome : t.dnsTask.isSome = true) :
    t.dnsRunning = true ∧ ∃ (i : ℕ) (p : TaskAt), t.tasks[i]? = some p ∧ p.serves = true := by
  obtain ⟨i, hi⟩ := Option.isSome_iff_exists.mp hsome
  obtain ⟨p, hp, -, hserves⟩ := h.one.live i hi
  exact ⟨h.running hsome, i, p, hp, hserves (h.running hsome)⟩

/-- A start returns `ESP_OK` only with a task. -/
theorem isSome_dnsProxyStart (t : ProxyTasks) (pdPass : Bool) :
    (dnsProxyStart t pdPass).lastCall = some .startOk ↔
      (dnsProxyStart t pdPass).dnsTask.isSome = true := by
  unfold dnsProxyStart
  split_ifs with htask hpass
  · simpa using htask
  · simp
  · simp

theorem Steady.start {t : ProxyTasks} (h : Steady t) (pdPass : Bool) :
    Steady (dnsProxyStart t pdPass) := by
  cases htask : t.dnsTask with
  | some i =>
    rw [dnsProxyStart_of_some htask]
    exact ⟨⟨h.one.gone, h.one.live⟩, h.running⟩
  | none =>
    cases pdPass with
    | true =>
      refine ⟨h.one.start, fun _ => ?_⟩
      rw [dnsProxyStart_of_none htask]
    | false =>
      rw [dnsProxyStart, if_neg (by simp [htask]), if_neg (by simp)]
      refine ⟨⟨fun i p hp _ => h.one.gone i p hp (by simp [htask]), ?_⟩, ?_⟩
      · exact fun i hi => absurd hi (by simp)
      · exact fun hsome => absurd hsome (by simp)

/-- The task of the handle does not come to its end, and so it keeps its handle. -/
theorem Steady.task {t t' : ProxyTasks} {i : ℕ} (h : Steady t)
    (hs : dnsProxyTaskStep t i = some t') : Steady t' ∧ t'.dnsTask = t.dnsTask := by
  obtain ⟨p, q, hp, hgone, -, -, hcase⟩ := dnsProxyTaskStep_cases hs
  have hi := h.one.dnsTask_eq hp hgone
  have hrun := h.running (by rw [hi]; rfl)
  obtain ⟨p', hp', -, hlive⟩ := h.one.live i hi
  obtain rfl : p = p' := Option.some.inj (hp.symm.trans hp')
  rcases hcase with ⟨rfl, -, -⟩ | ⟨-, htask, -, hserves⟩
  · exact absurd (hlive hrun) (by simp [TaskAt.serves])
  · exact ⟨⟨h.one.task hs, fun _ => (hserves (hlive hrun) hrun).1⟩, htask⟩

/-! ### What clients are offered -/

/-- Clients that are told of this gateway and this DNS server can resolve names: the server
is the gateway, and the proxy has its task, or it is the one upstream. -/
def Offers (s : Uplink) (gateway dns : Option UInt32) : Prop :=
  ∃ apIp, gateway = some apIp ∧
    (dns = some apIp ∧ s.tasks.dnsTask.isSome = true ∨ dns = some s.flags.upstreamDns)

theorem Offers.of_eq {gateway dns : Option UInt32} (h : Offers s gateway dns)
    (hflags : s'.flags = s.flags)
    (htasks : s.tasks.dnsTask.isSome = true → s'.tasks.dnsTask.isSome = true) :
    Offers s' gateway dns := by
  obtain ⟨apIp, hgateway, ⟨hdns, hsome⟩ | hdns⟩ := h
  · exact ⟨apIp, hgateway, .inl ⟨hdns, htasks hsome⟩⟩
  · exact ⟨apIp, hgateway, .inr (by rw [hflags]; exact hdns)⟩

/-- What is set is what is offered, when no call fails. -/
theorem offered_of_allOk {r : DhcpsResults} (hr : r.AllOk) (d : Dhcps) (apIp dnsOffer : UInt32) :
    let d' := (((d.setIpInfo r apIp).setDnsInfo r dnsOffer).setRouterOption r).setDnsOption r
    d'.offeredGateway = some apIp ∧ d'.offeredDns = some dnsOffer := by
  simp [Dhcps.setIpInfo, Dhcps.setDnsInfo, Dhcps.setRouterOption, Dhcps.setDnsOption,
    Dhcps.offeredGateway, Dhcps.offeredDns, hr.setIpInfo, hr.setDnsInfo, hr.setRouterOption,
    hr.setDnsOption]

/-- What holds where the handler is. -/
def Phase (s : Uplink) : HandlerAt → Prop
  | .idle => .staGotIp ∈ s.handled →
      s.dhcps.running = true ∧ Offers s s.dhcps.offeredGateway s.dhcps.offeredDns
  | .startProxy _ upstreamDns => s.flags.upstreamDns = upstreamDns
  | .stopDhcps apIp dnsOffer => Offers s (some apIp) (some dnsOffer)
  | .setOffer apIp dnsOffer => Offers s (some apIp) (some dnsOffer)
  | .startDhcps => Offers s s.dhcps.offeredGateway s.dhcps.offeredDns
  | .startBandwidth =>
      s.dhcps.running = true ∧ Offers s s.dhcps.offeredGateway s.dhcps.offeredDns

theorem Phase.of_eq {p : HandlerAt} (h : Phase s p) (hflags : s'.flags = s.flags)
    (htasks : s.tasks.dnsTask.isSome = true → s'.tasks.dnsTask.isSome = true)
    (hdhcps : s'.dhcps = s.dhcps) (hhandled : .staGotIp ∈ s'.handled → .staGotIp ∈ s.handled) :
    Phase s' p := by
  cases p with
  | idle =>
    intro hleased
    obtain ⟨hrunning, hoffers⟩ := h (hhandled hleased)
    rw [hdhcps]
    exact ⟨hrunning, hoffers.of_eq hflags htasks⟩
  | startProxy apIp dns => exact (congrArg ProxyFlags.upstreamDns hflags).trans h
  | stopDhcps apIp dns => exact Offers.of_eq h hflags htasks
  | setOffer apIp dns => exact Offers.of_eq h hflags htasks
  | startDhcps =>
    show Offers s' s'.dhcps.offeredGateway s'.dhcps.offeredDns
    rw [hdhcps]
    exact Offers.of_eq h hflags htasks
  | startBandwidth =>
    obtain ⟨hrunning, hoffers⟩ := h
    show s'.dhcps.running = true ∧ Offers s' s'.dhcps.offeredGateway s'.dhcps.offeredDns
    rw [hdhcps]
    exact ⟨hrunning, hoffers.of_eq hflags htasks⟩

/-- What the clients are served by. -/
structure Service (s : Uplink) : Prop where
  mode : s.provisioning = false
  steady : Steady s.tasks
  upstream : .staGotIp ∈ s.handled → s.flags.hasUpstream = true ∧ s.flags.upstreamDns ≠ 0
  captive : s.flags.captiveMode = false
  phase : Phase s s.handler

theorem Service.booted : Service (.booted false) :=
  ⟨rfl, .initial, fun h => absurd h List.not_mem_nil, rfl, fun h => absurd h List.not_mem_nil⟩

/-- The server that is chosen is one. -/
theorem chooseUpstream_ne_zero (dns : Option UInt32) : chooseUpstream dns ≠ 0 := by
  cases dns with
  | none => decide
  | some dns =>
    rw [chooseUpstream]
    split_ifs with hdns
    · exact hdns
    · decide

theorem Service.of_eq (h : Service s) (hmode : s'.provisioning = s.provisioning)
    (hflags : s'.flags = s.flags) (htasks : Steady s'.tasks)
    (hsome : s.tasks.dnsTask.isSome = true → s'.tasks.dnsTask.isSome = true)
    (hdhcps : s'.dhcps = s.dhcps) (hhandler : s'.handler = s.handler)
    (hhandled : .staGotIp ∈ s'.handled → .staGotIp ∈ s.handled) : Service s' where
  mode := hmode.trans h.mode
  steady := htasks
  upstream hleased := by rw [hflags]; exact h.upstream (hhandled hleased)
  captive := by rw [hflags]; exact h.captive
  phase := by rw [hhandler]; exact h.phase.of_eq hflags hsome hdhcps hhandled

theorem Service.event (h : Service s) (r : Readings)
    (queue : List WifiEvent) (a : WifiEvent) :
    Service (wifiEventHandler { s with queue := queue, handled := a :: s.handled } r a) := by
  have hmem {b : WifiEvent} (hb : b ≠ .staGotIp) : .staGotIp ∈ b :: s.handled →
      .staGotIp ∈ s.handled := fun hm => (List.mem_cons.mp hm).resolve_left hb.symm
  cases a with
  | staStart =>
    rw [wifiEventHandler, if_neg (by simp [h.mode])]
    exact h.of_eq rfl rfl h.steady id rfl rfl (hmem (by simp))
  | staConnected channel => exact h.of_eq rfl rfl h.steady id rfl rfl (hmem (by simp))
  | staDisconnected =>
    rw [wifiEventHandler, if_neg (by simp [h.mode])]
    exact h.of_eq rfl rfl h.steady id rfl rfl (hmem (by simp))
  | staGotIp =>
    have hne := chooseUpstream_ne_zero r.staDns
    refine ⟨h.mode, h.steady, fun _ => ⟨?_, hne⟩, h.captive, rfl⟩
    simpa [wifiEventHandler, dnsProxySetUpstream] using hne
  | other => exact h.of_eq rfl rfl h.steady id rfl rfl (hmem (by simp))

theorem Service.lease (h : Service s) (r : Readings) (hr : r.dhcps.AllOk)
    (hbusy : s.handler ≠ .idle) : Service (handleLease s r s.handler) := by
  have hphase := h.phase
  cases hat : s.handler with
  | idle => exact absurd hat hbusy
  | startProxy apIp upstreamDns =>
    rw [hat] at hphase
    refine ⟨h.mode, h.steady.start r.pdPass, h.upstream, h.captive, apIp, rfl, ?_⟩
    simp only [handleLease]
    split_ifs with hstart
    · exact .inl ⟨rfl, (isSome_dnsProxyStart _ _).mp hstart⟩
    · exact .inr (congrArg some hphase.symm)
  | stopDhcps apIp dnsOffer =>
    rw [hat] at hphase
    exact ⟨h.mode, h.steady, h.upstream, h.captive, hphase⟩
  | setOffer apIp dnsOffer =>
    rw [hat] at hphase
    obtain ⟨hgateway, hdns⟩ := offered_of_allOk hr s.dhcps apIp dnsOffer
    refine ⟨h.mode, h.steady, h.upstream, h.captive, ?_⟩
    show Offers _ (Dhcps.offeredGateway _) (Dhcps.offeredDns _)
    simp only [handleLease]
    rw [hgateway, hdns]
    exact hphase
  | startDhcps =>
    rw [hat] at hphase
    refine ⟨h.mode, h.steady, h.upstream, h.captive, ?_⟩
    rw [handleLease, Dhcps.start, if_pos hr.start]
    exact ⟨rfl, hphase⟩
  | startBandwidth =>
    rw [hat] at hphase
    exact ⟨h.mode, h.steady, h.upstream, h.captive, fun _ => hphase⟩

theorem Service.step (h : Service s) (he : ∀ i, e ≠ .proxyFails i)
    (hr : ∀ r, e = .handle r → r.dhcps.AllOk) (hs : step s e = some s') : Service s' := by
  rcases step_cases hs with ⟨-, rfl⟩ | ⟨-, channel, rfl⟩ | ⟨-, rfl⟩ | ⟨-, rfl⟩ | rfl |
    ⟨r, a, queue, -, -, -, rfl⟩ | ⟨r, hgo, hbusy, rfl⟩ | ⟨_, _, _, hsetup, -⟩ |
    ⟨tasks, rfl, ⟨i, htask⟩ | ⟨i, hfails⟩⟩
  · exact h.of_eq rfl rfl h.steady id rfl rfl id
  · exact h.of_eq rfl rfl h.steady id rfl rfl id
  · exact h.of_eq rfl rfl h.steady id rfl rfl id
  · exact h.of_eq rfl rfl h.steady id rfl rfl id
  · exact h.of_eq rfl rfl h.steady id rfl rfl id
  · exact h.event r queue a
  · exact h.lease r (hr r hgo) hbusy
  · exact absurd hsetup (by simp [h.mode])
  · obtain ⟨hsteady, hsame⟩ := h.steady.task htask
    exact h.of_eq rfl rfl hsteady (fun hsome => by rwa [← hsame] at hsome) rfl rfl id
  · exact absurd hfails (he i)

/-- **The resolver that clients are offered is there**: once the handler has come to the end
of a lease, and as long as no call for the DHCP server fails and no task of the proxy fails to
open its sockets, the DHCP server runs and tells clients of a gateway and of a DNS server; that
server is either the gateway itself, and the proxy has a task that serves, or the upstream
server.  In either case the upstream server is set, and is not 0. -/
theorem resolver_offered (hsockets : ∀ i, ¬ok (.proxyFails i))
    (hdhcps : ∀ r, ok (.handle r) → r.dhcps.AllOk) (h : Reachable ok false s)
    (hidle : s.handler = .idle) (hleased : .staGotIp ∈ s.handled) :
    s.dhcps.running = true ∧ s.flags.hasUpstream = true ∧ s.flags.upstreamDns ≠ 0 ∧
      ∃ apIp, s.dhcps.offeredGateway = some apIp ∧
        (s.dhcps.offeredDns = some apIp ∧ s.tasks.dnsRunning = true ∧
            (∃ (i : ℕ) (p : TaskAt), s.tasks.tasks[i]? = some p ∧ p.serves = true) ∨
          s.dhcps.offeredDns = some s.flags.upstreamDns) := by
  have hservice : Service s := h.invariant .booted fun _ _ _ h he hs =>
    h.step (fun i hfails => hsockets i (hfails ▸ he)) (fun r hgo => hdhcps r (hgo ▸ he)) hs
  obtain ⟨hup, hne⟩ := hservice.upstream hleased
  have hphase := hservice.phase
  rw [hidle] at hphase
  obtain ⟨hrunning, apIp, hgateway, hdns⟩ := hphase hleased
  refine ⟨hrunning, hup, hne, apIp, hgateway, hdns.imp_left fun ⟨hdns, hsome⟩ => ?_⟩
  exact ⟨hdns, hservice.steady.serves hsome⟩

/-- After the first lease clients are sent to the access point. -/
theorem first_lease_offered :
    ∃ s, Machine.exec step (.booted false) firstLease = some s ∧ s.dhcps.running = true ∧
      s.flags.hasUpstream = true ∧ s.flags.upstreamDns ≠ 0 ∧
      ∃ apIp, s.dhcps.offeredGateway = some apIp ∧
        (s.dhcps.offeredDns = some apIp ∧ s.tasks.dnsRunning = true ∧
            (∃ (i : ℕ) (p : TaskAt), s.tasks.tasks[i]? = some p ∧ p.serves = true) ∨
          s.dhcps.offeredDns = some s.flags.upstreamDns) := by
  have hok : ∀ e ∈ firstLease,
      (∀ i, e ≠ .proxyFails i) ∧ ∀ r, e = .handle r → r = homeReadings := by
    simp [firstLease]
  have h := reachable_of_exec _ false firstLease hok rfl
  refine ⟨_, rfl, resolver_offered (fun i h => h.1 i rfl) (fun r h => ?_) h rfl (.head _)⟩
  rw [h.2 r rfl]
  exact ⟨rfl, rfl, rfl, rfl, rfl, rfl⟩

/-! ### A set-up boot -/

/-- In a set-up boot the radio stays idle, and nothing is handled but its start. -/
structure Unused (s : Uplink) : Prop where
  mode : s.provisioning = true
  radio : s.radio = .off ∨ s.radio = .idle
  queue : ∀ e ∈ s.queue, e = .staStart ∨ e = .other
  handler : s.handler = .idle
  connects : s.connects = []
  hasUpstream : s.flags.hasUpstream = false

theorem Unused.booted : Unused (.booted true) :=
  ⟨rfl, .inl rfl, fun _ h => absurd h List.not_mem_nil, rfl, rfl, rfl⟩

theorem Unused.post (h : Unused s) {a : WifiEvent} (ha : a = .staStart ∨ a = .other) :
    ∀ e ∈ s.queue ++ [a], e = .staStart ∨ e = .other := by
  intro e he
  rcases List.mem_append.mp he with he | he
  · exact h.queue e he
  · rwa [List.mem_singleton.mp he]

theorem Unused.step (h : Unused s) (hs : step s e = some s') : Unused s' := by
  have hradio := h.radio
  rcases step_cases hs with ⟨-, rfl⟩ | ⟨hno, _, -⟩ | ⟨hno, -⟩ | ⟨hno, -⟩ | rfl |
    ⟨r, a, queue, -, -, htake, rfl⟩ | ⟨r, -, hbusy, -⟩ | ⟨apIp, r, pdPass, -, rfl⟩ |
    ⟨tasks, rfl, -⟩
  · exact ⟨h.mode, .inr rfl, h.post (.inl rfl), h.handler, h.connects, h.hasUpstream⟩
  · exact absurd hradio (by simp [hno])
  · rcases hno with hno | hno <;> exact absurd hradio (by simp [hno])
  · exact absurd hradio (by simp [hno])
  · exact ⟨h.mode, hradio, h.post (.inr rfl), h.handler, h.connects, h.hasUpstream⟩
  · have hqueue := h.queue
    rw [htake, List.forall_mem_cons] at hqueue
    rcases hqueue with ⟨rfl | rfl, hqueue⟩
    · rw [wifiEventHandler, if_pos h.mode]
      exact ⟨h.mode, hradio, hqueue, h.handler, h.connects, h.hasUpstream⟩
    · exact ⟨h.mode, hradio, hqueue, h.handler, h.connects, h.hasUpstream⟩
  · exact absurd h.handler hbusy
  · exact ⟨h.mode, hradio, h.queue, h.handler, h.connects, h.hasUpstream⟩
  · exact ⟨h.mode, hradio, h.queue, h.handler, h.connects, h.hasUpstream⟩

/-- **The captive portal answers no query**: in a set-up boot the radio is never asked to
connect, and so the handler never sets an upstream server; the proxy, which looks for one
before it looks for captive mode, drops every query that a client sends. -/
theorem captive_silent (h : Reachable ok true s) :
    s.connects = [] ∧ ∀ (c : DnsCache) (env : Surroundings) (client : Client) (d : Datagram),
      dnsProxyTaskQuery s.flags c env client d = ⟨[], c, none⟩ := by
  have hunused : Unused s := h.invariant .booted fun _ _ _ h _ hs => h.step hs
  exact ⟨hunused.connects, dnsProxyTaskQuery_no_upstream hunused.hasUpstream⟩

/-- A set-up boot up to the captive portal. -/
def setUpBoot : List Event :=
  [.wifiStart, .handle homeReadings, .captive 0x0104A8C0 dhcpsOk true, .proxy 0]

/-- Its proxy drops the queries of a phone. -/
theorem set_up_portal_silent :
    ∃ s, Machine.exec step (.booted true) setUpBoot = some s ∧
      s.flags.captiveMode = true ∧ s.connects = [] ∧
      ∀ (c : DnsCache) (env : Surroundings) (client : Client) (d : Datagram),
        dnsProxyTaskQuery s.flags c env client d = ⟨[], c, none⟩ := by
  have h := reachable_of_exec (fun _ => True) true setUpBoot (fun _ _ => trivial) rfl
  exact ⟨_, rfl, rfl, captive_silent h⟩

end Device
end WifiRepeater
