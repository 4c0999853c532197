import Mathlib.Data.List.Induction
import WifiRepeater.Dns.Cache

/-!
# One turn of the proxy's loop

`dns_proxy_task` receives a query, and drops it, answers it as captive portal, answers it
from the cache, or forwards it and waits one second for the response.  The wait splits a
turn into two halves, the query half and the response half; what happens in between is
the network's affair.  Other modules steer the task through `dns_proxy_set_upstream` and
`dns_proxy_set_captive_mode`, in any order.

## Main definitions

* `ControlCall`, `flagsAfter` — the calls that steer the task, and the flags they leave.
* `Datagram` — a received query in the task's buffer.
* `dnsProxyTaskQuery`, `dnsProxyTaskResponse` — the two halves of a turn.
* `upstreamOf`, `captiveIpOf`, `captiveOf` — what a history of calls configured.

## Main results

* `flagsAfter_eq` — the flags are the last values configured.
* `captive_answer_iff` — **when a query in captive mode gets the captive answer.**
* `provisioning_drops_query` — in the set-up mode it gets none.
-/

namespace WifiRepeater
namespace Dns

/-! ### The flags and the calls that set them -/

/-- The static variables that steer the task. -/
structure ProxyFlags where
  /-- `s_has_upstream`. -/
  hasUpstream : Bool
  /-- `s_upstream_dns`. -/
  upstreamDns : UInt32
  /-- `s_captive_mode`. -/
  captiveMode : Bool
  /-- `s_captive_ip`. -/
  captiveIp : UInt32
  deriving DecidableEq

/-- The values the variables start with. -/
def ProxyFlags.initial : ProxyFlags := ⟨false, 0, false, 0⟩

/-- `dns_proxy_set_upstream`, `none` for `NULL`. -/
def dnsProxySetUpstream (f : ProxyFlags) : Option UInt32 → ProxyFlags
  | none => { f with hasUpstream := false, upstreamDns := 0 }
  | some dnsIp => { f with upstreamDns := dnsIp, hasUpstream := dnsIp != 0 }

/-- `dns_proxy_set_captive_mode`, `none` for `NULL`. -/
def dnsProxySetCaptiveMode (f : ProxyFlags) (enable : Bool) : Option UInt32 → ProxyFlags
  | none => { f with captiveMode := enable }
  | some deviceIp => { f with captiveMode := enable, captiveIp := deviceIp }

/-- A call of another module. -/
inductive ControlCall
  /-- `dns_proxy_set_upstream`. -/
  | setUpstream (dnsIp : Option UInt32)
  /-- `dns_proxy_set_captive_mode`. -/
  | setCaptiveMode (enable : Bool) (deviceIp : Option UInt32)
  deriving DecidableEq

/-- What a call does to the flags. -/
def ControlCall.apply (f : ProxyFlags) : ControlCall → ProxyFlags
  | .setUpstream dnsIp => dnsProxySetUpstream f dnsIp
  | .setCaptiveMode enable deviceIp => dnsProxySetCaptiveMode f enable deviceIp

/-- The flags after a sequence of calls. -/
def flagsAfter (calls : List ControlCall) : ProxyFlags :=
  calls.foldl ControlCall.apply ProxyFlags.initial

/-! ### What the task receives and does -/

/-- A received query: the buffer, of which `len` bytes are the query and the rest is
what earlier datagrams left. -/
structure Datagram where
  /-- `buf`. -/
  buf : Buf dnsProxyBufSize
  /-- What `recvfrom` returned. -/
  len : ℕ
  /-- It does not receive more than the buffer holds. -/
  le : len ≤ dnsProxyBufSize

/-- A query in an otherwise empty buffer. -/
def Datagram.ofBytes (l : List UInt8) (h : l.length ≤ dnsProxyBufSize) : Datagram :=
  ⟨(Buf.zero dnsProxyBufSize).memcpy l h, l.length, h⟩

/-- The bytes received. -/
def Datagram.bytes (d : Datagram) : List UInt8 := received d.buf.bytes d.len

/-- The address a query came from. -/
structure Client where
  /-- `sin_addr`. -/
  addr : UInt32
  /-- `sin_port`. -/
  port : UInt16
  deriving DecidableEq

/-- `ap_client_info_t`. -/
structure ApClientInfo where
  /-- The station's MAC address. -/
  mac : Buf 6
  /-- Its address, when it has one. -/
  ip : UInt32
  /-- Whether it has one. -/
  hasIp : Bool

/-- What the task learns from the system while it handles a query. -/
structure Surroundings where
  /-- `ap_clients_get`: the table, `none` when the call fails. -/
  clients : Option (List ApClientInfo)
  /-- The clock, as the cache reads it. -/
  now : ℤ
  /-- `BENCHMARK_GET_ELAPSED`. -/
  latency : UInt32
  /-- Whether the datagram to the upstream server could be sent. -/
  forwarded : Bool

/-- What the task does that others see. -/
inductive Effect
  /-- `dns_log_add`. -/
  | logAdd (mac ip domain : CStr) (qtype : UInt16)
  /-- `sendto` on the listening socket. -/
  | toClient (client : Client) (bytes : List UInt8)
  /-- `sendto` on the upstream socket. -/
  | toUpstream (addr : UInt32) (bytes : List UInt8)
  /-- `sys_monitor_record_dns_query`. -/
  | recordQuery (latency : UInt32)
  /-- `sys_monitor_record_dns_cache_hit`. -/
  | cacheHit
  /-- `sys_monitor_record_dns_cache_miss`. -/
  | cacheMiss
  deriving DecidableEq

/-- A query that was forwarded: who asked, and what the parser made of it. -/
structure Pending where
  /-- Where the response goes. -/
  client : Client
  /-- Name and type, when the query was parsed. -/
  parsed : Option (CStr × UInt16)
  deriving DecidableEq

/-- The outcome of the query half. -/
structure Turn where
  /-- What was done, in order. -/
  effects : List Effect
  /-- The cache after it. -/
  cache : DnsCache
  /-- The query the task now waits for, `none` for `continue`. -/
  pending : Option Pending

/-! ### The two halves of a turn -/

/-- Two hexadecimal digits. -/
def hexByte (b : UInt8) : String :=
  String.ofList [Nat.digitChar (b.toNat / 16), Nat.digitChar (b.toNat % 16)]

/-- `format_mac`, in a buffer that holds all of it. -/
def formatMac (mac : Buf 6) : CStr := CStr.lit (":".intercalate (mac.bytes.map hexByte))

/-- `lookup_mac_for_ip`: the first client with the address. -/
def lookupMacForIp (clients : Option (List ApClientInfo)) (ip : UInt32) : Option CStr :=
  (clients.getD []).findSome? fun c =>
    if c.hasIp && c.ip == ip then some (formatMac c.mac) else none

/-- `IPSTR`. -/
def ipText (ip : UInt32) : CStr :=
  CStr.lit (".".intercalate ((ipBytes ip).map fun b => toString b.toNat))

/-- The query half of a turn, from `recvfrom` on the listening socket to the forwarded
query. -/
def dnsProxyTaskQuery (f : ProxyFlags) (c : DnsCache) (env : Surroundings) (client : Client)
    (d : Datagram) : Turn :=
  -- this test comes first, before captive mode is looked at
  if f.hasUpstream = false then ⟨[], c, none⟩
  else
    let mac := (lookupMacForIp env.clients client.addr).getD (CStr.lit "unknown")
    let forward (log : List Effect) (c : DnsCache) (parsed : Option (CStr × UInt16)) : Turn :=
      ⟨log ++ [.toUpstream f.upstreamDns d.bytes], c,
        if env.forwarded then some ⟨client, parsed⟩ else none⟩
    match parseDnsQuery d.buf.bytes d.len qnameSize with
    | some (name, qtype) =>
        let qname := CStr.ofMem name
        let log := [.logAdd mac (ipText client.addr) qname qtype]
        if f.captiveMode then
          let resp :=
            if qtype = 1 then buildCaptiveResponse d.buf.bytes d.len dnsProxyBufSize f.captiveIp
            else buildNodataResponse d.buf.bytes d.len dnsProxyBufSize
          ⟨log ++ (resp.map (Effect.toClient client)).toList ++ [.recordQuery env.latency], c, none⟩
        else
          let r := dnsCacheLookup c qname qtype dnsProxyBufSize env.now
          -- `cached_len > 0`
          match r.1.filter fun resp => 0 < resp.length with
          | some resp =>
              ⟨log ++ [.toClient client (patchId resp d.buf.bytes), .recordQuery env.latency,
                .cacheHit], r.2, none⟩
          | none => forward (log ++ [.cacheMiss]) r.2 (some (qname, qtype))
    | none =>
        -- an unparsed query is forwarded as it is, in captive mode as well
        forward [.logAdd mac (ipText client.addr) (CStr.lit "<unparsed>") 0] c none

/-- The response half of a turn: `resp` is what `recvfrom` on the upstream socket
received, `none` for the timeout. -/
def dnsProxyTaskResponse (c : DnsCache) (env : Surroundings) (p : Pending)
    (resp : Option (List UInt8)) : List Effect × DnsCache :=
  match resp with
  | none => ([], c)
  | some bytes =>
      let c :=
        match p.parsed with
        | some (qname, qtype) =>
            if bytes.length > 0 then dnsCacheStore c qname qtype bytes env.now else c
        | none => c
      ([.toClient p.client bytes, .recordQuery env.latency], c)

/-- The datagrams sent to clients, with their receivers. -/
def clientSends (es : List Effect) : List (Client × List UInt8) :=
  es.filterMap fun e =>
    match e with
    | .toClient client bytes => some (client, bytes)
    | _ => none

/-! ### What the calls have configured -/

/-- The upstream address configured last, zero when there is none. -/
def upstreamOf (calls : List ControlCall) : UInt32 :=
  (calls.reverse.findSome? fun call =>
    match call with
    | .setUpstream dnsIp => some (dnsIp.getD 0)
    | .setCaptiveMode _ _ => none).getD 0

/-- Whether captive mode was switched on last. -/
def captiveOf (calls : List ControlCall) : Bool :=
  (calls.reverse.findSome? fun call =>
    match call with
    | .setUpstream _ => none
    | .setCaptiveMode enable _ => some enable).getD false

/-- The device address configured last. -/
def captiveIpOf (calls : List ControlCall) : UInt32 :=
  (calls.reverse.findSome? fun call =>
    match call with
    | .setUpstream _ => none
    | .setCaptiveMode _ deviceIp => deviceIp).getD 0

/-- **The flags are the last values configured**: after every sequence of calls. -/
theorem flagsAfter_eq : ∀ calls : List ControlCall,
    flagsAfter calls
      = ⟨upstreamOf calls != 0, upstreamOf calls, captiveOf calls, captiveIpOf calls⟩ := by
  intro calls
  induction calls using List.reverseRecOn with
  | nil => rfl
  | append_singleton calls call ih =>
    have hlast : flagsAfter (calls ++ [call]) = ControlCall.apply (flagsAfter calls) call := by
      rw [flagsAfter, List.foldl_append]
      rfl
    rw [hlast, ih]
    unfold upstreamOf captiveOf captiveIpOf
    rw [List.reverse_append, List.reverse_singleton, List.singleton_append]
    cases call with
    | setUpstream dnsIp => cases dnsIp <;> simp [ControlCall.apply, dnsProxySetUpstream]
    | setCaptiveMode enable deviceIp =>
      cases deviceIp <;> simp [ControlCall.apply, dnsProxySetCaptiveMode]

/-! ### The captive answer -/

/-- The answer of the captive portal to a query of type `qtype`: the device's address
to a query of type A, no data to any other. -/
def captiveAnswer (d : Datagram) (qtype : UInt16) (ip : UInt32) : Option (List UInt8) :=
  if qtype = 1 then buildCaptiveResponse d.buf.bytes d.len dnsProxyBufSize ip
  else buildNodataResponse d.buf.bytes d.len dnsProxyBufSize

/-- The line of the log for a query. -/
def logLine (env : Surroundings) (client : Client) (domain : CStr) (qtype : UInt16) : Effect :=
  .logAdd ((lookupMacForIp env.clients client.addr).getD (CStr.lit "unknown"))
    (ipText client.addr) domain qtype

/-- How the query half goes, by the tests it makes. -/
inductive QueryHalf (f : ProxyFlags) (c : DnsCache) (env : Surroundings) (client : Client)
    (d : Datagram) : Turn → Prop
  /-- There is no upstream server. -/
  | dropped (hup : f.hasUpstream = false) : QueryHalf f c env client d ⟨[], c, none⟩
  /-- The query is not parsed, and forwarded. -/
  | unparsed (hup : f.hasUpstream = true)
      (hparse : parseDnsQuery d.buf.bytes d.len qnameSize = none) :
      QueryHalf f c env client d
        ⟨[logLine env client (CStr.lit "<unparsed>") 0, .toUpstream f.upstreamDns d.bytes], c,
          if env.forwarded then some ⟨client, none⟩ else none⟩
  /-- Captive mode. -/
  | captive {name : List UInt8} {qtype : UInt16} (hup : f.hasUpstream = true)
      (hparse : parseDnsQuery d.buf.bytes d.len qnameSize = some (name, qtype))
      (hcap : f.captiveMode = true) :
      QueryHalf f c env client d
        ⟨[logLine env client (CStr.ofMem name) qtype] ++
            ((captiveAnswer d qtype f.captiveIp).map (Effect.toClient client)).toList ++
            [.recordQuery env.latency], c, none⟩
  /-- The response is in the cache. -/
  | hit {name resp : List UInt8} {qtype : UInt16} (hup : f.hasUpstream = true)
      (hparse : parseDnsQuery d.buf.bytes d.len qnameSize = some (name, qtype))
      (hcap : f.captiveMode = false)
      (hhit : (dnsCacheLookup c (CStr.ofMem name) qtype dnsProxyBufSize env.now).1.filter
        (fun resp => 0 < resp.length) = some resp) :
      QueryHalf f c env client d
        ⟨[logLine env client (CStr.ofMem name) qtype, .toClient client (patchId resp d.buf.bytes),
            .recordQuery env.latency, .cacheHit],
          (dnsCacheLookup c (CStr.ofMem name) qtype dnsProxyBufSize env.now).2, none⟩
  /-- It is not, and the query is forwarded. -/
  | miss {name : List UInt8} {qtype : UInt16} (hup : f.hasUpstream = true)
      (hparse : parseDnsQuery d.buf.bytes d.len qnameSize = some (name, qtype))
      (hcap : f.captiveMode = false)
      (hmiss : (dnsCacheLookup c (CStr.ofMem name) qtype dnsProxyBufSize env.now).1.filter
        (fun resp => 0 < resp.length) = none) :
      QueryHalf f c env client d
        ⟨[logLine env client (CStr.ofMem name) qtype, .cacheMiss,
            .toUpstream f.upstreamDns d.bytes],
          (dnsCacheLookup c (CStr.ofMem name) qtype dnsProxyBufSize env.now).2,
          if env.forwarded then some ⟨client, some (CStr.ofMem name, qtype)⟩ else none⟩

/-- **How a turn can go**: one of these ways. -/
theorem dnsProxyTaskQuery_cases (f : ProxyFlags) (c : DnsCache) (env : Surroundings)
    (client : Client) (d : Datagram) :
    QueryHalf f c env client d (dnsProxyTaskQuery f c env client d) := by
  unfold dnsProxyTaskQuery
  cases hup : f.hasUpstream with
  | false => exact .dropped hup
  | true =>
    rw [if_neg (by simp)]
    cases hparse : parseDnsQuery d.buf.bytes d.len qnameSize with
    | none => exact .unparsed hup hparse
    | some r =>
      obtain ⟨name, qtype⟩ := r
      simp only
      cases hcap : f.captiveMode with
      | true => exact .captive hup hparse hcap
      | false =>
        rw [if_neg Bool.false_ne_true]
        split
        · next resp hhit => exact .hit hup hparse hcap hhit
        · next hmiss => exact .miss hup hparse hcap hmiss

/-- A question with room for the answer record behind it is answered. -/
theorem captiveAnswer_isSome {d : Datagram} {q : Question} (hq : Carries d.buf.bytes d.len q)
    (hfits : 12 + q.encode.length + 16 ≤ dnsProxyBufSize) (qtype : UInt16) (ip : UInt32) :
    ∃ r, captiveAnswer d qtype ip = some r := by
  have hlen : q.encode.length = (encodeName q.labels).length + 4 := by
    rw [Question.encode, List.length_append, List.length_append, length_be16, length_be16]
  unfold captiveAnswer buildCaptiveResponse buildNodataResponse
  rw [questionEnd_of_carries hq]
  simp only
  by_cases htype : qtype = 1
  · rw [if_pos htype, if_neg (by omega)]
    exact ⟨_, rfl⟩
  · rw [if_neg htype, if_neg (by omega)]
    exact ⟨_, rfl⟩

/-- The query half in captive mode, with an upstream server configured. -/
theorem dnsProxyTaskQuery_captive {f : ProxyFlags} (hup : f.hasUpstream = true)
    (hcap : f.captiveMode = true) (c : DnsCache) (env : Surroundings) (client : Client)
    {d : Datagram} {name : List UInt8} {qtype : UInt16}
    (hparse : parseDnsQuery d.buf.bytes d.len qnameSize = some (name, qtype)) :
    clientSends (dnsProxyTaskQuery f c env client d).effects
      = ((captiveAnswer d qtype f.captiveIp).map (Prod.mk client)).toList := by
  unfold dnsProxyTaskQuery captiveAnswer
  rw [if_neg (by simp [hup]), hparse]
  simp only [hcap, if_true]
  cases (if qtype = 1 then buildCaptiveResponse d.buf.bytes d.len dnsProxyBufSize f.captiveIp
    else buildNodataResponse d.buf.bytes d.len dnsProxyBufSize) <;> simp [clientSends]

/-- Without an upstream server every query is dropped before anything else is looked
at. -/
theorem dnsProxyTaskQuery_no_upstream {f : ProxyFlags} (hup : f.hasUpstream = false)
    (c : DnsCache) (env : Surroundings) (client : Client) (d : Datagram) :
    dnsProxyTaskQuery f c env client d = ⟨[], c, none⟩ := if_pos hup

/-- **When a query in captive mode gets the captive answer**: after any calls that
leave captive mode on, an accepted query whose question leaves room for the answer record
is answered with the one datagram of the captive portal exactly when the upstream
address configured last is not zero. -/
theorem captive_answer_iff (calls : List ControlCall) (c : DnsCache) (env : Surroundings)
    (client : Client) (d : Datagram) {name : List UInt8} {qtype : UInt16} {q : Question}
    (hcap : captiveOf calls = true)
    (hparse : parseDnsQuery d.buf.bytes d.len qnameSize = some (name, qtype))
    (hq : Carries d.buf.bytes d.len q) (hfits : 12 + q.encode.length + 16 ≤ dnsProxyBufSize) :
    (∃ r, captiveAnswer d qtype (captiveIpOf calls) = some r ∧
      clientSends (dnsProxyTaskQuery (flagsAfter calls) c env client d).effects
        = [(client, r)]) ↔ upstreamOf calls ≠ 0 := by
  have hflags := flagsAfter_eq calls
  constructor
  -- without an upstream address nothing is sent
  · rintro ⟨r, -, hsends⟩ hzero
    have hup : (flagsAfter calls).hasUpstream = false := by rw [hflags, hzero]; rfl
    rw [dnsProxyTaskQuery_no_upstream hup] at hsends
    exact absurd hsends (by simp [clientSends])
  · intro hne
    have hup : (flagsAfter calls).hasUpstream = true := by rw [hflags]; simpa using hne
    have hmode : (flagsAfter calls).captiveMode = true := by rw [hflags]; exact hcap
    have hip : (flagsAfter calls).captiveIp = captiveIpOf calls := by rw [hflags]
    obtain ⟨r, hr⟩ := captiveAnswer_isSome hq hfits qtype (captiveIpOf calls)
    refine ⟨r, hr, ?_⟩
    rw [dnsProxyTaskQuery_captive hup hmode c env client hparse, hip, hr]
    rfl

/-- The device's address in the set-up mode, 192.168.4.1. -/
def deviceIp : UInt32 := 0x0104a8c0

/-- The first phone to ask, for `a`, type A. -/
def queryA : Datagram :=
  .ofBytes [0x12, 0x34, 1, 0, 0, 1, 0, 0, 0, 0, 0, 0, 1, 0x61, 0, 0, 1, 0, 1] (by decide)

/-- Its question. -/
def questionA : Question := ⟨[⟨[0x61], by decide, by decide⟩], 1, 1⟩

/-- Nothing known, nothing forwarded. -/
def quiet : Surroundings := ⟨none, 0, 0, false⟩

/-- With an upstream server, the query gets the device's address. -/
theorem captive_answer_queryA :
    (∃ r, captiveAnswer queryA 1 deviceIp = some r ∧
      clientSends (dnsProxyTaskQuery
        (flagsAfter [.setUpstream (some 0x08080808), .setCaptiveMode true (some deviceIp)])
        zeroCache quiet ⟨0x0204a8c0, 5353⟩ queryA).effects
        = [(⟨0x0204a8c0, 5353⟩, r)]) :=
  (captive_answer_iff [.setUpstream (some 0x08080808), .setCaptiveMode true (some deviceIp)]
    zeroCache quiet ⟨0x0204a8c0, 5353⟩ queryA (by decide)
    (show parseDnsQuery queryA.buf.bytes queryA.len qnameSize = some ([0x61], 1) by
      decide +kernel)
    (show Carries queryA.buf.bytes queryA.len questionA by decide +kernel) (by decide)).mpr
    (by decide)

/-- **In the set-up mode it gets none**: `app_main` switches captive mode on and
configures no upstream server, so the query is dropped. -/
theorem provisioning_drops_query :
    captiveOf [.setCaptiveMode true (some deviceIp)] = true ∧
      parseDnsQuery queryA.buf.bytes queryA.len qnameSize = some ([0x61], 1) ∧
      Carries queryA.buf.bytes queryA.len questionA ∧
      12 + questionA.encode.length + 16 ≤ dnsProxyBufSize ∧
      ¬∃ r, captiveAnswer queryA 1 (captiveIpOf [.setCaptiveMode true (some deviceIp)]) = some r ∧
        clientSends (dnsProxyTaskQuery (flagsAfter [.setCaptiveMode true (some deviceIp)])
          zeroCache quiet ⟨0x0204a8c0, 5353⟩ queryA).effects = [(⟨0x0204a8c0, 5353⟩, r)] := by
  refine ⟨by decide, by decide +kernel, by decide +kernel, by decide, ?_⟩
  rintro ⟨r, -, hsends⟩
  have hup : (flagsAfter [.setCaptiveMode true (some deviceIp)]).hasUpstream = false := rfl
  rw [dnsProxyTaskQuery_no_upstream hup] at hsends
  exact absurd hsends (by simp [clientSends])

end Dns
end WifiRepeater
