import WifiRepeater.Dns.Upstream

/-!
# What captive mode keeps in

In captive mode the device answers for the whole network: no query is to leave it.  The
branch of `dns_proxy_task` that does this lies behind the parser, so a datagram the
parser rejects goes the other way, to the upstream server if there is one.

## Main definitions

* `TaskState`, `TaskEvent`, `taskStep` — the task between other modules' calls; a call of
  `dns_proxy_set_upstream` may come at any time, also within a turn.
* `Isolated` — what captive mode promises of an event.
* `Contained`, `Accepted` — what the datagrams have to be for that.

## Main results

* `isolated_iff_contained` — one event.
* `captive_isolation` — **every run.**
* `unparsed_query_leaves` — a datagram of one byte that gets out.
-/

namespace WifiRepeater
namespace Dns

/-! ### The task and the calls of other modules -/

/-- The task's variables. -/
structure TaskState where
  /-- The variables that steer it. -/
  flags : ProxyFlags
  /-- The cache. -/
  cache : DnsCache
  /-- The query it waits for a response to. -/
  pending : Option Pending

/-- What may happen. -/
inductive TaskEvent
  /-- A call between two steps of the task. -/
  | control (call : ControlCall)
  /-- A datagram is received and handled; `calls` are the calls of `dns_proxy_set_upstream`
  between the test of `s_has_upstream` and the reading of `s_upstream_dns`. -/
  | query (client : Client) (d : Datagram) (env : Surroundings) (calls : List (Option UInt32))
  /-- The response of the upstream server is received. -/
  | receive (env : Surroundings) (resp : List UInt8)
  /-- None is received in time. -/
  | timeout (env : Surroundings)

/-- The variables as a turn reads them, with calls in the middle of it. -/
def flagsInTurn (f : ProxyFlags) (calls : List (Option UInt32)) : ProxyFlags :=
  { calls.foldl dnsProxySetUpstream f with hasUpstream := f.hasUpstream }

/-- The query half of a turn. -/
def queryTurn (s : TaskState) (client : Client) (d : Datagram) (env : Surroundings)
    (calls : List (Option UInt32)) : Turn :=
  dnsProxyTaskQuery (flagsInTurn s.flags calls) s.cache env client d

/-- What an event does, `none` when it cannot happen. -/
def taskStep (s : TaskState) : TaskEvent → Option TaskState
  | .control call => some { s with flags := call.apply s.flags }
  | .query client d env calls =>
      match s.pending with
      | some _ => none
      | none =>
          let turn := queryTurn s client d env calls
          some ⟨calls.foldl dnsProxySetUpstream s.flags, turn.cache, turn.pending⟩
  | .receive env resp => s.pending.map fun p =>
      ⟨s.flags, (dnsProxyTaskResponse s.cache env p (some resp)).2, none⟩
  | .timeout env => s.pending.map fun p =>
      ⟨s.flags, (dnsProxyTaskResponse s.cache env p none).2, none⟩

/-! ### What is promised -/

/-- Bytes that one of the builders of the captive portal made of a query. -/
def CaptiveBytes (d : Datagram) (bytes : List UInt8) : Prop :=
  (∃ ip, buildCaptiveResponse d.buf.bytes d.len dnsProxyBufSize ip = some bytes) ∨
    buildNodataResponse d.buf.bytes d.len dnsProxyBufSize = some bytes

/-- A turn sends nothing upstream, does the same with any other cache and leaves it as it
is, and sends to clients what the builders made. -/
structure TurnIsolated (d : Datagram) (turn : DnsCache → Turn) (c : DnsCache) : Prop where
  /-- Nothing is sent to the upstream server. -/
  upstream : upstreamSends (turn c).effects = []
  /-- The cache is neither read nor written. -/
  cache : ∀ c', turn c' = ⟨(turn c).effects, c', (turn c).pending⟩
  /-- What clients receive is the captive portal's. -/
  clients : ∀ m ∈ clientSends (turn c).effects, CaptiveBytes d m.2

/-- While captive mode is on, an event keeps its promise. -/
def Isolated (s : TaskState) : TaskEvent → Prop
  | .control _ => True
  | .query client d env calls => s.flags.captiveMode = true →
      TurnIsolated d (fun c => queryTurn { s with cache := c } client d env calls) s.cache
  | .receive env resp => s.flags.captiveMode = true → ∀ p ∈ s.pending,
      clientSends (dnsProxyTaskResponse s.cache env p (some resp)).1 = [] ∧
        (dnsProxyTaskResponse s.cache env p (some resp)).2 = s.cache
  | .timeout env => s.flags.captiveMode = true → ∀ p ∈ s.pending,
      clientSends (dnsProxyTaskResponse s.cache env p none).1 = [] ∧
        (dnsProxyTaskResponse s.cache env p none).2 = s.cache

/-- While captive mode is on, a datagram received with an upstream server configured is
one that the parser accepts. -/
def Accepted (s : TaskState) : TaskEvent → Prop
  | .query _ d _ _ => s.flags.captiveMode = true → s.flags.hasUpstream = true →
      (parseDnsQuery d.buf.bytes d.len qnameSize).isSome = true
  | .control _ => True
  | .receive _ _ => True
  | .timeout _ => True

/-- And no response of the upstream server is received. -/
def Contained (s : TaskState) (e : TaskEvent) : Prop :=
  Accepted s e ∧
    match e with
    | .receive _ _ => s.flags.captiveMode = true → s.pending = none
    | .control _ | .query .. | .timeout _ => True

/-! ### One event -/

/-- Calls of `dns_proxy_set_upstream` leave captive mode alone. -/
theorem captiveMode_foldl (calls : List (Option UInt32)) (f : ProxyFlags) :
    (calls.foldl dnsProxySetUpstream f).captiveMode = f.captiveMode := by
  induction calls generalizing f with
  | nil => rfl
  | cons call calls ih =>
    rw [List.foldl_cons, ih]
    cases call <;> rfl

/-- A turn without an upstream server ends at once. -/
theorem queryTurn_no_upstream {s : TaskState} (hup : s.flags.hasUpstream = false) (client : Client)
    (d : Datagram) (env : Surroundings) (calls : List (Option UInt32)) (c : DnsCache) :
    queryTurn { s with cache := c } client d env calls = ⟨[], c, none⟩ :=
  dnsProxyTaskQuery_no_upstream (f := flagsInTurn s.flags calls) hup c env client d

/-- With one, a datagram that the parser rejects is forwarded, captive mode or not. -/
theorem queryTurn_unparsed {s : TaskState} (hup : s.flags.hasUpstream = true) (client : Client)
    {d : Datagram} (hparse : parseDnsQuery d.buf.bytes d.len qnameSize = none)
    (env : Surroundings) (calls : List (Option UInt32)) :
    upstreamSends (queryTurn s client d env calls).effects = [d.bytes] := by
  have hup' : (flagsInTurn s.flags calls).hasUpstream ≠ false := by
    simp [flagsInTurn, hup]
  rw [queryTurn, dnsProxyTaskQuery, if_neg hup', hparse]
  rfl

/-- A parsed one is answered by the captive portal. -/
theorem queryTurn_captive {s : TaskState} (hup : s.flags.hasUpstream = true)
    (hcap : s.flags.captiveMode = true) (client : Client) {d : Datagram} {name : List UInt8}
    {qtype : UInt16} (hparse : parseDnsQuery d.buf.bytes d.len qnameSize = some (name, qtype))
    (env : Surroundings) (calls : List (Option UInt32)) (c : DnsCache) :
    queryTurn { s with cache := c } client d env calls
      = ⟨[.logAdd ((lookupMacForIp env.clients client.addr).getD (CStr.lit "unknown"))
            (ipText client.addr) (CStr.ofMem name) qtype] ++
          ((captiveAnswer d qtype (flagsInTurn s.flags calls).captiveIp).map
            (Effect.toClient client)).toList ++ [.recordQuery env.latency], c, none⟩ := by
  have hup' : (flagsInTurn s.flags calls).hasUpstream ≠ false := by
    simp [flagsInTurn, hup]
  have hcap' : (flagsInTurn s.flags calls).captiveMode = true := by
    rw [flagsInTurn]
    exact (captiveMode_foldl calls s.flags).trans hcap
  rw [queryTurn, dnsProxyTaskQuery, if_neg hup', hparse]
  simp only [hcap', if_true]
  rfl

/-- What the captive portal answers is what its builders make. -/
theorem captiveBytes_of_answer {d : Datagram} {qtype : UInt16} {ip : UInt32} {r : List UInt8}
    (h : captiveAnswer d qtype ip = some r) : CaptiveBytes d r := by
  unfold captiveAnswer at h
  split_ifs at h
  · exact Or.inl ⟨ip, h⟩
  · exact Or.inr h

/-- A turn with captive mode on keeps the promise unless it forwards. -/
theorem turnIsolated_iff {s : TaskState} (hcap : s.flags.captiveMode = true) (client : Client)
    (d : Datagram) (env : Surroundings) (calls : List (Option UInt32)) :
    TurnIsolated d (fun c => queryTurn { s with cache := c } client d env calls) s.cache ↔
      (s.flags.hasUpstream = true → (parseDnsQuery d.buf.bytes d.len qnameSize).isSome = true) := by
  cases hup : s.flags.hasUpstream with
  | false =>
    have hturn := queryTurn_no_upstream hup client d env calls
    refine iff_of_true ⟨?_, fun c' => ?_, ?_⟩ (by simp)
    · rw [hturn]
      rfl
    · rw [hturn, hturn]
    · rw [hturn]
      simp [clientSends]
  | true =>
    cases hparse : parseDnsQuery d.buf.bytes d.len qnameSize with
    | none =>
      -- the datagram is forwarded
      refine iff_of_false (fun h => ?_) (by simp)
      have hforwarded := queryTurn_unparsed hup client hparse env calls
      exact absurd (hforwarded.symm.trans h.upstream) (by simp)
    | some r =>
      obtain ⟨name, qtype⟩ := r
      have hturn := queryTurn_captive hup hcap client hparse env calls
      refine iff_of_true ⟨?_, fun c' => ?_, ?_⟩ (by simp)
      · rw [hturn]
        cases captiveAnswer d qtype (flagsInTurn s.flags calls).captiveIp <;> rfl
      · rw [hturn, hturn]
      · rw [hturn]
        cases hanswer : captiveAnswer d qtype (flagsInTurn s.flags calls).captiveIp with
        | none => simp [clientSends]
        | some bytes =>
          have hbytes := captiveBytes_of_answer hanswer
          simpa [clientSends] using hbytes

/-- **One event** keeps the promise exactly when it is contained. -/
theorem isolated_iff_contained (s : TaskState) (e : TaskEvent) :
    Isolated s e ↔ Contained s e := by
  cases e with
  | control call => exact iff_of_true trivial ⟨trivial, trivial⟩
  | query client d env calls =>
    show (s.flags.captiveMode = true → _) ↔ (s.flags.captiveMode = true → _) ∧ True
    rw [and_true]
    exact forall_congr' fun hcap => turnIsolated_iff hcap client d env calls
  | receive env resp =>
    show (s.flags.captiveMode = true → _) ↔ True ∧ (s.flags.captiveMode = true → _)
    rw [true_and]
    refine forall_congr' fun _ => ?_
    cases s.pending with
    | none => exact iff_of_true (by simp) rfl
    | some p =>
      -- a response is relayed as it is
      refine iff_of_false (fun h => ?_) (by simp)
      exact absurd (h p rfl).1 (by simp [dnsProxyTaskResponse, clientSends])
  | timeout env => exact iff_of_true (fun _ _ _ => ⟨rfl, rfl⟩) ⟨trivial, trivial⟩

/-- Where no response is waited for, none is received. -/
theorem contained_iff_accepted {s : TaskState} (hpending : s.pending = none) (e : TaskEvent) :
    Contained s e ↔ Accepted s e := by
  refine and_iff_left ?_
  cases e with
  | receive env resp => exact fun _ => hpending
  | control call => trivial
  | query client d env calls => trivial
  | timeout env => trivial

/-! ### Every run -/

/-- The event does not switch captive mode. -/
def TaskEvent.KeepsMode : TaskEvent → Prop
  | .control (.setCaptiveMode _ _) => False
  | _ => True

/-- While captive mode stays on and all datagrams are accepted, nothing is forwarded. -/
theorem captive_step {s s' : TaskState} {e : TaskEvent}
    (h : s.flags.captiveMode = true ∧ s.pending = none) (he : e.KeepsMode) (hacc : Accepted s e)
    (hs : taskStep s e = some s') : s'.flags.captiveMode = true ∧ s'.pending = none := by
  obtain ⟨hcap, hpending⟩ := h
  cases e with
  | control call =>
    cases call with
    | setCaptiveMode enable deviceIp => exact he.elim
    | setUpstream dnsIp =>
      obtain rfl := Option.some.inj hs
      refine ⟨?_, hpending⟩
      have := captiveMode_foldl [dnsIp] s.flags
      exact this.trans hcap
  | query client d env calls =>
    rw [taskStep, hpending] at hs
    obtain rfl := Option.some.inj hs
    refine ⟨(captiveMode_foldl calls s.flags).trans hcap, ?_⟩
    show (queryTurn s client d env calls).pending = none
    cases hup : s.flags.hasUpstream with
    | false =>
      have hturn := queryTurn_no_upstream hup client d env calls s.cache
      exact congrArg Turn.pending hturn
    | true =>
      obtain ⟨⟨name, qtype⟩, hparse⟩ := Option.isSome_iff_exists.mp (hacc hcap hup)
      have hturn := queryTurn_captive hup hcap client hparse env calls s.cache
      exact congrArg Turn.pending hturn
  | receive env resp =>
    rw [taskStep, hpending] at hs
    exact absurd hs (by simp)
  | timeout env =>
    rw [taskStep, hpending] at hs
    exact absurd hs (by simp)

/-- **Every run.**  Whatever datagrams arrive and whichever calls come in between, the
promise of captive mode is kept at every event exactly when, while it is on, every
datagram received with an upstream server configured is accepted by the parser and no
upstream response is received.  If captive mode is on from the start and stays on, the
first condition alone decides. -/
theorem captive_isolation (s : TaskState) (es : List TaskEvent) :
    (Machine.Admitted taskStep Isolated s es ↔ Machine.Admitted taskStep Contained s es) ∧
    (s.flags.captiveMode = true → s.pending = none → (∀ e ∈ es, e.KeepsMode) →
      (Machine.Admitted taskStep Isolated s es ↔ Machine.Admitted taskStep Accepted s es)) := by
  constructor
  · exact Machine.admitted_iff_of_invariant (I := fun _ => True) (E := fun _ => True)
      (fun _ _ _ _ _ _ _ => trivial) (fun s e _ _ => isolated_iff_contained s e)
      (fun _ _ => trivial) trivial
  · intro hcap hpending hmode
    refine Iff.symm (Machine.admitted_iff_of_invariant (E := TaskEvent.KeepsMode)
      (I := fun s => s.flags.captiveMode = true ∧ s.pending = none)
      (fun _ _ _ h he hacc hs => captive_step h he hacc hs) (fun s e h _ => ?_) hmode
      ⟨hcap, hpending⟩)
    rw [isolated_iff_contained, contained_iff_accepted h.2]

/-! ### A datagram that stays and one that gets out -/

/-- One byte, in captive mode with an upstream server. -/
def runt : Datagram := .ofBytes [0] (Nat.le_of_ble_eq_true rfl)

/-- The task in captive mode. -/
def captiveTask : TaskState :=
  ⟨flagsAfter [.setCaptiveMode true (some deviceIp)], zeroCache, none⟩

/-- A parsed query stays in, with an upstream server as well. -/
theorem parsed_query_stays :
    Machine.Admitted taskStep Isolated captiveTask
      [.control (.setUpstream (some 0x08080808)), .query ⟨0x0204a8c0, 5353⟩ queryA quiet []] := by
  have hparse : (parseDnsQuery queryA.buf.bytes queryA.len qnameSize).isSome = true := by
    decide +kernel
  exact ((captive_isolation captiveTask _).2 rfl rfl (by simp [TaskEvent.KeepsMode])).mpr
    ⟨trivial, fun _ _ => ⟨fun _ _ => hparse, fun _ _ => trivial⟩⟩

/-- What arrives: an upstream server is configured, then comes the byte. -/
def leak : List TaskEvent :=
  [.control (.setUpstream (some 0x08080808)), .query ⟨0x0204a8c0, 5353⟩ runt quiet []]

/-- **It is sent to the upstream server.** -/
theorem unparsed_query_leaves :
    captiveTask.flags.captiveMode = true ∧ captiveTask.pending = none ∧
      ¬Machine.Admitted taskStep Isolated captiveTask leak := by
  have hparse : parseDnsQuery runt.buf.bytes runt.len qnameSize = none := by decide +kernel
  refine ⟨rfl, rfl, fun h => ?_⟩
  have hquery := (h.2 _ rfl).1 rfl
  have hsent := queryTurn_unparsed (s := ⟨flagsAfter [.setCaptiveMode true (some deviceIp),
    .setUpstream (some 0x08080808)], zeroCache, none⟩) rfl ⟨0x0204a8c0, 5353⟩ hparse quiet []
  exact absurd (hsent.symm.trans hquery.upstream) (by simp)

end Dns
end WifiRepeater
