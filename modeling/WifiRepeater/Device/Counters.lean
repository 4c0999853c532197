import WifiRepeater.Device.Monitor
import WifiRepeater.Dns.Service

/-!
# What the counters of the proxy count

The proxy tells the monitor of every query it answers, with its latency, and of every hit and
miss of its cache; the dashboard makes an average and a hit rate of that.  A query that is
dropped is not told of, one that is not parsed is no miss, and one that is never answered is a
miss and no query.  Every query that arrives has one fate, and the counters are sums over the
fates.

## Main definitions

* `Fate`, `fateOf` — what becomes of a query.
* `Counted`, `countedStep` — the service, with the fates and with what the monitor was told.
* `Tallied` — the invariant.

## Main results

* `turn_tally` — what one fate tells the monitor, and what it sends.
* `countedStep_tallied` — every step keeps the invariant.
* `counters_right` — **the counters are the sums over the fates, in every run.**
-/

namespace WifiRepeater
namespace Dns

open Monitor (BenchEvent benchStep Bench dnsLatencies httpLatencies latencySum Exact Represents)

/-! ### Fates -/

/-- What becomes of a query. -/
inductive Fate
  /-- No upstream server is known. -/
  | dropped
  /-- It is not parsed, and forwarded if that can be done. -/
  | unparsed
  /-- The captive portal takes it, and answers it or has no answer. -/
  | captive (answered : Bool)
  /-- It is answered from the cache. -/
  | hit
  /-- It is not in the cache, and forwarded if that can be done. -/
  | miss
  deriving DecidableEq

/-- The fate of a query, by the tests of the task. -/
def fateOf (f : ProxyFlags) (c : DnsCache) (now : ℤ) (d : Datagram) : Fate :=
  if f.hasUpstream = false then .dropped
  else
    match parseDnsQuery d.buf.bytes d.len qnameSize with
    | none => .unparsed
    | some (name, qtype) =>
        if f.captiveMode then .captive (captiveAnswer d qtype f.captiveIp).isSome
        else if ((dnsCacheLookup c (CStr.ofMem name) qtype dnsProxyBufSize now).1.filter
            fun resp => 0 < resp.length).isSome then .hit
        else .miss

namespace Fate

/-- The query counts as one of the proxy's. -/
def isRecorded : Fate → Bool
  | captive _ | hit => true
  | dropped | unparsed | miss => false

/-- It is answered at once. -/
def isAnswered : Fate → Bool
  | captive answered => answered
  | hit => true
  | dropped | unparsed | miss => false

/-- It is forwarded, or should be. -/
def isForwarded : Fate → Bool
  | unparsed | miss => true
  | dropped | captive _ | hit => false

/-- What the monitor is told. -/
def calls (latency : UInt32) : Fate → List BenchEvent
  | captive _ => [.dnsQuery latency]
  | hit => [.dnsQuery latency, .cacheHit]
  | miss => [.cacheMiss]
  | dropped | unparsed => []

end Fate

/-- What effects tell the monitor. -/
def benchCalls (es : List Effect) : List BenchEvent :=
  es.filterMap fun e =>
    match e with
    | .recordQuery latency => some (.dnsQuery latency)
    | .cacheHit => some .cacheHit
    | .cacheMiss => some .cacheMiss
    | _ => none

/-- **What one fate tells the monitor**, and what it sends; and only what is to be forwarded
is waited for. -/
theorem turn_tally (f : ProxyFlags) (c : DnsCache) (env : Surroundings) (client : Client)
    (d : Datagram) :
    benchCalls (dnsProxyTaskQuery f c env client d).effects
        = (fateOf f c env.now d).calls env.latency ∧
      (clientSends (dnsProxyTaskQuery f c env client d).effects).length
        = (if (fateOf f c env.now d).isAnswered then 1 else 0) ∧
      ((dnsProxyTaskQuery f c env client d).pending.isSome = true →
        (fateOf f c env.now d).isForwarded = true) := by
  have hturn := dnsProxyTaskQuery_cases f c env client d
  generalize dnsProxyTaskQuery f c env client d = turn at hturn ⊢
  cases hturn with
  | dropped hup =>
    have hfate : fateOf f c env.now d = .dropped := if_pos hup
    rw [hfate]
    exact ⟨rfl, rfl, fun h => absurd h Bool.false_ne_true⟩
  | unparsed hup hparse =>
    have hfate : fateOf f c env.now d = .unparsed := by simp [fateOf, hup, hparse]
    rw [hfate]
    exact ⟨rfl, rfl, fun _ => rfl⟩
  | @captive name qtype hup hparse hcap =>
    have hfate : fateOf f c env.now d = .captive (captiveAnswer d qtype f.captiveIp).isSome := by
      simp only [fateOf, hup, hparse, hcap, if_true, Bool.true_eq_false, if_false]
    rw [hfate]
    cases captiveAnswer d qtype f.captiveIp with
    | none => exact ⟨rfl, rfl, fun h => absurd h Bool.false_ne_true⟩
    | some bytes => exact ⟨rfl, rfl, fun h => absurd h Bool.false_ne_true⟩
  | hit hup hparse hcap hhit =>
    have hfate : fateOf f c env.now d = .hit := by simp [fateOf, hup, hparse, hcap, hhit]
    rw [hfate]
    exact ⟨rfl, rfl, fun h => absurd h Bool.false_ne_true⟩
  | miss hup hparse hcap hmiss =>
    have hfate : fateOf f c env.now d = .miss := by simp [fateOf, hup, hparse, hcap, hmiss]
    rw [hfate]
    exact ⟨rfl, rfl, fun _ => rfl⟩

/-! ### The record -/

/-- What an event does that others see. -/
def TimedTask.effects (s : TimedTask) : TimedEvent → List Effect
  | .handle clients forwarded clock =>
      match s.place with
      | .received start _ q => (s.query start q clients forwarded clock).effects
      | _ => []
  | .respond resp clock =>
      match s.place with
      | .waiting start _ _ p => (s.response start p resp clock).1
      | _ => []
  | _ => []

/-- The fate of the query that an event handles. -/
def TimedTask.fate (s : TimedTask) : TimedEvent → Option Fate
  | .handle _ _ clock =>
      match s.place with
      | .received _ _ q => some (fateOf s.flags s.cache clock q.datagram)
      | _ => none
  | _ => none

/-- The service, with the fates of the queries and with what the monitor was told. -/
structure Counted where
  service : Service
  /-- The fates of the queries that were handled, in their order. -/
  fates : List Fate
  /-- The calls of the monitor, in their order. -/
  calls : List BenchEvent

/-- The task has just started. -/
def startCounted (c : DnsCache) : Counted := ⟨startService c, [], []⟩

/-- What an event does, `none` when it cannot happen. -/
def countedStep (s : Counted) (e : TimedEvent) : Option Counted :=
  (serviceStep s.service e).map fun service =>
    ⟨service, s.fates ++ (s.service.task.fate e).toList,
      s.calls ++ benchCalls (s.service.task.effects e)⟩

/-- The query that is received and not yet handled. -/
def TaskPlace.toHandle : TaskPlace → ℕ
  | received .. => 1
  | top | receiving _ | waiting .. => 0

/-- The query that is waited with. -/
def TaskPlace.awaited : TaskPlace → ℕ
  | waiting .. => 1
  | top | receiving _ | received .. => 0

/-- A call that a query was answered. -/
def isQuery : BenchEvent → Bool
  | .dnsQuery _ => true
  | _ => false

/-- A call that the cache had the answer. -/
def isHit : BenchEvent → Bool
  | .cacheHit => true
  | _ => false

/-- A call that it had not. -/
def isMiss : BenchEvent → Bool
  | .cacheMiss => true
  | _ => false

/-- What every step keeps: what was told and what was sent, by the fates. -/
structure Tallied (s : Counted) : Prop where
  serving : Serving s.service
  /-- Every query has one fate, or is still to be handled. -/
  fates : s.service.arrived.length
    = s.fates.length + s.service.task.place.toHandle + s.service.task.socket.length
  /-- What comes back was forwarded. -/
  forwarded : s.service.responses.length + s.service.task.place.awaited
    ≤ s.fates.countP Fate.isForwarded
  answers : s.service.answers.length
    = s.fates.countP Fate.isAnswered + s.service.responses.length
  queries : s.calls.countP isQuery
    = s.fates.countP Fate.isRecorded + s.service.responses.length
  hits : s.calls.countP isHit = s.fates.countP (· = .hit)
  misses : s.calls.countP isMiss = s.fates.countP (· = .miss)

theorem Tallied.start (c : DnsCache) : Tallied (startCounted c) where
  serving := .start c
  fates := rfl
  forwarded := Nat.zero_le _
  answers := rfl
  queries := rfl
  hits := rfl
  misses := rfl

/-! ### The steps -/

/-- A step that handles no query and sends nothing. -/
theorem Tallied.quiet {s : Counted} (h : Tallied s) {service : Service} (hserving : Serving service)
    (hfates : service.arrived.length
      = s.fates.length + service.task.place.toHandle + service.task.socket.length)
    (hawaited : service.task.place.awaited ≤ s.service.task.place.awaited)
    (hanswers : service.answers = s.service.answers)
    (hresponses : service.responses = s.service.responses) :
    Tallied ⟨service, s.fates ++ [], s.calls ++ []⟩ := by
  rw [List.append_nil, List.append_nil]
  refine ⟨hserving, hfates, ?_, ?_, ?_, h.hits, h.misses⟩
  · have hforwarded := h.forwarded
    dsimp only
    rw [hresponses]
    omega
  · rw [hanswers, hresponses]
    exact h.answers
  · rw [hresponses]
    exact h.queries

/-- What one fate adds to the counts of the calls. -/
theorem countP_calls (fate : Fate) (latency : UInt32) :
    (fate.calls latency).countP isQuery = [fate].countP Fate.isRecorded ∧
      (fate.calls latency).countP isHit = [fate].countP (· = .hit) ∧
      (fate.calls latency).countP isMiss = [fate].countP (· = .miss) := by
  cases fate with
  | dropped | unparsed | hit | miss => exact ⟨rfl, rfl, rfl⟩
  | captive answered => exact ⟨rfl, rfl, rfl⟩

/-- A query is handled. -/
theorem Tallied.handle {s : Counted} (h : Tallied s) {start since clock : ℕ} {q : Arrived}
    (hplace : s.service.task.place = .received start since q)
    (clients : Option (List ApClientInfo)) (forwarded : Bool) {task : TimedTask}
    (hserving : Serving { s.service.record (.handle clients forwarded clock) with task := task })
    (hsocket : task.socket = s.service.task.socket)
    (hnext : task.place = match (s.service.task.query start q clients forwarded clock).pending with
      | none => .top
      | some p => .waiting start s.service.task.now q.arrival p) :
    Tallied ⟨{ s.service.record (.handle clients forwarded clock) with task := task },
      s.fates ++ (s.service.task.fate (.handle clients forwarded clock)).toList,
      s.calls ++ benchCalls (s.service.task.effects (.handle clients forwarded clock))⟩ := by
  obtain ⟨hcalls, hsends, hpending⟩ := turn_tally s.service.task.flags s.service.task.cache
    ⟨clients, clock, elapsed start s.service.task.now, forwarded⟩ q.client q.datagram
  have hfates := h.fates
  have hforwarded := h.forwarded
  have hanswers := h.answers
  have hqueries := h.queries
  have hhits := h.hits
  have hmisses := h.misses
  simp only [Service.record, hplace, TimedTask.fate, TimedTask.effects, TimedTask.query,
    Option.toList_some, hcalls] at hserving hnext ⊢
  rw [hplace] at hfates hforwarded
  generalize fateOf _ _ _ _ = fate at hsends hpending ⊢
  generalize (dnsProxyTaskQuery _ _ _ _ _).pending = pending at hnext hpending
  obtain ⟨hquery, hhit, hmiss⟩ := countP_calls fate (elapsed start s.service.task.now)
  refine ⟨hserving, ?_, ?_, ?_, ?_, ?_, ?_⟩
  · have hzero : task.place.toHandle = 0 := by
      rw [hnext]
      cases pending <;> rfl
    have hone : (TaskPlace.received start since q).toHandle = 1 := rfl
    simp only [List.length_append, List.length_singleton, hzero, hsocket]
    omega
  · have hawaited : task.place.awaited ≤ [fate].countP Fate.isForwarded := by
      rw [hnext]
      cases pending with
      | none => exact Nat.zero_le _
      | some p =>
        rw [List.countP_singleton, if_pos (hpending rfl)]
        exact le_rfl
    have hzero : (TaskPlace.received start since q).awaited = 0 := rfl
    simp only [List.countP_append]
    omega
  · simp only [List.length_append, List.length_map, hsends, List.countP_append,
      List.countP_singleton]
    omega
  · simp only [List.countP_append, hquery]
    omega
  · simp only [List.countP_append, hhit]
    omega
  · simp only [List.countP_append, hmiss]
    omega

/-- A response is sent on. -/
theorem Tallied.respond {s : Counted} (h : Tallied s) {start since arrival clock : ℕ} {p : Pending}
    (hplace : s.service.task.place = .waiting start since arrival p) (resp : List UInt8)
    {task : TimedTask}
    (hserving : Serving { s.service.record (.respond resp clock) with task := task })
    (hsocket : task.socket = s.service.task.socket) (hnext : task.place = .top) :
    Tallied ⟨{ s.service.record (.respond resp clock) with task := task },
      s.fates ++ (s.service.task.fate (.respond resp clock)).toList,
      s.calls ++ benchCalls (s.service.task.effects (.respond resp clock))⟩ := by
  have hfates := h.fates
  have hforwarded := h.forwarded
  have hanswers := h.answers
  have hqueries := h.queries
  have hfollows := h.serving.place
  rw [hplace] at hfates hforwarded hfollows
  obtain ⟨-, q, hcurrent, -, -⟩ := hfollows
  have hsends : clientSends (s.service.task.response start p resp clock).1 = [(p.client, resp)] :=
    rfl
  have hcalls : benchCalls (s.service.task.response start p resp clock).1
      = [.dnsQuery (elapsed start s.service.task.now)] := rfl
  have hzero : task.place.toHandle = 0 ∧ task.place.awaited = 0 := by
    rw [hnext]
    exact ⟨rfl, rfl⟩
  have hbefore : (TaskPlace.waiting start since arrival p).toHandle = 0 ∧
      (TaskPlace.waiting start since arrival p).awaited = 1 := ⟨rfl, rfl⟩
  simp only [Service.record, hplace, hcurrent, TimedTask.fate, TimedTask.effects, hsends, hcalls,
    Option.toList_none, List.append_nil] at hserving ⊢
  refine ⟨hserving, ?_, ?_, ?_, ?_, ?_, ?_⟩
  · simp only [hzero.1, hsocket]
    omega
  · simp only [hzero.2, List.length_append, List.length_singleton]
    omega
  · simp only [List.length_append, List.map_singleton, List.length_singleton]
    omega
  · have hone : [BenchEvent.dnsQuery (elapsed start s.service.task.now)].countP isQuery = 1 := rfl
    simp only [List.countP_append, hone, List.length_append, List.length_singleton]
    omega
  · rw [List.countP_append]
    exact h.hits
  · rw [List.countP_append]
    exact h.misses

/-- **Every step keeps the invariant.** -/
theorem countedStep_tallied {s s' : Counted} {e : TimedEvent} (h : Tallied s)
    (hs : countedStep s e = some s') : Tallied s' := by
  obtain ⟨service, hservice, rfl⟩ := Option.map_eq_some_iff.mp hs
  have hserving := serviceStep_serving h.serving hservice
  obtain ⟨task, htask, rfl⟩ := Option.map_eq_some_iff.mp hservice
  have hfates := h.fates
  cases e with
  | pass d =>
    obtain rfl := Option.some.inj htask
    exact h.quiet hserving hfates le_rfl rfl rfl
  | control call =>
    obtain rfl := Option.some.inj htask
    exact h.quiet hserving hfates le_rfl rfl rfl
  | arrive client d =>
    obtain rfl := Option.some.inj htask
    refine h.quiet hserving ?_ le_rfl rfl rfl
    simp only [Service.record, List.length_append, List.length_singleton]
    omega
  | listen =>
    cases hplace : s.service.task.place with
    | top =>
      simp only [timedStep, hplace, Option.some.injEq] at htask
      subst htask
      rw [hplace] at hfates
      exact h.quiet hserving hfates (Nat.zero_le _) rfl rfl
    | receiving | received | waiting => simp [timedStep, hplace] at htask
  | recvFailed =>
    cases hplace : s.service.task.place with
    | receiving start =>
      simp only [timedStep, hplace, Option.some.injEq] at htask
      subst htask
      rw [hplace] at hfates
      exact h.quiet hserving hfates (Nat.zero_le _) rfl rfl
    | top | received | waiting => simp [timedStep, hplace] at htask
  | receive =>
    cases hplace : s.service.task.place with
    | receiving start =>
      cases hsocket : s.service.task.socket with
      | nil => simp [timedStep, hplace, hsocket] at htask
      | cons q socket =>
        simp only [timedStep, hplace, hsocket, Option.some.injEq] at htask
        subst htask
        rw [hplace, hsocket] at hfates
        refine h.quiet hserving ?_ (Nat.zero_le _) rfl rfl
        simp only [Service.record, TaskPlace.toHandle, List.length_cons] at hfates ⊢
        omega
    | top | received | waiting => simp [timedStep, hplace] at htask
  | handle clients forwarded clock =>
    cases hplace : s.service.task.place with
    | received start since q =>
      simp only [timedStep, hplace] at htask
      split_ifs at htask with hclock
      obtain rfl := Option.some.inj htask
      exact h.handle hplace clients forwarded hserving rfl rfl
    | top | receiving | waiting => simp [timedStep, hplace] at htask
  | respond resp clock =>
    cases hplace : s.service.task.place with
    | waiting start since arrival p =>
      simp only [timedStep, hplace] at htask
      split_ifs at htask with hclock
      obtain rfl := Option.some.inj htask
      exact h.respond hplace resp hserving rfl rfl
    | top | receiving | received => simp [timedStep, hplace] at htask
  | noResponse =>
    cases hplace : s.service.task.place with
    | waiting start since arrival p =>
      simp only [timedStep, hplace, Option.some.injEq] at htask
      subst htask
      rw [hplace] at hfates
      exact h.quiet hserving hfates (Nat.zero_le _) rfl rfl
    | top | receiving | received => simp [timedStep, hplace] at htask

/-! ### The counters -/

/-- No query is both recorded and forwarded. -/
theorem countP_recorded_add_forwarded_le (fates : List Fate) :
    fates.countP Fate.isRecorded + fates.countP Fate.isForwarded ≤ fates.length := by
  induction fates with
  | nil => exact le_rfl
  | cons fate fates ih =>
    rw [List.countP_cons, List.countP_cons, List.length_cons]
    cases fate <;> simp only [Fate.isRecorded, Fate.isForwarded, if_true, Bool.false_eq_true,
      if_false] <;> omega

/-- What the counters of the cache say after some calls. -/
theorem exec_cache {calls : List BenchEvent} {b b' : Bench}
    (h : Machine.exec benchStep b calls = some b') :
    b'.dnsCacheHits = b.dnsCacheHits + UInt32.ofNat (calls.countP isHit) ∧
      b'.dnsCacheMisses = b.dnsCacheMisses + UInt32.ofNat (calls.countP isMiss) := by
  induction calls generalizing b with
  | nil =>
    rw [Machine.exec, Option.some.injEq] at h
    rw [← h]
    exact ⟨(UInt32.add_zero _).symm, (UInt32.add_zero _).symm⟩
  | cons call calls ih =>
    rw [Machine.exec, Option.bind_eq_some_iff] at h
    obtain ⟨m, hm, h⟩ := h
    obtain ⟨hhits, hmisses⟩ := ih h
    cases call with
    | dnsQuery latency =>
      obtain ⟨l, -, rfl⟩ := Option.map_eq_some_iff.mp hm
      exact ⟨hhits, hmisses⟩
    | httpRequest latency =>
      obtain ⟨l, -, rfl⟩ := Option.map_eq_some_iff.mp hm
      exact ⟨hhits, hmisses⟩
    | cacheHit =>
      obtain rfl := Option.some.inj hm
      refine ⟨?_, hmisses⟩
      rw [hhits, List.countP_cons_of_pos rfl, UInt32.ofNat_add, UInt32.add_comm (UInt32.ofNat _),
        ← UInt32.add_assoc]
      rfl
    | cacheMiss =>
      obtain rfl := Option.some.inj hm
      refine ⟨hhits, ?_⟩
      rw [hmisses, List.countP_cons_of_pos rfl, UInt32.ofNat_add, UInt32.add_comm (UInt32.ofNat _),
        ← UInt32.add_assoc]
      rfl

/-- A call of the proxy. -/
def isProxyCall : BenchEvent → Bool
  | .httpRequest _ => false
  | _ => true

/-- The calls of the web server change nothing of what the proxy's say. -/
theorem of_filter {all calls : List BenchEvent} (h : all.filter isProxyCall = calls) :
    dnsLatencies all = dnsLatencies calls ∧ all.countP isHit = calls.countP isHit ∧
      all.countP isMiss = calls.countP isMiss := by
  subst h
  induction all with
  | nil => exact ⟨rfl, rfl, rfl⟩
  | cons call all ih =>
    obtain ⟨hlatencies, hhits, hmisses⟩ := ih
    cases call with
    | httpRequest latency => exact ⟨hlatencies, hhits, hmisses⟩
    | dnsQuery latency => exact ⟨congrArg (latency :: ·) hlatencies, hhits, hmisses⟩
    | cacheHit =>
      refine ⟨hlatencies, ?_, hmisses⟩
      rw [List.filter_cons_of_pos rfl, List.countP_cons_of_pos rfl, List.countP_cons_of_pos rfl,
        hhits]
    | cacheMiss =>
      refine ⟨hlatencies, hhits, ?_⟩
      rw [List.filter_cons_of_pos rfl, List.countP_cons_of_pos rfl, List.countP_cons_of_pos rfl,
        hmisses]

theorem length_dnsLatencies (calls : List BenchEvent) :
    (dnsLatencies calls).length = calls.countP isQuery := by
  induction calls with
  | nil => rfl
  | cons call calls ih =>
    cases call with
    | dnsQuery latency =>
      rw [List.countP_cons_of_pos rfl, ← ih]
      rfl
    | httpRequest latency | cacheHit | cacheMiss => exact ih

/-- The counters are the sums over the fates. -/
structure CountersRight (s : Counted) (b : Bench) : Prop where
  /-- Every query has one fate, but for those that are still to be handled. -/
  fates : s.service.arrived.length
    = s.fates.length + s.service.task.place.toHandle + s.service.task.socket.length
  /-- The queries are those that the captive portal took, the hits, and those for which a
  response came. -/
  queries : b.dns.count.toNat = s.fates.countP Fate.isRecorded + s.service.responses.length
  /-- A response comes for a query that was forwarded. -/
  responses : s.service.responses.length ≤ s.fates.countP Fate.isForwarded
  /-- The answers are as many, but for the queries that the portal had no answer to. -/
  answers : s.service.answers.length
    = s.fates.countP Fate.isAnswered + s.service.responses.length
  hits : b.dnsCacheHits.toNat = s.fates.countP (· = .hit)
  misses : b.dnsCacheMisses.toNat = s.fates.countP (· = .miss)
  /-- While the sum of the latencies has 32 bits, average and maximum are theirs. -/
  latencies : latencySum (dnsLatencies s.calls) < 2 ^ 32 → Exact (dnsLatencies s.calls) b.dns

/-- **The counters are the sums over the fates, in every run** in which fewer than 2^32 queries
arrive and fewer than 2^32 HTTP requests are recorded in between: no call divides by zero, the
counters do not wrap, and they say how many queries had which fate. -/
theorem counters_right {c : DnsCache} {es : List TimedEvent} {s : Counted}
    (hs : Machine.exec countedStep (startCounted c) es = some s)
    (hlt : s.service.arrived.length < 2 ^ 32) {all : List BenchEvent}
    (hall : all.filter isProxyCall = s.calls) (hhttp : (httpLatencies all).length < 2 ^ 32) :
    ∃ b, Machine.exec benchStep Monitor.initialized all = some b ∧ CountersRight s b := by
  have hreach : Machine.Reach countedStep (fun _ _ => True) (startCounted c) s :=
    Machine.reach_of_exec (Machine.admitted_of_forall fun _ _ => trivial) hs
  have h : Tallied s := hreach.invariant (.start c) fun _ _ _ h _ hs => countedStep_tallied h hs
  obtain ⟨hlatencies, hhits, hmisses⟩ := of_filter hall
  have hfates := h.fates
  have hforwarded := h.forwarded
  have hsum := countP_recorded_add_forwarded_le s.fates
  have hcount : (dnsLatencies all).length
      = s.fates.countP Fate.isRecorded + s.service.responses.length := by
    rw [hlatencies, length_dnsLatencies, h.queries]
  have hhitsle : s.fates.countP (· = .hit) ≤ s.fates.length := List.countP_le_length
  have hmissesle : s.fates.countP (· = .miss) ≤ s.fates.length := List.countP_le_length
  have hzero : (0 : UInt32).toNat = 0 := rfl
  obtain ⟨b, hb⟩ := Monitor.exists_exec all Monitor.initialized
    (by show (0 : UInt32).toNat + _ < _; omega) (by show (0 : UInt32).toNat + _ < _; omega)
  have hrepresents : Represents (dnsLatencies all) b.dns :=
    Monitor.represents_zero.exec (Monitor.exec_dns hb)
  obtain ⟨hbhits, hbmisses⟩ := exec_cache hb
  have hzerohits : Monitor.initialized.dnsCacheHits = 0 := rfl
  have hzeromisses : Monitor.initialized.dnsCacheMisses = 0 := rfl
  refine ⟨b, hb, h.fates, ?_, by omega, h.answers, ?_, ?_, fun hsmall => ?_⟩
  · rw [hrepresents.count, UInt32.toNat_ofNat', hcount, Nat.mod_eq_of_lt (by omega)]
  · rw [hbhits, hzerohits, UInt32.zero_add, UInt32.toNat_ofNat', hhits, h.hits,
      Nat.mod_eq_of_lt (by omega)]
  · rw [hbmisses, hzeromisses, UInt32.zero_add, UInt32.toNat_ofNat', hmisses, h.misses,
      Nat.mod_eq_of_lt (by omega)]
  · rw [← hlatencies] at hsmall ⊢
    exact hrepresents.exact_iff.mpr ⟨by omega, hsmall⟩

/-- The run of one stray datagram: it is no miss, and one query. -/
theorem stray_counted :
    ∃ s b, Machine.exec countedStep (startCounted zeroCache) strayRun = some s ∧
      s.fates = [.unparsed] ∧ Machine.exec benchStep Monitor.initialized s.calls = some b ∧
      CountersRight s b := by
  obtain ⟨s, hs, hfates, hcalls, harrived⟩ : ∃ s,
      Machine.exec countedStep (startCounted zeroCache) strayRun = some s ∧
        s.fates = [.unparsed] ∧ s.calls = [.dnsQuery 0] ∧ s.service.arrived.length = 1 :=
    ⟨_, rfl, rfl, rfl, rfl⟩
  have hall : s.calls.filter isProxyCall = s.calls := by rw [hcalls]; rfl
  obtain ⟨b, hb, hright⟩ := counters_right hs (by rw [harrived]; decide) hall
    (by rw [hcalls]; decide)
  exact ⟨s, b, hs, hfates, hb, hright⟩

end Dns
end WifiRepeater
