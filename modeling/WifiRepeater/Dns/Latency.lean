import Mathlib.Algebra.Group.Nat.Defs
import WifiRepeater.Dns.Proxy
import WifiRepeater.Lib.Machine

/-!
# What the latency of a query includes

`dns_proxy_task` starts a timer at the top of its loop, by the comment "for this query",
waits for a query, answers it, and records what the timer says.  The wait for the query is
between the start and the record: a query that finds the proxy idle is recorded with the
idle time, and one that had to lie in the socket is recorded without the time it lay
there.

Here the task runs against a clock.  Time passes when it likes; a datagram is stamped when
it reaches the listening socket, and a reply when it has been sent and the timer is read.
The task handles a query at the time of its last step, while the cache may have looked at
the clock earlier.  A run ends where the task is stopped.

## Main definitions

* `TimedTask`, `TimedEvent`, `timedStep` — the task, its socket and the clock.
* `Measured`, `LatencyIsOwn` — the replies with what was recorded, and what should be.
* `OwnTimer` — a reply is sent when the timer measures the query's own time.

## Main results

* `toNat_elapsed_eq_iff` — one timer.
* `latencyIsOwn_iff` — **every run.**
* `idle_time_recorded` — two runs that differ in the idle time only.
-/

namespace WifiRepeater
namespace Dns

/-! ### The machine -/

/-- `BENCHMARK_GET_ELAPSED`, for a timer started at `start`. -/
def elapsed (start now : ℕ) : UInt32 := UInt32.ofNat (now - start)

/-- A query in the listening socket. -/
structure Arrived where
  /-- Who asks. -/
  client : Client
  /-- The query, as it will lie in the task's buffer. -/
  datagram : Datagram
  /-- When it reached the socket, in microseconds. -/
  arrival : ℕ

/-- Where the task stands; `start` is the variable of `BENCHMARK_START`. -/
inductive TaskPlace
  /-- At the top of the loop. -/
  | top
  /-- In `recvfrom` on the listening socket. -/
  | receiving (start : ℕ)
  /-- `recvfrom` has returned a query, at the time `since`. -/
  | received (start since : ℕ) (q : Arrived)
  /-- The query has been forwarded, at the time `since`; the task waits for the response. -/
  | waiting (start since arrival : ℕ) (p : Pending)

/-- A reply to a client, with the latencies recorded in its turn. -/
structure Measured where
  /-- When the query reached the socket. -/
  arrival : ℕ
  /-- When the reply had been sent. -/
  replied : ℕ
  /-- The arguments of `sys_monitor_record_dns_query`. -/
  latencies : List UInt32
  deriving DecidableEq

/-- The task, its listening socket, and the clock. -/
structure TimedTask where
  /-- `esp_timer_get_time`. -/
  now : ℕ
  /-- The static variables of the task. -/
  flags : ProxyFlags
  /-- The cache. -/
  cache : DnsCache
  /-- The queries in the listening socket, in the order they came. -/
  socket : List Arrived
  /-- Where the task stands. -/
  place : TaskPlace
  /-- The replies sent so far. -/
  measured : List Measured

/-- The task has just started. -/
def startTimed (c : DnsCache) : TimedTask :=
  ⟨0, ProxyFlags.initial, dnsCacheInit c, [], .top, []⟩

/-- What can happen. -/
inductive TimedEvent
  /-- Time passes. -/
  | pass (d : ℕ)
  /-- Another module steers the task. -/
  | control (call : ControlCall)
  /-- A query reaches the listening socket. -/
  | arrive (client : Client) (d : Datagram)
  /-- The task starts the timer and calls `recvfrom`. -/
  | listen
  /-- `recvfrom` returns without a query: a timeout, or an error. -/
  | recvFailed
  /-- `recvfrom` returns the oldest query. -/
  | receive
  /-- The query is dropped, answered or forwarded; the cache has read `clock`. -/
  | handle (clients : Option (List ApClientInfo)) (forwarded : Bool) (clock : ℕ)
  /-- The response has come and has been sent on; the cache has read `clock`. -/
  | respond (resp : List UInt8) (clock : ℕ)
  /-- No response has come in time. -/
  | noResponse

/-- The latencies that are recorded. -/
def recorded (es : List Effect) : List UInt32 :=
  es.filterMap fun e =>
    match e with
    | .recordQuery latency => some latency
    | _ => none

/-- The replies of a turn that has the effects `es`. -/
def measure (arrival now : ℕ) (es : List Effect) : List Measured :=
  (clientSends es).map fun _ => ⟨arrival, now, recorded es⟩

/-- The query half of a turn that has the timer `start`. -/
def TimedTask.query (s : TimedTask) (start : ℕ) (q : Arrived)
    (clients : Option (List ApClientInfo)) (forwarded : Bool) (clock : ℕ) : Turn :=
  dnsProxyTaskQuery s.flags s.cache ⟨clients, clock, elapsed start s.now, forwarded⟩ q.client
    q.datagram

/-- The response half. -/
def TimedTask.response (s : TimedTask) (start : ℕ) (p : Pending) (resp : List UInt8)
    (clock : ℕ) : List Effect × DnsCache :=
  dnsProxyTaskResponse s.cache ⟨none, clock, elapsed start s.now, false⟩ p (some resp)

/-- What an event does, `none` when it cannot happen. -/
def timedStep (s : TimedTask) : TimedEvent → Option TimedTask
  | .pass d => some { s with now := s.now + d }
  | .control call => some { s with flags := call.apply s.flags }
  | .arrive client d => some { s with socket := s.socket ++ [⟨client, d, s.now⟩] }
  | .listen =>
      match s.place with
      | .top => some { s with place := .receiving s.now }
      | _ => none
  | .recvFailed =>
      match s.place with
      | .receiving _ => some { s with place := .top }
      | _ => none
  | .receive =>
      match s.place, s.socket with
      | .receiving start, q :: socket =>
          some { s with socket := socket, place := .received start s.now q }
      | _, _ => none
  | .handle clients forwarded clock =>
      match s.place with
      | .received start since q =>
          if since ≤ clock ∧ clock ≤ s.now then
            let turn := s.query start q clients forwarded clock
            some { s with
              cache := turn.cache
              place := match turn.pending with
                | none => .top
                | some p => .waiting start s.now q.arrival p
              measured := s.measured ++ measure q.arrival s.now turn.effects }
          else none
      | _ => none
  | .respond resp clock =>
      match s.place with
      | .waiting start since arrival p =>
          if since ≤ clock ∧ clock ≤ s.now then
            let r := s.response start p resp clock
            some { s with
              cache := r.2
              place := .top
              measured := s.measured ++ measure arrival s.now r.1 }
          else none
      | _ => none
  | .noResponse =>
      match s.place with
      | .waiting .. => some { s with place := .top }
      | _ => none

/-! ### What should hold -/

/-- One latency is recorded for the reply: the time from the arrival of the query to the
reply. -/
def Measured.Own (m : Measured) : Prop :=
  m.latencies.map UInt32.toNat = [m.replied - m.arrival]

instance (m : Measured) : Decidable m.Own := inferInstanceAs (Decidable (_ = _))

/-- **The latencies are the queries' own.** -/
def LatencyIsOwn (s : TimedTask) : Prop := ∀ m ∈ s.measured, m.Own

/-- The timer was started when the query arrived, and has not come round since. -/
def TimerIsOwn (start arrival now : ℕ) : Prop :=
  now - arrival < 2 ^ 32 ∧ start % 2 ^ 32 = arrival % 2 ^ 32

/-- If the event sends a reply, the timer is the query's own. -/
def OwnTimer (s : TimedTask) : TimedEvent → Prop
  | .handle clients forwarded clock =>
      ∀ start since q, s.place = .received start since q → since ≤ clock ∧ clock ≤ s.now →
        clientSends (s.query start q clients forwarded clock).effects ≠ [] →
          TimerIsOwn start q.arrival s.now
  | .respond _ clock =>
      ∀ start since arrival p, s.place = .waiting start since arrival p →
        since ≤ clock ∧ clock ≤ s.now → TimerIsOwn start arrival s.now
  | _ => True

/-! ### One turn -/

/-- **One timer** is right exactly if it is the query's own. -/
theorem toNat_elapsed_eq_iff {start arrival now : ℕ} (hstart : start ≤ now)
    (harrival : arrival ≤ now) :
    (elapsed start now).toNat = now - arrival ↔ TimerIsOwn start arrival now := by
  rw [elapsed, UInt32.toNat_ofNat', TimerIsOwn]
  omega

/-- The query half that replies records the timer. -/
theorem recorded_query {f : ProxyFlags} {c : DnsCache} {env : Surroundings} {client : Client}
    {d : Datagram} (h : clientSends (dnsProxyTaskQuery f c env client d).effects ≠ []) :
    recorded (dnsProxyTaskQuery f c env client d).effects = [env.latency] := by
  have hturn := dnsProxyTaskQuery_cases f c env client d
  generalize dnsProxyTaskQuery f c env client d = turn at h hturn ⊢
  cases hturn with
  | dropped | unparsed | miss => exact absurd rfl h
  | captive =>
    -- recorded whether or not there was an answer
    cases captiveAnswer d _ f.captiveIp <;> rfl
  | hit => rfl

/-- So does the response half. -/
theorem recorded_response (c : DnsCache) (env : Surroundings) (p : Pending) (resp : List UInt8) :
    recorded (dnsProxyTaskResponse c env p (some resp)).1 = [env.latency] := rfl

/-- A turn's replies have their own latency exactly if its timer has it. -/
theorem forall_measure_iff {es : List Effect} {latency : UInt32} {arrival now : ℕ}
    (h : clientSends es ≠ [] → recorded es = [latency]) :
    (∀ m ∈ measure arrival now es, m.Own) ↔
      (clientSends es ≠ [] → latency.toNat = now - arrival) := by
  by_cases hes : clientSends es = []
  · simp [measure, hes]
  · obtain ⟨sent, hsent⟩ := List.exists_mem_of_ne_nil _ hes
    rw [measure, List.forall_mem_map, h hes]
    constructor
    · intro hall _
      exact List.singleton_injective (hall sent hsent)
    · intro hlat _ _
      exact congrArg (fun n => [n]) (hlat hes)

/-! ### Every run -/

/-- What the task remembers lies in the past. -/
def TaskPlace.Past (now : ℕ) : TaskPlace → Prop
  | .top => True
  | .receiving start => start ≤ now
  | .received start _ q => start ≤ now ∧ q.arrival ≤ now
  | .waiting start _ arrival _ => start ≤ now ∧ arrival ≤ now

/-- The stamps of a state lie in the past. -/
structure Stamped (s : TimedTask) : Prop where
  /-- Those in the socket. -/
  socket : ∀ q ∈ s.socket, q.arrival ≤ s.now
  /-- Those of the turn. -/
  place : s.place.Past s.now

theorem TaskPlace.Past.pass {now : ℕ} {place : TaskPlace} (h : place.Past now) (d : ℕ) :
    place.Past (now + d) := by
  cases place with
  | top => trivial
  | receiving start => exact Nat.le_add_right_of_le h
  | received start since q => exact ⟨Nat.le_add_right_of_le h.1, Nat.le_add_right_of_le h.2⟩
  | waiting start since arrival p =>
    exact ⟨Nat.le_add_right_of_le h.1, Nat.le_add_right_of_le h.2⟩

/-- Every step keeps the stamps in the past. -/
theorem timedStep_stamped {s s' : TimedTask} {e : TimedEvent} (h : Stamped s)
    (hs : timedStep s e = some s') : Stamped s' := by
  obtain ⟨now, flags, cache, socket, place, measured⟩ := s
  obtain ⟨hsocket, hplace⟩ := h
  cases e with
  | pass d =>
    obtain rfl := Option.some.inj hs
    exact ⟨fun q hq => Nat.le_add_right_of_le (hsocket q hq), hplace.pass d⟩
  | control call =>
    obtain rfl := Option.some.inj hs
    exact ⟨hsocket, hplace⟩
  | arrive client d =>
    obtain rfl := Option.some.inj hs
    refine ⟨fun q hq => ?_, hplace⟩
    rcases List.mem_append.mp hq with hq | hq
    · exact hsocket q hq
    · rw [List.mem_singleton.mp hq]
  | listen =>
    cases place with
    | top => obtain rfl := Option.some.inj hs; exact ⟨hsocket, le_rfl⟩
    | receiving | received | waiting => simp [timedStep] at hs
  | recvFailed =>
    cases place with
    | receiving start => obtain rfl := Option.some.inj hs; exact ⟨hsocket, trivial⟩
    | top | received | waiting => simp [timedStep] at hs
  | receive =>
    cases place with
    | receiving start =>
      cases socket with
      | nil => simp [timedStep] at hs
      | cons q socket =>
        obtain rfl := Option.some.inj hs
        exact ⟨fun q' hq' => hsocket q' (List.mem_cons_of_mem _ hq'), hplace,
          hsocket q List.mem_cons_self⟩
    | top | received | waiting => simp [timedStep] at hs
  | handle clients forwarded clock =>
    cases place with
    | received start since q =>
      by_cases hclock : since ≤ clock ∧ clock ≤ now
      · simp only [timedStep, if_pos hclock, Option.some.injEq] at hs
        subst hs
        refine ⟨hsocket, ?_⟩
        dsimp only
        split
        · trivial
        · exact hplace
      · simp [timedStep, if_neg hclock] at hs
    | top | receiving | waiting => simp [timedStep] at hs
  | respond resp clock =>
    cases place with
    | waiting start since arrival p =>
      by_cases hclock : since ≤ clock ∧ clock ≤ now
      · simp only [timedStep, if_pos hclock, Option.some.injEq] at hs
        subst hs
        exact ⟨hsocket, trivial⟩
      · simp [timedStep, if_neg hclock] at hs
    | top | receiving | received => simp [timedStep] at hs
  | noResponse =>
    cases place with
    | waiting start since arrival p => obtain rfl := Option.some.inj hs; exact ⟨hsocket, trivial⟩
    | top | receiving | received => simp [timedStep] at hs

/-- A turn leaves the latencies right exactly if it sends no reply or has the query's own
timer. -/
theorem latencyIsOwn_iff_of_measured {s s' : TimedTask} {es : List Effect} {start arrival : ℕ}
    (hown : LatencyIsOwn s) (hmeasured : s'.measured = s.measured ++ measure arrival s.now es)
    (hrecorded : clientSends es ≠ [] → recorded es = [elapsed start s.now])
    (hstart : start ≤ s.now) (harrival : arrival ≤ s.now) :
    LatencyIsOwn s' ↔ (clientSends es ≠ [] → TimerIsOwn start arrival s.now) := by
  rw [← toNat_elapsed_eq_iff hstart harrival, ← forall_measure_iff hrecorded, LatencyIsOwn,
    hmeasured, List.forall_mem_append]
  exact and_iff_right hown

/-- A query is handled. -/
theorem timedStep_handle {s : TimedTask} {start since clock : ℕ} {q : Arrived}
    (clients : Option (List ApClientInfo)) (forwarded : Bool)
    (hplace : s.place = .received start since q) (hclock : since ≤ clock ∧ clock ≤ s.now) :
    ∃ s', timedStep s (.handle clients forwarded clock) = some s' ∧ s'.measured =
      s.measured ++ measure q.arrival s.now (s.query start q clients forwarded clock).effects := by
  simp only [timedStep, hplace, if_pos hclock]
  exact ⟨_, rfl, rfl⟩

/-- A response is sent on. -/
theorem timedStep_respond {s : TimedTask} {start since arrival clock : ℕ} {p : Pending}
    (resp : List UInt8) (hplace : s.place = .waiting start since arrival p)
    (hclock : since ≤ clock ∧ clock ≤ s.now) :
    ∃ s', timedStep s (.respond resp clock) = some s' ∧ s'.measured =
      s.measured ++ measure arrival s.now (s.response start p resp clock).1 := by
  simp only [timedStep, hplace, if_pos hclock]
  exact ⟨_, rfl, rfl⟩

/-- Nothing else measures anything. -/
theorem measured_of_quiet {s s' : TimedTask} {e : TimedEvent}
    (hhandle : ∀ clients forwarded clock, e ≠ .handle clients forwarded clock)
    (hrespond : ∀ resp clock, e ≠ .respond resp clock) (hs : timedStep s e = some s') :
    s'.measured = s.measured := by
  obtain ⟨now, flags, cache, socket, place, measured⟩ := s
  cases e with
  | pass | control | arrive => obtain rfl := Option.some.inj hs; rfl
  | listen | recvFailed | noResponse => cases place <;> cases hs; rfl
  | receive => cases place <;> cases socket <;> cases hs; rfl
  | handle clients forwarded clock => exact absurd rfl (hhandle _ _ _)
  | respond resp clock => exact absurd rfl (hrespond _ _)

/-- Handling a query keeps the latencies right exactly if the timer is its own. -/
theorem ownTimer_handle_iff {s : TimedTask} (h : Stamped s) (hown : LatencyIsOwn s)
    (clients : Option (List ApClientInfo)) (forwarded : Bool) (clock : ℕ) :
    OwnTimer s (.handle clients forwarded clock) ↔
      ∀ s' ∈ timedStep s (.handle clients forwarded clock), LatencyIsOwn s' := by
  by_cases hcan : ∃ start since q, s.place = .received start since q ∧
      since ≤ clock ∧ clock ≤ s.now
  · obtain ⟨start, since, q, hplace, hclock⟩ := hcan
    obtain ⟨s', hs', hmeasured⟩ := timedStep_handle clients forwarded hplace hclock
    obtain ⟨hstart, harrival⟩ : start ≤ s.now ∧ q.arrival ≤ s.now :=
      (hplace ▸ h.place : (TaskPlace.received start since q).Past s.now)
    have hturn := latencyIsOwn_iff_of_measured hown hmeasured recorded_query hstart harrival
    simp only [hs', Option.mem_some_iff, forall_eq', hturn]
    constructor
    · exact fun htimer => htimer start since q hplace hclock
    · rintro htimer start' since' q' hplace' -
      obtain ⟨rfl, rfl, rfl⟩ := TaskPlace.received.inj (hplace.symm.trans hplace')
      exact htimer
  · -- there is no query, or the cache cannot have read this
    refine iff_of_true (fun start since q hplace hclock => ?_) fun s' hs' => ?_
    · exact absurd ⟨start, since, q, hplace, hclock⟩ hcan
    · cases hplace : s.place <;> simp only [timedStep, hplace, Option.mem_def, reduceCtorEq] at hs'
      split at hs'
      · next hclock => exact absurd ⟨_, _, _, hplace, hclock⟩ hcan
      · cases hs'

/-- So does sending a response on. -/
theorem ownTimer_respond_iff {s : TimedTask} (h : Stamped s) (hown : LatencyIsOwn s)
    (resp : List UInt8) (clock : ℕ) :
    OwnTimer s (.respond resp clock) ↔
      ∀ s' ∈ timedStep s (.respond resp clock), LatencyIsOwn s' := by
  by_cases hcan : ∃ start since arrival p, s.place = .waiting start since arrival p ∧
      since ≤ clock ∧ clock ≤ s.now
  · obtain ⟨start, since, arrival, p, hplace, hclock⟩ := hcan
    obtain ⟨s', hs', hmeasured⟩ := timedStep_respond resp hplace hclock
    obtain ⟨hstart, harrival⟩ : start ≤ s.now ∧ arrival ≤ s.now :=
      (hplace ▸ h.place : (TaskPlace.waiting start since arrival p).Past s.now)
    have hturn := latencyIsOwn_iff_of_measured hown hmeasured
      (fun _ => recorded_response _ _ _ _) hstart harrival
    simp only [hs', Option.mem_some_iff, forall_eq', hturn]
    constructor
    · exact fun htimer _ => htimer start since arrival p hplace hclock
    · rintro htimer start' since' arrival' p' hplace' -
      obtain ⟨rfl, rfl, rfl, rfl⟩ := TaskPlace.waiting.inj (hplace.symm.trans hplace')
      exact htimer (List.cons_ne_nil _ _)
  · refine iff_of_true (fun start since arrival p hplace hclock => ?_) fun s' hs' => ?_
    · exact absurd ⟨start, since, arrival, p, hplace, hclock⟩ hcan
    · cases hplace : s.place <;> simp only [timedStep, hplace, Option.mem_def, reduceCtorEq] at hs'
      split at hs'
      · next hclock => exact absurd ⟨_, _, _, _, hplace, hclock⟩ hcan
      · cases hs'

/-- The timer that a step needs is the one that keeps the latencies right. -/
theorem ownTimer_iff {s : TimedTask} {e : TimedEvent} (h : Stamped s) (hown : LatencyIsOwn s) :
    OwnTimer s e ↔ ∀ s' ∈ timedStep s e, LatencyIsOwn s' := by
  cases e with
  | handle clients forwarded clock => exact ownTimer_handle_iff h hown clients forwarded clock
  | respond resp clock => exact ownTimer_respond_iff h hown resp clock
  | pass | control | arrive | listen | recvFailed | receive | noResponse =>
    refine iff_of_true trivial fun s' hs' m hm => hown m ?_
    rwa [← measured_of_quiet (by simp) (by simp) hs']

/-- **Every run**: the latencies recorded for the replies are the queries' own, in every
state of a run, exactly if each reply was sent with a timer that had been started at the
time its query arrived (times counted modulo `2 ^ 32` microseconds) and had not come
round. -/
theorem latencyIsOwn_iff (c : DnsCache) (es : List TimedEvent) :
    Machine.Admitted timedStep OwnTimer (startTimed c) es ↔
      ∀ before, before <+: es → ∀ s ∈ Machine.exec timedStep (startTimed c) before,
        LatencyIsOwn s := by
  refine Machine.admitted_iff_forall_prefix (I := Stamped)
    (fun s e s' h hs => timedStep_stamped h hs) (fun s e h hown => ownTimer_iff h hown) ?_ ?_
  · exact ⟨by simp [startTimed], trivial⟩
  · simp [LatencyIsOwn, startTimed]

/-- A phone asks in captive mode, after the proxy has waited for `idle` microseconds, and
is answered a tenth of a millisecond later. -/
def idleRun (idle : ℕ) : List TimedEvent :=
  [.control (.setUpstream (some 0x08080808)), .control (.setCaptiveMode true (some deviceIp)),
    .listen, .pass idle, .arrive ⟨0x0204a8c0, 5353⟩ queryA, .receive, .pass 100,
    .handle none false (idle + 100)]

/-- **The idle time is recorded**: the same answer takes 100 microseconds of a query that
comes at once, and half a second of one that the proxy has waited for. -/
theorem idle_time_recorded :
    (Machine.exec timedStep (startTimed zeroCache) (idleRun 0)).map TimedTask.measured =
        some [⟨0, 100, [100]⟩] ∧
      (Machine.exec timedStep (startTimed zeroCache) (idleRun 500000)).map TimedTask.measured =
        some [⟨500000, 500100, [500100]⟩] ∧
      ∃ s ∈ Machine.exec timedStep (startTimed zeroCache) (idleRun 500000), ¬LatencyIsOwn s := by
  have hidle : (Machine.exec timedStep (startTimed zeroCache) (idleRun 500000)).map
      TimedTask.measured = some [⟨500000, 500100, [500100]⟩] := by decide +kernel
  refine ⟨by decide +kernel, hidle, ?_⟩
  obtain ⟨s, hs, hmeasured⟩ := Option.map_eq_some_iff.mp hidle
  refine ⟨s, hs, fun h => ?_⟩
  have hown := h ⟨500000, 500100, [500100]⟩ (by simp [hmeasured])
  exact absurd hown (by decide)

end Dns
end WifiRepeater
