import WifiRepeater.Dns.Latency
import WifiRepeater.Dns.Upstream

/-!
# The proxy as a service

What clients may rely on, over whole runs of the task against the clock: that nobody is
answered who has not asked, nor twice, that the answers come in the order of the queries, and
that each of them is a captive answer, what the upstream server has just sent, or something
it has sent for the same name and type within the last minute.

The run is that of `timedStep`, with a record of the queries that came, of what was received
from the upstream server and of what was sent to clients.

## Main definitions

* `Answer`, `FromUpstream`, `Service`, `serviceStep` — the task with its record.
* `Due` — what an answer may be.
* `Serving` — the invariant.

## Main results

* `exists_of_lookup` — what the cache finds is in a slot that has not run out.
* `serviceStep_serving` — every step keeps the invariant.
* `answers_due` — **at most one answer for a query, in order, and each is due.**
-/

namespace WifiRepeater
namespace Dns

/-! ### The record -/

/-- A datagram that was sent to a client. -/
structure Answer where
  /-- The query that was being handled. -/
  query : Arrived
  /-- Who got the datagram. -/
  receiver : Client
  /-- The datagram. -/
  bytes : List UInt8
  /-- The clock, as the cache has read it. -/
  clock : ℕ

/-- A datagram that was received on the upstream socket. -/
structure FromUpstream where
  /-- The query the task was waiting with. -/
  query : Arrived
  /-- The datagram. -/
  bytes : List UInt8
  /-- The clock, as the cache has read it. -/
  clock : ℕ

/-- The task, and the record of what happened. -/
structure Service where
  task : TimedTask
  /-- The query that is being handled. -/
  current : Option Arrived
  /-- The queries that reached the listening socket. -/
  arrived : List Arrived
  answers : List Answer
  responses : List FromUpstream

/-- The task has just started. -/
def startService (c : DnsCache) : Service := ⟨startTimed c, none, [], [], []⟩

/-- What is recorded of an event. -/
def Service.record (s : Service) : TimedEvent → Service
  | .arrive client d => { s with arrived := s.arrived ++ [⟨client, d, s.task.now⟩] }
  | .receive => { s with current := s.task.socket.head? }
  | .handle clients forwarded clock =>
      match s.task.place with
      | .received start _ q =>
          { s with
            answers := s.answers ++
              (clientSends (s.task.query start q clients forwarded clock).effects).map
                fun m => ⟨q, m.1, m.2, clock⟩ }
      | _ => s
  | .respond resp clock =>
      match s.task.place, s.current with
      | .waiting start _ _ p, some q =>
          { s with
            responses := s.responses ++ [⟨q, resp, clock⟩]
            answers := s.answers ++ (clientSends (s.task.response start p resp clock).1).map
              fun m => ⟨q, m.1, m.2, clock⟩ }
      | _, _ => s
  | .pass _ | .control _ | .listen | .recvFailed | .noResponse => s

/-- What an event does, `none` when it cannot happen. -/
def serviceStep (s : Service) (e : TimedEvent) : Option Service :=
  (timedStep s.task e).map fun task => { s.record e with task := task }

/-! ### What an answer may be -/

/-- The reason for an answer. -/
inductive Due (responses : List FromUpstream) (a : Answer) : Prop
  /-- It is what the captive portal answers to the query. -/
  | captive {name : CStr} {qtype : UInt16} (ip : UInt32)
      (hkey : keyOf a.query.datagram.bytes = some (name, qtype))
      (hanswer : captiveAnswer a.query.datagram qtype ip = some a.bytes)
  /-- It was received while the task waited with the query. -/
  | relayed (hmem : ⟨a.query, a.bytes, a.clock⟩ ∈ responses)
  /-- It was received with a query for the same name and type, at most a minute ago, and
  has the identifier of the query. -/
  | cached {r : FromUpstream} {name : CStr} {qtype : UInt16} (hmem : r ∈ responses)
      (hstored : keyOf r.query.datagram.bytes = some (name, qtype))
      (hasked : keyOf a.query.datagram.bytes = some (name, qtype))
      (hpast : r.clock ≤ a.clock) (hfresh : (a.clock : ℤ) ≤ r.clock + dnsCacheTtl)
      (hbytes : a.bytes = patchId r.bytes a.query.datagram.buf.bytes)

theorem Due.mono {responses responses' : List FromUpstream} {a : Answer} (h : Due responses a)
    (hsub : responses ⊆ responses') : Due responses' a := by
  cases h with
  | captive ip hkey hanswer => exact .captive ip hkey hanswer
  | relayed hmem => exact .relayed (hsub hmem)
  | cached hmem hstored hasked hpast hfresh hbytes =>
    exact .cached (hsub hmem) hstored hasked hpast hfresh hbytes

/-! ### The parts of a turn -/

/-- What the loop of a lookup finds is in a slot with the key that has not run out. -/
theorem exists_of_lookupLoop {qname : CStr} {qtype : UInt16} {bufSize : ℕ} {now : ℤ}
    {resp : List UInt8} : ∀ {es : List DnsCacheEntry},
      (lookupLoop qname qtype bufSize now es).1 = some resp →
        ∃ e ∈ es, e.holds qname qtype = true ∧ now ≤ e.expiryTime ∧
          resp = e.response.bytes.take e.responseLen := by
  intro es
  induction es with
  | nil => exact fun h => absurd h (by simp [lookupLoop])
  | cons e es ih =>
    intro h
    unfold lookupLoop at h
    split_ifs at h with hholds hexpired hlen
    · exact ⟨e, List.mem_cons_self, hholds, not_lt.mp hexpired, (Option.some.inj h).symm⟩
    · obtain ⟨e', he', hrest⟩ := ih h
      exact ⟨e', List.mem_cons_of_mem _ he', hrest⟩

/-- **What the cache finds** is in a valid slot with the name and the type that has not run
out. -/
theorem exists_of_lookup {c : DnsCache} {qname : CStr} {qtype : UInt16} {bufSize : ℕ} {now : ℤ}
    {resp : List UInt8} (h : (dnsCacheLookup c qname qtype bufSize now).1 = some resp) :
    ∃ e ∈ c.slots, e.valid = true ∧ e.qtype = qtype ∧
      e.qname.str.strncmpEq qname 255 = true ∧ now ≤ e.expiryTime ∧
      resp = e.response.bytes.take e.responseLen := by
  obtain ⟨e, he, hholds, hfresh, hresp⟩ := exists_of_lookupLoop h
  unfold DnsCacheEntry.holds at hholds
  rw [Bool.and_eq_true, Bool.and_eq_true, beq_iff_eq] at hholds
  exact ⟨e, he, hholds.1.1, hholds.1.2, hholds.2, hfresh, hresp⟩

/-- What the parser reads in the buffer is what it reads in the datagram. -/
theorem keyOf_bytes {d : Datagram} {name : List UInt8} {qtype : UInt16}
    (h : parseDnsQuery d.buf.bytes d.len qnameSize = some (name, qtype)) :
    keyOf d.bytes = some (CStr.ofMem name, qtype) := by
  unfold keyOf Datagram.bytes
  rw [parseDnsQuery_received, h]
  rfl

/-- **What the query half sends**: nothing, or one datagram to the client, which is a captive
answer or was found in the cache; then the turn is over. -/
theorem sends_dnsProxyTaskQuery (f : ProxyFlags) (c : DnsCache) (env : Surroundings)
    (client : Client) (d : Datagram) :
    clientSends (dnsProxyTaskQuery f c env client d).effects = [] ∨
      (dnsProxyTaskQuery f c env client d).pending = none ∧ ∃ bytes,
        clientSends (dnsProxyTaskQuery f c env client d).effects = [(client, bytes)] ∧
        ∃ name qtype, keyOf d.bytes = some (name, qtype) ∧
          (captiveAnswer d qtype f.captiveIp = some bytes ∨
            ∃ resp, (dnsCacheLookup c name qtype dnsProxyBufSize env.now).1 = some resp ∧
              bytes = patchId resp d.buf.bytes) := by
  have hturn := dnsProxyTaskQuery_cases f c env client d
  generalize dnsProxyTaskQuery f c env client d = turn at hturn ⊢
  cases hturn with
  | dropped | unparsed | miss => exact .inl rfl
  | captive hup hparse hcap =>
    cases hanswer : captiveAnswer d _ f.captiveIp with
    | none => exact .inl rfl
    | some bytes => exact .inr ⟨rfl, bytes, rfl, _, _, keyOf_bytes hparse, .inl hanswer⟩
  | hit hup hparse hcap hhit =>
    obtain ⟨hfound, -⟩ := Option.filter_eq_some_iff.mp hhit
    exact .inr ⟨rfl, _, rfl, _, _, keyOf_bytes hparse, .inr ⟨_, hfound, rfl⟩⟩

/-! ### The invariant -/

/-- The query that is being handled, by the place of the task. -/
def TaskPlace.atHand (current : Option Arrived) : TaskPlace → List Arrived
  | top | receiving _ => []
  | received _ _ q => [q]
  | waiting .. => current.toList

/-- Every valid slot holds something that was received, for a minute. -/
def CacheFrom (responses : List FromUpstream) (c : DnsCache) : Prop :=
  ∀ e ∈ c.slots, e.valid = true → ∃ r ∈ responses,
    keyOf r.query.datagram.bytes = some (e.qname.str, e.qtype) ∧
      r.bytes = e.response.bytes.take e.responseLen ∧ e.expiryTime = r.clock + dnsCacheTtl

/-- The record knows the query that is being handled, and nothing was received since. -/
def Follows (s : Service) : TaskPlace → Prop
  | .top | .receiving _ => True
  | .received _ since q => s.current = some q ∧ ∀ r ∈ s.responses, r.clock ≤ since
  | .waiting _ since _ p => (∀ r ∈ s.responses, r.clock ≤ since) ∧
      ∃ q, s.current = some q ∧ p.client = q.client ∧ p.parsed = keyOf q.datagram.bytes

/-- What every step keeps. -/
structure Serving (s : Service) : Prop where
  /-- The queries that were answered are among those that are done with, in their order. -/
  order : ∃ done, s.arrived = done ++ (s.task.place.atHand s.current ++ s.task.socket) ∧
    (s.answers.map Answer.query).Sublist done
  place : Follows s s.task.place
  past : ∀ r ∈ s.responses, r.clock ≤ s.task.now
  cache : CacheFrom s.responses s.task.cache
  due : ∀ a ∈ s.answers, a.receiver = a.query.client ∧ Due s.responses a

theorem Serving.start (c : DnsCache) : Serving (startService c) where
  order := ⟨[], rfl, .slnil⟩
  place := trivial
  past := fun _ h => absurd h List.not_mem_nil
  cache := by
    intro e he hv
    obtain ⟨e', -, rfl⟩ := List.mem_map.mp he
    exact absurd hv (by simp)
  due := fun _ h => absurd h List.not_mem_nil

theorem CacheFrom.mono {responses responses' : List FromUpstream} {c c' : DnsCache}
    (h : CacheFrom responses c) (hsub : responses ⊆ responses')
    (hc : ∀ e ∈ c'.slots, e.valid = true → e ∈ c.slots) : CacheFrom responses' c' := by
  intro e he hv
  obtain ⟨r, hr, hrest⟩ := h e (hc e he hv) hv
  exact ⟨r, hsub hr, hrest⟩

/-- What the response half stores was received. -/
theorem CacheFrom.response {responses : List FromUpstream} {c : DnsCache} {env : Surroundings}
    {p : Pending} {q : Arrived} {clock : ℕ} (h : CacheFrom responses c)
    (hparsed : p.parsed = keyOf q.datagram.bytes) (hnow : env.now = clock) (resp : List UInt8) :
    CacheFrom (responses ++ [⟨q, resp, clock⟩]) (dnsProxyTaskResponse c env p (some resp)).2 := by
  have hsub : responses ⊆ responses ++ [⟨q, resp, clock⟩] := List.subset_append_left _ _
  have hsame : CacheFrom (responses ++ [⟨q, resp, clock⟩]) c := h.mono hsub fun _ he _ => he
  simp only [dnsProxyTaskResponse]
  split
  · next qname qtype hpar =>
    rw [hparsed] at hpar
    split_ifs
    · by_cases hle : resp.length ≤ dnsProxyBufSize
      · intro e he hv
        rcases mem_dnsCacheStore hle he with he | ⟨e', rfl⟩
        · exact hsame e he hv
        · have hentry := e'.entryOf_fill (keyOf_short hpar) qtype resp hle env.now
          rw [entryOf_of_valid hv, Option.some.injEq, TtlQueue.Entry.mk.injEq,
            Prod.mk.injEq] at hentry
          refine ⟨⟨q, resp, clock⟩, List.mem_append_right _ (List.mem_singleton_self _), ?_⟩
          rw [hpar, hentry.1.1, hentry.1.2, hentry.2.1, hentry.2.2, hnow]
          exact ⟨rfl, rfl, rfl⟩
      · rw [dnsCacheStore, dif_neg hle]
        exact hsame
    · exact hsame
  · exact hsame

/-- A query that is answered from the cache is answered with something fresh. -/
theorem CacheFrom.due {responses : List FromUpstream} {c : DnsCache} {q : Arrived}
    {name : CStr} {qtype : UInt16} {clock : ℕ} {resp : List UInt8} (h : CacheFrom responses c)
    (hkey : keyOf q.datagram.bytes = some (name, qtype))
    (hpast : ∀ r ∈ responses, r.clock ≤ clock)
    (hfound : (dnsCacheLookup c name qtype dnsProxyBufSize clock).1 = some resp)
    (receiver : Client) :
    Due responses ⟨q, receiver, patchId resp q.datagram.buf.bytes, clock⟩ := by
  obtain ⟨e, he, hv, rfl, hname, hfresh, rfl⟩ := exists_of_lookup hfound
  obtain ⟨r, hr, hstored, hbytes, hexpiry⟩ := h e he hv
  have heq := (CStr.strncmpEq_iff (keyOf_short hstored) (keyOf_short hkey)).mp hname
  rw [heq] at hstored
  rw [← hbytes]
  exact .cached hr hstored hkey (hpast r hr) (hexpiry ▸ hfresh) rfl

/-! ### The steps -/

/-- A query is handled: it is done with unless it was forwarded, and if it was answered it
is done with. -/
theorem Serving.handle {s : Service} (h : Serving s) {start since clock : ℕ} {q : Arrived}
    (hplace : s.task.place = .received start since q) (hclock : since ≤ clock)
    (clients : Option (List ApClientInfo)) (forwarded : Bool) {task : TimedTask}
    (hcache : task.cache = (s.task.query start q clients forwarded clock).cache)
    (hsocket : task.socket = s.task.socket) (hnow : task.now = s.task.now)
    (hnext : task.place = match (s.task.query start q clients forwarded clock).pending with
      | none => .top
      | some p => .waiting start s.task.now q.arrival p) :
    Serving { s.record (.handle clients forwarded clock) with task := task } := by
  obtain ⟨done, harrived, hdone⟩ := h.order
  have hfollows := h.place
  rw [hplace] at harrived hfollows
  obtain ⟨hcurrent, hsince⟩ := hfollows
  have hslots : CacheFrom s.responses task.cache :=
    h.cache.mono (List.Subset.refl _) fun e he hv => by
      rw [hcache] at he
      exact mem_dnsProxyTaskQuery he hv
  simp only [Service.record, hplace]
  rcases sends_dnsProxyTaskQuery s.task.flags s.task.cache
      ⟨clients, clock, elapsed start s.task.now, forwarded⟩ q.client q.datagram with
    hnone | ⟨hover, bytes, hsends, name, qtype, hkey, hwhy⟩
  · -- nothing was sent: the query is done with, or the task waits with it
    rw [TimedTask.query, hnone, List.map_nil, List.append_nil]
    have hdue := h.due
    have hpast : ∀ r ∈ s.responses, r.clock ≤ task.now := fun r hr => hnow ▸ h.past r hr
    cases hpending : (s.task.query start q clients forwarded clock).pending with
    | none =>
      rw [hpending] at hnext
      refine ⟨⟨done ++ [q], ?_, hdone.trans (List.sublist_append_left _ _)⟩, ?_, hpast, hslots,
        hdue⟩
      · dsimp only
        rw [harrived, hnext, hsocket]
        simp [TaskPlace.atHand]
      · dsimp only
        rw [hnext]
        exact trivial
    | some p =>
      rw [hpending] at hnext
      obtain ⟨-, hclient, hparsed⟩ := dnsProxyTaskQuery_pending hpending
      refine ⟨⟨done, ?_, hdone⟩, ?_, hpast, hslots, hdue⟩
      · dsimp only
        rw [harrived, hnext, hsocket, hcurrent]
        rfl
      · dsimp only
        rw [hnext]
        exact ⟨h.past, q, hcurrent, hclient, hparsed⟩
  · -- it was answered
    have hover' : (s.task.query start q clients forwarded clock).pending = none := hover
    rw [hover'] at hnext
    rw [TimedTask.query, hsends, List.map_singleton]
    refine ⟨⟨done ++ [q], ?_, ?_⟩, ?_, fun r hr => hnow ▸ h.past r hr, hslots, ?_⟩
    · dsimp only
      rw [harrived, hnext, hsocket]
      simp [TaskPlace.atHand]
    · dsimp only
      rw [List.map_append, List.map_singleton]
      exact hdone.append (List.Sublist.refl _)
    · dsimp only
      rw [hnext]
      exact trivial
    · intro a ha
      rcases List.mem_append.mp ha with ha | ha
      · exact h.due a ha
      · rw [List.mem_singleton.mp ha]
        refine ⟨rfl, ?_⟩
        rcases hwhy with hanswer | ⟨resp, hfound, rfl⟩
        · exact .captive _ hkey hanswer
        · exact h.cache.due hkey (fun r hr => (hsince r hr).trans hclock) hfound _

/-- A response is sent on, and the query is done with. -/
theorem Serving.respond {s : Service} (h : Serving s) {start since arrival clock : ℕ} {p : Pending}
    (hplace : s.task.place = .waiting start since arrival p) (hclock : clock ≤ s.task.now)
    (resp : List UInt8) {task : TimedTask}
    (hcache : task.cache = (s.task.response start p resp clock).2)
    (hsocket : task.socket = s.task.socket) (hnow : task.now = s.task.now)
    (hnext : task.place = .top) :
    Serving { s.record (.respond resp clock) with task := task } := by
  obtain ⟨done, harrived, hdone⟩ := h.order
  have hfollows := h.place
  rw [hplace] at harrived hfollows
  obtain ⟨-, q, hcurrent, hclient, hparsed⟩ := hfollows
  have hsends : clientSends (s.task.response start p resp clock).1 = [(p.client, resp)] := rfl
  simp only [Service.record, hplace, hcurrent, hsends, List.map_singleton]
  have hsub : s.responses ⊆ s.responses ++ [⟨q, resp, clock⟩] := List.subset_append_left _ _
  refine ⟨⟨done ++ [q], ?_, ?_⟩, ?_, ?_, ?_, ?_⟩
  · dsimp only
    rw [harrived, hnext, hsocket, hcurrent]
    simp [TaskPlace.atHand]
  · rw [List.map_append, List.map_singleton]
    exact hdone.append (List.Sublist.refl _)
  · dsimp only
    rw [hnext]
    exact trivial
  · intro r hr
    rcases List.mem_append.mp hr with hr | hr
    · exact hnow ▸ h.past r hr
    · rw [List.mem_singleton.mp hr]
      exact hnow ▸ hclock
  · dsimp only
    rw [hcache]
    exact h.cache.response hparsed rfl resp
  · intro a ha
    rcases List.mem_append.mp ha with ha | ha
    · exact ⟨(h.due a ha).1, (h.due a ha).2.mono hsub⟩
    · rw [List.mem_singleton.mp ha]
      exact ⟨hclient, .relayed (List.mem_append_right _ (List.mem_singleton_self _))⟩

/-- **Every step keeps the invariant.** -/
theorem serviceStep_serving {s s' : Service} {e : TimedEvent} (h : Serving s)
    (hs : serviceStep s e = some s') : Serving s' := by
  obtain ⟨task, htask, rfl⟩ := Option.map_eq_some_iff.mp hs
  obtain ⟨⟨now, flags, cache, socket, place, measured⟩, current, arrived, answers, responses⟩ := s
  obtain ⟨done, harrived, hdone⟩ := h.order
  have hplace := h.place
  have hpast := h.past
  dsimp only at harrived hplace
  cases e with
  | pass d =>
    obtain rfl := Option.some.inj htask
    refine ⟨⟨done, harrived, hdone⟩, ?_, fun r hr => Nat.le_add_right_of_le (hpast r hr),
      h.cache, h.due⟩
    exact hplace
  | control call =>
    obtain rfl := Option.some.inj htask
    exact ⟨⟨done, harrived, hdone⟩, hplace, hpast, h.cache, h.due⟩
  | arrive client d =>
    obtain rfl := Option.some.inj htask
    refine ⟨⟨done, ?_, hdone⟩, hplace, hpast, h.cache, h.due⟩
    simp only [Service.record]
    rw [harrived, List.append_assoc, List.append_assoc]
  | listen =>
    cases place with
    | top =>
      obtain rfl := Option.some.inj htask
      exact ⟨⟨done, harrived, hdone⟩, trivial, hpast, h.cache, h.due⟩
    | receiving | received | waiting => simp [timedStep] at htask
  | recvFailed =>
    cases place with
    | receiving start =>
      obtain rfl := Option.some.inj htask
      exact ⟨⟨done, harrived, hdone⟩, trivial, hpast, h.cache, h.due⟩
    | top | received | waiting => simp [timedStep] at htask
  | receive =>
    cases place with
    | receiving start =>
      cases socket with
      | nil => simp [timedStep] at htask
      | cons q socket =>
        obtain rfl := Option.some.inj htask
        exact ⟨⟨done, harrived, hdone⟩, ⟨rfl, hpast⟩, hpast, h.cache, h.due⟩
    | top | received | waiting => simp [timedStep] at htask
  | handle clients forwarded clock =>
    cases place with
    | received start since q =>
      by_cases hclock : since ≤ clock ∧ clock ≤ now
      · simp only [timedStep, if_pos hclock, Option.some.injEq] at htask
        subst htask
        exact h.handle rfl hclock.1 clients forwarded rfl rfl rfl rfl
      · simp [timedStep, if_neg hclock] at htask
    | top | receiving | waiting => simp [timedStep] at htask
  | respond resp clock =>
    cases place with
    | waiting start since arrival p =>
      by_cases hclock : since ≤ clock ∧ clock ≤ now
      · simp only [timedStep, if_pos hclock, Option.some.injEq] at htask
        subst htask
        exact h.respond rfl hclock.2 resp rfl rfl rfl rfl
      · simp [timedStep, if_neg hclock] at htask
    | top | receiving | received => simp [timedStep] at htask
  | noResponse =>
    cases place with
    | waiting start since arrival p =>
      obtain rfl := Option.some.inj htask
      obtain ⟨-, q, hcurrent, -, -⟩ := hplace
      obtain rfl : current = some q := hcurrent
      refine ⟨⟨done ++ [q], ?_, hdone.trans (List.sublist_append_left _ _)⟩, trivial, hpast,
        h.cache, h.due⟩
      simp only [Service.record]
      rw [harrived]
      simp [TaskPlace.atHand]
    | top | receiving | received => simp [timedStep] at htask

/-- **The answers are due.**  After any run of the task, whoever controls it, however the
queries and the responses arrive and time passes: the queries that were answered are among
those that arrived, each at most once and in their order; every answer went to the client
that asked; and it is the captive answer to the query, or the datagram that was received
while the task waited with it, or one that was received at most a minute before with a query
for the same name and type, under the identifier of the query at hand. -/
theorem answers_due {c : DnsCache} {es : List TimedEvent} {s : Service}
    (hs : Machine.exec serviceStep (startService c) es = some s) :
    (s.answers.map Answer.query).Sublist s.arrived ∧
      ∀ a ∈ s.answers, a.receiver = a.query.client ∧ Due s.responses a := by
  have hreach : Machine.Reach serviceStep (fun _ _ => True) (startService c) s :=
    Machine.reach_of_exec (Machine.admitted_of_forall fun _ _ => trivial) hs
  have h : Serving s := hreach.invariant (.start c) fun _ _ _ h _ hs => serviceStep_serving h hs
  obtain ⟨done, harrived, hdone⟩ := h.order
  refine ⟨?_, h.due⟩
  rw [harrived]
  exact hdone.trans (List.sublist_append_left _ _)

/-- A datagram that is no query. -/
def stray : Datagram := .ofBytes [7] (by decide)

/-- It is forwarded, and something comes back. -/
def strayRun : List TimedEvent :=
  [.control (.setUpstream (some 8)), .arrive ⟨1, 53⟩ stray, .pass 5, .listen, .receive,
    .handle none true 5, .respond [1, 2, 3] 5]

/-- What comes back is sent on. -/
theorem stray_answered :
    ∃ s, Machine.exec serviceStep (startService zeroCache) strayRun = some s ∧
      s.answers = [⟨⟨⟨1, 53⟩, stray, 0⟩, ⟨1, 53⟩, [1, 2, 3], 5⟩] ∧
      (s.answers.map Answer.query).Sublist s.arrived ∧
      ∀ a ∈ s.answers, a.receiver = a.query.client ∧ Due s.responses a := by
  obtain ⟨s, hs, hanswers⟩ : ∃ s, Machine.exec serviceStep (startService zeroCache) strayRun
      = some s ∧ s.answers = [⟨⟨⟨1, 53⟩, stray, 0⟩, ⟨1, 53⟩, [1, 2, 3], 5⟩] := ⟨_, rfl, rfl⟩
  exact ⟨s, hs, hanswers, answers_due hs⟩

/-- The run is the one of the task. -/
theorem exec_task {c : DnsCache} {es : List TimedEvent} {s : Service}
    (hs : Machine.exec serviceStep (startService c) es = some s) :
    Machine.exec timedStep (startTimed c) es = some s.task := by
  have hstep : ∀ s e s', serviceStep s e = some s' → timedStep s.task e = some s'.task := by
    intro s e s' h
    obtain ⟨task, htask, rfl⟩ := Option.map_eq_some_iff.mp h
    exact htask
  have hpart : Machine.exec timedStep (startTimed c) (es.filterMap some) = some s.task :=
    Machine.exec_component (p := Service.task) (fun s e s' h => .inl ⟨e, rfl, hstep s e s' h⟩) hs
  rwa [List.filterMap_some] at hpart

end Dns
end WifiRepeater
