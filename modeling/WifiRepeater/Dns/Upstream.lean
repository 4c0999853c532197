import WifiRepeater.Dns.Proxy
import WifiRepeater.Lib.Machine

/-!
# The proxy and its upstream server

The task forwards a query over a socket of its own and takes the first datagram that
this socket receives within a second for the response; nothing in the datagram is
compared with the query.  Here the task's two halves run against a network that may
delay and lose datagrams and an upstream server that answers each query it gets once.
Forwarded queries are numbered for the record only: neither the task nor the server
sees a number.

## Main definitions

* `Net`, `NetEvent`, `step` — the task, the datagrams in flight, and what can happen.
* `RelaysMatch`, `CacheMatches` — what the relayed and the cached responses should be.
* `InTime` — a response reaches the task while it waits for it.

## Main results

* `step_inv` — every step that is in time keeps the invariant.
* `responses_match` — **over runs whose responses come in time, responses match.**
* `late_response_mismatch` — one late response is relayed and cached as another's.
-/

namespace WifiRepeater
namespace Dns

/-! ### The machine -/

/-- A datagram that fits the task's buffer. -/
structure Packet where
  /-- Its bytes. -/
  bytes : List UInt8
  /-- They fit. -/
  le : bytes.length ≤ dnsProxyBufSize
  deriving DecidableEq

/-- A query that was forwarded, with its number. -/
structure Forwarded where
  /-- The number. -/
  id : ℕ
  /-- Who asked. -/
  client : Client
  /-- The datagram that was sent to the upstream server. -/
  query : List UInt8
  deriving DecidableEq

/-- What the upstream server answered to a query. -/
structure Reply where
  /-- The query. -/
  asked : Forwarded
  /-- The response. -/
  packet : Packet
  deriving DecidableEq

/-- The query the task waits for. -/
structure Waiting where
  /-- The query. -/
  asked : Forwarded
  /-- What the task remembers of it. -/
  pending : Pending

/-- A datagram the task sent to a client as the response to a forwarded query. -/
structure Relay where
  /-- The query the task was waiting for. -/
  asked : Forwarded
  /-- Who got the datagram. -/
  receiver : Client
  /-- The datagram. -/
  bytes : List UInt8
  deriving DecidableEq

/-- The task, the datagrams in flight, and the record of what happened. -/
structure Net where
  /-- The static variables of the task. -/
  flags : ProxyFlags
  /-- The cache. -/
  cache : DnsCache
  /-- `none` while the task waits for clients. -/
  waiting : Option Waiting
  /-- The next number. -/
  next : ℕ
  /-- Queries on their way to the upstream server. -/
  queries : List Forwarded
  /-- Responses on their way back. -/
  replies : List Reply
  /-- Responses in the upstream socket, in the order they came. -/
  sock : List Reply
  /-- Everything the upstream server answered. -/
  answered : List Reply
  /-- Everything the task relayed. -/
  relays : List Relay

/-- The task has just started. -/
def start (c : DnsCache) : Net :=
  ⟨ProxyFlags.initial, dnsCacheInit c, none, 0, [], [], [], [], []⟩

/-- What can happen. -/
inductive NetEvent
  /-- Another module steers the task. -/
  | control (call : ControlCall)
  /-- The task receives a query. -/
  | query (client : Client) (d : Datagram) (env : Surroundings)
  /-- The upstream server gets a query and answers it. -/
  | answer (i : ℕ) (response : Packet)
  /-- A response reaches the upstream socket. -/
  | deliver (i : ℕ)
  /-- A query is lost. -/
  | loseQuery (i : ℕ)
  /-- A response is lost. -/
  | loseReply (i : ℕ)
  /-- The task reads its upstream socket. -/
  | receive (env : Surroundings)
  /-- A second has passed and the socket is empty. -/
  | timeout (env : Surroundings)

/-- The datagrams sent to the upstream server. -/
def upstreamSends (es : List Effect) : List (List UInt8) :=
  es.filterMap fun e =>
    match e with
    | .toUpstream _ bytes => some bytes
    | _ => none

/-- The task's query half, while it waits for clients. -/
def stepQuery (s : Net) (client : Client) (d : Datagram) (env : Surroundings) : Net :=
  let turn := dnsProxyTaskQuery s.flags s.cache env client d
  match turn.pending with
  | none => { s with cache := turn.cache }
  | some p =>
      { s with
        cache := turn.cache
        waiting := some ⟨⟨s.next, client, d.bytes⟩, p⟩
        next := s.next + 1
        queries := s.queries ++ (upstreamSends turn.effects).map fun q => ⟨s.next, client, q⟩ }

/-- The task's response half. -/
def stepResponse (s : Net) (env : Surroundings) (w : Waiting) (resp : Option Reply)
    (sock : List Reply) : Net :=
  let r := dnsProxyTaskResponse s.cache env w.pending (resp.map fun r => r.packet.bytes)
  { s with
    cache := r.2
    waiting := none
    sock := sock
    relays := s.relays ++ (clientSends r.1).map fun m => ⟨w.asked, m.1, m.2⟩ }

/-- What an event does, `none` when it cannot happen. -/
def step (s : Net) : NetEvent → Option Net
  | .control call => some { s with flags := call.apply s.flags }
  | .query client d env =>
      match s.waiting with
      | some _ => none
      | none => some (stepQuery s client d env)
  | .answer i response =>
      (s.queries[i]?).map fun q =>
        { s with
          queries := s.queries.eraseIdx i
          replies := s.replies ++ [⟨q, response⟩]
          answered := s.answered ++ [⟨q, response⟩] }
  | .deliver i =>
      (s.replies[i]?).map fun r =>
        { s with replies := s.replies.eraseIdx i, sock := s.sock ++ [r] }
  | .loseQuery i => some { s with queries := s.queries.eraseIdx i }
  | .loseReply i => some { s with replies := s.replies.eraseIdx i }
  | .receive env =>
      match s.waiting, s.sock with
      | some w, r :: rest => some (stepResponse s env w (some r) rest)
      | _, _ => none
  | .timeout env =>
      match s.waiting, s.sock with
      | some w, [] => some (stepResponse s env w none [])
      | _, _ => none

/-! ### What should hold -/

/-- Every relayed datagram went to the client who asked, and is the upstream server's
response to the very query it was relayed for. -/
def RelaysMatch (s : Net) : Prop :=
  ∀ m ∈ s.relays, m.receiver = m.asked.client ∧
    ∃ r ∈ s.answered, r.asked = m.asked ∧ r.packet.bytes = m.bytes

/-- Name and type the parser reads in a query. -/
def keyOf (query : List UInt8) : Option (CStr × UInt16) :=
  (parseDnsQuery query query.length qnameSize).map fun r => (CStr.ofMem r.1, r.2)

/-- Every valid cache entry holds the upstream server's response to a query with the
entry's name and type. -/
def CacheMatches (s : Net) : Prop :=
  ∀ e ∈ s.cache.slots, e.valid = true →
    ∃ r ∈ s.answered, keyOf r.asked.query = some (e.qname.str, e.qtype) ∧
      e.response.bytes.take e.responseLen = r.packet.bytes

/-- A response that reaches the upstream socket does so while the task waits for it. -/
def InTime (s : Net) : NetEvent → Prop
  | .deliver i => ∀ r ∈ s.replies[i]?, ∃ w ∈ s.waiting, w.asked = r.asked
  | _ => True

/-! ### The parts of a turn -/

theorem received_received (buf : List UInt8) (len : ℕ) :
    received (received buf len) len = received buf len :=
  List.map_congr_left fun _ hi => byteAt_received (List.mem_range.mp hi)

/-- The parser reads no byte that was not received. -/
theorem parseDnsQuery_received (buf : List UInt8) (len : ℕ) :
    parseDnsQuery (received buf len) (received buf len).length qnameSize
      = parseDnsQuery buf len qnameSize := by
  have hlen : (received buf len).length = len := length_copyBytes buf len
  have hiff : ∀ r, parseDnsQuery (received buf len) (received buf len).length qnameSize = some r ↔
      parseDnsQuery buf len qnameSize = some r := by
    rintro ⟨name, qtype⟩
    rw [parseDnsQuery_eq_some_iff (by decide), parseDnsQuery_eq_some_iff (by decide)]
    simp only [Carries, hlen, received_received]
    by_cases h12 : 12 ≤ len
    · rw [byteAt_received (by omega), byteAt_received (by omega)]
    · simp [h12]
  exact Option.ext hiff

/-- What the query half forwards and remembers. -/
theorem dnsProxyTaskQuery_pending {f : ProxyFlags} {c : DnsCache} {env : Surroundings}
    {client : Client} {d : Datagram} {p : Pending}
    (h : (dnsProxyTaskQuery f c env client d).pending = some p) :
    upstreamSends (dnsProxyTaskQuery f c env client d).effects = [d.bytes] ∧
      p.client = client ∧ p.parsed = keyOf d.bytes := by
  have hkey : keyOf d.bytes = (parseDnsQuery d.buf.bytes d.len qnameSize).map
      fun r => (CStr.ofMem r.1, r.2) := by
    unfold keyOf Datagram.bytes
    rw [parseDnsQuery_received]
  rw [hkey]
  have hturn := dnsProxyTaskQuery_cases f c env client d
  generalize dnsProxyTaskQuery f c env client d = turn at h hturn ⊢
  cases hturn with
  | dropped | captive | hit => exact absurd h (by simp)
  | unparsed hup hparse | miss hup hparse =>
    rw [hparse]
    simp only at h
    split_ifs at h
    rw [← Option.some.inj h]
    exact ⟨rfl, rfl, rfl⟩

/-- The query half changes the cache only by marking slots empty. -/
theorem mem_dnsProxyTaskQuery {f : ProxyFlags} {c : DnsCache} {env : Surroundings}
    {client : Client} {d : Datagram} {e : DnsCacheEntry}
    (he : e ∈ (dnsProxyTaskQuery f c env client d).cache.slots) (hv : e.valid = true) :
    e ∈ c.slots := by
  have hturn := dnsProxyTaskQuery_cases f c env client d
  generalize dnsProxyTaskQuery f c env client d = turn at he hturn
  cases hturn with
  | dropped | unparsed | captive => exact he
  | hit | miss => exact mem_dnsCacheLookup he hv

/-- A parsed name is a string of at most 255 characters. -/
theorem keyOf_short {query : List UInt8} {name : CStr} {qtype : UInt16}
    (h : keyOf query = some (name, qtype)) : name.length ≤ 255 := by
  obtain ⟨⟨out, t⟩, hparse, heq⟩ := Option.map_eq_some_iff.mp h
  obtain ⟨-, -, q, -, -, hout, -⟩ := (parseDnsQuery_eq_some_iff (by decide)).mp hparse
  rw [Prod.mk.injEq] at heq
  have hle := CStr.length_ofMem_le out
  have hrender : out.length ≤ qnameSize - 1 := by
    rw [hout]
    exact List.length_take_le _ _
  rw [← heq.1]
  exact hle.trans hrender

/-! ### The invariant -/

/-- The queries whose response may still come. -/
def inFlight (s : Net) : List Forwarded :=
  s.queries ++ (s.replies.map Reply.asked ++ s.sock.map Reply.asked)

/-- What runs keep whose responses come in time. -/
structure Inv (s : Net) : Prop where
  /-- Queries in flight have been numbered. -/
  fresh : ∀ q ∈ inFlight s, q.id < s.next
  /-- Each has at most one response to come. -/
  once : (inFlight s).Nodup
  /-- What is in the socket is waited for. -/
  sock : ∀ r ∈ s.sock, ∃ w ∈ s.waiting, w.asked = r.asked
  /-- The task remembers the query it forwarded. -/
  waiting : ∀ w ∈ s.waiting, w.pending.client = w.asked.client ∧
    w.pending.parsed = keyOf w.asked.query
  /-- The server made the responses. -/
  replies : ∀ r, r ∈ s.replies ∨ r ∈ s.sock → r ∈ s.answered
  /-- What was relayed matches. -/
  relays : RelaysMatch s
  /-- What is cached matches. -/
  cache : CacheMatches s

theorem start_inv (c : DnsCache) : Inv (start c) where
  fresh := by simp [inFlight, start]
  once := by simp [inFlight, start]
  sock := by simp [start]
  waiting := by simp [start]
  replies := by simp [start]
  relays := by simp [RelaysMatch, start]
  cache := by
    intro e he hv
    obtain ⟨e', -, rfl⟩ := List.mem_map.mp he
    exact absurd hv (by simp)

/-- A cache without new entries still matches, whatever else was answered. -/
theorem CacheMatches.mono {s s' : Net} (h : CacheMatches s)
    (hc : ∀ e ∈ s'.cache.slots, e.valid = true → e ∈ s.cache.slots)
    (ha : ∀ r ∈ s.answered, r ∈ s'.answered) : CacheMatches s' := by
  intro e he hv
  obtain ⟨r, hr, hkey⟩ := h e (hc e he hv) hv
  exact ⟨r, ha r hr, hkey⟩

theorem RelaysMatch.mono {s s' : Net} (h : RelaysMatch s) (hm : s'.relays = s.relays)
    (ha : ∀ r ∈ s.answered, r ∈ s'.answered) : RelaysMatch s' := by
  intro m hmem
  obtain ⟨hrecv, r, hr, heq⟩ := h m (hm ▸ hmem)
  exact ⟨hrecv, r, ha r hr, heq⟩

/-- A datagram that moves on stays in flight. -/
theorem moved_perm {α : Type*} {l : List α} {i : ℕ} {a : α} (h : l[i]? = some a)
    (m n : List α) : (l.eraseIdx i ++ (m ++ a :: n)).Perm (l ++ (m ++ n)) := by
  obtain ⟨hi, rfl⟩ := List.getElem?_eq_some_iff.mp h
  calc l.eraseIdx i ++ (m ++ l[i] :: n)
      = (l.eraseIdx i ++ m) ++ l[i] :: n := (List.append_assoc _ _ _).symm
    _ |>.Perm (l[i] :: ((l.eraseIdx i ++ m) ++ n)) := List.perm_middle
    _ = (l[i] :: l.eraseIdx i) ++ (m ++ n) := by rw [List.append_assoc]; rfl
    _ |>.Perm (l ++ (m ++ n)) := (List.getElem_cons_eraseIdx_perm hi).append_right _

namespace Inv

variable {s : Net}

theorem query (h : Inv s) (hw : s.waiting = none) (client : Client) (d : Datagram)
    (env : Surroundings) : Inv (stepQuery s client d env) := by
  have hmem : ∀ e ∈ (dnsProxyTaskQuery s.flags s.cache env client d).cache.slots,
      e.valid = true → e ∈ s.cache.slots := fun e he hv => mem_dnsProxyTaskQuery he hv
  -- nobody waits, and what is in the socket is waited for
  have hempty : s.sock = [] := by
    rw [List.eq_nil_iff_forall_not_mem]
    intro r hr
    obtain ⟨w, hw', -⟩ := h.sock r hr
    rw [hw] at hw'
    exact absurd hw' (by simp)
  unfold stepQuery
  cases hp : (dnsProxyTaskQuery s.flags s.cache env client d).pending with
  | none =>
    simp only [hp]
    exact ⟨h.fresh, h.once, h.sock, h.waiting, h.replies, h.relays,
      h.cache.mono hmem fun _ hr => hr⟩
  | some p =>
    obtain ⟨hsends, hclient, hparsed⟩ := dnsProxyTaskQuery_pending hp
    simp only [hp, hsends, List.map_singleton]
    -- one more query is in flight, under a number that is new
    have hflight : (s.queries ++ [(⟨s.next, client, d.bytes⟩ : Forwarded)]
        ++ (s.replies.map Reply.asked ++ s.sock.map Reply.asked)).Perm
          (⟨s.next, client, d.bytes⟩ :: inFlight s) := by
      rw [List.append_assoc]
      exact List.perm_middle
    refine ⟨?_, ?_, ?_, ?_, h.replies, h.relays, h.cache.mono hmem fun _ hr => hr⟩
    · intro q hq
      rcases List.mem_cons.mp (hflight.mem_iff.mp hq) with rfl | hq
      · exact Nat.lt_succ_self _
      · exact (h.fresh q hq).trans (Nat.lt_succ_self _)
    · refine hflight.nodup_iff.mpr (List.nodup_cons.mpr ⟨?_, h.once⟩)
      intro hq
      exact absurd (h.fresh _ hq) (lt_irrefl _)
    · simp [hempty]
    · intro w hw'
      rw [Option.mem_some_iff] at hw'
      rw [← hw']
      exact ⟨hclient, hparsed⟩

theorem answer (h : Inv s) {i : ℕ} {q : Forwarded} (hq : s.queries[i]? = some q)
    (response : Packet) :
    Inv { s with
      queries := s.queries.eraseIdx i
      replies := s.replies ++ [⟨q, response⟩]
      answered := s.answered ++ [⟨q, response⟩] } := by
  have hflight : (s.queries.eraseIdx i ++ ((s.replies ++ [(⟨q, response⟩ : Reply)]).map Reply.asked
      ++ s.sock.map Reply.asked)).Perm (inFlight s) := by
    rw [List.map_append, List.append_assoc]
    exact moved_perm hq _ _
  have hsub : ∀ r ∈ s.answered, r ∈ s.answered ++ [(⟨q, response⟩ : Reply)] :=
    fun r hr => List.mem_append_left _ hr
  refine ⟨fun x hx => h.fresh x (hflight.mem_iff.mp hx), hflight.nodup_iff.mpr h.once, h.sock,
    h.waiting, ?_, h.relays.mono rfl hsub, h.cache.mono (fun _ he _ => he) hsub⟩
  rintro r (hr | hr)
  · rcases List.mem_append.mp hr with hr | hr
    · exact hsub r (h.replies r (Or.inl hr))
    · exact List.mem_append_right _ hr
  · exact hsub r (h.replies r (Or.inr hr))

/-- A response that comes in time finds the task waiting for it. -/
theorem deliver (h : Inv s) {i : ℕ} {r : Reply} (hr : s.replies[i]? = some r)
    (hok : InTime s (.deliver i)) :
    Inv { s with replies := s.replies.eraseIdx i, sock := s.sock ++ [r] } := by
  have hflight : (s.queries ++ ((s.replies.eraseIdx i).map Reply.asked
      ++ (s.sock ++ [r]).map Reply.asked)).Perm (inFlight s) := by
    refine List.Perm.append_left _ ?_
    have hmoved := (moved_perm hr s.sock []).map Reply.asked
    simpa only [List.map_append, List.append_nil] using hmoved
  refine ⟨fun x hx => h.fresh x (hflight.mem_iff.mp hx), hflight.nodup_iff.mpr h.once, ?_,
    h.waiting, ?_, h.relays, h.cache⟩
  · intro r' hr'
    rcases List.mem_append.mp hr' with hr' | hr'
    · exact h.sock r' hr'
    · rw [List.mem_singleton.mp hr']
      exact hok r hr
  · rintro r' (hr' | hr')
    · exact h.replies r' (Or.inl (List.mem_of_mem_eraseIdx hr'))
    · rcases List.mem_append.mp hr' with hr' | hr'
      · exact h.replies r' (Or.inr hr')
      · rw [List.mem_singleton.mp hr']
        exact h.replies r (Or.inl (List.mem_of_getElem? hr))

theorem loseQuery (h : Inv s) (i : ℕ) : Inv { s with queries := s.queries.eraseIdx i } := by
  have hsub : (s.queries.eraseIdx i ++
      (s.replies.map Reply.asked ++ s.sock.map Reply.asked)).Sublist (inFlight s) :=
    (List.eraseIdx_sublist _ _).append_right _
  exact ⟨fun x hx => h.fresh x (hsub.subset hx), h.once.sublist hsub, h.sock, h.waiting,
    h.replies, h.relays, h.cache⟩

theorem loseReply (h : Inv s) (i : ℕ) : Inv { s with replies := s.replies.eraseIdx i } := by
  have hsub : (s.queries ++
      ((s.replies.eraseIdx i).map Reply.asked ++ s.sock.map Reply.asked)).Sublist (inFlight s) :=
    (((List.eraseIdx_sublist _ _).map _).append_right _).append_left _
  refine ⟨fun x hx => h.fresh x (hsub.subset hx), h.once.sublist hsub, h.sock, h.waiting,
    ?_, h.relays, h.cache⟩
  rintro r (hr | hr)
  · exact h.replies r (Or.inl (List.mem_of_mem_eraseIdx hr))
  · exact h.replies r (Or.inr hr)

/-- The response the task reads is the one it waits for: it is relayed and cached under
the name of its own query. -/
theorem receive (h : Inv s) {w : Waiting} (hw : s.waiting = some w) {r : Reply}
    {rest : List Reply} (hsock : s.sock = r :: rest) (env : Surroundings) :
    Inv (stepResponse s env w (some r) rest) := by
  have hr : r ∈ s.sock := by rw [hsock]; exact List.mem_cons_self
  have hasked : ∀ x ∈ s.sock, w.asked = x.asked := by
    intro x hx
    obtain ⟨w', hw', heq⟩ := h.sock x hx
    rw [hw, Option.mem_some_iff] at hw'
    rw [hw', heq]
  have hans : r ∈ s.answered := h.replies r (Or.inr hr)
  obtain ⟨hclient, hparsed⟩ := h.waiting w (by rw [hw]; rfl)
  have hsub : (s.queries ++ (s.replies.map Reply.asked ++ rest.map Reply.asked)).Sublist
      (inFlight s) := by
    refine List.Sublist.append_left (List.Sublist.append_left ?_ _) _
    rw [hsock]
    exact (List.sublist_cons_self _ _).map _
  -- two responses in the socket would be two to one query
  have hrest : rest = [] := by
    rw [List.eq_nil_iff_forall_not_mem]
    intro x hx
    have hnodup := (List.nodup_append.mp (List.nodup_append.mp h.once).2.1).2.1
    rw [hsock, List.map_cons, List.nodup_cons] at hnodup
    refine hnodup.1 ?_
    rw [← hasked r hr, hasked x (by rw [hsock]; exact List.mem_cons_of_mem _ hx)]
    exact List.mem_map_of_mem hx
  refine ⟨fun x hx => h.fresh x (hsub.subset hx), h.once.sublist hsub, ?_, ?_, ?_, ?_, ?_⟩
  · rw [hrest]
    intro x hx
    exact absurd hx (by simp [stepResponse])
  · intro w' hw'
    exact absurd hw' (by simp [stepResponse])
  · rintro x (hx | hx)
    · exact h.replies x (Or.inl hx)
    · exact h.replies x (Or.inr (by rw [hsock]; exact List.mem_cons_of_mem _ hx))
  -- the new datagram is the response to the query waited for
  · intro m hm
    rcases List.mem_append.mp hm with hm | hm
    · exact h.relays m hm
    · have hm' : m = ⟨w.asked, w.pending.client, r.packet.bytes⟩ := by
        simpa [clientSends, dnsProxyTaskResponse] using hm
      rw [hm']
      exact ⟨hclient, r, hans, (hasked r hr).symm, rfl⟩
  -- a valid slot is an old one, or the one this response was stored in
  · intro e he hv
    have hcases : e ∈ s.cache.slots ∨ ∃ qname qtype, w.pending.parsed = some (qname, qtype) ∧
        ∃ e' : DnsCacheEntry, e = e'.fill qname qtype r.packet.bytes r.packet.le env.now := by
      simp only [stepResponse, Option.map_some, dnsProxyTaskResponse] at he
      split at he
      · next qname qtype hpar =>
        split_ifs at he with hpos
        · rcases mem_dnsCacheStore r.packet.le he with he | hfill
          · exact Or.inl he
          · exact Or.inr ⟨qname, qtype, hpar, hfill⟩
        · exact Or.inl he
      · exact Or.inl he
    rcases hcases with he | ⟨qname, qtype, hpar, e', rfl⟩
    · exact h.cache e he hv
    · rw [hparsed, hasked r hr] at hpar
      have hentry := e'.entryOf_fill (keyOf_short hpar) qtype r.packet.bytes r.packet.le env.now
      rw [entryOf_of_valid hv, Option.some.injEq, TtlQueue.Entry.mk.injEq, Prod.mk.injEq] at hentry
      refine ⟨r, hans, ?_, hentry.2.1⟩
      rw [hpar, hentry.1.1, hentry.1.2]

theorem timeout (h : Inv s) (w : Waiting) (hsock : s.sock = []) (env : Surroundings) :
    Inv (stepResponse s env w none []) := by
  refine ⟨?_, ?_, by simp [stepResponse], by simp [stepResponse], ?_, ?_, h.cache⟩
  · have := h.fresh
    rwa [inFlight, hsock] at this
  · have := h.once
    rwa [inFlight, hsock] at this
  · rintro r (hr | hr)
    · exact h.replies r (Or.inl hr)
    · exact absurd hr (by simp [stepResponse])
  · refine h.relays.mono ?_ fun _ hr => hr
    simp [stepResponse, dnsProxyTaskResponse, clientSends]

end Inv

/-- **Every step that is in time keeps the invariant.** -/
theorem step_inv {s s' : Net} {e : NetEvent} (h : Inv s) (hok : InTime s e)
    (hs : step s e = some s') : Inv s' := by
  cases e with
  | control call =>
    rw [step, Option.some.injEq] at hs
    rw [← hs]
    exact ⟨h.fresh, h.once, h.sock, h.waiting, h.replies, h.relays, h.cache⟩
  | query client d env =>
    cases hw : s.waiting with
    | some w => simp [step, hw] at hs
    | none =>
      simp only [step, hw, Option.some.injEq] at hs
      rw [← hs]
      exact h.query hw client d env
  | answer i response =>
    obtain ⟨q, hq, rfl⟩ := Option.map_eq_some_iff.mp hs
    exact h.answer hq response
  | deliver i =>
    obtain ⟨r, hr, rfl⟩ := Option.map_eq_some_iff.mp hs
    exact h.deliver hr hok
  | loseQuery i =>
    rw [step, Option.some.injEq] at hs
    rw [← hs]
    exact h.loseQuery i
  | loseReply i =>
    rw [step, Option.some.injEq] at hs
    rw [← hs]
    exact h.loseReply i
  | receive env =>
    cases hw : s.waiting with
    | none => simp [step, hw] at hs
    | some w =>
      cases hsock : s.sock with
      | nil => simp [step, hw, hsock] at hs
      | cons r rest =>
        simp only [step, hw, hsock, Option.some.injEq] at hs
        rw [← hs]
        exact h.receive hw hsock env
  | timeout env =>
    cases hw : s.waiting with
    | none => simp [step, hw] at hs
    | some w =>
      cases hsock : s.sock with
      | cons r rest => simp [step, hw, hsock] at hs
      | nil =>
        simp only [step, hw, hsock, Option.some.injEq] at hs
        rw [← hs]
        exact h.timeout w hsock env

/-- **Responses match over every run whose responses come in time**: what is relayed for
a query is the server's response to it, and what is cached under a name and type is the
server's response to a query for them. -/
theorem responses_match (c : DnsCache) {s : Net}
    (h : Machine.Reach step InTime (start c) s) : RelaysMatch s ∧ CacheMatches s := by
  have hinv : Inv s := h.invariant (start_inv c) fun _ _ _ hi hok hs => step_inv hi hok hs
  exact ⟨hinv.relays, hinv.cache⟩

/-! ### Two runs -/

instance (s : Net) : ∀ e : NetEvent, Decidable (InTime s e)
  | .deliver i =>
      inferInstanceAs (Decidable (∀ r ∈ s.replies[i]?, ∃ w ∈ s.waiting, w.asked = r.asked))
  | .control _ | .query .. | .answer .. | .loseQuery _ | .loseReply _ | .receive _ | .timeout _ =>
      isTrue trivial

/-- The task learns nothing, and what it forwards is sent. -/
def forwarding : Surroundings := ⟨none, 0, 0, true⟩

/-- A query for another name, `b`. -/
def queryB : Datagram :=
  .ofBytes [0x56, 0x78, 1, 0, 0, 1, 0, 0, 0, 0, 0, 0, 1, 0x62, 0, 0, 1, 0, 1] (by decide)

/-- A station of the access point. -/
def phone : Client := ⟨0x0204a8c0, 5353⟩

/-- Another one. -/
def laptop : Client := ⟨0x0304a8c0, 5353⟩

/-- A query that is answered at once. -/
def timelyEvents : List NetEvent :=
  [.control (.setUpstream (some 0x08080808)), .query phone queryA forwarding,
    .answer 0 ⟨[7, 9], Nat.le_of_ble_eq_true rfl⟩, .deliver 0, .receive forwarding]

/-- The response to the first query arrives while the task waits for the second. -/
def lateEvents : List NetEvent :=
  [.control (.setUpstream (some 0x08080808)), .query phone queryA forwarding,
    .timeout forwarding, .answer 0 ⟨[7, 9], Nat.le_of_ble_eq_true rfl⟩,
    .query laptop queryB forwarding, .deliver 0, .receive forwarding]

/-- A run in time, with one relayed response. -/
theorem responses_match_timely :
    ∃ s, Machine.exec step (start zeroCache) timelyEvents = some s ∧ s.relays.length = 1 ∧
      RelaysMatch s ∧ CacheMatches s := by
  have hany : (Machine.exec step (start zeroCache) timelyEvents).any
      fun s => s.relays.length = 1 := by decide +kernel
  obtain ⟨s, hs, hone⟩ := (Option.any_eq_true _ _).mp hany
  exact ⟨s, hs, by simpa using hone, responses_match zeroCache
    (Machine.reach_of_exec (by decide +kernel) hs)⟩

/-- **One late response is relayed and cached as another's**: the laptop gets, and the
cache keeps under the laptop's question, what the server said to the phone's. -/
theorem late_response_mismatch :
    ∃ s, Machine.Reach step (fun _ _ => True) (start zeroCache) s ∧
      ¬RelaysMatch s ∧ ¬CacheMatches s := by
  have hany : (Machine.exec step (start zeroCache) lateEvents).any fun s =>
      (s.relays.any fun m => s.answered.all fun r => r.asked ≠ m.asked) &&
        s.cache.slots.any fun e => e.valid &&
          s.answered.all fun r => keyOf r.asked.query ≠ some (e.qname.str, e.qtype) := by
    decide +kernel
  obtain ⟨s, hs, hbad⟩ := (Option.any_eq_true _ _).mp hany
  rw [Bool.and_eq_true, List.any_eq_true, List.any_eq_true] at hbad
  -- a relay none of the answers belongs to, and a slot none of them is for
  obtain ⟨⟨m, hm, hrelay⟩, e, he, hentry⟩ := hbad
  rw [Bool.and_eq_true] at hentry
  refine ⟨s, Machine.reach_of_exec (by decide +kernel) hs, ?_, ?_⟩
  · intro hmatch
    obtain ⟨-, r, hr, hasked, -⟩ := hmatch m hm
    have := List.all_eq_true.mp hrelay r hr
    simp [hasked] at this
  · intro hmatch
    obtain ⟨r, hr, hkey, -⟩ := hmatch e he hentry.1
    have := List.all_eq_true.mp hentry.2 r hr
    simp [hkey] at this

end Dns
end WifiRepeater
