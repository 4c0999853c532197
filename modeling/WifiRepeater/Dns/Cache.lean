import WifiRepeater.Dns.Key
import WifiRepeater.Lib.CString
import WifiRepeater.Lib.TtlQueue

/-!
# The DNS cache

The proxy keeps the upstream's responses in twenty slots, for sixty seconds each.  A
lookup stops at the first valid slot with the key, and marks it empty when it has run
out; a store takes the first empty or expired slot, or the one that expires first.
Stopping at the first match is right only because no key is ever in two valid slots,
and that holds because the proxy stores a key only after a lookup of it has missed.

## Main definitions

* `DnsCache`, `dnsCacheInit`, `dnsCacheLookup`, `dnsCacheStore` — the cache.
* `entryOf` — the entry a slot holds, as the queue sees it.
* `CacheRun` — the runs of the proxy's cache operations, with the stores they made.

## Main results

* `searchLoop_choice` — the slot that is reused.
* `CacheRun.refines` — **over every run the slots stand for the last twenty stores.**
* `lookup_after_run` — **what a lookup answers, and that keys stay unique.**
-/

namespace WifiRepeater
namespace Dns

open TtlQueue (Entry Refines Choice slotLookup)

/-- `DNS_PROXY_BUF_SIZE`. -/
def dnsProxyBufSize : ℕ := 1024

/-- `DNS_CACHE_SIZE`. -/
def dnsCacheSize : ℕ := 20

/-- `DNS_CACHE_TTL_SEC`, in the microseconds of `esp_timer_get_time`. -/
def dnsCacheTtl : ℤ := 60 * 1000000

/-- `INT64_MAX`. -/
def int64Max : ℤ := 9223372036854775807

/-- `dns_cache_entry_t`. -/
structure DnsCacheEntry where
  /-- The name, as text. -/
  qname : Buf 256
  /-- The type. -/
  qtype : UInt16
  /-- The response, followed by what earlier responses left. -/
  response : Buf dnsProxyBufSize
  /-- How many bytes the response has. -/
  responseLen : ℕ
  /-- The last instant at which the entry is served. -/
  expiryTime : ℤ
  /-- Whether the slot is in use. -/
  valid : Bool

/-- `s_dns_cache`. -/
structure DnsCache where
  /-- The slots. -/
  slots : List DnsCacheEntry
  /-- Their number is fixed. -/
  size : slots.length = dnsCacheSize

/-! ### The operations -/

/-- `dns_cache_init`: only the valid flags are cleared. -/
def dnsCacheInit (c : DnsCache) : DnsCache where
  slots := c.slots.map fun e => { e with valid := false }
  size := by rw [List.length_map, c.size]

/-- The test of `dns_cache_lookup` on one slot. -/
def DnsCacheEntry.holds (e : DnsCacheEntry) (qname : CStr) (qtype : UInt16) : Bool :=
  e.valid && e.qtype == qtype && e.qname.str.strncmpEq qname 255

/-- The loop of `dns_cache_lookup`: the response, `none` for `-1`, and the slots. -/
def lookupLoop (qname : CStr) (qtype : UInt16) (bufSize : ℕ) (now : ℤ) :
    List DnsCacheEntry → Option (List UInt8) × List DnsCacheEntry
  | [] => (none, [])
  | e :: es =>
      if e.holds qname qtype then
        -- an expired match ends the search as well
        if now > e.expiryTime then (none, { e with valid := false } :: es)
        else if e.responseLen > bufSize then (none, e :: es)
        else (some (e.response.bytes.take e.responseLen), e :: es)
      else ((lookupLoop qname qtype bufSize now es).1,
        e :: (lookupLoop qname qtype bufSize now es).2)

theorem length_lookupLoop (qname : CStr) (qtype : UInt16) (bufSize : ℕ) (now : ℤ) :
    ∀ es : List DnsCacheEntry, (lookupLoop qname qtype bufSize now es).2.length = es.length := by
  intro es
  induction es with
  | nil => rfl
  | cons e es ih =>
    unfold lookupLoop
    split_ifs <;> simp [ih]

/-- `dns_cache_lookup` at time `now`. -/
def dnsCacheLookup (c : DnsCache) (qname : CStr) (qtype : UInt16) (bufSize : ℕ) (now : ℤ) :
    Option (List UInt8) × DnsCache :=
  ((lookupLoop qname qtype bufSize now c.slots).1,
    ⟨(lookupLoop qname qtype bufSize now c.slots).2, by rw [length_lookupLoop, c.size]⟩)

/-- The loop of `dns_cache_store`, from slot `i` on: the first slot that is empty or
expired, or the one that expires first. -/
def searchLoop (now : ℤ) : List DnsCacheEntry → ℕ → ℤ → ℕ → ℕ
  | [], _, _, oldestIdx => oldestIdx
  | e :: es, i, oldestExpiry, oldestIdx =>
      -- the loop breaks at once, whatever was the oldest so far
      if e.valid = false ∨ now > e.expiryTime then i
      else if e.expiryTime < oldestExpiry then searchLoop now es (i + 1) e.expiryTime i
      else searchLoop now es (i + 1) oldestExpiry oldestIdx

/-- What `dns_cache_store` writes to the slot it found. -/
def DnsCacheEntry.fill (e : DnsCacheEntry) (qname : CStr) (qtype : UInt16)
    (response : List UInt8) (h : response.length ≤ dnsProxyBufSize) (now : ℤ) :
    DnsCacheEntry where
  qname := (e.qname.strncpy qname 255 (by decide)).setByte 255 0
  qtype := qtype
  response := e.response.memcpy response h
  responseLen := response.length
  expiryTime := now + dnsCacheTtl
  valid := true

/-- `dns_cache_store` at time `now`. -/
def dnsCacheStore (c : DnsCache) (qname : CStr) (qtype : UInt16) (response : List UInt8)
    (now : ℤ) : DnsCache :=
  if h : response.length ≤ dnsProxyBufSize then
    ⟨c.slots.modify (searchLoop now c.slots 0 int64Max 0)
      fun e => e.fill qname qtype response h now, by rw [List.length_modify, c.size]⟩
  else c

/-! ### Slots as the queue sees them -/

/-- The entry a valid slot holds. -/
def entryOf (e : DnsCacheEntry) : Option (Entry (CStr × UInt16) (List UInt8) ℤ) :=
  if e.valid then
    some ⟨(e.qname.str, e.qtype), e.response.bytes.take e.responseLen, e.expiryTime⟩
  else none

/-- A valid slot is one that a store filled: its name is terminated, its response fits
and its expiry time is a 64-bit value. -/
structure DnsCacheEntry.Filled (e : DnsCacheEntry) : Prop where
  /-- `qname[255]` is the terminator at the latest. -/
  qname : 0 ∈ e.qname.bytes
  /-- The response fits its array. -/
  response : e.responseLen ≤ dnsProxyBufSize
  /-- The expiry time did not overflow. -/
  expiry : e.expiryTime ≤ int64Max

/-- Every valid slot was filled by a store. -/
def AllFilled (es : List DnsCacheEntry) : Prop := ∀ e ∈ es, e.valid = true → e.Filled

theorem entryOf_invalid (e : DnsCacheEntry) : entryOf { e with valid := false } = none := rfl

theorem entryOf_of_valid {e : DnsCacheEntry} (h : e.valid = true) :
    entryOf e
      = some ⟨(e.qname.str, e.qtype), e.response.bytes.take e.responseLen, e.expiryTime⟩ := by
  rw [entryOf, if_pos h]

/-- What a store leaves in its slot. -/
theorem DnsCacheEntry.entryOf_fill (e : DnsCacheEntry) {qname : CStr} (hq : qname.length ≤ 255)
    (qtype : UInt16) (response : List UInt8) (h : response.length ≤ dnsProxyBufSize) (now : ℤ) :
    entryOf (e.fill qname qtype response h now)
      = some ⟨(qname, qtype), response, now + dnsCacheTtl⟩ := by
  have hname : ((e.qname.strncpy qname 255 (by decide)).setByte 255 0).str = qname := by
    apply CStr.ext
    rw [(Buf.str_strncpy_setByte e.qname qname).1]
    exact List.take_of_length_le hq
  rw [entryOf_of_valid rfl, Option.some.injEq, Entry.mk.injEq, Prod.mk.injEq]
  exact ⟨⟨hname, rfl⟩, Buf.take_memcpy e.response response h, rfl⟩

theorem DnsCacheEntry.fill_filled (e : DnsCacheEntry) (qname : CStr) (qtype : UInt16)
    (response : List UInt8) (h : response.length ≤ dnsProxyBufSize) {now : ℤ}
    (hnow : now + dnsCacheTtl ≤ int64Max) : (e.fill qname qtype response h now).Filled :=
  ⟨(Buf.str_strncpy_setByte e.qname qname).2, h, hnow⟩

/-- A lookup changes a slot only by marking it empty. -/
theorem mem_lookupLoop (qname : CStr) (qtype : UInt16) (bufSize : ℕ) (now : ℤ)
    {e : DnsCacheEntry} (hv : e.valid = true) : ∀ {es : List DnsCacheEntry},
      e ∈ (lookupLoop qname qtype bufSize now es).2 → e ∈ es := by
  intro es
  induction es with
  | nil => exact id
  | cons e' es ih =>
    unfold lookupLoop
    split_ifs with hh hexp hlen
    · -- the expired match is no longer valid
      intro he
      rcases List.mem_cons.mp he with rfl | he
      · exact absurd hv (by simp)
      · exact List.mem_cons_of_mem _ he
    · exact id
    · exact id
    · intro he
      rcases List.mem_cons.mp he with rfl | he
      · exact List.mem_cons_self
      · exact List.mem_cons_of_mem _ (ih he)

theorem mem_dnsCacheLookup {c : DnsCache} {qname : CStr} {qtype : UInt16} {bufSize : ℕ} {now : ℤ}
    {e : DnsCacheEntry} (he : e ∈ (dnsCacheLookup c qname qtype bufSize now).2.slots)
    (hv : e.valid = true) : e ∈ c.slots := mem_lookupLoop qname qtype bufSize now hv he

/-- A store changes one slot. -/
theorem mem_dnsCacheStore {c : DnsCache} {qname : CStr} {qtype : UInt16} {response : List UInt8}
    {now : ℤ} {e : DnsCacheEntry} (h : response.length ≤ dnsProxyBufSize)
    (he : e ∈ (dnsCacheStore c qname qtype response now).slots) :
    e ∈ c.slots ∨ ∃ e' : DnsCacheEntry, e = e'.fill qname qtype response h now := by
  rw [dnsCacheStore, dif_pos h] at he
  obtain ⟨j, hj⟩ := List.mem_iff_getElem?.mp he
  rw [List.getElem?_modify] at hj
  obtain ⟨e', hget, rfl⟩ := Option.map_eq_some_iff.mp hj
  split_ifs with hji
  · exact Or.inr ⟨e', rfl⟩
  · exact Or.inl (List.mem_of_getElem? hget)

/-- `strncmp` over 255 characters compares the whole names. -/
theorem holds_iff {e : DnsCacheEntry} (hf : e.valid = true → e.Filled) {qname : CStr}
    (hq : qname.length ≤ 255) (qtype : UInt16) :
    e.holds qname qtype = true ↔ e.valid = true ∧ (e.qname.str, e.qtype) = (qname, qtype) := by
  by_cases hv : e.valid = true
  · have hlen : e.qname.str.length ≤ 255 := by
      have := Buf.length_str_lt (hf hv).qname
      omega
    simp only [DnsCacheEntry.holds, hv, Bool.true_and, Bool.and_eq_true, beq_iff_eq,
      CStr.strncmpEq_iff hlen hq, Prod.mk.injEq, true_and]
    exact and_comm
  · simp [DnsCacheEntry.holds, hv]

/-- **The loop of `dns_cache_lookup` is a search of the queue's slots.** -/
theorem lookupLoop_eq {qname : CStr} (hq : qname.length ≤ 255) (qtype : UInt16) (now : ℤ) :
    ∀ es : List DnsCacheEntry, AllFilled es →
      (lookupLoop qname qtype dnsProxyBufSize now es).1
          = (slotLookup (qname, qtype) now (es.map entryOf)).1 ∧
        (lookupLoop qname qtype dnsProxyBufSize now es).2.map entryOf
          = (slotLookup (qname, qtype) now (es.map entryOf)).2 ∧
        AllFilled (lookupLoop qname qtype dnsProxyBufSize now es).2 := by
  intro es
  induction es with
  | nil => intro hf; exact ⟨rfl, rfl, hf⟩
  | cons e es ih =>
    intro hf
    have he := hf e List.mem_cons_self
    have hes : AllFilled es := fun e' h => hf e' (List.mem_cons_of_mem _ h)
    obtain ⟨ih1, ih2, ih3⟩ := ih hes
    unfold lookupLoop
    -- both searches stop at the slot whose `holds` test succeeds, and pass by all others
    by_cases hh : e.holds qname qtype = true
    · obtain ⟨hv, hkey⟩ := (holds_iff he hq qtype).mp hh
      rw [if_pos hh, List.map_cons, entryOf_of_valid hv]
      simp only [slotLookup, hkey, if_true]
      by_cases hexp : now > e.expiryTime
      · rw [if_pos hexp, if_pos hexp]
        refine ⟨rfl, by rw [List.map_cons, entryOf_invalid], ?_⟩
        intro e' he' hv'
        rcases List.mem_cons.mp he' with rfl | h
        · exact absurd hv' (by simp)
        · exact hes e' h hv'
      · rw [if_neg hexp, if_neg hexp, if_neg (by have := (he hv).response; omega)]
        exact ⟨rfl, by rw [List.map_cons, entryOf_of_valid hv, hkey], hf⟩
    · rw [if_neg hh]
      have hskip : slotLookup (qname, qtype) now ((e :: es).map entryOf)
          = ((slotLookup (qname, qtype) now (es.map entryOf)).1,
            entryOf e :: (slotLookup (qname, qtype) now (es.map entryOf)).2) := by
        rw [List.map_cons]
        by_cases hv : e.valid = true
        · rw [entryOf_of_valid hv, slotLookup, if_neg]
          exact fun hk => hh ((holds_iff he hq qtype).mpr ⟨hv, hk⟩)
        · rw [entryOf, if_neg hv, slotLookup]
      rw [hskip]
      refine ⟨ih1, by rw [List.map_cons, ih2], ?_⟩
      intro e' he' hv'
      rcases List.mem_cons.mp he' with rfl | h
      · exact he hv'
      · exact ih3 e' h hv'

/-! ### The slot a store takes -/

/-- A slot a store does not take before it has seen all of them. -/
def DnsCacheEntry.InUse (e : DnsCacheEntry) (now : ℤ) : Prop :=
  e.valid = true ∧ now ≤ e.expiryTime

theorem live_entryOf_iff (e : DnsCacheEntry) (now : ℤ) :
    TtlQueue.Live now (entryOf e) ↔ e.InUse now := by
  unfold entryOf DnsCacheEntry.InUse
  split_ifs with hv <;> simp [TtlQueue.Live, hv]

/-- What the loop of `dns_cache_store` finds, when the slots `pre` it has passed are all
in use and `oldestIdx` is the one of them that expires first. -/
theorem searchLoop_spec (now : ℤ) : ∀ (es pre : List DnsCacheEntry) (oldestExpiry : ℤ)
    (oldestIdx : ℕ), pre ++ es ≠ [] → (∀ e ∈ pre ++ es, e.valid = true → e.expiryTime ≤ int64Max) →
      (∀ e ∈ pre, e.InUse now ∧ oldestExpiry ≤ e.expiryTime) →
      ((∃ e, pre[oldestIdx]? = some e ∧ e.expiryTime = oldestExpiry) ∨
        oldestIdx = 0 ∧ oldestExpiry = int64Max) →
      ∃ e, (pre ++ es)[searchLoop now es pre.length oldestExpiry oldestIdx]? = some e ∧
        (¬e.InUse now ∨ (∀ e' ∈ pre ++ es, e'.InUse now ∧ e.expiryTime ≤ e'.expiryTime)) := by
  intro es
  induction es with
  | nil =>
    intro pre oldestExpiry oldestIdx hne hmax hpre hat
    rw [List.append_nil] at hne hmax ⊢
    rcases hat with ⟨e, hget, rfl⟩ | ⟨rfl, rfl⟩
    · exact ⟨e, hget, Or.inr hpre⟩
    · -- every slot expires at the end of time, the first one as early as the others
      obtain ⟨e, pre', rfl⟩ := List.exists_cons_of_ne_nil hne
      have he := hpre e List.mem_cons_self
      refine ⟨e, rfl, Or.inr fun e' he' => ⟨(hpre e' he').1, ?_⟩⟩
      exact (hmax e List.mem_cons_self he.1.1).trans (hpre e' he').2
  | cons e es ih =>
    intro pre oldestExpiry oldestIdx hne hmax hpre hat
    have hsplit : pre ++ e :: es = (pre ++ [e]) ++ es := by simp
    have hlen : pre.length + 1 = (pre ++ [e]).length := by simp
    have hget : (pre ++ [e])[pre.length]? = some e := by simp
    unfold searchLoop
    by_cases hfree : e.valid = false ∨ now > e.expiryTime
    -- a free slot ends the loop
    · rw [if_pos hfree]
      refine ⟨e, by simp, Or.inl ?_⟩
      rintro ⟨hv, hexp⟩
      rcases hfree with h | h
      · rw [hv] at h; exact absurd h (by decide)
      · omega
    · have huse : e.InUse now := by
        rw [not_or, Bool.not_eq_false] at hfree
        exact ⟨hfree.1, not_lt.mp hfree.2⟩
      rw [if_neg hfree, hlen]
      rw [hsplit] at hne hmax ⊢
      by_cases hlt : e.expiryTime < oldestExpiry
      · -- the new slot is the oldest so far
        rw [if_pos hlt]
        refine ih _ _ _ hne hmax ?_ (Or.inl ⟨e, hget, rfl⟩)
        intro e' he'
        rcases List.mem_append.mp he' with h | h
        · exact ⟨(hpre e' h).1, hlt.le.trans (hpre e' h).2⟩
        · rw [List.mem_singleton.mp h]; exact ⟨huse, le_rfl⟩
      · rw [if_neg hlt]
        refine ih _ _ _ hne hmax ?_ ?_
        · intro e' he'
          rcases List.mem_append.mp he' with h | h
          · exact hpre e' h
          · rw [List.mem_singleton.mp h]; exact ⟨huse, not_lt.mp hlt⟩
        · rcases hat with ⟨e', hget', he'⟩ | hat
          · refine Or.inl ⟨e', ?_, he'⟩
            rw [List.getElem?_append_left (List.getElem?_eq_some_iff.mp hget').1, hget']
          · exact Or.inr hat

/-- **The slot that is reused** is one the policy of the queue may reuse. -/
theorem searchLoop_choice (c : DnsCache) (hf : AllFilled c.slots) (now : ℤ) :
    Choice (c.slots.map entryOf) now (searchLoop now c.slots 0 int64Max 0) := by
  have hsize := c.size
  have hne : c.slots ≠ [] := by
    intro h
    rw [h] at hsize
    exact absurd hsize (by decide)
  obtain ⟨e, hget, hcase⟩ := searchLoop_spec now c.slots [] int64Max 0 hne
    (fun e he hv => (hf e he hv).expiry) (by simp) (Or.inr ⟨rfl, rfl⟩)
  rw [List.nil_append, List.length_nil] at hget
  have hmap : (c.slots.map entryOf)[searchLoop now c.slots 0 int64Max 0]? = some (entryOf e) := by
    rw [List.getElem?_map, hget]
    rfl
  rcases hcase with hfree | hall
  · exact Or.inl ⟨entryOf e, hmap, fun h => hfree ((live_entryOf_iff e now).mp h)⟩
  · have hv : e.valid = true := (hall e (List.mem_of_getElem? hget)).1.1
    refine Or.inr ⟨?_, _, by rw [hmap, entryOf_of_valid hv], ?_⟩
    · intro s hs
      obtain ⟨e', he', rfl⟩ := List.mem_map.mp hs
      exact (live_entryOf_iff e' now).mpr (hall e' he').1
    · intro x hx
      obtain ⟨e', he', hx⟩ := List.mem_map.mp hx
      rw [entryOf_of_valid (hall e' he').1.1, Option.some.injEq] at hx
      rw [← hx]
      exact (hall e' he').2

/-! ### Runs -/

/-- A name and a type, as the parser hands them to the cache. -/
structure CacheKey where
  /-- The name. -/
  qname : CStr
  /-- The type. -/
  qtype : UInt16
  /-- The parser's buffer has 256 bytes. -/
  short : qname.length ≤ 255

/-- A response of the upstream server, as received into the proxy's buffer. -/
structure Response where
  /-- Its bytes. -/
  bytes : List UInt8
  /-- An empty one is not stored. -/
  pos : 0 < bytes.length
  /-- It was received into the buffer. -/
  le : bytes.length ≤ dnsProxyBufSize

/-- A reading of `esp_timer_get_time` when a store is made.  The sum of the reading and
the TTL is a signed 64-bit one, defined as long as it does not overflow. -/
structure Reading where
  /-- Microseconds since boot. -/
  micros : ℤ
  /-- Some 292 000 years. -/
  noOverflow : micros + dnsCacheTtl ≤ int64Max

/-- A store that was made. -/
structure Stored where
  /-- Its key. -/
  key : CacheKey
  /-- What was stored. -/
  response : Response
  /-- When. -/
  time : Reading

/-- The entry a store puts into the queue. -/
def Stored.entry (e : Stored) : Entry (CStr × UInt16) (List UInt8) ℤ :=
  ⟨(e.key.qname, e.key.qtype), e.response.bytes, e.time.micros + dnsCacheTtl⟩

/-- `dns_cache_lookup` as `dns_proxy_task` calls it. -/
def lookupAt (c : DnsCache) (k : CacheKey) (now : ℤ) : Option (List UInt8) × DnsCache :=
  dnsCacheLookup c k.qname k.qtype dnsProxyBufSize now

/-- `dns_cache_store` as `dns_proxy_task` calls it. -/
def storeAt (c : DnsCache) (e : Stored) : DnsCache :=
  dnsCacheStore c e.key.qname e.key.qtype e.response.bytes e.time.micros

/-- The runs of the cache operations of `dns_proxy_task`: the cache, the stores made so
far, the newest first, and the last reading of the clock. -/
inductive CacheRun : DnsCache → List Stored → ℤ → Prop
  /-- The task starts with `dns_cache_init`, whatever the memory held. -/
  | init (c : DnsCache) (t : ℤ) : CacheRun (dnsCacheInit c) [] t
  /-- A lookup of any key. -/
  | lookup {c : DnsCache} {h : List Stored} {t t' : ℤ} (run : CacheRun c h t) (k : CacheKey)
      (ht : t ≤ t') : CacheRun (lookupAt c k t').2 h t'
  /-- A lookup that missed, and the store of the upstream's response under its key. -/
  | store {c : DnsCache} {h : List Stored} {t t' : ℤ} (run : CacheRun c h t) (e : Stored)
      (ht : t ≤ t') (hmiss : (lookupAt c e.key t').1 = none) (hts : t' ≤ e.time.micros)
      (hnew : ∀ last ∈ h.head?, last.time.micros < e.time.micros) :
      CacheRun (storeAt (lookupAt c e.key t').2 e) (e :: h) e.time.micros

/-! ### The cache refines the queue -/

/-- The cache stands for the stores made by time `t`. -/
structure CacheRefines (c : DnsCache) (h : List Stored) (t : ℤ) : Prop where
  /-- Every valid slot was filled by a store. -/
  filled : AllFilled c.slots
  /-- The slots refine the queue. -/
  queue : Refines dnsCacheSize (c.slots.map entryOf) (h.map Stored.entry) t

theorem init_refines (c : DnsCache) (t : ℤ) : CacheRefines (dnsCacheInit c) [] t where
  filled e he hv := by
    obtain ⟨e', -, rfl⟩ := List.mem_map.mp he
    exact absurd hv (by simp)
  queue := by
    refine Refines.empty (by rw [List.length_map, (dnsCacheInit c).size]) ?_ t
    intro s hs
    obtain ⟨e, he, rfl⟩ := List.mem_map.mp hs
    obtain ⟨e', -, rfl⟩ := List.mem_map.mp he
    exact entryOf_invalid e'

namespace CacheRefines

variable {c : DnsCache} {h : List Stored} {t t' : ℤ}

theorem mono (hr : CacheRefines c h t) (ht : t ≤ t') : CacheRefines c h t' :=
  ⟨hr.filled, hr.queue.mono ht⟩

theorem lookup (hr : CacheRefines c h t) (k : CacheKey) :
    CacheRefines (lookupAt c k t).2 h t := by
  obtain ⟨-, hslots, hfilled⟩ := lookupLoop_eq k.short k.qtype t c.slots hr.filled
  refine ⟨hfilled, ?_⟩
  show Refines dnsCacheSize (List.map entryOf (lookupLoop _ _ _ _ _).2) _ t
  rw [hslots]
  exact hr.queue.lookup _

/-- After a lookup that missed, no valid slot has the key. -/
theorem miss (hr : CacheRefines c h t) {k : CacheKey} (hmiss : (lookupAt c k t).1 = none) :
    ∀ x, some x ∈ (lookupAt c k t).2.slots.map entryOf → x.key ≠ (k.qname, k.qtype) := by
  obtain ⟨hans, hslots, -⟩ := lookupLoop_eq k.short k.qtype t c.slots hr.filled
  have hnone : (slotLookup (k.qname, k.qtype) t (c.slots.map entryOf)).1 = none :=
    hans.symm.trans hmiss
  intro x hx
  exact TtlQueue.slotLookup_miss hr.queue hnone x (hslots ▸ hx)

/-- **A store of a key that no slot holds stores into the queue.** -/
theorem store (hr : CacheRefines c h t) (x : Stored) (ht : t ≤ x.time.micros)
    (hkey : ∀ e, some e ∈ c.slots.map entryOf → e.key ≠ (x.key.qname, x.key.qtype))
    (hnew : ∀ last ∈ h.head?, last.time.micros < x.time.micros) :
    CacheRefines (storeAt c x) (x :: h) x.time.micros := by
  have hslots : (storeAt c x).slots = c.slots.modify
      (searchLoop x.time.micros c.slots 0 int64Max 0)
      fun e => e.fill x.key.qname x.key.qtype x.response.bytes x.response.le x.time.micros := by
    unfold storeAt dnsCacheStore
    rw [dif_pos x.response.le]
  have hchoice := searchLoop_choice c hr.filled x.time.micros
  -- the history is in the order of its deadlines, so it is enough to be later than its head
  have hlater : ∀ e ∈ h.map Stored.entry, e.deadline < x.entry.deadline := by
    intro e he
    have horder := hr.queue.order
    cases h with
    | nil => simp at he
    | cons last h =>
      have hlast : last.entry.deadline < x.entry.deadline := by
        have := hnew last rfl
        simp only [Stored.entry]
        omega
      rw [List.map_cons, List.pairwise_cons] at horder
      rw [List.map_cons, List.mem_cons] at he
      rcases he with rfl | he
      · exact hlast
      · exact (horder.1 e he).trans hlast
  constructor
  · intro e he hv
    rcases mem_dnsCacheStore x.response.le he with he | ⟨e', rfl⟩
    · exact hr.filled e he hv
    · exact e'.fill_filled _ _ _ _ x.time.noOverflow
  · have hset : (storeAt c x).slots.map entryOf = (c.slots.map entryOf).set
        (searchLoop x.time.micros c.slots 0 int64Max 0) (some x.entry) := by
      rw [hslots]
      apply List.ext_getElem?
      intro j
      have hi := Refines.choice_lt hchoice
      rw [List.length_map] at hi
      rw [List.getElem?_map, List.getElem?_modify, List.getElem?_set, List.getElem?_map,
        List.length_map]
      split_ifs with hji
      · rw [← hji, List.getElem?_eq_getElem hi]
        exact congrArg some (DnsCacheEntry.entryOf_fill _ x.key.short _ _ _ _)
      · simp
    rw [hset, List.map_cons]
    exact (hr.queue.mono ht).store hchoice hkey hlater

end CacheRefines

/-- **Over every run the slots stand for the last twenty stores.** -/
theorem CacheRun.refines {c : DnsCache} {h : List Stored} {t : ℤ} (run : CacheRun c h t) :
    CacheRefines c h t := by
  induction run with
  | init c t => exact init_refines c t
  | lookup run k ht ih => exact (ih.mono ht).lookup k
  | store run e ht hmiss hts hnew ih =>
    have hmono := ih.mono ht
    exact (hmono.lookup e.key).store e hts (hmono.miss hmiss) hnew

/-- **What a lookup answers after a run**: the response of a store of the key that is at
most sixty seconds old and among the last twenty.  No two valid slots have one key. -/
theorem lookup_after_run {c : DnsCache} {h : List Stored} {t : ℤ} (run : CacheRun c h t) :
    (∀ (k : CacheKey) (t' : ℤ) (resp : List UInt8), t ≤ t' →
      ((lookupAt c k t').1 = some resp ↔
        ∃ (i : ℕ) (e : Stored), h[i]? = some e ∧ i < 20 ∧ e.key = k ∧
          t' - e.time.micros ≤ 60 * 1000000 ∧ e.response.bytes = resp)) ∧
      ∀ (i j : ℕ) (e e' : DnsCacheEntry), c.slots[i]? = some e → c.slots[j]? = some e' →
        e.valid = true → e'.valid = true → e.qname.str = e'.qname.str → e.qtype = e'.qtype →
        i = j := by
  have hr := run.refines
  constructor
  · intro k t' resp ht
    have hmono := hr.mono ht
    have hans := (lookupLoop_eq k.short k.qtype t' c.slots hr.filled).1
    show (lookupLoop _ _ _ _ _).1 = some resp ↔ _
    -- from here on the question is what the queue answers
    rw [hans, TtlQueue.slotLookup_eq_some_iff hmono.queue]
    constructor
    · rintro ⟨x, hx, hkey, hd, rfl⟩
      obtain ⟨i, hi, hget⟩ := List.mem_take_iff_getElem.mp hx
      rw [List.length_map] at hi
      rw [List.getElem_map] at hget
      rw [← hget] at hkey hd
      refine ⟨i, h[i], List.getElem?_eq_getElem (by omega), ?_, ?_, ?_, by rw [← hget]; rfl⟩
      · unfold dnsCacheSize at hi; omega
      · rw [Stored.entry, Prod.mk.injEq] at hkey
        cases hk : h[i].key
        rw [hk] at hkey
        cases k
        simp only [CacheKey.mk.injEq]
        exact hkey
      · simp only [Stored.entry, dnsCacheTtl] at hd
        omega
    · rintro ⟨i, e, hget, hi, rfl, hd, rfl⟩
      obtain ⟨hlt, hge⟩ := List.getElem?_eq_some_iff.mp hget
      refine ⟨e.entry, List.mem_take_iff_getElem.mpr ⟨i, ?_, ?_⟩, rfl, ?_, rfl⟩
      · unfold dnsCacheSize
        rw [List.length_map]
        omega
      · rw [List.getElem_map, hge]
      · simp only [Stored.entry, dnsCacheTtl]
        omega
  · intro i j e e' hi hj hv hv' hname htype
    refine hr.queue.keys i j _ _ (by rw [List.getElem?_map, hi, Option.map_some,
      entryOf_of_valid hv]) (by rw [List.getElem?_map, hj, Option.map_some,
      entryOf_of_valid hv']) ?_
    rw [Prod.mk.injEq]
    exact ⟨hname, htype⟩

/-- The cache as static storage starts. -/
def zeroCache : DnsCache where
  slots := List.replicate dnsCacheSize ⟨Buf.zero 256, 0, Buf.zero dnsProxyBufSize, 0, 0, false⟩
  size := List.length_replicate

/-- Stores one after the other, each after a lookup of its key. -/
def storeAll : DnsCache → List Stored → DnsCache
  | c, [] => c
  | c, e :: es => storeAll (storeAt (lookupAt c e.key e.time.micros).2 e) es

/-- Each of these lookups misses. -/
def allMiss : DnsCache → List Stored → Bool
  | _, [] => true
  | c, e :: es => (lookupAt c e.key e.time.micros).1.isNone &&
      allMiss (storeAt (lookupAt c e.key e.time.micros).2 e) es

/-- Such stores are a run, when time goes on. -/
theorem CacheRun.storeAll {T : ℤ} : ∀ (es : List Stored) {c : DnsCache} {h : List Stored} {t : ℤ},
    CacheRun c h t → allMiss c es = true →
      (h.head?.toList ++ es).IsChain (fun a b => a.time.micros < b.time.micros) →
      (∀ e ∈ es.head?, t ≤ e.time.micros) → (∀ e ∈ es, e.time.micros ≤ T) → t ≤ T →
      ∃ t' ≤ T, CacheRun (Dns.storeAll c es) (es.reverse ++ h) t' := by
  intro es
  induction es with
  | nil => intro c h t run _ _ _ _ ht; exact ⟨t, ht, run⟩
  | cons e es ih =>
    intro c h t run hmiss hchain hfirst hle ht
    rw [allMiss, Bool.and_eq_true, Option.isNone_iff_eq_none] at hmiss
    have hnew : ∀ last ∈ h.head?, last.time.micros < e.time.micros := by
      intro last hlast
      rw [Option.mem_def.mp hlast] at hchain
      exact (List.isChain_cons_cons.mp hchain).1
    have hrest : (e :: es).IsChain fun a b => a.time.micros < b.time.micros := by
      cases hh : h.head? with
      | none => rwa [hh] at hchain
      | some last =>
        rw [hh] at hchain
        exact (List.isChain_cons_cons.mp hchain).2
    obtain ⟨t', ht', hrun⟩ := ih (run.store e (hfirst e rfl) hmiss.1 le_rfl hnew) hmiss.2 hrest
      (fun e' he' => by
        cases es with
        | nil => cases he'
        | cons a es =>
          obtain rfl := Option.some.inj he'
          exact (List.isChain_cons_cons.mp hrest).1.le)
      (fun e' he' => hle e' (List.mem_cons_of_mem _ he')) (hle e List.mem_cons_self)
    exact ⟨t', ht', by simpa [Dns.storeAll] using hrun⟩

/-- A store of a two-byte response for `a` and the type `i`, one second after the other. -/
def typedStore (i : Fin 22) : Stored where
  key := ⟨CStr.lit "a", UInt16.ofNat i, by decide⟩
  response := ⟨[UInt8.ofNat i, 7], by simp, by simp [dnsProxyBufSize]⟩
  time := ⟨(i + 1) * 1000000, by have := i.isLt; simp [dnsCacheTtl, int64Max]; omega⟩

/-- Twenty-two stores, and half a minute after boot a lookup of three keys: the first two have
given their slots to the last two, and the third is answered. -/
theorem lookup_after_many_stores :
    let c := storeAll (dnsCacheInit zeroCache) ((List.finRange 22).map typedStore)
    (lookupAt c (typedStore 0).key 30000000).1 = none ∧
      (lookupAt c (typedStore 1).key 30000000).1 = none ∧
      (lookupAt c (typedStore 2).key 30000000).1 = some [2, 7] := by
  obtain ⟨t', ht', run⟩ := (CacheRun.init zeroCache 0).storeAll (T := 30000000)
    ((List.finRange 22).map typedStore) (by decide +kernel) (by decide +kernel)
    (by decide +kernel) (by decide +kernel) (by decide)
  obtain ⟨hlookup, -⟩ := lookup_after_run run
  have hgone : ∀ i : Fin 22, i < 2 →
      (lookupAt (storeAll (dnsCacheInit zeroCache) ((List.finRange 22).map typedStore))
        (typedStore i).key 30000000).1 = none := by
    intro i hi
    by_contra hsome
    obtain ⟨resp, hresp⟩ := Option.ne_none_iff_exists'.mp hsome
    obtain ⟨j, e, hget, hj, hkey, -⟩ := (hlookup _ _ _ ht').mp hresp
    -- of the last twenty stores none is of the first two types
    have htypes : ∀ j < 20, ∀ e ∈ ((List.finRange 22).map typedStore).reverse[j]?,
        ∀ i : Fin 22, i < 2 → e.key.qtype ≠ (typedStore i).key.qtype := by decide +kernel
    rw [List.append_nil] at hget
    exact htypes j hj e hget i hi (congrArg CacheKey.qtype hkey)
  exact ⟨hgone 0 (by decide), hgone 1 (by decide),
    (hlookup _ _ _ ht').mpr ⟨19, typedStore 2, rfl, by decide, rfl, by decide, rfl⟩⟩

end Dns
end WifiRepeater
