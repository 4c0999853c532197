import WifiRepeater.Lib.Rfc1035
import WifiRepeater.Dns.Access

/-!
# The captive answers, as a resolver reads them

In captive mode the device answers a query itself.  The builders copy the header and the
question of the datagram, overwrite most of the header, and append a record or nothing.
What they copy ends where the second walker of the question stops, which is where the
parser stopped; what they do not overwrite is the question count, and they copy one
question whatever it says.

## Main definitions

* `Question.decoded`, `addressRecord` — what a decoder makes of a question, and of the
  record appended.
* `WellFormedReply` — a reply reads as an answer to the query.

## Main results

* `walkers_agree` — **the two walkers of the question agree.**
* `decode_reply`, `decode_reply_eq_none` — when a reply can be decoded.
* `captive_replies_wellFormed_iff` — **queries with one question are answered well.**
-/

namespace WifiRepeater
namespace Dns

open Rfc1035 (Name word wireLength decode)

/-! ### Where the parser stops -/

theorem length_putChar_le {n : ℕ} {out : List UInt8} (c : UInt8) (h : out.length ≤ n - 1) :
    (putChar n out c).length ≤ n - 1 := by
  rw [putChar]
  split_ifs
  · rw [List.length_append, List.length_singleton]
    omega
  · exact h

theorem length_copyLabel_le {buf : List UInt8} {n : ℕ} : ∀ (k off : ℕ) (out : List UInt8),
    out.length ≤ n - 1 → (copyLabel buf n k off out).length ≤ n - 1 := by
  intro k
  induction k with
  | zero => intro off out h; exact h
  | succ k ih => intro off out h; exact ih _ _ (length_putChar_le _ h)

/-- The name stays within its buffer, short of the terminator. -/
theorem length_le_of_labelLoop {buf : List UInt8} {len n : ℕ} : ∀ (fuel off : ℕ)
    (out : List UInt8) (r : ℕ × List UInt8), out.length ≤ n - 1 →
      labelLoop buf len n fuel off out = some r → r.2.length ≤ n - 1 := by
  intro fuel
  induction fuel with
  | zero =>
    intro off out r hout h
    obtain rfl := Option.some.inj h
    exact hout
  | succ fuel ih =>
    intro off out r hout h
    rw [labelLoop] at h
    by_cases hoff : off < len
    · simp only [if_pos hoff] at h
      by_cases hzero : byteAt buf off = 0
      · rw [if_pos hzero] at h
        obtain rfl := Option.some.inj h
        exact hout
      rw [if_neg hzero] at h
      split at h
      · simp at h
      · split at h
        · simp at h
        -- one more label
        · refine ih _ _ r (length_copyLabel_le _ _ _ ?_) h
          split_ifs
          · exact length_putChar_le _ hout
          · exact hout
    · rw [if_neg hoff] at h
      obtain rfl := Option.some.inj h
      exact hout

/-- A parser with no room for a character accepts nothing. -/
theorem two_le_of_parseDnsQuery {buf : List UInt8} {len n : ℕ} {r : List UInt8 × UInt16}
    (h : parseDnsQuery buf len n = some r) : 2 ≤ n := by
  rw [parseDnsQuery] at h
  split_ifs at h
  split at h
  · simp at h
  · next off qname hloop =>
    have hle := length_le_of_labelLoop _ _ _ _ (Nat.zero_le _) hloop
    simp only at hle
    by_contra hn
    rw [if_pos (by omega)] at h
    simp at h

/-! ### What the builders copy -/

theorem copyBytes_eq_take {buf : List UInt8} (len : ℕ) {k : ℕ} (h : k ≤ len) :
    copyBytes buf k = (received buf len).take k := by
  rw [received, copyBytes, copyBytes, ← List.map_take, List.take_range, Nat.min_eq_left h]

@[simp] theorem length_encode (q : Question) :
    q.encode.length = (encodeName q.labels).length + 4 := by
  simp [Question.encode]

/-- Up to the end of the question, the datagram is its header and that question. -/
theorem copyBytes_of_carries {buf : List UInt8} {len : ℕ} {q : Question} (h : Carries buf len q) :
    copyBytes buf (12 + q.encode.length) = copyBytes buf 12 ++ q.encode := by
  have hle := h.length_le
  rw [copyBytes_eq_take len (by rw [length_encode]; omega), copyBytes_eq_take len (by omega),
    List.take_add, List.prefix_iff_eq_take.mp h]
  simp

/-- Only received bytes are copied. -/
theorem copyBytes_congr {buf buf' : List UInt8} {len k : ℕ}
    (h : received buf' len = received buf len) (hk : k ≤ len) :
    copyBytes buf' k = copyBytes buf k := by
  rw [copyBytes_eq_take len hk, copyBytes_eq_take len hk, h]

/-- The header of a reply: the ID and the question count are the query's. -/
def replyHeader (buf : List UInt8) (ancount : UInt8) : List UInt8 :=
  [byteAt buf 0, byteAt buf 1, 0x81, 0x80, byteAt buf 4, byteAt buf 5, 0, ancount, 0, 0, 0, 0]

@[simp] theorem length_replyHeader (buf : List UInt8) (ancount : UInt8) :
    (replyHeader buf ancount).length = 12 := rfl

@[simp] theorem length_ipBytes (ip : UInt32) : (ipBytes ip).length = 4 := rfl

@[simp] theorem length_answerRecord (ip : UInt32) : (answerRecord ip).length = 16 := rfl

theorem patchHeader_copyBytes (buf : List UInt8) (ancount : UInt8) (xs : List UInt8) :
    patchHeader (copyBytes buf 12 ++ xs) ancount = replyHeader buf ancount ++ xs := rfl

theorem questionEnd_eq {buf : List UInt8} {len : ℕ} {q : Question} (h : Carries buf len q) :
    questionEnd buf len = some (12 + q.encode.length) := by
  rw [questionEnd_of_carries h, length_encode, Nat.add_assoc]

/-- The bytes of an address reply. -/
theorem buildCaptiveResponse_of_carries {buf : List UInt8} {len : ℕ} {q : Question}
    (h : Carries buf len q) {cap : ℕ} {ip : UInt32} {r : List UInt8}
    (hr : buildCaptiveResponse buf len cap ip = some r) :
    r = replyHeader buf 1 ++ (q.encode ++ answerRecord ip) := by
  rw [buildCaptiveResponse, questionEnd_eq h] at hr
  simp only at hr
  split_ifs at hr
  rw [← Option.some.inj hr, copyBytes_of_carries h, patchHeader_copyBytes, List.append_assoc]

/-- The bytes of an empty reply. -/
theorem buildNodataResponse_of_carries {buf : List UInt8} {len : ℕ} {q : Question}
    (h : Carries buf len q) {cap : ℕ} {r : List UInt8}
    (hr : buildNodataResponse buf len cap = some r) :
    r = replyHeader buf 0 ++ q.encode := by
  rw [buildNodataResponse, questionEnd_eq h] at hr
  simp only at hr
  split_ifs at hr
  rw [← Option.some.inj hr, copyBytes_of_carries h, patchHeader_copyBytes]

theorem Carries.of_received {buf buf' : List UInt8} {len : ℕ} {q : Question}
    (hsame : received buf' len = received buf len) (h : Carries buf len q) :
    Carries buf' len q := by
  rw [Carries, hsame]
  exact h

/-- What lies behind the received bytes does not matter to the builders. -/
theorem builders_congr {buf buf' : List UInt8} {len : ℕ} {q : Question}
    (hsame : received buf' len = received buf len) (h : Carries buf len q) (cap : ℕ)
    (ip : UInt32) :
    buildCaptiveResponse buf' len cap ip = buildCaptiveResponse buf len cap ip ∧
      buildNodataResponse buf' len cap = buildNodataResponse buf len cap := by
  have hle := h.length_le
  have hcopy := copyBytes_congr hsame (k := 12 + q.encode.length) (by rw [length_encode]; omega)
  rw [buildCaptiveResponse, buildCaptiveResponse, buildNodataResponse, buildNodataResponse,
    questionEnd_eq h, questionEnd_eq (h.of_received hsame)]
  simp only
  rw [hcopy]
  exact ⟨rfl, rfl⟩

/-! ### The two walkers -/

/-- **The two walkers of the question agree**: on a datagram the parser accepts, the
second one stops right behind the type and the class that the parser found behind the
name, and that is within the datagram.  So the builders copy the header and the logged
question, and read received bytes only. -/
theorem walkers_agree {buf : List UInt8} {len n : ℕ} {name : List UInt8} {qtype : UInt16}
    (h : parseDnsQuery buf len n = some (name, qtype)) :
    ∃ q off, Carries buf len q ∧ name = render n q.labels ∧ qtype = q.qtype ∧
      labelLoop buf len n len 12 [] = some (off, name) ∧ qtype = be16At buf off ∧
      off = 12 + (encodeName q.labels).length ∧
      questionEnd buf len = some (off + 4) ∧ off + 4 ≤ len ∧
      copyBytes buf (off + 4) = copyBytes buf 12 ++ q.encode ∧
      (∀ cap ip, ∀ r ∈ buildCaptiveResponse buf len cap ip, q.encode <+: r.drop 12) ∧
      (∀ cap, ∀ r ∈ buildNodataResponse buf len cap, q.encode = r.drop 12) ∧
      ∀ buf', received buf' len = received buf len → ∀ cap ip,
        buildCaptiveResponse buf' len cap ip = buildCaptiveResponse buf len cap ip ∧
          buildNodataResponse buf' len cap = buildNodataResponse buf len cap := by
  have hn := two_le_of_parseDnsQuery h
  obtain ⟨-, -, q, hq, hne, rfl, rfl⟩ := (parseDnsQuery_eq_some_iff hn).mp h
  obtain ⟨rest, hrest⟩ := hq.exists_rest
  have hle := hq.length_le
  have hloop := labelLoop_of_encodeName n _ len 12 [] _ hrest (by omega)
  rw [foldl_putLabel n hn] at hloop
  have hcopy := copyBytes_of_carries hq
  rw [length_encode, ← Nat.add_assoc] at hcopy
  -- the type is what stands behind the name
  obtain ⟨-, hb0, hnext⟩ := unread_eq_cons (unread_add hrest)
  obtain ⟨-, hb1, -⟩ := unread_eq_cons hnext
  have htype : q.qtype = be16At buf (12 + (encodeName q.labels).length) := by
    rw [be16At, hb0, hb1, eq_comm, ← be16_eq_iff]
    rfl
  refine ⟨q, _, hq, rfl, rfl, hloop, htype, rfl, questionEnd_of_carries hq, hle, hcopy, ?_, ?_, ?_⟩
  · intro cap ip r hr
    rw [buildCaptiveResponse_of_carries hq hr]
    exact List.prefix_append _ _
  · intro cap r hr
    rw [buildNodataResponse_of_carries hq hr]
    rfl
  · intro buf' hsame cap ip
    exact builders_congr hsame hq cap ip

/-- A query for the address of `a.b`. -/
def addressQuery : List UInt8 :=
  [0, 7, 1, 0, 0, 1, 0, 0, 0, 0, 0, 0, 1, 0x61, 1, 0x62, 0, 0, 1, 0, 1]

/-- Its question. -/
def addressQuestion : Question := ⟨[.single 0x61, .single 0x62], 1, 1⟩

/-- Both walkers end the name at offset 17. -/
theorem walkers_agree_addressQuery :
    ∃ q, Carries addressQuery 21 q ∧ q.qtype = 1 ∧ questionEnd addressQuery 21 = some (17 + 4) := by
  obtain ⟨q, off, hq, -, htype, hloop, -, -, hend, -⟩ :=
    walkers_agree (show parseDnsQuery addressQuery 21 256 = some ([0x61, 0x2e, 0x62], 1) by decide)
  have hoff : labelLoop addressQuery 21 256 21 12 [] = some (17, [0x61, 0x2e, 0x62]) := by decide
  rw [hoff, Option.some.injEq, Prod.mk.injEq] at hloop
  exact ⟨q, hq, htype.symm, hloop.1 ▸ hend⟩

/-! ### What a decoder makes of a reply -/

/-- The labels as a decoder has them. -/
def Question.name (q : Question) : Name := q.labels.map Label.bytes

/-- The question as a decoder has it. -/
def Question.decoded (q : Question) : Rfc1035.Question :=
  ⟨q.name, q.qtype.toNat, q.qclass.toNat⟩

/-- The answer to an address query: type A, class IN, 60 seconds, the address. -/
def addressRecord (q : Question) (ip : UInt32) : Rfc1035.Record := ⟨q.name, 1, 1, 60, ipBytes ip⟩

/-- A reply is decoded, to its last byte, as an answer to the query `q` in `buf`: with its
ID and its question, no error, as many questions as it counts, the given answers and
nothing else. -/
structure WellFormedReply (nameMax : ℕ) (buf : List UInt8) (len : ℕ) (q : Question)
    (answers : List Rfc1035.Record) (reply : List UInt8) : Prop where
  /-- What is decoded. -/
  decoded : ∃ m, decode nameMax reply = some m ∧ word (received buf len) 0 = some m.id ∧
    m.qr = true ∧ m.rcode = 0 ∧ m.qdcount = m.questions.length ∧ m.questions = [q.decoded] ∧
    m.answers = answers ∧ m.authority = [] ∧ m.additional = []
  /-- The bytes of the question. -/
  question : q.encode <+: reply.drop 12

/-- The query counts one question, and its name is within the limit. -/
def OneQuestion (nameMax : ℕ) (buf : List UInt8) (len : ℕ) (q : Question) : Prop :=
  word (received buf len) 4 = some 1 ∧ (encodeName q.labels).length ≤ nameMax

theorem encodeName_eq (ls : List Label) : encodeName ls = Rfc1035.encode (ls.map Label.bytes) := by
  induction ls with
  | nil => rfl
  | cons l ls ih => rw [encodeName, ih, List.map_cons, Rfc1035.encode]

theorem wireLength_name (q : Question) : wireLength q.name = (encodeName q.labels).length := by
  rw [encodeName_eq, Rfc1035.length_encode]
  rfl

theorem valid_name (q : Question) : q.name.Valid := by
  intro l hl
  obtain ⟨l, -, rfl⟩ := List.mem_map.mp hl
  exact ⟨l.pos, by have := l.le; omega⟩

theorem word_be16 {msg rest : List UInt8} {off : ℕ} {v : UInt16}
    (h : msg.drop off = be16 v ++ rest) : word msg off = some v.toNat := by
  rw [Rfc1035.word_of_drop (show msg.drop off = (v >>> 8).toUInt8 :: v.toUInt8 :: rest from h),
    hi_toNat, UInt16.toNat_toUInt8, Nat.div_add_mod']

theorem word_received {buf : List UInt8} {len i : ℕ} (h : i + 1 < len) :
    word (received buf len) i = some ((byteAt buf i).toNat * 256 + (byteAt buf (i + 1)).toNat) := by
  have h0 : unread buf len i = byteAt buf i :: unread buf len (i + 1) := unread_cons (by omega)
  rw [unread_cons h] at h0
  exact Rfc1035.word_of_drop h0

/-- The second word of every reply: a response without an error. -/
theorem reply_flags {m : Rfc1035.Message} (h : m.flags = 33152) : m.qr = true ∧ m.rcode = 0 := by
  rw [Rfc1035.Message.qr, Rfc1035.Message.rcode, h]
  exact ⟨by decide, by decide⟩

/-- The answer count of every reply. -/
theorem word_ancount (buf : List UInt8) (ancount : UInt8) (xs : List UInt8) :
    word (replyHeader buf ancount ++ xs) 6 = some ancount.toNat := by
  have hdrop : (replyHeader buf ancount ++ xs).drop 6
      = 0 :: ancount :: 0 :: 0 :: 0 :: 0 :: xs := rfl
  rw [Rfc1035.word_of_drop hdrop, UInt8.toNat_zero, Nat.zero_mul, Nat.zero_add]

section Reply

variable {nameMax : ℕ} {buf : List UInt8} {len : ℕ} {q : Question} {ancount : UInt8}
  {tail reply : List UInt8}

/-- The question of a reply stands behind the header. -/
theorem drop_reply (hreply : reply = replyHeader buf ancount ++ (q.encode ++ tail)) :
    reply.drop 12 =
      Rfc1035.encode q.name ++ (be16 q.qtype ++ (be16 q.qclass ++ tail)) := by
  have hdrop : reply.drop 12 = q.encode ++ tail := by rw [hreply]; rfl
  rw [hdrop, Question.encode, encodeName_eq]
  simp only [List.append_assoc]
  rfl

/-- It is decoded when its name is within the limit. -/
theorem questionAt_reply (hreply : reply = replyHeader buf ancount ++ (q.encode ++ tail))
    (hmax : (encodeName q.labels).length ≤ nameMax) :
    Rfc1035.questionAt nameMax reply 12 = some (q.decoded, 12 + q.encode.length) := by
  have h := drop_reply hreply
  have hname := Rfc1035.decodeName_encode (valid_name q) h (wireLength_name q ▸ hmax)
  have htype := Rfc1035.drop_of_drop h
  rw [Rfc1035.length_encode] at htype
  rw [Rfc1035.questionAt_of hname (word_be16 htype) (word_be16 (Rfc1035.drop_of_drop htype)),
    length_encode, wireLength_name]
  rfl

/-- Nothing else is decoded there. -/
theorem eq_of_questionAt_reply (hreply : reply = replyHeader buf ancount ++ (q.encode ++ tail))
    {r : Rfc1035.Question × ℕ} (hr : Rfc1035.questionAt nameMax reply 12 = some r) :
    r.2 = 12 + q.encode.length ∧ (encodeName q.labels).length ≤ nameMax := by
  have h := drop_reply hreply
  obtain ⟨next, hname, -, -, hend⟩ := Rfc1035.questionAt_eq_some hr
  have heq := Rfc1035.eq_of_decodeName (valid_name q) h hname
  simp only [Prod.mk.injEq] at heq
  refine ⟨?_, ?_⟩
  · rw [hend, heq.2, length_encode, wireLength_name]
    omega
  · by_contra hmax
    rw [Rfc1035.decodeName_eq_none (valid_name q) h (by rw [wireLength_name]; omega)] at hname
    simp at hname

/-- **A reply to one question is decoded**, when its records are. -/
theorem decode_reply (hreply : reply = replyHeader buf ancount ++ (q.encode ++ tail))
    (h12 : 12 ≤ len) (hone : OneQuestion nameMax buf len q) {answers : List Rfc1035.Record}
    (hrecords : Rfc1035.many (Rfc1035.recordAt nameMax reply) ancount.toNat
      (12 + q.encode.length) = some (answers, reply.length)) :
    WellFormedReply nameMax buf len q answers reply := by
  have hid : word (received buf len) 0 = _ := word_received (show 0 + 1 < len by omega)
  refine ⟨⟨⟨_, 33152, 1, ancount.toNat, 0, 0, [q.decoded], answers, [], []⟩, ?_, hid,
    (reply_flags rfl).1, (reply_flags rfl).2, rfl, rfl, rfl, rfl, rfl⟩, ?_⟩
  · have hcount : word reply 4 = some 1 := by
      have hone := hone.1
      rw [word_received (by omega)] at hone
      rw [← hone, hreply]
      rfl
    have hquestions : Rfc1035.many (Rfc1035.questionAt nameMax reply) 1 12
        = some ([q.decoded], 12 + q.encode.length) :=
      Rfc1035.many_succ (questionAt_reply hreply hone.2)
    refine Rfc1035.decode_eq_some_iff.mpr ⟨?_, ?_, hcount, ?_, ?_, ?_,
      ⟨_, _, _, hquestions, hrecords, rfl, rfl⟩⟩
    · rw [hreply]
      rfl
    · rw [hreply]
      rfl
    · rw [hreply]
      exact word_ancount buf ancount _
    · rw [hreply]
      rfl
    · rw [hreply]
      rfl
  · rw [hreply]
    exact List.prefix_append _ _

/-- **A reply to several questions is not decoded**, nor is one whose name is too long:
the bytes behind the one question copied would have to hold another question and the
records. -/
theorem decode_reply_eq_none (hreply : reply = replyHeader buf ancount ++ (q.encode ++ tail))
    (h12 : 12 ≤ len) (hcount : ¬(byteAt buf 4 = 0 ∧ byteAt buf 5 = 0))
    (hone : ¬OneQuestion nameMax buf len q)
    (hshort : ∀ r, Rfc1035.questionAt nameMax reply (12 + q.encode.length) = some r →
      reply.length < r.2 + 11 * ancount.toNat) :
    decode nameMax reply = none := by
  by_contra hsome
  obtain ⟨m, hm⟩ := Option.ne_none_iff_exists'.mp hsome
  obtain ⟨-, -, hqd, han, hns, har, qend, anend, nsend, hqs, hans, hauth, hadd⟩ :=
    Rfc1035.decode_eq_some_iff.mp hm
  have hcounts : word reply 4 = some ((byteAt buf 4).toNat * 256 + (byteAt buf 5).toNat) ∧
      word reply 6 = some ancount.toNat ∧ word reply 8 = some 0 ∧ word reply 10 = some 0 := by
    rw [hreply]
    exact ⟨rfl, word_ancount buf ancount _, rfl, rfl⟩
  rw [hcounts.1, Option.some.injEq] at hqd
  rw [hcounts.2.1, Option.some.injEq] at han
  rw [hcounts.2.2.1, Option.some.injEq] at hns
  rw [hcounts.2.2.2, Option.some.injEq] at har
  rw [← hqd] at hqs
  -- the first question is the query's
  obtain ⟨k, hk⟩ : ∃ k, (byteAt buf 4).toNat * 256 + (byteAt buf 5).toNat = k + 1 := by
    refine Nat.exists_eq_succ_of_ne_zero fun h0 => hcount ⟨?_, ?_⟩ <;>
      exact UInt8.toNat_inj.mp (by simp; omega)
  rw [hk] at hqs
  obtain ⟨x, next, rs, hx, hrs, hqs⟩ := Rfc1035.many_succ_eq_some hqs
  obtain ⟨hnext, hmax⟩ := eq_of_questionAt_reply hreply hx
  simp only at hnext
  -- it counts a second one
  obtain ⟨k, rfl⟩ : ∃ k', k = k' + 1 := by
    refine Nat.exists_eq_succ_of_ne_zero fun h0 => hone ⟨?_, hmax⟩
    rw [word_received (by omega), hk, h0]
  obtain ⟨y, next', rs', hy, hrs', rfl⟩ := Rfc1035.many_succ_eq_some hrs
  rw [hnext] at hy
  have hlt := hshort _ hy
  -- and the records need more than what is left
  have hq := Rfc1035.many_le (d := 0) (fun off r h => by
    have := Rfc1035.add_five_le_of_questionAt h; omega) _ _ _ hrs'
  have ha := Rfc1035.many_le (fun off r h => Rfc1035.add_eleven_le_of_recordAt h) _ _ _ hans
  rw [← hns] at hauth
  rw [← har] at hadd
  obtain ⟨-, rfl⟩ := Prod.mk.inj (Option.some.inj hauth)
  obtain ⟨-, rfl⟩ := Prod.mk.inj (Option.some.inj hadd)
  obtain ⟨-, rfl⟩ := Prod.mk.inj hqs
  simp only at hq ha hlt
  rw [← han] at ha
  omega

end Reply

/-! ### The two builders -/

section Builders

variable {nameMax : ℕ} {buf : List UInt8} {len : ℕ} {q : Question}

/-- What stands behind the question of an address reply. -/
theorem drop_answer {ip : UInt32} {reply : List UInt8}
    (hreply : reply = replyHeader buf 1 ++ (q.encode ++ answerRecord ip)) :
    reply.drop (12 + q.encode.length) = 0xC0 :: 0x0C ::
      ([0, 1] ++ ([0, 1] ++ ([0, 0] ++ ([0, 60] ++ ([0, 4] ++ (ipBytes ip ++ [])))))) := by
  have hdrop : reply.drop 12 = q.encode ++ answerRecord ip := by rw [hreply]; rfl
  rw [Rfc1035.drop_of_drop hdrop]
  simp [answerRecord]

/-- **The answer is one record**: its pointer leads to the queried name. -/
theorem many_answer {ip : UInt32} {reply : List UInt8}
    (hreply : reply = replyHeader buf 1 ++ (q.encode ++ answerRecord ip))
    (hmax : (encodeName q.labels).length ≤ nameMax) :
    Rfc1035.many (Rfc1035.recordAt nameMax reply) 1 (12 + q.encode.length)
      = some ([addressRecord q ip], reply.length) := by
  have hlength : reply.length = 12 + q.encode.length + 2 + 10 + (ipBytes ip).length := by
    rw [hreply, List.length_append, List.length_append, length_replyHeader, length_answerRecord,
      length_ipBytes]
    omega
  have hdrop := drop_answer hreply
  have hname := Rfc1035.decodeName_of_pointer (b := 0xC0) (by decide) hdrop
    (show 12 < _ by rw [length_encode]; omega) (valid_name q) (drop_reply hreply)
    (wireLength_name q ▸ hmax)
  have hnext := Rfc1035.drop_of_drop
    (show reply.drop (12 + q.encode.length) = [0xC0, 0x0C] ++ _ from hdrop)
  have hfour : (0 : UInt8).toNat * 256 + (4 : UInt8).toNat = (ipBytes ip).length := by
    simp [ipBytes]
  have hrecord := Rfc1035.recordAt_of hname hnext hfour
  simp only [UInt8.toNat_zero, UInt8.toNat_one, UInt8.reduceToNat, Nat.zero_mul, Nat.zero_add]
    at hrecord
  rw [Rfc1035.many_succ hrecord, ← hlength]
  rfl

/-- A second question there would begin with the pointer. -/
theorem answer_short {ip : UInt32} {reply : List UInt8}
    (hreply : reply = replyHeader buf 1 ++ (q.encode ++ answerRecord ip))
    {r : Rfc1035.Question × ℕ}
    (hr : Rfc1035.questionAt nameMax reply (12 + q.encode.length) = some r) :
    reply.length < r.2 + 11 * (1 : UInt8).toNat := by
  obtain ⟨next, hname, -, -, hend⟩ := Rfc1035.questionAt_eq_some hr
  have hnext := Rfc1035.decodeName_pointer (Rfc1035.getElem?_of_drop (drop_answer hreply))
    (by decide) hname
  have hlength : reply.length = 12 + q.encode.length + 16 := by
    rw [hreply, List.length_append, List.length_append, length_replyHeader, length_answerRecord,
      Nat.add_assoc]
  have hone : (1 : UInt8).toNat = 1 := rfl
  simp only at hnext
  omega

/-- **Queries with one question are answered well**, and they alone: for every datagram
the parser accepts, a reply of either builder is decoded as the answer to its question,
with one address record or with none, if and only if the datagram counts one question and
the decoder takes names of that length. -/
theorem captive_replies_wellFormed_iff (nameMax : ℕ) {n : ℕ} {name : List UInt8} {qtype : UInt16}
    (h : parseDnsQuery buf len n = some (name, qtype)) (cap : ℕ) (ip : UInt32) :
    ∃ q, Carries buf len q ∧
      (∀ reply ∈ buildCaptiveResponse buf len cap ip,
        WellFormedReply nameMax buf len q [addressRecord q ip] reply ↔
          OneQuestion nameMax buf len q) ∧
      ∀ reply ∈ buildNodataResponse buf len cap,
        WellFormedReply nameMax buf len q [] reply ↔ OneQuestion nameMax buf len q := by
  obtain ⟨h12, hcount, q, hq, -⟩ :=
    (parseDnsQuery_eq_some_iff (two_le_of_parseDnsQuery h)).mp h
  refine ⟨q, hq, fun reply hr => ?_, fun reply hr => ?_⟩
  · have hreply := buildCaptiveResponse_of_carries hq hr
    constructor
    · rintro ⟨⟨m, hm, -⟩, -⟩
      by_contra hone
      rw [decode_reply_eq_none hreply h12 hcount hone fun r => answer_short hreply] at hm
      simp at hm
    · intro hone
      exact decode_reply hreply h12 hone (many_answer hreply hone.2)
  · have hreply : reply = replyHeader buf 0 ++ (q.encode ++ []) := by
      rw [buildNodataResponse_of_carries hq hr, List.append_nil]
    have hlength : reply.length = 12 + q.encode.length := by
      rw [hreply, List.append_nil, List.length_append, length_replyHeader]
    constructor
    · rintro ⟨⟨m, hm, -⟩, -⟩
      by_contra hone
      -- nothing stands behind the question
      rw [decode_reply_eq_none hreply h12 hcount hone fun r hr => by
        have := Rfc1035.add_five_le_of_questionAt hr; omega] at hm
      simp at hm
    · intro hone
      refine decode_reply hreply h12 hone ?_
      rw [hlength]
      rfl

/-- The reply to the query for `a.b` is well formed. -/
theorem captive_reply_addressQuery :
    ∃ reply, buildCaptiveResponse addressQuery 21 512 0x0104A8C0 = some reply ∧
      WellFormedReply 255 addressQuery 21 addressQuestion
        [addressRecord addressQuestion 0x0104A8C0] reply := by
  obtain ⟨q, hq, hcaptive, -⟩ := captive_replies_wellFormed_iff 255
    (show parseDnsQuery addressQuery 21 256 = some ([0x61, 0x2e, 0x62], 1) by decide)
    512 0x0104A8C0
  obtain rfl := hq.unique (show Carries addressQuery 21 addressQuestion by decide)
  obtain ⟨reply, hreply⟩ := Option.isSome_iff_exists.mp
    (show (buildCaptiveResponse addressQuery 21 512 0x0104A8C0).isSome by decide)
  exact ⟨reply, hreply, (hcaptive reply hreply).mpr ⟨by decide, by decide⟩⟩

/-- A query that asks for the addresses of `a` and of `b`. -/
def twoQuestions : List UInt8 :=
  [0, 7, 1, 0, 0, 2, 0, 0, 0, 0, 0, 0, 1, 0x61, 0, 0, 1, 0, 1, 1, 0x62, 0, 0, 1, 0, 1]

/-- Its first question. -/
def firstQuestion : Question := ⟨[.single 0x61], 1, 1⟩

/-- Neither reply to it can be decoded. -/
theorem twoQuestions_ill_answered :
    parseDnsQuery twoQuestions 26 256 = some ([0x61], 1) ∧ Carries twoQuestions 26 firstQuestion ∧
      (∃ reply, buildCaptiveResponse twoQuestions 26 512 0x0104A8C0 = some reply ∧
        decode 255 reply = none ∧ ¬WellFormedReply 255 twoQuestions 26 firstQuestion
          [addressRecord firstQuestion 0x0104A8C0] reply) ∧
      ∃ reply, buildNodataResponse twoQuestions 26 512 = some reply ∧
        decode 255 reply = none ∧
          ¬WellFormedReply 255 twoQuestions 26 firstQuestion [] reply := by
  have hill : ∀ answers reply, decode 255 reply = none →
      ¬WellFormedReply 255 twoQuestions 26 firstQuestion answers reply := by
    rintro answers reply hnone ⟨⟨m, hm, -⟩, -⟩
    rw [hnone] at hm
    simp at hm
  have hcaptive :
      (buildCaptiveResponse twoQuestions 26 512 0x0104A8C0).bind (decode 255) = none := by
    decide +kernel
  have hnodata : (buildNodataResponse twoQuestions 26 512).bind (decode 255) = none := by
    decide +kernel
  obtain ⟨reply, hreply⟩ := Option.isSome_iff_exists.mp
    (show (buildCaptiveResponse twoQuestions 26 512 0x0104A8C0).isSome by decide)
  obtain ⟨reply', hreply'⟩ := Option.isSome_iff_exists.mp
    (show (buildNodataResponse twoQuestions 26 512).isSome by decide)
  rw [hreply] at hcaptive
  rw [hreply'] at hnodata
  exact ⟨by decide, by decide, ⟨reply, hreply, hcaptive, hill _ _ hcaptive⟩,
    ⟨reply', hreply', hnodata, hill _ _ hnodata⟩⟩

end Builders

end Dns
end WifiRepeater
