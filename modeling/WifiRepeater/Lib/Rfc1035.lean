import Mathlib.Data.List.Basic
import Mathlib.Data.Option.Basic

/-!
# Reading DNS messages

The message format of RFC 1035 as a decoder reads it: a header of six words, then as many
questions and records as the header counts, with nothing left over.  A name is a sequence
of labels; it ends in the zero byte, or in a pointer to a name that stands before it.

Numbers in a message are natural numbers here.  The limit on the length of a name is a
parameter; the RFC sets it to 255.

## Main definitions

* `Name`, `encode`, `wireLength` — names and their form without pointers.
* `nameAt`, `questionAt`, `recordAt` — what stands at an offset, and the offset behind it.
* `Message`, `decode` — a whole message.

## Main results

* `nameAt_encode`, `eq_of_nameAt` — reading a name written without pointers.
* `many_le` — how far a section reaches.
* `decode_eq_some_iff` — a message is its header and its four sections.
-/

namespace Rfc1035

/-- A domain name: its labels, the root's left out. -/
abbrev Name := List (List UInt8)

/-- The labels of a name have 1 to 63 bytes. -/
def Name.Valid (name : Name) : Prop := ∀ l ∈ name, 0 < l.length ∧ l.length < 64

/-- A name written without pointers. -/
def encode : Name → List UInt8
  | [] => [0]
  | l :: name => UInt8.ofNat l.length :: (l ++ encode name)

/-- The bytes a name counts for: its labels with their length bytes, and the root's. -/
def wireLength : Name → ℕ
  | [] => 1
  | l :: name => l.length + 1 + wireLength name

/-- The 16-bit number at an offset. -/
def word (msg : List UInt8) (off : ℕ) : Option ℕ := do
  let hi ← msg[off]?
  let lo ← msg[off + 1]?
  some (hi.toNat * 256 + lo.toNat)

/-- The labels from an offset on.  A pointer has to lead to a place before `lim`, the start
of the name it ends. -/
def nameAt (msg : List UInt8) : ℕ → ℕ → ℕ → Option (Name × ℕ)
  | 0, _, _ => none
  | fuel + 1, lim, off =>
      match msg[off]? with
      | none => none
      | some b =>
          if b = 0 then some ([], off + 1)
          else if b.toNat < 64 then
            if off + 1 + b.toNat ≤ msg.length then
              (nameAt msg fuel lim (off + 1 + b.toNat)).map fun r =>
                ((msg.drop (off + 1)).take b.toNat :: r.1, r.2)
            else none
          -- the other two forms of a length byte are reserved
          else if b.toNat < 192 then none
          else
            (msg[off + 1]?).bind fun lo =>
              let target := (b.toNat - 192) * 256 + lo.toNat
              if target < lim then
                (nameAt msg fuel target target).map fun r => (r.1, off + 2)
              else none

/-- The name at an offset.  One within the limit has fewer labels than that, and pointers
lead back, so the turns suffice. -/
def decodeName (nameMax : ℕ) (msg : List UInt8) (off : ℕ) : Option (Name × ℕ) :=
  (nameAt msg (nameMax + msg.length + 1) off off).filter fun r => wireLength r.1 ≤ nameMax

/-- A question. -/
structure Question where
  /-- QNAME. -/
  name : Name
  /-- QTYPE. -/
  qtype : ℕ
  /-- QCLASS. -/
  qclass : ℕ
  deriving DecidableEq

/-- A resource record. -/
structure Record where
  /-- NAME. -/
  name : Name
  /-- TYPE. -/
  rtype : ℕ
  /-- CLASS. -/
  rclass : ℕ
  /-- TTL. -/
  ttl : ℕ
  /-- RDATA. -/
  rdata : List UInt8
  deriving DecidableEq

/-- The question at an offset. -/
def questionAt (nameMax : ℕ) (msg : List UInt8) (off : ℕ) : Option (Question × ℕ) := do
  let (name, off) ← decodeName nameMax msg off
  let qtype ← word msg off
  let qclass ← word msg (off + 2)
  some (⟨name, qtype, qclass⟩, off + 4)

/-- The record at an offset. -/
def recordAt (nameMax : ℕ) (msg : List UInt8) (off : ℕ) : Option (Record × ℕ) := do
  let (name, off) ← decodeName nameMax msg off
  let rtype ← word msg off
  let rclass ← word msg (off + 2)
  let hi ← word msg (off + 4)
  let lo ← word msg (off + 6)
  let rdlength ← word msg (off + 8)
  if off + 10 + rdlength ≤ msg.length then
    some (⟨name, rtype, rclass, hi * 65536 + lo, (msg.drop (off + 10)).take rdlength⟩,
      off + 10 + rdlength)
  else none

/-- A counted section. -/
def many {α : Type} (item : ℕ → Option (α × ℕ)) : ℕ → ℕ → Option (List α × ℕ)
  | 0, off => some ([], off)
  | k + 1, off => (item off).bind fun r => (many item k r.2).map fun rs => (r.1 :: rs.1, rs.2)

/-- A message. -/
structure Message where
  /-- ID. -/
  id : ℕ
  /-- The second word: QR, OPCODE, AA, TC, RD, RA, Z and RCODE. -/
  flags : ℕ
  /-- QDCOUNT. -/
  qdcount : ℕ
  /-- ANCOUNT. -/
  ancount : ℕ
  /-- NSCOUNT. -/
  nscount : ℕ
  /-- ARCOUNT. -/
  arcount : ℕ
  /-- The question section. -/
  questions : List Question
  /-- The answer section. -/
  answers : List Record
  /-- The authority section. -/
  authority : List Record
  /-- The additional section. -/
  additional : List Record
  deriving DecidableEq

/-- QR: the message is a response. -/
def Message.qr (m : Message) : Bool := m.flags / 32768 = 1

/-- RCODE. -/
def Message.rcode (m : Message) : ℕ := m.flags % 16

/-- A message is a header and four sections, and nothing behind them. -/
def decode (nameMax : ℕ) (msg : List UInt8) : Option Message := do
  let id ← word msg 0
  let flags ← word msg 2
  let qdcount ← word msg 4
  let ancount ← word msg 6
  let nscount ← word msg 8
  let arcount ← word msg 10
  let (questions, off) ← many (questionAt nameMax msg) qdcount 12
  let (answers, off) ← many (recordAt nameMax msg) ancount off
  let (authority, off) ← many (recordAt nameMax msg) nscount off
  let (additional, off) ← many (recordAt nameMax msg) arcount off
  if off = msg.length then
    some ⟨id, flags, qdcount, ancount, nscount, arcount, questions, answers, authority, additional⟩
  else none

/-! ### What stands at an offset -/

section Drop

variable {msg rest : List UInt8} {off : ℕ}

theorem getElem?_of_drop {b : UInt8} (h : msg.drop off = b :: rest) : msg[off]? = some b := by
  rw [← List.head?_drop, h, List.head?_cons]

theorem drop_of_drop {xs : List UInt8} (h : msg.drop off = xs ++ rest) :
    msg.drop (off + xs.length) = rest := by
  rw [← List.drop_drop, h, List.drop_left]

theorem drop_succ_of_drop {b : UInt8} (h : msg.drop off = b :: rest) :
    msg.drop (off + 1) = rest := drop_of_drop (show msg.drop off = [b] ++ rest from h)

theorem length_of_drop {xs : List UInt8} (h : msg.drop off = xs ++ rest) (hxs : xs ≠ []) :
    off + xs.length + rest.length = msg.length := by
  have hlen := congrArg List.length h
  have hpos := List.length_pos_iff.mpr hxs
  rw [List.length_drop, List.length_append] at hlen
  omega

theorem word_of_drop {hi lo : UInt8} (h : msg.drop off = hi :: lo :: rest) :
    word msg off = some (hi.toNat * 256 + lo.toNat) := by
  rw [word, getElem?_of_drop h, getElem?_of_drop (drop_succ_of_drop h)]
  rfl

end Drop

/-! ### Names -/

theorem length_encode (name : Name) : (encode name).length = wireLength name := by
  induction name with
  | nil => rfl
  | cons l name ih =>
    rw [encode, wireLength, List.length_cons, List.length_append, ih]
    omega

theorem wireLength_pos (name : Name) : 0 < wireLength name := by
  cases name <;> rw [wireLength] <;> omega

/-- One label and the rest of a name without pointers. -/
theorem nameAt_cons {msg rest : List UInt8} {l : List UInt8} {name : Name} {off : ℕ}
    (hl : 0 < l.length ∧ l.length < 64) (h : msg.drop off = encode (l :: name) ++ rest)
    (fuel lim : ℕ) :
    nameAt msg (fuel + 1) lim off
        = (nameAt msg fuel lim (off + 1 + l.length)).map (fun r => (l :: r.1, r.2)) ∧
      msg.drop (off + 1 + l.length) = encode name ++ rest := by
  rw [encode, List.cons_append, List.append_assoc] at h
  have hrest := drop_succ_of_drop h
  have hnat : (UInt8.ofNat l.length).toNat = l.length := by
    rw [UInt8.toNat_ofNat', Nat.mod_eq_of_lt (by omega)]
  have hne : UInt8.ofNat l.length ≠ 0 := by
    intro h0
    rw [h0, UInt8.toNat_zero] at hnat
    omega
  have hfits := length_of_drop hrest (List.length_pos_iff.mp hl.1)
  refine ⟨?_, drop_of_drop hrest⟩
  rw [nameAt, getElem?_of_drop h]
  simp only
  rw [if_neg hne, hnat, if_pos hl.2, if_pos (by omega), hrest, List.take_left]

theorem nameAt_nil {msg rest : List UInt8} {off : ℕ} (h : msg.drop off = encode [] ++ rest)
    (fuel lim : ℕ) : nameAt msg (fuel + 1) lim off = some ([], off + 1) := by
  rw [nameAt, getElem?_of_drop (show msg.drop off = 0 :: rest from h)]
  rfl

/-- **A name without pointers is read to its end.** -/
theorem nameAt_encode {msg : List UInt8} : ∀ (name : Name) (fuel lim off : ℕ)
    (rest : List UInt8), name.Valid → msg.drop off = encode name ++ rest →
      wireLength name ≤ fuel →
      nameAt msg fuel lim off = some (name, off + wireLength name) := by
  intro name
  induction name with
  | nil =>
    intro fuel lim off rest _ h hfuel
    obtain ⟨fuel, rfl⟩ : ∃ k, fuel = k + 1 := ⟨fuel - 1, by have := wireLength_pos []; omega⟩
    exact nameAt_nil h fuel lim
  | cons l name ih =>
    intro fuel lim off rest hvalid h hfuel
    rw [wireLength] at hfuel ⊢
    obtain ⟨fuel, rfl⟩ : ∃ k, fuel = k + 1 := ⟨fuel - 1, by omega⟩
    obtain ⟨hstep, hnext⟩ := nameAt_cons (hvalid l (by simp)) h fuel lim
    rw [hstep, ih fuel lim _ rest (fun l' hl' => hvalid l' (by simp [hl'])) hnext (by omega)]
    simp only [Option.map_some, Option.some.injEq, Prod.mk.injEq, true_and]
    omega

/-- Whatever the number of turns, nothing else is read there. -/
theorem eq_of_nameAt {msg : List UInt8} : ∀ (name : Name) (fuel lim off : ℕ)
    (rest : List UInt8) (r : Name × ℕ), name.Valid → msg.drop off = encode name ++ rest →
      nameAt msg fuel lim off = some r → r = (name, off + wireLength name) := by
  intro name
  induction name with
  | nil =>
    intro fuel lim off rest r _ h hr
    cases fuel with
    | zero => simp [nameAt] at hr
    | succ fuel => rw [nameAt_nil h, Option.some.injEq] at hr; exact hr.symm
  | cons l name ih =>
    intro fuel lim off rest r hvalid h hr
    cases fuel with
    | zero => simp [nameAt] at hr
    | succ fuel =>
      obtain ⟨hstep, hnext⟩ := nameAt_cons (hvalid l (by simp)) h fuel lim
      rw [hstep, Option.map_eq_some_iff] at hr
      obtain ⟨r', hr', rfl⟩ := hr
      rw [ih fuel lim _ rest r' (fun l' hl' => hvalid l' (by simp [hl'])) hnext hr']
      simp only [wireLength, Prod.mk.injEq, true_and]
      omega

/-- What is read has moved the offset. -/
theorem lt_of_nameAt {msg : List UInt8} : ∀ (fuel lim off : ℕ) (r : Name × ℕ),
    nameAt msg fuel lim off = some r → off < r.2 := by
  intro fuel
  induction fuel with
  | zero => intro lim off r h; simp [nameAt] at h
  | succ fuel ih =>
    intro lim off r h
    rw [nameAt] at h
    split at h
    · simp at h
    · split_ifs at h
      · obtain rfl := Option.some.inj h
        exact Nat.lt_succ_self off
      · obtain ⟨r', hr', rfl⟩ := Option.map_eq_some_iff.mp h
        have := ih _ _ _ hr'
        simp only
        omega
      · obtain ⟨lo, -, h⟩ := Option.bind_eq_some_iff.mp h
        simp only at h
        split_ifs at h
        obtain ⟨r', -, rfl⟩ := Option.map_eq_some_iff.mp h
        simp only
        omega

/-- A pointer takes two bytes. -/
theorem nameAt_pointer {msg : List UInt8} {fuel lim off : ℕ} {b : UInt8} {r : Name × ℕ}
    (hb : msg[off]? = some b) (hptr : 192 ≤ b.toNat) (h : nameAt msg fuel lim off = some r) :
    r.2 = off + 2 := by
  cases fuel with
  | zero => simp [nameAt] at h
  | succ fuel =>
    have hne : b ≠ 0 := by rintro rfl; simp at hptr
    rw [nameAt, hb] at h
    simp only at h
    rw [if_neg hne, if_neg (by omega), if_neg (by omega)] at h
    obtain ⟨lo, -, h⟩ := Option.bind_eq_some_iff.mp h
    split_ifs at h
    obtain ⟨r', -, rfl⟩ := Option.map_eq_some_iff.mp h
    rfl

/-- A name within the limit. -/
theorem decodeName_encode {nameMax : ℕ} {msg rest : List UInt8} {name : Name} {off : ℕ}
    (hvalid : name.Valid) (h : msg.drop off = encode name ++ rest)
    (hmax : wireLength name ≤ nameMax) :
    decodeName nameMax msg off = some (name, off + wireLength name) := by
  rw [decodeName, nameAt_encode name _ _ _ rest hvalid h (by omega)]
  simpa [Option.filter_some] using hmax

/-- A name beyond the limit. -/
theorem decodeName_eq_none {nameMax : ℕ} {msg rest : List UInt8} {name : Name} {off : ℕ}
    (hvalid : name.Valid) (h : msg.drop off = encode name ++ rest)
    (hmax : nameMax < wireLength name) : decodeName nameMax msg off = none := by
  rw [decodeName, Option.filter_eq_none_iff]
  intro r hr
  rw [eq_of_nameAt name _ _ _ rest r hvalid h hr]
  simpa using hmax

/-- A name is one name, whatever the limit. -/
theorem eq_of_decodeName {nameMax : ℕ} {msg rest : List UInt8} {name : Name} {off : ℕ}
    {r : Name × ℕ} (hvalid : name.Valid) (h : msg.drop off = encode name ++ rest)
    (hr : decodeName nameMax msg off = some r) : r = (name, off + wireLength name) :=
  eq_of_nameAt name _ _ _ rest r hvalid h (Option.filter_eq_some_iff.mp hr).1

theorem lt_of_decodeName {nameMax : ℕ} {msg : List UInt8} {off : ℕ} {r : Name × ℕ}
    (h : decodeName nameMax msg off = some r) : off < r.2 :=
  lt_of_nameAt _ _ _ _ (Option.filter_eq_some_iff.mp h).1

theorem decodeName_pointer {nameMax : ℕ} {msg : List UInt8} {off : ℕ} {b : UInt8}
    {r : Name × ℕ} (hb : msg[off]? = some b) (hptr : 192 ≤ b.toNat)
    (h : decodeName nameMax msg off = some r) : r.2 = off + 2 :=
  nameAt_pointer hb hptr (Option.filter_eq_some_iff.mp h).1

/-- A pointer to a name written without pointers stands for that name. -/
theorem decodeName_of_pointer {nameMax : ℕ} {msg rest rest' : List UInt8} {name : Name}
    {off : ℕ} {b lo : UInt8} (hptr : 192 ≤ b.toNat) (h : msg.drop off = b :: lo :: rest)
    (hback : (b.toNat - 192) * 256 + lo.toNat < off) (hvalid : name.Valid)
    (hname : msg.drop ((b.toNat - 192) * 256 + lo.toNat) = encode name ++ rest')
    (hmax : wireLength name ≤ nameMax) :
    decodeName nameMax msg off = some (name, off + 2) := by
  have hne : b ≠ 0 := by rintro rfl; simp at hptr
  have hat : nameAt msg (nameMax + msg.length + 1) off off = some (name, off + 2) := by
    rw [nameAt, getElem?_of_drop h]
    simp only
    rw [if_neg hne, if_neg (by omega), if_neg (by omega),
      getElem?_of_drop (drop_succ_of_drop h), Option.bind_some, if_pos hback,
      nameAt_encode name _ _ _ rest' hvalid hname (by omega)]
    rfl
  rw [decodeName, hat]
  simpa [Option.filter_some] using hmax

/-! ### Questions and records -/

/-- A question is a name and four bytes. -/
theorem questionAt_eq_some {nameMax : ℕ} {msg : List UInt8} {off : ℕ} {r : Question × ℕ}
    (h : questionAt nameMax msg off = some r) :
    ∃ next, decodeName nameMax msg off = some (r.1.name, next) ∧
      word msg next = some r.1.qtype ∧ word msg (next + 2) = some r.1.qclass ∧
      r.2 = next + 4 := by
  simp only [questionAt, Option.bind_eq_bind, Option.bind_eq_some_iff] at h
  obtain ⟨⟨name, next⟩, hname, qtype, htype, qclass, hclass, h⟩ := h
  obtain rfl := Option.some.inj h
  exact ⟨next, hname, htype, hclass, rfl⟩

theorem questionAt_of {nameMax : ℕ} {msg : List UInt8} {off next qtype qclass : ℕ} {name : Name}
    (hname : decodeName nameMax msg off = some (name, next)) (htype : word msg next = some qtype)
    (hclass : word msg (next + 2) = some qclass) :
    questionAt nameMax msg off = some (⟨name, qtype, qclass⟩, next + 4) := by
  simp [questionAt, hname, htype, hclass]

/-- A name, four words and the data that the last of them counts. -/
theorem recordAt_of {nameMax : ℕ} {msg rdata rest : List UInt8} {off next : ℕ} {name : Name}
    {t₁ t₂ c₁ c₂ s₁ s₂ s₃ s₄ l₁ l₂ : UInt8}
    (hname : decodeName nameMax msg off = some (name, next))
    (h : msg.drop next =
      [t₁, t₂] ++ ([c₁, c₂] ++ ([s₁, s₂] ++ ([s₃, s₄] ++ ([l₁, l₂] ++ (rdata ++ rest))))))
    (hlen : l₁.toNat * 256 + l₂.toNat = rdata.length) :
    recordAt nameMax msg off = some (⟨name, t₁.toNat * 256 + t₂.toNat,
      c₁.toNat * 256 + c₂.toNat,
      (s₁.toNat * 256 + s₂.toNat) * 65536 + (s₃.toNat * 256 + s₄.toNat), rdata⟩,
      next + 10 + rdata.length) := by
  have h2 := drop_of_drop h
  have h4 := drop_of_drop h2
  have h6 := drop_of_drop h4
  have h8 := drop_of_drop h6
  have h10 := drop_of_drop h8
  simp only [List.length_cons, List.length_nil, Nat.reduceAdd, Nat.add_assoc] at h2 h4 h6 h8 h10
  have hfits := length_of_drop h8 (by simp)
  rw [List.length_append] at hfits
  simp only [List.length_cons, List.length_nil] at hfits
  rw [recordAt, hname]
  simp only [Option.bind_eq_bind, Option.bind_some]
  rw [word_of_drop h, word_of_drop h2, word_of_drop h4, word_of_drop h6, word_of_drop h8]
  simp only [Option.bind_some]
  rw [hlen, if_pos (by omega), h10, List.take_left]

theorem add_five_le_of_questionAt {nameMax : ℕ} {msg : List UInt8} {off : ℕ} {r : Question × ℕ}
    (h : questionAt nameMax msg off = some r) : off + 5 ≤ r.2 := by
  obtain ⟨next, hname, -, -, hend⟩ := questionAt_eq_some h
  have := lt_of_decodeName hname
  simp only at this
  omega

/-- A record takes a name and ten bytes at least. -/
theorem add_eleven_le_of_recordAt {nameMax : ℕ} {msg : List UInt8} {off : ℕ} {r : Record × ℕ}
    (h : recordAt nameMax msg off = some r) : off + 11 ≤ r.2 := by
  simp only [recordAt, Option.bind_eq_bind, Option.bind_eq_some_iff] at h
  obtain ⟨⟨name, next⟩, hname, _, -, _, -, _, -, _, -, _, -, h⟩ := h
  have := lt_of_decodeName hname
  split_ifs at h
  obtain rfl := Option.some.inj h
  simp only at this ⊢
  omega

/-! ### Sections and messages -/

section Many

variable {α : Type} {item : ℕ → Option (α × ℕ)}

theorem many_succ {k off : ℕ} {x : α} {next : ℕ} (h : item off = some (x, next)) :
    many item (k + 1) off = (many item k next).map fun rs => (x :: rs.1, rs.2) := by
  rw [many, h]
  rfl

theorem many_succ_eq_some {k off : ℕ} {r : List α × ℕ} (h : many item (k + 1) off = some r) :
    ∃ x next rs, item off = some (x, next) ∧ many item k next = some rs ∧
      r = (x :: rs.1, rs.2) := by
  rw [many, Option.bind_eq_some_iff] at h
  obtain ⟨⟨x, next⟩, hx, h⟩ := h
  obtain ⟨rs, hrs, rfl⟩ := Option.map_eq_some_iff.mp h
  exact ⟨x, next, rs, hx, hrs, rfl⟩

/-- **How far a section reaches**: every item of it takes at least `d` bytes. -/
theorem many_le {d : ℕ} (hitem : ∀ off r, item off = some r → off + d ≤ r.2) :
    ∀ (k off : ℕ) (r : List α × ℕ), many item k off = some r → off + d * k ≤ r.2 := by
  intro k
  induction k with
  | zero =>
    intro off r h
    obtain rfl := Option.some.inj h
    simp
  | succ k ih =>
    intro off r h
    obtain ⟨x, next, rs, hx, hrs, rfl⟩ := many_succ_eq_some h
    have h1 := hitem _ _ hx
    have h2 := ih _ _ hrs
    simp only [Nat.mul_succ] at h1 h2 ⊢
    omega

end Many

/-- The sections of a message, one behind the other up to its end. -/
structure Sections (nameMax : ℕ) (msg : List UInt8) (m : Message) : Prop where
  /-- They meet. -/
  meet : ∃ qend anend nsend, many (questionAt nameMax msg) m.qdcount 12 = some (m.questions, qend) ∧
    many (recordAt nameMax msg) m.ancount qend = some (m.answers, anend) ∧
    many (recordAt nameMax msg) m.nscount anend = some (m.authority, nsend) ∧
    many (recordAt nameMax msg) m.arcount nsend = some (m.additional, msg.length)

/-- **A message is its header and its sections.** -/
theorem decode_eq_some_iff {nameMax : ℕ} {msg : List UInt8} {m : Message} :
    decode nameMax msg = some m ↔
      word msg 0 = some m.id ∧ word msg 2 = some m.flags ∧ word msg 4 = some m.qdcount ∧
      word msg 6 = some m.ancount ∧ word msg 8 = some m.nscount ∧ word msg 10 = some m.arcount ∧
      Sections nameMax msg m := by
  constructor
  · intro h
    -- the six words of the header, and then the four sections
    obtain ⟨id, hid, h⟩ := Option.bind_eq_some_iff.mp h
    obtain ⟨flags, hflags, h⟩ := Option.bind_eq_some_iff.mp h
    obtain ⟨qd, hqd, h⟩ := Option.bind_eq_some_iff.mp h
    obtain ⟨an, han, h⟩ := Option.bind_eq_some_iff.mp h
    obtain ⟨ns, hns, h⟩ := Option.bind_eq_some_iff.mp h
    obtain ⟨ar, har, h⟩ := Option.bind_eq_some_iff.mp h
    obtain ⟨⟨qs, qend⟩, hqs, h⟩ := Option.bind_eq_some_iff.mp h
    obtain ⟨⟨ans, anend⟩, hans, h⟩ := Option.bind_eq_some_iff.mp h
    obtain ⟨⟨auth, nsend⟩, hauth, h⟩ := Option.bind_eq_some_iff.mp h
    obtain ⟨⟨add, fin⟩, hadd, h⟩ := Option.bind_eq_some_iff.mp h
    dsimp only at h
    split_ifs at h with hend
    obtain rfl := Option.some.inj h
    subst hend
    exact ⟨hid, hflags, hqd, han, hns, har, ⟨qend, anend, nsend, hqs, hans, hauth, hadd⟩⟩
  · rintro ⟨hid, hflags, hqd, han, hns, har, ⟨qend, anend, nsend, hqs, hans, hauth, hadd⟩⟩
    simp only [decode, hid, hflags, hqd, han, hns, har, hqs, hans, hauth, hadd,
      Option.bind_eq_bind, Option.bind_some, if_pos]

end Rfc1035
