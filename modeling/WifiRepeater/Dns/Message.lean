import Mathlib.Data.List.GetD

/-!
# DNS messages, as the proxy reads and writes them

The proxy walks the question of a datagram twice, with two loops that were written
apart: `parse_dns_query` turns the name into text for the log and the cache, and
`question_end` finds where the question stops, so that the captive answers can copy it.
Both are translated index by index, reading a buffer of which only the first `len`
bytes were received; what stands behind them is left over from earlier use.

What they should agree on is the wire format itself: a `Question` is a list of labels,
a type and a class, and its encoding stands right after the twelve bytes of the header.

## Main definitions

* `parseDnsQuery`, `questionEnd` — the two walkers.
* `buildCaptiveResponse`, `buildNodataResponse` — the captive answers.
* `Label`, `Question`, `Question.encode` — the wire format.
* `Carries buf len q` — the datagram carries the question `q`.
* `render n ls` — the text the parser makes of labels, in a buffer of `n` bytes.

## Main results

* `parseDnsQuery_eq_some_iff` — **what the parser accepts and answers.**
* `Carries.unique` — a datagram carries one question.
* `questionEnd_of_carries` — the second walker stops at the end of that question.
-/

namespace WifiRepeater
namespace Dns

/-! ### The two walkers -/

/-- `buf[i]`. -/
def byteAt (buf : List UInt8) (i : ℕ) : UInt8 := buf.getD i 0

/-- `isprint` in the C locale. -/
def isprint (b : UInt8) : Bool := 0x20 ≤ b && b ≤ 0x7e

/-- The character the parser shows for a byte: itself, or `?`. -/
def shown (b : UInt8) : UInt8 := if isprint b then b else 0x3f

/-- Write one character to the name buffer, if there is room before the terminator. -/
def putChar (qnameLen : ℕ) (out : List UInt8) (c : UInt8) : List UInt8 :=
  if out.length < qnameLen - 1 then out ++ [c] else out

/-- The inner loop: copy the characters of one label, `n` of them from `offset` on. -/
def copyLabel (buf : List UInt8) (qnameLen : ℕ) : ℕ → ℕ → List UInt8 → List UInt8
  | 0, _, out => out
  | n + 1, offset, out =>
      copyLabel buf qnameLen n (offset + 1) (putChar qnameLen out (shown (byteAt buf offset)))

/-- The outer loop over the labels, `out` being what `qname` holds so far.  It answers
the offset behind the name.  Every turn moves the offset, so `len` turns are enough. -/
def labelLoop (buf : List UInt8) (len qnameLen : ℕ) :
    ℕ → ℕ → List UInt8 → Option (ℕ × List UInt8)
  | 0, offset, out => some (offset, out)
  | fuel + 1, offset, out =>
      if offset < len then
        let labelLen := byteAt buf offset
        let offset := offset + 1
        if labelLen = 0 then some (offset, out)
        -- compression pointers, and every length from 64 on
        else if labelLen &&& 0xC0 ≠ 0 then none
        else if offset + labelLen.toNat > len then none
        else
          let out := if out.length ≠ 0 then putChar qnameLen out 0x2e else out
          let out := copyLabel buf qnameLen labelLen.toNat offset out
          labelLoop buf len qnameLen fuel (offset + labelLen.toNat) out
      else some (offset, out)

/-- A big-endian 16-bit value. -/
def be16At (buf : List UInt8) (offset : ℕ) : UInt16 :=
  (byteAt buf offset).toUInt16 <<< 8 ||| (byteAt buf (offset + 1)).toUInt16

/-- `parse_dns_query`: the name as text and the query type, or `none` for `false`. -/
def parseDnsQuery (buf : List UInt8) (len qnameLen : ℕ) : Option (List UInt8 × UInt16) :=
  if qnameLen = 0 ∨ len < 12 then none
  else if byteAt buf 4 = 0 ∧ byteAt buf 5 = 0 then none
  else
    match labelLoop buf len qnameLen len 12 [] with
    | none => none
    | some (offset, qname) =>
        if qname.length = 0 then none
        else if offset + 4 > len then none
        else some (qname, be16At buf offset)

/-- The loop of `question_end`. -/
def walkLabels (buf : List UInt8) (len : ℕ) : ℕ → ℕ → ℕ
  | 0, off => off
  | fuel + 1, off =>
      if off < len ∧ byteAt buf off ≠ 0 then
        walkLabels buf len fuel (off + ((byteAt buf off).toNat + 1))
      else off

/-- `question_end`: the offset behind the question, or `none` for `-1`. -/
def questionEnd (buf : List UInt8) (len : ℕ) : Option ℕ :=
  let off := walkLabels buf len len 12
  if off < len then some (off + 1 + 4) else none

/-! ### The captive answers -/

/-- `memcpy(out, q, n)`. -/
def copyBytes (q : List UInt8) (n : ℕ) : List UInt8 := (List.range n).map (byteAt q)

/-- The header fields both answers set: QR, RD and RA, the answer count, and no
authority or additional records. -/
def patchHeader (out : List UInt8) (ancount : UInt8) : List UInt8 :=
  (((((((out.set 2 0x81).set 3 0x80).set 6 0x00).set 7 ancount).set 8 0).set 9 0).set 10 0).set 11 0

/-- An address as it lies in memory, in network order. -/
def ipBytes (ip : UInt32) : List UInt8 :=
  [ip.toUInt8, (ip >>> 8).toUInt8, (ip >>> 16).toUInt8, (ip >>> 24).toUInt8]

/-- The answer record: a pointer to the name at offset 12, type A, class IN, a TTL of
60 seconds, and the address. -/
def answerRecord (ip : UInt32) : List UInt8 :=
  [0xC0, 0x0C, 0x00, 0x01, 0x00, 0x01, 0x00, 0x00, 0x00, 0x3C, 0x00, 0x04] ++ ipBytes ip

/-- `build_captive_response`: an A record with the device's address. -/
def buildCaptiveResponse (q : List UInt8) (qlen outCap : ℕ) (ip : UInt32) :
    Option (List UInt8) :=
  match questionEnd q qlen with
  | none => none
  | some qend =>
      if qend + 16 > outCap then none
      else some (patchHeader (copyBytes q qend) 0x01 ++ answerRecord ip)

/-- `build_nodata_response`: no error and no answer. -/
def buildNodataResponse (q : List UInt8) (qlen outCap : ℕ) : Option (List UInt8) :=
  match questionEnd q qlen with
  | none => none
  | some qend => if qend > outCap then none else some (patchHeader (copyBytes q qend) 0x00)

/-! ### The wire format -/

/-- A label of a name: 1 to 63 bytes. -/
@[ext] structure Label where
  /-- Its bytes. -/
  bytes : List UInt8
  /-- There is one at least. -/
  pos : 0 < bytes.length
  /-- A longer one would be read as a compression pointer. -/
  le : bytes.length ≤ 63
  deriving DecidableEq

/-- The labels and the terminating zero byte. -/
def encodeName : List Label → List UInt8
  | [] => [0]
  | l :: ls => UInt8.ofNat l.bytes.length :: (l.bytes ++ encodeName ls)

/-- A 16-bit value in network order. -/
def be16 (v : UInt16) : List UInt8 := [(v >>> 8).toUInt8, v.toUInt8]

/-- A question: a name, a type and a class. -/
@[ext] structure Question where
  /-- The labels of the name. -/
  labels : List Label
  /-- QTYPE. -/
  qtype : UInt16
  /-- QCLASS. -/
  qclass : UInt16
  deriving DecidableEq

/-- The question as it stands in a datagram. -/
def Question.encode (q : Question) : List UInt8 :=
  encodeName q.labels ++ (be16 q.qtype ++ be16 q.qclass)

/-- The bytes received. -/
def received (buf : List UInt8) (len : ℕ) : List UInt8 := copyBytes buf len

/-- The received bytes carry `q` right after the header. -/
def Carries (buf : List UInt8) (len : ℕ) (q : Question) : Prop :=
  q.encode <+: (received buf len).drop 12

instance (buf : List UInt8) (len : ℕ) (q : Question) : Decidable (Carries buf len q) :=
  inferInstanceAs (Decidable (_ <+: _))

/-- The bytes of a name with dots between the labels. -/
def dotted : List Label → List UInt8
  | [] => []
  | [l] => l.bytes
  | l :: ls => l.bytes ++ 0x2e :: dotted ls

/-- The text the parser makes of a name in a buffer of `n` bytes. -/
def render (n : ℕ) (ls : List Label) : List UInt8 := ((dotted ls).map shown).take (n - 1)

/-! ### Bytes and words -/

/-- The bits the parser tests are clear exactly in the lengths a label may have. -/
theorem label_len_iff (b : UInt8) : b &&& 0xC0 = 0 ↔ b.toNat ≤ 63 := by
  have h : ∀ n : Fin 256, UInt8.ofFin n &&& 0xC0 = 0 ↔ n.val ≤ 63 := by decide +kernel
  exact h b.toFin

theorem word_toNat (hi lo : UInt8) :
    (hi.toUInt16 <<< 8 ||| lo.toUInt16).toNat = hi.toNat * 256 + lo.toNat := by
  have hh := hi.toNat_lt
  have hl := lo.toNat_lt
  have h8 : (8 : UInt16).toNat % 16 = 8 := rfl
  rw [UInt16.toNat_or, UInt16.toNat_shiftLeft, UInt8.toNat_toUInt16, UInt8.toNat_toUInt16,
    h8, Nat.shiftLeft_eq, Nat.mod_eq_of_lt (by omega), ← Nat.shiftLeft_eq,
    ← Nat.shiftLeft_add_eq_or_of_lt (by omega), Nat.shiftLeft_eq]

theorem hi_toNat (v : UInt16) : (v >>> 8).toUInt8.toNat = v.toNat / 256 := by
  have := v.toNat_lt
  have h8 : (8 : UInt16).toNat % 16 = 8 := rfl
  rw [UInt16.toNat_toUInt8, UInt16.toNat_shiftRight, Nat.shiftRight_eq_div_pow, h8]
  omega

/-- Reading a word gives back its two bytes, and only them. -/
theorem be16_eq_iff (v : UInt16) (hi lo : UInt8) :
    be16 v = [hi, lo] ↔ hi.toUInt16 <<< 8 ||| lo.toUInt16 = v := by
  have hw := word_toNat hi lo
  have hl := lo.toNat_lt
  have hh := hi_toNat v
  have hlo : v.toUInt8.toNat = v.toNat % 256 := UInt16.toNat_toUInt8 v
  rw [be16, List.cons.injEq, List.cons.injEq, ← UInt16.toNat_inj, ← UInt8.toNat_inj,
    ← UInt8.toNat_inj, hw, hh, hlo]
  constructor
  · rintro ⟨h1, h2, -⟩; omega
  · intro h; exact ⟨by omega, by omega, rfl⟩

@[simp] theorem length_be16 (v : UInt16) : (be16 v).length = 2 := rfl

@[simp] theorem length_copyBytes (q : List UInt8) (n : ℕ) : (copyBytes q n).length = n := by
  simp [copyBytes]

/-- The received bytes are the front of the buffer. -/
theorem byteAt_received {buf : List UInt8} {len i : ℕ} (h : i < len) :
    byteAt (received buf len) i = byteAt buf i := by
  simp [received, copyBytes, byteAt, h]

/-! ### What is still unread -/

/-- The received bytes from an offset on. -/
def unread (buf : List UInt8) (len off : ℕ) : List UInt8 := (received buf len).drop off

@[simp] theorem length_unread (buf : List UInt8) (len off : ℕ) :
    (unread buf len off).length = len - off := by
  simp [unread, received]

theorem unread_cons {buf : List UInt8} {len off : ℕ} (h : off < len) :
    unread buf len off = byteAt buf off :: unread buf len (off + 1) := by
  have hl : off < (received buf len).length := by simpa [received] using h
  rw [unread, unread, List.drop_eq_getElem_cons hl]
  simp [received, copyBytes]

theorem unread_add {buf : List UInt8} {len off : ℕ} {xs rest : List UInt8}
    (h : unread buf len off = xs ++ rest) : unread buf len (off + xs.length) = rest := by
  have := congrArg (List.drop xs.length) h
  rwa [List.drop_left, unread, List.drop_drop] at this

/-- A nonempty rest starts with the byte at its offset. -/
theorem unread_eq_cons {buf : List UInt8} {len off : ℕ} {b : UInt8} {rest : List UInt8}
    (h : unread buf len off = b :: rest) :
    off < len ∧ byteAt buf off = b ∧ unread buf len (off + 1) = rest := by
  have hlen := congrArg List.length h
  simp only [length_unread, List.length_cons] at hlen
  have hlt : off < len := by omega
  rw [unread_cons hlt, List.cons.injEq] at h
  exact ⟨hlt, h.1, h.2⟩

/-! ### The name buffer -/

theorem foldl_putChar (n : ℕ) : ∀ (xs out : List UInt8), out.length ≤ n - 1 →
    xs.foldl (putChar n) out = (out ++ xs).take (n - 1) := by
  intro xs
  induction xs with
  | nil => intro out h; simp [List.take_of_length_le h]
  | cons c xs ih =>
    intro out h
    rw [List.foldl_cons, putChar]
    split
    -- there is room for one more character
    · next hlt =>
      rw [ih _ (by simp; omega), List.append_assoc]
      rfl
    -- the buffer is full: this character and all later ones are dropped
    · next hge =>
      rw [ih _ h, List.take_append_of_le_length (by omega),
        List.take_append_of_le_length (by omega)]

/-- The inner loop appends the shown characters, as far as there is room. -/
theorem copyLabel_eq (n : ℕ) {buf : List UInt8} {len : ℕ} : ∀ (xs : List UInt8)
    (off : ℕ) (out rest : List UInt8), unread buf len off = xs ++ rest →
      copyLabel buf n xs.length off out = (xs.map shown).foldl (putChar n) out := by
  intro xs
  induction xs with
  | nil => intro off out rest _; rfl
  | cons b xs ih =>
    intro off out rest h
    obtain ⟨-, hb, hrest⟩ := unread_eq_cons h
    rw [List.length_cons, copyLabel, hb, List.map_cons, List.foldl_cons]
    exact ih _ _ _ hrest

/-- What the name buffer holds after one more label. -/
def putLabel (n : ℕ) (out : List UInt8) (l : Label) : List UInt8 :=
  (l.bytes.map shown).foldl (putChar n)
    (if out.length ≠ 0 then putChar n out 0x2e else out)

theorem take_append_take {α : Type*} (m : ℕ) (a b : List α) :
    (a.take m ++ b).take m = (a ++ b).take m := by
  rcases Nat.le_total a.length m with h | h
  · rw [List.take_of_length_le h]
  · rw [List.take_append_of_le_length (by simp [h]), List.take_append_of_le_length h,
      List.take_take, Nat.min_self]

/-- Labels behind the first one come with their dot. -/
theorem foldl_putLabel_of_ne_nil (n : ℕ) : ∀ (ls : List Label) (out : List UInt8),
    out.length ≤ n - 1 → out ≠ [] →
      ls.foldl (putLabel n) out
        = (out ++ (ls.flatMap fun l => 0x2e :: l.bytes).map shown).take (n - 1) := by
  intro ls
  induction ls with
  | nil => intro out h _; simp [List.take_of_length_le h]
  | cons l ls ih =>
    intro out h hne
    have hpos : out.length ≠ 0 := by simpa using hne
    have hput : putLabel n out l = (out ++ (0x2e :: l.bytes).map shown).take (n - 1) := by
      have hdot : shown 0x2e = 0x2e := by decide
      rw [putLabel, if_pos hpos, List.map_cons, hdot, ← foldl_putChar n _ _ h]
      rfl
    -- the buffer stays nonempty, so the next label gets its dot too
    have hne' : (out ++ (0x2e :: l.bytes).map shown).take (n - 1) ≠ [] := by
      intro hnil
      have := congrArg List.length hnil
      simp only [List.length_take, List.length_append, List.length_nil] at this
      omega
    rw [List.foldl_cons, hput, ih _ (List.length_take_le _ _) hne', take_append_take]
    simp

theorem dotted_cons (l : Label) (ls : List Label) :
    dotted (l :: ls) = l.bytes ++ ls.flatMap fun l => 0x2e :: l.bytes := by
  induction ls generalizing l with
  | nil => simp [dotted]
  | cons l' ls ih => rw [dotted, ih l', List.flatMap_cons]; rfl; simp

/-- From an empty buffer the labels leave the rendered name. -/
theorem foldl_putLabel (n : ℕ) (hn : 2 ≤ n) (ls : List Label) :
    ls.foldl (putLabel n) [] = render n ls := by
  cases ls with
  | nil => simp [render, dotted]
  | cons l ls =>
    have hput : putLabel n [] l = (l.bytes.map shown).take (n - 1) := by
      rw [putLabel, if_neg (by simp), foldl_putChar n _ _ (by simp), List.nil_append]
    have hpos := l.pos
    have hne : (l.bytes.map shown).take (n - 1) ≠ [] := by
      intro hnil
      have := congrArg List.length hnil
      simp only [List.length_take, List.length_map, List.length_nil] at this
      omega
    rw [List.foldl_cons, hput, foldl_putLabel_of_ne_nil n _ _ (List.length_take_le _ _) hne,
      render, dotted_cons, List.map_append, take_append_take]

/-- A name with a label has a nonempty text. -/
theorem length_render_pos {n : ℕ} (hn : 2 ≤ n) {ls : List Label} (h : ls ≠ []) :
    0 < (render n ls).length := by
  cases ls with
  | nil => exact absurd rfl h
  | cons l ls =>
    have hpos := l.pos
    rw [render, dotted_cons]
    simp only [List.length_take, List.length_map, List.length_append]
    omega

/-! ### The loops on an encoded name -/

@[simp] theorem length_encodeName_cons (l : Label) (ls : List Label) :
    (encodeName (l :: ls)).length = l.bytes.length + 1 + (encodeName ls).length := by
  simp [encodeName]; omega

theorem toNat_ofNat_label (l : Label) : (UInt8.ofNat l.bytes.length).toNat = l.bytes.length := by
  have := l.le
  rw [UInt8.toNat_ofNat', Nat.mod_eq_of_lt (by omega)]

/-- The length byte of a label passes the parser's tests. -/
theorem label_byte (l : Label) :
    UInt8.ofNat l.bytes.length ≠ 0 ∧ UInt8.ofNat l.bytes.length &&& 0xC0 = 0 := by
  have hpos := l.pos
  have hnat := toNat_ofNat_label l
  refine ⟨fun h0 => ?_, ?_⟩
  · rw [h0] at hnat
    simp at hnat; omega
  · rw [label_len_iff, hnat]; exact l.le

/-- **The parser's loop reads an encoded name to its end.** -/
theorem labelLoop_of_encodeName (n : ℕ) {buf : List UInt8} {len : ℕ} : ∀ (ls : List Label)
    (fuel off : ℕ) (out rest : List UInt8), unread buf len off = encodeName ls ++ rest →
      len - off ≤ fuel →
      labelLoop buf len n fuel off out
        = some (off + (encodeName ls).length, ls.foldl (putLabel n) out) := by
  intro ls
  induction ls with
  | nil =>
    intro fuel off out rest h hfuel
    obtain ⟨hlt, hb, -⟩ := unread_eq_cons (show unread buf len off = 0 :: rest from h)
    obtain ⟨fuel, rfl⟩ : ∃ k, fuel = k + 1 := ⟨fuel - 1, by omega⟩
    simp [labelLoop, hlt, hb, encodeName]
  | cons l ls ih =>
    intro fuel off out rest h hfuel
    rw [encodeName, List.cons_append, List.append_assoc] at h
    obtain ⟨hlt, hb, hrest⟩ := unread_eq_cons h
    obtain ⟨fuel, rfl⟩ : ∃ k, fuel = k + 1 := ⟨fuel - 1, by omega⟩
    obtain ⟨hne, hbits⟩ := label_byte l
    have hlen := congrArg List.length hrest
    simp only [length_unread, List.length_append] at hlen
    have hpos := l.pos
    rw [labelLoop, if_pos hlt]
    simp only [hb, if_neg hne, hbits, ne_eq, not_true_eq_false, if_false, toNat_ofNat_label]
    -- the label fits, since the bytes of its encoding are there to be read
    rw [if_neg (by omega), copyLabel_eq n _ _ _ _ hrest, ih _ _ _ _ (unread_add hrest) (by omega)]
    simp only [length_encodeName_cons, List.foldl_cons, putLabel, Option.some.injEq,
      Prod.mk.injEq, and_true]
    omega

/-- When the parser's loop stops with four bytes to spare, it has read an encoded
name. -/
theorem encodeName_of_labelLoop (n : ℕ) {buf : List UInt8} {len : ℕ} : ∀ (fuel off : ℕ)
    (out : List UInt8) (off' : ℕ) (out' : List UInt8),
      labelLoop buf len n fuel off out = some (off', out') → len - off ≤ fuel → off' < len →
      ∃ ls rest, unread buf len off = encodeName ls ++ rest := by
  intro fuel
  induction fuel with
  | zero =>
    intro off out off' out' h hfuel hlt
    rw [labelLoop, Option.some.injEq, Prod.mk.injEq] at h
    omega
  | succ fuel ih =>
    intro off out off' out' h hfuel hlt
    rw [labelLoop] at h
    split at h
    · next hoff =>
      rw [unread_cons hoff]
      simp only at h
      split at h
      · -- the terminating zero
        next h0 => exact ⟨[], unread buf len (off + 1), by rw [h0]; rfl⟩
      · next hne =>
        split at h
        · simp at h
        · next hbits =>
          split at h
          · simp at h
          · -- one label of `byteAt buf off` bytes, and the rest of the name
            next hfits =>
            obtain ⟨ls, rest, hrest⟩ := ih _ _ _ _ h (by omega) hlt
            have hk : (byteAt buf off).toNat ≤ 63 :=
              (label_len_iff _).mp (by simpa using hbits)
            have hpos : 0 < (byteAt buf off).toNat := by
              rw [Nat.pos_iff_ne_zero]
              intro h0
              exact hne (UInt8.toNat_inj.mp h0)
            have htake : ((unread buf len (off + 1)).take (byteAt buf off).toNat).length
                = (byteAt buf off).toNat := by
              rw [List.length_take, length_unread]; omega
            let l : Label := ⟨(unread buf len (off + 1)).take (byteAt buf off).toNat,
              by omega, by omega⟩
            refine ⟨l :: ls, rest, ?_⟩
            have hdrop : (unread buf len (off + 1)).drop (byteAt buf off).toNat
                = encodeName ls ++ rest := by
              rw [← hrest, unread, unread, List.drop_drop]
            rw [encodeName, htake, UInt8.ofNat_toNat, List.cons_append, List.append_assoc,
              ← hdrop, List.take_append_drop]
    · next hoff =>
      rw [Option.some.injEq, Prod.mk.injEq] at h
      omega

/-- **The second walker's loop stops at the zero byte of an encoded name.** -/
theorem walkLabels_of_encodeName {buf : List UInt8} {len : ℕ} : ∀ (ls : List Label)
    (fuel off : ℕ) (rest : List UInt8), unread buf len off = encodeName ls ++ rest →
      len - off ≤ fuel →
      walkLabels buf len fuel off + 1 = off + (encodeName ls).length := by
  intro ls
  induction ls with
  | nil =>
    intro fuel off rest h hfuel
    obtain ⟨hlt, hb, -⟩ := unread_eq_cons (show unread buf len off = 0 :: rest from h)
    obtain ⟨fuel, rfl⟩ : ∃ k, fuel = k + 1 := ⟨fuel - 1, by omega⟩
    simp [walkLabels, hb, encodeName]
  | cons l ls ih =>
    intro fuel off rest h hfuel
    rw [encodeName, List.cons_append, List.append_assoc] at h
    obtain ⟨hlt, hb, hrest⟩ := unread_eq_cons h
    obtain ⟨fuel, rfl⟩ : ∃ k, fuel = k + 1 := ⟨fuel - 1, by omega⟩
    have hnext := unread_add hrest
    rw [walkLabels, hb, if_pos ⟨hlt, (label_byte l).1⟩, toNat_ofNat_label,
      show off + (l.bytes.length + 1) = off + 1 + l.bytes.length by omega,
      ih _ _ _ hnext (by omega), length_encodeName_cons]
    omega

/-! ### One question to a datagram -/

/-- Encoded names are a prefix code: what follows does not change how one is read. -/
theorem encodeName_inj : ∀ (ls ls' : List Label) (r r' : List UInt8),
    encodeName ls ++ r = encodeName ls' ++ r' → ls = ls' ∧ r = r' := by
  intro ls
  induction ls with
  | nil =>
    intro ls' r r' h
    cases ls' with
    | nil => exact ⟨rfl, by simpa [encodeName] using h⟩
    | cons l' ls' =>
      rw [encodeName, encodeName, List.cons_append, List.cons_append, List.cons.injEq] at h
      exact absurd h.1.symm (label_byte l').1
  | cons l ls ih =>
    intro ls' r r' h
    cases ls' with
    | nil =>
      rw [encodeName, encodeName, List.cons_append, List.cons_append, List.cons.injEq] at h
      exact absurd h.1 (label_byte l).1
    | cons l' ls' =>
      rw [encodeName, encodeName, List.cons_append, List.cons_append, List.cons.injEq,
        List.append_assoc, List.append_assoc] at h
      have hlen : l.bytes.length = l'.bytes.length := by
        rw [← toNat_ofNat_label l, h.1, toNat_ofNat_label]
      obtain ⟨hbytes, hrest⟩ := List.append_inj h.2 hlen
      obtain ⟨rfl, rfl⟩ := ih _ _ _ hrest
      exact ⟨by rw [Label.ext hbytes], rfl⟩

theorem Carries.exists_rest {buf : List UInt8} {len : ℕ} {q : Question}
    (h : Carries buf len q) :
    ∃ rest, unread buf len 12
      = encodeName q.labels ++ (be16 q.qtype ++ (be16 q.qclass ++ rest)) := by
  obtain ⟨rest, hrest⟩ := h
  refine ⟨rest, ?_⟩
  rw [unread, ← hrest, Question.encode]
  simp only [List.append_assoc]

theorem be16_inj {v w : UInt16} (h : be16 v = be16 w) : v = w := by
  have hv := (be16_eq_iff w (v >>> 8).toUInt8 v.toUInt8).mp (h ▸ rfl)
  have hv' := (be16_eq_iff v (v >>> 8).toUInt8 v.toUInt8).mp rfl
  rw [← hv, hv']

/-- **A datagram carries one question.** -/
theorem Carries.unique {buf : List UInt8} {len : ℕ} {q q' : Question}
    (h : Carries buf len q) (h' : Carries buf len q') : q = q' := by
  obtain ⟨r, hr⟩ := h.exists_rest
  obtain ⟨r', hr'⟩ := h'.exists_rest
  obtain ⟨hls, hrest⟩ := encodeName_inj _ _ _ _ (hr.symm.trans hr')
  obtain ⟨ht, hrest⟩ := List.append_inj hrest rfl
  obtain ⟨hc, -⟩ := List.append_inj hrest rfl
  exact Question.ext hls (be16_inj ht) (be16_inj hc)

/-- The question lies within the datagram. -/
theorem Carries.length_le {buf : List UInt8} {len : ℕ} {q : Question}
    (h : Carries buf len q) : 12 + (encodeName q.labels).length + 4 ≤ len := by
  obtain ⟨r, hr⟩ := h.exists_rest
  have := congrArg List.length hr
  simp only [length_unread, List.length_append, length_be16] at this
  have hpos : 0 < (encodeName q.labels).length := by cases q.labels <;> simp [encodeName]
  omega

/-- **The second walker finds the end of the question.** -/
theorem questionEnd_of_carries {buf : List UInt8} {len : ℕ} {q : Question}
    (h : Carries buf len q) :
    questionEnd buf len = some (12 + (encodeName q.labels).length + 4) := by
  obtain ⟨r, hr⟩ := h.exists_rest
  have hle := h.length_le
  have hw := walkLabels_of_encodeName q.labels len 12 _ hr (by omega)
  rw [questionEnd, if_pos (by omega), Option.some.injEq]
  omega

/-! ### What the parser accepts -/

/-- **What the parser accepts and answers**: a datagram with a header, a nonzero
question count and a question with a name, of which it shows the labels and reads the
type. -/
theorem parseDnsQuery_eq_some_iff {buf : List UInt8} {len n : ℕ} (hn : 2 ≤ n)
    {qname : List UInt8} {qtype : UInt16} :
    parseDnsQuery buf len n = some (qname, qtype) ↔
      12 ≤ len ∧ ¬(byteAt buf 4 = 0 ∧ byteAt buf 5 = 0) ∧
        ∃ q, Carries buf len q ∧ q.labels ≠ [] ∧ qname = render n q.labels ∧
          qtype = q.qtype := by
  unfold parseDnsQuery
  by_cases hhdr : n = 0 ∨ len < 12
  · simp only [if_pos hhdr, reduceCtorEq, false_iff]
    rintro ⟨h12, -⟩
    omega
  by_cases hcount : byteAt buf 4 = 0 ∧ byteAt buf 5 = 0
  · simp [hcount]
  simp only [if_neg hhdr, if_neg hcount]
  constructor
  · intro h
    cases hloop : labelLoop buf len n len 12 [] with
    | none => simp [hloop] at h
    | some r =>
      obtain ⟨off, out⟩ := r
      simp only [hloop] at h
      split at h
      · simp at h
      · next hout =>
        split at h
        · simp at h
        · next hfits =>
          obtain ⟨ls, rest, hrest⟩ :=
            encodeName_of_labelLoop n len 12 [] off out hloop (by omega) (by omega)
          rw [labelLoop_of_encodeName n ls len 12 [] rest hrest (by omega),
            foldl_putLabel n hn, Option.some.injEq, Prod.mk.injEq] at hloop
          obtain ⟨rfl, rfl⟩ := hloop
          -- four more bytes follow the name
          have hlen := congrArg List.length hrest
          simp only [length_unread, List.length_append] at hlen
          obtain ⟨b0, b1, b2, b3, rest, rfl⟩ :
              ∃ b0 b1 b2 b3 rest', rest = b0 :: b1 :: b2 :: b3 :: rest' := by
            match rest with
            | [] | [_] | [_, _] | [_, _, _] => simp at hlen; omega
            | b0 :: b1 :: b2 :: b3 :: rest => exact ⟨b0, b1, b2, b3, rest, rfl⟩
          obtain ⟨-, hb0, hnext⟩ := unread_eq_cons (unread_add hrest)
          obtain ⟨-, hb1, -⟩ := unread_eq_cons hnext
          have hne : ls ≠ [] := by
            rintro rfl
            simp [render, dotted] at hout
          refine ⟨by omega, hcount,
            ⟨ls, b0.toUInt16 <<< 8 ||| b1.toUInt16, b2.toUInt16 <<< 8 ||| b3.toUInt16⟩,
            ⟨rest, ?_⟩, hne, ?_⟩
          · rw [Question.encode, (be16_eq_iff _ b0 b1).mpr rfl, (be16_eq_iff _ b2 b3).mpr rfl,
              List.append_assoc]
            exact hrest.symm
          · simp only [Option.some.injEq, Prod.mk.injEq] at h
            obtain ⟨h1, h2⟩ := h
            exact ⟨h1.symm, by rw [← h2, be16At, hb0, hb1]⟩
  -- a question with a name: both of the parser's last tests are passed
  · rintro ⟨h12, -, q, hq, hne, rfl, rfl⟩
    obtain ⟨rest, hrest⟩ := hq.exists_rest
    have hle := hq.length_le
    rw [labelLoop_of_encodeName n _ len 12 [] _ hrest (by omega), foldl_putLabel n hn]
    have hpos := length_render_pos hn hne
    simp only
    rw [if_neg (by omega), if_neg (by omega), Option.some.injEq, Prod.mk.injEq]
    refine ⟨rfl, ?_⟩
    obtain ⟨-, hb0, hnext⟩ := unread_eq_cons (unread_add hrest)
    obtain ⟨-, hb1, -⟩ := unread_eq_cons hnext
    rw [be16At, hb0, hb1, ← be16_eq_iff]
    rfl

end Dns
end WifiRepeater
