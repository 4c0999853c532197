import WifiRepeater.Lib.Checked
import WifiRepeater.Dns.Message

/-!
# What the query parser touches

`parse_dns_query` reads a datagram anybody may have sent and writes into a buffer of its
caller.  Here it is once more, with every read and write of it checked against the two
memories and its loop against a number of turns.  It never faults, and what it answers is
what the plain model of it answers.

Buffers that are there at all are meant: the tests for null pointers are left out.

## Main definitions

* `ParserState`, `labelTurn`, `parseDnsQueryChecked` — the parser, access by access.
* `Grammar buf q` — the datagram is a query for `q`.

## Main results

* `labelTurns_spec` — the loop neither faults nor runs on, and agrees with `labelLoop`.
* `parseDnsQueryChecked_eq` — **the checked parser refines the plain one.**
* `parser_accepts_grammar` — **what is accepted, and what is then written.**
-/

namespace WifiRepeater
namespace Dns

variable {n : ℕ}

/-! ### The parser, access by access -/

/-- The variables of the loops: the position in the datagram, the position in the name
buffer, and that buffer. -/
structure ParserState (n : ℕ) where
  /-- `offset`. -/
  offset : ℕ
  /-- `out_pos`. -/
  outPos : ℕ
  /-- `qname`. -/
  qname : Buf n

/-- `if (out_pos < qname_len - 1) qname[out_pos++] = c`. -/
def ParserState.putChar (s : ParserState n) (c : UInt8) : Checked (ParserState n) :=
  if s.outPos < n - 1 then do
    let qname ← writeAt s.qname s.outPos c
    pure { s with outPos := s.outPos + 1, qname := qname }
  else pure s

/-- The dot before a label, except before the first one. -/
def ParserState.putDot (s : ParserState n) : Checked (ParserState n) :=
  if s.outPos ≠ 0 then s.putChar 0x2e else pure s

/-- The inner loop: `k` more characters of a label. -/
def ParserState.copyLabel (buf : List UInt8) : ℕ → ParserState n → Checked (ParserState n)
  | 0, s => pure s
  | k + 1, s => do
      let c ← readAt buf s.offset
      let s ← ParserState.putChar { s with offset := s.offset + 1 } (shown c)
      ParserState.copyLabel buf k s

/-- One turn of the outer loop.  It goes on, leaves the loop (`true`), or returns from the
function (`false`). -/
def labelTurn (buf : List UInt8) (s : ParserState n) :
    Checked (ParserState n ⊕ Bool × ParserState n) :=
  if s.offset < buf.length then do
    let labelLen ← readAt buf s.offset
    let s := { s with offset := s.offset + 1 }
    if labelLen = 0 then pure (.inr (true, s))
    else if labelLen &&& 0xC0 ≠ 0 then pure (.inr (false, s))
    else if s.offset + labelLen.toNat > buf.length then pure (.inr (false, s))
    else
      let s ← s.putDot
      let s ← s.copyLabel buf labelLen.toNat
      pure (.inl s)
  else pure (.inr (true, s))

/-- What the caller has when the parser has returned. -/
structure Parsed (n : ℕ) where
  /-- The value returned. -/
  accepted : Bool
  /-- The name buffer. -/
  qname : Buf n
  /-- The variable for the type. -/
  qtype : UInt16

/-- `buf[4] == 0 && buf[5] == 0`. -/
def noQuestions (buf : List UInt8) : Checked Bool := do
  if (← readAt buf 4) = 0 then pure ((← readAt buf 5) == 0) else pure false

/-- `parse_dns_query` on a datagram of `buf.length` bytes, with what the caller's two
variables held before. -/
def parseDnsQueryChecked (buf : List UInt8) (qname : Buf n) (qtype : UInt16) :
    Checked (Parsed n) :=
  if n = 0 ∨ buf.length < 12 then pure ⟨false, qname, qtype⟩
  else do
    if ← noQuestions buf then pure ⟨false, qname, qtype⟩
    else
      let (inside, s) ← Checked.loop (labelTurn buf) (buf.length + 1) ⟨12, 0, qname⟩
      if inside = false then pure ⟨false, s.qname, qtype⟩
      else if s.outPos = 0 then pure ⟨false, s.qname, qtype⟩
      else
        let named ← writeAt s.qname s.outPos 0
        if s.offset + 4 > buf.length then pure ⟨false, named, qtype⟩
        else
          let hi ← readAt buf s.offset
          let lo ← readAt buf (s.offset + 1)
          pure ⟨true, named, hi.toUInt16 <<< 8 ||| lo.toUInt16⟩

/-- The datagram is a query for `q`: a header with a question count that is not zero, and
then, within the datagram, a name of one label or more, a type and a class. -/
def Grammar (buf : List UInt8) (q : Question) : Prop :=
  12 ≤ buf.length ∧ ¬(byteAt buf 4 = 0 ∧ byteAt buf 5 = 0) ∧ Carries buf buf.length q ∧
    q.labels ≠ []

/-! ### What the name buffer holds -/

/-- The buffer begins with `out`, has room for the terminator, and is otherwise as it
was. -/
structure Holds (old : Buf n) (s : ParserState n) (out : List UInt8) : Prop where
  /-- The position is behind what was written. -/
  pos : s.outPos = out.length
  /-- There is room for the terminator. -/
  le : out.length ≤ n - 1
  /-- The contents. -/
  bytes : s.qname.bytes = out ++ old.bytes.drop out.length

theorem bytes_setByte_end {old mem : Buf n} {out : List UInt8} (c : UInt8)
    (hlt : out.length < n) (h : mem.bytes = out ++ old.bytes.drop out.length) :
    (mem.setByte out.length c).bytes = out ++ c :: old.bytes.drop (out.length + 1) := by
  have hsize := old.size
  rw [Buf.bytes_setByte, h, List.set_append_right _ _ le_rfl, Nat.sub_self,
    List.drop_eq_getElem_cons (by omega), List.set_cons_zero]

/-- One character is written within the buffer. -/
theorem putChar_spec {old : Buf n} {s : ParserState n} {out : List UInt8} (h : Holds old s out)
    (c : UInt8) :
    ∃ s', s.putChar c = .ok s' ∧ s'.offset = s.offset ∧ Holds old s' (putChar n out c) := by
  rw [ParserState.putChar, putChar, h.pos]
  split_ifs with hlt
  · rw [writeAt_of_lt (by omega)]
    refine ⟨_, rfl, rfl, by simp, by simp; omega, ?_⟩
    show (s.qname.setByte out.length c).bytes = _
    rw [bytes_setByte_end c (by omega) h.bytes]
    simp
  · exact ⟨s, rfl, rfl, h⟩

/-- So is the dot before a label. -/
theorem putDot_spec {old : Buf n} {s : ParserState n} {out : List UInt8} (h : Holds old s out) :
    ∃ s', s.putDot = .ok s' ∧ s'.offset = s.offset ∧
      Holds old s' (if out.length ≠ 0 then putChar n out 0x2e else out) := by
  rw [ParserState.putDot]
  by_cases hpos : out.length ≠ 0
  · rw [if_pos hpos, if_pos (h.pos ▸ hpos)]
    exact putChar_spec h 0x2e
  · rw [if_neg hpos, if_neg (h.pos ▸ hpos)]
    exact ⟨s, rfl, rfl, h⟩

/-- The characters of a label that lies in the datagram are read within it. -/
theorem copyLabel_spec {old : Buf n} {buf : List UInt8} : ∀ (k : ℕ) (s : ParserState n)
    (out : List UInt8), Holds old s out → s.offset + k ≤ buf.length →
      ∃ s', s.copyLabel buf k = .ok s' ∧ s'.offset = s.offset + k ∧
        Holds old s' (copyLabel buf n k s.offset out) := by
  intro k
  induction k with
  | zero => intro s out h _; exact ⟨s, rfl, rfl, h⟩
  | succ k ih =>
    intro s out h hfits
    have hmoved : Holds old { s with offset := s.offset + 1 } out := ⟨h.pos, h.le, h.bytes⟩
    obtain ⟨s₁, hput, hoff, hs₁⟩ := putChar_spec hmoved (shown (byteAt buf s.offset))
    obtain ⟨s₂, hcopy, hoff₂, hs₂⟩ := ih s₁ _ hs₁ (by simp only at hoff; omega)
    rw [ParserState.copyLabel, readAt_of_lt (by omega)]
    refine ⟨s₂, ?_, by simp only at hoff; omega, ?_⟩
    · show (ParserState.putChar _ _ >>= fun s => _) = _
      rw [show buf.getD s.offset 0 = byteAt buf s.offset from rfl, hput]
      exact hcopy
    · rw [hoff] at hs₂
      exact hs₂

/-! ### The loop -/

/-- Turns past the end of the datagram change nothing. -/
theorem labelLoop_fuel {buf : List UInt8} {len : ℕ} : ∀ (fuel fuel' off : ℕ) (out : List UInt8),
    len - off ≤ fuel → len - off ≤ fuel' →
      labelLoop buf len n fuel off out = labelLoop buf len n fuel' off out := by
  intro fuel
  induction fuel with
  | zero =>
    intro fuel' off out h _
    cases fuel' with
    | zero => rfl
    | succ fuel' => rw [labelLoop, labelLoop, if_neg (by omega)]
  | succ fuel ih =>
    intro fuel' off out h h'
    cases fuel' with
    | zero => rw [labelLoop, labelLoop, if_neg (by omega)]
    | succ fuel' =>
      rw [labelLoop, labelLoop]
      by_cases hoff : off < len
      · simp only [if_pos hoff]
        rw [ih fuel' _ _ (by omega) (by omega)]
      · rw [if_neg hoff, if_neg hoff]

/-- Between two turns: the name buffer holds what the plain loop has, and what that loop
will answer is `answer`. -/
structure Between (buf : List UInt8) (old : Buf n) (answer : Option (ℕ × List UInt8))
    (s : ParserState n) (out : List UInt8) : Prop where
  /-- The name buffer. -/
  holds : Holds old s out
  /-- The position is in the datagram or at its end. -/
  le : s.offset ≤ buf.length
  /-- The rest of the plain loop. -/
  rest : ∀ fuel, buf.length - s.offset ≤ fuel →
    labelLoop buf buf.length n fuel s.offset out = answer

/-- What the loop leaves when the plain loop answers `answer`. -/
def Left (old : Buf n) (answer : Option (ℕ × List UInt8)) (r : Bool × ParserState n) : Prop :=
  match answer with
  | none => r.1 = false
  | some (off, out) => r.1 = true ∧ r.2.offset = off ∧ Holds old r.2 out

/-- The position behind the length byte. -/
def ParserState.moved (s : ParserState n) : ParserState n := { s with offset := s.offset + 1 }

theorem readAt_byteAt {buf : List UInt8} {i : ℕ} (h : i < buf.length) :
    readAt buf i = .ok (byteAt buf i) := readAt_of_lt h

/-- A turn within the datagram, its length byte read. -/
theorem labelTurn_of_lt {buf : List UInt8} {s : ParserState n} (h : s.offset < buf.length) :
    labelTurn buf s =
      if byteAt buf s.offset = 0 then .ok (.inr (true, s.moved))
      else if byteAt buf s.offset &&& 0xC0 ≠ 0 then .ok (.inr (false, s.moved))
      else if s.offset + 1 + (byteAt buf s.offset).toNat > buf.length then
        .ok (.inr (false, s.moved))
      else
        s.moved.putDot >>= fun s₁ =>
          s₁.copyLabel buf (byteAt buf s.offset).toNat >>= fun s₂ => pure (.inl s₂) := by
  rw [labelTurn, if_pos h, readAt_byteAt h]
  rfl

/-- **One turn**: it stays within both memories and agrees with the plain loop; a turn
that goes on has moved the position. -/
theorem labelTurn_spec {buf : List UInt8} {old : Buf n} {answer : Option (ℕ × List UInt8)}
    {s : ParserState n} {out : List UInt8} (h : Between buf old answer s out) :
    (∃ s', labelTurn buf s = .ok (.inl s') ∧ (∃ out', Between buf old answer s' out') ∧
      buf.length - s'.offset < buf.length - s.offset) ∨
    ∃ r, labelTurn buf s = .ok (.inr r) ∧ Left old answer r := by
  have hrest := h.rest (buf.length - s.offset + 1) (by omega)
  have hmoved : Holds old s.moved out := ⟨h.holds.pos, h.holds.le, h.holds.bytes⟩
  rw [labelLoop] at hrest
  by_cases hoff : ¬s.offset < buf.length
  · rw [if_neg hoff] at hrest
    refine .inr ⟨(true, s), by rw [labelTurn, if_neg hoff]; rfl, ?_⟩
    rw [← hrest]
    exact ⟨rfl, rfl, h.holds⟩
  rw [not_not] at hoff
  simp only [if_pos hoff] at hrest
  rw [labelTurn_of_lt hoff]
  -- the length byte decides how the turn ends
  by_cases hzero : byteAt buf s.offset = 0
  · rw [if_pos hzero] at hrest ⊢
    exact .inr ⟨_, rfl, hrest ▸ ⟨rfl, rfl, hmoved⟩⟩
  rw [if_neg hzero] at hrest ⊢
  by_cases hbits : byteAt buf s.offset &&& 0xC0 ≠ 0
  · rw [if_pos hbits] at hrest ⊢
    exact .inr ⟨_, rfl, hrest ▸ rfl⟩
  rw [if_neg hbits] at hrest ⊢
  by_cases hfits : s.offset + 1 + (byteAt buf s.offset).toNat > buf.length
  · rw [if_pos hfits] at hrest ⊢
    exact .inr ⟨_, rfl, hrest ▸ rfl⟩
  rw [if_neg hfits] at hrest ⊢
  -- a label: its dot, its characters, and the next turn
  obtain ⟨s₁, hdot, hoff₁, hs₁⟩ := putDot_spec hmoved
  have hat : s₁.offset = s.offset + 1 := hoff₁
  have hin : s₁.offset + (byteAt buf s.offset).toNat ≤ buf.length := by omega
  obtain ⟨s₂, hcopy, hoff₂, hs₂⟩ := copyLabel_spec _ s₁ _ hs₁ hin
  refine .inl ⟨s₂, ?_, ⟨_, hs₂, by omega, fun fuel hfuel => ?_⟩, by omega⟩
  · rw [hdot]
    show (s₁.copyLabel buf _ >>= fun s => _) = _
    rw [hcopy]
    rfl
  · rw [← hrest, hoff₂, hat]
    exact labelLoop_fuel _ _ _ _ (by omega) (by omega)

/-- **The loop neither faults nor runs on, and agrees with `labelLoop`.** -/
theorem labelTurns_spec (buf : List UInt8) (old : Buf n) (h12 : 12 ≤ buf.length) :
    ∃ r, Checked.loop (labelTurn buf) (buf.length + 1) ⟨12, 0, old⟩ = .ok r ∧
      Left old (labelLoop buf buf.length n buf.length 12 []) r := by
  refine Checked.loop_spec (fun s => buf.length - s.offset)
    (I := fun s => ∃ out, Between buf old (labelLoop buf buf.length n buf.length 12 []) s out)
    ?_ _ _ ⟨[], ?_, h12, ?_⟩ (by simp only; omega)
  · rintro s ⟨out, hs⟩
    exact labelTurn_spec hs
  · exact ⟨rfl, Nat.zero_le _, by simp⟩
  · intro fuel hfuel
    exact labelLoop_fuel _ _ _ _ hfuel (by omega)

/-! ### The whole parser -/

/-- What the parser leaves when the plain model answers `answer`. -/
def Agrees (old : Buf n) (oldType : UInt16) (answer : Option (List UInt8 × UInt16))
    (r : Parsed n) : Prop :=
  match answer with
  | none => r.accepted = false ∧ r.qtype = oldType
  | some (name, qtype) => r.accepted = true ∧ r.qtype = qtype ∧
      r.qname.bytes = name ++ 0 :: old.bytes.drop (name.length + 1)

theorem noQuestions_eq {buf : List UInt8} (h : 12 ≤ buf.length) :
    noQuestions buf = .ok (decide (byteAt buf 4 = 0 ∧ byteAt buf 5 = 0)) := by
  rw [noQuestions, readAt_byteAt (by omega), readAt_byteAt (by omega)]
  show (if byteAt buf 4 = 0 then Except.ok (byteAt buf 5 == 0) else Except.ok false) = _
  split_ifs with h4
  · simp [h4, Bool.beq_eq_decide_eq]
  · rw [decide_eq_false fun h => h4 h.1]

/-- **The checked parser refines the plain one**: on every datagram and every memory it
ends without a fault and answers what the plain model answers. -/
theorem parseDnsQueryChecked_eq (buf : List UInt8) (old : Buf n) (oldType : UInt16) :
    ∃ r, parseDnsQueryChecked buf old oldType = .ok r ∧
      Agrees old oldType (parseDnsQuery buf buf.length n) r := by
  rw [parseDnsQueryChecked, parseDnsQuery]
  by_cases hhdr : n = 0 ∨ buf.length < 12
  · rw [if_pos hhdr, if_pos hhdr]
    exact ⟨_, rfl, rfl, rfl⟩
  rw [if_neg hhdr, if_neg hhdr, noQuestions_eq (by omega)]
  by_cases hcount : byteAt buf 4 = 0 ∧ byteAt buf 5 = 0
  · rw [if_pos hcount, decide_eq_true hcount]
    exact ⟨_, rfl, rfl, rfl⟩
  rw [if_neg hcount, decide_eq_false hcount]
  obtain ⟨⟨inside, s⟩, hloop, hleft⟩ := labelTurns_spec buf old (by omega)
  show ∃ r, (Checked.loop (labelTurn buf) _ _ >>= fun r => _) = _ ∧ _
  rw [hloop]
  -- the plain loop has answered what the checked one has left
  cases hplain : labelLoop buf buf.length n buf.length 12 [] with
  | none =>
    rw [hplain] at hleft
    obtain rfl : inside = false := hleft
    exact ⟨_, rfl, rfl, rfl⟩
  | some answer =>
    obtain ⟨off, out⟩ := answer
    rw [hplain] at hleft
    obtain ⟨rfl, rfl, hholds⟩ : inside = true ∧ s.offset = off ∧ Holds old s out := hleft
    show ∃ r, (if s.outPos = 0 then _ else _) = _ ∧
      Agrees old oldType (if out.length = 0 then none else _) r
    by_cases hempty : out.length = 0
    · rw [if_pos hempty, if_pos (hholds.pos.trans hempty)]
      exact ⟨_, rfl, rfl, rfl⟩
    have hle := hholds.le
    rw [if_neg hempty, if_neg (hholds.pos ▸ hempty), hholds.pos, writeAt_of_lt (by omega)]
    show ∃ r, (if s.offset + 4 > buf.length then _ else _) = _ ∧ _
    by_cases hfits : s.offset + 4 > buf.length
    · rw [if_pos hfits, if_pos hfits]
      exact ⟨_, rfl, rfl, rfl⟩
    rw [if_neg hfits, if_neg hfits, readAt_byteAt (show s.offset < buf.length by omega),
      readAt_byteAt (show s.offset + 1 < buf.length by omega)]
    exact ⟨_, rfl, rfl, rfl, bytes_setByte_end 0 (by omega) hholds.bytes⟩

/-! ### What is accepted -/

/-- **What is accepted, and what is then written**: on every datagram and with every name
buffer of two bytes or more, the parser ends without an access outside its memories.  It
accepts the queries of the grammar; then the buffer holds the shown labels with dots
between them, as far as they fit, and a terminator, and the type is the question's. -/
theorem parser_accepts_grammar (hn : 2 ≤ n) (buf : List UInt8) (old : Buf n) (oldType : UInt16) :
    ∃ r, parseDnsQueryChecked buf old oldType = .ok r ∧
      (r.accepted = true ↔ ∃ q, Grammar buf q) ∧
      ∀ q, Grammar buf q → r.qtype = q.qtype ∧ r.qname.bytes =
        render n q.labels ++ 0 :: old.bytes.drop ((render n q.labels).length + 1) := by
  obtain ⟨r, hr, hagrees⟩ := parseDnsQueryChecked_eq buf old oldType
  refine ⟨r, hr, ?_⟩
  cases hplain : parseDnsQuery buf buf.length n with
  | none =>
    rw [hplain] at hagrees
    have hnot : ∀ q, ¬Grammar buf q := by
      rintro q ⟨h12, hcount, hq, hne⟩
      have hsome := (parseDnsQuery_eq_some_iff hn).mpr ⟨h12, hcount, q, hq, hne, rfl, rfl⟩
      rw [hplain] at hsome
      exact absurd hsome (by simp)
    refine ⟨?_, fun q hq => absurd hq (hnot q)⟩
    rw [hagrees.1]
    exact ⟨fun h => absurd h (by simp), fun ⟨q, hq⟩ => absurd hq (hnot q)⟩
  | some answer =>
    obtain ⟨name, qtype⟩ := answer
    rw [hplain] at hagrees
    obtain ⟨haccepted, htype, hbytes⟩ := hagrees
    obtain ⟨h12, hcount, q, hq, hne, rfl, rfl⟩ := (parseDnsQuery_eq_some_iff hn).mp hplain
    refine ⟨iff_of_true haccepted ⟨q, h12, hcount, hq, hne⟩, fun q' hq' => ?_⟩
    obtain rfl := hq.unique hq'.2.2.1
    exact ⟨htype, hbytes⟩

/-- A label of one byte. -/
def Label.single (b : UInt8) : Label where
  bytes := [b]
  pos := by simp
  le := by simp

/-- A query for the mail servers of `a.b`, the second label being a byte that cannot be
shown. -/
def mailQuery : List UInt8 :=
  [0, 1, 1, 0, 0, 1, 0, 0, 0, 0, 0, 0, 1, 0x61, 1, 0x07, 0, 0, 15, 0, 1]

/-- Its question. -/
def mailQuestion : Question := ⟨[.single 0x61, .single 7], 15, 1⟩

/-- In a buffer of three bytes there is room for the first label and the dot. -/
theorem parser_accepts_mailQuery :
    Grammar mailQuery mailQuestion ∧ ∃ r, parseDnsQueryChecked mailQuery (Buf.zero 3) 0 = .ok r ∧
      r.accepted = true ∧ r.qtype = 15 ∧ r.qname.bytes = [0x61, 0x2e, 0] := by
  have hq : Grammar mailQuery mailQuestion := ⟨by decide, by decide, by decide, by decide⟩
  obtain ⟨r, hr, haccepted, hout⟩ :=
    parser_accepts_grammar (show 2 ≤ 3 by decide) mailQuery (Buf.zero 3) 0
  refine ⟨hq, r, hr, haccepted.mpr ⟨_, hq⟩, (hout _ hq).1, ?_⟩
  rw [(hout _ hq).2]
  decide

end Dns
end WifiRepeater
