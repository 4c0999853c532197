import Mathlib.Data.List.GetD
import Mathlib.Data.List.TakeWhile

/-!
# C strings in fixed buffers

A C string is what stands before the first NUL byte of the memory it starts in.  The
functions of `string.h` write into buffers of a fixed size, and whether a string ends
inside its own buffer is decided by bytes no copy wrote: `strncpy` writes no NUL when
the source is too long, and reading a value into the front of a buffer leaves the rest
as it was.  The buffers here keep those bytes.

## Main definitions

* `CStr` — a string, with the fact that it holds no NUL.
* `CStr.ofMem`, `strlen` — the string that starts at the front of some memory.
* `Buf n` — a buffer of exactly `n` bytes.
* `Buf.strncpy`, `Buf.put`, `Buf.zero` — what the C functions leave in one.

## Main results

* `Buf.str_strncpy_of_lt`, `Buf.str_strncpy_last` — the string a copy leaves, short of
  the buffer and at its limit.
* `CStr.ofMem_append`, `CStr.le_strlen_append` — a string ends in its buffer, or it
  runs on.
-/

/-- What holds of the separator and of every part holds of parts put together. -/
theorem List.forall_mem_intercalate {α : Type*} {P : α → Prop} {sep : List α} {ls : List (List α)}
    (hsep : ∀ a ∈ sep, P a) (hls : ∀ l ∈ ls, ∀ a ∈ l, P a) :
    ∀ a ∈ sep.intercalate ls, P a := by
  induction ls with
  | nil => simp
  | cons l ls ih =>
    rw [List.forall_mem_cons] at hls
    cases ls with
    | nil => simpa using hls.1
    | cons l' ls =>
      rw [List.intercalate_cons_cons]
      intro a ha
      rw [List.append_assoc, List.mem_append, List.mem_append] at ha
      rcases ha with ha | ha | ha
      · exact hls.1 a ha
      · exact hsep a ha
      · exact ih hls.2 a ha

/-- The value of a C string: bytes without the terminator. -/
@[ext] structure CStr where
  /-- The bytes before the terminator. -/
  bytes : List UInt8
  /-- None of them is the terminator. -/
  noNul : ∀ b ∈ bytes, b ≠ 0
  deriving DecidableEq

namespace CStr

/-- The number of bytes before the terminator. -/
def length (s : CStr) : ℕ := s.bytes.length

/-- The empty string. -/
def empty : CStr := ⟨[], by simp⟩

/-- The string that starts at the front of `mem`: the bytes up to the first NUL. -/
def ofMem (mem : List UInt8) : CStr where
  bytes := mem.takeWhile (· != 0)
  noNul b hb := by simpa using List.mem_takeWhile_imp hb

/-- `strncmp(a, b, n) == 0`. -/
def strncmpEq (a b : CStr) (n : ℕ) : Bool := a.bytes.take n = b.bytes.take n

/-- The first `n` characters: `strncpy` of `n` and a terminator behind them. -/
def take (n : ℕ) (s : CStr) : CStr where
  bytes := s.bytes.take n
  noNul b hb := s.noNul b (List.mem_of_mem_take hb)

theorem take_of_length_le {n : ℕ} {s : CStr} (h : s.length ≤ n) : s.take n = s :=
  CStr.ext (List.take_of_length_le h)

theorem length_take_le (n : ℕ) (s : CStr) : (s.take n).length ≤ n := List.length_take_le _ _

/-- A string literal of the source, in ASCII. -/
def lit (s : String) : CStr := ofMem (s.toList.map fun c => UInt8.ofNat c.toNat)

/-- On strings within its count `strncmp` compares them as a whole. -/
theorem strncmpEq_iff {a b : CStr} {n : ℕ} (ha : a.length ≤ n) (hb : b.length ≤ n) :
    a.strncmpEq b n = true ↔ a = b := by
  unfold length at ha hb
  rw [strncmpEq, decide_eq_true_eq, List.take_of_length_le ha, List.take_of_length_le hb,
    CStr.ext_iff]

theorem bytes_ofMem (mem : List UInt8) : (ofMem mem).bytes = mem.takeWhile (· != 0) := rfl

/-- Bytes without a NUL are their own string. -/
theorem ofMem_of_noNul {l : List UInt8} (h : ∀ b ∈ l, b ≠ 0) : (ofMem l).bytes = l := by
  rw [bytes_ofMem, List.takeWhile_eq_self_iff]
  intro b hb
  simpa using h b hb

@[simp] theorem ofMem_bytes (s : CStr) : ofMem s.bytes = s :=
  CStr.ext (ofMem_of_noNul s.noNul)

/-- A terminated string ends at its terminator. -/
theorem ofMem_terminated (s : CStr) (rest : List UInt8) :
    ofMem (s.bytes ++ 0 :: rest) = s := by
  apply CStr.ext
  rw [bytes_ofMem, List.takeWhile_append_of_pos (fun b hb => by simpa using s.noNul b hb)]
  simp

/-- A string whose terminator lies in the first part does not see the second. -/
theorem ofMem_append {l : List UInt8} (h : 0 ∈ l) (r : List UInt8) :
    ofMem (l ++ r) = ofMem l := by
  apply CStr.ext
  simp only [bytes_ofMem]
  induction l with
  | nil => simp at h
  | cons b l ih =>
    by_cases hb : b = 0
    · simp [hb]
    · have hmem : 0 ∈ l := by
        rcases List.mem_cons.mp h with h0 | h0
        · exact absurd h0.symm hb
        · exact h0
      simp [hb, ih hmem]

/-- A string without a terminator in the first part runs on to the second. -/
theorem ofMem_append_of_noNul {l : List UInt8} (h : 0 ∉ l) (r : List UInt8) :
    (ofMem (l ++ r)).bytes = l ++ (ofMem r).bytes := by
  simp only [bytes_ofMem]
  refine List.takeWhile_append_of_pos fun b hb => ?_
  have : b ≠ 0 := fun h0 => h (h0 ▸ hb)
  simpa using this

/-- A memory that begins with the bytes of a string holds a string at least as long. -/
theorem length_le_ofMem_append (s : CStr) (r : List UInt8) :
    s.length ≤ (ofMem (s.bytes ++ r)).length := by
  unfold length
  rw [bytes_ofMem, List.takeWhile_append_of_pos (fun b hb => by simpa using s.noNul b hb),
    List.length_append]
  exact Nat.le_add_right _ _

/-- The string in a memory that has a terminator is shorter than the memory. -/
theorem length_ofMem_lt {l : List UInt8} (h : 0 ∈ l) : (ofMem l).length < l.length := by
  have hsplit := List.takeWhile_append_dropWhile (p := (· != 0)) (l := l)
  -- the terminator is in the part behind the string, so that part is not empty
  have hne : l.dropWhile (· != 0) ≠ [] := by
    intro hnil
    rw [hnil, List.append_nil] at hsplit
    rw [List.takeWhile_eq_self_iff] at hsplit
    simpa using hsplit 0 h
  have hlen := congrArg List.length hsplit
  rw [List.length_append] at hlen
  have hpos := List.length_pos_iff.mpr hne
  simp only [length, bytes_ofMem]
  omega

theorem length_ofMem_le (l : List UInt8) : (ofMem l).length ≤ l.length := by
  simpa [length, bytes_ofMem] using (List.takeWhile_sublist (· != 0)).length_le

/-- The bytes of a literal without a NUL. -/
theorem bytes_lit {s : String} (hs : ∀ c ∈ s.toList, 0 < c.toNat ∧ c.toNat < 256) :
    (lit s).bytes = s.toList.map fun c => UInt8.ofNat c.toNat := by
  refine ofMem_of_noNul fun b hb => ?_
  obtain ⟨c, hc, rfl⟩ := List.mem_map.mp hb
  intro h0
  have hval : c.toNat % 256 = 0 := by simpa using congrArg UInt8.toNat h0
  have := hs c hc
  omega

/-- The characters a string is shown as, one for each byte. -/
def chars (s : CStr) : List Char := s.bytes.map fun b => Char.ofNat b.toNat

/-- A literal is shown as it was written. -/
theorem chars_lit {s : String} (hs : ∀ c ∈ s.toList, 0 < c.toNat ∧ c.toNat < 256) :
    (lit s).chars = s.toList := by
  rw [chars, bytes_lit hs, List.map_map]
  refine (List.map_congr_left fun c hc => ?_).trans (List.map_id _)
  have hval : (UInt8.ofNat c.toNat).toNat = c.toNat := by
    rw [UInt8.toNat_ofNat']
    exact Nat.mod_eq_of_lt (hs c hc).2
  rw [Function.comp_apply, hval, Char.ofNat_toNat]
  rfl

end CStr

/-- `strlen` of the string at the front of `mem`.  A string that runs past the end of
`mem` counts as long as `mem` is. -/
def strlen (mem : List UInt8) : ℕ := (CStr.ofMem mem).length

/-- An unterminated string is at least as long as the memory it fills. -/
theorem le_strlen_append {l : List UInt8} (h : 0 ∉ l) (r : List UInt8) :
    l.length ≤ strlen (l ++ r) := by
  rw [strlen, CStr.length, CStr.ofMem_append_of_noNul h, List.length_append]
  omega

/-- A buffer of `n` bytes. -/
@[ext] structure Buf (n : ℕ) where
  /-- Its bytes. -/
  bytes : List UInt8
  /-- There are `n` of them. -/
  size : bytes.length = n
  deriving DecidableEq

namespace Buf

variable {n : ℕ}

/-- A cleared buffer: `memset` with zero. -/
def zero (n : ℕ) : Buf n := ⟨List.replicate n 0, List.length_replicate⟩

/-- The string in a buffer. -/
def str (b : Buf n) : CStr := CStr.ofMem b.bytes

/-- The byte at an index. -/
def get (b : Buf n) (i : ℕ) : UInt8 := b.bytes.getD i 0

/-- `strncpy(dst, src, k)`: the first `k` bytes of the source, padded with zeros up to
`k` when it is shorter; what follows is left as it was. -/
def strncpy (dst : Buf n) (src : CStr) (k : ℕ) (hk : k ≤ n) : Buf n where
  bytes := src.bytes.take k ++ List.replicate (k - src.length) 0 ++ dst.bytes.drop k
  size := by
    have := dst.size
    simp only [List.length_append, List.length_take, List.length_replicate, List.length_drop,
      CStr.length]
    omega

/-- A string and its terminator written to the front; the rest is left as it was. -/
def put (dst : Buf n) (s : CStr) (h : s.length < n) : Buf n where
  bytes := s.bytes ++ 0 :: dst.bytes.drop (s.length + 1)
  size := by
    have := dst.size
    simp only [CStr.length] at h
    simp only [List.length_append, List.length_cons, List.length_drop, CStr.length]
    omega

/-- One byte written. -/
def setByte (dst : Buf n) (i : ℕ) (v : UInt8) : Buf n where
  bytes := dst.bytes.set i v
  size := by rw [List.length_set, dst.size]

@[simp] theorem bytes_setByte (dst : Buf n) (i : ℕ) (v : UInt8) :
    (dst.setByte i v).bytes = dst.bytes.set i v := rfl

/-- `memcpy` to the front of a buffer. -/
def memcpy (dst : Buf n) (src : List UInt8) (h : src.length ≤ n) : Buf n where
  bytes := src ++ dst.bytes.drop src.length
  size := by
    have := dst.size
    rw [List.length_append, List.length_drop]
    omega

@[simp] theorem take_memcpy (dst : Buf n) (src : List UInt8) (h : src.length ≤ n) :
    (dst.memcpy src h).bytes.take src.length = src := List.take_left

@[simp] theorem str_put (dst : Buf n) (s : CStr) (h : s.length < n) :
    (dst.put s h).str = s := CStr.ofMem_terminated _ _

theorem zero_mem_put (dst : Buf n) (s : CStr) (h : s.length < n) :
    0 ∈ (dst.put s h).bytes := by simp [put]

/-- The last byte of a buffer a string was put into: the terminator when the string fills
it, else the byte that was there. -/
theorem get_put (dst : Buf (n + 1)) (s : CStr) (h : s.length < n + 1) :
    (dst.put s h).get n = if s.length = n then 0 else dst.get n := by
  have hsize := dst.size
  unfold CStr.length at h ⊢
  unfold get put
  simp only [CStr.length]
  rw [List.getD_append_right _ _ _ _ (by omega)]
  split_ifs with heq
  -- the string fills all but the last byte, which is its terminator
  · rw [heq, Nat.sub_self, List.getD_cons_zero]
  · obtain ⟨j, hj⟩ : ∃ j, n - s.bytes.length = j + 1 := ⟨n - s.bytes.length - 1, by omega⟩
    rw [hj, List.getD_cons_succ, List.getD_eq_getElem _ _ (by rw [List.length_drop]; omega),
      List.getD_eq_getElem _ _ (by omega), List.getElem_drop]
    congr 1
    omega

/-- A source shorter than the count is copied with its terminator. -/
theorem strncpy_bytes_of_lt (dst : Buf n) {src : CStr} {k : ℕ} (hk : k ≤ n)
    (h : src.length < k) :
    ∃ rest, (dst.strncpy src k hk).bytes = src.bytes ++ 0 :: rest := by
  obtain ⟨j, hj⟩ : ∃ j, k - src.length = j + 1 := ⟨k - src.length - 1, by omega⟩
  refine ⟨List.replicate j 0 ++ dst.bytes.drop k, ?_⟩
  rw [CStr.length] at h
  simp only [strncpy]
  rw [hj, List.take_of_length_le (by omega), List.replicate_succ, List.append_assoc,
    List.cons_append]

theorem str_strncpy_of_lt (dst : Buf n) {src : CStr} {k : ℕ} (hk : k ≤ n)
    (h : src.length < k) : (dst.strncpy src k hk).str = src := by
  obtain ⟨rest, hrest⟩ := strncpy_bytes_of_lt dst hk h
  rw [str, hrest, CStr.ofMem_terminated]

theorem zero_mem_strncpy_of_lt (dst : Buf n) {src : CStr} {k : ℕ} (hk : k ≤ n)
    (h : src.length < k) : 0 ∈ (dst.strncpy src k hk).bytes := by
  obtain ⟨rest, hrest⟩ := strncpy_bytes_of_lt dst hk h
  simp [hrest]

/-- The last byte of a buffer. -/
theorem drop_last (dst : Buf (n + 1)) : dst.bytes.drop n = [dst.get n] := by
  have hs := dst.size
  rw [List.drop_eq_getElem_cons (by omega), get, List.getD_eq_getElem _ _ (by omega),
    List.drop_of_length_le (by omega)]

/-- A source that fills a count one short of the buffer: the copy is the source's front
and the buffer's old last byte. -/
theorem strncpy_bytes_last (dst : Buf (n + 1)) {src : CStr} (h : n ≤ src.length) :
    (dst.strncpy src n (Nat.le_succ n)).bytes = src.bytes.take n ++ [dst.get n] := by
  simp only [strncpy]
  rw [drop_last, Nat.sub_eq_zero_of_le h, List.replicate_zero, List.append_nil]

/-- When the old last byte is the terminator, such a copy ends there. -/
theorem str_strncpy_last (dst : Buf (n + 1)) {src : CStr} (h : n ≤ src.length)
    (h0 : dst.get n = 0) :
    (dst.strncpy src n (Nat.le_succ n)).str.bytes = src.bytes.take n := by
  have hno : ∀ b ∈ src.bytes.take n, b ≠ 0 := fun b hb => src.noNul b (List.mem_of_mem_take hb)
  rw [str, strncpy_bytes_last dst h, h0]
  exact congrArg CStr.bytes (CStr.ofMem_terminated ⟨_, hno⟩ [])

/-- When it is not, the copy has no terminator in its buffer. -/
theorem zero_notMem_strncpy_last (dst : Buf (n + 1)) {src : CStr} (h : n ≤ src.length)
    (h0 : dst.get n ≠ 0) : 0 ∉ (dst.strncpy src n (Nat.le_succ n)).bytes := by
  rw [strncpy_bytes_last dst h, List.mem_append, List.mem_singleton]
  rintro (hmem | heq)
  · exact src.noNul 0 (List.mem_of_mem_take hmem) rfl
  · exact h0 heq.symm

/-- Whatever lies behind the buffer, the string in it is as long as what was copied. -/
theorem le_strlen_strncpy (dst : Buf n) (src : CStr) {k : ℕ} (hk : k ≤ n) (rest : List UInt8) :
    min k src.length ≤ strlen ((dst.strncpy src k hk).bytes ++ rest) := by
  have h := CStr.length_le_ofMem_append (src.take k)
    (List.replicate (k - src.length) 0 ++ dst.bytes.drop k ++ rest)
  have hlen : (src.take k).length = min k src.length := List.length_take
  rw [hlen] at h
  unfold strlen strncpy
  simpa only [CStr.take, List.append_assoc] using h

/-- **`strncpy` and a terminator behind it** decide every byte of the buffer: the
source's front, then zeros. -/
theorem bytes_strncpy_setByte (dst : Buf (n + 1)) (src : CStr) :
    ((dst.strncpy src n (Nat.le_succ n)).setByte n 0).bytes
      = src.bytes.take n ++ List.replicate (n + 1 - min n src.length) 0 := by
  have hfront : (src.bytes.take n ++ List.replicate (n - src.length) (0 : UInt8)).length = n := by
    rw [List.length_append, List.length_take, List.length_replicate, CStr.length]
    omega
  have hpad : n + 1 - min n src.length = (n - src.length) + 1 := by omega
  show (src.bytes.take n ++ List.replicate (n - src.length) 0 ++ dst.bytes.drop n).set n 0 = _
  rw [drop_last, List.set_append_right _ _ hfront.le, hfront, Nat.sub_self, hpad,
    List.replicate_succ', ← List.append_assoc]
  rfl

/-- The string they leave is the source's front, whatever the buffer held. -/
theorem str_strncpy_setByte (dst : Buf (n + 1)) (src : CStr) :
    ((dst.strncpy src n (Nat.le_succ n)).setByte n 0).str.bytes = src.bytes.take n ∧
      0 ∈ ((dst.strncpy src n (Nat.le_succ n)).setByte n 0).bytes := by
  obtain ⟨j, hj⟩ : ∃ j, n + 1 - min n src.length = j + 1 := ⟨n - min n src.length, by omega⟩
  rw [str, bytes_strncpy_setByte, hj, List.replicate_succ]
  exact ⟨congrArg CStr.bytes (CStr.ofMem_terminated (src.take n) _), by simp⟩

/-- A string that fits its buffer is terminated in it. -/
theorem zero_mem_of_strlen_lt {b : Buf n} {rest : List UInt8}
    (h : strlen (b.bytes ++ rest) < n) : 0 ∈ b.bytes := by
  by_contra hno
  have := le_strlen_append hno rest
  rw [b.size] at this
  omega

theorem length_str_lt {b : Buf n} (h : 0 ∈ b.bytes) : b.str.length < n := by
  have := CStr.length_ofMem_lt h
  rwa [b.size] at this

end Buf
