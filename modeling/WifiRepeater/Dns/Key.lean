import WifiRepeater.Dns.Message

/-!
# What the text of a name leaves out

The cache keeps a response under the text the parser made of the query's name and under
its type.  The text is made for reading: the bounds between labels become dots like any
other, unprintable bytes become `?`, what does not fit 255 characters is dropped, and
the class is not part of the key at all.  So two queries that share a key ask the same
question exactly when they agree on what the text leaves out.

## Main definitions

* `SameHidden q q'` — the two questions agree on what the text does not show.
* `patchId` — a cached response with the transaction ID of another query.

## Main results

* `labels_eq_of_render_eq` — the text and the hidden part determine the labels.
* `same_question_iff` — **when a shared key means a shared question.**
* `key_collision` — two questions with one key.
-/

namespace WifiRepeater
namespace Dns

/-- The size of the name buffer of `dns_proxy_task`. -/
def qnameSize : ℕ := 256

/-- What the text of a name leaves out is the same in both questions: the class, where
the labels end, and the bytes that are unprintable or beyond the cut. -/
structure SameHidden (q q' : Question) : Prop where
  /-- The class is no part of the key. -/
  qclass : q.qclass = q'.qclass
  /-- The bounds between labels show as dots. -/
  lengths : q.labels.map (fun l => l.bytes.length) = q'.labels.map (fun l => l.bytes.length)
  /-- Unprintable bytes show as `?`, bytes from the 256th on not at all. -/
  bytes : ∀ i, qnameSize - 1 ≤ i ∨ isprint (byteAt (dotted q.labels) i) = false ∨
      isprint (byteAt (dotted q'.labels) i) = false →
    byteAt (dotted q.labels) i = byteAt (dotted q'.labels) i

/-- The fix of `dns_proxy_task` to a cached response: the first two bytes of the query
go over the first two of the response. -/
def patchId (resp buf : List UInt8) : List UInt8 :=
  (resp.set 0 (byteAt buf 0)).set 1 (byteAt buf 1)

/-! ### Reading the labels back -/

/-- The labels behind the first one, from their bytes and their lengths. -/
theorem labels_eq_of_flatMap_eq : ∀ (ls ls' : List Label),
    ls.map (fun l => l.bytes.length) = ls'.map (fun l => l.bytes.length) →
      (ls.flatMap fun l => (0x2e : UInt8) :: l.bytes)
        = (ls'.flatMap fun l => (0x2e : UInt8) :: l.bytes) → ls = ls' := by
  intro ls
  induction ls with
  | nil =>
    intro ls' hlen _
    cases ls' with
    | nil => rfl
    | cons l' ls' => simp at hlen
  | cons l ls ih =>
    intro ls' hlen h
    cases ls' with
    | nil => simp at hlen
    | cons l' ls' =>
      rw [List.map_cons, List.map_cons, List.cons.injEq] at hlen
      rw [List.flatMap_cons, List.flatMap_cons, List.cons_append, List.cons_append,
        List.cons.injEq] at h
      obtain ⟨hbytes, hrest⟩ := List.append_inj h.2 hlen.1
      rw [Label.ext hbytes, ih ls' hlen.2 hrest]

theorem labels_eq_of_dotted_eq {ls ls' : List Label}
    (hlen : ls.map (fun l => l.bytes.length) = ls'.map (fun l => l.bytes.length))
    (h : dotted ls = dotted ls') : ls = ls' := by
  cases ls with
  | nil =>
    cases ls' with
    | nil => rfl
    | cons l' ls' => simp at hlen
  | cons l ls =>
    cases ls' with
    | nil => simp at hlen
    | cons l' ls' =>
      rw [List.map_cons, List.map_cons, List.cons.injEq] at hlen
      rw [dotted_cons, dotted_cons] at h
      obtain ⟨hbytes, hrest⟩ := List.append_inj h hlen.1
      rw [Label.ext hbytes, labels_eq_of_flatMap_eq ls ls' hlen.2 hrest]

theorem length_flatMap_eq : ∀ {ls ls' : List Label},
    ls.map (fun l => l.bytes.length) = ls'.map (fun l => l.bytes.length) →
      (ls.flatMap fun l => (0x2e : UInt8) :: l.bytes).length
        = (ls'.flatMap fun l => (0x2e : UInt8) :: l.bytes).length := by
  intro ls
  induction ls with
  | nil =>
    intro ls' h
    cases ls' with
    | nil => rfl
    | cons l' ls' => simp at h
  | cons l ls ih =>
    intro ls' h
    cases ls' with
    | nil => simp at h
    | cons l' ls' =>
      rw [List.map_cons, List.map_cons, List.cons.injEq] at h
      have := ih h.2
      simp only [List.flatMap_cons, List.length_append, List.length_cons]
      omega

theorem length_dotted_eq {ls ls' : List Label}
    (h : ls.map (fun l => l.bytes.length) = ls'.map (fun l => l.bytes.length)) :
    (dotted ls).length = (dotted ls').length := by
  cases ls with
  | nil =>
    cases ls' with
    | nil => rfl
    | cons l' ls' => simp at h
  | cons l ls =>
    cases ls' with
    | nil => simp at h
    | cons l' ls' =>
      rw [List.map_cons, List.map_cons, List.cons.injEq] at h
      have := length_flatMap_eq h.2
      rw [dotted_cons, dotted_cons, List.length_append, List.length_append]
      omega

/-- **The text and the hidden part determine the labels.** -/
theorem labels_eq_of_render_eq {q q' : Question}
    (h : render qnameSize q.labels = render qnameSize q'.labels) (hh : SameHidden q q') :
    q.labels = q'.labels := by
  have hlen := length_dotted_eq hh.lengths
  refine labels_eq_of_dotted_eq hh.lengths (List.ext_getElem hlen fun i hi hi' => ?_)
  have hat : byteAt (dotted q.labels) i = (dotted q.labels)[i] :=
    List.getD_eq_getElem _ _ hi
  have hat' : byteAt (dotted q'.labels) i = (dotted q'.labels)[i] :=
    List.getD_eq_getElem _ _ hi'
  have hsame := hh.bytes i
  rw [hat, hat'] at hsame
  by_cases hcut : qnameSize - 1 ≤ i
  · exact hsame (Or.inl hcut)
  by_cases hp : isprint (dotted q.labels)[i] = false
  · exact hsame (Or.inr (Or.inl hp))
  by_cases hp' : isprint (dotted q'.labels)[i] = false
  · exact hsame (Or.inr (Or.inr hp'))
  -- both characters stand in the text as they are
  have hshown := congrArg (fun t => t[i]?) h
  simp only [render] at hshown
  rw [List.getElem?_take_of_lt (by omega), List.getElem?_take_of_lt (by omega),
    List.getElem?_map, List.getElem?_map, List.getElem?_eq_getElem hi,
    List.getElem?_eq_getElem hi', Option.map_some, Option.map_some, Option.some.injEq] at hshown
  rw [Bool.not_eq_false] at hp hp'
  rwa [shown, shown, if_pos hp, if_pos hp'] at hshown

/-! ### The theorem -/

/-- Patching the ID leaves the question of a message as it is. -/
theorem carries_patchId {resp : List UInt8} {rlen : ℕ} {q : Question}
    (h : Carries resp rlen q) (buf : List UInt8) : Carries (patchId resp buf) rlen q := by
  have hdrop : (received (patchId resp buf) rlen).drop 12 = (received resp rlen).drop 12 := by
    refine List.ext_getElem (by simp [received]) fun i hi hi' => ?_
    -- the two patched bytes lie in the header
    have h0 : (0 : ℕ) ≠ 12 + i := by omega
    have h1 : (1 : ℕ) ≠ 12 + i := by omega
    simp [received, copyBytes, byteAt, patchId, List.getD, h0, h1]
  rw [Carries, hdrop]
  exact h

/-- **When a shared key means a shared question.**  Two datagrams the parser accepts
with the same text and type carry the same labels and class — so that every response to
the first question, with its ID patched, is a response to the second — exactly when they
agree on what the text leaves out. -/
theorem same_question_iff {buf buf' : List UInt8} {len len' : ℕ}
    {key : List UInt8 × UInt16} (h : parseDnsQuery buf len qnameSize = some key)
    (h' : parseDnsQuery buf' len' qnameSize = some key) :
    ∃ q q', Carries buf len q ∧ Carries buf' len' q' ∧
      ((q.labels = q'.labels ∧ q.qclass = q'.qclass ∧
          ∀ resp rlen, Carries resp rlen q → Carries (patchId resp buf') rlen q') ↔
        SameHidden q q') := by
  obtain ⟨qname, qtype⟩ := key
  obtain ⟨-, -, q, hq, -, hname, htype⟩ := (parseDnsQuery_eq_some_iff (by decide)).mp h
  obtain ⟨-, -, q', hq', -, hname', htype'⟩ := (parseDnsQuery_eq_some_iff (by decide)).mp h'
  refine ⟨q, q', hq, hq', ?_⟩
  constructor
  · rintro ⟨hls, hc, -⟩
    exact ⟨hc, by rw [hls], fun i _ => by rw [hls]⟩
  · intro hh
    have hls := labels_eq_of_render_eq (hname.symm.trans hname') hh
    have heq : q = q' := Question.ext hls (htype.symm.trans htype') hh.qclass
    exact ⟨hls, hh.qclass, fun resp rlen hr => heq ▸ carries_patchId hr buf'⟩

/-- The header of a query with one question. -/
def queryHeader : List UInt8 := [0x12, 0x34, 0x01, 0x00, 0, 1, 0, 0, 0, 0, 0, 0]

/-- A query for the single label `a.b`. -/
def queryDotInLabel : List UInt8 := queryHeader ++ [3, 0x61, 0x2e, 0x62, 0, 0, 1, 0, 1]

/-- A query for the two labels `a` and `b`. -/
def queryTwoLabels : List UInt8 := queryHeader ++ [1, 0x61, 1, 0x62, 0, 0, 1, 0, 1]

/-- The theorem at two queries whose text is `a.b`. -/
theorem same_question_iff_dot :
    ∃ q q', Carries queryDotInLabel 21 q ∧ Carries queryTwoLabels 21 q' ∧
      ((q.labels = q'.labels ∧ q.qclass = q'.qclass ∧
          ∀ resp rlen, Carries resp rlen q → Carries (patchId resp queryTwoLabels) rlen q') ↔
        SameHidden q q') :=
  have h : parseDnsQuery queryDotInLabel 21 qnameSize = some ([0x61, 0x2e, 0x62], 1) := by decide
  have h' : parseDnsQuery queryTwoLabels 21 qnameSize = some ([0x61, 0x2e, 0x62], 1) := by decide
  same_question_iff h h'

/-- **Two questions with one key**: a dot inside a label and a dot between labels. -/
theorem key_collision :
    ∃ (key : List UInt8 × UInt16) (q q' : Question),
      parseDnsQuery queryDotInLabel 21 qnameSize = some key ∧
      parseDnsQuery queryTwoLabels 21 qnameSize = some key ∧
      Carries queryDotInLabel 21 q ∧ Carries queryTwoLabels 21 q' ∧
      q.labels ≠ q'.labels :=
  ⟨([0x61, 0x2e, 0x62], 1),
    ⟨[⟨[0x61, 0x2e, 0x62], by decide, by decide⟩], 1, 1⟩,
    ⟨[⟨[0x61], by decide, by decide⟩, ⟨[0x62], by decide, by decide⟩], 1, 1⟩,
    by decide, by decide, by decide, by decide, by decide⟩

end Dns
end WifiRepeater
