import WifiRepeater.Lib.Chunked
import WifiRepeater.Lib.Stringify
import WifiRepeater.Web.Server

/-!
# Serving a file

A file is read into a buffer and sent as chunks, until a read gives nothing more.  A read that
fails gives nothing either, and a chunk that cannot be sent is followed by the end of the body
all the same.  So what a browser takes for the whole file is a front of it, and it may be a
front only.

## Main definitions

* `OpenFile`, `fread` — a file that is being read.
* `serveLoop` — the loop, and what gets on the wire of the body.
* `chunks` — the chunks of a file.

## Main results

* `decode_wire_iff` — when the browser has a complete body, and which.
* `static_file_served` — **what the browser takes for the file is a front of it**, and when it
  is the file.
-/

namespace WifiRepeater

open Chunked (encode last decode)

/-! ### The loop -/

/-- A file that is being read. -/
structure OpenFile where
  /-- What it holds. -/
  content : List UInt8
  /-- How much of it can be read before a read fails. -/
  readable : ℕ

/-- The part that can be read. -/
def OpenFile.data (f : OpenFile) : List UInt8 := f.content.take f.readable

/-- `fread`, from a position on. -/
def fread (f : OpenFile) (pos size : ℕ) : List UInt8 := (f.data.drop pos).take size

/-- `sizeof(chunk)`. -/
abbrev chunkSize : ℕ := 1024

theorem chunkSize_eq : chunkSize = 1024 := rfl

/-- How a call ends that sends something: `none` for `ESP_OK`, and with an error how many bytes
had been sent by then. -/
abbrev SendResult := Option ℕ

/-- What a call sends; one that fails has not sent everything. -/
def gotOut (text : List UInt8) : SendResult → List UInt8
  | none => text
  | some k => text.take (min k (text.length - 1))

/-- What the loop has done; the head of the response, which goes before the first chunk, is left
out. -/
structure FileServed where
  /-- What was sent of the body. -/
  wire : List UInt8
  /-- Whether it returned `ESP_OK`. -/
  ok : Bool

/-- The loop of `serve_static_file`, from a position on, and the calls that end the body. -/
def serveLoop (f : OpenFile) (pos : ℕ) (results : List SendResult) : FileServed :=
  let chunk := fread f pos chunkSize
  if _h : chunk = [] then ⟨gotOut last (results.headD none), true⟩
  else
    match results.headD none with
    | none =>
        let rest := serveLoop f (pos + chunk.length) results.tail
        ⟨encode chunk ++ rest.wire, rest.ok⟩
    -- the body is ended here as well
    | some k => ⟨gotOut (encode chunk) (some k) ++ gotOut last (results.tail.headD none), false⟩
termination_by f.data.length - pos
decreasing_by
  have hpos := List.length_pos_iff.mpr _h
  simp only [chunk, fread, List.length_take, List.length_drop] at hpos ⊢
  omega

/-- `serve_static_file`, once the file is open. -/
def serveOpenFile (f : OpenFile) (results : List SendResult) : FileServed := serveLoop f 0 results

/-! ### Its chunks -/

/-- The chunks of a file. -/
def chunks (l : List UInt8) : List (List UInt8) :=
  if _h : l = [] then [] else l.take chunkSize :: chunks (l.drop chunkSize)
termination_by l.length
decreasing_by
  have hpos := List.length_pos_iff.mpr _h
  rw [List.length_drop, chunkSize_eq]
  omega

theorem chunks_nil : chunks [] = [] := by rw [chunks, dif_pos rfl]

theorem chunks_of_ne_nil {l : List UInt8} (h : l ≠ []) :
    chunks l = l.take chunkSize :: chunks (l.drop chunkSize) := by
  rw [chunks, dif_neg h]

theorem flatten_take_chunks (l : List UInt8) (i : ℕ) :
    ((chunks l).take i).flatten = l.take (chunkSize * i) := by
  induction i generalizing l with
  | zero => simp
  | succ i ih =>
    by_cases h : l = []
    · simp [h, chunks_nil]
    · rw [chunks_of_ne_nil h, List.take_succ_cons, List.flatten_cons, ih, Nat.mul_succ,
        Nat.add_comm, List.take_add]

/-- A file of some length has chunks for all of it, and none to spare. -/
theorem length_chunks (l : List UInt8) :
    l.length ≤ chunkSize * (chunks l).length ∧
      ∀ i < (chunks l).length, chunkSize * i < l.length := by
  induction hk : l.length using Nat.strong_induction_on generalizing l with
  | _ k ih =>
    by_cases h : l = []
    · subst h
      rw [chunks_nil, ← hk]
      exact ⟨Nat.zero_le _, fun i hi => absurd hi (Nat.not_lt_zero i)⟩
    · have hpos := List.length_pos_iff.mpr h
      have hdrop : (l.drop chunkSize).length = k - chunkSize := by rw [List.length_drop, hk]
      have hless : k - chunkSize < k := Nat.sub_lt (hk ▸ hpos) (by decide)
      obtain ⟨hle, hlt⟩ := ih (k - chunkSize) hless (l.drop chunkSize) hdrop
      rw [chunks_of_ne_nil h, List.length_cons]
      simp only [chunkSize_eq] at hle hlt ⊢
      refine ⟨by omega, fun i hi => ?_⟩
      cases i with
      | zero => omega
      | succ i =>
        have := hlt i (by omega)
        omega

/-! ### What the browser has -/

/-- The body that a browser has of some chunks, if it takes it for complete. -/
def completeBody : List (List UInt8) → List SendResult → Option (List UInt8)
  | [], results => if results.headD none = none then some [] else none
  | c :: cs, results =>
      match results.headD none with
      | none => (completeBody cs results.tail).map (c ++ ·)
      -- nothing of the chunk was sent, and the end of the body follows
      | some 0 => if results.tail.headD none = none then some [] else none
      | some (_ + 1) => none

theorem decode_gotOut_last (r : SendResult) :
    decode (gotOut last r) = if r = none then some [] else none := by
  cases r with
  | none => exact Chunked.decode_last []
  | some k =>
    rw [if_neg (by simp), gotOut]
    exact Chunked.decode_take_last (by
      have hlast : last.length = 5 := rfl
      omega)

/-- A chunk that could not be sent. -/
theorem decode_failed {c : List UInt8} (hc : c ≠ []) (k : ℕ) (r : SendResult) :
    decode (gotOut (encode c) (some k) ++ gotOut last r)
      = if k = 0 ∧ r = none then some [] else none := by
  cases k with
  | zero =>
    rw [gotOut, Nat.zero_min, List.take_zero, List.nil_append, decode_gotOut_last]
    exact if_congr (by simp) rfl rfl
  | succ k =>
    have hlen : 1 < (encode c).length := by
      have hpos := List.length_pos_iff.mpr (Chunked.hexLength_ne_nil c.length)
      have hcrlf : Chunked.crlf.length = 2 := rfl
      rw [encode, List.length_append, List.length_append]
      omega
    have hprefix : gotOut last r <+: last := by
      cases r with
      | none => exact List.prefix_refl _
      | some j => exact List.take_prefix _ _
    rw [if_neg (by simp), gotOut]
    exact Chunked.decode_torn_prefix hc (by omega) (by omega) hprefix

theorem drop_length_take (l : List UInt8) (n : ℕ) : l.drop (l.take n).length = l.drop n := by
  rw [List.length_take]
  rcases Nat.le_total n l.length with h | h
  · rw [Nat.min_eq_left h]
  · rw [Nat.min_eq_right h, List.drop_eq_nil_of_le le_rfl, List.drop_eq_nil_of_le h]

/-- Every chunk was sent. -/
def allSent : List (List UInt8) → List SendResult → Prop
  | [], _ => True
  | _ :: cs, results => results.headD none = none ∧ allSent cs results.tail

/-- **What the browser has is a matter of the chunks**, and of how the calls end. -/
theorem serveLoop_spec (f : OpenFile) (pos : ℕ) (results : List SendResult) :
    decode (serveLoop f pos results).wire = completeBody (chunks (f.data.drop pos)) results ∧
      ((serveLoop f pos results).ok = true ↔ allSent (chunks (f.data.drop pos)) results) := by
  induction hk : (f.data.drop pos).length using Nat.strong_induction_on
    generalizing pos results with
  | _ k ih =>
    rw [serveLoop]
    by_cases hend : f.data.drop pos = []
    · have hread : fread f pos chunkSize = [] := by rw [fread, hend, List.take_nil]
      simp only [hread, dif_pos]
      rw [hend, chunks_nil, completeBody, decode_gotOut_last]
      exact ⟨rfl, iff_of_true trivial trivial⟩
    · have hpos := List.length_pos_iff.mpr hend
      have hread : fread f pos chunkSize ≠ [] := by
        rw [fread, ← List.length_pos_iff, List.length_take, chunkSize_eq]
        omega
      have hnext : f.data.drop (pos + (fread f pos chunkSize).length)
          = (f.data.drop pos).drop chunkSize := by
        rw [← List.drop_drop, fread, drop_length_take]
      simp only [dif_neg hread]
      rw [chunks_of_ne_nil hend, completeBody, allSent]
      cases results.headD none with
      | none =>
        have hlt : (f.data.drop (pos + (fread f pos chunkSize).length)).length < k := by
          rw [hnext, List.length_drop, hk, chunkSize_eq]
          omega
        obtain ⟨hbody, hok⟩ := ih _ hlt _ results.tail rfl
        rw [hnext] at hbody hok
        simp only
        rw [Chunked.decode_encode hread, hbody]
        exact ⟨rfl, hok.trans (and_iff_right trivial).symm⟩
      | some j =>
        simp only
        rw [decode_failed hread]
        refine ⟨?_, iff_of_false (by simp) fun h => absurd h.1 (by simp)⟩
        cases j with
        | zero => exact if_congr (by simp) rfl rfl
        | succ j => exact if_neg (by simp)

/-! ### What the browser takes for the file -/

theorem headD_eq_getD (results : List SendResult) : results.headD none = results.getD 0 none := by
  cases results <;> rfl

theorem getD_tail (results : List SendResult) (i : ℕ) :
    results.tail.getD i none = results.getD (i + 1) none := by
  cases results <;> rfl

theorem allSent_iff {cs : List (List UInt8)} {results : List SendResult} :
    allSent cs results ↔ ∀ i < cs.length, results.getD i none = none := by
  induction cs generalizing results with
  | nil => exact iff_of_true trivial fun i hi => absurd hi (Nat.not_lt_zero i)
  | cons c cs ih =>
    rw [allSent, ih, headD_eq_getD, List.length_cons, Nat.forall_lt_succ_left]
    simp only [getD_tail]

/-- The calls up to the chunk `i` succeeded, and then the body ended: behind the last chunk, or
in place of one of which nothing was sent. -/
structure EndsAt (n : ℕ) (results : List SendResult) (i : ℕ) : Prop where
  /-- The chunks before were sent. -/
  before : ∀ j < i, results.getD j none = none
  /-- The end was sent. -/
  ends : i = n ∧ results.getD i none = none ∨
    i < n ∧ results.getD i none = some 0 ∧ results.getD (i + 1) none = none

theorem endsAt_succ_iff {n i : ℕ} {results : List SendResult} :
    EndsAt (n + 1) results (i + 1) ↔ results.getD 0 none = none ∧ EndsAt n results.tail i := by
  constructor
  · rintro ⟨hbefore, hends⟩
    refine ⟨hbefore 0 (Nat.succ_pos i), fun j hj => ?_, ?_⟩
    · rw [getD_tail]
      exact hbefore (j + 1) (Nat.succ_lt_succ hj)
    · rw [getD_tail, getD_tail]
      exact hends.imp (And.imp_left Nat.succ.inj) (And.imp_left Nat.lt_of_succ_lt_succ)
  · rintro ⟨hfirst, hbefore, hends⟩
    refine ⟨fun j hj => ?_, ?_⟩
    · cases j with
      | zero => exact hfirst
      | succ j =>
        rw [← getD_tail]
        exact hbefore j (Nat.lt_of_succ_lt_succ hj)
    · rw [getD_tail, getD_tail] at hends
      exact hends.imp (And.imp_left (congrArg Nat.succ)) (And.imp_left Nat.succ_lt_succ)

/-- The bodies that are taken for complete. -/
theorem completeBody_eq_some_iff {cs : List (List UInt8)} {results : List SendResult}
    {body : List UInt8} :
    completeBody cs results = some body ↔
      ∃ i, EndsAt cs.length results i ∧ body = (cs.take i).flatten := by
  induction cs generalizing results body with
  | nil =>
    rw [completeBody, headD_eq_getD]
    constructor
    · intro h
      split_ifs at h with hlast
      exact ⟨0, ⟨fun j hj => absurd hj (Nat.not_lt_zero j), .inl ⟨rfl, hlast⟩⟩,
        (Option.some.inj h).symm⟩
    · rintro ⟨i, ⟨-, ⟨rfl, hlast⟩ | ⟨hlt, -⟩⟩, rfl⟩
      · exact if_pos hlast
      · exact absurd hlt (Nat.not_lt_zero i)
  | cons c cs ih =>
    rw [completeBody, headD_eq_getD, List.length_cons]
    constructor
    · intro h
      cases hfirst : results.getD 0 none with
      | none =>
        rw [hfirst] at h
        obtain ⟨b, hb, rfl⟩ := Option.map_eq_some_iff.mp h
        obtain ⟨i, hends, rfl⟩ := ih.mp hb
        exact ⟨i + 1, endsAt_succ_iff.mpr ⟨hfirst, hends⟩, rfl⟩
      | some k =>
        rw [hfirst] at h
        cases k with
        | zero =>
          simp only [headD_eq_getD, getD_tail] at h
          split_ifs at h with hlast
          exact ⟨0, ⟨fun j hj => absurd hj (Nat.not_lt_zero j),
            .inr ⟨Nat.succ_pos _, hfirst, hlast⟩⟩, (Option.some.inj h).symm⟩
        | succ k => exact absurd h (by simp)
    · rintro ⟨i, hends, rfl⟩
      cases i with
      | zero =>
        obtain ⟨hzero, -⟩ | ⟨-, hfirst, hlast⟩ := hends.ends
        · exact absurd hzero (Nat.succ_ne_zero _).symm
        · rw [hfirst]
          simp only [headD_eq_getD, getD_tail]
          exact if_pos hlast
      | succ i =>
        obtain ⟨hfirst, hends⟩ := endsAt_succ_iff.mp hends
        rw [hfirst]
        exact Option.map_eq_some_iff.mpr ⟨_, ih.mpr ⟨i, hends, rfl⟩, rfl⟩

/-- The chunks of the part that can be read. -/
def OpenFile.count (f : OpenFile) : ℕ := (chunks f.data).length

/-- The file can be read, and every chunk and the end were sent. -/
def SentWhole (f : OpenFile) (results : List SendResult) : Prop :=
  f.content.length ≤ f.readable ∧ ∀ i ≤ f.count, results.getD i none = none

/-- The body ends too early, and is ended as if that were its end. -/
inductive CutShort (f : OpenFile) (results : List SendResult) : Prop
  /-- A read failed. -/
  | read (hread : f.readable < f.content.length) (hsent : ∀ i ≤ f.count, results.getD i none = none)
  /-- Nothing of a chunk was sent, and the end of the body was. -/
  | send {i : ℕ} (hlt : i < f.count) (hbefore : ∀ j < i, results.getD j none = none)
      (hfailed : results.getD i none = some 0) (hlast : results.getD (i + 1) none = none)

variable (f : OpenFile) (results : List SendResult)

theorem data_front : f.data <+: f.content := List.take_prefix _ _

theorem data_eq_content_iff : f.data = f.content ↔ f.content.length ≤ f.readable :=
  List.take_eq_self_iff _

/-- The bodies that the browser takes for complete. -/
theorem decode_wire_iff (body : List UInt8) :
    decode (serveOpenFile f results).wire = some body ↔
      ∃ i, EndsAt f.count results i ∧ body = f.data.take (chunkSize * i) := by
  rw [serveOpenFile, (serveLoop_spec f 0 results).1, List.drop_zero, completeBody_eq_some_iff]
  simp only [flatten_take_chunks]
  rfl

theorem take_count : f.data.take (chunkSize * f.count) = f.data :=
  List.take_of_length_le (length_chunks f.data).1

/-- A body that ends before the last chunk is not the file. -/
theorem take_ne_content {i : ℕ} (hi : i < f.count) : f.data.take (chunkSize * i) ≠ f.content := by
  intro h
  have hlt := (length_chunks f.data).2 i hi
  have hle := (data_front f).length_le
  have hlen := congrArg List.length h
  rw [List.length_take] at hlen
  omega

/-- When the browser has the file. -/
theorem decode_wire_content_iff :
    decode (serveOpenFile f results).wire = some f.content ↔ SentWhole f results := by
  rw [decode_wire_iff]
  constructor
  · rintro ⟨i, ⟨hbefore, ⟨rfl, hlast⟩ | ⟨hlt, -⟩⟩, hbody⟩
    · rw [take_count] at hbody
      refine ⟨(data_eq_content_iff f).mp hbody.symm, fun j hj => ?_⟩
      rcases Nat.lt_or_eq_of_le hj with hj | rfl
      · exact hbefore j hj
      · exact hlast
    · exact absurd hbody.symm (take_ne_content f hlt)
  · rintro ⟨hread, hsent⟩
    refine ⟨f.count, ⟨fun j hj => hsent j hj.le, .inl ⟨rfl, hsent _ le_rfl⟩⟩, ?_⟩
    rw [take_count, (data_eq_content_iff f).mpr hread]

/-- When the browser has a part of the file and takes it for all. -/
theorem exists_decode_wire_ne_iff :
    (∃ body, decode (serveOpenFile f results).wire = some body ∧ body ≠ f.content) ↔
      CutShort f results := by
  simp only [decode_wire_iff]
  constructor
  · rintro ⟨body, ⟨i, ⟨hbefore, ⟨rfl, hlast⟩ | ⟨hlt, hfailed, hlast⟩⟩, rfl⟩, hne⟩
    · rw [take_count, ne_eq, data_eq_content_iff, not_le] at hne
      refine .read hne fun j hj => ?_
      rcases Nat.lt_or_eq_of_le hj with hj | rfl
      · exact hbefore j hj
      · exact hlast
    · exact .send hlt hbefore hfailed hlast
  · rintro (⟨hread, hsent⟩ | ⟨hlt, hbefore, hfailed, hlast⟩)
    · refine ⟨f.data, ⟨f.count, ⟨fun j hj => hsent j hj.le, .inl ⟨rfl, hsent _ le_rfl⟩⟩, ?_⟩, ?_⟩
      · rw [take_count]
      · rw [ne_eq, data_eq_content_iff]
        exact Nat.not_le.mpr hread
    · exact ⟨_, ⟨_, ⟨hbefore, .inr ⟨hlt, hfailed, hlast⟩⟩, rfl⟩, take_ne_content f hlt⟩

/-- **What the browser takes for the file is a front of it**: it is the file when all could be
read and sent, and only a part of it when a read failed, or when nothing could be sent of a
chunk and the end could.  The loop returns an error when a chunk could not be sent. -/
theorem static_file_served :
    (∀ body, decode (serveOpenFile f results).wire = some body → body <+: f.content) ∧
    (decode (serveOpenFile f results).wire = some f.content ↔ SentWhole f results) ∧
    ((∃ body, decode (serveOpenFile f results).wire = some body ∧ body ≠ f.content) ↔
      CutShort f results) ∧
    ((serveOpenFile f results).ok = true ↔ ∀ i < f.count, results.getD i none = none) := by
  refine ⟨?_, decode_wire_content_iff f results, exists_decode_wire_ne_iff f results, ?_⟩
  · intro body h
    obtain ⟨i, -, rfl⟩ := (decode_wire_iff f results body).mp h
    exact (List.take_prefix _ _).trans (data_front f)
  · rw [serveOpenFile, (serveLoop_spec f 0 results).2, List.drop_zero, allSent_iff]
    rfl

/-- What the server says it sends is what the browser gets, when nothing fails. -/
theorem serveStaticFile_sent (E : WebEnv) {path content : String} (h : E.www path = some content) :
    ∃ r, (serveStaticFile E path).response = some r ∧
      decode (serveOpenFile ⟨Js.utf8 r.body.toList, (Js.utf8 r.body.toList).length⟩ []).wire
        = some (Js.utf8 r.body.toList) := by
  refine ⟨⟨200, content⟩, by rw [serveStaticFile, h], ?_⟩
  exact (decode_wire_content_iff _ _).mpr ⟨le_rfl, fun i _ => by simp⟩

end WifiRepeater
