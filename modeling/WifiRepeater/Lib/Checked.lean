import WifiRepeater.Lib.CString

/-!
# Memory accesses that are checked

Code of C with every access spelled out: a read or a write outside its memory is a
fault, and so is a loop that is still going after the turns it was given.  A run that
answers at all has stayed within its memory and has ended.

## Main definitions

* `Fault`, `Checked` — what can go wrong, and code that may.
* `readAt`, `writeAt` — one access.
* `Checked.loop` — `while`, with a number of turns.

## Main results

* `readAt_of_lt`, `writeAt_of_lt` — accesses within the memory.
* `Checked.loop_spec` — **the loop rule**: an invariant that every turn keeps, and a
  measure that every turn lowers.
-/

/-- What ends a run without an answer. -/
inductive Fault
  /-- A read outside the memory. -/
  | read (i : ℕ)
  /-- A write outside the memory. -/
  | write (i : ℕ)
  /-- A loop that went on for too long. -/
  | endless
  deriving DecidableEq

/-- Code that may fault. -/
abbrev Checked (α : Type) := Except Fault α

/-- `mem[i]`. -/
def readAt (mem : List UInt8) (i : ℕ) : Checked UInt8 :=
  if i < mem.length then .ok (mem.getD i 0) else .error (.read i)

/-- `mem[i] = v`. -/
def writeAt {n : ℕ} (mem : Buf n) (i : ℕ) (v : UInt8) : Checked (Buf n) :=
  if i < n then .ok (mem.setByte i v) else .error (.write i)

theorem readAt_of_lt {mem : List UInt8} {i : ℕ} (h : i < mem.length) :
    readAt mem i = .ok (mem.getD i 0) := if_pos h

theorem readAt_eq {mem : List UInt8} {i : ℕ} (h : i < mem.length) :
    readAt mem i = .ok mem[i] := by
  rw [readAt_of_lt h, List.getD_eq_getElem]

/-- A read at a distance from a position. -/
theorem readAt_of_drop {mem : List UInt8} {i k : ℕ} {b : UInt8}
    (h : (mem.drop i)[k]? = some b) : readAt mem (i + k) = .ok b := by
  rw [List.getElem?_drop, List.getElem?_eq_some_iff] at h
  obtain ⟨hlt, rfl⟩ := h
  exact readAt_eq hlt

theorem writeAt_of_lt {n i : ℕ} {mem : Buf n} {v : UInt8} (h : i < n) :
    writeAt mem i v = .ok (mem.setByte i v) := if_pos h

namespace Checked

variable {σ β : Type}

theorem ok_bind {α : Type} (a : α) (f : α → Checked β) : (Except.ok a >>= f) = f a := rfl

/-- A loop: a turn leads to another one or leaves with a result. -/
def loop (turn : σ → Checked (σ ⊕ β)) : ℕ → σ → Checked β
  | 0, _ => .error .endless
  | fuel + 1, s =>
      match turn s with
      | .error f => .error f
      | .ok (.inl s') => loop turn fuel s'
      | .ok (.inr b) => .ok b

/-- **The loop rule**: under an invariant no turn faults, each one either leaves with a
good result or keeps the invariant and lowers the measure; then the loop ends with a good
result, within as many turns as the measure says. -/
theorem loop_spec {turn : σ → Checked (σ ⊕ β)} {I : σ → Prop} {Q : β → Prop} (measure : σ → ℕ)
    (hagain : ∀ s, I s → (∃ s', turn s = .ok (.inl s') ∧ I s' ∧ measure s' < measure s) ∨
      ∃ b, turn s = .ok (.inr b) ∧ Q b) :
    ∀ (fuel : ℕ) (s : σ), I s → measure s < fuel → ∃ b, loop turn fuel s = .ok b ∧ Q b := by
  intro fuel
  induction fuel with
  | zero => intro s _ h; omega
  | succ fuel ih =>
    intro s hs hfuel
    rcases hagain s hs with ⟨s', hturn, hs', hlt⟩ | ⟨b, hturn, hb⟩
    · rw [loop, hturn]
      exact ih s' hs' (by omega)
    · exact ⟨b, by rw [loop, hturn], hb⟩

end Checked
