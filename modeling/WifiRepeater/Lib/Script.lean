import Mathlib.Data.List.Basic

/-!
# Scripts of fallible calls

A program that talks to a device is a **script**: a tree whose nodes are the calls
it makes and whose branches are the answers it may get.  A device executes one call
at a time on its state, and the environment decides call by call whether the device
behaves or fails — a *fault*.  The same tree is run to its end, cut off after some
calls (a power loss), or stepped in turn with other scripts over one state, so one
translation of the program serves all three.

## Main definitions

* `Script`, `Device` — programs and what they run on.
* `run`, `cutAfter`, `failures` — a run under a fault pattern, the state a cut
  leaves, and the calls the pattern hit.
* `Issues`, `Returns` — what a script may ask for and what it may answer.
* `tryAll` — calls made in turn, the first error ends the sequence.
* `Guards` — rely and guarantee: the invariant survives every call of the script,
  whatever an interfering environment does in between.

## Main results

* `Issues.run_invariant` — the invariant rule.
* `run_tryAll`, `cutAfter_tryAll` — what a sequence of writes leaves behind.
* `guards_bind`, `guards_of_issues`, `Writes.guards` — composing rely and guarantee.
-/

universe u v w

/-- A program: done with a value, or one call of the device and what to do with its
answer. -/
inductive Script (Op : Type u) (Ans : Op → Type v) (α : Type w) : Type (max u v w)
  /-- The program has ended. -/
  | done (a : α) : Script Op Ans α
  /-- One call, and how the program continues on each answer. -/
  | call (op : Op) (next : Ans op → Script Op Ans α) : Script Op Ans α

/-- What executes the calls: `exec op f s` is the answer and the next state, when the
environment lets the call fail with `f` or, for `none`, lets it be. -/
structure Device (Op : Type u) (Ans : Op → Type v) (φ : Type*) (σ : Type*) where
  /-- One call. -/
  exec : (op : Op) → Option φ → σ → Ans op × σ

namespace Script

variable {Op : Type u} {Ans : Op → Type v} {α β : Type w} {φ σ : Type*}

/-! ### Sequencing -/

/-- First one script, then the one its value selects. -/
def bind : Script Op Ans α → (α → Script Op Ans β) → Script Op Ans β
  | done a, k => k a
  | call op next, k => call op fun r => (next r).bind k

instance : Monad (Script Op Ans) where
  pure := done
  bind := bind

@[simp] theorem pure_eq (a : α) : (pure a : Script Op Ans α) = done a := rfl

@[simp] theorem done_bind (a : α) (k : α → Script Op Ans β) : (done a >>= k) = k a := rfl

@[simp] theorem call_bind (op : Op) (next : Ans op → Script Op Ans α)
    (k : α → Script Op Ans β) : (call op next >>= k) = call op fun r => next r >>= k := rfl

/-! ### Running -/

/-- The end of a run: its value, the faults not used up, and the state. -/
structure Outcome (α : Type*) (φ σ : Type*) where
  /-- What the script answered. -/
  value : α
  /-- The part of the fault pattern the run did not reach. -/
  faults : List (Option φ)
  /-- The state the run ends in. -/
  state : σ

variable (D : Device Op Ans φ σ)

/-- Run a script under a fault pattern: one entry for each call, and no faults once
the pattern is used up. -/
def run : Script Op Ans α → List (Option φ) → σ → Outcome α φ σ
  | done a, fs, s => ⟨a, fs, s⟩
  | call op next, fs, s =>
      run (next (D.exec op (fs.headD none) s).1) fs.tail (D.exec op (fs.headD none) s).2

/-- The state left when the run is cut off after `n` calls. -/
def cutAfter : ℕ → Script Op Ans α → List (Option φ) → σ → σ
  | 0, _, _, s => s
  | _ + 1, done _, _, s => s
  | n + 1, call op next, fs, s =>
      cutAfter n (next (D.exec op (fs.headD none) s).1) fs.tail
        (D.exec op (fs.headD none) s).2

/-- The calls of a run the fault pattern hits, in order. -/
def failures : Script Op Ans α → List (Option φ) → σ → List Op
  | done _, _, _ => []
  | call op next, fs, s =>
      (if (fs.headD none).isSome then [op] else []) ++
        failures (next (D.exec op (fs.headD none) s).1) fs.tail
          (D.exec op (fs.headD none) s).2

@[simp] theorem run_done (a : α) (fs : List (Option φ)) (s : σ) :
    run D (done a : Script Op Ans α) fs s = ⟨a, fs, s⟩ := rfl

@[simp] theorem failures_done (a : α) (fs : List (Option φ)) (s : σ) :
    failures D (done a : Script Op Ans α) fs s = [] := rfl

@[simp] theorem cutAfter_zero (m : Script Op Ans α) (fs : List (Option φ)) (s : σ) :
    cutAfter D 0 m fs s = s := by cases m <;> rfl

@[simp] theorem cutAfter_done (n : ℕ) (a : α) (fs : List (Option φ)) (s : σ) :
    cutAfter D n (done a : Script Op Ans α) fs s = s := by cases n <;> rfl

/-- Without faults none are left, and none have hit a call. -/
@[simp] theorem faults_nil (m : Script Op Ans α) (s : σ) : (run D m [] s).faults = [] := by
  induction m generalizing s with
  | done a => rfl
  | call op next ih => exact ih _ _

@[simp] theorem failures_nil (m : Script Op Ans α) (s : σ) : failures D m [] s = [] := by
  induction m generalizing s with
  | done a => rfl
  | call op next ih => exact ih _ _

/-- A pattern without a fault is as good as none. -/
theorem run_of_noFault (m : Script Op Ans α) {fs : List (Option φ)} (hfs : ∀ f ∈ fs, f = none)
    (s : σ) :
    (run D m fs s).value = (run D m [] s).value ∧
      (run D m fs s).state = (run D m [] s).state := by
  induction m generalizing fs s with
  | done a => exact ⟨rfl, rfl⟩
  | call op next ih =>
    have hfirst : fs.headD none = none := by
      cases fs with
      | nil => rfl
      | cons f fs => exact hfs f List.mem_cons_self
    rw [run, run, hfirst]
    exact ih _ (fun f hf => hfs f (List.mem_of_mem_tail hf)) _

/-- **A run of a sequence is the run of its parts**, the second on what the first
left. -/
theorem run_bind (m : Script Op Ans α) (k : α → Script Op Ans β) (fs : List (Option φ))
    (s : σ) :
    run D (m >>= k) fs s
      = run D (k (run D m fs s).value) (run D m fs s).faults (run D m fs s).state := by
  induction m generalizing fs s with
  | done a => rfl
  | call op next ih => exact ih _ _ _

theorem failures_bind (m : Script Op Ans α) (k : α → Script Op Ans β)
    (fs : List (Option φ)) (s : σ) :
    failures D (m >>= k) fs s
      = failures D m fs s ++
        failures D (k (run D m fs s).value) (run D m fs s).faults (run D m fs s).state := by
  induction m generalizing fs s with
  | done a => rfl
  | call op next ih =>
    simp only [call_bind, failures, run, List.append_assoc]
    rw [ih]

/-! ### What a script asks for and answers -/

/-- Every call the script can make, whatever it is answered, satisfies `P`. -/
def Issues (P : Op → Prop) : Script Op Ans α → Prop
  | done _ => True
  | call op next => P op ∧ ∀ r, Issues P (next r)

/-- Every value the script can end with satisfies `P`. -/
def Returns (P : α → Prop) : Script Op Ans α → Prop
  | done a => P a
  | call _ next => ∀ r, Returns P (next r)

variable {D} {P P' : Op → Prop}

theorem Issues.bind {m : Script Op Ans α} {k : α → Script Op Ans β} (hm : Issues P m)
    (hk : ∀ a, Issues P (k a)) : Issues P (m >>= k) := by
  induction m with
  | done a => exact hk a
  | call op next ih => exact ⟨hm.1, fun r => ih r (hm.2 r)⟩

theorem Issues.mono {m : Script Op Ans α} (hm : Issues P m) (h : ∀ op, P op → P' op) :
    Issues P' m := by
  induction m with
  | done a => trivial
  | call op next ih => exact ⟨h op hm.1, fun r => ih r (hm.2 r)⟩

/-- **The invariant rule.**  What every issued call keeps, under every fault, a run
keeps. -/
theorem Issues.run_invariant {I : σ → Prop} {m : Script Op Ans α} (hm : Issues P m)
    (hI : ∀ op, P op → ∀ f s, I s → I (D.exec op f s).2) :
    ∀ fs s, I s → I (run D m fs s).state := by
  induction m with
  | done a => intro fs s hs; exact hs
  | call op next ih =>
    intro fs s hs
    exact ih _ (hm.2 _) _ _ (hI op hm.1 _ _ hs)

/-- A script whose calls leave the state alone leaves it alone. -/
theorem Issues.run_state {m : Script Op Ans α} (hm : Issues P m)
    (h : ∀ op, P op → ∀ f s, (D.exec op f s).2 = s) (fs : List (Option φ)) (s : σ) :
    (run D m fs s).state = s :=
  hm.run_invariant (I := fun s' => s' = s)
    (fun op hop f s' hs' => by rw [h op hop, hs']) fs s rfl

/-- The calls a pattern hits are among those the script issues. -/
theorem Issues.failures {m : Script Op Ans α} (hm : Issues P m) :
    ∀ fs s, ∀ op ∈ failures D m fs s, P op := by
  induction m with
  | done a => intro fs s op h; simp at h
  | call op next ih =>
    intro fs s op' h
    rw [Script.failures, List.mem_append] at h
    -- the head of the list is this call, when it was hit; the rest are calls of the branch
    -- taken
    rcases h with h | h
    · split at h
      · rw [List.mem_singleton] at h; rw [h]; exact hm.1
      · simp at h
    · exact ih _ (hm.2 _) _ _ _ h

theorem Returns.bind {Q : α → Prop} {R : β → Prop} {m : Script Op Ans α}
    {k : α → Script Op Ans β} (hm : Returns Q m) (hk : ∀ a, Q a → Returns R (k a)) :
    Returns R (m >>= k) := by
  induction m with
  | done a => exact hk a hm
  | call op next ih => exact fun r => ih r (hm r)

theorem returns_trivial (m : Script Op Ans α) : Returns (fun _ => True) m := by
  induction m with
  | done a => trivial
  | call op next ih => exact ih

theorem Returns.run {Q : α → Prop} {m : Script Op Ans α} (hm : Returns Q m) :
    ∀ (fs : List (Option φ)) (s : σ), Q (run D m fs s).value := by
  induction m with
  | done a => intro fs s; exact hm
  | call op next ih => intro fs s; exact ih _ (hm _) _ _

/-! ### Calls made in turn

Code that writes a record makes its calls one after the other and returns the first
error.  Cut anywhere, or stopped by a fault, it has applied a prefix of its effects. -/

/-- The scripts in order; the first error ends the sequence and is its value. -/
def tryAll {ε : Type w} :
    List (Script Op Ans (Except ε PUnit)) → Script Op Ans (Except ε PUnit)
  | [] => done (.ok ⟨⟩)
  | m :: ms => m >>= fun
      | .ok _ => tryAll ms
      | .error e => done (.error e)

/-- What every call of the parts satisfies every call of the sequence does. -/
theorem issues_tryAll {ε : Type w} {P : Op → Prop}
    {ms : List (Script Op Ans (Except ε PUnit))} (h : ∀ m ∈ ms, Issues P m) :
    Issues P (tryAll ms) := by
  induction ms with
  | nil => exact trivial
  | cons m ms ih =>
    refine Issues.bind (h m List.mem_cons_self) fun r => ?_
    cases r with
    | error e => exact trivial
    | ok _ => exact ih fun m' hm' => h m' (List.mem_cons_of_mem _ hm')

/-- The number of calls, of at most `n`, made before the pattern's first fault. -/
def clear : ℕ → List (Option φ) → ℕ
  | 0, _ => 0
  | n + 1, fs =>
      match fs.headD none with
      | none => clear n fs.tail + 1
      | some _ => 0

/-- Effects applied in order. -/
def applyAll (effs : List (σ → σ)) (s : σ) : σ := effs.foldl (fun s eff => eff s) s

@[simp] theorem applyAll_nil (s : σ) : applyAll [] s = s := rfl

@[simp] theorem applyAll_cons (eff : σ → σ) (effs : List (σ → σ)) (s : σ) :
    applyAll (eff :: effs) s = applyAll effs (eff s) := rfl

@[simp] theorem clear_nil (n : ℕ) : clear n ([] : List (Option φ)) = n := by
  induction n with
  | zero => rfl
  | succ n ih => exact congrArg (· + 1) ih

theorem clear_le (n : ℕ) (fs : List (Option φ)) : clear n fs ≤ n := by
  induction n generalizing fs with
  | zero => exact Nat.le_refl 0
  | succ n ih =>
    unfold clear
    cases fs.headD none with
    | none => exact Nat.succ_le_succ (ih _)
    | some f => exact Nat.zero_le _

/-- Cutting the count at `k` calls cuts the clear ones at `k`. -/
theorem clear_min (k n : ℕ) (fs : List (Option φ)) :
    clear (min k n) fs = min k (clear n fs) := by
  induction n generalizing k fs with
  | zero => simp [clear]
  | succ n ih =>
    cases k with
    | zero => simp [clear]
    | succ k =>
      rw [Nat.add_min_add_right]
      unfold clear
      cases fs.headD none with
      | none => simp only [ih, Nat.add_min_add_right]
      | some f => simp

/-- A script that is one write: it has the effect `eff` and answers `ok`, or it is hit
by a fault, changes nothing and answers an error. -/
structure Writes (D : Device Op Ans φ σ) {ε : Type w} (op : Op)
    (m : Script Op Ans (Except ε PUnit)) (eff : σ → σ) where
  /-- How the answer of the call is read. -/
  read : Ans op → Except ε PUnit
  /-- The script is that call. -/
  eq : m = call op fun r => done (read r)
  /-- Without a fault. -/
  clear : ∀ s, read (D.exec op none s).1 = .ok ⟨⟩ ∧ (D.exec op none s).2 = eff s
  /-- With one. -/
  hit : ∀ f s, (∃ e, read (D.exec op (some f) s).1 = .error e) ∧
    (D.exec op (some f) s).2 = s

/-- A list of writes with their effects. -/
inductive WritesAll (D : Device Op Ans φ σ) {ε : Type w} :
    List (Script Op Ans (Except ε PUnit)) → List (σ → σ) → Prop
  /-- No writes. -/
  | nil : WritesAll D [] []
  /-- One more write at the front. -/
  | cons {op m eff ms effs} (h : Writes D op m eff) (hs : WritesAll D ms effs) :
      WritesAll D (m :: ms) (eff :: effs)

section TryAll

variable {D : Device Op Ans φ σ} {ε : Type w} {ms : List (Script Op Ans (Except ε PUnit))}
  {effs : List (σ → σ)}

theorem WritesAll.length_eq (h : WritesAll D ms effs) : effs.length = ms.length := by
  induction h with
  | nil => rfl
  | cons _ _ ih => simp [ih]

/-- **What a sequence of writes leaves behind**: the effects of the calls before the
first fault. -/
theorem run_tryAll (h : WritesAll D ms effs) : ∀ (fs : List (Option φ)) (s : σ),
    (run D (tryAll ms) fs s).state = applyAll (effs.take (clear ms.length fs)) s ∧
      ((run D (tryAll ms) fs s).value = .ok ⟨⟩ ↔ clear ms.length fs = ms.length) ∧
      (failures D (tryAll ms) fs s = [] ↔ clear ms.length fs = ms.length) := by
  induction h with
  | nil => intro fs s; simp [tryAll, clear]
  | @cons op m eff ms effs hw _ ih =>
    intro fs s
    simp only [tryAll, hw.eq, call_bind, done_bind, run, failures, List.length_cons, clear]
    cases hf : fs.headD none with
    -- the call took effect, and the rest of the sequence goes on from there
    | none =>
      obtain ⟨hok, heff⟩ := hw.clear s
      obtain ⟨ih1, ih2, ih3⟩ := ih fs.tail (eff s)
      rw [hok, heff]
      refine ⟨?_, ?_, ?_⟩
      · simpa using ih1
      · simpa using ih2
      · simpa using ih3
    -- the first fault: nothing changed, and its error is the answer
    | some f =>
      obtain ⟨⟨e, he⟩, hst⟩ := hw.hit f s
      rw [he, hst]
      simp

/-- **What a cut leaves behind**: the effects of the calls made before the cut and
before the first fault. -/
theorem cutAfter_tryAll (h : WritesAll D ms effs) :
    ∀ (n : ℕ) (fs : List (Option φ)) (s : σ),
      cutAfter D n (tryAll ms) fs s = applyAll (effs.take (clear (min n ms.length) fs)) s := by
  induction h with
  | nil => intro n fs s; simp [tryAll, clear]
  | @cons op m eff ms effs hw _ ih =>
    intro n fs s
    cases n with
    | zero => simp [clear]
    | succ n =>
      simp only [tryAll, hw.eq, call_bind, done_bind, cutAfter, List.length_cons,
        Nat.add_min_add_right, clear]
      cases hf : fs.headD none with
      | none =>
        obtain ⟨hok, heff⟩ := hw.clear s
        rw [hok, heff]
        simpa using ih n fs.tail (eff s)
      | some f =>
        obtain ⟨⟨e, he⟩, hst⟩ := hw.hit f s
        rw [he, hst]
        simp

end TryAll

/-! ### Rely and guarantee

Two scripts that share a device see each other's writes between their own calls.  A
ghost value `g` records how far a script has come (`mark` moves it at each call), and
`rely g` says which changes of the state the others may make there. -/

/-- What a script is checked against: the invariant to keep, the interference to
expect, and the ghost value. -/
structure Contract (Op : Type u) (σ : Type*) (Γ : Type*) where
  /-- The invariant. -/
  inv : Γ → σ → Prop
  /-- What the environment may do between two calls. -/
  rely : Γ → σ → σ → Prop
  /-- The ghost value after a call. -/
  mark : Γ → Op → Γ

/-- From state `s` and ghost value `g`, every call of the script restores the
invariant, whatever fault it meets and whatever the environment does before it, and
the script ends in `Q`. -/
def Guards {Γ : Type*} (D : Device Op Ans φ σ) (C : Contract Op σ Γ)
    (Q : Γ → α → σ → Prop) : Γ → Script Op Ans α → σ → Prop
  | g, done a, s => ∀ s', C.rely g s s' → Q g a s'
  | g, call op next, s => ∀ s', C.rely g s s' → ∀ f,
      C.inv (C.mark g op) (D.exec op f s').2 ∧
        Guards D C Q (C.mark g op) (next (D.exec op f s').1) (D.exec op f s').2

section Guards

variable {Γ : Type*} {D : Device Op Ans φ σ} {C : Contract Op σ Γ}

/-- Interference keeps a guarantee. -/
theorem Guards.stable (htrans : ∀ g s s' s'', C.rely g s s' → C.rely g s' s'' → C.rely g s s'')
    {Q : Γ → α → σ → Prop} {g : Γ} {m : Script Op Ans α} {s s' : σ}
    (h : Guards D C Q g m s) (hr : C.rely g s s') : Guards D C Q g m s' := by
  cases m with
  | done a => exact fun s'' hs'' => h s'' (htrans _ _ _ _ hr hs'')
  | call op next => exact fun s'' hs'' => h s'' (htrans _ _ _ _ hr hs'')

/-- **Guarantees compose**: the second script starts where the first one ends. -/
theorem guards_bind (hrefl : ∀ g s, C.rely g s s) {Q : Γ → β → σ → Prop} {g : Γ}
    {m : Script Op Ans α} {k : α → Script Op Ans β} {s : σ}
    (h : Guards D C (fun g a s => Guards D C Q g (k a) s) g m s) :
    Guards D C Q g (m >>= k) s := by
  induction m generalizing g s with
  -- the environment may do nothing here, so the second script starts in `s` itself
  | done a => exact h s (hrefl g s)
  | call op next ih =>
    intro s' hs' f
    obtain ⟨hinv, hrest⟩ := h s' hs' f
    exact ⟨hinv, ih _ hrest⟩

theorem Guards.mono {Q Q' : Γ → α → σ → Prop} {g : Γ} {m : Script Op Ans α} {s : σ}
    (h : Guards D C Q g m s) (hQ : ∀ g a s, Q g a s → Q' g a s) : Guards D C Q' g m s := by
  induction m generalizing g s with
  | done a => exact fun s' hs' => hQ _ _ _ (h s' hs')
  | call op next ih =>
    intro s' hs' f
    obtain ⟨hinv, hrest⟩ := h s' hs' f
    exact ⟨hinv, ih _ hrest⟩

/-- What a script returns in any case, it returns under its guarantee. -/
theorem Guards.and_returns {Q : Γ → α → σ → Prop} {P : α → Prop} {g : Γ} {m : Script Op Ans α}
    {s : σ} (h : Guards D C Q g m s) (hm : Returns P m) :
    Guards D C (fun g a s => Q g a s ∧ P a) g m s := by
  induction m generalizing g s with
  | done a => exact fun s' hs' => ⟨h s' hs', hm⟩
  | call op next ih =>
    intro s' hs' f
    obtain ⟨hinv, hrest⟩ := h s' hs' f
    exact ⟨hinv, ih _ hrest (hm _)⟩

/-- Calls that restore an assertion `A` from any state the environment may present
guarantee it to the end. -/
theorem guards_of_issues {P : Op → Prop} {A : Γ → σ → Prop}
    (hrely : ∀ g s s', A g s → C.rely g s s' → A g s')
    (hexec : ∀ op, P op → ∀ f g s, A g s → A (C.mark g op) (D.exec op f s).2)
    (hinv : ∀ g s, A g s → C.inv g s) {m : Script Op Ans α} (hm : Issues P m) {g : Γ} {s : σ}
    (hs : A g s) : Guards D C (fun g _ s => A g s) g m s := by
  induction m generalizing g s with
  | done a => exact fun s' hs' => hrely g s s' hs hs'
  | call op next ih =>
    intro s' hs' f
    -- the environment first, then the call: both keep the assertion
    have hA := hexec op hm.1 f g s' (hrely g s s' hs hs')
    exact ⟨hinv _ _ hA, ih _ (hm.2 _) hA⟩

/-- One more write at the front of a sequence: the invariant holds after it, whether it
was hit or not, and the rest goes on from its effect. -/
theorem Writes.guards {ε : Type w} {op : Op} {m : Script Op Ans (Except ε PUnit)}
    {eff : σ → σ} (hw : Writes D op m eff) {ms : List (Script Op Ans (Except ε PUnit))}
    {Q : Γ → Except ε PUnit → σ → Prop} {g : Γ} {s : σ}
    (hok : ∀ s', C.rely g s s' → C.inv (C.mark g op) (eff s') ∧
      Guards D C Q (C.mark g op) (tryAll ms) (eff s'))
    (hhit : ∀ s', C.rely g s s' → C.inv (C.mark g op) s' ∧
      ∀ e s'', C.rely (C.mark g op) s' s'' → Q (C.mark g op) (.error e) s'') :
    Guards D C Q g (tryAll (m :: ms)) s := by
  simp only [tryAll, hw.eq, call_bind, done_bind]
  intro s' hs' f
  cases f with
  | none =>
    obtain ⟨hr, heff⟩ := hw.clear s'
    beta_reduce
    rw [hr, heff]
    exact hok s' hs'
  | some f =>
    obtain ⟨⟨e, he⟩, hst⟩ := hw.hit f s'
    beta_reduce
    rw [he, hst]
    exact ⟨(hhit s' hs').1, (hhit s' hs').2 e⟩

end Guards

end Script
