import Mathlib.Data.List.Basic
import Mathlib.Data.Option.Basic

/-!
# Machines and their runs

A machine is a function that says what an event does to a state, `none` when the event
cannot happen there.  Runs are lists of events; a property of every reachable state is
proved one step at a time.

## Main definitions

* `exec` — the state a list of events leads to.
* `Admitted` — every event of a list is admitted when it happens.
* `Reach` — the states reached by steps that a guard admits.

## Main results

* `Reach.invariant` — **the invariant rule.**
* `reach_of_exec` — an executed list of admitted events is a run.
* `exec_component` — a part of the state runs through its own events.
* `exists_step_of_exec` — what has come about came about at a step.
* `admitted_iff_of_invariant` — guards that agree under an invariant admit the same runs.
* `admitted_iff_forall_prefix` — a guard that says what a step needs is what a run needs.
-/

namespace Machine

variable {σ ε : Type*}

/-- The state after a list of events, if each of them can happen. -/
def exec (step : σ → ε → Option σ) : σ → List ε → Option σ
  | s, [] => some s
  | s, e :: es => (step s e).bind fun s' => exec step s' es

theorem exec_append (step : σ → ε → Option σ) : ∀ (s : σ) (es es' : List ε),
    exec step s (es ++ es') = (exec step s es).bind fun s' => exec step s' es' := by
  intro s es
  induction es generalizing s with
  | nil => exact fun es' => rfl
  | cons e es ih =>
    intro es'
    rw [List.cons_append, exec, exec, Option.bind_assoc]
    exact congrArg _ (funext fun s' => ih s' es')

/-- Every event of the list is admitted by the guard `ok` in the state it finds. -/
def Admitted (step : σ → ε → Option σ) (ok : σ → ε → Prop) : σ → List ε → Prop
  | _, [] => True
  | s, e :: es => ok s e ∧ ∀ s' ∈ step s e, Admitted step ok s' es

instance decidableAdmitted (step : σ → ε → Option σ) (ok : σ → ε → Prop)
    [∀ s e, Decidable (ok s e)] : ∀ (s : σ) (es : List ε), Decidable (Admitted step ok s es)
  | _, [] => inferInstanceAs (Decidable True)
  | s, e :: es =>
      have : ∀ s', Decidable (Admitted step ok s' es) := fun s' => decidableAdmitted step ok s' es
      inferInstanceAs (Decidable (ok s e ∧ ∀ s' ∈ step s e, Admitted step ok s' es))

/-- The states reached from `s₀` by steps that the guard `ok` admits. -/
inductive Reach (step : σ → ε → Option σ) (ok : σ → ε → Prop) (s₀ : σ) : σ → Prop
  /-- The start. -/
  | start : Reach step ok s₀ s₀
  /-- One more step. -/
  | step {s s' : σ} {e : ε} (h : Reach step ok s₀ s) (hok : ok s e)
      (hs : step s e = some s') : Reach step ok s₀ s'

variable {step : σ → ε → Option σ} {ok ok' : σ → ε → Prop} {s₀ : σ}

/-- **The invariant rule**: what holds at the start and is kept by every admitted step
holds of every reachable state. -/
theorem Reach.invariant {I : σ → Prop} (hstart : I s₀)
    (hstep : ∀ s e s', I s → ok s e → step s e = some s' → I s') {s : σ}
    (h : Reach step ok s₀ s) : I s := by
  induction h with
  | start => exact hstart
  | step _ hok hs ih => exact hstep _ _ _ ih hok hs

/-- **A part of the state runs through its own events**, when each step leads it by the
event selected for it, or leaves it as it was. -/
theorem exec_component {τ ε' : Type*} {p : σ → τ} {select : ε → Option ε'}
    {step' : τ → ε' → Option τ}
    (hstep : ∀ s e s', step s e = some s' →
      (∃ e', select e = some e' ∧ step' (p s) e' = some (p s')) ∨
        (select e = none ∧ p s' = p s)) :
    ∀ {es : List ε} {s s' : σ}, exec step s es = some s' →
      exec step' (p s) (es.filterMap select) = some (p s') := by
  intro es
  induction es with
  | nil =>
    intro s s' h
    rw [exec, Option.some.injEq] at h
    rw [h]
    rfl
  | cons e es ih =>
    intro s s' h
    rw [exec, Option.bind_eq_some_iff] at h
    obtain ⟨t, ht, hes⟩ := h
    rcases hstep s e t ht with ⟨e', he', hpart⟩ | ⟨hnone, hpart⟩
    · rw [List.filterMap_cons_some he', exec, hpart]
      exact ih hes
    · rw [List.filterMap_cons_none hnone, ← hpart]
      exact ih hes

/-- A run is a run under any weaker guard. -/
theorem Reach.mono (hok : ∀ s e, ok s e → ok' s e) {s : σ} (h : Reach step ok s₀ s) :
    Reach step ok' s₀ s := by
  induction h with
  | start => exact .start
  | step _ ho hs ih => exact .step ih (hok _ _ ho) hs

theorem Reach.trans {s s' : σ} (h : Reach step ok s₀ s) (h' : Reach step ok s s') :
    Reach step ok s₀ s' := by
  induction h' with
  | start => exact h
  | step _ ho hs ih => exact .step ih ho hs

theorem admitted_of_forall (h : ∀ s e, ok s e) {es : List ε} : Admitted step ok s₀ es := by
  induction es generalizing s₀ with
  | nil => trivial
  | cons e es ih => exact ⟨h s₀ e, fun _ _ => ih⟩

theorem admitted_of_forall_mem {P : ε → Prop} {es : List ε} (h : ∀ e ∈ es, P e) :
    Admitted step (fun _ e => P e) s₀ es := by
  induction es generalizing s₀ with
  | nil => trivial
  | cons e es ih =>
    rw [List.forall_mem_cons] at h
    exact ⟨h.1, fun _ _ => ih h.2⟩

/-- Two guards that agree on the given events, under an invariant that admitted steps
keep, admit the same lists of these events. -/
theorem admitted_iff_of_invariant {I : σ → Prop} {E : ε → Prop}
    (hI : ∀ s e s', I s → E e → ok s e → step s e = some s' → I s')
    (hok : ∀ s e, I s → E e → (ok s e ↔ ok' s e)) {es : List ε} (hE : ∀ e ∈ es, E e)
    (hI₀ : I s₀) : Admitted step ok s₀ es ↔ Admitted step ok' s₀ es := by
  induction es generalizing s₀ with
  | nil => exact Iff.rfl
  | cons e es ih =>
    rw [List.forall_mem_cons] at hE
    rw [Admitted, Admitted, ← hok s₀ e hI₀ hE.1]
    refine and_congr_right fun h => forall₂_congr fun s' hs' => ?_
    exact ih hE.2 (hI s₀ e s' hI₀ hE.1 h hs')

/-- An executed list of admitted events is a run. -/
theorem reach_of_exec {es : List ε} {s : σ} (hok : Admitted step ok s₀ es)
    (h : exec step s₀ es = some s) : Reach step ok s₀ s := by
  induction es generalizing s₀ with
  | nil =>
    rw [exec, Option.some.injEq] at h
    rw [← h]
    exact .start
  | cons e es ih =>
    rw [exec, Option.bind_eq_some_iff] at h
    obtain ⟨s', hs', hes⟩ := h
    exact Reach.trans (.step .start hok.1 hs') (ih (hok.2 s' hs') hes)

/-- **What has come about came about at a step**: where a property holds that did not hold
at the start, the run took a step of the kind that brings it about, from a state without
it. -/
theorem exists_step_of_exec {P : σ → Prop} {Q : σ → ε → Prop}
    (hstep : ∀ s e s', ¬P s → step s e = some s' → P s' → Q s e) :
    ∀ {es : List ε} {s₀ s : σ}, exec step s₀ es = some s → ¬P s₀ → P s →
      ∃ before e after t, es = before ++ e :: after ∧ exec step s₀ before = some t ∧ ¬P t ∧
        Q t e := by
  intro es
  induction es with
  | nil =>
    intro s₀ s h h₀ hs
    rw [exec, Option.some.injEq] at h
    exact absurd (h ▸ hs) h₀
  | cons e es ih =>
    intro s₀ s h h₀ hs
    rw [exec, Option.bind_eq_some_iff] at h
    obtain ⟨s', hs', hes⟩ := h
    by_cases hP : P s'
    · exact ⟨[], e, es, s₀, rfl, rfl, h₀, hstep s₀ e s' h₀ hs' hP⟩
    · obtain ⟨before, e', after, t, rfl, ht, hnot, hQ⟩ := ih hes hP hs
      refine ⟨e :: before, e', after, t, rfl, ?_, hnot, hQ⟩
      rw [exec, hs']
      exact ht

/-- The states a list of events passes through: the start, and those the rest passes
through from the next. -/
theorem forall_prefix_cons {P : σ → Prop} {e : ε} {es : List ε} :
    (∀ before, before <+: e :: es → ∀ s ∈ exec step s₀ before, P s) ↔
      P s₀ ∧ ∀ s' ∈ step s₀ e, ∀ before, before <+: es → ∀ s ∈ exec step s' before, P s := by
  constructor
  · intro h
    refine ⟨h [] List.nil_prefix s₀ rfl, fun s' hs' before hb s hs => ?_⟩
    refine h (e :: before) (List.prefix_cons_inj e |>.mpr hb) s ?_
    exact Option.bind_eq_some_iff.mpr ⟨s', hs', hs⟩
  · rintro ⟨h₀, h⟩ before hb s hs
    cases before with
    | nil => rwa [← Option.some.inj hs]
    | cons e' before =>
      obtain ⟨rfl, hrest⟩ := List.cons_prefix_cons.mp hb
      obtain ⟨s', hs', hs⟩ := Option.bind_eq_some_iff.mp hs
      exact h s' hs' before hrest s hs

/-- **What a step needs is what a run needs**: if, under an invariant, a guard admits just
the steps that lead from good states to good states, then it admits a list of events just
when all the states passed through are good. -/
theorem admitted_iff_forall_prefix {I P : σ → Prop}
    (hI : ∀ s e s', I s → step s e = some s' → I s')
    (hok : ∀ s e, I s → P s → (ok s e ↔ ∀ s' ∈ step s e, P s')) {es : List ε} (hI₀ : I s₀)
    (hP₀ : P s₀) :
    Admitted step ok s₀ es ↔ ∀ before, before <+: es → ∀ s ∈ exec step s₀ before, P s := by
  induction es generalizing s₀ with
  | nil =>
    refine iff_of_true trivial fun before hb s hs => ?_
    obtain rfl := List.prefix_nil.mp hb
    rwa [← Option.some.inj hs]
  | cons e es ih =>
    rw [forall_prefix_cons, Admitted, hok s₀ e hI₀ hP₀]
    constructor
    · rintro ⟨hgood, hrest⟩
      refine ⟨hP₀, fun s' hs' => ?_⟩
      exact (ih (hI _ _ _ hI₀ hs') (hgood s' hs')).mp (hrest s' hs')
    · rintro ⟨-, h⟩
      have hgood : ∀ s' ∈ step s₀ e, P s' := fun s' hs' => h s' hs' [] List.nil_prefix s' rfl
      exact ⟨hgood, fun s' hs' => (ih (hI _ _ _ hI₀ hs') (hgood s' hs')).mpr (h s' hs')⟩

end Machine
