import WifiRepeater.Lib.Script

/-!
# Two runs side by side

What a script tells of a secret is seen in two runs of it, on states that differ in the
secret alone, under the same faults.  The runs are **coupled** when they end in related
values and in states that differ in the secret alone again.  The scripts need not be the same
either, since a call may have the secret as its argument.

## Main definitions

* `Coupled D S R m m'` — the runs of `m` and `m'` on states related by `S` end in values
  related by `R`.

## Main results

* `Coupled.bind`, `coupled_call`, `coupled_tryAll` — composing coupled scripts.
* `coupled_of_issues` — a script whose calls are answered alike is coupled with itself.
-/

namespace Script

universe u v w

variable {Op : Type u} {Ans : Op → Type v} {α β α' β' : Type w} {φ σ : Type*}

/-- On related states, and under the same faults, two scripts end in related values and
states, with the same faults left. -/
def Coupled (D : Device Op Ans φ σ) (S : σ → σ → Prop) (R : α → β → Prop)
    (m : Script Op Ans α) (m' : Script Op Ans β) : Prop :=
  ∀ fs s t, S s t → R (run D m fs s).value (run D m' fs t).value ∧
    (run D m fs s).faults = (run D m' fs t).faults ∧ S (run D m fs s).state (run D m' fs t).state

variable {D : Device Op Ans φ σ} {S : σ → σ → Prop}

theorem coupled_done {R : α → β → Prop} {a : α} {b : β} (h : R a b) :
    Coupled D S R (done a) (done b) := fun _ _ _ hst => ⟨h, rfl, hst⟩

theorem Coupled.mono {R R' : α → β → Prop} {m : Script Op Ans α} {m' : Script Op Ans β}
    (h : Coupled D S R m m') (hR : ∀ a b, R a b → R' a b) : Coupled D S R' m m' := by
  intro fs s t hst
  obtain ⟨hvalue, hrest⟩ := h fs s t hst
  exact ⟨hR _ _ hvalue, hrest⟩

/-- What the first script can return it has returned. -/
theorem Coupled.returns {R : α → β → Prop} {Q : α → Prop} {m : Script Op Ans α}
    {m' : Script Op Ans β} (h : Coupled D S R m m') (hm : Returns Q m) :
    Coupled D S (fun a b => R a b ∧ Q a) m m' := by
  intro fs s t hst
  obtain ⟨hvalue, hrest⟩ := h fs s t hst
  exact ⟨⟨hvalue, hm.run fs s⟩, hrest⟩

/-- **One script after the other**: related values select coupled scripts. -/
theorem Coupled.bind {Q : α → β → Prop} {R : α' → β' → Prop} {m : Script Op Ans α}
    {m' : Script Op Ans β} {k : α → Script Op Ans α'} {k' : β → Script Op Ans β'}
    (hm : Coupled D S Q m m') (hk : ∀ a b, Q a b → Coupled D S R (k a) (k' b)) :
    Coupled D S R (m >>= k) (m' >>= k') := by
  intro fs s t hst
  obtain ⟨hvalue, hfaults, hstate⟩ := hm fs s t hst
  rw [run_bind, run_bind, hfaults]
  exact hk _ _ hvalue _ _ _ hstate

/-- **One call each**: related answers select coupled scripts. -/
theorem coupled_call {R : α → β → Prop} {op op' : Op} {Q : Ans op → Ans op' → Prop}
    {next : Ans op → Script Op Ans α} {next' : Ans op' → Script Op Ans β}
    (hop : ∀ f s t, S s t → Q (D.exec op f s).1 (D.exec op' f t).1 ∧
      S (D.exec op f s).2 (D.exec op' f t).2)
    (hnext : ∀ r r', Q r r' → Coupled D S R (next r) (next' r')) :
    Coupled D S R (call op next) (call op' next') := by
  intro fs s t hst
  obtain ⟨hanswer, hstate⟩ := hop (fs.headD none) s t hst
  exact hnext _ _ hanswer _ _ _ hstate

/-- **A script of calls that are answered alike** on related states is coupled with
itself. -/
theorem coupled_of_issues {P : Op → Prop} {m : Script Op Ans α} (hm : Issues P m)
    (hP : ∀ op, P op → ∀ f s t, S s t → (D.exec op f s).1 = (D.exec op f t).1 ∧
      S (D.exec op f s).2 (D.exec op f t).2) : Coupled D S Eq m m := by
  induction m with
  | done a => exact coupled_done rfl
  | call op next ih =>
    refine coupled_call (hP op hm.1) fun r r' hr => ?_
    rw [← hr]
    exact ih r (hm.2 r)

/-- **Calls made in turn**, each with its own. -/
theorem coupled_tryAll {ε : Type w} {ms ms' : List (Script Op Ans (Except ε PUnit))}
    (h : List.Forall₂ (Coupled D S Eq) ms ms') : Coupled D S Eq (tryAll ms) (tryAll ms') := by
  induction h with
  | nil => exact coupled_done rfl
  | cons hm _ ih =>
    refine hm.bind fun r r' hr => ?_
    rw [← hr]
    cases r with
    | error e => exact coupled_done rfl
    | ok u => exact ih

end Script
