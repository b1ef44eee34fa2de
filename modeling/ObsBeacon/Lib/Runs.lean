import Mathlib.Data.List.Infix

/-! Runs of a deterministic step function: properties of every state a run passes
through and of every step it takes, and the induction rules that relate the two. -/
namespace Runs

variable {σ ε : Type*} (step : σ → ε → σ)

/-- `P` holds before the run and after each of its steps. -/
def Always (P : σ → Prop) (s : σ) (es : List ε) : Prop :=
  ∀ pre, pre <+: es → P (pre.foldl step s)

/-- Every step of the run, seen in the state it is taken in, meets `Q`. -/
def EveryStep (Q : σ → ε → Prop) (s : σ) (es : List ε) : Prop :=
  ∀ pre e, pre ++ [e] <+: es → Q (pre.foldl step s) e

variable {step} {P J : σ → Prop} {Q R : σ → ε → Prop} {s : σ} {e : ε} {es : List ε}

@[simp] theorem always_nil : Always step P s [] ↔ P s := by
  simp [Always]

@[simp] theorem always_cons :
    Always step P s (e :: es) ↔ P s ∧ Always step P (step s e) es := by
  constructor
  · intro h
    refine ⟨h [] (List.nil_prefix), fun pre hpre => ?_⟩
    exact h (e :: pre) (List.cons_prefix_cons.mpr ⟨rfl, hpre⟩)
  · rintro ⟨hs, h⟩ pre hpre
    cases pre with
    | nil => exact hs
    | cons a pre =>
      obtain ⟨rfl, hrest⟩ := List.cons_prefix_cons.mp hpre
      exact h pre hrest

@[simp] theorem everyStep_nil : EveryStep step Q s [] := by
  intro pre e h
  simp at h

@[simp] theorem everyStep_cons :
    EveryStep step Q s (e :: es) ↔ Q s e ∧ EveryStep step Q (step s e) es := by
  constructor
  · intro h
    refine ⟨h [] e (by simp), fun pre a hpre => ?_⟩
    exact h (e :: pre) a (List.cons_prefix_cons.mpr ⟨rfl, hpre⟩)
  · rintro ⟨he, h⟩ pre a hpre
    cases pre with
    | nil =>
      obtain ⟨rfl, -⟩ := List.cons_prefix_cons.mp hpre
      exact he
    | cons b pre =>
      obtain ⟨rfl, hrest⟩ := List.cons_prefix_cons.mp hpre
      exact h pre a hrest

theorem everyStep_of_forall (h : ∀ s, ∀ e ∈ es, Q s e) : EveryStep step Q s es :=
  fun pre e hpre => h _ e (hpre.subset (by simp))

theorem everyStep_append {es' : List ε} :
    EveryStep step Q s (es ++ es') ↔
      EveryStep step Q s es ∧ EveryStep step Q (es.foldl step s) es' := by
  induction es generalizing s with
  | nil => simp
  | cons e es ih => rw [List.cons_append, everyStep_cons, everyStep_cons, ih, and_assoc,
      List.foldl_cons]

theorem Always.mono (h : ∀ s, J s → P s) (hJ : Always step J s es) : Always step P s es :=
  fun pre hpre => h _ (hJ pre hpre)

/-- Invariant rule: steps that meet `Q` keep `J`, so a run of such steps stays in `J`. -/
theorem always_of_everyStep (hstep : ∀ s e, J s → Q s e → J (step s e)) (hs : J s)
    (hq : EveryStep step Q s es) : Always step J s es := by
  induction es generalizing s with
  | nil => simpa using hs
  | cons e es ih =>
    rw [everyStep_cons] at hq
    exact always_cons.mpr ⟨hs, ih (hstep s e hs hq.1) hq.2⟩

/-- What every step keeps holds behind a run. -/
theorem invariant (hstep : ∀ s e, J s → J (step s e)) (hs : J s) (es : List ε) :
    J (es.foldl step s) := by
  induction es generalizing s with
  | nil => exact hs
  | cons e es ih => exact ih (hstep s e hs)

/-- What the invariant gives of a step that meets `Q` holds of every step of such a run. -/
theorem everyStep_of_everyStep (hstep : ∀ s e, J s → Q s e → J (step s e))
    (h : ∀ s e, J s → Q s e → R s e) (hs : J s) (hq : EveryStep step Q s es) :
    EveryStep step R s es := by
  intro pre e hpre
  have hJ := always_of_everyStep hstep hs hq pre ((List.prefix_append pre [e]).trans hpre)
  exact h _ e hJ (hq pre e hpre)

/-- When a step from an invariant state leads to a `P` state exactly if it meets `Q`, the
runs that stay in `P` are the runs all of whose steps meet `Q`. -/
theorem always_iff_everyStep (hP : ∀ s, J s → P s)
    (hgood : ∀ s e, J s → Q s e → J (step s e))
    (hbad : ∀ s e, J s → ¬ Q s e → ¬ P (step s e)) (hs : J s) :
    Always step P s es ↔ EveryStep step Q s es := by
  constructor
  · intro h
    induction es generalizing s with
    | nil => exact everyStep_nil
    | cons e es ih =>
      obtain ⟨-, ht⟩ := always_cons.mp h
      have hq : Q s e := by
        by_contra hq
        exact hbad s e hs hq (ht [] List.nil_prefix)
      exact everyStep_cons.mpr ⟨hq, ih (hgood s e hs hq) ht⟩
  · intro h
    exact (always_of_everyStep hgood hs h).mono hP

/-- Two systems take the same events in lockstep, related by `I` as long as the second meets
`R`: step properties that agree on related states agree on whole runs. -/
theorem everyStep_lockstep {τ : Type*} {step' : τ → ε → τ} {R : τ → ε → Prop} {I : σ → τ → Prop}
    {t : τ} (hstep : ∀ s t e, I s t → R t e → I (step s e) (step' t e))
    (h : ∀ s t e, I s t → (Q s e ↔ R t e)) (hI : I s t) :
    EveryStep step Q s es ↔ EveryStep step' R t es := by
  induction es generalizing s t with
  | nil => simp
  | cons e es ih =>
    rw [everyStep_cons, everyStep_cons, h s t e hI]
    exact and_congr_right fun hR => ih (hstep s t e hI hR)

/-- Step properties that agree on invariant states agree on whole runs. -/
theorem everyStep_congr (hstep : ∀ s e, J s → J (step s e))
    (h : ∀ s e, J s → (Q s e ↔ R s e)) (hs : J s) :
    EveryStep step Q s es ↔ EveryStep step R s es :=
  everyStep_lockstep (I := fun s t => s = t ∧ J s)
    (by rintro s t e ⟨rfl, hJ⟩ -; exact ⟨rfl, hstep s e hJ⟩)
    (by rintro s t e ⟨rfl, hJ⟩; exact h s e hJ) ⟨rfl, hs⟩

end Runs
