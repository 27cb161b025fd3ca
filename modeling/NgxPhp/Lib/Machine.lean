import Mathlib.Logic.Basic

/-!
# Runs of a deterministic labelled machine

A machine is a step function on states and labels, and a run feeds it a list of
labels. `Along` states a property of every single step, at the state in which
the step is taken. The rules below turn what one step preserves into what a
whole run preserves, with or without a side condition on the steps.
-/

namespace StepMachine

variable {σ ι : Type*}

/-- The state after the labels of a run. -/
def run (step : σ → ι → σ) (s : σ) (ls : List ι) : σ :=
  ls.foldl step s

@[simp] theorem run_nil (step : σ → ι → σ) (s : σ) : run step s [] = s := rfl

@[simp] theorem run_cons (step : σ → ι → σ) (s : σ) (l : ι) (ls : List ι) :
    run step s (l :: ls) = run step (step s l) ls := rfl

theorem run_append (step : σ → ι → σ) (s : σ) (ls ms : List ι) :
    run step s (ls ++ ms) = run step (run step s ls) ms :=
  List.foldl_append

/-- `P` holds of every step of the run, at the state the step is taken in. -/
def Along (step : σ → ι → σ) (P : σ → ι → Prop) : σ → List ι → Prop
  | _, [] => True
  | s, l :: ls => P s l ∧ Along step P (step s l) ls

@[simp] theorem along_nil (step : σ → ι → σ) (P : σ → ι → Prop) (s : σ) :
    Along step P s [] := trivial

@[simp] theorem along_cons (step : σ → ι → σ) (P : σ → ι → Prop) (s : σ) (l : ι)
    (ls : List ι) : Along step P s (l :: ls) ↔ P s l ∧ Along step P (step s l) ls :=
  Iff.rfl

instance decidableAlong (step : σ → ι → σ) (P : σ → ι → Prop) [∀ s l, Decidable (P s l)] :
    ∀ (s : σ) (ls : List ι), Decidable (Along step P s ls)
  | _, [] => isTrue trivial
  | s, l :: ls => @instDecidableAnd _ _ _ (decidableAlong step P (step s l) ls)

/-- Two properties of all steps. -/
theorem along_and (step : σ → ι → σ) (P Q : σ → ι → Prop) (s : σ) (ls : List ι) :
    Along step (fun s l => P s l ∧ Q s l) s ls ↔ Along step P s ls ∧ Along step Q s ls := by
  induction ls generalizing s with
  | nil => simp only [along_nil, and_self]
  | cons l ls ih =>
    simp only [along_cons, ih]
    exact and_and_and_comm

/-- The run rule: an invariant that every admissible step preserves holds at the
end of every run of admissible steps. -/
theorem Along.invariant {step : σ → ι → σ} {C : σ → ι → Prop} {I : σ → Prop}
    (hstep : ∀ s l, I s → C s l → I (step s l)) {s : σ} {ls : List ι}
    (hs : I s) (hC : Along step C s ls) : I (run step s ls) := by
  induction ls generalizing s with
  | nil => exact hs
  | cons l ls ih => exact ih (hstep s l hs hC.1) hC.2

/-- The run rule without a side condition. -/
theorem run_invariant {step : σ → ι → σ} {I : σ → Prop}
    (hstep : ∀ s l, I s → I (step s l)) {s : σ} (hs : I s) (ls : List ι) :
    I (run step s ls) := by
  induction ls generalizing s with
  | nil => exact hs
  | cons l ls ih => exact ih (hstep s l hs)

/-- An invariant kept by admissible steps turns a fact about one admissible step
into a fact about every step of an admissible run. -/
theorem Along.transfer {step : σ → ι → σ} {C P : σ → ι → Prop} {I : σ → Prop}
    (hstep : ∀ s l, I s → C s l → I (step s l)) (hP : ∀ s l, I s → C s l → P s l)
    {s : σ} {ls : List ι} (hs : I s) (hC : Along step C s ls) : Along step P s ls := by
  induction ls generalizing s with
  | nil => trivial
  | cons l ls ih => exact ⟨hP s l hs hC.1, ih (hstep s l hs hC.1) hC.2⟩

/-- If under the invariant a step has the property exactly when it is admissible,
a run has the property at all its steps exactly when all of them are admissible. -/
theorem along_iff_of_invariant {step : σ → ι → σ} {C P : σ → ι → Prop} {I : σ → Prop}
    (hstep : ∀ s l, I s → C s l → I (step s l)) (hiff : ∀ s l, I s → (P s l ↔ C s l))
    {s : σ} (hs : I s) (ls : List ι) : Along step P s ls ↔ Along step C s ls := by
  induction ls generalizing s with
  | nil => exact Iff.rfl
  | cons l ls ih =>
    rw [along_cons, along_cons, hiff s l hs]
    exact and_congr_right fun hC => ih (hstep s l hs hC)

/-- Two properties that agree on the admissible steps of states with the invariant agree on the
runs of admissible steps. -/
theorem Along.iff_of_invariant {step : σ → ι → σ} {C P Q : σ → ι → Prop} {I : σ → Prop}
    (hstep : ∀ s l, I s → C s l → I (step s l)) (hiff : ∀ s l, I s → C s l → (P s l ↔ Q s l))
    {s : σ} {ls : List ι} (hs : I s) (hC : Along step C s ls) :
    Along step P s ls ↔ Along step Q s ls := by
  induction ls generalizing s with
  | nil => exact Iff.rfl
  | cons l ls ih =>
    rw [along_cons, along_cons]
    exact and_congr (hiff s l hs hC.1) (ih (hstep s l hs hC.1) hC.2)

/-- The simulation rule: a machine that takes the steps that `f` selects, each its own way, stays
related to the one that takes all. -/
theorem Along.simulates {τ κ : Type*} {step : σ → ι → σ} {step' : τ → κ → τ}
    {C : σ → ι → Prop} {R : σ → τ → Prop} {f : ι → Option κ}
    (hskip : ∀ s t l, R s t → C s l → f l = none → R (step s l) t)
    (hstep : ∀ s t l m, R s t → C s l → f l = some m → R (step s l) (step' t m))
    {s : σ} {t : τ} {ls : List ι} (hR : R s t) (hC : Along step C s ls) :
    R (run step s ls) (run step' t (ls.filterMap f)) := by
  induction ls generalizing s t with
  | nil => exact hR
  | cons l ls ih =>
    cases hf : f l with
    | none =>
      rw [List.filterMap_cons_none hf]
      exact ih (hskip s t l hR hC.1 hf) hC.2
    | some m =>
      rw [List.filterMap_cons_some hf]
      exact ih (hstep s t l m hR hC.1 hf) hC.2

end StepMachine
