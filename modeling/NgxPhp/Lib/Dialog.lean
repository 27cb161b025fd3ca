import Mathlib.Data.List.Basic

/-!
# Programs that ask

A program asks one question after the other, each of which may depend on the answers before it,
and has a result in the end. What it asked and was answered somewhere determines its result; so
a machine that would have given the same answers leads to the same result.
-/

/-- A program with questions of type `κ`, answers of type `α` and results of type `ρ`. -/
inductive Dialog (κ α ρ : Type*)
  | done (r : ρ)
  | ask (q : κ) (next : α → Dialog κ α ρ)

namespace Dialog

variable {κ α ρ ρ' σ : Type*}

/-- The result when a machine answers. -/
def run (answer : σ → κ → α × σ) : Dialog κ α ρ → σ → ρ
  | done r, _ => r
  | ask q next, s => run answer (next (answer s q).1) (answer s q).2

/-- The result when these were the questions and their answers; none if the program asks something
else, or more, or less. -/
def follow [DecidableEq κ] : Dialog κ α ρ → List (κ × α) → Option ρ
  | done r, [] => some r
  | done _, _ :: _ => none
  | ask _ _, [] => none
  | ask q next, x :: xs => if x.1 = q then follow (next x.2) xs else none

/-- A machine gives these answers to these questions. -/
def Answered (answer : σ → κ → α × σ) : σ → List (κ × α) → Prop
  | _, [] => True
  | s, x :: xs => (answer s x.1).1 = x.2 ∧ Answered answer (answer s x.1).2 xs

/-- Change the result. -/
def map (f : ρ → ρ') : Dialog κ α ρ → Dialog κ α ρ'
  | done r => done (f r)
  | ask q next => ask q fun a => (next a).map f

theorem run_map (answer : σ → κ → α × σ) (f : ρ → ρ') (d : Dialog κ α ρ) (s : σ) :
    (d.map f).run answer s = f (d.run answer s) := by
  induction d generalizing s with
  | done r => rfl
  | ask q next ih => exact ih (answer s q).1 (answer s q).2

/-- The first question of a program that was followed is its own. -/
theorem follow_ask_eq_some [DecidableEq κ] {q : κ} {next : α → Dialog κ α ρ} {xs : List (κ × α)}
    {r : ρ} (h : (ask q next).follow xs = some r) :
    ∃ a ys, xs = (q, a) :: ys ∧ (next a).follow ys = some r := by
  cases xs with
  | nil => cases h
  | cons x ys =>
    rw [follow] at h
    obtain ⟨hq, hnext⟩ := Option.ite_none_right_eq_some.mp h
    exact ⟨x.2, ys, by rw [← hq], hnext⟩

/-- A program that was followed has its result with every machine that gives the answers. -/
theorem run_of_follow [DecidableEq κ] {answer : σ → κ → α × σ} {d : Dialog κ α ρ}
    {xs : List (κ × α)} {r : ρ} {s : σ} (h : d.follow xs = some r)
    (hanswered : Answered answer s xs) : d.run answer s = r := by
  induction d generalizing xs s with
  | done r' =>
    cases xs with
    | nil => exact Option.some.inj h
    | cons x xs => cases h
  | ask q next ih =>
    obtain ⟨a, ys, rfl, hnext⟩ := follow_ask_eq_some h
    obtain ⟨ha, hrest⟩ := hanswered
    rw [run, ha]
    exact ih a hnext hrest

end Dialog
