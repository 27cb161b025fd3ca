import Mathlib.Data.List.Basic

/-!
# Records that only grow

A machine keeps a record in its state, with the latest entry first. `Adds` says that
on the way from one state to another only entries of one kind are added. The rules
compose it, and carry over what the entries there before have.
-/

namespace Ledger

variable {σ α : Type*} {log : σ → List α} {P Q : α → Prop} {s t u : σ}

/-- The record of `t` is that of `s` behind new entries, which all have `P`. -/
def Adds (log : σ → List α) (P : α → Prop) (s t : σ) : Prop :=
  ∃ new, log t = new ++ log s ∧ ∀ o ∈ new, P o

/-- The record is the same. -/
theorem adds_of_eq (h : log t = log s) : Adds log P s t := ⟨[], h, nofun⟩

theorem Adds.refl (s : σ) : Adds log P s s := adds_of_eq rfl

/-- One entry is added. -/
theorem adds_cons {o : α} (h : log t = o :: log s) (ho : P o) : Adds log P s t :=
  ⟨[o], h, fun _ hm => List.mem_singleton.mp hm ▸ ho⟩

theorem Adds.trans (h : Adds log P s t) (g : Adds log P t u) : Adds log P s u := by
  obtain ⟨new, ht, hn⟩ := h
  obtain ⟨new', hu, hn'⟩ := g
  refine ⟨new' ++ new, ?_, fun o hm => (List.mem_append.mp hm).elim (hn' o) (hn o)⟩
  rw [hu, ht, List.append_assoc]

/-- What holds of all entries there and of those that are added holds of all. -/
theorem Adds.all (h : Adds log P s t) (hs : ∀ o ∈ log s, P o) : ∀ o ∈ log t, P o := by
  obtain ⟨new, ht, hn⟩ := h
  intro o hm
  rw [ht] at hm
  exact (List.mem_append.mp hm).elim (hn o) (hs o)

/-- What does not see the entries of one kind is the same behind them. -/
theorem apply_append {β : Type*} {f : List α → β} (hf : ∀ o, P o → ∀ l, f (o :: l) = f l)
    {new : List α} (hn : ∀ o ∈ new, P o) (l : List α) : f (new ++ l) = f l := by
  induction new with
  | nil => rfl
  | cons o new ih =>
    rw [List.cons_append, hf o (hn o List.mem_cons_self)]
    exact ih fun p hp => hn p (List.mem_cons_of_mem _ hp)

theorem Adds.apply_eq {β : Type*} {f : List α → β} (h : Adds log P s t)
    (hf : ∀ o, P o → ∀ l, f (o :: l) = f l) : f (log t) = f (log s) := by
  obtain ⟨new, ht, hn⟩ := h
  rw [ht]
  exact apply_append hf hn (log s)

/-- The entries of another kind are the same. -/
theorem Adds.filter_eq (h : Adds log P s t) {q : α → Bool} (hq : ∀ o, P o → q o = false) :
    (log t).filter q = (log s).filter q :=
  h.apply_eq fun o ho _ => List.filter_cons_of_neg (by simp [hq o ho])

/-- Entries of another kind are not added. -/
theorem Adds.countP_eq (h : Adds log P s t) {q : α → Bool} (hq : ∀ o, P o → q o = false) :
    (log t).countP q = (log s).countP q :=
  h.apply_eq fun o ho _ => List.countP_cons_of_neg (by simp [hq o ho])

/-- Entries of another kind were there before. -/
theorem Adds.of_mem (h : Adds log P s t) {o : α} (ho : ¬ P o) (hm : o ∈ log t) : o ∈ log s := by
  obtain ⟨new, ht, hn⟩ := h
  rw [ht] at hm
  exact (List.mem_append.mp hm).resolve_left fun hnew => ho (hn o hnew)

end Ledger
