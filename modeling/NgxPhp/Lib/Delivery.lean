import Mathlib.Data.List.Basic

/-!
# Delivering buffers through partial writes

A writer is given buffers one after another and offers the rest of a buffer again
and again, of which each time some elements are accepted. The offers are kept
with the latest one first. `Sending` is the invariant while a buffer is on its
way; every offer keeps it, and the next buffer may be started when it is empty.
-/

namespace Delivery

variable {α : Type*}

/-- All elements accepted by the offers, in order. -/
def accepted : List (List α × Nat) → List α
  | [] => []
  | (b, n) :: os => accepted os ++ b.take n

/-- Every offer was the rest of one buffer all of whose predecessors had been accepted. -/
def InOrder (bs : List (List α)) : List (List α × Nat) → Prop
  | [] => True
  | (b, _) :: os => InOrder bs os ∧ ∃ before cur, (before ++ [cur]) <+: bs ∧
      before.flatten <+: accepted os ∧ accepted os ++ b = (before ++ [cur]).flatten

/-- `rest` is what is left of the last buffer, all others having been accepted. -/
def Sending (bs : List (List α)) (os : List (List α × Nat)) (rest : List α) : Prop :=
  ∃ before cur, bs = before ++ [cur] ∧ before.flatten <+: accepted os ∧
    accepted os ++ rest = bs.flatten

/-- The accepted elements are a prefix of the buffers, and the buffers went out in order. -/
def Delivered (bs : List (List α)) (os : List (List α × Nat)) : Prop :=
  accepted os <+: bs.flatten ∧ InOrder bs os

theorem InOrder.mono {bs bs' : List (List α)} (h : bs <+: bs') {os : List (List α × Nat)}
    (ho : InOrder bs os) : InOrder bs' os := by
  induction os with
  | nil => trivial
  | cons o os ih =>
    obtain ⟨ho, before, cur, hpre, hb, hrest⟩ := ho
    exact ⟨ih ho, before, cur, hpre.trans h, hb, hrest⟩

/-- One offer of the rest, of which `n` elements are accepted. -/
theorem Sending.offer {bs : List (List α)} {os : List (List α × Nat)} {rest : List α}
    (h : Sending bs os rest) (ho : InOrder bs os) (n : Nat) :
    Sending bs ((rest, n) :: os) (rest.drop n) ∧ InOrder bs ((rest, n) :: os) := by
  obtain ⟨before, cur, rfl, hb, hrest⟩ := h
  refine ⟨⟨before, cur, rfl, hb.trans (List.prefix_append _ _), ?_⟩, ho, before, cur,
    List.prefix_rfl, hb, hrest⟩
  rw [accepted, List.append_assoc, List.take_append_drop, hrest]

/-- The next buffer, after everything has been accepted. -/
theorem Sending.next {bs : List (List α)} {os : List (List α × Nat)}
    (h : accepted os = bs.flatten) (b : List α) : Sending (bs ++ [b]) os b :=
  ⟨bs, b, rfl, h ▸ List.prefix_rfl, by rw [h, List.flatten_concat]⟩

/-- Nothing is left of the last buffer. -/
theorem Sending.done {bs : List (List α)} {os : List (List α × Nat)} (h : Sending bs os []) :
    accepted os = bs.flatten := by
  obtain ⟨before, cur, rfl, _, hrest⟩ := h
  rwa [List.append_nil] at hrest

theorem Sending.delivered {bs : List (List α)} {os : List (List α × Nat)} {rest : List α}
    (h : Sending bs os rest) (ho : InOrder bs os) : Delivered bs os := by
  obtain ⟨before, cur, rfl, _, hrest⟩ := h
  exact ⟨⟨rest, hrest⟩, ho⟩

end Delivery
