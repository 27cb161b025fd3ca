import Mathlib.Data.List.Basic
import Mathlib.Data.List.Nodup

/-!
# A bounded most-recently-used list

The entries pair a resource with the address it serves, the most recently
stored one first. Taking removes the first entry for an address, putting stores
in front and drops the oldest entry when the list is full, and dropping removes
the entry of one resource.
-/

namespace Mru

variable {κ α : Type*}

/-- Remove and return the most recently stored resource for an address. -/
def take [DecidableEq α] (a : α) (l : List (κ × α)) : Option κ × List (κ × α) :=
  ((l.find? fun e => e.2 = a).map Prod.fst, l.eraseP fun e => e.2 = a)

/-- Store an entry first; a full list gives up its oldest resource. -/
def put (cap : Nat) (e : κ × α) (l : List (κ × α)) : Option κ × List (κ × α) :=
  if l.length < cap then (none, e :: l) else (l.getLast?.map Prod.fst, e :: l.dropLast)

/-- Remove the entry of one resource. -/
def drop [DecidableEq κ] (c : κ) (l : List (κ × α)) : List (κ × α) :=
  l.eraseP fun e => e.1 = c

/-- No entry for the address: nothing is returned and nothing changes. -/
theorem take_of_forall_ne [DecidableEq α] {a : α} {l : List (κ × α)}
    (h : ∀ e ∈ l, e.2 ≠ a) : take a l = (none, l) := by
  have hf : l.find? (fun e => e.2 = a) = none := by
    rw [List.find?_eq_none]
    exact fun e he => by simpa using h e he
  have he : l.eraseP (fun e => e.2 = a) = l :=
    List.eraseP_of_forall_not fun e he => by simpa using h e he
  rw [take, hf, he]
  rfl

/-- The first entry for the address is the one that is returned. -/
theorem take_append_cons [DecidableEq α] {a : α} {c : κ} {pre post : List (κ × α)}
    (h : ∀ e ∈ pre, e.2 ≠ a) : take a (pre ++ (c, a) :: post) = (some c, pre ++ post) := by
  have hpre : ∀ e ∈ pre, ¬ decide (e.2 = a) = true := fun e he => by simpa using h e he
  have hf : pre.find? (fun e => e.2 = a) = none := List.find?_eq_none.mpr hpre
  rw [take, List.find?_append, hf, List.eraseP_append_right _ hpre]
  simp

/-- Dropping a resource removes the entry that holds it. -/
theorem drop_append_cons [DecidableEq κ] {a : α} {c : κ} {pre post : List (κ × α)}
    (h : ∀ e ∈ pre, e.1 ≠ c) : drop c (pre ++ (c, a) :: post) = pre ++ post := by
  have hpre : ∀ e ∈ pre, ¬ decide (e.1 = c) = true := fun e he => by simpa using h e he
  rw [drop, List.eraseP_append_right _ hpre]
  simp

/-- Below the bound nothing is given up. -/
theorem put_of_lt {cap : Nat} {e : κ × α} {l : List (κ × α)} (h : l.length < cap) :
    put cap e l = (none, e :: l) := if_pos h

/-- At the bound the oldest entry makes room. -/
theorem put_full {cap : Nat} {e o : κ × α} {l : List (κ × α)} (h : cap ≤ l.length + 1) :
    put cap e (l ++ [o]) = (some o.1, e :: l) := by
  have hn : ¬ (l ++ [o]).length < cap := by simpa using h
  rw [put, if_neg hn, List.getLast?_append, List.dropLast_concat]
  rfl

end Mru
