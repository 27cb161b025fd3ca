import Mathlib.Data.List.Basic
import Mathlib.Data.List.Infix

/-!
# Substitution from left to right

The occurrences of a list in another one are found from left to right, each behind the end of the
one before. A scan steps over them and over the elements between them; substitution and counting are
scans. Whatever a loop does from occurrence to occurrence is proved by induction over them.
-/

namespace Substitution

variable {α β : Type*} [DecidableEq α] {sub : List α}

/-- Where the list first occurs. -/
def findSub (sub : List α) : List α → Option Nat
  | [] => if sub = [] then some 0 else none
  | c :: s => if sub <+: c :: s then some 0 else (findSub sub s).map fun n => n + 1

section Scan

variable (sub) (found : β → β) (other : α → β → β) (init : β)

/-- A scan, after so many elements that belong to the occurrence before. -/
def scanFrom : Nat → List α → β
  | _, [] => init
  | k + 1, _ :: s => scanFrom k s
  | 0, c :: s =>
    if sub <+: c :: s then found (scanFrom (sub.length - 1) s) else other c (scanFrom 0 s)

/-- What is found at every occurrence and at every other element, from left to right. -/
def scan (s : List α) : β := scanFrom sub found other init 0 s

end Scan

/-- Replace the occurrences from left to right. -/
def substitute (sub rep s : List α) : List α := scan sub (rep ++ ·) List.cons [] s

/-- The number of occurrences from left to right. -/
def count (sub s : List α) : Nat := scan sub (· + 1) (fun _ n => n) 0 s

/-! ## The first occurrence -/

/-- The list begins with it, or it occurs further behind. -/
theorem findSub_cons_eq_some {c : α} {s : List α} {i : Nat} (h : findSub sub (c :: s) = some i) :
    i = 0 ∧ sub <+: c :: s ∨ ∃ j, i = j + 1 ∧ ¬ sub <+: c :: s ∧ findSub sub s = some j := by
  rw [findSub] at h
  split at h
  · next hbegins =>
    cases h
    exact .inl ⟨rfl, hbegins⟩
  · next hbegins =>
    obtain ⟨j, hj, rfl⟩ := Option.map_eq_some_iff.mp h
    exact .inr ⟨j, rfl, hbegins, hj⟩

/-- A word that is not found is neither at the front nor behind it. -/
theorem findSub_cons_eq_none {c : α} {s : List α} (h : findSub sub (c :: s) = none) :
    ¬ sub <+: c :: s ∧ findSub sub s = none := by
  rw [findSub] at h
  split at h
  · cases h
  · next hbegins => exact ⟨hbegins, Option.map_eq_none_iff.mp h⟩

/-- A word that is found lies within the text. -/
theorem add_le_of_findSub (hsub : sub ≠ []) {s : List α} {i : Nat} (h : findSub sub s = some i) :
    i + sub.length ≤ s.length := by
  induction s generalizing i with
  | nil =>
    rw [findSub, if_neg hsub] at h
    cases h
  | cons c s ih =>
    rcases findSub_cons_eq_some h with ⟨rfl, hbegins⟩ | ⟨j, rfl, -, hj⟩
    · have := hbegins.length_le
      omega
    · have := ih hj
      rw [List.length_cons]
      omega

section Scan

variable (found : β → β) (other : α → β → β) (init : β)

theorem scanFrom_drop (k : Nat) (s : List α) :
    scanFrom sub found other init k s = scan sub found other init (s.drop k) := by
  induction k generalizing s with
  | zero => rfl
  | succ k ih =>
    cases s with
    | nil => rfl
    | cons c s => exact ih s

/-- A scan that begins with the word goes on behind it. -/
theorem scan_cons_of_begins (hsub : sub ≠ []) {c : α} {s : List α} (h : sub <+: c :: s) :
    scan sub found other init (c :: s) =
      found (scan sub found other init ((c :: s).drop sub.length)) := by
  obtain ⟨n, hn⟩ := Nat.exists_eq_add_one_of_ne_zero (mt List.length_eq_zero_iff.mp hsub)
  rw [scan, scanFrom, if_pos h, scanFrom_drop, hn]
  rfl

/-- A scan that does not begin with the word goes on behind one symbol. -/
theorem scan_cons_of_not_begins {c : α} {s : List α} (h : ¬ sub <+: c :: s) :
    scan sub found other init (c :: s) = other c (scan sub found other init s) := by
  rw [scan, scanFrom, if_neg h]
  rfl

/-- Where nothing occurs only the elements are seen. -/
theorem scan_of_none {s : List α} (h : findSub sub s = none) :
    scan sub found other init s = s.foldr other init := by
  induction s with
  | nil => rfl
  | cons c s ih =>
    obtain ⟨hbegins, hs⟩ := findSub_cons_eq_none h
    rw [scan_cons_of_not_begins found other init hbegins, ih hs, List.foldr_cons]

/-- Up to the first occurrence only the elements are seen. -/
theorem scan_of_some (hsub : sub ≠ []) {s : List α} {i : Nat} (h : findSub sub s = some i) :
    scan sub found other init s =
      (s.take i).foldr other (found (scan sub found other init (s.drop (i + sub.length)))) := by
  induction s generalizing i with
  | nil =>
    rw [findSub, if_neg hsub] at h
    cases h
  | cons c s ih =>
    rcases findSub_cons_eq_some h with ⟨rfl, hbegins⟩ | ⟨j, rfl, hbegins, hj⟩
    · rw [scan_cons_of_begins found other init hsub hbegins, Nat.zero_add]
      rfl
    · rw [scan_cons_of_not_begins found other init hbegins, ih hj, Nat.add_right_comm]
      rfl

end Scan

/-- Where the word is not found nothing is replaced. -/
theorem substitute_of_none (rep : List α) {s : List α} (h : findSub sub s = none) :
    substitute sub rep s = s := by
  rw [substitute, scan_of_none _ _ _ h, List.foldr_cons_nil]

/-- Where the word is not found it does not occur. -/
theorem count_of_none {s : List α} (h : findSub sub s = none) : count sub s = 0 := by
  rw [count, scan_of_none _ _ _ h, List.foldr_fixed]

/-- The first word is replaced, and then those behind it. -/
theorem substitute_of_some (hsub : sub ≠ []) (rep : List α) {s : List α} {i : Nat}
    (h : findSub sub s = some i) :
    substitute sub rep s =
      s.take i ++ (rep ++ substitute sub rep (s.drop (i + sub.length))) := by
  rw [substitute, scan_of_some _ _ _ hsub h, List.foldr_cons_eq_append']
  rfl

/-- The first word is counted, and then those behind it. -/
theorem count_of_some (hsub : sub ≠ []) {s : List α} {i : Nat} (h : findSub sub s = some i) :
    count sub s = count sub (s.drop (i + sub.length)) + 1 := by
  rw [count, scan_of_some _ _ _ hsub h, List.foldr_fixed]
  rfl

/-- A word that does not occur is not replaced. -/
theorem substitute_of_count_eq_zero (hsub : sub ≠ []) (rep : List α) {s : List α}
    (h : count sub s = 0) : substitute sub rep s = s := by
  cases hfind : findSub sub s with
  | none => exact substitute_of_none rep hfind
  | some i =>
    rw [count_of_some hsub hfind] at h
    cases h

/-- Induction from occurrence to occurrence. -/
theorem occurrence_induction (hsub : sub ≠ []) {P : List α → Prop}
    (hnone : ∀ s, findSub sub s = none → P s)
    (hsome : ∀ s i, findSub sub s = some i → P (s.drop (i + sub.length)) → P s) (s : List α) :
    P s := by
  induction hn : s.length using Nat.strongRecOn generalizing s with
  | _ n ih =>
    cases hfind : findSub sub s with
    | none => exact hnone s hfind
    | some i =>
      have hle := add_le_of_findSub hsub hfind
      have hpos := List.length_pos_iff.mpr hsub
      refine hsome s i hfind (ih _ ?_ _ rfl)
      rw [List.length_drop]
      omega

/-- The length of the result. -/
theorem length_substitute (hsub : sub ≠ []) (rep s : List α) :
    (substitute sub rep s).length + sub.length * count sub s =
      s.length + rep.length * count sub s := by
  induction s using occurrence_induction hsub with
  | hnone s h => rw [substitute_of_none rep h, count_of_none h, Nat.mul_zero, Nat.mul_zero]
  | hsome s i h ih =>
    have hle := add_le_of_findSub hsub h
    rw [substitute_of_some hsub rep h, count_of_some hsub h, List.length_append,
      List.length_append, List.length_take, Nat.mul_succ, Nat.mul_succ]
    rw [List.length_drop] at ih
    omega

/-- A word does not occur more often than there are symbols. -/
theorem count_le_length (hsub : sub ≠ []) (s : List α) : count sub s ≤ s.length := by
  induction s using occurrence_induction hsub with
  | hnone s h =>
    rw [count_of_none h]
    exact Nat.zero_le _
  | hsome s i h ih =>
    have hle := add_le_of_findSub hsub h
    have hpos := List.length_pos_iff.mpr hsub
    rw [count_of_some hsub h]
    rw [List.length_drop] at ih
    omega

/-- The result consists of elements of both. -/
theorem mem_substitute (hsub : sub ≠ []) (rep : List α) {s : List α} {c : α}
    (hc : c ∈ substitute sub rep s) : c ∈ s ∨ c ∈ rep := by
  induction s using occurrence_induction hsub with
  | hnone s h => exact .inl (substitute_of_none rep h ▸ hc)
  | hsome s i h ih =>
    rw [substitute_of_some hsub rep h, List.mem_append, List.mem_append] at hc
    rcases hc with hc | hc | hc
    · exact .inl (List.mem_of_mem_take hc)
    · exact .inr hc
    · exact (ih hc).imp_left List.mem_of_mem_drop

end Substitution
