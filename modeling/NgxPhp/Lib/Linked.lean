import Mathlib.Data.List.Induction
import Mathlib.Data.List.Nodup
import Mathlib.Logic.Function.Basic

/-!
# Linked lists with a pointer to their last pointer

A list of cells in a heap that is built from its first cell on: beside the pointer to
the first cell it has the place of the pointer that leads to the last one, which is the
first pointer as long as there is one cell, and the field of a cell from then on. Cells
that are not of the list may hold anything.
-/

open Function (update)

variable {ι α : Type*}

/-- A cell with the pointer to the next one. -/
structure Cell (ι α : Type*) where
  data : α
  next : Option ι
  deriving DecidableEq, Repr

/-- Where a pointer is kept. -/
inductive Place (ι : Type*)
  | first
  | next (i : ι)
  deriving DecidableEq, Repr

/-- A list as its pointer to the first cell and the place of the pointer to the last one. -/
structure Tailed (ι : Type*) where
  first : Option ι
  last : Place ι
  deriving DecidableEq, Repr

/-- From the first pointer the second one is reached over these cells. -/
def Reaches (heap : ι → Cell ι α) : Option ι → List ι → Option ι → Prop
  | p, [], q => p = q
  | p, i :: is, q => p = some i ∧ Reaches heap (heap i).next is q

theorem reaches_append (heap : ι → Cell ι α) (p : Option ι) (is js : List ι) (q : Option ι) :
    Reaches heap p (is ++ js) q ↔ ∃ r, Reaches heap p is r ∧ Reaches heap r js q := by
  induction is generalizing p with
  | nil => exact ⟨fun h => ⟨p, rfl, h⟩, fun ⟨r, hr, h⟩ => hr ▸ h⟩
  | cons i is ih =>
    rw [List.cons_append, Reaches, ih]
    constructor
    · rintro ⟨hp, r, hr, h⟩
      exact ⟨r, ⟨hp, hr⟩, h⟩
    · rintro ⟨r, ⟨hp, hr⟩, h⟩
      exact ⟨hp, r, hr, h⟩

/-- Only the pointers in the cells on the way matter for it. -/
theorem Reaches.congr {heap heap' : ι → Cell ι α} {p q : Option ι} {is : List ι}
    (h : Reaches heap p is q) (hnext : ∀ i ∈ is, (heap' i).next = (heap i).next) :
    Reaches heap' p is q := by
  induction is generalizing p with
  | nil => exact h
  | cons i is ih =>
    refine ⟨h.1, ?_⟩
    rw [hnext i List.mem_cons_self]
    exact ih h.2 fun j hj => hnext j (List.mem_cons_of_mem _ hj)

namespace Tailed

/-- What the pointer points to that leads to the last cell. -/
def target (heap : ι → Cell ι α) (l : Tailed ι) : Option ι :=
  match l.last with
  | .first => l.first
  | .next i => (heap i).next

/-- The place of the pointer behind these cells. -/
def placeBehind (is : List ι) : Place ι := is.getLast?.elim .first .next

/-- A list of different cells, all but the last one and the last one. -/
structure Holds (heap : ι → Cell ι α) (l : Tailed ι) (is : List ι) (i : ι) : Prop where
  reaches : Reaches heap l.first is (some i)
  next : (heap i).next = none
  last : l.last = placeBehind is
  nodup : (is ++ [i]).Nodup

theorem Holds.target {heap : ι → Cell ι α} {l : Tailed ι} {is : List ι} {i : ι}
    (h : l.Holds heap is i) : l.target heap = some i := by
  unfold Tailed.target
  rw [h.last]
  cases is using List.reverseRecOn with
  | nil => exact h.reaches
  | append_singleton is j =>
    obtain ⟨r, -, hr, hj⟩ := (reaches_append ..).mp h.reaches
    rw [placeBehind, List.getLast?_concat]
    exact hj

/-- All cells of the list are visited, and then there is none. -/
theorem Holds.visits {heap : ι → Cell ι α} {l : Tailed ι} {is : List ι} {i : ι}
    (h : l.Holds heap is i) : Reaches heap l.first (is ++ [i]) none :=
  (reaches_append ..).mpr ⟨some i, h.reaches, rfl, h.next⟩

section Operations

variable [DecidableEq ι]

/-- A list of one cell, which is not filled yet. -/
def single (j : ι) : Tailed ι := { first := some j, last := .first }

/-- A cell is hung behind the last one and becomes the last one. -/
def link (heap : ι → Cell ι α) (l : Tailed ι) (j : ι) : Option ((ι → Cell ι α) × Tailed ι) :=
  (l.target heap).map fun i =>
    (update heap i { heap i with next := some j }, { l with last := .next i })

/-- The last cell is filled. -/
def fill (heap : ι → Cell ι α) (l : Tailed ι) (d : α) : Option (ι → Cell ι α) :=
  (l.target heap).map fun i => update heap i ⟨d, none⟩

/-- What is in the last cell is changed. -/
def onLast (heap : ι → Cell ι α) (l : Tailed ι) (f : α → α) : Option (ι → Cell ι α) :=
  (l.target heap).map fun i => update heap i { heap i with data := f (heap i).data }

/-- What cells hold that a change does not concern. -/
theorem map_update_of_notMem (heap : ι → Cell ι α) {is : List ι} {i : ι} (hi : i ∉ is)
    (c : Cell ι α) : is.map (fun j => (update heap i c j).data) = is.map fun j => (heap j).data :=
  List.map_congr_left fun j hj => by
    rw [Function.update_of_ne (ne_of_mem_of_not_mem hj hi)]

theorem single_fill (heap : ι → Cell ι α) (j : ι) (d : α) :
    ∃ heap', (single j).fill heap d = some heap' ∧ (single j).Holds heap' [] j ∧
      (heap' j).data = d := by
  refine ⟨update heap j ⟨d, none⟩, rfl, ⟨rfl, ?_, rfl, List.nodup_singleton j⟩, ?_⟩
  · rw [Function.update_self]
  · rw [Function.update_self]

/-- A new cell behind the last one. -/
theorem Holds.link_fill {heap : ι → Cell ι α} {l : Tailed ι} {is : List ι} {i : ι}
    (h : l.Holds heap is i) {j : ι} (hj : j ∉ is ++ [i]) (d : α) :
    ∃ heap₁ l' heap', l.link heap j = some (heap₁, l') ∧ l'.fill heap₁ d = some heap' ∧
      l'.Holds heap' (is ++ [i]) j ∧
      (is ++ [i] ++ [j]).map (fun k => (heap' k).data) =
        (is ++ [i]).map (fun k => (heap k).data) ++ [d] := by
  have hne : j ≠ i := fun hji => hj (List.mem_append_right _ (List.mem_singleton.mpr hji))
  have hi : i ∉ is := fun hi =>
    (List.nodup_append.mp h.nodup).2.2 i hi i (List.mem_singleton.mpr rfl) rfl
  have hlast : update heap i { heap i with next := some j } i = { heap i with next := some j } :=
    Function.update_self ..
  refine ⟨update heap i { heap i with next := some j }, { l with last := .next i },
    update (update heap i { heap i with next := some j }) j ⟨d, none⟩, ?_, ?_, ⟨?_, ?_, ?_, ?_⟩, ?_⟩
  · unfold link
    rw [h.target]
    rfl
  · unfold fill Tailed.target
    dsimp only
    rw [hlast]
    rfl
  · refine (reaches_append ..).mpr ⟨some i, h.reaches.congr fun k hk => ?_, rfl, ?_⟩
    · rw [Function.update_of_ne (ne_of_mem_of_not_mem (List.mem_append_left _ hk) hj),
        Function.update_of_ne (ne_of_mem_of_not_mem hk hi)]
    · rw [Function.update_of_ne hne.symm, hlast]
      rfl
  · rw [Function.update_self]
  · rw [placeBehind, List.getLast?_concat]
    rfl
  · exact List.nodup_append.mpr ⟨h.nodup, List.nodup_singleton j, fun a ha b hb hab =>
      hj (List.mem_singleton.mp hb ▸ hab ▸ ha)⟩
  · rw [List.map_append, map_update_of_notMem _ hj, List.map_append, map_update_of_notMem _ hi,
      List.map_append]
    simp

/-- The last cell holds something else. -/
theorem Holds.onLast {heap : ι → Cell ι α} {l : Tailed ι} {is : List ι} {i : ι}
    (h : l.Holds heap is i) (f : α → α) :
    ∃ heap', l.onLast heap f = some heap' ∧ l.Holds heap' is i ∧
      is.map (fun k => (heap' k).data) = is.map (fun k => (heap k).data) ∧
      (heap' i).data = f (heap i).data := by
  have hi : i ∉ is := fun hi =>
    (List.nodup_append.mp h.nodup).2.2 i hi i (List.mem_singleton.mpr rfl) rfl
  refine ⟨update heap i { heap i with data := f (heap i).data }, ?_,
    ⟨h.reaches.congr fun k hk => ?_, ?_, h.last, h.nodup⟩, map_update_of_notMem _ hi _, ?_⟩
  · unfold Tailed.onLast
    rw [h.target]
    rfl
  · rw [Function.update_of_ne (ne_of_mem_of_not_mem hk hi)]
  · rw [Function.update_self]
    exact h.next
  · rw [Function.update_self]

end Operations

end Tailed
