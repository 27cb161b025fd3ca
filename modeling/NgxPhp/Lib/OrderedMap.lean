import Mathlib.Data.List.Basic
import Mathlib.Data.List.Nodup

/-!
# Maps that keep the order of first insertion

A list of entries without repeated keys. Setting a key that is present replaces
its value in place, setting a new key appends an entry, and what a map built by a
sequence of settings holds under a key is the last value that was set.
-/

variable {κ α : Type*}

/-- A map whose entries are listed in the order in which their keys were first set. -/
structure OrderedMap (κ α : Type*) where
  entries : List (κ × α)
  nodup : (entries.map Prod.fst).Nodup

namespace OrderedMap

/-- Replace the value of a key in place, or append the entry. -/
def setEntry [DecidableEq κ] (k : κ) (v : α) : List (κ × α) → List (κ × α)
  | [] => [(k, v)]
  | e :: es => if e.1 = k then (k, v) :: es else e :: setEntry k v es

/-- The keys are those that were there and the one that is set. -/
theorem mem_keys_setEntry [DecidableEq κ] {k x : κ} {v : α} {es : List (κ × α)} :
    x ∈ (setEntry k v es).map Prod.fst ↔ x = k ∨ x ∈ es.map Prod.fst := by
  induction es with
  | nil => simp [setEntry]
  | cons e es ih =>
    rw [setEntry]
    split
    next h =>
      rw [List.map_cons, List.map_cons, List.mem_cons, List.mem_cons, h, or_self_left]
    next h => rw [List.map_cons, List.mem_cons, ih, List.map_cons, List.mem_cons, or_left_comm]

/-- An entry that is set leaves the keys different. -/
theorem nodup_setEntry [DecidableEq κ] (k : κ) (v : α) {es : List (κ × α)}
    (h : (es.map Prod.fst).Nodup) : ((setEntry k v es).map Prod.fst).Nodup := by
  induction es with
  | nil => simp [setEntry]
  | cons e es ih =>
    obtain ⟨he, hes⟩ := List.nodup_cons.mp h
    rw [setEntry]
    split
    next hk => exact List.nodup_cons.mpr ⟨hk ▸ he, hes⟩
    next hk =>
      refine List.nodup_cons.mpr ⟨fun hm => ?_, ih hes⟩
      rcases mem_keys_setEntry.mp hm with rfl | hm
      · exact hk rfl
      · exact he hm

/-- The map without entries. -/
def empty : OrderedMap κ α := ⟨[], List.nodup_nil⟩

/-- Set the value of a key. -/
def set [DecidableEq κ] (m : OrderedMap κ α) (k : κ) (v : α) : OrderedMap κ α :=
  ⟨setEntry k v m.entries, nodup_setEntry k v m.nodup⟩

/-- The value of a key. -/
def get? [DecidableEq κ] (m : OrderedMap κ α) (k : κ) : Option α := m.entries.lookup k

@[simp] theorem get?_empty [DecidableEq κ] (k : κ) : (empty : OrderedMap κ α).get? k = none := rfl

/-- A lookup goes through the entries. -/
theorem lookup_cons_ite [DecidableEq κ] (x : κ) (e : κ × α) (es : List (κ × α)) :
    (e :: es).lookup x = if x = e.1 then some e.2 else es.lookup x := by
  rw [List.lookup_cons]
  split
  next h => rw [if_pos (beq_iff_eq.mp h)]
  next h => rw [if_neg (beq_eq_false_iff_ne.mp h)]

/-- An entry that is set is the one that is found. -/
theorem lookup_setEntry [DecidableEq κ] (k x : κ) (v : α) (es : List (κ × α)) :
    (setEntry k v es).lookup x = if x = k then some v else es.lookup x := by
  induction es with
  | nil => rw [setEntry, lookup_cons_ite]
  | cons e es ih =>
    by_cases he : e.1 = k
    · rw [setEntry, if_pos he, lookup_cons_ite, lookup_cons_ite, he]
      by_cases h : x = k <;> simp [h]
    · rw [setEntry, if_neg he, lookup_cons_ite, lookup_cons_ite, ih]
      by_cases h : x = e.1 <;> simp [h, he]

/-- Setting a key changes what the map holds under that key only. -/
theorem get?_set [DecidableEq κ] (m : OrderedMap κ α) (k x : κ) (v : α) :
    (m.set k v).get? x = if x = k then some v else m.get? x :=
  lookup_setEntry k x v m.entries

/-- Set the pairs of a list one after the other. -/
def setAll [DecidableEq κ] (m : OrderedMap κ α) (ps : List (κ × α)) : OrderedMap κ α :=
  ps.foldl (fun m p => m.set p.1 p.2) m

/-- The value of the last pair with the key. -/
def lastValue [DecidableEq κ] (ps : List (κ × α)) (k : κ) : Option α := ps.reverse.lookup k

/-- After a sequence of settings a key has the value of its last occurrence. -/
theorem get?_setAll [DecidableEq κ] (m : OrderedMap κ α) (ps : List (κ × α)) (x : κ) :
    (m.setAll ps).get? x = (lastValue ps x).or (m.get? x) := by
  unfold lastValue
  induction ps generalizing m with
  | nil => rfl
  | cons p ps ih =>
    rw [setAll, List.foldl_cons, ← setAll, ih, get?_set, List.reverse_cons, List.lookup_append]
    cases ps.reverse.lookup x with
    | some v => rfl
    | none =>
      rw [lookup_cons_ite]
      by_cases h : x = p.1 <;> simp [h]

/-- Setting lists of pairs one after the other is setting their concatenation. -/
theorem foldl_setAll {β : Type*} [DecidableEq κ] (f : β → List (κ × α)) (bs : List β)
    (m : OrderedMap κ α) :
    bs.foldl (fun m b => m.setAll (f b)) m = m.setAll (bs.flatMap f) := by
  induction bs generalizing m with
  | nil => rfl
  | cons b bs ih =>
    rw [List.foldl_cons, ih, List.flatMap_cons]
    exact List.foldl_append.symm

/-- The last value of two lists is that of the second one, or of the first. -/
theorem lastValue_append [DecidableEq κ] (ps qs : List (κ × α)) (k : κ) :
    lastValue (ps ++ qs) k = (lastValue qs k).or (lastValue ps k) := by
  unfold lastValue
  rw [List.reverse_append, List.lookup_append]

/-- There is no last value without an entry. -/
theorem lastValue_eq_none_iff [DecidableEq κ] {ps : List (κ × α)} {k : κ} :
    lastValue ps k = none ↔ k ∉ ps.map Prod.fst := by
  unfold lastValue
  rw [List.lookup_eq_none_iff, List.mem_map]
  simp only [List.mem_reverse, bne_iff_ne]
  constructor
  · rintro h ⟨p, hp, rfl⟩
    exact h p hp rfl
  · rintro h p hp rfl
    exact h ⟨p, hp, rfl⟩

/-- The last of changed values is the change of the last one. -/
theorem lastValue_map [DecidableEq κ] {β : Type*} (f : α → β) (ps : List (κ × α)) (k : κ) :
    lastValue (ps.map fun p => (p.1, f p.2)) k = (lastValue ps k).map f := by
  unfold lastValue
  rw [← List.map_reverse]
  induction ps.reverse with
  | nil => rfl
  | cons p ps ih =>
    rw [List.map_cons, lookup_cons_ite, lookup_cons_ite, ih]
    split <;> rfl

/-- Without repeated keys every pair has the last value of its key. -/
theorem lastValue_of_nodup [DecidableEq κ] {ps : List (κ × α)} (h : (ps.map Prod.fst).Nodup)
    {p : κ × α} (hp : p ∈ ps) : lastValue ps p.1 = some p.2 := by
  unfold lastValue
  rw [← List.nodup_reverse, ← List.map_reverse] at h
  rw [← List.mem_reverse] at hp
  generalize ps.reverse = qs at h hp
  induction qs with
  | nil => exact absurd hp List.not_mem_nil
  | cons q qs ih =>
    rw [List.map_cons, List.nodup_cons] at h
    rw [lookup_cons_ite]
    rcases List.mem_cons.mp hp with rfl | hp
    · exact if_pos rfl
    · have hne : p.1 ≠ q.1 := by
        intro heq
        exact h.1 (heq ▸ List.mem_map_of_mem hp)
      rw [if_neg hne]
      exact ih h.2 hp

/-- In a list of pairs of one value every key has that value. -/
theorem lastValue_map_const [DecidableEq κ] (ks : List κ) (v : α) (k : κ) :
    lastValue (ks.map fun x => (x, v)) k = if k ∈ ks then some v else none := by
  unfold lastValue
  rw [← List.map_reverse]
  have hmem : k ∈ ks ↔ k ∈ ks.reverse := List.mem_reverse.symm
  rw [if_congr hmem rfl rfl]
  induction ks.reverse with
  | nil => rfl
  | cons x xs ih =>
    rw [List.map_cons, lookup_cons_ite, ih]
    by_cases hx : k = x
    · rw [if_pos hx, if_pos (hx ▸ List.mem_cons_self)]
    · simp [hx]

end OrderedMap
