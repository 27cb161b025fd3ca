import Mathlib.Data.List.Basic
import Mathlib.Data.List.Nodup
import Mathlib.Logic.Function.Basic

/-!
# Intrusive doubly linked queues

A queue is threaded through its nodes by two link fields, with a head node that
is the sentinel of its own circle. `IsQueue l h xs` says that the links form the
circle `h, xs, h` in both directions. The operations are the pointer updates of
an intrusive list; each is shown to act on the represented list, and to leave
alone every queue whose nodes it does not touch.
-/

namespace LinkQueue

variable {ν : Type*}

/-- The two link fields of every node. -/
structure Links (ν : Type*) where
  next : ν → ν
  prev : ν → ν

section Operations

variable [DecidableEq ν]

/-- Make `h` the head of an empty queue. -/
def Links.init (l : Links ν) (h : ν) : Links ν where
  next := Function.update l.next h h
  prev := Function.update l.prev h h

/-- Thread `x` in directly behind the head `h`, one link assignment at a time. -/
def Links.insertHead (l : Links ν) (h x : ν) : Links ν :=
  let l₁ : Links ν := { l with next := Function.update l.next x (l.next h) }
  let l₂ : Links ν := { l₁ with prev := Function.update l₁.prev (l₁.next x) x }
  let l₃ : Links ν := { l₂ with prev := Function.update l₂.prev x h }
  { l₃ with next := Function.update l₃.next h x }

/-- Join the two neighbours of `x`. -/
def Links.remove (l : Links ν) (x : ν) : Links ν :=
  let l₁ : Links ν := { l with prev := Function.update l.prev (l.next x) (l.prev x) }
  { l₁ with next := Function.update l₁.next (l₁.prev x) (l₁.next x) }

/-- The nodes met from `a` until the head `h` comes back, at most `fuel` of them. -/
def Links.walk (l : Links ν) (h : ν) : Nat → ν → List ν
  | 0, _ => []
  | fuel + 1, a => if l.next a = h then [] else l.next a :: l.walk h fuel (l.next a)

end Operations

/-- The links lead from `a` through `xs` to `b`, and back. -/
def Linked (l : Links ν) : ν → List ν → ν → Prop
  | a, [], b => l.next a = b ∧ l.prev b = a
  | a, x :: xs, b => l.next a = x ∧ l.prev x = a ∧ Linked l x xs b

/-- The circle through the head `h` holds exactly `xs`, each node once. -/
structure IsQueue (l : Links ν) (h : ν) (xs : List ν) : Prop where
  linked : Linked l h xs h
  nodup : (h :: xs).Nodup

theorem linked_append (l : Links ν) (a y b : ν) (xs ys : List ν) :
    Linked l a (xs ++ y :: ys) b ↔ Linked l a xs y ∧ Linked l y ys b := by
  induction xs generalizing a with
  | nil => simp only [List.nil_append, Linked, and_assoc]
  | cons x xs ih => simp only [List.cons_append, Linked, ih, and_assoc]

/-- A stretch of links depends only on the forward links it leaves and the
backward links it enters. -/
theorem Linked.congr {l m : Links ν} {a b : ν} {xs : List ν} (h : Linked l a xs b)
    (hnext : ∀ x ∈ a :: xs, m.next x = l.next x)
    (hprev : ∀ x ∈ b :: xs, m.prev x = l.prev x) : Linked m a xs b := by
  induction xs generalizing a with
  | nil =>
    exact ⟨(hnext a (by simp)).trans h.1, (hprev b (by simp)).trans h.2⟩
  | cons x xs ih =>
    refine ⟨(hnext a (by simp)).trans h.1, (hprev x (by simp)).trans h.2.1, ih h.2.2 ?_ ?_⟩
    · exact fun y hy => hnext y (List.mem_cons_of_mem _ hy)
    · intro y hy
      rcases List.mem_cons.mp hy with rfl | hy
      · exact hprev y (by simp)
      · exact hprev y (by simp [hy])

/-- The forward neighbour of a node of a stretch is a later node or its end. -/
theorem Linked.next_mem {l : Links ν} {a b : ν} {xs : List ν} (h : Linked l a xs b) :
    l.next a ∈ b :: xs := by
  cases xs with
  | nil => simp [h.1]
  | cons x xs => simp [h.1]

/-- The backward neighbour of the end of a stretch is its last node or its start. -/
theorem Linked.prev_mem {l : Links ν} {a b : ν} {xs : List ν} (h : Linked l a xs b) :
    l.prev b ∈ a :: xs := by
  induction xs generalizing a with
  | nil => simp [h.2]
  | cons x xs ih => exact List.mem_cons_of_mem _ (ih h.2.2)

/-- The last node of a stretch, read off the backward link of its end. -/
theorem Linked.prev_eq {l : Links ν} {a b : ν} {xs : List ν} (h : Linked l a xs b) :
    l.prev b = xs.getLast?.getD a := by
  induction xs generalizing a with
  | nil => exact h.2
  | cons x xs ih =>
    rw [ih h.2.2, List.getLast?_cons]
    rfl

/-- A stretch that led to `x` leads to `y` once the last link is redirected. -/
theorem Linked.retarget {l m : Links ν} {a x y : ν} {xs : List ν} (h : Linked l a xs x)
    (hnd : (a :: xs).Nodup) (hnext : ∀ z ∈ a :: xs, z ≠ l.prev x → m.next z = l.next z)
    (hlast : m.next (l.prev x) = y) (hprev : ∀ z ∈ xs, m.prev z = l.prev z)
    (hy : m.prev y = l.prev x) : Linked m a xs y := by
  induction xs generalizing a with
  | nil =>
    have hpx : l.prev x = a := h.2
    exact ⟨hpx ▸ hlast, hy.trans hpx⟩
  | cons b bs ih =>
    obtain ⟨hb, hba, hbs⟩ := h
    obtain ⟨ha, hnd'⟩ := List.nodup_cons.mp hnd
    have hap : a ≠ l.prev x := fun he => ha (he ▸ hbs.prev_mem)
    refine ⟨?_, ?_, ih hbs hnd' ?_ ?_⟩
    · rw [hnext a (by simp) hap, hb]
    · rw [hprev b (by simp), hba]
    · exact fun z hz => hnext z (List.mem_cons_of_mem _ hz)
    · exact fun z hz => hprev z (List.mem_cons_of_mem _ hz)

section Operations

variable [DecidableEq ν]

/-- Initialising a head yields the empty queue. -/
theorem isQueue_init (l : Links ν) (h : ν) : IsQueue (l.init h) h [] where
  linked := by simp [Linked, Links.init]
  nodup := by simp

/-- Initialising a head leaves a queue alone that does not contain it. -/
theorem IsQueue.init_of_notMem {l : Links ν} {h g : ν} {ys : List ν}
    (hq : IsQueue l g ys) (hn : h ∉ g :: ys) : IsQueue (l.init h) g ys where
  linked := by
    have hne : ∀ x ∈ g :: ys, x ≠ h := fun x hx he => hn (he ▸ hx)
    exact hq.linked.congr (fun x hx => Function.update_of_ne (hne x hx) _ _)
      (fun x hx => Function.update_of_ne (hne x hx) _ _)
  nodup := hq.nodup

theorem insertHead_next (l : Links ν) (h x y : ν) :
    (l.insertHead h x).next y =
      if y = h then x else if y = x then l.next h else l.next y := by
  simp only [Links.insertHead, Function.update_apply]

theorem insertHead_prev (l : Links ν) (h x y : ν) :
    (l.insertHead h x).prev y =
      if y = x then h else if y = l.next h then x else l.prev y := by
  simp only [Links.insertHead, Function.update_apply, if_true]

/-- Threading a new node in behind the head puts it first. -/
theorem IsQueue.insertHead {l : Links ν} {h x : ν} {xs : List ν} (hq : IsQueue l h xs)
    (hx : x ∉ h :: xs) : IsQueue (l.insertHead h x) h (x :: xs) where
  linked := by
    have hxh : x ≠ h := fun he => hx (by simp [he])
    have hnext : l.next h ≠ x := fun he => hx (he ▸ hq.linked.next_mem)
    refine ⟨?_, ?_, ?_⟩
    · rw [insertHead_next, if_pos rfl]
    · rw [insertHead_prev, if_pos rfl]
    · -- the rest of the circle now starts at `x`, whose forward link was copied from `h`
      have hnd := hq.nodup
      cases xs with
      | nil =>
        have hl : l.next h = h := hq.linked.1
        refine ⟨?_, ?_⟩
        · rw [insertHead_next, if_neg hxh, if_pos rfl, hl]
        · rw [insertHead_prev, if_neg (Ne.symm hxh), if_pos hl.symm]
      | cons y ys =>
        obtain ⟨hl, hb, hrest⟩ := hq.linked
        have hxy : x ≠ y := fun he => hx (by simp [he])
        refine ⟨?_, ?_, hrest.congr ?_ ?_⟩
        · rw [insertHead_next, if_neg hxh, if_pos rfl, hl]
        · rw [insertHead_prev, if_neg (Ne.symm hxy), if_pos hl.symm]
        · intro z hz
          have hzh : z ≠ h := fun he => (List.nodup_cons.mp hnd).1 (he ▸ hz)
          have hzx : z ≠ x := fun he => hx (he ▸ List.mem_cons_of_mem _ hz)
          rw [insertHead_next, if_neg hzh, if_neg hzx]
        · intro z hz
          have hzx : z ≠ x := by
            intro he
            rcases List.mem_cons.mp hz with hzh | hzs
            · exact hxh (he.symm.trans hzh)
            · exact hx (by simp [← he, hzs])
          have hzy : z ≠ l.next h := by
            rw [hl]
            intro he
            rw [he] at hz
            rcases List.mem_cons.mp hz with he | hz
            · exact (List.nodup_cons.mp hnd).1 (by simp [he])
            · exact (List.nodup_cons.mp (List.nodup_cons.mp hnd).2).1 hz
          rw [insertHead_prev, if_neg hzx, if_neg hzy]
  nodup := by
    have hnd := List.nodup_cons.mp hq.nodup
    rw [List.mem_cons, not_or] at hx
    simp only [List.nodup_cons, List.mem_cons, not_or]
    exact ⟨⟨Ne.symm hx.1, hnd.1⟩, hx.2, hnd.2⟩

/-- Threading a node into one queue leaves a disjoint queue alone. -/
theorem IsQueue.insertHead_of_disjoint {l : Links ν} {h g x : ν} {xs ys : List ν}
    (hq : IsQueue l g ys) (hqx : IsQueue l h xs) (hx : x ∉ g :: ys)
    (hd : ∀ y ∈ h :: xs, y ∉ g :: ys) : IsQueue (l.insertHead h x) g ys where
  linked := by
    refine hq.linked.congr ?_ ?_
    · intro y hy
      have hyh : y ≠ h := fun he => hd h (by simp) (he ▸ hy)
      have hyx : y ≠ x := fun he => hx (he ▸ hy)
      rw [insertHead_next, if_neg hyh, if_neg hyx]
    · intro y hy
      have hyx : y ≠ x := fun he => hx (he ▸ hy)
      have hyn : y ≠ l.next h := fun he => hd y (he ▸ hqx.linked.next_mem) hy
      rw [insertHead_prev, if_neg hyx, if_neg hyn]
  nodup := hq.nodup

theorem remove_prev (l : Links ν) (x y : ν) :
    (l.remove x).prev y = if y = l.next x then l.prev x else l.prev y := by
  simp only [Links.remove, Function.update_apply]

theorem remove_next (l : Links ν) (x y : ν) :
    (l.remove x).next y = if y = l.prev x then l.next x else l.next y := by
  simp only [Links.remove, Function.update_apply, ite_self]

/-- Joining the neighbours of a node takes exactly that node out. -/
theorem IsQueue.remove {l : Links ν} {h x : ν} {pre post : List ν}
    (hq : IsQueue l h (pre ++ x :: post)) : IsQueue (l.remove x) h (pre ++ post) where
  linked := by
    obtain ⟨hpre, hpost⟩ := (linked_append ..).mp hq.linked
    have hnd : (h :: pre ++ x :: post).Nodup := hq.nodup
    obtain ⟨hndpre, hndx, hdisj⟩ := List.nodup_append'.mp hnd
    have hlast : (l.remove x).next (l.prev x) = l.next x := by
      rw [remove_next, if_pos rfl]
    have hback : (l.remove x).prev (l.next x) = l.prev x := by rw [remove_prev, if_pos rfl]
    have hnext : ∀ z ∈ h :: pre, z ≠ l.prev x → (l.remove x).next z = l.next z :=
      fun z _ hz => by rw [remove_next, if_neg hz]
    cases post with
    | nil =>
      have hxh : l.next x = h := hpost.1
      have hprev : ∀ z ∈ pre, (l.remove x).prev z = l.prev z := by
        intro z hz
        have hzh : z ≠ h := fun he => (List.nodup_cons.mp hndpre).1 (he ▸ hz)
        rw [remove_prev, hxh, if_neg hzh]
      rw [List.append_nil]
      exact hpre.retarget hndpre hnext (hlast.trans hxh) hprev (hxh ▸ hback)
    | cons y ys =>
      obtain ⟨hy, _, hys⟩ := hpost
      have hyd : ∀ z ∈ h :: pre, z ≠ y := fun z hz he => hdisj hz (by simp [he])
      have hndy : y ∉ ys := (List.nodup_cons.mp (List.nodup_cons.mp hndx).2).1
      refine (linked_append ..).mpr ⟨?_, hys.congr ?_ ?_⟩
      · refine hpre.retarget hndpre hnext (hlast.trans hy) ?_ (hy ▸ hback)
        intro z hz
        rw [remove_prev, hy, if_neg (hyd z (List.mem_cons_of_mem _ hz))]
      · intro z hz
        have hzp : z ≠ l.prev x := fun he =>
          hdisj (he ▸ hpre.prev_mem) (List.mem_cons_of_mem _ hz)
        rw [remove_next, if_neg hzp]
      · intro z hz
        have hzy : z ≠ y := by
          rcases List.mem_cons.mp hz with rfl | hz
          · exact hyd z List.mem_cons_self
          · exact fun he => hndy (he ▸ hz)
        rw [remove_prev, hy, if_neg hzy]
  nodup := by
    have hsub : (h :: (pre ++ post)).Sublist (h :: (pre ++ x :: post)) :=
      List.Sublist.cons_cons h (List.Sublist.append_left (List.sublist_cons_self x post) pre)
    exact hq.nodup.sublist hsub

/-- Taking a node out of one queue leaves a disjoint queue alone. -/
theorem IsQueue.remove_of_disjoint {l : Links ν} {h g x : ν} {pre post ys : List ν}
    (hq : IsQueue l g ys) (hqx : IsQueue l h (pre ++ x :: post))
    (hd : ∀ y ∈ h :: (pre ++ x :: post), y ∉ g :: ys) : IsQueue (l.remove x) g ys where
  linked := by
    obtain ⟨hpre, hpost⟩ := (linked_append ..).mp hqx.linked
    have hp : l.prev x ∉ g :: ys := by
      refine hd _ ?_
      rcases List.mem_cons.mp hpre.prev_mem with he | hm
      · simp [he]
      · simp [hm]
    have hn : l.next x ∉ g :: ys := by
      refine hd _ ?_
      rcases List.mem_cons.mp hpost.next_mem with he | hm
      · simp [he]
      · simp [hm]
    refine hq.linked.congr ?_ ?_
    · intro y hy
      have hyp : y ≠ l.prev x := fun he => hp (he ▸ hy)
      rw [remove_next, if_neg hyp]
    · intro y hy
      have hyn : y ≠ l.next x := fun he => hn (he ▸ hy)
      rw [remove_prev, if_neg hyn]
  nodup := hq.nodup

/-- Moving a node from one queue to the front of a disjoint one. -/
theorem IsQueue.move {l : Links ν} {h g x : ν} {pre post ys : List ν}
    (hq : IsQueue l h (pre ++ x :: post)) (hg : IsQueue l g ys)
    (hd : ∀ y ∈ h :: (pre ++ x :: post), y ∉ g :: ys) :
    IsQueue ((l.remove x).insertHead g x) h (pre ++ post) ∧
      IsQueue ((l.remove x).insertHead g x) g (x :: ys) := by
  have hg' := hg.remove_of_disjoint hq hd
  have hxg : x ∉ g :: ys := hd x (by simp)
  have hxh : x ∉ h :: (pre ++ post) := by
    have hmid : (h :: pre ++ x :: post).Perm (x :: (h :: pre ++ post)) := List.perm_middle
    have hnd := List.nodup_cons.mp (hmid.nodup hq.nodup)
    simpa using hnd.1
  refine ⟨hq.remove.insertHead_of_disjoint hg' hxh ?_, hg'.insertHead hxg⟩
  intro y hy hm
  refine hd y ?_ hy
  rcases List.mem_cons.mp hm with rfl | hm
  · simp
  · rcases List.mem_append.mp hm with hm | hm <;> simp [hm]

/-- Moving the last node of a queue to its front. -/
theorem IsQueue.rotate {l : Links ν} {h x : ν} {xs : List ν} (hq : IsQueue l h (xs ++ [x])) :
    IsQueue ((l.remove x).insertHead h x) h (x :: xs) := by
  have hr : IsQueue (l.remove x) h xs := by simpa using hq.remove
  refine hr.insertHead ?_
  have hmid : (h :: xs ++ x :: []).Perm (x :: (h :: xs ++ [])) := List.perm_middle
  have hnd := List.nodup_cons.mp (hmid.nodup hq.nodup)
  simpa using hnd.1

end Operations

/-- The walk from the head meets the represented nodes in order. -/
theorem Linked.walk_eq [DecidableEq ν] {l : Links ν} {h a : ν} {xs : List ν}
    (hl : Linked l a xs h) (hh : h ∉ xs) {fuel : Nat} (hf : xs.length ≤ fuel) :
    l.walk h fuel a = xs := by
  induction xs generalizing a fuel with
  | nil =>
    cases fuel with
    | zero => rfl
    | succ fuel => simp only [Links.walk, hl.1, if_true]
  | cons x xs ih =>
    cases fuel with
    | zero => simp at hf
    | succ fuel =>
      obtain ⟨hx, _, hrest⟩ := hl
      have hxh : x ≠ h := fun he => hh (by simp [he])
      have hf' : xs.length ≤ fuel := by simpa using hf
      simp only [Links.walk, hx, if_neg hxh]
      rw [ih hrest (fun hm => hh (List.mem_cons_of_mem _ hm)) hf']

/-- With enough fuel the walk recovers the represented list. -/
theorem IsQueue.walk_eq [DecidableEq ν] {l : Links ν} {h : ν} {xs : List ν}
    (hq : IsQueue l h xs) {fuel : Nat} (hf : xs.length ≤ fuel) : l.walk h fuel h = xs :=
  hq.linked.walk_eq (List.nodup_cons.mp hq.nodup).1 hf

/-- A queue is empty exactly when its head is its own backward neighbour. -/
theorem IsQueue.empty_iff {l : Links ν} {h : ν} {xs : List ν} (hq : IsQueue l h xs) :
    h = l.prev h ↔ xs = [] := by
  constructor
  · intro he
    cases xs with
    | nil => rfl
    | cons x xs =>
      have hm : h ∈ x :: xs := by
        rw [he]
        exact hq.linked.2.2.prev_mem
      exact absurd hm (List.nodup_cons.mp hq.nodup).1
  · rintro rfl
    exact hq.linked.2.symm

/-- The last node of a nonempty queue is the backward neighbour of its head. -/
theorem IsQueue.last_eq {l : Links ν} {h x : ν} {xs : List ν}
    (hq : IsQueue l h (xs ++ [x])) : l.prev h = x := by
  simpa using hq.linked.prev_eq

end LinkQueue
