import NgxPhp.Lib.Machine
import NgxPhp.Mysql.Handshake

/-!
# The pool of mysql objects

`ConnectionObjectPool` keeps mysql objects that scripts have put back, up to a number, and hands
the last of them out again. An object is reset when it is put back and not when it is handed out,
and the pool takes whatever it is given: what it promises holds as long as a script has to do only
with objects that it was handed and has not put back.
-/

namespace NgxPhp

open StepMachine

/-- The handle of an object. -/
abbrev ObjId := Nat

/-- A `ConnectionObjectPool` and the mysql objects of a worker. -/
structure ObjectPool where
  /-- `freeQueue`, from its end. -/
  freeQueue : List ObjId := []
  maxQueue : Nat := 4096
  /-- The fields of an object. -/
  objects : ObjId → Reader := fun _ => {}
  /-- The handle of the next object that is made. -/
  next : ObjId := 0

namespace ObjectPool

/-- `new mysql()`. -/
def construct (p : ObjectPool) : ObjId × ObjectPool :=
  (p.next, { p with objects := Function.update p.objects p.next {}, next := p.next + 1 })

/-- `get`. -/
def get (p : ObjectPool) : ObjId × ObjectPool :=
  match p.freeQueue with
  | [] => p.construct
  | o :: os => (o, { p with freeQueue := os })

/-- `clear` of an object. Where its connection goes is another matter. -/
def clear (p : ObjectPool) (o : ObjId) : ObjectPool :=
  { p with objects := Function.update p.objects o {} }

/-- `put`; what a full pool is given it leaves as it is. -/
def put (p : ObjectPool) (o : ObjId) : ObjectPool :=
  if p.freeQueue.length < p.maxQueue then { p.clear o with freeQueue := o :: p.freeQueue } else p

end ObjectPool

/-- What the scripts of a worker do. -/
inductive ObjectCall (κ : Type) where
  | get (script : κ)
  | put (script : κ) (o : ObjId)
  /-- A method of an object, which leaves it like this. -/
  | call (script : κ) (o : ObjId) (left : Reader)
  /-- A script has no more use for an object. -/
  | unset (script : κ) (o : ObjId)

/-- The pool, who holds which object, and how the holder has left it. -/
structure PoolRun (κ : Type) where
  pool : ObjectPool := {}
  held : List (κ × ObjId) := []
  seen : κ × ObjId → Reader := fun _ => {}

namespace PoolRun

variable {κ : Type}

/-- The objects in use. -/
def inUse (s : PoolRun κ) : List ObjId := s.held.map Prod.snd

/-- How many objects there are. -/
def alive (s : PoolRun κ) : Nat := s.pool.freeQueue.length + s.held.length

/-- Each object has one place, a free one is as new, and one that is held is as its holder has
left it. -/
structure Inv (limit : Nat) (s : PoolRun κ) : Prop where
  maxQueue : s.pool.maxQueue = limit
  room : s.pool.freeQueue.length ≤ limit
  once : (s.pool.freeQueue ++ s.inUse).Nodup
  made : ∀ o ∈ s.pool.freeQueue ++ s.inUse, o < s.pool.next
  clean : ∀ o ∈ s.pool.freeQueue, s.pool.objects o = {}
  kept : ∀ p ∈ s.held, s.pool.objects p.2 = s.seen p

section Inv

variable {limit : Nat} {s : PoolRun κ}

/-- A pool starts with nothing held. -/
theorem inv_init (limit : Nat) : Inv limit ({ pool.maxQueue := limit } : PoolRun κ) where
  maxQueue := rfl
  room := Nat.zero_le _
  once := List.nodup_nil
  made := nofun
  clean := nofun
  kept := nofun

/-- An object is held once. -/
theorem Inv.holder_unique (h : s.Inv limit) {p q : κ × ObjId} (hp : p ∈ s.held) (hq : q ∈ s.held)
    (ho : p.2 = q.2) : p = q :=
  List.inj_on_of_nodup_map (List.nodup_append.mp h.once).2.1 hp hq ho

/-- No object is held twice. -/
theorem Inv.held_nodup (h : s.Inv limit) : s.held.Nodup :=
  List.Nodup.of_map Prod.snd (List.nodup_append.mp h.once).2.1

/-- An object that is held is not free. -/
theorem Inv.not_free (h : s.Inv limit) {p : κ × ObjId} (hp : p ∈ s.held) :
    p.2 ∉ s.pool.freeQueue := by
  intro hfree
  exact (List.nodup_append.mp h.once).2.2 _ hfree _ (List.mem_map_of_mem hp) rfl

/-- An object that is held has been made. -/
theorem Inv.lt_next (h : s.Inv limit) {p : κ × ObjId} (hp : p ∈ s.held) : p.2 < s.pool.next :=
  h.made _ (List.mem_append_right _ (List.mem_map_of_mem hp))

/-- An object that is handed out is nobody's and as new. -/
theorem Inv.get (h : s.Inv limit) :
    s.pool.get.1 ∉ s.inUse ∧ s.pool.get.2.objects s.pool.get.1 = {} := by
  unfold ObjectPool.get
  split
  next hfree =>
    refine ⟨?_, Function.update_self ..⟩
    intro huse
    exact Nat.lt_irrefl _ (h.made _ (List.mem_append_right _ huse))
  next o os hfree =>
    have hmem : o ∈ s.pool.freeQueue := by
      rw [hfree]
      exact List.mem_cons_self
    refine ⟨?_, h.clean o hmem⟩
    intro huse
    exact (List.nodup_append.mp h.once).2.2 _ hmem _ huse rfl

end Inv

variable [DecidableEq κ]

def step (s : PoolRun κ) : ObjectCall κ → PoolRun κ
  | .get script =>
    { pool := s.pool.get.2
      held := (script, s.pool.get.1) :: s.held
      seen := Function.update s.seen (script, s.pool.get.1) {} }
  | .put script o => { s with pool := s.pool.put o, held := s.held.erase (script, o) }
  | .call script o left =>
    { s with
      pool := { s.pool with objects := Function.update s.pool.objects o left }
      seen := Function.update s.seen (script, o) left }
  | .unset script o => { s with held := s.held.erase (script, o) }

/-- A script has to do only with objects that it holds. -/
def Proper (s : PoolRun κ) : ObjectCall κ → Prop
  | .get _ => True
  | .put script o | .call script o _ | .unset script o => (script, o) ∈ s.held

instance (s : PoolRun κ) (c : ObjectCall κ) : Decidable (s.Proper c) :=
  match c with
  | .get _ => inferInstanceAs (Decidable True)
  | .put script o | .call script o _ | .unset script o =>
    inferInstanceAs (Decidable ((script, o) ∈ s.held))

/-! ## What a step leaves -/

section Step

variable {limit : Nat} {s : PoolRun κ} {script : κ} {o : ObjId}

/-- The objects in use are one and the others. -/
theorem inUse_perm (h : (script, o) ∈ s.held) :
    List.Perm s.inUse (o :: (s.held.erase (script, o)).map Prod.snd) :=
  (List.perm_cons_erase h).map Prod.snd

/-- Without an object that was held. -/
theorem Inv.unset (h : s.Inv limit) (hheld : (script, o) ∈ s.held) :
    Inv limit { s with held := s.held.erase (script, o) } where
  maxQueue := h.maxQueue
  room := h.room
  once := by
    have hsub := ((List.erase_sublist (a := (script, o)) (l := s.held)).map Prod.snd)
    exact h.once.sublist (hsub.append_left s.pool.freeQueue)
  made o' ho' := by
    rcases List.mem_append.mp ho' with hfree | huse
    · exact h.made o' (List.mem_append_left _ hfree)
    · have hperm := (inUse_perm hheld).mem_iff.mpr (List.mem_cons_of_mem o huse)
      exact h.made o' (List.mem_append_right _ hperm)
  clean := h.clean
  kept p hp := h.kept p (List.mem_of_mem_erase hp)

/-- A statement on an object that is held keeps the invariant. -/
theorem Inv.call (h : s.Inv limit) (hheld : (script, o) ∈ s.held) (left : Reader) :
    Inv limit (s.step (.call script o left)) where
  maxQueue := h.maxQueue
  room := h.room
  once := h.once
  made := h.made
  clean o' ho' := by
    have hne : o' ≠ o := by
      rintro rfl
      exact h.not_free hheld ho'
    exact (Function.update_of_ne hne ..).trans (h.clean o' ho')
  kept p hp := by
    by_cases hself : p = (script, o)
    · subst hself
      change Function.update s.pool.objects o left o =
        Function.update s.seen (script, o) left (script, o)
      rw [Function.update_self, Function.update_self]
    · have hne : p.2 ≠ o := fun heq => hself (h.holder_unique hp hheld heq)
      change Function.update s.pool.objects o left p.2 =
        Function.update s.seen (script, o) left p
      rw [Function.update_of_ne hne, Function.update_of_ne hself]
      exact h.kept p hp

/-- An object that is given back keeps the invariant. -/
theorem Inv.put (h : s.Inv limit) (hheld : (script, o) ∈ s.held) :
    Inv limit (s.step (.put script o)) := by
  have hunset := h.unset hheld
  unfold step ObjectPool.put
  dsimp only
  split
  next hroom =>
    have hperm : List.Perm (s.pool.freeQueue ++ s.inUse)
        (o :: s.pool.freeQueue ++ (s.held.erase (script, o)).map Prod.snd) :=
      ((inUse_perm hheld).append_left _).trans List.perm_middle
    refine ⟨h.maxQueue, ?_, hperm.nodup_iff.mp h.once, ?_, ?_, ?_⟩
    · rw [h.maxQueue] at hroom
      exact hroom
    · intro o' ho'
      exact h.made o' (hperm.mem_iff.mpr ho')
    · intro o' ho'
      by_cases heq : o' = o
      · subst heq
        exact Function.update_self ..
      · exact (Function.update_of_ne heq ..).trans
          (h.clean o' ((List.mem_cons.mp ho').resolve_left heq))
    · intro p hp
      obtain ⟨hself, hp⟩ := (h.held_nodup.mem_erase_iff).mp hp
      have hne : p.2 ≠ o := fun heq => hself (h.holder_unique hp hheld heq)
      exact (Function.update_of_ne hne ..).trans (h.kept p hp)
  next => exact hunset

/-- A new object. -/
theorem Inv.takeNew (h : s.Inv limit) (hfree : s.pool.freeQueue = []) (script : κ) :
    Inv limit (s.step (.get script)) := by
  have hget : s.pool.get = s.pool.construct := by
    unfold ObjectPool.get
    rw [hfree]
  have hnobody := h.get.1
  unfold step
  rw [hget] at hnobody ⊢
  have hlt : ∀ o' ∈ s.inUse, o' < s.pool.next := fun o' ho' =>
    h.made o' (List.mem_append_right _ ho')
  refine ⟨h.maxQueue, h.room, ?_, ?_, ?_, ?_⟩
  · change (s.pool.freeQueue ++ s.pool.next :: s.inUse).Nodup
    rw [hfree, List.nil_append, List.nodup_cons]
    exact ⟨hnobody, (List.nodup_append.mp h.once).2.1⟩
  · intro o' ho'
    change o' ∈ s.pool.freeQueue ++ s.pool.next :: s.inUse at ho'
    rw [hfree, List.nil_append] at ho'
    rcases List.mem_cons.mp ho' with rfl | huse
    · exact Nat.lt_succ_self _
    · exact Nat.lt_succ_of_lt (hlt o' huse)
  · intro o' ho'
    change o' ∈ s.pool.freeQueue at ho'
    rw [hfree] at ho'
    exact absurd ho' List.not_mem_nil
  · intro p hp
    by_cases hself : p = (script, s.pool.next)
    · subst hself
      change Function.update s.pool.objects s.pool.next {} s.pool.next =
        Function.update s.seen (script, s.pool.next) {} (script, s.pool.next)
      rw [Function.update_self, Function.update_self]
    · have hheld := (List.mem_cons.mp hp).resolve_left hself
      change Function.update s.pool.objects s.pool.next {} p.2 =
        Function.update s.seen (script, s.pool.next) {} p
      rw [Function.update_of_ne hself, Function.update_of_ne (Nat.ne_of_lt (h.lt_next hheld))]
      exact h.kept p hheld

/-- The object that was put back last. -/
theorem Inv.takeFree (h : s.Inv limit) {os : List ObjId} (hfree : s.pool.freeQueue = o :: os)
    (script : κ) : Inv limit (s.step (.get script)) := by
  have hget : s.pool.get = (o, { s.pool with freeQueue := os }) := by
    unfold ObjectPool.get
    rw [hfree]
  have hmem : ∀ o' ∈ os, o' ∈ s.pool.freeQueue := fun o' ho' => by
    rw [hfree]
    exact List.mem_cons_of_mem _ ho'
  have hperm : List.Perm (s.pool.freeQueue ++ s.inUse) (os ++ o :: s.inUse) := by
    rw [hfree]
    exact List.perm_middle.symm
  have hroom := h.room
  rw [hfree, List.length_cons] at hroom
  unfold step
  rw [hget]
  refine ⟨h.maxQueue, Nat.le_of_succ_le hroom, hperm.nodup_iff.mp h.once, ?_, ?_, ?_⟩
  · intro o' ho'
    exact h.made o' (hperm.mem_iff.mpr ho')
  · intro o' ho'
    exact h.clean o' (hmem o' ho')
  · intro p hp
    by_cases hself : p = (script, o)
    · subst hself
      change s.pool.objects o = Function.update s.seen (script, o) {} (script, o)
      rw [Function.update_self, h.clean o (by rw [hfree]; exact List.mem_cons_self)]
    · have hheld := (List.mem_cons.mp hp).resolve_left hself
      change s.pool.objects p.2 = Function.update s.seen (script, o) {} p
      rw [Function.update_of_ne hself]
      exact h.kept p hheld

/-- Each proper call keeps the invariant. -/
theorem inv_step (s : PoolRun κ) (c : ObjectCall κ) (h : s.Inv limit) (hproper : s.Proper c) :
    Inv limit (s.step c) := by
  cases c with
  | get script =>
    cases hfree : s.pool.freeQueue with
    | nil => exact h.takeNew hfree script
    | cons o os => exact h.takeFree hfree script
  | put script o => exact h.put hproper
  | call script o left => exact h.call hproper left
  | unset script o => exact h.unset hproper

/-- There are more objects than before only when all of them are in use. -/
theorem alive_step (c : ObjectCall κ) (hproper : s.Proper c) :
    (s.step c).alive ≤ s.alive ∨ (s.step c).alive ≤ (s.step c).held.length := by
  unfold alive
  cases c with
  | get script =>
    unfold step ObjectPool.get
    dsimp only
    cases hfree : s.pool.freeQueue with
    | nil =>
      right
      simp only [ObjectPool.construct, hfree, List.length_nil, List.length_cons]
      omega
    | cons o os =>
      left
      simp only [List.length_cons]
      omega
  | put script o =>
    have hlen := List.length_erase_of_mem hproper
    have hpos := List.length_pos_of_mem hproper
    left
    unfold step ObjectPool.put
    dsimp only
    split
    · simp only [List.length_cons]
      omega
    · omega
  | call script o left => exact Or.inl (Nat.le_refl _)
  | unset script o =>
    have hlen := List.length_erase_of_mem hproper
    left
    unfold step
    dsimp only
    omega

end Step

/-! ## Runs -/

/-- There are never more objects than at the start or once in use together. -/
theorem alive_run {s : PoolRun κ} {calls : List (ObjectCall κ)} (h : Along step Proper s calls) :
    (run step s calls).alive ≤ s.alive ∨
      ∃ k ≤ calls.length, (run step s calls).alive ≤ (run step s (calls.take k)).held.length := by
  induction calls generalizing s with
  | nil => exact Or.inl (Nat.le_refl _)
  | cons c calls ih =>
    obtain ⟨hc, hcalls⟩ := h
    rw [run_cons]
    rcases ih hcalls with hle | ⟨k, hk, hle⟩
    · rcases s.alive_step c hc with hstep | hstep
      · exact Or.inl (Nat.le_trans hle hstep)
      · exact Or.inr ⟨1, Nat.le_add_left .., Nat.le_trans hle hstep⟩
    · exact Or.inr ⟨k + 1, Nat.succ_le_succ hk, hle⟩

end PoolRun

open PoolRun in
/-- As long as scripts have to do only with objects that they hold, no object is held twice, each
is as its holder has left it, the next one that is handed out is nobody's and as new, and there
are never more objects than were once in use together. -/
theorem object_pool_exclusive {κ : Type} [DecidableEq κ] (limit : Nat) {calls : List (ObjectCall κ)}
    (h : Along step Proper { pool.maxQueue := limit } calls) :
    let s := run step { pool.maxQueue := limit } calls
    s.pool.freeQueue.length ≤ limit ∧ s.inUse.Nodup ∧
      (∀ p ∈ s.held, s.pool.objects p.2 = s.seen p) ∧
      (s.pool.get.1 ∉ s.inUse ∧ s.pool.get.2.objects s.pool.get.1 = {}) ∧
      ∃ k ≤ calls.length,
        s.alive ≤ (run step { pool.maxQueue := limit } (calls.take k)).held.length := by
  intro s
  have hinv : s.Inv limit := Along.invariant inv_step (inv_init limit) h
  refine ⟨hinv.room, (List.nodup_append.mp hinv.once).2.1, hinv.kept, hinv.get, ?_⟩
  rcases alive_run h with hle | hle
  · exact ⟨0, Nat.zero_le _, hle⟩
  · exact hle

/-- An object that was put back among the rows of a result is handed out as new. -/
theorem object_pool_exclusive_reused :
    let s := run PoolRun.step ({} : PoolRun Nat)
      [.get 1, .call 1 0 { resultState := 201 }, .put 1 0]
    s.pool.get.1 = 0 ∧ s.pool.get.2.objects 0 = {} := by
  intro s
  have hproper : Along PoolRun.step PoolRun.Proper ({} : PoolRun Nat)
      [.get 1, .call 1 0 { resultState := 201 }, .put 1 0] :=
    ⟨trivial, List.mem_cons_self, List.mem_cons_self, trivial⟩
  exact ⟨rfl, (object_pool_exclusive 4096 hproper).2.2.2.1.2⟩

/-- One that was put back twice is handed out twice. -/
example : (run PoolRun.step ({} : PoolRun Nat)
    [.get 1, .put 1 0, .put 1 0, .get 1, .get 2]).inUse = [0, 0] := by decide

end NgxPhp
