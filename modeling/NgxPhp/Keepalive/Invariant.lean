import NgxPhp.Keepalive.Pool

/-!
# The representation invariant of the keepalive pool

Every slot is in exactly one of the two queues, and every slot of the cache
holds an open connection that points back to it. Stale pointers of free slots
are harmless because only the cache is searched. Each operation is shown to keep
the invariant and to act on the list of cached slots.
-/

namespace NgxPhp

open LinkQueue
open Function (update)

/-- Blocks of one length compare equal just if they are. -/
theorem ngxMemcmp_eq_zero {s₁ s₂ : Bytes} (h : s₁.length = s₂.length) :
    ngxMemcmp s₁ s₂ = 0 ↔ s₁ = s₂ := by
  induction s₁ generalizing s₂ with
  | nil =>
    cases s₂ with
    | nil => simp [ngxMemcmp]
    | cons b bs => simp at h
  | cons a as ih =>
    cases s₂ with
    | nil => simp at h
    | cons b bs =>
      have hl : as.length = bs.length := by simpa using h
      simp only [ngxMemcmp, List.cons.injEq]
      by_cases hlt : a < b
      · simp [hlt, UInt8.ne_of_lt hlt]
      · by_cases hgt : b < a
        · simp [hlt, hgt, (UInt8.ne_of_lt hgt).symm]
        · have hab : a = b := UInt8.le_antisymm (UInt8.not_lt.mp hgt) (UInt8.not_lt.mp hlt)
          rw [if_neg hlt, if_neg hgt, ih hl]
          exact ⟨fun he => ⟨hab, he⟩, fun he => he.2⟩

/-- The comparison of two addresses reports equality only. -/
theorem ngxMemn2cmp_eq_zero (s₁ s₂ : Bytes) : ngxMemn2cmp s₁ s₂ = 0 ↔ s₁ = s₂ := by
  by_cases hl : s₁.length = s₂.length
  · have ht : s₁.take (min s₁.length s₂.length) = s₁ := List.take_of_length_le (by omega)
    have ht' : s₂.take (min s₁.length s₂.length) = s₂ := List.take_of_length_le (by omega)
    simp only [ngxMemn2cmp, ht, ht']
    rw [if_pos (Or.inr hl)]
    exact ngxMemcmp_eq_zero hl
  · have hne : s₁ ≠ s₂ := fun he => hl (congrArg List.length he)
    simp only [ngxMemn2cmp, hl, or_false, hne, iff_false]
    split
    · assumption
    · split <;> decide

/-- The two queues hold `cache` and `free`, and together every slot once. -/
structure KeepaliveConf.Rep (kc : KeepaliveConf) (cache free : List Nat) : Prop where
  cacheQueue : IsQueue kc.links .cache (cache.map .slot)
  freeQueue : IsQueue kc.links .free (free.map .slot)
  perm : (cache ++ free).Perm (List.range kc.maxCached)

/-- An idle connection in slot `i` of pool `p`. -/
structure Connection.CachedAs (k : Connection) (p : SrvId) (i : Nat) : Prop where
  isOpen : k.isOpen = true
  data : k.data = .cached p i
  read : k.read.handler = .keepaliveClose
  write : k.write.handler = .keepaliveDummy

/-- The representation invariant of a pool. -/
structure PoolInv (kc : KeepaliveConf) (cy : Cycle) (cache free : List Nat) : Prop
    extends kc.Rep cache free where
  conn : ∀ i ∈ cache, ∃ c, (kc.cached i).connection = some c ∧
    (cy.connections c).CachedAs kc.id i

/-- A connection that is used as before is cached as before. -/
theorem Connection.CachedAs.of_sameUse {k m : Connection} {p : SrvId} {i : Nat}
    (h : k.CachedAs p i) (hs : k.SameUse m) : m.CachedAs p i where
  isOpen := hs.isOpen.trans h.isOpen
  data := hs.data.trans h.data
  read := hs.read.trans h.read
  write := hs.write.trans h.write

/-- The invariant looks at the connection table only where the pool points. -/
theorem PoolInv.congr {kc : KeepaliveConf} {cy cy' : Cycle} {cache free : List Nat}
    (h : PoolInv kc cy cache free) (hs : ∀ i ∈ cache, ∀ c, (kc.cached i).connection = some c →
      (cy.connections c).SameUse (cy'.connections c)) : PoolInv kc cy' cache free where
  toRep := h.toRep
  conn := by
    intro i hi
    obtain ⟨c, hc, hk⟩ := h.conn i hi
    exact ⟨c, hc, hk.of_sameUse (hs i hi c hc)⟩

namespace KeepaliveConf.Rep

variable {kc : KeepaliveConf} {cache free : List Nat}

/-- No slot is in both queues or twice in one. -/
theorem nodup (h : kc.Rep cache free) : (cache ++ free).Nodup :=
  h.perm.nodup_iff.mpr List.nodup_range

/-- Each slot is in one of the queues. -/
theorem length (h : kc.Rep cache free) : cache.length + free.length = kc.maxCached := by
  simpa using h.perm.length_eq

/-- Neither queue meets the other. -/
theorem disjoint (h : kc.Rep cache free) :
    ∀ y ∈ QueueNode.cache :: cache.map .slot, y ∉ QueueNode.free :: free.map .slot := by
  have hd := (List.nodup_append'.mp h.nodup).2.2
  intro y hy hm
  rcases List.mem_cons.mp hy with rfl | hy
  · simp at hm
  · obtain ⟨i, hi, rfl⟩ := List.mem_map.mp hy
    simp only [List.mem_cons, reduceCtorEq, List.mem_map, QueueNode.slot.injEq, exists_eq_right,
      false_or] at hm
    exact hd hi hm

/-- The slots of a queue are those that its links say. -/
private theorem slots_eq {h : QueueNode} {xs : List Nat}
    (hq : IsQueue kc.links h (xs.map .slot)) (hl : xs.length ≤ kc.maxCached) :
    kc.slots h = xs := by
  rw [KeepaliveConf.slots, hq.walk_eq (by simpa using by omega), List.filterMap_map]
  exact List.filterMap_some

/-- The walks through the two queues recover the represented lists. -/
theorem cacheSlots_eq (h : kc.Rep cache free) : kc.cacheSlots = cache :=
  slots_eq h.cacheQueue (by have := h.length; omega)

/-- The free queue has the free slots. -/
theorem freeSlots_eq (h : kc.Rep cache free) : kc.freeSlots = free :=
  slots_eq h.freeQueue (by have := h.length; omega)

/-- A cached slot goes to the front of the free queue. -/
theorem toFree {i : Nat} {pre post : List Nat} (h : kc.Rep (pre ++ i :: post) free) :
    (kc.toFree i).Rep (pre ++ post) (i :: free) := by
  have hq : IsQueue kc.links .cache (pre.map .slot ++ .slot i :: post.map .slot) := by
    simpa using h.cacheQueue
  obtain ⟨hc, hf⟩ := hq.move h.freeQueue (by simpa using h.disjoint)
  refine ⟨by simpa [KeepaliveConf.toFree] using hc, by simpa [KeepaliveConf.toFree] using hf, ?_⟩
  refine List.Perm.trans ?_ h.perm
  have hmid : (post ++ i :: free).Perm (i :: (post ++ free)) := List.perm_middle
  simpa [List.append_assoc] using hmid.append_left pre

/-- The first free slot goes to the front of the cache. -/
theorem fromFree {i : Nat} (c : ConnId) (addr : SockAddr) (h : kc.Rep cache (i :: free)) :
    (kc.store i c addr).Rep (i :: cache) free := by
  have hq : IsQueue kc.links .free ([] ++ .slot i :: free.map .slot) := h.freeQueue
  have hd : ∀ y ∈ QueueNode.free :: ([] ++ .slot i :: free.map QueueNode.slot),
      y ∉ QueueNode.cache :: cache.map .slot := fun y hy hm => h.disjoint y hm hy
  obtain ⟨hf, hc⟩ := hq.move h.cacheQueue hd
  exact ⟨hc, hf, List.perm_middle.symm.trans h.perm⟩

/-- With no free slot the oldest cached slot goes to the front of the cache. -/
theorem recycle {i : Nat} (c : ConnId) (addr : SockAddr) (h : kc.Rep (cache ++ [i]) []) :
    (kc.store i c addr).Rep (i :: cache) [] := by
  have hq : IsQueue kc.links .cache (cache.map .slot ++ [.slot i]) := by
    simpa using h.cacheQueue
  have hr : IsQueue (kc.links.remove (.slot i)) .cache (cache.map .slot ++ []) := hq.remove
  have hx : QueueNode.slot i ∉ QueueNode.free :: ([] : List Nat).map .slot := by simp
  have hd : ∀ y ∈ QueueNode.cache :: (cache.map .slot ++ [.slot i]),
      y ∉ QueueNode.free :: ([] : List Nat).map QueueNode.slot := by
    simpa using h.disjoint
  refine ⟨hq.rotate, ?_, ?_⟩
  · refine (h.freeQueue.remove_of_disjoint hq hd).insertHead_of_disjoint hr hx ?_
    intro y hy
    refine hd y ?_
    rcases List.mem_cons.mp hy with rfl | hy
    · simp
    · exact List.mem_cons_of_mem _ (by simpa using Or.inl (by simpa using hy))
  · have hp : (cache ++ [i]).Perm (List.range kc.maxCached) := by simpa using h.perm
    simpa [KeepaliveConf.store] using (List.perm_append_singleton i cache).symm.trans hp

end KeepaliveConf.Rep

/-- One more slot is put in front of the free queue. -/
private theorem initLinks_succ (m : Nat) :
    initLinks (m + 1) = (initLinks m).insertHead .free (.slot m) := by
  simp only [initLinks, List.range_succ, List.foldl_append, List.foldl_cons, List.foldl_nil]

/-- Initialisation puts every slot into the free queue. -/
theorem keepaliveInit_rep (p : SrvId) (n : Nat) :
    (keepaliveInit p n).Rep [] (List.range n).reverse := by
  have hbase : IsQueue ((Links.init ⟨id, id⟩ QueueNode.cache).init .free) .cache [] ∧
      IsQueue ((Links.init ⟨id, id⟩ QueueNode.cache).init .free) .free [] :=
    ⟨(isQueue_init _ _).init_of_notMem (by simp), isQueue_init _ _⟩
  have hloop : ∀ m, IsQueue (initLinks m) .cache [] ∧
      IsQueue (initLinks m) .free ((List.range m).reverse.map .slot) := by
    intro m
    induction m with
    | zero => exact hbase
    | succ m ih =>
      obtain ⟨hc, hf⟩ := ih
      have hx : QueueNode.slot m ∉ QueueNode.free :: (List.range m).reverse.map .slot := by simp
      simp only [initLinks_succ, List.range_succ, List.reverse_append, List.reverse_cons,
        List.reverse_nil, List.nil_append, List.cons_append, List.map_cons]
      refine ⟨hc.insertHead_of_disjoint hf (by simp) ?_, hf.insertHead hx⟩
      intro y hy
      rcases List.mem_cons.mp hy with rfl | hy
      · simp
      · obtain ⟨i, _, rfl⟩ := List.mem_map.mp hy
        simp
  refine ⟨(hloop n).1, (hloop n).2, ?_⟩
  exact List.reverse_perm (List.range n)

namespace PoolInv

variable {kc : KeepaliveConf} {cy : Cycle} {cache free : List Nat}

/-- Slots of the cache hold different connections: each points back to its slot. -/
theorem slot_unique (h : PoolInv kc cy cache free) {i j : Nat} (hi : i ∈ cache) (hj : j ∈ cache)
    (he : (kc.cached i).connection = (kc.cached j).connection) : i = j := by
  obtain ⟨c, hc, hk⟩ := h.conn i hi
  obtain ⟨d, hd, hm⟩ := h.conn j hj
  have hcd : c = d := Option.some.inj (hc.symm.trans (he.trans hd))
  subst d
  have := hk.data.symm.trans hm.data
  simpa using this

/-- The entries of a pool are those of its cache. -/
theorem entries_eq (h : PoolInv kc cy cache free) :
    kc.entries = cache.filterMap kc.slotEntry := by
  rw [KeepaliveConf.entries, h.cacheSlots_eq]

/-- A cached slot shows its connection and its address. -/
theorem slotEntry_eq (h : PoolInv kc cy cache free) {i : Nat} (hi : i ∈ cache) :
    ∃ c, (kc.cached i).connection = some c ∧ (cy.connections c).CachedAs kc.id i ∧
      kc.slotEntry i = some (c, (kc.cached i).sockaddr) := by
  obtain ⟨c, hc, hk⟩ := h.conn i hi
  exact ⟨c, hc, hk, by rw [KeepaliveConf.slotEntry, hc]; rfl⟩

/-- Every cached slot shows up as an entry. -/
theorem length_entries (h : PoolInv kc cy cache free) : kc.entries.length = cache.length := by
  rw [h.entries_eq, List.filterMap_length_eq_length]
  intro i hi
  obtain ⟨c, _, _, he⟩ := h.slotEntry_eq hi
  rw [he]
  rfl

end PoolInv

/-- The search runs along the cache and stops at the first slot with the address. -/
theorem find_eq {kc : KeepaliveConf} (addr : SockAddr) {a : QueueNode} {xs : List Nat}
    {fuel : Nat} (hl : Linked kc.links a (xs.map .slot) .cache) (hf : xs.length < fuel) :
    kc.find addr fuel (kc.links.next a) = xs.find? fun i => (kc.cached i).sockaddr = addr := by
  induction xs generalizing a fuel with
  | nil =>
    obtain ⟨fuel, rfl⟩ := Nat.exists_eq_succ_of_ne_zero (by simp at hf; omega : fuel ≠ 0)
    have hn : kc.links.next a = .cache := hl.1
    rw [hn]
    rfl
  | cons x xs ih =>
    obtain ⟨fuel, rfl⟩ := Nat.exists_eq_succ_of_ne_zero (by simp at hf; omega : fuel ≠ 0)
    obtain ⟨hx, _, hrest⟩ := hl
    have hf' : xs.length < fuel := by simpa using hf
    rw [hx, KeepaliveConf.find, List.find?_cons]
    by_cases he : (kc.cached x).sockaddr = addr
    · rw [if_pos ((ngxMemn2cmp_eq_zero _ _).mpr he)]
      simp [he]
    · rw [if_neg (fun hm => he ((ngxMemn2cmp_eq_zero _ _).mp hm)), ih hrest hf']
      simp [he]

end NgxPhp
