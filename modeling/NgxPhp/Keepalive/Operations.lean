import NgxPhp.Keepalive.Invariant

/-!
# What the pool operations do

Each operation is described once, by its possible results on a pool that
satisfies the representation invariant, and each result is shown to satisfy the
invariant again. Later modules use these descriptions and not the definitions.
-/

namespace NgxPhp

open LinkQueue
open Function (update)

variable {kc : KeepaliveConf} {cy cy' : Cycle} {cache free : List Nat}

/-- The connection `c` is in the pool. -/
def KeepaliveConf.Holds (kc : KeepaliveConf) (c : ConnId) : Prop :=
  ∃ i ∈ kc.cacheSlots, (kc.cached i).connection = some c

theorem PoolInv.holds_iff (h : PoolInv kc cy cache free) (c : ConnId) :
    kc.Holds c ↔ ∃ i ∈ cache, (kc.cached i).connection = some c := by
  rw [KeepaliveConf.Holds, h.cacheSlots_eq]

/-- The slots around a cached one hold other connections. -/
theorem PoolInv.ne_of_mem {pre post : List Nat} {i j : Nat} {c d : ConnId}
    (h : PoolInv kc cy (pre ++ i :: post) free) (hc : (kc.cached i).connection = some c)
    (hj : j ∈ pre ++ post) (hd : (kc.cached j).connection = some d) : d ≠ c := by
  have hnd : (pre ++ i :: post).Nodup := h.nodup.sublist (List.sublist_append_left _ _)
  have hj' : j ∈ pre ++ i :: post := by
    rcases List.mem_append.mp hj with hj | hj <;> simp [hj]
  rintro rfl
  obtain rfl : j = i := h.slot_unique hj' (by simp) (hd.trans hc.symm)
  exact (List.nodup_cons.mp (List.perm_middle.nodup hnd)).1 hj

/-- Recording an act is not seen by the invariant. -/
theorem PoolInv.record (h : PoolInv kc cy cache free) (a : Act) :
    PoolInv kc (cy.record a) cache free :=
  h.congr fun _ _ _ _ => .refl _

/-- A slot that leaves the cache takes its connection out of the pool's care. -/
theorem PoolInv.toFree {pre post : List Nat} {i : Nat} {c : ConnId}
    (h : PoolInv kc cy (pre ++ i :: post) free) (hc : (kc.cached i).connection = some c)
    (hs : ∀ d, d ≠ c → (cy.connections d).SameUse (cy'.connections d)) :
    PoolInv (kc.toFree i) cy' (pre ++ post) (i :: free) where
  toRep := h.toRep.toFree
  conn := by
    intro j hj
    have hj' : j ∈ pre ++ i :: post := by
      rcases List.mem_append.mp hj with hj | hj <;> simp [hj]
    obtain ⟨d, hd, hk⟩ := h.conn j hj'
    exact ⟨d, hd, hk.of_sameUse (hs d (h.ne_of_mem hc hj hd))⟩

/-- A slot that enters the cache holds the new connection. -/
theorem PoolInv.store {cache' free' : List Nat} {i : Nat} {c : ConnId} {addr : SockAddr}
    (h : PoolInv kc cy cache free) (hrep : (kc.store i c addr).Rep (i :: cache') free')
    (hsub : ∀ j ∈ cache', j ∈ cache) (hnew : ¬ kc.Holds c)
    (hopen : (cy'.connections c).isOpen = true)
    (hs : ∀ j ∈ cache', ∀ d, (kc.cached j).connection = some d →
      (cy.connections d).SameUse (cy'.connections d)) :
    PoolInv (kc.store i c addr) (cy'.modify c fun k => k.idle kc.id i) (i :: cache') free' where
  toRep := hrep
  conn := by
    intro j hj
    rcases List.mem_cons.mp hj with rfl | hj'
    · refine ⟨c, by simp [KeepaliveConf.store], ?_⟩
      rw [Cycle.modify_self]
      exact ⟨hopen, rfl, rfl, rfl⟩
    · have hnd : (i :: cache').Nodup := hrep.nodup.sublist (List.sublist_append_left _ _)
      have hji : j ≠ i := fun he => (List.nodup_cons.mp hnd).1 (he ▸ hj')
      obtain ⟨d, hd, hk⟩ := h.conn j (hsub j hj')
      have hdc : d ≠ c := by
        rintro rfl
        exact hnew ((h.holds_iff d).mpr ⟨j, hsub j hj', hd⟩)
      refine ⟨d, by simpa [KeepaliveConf.store, hji] using hd, ?_⟩
      rw [Cycle.modify_of_ne _ _ hdc]
      exact hk.of_sameUse (hs j hj' d hd)

/-- The entries around one cached slot. -/
theorem PoolInv.entries_split {pre post : List Nat} {i : Nat} {c : ConnId}
    (h : PoolInv kc cy (pre ++ i :: post) free) (hc : (kc.cached i).connection = some c) :
    kc.entries = pre.filterMap kc.slotEntry ++
      (c, (kc.cached i).sockaddr) :: post.filterMap kc.slotEntry := by
  have he : kc.slotEntry i = some (c, (kc.cached i).sockaddr) := by
    rw [KeepaliveConf.slotEntry, hc]
    rfl
  rw [h.entries_eq, List.filterMap_append, List.filterMap_cons_some he]

/-- The entries once a slot has left the cache. -/
theorem PoolInv.entries_toFree {pre post : List Nat} {i : Nat}
    (h : PoolInv (kc.toFree i) cy (pre ++ post) free) :
    (kc.toFree i).entries = pre.filterMap kc.slotEntry ++ post.filterMap kc.slotEntry := by
  rw [h.entries_eq, List.filterMap_append]
  rfl

/-- The entries once a slot has been filled and put first. -/
theorem PoolInv.entries_store {cache' : List Nat} {i : Nat} {c : ConnId} {addr : SockAddr}
    (h : PoolInv (kc.store i c addr) cy (i :: cache') free) :
    (kc.store i c addr).entries = (c, addr) :: cache'.filterMap kc.slotEntry := by
  have hi : (kc.store i c addr).slotEntry i = some (c, addr) := by
    simp [KeepaliveConf.slotEntry, KeepaliveConf.store]
  have hnd : (i :: cache').Nodup := h.nodup.sublist (List.sublist_append_left _ _)
  have hrest : ∀ j ∈ cache', (kc.store i c addr).slotEntry j = kc.slotEntry j := by
    intro j hj
    have hji : j ≠ i := fun he => (List.nodup_cons.mp hnd).1 (he ▸ hj)
    simp [KeepaliveConf.slotEntry, KeepaliveConf.store, hji]
  rw [h.entries_eq, List.filterMap_cons_some hi, List.filterMap_congr hrest]

/-- An entry of some of the cached slots is what one of them holds. -/
theorem PoolInv.mem_slotEntries (h : PoolInv kc cy cache free) {slots : List Nat}
    (hslots : ∀ i ∈ slots, i ∈ cache) {e : ConnId × SockAddr}
    (he : e ∈ slots.filterMap kc.slotEntry) : ∃ i ∈ slots, (kc.cached i).connection = some e.1 ∧
      (kc.cached i).sockaddr = e.2 := by
  obtain ⟨i, hi, he⟩ := List.mem_filterMap.mp he
  obtain ⟨c, hc, _, hs⟩ := h.slotEntry_eq (hslots i hi)
  obtain rfl : (c, (kc.cached i).sockaddr) = e := Option.some.inj (hs.symm.trans he)
  exact ⟨i, hi, hc, rfl⟩

/-- A connection among the entries is in the pool. -/
theorem PoolInv.mem_entries (h : PoolInv kc cy cache free) {e : ConnId × SockAddr}
    (he : e ∈ kc.entries) : ∃ i ∈ cache, (kc.cached i).connection = some e.1 ∧
      (kc.cached i).sockaddr = e.2 := by
  rw [h.entries_eq] at he
  exact h.mem_slotEntries (fun _ hi => hi) he

/-- The two results of `ngx_http_php_keepalive_get_peer`. -/
theorem keepaliveGetPeer_cases (h : PoolInv kc cy cache free) (addEvent : Rc)
    (pc : PeerConnection) :
    ((∀ i ∈ cache, (kc.cached i).sockaddr ≠ pc.sockaddr.getD []) ∧
      keepaliveGetPeer addEvent pc kc cy = (.ok, pc, kc, cy)) ∨
    ∃ pre i post c, cache = pre ++ i :: post ∧
      (∀ j ∈ pre, (kc.cached j).sockaddr ≠ pc.sockaddr.getD []) ∧
      (kc.cached i).sockaddr = pc.sockaddr.getD [] ∧ (kc.cached i).connection = some c ∧
      keepaliveGetPeer addEvent pc kc cy =
        (if addEvent = .error then .error else .done,
          { pc with connection := some c, cached := true }, kc.toFree i,
          if addEvent = .error then cy else cy.addReadEvent c) := by
  have hlen : cache.length < kc.maxCached + 1 := by
    have := h.length
    omega
  have hfind := find_eq (pc.sockaddr.getD []) h.cacheQueue.linked hlen
  cases hf : cache.find? fun i => (kc.cached i).sockaddr = pc.sockaddr.getD [] with
  | none =>
    left
    rw [keepaliveGetPeer, hfind, hf]
    exact ⟨fun i hi => by simpa using List.find?_eq_none.mp hf i hi, rfl⟩
  | some i =>
    right
    obtain ⟨hi, pre, post, hsplit, hpre⟩ := List.find?_eq_some_iff_append.mp hf
    obtain ⟨c, hc, _⟩ := h.conn i (by simp [hsplit])
    refine ⟨pre, i, post, c, hsplit, fun j hj => by simpa using hpre j hj, by simpa using hi,
      hc, ?_⟩
    rw [keepaliveGetPeer, hfind, hf]
    simp only [hc]
    split <;> rfl

/-- Whatever is stored, the peer keeps its flag and the pool its bound. -/
theorem keepaliveFreePeer_keeps (readEvent : Rc) (r : ReqId) (pc : PeerConnection)
    (kc : KeepaliveConf) (cy : Cycle) :
    (keepaliveFreePeer readEvent r pc kc cy).1.cached = pc.cached ∧
      (keepaliveFreePeer readEvent r pc kc cy).2.1.maxCached = kc.maxCached := by
  unfold keepaliveFreePeer
  split
  · exact ⟨rfl, rfl⟩
  · split
    · exact ⟨rfl, rfl⟩
    · split <;> exact ⟨rfl, rfl⟩

/-- The three results of `ngx_http_php_keepalive_free_peer`. -/
theorem keepaliveFreePeer_cases (h : PoolInv kc cy cache free) (hmax : 0 < kc.maxCached)
    (readEvent : Rc) (r : ReqId) (pc : PeerConnection) {c : ConnId}
    (hc : pc.connection = some c) :
    (readEvent ≠ .ok ∧ keepaliveFreePeer readEvent r pc kc cy = (pc, kc, cy)) ∨
    (readEvent = .ok ∧ ∃ i rest, free = i :: rest ∧
      keepaliveFreePeer readEvent r pc kc cy = ({ pc with connection := none },
        kc.store i c (pc.sockaddr.getD []),
        ((cy.handleReadEvent c).modify c fun k => k.idle kc.id i).record (.keep r kc.id c))) ∨
    (readEvent = .ok ∧ free = [] ∧ ∃ older i d, cache = older ++ [i] ∧
      (kc.cached i).connection = some d ∧
      keepaliveFreePeer readEvent r pc kc cy = ({ pc with connection := none },
        kc.store i c (pc.sockaddr.getD []),
        ((keepaliveClose kc.id d (cy.handleReadEvent c)).modify c fun k =>
          k.idle kc.id i).record (.keep r kc.id c))) := by
  by_cases hev : readEvent = .ok
  · right
    cases free with
    | cons i rest =>
      refine Or.inl ⟨hev, i, rest, rfl, ?_⟩
      have hne : ¬ QueueNode.free = kc.links.prev .free := by
        rw [h.freeQueue.empty_iff]
        simp
      have hfirst : kc.links.next .free = .slot i := h.freeQueue.linked.1
      simp only [keepaliveFreePeer, hc, hev, KeepaliveConf.reserve, if_neg hne, hfirst, ne_eq,
        not_true_eq_false, if_false]
    | nil =>
      refine Or.inr ⟨hev, rfl, ?_⟩
      have hempty : QueueNode.free = kc.links.prev .free := h.freeQueue.empty_iff.mpr rfl
      have hlen : cache.length = kc.maxCached := by simpa using h.length
      obtain ⟨older, i, rfl⟩ : ∃ older i, cache = older ++ [i] := by
        rcases List.eq_nil_or_concat' cache with rfl | hsplit
        · simp at hlen
          omega
        · exact hsplit
      obtain ⟨d, hd, _⟩ := h.conn i (by simp)
      have hqueue : IsQueue kc.links .cache (older.map .slot ++ [.slot i]) := by
        simpa using h.cacheQueue
      have hlast : kc.links.prev .cache = .slot i := hqueue.last_eq
      refine ⟨older, i, d, rfl, hd, ?_⟩
      simp only [keepaliveFreePeer, hc, hev, KeepaliveConf.reserve, if_pos hempty, hlast, hd,
        ne_eq, not_true_eq_false, if_false]
  · left
    refine ⟨hev, ?_⟩
    simp only [keepaliveFreePeer, hc, ne_eq, hev, not_false_eq_true, if_true]

/-- When `ngx_http_php_keepalive_close_handler` leaves the connection where it is. -/
def staysCached (closing peekAgain : Bool) (readEvent : Rc) : Prop :=
  closing = false ∧ peekAgain = true ∧ readEvent = .ok

instance decidableStaysCached (closing peekAgain : Bool) (readEvent : Rc) :
    Decidable (staysCached closing peekAgain readEvent) :=
  inferInstanceAs (Decidable (_ ∧ _ ∧ _))

/-- The two results of `ngx_http_php_keepalive_close_handler`. Before it closes the
connection the handler may have marked it as not ready. -/
theorem keepaliveCloseHandler_cases (kc : KeepaliveConf) (closing peekAgain : Bool)
    (readEvent : Rc) {p : SrvId}
    {i : Nat} {c : ConnId} (hdata : (cy.connections c).data = .cached p i) :
    ∃ cy₁ : Cycle, cy₁.acts = cy.acts ∧
      (∀ d, (cy.connections d).SameUse (cy₁.connections d)) ∧
      keepaliveCloseHandler closing peekAgain readEvent c kc cy =
        if staysCached closing peekAgain readEvent then (kc, cy₁)
        else (kc.toFree i, keepaliveClose kc.id c cy₁) := by
  have hclear := cy.clearReady_sameUse c
  have hdata' : ((cy.clearReady c).connections c).data = .cached p i :=
    (hclear c).data.trans hdata
  cases closing with
  | true => exact ⟨cy, rfl, fun d => .refl _, by simp [keepaliveCloseHandler, staysCached, hdata]⟩
  | false =>
    cases peekAgain with
    | false =>
      exact ⟨cy, rfl, fun d => .refl _, by simp [keepaliveCloseHandler, staysCached, hdata]⟩
    | true =>
      by_cases hev : readEvent = .ok
      · refine ⟨(cy.clearReady c).handleReadEvent c, rfl, fun d => (hclear d).trans ?_, ?_⟩
        · exact Cycle.handleReadEvent_sameUse _ c d
        · simp [keepaliveCloseHandler, staysCached, hev]
      · exact ⟨cy.clearReady c, rfl, hclear, by
          simp [keepaliveCloseHandler, staysCached, hev, hdata']⟩

/-- Closing a pooled connection touches no other structure. -/
theorem keepaliveClose_of_ne (p : SrvId) {c d : ConnId} (cy : Cycle) (hd : d ≠ c) :
    (keepaliveClose p c cy).connections d = cy.connections d := by
  rw [keepaliveClose, Cycle.closeConnection_of_ne _ _ hd, Cycle.destroyPool_connections]

theorem keepaliveClose_acts (p : SrvId) (c : ConnId) (cy : Cycle) :
    (keepaliveClose p c cy).acts =
      .close (.pool p) c :: .destroyPool (.pool p) c :: cy.acts := by
  rw [keepaliveClose, Cycle.closeConnection_acts, Cycle.destroyPool_acts]

/-- The record of the pool closing a connection, if it does. -/
def poolCloseActs (p : SrvId) : Option ConnId → List Act
  | none => []
  | some d => [.close (.pool p) d, .destroyPool (.pool p) d]

theorem keepaliveClose_isOpen (p : SrvId) (c : ConnId) (cy : Cycle) :
    ((keepaliveClose p c cy).connections c).isOpen = false :=
  Cycle.closeConnection_isOpen _ _ _

/-- The slot that was filled holds its connection, and the slots behind it what they held. -/
theorem PoolInv.holds_store {cache' : List Nat} {i : Nat} {c : ConnId} {addr : SockAddr}
    (h : PoolInv (kc.store i c addr) cy (i :: cache') free) (d : ConnId) :
    (kc.store i c addr).Holds d ↔ d = c ∨ ∃ j ∈ cache', (kc.cached j).connection = some d := by
  have hnd : (i :: cache').Nodup := h.nodup.sublist (List.sublist_append_left _ _)
  have hji : ∀ j ∈ cache', j ≠ i := fun j hj he => (List.nodup_cons.mp hnd).1 (he ▸ hj)
  rw [h.holds_iff]
  constructor
  · rintro ⟨j, hj, hjd⟩
    rcases List.mem_cons.mp hj with rfl | hj
    · exact Or.inl (by simpa [KeepaliveConf.store, eq_comm] using hjd)
    · exact Or.inr ⟨j, hj, by simpa [KeepaliveConf.store, hji j hj] using hjd⟩
  · rintro (rfl | ⟨j, hj, hjd⟩)
    · exact ⟨i, by simp, by simp [KeepaliveConf.store]⟩
    · exact ⟨j, List.mem_cons_of_mem _ hj, by simpa [KeepaliveConf.store, hji j hj] using hjd⟩

/-- The slots around a cached one hold what the pool holds, but for its connection. -/
theorem PoolInv.holds_around {pre post : List Nat} {i : Nat} {c : ConnId}
    (h : PoolInv kc cy (pre ++ i :: post) free) (hc : (kc.cached i).connection = some c)
    (d : ConnId) :
    (∃ j ∈ pre ++ post, (kc.cached j).connection = some d) ↔ kc.Holds d ∧ d ≠ c := by
  rw [h.holds_iff]
  constructor
  · rintro ⟨j, hj, hjd⟩
    refine ⟨⟨j, ?_, hjd⟩, h.ne_of_mem hc hj hjd⟩
    rcases List.mem_append.mp hj with hj | hj <;> simp [hj]
  · rintro ⟨⟨j, hj, hjd⟩, hdc⟩
    refine ⟨j, ?_, hjd⟩
    rcases List.mem_append.mp hj with hj | hj
    · exact List.mem_append_left _ hj
    · rcases List.mem_cons.mp hj with rfl | hj
      · exact absurd (Option.some.inj (hjd.symm.trans hc)) hdc
      · exact List.mem_append_right _ hj

/-- A slot that leaves the cache takes exactly its connection with it. -/
theorem PoolInv.holds_toFree {pre post : List Nat} {i : Nat} {c : ConnId}
    (h : PoolInv kc cy (pre ++ i :: post) free) (hc : (kc.cached i).connection = some c)
    (h' : PoolInv (kc.toFree i) cy' (pre ++ post) (i :: free)) (d : ConnId) :
    (kc.toFree i).Holds d ↔ kc.Holds d ∧ d ≠ c := by
  rw [h'.holds_iff]
  exact h.holds_around hc d

/-! ## A connection that is stored -/

/-- The connection `c` has been put first, in the slot `i`, for which `out` has left the pool. -/
structure KeepaliveConf.Stores (kc : KeepaliveConf) (cy : Cycle) (cache : List Nat) (c : ConnId)
    (addr : SockAddr) (i : Nat) (cache' : List Nat) (out : Option ConnId) (cy' : Cycle) :
    Prop where
  pool : ∃ free', PoolInv (kc.store i c addr) cy' (i :: cache') free'
  room : out = none ∧ cache' = cache ∧ cache.length < kc.maxCached ∨
    ∃ d, out = some d ∧ cache = cache' ++ [i] ∧ (kc.cached i).connection = some d ∧
      cache.length = kc.maxCached
  holds : ∀ d, (kc.store i c addr).Holds d ↔ d = c ∨ kc.Holds d ∧ d ∉ out
  held : ∀ d ∈ out, kc.Holds d
  acts : cy'.acts = poolCloseActs kc.id out ++ cy.acts
  others : ∀ d, d ≠ c → d ∉ out → (cy.connections d).SameUse (cy'.connections d)
  closed : ∀ d ∈ out, (cy'.connections d).isOpen = false

section Stores

variable {c : ConnId}

/-- A free slot is filled. -/
theorem PoolInv.storesFree {i : Nat} {rest : List Nat} (h : PoolInv kc cy cache (i :: rest))
    (hnew : ¬ kc.Holds c) (hopen : (cy.connections c).isOpen = true) (addr : SockAddr) :
    kc.Stores cy cache c addr i cache none
      ((cy.handleReadEvent c).modify c fun k => k.idle kc.id i) := by
  have hread := cy.handleReadEvent_sameUse c
  have hpool := h.store (h.fromFree c addr) (fun _ hj => hj) hnew ((hread c).isOpen.trans hopen)
    fun j _ d _ => hread d
  refine ⟨⟨rest, hpool⟩, Or.inl ⟨rfl, rfl, ?_⟩, ?_, by simp, rfl, ?_, by simp⟩
  · have hlen := h.length
    rw [List.length_cons] at hlen
    omega
  · intro d
    rw [hpool.holds_store, h.holds_iff]
    simp
  · intro d hdc _
    rw [Cycle.modify_of_ne _ _ hdc]
    exact hread d

/-- The slot that was used least recently is taken, and its connection is closed. -/
theorem PoolInv.storesLast {older : List Nat} {i : Nat} {d : ConnId}
    (h : PoolInv kc cy (older ++ [i]) []) (hd : (kc.cached i).connection = some d)
    (hnew : ¬ kc.Holds c) (hopen : (cy.connections c).isOpen = true) (addr : SockAddr) :
    kc.Stores cy (older ++ [i]) c addr i older (some d)
      ((keepaliveClose kc.id d (cy.handleReadEvent c)).modify c fun k => k.idle kc.id i) := by
  have hread := cy.handleReadEvent_sameUse c
  have hdh : kc.Holds d := (h.holds_iff d).mpr ⟨i, by simp, hd⟩
  have hdc : d ≠ c := fun he => hnew (he ▸ hdh)
  have hother : ∀ e, e ≠ d → (cy.connections e).SameUse
      ((keepaliveClose kc.id d (cy.handleReadEvent c)).connections e) := by
    intro e he
    rw [keepaliveClose_of_ne _ _ he]
    exact hread e
  have hne : ∀ j ∈ older, ∀ e, (kc.cached j).connection = some e → e ≠ d :=
    fun j hj e he => h.ne_of_mem hd (by simpa using hj) he
  have hpool := h.store (h.recycle c addr) (fun _ hj => by simp [hj]) hnew
    ((hother c hdc.symm).isOpen.trans hopen) fun j hj e he => hother e (hne j hj e he)
  refine ⟨⟨[], hpool⟩, Or.inr ⟨d, rfl, rfl, hd, by simpa using h.length⟩, ?_, ?_, ?_, ?_, ?_⟩
  · intro e
    have haround := h.holds_around hd e
    rw [List.append_nil] at haround
    rw [hpool.holds_store, haround, Option.mem_def, Option.some_inj, eq_comm (a := d)]
  · rintro e ⟨⟩
    exact hdh
  · simp [poolCloseActs, keepaliveClose_acts]
  · intro e hec hed
    rw [Cycle.modify_of_ne _ _ hec]
    exact hother e fun he => hed (by simp [he])
  · rintro e ⟨⟩
    rw [Cycle.modify_of_ne _ _ hdc]
    exact keepaliveClose_isOpen _ _ _

/-- `ngx_http_php_keepalive_free_peer` changes nothing or stores its connection. -/
theorem keepaliveFreePeer_stores (h : PoolInv kc cy cache free) (hmax : 0 < kc.maxCached)
    (readEvent : Rc) (r : ReqId) (pc : PeerConnection) (hc : pc.connection = some c)
    (hnew : ¬ kc.Holds c) (hopen : (cy.connections c).isOpen = true) :
    (readEvent ≠ .ok ∧ keepaliveFreePeer readEvent r pc kc cy = (pc, kc, cy)) ∨
    (readEvent = .ok ∧ ∃ i cache' out cy',
      kc.Stores cy cache c (pc.sockaddr.getD []) i cache' out cy' ∧
      keepaliveFreePeer readEvent r pc kc cy = ({ pc with connection := none },
        kc.store i c (pc.sockaddr.getD []), cy'.record (.keep r kc.id c))) := by
  rcases keepaliveFreePeer_cases h hmax readEvent r pc hc with
    hrefused | ⟨hev, i, rest, rfl, hres⟩ | ⟨hev, rfl, older, i, d, rfl, hd, hres⟩
  · exact Or.inl hrefused
  · exact Or.inr ⟨hev, _, _, _, _, h.storesFree hnew hopen _, hres⟩
  · exact Or.inr ⟨hev, _, _, _, _, h.storesLast hd hnew hopen _, hres⟩

end Stores

end NgxPhp
