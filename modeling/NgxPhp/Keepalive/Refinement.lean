import NgxPhp.Keepalive.Operations
import NgxPhp.Lib.Machine
import NgxPhp.Lib.Mru

/-!
# The pool refines a bounded most-recently-used list

A pool lives among connections that other parties open, use and close. Its
operations are the steps of a machine, together with what the callers do to a
connection that the pool hands out. The entries of the pool then follow the
abstract list of `Mru` step by step.
-/

namespace NgxPhp

open StepMachine

/-- A pool and the connection table it works on. -/
structure PoolWorld where
  kc : KeepaliveConf
  cy : Cycle

/-- A freshly initialised pool, before any connection was opened. -/
def PoolWorld.init (p : SrvId) (maxCached : Nat) : PoolWorld where
  kc := keepaliveInit p maxCached
  cy := { connections := fun _ => {}, acts := [] }

/-- A call of a pool operation with the outcomes nginx reports to it, or the opening or
closing of a connection by its owner outside the pool. -/
inductive PoolCall
  | getConnection (c : ConnId)
  | closeConnection (c : ConnId)
  | getPeer (r : ReqId) (addr : SockAddr) (addEvent : Rc)
  | freePeer (r : ReqId) (c : ConnId) (addr : SockAddr) (readEvent : Rc)
  | closeHandler (c : ConnId) (closing peekAgain : Bool) (readEvent : Rc)
  deriving DecidableEq, Repr

/-- `ngx_http_php_keepalive_get_peer` for a peer that has no connection yet. -/
def PoolWorld.getPeer (w : PoolWorld) (addr : SockAddr) (addEvent : Rc) :
    Rc × PeerConnection × KeepaliveConf × Cycle :=
  keepaliveGetPeer addEvent { sockaddr := some addr } w.kc w.cy

/-- `ngx_http_php_keepalive_free_peer` for a peer with connection `c`. -/
def PoolWorld.freePeer (w : PoolWorld) (r : ReqId) (c : ConnId) (addr : SockAddr)
    (readEvent : Rc) : PeerConnection × KeepaliveConf × Cycle :=
  keepaliveFreePeer readEvent r { connection := some c, sockaddr := some addr } w.kc w.cy

def PoolWorld.step (w : PoolWorld) : PoolCall → PoolWorld
  | .getConnection c => { w with cy := w.cy.getConnection c }
  | .closeConnection c => { w with cy := w.cy.closeConnection .other c }
  | .getPeer r addr addEvent =>
    match w.getPeer addr addEvent with
    | (_, pc, kc, cy) =>
      match pc.connection with
      | none => { kc, cy }
      | some c => { kc, cy := cy.modify c fun k => k.attach r }
  | .freePeer r c addr readEvent =>
    match w.freePeer r c addr readEvent with
    | (_, kc, cy) => { kc, cy }
  | .closeHandler c closing peekAgain readEvent =>
    match keepaliveCloseHandler closing peekAgain readEvent c w.kc w.cy with
    | (kc, cy) => { kc, cy }

instance KeepaliveConf.decidableHolds (kc : KeepaliveConf) (c : ConnId) : Decidable (kc.Holds c) :=
  inferInstanceAs (Decidable (∃ i ∈ kc.cacheSlots, (kc.cached i).connection = some c))

/-- nginx hands out closed structures only, owners close what they have and not what is
in the pool, and the event loop runs the read handler of an open connection. -/
def PoolWorld.Enabled (w : PoolWorld) : PoolCall → Prop
  | .getConnection c => (w.cy.connections c).isOpen = false
  | .closeConnection c => ¬ w.kc.Holds c
  | .getPeer _ _ _ => True
  | .freePeer _ c _ _ => (w.cy.connections c).isOpen = true ∧ ¬ w.kc.Holds c
  | .closeHandler c _ _ _ =>
    (w.cy.connections c).isOpen = true ∧ (w.cy.connections c).read.handler = .keepaliveClose

instance PoolWorld.decidableEnabled (w : PoolWorld) (l : PoolCall) : Decidable (w.Enabled l) := by
  cases l <;> unfold PoolWorld.Enabled <;> infer_instance

/-- Each slot is in exactly one queue, the cached slots hold different connections, and
the pool has closed none of them. -/
structure PoolWorld.WellFormed (w : PoolWorld) : Prop where
  rep : w.kc.Rep w.kc.cacheSlots w.kc.freeSlots
  lengths : w.kc.cacheSlots.length + w.kc.freeSlots.length = w.kc.maxCached
  filled : w.kc.entries.length = w.kc.cacheSlots.length
  distinct : (w.kc.entries.map Prod.fst).Nodup
  isOpen : ∀ e ∈ w.kc.entries, (w.cy.connections e.1).isOpen = true

/-- What a call has to do to the list of entries. -/
def PoolWorld.Refines (w : PoolWorld) : PoolCall → Prop
  | .getConnection c => (w.step (.getConnection c)).kc.entries = w.kc.entries
  | .closeConnection c => (w.step (.closeConnection c)).kc.entries = w.kc.entries
  | .getPeer r addr addEvent =>
    match Mru.take addr w.kc.entries with
    | (none, _) => w.getPeer addr addEvent = (.ok, { sockaddr := some addr }, w.kc, w.cy)
    | (some c, rest) =>
      (w.getPeer addr addEvent).1 = (if addEvent = .error then .error else .done) ∧
        (w.getPeer addr addEvent).2.1.connection = some c ∧
        (w.step (.getPeer r addr addEvent)).kc.entries = rest
  | .freePeer r c addr readEvent =>
    let w' := w.step (.freePeer r c addr readEvent)
    if readEvent = .ok then
      match Mru.put w.kc.maxCached (c, addr) w.kc.entries with
      | (dropped, l) => w'.kc.entries = l ∧
        w'.cy.acts = .keep r w.kc.id c :: poolCloseActs w.kc.id dropped ++ w.cy.acts ∧
        ∀ d ∈ dropped, (w'.cy.connections d).isOpen = false
    else w' = w
  | .closeHandler c closing peekAgain readEvent =>
    let w' := w.step (.closeHandler c closing peekAgain readEvent)
    if staysCached closing peekAgain readEvent then w'.kc = w.kc ∧ w'.cy.acts = w.cy.acts
    else w'.kc.entries = Mru.drop c w.kc.entries ∧
      w'.cy.acts = poolCloseActs w.kc.id (some c) ++ w.cy.acts ∧
      (w'.cy.connections c).isOpen = false

/-- The invariant of the machine: the pool is represented by `cache` and `free`, and the
close handler is installed on pooled connections only. -/
structure PoolWorld.Inv (w : PoolWorld) (cache free : List Nat) : Prop where
  pool : PoolInv w.kc w.cy cache free
  positive : 0 < w.kc.maxCached
  handled : ∀ c, (w.cy.connections c).isOpen = true →
    (w.cy.connections c).read.handler = .keepaliveClose → w.kc.Holds c

namespace PoolWorld.Inv

variable {w : PoolWorld} {cache free : List Nat}

/-- The entries of a represented pool are what `WellFormed` asks for. -/
theorem wellFormed (h : w.Inv cache free) : w.WellFormed where
  rep := by
    rw [h.pool.cacheSlots_eq, h.pool.freeSlots_eq]
    exact h.pool.toRep
  lengths := by
    rw [h.pool.cacheSlots_eq, h.pool.freeSlots_eq]
    exact h.pool.length
  filled := by rw [h.pool.length_entries, h.pool.cacheSlots_eq]
  distinct := by
    have hnd : cache.Nodup := h.pool.nodup.sublist (List.sublist_append_left _ _)
    rw [h.pool.entries_eq, List.nodup_iff_pairwise_ne, List.pairwise_map, List.pairwise_filterMap]
    refine hnd.pairwise_of_forall_ne fun i hi j hj hij => ?_
    obtain ⟨c, hc, _, hci⟩ := h.pool.slotEntry_eq hi
    obtain ⟨d, hd, _, hdj⟩ := h.pool.slotEntry_eq hj
    rintro _ he _ he' hcd
    rw [hci, Option.some.injEq] at he
    rw [hdj, Option.some.injEq] at he'
    subst he he'
    exact hij (h.pool.slot_unique hi hj (by rw [hc, hd]; exact congrArg some hcd))
  isOpen := by
    intro e he
    obtain ⟨i, hi, hc, _⟩ := h.pool.mem_entries he
    obtain ⟨c, hc', hk⟩ := h.pool.conn i hi
    obtain rfl : c = e.1 := Option.some.inj (hc'.symm.trans hc)
    exact hk.isOpen

/-- Opening a connection does not touch the pool: its connections are open already. -/
theorem step_getConnection (h : w.Inv cache free) {c : ConnId}
    (hc : w.Enabled (.getConnection c)) :
    (w.step (.getConnection c)).Inv cache free ∧ w.Refines (.getConnection c) := by
  have hclosed : (w.cy.connections c).isOpen = false := hc
  refine ⟨⟨h.pool.congr ?_, h.positive, ?_⟩, rfl⟩
  · intro i hi d hd
    have hdc : d ≠ c := by
      rintro rfl
      obtain ⟨e, he, hk⟩ := h.pool.conn i hi
      obtain rfl : e = d := Option.some.inj (he.symm.trans hd)
      simp [hk.isOpen] at hclosed
    rw [step, Cycle.getConnection, Cycle.modify_of_ne _ _ hdc]
    exact .refl _
  · intro d ho hr
    by_cases hdc : d = c
    · subst hdc
      simp [step, Cycle.getConnection] at hr
    · simp only [step, Cycle.getConnection, Cycle.modify_of_ne _ _ hdc] at ho hr
      exact h.handled d ho hr

/-- An owner that closes its connection does not touch the pool. -/
theorem step_closeConnection (h : w.Inv cache free) {c : ConnId}
    (hc : w.Enabled (.closeConnection c)) :
    (w.step (.closeConnection c)).Inv cache free ∧ w.Refines (.closeConnection c) := by
  have hnot : ¬ w.kc.Holds c := hc
  refine ⟨⟨h.pool.congr ?_, h.positive, ?_⟩, rfl⟩
  · intro i hi d hd
    have hdc : d ≠ c := by
      rintro rfl
      exact hnot ((h.pool.holds_iff d).mpr ⟨i, hi, hd⟩)
    rw [step, Cycle.closeConnection_of_ne _ _ hdc]
    exact .refl _
  · intro d ho hr
    by_cases hdc : d = c
    · subst hdc
      simp [step, Cycle.closeConnection_isOpen] at ho
    · simp only [step, Cycle.closeConnection_of_ne _ _ hdc] at ho hr
      exact h.handled d ho hr

/-- `ngx_http_php_keepalive_get_peer` takes the first entry for its address. -/
theorem step_getPeer (h : w.Inv cache free) (r : ReqId) (addr : SockAddr) (addEvent : Rc) :
    (∃ cache' free', (w.step (.getPeer r addr addEvent)).Inv cache' free') ∧
      w.Refines (.getPeer r addr addEvent) := by
  rcases keepaliveGetPeer_cases h.pool addEvent { sockaddr := some addr } with
    ⟨hmiss, hres⟩ | ⟨pre, i, post, c, rfl, hpre, hi, hc, hres⟩
  · have hres' : w.getPeer addr addEvent = (.ok, { sockaddr := some addr }, w.kc, w.cy) := hres
    have htake : Mru.take addr w.kc.entries = (none, w.kc.entries) := by
      refine Mru.take_of_forall_ne fun e he => ?_
      obtain ⟨j, hj, _, hs⟩ := h.pool.mem_entries he
      exact hs ▸ hmiss j hj
    refine ⟨⟨cache, free, ?_⟩, ?_⟩
    · simpa only [step, hres'] using h
    · simp only [Refines, htake, hres']
  · have hres' : w.getPeer addr addEvent = _ := hres
    have hadd : ∀ d, (w.cy.connections d).SameUse
        ((if addEvent = .error then w.cy else w.cy.addReadEvent c).connections d) := by
      intro d
      split
      · exact .refl _
      · exact Cycle.addReadEvent_sameUse _ c d
    have hpool : PoolInv (w.step (.getPeer r addr addEvent)).kc
        (w.step (.getPeer r addr addEvent)).cy (pre ++ post) (i :: free) := by
      simp only [step, hres']
      refine h.pool.toFree hc fun d hd => ?_
      rw [Cycle.modify_of_ne _ _ hd]
      exact hadd d
    have hpre' : ∀ e ∈ pre.filterMap w.kc.slotEntry, e.2 ≠ addr := by
      intro e he
      obtain ⟨j, hj, _, hs⟩ := h.pool.mem_slotEntries (fun _ => List.mem_append_left _) he
      exact hs ▸ hpre j hj
    have htake : Mru.take addr w.kc.entries =
        (some c, pre.filterMap w.kc.slotEntry ++ post.filterMap w.kc.slotEntry) := by
      rw [h.pool.entries_split hc, show (w.kc.cached i).sockaddr = addr from hi]
      exact Mru.take_append_cons hpre'
    refine ⟨⟨pre ++ post, i :: free, hpool, ?_, ?_⟩, ?_⟩
    · simp only [step, hres']
      exact h.positive
    · intro d ho hr
      simp only [step, hres'] at hpool ho hr ⊢
      by_cases hdc : d = c
      · subst hdc
        simp [Connection.attach] at hr
      · rw [Cycle.modify_of_ne _ _ hdc] at ho hr
        have hd := h.handled d ((hadd d).isOpen ▸ ho) ((hadd d).read ▸ hr)
        exact (h.pool.holds_toFree hc hpool d).mpr ⟨hd, hdc⟩
    · have hent : (w.step (.getPeer r addr addEvent)).kc.entries =
          pre.filterMap w.kc.slotEntry ++ post.filterMap w.kc.slotEntry := by
        simp only [step, hres'] at hpool ⊢
        exact hpool.entries_toFree
      simp only [Refines, htake]
      exact ⟨by rw [hres'], by rw [hres'], hent⟩

/-- `ngx_http_php_keepalive_free_peer` puts its connection first and makes room for it. -/
theorem step_freePeer (h : w.Inv cache free) {r : ReqId} {c : ConnId} {addr : SockAddr}
    {readEvent : Rc} (hen : w.Enabled (.freePeer r c addr readEvent)) :
    (∃ cache' free', (w.step (.freePeer r c addr readEvent)).Inv cache' free') ∧
      w.Refines (.freePeer r c addr readEvent) := by
  obtain ⟨hopen, hnew⟩ : (w.cy.connections c).isOpen = true ∧ ¬ w.kc.Holds c := hen
  rcases keepaliveFreePeer_stores h.pool h.positive readEvent r
      { connection := some c, sockaddr := some addr } rfl hnew hopen with
    ⟨hev, hres⟩ | ⟨hev, i, cache', out, cy', hstores, hres⟩
  · have hres' : w.freePeer r c addr readEvent = _ := hres
    have hw : w.step (.freePeer r c addr readEvent) = w := by simp only [step, hres']
    refine ⟨⟨cache, free, by rw [hw]; exact h⟩, ?_⟩
    simp only [Refines, if_neg hev, hw]
  · have hres' : w.freePeer r c addr readEvent = _ := hres
    obtain ⟨free', hpool⟩ := hstores.pool
    have hput : Mru.put w.kc.maxCached (c, addr) w.kc.entries =
        (out, (c, addr) :: cache'.filterMap w.kc.slotEntry) := by
      have hlen := h.pool.length_entries
      rcases hstores.room with ⟨rfl, rfl, hlt⟩ | ⟨d, rfl, rfl, hd, hfull⟩
      · rw [← h.pool.entries_eq]
        exact Mru.put_of_lt (hlen ▸ hlt)
      · rw [hfull, h.pool.entries_split hd, List.filterMap_nil] at hlen
        rw [h.pool.entries_split hd]
        refine Mru.put_full (Nat.le_of_eq ?_)
        rw [← hlen, List.length_append]
        rfl
    refine ⟨⟨i :: cache', free', ?_, ?_, ?_⟩, ?_⟩
    · simp only [step, hres']
      exact hpool.record _
    · simp only [step, hres']
      exact h.positive
    · intro d ho hr
      simp only [step, hres'] at ho hr ⊢
      refine (hstores.holds d).mpr ?_
      by_cases hdc : d = c
      · exact Or.inl hdc
      · have hout : d ∉ out := fun hd => by
          rw [Cycle.record_connections, hstores.closed d hd] at ho
          cases ho
        have hs := hstores.others d hdc hout
        exact Or.inr ⟨h.handled d (hs.isOpen ▸ ho) (hs.read ▸ hr), hout⟩
    · simp only [Refines, if_pos hev, hput]
      simp only [step, hres']
      exact ⟨hpool.entries_store, congrArg (List.cons _) hstores.acts, hstores.closed⟩

/-- `ngx_http_php_keepalive_close_handler` removes the connection it closes. -/
theorem step_closeHandler (h : w.Inv cache free) {c : ConnId} {closing peekAgain : Bool}
    {readEvent : Rc} (hen : w.Enabled (.closeHandler c closing peekAgain readEvent)) :
    (∃ cache' free', (w.step (.closeHandler c closing peekAgain readEvent)).Inv cache' free') ∧
      w.Refines (.closeHandler c closing peekAgain readEvent) := by
  obtain ⟨i, hi, hc⟩ := (h.pool.holds_iff c).mp (h.handled c hen.1 hen.2)
  obtain ⟨c', hc', hk⟩ := h.pool.conn i hi
  obtain rfl : c' = c := Option.some.inj (hc'.symm.trans hc)
  obtain ⟨cy₁, hacts, hsame, hres⟩ :=
    keepaliveCloseHandler_cases w.kc closing peekAgain readEvent hk.data
  by_cases hstay : staysCached closing peekAgain readEvent
  · rw [if_pos hstay] at hres
    refine ⟨⟨cache, free, ?_, ?_, ?_⟩, ?_⟩
    · simp only [step, hres]
      exact h.pool.congr fun _ _ d _ => hsame d
    · simp only [step, hres]
      exact h.positive
    · intro d ho hr
      simp only [step, hres] at ho hr ⊢
      exact h.handled d ((hsame d).isOpen ▸ ho) ((hsame d).read ▸ hr)
    · simp only [Refines, if_pos hstay, step, hres]
      exact ⟨trivial, hacts⟩
  · rw [if_neg hstay] at hres
    obtain ⟨pre, post, rfl⟩ := List.append_of_mem hi
    have hother : ∀ d, d ≠ c' → (w.cy.connections d).SameUse
        ((keepaliveClose w.kc.id c' cy₁).connections d) := by
      intro d hd
      rw [keepaliveClose_of_ne _ _ hd]
      exact hsame d
    have hpool : PoolInv (w.step (.closeHandler c' closing peekAgain readEvent)).kc
        (w.step (.closeHandler c' closing peekAgain readEvent)).cy (pre ++ post) (i :: free) := by
      simp only [step, hres]
      exact h.pool.toFree hc' hother
    have hdrop : Mru.drop c' w.kc.entries =
        pre.filterMap w.kc.slotEntry ++ post.filterMap w.kc.slotEntry := by
      rw [h.pool.entries_split hc']
      refine Mru.drop_append_cons fun e he => ?_
      obtain ⟨j, hj, hd, _⟩ := h.pool.mem_slotEntries (fun _ => List.mem_append_left _) he
      exact h.pool.ne_of_mem hc' (List.mem_append_left _ hj) hd
    refine ⟨⟨pre ++ post, i :: free, hpool, ?_, ?_⟩, ?_⟩
    · simp only [step, hres]
      exact h.positive
    · intro d ho hr
      simp only [step, hres] at hpool ho hr ⊢
      have hdc : d ≠ c' := by
        rintro rfl
        simp [keepaliveClose_isOpen] at ho
      have hold := h.handled d ((hother d hdc).isOpen ▸ ho) ((hother d hdc).read ▸ hr)
      exact (h.pool.holds_toFree hc' hpool d).mpr ⟨hold, hdc⟩
    · simp only [Refines, if_neg hstay, hdrop]
      simp only [step, hres] at hpool ⊢
      exact ⟨hpool.entries_toFree, by simp [poolCloseActs, keepaliveClose_acts, hacts],
        keepaliveClose_isOpen _ _ _⟩

/-- Every call keeps the invariant and does to the entries what it should. -/
theorem step_spec (h : w.Inv cache free) {l : PoolCall} (hen : w.Enabled l) :
    (∃ cache' free', (w.step l).Inv cache' free') ∧ w.Refines l := by
  cases l with
  | getConnection c =>
    obtain ⟨hinv, href⟩ := h.step_getConnection hen
    exact ⟨⟨_, _, hinv⟩, href⟩
  | closeConnection c =>
    obtain ⟨hinv, href⟩ := h.step_closeConnection hen
    exact ⟨⟨_, _, hinv⟩, href⟩
  | getPeer r addr addEvent => exact h.step_getPeer r addr addEvent
  | freePeer r c addr readEvent => exact h.step_freePeer hen
  | closeHandler c closing peekAgain readEvent => exact h.step_closeHandler hen

end PoolWorld.Inv

theorem PoolWorld.init_inv (p : SrvId) {n : Nat} (hn : 0 < n) :
    (PoolWorld.init p n).Inv [] (List.range n).reverse where
  pool := { keepaliveInit_rep p n with conn := by simp }
  positive := hn
  handled := by simp [PoolWorld.init]

private theorem keepaliveGetPeer_maxCached (addEvent : Rc) (pc : PeerConnection)
    (kc : KeepaliveConf) (cy : Cycle) :
    (keepaliveGetPeer addEvent pc kc cy).2.2.1.maxCached = kc.maxCached := by
  unfold keepaliveGetPeer
  split
  · rfl
  · dsimp only
    split
    · rfl
    · split <;> rfl

private theorem keepaliveCloseHandler_maxCached (closing peekAgain : Bool) (readEvent : Rc)
    (c : ConnId) (kc : KeepaliveConf) (cy : Cycle) :
    (keepaliveCloseHandler closing peekAgain readEvent c kc cy).1.maxCached = kc.maxCached := by
  unfold keepaliveCloseHandler
  dsimp only
  split
  · rfl
  · split <;> rfl

/-- No call changes the number of slots. -/
theorem PoolWorld.step_maxCached (w : PoolWorld) (l : PoolCall) :
    (w.step l).kc.maxCached = w.kc.maxCached := by
  cases l with
  | getConnection c => rfl
  | closeConnection c => rfl
  | getPeer r addr addEvent =>
    rw [← keepaliveGetPeer_maxCached addEvent { sockaddr := some addr } w.kc w.cy]
    simp only [step, getPeer]
    split <;> rfl
  | freePeer r c addr readEvent =>
    exact (keepaliveFreePeer_keeps readEvent r
      { connection := some c, sockaddr := some addr } w.kc w.cy).2
  | closeHandler c closing peekAgain readEvent =>
    exact keepaliveCloseHandler_maxCached closing peekAgain readEvent c w.kc w.cy

/-- In every run the pool stays well formed and follows the bounded list. -/
theorem keepalive_refines_mru (p : SrvId) {n : Nat} (hn : 1 ≤ n) {ls : List PoolCall}
    (hls : Along PoolWorld.step PoolWorld.Enabled (PoolWorld.init p n) ls) :
    (run PoolWorld.step (PoolWorld.init p n) ls).WellFormed ∧
      (run PoolWorld.step (PoolWorld.init p n) ls).kc.maxCached = n ∧
      Along PoolWorld.step PoolWorld.Refines (PoolWorld.init p n) ls := by
  have hinit : ∃ cache free, (PoolWorld.init p n).Inv cache free :=
    ⟨_, _, PoolWorld.init_inv p hn⟩
  have hstep : ∀ (w : PoolWorld) l, (∃ cache free, w.Inv cache free) → w.Enabled l →
      ∃ cache free, (w.step l).Inv cache free :=
    fun w l ⟨_, _, h⟩ hen => (h.step_spec hen).1
  obtain ⟨cache, free, hend⟩ := hls.invariant hstep hinit
  refine ⟨hend.wellFormed, ?_, ?_⟩
  · have hsize : ∀ (w : PoolWorld) l, w.kc.maxCached = n → (w.step l).kc.maxCached = n :=
      fun w l hw => (w.step_maxCached l).trans hw
    exact run_invariant hsize rfl ls
  · exact Along.transfer hstep (fun w l ⟨_, _, h⟩ hen => (h.step_spec hen).2) hinit hls

/-- A run in which storing evicts the older connection and taking finds the newer one. -/
theorem keepalive_refines_mru_evict :
    (run PoolWorld.step (PoolWorld.init 0 1) [.getConnection 3, .freePeer 1 3 [10, 1] .ok,
      .getConnection 4, .freePeer 2 4 [10, 2] .ok, .getPeer 5 [10, 2] .ok]).WellFormed :=
  (keepalive_refines_mru 0 (by decide) (by decide)).1

/-- A connection whose read event cannot be registered is not put into the pool. -/
theorem keepaliveFreePeer_unregistered :
    let w := run PoolWorld.step (PoolWorld.init 0 1) [.getConnection 3]
    w.Enabled (.freePeer 1 3 [10, 1] .error) ∧
      (w.step (.freePeer 1 3 [10, 1] .error)).kc.entries ≠
        (Mru.put 1 (3, [10, 1]) w.kc.entries).2 := by
  decide

end NgxPhp
