import NgxPhp.Keepalive.Operations

/-!
# Pools among the connections of a worker

A worker has one pool for each server. `NetInv` says that the pools are
represented, that the record and the descriptors agree on which connections are
in use, and that exactly the connections in the pools belong to them. It is
kept whenever one connection changes hands.
-/

namespace NgxPhp

open Function (update)

variable {kc : KeepaliveConf} {cy cy' : Cycle}

/-- The pool satisfies its representation invariant. -/
def KeepaliveConf.Represented (kc : KeepaliveConf) (cy : Cycle) : Prop :=
  ∃ cache free, PoolInv kc cy cache free

theorem KeepaliveConf.Represented.congr (h : kc.Represented cy)
    (hs : ∀ d, kc.Holds d → (cy.connections d).SameUse (cy'.connections d)) :
    kc.Represented cy' := by
  obtain ⟨cache, free, h⟩ := h
  exact ⟨cache, free, h.congr fun i hi d hd => hs d ((h.holds_iff d).mpr ⟨i, hi, hd⟩)⟩

/-- A pooled connection is open and has the handlers of the pool. -/
theorem KeepaliveConf.Represented.cachedAs (h : kc.Represented cy) {c : ConnId}
    (hc : kc.Holds c) : ∃ i, (cy.connections c).CachedAs kc.id i := by
  obtain ⟨cache, free, h⟩ := h
  obtain ⟨i, hi, hic⟩ := (h.holds_iff c).mp hc
  obtain ⟨d, hd, hk⟩ := h.conn i hi
  obtain rfl : d = c := Option.some.inj (hd.symm.trans hic)
  exact ⟨i, hk⟩

/-- A pool `kc'` that has given up connection `c` of `kc`. -/
structure KeepaliveConf.GivesUp (kc kc' : KeepaliveConf) (cy : Cycle) (c : ConnId) : Prop where
  held : kc.Holds c
  id : kc'.id = kc.id
  holds : ∀ d, kc'.Holds d ↔ kc.Holds d ∧ d ≠ c
  represented : ∀ cy' : Cycle,
    (∀ d, d ≠ c → (cy.connections d).SameUse (cy'.connections d)) → kc'.Represented cy'

private theorem PoolInv.givesUp {pre post free : List Nat} {i : Nat} {c : ConnId}
    (h : PoolInv kc cy (pre ++ i :: post) free) (hc : (kc.cached i).connection = some c) :
    kc.GivesUp (kc.toFree i) cy c where
  held := (h.holds_iff c).mpr ⟨i, by simp, hc⟩
  id := rfl
  holds := h.holds_toFree hc (h.toFree hc fun _ _ => .refl _)
  represented _ hs := ⟨_, _, h.toFree hc hs⟩

/-- `ngx_http_php_keepalive_get_peer` changes nothing or hands over a pooled connection. -/
theorem KeepaliveConf.Represented.getPeer (h : kc.Represented cy) (addEvent : Rc)
    (pc : PeerConnection) :
    keepaliveGetPeer addEvent pc kc cy = (.ok, pc, kc, cy) ∨
    ∃ rc c kc' cy', rc ≠ .ok ∧ kc.GivesUp kc' cy c ∧ cy'.acts = cy.acts ∧
      (∀ d, (cy.connections d).SameUse (cy'.connections d)) ∧
      keepaliveGetPeer addEvent pc kc cy =
        (rc, { pc with connection := some c, cached := true }, kc', cy') := by
  obtain ⟨cache, free, h⟩ := h
  rcases keepaliveGetPeer_cases h addEvent pc with
    ⟨_, hres⟩ | ⟨pre, i, post, c, rfl, _, _, hc, hres⟩
  · exact Or.inl hres
  · refine Or.inr ⟨_, c, _, _, ?_, h.givesUp hc, ?_, ?_, hres⟩
    · split <;> simp
    · split <;> rfl
    · intro d
      split
      · exact .refl _
      · exact cy.addReadEvent_sameUse c d

/-- `ngx_http_php_keepalive_free_peer` changes nothing or stores its connection, for which
it may close another one. -/
theorem KeepaliveConf.Represented.freePeer (h : kc.Represented cy) (hmax : kc.maxCached ≠ 0)
    (readEvent : Rc) (r : ReqId) (pc : PeerConnection) {c : ConnId}
    (hc : pc.connection = some c) (hnew : ¬ kc.Holds c)
    (hopen : (cy.connections c).isOpen = true) :
    keepaliveFreePeer readEvent r pc kc cy = (pc, kc, cy) ∨
    ∃ kc' cy' out, keepaliveFreePeer readEvent r pc kc cy =
        ({ pc with connection := none }, kc', cy') ∧
      kc'.id = kc.id ∧ kc'.Represented cy' ∧ (∀ d ∈ out, kc.Holds d) ∧
      (∀ d, kc'.Holds d ↔ d = c ∨ (kc.Holds d ∧ d ∉ out)) ∧
      cy'.acts = .keep r kc.id c :: poolCloseActs kc.id out ++ cy.acts ∧
      (∀ d, d ≠ c → d ∉ out → (cy.connections d).SameUse (cy'.connections d)) ∧
      (∀ d ∈ out, (cy'.connections d).isOpen = false) := by
  obtain ⟨cache, free, h⟩ := h
  rcases keepaliveFreePeer_stores h (Nat.pos_of_ne_zero hmax) readEvent r pc hc hnew hopen with
    ⟨_, hres⟩ | ⟨_, i, cache', out, cy', hstores, hres⟩
  · exact Or.inl hres
  · obtain ⟨free', hpool⟩ := hstores.pool
    refine Or.inr ⟨_, _, out, hres, rfl, ⟨_, _, hpool.record _⟩, hstores.held, hstores.holds, ?_,
      hstores.others, hstores.closed⟩
    exact congrArg (List.cons _) hstores.acts

/-- `ngx_http_php_keepalive_close_handler` leaves the pool as it is or closes a connection
that leaves it. -/
theorem KeepaliveConf.Represented.closeHandler (h : kc.Represented cy) {c : ConnId}
    (hc : kc.Holds c) (closing peekAgain : Bool) (readEvent : Rc) :
    ∃ kc' cy', keepaliveCloseHandler closing peekAgain readEvent c kc cy = (kc', cy') ∧
      ((kc' = kc ∧ cy'.acts = cy.acts ∧
          ∀ d, (cy.connections d).SameUse (cy'.connections d)) ∨
        (kc.GivesUp kc' cy c ∧ cy'.acts = poolCloseActs kc.id (some c) ++ cy.acts ∧
          (∀ d, d ≠ c → (cy.connections d).SameUse (cy'.connections d)) ∧
          (cy'.connections c).isOpen = false)) := by
  obtain ⟨cache, free, h⟩ := h
  obtain ⟨i, hi, hic⟩ := (h.holds_iff c).mp hc
  obtain ⟨d, hd, hk⟩ := h.conn i hi
  obtain rfl : d = c := Option.some.inj (hd.symm.trans hic)
  obtain ⟨cy₁, hacts, hsame, hres⟩ :=
    keepaliveCloseHandler_cases kc closing peekAgain readEvent hk.data
  by_cases hstay : staysCached closing peekAgain readEvent
  · rw [if_pos hstay] at hres
    exact ⟨_, _, hres, Or.inl ⟨rfl, hacts, hsame⟩⟩
  · rw [if_neg hstay] at hres
    obtain ⟨pre, post, rfl⟩ := List.append_of_mem hi
    refine ⟨_, _, hres, Or.inr ⟨h.givesUp hd, ?_, ?_, keepaliveClose_isOpen _ _ _⟩⟩
    · simp [poolCloseActs, keepaliveClose_acts, hacts]
    · intro e he
      rw [keepaliveClose_of_ne _ _ he]
      exact hsame e

/-- The pools, the connection table and the record of a worker agree. -/
structure NetInv (pools : SrvId → KeepaliveConf) (cy : Cycle) : Prop where
  represented : ∀ p, (pools p).Represented cy
  ident : ∀ p, (pools p).id = p
  pooled : ∀ p c, (pools p).Holds c → owner cy.acts c = .pool p
  inUse : ∀ c, (cy.connections c).isOpen = true ↔ owner cy.acts c ≠ .free
  handled : ∀ c, (cy.connections c).isOpen = true →
    (cy.connections c).read.handler = .keepaliveClose → ∃ p, (pools p).Holds c
  attached : ∀ c r, (cy.connections c).isOpen = true →
    (cy.connections c).data = .upstream r → ∃ s, owner cy.acts c = .request r s

/-- Before the first connection. -/
theorem netInv_init (maxCached : SrvId → Nat) :
    NetInv (fun p => keepaliveInit p (maxCached p)) { connections := fun _ => {}, acts := [] } where
  represented p := ⟨_, _, { keepaliveInit_rep p (maxCached p) with conn := by simp }⟩
  ident _ := rfl
  pooled p c := by
    rintro ⟨i, hi, _⟩
    rw [(keepaliveInit_rep p (maxCached p)).cacheSlots_eq] at hi
    simp at hi
  inUse _ := by simp [owner]
  handled _ := by simp
  attached _ _ := by simp

namespace NetInv

variable {pools : SrvId → KeepaliveConf}

/-- No pool holds a connection that has another owner. -/
theorem not_holds (h : NetInv pools cy) {c : ConnId} (hc : ∀ p, owner cy.acts c ≠ .pool p)
    (p : SrvId) : ¬ (pools p).Holds c := fun hp => hc p (h.pooled p c hp)

/-- A pooled connection is in one pool only. -/
theorem holds_unique (h : NetInv pools cy) {p q : SrvId} {c : ConnId} (hp : (pools p).Holds c)
    (hq : (pools q).Holds c) : p = q := by
  have he : Owner.pool p = .pool q := (h.pooled p c hp).symm.trans (h.pooled q c hq)
  simpa using he

/-- Timers, flags and transfers are not seen. -/
theorem quiet (h : NetInv pools cy)
    (hs : ∀ d, (cy.connections d).SameUse (cy'.connections d))
    (ho : ∀ d, owner cy'.acts d = owner cy.acts d) : NetInv pools cy' where
  represented p := (h.represented p).congr fun d _ => hs d
  ident := h.ident
  pooled p c hc := (ho c).trans (h.pooled p c hc)
  inUse c := by rw [(hs c).isOpen, ho]; exact h.inUse c
  handled c ho hr := h.handled c ((hs c).isOpen ▸ ho) ((hs c).read ▸ hr)
  attached c r hopen hd := by
    rw [ho]
    exact h.attached c r ((hs c).isOpen ▸ hopen) ((hs c).data ▸ hd)

/-- A connection `c` that no pool holds is opened, closed or changes its owner. -/
theorem change {c : ConnId} (h : NetInv pools cy) (hc : ∀ p, ¬ (pools p).Holds c)
    (hs : ∀ d, d ≠ c → (cy.connections d).SameUse (cy'.connections d))
    (ho : ∀ d, d ≠ c → owner cy'.acts d = owner cy.acts d)
    (hopen : (cy'.connections c).isOpen = true ↔ owner cy'.acts c ≠ .free)
    (hclose : (cy'.connections c).isOpen = true →
      (cy'.connections c).read.handler ≠ .keepaliveClose)
    (hdata : ∀ r, (cy'.connections c).isOpen = true → (cy'.connections c).data = .upstream r →
      ∃ s, owner cy'.acts c = .request r s) : NetInv pools cy' where
  represented p := (h.represented p).congr fun d hd => hs d fun he => hc p (he ▸ hd)
  ident := h.ident
  pooled p d hd := (ho d fun he => hc p (he ▸ hd)).trans (h.pooled p d hd)
  inUse d := by
    by_cases hdc : d = c
    · exact hdc ▸ hopen
    · rw [(hs d hdc).isOpen, ho d hdc]
      exact h.inUse d
  handled d hd hr := by
    by_cases hdc : d = c
    · subst hdc
      exact absurd hr (hclose hd)
    · exact h.handled d ((hs d hdc).isOpen ▸ hd) ((hs d hdc).read ▸ hr)
  attached d r hd hu := by
    by_cases hdc : d = c
    · exact hdc ▸ hdata r (hdc ▸ hd) (hdc ▸ hu)
    · rw [ho d hdc]
      exact h.attached d r ((hs d hdc).isOpen ▸ hd) ((hs d hdc).data ▸ hu)

/-- A connection `c` leaves pool `p`. -/
theorem leave {p : SrvId} {kc : KeepaliveConf} {c : ConnId} (h : NetInv pools cy)
    (hg : (pools p).GivesUp kc cy c)
    (hs : ∀ d, d ≠ c → (cy.connections d).SameUse (cy'.connections d))
    (ho : ∀ d, d ≠ c → owner cy'.acts d = owner cy.acts d)
    (hopen : (cy'.connections c).isOpen = true ↔ owner cy'.acts c ≠ .free)
    (hclose : (cy'.connections c).isOpen = true →
      (cy'.connections c).read.handler ≠ .keepaliveClose)
    (hdata : ∀ r, (cy'.connections c).isOpen = true → (cy'.connections c).data = .upstream r →
      ∃ s, owner cy'.acts c = .request r s) :
    NetInv (update pools p kc) cy' := by
  have hother : ∀ q, q ≠ p → ¬ (pools q).Holds c :=
    fun q hq hc => hq (h.holds_unique hc hg.held)
  have hholds : ∀ q d, (update pools p kc q).Holds d ↔ (pools q).Holds d ∧ d ≠ c := by
    intro q d
    by_cases hq : q = p
    · subst hq
      rw [Function.update_self]
      exact hg.holds d
    · rw [Function.update_of_ne hq]
      exact ⟨fun hd => ⟨hd, fun he => hother q hq (he ▸ hd)⟩, fun hd => hd.1⟩
  refine ⟨?_, ?_, ?_, ?_, ?_, ?_⟩
  · exact (Function.forall_update_iff pools fun _ kc => kc.Represented cy').mpr
      ⟨hg.represented cy' hs, fun q hq => (h.represented q).congr fun d hd =>
        hs d fun he => hother q hq (he ▸ hd)⟩
  · exact (Function.forall_update_iff pools fun q kc => kc.id = q).mpr
      ⟨hg.id.trans (h.ident p), fun q _ => h.ident q⟩
  · intro q d hd
    obtain ⟨hd, hdc⟩ := (hholds q d).mp hd
    exact (ho d hdc).trans (h.pooled q d hd)
  · intro d
    by_cases hdc : d = c
    · exact hdc ▸ hopen
    · rw [(hs d hdc).isOpen, ho d hdc]
      exact h.inUse d
  · intro d hd hr
    by_cases hdc : d = c
    · subst hdc
      exact absurd hr (hclose hd)
    · obtain ⟨q, hq⟩ := h.handled d ((hs d hdc).isOpen ▸ hd) ((hs d hdc).read ▸ hr)
      exact ⟨q, (hholds q d).mpr ⟨hq, hdc⟩⟩
  · intro d r hd hu
    by_cases hdc : d = c
    · exact hdc ▸ hdata r (hdc ▸ hd) (hdc ▸ hu)
    · rw [ho d hdc]
      exact h.attached d r ((hs d hdc).isOpen ▸ hd) ((hs d hdc).data ▸ hu)

/-- A connection `c` of another owner enters pool `p`, which may close `out` for it. -/
theorem enter {p : SrvId} {kc : KeepaliveConf} {c : ConnId} {out : Option ConnId}
    (h : NetInv pools cy) (hid : kc.id = p) (hrep : kc.Represented cy')
    (hheld : ∀ d ∈ out, (pools p).Holds d) (hc : ∀ q, ¬ (pools q).Holds c)
    (hholds : ∀ d, kc.Holds d ↔ d = c ∨ ((pools p).Holds d ∧ d ∉ out))
    (hs : ∀ d, d ≠ c → d ∉ out → (cy.connections d).SameUse (cy'.connections d))
    (hout : ∀ d ∈ out, (cy'.connections d).isOpen = false)
    (ho : ∀ d, owner cy'.acts d =
      if d = c then .pool p else if d ∈ out then .free else owner cy.acts d) :
    NetInv (update pools p kc) cy' := by
  have hself : update pools p kc p = kc := Function.update_self ..
  have hkc : kc.Holds c := (hholds c).mpr (Or.inl rfl)
  have hother : ∀ q, q ≠ p → ∀ d, (pools q).Holds d → d ≠ c ∧ d ∉ out := fun q hq d hd =>
    ⟨fun he => hc q (he ▸ hd), fun hd' => hq (h.holds_unique hd (hheld d hd'))⟩
  obtain ⟨i, hci⟩ := hrep.cachedAs hkc
  refine ⟨?_, ?_, ?_, ?_, ?_, ?_⟩
  · exact (Function.forall_update_iff pools fun _ kc => kc.Represented cy').mpr
      ⟨hrep, fun q hq => (h.represented q).congr fun d hd =>
        hs d (hother q hq d hd).1 (hother q hq d hd).2⟩
  · exact (Function.forall_update_iff pools fun q kc => kc.id = q).mpr
      ⟨hid, fun q _ => h.ident q⟩
  · intro q d hd
    by_cases hq : q = p
    · subst hq
      rw [hself, hholds] at hd
      rcases hd with rfl | ⟨hd, hdout⟩
      · rw [ho, if_pos rfl]
      · have hdc : d ≠ c := fun he => hc q (he ▸ hd)
        rw [ho, if_neg hdc, if_neg hdout]
        exact h.pooled q d hd
    · rw [Function.update_of_ne hq] at hd
      rw [ho, if_neg (hother q hq d hd).1, if_neg (hother q hq d hd).2]
      exact h.pooled q d hd
  · intro d
    rw [ho]
    by_cases hdc : d = c
    · subst hdc
      simp [hci.isOpen]
    · rw [if_neg hdc]
      by_cases hdout : d ∈ out
      · simp [hdout, hout d hdout]
      · rw [if_neg hdout, (hs d hdc hdout).isOpen]
        exact h.inUse d
  · intro d hd hr
    by_cases hdc : d = c
    · exact ⟨p, by rw [hself, hdc]; exact hkc⟩
    · have hdout : d ∉ out := fun hm => by simp [hout d hm] at hd
      obtain ⟨q, hq⟩ := h.handled d ((hs d hdc hdout).isOpen ▸ hd) ((hs d hdc hdout).read ▸ hr)
      refine ⟨q, ?_⟩
      by_cases hqp : q = p
      · subst hqp
        rw [hself, hholds]
        exact Or.inr ⟨hq, hdout⟩
      · rw [Function.update_of_ne hqp]
        exact hq
  · intro d r hd hu
    by_cases hdc : d = c
    · subst hdc
      simp [hci.data] at hu
    · have hdout : d ∉ out := fun hm => by simp [hout d hm] at hd
      rw [ho, if_neg hdc, if_neg hdout]
      exact h.attached d r ((hs d hdc hdout).isOpen ▸ hd) ((hs d hdc hdout).data ▸ hu)

end NetInv

end NgxPhp
