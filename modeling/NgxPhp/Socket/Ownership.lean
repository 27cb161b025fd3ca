import NgxPhp.Socket.Handover

/-!
# A request gives up only what it owns

`Sock.Good` is the invariant of one request's upstream among the pools of the
worker. Each change of hands keeps it, keeps what the record says about other
requests, and keeps the record lawful, except a finalize of a connection that
has been given up before.
-/

namespace NgxPhp

open Function (update)

/-- What the history of an upstream says about its connection: it is the one that the latest
connect of its resource was handed, until a finalize. -/
structure HeldInv (u : Upstream) (r : ReqId) (as : List Act) : Prop where
  held : ∀ s, u.holds = some s → ∃ c, u.peer.connection = some c ∧ owner as c = .request r s ∧
    opened as r s = some c
  dangling : u.holds = none → ∀ c, u.peer.connection = some c → ∀ s, owner as c ≠ .request r s

/-- The record says the same about what request `r` owns and has opened. -/
structure SameFor (r : ReqId) (as as' : List Act) : Prop where
  owner : ∀ c s, owner as' c = .request r s ↔ owner as c = .request r s
  opened : ∀ s, opened as' r s = opened as r s

theorem SameFor.refl (r : ReqId) (as : List Act) : SameFor r as as :=
  ⟨fun _ _ => Iff.rfl, fun _ => rfl⟩

theorem SameFor.trans {r : ReqId} {as as' as'' : List Act} (h : SameFor r as as')
    (g : SameFor r as' as'') : SameFor r as as'' where
  owner c s := (g.owner c s).trans (h.owner c s)
  opened s := (g.opened s).trans (h.opened s)

/-- The record says the same about requests other than `r`. -/
def OthersKeep (r : ReqId) (as as' : List Act) : Prop := ∀ r', r' ≠ r → SameFor r' as as'

theorem HeldInv.congr {u : Upstream} {r : ReqId} {as as' : List Act} (h : HeldInv u r as)
    (hs : SameFor r as as') : HeldInv u r as' where
  held s he := by
    obtain ⟨c, hc, hown, hop⟩ := h.held s he
    exact ⟨c, hc, (hs.owner c s).mpr hown, (hs.opened s).trans hop⟩
  dangling hn c hc s he := h.dangling hn c hc s ((hs.owner c s).mp he)

/-- The invariant of an upstream among the other pools of the worker. -/
structure Sock.Good (pools : SrvId → KeepaliveConf) (k : Sock) : Prop where
  net : NetInv (update pools k.kc.id k.kc) k.cy
  held : HeldInv k.u k.r k.cy.acts
  lawful : Lawful k.cy.acts

/-- A step of a socket function that keeps the invariant and the ownership of others. -/
structure Sock.Moves (pools : SrvId → KeepaliveConf) (k k' : Sock) : Prop where
  r : k'.r = k.r
  id : k'.kc.id = k.kc.id
  others : OthersKeep k.r k.cy.acts k'.cy.acts
  good : k'.Good pools

variable {pools : SrvId → KeepaliveConf} {k k' k'' : Sock}

theorem Sock.Moves.trans (h : k.Moves pools k') (g : k'.Moves pools k'') :
    k.Moves pools k'' where
  r := g.r.trans h.r
  id := g.id.trans h.id
  others r' hr := (h.others r' hr).trans (g.others r' (h.r ▸ hr))
  good := g.good

namespace Sock.Good

theorem pool_self (k : Sock) : update pools k.kc.id k.kc k.kc.id = k.kc := Function.update_self ..

theorem represented (h : k.Good pools) : k.kc.Represented k.cy := by
  have hr := h.net.represented k.kc.id
  rwa [pool_self] at hr

/-- What no pool owns is in none. -/
theorem not_holds (h : k.Good pools) {c : ConnId} (hc : ∀ p, owner k.cy.acts c ≠ .pool p) :
    ¬ k.kc.Holds c := by
  have hn := h.net.not_holds hc k.kc.id
  rwa [pool_self] at hn

/-- Transfers keep everything. -/
theorem quiet (h : k.Good pools) (hq : k.Quiet k') : k.Moves pools k' := by
  have hcy : (∀ d, (k.cy.connections d).SameUse (k'.cy.connections d)) ∧
      (∀ d, owner k'.cy.acts d = owner k.cy.acts d) ∧
      (∀ r s, opened k'.cy.acts r s = opened k.cy.acts r s) ∧
      (Lawful k'.cy.acts ↔ Lawful k.cy.acts) := by
    have hc := hq.cycle
    cases hcon : k.u.peer.connection with
    | none =>
      simp only [hcon] at hc
      rw [hc]
      exact ⟨fun _ => .refl _, fun _ => rfl, fun _ _ => rfl, Iff.rfl⟩
    | some c =>
      simp only [hcon] at hc
      exact ⟨hc.same, hc.owner_eq, hc.opened_eq, hc.lawful_iff⟩
  obtain ⟨hs, ho, hop, hl⟩ := hcy
  refine ⟨hq.r, congrArg _ hq.kc, fun _ _ => ⟨fun c s => by rw [ho], hop _⟩, ?_,
    ⟨?_, ?_⟩, hl.mpr h.lawful⟩
  · rw [hq.kc]
    exact h.net.quiet hs ho
  · intro s he
    rw [hq.holds] at he
    obtain ⟨c, hc, hown, hopen⟩ := h.held.held s he
    exact ⟨c, by rw [hq.peer]; exact hc, by rw [ho, hq.r]; exact hown,
      by rw [hop, hq.r]; exact hopen⟩
  · intro he c hc s
    rw [hq.holds] at he
    rw [hq.peer] at hc
    rw [ho, hq.r]
    exact h.held.dangling he c hc s

/-- A connect that stored nothing. -/
theorem keeps (h : k.Good pools) (hk : k.Keeps k') : k.Moves pools k' := by
  refine ⟨hk.r, congrArg _ hk.kc, hk.cy ▸ fun _ _ => .refl _ _, ?_, ⟨?_, ?_⟩, ?_⟩
  · rw [hk.kc, hk.cy]
    exact h.net
  · intro s he
    rcases hk.holds with hh | ⟨_, hh⟩
    · rw [hh] at he
      rw [hk.connection, hk.cy, hk.r]
      exact h.held.held s he
    · simp [hh] at he
  · intro he c hc s
    rw [hk.connection] at hc
    rw [hk.cy, hk.r]
    rcases hk.holds with hh | ⟨hn, _⟩
    · exact h.held.dangling (hh ▸ he) c hc s
    · simp [hn] at hc
  · rw [hk.cy]
    exact h.lawful

/-- A connect that opened a connection and closed it again. -/
theorem fails (h : k.Good pools) {s : Resource} {c : ConnId} (hf : k.Fails k' s c) :
    k.Moves pools k' := by
  have hfree : owner k.cy.acts c = .free := by
    by_contra hne
    have ho := (h.net.inUse c).mpr hne
    simp [hf.fresh] at ho
  have howner : ∀ d, owner k'.cy.acts d = owner k.cy.acts d := by
    intro d
    rw [hf.acts]
    by_cases hd : c = d
    · subst hd
      simp [owner, hfree]
    · simp [owner, hd]
  refine ⟨hf.r, congrArg _ hf.kc, fun r' hr => ⟨fun _ _ => by rw [howner], fun s' => ?_⟩, ?_,
    ⟨?_, ?_⟩, ?_⟩
  · rw [hf.acts]
    simp [opened, Ne.symm hr]
  · rw [hf.kc]
    refine h.net.change (h.net.not_holds (by simp [hfree])) hf.same (fun d _ => howner d) ?_ ?_ ?_
    · simp [hf.isOpen, howner, hfree]
    · simp [hf.isOpen]
    · simp [hf.isOpen]
  · simp [hf.holds]
  · simp [hf.connection]
  · rw [hf.acts]
    exact ⟨⟨s, by simp [owner]⟩, h.lawful⟩

/-- What a connect stores belonged to no request. -/
theorem not_request_of_stores (h : k.Good pools) {s : Resource} {c : ConnId}
    (hst : k.Stores k' s c) (r' : ReqId) (s' : Resource) :
    owner k.cy.acts c ≠ .request r' s' := by
  intro he
  rcases hst.source with ⟨_, hclosed⟩ | hg
  · have ho := (h.net.inUse c).mpr (by simp [he])
    simp [hclosed] at ho
  · have hp := h.net.pooled k.kc.id c
    rw [pool_self] at hp
    simp [hp hg.held] at he

/-- What the pool closes for another connection belonged to it. -/
theorem owner_of_pools (h : k.Good pools) {c : ConnId} {out : Option ConnId}
    (hp : k.Pools k' c out) {d : ConnId} (hd : d ∈ out) : owner k.cy.acts d = .pool k.kc.id := by
  have hpool := h.net.pooled k.kc.id d
  rw [pool_self] at hpool
  exact hpool (hp.held d hd)

/-- A connect that stored a connection. -/
theorem stores (h : k.Good pools) {s : Resource} {c : ConnId} (hst : k.Stores k' s c) :
    k.Moves pools k' := by
  have hother : ∀ d, d ≠ c → owner k'.cy.acts d = owner k.cy.acts d := by
    intro d hd
    rw [hst.owner_eq, if_neg (Ne.symm hd)]
  have hself : owner k'.cy.acts c = .request k.r s := by rw [hst.owner_eq, if_pos rfl]
  have hid : k'.kc.id = k.kc.id := by
    rcases hst.source with ⟨hkc, _⟩ | hg
    · rw [hkc]
    · exact hg.id
  have hopen : (k'.cy.connections c).isOpen = true ↔ owner k'.cy.acts c ≠ .free := by
    simp [hst.serves.isOpen, hself]
  have hclose : (k'.cy.connections c).isOpen = true →
      (k'.cy.connections c).read.handler ≠ .keepaliveClose := by
    simp [hst.serves.read]
  have hdata : ∀ r', (k'.cy.connections c).isOpen = true →
      (k'.cy.connections c).data = .upstream r' → ∃ t, owner k'.cy.acts c = .request r' t := by
    intro r' _ hd
    obtain rfl : k.r = r' := by simpa [hst.serves.data] using hd
    exact ⟨s, hself⟩
  refine ⟨hst.r, hid, fun r' hr => ⟨fun d s' => ?_, fun s' => ?_⟩, ?_, ⟨?_, ?_⟩, ?_⟩
  · by_cases hd : d = c
    · subst hd
      rw [hself]
      constructor
      · intro he
        exact absurd (by simpa using he : k.r = r' ∧ s = s').1.symm hr
      · exact fun he => absurd he (h.not_request_of_stores hst r' s')
    · rw [hother d hd]
  · rw [hst.opened_eq, if_neg fun he => hr he.1.symm]
  · rcases hst.source with ⟨hkc, hclosed⟩ | hg
    · rw [hkc]
      refine h.net.change ?_ hst.same hother hopen hclose hdata
      intro p hp
      obtain ⟨i, hi⟩ := (h.net.represented p).cachedAs hp
      simp [hi.isOpen] at hclosed
    · rw [hid]
      have hg' : (update pools k.kc.id k.kc k.kc.id).GivesUp k'.kc k.cy c := by
        rw [pool_self]
        exact hg
      simpa using h.net.leave hg' hst.same hother hopen hclose hdata
  · intro s' he
    obtain rfl : s = s' := by simpa [hst.holds] using he
    exact ⟨c, hst.connection, by rw [hst.r]; exact hself, by rw [hst.opened_eq, hst.r]; simp⟩
  · simp [hst.holds]
  · exact hst.lawful_iff.mpr h.lawful

/-- A finalize that closed the request's own connection. -/
theorem closes (h : k.Good pools) {s : Resource} {c : ConnId}
    (hown : owner k.cy.acts c = .request k.r s) (hcl : k.Closes k' c)
    (hholds : k'.u.holds = none) : k.Moves pools k' := by
  have hself : owner k'.cy.acts c = .free := by rw [hcl.owner_eq, if_pos rfl]
  refine ⟨hcl.r, congrArg _ hcl.kc, fun r' hr => ⟨fun d s' => ?_, fun s' => ?_⟩, ?_, ⟨?_, ?_⟩, ?_⟩
  · rw [hcl.owner_eq]
    split
    · next hd =>
      subst hd
      simp [hown, Ne.symm hr]
    · rfl
  · rcases hcl.acts with ha | ha <;> rw [ha] <;> rfl
  · rw [hcl.kc]
    refine h.net.change (h.net.not_holds (by simp [hown])) hcl.same ?_ ?_ ?_ ?_
    · intro d hd
      rw [hcl.owner_eq, if_neg (Ne.symm hd)]
    · simp [hcl.isOpen, hself]
    · simp [hcl.isOpen]
    · simp [hcl.isOpen]
  · simp [hholds]
  · intro _ d hd s'
    obtain rfl : c = d := by simpa [hcl.connection] using hd
    simp [hself]
  · rcases hcl.acts with ha | ha <;> rw [ha]
    · exact ⟨⟨s, hown⟩, h.lawful⟩
    · exact ⟨⟨s, hown⟩, ⟨s, hown⟩, h.lawful⟩

/-- A finalize that put the request's own connection into the pool. -/
theorem pooled (h : k.Good pools) {s : Resource} {c : ConnId} {out : Option ConnId}
    (hown : owner k.cy.acts c = .request k.r s) (hp : k.Pools k' c out)
    (hholds : k'.u.holds = none) : k.Moves pools k' := by
  have hnot : ¬ k.kc.Holds c := h.not_holds (by simp [hown])
  have hcout : c ∉ out := fun hm => hnot (hp.held c hm)
  refine ⟨hp.r, hp.id, fun r' hr => ⟨fun d s' => ?_, fun s' => ?_⟩, ?_, ⟨?_, ?_⟩, ?_⟩
  · rw [hp.owner_eq]
    split
    · next hd =>
      subst hd
      simp [hown, Ne.symm hr]
    · split
      · next hd => simp [h.owner_of_pools hp hd]
      · rfl
  · rw [hp.acts]
    exact opened_poolCloseActs _ _ _ _ _
  · rw [hp.id]
    have henter := h.net.enter (p := k.kc.id) hp.id hp.represented
      (by rw [pool_self]; exact hp.held) (h.net.not_holds (by simp [hown]))
      (by rw [pool_self]; exact hp.pool) hp.same hp.isOpen hp.owner_eq
    simpa using henter
  · simp [hholds]
  · simp [hp.connection]
  · rw [hp.acts]
    refine ⟨⟨s, ?_⟩, (lawful_poolCloseActs _ _ _).mpr h.lawful⟩
    exact (owner_poolCloseActs _ _ _ _).trans ((if_neg hcout).trans hown)

/-- A connect keeps the invariant, whatever comes of it. -/
theorem opens (h : k.Good pools) {s : Resource} (ho : k.Opens s k') : k.Moves pools k' := by
  cases ho with
  | keeps hk => exact h.keeps hk
  | fails c hf => exact h.fails hf
  | stores c hs => exact h.stores hs

/-- A clear of the request's own connection keeps the invariant. -/
theorem releases (h : k.Good pools) (hr : k.Releases k') : k.Moves pools k' := by
  cases hr with
  | keeps hk => exact h.keeps hk
  | closes s c hown hcl hholds => exact h.closes hown.owner hcl hholds
  | pools s c out hown hp hholds => exact h.pooled hown.owner hp hholds

end Sock.Good

/-- A clear finds no connection or one that has not been given up. -/
def Upstream.OwnsPeer (u : Upstream) : Prop := u.peer.connection = none ∨ u.holds ≠ none

instance Upstream.decidableOwnsPeer (u : Upstream) : Decidable u.OwnsPeer :=
  inferInstanceAs (Decidable (_ ∨ _))

/-- A clear gives up the request's own connection or none, unless it was given up before. -/
theorem Sock.Good.clear_releases (h : k.Good pools) (readEvent : Rc) (hown : k.u.OwnsPeer) :
    k.Releases (socketClear readEvent k) := by
  unfold socketClear
  cases hc : k.u.peer.connection with
  | none => exact .keeps (.refl k)
  | some c =>
    obtain ⟨s, hs⟩ : ∃ s, k.u.holds = some s := by
      rcases hown with hn | hn
      · simp [hn] at hc
      · exact Option.ne_none_iff_exists'.mp hn
    obtain ⟨d, hd, ho, _⟩ := h.held.held s hs
    obtain rfl : d = c := Option.some.inj (hd.symm.trans hc)
    have hopen := (h.net.inUse d).mpr (by simp [ho])
    have hnot : ¬ k.kc.Holds d := h.not_holds (by simp [ho])
    rcases socketFinalize_cases (k := k.onUpstream fun u => { u with enabledReceive := false })
        h.represented readEvent hd hnot hopen with hcl | ⟨out, hp⟩
    · refine .closes s d ⟨hs, hd, ho⟩ ⟨hcl.r, hcl.kc, hcl.connection, hcl.acts, hcl.same,
        hcl.isOpen⟩ (socketFinalize_holds _ _)
    · refine .pools s d out ⟨hs, hd, ho⟩ ⟨hp.r, hp.connection, hp.id, hp.represented, hp.held,
        hp.pool, hp.acts, hp.same, hp.isOpen⟩ (socketFinalize_holds _ _)

private theorem reserve_acts (kc : KeepaliveConf) (cy : Cycle) :
    ∃ out, (kc.reserve cy).2.acts = poolCloseActs kc.id out ++ cy.acts := by
  unfold KeepaliveConf.reserve
  split
  · split
    · split
      · next c _ => exact ⟨some c, by simp [poolCloseActs, keepaliveClose_acts]⟩
      · exact ⟨none, rfl⟩
    · exact ⟨none, rfl⟩
  · exact ⟨none, rfl⟩

/-- A finalize puts connection `c` of the peer into the pool. -/
def Sock.Frees (k : Sock) (readEvent : Rc) (c : ConnId) : Prop :=
  k.u.peer.connection = some c ∧ k.u.peer.data.isSome = true ∧
    k.u.peer.sockaddr.isSome = true ∧ k.kc.maxCached ≠ 0 ∧ readEvent = .ok

instance Sock.decidableFrees (k : Sock) (readEvent : Rc) (c : ConnId) :
    Decidable (k.Frees readEvent c) :=
  inferInstanceAs (Decidable (_ ∧ _))

/-- What `u->peer.free` records, on any pool. -/
private theorem freePeer_acts {k : Sock} (readEvent : Rc) {c : ConnId}
    (hc : k.u.peer.connection = some c) : (k.freePeer readEvent).r = k.r ∧
    (((k.freePeer readEvent).u.peer.connection = some c ∧
        (k.freePeer readEvent).cy.acts = k.cy.acts) ∨
      ((k.freePeer readEvent).u.peer.connection = none ∧ k.Frees readEvent c ∧ ∃ out,
        (k.freePeer readEvent).cy.acts =
          .keep k.r k.kc.id c :: poolCloseActs k.kc.id out ++ k.cy.acts)) := by
  unfold Sock.freePeer socketFreePeer
  split
  · next hset =>
    obtain ⟨hdata, haddr⟩ := Bool.and_eq_true_iff.mp hset
    refine ⟨rfl, ?_⟩
    by_cases hmax : k.kc.maxCached ≠ 0
    · rw [if_pos hmax, keepaliveFreePeer, hc]
      dsimp only
      by_cases hev : readEvent ≠ .ok
      · rw [if_pos hev]
        exact Or.inl ⟨hc, rfl⟩
      · rw [if_neg hev]
        obtain ⟨out, hout⟩ := reserve_acts k.kc (k.cy.handleReadEvent c)
        split
        · next he =>
          rw [he] at hout
          exact Or.inr ⟨rfl, ⟨hc, hdata, haddr, hmax, not_not.mp hev⟩, out, congrArg _ hout⟩
        · exact Or.inl ⟨hc, rfl⟩
    · rw [if_neg hmax]
      exact Or.inl ⟨hc, rfl⟩
  · exact ⟨rfl, Or.inl ⟨hc, rfl⟩⟩

/-- What a finalize records, whoever owns the connection of the peer. -/
theorem socketFinalize_acts (readEvent : Rc) {c : ConnId} (hc : k.u.peer.connection = some c) :
    (socketFinalize readEvent k).cy.acts = .close (.request k.r) c :: k.cy.acts ∨
    (socketFinalize readEvent k).cy.acts =
      .close (.request k.r) c :: .destroyPool (.request k.r) c :: k.cy.acts ∨
    (k.Frees readEvent c ∧ ∃ out, (socketFinalize readEvent k).cy.acts =
      .keep k.r k.kc.id c :: poolCloseActs k.kc.id out ++ k.cy.acts) := by
  have hpeer : (k.onUpstream (·.cancelQuery)).u.peer = k.u.peer := by simp [Sock.onUpstream]
  have hc₁ : (k.onUpstream (·.cancelQuery)).u.peer.connection = some c := by rw [hpeer, hc]
  have hfrees : (k.onUpstream (·.cancelQuery)).Frees readEvent c → k.Frees readEvent c := by
    unfold Sock.Frees
    rw [hpeer]
    exact id
  have hr₁ : (k.onUpstream (·.cancelQuery)).r = k.r := rfl
  have hkc₁ : (k.onUpstream (·.cancelQuery)).kc = k.kc := rfl
  have hcy₁ : (k.onUpstream (·.cancelQuery)).cy = k.cy := rfl
  unfold socketFinalize
  generalize k.onUpstream (·.cancelQuery) = k₁ at hc₁ hfrees hr₁ hkc₁ hcy₁
  obtain ⟨hr, ⟨hc', ha⟩ | ⟨hc', hf, out, ha⟩⟩ := freePeer_acts readEvent hc₁
  · generalize k₁.freePeer readEvent = k₂ at hr hc' ha
    simp only [Sock.closeConnection, Sock.onUpstream, hc', Sock.onCycle, hr, hr₁]
    rw [← hcy₁, ← ha]
    exact (k₂.cy.release_acts (.request k.r) c).imp_right Or.inl
  · generalize k₁.freePeer readEvent = k₂ at hr hc' ha
    simp only [Sock.closeConnection, Sock.onUpstream, hc']
    rw [hr₁, hkc₁, hcy₁] at ha
    exact Or.inr (Or.inr ⟨hfrees hf, out, ha⟩)

/-- A finalize of a connection that the request does not own breaks the law. -/
theorem socketFinalize_unlawful (readEvent : Rc) {c : ConnId}
    (hc : k.u.peer.connection = some c) (ho : ∀ s, owner k.cy.acts c ≠ .request k.r s) :
    ¬ Lawful (socketFinalize readEvent k).cy.acts := by
  rcases socketFinalize_acts readEvent hc with ha | ha | ⟨_, out, ha⟩
  · rw [ha]
    exact fun hl => hl.1.elim ho
  · rw [ha]
    exact fun hl => hl.1.elim ho
  · rw [ha]
    intro hl
    obtain ⟨s, hs⟩ := hl.1
    have hs : owner (poolCloseActs k.kc.id out ++ k.cy.acts) c = .request k.r s := hs
    rw [owner_poolCloseActs] at hs
    split at hs
    · simp at hs
    · exact ho s hs

/-- A clear of a connection that has been given up breaks the law. -/
theorem Sock.Good.clear_unlawful (h : k.Good pools) (readEvent : Rc) (hown : ¬ k.u.OwnsPeer) :
    ¬ Lawful (socketClear readEvent k).cy.acts := by
  rw [Upstream.OwnsPeer, not_or, not_not] at hown
  obtain ⟨hc, hn⟩ := hown
  obtain ⟨c, hc⟩ := Option.ne_none_iff_exists'.mp hc
  unfold socketClear
  rw [hc]
  exact socketFinalize_unlawful readEvent hc (h.held.dangling hn c hc)

end NgxPhp
