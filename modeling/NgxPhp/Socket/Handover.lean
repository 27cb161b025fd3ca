import NgxPhp.Keepalive.Exchange
import NgxPhp.Socket.Frame

/-!
# Connections change hands

A connect leaves the connections as they are, opens and closes one again, or
stores one in the peer. A finalize closes the connection of the peer or puts it
into the pool. These are all the ways in which the socket functions of a request
change the owner of a connection.
-/

namespace NgxPhp

/-- Every connection that a request gives up is its own at that time. -/
def Lawful : List Act → Prop
  | [] => True
  | .close (.request r) c :: as => (∃ s, owner as c = .request r s) ∧ Lawful as
  | .destroyPool (.request r) c :: as => (∃ s, owner as c = .request r s) ∧ Lawful as
  | .keep r _ c :: as => (∃ s, owner as c = .request r s) ∧ Lawful as
  | _ :: as => Lawful as

instance Owner.decidableRequest (o : Owner) (r : ReqId) : Decidable (∃ s, o = .request r s) :=
  match o with
  | .free => isFalse (by simp)
  | .request r' s => decidable_of_iff (r' = r) (by simp)
  | .pool _ => isFalse (by simp)
  | .other => isFalse (by simp)

instance decidableLawful : ∀ as, Decidable (Lawful as)
  | [] => isTrue trivial
  | a :: as => by
    have := decidableLawful as
    cases a with
    | destroyPool who c => cases who <;> unfold Lawful <;> infer_instance
    | close who c => cases who <;> unfold Lawful <;> infer_instance
    | _ => unfold Lawful; infer_instance

/-- Transfers give up nothing. -/
theorem lawful_append_transfers {new as : List Act} {c : ConnId}
    (h : ∀ a ∈ new, a.IsTransferOn c) : Lawful (new ++ as) ↔ Lawful as := by
  refine iff_of_eq (Ledger.apply_append (f := Lawful) (fun a ha as => ?_) h as)
  rcases ha with ⟨b, n, rfl⟩ | rfl <;> rfl

/-- What happens to other connections does not change whether the record is lawful. -/
theorem Cycle.Quiet.lawful_iff {cy cy' : Cycle} {c : ConnId} (h : cy.Quiet cy' c) :
    Lawful cy'.acts ↔ Lawful cy.acts := by
  obtain ⟨new, hnew, ht⟩ := h.acts
  rw [hnew]
  exact lawful_append_transfers ht

/-- The pools close their own connections. -/
theorem lawful_poolCloseActs (p : SrvId) (out : Option ConnId) (as : List Act) :
    Lawful (poolCloseActs p out ++ as) ↔ Lawful as := by
  cases out <;> rfl

/-- A pool that closes a connection leaves it free, and the others as they were. -/
theorem owner_poolCloseActs (p : SrvId) (out : Option ConnId) (as : List Act) (d : ConnId) :
    owner (poolCloseActs p out ++ as) d = if d ∈ out then .free else owner as d := by
  cases out with
  | none => simp [poolCloseActs]
  | some e =>
    by_cases he : e = d
    · simp [poolCloseActs, owner, he]
    · simp [poolCloseActs, owner, he]

/-- What a pool closes was opened by nobody. -/
theorem opened_poolCloseActs (p : SrvId) (out : Option ConnId) (as : List Act) (r : ReqId)
    (s : Resource) : opened (poolCloseActs p out ++ as) r s = opened as r s := by
  cases out <;> rfl

/-- Connection `m` serves request `r`. -/
structure Connection.Serves (m : Connection) (r : ReqId) : Prop where
  isOpen : m.isOpen = true
  data : m.data = .upstream r
  read : m.read.handler = .phpSocket
  write : m.write.handler = .phpSocket

/-- A connection that is used as before serves the same request. -/
theorem Connection.Serves.of_sameUse {m m' : Connection} {r : ReqId} (h : m.Serves r)
    (hs : m.SameUse m') : m'.Serves r where
  isOpen := hs.isOpen.trans h.isOpen
  data := hs.data.trans h.data
  read := hs.read.trans h.read
  write := hs.write.trans h.write

/-! ## Connecting -/

/-- The connect stored nothing and opened nothing. -/
structure Sock.Keeps (k k' : Sock) : Prop where
  r : k'.r = k.r
  kc : k'.kc = k.kc
  cy : k'.cy = k.cy
  connection : k'.u.peer.connection = k.u.peer.connection
  holds : k'.u.holds = k.u.holds ∨ (k.u.peer.connection = none ∧ k'.u.holds = none)

/-- The connect opened `c` and closed it again. -/
structure Sock.Fails (k k' : Sock) (s : Resource) (c : ConnId) : Prop where
  r : k'.r = k.r
  kc : k'.kc = k.kc
  connection : k'.u.peer.connection = none
  holds : k'.u.holds = none
  fresh : (k.cy.connections c).isOpen = false
  acts : k'.cy.acts = .close (.request k.r) c :: .get k.r s c :: k.cy.acts
  same : ∀ d, d ≠ c → (k.cy.connections d).SameUse (k'.cy.connections d)
  isOpen : (k'.cy.connections c).isOpen = false

/-- The connect for resource `s` stored `c`, which was free or in the pool. -/
structure Sock.Stores (k k' : Sock) (s : Resource) (c : ConnId) : Prop where
  r : k'.r = k.r
  connection : k'.u.peer.connection = some c
  holds : k'.u.holds = some s
  acts : ∃ new, (∀ a ∈ new, a.IsTransferOn c) ∧ (k'.cy.acts = new ++ .get k.r s c :: k.cy.acts ∨
    k'.cy.acts = new ++ .take k.r s c :: k.cy.acts)
  same : ∀ d, d ≠ c → (k.cy.connections d).SameUse (k'.cy.connections d)
  serves : (k'.cy.connections c).Serves k.r
  source : (k'.kc = k.kc ∧ (k.cy.connections c).isOpen = false) ∨ k.kc.GivesUp k'.kc k.cy c

/-- What a connect for resource `s` does to the connections. -/
inductive Sock.Opens (s : Resource) (k k' : Sock) : Prop
  | keeps (h : k.Keeps k')
  | fails (c : ConnId) (h : k.Fails k' s c)
  | stores (c : ConnId) (h : k.Stores k' s c)

namespace Sock.Stores

variable {k k' : Sock} {s : Resource} {c : ConnId}

/-- A connect that stores a connection makes the request its owner. -/
theorem owner_eq (h : k.Stores k' s c) (d : ConnId) :
    owner k'.cy.acts d = if c = d then .request k.r s else owner k.cy.acts d := by
  obtain ⟨new, ht, ha | ha⟩ := h.acts
  · rw [ha, owner_append_transfers ht]
    rfl
  · rw [ha, owner_append_transfers ht]
    rfl

/-- A connect that stores a connection has opened it for its resource. -/
theorem opened_eq (h : k.Stores k' s c) (r' : ReqId) (s' : Resource) :
    opened k'.cy.acts r' s' = if k.r = r' ∧ s = s' then some c else opened k.cy.acts r' s' := by
  obtain ⟨new, ht, ha | ha⟩ := h.acts
  · rw [ha, opened_append_transfers ht]
    rfl
  · rw [ha, opened_append_transfers ht]
    rfl

/-- A connect that stores a connection gives up none. -/
theorem lawful_iff (h : k.Stores k' s c) : Lawful k'.cy.acts ↔ Lawful k.cy.acts := by
  obtain ⟨new, ht, ha | ha⟩ := h.acts
  · rw [ha, lawful_append_transfers ht]
    exact Iff.rfl
  · rw [ha, lawful_append_transfers ht]
    exact Iff.rfl

end Sock.Stores

namespace Sock.Keeps

variable {k k' k'' : Sock}

theorem refl (k : Sock) : k.Keeps k := ⟨rfl, rfl, rfl, rfl, Or.inl rfl⟩

/-- Two parts of a connect that store nothing store nothing together. -/
theorem trans (h : k.Keeps k') (g : k'.Keeps k'') : k.Keeps k'' where
  r := g.r.trans h.r
  kc := g.kc.trans h.kc
  cy := g.cy.trans h.cy
  connection := g.connection.trans h.connection
  holds := by
    rcases g.holds with hg | ⟨hn, hg⟩
    · rw [hg]
      exact h.holds
    · exact Or.inr ⟨h.connection.symm.trans hn, hg⟩

/-- A change of the upstream that leaves its connection alone stores nothing. -/
theorem onUpstream (k : Sock) {f : Upstream → Upstream}
    (hp : (f k.u).peer.connection = k.u.peer.connection) (hh : (f k.u).holds = k.u.holds) :
    k.Keeps (k.onUpstream f) := ⟨rfl, rfl, rfl, hp, Or.inl hh⟩

/-- The resolved addresses are set without a connection. -/
theorem setResolved (k : Sock) (ur : Resolved) : k.Keeps (k.setResolved ur) :=
  .onUpstream k rfl rfl

/-- A query of the resolver is noted without a connection. -/
theorem addQuery (k : Sock) (q : Query) : k.Keeps (k.addQuery q) := .onUpstream k rfl rfl

/-- Fields of the upstream that are set before a connect do not matter to it. -/
theorem trans_opens {s : Resource} (h : k.Keeps k') (g : k'.Opens s k'') : k.Opens s k'' := by
  cases g with
  | keeps g => exact .keeps (h.trans g)
  | fails c g =>
    refine .fails c ⟨g.r.trans h.r, g.kc.trans h.kc, g.connection, g.holds, ?_, ?_, ?_, g.isOpen⟩
    · exact h.cy ▸ g.fresh
    · rw [g.acts, h.r, h.cy]
    · exact h.cy ▸ g.same
  | stores c g =>
    refine .stores c ⟨g.r.trans h.r, g.connection, g.holds, ?_, ?_, ?_, ?_⟩
    · have hacts := g.acts
      rwa [h.r, h.cy] at hacts
    · exact h.cy ▸ g.same
    · exact h.r ▸ g.serves
    · have hsource := g.source
      rwa [h.kc, h.cy] at hsource

end Sock.Keeps

/-- The end of a connect changes only the connection that it has stored. -/
theorem finishConnect_quiet (ans : RetvalAnswers) (rc : Rc) {c : ConnId} {k : Sock}
    (hc : k.u.peer.connection = some c) : k.Quiet (finishConnect ans rc c k).2 := by
  have hcreate : ∀ cy : Cycle, cy.Quiet (cy.createPool c) c :=
    fun cy => .of_sameUse (cy.createPool_sameUse c) rfl
  have hwrite : ∀ cy : Cycle, cy.Quiet (cy.handleWriteEvent c) c :=
    fun cy => .of_sameUse (cy.handleWriteEvent_sameUse c) rfl
  have hread : ∀ cy : Cycle, cy.Quiet (cy.handleReadEvent c) c :=
    fun cy => .of_sameUse (cy.handleReadEvent_sameUse c) rfl
  have hadd : ∀ (cy : Cycle) n, cy.Quiet (cy.addWriteTimer c n) c :=
    fun cy n => .of_sameUse (fun d => cy.addWriteTimer_sameUse c d n) rfl
  unfold finishConnect
  dsimp only
  split
  · exact .refl k
  · split
    · split
      · exact .of_conn hc rfl rfl rfl rfl (hcreate _)
      · split
        · exact .of_conn hc rfl rfl rfl rfl ((hcreate _).trans (hwrite _))
        · exact .of_conn hc rfl rfl rfl rfl (((hcreate _).trans (hwrite _)).trans (hread _))
    · split
      · exact .of_conn hc rfl rfl rfl rfl ((hcreate _).trans (hadd _ _))
      · exact .of_conn hc rfl rfl rfl rfl (hcreate _)

/-- The four results of `ngx_event_connect_peer`. -/
theorem eventConnectPeer_cases {kc : KeepaliveConf} {cy : Cycle} (h : kc.Represented cy)
    (ans : RetvalAnswers) (r : ReqId) (s : Resource) (pc : PeerConnection) :
    (∃ rc, (rc = .error ∨ rc = .busy) ∧ eventConnectPeer ans r s pc kc cy = (rc, pc, kc, cy)) ∨
    (∃ c rc, ans.conn? = some c ∧ (rc = .error ∨ rc = .declined) ∧
      eventConnectPeer ans r s pc kc cy = (rc, { pc with connection := none }, kc,
        ((cy.getConnection c).record (.get r s c)).closeConnection (.request r) c)) ∨
    (∃ c rc done, ans.conn? = some c ∧ (rc = .ok ∨ rc = .again) ∧
      eventConnectPeer ans r s pc kc cy = (rc, { pc with connection := some c }, kc,
        (cy.connectPeer c done).record (.get r s c))) ∨
    (∃ (c : ConnId) (kc' : KeepaliveConf) (cy' : Cycle), kc.GivesUp kc' cy c ∧
      cy'.acts = cy.acts ∧ (∀ d, (cy.connections d).SameUse (cy'.connections d)) ∧
      eventConnectPeer ans r s pc kc cy = (.done,
        { pc with connection := some c, cached := true }, kc', cy'.record (.take r s c))) := by
  have hmiss : socketGetPeer ans.addEvent pc kc cy = (.ok, pc, kc, cy) ∨
      ∃ (c : ConnId) (kc' : KeepaliveConf) (cy' : Cycle), kc.GivesUp kc' cy c ∧
        cy'.acts = cy.acts ∧ (∀ d, (cy.connections d).SameUse (cy'.connections d)) ∧
        socketGetPeer ans.addEvent pc kc cy =
          (.done, { pc with connection := some c, cached := true }, kc', cy') := by
    unfold socketGetPeer
    split
    · rcases h.getPeer ans.addEvent pc with hres | ⟨rc, c, kc', cy', hrc, hg, ha, hs, hres⟩
      · exact Or.inl (by rw [hres])
      · refine Or.inr ⟨c, kc', cy', hg, ha, hs, ?_⟩
        rw [hres]
        cases rc <;> first | rfl | exact absurd rfl hrc
    · exact Or.inl rfl
  rcases hmiss with hmiss | ⟨c, kc', cy', hg, ha, hs, hhit⟩
  · simp only [eventConnectPeer, hmiss, RetvalAnswers.conn?]
    cases hcon : ans.connect with
    | refused busy => exact Or.inl ⟨_, by cases busy <;> simp, rfl⟩
    | failed c declined =>
      exact Or.inr (Or.inl ⟨c, _, rfl, by cases declined <;> simp, rfl⟩)
    | established c => exact Or.inr (Or.inr (Or.inl ⟨c, _, true, rfl, Or.inl rfl, rfl⟩))
    | inProgress c => exact Or.inr (Or.inr (Or.inl ⟨c, _, false, rfl, Or.inr rfl, rfl⟩))
  · refine Or.inr (Or.inr (Or.inr ⟨c, kc', cy', hg, ha, hs, ?_⟩))
    simp only [eventConnectPeer, hhit]

/-- Adopting a connection and finishing the connect. -/
private theorem adopt_stores {k k₁ : Sock} (ans : RetvalAnswers) (rc : Rc) (s : Resource)
    {c : ConnId} (hr : k₁.r = k.r) (hc : k₁.u.peer.connection = some c)
    (hacts : k₁.cy.acts = .get k.r s c :: k.cy.acts ∨ k₁.cy.acts = .take k.r s c :: k.cy.acts)
    (hsame : ∀ d, d ≠ c → (k.cy.connections d).SameUse (k₁.cy.connections d))
    (hopen : (k₁.cy.connections c).isOpen = true)
    (hsrc : (k₁.kc = k.kc ∧ (k.cy.connections c).isOpen = false) ∨ k.kc.GivesUp k₁.kc k.cy c) :
    k.Stores (finishConnect ans rc c (k₁.adopt s c)).2 s c := by
  have hq : (k₁.adopt s c).Quiet _ := finishConnect_quiet ans rc hc
  have hcy := hq.cycle
  rw [show (k₁.adopt s c).u.peer.connection = some c from hc] at hcy
  have hcy : (k₁.adopt s c).cy.Quiet _ c := hcy
  obtain ⟨new, hnew, ht⟩ := hcy.acts
  have hself : ((k₁.adopt s c).cy.connections c).Serves k.r := by
    rw [Sock.adopt, Cycle.modify_self, hr]
    exact ⟨hopen, rfl, rfl, rfl⟩
  refine ⟨hq.r.trans hr, ?_, hq.holds, ⟨new, ht, ?_⟩, ?_, hself.of_sameUse (hcy.same c), ?_⟩
  · rw [hq.peer]
    exact hc
  · rcases hacts with ha | ha
    · exact Or.inl (by rw [hnew, ← ha]; rfl)
    · exact Or.inr (by rw [hnew, ← ha]; rfl)
  · intro d hd
    refine ((hsame d hd).trans ?_).trans (hcy.same d)
    rw [Sock.adopt, Cycle.modify_of_ne _ _ hd]
    exact .refl _
  · rw [hq.kc]
    exact hsrc

/-- A connection that is connected is open. -/
theorem Cycle.connectPeer_self (cy : Cycle) (c : ConnId) (done : Bool) :
    ((cy.connectPeer c done).connections c).isOpen = true := by
  simp [connectPeer, getConnection]

/-- A connect of the peer changes only its own connection. -/
theorem Cycle.connectPeer_of_ne (cy : Cycle) {c d : ConnId} (done : Bool) (h : d ≠ c) :
    (cy.connectPeer c done).connections d = cy.connections d := by
  rw [connectPeer, modify_of_ne _ _ h, getConnection, modify_of_ne _ _ h]

/-- The results of `ngx_http_php_socket_resolve_retval_handler`. -/
theorem resolveRetvalHandler_opens {k : Sock} (h : k.kc.Represented k.cy)
    (ans : RetvalAnswers) (s : Resource) (hf : k.cy.Fresh ans.conn?) :
    k.Opens s (resolveRetvalHandler ans s k).2 := by
  unfold resolveRetvalHandler
  cases k.u.resolved.bind (·.sockaddr) with
  | none => exact .keeps (.refl k)
  | some addr =>
    dsimp only
    rcases eventConnectPeer_cases h ans k.r s
        { k.u.peer with sockaddr := some addr, data := some k.kc.id } with
      ⟨rc, hrc, hres⟩ | ⟨c, rc, hc, hrc, hres⟩ | ⟨c, rc, done, hc, hrc, hres⟩ |
      ⟨c, kc', cy', hg, ha, hs, hres⟩
    · have hfail : rc = .error ∨ rc = .busy ∨ rc = .declined := by
        rcases hrc with rfl | rfl <;> simp
      rw [hres]
      dsimp only
      rw [if_pos hfail]
      refine .keeps ⟨rfl, rfl, rfl, rfl, ?_⟩
      cases hcon : k.u.peer.connection with
      | none => exact Or.inr ⟨rfl, by simp [Sock.withPeer]⟩
      | some c => exact Or.inl (by simp [Sock.withPeer])
    · have hfail : rc = .error ∨ rc = .busy ∨ rc = .declined := by
        rcases hrc with rfl | rfl <;> simp
      have hfresh : (k.cy.connections c).isOpen = false := hf c hc
      rw [hres]
      dsimp only
      rw [if_pos hfail]
      refine .fails c ⟨rfl, rfl, rfl, rfl, hfresh, ?_, ?_, ?_⟩
      · exact Cycle.closeConnection_acts _ _ _
      · intro d hd
        rw [Sock.withPeer, Cycle.closeConnection_of_ne _ _ hd, Cycle.record_connections,
          Cycle.getConnection, Cycle.modify_of_ne _ _ hd]
        exact .refl _
      · exact Cycle.closeConnection_isOpen _ _ _
    · have hok : ¬ (rc = .error ∨ rc = .busy ∨ rc = .declined) := by
        rcases hrc with rfl | rfl <;> simp
      have hfresh : (k.cy.connections c).isOpen = false := hf c hc
      rw [hres]
      dsimp only
      rw [if_neg hok]
      refine .stores c (adopt_stores ans rc s ?_ ?_ (Or.inl ?_) ?_ ?_ (Or.inl ⟨?_, hfresh⟩))
      · rfl
      · rfl
      · rfl
      · intro d hd
        rw [Sock.withPeer, Cycle.record_connections, Cycle.connectPeer_of_ne _ _ hd]
        exact .refl _
      · exact k.cy.connectPeer_self c done
      · rfl
    · obtain ⟨i, hi⟩ := h.cachedAs hg.held
      rw [hres]
      dsimp only
      rw [if_neg (by simp)]
      refine .stores c (adopt_stores ans .done s ?_ ?_ (Or.inr ?_) ?_ ?_ (Or.inr ?_))
      · rfl
      · rfl
      · rw [Sock.withPeer, Cycle.record_acts, ha]
      · exact fun d _ => hs d
      · exact (hs c).isOpen.trans hi.isOpen
      · exact hg

/-- The resolver's answer opens at most one connection, which it stores or closes. -/
theorem resolveHandler_opens {k : Sock} (h : k.kc.Represented k.cy) (ans : ResolveAnswers)
    (s : Resource) (hf : k.cy.Fresh ans.retval.conn?) : k.Opens s (resolveHandler ans s k) := by
  unfold resolveHandler
  split
  · exact .keeps (.refl k)
  · split
    · exact .keeps (.refl k)
    · dsimp only
      split
      · exact .keeps (.refl k)
      · exact (Sock.Keeps.setResolved k _).trans_opens
          (resolveRetvalHandler_opens (k := k.setResolved _) h ans.retval s hf)

/-- A connect opens at most one connection, which it stores or closes. -/
theorem socketConnect_opens {k : Sock} (h : k.kc.Represented k.cy) (ans : ConnectAnswers)
    (s : Resource) (port : Nat) (hf : k.cy.Fresh ans.conn?) :
    k.Opens s (socketConnect ans s port k).2 := by
  have hprep : k.Keeps (k.onUpstream (·.prepare k.r)) := .onUpstream k rfl rfl
  refine hprep.trans_opens ?_
  have h : (k.onUpstream (·.prepare k.r)).kc.Represented (k.onUpstream (·.prepare k.r)).cy := h
  have hf : (k.onUpstream (·.prepare k.r)).cy.Fresh ans.conn? := hf
  unfold socketConnect
  generalize k.onUpstream (·.prepare k.r) = k₁ at h hf
  unfold ConnectAnswers.conn? at hf
  cases hurl : ans.parseUrl with
  | error => exact .keeps (.refl _)
  | address addr =>
    rw [hurl] at hf
    exact (Sock.Keeps.setResolved k₁ _).trans_opens
      (resolveRetvalHandler_opens (k := k₁.setResolved _) h ans.retval s hf)
  | name =>
    cases ans.resolveStart with
    | null => exact .keeps (.setResolved _ _)
    | noResolver => exact .keeps (.setResolved _ _)
    | started id =>
      cases hname : ans.resolveName with
      | error => exact .keeps (.setResolved _ _)
      | pending => exact .keeps ((Sock.Keeps.setResolved k₁ _).trans (.addQuery _ _))
      | resolved res =>
        rw [hurl, hname] at hf
        exact (Sock.Keeps.setResolved k₁ _).trans_opens
          (resolveHandler_opens (k := k₁.setResolved _) h res s hf)

/-! ## Finalizing -/

/-- The connection `c` of the peer was closed, and the peer still points to it. -/
structure Sock.Closes (k k' : Sock) (c : ConnId) : Prop where
  r : k'.r = k.r
  kc : k'.kc = k.kc
  connection : k'.u.peer.connection = some c
  acts : k'.cy.acts = .close (.request k.r) c :: k.cy.acts ∨
    k'.cy.acts = .close (.request k.r) c :: .destroyPool (.request k.r) c :: k.cy.acts
  same : ∀ d, d ≠ c → (k.cy.connections d).SameUse (k'.cy.connections d)
  isOpen : (k'.cy.connections c).isOpen = false

/-- The connection `c` of the peer was put into the pool, which closed `out`. -/
structure Sock.Pools (k k' : Sock) (c : ConnId) (out : Option ConnId) : Prop where
  r : k'.r = k.r
  connection : k'.u.peer.connection = none
  id : k'.kc.id = k.kc.id
  represented : k'.kc.Represented k'.cy
  held : ∀ d ∈ out, k.kc.Holds d
  pool : ∀ d, k'.kc.Holds d ↔ d = c ∨ (k.kc.Holds d ∧ d ∉ out)
  acts : k'.cy.acts = .keep k.r k.kc.id c :: poolCloseActs k.kc.id out ++ k.cy.acts
  same : ∀ d, d ≠ c → d ∉ out → (k.cy.connections d).SameUse (k'.cy.connections d)
  isOpen : ∀ d ∈ out, (k'.cy.connections d).isOpen = false

/-- A connection that is closed belongs to nobody. -/
theorem Sock.Closes.owner_eq {k k' : Sock} {c : ConnId} (h : k.Closes k' c) (d : ConnId) :
    owner k'.cy.acts d = if c = d then .free else owner k.cy.acts d := by
  rcases h.acts with ha | ha <;> rw [ha] <;> rfl

/-- A connection that is pooled belongs to the pool, and the one that it drives out to nobody. -/
theorem Sock.Pools.owner_eq {k k' : Sock} {c : ConnId} {out : Option ConnId}
    (h : k.Pools k' c out) (d : ConnId) :
    owner k'.cy.acts d =
      if d = c then .pool k.kc.id else if d ∈ out then .free else owner k.cy.acts d := by
  rw [h.acts]
  by_cases hd : d = c
  · simp [owner, hd]
  · simp [owner, Ne.symm hd, hd, owner_poolCloseActs]

/-- Connection `c` of the peer belongs to resource `s` of the request. -/
structure Sock.Owns (k : Sock) (s : Resource) (c : ConnId) : Prop where
  holds : k.u.holds = some s
  connection : k.u.peer.connection = some c
  owner : owner k.cy.acts c = .request k.r s

/-- What a clear does to the connections. -/
inductive Sock.Releases (k k' : Sock) : Prop
  | keeps (h : k.Keeps k')
  | closes (s : Resource) (c : ConnId) (hown : k.Owns s c) (h : k.Closes k' c)
      (hholds : k'.u.holds = none)
  | pools (s : Resource) (c : ConnId) (out : Option ConnId) (hown : k.Owns s c)
      (h : k.Pools k' c out) (hholds : k'.u.holds = none)

@[simp] theorem Upstream.cancelQuery_peer (u : Upstream) : u.cancelQuery.peer = u.peer := by
  unfold cancelQuery
  split
  · rfl
  · split <;> rfl

/-- A release closes the connection, and its memory pool before if there is one. -/
theorem Cycle.release_acts (cy : Cycle) (who : Party) (c : ConnId) :
    (cy.release who c).acts = .close who c :: cy.acts ∨
      (cy.release who c).acts = .close who c :: .destroyPool who c :: cy.acts := by
  unfold release
  split
  · exact Or.inr (closeConnection_acts _ _ _)
  · exact Or.inl (closeConnection_acts _ _ _)

/-- A release changes only its own connection. -/
theorem Cycle.release_of_ne (cy : Cycle) (who : Party) {c d : ConnId} (h : d ≠ c) :
    (cy.release who c).connections d = cy.connections d := by
  unfold release
  rw [closeConnection_of_ne _ _ h]
  split
  · rw [dropPool, modify_of_ne _ _ h, destroyPool_connections]
  · rfl

/-- A connection that is released is closed. -/
theorem Cycle.release_isOpen (cy : Cycle) (who : Party) (c : ConnId) :
    ((cy.release who c).connections c).isOpen = false :=
  closeConnection_isOpen _ _ _

/-- The call of `u->peer.free` changes nothing or puts the connection into the pool. -/
private theorem freePeer_cases (k : Sock) (h : k.kc.Represented k.cy) (readEvent : Rc)
    {c : ConnId} (hc : k.u.peer.connection = some c) (hnew : ¬ k.kc.Holds c)
    (hopen : (k.cy.connections c).isOpen = true) :
    ((k.freePeer readEvent).r = k.r ∧ (k.freePeer readEvent).kc = k.kc ∧
      (k.freePeer readEvent).cy = k.cy ∧ (k.freePeer readEvent).u.peer.connection = some c) ∨
    ∃ out, k.Pools (k.freePeer readEvent) c out := by
  unfold Sock.freePeer socketFreePeer
  split
  · by_cases hmax : k.kc.maxCached ≠ 0
    · rw [if_pos hmax]
      rcases h.freePeer hmax readEvent k.r k.u.peer hc hnew hopen with
        hres | ⟨kc', cy', out, hres, hid, hrep, hheld, hpool, ha, hs, ho⟩
      · rw [hres]
        exact Or.inl ⟨rfl, rfl, rfl, hc⟩
      · rw [hres]
        exact Or.inr ⟨out, rfl, rfl, hid, hrep, hheld, hpool, ha, hs, ho⟩
    · rw [if_neg hmax]
      exact Or.inl ⟨rfl, rfl, rfl, hc⟩
  · exact Or.inl ⟨rfl, rfl, rfl, hc⟩

@[simp] theorem Sock.closeConnection_holds (k : Sock) :
    k.closeConnection.u.holds = k.u.holds := by
  unfold closeConnection
  split <;> rfl

/-- A finalize gives the connection up. -/
@[simp] theorem socketFinalize_holds (readEvent : Rc) (k : Sock) :
    (socketFinalize readEvent k).u.holds = none := by
  rw [socketFinalize, Sock.closeConnection_holds]
  rfl

/-- The two results of `ngx_http_php_socket_finalize` on an open connection of the peer. -/
theorem socketFinalize_cases {k : Sock} (h : k.kc.Represented k.cy) (readEvent : Rc)
    {c : ConnId} (hc : k.u.peer.connection = some c) (hnew : ¬ k.kc.Holds c)
    (hopen : (k.cy.connections c).isOpen = true) :
    k.Closes (socketFinalize readEvent k) c ∨
      ∃ out, k.Pools (socketFinalize readEvent k) c out := by
  have hc₁ : (k.onUpstream (·.cancelQuery)).u.peer.connection = some c := by
    simpa [Sock.onUpstream] using hc
  unfold socketFinalize
  rcases freePeer_cases (k.onUpstream (·.cancelQuery)) h readEvent hc₁ hnew hopen with
    ⟨hr, hkc, hcy, hc'⟩ | ⟨out, hp⟩
  · left
    generalize (k.onUpstream (·.cancelQuery)).freePeer readEvent = k₁ at hr hkc hcy hc'
    simp only [Sock.closeConnection, Sock.onUpstream, hc']
    refine ⟨hr, hkc, hc', ?_, ?_, Cycle.release_isOpen _ _ _⟩
    · simp only [Sock.onCycle, hcy, hr]
      exact k.cy.release_acts _ c
    · intro d hd
      simp only [Sock.onCycle, hcy, Cycle.release_of_ne _ _ hd]
      exact .refl _
  · right
    generalize (k.onUpstream (·.cancelQuery)).freePeer readEvent = k₁ at hp
    have hc' : (k₁.onUpstream fun u => { u with holds := none }).u.peer.connection = none :=
      hp.connection
    refine ⟨out, ?_⟩
    simp only [Sock.closeConnection, hc']
    exact ⟨hp.r, hc', hp.id, hp.represented, hp.held, hp.pool, hp.acts, hp.same, hp.isOpen⟩

end NgxPhp
