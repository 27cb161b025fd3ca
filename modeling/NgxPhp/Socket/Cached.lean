import NgxPhp.Socket.Turnover

/-!
# The flag of a pooled connection

`peer->cached` is set where the pool hands over a connection and nowhere else, and no function
clears it. A connect therefore adds to it whether the pool has a slot for its address, which is
when the connection that it leaves in the peer was taken out of the pool.
-/

namespace NgxPhp

/-- The pool has a slot for the address of a connect. -/
def KeepaliveConf.found (kc : KeepaliveConf) (address : Option SockAddr) : Bool :=
  address.any fun addr => (kc.lookup addr).isSome

/-- From `k` to `k'` there was a connect, for which the pool had a slot if `hit`. -/
structure Sock.Flags (k k' : Sock) (hit : Bool) : Prop where
  r : k'.r = k.r
  cached : k'.u.peer.cached = (k.u.peer.cached || hit)
  acts : ∃ new, k'.cy.acts = new ++ k.cy.acts ∧
    ∀ c, k'.u.peer.connection = some c → (some c ∈ new.map Act.taken? ↔ hit = true)

/-- Nothing happened. -/
theorem Sock.Flags.refl (k : Sock) : k.Flags k false where
  r := rfl
  cached := (Bool.or_false _).symm
  acts := ⟨[], rfl, by simp⟩

/-- Fields that a connect sets first. -/
theorem Sock.Flags.of_onUpstream {k k' : Sock} {f : Upstream → Upstream} {hit : Bool}
    (h : (k.onUpstream f).Flags k' hit) (hp : (f k.u).peer = k.u.peer) : k.Flags k' hit where
  r := h.r
  cached := by
    rw [h.cached, Sock.onUpstream, hp]
  acts := h.acts

/-- The pool sets the flag with the connection of the slot. -/
theorem socketGetPeer_cached (addEvent : Rc) (pc : PeerConnection) {kc : KeepaliveConf}
    (cy : Cycle) {i : Nat} (hl : kc.lookup (pc.sockaddr.getD []) = some i) :
    (socketGetPeer addEvent pc kc cy).2.1.cached = true := by
  unfold KeepaliveConf.lookup at hl
  split at hl
  · next hmax =>
    simp only [socketGetPeer, if_pos hmax, keepaliveGetPeer, hl]
    by_cases hev : addEvent = .error
    · rw [if_pos hev]
    · rw [if_neg hev]
      cases (kc.cached i).connection with
      | none => rfl
      | some c => rfl
  · cases hl

/-- `ngx_event_connect_peer` sets the flag when the pool has a slot, and takes exactly then. -/
theorem eventConnectPeer_flags (ans : RetvalAnswers) (r : ReqId) (s : Resource)
    (pc : PeerConnection) (kc : KeepaliveConf) (cy : Cycle) :
    let res := eventConnectPeer ans r s pc kc cy
    let hit := (kc.lookup (pc.sockaddr.getD [])).isSome
    res.2.1.cached = (pc.cached || hit) ∧ ∃ new, res.2.2.2.acts = new ++ cy.acts ∧
      ∀ c, res.2.1.connection = some c → (some c ∈ new.map Act.taken? ↔ hit = true) := by
  dsimp only
  cases hl : kc.lookup (pc.sockaddr.getD []) with
  | none =>
    rw [eventConnectPeer, socketGetPeer_of_lookup ans.addEvent cy hl]
    cases ans.connect with
    | refused busy => exact ⟨by simp, [], rfl, by simp⟩
    | failed c declined =>
      refine ⟨by simp, [.close (.request r) c, .get r s c], by simp [Cycle.getConnection], ?_⟩
      simp
    | established c =>
      refine ⟨by simp, [.get r s c], by simp [Cycle.connectPeer, Cycle.getConnection], ?_⟩
      simp [Act.taken?]
    | inProgress c =>
      refine ⟨by simp, [.get r s c], by simp [Cycle.connectPeer, Cycle.getConnection], ?_⟩
      simp [Act.taken?]
  | some i =>
    have hcached := socketGetPeer_cached ans.addEvent pc cy hl
    obtain ⟨pc', kc', cy', hres, hpc, hcy⟩ := socketGetPeer_of_slot ans.addEvent pc cy hl
    have hacts : cy'.acts = cy.acts := by
      rcases hcy with rfl | ⟨d, rfl⟩
      · rfl
      · rfl
    rw [hres] at hcached
    rw [eventConnectPeer, hres]
    cases hcon : pc'.connection with
    | none =>
      refine ⟨?_, [], ?_, ?_⟩
      · simpa [hcon] using hcached
      · simpa [hcon] using hacts
      · simp [hcon]
    | some c =>
      refine ⟨?_, [.take r s c], ?_, ?_⟩
      · simpa [hcon] using hcached
      · simpa [hcon] using hacts
      · simp [hcon, Act.taken?]

theorem resolveRetvalHandler_flags (ans : RetvalAnswers) (s : Resource) (k : Sock) :
    k.Flags (resolveRetvalHandler ans s k).2
      (k.kc.found (k.u.resolved.bind (·.sockaddr))) := by
  unfold resolveRetvalHandler
  cases k.u.resolved.bind (·.sockaddr) with
  | none => exact .refl k
  | some addr =>
    dsimp only
    have hf := eventConnectPeer_flags ans k.r s
      { k.u.peer with sockaddr := some addr, data := some k.kc.id } k.kc k.cy
    generalize eventConnectPeer ans k.r s
      { k.u.peer with sockaddr := some addr, data := some k.kc.id } k.kc k.cy = res at hf
    obtain ⟨rc, peer, kc, cy⟩ := res
    dsimp only [Option.getD_some] at hf ⊢
    have hwith : k.Flags (k.withPeer peer kc cy) (k.kc.found (some addr)) := ⟨rfl, hf.1, hf.2⟩
    split
    · exact hwith
    · split
      · exact hwith
      · next c hc =>
        have hq : ((k.withPeer peer kc cy).adopt s c).Quiet _ := finishConnect_quiet ans rc hc
        refine ⟨hq.r, ?_, ?_⟩
        · rw [hq.peer]
          exact hwith.cached
        · rw [finishConnect_acts, hq.peer]
          exact hwith.acts

theorem resolveHandler_flags (ans : ResolveAnswers) (s : Resource) (k : Sock) :
    k.Flags (resolveHandler ans s k) (k.kc.found (ans.address k.u.resolved)) := by
  unfold resolveHandler
  by_cases hstate : ans.state ≠ 0
  · rw [if_pos hstate]
    cases k.u.resolved with
    | none => exact .refl k
    | some ur =>
      rw [ResolveAnswers.address, Option.bind_some, if_pos (Or.inl hstate)]
      exact .refl k
  · rw [if_neg hstate]
    cases hur : k.u.resolved with
    | none => exact .refl k
    | some ur =>
      dsimp only
      by_cases htext : (!ans.textAllocated) = true
      · rw [if_pos htext, ResolveAnswers.address, Option.bind_some, if_pos (Or.inr htext)]
        exact .refl k
      · have haddr : ans.address (some ur) = some (SockAddr.withPort (ans.addrs.getD
            (if ans.addrs.length = 1 then 0 else ans.random % ans.addrs.length) []) ur.port) :=
          if_neg (not_or.mpr ⟨hstate, htext⟩)
        rw [if_neg htext, haddr]
        exact (resolveRetvalHandler_flags ans.retval s (k.setResolved _)).of_onUpstream rfl

/-- A connect adds to the flag whether the pool has a slot for its address. -/
theorem socketConnect_flags (ans : ConnectAnswers) (s : Resource) (port : Nat) (k : Sock) :
    k.Flags (socketConnect ans s port k).2 (k.kc.found (ans.address port)) := by
  refine Sock.Flags.of_onUpstream (f := (·.prepare k.r)) ?_ rfl
  change (k.onUpstream (·.prepare k.r)).Flags _
    ((k.onUpstream (·.prepare k.r)).kc.found (ans.address port))
  unfold socketConnect ConnectAnswers.address
  generalize k.onUpstream (·.prepare k.r) = k₁
  cases ans.parseUrl with
  | error => exact .refl k₁
  | address addr =>
    exact (resolveRetvalHandler_flags ans.retval s (k₁.setResolved _)).of_onUpstream rfl
  | name =>
    have hset : ∀ ur, k₁.Flags (k₁.setResolved ur) false :=
      fun ur => (Sock.Flags.refl _).of_onUpstream (f := fun u => { u with resolved := some ur }) rfl
    cases ans.resolveStart with
    | null => exact hset _
    | noResolver => exact hset _
    | started id =>
      cases ans.resolveName with
      | error => exact hset _
      | pending =>
        have h := hset { port, ctx := some ⟨id, s⟩ }
        exact ⟨rfl, h.cached, h.acts⟩
      | resolved res => exact (resolveHandler_flags res s (k₁.setResolved _)).of_onUpstream rfl

theorem socketFreePeer_cached (readEvent : Rc) (r : ReqId) (pc : PeerConnection)
    (kc : KeepaliveConf) (cy : Cycle) :
    (socketFreePeer readEvent r pc kc cy).1.cached = pc.cached := by
  unfold socketFreePeer
  split
  · exact (keepaliveFreePeer_keeps ..).1
  · rfl

theorem Sock.freePeer_cached (readEvent : Rc) (k : Sock) :
    (k.freePeer readEvent).u.peer.cached = k.u.peer.cached := by
  unfold freePeer
  split
  · exact socketFreePeer_cached readEvent k.r k.u.peer k.kc k.cy
  · rfl

/-- A clear keeps the flag. -/
theorem socketClear_cached (readEvent : Rc) (k : Sock) :
    (socketClear readEvent k).u.peer.cached = k.u.peer.cached := by
  have hclose : ∀ t : Sock, t.closeConnection.u = t.u := by
    intro t
    unfold Sock.closeConnection
    split <;> rfl
  unfold socketClear
  split
  · rfl
  · rw [socketFinalize, hclose, Sock.onUpstream, Sock.freePeer_cached, Sock.onUpstream,
      Upstream.cancelQuery_peer]
    rfl

end NgxPhp
