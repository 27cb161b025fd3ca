import NgxPhp.Socket.Outcome
import NgxPhp.Socket.Ownership

/-!
# How connections enter and leave the pool

A connect takes a connection out of the pool only under the address it connects to.
A finalize puts the connection of its peer into the pool whenever the pool is in use,
whatever has happened on the connection.
-/

namespace NgxPhp

/-- The connection that an act takes out of the pool. -/
def Act.taken? : Act → Option ConnId
  | .take _ _ c => some c
  | _ => none

/-- The connection that an act puts into the pool. -/
def Act.kept? : Act → Option ConnId
  | .keep _ _ c => some c
  | _ => none

/-- The address that `ngx_http_php_socket_resolve_handler` connects to, if it does. -/
def ResolveAnswers.address (ans : ResolveAnswers) (ur : Option Resolved) : Option SockAddr :=
  ur.bind fun ur =>
    if ans.state ≠ 0 ∨ !ans.textAllocated then none
    else
      let i := if ans.addrs.length = 1 then 0 else ans.random % ans.addrs.length
      some (SockAddr.withPort (ans.addrs.getD i []) ur.port)

/-- The address that `ngx_http_php_socket_connect` connects to before it returns. -/
def ConnectAnswers.address (ans : ConnectAnswers) (port : Nat) : Option SockAddr :=
  match ans.parseUrl, ans.resolveStart, ans.resolveName with
  | .address addr, _, _ => some addr
  | .name, .started _, .resolved res => res.address (some { port })
  | _, _, _ => none

/-- The acts neither take from the pool nor put into it. -/
def PoolIdle (new : List Act) : Prop := ∀ a ∈ new, a.taken? = none ∧ a.kept? = none

theorem PoolIdle.nil : PoolIdle [] := fun _ h => absurd h (by simp)

/-- Transfers leave the pool alone. -/
theorem PoolIdle.of_transfers {new : List Act} {c : ConnId} (h : ∀ a ∈ new, a.IsTransferOn c) :
    PoolIdle new := by
  intro a ha
  obtain ⟨b, n, rfl⟩ | rfl := h a ha
  · exact ⟨rfl, rfl⟩
  · exact ⟨rfl, rfl⟩

/-- Two records differ by acts that leave the pool alone. -/
theorem PoolIdle.append {new new' : List Act} (h : PoolIdle new) (g : PoolIdle new') :
    PoolIdle (new ++ new') := by
  intro a ha
  rcases List.mem_append.mp ha with ha | ha
  · exact h a ha
  · exact g a ha

/-! ## Connects -/

/-- What a connect to `address` adds to the record: at most one connection is taken out of
the pool, and that under the address. -/
inductive KeepaliveConf.Dials (kc : KeepaliveConf) (address : Option SockAddr)
    (new : List Act) : Prop
  | idle (h : PoolIdle new)
  | takes (r : ReqId) (s : Resource) (c : ConnId) (addr : SockAddr) (haddr : address = some addr)
      (hc : (c, addr) ∈ kc.entries) (hnew : new = [.take r s c])

/-- From one record to another a connect to `address` was made. -/
def KeepaliveConf.DialedTo (kc : KeepaliveConf) (address : Option SockAddr)
    (before after : List Act) : Prop :=
  ∃ new, after = new ++ before ∧ kc.Dials address new

theorem KeepaliveConf.DialedTo.refl (kc : KeepaliveConf) (address : Option SockAddr)
    (as : List Act) : kc.DialedTo address as as :=
  ⟨[], rfl, .idle .nil⟩

/-- The lookup of the pool finds an entry with the address. -/
theorem KeepaliveConf.Represented.lookup {kc : KeepaliveConf} {cy : Cycle}
    (h : kc.Represented cy) {addr : SockAddr} {i : Nat} (hi : kc.lookup addr = some i) :
    ∃ c, (kc.cached i).connection = some c ∧ (c, addr) ∈ kc.entries := by
  obtain ⟨cache, free, h⟩ := h
  unfold KeepaliveConf.lookup at hi
  split at hi
  · have hlen : cache.length < kc.maxCached + 1 := by
      have := h.length
      omega
    rw [find_eq addr h.cacheQueue.linked hlen] at hi
    have hmem : i ∈ cache := List.mem_of_find?_eq_some hi
    have haddr : (kc.cached i).sockaddr = addr := by simpa using List.find?_some hi
    obtain ⟨c, hc, _, hentry⟩ := h.slotEntry_eq hmem
    refine ⟨c, hc, ?_⟩
    rw [h.entries_eq]
    exact List.mem_filterMap.mpr ⟨i, hmem, haddr ▸ hentry⟩
  · cases hi

/-- `ngx_event_connect_peer` asks the pool first. -/
theorem eventConnectPeer_dials {kc : KeepaliveConf} {cy : Cycle} (h : kc.Represented cy)
    (ans : RetvalAnswers) (r : ReqId) (s : Resource) (pc : PeerConnection) :
    kc.DialedTo (some (pc.sockaddr.getD [])) cy.acts
      (eventConnectPeer ans r s pc kc cy).2.2.2.acts := by
  cases hl : kc.lookup (pc.sockaddr.getD []) with
  | none =>
    rw [eventConnectPeer, socketGetPeer_of_lookup ans.addEvent cy hl]
    cases ans.connect with
    | refused busy => exact .refl _ _ _
    | failed c declined =>
      refine ⟨[.close (.request r) c, .get r s c], by simp [Cycle.getConnection], .idle ?_⟩
      simp [PoolIdle, Act.taken?, Act.kept?]
    | established c =>
      refine ⟨[.get r s c], by simp [Cycle.connectPeer, Cycle.getConnection], .idle ?_⟩
      simp [PoolIdle, Act.taken?, Act.kept?]
    | inProgress c =>
      refine ⟨[.get r s c], by simp [Cycle.connectPeer, Cycle.getConnection], .idle ?_⟩
      simp [PoolIdle, Act.taken?, Act.kept?]
  | some i =>
    obtain ⟨c, hc, hentry⟩ := h.lookup hl
    obtain ⟨pc', kc', cy', hres, hpc, hcy⟩ := socketGetPeer_of_slot ans.addEvent pc cy hl
    have hacts : cy'.acts = cy.acts := by
      rcases hcy with rfl | ⟨d, rfl⟩
      · rfl
      · rfl
    have htake : (eventConnectPeer ans r s pc kc cy).2.2.2.acts = .take r s c :: cy.acts := by
      rw [eventConnectPeer, hres]
      dsimp only
      rw [hpc, hc]
      exact congrArg _ hacts
    exact ⟨[.take r s c], htake, .takes r s c _ rfl hentry rfl⟩

theorem finishConnect_acts (ans : RetvalAnswers) (rc : Rc) (c : ConnId) (k : Sock) :
    (finishConnect ans rc c k).2.cy.acts = k.cy.acts := by
  unfold finishConnect
  dsimp only
  repeat' split
  all_goals rfl

theorem resolveRetvalHandler_dials {k : Sock} (h : k.kc.Represented k.cy) (ans : RetvalAnswers)
    (s : Resource) :
    k.kc.DialedTo (k.u.resolved.bind (·.sockaddr)) k.cy.acts
      (resolveRetvalHandler ans s k).2.cy.acts := by
  unfold resolveRetvalHandler
  cases k.u.resolved.bind (·.sockaddr) with
  | none => exact .refl _ _ _
  | some addr =>
    dsimp only
    have hd := eventConnectPeer_dials h ans k.r s
      { k.u.peer with sockaddr := some addr, data := some k.kc.id }
    generalize eventConnectPeer ans k.r s
      { k.u.peer with sockaddr := some addr, data := some k.kc.id } k.kc k.cy = res at hd
    obtain ⟨rc, peer, kc, cy⟩ := res
    dsimp only [Option.getD_some] at hd ⊢
    split
    · exact hd
    · split
      · exact hd
      · rw [finishConnect_acts]
        exact hd

theorem resolveHandler_dials {k : Sock} (h : k.kc.Represented k.cy) (ans : ResolveAnswers)
    (s : Resource) :
    k.kc.DialedTo (ans.address k.u.resolved) k.cy.acts (resolveHandler ans s k).cy.acts := by
  unfold resolveHandler
  by_cases hstate : ans.state ≠ 0
  · rw [if_pos hstate]
    exact .refl _ _ _
  · rw [if_neg hstate]
    cases hur : k.u.resolved with
    | none => exact .refl _ _ _
    | some ur =>
      dsimp only
      by_cases htext : (!ans.textAllocated) = true
      · rw [if_pos htext]
        exact .refl _ _ _
      · rw [if_neg htext, ResolveAnswers.address, Option.bind_some,
          if_neg (by simpa using ⟨by simpa using hstate, by simpa using htext⟩)]
        exact resolveRetvalHandler_dials (k := k.setResolved _) h ans.retval s

theorem socketConnect_dials {k : Sock} (h : k.kc.Represented k.cy) (ans : ConnectAnswers)
    (s : Resource) (port : Nat) :
    k.kc.DialedTo (ans.address port) k.cy.acts (socketConnect ans s port k).2.cy.acts := by
  have h : (k.onUpstream (·.prepare k.r)).kc.Represented (k.onUpstream (·.prepare k.r)).cy := h
  change (k.onUpstream (·.prepare k.r)).kc.DialedTo (ans.address port)
    (k.onUpstream (·.prepare k.r)).cy.acts _
  unfold socketConnect ConnectAnswers.address
  generalize k.onUpstream (·.prepare k.r) = k₁ at h
  cases ans.parseUrl with
  | error => exact .refl _ _ _
  | address addr =>
    exact resolveRetvalHandler_dials (k := k₁.setResolved { sockaddr := some addr }) h ans.retval s
  | name =>
    cases ans.resolveStart with
    | null => exact .refl _ _ _
    | noResolver => exact .refl _ _ _
    | started id =>
      cases ans.resolveName with
      | error => exact .refl _ _ _
      | pending => exact .refl _ _ _
      | resolved res =>
        exact resolveHandler_dials (k := k₁.setResolved { port, ctx := some ⟨id, s⟩ }) h res s

/-! ## Clears -/

/-- What a clear adds to the record: the connection of the peer is put into the pool, which
closes another one for it, or the pool is left alone. -/
inductive Sock.ClearActs (k : Sock) (readEvent : Rc) (new : List Act) : Prop
  | idle (h : PoolIdle new)
  | keeps (c : ConnId) (out : Option ConnId) (h : k.Frees readEvent c)
      (hnew : new = .keep k.r k.kc.id c :: poolCloseActs k.kc.id out)

/-- A clear adds no more to the record than a finalize does. -/
theorem socketClear_acts (readEvent : Rc) (k : Sock) :
    ∃ new, (socketClear readEvent k).cy.acts = new ++ k.cy.acts ∧ k.ClearActs readEvent new := by
  have hidle : ∀ new : List Act, (∀ a ∈ new, ∃ who c, a = .close who c ∨ a = .destroyPool who c) →
      k.ClearActs readEvent new := by
    intro new h
    refine .idle fun a ha => ?_
    obtain ⟨who, c, rfl | rfl⟩ := h a ha <;> exact ⟨rfl, rfl⟩
  unfold socketClear
  cases hc : k.u.peer.connection with
  | none => exact ⟨[], rfl, hidle [] (by simp)⟩
  | some c =>
    rcases socketFinalize_acts (k := k.onUpstream fun u => { u with enabledReceive := false })
        readEvent hc with ha | ha | ⟨hf, out, ha⟩
    · exact ⟨[.close (.request k.r) c], ha, hidle _ (by simp)⟩
    · exact ⟨[.close (.request k.r) c, .destroyPool (.request k.r) c], ha, hidle _ (by simp)⟩
    · exact ⟨.keep k.r k.kc.id c :: poolCloseActs k.kc.id out, ha, .keeps c out hf rfl⟩

end NgxPhp
