import NgxPhp.Socket.Handover

/-!
# What a connect leaves in the peer

Whether a connect ends up with a connection can be said before it is made: it
depends on the pool's lookup and on the answers. Nothing else of the failure
paths is visible to the script.
-/

namespace NgxPhp

/-- The slot of the pool that a connect to `addr` is served from. -/
def KeepaliveConf.lookup (kc : KeepaliveConf) (addr : SockAddr) : Option Nat :=
  if kc.maxCached ≠ 0 then kc.find addr (kc.maxCached + 1) (kc.links.next .cache) else none

/-- What `ngx_event_connect_peer` would store in `pc->connection` for `addr`, if anything. -/
def RetvalAnswers.stores (ans : RetvalAnswers) (kc : KeepaliveConf) (addr : SockAddr) :
    Option (Option ConnId) :=
  match kc.lookup addr with
  | some i => some (kc.cached i).connection
  | none =>
    match ans.connect with
    | .refused _ => none
    | .failed _ _ => some none
    | .established c => some (some c)
    | .inProgress c => some (some c)

/-- The same for `ngx_http_php_socket_resolve_handler`. -/
def ResolveAnswers.stores (ans : ResolveAnswers) (kc : KeepaliveConf) (ur : Option Resolved) :
    Option (Option ConnId) :=
  ur.bind fun ur =>
    if ans.state ≠ 0 ∨ !ans.textAllocated then none
    else
      let i := if ans.addrs.length = 1 then 0 else ans.random % ans.addrs.length
      ans.retval.stores kc (SockAddr.withPort (ans.addrs.getD i []) ur.port)

/-- The same for `ngx_http_php_socket_connect`. -/
def ConnectAnswers.stores (ans : ConnectAnswers) (kc : KeepaliveConf) (port : Nat) :
    Option (Option ConnId) :=
  match ans.parseUrl, ans.resolveStart, ans.resolveName with
  | .address addr, _, _ => ans.retval.stores kc addr
  | .name, .started _, .resolved res => res.stores kc (some { port })
  | _, _, _ => none

/-- The connect leaves its query with the resolver. -/
def ConnectAnswers.pending (ans : ConnectAnswers) : Bool :=
  match ans.parseUrl, ans.resolveStart, ans.resolveName with
  | .name, .started _, .pending => true
  | _, _, _ => false

/-- The events of connection `c` go to `ngx_http_php_socket_handler` for request `r`. -/
structure Cycle.Attached (cy : Cycle) (c : ConnId) (r : ReqId) : Prop where
  data : (cy.connections c).data = .upstream r
  read : (cy.connections c).read.handler = .phpSocket
  write : (cy.connections c).write.handler = .phpSocket

/-- The connection of the peer reports its events to the request. -/
def Sock.Listens (k : Sock) : Prop := ∃ c, k.u.peer.connection = some c ∧ k.cy.Attached c k.r

instance Cycle.decidableAttached (cy : Cycle) (c : ConnId) (r : ReqId) :
    Decidable (cy.Attached c r) :=
  decidable_of_iff ((cy.connections c).data = .upstream r ∧
    (cy.connections c).read.handler = .phpSocket ∧ (cy.connections c).write.handler = .phpSocket)
    ⟨fun h => ⟨h.1, h.2.1, h.2.2⟩, fun h => ⟨h.data, h.read, h.write⟩⟩

instance Sock.decidableListens (k : Sock) : Decidable k.Listens :=
  match h : k.u.peer.connection with
  | none => isFalse (by simp [Listens, h])
  | some c => decidable_of_iff (k.cy.Attached c k.r) (by simp [Listens, h])

/-- What a connect for which `stores` was foretold has done. -/
structure Sock.Foretold (k k' : Sock) (stores : Option (Option ConnId)) : Prop where
  r : k'.r = k.r
  queries : k'.u.queries = k.u.queries
  connection : k'.u.peer.connection = stores.getD k.u.peer.connection
  attached : ∀ c, stores = some (some c) → k'.cy.Attached c k.r
  cy : stores = none → k'.cy = k.cy

variable {k k' k'' : Sock} {stores : Option (Option ConnId)}

/-- Nothing was to be stored and nothing was done. -/
theorem Sock.Foretold.refl (k : Sock) : k.Foretold k none := ⟨rfl, rfl, rfl, by simp, fun _ => rfl⟩

/-- Fields of the upstream that a connect sets first. -/
theorem Sock.Foretold.of_onUpstream {f : Upstream → Upstream}
    (h : (k.onUpstream f).Foretold k' stores) (hq : (f k.u).queries = k.u.queries)
    (hp : (f k.u).peer.connection = k.u.peer.connection) : k.Foretold k' stores where
  r := h.r
  queries := h.queries.trans hq
  connection := by rw [h.connection]; exact congrArg _ hp
  attached := h.attached
  cy := h.cy

/-- After a connect somebody listens exactly when it stored a connection, or stored nothing
where somebody listened before. -/
theorem Sock.Foretold.listens_iff (h : k.Foretold k' stores) :
    k'.Listens ↔ (∃ c, stores = some (some c)) ∨ (stores = none ∧ k.Listens) := by
  unfold Listens
  rw [h.connection, h.r]
  rcases stores with _ | _ | c
  · simp [h.cy rfl]
  · simp
  · simp [h.attached c rfl]

/-- `ngx_event_connect_peer` fails. -/
def Rc.fails (rc : Rc) : Prop := rc = .error ∨ rc = .busy ∨ rc = .declined

/-- Without a slot for the address the pool changes nothing. -/
theorem socketGetPeer_of_lookup (addEvent : Rc) {pc : PeerConnection} {kc : KeepaliveConf}
    (cy : Cycle) (hl : kc.lookup (pc.sockaddr.getD []) = none) :
    socketGetPeer addEvent pc kc cy = (.ok, pc, kc, cy) := by
  unfold KeepaliveConf.lookup at hl
  unfold socketGetPeer
  split
  · next hmax =>
    rw [if_pos hmax] at hl
    rw [keepaliveGetPeer, hl]
  · rfl

/-- The pool hands over the connection of the slot that its lookup finds. -/
theorem socketGetPeer_of_slot (addEvent : Rc) (pc : PeerConnection) {kc : KeepaliveConf}
    (cy : Cycle) {i : Nat} (hl : kc.lookup (pc.sockaddr.getD []) = some i) :
    ∃ pc' kc' cy', socketGetPeer addEvent pc kc cy = (.done, pc', kc', cy') ∧
      pc'.connection = (kc.cached i).connection ∧ (cy' = cy ∨ ∃ c, cy' = cy.addReadEvent c) := by
  unfold KeepaliveConf.lookup at hl
  split at hl
  · next hmax =>
    simp only [socketGetPeer, if_pos hmax, keepaliveGetPeer, hl]
    by_cases hev : addEvent = .error
    · rw [if_pos hev]
      exact ⟨_, _, _, rfl, rfl, Or.inl rfl⟩
    · rw [if_neg hev]
      cases hcon : (kc.cached i).connection with
      | none => exact ⟨_, _, _, rfl, rfl, Or.inl rfl⟩
      | some c => exact ⟨_, _, _, rfl, rfl, Or.inr ⟨c, rfl⟩⟩
  · cases hl

/-- `ngx_event_connect_peer` stores what was foretold, and fails if nothing was. -/
theorem eventConnectPeer_stores (ans : RetvalAnswers) (r : ReqId) (s : Resource)
    (pc : PeerConnection) (kc : KeepaliveConf) (cy : Cycle) :
    let res := eventConnectPeer ans r s pc kc cy
    let stores := ans.stores kc (pc.sockaddr.getD [])
    (stores = none ∧ res.1.fails ∧ res.2.1.connection = pc.connection ∧ res.2.2.2 = cy) ∨
      ∃ conn, stores = some conn ∧ res.2.1.connection = conn ∧ (res.1.fails → conn = none) := by
  intro res stores
  simp only [res, stores]
  cases hl : kc.lookup (pc.sockaddr.getD []) with
  | none =>
    have hget := socketGetPeer_of_lookup ans.addEvent cy hl
    simp only [RetvalAnswers.stores, hl, eventConnectPeer, hget]
    cases ans.connect with
    | refused busy => cases busy <;> simp [Rc.fails]
    | failed c declined => simp
    | established c => simp [Rc.fails]
    | inProgress c => simp [Rc.fails]
  | some i =>
    obtain ⟨pc', kc', cy', hget, hc, _⟩ := socketGetPeer_of_slot ans.addEvent pc cy hl
    simp only [RetvalAnswers.stores, hl, eventConnectPeer, hget, ← hc]
    cases hcon : pc'.connection <;> simp [hcon, Rc.fails]

theorem finishConnect_queries (ans : RetvalAnswers) (rc : Rc) (c : ConnId) (k : Sock) :
    (finishConnect ans rc c k).2.u.queries = k.u.queries := by
  unfold finishConnect
  dsimp only
  repeat' split
  all_goals rfl

/-- A connection that was adopted is attached, whatever becomes of the rest of the connect. -/
theorem finishConnect_attached (ans : RetvalAnswers) (rc : Rc) (s : Resource) {c : ConnId}
    {k : Sock} (hc : k.u.peer.connection = some c) :
    let k' := (finishConnect ans rc c (k.adopt s c)).2
    k'.r = k.r ∧ k'.u.peer.connection = some c ∧ k'.cy.Attached c k.r := by
  have hq : (k.adopt s c).Quiet _ := finishConnect_quiet ans rc hc
  have hcy := hq.cycle
  rw [show (k.adopt s c).u.peer.connection = some c from hc] at hcy
  have hs := Cycle.Quiet.same hcy c
  rw [Sock.adopt, Cycle.modify_self] at hs
  refine ⟨hq.r, ?_, hs.data, hs.read, hs.write⟩
  rw [hq.peer]
  exact hc

/-- What `ngx_http_php_socket_resolve_retval_handler` stores is foretold. -/
theorem resolveRetvalHandler_foretold (ans : RetvalAnswers) (s : Resource) (k : Sock) :
    k.Foretold (resolveRetvalHandler ans s k).2
      ((k.u.resolved.bind (·.sockaddr)).bind (ans.stores k.kc)) := by
  unfold resolveRetvalHandler
  cases k.u.resolved.bind (·.sockaddr) with
  | none => exact .refl k
  | some addr =>
    dsimp only
    have hstores := eventConnectPeer_stores ans k.r s
      { k.u.peer with sockaddr := some addr, data := some k.kc.id } k.kc k.cy
    generalize eventConnectPeer ans k.r s
      { k.u.peer with sockaddr := some addr, data := some k.kc.id } k.kc k.cy = res at hstores
    obtain ⟨rc, peer, kc, cy⟩ := res
    dsimp only [Option.getD_some] at hstores
    simp only [Option.bind_some]
    rcases hstores with ⟨hs, hfail, hconn, hcy⟩ | ⟨conn, hs, hconn, hfail⟩
    · have hfail : rc = .error ∨ rc = .busy ∨ rc = .declined := hfail
      rw [hs, if_pos hfail]
      exact ⟨rfl, rfl, hconn, by simp, fun _ => hcy⟩
    · rw [hs]
      split
      · next hrc =>
        have hnone := hfail hrc
        exact ⟨rfl, rfl, hconn, by simp [hnone], by simp⟩
      · cases hpeer : peer.connection with
        | none => exact ⟨rfl, rfl, hconn, by simp [← hconn, hpeer], by simp⟩
        | some c =>
          obtain rfl : some c = conn := hpeer.symm.trans hconn
          obtain ⟨hr, hc, ha⟩ := finishConnect_attached (k := k.withPeer peer kc cy) ans rc s hpeer
          refine ⟨hr, finishConnect_queries _ _ _ _, hc, ?_, by simp⟩
          rintro _ ⟨⟩
          exact ha

theorem resolveHandler_foretold (ans : ResolveAnswers) (s : Resource) (k : Sock) :
    k.Foretold (resolveHandler ans s k) (ans.stores k.kc k.u.resolved) := by
  unfold resolveHandler ResolveAnswers.stores
  by_cases hstate : ans.state ≠ 0
  · rw [if_pos hstate]
    cases k.u.resolved <;> simp [hstate, Sock.Foretold.refl]
  · rw [if_neg hstate]
    cases k.u.resolved with
    | none => exact .refl k
    | some ur =>
      cases htext : ans.textAllocated with
      | false => simp [Sock.Foretold.refl]
      | true =>
        have h := resolveRetvalHandler_foretold ans.retval s (k.setResolved { ur with
          sockaddr := some (SockAddr.withPort (ans.addrs.getD
            (if ans.addrs.length = 1 then 0 else ans.random % ans.addrs.length) []) ur.port)
          ctx := none })
        have h := h.of_onUpstream rfl rfl
        simp only [hstate, Bool.not_true, Bool.false_eq_true, or_false, if_false, Option.bind_some]
        exact h

/-- `ngx_http_php_socket_connect` stores what was foretold, unless it leaves a query. -/
theorem socketConnect_foretold (ans : ConnectAnswers) (s : Resource) (port : Nat) (k : Sock) :
    if ans.pending then
      (socketConnect ans s port k).2.u.queries ≠ [] ∧ (socketConnect ans s port k).2.cy = k.cy
    else k.Foretold (socketConnect ans s port k).2 (ans.stores k.kc port) := by
  unfold socketConnect ConnectAnswers.pending ConnectAnswers.stores
  dsimp only
  cases ans.parseUrl with
  | error => exact (Sock.Foretold.refl (k.onUpstream (·.prepare k.r))).of_onUpstream rfl rfl
  | address addr =>
    have h := resolveRetvalHandler_foretold ans.retval s
      ((k.onUpstream (·.prepare k.r)).setResolved { sockaddr := some addr })
    exact (h.of_onUpstream rfl rfl).of_onUpstream rfl rfl
  | name =>
    have hset : ∀ ur, k.Foretold ((k.onUpstream (·.prepare k.r)).setResolved ur) none := fun ur =>
      ((Sock.Foretold.refl ((k.onUpstream (·.prepare k.r)).setResolved ur)).of_onUpstream
        rfl rfl).of_onUpstream rfl rfl
    cases ans.resolveStart with
    | null => exact hset _
    | noResolver => exact hset _
    | started id =>
      cases ans.resolveName with
      | error => exact hset _
      | pending => simp [Sock.addQuery, Sock.onUpstream, Sock.setResolved]
      | resolved res =>
        have h := resolveHandler_foretold res s
          ((k.onUpstream (·.prepare k.r)).setResolved { port, ctx := some ⟨id, s⟩ })
        have h := (h.of_onUpstream rfl rfl).of_onUpstream rfl rfl
        exact h

/-! ## Whether a connect waits -/

/-- A connect to `addr` asks the handler to wait: it is served from the pool, or in progress. -/
def RetvalAnswers.waits (ans : RetvalAnswers) (kc : KeepaliveConf) (addr : SockAddr) : Bool :=
  match kc.lookup addr with
  | some _ => true
  | none =>
    match ans.connect with
    | .inProgress _ => ans.poolCreated
    | _ => false

/-- The same for `ngx_http_php_socket_resolve_handler`. -/
def ResolveAnswers.waits (ans : ResolveAnswers) (kc : KeepaliveConf) (ur : Option Resolved) :
    Bool :=
  ur.any fun ur =>
    ans.state = 0 && ans.textAllocated &&
      (let i := if ans.addrs.length = 1 then 0 else ans.random % ans.addrs.length
      ans.retval.waits kc (SockAddr.withPort (ans.addrs.getD i []) ur.port))

/-- A connect that does not ask to wait leaves the phase status as it is, or sets `NGX_OK`. -/
theorem resolveRetvalHandler_phaseStatus (ans : RetvalAnswers) (s : Resource) {k : Sock}
    (h : ∀ addr, k.u.resolved.bind (·.sockaddr) = some addr → ans.waits k.kc addr = false) :
    (resolveRetvalHandler ans s k).2.phaseStatus = k.phaseStatus ∨
      (resolveRetvalHandler ans s k).2.phaseStatus = .ok := by
  unfold resolveRetvalHandler
  cases haddr : k.u.resolved.bind (·.sockaddr) with
  | none => exact Or.inl rfl
  | some addr =>
    have hw := h addr haddr
    unfold RetvalAnswers.waits at hw
    dsimp only
    cases hl : k.kc.lookup addr with
    | some i => simp [hl] at hw
    | none =>
      rw [hl] at hw
      rw [eventConnectPeer, socketGetPeer_of_lookup ans.addEvent k.cy hl]
      cases hans : ans.connect with
      | refused busy => cases busy <;> exact Or.inl rfl
      | failed c declined => cases declined <;> exact Or.inl rfl
      | established c =>
        dsimp only
        rw [if_neg (by simp)]
        unfold finishConnect
        dsimp only
        split
        · exact Or.inl rfl
        · rw [if_pos rfl]
          split
          · exact Or.inr rfl
          · split <;> exact Or.inr rfl
      | inProgress c =>
        rw [hans] at hw
        have hpool : ans.poolCreated = false := hw
        dsimp only
        rw [if_neg (by simp)]
        simp [finishConnect, hpool, Sock.adopt, Sock.withPeer, Cycle.connectPeer,
          Cycle.getConnection, Connection.attach]

theorem resolveHandler_phaseStatus (ans : ResolveAnswers) (s : Resource) {k : Sock}
    (h : ans.waits k.kc k.u.resolved = false) :
    (resolveHandler ans s k).phaseStatus = k.phaseStatus ∨
      (resolveHandler ans s k).phaseStatus = .ok := by
  unfold resolveHandler
  split
  · exact Or.inl rfl
  · next hstate =>
    split
    · exact Or.inl rfl
    · next ur hur =>
      dsimp only
      split
      · exact Or.inl rfl
      · next htext =>
        refine resolveRetvalHandler_phaseStatus ans.retval s fun addr haddr => ?_
        obtain rfl := Option.some.inj haddr
        change ans.retval.waits k.kc _ = false
        simpa [ResolveAnswers.waits, hur, not_not.mp hstate, by simpa using htext] using h

end NgxPhp
