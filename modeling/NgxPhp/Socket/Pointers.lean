import NgxPhp.Socket.Turnover

/-!
# The pointers that the socket functions follow

The functions look at some of their pointers before they follow them and trust
others. Here each of them is the same function behind the pointers that it follows
on its way; without a value one of these is `NULL`. Where the pool is well formed,
the ones behind the entry points never are.
-/

namespace NgxPhp

open Function (update)

/-- `ngx_http_php_keepalive_get_peer` follows the connection of the slot that it finds. -/
def keepaliveGetPeerChecked (addEvent : Rc) (pc : PeerConnection) (kc : KeepaliveConf)
    (cy : Cycle) : Option (Rc × PeerConnection × KeepaliveConf × Cycle) :=
  match kc.find (pc.sockaddr.getD []) (kc.maxCached + 1) (kc.links.next .cache) with
  | none => some (keepaliveGetPeer addEvent pc kc cy)
  | some i => (kc.cached i).connection.map fun _ => keepaliveGetPeer addEvent pc kc cy

/-- `ngx_http_php_keepalive_free_peer` follows `pc->connection` at once. -/
def keepaliveFreePeerChecked (readEvent : Rc) (r : ReqId) (pc : PeerConnection)
    (kc : KeepaliveConf) (cy : Cycle) : Option (PeerConnection × KeepaliveConf × Cycle) :=
  pc.connection.map fun _ => keepaliveFreePeer readEvent r pc kc cy

/-- `ngx_event_connect_peer`, which calls `ngx_http_php_socket_get_peer`. -/
def eventConnectPeerChecked (ans : RetvalAnswers) (r : ReqId) (s : Resource)
    (pc : PeerConnection) (kc : KeepaliveConf) (cy : Cycle) :
    Option (Rc × PeerConnection × KeepaliveConf × Cycle) :=
  if kc.maxCached ≠ 0 then
    (keepaliveGetPeerChecked ans.addEvent pc kc cy).map fun _ => eventConnectPeer ans r s pc kc cy
  else some (eventConnectPeer ans r s pc kc cy)

/-- `ngx_http_php_socket_resolve_retval_handler` follows `u->resolved`, and `peer->connection`
unless the connect has failed. -/
def resolveRetvalHandlerChecked (ans : RetvalAnswers) (s : Resource) (k : Sock) :
    Option (Rc × Sock) := do
  let ur ← k.u.resolved
  match ur.sockaddr with
  | none => some (resolveRetvalHandler ans s k)
  | some addr =>
    let (rc, peer, _, _) ← eventConnectPeerChecked ans k.r s
      { k.u.peer with sockaddr := some addr, data := some k.kc.id } k.kc k.cy
    if rc = .error ∨ rc = .busy ∨ rc = .declined then some (resolveRetvalHandler ans s k)
    else peer.connection.map fun _ => resolveRetvalHandler ans s k

/-- `ngx_http_php_socket_resolve_handler` follows `u->resolved`. -/
def resolveHandlerChecked (ans : ResolveAnswers) (s : Resource) (k : Sock) : Option Sock := do
  if ans.state ≠ 0 then some k
  else
    let ur ← k.u.resolved
    if !ans.textAllocated then some k
    else
      let i := if ans.addrs.length = 1 then 0 else ans.random % ans.addrs.length
      let addr := SockAddr.withPort (ans.addrs.getD i []) ur.port
      let r ← resolveRetvalHandlerChecked ans.retval s
        (k.setResolved { ur with sockaddr := some addr, ctx := none })
      some r.2

/-- `ngx_http_php_socket_connect`. -/
def socketConnectChecked (ans : ConnectAnswers) (s : Resource) (port : Nat) (k : Sock) :
    Option (Rc × Sock) :=
  let k' := k.onUpstream (·.prepare k.r)
  match ans.parseUrl with
  | .error => some (socketConnect ans s port k)
  | .address addr =>
    resolveRetvalHandlerChecked ans.retval s (k'.setResolved { sockaddr := some addr })
  | .name =>
    match ans.resolveStart with
    | .null => some (socketConnect ans s port k)
    | .noResolver => some (socketConnect ans s port k)
    | .started id =>
      match ans.resolveName with
      | .error => some (socketConnect ans s port k)
      | .pending => some (socketConnect ans s port k)
      | .resolved res =>
        (resolveHandlerChecked res s (k'.setResolved { port, ctx := some ⟨id, s⟩ })).map
          fun k => (.ok, k)

/-- `ngx_http_php_socket_finalize` looks at `u->resolved`, `u->peer.free`, `u->peer.sockaddr`
and at the connection that it closes, and trusts the pool with `u->peer.connection`. -/
def socketFinalizeChecked (readEvent : Rc) (k : Sock) : Option Sock :=
  let t := k.onUpstream (·.cancelQuery)
  if t.u.peer.data.isSome ∧ t.u.peer.sockaddr.isSome ∧ t.kc.maxCached ≠ 0 then
    (keepaliveFreePeerChecked readEvent t.r t.u.peer t.kc t.cy).map fun _ =>
      socketFinalize readEvent k
  else some (socketFinalize readEvent k)

/-- `ngx_http_php_socket_clear`. -/
def socketClearChecked (readEvent : Rc) (k : Sock) : Option Sock :=
  match k.u.peer.connection with
  | none => some k
  | some _ =>
    socketFinalizeChecked readEvent (k.onUpstream fun u => { u with enabledReceive := false })

/-- `ngx_http_php_socket_upstream_send` follows `u->request_bufs` and the connection. -/
def upstreamSendChecked (ans : SendAnswers) (k : Sock) : Option (Rc × Sock) := do
  let _ ← k.u.requestBufs
  let _ ← k.u.peer.connection
  some (upstreamSend ans k)

/-- `ngx_http_php_socket_send`. -/
def socketSendChecked (ans : SendAnswers) (k : Sock) : Option (Rc × Sock) :=
  match k.u.peer.connection with
  | none => some (.error, k)
  | some _ =>
    let k := k.onUpstream fun u => { u with enabledReceive := false }
    if k.u.request ≠ k.r then some (.error, k) else upstreamSendChecked ans k

/-- What the three receiving functions `f` do before they are on the connection, which
`ngx_http_php_socket_upstream_recv` then follows. -/
def socketRecvChecked (f : Sock → Int × Sock) (k : Sock) : Option (Int × Sock) :=
  match k.u.peer.connection with
  | none => some (f k)
  | some _ =>
    if k.u.request ≠ k.r then some (f k)
    else do
      let _ ← k.u.peer.connection
      some (f k)

/-! ## None of them is `NULL` -/

section

variable {kc : KeepaliveConf} {cy : Cycle}

theorem eventConnectPeerChecked_eq (h : kc.Represented cy) (ans : RetvalAnswers) (r : ReqId)
    (s : Resource) (pc : PeerConnection) :
    eventConnectPeerChecked ans r s pc kc cy = some (eventConnectPeer ans r s pc kc cy) := by
  unfold eventConnectPeerChecked keepaliveGetPeerChecked
  split
  · next hmax =>
    cases hi : kc.find (pc.sockaddr.getD []) (kc.maxCached + 1) (kc.links.next .cache) with
    | none => rfl
    | some i =>
      obtain ⟨c, hc, -⟩ := h.lookup ((if_pos hmax).trans hi)
      dsimp only
      rw [hc]
      rfl
  · rfl

/-- A connect that has not failed leaves a connection in the peer. -/
theorem eventConnectPeer_connection (h : kc.Represented cy) (ans : RetvalAnswers) (r : ReqId)
    (s : Resource) (pc : PeerConnection) :
    (eventConnectPeer ans r s pc kc cy).1.fails ∨
      ∃ c, (eventConnectPeer ans r s pc kc cy).2.1.connection = some c := by
  rcases eventConnectPeer_cases h ans r s pc with
    ⟨rc, hrc, hres⟩ | ⟨c, rc, -, hrc, hres⟩ | ⟨c, rc, done, -, -, hres⟩ |
    ⟨c, kc', cy', -, -, -, hres⟩
  · refine Or.inl ?_
    rw [hres]
    rcases hrc with rfl | rfl <;> simp [Rc.fails]
  · refine Or.inl ?_
    rw [hres]
    rcases hrc with rfl | rfl <;> simp [Rc.fails]
  · exact Or.inr ⟨c, by rw [hres]⟩
  · exact Or.inr ⟨c, by rw [hres]⟩

end

section

variable {k : Sock}

theorem resolveRetvalHandlerChecked_eq (h : k.kc.Represented k.cy) (ans : RetvalAnswers)
    (s : Resource) {ur : Resolved} (hur : k.u.resolved = some ur) :
    resolveRetvalHandlerChecked ans s k = some (resolveRetvalHandler ans s k) := by
  unfold resolveRetvalHandlerChecked
  rw [hur]
  dsimp only [Option.bind_eq_bind, Option.bind_some]
  split
  · rfl
  · next addr _ =>
    rw [eventConnectPeerChecked_eq h]
    dsimp only [Option.bind_some]
    split
    · rfl
    · next hok =>
      obtain ⟨c, hc⟩ := (eventConnectPeer_connection h ans k.r s _).resolve_left hok
      rw [hc]
      rfl

theorem resolveHandlerChecked_eq (h : k.kc.Represented k.cy) (ans : ResolveAnswers)
    (s : Resource) {ur : Resolved} (hur : k.u.resolved = some ur) :
    resolveHandlerChecked ans s k = some (resolveHandler ans s k) := by
  unfold resolveHandlerChecked resolveHandler
  rw [hur]
  dsimp only [Option.bind_eq_bind, Option.bind_some]
  split
  · rfl
  · split
    · rfl
    · rw [resolveRetvalHandlerChecked_eq (k := k.setResolved _) h ans.retval s rfl]
      rfl

theorem socketConnectChecked_eq (h : k.kc.Represented k.cy) (ans : ConnectAnswers)
    (s : Resource) (port : Nat) :
    socketConnectChecked ans s port k = some (socketConnect ans s port k) := by
  unfold socketConnectChecked
  cases hurl : ans.parseUrl with
  | error => rfl
  | address addr =>
    dsimp only
    rw [resolveRetvalHandlerChecked_eq (k := (k.onUpstream _).setResolved _) h ans.retval s rfl,
      socketConnect, hurl]
  | name =>
    cases hstart : ans.resolveStart with
    | null => rfl
    | noResolver => rfl
    | started id =>
      cases hname : ans.resolveName with
      | error => rfl
      | pending => rfl
      | resolved res =>
        dsimp only
        rw [resolveHandlerChecked_eq (k := (k.onUpstream _).setResolved _) h res s rfl,
          socketConnect, hurl, hstart, hname]
        rfl

theorem socketFinalizeChecked_eq (readEvent : Rc) {c : ConnId}
    (hc : k.u.peer.connection = some c) :
    socketFinalizeChecked readEvent k = some (socketFinalize readEvent k) := by
  have hpeer : (k.onUpstream (·.cancelQuery)).u.peer.connection = some c := by
    rw [Sock.onUpstream, Upstream.cancelQuery_peer]
    exact hc
  unfold socketFinalizeChecked keepaliveFreePeerChecked
  dsimp only
  rw [hpeer]
  exact ite_self _

theorem socketClearChecked_eq (readEvent : Rc) (k : Sock) :
    socketClearChecked readEvent k = some (socketClear readEvent k) := by
  unfold socketClearChecked socketClear
  cases hc : k.u.peer.connection with
  | none => rfl
  | some c => exact socketFinalizeChecked_eq readEvent hc

/-- A send that has its buffers follows no `NULL`. -/
theorem socketSendChecked_eq (ans : SendAnswers) {b : Bytes} (hb : k.u.requestBufs = some b) :
    socketSendChecked ans k = some (socketSend ans k) := by
  unfold socketSendChecked socketSend upstreamSendChecked
  cases hc : k.u.peer.connection with
  | none => rfl
  | some c =>
    simp only [Sock.onUpstream, hb, hc, Option.bind_eq_bind, Option.bind_some]
    split <;> rfl

theorem socketRecvChecked_eq (f : Sock → Int × Sock) (k : Sock) :
    socketRecvChecked f k = some (f k) := by
  unfold socketRecvChecked
  cases hc : k.u.peer.connection with
  | none => rfl
  | some c =>
    simp only [Option.bind_eq_bind, Option.bind_some, ite_self]

end

end NgxPhp
