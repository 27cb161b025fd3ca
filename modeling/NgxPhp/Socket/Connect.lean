import NgxPhp.Socket.Upstream

/-!
# Opening and giving up the connection of an upstream

From `ngx_socket_connect` a connection is reached directly, or through a resolver
query whose handler runs later. `ngx_http_php_socket_finalize` gives it to the
keepalive pool or closes it.
-/

namespace NgxPhp

/-- `ngx_http_php_socket_get_peer`. -/
def socketGetPeer (addEvent : Rc) (pc : PeerConnection) (kc : KeepaliveConf) (cy : Cycle) :
    Rc × PeerConnection × KeepaliveConf × Cycle :=
  if kc.maxCached ≠ 0 then
    match keepaliveGetPeer addEvent pc kc cy with
    | (.ok, pc, kc, cy) => (.ok, pc, kc, cy)
    | (_, pc, kc, cy) => (.done, pc, kc, cy)
  else (.ok, pc, kc, cy)

/-- `ngx_http_php_socket_free_peer`. -/
def socketFreePeer (readEvent : Rc) (r : ReqId) (pc : PeerConnection) (kc : KeepaliveConf)
    (cy : Cycle) : PeerConnection × KeepaliveConf × Cycle :=
  if kc.maxCached ≠ 0 then keepaliveFreePeer readEvent r pc kc cy else (pc, kc, cy)

/-- `ngx_event_connect_peer`: a connection of the pool is used as it is, otherwise the
answer says what became of a new one. -/
def eventConnectPeer (ans : RetvalAnswers) (r : ReqId) (s : Resource) (pc : PeerConnection)
    (kc : KeepaliveConf) (cy : Cycle) : Rc × PeerConnection × KeepaliveConf × Cycle :=
  match socketGetPeer ans.addEvent pc kc cy with
  | (.ok, pc, kc, cy) =>
    match ans.connect with
    | .refused busy => (if busy then .busy else .error, pc, kc, cy)
    | .failed c declined =>
      (if declined then .declined else .error, { pc with connection := none }, kc,
        ((cy.getConnection c).record (.get r s c)).closeConnection (.request r) c)
    | .established c =>
      (.ok, { pc with connection := some c }, kc, (cy.connectPeer c true).record (.get r s c))
    | .inProgress c =>
      (.again, { pc with connection := some c }, kc, (cy.connectPeer c false).record (.get r s c))
  | (rc, pc, kc, cy) =>
    match pc.connection with
    | some c => (rc, pc, kc, cy.record (.take r s c))
    | none => (rc, pc, kc, cy)

/-- Take over the connection that a connect for resource `s` stored in the peer. -/
def Sock.adopt (k : Sock) (s : Resource) (c : ConnId) : Sock :=
  { k with
    cy := k.cy.modify c fun m => m.attach k.r
    u := { k.u with
      request := k.r
      readEventHandler := .connected
      writeEventHandler := .connected
      holds := some s } }

/-- Both directions get the handler that does nothing. -/
def Upstream.dummyHandlers (u : Upstream) : Upstream :=
  { u with readEventHandler := .dummy, writeEventHandler := .dummy }

/-- The rest of `ngx_http_php_socket_resolve_retval_handler` once connection `c` of the peer
has its handlers: `rc` is the result of `ngx_event_connect_peer`. -/
def finishConnect (ans : RetvalAnswers) (rc : Rc) (c : ConnId) (k : Sock) : Rc × Sock :=
  if !(k.cy.connections c).hasPool && !ans.poolCreated then (.error, k)
  else
    let k := k.onCycle (·.createPool c)
    if rc = .ok then
      let k := { k with phaseStatus := .ok }
      if ans.writeEvent ≠ .ok then (.error, k)
      else
        let k := k.onCycle (·.handleWriteEvent c)
        if ans.readEvent ≠ .ok then (.error, k)
        else (.ok, (k.onCycle (·.handleReadEvent c)).onUpstream (·.dummyHandlers))
    else
      let k := { k with phaseStatus := .again }
      if rc = .again then (.again, k.onCycle (·.addWriteTimer c k.u.connectTimeout))
      else (.again, k)

/-- What `ngx_event_connect_peer` has left in the peer. A failed connect may have cleared
the connection of an earlier one. -/
def Sock.withPeer (k : Sock) (peer : PeerConnection) (kc : KeepaliveConf) (cy : Cycle) : Sock :=
  { k with
    u := { k.u with peer, holds := peer.connection.bind fun _ => k.u.holds }
    kc, cy }

/-- `ngx_http_php_socket_resolve_retval_handler`, for a connect on resource `s`. -/
def resolveRetvalHandler (ans : RetvalAnswers) (s : Resource) (k : Sock) : Rc × Sock :=
  match k.u.resolved.bind (·.sockaddr) with
  | none => (.error, k)
  | some addr =>
    match eventConnectPeer ans k.r s
        { k.u.peer with sockaddr := some addr, data := some k.kc.id } k.kc k.cy with
    | (rc, peer, kc, cy) =>
      let k := k.withPeer peer kc cy
      if rc = .error ∨ rc = .busy ∨ rc = .declined then (.error, k)
      else
        match peer.connection with
        | none => (.error, k)
        | some c => finishConnect ans rc c (k.adopt s c)

/-- `u->resolved` is set to what is known of the address. -/
def Sock.setResolved (k : Sock) (ur : Resolved) : Sock :=
  k.onUpstream fun u => { u with resolved := some ur }

/-- A query was handed to the resolver. -/
def Sock.addQuery (k : Sock) (q : Query) : Sock :=
  k.onUpstream fun u => { u with queries := q :: u.queries }

/-- `ngx_http_php_socket_resolve_handler`, for a query that was started for resource `s`.
Nobody reads the result of the connect it makes. -/
def resolveHandler (ans : ResolveAnswers) (s : Resource) (k : Sock) : Sock :=
  if ans.state ≠ 0 then k
  else
    match k.u.resolved with
    | none => k
    | some ur =>
      let i := if ans.addrs.length = 1 then 0 else ans.random % ans.addrs.length
      if !ans.textAllocated then k
      else
        let addr := SockAddr.withPort (ans.addrs.getD i []) ur.port
        (resolveRetvalHandler ans.retval s
          (k.setResolved { ur with sockaddr := some addr, ctx := none })).2

/-- The timeouts and flags that `ngx_http_php_socket_connect` sets first. -/
def Upstream.prepare (u : Upstream) (r : ReqId) : Upstream :=
  { u with
    connectTimeout := if u.connectTimeout = 0 then 60000 else u.connectTimeout
    readTimeout := if u.readTimeout = 0 then 60000 else u.readTimeout
    writeTimeout := if u.writeTimeout = 0 then 60000 else u.writeTimeout
    enabledReceive := false
    enabledReceivePage := false
    request := r }

/-- `ngx_http_php_socket_connect`, called for resource `s`. -/
def socketConnect (ans : ConnectAnswers) (s : Resource) (port : Nat) (k : Sock) : Rc × Sock :=
  let k := k.onUpstream (·.prepare k.r)
  match ans.parseUrl with
  | .error => (.error, k)
  | .address addr => resolveRetvalHandler ans.retval s (k.setResolved { sockaddr := some addr })
  | .name =>
    match ans.resolveStart with
    | .null => (.error, k.setResolved { port })
    | .noResolver => (.error, k.setResolved { port })
    | .started id =>
      let k := k.setResolved { port, ctx := some ⟨id, s⟩ }
      match ans.resolveName with
      | .error => (.error, k)
      | .pending => (.ok, k.addQuery ⟨id, s⟩)
      | .resolved res => (.ok, resolveHandler res s k)

/-- `ngx_resolve_name_done(u->resolved->ctx); u->resolved->ctx = NULL`. -/
def Upstream.cancelQuery (u : Upstream) : Upstream :=
  match u.resolved with
  | none => u
  | some ur =>
    match ur.ctx with
    | none => u
    | some q => { u with queries := u.queries.erase q, resolved := some { ur with ctx := none } }

/-- The call of `u->peer.free` in `ngx_http_php_socket_finalize`. -/
def Sock.freePeer (k : Sock) (readEvent : Rc) : Sock :=
  if k.u.peer.data.isSome && k.u.peer.sockaddr.isSome then
    match socketFreePeer readEvent k.r k.u.peer k.kc k.cy with
    | (peer, kc, cy) =>
      { k with u := { k.u with peer := { peer with sockaddr := none } }, kc, cy }
  else k

/-- Destroy the pool of a connection, if it has one, and close it. -/
def Cycle.release (cy : Cycle) (who : Party) (c : ConnId) : Cycle :=
  (if (cy.connections c).hasPool then cy.dropPool who c else cy).closeConnection who c

/-- The end of `ngx_http_php_socket_finalize`. A connection that is closed here, and not
pooled, stays in `u->peer.connection`. -/
def Sock.closeConnection (k : Sock) : Sock :=
  match k.u.peer.connection with
  | none => k
  | some c => k.onCycle (·.release (.request k.r) c)

/-- `ngx_http_php_socket_finalize`. -/
def socketFinalize (readEvent : Rc) (k : Sock) : Sock :=
  let k := (k.onUpstream (·.cancelQuery)).freePeer readEvent
  (k.onUpstream fun u => { u with holds := none }).closeConnection

/-- `ngx_http_php_socket_clear`. -/
def socketClear (readEvent : Rc) (k : Sock) : Sock :=
  match k.u.peer.connection with
  | none => k
  | some _ => socketFinalize readEvent (k.onUpstream fun u => { u with enabledReceive := false })

/-- `ngx_http_php_socket_connected_handler`. A failed connect and a timeout are noticed
and not acted upon. -/
def connectedHandler (k : Sock) : Sock :=
  match k.u.peer.connection with
  | none => k
  | some c => (k.onCycle (·.delWriteTimer c)).onUpstream (·.dummyHandlers)

end NgxPhp
