import NgxPhp.Socket.Connect

/-!
# Sending and receiving on the connection of an upstream

A send keeps its unsent rest in `u->request_bufs` and lets the write event go on
with it. A receive delivers its data at once or leaves the read event to try
again. The event handler of the connection runs the handler of the direction.
-/

namespace NgxPhp

/-- The loop of `ngx_http_php_socket_upstream_send`: offer the rest of the buffer until it
is empty, blocked or refused. -/
def sendLoop (c : ConnId) : List SendAnswer → Bytes → Cycle → Rc × Bytes × Cycle
  | .accepted n :: answers, b, cy =>
    let cy := cy.record (.send c b (min n b.length))
    if b.drop n = [] then (.ok, [], cy) else sendLoop c answers (b.drop n) cy
  | .error :: _, b, cy => (.error, b, cy.record (.send c b 0))
  | .again :: _, b, cy => (.again, b, cy.record (.send c b 0))
  | [], b, cy => (.again, b, cy.record (.send c b 0))

/-- `ngx_http_php_socket_upstream_send`. -/
def upstreamSend (ans : SendAnswers) (k : Sock) : Rc × Sock :=
  match k.u.peer.connection, k.u.requestBufs with
  | some c, some bytes =>
    match sendLoop c ans.sends bytes k.cy with
    | (.ok, _, cy) =>
      let k := { k with
        cy := cy.delWriteTimer c
        u := { k.u with requestBufs := none, sender := none, writeEventHandler := .dummy } }
      if ans.writeEvent ≠ .ok then (.error, k) else (.ok, k.onCycle (·.handleWriteEvent c))
    | (.error, rest, cy) => (.error, { k with cy, u := { k.u with requestBufs := some rest } })
    | (_, rest, cy) =>
      let k := { k with
        phaseStatus := .again
        cy := cy.addWriteTimer c k.u.writeTimeout
        u := { k.u with requestBufs := some rest, writeEventHandler := .send } }
      if ans.writeEvent ≠ .ok then (.error, k) else (.again, k.onCycle (·.handleWriteEvent c))
  | _, _ => (.error, k)

/-- `ngx_http_php_socket_send_handler`. -/
def sendHandler (ans : SendAnswers) (k : Sock) : Sock :=
  match k.u.peer.connection with
  | none => k
  | some c =>
    if (k.cy.connections c).write.timedout then k
    else if k.u.requestBufs.isSome then (upstreamSend ans k).2
    else k

/-- The end of `ngx_http_php_socket_upstream_recv` behind its loop: wait for the next read
event and return `n`. -/
def awaitRead (ans : RecvAnswers) (c : ConnId) (n : Int) (k : Sock) : Int × Sock :=
  let k := { k with phaseStatus := .again }
  if ans.readEvent ≠ .ok then (Rc.error.toInt, k)
  else
    let k := k.onCycle (·.handleReadEvent c)
    if (k.cy.connections c).read.active then (n, k.onCycle (·.addReadTimer c k.u.readTimeout))
    else (n, k.onCycle (·.delReadTimer c))

/-- One `c->recv`, which sets `rev->ready`. -/
def Cycle.recv (cy : Cycle) (c : ConnId) (ready : Bool) : Cycle :=
  (cy.modify c fun k => { k with read := { k.read with ready } }).record (.recv c)

/-- What `ngx_http_php_socket_upstream_recv` does with the result of `c->recv`. With `page`,
a page receive that has drained the socket, the result is also left in `recv_code`. -/
def takeRecv (ans : RecvAnswers) (page : Bool) (c : ConnId) (k : Sock) : Int × Sock :=
  let k := if page then { k with codeValue := some ans.recv.toInt } else k
  match ans.recv with
  | .error => (Rc.error.toInt, k)
  | .data first rest =>
    let k := { k with u := { k.u with buffer := none }, recvText := first :: rest }
    if page then awaitRead ans c ans.recv.toInt k else (Rc.again.toInt, k)
  | .again => awaitRead ans c Rc.again.toInt k
  | .eof => awaitRead ans c 0 (k.onUpstream fun u => { u with buffer := none })

/-- `ngx_http_php_socket_upstream_recv`. Each way through the loop leaves it within the
first round, so there is at most one `c->recv`. -/
def upstreamRecv (ans : RecvAnswers) (k : Sock) : Int × Sock :=
  match k.u.peer.connection with
  | none => (Rc.error.toInt, k)
  | some c =>
    let rev := (k.cy.connections c).read
    let room := k.u.buffer.getD k.u.bufferSize
    let k := k.onUpstream fun u => { u with buffer := some room }
    if room = 0 then awaitRead ans c 0 (k.onUpstream fun u => { u with buffer := none })
    else if rev.active && !rev.ready then awaitRead ans c Rc.again.toInt k
    else
      takeRecv ans (k.u.enabledReceivePage && rev.active && !ans.ready) c
        (k.onCycle (·.recv c ans.ready))

/-- `ngx_http_php_socket_upstream_recv_handler`. -/
def upstreamRecvHandler (ans : RecvAnswers) (k : Sock) : Sock :=
  match k.u.peer.connection with
  | none => k
  | some c =>
    if (k.cy.connections c).read.timedout then k
    else
      let k := (k.onUpstream fun u => { u with enabledReceive := true }).onCycle (·.delReadTimer c)
      if k.u.buffer.isSome then (upstreamRecv ans k).2 else k

/-- `ngx_http_php_socket_send`. -/
def socketSend (ans : SendAnswers) (k : Sock) : Rc × Sock :=
  match k.u.peer.connection with
  | none => (.error, k)
  | some _ =>
    let k := k.onUpstream fun u => { u with enabledReceive := false }
    if k.u.request ≠ k.r then (.error, k) else upstreamSend ans k

/-- The read event goes to `ngx_http_php_socket_upstream_recv_handler`. -/
def Sock.awaitRecv (k : Sock) : Sock :=
  k.onUpstream fun u => { u with readEventHandler := .recv }

/-- What `ngx_http_php_socket_recv` and `ngx_http_php_socket_recv_wait` share: the first
receive only marks the upstream, later ones register the read event if `register`. -/
def recvThenAwait (ans : RecvAnswers) (register : Bool) (k : Sock) : Option Int × Sock :=
  match k.u.peer.connection with
  | none => (none, k)
  | some c =>
    if k.u.request ≠ k.r then (none, k)
    else
      match upstreamRecv ans k with
      | (rc, k) =>
        if !k.u.enabledReceive then
          (some rc, (k.onUpstream fun u => { u with enabledReceive := true }).awaitRecv)
        else if register then
          if ans.addEvent = .error then (none, k)
          else (some rc, (k.onCycle (·.addReadEvent c)).awaitRecv)
        else (some rc, k.awaitRecv)

/-- `ngx_http_php_socket_recv`. -/
def socketRecv (ans : RecvAnswers) (k : Sock) : Int × Sock :=
  match recvThenAwait ans true k with
  | (some rc, k) => (rc, k)
  | (none, k) => (Rc.error.toInt, k)

/-- `ngx_http_php_socket_recv_wait`, which hides the result of the receive. -/
def socketRecvWait (ans : RecvAnswers) (k : Sock) : Int × Sock :=
  match recvThenAwait ans (!k.u.waitReceive) k with
  | (some _, k) => (Rc.ok.toInt, k)
  | (none, k) => (Rc.error.toInt, k)

/-- `ngx_http_php_socket_recv_sync`. -/
def socketRecvSync (ans : RecvAnswers) (k : Sock) : Int × Sock :=
  match k.u.peer.connection with
  | none => (Rc.error.toInt, k)
  | some _ =>
    if k.u.request ≠ k.r then (Rc.error.toInt, k)
    else
      match upstreamRecv ans k with
      | (rc, k) =>
        if rc = Rc.again.toInt ∨ rc = Rc.error.toInt ∨ rc = Rc.ok.toInt then (rc, k)
        else (Rc.ok.toInt, k.awaitRecv)

/-- What the handler of a connection event asks of the connection. -/
structure HandlerAnswers where
  send : SendAnswers := { sends := [] }
  recv : RecvAnswers := { recv := .again }
  deriving DecidableEq, Repr

/-- Run one of the handlers of an upstream. -/
def Sock.runHandler (k : Sock) (ans : HandlerAnswers) : UpstreamHandler → Sock
  | .unset => k
  | .dummy => k
  | .connected => connectedHandler k
  | .send => sendHandler ans.send k
  | .recv => upstreamRecvHandler ans.recv k

/-- The handler of one direction. -/
def Upstream.eventHandler (u : Upstream) (write : Bool) : UpstreamHandler :=
  if write then u.writeEventHandler else u.readEventHandler

/-- The part of `ngx_http_php_socket_handler` before it resumes the script: run the handler
of the direction. -/
def Sock.handleEvent (k : Sock) (write : Bool) (ans : HandlerAnswers) : Sock :=
  k.runHandler ans (k.u.eventHandler write)

/-! ## What a receive leaves -/

/-- What becomes of a socket with the connection `c` behind the receive that a library call
makes. -/
inductive Sock.AfterRecv (k : Sock) (c : ConnId) : Sock → Prop
  | failed : AfterRecv k c k
  | enabled : AfterRecv k c (k.onUpstream fun u => { u with enabledReceive := true }).awaitRecv
  | registered : AfterRecv k c (k.onCycle (·.addReadEvent c)).awaitRecv
  | again : AfterRecv k c k.awaitRecv

/-- What a library call that receives leaves, if it comes as far as the receive. -/
def Sock.RecvLeaves (k : Sock) (ans : RecvAnswers) (k' : Sock) : Prop :=
  k' = k ∨ ∃ c, k.u.peer.connection = some c ∧ (upstreamRecv ans k).2.AfterRecv c k'

theorem recvThenAwait_recvLeaves (ans : RecvAnswers) (register : Bool) (k : Sock) :
    k.RecvLeaves ans (recvThenAwait ans register k).2 := by
  unfold recvThenAwait
  split
  · exact Or.inl rfl
  · next c hc =>
    split
    · exact Or.inl rfl
    · refine Or.inr ⟨c, hc, ?_⟩
      generalize upstreamRecv ans k = res
      obtain ⟨rc, k₁⟩ := res
      dsimp only
      split
      · exact .enabled
      · split
        · split
          · exact .failed
          · exact .registered
        · exact .again

theorem socketRecv_snd (ans : RecvAnswers) (k : Sock) :
    (socketRecv ans k).2 = (recvThenAwait ans true k).2 := by
  unfold socketRecv
  generalize recvThenAwait ans true k = res
  obtain ⟨_ | rc, k₁⟩ := res <;> rfl

theorem socketRecvWait_snd (ans : RecvAnswers) (k : Sock) :
    (socketRecvWait ans k).2 = (recvThenAwait ans (!k.u.waitReceive) k).2 := by
  unfold socketRecvWait
  generalize recvThenAwait ans (!k.u.waitReceive) k = res
  obtain ⟨_ | rc, k₁⟩ := res <;> rfl

theorem socketRecv_recvLeaves (ans : RecvAnswers) (k : Sock) :
    k.RecvLeaves ans (socketRecv ans k).2 := by
  rw [socketRecv_snd]
  exact recvThenAwait_recvLeaves ans true k

theorem socketRecvWait_recvLeaves (ans : RecvAnswers) (k : Sock) :
    k.RecvLeaves ans (socketRecvWait ans k).2 := by
  rw [socketRecvWait_snd]
  exact recvThenAwait_recvLeaves ans _ k

theorem socketRecvSync_recvLeaves (ans : RecvAnswers) (k : Sock) :
    k.RecvLeaves ans (socketRecvSync ans k).2 := by
  unfold socketRecvSync
  split
  · exact Or.inl rfl
  · next c hc =>
    split
    · exact Or.inl rfl
    · refine Or.inr ⟨c, hc, ?_⟩
      generalize upstreamRecv ans k = res
      obtain ⟨rc, k₁⟩ := res
      dsimp only
      split
      · exact .failed
      · exact .again

end NgxPhp
