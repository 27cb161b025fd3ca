import NgxPhp.Socket.Transfer

/-!
# What a script can do to its request

The ctx of a request, and the library functions that a script calls on it. The
functions look the ctx up in `ngx_php_request` and ignore which socket resource
they are given; a call that would follow a `NULL` upstream has no result.
-/

namespace NgxPhp

/-- What `ctx->generator_closure` holds: no value yet, a generator, still valid or run to its
end, some other object, or an object that has been released. -/
inductive Closure
  | undef
  | generator (valid : Bool)
  | object
  | dangling
  deriving DecidableEq, Repr

/-- The part of `ngx_http_php_ctx_t` that the modelled functions use. -/
structure Ctx where
  phaseStatus : Rc := .ok
  generatorClosure : Option Closure := none
  /-- The text in `rputs_chain`. -/
  rputsChain : Option Bytes := none
  requestBodyMore : Bool := false
  readRequestBodyDone : Bool := false
  delayTime : Int := 0
  sleep : Event := {}
  upstream : Option Upstream := none
  host : Bytes := []
  port : Nat := 0
  /-- The variable that `ctx->recv_buf` points to, and the text in it. -/
  recvBuf : Option VarId := none
  recvText : Bytes := []
  /-- The variable that `ctx->recv_code` points to, and the number that was left in it. -/
  recvCode : Option VarId := none
  codeValue : Option Int := none
  endOfRequest : Bool := false
  deriving DecidableEq, Repr

/-- What the library functions of a script work on. -/
structure Session where
  r : ReqId
  ctx : Ctx
  /-- `ngx_http_php_sleep_cleanup` is among the cleanups of the request. -/
  sleepCleanup : Bool := false
  kc : KeepaliveConf
  cy : Cycle

/-- The upstream `u` of a session with what the socket functions set. -/
def Session.sock (k : Session) (u : Upstream) : Sock where
  r := k.r
  u := u
  phaseStatus := k.ctx.phaseStatus
  recvBuf := k.ctx.recvBuf
  recvText := k.ctx.recvText
  recvCode := k.ctx.recvCode
  codeValue := k.ctx.codeValue
  kc := k.kc
  cy := k.cy

/-- Write back what a socket function has changed. -/
def Session.withSock (k : Session) (t : Sock) : Session :=
  { k with
    ctx := { k.ctx with
      upstream := some t.u
      phaseStatus := t.phaseStatus
      recvBuf := t.recvBuf
      recvText := t.recvText
      recvCode := t.recvCode
      codeValue := t.codeValue }
    kc := t.kc
    cy := t.cy }

/-- `ngx_http_php_sleep`. -/
def ngxHttpPhpSleep (k : Session) : Session :=
  { k with
    ctx := { k.ctx with
      phaseStatus := .again
      sleep := { k.ctx.sleep.addTimer (BitVec.ofInt 64 k.ctx.delayTime).toNat with
        handler := .sleep } }
    sleepCleanup := true }

/-- `ngx_http_php_sleep_cleanup`, for a request with or without its ctx. -/
def sleepCleanup (moduleCtx : Bool) (ctx : Ctx) : Ctx :=
  if moduleCtx && ctx.sleep.timer.isSome then { ctx with sleep := ctx.sleep.delTimer } else ctx

theorem sleepCleanup_upstream (moduleCtx : Bool) (ctx : Ctx) :
    (sleepCleanup moduleCtx ctx).upstream = ctx.upstream := by
  unfold sleepCleanup
  split <;> rfl

/-- The cleanup reaches a timer through the ctx only. -/
theorem sleepCleanup_timer {moduleCtx : Bool} {ctx : Ctx}
    (h : ctx.sleep.timer = none ∨ moduleCtx = true) :
    (sleepCleanup moduleCtx ctx).sleep.timer = none := by
  unfold sleepCleanup
  split
  · rfl
  · next hn =>
    rcases h with ht | hctx
    · exact ht
    · simpa [hctx] using hn

/-- `ngx_http_php_socket_clear`, which does nothing without an upstream. -/
def Session.clear (k : Session) (readEvent : Rc) : Session :=
  match k.ctx.upstream with
  | none => k
  | some u => k.withSock (socketClear readEvent (k.sock u))

/-- `ngx_http_php_socket_close`: clear the socket, then sleep for no time. -/
def Session.close (k : Session) (readEvent : Rc) : Session :=
  match k.ctx.upstream with
  | none => k
  | some u =>
    match u.peer.connection with
    | none => k
    | some _ =>
      let k := k.withSock (socketClear readEvent (k.sock u))
      ngxHttpPhpSleep { k with ctx := { k.ctx with delayTime := 0 } }

/-- The values that the library functions return. -/
inductive PhpValue
  | null
  | bool (b : Bool)
  | int (n : Int)
  deriving DecidableEq, Repr

/-- `AF_INET`. -/
def afInet : Int := 2

/-- The calls of library functions, each with the answers that nginx gives to it. -/
inductive Call
  | sleep (time : Int)
  | msleep (time : Int)
  /-- `type` is that of the socket behind the resource, if there is one. -/
  | connect (s : Resource) (type : Option Int) (addr : Bytes) (port : Nat) (ans : ConnectAnswers)
  | close (s : Resource) (readEvent : Rc)
  | clear (s : Resource) (readEvent : Rc)
  | send (s : Resource) (buf : Bytes) (len : Int) (ans : SendAnswers)
  | recv (s : Resource) (buf : ScriptVar) (len : Nat) (ans : RecvAnswers)
  | recvpage (s : Resource) (buf : ScriptVar) (rc : VarId) (bufferSize : Nat) (ans : RecvAnswers)
  | recvwait (s : Resource) (buf : ScriptVar) (len : Nat) (ans : RecvAnswers)
  | recvsync (s : Resource) (buf : ScriptVar) (len : Nat) (ans : RecvAnswers)
  | settimeout (timeout : Nat)
  | iskeepalive
  deriving DecidableEq, Repr

/-- `ngx_sleep` and `ngx_msleep`, which differ in the unit of their argument. -/
def ngxSleep (unit time : Int) (k : Session) : PhpValue × Session :=
  (.null, ngxHttpPhpSleep { k with ctx := { k.ctx with delayTime := time * unit } })

/-- `ngx_socket_connect`. The result of the connect is not looked at. -/
def ngxSocketConnect (s : Resource) (type : Option Int) (addr : Bytes) (port : Nat)
    (ans : ConnectAnswers) (k : Session) : PhpValue × Session :=
  if type = some afInet then
    let k := { k with ctx := { k.ctx with host := addr, port } }
    let u := k.ctx.upstream.getD { request := k.r }
    (.bool true, k.withSock (socketConnect ans s port (k.sock u)).2)
  else (.bool false, k)

/-- `ngx_socket_close`. -/
def ngxSocketClose (readEvent : Rc) (k : Session) : PhpValue × Session :=
  (.bool true, k.close readEvent)

/-- `ngx_socket_clear`. -/
def ngxSocketClear (readEvent : Rc) (k : Session) : PhpValue × Session :=
  (.bool true, k.clear readEvent)

/-- `ngx_socket_send`. A buffer that is still being sent is replaced. -/
def ngxSocketSend (s : Resource) (buf : Bytes) (len : Int) (ans : SendAnswers) (k : Session) :
    Option (PhpValue × Session) :=
  if len < 0 then some (.bool false, k)
  else k.ctx.upstream.map fun u =>
    let u := { u with requestBufs := some buf, sender := some s }
    match socketSend ans (k.sock u) with
    | (rc, t) => (.int rc.toInt, k.withSock t)

/-- What a receiving function sets before it calls its C function: the buffer size, the page flag
and the pointers to the variables of the script. `zval_ptr_dtor` releases the value of the
variable, but the variable keeps it: without data it is read as before. -/
def Session.recvSock (k : Session) (buf : ScriptVar) (rc : Option VarId) (bufferSize : Nat)
    (u : Upstream) : Sock :=
  { k.sock { u with bufferSize, enabledReceivePage := rc.isSome || u.enabledReceivePage } with
    recvBuf := some buf.id
    recvText := buf.text
    recvCode := rc.or k.ctx.recvCode }

/-- The receiving functions pass on what their C function says; `rc` is the second variable of
`ngx_socket_recvpage`. -/
def ngxSocketRecvWith (buf : ScriptVar) (rc : Option VarId) (bufferSize : Nat)
    (f : Sock → Int × Sock) (k : Session) : Option (PhpValue × Session) :=
  k.ctx.upstream.map fun u =>
    match f (k.recvSock buf rc bufferSize u) with
    | (n, t) => (.int n, k.withSock t)

/-- `ngx_socket_recv`. -/
def ngxSocketRecv (buf : ScriptVar) (len : Nat) (ans : RecvAnswers) (k : Session) :
    Option (PhpValue × Session) :=
  ngxSocketRecvWith buf none len (socketRecv ans) k

/-- `ngx_socket_recvpage`, with the buffer size of the configuration. -/
def ngxSocketRecvpage (buf : ScriptVar) (rc : VarId) (bufferSize : Nat) (ans : RecvAnswers)
    (k : Session) : Option (PhpValue × Session) :=
  ngxSocketRecvWith buf (some rc) bufferSize (socketRecv ans) k

/-- `ngx_socket_recvwait`. -/
def ngxSocketRecvwait (buf : ScriptVar) (len : Nat) (ans : RecvAnswers) (k : Session) :
    Option (PhpValue × Session) :=
  ngxSocketRecvWith buf none len (socketRecvWait ans) k

/-- `ngx_socket_recvsync`. -/
def ngxSocketRecvsync (buf : ScriptVar) (len : Nat) (ans : RecvAnswers) (k : Session) :
    Option (PhpValue × Session) :=
  ngxSocketRecvWith buf none len (socketRecvSync ans) k

/-- `ngx_socket_settimeout`. -/
def ngxSocketSettimeout (timeout : Nat) (k : Session) : Option (PhpValue × Session) :=
  k.ctx.upstream.map fun u =>
    (.bool true, { k with ctx := { k.ctx with upstream := some { u with
      connectTimeout := timeout, readTimeout := timeout, writeTimeout := timeout } } })

/-- `ngx_socket_iskeepalive`. -/
def ngxSocketIskeepalive (k : Session) : Option (PhpValue × Session) :=
  k.ctx.upstream.map fun u => (.bool u.peer.cached, k)

/-- The result of a call; none when it would follow a `NULL` upstream. -/
def Session.call (k : Session) : Call → Option (PhpValue × Session)
  | .sleep time => some (ngxSleep 1000 time k)
  | .msleep time => some (ngxSleep 1 time k)
  | .connect s type addr port ans => some (ngxSocketConnect s type addr port ans k)
  | .close _ readEvent => some (ngxSocketClose readEvent k)
  | .clear _ readEvent => some (ngxSocketClear readEvent k)
  | .send s buf len ans => ngxSocketSend s buf len ans k
  | .recv _ buf len ans => ngxSocketRecv buf len ans k
  | .recvpage _ buf rc bufferSize ans => ngxSocketRecvpage buf rc bufferSize ans k
  | .recvwait _ buf len ans => ngxSocketRecvwait buf len ans k
  | .recvsync _ buf len ans => ngxSocketRecvsync buf len ans k
  | .settimeout timeout => ngxSocketSettimeout timeout k
  | .iskeepalive => ngxSocketIskeepalive k

end NgxPhp
