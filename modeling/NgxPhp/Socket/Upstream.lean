import NgxPhp.Keepalive.Pool

/-!
# The upstream of a request

One `ngx_http_php_socket_upstream_t` per request serves all its sockets. What
the functions below it ask of nginx, the resolver and the peer is collected in
records of answers, so that a call with its answers has one result.
-/

namespace NgxPhp

/-- The functions installed as `u->read_event_handler` and `u->write_event_handler`. -/
inductive UpstreamHandler
  | unset
  | dummy
  | connected
  | send
  | recv
  deriving DecidableEq, Repr

/-- A resolver query and the socket resource it was started for. -/
structure Query where
  id : Nat
  resource : Resource
  deriving DecidableEq, Repr

/-- The part of `ngx_http_upstream_resolved_t` that the module uses. -/
structure Resolved where
  sockaddr : Option SockAddr := none
  port : Nat := 0
  ctx : Option Query := none
  deriving DecidableEq, Repr

/-- `ngx_http_php_socket_upstream_t`, with the outstanding resolver queries and two
history variables that no function reads. -/
structure Upstream where
  request : ReqId
  readEventHandler : UpstreamHandler := .unset
  writeEventHandler : UpstreamHandler := .unset
  connectTimeout : Nat := 0
  readTimeout : Nat := 0
  writeTimeout : Nat := 0
  peer : PeerConnection := {}
  resolved : Option Resolved := none
  /-- The room `b->end - b->last` of `u->buffer` while `b->start` is not `NULL`. -/
  buffer : Option Nat := none
  bufferSize : Nat := 0
  enabledReceive : Bool := false
  waitReceive : Bool := false
  enabledReceivePage : Bool := false
  /-- The unsent bytes of the buffer in `u->request_bufs`. -/
  requestBufs : Option Bytes := none
  queries : List Query := []
  /-- The resource whose connect stored `peer.connection`, until a finalize. -/
  holds : Option Resource := none
  /-- The resource whose send filled `requestBufs`. -/
  sender : Option Resource := none
  deriving DecidableEq, Repr

/-- A variable of a script. -/
abbrev VarId := Nat

/-- A variable that a script passes to a receive, with the text that is read from it. -/
structure ScriptVar where
  id : VarId := 0
  text : Bytes := []
  deriving DecidableEq, Repr

/-- What is read from a variable with `text` once `got` has been received into it. -/
def readBack (text got : Bytes) : Bytes := if got = [] then text else got

@[simp] theorem readBack_nil (text : Bytes) : readBack text [] = text := rfl

@[simp] theorem readBack_cons (text : Bytes) (first : UInt8) (rest : Bytes) :
    readBack text (first :: rest) = first :: rest := rfl

theorem readBack_empty (got : Bytes) : readBack [] got = got := by
  cases got <;> rfl

/-- What the socket functions work on: a request's upstream, the fields of its ctx they
set, the keepalive pool of its server and the connection table. -/
structure Sock where
  r : ReqId
  u : Upstream
  phaseStatus : Rc
  /-- The variable that `ctx->recv_buf` points to, and the text in it. -/
  recvBuf : Option VarId
  recvText : Bytes
  /-- The variable that `ctx->recv_code` points to, and the number that was left in it. -/
  recvCode : Option VarId
  codeValue : Option Int
  kc : KeepaliveConf
  cy : Cycle

/-- The outcome of `ngx_event_connect_peer` once the pool had no connection. -/
inductive ConnectAnswer
  /-- No socket or no connection structure was to be had, or no peer is live. -/
  | refused (busy : Bool)
  /-- A connection was opened and closed again. -/
  | failed (c : ConnId) (declined : Bool)
  | established (c : ConnId)
  | inProgress (c : ConnId)
  deriving DecidableEq, Repr

/-- What `ngx_http_php_socket_resolve_retval_handler` asks of nginx. -/
structure RetvalAnswers where
  addEvent : Rc := .ok
  connect : ConnectAnswer
  poolCreated : Bool := true
  writeEvent : Rc := .ok
  readEvent : Rc := .ok
  deriving DecidableEq, Repr

/-- What the resolver hands to `ngx_http_php_socket_resolve_handler`, the random index
and the allocation it makes, and the answers to the connect that follows. -/
structure ResolveAnswers where
  state : Nat := 0
  addrs : List SockAddr
  random : Nat := 0
  textAllocated : Bool := true
  retval : RetvalAnswers
  deriving DecidableEq, Repr

/-- The outcome of `ngx_parse_url`. -/
inductive ParseUrl
  | error
  | address (addr : SockAddr)
  | name
  deriving DecidableEq, Repr

/-- The outcome of `ngx_resolve_start`. -/
inductive ResolveStart
  | null
  | noResolver
  | started (id : Nat)
  deriving DecidableEq, Repr

/-- The outcome of `ngx_resolve_name`, which may run the handler at once. -/
inductive ResolveName
  | error
  | pending
  | resolved (ans : ResolveAnswers)
  deriving DecidableEq, Repr

/-- What `ngx_http_php_socket_connect` asks of nginx and of the resolver. -/
structure ConnectAnswers where
  parseUrl : ParseUrl
  retval : RetvalAnswers := { connect := .refused false }
  resolveStart : ResolveStart := .noResolver
  resolveName : ResolveName := .error
  deriving DecidableEq, Repr

/-- The result of one `c->send`. -/
inductive SendAnswer
  | accepted (n : Nat)
  | again
  | error
  deriving DecidableEq, Repr

/-- What `ngx_http_php_socket_upstream_send` asks of the connection; a `c->send` beyond
the list would block. -/
structure SendAnswers where
  sends : List SendAnswer
  writeEvent : Rc := .ok
  deriving DecidableEq, Repr

/-- The result of one `c->recv`; data is at least one byte. -/
inductive RecvAnswer
  | data (first : UInt8) (rest : Bytes)
  | eof
  | again
  | error
  deriving DecidableEq, Repr

/-- What `ngx_http_php_socket_upstream_recv` asks of the connection: the result of
`c->recv`, what it leaves in `rev->ready`, and the outcomes of event registration. -/
structure RecvAnswers where
  recv : RecvAnswer
  ready : Bool := false
  readEvent : Rc := .ok
  addEvent : Rc := .ok
  deriving DecidableEq, Repr

/-- The number that `c->recv` returns. -/
def RecvAnswer.toInt : RecvAnswer → Int
  | .data _ rest => rest.length + 1
  | .eof => Rc.ok.toInt
  | .again => Rc.again.toInt
  | .error => Rc.error.toInt

/-- The structure a connect would be given. -/
def RetvalAnswers.conn? (ans : RetvalAnswers) : Option ConnId :=
  match ans.connect with
  | .refused _ => none
  | .failed c _ => some c
  | .established c => some c
  | .inProgress c => some c

def ConnectAnswers.conn? (ans : ConnectAnswers) : Option ConnId :=
  match ans.parseUrl with
  | .error => none
  | .address _ => ans.retval.conn?
  | .name =>
    match ans.resolveName with
    | .resolved res => res.retval.conn?
    | _ => none

/-- `ngx_get_connection` hands out structures of the free list only. -/
def Cycle.Fresh (cy : Cycle) (c : Option ConnId) : Prop :=
  ∀ d ∈ c, (cy.connections d).isOpen = false

instance Cycle.decidableFresh (cy : Cycle) (c : Option ConnId) : Decidable (cy.Fresh c) := by
  unfold Cycle.Fresh
  infer_instance

/-- Both address families keep the port in the third and fourth byte. -/
def SockAddr.withPort (addr : SockAddr) (port : Nat) : SockAddr :=
  List.take 2 addr ++ [UInt8.ofNat (port / 256), UInt8.ofNat port] ++ List.drop 4 addr

/-- Work on the connection structures only. -/
def Sock.onCycle (k : Sock) (f : Cycle → Cycle) : Sock := { k with cy := f k.cy }

/-- Work on the upstream only. -/
def Sock.onUpstream (k : Sock) (f : Upstream → Upstream) : Sock := { k with u := f k.u }

end NgxPhp
