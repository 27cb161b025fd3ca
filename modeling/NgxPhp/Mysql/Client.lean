import NgxPhp.Request.Ownership

/-!
# The mysql client

`mysql::connect` and the calls that follow it, for all objects of all requests of a worker. The
objects of a request have a socket each but share its upstream. A connect yields
until the socket is connected; then it skips the login if `ngx_socket_iskeepalive` says that the
connection was used before, and otherwise reads the server's greeting, sends its login packet and
reads the answer, which it does not look at. What is between two yields is one step here; reading
and the server's verdicts are steps of their own. The last login on each open connection is
recorded.
-/

namespace NgxPhp

open Function (update)

/-- `chr`. -/
def phpChr (n : Int) : UInt8 := UInt8.ofNat (n % 256).toNat

/-- The low `k` bytes of a number, least significant first: `pack` and `unpack` with `v`, `V` and
`P`, and the three bytes that are cut from `pack('V', …)`. -/
def packLE : Nat → Nat → Bytes
  | 0, _ => []
  | k + 1, n => UInt8.ofNat n :: packLE k (n / 256)

/-- `empty` of a string. -/
def phpEmpty (s : Bytes) : Bool := s = [] || s = [48]

/-- `^` of two strings. -/
def phpXor (s t : Bytes) : Bytes := List.zipWith (· ^^^ ·) s t

/-- What `write_packet` sends. -/
def writePacket (data : Bytes) (len : Nat) (chr : Int) : Bytes := packLE 3 len ++ phpChr chr :: data

/-- Whose session a login asks for. -/
structure Credentials where
  user : Bytes := []
  database : Bytes := []
  charset : Int := 0
  deriving DecidableEq, Repr

/-- `auth_packet`, with the packet that it passes to `write_packet`. -/
def authPacket (sha1 : Bytes → Bytes) (scramble password : Bytes) (cred : Credentials) : Bytes :=
  let stage1 := sha1 password
  let stage2 := sha1 stage1
  let stage3 := sha1 (scramble ++ stage2)
  let token := phpXor stage1 stage3
  let req := packLE 4 0x3f7cf ++ packLE 4 1048576 ++ [phpChr cred.charset] ++
    List.replicate 23 0 ++ cred.user ++ [0] ++ [phpChr token.length] ++ token ++
    cred.database ++ [0]
  writePacket req (4 + 4 + 1 + 23 + cred.user.length + 1 + token.length + 1 +
    cred.database.length + 1) 1

/-- The packet that `query` and `query2` send. -/
def queryPacket (sql : Bytes) : Bytes := writePacket (3 :: sql) (sql.length + 1) 0

/-- Where a client is. -/
inductive ClientPhase
  /-- It is not connected. -/
  | idle
  /-- `connect` has called `ngx_socket_connect` and yielded. -/
  | connecting
  /-- It waits for the greeting. -/
  | greeting
  /-- It has sent its login and waits for the answer. -/
  | authenticating
  /-- `connect` has gone through. -/
  | ready
  /-- `connect` has returned false. -/
  | refused
  deriving DecidableEq, Repr

/-- A mysql object in a script. -/
abbrev ClientId := Nat

/-- A mysql object: the request that uses it, its socket resource, and the arguments of its last
connect. -/
structure Client where
  request : ReqId := 0
  socket : Resource := 0
  phase : ClientPhase := .idle
  cred : Credentials := {}
  password : Bytes := []
  deriving DecidableEq, Repr

/-- A login that was sent on a connection; the server has accepted it or not (yet). -/
structure Login where
  cred : Credentials
  accepted : Bool := false
  deriving DecidableEq, Repr

/-- A worker whose requests use the client. -/
structure MysqlWorker where
  worker : Worker
  clients : ClientId → Client
  /-- The object whose connect was the last of each request, if it was of one. -/
  latest : ReqId → Option ClientId
  /-- The last login on each connection. -/
  logins : ConnId → Option Login

def MysqlWorker.init (maxCached : SrvId → Nat) (srv : ReqId → SrvId) (request : ClientId → ReqId)
    (socket : ClientId → Resource) : MysqlWorker where
  worker := .init maxCached srv
  clients := fun k => { request := request k, socket := socket k }
  latest := fun _ => none
  logins := fun _ => none

inductive MysqlStep
  /-- `connect` up to its yield. -/
  | connect (k : ClientId) (host : Bytes) (port : Nat) (cred : Credentials) (password : Bytes)
      (ans : ConnectAnswers)
  /-- `connect` goes on after its yield and asks whether the connection was used before. -/
  | connected (k : ClientId)
  /-- The greeting has been read, with this scramble, and the login is sent. -/
  | greeted (k : ClientId) (scramble : Bytes) (ans : SendAnswers)
  /-- The answer to the login has been read. -/
  | answered (k : ClientId)
  | query (k : ClientId) (sql : Bytes) (ans : SendAnswers)
  /-- A receiving call of the client. -/
  | receive (k : ClientId) (c : Call)
  | close (k : ClientId) (readEvent : Rc)
  | clear (k : ClientId) (readEvent : Rc)
  /-- The server accepts the login on a connection. -/
  | accepts (c : ConnId)
  /-- Anything else in the worker, also a call that no mysql object makes. -/
  | event (l : Step)
  deriving DecidableEq, Repr

/-- The receiving calls. -/
def Call.receives : Call → Bool
  | .recv _ _ _ _ => true
  | .recvpage _ _ _ _ _ => true
  | .recvwait _ _ _ _ => true
  | .recvsync _ _ _ _ => true
  | _ => false

/-- The object that takes a step, and the phases in which it can. -/
def MysqlStep.byClient : MysqlStep → Option (ClientId × List ClientPhase)
  | .connect k _ _ _ _ _ => some (k, [.idle, .ready, .refused])
  | .connected k => some (k, [.connecting])
  | .greeted k _ _ => some (k, [.greeting])
  | .answered k => some (k, [.authenticating])
  | .query k _ _ => some (k, [.idle, .ready, .refused])
  | .receive k _ => some (k, [.greeting, .authenticating, .idle, .ready, .refused])
  | .close k _ => some (k, [.idle, .ready, .refused])
  | .clear k _ => some (k, [.idle, .ready, .refused])
  | .accepts _ => none
  | .event _ => none

/-- The call of a library function on the socket of an object. -/
def MysqlWorker.callBy (m : MysqlWorker) (k : ClientId) (c : Resource → Call) : Step :=
  .call (m.clients k).request (c (m.clients k).socket)

/-- The step of the worker that a step makes, if it makes one. -/
def MysqlStep.inWorker (sha1 : Bytes → Bytes) (m : MysqlWorker) : MysqlStep → Option Step
  | .connect k host port _ _ ans =>
    some (m.callBy k fun s => .connect s (some afInet) host port ans)
  | .connected _ => none
  | .greeted k scramble ans =>
    if phpEmpty scramble then none
    else
      let packet := authPacket sha1 scramble (m.clients k).password (m.clients k).cred
      some (m.callBy k fun s => .send s packet packet.length ans)
  | .answered _ => none
  | .query k sql ans =>
    some (m.callBy k fun s => .send s (queryPacket sql) (queryPacket sql).length ans)
  | .receive k c => some (m.callBy k fun _ => c)
  | .close k readEvent => some (m.callBy k fun s => .close s readEvent)
  | .clear k readEvent => some (m.callBy k fun s => .clear s readEvent)
  | .accepts _ => none
  | .event l => some l

/-- What `ngx_socket_iskeepalive` says to the objects of request `r`. -/
def MysqlWorker.iskeepalive (m : MysqlWorker) (r : ReqId) : Bool :=
  (m.worker.session r).view.u.peer.cached

/-- The connection in the peer of request `r`. -/
def MysqlWorker.connection (m : MysqlWorker) (r : ReqId) : Option ConnId :=
  (m.worker.session r).view.u.peer.connection

/-- The request of an object. -/
def MysqlWorker.requestOf (m : MysqlWorker) (k : ClientId) : ReqId := (m.clients k).request

/-- The client after a step of its own. -/
def MysqlStep.onClient (m : MysqlWorker) (client : Client) : MysqlStep → Client
  | .connect _ _ _ cred password _ => { client with phase := .connecting, cred, password }
  | .connected _ =>
    { client with phase := if m.iskeepalive client.request then .ready else .greeting }
  | .greeted _ scramble _ =>
    { client with phase := if phpEmpty scramble then .refused else .authenticating }
  -- the answer is not looked at
  | .answered _ => { client with phase := .ready }
  | .close _ _ => { client with phase := .idle }
  | .clear _ _ => { client with phase := .idle }
  | _ => client

/-- The objects that have connected last after a step; a connect may be of none. -/
def MysqlStep.onLatest (m : MysqlWorker) : MysqlStep → ReqId → Option ClientId
  | .connect k _ _ _ _ _ => update m.latest (m.requestOf k) (some k)
  | .event (.call r (.connect _ _ _ _ _)) => update m.latest r none
  | _ => m.latest

/-- The logins after a step. -/
def MysqlStep.onLogins (m : MysqlWorker) : MysqlStep → ConnId → Option Login
  | .greeted k scramble _ =>
    match m.connection (m.requestOf k) with
    | none => m.logins
    | some c =>
      if phpEmpty scramble then m.logins
      else update m.logins c (some { cred := (m.clients k).cred })
  | .accepts c => update m.logins c ((m.logins c).map fun login => { login with accepted := true })
  | _ => m.logins

/-- When a step can be taken. -/
def MysqlWorker.Enabled (sha1 : Bytes → Bytes) (m : MysqlWorker) (l : MysqlStep) : Prop :=
  (∀ b ∈ l.byClient,
      (m.worker.requests (m.requestOf b.1)).live = true ∧ (m.clients b.1).phase ∈ b.2) ∧
    (∀ l' ∈ l.inWorker sha1 m, m.worker.Enabled l') ∧
    match l with
    | .receive _ c => c.receives = true
    | _ => True

/-- What a step does when it can be taken. A connection that is closed has no login. -/
def MysqlWorker.perform (sha1 : Bytes → Bytes) (m : MysqlWorker) (l : MysqlStep) : MysqlWorker :=
  let worker := ((l.inWorker sha1 m).map m.worker.perform).getD m.worker
  { worker
    clients := match l.byClient with
      | some (k, _) => update m.clients k (l.onClient m (m.clients k))
      | none => m.clients
    latest := l.onLatest m
    logins := fun c => if (worker.cy.connections c).isOpen then l.onLogins m c else none }

instance MysqlWorker.decidableEnabled (sha1 : Bytes → Bytes) (m : MysqlWorker) (l : MysqlStep) :
    Decidable (m.Enabled sha1 l) := by
  unfold MysqlWorker.Enabled
  have : Decidable (match l with
    | .receive _ c => c.receives = true
    | _ => True) := by
    split <;> infer_instance
  infer_instance

/-- Steps that cannot be taken change nothing. -/
def MysqlWorker.step (sha1 : Bytes → Bytes) (m : MysqlWorker) (l : MysqlStep) : MysqlWorker :=
  if m.Enabled sha1 l then m.perform sha1 l else m

end NgxPhp
