import NgxPhp.Request.Worker

/-!
# The executor and the script of a request

PHP has one executor for all requests of a worker, so `EG(exit_status)` is shared
between them. A script runs in segments: from its start or from a resume until it
yields, ends or bails out. In between it calls library functions, sets the status
and prints.
-/

namespace NgxPhp

/-- The phases whose handlers run scripts that may be suspended. -/
inductive Phase
  | rewrite
  | access
  | content
  deriving DecidableEq, Repr

/-- Whether the code of a phase contains `yield`. -/
inductive ScriptKind
  | generator
  | function
  deriving DecidableEq, Repr

/-- The ways out by `zend_bailout`. On an error PHP may set the status itself. -/
inductive Bailout
  | exit (status : Int)
  | error (status : Option Int)
  deriving DecidableEq, Repr

/-- How a segment ends. -/
inductive Stop
  /-- With `operand` the value that is yielded is that of the latest library call. -/
  | suspend (operand : Bool)
  | finish
  /-- An object was returned, whose method `valid` says `valid` if it can be called. -/
  | object (valid : Option Bool)
  | bailout (b : Bailout)
  deriving DecidableEq, Repr

/-- What the method `valid` says afterwards. -/
def Stop.valid : Stop → Option Bool
  | .suspend _ => some true
  | .finish => some false
  | .object valid => valid
  | .bailout _ => none

/-- The segments of a script of this kind end so. -/
def ScriptKind.stops : ScriptKind → Stop → Bool
  | _, .bailout _ => true
  | _, .finish => true
  | .generator, .suspend _ => true
  | .function, .object _ => true
  | _, _ => false

/-- The calls of `next` and `valid` on the closure end so. -/
def Closure.stops : Closure → Stop → Bool
  | .generator _, s => ScriptKind.generator.stops s
  | .object, .object _ => true
  | .object, .bailout _ => true
  | _, _ => false

/-- What a script does within a segment. -/
inductive Action
  | call (c : Call)
  | echo (b : Bytes)
  /-- `ngx_status`. -/
  | status (n : Int)
  /-- `ngx_redirect`; with `allocated` there was room for the header. -/
  | redirect (n : Int) (allocated : Bool)
  deriving DecidableEq, Repr

/-- The operations that a script waits for. -/
inductive Wait
  | sleep
  /-- The connection that the connect has been given, and the query that it has left. -/
  | connect (c : Option ConnId) (q : Option Query)
  | send
  | recv
  deriving DecidableEq, Repr

/-- The connection of the peer. -/
def Session.connection (k : Session) : Option ConnId :=
  k.ctx.upstream.bind (·.peer.connection)

/-- The connection that the request was given between the two states. -/
def Session.given (k k' : Session) : Option ConnId :=
  if k'.cy.acts = k.cy.acts then none else k'.connection

/-- The query that a connect on resource `s` leaves with the resolver. -/
def ConnectAnswers.query (ans : ConnectAnswers) (s : Resource) : Option Query :=
  match ans.parseUrl, ans.resolveStart, ans.resolveName with
  | .name, .started id, .pending => some ⟨id, s⟩
  | _, _, _ => none

/-- The operation that a call with result `v` leaves to wait for. -/
def Call.waits (c : Call) (v : PhpValue) (k k' : Session) : Option Wait :=
  match c with
  | .sleep _ => some .sleep
  | .msleep _ => some .sleep
  | .connect s _ _ _ ans =>
    if v = .bool true then some (.connect (k.given k') (ans.query s)) else none
  | .send _ _ _ _ => if v = .int Rc.again.toInt then some .send else none
  | .recv _ _ _ _ => if v = .int Rc.again.toInt then some .recv else none
  | _ => none

/-- The resolver's answer to its query may give a connect its connection. -/
def Wait.resolved (w : Wait) (q : Query) (given : Option ConnId) : Wait :=
  match w with
  | .connect c q' => if q' = some q then .connect given none else .connect c q'
  | w => w

/-- The outcome of `ngx_http_read_client_request_body`; when it is done at once it runs the
callback, with or without data. -/
inductive ReadBody
  | failed (rc : Int)
  | again
  | done (data : Bool)
  deriving DecidableEq, Repr

/-- The outcome of compiling the code of a phase. -/
inductive Compiled
  | script (kind : ScriptKind)
  | failed (status : Option Int)
  deriving DecidableEq, Repr

/-- What a handler reads of its request and is answered by nginx. -/
structure Entry where
  allocated : Bool := true
  /-- The method is `POST`, `PUT`, `DELETE` or `PATCH`. -/
  hasBody : Bool := false
  readBody : ReadBody := .again
  compiled : Compiled := .script .generator
  /-- The method is `HEAD`. -/
  head : Bool := false
  /-- The result of `ngx_http_send_header` that is called for `HEAD` only. -/
  sendHeadHeader : Int := 0
  sendHeader : Int := 0
  deriving DecidableEq, Repr

/-- The response that was passed to `ngx_http_output_filter`. -/
structure Response where
  status : Int
  body : Bytes
  deriving DecidableEq, Repr

/-- What the handler of a phase has returned, and sent. -/
structure Returned where
  phase : Phase
  rc : Int
  response : Option Response
  deriving DecidableEq, Repr

/-- On whose behalf code of the request runs: `ngx_http_php_zend_uthread_create`, an event
handler that is about to resume the script, or `ngx_http_php_zend_uthread_resume`. -/
inductive Running
  | create (phase : Phase) (kind : ScriptKind) (entry : Entry)
  | handler
  | resume
  deriving DecidableEq, Repr

/-- A request with its script. The fields from `returned` on are history that no function
reads. -/
structure Thread where
  session : Session
  moduleCtx : Bool := false
  running : Option Running := none
  /-- `r->main->count`, without what nginx takes off it. -/
  count : Nat := 1
  headersOutStatus : Int := 0
  /-- What the handlers have returned, the latest one first. -/
  returned : List Returned := []
  /-- How often `ngx_http_core_run_phases` was called. -/
  runPhases : Nat := 0
  /-- What the latest library call of the segment has left to wait for. -/
  lastWait : Option Wait := none
  /-- What the suspended script waits for. -/
  waiting : Option Wait := none
  /-- The status that the request itself has set last. -/
  ownStatus : Int := 0

/-- The executor while it works for a request. -/
structure Executor where
  /-- `EG(exit_status)`. -/
  exitStatus : Int
  thread : Thread

namespace Executor

def onThread (e : Executor) (f : Thread → Thread) : Executor := { e with thread := f e.thread }

def onCtx (e : Executor) (f : Ctx → Ctx) : Executor :=
  e.onThread fun t => { t with session := { t.session with ctx := f t.session.ctx } }

/-- The ctx of the request. -/
def ctx (e : Executor) : Ctx := e.thread.session.ctx

/-- `ngx_php_set_request_status`. -/
def setRequestStatus (e : Executor) (n : Int) : Executor :=
  { exitStatus := n, thread := { e.thread with ownStatus := n } }

def setPhaseStatus (e : Executor) (rc : Rc) : Executor :=
  e.onCtx fun ctx => { ctx with phaseStatus := rc }

def setClosure (e : Executor) (g : Option Closure) : Executor :=
  e.onCtx fun ctx => { ctx with generatorClosure := g }

def setRunning (e : Executor) (run : Option Running) : Executor :=
  e.onThread fun t => { t with running := run }

/-- `ngx_http_core_run_phases`, whose effect on the request are further steps. -/
def runPhases (e : Executor) : Executor :=
  e.onThread fun t => { t with runPhases := t.runPhases + 1 }

/-- The handler of a phase returns `rc` to nginx. -/
def returns (e : Executor) (phase : Phase) (rc : Int) (response : Option Response) : Executor :=
  e.onThread fun t => { t with
    running := none
    returned := { phase, rc, response } :: t.returned }

/-- The statuses that `ngx_redirect` accepts. -/
def isRedirect (n : Int) : Bool := n = 302 || n = 301 || n = 303 || n = 307 || n = 308

/-- One thing that the script does. -/
def act (e : Executor) : Action → Executor
  | .call c =>
    match e.thread.session.call c with
    | some (v, k) => e.onThread fun t => { t with
        session := k
        lastWait := c.waits v t.session k }
    -- the worker is gone
    | none => e
  | .echo b => e.onCtx fun ctx => { ctx with rputsChain := some (ctx.rputsChain.getD [] ++ b) }
  | .status n => (e.onThread fun t => { t with headersOutStatus := n }).setRequestStatus n
  | .redirect n allocated =>
    if isRedirect n && allocated then
      (e.onThread fun t => { t with headersOutStatus := n }).setRequestStatus n
    else e

/-- The status that a bailout leaves. -/
def leave (e : Executor) : Stop → Executor
  | .bailout (.exit status) => e.setRequestStatus status
  | .bailout (.error (some status)) => e.setRequestStatus status
  | _ => e

/-- A new segment begins. -/
def beginSegment (e : Executor) (run : Running) : Executor :=
  e.onThread fun t => { t with running := some run, lastWait := none, waiting := none }

/-- The script is suspended. -/
def suspend (e : Executor) (operand : Bool) : Executor :=
  e.onThread fun t => { t with waiting := if operand then t.lastWait else none }

end Executor

end NgxPhp
