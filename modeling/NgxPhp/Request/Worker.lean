import NgxPhp.Lib.Machine
import NgxPhp.Request.Session

/-!
# A worker and its requests

The requests of a worker share its connection table and the keepalive pools of
their servers. A step is one library call, one event or one thing that nginx
does to a request or a connection, so a run is any interleaving of the scripts
of all requests with all events. What a script does between two calls, and the
ends of generators, are not tied to a particular program. A request has one ctx:
once nginx has redirected it internally, it goes on as another one.
-/

namespace NgxPhp

open Function (update)

/-- A request as the worker keeps it, with one ctx. -/
structure Request where
  srv : SrvId
  /-- The request still has its ctx; `set_output` or an internal redirect takes it away. -/
  moduleCtx : Bool := true
  ctx : Ctx := {}
  sleepCleanup : Bool := false
  /-- The request that goes on with the ctx that was made after a redirect. -/
  redirected : Option ReqId := none
  /-- nginx has run the cleanups and freed the request. -/
  closed : Bool := false
  deriving DecidableEq

structure Worker where
  requests : ReqId → Request
  pools : SrvId → KeepaliveConf
  cy : Cycle

/-- A worker before its first connection, with pools of the given sizes. -/
def Worker.init (maxCached : SrvId → Nat) (srv : ReqId → SrvId) : Worker where
  requests := fun r => { srv := srv r }
  pools := fun p => keepaliveInit p (maxCached p)
  cy := .init

/-- What request `r` works on. -/
def Worker.session (w : Worker) (r : ReqId) : Session where
  r := r
  ctx := (w.requests r).ctx
  sleepCleanup := (w.requests r).sleepCleanup
  kc := w.pools (w.requests r).srv
  cy := w.cy

/-- Write back what request `r` has changed. -/
def Worker.withSession (w : Worker) (r : ReqId) (k : Session) : Worker where
  requests := update w.requests r { w.requests r with
    ctx := k.ctx, sleepCleanup := k.sleepCleanup }
  pools := update w.pools (w.requests r).srv k.kc
  cy := k.cy

def Worker.onRequest (w : Worker) (r : ReqId) (f : Request → Request) : Worker :=
  { w with requests := update w.requests r (f (w.requests r)) }

@[simp] theorem Worker.withSession_self (w : Worker) (r : ReqId) (k : Session) :
    (w.withSession r k).requests r = { w.requests r with
      ctx := k.ctx, sleepCleanup := k.sleepCleanup } :=
  Function.update_self ..

theorem Worker.withSession_of_ne (w : Worker) {r r' : ReqId} (k : Session) (h : r' ≠ r) :
    (w.withSession r k).requests r' = w.requests r' :=
  Function.update_of_ne h ..

@[simp] theorem Worker.onRequest_self (w : Worker) (r : ReqId) (f : Request → Request) :
    (w.onRequest r f).requests r = f (w.requests r) :=
  Function.update_self ..

theorem Worker.onRequest_of_ne (w : Worker) {r r' : ReqId} (f : Request → Request) (h : r' ≠ r) :
    (w.onRequest r f).requests r' = w.requests r' :=
  Function.update_of_ne h ..

/-- A script of the request can run. -/
def Request.live (q : Request) : Bool := q.moduleCtx && !q.closed

/-- The functions that look the ctx of the request up find one. -/
def Request.findsCtx (q : Request) : Bool := (q.moduleCtx || q.redirected.isSome) && !q.closed

/-- A request whose script can run has not been closed. -/
theorem Request.closed_of_live {q : Request} (h : q.live = true) : q.closed = false := by
  unfold live at h
  obtain ⟨_, hclosed⟩ := Bool.and_eq_true_iff.mp h
  simpa using hclosed

/-- A request that has a ctx has not been closed. -/
theorem Request.closed_of_findsCtx {q : Request} (h : q.findsCtx = true) : q.closed = false := by
  unfold findsCtx at h
  obtain ⟨_, hclosed⟩ := Bool.and_eq_true_iff.mp h
  simpa using hclosed

/-- The start of `ngx_http_php_zend_uthread_resume`: with no generator left the socket is
cleared, otherwise the script runs on and its calls are steps of their own. -/
def Session.resumeWithout (k : Session) (readEvent : Rc) : Session :=
  match k.ctx.generatorClosure with
  | none => k.clear readEvent
  | some _ => k

/-- How an event came about. -/
inductive Wake
  | ready
  | timedOut
  deriving DecidableEq, Repr

/-- What the event loop sets in an event before it runs the handler. -/
def Event.wake (ev : Event) : Wake → Event
  | .ready => { ev with ready := true }
  | .timedOut => { ev.delTimer with timedout := true }

/-- The event loop reports on one direction of a connection. -/
def Cycle.wake (cy : Cycle) (c : ConnId) (write : Bool) (how : Wake) : Cycle :=
  cy.modify c fun k =>
    if write then { k with write := k.write.wake how } else { k with read := k.read.wake how }

theorem Cycle.wake_sameUse (cy : Cycle) (c d : ConnId) (write : Bool) (how : Wake) :
    (cy.connections d).SameUse ((cy.wake c write how).connections d) := by
  refine cy.modify_sameUse (fun k => ?_) d
  cases write <;> cases how <;> exact ⟨rfl, rfl, rfl, rfl⟩

/-- The event of one direction. -/
def Connection.event (k : Connection) (write : Bool) : Event := if write then k.write else k.read

inductive Step
  | call (r : ReqId) (c : Call)
  /-- The generator of a request is made, moves or goes away. -/
  | closure (r : ReqId) (g : Option Closure)
  | resolved (r : ReqId) (q : Query) (ans : ResolveAnswers)
  | connectionEvent (c : ConnId) (write : Bool) (how : Wake) (ans : HandlerAnswers)
      (readEvent : Rc)
  | sleepTimer (r : ReqId) (readEvent : Rc)
  | poolEvent (c : ConnId) (closing peekAgain : Bool) (readEvent : Rc)
  /-- `set_output` takes the ctx away. -/
  | setOutput (r : ReqId)
  /-- nginx redirects the request internally, which takes its ctx away, and a handler of the new
  location makes the ctx of `next`. -/
  | redirect (r next : ReqId)
  /-- nginx runs the cleanups of the request and frees it. -/
  | closeRequest (r : ReqId)
  /-- Connections that are none of the module's. -/
  | getOther (c : ConnId)
  | closeOther (c : ConnId)
  deriving DecidableEq, Repr

/-- The calls that open a connection open a fresh one. -/
def Cycle.FreshCall (cy : Cycle) : Call → Prop
  | .connect _ _ _ _ ans => cy.Fresh ans.conn?
  | _ => True

instance Cycle.decidableFreshCall (cy : Cycle) (c : Call) : Decidable (cy.FreshCall c) := by
  cases c <;> unfold Cycle.FreshCall <;> infer_instance

/-- The handler of an event has been called for a request that has a ctx. -/
def Worker.ForRequest (w : Worker) (c : ConnId) (write : Bool) : Prop :=
  (w.cy.connections c).isOpen = true ∧
    ((w.cy.connections c).event write).handler = .phpSocket ∧
    match (w.cy.connections c).data with
    | .upstream r => (w.requests r).findsCtx = true
    | _ => False

instance Worker.decidableForRequest (w : Worker) (c : ConnId) (write : Bool) :
    Decidable (w.ForRequest c write) := by
  unfold Worker.ForRequest
  cases (w.cy.connections c).data <;> infer_instance

/-- A timer that is armed can expire. -/
def Event.canWake (ev : Event) : Wake → Prop
  | .ready => True
  | .timedOut => ev.timer.isSome = true

instance Event.decidableCanWake (ev : Event) (how : Wake) : Decidable (ev.canWake how) := by
  cases how <;> unfold Event.canWake <;> infer_instance

/-- The event is one of a connection of request `r`. -/
def Cycle.EventOf (cy : Cycle) (r : ReqId) (d : ConnId) (write : Bool) (how : Wake) : Prop :=
  (cy.connections d).isOpen = true ∧ (cy.connections d).data = .upstream r ∧
    ((cy.connections d).event write).handler = .phpSocket ∧
    ((cy.connections d).event write).canWake how

instance Cycle.decidableEventOf (cy : Cycle) (r : ReqId) (d : ConnId) (write : Bool)
    (how : Wake) : Decidable (cy.EventOf r d write how) :=
  inferInstanceAs (Decidable (_ ∧ _))

/-- When a step can be taken. -/
def Worker.Enabled (w : Worker) : Step → Prop
  | .call r c => (w.requests r).live = true ∧ w.cy.FreshCall c
  | .closure r _ => (w.requests r).live = true
  -- only a finalize cancels a query, so its answer may come after the request has ended
  | .resolved r q ans =>
      (∃ u ∈ (w.requests r).ctx.upstream, q ∈ u.queries) ∧ w.cy.Fresh ans.retval.conn?
  | .connectionEvent c write how _ _ =>
    w.ForRequest c write ∧ ((w.cy.connections c).event write).canWake how
  | .sleepTimer r _ => (w.requests r).closed = false ∧ (w.requests r).ctx.sleep.timer.isSome = true
  | .poolEvent c _ _ _ => (w.cy.connections c).isOpen = true ∧
      (w.cy.connections c).read.handler = .keepaliveClose
  | .setOutput r => (w.requests r).live = true
  | .redirect r next => (w.requests r).closed = false ∧ (w.requests r).redirected = none ∧
      next ≠ r ∧ w.requests next = { srv := (w.requests r).srv }
  | .closeRequest r => (w.requests r).closed = false ∧
      ∀ next ∈ (w.requests r).redirected, (w.requests next).closed = true
  | .getOther c => (w.cy.connections c).isOpen = false
  | .closeOther c => owner w.cy.acts c = .other

instance Worker.decidableEnabled (w : Worker) (l : Step) : Decidable (w.Enabled l) := by
  cases l <;> unfold Worker.Enabled <;> infer_instance

/-- Run something on the session of a request. -/
def Worker.onSession (w : Worker) (r : ReqId) (f : Session → Session) : Worker :=
  w.withSession r (f (w.session r))

/-- Run something on the upstream of a session. -/
def Session.onSock (k : Session) (f : Sock → Sock) : Session :=
  match k.ctx.upstream with
  | none => k
  | some u => k.withSock (f (k.sock u))

/-- The resolver has answered a query. -/
def Sock.resolved (k : Sock) (q : Query) (ans : ResolveAnswers) : Sock :=
  resolveHandler ans q.resource (k.onUpstream fun u => { u with queries := u.queries.erase q })

/-- `ngx_http_php_socket_handler`, up to where a script would run on. After a redirect the
resume is one of the request that goes on, a step of its own. -/
def Session.socketHandler (k : Session) (moduleCtx write : Bool) (ans : HandlerAnswers)
    (readEvent : Rc) : Session :=
  let k := k.onSock fun t => t.handleEvent write ans
  if moduleCtx then k.resumeWithout readEvent else k

/-- The sleep timer has expired. -/
def Ctx.wakeSleep (ctx : Ctx) : Ctx := { ctx with sleep := ctx.sleep.wake .timedOut }

/-- `ngx_http_php_sleep_handler`, which resumes the script. -/
def Session.sleepTimer (k : Session) (readEvent : Rc) : Session :=
  { k with ctx := k.ctx.wakeSleep }.resumeWithout readEvent

/-- What a step does when it can be taken. -/
def Worker.perform (w : Worker) : Step → Worker
  | .call r c =>
    match (w.session r).call c with
    | some (_, k) => w.withSession r k
    -- the worker is gone
    | none => w
  | .closure r g =>
    w.onRequest r fun q => { q with ctx := { q.ctx with generatorClosure := g } }
  | .resolved r q ans => w.onSession r fun k => k.onSock fun t => t.resolved q ans
  | .connectionEvent c write how ans readEvent =>
    match (w.cy.connections c).data with
    | .upstream r =>
      { w with cy := w.cy.wake c write how }.onSession r fun k =>
        k.socketHandler (w.requests r).moduleCtx write ans readEvent
    | _ => w
  | .sleepTimer r readEvent =>
    if (w.requests r).moduleCtx then w.onSession r fun k => k.sleepTimer readEvent
    else w.onRequest r fun q => { q with ctx := q.ctx.wakeSleep }
  | .poolEvent c closing peekAgain readEvent =>
    match (w.cy.connections c).data with
    | .cached p _ =>
      match keepaliveCloseHandler closing peekAgain readEvent c (w.pools p) w.cy with
      | (kc, cy) => { w with pools := update w.pools p kc, cy }
    | _ => w
  | .setOutput r => w.onRequest r fun q => { q with moduleCtx := false }
  | .redirect r next =>
    (w.onRequest r fun q => { q with moduleCtx := false, redirected := some next }).onRequest next
      fun q => { q with sleepCleanup := (w.requests r).sleepCleanup }
  -- the cleanups look the ctx up, which after a redirect is that of the request that goes on
  | .closeRequest r =>
    w.onRequest r fun q => { q with
      ctx := if q.sleepCleanup then sleepCleanup q.moduleCtx q.ctx else q.ctx
      closed := true }
  | .getOther c => { w with cy := (w.cy.getConnection c).record (.getOther c) }
  | .closeOther c => { w with cy := w.cy.closeConnection .other c }

/-- The cleanups of a request leave its upstream alone. -/
theorem cleanup_upstream (q : Request) :
    (if q.sleepCleanup then sleepCleanup q.moduleCtx q.ctx else q.ctx).upstream =
      q.ctx.upstream := by
  split
  · exact sleepCleanup_upstream q.moduleCtx q.ctx
  · rfl

/-- Steps that cannot be taken change nothing. -/
def Worker.step (w : Worker) (l : Step) : Worker := if w.Enabled l then w.perform l else w

end NgxPhp
