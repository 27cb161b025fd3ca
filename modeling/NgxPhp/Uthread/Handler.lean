import NgxPhp.Uthread.Executor

/-!
# The phase handlers and their script

A handler starts its script through `ngx_http_php_zend_uthread_create` and returns
`NGX_AGAIN` while it is suspended; events go on with it through
`ngx_http_php_zend_uthread_resume`. Both are cut where the script itself runs, so
that every step of a run is one that nothing can interrupt.
-/

namespace NgxPhp

namespace Executor

/-! ## Returning to nginx -/

/-- The handler waits for its script. -/
def park (e : Executor) (phase : Phase) : Executor :=
  (e.onThread fun t => { t with count := t.count + 1 }).returns phase Rc.again.toInt none

/-- The end of `set_output` once there is output: send it and take the ctx away. -/
def sendOutput (e : Executor) (phase : Phase) (entry : Entry) (done : Int) (body : Bytes) :
    Executor :=
  let e := e.onThread fun t => { t with
    headersOutStatus := if t.headersOutStatus = 0 then 200 else t.headersOutStatus }
  if entry.head && entry.sendHeadHeader ≠ 0 then e.returns phase entry.sendHeadHeader none
  else if entry.sendHeader ≠ 0 then e.returns phase entry.sendHeader none
  else
    let e := e.onCtx fun ctx => { ctx with endOfRequest := true }
    (e.onThread fun t => { t with moduleCtx := false }).returns phase done
      (some { status := e.thread.headersOutStatus, body })

/-- The closure is released and its pointer kept, and the next phase may start a script. -/
def finishPhase (e : Executor) : Executor :=
  e.onCtx fun ctx => { ctx with
    generatorClosure := ctx.generatorClosure.map fun _ => .dangling
    phaseStatus := .declined }

/-- `set_output` of the rewrite and the access handler, which return `done` after output. -/
def phaseSetOutput (done : Int) (e : Executor) (phase : Phase) (entry : Entry) : Executor :=
  let rc := e.exitStatus
  if !e.thread.moduleCtx then e.returns phase Rc.error.toInt none
  else
    let e := e.finishPhase
    if rc = 0 ∨ rc = 200 then
      match e.ctx.rputsChain with
      | none => e.returns phase Rc.declined.toInt none
      | some body => e.sendOutput phase entry done body
    else e.returns phase rc none

/-- The results that the content handler passes on as they are. -/
def isRefused (rc : Int) : Bool := rc = -1 || rc = 302 || rc = 303 || rc = 307 || rc = 308

/-- `set_output` of the content handler. Without output it sends a blank. -/
def contentSetOutput (e : Executor) (phase : Phase) (entry : Entry) : Executor :=
  let rc := e.exitStatus
  if !e.thread.moduleCtx then e.returns phase Rc.error.toInt none
  else
    let e := e.finishPhase
    if isRefused rc then e.returns phase rc none
    else if rc ≥ 0 ∨ rc = Rc.declined.toInt then
      let body := e.ctx.rputsChain.getD [32]
      (e.onCtx fun ctx => { ctx with rputsChain := some body }).sendOutput phase entry 0 body
    else e.returns phase 0 none

/-- `set_output` of the handler of a phase. -/
def setOutput (e : Executor) (phase : Phase) (entry : Entry) : Executor :=
  match phase with
  | .rewrite => e.phaseSetOutput 0 phase entry
  | .access => e.phaseSetOutput 200 phase entry
  | .content => e.contentSetOutput phase entry

/-- What a handler does with the phase status after its script was started, or at once when it
had been started before. -/
def answer (e : Executor) (phase : Phase) (entry : Entry) : Executor :=
  if e.ctx.phaseStatus = .again then e.park phase else e.setOutput phase entry

/-! ## The first segment -/

/-- `ngx_http_php_zend_uthread_create` after the first segment of the script. -/
def createEnd (e : Executor) (kind : ScriptKind) : Stop → Executor
  | .suspend operand =>
    ((e.setPhaseStatus .again).setClosure (some (.generator true))).suspend operand
  | .finish =>
    match kind with
    | .generator => (e.setPhaseStatus .ok).setClosure (some (.generator false))
    | .function => e.setClosure none
  | .object valid =>
    let e := e.setClosure (some .object)
    match valid with
    | some true => e.setPhaseStatus .again
    | some false => e.setPhaseStatus .ok
    | none => e
  | .bailout _ => e.setClosure none

/-- `ngx_http_php_zend_uthread_create` up to the first segment of the script. -/
def create (e : Executor) (phase : Phase) (kind : ScriptKind) (entry : Entry) : Executor :=
  (e.setClosure (some (match kind with
    | .generator => .generator true
    | .function => .undef))).beginSegment (.create phase kind entry)

/-- The inline routine of a phase. The code is compiled at its first use. -/
def inlineRoutine (e : Executor) (phase : Phase) (entry : Entry) : Executor :=
  let e := (e.setPhaseStatus .ok).setRequestStatus Rc.declined.toInt
  match entry.compiled with
  | .script kind => e.create phase kind entry
  | .failed status => (e.leave (.bailout (.error status))).answer phase entry

/-! ## The handlers -/

/-- `ngx_http_php_read_request_body_callback`. A body with data runs the phases only once. -/
def readRequestBodyCallback (e : Executor) (data : Bool) : Executor :=
  let e := e.onCtx fun ctx => { ctx with readRequestBodyDone := true }
  if data then
    if e.ctx.requestBodyMore then
      (e.onCtx fun ctx => { ctx with requestBodyMore := false }).runPhases
    else e
  else e.runPhases

/-- `ngx_http_php_post_read_handler`. -/
def postReadHandler (e : Executor) : Executor :=
  if e.thread.moduleCtx then e
  else
    (e.onCtx fun _ => { phaseStatus := .declined, requestBodyMore := true }).onThread fun t =>
      { t with moduleCtx := true }

/-- A handler makes sure that there is a ctx; one of its own is zeroed. -/
def ensureCtx (e : Executor) : Executor :=
  if e.thread.moduleCtx then e
  else (e.onCtx fun _ => {}).onThread fun t => { t with moduleCtx := true }

/-- The handlers behind the status that they set at their entry. -/
def handlePhase (e : Executor) (phase : Phase) (entry : Entry) : Executor :=
  if entry.hasBody && !e.ctx.readRequestBodyDone then
    match entry.readBody with
    | .failed rc => e.returns phase rc none
    | .again =>
      (e.onCtx fun ctx => { ctx with
        requestBodyMore := true
        readRequestBodyDone := false }).returns phase Rc.again.toInt none
    -- the phases that the callback runs are steps of their own
    | .done data => (e.readRequestBodyCallback data).returns phase Rc.ok.toInt none
  else if e.ctx.phaseStatus = .declined then e.inlineRoutine phase entry
  else e.answer phase entry

/-- `ngx_http_php_rewrite_inline_handler`. -/
def rewriteInlineHandler (e : Executor) (entry : Entry) : Executor :=
  if !e.thread.moduleCtx && !entry.allocated then e.returns .rewrite Rc.error.toInt none
  else e.ensureCtx.handlePhase .rewrite entry

/-- `ngx_http_php_access_inline_handler`. -/
def accessInlineHandler (e : Executor) (entry : Entry) : Executor :=
  if !e.thread.moduleCtx && !entry.allocated then e.returns .access Rc.error.toInt none
  else e.ensureCtx.handlePhase .access entry

/-- `ngx_http_php_content_inline_handler`, which sets the status at every entry. -/
def contentInlineHandler (e : Executor) (entry : Entry) : Executor :=
  if !e.thread.moduleCtx && !entry.allocated then e.returns .content Rc.error.toInt none
  else (e.ensureCtx.setRequestStatus 0).handlePhase .content entry

/-- nginx calls the handler of a phase. -/
def enter (e : Executor) (entry : Entry) : Phase → Executor
  | .rewrite => e.rewriteInlineHandler entry
  | .access => e.accessInlineHandler entry
  | .content => e.contentInlineHandler entry

/-! ## Resuming -/

/-- The generator after a segment that `next` has run. -/
def afterNext (e : Executor) : Stop → Executor
  | .suspend operand => e.suspend operand
  | .finish => e.setClosure (some (.generator false))
  | _ => e

/-- `ngx_http_php_zend_uthread_resume` after the call of `next`. -/
def resumeEnd (e : Executor) (s : Stop) : Executor :=
  match s with
  | .bailout _ => (e.setClosure none).setRunning none
  | _ =>
    let e := (e.afterNext s).setRunning none
    if e.ctx.endOfRequest then e
    else
      match s.valid with
      | some true => e.setPhaseStatus .again
      | some false => ((e.setPhaseStatus .ok).setClosure none).runPhases
      -- `valid` cannot be called
      | none => e

/-- `ngx_http_php_zend_uthread_resume` up to the call of `next`. With `method` an object that
is no generator has such a method. -/
def resume (e : Executor) (readEvent : Rc) (method : Bool) : Executor :=
  match e.ctx.generatorClosure with
  | none => (e.onThread fun t => { t with session := t.session.clear readEvent }).setRunning none
  | some (.generator _) => e.beginSegment .resume
  | some .object => if method then e.beginSegment .resume else e.setRunning none
  -- the worker is gone
  | some .undef => e
  | some .dangling => e

end Executor

/-! ## Runs -/

/-- What can happen to a request. The last two are what other requests do. -/
inductive ThreadStep
  | postRead
  | enter (phase : Phase) (entry : Entry)
  | bodyRead (data : Bool)
  | act (a : Action)
  | stop (s : Stop)
  | event (d : ConnId) (write : Bool) (how : Wake) (ans : HandlerAnswers)
  | sleepTimer
  | resume (readEvent : Rc) (method : Bool)
  | resolved (q : Query) (ans : ResolveAnswers)
  | tables (kc : KeepaliveConf) (cy : Cycle)
  | status (n : Int)

namespace Executor

/-- The segment of the script ends. -/
def stop (e : Executor) (s : Stop) : Executor :=
  match e.thread.running with
  | some (.create phase kind entry) =>
    if kind.stops s then ((e.leave s).createEnd kind s).answer phase entry else e
  | some .resume =>
    if e.ctx.generatorClosure.any fun g => g.stops s then (e.leave s).resumeEnd s else e
  | _ => e

/-- The script is running. -/
def scriptRuns (e : Executor) : Bool :=
  match e.thread.running with
  | some (.create _ _ _) => true
  | some .resume => true
  | _ => false

/-- The part of `ngx_http_php_socket_handler` before it resumes the script. -/
def event (e : Executor) (d : ConnId) (write : Bool) (how : Wake) (ans : HandlerAnswers) :
    Executor :=
  let k := { e.thread.session with cy := e.thread.session.cy.wake d write how }
  (e.onThread fun t => { t with session := k.onSock fun u => u.handleEvent write ans }).setRunning
    (some .handler)

/-- When a step can be taken. Without a ctx no event does anything. -/
def Enabled (e : Executor) : ThreadStep → Prop
  | .act _ => e.scriptRuns = true
  | .stop _ => e.scriptRuns = true
  | .resume _ _ => e.thread.running = some .handler
  | .bodyRead _ => e.thread.running = none ∧ e.thread.moduleCtx = true
  | .event d write how _ => e.thread.running = none ∧ e.thread.moduleCtx = true ∧
      e.ctx.upstream.isSome = true ∧
      e.thread.session.cy.EventOf e.thread.session.r d write how
  | .sleepTimer => e.thread.running = none ∧ e.thread.moduleCtx = true ∧
      e.ctx.sleep.timer.isSome = true
  | .resolved q _ => e.thread.running = none ∧ e.thread.moduleCtx = true ∧
      ∃ u ∈ e.ctx.upstream, q ∈ u.queries
  | _ => e.thread.running = none

instance decidableEnabled (e : Executor) (l : ThreadStep) : Decidable (e.Enabled l) := by
  cases l <;> unfold Enabled <;> infer_instance

/-- What a step does when it can be taken. -/
def perform (e : Executor) : ThreadStep → Executor
  | .postRead => e.postReadHandler
  | .enter phase entry => e.enter entry phase
  | .bodyRead data => e.readRequestBodyCallback data
  | .act a => e.act a
  | .stop s => e.stop s
  | .event d write how ans => e.event d write how ans
  | .sleepTimer => (e.onCtx Ctx.wakeSleep).setRunning (some .handler)
  | .resume readEvent method => e.resume readEvent method
  | .resolved q ans =>
    let k := e.thread.session.onSock fun u => u.resolved q ans
    e.onThread fun t => { t with
      session := k
      waiting := t.waiting.map (·.resolved q (t.session.given k)) }
  | .tables kc cy => e.onThread fun t => { t with session := { t.session with kc, cy } }
  | .status n => { e with exitStatus := n }

/-- Steps that cannot be taken change nothing. -/
def step (e : Executor) (l : ThreadStep) : Executor := if e.Enabled l then e.perform l else e

/-- A new request. -/
def init (r : ReqId) (kc : KeepaliveConf) (cy : Cycle) (exitStatus : Int) : Executor where
  exitStatus := exitStatus
  thread := { session := { r, ctx := {}, kc, cy }, ownStatus := exitStatus }

end Executor

end NgxPhp
