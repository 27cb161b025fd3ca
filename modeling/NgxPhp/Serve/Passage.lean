import NgxPhp.Lib.Machine
import NgxPhp.Serve.Handler

/-!
# The service of a request

`ngx_http_core_run_phases` calls the handlers of the location, from the callback of
the body also from within a handler, and from `ngx_http_php_zend_uthread_resume` from
within its `zend_try`. Between the calls of the event loop other requests work, and
events of the request resume its script. An internal redirect takes the ctx away and
starts the phases of another location; a response that nginx makes runs the filters of
the module; in the end nginx runs the log phase and frees the request.
-/

namespace NgxPhp

/-- What the location of a request configures. -/
structure Location where
  configured : Phase → Bool
  /-- The phase has a file and not inline code. -/
  inFile : Phase → Bool
  opcode : Bool := false
  stack : Bool := false

/-- The handler of a phase, if it is configured. -/
def Location.handler (loc : Location) (phase : Phase) : List Handler :=
  if loc.configured phase then
    [if loc.inFile phase then .file phase else .inline phase]
  else []

/-- The handlers in the order in which the phases call them. Those of the content phase are called
in the opposite order to that in which the module registers them. -/
def Location.handlers (loc : Location) : List Handler :=
  loc.handler .rewrite ++ loc.handler .access ++
    ((if loc.stack then [Handler.stack] else []) ++ (if loc.opcode then [Handler.opcode] else []) ++
      loc.handler .content)

/-- The results for which nginx makes a response of its own, which may be an internal redirect. -/
def isSpecial (rc : Int) : Bool := rc ≥ 300 || rc = 201 || rc = 204

/-- A request on its way through the phases. -/
structure Passage where
  service : Service
  method : Method
  /-- The handlers from `r->phase_handler` on. -/
  rest : List Handler
  /-- A loop of `ngx_http_core_run_phases` is going on. -/
  loop : Bool := false
  /-- The handlers that wait for a loop which their own call of the reader has started, the
  innermost one first. -/
  outer : List Handler := []
  /-- nginx reads the body and will run the callback. -/
  reading : Bool := false
  /-- A resume runs the phases; it was entered with this value of `EG(bailout)`. -/
  resuming : Option (Option JmpBuf) := none
  /-- nginx has been asked for a response of its own. -/
  redirectable : Bool := false
  logged : Bool := false
  freed : Bool := false
  deriving DecidableEq, Repr

/-- What can happen to a request. -/
inductive PassageStep
  /-- The loop calls the next handler. -/
  | call (a : CallAnswers)
  /-- No handler of the module is left, and the others that nginx has answer the request. -/
  | pass
  /-- A nested loop has ended, and the handler around it returns. -/
  | outerReturns
  /-- The loop has ended that a resume has started, and the resume returns. -/
  | resumeReturns
  | resume (seg : Segment)
  | bodyRead (data : Bool)
  /-- The handler of a socket event leaves `NGX_AGAIN` or `NGX_OK` in `ctx->phase_status`. -/
  | socket (waits : Bool)
  /-- Other requests leave these values in the executor globals. -/
  | others (exitStatus : Int) (bailout : Option JmpBuf)
  | redirect (loc : Location)
  /-- nginx sends the header of a response of its own. -/
  | passHeader (headersOut : HeadersOut) (a : HeaderAnswer)
  /-- nginx passes output on behind a header. -/
  | passOutput (filter : Option Code)
  | log (code : Code)
  | free

/-- The code of the filter that a response of nginx runs. -/
def PassageStep.filter : PassageStep → Option Code
  | .passHeader _ a => a.filter
  | .passOutput filter => filter
  | _ => none

namespace Passage

def onService (s : Passage) (f : Service → Service) : Passage := { s with service := f s.service }

/-- The event loop is at work, and no code of the module. -/
def idle (s : Passage) : Bool := !s.loop && s.outer.isEmpty && s.resuming.isNone

/-- nginx has not run the log phase. -/
def live (s : Passage) : Bool := !s.logged && !s.freed

/-- The handler has to read the body first. -/
def readsBody (s : Passage) : Handler → Bool
  | .inline _ => s.method.hasBody && !(s.service.ctx.getD {}).readRequestBodyDone
  | .file .content => s.method.post && !(s.service.ctx.getD {}).readRequestBodyDone
  | _ => false

/-- The checker of the phase gets the result of its handler. -/
def check (s : Passage) (h : Handler) (rc : Int) : Passage :=
  let s := s.onService (·.note (.returned h rc))
  if h.phase.goesOn rc then { s with rest := s.rest.tail, loop := true, redirectable := false }
  else if rc = Rc.again.toInt ∨ rc = Rc.done.toInt then
    { s with loop := false, redirectable := false }
  else { s.onService (·.note (.finalized rc)) with loop := false, redirectable := isSpecial rc }

/-- The checker calls a handler, which returns or waits for a loop of its own. -/
def call (s : Passage) (h : Handler) (a : CallAnswers) : Passage :=
  match s.service.callHandler s.method a h with
  | (none, service) => { s with service, outer := h :: s.outer }
  | (some rc, service) =>
    { s with
      service
      reading := s.reading || (s.readsBody h && a.readBody = ReadBody.again) }.check h rc

/-- A script is resumed by an event. -/
def resumeScript (s : Passage) (seg : Segment) : Passage :=
  match s.service.resume seg with
  | (service, true) => { s with service, resuming := some s.service.bailout, loop := true }
  | (service, false) => { s with service }

/-- The callback of the body is run by an event. -/
def bodyArrives (s : Passage) (data : Bool) : Passage :=
  match s.service.readRequestBodyCallback data with
  | (service, runs) => { s with service, reading := false, loop := runs }

/-- When a step can be taken. -/
def Enabled (s : Passage) : PassageStep → Prop
  | .call _ => s.live = true ∧ s.loop = true
  | .pass => s.live = true ∧ s.loop = true ∧ s.rest = []
  | .outerReturns => s.loop = false
  | .resumeReturns => s.loop = false ∧ s.outer = []
  | .resume _ => s.live = true ∧ s.idle = true
  | .bodyRead _ =>
    s.live = true ∧ s.idle = true ∧ s.reading = true ∧ s.service.ctx.isSome = true
  | .socket _ => s.live = true ∧ s.idle = true
  | .others _ _ => s.idle = true
  | .redirect _ => s.live = true ∧ s.loop = false ∧ s.redirectable = true
  | .passHeader _ _ =>
    s.live = true ∧ s.loop = false ∧ s.redirectable = true ∧ s.service.headerSent = false
  | .passOutput _ => s.live = true ∧ s.loop = false ∧ s.service.headerSent = true
  | .log _ => s.live = true ∧ s.loop = false
  | .free => s.freed = false ∧ s.loop = false

instance decidableEnabled (s : Passage) (l : PassageStep) : Decidable (s.Enabled l) := by
  cases l <;> unfold Enabled <;> infer_instance

/-- What a step does when it can be taken. -/
def perform (s : Passage) : PassageStep → Passage
  | .call a =>
    match s.rest with
    | h :: _ => s.call h a
    | [] => s
  | .pass => { s with loop := false, redirectable := true }
  | .outerReturns =>
    match s.outer with
    | h :: outer => { s with outer }.check h Rc.ok.toInt
    | [] => s
  | .resumeReturns =>
    match s.resuming with
    | some entry =>
      { s with resuming := none }.onService fun t => (t.zendEndTry entry).leave .resume entry
    | none => s
  | .resume seg => s.resumeScript seg
  | .bodyRead data => s.bodyArrives data
  | .socket waits => s.onService fun t => t.setPhaseStatus (if waits then .again else .ok)
  | .others exitStatus bailout => s.onService fun t => { t with exitStatus, bailout }
  | .redirect loc =>
    { s.onService fun t => { t with ctx := none } with
      rest := loc.handlers, loop := true, redirectable := false }
  | .passHeader headersOut a =>
    { s.onService (·.passHeader headersOut a) with redirectable := !a.sent }
  | .passOutput filter => s.onService (·.passOutput filter)
  | .log code => { s.onService (·.logInlineHandler code) with logged := true }
  | .free => { s with freed := true }

/-- Steps that cannot be taken change nothing. -/
def step (s : Passage) (l : PassageStep) : Passage := if s.Enabled l then s.perform l else s

/-- The phases of a new request begin, after the post-read phase. -/
def start (method : Method) (loc : Location) (exitStatus : Int) (bailout : Option JmpBuf) :
    Passage where
  service := { exitStatus, bailout : Service }.postReadHandler
  method
  rest := loc.handlers
  loop := true

end Passage

end NgxPhp
