import NgxPhp.Serve.Uthread

/-!
# The handlers and what they send

The eight handlers that may answer a request repeat one way of sending: set the
status, send the header, pass the chain to the output filters and take the ctx
away. The header and the body filter of the module run scripts of their own in
between, which print into the same chain.
-/

namespace NgxPhp

/-- What happens within `ngx_http_send_header`. -/
structure HeaderAnswer where
  /-- The code of `header_filter_by_php`. -/
  filter : Option Code := none
  rc : Int := 0
  /-- The headers have been serialised, and `r->header_sent` is set. -/
  sent : Bool := true
  deriving DecidableEq, Repr

/-- What happens while a response is sent. -/
structure OutputAnswers where
  /-- The call of `ngx_http_send_header` that is made for `HEAD` only. -/
  headHeader : HeaderAnswer := {}
  header : HeaderAnswer := {}
  /-- The code of `body_filter_by_php`. -/
  bodyFilter : Option Code := none
  deriving DecidableEq, Repr

/-- What a handler reads and is answered, and what its code does. -/
structure CallAnswers where
  allocated : Bool := true
  readBody : ReadBody := .again
  /-- The inline code of a phase. -/
  code : Code := .compiled .missing
  /-- What code does that is evaluated in one go. -/
  deeds : List Deed := []
  bailout : Option Bailout := none
  output : OutputAnswers := {}
  deriving DecidableEq, Repr

/-- The method of a request. -/
structure Method where
  head : Bool := false
  /-- It is `POST`, `PUT`, `DELETE` or `PATCH`. -/
  hasBody : Bool := false
  post : Bool := false
  deriving DecidableEq, Repr

/-- What a handler returns once its response has been sent. -/
def Handler.success : Handler → Int
  | .inline .access => 200
  | .file .access => 200
  | _ => 0

namespace Service

/-! ## Sending -/

/-- `ngx_http_send_header`, through the header filter of the module. -/
def sendHeader (s : Service) (h : Handler) (a : HeaderAnswer) : Int × Service :=
  if s.headerSent then (Rc.error.toInt, s.note (.sendHeader h Rc.error.toInt none))
  else
    let s := a.filter.elim s fun code => s.routine .ngxHeaderFilter code
    let s := { s with headerSent := a.sent }
    (a.rc, s.note (.sendHeader h a.rc (if a.sent then some s.headersOut else none)))

/-- `ngx_http_output_filter(r, chain->out)`, through the body filter of the module. -/
def outputFilter (s : Service) (h : Handler) (filter : Option Code) : Service :=
  let s := filter.elim s fun code => s.routine .ngxBodyFilter code
  s.note (.outputFilter h s.chain)

/-- The mark `last_buf` on the last link of a chain. -/
def markLast : List ChainLink → List ChainLink
  | [] => []
  | [link] => [{ link with lastBuf := true }]
  | link :: links => link :: markLast links

/-- `(*chain->last)->buf->last_buf = 1`. -/
def markLastBuf (s : Service) : Service :=
  s.onCtx fun ctx => { ctx with rputsChain := markLast ctx.rputsChain }

/-- `ngx_http_set_ctx(r, NULL, ngx_http_php_module)`. -/
def clearCtx (s : Service) : Service := { s.note (.ctxCleared s.chain) with ctx := none }

/-- The handlers of the phases set `ctx->end_of_request`. -/
def endRequest (s : Service) : Handler → Service
  | .opcode => s
  | .stack => s
  | _ => s.onCtx fun ctx => { ctx with endOfRequest := true }

/-- The second call of `ngx_http_send_header`, which is the only one unless for `HEAD`, and what
follows it. -/
def sendBody (s : Service) (h : Handler) (done : Int) (a : OutputAnswers) : Int × Service :=
  match s.markLastBuf.sendHeader h a.header with
  | (rc, s) =>
    if rc ≠ 0 then (rc, s) else (done, ((s.endRequest h).outputFilter h a.bodyFilter).clearCtx)

/-- What all handlers do once they have a chain. -/
def sendOutput (s : Service) (m : Method) (h : Handler) (done : Int) (a : OutputAnswers) :
    Int × Service :=
  let s := s.onHeaders fun o => { o with status := if o.status = 0 then 200 else o.status }
  if m.head then
    match s.sendHeader h a.headHeader with
    | (rc, s) => if rc ≠ 0 then (rc, s) else s.sendBody h done a
  else s.sendBody h done a

/-- A blank is sent where nothing has been printed. -/
def blank (s : Service) : Service := if s.chain = [] then s.append [32] else s

/-! ## The sections `set_output` -/

/-- The closure is released and its pointer kept, and the next phase may start a script. -/
def finishPhase (s : Service) : Service := s.dtorClosure.setPhaseStatus .declined

/-- `set_output` of the rewrite and the access handlers, which return `done` after output. -/
def phaseSetOutput (s : Service) (m : Method) (h : Handler) (done : Int) (a : OutputAnswers) :
    Int × Service :=
  let rc := s.exitStatus
  let s := s.finishPhase
  if rc = 0 ∨ rc = 200 then
    if s.chain = [] then (Rc.declined.toInt, s) else s.sendOutput m h done a
  else (rc, s)

/-- `set_output` of `ngx_http_php_content_inline_handler`. -/
def contentInlineSetOutput (s : Service) (m : Method) (a : OutputAnswers) : Int × Service :=
  let rc := s.exitStatus
  let s := s.finishPhase
  if Executor.isRefused rc then (rc, s)
  else if rc ≥ 0 ∨ rc = Rc.declined.toInt then
    s.blank.sendOutput m (.inline .content) 0 a
  else (0, s)

/-- `set_output` of `ngx_http_php_content_file_handler`. -/
def contentFileSetOutput (s : Service) (m : Method) (a : OutputAnswers) : Int × Service :=
  let rc := s.exitStatus
  let s := s.finishPhase
  if rc = 0 ∨ rc = Rc.declined.toInt then s.blank.sendOutput m (.file .content) 0 a
  else if rc = -1 ∨ rc > 0 then (rc, s)
  else (0, s)

/-- The handlers of inline code look whether the ctx is still there. -/
def inlineSetOutput (s : Service) (m : Method) (phase : Phase) (a : OutputAnswers) :
    Int × Service :=
  if s.ctx.isNone then (Rc.error.toInt, s)
  else
    match phase with
    | .rewrite => s.phaseSetOutput m (.inline .rewrite) 0 a
    | .access => s.phaseSetOutput m (.inline .access) 200 a
    | .content => s.contentInlineSetOutput m a

def fileSetOutput (s : Service) (m : Method) (phase : Phase) (a : OutputAnswers) : Int × Service :=
  match phase with
  | .rewrite => s.phaseSetOutput m (.file .rewrite) 0 a
  | .access => s.phaseSetOutput m (.file .access) 200 a
  | .content => s.contentFileSetOutput m a

/-- The handler waits while the phase status says so. -/
def inlineAnswer (s : Service) (m : Method) (phase : Phase) (a : OutputAnswers) : Int × Service :=
  if s.phaseStatus = .again then (Rc.again.toInt, s) else s.inlineSetOutput m phase a

def fileAnswer (s : Service) (m : Method) (phase : Phase) (a : OutputAnswers) : Int × Service :=
  if s.phaseStatus = .again then (Rc.again.toInt, s) else s.fileSetOutput m phase a

/-! ## What the answers come to -/

/-- A section `set_output` finishes the phase, and then returns a code or sends what has been
printed. -/
inductive SetsOutput (s : Service) (m : Method) (h : Handler) (done : Int) (a : OutputAnswers) :
    Int × Service → Prop
  | silent (rc : Int) : SetsOutput s m h done a (rc, s.finishPhase)
  | sends : SetsOutput s m h done a (s.finishPhase.blank.sendOutput m h done a)

/-- A handler waits, or finds no ctx, and leaves everything as it is; else it comes to its
section `set_output`. -/
inductive Replies (s : Service) (m : Method) (h : Handler) (done : Int) (a : OutputAnswers) :
    Int × Service → Prop
  | stays (rc : Int) : Replies s m h done a (rc, s)
  | settles {r} (go : s.phaseStatus ≠ .again) (output : SetsOutput s m h done a r) :
    Replies s m h done a r

theorem blank_of_ne {s : Service} (hc : s.chain ≠ []) : s.blank = s := if_neg hc

section Answers

variable (s : Service) (m : Method) (a : OutputAnswers)

theorem phaseSetOutput_cases (h : Handler) (done : Int) :
    s.SetsOutput m h done a (s.phaseSetOutput m h done a) := by
  unfold phaseSetOutput
  dsimp only
  split
  · split
    · exact .silent _
    next hc =>
      have hsend : s.SetsOutput m h done a (s.finishPhase.blank.sendOutput m h done a) := .sends
      rwa [blank_of_ne hc] at hsend
  · exact .silent _

theorem contentInlineSetOutput_cases :
    s.SetsOutput m (.inline .content) 0 a (s.contentInlineSetOutput m a) := by
  unfold contentInlineSetOutput
  dsimp only
  split
  · exact .silent _
  · split
    · exact .sends
    · exact .silent _

theorem contentFileSetOutput_cases :
    s.SetsOutput m (.file .content) 0 a (s.contentFileSetOutput m a) := by
  unfold contentFileSetOutput
  dsimp only
  split
  · exact .sends
  · split
    · exact .silent _
    · exact .silent _

theorem inlineAnswer_cases (phase : Phase) :
    s.Replies m (.inline phase) (Handler.success (.inline phase)) a
      (s.inlineAnswer m phase a) := by
  unfold inlineAnswer
  split
  · exact .stays _
  next hgo =>
    unfold inlineSetOutput
    split
    · exact .stays _
    · refine .settles hgo ?_
      cases phase with
      | rewrite => exact s.phaseSetOutput_cases m a _ 0
      | access => exact s.phaseSetOutput_cases m a _ 200
      | content => exact s.contentInlineSetOutput_cases m a

theorem fileAnswer_cases (phase : Phase) :
    s.Replies m (.file phase) (Handler.success (.file phase)) a (s.fileAnswer m phase a) := by
  unfold fileAnswer
  split
  · exact .stays _
  next hgo =>
    refine .settles hgo ?_
    cases phase with
    | rewrite => exact s.phaseSetOutput_cases m a _ 0
    | access => exact s.phaseSetOutput_cases m a _ 200
    | content => exact s.contentFileSetOutput_cases m a

end Answers

/-! ## The body of the request -/

/-- `ngx_http_php_read_request_body_callback`, and whether it runs the phases. A body with data
does so only once. -/
def readRequestBodyCallback (s : Service) (data : Bool) : Service × Bool :=
  let s := s.onCtx fun ctx => { ctx with readRequestBodyDone := true }
  if data then
    if (s.ctx.getD {}).requestBodyMore then
      (s.onCtx fun ctx => { ctx with requestBodyMore := false }, true)
    else (s, false)
  else (s, true)

/-- What the handlers do about a body that has not been read; no result when the callback runs the
phases from inside the handler. -/
def tryBody (s : Service) : ReadBody → Option Int × Service
  | .failed rc => (some rc, s)
  | .again => (some Rc.again.toInt, s.onCtx fun ctx => { ctx with
      requestBodyMore := true
      readRequestBodyDone := false })
  | .done data =>
    match s.readRequestBodyCallback data with
    | (s, runs) => (if runs then none else some Rc.ok.toInt, s)

/-! ## The handlers -/

/-- `ngx_http_php_post_read_handler`. -/
def postReadHandler (s : Service) : Service :=
  if s.ctx.isSome then s
  else { s with ctx := some { phaseStatus := .declined, requestBodyMore := true } }

/-- A handler makes sure that there is a ctx, where output goes to. -/
def ensureCtx (s : Service) (content : Bool) : Service :=
  { s with ctx := some { s.ctx.getD {} with outputContent := content } }

/-- `ngx_http_php_rewrite_inline_handler` and those of the access and the content phase behind
the allocation of the ctx. -/
def handleInline (s : Service) (m : Method) (phase : Phase) (a : CallAnswers) :
    Option Int × Service :=
  if m.hasBody && !(s.ctx.getD {}).readRequestBodyDone then s.tryBody a.readBody
  else if s.phaseStatus = .declined then
    ((s.inlineRoutine phase a.code).inlineAnswer m phase a.output).map some id
  else (s.inlineAnswer m phase a.output).map some id

/-- The handlers of files behind the body. -/
def handleFile (s : Service) (m : Method) (phase : Phase) (a : CallAnswers) : Int × Service :=
  if s.phaseStatus = .declined then
    (s.fileRoutine phase a.deeds a.bailout).fileAnswer m phase a.output
  else s.fileAnswer m phase a.output

/-- `ngx_http_php_rewrite_inline_handler` and `ngx_http_php_access_inline_handler`, and
`ngx_http_php_content_inline_handler`, which sets the status at every entry. -/
def inlineHandler (s : Service) (m : Method) (phase : Phase) (a : CallAnswers) :
    Option Int × Service :=
  let s := s.ensureCtx true
  (if phase = .content then s.setRequestStatus 0 else s).handleInline m phase a

/-- `ngx_http_php_content_file_handler`, which reads the body of a `POST` only. -/
def contentFileHandler (s : Service) (m : Method) (a : CallAnswers) : Option Int × Service :=
  let s := ((s.ensureCtx true).onCtx fun ctx => { ctx with requestBodyMore := true })
  let s := s.setRequestStatus 0
  if m.post && !(s.ctx.getD {}).readRequestBodyDone then s.tryBody a.readBody
  else (s.handleFile m .content a).map some id

/-- `ngx_http_php_rewrite_file_handler` and `ngx_http_php_access_file_handler`, which read no
body, and `ngx_http_php_content_file_handler`. -/
def fileHandler (s : Service) (m : Method) (phase : Phase) (a : CallAnswers) :
    Option Int × Service :=
  if phase = .content then s.contentFileHandler m a
  else ((s.ensureCtx true).handleFile m phase a).map some id

/-- `ngx_http_php_opcode_inline_handler` and `ngx_http_php_stack_inline_handler`: no status is
looked at. -/
def evalHandler (s : Service) (m : Method) (h : Handler) (a : CallAnswers) : Int × Service :=
  let s := (s.ensureCtx false).onCtx fun ctx => { ctx with requestBodyMore := true }
  (s.evaluate a.deeds a.bailout).blank.sendOutput m h 0 a.output

/-- `ngx_http_php_opcode_inline_handler`. -/
def opcodeInlineHandler (s : Service) (m : Method) (a : CallAnswers) : Int × Service :=
  s.evalHandler m .opcode a

/-- `ngx_http_php_stack_inline_handler`. -/
def stackInlineHandler (s : Service) (m : Method) (a : CallAnswers) : Int × Service :=
  s.evalHandler m .stack a

/-- A checker calls a handler. Without room for a ctx it gives up. -/
def callHandler (s : Service) (m : Method) (a : CallAnswers) (h : Handler) :
    Option Int × Service :=
  if s.ctx.isNone && !a.allocated then (some Rc.error.toInt, s)
  else
    match h with
    | .inline phase => s.inlineHandler m phase a
    | .file phase => s.fileHandler m phase a
    | .opcode => (s.opcodeInlineHandler m a).map some id
    | .stack => (s.stackInlineHandler m a).map some id

/-- `ngx_http_php_log_inline_handler`. -/
def logInlineHandler (s : Service) (code : Code) : Service := s.logInlineRoutine code

/-! ## Responses of nginx -/

/-- nginx sends these headers of a response of its own, through the header filter of the module. -/
def passHeader (s : Service) (headersOut : HeadersOut) (a : HeaderAnswer) : Service :=
  let s := { s with headersOut }
  { a.filter.elim s fun code => s.routine .ngxHeaderFilter code with headerSent := a.sent }

/-- nginx passes on output of its own, or what is left of a response, through the body filter of
the module. -/
def passOutput (s : Service) (filter : Option Code) : Service :=
  filter.elim s fun code => s.routine .ngxBodyFilter code

end Service

end NgxPhp
