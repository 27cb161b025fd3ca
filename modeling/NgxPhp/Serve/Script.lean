import NgxPhp.Uthread.PhaseEngine

/-!
# Scripts in the service of a request

A script prints, sets the status and calls the library, between its start or a
resume and the place where it stops. What it prints is appended to the chain in the
ctx of its request and counted in `headers_out.content_length_n`. The values that
PHP functions return and the targets of `zend_bailout` have identities here, so
that the record tells which of them are released, or left, and when.
-/

namespace NgxPhp

/-- Identity of a `JMP_BUF`, to which `EG(bailout)` points. -/
abbrev JmpBuf := Nat

/-- Identity of a generator. -/
abbrev GeneratorId := Nat

/-- The functions that `ngx_http_php_zend_uthread_create` calls, by their prefix. -/
inductive FuncPrefix
  | ngxRewrite
  | ngxAccess
  | ngxContent
  | ngxLog
  | ngxHeaderFilter
  | ngxBodyFilter
  deriving DecidableEq, Repr

/-- The prefix of the inline code of a phase. -/
def Phase.prefixOf : Phase → FuncPrefix
  | .rewrite => .ngxRewrite
  | .access => .ngxAccess
  | .content => .ngxContent

/-- The handlers that send a response. -/
inductive Handler
  | inline (phase : Phase)
  | file (phase : Phase)
  | opcode
  | stack
  deriving DecidableEq, Repr

/-- The phase whose checker calls the handler. -/
def Handler.phase : Handler → Phase
  | .inline phase => phase
  | .file phase => phase
  | .opcode => .content
  | .stack => .content

/-- What a `zval` holds. -/
inductive Zval
  | undef
  | generator (g : GeneratorId)
  | object
  deriving DecidableEq, Repr

/-- A link of the chain with its buffer. -/
structure ChainLink where
  buf : Bytes
  lastBuf : Bool := false
  deriving DecidableEq, Repr

/-- The part of `ngx_http_php_ctx_t` that the handlers and their scripts share. -/
structure PhpCtx where
  phaseStatus : Rc := .ok
  generatorClosure : Option Zval := none
  /-- The links of `rputs_chain`; it is `NULL` as long as there are none. -/
  rputsChain : List ChainLink := []
  /-- `output_type` has the bit `OUTPUT_CONTENT`. -/
  outputContent : Bool := false
  requestBodyMore : Bool := false
  readRequestBodyDone : Bool := false
  endOfRequest : Bool := false
  deriving DecidableEq, Repr

/-- The part of `r->headers_out` that the module sets. -/
structure HeadersOut where
  status : Int := 0
  contentLengthN : Int := -1
  /-- The values of the `Location` headers, the latest one first. -/
  locations : List Bytes := []
  deriving DecidableEq, Repr

/-- The two functions with a `zend_try` of their own around the script. -/
inductive UthreadFn
  | create (p : FuncPrefix)
  | resume
  deriving DecidableEq, Repr

/-- The record of what the module does for a request. -/
inductive Occurrence
  /-- The function with this prefix and the code id is called. -/
  | called (p : FuncPrefix)
  /-- It has returned a generator. -/
  | made (g : GeneratorId)
  /-- A method of the generator is called. -/
  | entered (g : GeneratorId)
  /-- The generator is released. -/
  | destroyed (g : GeneratorId)
  /-- A `generator_closure` that points at the generator is overwritten. -/
  | overwrote (g : GeneratorId)
  /-- The function returns, entered with and left with these values of `EG(bailout)`. -/
  | left (fn : UthreadFn) (entry exit : Option JmpBuf)
  /-- The call of `ngx_http_send_header` with its result; the headers as they are serialised. -/
  | sendHeader (h : Handler) (rc : Int) (serialised : Option HeadersOut)
  /-- The body filters behind the one of the module get this chain. -/
  | outputFilter (h : Handler) (chain : List ChainLink)
  /-- `ngx_http_set_ctx` with `NULL`, and the chain of the ctx. -/
  | ctxCleared (chain : List ChainLink)
  | returned (h : Handler) (rc : Int)
  /-- nginx finalises the request with this result of a handler. -/
  | finalized (rc : Int)
  deriving DecidableEq, Repr

/-- A request with the executor globals while the module works for it. -/
structure Service where
  /-- `EG(exit_status)`. -/
  exitStatus : Int
  /-- `EG(bailout)`. -/
  bailout : Option JmpBuf := none
  ctx : Option PhpCtx := none
  headersOut : HeadersOut := {}
  /-- `r->header_sent`. -/
  headerSent : Bool := false
  /-- How many buffers there have been, and how many generators. -/
  buffers : Nat := 0
  generators : Nat := 0
  /-- What has happened, the latest first. -/
  history : List Occurrence := []
  deriving DecidableEq, Repr

/-- One thing that a script does. -/
inductive Deed
  | echo (b : Bytes)
  /-- `ngx_status`. -/
  | status (n : Int)
  /-- `ngx_redirect`; with `allocated` there was room for the header. -/
  | redirect (uri : Bytes) (n : Int) (allocated : Bool)
  /-- A library call that leaves `NGX_AGAIN` or `NGX_OK` in `ctx->phase_status`. -/
  | library (waits : Bool)
  deriving DecidableEq, Repr

/-- Where the methods `next` and `valid` stop. -/
inductive Stopped
  /-- `valid` says that there is more. -/
  | valid
  | ended
  /-- One of the methods cannot be called. -/
  | failure
  | bailout (b : Bailout)
  deriving DecidableEq, Repr

/-- What a script does in one go. -/
structure Segment where
  deeds : List Deed := []
  stop : Stopped
  deriving DecidableEq, Repr

/-- What the function of a script returns, and what `valid` does if it is an object. -/
inductive CallResult
  | value
  | bailout (b : Bailout)
  | generator (first : Segment)
  | object (first : Segment)
  deriving DecidableEq, Repr

/-- The function of a script. -/
inductive ScriptFn
  /-- No function of that name is there. -/
  | missing
  /-- It does this before it returns. -/
  | run (deeds : List Deed) (result : CallResult)
  deriving DecidableEq, Repr

/-- The inline code of a phase. It is compiled at its first use, which may end by
`zend_bailout`. -/
inductive Code
  | compiled (f : ScriptFn)
  | failed (b : Bailout)
  deriving DecidableEq, Repr

namespace Service

def onCtx (s : Service) (f : PhpCtx → PhpCtx) : Service := { s with ctx := s.ctx.map f }

/-- Add to the record. -/
def note (s : Service) (o : Occurrence) : Service := { s with history := o :: s.history }

/-- `ctx->phase_status`. -/
def phaseStatus (s : Service) : Rc := (s.ctx.getD {}).phaseStatus

/-- `ctx->generator_closure`. -/
def closure (s : Service) : Option Zval := s.ctx.bind (·.generatorClosure)

/-- `ctx->rputs_chain`. -/
def chain (s : Service) : List ChainLink := (s.ctx.getD {}).rputsChain

/-- `ngx_php_set_request_status`. -/
def setRequestStatus (s : Service) (n : Int) : Service := { s with exitStatus := n }

def setPhaseStatus (s : Service) (rc : Rc) : Service :=
  s.onCtx fun ctx => { ctx with phaseStatus := rc }

def setClosure (s : Service) (z : Option Zval) : Service :=
  s.onCtx fun ctx => { ctx with generatorClosure := z }

def onHeaders (s : Service) (f : HeadersOut → HeadersOut) : Service :=
  { s with headersOut := f s.headersOut }

/-- `headers_out.content_length_n` grows by the length of a buffer. -/
def count (s : Service) (len : Nat) : Service :=
  s.onHeaders fun h => { h with
    contentLengthN := h.contentLengthN + len + if h.contentLengthN = -1 then 1 else 0 }

/-- A new link at the end of `rputs_chain`. -/
def append (s : Service) (b : Bytes) : Service :=
  (s.onCtx fun ctx => { ctx with rputsChain := ctx.rputsChain ++ [⟨b, false⟩] }).count b.length

/-- `ngx_http_php_code_ub_write`. -/
def ubWrite (s : Service) (b : Bytes) : Service :=
  match s.ctx with
  | none => s
  | some ctx => if ctx.outputContent then s.append b else s

/-- `ngx_redirect`. -/
def redirect (s : Service) (uri : Bytes) (n : Int) (allocated : Bool) : Service :=
  if Executor.isRedirect n && s.ctx.isSome && allocated then
    (s.onHeaders fun h => { h with
      status := n
      locations := uri :: h.locations }).setRequestStatus n
  else s

/-- One thing that the script does. -/
def act (s : Service) : Deed → Service
  | .echo b => s.ubWrite b
  | .status n => (s.onHeaders fun h => { h with status := n }).setRequestStatus n
  | .redirect uri n allocated => s.redirect uri n allocated
  | .library waits => s.setPhaseStatus (if waits then .again else .ok)

/-- What a script does in one go. -/
def acts (s : Service) (ds : List Deed) : Service := ds.foldl act s

/-- The status that a bailout leaves. -/
def bail (s : Service) : Bailout → Service
  | .exit status => s.setRequestStatus status
  | .error (some status) => s.setRequestStatus status
  | .error none => s

/-- `zend_try`, whose old value of `EG(bailout)` the caller keeps. -/
def zendTry (s : Service) : Service :=
  { s with bailout := some s.buffers, buffers := s.buffers + 1 }

/-- `zend_end_try`, and the start of `zend_catch`. -/
def zendEndTry (s : Service) (orig : Option JmpBuf) : Service := { s with bailout := orig }

/-- A return of the function, which was entered with `entry`. -/
def leave (s : Service) (fn : UthreadFn) (entry : Option JmpBuf) : Service :=
  s.note (.left fn entry s.bailout)

/-- `zval_ptr_dtor(ctx->generator_closure)`. -/
def dtorClosure (s : Service) : Service :=
  match s.closure with
  | some (.generator g) => s.note (.destroyed g)
  | _ => s

/-- Release the value, free the `zval` and forget it. -/
def freeClosure (s : Service) : Service := s.dtorClosure.setClosure none

/-- A method of the object in `ctx->generator_closure` is called. -/
def enterClosure (s : Service) : Service :=
  match s.closure with
  | some (.generator g) => s.note (.entered g)
  | _ => s

/-- `ctx->generator_closure = emalloc(..)`. -/
def newClosure (s : Service) : Service :=
  (match s.closure with
    | some (.generator g) => s.note (.overwrote g)
    | _ => s).setClosure (some .undef)

/-- The function has returned a generator. -/
def storeGenerator (s : Service) : Service :=
  { (s.setClosure (some (.generator s.generators))).note (.made s.generators) with
    generators := s.generators + 1 }

end Service

end NgxPhp
