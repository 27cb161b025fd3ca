import NgxPhp.Uthread.File

/-!
# The phase engine

`ngx_http_core_run_phases` calls the handlers of a request one after the other, from
the one that `r->phase_handler` points at, until a checker stops it. The callback of
the body may run the phases from inside a handler: the handler is called again by the
nested loop, and when that one has ended it returns the reader's `NGX_OK` to its own
checker.
-/

namespace NgxPhp

/-- What is configured for a request, and its method. -/
structure PhaseSetup where
  configured : Phase → Bool
  /-- The phase has a file and not inline code. -/
  inFile : Phase → Bool
  /-- The method is `POST`, `PUT`, `DELETE` or `PATCH`. -/
  hasBody : Bool
  post : Bool

namespace PhaseSetup

/-- The handlers in the order of their phases. -/
def handlers (conf : PhaseSetup) : List Phase :=
  [Phase.rewrite, Phase.access, Phase.content].filter conf.configured

/-- The handler of the phase reads the body. -/
def reads (conf : PhaseSetup) (phase : Phase) : Bool :=
  if conf.inFile phase then phase = .content && conf.post else conf.hasBody

/-- All calls are for a request with this method. -/
def entryOf (conf : PhaseSetup) (f : FileEntry) : FileEntry :=
  { f with hasBody := conf.hasBody, post := conf.post }

end PhaseSetup

/-- The callback finds data in the body. -/
def ReadBody.data : ReadBody → Bool
  | .done data => data
  | _ => false

namespace Executor

/-- The checker calls the handler of the phase. -/
def callHandler (e : Executor) (conf : PhaseSetup) (phase : Phase) (f : FileEntry) : Executor :=
  if conf.inFile phase then e.enterFile (conf.entryOf f) phase
  else e.enter (conf.entryOf f).toEntry phase

/-- What the handler does before it looks at the body. -/
def prepared (e : Executor) (conf : PhaseSetup) (phase : Phase) : Executor :=
  if conf.inFile phase then e.fileEntrance phase else e.ensureCtx.entrance phase

/-- There is a ctx or room for one. -/
def hasRoom (e : Executor) (f : FileEntry) : Bool := e.thread.moduleCtx || f.allocated

/-- The handler calls the reader of the body. -/
def callsReader (e : Executor) (conf : PhaseSetup) (phase : Phase) (f : FileEntry) : Bool :=
  e.hasRoom f && conf.reads phase && !(e.prepared conf phase).ctx.readRequestBodyDone

/-- The reader runs the callback before it returns, and the callback the phases. -/
def nests (e : Executor) (conf : PhaseSetup) (phase : Phase) (f : FileEntry) : Bool :=
  e.callsReader conf phase f &&
    match f.readBody with
    | .done data => !(data && !(e.prepared conf phase).ctx.requestBodyMore)
    | _ => false

/-- The handler starts its script. -/
def startsScript (e : Executor) (conf : PhaseSetup) (phase : Phase) (f : FileEntry) : Bool :=
  e.hasRoom f && !e.callsReader conf phase f && (e.prepared conf phase).ctx.phaseStatus = .declined

end Executor

/-- The checker goes on with the next handler. -/
def Phase.goesOn (phase : Phase) (rc : Int) : Bool :=
  rc = Rc.declined.toInt || phase = .access && rc = Rc.ok.toInt

/-- A request in the phase engine. The last two fields are history. -/
structure PhaseEngine where
  executor : Executor
  conf : PhaseSetup
  /-- The handlers from `r->phase_handler` on. -/
  rest : List Phase
  /-- A loop of `ngx_http_core_run_phases` is going on. -/
  loop : Bool := false
  /-- The handlers that wait for a loop which their own call of the reader has started, the
  innermost one first. -/
  outer : List Phase := []
  /-- nginx reads the body and will run the callback. -/
  reading : Bool := false
  /-- The handlers that have been executed to completion. -/
  completed : List Phase := []
  /-- The phases whose script has been started. -/
  started : List Phase := []

/-- What can happen to a request in the phase engine. -/
inductive PhaseStep
  /-- The loop calls the next handler. -/
  | call (f : FileEntry)
  /-- No handler is left, and the others that nginx has end the request. -/
  | pass
  /-- A nested loop has ended, and the handler around it returns. -/
  | outerReturns
  | thread (l : ThreadStep)

namespace PhaseEngine

/-- The checker of the phase gets the result of its handler. -/
def check (s : PhaseEngine) (phase : Phase) (rc : Int) : PhaseEngine :=
  let s := { s with completed :=
    if rc = Rc.again.toInt then s.completed else phase :: s.completed }
  if phase.goesOn rc then { s with rest := s.rest.tail } else { s with loop := false }

/-- The executor has worked; a handler that has returned does so to its checker. -/
def settle (s : PhaseEngine) (e : Executor) : PhaseEngine :=
  if s.executor.thread.returned.length < e.thread.returned.length then
    match e.thread.returned.head? with
    | some ret => { s with executor := e }.check ret.phase ret.rc
    | none => { s with executor := e }
  else { s with executor := e }

/-- The request once the handler has been called, before its result is looked at. -/
def called (s : PhaseEngine) (phase : Phase) (f : FileEntry) : PhaseEngine :=
  { s with
    started := if s.executor.startsScript s.conf phase f then phase :: s.started else s.started
    reading := s.executor.callsReader s.conf phase f && f.readBody = ReadBody.again }

/-- The checker calls the handler of the phase. -/
def call (s : PhaseEngine) (phase : Phase) (f : FileEntry) : PhaseEngine :=
  if s.executor.nests s.conf phase f then
    { s with
      executor := (s.executor.prepared s.conf phase).readRequestBodyCallback f.readBody.data
      outer := phase :: s.outer }
  else (s.called phase f).settle (s.executor.callHandler s.conf phase f)

/-- A step of the executor may run the phases. -/
def thread (s : PhaseEngine) (l : ThreadStep) : PhaseEngine :=
  let e := s.executor.step l
  let t := s.settle e
  if s.executor.thread.runPhases < e.thread.runPhases then { t with loop := true } else t

/-- When a step can be taken. A worker does one thing at a time. -/
def Enabled (s : PhaseEngine) : PhaseStep → Prop
  | .call _ => s.loop = true ∧ s.executor.thread.running = none
  | .pass => s.loop = true ∧ s.executor.thread.running = none
  | .outerReturns => s.loop = false ∧ s.executor.thread.running = none
  | .thread .postRead => False
  | .thread (.enter _ _) => False
  | .thread (.act _) => True
  | .thread (.stop _) => True
  | .thread (.resume _ _) => True
  | .thread (.bodyRead _) => s.loop = false ∧ s.outer = [] ∧ s.reading = true
  | .thread _ => s.loop = false ∧ s.outer = []

instance decidableEnabled (s : PhaseEngine) (l : PhaseStep) : Decidable (s.Enabled l) := by
  unfold Enabled
  split <;> infer_instance

def perform (s : PhaseEngine) : PhaseStep → PhaseEngine
  | .call f =>
    match s.rest with
    | phase :: _ => s.call phase f
    | [] => s
  | .pass => if s.rest = [] then { s with loop := false } else s
  | .outerReturns =>
    match s.outer with
    | phase :: outer =>
      { s with
        executor := s.executor.returns phase Rc.ok.toInt none
        outer
        loop := true }.check phase Rc.ok.toInt
    | [] => s
  | .thread (.bodyRead data) => { s with reading := false }.thread (.bodyRead data)
  | .thread l => s.thread l

def step (s : PhaseEngine) (l : PhaseStep) : PhaseEngine := if s.Enabled l then s.perform l else s

/-- The phases begin, after the post-read phase. -/
def start (conf : PhaseSetup) (r : ReqId) (kc : KeepaliveConf) (cy : Cycle) (exitStatus : Int) :
    PhaseEngine where
  executor := (Executor.init r kc cy exitStatus).postReadHandler
  conf
  rest := conf.handlers
  loop := true

/-- A handler calls the reader, whose callback runs the phases before the reader returns. -/
def Nests (s : PhaseEngine) : PhaseStep → Prop
  | .call f => s.Enabled (.call f) ∧
      ∃ phase ∈ s.rest.head?, s.executor.nests s.conf phase f = true
  | _ => False

instance decidableNests (s : PhaseEngine) (l : PhaseStep) : Decidable (s.Nests l) := by
  cases l <;> unfold Nests <;> infer_instance

end PhaseEngine

end NgxPhp
