import NgxPhp.Uthread.OnDemand

/-!
# The handlers of the file directives

The file of a phase is evaluated in one go, without a closure: it cannot be
suspended, but its calls may leave a phase status that says that it waits. These
handlers share the ctx of the request with those of the inline code.
-/

namespace NgxPhp

/-- What a handler of a file reads and is answered, and what the code of the file does. -/
structure FileEntry extends Entry where
  /-- The method is `POST`. -/
  post : Bool := false
  acts : List Action := []
  bailout : Option Bailout := none
  deriving DecidableEq, Repr

/-- The request status that the routine of a file starts with. -/
def Phase.fileStatus : Phase → Rc
  | .content => .ok
  | _ => .declined

namespace Executor

/-- `ngx_php_eval_file` with the statuses that the routine of the phase sets before. -/
def fileRoutine (e : Executor) (phase : Phase) (f : FileEntry) : Executor :=
  let e := f.acts.foldl act ((e.setPhaseStatus .ok).setRequestStatus phase.fileStatus.toInt)
  match f.bailout with
  | some b => e.leave (.bailout b)
  | none => e

/-- `set_output` of `ngx_http_php_content_file_handler`. -/
def contentFileSetOutput (e : Executor) (entry : Entry) : Executor :=
  let rc := e.exitStatus
  let e := e.finishPhase
  if rc = 0 ∨ rc = Rc.declined.toInt then
    let body := e.ctx.rputsChain.getD [32]
    (e.onCtx fun ctx => { ctx with rputsChain := some body }).sendOutput .content entry 0 body
  else if rc = -1 ∨ rc > 0 then e.returns .content rc none
  else e.returns .content 0 none

def fileSetOutput (e : Executor) (phase : Phase) (entry : Entry) : Executor :=
  match phase with
  | .rewrite => e.phaseSetOutput 0 phase entry
  | .access => e.phaseSetOutput 200 phase entry
  | .content => e.contentFileSetOutput entry

def fileAnswer (e : Executor) (phase : Phase) (entry : Entry) : Executor :=
  if e.ctx.phaseStatus = .again then e.park phase else e.fileSetOutput phase entry

/-- The handlers behind the body. -/
def handleFile (e : Executor) (phase : Phase) (f : FileEntry) : Executor :=
  if e.ctx.phaseStatus = .declined then (e.fileRoutine phase f).fileAnswer phase f.toEntry
  else e.fileAnswer phase f.toEntry

/-- `ngx_http_php_rewrite_file_handler`, which reads no body. -/
def rewriteFileHandler (e : Executor) (f : FileEntry) : Executor :=
  if !e.thread.moduleCtx && !f.allocated then e.returns .rewrite Rc.error.toInt none
  else e.ensureCtx.handleFile .rewrite f

/-- `ngx_http_php_access_file_handler`, which reads no body. -/
def accessFileHandler (e : Executor) (f : FileEntry) : Executor :=
  if !e.thread.moduleCtx && !f.allocated then e.returns .access Rc.error.toInt none
  else e.ensureCtx.handleFile .access f

/-- What `ngx_http_php_content_file_handler` sets at every entry. -/
def contentFileEntrance (e : Executor) : Executor :=
  (e.ensureCtx.onCtx fun ctx => { ctx with requestBodyMore := true }).setRequestStatus 0

/-- What the handler of a file does before it looks at the body. -/
def fileEntrance (e : Executor) : Phase → Executor
  | .content => e.contentFileEntrance
  | _ => e.ensureCtx

/-- `ngx_http_php_content_file_handler`, which reads the body of a `POST` only. -/
def contentFileHandler (e : Executor) (f : FileEntry) : Executor :=
  if !e.thread.moduleCtx && !f.allocated then e.returns .content Rc.error.toInt none
  else if f.post && !e.contentFileEntrance.ctx.readRequestBodyDone then
    e.contentFileEntrance.tryBody .content f.readBody
  else e.contentFileEntrance.handleFile .content f

/-- nginx calls the handler of a phase with a file. -/
def enterFile (e : Executor) (f : FileEntry) : Phase → Executor
  | .rewrite => e.rewriteFileHandler f
  | .access => e.accessFileHandler f
  | .content => e.contentFileHandler f

/-! ## What they return -/

theorem contentFileSetOutput_returns (e : Executor) (entry : Entry) :
    e.Returns (e.contentFileSetOutput entry) .content 0 := by
  unfold contentFileSetOutput
  dsimp only
  refine finishPhase_returns ?_
  split
  · exact (sendOutput_returns _ .content entry 0 _).frame rfl rfl rfl rfl
  · split <;> exact returns_returns _ .content _ none

theorem fileSetOutput_returns (e : Executor) (phase : Phase) (entry : Entry) :
    e.Returns (e.fileSetOutput phase entry) phase 0 := by
  cases phase with
  | rewrite => exact phaseSetOutput_returns 0 e .rewrite entry
  | access => exact phaseSetOutput_returns 200 e .access entry
  | content => exact e.contentFileSetOutput_returns entry

theorem fileAnswer_returns (e : Executor) (phase : Phase) (entry : Entry) :
    e.Returns (e.fileAnswer phase entry) phase (if e.ctx.phaseStatus = .again then 1 else 0) := by
  unfold fileAnswer
  split
  · exact e.park_returns phase
  · exact e.fileSetOutput_returns phase entry

end Executor

end NgxPhp
