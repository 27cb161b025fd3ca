import NgxPhp.Serve.Script

/-!
# Starting and resuming a script

`ngx_http_php_zend_uthread_create` calls the function of a script and stores what it
returns in `ctx->generator_closure`, which all scripts of a request share.
`ngx_http_php_zend_uthread_resume` goes on with it. Both run the script within a
`zend_try`, and some of their returns leave that without its end.
-/

namespace NgxPhp

namespace Service

/-- The `zend_catch` of both functions. -/
def caught (s : Service) (fn : UthreadFn) (entry : Option JmpBuf) (b : Bailout) : Service :=
  ((s.bail b).zendEndTry entry).freeClosure.leave fn entry

/-- What `valid` has said becomes the phase status. -/
def createValid (s : Service) (p : FuncPrefix) (entry : Option JmpBuf) (first : Segment) :
    Service :=
  let s := s.enterClosure.acts first.deeds
  match first.stop with
  | .valid => ((s.setPhaseStatus .again).zendEndTry entry).leave (.create p) entry
  | .ended => ((s.setPhaseStatus .ok).zendEndTry entry).leave (.create p) entry
  -- a return from within the `zend_try`
  | .failure => s.leave (.create p) entry
  | .bailout b => s.caught (.create p) entry b

/-- The value is no object. -/
def createValue (s : Service) (p : FuncPrefix) (entry : Option JmpBuf) : Service :=
  (s.freeClosure.zendEndTry entry).leave (.create p) entry

/-- The call of the function, within the `zend_try`. -/
def createCall (s : Service) (p : FuncPrefix) (entry : Option JmpBuf) : ScriptFn → Service
  | .missing => s.createValue p entry
  | .run deeds result =>
    let s := (s.note (.called p)).acts deeds
    match result with
    | .value => s.createValue p entry
    | .bailout b => s.caught (.create p) entry b
    | .generator first => s.storeGenerator.createValid p entry first
    | .object first => (s.setClosure (some .object)).createValid p entry first

/-- `ngx_http_php_zend_uthread_create`. -/
def create (s : Service) (p : FuncPrefix) (f : ScriptFn) : Service :=
  if s.ctx.isNone then s.leave (.create p) s.bailout
  else s.newClosure.zendTry.createCall p s.bailout f

/-- What the routines of inline code share: a `zend_first_try` around the compilation, if there
is need for one, and the creation. -/
def routine (s : Service) (p : FuncPrefix) (code : Code) : Service :=
  let s := { s with bailout := none }.zendTry
  (match code with
    | .compiled f => s.create p f
    | .failed b => s.bail b).zendEndTry none

/-- `ngx_http_php_zend_uthread_rewrite_inline_routine` and those of the access and the content
phase. -/
def inlineRoutine (s : Service) (phase : Phase) (code : Code) : Service :=
  ((s.setPhaseStatus .ok).setRequestStatus Rc.declined.toInt).routine phase.prefixOf code

/-- `ngx_http_php_zend_uthread_log_inline_routine`. -/
def logInlineRoutine (s : Service) (code : Code) : Service :=
  (s.setRequestStatus Rc.declined.toInt).routine .ngxLog code

/-- Code that is evaluated in one go, within a `zend_first_try`. -/
def evaluate (s : Service) (deeds : List Deed) (b : Option Bailout) : Service :=
  let s := { s with bailout := none }.zendTry.acts deeds
  (match b with
    | some b => s.bail b
    | none => s).zendEndTry none

/-- `ngx_http_php_rewrite_file_uthread_routine` and those of the access and the content phase. -/
def fileRoutine (s : Service) (phase : Phase) (deeds : List Deed) (b : Option Bailout) :
    Service :=
  ((s.setPhaseStatus .ok).setRequestStatus phase.fileStatus.toInt).evaluate deeds b

/-- `ngx_http_php_zend_uthread_resume` behind the call of `next`; with it whether it runs the
phases, which is before it leaves its `zend_try`. -/
def resumeNext (s : Service) (entry : Option JmpBuf) : Stopped → Service × Bool
  | .bailout b => (s.caught .resume entry b, false)
  | .failure => (s.leave .resume entry, false)
  | .valid =>
    if (s.ctx.getD {}).endOfRequest then (s.leave .resume entry, false)
    else (((s.enterClosure.setPhaseStatus .again).zendEndTry entry).leave .resume entry, false)
  | .ended =>
    if (s.ctx.getD {}).endOfRequest then (s.leave .resume entry, false)
    else ((s.enterClosure.setPhaseStatus .ok).freeClosure, true)

/-- `ngx_http_php_zend_uthread_resume`. Without a closure it clears the socket. -/
def resume (s : Service) (seg : Segment) : Service × Bool :=
  if s.ctx.isNone then (s.leave .resume s.bailout, false)
  else if s.closure.isNone then (s.zendTry.leave .resume s.bailout, false)
  else (s.zendTry.enterClosure.acts seg.deeds).resumeNext s.bailout seg.stop

end Service

end NgxPhp
