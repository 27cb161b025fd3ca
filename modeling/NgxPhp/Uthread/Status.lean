import NgxPhp.Uthread.Invariant

/-!
# The status of a request among others

All requests of a worker keep their status in `EG(exit_status)`. A handler reads it
when it sends its output, which for a script that was suspended is long after the
script was started, and other requests may have set it meanwhile.
-/

namespace NgxPhp

open Function (update)
open StepMachine

/-! ## The requests of a worker and their executor -/

/-- The executor with the scripts of all requests. -/
structure Engine where
  /-- `EG(exit_status)`. -/
  exitStatus : Int
  threads : ReqId → Thread
  /-- The request whose code runs. -/
  current : Option ReqId := none

namespace Engine

/-- The executor while it works for request `r`. -/
def executor (g : Engine) (r : ReqId) : Executor := ⟨g.exitStatus, g.threads r⟩

/-- A step of one request. -/
def step (g : Engine) (l : ReqId × ThreadStep) : Engine :=
  let e := (g.executor l.1).step l.2
  { exitStatus := e.exitStatus
    threads := update g.threads l.1 e.thread
    current := if e.thread.running.isSome then some l.1 else none }

/-- A worker before its first request. -/
def init (kc : ReqId → KeepaliveConf) (cy : Cycle) (exitStatus : Int) : Engine where
  exitStatus := exitStatus
  threads := fun r => (Executor.init r (kc r) cy exitStatus).thread

/-- A worker is one thread of execution, so no request does anything while code of another one
runs. -/
def Free (g : Engine) (l : ReqId × ThreadStep) : Prop :=
  g.current = none ∨ g.current = some l.1

instance decidableFree (g : Engine) (l : ReqId × ThreadStep) : Decidable (g.Free l) :=
  inferInstanceAs (Decidable (_ ∨ _))

end Engine

/-- The steps that request `r` takes itself. -/
def ownStep (r : ReqId) (l : ReqId × ThreadStep) : Option ThreadStep :=
  if l.1 = r then
    match l.2 with
    | .status _ => none
    | m => some m
  else none

/-- `set_output` of the rewrite and the access handler treats two statuses alike. -/
def SameOutcome (chain : Option Bytes) (m n : Int) : Prop :=
  m = n ∨ ((m = 0 ∨ m = 200) ∧ (n = 0 ∨ n = 200)) ∨
    (chain = none ∧ (m = 0 ∨ m = 200 ∨ m = Rc.declined.toInt) ∧
      (n = 0 ∨ n = 200 ∨ n = Rc.declined.toInt))

instance decidableSameOutcome (chain : Option Bytes) (m n : Int) :
    Decidable (SameOutcome chain m n) :=
  inferInstanceAs (Decidable (_ ∨ _))

namespace Executor

variable {e e' : Executor} {phase : Phase} {entry : Entry}

/-- A handler that goes to `set_output` without having started a script finds the status that
the request itself has set last, or one that it treats alike. -/
def Unmixed (e : Executor) (l : ThreadStep) : Prop :=
  e.Enabled l →
    match l with
    | .enter phase entry =>
      phase ≠ .content → (e.thread.moduleCtx = true ∨ entry.allocated = true) →
        (entry.hasBody = true → e.ensureCtx.ctx.readRequestBodyDone = true) →
        e.ensureCtx.ctx.phaseStatus ≠ .declined → e.ensureCtx.ctx.phaseStatus ≠ .again →
        SameOutcome e.ensureCtx.ctx.rputsChain e.exitStatus e.thread.ownStatus
    | _ => True

instance decidableUnmixed (e : Executor) (l : ThreadStep) : Decidable (e.Unmixed l) := by
  unfold Unmixed
  match l with
  | .postRead | .enter _ _ | .bodyRead _ | .act _ | .stop _ | .event _ _ _ _ | .sleepTimer
  | .resume _ _ | .resolved _ _ | .tables _ _ | .status _ => infer_instance

/-- The same request under another status. -/
def withStatus (e : Executor) (n : Int) : Executor := { e with exitStatus := n }

/-- The status is the one that the request has set last. -/
def Owns (e : Executor) : Prop := e.exitStatus = e.thread.ownStatus

/-! ## Reading the status -/

/-- The output of a handler does not look at the status. -/
theorem sendOutput_withStatus (e : Executor) (n : Int) (phase : Phase) (entry : Entry)
    (done : Int) (body : Bytes) :
    ((e.withStatus n).sendOutput phase entry done body).thread =
      (e.sendOutput phase entry done body).thread := by
  simp only [sendOutput]
  split
  · rfl
  · split <;> rfl

/-- Without output the request continues with the next handler. -/
theorem phaseSetOutput_silent (hm : e.thread.moduleCtx = true) (hc : e.ctx.rputsChain = none)
    (hs : e.exitStatus = 0 ∨ e.exitStatus = 200 ∨ e.exitStatus = Rc.declined.toInt) (done : Int)
    (phase : Phase) (entry : Entry) :
    e.phaseSetOutput done phase entry = e.finishPhase.returns phase Rc.declined.toInt none := by
  have hc' : e.finishPhase.ctx.rputsChain = none := hc
  simp only [phaseSetOutput, hm, hc', Bool.not_true, Bool.false_eq_true, if_false]
  split
  · rfl
  · next hok =>
    rw [(hs.resolve_left fun h => hok (Or.inl h)).resolve_left fun h => hok (Or.inr h)]

/-- With output the request ends here. -/
theorem phaseSetOutput_sends {body : Bytes} (hm : e.thread.moduleCtx = true)
    (hc : e.ctx.rputsChain = some body) (hs : e.exitStatus = 0 ∨ e.exitStatus = 200) (done : Int)
    (phase : Phase) (entry : Entry) :
    e.phaseSetOutput done phase entry = e.finishPhase.sendOutput phase entry done body := by
  have hc' : e.finishPhase.ctx.rputsChain = some body := hc
  simp only [phaseSetOutput, hm, hc', Bool.not_true, Bool.false_eq_true, if_false, if_pos hs]

/-- `set_output` does the same for two statuses with the same outcome. -/
theorem phaseSetOutput_withStatus {n : Int}
    (h : SameOutcome e.ctx.rputsChain e.exitStatus n) (done : Int) (phase : Phase)
    (entry : Entry) :
    ((e.withStatus n).phaseSetOutput done phase entry).thread =
      (e.phaseSetOutput done phase entry).thread := by
  cases hm : e.thread.moduleCtx with
  | false => simp [phaseSetOutput, withStatus, hm, returns, onThread]
  | true =>
    rcases h with rfl | ⟨hs, hn⟩ | ⟨hc, hs, hn⟩
    · rfl
    · cases hc : e.ctx.rputsChain with
      | none =>
        rw [phaseSetOutput_silent hm hc (hs.imp_right Or.inl),
          phaseSetOutput_silent (e := e.withStatus n) hm hc (hn.imp_right Or.inl)]
        rfl
      | some body =>
        rw [phaseSetOutput_sends hm hc hs, phaseSetOutput_sends (e := e.withStatus n) hm hc hn]
        exact sendOutput_withStatus e.finishPhase n phase entry done body
    · rw [phaseSetOutput_silent hm hc hs, phaseSetOutput_silent (e := e.withStatus n) hm hc hn]
      rfl

/-- What a handler does once its script has been started. -/
theorem answer_withStatus {n : Int}
    (h : e.ctx.phaseStatus ≠ .again →
      e.exitStatus = n ∨ (phase ≠ .content ∧ SameOutcome e.ctx.rputsChain e.exitStatus n))
    (entry : Entry) :
    ((e.withStatus n).answer phase entry).thread = (e.answer phase entry).thread := by
  simp only [answer]
  by_cases ha : e.ctx.phaseStatus = .again
  · rw [if_pos ha, if_pos (show (e.withStatus n).ctx.phaseStatus = .again from ha)]
    rfl
  · rw [if_neg ha, if_neg (show ¬ (e.withStatus n).ctx.phaseStatus = .again from ha)]
    rcases h ha with rfl | ⟨hp, hsame⟩
    · rfl
    · cases phase with
      | rewrite => exact phaseSetOutput_withStatus hsame 0 .rewrite entry
      | access => exact phaseSetOutput_withStatus hsame 200 .access entry
      | content => exact absurd rfl hp

/-- The callback of the body reader does not look at the status. -/
theorem readRequestBodyCallback_withStatus (e : Executor) (n : Int) (data : Bool) :
    (e.withStatus n).readRequestBodyCallback data =
      (e.readRequestBodyCallback data).withStatus n := by
  cases data with
  | false => rfl
  | true =>
    cases hm : e.thread.session.ctx.requestBodyMore <;>
      simp [readRequestBodyCallback, ctx, onCtx, onThread, runPhases, withStatus, hm]

/-- A handler behind the body does the same for another status, unless it settles with it. -/
theorem handlePhase_withStatus {n : Int}
    (h : (entry.hasBody = true → e.ctx.readRequestBodyDone = true) →
      e.ctx.phaseStatus ≠ .declined → e.ctx.phaseStatus ≠ .again →
      e.exitStatus = n ∨ (phase ≠ .content ∧ SameOutcome e.ctx.rputsChain e.exitStatus n)) :
    ((e.withStatus n).handlePhase phase entry).thread = (e.handlePhase phase entry).thread := by
  have hctx : (e.withStatus n).ctx = e.ctx := rfl
  simp only [handlePhase, hctx, readRequestBodyCallback_withStatus]
  split
  · split <;> rfl
  · next hbody =>
    split
    · rfl
    · next hdec =>
      exact answer_withStatus (fun ha => h (by simpa using hbody) hdec ha) entry

/-- A ctx is made without the status. -/
theorem ensureCtx_withStatus (e : Executor) (n : Int) :
    (e.withStatus n).ensureCtx = e.ensureCtx.withStatus n := by
  cases hm : e.thread.moduleCtx <;> simp [ensureCtx, withStatus, hm, onCtx, onThread]

/-- The entry of a handler. Only the content handler sets the status at once. -/
theorem enter_withStatus (hr : e.thread.running = none) (h : e.Unmixed (.enter phase entry)) :
    ((e.withStatus e.thread.ownStatus).enter entry phase).thread =
      (e.enter entry phase).thread := by
  have hun := h hr
  have hens : e.ensureCtx.exitStatus = e.exitStatus := by
    unfold ensureCtx
    split <;> rfl
  have hphase : phase ≠ .content → (e.thread.moduleCtx = true ∨ entry.allocated = true) →
      ((e.withStatus e.thread.ownStatus).ensureCtx.handlePhase phase entry).thread =
        (e.ensureCtx.handlePhase phase entry).thread := by
    intro hp hmod
    rw [ensureCtx_withStatus]
    refine handlePhase_withStatus fun hbody hdec hag => Or.inr ⟨hp, ?_⟩
    rw [hens]
    exact hun hp hmod hbody hdec hag
  have hrefused : (!e.thread.moduleCtx && !entry.allocated) = false ↔
      (e.thread.moduleCtx = true ∨ entry.allocated = true) := by
    cases e.thread.moduleCtx <;> cases entry.allocated <;> simp
  have hmod : (e.withStatus e.thread.ownStatus).thread.moduleCtx = e.thread.moduleCtx := rfl
  cases phase with
  | rewrite =>
    simp only [enter, rewriteInlineHandler, hmod]
    split
    · rfl
    · next hnot => exact hphase (by simp) (hrefused.mp (by simpa using hnot))
  | access =>
    simp only [enter, accessInlineHandler, hmod]
    split
    · rfl
    · next hnot => exact hphase (by simp) (hrefused.mp (by simpa using hnot))
  | content =>
    simp only [enter, contentInlineHandler, hmod]
    split
    · rfl
    · rw [ensureCtx_withStatus]
      rfl

/-- A call of a script does not look at the status. -/
theorem act_withStatus (e : Executor) (n : Int) (a : Action) :
    ((e.withStatus n).act a).thread = (e.act a).thread := by
  cases a with
  | call c =>
    have hsession : (e.withStatus n).thread.session = e.thread.session := rfl
    simp only [act, hsession]
    cases e.thread.session.call c <;> rfl
  | echo b => rfl
  | status m => rfl
  | redirect m allocated =>
    simp only [act]
    split <;> rfl

/-- Leaving a function does not look at the status. -/
theorem leave_withStatus (e : Executor) (n : Int) (s : Stop) :
    ∃ m, (e.withStatus n).leave s = (e.leave s).withStatus m := by
  rcases s with _ | _ | _ | (status | (_ | status))
  · exact ⟨n, rfl⟩
  · exact ⟨n, rfl⟩
  · exact ⟨n, rfl⟩
  · exact ⟨status, rfl⟩
  · exact ⟨n, rfl⟩
  · exact ⟨status, rfl⟩

/-- No part of a resume reads the status. -/
theorem resumeEnd_withStatus (e : Executor) (n : Int) (s : Stop) :
    ((e.withStatus n).resumeEnd s).thread = (e.resumeEnd s).thread := by
  have hend : (((e.withStatus n).afterNext s).setRunning none).ctx.endOfRequest =
      ((e.afterNext s).setRunning none).ctx.endOfRequest := by
    cases s <;> rfl
  cases s with
  | bailout b => rfl
  | suspend operand =>
    simp only [resumeEnd, hend]
    split <;> rfl
  | finish =>
    simp only [resumeEnd, hend]
    split <;> rfl
  | object valid =>
    simp only [resumeEnd, hend]
    split
    · rfl
    · rcases valid with _ | _ | _ <;> rfl

/-- A resume does not look at the status. -/
theorem resume_withStatus (e : Executor) (n : Int) (readEvent : Rc) (method : Bool) :
    ((e.withStatus n).resume readEvent method).thread = (e.resume readEvent method).thread := by
  have hctx : (e.withStatus n).ctx.generatorClosure = e.ctx.generatorClosure := rfl
  simp only [Executor.resume, hctx]
  rcases e.ctx.generatorClosure with _ | (_ | valid | _ | _)
  · rfl
  · rfl
  · rfl
  · cases method <;> rfl
  · rfl

/-- The end of a segment reads the status only in the handler that started the script. -/
theorem stop_withStatus {n : Int}
    (h : ∀ phase kind entry, e.thread.running = some (.create phase kind entry) →
      e.exitStatus = n) (s : Stop) :
    ((e.withStatus n).stop s).thread = (e.stop s).thread := by
  have hrun : (e.withStatus n).thread.running = e.thread.running := rfl
  have hctx : (e.withStatus n).ctx.generatorClosure = e.ctx.generatorClosure := rfl
  simp only [stop, hrun, hctx]
  split
  · next hc =>
    obtain rfl := h _ _ _ hc
    rfl
  · split
    · obtain ⟨m, hm⟩ := leave_withStatus e n s
      rw [hm, resumeEnd_withStatus]
    · rfl
  · rfl

/-- What a request does and returns does not depend on the status where it does not read it, or
reads what it has set itself. -/
theorem step_withStatus
    (hc : ∀ phase kind entry, e.thread.running = some (.create phase kind entry) → e.Owns)
    {l : ThreadStep} (h : e.Unmixed l) :
    ((e.withStatus e.thread.ownStatus).step l).thread = (e.step l).thread := by
  have hen : (e.withStatus e.thread.ownStatus).Enabled l ↔ e.Enabled l := by
    cases l <;> exact Iff.rfl
  unfold Executor.step
  rw [if_congr hen rfl rfl]
  split
  · next hl =>
    cases l with
    | postRead =>
      cases hm : e.thread.moduleCtx <;>
        simp [perform, postReadHandler, withStatus, hm, onCtx, onThread]
    | enter phase entry => exact enter_withStatus hl h
    | bodyRead data =>
      simp only [perform, readRequestBodyCallback_withStatus]
      rfl
    | act a => exact act_withStatus e _ a
    | stop s => exact stop_withStatus hc s
    | event d write how ans => rfl
    | sleepTimer => rfl
    | resume readEvent method => exact resume_withStatus e _ readEvent method
    | resolved q ans => rfl
    | tables kc cy => rfl
    | status m => rfl
  · rfl

/-! ## Setting the status -/

/-- The output of a handler leaves the status to its request. -/
theorem sendOutput_owns (h : e.Owns) (done : Int) (body : Bytes) :
    (e.sendOutput phase entry done body).Owns := by
  simp only [sendOutput]
  split
  · exact h
  · split <;> exact h

/-- An answer leaves the status to its request. -/
theorem answer_owns (h : e.Owns) : (e.answer phase entry).Owns := by
  have hphase : ∀ done, (e.phaseSetOutput done phase entry).Owns := by
    intro done
    simp only [phaseSetOutput]
    split
    · exact h
    · split
      · split
        · exact h
        · exact sendOutput_owns (e := e.finishPhase) h done _
      · exact h
  unfold answer
  split
  · exact h
  · cases phase with
    | rewrite => exact hphase 0
    | access => exact hphase 200
    | content =>
      simp only [setOutput, contentSetOutput]
      split
      · exact h
      · split
        · exact h
        · split
          · refine sendOutput_owns ?_ 0 _
            exact h
          · exact h

/-- Leaving a function leaves the status to its request. -/
theorem leave_owns (h : e.Owns) (s : Stop) : (e.leave s).Owns := by
  unfold leave
  split
  · rfl
  · rfl
  · exact h

/-- The body reader leaves the status to its request. -/
theorem BodyRead.owns (hb : e.BodyRead e') (h : e.Owns) : e'.Owns :=
  hb.exitStatus.trans (h.trans hb.ownStatus.symm)

/-- A routine sets the status before its script does anything. -/
theorem inlineRoutine_owns (e : Executor) (phase : Phase) (entry : Entry) :
    (e.inlineRoutine phase entry).Owns := by
  have hset : ((e.setPhaseStatus .ok).setRequestStatus Rc.declined.toInt).Owns := rfl
  unfold inlineRoutine
  dsimp only
  split
  · exact hset
  · exact answer_owns (leave_owns hset _)

/-- A handler behind the body leaves the status to its request. -/
theorem handlePhase_owns (hm : e.thread.moduleCtx = true)
    (h : (e.handlePhase phase entry).thread.running = none → e.Owns) :
    (e.handlePhase phase entry).Owns := by
  rcases handlePhase_cases e phase entry with ⟨e₁, rc, hb, heq⟩ | heq | heq
  · rw [heq] at h ⊢
    exact hb.owns (h rfl)
  · rw [heq]
    exact e.inlineRoutine_owns phase entry
  · rw [heq] at h ⊢
    exact answer_owns (h (answer_answered e phase entry hm).running)

/-- A handler that has started its script has set the status. -/
theorem enter_owns (h : (e.enter entry phase).thread.running = none → e.Owns) :
    (e.enter entry phase).Owns := by
  have hens : e.Owns → e.ensureCtx.Owns := by
    intro howns
    unfold ensureCtx
    split <;> exact howns
  revert h
  rcases enter_cases e phase entry with heq | ⟨_, _, heq⟩ | ⟨_, heq⟩
  · rw [heq]
    exact fun h => h rfl
  · rw [heq]
    exact fun h => handlePhase_owns e.ensureCtx_moduleCtx fun hr => hens (h hr)
  · rw [heq]
    exact fun _ => handlePhase_owns (e := e.ensureCtx.setRequestStatus 0) e.ensureCtx_moduleCtx
      fun _ => rfl

/-- A call sets the status for its own request. -/
theorem act_owns (h : e.Owns) (a : Action) : (e.act a).Owns := by
  cases a with
  | call c =>
    simp only [act]
    split <;> exact h
  | echo b => exact h
  | status n => rfl
  | redirect n allocated =>
    simp only [act]
    split
    · rfl
    · exact h

/-- The end of a segment leaves the status to its request. -/
theorem stop_owns (h : e.Owns) (s : Stop) : (e.stop s).Owns := by
  have hl := leave_owns h s
  unfold stop
  split
  · next phase kind entry _ =>
    split
    · refine answer_owns ?_
      unfold createEnd
      split
      · exact hl
      · split <;> exact hl
      · dsimp only
        split <;> exact hl
      · exact hl
    · exact h
  · split
    · unfold resumeEnd
      split
      · exact hl
      · have hafter : ((e.leave s).afterNext s).Owns := by
          unfold afterNext
          split <;> exact hl
        dsimp only
        split
        · exact hafter
        · split <;> exact hafter
    · exact h
  · exact h

/-- A request that is alone always finds what it has set last. -/
theorem step_owns (h : e.Owns) {l : ThreadStep} (hl : ∀ n, l ≠ .status n) :
    (e.step l).Owns := by
  unfold Executor.step
  split
  · cases l with
    | postRead =>
      simp only [perform, postReadHandler]
      split <;> exact h
    | enter phase entry => exact enter_owns fun _ => h
    | bodyRead data =>
      exact (e.bodyRead data).owns h
    | act a => exact act_owns h a
    | stop s => exact stop_owns h s
    | event d write how ans => exact h
    | sleepTimer => exact h
    | resume readEvent method =>
      simp only [perform, Executor.resume]
      split
      · exact h
      · exact h
      · split <;> exact h
      · exact h
      · exact h
    | resolved q ans => exact h
    | tables kc cy => exact h
    | status n => exact absurd rfl (hl n)
  · exact h

/-- Behind a resume nothing runs. -/
theorem resumeEnd_running (e : Executor) (s : Stop) : (e.resumeEnd s).thread.running = none := by
  unfold resumeEnd
  split
  · rfl
  · dsimp only
    split
    · rfl
    · split <;> rfl

/-- The first segment of a script finds the status that its routine, or the script, has set. -/
theorem step_create_owns
    (hc : ∀ phase kind entry, e.thread.running = some (.create phase kind entry) → e.Owns)
    {l : ThreadStep} {phase : Phase} {kind : ScriptKind} {entry : Entry}
    (hr : (e.step l).thread.running = some (.create phase kind entry)) : (e.step l).Owns := by
  revert hr
  unfold Executor.step
  split
  · next hen =>
    cases l with
    | postRead =>
      simp only [perform, postReadHandler]
      split
      · exact hc phase kind entry
      · exact hc phase kind entry
    | enter phase entry => exact fun hr => enter_owns fun hn => by simp [perform, hn] at hr
    | bodyRead data =>
      have hb := e.bodyRead data
      exact fun hr => hb.owns (hc phase kind entry (hb.running.symm.trans hr))
    | act a =>
      intro hr
      exact act_owns (hc _ _ _ ((act_sameSegment e a).running.symm.trans hr)) a
    | stop s =>
      cases hrun : e.thread.running with
      | none => exact fun hr => by simp [perform, stop, hrun] at hr
      | some run =>
        cases run with
        | create phase kind entry => exact fun _ => stop_owns (hc phase kind entry hrun) s
        | handler => exact fun hr => by simp [perform, stop, hrun] at hr
        | resume =>
          simp only [perform, stop, hrun]
          split
          · exact fun hr => by simp [resumeEnd_running] at hr
          · exact fun hr => by simp [hrun] at hr
    | event d write how ans => exact fun hr => by cases hr
    | sleepTimer => exact fun hr => by cases hr
    | resume readEvent method =>
      have hrun : e.thread.running = some .handler := hen
      simp only [perform, Executor.resume]
      split
      · exact fun hr => by cases hr
      · exact fun hr => by cases hr
      · split <;> exact fun hr => by cases hr
      · exact fun hr => by simp [hrun] at hr
      · exact fun hr => by simp [hrun] at hr
    | resolved q ans => exact hc phase kind entry
    | tables kc cy => exact hc phase kind entry
    | status n => exact fun hr => by simp [perform, show _ = none from hen] at hr
  · exact hc phase kind entry

end Executor

/-! ## Two runs -/

/-- A state of the worker and one of request `r` alone that the request cannot tell apart. -/
structure Alike (r : ReqId) (g : Engine) (e : Executor) : Prop where
  thread : g.threads r = e.thread
  owns : e.Owns
  /-- Nobody has come between the start of a script and the handler that has started it. -/
  create : ∀ phase kind entry, e.thread.running = some (.create phase kind entry) →
    g.current = some r ∧ g.exitStatus = e.thread.ownStatus

variable {r : ReqId} {g : Engine} {e : Executor} {l : ReqId × ThreadStep}

/-- What the request does not do itself leaves it as it is. -/
theorem Alike.skip (h : Alike r g e) (hfree : g.Free l) (hown : ownStep r l = none) :
    Alike r (g.step l) e := by
  obtain ⟨r', m⟩ := l
  by_cases hr : r' = r
  · obtain rfl := hr
    have hstatus : ∃ n, m = .status n := by
      simp only [ownStep, if_true] at hown
      split at hown
      · exact ⟨_, rfl⟩
      · cases hown
    obtain ⟨n, rfl⟩ := hstatus
    have hthread : ((g.executor r').step (.status n)).thread = g.threads r' := by
      unfold Executor.step
      split <;> rfl
    refine ⟨?_, h.owns, fun phase kind entry hc => ?_⟩
    · simp only [Engine.step, Function.update_self, hthread, h.thread]
    · have hrun : (g.executor r').thread.running = some (.create phase kind entry) :=
        (congrArg Thread.running h.thread).trans hc
      have hsame : (g.executor r').step (.status n) = g.executor r' :=
        if_neg (by simp [Executor.Enabled, hrun])
      refine ⟨?_, ?_⟩
      · simp only [Engine.step, hsame, hrun, Option.isSome_some, if_true]
      · rw [Engine.step, hsame]
        exact (h.create phase kind entry hc).2
  · refine ⟨?_, h.owns, fun phase kind entry hc => ?_⟩
    · simp only [Engine.step, Function.update_of_ne (Ne.symm hr), h.thread]
    · -- nobody else runs while the script of `r` does
      have hcur := (h.create phase kind entry hc).1
      rcases hfree with hf | hf
      · simp [hcur] at hf
      · exact absurd (Option.some.inj (hcur.symm.trans hf)).symm hr

/-- What the request does itself it does in the same way alone. -/
theorem Alike.step (h : Alike r g e) {m : ThreadStep}
    (hun : l.1 = r → (g.executor r).Unmixed l.2) (hown : ownStep r l = some m) :
    Alike r (g.step l) (e.step m) := by
  obtain ⟨r', m'⟩ := l
  obtain ⟨rfl, rfl, hm⟩ : r' = r ∧ m' = m ∧ ∀ n, m' ≠ .status n := by
    unfold ownStep at hown
    split at hown
    · next hr =>
      dsimp only at hr hown
      split at hown
      · cases hown
      · next hne => exact ⟨hr, Option.some.inj hown, hne⟩
    · cases hown
  have hexec : (g.executor r').thread = e.thread := h.thread
  have hc : ∀ phase kind entry, (g.executor r').thread.running =
      some (.create phase kind entry) → (g.executor r').Owns := by
    intro phase kind entry hrun
    rw [hexec] at hrun
    rw [Executor.Owns, hexec]
    exact (h.create phase kind entry hrun).2
  have halone : (g.executor r').withStatus (g.executor r').thread.ownStatus = e := by
    obtain ⟨status, thread⟩ := e
    have howns : status = thread.ownStatus := h.owns
    rw [hexec, howns, Executor.withStatus, hexec]
  have hthread : (e.step m').thread = ((g.executor r').step m').thread := by
    rw [← Executor.step_withStatus hc (hun rfl), halone]
  refine ⟨?_, Executor.step_owns h.owns hm, fun phase kind entry hrun => ?_⟩
  · simp only [Engine.step, Function.update_self, hthread]
  · rw [hthread] at hrun ⊢
    refine ⟨?_, Executor.step_create_owns hc hrun⟩
    simp only [Engine.step, hrun, Option.isSome_some, if_true]

/-- Request `r` does not go to `set_output` with a status that others have set. -/
def Engine.Unmixed (r : ReqId) (g : Engine) (l : ReqId × ThreadStep) : Prop :=
  l.1 = r → (g.executor r).Unmixed l.2

instance Engine.decidableUnmixed (r : ReqId) (g : Engine) (l : ReqId × ThreadStep) :
    Decidable (g.Unmixed r l) := by
  unfold Engine.Unmixed
  infer_instance

/-- In every interleaving in which the request does not go to `set_output` with a status that
others have set, its handlers return what they return when it is alone. -/
theorem returned_as_alone {r : ReqId} {kc : ReqId → KeepaliveConf} {cy : Cycle}
    {exitStatus : Int} {ls : List (ReqId × ThreadStep)}
    (hfree : Along Engine.step Engine.Free (Engine.init kc cy exitStatus) ls)
    (h : Along Engine.step (Engine.Unmixed r) (Engine.init kc cy exitStatus) ls) :
    ((run Engine.step (Engine.init kc cy exitStatus) ls).threads r).returned =
      (run Executor.step (Executor.init r (kc r) cy exitStatus)
        (ls.filterMap (ownStep r))).thread.returned := by
  have hinit : Alike r (Engine.init kc cy exitStatus) (Executor.init r (kc r) cy exitStatus) :=
    ⟨rfl, rfl, fun _ _ _ hr => by cases hr⟩
  have hend := Along.simulates (f := ownStep r) (R := Alike r)
    (fun _ _ _ hR hC hf => hR.skip hC.1 hf) (fun _ _ _ _ hR hC hf => hR.step hC.2 hf) hinit
    ((along_and _ _ _ _ _).mpr ⟨hfree, h⟩)
  exact congrArg Thread.returned hend.thread

/-- Two access scripts that sleep at the same time; the first one refuses the request after its
sleep. -/
theorem returned_as_alone_refused :
    let ls : List (ReqId × ThreadStep) :=
      [(0, .postRead), (0, .enter .access {}), (0, .act (.call (.sleep 1))),
        (0, .stop (.suspend true)),
        (1, .postRead), (1, .enter .access {}), (1, .act (.call (.sleep 1))),
        (1, .stop (.suspend true)),
        (0, .sleepTimer), (0, .resume .ok true), (0, .act (.status 403)), (0, .stop .finish),
        (0, .enter .access {})]
    ((run Engine.step (Engine.init (fun _ => keepaliveInit 0 0) .init 0) ls).threads 0).returned =
      (run Executor.step (Executor.init 0 (keepaliveInit 0 0) .init 0)
        (ls.filterMap (ownStep 0))).thread.returned :=
  returned_as_alone (by decide) (by decide)

/-- The first script refuses the request before its sleep. While it sleeps the second one is
started, which overwrites the status, and the first request is let through. -/
theorem ngxStatus_overwritten :
    let ls : List (ReqId × ThreadStep) :=
      [(0, .postRead), (0, .enter .access {}), (0, .act (.status 403)),
        (0, .act (.call (.sleep 1))), (0, .stop (.suspend true)),
        (1, .postRead), (1, .enter .access {}), (1, .stop .finish),
        (0, .sleepTimer), (0, .resume .ok true), (0, .stop .finish), (0, .enter .access {})]
    let g := Engine.init (fun _ => keepaliveInit 0 0) .init 0
    Along Engine.step Engine.Free g ls ∧
      ((run Engine.step g ls).threads 0).returned =
        [⟨.access, Rc.declined.toInt, none⟩, ⟨.access, Rc.again.toInt, none⟩] ∧
      (run Executor.step (Executor.init 0 (keepaliveInit 0 0) .init 0)
        (ls.filterMap (ownStep 0))).thread.returned =
        [⟨.access, 403, none⟩, ⟨.access, Rc.again.toInt, none⟩] :=
  ⟨by decide, by decide, by decide⟩

end NgxPhp
