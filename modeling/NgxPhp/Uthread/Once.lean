import NgxPhp.Uthread.Count
import NgxPhp.Uthread.PhaseEngine

/-!
# Every phase runs once

A handler returns for good only when its script is over, and then nothing can run
the phases again before the next script is started. So no handler is completed and
no script started twice, as long as no reader runs the phases from inside a handler.
-/

namespace NgxPhp

open StepMachine

namespace Executor

variable {e e' : Executor} {conf : PhaseSetup} {phase : Phase} {f : FileEntry}

/-- No script is left that could go on. -/
structure Quiet (e : Executor) : Prop where
  running : e.thread.running = none ∨ e.thread.running = some .handler
  generatorClosure : e.ctx.generatorClosure = none ∨ e.ctx.generatorClosure = some .dangling

/-- A step that neither starts a segment nor changes the generator leaves it quiet. -/
theorem Quiet.of_eq (hq : e.Quiet) (hr : e'.thread.running = e.thread.running)
    (hg : e'.ctx.generatorClosure = e.ctx.generatorClosure) : e'.Quiet :=
  ⟨hr ▸ hq.running, hg ▸ hq.generatorClosure⟩

/-- A handler that returns leaves it quiet. -/
theorem Returns.quiet {n : Nat} (h : e.Returns e' phase n) (hq : e.Quiet) : e'.Quiet := by
  refine ⟨Or.inl h.running, ?_⟩
  rcases h.generatorClosure with hg | hg
  · exact hg ▸ hq.generatorClosure
  · rcases hq.generatorClosure with hn | hn
    · exact Or.inl (by rw [hg, hn]; rfl)
    · exact Or.inr (by rw [hg, hn]; rfl)

/-! ## The call of a handler -/

/-- What the call of a handler comes to: its script runs, or it returns. -/
inductive Handled (e e' : Executor) (conf : PhaseSetup) (phase : Phase) (f : FileEntry) : Prop
  | runs (hs : e.startsScript conf phase f = true)
    (hrun : ∃ kind entry, e'.thread.running = some (.create phase kind entry))
    (hret : e'.thread.returned = e.thread.returned)
    (hruns : e'.thread.runPhases = e.thread.runPhases)
    (hm : e'.thread.moduleCtx = true)
    (hbody : conf.reads phase = true → e'.ctx.readRequestBodyDone = true)
  | returned (hrun : e'.thread.running = none)
    (hret : ∃ rc response, e'.thread.returned = ⟨phase, rc, response⟩ :: e.thread.returned ∧
      (e.callsReader conf phase f = true → f.readBody = .again → rc = Rc.again.toInt))
    (hruns : e'.thread.runPhases = e.thread.runPhases)
    (hq : e.Quiet → e'.Quiet)

/-- What a handler does before it looks at the body changes the ctx and the status only. -/
structure Prepared (e e' : Executor) : Prop where
  running : e'.thread.running = e.thread.running
  moduleCtx : e'.thread.moduleCtx = true
  returned : e'.thread.returned = e.thread.returned
  runPhases : e'.thread.runPhases = e.thread.runPhases
  quiet : e.Quiet → e'.Quiet

/-- A ctx is made before the handler looks at the body. -/
theorem ensureCtx_prepared (e : Executor) : e.Prepared e.ensureCtx := by
  unfold ensureCtx
  split
  · next hm => exact ⟨rfl, hm, rfl, rfl, id⟩
  · exact ⟨rfl, rfl, rfl, rfl, fun hq => ⟨hq.running, Or.inl rfl⟩⟩

/-- What a handler prepares changes the ctx and the status only. -/
theorem prepared_prepared (e : Executor) (conf : PhaseSetup) (phase : Phase) :
    e.Prepared (e.prepared conf phase) := by
  have h := e.ensureCtx_prepared
  have hset : ∀ n, e.Prepared (e.ensureCtx.setRequestStatus n) := fun n =>
    ⟨h.running, h.moduleCtx, h.returned, h.runPhases, fun hq => (h.quiet hq).of_eq rfl rfl⟩
  unfold prepared
  split
  · cases phase with
    | content =>
      exact ⟨h.running, h.moduleCtx, h.returned, h.runPhases, fun hq => (h.quiet hq).of_eq rfl rfl⟩
    | _ => exact h
  · cases phase with
    | content => exact hset 0
    | _ => exact h

/-- A handler that returns without a call of the body reader has been handled. -/
theorem Handled.of_returns {e₁ : Executor} {n : Nat} (hp : e.Prepared e₁)
    (h : e₁.Returns e' phase n) (hb : e.callsReader conf phase f = false) :
    e.Handled e' conf phase f := by
  obtain ⟨rc, response, hret⟩ := h.returned
  refine .returned h.running ⟨rc, response, hp.returned ▸ hret, fun hc => ?_⟩
    (h.runPhases.trans hp.runPhases) fun hq => h.quiet (hp.quiet hq)
  exact absurd (hc.symm.trans hb) (by decide)

/-- The callback of the body reader returns nothing by itself. -/
theorem readRequestBodyCallback_returned (e : Executor) (data : Bool) :
    (e.readRequestBodyCallback data).thread.returned = e.thread.returned := by
  unfold readRequestBodyCallback
  dsimp only
  split
  · split <;> rfl
  · rfl

/-- A handler that hands over to the body reader returns, where that does not run the phases again.
-/
theorem tryBody_handled (hb : e.callsReader conf phase f = true)
    (hn : e.nests conf phase f = false) :
    e.Handled ((e.prepared conf phase).tryBody phase f.readBody) conf phase f := by
  have hp := e.prepared_prepared conf phase
  rw [nests, hb, Bool.true_and] at hn
  cases hrb : f.readBody with
  | failed rc =>
    refine .returned rfl ⟨rc, none, congrArg _ hp.returned, fun _ h => ?_⟩ hp.runPhases fun hq => ?_
    · rw [hrb] at h
      cases h
    · exact ⟨Or.inl rfl, (hp.quiet hq).generatorClosure⟩
  | again =>
    refine .returned rfl ⟨Rc.again.toInt, none, congrArg _ hp.returned, fun _ _ => rfl⟩
      hp.runPhases fun hq => ?_
    exact ⟨Or.inl rfl, (hp.quiet hq).generatorClosure⟩
  | done data =>
    have hbr := (e.prepared conf phase).bodyRead data
    have hruns := readRequestBodyCallback_runPhases (e.prepared conf phase) data
    rw [hrb, Bool.not_eq_false'] at hn
    rw [if_pos hn] at hruns
    refine .returned rfl ⟨Rc.ok.toInt, none, ?_, fun _ h => ?_⟩ (hruns.trans hp.runPhases)
      fun hq => ?_
    · exact congrArg _ ((readRequestBodyCallback_returned _ data).trans hp.returned)
    · rw [hrb] at h
      cases h
    · exact ⟨Or.inl rfl, hbr.generatorClosure ▸ (hp.quiet hq).generatorClosure⟩

/-- A handler behind the body. -/
def handle (e : Executor) (conf : PhaseSetup) (phase : Phase) (f : FileEntry) : Executor :=
  if conf.inFile phase then e.handleFile phase (conf.entryOf f)
  else if e.ctx.phaseStatus = .declined then e.inlineRoutine phase (conf.entryOf f).toEntry
  else e.answer phase (conf.entryOf f).toEntry

/-- Without memory for its ctx a handler returns `NGX_ERROR`. -/
theorem callHandler_noRoom (conf : PhaseSetup) (phase : Phase) (hroom : e.hasRoom f = false) :
    e.callHandler conf phase f = e.returns phase Rc.error.toInt none := by
  have hno : (!e.thread.moduleCtx && !f.allocated) = true := by
    rw [← Bool.not_or, ← hasRoom, hroom]
    rfl
  unfold callHandler
  split <;> cases phase <;> exact if_pos hno

/-- With a ctx a handler reads the body first, or goes on to its script. -/
theorem callHandler_eq (conf : PhaseSetup) (phase : Phase) (hroom : e.hasRoom f = true) :
    e.callHandler conf phase f =
      if e.callsReader conf phase f then (e.prepared conf phase).tryBody phase f.readBody
      else (e.prepared conf phase).handle conf phase f := by
  have hno : ¬ (!e.thread.moduleCtx && !f.allocated) = true := by
    rw [← Bool.not_or, ← hasRoom, hroom]
    decide
  unfold callHandler callsReader prepared handle
  rw [hroom, Bool.true_and]
  cases hf : conf.inFile phase with
  | true =>
    have hreads : conf.reads phase = (decide (phase = .content) && conf.post) := if_pos hf
    rw [hreads]
    cases phase with
    | content => exact if_neg hno
    | rewrite => exact if_neg hno
    | access => exact if_neg hno
  | false =>
    have hreads : conf.reads phase = conf.hasBody := if_neg (by simp [hf])
    rw [hreads]
    cases phase <;> exact if_neg hno

/-- What a script does on its way stays within its segment. -/
theorem acts_sameSegment (e : Executor) (acts : List Action) :
    e.SameSegment (acts.foldl act e) := by
  induction acts generalizing e with
  | nil => exact ⟨rfl, rfl, rfl, rfl, rfl, rfl⟩
  | cons a acts ih => exact (e.act_sameSegment a).trans (ih (e.act a))

/-- The routine of a file stays within its segment. -/
theorem fileRoutine_sameSegment (e : Executor) (phase : Phase) (f : FileEntry) :
    e.SameSegment (e.fileRoutine phase f) := by
  have hset : e.SameSegment
      ((e.setPhaseStatus .ok).setRequestStatus phase.fileStatus.toInt) :=
    ⟨rfl, rfl, rfl, rfl, rfl, rfl⟩
  have hacts := hset.trans (acts_sameSegment _ f.acts)
  unfold fileRoutine
  dsimp only
  split
  · exact hacts.trans (leave_sameSegment _ _)
  · exact hacts

/-- The routine of inline code starts the script, or the handler returns. -/
theorem inlineRoutine_handled {e₁ : Executor} (hp : e.Prepared e₁)
    (hs : e.startsScript conf phase f = true) (entry : Entry)
    (hbody : conf.reads phase = true → e₁.ctx.readRequestBodyDone = true) :
    e.Handled (e₁.inlineRoutine phase entry) conf phase f := by
  have hb : e.callsReader conf phase f = false := by
    simp only [startsScript, Bool.and_eq_true, Bool.not_eq_true'] at hs
    exact hs.1.2
  unfold inlineRoutine
  dsimp only
  split
  · next kind _ =>
    exact .runs hs ⟨kind, entry, rfl⟩ hp.returned hp.runPhases hp.moduleCtx hbody
  · next status _ =>
    have hl := leave_sameSegment ((e₁.setPhaseStatus .ok).setRequestStatus Rc.declined.toInt)
      (.bailout (.error status))
    refine .of_returns hp ((answer_returns _ phase entry).frame hl.returned hl.runPhases
      hl.generatorClosure ?_) hb
    exact leave_count _ _

/-- Unless the phases are run from inside it, a handler starts its script or returns. -/
theorem callHandler_handled (hn : e.nests conf phase f = false) :
    e.Handled (e.callHandler conf phase f) conf phase f := by
  cases hroom : e.hasRoom f with
  | false =>
    rw [callHandler_noRoom conf phase hroom]
    refine .returned rfl ⟨_, none, rfl, fun hc => ?_⟩ rfl fun hq => ?_
    · rw [callsReader, hroom] at hc
      exact absurd hc (by simp)
    · exact ⟨Or.inl rfl, hq.generatorClosure⟩
  | true =>
    rw [callHandler_eq conf phase hroom]
    have hp := e.prepared_prepared conf phase
    cases hb : e.callsReader conf phase f with
    | true => exact tryBody_handled hb hn
    | false =>
      change e.Handled ((e.prepared conf phase).handle conf phase f) conf phase f
      have hdone : conf.reads phase = true →
          (e.prepared conf phase).ctx.readRequestBodyDone = true := by
        intro hreads
        rw [callsReader, hroom, hreads] at hb
        simpa using hb
      unfold handle
      split
      · have hfr := fileRoutine_sameSegment (e.prepared conf phase) phase (conf.entryOf f)
        unfold handleFile
        split
        · exact .of_returns hp ((fileAnswer_returns _ phase _).frame hfr.returned hfr.runPhases
            hfr.generatorClosure (fileRoutine_count _ _ _)) hb
        · exact .of_returns hp (fileAnswer_returns _ phase _) hb
      · split
        · next hd =>
          refine inlineRoutine_handled hp ?_ _ hdone
          rw [startsScript, hroom, hb, hd]
          rfl
        · exact .of_returns hp (answer_returns _ phase _) hb

/-- A script that has ended is not started again. -/
theorem startsScript_of_ok (hs : e.ctx.phaseStatus = .ok) :
    e.startsScript conf phase f = false := by
  have hen : e.ensureCtx.ctx.phaseStatus = .ok := by
    unfold ensureCtx
    split
    · exact hs
    · rfl
  have hp : (e.prepared conf phase).ctx.phaseStatus = .ok := by
    unfold prepared
    split <;> cases phase <;> exact hen
  rw [startsScript, hp]
  exact Bool.and_false _

/-- A handler that starts its script has read the body before. -/
theorem callsReader_of_startsScript (hs : e.startsScript conf phase f = true) :
    e.callsReader conf phase f = false := by
  simp only [startsScript, Bool.and_eq_true, Bool.not_eq_true'] at hs
  exact hs.1.2

/-- A body that has been read is not read again. -/
theorem callsReader_of_done (hm : e.thread.moduleCtx = true)
    (hbody : conf.reads phase = true → e.ctx.readRequestBodyDone = true) :
    e.callsReader conf phase f = false := by
  have hp : (e.prepared conf phase).ctx.readRequestBodyDone = e.ctx.readRequestBodyDone := by
    unfold prepared
    split <;> cases phase <;>
      simp [fileEntrance, contentFileEntrance, entrance, setRequestStatus, onCtx, onThread, ctx,
        ensureCtx_of_moduleCtx hm]
  unfold callsReader
  rw [hp]
  cases hr : conf.reads phase with
  | false => simp
  | true => simp [hbody hr]

/-! ## Steps of the executor -/

/-- A step outside a handler that leaves the phases alone. -/
structure Aside (e e' : Executor) : Prop where
  moduleCtx : e'.thread.moduleCtx = e.thread.moduleCtx
  readRequestBodyDone : e'.ctx.readRequestBodyDone = e.ctx.readRequestBodyDone
  returned : e'.thread.returned = e.thread.returned
  runPhases : e'.thread.runPhases = e.thread.runPhases
  running : (∀ p kind entry, e.thread.running ≠ some (.create p kind entry)) →
    ∀ p kind entry, e'.thread.running ≠ some (.create p kind entry)
  quiet : e.Quiet → e'.Quiet

theorem Aside.refl (e : Executor) : e.Aside e := ⟨rfl, rfl, rfl, rfl, id, id⟩

/-- Two steps outside a handler are outside together. -/
theorem Aside.trans {e'' : Executor} (h : e.Aside e') (g : e'.Aside e'') : e.Aside e'' where
  moduleCtx := g.moduleCtx.trans h.moduleCtx
  readRequestBodyDone := g.readRequestBodyDone.trans h.readRequestBodyDone
  returned := g.returned.trans h.returned
  runPhases := g.runPhases.trans h.runPhases
  running ho := g.running (h.running ho)
  quiet hq := g.quiet (h.quiet hq)

/-- What a script does leaves the phases alone. -/
theorem act_aside (e : Executor) (a : Action) : e.Aside (e.act a) := by
  have h := e.act_sameSegment a
  refine ⟨h.moduleCtx, ?_, h.returned, h.runPhases, ?_, fun hq =>
    hq.of_eq h.running h.generatorClosure⟩
  · unfold act
    split
    · split
      · next hres => exact (Session.call_sameHandler hres).readRequestBodyDone
      · rfl
    · rfl
    · rfl
    · split <;> rfl
  · rw [h.running]
    exact id

/-- An event leaves the phases alone. -/
theorem event_aside (e : Executor) (d : ConnId) (write : Bool) (how : Wake)
    (ans : HandlerAnswers) : e.Aside (e.event d write how ans) := by
  have hs := Session.onSock_sameHandler { e.thread.session with
    cy := e.thread.session.cy.wake d write how } fun u => u.handleEvent write ans
  refine ⟨rfl, hs.readRequestBodyDone, rfl, rfl, fun _ p kind entry => ?_, fun hq => ?_⟩
  · simp [event, setRunning, onThread]
  · exact ⟨Or.inr rfl, hs.generatorClosure ▸ hq.generatorClosure⟩

/-- A resume leaves the phases alone until its segment ends. -/
theorem resume_aside (readEvent : Rc) (method : Bool) :
    e.Aside (e.resume readEvent method) := by
  unfold resume
  split
  · next hg =>
    have hs := Session.clear_sameHandler e.thread.session readEvent
    refine ⟨rfl, hs.readRequestBodyDone, rfl, rfl, fun _ p kind entry => ?_, fun hq => ?_⟩
    · simp [setRunning, onThread]
    · exact ⟨Or.inl rfl, hs.generatorClosure ▸ hq.generatorClosure⟩
  · next valid hg =>
    refine ⟨rfl, rfl, rfl, rfl, fun _ p kind entry => ?_, fun hq => ?_⟩
    · simp [beginSegment, onThread]
    · rcases hq.generatorClosure with hn | hn <;> simp [hn] at hg
  · next hg =>
    have hno : e.Quiet → False := fun hq => by
      rcases hq.generatorClosure with hn | hn <;> simp [hn] at hg
    split
    · exact ⟨rfl, rfl, rfl, rfl, fun _ p kind entry => by simp [beginSegment, onThread],
        fun hq => (hno hq).elim⟩
    · exact ⟨rfl, rfl, rfl, rfl, fun _ p kind entry => by simp [setRunning, onThread],
        fun hq => (hno hq).elim⟩
  · exact .refl e
  · exact .refl e

/-- What ends a segment that was resumed: the phases are run again when the script is over. -/
inductive Resumed (e e' : Executor) : Prop
  | aside (h : e.Aside e')
  | past (hm : e'.thread.moduleCtx = e.thread.moduleCtx)
    (hd : e'.ctx.readRequestBodyDone = e.ctx.readRequestBodyDone)
    (hret : e'.thread.returned = e.thread.returned)
    (hruns : e'.thread.runPhases = e.thread.runPhases + 1)
    (hs : e'.ctx.phaseStatus = .ok) (hrun : e'.thread.running = none) (hq : e'.Quiet)

/-- What a resume goes through before it ends does not count. -/
theorem Aside.resumed {e'' : Executor} (h : e.Aside e') (g : e'.Resumed e'') : e.Resumed e'' := by
  cases g with
  | aside g => exact .aside (h.trans g)
  | past hm hd hret hruns hs hrun hq =>
    exact .past (hm.trans h.moduleCtx) (hd.trans h.readRequestBodyDone) (hret.trans h.returned)
      (by rw [hruns, h.runPhases]) hs hrun hq

/-- The end of a resumed segment runs the phases again, or the script waits. -/
theorem resumeEnd_resumed (hr : e.thread.running = some .resume) (s : Stop) :
    e.Resumed (e.resumeEnd s) := by
  have hno : e.Quiet → False := fun hq => by rcases hq.running with hn | hn <;> simp [hn] at hr
  have haside : ∀ e', e'.thread.moduleCtx = e.thread.moduleCtx →
      e'.ctx.readRequestBodyDone = e.ctx.readRequestBodyDone →
      e'.thread.returned = e.thread.returned → e'.thread.runPhases = e.thread.runPhases →
      e'.thread.running = none → e.Resumed e' := fun e' hm hd hret hruns hrun =>
    .aside ⟨hm, hd, hret, hruns, fun _ p kind entry => by simp [hrun], fun hq => (hno hq).elim⟩
  have hafter : (e.afterNext s).thread.moduleCtx = e.thread.moduleCtx ∧
      (e.afterNext s).ctx.readRequestBodyDone = e.ctx.readRequestBodyDone ∧
      (e.afterNext s).thread.returned = e.thread.returned ∧
      (e.afterNext s).thread.runPhases = e.thread.runPhases := by
    cases s <;> exact ⟨rfl, rfl, rfl, rfl⟩
  obtain ⟨hm, hd, hret, hruns⟩ := hafter
  unfold resumeEnd
  split
  · exact haside _ rfl rfl rfl rfl rfl
  · dsimp only
    split
    · exact haside _ hm hd hret hruns rfl
    · split
      · exact haside _ hm hd hret hruns rfl
      · exact .past hm hd hret (congrArg Nat.succ hruns) rfl rfl ⟨Or.inl rfl, Or.inl rfl⟩
      · exact haside _ hm hd hret hruns rfl

/-- What ends the first segment of a script leaves the rest to its handler. -/
structure Ends (e e' : Executor) : Prop where
  moduleCtx : e'.thread.moduleCtx = e.thread.moduleCtx
  readRequestBodyDone : e'.ctx.readRequestBodyDone = e.ctx.readRequestBodyDone
  returned : e'.thread.returned = e.thread.returned
  runPhases : e'.thread.runPhases = e.thread.runPhases

/-- The end of a first segment is left to the handler. -/
theorem createEnd_ends (e : Executor) (kind : ScriptKind) (s : Stop) :
    e.Ends (e.createEnd kind s) := by
  unfold createEnd
  split
  · exact ⟨rfl, rfl, rfl, rfl⟩
  · split <;> exact ⟨rfl, rfl, rfl, rfl⟩
  · dsimp only
    split <;> exact ⟨rfl, rfl, rfl, rfl⟩
  · exact ⟨rfl, rfl, rfl, rfl⟩

/-- Leaving a segment leaves the phases alone. -/
theorem leave_aside (e : Executor) (s : Stop) : e.Aside (e.leave s) := by
  have h := e.leave_sameSegment s
  refine ⟨h.moduleCtx, ?_, h.returned, h.runPhases, ?_, fun hq =>
    hq.of_eq h.running h.generatorClosure⟩
  · rw [leave_ctx]
  · rw [h.running]
    exact id

end Executor

namespace PhaseEngine

variable {s : PhaseEngine} {phase : Phase} {todo : List Phase}

/-! ## The invariant -/

/-- The executor runs the script of no handler. -/
def Outside (s : PhaseEngine) : Prop :=
  ∀ p kind entry, s.executor.thread.running ≠ some (.create p kind entry)

/-- The script of the phase has been started, and its body was read before. -/
structure Begun (s : PhaseEngine) (phase : Phase) : Prop where
  completed : phase ∉ s.completed
  reading : s.reading = false
  moduleCtx : s.executor.thread.moduleCtx = true
  readRequestBodyDone : s.conf.reads phase = true → s.executor.ctx.readRequestBodyDone = true

/-- How far the phase that `r->phase_handler` points at has got. -/
inductive Stage (s : PhaseEngine) : Prop
  | beyond (h : s.rest = []) (hr : s.reading = false) (ho : s.Outside)
  /-- Its script has not been started. -/
  | fresh (phase : Phase) (todo : List Phase) (h : s.rest = phase :: todo)
    (hc : phase ∉ s.completed) (hs : phase ∉ s.started) (hq : s.executor.Quiet)
  /-- Its script runs within the handler. -/
  | running (phase : Phase) (todo : List Phase) (h : s.rest = phase :: todo)
    (hb : s.Begun phase) (hl : s.loop = true)
    (hr : ∃ kind entry, s.executor.thread.running = some (.create phase kind entry))
  /-- Its script is suspended, or goes on in an event handler. -/
  | waits (phase : Phase) (todo : List Phase) (h : s.rest = phase :: todo)
    (hb : s.Begun phase) (hl : s.loop = false) (ho : s.Outside)
  /-- Its script has ended, and its handler is called once more. -/
  | ended (phase : Phase) (todo : List Phase) (h : s.rest = phase :: todo)
    (hb : s.Begun phase) (hl : s.loop = true) (hr : s.executor.thread.running = none)
    (hp : s.executor.ctx.phaseStatus = .ok) (hq : s.executor.Quiet)
  /-- Nothing runs it again. -/
  | past (hl : s.loop = false) (hr : s.reading = false) (hq : s.executor.Quiet)

/-- No phase has been completed twice, and none behind `r->phase_handler` has been touched. -/
structure Ordered (s : PhaseEngine) : Prop where
  outer : s.outer = []
  completed : s.completed.Nodup
  started : s.started.Nodup
  rest : s.rest.Nodup
  ahead : ∀ p ∈ s.rest.tail, p ∉ s.completed ∧ p ∉ s.started

/-- What holds of the phases in every state. -/
structure OnceInv (s : PhaseEngine) : Prop extends s.Ordered where
  reading : s.loop = true → s.reading = false
  stage : s.Stage

/-- Where it is quiet no handler has its script running. -/
theorem Outside.of_quiet (hq : s.executor.Quiet) : s.Outside := by
  intro p kind entry h
  rcases hq.running with hr | hr <;> simp [hr] at h

/-! ## Returning to a checker -/

/-- A step that returns nothing settles nothing. -/
theorem settle_of_same {e : Executor} (h : e.thread.returned = s.executor.thread.returned) :
    s.settle e = { s with executor := e } :=
  if_neg (by rw [h]; exact Nat.lt_irrefl _)

/-- A step in which one handler returns settles this one. -/
theorem settle_of_returned {e : Executor} {rc : Int} {response : Option Response}
    (h : e.thread.returned = ⟨phase, rc, response⟩ :: s.executor.thread.returned) :
    s.settle e = { s with executor := e }.check phase rc := by
  unfold settle
  rw [if_pos (by rw [h]; exact Nat.lt_succ_self _), h]
  rfl

/-- A handler that waits ends the loop. -/
theorem check_again (s : PhaseEngine) (phase : Phase) :
    s.check phase Rc.again.toInt = { s with loop := false } := by
  have hno : phase.goesOn Rc.again.toInt = false := by cases phase <;> decide
  unfold check
  dsimp only
  rw [if_pos rfl, hno]
  rfl

/-- A handler is completed whose script is over. -/
theorem check_onceInv (hs : s.Ordered) (h : s.rest = phase :: todo)
    (hc : phase ∉ s.completed) (hr : s.reading = false) (hq : s.executor.Quiet) {rc : Int}
    (hrc : rc ≠ Rc.again.toInt) : (s.check phase rc).OnceInv := by
  have hnodup := List.nodup_cons.mp (h ▸ hs.rest)
  have hahead : ∀ p ∈ todo, p ∉ phase :: s.completed ∧ p ∉ s.started := by
    intro p hp
    have hap := hs.ahead p (by rw [h]; exact hp)
    refine ⟨fun hm => ?_, hap.2⟩
    rcases List.mem_cons.mp hm with heq | hm
    · exact hnodup.1 (heq ▸ hp)
    · exact hap.1 hm
  have hcompleted : (phase :: s.completed).Nodup := List.nodup_cons.mpr ⟨hc, hs.completed⟩
  unfold check
  dsimp only
  rw [if_neg hrc]
  split
  · refine ⟨⟨hs.outer, hcompleted, hs.started, ?_, ?_⟩, fun _ => hr, ?_⟩
    · rw [h]
      exact hnodup.2
    · intro p hp
      rw [h] at hp
      exact hahead p (List.mem_of_mem_tail hp)
    · cases todo with
      | nil =>
        refine .beyond ?_ hr (Outside.of_quiet hq)
        rw [h]
        rfl
      | cons q todo =>
        have hq' := hahead q List.mem_cons_self
        exact .fresh q todo (by rw [h]; rfl) hq'.1 hq'.2 hq
  · refine ⟨⟨hs.outer, hcompleted, hs.started, hs.rest, ?_⟩, fun hl' => ?_, .past rfl hr hq⟩
    · intro p hp
      rw [h] at hp
      exact hahead p hp
    · cases hl'

/-! ## The call of a handler -/

/-- The call of a handler keeps the order, if it starts no script a second time. -/
theorem called_ordered {f : FileEntry} (hs : s.Ordered) (h : s.rest = phase :: todo)
    (hno : s.executor.startsScript s.conf phase f = true → phase ∉ s.started) :
    (s.called phase f).Ordered := by
  have hnodup := List.nodup_cons.mp (h ▸ hs.rest)
  cases hst : s.executor.startsScript s.conf phase f with
  | false =>
    have heq : (s.called phase f).started = s.started := by
      simp [called, hst]
    refine ⟨hs.outer, hs.completed, ?_, hs.rest, ?_⟩
    · rw [heq]
      exact hs.started
    · rw [heq]
      exact hs.ahead
  | true =>
    have heq : (s.called phase f).started = phase :: s.started := by
      simp [called, hst]
    refine ⟨hs.outer, hs.completed, ?_, hs.rest, ?_⟩
    · rw [heq]
      exact List.nodup_cons.mpr ⟨hno hst, hs.started⟩
    · intro p hp
      have hap := hs.ahead p hp
      rw [heq]
      refine ⟨hap.1, fun hm => ?_⟩
      rcases List.mem_cons.mp hm with heq | hm
      · have htodo : p ∈ todo := by
          change p ∈ s.rest.tail at hp
          rw [h] at hp
          exact hp
        exact hnodup.1 (heq ▸ htodo)
      · exact hap.2 hm

/-- The handler returns to its checker in the same step. -/
theorem returned_onceInv {f : FileEntry} {e' : Executor} {rc : Int} {response : Option Response}
    (hs : (s.called phase f).Ordered) (h : s.rest = phase :: todo) (hc : phase ∉ s.completed)
    (hq : e'.Quiet)
    (hret : e'.thread.returned = ⟨phase, rc, response⟩ :: s.executor.thread.returned)
    (hbody : s.executor.callsReader s.conf phase f = true → f.readBody = .again →
      rc = Rc.again.toInt)
    (hfresh : s.executor.callsReader s.conf phase f = true →
      s.executor.startsScript s.conf phase f = false ∧ phase ∉ s.started) :
    ((s.called phase f).settle e').OnceInv := by
  rw [settle_of_returned (s := s.called phase f) hret]
  by_cases hrc : rc = Rc.again.toInt
  · rw [hrc, check_again]
    refine ⟨⟨hs.outer, hs.completed, hs.started, hs.rest, hs.ahead⟩, fun hl' => ?_, ?_⟩
    · cases hl'
    · cases hread : (s.called phase f).reading with
      | false => exact .past rfl rfl hq
      | true =>
        have hcall : s.executor.callsReader s.conf phase f = true := by
          change (_ && _) = true at hread
          rw [Bool.and_eq_true] at hread
          exact hread.1
        obtain ⟨hst, hns⟩ := hfresh hcall
        refine .fresh phase todo h hc ?_ hq
        simpa [called, hst] using hns
  · refine check_onceInv (s := { s.called phase f with executor := e' })
      ⟨hs.outer, hs.completed, hs.started, hs.rest, hs.ahead⟩ h hc ?_ hq hrc
    change (_ && _) = false
    by_contra hread
    rw [Bool.not_eq_false, Bool.and_eq_true, decide_eq_true_eq] at hread
    exact hrc (hbody hread.1 hread.2)

/-- The call of a handler keeps the invariant. -/
theorem call_onceInv {f : FileEntry} (h : s.OnceInv) (hrest : s.rest = phase :: todo)
    (hl : s.loop = true) (hrun : s.executor.thread.running = none)
    (hn : s.executor.nests s.conf phase f = false) : (s.call phase f).OnceInv := by
  have hcalled : s.call phase f =
      (s.called phase f).settle (s.executor.callHandler s.conf phase f) :=
    if_neg (by simp [hn])
  rw [hcalled]
  have hh := Executor.callHandler_handled hn
  cases h.stage with
  | beyond hb _ _ => exact absurd (hrest.symm.trans hb) (by simp)
  | running _ _ _ _ _ hr =>
    obtain ⟨kind, entry, hr⟩ := hr
    exact absurd (hrun.symm.trans hr) (by simp)
  | waits _ _ _ _ hl' _ => exact absurd (hl.symm.trans hl') (by simp)
  | past hl' _ _ => exact absurd (hl.symm.trans hl') (by simp)
  | fresh p todo' hp hc hs hq =>
    obtain ⟨rfl, rfl⟩ := List.cons.inj (hrest.symm.trans hp)
    have hord := called_ordered (f := f) h.toOrdered hrest fun _ => hs
    cases hh with
    | runs hst hcreate hret hruns hm hbody =>
      have hcall := Executor.callsReader_of_startsScript hst
      have hread : (s.called phase f).reading = false := by
        change (_ && _) = false
        rw [hcall, Bool.false_and]
      rw [settle_of_same (s := s.called phase f) hret]
      exact ⟨⟨hord.outer, hord.completed, hord.started, hord.rest, hord.ahead⟩, fun _ => hread,
        .running phase todo hrest ⟨hc, hread, hm, hbody⟩ hl hcreate⟩
    | returned hrun' hret hruns hquiet =>
      obtain ⟨rc, response, hret, hbody⟩ := hret
      refine returned_onceInv hord hrest hc (hquiet hq) hret hbody fun hcall => ⟨?_, hs⟩
      by_contra hst
      rw [Bool.not_eq_false] at hst
      exact absurd (hcall.symm.trans (Executor.callsReader_of_startsScript hst)) (by decide)
  | ended p todo' hp hb _ _ hok hq =>
    obtain ⟨rfl, rfl⟩ := List.cons.inj (hrest.symm.trans hp)
    have hst : s.executor.startsScript s.conf phase f = false := Executor.startsScript_of_ok hok
    have hcall : s.executor.callsReader s.conf phase f = false :=
      Executor.callsReader_of_done hb.moduleCtx hb.readRequestBodyDone
    have hord := called_ordered (f := f) h.toOrdered hrest fun h' =>
      absurd (h'.symm.trans hst) (by decide)
    cases hh with
    | runs hst' => exact absurd (hst'.symm.trans hst) (by decide)
    | returned hrun' hret hruns hquiet =>
      obtain ⟨rc, response, hret, hbody⟩ := hret
      exact returned_onceInv hord hrest hb.completed (hquiet hq) hret hbody fun h' =>
        absurd (h'.symm.trans hcall) (by decide)

/-! ## Steps of the executor -/

/-- A step of the executor in which no handler returns and no phases are run changes nothing else.
-/
theorem thread_of_same {l : ThreadStep}
    (hret : (s.executor.step l).thread.returned = s.executor.thread.returned)
    (hruns : (s.executor.step l).thread.runPhases = s.executor.thread.runPhases) :
    s.thread l = { s with executor := s.executor.step l } := by
  unfold thread
  dsimp only
  rw [if_neg (by rw [hruns]; exact Nat.lt_irrefl _), settle_of_same hret]

/-- A step beside the handlers leaves every stage as it is, unless a script runs in a handler
or is about to be finished by one. -/
theorem aside_onceInv {e' : Executor} (h : s.OnceInv) (ha : s.executor.Aside e')
    (hcreate : ¬ s.Outside → e'.thread.running = s.executor.thread.running)
    (hend : s.loop = false ∨ s.executor.thread.running ≠ none) :
    ({ s with executor := e' } : PhaseEngine).OnceInv := by
  have hbegun : ∀ p, s.Begun p → ({ s with executor := e' } : PhaseEngine).Begun p := fun p hb =>
    ⟨hb.completed, hb.reading, ha.moduleCtx.trans hb.moduleCtx,
      fun hr => ha.readRequestBodyDone.trans (hb.readRequestBodyDone hr)⟩
  refine ⟨⟨h.outer, h.completed, h.started, h.rest, h.ahead⟩, h.reading, ?_⟩
  cases h.stage with
  | beyond hr hread ho => exact .beyond hr hread (ha.running ho)
  | fresh p todo hr hc hs hq => exact .fresh p todo hr hc hs (ha.quiet hq)
  | running p todo hr hb hl hrun =>
    have hsame := hcreate fun ho => by
      obtain ⟨kind, entry, hrun⟩ := hrun
      exact ho p kind entry hrun
    exact .running p todo hr (hbegun p hb) hl (by rw [hsame]; exact hrun)
  | waits p todo hr hb hl ho => exact .waits p todo hr (hbegun p hb) hl (ha.running ho)
  | ended p todo hr hb hl hrun hp hq =>
    rcases hend with hl' | hne
    · exact absurd (hl.symm.trans hl') (by simp)
    · exact absurd hrun hne
  | past hl hread hq => exact .past hl hread (ha.quiet hq)

/-- The first segment of a script ends within its handler. -/
theorem stop_create_onceInv (h : s.OnceInv) {st : Stop} {p : Phase} {kind : ScriptKind}
    {entry : Entry} (hr : s.executor.thread.running = some (.create p kind entry)) :
    (s.settle (((s.executor.leave st).createEnd kind st).answer p entry)).OnceInv := by
  have hin : ¬ s.Outside := fun ho => ho p kind entry hr
  cases h.stage with
  | beyond _ _ ho => exact absurd ho hin
  | fresh _ _ _ _ _ hq => exact absurd (Outside.of_quiet hq) hin
  | waits _ _ _ _ _ ho => exact absurd ho hin
  | ended _ _ _ _ _ _ _ hq => exact absurd (Outside.of_quiet hq) hin
  | past _ _ hq => exact absurd (Outside.of_quiet hq) hin
  | running q todo hrest hb hl hrun =>
    have hpq : q = p := by
      obtain ⟨kind', entry', hrun⟩ := hrun
      have := hrun.symm.trans hr
      simp only [Option.some.injEq, Running.create.injEq] at this
      exact this.1
    subst hpq
    have hleave := s.executor.leave_aside st
    have hend := Executor.createEnd_ends (s.executor.leave st) kind st
    have hm : ((s.executor.leave st).createEnd kind st).thread.moduleCtx = true :=
      hend.moduleCtx.trans (hleave.moduleCtx.trans hb.moduleCtx)
    obtain ⟨rc, response, hret⟩ := (Executor.answer_returns
      ((s.executor.leave st).createEnd kind st) q entry).returned
    rw [hend.returned, hleave.returned] at hret
    cases Executor.answer_answered _ q entry hm with
    | parked hs hctx hm' hrun' =>
      have hpark : ((s.executor.leave st).createEnd kind st).answer q entry =
          ((s.executor.leave st).createEnd kind st).park q := if_pos hs
      rw [hpark] at hret hctx hm' hrun' ⊢
      have hrc : rc = Rc.again.toInt :=
        (congrArg Returned.rc (List.cons.inj (hret.symm.trans
          (congrArg _ (hend.returned.trans hleave.returned)))).1)
      rw [settle_of_returned hret, hrc, check_again]
      refine ⟨⟨h.outer, h.completed, h.started, h.rest, h.ahead⟩, fun hl' => ?_, ?_⟩
      · cases hl'
      · refine .waits q todo hrest ⟨hb.completed, hb.reading, hm'.trans hm, fun hreads => ?_⟩ rfl ?_
        · rw [hctx, hend.readRequestBodyDone, hleave.readRequestBodyDone]
          exact hb.readRequestBodyDone hreads
        · intro p kind entry
          rw [hrun']
          simp
    | finished hs hp hg ho hrun' =>
      have hq : (((s.executor.leave st).createEnd kind st).answer q entry).Quiet := by
        refine ⟨Or.inl hrun', ?_⟩
        rw [hg]
        cases ((s.executor.leave st).createEnd kind st).ctx.generatorClosure with
        | none => exact Or.inl rfl
        | some g => exact Or.inr rfl
      rw [settle_of_returned hret]
      by_cases hrc : rc = Rc.again.toInt
      · rw [hrc, check_again]
        refine ⟨⟨h.outer, h.completed, h.started, h.rest, h.ahead⟩, fun hl' => ?_,
          .past rfl hb.reading hq⟩
        cases hl'
      · exact check_onceInv (s := { s with executor :=
          ((s.executor.leave st).createEnd kind st).answer q entry })
          ⟨h.outer, h.completed, h.started, h.rest, h.ahead⟩ hrest hb.completed hb.reading hq hrc

/-- A segment ends that was resumed: the script may be over, and then the phases run again. -/
theorem resumed_onceInv (h : s.OnceInv) (hr : s.executor.thread.running = some .resume)
    {l : ThreadStep} (hres : s.executor.Resumed (s.executor.step l)) : (s.thread l).OnceInv := by
  have hout : s.Outside := fun p kind entry hc => by simp [hc] at hr
  have hnq : ¬ s.executor.Quiet := fun hq => by
    rcases hq.running with hn | hn <;> simp [hn] at hr
  cases hres with
  | aside ha =>
    rw [thread_of_same ha.returned ha.runPhases]
    exact aside_onceInv h ha (fun ho => absurd hout ho) (Or.inr (by simp [hr]))
  | past hm hd hret hruns hok hrun hq =>
    have hthread : s.thread l = { s with executor := s.executor.step l, loop := true } := by
      unfold thread
      dsimp only
      rw [if_pos (by rw [hruns]; exact Nat.lt_succ_self _), settle_of_same hret]
    have hstage : s.reading = false ∧ (s.rest = [] ∨
        ∃ p todo, s.rest = p :: todo ∧ s.Begun p) := by
      cases h.stage with
      | beyond hrest hread _ => exact ⟨hread, Or.inl hrest⟩
      | fresh _ _ _ _ _ hq' => exact absurd hq' hnq
      | running p todo hrest hb _ _ => exact ⟨hb.reading, Or.inr ⟨p, todo, hrest, hb⟩⟩
      | waits p todo hrest hb _ _ => exact ⟨hb.reading, Or.inr ⟨p, todo, hrest, hb⟩⟩
      | ended _ _ _ _ _ _ _ hq' => exact absurd hq' hnq
      | past _ _ hq' => exact absurd hq' hnq
    obtain ⟨hread, hstage⟩ := hstage
    rw [hthread]
    refine ⟨⟨h.outer, h.completed, h.started, h.rest, h.ahead⟩, fun _ => hread, ?_⟩
    rcases hstage with hrest | ⟨p, todo, hrest, hb⟩
    · exact .beyond hrest hread (Outside.of_quiet hq)
    · refine .ended p todo hrest ⟨hb.completed, hread, ?_, fun hreads => ?_⟩ rfl hrun hok hq
      · exact hm.trans hb.moduleCtx
      · exact hd.trans (hb.readRequestBodyDone hreads)

/-- A step that the executor does not take keeps the invariant. -/
theorem thread_onceInv_of_eq (h : s.OnceInv) {l : ThreadStep}
    (heq : s.executor.step l = s.executor) : (s.thread l).OnceInv := by
  rw [thread_of_same (by rw [heq]) (by rw [heq]), heq]
  exact h

/-- The end of a segment keeps the invariant. -/
theorem stop_onceInv (h : s.OnceInv) (st : Stop) : (s.thread (.stop st)).OnceInv := by
  by_cases hen : s.executor.Enabled (.stop st)
  · have hstep : s.executor.step (.stop st) = s.executor.stop st := if_pos hen
    rcases hr : s.executor.thread.running with _ | ⟨p, kind, entry⟩ | _ | _
    · simp [Executor.Enabled, Executor.scriptRuns, hr] at hen
    · by_cases hstops : kind.stops st = true
      · have heq : s.executor.step (.stop st) =
            ((s.executor.leave st).createEnd kind st).answer p entry := by
          rw [hstep, Executor.stop, hr]
          exact if_pos hstops
        have hruns : (s.executor.step (.stop st)).thread.runPhases =
            s.executor.thread.runPhases := by
          rw [heq, (Executor.answer_returns _ p entry).runPhases,
            (Executor.createEnd_ends _ kind st).runPhases, (s.executor.leave_aside st).runPhases]
        have hthread : s.thread (.stop st) = s.settle (s.executor.step (.stop st)) :=
          if_neg (by rw [hruns]; exact Nat.lt_irrefl _)
        rw [hthread, heq]
        exact stop_create_onceInv h hr
      · refine thread_onceInv_of_eq h ?_
        rw [hstep, Executor.stop, hr]
        exact if_neg hstops
    · simp [Executor.Enabled, Executor.scriptRuns, hr] at hen
    · by_cases hstops : (s.executor.ctx.generatorClosure.any fun g => g.stops st) = true
      · have heq : s.executor.step (.stop st) = (s.executor.leave st).resumeEnd st := by
          rw [hstep, Executor.stop, hr]
          exact if_pos hstops
        refine resumed_onceInv h hr ?_
        rw [heq]
        exact (s.executor.leave_aside st).resumed (Executor.resumeEnd_resumed
          ((s.executor.leave_sameSegment st).running.trans hr) st)
      · refine thread_onceInv_of_eq h ?_
        rw [hstep, Executor.stop, hr]
        exact if_neg hstops
  · exact thread_onceInv_of_eq h (if_neg hen)

/-- The body has been read, and the callback runs the phases. -/
theorem bodyRead_onceInv (h : s.OnceInv) (hread : s.reading = true) (data : Bool) :
    (({ s with reading := false } : PhaseEngine).thread (.bodyRead data)).OnceInv := by
  have hstep : ∃ e', s.executor.step (.bodyRead data) = e' ∧
      e'.thread.returned = s.executor.thread.returned ∧ (s.executor.Quiet → e'.Quiet) := by
    refine ⟨_, rfl, ?_⟩
    by_cases hen : s.executor.Enabled (.bodyRead data)
    · have heq : s.executor.step (.bodyRead data) = s.executor.readRequestBodyCallback data :=
        if_pos hen
      have hb := s.executor.bodyRead data
      rw [heq]
      exact ⟨Executor.readRequestBodyCallback_returned _ data,
        fun hq => hq.of_eq hb.running hb.generatorClosure⟩
    · have heq : s.executor.step (.bodyRead data) = s.executor := if_neg hen
      rw [heq]
      exact ⟨rfl, id⟩
  obtain ⟨e', heq, hret, hquiet⟩ := hstep
  obtain ⟨p, todo, hrest, hc, hs, hq⟩ : ∃ p todo, s.rest = p :: todo ∧ p ∉ s.completed ∧
      p ∉ s.started ∧ s.executor.Quiet := by
    cases h.stage with
    | fresh p todo hrest hc hs hq => exact ⟨p, todo, hrest, hc, hs, hq⟩
    | beyond _ hr _ => exact absurd (hread.symm.trans hr) (by simp)
    | running _ _ _ hb _ _ => exact absurd (hread.symm.trans hb.reading) (by simp)
    | waits _ _ _ hb _ _ => exact absurd (hread.symm.trans hb.reading) (by simp)
    | ended _ _ _ hb _ _ _ _ => exact absurd (hread.symm.trans hb.reading) (by simp)
    | past _ hr _ => exact absurd (hread.symm.trans hr) (by simp)
  unfold thread
  dsimp only
  rw [heq, settle_of_same (s := { s with reading := false }) hret]
  split <;>
    exact ⟨⟨h.outer, h.completed, h.started, h.rest, h.ahead⟩, fun _ => rfl,
      .fresh p todo hrest hc hs (hquiet hq)⟩

/-- What another part of the request or another request does. -/
theorem thread_onceInv (h : s.OnceInv) {l : ThreadStep}
    (ha : s.executor.Enabled l → s.executor.Aside (s.executor.perform l))
    (hcreate : s.executor.Enabled l → ¬ s.Outside →
      (s.executor.perform l).thread.running = s.executor.thread.running)
    (hend : s.executor.Enabled l → s.loop = false ∨ s.executor.thread.running ≠ none) :
    (s.thread l).OnceInv := by
  by_cases hen : s.executor.Enabled l
  · have heq : s.executor.step l = s.executor.perform l := if_pos hen
    rw [thread_of_same (by rw [heq]; exact (ha hen).returned)
      (by rw [heq]; exact (ha hen).runPhases), heq]
    exact aside_onceInv h (ha hen) (hcreate hen) (hend hen)
  · exact thread_onceInv_of_eq h (if_neg hen)

/-- Where nothing runs, no handler has its script running. -/
theorem outside_of_idle (hr : s.executor.thread.running = none) : s.Outside := fun _ _ _ hc =>
  absurd (hr.symm.trans hc) (by simp)

/-- Every step that does not run the phases from inside a handler keeps the invariant. -/
theorem OnceInv.step (h : s.OnceInv) (l : PhaseStep) (hn : ¬ s.Nests l) :
    (s.step l).OnceInv := by
  unfold PhaseEngine.step
  split
  · next hen =>
    cases l with
    | call f =>
      simp only [perform]
      split
      · next p todo hrest =>
        refine call_onceInv h hrest hen.1 hen.2 ?_
        by_contra hnests
        rw [Bool.not_eq_false] at hnests
        exact hn ⟨hen, p, by rw [hrest]; rfl, hnests⟩
      · exact h
    | pass =>
      simp only [perform]
      split
      · next hrest =>
        refine ⟨⟨h.outer, h.completed, h.started, h.rest, h.ahead⟩, fun hl => ?_, ?_⟩
        · cases hl
        · exact .beyond hrest (h.reading hen.1) (outside_of_idle hen.2)
      · exact h
    | outerReturns =>
      simp only [perform, h.outer]
      exact h
    | thread l =>
      cases l with
      | postRead => exact hen.elim
      | enter phase entry => exact hen.elim
      | bodyRead data => exact bodyRead_onceInv h hen.2.2 data
      | act a =>
        refine thread_onceInv h (fun _ => s.executor.act_aside a)
          (fun _ _ => (s.executor.act_sameSegment a).running) fun hr => Or.inr fun hnone => ?_
        change s.executor.scriptRuns = true at hr
        simp [Executor.scriptRuns, hnone] at hr
      | stop st => exact stop_onceInv h st
      | event d write how ans =>
        exact thread_onceInv h (fun _ => s.executor.event_aside d write how ans)
          (fun hr ho => absurd (outside_of_idle hr.1) ho) fun _ => Or.inl hen.1
      | sleepTimer =>
        refine thread_onceInv h (fun _ => ?_) (fun hr ho => absurd (outside_of_idle hr.1) ho)
          fun _ => Or.inl hen.1
        exact ⟨rfl, rfl, rfl, rfl, fun _ p kind entry => by
          simp [Executor.perform, Executor.setRunning, Executor.onThread],
          fun hq => ⟨Or.inr rfl, hq.generatorClosure⟩⟩
      | resume readEvent method =>
        refine thread_onceInv h (fun _ => Executor.resume_aside readEvent method)
          (fun hr ho => absurd (fun p kind entry hc => ?_) ho) fun hr => Or.inr fun hnone => ?_
        · exact absurd (hr.symm.trans hc) (by simp)
        · exact absurd (hnone.symm.trans hr) (by simp)
      | resolved q ans =>
        have hs := Session.onSock_sameHandler s.executor.thread.session fun u => u.resolved q ans
        refine thread_onceInv h (fun _ => ?_) (fun hr ho => absurd (outside_of_idle hr.1) ho)
          fun _ => Or.inl hen.1
        exact ⟨rfl, hs.readRequestBodyDone, rfl, rfl, fun ho => ho,
          fun hq => hq.of_eq rfl hs.generatorClosure⟩
      | tables kc cy =>
        exact thread_onceInv h (fun _ => ⟨rfl, rfl, rfl, rfl, id, fun hq => hq.of_eq rfl rfl⟩)
          (fun hr ho => absurd (outside_of_idle hr) ho) fun _ => Or.inl hen.1
      | status n =>
        exact thread_onceInv h (fun _ => ⟨rfl, rfl, rfl, rfl, id, fun hq => hq.of_eq rfl rfl⟩)
          (fun hr ho => absurd (outside_of_idle hr) ho) fun _ => Or.inl hen.1
  · exact h

/-- A request starts with the invariant. -/
theorem start_onceInv (conf : PhaseSetup) (r : ReqId) (kc : KeepaliveConf) (cy : Cycle)
    (exitStatus : Int) : (start conf r kc cy exitStatus).OnceInv := by
  have hq : (start conf r kc cy exitStatus).executor.Quiet := ⟨Or.inl rfl, Or.inl rfl⟩
  refine ⟨⟨rfl, List.nodup_nil, List.nodup_nil, ?_, fun p _ => ?_⟩, fun _ => rfl, ?_⟩
  · exact List.Nodup.filter _ (by decide)
  · exact ⟨List.not_mem_nil, List.not_mem_nil⟩
  · cases hrest : (start conf r kc cy exitStatus).rest with
    | nil => exact .beyond hrest rfl (Outside.of_quiet hq)
    | cons p todo => exact .fresh p todo hrest List.not_mem_nil List.not_mem_nil hq

end PhaseEngine

/-- No handler is executed to completion twice and no script started twice, in every run in
which no reader runs the phases from inside a handler. -/
theorem phases_once (conf : PhaseSetup) (r : ReqId) (kc : KeepaliveConf) (cy : Cycle)
    (exitStatus : Int) (ls : List PhaseStep)
    (hn : Along PhaseEngine.step (fun s l => ¬ s.Nests l) (.start conf r kc cy exitStatus) ls) :
    (run PhaseEngine.step (.start conf r kc cy exitStatus) ls).completed.Nodup ∧
      (run PhaseEngine.step (.start conf r kc cy exitStatus) ls).started.Nodup := by
  have h : (run PhaseEngine.step (.start conf r kc cy exitStatus) ls).OnceInv :=
    Along.invariant (I := PhaseEngine.OnceInv) (fun _ l h hl => h.step l hl)
      (PhaseEngine.start_onceInv conf r kc cy exitStatus) hn
  exact ⟨h.completed, h.started⟩

/-- A `POST` request with an access script, whose body arrives later. -/
theorem phases_once_later :
    let s := run PhaseEngine.step (.start ⟨fun p => p = .access, fun _ => false, true, true⟩ 0
      (keepaliveInit 0 0) .init 0) [.call {}, .thread (.bodyRead true), .call {},
        .thread (.stop .finish), .pass]
    s.completed.Nodup ∧ s.started.Nodup :=
  phases_once _ 0 _ _ 0 _ (by decide)

/-- With the body there at once, the access handler that refuses the request is completed
twice, and the script of the content phase is started nevertheless. -/
theorem accessInlineHandler_twice :
    let s := run PhaseEngine.step (.start ⟨fun p => p ≠ .rewrite, fun _ => false, true, true⟩ 0
      (keepaliveInit 0 0) .init 0) [.call { readBody := .done true }, .call {},
        .thread (.act (.status 403)), .thread (.stop .finish), .outerReturns, .call {}]
    s.executor.thread.returned = [⟨.access, 0, none⟩, ⟨.access, 403, none⟩] ∧
      s.completed = [.access, .access] ∧ s.started = [.content, .access] ∧
      ¬ s.completed.Nodup := by
  decide

end NgxPhp
