import NgxPhp.Socket.Outcome
import NgxPhp.Uthread.Invariant

/-!
# A parked request can be resumed

A handler waits while the phase status is `NGX_AGAIN`, which the library functions
set as well as the script's start and resume. When a segment ends without a
generator to go on with, nobody takes back what its last call has set.
-/

namespace NgxPhp

open StepMachine

namespace Session

/-- A clear leaves the phase status alone. -/
theorem clear_phaseStatus (k : Session) (readEvent : Rc) :
    (k.clear readEvent).ctx.phaseStatus = k.ctx.phaseStatus := by
  have hfree : ∀ t : Sock, (t.freePeer readEvent).phaseStatus = t.phaseStatus := by
    intro t
    unfold Sock.freePeer
    split <;> rfl
  have hclose : ∀ t : Sock, t.closeConnection.phaseStatus = t.phaseStatus := by
    intro t
    unfold Sock.closeConnection
    split <;> rfl
  unfold clear
  split
  · rfl
  · next u _ =>
    change (socketClear readEvent (k.sock u)).phaseStatus = _
    unfold socketClear
    split
    · rfl
    · exact (hclose _).trans (hfree _)

/-- A resolver's answer that does not ask to wait. -/
theorem resolved_phaseStatus (k : Session) (q : Query) (ans : ResolveAnswers)
    (h : ∀ u ∈ k.ctx.upstream, ans.waits k.kc u.resolved = false) :
    (k.onSock fun u => u.resolved q ans).ctx.phaseStatus = k.ctx.phaseStatus ∨
      (k.onSock fun u => u.resolved q ans).ctx.phaseStatus = .ok := by
  unfold onSock
  split
  · exact Or.inl rfl
  · next u hu => exact resolveHandler_phaseStatus ans q.resource (h u hu)

end Session

/-- The end of a segment goes together with the phase status it finds. -/
def Stop.Settles (s : Stop) (generator : Bool) (phaseStatus : Rc) : Prop :=
  match s with
  | .suspend _ => True
  | .finish => generator = true ∨ phaseStatus ≠ .again
  | .object (some valid) => valid = false
  | .object none => phaseStatus ≠ .again
  | .bailout _ => phaseStatus ≠ .again

instance Stop.decidableSettles (s : Stop) (generator : Bool) (phaseStatus : Rc) :
    Decidable (s.Settles generator phaseStatus) := by
  rcases s with _ | _ | (_ | _) | _ <;> unfold Stop.Settles <;> infer_instance

namespace Executor

variable {e e' : Executor} {readEvent : Rc} {method : Bool}

/-- A segment that ends, or a resume that ends, without a generator to go on with finds that the
last call has not asked to wait, and a resolver's answer that comes without one does not ask. -/
def Settled (e : Executor) (l : ThreadStep) : Prop :=
  e.Enabled l →
    match l with
    | .stop s =>
      match e.thread.running with
      | some (.create _ kind _) =>
        kind.stops s = true → s.Settles (kind = .generator) e.ctx.phaseStatus
      | some .resume =>
        e.ctx.generatorClosure.any (fun g => g.stops s) = true → s.Settles true e.ctx.phaseStatus
      | _ => True
    | .resume _ method =>
      (e.ctx.generatorClosure = none ∨ (e.ctx.generatorClosure = some .object ∧ method = false)) →
        e.ctx.phaseStatus ≠ .again
    | .resolved _ ans => e.ctx.generatorClosure = some (.generator true) ∨
        ∀ u ∈ e.ctx.upstream, ans.waits e.thread.session.kc u.resolved = false
    | _ => True

instance decidableSettled (e : Executor) (l : ThreadStep) : Decidable (e.Settled l) := by
  unfold Settled
  match l with
  | .stop _ =>
    dsimp only
    split <;> infer_instance
  | .postRead | .enter _ _ | .bodyRead _ | .act _ | .event _ _ _ _ | .sleepTimer
  | .resume _ _ | .resolved _ _ | .tables _ _ | .status _ => infer_instance

/-- A handler that returns `NGX_AGAIN` because of the phase status leaves a valid generator. -/
def Resumable (e : Executor) (l : ThreadStep) : Prop :=
  ∀ phase, (e.step l).thread.returned = ⟨phase, Rc.again.toInt, none⟩ :: e.thread.returned →
    (e.step l).ctx.phaseStatus = .again →
    (e.step l).ctx.generatorClosure = some (.generator true)

/-- Between two pieces of code a request that waits has a valid generator. -/
def Parks (e : Executor) : Prop :=
  e.thread.running = none → e.ctx.phaseStatus = .again →
    e.ctx.generatorClosure = some (.generator true)

/-- While something runs, nothing is to be shown. -/
theorem Parks.of_running {run : Running} (hr : e.thread.running = some run) : e.Parks :=
  fun hne => by simp [hr] at hne

/-- A request that does not wait needs no generator. -/
theorem Parks.of_phaseStatus (hs : e.ctx.phaseStatus ≠ .again) : e.Parks :=
  fun _ ha => absurd ha hs

/-- A valid generator is what a waiting request needs. -/
theorem Parks.of_generator (hg : e.ctx.generatorClosure = some (.generator true)) : e.Parks :=
  fun _ _ => hg

/-- A handler's answer keeps what was settled before. -/
theorem Answered.parks (h : e.Answered e')
    (hg : e.ctx.phaseStatus = .again → e.ctx.generatorClosure = some (.generator true)) :
    e'.Parks := by
  cases h with
  | parked hs hctx =>
    refine .of_generator ?_
    rw [hctx, hg hs]
  | finished hs hp => exact .of_phaseStatus (by simp [hp])

/-- The routine of inline code leaves a valid generator where it waits. -/
theorem inlineRoutine_parks (phase : Phase) (entry : Entry) (hm : e.thread.moduleCtx = true) :
    (e.inlineRoutine phase entry).Parks := by
  unfold inlineRoutine
  dsimp only
  split
  · exact .of_running rfl
  · refine (answer_answered _ phase entry ?_).parks fun ha => absurd ha ?_
    · rw [(leave_sameSegment _ _).moduleCtx]
      exact hm
    · rw [leave_ctx]
      simp [ctx, setRequestStatus, setPhaseStatus, onCtx, onThread]

/-- A handler behind the body leaves a valid generator where it waits. -/
theorem handlePhase_parks (phase : Phase) (entry : Entry) (hm : e.thread.moduleCtx = true)
    (hg : e.ctx.phaseStatus = .again → e.ctx.generatorClosure = some (.generator true)) :
    (e.handlePhase phase entry).Parks := by
  rcases handlePhase_cases e phase entry with ⟨e₁, rc, hb, heq⟩ | heq | heq
  · rw [heq]
    exact fun _ ha => hb.generatorClosure.trans (hg (hb.phaseStatus.symm.trans ha))
  · rw [heq]
    exact inlineRoutine_parks phase entry hm
  · rw [heq]
    exact (answer_answered e phase entry hm).parks hg

/-- The entry of a handler leaves a valid generator where it waits. -/
theorem enter_parks (h : e.Parks) (hr : e.thread.running = none) (phase : Phase)
    (entry : Entry) : (e.enter entry phase).Parks := by
  have hctx : e.ensureCtx.ctx.phaseStatus = .again →
      e.ensureCtx.ctx.generatorClosure = some (.generator true) := by
    unfold ensureCtx
    split
    · exact h hr
    · exact fun ha => absurd ha (by simp [ctx, onCtx, onThread])
  rcases enter_cases e phase entry with heq | ⟨_, _, heq⟩ | ⟨_, heq⟩
  · rw [heq]
    exact fun _ => h hr
  · rw [heq]
    exact handlePhase_parks phase entry e.ensureCtx_moduleCtx hctx
  · rw [heq]
    exact handlePhase_parks (e := e.ensureCtx.setRequestStatus 0) phase entry
      e.ensureCtx_moduleCtx hctx

/-- The end of the first segment, after which the handler would wait. -/
theorem createEnd_waits {kind : ScriptKind} {s : Stop}
    (hset : s.Settles (kind = .generator) e.ctx.phaseStatus)
    (ha : (e.createEnd kind s).ctx.phaseStatus = .again) :
    (e.createEnd kind s).ctx.generatorClosure = some (.generator true) := by
  cases s with
  | suspend operand => rfl
  | finish =>
    cases kind with
    | generator => cases ha
    | function => exact absurd ha (hset.resolve_left (by simp))
  | object valid =>
    rcases valid with _ | _ | _
    · exact absurd ha hset
    · cases ha
    · cases hset
  | bailout b => exact absurd ha hset

/-- The end of a settled segment leaves a valid generator where it waits. -/
theorem stop_parks (hi : e.ScriptInv) (h : e.Parks) {s : Stop} (hset : e.Settled (.stop s))
    (hen : e.Enabled (.stop s)) : (e.stop s).Parks := by
  have hset := hset hen
  have hl := leave_sameSegment e s
  unfold stop
  split
  · next phase kind entry hr =>
    rw [hr] at hset
    split
    · next hs =>
      have hm : (e.leave s).thread.moduleCtx = true :=
        hl.moduleCtx.trans (hi.moduleCtx (by simp [hr]))
      have hm' := (createEnd_frame (e.leave s) kind s).1.trans hm
      exact (answer_answered _ phase entry hm').parks fun ha =>
        createEnd_waits (by rw [leave_ctx]; exact hset hs) ha
    · exact h
  · next hr =>
    rw [hr] at hset
    split
    · next hs =>
      have hset := hset hs
      have hm : e.thread.moduleCtx = true := hi.moduleCtx (by simp [hr])
      rw [resumeEnd_eq (by rw [leave_ctx]; exact hi.open_ hm)]
      have hphase : (e.leave s).ctx.phaseStatus = e.ctx.phaseStatus := by rw [leave_ctx]
      rcases s with operand | _ | (_ | _ | _) | b
      · refine .of_generator ?_
        change (e.leave _).ctx.generatorClosure = _
        rw [leave_ctx]
        rcases hi.resume hr with hg | hg
        · exact hg
        · simp [hg, Closure.stops] at hs
      · exact .of_phaseStatus (by simp [ctx, setClosure, setPhaseStatus, runPhases, onCtx,
          onThread])
      · refine .of_phaseStatus ?_
        change (e.leave _).ctx.phaseStatus ≠ _
        rw [hphase]
        exact hset
      · exact .of_phaseStatus (by simp [ctx, setClosure, setPhaseStatus, runPhases, onCtx,
          onThread])
      · cases hset
      · refine .of_phaseStatus ?_
        change (e.leave _).ctx.phaseStatus ≠ _
        rw [hphase]
        exact hset
    · exact h
  · exact h

/-- A settled resume leaves a valid generator where it waits. -/
theorem resume_parks (h : e.Settled (.resume readEvent method))
    (hr : e.thread.running = some .handler) : (e.resume readEvent method).Parks := by
  have hset := h hr
  unfold resume
  split
  · next hg =>
    refine .of_phaseStatus ?_
    change (e.thread.session.clear readEvent).ctx.phaseStatus ≠ .again
    rw [Session.clear_phaseStatus]
    exact hset (Or.inl hg)
  · exact .of_running rfl
  · next hg =>
    cases method with
    | true => exact .of_running rfl
    | false => exact .of_phaseStatus (hset (Or.inr ⟨hg, rfl⟩))
  · exact .of_running hr
  · exact .of_running hr

/-- A settled answer of the resolver leaves a valid generator where it waits. -/
theorem resolved_parks (h : e.Parks) {q : Query} {ans : ResolveAnswers}
    (hset : e.Settled (.resolved q ans)) (hen : e.Enabled (.resolved q ans)) :
    (e.perform (.resolved q ans)).Parks := by
  have hs := Session.onSock_sameHandler e.thread.session fun u => u.resolved q ans
  intro _ ha
  have hkeep : e.ctx.generatorClosure = some (.generator true) := by
    rcases hset hen with hg | hw
    · exact hg
    · have hphase := Session.resolved_phaseStatus e.thread.session q ans hw
      rcases hphase with hp | hp
      · exact h hen.1 (hp.symm.trans ha)
      · exact absurd (hp.symm.trans ha) (by simp)
  exact hs.generatorClosure.trans hkeep

/-- The script is in order and a request that waits has a valid generator. -/
structure ParkInv (e : Executor) : Prop where
  script : e.ScriptInv
  parks : e.Parks

/-- Each settled step keeps the invariant. -/
theorem ParkInv.step (h : e.ParkInv) {l : ThreadStep} (hset : e.Settled l) :
    (e.step l).ParkInv := by
  refine ⟨h.script.step l, ?_⟩
  unfold Executor.step
  split
  · next hen =>
    cases l with
    | postRead =>
      simp only [perform, postReadHandler]
      split
      · exact h.parks
      · exact .of_phaseStatus (by simp [ctx, onCtx, onThread])
    | enter phase entry => exact enter_parks h.parks hen phase entry
    | bodyRead data =>
      have hb := e.bodyRead data
      exact fun hr ha => hb.generatorClosure.trans
        (h.parks (hb.running.symm.trans hr) (hb.phaseStatus.symm.trans ha))
    | act a =>
      intro hr
      have hruns : e.scriptRuns = true := hen
      rw [scriptRuns, ← (act_sameSegment e a).running,
        show (e.act a).thread.running = none from hr] at hruns
      cases hruns
    | stop s => exact stop_parks h.script h.parks hset hen
    | event d write how ans => exact .of_running rfl
    | sleepTimer => exact .of_running rfl
    | resume readEvent method => exact resume_parks hset hen
    | resolved q ans => exact resolved_parks h.parks hset hen
    | tables kc cy => exact h.parks
    | status n => exact h.parks
  · exact h.parks

/-- A request starts with the invariant. -/
theorem init_parkInv (r : ReqId) (kc : KeepaliveConf) (cy : Cycle) (exitStatus : Int) :
    (init r kc cy exitStatus).ParkInv :=
  ⟨init_scriptInv r kc cy exitStatus, .of_phaseStatus (by simp [init, ctx])⟩

/-- A handler behind the body returns or has its script running. -/
theorem handlePhase_returned (phase : Phase) (entry : Entry) (hm : e.thread.moduleCtx = true) :
    (e.handlePhase phase entry).thread.running = none ∨
      (e.handlePhase phase entry).thread.returned = e.thread.returned := by
  rcases handlePhase_cases e phase entry with ⟨e₁, rc, _, heq⟩ | heq | heq
  · rw [heq]
    exact Or.inl rfl
  · rw [heq]
    unfold inlineRoutine
    dsimp only
    split
    · exact Or.inr rfl
    · refine Or.inl (answer_answered _ phase entry ?_).running
      rw [(leave_sameSegment _ _).moduleCtx]
      exact hm
  · rw [heq]
    exact Or.inl (answer_answered e phase entry hm).running

/-- A handler that is entered returns or has its script running. -/
theorem enter_returned (phase : Phase) (entry : Entry) :
    (e.enter entry phase).thread.running = none ∨
      (e.enter entry phase).thread.returned = e.thread.returned := by
  have hret : e.ensureCtx.thread.returned = e.thread.returned := by
    unfold ensureCtx
    split <;> rfl
  rcases enter_cases e phase entry with heq | ⟨_, _, heq⟩ | ⟨_, heq⟩
  · rw [heq]
    exact Or.inl rfl
  · rw [heq]
    exact (handlePhase_returned phase entry e.ensureCtx_moduleCtx).imp_right (·.trans hret)
  · rw [heq]
    exact (handlePhase_returned (e := e.ensureCtx.setRequestStatus 0) phase entry
      e.ensureCtx_moduleCtx).imp_right (·.trans hret)

/-- A step that reports the return of a handler leaves nothing running. -/
theorem ScriptInv.step_returned (hi : e.ScriptInv) (l : ThreadStep) :
    (e.step l).thread.running = none ∨ (e.step l).thread.returned = e.thread.returned := by
  unfold Executor.step
  split
  · next hen =>
    cases l with
    | postRead =>
      simp only [perform, postReadHandler]
      split <;> exact Or.inr rfl
    | enter phase entry => exact enter_returned phase entry
    | bodyRead data => exact Or.inl ((e.bodyRead data).running.trans hen.1)
    | act a => exact Or.inr (act_sameSegment e a).returned
    | stop s =>
      have hl := leave_sameSegment e s
      simp only [perform, stop]
      split
      · next phase kind entry hr =>
        split
        · refine Or.inl (answer_answered _ phase entry ?_).running
          rw [(createEnd_frame _ _ _).1, hl.moduleCtx]
          exact hi.moduleCtx (by simp [hr])
        · exact Or.inr rfl
      · next hr =>
        split
        · rw [resumeEnd_eq (by rw [leave_ctx]; exact hi.open_ (hi.moduleCtx (by simp [hr])))]
          split <;> exact Or.inl rfl
        · exact Or.inr rfl
      · exact Or.inr rfl
    | event d write how ans => exact Or.inr rfl
    | sleepTimer => exact Or.inr rfl
    | resume readEvent method =>
      simp only [perform, Executor.resume]
      split
      · exact Or.inr rfl
      · exact Or.inr rfl
      · split <;> exact Or.inr rfl
      · exact Or.inr rfl
      · exact Or.inr rfl
    | resolved q ans => exact Or.inr rfl
    | tables kc cy => exact Or.inr rfl
    | status n => exact Or.inr rfl
  · exact Or.inr rfl

/-- A settled step can be resumed. -/
theorem ParkInv.resumable (h : e.ParkInv) {l : ThreadStep} (hset : e.Settled l) :
    e.Resumable l := by
  intro phase hret
  rcases h.script.step_returned l with hr | hsame
  · exact (h.step hset).parks hr
  · simp [hsame] at hret

end Executor

/-- In every run whose segments, resumes and resolver's answers are settled, a handler that
waits for its script has a script that can be resumed. -/
theorem parked_resumable {r : ReqId} {kc : KeepaliveConf} {cy : Cycle} {exitStatus : Int}
    {ls : List ThreadStep}
    (h : Along Executor.step Executor.Settled (Executor.init r kc cy exitStatus) ls) :
    Along Executor.step Executor.Resumable (Executor.init r kc cy exitStatus) ls :=
  h.transfer (fun _ _ hi hl => hi.step hl) (fun _ _ hi hl => hi.resumable hl)
    (Executor.init_parkInv r kc cy exitStatus)

/-- A script that sleeps in its first and in its second segment, while the handler is called
again in between. -/
theorem parked_resumable_asleep :
    Along Executor.step Executor.Resumable (Executor.init 0 (keepaliveInit 0 0) .init 0)
      [.postRead, .enter .content {}, .act (.call (.sleep 1)), .stop (.suspend true),
        .enter .content {}, .sleepTimer, .resume .ok true, .act (.call (.msleep 5)),
        .stop (.suspend true), .enter .content {}] :=
  parked_resumable (by decide)

/-- A plain function that calls `ngx_sleep` and returns: its handler waits for nobody. -/
theorem ngxSleep_without_yield :
    let e := run Executor.step (Executor.init 0 (keepaliveInit 0 0) .init 0)
      [.postRead, .enter .content { compiled := .script .function }, .act (.call (.sleep 1))]
    let e' := e.step (.stop .finish)
    e'.thread.returned = [⟨.content, Rc.again.toInt, none⟩] ∧ e'.ctx.phaseStatus = .again ∧
      e'.ctx.generatorClosure = none ∧ ¬ e.Resumable (.stop .finish) :=
  ⟨by decide, by decide, by decide, fun h => absurd (h .content (by decide) (by decide))
    (by decide)⟩

end NgxPhp
