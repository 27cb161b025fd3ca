import NgxPhp.Lib.Machine
import NgxPhp.Uthread.Handler

/-!
# The closure and the code that runs

The script of a request runs with a closure of its own, the handlers leave no
finished generator behind, and a ctx that is still set has not sent its output.
This holds in every state a request can reach.
-/

namespace NgxPhp

open StepMachine

/-- The fields of the ctx that no library function touches. -/
structure Ctx.SameScript (ctx ctx' : Ctx) : Prop where
  generatorClosure : ctx'.generatorClosure = ctx.generatorClosure
  endOfRequest : ctx'.endOfRequest = ctx.endOfRequest

/-- Nor does any touch that the body has been read. -/
structure Ctx.SameHandler (ctx ctx' : Ctx) : Prop extends ctx.SameScript ctx' where
  readRequestBodyDone : ctx'.readRequestBodyDone = ctx.readRequestBodyDone

theorem Ctx.SameHandler.refl (ctx : Ctx) : ctx.SameHandler ctx := ⟨⟨rfl, rfl⟩, rfl⟩

namespace Session

/-- The socket of a session is no part of its script. -/
theorem withSock_sameHandler (k : Session) (t : Sock) :
    k.ctx.SameHandler (k.withSock t).ctx :=
  ⟨⟨rfl, rfl⟩, rfl⟩

/-- What is done on the socket leaves the script alone. -/
theorem onSock_sameHandler (k : Session) (f : Sock → Sock) :
    k.ctx.SameHandler (k.onSock f).ctx := by
  unfold onSock
  split
  · exact .refl _
  · exact withSock_sameHandler k _

/-- A clear leaves the script alone. -/
theorem clear_sameHandler (k : Session) (readEvent : Rc) :
    k.ctx.SameHandler (k.clear readEvent).ctx := by
  unfold clear
  split
  · exact .refl _
  · exact withSock_sameHandler k _

/-- No library call touches what its handler goes by. -/
theorem call_sameHandler {k k' : Session} {c : Call} {v : PhpValue}
    (h : k.call c = some (v, k')) : k.ctx.SameHandler k'.ctx := by
  have hrecv : ∀ buf rc bufferSize (f : Sock → Int × Sock),
      ngxSocketRecvWith buf rc bufferSize f k = some (v, k') → k.ctx.SameHandler k'.ctx := by
    intro buf rc bufferSize f hres
    obtain ⟨u, _, hres⟩ := Option.map_eq_some_iff.mp hres
    obtain ⟨rfl, rfl⟩ := Prod.mk.inj hres
    exact withSock_sameHandler k _
  cases c with
  | sleep time =>
    obtain ⟨rfl, rfl⟩ := Prod.mk.inj (Option.some.inj h)
    exact ⟨⟨rfl, rfl⟩, rfl⟩
  | msleep time =>
    obtain ⟨rfl, rfl⟩ := Prod.mk.inj (Option.some.inj h)
    exact ⟨⟨rfl, rfl⟩, rfl⟩
  | connect s type addr port ans =>
    simp only [call, ngxSocketConnect] at h
    split at h
    · obtain ⟨rfl, rfl⟩ := Prod.mk.inj (Option.some.inj h)
      exact ⟨⟨rfl, rfl⟩, rfl⟩
    · obtain ⟨rfl, rfl⟩ := Prod.mk.inj (Option.some.inj h)
      exact .refl _
  | close s readEvent =>
    obtain ⟨rfl, rfl⟩ := Prod.mk.inj (Option.some.inj h)
    unfold close
    split
    · exact .refl _
    · split
      · exact .refl _
      · exact ⟨⟨rfl, rfl⟩, rfl⟩
  | clear s readEvent =>
    obtain ⟨rfl, rfl⟩ := Prod.mk.inj (Option.some.inj h)
    exact clear_sameHandler k readEvent
  | send s buf len ans =>
    simp only [call, ngxSocketSend] at h
    split at h
    · obtain ⟨rfl, rfl⟩ := Prod.mk.inj (Option.some.inj h)
      exact .refl _
    · obtain ⟨u, _, h⟩ := Option.map_eq_some_iff.mp h
      obtain ⟨rfl, rfl⟩ := Prod.mk.inj h
      exact withSock_sameHandler k _
  | recv s buf len ans => exact hrecv buf none len (socketRecv ans) h
  | recvpage s buf rc bufferSize ans => exact hrecv buf (some rc) bufferSize (socketRecv ans) h
  | recvwait s buf len ans => exact hrecv buf none len (socketRecvWait ans) h
  | recvsync s buf len ans => exact hrecv buf none len (socketRecvSync ans) h
  | settimeout timeout =>
    obtain ⟨u, _, h⟩ := Option.map_eq_some_iff.mp h
    obtain ⟨rfl, rfl⟩ := Prod.mk.inj h
    exact ⟨⟨rfl, rfl⟩, rfl⟩
  | iskeepalive =>
    obtain ⟨u, _, h⟩ := Option.map_eq_some_iff.mp h
    obtain ⟨rfl, rfl⟩ := Prod.mk.inj h
    exact .refl _

end Session

namespace Executor

variable {e e' : Executor}

/-- The segment goes on, and nothing that only its end decides has changed. -/
structure SameSegment (e e' : Executor) : Prop where
  running : e'.thread.running = e.thread.running
  moduleCtx : e'.thread.moduleCtx = e.thread.moduleCtx
  generatorClosure : e'.ctx.generatorClosure = e.ctx.generatorClosure
  endOfRequest : e'.ctx.endOfRequest = e.ctx.endOfRequest
  runPhases : e'.thread.runPhases = e.thread.runPhases
  returned : e'.thread.returned = e.thread.returned

/-- What the script does within a segment. -/
theorem act_sameSegment (e : Executor) (a : Action) : e.SameSegment (e.act a) := by
  unfold act
  split
  · split
    · next hres =>
      have h := Session.call_sameHandler hres
      exact ⟨rfl, rfl, h.generatorClosure, h.endOfRequest, rfl, rfl⟩
    · exact ⟨rfl, rfl, rfl, rfl, rfl, rfl⟩
  · exact ⟨rfl, rfl, rfl, rfl, rfl, rfl⟩
  · exact ⟨rfl, rfl, rfl, rfl, rfl, rfl⟩
  · split <;> exact ⟨rfl, rfl, rfl, rfl, rfl, rfl⟩

/-- Two parts of a segment are one. -/
theorem SameSegment.trans {e'' : Executor} (h : e.SameSegment e') (g : e'.SameSegment e'') :
    e.SameSegment e'' where
  running := g.running.trans h.running
  moduleCtx := g.moduleCtx.trans h.moduleCtx
  generatorClosure := g.generatorClosure.trans h.generatorClosure
  endOfRequest := g.endOfRequest.trans h.endOfRequest
  runPhases := g.runPhases.trans h.runPhases
  returned := g.returned.trans h.returned

/-- All that a script does within a segment. -/
theorem run_acts_sameSegment (e : Executor) (hr : e.scriptRuns = true) (acts : List Action) :
    e.SameSegment (run step e (acts.map .act)) := by
  induction acts generalizing e with
  | nil => exact ⟨rfl, rfl, rfl, rfl, rfl, rfl⟩
  | cons a acts ih =>
    have h := act_sameSegment e a
    have hstep : e.step (.act a) = e.act a := if_pos hr
    have hr' : (e.act a).scriptRuns = true := by
      rw [scriptRuns, h.running]
      exact hr
    rw [List.map_cons, run_cons, hstep]
    exact h.trans (ih (e.act a) hr')

@[simp] theorem leave_ctx (e : Executor) (s : Stop) : (e.leave s).ctx = e.ctx := by
  unfold leave
  split <;> rfl

/-- Leaving a function stays within the segment. -/
theorem leave_sameSegment (e : Executor) (s : Stop) : e.SameSegment (e.leave s) := by
  unfold leave
  split <;> exact ⟨rfl, rfl, rfl, rfl, rfl, rfl⟩

/-- A handler that has its ctx parks the script and leaves the ctx as it is, or finishes the
phase. -/
inductive Answered (e e' : Executor) : Prop
  | parked (hs : e.ctx.phaseStatus = .again) (hctx : e'.ctx = e.ctx)
    (hm : e'.thread.moduleCtx = e.thread.moduleCtx) (hr : e'.thread.running = none)
    (hw : e'.thread.waiting = e.thread.waiting)
  | finished (hs : e.ctx.phaseStatus ≠ .again) (hp : e'.ctx.phaseStatus = .declined)
    (hg : e'.ctx.generatorClosure = e.ctx.generatorClosure.map fun _ => .dangling)
    (ho : e'.thread.moduleCtx = true → e'.ctx.endOfRequest = e.ctx.endOfRequest)
    (hr : e'.thread.running = none)

/-- The output of a handler ends the segment and leaves what decides about the script. -/
theorem sendOutput_frame (e : Executor) (phase : Phase) (entry : Entry) (done : Int)
    (body : Bytes) :
    let e' := e.sendOutput phase entry done body
    e'.thread.running = none ∧ e'.ctx.phaseStatus = e.ctx.phaseStatus ∧
      e'.ctx.generatorClosure = e.ctx.generatorClosure ∧
      (e'.thread.moduleCtx = true → e'.ctx.endOfRequest = e.ctx.endOfRequest) := by
  unfold sendOutput
  dsimp only
  split
  · exact ⟨rfl, rfl, rfl, fun _ => rfl⟩
  · split
    · exact ⟨rfl, rfl, rfl, fun _ => rfl⟩
    · exact ⟨rfl, rfl, rfl, fun h => absurd h (by simp [onThread, returns])⟩

/-- `set_output` finishes the phase. -/
theorem setOutput_frame (e : Executor) (phase : Phase) (entry : Entry)
    (hm : e.thread.moduleCtx = true) :
    let e' := e.setOutput phase entry
    e'.thread.running = none ∧ e'.ctx.phaseStatus = .declined ∧
      e'.ctx.generatorClosure = e.ctx.generatorClosure.map (fun _ => .dangling) ∧
      (e'.thread.moduleCtx = true → e'.ctx.endOfRequest = e.ctx.endOfRequest) := by
  have hphase : ∀ done, (e.phaseSetOutput done phase entry).thread.running = none ∧
      (e.phaseSetOutput done phase entry).ctx.phaseStatus = .declined ∧
      (e.phaseSetOutput done phase entry).ctx.generatorClosure =
        e.ctx.generatorClosure.map (fun _ => .dangling) ∧
      ((e.phaseSetOutput done phase entry).thread.moduleCtx = true →
        (e.phaseSetOutput done phase entry).ctx.endOfRequest = e.ctx.endOfRequest) := by
    intro done
    simp only [phaseSetOutput, hm, Bool.not_true, Bool.false_eq_true, if_false]
    split
    · split
      · exact ⟨rfl, rfl, rfl, fun _ => rfl⟩
      · exact e.finishPhase.sendOutput_frame phase entry done _
    · exact ⟨rfl, rfl, rfl, fun _ => rfl⟩
  cases phase with
  | rewrite => exact hphase 0
  | access => exact hphase 200
  | content =>
    simp only [setOutput, contentSetOutput, hm, Bool.not_true, Bool.false_eq_true, if_false]
    split
    · exact ⟨rfl, rfl, rfl, fun _ => rfl⟩
    · split
      · exact sendOutput_frame _ .content entry 0 _
      · exact ⟨rfl, rfl, rfl, fun _ => rfl⟩

/-- A handler with its ctx answers. -/
theorem answer_answered (e : Executor) (phase : Phase) (entry : Entry)
    (hm : e.thread.moduleCtx = true) : e.Answered (e.answer phase entry) := by
  unfold answer
  split
  · next hs => exact .parked hs rfl rfl rfl rfl
  · next hs =>
    obtain ⟨hr, hp, hg, ho⟩ := e.setOutput_frame phase entry hm
    exact .finished hs hp hg ho hr

/-- A handler that has answered runs no script. -/
theorem Answered.running (h : e.Answered e') : e'.thread.running = none := by
  cases h with
  | parked _ _ _ hr _ => exact hr
  | finished _ _ _ _ hr => exact hr

/-- Reading the request body sets its two flags in the ctx and runs the phases. -/
structure BodyRead (e e' : Executor) : Prop where
  running : e'.thread.running = e.thread.running
  moduleCtx : e'.thread.moduleCtx = e.thread.moduleCtx
  phaseStatus : e'.ctx.phaseStatus = e.ctx.phaseStatus
  generatorClosure : e'.ctx.generatorClosure = e.ctx.generatorClosure
  endOfRequest : e'.ctx.endOfRequest = e.ctx.endOfRequest
  upstream : e'.ctx.upstream = e.ctx.upstream
  waiting : e'.thread.waiting = e.thread.waiting
  exitStatus : e'.exitStatus = e.exitStatus
  ownStatus : e'.thread.ownStatus = e.thread.ownStatus

/-- The callback of the body reader sets its flags. -/
theorem bodyRead (e : Executor) (data : Bool) : e.BodyRead (e.readRequestBodyCallback data) := by
  unfold readRequestBodyCallback
  dsimp only
  split
  · split <;> exact ⟨rfl, rfl, rfl, rfl, rfl, rfl, rfl, rfl, rfl⟩
  · exact ⟨rfl, rfl, rfl, rfl, rfl, rfl, rfl, rfl, rfl⟩

/-- A handler has to read the body first, starts its script or has started it before. -/
theorem handlePhase_cases (e : Executor) (phase : Phase) (entry : Entry) :
    (∃ e₁ rc, e.BodyRead e₁ ∧ e.handlePhase phase entry = e₁.returns phase rc none) ∨
      e.handlePhase phase entry = e.inlineRoutine phase entry ∨
      e.handlePhase phase entry = e.answer phase entry := by
  unfold handlePhase
  split
  · refine Or.inl ?_
    split
    · exact ⟨e, _, ⟨rfl, rfl, rfl, rfl, rfl, rfl, rfl, rfl, rfl⟩, rfl⟩
    · refine ⟨e.onCtx fun ctx => { ctx with
        requestBodyMore := true
        readRequestBodyDone := false }, _, ?_, rfl⟩
      exact ⟨rfl, rfl, rfl, rfl, rfl, rfl, rfl, rfl, rfl⟩
    · next data _ => exact ⟨_, _, e.bodyRead data, rfl⟩
  · split
    · exact Or.inr (Or.inl rfl)
    · exact Or.inr (Or.inr rfl)

@[simp] theorem ensureCtx_moduleCtx (e : Executor) : e.ensureCtx.thread.moduleCtx = true := by
  unfold ensureCtx
  split
  · assumption
  · rfl

/-- A handler goes on with a ctx unless it cannot get one. Only the content handler sets the
status then. -/
theorem enter_cases (e : Executor) (phase : Phase) (entry : Entry) :
    e.enter entry phase = e.returns phase Rc.error.toInt none ∨
      ((e.thread.moduleCtx = true ∨ entry.allocated = true) ∧ phase ≠ .content ∧
        e.enter entry phase = e.ensureCtx.handlePhase phase entry) ∨
      (phase = .content ∧
        e.enter entry phase = (e.ensureCtx.setRequestStatus 0).handlePhase phase entry) := by
  by_cases hno : (!e.thread.moduleCtx && !entry.allocated) = true
  · refine Or.inl ?_
    cases phase <;> exact if_pos hno
  · have hroom : e.thread.moduleCtx = true ∨ entry.allocated = true := by
      cases hm : e.thread.moduleCtx <;> cases ha : entry.allocated <;> simp [hm, ha] at hno ⊢
    refine Or.inr ?_
    cases phase with
    | rewrite => exact Or.inl ⟨hroom, by simp, if_neg hno⟩
    | access => exact Or.inl ⟨hroom, by simp, if_neg hno⟩
    | content => exact Or.inr ⟨rfl, if_neg hno⟩

/-- What holds of the script of a request in every state. -/
structure ScriptInv (e : Executor) : Prop where
  /-- While the output has not been sent the request is not at its end. -/
  open_ : e.thread.moduleCtx = true → e.ctx.endOfRequest = false
  /-- Code runs for requests with a ctx only. -/
  moduleCtx : e.thread.running ≠ none → e.thread.moduleCtx = true
  /-- A resumed script has a closure that can go on. -/
  resume : e.thread.running = some .resume →
    e.ctx.generatorClosure = some (.generator true) ∨ e.ctx.generatorClosure = some .object
  /-- No finished generator is left behind. -/
  closure : (∀ phase kind entry, e.thread.running ≠ some (.create phase kind entry)) →
    e.ctx.generatorClosure ≠ some (.generator false)

/-- Where nothing runs, the generator must not have ended. -/
theorem ScriptInv.of_idle (hr : e.thread.running = none)
    (ho : e.thread.moduleCtx = true → e.ctx.endOfRequest = false)
    (hg : e.ctx.generatorClosure ≠ some (.generator false)) : e.ScriptInv :=
  ⟨ho, fun hne => absurd hr hne, fun hres => by simp [hr] at hres, fun _ => hg⟩

/-- A handler that has answered keeps the invariant. -/
theorem Answered.scriptInv (h : e.Answered e') (ho : e.ctx.endOfRequest = false)
    (hg : e.ctx.phaseStatus = .again → e.ctx.generatorClosure ≠ some (.generator false)) :
    e'.ScriptInv := by
  cases h with
  | parked hs hctx hm' hr =>
    refine .of_idle hr (fun _ => ?_) ?_
    · rw [hctx]
      exact ho
    · rw [hctx]
      exact hg hs
  | finished hs hp hg' ho' hr =>
    refine .of_idle hr (fun hm' => ?_) ?_
    · rw [ho' hm']
      exact ho
    · rw [hg']
      simp

/-! ## Steps -/

/-- `create` keeps the invariant. -/
theorem create_scriptInv (phase : Phase) (kind : ScriptKind) (entry : Entry)
    (hm : e.thread.moduleCtx = true) (ho : e.ctx.endOfRequest = false) :
    (e.create phase kind entry).ScriptInv :=
  ⟨fun _ => ho, fun _ => hm, fun hres => absurd hres (by simp [create, beginSegment, onThread]),
    fun hne => absurd rfl (hne phase kind entry)⟩

/-- The routine of inline code keeps the invariant. -/
theorem inlineRoutine_scriptInv (phase : Phase) (entry : Entry)
    (hm : e.thread.moduleCtx = true) (ho : e.ctx.endOfRequest = false)
    (hg : e.ctx.generatorClosure ≠ some (.generator false)) :
    (e.inlineRoutine phase entry).ScriptInv := by
  unfold inlineRoutine
  dsimp only
  split
  · exact create_scriptInv phase _ entry hm ho
  · next status _ =>
    refine (answer_answered _ phase entry ?_).scriptInv ?_ fun _ => ?_
    · rw [(leave_sameSegment _ _).moduleCtx]
      exact hm
    · rw [leave_ctx]
      exact ho
    · rw [leave_ctx]
      exact hg

/-- A handler behind the body keeps the invariant. -/
theorem handlePhase_scriptInv (phase : Phase) (entry : Entry)
    (hm : e.thread.moduleCtx = true) (ho : e.ctx.endOfRequest = false)
    (hg : e.ctx.generatorClosure ≠ some (.generator false)) :
    (e.handlePhase phase entry).ScriptInv := by
  rcases handlePhase_cases e phase entry with ⟨e₁, rc, hb, heq⟩ | heq | heq
  · rw [heq]
    exact .of_idle rfl (fun _ => hb.endOfRequest.trans ho) (hb.generatorClosure.symm ▸ hg)
  · rw [heq]
    exact inlineRoutine_scriptInv phase entry hm ho hg
  · rw [heq]
    exact (answer_answered e phase entry hm).scriptInv ho fun _ => hg

/-- A new ctx has no script that has ended. -/
theorem ensureCtx_frame (h : e.ScriptInv) (hr : e.thread.running = none) :
    e.ensureCtx.ctx.endOfRequest = false ∧
      e.ensureCtx.ctx.generatorClosure ≠ some (.generator false) := by
  unfold ensureCtx
  split
  · next hm => exact ⟨h.open_ hm, h.closure (by simp [hr])⟩
  · exact ⟨rfl, by simp [ctx, onCtx, onThread]⟩

/-- The entry of a handler keeps the invariant. -/
theorem enter_scriptInv (h : e.ScriptInv) (hr : e.thread.running = none) (phase : Phase)
    (entry : Entry) : (e.enter entry phase).ScriptInv := by
  obtain ⟨ho, hg⟩ := ensureCtx_frame h hr
  rcases enter_cases e phase entry with heq | ⟨_, _, heq⟩ | ⟨_, heq⟩
  · rw [heq]
    exact .of_idle rfl h.open_ (h.closure (by simp [hr]))
  · rw [heq]
    exact handlePhase_scriptInv phase entry e.ensureCtx_moduleCtx ho hg
  · rw [heq]
    exact handlePhase_scriptInv (e := e.ensureCtx.setRequestStatus 0) phase entry
      e.ensureCtx_moduleCtx ho hg

/-- The first segment ends with the script suspended, or with no valid generator. -/
theorem createEnd_frame (e : Executor) (kind : ScriptKind) (s : Stop) :
    (e.createEnd kind s).thread.moduleCtx = e.thread.moduleCtx ∧
      (e.createEnd kind s).ctx.endOfRequest = e.ctx.endOfRequest ∧
      ((e.createEnd kind s).ctx.phaseStatus = .again →
        (e.createEnd kind s).ctx.generatorClosure ≠ some (.generator false)) := by
  unfold createEnd
  split
  · refine ⟨rfl, rfl, fun _ => ?_⟩
    simp [ctx, suspend, setClosure, setPhaseStatus, onCtx, onThread]
  · split
    · exact ⟨rfl, rfl, fun ha => absurd ha (by
        simp [ctx, setClosure, setPhaseStatus, onCtx, onThread])⟩
    · exact ⟨rfl, rfl, fun _ => by simp [ctx, setClosure, onCtx, onThread]⟩
  · dsimp only
    split <;> exact ⟨rfl, rfl, fun _ => by
      simp [ctx, setClosure, setPhaseStatus, onCtx, onThread]⟩
  · exact ⟨rfl, rfl, fun _ => by simp [ctx, setClosure, onCtx, onThread]⟩

/-- What is left of a resume after `next`, for a request that has not sent its output. -/
theorem resumeEnd_eq (ho : e.ctx.endOfRequest = false) (s : Stop) :
    e.resumeEnd s = match s with
      | .bailout _ => (e.setClosure none).setRunning none
      | .suspend operand => ((e.suspend operand).setRunning none).setPhaseStatus .again
      | .finish => (((e.setRunning none).setPhaseStatus .ok).setClosure none).runPhases
      | .object (some true) => (e.setRunning none).setPhaseStatus .again
      | .object (some false) =>
        (((e.setRunning none).setPhaseStatus .ok).setClosure none).runPhases
      | .object none => e.setRunning none := by
  have hafter : ∀ s, ((e.afterNext s).setRunning none).ctx.endOfRequest = false := by
    intro s
    cases s <;> exact ho
  unfold resumeEnd
  cases s with
  | bailout b => rfl
  | suspend operand => simp only [hafter, Bool.false_eq_true, if_false]; rfl
  | finish => simp only [hafter, Bool.false_eq_true, if_false]; rfl
  | object valid =>
    simp only [hafter, Bool.false_eq_true, if_false]
    rcases valid with _ | _ | _ <;> rfl

/-- The end of a resumed segment keeps the invariant. -/
theorem resumeEnd_scriptInv (h : e.ScriptInv) (hr : e.thread.running = some .resume)
    {s : Stop} (hs : e.ctx.generatorClosure.any (fun g => g.stops s) = true) :
    (e.resumeEnd s).ScriptInv := by
  have ho : e.ctx.endOfRequest = false := h.open_ (h.moduleCtx (by simp [hr]))
  have hg : e.ctx.generatorClosure ≠ some (.generator false) := by
    rcases h.resume hr with hg | hg <;> simp [hg]
  rw [resumeEnd_eq ho]
  split
  · exact .of_idle rfl (fun _ => ho) (by simp [ctx, setClosure, setRunning, onCtx, onThread])
  · exact .of_idle rfl (fun _ => ho) hg
  · exact .of_idle rfl (fun _ => ho) (by simp [ctx, setClosure, runPhases, onCtx, onThread])
  · exact .of_idle rfl (fun _ => ho) hg
  · exact .of_idle rfl (fun _ => ho) (by simp [ctx, setClosure, runPhases, onCtx, onThread])
  · exact .of_idle rfl (fun _ => ho) hg

/-- Within a segment the invariant stays as it is. -/
theorem SameSegment.scriptInv (hs : e.SameSegment e') (h : e.ScriptInv) : e'.ScriptInv where
  open_ hm := hs.endOfRequest.trans (h.open_ (hs.moduleCtx ▸ hm))
  moduleCtx hne := hs.moduleCtx.trans (h.moduleCtx (hs.running ▸ hne))
  resume hr := hs.generatorClosure ▸ h.resume (hs.running ▸ hr)
  closure hne := hs.generatorClosure ▸ h.closure (hs.running ▸ hne)

/-- Each end of a segment keeps the invariant. -/
theorem stop_scriptInv (h : e.ScriptInv) (s : Stop) : (e.stop s).ScriptInv := by
  have hl := leave_sameSegment e s
  have hleave := hl.scriptInv h
  unfold stop
  split
  · next phase kind entry hr =>
    split
    · have hm : (e.leave s).thread.moduleCtx = true := hleave.moduleCtx (by simp [hl.running, hr])
      obtain ⟨hm', ho', hg'⟩ := createEnd_frame (e.leave s) kind s
      refine (answer_answered _ phase entry (hm'.trans hm)).scriptInv ?_ hg'
      rw [ho']
      exact hleave.open_ hm
    · exact h
  · next hr =>
    split
    · next hs =>
      exact resumeEnd_scriptInv hleave (hl.running.trans hr) (hl.generatorClosure.symm ▸ hs)
    · exact h
  · exact h

/-- A resume keeps the invariant. -/
theorem resume_scriptInv (h : e.ScriptInv) (hr : e.thread.running = some .handler)
    (readEvent : Rc) (method : Bool) : (e.resume readEvent method).ScriptInv := by
  have hm : e.thread.moduleCtx = true := h.moduleCtx (by simp [hr])
  have hbegin : e.ctx.generatorClosure = some (.generator true) ∨
      e.ctx.generatorClosure = some .object → (e.beginSegment .resume).ScriptInv := fun hg =>
    ⟨h.open_, fun _ => hm, fun _ => hg, fun _ => h.closure (by simp [hr])⟩
  have hg : e.ctx.generatorClosure ≠ some (.generator false) := h.closure (by simp [hr])
  unfold resume
  split
  · have hs := Session.clear_sameHandler e.thread.session readEvent
    refine .of_idle rfl (fun _ => ?_) ?_
    · exact hs.endOfRequest.trans (h.open_ hm)
    · exact fun he => hg (hs.generatorClosure.symm.trans he)
  · next valid hgen =>
    cases valid with
    | true => exact hbegin (Or.inl hgen)
    | false => exact absurd hgen hg
  · next hgen =>
    split
    · exact hbegin (Or.inr hgen)
    · exact .of_idle rfl h.open_ hg
  · exact h
  · exact h

/-- Every step keeps the invariant. -/
theorem ScriptInv.step (h : e.ScriptInv) (l : ThreadStep) : (e.step l).ScriptInv := by
  unfold Executor.step
  split
  · next hen =>
    cases l with
    | postRead =>
      simp only [perform, postReadHandler]
      split
      · exact h
      · exact .of_idle hen (fun _ => rfl) (by simp [ctx, onCtx, onThread])
    | enter phase entry => exact enter_scriptInv h hen phase entry
    | bodyRead data =>
      have hb := e.bodyRead data
      refine .of_idle (hb.running.trans hen.1) (fun _ => ?_) ?_
      · exact hb.endOfRequest.trans (h.open_ hen.2)
      · exact hb.generatorClosure.symm ▸ h.closure (by simp [hen.1])
    | act a => exact (act_sameSegment e a).scriptInv h
    | stop s => exact stop_scriptInv h s
    | event d write how ans =>
      have hs := Session.onSock_sameHandler { e.thread.session with
        cy := e.thread.session.cy.wake d write how } fun u => u.handleEvent write ans
      refine ⟨fun hm => ?_, fun _ => hen.2.1, fun hres => ?_, fun _ => ?_⟩
      · exact hs.endOfRequest.trans (h.open_ hm)
      · exact absurd hres (by simp [perform, event, setRunning, onThread])
      · exact fun he => h.closure (by simp [hen.1]) (hs.generatorClosure.symm.trans he)
    | sleepTimer =>
      refine ⟨h.open_, fun _ => hen.2.1, fun hres => ?_, fun _ => h.closure (by simp [hen.1])⟩
      exact absurd hres (by simp [perform, setRunning, onThread])
    | resume readEvent method => exact resume_scriptInv h hen readEvent method
    | resolved q ans =>
      have hs := Session.onSock_sameHandler e.thread.session fun u => u.resolved q ans
      refine .of_idle hen.1 (fun hm => ?_) fun he => ?_
      · exact hs.endOfRequest.trans (h.open_ hm)
      · exact h.closure (by simp [hen.1]) (hs.generatorClosure.symm.trans he)
    | tables kc cy => exact .of_idle hen h.open_ (h.closure (by simp [show _ = none from hen]))
    | status n => exact .of_idle hen h.open_ (h.closure (by simp [show _ = none from hen]))
  · exact h

/-- A request starts with the invariant. -/
theorem init_scriptInv (r : ReqId) (kc : KeepaliveConf) (cy : Cycle) (exitStatus : Int) :
    (init r kc cy exitStatus).ScriptInv :=
  .of_idle rfl (fun _ => rfl) (by simp [init, ctx])

/-- In every state of every run the script is in order. -/
theorem run_scriptInv (r : ReqId) (kc : KeepaliveConf) (cy : Cycle) (exitStatus : Int)
    (ls : List ThreadStep) : (run step (init r kc cy exitStatus) ls).ScriptInv :=
  run_invariant (fun _ l h => h.step l) (init_scriptInv r kc cy exitStatus) ls

end Executor

end NgxPhp
