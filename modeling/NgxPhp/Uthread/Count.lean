import NgxPhp.Uthread.File

/-!
# The reference count of a request

A handler that waits for its script adds one to `r->main->count` and returns
`NGX_AGAIN` to the checker of its phase. The checkers of the rewrite and the content
phase finalise the request with it, which takes the one off again. The reference that
the reader of the body takes for itself is nginx's own and not counted here.
-/

namespace NgxPhp

open StepMachine

/-- `ngx_http_finalize_request` with `NGX_AGAIN`. -/
def finalizeAgain (count : Nat) : Nat := if 1 < count then count - 1 else count

/-- What the checker of a phase makes of the count when the handler returns `NGX_AGAIN`. -/
def Phase.checkAgain : Phase → Nat → Nat
  | .rewrite => finalizeAgain
  | .access => id
  | .content => finalizeAgain

/-- A step of a request whose phases have inline code or a file. -/
inductive CountStep
  | thread (l : ThreadStep)
  | enterFile (phase : Phase) (f : FileEntry)

/-- A request with its count. -/
structure Counted where
  executor : Executor
  /-- `r->main->count`. -/
  count : Nat

namespace Executor

/-- The step without the checkers. -/
def countStep (e : Executor) : CountStep → Executor
  | .thread l => e.step l
  | .enterFile phase f => if e.thread.running = none then e.enterFile f phase else e

/-- The phase status after the first segment of a script is `NGX_AGAIN`. A plain function and a
bailout leave it as the calls have set it. -/
def leavesAgain (e : Executor) (kind : ScriptKind) : Stop → Bool
  | .suspend _ => true
  | .object (some valid) => valid
  | .object none => e.ctx.phaseStatus = .again
  | .finish => kind = .function && e.ctx.phaseStatus = .again
  | .bailout _ => e.ctx.phaseStatus = .again

/-- The handler of a file has to read the body first. -/
def fileReadsBody (e : Executor) (f : FileEntry) : Phase → Bool
  | .content => f.post && !e.contentFileEntrance.ctx.readRequestBodyDone
  | _ => false

/-- The handler of a file waits: its file has asked to wait, or it waits already. -/
def parksFile (e : Executor) (phase : Phase) (f : FileEntry) : Bool :=
  (e.thread.moduleCtx || f.allocated) && !e.fileReadsBody f phase &&
    ((e.fileEntrance phase).ctx.phaseStatus = .again ||
      (e.fileEntrance phase).ctx.phaseStatus = .declined &&
        ((e.fileEntrance phase).fileRoutine phase f).ctx.phaseStatus = .again)

/-- The phase whose handler waits after the step: its script has been suspended or has asked to
wait, or it is entered again while it waits. -/
def parks (e : Executor) : CountStep → Option Phase
  | .thread (.stop s) =>
    match e.thread.running with
    | some (.create phase kind _) =>
      if kind.stops s && e.leavesAgain kind s then some phase else none
    | _ => none
  | .thread (.enter phase entry) =>
    if e.thread.running = none && e.thread.moduleCtx && !e.readsBody entry &&
      e.ctx.phaseStatus = .again then some phase else none
  | .enterFile phase f =>
    if e.thread.running = none && e.parksFile phase f then some phase else none
  | _ => none

end Executor

namespace Counted

/-- The phase whose checker gets the `NGX_AGAIN` of a handler that has added to the count. -/
def waits (e e' : Executor) : Option Phase :=
  if e.thread.count < e'.thread.count then (e'.thread.returned.head?).map (·.phase) else none

/-- A step, and what nginx makes of its result. -/
def step (c : Counted) (l : CountStep) : Counted :=
  let e := c.executor.countStep l
  let count := c.count + (e.thread.count - c.executor.thread.count)
  { executor := e
    count := match waits c.executor e with
      | some phase => phase.checkAgain count
      | none => count }

end Counted

/-! ## What adds to the count -/

namespace Executor

variable {e e' e'' : Executor} {phase : Phase}

/-- One is added for the phase, if any, whose handler has returned `NGX_AGAIN`. -/
structure Adds (e e' : Executor) (phase : Option Phase) : Prop where
  count : e'.thread.count = e.thread.count + phase.toList.length
  returned : ∀ p ∈ phase, e'.thread.returned.head? = some ⟨p, Rc.again.toInt, none⟩

/-- A step that leaves the count alone adds nothing. -/
theorem Adds.none (h : e'.thread.count = e.thread.count) : e.Adds e' .none :=
  ⟨h, fun _ hp => by cases hp⟩

/-- A step may be preceded by one that adds nothing. -/
theorem Adds.trans {p : Option Phase} (h : e.Adds e' .none) (g : e'.Adds e'' p) :
    e.Adds e'' p := by
  constructor
  · rw [g.count, h.count]
    rfl
  · exact g.returned

/-- A step may be preceded by one that leaves the count alone. -/
theorem Adds.frame {p : Option Phase} (h : e'.Adds e'' p)
    (hc : e'.thread.count = e.thread.count) : e.Adds e'' p :=
  (Adds.none hc).trans h

/-- A handler that parks its script adds one for its phase. -/
theorem park_adds (e : Executor) (phase : Phase) : e.Adds (e.park phase) (some phase) := by
  constructor
  · rfl
  · rintro p ⟨⟩
    rfl

/-- What a script does leaves the count alone. -/
theorem act_count (e : Executor) (a : Action) : (e.act a).thread.count = e.thread.count := by
  unfold act
  split
  · split <;> rfl
  · rfl
  · rfl
  · split <;> rfl

/-- The actions of a segment leave the count alone. -/
theorem acts_count (e : Executor) (acts : List Action) :
    (acts.foldl act e).thread.count = e.thread.count := by
  induction acts generalizing e with
  | nil => rfl
  | cons a acts ih => exact (ih (e.act a)).trans (e.act_count a)

/-- Leaving a function leaves the count alone. -/
theorem leave_count (e : Executor) (s : Stop) : (e.leave s).thread.count = e.thread.count := by
  unfold leave
  split <;> rfl

/-- A handler waits exactly when the phase status says so. -/
theorem answer_adds (e : Executor) (phase : Phase) (entry : Entry) :
    e.Adds (e.answer phase entry)
      (if e.ctx.phaseStatus = .again then some phase else .none) := by
  unfold answer
  split
  · exact e.park_adds phase
  · exact .none (e.setOutput_returns phase entry).count

/-- A file that waits adds one for its phase. -/
theorem fileAnswer_adds (e : Executor) (phase : Phase) (entry : Entry) :
    e.Adds (e.fileAnswer phase entry)
      (if e.ctx.phaseStatus = .again then some phase else .none) := by
  unfold fileAnswer
  split
  · exact e.park_adds phase
  · exact .none (e.fileSetOutput_returns phase entry).count

/-- The routine sets the phase status, and code that cannot be compiled does not change it. -/
theorem inlineRoutine_adds (e : Executor) (phase : Phase) (entry : Entry) :
    e.Adds (e.inlineRoutine phase entry) .none := by
  unfold inlineRoutine
  dsimp only
  split
  · exact .none rfl
  · next status _ =>
    have hok : (((e.setPhaseStatus .ok).setRequestStatus Rc.declined.toInt).leave
        (.bailout (.error status))).ctx.phaseStatus = .ok := by
      rw [leave_ctx]
      rfl
    have h := answer_adds (((e.setPhaseStatus .ok).setRequestStatus Rc.declined.toInt).leave
      (.bailout (.error status))) phase entry
    rw [hok] at h
    exact h.frame (leave_count _ _)

/-- The body reader gives back the count that it takes. -/
theorem tryBody_count (e : Executor) (phase : Phase) (rb : ReadBody) :
    (e.tryBody phase rb).thread.count = e.thread.count := by
  have hcallback : ∀ data, (e.readRequestBodyCallback data).thread.count = e.thread.count := by
    intro data
    unfold readRequestBodyCallback
    dsimp only
    split
    · split <;> rfl
    · rfl
  cases rb with
  | failed rc => rfl
  | again => rfl
  | done data => exact hcallback data

/-- A handler behind the body adds one if the phase status is `NGX_AGAIN`. -/
theorem handlePhase_adds (e : Executor) (phase : Phase) (entry : Entry) :
    e.Adds (e.handlePhase phase entry)
      (if !e.readsBody entry && e.ctx.phaseStatus = .again then some phase else .none) := by
  by_cases hb : e.readsBody entry = true
  · have heq : e.handlePhase phase entry = e.tryBody phase entry.readBody := if_pos hb
    rw [heq, hb]
    exact .none (e.tryBody_count phase entry.readBody)
  · have heq : e.handlePhase phase entry =
        if e.ctx.phaseStatus = .declined then e.inlineRoutine phase entry
        else e.answer phase entry := if_neg hb
    rw [Bool.not_eq_true] at hb
    rw [heq, hb]
    split
    · next hd =>
      rw [hd]
      exact e.inlineRoutine_adds phase entry
    · have h := e.answer_adds phase entry
      simpa using h

/-- A new ctx leaves the count alone. -/
theorem ensureCtx_count (e : Executor) : e.ensureCtx.thread.count = e.thread.count := by
  unfold ensureCtx
  split <;> rfl

/-- Only a ctx that the request has had before can say that the handler waits. -/
theorem ensureCtx_waits (e : Executor) (entry : Entry) :
    (!e.ensureCtx.readsBody entry && e.ensureCtx.ctx.phaseStatus = .again : Bool) =
      (e.thread.moduleCtx && (!e.readsBody entry && e.ctx.phaseStatus = .again)) := by
  cases hm : e.thread.moduleCtx with
  | true =>
    rw [ensureCtx_of_moduleCtx hm]
    rfl
  | false =>
    rw [ensureCtx_ctx hm, Bool.false_and]
    exact Bool.and_false _

/-- The entry of a handler adds one if its script still waits. -/
theorem enter_adds (e : Executor) (phase : Phase) (entry : Entry) :
    e.Adds (e.enter entry phase)
      (if e.thread.moduleCtx && (!e.readsBody entry && e.ctx.phaseStatus = .again) then some phase
        else .none) := by
  by_cases hno : (!e.thread.moduleCtx && !entry.allocated) = true
  · have hm : e.thread.moduleCtx = false := by
      cases hm : e.thread.moduleCtx with
      | false => rfl
      | true => simp [hm] at hno
    have heq : e.enter entry phase = e.returns phase Rc.error.toInt .none := by
      cases phase <;> exact if_pos hno
    rw [heq, hm]
    exact .none rfl
  · have heq : e.enter entry phase = (e.ensureCtx.entrance phase).handlePhase phase entry := by
      cases phase <;> exact if_neg hno
    have h := (e.ensureCtx.entrance phase).handlePhase_adds phase entry
    rw [readsBody, entrance_ctx, ← readsBody, ensureCtx_waits] at h
    rw [heq]
    refine h.frame ?_
    cases phase <;> exact e.ensureCtx_count

/-- The end of a first segment leaves the count alone. -/
theorem createEnd_count (e : Executor) (kind : ScriptKind) (s : Stop) :
    (e.createEnd kind s).thread.count = e.thread.count := by
  unfold createEnd
  split
  · rfl
  · split <;> rfl
  · dsimp only
    split <;> rfl
  · rfl

/-- The phase status is `NGX_AGAIN` just behind the segments that leave it so. -/
theorem createEnd_again (e : Executor) {kind : ScriptKind} {s : Stop} (hs : kind.stops s = true) :
    (e.createEnd kind s).ctx.phaseStatus = .again ↔ e.leavesAgain kind s = true := by
  cases s with
  | suspend operand => exact iff_of_true rfl rfl
  | finish =>
    cases kind with
    | generator => simp [leavesAgain, createEnd, ctx, setClosure, setPhaseStatus, onCtx, onThread]
    | function => exact decide_eq_true_iff.symm
  | object valid =>
    rcases valid with _ | _ | _
    · exact decide_eq_true_iff.symm
    · simp [leavesAgain, createEnd, ctx, setPhaseStatus, onCtx, onThread]
    · exact iff_of_true rfl rfl
  | bailout b => exact decide_eq_true_iff.symm

/-- The end of a resumed segment leaves the count alone. -/
theorem resumeEnd_count (e : Executor) (s : Stop) :
    (e.resumeEnd s).thread.count = e.thread.count := by
  have hafter : ((e.afterNext s).setRunning .none).thread.count = e.thread.count := by
    cases s <;> rfl
  unfold resumeEnd
  split
  · rfl
  · dsimp only
    split
    · exact hafter
    · split <;> exact hafter

/-- A resume leaves the count alone. -/
theorem resume_count (e : Executor) (readEvent : Rc) (method : Bool) :
    (e.resume readEvent method).thread.count = e.thread.count := by
  unfold resume
  split
  · rfl
  · rfl
  · split <;> rfl
  · rfl
  · rfl

/-- The end of a segment adds one for the phase that it parks. -/
theorem stop_adds (e : Executor) (s : Stop) :
    e.Adds (e.stop s) (e.parks (.thread (.stop s))) := by
  have hctx : ∀ kind, (e.leave s).leavesAgain kind s = e.leavesAgain kind s := by
    intro kind
    cases s with
    | object valid => cases valid <;> simp [leavesAgain]
    | _ => simp [leavesAgain]
  unfold stop
  simp only [parks]
  rcases hr : e.thread.running with _ | ⟨phase, kind, entry⟩ | _ | _
  · exact .none rfl
  · dsimp only
    split
    · next hs =>
      have h := ((e.leave s).createEnd kind s).answer_adds phase entry
      have hiff := createEnd_again (e.leave s) hs
      rw [hctx] at hiff
      simp only [hiff] at h
      rw [hs, Bool.true_and]
      exact h.frame ((createEnd_count _ kind s).trans (e.leave_count s))
    · next hs =>
      rw [Bool.not_eq_true] at hs
      rw [hs]
      exact .none rfl
  · exact .none rfl
  · dsimp only
    split
    · exact .none ((resumeEnd_count _ s).trans (e.leave_count s))
    · exact .none rfl

/-- A step of a script adds one for the phase that it parks. -/
theorem step_adds (e : Executor) (l : ThreadStep) : e.Adds (e.step l) (e.parks (.thread l)) := by
  unfold Executor.step
  split
  · next hen =>
    cases l with
    | postRead =>
      refine .none ?_
      simp only [perform, postReadHandler]
      split <;> rfl
    | enter phase entry =>
      have hr : e.thread.running = .none := hen
      have h := e.enter_adds phase entry
      change e.Adds (e.enter entry phase) _
      simpa only [parks, hr, decide_true, Bool.true_and, Bool.and_assoc] using h
    | bodyRead data => exact .none (tryBody_count e .rewrite (.done data))
    | act a => exact .none (e.act_count a)
    | stop s => exact e.stop_adds s
    | event d write how ans => exact .none rfl
    | sleepTimer => exact .none rfl
    | resume readEvent method => exact .none (e.resume_count readEvent method)
    | resolved q ans => exact .none rfl
    | tables kc cy => exact .none rfl
    | status n => exact .none rfl
  · next hen =>
    -- what cannot be done leaves no handler waiting
    cases l with
    | enter phase entry =>
      have hr : e.thread.running ≠ .none := hen
      simp only [parks, hr, decide_false, Bool.false_and, Bool.false_eq_true, if_false]
      exact .none rfl
    | stop s =>
      have hr : e.scriptRuns ≠ true := hen
      have hp : e.parks (.thread (.stop s)) = .none := by
        rcases hrun : e.thread.running with _ | ⟨phase, kind, entry⟩ | _ | _
        · simp [parks, hrun]
        · simp [scriptRuns, hrun] at hr
        · simp [parks, hrun]
        · simp [parks, hrun]
      rw [hp]
      exact .none rfl
    | _ => exact .none rfl

/-- The routine of a file leaves the count alone. -/
theorem fileRoutine_count (e : Executor) (phase : Phase) (f : FileEntry) :
    (e.fileRoutine phase f).thread.count = e.thread.count := by
  have hacts :=
    acts_count ((e.setPhaseStatus .ok).setRequestStatus phase.fileStatus.toInt) f.acts
  unfold fileRoutine
  dsimp only
  split
  · exact (leave_count _ _).trans hacts
  · exact hacts

/-- The handler of a file adds one if it waits already or its file asks to wait. -/
theorem handleFile_adds (e : Executor) (phase : Phase) (f : FileEntry) :
    e.Adds (e.handleFile phase f)
      (if e.ctx.phaseStatus = .again || e.ctx.phaseStatus = .declined &&
        (e.fileRoutine phase f).ctx.phaseStatus = .again then some phase else .none) := by
  unfold handleFile
  split
  · next hd =>
    have h := (e.fileRoutine phase f).fileAnswer_adds phase f.toEntry
    rw [hd]
    refine .frame ?_ (e.fileRoutine_count phase f)
    simpa using h
  · next hd =>
    have h := e.fileAnswer_adds phase f.toEntry
    simpa [hd] using h

/-- The entry of the handler of a file adds one if it parks. -/
theorem enterFile_adds (e : Executor) (phase : Phase) (f : FileEntry) :
    e.Adds (e.enterFile f phase) (if e.parksFile phase f then some phase else .none) := by
  by_cases hno : (!e.thread.moduleCtx && !f.allocated) = true
  · have heq : e.enterFile f phase = e.returns phase Rc.error.toInt .none := by
      cases phase <;> exact if_pos hno
    have hp : e.parksFile phase f = false := by
      simp only [Bool.and_eq_true, Bool.not_eq_true'] at hno
      simp [parksFile, hno]
    rw [heq, hp]
    exact .none rfl
  · have hroom : (e.thread.moduleCtx || f.allocated) = true := by
      cases hm : e.thread.moduleCtx <;> cases ha : f.allocated <;> simp [hm, ha] at hno ⊢
    have hc : (e.fileEntrance phase).thread.count = e.thread.count := by
      cases phase <;> exact e.ensureCtx_count
    by_cases hb : e.fileReadsBody f phase = true
    · have heq : e.enterFile f phase = (e.fileEntrance phase).tryBody phase f.readBody := by
        cases phase with
        | content => exact (if_neg hno).trans (if_pos hb)
        | _ => cases hb
      rw [heq, parksFile, hb]
      simp only [Bool.not_true, Bool.and_false, Bool.false_and]
      exact .none ((tryBody_count _ _ _).trans hc)
    · have heq : e.enterFile f phase = (e.fileEntrance phase).handleFile phase f := by
        cases phase with
        | content => exact (if_neg hno).trans (if_neg hb)
        | _ => exact if_neg hno
      rw [Bool.not_eq_true] at hb
      rw [heq, parksFile, hroom, hb]
      simp only [Bool.not_false, Bool.true_and]
      exact ((e.fileEntrance phase).handleFile_adds phase f).frame hc

/-- Every step adds one to the count exactly for the handler that it leaves waiting. -/
theorem countStep_adds (e : Executor) (l : CountStep) : e.Adds (e.countStep l) (e.parks l) := by
  cases l with
  | thread l => exact e.step_adds l
  | enterFile phase f =>
    by_cases hr : e.thread.running = .none
    · have h := e.enterFile_adds phase f
      simpa only [countStep, parks, hr, if_true, decide_true, Bool.true_and] using h
    · simp only [countStep, parks, hr, if_false, decide_false, Bool.false_and, Bool.false_eq_true]
      exact .none rfl

end Executor

/-! ## The balance -/

namespace Counted

/-- The phase that a step adds one for is the one whose checker is called. -/
theorem waits_eq {e e' : Executor} {phase : Option Phase} (h : e.Adds e' phase) :
    waits e e' = phase := by
  cases phase with
  | none => exact if_neg (by rw [h.count]; exact Nat.lt_irrefl _)
  | some phase =>
    have hlt : e.thread.count < e'.thread.count := by
      rw [h.count]
      exact Nat.lt_succ_self _
    rw [waits, if_pos hlt, h.returned phase rfl]
    rfl

/-- Only a handler of the access phase that waits leaves the count higher than it was. -/
theorem step_count (c : Counted) (l : CountStep) (hc : 1 ≤ c.count) :
    (c.step l).count = c.count + if c.executor.parks l = some .access then 1 else 0 := by
  have h := c.executor.countStep_adds l
  have hcount : (c.step l).count = match c.executor.parks l with
      | some phase => phase.checkAgain (c.count + (c.executor.parks l).toList.length)
      | none => c.count + (c.executor.parks l).toList.length := by
    simp only [step, waits_eq h, h.count, Nat.add_sub_cancel_left]
  rw [hcount]
  rcases c.executor.parks l with _ | _ | _ | _
  · rfl
  · change finalizeAgain (c.count + 1) = c.count
    rw [finalizeAgain, if_pos (by omega)]
    omega
  · rfl
  · change finalizeAgain (c.count + 1) = c.count
    rw [finalizeAgain, if_pos (by omega)]
    omega

/-- The count never falls below what it was. -/
theorem run_count_le (c : Counted) (hc : 1 ≤ c.count) (ls : List CountStep) :
    c.count ≤ (run step c ls).count := by
  induction ls generalizing c with
  | nil => exact Nat.le_refl _
  | cons l ls ih =>
    have hstep := c.step_count l hc
    have hle := ih (c.step l) (by omega)
    rw [run_cons]
    omega

end Counted

/-- In every run every reference that a handler has taken is given back exactly when no handler
of the access phase has waited. -/
theorem count_balanced_iff (c : Counted) (hc : 1 ≤ c.count) (ls : List CountStep) :
    (run Counted.step c ls).count = c.count ↔
      Along Counted.step (fun c l => c.executor.parks l ≠ some .access) c ls := by
  induction ls generalizing c with
  | nil => exact iff_of_true rfl trivial
  | cons l ls ih =>
    have hstep := c.step_count l hc
    have hle := (c.step l).run_count_le (by omega) ls
    have ih := ih (c.step l) (by omega)
    rw [run_cons, along_cons]
    by_cases hp : c.executor.parks l = some .access
    · rw [if_pos hp] at hstep
      constructor
      · intro h
        omega
      · intro h
        exact absurd hp h.1
    · rw [if_neg hp, Nat.add_zero] at hstep
      rw [hstep] at ih
      rw [ih]
      exact (and_iff_right hp).symm

/-- A content script that sleeps once leaves the count as it was. -/
theorem count_balanced_content :
    (run Counted.step ⟨.init 0 (keepaliveInit 0 0) .init 0, 1⟩ [.thread .postRead,
      .thread (.enter .content {}), .thread (.act (.call (.sleep 1))),
      .thread (.stop (.suspend true)), .thread .sleepTimer, .thread (.resume .again true),
      .thread (.stop .finish), .thread (.enter .content {})]).count = 1 :=
  (count_balanced_iff _ (Nat.le_refl 1) _).mpr (by decide)

/-- An access script that sleeps once leaves the count too high by one, although its phase is
over and the content phase has answered. -/
theorem count_access_waits :
    let c := run Counted.step ⟨.init 0 (keepaliveInit 0 0) .init 0, 1⟩ [.thread .postRead,
      .thread (.enter .access {}), .thread (.act (.call (.sleep 1))),
      .thread (.stop (.suspend true)), .thread .sleepTimer, .thread (.resume .again true),
      .thread (.stop .finish), .thread (.enter .access {}), .thread (.enter .content {}),
      .thread (.stop .finish)]
    c.executor.thread.returned = [⟨.content, 0, some ⟨200, [32]⟩⟩, ⟨.access, -5, none⟩,
      ⟨.access, -2, none⟩] ∧ c.count = 2 ∧ c.count ≠ 1 := by
  decide

end NgxPhp
