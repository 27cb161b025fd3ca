import NgxPhp.Serve.Generators

/-!
# When generators are released

The handlers release the generator in the slot when they come to `set_output` and
leave the pointer to it, `ngx_http_php_zend_uthread_resume` releases it and clears
the slot, and a slot that goes away with its ctx releases nothing. So every
generator of a request is released once as long as no step meets a slot that it
takes for another one.
-/

open StepMachine

namespace NgxPhp

/-- What a thing that a script does makes of the phase status. -/
def Deed.phaseStatus (rc : Rc) : Deed → Rc
  | .library waits => if waits then .again else .ok
  | _ => rc

/-- The codes that the filters of the module run while a response is sent. -/
def OutputAnswers.filters (a : OutputAnswers) (m : Method) : List Code :=
  (if m.head then a.headHeader.filter.toList else []) ++ a.header.filter.toList ++
    a.bodyFilter.toList

/-- What holds of all codes of the filters. -/
theorem OutputAnswers.filters_cases (a : OutputAnswers) (m : Method) {R : Code → Prop}
    (h : ∀ code ∈ a.filters m, R code) :
    (m.head = true → ∀ code ∈ a.headHeader.filter, R code) ∧
      (∀ code ∈ a.header.filter, R code) ∧ ∀ code ∈ a.bodyFilter, R code :=
  ⟨fun hm code hc => h code (by simp [filters, hm, Option.mem_def.mp hc]),
    fun code hc => h code (by simp [filters, Option.mem_def.mp hc]),
    fun code hc => h code (by simp [filters, Option.mem_def.mp hc])⟩

namespace Service

variable {s t : Service}

/-- All generators have been released. -/
structure Emptied (s : Service) : Prop where
  kept : s.Kept
  empty : s.holdsLive = false

/-- Every generator that has not been released is in the slot of a script that is going on. -/
structure Owned (s : Service) : Prop where
  kept : s.Kept
  started : s.Started

/-- An empty slot is an owned one. -/
theorem Emptied.owned (h : s.Emptied) : s.Owned := ⟨h.kept, started_of_holdsLive h.empty⟩

/-- A slot that is left alone stays empty. -/
theorem SameClosures.emptied (h : s.SameClosures t) (hs : s.Emptied) : t.Emptied :=
  ⟨h.kept hs.kept, h.holdsLive.trans hs.empty⟩

/-- A slot that is left alone stays owned. -/
theorem SameClosures.owned (h : s.SameClosures t) (hs : s.Owned) : t.Owned :=
  ⟨h.kept hs.kept, h.isStarted hs.started⟩

/-- The status of the request is set without the closures. -/
theorem setRequestStatus_sameClosures (s : Service) (n : Int) :
    s.SameClosures (s.setRequestStatus n) :=
  sameClosures_of_eq rfl rfl rfl

/-- The headers of the request are set without the closures. -/
theorem onHeaders_sameClosures (s : Service) (f : HeadersOut → HeadersOut) :
    s.SameClosures (s.onHeaders f) :=
  sameClosures_of_eq rfl rfl rfl

/-- The phase status is set without the slot. -/
theorem closure_setPhaseStatus (s : Service) (rc : Rc) :
    (s.setPhaseStatus rc).closure = s.closure := by
  cases hc : s.ctx <;> simp [closure, setPhaseStatus, onCtx, hc]

/-- A ctx that goes away takes only a released generator with it. -/
theorem Emptied.withoutCtx (hs : s.Emptied) : ({ s with ctx := none } : Service).Emptied where
  kept :=
    ⟨hs.kept.owned, hs.kept.numbered, nofun, fun _ hm hd =>
      absurd (hs.kept.destroyed hs.empty hm) hd⟩
  empty := rfl

/-- With the ctx goes an empty slot. -/
theorem Emptied.clearCtx (hs : s.Emptied) : s.clearCtx.Emptied :=
  ((s.note_sameClosures (o := .ctxCleared s.chain) rfl).emptied hs).withoutCtx

/-- The section `set_output` begins with the release of the generator. -/
theorem finishPhase_emptied (hk : s.Kept) (hs : s.holdsStale = false) : s.finishPhase.Emptied := by
  obtain ⟨hk', hl'⟩ := dtorClosure_kept hk hs
  have hclosure := s.dtorClosure.closure_setPhaseStatus .declined
  refine ⟨⟨hk'.owned, hk'.numbered, fun g hg => hk'.stored g (hclosure ▸ hg),
    fun g hm hd => hclosure.trans (hk'.held g hm hd)⟩, ?_⟩
  rw [Bool.eq_false_iff]
  intro h
  obtain ⟨g, hg, hd⟩ := holdsLive_iff.mp h
  exact absurd (hl'.symm.trans (holdsLive_iff.mpr ⟨g, hclosure ▸ hg, hd⟩)) Bool.false_ne_true

/-! ## Sending -/

/-- A routine whose script leaves no generator leaves an empty slot empty. -/
theorem routine_emptied (hs : s.Emptied) (p : FuncPrefix) {code : Code}
    (hf : code.leavesGenerator = false) : (s.routine p code).Emptied :=
  have h := routine_kept hs.kept hs.empty p code
  ⟨h.1, h.2.2 hf⟩

/-- A filter of the module runs its script, if it has one. -/
theorem filter_emptied (hs : s.Emptied) (p : FuncPrefix) {filter : Option Code}
    (hf : ∀ code ∈ filter, code.leavesGenerator = false) :
    (filter.elim s fun code => s.routine p code).Emptied := by
  cases filter with
  | none => exact hs
  | some code => exact routine_emptied hs p (hf code rfl)

/-- The header filter leaves an empty slot empty. -/
theorem sendHeader_emptied (hs : s.Emptied) (h : Handler) {a : HeaderAnswer}
    (hf : ∀ code ∈ a.filter, code.leavesGenerator = false) : (s.sendHeader h a).2.Emptied := by
  unfold sendHeader
  split
  · exact (s.note_sameClosures rfl).emptied hs
  · have hr := filter_emptied hs .ngxHeaderFilter hf
    have hsent := sameClosures_of_eq
      (s := a.filter.elim s fun code => s.routine .ngxHeaderFilter code)
      (t := { a.filter.elim s fun code => s.routine .ngxHeaderFilter code with
        headerSent := a.sent }) rfl rfl rfl
    exact (hsent.trans (note_sameClosures _ rfl)).emptied hr

/-- The body filter leaves an empty slot empty. -/
theorem outputFilter_emptied (hs : s.Emptied) (h : Handler) {filter : Option Code}
    (hf : ∀ code ∈ filter, code.leavesGenerator = false) : (s.outputFilter h filter).Emptied :=
  (note_sameClosures _ rfl).emptied (filter_emptied hs .ngxBodyFilter hf)

/-- A body that is sent leaves an empty slot empty. -/
theorem sendBody_emptied (hs : s.Emptied) (h : Handler) (done : Int) {a : OutputAnswers}
    (hh : ∀ code ∈ a.header.filter, code.leavesGenerator = false)
    (hb : ∀ code ∈ a.bodyFilter, code.leavesGenerator = false) :
    (s.sendBody h done a).2.Emptied := by
  have hsent := sendHeader_emptied (s.markLastBuf_sameClosures.emptied hs) h hh
  unfold sendBody
  split
  next rc t ht =>
    rw [ht] at hsent
    split
    · exact hsent
    · exact (outputFilter_emptied ((t.endRequest_sameClosures h).emptied hsent) h hb).clearCtx

/-- An output whose filters leave no generator leaves an empty slot empty. -/
theorem sendOutput_emptied (hs : s.Emptied) (m : Method) (h : Handler) (done : Int)
    {a : OutputAnswers} (hf : ∀ code ∈ a.filters m, code.leavesGenerator = false) :
    (s.sendOutput m h done a).2.Emptied := by
  obtain ⟨hhead, hheader, hbody⟩ := a.filters_cases m hf
  have hstatus := s.onHeaders_sameClosures fun o =>
    { o with status := if o.status = 0 then 200 else o.status }
  unfold sendOutput
  dsimp only
  by_cases hm : m.head = true
  · have hsent := sendHeader_emptied (hstatus.emptied hs) h (hhead hm)
    rw [if_pos hm]
    split
    · exact hsent
    · exact sendBody_emptied hsent h done hheader hbody
  · rw [if_neg hm]
    exact sendBody_emptied (hstatus.emptied hs) h done hheader hbody

/-! ## The answers -/

/-- A section `set_output` is only come to without a released generator in the slot. -/
theorem Replies.owned (ho : s.Owned) {m : Method} {h : Handler} {done : Int} {a : OutputAnswers}
    {r : Int × Service} (hr : s.Replies m h done a r)
    (hs : s.phaseStatus ≠ .again → s.holdsStale = false)
    (hf : ∀ code ∈ a.filters m, code.leavesGenerator = false) : r.2.Owned := by
  cases hr with
  | stays rc => exact ho
  | settles go output =>
    have hfin := finishPhase_emptied ho.kept (hs go)
    cases output with
    | silent rc => exact hfin.owned
    | sends =>
      exact (sendOutput_emptied (s.finishPhase.blank_sameClosures.emptied hfin) m h done hf).owned

/-! ## The handlers -/

/-- A deed does to the phase status what it says. -/
theorem act_phaseStatus (s : Service) (d : Deed) (hc : s.ctx.isSome = true) :
    (s.act d).phaseStatus = d.phaseStatus s.phaseStatus := by
  obtain ⟨ctx, hctx⟩ := Option.isSome_iff_exists.mp hc
  cases d with
  | echo b =>
    change (s.ubWrite b).phaseStatus = s.phaseStatus
    unfold ubWrite
    rw [hctx]
    dsimp only
    split
    · simp [phaseStatus, append, count, onHeaders, onCtx, hctx]
    · rfl
  | status n => rfl
  | redirect uri n allocated =>
    change (s.redirect uri n allocated).phaseStatus = s.phaseStatus
    unfold redirect
    split <;> rfl
  | library waits => simp [act, phaseStatus, setPhaseStatus, onCtx, hctx, Deed.phaseStatus]

/-- The deeds of a segment do to the phase status what they say, one after the other. -/
theorem acts_phaseStatus (s : Service) (ds : List Deed) (hc : s.ctx.isSome = true) :
    (s.acts ds).phaseStatus = ds.foldl (fun rc d => d.phaseStatus rc) s.phaseStatus := by
  induction ds generalizing s with
  | nil => rfl
  | cons d ds ih =>
    rw [List.foldl_cons, ← act_phaseStatus s d hc]
    exact ih _ ((s.act_sameClosures d).ctx hc)

/-- A phase status reads as it has been set, where there is a ctx. -/
theorem phaseStatus_setPhaseStatus (s : Service) (rc : Rc) (hc : s.ctx.isSome = true) :
    (s.setPhaseStatus rc).phaseStatus = rc := by
  obtain ⟨ctx, hctx⟩ := Option.isSome_iff_exists.mp hc
  simp [phaseStatus, setPhaseStatus, onCtx, hctx]

/-- A bailout leaves the phase status alone. -/
theorem phaseStatus_bail (s : Service) (b : Bailout) : (s.bail b).phaseStatus = s.phaseStatus := by
  cases b with
  | exit status => rfl
  | error status => cases status <;> rfl

/-- A file has the phase status that its deeds say. -/
theorem fileRoutine_phaseStatus (s : Service) (phase : Phase) (ds : List Deed)
    (b : Option Bailout) (hc : s.ctx.isSome = true) :
    (s.fileRoutine phase ds b).phaseStatus = ds.foldl (fun rc d => d.phaseStatus rc) .ok := by
  have hok := s.phaseStatus_setPhaseStatus .ok hc
  have hctx := (s.setPhaseStatus_sameClosures (show Rc.ok ≠ .declined by decide)).ctx hc
  have hacts : ∀ u : Service, u.ctx = (s.setPhaseStatus .ok).ctx →
      (u.acts ds).phaseStatus = ds.foldl (fun rc d => d.phaseStatus rc) .ok := fun u hu => by
    rw [acts_phaseStatus u ds (hu ▸ hctx), ← hok, phaseStatus, phaseStatus, hu]
  unfold fileRoutine evaluate
  cases b with
  | none => exact hacts _ rfl
  | some b => exact (phaseStatus_bail _ b).trans (hacts _ rfl)

/-- The call comes to the section `set_output` with the closure that was there before. -/
def settles (s : Service) (m : Method) (a : CallAnswers) : Handler → Bool
  | .inline _ =>
    !(m.hasBody && !(s.ctx.getD {}).readRequestBodyDone) &&
      if s.phaseStatus = .declined then !a.code.compiles else s.phaseStatus ≠ .again
  | .file phase =>
    !(phase = .content && m.post && !(s.ctx.getD {}).readRequestBodyDone) &&
      if s.phaseStatus = .declined then a.deeds.foldl (fun rc d => d.phaseStatus rc) .ok ≠ .again
      else s.phaseStatus ≠ .again
  | _ => false

/-- The reading of the body leaves the closures alone. -/
theorem tryBody_sameClosures (s : Service) (rb : ReadBody) : s.SameClosures (s.tryBody rb).2 := by
  have hdone := s.onCtx_sameClosures (f := fun ctx => { ctx with readRequestBodyDone := true })
    (fun _ => rfl) fun _ h => h
  cases rb with
  | failed rc => exact .refl s
  | again => exact s.onCtx_sameClosures (fun _ => rfl) fun _ h => h
  | done data =>
    change s.SameClosures (s.readRequestBodyCallback data).1
    unfold readRequestBodyCallback
    dsimp only
    split
    · split
      · exact hdone.trans (onCtx_sameClosures _ (fun _ => rfl) fun _ h => h)
      · exact hdone
    · exact hdone

/-- A ctx is made without a closure. -/
theorem ensureCtx_sameClosures (s : Service) (content : Bool) :
    s.SameClosures (s.ensureCtx content) where
  ledger := rfl
  closure := by cases hc : s.ctx <;> simp [closure, ensureCtx, hc]
  generators := rfl
  ctx _ := rfl
  started := id

/-- A script is started where none is going on. -/
theorem inlineRoutine_owned (ho : s.Owned) (hc : s.ctx.isSome = true)
    (hp : s.phaseStatus = .declined) (phase : Phase) (code : Code) :
    (s.inlineRoutine phase code).Owned ∧
      (code.compiles = true ∨ s.holdsStale = false →
        (s.inlineRoutine phase code).holdsStale = false) := by
  have hl : s.holdsLive = false := Bool.eq_false_iff.mpr fun h => ho.started h hp
  have hstart := (s.setPhaseStatus_sameClosures (show Rc.ok ≠ .declined by decide)).trans
    (setRequestStatus_sameClosures _ Rc.declined.toInt)
  have hok : ((s.setPhaseStatus .ok).setRequestStatus Rc.declined.toInt).phaseStatus ≠ .declined :=
    ne_of_eq_of_ne (s.phaseStatus_setPhaseStatus .ok hc) (by decide)
  obtain ⟨hk', hs', -⟩ := routine_kept (hstart.kept ho.kept) (hstart.holdsLive.trans hl)
    phase.prefixOf code
  exact ⟨⟨hk', fun _ => routine_phaseStatus _ _ code hok⟩,
    fun h => hs' (h.imp_right hstart.holdsStale.trans)⟩

/-- An inline handler with a ctx leaves the slot owned, if it does not settle with a stale pointer.
-/
theorem handleInline_owned (ho : s.Owned) (hc : s.ctx.isSome = true) (m : Method) (phase : Phase)
    {a : CallAnswers} (hs : s.holdsStale = true → s.settles m a (.inline phase) = false)
    (hf : ∀ code ∈ a.output.filters m, code.leavesGenerator = false) :
    (s.handleInline m phase a).2.Owned := by
  unfold handleInline
  split
  · exact (s.tryBody_sameClosures a.readBody).owned ho
  next hbody =>
    have hsettles : s.settles m a (.inline phase) =
        if s.phaseStatus = .declined then !a.code.compiles else s.phaseStatus ≠ .again := by
      simp only [settles, Bool.eq_false_iff.mpr hbody]
      rfl
    rw [hsettles] at hs
    split
    next hp =>
      obtain ⟨ho', hs'⟩ := inlineRoutine_owned ho hc hp phase a.code
      refine (inlineAnswer_cases _ m a.output phase).owned ho' (fun _ => hs' ?_) hf
      rw [if_pos hp] at hs
      cases hst : s.holdsStale with
      | false => exact Or.inr rfl
      | true => exact Or.inl (by simpa using hs hst)
    next hp =>
      refine (s.inlineAnswer_cases m a.output phase).owned ho (fun h => ?_) hf
      rw [if_neg hp] at hs
      exact Bool.eq_false_iff.mpr fun hst => absurd h (by simpa using hs hst)

/-- The routine of a file leaves the closures alone. -/
theorem fileRoutine_sameClosures (s : Service) (phase : Phase) (ds : List Deed)
    (b : Option Bailout) : s.SameClosures (s.fileRoutine phase ds b) :=
  ((s.setPhaseStatus_sameClosures (show Rc.ok ≠ .declined by decide)).trans
    (setRequestStatus_sameClosures _ _)).trans (evaluate_sameClosures _ ds b)

/-- A file handler with a ctx leaves the slot owned, if it does not settle with a stale pointer. -/
theorem handleFile_owned (ho : s.Owned) (hc : s.ctx.isSome = true) (m : Method) (phase : Phase)
    {a : CallAnswers}
    (hs : s.holdsStale = true → (if s.phaseStatus = .declined then
      a.deeds.foldl (fun rc d => d.phaseStatus rc) .ok else s.phaseStatus) = .again)
    (hf : ∀ code ∈ a.output.filters m, code.leavesGenerator = false) :
    (s.handleFile m phase a).2.Owned := by
  unfold handleFile
  split
  next hp =>
    rw [if_pos hp] at hs
    have hroutine := s.fileRoutine_sameClosures phase a.deeds a.bailout
    refine (fileAnswer_cases _ m a.output phase).owned (hroutine.owned ho) (fun h => ?_) hf
    rw [s.fileRoutine_phaseStatus _ _ _ hc] at h
    exact hroutine.holdsStale.trans (Bool.eq_false_iff.mpr fun hst => h (hs hst))
  next hp =>
    rw [if_neg hp] at hs
    exact (s.fileAnswer_cases m a.output phase).owned ho
      (fun h => Bool.eq_false_iff.mpr fun hst => h (hs hst)) hf

/-- An inline handler leaves the slot owned, if it does not settle with a stale pointer. -/
theorem inlineHandler_owned (ho : s.Owned) (m : Method) (phase : Phase) {a : CallAnswers}
    (hs : s.holdsStale = true → s.settles m a (.inline phase) = false)
    (hf : ∀ code ∈ a.output.filters m, code.leavesGenerator = false) :
    (s.inlineHandler m phase a).2.Owned := by
  have hctx := s.ensureCtx_sameClosures true
  have hstatus := hctx.trans (setRequestStatus_sameClosures _ 0)
  unfold inlineHandler
  dsimp only
  split
  · exact handleInline_owned (hstatus.owned ho) rfl m phase
      (fun h => hs (hstatus.holdsStale ▸ h)) hf
  · exact handleInline_owned (hctx.owned ho) rfl m phase (fun h => hs (hctx.holdsStale ▸ h)) hf

/-- The content file leaves the slot owned, if it does not settle with a stale pointer. -/
theorem contentFileHandler_owned (ho : s.Owned) (m : Method) {a : CallAnswers}
    (hs : s.holdsStale = true → s.settles m a (.file .content) = false)
    (hf : ∀ code ∈ a.output.filters m, code.leavesGenerator = false) :
    (s.contentFileHandler m a).2.Owned := by
  have hctx := ((s.ensureCtx_sameClosures true).trans
    (onCtx_sameClosures _ (f := fun ctx => { ctx with requestBodyMore := true }) (fun _ => rfl)
      fun _ h => h)).trans (setRequestStatus_sameClosures _ 0)
  unfold contentFileHandler
  dsimp only
  split
  · exact (tryBody_sameClosures _ a.readBody).owned (hctx.owned ho)
  next hbody =>
    refine handleFile_owned (hctx.owned ho) rfl m .content (fun h => ?_) hf
    have hsettles := hs (hctx.holdsStale ▸ h)
    have hno : (m.post && !(s.ctx.getD {}).readRequestBodyDone) = false :=
      Bool.eq_false_iff.mpr hbody
    simp only [settles, decide_true, Bool.true_and, hno, Bool.not_false] at hsettles
    change (if s.phaseStatus = .declined then _ else s.phaseStatus) = _
    split at hsettles
    next hp => rw [if_pos hp]; simpa using hsettles
    next hp => rw [if_neg hp]; simpa using hsettles

/-- A file handler leaves the slot owned, if it does not settle with a stale pointer. -/
theorem fileHandler_owned (ho : s.Owned) (m : Method) (phase : Phase) {a : CallAnswers}
    (hs : s.holdsStale = true → s.settles m a (.file phase) = false)
    (hf : ∀ code ∈ a.output.filters m, code.leavesGenerator = false) :
    (s.fileHandler m phase a).2.Owned := by
  have hctx := s.ensureCtx_sameClosures true
  unfold fileHandler
  split
  next hp =>
    subst hp
    exact contentFileHandler_owned ho m hs hf
  next hp =>
    refine handleFile_owned (hctx.owned ho) rfl m phase (fun h => ?_) hf
    have hsettles := hs (hctx.holdsStale ▸ h)
    simp only [settles, decide_eq_false hp, Bool.false_and, Bool.not_false, Bool.true_and]
      at hsettles
    change (if s.phaseStatus = .declined then _ else s.phaseStatus) = _
    split at hsettles
    next hp => rw [if_pos hp]; simpa using hsettles
    next hp => rw [if_neg hp]; simpa using hsettles

/-- A handler that evaluates its code leaves an empty slot owned. -/
theorem evalHandler_owned (hs : s.Emptied) (m : Method) (h : Handler) {a : CallAnswers}
    (hf : ∀ code ∈ a.output.filters m, code.leavesGenerator = false) :
    (s.evalHandler m h a).2.Owned := by
  have hctx := (s.ensureCtx_sameClosures false).trans
    (onCtx_sameClosures _ (f := fun ctx => { ctx with requestBodyMore := true }) (fun _ => rfl)
      fun _ h => h)
  have hrun := hctx.trans ((evaluate_sameClosures _ a.deeds a.bailout).trans
    (blank_sameClosures _))
  exact (sendOutput_emptied (hrun.emptied hs) m h 0 hf).owned

/-- A handler keeps every generator that is not released in the slot, if it meets no released one
where it comes to `set_output`. -/
theorem callHandler_owned (ho : s.Owned) (m : Method) (h : Handler) {a : CallAnswers}
    (hs : s.holdsStale = true → s.settles m a h = false)
    (he : h = .opcode ∨ h = .stack → s.holdsLive = false)
    (hf : ∀ code ∈ a.output.filters m, code.leavesGenerator = false) :
    (s.callHandler m a h).2.Owned := by
  unfold callHandler
  split
  · exact ho
  · cases h with
    | inline phase => exact inlineHandler_owned ho m phase hs hf
    | file phase => exact fileHandler_owned ho m phase hs hf
    | opcode => exact evalHandler_owned ⟨ho.kept, he (Or.inl rfl)⟩ m .opcode hf
    | stack => exact evalHandler_owned ⟨ho.kept, he (Or.inr rfl)⟩ m .stack hf

/-! ## Resuming and the log phase -/

/-- Entering a closure that is not stale leaves the slot owned. -/
theorem enterClosure_owned (ho : s.Owned) (hs : s.holdsStale = false) :
    s.enterClosure.Owned ∧ s.enterClosure.holdsStale = false := by
  obtain ⟨hk, hl, hst⟩ := enterClosure_kept ho.kept hs
  exact ⟨⟨hk, fun h => s.phaseStatus_enterClosure ▸ ho.started (hl ▸ h)⟩, hst⟩

/-- What follows a resume leaves the slot owned. -/
theorem resumeNext_owned (ho : s.Owned) (hs : s.holdsStale = false) (entry : Option JmpBuf)
    (stop : Stopped) : (s.resumeNext entry stop).1.Owned := by
  obtain ⟨hoe, hse⟩ := enterClosure_owned ho hs
  have hleave := (s.leave_sameClosures .resume entry).owned ho
  have hstatus : ∀ rc : Rc, rc ≠ .declined → s.enterClosure.SameClosures
      (s.enterClosure.setPhaseStatus rc) := fun rc h => setPhaseStatus_sameClosures _ h
  cases stop with
  | bailout b =>
    obtain ⟨hk, hl, -⟩ := caught_kept ho.kept hs .resume entry b
    exact (Emptied.mk hk hl).owned
  | failure => exact hleave
  | valid =>
    unfold resumeNext
    dsimp only
    split
    · exact hleave
    · exact (((hstatus .again (by decide)).trans (zendEndTry_sameClosures _ entry)).trans
        (leave_sameClosures _ .resume entry)).owned hoe
  | ended =>
    unfold resumeNext
    dsimp only
    split
    · exact hleave
    · have hok := hstatus .ok (by decide)
      obtain ⟨hk, hl, -⟩ := freeClosure_kept (hok.kept hoe.kept) (hok.holdsStale.trans hse)
      exact (Emptied.mk hk hl).owned

/-- A resume of a closure that is not stale leaves the slot owned. -/
theorem resume_owned (ho : s.Owned) (hs : s.holdsStale = false) (seg : Segment) :
    (s.resume seg).1.Owned := by
  unfold resume
  split
  · exact (s.leave_sameClosures _ _).owned ho
  · split
    · exact (s.zendTry_sameClosures.trans (leave_sameClosures _ _ _)).owned ho
    · have htry := s.zendTry_sameClosures
      obtain ⟨hoe, hse⟩ := enterClosure_owned (htry.owned ho) (htry.holdsStale.trans hs)
      have hacts := acts_sameClosures s.zendTry.enterClosure seg.deeds
      exact resumeNext_owned (hacts.owned hoe) (hacts.holdsStale.trans hse) s.bailout seg.stop

/-- `create` returns at once where there is no ctx. -/
theorem create_sameClosures (p : FuncPrefix) (f : ScriptFn) (h : s.ctx.isNone = true) :
    s.SameClosures (s.create p f) := by
  unfold create
  rw [if_pos h]
  exact s.leave_sameClosures _ _

/-- Without a ctx and without code that can be compiled a routine starts nothing. -/
theorem routine_sameClosures (s : Service) (p : FuncPrefix) (code : Code)
    (h : s.ctx.isNone = true ∨ code.compiles = false) : s.SameClosures (s.routine p code) := by
  have hend : ∀ t, s.SameClosures t → s.SameClosures (t.zendEndTry none) := fun t ht =>
    ht.trans (t.zendEndTry_sameClosures none)
  unfold routine
  cases code with
  | compiled f =>
    have hctx : s.ctx.isNone = true := h.resolve_right Bool.noConfusion
    exact hend _ (s.zendFirstTry_sameClosures.trans (create_sameClosures p f hctx))
  | failed b => exact hend _ (s.zendFirstTry_sameClosures.trans (bail_sameClosures _ b))

/-- A routine of this code starts nothing, or finds no generator that is not released and leaves
none. -/
def Spares (s : Service) (code : Code) : Prop :=
  (s.ctx.isNone = true ∨ code.compiles = false) ∨
    s.holdsLive = false ∧ code.leavesGenerator = false

instance decidableSpares (s : Service) (code : Code) : Decidable (s.Spares code) := by
  unfold Spares
  infer_instance

/-- A script outside the three phases leaves the slot of a script that is going on alone. -/
theorem routine_owned (ho : s.Owned) (p : FuncPrefix) {code : Code} (h : s.Spares code) :
    (s.routine p code).Owned := by
  rcases h with h | ⟨hl, hf⟩
  · exact (s.routine_sameClosures p code h).owned ho
  · exact (routine_emptied ⟨ho.kept, hl⟩ p hf).owned

/-- A log script that spares the slot leaves it owned. -/
theorem logInlineHandler_owned (ho : s.Owned) {code : Code} (h : s.Spares code) :
    (s.logInlineHandler code).Owned :=
  have hstatus := s.setRequestStatus_sameClosures Rc.declined.toInt
  routine_owned (hstatus.owned ho) .ngxLog (h.imp id (And.imp_left hstatus.holdsLive.trans))

/-- The script of a filter in a response that nginx makes. -/
theorem passFilter_owned (ho : s.Owned) (p : FuncPrefix) {filter : Option Code}
    (h : ∀ code ∈ filter, s.Spares code) :
    (filter.elim s fun code => s.routine p code).Owned := by
  cases filter with
  | none => exact ho
  | some code => exact routine_owned ho p (h code rfl)

/-- A header filter that spares the slot leaves it owned. -/
theorem passHeader_owned (ho : s.Owned) (headersOut : HeadersOut) {a : HeaderAnswer}
    (h : ∀ code ∈ a.filter, s.Spares code) : (s.passHeader headersOut a).Owned := by
  have hheaders : s.SameClosures { s with headersOut } := sameClosures_of_eq rfl rfl rfl
  have hfilter : ∀ code ∈ a.filter, ({ s with headersOut } : Service).Spares code := h
  have hrun := passFilter_owned (hheaders.owned ho) .ngxHeaderFilter hfilter
  have hsent := sameClosures_of_eq
    (s := a.filter.elim { s with headersOut } fun code => routine _ .ngxHeaderFilter code)
    (t := s.passHeader headersOut a) rfl rfl rfl
  exact hsent.owned hrun

/-- A body filter that spares the slot leaves it owned. -/
theorem passOutput_owned (ho : s.Owned) {filter : Option Code}
    (h : ∀ code ∈ filter, s.Spares code) : (s.passOutput filter).Owned :=
  passFilter_owned ho .ngxBodyFilter h

end Service

/-! ## Whole requests -/

namespace Passage

/-- The step meets no slot that it takes for another one: no released generator where the closure
is resumed or released, and no live one where it is overwritten or goes away. -/
def Careful (s : Passage) : PassageStep → Prop
  | .call a => ∀ h ∈ s.rest.head?,
    (s.service.holdsStale = true → s.service.settles s.method a h = false) ∧
      (h = .opcode ∨ h = .stack → s.service.holdsLive = false) ∧
        ∀ code ∈ a.output.filters s.method, code.leavesGenerator = false
  | .resume _ => s.service.holdsStale = false
  | .redirect _ => s.service.holdsLive = false
  | .passHeader _ a => ∀ code ∈ a.filter, s.service.Spares code
  | .passOutput filter => ∀ code ∈ filter, s.service.Spares code
  | .log code => s.service.Spares code
  | .free => s.service.holdsLive = false
  | _ => True

instance decidableCareful (s : Passage) (l : PassageStep) : Decidable (s.Careful l) := by
  unfold Careful
  match l with
  | .call _ | .pass | .outerReturns | .resumeReturns | .resume _ | .bodyRead _ | .socket _
  | .others _ _ | .redirect _ | .passHeader _ _ | .passOutput _ | .log _ | .free =>
    dsimp only
    infer_instance

/-- Every generator is released once and not used or overwritten against that, and all are
released when the request is freed. -/
structure Releases (s : Passage) : Prop where
  owned : GeneratorsOwned s.service.history
  freed : s.freed = true → ∀ g, .made g ∈ s.service.history → .destroyed g ∈ s.service.history

/-- What the steps keep. -/
structure Owned (s : Passage) : Prop where
  service : s.service.Owned
  freed : s.freed = true → s.service.holdsLive = false

variable {s : Passage}

/-- What is owned is released once. -/
theorem Owned.releases (ho : s.Owned) : s.Releases where
  owned := (generatorsOwned_filter _).mp ho.service.kept.owned
  freed hf g hm := by
    rw [← Service.mem_ledger rfl] at hm ⊢
    exact ho.service.kept.destroyed (ho.freed hf) hm

/-- A step that leaves the generators alone. -/
theorem Owned.same (ho : s.Owned) {t : Passage} (h : s.service.SameClosures t.service)
    (hf : t.freed = s.freed) : t.Owned :=
  ⟨h.owned ho.service, fun ht => h.holdsLive.trans (ho.freed (hf ▸ ht))⟩

/-- A step of a request that has not been freed. -/
theorem owned_of_live {t : Passage} (ht : t.service.Owned) (hf : t.freed = false) : t.Owned :=
  ⟨ht, fun h => absurd (hf.symm.trans h) Bool.false_ne_true⟩

/-- The checker of a phase leaves the closures alone. -/
theorem check_sameClosures (s : Passage) (h : Handler) (rc : Int) :
    s.service.SameClosures (s.check h rc).service ∧ (s.check h rc).freed = s.freed := by
  have hnote := s.service.note_sameClosures (o := .returned h rc) rfl
  unfold check
  dsimp only
  split
  · exact ⟨hnote, rfl⟩
  · split
    · exact ⟨hnote, rfl⟩
    · exact ⟨hnote.trans (Service.note_sameClosures _ rfl), rfl⟩

/-- A request that is live has not been freed. -/
theorem live_freed (h : s.live = true) : s.freed = false := by
  have hboth : (!s.logged && !s.freed) = true := h
  rw [Bool.and_eq_true] at hboth
  simpa using hboth.2

/-- A call leaves the slot owned if its handler does. -/
theorem call_owned (hf : s.freed = false) {h : Handler} {a : CallAnswers}
    (hc : (s.service.callHandler s.method a h).2.Owned) : (s.call h a).Owned := by
  unfold Passage.call
  split
  next t ht =>
    rw [ht] at hc
    exact owned_of_live hc hf
  next rc t ht =>
    rw [ht] at hc
    obtain ⟨hcheck, hfreed⟩ := check_sameClosures
      { s with
        service := t
        reading := s.reading || (s.readsBody h && a.readBody = ReadBody.again) } h rc
    exact (owned_of_live (t := { s with
      service := t
      reading := s.reading || (s.readsBody h && a.readBody = ReadBody.again) }) hc hf).same
        hcheck hfreed

/-- Each careful step leaves the slot owned. -/
theorem Owned.step (ho : s.Owned) (l : PassageStep) (hc : s.Enabled l → s.Careful l) :
    (s.step l).Owned := by
  unfold Passage.step
  split
  next hen =>
    have hcl := hc hen
    cases l with
    | call a =>
      unfold perform
      dsimp only
      split
      next h rest hrest =>
        obtain ⟨hs, he, hf⟩ := hcl h (by rw [hrest]; rfl)
        exact call_owned (live_freed hen.1)
          (Service.callHandler_owned ho.service s.method h hs he hf)
      next => exact ho
    | pass => exact ho.same (.refl _) rfl
    | outerReturns =>
      unfold perform
      dsimp only
      split
      next h outer _ =>
        obtain ⟨hcheck, hfreed⟩ := check_sameClosures { s with outer } h Rc.ok.toInt
        exact ho.same hcheck hfreed
      next => exact ho
    | resumeReturns =>
      unfold perform
      dsimp only
      split
      next entry _ =>
        exact ho.same ((s.service.zendEndTry_sameClosures entry).trans
          (Service.leave_sameClosures _ _ _)) rfl
      next => exact ho
    | resume seg =>
      have hr := Service.resume_owned ho.service hcl seg
      change (s.resumeScript seg).Owned
      unfold resumeScript
      split
      · next t ht =>
        rw [ht] at hr
        exact owned_of_live hr (live_freed hen.1)
      · next t ht =>
        rw [ht] at hr
        exact owned_of_live hr (live_freed hen.1)
    | bodyRead data =>
      exact ho.same (s.service.tryBody_sameClosures (.done data)) rfl
    | socket waits =>
      exact ho.same (s.service.setPhaseStatus_sameClosures (by cases waits <;> decide)) rfl
    | others exitStatus bailout =>
      exact ho.same (Service.sameClosures_of_eq rfl rfl rfl) rfl
    | redirect loc =>
      exact owned_of_live (Service.Emptied.withoutCtx ⟨ho.service.kept, hcl⟩).owned
        (live_freed hen.1)
    | passHeader headersOut a =>
      exact owned_of_live (Service.passHeader_owned ho.service headersOut hcl) (live_freed hen.1)
    | passOutput filter =>
      exact owned_of_live (Service.passOutput_owned ho.service hcl) (live_freed hen.1)
    | log code =>
      have hf : s.freed = false := live_freed hen.1
      exact owned_of_live (Service.logInlineHandler_owned ho.service hcl) hf
    | free => exact ⟨ho.service, fun _ => hcl⟩
  next => exact ho

/-- A request starts with an empty slot. -/
theorem start_owned (method : Method) (loc : Location) (exitStatus : Int)
    (bailout : Option JmpBuf) : (start method loc exitStatus bailout).Owned where
  service :=
    { kept := ⟨trivial, nofun, nofun, nofun⟩
      started := nofun }
  freed := nofun

end Passage

/-- In every run of a request whose steps meet no slot that they take for another one, every
generator is released once, and neither used nor overwritten against that. -/
theorem generators_released (method : Method) (loc : Location) (exitStatus : Int)
    (bailout : Option JmpBuf) {ls : List PassageStep}
    (h : Along Passage.step (fun s l => s.Enabled l → s.Careful l)
      (.start method loc exitStatus bailout) ls) :
    (run Passage.step (.start method loc exitStatus bailout) ls).Releases :=
  (h.invariant (I := Passage.Owned) (fun _ l ho hl => ho.step l hl)
    (Passage.start_owned method loc exitStatus bailout)).releases

/-- The location has inline code for the content phase. -/
def contentOnly : Location := ⟨(· = .content), fun _ => false, false, false⟩

/-- A content script that waits once and ends; a log script follows. -/
theorem generators_released_suspended :
    let script : Code := .compiled (.run [] (.generator ⟨[.echo [104, 105]], .valid⟩))
    let m := Passage.start {} contentOnly 0 none
    let ls := [.call { code := script }, .resume ⟨[], .ended⟩, .call {}, .resumeReturns,
      .log (.compiled (.run [] .value)), .free]
    (run Passage.step m ls).freed = true ∧
      .made 0 ∈ (run Passage.step m ls).service.history ∧
      (run Passage.step m ls).Releases :=
  ⟨by decide +kernel, by decide +kernel, generators_released _ _ _ _ (by decide +kernel)⟩

/-- A rewrite script that ends in its first go leaves a pointer to the generator that `set_output`
has released, and the content file releases it again. In the response of a static file the
script of the body filter overwrites the generator of the header filter. -/
theorem contentFile_destroys_again :
    let loc : Location := ⟨(· ≠ .access), (· = .content), false, false⟩
    let static : Location := ⟨fun _ => false, fun _ => false, false, false⟩
    let script : Code := .compiled (.run [] (.generator ⟨[], .ended⟩))
    ¬ (run Passage.step (.start {} loc 0 none) [.call { code := script }, .call {}]).Releases ∧
      ¬ (run Passage.step (.start {} static 0 none) [.pass,
        .passHeader { status := 200, contentLengthN := 5 } { filter := some script },
        .passOutput (some (.compiled (.run [] .value)))]).Releases :=
  ⟨fun h => absurd h.owned (by decide +kernel), fun h => absurd h.owned (by decide +kernel)⟩

end NgxPhp
