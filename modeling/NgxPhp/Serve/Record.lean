import NgxPhp.Lib.Ledger
import NgxPhp.Serve.Release

/-!
# What the functions of the module put down

Starting and resuming a script adds to the record what happens to generators, the
call of the function and the returns of the two functions around it; the handlers
add what they send besides. Everything else leaves the record alone.
-/

open Ledger

namespace NgxPhp

/-- The occurrences that are about the functions around a script. -/
def Occurrence.ofUthread : Occurrence → Bool
  | .called _ => true
  | .left _ _ _ => true
  | _ => false

/-- What happens to a generator is no call or return of the uthread functions. -/
theorem Occurrence.ofUthread_of_ofGenerator (o : Occurrence) (h : o.ofGenerator = true) :
    o.ofUthread = false := by
  cases o with
  | called => cases h
  | left => cases h
  | _ => rfl

/-- The first segment ends because `valid` cannot be called. -/
def CallResult.fails : CallResult → Bool
  | .generator ⟨_, .failure⟩ => true
  | .object ⟨_, .failure⟩ => true
  | _ => false

/-- The function returns an object whose `valid` cannot be called. -/
def Code.fails : Code → Bool
  | .compiled (.run _ result) => result.fails
  | _ => false

namespace Service

/-- Only occurrences with `P` are added to the record. -/
abbrev Adds (P : Occurrence → Prop) (s t : Service) : Prop := Ledger.Adds history P s t

variable {P : Occurrence → Prop} {s t : Service}

/-- What is noted is added. -/
theorem note_adds (s : Service) {o : Occurrence} (ho : P o) : Adds P s (s.note o) :=
  adds_cons rfl ho

/-- The deeds of a script are not recorded and leave the jump buffer alone. -/
theorem act_frame (s : Service) (d : Deed) :
    (s.act d).history = s.history ∧ (s.act d).bailout = s.bailout := by
  cases d with
  | echo b =>
    change (s.ubWrite b).history = s.history ∧ (s.ubWrite b).bailout = s.bailout
    unfold ubWrite
    split
    · exact ⟨rfl, rfl⟩
    · split <;> exact ⟨rfl, rfl⟩
  | redirect uri n allocated =>
    change (s.redirect uri n allocated).history = s.history ∧
      (s.redirect uri n allocated).bailout = s.bailout
    unfold redirect
    split <;> exact ⟨rfl, rfl⟩
  | _ => exact ⟨rfl, rfl⟩

/-- The deeds of a segment are not recorded and leave the jump buffer alone. -/
theorem acts_frame (s : Service) (ds : List Deed) :
    (s.acts ds).history = s.history ∧ (s.acts ds).bailout = s.bailout := by
  induction ds generalizing s with
  | nil => exact ⟨rfl, rfl⟩
  | cons d ds ih =>
    exact ⟨(ih _).1.trans (s.act_frame d).1, (ih _).2.trans (s.act_frame d).2⟩

/-- A bailout is not recorded where it happens. -/
theorem bail_frame (s : Service) (b : Bailout) :
    (s.bail b).history = s.history ∧ (s.bail b).bailout = s.bailout := by
  cases b with
  | exit status => exact ⟨rfl, rfl⟩
  | error status => cases status <;> exact ⟨rfl, rfl⟩

/-- The deeds of a segment add nothing. -/
theorem acts_adds (s : Service) (ds : List Deed) : Adds P s (s.acts ds) :=
  adds_of_eq (s.acts_frame ds).1

/-- A bailout adds nothing. -/
theorem bail_adds (s : Service) (b : Bailout) : Adds P s (s.bail b) :=
  adds_of_eq (s.bail_frame b).1

/-- The release of a closure leaves the jump buffer alone. -/
theorem bailout_dtorClosure (s : Service) : s.dtorClosure.bailout = s.bailout := by
  unfold dtorClosure
  split <;> rfl

/-- Entering a closure leaves the jump buffer alone. -/
theorem bailout_enterClosure (s : Service) : s.enterClosure.bailout = s.bailout := by
  unfold enterClosure
  split <;> rfl

section Scripts

/-! ## Scripts -/

variable (hg : ∀ o : Occurrence, o.ofGenerator = true → P o)
include hg

/-- The release of a closure adds the end of a generator at most. -/
theorem dtorClosure_adds (s : Service) : Adds P s s.dtorClosure := by
  unfold dtorClosure
  split
  · exact s.note_adds (hg _ rfl)
  · exact .refl s

/-- A closure that is freed adds the end of a generator at most. -/
theorem freeClosure_adds (s : Service) : Adds P s s.freeClosure :=
  (dtorClosure_adds hg s).trans (adds_of_eq rfl)

/-- Entering a closure adds the use of a generator at most. -/
theorem enterClosure_adds (s : Service) : Adds P s s.enterClosure := by
  unfold enterClosure
  split
  · exact s.note_adds (hg _ rfl)
  · exact .refl s

/-- A new closure adds a generator at most. -/
theorem newClosure_adds (s : Service) : Adds P s s.newClosure := by
  unfold newClosure
  split
  next g _ => exact (s.note_adds (hg (.overwrote g) rfl)).trans (adds_of_eq rfl)
  · exact adds_of_eq rfl

/-- A stored generator adds its own making. -/
theorem storeGenerator_adds (s : Service) : Adds P s s.storeGenerator :=
  s.note_adds (o := .made s.generators) (hg _ rfl)

/-- A bailout that is caught adds that the function has been left. -/
theorem caught_adds (s : Service) (fn : UthreadFn) (entry : Option JmpBuf) (b : Bailout)
    (hl : P (.left fn entry entry)) : Adds P s (s.caught fn entry b) := by
  have hbail : Adds P s ((s.bail b).zendEndTry entry) := (s.bail_adds b).trans (adds_of_eq rfl)
  have hfree := hbail.trans (freeClosure_adds hg ((s.bail b).zendEndTry entry))
  have hexit : ((s.bail b).zendEndTry entry).freeClosure.bailout = entry :=
    bailout_dtorClosure _
  exact hfree.trans (note_adds _ (hexit.symm ▸ hl))

/-- The first go of a generator adds how `create` is left. -/
theorem createValid_adds (s : Service) (p : FuncPrefix) (entry : Option JmpBuf) (first : Segment)
    (hl : P (.left (.create p) entry entry))
    (hf : first.stop = .failure → P (.left (.create p) entry s.bailout)) :
    Adds P s (s.createValid p entry first) := by
  have hacts : Adds P s (s.enterClosure.acts first.deeds) :=
    (enterClosure_adds hg s).trans (acts_adds _ _)
  have hbailout : (s.enterClosure.acts first.deeds).bailout = s.bailout :=
    (acts_frame _ _).2.trans s.bailout_enterClosure
  unfold createValid
  dsimp only
  split
  · exact hacts.trans (adds_cons rfl hl)
  · exact hacts.trans (adds_cons rfl hl)
  next hstop => exact hacts.trans (note_adds _ (hbailout ▸ hf hstop))
  · exact hacts.trans (caught_adds hg _ _ _ _ hl)

/-- A return value adds how `create` is left. -/
theorem createValue_adds (s : Service) (p : FuncPrefix) (entry : Option JmpBuf)
    (hl : P (.left (.create p) entry entry)) : Adds P s (s.createValue p entry) :=
  (freeClosure_adds hg s).trans (adds_cons rfl hl)

/-- A script that is called adds the call and how `create` is left. -/
theorem createCall_adds (s : Service) (p : FuncPrefix) (entry : Option JmpBuf) (f : ScriptFn)
    (hc : P (.called p)) (hl : P (.left (.create p) entry entry))
    (hf : (Code.compiled f).fails = true → P (.left (.create p) entry s.bailout)) :
    Adds P s (s.createCall p entry f) := by
  cases f with
  | missing => exact createValue_adds hg s p entry hl
  | run deeds result =>
    have hacts : Adds P s ((s.note (.called p)).acts deeds) :=
      (s.note_adds hc).trans (acts_adds _ _)
    have hbailout : ((s.note (.called p)).acts deeds).bailout = s.bailout := (acts_frame _ _).2
    have hfails : ∀ first : Segment, first.stop = .failure →
        (result = .generator first ∨ result = .object first) →
          P (.left (.create p) entry ((s.note (.called p)).acts deeds).bailout) := by
      rintro ⟨ds, stop⟩ hstop hr
      subst hstop
      rw [hbailout]
      rcases hr with rfl | rfl
      · exact hf rfl
      · exact hf rfl
    cases result with
    | value => exact hacts.trans (createValue_adds hg _ p entry hl)
    | bailout b => exact hacts.trans (caught_adds hg _ _ _ b hl)
    | generator first =>
      exact (hacts.trans (storeGenerator_adds hg _)).trans
        (createValid_adds hg _ p entry first hl fun h => hfails first h (Or.inl rfl))
    | object first =>
      exact (hacts.trans (adds_of_eq rfl)).trans
        (createValid_adds hg _ p entry first hl fun h => hfails first h (Or.inr rfl))

/-- `create` adds the call and how it is left, with its own jump buffer unless the script fails. -/
theorem create_adds (s : Service) (p : FuncPrefix) (f : ScriptFn) (hc : P (.called p))
    (hl : P (.left (.create p) s.bailout s.bailout))
    (hf : (Code.compiled f).fails = true → ∀ exit, P (.left (.create p) s.bailout exit)) :
    Adds P s (s.create p f) := by
  unfold create
  split
  · exact s.note_adds hl
  · exact ((newClosure_adds hg s).trans (adds_of_eq rfl)).trans
      (createCall_adds hg _ p _ f hc hl fun h => hf h _)

/-- What the routines of inline code put down. -/
theorem routine_adds (s : Service) (p : FuncPrefix) (code : Code) (hc : P (.called p))
    (hl : ∀ entry, P (.left (.create p) entry entry))
    (hf : code.fails = true → ∀ entry exit, P (.left (.create p) entry exit)) :
    Adds P s (s.routine p code) := by
  unfold routine
  cases code with
  | compiled f =>
    exact ((adds_of_eq rfl).trans (create_adds hg { s with bailout := none }.zendTry p f hc
      (hl _) fun h => hf h _)).trans (adds_of_eq rfl)
  | failed b =>
    exact ((adds_of_eq rfl).trans (bail_adds { s with bailout := none }.zendTry b)).trans
      (adds_of_eq rfl)

/-- A resumed generator adds how `resume` is left. -/
theorem resumeNext_adds (s : Service) (entry : Option JmpBuf) (stop : Stopped)
    (hl : P (.left .resume entry entry))
    (hf : stop = .failure ∨ (∀ b, stop ≠ .bailout b) ∧ (s.ctx.getD {}).endOfRequest = true →
      P (.left .resume entry s.bailout)) :
    Adds P s (s.resumeNext entry stop).1 := by
  have henter := enterClosure_adds hg s
  cases stop with
  | bailout b => exact caught_adds hg s .resume entry b hl
  | failure => exact s.note_adds (hf (Or.inl rfl))
  | valid =>
    unfold resumeNext
    dsimp only
    split
    next he => exact s.note_adds (hf (Or.inr ⟨nofun, he⟩))
    next => exact (henter.trans (adds_of_eq rfl)).trans (adds_cons rfl hl)
  | ended =>
    unfold resumeNext
    dsimp only
    split
    next he => exact s.note_adds (hf (Or.inr ⟨nofun, he⟩))
    next => exact (henter.trans (adds_of_eq rfl)).trans (freeClosure_adds hg _)

end Scripts

/-- The evaluation of a file adds nothing. -/
theorem evaluate_adds (s : Service) (ds : List Deed) (b : Option Bailout) :
    Adds P s (s.evaluate ds b) := by
  have hacts := acts_adds (P := P) { s with bailout := none }.zendTry ds
  unfold evaluate
  cases b with
  | none => exact ((adds_of_eq rfl).trans hacts).trans (adds_of_eq rfl)
  | some b =>
    exact (((adds_of_eq rfl).trans hacts).trans (bail_adds _ b)).trans (adds_of_eq rfl)

/-- The routine of a file adds nothing. -/
theorem fileRoutine_adds (s : Service) (phase : Phase) (ds : List Deed) (b : Option Bailout) :
    Adds P s (s.fileRoutine phase ds b) :=
  (adds_of_eq rfl).trans (evaluate_adds _ ds b)

/-- A blanked request adds nothing. -/
theorem blank_adds (s : Service) : Adds P s s.blank := by
  unfold blank
  split
  · exact adds_of_eq rfl
  · exact .refl s

/-- The end of a request adds nothing. -/
theorem endRequest_adds (s : Service) (h : Handler) : Adds P s (s.endRequest h) := by
  cases h with
  | opcode => exact .refl s
  | stack => exact .refl s
  | _ => exact adds_of_eq rfl

/-- The reading of the body adds nothing. -/
theorem tryBody_adds (s : Service) (rb : ReadBody) : Adds P s (s.tryBody rb).2 := by
  cases rb with
  | failed rc => exact .refl s
  | again => exact adds_of_eq rfl
  | done data =>
    change Adds P s (s.readRequestBodyCallback data).1
    unfold readRequestBodyCallback
    dsimp only
    split
    · split <;> exact adds_of_eq rfl
    · exact adds_of_eq rfl

/-! ## Handlers -/

section Handlers

variable (ho : ∀ o : Occurrence, o.ofUthread = false → P o)
include ho

/-- A cleared ctx adds nothing. -/
theorem clearCtx_adds (s : Service) : Adds P s s.clearCtx :=
  adds_cons rfl (ho (.ctxCleared s.chain) rfl)

/-- The end of a phase adds nothing. -/
theorem finishPhase_adds (s : Service) : Adds P s s.finishPhase :=
  (dtorClosure_adds (fun o h => ho o (o.ofUthread_of_ofGenerator h)) s).trans (adds_of_eq rfl)

variable (hc : ∀ p, p ≠ .ngxLog → P (.called p)) (hl : ∀ fn entry, P (.left fn entry entry))
include hc hl

/-- A routine of a code that is not the one of the log phase. -/
theorem routine_adds_of_ne (s : Service) {p : FuncPrefix} (hp : p ≠ .ngxLog) (code : Code)
    (hf : code.fails = true → ∀ p entry exit, P (.left (.create p) entry exit)) :
    Adds P s (s.routine p code) :=
  routine_adds (fun o h => ho o (o.ofUthread_of_ofGenerator h)) s p code (hc p hp)
    (fun _ => hl _ _) fun h => hf h p

/-- The routine of inline code adds what `create` does. -/
theorem inlineRoutine_adds (s : Service) (phase : Phase) (code : Code)
    (hf : code.fails = true → ∀ p entry exit, P (.left (.create p) entry exit)) :
    Adds P s (s.inlineRoutine phase code) :=
  (adds_of_eq rfl).trans
    (routine_adds_of_ne ho hc hl _ (by cases phase <;> decide) code hf)

/-- A filter adds what its routine does. -/
theorem filter_adds (s : Service) {p : FuncPrefix} (hp : p ≠ .ngxLog) {filter : Option Code}
    (hf : ∀ code ∈ filter, code.fails = true → ∀ p entry exit, P (.left (.create p) entry exit)) :
    Adds P s (filter.elim s fun code => s.routine p code) := by
  cases filter with
  | none => exact .refl s
  | some code => exact routine_adds_of_ne ho hc hl s hp code (hf code rfl)

/-- The sending of the header adds what the header filter does. -/
theorem sendHeader_adds (s : Service) (h : Handler) (a : HeaderAnswer)
    (hf : ∀ code ∈ a.filter, code.fails = true → ∀ p entry exit, P (.left (.create p) entry exit)) :
    Adds P s (s.sendHeader h a).2 := by
  unfold sendHeader
  split
  · exact s.note_adds (ho _ rfl)
  · exact (filter_adds ho hc hl s (by decide) hf).trans (adds_cons rfl (ho _ rfl))

/-- The output filters add what the body filter does. -/
theorem outputFilter_adds (s : Service) (h : Handler) (filter : Option Code)
    (hf : ∀ code ∈ filter, code.fails = true → ∀ p entry exit, P (.left (.create p) entry exit)) :
    Adds P s (s.outputFilter h filter) :=
  (filter_adds ho hc hl s (by decide) hf).trans (note_adds _ (ho _ rfl))

/-- The sending of the body adds what both filters do. -/
theorem sendBody_adds (s : Service) (h : Handler) (done : Int) (a : OutputAnswers)
    (hh : ∀ code ∈ a.header.filter, code.fails = true →
      ∀ p entry exit, P (.left (.create p) entry exit))
    (hb : ∀ code ∈ a.bodyFilter, code.fails = true →
      ∀ p entry exit, P (.left (.create p) entry exit)) :
    Adds P s (s.sendBody h done a).2 := by
  have hsent : Adds P s (s.markLastBuf.sendHeader h a.header).2 :=
    (adds_of_eq rfl).trans (sendHeader_adds ho hc hl s.markLastBuf h a.header hh)
  unfold sendBody
  split
  next rc t ht =>
    rw [ht] at hsent
    split
    · exact hsent
    · exact ((hsent.trans (endRequest_adds t h)).trans
        (outputFilter_adds ho hc hl _ h a.bodyFilter hb)).trans (clearCtx_adds ho _)

/-- The output of a handler adds what the filters of its method do. -/
theorem sendOutput_adds (s : Service) (m : Method) (h : Handler) (done : Int) (a : OutputAnswers)
    (hf : ∀ code ∈ a.filters m, code.fails = true →
      ∀ p entry exit, P (.left (.create p) entry exit)) :
    Adds P s (s.sendOutput m h done a).2 := by
  obtain ⟨hhead, hheader, hbody⟩ := a.filters_cases m hf
  unfold sendOutput
  dsimp only
  by_cases hm : m.head = true
  · rw [if_pos hm]
    have hsent := (adds_of_eq rfl).trans (sendHeader_adds ho hc hl
      (s.onHeaders fun o => { o with status := if o.status = 0 then 200 else o.status }) h
      a.headHeader (hhead hm))
    split
    · exact hsent
    · exact hsent.trans (sendBody_adds ho hc hl _ h done a hheader hbody)
  · rw [if_neg hm]
    exact (adds_of_eq rfl).trans (sendBody_adds ho hc hl _ h done a hheader hbody)

/-- A reply adds what its filters do. -/
theorem Replies.adds {s : Service} {m : Method} {h : Handler} {done : Int} {a : OutputAnswers}
    {r : Int × Service} (hr : s.Replies m h done a r)
    (hf : ∀ code ∈ a.filters m, code.fails = true →
      ∀ p entry exit, P (.left (.create p) entry exit)) : Adds P s r.2 := by
  have hfin := finishPhase_adds ho s
  cases hr with
  | stays rc => exact .refl s
  | settles go output =>
    cases output with
    | silent rc => exact hfin
    | sends => exact (hfin.trans (blank_adds _)).trans (sendOutput_adds ho hc hl _ m h done a hf)

/-- An inline handler adds what its script and its filters do. -/
theorem inlineHandler_adds (s : Service) (m : Method) (phase : Phase) (a : CallAnswers)
    (hf : ∀ code ∈ a.code :: a.output.filters m, code.fails = true →
      ∀ p entry exit, P (.left (.create p) entry exit)) :
    Adds P s (s.inlineHandler m phase a).2 := by
  have hcode := hf a.code List.mem_cons_self
  have hfilters := fun code h => hf code (List.mem_cons_of_mem _ h)
  have hhandle : ∀ t : Service, Adds P t (t.handleInline m phase a).2 := fun t => by
    unfold handleInline
    split
    · exact tryBody_adds t a.readBody
    · split
      · exact (inlineRoutine_adds ho hc hl t phase a.code hcode).trans
          ((inlineAnswer_cases _ m a.output phase).adds ho hc hl hfilters)
      · exact (t.inlineAnswer_cases m a.output phase).adds ho hc hl hfilters
  unfold inlineHandler
  dsimp only
  split
  · exact (adds_of_eq rfl).trans (hhandle _)
  · exact (adds_of_eq rfl).trans (hhandle _)

/-- A file handler adds what its filters do. -/
theorem fileHandler_adds (s : Service) (m : Method) (phase : Phase) (a : CallAnswers)
    (hf : ∀ code ∈ a.output.filters m, code.fails = true →
      ∀ p entry exit, P (.left (.create p) entry exit)) :
    Adds P s (s.fileHandler m phase a).2 := by
  have hhandle : ∀ t : Service, Adds P t (t.handleFile m phase a).2 := fun t => by
    unfold handleFile
    split
    · exact (fileRoutine_adds t phase a.deeds a.bailout).trans
        ((fileAnswer_cases _ m a.output phase).adds ho hc hl hf)
    · exact (t.fileAnswer_cases m a.output phase).adds ho hc hl hf
  unfold fileHandler
  split
  next hp =>
    subst hp
    unfold contentFileHandler
    dsimp only
    split
    · exact (adds_of_eq rfl).trans (tryBody_adds _ a.readBody)
    · exact (adds_of_eq rfl).trans (hhandle _)
  · exact (adds_of_eq rfl).trans (hhandle _)

/-- A handler that evaluates its code adds what its filters do. -/
theorem evalHandler_adds (s : Service) (m : Method) (h : Handler) (a : CallAnswers)
    (hf : ∀ code ∈ a.output.filters m, code.fails = true →
      ∀ p entry exit, P (.left (.create p) entry exit)) :
    Adds P s (s.evalHandler m h a).2 := by
  unfold evalHandler
  dsimp only
  refine Adds.trans ?_ (sendOutput_adds ho hc hl _ m h 0 a.output hf)
  refine Adds.trans ?_ (blank_adds _)
  exact (adds_of_eq rfl).trans (evaluate_adds _ a.deeds a.bailout)

/-- The header of a response that nginx makes adds what the filter does. -/
theorem passHeader_adds (s : Service) (headersOut : HeadersOut) (a : HeaderAnswer)
    (hf : ∀ code ∈ a.filter, code.fails = true → ∀ p entry exit, P (.left (.create p) entry exit)) :
    Adds P s (s.passHeader headersOut a) := by
  have hrun := filter_adds ho hc hl { s with headersOut } (p := .ngxHeaderFilter) (by decide) hf
  unfold passHeader
  exact Adds.trans (adds_of_eq rfl) (hrun.trans (adds_of_eq rfl))

/-- What the handlers put down. -/
theorem callHandler_adds (s : Service) (m : Method) (a : CallAnswers) (h : Handler)
    (hf : ∀ code ∈ a.code :: a.output.filters m, code.fails = true →
      ∀ p entry exit, P (.left (.create p) entry exit)) :
    Adds P s (s.callHandler m a h).2 := by
  have hfilters := fun code h => hf code (List.mem_cons_of_mem _ h)
  unfold callHandler
  split
  · exact .refl s
  · cases h with
    | inline phase => exact inlineHandler_adds ho hc hl s m phase a hf
    | file phase => exact fileHandler_adds ho hc hl s m phase a hfilters
    | opcode => exact evalHandler_adds ho hc hl s m .opcode a hfilters
    | stack => exact evalHandler_adds ho hc hl s m .stack a hfilters

end Handlers

/-- A deed does not end the request. -/
theorem act_endOfRequest (s : Service) (d : Deed) :
    ((s.act d).ctx.getD {}).endOfRequest = (s.ctx.getD {}).endOfRequest := by
  cases d with
  | echo b =>
    change ((s.ubWrite b).ctx.getD {}).endOfRequest = _
    unfold ubWrite
    split
    · rfl
    next ctx hctx =>
      split
      · simp [append, count, onHeaders, onCtx, hctx]
      · rfl
  | status n => rfl
  | redirect uri n allocated =>
    change ((s.redirect uri n allocated).ctx.getD {}).endOfRequest = _
    unfold redirect
    split <;> rfl
  | library waits => cases hctx : s.ctx <;> simp [act, setPhaseStatus, onCtx, hctx]

/-- The deeds of a segment do not end the request. -/
theorem acts_endOfRequest (s : Service) (ds : List Deed) :
    ((s.acts ds).ctx.getD {}).endOfRequest = (s.ctx.getD {}).endOfRequest := by
  induction ds generalizing s with
  | nil => rfl
  | cons d ds ih => exact (ih _).trans (s.act_endOfRequest d)

/-- Entering a closure leaves the ctx alone. -/
theorem ctx_enterClosure (s : Service) : s.enterClosure.ctx = s.ctx := by
  unfold enterClosure
  split <;> rfl

/-- The resume returns from within its `zend_try`. -/
def leavesTry (s : Service) (seg : Segment) : Bool :=
  s.ctx.isSome && (s.closure.isNone ||
    match seg.stop with
    | .bailout _ => false
    | .failure => true
    | _ => (s.ctx.getD {}).endOfRequest)

/-- What `ngx_http_php_zend_uthread_resume` puts down. -/
theorem resume_adds (s : Service) (seg : Segment)
    (hg : ∀ o : Occurrence, o.ofGenerator = true → P o)
    (hl : ∀ entry, P (.left .resume entry entry))
    (hf : s.leavesTry seg = true → ∀ entry exit, P (.left .resume entry exit)) :
    Adds P s (s.resume seg).1 := by
  unfold resume
  split
  · exact s.note_adds (hl _)
  next hc =>
    rw [Bool.not_eq_true, Option.isNone_eq_false_iff] at hc
    split
    next hz => exact adds_cons rfl (hf (by simp [leavesTry, hc, hz]) _ _)
    · have hacts : Adds P s (s.zendTry.enterClosure.acts seg.deeds) :=
        ((adds_of_eq rfl).trans (enterClosure_adds hg s.zendTry)).trans (acts_adds _ _)
      refine hacts.trans (resumeNext_adds hg _ _ _ (hl _) fun h => hf ?_ _ _)
      have hend : ((s.zendTry.enterClosure.acts seg.deeds).ctx.getD {}).endOfRequest =
          (s.ctx.getD {}).endOfRequest := by
        rw [acts_endOfRequest, ctx_enterClosure]
        rfl
      rw [hend] at h
      rcases h with hstop | ⟨hstop, he⟩
      · simp [leavesTry, hc, hstop]
      · cases hseg : seg.stop with
        | bailout b => exact absurd hseg (hstop b)
        | _ => simp [leavesTry, hc, hseg, he]

end Service

namespace Passage

variable {P : Occurrence → Prop}

/-- The checker of a phase adds that a handler has returned and a request been finalized. -/
theorem check_adds (s : Passage) (h : Handler) (rc : Int) (hreturned : P (.returned h rc))
    (hfinalized : P (.finalized rc)) : Service.Adds P s.service (s.check h rc).service := by
  have hnote := s.service.note_adds hreturned
  unfold check
  dsimp only
  split
  · exact hnote
  · split
    · exact hnote
    · exact hnote.trans (Service.note_adds _ hfinalized)

/-- What the steps of a request put down that call no handler, but for the log phase. -/
theorem perform_adds_of_ne_call (s : Passage) {l : PassageStep} (hcall : ∀ a, l ≠ .call a)
    (hg : ∀ o : Occurrence, o.ofGenerator = true → P o) (hreturned : ∀ h rc, P (.returned h rc))
    (hfinalized : ∀ rc, P (.finalized rc)) (hl : ∀ entry, P (.left .resume entry entry))
    (hresume : ∀ seg, l = .resume seg → s.service.leavesTry seg = true →
      ∀ entry exit, P (.left .resume entry exit))
    (hheader : ∀ headersOut a, l = .passHeader headersOut a →
      Service.Adds P s.service (s.service.passHeader headersOut a))
    (hbody : ∀ filter, l = .passOutput filter →
      Service.Adds P s.service (s.service.passOutput filter))
    (hlog : ∀ code, l = .log code →
      Service.Adds P s.service (s.service.logInlineHandler code)) :
    Service.Adds P s.service (s.perform l).service := by
  cases l with
  | call a => exact absurd rfl (hcall a)
  | outerReturns =>
    unfold perform
    dsimp only
    split
    next h outer _ =>
      exact check_adds { s with outer } h Rc.ok.toInt (hreturned h _) (hfinalized _)
    next => exact .refl _
  | resumeReturns =>
    unfold perform
    dsimp only
    split
    next entry _ => exact adds_cons rfl (hl entry)
    next => exact .refl _
  | resume seg =>
    have hadds := s.service.resume_adds seg hg hl (hresume seg rfl)
    change Service.Adds P s.service (s.resumeScript seg).service
    unfold resumeScript
    split
    next t ht =>
      rw [ht] at hadds
      exact hadds
    next t ht =>
      rw [ht] at hadds
      exact hadds
  | bodyRead data => exact Service.tryBody_adds s.service (.done data)
  | passHeader headersOut a => exact hheader headersOut a rfl
  | passOutput filter => exact hbody filter rfl
  | log code => exact hlog code rfl
  | _ => exact adds_of_eq rfl

/-- What the steps of a request put down, but for the log phase. -/
theorem perform_adds (s : Passage) (l : PassageStep)
    (ho : ∀ o : Occurrence, o.ofUthread = false → P o)
    (hc : ∀ p, p ≠ .ngxLog → P (.called p)) (hl : ∀ fn entry, P (.left fn entry entry))
    (hcall : ∀ a, l = .call a → ∀ code ∈ a.code :: a.output.filters s.method,
      code.fails = true → ∀ p entry exit, P (.left (.create p) entry exit))
    (hresume : ∀ seg, l = .resume seg → s.service.leavesTry seg = true →
      ∀ entry exit, P (.left .resume entry exit))
    (hfilter : ∀ code ∈ l.filter, code.fails = true → ∀ p entry exit,
      P (.left (.create p) entry exit))
    (hlog : ∀ code, l = .log code →
      Service.Adds P s.service (s.service.logInlineHandler code)) :
    Service.Adds P s.service (s.perform l).service := by
  by_cases hne : ∀ a, l ≠ .call a
  · refine s.perform_adds_of_ne_call hne (fun o h => ho o (o.ofUthread_of_ofGenerator h))
      (fun h rc => ho (.returned h rc) rfl) (fun rc => ho (.finalized rc) rfl) (hl .resume) hresume
      ?_ ?_ hlog
    · rintro headersOut a rfl
      exact Service.passHeader_adds ho hc hl s.service headersOut a hfilter
    · rintro filter rfl
      exact Service.filter_adds ho hc hl s.service (by decide) hfilter
  · rw [not_forall_not] at hne
    obtain ⟨a, rfl⟩ := hne
    unfold perform
    dsimp only
    split
    next h rest _ =>
      have hadds := s.service.callHandler_adds ho hc hl s.method a h (hcall a rfl)
      unfold call
      split
      next t ht =>
        rw [ht] at hadds
        exact hadds
      next rc t ht =>
        rw [ht] at hadds
        exact hadds.trans (check_adds { s with
          service := t
          reading := s.reading || (s.readsBody h && a.readBody = ReadBody.again) } h rc
          (ho (.returned h rc) rfl) (ho (.finalized rc) rfl))
    next => exact .refl _

end Passage

end NgxPhp
