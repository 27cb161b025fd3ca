import NgxPhp.Serve.Response

/-!
# What a script says about the status

`ngx_exit`, `ngx_status` and `ngx_redirect` set the status of the request, in the
executor globals or in the headers, and the phase status tells whether the script
waits. These few values follow the things that the script does, whatever becomes of
closures, buffers and generators meanwhile.
-/

open Ledger

namespace NgxPhp

/-- The status and the `Location` headers of a response. -/
structure StatusLine where
  status : Int
  locations : List Bytes
  deriving DecidableEq, Repr

/-- The values that decide how a request is answered. -/
structure Verdict where
  exitStatus : Int
  /-- `headers_out.status`. -/
  status : Int
  locations : List Bytes
  phaseStatus : Rc
  endOfRequest : Bool
  readRequestBodyDone : Bool
  deriving DecidableEq, Repr

namespace Verdict

/-- One thing that a script does. -/
def act (v : Verdict) : Deed → Verdict
  | .echo _ => v
  | .status n => { v with exitStatus := n, status := n }
  | .redirect uri n allocated =>
    if Executor.isRedirect n && allocated then
      { v with exitStatus := n, status := n, locations := uri :: v.locations }
    else v
  | .library waits => { v with phaseStatus := if waits then .again else .ok }

def acts (v : Verdict) (ds : List Deed) : Verdict := ds.foldl act v

def bail (v : Verdict) : Bailout → Verdict
  | .exit n => { v with exitStatus := n }
  | .error (some n) => { v with exitStatus := n }
  | .error none => v

/-- Where a script stops. -/
def stop (v : Verdict) : Stopped → Verdict
  | .valid => { v with phaseStatus := .again }
  | .ended => { v with phaseStatus := .ok }
  | .failure => v
  | .bailout b => v.bail b

def segment (v : Verdict) (seg : Segment) : Verdict := (v.acts seg.deeds).stop seg.stop

def result (v : Verdict) : CallResult → Verdict
  | .value => v
  | .bailout b => v.bail b
  | .generator first => v.segment first
  | .object first => v.segment first

/-- The start of a script. -/
def code (v : Verdict) : Code → Verdict
  | .compiled (.run deeds result) => (v.acts deeds).result result
  | .compiled .missing => v
  | .failed b => v.bail b

/-- A filter of the module, if there is one. -/
def filter (v : Verdict) (filter : Option Code) : Verdict := filter.elim v v.code

/-- The deeds of two segments follow each other. -/
theorem acts_append (v : Verdict) (ds es : List Deed) : v.acts (ds ++ es) = (v.acts ds).acts es :=
  List.foldl_append

/-- What a script does leaves the rest of the ctx alone. -/
theorem acts_frame (v : Verdict) (ds : List Deed) :
    (v.acts ds).endOfRequest = v.endOfRequest ∧
      (v.acts ds).readRequestBodyDone = v.readRequestBodyDone := by
  refine List.foldlRecOn ds act (motive := fun w => w.endOfRequest = v.endOfRequest ∧
    w.readRequestBodyDone = v.readRequestBodyDone) ⟨rfl, rfl⟩ fun w hw d _ => ?_
  cases d with
  | redirect uri n allocated =>
    dsimp only [act]
    split <;> exact hw
  | _ => exact hw

/-- A bailout decides nothing but the status of the exit. -/
theorem bail_frame (v : Verdict) (b : Bailout) :
    (v.bail b).status = v.status ∧ (v.bail b).locations = v.locations ∧
      (v.bail b).phaseStatus = v.phaseStatus ∧ (v.bail b).endOfRequest = v.endOfRequest ∧
      (v.bail b).readRequestBodyDone = v.readRequestBodyDone := by
  cases b with
  | exit n => exact ⟨rfl, rfl, rfl, rfl, rfl⟩
  | error n => cases n <;> exact ⟨rfl, rfl, rfl, rfl, rfl⟩

/-- A segment decides neither the end of the request nor whether its body is read. -/
theorem segment_frame (v : Verdict) (seg : Segment) :
    (v.segment seg).endOfRequest = v.endOfRequest ∧
      (v.segment seg).readRequestBodyDone = v.readRequestBodyDone := by
  have hacts := v.acts_frame seg.deeds
  unfold segment stop
  split
  · exact hacts
  · exact hacts
  · exact hacts
  next b _ =>
    have hbail := (v.acts seg.deeds).bail_frame b
    exact ⟨hbail.2.2.2.1.trans hacts.1, hbail.2.2.2.2.trans hacts.2⟩

/-- A script decides neither the end of the request nor whether its body is read. -/
theorem code_frame (v : Verdict) (c : Code) :
    (v.code c).endOfRequest = v.endOfRequest ∧
      (v.code c).readRequestBodyDone = v.readRequestBodyDone := by
  cases c with
  | failed b => exact (v.bail_frame b).2.2.2
  | compiled f =>
    cases f with
    | missing => exact ⟨rfl, rfl⟩
    | run deeds result =>
      have hacts := v.acts_frame deeds
      have hsegment := fun first => (v.acts deeds).segment_frame first
      cases result with
      | value => exact hacts
      | bailout b =>
        have hbail := ((v.acts deeds).bail_frame b).2.2.2
        exact ⟨hbail.1.trans hacts.1, hbail.2.trans hacts.2⟩
      | generator first =>
        exact ⟨(hsegment first).1.trans hacts.1, (hsegment first).2.trans hacts.2⟩
      | object first =>
        exact ⟨(hsegment first).1.trans hacts.1, (hsegment first).2.trans hacts.2⟩

/-- What the header is made of. -/
def statusLine (v : Verdict) : StatusLine := ⟨v.status, v.locations⟩

/-- A deed does the same to two verdicts with one status line. -/
theorem act_statusLine {v w : Verdict} (h : v.statusLine = w.statusLine) (d : Deed) :
    (v.act d).statusLine = (w.act d).statusLine := by
  have hloc : v.locations = w.locations := congrArg StatusLine.locations h
  cases d with
  | echo b => exact h
  | status n => simp [act, statusLine, hloc]
  | redirect uri n allocated =>
    dsimp only [act]
    split
    · simp [statusLine, hloc]
    · exact h
  | library waits => exact h

/-- The deeds of a segment do the same to two verdicts with one status line. -/
theorem acts_statusLine {v w : Verdict} (h : v.statusLine = w.statusLine) (ds : List Deed) :
    (v.acts ds).statusLine = (w.acts ds).statusLine := by
  induction ds generalizing v w with
  | nil => exact h
  | cons d ds ih => exact ih (act_statusLine h d)

/-- A bailout leaves the status line alone. -/
@[simp] theorem bail_statusLine (v : Verdict) (b : Bailout) :
    (v.bail b).statusLine = v.statusLine := by
  have hbail := v.bail_frame b
  rw [statusLine, statusLine, hbail.1, hbail.2.1]

/-- The status line is what the deeds of a segment say. -/
@[simp] theorem segment_statusLine (v : Verdict) (seg : Segment) :
    (v.segment seg).statusLine = (v.acts seg.deeds).statusLine := by
  unfold segment stop
  split
  · rfl
  · rfl
  · rfl
  · exact bail_statusLine _ _

/-- Nothing but the header goes into the header. -/
theorem filter_statusLine {v w : Verdict} (h : v.statusLine = w.statusLine)
    (filter : Option Code) : (v.filter filter).statusLine = (w.filter filter).statusLine := by
  cases filter with
  | none => exact h
  | some c =>
    change (v.code c).statusLine = (w.code c).statusLine
    cases c with
    | failed b => simpa [code] using h
    | compiled f =>
      cases f with
      | missing => exact h
      | run deeds result =>
        have hacts := acts_statusLine h deeds
        cases result with
        | value => exact hacts
        | bailout b => simpa [code, result] using hacts
        | generator first => simpa [code, result] using acts_statusLine hacts first.deeds
        | object first => simpa [code, result] using acts_statusLine hacts first.deeds

end Verdict

namespace Service

variable {s t u : Service}

/-- The values of a request. -/
def verdict (s : Service) : Verdict where
  exitStatus := s.exitStatus
  status := s.headersOut.status
  locations := s.headersOut.locations
  phaseStatus := s.phaseStatus
  endOfRequest := (s.ctx.getD {}).endOfRequest
  readRequestBodyDone := (s.ctx.getD {}).readRequestBodyDone

/-! ## Closures and targets of bailouts -/

/-- The verdict is read off three fields. -/
theorem verdict_of_eq (he : t.exitStatus = s.exitStatus) (hc : t.ctx = s.ctx)
    (hh : t.headersOut = s.headersOut) : t.verdict = s.verdict := by
  simp only [verdict, phaseStatus, he, hc, hh]

/-- A change of the ctx that leaves these three fields alone leaves the verdict alone. -/
theorem verdict_onCtx (s : Service) {f : PhpCtx → PhpCtx}
    (hp : ∀ ctx, (f ctx).phaseStatus = ctx.phaseStatus)
    (he : ∀ ctx, (f ctx).endOfRequest = ctx.endOfRequest)
    (hb : ∀ ctx, (f ctx).readRequestBodyDone = ctx.readRequestBodyDone) :
    (s.onCtx f).verdict = s.verdict := by
  cases hc : s.ctx with
  | none => simp [verdict, phaseStatus, onCtx, hc]
  | some ctx => simp [verdict, phaseStatus, onCtx, hc, hp, he, hb]

@[simp] theorem verdict_note (s : Service) (o : Occurrence) : (s.note o).verdict = s.verdict := rfl

@[simp] theorem verdict_leave (s : Service) (fn : UthreadFn) (entry : Option JmpBuf) :
    (s.leave fn entry).verdict = s.verdict := rfl

@[simp] theorem verdict_zendTry (s : Service) : s.zendTry.verdict = s.verdict := rfl

@[simp] theorem verdict_zendEndTry (s : Service) (orig : Option JmpBuf) :
    (s.zendEndTry orig).verdict = s.verdict := rfl

@[simp] theorem verdict_setClosure (s : Service) (z : Option Zval) :
    (s.setClosure z).verdict = s.verdict :=
  s.verdict_onCtx (fun _ => rfl) (fun _ => rfl) fun _ => rfl

@[simp] theorem verdict_dtorClosure (s : Service) : s.dtorClosure.verdict = s.verdict := by
  unfold dtorClosure
  split <;> rfl

@[simp] theorem verdict_enterClosure (s : Service) : s.enterClosure.verdict = s.verdict := by
  unfold enterClosure
  split <;> rfl

@[simp] theorem verdict_freeClosure (s : Service) : s.freeClosure.verdict = s.verdict := by
  simp [freeClosure]

@[simp] theorem verdict_newClosure (s : Service) : s.newClosure.verdict = s.verdict := by
  unfold newClosure
  split <;> simp

@[simp] theorem verdict_storeGenerator (s : Service) :
    s.storeGenerator.verdict = s.verdict :=
  (verdict_of_eq rfl rfl rfl).trans (s.verdict_setClosure (some (.generator s.generators)))

/-- With a ctx a phase status becomes part of the verdict. -/
theorem verdict_setPhaseStatus (s : Service) (rc : Rc) (hc : s.ctx.isSome = true) :
    (s.setPhaseStatus rc).verdict = { s.verdict with phaseStatus := rc } := by
  obtain ⟨ctx, hctx⟩ := Option.isSome_iff_exists.mp hc
  simp [verdict, phaseStatus, setPhaseStatus, onCtx, hctx]

/-! ## Scripts -/

/-- With a ctx a deed is one of the verdict. -/
theorem verdict_act (s : Service) (d : Deed) (hc : s.ctx.isSome = true) :
    (s.act d).verdict = s.verdict.act d := by
  cases d with
  | echo b =>
    change (s.ubWrite b).verdict = s.verdict
    unfold ubWrite
    split
    · rfl
    · split
      · have hkeep := s.verdict_onCtx
          (f := fun ctx => { ctx with rputsChain := ctx.rputsChain ++ [⟨b, false⟩] })
          (fun _ => rfl) (fun _ => rfl) fun _ => rfl
        exact hkeep
      · rfl
  | status n => rfl
  | redirect uri n allocated =>
    change (s.redirect uri n allocated).verdict = _
    dsimp only [redirect, Verdict.act]
    rw [hc, Bool.and_true]
    split <;> rfl
  | library waits => exact s.verdict_setPhaseStatus _ hc

/-- With a ctx the deeds of a segment are those of the verdict. -/
theorem verdict_acts (s : Service) (ds : List Deed) (hc : s.ctx.isSome = true) :
    (s.acts ds).verdict = s.verdict.acts ds := by
  induction ds generalizing s with
  | nil => rfl
  | cons d ds ih =>
    change ((s.act d).acts ds).verdict = (s.verdict.act d).acts ds
    rw [ih _ ((s.act_prints d).ctx.trans hc), verdict_act s d hc]

/-- A bailout of the request is one of the verdict. -/
theorem verdict_bail (s : Service) (b : Bailout) : (s.bail b).verdict = s.verdict.bail b := by
  cases b with
  | exit n => rfl
  | error n => cases n <;> rfl

/-- A bailout that is caught is one of the verdict. -/
@[simp] theorem verdict_caught (s : Service) (fn : UthreadFn) (entry : Option JmpBuf)
    (b : Bailout) : (s.caught fn entry b).verdict = s.verdict.bail b := by
  simp [caught, verdict_bail]

/-- The first go of a generator. -/
theorem verdict_createValid (s : Service) (p : FuncPrefix) (entry : Option JmpBuf)
    (first : Segment) (hc : s.ctx.isSome = true) :
    (s.createValid p entry first).verdict = s.verdict.segment first := by
  have hctx : s.enterClosure.ctx.isSome = true := s.enterClosure_prints.ctx.trans hc
  have hacts : (s.enterClosure.acts first.deeds).verdict = s.verdict.acts first.deeds := by
    rw [verdict_acts _ _ hctx, verdict_enterClosure]
  have hsome : (s.enterClosure.acts first.deeds).ctx.isSome = true :=
    (acts_prints _ _).ctx.trans hctx
  unfold createValid Verdict.segment
  dsimp only
  rw [← hacts]
  cases first.stop with
  | valid => exact verdict_setPhaseStatus _ .again hsome
  | ended => exact verdict_setPhaseStatus _ .ok hsome
  | failure => rfl
  | bailout b => exact verdict_caught _ _ entry b

/-- A return value decides nothing. -/
theorem verdict_createValue (s : Service) (p : FuncPrefix) (entry : Option JmpBuf) :
    (s.createValue p entry).verdict = s.verdict := by
  simp [createValue]

/-- With a ctx the start of a script is one of the verdict. -/
theorem verdict_create (s : Service) (p : FuncPrefix) (f : ScriptFn) (hc : s.ctx.isSome = true) :
    (s.create p f).verdict = s.verdict.code (.compiled f) := by
  have hsome : s.newClosure.zendTry.ctx.isSome = true := s.newClosure_prints.ctx.trans hc
  have hstart : s.newClosure.zendTry.verdict = s.verdict := by simp
  unfold create
  rw [if_neg (by simp [Option.isSome_iff_ne_none.mp hc])]
  rw [← hstart]
  generalize s.newClosure.zendTry = t at hsome
  cases f with
  | missing => exact t.verdict_createValue p _
  | run deeds result =>
    have hacts : ((t.note (.called p)).acts deeds).verdict = t.verdict.acts deeds :=
      verdict_acts _ deeds hsome
    have hctx : ((t.note (.called p)).acts deeds).ctx.isSome = true :=
      (acts_prints _ deeds).ctx.trans hsome
    unfold createCall Verdict.code Verdict.result
    dsimp only
    rw [← hacts]
    cases result with
    | value => exact verdict_createValue _ p _
    | bailout b => exact verdict_caught _ _ _ b
    | generator first =>
      dsimp only
      rw [verdict_createValid _ p _ first ((storeGenerator_prints _).ctx.trans hctx),
        verdict_storeGenerator]
    | object first =>
      dsimp only
      rw [verdict_createValid _ p _ first ((setClosure_prints _ _).ctx.trans hctx),
        verdict_setClosure]

/-- A routine leaves what the code says. -/
theorem verdict_routine (s : Service) (p : FuncPrefix) (code : Code) (hc : s.ctx.isSome = true) :
    (s.routine p code).verdict = s.verdict.code code := by
  cases code with
  | compiled f => exact verdict_create ({ s with bailout := none } : Service).zendTry p f hc
  | failed b => exact verdict_bail ({ s with bailout := none } : Service).zendTry b

/-- With a ctx a filter is one of the verdict. -/
theorem verdict_filter (s : Service) (p : FuncPrefix) (filter : Option Code)
    (hc : s.ctx.isSome = true) :
    (filter.elim s fun code => s.routine p code).verdict = s.verdict.filter filter := by
  cases filter with
  | none => rfl
  | some code => exact s.verdict_routine p code hc

end Service

end NgxPhp
