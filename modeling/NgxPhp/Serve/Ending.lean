import NgxPhp.Serve.Answer

/-!
# How a script ends

A script is started by the handler of its phase. It ends there, or waits, and then
events resume it until it ends or nothing resumes it any more. Only an end by its
last statement brings a resumed script back to its handler: `zend_bailout` leaves
the request without a closure and without an answer.
-/

open Ledger

namespace NgxPhp

/-- Where the first go of a script stops. -/
def CallResult.stop : CallResult → Stopped
  | .value => .ended
  | .bailout b => .bailout b
  | .generator first => first.stop
  | .object first => first.stop

def CallResult.deeds : CallResult → List Deed
  | .generator first => first.deeds
  | .object first => first.deeds
  | _ => []

/-- The script is suspended between its segments and stops for good behind the last one. -/
def EndsWith (result : CallResult) (more : List Segment) (stop : Stopped) : Prop :=
  stop ≠ .valid ∧
    result.stop :: more.map (·.stop) = List.replicate more.length .valid ++ [stop]

instance decidableEndsWith (result : CallResult) (more : List Segment) (stop : Stopped) :
    Decidable (EndsWith result more stop) :=
  inferInstanceAs (Decidable (_ ∧ _))

namespace Service

variable {s t u : Service}

/-- Events resume a script until one of the resumes runs the phases. What an event leaves in the
phase status before it resumes the script comes first in the segment. -/
def resumes (s : Service) : List Segment → Service × Bool
  | [] => (s, false)
  | seg :: more =>
    match s.resume seg with
    | (t, true) => (t, true)
    | (t, false) => t.resumes more

/-- A script from the call of its handler on, with the result of the handler that is called last.
Without interference by other requests. -/
def scriptRun (s : Service) (m : Method) (phase : Phase) (a : CallAnswers) (more : List Segment) :
    Option Int × Service :=
  match s.callHandler m a (.inline phase) with
  | (some rc, t) =>
    if rc = Rc.again.toInt then
      match t.resumes more with
      | (u, true) => u.callHandler m a (.inline phase)
      | (u, false) => (some rc, u)
    else (some rc, t)
  | (none, t) => (none, t)

/-- The handler of a phase is about to start its script. -/
structure Begins (s : Service) (m : Method) : Prop where
  declined : s.phaseStatus = .declined
  body : m.hasBody = true → (s.ctx.getD {}).readRequestBodyDone = true
  goesOn : (s.ctx.getD {}).endOfRequest = false
  headerSent : s.headerSent = false
  serialised : s.serialised = []

/-- What the first go of a script says. -/
def started (s : Service) (code : Code) : Verdict :=
  { s.verdict with exitStatus := Rc.declined.toInt, phaseStatus := .ok }.code code

/-- What a script says until its end. -/
def spoken (s : Service) (code : Code) (more : List Segment) : Verdict :=
  more.foldl Verdict.segment (s.started code)

/-- The state in which the handler looks at the phase status. -/
def entered (s : Service) (phase : Phase) : Service :=
  if phase = .content then (s.ensureCtx true).setRequestStatus 0 else s.ensureCtx true

theorem entered_unsent {v : Verdict} (hs : s.Unsent v) (phase : Phase) :
    (s.entered phase).Unsent (if phase = .content then { v with exitStatus := 0 } else v) := by
  have hensure : (s.ensureCtx true).Unsent v := ⟨hs.verdict, rfl, hs.headerSent, hs.serialised⟩
  unfold entered
  split
  · exact ⟨by rw [← hs.verdict]; rfl, rfl, hs.headerSent, hs.serialised⟩
  · exact hensure

theorem entered_chain (s : Service) (phase : Phase) : (s.entered phase).chain = s.chain := by
  unfold entered
  split <;> rfl

theorem entered_prints (s : Service) (phase : Phase) : (s.entered phase).prints = true := by
  unfold entered
  split <;> rfl

/-- Behind the body the handler starts its script or answers. -/
theorem callHandler_inline {m : Method} (hc : s.ctx.isSome = true)
    (hb : m.hasBody = true → (s.ctx.getD {}).readRequestBodyDone = true) (phase : Phase)
    (a : CallAnswers) :
    s.callHandler m a (.inline phase) =
      ((if s.phaseStatus = .declined then (s.entered phase).inlineRoutine phase a.code
        else s.entered phase).inlineAnswer m phase a.output).map some id := by
  have hbody : (m.hasBody && !(s.ctx.getD {}).readRequestBodyDone) = false := by
    cases hm : m.hasBody with
    | false => rfl
    | true => rw [hb hm]; rfl
  have hctx : ((s.entered phase).ctx.getD {}).readRequestBodyDone =
      (s.ctx.getD {}).readRequestBodyDone ∧ (s.entered phase).phaseStatus = s.phaseStatus := by
    unfold entered
    split <;> exact ⟨rfl, rfl⟩
  unfold callHandler
  rw [if_neg (by simp [Option.isSome_iff_ne_none.mp hc])]
  change (s.entered phase).handleInline m phase a = _
  unfold handleInline
  rw [hctx.1, hctx.2, hbody, if_neg Bool.false_ne_true]
  split <;> rfl

/-! ## The first go -/

/-- A generator that is suspended stays in the slot. -/
theorem routine_closure (s : Service) (p : FuncPrefix) (deeds : List Deed) (result : CallResult)
    (hc : s.ctx.isSome = true) (hv : result.stop = .valid) :
    (s.routine p (.compiled (.run deeds result))).closure.isSome = true := by
  have hvalid : ∀ (t : Service) (entry : Option JmpBuf) (first : Segment), first.stop = .valid →
      t.closure.isSome = true → (t.createValid p entry first).closure.isSome = true :=
    fun t entry first hstop hz => by
      have hacts : (t.enterClosure.acts first.deeds).closure = t.closure := by
        rw [(acts_sameClosures _ _).closure, closure, ctx_enterClosure]
        rfl
      unfold createValid
      rw [hstop]
      exact (congrArg Option.isSome (closure_setPhaseStatus _ .again)).trans (hacts ▸ hz)
  have hstart : ({ s with bailout := none } : Service).zendTry.newClosure.zendTry.ctx.isSome =
      true := (newClosure_prints _).ctx.trans hc
  unfold routine
  change (({ s with bailout := none } : Service).zendTry.create p
    (.run deeds result)).closure.isSome = true
  unfold create
  rw [if_neg (by
    change ¬ s.ctx.isNone = true
    simp [Option.isSome_iff_ne_none.mp hc])]
  generalize ({ s with bailout := none } : Service).zendTry.newClosure.zendTry = t at hstart
  have hacts : ((t.note (.called p)).acts deeds).ctx.isSome = true :=
    (acts_prints _ deeds).ctx.trans hstart
  unfold createCall
  cases result with
  | value => cases hv
  | bailout b => cases hv
  | generator first =>
    have hstore : ((t.note (.called p)).acts deeds).storeGenerator.closure =
        some (.generator ((t.note (.called p)).acts deeds).generators) :=
      closure_setClosure _ _ hacts
    exact hvalid _ _ first hv (congrArg Option.isSome hstore)
  | object first =>
    exact hvalid _ _ first hv (congrArg Option.isSome (closure_setClosure _ _ hacts))

/-- Where the first go has led. -/
theorem started_unsent {m : Method} (hs : s.Begins m) (phase : Phase) (code : Code) :
    ((s.entered phase).inlineRoutine phase code).Unsent (s.started code) ∧
      ((s.entered phase).inlineRoutine phase code).chain =
        s.chain ++ code.writes.map fun b => ⟨b, false⟩ := by
  have hprints := (s.entered phase).inlineRoutine_prints phase code
  rw [printed, if_pos (s.entered_prints phase)] at hprints
  have hquiet := (s.entered phase).inlineRoutine_quiet phase code
  have henter : (s.entered phase).Unsent (s.entered phase).verdict := by
    unfold entered
    split <;> exact ⟨rfl, rfl, hs.headerSent, hs.serialised⟩
  refine ⟨henter.after hprints hquiet ?_, ?_⟩
  · have hok := (s.entered phase).verdict_setPhaseStatus .ok henter.ctx
    have hctx := ((s.entered phase).setPhaseStatus_prints .ok).ctx.trans henter.ctx
    have hset : (((s.entered phase).setPhaseStatus .ok).setRequestStatus
        Rc.declined.toInt).verdict =
          { s.verdict with exitStatus := Rc.declined.toInt, phaseStatus := .ok } := by
      change { ((s.entered phase).setPhaseStatus .ok).verdict with
        exitStatus := Rc.declined.toInt } = _
      rw [hok]
      unfold entered
      split <;> rfl
    rw [started, ← hset]
    exact verdict_routine _ _ code hctx
  · rw [hprints.chain, entered_chain]

/-! ## Resumes -/

/-- An event resumes a script that waits. -/
theorem resume_unsent {v : Verdict} (hs : s.Unsent v) (hz : s.closure.isSome = true)
    (hend : v.endOfRequest = false) (seg : Segment) :
    (s.resume seg).1.Unsent (v.segment seg) ∧
      (s.resume seg).2 = decide (seg.stop = .ended) ∧
      (seg.stop = .valid → (s.resume seg).1.closure.isSome = true) := by
  have htry : Prints [] s s.zendTry := prints_of_eq rfl rfl rfl
  have hprints := htry.after (s.zendTry.enterClosure_prints.after (acts_prints _ seg.deeds))
  have hquiet : Quiet s (s.zendTry.enterClosure.acts seg.deeds) :=
    ((adds_of_eq rfl).trans (enterClosure_adds ofSending_of_ofGenerator s.zendTry)).trans
      (acts_adds _ _)
  have hverdict : (s.zendTry.enterClosure.acts seg.deeds).verdict = v.acts seg.deeds := by
    rw [verdict_acts _ _ (s.zendTry.enterClosure_prints.ctx.trans hs.ctx), verdict_enterClosure,
      verdict_zendTry, hs.verdict]
  have hclosure : (s.zendTry.enterClosure.acts seg.deeds).closure = s.closure := by
    rw [(acts_sameClosures _ _).closure, closure, ctx_enterClosure]
    rfl
  have hacts := hs.after hprints hquiet hverdict
  have hnot : ¬ ((s.zendTry.enterClosure.acts seg.deeds).ctx.getD {}).endOfRequest = true := by
    have hframe : (s.zendTry.enterClosure.acts seg.deeds).verdict.endOfRequest = false := by
      rw [hverdict, (v.acts_frame seg.deeds).1, hend]
    exact Bool.eq_false_iff.mp hframe
  unfold resume
  rw [if_neg (by simp [Option.isSome_iff_ne_none.mp hs.ctx]),
    if_neg (by simp [Option.isSome_iff_ne_none.mp hz])]
  unfold Verdict.segment
  generalize s.zendTry.enterClosure.acts seg.deeds = t at hacts hnot hclosure
  have hctx : t.enterClosure.ctx.isSome = true := t.enterClosure_prints.ctx.trans hacts.ctx
  have hstatus : ∀ rc, (t.enterClosure.setPhaseStatus rc).Unsent
      { v.acts seg.deeds with phaseStatus := rc } := fun rc =>
    hacts.after (t.enterClosure_prints.trans (setPhaseStatus_prints _ rc))
      ((enterClosure_adds ofSending_of_ofGenerator t).trans (adds_of_eq rfl))
      (by rw [verdict_setPhaseStatus _ _ hctx, verdict_enterClosure, hacts.verdict])
  cases seg.stop with
  | bailout b =>
    refine ⟨hacts.after (t.caught_prints .resume s.bailout b)
      (caught_adds ofSending_of_ofGenerator t .resume s.bailout b rfl) ?_, rfl, Stopped.noConfusion⟩
    exact (t.verdict_caught .resume s.bailout b).trans (congrArg (·.bail b) hacts.verdict)
  | failure =>
    exact ⟨hacts.after (t.note_prints _) (t.note_adds rfl) hacts.verdict, rfl, Stopped.noConfusion⟩
  | valid =>
    dsimp only [resumeNext]
    rw [if_neg hnot]
    refine ⟨(hstatus .again).after (prints_of_eq rfl rfl rfl) (adds_cons rfl rfl) ?_, rfl,
      fun _ => ?_⟩
    · exact (hstatus .again).verdict
    · have hkeep : (t.enterClosure.setPhaseStatus .again).closure = t.closure := by
        rw [closure_setPhaseStatus, closure, ctx_enterClosure]
        rfl
      exact (congrArg Option.isSome (hkeep.trans hclosure)).trans hz
  | ended =>
    dsimp only [resumeNext]
    rw [if_neg hnot]
    refine ⟨(hstatus .ok).after (freeClosure_prints _)
      (freeClosure_adds ofSending_of_ofGenerator _) ?_, rfl, Stopped.noConfusion⟩
    rw [verdict_freeClosure]
    exact (hstatus .ok).verdict

/-- The resumes of a script that stops for good behind the last one. -/
theorem resumes_unsent {v : Verdict} (hs : s.Unsent v) (hz : s.closure.isSome = true)
    (hend : v.endOfRequest = false) (more : List Segment) (hne : more ≠ []) {stop : Stopped}
    (hstop : stop ≠ .valid)
    (hstops : more.map (·.stop) = List.replicate (more.length - 1) .valid ++ [stop]) :
    (s.resumes more).1.Unsent (more.foldl Verdict.segment v) ∧
      (s.resumes more).2 = decide (stop = .ended) := by
  induction more generalizing s v with
  | nil => exact absurd rfl hne
  | cons seg more ih =>
    obtain ⟨hunsent, hruns, hclosure⟩ := resume_unsent hs hz hend seg
    unfold resumes
    generalize s.resume seg = r at hunsent hruns hclosure
    obtain ⟨t, runs⟩ := r
    dsimp only at hunsent hruns hclosure
    cases more with
    | nil =>
      obtain rfl : seg.stop = stop := List.head_eq_of_cons_eq hstops
      subst hruns
      cases hd : decide (seg.stop = .ended) <;> exact ⟨hunsent, rfl⟩
    | cons seg' more =>
      have hrest : seg.stop = .valid ∧ (seg' :: more).map (·.stop) =
          List.replicate ((seg' :: more).length - 1) .valid ++ [stop] := by
        simpa [List.replicate_succ] using hstops
      obtain ⟨hvalid, hstops'⟩ := hrest
      rw [hvalid] at hruns
      obtain rfl : runs = false := hruns
      exact ih hunsent (hclosure hvalid) ((v.segment_frame seg).1.trans hend)
        (List.cons_ne_nil _ _) hstops'

/-! ## The handler that is called last -/

/-- The handler comes to `set_output`: it does not wait behind the first go, or the phases run
again behind the last statement. -/
def ComesToOutput (s : Service) (code : Code) (more : List Segment) (stop : Stopped) : Prop :=
  if more = [] then (s.started code).phaseStatus ≠ .again else stop = .ended

instance decidableComesToOutput (s : Service) (code : Code) (more : List Segment)
    (stop : Stopped) : Decidable (s.ComesToOutput code more stop) := by
  unfold ComesToOutput
  infer_instance

/-- What the handler finds that is called last. The one of the content phase sets the status at
every entry. -/
def found (s : Service) (phase : Phase) (code : Code) (more : List Segment) : Verdict :=
  if phase = .content ∧ more ≠ [] then { s.spoken code more with exitStatus := 0 }
  else s.spoken code more

theorem begins_ctx {m : Method} (hs : s.Begins m) : s.ctx.isSome = true := by
  cases hc : s.ctx with
  | none =>
    have hd := hs.declined
    rw [phaseStatus, hc] at hd
    cases hd
  | some ctx => rfl

/-- The handler starts the script. -/
theorem callHandler_begins {m : Method} (hs : s.Begins m) (phase : Phase) (a : CallAnswers) :
    s.callHandler m a (.inline phase) =
      (((s.entered phase).inlineRoutine phase a.code).inlineAnswer m phase a.output).map
        some id := by
  rw [callHandler_inline (begins_ctx hs) hs.body, if_pos hs.declined]

/-- A handler that waits sends nothing. -/
theorem inlineAnswer_waits {v : Verdict} (hs : s.Unsent v) (hv : v.phaseStatus = .again)
    (m : Method) (phase : Phase) (a : OutputAnswers) :
    s.inlineAnswer m phase a = (Rc.again.toInt, s) := by
  have hwait : s.phaseStatus = .again := (congrArg Verdict.phaseStatus hs.verdict).trans hv
  unfold inlineAnswer
  rw [if_pos hwait]

theorem inlineAnswer_settles {v : Verdict} (hs : s.Unsent v) (hv : v.phaseStatus ≠ .again)
    (m : Method) (phase : Phase) (a : OutputAnswers) :
    s.inlineAnswer m phase a = s.inlineSetOutput m phase a := by
  have hgo : s.phaseStatus ≠ .again :=
    ne_of_eq_of_ne (congrArg Verdict.phaseStatus hs.verdict) hv
  unfold inlineAnswer
  rw [if_neg hgo]

theorem not_responds_again {v : Verdict} (hs : s.Unsent v) (finalize : Int → Option Int)
    (phase : Phase) (line : StatusLine) :
    ¬ Responds finalize phase (some Rc.again.toInt, s) line := by
  rintro ⟨rc, hrc, -, hres⟩
  obtain rfl := Option.some.inj hrc
  rw [response, hs.serialised] at hres
  cases hres

/-- The script is suspended. -/
theorem started_again {deeds : List Deed} {result : CallResult} (hv : result.stop = .valid) :
    (s.started (.compiled (.run deeds result))).phaseStatus = .again := by
  have hsegment : ∀ (v : Verdict) (seg : Segment), seg.stop = .valid →
      (v.segment seg).phaseStatus = .again := fun v seg h => by
    unfold Verdict.segment
    rw [h]
    rfl
  cases result with
  | value => cases hv
  | bailout b => cases hv
  | generator first => exact hsegment _ first hv
  | object first => exact hsegment _ first hv

/-- The script of a suspended handler is resumed. -/
theorem scriptRun_resumed {m : Method} (hs : s.Begins m) (phase : Phase) {a : CallAnswers}
    {deeds : List Deed} {result : CallResult} (hcode : a.code = .compiled (.run deeds result))
    {more : List Segment} (hne : more ≠ []) {stop : Stopped} (hends : EndsWith result more stop) :
    ∃ u : Service, u.Unsent (s.spoken a.code more) ∧
      s.scriptRun m phase a more =
        if stop = .ended then u.callHandler m a (.inline phase) else (some Rc.again.toInt, u) := by
  obtain ⟨seg, rest, rfl⟩ := List.exists_cons_of_ne_nil hne
  obtain ⟨hstop, hstops⟩ := hends
  have hsplit : result.stop = .valid ∧ (seg :: rest).map (·.stop) =
      List.replicate ((seg :: rest).length - 1) .valid ++ [stop] := by
    simpa [List.replicate_succ] using hstops
  obtain ⟨hvalid, hrest⟩ := hsplit
  obtain ⟨hunsent, -⟩ := started_unsent hs phase a.code
  have hctx : ((s.entered phase).setPhaseStatus .ok).ctx.isSome = true := by
    unfold entered
    split <;> rfl
  have hclosure : ((s.entered phase).inlineRoutine phase a.code).closure.isSome = true := by
    rw [hcode]
    exact routine_closure _ phase.prefixOf deeds result hctx hvalid
  have hagain : (s.started a.code).phaseStatus = .again := hcode ▸ started_again hvalid
  have hend : (s.started a.code).endOfRequest = false :=
    (Verdict.code_frame _ a.code).1.trans hs.goesOn
  obtain ⟨hu, hruns⟩ := resumes_unsent hunsent hclosure hend (seg :: rest) hne hstop hrest
  refine ⟨_, hu, ?_⟩
  unfold scriptRun
  rw [callHandler_begins hs, inlineAnswer_waits hunsent hagain]
  change (if Rc.again.toInt = Rc.again.toInt then _ else _) = _
  rw [if_pos rfl, id_eq]
  generalize ((s.entered phase).inlineRoutine phase a.code).resumes (seg :: rest) = r at hruns
  obtain ⟨u, runs⟩ := r
  obtain rfl : runs = decide (stop = .ended) := hruns
  by_cases hlast : stop = .ended
  · rw [if_pos hlast, decide_eq_true hlast]
  · rw [if_neg hlast, decide_eq_false hlast]

/-- Where the handler does not come to `set_output` nobody answers the request. -/
theorem scriptRun_waits {m : Method} (hs : s.Begins m) (phase : Phase) {a : CallAnswers}
    {deeds : List Deed} {result : CallResult} (hcode : a.code = .compiled (.run deeds result))
    {more : List Segment} {stop : Stopped} (hends : EndsWith result more stop)
    (hno : ¬ s.ComesToOutput a.code more stop) (finalize : Int → Option Int) (line : StatusLine) :
    ¬ Responds finalize phase (s.scriptRun m phase a more) line := by
  unfold ComesToOutput at hno
  by_cases hne : more = []
  · subst hne
    rw [if_pos rfl, not_not] at hno
    obtain ⟨hunsent, -⟩ := started_unsent hs phase a.code
    unfold scriptRun
    rw [callHandler_begins hs, inlineAnswer_waits hunsent hno]
    exact not_responds_again hunsent finalize phase line
  · rw [if_neg hne] at hno
    obtain ⟨u, hu, hrun⟩ := scriptRun_resumed hs phase hcode hne hends
    rw [hrun, if_neg hno]
    exact not_responds_again hu finalize phase line

/-- A script that ends by its last statement does not wait. -/
theorem spoken_ended (s : Service) (code : Code) {more : List Segment} (hne : more ≠ [])
    {stop : Stopped} {result : CallResult}
    (hstops : result.stop :: more.map (·.stop) = List.replicate more.length .valid ++ [stop])
    (hended : stop = .ended) : (s.spoken code more).phaseStatus = .ok := by
  obtain ⟨front, seg, rfl⟩ := (List.eq_nil_or_concat more).resolve_left hne
  have hlast : seg.stop = stop := by
    have hget := congrArg List.getLast? hstops
    rw [List.concat_eq_append, List.map_append, ← List.cons_append, List.getLast?_append,
      List.getLast?_concat] at hget
    exact Option.some.inj hget
  rw [spoken, List.concat_eq_append, List.foldl_append, List.foldl_cons, List.foldl_nil,
    Verdict.segment, hlast, hended]
  rfl

theorem spoken_frame (s : Service) (code : Code) (more : List Segment) :
    (s.spoken code more).readRequestBodyDone = s.verdict.readRequestBodyDone := by
  have hstart : (s.started code).readRequestBodyDone = s.verdict.readRequestBodyDone :=
    (Verdict.code_frame _ code).2
  exact List.foldlRecOn more Verdict.segment
    (motive := fun v => v.readRequestBodyDone = s.verdict.readRequestBodyDone) hstart
    fun v hv seg _ => (v.segment_frame seg).2.trans hv

/-- Where it does, the request is answered as its handler finds the script's verdict. -/
theorem scriptRun_responds {m : Method} (hs : s.Begins m) (phase : Phase) {a : CallAnswers}
    {deeds : List Deed} {result : CallResult} (hcode : a.code = .compiled (.run deeds result))
    {more : List Segment} {stop : Stopped} (hends : EndsWith result more stop)
    (hcomes : s.ComesToOutput a.code more stop) (ha : a.output.Accepted)
    (hexit : 0 ≤ (s.found phase a.code more).exitStatus) (finalize : Int → Option Int) :
    ∃ printed : Bool,
      (more = [] → printed = !(s.chain.isEmpty && a.code.writes.isEmpty)) ∧
      ∀ line, Responds finalize phase (s.scriptRun m phase a more) line ↔
        (s.found phase a.code more).answer finalize m a.output printed phase = some line := by
  unfold ComesToOutput at hcomes
  by_cases hne : more = []
  · subst hne
    rw [if_pos rfl] at hcomes
    have hfound : s.found phase a.code [] = s.started a.code := if_neg fun h => h.2 rfl
    rw [hfound] at hexit ⊢
    obtain ⟨hunsent, hchain⟩ := started_unsent hs phase a.code
    refine ⟨_, fun _ => rfl, fun line => ?_⟩
    have hrun : s.scriptRun m phase a [] =
        (((s.entered phase).inlineRoutine phase a.code).inlineSetOutput m phase a.output).map
          some id := by
      unfold scriptRun
      rw [callHandler_begins hs, inlineAnswer_settles hunsent hcomes]
      generalize ((s.entered phase).inlineRoutine phase a.code).inlineSetOutput m phase a.output = r
      obtain ⟨rc, t⟩ := r
      change (if rc = Rc.again.toInt then (some rc, t) else (some rc, t)) = _
      rw [ite_self]
      rfl
    have hprinted : ((s.entered phase).inlineRoutine phase a.code).chain.isEmpty =
        (s.chain.isEmpty && a.code.writes.isEmpty) := by
      rw [hchain]
      cases s.chain <;> cases a.code.writes <;> rfl
    rw [hrun, inlineSetOutput_responds hunsent hexit finalize m phase ha line, hprinted]
  · rw [if_neg hne] at hcomes
    obtain ⟨u, hu, hrun⟩ := scriptRun_resumed hs phase hcode hne hends
    have hok : (s.spoken a.code more).phaseStatus = .ok :=
      spoken_ended s a.code hne hends.2 hcomes
    have hbody : m.hasBody = true → (u.ctx.getD {}).readRequestBodyDone = true := fun hm => by
      have hkeep : u.verdict.readRequestBodyDone = s.verdict.readRequestBodyDone := by
        rw [hu.verdict, spoken_frame s a.code more]
      exact hkeep.trans (hs.body hm)
    have hphase : u.phaseStatus = .ok := (congrArg Verdict.phaseStatus hu.verdict).trans hok
    have hfound : s.found phase a.code more = if phase = .content then
        { s.spoken a.code more with exitStatus := 0 } else s.spoken a.code more := by
      unfold found
      by_cases hp : phase = .content
      · rw [if_pos ⟨hp, hne⟩, if_pos hp]
      · rw [if_neg fun h => hp h.1, if_neg hp]
    have henter := entered_unsent hu phase
    rw [← hfound] at henter
    have hsettles : (s.found phase a.code more).phaseStatus ≠ .again := by
      rw [hfound]
      split <;> exact ne_of_eq_of_ne hok (by decide)
    refine ⟨!(u.entered phase).chain.isEmpty, fun h => absurd h hne, fun line => ?_⟩
    rw [hrun, if_pos hcomes, callHandler_inline hu.ctx hbody, if_neg (by rw [hphase]; decide),
      inlineAnswer_settles henter hsettles]
    exact inlineSetOutput_responds henter hexit finalize m phase ha line

end Service

end NgxPhp
