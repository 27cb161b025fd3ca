import NgxPhp.Serve.Response

/-!
# The log phase

The log phase comes last, whatever has produced the response. Its script is started
like all others, in the ctx of the request. The handlers of the module take that
away once they have sent the response, and an internal redirect does so too; and
nothing resumes or releases a generator behind the log phase.
-/

open StepMachine Ledger

namespace NgxPhp

/-- The function of the code is there to be called. -/
def Code.isCallable : Code → Bool
  | .compiled (.run _ _) => true
  | _ => false

/-- The function of the log script has been called. -/
def Occurrence.isLog (o : Occurrence) : Bool := o = .called .ngxLog

/-- The function of the log script has been called once, and the generators made from there on have
been released. -/
def LoggedOnce (history : List Occurrence) : Prop :=
  history.countP Occurrence.isLog = 1 ∧
    ∀ after before, history = after ++ .called .ngxLog :: before →
      ∀ g, .made g ∈ after → .destroyed g ∈ after

/-- The record with one call of the function in it. -/
theorem loggedOnce_iff {after before : List Occurrence} (ha : ∀ o ∈ after, o.isLog = false)
    (hb : ∀ o ∈ before, o.isLog = false) :
    LoggedOnce (after ++ .called .ngxLog :: before) ↔
      ∀ g, .made g ∈ after → .destroyed g ∈ after := by
  have hnone : ∀ l : List Occurrence, (∀ o ∈ l, o.isLog = false) →
      l.countP Occurrence.isLog = 0 ∧ .called .ngxLog ∉ l := fun l hl =>
    ⟨List.countP_eq_zero.mpr fun o hm => by rw [hl o hm]; exact Bool.false_ne_true,
      fun hm => Bool.false_ne_true ((hl _ hm).symm.trans (decide_eq_true rfl))⟩
  have hcount : (after ++ .called .ngxLog :: before).countP Occurrence.isLog = 1 := by
    rw [List.countP_append, List.countP_cons, (hnone after ha).1, (hnone before hb).1]
    rfl
  refine ⟨fun h => h.2 after before rfl, fun h => ⟨hcount, fun after' before' heq => ?_⟩⟩
  obtain ⟨rfl, -, -⟩ := (List.append_cons_inj_of_notMem (hnone after ha).2
    (hnone before hb).2).mp heq
  exact h

theorem not_loggedOnce {history : List Occurrence} (h : ∀ o ∈ history, o.isLog = false) :
    ¬ LoggedOnce history := fun hlog => by
  have hzero : history.countP Occurrence.isLog = 0 := List.countP_eq_zero.mpr fun o hm => by
    rw [h o hm]
    exact Bool.false_ne_true
  have hone := hlog.1
  omega

namespace Service

variable {s : Service}

theorem isLog_of_ofGenerator (o : Occurrence) (h : o.ofGenerator = true) : o.isLog = false := by
  cases o with
  | called => cases h
  | _ => rfl

/-- Nothing but a call of the function of a log script. -/
abbrev Unlogged (s t : Service) : Prop := Adds (fun o => o.isLog = false) s t

theorem history_dtorClosure (s : Service) : s.dtorClosure.history =
    match s.closure with
    | some (.generator g) => .destroyed g :: s.history
    | _ => s.history := by
  unfold dtorClosure
  cases s.closure with
  | none => rfl
  | some z => cases z <;> rfl

theorem history_enterClosure (s : Service) : s.enterClosure.history =
    match s.closure with
    | some (.generator g) => .entered g :: s.history
    | _ => s.history := by
  unfold enterClosure
  cases s.closure with
  | none => rfl
  | some z => cases z <;> rfl

/-- A bailout releases the generator in the slot. -/
theorem caught_history (s : Service) (fn : UthreadFn) (entry : Option JmpBuf) (b : Bailout) :
    ∃ exit, (s.caught fn entry b).history = .left fn entry exit :: s.dtorClosure.history := by
  have hbail := (s.bail_sameClosures b).trans (zendEndTry_sameClosures _ entry)
  have hhist : ((s.bail b).zendEndTry entry).history = s.history := (s.bail_frame b).1
  have hdtor : ((s.bail b).zendEndTry entry).dtorClosure.history = s.dtorClosure.history := by
    rw [history_dtorClosure, history_dtorClosure, hbail.closure, hhist]
  exact ⟨_, congrArg _ hdtor⟩

/-- The first go of an object. Only a bailout releases it. -/
theorem createValid_history (s : Service) (p : FuncPrefix) (entry : Option JmpBuf)
    (first : Segment) :
    ∃ exit, (s.createValid p entry first).history = .left (.create p) entry exit ::
      match first.stop with
      | .bailout _ => (s.enterClosure.acts first.deeds).dtorClosure.history
      | _ => s.enterClosure.history := by
  have hacts := (s.enterClosure.acts_frame first.deeds).1
  unfold createValid
  dsimp only
  cases first.stop with
  | bailout b => exact caught_history _ (.create p) entry b
  | _ => exact ⟨_, congrArg _ hacts⟩

/-- A script that returns an object only leaves. -/
theorem createObject_history (s : Service) (p : FuncPrefix) (entry : Option JmpBuf)
    (first : Segment) (hc : s.ctx.isSome = true) :
    ∃ exit, ((s.setClosure (some .object)).createValid p entry first).history =
      .left (.create p) entry exit :: s.history := by
  have hobj : (s.setClosure (some .object)).closure = some .object := closure_setClosure s _ hc
  have henter : (s.setClosure (some .object)).enterClosure.history = s.history := by
    rw [history_enterClosure, hobj]
    rfl
  have hgo := acts_sameClosures (s.setClosure (some .object)).enterClosure first.deeds
  obtain ⟨exit, hv⟩ := (s.setClosure (some .object)).createValid_history p entry first
  refine ⟨exit, hv.trans (congrArg _ ?_)⟩
  cases first.stop with
  | bailout b =>
    have hcl : (s.setClosure (some .object)).enterClosure.closure = some .object := by
      rw [closure, ctx_enterClosure]
      exact hobj
    dsimp only
    rw [history_dtorClosure, hgo.closure, hcl]
    exact (acts_frame _ _).1.trans henter
  | _ => exact henter

/-- A generator is entered, and released if its first go ends by a bailout. -/
theorem createGenerator_history (s : Service) (p : FuncPrefix) (entry : Option JmpBuf)
    (first : Segment) (hc : s.ctx.isSome = true) :
    ∃ exit, (s.storeGenerator.createValid p entry first).history = .left (.create p) entry exit ::
      match first.stop with
      | .bailout _ =>
        .destroyed s.generators :: .entered s.generators :: .made s.generators :: s.history
      | _ => .entered s.generators :: .made s.generators :: s.history := by
  have hgen : s.storeGenerator.closure = some (.generator s.generators) :=
    closure_setClosure s _ hc
  have henter : s.storeGenerator.enterClosure.history =
      .entered s.generators :: .made s.generators :: s.history := by
    rw [history_enterClosure, hgen]
    rfl
  have hgo := acts_sameClosures s.storeGenerator.enterClosure first.deeds
  obtain ⟨exit, hv⟩ := s.storeGenerator.createValid_history p entry first
  refine ⟨exit, hv.trans (congrArg _ ?_)⟩
  cases first.stop with
  | bailout b =>
    have hcl : s.storeGenerator.enterClosure.closure = some (.generator s.generators) := by
      rw [closure, ctx_enterClosure]
      exact hgen
    dsimp only
    rw [history_dtorClosure, hgo.closure, hcl, (acts_frame _ _).1, henter]
  | _ => exact henter

/-- What the start of a script puts down behind the call of its function. -/
theorem createCall_called (s : Service) (p : FuncPrefix) (entry : Option JmpBuf)
    (deeds : List Deed) (result : CallResult) (hc : s.ctx.isSome = true)
    (hz : s.closure = some .undef) :
    ∃ after, (s.createCall p entry (.run deeds result)).history =
        after ++ .called p :: s.history ∧ (∀ o ∈ after, ∀ p, o ≠ .called p) ∧
      ((∀ g, .made g ∈ after → .destroyed g ∈ after) ↔
        (Code.compiled (.run deeds result)).leavesGenerator = false) := by
  have hsame := (s.note_sameClosures (o := .called p) rfl).trans (acts_sameClosures _ deeds)
  have hacts : ((s.note (.called p)).acts deeds).history = .called p :: s.history :=
    (acts_frame _ deeds).1
  have hclosure := hsame.closure.trans hz
  have hctx := hsame.ctx hc
  unfold createCall
  dsimp only
  generalize (s.note (.called p)).acts deeds = t at hacts hclosure hctx ⊢
  have hleft : ∀ (u : Service) exit, u.history = .left (.create p) entry exit :: t.history →
      ∃ after, u.history = after ++ .called p :: s.history ∧ (∀ o ∈ after, ∀ p, o ≠ .called p) ∧
        ((∀ g, .made g ∈ after → .destroyed g ∈ after) ↔ True) := fun u exit hu => by
    refine ⟨[.left (.create p) entry exit], by rw [hu, hacts]; rfl, fun o hm => ?_, ?_⟩
    · rw [List.mem_singleton.mp hm]
      exact nofun
    · refine iff_true_intro fun g hm => ?_
      exact absurd (List.mem_singleton.mp hm) nofun
  cases result with
  | value =>
    have hdtor : t.dtorClosure.history = t.history := by
      rw [history_dtorClosure, hclosure]
    obtain ⟨after, h, hno, hiff⟩ := hleft (t.createValue p entry) entry (congrArg _ hdtor)
    exact ⟨after, h, hno, hiff.trans (iff_of_true trivial rfl)⟩
  | bailout b =>
    obtain ⟨exit, hb⟩ := t.caught_history (.create p) entry b
    rw [history_dtorClosure, hclosure] at hb
    obtain ⟨after, h, hno, hiff⟩ := hleft _ exit hb
    exact ⟨after, h, hno, hiff.trans (iff_of_true trivial rfl)⟩
  | object first =>
    obtain ⟨exit, hv⟩ := t.createObject_history p entry first hctx
    obtain ⟨after, h, hno, hiff⟩ := hleft _ exit hv
    exact ⟨after, h, hno, hiff.trans (iff_of_true trivial rfl)⟩
  | generator first =>
    obtain ⟨exit, hv⟩ := t.createGenerator_history p entry first hctx
    rw [hacts] at hv
    obtain ⟨ds, stop⟩ := first
    cases stop with
    | bailout b =>
      refine ⟨[.left (.create p) entry exit, .destroyed t.generators, .entered t.generators,
        .made t.generators], hv, by simp, iff_of_true (by simp) rfl⟩
    | _ =>
      refine ⟨[.left (.create p) entry exit, .entered t.generators, .made t.generators], hv,
        by simp, iff_of_false (fun h => ?_) Bool.noConfusion⟩
      simpa using h t.generators (by simp)

theorem newClosure_closure (s : Service) (hc : s.ctx.isSome = true) :
    s.newClosure.closure = some .undef := by
  unfold newClosure
  split
  · exact closure_setClosure _ _ hc
  · exact closure_setClosure _ _ hc

/-- The handler of the log phase calls the function exactly if there is a ctx and the function is
there. Nothing releases a generator that it makes, unless its first go ends by a bailout. -/
theorem logInlineHandler_history (s : Service) (code : Code)
    (hs : ∀ o ∈ s.history, o.isLog = false) :
    (s.ctx.isSome = true ∧ code.isCallable = true →
      ∃ after before, (s.logInlineHandler code).history = after ++ .called .ngxLog :: before ∧
        (∀ o ∈ after, o.isLog = false) ∧ (∀ o ∈ before, o.isLog = false) ∧
        ((∀ g, .made g ∈ after → .destroyed g ∈ after) ↔ code.leavesGenerator = false)) ∧
    (¬ (s.ctx.isSome = true ∧ code.isCallable = true) →
      ∀ o ∈ (s.logInlineHandler code).history, o.isLog = false) := by
  unfold logInlineHandler logInlineRoutine routine
  cases code with
  | failed b =>
    refine ⟨fun h => absurd h.2 Bool.noConfusion, fun _ => ?_⟩
    have hbail : Unlogged s (bail { s.setRequestStatus Rc.declined.toInt with
        bailout := none }.zendTry b) :=
      Adds.trans (adds_of_eq rfl) (bail_adds _ b)
    exact (hbail.trans (adds_of_eq rfl)).all hs
  | compiled f =>
    dsimp only
    have hstart : ({ s.setRequestStatus Rc.declined.toInt with
        bailout := none } : Service).zendTry.ctx = s.ctx ∧
        ({ s.setRequestStatus Rc.declined.toInt with
          bailout := none } : Service).zendTry.history = s.history := ⟨rfl, rfl⟩
    generalize ({ s.setRequestStatus Rc.declined.toInt with
      bailout := none } : Service).zendTry = t at hstart ⊢
    obtain ⟨hctx, hhist⟩ := hstart
    have hslot : Unlogged s t.newClosure.zendTry :=
      Adds.trans (adds_of_eq hhist)
        (Adds.trans (newClosure_adds isLog_of_ofGenerator t) (adds_of_eq rfl))
    unfold create
    cases hnone : t.ctx with
    | none =>
      rw [if_pos (by rfl)]
      refine ⟨fun h => ?_, fun _ => ?_⟩
      · rw [← hctx, hnone] at h
        cases h.1
      · exact Adds.all (Adds.trans (adds_of_eq hhist) (adds_cons rfl rfl)) hs
    | some ctx =>
      rw [if_neg (show ¬ (some ctx).isNone = true from Bool.false_ne_true)]
      have hsome : t.ctx.isSome = true := by rw [hnone]; rfl
      cases f with
      | missing =>
        refine ⟨fun h => absurd h.2 Bool.noConfusion, fun _ => ?_⟩
        exact (hslot.trans (Adds.trans (createValue_adds isLog_of_ofGenerator _ .ngxLog _ rfl)
          (adds_of_eq rfl))).all hs
      | run deeds result =>
        refine ⟨fun _ => ?_, fun h => absurd ⟨hctx ▸ hsome, rfl⟩ h⟩
        obtain ⟨after, hcall, hno, hiff⟩ := t.newClosure.zendTry.createCall_called .ngxLog t.bailout
          deeds result (t.newClosure_ctx.trans hsome) (t.newClosure_closure hsome)
        refine ⟨after, _, hcall, fun o hm => ?_, hslot.all hs, hiff⟩
        exact decide_eq_false (hno o hm .ngxLog)

end Service

namespace Passage

/-- No step but the log phase calls the function of its script. -/
theorem step_unlogged (s : Passage) {l : PassageStep} (hl : ∀ code, l ≠ .log code) :
    Service.Unlogged s.service (s.step l).service := by
  have hother : ∀ o : Occurrence, o.ofUthread = false → o.isLog = false := fun o h => by
    cases o with
    | called => cases h
    | _ => rfl
  unfold step
  split
  · refine s.perform_adds l hother (fun p hp => ?_) (fun _ _ => rfl) (fun _ _ _ _ _ _ _ _ => rfl)
      (fun _ _ _ _ _ => rfl)
      (fun _ _ _ _ _ _ => rfl) fun code h => absurd h (hl code)
    cases p with
    | ngxLog => exact absurd rfl hp
    | _ => rfl
  · exact .refl _

/-- Only the log phase is recorded as such. -/
theorem step_logged (s : Passage) {l : PassageStep} (hl : ∀ code, l ≠ .log code) :
    (s.step l).logged = s.logged := by
  have hcheck : ∀ (t : Passage) h rc, (t.check h rc).logged = t.logged := fun t h rc => by
    unfold check
    dsimp only
    split
    · rfl
    · split <;> rfl
  unfold step
  split
  · cases l with
    | call a =>
      unfold perform
      dsimp only
      split
      · unfold call
        split
        · rfl
        · exact hcheck _ _ _
      · rfl
    | outerReturns =>
      unfold perform
      dsimp only
      split
      · exact hcheck _ _ _
      · rfl
    | resumeReturns =>
      unfold perform
      dsimp only
      split <;> rfl
    | resume seg =>
      change (s.resumeScript seg).logged = s.logged
      unfold resumeScript
      split <;> rfl
    | log code => exact absurd rfl (hl code)
    | _ => rfl
  · rfl

/-- Before the log phase the function of its script has not been called. -/
theorem unlogged_step {s : Passage} (l : PassageStep)
    (hi : s.logged = false → ∀ o ∈ s.service.history, o.isLog = false) :
    (s.step l).logged = false → ∀ o ∈ (s.step l).service.history, o.isLog = false := by
  by_cases hl : ∀ code, l ≠ .log code
  · rw [s.step_logged hl]
    exact fun h => (s.step_unlogged hl).all (hi h)
  · obtain ⟨code, hcode⟩ := not_forall.mp hl
    obtain rfl := not_not.mp hcode
    unfold step
    split
    · exact nofun
    · exact hi

/-- Behind the log phase nothing is called or made and nothing released. -/
theorem logged_step {s : Passage} (l : PassageStep) (hlog : s.logged = true) :
    (s.step l).logged = true ∧
      Service.Adds (fun o => o.isLog = false ∧ o.ofGenerator = false) s.service
        (s.step l).service := by
  have hdead : s.live = false := by
    rw [live, hlog]
    rfl
  have hlive : ¬ s.live = true := Bool.eq_false_iff.mp hdead
  have hno : ∀ code, s.Enabled l → l ≠ .log code := by
    rintro code hen rfl
    exact hlive hen.1
  by_cases hen : s.Enabled l
  · refine ⟨(s.step_logged fun code => hno code hen).trans hlog, ?_⟩
    rw [step, if_pos hen]
    cases l with
    | outerReturns =>
      unfold perform
      dsimp only
      split
      · unfold check
        dsimp only
        split
        · exact adds_cons rfl ⟨rfl, rfl⟩
        · split
          · exact adds_cons rfl ⟨rfl, rfl⟩
          · exact Adds.trans (Service.note_adds _ ⟨rfl, rfl⟩) (adds_cons rfl ⟨rfl, rfl⟩)
      · exact .refl _
    | resumeReturns =>
      unfold perform
      dsimp only
      split
      · exact adds_cons rfl ⟨rfl, rfl⟩
      · exact .refl _
    | others exitStatus bailout => exact adds_of_eq rfl
    | free => exact adds_of_eq rfl
    | _ => exact absurd hen.1 hlive
  · rw [step, if_neg hen]
    exact ⟨hlog, .refl _⟩

end Passage

/-- In a run of a request that comes to the log phase, the function of the log script is called once
and what it makes released exactly if the ctx is still there, the function is there, and it makes
no generator but one whose first go ends by a bailout. -/
theorem log_runs_once_iff (method : Method) (loc : Location) (exitStatus : Int)
    (bailout : Option JmpBuf) (ls : List PassageStep) (code : Code) (rest : List PassageStep)
    (hlog : (run Passage.step (.start method loc exitStatus bailout) ls).Enabled (.log code)) :
    LoggedOnce (run Passage.step (.start method loc exitStatus bailout)
        (ls ++ .log code :: rest)).service.history ↔
      (run Passage.step (.start method loc exitStatus bailout) ls).service.ctx.isSome = true ∧
        code.isCallable = true ∧ code.leavesGenerator = false := by
  have hbefore := run_invariant (I := fun s : Passage =>
    s.logged = false → ∀ o ∈ s.service.history, o.isLog = false)
    (fun _ l hi => Passage.unlogged_step l hi) (s := .start method loc exitStatus bailout)
    (fun _ => nofun) ls
  rw [run_append, run_cons]
  generalize run Passage.step (.start method loc exitStatus bailout) ls = s at hlog hbefore ⊢
  have hstep : s.step (.log code) =
      { s.onService (·.logInlineHandler code) with logged := true } := by
    rw [Passage.step, if_pos hlog]
    rfl
  have hunlogged : s.logged = false := by
    have hlive : (!s.logged && !s.freed) = true := hlog.1
    rw [Bool.and_eq_true] at hlive
    simpa using hlive.1
  obtain ⟨hcalled, hnot⟩ := s.service.logInlineHandler_history code (hbefore hunlogged)
  obtain ⟨-, new, hnew, hlater⟩ := run_invariant (I := fun t : Passage => t.logged = true ∧
      Service.Adds (fun o => o.isLog = false ∧ o.ofGenerator = false)
        (s.step (.log code)).service t.service)
    (fun t l ht => ⟨(Passage.logged_step l ht.1).1, ht.2.trans (Passage.logged_step l ht.1).2⟩)
    (s := s.step (.log code)) ⟨by rw [hstep], .refl _⟩ rest
  rw [hnew, hstep]
  by_cases hc : s.service.ctx.isSome = true ∧ code.isCallable = true
  · obtain ⟨after, before, hhist, hafter, hbefore', hiff⟩ := hcalled hc
    have hall : ∀ o ∈ new ++ after, o.isLog = false := fun o hm =>
      (List.mem_append.mp hm).elim (fun h => (hlater o h).1) (hafter o)
    have hmem : ∀ o : Occurrence, o.ofGenerator = true → (o ∈ new ++ after ↔ o ∈ after) :=
      fun o ho => by
        refine List.mem_append.trans (or_iff_right fun h => ?_)
        exact absurd ((hlater o h).2.symm.trans ho) Bool.noConfusion
    change LoggedOnce (new ++ (s.service.logInlineHandler code).history) ↔ _
    rw [hhist, ← List.append_assoc, loggedOnce_iff hall hbefore', ← and_assoc, and_iff_right hc,
      ← hiff]
    exact forall_congr' fun g => by rw [hmem _ rfl, hmem _ rfl]
  · refine iff_of_false (not_loggedOnce fun o hm => ?_) fun h => hc ⟨h.1, h.2.1⟩
    exact (List.mem_append.mp hm).elim (fun h => (hlater o h).1) (hnot hc o)

/-- Another handler answers the request, and the log script is a plain function. -/
theorem log_runs_once_static :
    let m := Passage.start {} ⟨fun _ => false, fun _ => false, false, false⟩ 0 none
    (run Passage.step m [.pass]).Enabled (.log (.compiled (.run [] .value))) ∧
      LoggedOnce (run Passage.step m
        ([.pass] ++ .log (.compiled (.run [] .value)) :: [.free])).service.history :=
  ⟨by decide +kernel, (log_runs_once_iff _ _ _ _ _ _ _ (by decide +kernel)).mpr (by decide +kernel)⟩

/-- Behind a response of the content handler the log script is not called. -/
theorem log_skipped_after_content :
    ¬ LoggedOnce (run Passage.step (.start {} contentOnly 0 none)
      [.call { code := .compiled (.run [.echo [104, 105]] .value) },
        .log (.compiled (.run [] .value)), .free]).service.history := fun h =>
  absurd h.1 (by decide +kernel)

end NgxPhp
