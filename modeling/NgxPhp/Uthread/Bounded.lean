import NgxPhp.Request.Armed
import NgxPhp.Uthread.Parked

/-!
# Waits that end by themselves

A script that is suspended is resumed by an event of its connection only if the peer
acts. So at a `yield` of an operation a timer or a query of the resolver should be
pending. Operations that are done at once leave neither.
-/

namespace NgxPhp

open StepMachine

/-- A request with two history variables that no function reads. -/
structure Watch where
  executor : Executor
  /-- The latest library call of the segment with the state it was made in, if it is one that
  a script can wait for. -/
  lastCall : Option (Session × Call) := none
  /-- The script is suspended at a `yield` of such a call. -/
  yielded : Bool := false

/-- The latest call after one step. -/
def Watch.callAfter (w : Watch) : ThreadStep → Option (Session × Call)
  | .act (.call c) =>
    match w.executor.thread.session.call c with
    | some _ => if c.awaited then some (w.executor.thread.session, c) else none
    | none => w.lastCall
  | .enter _ _ => none
  | .resume _ _ => none
  | _ => w.lastCall

/-- Whether the script is suspended at such a call after one step. -/
def Watch.yieldAfter (w : Watch) : ThreadStep → Bool
  | .stop s => s = .suspend true && w.lastCall.isSome
  | _ => w.yielded

/-- Steps that cannot be taken change nothing. -/
def Watch.step (w : Watch) (l : ThreadStep) : Watch :=
  if w.executor.Enabled l then
    { executor := w.executor.step l
      lastCall := w.callAfter l
      yielded := w.yieldAfter l }
  else w

/-- If the request waits at a `yield` of an operation, its wait ends by itself. -/
def Watch.Bounded (w : Watch) : Prop :=
  w.executor.thread.running = none → w.executor.ctx.phaseStatus = .again →
    w.executor.ctx.generatorClosure = some (.generator true) → w.yielded = true →
    w.executor.thread.session.HasTimer

/-- A call whose value is yielded has left something pending, a resolver's answer to a script
that waits leaves something pending or a connect that is done, and no other request changes
the timers of the connection. -/
def Watch.Armed (w : Watch) (l : ThreadStep) : Prop :=
  match l with
  | .stop (.suspend true) => ∀ x ∈ w.lastCall, x.2.Arms x.1
  | .resolved q ans =>
    let k := w.executor.thread.session
    w.yielded = true → w.executor.ctx.generatorClosure = some (.generator true) →
      (k.ctx.phaseStatus = .again ∨ ans.waits k.kc k.view.u.resolved = true) →
      ans.settles k.kc k.view.u.resolved = true ∨ k.ctx.sleep.timer.isSome = true ∨
        ans.Arms (k.view.onUpstream fun u => { u with queries := u.queries.erase q })
          k.view.u.resolved
  | .tables _ cy => ∀ c ∈ w.executor.thread.session.view.u.peer.connection,
      (cy.connections c).read.timer =
          (w.executor.thread.session.cy.connections c).read.timer ∧
        (cy.connections c).write.timer =
          (w.executor.thread.session.cy.connections c).write.timer
  | _ => True

instance Watch.decidableArmed (w : Watch) (l : ThreadStep) : Decidable (w.Armed l) :=
  match l with
  | .stop (.suspend true) => inferInstanceAs (Decidable (∀ x ∈ w.lastCall, x.2.Arms x.1))
  | .resolved _ _ => inferInstanceAs (Decidable (_ → _ → _ → _))
  | .tables _ _ => inferInstanceAs (Decidable (∀ c ∈ _, _ ∧ _))
  | .stop (.suspend false) | .stop .finish | .stop (.object _) | .stop (.bailout _) | .postRead
  | .enter _ _ | .bodyRead _ | .act _ | .event _ _ _ _ | .sleepTimer | .resume _ _ | .status _ =>
    .isTrue trivial

/-! ## What leaves the timers alone -/

/-- The sleep timer, the upstream and the connections are the same. -/
structure Session.SameTimers (k k' : Session) : Prop where
  sleep : k'.ctx.sleep = k.ctx.sleep
  upstream : k'.ctx.upstream = k.ctx.upstream
  cy : k'.cy = k.cy

/-- With the same timers there is one or there is none. -/
theorem Session.SameTimers.hasTimer_iff {k k' : Session} (h : k.SameTimers k') :
    k'.HasTimer ↔ k.HasTimer := by
  have hview : k.view.SameTimers k'.view := by
    unfold Session.view
    rw [h.upstream]
    cases k.ctx.upstream with
    | none => exact .of_conn rfl rfl fun d hd => by cases hd
    | some u => exact .of_conn rfl rfl fun d _ => by simp [Session.sock, h.cy]
  rw [HasTimer, HasTimer, h.sleep, hview.timed_iff]

/-- After the resolver's answer something is pending exactly if the answer arms it. -/
theorem Session.resolved_hasTimer_iff (k : Session) {u : Upstream} (hu : k.ctx.upstream = some u)
    (q : Query) (ans : ResolveAnswers) :
    (k.onSock fun t => t.resolved q ans).HasTimer ↔ k.ctx.sleep.timer.isSome = true ∨
      ans.Arms (k.view.onUpstream fun u => { u with queries := u.queries.erase q })
        k.view.u.resolved := by
  have hr : ((k.sock u).resolved q ans).r = k.r := (resolveHandler_foretold ans q.resource _).r
  rw [onSock, hu]
  dsimp only
  rw [hasTimer_withSock k hr, view_of_upstream hu]
  exact or_congr_right (resolveHandler_timed_iff ans q.resource _)

namespace Executor

variable {e e' : Executor} {phase : Phase} {entry : Entry}

/-- A request that waits after the handler has waited before, for the same. -/
def WaitsAs (e e' : Executor) : Prop :=
  e'.thread.running = none → e'.ctx.phaseStatus = .again →
    e'.ctx.generatorClosure = some (.generator true) →
    e.ctx.phaseStatus = .again ∧ e.ctx.generatorClosure = some (.generator true) ∧
      e.thread.session.SameTimers e'.thread.session

/-- An answer leaves what is waited for, or a request that does not wait. -/
theorem answer_waitsAs (hm : e.thread.moduleCtx = true) : e.WaitsAs (e.answer phase entry) := by
  unfold answer
  split
  · next hs => exact fun _ _ hg => ⟨hs, hg, rfl, rfl, rfl⟩
  · intro _ ha
    have hp := (e.setOutput_frame phase entry hm).2.1
    rw [hp] at ha
    cases ha

/-- The callback of the body changes no timer. -/
theorem readRequestBodyCallback_sameTimers (e : Executor) (data : Bool) :
    e.thread.session.SameTimers (e.readRequestBodyCallback data).thread.session := by
  unfold readRequestBodyCallback
  dsimp only
  split
  · split <;> exact ⟨rfl, rfl, rfl⟩
  · exact ⟨rfl, rfl, rfl⟩

/-- The callback of the body reader leaves what is waited for. -/
theorem readRequestBodyCallback_waitsAs (e : Executor) (data : Bool) :
    e.WaitsAs (e.readRequestBodyCallback data) := by
  have hb := e.bodyRead data
  exact fun _ ha hg => ⟨hb.phaseStatus.symm.trans ha, hb.generatorClosure.symm.trans hg,
    e.readRequestBodyCallback_sameTimers data⟩

/-- A handler behind the body leaves what is waited for, or a script that runs. -/
theorem handlePhase_waitsAs (hm : e.thread.moduleCtx = true) :
    e.WaitsAs (e.handlePhase phase entry) := by
  unfold handlePhase
  split
  · split
    · exact fun _ ha hg => ⟨ha, hg, rfl, rfl, rfl⟩
    · exact fun _ ha hg => ⟨ha, hg, rfl, rfl, rfl⟩
    · next data _ =>
      have hb := e.bodyRead data
      have hs := e.readRequestBodyCallback_sameTimers data
      exact fun _ ha hg => ⟨hb.phaseStatus.symm.trans ha, hb.generatorClosure.symm.trans hg,
        hs.sleep, hs.upstream, hs.cy⟩
  · split
    · unfold inlineRoutine
      dsimp only
      split
      · intro hr
        cases hr
      · next status _ =>
        -- the status has been set to `NGX_OK`
        intro hr ha hg
        have hm' := (leave_sameSegment ((e.setPhaseStatus .ok).setRequestStatus
          Rc.declined.toInt) (.bailout (.error status))).moduleCtx.trans hm
        have hs := (answer_waitsAs hm' hr ha hg).1
        rw [leave_ctx] at hs
        cases hs
    · exact answer_waitsAs hm

/-- A handler that makes a ctx has no closure. -/
theorem WaitsAs.of_ensureCtx (h : e.ensureCtx.WaitsAs e') : e.WaitsAs e' := by
  unfold ensureCtx at h
  split at h
  · exact h
  · intro hr ha hg
    have hnone := (h hr ha hg).2.1
    simp [ctx, onCtx, onThread] at hnone

/-- The entry of a handler leaves what is waited for, or a script that runs. -/
theorem enter_waitsAs (e : Executor) (phase : Phase) (entry : Entry) :
    e.WaitsAs (e.enter entry phase) := by
  rcases enter_cases e phase entry with heq | ⟨_, _, heq⟩ | ⟨_, heq⟩
  · rw [heq]
    exact fun _ ha hg => ⟨ha, hg, rfl, rfl, rfl⟩
  · rw [heq]
    exact (handlePhase_waitsAs e.ensureCtx_moduleCtx).of_ensureCtx
  · rw [heq]
    refine WaitsAs.of_ensureCtx fun hr ha hg => ?_
    exact handlePhase_waitsAs (e := e.ensureCtx.setRequestStatus 0) e.ensureCtx_moduleCtx hr ha hg

/-- A segment that ends leaves nothing running. -/
theorem stop_cases (hi : e.ScriptInv) (s : Stop) :
    e.stop s = e ∨ (e.stop s).thread.running = none := by
  unfold stop
  split
  · next phase kind entry hc =>
    split
    · have hm := (leave_sameSegment e s).moduleCtx.trans (hi.moduleCtx (by simp [hc]))
      exact Or.inr (answer_answered _ phase entry
        ((createEnd_frame (e.leave s) kind s).1.trans hm)).running
    · exact Or.inl rfl
  · next hc =>
    split
    · refine Or.inr ?_
      have ho : (e.leave s).ctx.endOfRequest = false := by
        rw [leave_ctx]
        exact hi.open_ (hi.moduleCtx (by simp [hc]))
      rw [resumeEnd_eq ho]
      rcases s with operand | _ | (_ | _ | _) | b <;> rfl
    · exact Or.inl rfl
  · exact Or.inl rfl

/-- A request that waits at the end of a segment has been suspended, with its timers. -/
theorem stop_waits (hi : e.ScriptInv) (hruns : e.scriptRuns = true) {s : Stop} :
    (e.stop s).thread.running = none → (e.stop s).ctx.phaseStatus = .again →
      (e.stop s).ctx.generatorClosure = some (.generator true) →
      (∃ operand, s = .suspend operand) ∧
        e.thread.session.SameTimers (e.stop s).thread.session := by
  have hnone : e.thread.running ≠ none := by
    intro hr
    rw [scriptRuns, hr] at hruns
    cases hruns
  have hm := hi.moduleCtx hnone
  have hm' := (leave_sameSegment e s).moduleCtx.trans hm
  unfold stop
  split
  · next phase kind entry hc =>
    split
    · intro hr ha hg
      obtain ⟨_, hgen, hsame⟩ := answer_waitsAs
        ((createEnd_frame (e.leave s) kind s).1.trans hm') hr ha hg
      rcases s with operand | _ | (_ | _ | _) | b
      · exact ⟨⟨operand, rfl⟩, hsame.sleep, hsame.upstream, hsame.cy⟩
      · cases kind <;> cases hgen
      all_goals cases hgen
    · exact fun hr => absurd hr hnone
  · next hc =>
    split
    · next hs =>
      have ho : (e.leave s).ctx.endOfRequest = false := by
        rw [leave_ctx]
        exact hi.open_ hm
      -- only the closure of a plain function's object goes on after an object
      have hobject : ∀ valid, s = .object valid →
          (e.leave s).ctx.generatorClosure ≠ some (.generator true) := by
        rintro valid rfl hgen
        rw [leave_ctx] at hgen
        simp [hgen, Closure.stops, ScriptKind.stops] at hs
      rw [resumeEnd_eq ho]
      rcases s with operand | _ | (_ | _ | _) | b
      · exact fun _ _ _ => ⟨⟨operand, rfl⟩, rfl, rfl, rfl⟩
      · exact fun _ _ hg => by cases hg
      · exact fun _ _ hg => absurd hg (hobject none rfl)
      · exact fun _ _ hg => by cases hg
      · exact fun _ _ hg => absurd hg (hobject (some true) rfl)
      · exact fun _ _ hg => by cases hg
    · exact fun hr => absurd hr hnone
  · exact fun hr => absurd hr hnone

/-- A resume that finds no generator leaves none. -/
theorem resume_dropped (hr : e.thread.running = some .handler) (readEvent : Rc) (method : Bool) :
    (e.resume readEvent method).thread.running ≠ none ∨
      (e.resume readEvent method).ctx.generatorClosure ≠ some (.generator true) := by
  unfold Executor.resume
  split
  · next hg =>
    refine Or.inr fun hgen => ?_
    have hs := Session.clear_sameHandler e.thread.session readEvent
    have hnone := hs.generatorClosure.symm.trans hgen
    rw [show e.thread.session.ctx.generatorClosure = none from hg] at hnone
    cases hnone
  · exact Or.inl (by simp [beginSegment, onThread])
  · next hg =>
    split
    · exact Or.inl (by simp [beginSegment, onThread])
    · refine Or.inr fun hgen => ?_
      rw [show (e.setRunning none).ctx.generatorClosure = some .object from hg] at hgen
      cases hgen
  · exact Or.inl (by simp [hr])
  · exact Or.inl (by simp [hr])

/-- The post read handler leaves what is waited for. -/
theorem postReadHandler_waitsAs (e : Executor) : e.WaitsAs e.postReadHandler := by
  unfold postReadHandler
  split
  · exact fun _ ha hg => ⟨ha, hg, rfl, rfl, rfl⟩
  · intro _ ha
    cases ha

/-- What a script does between its calls changes no timer. -/
theorem act_sameTimers (e : Executor) {a : Action} (h : ∀ c, a ≠ .call c) :
    e.thread.session.SameTimers (e.act a).thread.session := by
  unfold act
  split
  · next c => exact absurd rfl (h c)
  · exact ⟨rfl, rfl, rfl⟩
  · exact ⟨rfl, rfl, rfl⟩
  · split <;> exact ⟨rfl, rfl, rfl⟩

end Executor

/-! ## The invariant -/

/-- What the latest call has armed is what is pending, and waits end by themselves. -/
structure Watch.Inv (w : Watch) : Prop where
  script : w.executor.ScriptInv
  armed : w.executor.scriptRuns = true → ∀ x ∈ w.lastCall,
    (w.executor.thread.session.HasTimer ↔ x.2.Arms x.1)
  bounded : w.Bounded

namespace Watch

variable {w : Watch}

/-- After a step that leaves no script running. -/
theorem Inv.of_idle {w' : Watch} (hi : w'.executor.ScriptInv)
    (hs : w'.executor.scriptRuns = false) (hb : w'.Bounded) : w'.Inv :=
  ⟨hi, fun hruns => absurd (hs.symm.trans hruns) (by simp), hb⟩

/-- After a step that leaves code running. -/
theorem Bounded.of_running {w' : Watch} (hr : w'.executor.thread.running ≠ none) : w'.Bounded :=
  fun hn => absurd hn hr

theorem scriptRuns_of_idle {e : Executor} (hr : e.thread.running = none) :
    e.scriptRuns = false := by
  rw [Executor.scriptRuns, hr]

/-- A script that waits goes on waiting for the same. -/
theorem Bounded.waitsAs (h : w.Bounded) (hr : w.executor.thread.running = none) {e : Executor}
    (hw : w.executor.WaitsAs e) (last : Option (Session × Call)) :
    Bounded { executor := e, lastCall := last, yielded := w.yielded } := by
  intro hr' ha hg hy
  obtain ⟨ha', hg', hsame⟩ := hw hr' ha hg
  exact hsame.hasTimer_iff.mpr (h hr ha' hg' hy)

/-- An action of the script keeps the invariant. -/
theorem Inv.act (h : w.Inv) {a : Action} (hruns : w.executor.scriptRuns = true) :
    Inv { executor := w.executor.act a
          lastCall := w.callAfter (.act a)
          yielded := w.yielded } := by
  have hseg := Executor.act_sameSegment w.executor a
  have hnone : (w.executor.act a).thread.running ≠ none := by
    rw [hseg.running]
    intro hr
    rw [scriptRuns_of_idle hr] at hruns
    cases hruns
  refine ⟨hseg.scriptInv h.script, fun _ => ?_, .of_running hnone⟩
  by_cases hcall : ∃ c, a = .call c
  · obtain ⟨c, rfl⟩ := hcall
    simp only [callAfter, Executor.act]
    cases hres : w.executor.thread.session.call c with
    | none => exact h.armed hruns
    | some res =>
      obtain ⟨v, k⟩ := res
      intro x hx
      dsimp only at hx
      split at hx
      · next hc =>
        obtain rfl := Option.mem_some_iff.mp hx
        exact Session.call_hasTimer_iff hres hc
      · cases hx
  · have hsame := w.executor.act_sameTimers fun c hc => hcall ⟨c, hc⟩
    have hlast : w.callAfter (.act a) = w.lastCall := by
      cases a with
      | call c => exact absurd ⟨c, rfl⟩ hcall
      | _ => rfl
    intro x hx
    dsimp only at hx ⊢
    rw [hlast] at hx
    exact hsame.hasTimer_iff.trans (h.armed hruns x hx)

/-- The end of an armed segment keeps the invariant. -/
theorem Inv.stop (h : w.Inv) {s : Stop} (hruns : w.executor.scriptRuns = true)
    (harmed : w.Armed (.stop s)) :
    Inv { executor := w.executor.stop s
          lastCall := w.lastCall
          yielded := w.yieldAfter (.stop s) } := by
  have hi := Executor.stop_scriptInv h.script s
  have hb : Bounded { executor := w.executor.stop s
                      lastCall := w.lastCall
                      yielded := w.yieldAfter (.stop s) } := by
    intro hr ha hg hy
    obtain ⟨⟨operand, rfl⟩, hsame⟩ := Executor.stop_waits h.script hruns hr ha hg
    simp only [yieldAfter, Bool.and_eq_true, decide_eq_true_eq, Stop.suspend.injEq] at hy
    obtain ⟨rfl, hsome⟩ := hy
    obtain ⟨x, hx⟩ := Option.isSome_iff_exists.mp hsome
    exact hsame.hasTimer_iff.mpr ((h.armed hruns x hx).mpr (harmed x hx))
  rcases Executor.stop_cases h.script s with heq | hr
  · exact ⟨hi, fun _ => heq.symm ▸ h.armed hruns, hb⟩
  · exact .of_idle hi (scriptRuns_of_idle hr) hb

/-- An armed answer of the resolver keeps the invariant. -/
theorem Inv.resolved (h : w.Inv) {q : Query} {ans : ResolveAnswers}
    (hen : w.executor.Enabled (.resolved q ans)) (harmed : w.Armed (.resolved q ans)) :
    Inv { executor := w.executor.perform (.resolved q ans)
          lastCall := w.lastCall
          yielded := w.yielded } := by
  have hi := h.script.step (.resolved q ans)
  rw [Executor.step, if_pos hen] at hi
  refine .of_idle hi (scriptRuns_of_idle hen.1) fun _ ha hg hy => ?_
  obtain ⟨u, hu, _⟩ := hen.2.2
  obtain hu : w.executor.thread.session.ctx.upstream = some u := hu
  have hsame := Session.onSock_sameHandler w.executor.thread.session fun t => t.resolved q ans
  have hgen : w.executor.ctx.generatorClosure = some (.generator true) :=
    hsame.generatorClosure.symm.trans hg
  have hview := Session.view_of_upstream hu
  -- the request waits for the new connect, or goes on waiting
  have hphase : w.executor.thread.session.ctx.phaseStatus = .again ∨
      ans.waits w.executor.thread.session.kc w.executor.thread.session.view.u.resolved = true := by
    by_cases hw : ans.waits w.executor.thread.session.kc
        w.executor.thread.session.view.u.resolved = true
    · exact Or.inr hw
    · have hp := Session.resolved_phaseStatus w.executor.thread.session q ans fun u' hu' => by
        obtain rfl : u = u' := Option.some.inj (hu.symm.trans hu')
        rw [hview] at hw
        exact Bool.eq_false_iff.mpr hw
      rcases hp with hp | hp
      · exact Or.inl (hp.symm.trans ha)
      · exact absurd (hp.symm.trans ha) (by simp)
  rcases harmed hy hgen hphase with hsettles | hpending
  · have hok : (w.executor.thread.session.onSock fun t => t.resolved q ans).ctx.phaseStatus =
        .ok := by
      rw [Session.onSock, hu]
      rw [hview] at hsettles
      exact resolveHandler_settled ans q.resource
        (k := (w.executor.thread.session.sock u).onUpstream fun u =>
          { u with queries := u.queries.erase q }) hsettles
    exact absurd (hok.symm.trans ha) (by simp)
  · exact (Session.resolved_hasTimer_iff _ hu q ans).mpr hpending

/-- Each armed step keeps the invariant. -/
theorem Inv.step (h : w.Inv) {l : ThreadStep} (harmed : w.Armed l) : (w.step l).Inv := by
  have hi := h.script.step l
  unfold Watch.step
  split
  · next hen =>
    rw [Executor.step, if_pos hen] at hi ⊢
    cases l with
    | postRead =>
      have hr : w.executor.postReadHandler.thread.running = none := by
        unfold Executor.postReadHandler
        split <;> exact hen
      exact .of_idle hi (scriptRuns_of_idle hr)
        (h.bounded.waitsAs hen w.executor.postReadHandler_waitsAs w.lastCall)
    | enter phase entry =>
      refine ⟨hi, fun _ x hx => (by cases hx), ?_⟩
      exact h.bounded.waitsAs hen (Executor.enter_waitsAs w.executor phase entry) none
    | bodyRead data =>
      have hr := (w.executor.bodyRead data).running.trans hen.1
      exact .of_idle hi (scriptRuns_of_idle hr)
        (h.bounded.waitsAs hen.1 (w.executor.readRequestBodyCallback_waitsAs data) w.lastCall)
    | act a => exact h.act hen
    | stop s => exact h.stop hen harmed
    | event d write how ans =>
      refine .of_idle hi rfl (.of_running ?_)
      simp [Executor.perform, Executor.event, Executor.setRunning, Executor.onThread]
    | sleepTimer =>
      refine .of_idle hi rfl (.of_running ?_)
      simp [Executor.perform, Executor.setRunning, Executor.onThread]
    | resume readEvent method =>
      refine ⟨hi, fun _ x hx => (by cases hx), fun hr _ hg => ?_⟩
      rcases Executor.resume_dropped hen readEvent method with hno | hno
      · exact absurd hr hno
      · exact absurd hg hno
    | resolved q ans => exact h.resolved hen harmed
    | tables kc cy =>
      refine .of_idle hi (scriptRuns_of_idle hen) fun _ ha hg hy => ?_
      have hsame : w.executor.thread.session.view.SameTimers
          (Session.view { w.executor.thread.session with kc, cy }) := .of_conn rfl rfl harmed
      exact (or_congr_right hsame.timed_iff).mpr (h.bounded hen ha hg hy)
    | status n =>
      exact .of_idle hi (scriptRuns_of_idle hen) fun _ ha hg hy => h.bounded hen ha hg hy
  · exact h

end Watch

/-- In every run in which each call that is waited for leaves something pending, every wait
for an operation ends by itself. -/
theorem waits_bounded {r : ReqId} {kc : KeepaliveConf} {cy : Cycle} {exitStatus : Int}
    {ls : List ThreadStep}
    (h : Along Watch.step Watch.Armed { executor := .init r kc cy exitStatus } ls) :
    (run Watch.step { executor := .init r kc cy exitStatus } ls).Bounded :=
  (h.invariant (I := Watch.Inv) (fun _ _ hi hl => hi.step hl)
    (.of_idle (Executor.init_scriptInv r kc cy exitStatus) rfl fun _ ha => by cases ha)).bounded

/-- A script that connects, sends and receives, each of which has to wait. -/
theorem waits_bounded_in_turn :
    (run Watch.step { executor := .init 0 (keepaliveInit 0 0) .init 0 }
      [.postRead, .enter .content {},
        .act (.call (.connect 0 (some afInet) [] 80
          { parseUrl := .address [], retval := { connect := .inProgress 7 } })),
        .stop (.suspend true), .event 7 true .ready {}, .resume .ok true,
        .act (.call (.send 0 [1, 2] 2 { sends := [.accepted 1] })), .stop (.suspend true),
        .event 7 true .ready { send := { sends := [.accepted 1] } }, .resume .ok true,
        .act (.call (.recv 0 {} 8 { recv := .again })), .stop (.suspend true)]).Bounded :=
  waits_bounded (by decide)

/-- A connect that is established at once, and a send that is taken as a whole, leave nothing
but events of the peer to wait for. -/
theorem ngxSocketSend_unbounded :
    let connected := run Watch.step { executor := .init 0 (keepaliveInit 0 0) .init 0 }
      [.postRead, .enter .content {},
        .act (.call (.connect 0 (some afInet) [] 80
          { parseUrl := .address [], retval := { connect := .established 7 } })),
        .stop (.suspend true)]
    let sent := run Watch.step connected
      [.event 7 true .ready {}, .resume .ok true,
        .act (.call (.send 0 [1, 2] 2 { sends := [.accepted 2] })), .stop (.suspend true)]
    ¬ connected.Bounded ∧ ¬ sent.Bounded := by
  refine ⟨fun h => ?_, fun h => ?_⟩
  · exact absurd (h (by decide) (by decide) (by decide) (by decide)) (by decide)
  · exact absurd (h (by decide) (by decide) (by decide) (by decide)) (by decide)

end NgxPhp
