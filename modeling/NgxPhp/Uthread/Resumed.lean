import NgxPhp.Uthread.Invariant

/-!
# The end of a suspended script

A resume that finds the generator finished hands the request back to the phases.
A script that leaves through `zend_bailout` ends in the catch block instead, which
only drops the closure.
-/

namespace NgxPhp

open StepMachine

/-- The generator is finished after the segment. -/
def Stop.ends : Stop → Bool
  | .finish => true
  | .bailout _ => true
  | _ => false

/-- From `e` to `e'` the phases of the request were run once, without its script. -/
structure Executor.Wakes (e e' : Executor) : Prop where
  phaseStatus : e'.ctx.phaseStatus = .ok
  generatorClosure : e'.ctx.generatorClosure = none
  runPhases : e'.thread.runPhases = e.thread.runPhases + 1

/-- A resume from the event handler's call to the end of the generator: `ls` has led to the
state in which a suspended script is resumed, `acts` is what it then does, `s` how it ends. -/
theorem resume_wakes_iff {r : ReqId} {kc : KeepaliveConf} {cy : Cycle} {exitStatus : Int}
    {ls : List ThreadStep} {e : Executor}
    (he : e = run Executor.step (Executor.init r kc cy exitStatus) ls)
    (hr : e.thread.running = some .handler)
    (hg : e.ctx.generatorClosure = some (.generator true)) (readEvent : Rc) (method : Bool)
    (acts : List Action) {s : Stop} (hs : s.ends = true) :
    e.Wakes (run Executor.step e (.resume readEvent method :: (acts.map .act ++ [.stop s]))) ↔
      s = .finish := by
  have hinv : e.ScriptInv := he ▸ Executor.run_scriptInv r kc cy exitStatus ls
  have hbegin : e.step (.resume readEvent method) = e.beginSegment .resume := by
    simp only [Executor.step, Executor.perform, Executor.resume, hg]
    exact if_pos hr
  have hseg := Executor.run_acts_sameSegment (e.beginSegment .resume) rfl acts
  rw [run_cons, hbegin, run_append, run_cons, run_nil]
  generalize run Executor.step (e.beginSegment .resume) (acts.map .act) = e₁ at hseg
  have hrun : e₁.thread.running = some .resume := hseg.running
  have hgen : e₁.ctx.generatorClosure = some (.generator true) := hseg.generatorClosure.trans hg
  have hleave := hseg.trans (Executor.leave_sameSegment e₁ s)
  have hopen : (e₁.leave s).ctx.endOfRequest = false :=
    hleave.endOfRequest.trans (hinv.open_ (hinv.moduleCtx (by simp [hr])))
  have hphases : (e₁.leave s).thread.runPhases = e.thread.runPhases := hleave.runPhases
  have hstop : e₁.step (.stop s) = (e₁.leave s).resumeEnd s := by
    have hfits : e₁.ctx.generatorClosure.any (fun g => g.stops s) = true := by
      rw [hgen]
      cases s <;> first | rfl | cases hs
    simp only [Executor.step, Executor.perform, Executor.stop, hrun, if_pos hfits]
    exact if_pos (by simp [Executor.Enabled, Executor.scriptRuns, hrun])
  rw [hstop, Executor.resumeEnd_eq hopen]
  cases s with
  | finish =>
    refine iff_of_true ⟨rfl, rfl, ?_⟩ rfl
    exact congrArg (· + 1) hphases
  | bailout b =>
    -- the catch block runs no phases
    refine iff_of_false (fun h => ?_) (by simp)
    have hsame : (e₁.leave (.bailout b)).thread.runPhases = e.thread.runPhases + 1 := h.runPhases
    omega
  | suspend => cases hs
  | object => cases hs

/-- A script that sleeps once and then returns. -/
theorem resume_wakes_after_sleep :
    let e := run Executor.step (Executor.init 0 (keepaliveInit 0 0) .init 0)
      [.postRead, .enter .content {}, .act (.call (.sleep 1)), .stop (.suspend true), .sleepTimer]
    e.Wakes (run Executor.step e [.resume .ok true, .act (.echo [65]), .stop .finish]) :=
  (resume_wakes_iff rfl rfl rfl .ok true [.echo [65]] rfl).mpr rfl

/-- A script that calls `ngx_exit(200)` after a sleep: the phases are not run, and the phase
status still says that the handler has to wait. -/
theorem ngxExit_wakes_nobody :
    let e := run Executor.step (Executor.init 0 (keepaliveInit 0 0) .init 0)
      [.postRead, .enter .content {}, .act (.call (.sleep 1)), .stop (.suspend true), .sleepTimer]
    let e' := run Executor.step e [.resume .ok true, .stop (.bailout (.exit 200))]
    e'.ctx.phaseStatus = .again ∧ e'.ctx.generatorClosure = none ∧
      e'.thread.runPhases = e.thread.runPhases ∧ ¬ e.Wakes e' :=
  ⟨by decide, by decide, by decide, fun h => absurd h.phaseStatus (by decide)⟩

end NgxPhp
