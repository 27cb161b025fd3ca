import NgxPhp.Uthread.Invariant

/-!
# What a handler returns

Whatever way a handler takes through `set_output`, it returns once, runs no phase and
releases at most its closure. It adds to the reference count of the request exactly
when it waits for its script.
-/

namespace NgxPhp

namespace Executor

variable {e e' e'' : Executor} {phase : Phase}

/-- The handler of the phase returns and has added to the count of the request. -/
structure Returns (e e' : Executor) (phase : Phase) (added : Nat) : Prop where
  returned : ∃ rc response, e'.thread.returned = ⟨phase, rc, response⟩ :: e.thread.returned
  running : e'.thread.running = none
  runPhases : e'.thread.runPhases = e.thread.runPhases
  generatorClosure : e'.ctx.generatorClosure = e.ctx.generatorClosure ∨
    e'.ctx.generatorClosure = e.ctx.generatorClosure.map fun _ => .dangling
  count : e'.thread.count = e.thread.count + added

theorem Returns.frame {n : Nat} (h : e'.Returns e'' phase n)
    (hret : e'.thread.returned = e.thread.returned)
    (hruns : e'.thread.runPhases = e.thread.runPhases)
    (hg : e'.ctx.generatorClosure = e.ctx.generatorClosure)
    (hc : e'.thread.count = e.thread.count) : e.Returns e'' phase n where
  returned := hret ▸ h.returned
  running := h.running
  runPhases := h.runPhases.trans hruns
  generatorClosure := hg ▸ h.generatorClosure
  count := hc ▸ h.count

theorem returns_returns (e : Executor) (phase : Phase) (rc : Int) (response : Option Response) :
    e.Returns (e.returns phase rc response) phase 0 :=
  ⟨⟨rc, response, rfl⟩, rfl, rfl, Or.inl rfl, rfl⟩

theorem sendOutput_returns (e : Executor) (phase : Phase) (entry : Entry) (done : Int)
    (body : Bytes) : e.Returns (e.sendOutput phase entry done body) phase 0 := by
  unfold sendOutput
  dsimp only
  split
  · exact ⟨⟨_, _, rfl⟩, rfl, rfl, Or.inl rfl, rfl⟩
  · split <;> exact ⟨⟨_, _, rfl⟩, rfl, rfl, Or.inl rfl, rfl⟩

/-- Once the closure is released, it stays so. -/
theorem finishPhase_returns (h : e.finishPhase.Returns e' phase 0) : e.Returns e' phase 0 where
  returned := h.returned
  running := h.running
  runPhases := h.runPhases
  generatorClosure := by
    have hmap : e.finishPhase.ctx.generatorClosure =
        e.ctx.generatorClosure.map fun _ => .dangling := rfl
    refine Or.inr ?_
    rcases h.generatorClosure with hg | hg
    · exact hg.trans hmap
    · rw [hg, hmap, Option.map_map]
      rfl
  count := h.count

theorem phaseSetOutput_returns (done : Int) (e : Executor) (phase : Phase) (entry : Entry) :
    e.Returns (e.phaseSetOutput done phase entry) phase 0 := by
  unfold phaseSetOutput
  dsimp only
  split
  · exact e.returns_returns phase _ none
  · refine finishPhase_returns ?_
    split
    · split
      · exact returns_returns _ phase _ none
      · exact sendOutput_returns _ phase entry done _
    · exact returns_returns _ phase _ none

theorem contentSetOutput_returns (e : Executor) (phase : Phase) (entry : Entry) :
    e.Returns (e.contentSetOutput phase entry) phase 0 := by
  unfold contentSetOutput
  dsimp only
  split
  · exact e.returns_returns phase _ none
  · refine finishPhase_returns ?_
    split
    · exact returns_returns _ phase _ none
    · split
      · exact (sendOutput_returns _ phase entry 0 _).frame rfl rfl rfl rfl
      · exact returns_returns _ phase _ none

theorem setOutput_returns (e : Executor) (phase : Phase) (entry : Entry) :
    e.Returns (e.setOutput phase entry) phase 0 := by
  cases phase with
  | rewrite => exact phaseSetOutput_returns 0 e .rewrite entry
  | access => exact phaseSetOutput_returns 200 e .access entry
  | content => exact e.contentSetOutput_returns .content entry

theorem park_returns (e : Executor) (phase : Phase) : e.Returns (e.park phase) phase 1 :=
  ⟨⟨_, _, rfl⟩, rfl, rfl, Or.inl rfl, rfl⟩

/-- A handler adds to the count exactly when it waits. -/
theorem answer_returns (e : Executor) (phase : Phase) (entry : Entry) :
    e.Returns (e.answer phase entry) phase (if e.ctx.phaseStatus = .again then 1 else 0) := by
  unfold answer
  split
  · exact e.park_returns phase
  · exact e.setOutput_returns phase entry

end Executor

end NgxPhp
