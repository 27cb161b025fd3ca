import NgxPhp.Uthread.Returns

/-!
# A ctx of the handler's own

The post-read phase gives every request a ctx whose fields say that no script has
been started and that a body is still to come. A handler that finds no ctx, as
after an internal redirect, allocates a zeroed one, in which they say the opposite.
-/

namespace NgxPhp

namespace Entry

/-- The body, or its absence, lets the handler go on at some time. `later` is what the callback
finds in a body that is not there at once, if it is called. -/
def bodyComplete (entry : Entry) (later : Option Bool) : Bool :=
  if entry.hasBody then
    match entry.readBody with
    | .failed _ => false
    | .again => later.isSome
    | .done _ => true
  else true

end Entry

/-- What a handler returns that has tried to read the body. -/
def ReadBody.rc : ReadBody → Int
  | .failed rc => rc
  | .again => Rc.again.toInt
  | .done _ => Rc.ok.toInt

namespace Executor

/-- The handler has to read the body first. -/
def readsBody (e : Executor) (entry : Entry) : Bool :=
  entry.hasBody && !e.ctx.readRequestBodyDone

/-- The handler calls the routine of its phase. -/
def callsRoutine (e : Executor) (entry : Entry) : Bool :=
  !e.readsBody entry && e.ctx.phaseStatus = .declined

/-- The handler goes to `set_output` at once. -/
def skipsRoutine (e : Executor) (entry : Entry) : Bool :=
  !e.readsBody entry && e.ctx.phaseStatus ≠ .declined && e.ctx.phaseStatus ≠ .again

end Executor

/-- A request while one phase serves it. -/
structure Serving where
  executor : Executor
  /-- How often the handler has called the routine that runs the script. -/
  routines : Nat := 0
  /-- How often it went to `set_output` without a call of the routine. -/
  skips : Nat := 0

namespace Serving

/-- nginx calls the handler of the phase. -/
def enter (s : Serving) (phase : Phase) (entry : Entry) : Serving where
  executor := s.executor.enter entry phase
  routines := s.routines + if s.executor.ensureCtx.callsRoutine entry then 1 else 0
  skips := s.skips + if s.executor.ensureCtx.skipsRoutine entry then 1 else 0

/-- The rest of the body arrives. -/
def bodyRead (s : Serving) (later : Option Bool) : Serving :=
  match later with
  | some data => { s with executor := s.executor.readRequestBodyCallback data }
  | none => s

/-- Both have run the script in the same way and have returned the same. -/
structure SameBehaviour (s t : Serving) : Prop where
  routines : s.routines = t.routines
  running : s.executor.thread.running = t.executor.thread.running
  returned : s.executor.thread.returned = t.executor.thread.returned
  runPhases : s.executor.thread.runPhases = t.executor.thread.runPhases

end Serving

namespace Executor

/-- The handler of the phase is called, and once more when the callback of the body runs the
phases. -/
def serve (e : Executor) (phase : Phase) (entry : Entry) (later : Option Bool) : Serving :=
  let s := ({ executor := e } : Serving).enter phase entry
  let s := if entry.hasBody && entry.readBody = .again && !s.executor.ctx.readRequestBodyDone then
    s.bodyRead later else s
  if e.thread.runPhases < s.executor.thread.runPhases then s.enter phase entry else s

/-- What is expected of a handler with a ctx of its own. -/
structure ServedAsPostRead (e : Executor) (phase : Phase) (entry : Entry) (later : Option Bool) :
    Prop where
  same : (e.serve phase entry later).SameBehaviour (e.postReadHandler.serve phase entry later)
  /-- It never goes to `set_output` without having run the script. -/
  skips : (e.serve phase entry later).skips = 0
  /-- It never leaves a body that is read without running the phases. -/
  reentered : (e.serve phase entry later).executor.ctx.readRequestBodyDone = true →
    e.thread.runPhases < (e.serve phase entry later).executor.thread.runPhases

/-! ## The two starts -/

variable {e : Executor} {phase : Phase} {entry : Entry} {later : Option Bool}

/-- What a handler does to the status before it looks at the body. -/
def entrance (e : Executor) : Phase → Executor
  | .content => e.setRequestStatus 0
  | _ => e

@[simp] theorem entrance_ctx (e : Executor) (phase : Phase) : (e.entrance phase).ctx = e.ctx := by
  cases phase <;> rfl

/-- The entrance of a phase leaves the ctx and what has returned alone. -/
theorem entrance_thread (e : Executor) (phase : Phase) :
    (e.entrance phase).thread.moduleCtx = e.thread.moduleCtx ∧
      (e.entrance phase).thread.returned = e.thread.returned ∧
      (e.entrance phase).thread.runPhases = e.thread.runPhases := by
  cases phase <;> exact ⟨rfl, rfl, rfl⟩

/-- A handler that is entered makes its ctx, enters its phase and goes on behind the body. -/
theorem enter_eq (e : Executor) (phase : Phase) (ha : entry.allocated = true) :
    e.enter entry phase = (e.ensureCtx.entrance phase).handlePhase phase entry := by
  cases phase <;>
    simp [enter, rewriteInlineHandler, accessInlineHandler, contentInlineHandler, ha, entrance]

/-- A ctx of the handler's own says that a script has been started and has ended. -/
theorem ensureCtx_ctx (hm : e.thread.moduleCtx = false) : e.ensureCtx.ctx = {} := by
  simp [ensureCtx, hm, ctx, onCtx, onThread]

/-- A request with a ctx needs no other. -/
theorem ensureCtx_of_moduleCtx (hm : e.thread.moduleCtx = true) : e.ensureCtx = e :=
  if_pos hm

/-- The post read handler makes the first ctx. -/
theorem postReadHandler_ctx (hm : e.thread.moduleCtx = false) :
    e.postReadHandler.ctx = { phaseStatus := .declined, requestBodyMore := true } := by
  simp [postReadHandler, hm, ctx, onCtx, onThread]

/-- Behind the post read handler there is a ctx. -/
theorem postReadHandler_moduleCtx (e : Executor) : e.postReadHandler.thread.moduleCtx = true := by
  unfold postReadHandler
  split
  · assumption
  · rfl

/-! ## The body -/

/-- The routine of inline code does not run the phases. -/
theorem inlineRoutine_runPhases (e : Executor) (phase : Phase) (entry : Entry) :
    (e.inlineRoutine phase entry).thread.runPhases = e.thread.runPhases := by
  unfold inlineRoutine
  dsimp only
  split
  · rfl
  · rw [(answer_returns _ phase entry).runPhases, (leave_sameSegment _ _).runPhases]
    rfl

/-- A handler runs the phases only through the callback of the body. -/
theorem handlePhase_runPhases (h : e.readsBody entry = false) :
    (e.handlePhase phase entry).thread.runPhases = e.thread.runPhases := by
  unfold handlePhase
  rw [← readsBody, h, if_neg Bool.false_ne_true]
  split
  · exact inlineRoutine_runPhases e phase entry
  · exact (e.answer_returns phase entry).runPhases

/-- The callback of the body reader notes that the body has been read. -/
theorem readRequestBodyCallback_done (e : Executor) (data : Bool) :
    (e.readRequestBodyCallback data).ctx.readRequestBodyDone = true := by
  unfold readRequestBodyCallback
  dsimp only
  split
  · split <;> rfl
  · rfl

/-- Data that comes when no more is expected leaves the phases where they are. -/
theorem readRequestBodyCallback_runPhases (e : Executor) (data : Bool) :
    (e.readRequestBodyCallback data).thread.runPhases =
      if data && !e.ctx.requestBodyMore then e.thread.runPhases else e.thread.runPhases + 1 := by
  cases data with
  | false => rfl
  | true =>
    have hsame : (e.onCtx fun ctx => { ctx with readRequestBodyDone := true }).ctx.requestBodyMore =
        e.ctx.requestBodyMore := rfl
    unfold readRequestBodyCallback
    dsimp only
    rw [hsame, if_pos rfl]
    cases e.ctx.requestBodyMore <;> rfl

/-- What the handlers do about a body that has not been read. -/
def tryBody (e : Executor) (phase : Phase) : ReadBody → Executor
  | .failed rc => e.returns phase rc none
  | .again =>
    (e.onCtx fun ctx => { ctx with
      requestBodyMore := true
      readRequestBodyDone := false }).returns phase Rc.again.toInt none
  | .done data => (e.readRequestBodyCallback data).returns phase Rc.ok.toInt none

/-- A ctx is made while nothing returns. -/
theorem ensureCtx_thread (e : Executor) : e.ensureCtx.thread.returned = e.thread.returned ∧
    e.ensureCtx.thread.runPhases = e.thread.runPhases := by
  unfold ensureCtx
  split <;> exact ⟨rfl, rfl⟩

/-- The handler tries to read the body. -/
theorem enter_body (phase : Phase) (ha : entry.allocated = true) (hb : entry.hasBody = true)
    (hd : e.ensureCtx.ctx.readRequestBodyDone = false) :
    e.enter entry phase = (e.ensureCtx.entrance phase).tryBody phase entry.readBody := by
  rw [enter_eq e phase ha, handlePhase, entrance_ctx, hb, hd, if_pos (by decide)]
  rfl

/-- While the body is to be read, the handler neither starts its script nor skips it. -/
theorem serving_enter_body (hb : entry.hasBody = true)
    (hd : e.ensureCtx.ctx.readRequestBodyDone = false) :
    ({ executor := e } : Serving).enter phase entry = { executor := e.enter entry phase } := by
  simp [Serving.enter, callsRoutine, skipsRoutine, readsBody, hb, hd]

/-- A handler without a body to read is called once. -/
theorem serve_noBody (ha : entry.allocated = true) (hb : entry.hasBody = false) :
    e.serve phase entry later = ({ executor := e } : Serving).enter phase entry := by
  have hread : (e.ensureCtx.entrance phase).readsBody entry = false := by simp [readsBody, hb]
  have hruns : (e.enter entry phase).thread.runPhases = e.thread.runPhases := by
    rw [enter_eq e phase ha, handlePhase_runPhases hread, (entrance_thread _ phase).2.2,
      e.ensureCtx_thread.2]
  have hlt : ¬ e.thread.runPhases <
      (({ executor := e } : Serving).enter phase entry).executor.thread.runPhases := by
    rw [show (({ executor := e } : Serving).enter phase entry).executor = e.enter entry phase
      from rfl, hruns]
    exact Nat.lt_irrefl _
  simp only [serve, hb, Bool.false_and, Bool.false_eq_true, if_false]
  exact if_neg hlt

/-- The first call when the body is not read completely. -/
theorem serve_incomplete (e : Executor) (phase : Phase) (ha : entry.allocated = true)
    (hc : entry.bodyComplete later = false)
    (hd : e.ensureCtx.ctx.readRequestBodyDone = false) :
    ∃ e₁, e.serve phase entry later = { executor := e₁ } ∧
      e₁.ctx.readRequestBodyDone = false ∧ e₁.thread.running = none ∧
      e₁.thread.returned = ⟨phase, entry.readBody.rc, none⟩ :: e.thread.returned ∧
      e₁.thread.runPhases = e.thread.runPhases := by
  have hb : entry.hasBody = true := by
    by_contra hb
    simp [Entry.bodyComplete, hb] at hc
  obtain ⟨-, hret, hruns⟩ := entrance_thread e.ensureCtx phase
  rw [e.ensureCtx_thread.1] at hret
  rw [e.ensureCtx_thread.2] at hruns
  have hen := enter_body phase ha hb hd
  simp only [Entry.bodyComplete, hb, if_true] at hc
  cases hread : entry.readBody with
  | failed rc =>
    rw [hread] at hen
    have hsame : (e.enter entry phase).thread.runPhases = e.thread.runPhases := by
      rw [hen]
      exact hruns
    refine ⟨e.enter entry phase, ?_, ?_, ?_, ?_, hsame⟩
    · have hnot : decide (ReadBody.failed rc = .again) = false := rfl
      simp only [serve, serving_enter_body hb hd, hread, hnot, Bool.and_false, Bool.false_and,
        Bool.false_eq_true, if_false]
      exact if_neg (by rw [hsame]; exact Nat.lt_irrefl _)
    · rw [hen]
      exact (congrArg Ctx.readRequestBodyDone (entrance_ctx e.ensureCtx phase)).trans hd
    · rw [hen]
      rfl
    · rw [hen]
      exact congrArg (List.cons _) hret
  | again =>
    rw [hread] at hc
    cases later with
    | some data => simp at hc
    | none =>
      rw [hread] at hen
      have hsame : (e.enter entry phase).thread.runPhases = e.thread.runPhases := by
        rw [hen]
        exact hruns
      refine ⟨e.enter entry phase, ?_, ?_, ?_, ?_, hsame⟩
      · simp only [serve, serving_enter_body hb hd, hread, hb, Serving.bodyRead, ite_self]
        exact if_neg (by rw [hsame]; exact Nat.lt_irrefl _)
      · rw [hen]
        rfl
      · rw [hen]
        rfl
      · rw [hen]
        exact congrArg (List.cons _) hret
  | done data => simp [hread] at hc

/-- The handler is called again with the body read if the callback runs the phases. -/
theorem serve_complete (e : Executor) (phase : Phase) (ha : entry.allocated = true)
    (hb : entry.hasBody = true) (hc : entry.bodyComplete later = true)
    (hd : e.ensureCtx.ctx.readRequestBodyDone = false) :
    ∃ e₁ : Executor, e₁.thread.moduleCtx = true ∧
      e₁.ctx.phaseStatus = e.ensureCtx.ctx.phaseStatus ∧ e₁.ctx.readRequestBodyDone = true ∧
      (e.ensureCtx.ctx.requestBodyMore = true → e.thread.runPhases < e₁.thread.runPhases) ∧
      e.serve phase entry later =
        if e.thread.runPhases < e₁.thread.runPhases then
          ({ executor := e₁ } : Serving).enter phase entry
        else { executor := e₁ } := by
  obtain ⟨hm, -, hruns⟩ := entrance_thread e.ensureCtx phase
  rw [e.ensureCtx_thread.2] at hruns
  have hen := enter_body phase ha hb hd
  simp only [Entry.bodyComplete, hb, if_true] at hc
  cases hread : entry.readBody with
  | failed rc => simp [hread] at hc
  | again =>
    obtain ⟨data, rfl⟩ : ∃ data, later = some data := by
      rw [hread] at hc
      exact Option.isSome_iff_exists.mp hc
    rw [hread] at hen
    have hbr := (e.enter entry phase).bodyRead data
    have hmore : (e.enter entry phase).ctx.requestBodyMore = true := by
      rw [hen]
      rfl
    refine ⟨(e.enter entry phase).readRequestBodyCallback data, ?_, ?_,
      readRequestBodyCallback_done _ data, fun _ => ?_, ?_⟩
    · rw [hbr.moduleCtx, hen]
      exact hm.trans e.ensureCtx_moduleCtx
    · rw [hbr.phaseStatus, hen]
      change (e.ensureCtx.entrance phase).ctx.phaseStatus = _
      rw [entrance_ctx]
    · rw [readRequestBodyCallback_runPhases, hmore, Bool.not_true, Bool.and_false, if_neg (by simp),
        hen]
      exact Nat.lt_succ_of_le (Nat.le_of_eq hruns.symm)
    · have hnd : (e.enter entry phase).ctx.readRequestBodyDone = false := by
        rw [hen]
        rfl
      simp only [serve, serving_enter_body hb hd, hread, hb, hnd, Serving.bodyRead]
      rfl
  | done data =>
    rw [hread] at hen
    have hbr := (e.ensureCtx.entrance phase).bodyRead data
    refine ⟨e.enter entry phase, ?_, ?_, ?_, fun hmore => ?_, ?_⟩
    · rw [hen]
      exact hbr.moduleCtx.trans (hm.trans e.ensureCtx_moduleCtx)
    · rw [hen]
      exact hbr.phaseStatus.trans (congrArg Ctx.phaseStatus (entrance_ctx e.ensureCtx phase))
    · rw [hen]
      exact readRequestBodyCallback_done _ data
    · rw [hen]
      change _ < ((e.ensureCtx.entrance phase).readRequestBodyCallback data).thread.runPhases
      rw [readRequestBodyCallback_runPhases, entrance_ctx, hmore, Bool.not_true, Bool.and_false,
        if_neg (by simp)]
      exact Nat.lt_succ_of_le (Nat.le_of_eq hruns.symm)
    · simp only [serve, serving_enter_body hb hd, hread, hb]
      rfl

/-- The second call. -/
theorem enter_routines {e₁ : Executor} (hm : e₁.thread.moduleCtx = true)
    (hr : e₁.ctx.readRequestBodyDone = true) :
    (({ executor := e₁ } : Serving).enter phase entry).routines =
      if e₁.ctx.phaseStatus = .declined then 1 else 0 := by
  simp [Serving.enter, callsRoutine, readsBody, ensureCtx_of_moduleCtx hm, hr]

/-- With the ctx of the post-read phase the routine is called as soon as the body allows it. -/
theorem serve_postRead_routines (hm : e.thread.moduleCtx = false) (ha : entry.allocated = true)
    (hc : entry.bodyComplete later = true) :
    (e.postReadHandler.serve phase entry later).routines = 1 := by
  have hen : e.postReadHandler.ensureCtx = e.postReadHandler :=
    ensureCtx_of_moduleCtx e.postReadHandler_moduleCtx
  have hctx := postReadHandler_ctx hm
  cases hb : entry.hasBody with
  | false =>
    rw [serve_noBody ha hb]
    simp [Serving.enter, callsRoutine, readsBody, hb, hen, hctx]
  | true =>
    obtain ⟨e₁, hm₁, hp₁, hr₁, hrun, heq⟩ := serve_complete e.postReadHandler phase ha hb hc
      (by rw [hen, hctx])
    rw [heq, if_pos (hrun (by rw [hen, hctx])), enter_routines hm₁ hr₁, hp₁, hen, hctx]
    rfl

/-- With a ctx of the handler's own it is never called. -/
theorem serve_onDemand_routines (hm : e.thread.moduleCtx = false) (ha : entry.allocated = true)
    (hc : entry.bodyComplete later = true) : (e.serve phase entry later).routines = 0 := by
  have hctx := ensureCtx_ctx hm
  cases hb : entry.hasBody with
  | false =>
    rw [serve_noBody ha hb]
    simp [Serving.enter, callsRoutine, readsBody, hctx]
  | true =>
    obtain ⟨e₁, hm₁, hp₁, hr₁, -, heq⟩ := serve_complete e phase ha hb hc (by rw [hctx])
    rw [heq]
    split
    · rw [enter_routines hm₁ hr₁, hp₁, hctx]
      rfl
    · rfl

end Executor

open Executor

/-- A handler with a ctx of its own does what it does with that of the post-read phase exactly
when the body never lets it get as far as its script. -/
theorem onDemand_asPostRead_iff (e : Executor) (phase : Phase) (entry : Entry)
    (later : Option Bool) (hm : e.thread.moduleCtx = false) (ha : entry.allocated = true) :
    e.ServedAsPostRead phase entry later ↔ entry.bodyComplete later = false := by
  constructor
  · intro h
    by_contra hc
    rw [Bool.not_eq_false] at hc
    have h01 := h.same.routines
    rw [serve_onDemand_routines hm ha hc, serve_postRead_routines hm ha hc] at h01
    exact absurd h01 (by decide)
  · intro hc
    have hd : e.ensureCtx.ctx.readRequestBodyDone = false := by rw [ensureCtx_ctx hm]
    have hd' : e.postReadHandler.ensureCtx.ctx.readRequestBodyDone = false := by
      rw [ensureCtx_of_moduleCtx e.postReadHandler_moduleCtx, postReadHandler_ctx hm]
    obtain ⟨e₁, heq, hr, hrun, hret, hruns⟩ := serve_incomplete e phase ha hc hd
    obtain ⟨e₂, heq', -, hrun', hret', hruns'⟩ := serve_incomplete e.postReadHandler phase ha hc hd'
    have hpost : e.postReadHandler.thread.returned = e.thread.returned ∧
        e.postReadHandler.thread.runPhases = e.thread.runPhases := by
      unfold postReadHandler
      split <;> exact ⟨rfl, rfl⟩
    constructor
    · rw [heq, heq']
      constructor
      · rfl
      · exact hrun.trans hrun'.symm
      · exact hret.trans ((hpost.1 ▸ hret').symm)
      · exact hruns.trans ((hpost.2 ▸ hruns').symm)
    · rw [heq]
    · intro hdone
      rw [heq] at hdone
      exact absurd (hdone.symm.trans hr) (by decide)

/-- A request whose body is refused. -/
theorem onDemand_asPostRead_refused :
    (init 0 (keepaliveInit 0 0) .init 0).ServedAsPostRead .access
      { hasBody := true, readBody := .failed 413 } none :=
  (onDemand_asPostRead_iff _ .access _ none rfl rfl).mpr (by decide)

/-- After an internal redirect a request without a body is answered with a blank by its content
handler, whose script has not been run. -/
theorem onDemand_script_skipped :
    let e := init 0 (keepaliveInit 0 0) .init 0
    (e.serve .content {} none).executor.thread.returned = [⟨.content, 0, some ⟨200, [32]⟩⟩] ∧
      (e.postReadHandler.serve .content {} none).executor.thread.returned = [] ∧
      ¬ e.ServedAsPostRead .content {} none := by
  refine ⟨by decide, by decide, fun h => ?_⟩
  exact absurd h.skips (by decide)

end NgxPhp
