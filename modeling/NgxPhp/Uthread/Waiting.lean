import NgxPhp.Socket.Completion
import NgxPhp.Uthread.Invariant

/-!
# Wake-ups and waits

A suspended script waits for one operation, and every event of its timer and of its
connections resumes it. An event is expected when it belongs to that operation and
finds it ready to end.
-/

namespace NgxPhp

open StepMachine

/-- What the handler of an event works on, with upstream `u`. -/
def Session.woken (k : Session) (d : ConnId) (write : Bool) (how : Wake) (u : Upstream) : Sock :=
  { k with cy := k.cy.wake d write how }.sock u

/-- The event, whose handler is given `k`, completes, fails or times out the operation. -/
def Wait.EndedBy (w : Wait) (k : Sock) (d : ConnId) (write : Bool) (how : Wake)
    (ans : HandlerAnswers) : Prop :=
  match w with
  | .sleep => False
  | .connect c _ =>
    c = some d ∧ (write = true ∨ (how = .ready ∧ k.u.readEventHandler = .connected))
  | .send => write = true ∧ k.u.peer.connection = some d ∧ k.u.Blocked true ∧
      (how = .timedOut ∨ (k.handleEvent write ans).u.requestBufs = none ∨
        sendHandlerRc ans.send k = some .error)
  | .recv => write = false ∧ k.u.peer.connection = some d ∧ k.u.Blocked false ∧
      k.u.buffer.isSome = true ∧
      (how = .timedOut ∨ (k.handleEvent write ans).u.buffer = none ∨
        recvHandlerRc ans.recv k = some Rc.error.toInt)

/-- The event is the timeout of the operation or finds its last attempt: it comes from the
connection and the direction of the operation, no earlier timeout is left in the flag that the
handler tests, and the answers end the transfer. -/
def Wait.Expects (w : Wait) (k : Sock) (d : ConnId) (write : Bool) (how : Wake)
    (ans : HandlerAnswers) : Prop :=
  match w with
  | .sleep => False
  | .connect c _ =>
    c = some d ∧ (write = true ∨ (how = .ready ∧ k.u.readEventHandler = .connected))
  | .send => write = true ∧ k.u.peer.connection = some d ∧
      (how = .timedOut ∨ ((k.cy.connections d).write.timedout = false ∧
        ans.send.ends (k.u.requestBufs.getD []).length = true))
  | .recv => write = false ∧ k.u.peer.connection = some d ∧ k.u.buffer.isSome = true ∧
      (how = .timedOut ∨ ((k.cy.connections d).read.timedout = false ∧ ans.recv.ends = true))

instance Wait.decidableExpects (w : Wait) (k : Sock) (d : ConnId) (write : Bool) (how : Wake)
    (ans : HandlerAnswers) : Decidable (w.Expects k d write how ans) := by
  cases w <;> unfold Wait.Expects <;> infer_instance

/-- A transfer that is waited for is blocked. -/
def Wait.Stands (w : Wait) (u : Option Upstream) : Prop :=
  match w with
  | .send => ∃ u' ∈ u, u'.Blocked true
  | .recv => ∃ u' ∈ u, u'.Blocked false
  | _ => True

/-! ## One event -/

/-- The send handler is run on a connection that has just become writable. -/
theorem send_endedBy {k : Session} {u : Upstream} {d : ConnId} {how : Wake} {ans : HandlerAnswers}
    (hb : u.Blocked true) (h : Wait.send.Expects (k.sock u) d true how ans) :
    Wait.send.EndedBy (k.woken d true how u) d true how ans := by
  obtain ⟨_, hc, hend⟩ := h
  refine ⟨rfl, hc, hb, ?_⟩
  cases how with
  | timedOut => exact Or.inl rfl
  | ready =>
    obtain ⟨ht, hends⟩ := hend.resolve_left (by simp)
    obtain ⟨bytes, hbytes⟩ := Option.isSome_iff_exists.mp hb.2.1
    have hends : ans.send.ends bytes.length = true := by
      change ans.send.ends (u.requestBufs.getD []).length = true at hends
      simpa [hbytes] using hends
    have ht' : ((k.woken d true .ready u).cy.connections d).write.timedout = false := by
      simpa [Session.woken, Session.sock, Cycle.wake, Event.wake] using ht
    have hrun : (k.woken d true .ready u).handleEvent true ans =
        sendHandler ans.send (k.woken d true .ready u) := by
      simp only [Sock.handleEvent, Upstream.eventHandler, if_true]
      rw [show (k.woken d true .ready u).u.writeEventHandler = .send from hb.2.2]
      rfl
    rw [hrun]
    exact Or.inr (sendHandler_ends hc hbytes ht' hends)

/-- The receive handler is run on a connection that has just become readable. -/
theorem recv_endedBy {k : Session} {u : Upstream} {d : ConnId} {how : Wake} {ans : HandlerAnswers}
    (hb : u.Blocked false) (h : Wait.recv.Expects (k.sock u) d false how ans) :
    Wait.recv.EndedBy (k.woken d false how u) d false how ans := by
  obtain ⟨_, hc, hbuf, hend⟩ := h
  refine ⟨rfl, hc, hb, hbuf, ?_⟩
  cases how with
  | timedOut => exact Or.inl rfl
  | ready =>
    obtain ⟨ht, hends⟩ := hend.resolve_left (by simp)
    have ht' : ((k.woken d false .ready u).cy.connections d).read.timedout = false := by
      simpa [Session.woken, Session.sock, Cycle.wake, Event.wake] using ht
    have hr' : ((k.woken d false .ready u).cy.connections d).read.ready = true := by
      simp [Session.woken, Session.sock, Cycle.wake, Event.wake]
    have hrun : (k.woken d false .ready u).handleEvent false ans =
        upstreamRecvHandler ans.recv (k.woken d false .ready u) := by
      simp only [Sock.handleEvent, Upstream.eventHandler, Bool.false_eq_true, if_false]
      rw [show (k.woken d false .ready u).u.readEventHandler = .recv from hb.2]
      rfl
    rw [hrun]
    exact Or.inr (upstreamRecvHandler_ends hc hbuf ht' hr' hends)

/-- An expected event ends the operation. -/
theorem Wait.Stands.endedBy {w : Wait} {k : Session} {u : Upstream} {d : ConnId} {write : Bool}
    {how : Wake} {ans : HandlerAnswers} (hs : w.Stands (some u))
    (h : w.Expects (k.sock u) d write how ans) :
    w.EndedBy (k.woken d write how u) d write how ans := by
  cases w with
  | sleep => exact h
  | connect c q => exact h
  | send =>
    obtain ⟨_, ⟨⟩, hb⟩ := hs
    obtain rfl := h.1
    exact send_endedBy hb h
  | recv =>
    obtain ⟨_, ⟨⟩, hb⟩ := hs
    obtain rfl := h.1
    exact recv_endedBy hb h

/-! ## Calls and answers -/

/-- What a call leaves to wait for stands. -/
theorem Session.call_stands {k k' : Session} {c : Call} {v : PhpValue}
    (h : k.call c = some (v, k')) : ∀ w ∈ c.waits v k k', w.Stands k'.ctx.upstream := by
  intro w hw
  cases c with
  | sleep time =>
    obtain rfl := Option.mem_some_iff.mp hw
    trivial
  | msleep time =>
    obtain rfl := Option.mem_some_iff.mp hw
    trivial
  | connect s type addr port ans =>
    simp only [Call.waits] at hw
    split at hw
    · obtain rfl := Option.mem_some_iff.mp hw
      trivial
    · cases hw
  | send s buf len ans =>
    simp only [Call.waits] at hw
    split at hw
    · next hv =>
      obtain rfl := Option.mem_some_iff.mp hw
      simp only [call, ngxSocketSend] at h
      split at h
      · obtain ⟨rfl, rfl⟩ := Prod.mk.inj (Option.some.inj h)
        cases hv
      · obtain ⟨u, _, h⟩ := Option.map_eq_some_iff.mp h
        obtain ⟨rfl, rfl⟩ := Prod.mk.inj h
        refine ⟨_, rfl, socketSend_blocked rfl ?_⟩
        have hn := PhpValue.int.inj hv
        generalize (socketSend ans _).1 = rc at hn
        cases rc <;> first | rfl | cases hn
    · cases hw
  | recv s buf len ans =>
    simp only [Call.waits] at hw
    split at hw
    · next hv =>
      obtain rfl := Option.mem_some_iff.mp hw
      obtain ⟨u, _, h⟩ := Option.map_eq_some_iff.mp h
      obtain ⟨rfl, rfl⟩ := Prod.mk.inj h
      have hn := PhpValue.int.inj hv
      exact ⟨_, rfl, socketRecv_blocked fun he => absurd (hn.symm.trans he) (by decide)⟩
    · cases hw
  | _ => cases hw

/-- A late answer that gives the request no connection. -/
theorem Session.resolved_stands {k : Session} {q : Query} {ans : ResolveAnswers} {w : Wait}
    (h : w = .send ∨ w = .recv → ∀ u ∈ k.ctx.upstream, ans.stores k.kc u.resolved = none)
    (hs : w.Stands k.ctx.upstream) (given : Option ConnId) :
    (w.resolved q given).Stands (k.onSock fun u => u.resolved q ans).ctx.upstream := by
  have hblocked : ∀ write, (∀ u ∈ k.ctx.upstream, ans.stores k.kc u.resolved = none) →
      (∃ u ∈ k.ctx.upstream, u.Blocked write) →
      ∃ u ∈ (k.onSock fun u => u.resolved q ans).ctx.upstream, u.Blocked write := by
    rintro write hstores ⟨u, hu, hb⟩
    obtain hu : k.ctx.upstream = some u := hu
    refine ⟨_, by rw [onSock, hu]; rfl, ?_⟩
    exact resolveHandler_blocked ans q.resource
      (k := (k.sock u).onUpstream fun u => { u with queries := u.queries.erase q })
      (hstores u hu) hb
  cases w with
  | sleep => trivial
  | connect c q' =>
    simp only [Wait.resolved]
    split <;> trivial
  | send => exact hblocked true (h (Or.inl rfl)) hs
  | recv => exact hblocked false (h (Or.inr rfl)) hs

namespace Executor

variable {e e' : Executor} {phase : Phase} {entry : Entry}

/-- A step that leads to a resume of a script that waits ends the operation it waits for. -/
def Matched (e : Executor) (l : ThreadStep) : Prop :=
  e.thread.running ≠ some .handler → (e.step l).thread.running = some .handler →
    e.ctx.generatorClosure = some (.generator true) → ∀ w ∈ e.thread.waiting,
      match l with
      | .sleepTimer => w = .sleep
      | .event d write how ans => ∃ u ∈ e.ctx.upstream,
          w.EndedBy (e.thread.session.woken d write how u) d write how ans
      | _ => False

/-- An event that comes while a script waits is expected, and no connect is given a connection
by the resolver while the script waits for a transfer. -/
def Expected (e : Executor) (l : ThreadStep) : Prop :=
  e.Enabled l → e.ctx.generatorClosure = some (.generator true) → ∀ w ∈ e.thread.waiting,
    match l with
    | .sleepTimer => w = .sleep
    | .event d write how ans => ∀ u ∈ e.ctx.upstream,
        w.Expects (e.thread.session.sock u) d write how ans
    | .resolved _ ans => w = .send ∨ w = .recv →
        ∀ u ∈ e.ctx.upstream, ans.stores e.thread.session.kc u.resolved = none
    | _ => True

instance decidableExpected (e : Executor) (l : ThreadStep) : Decidable (e.Expected l) := by
  unfold Expected
  match l with
  | .postRead | .enter _ _ | .bodyRead _ | .act _ | .stop _ | .event _ _ _ _ | .sleepTimer
  | .resume _ _ | .resolved _ _ | .tables _ _ | .status _ => infer_instance

/-! ## What the handlers leave of a suspended script -/

/-- They start another script, take the closure away, or leave it and its socket as they are. -/
inductive Leaves (e e' : Executor) : Prop
  | started (hr : e'.scriptRuns = true) (hl : e'.thread.lastWait = none)
  | dropped (hr : e'.thread.running = none)
    (hg : e'.ctx.generatorClosure ≠ some (.generator true))
  | kept (hr : e'.thread.running = none) (hc : e'.ctx.upstream = e.ctx.upstream)
    (hg : e'.ctx.generatorClosure = e.ctx.generatorClosure)
    (hw : e'.thread.waiting = e.thread.waiting)

/-- A handler that has answered leaves a suspended script as it was. -/
theorem Answered.leaves (h : e.Answered e') : e.Leaves e' := by
  cases h with
  | parked _ hctx _ hr hw => exact .kept hr (by rw [hctx]) (by rw [hctx]) hw
  | finished _ _ hg _ hr =>
    refine .dropped hr ?_
    rw [hg]
    simp

/-- The routine of inline code starts its own script or leaves the suspended one. -/
theorem inlineRoutine_leaves (hm : e.thread.moduleCtx = true) :
    e.Leaves (e.inlineRoutine phase entry) := by
  unfold inlineRoutine
  dsimp only
  split
  · exact .started rfl rfl
  · next status _ =>
    have hl := leave_sameSegment ((e.setPhaseStatus .ok).setRequestStatus Rc.declined.toInt)
      (.bailout (.error status))
    cases answer_answered _ phase entry (hl.moduleCtx.trans hm) with
    | parked hs =>
      rw [leave_ctx] at hs
      cases hs
    | finished _ _ hg _ hr =>
      refine .dropped hr ?_
      rw [hg]
      simp

/-- A handler behind the body leaves a suspended script as it was or starts its own. -/
theorem handlePhase_leaves (hm : e.thread.moduleCtx = true) :
    e.Leaves (e.handlePhase phase entry) := by
  rcases handlePhase_cases e phase entry with ⟨e₁, rc, hb, heq⟩ | heq | heq
  · rw [heq]
    exact .kept rfl hb.upstream hb.generatorClosure hb.waiting
  · rw [heq]
    exact inlineRoutine_leaves hm
  · rw [heq]
    exact (answer_answered e phase entry hm).leaves

/-- A ctx that a handler has just made has no closure. -/
theorem Leaves.of_ensureCtx (h : e.ensureCtx.Leaves e') : e.Leaves e' := by
  unfold ensureCtx at h
  split at h
  · exact h
  · cases h with
    | started hr hl => exact .started hr hl
    | dropped hr hg => exact .dropped hr hg
    | kept hr hc hg hw =>
      refine .dropped hr ?_
      rw [hg]
      simp [ctx, onCtx, onThread]

/-- The entry of a handler leaves a suspended script as it was or starts its own. -/
theorem enter_leaves : e.Leaves (e.enter entry phase) := by
  rcases enter_cases e phase entry with heq | ⟨_, _, heq⟩ | ⟨_, heq⟩
  · rw [heq]
    exact .kept rfl rfl rfl rfl
  · rw [heq]
    exact (handlePhase_leaves e.ensureCtx_moduleCtx).of_ensureCtx
  · rw [heq]
    -- the status is none of what is left
    refine Leaves.of_ensureCtx ?_
    have h : (e.ensureCtx.setRequestStatus 0).Leaves
        ((e.ensureCtx.setRequestStatus 0).handlePhase phase entry) :=
      handlePhase_leaves e.ensureCtx_moduleCtx
    cases h with
    | started hr hl => exact .started hr hl
    | dropped hr hg => exact .dropped hr hg
    | kept hr hc hg hw => exact .kept hr hc hg hw

/-- A handler that leaves the script runs none. -/
theorem Leaves.running (h : e.Leaves e') : e'.thread.running ≠ some .handler := by
  intro hr
  cases h with
  | started hs => simp [scriptRuns, hr] at hs
  | dropped hn => simp [hn] at hr
  | kept hn => simp [hn] at hr

/-- Behind the end of a segment no handler has its script running. -/
theorem stop_running (hi : e.ScriptInv) (hr : e.thread.running ≠ some .handler) (s : Stop) :
    (e.stop s).thread.running ≠ some .handler := by
  unfold stop
  split
  · next hc =>
    split
    · have hm := (leave_sameSegment e s).moduleCtx.trans (hi.moduleCtx (by simp [hc]))
      exact (answer_answered _ _ _ ((createEnd_frame _ _ _).1.trans hm)).leaves.running
    · exact hr
  · next hc =>
    split
    · rw [resumeEnd_eq (by rw [leave_ctx]; exact hi.open_ (hi.moduleCtx (by simp [hc])))]
      split <;> simp [setRunning, setClosure, setPhaseStatus, runPhases, onCtx, onThread]
    · exact hr
  · exact hr

/-- Only events lead to a resume. -/
theorem step_handler {l : ThreadStep} (hi : e.ScriptInv) (hr : e.thread.running ≠ some .handler)
    (h : (e.step l).thread.running = some .handler) :
    e.Enabled l ∧ (l = .sleepTimer ∨ ∃ d write how ans, l = .event d write how ans) := by
  unfold Executor.step at h
  split at h
  · next hen =>
    refine ⟨hen, ?_⟩
    cases l with
    | postRead =>
      simp only [perform, postReadHandler] at h
      split at h <;> exact absurd h hr
    | enter phase entry => exact absurd h enter_leaves.running
    | bodyRead data =>
      exact absurd ((e.bodyRead data).running.symm.trans h) hr
    | act a => exact absurd ((act_sameSegment e a).running ▸ h) hr
    | stop s => exact absurd h (stop_running hi hr s)
    | event d write how ans => exact Or.inr ⟨d, write, how, ans, rfl⟩
    | sleepTimer => exact Or.inl rfl
    | resume => exact absurd hen hr
    | resolved => exact absurd h hr
    | tables => exact absurd h hr
    | status => exact absurd h hr
  · exact absurd h hr

/-! ## The invariant -/

/-- A transfer that is waited for, or would be if the script yielded now, is blocked. -/
structure WaitInv (e : Executor) : Prop where
  script : e.ScriptInv
  running : e.scriptRuns = true → ∀ w ∈ e.thread.lastWait, w.Stands e.ctx.upstream
  idle : e.thread.running = none → e.ctx.generatorClosure = some (.generator true) →
    ∀ w ∈ e.thread.waiting, w.Stands e.ctx.upstream

/-- Where nothing runs, no script runs. -/
theorem scriptRuns_of_none (hr : e.thread.running = none) : e.scriptRuns = false := by
  simp [scriptRuns, hr]

/-- Where nothing runs, the operation that is waited for must be blocked. -/
theorem WaitInv.of_idle (hi : e.ScriptInv) (hr : e.thread.running = none)
    (hw : e.ctx.generatorClosure = some (.generator true) →
      ∀ w ∈ e.thread.waiting, w.Stands e.ctx.upstream) : e.WaitInv :=
  ⟨hi, fun hs => by simp [scriptRuns_of_none hr] at hs, fun _ => hw⟩

/-- Between segments nothing is to be shown. -/
theorem WaitInv.of_handler (hi : e.ScriptInv) (hr : e.thread.running = some .handler) :
    e.WaitInv :=
  ⟨hi, fun hs => by simp [scriptRuns, hr] at hs, fun hn => by simp [hr] at hn⟩

/-- What leaves a suspended script keeps the invariant. -/
theorem Leaves.waitInv (h : e.Leaves e') (hi : e'.ScriptInv)
    (hw : e.ctx.generatorClosure = some (.generator true) →
      ∀ w ∈ e.thread.waiting, w.Stands e.ctx.upstream) : e'.WaitInv := by
  cases h with
  | started hr hl =>
    refine ⟨hi, fun _ w hmem => ?_, fun hn => ?_⟩
    · rw [hl] at hmem
      cases hmem
    · rw [scriptRuns_of_none hn] at hr
      cases hr
  | dropped hr hg => exact .of_idle hi hr fun hgen => absurd hgen hg
  | kept hr hc hg hwait =>
    refine .of_idle hi hr ?_
    rw [hc, hg, hwait]
    exact hw

/-- An action of the script keeps the invariant. -/
theorem act_waitInv (h : e.WaitInv) (hr : e.scriptRuns = true) (a : Action) :
    (e.act a).WaitInv := by
  have hs := act_sameSegment e a
  refine ⟨hs.scriptInv h.script, fun _ => ?_, fun hn => ?_⟩
  · have hlast := h.running hr
    unfold act
    split
    · split
      · next hcall => exact Session.call_stands hcall
      · exact hlast
    · exact hlast
    · exact hlast
    · split <;> exact hlast
  · rw [scriptRuns, ← hs.running, hn] at hr
    cases hr

/-- The script yields, so what its last call has left is waited for. -/
theorem suspend_stands (hl : ∀ w ∈ e.thread.lastWait, w.Stands e.ctx.upstream) (operand : Bool) :
    ∀ w ∈ (e.suspend operand).thread.waiting, w.Stands e.ctx.upstream := by
  intro w hw
  cases operand with
  | true => exact hl w hw
  | false => cases hw

/-- A script that is suspended waits for its last operation, which is blocked. -/
theorem createEnd_waits_stand (hl : ∀ w ∈ e.thread.lastWait, w.Stands e.ctx.upstream)
    (kind : ScriptKind) (s : Stop)
    (hg : (e.createEnd kind s).ctx.generatorClosure = some (.generator true)) :
    ∀ w ∈ (e.createEnd kind s).thread.waiting,
      w.Stands (e.createEnd kind s).ctx.upstream := by
  cases s with
  | suspend operand => exact suspend_stands hl operand
  | finish => cases kind <;> cases hg
  | object valid => rcases valid with _ | _ | _ <;> cases hg
  | bailout b => cases hg

/-- Leaving a segment does not change what was waited for last. -/
theorem leave_lastWait (e : Executor) (s : Stop) :
    (e.leave s).thread.lastWait = e.thread.lastWait := by
  unfold leave
  split <;> rfl

/-- The end of a segment keeps the invariant. -/
theorem stop_waitInv (h : e.WaitInv) (hr : e.scriptRuns = true) (s : Stop) :
    (e.stop s).WaitInv := by
  have hi := stop_scriptInv h.script s
  have hs := leave_sameSegment e s
  have hl : ∀ w ∈ (e.leave s).thread.lastWait, w.Stands (e.leave s).ctx.upstream := by
    rw [leave_lastWait, leave_ctx]
    exact h.running hr
  revert hi
  unfold stop
  split
  · next phase kind entry hc =>
    split
    · have hm := hs.moduleCtx.trans (h.script.moduleCtx (by simp [hc]))
      have hleaves := (answer_answered _ phase entry
        ((createEnd_frame (e.leave s) kind s).1.trans hm)).leaves
      exact fun hi => hleaves.waitInv hi (createEnd_waits_stand hl kind s)
    · exact fun _ => h
  · next hc =>
    split
    · next hstops =>
      have ho : (e.leave s).ctx.endOfRequest = false := by
        rw [leave_ctx]
        exact h.script.open_ (h.script.moduleCtx (by simp [hc]))
      rw [resumeEnd_eq ho]
      intro hi
      -- only the closure of a plain function's object goes on after an object
      have hobject : ∀ valid, s = .object valid →
          (e.leave s).ctx.generatorClosure ≠ some (.generator true) := by
        rintro valid rfl hg
        rw [leave_ctx] at hg
        simp [hg, Closure.stops, ScriptKind.stops] at hstops
      refine .of_idle hi ?_ fun hg => ?_
      · split <;> rfl
      · rcases s with operand | _ | (_ | _ | _) | b
        · exact suspend_stands hl operand
        · cases hg
        · exact absurd hg (hobject none rfl)
        · cases hg
        · exact absurd hg (hobject (some true) rfl)
        · cases hg
    · exact fun _ => h
  · exact fun _ => h

/-- A resume keeps the invariant. -/
theorem resume_waitInv (h : e.WaitInv) (hr : e.thread.running = some .handler)
    (readEvent : Rc) (method : Bool) : (e.resume readEvent method).WaitInv := by
  have hi := resume_scriptInv h.script hr readEvent method
  have hbegin : (e.beginSegment .resume).ScriptInv → (e.beginSegment .resume).WaitInv := fun hi =>
    ⟨hi, fun _ _ hw => (by cases hw), fun hn => (by cases hn)⟩
  revert hi
  unfold Executor.resume
  split
  · next hg =>
    refine fun hi => .of_idle hi rfl fun hgen => ?_
    have hs := Session.clear_sameHandler e.thread.session readEvent
    have hnone := hs.generatorClosure.symm.trans hgen
    rw [show e.thread.session.ctx.generatorClosure = none from hg] at hnone
    cases hnone
  · exact hbegin
  · next hg =>
    split
    · exact hbegin
    · refine fun hi => .of_idle hi rfl fun hgen => ?_
      rw [show (e.setRunning none).ctx.generatorClosure = some .object from hg] at hgen
      cases hgen
  · exact fun _ => h
  · exact fun _ => h

/-- Each expected step keeps the invariant. -/
theorem WaitInv.step (h : e.WaitInv) {l : ThreadStep} (hexp : e.Expected l) :
    (e.step l).WaitInv := by
  have hi := h.script.step l
  revert hi
  unfold Executor.step
  split
  · next hen =>
    cases l with
    | postRead =>
      simp only [perform, postReadHandler]
      split
      · exact fun _ => h
      · refine fun hi => .of_idle hi hen fun hg => ?_
        simp [ctx, onCtx, onThread] at hg
    | enter phase entry => exact fun hi => enter_leaves.waitInv hi (h.idle hen)
    | bodyRead data =>
      have hb := e.bodyRead data
      refine fun hi => .of_idle hi (hb.running.trans hen.1) ?_
      rw [perform, hb.generatorClosure, hb.waiting, hb.upstream]
      exact h.idle hen.1
    | act a => exact fun _ => act_waitInv h hen a
    | stop s => exact fun _ => stop_waitInv h hen s
    | event d write how ans => exact fun hi => .of_handler hi rfl
    | sleepTimer => exact fun hi => .of_handler hi rfl
    | resume readEvent method => exact fun _ => resume_waitInv h hen readEvent method
    | resolved q ans =>
      refine fun hi => .of_idle hi hen.1 fun hg w hw => ?_
      have hs := Session.onSock_sameHandler e.thread.session fun u => u.resolved q ans
      have hgen : e.ctx.generatorClosure = some (.generator true) :=
        hs.generatorClosure.symm.trans hg
      obtain ⟨w, hmem, rfl⟩ := Option.map_eq_some_iff.mp hw
      exact Session.resolved_stands (hexp hen hgen w hmem) (h.idle hen.1 hgen w hmem) _
    | tables kc cy => exact fun hi => .of_idle hi hen (h.idle hen)
    | status n => exact fun hi => .of_idle hi hen (h.idle hen)
  · exact fun _ => h

/-- A request starts with the invariant. -/
theorem init_waitInv (r : ReqId) (kc : KeepaliveConf) (cy : Cycle) (exitStatus : Int) :
    (init r kc cy exitStatus).WaitInv :=
  .of_idle (init_scriptInv r kc cy exitStatus) rfl fun hg => by cases hg

/-- Under the invariant an expected event ends the operation that is waited for. -/
theorem WaitInv.matched (h : e.WaitInv) {l : ThreadStep} (hexp : e.Expected l) :
    e.Matched l := by
  intro hr hnext hg w hw
  obtain ⟨hen, rfl | ⟨d, write, how, ans, rfl⟩⟩ := step_handler h.script hr hnext
  · exact hexp hen hg w hw
  · obtain ⟨u, hu⟩ := Option.isSome_iff_exists.mp hen.2.2.1
    have hstands := h.idle hen.1 hg w hw
    rw [hu] at hstands
    exact ⟨u, hu, hstands.endedBy (hexp hen hg w hw u hu)⟩

end Executor

/-- In every run in which a waiting script is only met by expected events, each resume of a
waiting script comes from an event that ends the operation it waits for. -/
theorem wakes_matched {r : ReqId} {kc : KeepaliveConf} {cy : Cycle} {exitStatus : Int}
    {ls : List ThreadStep}
    (h : Along Executor.step Executor.Expected (Executor.init r kc cy exitStatus) ls) :
    Along Executor.step Executor.Matched (Executor.init r kc cy exitStatus) ls :=
  h.transfer (fun _ _ hi hl => hi.step hl) (fun _ _ hi hl => hi.matched hl)
    (Executor.init_waitInv r kc cy exitStatus)

/-- A script that connects, sends and receives, each time waiting for the result. -/
theorem wakes_matched_in_turn :
    Along Executor.step Executor.Matched (Executor.init 0 (keepaliveInit 0 0) .init 0)
      [.postRead, .enter .content {},
        .act (.call (.connect 0 (some afInet) [] 80
          { parseUrl := .address [], retval := { connect := .inProgress 7 } })),
        .stop (.suspend true), .event 7 true .ready {}, .resume .ok true,
        .act (.call (.send 0 [1, 2] 2 { sends := [.accepted 1] })), .stop (.suspend true),
        .event 7 true .ready { send := { sends := [.accepted 1] } }, .resume .ok true,
        .act (.call (.recv 0 {} 8 { recv := .again })), .stop (.suspend true),
        .event 7 false .ready { recv := { recv := .data 3 [] } }, .resume .ok true,
        .act (.call (.sleep 1)), .stop (.suspend true), .sleepTimer, .resume .ok true,
        .stop .finish] :=
  wakes_matched (by decide)

/-- A script that sleeps for ten seconds with a connection open is resumed as soon as the
connection is writable. -/
theorem ngxSleep_cut_short :
    let e := run Executor.step (Executor.init 0 (keepaliveInit 0 0) .init 0)
      [.postRead, .enter .content {},
        .act (.call (.connect 0 (some afInet) [] 80
          { parseUrl := .address [], retval := { connect := .established 7 } })),
        .act (.call (.sleep 10)), .stop (.suspend true)]
    e.thread.waiting = some .sleep ∧
      (run Executor.step e [.event 7 true .ready {}, .resume .ok true]).thread.running =
        some .resume ∧
      ¬ e.Matched (.event 7 true .ready {}) := by
  refine ⟨by decide, by decide, fun h => ?_⟩
  obtain ⟨u, _, hend⟩ := h (by decide) (by decide) (by decide) .sleep (by decide)
  exact hend

end NgxPhp
