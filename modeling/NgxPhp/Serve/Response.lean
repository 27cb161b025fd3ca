import NgxPhp.Serve.Framing

/-!
# One header for a request

All handlers send with the same few lines: the header, and if that succeeds the whole
chain, and the ctx goes away. A handler that is called once does so once, except for
`HEAD`, where the header is sent twice. What calls a handler again is a nested loop
of the phases, or a header that could not be sent.
-/

open StepMachine Ledger

namespace NgxPhp

/-- The call of `ngx_http_send_header` by this handler. -/
def Occurrence.sendsHeader (h : Handler) : Occurrence → Bool
  | .sendHeader h' _ _ => h' = h
  | _ => false

/-- The record goes on behind the header: the whole chain is passed on, the ctx goes and the
handler returns. -/
def AnsweredBy (h : Handler) (history : List Occurrence) : Prop :=
  ∃ after chain filtered ho before,
    history = after ++ .returned h h.success :: .ctxCleared chain :: .outputFilter h chain ::
      (filtered ++ .sendHeader h 0 ho :: before) ∧
    ∀ o ∈ filtered, o.ofSending = false

namespace Service

variable {s t u : Service}

/-- The ways of a handler: it sends nothing, only tries to send the header, or sends the response
and returns `done`. -/
inductive Sends (h : Handler) (done : Int) (s : Service) : Int × Service → Prop
  | nothing {rc t} (quiet : Quiet s t) : Sends h done s (rc, t)
  | header {rc t u ho} (quiet : Quiet s u) (fails : rc ≠ 0)
      (history : t.history = .sendHeader h rc ho :: u.history) : Sends h done s (rc, t)
  | response {t u chain filtered ho} (quiet : Quiet s u)
      (filter : ∀ o ∈ filtered, o.ofSending = false) (ctx : t.ctx = none)
      (history : t.history = .ctxCleared chain :: .outputFilter h chain ::
        (filtered ++ .sendHeader h 0 ho :: u.history)) : Sends h done s (done, t)

/-- What comes before is quiet. -/
theorem Sends.after {h : Handler} {done : Int} {r : Int × Service} (hq : Quiet s t)
    (hs : t.Sends h done r) : s.Sends h done r := by
  cases hs with
  | nothing quiet => exact .nothing (hq.trans quiet)
  | header quiet fails history => exact .header (hq.trans quiet) fails history
  | response quiet filter ctx history => exact .response (hq.trans quiet) filter ctx history

/-- The call of `ngx_http_send_header` in the record. -/
theorem sendHeader_history (s : Service) (h : Handler) (a : HeaderAnswer) :
    ∃ u ho, Quiet s u ∧
      (s.sendHeader h a).2.history = .sendHeader h (s.sendHeader h a).1 ho :: u.history := by
  unfold sendHeader
  split
  · exact ⟨s, none, .refl s, rfl⟩
  · exact ⟨_, _, s.filter_quiet .ngxHeaderFilter a.filter, rfl⟩

/-- The body goes out behind one header. -/
theorem sendBody_sends_once (s : Service) (h : Handler) (done : Int) (a : OutputAnswers) :
    s.Sends h done (s.sendBody h done a) := by
  obtain ⟨u, ho, hq, hhist⟩ := s.markLastBuf.sendHeader_history h a.header
  have hmark : Quiet s u := Adds.trans (adds_of_eq rfl) hq
  unfold sendBody
  split
  next rc t ht =>
    rw [ht] at hhist
    split
    next hrc => exact .header hmark hrc hhist
    next hrc =>
      rw [not_not] at hrc
      subst hrc
      have hend : (t.endRequest h).history = t.history := by
        cases h <;> rfl
      obtain ⟨filtered, hf, hnone⟩ := (t.endRequest h).filter_quiet .ngxBodyFilter a.bodyFilter
      have hfilter := congrArg (fun l => Occurrence.ctxCleared
        ((t.endRequest h).outputFilter h a.bodyFilter).chain :: .outputFilter h
          ((t.endRequest h).outputFilter h a.bodyFilter).chain :: l) hf
      rw [hend, hhist] at hfilter
      exact .response hmark hnone rfl hfilter

/-- Without a second call for `HEAD` the shared lines send once. -/
theorem sendOutput_sends_once (s : Service) (m : Method) (h : Handler) (done : Int)
    {a : OutputAnswers} (hm : m.head = false ∨ a.headHeader.rc ≠ 0) :
    s.Sends h done (s.sendOutput m h done a) := by
  have hstart : Quiet s (s.onHeaders fun o =>
      { o with status := if o.status = 0 then 200 else o.status }) := adds_of_eq rfl
  unfold sendOutput
  dsimp only
  by_cases hhead : m.head = true
  · rw [if_pos hhead]
    have hrc := hm.resolve_left (by rw [hhead]; exact Bool.noConfusion)
    generalize (s.onHeaders fun o =>
      { o with status := if o.status = 0 then 200 else o.status }) = t at hstart ⊢
    obtain ⟨u, ho, hq, hhist⟩ := t.sendHeader_history h a.headHeader
    have hfst : (t.sendHeader h a.headHeader).1 ≠ 0 := by
      cases hsent : t.headerSent with
      | true =>
        rw [(t.sendHeader_twice h a.headHeader hsent).1]
        decide
      | false => exact ne_of_eq_of_ne (t.sendHeader_spec h a.headHeader hsent).1 hrc
    rw [if_pos hfst]
    exact .header (hstart.trans hq) hfst hhist
  · rw [if_neg hhead]
    exact (sendBody_sends_once _ h done a).after hstart

/-- A reply sends one header, if for `HEAD` it fails at once. -/
theorem Replies.sends_once {m : Method} {h : Handler} {done : Int} {a : OutputAnswers}
    {r : Int × Service} (hr : s.Replies m h done a r)
    (hm : m.head = false ∨ a.headHeader.rc ≠ 0) : s.Sends h done r := by
  cases hr with
  | stays rc => exact .nothing (.refl s)
  | settles go output =>
    have hfin := s.finishPhase_quiet
    cases output with
    | silent rc => exact .nothing hfin
    | sends => exact (sendOutput_sends_once _ m h done hm).after (hfin.trans (blank_adds _))

/-- A file handler sends one response at most. -/
theorem handleFile_sends_once (s : Service) {m : Method} (phase : Phase) {a : CallAnswers}
    (hm : m.head = false ∨ a.output.headHeader.rc ≠ 0) :
    s.Sends (.file phase) (Handler.success (.file phase)) (s.handleFile m phase a) := by
  unfold handleFile
  split
  · exact ((fileAnswer_cases _ m a.output phase).sends_once hm).after
      (s.fileRoutine_adds phase a.deeds a.bailout)
  · exact (s.fileAnswer_cases m a.output phase).sends_once hm

/-- A handler that evaluates its code sends one response at most. -/
theorem evalHandler_sends_once (s : Service) {m : Method} {a : CallAnswers}
    (hm : m.head = false ∨ a.output.headHeader.rc ≠ 0) (h : Handler) :
    s.Sends h 0 (s.evalHandler m h a) := by
  unfold evalHandler
  dsimp only
  refine Sends.after ?_ (sendOutput_sends_once _ m h 0 hm)
  refine Adds.trans ?_ (blank_adds _)
  exact Adds.trans (adds_of_eq rfl) (evaluate_adds _ a.deeds a.bailout)

/-- The result of a handler, if it returns. -/
def SendsOnce (h : Handler) (s : Service) (r : Option Int × Service) : Prop :=
  ∀ rc, r.1 = some rc → s.Sends h h.success (rc, r.2)

/-- A handler that returns `done` has sent its response. -/
theorem Sends.once {h : Handler} {r : Int × Service} (hs : s.Sends h h.success r) :
    s.SendsOnce h (r.map some id) := fun rc hrc => by
  obtain rfl : r.1 = rc := Option.some_inj.mp hrc
  exact hs

/-- What sends nothing may come before a response. -/
theorem SendsOnce.after {h : Handler} {r : Option Int × Service} (hq : Quiet s t)
    (hs : t.SendsOnce h r) : s.SendsOnce h r := fun rc hrc => (hs rc hrc).after hq

/-- The reading of the body sends one response at most, that of its callback. -/
theorem tryBody_sends_once (s : Service) (h : Handler) (rb : ReadBody) :
    s.SendsOnce h (s.tryBody rb) := fun _ _ => .nothing (s.tryBody_adds rb)

/-- A handler that returns sends at most once. -/
theorem callHandler_sends_once (s : Service) {m : Method} (h : Handler) {a : CallAnswers}
    (hm : m.head = false ∨ a.output.headHeader.rc ≠ 0) :
    s.SendsOnce h (s.callHandler m a h) := by
  have hctx : ∀ content, Quiet s (s.ensureCtx content) := fun _ => adds_of_eq rfl
  unfold callHandler
  split
  · exact fun _ _ => .nothing (.refl s)
  · cases h with
    | inline phase =>
      have hhandle : ∀ t : Service, t.SendsOnce (.inline phase) (t.handleInline m phase a) :=
        fun t => by
          unfold handleInline
          split
          · exact t.tryBody_sends_once _ a.readBody
          · split
            · exact ((inlineAnswer_cases _ m a.output phase).sends_once hm).once.after
                (t.inlineRoutine_quiet phase a.code)
            · exact ((t.inlineAnswer_cases m a.output phase).sends_once hm).once
      change s.SendsOnce _ (s.inlineHandler m phase a)
      unfold inlineHandler
      dsimp only
      split
      · have hstatus : Quiet s ((s.ensureCtx true).setRequestStatus 0) := adds_of_eq rfl
        exact (hhandle _).after hstatus
      · exact (hhandle _).after (hctx true)
    | file phase =>
      change s.SendsOnce _ (s.fileHandler m phase a)
      unfold fileHandler
      split
      next hp =>
        subst hp
        have hstart : Quiet s (((s.ensureCtx true).onCtx fun ctx =>
            { ctx with requestBodyMore := true }).setRequestStatus 0) :=
          adds_of_eq rfl
        unfold contentFileHandler
        dsimp only
        split
        · exact (tryBody_sends_once _ _ a.readBody).after hstart
        · exact (handleFile_sends_once _ .content hm).once.after hstart
      · exact (handleFile_sends_once _ phase hm).once.after (hctx true)
    | opcode => exact (evalHandler_sends_once s hm .opcode).once
    | stack => exact (evalHandler_sends_once s hm .stack).once

end Service

/-! ## Whole requests -/

/-- The header could not be sent. -/
def Occurrence.headerFailed : Occurrence → Bool
  | .sendHeader _ rc _ => rc ≠ 0
  | _ => false

/-- A header that is answered stays so. -/
theorem AnsweredBy.mono {h : Handler} {new history : List Occurrence}
    (ha : AnsweredBy h history) : AnsweredBy h (new ++ history) := by
  obtain ⟨after, chain, filtered, ho, before, rfl, hf⟩ := ha
  exact ⟨new ++ after, chain, filtered, ho, before, by rw [List.append_assoc], hf⟩

/-- No header has been tried. -/
def NoHeader (history : List Occurrence) : Prop :=
  ∀ h : Handler, history.countP (·.sendsHeader h) = 0

/-- What is not about sending sends no header. -/
theorem Occurrence.sendsHeader_of_ofSending (h : Handler) (o : Occurrence)
    (ho : o.ofSending = false) : o.sendsHeader h = false := by
  cases o with
  | sendHeader => cases ho
  | _ => rfl

/-- Where no header has been tried none is in the record. -/
theorem NoHeader.not_mem {history : List Occurrence} (hn : NoHeader history) {h : Handler}
    {rc : Int} {ho : Option HeadersOut} : .sendHeader h rc ho ∉ history := fun hm =>
  List.countP_eq_zero.mp (hn h) _ hm (decide_eq_true rfl)

/-- What sends nothing tries no header. -/
theorem Service.Quiet.noHeader {s t : Service} (h : s.Quiet t) (hn : NoHeader s.history) :
    NoHeader t.history := fun h' =>
  (h.countP_eq (Occurrence.sendsHeader_of_ofSending h')).trans (hn h')

namespace Passage

/-- The reader has the whole body at once, and its callback runs the phases from within the
handler. -/
def nests (s : Passage) (a : CallAnswers) (h : Handler) : Bool :=
  s.readsBody h &&
    match a.readBody with
    | .done data =>
      !data || decide (h = .file .content) || (s.service.ctx.getD {}).requestBodyMore
    | _ => false

/-- The method is not `HEAD`, or the header fails at once; no loop is nested; and no handler is
called once a header could not be sent. -/
def CallsOnce (s : Passage) : PassageStep → Prop
  | .call a => (s.method.head = false ∨ a.output.headHeader.rc ≠ 0) ∧
    (∀ h ∈ s.rest.head?, s.nests a h = false) ∧
      ∀ o ∈ s.service.history, o.headerFailed = false
  | _ => True

instance decidableCallsOnce (s : Passage) (l : PassageStep) : Decidable (s.CallsOnce l) := by
  unfold CallsOnce
  match l with
  | .call _ | .pass | .outerReturns | .resumeReturns | .resume _ | .bodyRead _ | .socket _
  | .others _ _ | .redirect _ | .passHeader _ _ | .passOutput _ | .log _ | .free =>
    dsimp only
    infer_instance

/-- No handler has called `ngx_http_send_header` twice, and where it succeeded the handler has
passed on the whole chain, cleared the ctx and returned. -/
def SendsOnce (s : Passage) : Prop :=
  ∀ h, s.service.history.countP (·.sendsHeader h) ≤ 1 ∧
    ∀ ho, .sendHeader h 0 ho ∈ s.service.history → AnsweredBy h s.service.history

/-- What the steps keep. Behind a response no handler is called any more. -/
structure OnceInv (s : Passage) : Prop where
  once : s.SendsOnce
  outer : s.outer = []
  answered : ∀ h ho, .sendHeader h 0 ho ∈ s.service.history →
    s.service.ctx = none ∧ s.loop = false ∧ s.redirectable = false

/-- Only handlers send. -/
theorem perform_quiet (s : Passage) {l : PassageStep} (hl : ∀ a, l ≠ .call a) :
    Service.Quiet s.service (s.perform l).service :=
  s.perform_adds_of_ne_call hl Service.ofSending_of_ofGenerator (fun _ _ => rfl) (fun _ => rfl)
    (fun _ => rfl) (fun _ _ _ _ _ => rfl)
    (fun headersOut a _ => Adds.trans (adds_of_eq rfl)
      (Service.filter_quiet { s.service with headersOut } .ngxHeaderFilter a.filter))
    (fun filter _ => s.service.filter_quiet .ngxBodyFilter filter) fun code _ =>
      Adds.trans (adds_of_eq rfl) (Service.routine_quiet _ .ngxLog code)

variable {s : Passage}

/-- A step that sends nothing and lets no handler be called behind a response. -/
theorem OnceInv.quiet (hi : s.OnceInv) {t : Passage} (hq : Service.Quiet s.service t.service)
    (ho : t.outer = [])
    (ha : s.service.ctx = none ∧ s.loop = false ∧ s.redirectable = false →
      t.service.ctx = none ∧ t.loop = false ∧ t.redirectable = false) : t.OnceInv where
  once h := by
    obtain ⟨hcount, hans⟩ := hi.once h
    refine ⟨hq.countP_eq (Occurrence.sendsHeader_of_ofSending h) ▸ hcount, fun ho' hm => ?_⟩
    have hold := hans ho' (Adds.of_mem hq Bool.noConfusion hm)
    obtain ⟨new, hnew, -⟩ := hq
    rw [hnew]
    exact hold.mono
  outer := ho
  answered h ho' hm := ha (hi.answered h ho' (Adds.of_mem hq Bool.noConfusion hm))

/-- A step other than a call keeps the invariant. -/
theorem OnceInv.other (hi : s.OnceInv) {l : PassageStep} (hl : ∀ a, l ≠ .call a)
    (hen : s.Enabled l) : (s.perform l).OnceInv := by
  have hquiet := s.perform_quiet hl
  cases l with
  | call a => exact absurd rfl (hl a)
  | pass =>
    exact hi.quiet hquiet hi.outer fun h => absurd (h.2.1.symm.trans hen.2.1) Bool.noConfusion
  | outerReturns =>
    have hsame : s.perform .outerReturns = s := by
      unfold perform
      rw [hi.outer]
    rw [hsame]
    exact hi
  | resumeReturns =>
    refine hi.quiet hquiet ?_ fun h => ?_
    · unfold perform
      dsimp only
      split <;> exact hi.outer
    · unfold perform
      dsimp only
      split <;> exact h
  | resume seg =>
    have hparts : (s.resumeScript seg).outer = s.outer ∧
        (s.service.ctx = none → (s.resumeScript seg).service.ctx = none ∧
          (s.resumeScript seg).loop = s.loop ∧
            (s.resumeScript seg).redirectable = s.redirectable) := by
      unfold resumeScript
      have hnone : s.service.ctx = none →
          s.service.resume seg = (s.service.leave .resume s.service.bailout, false) := fun h => by
        rw [Service.resume, h]
        rfl
      split
      next t ht =>
        refine ⟨rfl, fun h => ?_⟩
        rw [hnone h] at ht
        cases ht
      next t ht =>
        refine ⟨rfl, fun h => ⟨?_, rfl, rfl⟩⟩
        rw [hnone h] at ht
        cases ht
        exact h
    refine hi.quiet hquiet (hparts.1.trans hi.outer) fun h => ?_
    obtain ⟨hctx, hloop, hredir⟩ := hparts.2 h.1
    exact ⟨hctx, hloop.trans h.2.1, hredir.trans h.2.2⟩
  | bodyRead data =>
    refine hi.quiet hquiet hi.outer fun h => ?_
    have hsome : s.service.ctx.isSome = true := hen.2.2.2
    rw [h.1] at hsome
    cases hsome
  | socket waits =>
    refine hi.quiet hquiet hi.outer fun h => ⟨?_, h.2⟩
    change s.service.ctx.map _ = none
    rw [h.1]
    rfl
  | others exitStatus bailout => exact hi.quiet hquiet hi.outer id
  | redirect loc =>
    exact hi.quiet hquiet hi.outer fun h => absurd (h.2.2.symm.trans hen.2.2) Bool.noConfusion
  | passHeader headersOut a =>
    exact hi.quiet hquiet hi.outer fun h => absurd (h.2.2.symm.trans hen.2.2.1) Bool.noConfusion
  | passOutput filter =>
    refine hi.quiet hquiet hi.outer fun h => ⟨?_, h.2⟩
    have hctx := (s.service.filter_prints .ngxBodyFilter filter).ctx
    rw [h.1] at hctx
    exact Option.isNone_iff_eq_none.mp (Option.isSome_eq_false_iff.mp hctx)
  | log code =>
    refine hi.quiet hquiet hi.outer fun h => ⟨?_, h.2⟩
    have hctx := (Service.routine_prints (s.service.setRequestStatus Rc.declined.toInt) .ngxLog
      code).ctx
    have hnone : (s.service.setRequestStatus Rc.declined.toInt).ctx = none := h.1
    rw [hnone] at hctx
    exact Option.isNone_iff_eq_none.mp (Option.isSome_eq_false_iff.mp hctx)
  | free => exact hi.quiet hquiet hi.outer id

/-- The reader returns where it does not run the phases. -/
theorem tryBody_returns {t : Service} {rb : ReadBody}
    (h : (match rb with
      | .done data => !data || (t.ctx.getD {}).requestBodyMore
      | _ => false) = false) : ∃ rc, (t.tryBody rb).1 = some rc := by
  cases rb with
  | failed rc => exact ⟨rc, rfl⟩
  | again => exact ⟨_, rfl⟩
  | done data =>
    cases data with
    | false => cases h
    | true =>
      refine ⟨Rc.ok.toInt, ?_⟩
      have hmore : (t.ctx.getD {}).requestBodyMore = false := h
      cases hctx : t.ctx with
      | none => simp [Service.tryBody, Service.readRequestBodyCallback, Service.onCtx, hctx]
      | some ctx =>
        rw [hctx] at hmore
        have hmore' : ctx.requestBodyMore = false := hmore
        simp [Service.tryBody, Service.readRequestBodyCallback, Service.onCtx, hctx, hmore']

/-- A handler that nests no loop returns. -/
theorem callHandler_returns {a : CallAnswers} {h : Handler} (hn : s.nests a h = false) :
    ∃ rc, (s.service.callHandler s.method a h).1 = some rc := by
  unfold Service.callHandler
  split
  · exact ⟨_, rfl⟩
  · cases h with
    | inline phase =>
      have hhandle : ∀ t : Service, t.ctx = (s.service.ensureCtx true).ctx →
          ∃ rc, (t.handleInline s.method phase a).1 = some rc := fun t ht => by
        unfold Service.handleInline
        split
        next hbody =>
          refine tryBody_returns ?_
          have hreads : s.readsBody (.inline phase) = true := by
            rw [ht] at hbody
            exact hbody
          rw [nests, hreads, Bool.true_and] at hn
          rw [ht]
          cases hr : a.readBody with
          | done data =>
            have hmore : ((s.service.ensureCtx true).ctx.getD {}).requestBodyMore =
                (s.service.ctx.getD {}).requestBodyMore := rfl
            rw [hr] at hn
            simpa [hmore] using hn
          | _ => rfl
        · split <;> exact ⟨_, rfl⟩
      change ∃ rc, (s.service.inlineHandler s.method phase a).1 = some rc
      unfold Service.inlineHandler
      dsimp only
      split
      · exact hhandle _ rfl
      · exact hhandle _ rfl
    | file phase =>
      change ∃ rc, (s.service.fileHandler s.method phase a).1 = some rc
      unfold Service.fileHandler
      split
      next hp =>
        subst hp
        unfold Service.contentFileHandler
        dsimp only
        split
        next hbody =>
          refine tryBody_returns ?_
          have hreads : s.readsBody (.file .content) = true := hbody
          rw [nests, hreads, Bool.true_and] at hn
          cases hr : a.readBody with
          | done data =>
            rw [hr] at hn
            simp at hn
          | _ => rfl
        · exact ⟨_, rfl⟩
      · exact ⟨_, rfl⟩
    | opcode => exact ⟨_, rfl⟩
    | stack => exact ⟨_, rfl⟩

/-- No phase goes on behind a handler that has sent its response. -/
theorem goesOn_success (h : Handler) : h.phase.goesOn h.success = false := by
  cases h with
  | inline phase => cases phase <;> rfl
  | file phase => cases phase <;> rfl
  | opcode => rfl
  | stack => rfl

/-- The result of a response ends the phases, and nginx makes no response of its own. -/
theorem check_success (s : Passage) (h : Handler) :
    s.check h h.success = { s.onService fun t =>
      (t.note (.returned h h.success)).note (.finalized h.success) with
      loop := false
      redirectable := false } := by
  have hrc : ¬ (h.success = Rc.again.toInt ∨ h.success = Rc.done.toInt) ∧
      isSpecial h.success = false := by
    cases h with
    | inline phase => cases phase <;> decide
    | file phase => cases phase <;> decide
    | opcode => decide
    | stack => decide
  unfold check
  dsimp only
  rw [if_neg (by rw [goesOn_success]; exact Bool.false_ne_true), if_neg hrc.1, hrc.2]
  rfl

/-- What the call of a handler leaves behind, if it sends at most once and nothing has been sent
before. -/
theorem check_once {h : Handler} {rc : Int} {r : Service}
    (hs : s.service.Sends h h.success (rc, r)) (hn : NoHeader s.service.history) {t : Passage}
    (ht : t.service = r) (ho : t.outer = []) : (t.check h rc).OnceInv := by
  subst ht
  have hquiet : Service.Quiet t.service (t.check h rc).service := t.check_adds h rc rfl rfl
  have houter : (t.check h rc).outer = [] := by
    unfold check
    dsimp only
    split
    · exact ho
    · split <;> exact ho
  cases hs with
  | nothing quiet =>
    have hno : NoHeader (t.check h rc).service.history :=
      Service.Quiet.noHeader (quiet.trans hquiet) hn
    exact ⟨fun h' => ⟨Nat.le_trans (Nat.le_of_eq (hno h')) (Nat.zero_le 1),
        fun ho' hm => absurd hm hno.not_mem⟩,
      houter, fun h' ho' hm => absurd hm hno.not_mem⟩
  | @header _ _ u ho' quiet fails history =>
    have hu := Service.Quiet.noHeader quiet hn
    have hcount : ∀ h', (t.check h rc).service.history.countP (·.sendsHeader h') ≤ 1 := fun h' => by
      rw [hquiet.countP_eq (Occurrence.sendsHeader_of_ofSending h'), history, List.countP_cons,
        hu h']
      split <;> decide
    have hno : ∀ h' ho', .sendHeader h' 0 ho' ∉ (t.check h rc).service.history := by
      intro h' ho' hm
      have hmem := Adds.of_mem hquiet Bool.noConfusion hm
      rw [history] at hmem
      rcases List.mem_cons.mp hmem with heq | hmem
      · injection heq with _ hrc
        exact fails hrc.symm
      · exact hu.not_mem hmem
    exact ⟨fun h' => ⟨hcount h', fun ho' hm => absurd hm (hno h' ho')⟩, houter,
      fun h' ho' hm => absurd hm (hno h' ho')⟩
  | @response _ u chain filtered ho' quiet filter ctx history =>
    have hu := Service.Quiet.noHeader quiet hn
    rw [check_success] at houter hquiet ⊢
    have hf : ∀ h', filtered.countP (·.sendsHeader h') = 0 := fun h' =>
      List.countP_eq_zero.mpr fun o hm => by
        rw [Occurrence.sendsHeader_of_ofSending h' o (filter o hm)]
        exact Bool.false_ne_true
    have hans : AnsweredBy h
        ((t.service.note (.returned h h.success)).note (.finalized h.success)).history := by
      refine ⟨[.finalized h.success], chain, filtered, ho', u.history, ?_, filter⟩
      change _ :: _ :: t.service.history = _
      rw [history]
      rfl
    refine ⟨fun h' => ⟨?_, fun ho'' hm => ?_⟩, houter, fun _ _ _ => ⟨ctx, rfl, rfl⟩⟩
    · rw [hquiet.countP_eq (Occurrence.sendsHeader_of_ofSending h'), history]
      simp only [List.countP_cons, List.countP_append, hf h', hu h']
      by_cases hh : h = h' <;> simp [Occurrence.sendsHeader, hh]
    · have hmem := Adds.of_mem hquiet Bool.noConfusion hm
      rw [history] at hmem
      have hin : .sendHeader h' 0 ho'' ∈ filtered ++ .sendHeader h 0 ho' :: u.history := by
        simpa using hmem
      rcases List.mem_append.mp hin with hin | hin
      · exact absurd (filter _ hin) Bool.noConfusion
      · rcases List.mem_cons.mp hin with heq | hin
        · injection heq with heq
          exact heq ▸ hans
        · exact absurd hin hu.not_mem

/-- Each step that calls once keeps the invariant. -/
theorem OnceInv.step (hi : s.OnceInv) {l : PassageStep} (hl : s.Enabled l → s.CallsOnce l) :
    (s.step l).OnceInv := by
  unfold Passage.step
  split
  next hen =>
    by_cases hcall : ∀ a, l ≠ .call a
    · exact hi.other hcall hen
    · obtain ⟨a, ha⟩ := not_forall.mp hcall
      obtain rfl := not_not.mp ha
      obtain ⟨hm, hnest, hfail⟩ := hl hen
      have hn : NoHeader s.service.history := fun h =>
        List.countP_eq_zero.mpr fun o hmem hsend => by
          cases o with
          | sendHeader h' rc ho =>
            have hrc : rc = 0 := by simpa [Occurrence.headerFailed] using hfail _ hmem
            subst hrc
            have hloop := (hi.answered h' ho hmem).2.1
            exact absurd (hloop.symm.trans hen.2) Bool.noConfusion
          | _ => cases hsend
      unfold perform
      dsimp only
      split
      next h rest hrest =>
        obtain ⟨rc, hrc⟩ := callHandler_returns (hnest h (by rw [hrest]; rfl))
        have hsends := s.service.callHandler_sends_once h hm rc hrc
        unfold call
        split
        next t ht =>
          rw [ht] at hrc
          cases hrc
        next rc' t ht =>
          rw [ht] at hrc hsends
          obtain rfl : rc' = rc := Option.some_inj.mp hrc
          exact check_once hsends hn rfl hi.outer
      next => exact hi
  next => exact hi

/-- A request starts with nothing sent. -/
theorem start_once (method : Method) (loc : Location) (exitStatus : Int)
    (bailout : Option JmpBuf) : (start method loc exitStatus bailout).OnceInv :=
  ⟨fun _ => ⟨Nat.zero_le 1, nofun⟩, rfl, nofun⟩

end Passage

/-- In every run of a request that nests no loop, is not for `HEAD` and calls no handler once a
header has failed, every handler sends one header at most, and a response with all of its chain
behind it. -/
theorem header_sent_once (method : Method) (loc : Location) (exitStatus : Int)
    (bailout : Option JmpBuf) {ls : List PassageStep}
    (h : Along Passage.step (fun s l => s.Enabled l → s.CallsOnce l)
      (.start method loc exitStatus bailout) ls) :
    (run Passage.step (.start method loc exitStatus bailout) ls).SendsOnce :=
  (h.invariant (I := Passage.OnceInv) (fun _ _ hi hl => hi.step hl)
    (Passage.start_once method loc exitStatus bailout)).once

/-- An access script that declines, and a content script that waits and then prints. -/
theorem header_sent_once_phases :
    let loc : Location := ⟨(· ≠ .rewrite), fun _ => false, false, false⟩
    let script (result : CallResult) : Code := .compiled (.run [] result)
    let m := Passage.start {} loc 0 none
    let ls := [.call { code := script .value },
      .call { code := script (.generator ⟨[], .valid⟩) }, .resume ⟨[.echo [104, 105]], .ended⟩,
      .call {}, .resumeReturns]
    .sendHeader (.inline .content) 0 (some ⟨200, 2, []⟩) ∈ (run Passage.step m ls).service.history ∧
      (run Passage.step m ls).SendsOnce :=
  ⟨by decide +kernel, header_sent_once _ _ _ _ (by decide +kernel)⟩

/-- For `HEAD` the header is sent twice, and the second call fails. -/
theorem header_sent_twice_for_head :
    ¬ (run Passage.step (.start { head := true } contentOnly 0 none)
      [.call { code := .compiled (.run [.echo [104, 105]] .value) }]).SendsOnce := fun h =>
  absurd (h (.inline .content)).1 (by decide +kernel)

end NgxPhp
