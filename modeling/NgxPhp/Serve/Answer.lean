import NgxPhp.Serve.Verdict

/-!
# The response that a script gets

What the client gets is the header that is serialised first, or, if the handlers
send none, the response that nginx makes of the result of a handler. The status
that a script sets comes to one of the two in `set_output` only, and not every end
of a script leads there: a script that waits is taken up again only if a resume runs
the phases.
-/

open Ledger

namespace NgxPhp

/-- The headers as `ngx_http_send_header` has serialised them. -/
def Occurrence.serialised : Occurrence → Option HeadersOut
  | .sendHeader _ _ ho => ho
  | _ => none

/-- nginx serialises the header that it is asked for, and does not decline to send it. -/
structure HeaderAnswer.Accepted (a : HeaderAnswer) : Prop where
  sent : a.sent = true
  rc : a.rc ≠ Rc.declined.toInt

/-- Both headers, of which `HEAD` needs the first. -/
structure OutputAnswers.Accepted (a : OutputAnswers) : Prop where
  headHeader : a.headHeader.Accepted
  header : a.header.Accepted

/-- What `set_output` makes of the status in the headers, and then the script of the header filter
that runs first. -/
def Verdict.sent (v : Verdict) (m : Method) (a : OutputAnswers) : Verdict :=
  { v with status := if v.status = 0 then 200 else v.status }.filter
    (if m.head then a.headHeader.filter else a.header.filter)

namespace Service

variable {s t u : Service}

/-- The serialised headers, the latest first. -/
def serialised (s : Service) : List HeadersOut := s.history.filterMap Occurrence.serialised

/-- What the client gets once a handler has returned `rc`, where nginx answers a request that it
finalises with `n` by the status `finalize n`, if by any. -/
def response (s : Service) (finalize : Int → Option Int) (rc : Int) : Option StatusLine :=
  match s.serialised.getLast? with
  | some ho => some ⟨ho.status, ho.locations⟩
  | none =>
    if rc = Rc.again.toInt then none
    else (finalize rc).map fun n => ⟨n, s.headersOut.locations⟩

/-- The header has been serialised with these values, and nothing takes it back. -/
theorem response_of_adds {h : Handler} {rc : Int} {ho : HeadersOut}
    (ht : t.history = .sendHeader h rc (some ho) :: s.history) (hs : s.serialised = [])
    (hu : Adds (fun _ => True) t u) (finalize : Int → Option Int) (rc' : Int) :
    u.response finalize rc' = some ⟨ho.status, ho.locations⟩ := by
  obtain ⟨new, hnew, -⟩ := hu
  have hserialised : u.serialised = new.filterMap Occurrence.serialised ++ [ho] := by
    have hold : s.history.filterMap Occurrence.serialised = [] := hs
    have hone : (Occurrence.sendHeader h rc (some ho)).serialised = some ho := rfl
    rw [serialised, hnew, ht, List.filterMap_append, List.filterMap_cons_some hone, hold]
  rw [response, hserialised, List.getLast?_concat]

/-- What sends nothing serialises nothing. -/
theorem serialised_of_quiet (h : Quiet s t) : t.serialised = s.serialised := by
  obtain ⟨new, hnew, hno⟩ := h
  have hnone : new.filterMap Occurrence.serialised = [] := by
    refine List.filterMap_eq_nil_iff.mpr fun o hm => ?_
    cases o with
    | sendHeader => cases hno _ hm
    | _ => rfl
  rw [serialised, serialised, hnew, List.filterMap_append, hnone, List.nil_append]

/-- A request whose script has spoken, and nothing has been sent. -/
structure Unsent (s : Service) (v : Verdict) : Prop where
  verdict : s.verdict = v
  ctx : s.ctx.isSome = true
  headerSent : s.headerSent = false
  serialised : s.serialised = []

/-- No header: nginx answers with what it makes of the result. -/
theorem Unsent.response {v : Verdict} (hs : s.Unsent v) (finalize : Int → Option Int) {rc : Int}
    (hrc : rc ≠ Rc.again.toInt) :
    s.response finalize rc = (finalize rc).map fun n => ⟨n, v.locations⟩ := by
  rw [Service.response, hs.serialised, List.getLast?_nil, ← hs.verdict]
  exact if_neg hrc

/-- A part that prints and sends nothing leaves the response unsent, with its own verdict. -/
theorem Unsent.after {v w : Verdict} {ws : List Bytes} (hs : s.Unsent v) (hp : Prints ws s t)
    (hq : Quiet s t) (hw : t.verdict = w) : t.Unsent w :=
  ⟨hw, hp.ctx.trans hs.ctx, hp.headerSent.trans hs.headerSent,
    (serialised_of_quiet hq).trans hs.serialised⟩

/-- A header that is sent is the first one. -/
theorem sendHeader_response {v : Verdict} (hs : s.Unsent v) (h : Handler) {a : HeaderAnswer}
    (ha : a.Accepted) (hu : Adds (fun _ => True) (s.sendHeader h a).2 u)
    (finalize : Int → Option Int) (rc : Int) :
    u.response finalize rc = some (v.filter a.filter).statusLine := by
  have hquiet := serialised_of_quiet (s.filter_quiet .ngxHeaderFilter a.filter)
  have hverdict := s.verdict_filter .ngxHeaderFilter a.filter hs.ctx
  unfold sendHeader at hu
  rw [if_neg (by rw [hs.headerSent]; exact Bool.false_ne_true), ha.sent] at hu
  rw [response_of_adds (s := a.filter.elim s fun code => s.routine .ngxHeaderFilter code) rfl
    (hquiet.trans hs.serialised) hu finalize rc, ← hs.verdict, ← hverdict]
  rfl

/-- The first header of a response has the result that it is answered with. -/
theorem sendHeader_rc {v : Verdict} (hs : s.Unsent v) (h : Handler) (a : HeaderAnswer) :
    (s.sendHeader h a).1 = a.rc := by
  unfold sendHeader
  rw [if_neg (by rw [hs.headerSent]; exact Bool.false_ne_true)]

/-- Behind the header. -/
theorem sendBody_goes (s : Service) (h : Handler) (done : Int) (a : OutputAnswers) :
    Adds (fun _ => True) (s.markLastBuf.sendHeader h a.header).2 (s.sendBody h done a).2 ∧
      ((s.sendBody h done a).1 = done ∨ (s.sendBody h done a).1 ≠ 0 ∧
        (s.sendBody h done a).1 = (s.markLastBuf.sendHeader h a.header).1) := by
  unfold sendBody
  split
  next rc t ht =>
    rw [ht]
    split
    next hrc => exact ⟨.refl t, .inr ⟨hrc, rfl⟩⟩
    · have hout : Adds (fun _ => True) (t.endRequest h)
          ((t.endRequest h).outputFilter h a.bodyFilter) :=
        outputFilter_adds (fun _ _ => trivial) (fun _ _ => trivial) (fun _ _ => trivial) _ h _
          fun _ _ _ _ _ _ => trivial
      exact ⟨((endRequest_adds t h).trans hout).trans (clearCtx_adds (fun _ _ => trivial) _),
        .inl rfl⟩

/-- What is sent carries the status in the headers, or 200. -/
theorem sendOutput_response {v : Verdict} (hs : s.Unsent v) (m : Method) (h : Handler) (done : Int)
    {a : OutputAnswers} (ha : a.Accepted) (finalize : Int → Option Int) :
    (s.sendOutput m h done a).2.response finalize (s.sendOutput m h done a).1 =
        some (v.sent m a).statusLine ∧
      ((s.sendOutput m h done a).1 = done ∨ (s.sendOutput m h done a).1 ≠ 0 ∧
        (s.sendOutput m h done a).1 ≠ Rc.declined.toInt) := by
  have hstatus : (s.onHeaders fun o =>
      { o with status := if o.status = 0 then 200 else o.status }).Unsent
      { v with status := if v.status = 0 then 200 else v.status } :=
    ⟨by rw [← hs.verdict]; rfl, hs.ctx, hs.headerSent, hs.serialised⟩
  unfold sendOutput Verdict.sent
  dsimp only
  generalize (s.onHeaders fun o =>
    { o with status := if o.status = 0 then 200 else o.status }) = t at hstatus
  by_cases hm : m.head = true
  · rw [if_pos hm, if_pos hm]
    have hrc := sendHeader_rc hstatus h a.headHeader
    have hsent : (t.sendHeader h a.headHeader).2.headerSent = true :=
      (t.sendHeader_spec h a.headHeader hstatus.headerSent).2.2.1.trans ha.headHeader.sent
    have hresponse := fun (u : Service)
      (hu : Adds (fun _ => True) (t.sendHeader h a.headHeader).2 u) =>
        sendHeader_response hstatus h ha.headHeader hu finalize
    generalize t.sendHeader h a.headHeader = r at hrc hsent hresponse
    obtain ⟨rc, u⟩ := r
    obtain rfl : rc = a.headHeader.rc := hrc
    dsimp only at hsent hresponse ⊢
    split
    next hne => exact ⟨hresponse _ (.refl u) _, .inr ⟨hne, ha.headHeader.rc⟩⟩
    · -- the second header is refused
      obtain ⟨hfst, hsnd⟩ := u.markLastBuf.sendHeader_twice h a.header hsent
      obtain ⟨hadds, hgo⟩ := u.sendBody_goes h done a
      rw [hfst] at hgo
      rw [hsnd] at hadds
      have htwice : Adds (fun _ => True) u
          (u.markLastBuf.note (.sendHeader h Rc.error.toInt none)) :=
        adds_cons rfl trivial
      refine ⟨hresponse _ (htwice.trans hadds) _, hgo.imp_right fun ⟨hne, heq⟩ => ⟨hne, ?_⟩⟩
      rw [heq]
      decide
  · rw [if_neg hm, if_neg hm]
    have hmark : t.markLastBuf.Unsent { v with status := if v.status = 0 then 200 else v.status } :=
      ⟨(t.verdict_onCtx (f := fun ctx => { ctx with rputsChain := markLast ctx.rputsChain })
          (fun _ => rfl) (fun _ => rfl) fun _ => rfl).trans hstatus.verdict,
        Option.isSome_map.trans hstatus.ctx, hstatus.headerSent, hstatus.serialised⟩
    obtain ⟨hadds, hgo⟩ := t.sendBody_goes h done a
    rw [sendHeader_rc hmark h a.header] at hgo
    exact ⟨sendHeader_response hmark h ha.header hadds finalize _,
      hgo.imp_right fun ⟨hne, heq⟩ => ⟨hne, heq ▸ ha.header.rc⟩⟩

/-! ## The sections `set_output` -/

/-- The end of a phase leaves the response unsent. -/
theorem finishPhase_unsent {v : Verdict} (hs : s.Unsent v) :
    s.finishPhase.Unsent { v with phaseStatus := .declined } := by
  refine hs.after s.finishPhase_prints s.finishPhase_quiet ?_
  rw [finishPhase, verdict_setPhaseStatus _ _ (s.dtorClosure_prints.ctx.trans hs.ctx),
    verdict_dtorClosure, hs.verdict]

/-- A blank leaves the response unsent. -/
theorem blank_unsent {v : Verdict} (hs : s.Unsent v) : s.blank.Unsent v := by
  refine hs.after (s.blank_prints hs.ctx) (blank_adds s) ?_
  unfold blank
  split
  · exact (s.verdict_onCtx
      (f := fun ctx => { ctx with rputsChain := ctx.rputsChain ++ [⟨[32], false⟩] })
      (fun _ => rfl) (fun _ => rfl) fun _ => rfl).trans hs.verdict
  · exact hs.verdict

end Service

/-- A handler has returned for good, and the client gets this response: no later phase begins. -/
def Responds (finalize : Int → Option Int) (phase : Phase) (r : Option Int × Service)
    (line : StatusLine) : Prop :=
  ∃ rc, r.1 = some rc ∧ phase.goesOn rc = false ∧ r.2.response finalize rc = some line

/-- The response to what a script has said, once its handler comes to `set_output`. -/
def Verdict.answer (v : Verdict) (finalize : Int → Option Int) (m : Method) (a : OutputAnswers)
    (printed : Bool) : Phase → Option StatusLine
  | .content =>
    if Executor.isRefused v.exitStatus then
      (finalize v.exitStatus).map fun n => ⟨n, v.locations⟩
    else some (v.sent m a).statusLine
  | _ =>
    if v.exitStatus = 0 ∨ v.exitStatus = 200 then
      if printed then some (v.sent m a).statusLine else none
    else (finalize v.exitStatus).map fun n => ⟨n, v.locations⟩

/-- A phase other than content answers with what was printed, or with the status. -/
theorem Verdict.answer_phase (v : Verdict) (finalize : Int → Option Int) (m : Method)
    (a : OutputAnswers) (printed : Bool) {phase : Phase} (hp : phase ≠ .content) :
    v.answer finalize m a printed phase =
      if v.exitStatus = 0 ∨ v.exitStatus = 200 then
        if printed then some (v.sent m a).statusLine else none
      else (finalize v.exitStatus).map fun n => ⟨n, v.locations⟩ := by
  cases phase with
  | content => exact absurd rfl hp
  | _ => rfl

namespace Service

variable {s t u : Service}

/-- A handler that does not send returns the status. -/
theorem responds_finalized {v : Verdict} (hs : s.Unsent v) (finalize : Int → Option Int)
    (phase : Phase) {n : Int} (hn : 0 < n) (line : StatusLine) :
    Responds finalize phase (some n, s) line ↔
      ((finalize n).map fun k => (⟨k, v.locations⟩ : StatusLine)) = some line := by
  have hgo : phase.goesOn n = false := by
    have hd : n ≠ Rc.declined.toInt := fun h => by
      rw [h] at hn
      exact absurd hn (by decide)
    have ho : n ≠ Rc.ok.toInt := fun h => by
      rw [h] at hn
      exact absurd hn (by decide)
    simp [Phase.goesOn, hd, ho]
  have hagain : n ≠ Rc.again.toInt := fun h => by
    rw [h] at hn
    exact absurd hn (by decide)
  rw [← hs.response finalize hagain]
  constructor
  · rintro ⟨rc, hrc, -, hres⟩
    obtain rfl := Option.some.inj hrc
    exact hres
  · exact fun h => ⟨n, rfl, hgo, h⟩

/-- A handler that sends answers with the header. -/
theorem responds_sent {v : Verdict} (hs : s.Unsent v) (finalize : Int → Option Int)
    (m : Method) (phase : Phase) {a : OutputAnswers} (ha : a.Accepted)
    (line : StatusLine) :
    Responds finalize phase ((s.sendOutput m (.inline phase)
      (Handler.inline phase).success a).map some id) line ↔ (v.sent m a).statusLine = line := by
  obtain ⟨hres, hrc⟩ :=
    sendOutput_response hs m (.inline phase) (Handler.inline phase).success ha finalize
  generalize s.sendOutput m (.inline phase) (Handler.inline phase).success a = r at hres hrc
  obtain ⟨rc, t⟩ := r
  have hgo : phase.goesOn rc = false := by
    rcases hrc with hdone | ⟨hne, hnd⟩
    · obtain rfl : rc = _ := hdone
      cases phase <;> decide
    · have ho : rc ≠ Rc.ok.toInt := hne
      simp [Phase.goesOn, hnd, ho]
  constructor
  · rintro ⟨rc', hrc', -, hline⟩
    obtain rfl : rc = rc' := Option.some.inj hrc'
    exact Option.some.inj (hres.symm.trans hline)
  · rintro rfl
    exact ⟨rc, rfl, hgo, hres⟩

/-- The header that is sent depends on the status line only. -/
theorem statusLine_sent_congr {v w : Verdict} (h : v.statusLine = w.statusLine) (m : Method)
    (a : OutputAnswers) : (v.sent m a).statusLine = (w.sent m a).statusLine := by
  refine Verdict.filter_statusLine ?_ _
  have hstatus : v.status = w.status := congrArg StatusLine.status h
  have hloc : v.locations = w.locations := congrArg StatusLine.locations h
  simp [Verdict.statusLine, hstatus, hloc]

/-- `set_output` of a phase responds with the status line of its verdict. -/
theorem phaseSetOutput_responds {v : Verdict} (hs : s.Unsent v) (hexit : 0 ≤ v.exitStatus)
    (finalize : Int → Option Int) (m : Method) (phase : Phase) (hp : phase ≠ .content)
    {a : OutputAnswers} (ha : a.Accepted) (line : StatusLine) :
    Responds finalize phase ((s.phaseSetOutput m (.inline phase)
      (Handler.inline phase).success a).map some id) line ↔
      v.answer finalize m a (!s.chain.isEmpty) phase = some line := by
  have hfin := finishPhase_unsent hs
  have hsame : ({ v with phaseStatus := .declined } : Verdict).statusLine = v.statusLine := rfl
  have hchain : s.finishPhase.chain = s.chain :=
    s.finishPhase_prints.chain.trans (List.append_nil _)
  have hrc : s.exitStatus = v.exitStatus := congrArg Verdict.exitStatus hs.verdict
  unfold phaseSetOutput
  dsimp only
  rw [v.answer_phase finalize m a _ hp, hrc, hchain]
  split
  next hok =>
    cases hc : s.chain with
    | nil =>
      rw [if_pos rfl, if_neg (by decide)]
      refine iff_of_false ?_ nofun
      rintro ⟨rc, hrc', hgo, -⟩
      obtain rfl := Option.some.inj hrc'
      cases phase <;> cases hgo
    | cons link links =>
      have hsome : (!(link :: links).isEmpty) = true := rfl
      rw [if_neg (List.cons_ne_nil _ _), if_pos hsome, Option.some_inj]
      exact (responds_sent hfin finalize m phase ha line).trans
        (Eq.congr_left (statusLine_sent_congr hsame m a))
  next hno =>
    exact responds_finalized hfin finalize phase (by omega) line

/-- `set_output` of the content phase responds with the status line of its verdict. -/
theorem contentInlineSetOutput_responds {v : Verdict} (hs : s.Unsent v) (hexit : 0 ≤ v.exitStatus)
    (finalize : Int → Option Int) (m : Method) {a : OutputAnswers} (ha : a.Accepted)
    (printed : Bool) (line : StatusLine) :
    Responds finalize .content ((s.contentInlineSetOutput m a).map some id) line ↔
      v.answer finalize m a printed .content = some line := by
  have hfin := finishPhase_unsent hs
  have hsame : ({ v with phaseStatus := .declined } : Verdict).statusLine = v.statusLine := rfl
  have hrc : s.exitStatus = v.exitStatus := congrArg Verdict.exitStatus hs.verdict
  unfold contentInlineSetOutput Verdict.answer
  dsimp only
  rw [hrc]
  split
  next href =>
    refine responds_finalized hfin finalize .content ?_ line
    have hne : v.exitStatus ≠ 0 := fun h => by
      rw [h] at href
      cases href
    omega
  · rw [if_pos (.inl hexit), Option.some_inj]
    exact (responds_sent (blank_unsent hfin) finalize m .content ha line).trans
      (Eq.congr_left (statusLine_sent_congr hsame m a))

/-- The handler of a phase with a status answers as its verdict says. -/
theorem inlineSetOutput_responds {v : Verdict} (hs : s.Unsent v) (hexit : 0 ≤ v.exitStatus)
    (finalize : Int → Option Int) (m : Method) (phase : Phase) {a : OutputAnswers}
    (ha : a.Accepted) (line : StatusLine) :
    Responds finalize phase ((s.inlineSetOutput m phase a).map some id) line ↔
      v.answer finalize m a (!s.chain.isEmpty) phase = some line := by
  unfold inlineSetOutput
  rw [if_neg (by simp [Option.isSome_iff_ne_none.mp hs.ctx])]
  cases phase with
  | rewrite => exact phaseSetOutput_responds hs hexit finalize m .rewrite nofun ha line
  | access => exact phaseSetOutput_responds hs hexit finalize m .access nofun ha line
  | content => exact contentInlineSetOutput_responds hs hexit finalize m ha _ line

end Service

end NgxPhp
