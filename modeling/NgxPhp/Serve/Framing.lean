import NgxPhp.Serve.Sending

/-!
# Framing of a response

The header carries the length of the body and the last link of the chain ends it.
Both are settled before the body filter of the module runs its script, and the mark
is set before the header filter runs its own, so the frame is right only as long as
neither prints. An internal redirect takes the chain away and keeps the length.
-/

open StepMachine Ledger

namespace NgxPhp

/-- The chain has one link with `last_buf`, the final one. -/
def ClosedByLast (chain : List ChainLink) : Prop :=
  chain.countP ChainLink.lastBuf = 1 ∧ ∃ link ∈ chain.getLast?, link.lastBuf = true

/-- What is sent has the length that its header says and ends with its last link. -/
def Framed (sent : List Occurrence) : Prop :=
  ∀ h chain, .outputFilter h chain ∈ sent →
    (∀ h' rc ho, .sendHeader h' rc (some ho) ∈ sent →
      ho.contentLengthN = (chainBytes chain : Int)) ∧
      ClosedByLast chain

/-- The links of buffers that are printed. -/
def links (ws : List Bytes) : List ChainLink := ws.map fun b => ⟨b, false⟩

/-- The links of two lists of buffers follow each other. -/
theorem links_append (ws vs : List Bytes) : links (ws ++ vs) = links ws ++ links vs :=
  List.map_append

/-- Only the final link of a chain is marked. -/
theorem markLast_append (c : List ChainLink) (l : ChainLink) :
    Service.markLast (c ++ [l]) = c ++ [{ l with lastBuf := true }] := by
  induction c with
  | nil => rfl
  | cons x c ih =>
    rw [List.cons_append, List.cons_append, ← ih]
    cases c <;> rfl

/-- The bytes of two chains add up. -/
theorem chainBytes_append (c d : List ChainLink) :
    chainBytes (c ++ d) = chainBytes c + chainBytes d := by
  rw [chainBytes, List.map_append, List.sum_append]
  rfl

/-- The mark at the end is the only one, if nothing is printed behind it and there was none
before. -/
theorem closedByLast_iff (c : List ChainLink) (l : ChainLink) (ws : List Bytes) :
    ClosedByLast (c ++ [{ l with lastBuf := true }] ++ links ws) ↔
      ws = [] ∧ ∀ x ∈ c, x.lastBuf = false := by
  cases ws with
  | nil =>
    have hcount : (c ++ [{ l with lastBuf := true }] ++ links []).countP ChainLink.lastBuf =
        c.countP ChainLink.lastBuf + 1 := by
      simp [links, List.countP_append]
    have hlast : (c ++ [{ l with lastBuf := true }] ++ links []).getLast? =
        some { l with lastBuf := true } := by
      simp [links]
    rw [ClosedByLast, hcount, hlast]
    constructor
    · rintro ⟨h, -⟩
      refine ⟨rfl, fun x hx => ?_⟩
      have hzero : c.countP ChainLink.lastBuf = 0 := by omega
      simpa using List.countP_eq_zero.mp hzero x hx
    · rintro ⟨-, h⟩
      refine ⟨?_, _, rfl, rfl⟩
      rw [List.countP_eq_zero.mpr fun x hx => by simp [h x hx]]
  | cons w ws =>
    refine ⟨fun ⟨_, link, hlink, hmark⟩ => ?_, fun h => absurd h.1 (List.cons_ne_nil w ws)⟩
    have hmem : link ∈ links (w :: ws) := by
      rw [List.getLast?_append_of_ne_nil _ (by simp [links])] at hlink
      exact List.mem_of_getLast? hlink
    obtain ⟨b, -, rfl⟩ := List.mem_map.mp hmem
    cases hmark

namespace Service

variable {s t : Service}

/-- What the content handler has printed when it sends, and the blank it prints by itself. -/
def contentWrites (s : Service) (a : CallAnswers) : List Bytes :=
  let ws := if s.phaseStatus = .declined then a.code.writes else []
  if s.chain = [] ∧ ws = [] then [[32]] else ws

/-- What is printed before the chain is closed; for `HEAD` the header filter runs before too. -/
def sentWrites (s : Service) (m : Method) (a : CallAnswers) : List Bytes :=
  s.contentWrites a ++ if m.head then filterWrites a.output.headHeader.filter else []

/-- The chain when it is closed. -/
def sentChain (s : Service) (m : Method) (a : CallAnswers) : List ChainLink :=
  s.chain ++ links (s.sentWrites m a)

/-- The length counts the bytes of the chain, if it is serialised, and no link has been marked. -/
structure Counted (s : Service) (m : Method) (a : CallAnswers) : Prop where
  length : a.output.header.sent = true →
    (s.sentWrites m a).foldl countBuf s.headersOut.contentLengthN =
      (chainBytes (s.sentChain m a) : Int)
  marks : ∀ link ∈ (s.sentChain m a).dropLast, link.lastBuf = false

/-- The header and the chain of a handler that has printed and sent something before. -/
theorem sendBody_after {u : Service} {ws : List Bytes} {before : List Occurrence}
    (hprints : Prints (s.printed ws) s { u with headerSent := s.headerSent })
    (hsend : u.sendings = before ++ s.sendings) (h : Handler) (done : Int) (a : OutputAnswers) :
    (∃ rc ho, (u.sendBody h done a).2.sendings = .sendHeader h rc ho :: before ++ s.sendings) ∨
    u.headerSent = false ∧ ∃ ho : HeadersOut, ∃ chain : List ChainLink,
      (u.sendBody h done a).2.sendings = ([.ctxCleared chain, .outputFilter h chain,
        .sendHeader h 0 (if a.header.sent then some ho else none)] ++ before) ++ s.sendings ∧
      ho.contentLengthN = (s.printed (ws ++ filterWrites a.header.filter)).foldl countBuf
        s.headersOut.contentLengthN ∧
      chain = markLast (s.chain ++ links (s.printed ws)) ++
        links (s.printed (filterWrites a.header.filter ++ filterWrites a.bodyFilter)) := by
  by_cases hno : u.headerSent = true ∨ a.header.rc ≠ 0
  · obtain ⟨rc, ho, -, -, hfail⟩ := u.sendBody_fails h done a hno
    exact Or.inl ⟨rc, ho, hfail.trans (congrArg _ hsend)⟩
  · rw [not_or, not_not, Bool.not_eq_true] at hno
    obtain ⟨-, -, ho, chain, hsnd, hlen, hchain⟩ := u.sendBody_sends h done a hno.1 hno.2
    have hprinted : ∀ vs, u.printed vs = s.printed vs := hprints.printed
    have hlength : u.headersOut.contentLengthN = _ := hprints.length
    have hbefore : u.chain = _ := hprints.chain
    refine Or.inr ⟨hno.1, ho, chain, ?_, ?_, ?_⟩
    · rw [hsnd, hsend, List.append_assoc]
    · rw [hlen, hlength, hprinted, printed_append, List.foldl_append]
    · rw [hchain, hbefore, hprinted]
      rfl

/-- The ways through what all handlers do once they have a chain: only the header is tried, or the
header is sent and the whole chain passed on. -/
theorem sendOutput_cases (s : Service) (m : Method) (h : Handler) (done : Int)
    (a : OutputAnswers) :
    (∃ new, (s.sendOutput m h done a).2.sendings = new ++ s.sendings ∧
      ∀ o ∈ new, ∃ rc ho, o = .sendHeader h rc ho) ∨
    s.headerSent = false ∧ ∃ ho : HeadersOut, ∃ chain : List ChainLink,
      (s.sendOutput m h done a).2.sendings = ([.ctxCleared chain, .outputFilter h chain,
        .sendHeader h 0 (if a.header.sent then some ho else none)] ++
          if m.head then [.sendHeader h 0 none] else []) ++ s.sendings ∧
      ho.contentLengthN =
        (s.printed ((if m.head then filterWrites a.headHeader.filter else []) ++
          filterWrites a.header.filter)).foldl countBuf s.headersOut.contentLengthN ∧
      chain = markLast (s.chain ++
        links (s.printed (if m.head then filterWrites a.headHeader.filter else []))) ++
          links (s.printed (filterWrites a.header.filter ++ filterWrites a.bodyFilter)) := by
  have hprints : ∀ t : Service, t = (s.onHeaders fun o =>
      { o with status := if o.status = 0 then 200 else o.status }) →
      Prints [] s t ∧ t.sendings = s.sendings := fun t ht =>
    ht ▸ ⟨s.onHeaders_prints fun _ => rfl, rfl⟩
  unfold sendOutput
  dsimp only
  generalize (s.onHeaders fun o =>
    { o with status := if o.status = 0 then 200 else o.status }) = t at hprints ⊢
  obtain ⟨hprints, hsend⟩ := hprints t rfl
  by_cases hm : m.head = true
  · simp only [if_pos hm]
    cases hsent : t.headerSent with
    | true =>
      obtain ⟨hfst, hsnd⟩ := t.sendHeader_twice h a.headHeader hsent
      rw [if_pos (by rw [hfst]; decide), hsnd]
      exact Or.inl ⟨[.sendHeader h Rc.error.toInt none],
        (List.filter_cons_of_pos rfl).trans (congrArg _ hsend),
        fun o ho => ⟨_, _, List.mem_singleton.mp ho⟩⟩
    | false =>
      obtain ⟨hfst, hhead, hhs, hsd⟩ := t.sendHeader_spec h a.headHeader hsent
      generalize t.sendHeader h a.headHeader = r at hfst hhead hhs hsd ⊢
      obtain ⟨rc, u⟩ := r
      dsimp only at hfst hhead hhs hsd ⊢
      have hboth : Prints (s.printed (filterWrites a.headHeader.filter)) s
          { u with headerSent := s.headerSent } := by
        rw [← hprints.headerSent]
        exact hprints.after hhead
      have hbefore : u.sendings = [.sendHeader h a.headHeader.rc
          (if a.headHeader.sent then some u.headersOut else none)] ++ s.sendings :=
        hsd.trans (congrArg _ hsend)
      by_cases hrc : rc = 0
      · rw [if_neg (not_not.mpr hrc)]
        rcases sendBody_after hboth hbefore h done a with
          ⟨rc', ho, hfail⟩ | ⟨hno, ho, chain, hsnd, hlen, hchain⟩
        · refine Or.inl ⟨_, hfail, fun o hmem => ?_⟩
          rcases List.mem_cons.mp hmem with rfl | hmem
          · exact ⟨_, _, rfl⟩
          · exact ⟨_, _, List.mem_singleton.mp hmem⟩
        · have hnot : a.headHeader.sent = false := hhs.symm.trans hno
          refine Or.inr ⟨hprints.headerSent.symm.trans hsent, ho, chain, ?_, hlen, hchain⟩
          rw [hsnd, ← hfst, hrc, hnot]
          rfl
      · rw [if_pos hrc]
        exact Or.inl ⟨_, hbefore, fun o ho => ⟨_, _, List.mem_singleton.mp ho⟩⟩
  · simp only [if_neg hm]
    have hnone : Prints (s.printed []) s { t with headerSent := s.headerSent } := by
      rw [printed_nil, ← hprints.headerSent]
      exact hprints
    rcases sendBody_after hnone (hsend.trans (List.nil_append _).symm) h done a with
      ⟨rc', ho, hfail⟩ | ⟨hno, ho, chain, hsnd, hlen, hchain⟩
    · exact Or.inl ⟨_, hfail, fun o hmem => ⟨_, _, List.mem_singleton.mp hmem⟩⟩
    · exact Or.inr ⟨hprints.headerSent.symm.trans hno, ho, chain, hsnd, hlen, hchain⟩

/-- A request that has printed nothing prints one blank. -/
theorem blank_prints (s : Service) (hc : s.ctx.isSome = true) :
    Prints (if s.chain = [] then [[32]] else []) s s.blank := by
  unfold blank
  split
  · exact s.append_prints _ hc
  · exact .refl s

/-- The end of a phase prints nothing. -/
theorem finishPhase_prints (s : Service) : Prints [] s s.finishPhase :=
  s.dtorClosure_prints.silent (setPhaseStatus_prints _ _)

/-- The end of a phase sends nothing. -/
theorem finishPhase_quiet (s : Service) : Quiet s s.finishPhase := by
  have hdtor : Quiet s s.dtorClosure := dtorClosure_adds ofSending_of_ofGenerator s
  exact hdtor.trans (adds_of_eq rfl)

/-- The routine of inline code prints what its script does. -/
theorem inlineRoutine_prints (s : Service) (phase : Phase) (code : Code) :
    Prints (s.printed code.writes) s (s.inlineRoutine phase code) := by
  have hstart : Prints [] s ((s.setPhaseStatus .ok).setRequestStatus Rc.declined.toInt) :=
    (s.setPhaseStatus_prints .ok).silent (prints_of_eq rfl rfl rfl)
  exact hstart.after (routine_prints _ _ code)

/-- The routine of inline code sends nothing. -/
theorem inlineRoutine_quiet (s : Service) (phase : Phase) (code : Code) :
    Quiet s (s.inlineRoutine phase code) :=
  (adds_of_eq rfl).trans (routine_quiet _ _ code)

/-- The content handler sends nothing, or does so after the blank. -/
theorem contentAnswer_cases (s : Service) (m : Method) (a : OutputAnswers) :
    (s.inlineAnswer m .content a).2.sendings = s.sendings ∨
      ∃ u, Quiet s u ∧ Prints (if s.chain = [] then [[32]] else []) s u ∧
        (s.inlineAnswer m .content a).2 = (u.sendOutput m (.inline .content) 0 a).2 := by
  unfold inlineAnswer
  split
  · exact Or.inl rfl
  · unfold inlineSetOutput
    split
    · exact Or.inl rfl
    next hctx =>
      rw [Bool.not_eq_true, Option.isNone_eq_false_iff] at hctx
      have hfin := s.finishPhase_prints
      have hblank := s.finishPhase.blank_prints (hfin.ctx.trans hctx)
      have hchain : s.finishPhase.chain = s.chain := by
        simpa using hfin.chain
      rw [hchain] at hblank
      have hout := s.contentInlineSetOutput_cases m a
      dsimp only
      generalize s.contentInlineSetOutput m a = r at hout ⊢
      cases hout with
      | silent rc => exact Or.inl s.finishPhase_quiet.sendings
      | sends =>
        exact Or.inr ⟨s.finishPhase.blank, Adds.trans s.finishPhase_quiet (blank_adds _),
          hfin.trans hblank, rfl⟩

/-- From `s` to `u` the content handler has printed its output, and nothing has been sent. -/
structure HasPrinted (s u : Service) (ws : List Bytes) : Prop where
  sendings : u.sendings = s.sendings
  prints : u.prints = true
  chain : u.chain = s.chain ++ links ws
  length : u.headersOut.contentLengthN = ws.foldl countBuf s.headersOut.contentLengthN
  headerSent : u.headerSent = s.headerSent

/-- What the content handler sends, it sends behind its own output and the blank. -/
theorem contentHandler_cases (s : Service) (m : Method) (a : CallAnswers) :
    (s.callHandler m a (.inline .content)).2.sendings = s.sendings ∨
      ∃ u, s.HasPrinted u (s.contentWrites a) ∧ (s.callHandler m a (.inline .content)).2 =
        (u.sendOutput m (.inline .content) 0 a.output).2 := by
  unfold callHandler
  split
  · exact Or.inl rfl
  · have hanswer : ∀ (t : Service) (ws : List Bytes), s.HasPrinted t ws →
        (if s.chain = [] ∧ ws = [] then [[32]] else ws) = s.contentWrites a →
        (t.inlineAnswer m .content a.output).2.sendings = s.sendings ∨
          ∃ u, s.HasPrinted u (s.contentWrites a) ∧
            (t.inlineAnswer m .content a.output).2 =
              (u.sendOutput m (.inline .content) 0 a.output).2 := by
      intro t ws ht hws
      rcases t.contentAnswer_cases m a.output with hno | ⟨u, hq, hp, hu⟩
      · exact Or.inl (hno.trans ht.sendings)
      · have hblank : ws ++ (if t.chain = [] then [[32]] else []) = s.contentWrites a := by
          rw [← hws, ht.chain]
          cases ws <;> simp [links]
        refine Or.inr ⟨u, ⟨hq.sendings.trans ht.sendings, hp.prints.trans ht.prints, ?_, ?_,
          hp.headerSent.trans ht.headerSent⟩, hu⟩
        · rw [← hblank, links_append, ← List.append_assoc, ← ht.chain]
          exact hp.chain
        · rw [← hblank, List.foldl_append, ← ht.length]
          exact hp.length
    change (inlineHandler s m .content a).2.sendings = _ ∨ _
    unfold inlineHandler
    dsimp only
    rw [if_pos rfl]
    unfold handleInline
    split
    · exact Or.inl (tryBody_adds _ a.readBody).sendings
    · split
      next hp =>
        have hp' : s.phaseStatus = .declined := hp
        have hr := inlineRoutine_prints ((s.ensureCtx true).setRequestStatus 0) .content a.code
        have hq := (inlineRoutine_quiet ((s.ensureCtx true).setRequestStatus 0) .content
          a.code).sendings
        refine hanswer _ a.code.writes
          ⟨hq, hr.prints.trans rfl, hr.chain, hr.length, hr.headerSent⟩ ?_
        rw [contentWrites, if_pos hp']
      next hp =>
        have hp' : s.phaseStatus ≠ .declined := hp
        refine hanswer _ [] ⟨rfl, rfl, (List.append_nil _).symm, rfl, rfl⟩ ?_
        rw [contentWrites, if_neg hp']

/-- There is always something to be sent. -/
theorem sentChain_ne_nil (s : Service) (m : Method) (a : CallAnswers) : s.sentChain m a ≠ [] := by
  intro h
  obtain ⟨hc, hl⟩ := List.append_eq_nil_iff.mp h
  have hw : s.sentWrites m a = [] := List.map_eq_nil_iff.mp hl
  have hcw : s.contentWrites a = [] := (List.append_eq_nil_iff.mp hw).1
  unfold contentWrites at hcw
  dsimp only at hcw
  generalize (if s.phaseStatus = .declined then a.code.writes else []) = ws at hcw
  split at hcw
  · cases hcw
  next hno => exact hno ⟨hc, hcw⟩

/-- What a sending handler puts down, with the header that it may have serialised. -/
theorem framed_sent (h : Handler) (sent head : Bool) (ho : HeadersOut) (chain : List ChainLink) :
    Framed ([.ctxCleared chain, .outputFilter h chain,
        .sendHeader h 0 (if sent then some ho else none)] ++
          if head then [.sendHeader h 0 none] else []) ↔
      (sent = true → ho.contentLengthN = (chainBytes chain : Int)) ∧ ClosedByLast chain := by
  constructor
  · intro hf
    obtain ⟨hl, hc⟩ := hf h chain (by simp)
    exact ⟨fun hs => hl h 0 ho (by simp [hs]), hc⟩
  · rintro ⟨hl, hc⟩ h' chain' hmem
    obtain ⟨rfl, rfl⟩ : h' = h ∧ chain' = chain := by
      cases head <;> simpa using hmem
    refine ⟨fun h' rc ho' hm => ?_, hc⟩
    cases sent with
    | false => cases head <;> simp at hm
    | true =>
      obtain rfl : ho' = ho := by
        cases head <;> simp at hm <;> exact hm.2.2
      exact hl rfl

/-- With an output chain everything is printed to it. -/
theorem printed_of_prints (h : s.prints = true) (ws : List Bytes) : s.printed ws = ws := if_pos h

/-- The response of the content handler is framed exactly if the filters print nothing and the
length counts the chain, of which no link has been marked before. -/
theorem contentHandler_framed_iff (s : Service) (m : Method) (a : CallAnswers)
    {new : List Occurrence}
    (hnew : (s.callHandler m a (.inline .content)).2.sendings = new ++ s.sendings)
    (hsend : ∃ h chain, .outputFilter h chain ∈ new) :
    Framed new ↔ s.Counted m a ∧ filterWrites a.output.header.filter = [] ∧
      filterWrites a.output.bodyFilter = [] := by
  obtain ⟨h, chain₀, hmem⟩ := hsend
  rcases s.contentHandler_cases m a with hno | ⟨u, ⟨hsu, hpu, hcu, hlu, -⟩, hu⟩
  · rw [hno, List.self_eq_append_left] at hnew
    rw [hnew] at hmem
    cases hmem
  rcases u.sendOutput_cases m (.inline .content) 0 a.output with
    ⟨new', hs', hall⟩ | ⟨-, ho, chain, hs', hlen, hchain⟩
  · rw [hu, hs', hsu] at hnew
    obtain rfl := List.append_cancel_right hnew
    obtain ⟨rc, ho, heq⟩ := hall _ hmem
    cases heq
  · rw [hu, hs', hsu] at hnew
    obtain rfl := List.append_cancel_right hnew
    rw [printed_of_prints hpu] at hlen hchain
    rw [printed_of_prints hpu] at hchain
    have hclosed : u.chain ++ links
        (if m.head then filterWrites a.output.headHeader.filter else []) = s.sentChain m a := by
      rw [hcu, sentChain, sentWrites, links_append, List.append_assoc]
    rw [hclosed] at hchain
    obtain ⟨c, l, hcl⟩ := (s.sentChain m a).eq_nil_or_concat.resolve_left (s.sentChain_ne_nil m a)
    rw [List.concat_eq_append] at hcl
    have hclose : ClosedByLast chain ↔
        filterWrites a.output.header.filter ++ filterWrites a.output.bodyFilter = [] ∧
          ∀ x ∈ c, x.lastBuf = false := by
      rw [hchain, hcl, markLast_append]
      exact closedByLast_iff c l _
    have hbytes : filterWrites a.output.header.filter ++ filterWrites a.output.bodyFilter = [] →
        chainBytes chain = chainBytes (s.sentChain m a) := fun hno => by
      rw [hchain, hcl, markLast_append, hno, chainBytes_append, chainBytes_append,
        chainBytes_append]
      rfl
    have hcount : filterWrites a.output.header.filter = [] → ho.contentLengthN =
        (s.sentWrites m a).foldl countBuf s.headersOut.contentLengthN := fun hno => by
      rw [hlen, hno, List.append_nil, hlu, sentWrites, List.foldl_append]
    rw [framed_sent, hclose, List.append_eq_nil_iff]
    constructor
    · rintro ⟨hl, ⟨hh, hb⟩, hmarks⟩
      refine ⟨⟨fun hs => ?_, fun x hx => hmarks x ?_⟩, hh, hb⟩
      · rw [← hcount hh, ← hbytes (by rw [hh, hb]; rfl)]
        exact hl hs
      · rwa [hcl, List.dropLast_concat] at hx
    · rintro ⟨⟨hl, hmarks⟩, hh, hb⟩
      refine ⟨fun hs => ?_, ⟨hh, hb⟩, fun x hx => hmarks x ?_⟩
      · rw [hcount hh, hbytes (by rw [hh, hb]; rfl)]
        exact hl hs
      · rwa [hcl, List.dropLast_concat]

end Service

/-! ## Before an internal redirect -/

namespace Service

/-- As long as no header has been sent, the length counts the chain and no link is marked. -/
def Tidy (s : Service) : Prop :=
  s.headerSent = false →
    s.headersOut.contentLengthN = (if s.chain = [] then -1 else (chainBytes s.chain : Int)) ∧
      ∀ link ∈ s.chain, link.lastBuf = false

variable {s t : Service} {ws : List Bytes}

/-- Behind the header nothing is to be shown. -/
theorem tidy_of_headerSent (h : s.headerSent = true) : s.Tidy := fun hno =>
  absurd (hno.symm.trans h) Bool.false_ne_true

/-- Counting buffers one by one counts the bytes of their links. -/
theorem foldl_countBuf (c : List ChainLink) (ws : List Bytes) :
    ws.foldl countBuf (if c = [] then -1 else (chainBytes c : Int)) =
      if c ++ links ws = [] then -1 else (chainBytes (c ++ links ws) : Int) := by
  induction ws generalizing c with
  | nil => rw [links, List.map_nil, List.append_nil, List.foldl_nil]
  | cons w ws ih =>
    have hcons : c ++ links (w :: ws) = (c ++ [⟨w, false⟩]) ++ links ws := by
      simp [links]
    have hone : countBuf (if c = [] then -1 else (chainBytes c : Int)) w =
        if c ++ [(⟨w, false⟩ : ChainLink)] = [] then -1
        else (chainBytes (c ++ [⟨w, false⟩]) : Int) := by
      rw [if_neg (List.append_ne_nil_of_right_ne_nil c (List.cons_ne_nil _ _)), chainBytes_append]
      by_cases hc : c = []
      · subst hc
        have hbytes : chainBytes [] + chainBytes [(⟨w, false⟩ : ChainLink)] = w.length := by
          simp [chainBytes]
        rw [if_pos rfl, countBuf, if_pos rfl, hbytes]
        omega
      · have hpos : (chainBytes c : Int) ≠ -1 := by omega
        rw [if_neg hc, countBuf, if_neg hpos]
        simp [chainBytes]
    rw [List.foldl_cons, hone, ih, hcons]

/-- What is printed is counted. -/
theorem Prints.tidy (h : Prints ws s t) (hs : s.Tidy) : t.Tidy := fun hsent => by
  obtain ⟨hlen, hmarks⟩ := hs (h.headerSent.symm.trans hsent)
  refine ⟨?_, fun link hm => ?_⟩
  · rw [h.length, h.chain, hlen]
    exact foldl_countBuf s.chain ws
  · rw [h.chain] at hm
    rcases List.mem_append.mp hm with hm | hm
    · exact hmarks link hm
    · obtain ⟨b, -, rfl⟩ := List.mem_map.mp hm
      rfl

/-- At the content handler the length counts what is printed. -/
theorem Tidy.counted (hs : s.Tidy) (hsent : s.headerSent = false) (m : Method)
    (a : CallAnswers) : s.Counted m a := by
  obtain ⟨hlen, hmarks⟩ := hs hsent
  refine ⟨fun _ => ?_, fun link hm => ?_⟩
  · rw [hlen, foldl_countBuf]
    exact if_neg (s.sentChain_ne_nil m a)
  · rcases List.mem_append.mp (List.dropLast_subset _ hm) with hm | hm
    · exact hmarks link hm
    · obtain ⟨b, -, rfl⟩ := List.mem_map.mp hm
      rfl

/-- A header that is sent is marked as sent. -/
theorem sendHeader_headerSent (s : Service) (h : Handler) {a : HeaderAnswer}
    (ha : a.sent = true) : (s.sendHeader h a).2.headerSent = true := by
  cases hsent : s.headerSent with
  | true =>
    rw [(s.sendHeader_twice h a hsent).2]
    exact hsent
  | false => exact (s.sendHeader_spec h a hsent).2.2.1.trans ha

/-- A body goes out behind its header. -/
theorem sendBody_headerSent (s : Service) (h : Handler) (done : Int) {a : OutputAnswers}
    (ha : a.header.sent = true) : (s.sendBody h done a).2.headerSent = true := by
  have hsent := s.markLastBuf.sendHeader_headerSent h ha
  unfold sendBody
  split
  next rc t ht =>
    rw [ht] at hsent
    split
    · exact hsent
    · have hend := (t.endRequest_prints h).headerSent
      have hfilter := ((t.endRequest h).filter_prints .ngxBodyFilter a.bodyFilter).headerSent
      exact hfilter.trans (hend.trans hsent)

/-- An output goes out behind its header. -/
theorem sendOutput_headerSent (s : Service) (m : Method) (h : Handler) (done : Int)
    {a : OutputAnswers} (hh : a.headHeader.sent = true) (ha : a.header.sent = true) :
    (s.sendOutput m h done a).2.headerSent = true := by
  unfold sendOutput
  dsimp only
  split
  · have hsent := sendHeader_headerSent (s.onHeaders fun o =>
      { o with status := if o.status = 0 then 200 else o.status }) h hh
    split
    · exact hsent
    · exact sendBody_headerSent _ h done ha
  · exact sendBody_headerSent _ h done ha

section Handlers

variable {a : OutputAnswers} (hh : a.headHeader.sent = true) (ha : a.header.sent = true)
include hh ha

/-- After the output nothing is left to be shown. -/
theorem sendOutput_tidy (s : Service) (m : Method) (h : Handler) (done : Int) :
    (s.sendOutput m h done a).2.Tidy :=
  tidy_of_headerSent (s.sendOutput_headerSent m h done hh ha)

/-- A reply leaves the length right. -/
theorem Replies.tidy (hs : s.Tidy) {m : Method} {h : Handler} {done : Int} {r : Int × Service}
    (hr : s.Replies m h done a r) : r.2.Tidy := by
  cases hr with
  | stays rc => exact hs
  | settles go output =>
    cases output with
    | silent rc => exact s.finishPhase_prints.tidy hs
    | sends => exact sendOutput_tidy hh ha _ m h done

end Handlers

/-- The reading of the body prints nothing. -/
theorem tryBody_prints (s : Service) (rb : ReadBody) : Prints [] s (s.tryBody rb).2 := by
  have hdone : Prints [] s (s.onCtx fun ctx => { ctx with readRequestBodyDone := true }) :=
    s.onCtx_prints (fun _ => rfl) fun _ => rfl
  cases rb with
  | failed rc => exact .refl s
  | again => exact s.onCtx_prints (fun _ => rfl) fun _ => rfl
  | done data =>
    change Prints [] s (s.readRequestBodyCallback data).1
    unfold readRequestBodyCallback
    dsimp only
    split
    · split
      · exact hdone.silent (onCtx_prints _ (fun _ => rfl) fun _ => rfl)
      · exact hdone
    · exact hdone

/-- The routine of a file prints what its script does. -/
theorem fileRoutine_prints (s : Service) (phase : Phase) (ds : List Deed) (b : Option Bailout) :
    Prints (s.printed (ds.flatMap Deed.writes)) s (s.fileRoutine phase ds b) := by
  have hstart : Prints [] s ((s.setPhaseStatus .ok).setRequestStatus phase.fileStatus.toInt) :=
    (s.setPhaseStatus_prints .ok).silent (prints_of_eq rfl rfl rfl)
  exact hstart.after (evaluate_prints _ ds b)

/-- A new ctx has no output. -/
theorem ensureCtx_tidy (hs : s.Tidy) (content : Bool) : (s.ensureCtx content).Tidy := hs

/-- A file handler leaves the length right. -/
theorem handleFile_tidy (hs : s.Tidy) (m : Method) (phase : Phase) {a : CallAnswers}
    (hh : a.output.headHeader.sent = true) (ha : a.output.header.sent = true) :
    (s.handleFile m phase a).2.Tidy := by
  unfold handleFile
  split
  · exact (fileAnswer_cases _ m a.output phase).tidy hh ha
      ((s.fileRoutine_prints phase a.deeds a.bailout).tidy hs)
  · exact (s.fileAnswer_cases m a.output phase).tidy hh ha hs

/-- A handler of the module leaves the length right. -/
theorem callHandler_tidy (hs : s.Tidy) (m : Method) (h : Handler) {a : CallAnswers}
    (hh : a.output.headHeader.sent = true) (ha : a.output.header.sent = true) :
    (s.callHandler m a h).2.Tidy := by
  unfold callHandler
  split
  · exact hs
  · cases h with
    | inline phase =>
      have hhandle : ∀ t : Service, t.Tidy → (t.handleInline m phase a).2.Tidy := fun t ht => by
        unfold handleInline
        split
        · exact (t.tryBody_prints a.readBody).tidy ht
        · split
          · exact (inlineAnswer_cases _ m a.output phase).tidy hh ha
              ((t.inlineRoutine_prints phase a.code).tidy ht)
          · exact (t.inlineAnswer_cases m a.output phase).tidy hh ha ht
      change (s.inlineHandler m phase a).2.Tidy
      unfold inlineHandler
      dsimp only
      split
      · exact hhandle _ hs
      · exact hhandle _ hs
    | file phase =>
      change (s.fileHandler m phase a).2.Tidy
      unfold fileHandler
      split
      · have hstart : Tidy (((s.ensureCtx true).onCtx fun ctx =>
            { ctx with requestBodyMore := true }).setRequestStatus 0) :=
          hs
        unfold contentFileHandler
        dsimp only
        split
        · exact (tryBody_prints _ a.readBody).tidy hstart
        · exact handleFile_tidy hstart m .content hh ha
      · exact handleFile_tidy (ensureCtx_tidy hs true) m phase hh ha
    | opcode => exact sendOutput_tidy hh ha _ m .opcode 0
    | stack => exact sendOutput_tidy hh ha _ m .stack 0

/-- A resumed script prints buffers. -/
theorem resume_prints (s : Service) (seg : Segment) : ∃ ws, Prints ws s (s.resume seg).1 := by
  unfold resume
  split
  · exact ⟨[], s.note_prints _⟩
  · split
    · exact ⟨[], prints_of_eq rfl rfl rfl⟩
    · have hstart : Prints [] s s.zendTry := prints_of_eq rfl rfl rfl
      have htry : Prints [] s s.zendTry.enterClosure := hstart.silent (enterClosure_prints _)
      have hacts : Prints (s.printed seg.writes) s (s.zendTry.enterClosure.acts seg.deeds) :=
        htry.after (acts_prints _ seg.deeds)
      refine ⟨_, hacts.silent ?_⟩
      generalize s.zendTry.enterClosure.acts seg.deeds = t
      have hstatus : ∀ rc, Prints [] t (t.enterClosure.setPhaseStatus rc) := fun rc =>
        t.enterClosure_prints.silent (setPhaseStatus_prints _ rc)
      cases seg.stop with
      | bailout b => exact t.caught_prints .resume s.bailout b
      | failure => exact t.note_prints _
      | valid =>
        unfold resumeNext
        dsimp only
        split
        · exact t.note_prints _
        · exact (hstatus .again).silent (prints_of_eq rfl rfl rfl)
      | ended =>
        unfold resumeNext
        dsimp only
        split
        · exact t.note_prints _
        · exact (hstatus .ok).silent (freeClosure_prints _)

end Service

/-! ## Whole requests -/

namespace Passage

/-- What the step adds to the record about sending. -/
def sent (s : Passage) (l : PassageStep) : List Occurrence :=
  (s.step l).service.sendings.take
    ((s.step l).service.sendings.length - s.service.sendings.length)

/-- The content handler is called and sends the response. -/
def SendsContent (s : Passage) (l : PassageStep) : Prop :=
  s.rest.head? = some (.inline .content) ∧ ∃ h chain, .outputFilter h chain ∈ s.sent l

/-- What the content handler sends is framed. -/
def FramesContent (s : Passage) (l : PassageStep) : Prop :=
  ∀ a, l = .call a → s.SendsContent l → Framed (s.sent l)

/-- The content handler sends when the length counts the chain and no link has been marked, and the
filters print nothing. -/
def PrintsInTime (s : Passage) (l : PassageStep) : Prop :=
  ∀ a, l = .call a → s.SendsContent l → s.service.Counted s.method a ∧
    filterWrites a.output.header.filter = [] ∧ filterWrites a.output.bodyFilter = []

/-- The checker of a phase sends nothing. -/
theorem check_sendings (s : Passage) (h : Handler) (rc : Int) :
    (s.check h rc).service.sendings = s.service.sendings := by
  unfold check
  dsimp only
  split
  · rfl
  · split <;> rfl

/-- A call sends what its handler does. -/
theorem call_sendings (s : Passage) (h : Handler) (a : CallAnswers) :
    (s.call h a).service.sendings = (s.service.callHandler s.method a h).2.sendings := by
  unfold call
  split
  next t ht => rw [ht]
  next rc t ht =>
    rw [ht]
    exact check_sendings _ h rc

/-- A step that sends something is the call of a handler. -/
theorem step_call_sendings (s : Passage) {a : CallAnswers} {h : Handler}
    (hhead : s.rest.head? = some h) (hen : s.Enabled (.call a)) :
    (s.step (.call a)).service.sendings = (s.service.callHandler s.method a h).2.sendings := by
  rw [step, if_pos hen, perform]
  split
  next h' rest hrest =>
    rw [hrest, List.head?_cons, Option.some_inj] at hhead
    rw [hhead]
    exact s.call_sendings h a
  next hnil =>
    rw [hnil] at hhead
    cases hhead

/-- What a step adds to the record is what it sends. -/
theorem sent_eq {s : Passage} {l : PassageStep} {new : List Occurrence}
    (h : (s.step l).service.sendings = new ++ s.service.sendings) : s.sent l = new := by
  rw [sent, h, List.length_append, Nat.add_sub_cancel, List.take_left]

/-- A content handler only adds to what has been sent. -/
theorem callHandler_sendings (s : Service) (m : Method) (a : CallAnswers) :
    ∃ new, (s.callHandler m a (.inline .content)).2.sendings = new ++ s.sendings := by
  rcases s.contentHandler_cases m a with hno | ⟨u, hu, heq⟩
  · exact ⟨[], hno⟩
  · rcases u.sendOutput_cases m (.inline .content) 0 a.output with ⟨new, h, -⟩ | ⟨-, _, _, h, -⟩
    · exact ⟨new, by rw [heq, h, hu.sendings]⟩
    · exact ⟨_, by rw [heq, h, hu.sendings]⟩

/-- What the content handler sends is framed exactly when everything has been printed in time. -/
theorem framesContent_iff (s : Passage) (l : PassageStep) :
    s.FramesContent l ↔ s.PrintsInTime l := by
  refine forall_congr' fun a => forall_congr' fun hl => forall_congr' fun hsend => ?_
  subst hl
  obtain ⟨hhead, h, chain, hmem⟩ := hsend
  by_cases hen : s.Enabled (.call a)
  · obtain ⟨new, hnew⟩ := callHandler_sendings s.service s.method a
    have hsent : s.sent (.call a) = new := sent_eq ((s.step_call_sendings hhead hen).trans hnew)
    rw [hsent] at hmem ⊢
    exact s.service.contentHandler_framed_iff s.method a hnew ⟨h, chain, hmem⟩
  · have hnone : s.sent (.call a) = [] := by
      rw [sent, step, if_neg hen, Nat.sub_self, List.take_zero]
    rw [hnone] at hmem
    cases hmem

end Passage

/-- In a run of a request everything that the content handler sends is framed exactly if each time
the length counts the chain, no link has been marked, and the filters print nothing. -/
theorem content_framed_iff (method : Method) (loc : Location) (exitStatus : Int)
    (bailout : Option JmpBuf) (ls : List PassageStep) :
    Along Passage.step Passage.FramesContent (.start method loc exitStatus bailout) ls ↔
      Along Passage.step Passage.PrintsInTime (.start method loc exitStatus bailout) ls :=
  along_iff_of_invariant (I := fun _ => True) (fun _ _ _ _ => trivial)
    (fun s l _ => s.framesContent_iff l) trivial ls

namespace Passage

/-- The step is no internal redirect, and serialises the headers that it sends. -/
def Serialises (_ : Passage) : PassageStep → Prop
  | .call a => a.output.headHeader.sent = true ∧ a.output.header.sent = true
  | .passHeader _ a => a.sent = true
  | .log _ => True
  | .redirect _ => False
  | _ => True

/-- The filters print nothing while the content handler sends. -/
def FiltersSilent (s : Passage) (l : PassageStep) : Prop :=
  ∀ a, l = .call a → s.SendsContent l →
    filterWrites a.output.header.filter = [] ∧ filterWrites a.output.bodyFilter = []

/-- The checker of a phase leaves the length right. -/
theorem check_service_tidy {s : Passage} (hs : s.service.Tidy) (h : Handler) (rc : Int) :
    (s.check h rc).service.Tidy := by
  unfold check
  dsimp only
  split
  · exact hs
  · split <;> exact hs

/-- Each step that serialises its headers leaves the length right. -/
theorem step_tidy {s : Passage} {l : PassageStep} (hs : s.service.Tidy) (hl : s.Serialises l) :
    (s.step l).service.Tidy := by
  unfold step
  split
  · cases l with
    | call a =>
      unfold perform
      dsimp only
      split
      next h rest _ =>
        have hcall := Service.callHandler_tidy hs s.method h hl.1 hl.2
        unfold call
        split
        next t ht =>
          rw [ht] at hcall
          exact hcall
        next rc t ht =>
          rw [ht] at hcall
          exact check_service_tidy (s := { s with
            service := t
            reading := s.reading || (s.readsBody h && a.readBody = ReadBody.again) }) hcall h rc
      next => exact hs
    | outerReturns =>
      unfold perform
      dsimp only
      split
      next h outer _ => exact check_service_tidy (s := { s with outer }) hs h _
      next => exact hs
    | resumeReturns =>
      unfold perform
      dsimp only
      split
      · exact hs
      · exact hs
    | resume seg =>
      obtain ⟨ws, hprints⟩ := s.service.resume_prints seg
      have hresume := hprints.tidy hs
      change (s.resumeScript seg).service.Tidy
      unfold resumeScript
      split
      next t ht =>
        rw [ht] at hresume
        exact hresume
      next t ht =>
        rw [ht] at hresume
        exact hresume
    | bodyRead data => exact (s.service.tryBody_prints (.done data)).tidy hs
    | socket waits => exact (s.service.setPhaseStatus_prints _).tidy hs
    | log code => exact (Service.routine_prints _ .ngxLog code).tidy hs
    | redirect loc => exact absurd hl not_false
    | passHeader headersOut a => exact Service.tidy_of_headerSent hl
    | passOutput filter => exact (s.service.filter_prints .ngxBodyFilter filter).tidy hs
    | _ => exact hs
  · exact hs

/-- What is sent by the content handler is sent for the first time. -/
theorem SendsContent.headerSent {s : Passage} {a : CallAnswers}
    (h : s.SendsContent (.call a)) : s.service.headerSent = false := by
  obtain ⟨hhead, h, chain, hmem⟩ := h
  have hen : s.Enabled (.call a) := by
    by_contra hen
    rw [sent, step, if_neg hen, Nat.sub_self, List.take_zero] at hmem
    cases hmem
  have hstep := s.step_call_sendings hhead hen
  rcases s.service.contentHandler_cases s.method a with hno | ⟨u, hu, heq⟩
  · have hnone : s.sent (.call a) = [] := sent_eq (hstep.trans hno)
    rw [hnone] at hmem
    cases hmem
  · rcases u.sendOutput_cases s.method (.inline .content) 0 a.output with
      ⟨new, hnew, hall⟩ | ⟨hsent, -⟩
    · rw [heq, hnew, hu.sendings] at hstep
      rw [sent_eq hstep] at hmem
      obtain ⟨rc, ho, heq⟩ := hall _ hmem
      cases heq
    · exact hu.headerSent.symm.trans hsent

/-- While the length is right, a response is framed exactly when its filters are silent. -/
theorem framesContent_iff_silent {s : Passage} (hs : s.service.Tidy) (l : PassageStep) :
    s.FramesContent l ↔ s.FiltersSilent l := by
  rw [framesContent_iff]
  refine forall_congr' fun a => forall_congr' fun hl => forall_congr' fun hsend => ?_
  subst hl
  exact and_iff_right (hs.counted hsend.headerSent s.method a)

end Passage

/-- Before an internal redirect only what the filters print can break the frame. -/
theorem content_framed_iff_silent (method : Method) (loc : Location) (exitStatus : Int)
    (bailout : Option JmpBuf) {ls : List PassageStep}
    (h : Along Passage.step Passage.Serialises (.start method loc exitStatus bailout) ls) :
    Along Passage.step Passage.FramesContent (.start method loc exitStatus bailout) ls ↔
      Along Passage.step Passage.FiltersSilent (.start method loc exitStatus bailout) ls := by
  have hboth : ∀ (s : Passage) l, s.service.Tidy →
      (s.FramesContent l ∧ s.Serialises l ↔ s.FiltersSilent l ∧ s.Serialises l) := fun s l hs =>
    and_congr_left fun _ => Passage.framesContent_iff_silent hs l
  have hiff := along_iff_of_invariant (I := fun s : Passage => s.service.Tidy)
    (fun s l hs hl => Passage.step_tidy hs hl.2) hboth
    (s := .start method loc exitStatus bailout) (fun _ => ⟨rfl, nofun⟩) ls
  rw [along_and, along_and] at hiff
  exact and_congr_left_iff.mp hiff h

/-- The body filter prints behind the end of the chain and after the length has been sent. -/
theorem bodyFilter_prints_late :
    let script (ws : Bytes) : Code := .compiled (.run [.echo ws] .value)
    ¬ Along Passage.step Passage.FramesContent (.start {} contentOnly 0 none)
      [.call { code := script [104, 105], output := { bodyFilter := some (script [120]) } }] := by
  intro script h
  have hframed := h.1 _ rfl ⟨rfl, .inline .content, [⟨[104, 105], true⟩, ⟨[120], false⟩],
    by decide +kernel⟩
  exact absurd (hframed (.inline .content) [⟨[104, 105], true⟩, ⟨[120], false⟩]
    (by decide +kernel)).2.2 (by decide)

end NgxPhp
