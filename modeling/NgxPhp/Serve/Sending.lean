import NgxPhp.Serve.Printing

/-!
# What the handlers send

The call of `ngx_http_send_header`, what it serialises, the chain that is passed on
behind it and the end of the ctx, for each way through the section that all handlers
share. The scripts of the two filters print in between.
-/

open Ledger

namespace NgxPhp

/-- The occurrences that are about sending. -/
def Occurrence.ofSending : Occurrence → Bool
  | .sendHeader _ _ _ => true
  | .outputFilter _ _ => true
  | .ctxCleared _ => true
  | _ => false

/-- What a filter of the module prints. -/
def filterWrites (filter : Option Code) : List Bytes := filter.elim [] Code.writes

namespace Service

variable {s t u : Service}

/-- What the record says about sending. -/
def sendings (s : Service) : List Occurrence := s.history.filter Occurrence.ofSending

/-- Nothing is sent from `s` to `t`. -/
abbrev Quiet (s t : Service) : Prop := Adds (fun o => o.ofSending = false) s t

/-- What adds nothing about sending has sent the same. -/
theorem Adds.sendings (h : Quiet s t) : t.sendings = s.sendings := h.filter_eq fun _ ho => ho

theorem ofSending_of_ofGenerator (o : Occurrence) (h : o.ofGenerator = true) :
    o.ofSending = false := by
  cases o with
  | sendHeader => cases h
  | outputFilter => cases h
  | ctxCleared => cases h
  | _ => rfl

/-- A routine sends nothing. -/
theorem routine_quiet (s : Service) (p : FuncPrefix) (code : Code) : Quiet s (s.routine p code) :=
  routine_adds ofSending_of_ofGenerator s p code rfl (fun _ => rfl) fun _ _ _ => rfl

/-- A filter sends nothing by itself. -/
theorem filter_quiet (s : Service) (p : FuncPrefix) (filter : Option Code) :
    Quiet s (filter.elim s fun code => s.routine p code) := by
  cases filter with
  | none => exact .refl s
  | some code => exact s.routine_quiet p code

/-- A filter prints what its script does. -/
theorem filter_prints (s : Service) (p : FuncPrefix) (filter : Option Code) :
    Prints (s.printed (filterWrites filter)) s (filter.elim s fun code => s.routine p code) := by
  cases filter with
  | none =>
    change Prints (s.printed []) s s
    rw [printed_nil]
    exact .refl s
  | some code => exact s.routine_prints p code

/-- What `ngx_http_send_header` does where no header has been sent. -/
theorem sendHeader_spec (s : Service) (h : Handler) (a : HeaderAnswer)
    (hs : s.headerSent = false) :
    (s.sendHeader h a).1 = a.rc ∧
      Prints (s.printed (filterWrites a.filter)) s
        { (s.sendHeader h a).2 with headerSent := s.headerSent } ∧
      (s.sendHeader h a).2.headerSent = a.sent ∧
      (s.sendHeader h a).2.sendings = .sendHeader h a.rc
        (if a.sent then some (s.sendHeader h a).2.headersOut else none) :: s.sendings := by
  have hprints := s.filter_prints .ngxHeaderFilter a.filter
  have hquiet := (s.filter_quiet .ngxHeaderFilter a.filter).sendings
  unfold sendHeader
  rw [if_neg (by rw [hs]; exact Bool.false_ne_true)]
  refine ⟨rfl, ⟨hprints.chain, hprints.length, hprints.ctx, hprints.prints, rfl⟩, rfl, ?_⟩
  exact (List.filter_cons_of_pos rfl).trans (congrArg _ hquiet)

/-- A second header is refused. -/
theorem sendHeader_twice (s : Service) (h : Handler) (a : HeaderAnswer)
    (hs : s.headerSent = true) :
    (s.sendHeader h a).1 = Rc.error.toInt ∧
      (s.sendHeader h a).2 = s.note (.sendHeader h Rc.error.toInt none) := by
  unfold sendHeader
  rw [if_pos hs]
  exact ⟨rfl, rfl⟩

/-- The chain is marked at its last link. -/
theorem markLastBuf_chain (s : Service) : s.markLastBuf.chain = markLast s.chain := by
  cases hc : s.ctx <;> simp [chain, markLastBuf, onCtx, hc, markLast]

/-- Marking the last buffer does not change where output goes. -/
theorem markLastBuf_prints (s : Service) : s.markLastBuf.prints = s.prints := by
  cases hc : s.ctx <;> simp [prints, markLastBuf, onCtx, hc]

/-- The end of a request prints nothing. -/
theorem endRequest_prints (s : Service) (h : Handler) : Prints [] s (s.endRequest h) := by
  cases h with
  | opcode => exact .refl s
  | stack => exact .refl s
  | _ => exact s.onCtx_prints (fun _ => rfl) fun _ => rfl

/-- What follows the header: the body filter prints, and the chain is passed on. -/
theorem outputFilter_spec (s : Service) (h : Handler) (filter : Option Code) :
    (s.outputFilter h filter).chain =
        s.chain ++ (s.printed (filterWrites filter)).map (fun b => ⟨b, false⟩) ∧
      (s.outputFilter h filter).sendings =
        .outputFilter h (s.outputFilter h filter).chain :: s.sendings := by
  have hprints := s.filter_prints .ngxBodyFilter filter
  have hquiet := (s.filter_quiet .ngxBodyFilter filter).sendings
  exact ⟨hprints.chain, (List.filter_cons_of_pos rfl).trans (congrArg _ hquiet)⟩

/-- Where the header is sent, the whole chain is passed on and the ctx goes. -/
theorem sendBody_sends (s : Service) (h : Handler) (done : Int) (a : OutputAnswers)
    (hs : s.headerSent = false) (hrc : a.header.rc = 0) :
    (s.sendBody h done a).1 = done ∧ (s.sendBody h done a).2.ctx = none ∧
      ∃ ho : HeadersOut, ∃ chain : List ChainLink,
        (s.sendBody h done a).2.sendings = [.ctxCleared chain, .outputFilter h chain,
          .sendHeader h 0 (if a.header.sent then some ho else none)] ++ s.sendings ∧
        ho.contentLengthN = (s.printed (filterWrites a.header.filter)).foldl countBuf
          s.headersOut.contentLengthN ∧
        chain = markLast s.chain ++ (s.printed
          (filterWrites a.header.filter ++ filterWrites a.bodyFilter)).map fun b => ⟨b, false⟩ := by
  obtain ⟨hfst, hprints, -, hsendings⟩ := s.markLastBuf.sendHeader_spec h a.header hs
  rw [hrc] at hfst hsendings
  unfold sendBody
  split
  next rc t ht =>
    rw [ht] at hfst hprints hsendings
    obtain rfl : rc = 0 := hfst
    rw [if_neg (not_not.mpr rfl)]
    have hmark : ∀ ws, s.markLastBuf.printed ws = s.printed ws := fun ws => by
      rw [printed, printed, markLastBuf_prints]
    have hend := t.endRequest_prints h
    have hquiet : (t.endRequest h).sendings = t.sendings := (t.endRequest_adds h).sendings
    obtain ⟨hchain, hout⟩ := (t.endRequest h).outputFilter_spec h a.bodyFilter
    refine ⟨rfl, rfl, t.headersOut, ((t.endRequest h).outputFilter h a.bodyFilter).chain,
      ?_, ?_, ?_⟩
    · refine (List.filter_cons_of_pos rfl).trans (congrArg _ ?_)
      rw [show List.filter Occurrence.ofSending _ = _ from hout, hquiet, hsendings]
      rfl
    · rw [← hmark]
      exact hprints.length
    · have hpt : t.prints = s.prints := hprints.prints.trans s.markLastBuf_prints
      have hct : t.chain = _ := hprints.chain
      have hbody : (t.endRequest h).printed (filterWrites a.bodyFilter) =
          s.printed (filterWrites a.bodyFilter) := by
        rw [printed, printed, hend.prints, hpt]
      rw [hchain, hend.chain, hct, markLastBuf_chain, hmark, hbody, printed_append,
        List.map_append, List.map_nil, List.append_nil, List.append_assoc]

/-- Where the header is not sent, nothing is passed on. -/
theorem sendBody_fails (s : Service) (h : Handler) (done : Int) (a : OutputAnswers)
    (hs : s.headerSent = true ∨ a.header.rc ≠ 0) :
    ∃ rc ho, rc ≠ 0 ∧ (s.sendBody h done a).1 = rc ∧
      (s.sendBody h done a).2.sendings = .sendHeader h rc ho :: s.sendings := by
  unfold sendBody
  cases hsent : s.headerSent with
  | true =>
    obtain ⟨hfst, hsnd⟩ := s.markLastBuf.sendHeader_twice h a.header hsent
    split
    next rc t ht =>
      rw [ht] at hfst hsnd
      obtain rfl : rc = Rc.error.toInt := hfst
      obtain rfl : t = _ := hsnd
      rw [if_pos (by decide)]
      exact ⟨Rc.error.toInt, none, by decide, rfl, rfl⟩
  | false =>
    have hrc : a.header.rc ≠ 0 := hs.resolve_left (by rw [hsent]; exact Bool.false_ne_true)
    obtain ⟨hfst, -, -, hsendings⟩ := s.markLastBuf.sendHeader_spec h a.header hsent
    split
    next rc t ht =>
      rw [ht] at hfst hsendings
      obtain rfl : rc = a.header.rc := hfst
      rw [if_pos hrc]
      exact ⟨_, _, hrc, rfl, hsendings⟩

end Service

end NgxPhp
