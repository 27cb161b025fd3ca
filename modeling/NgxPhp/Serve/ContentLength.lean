import NgxPhp.Php.ResponseHeaders
import NgxPhp.Serve.Framing

/-!
# An explicit length

`ngx_header_set` of `Content-Length` assigns `headers_out.content_length_n`, in which
`ngx_http_php_code_ub_write` sums up what is printed. What has been printed before the call is
forgotten, what is printed behind it is added once more, and so is the blank that the
content handler sends where nothing has been printed.
-/

namespace NgxPhp

/-- One thing that a content script does between its start and its end. -/
inductive ContentAct
  | deed (d : Deed)
  /-- The function that runs it, entered with `entry`, returns, and later it is resumed. -/
  | waits (fn : UthreadFn) (entry : Option JmpBuf)
  deriving DecidableEq, Repr

/-- The buffers that it prints. -/
def ContentAct.writes : ContentAct → List Bytes
  | .deed d => d.writes
  | .waits _ _ => []

/-- What a part of a script prints. -/
def scriptWrites (acts : List ContentAct) : List Bytes := acts.flatMap ContentAct.writes

/-- The bytes of a part of a script. -/
def scriptBytes (acts : List ContentAct) : Nat := (scriptWrites acts).flatten.length

namespace Service

variable {s t u : Service} {ds : List Deed}

/-- What lies between the deeds before a `yield` and those behind it: the end of
`ngx_http_php_zend_uthread_create` or of a resume, and the start of the next resume. -/
def waits (s : Service) (entry : Option JmpBuf) : UthreadFn → Service
  | .create p =>
    (((s.setPhaseStatus .again).zendEndTry entry).leave (.create p) entry).zendTry.enterClosure
  | .resume =>
    (((s.enterClosure.setPhaseStatus .again).zendEndTry entry).leave .resume
      entry).zendTry.enterClosure

/-- One thing that the script does. -/
def contentAct (s : Service) : ContentAct → Service
  | .deed d => s.act d
  | .waits fn entry => s.waits entry fn

def contentActs (s : Service) (acts : List ContentAct) : Service := acts.foldl contentAct s

/-- `ngx_header_set`, which may assign the length; of the other headers these fields are kept
elsewhere. -/
def headerSet (s : Service) (mem : Memory) (allocated : Bool) (others : OutHeaders)
    (key : PhpString) (value : HeaderValue) : Service :=
  s.onHeaders fun h => { h with
    contentLengthN := (ngxHeaderSet mem allocated
      { others with contentLengthN := h.contentLengthN } key value).out.contentLengthN }

/-- The content handler has made sure of the ctx and starts the script. -/
def enterContent (s : Service) : Service :=
  ((s.ensureCtx true).setPhaseStatus .ok).setRequestStatus Rc.declined.toInt

/-- The handler goes on to send, and does not return the status of the script. -/
def SendsHeader (s : Service) : Prop :=
  ¬ Executor.isRefused s.exitStatus ∧ (s.exitStatus ≥ 0 ∨ s.exitStatus = Rc.declined.toInt)

instance decidableSendsHeader (s : Service) : Decidable s.SendsHeader :=
  inferInstanceAs (Decidable (_ ∧ _))

/-- The request as it is when `ngx_http_php_content_inline_handler` sends the header. -/
def headed (s : Service) : Service := s.finishPhase.blank

/-- A content script that sets the length to that of all its output, at some place in it. -/
def lengthScript (s : Service) (mem : Memory) (allocated : Bool) (others : OutHeaders)
    (key : PhpString) (before after : List ContentAct) : Service :=
  ((s.enterContent.contentActs before).headerSet mem allocated others key
    (.long (scriptBytes (before ++ after)))).contentActs after

/-! ## The sum -/

theorem waits_prints (s : Service) (entry : Option JmpBuf) (fn : UthreadFn) :
    Prints [] s (s.waits entry fn) := by
  have hleave : ∀ (t : Service) (fn : UthreadFn),
      Prints [] t (((t.setPhaseStatus .again).zendEndTry entry).leave fn
        entry).zendTry.enterClosure := by
    intro t fn
    have hstop : Prints [] t (((t.setPhaseStatus .again).zendEndTry entry).leave fn
        entry).zendTry := (t.setPhaseStatus_prints .again).silent (prints_of_eq rfl rfl rfl)
    exact hstop.silent (enterClosure_prints _)
  cases fn with
  | create p => exact hleave s (.create p)
  | resume => exact s.enterClosure_prints.silent (hleave _ .resume)

theorem contentActs_prints (s : Service) (acts : List ContentAct) :
    Prints (s.printed (scriptWrites acts)) s (s.contentActs acts) := by
  induction acts generalizing s with
  | nil =>
    rw [scriptWrites, List.flatMap_nil, printed_nil]
    exact .refl s
  | cons act acts ih =>
    rw [scriptWrites, List.flatMap_cons]
    refine Prints.then ?_ (ih (s.contentAct act))
    cases act with
    | deed d => exact s.act_prints d
    | waits fn entry =>
      change Prints (s.printed []) s _
      rw [printed_nil]
      exact s.waits_prints entry fn

/-- Behind the start marker the length is a sum. -/
theorem foldl_countBuf_nonneg {n : Int} (hn : 0 ≤ n) (ws : List Bytes) :
    ws.foldl countBuf n = n + ws.flatten.length := by
  induction ws generalizing n with
  | nil => exact (Int.add_zero n).symm
  | cons w ws ih =>
    have hone : countBuf n w = n + w.length := by
      rw [countBuf, if_neg (by omega), Int.add_zero]
    rw [List.foldl_cons, hone, ih (by omega), List.flatten_cons, List.length_append]
    omega

/-- Any spelling of the name is routed to the content length. -/
theorem headerSet_contentLength {key : PhpString}
    (hkey : SameName key.text (literal "Content-Length")) (s : Service) (mem : Memory)
    (allocated : Bool) (others : OutHeaders) (n : Int) :
    s.headerSet mem allocated others key (.long n) =
      s.onHeaders fun h => { h with contentLengthN := n } := by
  have hlength : IsContentLength key.text := by
    rw [IsContentLength, hkey.ngxStrncasecmp]
    decide
  have htype : ¬ IsContentType key.text := fun ht => ht.not_isContentLength hlength
  have hset : ∀ out : OutHeaders,
      (ngxHeaderSet mem allocated out key (.long n)).out.contentLengthN = n := by
    intro out
    rw [ngxHeaderSet, if_neg HeaderValue.noConfusion, if_neg htype, if_pos hlength]
    rfl
  unfold headerSet
  simp only [hset]

/-- Before the call and behind it a script has printed, and the header is about to be sent. -/
theorem headed_contentLengthN (hp : s.prints = true) (hctx : s.ctx.isSome = true) {key : PhpString}
    (hkey : SameName key.text (literal "Content-Length")) (mem : Memory) (allocated : Bool)
    (others : OutHeaders) (before after : List ContentAct) {n : Int} (hn : 0 ≤ n) :
    (((s.contentActs before).headerSet mem allocated others key (.long n)).contentActs
        after).headed.headersOut.contentLengthN =
      n + scriptBytes after +
        if s.chain = [] ∧ scriptWrites (before ++ after) = [] then 1 else 0 := by
  rw [headerSet_contentLength hkey]
  have hbefore := s.contentActs_prints before
  rw [printed, if_pos hp] at hbefore
  generalize hset : ((s.contentActs before).onHeaders fun h => { h with contentLengthN := n }) = t
  have hchain : t.chain = s.chain ++ links (scriptWrites before) := hset ▸ hbefore.chain
  have hlength : t.headersOut.contentLengthN = n := hset ▸ rfl
  have hctx' : t.ctx.isSome = true := hset ▸ hbefore.ctx.trans hctx
  have hafter := t.contentActs_prints after
  rw [printed, if_pos (show t.prints = true from hset ▸ hbefore.prints.trans hp)] at hafter
  have hfinish := hafter.silent (finishPhase_prints _)
  have hblank := hfinish.trans
    (blank_prints _ (show (t.contentActs after).finishPhase.ctx.isSome = true from
      hfinish.ctx.trans hctx'))
  have hempty : (t.contentActs after).finishPhase.chain = [] ↔
      s.chain = [] ∧ scriptWrites (before ++ after) = [] := by
    rw [hfinish.chain, hchain, List.append_assoc, ← links, ← links_append]
    simp [links, scriptWrites]
  rw [headed, hblank.length, hlength, foldl_countBuf_nonneg hn, List.flatten_append,
    List.length_append]
  by_cases hno : s.chain = [] ∧ scriptWrites (before ++ after) = []
  · rw [if_pos hno, if_pos (hempty.mpr hno), scriptBytes]
    simp
    omega
  · rw [if_neg hno, if_neg (mt hempty.mp hno), scriptBytes]
    simp

theorem contentInlineSetOutput_sends (hs : s.SendsHeader) (m : Method) (a : OutputAnswers) :
    s.contentInlineSetOutput m a = s.headed.sendOutput m (.inline .content) 0 a := by
  unfold contentInlineSetOutput
  dsimp only
  rw [if_neg hs.1, if_pos hs.2]
  rfl

/-- Wherever a content script sets the length to that of all its output, the handler sends the
header with this length if and only if there is output and none of its bytes is printed
behind the call. -/
theorem lengthScript_inAnyOrder_iff (s : Service) (mem : Memory) (allocated : Bool)
    (others : OutHeaders) (before after : List ContentAct) {key : PhpString}
    (hkey : SameName key.text (literal "Content-Length"))
    (hs : (s.lengthScript mem allocated others key before after).SendsHeader) (m : Method)
    (a : OutputAnswers) :
    let u := s.lengthScript mem allocated others key before after
    u.contentInlineSetOutput m a = u.headed.sendOutput m (.inline .content) 0 a ∧
      (u.headed.headersOut.contentLengthN = scriptBytes (before ++ after) ↔
        (s.chain ≠ [] ∨ scriptWrites (before ++ after) ≠ []) ∧ scriptBytes after = 0) := by
  refine ⟨contentInlineSetOutput_sends hs m a, ?_⟩
  rw [lengthScript, headed_contentLengthN rfl rfl hkey _ _ _ _ _ (Int.natCast_nonneg _)]
  have hchain : s.enterContent.chain = s.chain := rfl
  rw [hchain, ← not_and_or]
  split
  next hno => exact iff_of_false (by omega) fun h => h.1 hno
  next hno =>
    rw [and_iff_right hno]
    omega

/-- The length is set behind the output. -/
theorem lengthScript_test :
    let u := Service.lengthScript { exitStatus := 0 } (.of []) true {}
      ⟨0, literal "Content-Length"⟩ [.deed (.echo [65])] []
    u.contentInlineSetOutput {} {} = u.headed.sendOutput {} (.inline .content) 0 {} ∧
      u.headed.headersOut.contentLengthN = scriptBytes [.deed (.echo [65])] := by
  obtain ⟨hsent, hlength⟩ := lengthScript_inAnyOrder_iff { exitStatus := 0 }
    (.of []) true {} [.deed (.echo [65])] []
    (show SameName (PhpString.text ⟨0, literal "Content-Length"⟩) (literal "Content-Length")
      from rfl) (by decide) {} {}
  exact ⟨hsent, hlength.mpr ⟨Or.inr (List.cons_ne_nil _ _), rfl⟩⟩

/-- Set before the output, the length comes out twice as long. -/
theorem lengthScript_not_inAnyOrder :
    ¬ ∀ (s : Service) (mem : Memory) (allocated : Bool) (others : OutHeaders)
      (before after : List ContentAct) (key : PhpString),
      SameName key.text (literal "Content-Length") →
      (s.lengthScript mem allocated others key before after).SendsHeader →
      (s.lengthScript mem allocated others key before after).headed.headersOut.contentLengthN =
        scriptBytes (before ++ after) := by
  intro h
  have hkey : SameName (literal "content-length") (literal "Content-Length") := by decide
  have htwice := h { exitStatus := 0 } (.of []) true {} []
    [.deed (.echo [65])] ⟨0, literal "content-length"⟩ hkey (by decide)
  rw [lengthScript, headed_contentLengthN rfl rfl hkey _ _ _ _ _ (Int.natCast_nonneg _)] at htwice
  revert htwice
  decide

end Service

end NgxPhp
