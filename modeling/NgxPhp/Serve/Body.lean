import NgxPhp.Php.Arguments
import NgxPhp.Serve.Handler

/-!
# The body of a request

Once nginx has read the body it calls `ngx_http_php_read_request_body_callback`, which
stores in the ctx what `ngx_request_body` returns and runs the phases. It does neither for
every form of the body: one that is partly in a file is not stored, and behind one that
is stored the phases run only if `request_body_more` is set. A ctx made anew, as
behind an internal redirect, has nothing stored in it.
-/

namespace NgxPhp

/-- The forms in which nginx has the body of a request. -/
inductive BodyForm
  /-- There is no `r->request_body`. -/
  | absent
  /-- All of it is in memory, in any number of buffers. -/
  | memory (bufs : List Bytes)
  /-- What comes behind these buffers is in `temp_file`, and the last buffer stands for it. -/
  | file (bufs : List Bytes) (rest : Bytes)
  deriving DecidableEq, Repr

namespace BodyForm

/-- The bytes of the body. -/
def body : BodyForm → Bytes
  | absent => []
  | memory bufs => bufs.flatten
  | file bufs rest => bufs.flatten ++ rest

/-- `r->request_body`. -/
def requestBody : BodyForm → Option RequestBody
  | absent => none
  | memory bufs => some { bufs }
  | file bufs _ => some { tempFile := true, bufs := bufs ++ [[]] }

/-- The bytes of a body that is in memory as a whole. -/
def held : BodyForm → Bytes
  | memory bufs => bufs.flatten
  | _ => []

/-- It is in several buffers, so that it must be copied. -/
def chained : BodyForm → Bool
  | memory bufs => 1 < bufs.length
  | _ => false

end BodyForm

/-- The part of the ctx that is about the body. -/
structure BodyCtx where
  requestBodyMore : Bool := false
  readRequestBodyDone : Bool := false
  /-- The string `request_body_ctx`. -/
  requestBodyCtx : Bytes := []
  deriving DecidableEq, Repr

/-- Whether a handler sets `request_body_more` when it is entered. -/
def Handler.setsMore : Handler → Bool
  | .file .content | .opcode | .stack => true
  | _ => false

/-- Whether a handler reads the body of a request with this method. -/
def Handler.readsBody (m : Method) : Handler → Bool
  | .inline _ => m.hasBody
  | .file .content => m.post
  | _ => false

namespace BodyCtx

/-- The body is stored, and the phases run if `request_body_more` is set. -/
def store (ctx : BodyCtx) (b : Bytes) : BodyCtx × Bool :=
  if ctx.requestBodyMore then
    ({ ctx with requestBodyCtx := b, requestBodyMore := false }, true)
  else ({ ctx with requestBodyCtx := b }, false)

/-- `ngx_http_php_read_request_body_callback`, and whether it runs the phases. There is no result
where it copies to `NULL`, as there is no room for the copy. -/
def readRequestBodyCallback (ctx : BodyCtx) (allocated : Bool) (rb : Option RequestBody) :
    Option (BodyCtx × Bool) :=
  let ctx := { ctx with readRequestBodyDone := true }
  match rb with
  | none => some (ctx, true)
  | some body =>
    match body.bufs with
    | [] => some (ctx, true)
    | buf :: bufs =>
      if body.tempFile then some (ctx, true)
      else if bufs = [] then
        if buf.length = 0 then some (ctx, true) else some (ctx.store buf)
      else
        let len := (buf :: bufs).foldl (fun len buf => len + buf.length) 0
        if len = 0 then some (ctx, true)
        else if allocated then some (ctx.store (((buf :: bufs).foldl (· ++ ·) []).take len))
        else none

/-- `ngx_request_body`. -/
def ngxRequestBody (ctx : BodyCtx) : Bytes := ctx.requestBodyCtx

/-- A handler is entered. -/
def enter (ctx : BodyCtx) (h : Handler) : BodyCtx :=
  { ctx with requestBodyMore := ctx.requestBodyMore || h.setsMore }

end BodyCtx

/-- What comes of `ngx_http_read_client_request_body`: it may call the callback at once. -/
inductive BodyAnswer
  | failed
  | again
  | handed (allocated : Bool)
  deriving DecidableEq, Repr

/-- What happens to a request, as far as its body is concerned. -/
inductive BodyStep
  | postRead
  /-- A handler is entered, with a ctx that it has made if there was none. -/
  | enter (h : Handler) (m : Method) (a : BodyAnswer)
  /-- nginx has read the rest of the body and calls the callback. -/
  | handed (allocated : Bool)
  /-- A script calls `ngx_request_body`. Without a ctx no script runs. -/
  | script
  /-- The ctx is taken away, by the handler that has sent the response or by nginx. -/
  | cleared
  deriving DecidableEq, Repr

/-- Handlers are entered and scripts run, and the ctx stays. -/
def BodyStep.stays : BodyStep → Bool
  | .postRead | .enter _ _ _ | .script => true
  | .handed _ | .cleared => false

/-- What is seen of a step. -/
inductive BodyEvent
  | quiet
  /-- The callback has returned, and has run the phases or not. -/
  | ran (runs : Bool)
  /-- The callback has followed `NULL`. -/
  | crashed
  | read (b : Bytes)
  deriving DecidableEq, Repr

/-- The phases are run, and the body is read as it is. -/
def BodyEvent.Fits (body : Bytes) : BodyEvent → Prop
  | .quiet => True
  | .ran runs => runs = true
  | .crashed => False
  | .read b => b = body

namespace BodyCtx

/-- A stored body runs the script just if the ctx asks for more. -/
theorem store_runs (ctx : BodyCtx) (b : Bytes) : (ctx.store b).2 = ctx.requestBodyMore := by
  unfold store
  split
  next h => exact h.symm
  next h => exact (Bool.eq_false_iff.mpr h).symm

/-- A stored body is the one of the ctx. -/
theorem store_requestBodyCtx (ctx : BodyCtx) (b : Bytes) :
    (ctx.store b).1.requestBodyCtx = b := by
  unfold store
  split <;> rfl

/-- A stored body does not change whether the body has been read. -/
theorem store_readRequestBodyDone (ctx : BodyCtx) (b : Bytes) :
    (ctx.store b).1.readRequestBodyDone = ctx.readRequestBodyDone := by
  unfold store
  split <;> rfl

/-- The copies lie one behind the other, and there are as many bytes as have been counted. -/
theorem foldl_copies (bufs : List Bytes) :
    (bufs.foldl (· ++ ·) []).take (bufs.foldl (fun len buf => len + buf.length) 0) =
      bufs.flatten := by
  have hcopies : bufs.foldl (· ++ ·) [] = [] ++ (bufs.map id).flatten :=
    List.foldl_append_eq_append
  rw [hcopies, foldl_length, Nat.zero_add, List.nil_append, List.map_id, List.take_length]

/-- What the callback does with each form of the body. -/
theorem readRequestBodyCallback_eq (ctx : BodyCtx) (allocated : Bool) (form : BodyForm) :
    ctx.readRequestBodyCallback allocated form.requestBody =
      if form.held = [] then some ({ ctx with readRequestBodyDone := true }, true)
      else if form.chained && !allocated then none
      else some ({ ctx with readRequestBodyDone := true }.store form.held) := by
  cases form with
  | absent => rfl
  | file bufs rest => cases bufs <;> rfl
  | memory bufs =>
    cases bufs with
    | nil => rfl
    | cons buf bufs =>
      have hlen : (buf :: bufs).foldl (fun len buf => len + buf.length) 0 =
          (buf :: bufs).flatten.length := (foldl_length _ 0).trans (Nat.zero_add _)
      have hcopies := foldl_copies (buf :: bufs)
      have hchained : (BodyForm.memory (buf :: bufs)).chained = decide (bufs ≠ []) := by
        cases bufs <;> simp [BodyForm.chained]
      change (if bufs = [] then if buf.length = 0 then _ else _ else _) = _
      rw [hcopies, hlen, hchained]
      by_cases hone : bufs = []
      · subst hone
        rw [if_pos rfl]
        by_cases hbuf : buf = []
        · rw [if_pos (List.length_eq_zero_iff.mpr hbuf), hbuf]
          rfl
        · have hheld : (BodyForm.memory [buf]).held = buf := List.flatten_singleton
          rw [if_neg (mt List.length_eq_zero_iff.mp hbuf), hheld, if_neg hbuf]
          rfl
      · rw [if_neg hone, decide_eq_true hone, Bool.true_and]
        by_cases hall : (buf :: bufs).flatten = []
        · rw [if_pos (List.length_eq_zero_iff.mpr hall)]
          exact (if_pos hall).symm
        · rw [if_neg (mt List.length_eq_zero_iff.mp hall)]
          refine Eq.trans ?_ (if_neg hall).symm
          cases allocated <;> rfl

end BodyCtx

namespace BodyForm

/-- The callback is called. -/
def hand (form : BodyForm) (allocated : Bool) : Option BodyCtx → Option BodyCtx × BodyEvent
  | none => (none, .crashed)
  | some ctx =>
    match ctx.readRequestBodyCallback allocated form.requestBody with
    | none => (some ctx, .crashed)
    | some (ctx, runs) => (some ctx, .ran runs)

/-- A handler reads the body, if that is still to be done. -/
def enter (form : BodyForm) (ctx : BodyCtx) (reads : Bool) (a : BodyAnswer) :
    Option BodyCtx × BodyEvent :=
  if reads && !ctx.readRequestBodyDone then
    match a with
    | .failed => (some ctx, .quiet)
    | .again =>
      (some { ctx with requestBodyMore := true, readRequestBodyDone := false }, .quiet)
    | .handed allocated => form.hand allocated (some ctx)
  else (some ctx, .quiet)

/-- One step of a request. -/
def step (form : BodyForm) (ctx : Option BodyCtx) : BodyStep → Option BodyCtx × BodyEvent
  | .postRead => (some (ctx.getD { requestBodyMore := true }), .quiet)
  | .enter h m a => form.enter ((ctx.getD {}).enter h) (h.readsBody m) a
  | .handed allocated => form.hand allocated ctx
  | .script => (ctx, ctx.elim .quiet fun ctx => .read ctx.ngxRequestBody)
  | .cleared => (none, .quiet)

/-- What is seen of a run. -/
def events (form : BodyForm) : Option BodyCtx → List BodyStep → List BodyEvent
  | _, [] => []
  | ctx, st :: sts => (form.step ctx st).2 :: form.events (form.step ctx st).1 sts

/-- When the callback returns and runs the phases: a body in memory wants them run, and room
for its copy. -/
def Runs (form : BodyForm) (allocated : Bool) : Option BodyCtx → Prop
  | none => False
  | some ctx =>
    form.held = [] ∨ ctx.requestBodyMore = true ∧ (form.chained = true → allocated = true)

/-- When a script reads the whole body: behind the callback it is in memory as a whole, and
before that, or in a ctx made anew, there is none. -/
def Complete (form : BodyForm) (ctx : BodyCtx) : Prop :=
  if ctx.readRequestBodyDone then form.held = form.body else form.body = []

/-- What a step needs. -/
def Meets (form : BodyForm) (ctx : Option BodyCtx) : BodyStep → Prop
  | .enter h m (.handed allocated) =>
    h.readsBody m = true → (ctx.getD {}).readRequestBodyDone = false →
      form.Runs allocated (some ((ctx.getD {}).enter h))
  | .handed allocated => form.Runs allocated ctx
  | .script => ∀ c, ctx = some c → form.Complete c
  | _ => True

/-- What all steps of a run need. -/
def AllMeet (form : BodyForm) : Option BodyCtx → List BodyStep → Prop
  | _, [] => True
  | ctx, st :: sts => form.Meets ctx st ∧ form.AllMeet (form.step ctx st).1 sts

/-- The ctx has the body in memory once the callback has been called for it. -/
def Kept (form : BodyForm) (ctx : Option BodyCtx) : Prop :=
  ∀ c, ctx = some c → c.requestBodyCtx = if c.readRequestBodyDone then form.held else []

theorem kept_none (form : BodyForm) : form.Kept none := nofun

/-- A ctx is kept if it has the body that was held where it was read, and none before. -/
theorem kept_some {form : BodyForm} {c : BodyCtx}
    (h : c.requestBodyCtx = if c.readRequestBodyDone then form.held else []) :
    form.Kept (some c) := by
  rintro _ ⟨⟩
  exact h

/-- What the callback hands to the script is its body just if the form runs it. -/
theorem hand_fits_iff (form : BodyForm) (allocated : Bool) (ctx : Option BodyCtx) :
    (form.hand allocated ctx).2.Fits form.body ↔ form.Runs allocated ctx := by
  cases ctx with
  | none => exact Iff.rfl
  | some ctx =>
    rw [hand, BodyCtx.readRequestBodyCallback_eq, Runs]
    by_cases hheld : form.held = []
    · rw [if_pos hheld]
      exact iff_of_true rfl (Or.inl hheld)
    · rw [if_neg hheld]
      cases hroom : form.chained && !allocated with
      | true =>
        obtain ⟨hchained, hfull⟩ := Bool.and_eq_true_iff.mp hroom
        refine iff_of_false id ?_
        rintro (hempty | ⟨-, hallocated⟩)
        · exact hheld hempty
        · rw [hallocated hchained] at hfull
          cases hfull
      | false =>
        have hallocated : form.chained = true → allocated = true := by
          intro hchained
          rw [hchained, Bool.true_and] at hroom
          exact (Bool.not_eq_false' allocated).mp hroom
        change (BodyCtx.store _ form.held).2 = true ↔ _
        rw [BodyCtx.store_runs]
        exact ⟨fun h => Or.inr ⟨h, hallocated⟩, fun h => (h.resolve_left hheld).1⟩

/-- The callback keeps the ctx. -/
theorem hand_kept {form : BodyForm} {ctx : Option BodyCtx} (h : form.Kept ctx) (allocated : Bool) :
    form.Kept (form.hand allocated ctx).1 := by
  cases ctx with
  | none => exact h
  | some ctx =>
    rw [hand, BodyCtx.readRequestBodyCallback_eq]
    by_cases hheld : form.held = []
    · rw [if_pos hheld]
      refine kept_some ?_
      have hctx := h ctx rfl
      rwa [hheld, ite_self] at hctx ⊢
    · rw [if_neg hheld]
      split
      next hnone =>
        split at hnone
        · exact h
        · cases hnone
      next c runs hsome =>
        split at hsome
        · cases hsome
        · have hc : c = (BodyCtx.store _ form.held).1 :=
            (congrArg Prod.fst (Option.some.inj hsome)).symm
          refine kept_some ?_
          rw [hc, BodyCtx.store_requestBodyCtx, BodyCtx.store_readRequestBodyDone]
          rfl

/-- The handler reads the body. -/
theorem reads_iff (reads : Bool) (ctx : BodyCtx) :
    (reads && !ctx.readRequestBodyDone) = true ↔
      reads = true ∧ ctx.readRequestBodyDone = false :=
  Bool.and_eq_true_iff.trans (and_congr_right fun _ => Bool.not_eq_true' _ ▸ Iff.rfl)

/-- What a handler hands to the script is its body just if the form runs it where it is read. -/
theorem enter_fits_iff (form : BodyForm) (ctx : BodyCtx) (reads : Bool) (a : BodyAnswer) :
    (form.enter ctx reads a).2.Fits form.body ↔ ∀ allocated, a = .handed allocated →
      reads = true → ctx.readRequestBodyDone = false → form.Runs allocated (some ctx) := by
  unfold enter
  split
  next hreads =>
    obtain ⟨hr, hdone⟩ := (reads_iff reads ctx).mp hreads
    cases a with
    | failed => exact iff_of_true trivial nofun
    | again => exact iff_of_true trivial nofun
    | handed allocated =>
      refine (form.hand_fits_iff allocated (some ctx)).trans ⟨?_, fun h => h _ rfl hr hdone⟩
      rintro h _ ⟨⟩ - -
      exact h
  next hreads =>
    refine iff_of_true trivial fun _ _ hr hdone => ?_
    exact absurd ((reads_iff reads ctx).mpr ⟨hr, hdone⟩) hreads

/-- The entry of a handler keeps the ctx. -/
theorem enter_kept {form : BodyForm} {ctx : BodyCtx} (h : form.Kept (some ctx)) (reads : Bool)
    (a : BodyAnswer) : form.Kept (form.enter ctx reads a).1 := by
  unfold enter
  split
  next hreads =>
    cases a with
    | failed => exact h
    | again =>
      have hctx := h ctx rfl
      rw [((reads_iff reads ctx).mp hreads).2] at hctx
      exact kept_some hctx
    | handed allocated => exact hand_kept h allocated
  next => exact h

/-- Behind the callback the body has been read. -/
theorem hand_done {form : BodyForm} {allocated : Bool} {ctx : BodyCtx}
    (h : form.Runs allocated (some ctx)) :
    ∃ c, (form.hand allocated (some ctx)).1 = some c ∧ c.readRequestBodyDone = true := by
  rw [hand, BodyCtx.readRequestBodyCallback_eq]
  by_cases hheld : form.held = []
  · rw [if_pos hheld]
    exact ⟨_, rfl, rfl⟩
  · have hroom : (form.chained && !allocated) = false := by
      cases hchained : form.chained with
      | false => rfl
      | true => rw [(h.resolve_left hheld).2 hchained]; rfl
    rw [if_neg hheld, hroom]
    exact ⟨_, rfl, BodyCtx.store_readRequestBodyDone _ _⟩

/-- A step fits if and only if what it needs is there. -/
theorem step_fits_iff {form : BodyForm} {ctx : Option BodyCtx} (h : form.Kept ctx) (st : BodyStep) :
    (form.step ctx st).2.Fits form.body ↔ form.Meets ctx st := by
  cases st with
  | postRead => exact Iff.rfl
  | cleared => exact Iff.rfl
  | handed allocated => exact form.hand_fits_iff allocated ctx
  | script =>
    cases ctx with
    | none => exact iff_of_true trivial nofun
    | some c =>
      have hc : (form.step (some c) .script).2.Fits form.body ↔ c.requestBodyCtx = form.body :=
        Iff.rfl
      have hone : form.Meets (some c) .script ↔ form.Complete c :=
        ⟨fun hall => hall c rfl, fun hone _ hc => Option.some.inj hc ▸ hone⟩
      rw [hc, hone, h c rfl, Complete]
      split
      · exact Iff.rfl
      · exact eq_comm
  | enter hd m a =>
    refine (form.enter_fits_iff ((ctx.getD {}).enter hd) (hd.readsBody m) a).trans ?_
    cases a with
    | failed => exact iff_of_true nofun trivial
    | again => exact iff_of_true nofun trivial
    | handed allocated =>
      refine ⟨fun hall => hall allocated rfl, ?_⟩
      rintro hone _ ⟨⟩
      exact hone

/-- Each step keeps the ctx. -/
theorem step_kept {form : BodyForm} {ctx : Option BodyCtx} (h : form.Kept ctx) (st : BodyStep) :
    form.Kept (form.step ctx st).1 := by
  cases st with
  | postRead =>
    cases ctx with
    | none => exact kept_some rfl
    | some c => exact h
  | cleared => exact form.kept_none
  | handed allocated => exact hand_kept h allocated
  | script => exact h
  | enter hd m a =>
    refine enter_kept ?_ (hd.readsBody m) a
    cases ctx with
    | none => exact kept_some rfl
    | some c => exact kept_some (h c rfl)

/-- A run fits if and only if each of its steps finds what it needs. -/
theorem events_fit_iff {form : BodyForm} {ctx : Option BodyCtx} (h : form.Kept ctx)
    (steps : List BodyStep) :
    (∀ e ∈ form.events ctx steps, e.Fits form.body) ↔ form.AllMeet ctx steps := by
  induction steps generalizing ctx with
  | nil => exact iff_of_true nofun trivial
  | cons st sts ih =>
    rw [events, List.forall_mem_cons, step_fits_iff h st, ih (step_kept h st)]
    rfl

/-- For every form of the body and everything that happens behind the first call of the callback:
it returns and runs the phases whenever it is called, and each script reads exactly the
body, if and only if each step finds what it needs. -/
theorem ngxRequestBody_complete_iff (form : BodyForm) (more allocated : Bool)
    (steps : List BodyStep) :
    (∀ e ∈ form.events (some { requestBodyMore := more }) (.handed allocated :: steps),
        e.Fits form.body) ↔
      form.AllMeet (some { requestBodyMore := more }) (.handed allocated :: steps) :=
  events_fit_iff (kept_some rfl) _

/-- A large body is in a file, and is not stored. -/
theorem ngxRequestBody_not_complete :
    ¬ ∀ (form : BodyForm) (more allocated : Bool) (steps : List BodyStep),
      ∀ e ∈ form.events (some { requestBodyMore := more }) (.handed allocated :: steps),
        e.Fits form.body := by
  intro h
  have hread : BodyEvent.read [] ∈ (file [] [65]).events (some { requestBodyMore := true })
      [.handed true, .script] := by decide
  cases h (file [] [65]) true true [.script] _ hread

/-- Once the whole body has been read every step meets it. -/
theorem allMeet_of_stays {form : BodyForm} {ctx : BodyCtx}
    (hdone : ctx.readRequestBodyDone = true) (hheld : form.held = form.body)
    {steps : List BodyStep} (hs : ∀ st ∈ steps, st.stays = true) :
    form.AllMeet (some ctx) steps := by
  induction steps generalizing ctx with
  | nil => trivial
  | cons st sts ih =>
    obtain ⟨hst, hsts⟩ := List.forall_mem_cons.mp hs
    cases st with
    | handed => cases hst
    | cleared => cases hst
    | postRead => exact ⟨trivial, ih hdone hsts⟩
    | script =>
      refine ⟨?_, ih hdone hsts⟩
      rintro _ ⟨⟩
      rw [Complete, hdone]
      exact hheld
    | enter hd m a =>
      have hstep : form.step (some ctx) (.enter hd m a) = (some (ctx.enter hd), .quiet) := by
        refine if_neg fun hreads => ?_
        have hnot := ((reads_iff _ _).mp hreads).2
        exact Bool.false_ne_true (hnot.symm.trans hdone)
      refine ⟨?_, hstep ▸ ih hdone hsts⟩
      cases a with
      | handed =>
        intro _ hnot
        exact absurd (hnot.symm.trans hdone) Bool.false_ne_true
      | _ => trivial

/-- A body in memory is read by all scripts as long as the ctx stays. -/
theorem memory_fits (bufs : List Bytes) {allocated : Bool}
    (ha : 1 < bufs.length → allocated = true) {steps : List BodyStep}
    (hs : ∀ st ∈ steps, st.stays = true) :
    ∀ e ∈ (memory bufs).events (some { requestBodyMore := true }) (.handed allocated :: steps),
      e.Fits bufs.flatten := by
  have hruns : (memory bufs).Runs allocated (some { requestBodyMore := true }) :=
    Or.inr ⟨rfl, fun hchained => ha (of_decide_eq_true hchained)⟩
  obtain ⟨c, hc, hdone⟩ := hand_done hruns
  have hrest : (memory bufs).AllMeet (some c) steps := allMeet_of_stays hdone rfl hs
  have hkept : (memory bufs).Kept (some { requestBodyMore := true }) := kept_some rfl
  exact (events_fit_iff hkept _).mpr ⟨hruns, hc ▸ hrest⟩

end BodyForm

namespace Service

/-- The handlers' account of the callback, which knows of the body only whether data are held
in memory. -/
theorem readRequestBodyCallback_form {s : Service} {c : PhpCtx} (hs : s.ctx = some c)
    {form : BodyForm} {allocated : Bool} {b : Bytes} {ctx : BodyCtx} {runs : Bool}
    (h : BodyCtx.readRequestBodyCallback ⟨c.requestBodyMore, c.readRequestBodyDone, b⟩ allocated
      form.requestBody = some (ctx, runs)) :
    s.readRequestBodyCallback (decide (form.held ≠ [])) =
      ({ s with ctx := some { c with
          requestBodyMore := ctx.requestBodyMore
          readRequestBodyDone := ctx.readRequestBodyDone } }, runs) := by
  rw [BodyCtx.readRequestBodyCallback_eq] at h
  unfold readRequestBodyCallback onCtx
  rw [hs]
  by_cases hheld : form.held = []
  · rw [if_pos hheld] at h
    obtain ⟨rfl, rfl⟩ := Prod.mk.inj (Option.some.inj h)
    rw [decide_eq_false (not_not_intro hheld)]
    rfl
  · rw [if_neg hheld] at h
    rw [decide_eq_true hheld]
    split at h
    · cases h
    · obtain hctx := Option.some.inj h
      cases hmore : c.requestBodyMore with
      | true =>
        rw [BodyCtx.store, if_pos hmore] at hctx
        obtain ⟨rfl, rfl⟩ := Prod.mk.inj hctx
        simp [hmore]
      | false =>
        rw [BodyCtx.store, if_neg (by rw [hmore]; exact Bool.false_ne_true)] at hctx
        obtain ⟨rfl, rfl⟩ := Prod.mk.inj hctx
        simp [hmore]

end Service

end NgxPhp
