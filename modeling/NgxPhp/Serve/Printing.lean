import Mathlib.Algebra.GroupWithZero.Nat
import NgxPhp.Serve.Record

/-!
# What scripts print

`ngx_http_php_code_ub_write` appends to the chain in the ctx and counts the bytes in
`headers_out.content_length_n`, whatever has been sent by then. So a script appends
the buffers that it prints, if the ctx takes output for content, and nothing else of
a script touches the chain or the length.
-/

open Ledger

namespace NgxPhp

/-- The buffers that a thing that a script does prints. -/
def Deed.writes : Deed → List Bytes
  | .echo b => [b]
  | _ => []

def Segment.writes (seg : Segment) : List Bytes := seg.deeds.flatMap Deed.writes

def CallResult.writes : CallResult → List Bytes
  | .generator first => first.writes
  | .object first => first.writes
  | _ => []

/-- What the start of a script prints. -/
def Code.writes : Code → List Bytes
  | .compiled (.run deeds result) => deeds.flatMap Deed.writes ++ result.writes
  | _ => []

/-- The bytes of a chain. -/
def chainBytes (chain : List ChainLink) : Nat := (chain.map (·.buf.length)).sum

/-- A buffer is counted. -/
def countBuf (n : Int) (b : Bytes) : Int := n + b.length + if n = -1 then 1 else 0

namespace Service

/-- Output goes to the chain of the ctx. -/
def prints (s : Service) : Bool := s.ctx.any (·.outputContent)

/-- What becomes of buffers that are printed. -/
def printed (s : Service) (ws : List Bytes) : List Bytes := if s.prints then ws else []

/-- From `s` to `t` exactly these buffers are appended and counted. -/
structure Prints (ws : List Bytes) (s t : Service) : Prop where
  chain : t.chain = s.chain ++ ws.map fun b => ⟨b, false⟩
  length : t.headersOut.contentLengthN = ws.foldl countBuf s.headersOut.contentLengthN
  ctx : t.ctx.isSome = s.ctx.isSome
  prints : t.prints = s.prints
  headerSent : t.headerSent = s.headerSent

variable {s t u : Service} {ws vs : List Bytes}

theorem Prints.refl (s : Service) : Prints [] s s :=
  ⟨(List.append_nil _).symm, rfl, rfl, rfl, rfl⟩

/-- What is printed one after the other is printed together. -/
theorem Prints.trans (h : Prints ws s t) (g : Prints vs t u) : Prints (ws ++ vs) s u where
  chain := by rw [g.chain, h.chain, List.map_append, List.append_assoc]
  length := by rw [g.length, h.length, List.foldl_append]
  ctx := g.ctx.trans h.ctx
  prints := g.prints.trans h.prints
  headerSent := g.headerSent.trans h.headerSent

/-- Printing does not change where output goes. -/
theorem Prints.printed (h : Prints ws s t) (vs : List Bytes) : t.printed vs = s.printed vs := by
  rw [Service.printed, Service.printed, h.prints]

/-- Buffers are printed one after the other. -/
theorem printed_append (s : Service) (ws vs : List Bytes) :
    s.printed (ws ++ vs) = s.printed ws ++ s.printed vs := by
  unfold printed
  split <;> rfl

/-- Nothing printed is nothing. -/
theorem printed_nil (s : Service) : s.printed [] = [] := ite_self []

/-- One piece of output behind another one. -/
theorem Prints.then (h : Prints (s.printed ws) s t) (g : Prints (t.printed vs) t u) :
    Prints (s.printed (ws ++ vs)) s u := by
  rw [printed_append, ← h.printed vs]
  exact h.trans g

/-- Nothing is printed before. -/
theorem Prints.after (h : Prints [] s t) (g : Prints (t.printed vs) t u) :
    Prints (s.printed vs) s u := by
  rw [← h.printed vs]
  exact h.trans g

/-- Nothing is printed behind. -/
theorem Prints.silent (h : Prints ws s t) (g : Prints [] t u) : Prints ws s u := by
  have hboth := h.trans g
  rwa [List.append_nil] at hboth

/-- The ctx and the headers are the same. -/
theorem prints_of_eq (hc : t.ctx = s.ctx) (hh : t.headersOut = s.headersOut)
    (hs : t.headerSent = s.headerSent) : Prints [] s t where
  chain := by rw [chain, chain, hc, List.map_nil, List.append_nil]
  length := by rw [hh, List.foldl_nil]
  ctx := by rw [hc]
  prints := by rw [Service.prints, Service.prints, hc]
  headerSent := hs

/-- A change of the ctx that leaves the chain alone and the way that output takes. -/
theorem onCtx_prints (s : Service) {f : PhpCtx → PhpCtx}
    (hc : ∀ ctx, (f ctx).rputsChain = ctx.rputsChain)
    (ho : ∀ ctx, (f ctx).outputContent = ctx.outputContent) : Prints [] s (s.onCtx f) where
  chain := by
    cases h : s.ctx with
    | none => simp [chain, onCtx, h]
    | some ctx => simp [chain, onCtx, h, hc]
  length := rfl
  ctx := Option.isSome_map
  prints := by
    cases h : s.ctx with
    | none => simp [Service.prints, onCtx, h]
    | some ctx => simp [Service.prints, onCtx, h, ho]
  headerSent := rfl

/-- A change of the headers that leaves the length alone. -/
theorem onHeaders_prints (s : Service) {f : HeadersOut → HeadersOut}
    (hf : ∀ h, (f h).contentLengthN = h.contentLengthN) : Prints [] s (s.onHeaders f) where
  chain := (List.append_nil _).symm
  length := hf _
  ctx := rfl
  prints := rfl
  headerSent := rfl

/-- What is noted prints nothing. -/
theorem note_prints (s : Service) (o : Occurrence) : Prints [] s (s.note o) :=
  prints_of_eq rfl rfl rfl

/-- A phase status prints nothing. -/
theorem setPhaseStatus_prints (s : Service) (rc : Rc) : Prints [] s (s.setPhaseStatus rc) :=
  s.onCtx_prints (fun _ => rfl) fun _ => rfl

/-- A closure that is set prints nothing. -/
theorem setClosure_prints (s : Service) (z : Option Zval) : Prints [] s (s.setClosure z) :=
  s.onCtx_prints (fun _ => rfl) fun _ => rfl

/-- With a ctx a buffer is appended and counted. -/
theorem append_prints (s : Service) (b : Bytes) (hc : s.ctx.isSome = true) :
    Prints [b] s (s.append b) := by
  obtain ⟨ctx, hctx⟩ := Option.isSome_iff_exists.mp hc
  constructor
  · simp [chain, append, count, onHeaders, onCtx, hctx]
  · rfl
  · simp [append, count, onHeaders, onCtx, hctx]
  · simp [Service.prints, append, count, onHeaders, onCtx, hctx]
  · rfl

/-- A deed prints its buffers. -/
theorem act_prints (s : Service) (d : Deed) : Prints (s.printed d.writes) s (s.act d) := by
  cases d with
  | echo b =>
    change Prints (s.printed [b]) s (s.ubWrite b)
    cases hctx : s.ctx with
    | none => simpa [ubWrite, printed, Service.prints, hctx] using Prints.refl s
    | some ctx =>
      cases ho : ctx.outputContent with
      | false => simpa [ubWrite, printed, Service.prints, hctx, ho] using Prints.refl s
      | true =>
        simpa [ubWrite, printed, Service.prints, hctx, ho] using s.append_prints b (hctx ▸ rfl)
  | status n =>
    change Prints (s.printed []) s _
    rw [printed_nil]
    exact ⟨(List.append_nil _).symm, rfl, rfl, rfl, rfl⟩
  | redirect uri n allocated =>
    change Prints (s.printed []) s (s.redirect uri n allocated)
    rw [printed_nil]
    unfold redirect
    split
    · exact ⟨(List.append_nil _).symm, rfl, rfl, rfl, rfl⟩
    · exact .refl s
  | library waits =>
    change Prints (s.printed []) s _
    rw [printed_nil]
    exact s.setPhaseStatus_prints _

/-- The deeds of a segment print their buffers. -/
theorem acts_prints (s : Service) (ds : List Deed) :
    Prints (s.printed (ds.flatMap Deed.writes)) s (s.acts ds) := by
  induction ds generalizing s with
  | nil =>
    rw [List.flatMap_nil, printed_nil]
    exact .refl s
  | cons d ds ih =>
    rw [List.flatMap_cons]
    exact (s.act_prints d).then (ih _)

/-- A bailout prints nothing. -/
theorem bail_prints (s : Service) (b : Bailout) : Prints [] s (s.bail b) := by
  cases b with
  | exit status => exact prints_of_eq rfl rfl rfl
  | error status => cases status <;> exact prints_of_eq rfl rfl rfl

/-- The release of a closure prints nothing. -/
theorem dtorClosure_prints (s : Service) : Prints [] s s.dtorClosure := by
  unfold dtorClosure
  split
  · exact s.note_prints _
  · exact .refl s

/-- A closure that is freed prints nothing. -/
theorem freeClosure_prints (s : Service) : Prints [] s s.freeClosure :=
  s.dtorClosure_prints.silent (setClosure_prints _ none)

/-- Entering a closure prints nothing. -/
theorem enterClosure_prints (s : Service) : Prints [] s s.enterClosure := by
  unfold enterClosure
  split
  · exact s.note_prints _
  · exact .refl s

/-- A new closure prints nothing. -/
theorem newClosure_prints (s : Service) : Prints [] s s.newClosure := by
  unfold newClosure
  split
  next g _ => exact (s.note_prints (.overwrote g)).silent (setClosure_prints _ _)
  · exact s.setClosure_prints _

/-- A stored generator prints nothing. -/
theorem storeGenerator_prints (s : Service) : Prints [] s s.storeGenerator :=
  (s.setClosure_prints _).silent (prints_of_eq rfl rfl rfl)

/-- A bailout that is caught prints nothing. -/
theorem caught_prints (s : Service) (fn : UthreadFn) (entry : Option JmpBuf) (b : Bailout) :
    Prints [] s (s.caught fn entry b) := by
  have hbail : Prints [] s ((s.bail b).zendEndTry entry) :=
    (s.bail_prints b).silent (prints_of_eq rfl rfl rfl)
  exact (hbail.silent (freeClosure_prints _)).silent (note_prints _ _)

/-- A generator that is created prints its first segment. -/
theorem createValid_prints (s : Service) (p : FuncPrefix) (entry : Option JmpBuf)
    (first : Segment) :
    Prints (s.printed first.writes) s (s.createValid p entry first) := by
  have hacts : Prints (s.printed first.writes) s (s.enterClosure.acts first.deeds) :=
    s.enterClosure_prints.after (acts_prints _ first.deeds)
  have hstatus : ∀ (t : Service) (rc : Rc),
      Prints [] t (((t.setPhaseStatus rc).zendEndTry entry).leave (.create p) entry) :=
    fun t rc => (t.setPhaseStatus_prints rc).silent (prints_of_eq rfl rfl rfl)
  unfold createValid
  dsimp only
  split
  · exact hacts.silent (hstatus _ .again)
  · exact hacts.silent (hstatus _ .ok)
  · exact hacts.silent (note_prints _ _)
  next b _ => exact hacts.silent (caught_prints _ _ _ b)

/-- A return value prints nothing. -/
theorem createValue_prints (s : Service) (p : FuncPrefix) (entry : Option JmpBuf) :
    Prints [] s (s.createValue p entry) :=
  s.freeClosure_prints.silent (prints_of_eq rfl rfl rfl)

/-- A script that is called prints its buffers. -/
theorem createCall_prints (s : Service) (p : FuncPrefix) (entry : Option JmpBuf) (f : ScriptFn) :
    Prints (s.printed (Code.compiled f).writes) s (s.createCall p entry f) := by
  cases f with
  | missing =>
    change Prints (s.printed []) s _
    rw [printed_nil]
    exact s.createValue_prints p entry
  | run deeds result =>
    have hacts : Prints (s.printed (deeds.flatMap Deed.writes)) s
        ((s.note (.called p)).acts deeds) :=
      (s.note_prints _).after (acts_prints _ deeds)
    have hsilent : ∀ t, Prints [] ((s.note (.called p)).acts deeds) t →
        Prints (s.printed (deeds.flatMap Deed.writes ++ [])) s t := fun t h => by
      rw [List.append_nil]
      exact hacts.silent h
    cases result with
    | value => exact hsilent _ (createValue_prints _ p entry)
    | bailout b => exact hsilent _ (caught_prints _ _ _ b)
    | generator first =>
      exact hacts.then ((storeGenerator_prints _).after (createValid_prints _ p entry first))
    | object first =>
      exact hacts.then ((setClosure_prints _ _).after (createValid_prints _ p entry first))

/-- `create` prints what its script does. -/
theorem create_prints (s : Service) (p : FuncPrefix) (f : ScriptFn) :
    Prints (s.printed (Code.compiled f).writes) s (s.create p f) := by
  unfold create
  split
  next hc =>
    rw [Option.isNone_iff_eq_none] at hc
    have hno : s.printed (Code.compiled f).writes = [] := by
      simp [printed, Service.prints, hc]
    rw [hno]
    exact s.note_prints _
  next =>
    have htry : Prints [] s s.newClosure.zendTry :=
      s.newClosure_prints.silent (prints_of_eq rfl rfl rfl)
    exact htry.after (createCall_prints _ p _ f)

/-- A routine prints what the start of the script prints. -/
theorem routine_prints (s : Service) (p : FuncPrefix) (code : Code) :
    Prints (s.printed code.writes) s (s.routine p code) := by
  have htry : Prints [] s { s with bailout := none }.zendTry := prints_of_eq rfl rfl rfl
  unfold routine
  cases code with
  | compiled f => exact (htry.after (create_prints _ p f)).silent (prints_of_eq rfl rfl rfl)
  | failed b =>
    change Prints (s.printed []) s _
    rw [printed_nil]
    exact (htry.silent (bail_prints _ b)).silent (prints_of_eq rfl rfl rfl)

/-- The evaluation of a file prints its buffers. -/
theorem evaluate_prints (s : Service) (ds : List Deed) (b : Option Bailout) :
    Prints (s.printed (ds.flatMap Deed.writes)) s (s.evaluate ds b) := by
  have htry : Prints [] s { s with bailout := none }.zendTry := prints_of_eq rfl rfl rfl
  have hacts := htry.after (acts_prints _ ds)
  unfold evaluate
  cases b with
  | none => exact hacts.silent (prints_of_eq rfl rfl rfl)
  | some b => exact (hacts.silent (bail_prints _ b)).silent (prints_of_eq rfl rfl rfl)

end Service

end NgxPhp
