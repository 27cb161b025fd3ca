import NgxPhp.Serve.Passage

/-!
# Who owns a generator

`ctx->generator_closure` is one slot for the scripts of all phases. The record tells
for every generator when it was made, used and released, and when the slot that held
it was overwritten.
-/

namespace NgxPhp

/-- The occurrences that are about a generator. -/
def Occurrence.ofGenerator : Occurrence → Bool
  | .made _ => true
  | .entered _ => true
  | .destroyed _ => true
  | .overwrote _ => true
  | _ => false

/-- The occurrence is in order after those before it: no generator is released twice or used after
its release, and only a slot whose generator was released is overwritten. -/
def Occurrence.InOrder (before : List Occurrence) : Occurrence → Prop
  | .destroyed g => .made g ∈ before ∧ .destroyed g ∉ before
  | .entered g => .destroyed g ∉ before
  | .overwrote g => .destroyed g ∈ before
  | _ => True

instance Occurrence.decidableInOrder (before : List Occurrence) (o : Occurrence) :
    Decidable (o.InOrder before) := by
  cases o <;> unfold InOrder <;> infer_instance

/-- All occurrences are in order. -/
def GeneratorsOwned : List Occurrence → Prop
  | [] => True
  | o :: before => o.InOrder before ∧ GeneratorsOwned before

instance decidableGeneratorsOwned : ∀ h, Decidable (GeneratorsOwned h)
  | [] => isTrue trivial
  | _ :: before => @instDecidableAnd _ _ _ (decidableGeneratorsOwned before)

/-- Whether an occurrence is in order depends on the occurrences of generators only. -/
theorem Occurrence.inOrder_filter (before : List Occurrence) (o : Occurrence) :
    o.InOrder (before.filter ofGenerator) ↔ o.InOrder before := by
  have hmem : ∀ o' : Occurrence, o'.ofGenerator = true →
      (o' ∈ before.filter ofGenerator ↔ o' ∈ before) := fun o' ho => by
    rw [List.mem_filter, ho, and_iff_left rfl]
  cases o with
  | destroyed g => exact and_congr (hmem _ rfl) (not_congr (hmem _ rfl))
  | entered g => exact not_congr (hmem _ rfl)
  | overwrote g => exact hmem _ rfl
  | _ => exact Iff.rfl

/-- Only the occurrences that are about generators matter. -/
theorem generatorsOwned_filter (h : List Occurrence) :
    GeneratorsOwned (h.filter Occurrence.ofGenerator) ↔ GeneratorsOwned h := by
  induction h with
  | nil => exact Iff.rfl
  | cons o before ih =>
    cases ho : o.ofGenerator with
    | true =>
      rw [List.filter_cons_of_pos ho]
      exact and_congr (o.inOrder_filter before) ih
    | false =>
      have htriv : o.InOrder before := by
        cases o <;> trivial
      rw [List.filter_cons_of_neg (by rw [ho]; exact Bool.false_ne_true), ih]
      exact (and_iff_right htriv).symm

/-- What has been released was made. -/
theorem GeneratorsOwned.made {h : List Occurrence} (ho : GeneratorsOwned h) {g : GeneratorId}
    (hd : .destroyed g ∈ h) : .made g ∈ h := by
  induction h with
  | nil => cases hd
  | cons o before ih =>
    rcases List.mem_cons.mp hd with rfl | hd
    · exact List.mem_cons_of_mem _ ho.1.1
    · exact List.mem_cons_of_mem _ (ih ho.2 hd)

/-- The code returns a generator and does not end with it at once by `zend_bailout`. -/
def Code.leavesGenerator : Code → Bool
  | .compiled (.run _ (.generator ⟨_, .bailout _⟩)) => false
  | .compiled (.run _ (.generator _)) => true
  | _ => false

/-- The code can be compiled. -/
def Code.compiles : Code → Bool
  | .compiled _ => true
  | .failed _ => false

namespace Service

/-- What the record says about generators. -/
def ledger (s : Service) : List Occurrence := s.history.filter Occurrence.ofGenerator

/-- The slot holds a generator that has not been released. -/
def holdsLive (s : Service) : Bool :=
  match s.closure with
  | some (.generator g) => !s.history.contains (.destroyed g)
  | _ => false

/-- The slot still points at a generator that has been released. -/
def holdsStale (s : Service) : Bool :=
  match s.closure with
  | some (.generator g) => s.history.contains (.destroyed g)
  | _ => false

variable {s t u : Service}

/-- An occurrence of a generator is in the ledger if it is in the history. -/
theorem mem_ledger {o : Occurrence} (ho : o.ofGenerator = true) :
    o ∈ s.ledger ↔ o ∈ s.history := by
  rw [ledger, List.mem_filter, ho, and_iff_left rfl]

/-- The slot holds a live generator when the one it points to has not been destroyed. -/
theorem holdsLive_iff : s.holdsLive = true ↔
    ∃ g, s.closure = some (.generator g) ∧ .destroyed g ∉ s.ledger := by
  unfold holdsLive
  split
  next g hg => simp [hg, mem_ledger (s := s) (o := .destroyed g) rfl]
  next hno => simpa using fun g hg => absurd hg (hno g)

/-- The slot holds a stale pointer when the generator it points to has been destroyed. -/
theorem holdsStale_iff : s.holdsStale = true ↔
    ∃ g, s.closure = some (.generator g) ∧ .destroyed g ∈ s.ledger := by
  unfold holdsStale
  split
  next g hg => simp [hg, mem_ledger (s := s) (o := .destroyed g) rfl]
  next hno => simpa using fun g hg => absurd hg (hno g)

/-! ## What leaves the generators alone -/

/-- The same generators in the same slot. -/
structure SameClosures (s t : Service) : Prop where
  ledger : t.ledger = s.ledger
  closure : t.closure = s.closure
  generators : t.generators = s.generators
  ctx : s.ctx.isSome = true → t.ctx.isSome = true
  /-- A script that has been started is not taken for one that has not. -/
  started : s.phaseStatus ≠ .declined → t.phaseStatus ≠ .declined

theorem SameClosures.refl (s : Service) : s.SameClosures s := ⟨rfl, rfl, rfl, id, id⟩

/-- Two steps that leave the closures alone do so together. -/
theorem SameClosures.trans (h : s.SameClosures t) (g : t.SameClosures u) : s.SameClosures u :=
  ⟨g.ledger.trans h.ledger, g.closure.trans h.closure, g.generators.trans h.generators,
    g.ctx ∘ h.ctx, g.started ∘ h.started⟩

/-- The ctx and the record are the same. -/
theorem sameClosures_of_eq (hc : t.ctx = s.ctx) (hh : t.history = s.history)
    (hg : t.generators = s.generators) : s.SameClosures t := by
  refine ⟨?_, ?_, hg, fun h => hc ▸ h, ?_⟩
  · rw [ledger, ledger, hh]
  · rw [closure, closure, hc]
  · rw [phaseStatus, phaseStatus, hc]
    exact id

/-- An occurrence that is not of a generator is noted elsewhere. -/
theorem note_sameClosures (s : Service) {o : Occurrence} (ho : o.ofGenerator = false) :
    s.SameClosures (s.note o) :=
  ⟨List.filter_cons_of_neg (by rw [ho]; exact Bool.false_ne_true), rfl, rfl, id, id⟩

/-- A change of the ctx that leaves the slot alone. -/
theorem onCtx_sameClosures (s : Service) {f : PhpCtx → PhpCtx}
    (hg : ∀ ctx, (f ctx).generatorClosure = ctx.generatorClosure)
    (hp : ∀ ctx, ctx.phaseStatus ≠ .declined → (f ctx).phaseStatus ≠ .declined) :
    s.SameClosures (s.onCtx f) := by
  refine ⟨rfl, ?_, rfl, fun h => Option.isSome_map.trans h, ?_⟩
  · cases hc : s.ctx with
    | none => simp [closure, onCtx, hc]
    | some ctx => simp [closure, onCtx, hc, hg]
  · cases hc : s.ctx with
    | none => simp [phaseStatus, onCtx, hc]
    | some ctx => simpa [phaseStatus, onCtx, hc] using hp ctx

/-- A phase status is set without the closures. -/
theorem setPhaseStatus_sameClosures (s : Service) {rc : Rc} (h : rc ≠ .declined) :
    s.SameClosures (s.setPhaseStatus rc) :=
  s.onCtx_sameClosures (fun _ => rfl) fun _ _ => h

/-- The try block of the routine saves and sets the address of the jump buffer only. -/
theorem zendTry_sameClosures (s : Service) : s.SameClosures s.zendTry :=
  sameClosures_of_eq rfl rfl rfl

/-- The first try block of `zend_first_try` sets the address of the jump buffer only. -/
theorem zendFirstTry_sameClosures (s : Service) :
    s.SameClosures { s with bailout := none }.zendTry :=
  sameClosures_of_eq rfl rfl rfl

/-- The end of a try block restores the address of the jump buffer only. -/
theorem zendEndTry_sameClosures (s : Service) (orig : Option JmpBuf) :
    s.SameClosures (s.zendEndTry orig) :=
  sameClosures_of_eq rfl rfl rfl

/-- Leaving a function is not an occurrence of a generator. -/
theorem leave_sameClosures (s : Service) (fn : UthreadFn) (entry : Option JmpBuf) :
    s.SameClosures (s.leave fn entry) :=
  s.note_sameClosures rfl

/-- A bailout is seen by the request, not by the closures. -/
theorem bail_sameClosures (s : Service) (b : Bailout) : s.SameClosures (s.bail b) := by
  cases b with
  | exit status => exact sameClosures_of_eq rfl rfl rfl
  | error status => cases status <;> exact sameClosures_of_eq rfl rfl rfl

/-- Output is appended without the closures. -/
theorem append_sameClosures (s : Service) (b : Bytes) : s.SameClosures (s.append b) := by
  have hlink : s.SameClosures (s.onCtx fun ctx => { ctx with
      rputsChain := ctx.rputsChain ++ [⟨b, false⟩] }) :=
    s.onCtx_sameClosures (fun _ => rfl) fun _ h => h
  exact hlink.trans (sameClosures_of_eq rfl rfl rfl)

/-- What a script does on its way leaves the closures alone. -/
theorem act_sameClosures (s : Service) (d : Deed) : s.SameClosures (s.act d) := by
  cases d with
  | echo b =>
    change s.SameClosures (s.ubWrite b)
    unfold ubWrite
    split
    · exact .refl s
    · split
      · exact s.append_sameClosures b
      · exact .refl s
  | status n => exact sameClosures_of_eq rfl rfl rfl
  | redirect uri n allocated =>
    change s.SameClosures (s.redirect uri n allocated)
    unfold redirect
    split
    · exact sameClosures_of_eq rfl rfl rfl
    · exact .refl s
  | library waits => exact s.setPhaseStatus_sameClosures (by cases waits <;> decide)

/-- The deeds of a segment leave the closures alone. -/
theorem acts_sameClosures (s : Service) (ds : List Deed) : s.SameClosures (s.acts ds) := by
  induction ds generalizing s with
  | nil => exact .refl s
  | cons d ds ih => exact (s.act_sameClosures d).trans (ih _)

/-- The evaluation of a file leaves the closures alone. -/
theorem evaluate_sameClosures (s : Service) (ds : List Deed) (b : Option Bailout) :
    s.SameClosures (s.evaluate ds b) := by
  have hacts := s.zendFirstTry_sameClosures.trans (acts_sameClosures _ ds)
  unfold evaluate
  cases b with
  | none => exact hacts.trans (zendEndTry_sameClosures _ none)
  | some b => exact hacts.trans ((bail_sameClosures _ b).trans (zendEndTry_sameClosures _ none))

/-- The last buffer is marked without the closures. -/
theorem markLastBuf_sameClosures (s : Service) : s.SameClosures s.markLastBuf :=
  s.onCtx_sameClosures (fun _ => rfl) fun _ h => h

/-- The end of a request that a handler sees leaves the closures alone. -/
theorem endRequest_sameClosures (s : Service) (h : Handler) : s.SameClosures (s.endRequest h) := by
  cases h with
  | opcode => exact .refl s
  | stack => exact .refl s
  | _ => exact s.onCtx_sameClosures (fun _ => rfl) fun _ h => h

/-- The request is blanked without the closures. -/
theorem blank_sameClosures (s : Service) : s.SameClosures s.blank := by
  unfold blank
  split
  · exact s.append_sameClosures _
  · exact .refl s

/-! ## The invariant -/

/-- Every generator that has not been released is in the slot. -/
structure Kept (s : Service) : Prop where
  owned : GeneratorsOwned s.ledger
  numbered : ∀ g, .made g ∈ s.ledger → g < s.generators
  stored : ∀ g, s.closure = some (.generator g) → .made g ∈ s.ledger
  held : ∀ g, .made g ∈ s.ledger → .destroyed g ∉ s.ledger → s.closure = some (.generator g)

/-- The script of a generator in the slot has been started. -/
def Started (s : Service) : Prop := s.holdsLive = true → s.phaseStatus ≠ .declined

/-- With no live generator in the slot, all have been released. -/
theorem Kept.destroyed (hk : s.Kept) (hl : s.holdsLive = false) {g : GeneratorId}
    (hm : .made g ∈ s.ledger) : .destroyed g ∈ s.ledger := by
  by_contra hd
  exact absurd (holdsLive_iff.mpr ⟨g, hk.held g hm hd, hd⟩) (by rw [hl]; exact Bool.false_ne_true)

/-- The slot is as live as before. -/
theorem SameClosures.holdsLive (h : s.SameClosures t) : t.holdsLive = s.holdsLive := by
  rw [Bool.eq_iff_iff, holdsLive_iff, holdsLive_iff, h.ledger, h.closure]

/-- The slot is as stale as before. -/
theorem SameClosures.holdsStale (h : s.SameClosures t) : t.holdsStale = s.holdsStale := by
  rw [Bool.eq_iff_iff, holdsStale_iff, holdsStale_iff, h.ledger, h.closure]

/-- What is kept of the ledger stays kept. -/
theorem SameClosures.kept (h : s.SameClosures t) (hk : s.Kept) : t.Kept where
  owned := h.ledger ▸ hk.owned
  numbered g hg := h.generators ▸ hk.numbered g (h.ledger ▸ hg)
  stored g hg := h.ledger ▸ hk.stored g (h.closure ▸ hg)
  held g hm hd := h.closure.trans (hk.held g (h.ledger ▸ hm) (h.ledger ▸ hd))

/-- Without a live generator in the slot nothing is waiting to be released. -/
theorem started_of_holdsLive (hl : s.holdsLive = false) : s.Started := fun h =>
  absurd (hl.symm.trans h) Bool.false_ne_true

/-- What has been started stays started. -/
theorem SameClosures.isStarted (h : s.SameClosures t) (hs : s.Started) : t.Started := fun hl =>
  h.started (hs (h.holdsLive ▸ hl))

/-- The slot holds a live generator, a released one, or none. -/
theorem closure_cases (s : Service) (g : GeneratorId) (hg : s.closure = some (.generator g)) :
    (s.holdsLive = true ∧ .destroyed g ∉ s.ledger) ∨
      (s.holdsStale = true ∧ .destroyed g ∈ s.ledger) := by
  by_cases hd : .destroyed g ∈ s.ledger
  · exact Or.inr ⟨holdsStale_iff.mpr ⟨g, hg, hd⟩, hd⟩
  · exact Or.inl ⟨holdsLive_iff.mpr ⟨g, hg, hd⟩, hd⟩

/-- A slot reads as it has been set, where there is a ctx. -/
theorem closure_setClosure (s : Service) (z : Option Zval) (hc : s.ctx.isSome = true) :
    (s.setClosure z).closure = z := by
  obtain ⟨ctx, hctx⟩ := Option.isSome_iff_exists.mp hc
  simp [closure, setClosure, onCtx, hctx]

/-- Only a ctx has a slot. -/
theorem ctx_isSome_of_closure {z : Zval} (h : s.closure = some z) : s.ctx.isSome = true := by
  cases hc : s.ctx with
  | none => simp [closure, hc] at h
  | some ctx => rfl

/-- A slot without a live generator may be set to anything that is none. -/
theorem Kept.setClosure (hk : s.Kept) (hl : s.holdsLive = false) {z : Option Zval}
    (hz : ∀ g, z ≠ some (.generator g)) :
    (s.setClosure z).Kept ∧ (s.setClosure z).holdsLive = false ∧
      (s.setClosure z).holdsStale = false := by
  have hno : ∀ g, (s.setClosure z).closure ≠ some (.generator g) := fun g hg => by
    have hsome : s.ctx.isSome = true := by
      have h := ctx_isSome_of_closure hg
      rwa [Service.setClosure, onCtx, Option.isSome_map] at h
    rw [closure_setClosure s z hsome] at hg
    exact hz g hg
  have hlive : (s.setClosure z).holdsLive = false := by
    rw [Bool.eq_false_iff]
    exact fun h => let ⟨g, hg, _⟩ := holdsLive_iff.mp h; hno g hg
  refine ⟨⟨hk.owned, hk.numbered, fun g hg => absurd hg (hno g), fun g hm hd => ?_⟩, hlive, ?_⟩
  · exact absurd (hk.destroyed hl hm) hd
  · rw [Bool.eq_false_iff]
    exact fun h => let ⟨g, hg, _⟩ := holdsStale_iff.mp h; hno g hg

/-- A note that makes and releases no generator. -/
theorem Kept.note (hk : s.Kept) {o : Occurrence} (ho : o.InOrder s.ledger)
    (hm : ∀ g, o ≠ .made g) (hd : ∀ g, o ≠ .destroyed g) :
    (s.note o).Kept ∧ (s.note o).holdsLive = s.holdsLive ∧
      (s.note o).holdsStale = s.holdsStale := by
  have hmade : ∀ g, .made g ∈ (s.note o).ledger ↔ .made g ∈ s.ledger := fun g => by
    rw [mem_ledger rfl, mem_ledger rfl]
    exact List.mem_cons.trans (or_iff_right fun h => hm g h.symm)
  have hdestroyed : ∀ g, .destroyed g ∈ (s.note o).ledger ↔ .destroyed g ∈ s.ledger := fun g => by
    rw [mem_ledger rfl, mem_ledger rfl]
    exact List.mem_cons.trans (or_iff_right fun h => hd g h.symm)
  have hlive : (s.note o).holdsLive = s.holdsLive := by
    rw [Bool.eq_iff_iff, holdsLive_iff, holdsLive_iff]
    exact exists_congr fun g => and_congr_right fun _ => not_congr (hdestroyed g)
  have hstale : (s.note o).holdsStale = s.holdsStale := by
    rw [Bool.eq_iff_iff, holdsStale_iff, holdsStale_iff]
    exact exists_congr fun g => and_congr_right fun _ => hdestroyed g
  refine ⟨⟨?_, fun g hg => hk.numbered g ((hmade g).mp hg),
    fun g hg => (hmade g).mpr (hk.stored g hg),
    fun g h₁ h₂ => hk.held g ((hmade g).mp h₁) (mt (hdestroyed g).mpr h₂)⟩, hlive, hstale⟩
  refine (generatorsOwned_filter (o :: s.history)).mpr ⟨(o.inOrder_filter s.history).mp ho, ?_⟩
  exact (generatorsOwned_filter s.history).mp hk.owned

/-- Entering a closure that is not stale uses its generator in order. -/
theorem enterClosure_kept (hk : s.Kept) (hs : s.holdsStale = false) :
    s.enterClosure.Kept ∧ s.enterClosure.holdsLive = s.holdsLive ∧
      s.enterClosure.holdsStale = false := by
  unfold enterClosure
  split
  next g hg =>
    have hd : .destroyed g ∉ s.ledger := by
      rcases s.closure_cases g hg with h | h
      · exact h.2
      · exact absurd h.1 (by rw [hs]; exact Bool.false_ne_true)
    obtain ⟨hk', hl', hs'⟩ := hk.note (o := .entered g) hd nofun nofun
    exact ⟨hk', hl', hs'.trans hs⟩
  next => exact ⟨hk, rfl, hs⟩

/-- A generator is released once, and stays in the slot. -/
theorem dtorClosure_kept (hk : s.Kept) (hs : s.holdsStale = false) :
    s.dtorClosure.Kept ∧ s.dtorClosure.holdsLive = false := by
  unfold dtorClosure
  split
  next g hg =>
    have hd : .destroyed g ∉ s.ledger := by
      rcases s.closure_cases g hg with h | h
      · exact h.2
      · exact absurd h.1 (by rw [hs]; exact Bool.false_ne_true)
    have hledger : (s.note (.destroyed g)).ledger = .destroyed g :: s.ledger :=
      List.filter_cons_of_pos rfl
    have hmade : ∀ g', .made g' ∈ (s.note (.destroyed g)).ledger → .made g' ∈ s.ledger := by
      intro g' hm
      rw [hledger] at hm
      exact (List.mem_cons.mp hm).resolve_left nofun
    have hlive : (s.note (.destroyed g)).holdsLive = false := by
      rw [Bool.eq_false_iff]
      intro h
      obtain ⟨g', hg', hd'⟩ := holdsLive_iff.mp h
      obtain rfl : g = g' := by
        have heq := hg.symm.trans hg'
        injection heq with heq
        injection heq
      exact hd' (hledger ▸ List.mem_cons_self)
    refine ⟨⟨?_, fun g' hm => hk.numbered g' (hmade g' hm),
      fun g' hg' => hledger ▸ List.mem_cons_of_mem _ (hk.stored g' hg'),
      fun g' hm hd' => ?_⟩, hlive⟩
    · rw [hledger]
      exact ⟨⟨hk.stored g hg, hd⟩, hk.owned⟩
    · rw [hledger] at hd'
      exact hk.held g' (hmade g' hm) (List.not_mem_of_not_mem_cons hd')
  next hno =>
    refine ⟨hk, Bool.eq_false_iff.mpr fun h => ?_⟩
    obtain ⟨g, hg, -⟩ := holdsLive_iff.mp h
    exact hno g hg

/-- A closure that is not stale is released in order, and the slot is empty. -/
theorem freeClosure_kept (hk : s.Kept) (hs : s.holdsStale = false) :
    s.freeClosure.Kept ∧ s.freeClosure.holdsLive = false ∧ s.freeClosure.holdsStale = false := by
  obtain ⟨hk', hl'⟩ := dtorClosure_kept hk hs
  exact hk'.setClosure hl' nofun

/-- A new closure needs a ctx and leaves it there. -/
theorem newClosure_ctx (s : Service) : s.newClosure.ctx.isSome = s.ctx.isSome := by
  unfold newClosure
  split <;> exact Option.isSome_map

/-- The slot is overwritten only once its generator has been released. -/
theorem newClosure_kept (hk : s.Kept) (hl : s.holdsLive = false) :
    s.newClosure.Kept ∧ s.newClosure.holdsLive = false ∧ s.newClosure.holdsStale = false := by
  unfold newClosure
  split
  next g hg =>
    have hd : .destroyed g ∈ s.ledger := by
      rcases s.closure_cases g hg with h | h
      · exact absurd h.1 (by rw [hl]; exact Bool.false_ne_true)
      · exact h.2
    obtain ⟨hk', hl', -⟩ := hk.note (o := .overwrote g) hd nofun nofun
    exact hk'.setClosure (hl'.trans hl) nofun
  next => exact hk.setClosure hl nofun

/-- A new generator goes into a slot without a live one. -/
theorem storeGenerator_kept (hk : s.Kept) (hl : s.holdsLive = false) (hc : s.ctx.isSome = true) :
    s.storeGenerator.Kept ∧ s.storeGenerator.holdsStale = false := by
  have hledger : s.storeGenerator.ledger = .made s.generators :: s.ledger :=
    List.filter_cons_of_pos rfl
  have hclosure : s.storeGenerator.closure = some (.generator s.generators) :=
    closure_setClosure s _ hc
  have hfresh : .destroyed s.generators ∉ s.ledger := fun hd =>
    absurd (hk.numbered _ (hk.owned.made hd)) (Nat.lt_irrefl _)
  refine ⟨⟨?_, fun g hm => ?_, fun g hg => ?_, fun g hm hd => ?_⟩, ?_⟩
  · rw [hledger]
    exact ⟨trivial, hk.owned⟩
  · rw [hledger] at hm
    rcases List.mem_cons.mp hm with heq | hm
    · injection heq with heq
      exact heq ▸ Nat.lt_succ_self _
    · exact Nat.lt_succ_of_lt (hk.numbered g hm)
  · rw [hclosure] at hg
    injection hg with hg
    injection hg with hg
    rw [hledger, hg]
    exact List.mem_cons_self
  · rw [hledger] at hm hd
    rcases List.mem_cons.mp hm with heq | hm
    · injection heq with heq
      rw [hclosure, heq]
    · exact absurd (List.mem_cons_of_mem _ (hk.destroyed hl hm)) hd
  · rw [Bool.eq_false_iff]
    intro h
    obtain ⟨g, hg, hd⟩ := holdsStale_iff.mp h
    rw [hclosure] at hg
    injection hg with hg
    injection hg with hg
    rw [hledger, ← hg] at hd
    exact hfresh ((List.mem_cons.mp hd).resolve_left nofun)

/-! ## Creating and resuming -/

/-- A bailout that is caught releases the generator once. -/
theorem caught_kept (hk : s.Kept) (hs : s.holdsStale = false) (fn : UthreadFn)
    (entry : Option JmpBuf) (b : Bailout) :
    (s.caught fn entry b).Kept ∧ (s.caught fn entry b).holdsLive = false ∧
      (s.caught fn entry b).holdsStale = false := by
  have hbail := (s.bail_sameClosures b).trans (zendEndTry_sameClosures _ entry)
  obtain ⟨hk', hl', hs'⟩ := freeClosure_kept (hbail.kept hk) (hbail.holdsStale.trans hs)
  have hleave := leave_sameClosures ((s.bail b).zendEndTry entry).freeClosure fn entry
  exact ⟨hleave.kept hk', hleave.holdsLive.trans hl', hleave.holdsStale.trans hs'⟩

/-- A generator that is created is released once if it ends in its first go, and else it lives on in
the slot. -/
theorem createValid_kept (hk : s.Kept) (hs : s.holdsStale = false) (p : FuncPrefix)
    (entry : Option JmpBuf) (first : Segment) :
    (s.createValid p entry first).Kept ∧ (s.createValid p entry first).holdsStale = false ∧
      (s.holdsLive = false ∨ (∃ b, first.stop = .bailout b) →
        (s.createValid p entry first).holdsLive = false) := by
  obtain ⟨hke, hle, hse⟩ := enterClosure_kept hk hs
  have hacts := s.enterClosure.acts_sameClosures first.deeds
  have hsame : ∀ t, (s.enterClosure.acts first.deeds).SameClosures t →
      t.Kept ∧ t.holdsStale = false ∧ (s.holdsLive = false → t.holdsLive = false) := fun t h => by
    have h' := hacts.trans h
    exact ⟨h'.kept hke, h'.holdsStale.trans hse, fun hl => h'.holdsLive.trans (hle.trans hl)⟩
  have hstatus : ∀ rc : Rc, rc ≠ .declined → ∀ u : Service, u.SameClosures
      (((u.setPhaseStatus rc).zendEndTry entry).leave (.create p) entry) := fun rc hrc u =>
    ((u.setPhaseStatus_sameClosures hrc).trans (zendEndTry_sameClosures _ entry)).trans
      (leave_sameClosures _ _ entry)
  obtain ⟨deeds, stop⟩ := first
  cases stop with
  | bailout b =>
    have h := hsame _ (.refl _)
    obtain ⟨hk', hl', hs'⟩ := caught_kept h.1 h.2.1 (.create p) entry b
    exact ⟨hk', hs', fun _ => hl'⟩
  | valid =>
    obtain ⟨hk', hs', hl'⟩ := hsame _ (hstatus .again (by decide) _)
    exact ⟨hk', hs', fun h => hl' (h.resolve_right nofun)⟩
  | ended =>
    obtain ⟨hk', hs', hl'⟩ := hsame _ (hstatus .ok (by decide) _)
    exact ⟨hk', hs', fun h => hl' (h.resolve_right nofun)⟩
  | failure =>
    obtain ⟨hk', hs', hl'⟩ := hsame _ (leave_sameClosures _ (.create p) entry)
    exact ⟨hk', hs', fun h => hl' (h.resolve_right nofun)⟩

/-- A script that is no generator has its return value released. -/
theorem createValue_kept (hk : s.Kept) (hs : s.holdsStale = false) (p : FuncPrefix)
    (entry : Option JmpBuf) :
    (s.createValue p entry).Kept ∧ (s.createValue p entry).holdsLive = false ∧
      (s.createValue p entry).holdsStale = false := by
  obtain ⟨hk', hl', hs'⟩ := freeClosure_kept hk hs
  have h := (s.freeClosure.zendEndTry_sameClosures entry).trans
    (leave_sameClosures _ (.create p) entry)
  exact ⟨h.kept hk', h.holdsLive.trans hl', h.holdsStale.trans hs'⟩

/-- The function of a script is called with an empty slot. -/
theorem createCall_kept (hk : s.Kept) (hl : s.holdsLive = false) (hs : s.holdsStale = false)
    (hc : s.ctx.isSome = true) (p : FuncPrefix) (entry : Option JmpBuf) (f : ScriptFn) :
    (s.createCall p entry f).Kept ∧ (s.createCall p entry f).holdsStale = false ∧
      ((Code.compiled f).leavesGenerator = false → (s.createCall p entry f).holdsLive = false) := by
  cases f with
  | missing =>
    obtain ⟨hk', hl', hs'⟩ := createValue_kept hk hs p entry
    exact ⟨hk', hs', fun _ => hl'⟩
  | run deeds result =>
    have hacts := (s.note_sameClosures (o := .called p) rfl).trans (acts_sameClosures _ deeds)
    have hka := hacts.kept hk
    have hla := hacts.holdsLive.trans hl
    have hsa := hacts.holdsStale.trans hs
    cases result with
    | value =>
      obtain ⟨hk', hl', hs'⟩ := createValue_kept hka hsa p entry
      exact ⟨hk', hs', fun _ => hl'⟩
    | bailout b =>
      obtain ⟨hk', hl', hs'⟩ := caught_kept hka hsa (.create p) entry b
      exact ⟨hk', hs', fun _ => hl'⟩
    | generator first =>
      obtain ⟨hk', hs'⟩ := storeGenerator_kept hka hla (hacts.ctx hc)
      obtain ⟨hk'', hs'', hl''⟩ := createValid_kept hk' hs' p entry first
      refine ⟨hk'', hs'', fun h => hl'' (Or.inr ?_)⟩
      obtain ⟨deeds', stop⟩ := first
      cases stop with
      | bailout b => exact ⟨b, rfl⟩
      | _ => exact absurd h.symm Bool.false_ne_true
    | object first =>
      obtain ⟨hk', hl', hs'⟩ := hka.setClosure hla (z := some .object) nofun
      obtain ⟨hk'', hs'', hl''⟩ := createValid_kept hk' hs' p entry first
      exact ⟨hk'', hs'', fun _ => hl'' (Or.inl hl')⟩

/-- Without a ctx there is no stale pointer. -/
theorem holdsStale_of_ctx (h : s.ctx.isNone = true) : s.holdsStale = false := by
  rw [Bool.eq_false_iff]
  intro hs
  obtain ⟨g, hg, -⟩ := holdsStale_iff.mp hs
  rw [Option.isNone_iff_eq_none] at h
  simp [closure, h] at hg

/-- `create` overwrites no live generator, and only a script that leaves one behind leaves a live
one. -/
theorem create_kept (hk : s.Kept) (hl : s.holdsLive = false) (p : FuncPrefix) (f : ScriptFn) :
    (s.create p f).Kept ∧ (s.create p f).holdsStale = false ∧
      ((Code.compiled f).leavesGenerator = false → (s.create p f).holdsLive = false) := by
  unfold create
  split
  next hc =>
    have h := s.leave_sameClosures (.create p) s.bailout
    exact ⟨h.kept hk, h.holdsStale.trans (holdsStale_of_ctx hc), fun _ => h.holdsLive.trans hl⟩
  next hc =>
    obtain ⟨hk', hl', hs'⟩ := newClosure_kept hk hl
    have h := s.newClosure.zendTry_sameClosures
    refine createCall_kept (h.kept hk') (h.holdsLive.trans hl') (h.holdsStale.trans hs') ?_ p _ f
    have hsome : s.ctx.isSome = true :=
      Option.isSome_iff_ne_none.mpr (mt Option.isNone_iff_eq_none.mpr hc)
    exact h.ctx (s.newClosure_ctx.trans hsome)

/-- The routines of inline code need a slot without a live generator, and leave one there only if
the function returns it. -/
theorem routine_kept (hk : s.Kept) (hl : s.holdsLive = false) (p : FuncPrefix) (code : Code) :
    (s.routine p code).Kept ∧
      (code.compiles = true ∨ s.holdsStale = false → (s.routine p code).holdsStale = false) ∧
      (code.leavesGenerator = false → (s.routine p code).holdsLive = false) := by
  have htry := s.zendFirstTry_sameClosures
  unfold routine
  cases code with
  | compiled f =>
    obtain ⟨hk', hs', hl'⟩ := create_kept (htry.kept hk) (htry.holdsLive.trans hl) p f
    have h := zendEndTry_sameClosures (create { s with bailout := none }.zendTry p f) none
    exact ⟨h.kept hk', fun _ => h.holdsStale.trans hs', fun hf => h.holdsLive.trans (hl' hf)⟩
  | failed b =>
    have h := htry.trans ((bail_sameClosures _ b).trans (zendEndTry_sameClosures _ none))
    exact ⟨h.kept hk, fun hs => h.holdsStale.trans (hs.resolve_left Bool.false_ne_true),
      fun _ => h.holdsLive.trans hl⟩

/-! ## Scripts that have been started -/

/-- The slot is no part of the phase status. -/
theorem phaseStatus_setClosure (s : Service) (z : Option Zval) :
    (s.setClosure z).phaseStatus = s.phaseStatus := by
  cases hc : s.ctx <;> simp [phaseStatus, setClosure, onCtx, hc]

/-- The release of a closure leaves the phase status alone. -/
theorem phaseStatus_dtorClosure (s : Service) : s.dtorClosure.phaseStatus = s.phaseStatus := by
  unfold dtorClosure
  split <;> rfl

/-- Entering a closure leaves the phase status alone. -/
theorem phaseStatus_enterClosure (s : Service) : s.enterClosure.phaseStatus = s.phaseStatus := by
  unfold enterClosure
  split <;> rfl

/-- A new closure leaves the phase status alone. -/
theorem phaseStatus_newClosure (s : Service) : s.newClosure.phaseStatus = s.phaseStatus := by
  unfold newClosure
  split
  · exact phaseStatus_setClosure _ _
  · exact phaseStatus_setClosure _ _

/-- A bailout that is caught does not bring back `NGX_DECLINED`. -/
theorem caught_phaseStatus (s : Service) (fn : UthreadFn) (entry : Option JmpBuf) (b : Bailout) :
    s.phaseStatus ≠ .declined → (s.caught fn entry b).phaseStatus ≠ .declined := fun h => by
  have hbail := (s.bail_sameClosures b).trans (zendEndTry_sameClosures _ entry)
  change ((s.bail b).zendEndTry entry).freeClosure.phaseStatus ≠ .declined
  rw [freeClosure, phaseStatus_setClosure, phaseStatus_dtorClosure]
  exact hbail.started h

/-- The first go of a generator does not bring back `NGX_DECLINED`. -/
theorem createValid_phaseStatus (s : Service) (p : FuncPrefix) (entry : Option JmpBuf)
    (first : Segment) :
    s.phaseStatus ≠ .declined → (s.createValid p entry first).phaseStatus ≠ .declined := fun h => by
  rw [← phaseStatus_enterClosure] at h
  have hacts := (s.enterClosure.acts_sameClosures first.deeds).started h
  unfold createValid
  dsimp only
  split
  · exact (setPhaseStatus_sameClosures _ (by decide)).started hacts
  · exact (setPhaseStatus_sameClosures _ (by decide)).started hacts
  · exact hacts
  · exact caught_phaseStatus _ _ _ _ hacts

/-- A return value leaves the phase status alone. -/
theorem createValue_phaseStatus (s : Service) (p : FuncPrefix) (entry : Option JmpBuf) :
    (s.createValue p entry).phaseStatus = s.phaseStatus :=
  (phaseStatus_setClosure _ _).trans (phaseStatus_dtorClosure s)

/-- A script that is called does not bring back `NGX_DECLINED`. -/
theorem createCall_phaseStatus (s : Service) (p : FuncPrefix) (entry : Option JmpBuf)
    (f : ScriptFn) :
    s.phaseStatus ≠ .declined → (s.createCall p entry f).phaseStatus ≠ .declined := fun h => by
  cases f with
  | missing => exact (s.createValue_phaseStatus p entry).symm ▸ h
  | run deeds result =>
    have hacts := ((s.note_sameClosures (o := .called p) rfl).trans
      (acts_sameClosures _ deeds)).started h
    cases result with
    | value => exact (createValue_phaseStatus _ p entry).symm ▸ hacts
    | bailout b => exact caught_phaseStatus _ _ _ _ hacts
    | generator first =>
      exact createValid_phaseStatus _ _ _ _ ((phaseStatus_setClosure _ _).symm ▸ hacts)
    | object first =>
      exact createValid_phaseStatus _ _ _ _ ((phaseStatus_setClosure _ _).symm ▸ hacts)

/-- No routine takes the phase back to where a script may be started. -/
theorem routine_phaseStatus (s : Service) (p : FuncPrefix) (code : Code) :
    s.phaseStatus ≠ .declined → (s.routine p code).phaseStatus ≠ .declined := fun h => by
  unfold routine
  cases code with
  | compiled f =>
    change (create _ p f).phaseStatus ≠ .declined
    unfold create
    split
    · exact h
    · exact createCall_phaseStatus _ _ _ _ (ne_of_eq_of_ne (phaseStatus_newClosure _) h)
  | failed b => exact (s.zendFirstTry_sameClosures.trans (bail_sameClosures _ b)).started h

end Service

end NgxPhp
