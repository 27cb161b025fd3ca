import NgxPhp.Lib.Linked
import NgxPhp.Serve.Framing

/-!
# The chain in memory

`ctx->rputs_chain` is built link by link through the pointer `chain->last`, which addresses
`chain->out` at first and the field `next` of the link before the last one later. The list of links
that the other modules append to is what a walk from `chain->out` visits.
-/

namespace NgxPhp

/-- What a write reads and sets in the ctx; `chain->out` and `chain->last` are the pointers of the
list. -/
structure OutputCtx where
  rputsChain : Option (Tailed Nat) := none
  /-- `output_type` has the bit `OUTPUT_CONTENT`. -/
  outputContent : Bool := false
  deriving DecidableEq, Repr

/-- The links of the pool with the request. What is in a link that the pool has not given yet is
unknown. -/
structure OutputState where
  heap : Nat → Cell Nat ChainLink
  /-- The link that the pool gives next. -/
  fresh : Nat
  ctx : Option OutputCtx := none
  contentLengthN : Int := -1

namespace OutputState

/-- `ctx->rputs_chain`. -/
def chain (o : OutputState) : Option (Tailed Nat) := o.ctx.bind (·.rputsChain)

/-- A link for a buffer, behind the chain or as the first one. -/
def allocate (o : OutputState) (ctx : OutputCtx) :
    Option ((Nat → Cell Nat ChainLink) × Tailed Nat) :=
  match ctx.rputsChain with
  | none => some (o.heap, .single o.fresh)
  | some chain => chain.link o.heap o.fresh

/-- A buffer is appended and counted. Nothing comes of following a pointer that is `NULL`. -/
def append (o : OutputState) (ctx : OutputCtx) (b : Bytes) : Option OutputState :=
  (o.allocate ctx).bind fun (heap, chain) =>
    (chain.fill heap ⟨b, false⟩).map fun heap =>
      { heap
        fresh := o.fresh + 1
        ctx := some { ctx with rputsChain := some chain }
        contentLengthN :=
          if o.contentLengthN = -1 then o.contentLengthN + (b.length + 1)
          else o.contentLengthN + b.length }

/-- `ngx_http_php_code_ub_write`. -/
def ubWrite (o : OutputState) (b : Bytes) : Option OutputState :=
  match o.ctx with
  | none => some o
  | some ctx => if ctx.outputContent then o.append ctx b else some o

/-- A handler of inline code makes sure that there is a ctx, where output goes to. -/
def ensureCtx (o : OutputState) : OutputState :=
  { o with ctx := some { o.ctx.getD {} with outputContent := true } }

/-- The script of a phase, which its handler has started, makes these writes. -/
def script (o : OutputState) (ws : List Bytes) : Option OutputState := ws.foldlM ubWrite o.ensureCtx

/-- The scripts of the phases, of which none has sent anything. -/
def scripts (o : OutputState) (wss : List (List Bytes)) : Option OutputState := wss.foldlM script o

/-- The placeholder, where nothing has been written. -/
def blank (o : OutputState) (ctx : OutputCtx) : Option OutputState :=
  match ctx.rputsChain with
  | none => o.append ctx [32]
  | some _ => some o

/-- `(*chain->last)->buf->last_buf = 1`. -/
def markLastBuf (o : OutputState) : Option OutputState :=
  o.chain.bind fun chain =>
    (chain.onLast o.heap fun link => { link with lastBuf := true }).map fun heap => { o with heap }

/-- `set_output` of `ngx_http_php_content_inline_handler` up to the call of
`ngx_http_output_filter`. It is not reached without a ctx. -/
def setOutput (o : OutputState) : Option OutputState :=
  o.ctx.bind fun ctx => (o.blank ctx).bind markLastBuf

/-- The chain has these links and no others, in this order, and `chain->last` addresses the pointer
to the last one. -/
structure Walks (o : OutputState) (chain : Tailed Nat) (is : List Nat) (i : Nat)
    (links : List ChainLink) : Prop where
  holds : chain.Holds o.heap is i
  data : (is ++ [i]).map (fun k => (o.heap k).data) = links
  fresh : ∀ k ∈ is ++ [i], k < o.fresh

/-- The chain in memory is this list. -/
def Spells (o : OutputState) (links : List ChainLink) : Prop :=
  match o.chain with
  | none => links = []
  | some chain => ∃ is i, o.Walks chain is i links

/-- The state in memory is that of the service. -/
structure Refines (o : OutputState) (s : Service) : Prop where
  ctx : o.ctx.map (·.outputContent) = s.ctx.map (·.outputContent)
  length : o.contentLengthN = s.headersOut.contentLengthN
  chain : o.Spells s.chain

/-! ## The operations refine those on lists -/

theorem spells_none {o : OutputState} {links : List ChainLink} (hc : o.chain = none) :
    o.Spells links ↔ links = [] := by
  unfold Spells
  rw [hc]

theorem spells_some {o : OutputState} {links : List ChainLink} {chain : Tailed Nat}
    (hc : o.chain = some chain) : o.Spells links ↔ ∃ is i, o.Walks chain is i links := by
  unfold Spells
  rw [hc]

theorem append_spells {o : OutputState} {ctx : OutputCtx} (hctx : o.ctx = some ctx)
    {links : List ChainLink} (h : o.Spells links) (b : Bytes) :
    ∃ o', o.append ctx b = some o' ∧ o'.Spells (links ++ [⟨b, false⟩]) ∧
      o'.ctx.map (·.outputContent) = some ctx.outputContent ∧
      o'.contentLengthN = countBuf o.contentLengthN b := by
  have hcount : (if o.contentLengthN = -1 then o.contentLengthN + ((b.length : Int) + 1)
      else o.contentLengthN + b.length) = countBuf o.contentLengthN b := by
    unfold countBuf
    split <;> omega
  have hchain : o.chain = ctx.rputsChain := by rw [chain, hctx, Option.bind_some]
  unfold Spells at h
  rw [hchain] at h
  unfold append allocate
  cases hc : ctx.rputsChain with
  | none =>
    rw [hc] at h
    obtain ⟨heap, hfill, hholds, hdata⟩ := Tailed.single_fill o.heap o.fresh ⟨b, false⟩
    dsimp only [Option.bind_some]
    rw [hfill]
    refine ⟨_, rfl, ⟨[], o.fresh, hholds, ?_, ?_⟩, rfl, hcount⟩
    · rw [h]
      exact congrArg (· :: []) hdata
    · intro k hk
      rw [List.mem_singleton.mp hk]
      exact Nat.lt_succ_self _
  | some chain =>
    rw [hc] at h
    obtain ⟨is, i, hholds, hdata, hfresh⟩ := h
    obtain ⟨heap₁, chain', heap, hlink, hfill, hholds', hdata'⟩ :=
      hholds.link_fill (fun hmem => Nat.lt_irrefl _ (hfresh _ hmem)) (⟨b, false⟩ : ChainLink)
    dsimp only
    rw [hlink, Option.bind_some, hfill]
    refine ⟨_, rfl, ⟨is ++ [i], o.fresh, hholds', ?_, ?_⟩, rfl, hcount⟩
    · rw [← hdata]
      exact hdata'
    · intro k hk
      rcases List.mem_append.mp hk with hk | hk
      · exact Nat.lt_succ_of_lt (hfresh k hk)
      · rw [List.mem_singleton.mp hk]
        exact Nat.lt_succ_self _

/-- A new link refines that of the service. -/
theorem Refines.append {o : OutputState} {s : Service} (h : o.Refines s) {ctx : OutputCtx}
    {c : PhpCtx} (ho : o.ctx = some ctx) (hs : s.ctx = some c) (b : Bytes) :
    ∃ o', o.append ctx b = some o' ∧ o'.Refines (s.append b) := by
  have hout := h.ctx
  rw [ho, hs] at hout
  obtain ⟨o', happend, hspells, hctx, hlength⟩ := append_spells ho h.chain b
  have hprints := s.append_prints b (Option.isSome_iff_exists.mpr ⟨c, hs⟩)
  refine ⟨o', happend, ?_, ?_, ?_⟩
  · rw [hctx]
    refine hout.trans ?_
    simp [Service.append, Service.onCtx, Service.count, Service.onHeaders, hs]
  · rw [hlength, h.length, hprints.length]
    rfl
  · rw [hprints.chain]
    exact hspells

/-- A write refines that of the service. -/
theorem Refines.ubWrite {o : OutputState} {s : Service} (h : o.Refines s) (b : Bytes) :
    ∃ o', o.ubWrite b = some o' ∧ o'.Refines (s.ubWrite b) := by
  have hctx := h.ctx
  unfold OutputState.ubWrite Service.ubWrite
  cases ho : o.ctx with
  | none =>
    cases hs : s.ctx with
    | none => exact ⟨o, rfl, h⟩
    | some c => rw [ho, hs] at hctx; cases hctx
  | some ctx =>
    cases hs : s.ctx with
    | none => rw [ho, hs] at hctx; cases hctx
    | some c =>
      rw [ho, hs] at hctx
      have hout : ctx.outputContent = c.outputContent := Option.some.inj hctx
      dsimp only
      rw [hout]
      by_cases hc : c.outputContent = true
      · rw [if_pos hc, if_pos hc]
        exact h.append ho hs b
      · rw [if_neg hc, if_neg hc]
        exact ⟨o, rfl, h⟩

theorem ensureCtx_chain (s : Service) : (s.ensureCtx true).chain = s.chain := rfl

/-- An entry of a handler refines that of the service. -/
theorem Refines.ensureCtx {o : OutputState} {s : Service} (h : o.Refines s) :
    o.ensureCtx.Refines (s.ensureCtx true) := by
  obtain ⟨hctx, hlength, hchain⟩ := h
  refine ⟨rfl, hlength, ?_⟩
  have ho : o.ensureCtx.chain = o.chain := by
    unfold OutputState.ensureCtx OutputState.chain
    cases o.ctx <;> rfl
  rw [ensureCtx_chain]
  cases hc : o.chain with
  | none => exact (spells_none (ho.trans hc)).mpr ((spells_none hc).mp hchain)
  | some chain =>
    obtain ⟨is, i, hholds, hdata, hfresh⟩ := (spells_some hc).mp hchain
    exact (spells_some (ho.trans hc)).mpr ⟨is, i, hholds, hdata, hfresh⟩

/-- The script of a phase refines that of the service. -/
theorem Refines.script {o : OutputState} {s : Service} (h : o.Refines s) (ws : List Bytes) :
    ∃ o', o.script ws = some o' ∧ o'.Refines ((s.ensureCtx true).acts (ws.map Deed.echo)) := by
  have hfold (ws : List Bytes) : ∀ {o : OutputState} {s : Service}, o.Refines s →
      ∃ o', ws.foldlM OutputState.ubWrite o = some o' ∧
        o'.Refines (s.acts (ws.map Deed.echo)) := by
    induction ws with
    | nil => exact fun h => ⟨_, rfl, h⟩
    | cons w ws ih =>
      intro o s h
      obtain ⟨o₁, hwrite, h₁⟩ := h.ubWrite w
      obtain ⟨o', hrun, h'⟩ := ih h₁
      exact ⟨o', by rw [List.foldlM_cons, hwrite]; exact hrun, h'⟩
  exact hfold ws h.ensureCtx

/-- The scripts of the phases append their writes to the chain of the service. -/
theorem Refines.scripts {o : OutputState} {s : Service} (h : o.Refines s) (ht : s.Tidy)
    (wss : List (List Bytes)) :
    ∃ o' s', o.scripts wss = some o' ∧ o'.Refines s' ∧ s'.Tidy ∧
      s'.headerSent = s.headerSent ∧ s'.chain = s.chain ++ links wss.flatten ∧
      (s'.ctx.isSome = (s.ctx.isSome || !wss.isEmpty)) := by
  induction wss generalizing o s with
  | nil => exact ⟨o, s, rfl, h, ht, rfl, by simp [links], by simp⟩
  | cons ws wss ih =>
    obtain ⟨o₁, hscript, h₁⟩ := h.script ws
    have hprints := (s.ensureCtx true).acts_prints (ws.map Deed.echo)
    have hwrites : (s.ensureCtx true).printed ((ws.map Deed.echo).flatMap Deed.writes) = ws := by
      have hp : (s.ensureCtx true).prints = true := rfl
      unfold Service.printed
      rw [if_pos hp, List.flatMap_map]
      exact List.flatMap_singleton' ws
    rw [hwrites] at hprints
    have htidy := hprints.tidy (Service.ensureCtx_tidy ht true)
    obtain ⟨o', s', hrun, h', ht', hsent, hchain, hctx⟩ := ih h₁ htidy
    refine ⟨o', s', ?_, h', ht', hsent.trans hprints.headerSent, ?_, ?_⟩
    · unfold OutputState.scripts at hrun ⊢
      rw [List.foldlM_cons, hscript]
      exact hrun
    · rw [hchain, hprints.chain, ensureCtx_chain, List.flatten_cons, links_append,
        List.append_assoc]
      rfl
    · rw [hctx, hprints.ctx]
      simp [Service.ensureCtx]

/-- The placeholder refines that of the service, and then there is a chain. -/
theorem Refines.blank {o : OutputState} {s : Service} (h : o.Refines s) {ctx : OutputCtx}
    {c : PhpCtx} (ho : o.ctx = some ctx) (hs : s.ctx = some c) :
    ∃ o', o.blank ctx = some o' ∧ o'.Refines s.blank ∧ o'.chain ≠ none := by
  have hoc : o.chain = ctx.rputsChain := by rw [OutputState.chain, ho, Option.bind_some]
  unfold OutputState.blank Service.blank
  cases hr : ctx.rputsChain with
  | none =>
    rw [if_pos ((spells_none (hoc.trans hr)).mp h.chain)]
    obtain ⟨o', happend, h'⟩ := h.append ho hs [32]
    refine ⟨o', happend, h', fun hno => ?_⟩
    have hempty := (spells_none hno).mp h'.chain
    rw [(s.append_prints [32] (Option.isSome_iff_exists.mpr ⟨c, hs⟩)).chain] at hempty
    exact List.append_ne_nil_of_right_ne_nil _ (List.cons_ne_nil _ _) hempty
  | some chain =>
    obtain ⟨is, i, hwalks⟩ := (spells_some (hoc.trans hr)).mp h.chain
    have hne : s.chain ≠ [] := by
      rw [← hwalks.data]
      simp
    rw [if_neg hne]
    exact ⟨o, rfl, h, fun hno => Option.some_ne_none chain (hr.symm.trans (hoc.symm.trans hno))⟩

/-- The mark refines that of the service. -/
theorem Refines.markLastBuf {o : OutputState} {s : Service} (h : o.Refines s)
    (hsome : o.chain ≠ none) : ∃ o', o.markLastBuf = some o' ∧ o'.Refines s.markLastBuf := by
  obtain ⟨chain, hc⟩ := Option.ne_none_iff_exists'.mp hsome
  obtain ⟨is, i, hwalks⟩ := (spells_some hc).mp h.chain
  obtain ⟨heap, hmark, hholds, hdata, hlast⟩ :=
    hwalks.holds.onLast fun link => { link with lastBuf := true }
  refine ⟨{ o with heap }, ?_, ?_, h.length, ?_⟩
  · unfold OutputState.markLastBuf
    rw [hc, Option.bind_some, hmark]
    rfl
  · refine h.ctx.trans ?_
    unfold Service.markLastBuf Service.onCtx
    rw [Option.map_map]
    rfl
  · have hc' : OutputState.chain { o with heap } = some chain := hc
    rw [spells_some hc', s.markLastBuf_chain, ← hwalks.data, List.map_append]
    refine ⟨is, i, hholds, ?_, hwalks.fresh⟩
    rw [List.map_append, hdata]
    exact (congrArg (fun l => is.map (fun k => (o.heap k).data) ++ [l]) hlast).trans
      (markLast_append _ _).symm

/-- The placeholder and the mark refine those of the service. -/
theorem Refines.setOutput {o : OutputState} {s : Service} (h : o.Refines s)
    (hc : s.ctx.isSome = true) : ∃ o', o.setOutput = some o' ∧ o'.Refines s.blank.markLastBuf := by
  obtain ⟨c, hs⟩ := Option.isSome_iff_exists.mp hc
  have hctx := h.ctx
  rw [hs] at hctx
  obtain ⟨ctx, ho, -⟩ := Option.map_eq_some_iff.mp hctx
  obtain ⟨o₁, hblank, h₁, hsome⟩ := h.blank ho hs
  obtain ⟨o', hmark, h'⟩ := h₁.markLastBuf hsome
  refine ⟨o', ?_, h'⟩
  rw [OutputState.setOutput, ho, Option.bind_some, hblank, Option.bind_some, hmark]

/-! ## The chain of a request -/

/-- A request for which no handler has run. The memory of the pool may hold anything. -/
def start (heap : Nat → Cell Nat ChainLink) (fresh : Nat) : OutputState := { heap, fresh }

/-- The chain after these writes: a walk from `chain->out` visits a link for each of them in their
order and then `NULL`, `chain->last` addresses the pointer to the last one, and the length is
counted. As long as there are none there is no chain, and the length is still the mark for that. -/
def HoldsWrites (o : OutputState) (ws : List Bytes) : Prop :=
  match o.chain with
  | none => ws = [] ∧ o.contentLengthN = -1
  | some chain =>
    ∃ is i, (is ++ [i]).length = ws.length ∧ Reaches o.heap chain.first (is ++ [i]) none ∧
      (is ++ [i]).map (fun k => (o.heap k).data) = ws.map (fun w => ⟨w, false⟩) ∧
      chain.last = Tailed.placeBehind is ∧ chain.target o.heap = some i ∧
      (o.heap i).next = none ∧ o.contentLengthN = (ws.flatten.length : Int)

/-- The chain that is sent: its links hold these buffers, the last one and no other has the mark,
and the length is that of the buffers. -/
def SendsWrites (o : OutputState) (ws : List Bytes) : Prop :=
  ∃ chain is i, o.chain = some chain ∧ Reaches o.heap chain.first (is ++ [i]) none ∧
    (is ++ [i]).map (fun k => (o.heap k).data.buf) = ws ∧
    (∀ k ∈ is, (o.heap k).data.lastBuf = false) ∧ (o.heap i).data.lastBuf = true ∧
    o.contentLengthN = (ws.flatten.length : Int)

theorem chainBytes_links (ws : List Bytes) : chainBytes (links ws) = ws.flatten.length := by
  induction ws with
  | nil => rfl
  | cons w ws ih =>
    rw [List.flatten_cons, List.length_append, ← ih]
    rfl

theorem links_eq_nil_iff {ws : List Bytes} : links ws = [] ↔ ws = [] := List.map_eq_nil_iff

theorem blank_chain {s : Service} (hc : s.ctx.isSome = true) {ws : List Bytes}
    (h : s.chain = links ws) : s.blank.chain = links (if ws = [] then [[32]] else ws) := by
  rw [(s.blank_prints hc).chain, h]
  by_cases hws : ws = []
  · rw [if_pos (links_eq_nil_iff.mpr hws), if_pos hws, hws]
    rfl
  · rw [if_neg fun hnil => hws (links_eq_nil_iff.mp hnil), if_neg hws]
    exact List.append_nil _

/-- What the invariant of the service says of the chain in memory. -/
theorem Refines.holdsWrites {o : OutputState} {s : Service} (h : o.Refines s) (ht : s.Tidy)
    (hsent : s.headerSent = false) {ws : List Bytes} (hchain : s.chain = links ws) :
    o.HoldsWrites ws := by
  have hlength := h.length.trans (ht hsent).1
  have hspells := h.chain
  rw [hchain] at hlength hspells
  unfold HoldsWrites
  cases hc : o.chain with
  | none =>
    have hnil := (spells_none hc).mp hspells
    rw [if_pos hnil] at hlength
    exact ⟨links_eq_nil_iff.mp hnil, hlength⟩
  | some chain =>
    obtain ⟨is, i, hholds, hdata, -⟩ := (spells_some hc).mp hspells
    have hne : links ws ≠ [] := by
      rw [← hdata]
      simp
    rw [if_neg hne, chainBytes_links] at hlength
    have hcount : (is ++ [i]).length = ws.length := by
      simpa [links] using congrArg List.length hdata
    exact ⟨is, i, hcount, hholds.visits, hdata, hholds.last, hholds.target, hholds.next, hlength⟩

/-- What is sent of a chain that is written by now. -/
theorem Refines.sendsWrites {o : OutputState} {s : Service} (h : o.Refines s.markLastBuf)
    (ht : s.Tidy) (hsent : s.headerSent = false) {ws : List Bytes} (hne : ws ≠ [])
    (hchain : s.chain = links ws) : o.SendsWrites ws := by
  have hlength : o.contentLengthN = _ := h.length.trans (ht hsent).1
  rw [hchain, if_neg fun hnil => hne (links_eq_nil_iff.mp hnil), chainBytes_links] at hlength
  have hmarked := s.markLastBuf_chain
  obtain ⟨init, w, rfl⟩ := List.eq_nil_or_concat' ws |>.resolve_left hne
  have hw : links [w] = [⟨w, false⟩] := rfl
  rw [hchain, links_append, hw, markLast_append] at hmarked
  have hspells := h.chain
  rw [hmarked] at hspells
  cases hc : o.chain with
  | none =>
    exact absurd ((spells_none hc).mp hspells)
      (List.append_ne_nil_of_right_ne_nil _ (List.cons_ne_nil _ _))
  | some chain =>
    obtain ⟨is, i, hholds, hdata, -⟩ := (spells_some hc).mp hspells
    rw [List.map_append, List.map_singleton] at hdata
    obtain ⟨hinit, hlast⟩ := List.append_inj' hdata rfl
    have hlast' : (o.heap i).data = ⟨w, true⟩ := (List.cons.inj hlast).1
    refine ⟨chain, is, i, hc, hholds.visits, ?_, fun k hk => ?_, ?_, hlength⟩
    · have hbufs := congrArg (List.map ChainLink.buf) hdata
      simpa [links, Function.comp_def] using hbufs
    · have hmem : (o.heap k).data ∈ links init := hinit ▸ List.mem_map_of_mem hk
      obtain ⟨b, -, hb⟩ := List.mem_map.mp hmem
      rw [← hb]
    · rw [hlast']

/-- Whatever the scripts of the phases write, the chain holds it and is sent as it is, with the
placeholder where nothing has been written. -/
theorem output_chain (heap : Nat → Cell Nat ChainLink) (fresh : Nat) (before : List (List Bytes))
    (content : List Bytes) :
    let ws := (before ++ [content]).flatten
    ∃ o sent, (start heap fresh).scripts (before ++ [content]) = some o ∧ o.HoldsWrites ws ∧
      o.setOutput = some sent ∧ sent.SendsWrites (if ws = [] then [[32]] else ws) := by
  intro ws
  have hstart : (start heap fresh).Refines { exitStatus := 0 } := ⟨rfl, rfl, rfl⟩
  obtain ⟨o, s, hrun, href, htidy, hsent, hchain, hctx⟩ :=
    hstart.scripts (fun _ => ⟨rfl, nofun⟩) (before ++ [content])
  rw [show ((none : Option PhpCtx).isSome || !(before ++ [content]).isEmpty) = true by simp] at hctx
  obtain ⟨sent, hset, href'⟩ := href.setOutput hctx
  have hlinks : s.chain = links ws := hchain
  have hblank := s.blank_prints hctx
  refine ⟨o, sent, hrun, href.holdsWrites htidy hsent hlinks, hset,
    href'.sendsWrites (hblank.tidy htidy) (hblank.headerSent.trans hsent) ?_
      (blank_chain hctx hlinks)⟩
  split
  · exact List.cons_ne_nil _ _
  next hws => exact hws

end OutputState

end NgxPhp
