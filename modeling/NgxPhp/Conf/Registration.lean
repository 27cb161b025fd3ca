import NgxPhp.Conf.HandlerCode

/-!
# Registering the handlers of the module

The flags of the main record say for which phases the module registers a handler with nginx. A
registered handler looks into the record of the location and declines where this has no routine
for the phase. nginx calls the handlers of a phase in the opposite order to that in which they
were pushed, until one returns something at which the checker of the phase does not go on; the
content phase is left to `r->content_handler` where the location has one.
-/

namespace NgxPhp

/-- The phases that `ngx_http_php_handler_init` goes through. -/
inductive HttpPhase
  | postRead
  | rewrite
  | access
  | content
  | log
  deriving DecidableEq, Repr

/-- The handlers that the module registers. -/
inductive ModuleHandler
  | postRead
  | phase (p : ConfPhase)
  deriving DecidableEq, Repr

/-- `phases[]`. -/
def initPhases : List HttpPhase := [.postRead, .rewrite, .access, .content, .log]

/-- The handler of a phase, where it is enabled. -/
def MainConf.pushWhen (m : MainConf) (p : ConfPhase) : List ModuleHandler :=
  if m.enabled p then [.phase p] else []

/-- The handlers pushed in a case of the switch. -/
def MainConf.pushes (m : MainConf) : HttpPhase → List ModuleHandler
  | .postRead => [.postRead]
  | .rewrite => m.pushWhen .rewrite
  | .access => m.pushWhen .access
  | .content => m.pushWhen .content ++ (m.pushWhen .opcode ++ m.pushWhen .stack)
  | .log => m.pushWhen .log

/-- The handlers of a phase: those of other modules and of this one. -/
abbrev Registry (κ : Type) := HttpPhase → List (κ ⊕ ModuleHandler)

/-- `ngx_array_push` and the assignment behind it, for each of the handlers; the answers say
whether there is memory. -/
def pushAll {κ : Type} (ph : HttpPhase) : List ModuleHandler → Registry κ → List Bool →
    Option (Registry κ × List Bool)
  | [], reg, answers => some (reg, answers)
  | _ :: _, _, [] => none
  | h :: hs, reg, ok :: answers =>
    if ok then
      pushAll ph hs (fun q => if q = ph then reg q ++ [.inr h] else reg q) answers
    else none

/-- The loop of `ngx_http_php_handler_init`. -/
def initLoop {κ : Type} (m : MainConf) :
    List HttpPhase → Registry κ → List Bool → Option (Registry κ)
  | [], reg, _ => some reg
  | ph :: phs, reg, answers =>
    match pushAll ph (m.pushes ph) reg answers with
    | none => none
    | some (reg, answers) => initLoop m phs reg answers

/-- `ngx_http_php_handler_init`. -/
def handlerInit {κ : Type} (m : MainConf) (reg : Registry κ) (answers : List Bool) :
    Option (Registry κ) := initLoop m initPhases reg answers

/-- The modules whose filters are run, the first one on top. -/
structure Filters (κ : Type) where
  header : List (Option κ)
  body : List (Option κ)

/-- `ngx_http_php_init`: the handlers, and the filters of the module on top of the others. -/
def phpInit {κ : Type} (m : MainConf) (reg : Registry κ) (filters : Filters κ)
    (answers : List Bool) : Option (Registry κ × Filters κ) :=
  (handlerInit m reg answers).map fun reg =>
    (reg, {
      header := if m.enabled .headerFilter then none :: filters.header else filters.header
      body := if m.enabled .bodyFilter then none :: filters.body else filters.body })

/-- `ngx_http_php_rewrite_handler` and the handlers like it, and the two filters: the routine
that is called, or none where the handler declines. -/
def dispatch (l : LocConf) (p : ConfPhase) : Option HandlerForm := (l.phase p).handler

/-- What nginx and the handlers of a request answer. -/
structure PhaseAnswers (κ : Type) where
  /-- What the handlers of other modules return. -/
  other : κ → Int
  /-- What `ngx_http_php_post_read_handler` returns. -/
  postRead : Int
  /-- What the routines of the module return. -/
  routine : ConfPhase → HandlerForm → Int
  /-- The checker of the phase goes on to its next handler at this result. -/
  goesOn : HttpPhase → Int → Bool
  /-- Another module has set `r->content_handler`. -/
  contentHandler : Bool

/-- What a handler returns for a request of this location. -/
def PhaseAnswers.result {κ : Type} (a : PhaseAnswers κ) (l : LocConf) : κ ⊕ ModuleHandler → Int
  | .inl k => a.other k
  | .inr .postRead => a.postRead
  | .inr (.phase p) =>
    match dispatch l p with
    | none => Rc.declined.toInt
    | some form => a.routine p form

/-- Those that are called one after the other, up to the first behind which nothing goes on. -/
def calledUntil {α : Type} (goesOn : α → Bool) : List α → List α
  | [] => []
  | h :: hs => h :: if goesOn h then calledUntil goesOn hs else []

/-- The handlers that nginx calls in a phase of a request of this location: those of the log phase
all, as they were registered, and in the other phases the one registered last begins. -/
def Registry.called {κ : Type} (reg : Registry κ) (a : PhaseAnswers κ) (l : LocConf)
    (ph : HttpPhase) : List (κ ⊕ ModuleHandler) :=
  if ph = .content && a.contentHandler then []
  else if ph = .log then reg ph
  else calledUntil (fun h => a.goesOn ph (a.result l h)) (reg ph).reverse

/-- The routines of the module among the handlers that are called. -/
def routines {κ : Type} (hs : List (κ ⊕ ModuleHandler)) (l : LocConf) :
    List (ConfPhase × HandlerForm) :=
  hs.filterMap fun
    | .inl _ | .inr .postRead => none
    | .inr (.phase p) => (dispatch l p).map fun form => (p, form)

/-- The fields of a location record that a phase looks at, in the order of the phase. -/
def HttpPhase.fields : HttpPhase → List ConfPhase
  | .postRead => []
  | .rewrite => [.rewrite]
  | .access => [.access]
  | .content => [.stack, .opcode, .content]
  | .log => [.log]

/-! ## What is registered -/

/-- With memory for all of them the handlers are pushed behind those of their phase. -/
theorem pushAll_eq {κ : Type} {ph : HttpPhase} {hs : List ModuleHandler} {reg reg' : Registry κ}
    {answers rest : List Bool} (h : pushAll ph hs reg answers = some (reg', rest)) :
    reg' = fun q => if q = ph then reg q ++ hs.map Sum.inr else reg q := by
  induction hs generalizing reg answers with
  | nil =>
    obtain ⟨rfl, -⟩ := Prod.mk.inj (Option.some.inj h)
    funext q
    simp
  | cons g hs ih =>
    cases answers with
    | nil => cases h
    | cons ok answers =>
      rw [pushAll] at h
      split at h
      · rw [ih h]
        funext q
        by_cases hq : q = ph
        · simp [hq]
        · simp [hq]
      · cases h

/-- The phases of the loop have the handlers of the module behind those that were there. -/
theorem initLoop_eq {κ : Type} {m : MainConf} {phs : List HttpPhase} {reg reg' : Registry κ}
    {answers : List Bool} (hnodup : phs.Nodup) (h : initLoop m phs reg answers = some reg')
    (ph : HttpPhase) :
    reg' ph = if ph ∈ phs then reg ph ++ (m.pushes ph).map Sum.inr else reg ph := by
  induction phs generalizing reg answers with
  | nil =>
    obtain rfl := Option.some.inj h
    exact (if_neg List.not_mem_nil).symm
  | cons q phs ih =>
    obtain ⟨hq, hnodup⟩ := List.nodup_cons.mp hnodup
    rw [initLoop] at h
    split at h
    · cases h
    next reg₁ answers₁ hpush =>
      rw [ih hnodup h, pushAll_eq hpush]
      by_cases hph : ph = q
      · subst hph
        simp [hq]
      · simp [hph]

/-- Every phase has the handlers of the module behind those that were there. -/
theorem handlerInit_eq {κ : Type} {m : MainConf} {reg reg' : Registry κ} {answers : List Bool}
    (h : handlerInit m reg answers = some reg') (ph : HttpPhase) :
    reg' ph = reg ph ++ (m.pushes ph).map Sum.inr := by
  have hmem : ph ∈ initPhases := by cases ph <;> decide
  rw [initLoop_eq (by decide) h, if_pos hmem]

/-- The routines of two lists follow each other. -/
theorem routines_append {κ : Type} (hs gs : List (κ ⊕ ModuleHandler)) (l : LocConf) :
    routines (hs ++ gs) l = routines hs l ++ routines gs l := List.filterMap_append

/-- Handlers of other modules are none of this one. -/
theorem routines_inl {κ : Type} (ks : List κ) (l : LocConf) :
    routines (ks.map Sum.inl : List (κ ⊕ ModuleHandler)).reverse l = [] := by
  rw [← List.map_reverse, routines, List.filterMap_map, List.filterMap_eq_nil_iff]
  exact fun _ _ => rfl

/-! ## Which phases are enabled -/

/-- Every phase with a handler in the record is enabled. -/
def Tracks (m : MainConf) (l : LocConf) : Prop :=
  ∀ p, (l.phase p).handler ≠ none → m.enabled p = true

/-- What one accepted directive does to the flags. -/
inductive Directive.Enables (d : Directive) (l : LocConf) (m m' : MainConf) : Prop
  | none (h : d.command.phaseForm = none) (hm : m' = m)
  | ignored (p : ConfPhase) (form : Form) (h : d.command.phaseForm = some (p, form))
      (hp : (l.phase p).handler ≠ none) (hm : m' = m)
  | enabled (p : ConfPhase) (form : Form) (h : d.command.phaseForm = some (p, form))
      (hm : m' = m.enable p)

/-- Only the flag of its own phase is set. -/
theorem MainConf.enable_iff (m : MainConf) (p q : ConfPhase) :
    (m.enable p).enabled q = true ↔ q = p ∨ m.enabled q = true := by
  simp [enable]

/-- A handler that is set enables its phase, and a duplicated one enables nothing. -/
theorem setHandler_enables {p : ConfPhase} {form : HandlerForm} {code : Option PhpCode}
    {store : PhaseConf → PhpCode → PhaseConf} {m m' : MainConf} {l l' : LocConf} {rv : ConfRv}
    (h : setHandler p form code store m l = (rv, m', l')) :
    (rv = .ok → m' = m.enable p) ∧
      (rv = .duplicated → (l.phase p).handler ≠ none ∧ m' = m) := by
  unfold setHandler at h
  split at h
  next hsome =>
    obtain ⟨rfl, hml⟩ := Prod.mk.inj h
    exact ⟨nofun, fun _ => ⟨hsome, (Prod.mk.inj hml).1.symm⟩⟩
  · cases code with
    | none =>
      obtain ⟨rfl, -⟩ := Prod.mk.inj h
      exact ⟨nofun, nofun⟩
    | some c =>
      obtain ⟨rfl, hml⟩ := Prod.mk.inj h
      exact ⟨fun _ => (Prod.mk.inj hml).1.symm, nofun⟩

/-- A parsed directive enables its phase, or finds a handler already. -/
theorem confParse_enables {done : Bool} {p : ConfPhase} {form : HandlerForm}
    {code : DirectiveInput → Option PhpCode} {store : PhaseConf → PhpCode → PhaseConf}
    {m m' : MainConf} {l l' : LocConf} {inp : DirectiveInput}
    (h : confParse done (fun inp => setHandler p form (code inp) store) inp m l =
      (.ok, m', l')) :
    m' = m.enable p ∨ (l.phase p).handler ≠ none ∧ m' = m := by
  unfold confParse at h
  dsimp only at h
  rcases hs : setHandler p form (code inp) store m l with ⟨rv, m₁, l₁⟩
  obtain ⟨hok, hdup⟩ := setHandler_enables hs
  rw [hs] at h
  cases rv with
  | error => exact nomatch (Prod.mk.inj h).1
  | ok =>
    cases done with
    | false => exact nomatch (Prod.mk.inj h).1
    | true =>
      have hm : m₁ = m' := (Prod.mk.inj (Prod.mk.inj h).2).1
      exact Or.inl (hm ▸ hok rfl)
  | duplicated =>
    cases done with
    | false => exact nomatch (Prod.mk.inj h).1
    | true =>
      have hm : m₁ = m' := (Prod.mk.inj (Prod.mk.inj h).2).1
      exact Or.inr (hm ▸ hdup rfl)

/-- An accepted directive enables the phase that it is for. -/
theorem Directive.set_enables {d : Directive} {m m' : MainConf} {l l' : LocConf}
    (h : d.set m l = (.ok, m', l')) : d.Enables l m m' := by
  have hset : ∀ (p : ConfPhase) (form : Form), d.command.phaseForm = some (p, form) →
      m' = m.enable p ∨ (l.phase p).handler ≠ none ∧ m' = m → d.Enables l m m' := by
    intro p form hform hor
    rcases hor with hm | ⟨hp, hm⟩
    · exact .enabled p form hform hm
    · exact .ignored p form hform hp hm
  obtain ⟨command, inp, done⟩ := d
  cases command with
  | rewriteByPhpFile => exact hset .rewrite .file rfl (Or.inl ((setHandler_enables h).1 rfl))
  | rewriteByPhp | phpRewrite =>
    exact hset .rewrite .inline rfl (Or.inl ((setHandler_enables h).1 rfl))
  | rewriteByPhpBlock => exact hset .rewrite .block rfl (confParse_enables h)
  | accessByPhpFile => exact hset .access .file rfl (Or.inl ((setHandler_enables h).1 rfl))
  | accessByPhp | phpAccess =>
    exact hset .access .inline rfl (Or.inl ((setHandler_enables h).1 rfl))
  | accessByPhpBlock => exact hset .access .block rfl (confParse_enables h)
  | contentByPhpFile => exact hset .content .file rfl (Or.inl ((setHandler_enables h).1 rfl))
  | contentByPhp | phpContent =>
    exact hset .content .inline rfl (Or.inl ((setHandler_enables h).1 rfl))
  | contentByPhpBlock => exact hset .content .block rfl (confParse_enables h)
  | opcodeByPhp => exact hset .opcode .inline rfl (Or.inl ((setHandler_enables h).1 rfl))
  | stackByPhp => exact hset .stack .inline rfl (Or.inl ((setHandler_enables h).1 rfl))
  | logByPhp | phpLog => exact hset .log .inline rfl (Or.inl ((setHandler_enables h).1 rfl))
  | logByPhpBlock => exact hset .log .block rfl (confParse_enables h)
  | headerFilterByPhp | phpHeaderFilter =>
    exact hset .headerFilter .inline rfl (Or.inl ((setHandler_enables h).1 rfl))
  | headerFilterByPhpBlock => exact hset .headerFilter .block rfl (confParse_enables h)
  | bodyFilterByPhp | phpBodyFilter =>
    exact hset .bodyFilter .inline rfl (Or.inl ((setHandler_enables h).1 rfl))
  | bodyFilterByPhpBlock => exact hset .bodyFilter .block rfl (confParse_enables h)
  | phpSocketBufferSize size =>
    refine .none rfl ?_
    change setBufferSize size m l = _ at h
    unfold setBufferSize at h
    split at h
    · exact nomatch (Prod.mk.inj h).1
    · exact (Prod.mk.inj (Prod.mk.inj h).2).1.symm

/-- The directive is for the phase. -/
def Directive.isFor (d : Directive) (p : ConfPhase) : Prop :=
  ∃ form, d.command.phaseForm = some (p, form)

/-- A directive of a level keeps track of the phases with a handler. -/
theorem Directive.apply_enables {k : LevelKind} {d : Directive} {m m' : MainConf}
    {l l' : LocConf} (h : d.apply k m l = some (m', l')) (ht : Tracks m l) :
    Tracks m' l' ∧ ∀ p, m'.enabled p = true ↔ m.enabled p = true ∨ d.isFor p := by
  obtain ⟨heffect, -⟩ := Directive.apply_effect h
  have henables : d.Enables l m m' := by
    unfold apply at h
    split at h
    · rcases hs : d.set m l with ⟨rv, m₁, l₁⟩
      rw [hs] at h
      cases rv with
      | ok =>
        obtain ⟨rfl, rfl⟩ := Prod.mk.inj (Option.some.inj h)
        exact set_enables hs
      | error | duplicated => exact nomatch h
    · exact nomatch h
  have hiff : ∀ p, m'.enabled p = true ↔ m.enabled p = true ∨ d.isFor p := by
    intro p
    cases henables with
    | none hform hm =>
      rw [hm]
      exact ⟨Or.inl, fun hp => hp.resolve_right fun ⟨form, hfor⟩ => nomatch hform.symm.trans hfor⟩
    | ignored q form hform hq hm =>
      rw [hm]
      refine ⟨Or.inl, fun hp => hp.elim id fun ⟨form', hfor⟩ => ?_⟩
      obtain ⟨rfl, -⟩ := Prod.mk.inj (Option.some.inj (hform.symm.trans hfor))
      exact ht q hq
    | enabled q form hform hm =>
      rw [hm, MainConf.enable_iff]
      constructor
      · rintro (rfl | hp)
        · exact Or.inr ⟨form, hform⟩
        · exact Or.inl hp
      · rintro (hp | ⟨form', hfor⟩)
        · exact Or.inr hp
        · obtain ⟨rfl, -⟩ := Prod.mk.inj (Option.some.inj (hform.symm.trans hfor))
          exact Or.inl rfl
  refine ⟨fun p hp => (hiff p).mpr ?_, hiff⟩
  cases heffect with
  | none _ hl => exact Or.inl (ht p (hl ▸ hp))
  | ignored _ _ _ _ hl => exact Or.inl (ht p (hl ▸ hp))
  | settled q form hform _ c _ hl =>
    by_cases hpq : p = q
    · subst hpq
      exact Or.inr ⟨form, hform⟩
    · rw [hl, LocConf.setPhase_ne l hpq] at hp
      exact Or.inl (ht p hp)

/-- There is a first directive for the phase if there is one. -/
theorem firstFor_ne_none_iff (p : ConfPhase) (ds : List Directive) :
    firstFor p ds ≠ none ↔ ∃ d ∈ ds, d.isFor p := by
  induction ds with
  | nil =>
    refine iff_of_false (fun h => h rfl) ?_
    rintro ⟨d, hd, -⟩
    exact List.not_mem_nil hd
  | cons d ds ih =>
    rw [firstFor]
    simp only [List.mem_cons, exists_eq_or_imp]
    rw [← ih]
    cases hform : d.command.phaseForm with
    | none =>
      refine ⟨Or.inr, fun h => h.resolve_left ?_⟩
      rintro ⟨form, hfor⟩
      exact Option.some_ne_none _ (hfor.symm.trans hform)
    | some qf =>
      obtain ⟨q, form⟩ := qf
      dsimp only
      by_cases hq : q = p
      · rw [if_pos hq]
        exact iff_of_true (Option.some_ne_none _) (Or.inl ⟨form, hq ▸ hform⟩)
      · rw [if_neg hq]
        refine ⟨Or.inr, fun h => h.resolve_left ?_⟩
        rintro ⟨form', hfor⟩
        exact hq (Prod.mk.inj (Option.some.inj (hform.symm.trans hfor))).1

/-- The directives of a level enable the phases that they are for. -/
theorem applyAll_enables {k : LevelKind} {ds : List Directive} {m m' : MainConf}
    {l l' : LocConf} (h : applyAll k ds m l = some (m', l')) (ht : Tracks m l) (p : ConfPhase) :
    m'.enabled p = true ↔ m.enabled p = true ∨ firstFor p ds ≠ none := by
  rw [firstFor_ne_none_iff]
  induction ds generalizing m l with
  | nil =>
    obtain ⟨rfl, -⟩ := Prod.mk.inj (Option.some.inj h)
    exact ⟨Or.inl, fun hp => hp.resolve_right fun ⟨_, hd, _⟩ => nomatch hd⟩
  | cons d ds ih =>
    obtain ⟨m₁, l₁, hd, hds⟩ := applyAll_cons h
    obtain ⟨ht₁, hiff⟩ := Directive.apply_enables hd ht
    rw [ih hds ht₁, hiff p, or_assoc]
    simp only [List.mem_cons, exists_eq_or_imp]

/-! ## Whole configurations -/

/-- All the levels beside and inside each other. -/
def Levels.all {α : Type} : Levels α → List α
  | .nil => []
  | .cons level inner rest => level :: (inner.all ++ rest.all)

/-- The texts of all the levels of a configuration. -/
def Configuration.texts (c : Configuration) : List LevelText := c.main :: c.servers.all

/-- Some level has a directive for the phase. -/
def Configuration.Uses (c : Configuration) (p : ConfPhase) : Prop :=
  ∃ t ∈ c.texts, firstFor p t.directives ≠ none

/-- A new location record has no handlers. -/
theorem tracks_createLocConf (m : MainConf) : Tracks m createLocConf := fun _ hp => absurd rfl hp

/-- A level that is read enables the phases of its directives. -/
theorem readLevel_enables {k : LevelKind} {m m' : MainConf} {t : LevelText} {level : Level}
    (h : readLevel k m t = some (m', level)) (p : ConfPhase) :
    m'.enabled p = true ↔ m.enabled p = true ∨ firstFor p t.directives ≠ none := by
  obtain ⟨⟨m₁, l⟩, happly, heq⟩ := Option.map_eq_some_iff.mp h
  obtain ⟨rfl, -⟩ := Prod.mk.inj heq
  exact applyAll_enables happly (tracks_createLocConf m) p

/-- Reading levels enables the phases that they have directives for, and keeps their texts. -/
theorem readLevels_enables {k : LevelKind} {m m' : MainConf} {t : Levels LevelText}
    {ls : Levels Level} (h : readLevels k m t = some (m', ls)) (p : ConfPhase) :
    m'.enabled p = true ↔ m.enabled p = true ∨ ∃ x ∈ t.all, firstFor p x.directives ≠ none := by
  induction t generalizing k m m' ls with
  | nil =>
    obtain ⟨rfl, -⟩ := Prod.mk.inj (Option.some.inj h)
    exact ⟨Or.inl, fun hp => hp.resolve_right fun ⟨_, hx, _⟩ => nomatch hx⟩
  | cons t inner rest ihinner ihrest =>
    obtain ⟨⟨m₁, level⟩, hlevel, h⟩ := Option.bind_eq_some_iff.mp h
    obtain ⟨⟨m₂, inner'⟩, hinner, h⟩ := Option.bind_eq_some_iff.mp h
    obtain ⟨⟨m₃, rest'⟩, hrest, h⟩ := Option.bind_eq_some_iff.mp h
    obtain ⟨rfl, -⟩ := Prod.mk.inj (Option.some.inj h)
    rw [ihrest hrest, ihinner hinner, readLevel_enables hlevel, Levels.all]
    simp only [List.mem_cons, List.mem_append, or_and_right, exists_or, or_assoc, exists_eq_left]

/-- The levels that are read have the texts that they were read from. -/
theorem readLevels_texts {k : LevelKind} {m m' : MainConf} {t : Levels LevelText}
    {ls : Levels Level} (h : readLevels k m t = some (m', ls)) :
    ls.all.map Level.text = t.all := by
  induction t generalizing k m m' ls with
  | nil =>
    obtain ⟨-, rfl⟩ := Prod.mk.inj (Option.some.inj h)
    rfl
  | cons t inner rest ihinner ihrest =>
    obtain ⟨⟨m₁, level⟩, hlevel, h⟩ := Option.bind_eq_some_iff.mp h
    obtain ⟨⟨m₂, inner'⟩, hinner, h⟩ := Option.bind_eq_some_iff.mp h
    obtain ⟨⟨m₃, rest'⟩, hrest, h⟩ := Option.bind_eq_some_iff.mp h
    obtain ⟨-, rfl⟩ := Prod.mk.inj (Option.some.inj h)
    obtain ⟨ml, -, heq⟩ := Option.map_eq_some_iff.mp hlevel
    obtain ⟨-, rfl⟩ := Prod.mk.inj heq
    rw [Levels.all, Levels.all, List.map_cons, List.map_append, ihinner hinner, ihrest hrest]

/-- The merge of locations leaves the texts alone. -/
theorem mergeLocations_texts (pagesize : Nat) (prev : LocConf) (t : Levels Level) :
    (mergeLocations pagesize prev t).2.all.map Level.text = t.all.map Level.text := by
  induction t generalizing prev with
  | nil => rfl
  | cons level inner rest ihinner ihrest =>
    rw [mergeLocations_cons, Levels.all, Levels.all, List.map_cons, List.map_cons,
      List.map_append, List.map_append, ihinner, ihrest]

/-- The levels around a level are among those around them and the levels there are. -/
theorem Levels.At.mem_all {α : Type} {above path : List α} {t ls : Levels α}
    (h : Levels.At above t path ls) : ∀ x ∈ path, x ∈ above ∨ x ∈ t.all := by
  induction h with
  | here above level inner rest =>
    intro x hx
    rcases List.mem_cons.mp hx with rfl | hx
    · exact Or.inr List.mem_cons_self
    · exact Or.inl hx
  | inner _ ih =>
    intro x hx
    rcases ih x hx with hx | hx
    · rcases List.mem_cons.mp hx with rfl | hx
      · exact Or.inr List.mem_cons_self
      · exact Or.inl hx
    · exact Or.inr (List.mem_cons_of_mem _ (List.mem_append_left _ hx))
  | rest _ ih =>
    intro x hx
    exact (ih x hx).imp id fun hx => List.mem_cons_of_mem _ (List.mem_append_right _ hx)

/-- A configuration that is loaded has the texts that it was loaded from. -/
theorem Configuration.load_texts {c : Configuration} {m : MainConf} {t : Levels Level}
    (h : c.load = some (m, t)) : t.all.map Level.text = c.texts := by
  obtain ⟨⟨m₁, main⟩, hmain, h⟩ := Option.bind_eq_some_iff.mp h
  obtain ⟨⟨m₂, servers⟩, hservers, h⟩ := Option.bind_eq_some_iff.mp h
  obtain ⟨-, rfl⟩ := Prod.mk.inj (Option.some.inj h)
  obtain ⟨ml, -, heq⟩ := Option.map_eq_some_iff.mp hmain
  obtain ⟨-, rfl⟩ := Prod.mk.inj heq
  rw [Levels.all, Levels.all, List.append_nil, List.map_cons, mergeLocations_texts,
    readLevels_texts hservers]
  rfl

/-- A phase is enabled just when some level of the configuration has a directive for it. -/
theorem load_enabled_iff {c : Configuration} {m : MainConf} {t : Levels Level}
    (h : c.load = some (m, t)) (p : ConfPhase) : m.enabled p = true ↔ c.Uses p := by
  obtain ⟨⟨m₁, main⟩, hmain, h⟩ := Option.bind_eq_some_iff.mp h
  obtain ⟨⟨m₂, servers⟩, hservers, h⟩ := Option.bind_eq_some_iff.mp h
  obtain ⟨rfl, -⟩ := Prod.mk.inj (Option.some.inj h)
  rw [readLevels_enables hservers, readLevel_enables hmain, Configuration.Uses,
    Configuration.texts]
  simp only [List.mem_cons, exists_eq_or_imp, Bool.false_eq_true, false_or]

/-- A location with a body filter, in a server without directives: no other phase is enabled. -/
theorem load_enabled_filter :
    let c : Configuration := ⟨⟨[], []⟩, .cons ⟨[], []⟩
      (.cons ⟨[], [⟨.phpBodyFilter, ⟨[49], true, 5, []⟩, true⟩]⟩ .nil .nil) .nil, 4096⟩
    ∃ m t, c.load = some (m, t) ∧ m.enabled .bodyFilter = true ∧ ¬ m.enabled .content = true := by
  intro c
  have hload : c.load = some (_, _) := rfl
  refine ⟨_, _, hload, (load_enabled_iff hload .bodyFilter).mpr ?_, fun hcontent => ?_⟩
  · exact ⟨⟨[], [⟨.phpBodyFilter, ⟨[49], true, 5, []⟩, true⟩]⟩, by
      simp [c, Configuration.texts, Levels.all], Option.some_ne_none _⟩
  · obtain ⟨t, ht, hfirst⟩ := (load_enabled_iff hload .content).mp hcontent
    rcases List.mem_cons.mp ht with rfl | ht
    · exact hfirst rfl
    · rcases List.mem_cons.mp ht with rfl | ht
      · exact hfirst rfl
      · obtain rfl := List.mem_singleton.mp ht
        exact hfirst rfl

/-- A handler is handed down from a level that has a directive for the phase. -/
theorem effectivePhase_handler {p : ConfPhase} {chain : List (List Directive)}
    (h : (effectivePhase p chain).handler ≠ none) : ∃ ds ∈ chain, firstFor p ds ≠ none := by
  induction chain with
  | nil => exact absurd rfl h
  | cons ds above ih =>
    by_cases hfirst : firstFor p ds = none
    · have hown := ownPhase_of_none hfirst
      cases above with
      | nil =>
        rw [effectivePhase, hown] at h
        exact absurd rfl h
      | cons ds' above =>
        rw [effectivePhase, hown] at h
        obtain ⟨ds₁, hmem, hds₁⟩ := ih h
        exact ⟨ds₁, List.mem_cons_of_mem _ hmem, hds₁⟩
    · exact ⟨ds, List.mem_cons_self, hfirst⟩

/-- A handler of opcode or stack comes from a directive. -/
theorem opcodePhase_handler {p : ConfPhase} {ds : List Directive} {inner : Option (List Directive)}
    (h : (opcodePhase p ds inner).handler ≠ none) : firstFor p ds ≠ none := by
  intro hfirst
  have hown := ownPhase_of_none hfirst
  cases inner with
  | none =>
    rw [opcodePhase, hown] at h
    exact h rfl
  | some ds' =>
    rw [opcodePhase, hown] at h
    exact h rfl

/-- Every handler of a record belongs to an enabled phase. -/
theorem load_tracks {c : Configuration} {m : MainConf} {t : Levels Level}
    (h : c.load = some (m, t)) {level : Level} {outer : List Level} {ls : Levels Level}
    (hat : Levels.At [] t (level :: outer) ls) : Tracks m level.conf := by
  intro p hp
  rw [load_enabled_iff h]
  have htext : ∀ x ∈ level :: outer, x.text ∈ c.texts := by
    intro x hx
    rw [← c.load_texts h]
    exact List.mem_map_of_mem ((hat.mem_all x hx).resolve_left List.not_mem_nil)
  by_cases hopcode : p.isOpcode
  · rw [(c.load_opcode h hopcode hat).1] at hp
    exact ⟨level.text, htext level List.mem_cons_self, opcodePhase_handler hp⟩
  · rw [c.load_phase h hopcode hat] at hp
    obtain ⟨ds, hds, hfirst⟩ := effectivePhase_handler hp
    obtain ⟨x, hx, rfl⟩ := List.mem_map.mp hds
    exact ⟨x.text, htext x hx, hfirst⟩

/-! ## What a request meets -/

/-- The routines that the record of a location has for a phase. -/
def LocConf.routines (l : LocConf) (ph : HttpPhase) : List (ConfPhase × HandlerForm) :=
  ph.fields.filterMap fun p => (dispatch l p).map fun form => (p, form)

/-- The handler of a phase finds the routine of the record, if it is registered at all. -/
theorem routines_pushWhen {κ : Type} {m : MainConf} {l : LocConf} (h : Tracks m l)
    (p : ConfPhase) :
    NgxPhp.routines ((m.pushWhen p).map Sum.inr : List (κ ⊕ ModuleHandler)).reverse l =
      ((dispatch l p).map fun form => (p, form)).toList := by
  unfold MainConf.pushWhen
  cases hp : m.enabled p with
  | true => cases hd : dispatch l p <;> simp [NgxPhp.routines, hd]
  | false =>
    have hnone : dispatch l p = none := by
      by_contra hne
      rw [h p hne] at hp
      cases hp
    simp [NgxPhp.routines, hnone]

/-- Of the handlers pushed for a phase, those run that the record of the location has. -/
theorem routines_pushes {κ : Type} {m : MainConf} {l : LocConf} (h : Tracks m l)
    (ph : HttpPhase) :
    NgxPhp.routines ((m.pushes ph).map Sum.inr : List (κ ⊕ ModuleHandler)).reverse l =
      l.routines ph := by
  have hone : ∀ p, [p].filterMap (fun p => (dispatch l p).map fun form => (p, form)) =
      ((dispatch l p).map fun form => (p, form)).toList := by
    intro p
    cases hd : dispatch l p <;> simp [hd]
  cases ph with
  | postRead => rfl
  | rewrite => exact (routines_pushWhen h .rewrite).trans (hone .rewrite).symm
  | access => exact (routines_pushWhen h .access).trans (hone .access).symm
  | log => exact (routines_pushWhen h .log).trans (hone .log).symm
  | content =>
    rw [MainConf.pushes, List.map_append, List.map_append, List.reverse_append,
      List.reverse_append, routines_append, routines_append, routines_pushWhen h,
      routines_pushWhen h, routines_pushWhen h, ← hone, ← hone, ← hone, List.append_assoc,
      ← List.filterMap_append, ← List.filterMap_append]
    rfl

/-! ## What is called -/

/-- What is called of two lists goes on behind the first if all of it goes on. -/
theorem calledUntil_append {α : Type} (goesOn : α → Bool) (xs ys : List α) :
    calledUntil goesOn (xs ++ ys) =
      if xs.all goesOn then xs ++ calledUntil goesOn ys else calledUntil goesOn xs := by
  induction xs with
  | nil => rfl
  | cons x xs ih =>
    rw [List.cons_append, calledUntil, ih, List.all_cons]
    cases hx : goesOn x with
    | false => simp [calledUntil, hx]
    | true =>
      cases hxs : xs.all goesOn with
      | false => simp [calledUntil, hx]
      | true => simp

/-- All are called where all go on. -/
theorem calledUntil_eq_self {α : Type} {goesOn : α → Bool} {xs : List α}
    (h : xs.all goesOn = true) : calledUntil goesOn xs = xs := by
  have happend := calledUntil_append goesOn xs []
  rwa [if_pos h, List.append_nil, calledUntil, List.append_nil] at happend

/-- Calling and choosing can be exchanged where those that are not chosen let the others go on. -/
theorem filterMap_calledUntil {α β : Type} {f : α → Option β} {goesOn : α → Bool}
    {goesOn' : β → Bool} {xs : List α} (hnone : ∀ x ∈ xs, f x = none → goesOn x = true)
    (hsome : ∀ x ∈ xs, ∀ y, f x = some y → goesOn x = goesOn' y) :
    (calledUntil goesOn xs).filterMap f = calledUntil goesOn' (xs.filterMap f) := by
  induction xs with
  | nil => rfl
  | cons x xs ih =>
    have hrest := ih (fun x hx => hnone x (List.mem_cons_of_mem _ hx))
      fun x hx => hsome x (List.mem_cons_of_mem _ hx)
    cases hx : f x with
    | none =>
      rw [calledUntil, if_pos (hnone x List.mem_cons_self hx), List.filterMap_cons_none hx,
        List.filterMap_cons_none hx, hrest]
    | some y =>
      rw [calledUntil, List.filterMap_cons_some hx, List.filterMap_cons_some hx, calledUntil,
        ← hsome x List.mem_cons_self y hx]
      cases goesOn x with
      | true => exact congrArg _ hrest
      | false => rfl

/-- Handlers of other modules that are called last call no routine. -/
theorem routines_calledUntil_append_inl {κ : Type} (goesOn : κ ⊕ ModuleHandler → Bool)
    (hs : List (κ ⊕ ModuleHandler)) (ks : List κ) (l : LocConf) :
    routines (calledUntil goesOn (hs ++ ks.map Sum.inl)) l =
      routines (calledUntil goesOn hs) l := by
  have hinl : ∀ ks : List κ, routines (calledUntil goesOn (ks.map Sum.inl)) l = [] := by
    intro ks
    induction ks with
    | nil => rfl
    | cons k ks ih =>
      rw [List.map_cons, calledUntil]
      cases goesOn (.inl k) with
      | true => exact ih
      | false => rfl
  rw [calledUntil_append]
  split
  next hall => rw [routines_append, hinl, List.append_nil, calledUntil_eq_self hall]
  next => rfl

/-- Among the handlers of the module a routine is called as long as those before it let nginx go
on. -/
theorem routines_calledUntil_pushes {κ : Type} {m : MainConf} {l : LocConf} (h : Tracks m l)
    (a : PhaseAnswers κ) {ph : HttpPhase}
    (hdeclined : a.goesOn ph Rc.declined.toInt = true) :
    routines (calledUntil (fun h => a.goesOn ph (a.result l h))
        ((m.pushes ph).map Sum.inr : List (κ ⊕ ModuleHandler)).reverse) l =
      calledUntil (fun r => a.goesOn ph (a.routine r.1 r.2)) (l.routines ph) := by
  by_cases hph : ph = .postRead
  · subst hph
    change routines (_ :: ite _ [] []) l = []
    rw [ite_self]
    rfl
  rw [← @routines_pushes κ m l h ph]
  have hphase : ∀ x ∈ ((m.pushes ph).map Sum.inr : List (κ ⊕ ModuleHandler)).reverse,
      ∃ p, x = .inr (.phase p) := by
    intro x hx
    obtain ⟨g, hg, rfl⟩ := List.mem_map.mp (List.mem_reverse.mp hx)
    have hpush : ∀ p, g ∈ m.pushWhen p → g = .phase p := by
      intro p hp
      unfold MainConf.pushWhen at hp
      split at hp
      · exact List.mem_singleton.mp hp
      · exact absurd hp List.not_mem_nil
    cases ph with
    | postRead => exact absurd rfl hph
    | content =>
      rcases List.mem_append.mp hg with hg | hg
      · exact ⟨_, congrArg _ (hpush _ hg)⟩
      · exact (List.mem_append.mp hg).elim (fun hg => ⟨_, congrArg _ (hpush _ hg)⟩)
          fun hg => ⟨_, congrArg _ (hpush _ hg)⟩
    | _ => exact ⟨_, congrArg _ (hpush _ hg)⟩
  refine filterMap_calledUntil (fun x hx hnone => ?_) fun x hx y hy => ?_
  · obtain ⟨p, rfl⟩ := hphase x hx
    have hd : dispatch l p = none := Option.map_eq_none_iff.mp hnone
    simp only [PhaseAnswers.result, hd, hdeclined]
  · obtain ⟨p, rfl⟩ := hphase x hx
    obtain ⟨form, hd, rfl⟩ := Option.map_eq_some_iff.mp hy
    simp only [PhaseAnswers.result, hd]

/-- In the log phase all handlers are called, and of this module the routine of the record. -/
theorem routines_log {κ : Type} {m : MainConf} {l : LocConf} (h : Tracks m l)
    (before behind : List κ) (goesOn : ConfPhase × HandlerForm → Bool) :
    routines (before.map Sum.inl ++ (m.pushes .log).map Sum.inr ++ behind.map Sum.inl) l =
      calledUntil goesOn (l.routines .log) := by
  have hinl : ∀ ks : List κ, routines (ks.map Sum.inl : List (κ ⊕ ModuleHandler)) l = [] := by
    intro ks
    have hnil := routines_inl ks.reverse l
    rwa [List.map_reverse, List.reverse_reverse] at hnil
  have hreverse : ((m.pushes .log).map Sum.inr : List (κ ⊕ ModuleHandler)).reverse =
      (m.pushes .log).map Sum.inr := by
    change ((m.pushWhen .log).map Sum.inr).reverse = _
    unfold MainConf.pushes MainConf.pushWhen
    cases m.enabled .log <;> rfl
  rw [routines_append, routines_append, hinl, hinl, List.nil_append, List.append_nil, ← hreverse,
    routines_pushes h]
  -- there is one routine at most
  cases hd : dispatch l .log <;> simp [LocConf.routines, HttpPhase.fields, hd, calledUntil]

/-- In every phase nginx calls, of this module, the routines that the record of the location has,
the content phase beginning with the one that was registered last, up to the first behind which the
checker does not go on; none if the location has a content handler of its own or, outside the log
phase, a handler of another module that was registered behind them ends the phase. And each filter
of the record is in its chain. -/
theorem location_routines {κ : Type} {c : Configuration} {m : MainConf} {t : Levels Level}
    (h : c.load = some (m, t)) {before : HttpPhase → List κ} {filters : Filters κ}
    {answers : List Bool} {reg : Registry κ} {filters' : Filters κ}
    (hinit : phpInit m (fun ph => (before ph).map Sum.inl) filters answers =
      some (reg, filters')) {level : Level} {outer : List Level} {ls : Levels Level}
    (hat : Levels.At [] t (level :: outer) ls) (a : PhaseAnswers κ)
    (hdeclined : ∀ ph, a.goesOn ph Rc.declined.toInt = true) :
    (∀ (ph : HttpPhase) (behind : List κ),
      routines (Registry.called (fun q => reg q ++ behind.map Sum.inl) a level.conf ph)
          level.conf =
        if (ph = .content && a.contentHandler) ||
            (ph ≠ .log && !behind.all fun k => a.goesOn ph (a.other k)) then []
        else
          calledUntil (fun r => a.goesOn ph (a.routine r.1 r.2)) (level.conf.routines ph)) ∧
    (dispatch level.conf .headerFilter ≠ none → filters'.header = none :: filters.header) ∧
    (dispatch level.conf .bodyFilter ≠ none → filters'.body = none :: filters.body) := by
  have htracks := load_tracks h hat
  obtain ⟨reg', hreg, heq⟩ := Option.map_eq_some_iff.mp hinit
  obtain ⟨rfl, rfl⟩ := Prod.mk.inj heq
  refine ⟨fun ph behind => ?_, fun hp => if_pos (htracks _ hp), fun hp => if_pos (htracks _ hp)⟩
  unfold Registry.called
  by_cases hcontent : (ph = .content && a.contentHandler) = true
  · rw [if_pos hcontent, if_pos (by rw [hcontent, Bool.true_or])]
    rfl
  rw [if_neg hcontent, Bool.eq_false_iff.mpr hcontent, Bool.false_or]
  by_cases hlog : ph = .log
  · subst hlog
    rw [if_pos rfl, if_neg (by simp)]
    change routines (reg' .log ++ _) level.conf = _
    rw [handlerInit_eq hreg]
    exact routines_log htracks (before .log) behind _
  rw [if_neg hlog, decide_eq_true hlog, Bool.true_and]
  have hlist : (reg' ph ++ behind.map Sum.inl).reverse =
      behind.reverse.map Sum.inl ++ (((m.pushes ph).map Sum.inr).reverse ++
        (before ph).reverse.map Sum.inl) := by
    rw [handlerInit_eq hreg, List.reverse_append, List.reverse_append, List.map_reverse,
      List.map_reverse]
  have hall : (behind.reverse.map Sum.inl : List (κ ⊕ ModuleHandler)).all
      (fun h => a.goesOn ph (a.result level.conf h)) =
        behind.all fun k => a.goesOn ph (a.other k) := by
    rw [List.all_map, List.all_reverse]
    rfl
  rw [hlist, calledUntil_append, hall]
  cases behind.all fun k => a.goesOn ph (a.other k) with
  | false =>
    have hnil := routines_calledUntil_append_inl
      (fun h => a.goesOn ph (a.result level.conf h)) [] behind.reverse level.conf
    exact hnil
  | true =>
    have hinl : routines (behind.reverse.map Sum.inl : List (κ ⊕ ModuleHandler)) level.conf =
        [] := by
      rw [List.map_reverse]
      exact routines_inl behind level.conf
    change routines (_ ++ _) level.conf = _
    rw [routines_append, hinl, List.nil_append, routines_calledUntil_append_inl,
      routines_calledUntil_pushes htracks a (hdeclined ph)]
    rfl

/-- A location that takes its content handler from its server and has a stack handler: this one
comes first and answers, and the content handler is not called. -/
theorem location_routines_stack :
    let c : Configuration := ⟨⟨[], []⟩, .cons ⟨[], [⟨.contentByPhp, ⟨[49], true, 5, []⟩, true⟩]⟩
      (.cons ⟨[], [⟨.stackByPhp, ⟨[50], true, 6, []⟩, true⟩]⟩ .nil .nil) .nil, 4096⟩
    let a : PhaseAnswers Nat :=
      ⟨fun _ => Rc.declined.toInt, 0, fun _ _ => 0, fun _ rc => rc = Rc.declined.toInt, false⟩
    ∃ m t level outer ls reg filters, c.load = some (m, t) ∧
      Levels.At [] t (level :: outer) ls ∧
      phpInit m (fun _ => [3].map Sum.inl) ⟨[some 4], [some 4]⟩ [true, true, true] =
        some (reg, filters) ∧
      (∀ ph, a.goesOn ph Rc.declined.toInt = true) ∧
      routines (Registry.called (fun q => reg q ++ [5].map Sum.inl) a level.conf .content)
        level.conf = [(.stack, .inlineHandler)] := by
  intro c a
  have hload : c.load = some (_, _) := rfl
  refine ⟨_, _, _, _, _, _, _, hload, .inner (.inner (.here _ _ _ _)), rfl, fun _ => rfl, ?_⟩
  exact (@location_routines Nat c _ _ hload (fun _ => [3]) ⟨[some 4], [some 4]⟩ [true, true, true]
    _ _ rfl _ _ _ (.inner (.inner (.here _ _ _ _))) a fun _ => rfl).1 .content [5]

end NgxPhp
