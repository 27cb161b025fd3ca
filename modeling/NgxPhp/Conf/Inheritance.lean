import NgxPhp.Conf.Effective

/-!
# Which directive a location uses

A directive is meant to hold for all levels inside its own until one of these has
a directive for the same phase. The handler, though, is inherited together with
the inline code: a level with a file form gets the handler of the level around it.
-/

namespace NgxPhp

/-- The form of the first directive of a level for the phase. -/
def formFor (p : ConfPhase) (ds : List Directive) : Option Form := (firstFor p ds).map Prod.snd

/-- The directive for the phase of the innermost level that has one. -/
def innermost (p : ConfPhase) (chain : List (List Directive)) : Option (Directive × Form) :=
  chain.findSome? (firstFor p)

/-- The handler and the code of the innermost level that has a directive for the phase. -/
def innermostUse (p : ConfPhase) (chain : List (List Directive)) :
    Option (HandlerForm × Option PhpCode) :=
  (innermost p chain).map fun df => (df.2.handler, df.1.code p df.2)

/-- The innermost directive is an inline or a block form (of another phase than the log), or
a file form below an outermost file form with no inline or block form between them. -/
def Inherited (p : ConfPhase) (chain : List (List Directive)) : Prop :=
  match (innermost p chain).map Prod.snd with
  | none | some .inline => True
  | some .block => p ≠ .log
  | some .file => chain.getLast?.bind (formFor p) = some .file ∧
      ∀ ds ∈ chain, formFor p ds = none ∨ formFor p ds = some .file

/-- A level without directive passes on all that it is given. -/
theorem mergePhase_empty (prev : PhaseConf) : (mergePhase prev {}).used = prev.used := by
  obtain ⟨code, inlineCode, handler, compile⟩ := prev
  cases handler with
  | none => rfl
  | some form => cases form <;> rfl

/-- The handler of a level with an inline code is its own. -/
theorem mergePhase_inline (prev : PhaseConf) {p : ConfPhase} {form : Form} {c : PhpCode}
    (h : form.setsFile p = false) :
    (mergePhase prev (PhaseConf.settled p form {} c)).used = some (.inlineHandler, some c) ∧
      (mergePhase prev (PhaseConf.settled p form {} c)).handler = some .inlineHandler := by
  have hform : form.handler = .inlineHandler := by
    cases form with
    | file => exact nomatch h
    | inline | block => rfl
  unfold PhaseConf.settled
  rw [h, hform]
  exact ⟨rfl, rfl⟩

/-- The handler of a level with a file code is that of the level around it. -/
theorem mergePhase_file (prev : PhaseConf) {p : ConfPhase} {form : Form} {c : PhpCode}
    (h : form.setsFile p = true) :
    (mergePhase prev (PhaseConf.settled p form {} c)).used =
        prev.handler.map (fun
          | .fileHandler => (.fileHandler, some c)
          | .inlineHandler => (.inlineHandler, prev.inlineCode)) ∧
      (mergePhase prev (PhaseConf.settled p form {} c)).handler = prev.handler := by
  unfold PhaseConf.settled
  rw [h]
  refine ⟨?_, rfl⟩
  obtain ⟨code, inlineCode, handler, compile⟩ := prev
  cases handler with
  | none => rfl
  | some form => cases form <;> rfl

/-- Inline codes are made of strings. -/
theorem effectivePhase_inlineCode {p : ConfPhase} {chain : List (List Directive)} {c : PhpCode}
    (h : (effectivePhase p chain).inlineCode = some c) : c.codeType = .string := by
  have hown : ∀ ds, (ownPhase p ds).inlineCode = some c → c.codeType = .string := by
    intro ds hc
    unfold ownPhase at hc
    split at hc
    · exact nomatch hc
    next d form _ =>
      split at hc
      · exact nomatch hc
      next c' hcode =>
        unfold Directive.code at hcode
        unfold PhaseConf.settled at hc
        split at hc
        · exact nomatch hc
        next hform =>
          rw [if_neg hform] at hcode
          obtain rfl := Option.some.inj hc
          exact codeFromString_type hcode
  induction chain with
  | nil => exact nomatch h
  | cons ds above ih =>
    cases above with
    | nil => exact hown ds h
    | cons ds' above =>
      change inheritCode (ownPhase p ds).inlineCode _ = some c at h
      rcases hcode : (ownPhase p ds).inlineCode with _ | c'
      · rw [hcode] at h
        exact ih h
      · rw [hcode] at h
        obtain rfl := Option.some.inj h
        exact hown ds hcode

theorem Command.no_log_file (c : Command) : c.phaseForm ≠ some (.log, .file) := by
  cases c <;> exact fun h => nomatch h

theorem Accepted.formFor_ne {ds : List Directive} (h : Accepted .log ds) :
    formFor .log ds ≠ some .file := by
  intro hform
  obtain ⟨⟨d, form⟩, hfirst, rfl⟩ := Option.map_eq_some_iff.mp hform
  exact d.command.no_log_file (h d _ hfirst).2

theorem Form.handler_file {form : Form} : form.handler = .fileHandler ↔ form = .file := by
  cases form <;> simp [Form.handler]

/-- A location has a file handler only from the outermost level. -/
theorem effectivePhase_fileHandler {p : ConfPhase} {chain : List (List Directive)}
    (hacc : ∀ ds ∈ chain, Accepted p ds) :
    (effectivePhase p chain).handler = some .fileHandler ↔
      chain.getLast?.bind (formFor p) = some .file ∧
        ∀ ds ∈ chain, formFor p ds = none ∨ formFor p ds = some .file := by
  induction chain with
  | nil => exact ⟨fun h => (nomatch h), fun h => (nomatch h.1)⟩
  | cons ds above ih =>
    have habove : ∀ ds' ∈ above, Accepted p ds' := fun ds' h => hacc ds' (List.mem_cons_of_mem _ h)
    have ih := ih habove
    rw [List.forall_mem_cons]
    rcases hfirst : firstFor p ds with _ | ⟨d, form⟩
    · have hform : formFor p ds = none := by rw [formFor, hfirst]; rfl
      cases above with
      | nil =>
        rw [effectivePhase, ownPhase_of_none hfirst]
        simp [hform]
      | cons ds' above =>
        rw [effectivePhase, ownPhase_of_none hfirst, List.getLast?_cons_cons, hform]
        exact ih.trans ⟨fun h => ⟨h.1, Or.inl rfl, h.2⟩, fun h => ⟨h.1, h.2.2⟩⟩
    · have hform : formFor p ds = some form := by rw [formFor, hfirst]; rfl
      obtain ⟨⟨c, hc⟩, hphase⟩ := hacc ds List.mem_cons_self d form hfirst
      cases above with
      | nil =>
        rw [effectivePhase, ownPhase_of_some hfirst hc]
        simp [hform, PhaseConf.settled, Form.handler_file]
      | cons ds' above =>
        rw [effectivePhase, ownPhase_of_some hfirst hc, List.getLast?_cons_cons, hform]
        cases hsets : form.setsFile p with
        | false =>
          rw [(mergePhase_inline _ hsets).2]
          refine ⟨fun h => (nomatch h), fun h => ?_⟩
          rcases h.2.1 with h | h
          · exact nomatch h
          · obtain rfl := Option.some.inj h
            exact nomatch hsets
        | true =>
          rw [(mergePhase_file _ hsets).2]
          cases form with
          | file => exact ih.trans ⟨fun h => ⟨h.1, Or.inr rfl, h.2⟩, fun h => ⟨h.1, h.2.2⟩⟩
          | inline => exact nomatch hsets
          | block =>
            -- Only the log phase has a block that stores a file code, and no file form.
            have hp : p = .log := of_decide_eq_true hsets
            subst hp
            refine ⟨fun h => ?_, fun h => ?_⟩
            · obtain ⟨last, hlast, hfile⟩ := Option.bind_eq_some_iff.mp (ih.mp h).1
              exact absurd hfile (habove last (List.mem_of_getLast? hlast)).formFor_ne
            · rcases h.2.1 with h | h <;> exact nomatch h

/-- A level without directive changes nothing about what is inherited. -/
theorem inherited_cons_none {p : ConfPhase} {ds : List Directive} (hfirst : firstFor p ds = none)
    {above : List (List Directive)} (hne : above ≠ []) :
    Inherited p (ds :: above) ↔ Inherited p above := by
  have hform : formFor p ds = none := by rw [formFor, hfirst]; rfl
  have hinner : innermost p (ds :: above) = innermost p above := by
    rw [innermost, List.findSome?_cons, hfirst]
    rfl
  obtain ⟨ds', above, rfl⟩ := List.exists_cons_of_ne_nil hne
  rw [Inherited, Inherited, hinner]
  split
  · exact Iff.rfl
  · exact Iff.rfl
  · exact Iff.rfl
  · rw [List.getLast?_cons_cons, List.forall_mem_cons (l := ds' :: above), hform]
    exact ⟨fun h => ⟨h.1, h.2.2⟩, fun h => ⟨h.1, Or.inl rfl, h.2⟩⟩

/-- The outermost level has what its own directive sets. -/
theorem settled_used_iff {p : ConfPhase} {form : Form} {c : PhpCode} :
    (PhaseConf.settled p form {} c).used = some (form.handler, some c) ↔
      ¬ (form = .block ∧ p = .log) := by
  cases form with
  | file => exact ⟨fun _ h => (nomatch h.1), fun _ => rfl⟩
  | inline => exact ⟨fun _ h => (nomatch h.1), fun _ => rfl⟩
  | block =>
    by_cases hp : p = .log
    · subst hp
      exact ⟨fun h => (nomatch (Prod.mk.inj (Option.some.inj h)).2), fun h => absurd ⟨rfl, rfl⟩ h⟩
    · refine ⟨fun _ h => hp h.2, fun _ => ?_⟩
      have hsets : Form.block.setsFile p = false := decide_eq_false hp
      unfold PhaseConf.settled
      rw [hsets]
      rfl

/-- A location uses the innermost directive exactly if it is one that is inherited. -/
theorem effectivePhase_used_iff {p : ConfPhase} {chain : List (List Directive)} (hne : chain ≠ [])
    (hacc : ∀ ds ∈ chain, Accepted p ds) :
    (effectivePhase p chain).used = innermostUse p chain ↔ Inherited p chain := by
  induction chain with
  | nil => exact absurd rfl hne
  | cons ds above ih =>
    have habove : ∀ ds' ∈ above, Accepted p ds' := fun ds' h => hacc ds' (List.mem_cons_of_mem _ h)
    rcases hfirst : firstFor p ds with _ | ⟨d, form⟩
    · have hinner : innermost p (ds :: above) = innermost p above := by
        rw [innermost, List.findSome?_cons, hfirst]
        rfl
      cases above with
      | nil =>
        rw [effectivePhase, ownPhase_of_none hfirst, innermostUse, Inherited, hinner]
        exact ⟨fun _ => trivial, fun _ => rfl⟩
      | cons ds' above =>
        rw [effectivePhase, ownPhase_of_none hfirst, mergePhase_empty, innermostUse, hinner,
          inherited_cons_none hfirst (List.cons_ne_nil _ _)]
        exact ih (List.cons_ne_nil _ _) habove
    · have hform : formFor p ds = some form := by rw [formFor, hfirst]; rfl
      have hinner : innermost p (ds :: above) = some (d, form) := by
        rw [innermost, List.findSome?_cons, hfirst]
      obtain ⟨⟨c, hc⟩, hphase⟩ := hacc ds List.mem_cons_self d form hfirst
      have huse : innermostUse p (ds :: above) = some (form.handler, some c) := by
        rw [innermostUse, hinner, ← hc]
        rfl
      rw [huse, Inherited, hinner]
      cases above with
      | nil =>
        rw [effectivePhase, ownPhase_of_some hfirst hc, settled_used_iff]
        cases form with
        | file => simp [hform]
        | inline => simp
        | block => simp
      | cons ds' above =>
        rw [effectivePhase, ownPhase_of_some hfirst hc, List.getLast?_cons_cons,
          List.forall_mem_cons, hform]
        cases hsets : form.setsFile p with
        | false =>
          rw [(mergePhase_inline _ hsets).1]
          cases form with
          | file => exact nomatch hsets
          | inline => exact ⟨fun _ => trivial, fun _ => rfl⟩
          | block => exact ⟨fun _ => of_decide_eq_false hsets, fun _ => rfl⟩
        | true =>
          rw [(mergePhase_file _ hsets).1]
          cases form with
          | inline => exact nomatch hsets
          | file =>
            have hfile := effectivePhase_fileHandler habove
            refine Iff.trans ?_ (hfile.trans ⟨fun h => ⟨h.1, Or.inr rfl, h.2⟩,
              fun h => ⟨h.1, h.2.2⟩⟩)
            rcases (effectivePhase p (ds' :: above)).handler with _ | _ | _ <;>
              simp [Form.handler]
          | block =>
            -- The code made of the block is a file code; those handed down are strings.
            refine ⟨fun h => ?_, fun h => absurd (of_decide_eq_true hsets) h⟩
            obtain ⟨handler, -, heq⟩ := Option.map_eq_some_iff.mp h
            cases handler with
            | fileHandler => exact nomatch (Prod.mk.inj heq).1
            | inlineHandler =>
              have hstring := effectivePhase_inlineCode (Prod.mk.inj heq).2
              unfold Directive.code at hc
              rw [hsets] at hc
              exact nomatch (codeFromFile_type hc).symm.trans hstring

/-! ## Whole configurations -/

theorem mergeLocations_accepted {p : ConfPhase} {pagesize : Nat} {k : LevelKind}
    {t : Levels Level} (ht : AllRead k t) {prev : LocConf} {above path : List Level}
    (habove : ∀ l ∈ above, Accepted p l.text.directives) {ls : Levels Level}
    (hat : Levels.At above (mergeLocations pagesize prev t).2 path ls) :
    ∀ l ∈ path, Accepted p l.text.directives := by
  induction t generalizing k prev above with
  | nil => exact nomatch hat
  | cons level inner rest ihinner ihrest =>
    obtain ⟨hlevel, hinner, hrest⟩ := ht
    have hcons : ∀ conf : LocConf, ∀ l ∈ ⟨level.text, conf⟩ :: above,
        Accepted p l.text.directives :=
      fun conf => List.forall_mem_cons.mpr ⟨hlevel.accepted p, habove⟩
    rw [mergeLocations_cons] at hat
    cases hat with
    | here => exact hcons _
    | inner hat => exact ihinner hinner (hcons _) hat
    | rest hat => exact ihrest hrest habove hat

/-- All directives around a level of a loaded configuration were accepted. -/
theorem Configuration.load_accepted {c : Configuration} {m : MainConf} {t : Levels Level}
    (h : c.load = some (m, t)) {path : List Level} {ls : Levels Level}
    (hat : Levels.At [] t path ls) (p : ConfPhase) : ∀ l ∈ path, Accepted p l.text.directives := by
  obtain ⟨main, servers, -, hmain, hservers, rfl⟩ := load_cases h
  have hacc : ∀ conf : LocConf, ∀ l ∈ [(⟨main.text, conf⟩ : Level)], Accepted p l.text.directives :=
    fun conf => List.forall_mem_singleton.mpr (hmain.accepted p)
  cases hat with
  | here => exact hacc _
  | inner hat => exact mergeLocations_accepted hservers (hacc _) hat
  | rest hat => exact nomatch hat

/-- Every level of a loaded configuration has the fields that the levels around it leave. -/
theorem Configuration.load_phase {c : Configuration} {m : MainConf} {t : Levels Level}
    (h : c.load = some (m, t)) {p : ConfPhase} (hp : ¬ p.isOpcode) {level : Level}
    {outer : List Level} {ls : Levels Level} (hat : Levels.At [] t (level :: outer) ls) :
    level.conf.phase p = effectivePhase p (directivesOf (level :: outer)) := by
  obtain ⟨main, servers, -, hmain, hservers, rfl⟩ := load_cases h
  have hown := hmain.phase p
  have hcompile : (main.conf.phase p).enabledInlineCompile = false := by
    rw [hown, ownPhase_compile]
  cases hat with
  | here => exact (mergeLocations_parent hp hservers hcompile).trans hown
  | inner hat =>
    obtain ⟨level', outer', heq, hphase⟩ :=
      mergeLocations_at hp hservers (List.cons_ne_nil _ _) (hown.trans rfl) hat
    obtain ⟨rfl, rfl⟩ := List.cons.inj heq
    exact hphase
  | rest hat => exact nomatch hat

/-- A merge leaves the parent as it is exactly if both records have the same code for the
opcode phases. -/
theorem mergeLocConf_parent_iff (root : Bytes) (pagesize : Nat) {prev conf : LocConf}
    (h : ∀ p, (prev.phase p).enabledInlineCompile = (conf.phase p).enabledInlineCompile) :
    (mergeLocConf root pagesize prev conf).1 = prev ↔
      ∀ p : ConfPhase, p.isOpcode → (prev.phase p).inlineCode = (conf.phase p).inlineCode := by
  constructor
  · intro heq p hp
    have hphase := (mergeLocConf_opcode hp root pagesize prev conf).1
    rw [heq] at hphase
    conv => lhs; rw [hphase]
  · intro hsame
    have hphase : (mergeLocConf root pagesize prev conf).1.phase = prev.phase := by
      funext p
      by_cases hp : p.isOpcode
      · rw [(mergeLocConf_opcode hp root pagesize prev conf).1, ← hsame p hp]
      · exact mergeLocConf_parent hp root pagesize (h p)
    change LocConf.mk prev.documentRoot (mergeLocConf root pagesize prev conf).1.phase
      prev.bufferSize = prev
    rw [hphase]

/-- In a loaded configuration a location uses the handler and the code of the innermost level
with a directive exactly if the form of that directive is inherited, and a merge leaves
the parent as it is exactly if the opcode phases have the same code. -/
theorem directives_inherited_iff {c : Configuration} {m : MainConf} {t : Levels Level}
    (h : c.load = some (m, t)) :
    (∀ p : ConfPhase, ¬ p.isOpcode → ∀ (level : Level) (outer : List Level) (ls : Levels Level),
      Levels.At [] t (level :: outer) ls →
      ((level.conf.phase p).used = innermostUse p (directivesOf (level :: outer)) ↔
        Inherited p (directivesOf (level :: outer)))) ∧
    ∀ (root : Bytes) (prev conf : LocConf),
      (∀ p, (prev.phase p).enabledInlineCompile = false ∧
        (conf.phase p).enabledInlineCompile = false) →
      ((mergeLocConf root c.pagesize prev conf).1 = prev ↔
        ∀ p : ConfPhase, p.isOpcode → (prev.phase p).inlineCode = (conf.phase p).inlineCode) := by
  refine ⟨fun p hp level outer ls hat => ?_, fun root prev conf hflags => ?_⟩
  · rw [c.load_phase h hp hat]
    exact effectivePhase_used_iff (List.cons_ne_nil _ _)
      (List.forall_mem_map.mpr (c.load_accepted h hat p))
  · exact mergeLocConf_parent_iff root c.pagesize
      fun p => (hflags p).1.trans (hflags p).2.symm

/-- A server with `rewrite_by_php` (the text `1`) and a location without directives. -/
theorem directives_inherited_server :
    let c : Configuration := ⟨⟨[], []⟩, .cons ⟨[], [⟨.rewriteByPhp, ⟨[49], true, 5, []⟩, true⟩]⟩
      (.cons ⟨[], []⟩ .nil .nil) .nil, 4096⟩
    ∃ m t level outer ls, c.load = some (m, t) ∧ Levels.At [] t (level :: outer) ls ∧
      outer.length = 2 ∧ (level.conf.phase .rewrite).used =
        some (.inlineHandler, some ⟨.string, [49], 5⟩) := by
  intro c
  have hload : c.load = some (_, _) := rfl
  refine ⟨_, _, _, _, _, hload, .inner (.inner (.here _ _ _ _)), rfl, ?_⟩
  exact ((directives_inherited_iff hload).1 .rewrite (by decide) _ _ _
    (.inner (.inner (.here _ _ _ _)))).mpr trivial

/-- A location with `content_by_php_file` (the path `/a`) has no handler for the phase. -/
theorem contentByPhpFile_lost :
    let c : Configuration := ⟨⟨[], []⟩, .cons ⟨[], []⟩
      (.cons ⟨[], [⟨.contentByPhpFile, ⟨[47, 97], true, 5, []⟩, true⟩]⟩ .nil .nil) .nil, 4096⟩
    ∃ m t level outer ls, c.load = some (m, t) ∧ Levels.At [] t (level :: outer) ls ∧
      innermostUse .content (directivesOf (level :: outer)) =
        some (.fileHandler, some ⟨.file, [47, 97], 5⟩) ∧
      (level.conf.phase .content).used = none :=
  ⟨_, _, _, _, _, rfl, .inner (.inner (.here _ _ _ _)), rfl, rfl⟩

end NgxPhp
