import NgxPhp.Conf.Inheritance

/-!
# The code of a configured handler

A handler of a merged phase always has its code, also where it is not the one that
was meant. A handler of an opcode phase has not when the code was taken from a
level inside that has none.
-/

namespace NgxPhp

/-- The code pointer that the handler's routine dereferences is set. -/
def PhaseConf.HasCode (pc : PhaseConf) : Prop :=
  ∀ form code, pc.used = some (form, code) → code ≠ none

theorem PhaseConf.hasCode_of_none {pc : PhaseConf} (h : pc.used = none) : pc.HasCode :=
  fun _ _ hu => nomatch h.symm.trans hu

theorem PhaseConf.hasCode_of_some {pc : PhaseConf} {form : HandlerForm} {c : PhpCode}
    (h : pc.used = some (form, some c)) : pc.HasCode := by
  intro form' code hu
  obtain ⟨-, rfl⟩ := Prod.mk.inj (Option.some.inj (h.symm.trans hu))
  exact Option.some_ne_none c

/-- Block forms stand in locations only. -/
theorem Level.Read.formFor_ne_block {k : LevelKind} {level : Level} (h : level.Read k)
    (hk : k ≠ .location) (p : ConfPhase) : formFor p level.text.directives ≠ some .block := by
  intro hform
  obtain ⟨_, _, happly⟩ := h
  obtain ⟨⟨d, form⟩, hfirst, rfl⟩ := Option.map_eq_some_iff.mp hform
  obtain ⟨-, hphase, hallowed⟩ := (applyAll_phase happly rfl).2 d _ hfirst
  have hblock : ∀ c : Command, c.phaseForm = some (p, .block) → c.allowed k = false := by
    intro c hc
    cases c <;> simp_all [Command.phaseForm, Command.allowed]
  rw [hblock d.command hphase] at hallowed
  exact nomatch hallowed

/-! ## Merged phases -/

/-- What is inherited has its code if the outermost directive is no block. -/
theorem effectivePhase_hasCode {p : ConfPhase} {chain : List (List Directive)}
    (hacc : ∀ ds ∈ chain, Accepted p ds)
    (hlast : ∀ ds ∈ chain.getLast?, formFor p ds ≠ some .block) :
    (effectivePhase p chain).HasCode := by
  induction chain with
  | nil => exact PhaseConf.hasCode_of_none rfl
  | cons ds above ih =>
    rcases hfirst : firstFor p ds with _ | ⟨d, form⟩
    · cases above with
      | nil =>
        rw [effectivePhase, ownPhase_of_none hfirst]
        exact PhaseConf.hasCode_of_none rfl
      | cons ds' above =>
        rw [effectivePhase, ownPhase_of_none hfirst, PhaseConf.HasCode, mergePhase_empty]
        exact ih (fun ds' h => hacc ds' (List.mem_cons_of_mem _ h)) hlast
    · obtain ⟨⟨c, hc⟩, -⟩ := hacc ds List.mem_cons_self d form hfirst
      cases above with
      | nil =>
        have hform : formFor p ds = some form := by rw [formFor, hfirst]; rfl
        rw [effectivePhase, ownPhase_of_some hfirst hc]
        refine PhaseConf.hasCode_of_some (settled_used_iff.mpr fun hlog => ?_)
        exact hlast ds rfl (hform.trans (congrArg some hlog.1))
      | cons ds' above =>
        rw [effectivePhase, ownPhase_of_some hfirst hc]
        cases hsets : form.setsFile p with
        | false => exact PhaseConf.hasCode_of_some (mergePhase_inline _ hsets).1
        | true =>
          have hprev := ih (fun ds' h => hacc ds' (List.mem_cons_of_mem _ h)) hlast
          intro form' code hu
          rw [(mergePhase_file _ hsets).1] at hu
          obtain ⟨handler, hhandler, heq⟩ := Option.map_eq_some_iff.mp hu
          cases handler with
          | fileHandler =>
            rw [← (Prod.mk.inj heq).2]
            exact Option.some_ne_none c
          | inlineHandler =>
            rw [← (Prod.mk.inj heq).2]
            refine hprev .inlineHandler _ ?_
            rw [PhaseConf.used, hhandler]

/-! ## Opcode phases -/

theorem Command.opcode_inline {c : Command} {p : ConfPhase} {form : Form} (hp : p.isOpcode)
    (h : c.phaseForm = some (p, form)) : form = .inline := by
  rcases hp with rfl | rfl <;> cases c <;> simp_all [phaseForm]

/-- The directive of an opcode phase sets its code. -/
theorem ownPhase_opcode {p : ConfPhase} (hp : p.isOpcode) {ds : List Directive}
    (hacc : Accepted p ds) :
    (formFor p ds = none ∧ ownPhase p ds = {}) ∨
      ∃ c, formFor p ds = some .inline ∧
        ownPhase p ds = { inlineCode := some c, handler := some .inlineHandler } := by
  rcases hfirst : firstFor p ds with _ | ⟨d, form⟩
  · exact Or.inl ⟨by rw [formFor, hfirst]; rfl, ownPhase_of_none hfirst⟩
  · obtain ⟨⟨c, hc⟩, hphase⟩ := hacc d form hfirst
    obtain rfl := Command.opcode_inline hp hphase
    exact Or.inr ⟨c, by rw [formFor, hfirst]; rfl, ownPhase_of_some hfirst hc⟩

/-- The handler of an opcode phase has its code exactly if the last level inside, if there is
one, has a directive for the phase too. -/
theorem opcodePhase_hasCode_iff {p : ConfPhase} (hp : p.isOpcode) {ds : List Directive}
    (hacc : Accepted p ds) {inner : Option (List Directive)}
    (hinner : ∀ ds' ∈ inner, Accepted p ds') :
    (opcodePhase p ds inner).HasCode ↔
      (formFor p ds ≠ none → ∀ ds' ∈ inner, formFor p ds' ≠ none) := by
  rcases ownPhase_opcode hp hacc with ⟨hform, hown⟩ | ⟨c, hform, hown⟩
  · refine ⟨fun _ h => absurd hform h, fun _ => PhaseConf.hasCode_of_none ?_⟩
    unfold opcodePhase
    rw [hown]
    cases inner <;> rfl
  · cases inner with
    | none =>
      refine ⟨fun _ _ _ h => (nomatch h), fun _ => ?_⟩
      rw [opcodePhase, hown]
      exact PhaseConf.hasCode_of_some rfl
    | some ds' =>
      rw [opcodePhase, hown]
      rcases ownPhase_opcode hp (hinner ds' rfl) with ⟨hform', hown'⟩ | ⟨c', hform', hown'⟩
      · rw [hown']
        refine ⟨fun h => absurd rfl (h .inlineHandler none rfl), fun h => ?_⟩
        exact absurd hform' (h (hform ▸ Option.some_ne_none _) ds' rfl)
      · rw [hown']
        refine ⟨fun _ _ ds'' h => ?_, fun _ => PhaseConf.hasCode_of_some rfl⟩
        obtain rfl := Option.some.inj h
        rw [hform']
        exact Option.some_ne_none _

/-- What a loaded configuration has for an opcode phase. -/
theorem Configuration.load_opcode {c : Configuration} {m : MainConf} {t : Levels Level}
    (h : c.load = some (m, t)) {p : ConfPhase} (hp : p.isOpcode) {level : Level}
    {outer : List Level} {ls : Levels Level} (hat : Levels.At [] t (level :: outer) ls) :
    level.conf.phase p =
        opcodePhase p level.text.directives (ls.last?.map (·.text.directives)) ∧
      ∀ ds ∈ ls.last?.map (·.text.directives), Accepted p ds := by
  obtain ⟨main, servers, -, hmain, hservers, rfl⟩ := load_cases h
  cases hat with
  | here =>
    refine ⟨?_, mergeLocations_last_accepted hservers⟩
    rw [mergeLocations_last, mergeLocations_opcode hp hservers, hmain.phase]
    cases servers.last? <;> rfl
  | inner hat =>
    obtain ⟨level', outer', heq, hphase⟩ := mergeLocations_opcode_at hp hservers hat
    obtain ⟨rfl, rfl⟩ := List.cons.inj heq
    exact hphase
  | rest hat => exact nomatch hat

theorem Levels.At.path_eq {α : Type} {above path : List α} {t ls : Levels α}
    (h : Levels.At above t path ls) : ∃ inside, path = inside ++ above := by
  induction h with
  | here above level inner rest => exact ⟨[level], rfl⟩
  | inner _ ih =>
    obtain ⟨inside, rfl⟩ := ih
    exact ⟨_, List.append_cons inside _ _⟩
  | rest _ ih => exact ih

/-- The outermost level of a loaded configuration has no block forms. -/
theorem Configuration.load_outermost {c : Configuration} {m : MainConf} {t : Levels Level}
    (h : c.load = some (m, t)) {path : List Level} {ls : Levels Level}
    (hat : Levels.At [] t path ls) (p : ConfPhase) :
    ∀ ds ∈ (directivesOf path).getLast?, formFor p ds ≠ some .block := by
  obtain ⟨main, servers, -, hmain, -, rfl⟩ := load_cases h
  have hmainform := hmain.formFor_ne_block (fun h => nomatch h) p
  have hpath : ∃ inside conf, path = inside ++ [(⟨main.text, conf⟩ : Level)] := by
    cases hat with
    | here => exact ⟨[], _, rfl⟩
    | inner hat =>
      obtain ⟨inside, hinside⟩ := hat.path_eq
      exact ⟨inside, _, hinside⟩
    | rest hat => exact nomatch hat
  obtain ⟨inside, conf, rfl⟩ := hpath
  intro ds hds
  rw [directivesOf, List.map_append, List.map_singleton, List.getLast?_concat] at hds
  obtain rfl := Option.some.inj hds
  exact hmainform

/-- All handlers of a record of a loaded configuration have their code exactly if for each
opcode phase that has a directive at its level the last level inside has one too. -/
theorem handlers_have_code_iff {c : Configuration} {m : MainConf} {t : Levels Level}
    (h : c.load = some (m, t)) {level : Level} {outer : List Level} {ls : Levels Level}
    (hat : Levels.At [] t (level :: outer) ls) :
    (∀ p, (level.conf.phase p).HasCode) ↔
      ∀ p : ConfPhase, p.isOpcode → formFor p level.text.directives ≠ none →
        ∀ last ∈ ls.last?, formFor p last.text.directives ≠ none := by
  have hopcode : ∀ p : ConfPhase, p.isOpcode → ((level.conf.phase p).HasCode ↔
      (formFor p level.text.directives ≠ none →
        ∀ last ∈ ls.last?, formFor p last.text.directives ≠ none)) := by
    intro p hp
    obtain ⟨hphase, hlast⟩ := c.load_opcode h hp hat
    rw [hphase, opcodePhase_hasCode_iff hp (c.load_accepted h hat p level List.mem_cons_self)
      hlast]
    cases ls.last? with
    | none => exact ⟨fun _ _ _ h => (nomatch h), fun _ _ _ h => (nomatch h)⟩
    | some last => simp
  constructor
  · exact fun hall p hp => (hopcode p hp).mp (hall p)
  · intro hcond p
    by_cases hp : p.isOpcode
    · exact (hopcode p hp).mpr (hcond p hp)
    · rw [c.load_phase h hp hat]
      exact effectivePhase_hasCode (List.forall_mem_map.mpr (c.load_accepted h hat p))
        (c.load_outermost h hat p)

/-- A location with `opcode_by_php` and a location inside it that has it too. -/
theorem handlers_have_code_nested :
    let d : Directive := ⟨.opcodeByPhp, ⟨[49], true, 5, []⟩, true⟩
    let c : Configuration := ⟨⟨[], []⟩, .cons ⟨[], []⟩
      (.cons ⟨[], [d]⟩ (.cons ⟨[], [d]⟩ .nil .nil) .nil) .nil, 4096⟩
    ∃ m t level outer ls, c.load = some (m, t) ∧ Levels.At [] t (level :: outer) ls ∧
      (level.conf.phase .opcode).handler = some .inlineHandler ∧
      ∀ p, (level.conf.phase p).HasCode := by
  intro d c
  have hload : c.load = some (_, _) := rfl
  refine ⟨_, _, _, _, _, hload, .inner (.inner (.here _ _ _ _)), rfl, ?_⟩
  refine (handlers_have_code_iff hload (.inner (.inner (.here _ _ _ _)))).mpr ?_
  intro p hp hform last hlast
  obtain rfl := Option.some.inj hlast
  exact hform

/-- The location inside has no `opcode_by_php`, and the handler of the outer one no code. -/
theorem opcodeByPhp_unset :
    let c : Configuration := ⟨⟨[], []⟩, .cons ⟨[], []⟩
      (.cons ⟨[], [⟨.opcodeByPhp, ⟨[49], true, 5, []⟩, true⟩]⟩ (.cons ⟨[], []⟩ .nil .nil) .nil)
      .nil, 4096⟩
    ∃ m t level outer ls, c.load = some (m, t) ∧ Levels.At [] t (level :: outer) ls ∧
      outer.length = 2 ∧ (level.conf.phase .opcode).used = some (.inlineHandler, none) :=
  ⟨_, _, _, _, _, rfl, .inner (.inner (.here _ _ _ _)), rfl, rfl⟩

end NgxPhp
