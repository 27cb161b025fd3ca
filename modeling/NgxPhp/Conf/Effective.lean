import NgxPhp.Conf.Merge

/-!
# The fields of a merged phase

The fields that a location has for a merged phase are found from the directives of
the levels around it, and merging other levels does not touch them. The code of
an opcode phase goes the other way, from the last level inside.
-/

namespace NgxPhp

/-- The record of the level was filled by its directives. -/
def Level.Read (k : LevelKind) (level : Level) : Prop :=
  ∃ m m', applyAll k level.text.directives m createLocConf = some (m', level.conf)

/-- All records were filled by the directives of their levels. -/
def AllRead (k : LevelKind) : Levels Level → Prop
  | .nil => True
  | .cons level inner rest => level.Read k ∧ AllRead k.inner inner ∧ AllRead k rest

/-- A level that is read has the record of its directives. -/
theorem readLevel_read {k : LevelKind} {m m' : MainConf} {t : LevelText} {level : Level}
    (h : readLevel k m t = some (m', level)) : level.Read k := by
  obtain ⟨⟨m₁, l⟩, happly, heq⟩ := Option.map_eq_some_iff.mp h
  obtain ⟨-, rfl⟩ := Prod.mk.inj heq
  exact ⟨m, m₁, happly⟩

/-- All levels that are read have the records of their directives. -/
theorem readLevels_read {k : LevelKind} {m m' : MainConf} {t : Levels LevelText}
    {ls : Levels Level} (h : readLevels k m t = some (m', ls)) : AllRead k ls := by
  induction t generalizing k m m' ls with
  | nil =>
    obtain ⟨-, rfl⟩ := Prod.mk.inj (Option.some.inj h)
    trivial
  | cons t inner rest ihinner ihrest =>
    obtain ⟨⟨m₁, level⟩, hlevel, h⟩ := Option.bind_eq_some_iff.mp h
    obtain ⟨⟨m₂, inner'⟩, hinner, h⟩ := Option.bind_eq_some_iff.mp h
    obtain ⟨⟨m₃, rest'⟩, hrest, h⟩ := Option.bind_eq_some_iff.mp h
    obtain ⟨-, rfl⟩ := Prod.mk.inj (Option.some.inj h)
    exact ⟨readLevel_read hlevel, ihinner hinner, ihrest hrest⟩

/-- The record of a level has for each phase what its own directives say. -/
theorem Level.Read.phase {k : LevelKind} {level : Level} (h : level.Read k) (p : ConfPhase) :
    level.conf.phase p = ownPhase p level.text.directives :=
  have ⟨_, _, happly⟩ := h
  (applyAll_phase happly rfl).1

/-- The first directive of a level for the phase was accepted and has made its code. -/
def Accepted (p : ConfPhase) (ds : List Directive) : Prop :=
  ∀ d form, firstFor p ds = some (d, form) →
    (∃ c, d.code p form = some c) ∧ d.command.phaseForm = some (p, form)

/-- The directives of a level that is read were accepted. -/
theorem Level.Read.accepted {k : LevelKind} {level : Level} (h : level.Read k) (p : ConfPhase) :
    Accepted p level.text.directives := by
  obtain ⟨_, _, happly⟩ := h
  intro d form hfirst
  obtain ⟨hc, hphase, -⟩ := (applyAll_phase happly rfl).2 d form hfirst
  exact ⟨hc, hphase⟩

/-- A level without a directive for the phase leaves its fields empty. -/
theorem ownPhase_of_none {p : ConfPhase} {ds : List Directive} (h : firstFor p ds = none) :
    ownPhase p ds = {} := by
  rw [ownPhase, h]

/-- A level with a directive for the phase has the fields that it sets. -/
theorem ownPhase_of_some {p : ConfPhase} {ds : List Directive} {d : Directive} {form : Form}
    (h : firstFor p ds = some (d, form)) {c : PhpCode} (hc : d.code p form = some c) :
    ownPhase p ds = PhaseConf.settled p form {} c := by
  rw [ownPhase, h]
  dsimp only
  rw [hc]

/-- Nothing is compiled while the configuration is read. -/
theorem ownPhase_compile (p : ConfPhase) (ds : List Directive) :
    (ownPhase p ds).enabledInlineCompile = false := by
  unfold ownPhase
  split
  · rfl
  split
  · rfl
  unfold PhaseConf.settled
  split <;> rfl

/-- The directives of a level and of the levels around it, the innermost first. -/
def directivesOf (path : List Level) : List (List Directive) := path.map (·.text.directives)

/-- The fields that the levels around a location leave it for a merged phase. -/
def effectivePhase (p : ConfPhase) : List (List Directive) → PhaseConf
  | [] => {}
  | [ds] => ownPhase p ds
  | ds :: ds' :: above => mergePhase (effectivePhase p (ds' :: above)) (ownPhase p ds)

/-- A level inside others has its own fields merged with theirs. -/
theorem effectivePhase_cons {p : ConfPhase} {ds : List Directive} {above : List (List Directive)}
    (h : above ≠ []) :
    effectivePhase p (ds :: above) = mergePhase (effectivePhase p above) (ownPhase p ds) := by
  obtain ⟨ds', above, rfl⟩ := List.exists_cons_of_ne_nil h
  rfl

/-- Nothing is compiled while the configuration is merged. -/
theorem effectivePhase_compile (p : ConfPhase) (chain : List (List Directive)) :
    (effectivePhase p chain).enabledInlineCompile = false := by
  cases chain with
  | nil => rfl
  | cons ds above =>
    cases above with
    | nil => exact ownPhase_compile p ds
    | cons ds' above => exact ownPhase_compile p ds

/-! ## Merged phases -/

/-- A merge leaves the parent's fields of a merged phase alone. -/
theorem mergeLocConf_parent {p : ConfPhase} (hp : ¬ p.isOpcode) (root : Bytes) (pagesize : Nat)
    {prev conf : LocConf}
    (h : (prev.phase p).enabledInlineCompile = (conf.phase p).enabledInlineCompile) :
    (mergeLocConf root pagesize prev conf).1.phase p = prev.phase p := by
  have hset : (mergeLocConf root pagesize prev conf).1.phase p =
      { prev.phase p with enabledInlineCompile := (conf.phase p).enabledInlineCompile } :=
    if_neg hp
  rw [hset, ← h]

/-- A merge gives the child the merged fields of a phase. -/
theorem mergeLocConf_child {p : ConfPhase} (hp : ¬ p.isOpcode) (root : Bytes) (pagesize : Nat)
    (prev conf : LocConf) :
    (mergeLocConf root pagesize prev conf).2.phase p =
      mergePhase (prev.phase p) (conf.phase p) := if_neg hp

/-- The record around the levels goes from one level to the next beside it, the record of a
level through the levels inside. -/
theorem mergeLocations_cons (pagesize : Nat) (prev : LocConf) (level : Level)
    (inner rest : Levels Level) :
    mergeLocations pagesize prev (.cons level inner rest) =
      ((mergeLocations pagesize
          (mergeLocConf level.text.root pagesize prev level.conf).1 rest).1,
        .cons ⟨level.text, (mergeLocations pagesize
            (mergeLocConf level.text.root pagesize prev level.conf).2 inner).1⟩
          (mergeLocations pagesize
            (mergeLocConf level.text.root pagesize prev level.conf).2 inner).2
          (mergeLocations pagesize
            (mergeLocConf level.text.root pagesize prev level.conf).1 rest).2) := rfl

/-- Merging the levels inside a level does not change a merged phase of its record. -/
theorem mergeLocations_parent {p : ConfPhase} (hp : ¬ p.isOpcode) {pagesize : Nat} {prev : LocConf}
    {k : LevelKind} {t : Levels Level} (ht : AllRead k t)
    (hprev : (prev.phase p).enabledInlineCompile = false) :
    (mergeLocations pagesize prev t).1.phase p = prev.phase p := by
  induction t generalizing k prev with
  | nil => rfl
  | cons level inner rest _ ihrest =>
    obtain ⟨hlevel, -, hrest⟩ := ht
    have hstep : (mergeLocConf level.text.root pagesize prev level.conf).1.phase p =
        prev.phase p := by
      refine mergeLocConf_parent hp _ _ ?_
      rw [hprev, hlevel.phase, ownPhase_compile]
    rw [mergeLocations_cons, ihrest hrest (by rw [hstep, hprev]), hstep]

/-- A level anywhere inside has the fields that the levels around it leave it. -/
theorem mergeLocations_at {p : ConfPhase} (hp : ¬ p.isOpcode) {pagesize : Nat} {k : LevelKind}
    {t : Levels Level} (ht : AllRead k t) {prev : LocConf} {above : List Level}
    (hne : above ≠ []) (hprev : prev.phase p = effectivePhase p (directivesOf above))
    {path : List Level} {ls : Levels Level}
    (hat : Levels.At above (mergeLocations pagesize prev t).2 path ls) :
    ∃ level outer, path = level :: outer ∧
      level.conf.phase p = effectivePhase p (directivesOf path) := by
  induction t generalizing k prev above with
  | nil => exact nomatch hat
  | cons level inner rest ihinner ihrest =>
    obtain ⟨hlevel, hinner, hrest⟩ := ht
    have hcompile : (prev.phase p).enabledInlineCompile = false := by
      rw [hprev, effectivePhase_compile]
    have hparent : (mergeLocConf level.text.root pagesize prev level.conf).1.phase p =
        prev.phase p := by
      refine mergeLocConf_parent hp _ _ ?_
      rw [hcompile, hlevel.phase, ownPhase_compile]
    have hdirs : directivesOf above ≠ [] := mt List.map_eq_nil_iff.mp hne
    have hchild : (mergeLocConf level.text.root pagesize prev level.conf).2.phase p =
        effectivePhase p (level.text.directives :: directivesOf above) := by
      rw [mergeLocConf_child hp, hprev, hlevel.phase, effectivePhase_cons hdirs]
    have hconf : (mergeLocations pagesize
        (mergeLocConf level.text.root pagesize prev level.conf).2 inner).1.phase p =
        effectivePhase p (level.text.directives :: directivesOf above) := by
      rw [mergeLocations_parent hp hinner, hchild]
      rw [hchild, effectivePhase_compile]
    rw [mergeLocations_cons] at hat
    cases hat with
    | here => exact ⟨_, above, rfl, hconf⟩
    | inner hat =>
      refine ihinner hinner (List.cons_ne_nil _ _) (hchild.trans ?_) hat
      rfl
    | rest hat => exact ihrest hrest hne (hparent.trans hprev) hat

/-! ## Opcode phases -/

/-- The last of the levels beside each other. -/
def Levels.last? {α : Type} : Levels α → Option α
  | .nil => none
  | .cons level _ rest => rest.last?.or (some level)

/-- The code that an opcode phase has in the end: that of the last level inside, if there is
one. -/
def opcodePhase (p : ConfPhase) (ds : List Directive) (inner : Option (List Directive)) :
    PhaseConf :=
  match inner with
  | none => ownPhase p ds
  | some ds' => { ownPhase p ds with inlineCode := (ownPhase p ds').inlineCode }

/-- A merge gives the parent the child's code of an opcode phase. -/
theorem mergeLocConf_opcode {p : ConfPhase} (hp : p.isOpcode) (root : Bytes) (pagesize : Nat)
    (prev conf : LocConf) :
    (mergeLocConf root pagesize prev conf).1.phase p =
        { prev.phase p with inlineCode := (conf.phase p).inlineCode } ∧
      (mergeLocConf root pagesize prev conf).2.phase p = conf.phase p :=
  ⟨if_pos hp, if_pos hp⟩

/-- The last level keeps its directives in the merge. -/
theorem mergeLocations_last (pagesize : Nat) (prev : LocConf) (t : Levels Level) :
    (mergeLocations pagesize prev t).2.last?.map (·.text.directives) =
      t.last?.map (·.text.directives) := by
  induction t generalizing prev with
  | nil => rfl
  | cons level inner rest _ ihrest =>
    rw [mergeLocations_cons, Levels.last?, Levels.last?, Option.map_or, Option.map_or, ihrest]
    rfl

/-- Each merge of a level inside replaces the code of an opcode phase. -/
theorem mergeLocations_opcode {p : ConfPhase} (hp : p.isOpcode) {pagesize : Nat} {k : LevelKind}
    {t : Levels Level} (ht : AllRead k t) (prev : LocConf) :
    (mergeLocations pagesize prev t).1.phase p =
      { prev.phase p with
        inlineCode := match t.last? with
          | none => (prev.phase p).inlineCode
          | some level => (ownPhase p level.text.directives).inlineCode } := by
  induction t generalizing k prev with
  | nil => rfl
  | cons level inner rest _ ihrest =>
    obtain ⟨hlevel, -, hrest⟩ := ht
    rw [mergeLocations_cons, ihrest hrest, (mergeLocConf_opcode hp _ _ _ _).1, Levels.last?,
      hlevel.phase]
    cases rest.last? <;> rfl

/-- The last of levels that were read was read. -/
theorem AllRead.last {k : LevelKind} {t : Levels Level} (h : AllRead k t) {level : Level}
    (hlast : t.last? = some level) : level.Read k := by
  induction t with
  | nil => exact nomatch hlast
  | cons level' inner rest _ ihrest =>
    rw [Levels.last?] at hlast
    rcases hrest : rest.last? with _ | last
    · rw [hrest] at hlast
      obtain rfl := Option.some.inj hlast
      exact h.1
    · rw [hrest] at hlast
      exact ihrest h.2.2 (hrest.trans hlast)

/-- The levels inside a level, after the merges, end with the level they ended with. -/
theorem mergeLocations_last_accepted {p : ConfPhase} {pagesize : Nat} {k : LevelKind}
    {t : Levels Level} (ht : AllRead k t) {prev : LocConf} :
    ∀ ds ∈ (mergeLocations pagesize prev t).2.last?.map (·.text.directives), Accepted p ds := by
  intro ds hds
  rw [mergeLocations_last] at hds
  obtain ⟨level, hlast, rfl⟩ := Option.map_eq_some_iff.mp hds
  exact (ht.last hlast).accepted p

/-- A level anywhere inside has the handler it set and the code of the last level in it. -/
theorem mergeLocations_opcode_at {p : ConfPhase} (hp : p.isOpcode) {pagesize : Nat}
    {k : LevelKind} {t : Levels Level} (ht : AllRead k t) {prev : LocConf}
    {above path : List Level} {ls : Levels Level}
    (hat : Levels.At above (mergeLocations pagesize prev t).2 path ls) :
    ∃ level outer, path = level :: outer ∧
      level.conf.phase p =
        opcodePhase p level.text.directives (ls.last?.map (·.text.directives)) ∧
      ∀ ds ∈ ls.last?.map (·.text.directives), Accepted p ds := by
  induction t generalizing k prev above with
  | nil => exact nomatch hat
  | cons level inner rest ihinner ihrest =>
    obtain ⟨hlevel, hinner, hrest⟩ := ht
    rw [mergeLocations_cons] at hat
    cases hat with
    | here =>
      refine ⟨_, above, rfl, ?_, mergeLocations_last_accepted hinner⟩
      rw [mergeLocations_last, mergeLocations_opcode hp hinner,
        (mergeLocConf_opcode hp _ _ _ _).2, hlevel.phase]
      cases inner.last? <;> rfl
    | inner hat => exact ihinner hinner hat
    | rest hat => exact ihrest hrest hat

/-! ## Loading -/

/-- Loading reads all levels and merges the servers into the outermost record. -/
theorem Configuration.load_cases {c : Configuration} {m : MainConf} {t : Levels Level}
    (h : c.load = some (m, t)) :
    ∃ (main : Level) (servers : Levels Level), main.text = c.main ∧ main.Read .main ∧
      AllRead .server servers ∧
      t = .cons ⟨main.text, (mergeLocations c.pagesize main.conf servers).1⟩
        (mergeLocations c.pagesize main.conf servers).2 .nil := by
  obtain ⟨⟨m₁, main⟩, hmain, h⟩ := Option.bind_eq_some_iff.mp h
  obtain ⟨⟨m₂, servers⟩, hservers, h⟩ := Option.bind_eq_some_iff.mp h
  have htext : main.text = c.main := by
    obtain ⟨ml, -, heq⟩ := Option.map_eq_some_iff.mp hmain
    rw [← (Prod.mk.inj heq).2]
  exact ⟨main, servers, htext, readLevel_read hmain, readLevels_read hservers,
    (Prod.mk.inj (Option.some.inj h)).2.symm⟩

end NgxPhp
