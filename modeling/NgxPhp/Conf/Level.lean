import Mathlib.Data.List.Basic
import NgxPhp.Conf.Directive

/-!
# What the directives of a level set

A second directive for a phase is refused (or, in block form, ignored), so the
fields of a phase are what the first directive for it has set.
-/

namespace NgxPhp

/-- The routine that a form installs. -/
def Form.handler : Form → HandlerForm
  | .file => .fileHandler
  | .inline | .block => .inlineHandler

/-- The form stores its code in the field for files. -/
def Form.setsFile (p : ConfPhase) : Form → Bool
  | .file => true
  | .inline => false
  | .block => p = .log

/-- The code made of a directive. -/
def Directive.code (d : Directive) (p : ConfPhase) (form : Form) : Option PhpCode :=
  if form.setsFile p then codeFromFile d.input else codeFromString d.input

/-- The fields of the phase once a directive has set them. -/
def PhaseConf.settled (p : ConfPhase) (form : Form) (pc : PhaseConf) (c : PhpCode) : PhaseConf :=
  { (if form.setsFile p then pc.storeCode c else pc.storeInline c) with
    handler := some form.handler }

/-- Code from a file is of that type. -/
theorem codeFromFile_type {inp : DirectiveInput} {c : PhpCode} (h : codeFromFile inp = some c) :
    c.codeType = .file := by
  unfold codeFromFile at h
  split at h
  · split at h
    · exact nomatch h
    · split at h <;> (obtain rfl := Option.some.inj h; rfl)
  · exact nomatch h

/-- Code from a string is of that type. -/
theorem codeFromString_type {inp : DirectiveInput} {c : PhpCode}
    (h : codeFromString inp = some c) : c.codeType = .string := by
  unfold codeFromString at h
  split at h
  · obtain rfl := Option.some.inj h
    rfl
  · exact nomatch h

/-- A handler that is set was none before and has its code. -/
theorem setHandler_ok {p : ConfPhase} {form : HandlerForm} {code : Option PhpCode}
    {store : PhaseConf → PhpCode → PhaseConf} {m m' : MainConf} {l l' : LocConf}
    (h : setHandler p form code store m l = (.ok, m', l')) :
    (l.phase p).handler = none ∧ ∃ c, code = some c ∧
      l' = l.setPhase p { store (l.phase p) c with handler := some form } := by
  unfold setHandler at h
  split at h
  · exact nomatch (Prod.mk.inj h).1
  next hnone =>
    cases code with
    | none => exact nomatch (Prod.mk.inj h).1
    | some c =>
      obtain ⟨-, h⟩ := Prod.mk.inj h
      exact ⟨not_not.mp hnone, c, rfl, (Prod.mk.inj h).2.symm⟩

/-- A duplicated handler changes nothing. -/
theorem setHandler_duplicated {p : ConfPhase} {form : HandlerForm} {code : Option PhpCode}
    {store : PhaseConf → PhpCode → PhaseConf} {m m' : MainConf} {l l' : LocConf}
    (h : setHandler p form code store m l = (.duplicated, m', l')) :
    (l.phase p).handler ≠ none ∧ l' = l := by
  unfold setHandler at h
  split at h
  next hsome => exact ⟨hsome, (Prod.mk.inj (Prod.mk.inj h).2).2.symm⟩
  · cases code <;> exact nomatch (Prod.mk.inj h).1

/-- A block that is done leaves the record as the handler leaves it, or as it was when the
handler refused it. -/
theorem confParse_ok {done : Bool} {p : ConfPhase} {form : HandlerForm}
    {code : DirectiveInput → Option PhpCode} {store : PhaseConf → PhpCode → PhaseConf}
    {m m' : MainConf} {l l' : LocConf} {inp : DirectiveInput}
    (h : confParse done (fun inp => setHandler p form (code inp) store) inp m l =
      (.ok, m', l')) :
    setHandler p form (code inp) store m l = (.ok, m', l') ∨
      (l.phase p).handler ≠ none ∧ l' = l := by
  unfold confParse at h
  dsimp only at h
  rcases hs : setHandler p form (code inp) store m l with ⟨rv, m₁, l₁⟩
  rw [hs] at h
  cases rv with
  | ok =>
    cases done with
    | false => exact nomatch (Prod.mk.inj h).1
    | true => exact Or.inl h
  | error => exact nomatch (Prod.mk.inj h).1
  | duplicated =>
    obtain ⟨hsome, rfl⟩ := setHandler_duplicated hs
    cases done with
    | false => exact nomatch (Prod.mk.inj h).1
    | true => exact Or.inr ⟨hsome, (Prod.mk.inj (Prod.mk.inj h).2).2.symm⟩

/-- What one accepted directive does to a record. -/
inductive Directive.Effect (d : Directive) (l l' : LocConf) : Prop
  | none (h : d.command.phaseForm = none) (hl : l'.phase = l.phase)
  | ignored (p : ConfPhase) (form : Form) (h : d.command.phaseForm = some (p, form))
      (hp : (l.phase p).handler ≠ none) (hl : l' = l)
  | settled (p : ConfPhase) (form : Form) (h : d.command.phaseForm = some (p, form))
      (hp : (l.phase p).handler = none) (c : PhpCode) (hc : d.code p form = some c)
      (hl : l' = l.setPhase p ((l.phase p).settled p form c))

/-- An accepted directive sets the handler of its phase. -/
theorem Directive.set_effect {d : Directive} {m m' : MainConf} {l l' : LocConf}
    (h : d.set m l = (.ok, m', l')) : d.Effect l l' := by
  have hset : ∀ (p : ConfPhase) (form : Form), d.command.phaseForm = some (p, form) →
      (setHandler p form.handler (d.code p form)
        (if form.setsFile p then PhaseConf.storeCode else PhaseConf.storeInline) m l =
          (.ok, m', l') ∨ (l.phase p).handler ≠ none ∧ l' = l) → d.Effect l l' := by
    intro p form hform hor
    rcases hor with hok | ⟨hsome, hl⟩
    · obtain ⟨hnone, c, hc, hl⟩ := setHandler_ok hok
      refine .settled p form hform hnone c hc (hl.trans ?_)
      unfold PhaseConf.settled
      split <;> rfl
    · exact .ignored p form hform hsome hl
  obtain ⟨command, inp, done⟩ := d
  cases command with
  | rewriteByPhpFile => exact hset .rewrite .file rfl (Or.inl h)
  | rewriteByPhp | phpRewrite => exact hset .rewrite .inline rfl (Or.inl h)
  | rewriteByPhpBlock => exact hset .rewrite .block rfl (confParse_ok h)
  | accessByPhpFile => exact hset .access .file rfl (Or.inl h)
  | accessByPhp | phpAccess => exact hset .access .inline rfl (Or.inl h)
  | accessByPhpBlock => exact hset .access .block rfl (confParse_ok h)
  | contentByPhpFile => exact hset .content .file rfl (Or.inl h)
  | contentByPhp | phpContent => exact hset .content .inline rfl (Or.inl h)
  | contentByPhpBlock => exact hset .content .block rfl (confParse_ok h)
  | opcodeByPhp => exact hset .opcode .inline rfl (Or.inl h)
  | stackByPhp => exact hset .stack .inline rfl (Or.inl h)
  | logByPhp | phpLog => exact hset .log .inline rfl (Or.inl h)
  | logByPhpBlock => exact hset .log .block rfl (confParse_ok h)
  | headerFilterByPhp | phpHeaderFilter => exact hset .headerFilter .inline rfl (Or.inl h)
  | headerFilterByPhpBlock => exact hset .headerFilter .block rfl (confParse_ok h)
  | bodyFilterByPhp | phpBodyFilter => exact hset .bodyFilter .inline rfl (Or.inl h)
  | bodyFilterByPhpBlock => exact hset .bodyFilter .block rfl (confParse_ok h)
  | phpSocketBufferSize size =>
    refine .none rfl ?_
    change setBufferSize size m l = _ at h
    unfold setBufferSize at h
    split at h
    · exact nomatch (Prod.mk.inj h).1
    · rw [← (Prod.mk.inj (Prod.mk.inj h).2).2]

/-- An accepted directive is allowed at its level and sets the handler of its phase. -/
theorem Directive.apply_effect {k : LevelKind} {d : Directive} {m m' : MainConf}
    {l l' : LocConf} (h : d.apply k m l = some (m', l')) :
    d.Effect l l' ∧ d.command.allowed k = true := by
  unfold apply at h
  split at h
  next hallowed =>
    rcases hs : d.set m l with ⟨rv, m₁, l₁⟩
    rw [hs] at h
    cases rv with
    | ok =>
      obtain ⟨rfl, rfl⟩ := Prod.mk.inj (Option.some.inj h)
      exact ⟨set_effect hs, hallowed⟩
    | error | duplicated => exact nomatch h
  · exact nomatch h

/-! ## The first directive for a phase -/

/-- The first directive of a level that is for the phase, with its form. -/
def firstFor (p : ConfPhase) : List Directive → Option (Directive × Form)
  | [] => none
  | d :: ds =>
    match d.command.phaseForm with
    | some (q, form) => if q = p then some (d, form) else firstFor p ds
    | none => firstFor p ds

/-- The fields that the directives of a level leave in an empty phase. -/
def ownPhase (p : ConfPhase) (ds : List Directive) : PhaseConf :=
  match firstFor p ds with
  | none => {}
  | some (d, form) =>
    match d.code p form with
    | none => {}
    | some c => PhaseConf.settled p form {} c

/-- Directives are applied one after the other. -/
theorem applyAll_cons {k : LevelKind} {d : Directive} {ds : List Directive} {m m' : MainConf}
    {l l' : LocConf} (h : applyAll k (d :: ds) m l = some (m', l')) :
    ∃ m₁ l₁, d.apply k m l = some (m₁, l₁) ∧ applyAll k ds m₁ l₁ = some (m', l') := by
  obtain ⟨⟨m₁, l₁⟩, hd, hds⟩ := Option.bind_eq_some_iff.mp h
  exact ⟨m₁, l₁, hd, hds⟩

theorem LocConf.setPhase_phase (l : LocConf) (p : ConfPhase) (pc : PhaseConf) :
    (l.setPhase p pc).phase p = pc := if_pos rfl

theorem LocConf.setPhase_ne (l : LocConf) {p q : ConfPhase} (h : q ≠ p) (pc : PhaseConf) :
    (l.setPhase p pc).phase q = l.phase q := if_neg h

/-- A phase that has its handler is not changed any more. -/
theorem applyAll_of_handler {k : LevelKind} {ds : List Directive} {m m' : MainConf}
    {l l' : LocConf} {p : ConfPhase} (h : applyAll k ds m l = some (m', l'))
    (hp : (l.phase p).handler ≠ none) : l'.phase p = l.phase p := by
  induction ds generalizing m l with
  | nil => rw [← (Prod.mk.inj (Option.some.inj h)).2]
  | cons d ds ih =>
    obtain ⟨m₁, l₁, hd, hds⟩ := applyAll_cons h
    have hstep : l₁.phase p = l.phase p := by
      cases (Directive.apply_effect hd).1 with
      | none _ hl => rw [hl]
      | ignored _ _ _ _ hl => rw [hl]
      | settled q form _ hq c _ hl =>
        have hne : p ≠ q := fun he => hp (he ▸ hq)
        rw [hl, LocConf.setPhase_ne l hne]
    rw [ih hds (hstep ▸ hp), hstep]

/-- What the directives of a level leave in an empty phase is set by the first one for it. -/
theorem applyAll_phase {k : LevelKind} {ds : List Directive} {m m' : MainConf}
    {l l' : LocConf} {p : ConfPhase} (h : applyAll k ds m l = some (m', l')) (hl : l.phase p = {}) :
    l'.phase p = ownPhase p ds ∧
      ∀ d form, firstFor p ds = some (d, form) →
        (∃ c, d.code p form = some c) ∧ d.command.phaseForm = some (p, form) ∧
          d.command.allowed k = true := by
  induction ds generalizing m l with
  | nil =>
    obtain rfl := (Prod.mk.inj (Option.some.inj h)).2
    exact ⟨hl, fun _ _ hf => nomatch hf⟩
  | cons d ds ih =>
    obtain ⟨m₁, l₁, hd, hds⟩ := applyAll_cons h
    obtain ⟨heffect, hallowed⟩ := Directive.apply_effect hd
    have hskip : l₁.phase p = {} → firstFor p (d :: ds) = firstFor p ds →
        l'.phase p = ownPhase p (d :: ds) ∧ ∀ d' form, firstFor p (d :: ds) = some (d', form) →
          (∃ c, d'.code p form = some c) ∧ d'.command.phaseForm = some (p, form) ∧
            d'.command.allowed k = true := by
      intro hl₁ hfirst
      rw [ownPhase, hfirst]
      exact ih hds hl₁
    cases heffect with
    | none hform hl₁ => exact hskip (by rw [hl₁, hl]) (by rw [firstFor, hform])
    | ignored q form hform hq hl₁ =>
      have hne : q ≠ p := by
        rintro rfl
        rw [hl] at hq
        exact hq rfl
      exact hskip (by rw [hl₁, hl]) (by rw [firstFor, hform]; exact if_neg hne)
    | settled q form hform hq c hc hl₁ =>
      by_cases hqp : q = p
      · subst hqp
        have hphase : l₁.phase q = PhaseConf.settled q form {} c := by
          rw [hl₁, LocConf.setPhase_phase, hl]
        have hfirst : firstFor q (d :: ds) = some (d, form) := by
          rw [firstFor, hform]
          exact if_pos rfl
        have hhandler : (l₁.phase q).handler ≠ none := by
          rw [hphase]
          exact Option.some_ne_none _
        refine ⟨?_, fun d' form' hf => ?_⟩
        · rw [applyAll_of_handler hds hhandler, hphase, ownPhase, hfirst]
          dsimp only
          rw [hc]
        · obtain ⟨rfl, rfl⟩ := Prod.mk.inj (Option.some.inj (hfirst.symm.trans hf))
          exact ⟨⟨c, hc⟩, hform, hallowed⟩
      · exact hskip (by rw [hl₁, LocConf.setPhase_ne l (Ne.symm hqp), hl])
          (by rw [firstFor, hform]; exact if_neg hqp)

end NgxPhp
