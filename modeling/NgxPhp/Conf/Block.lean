import NgxPhp.Conf.Directive
import NgxPhp.Conf.Scanner

/-!
# Block directives

A block directive reads its block and calls the handler of its phase on the first argument, whatever
the reader has returned. After a reading that failed the array still holds what it held before, the
name of the directive. Of what the handler returns only `NGX_CONF_ERROR` counts.
-/

namespace NgxPhp

/-- The phases whose code in a location may be a block. -/
inductive BlockPhase
  | rewrite
  | access
  | content
  | log
  | headerFilter
  | bodyFilter
  deriving DecidableEq, Repr

namespace BlockPhase

/-- The fields that the directive sets. -/
def phase : BlockPhase → ConfPhase
  | .rewrite => .rewrite
  | .access => .access
  | .content => .content
  | .log => .log
  | .headerFilter => .headerFilter
  | .bodyFilter => .bodyFilter

/-- `cf->handler`. -/
def handler : BlockPhase → DirectiveInput → MainConf → LocConf → ConfRv × MainConf × LocConf
  | .rewrite => rewriteBlockPhaseHandler
  | .access => accessBlockPhaseHandler
  | .content => contentBlockPhaseHandler
  | .log => logBlockPhaseHandler
  | .headerFilter => headerFilterBlockPhaseHandler
  | .bodyFilter => bodyFilterBlockPhaseHandler

/-- What the handler makes of its argument. -/
def code (b : BlockPhase) (inp : DirectiveInput) : Option PhpCode :=
  if b = .log then codeFromFile inp else codeFromString inp

/-- The field that it stores it in. -/
def store (b : BlockPhase) : PhaseConf → PhpCode → PhaseConf :=
  if b = .log then PhaseConf.storeCode else PhaseConf.storeInline

theorem handler_eq (b : BlockPhase) (inp : DirectiveInput) (m : MainConf) (l : LocConf) :
    b.handler inp m l = setHandler b.phase .inlineHandler (b.code inp) b.store m l := by
  cases b <;> rfl

/-- What is made of `value[0]`, whose `data` may be `NULL`; nothing comes of following it. -/
def codeOf (b : BlockPhase) (value : Option Bytes) (inp : DirectiveInput) :
    Option (Option PhpCode) :=
  match value with
  | some value => some (b.code { inp with value })
  | none => if inp.allocated then none else some none

/-- The handler of the phase, on `value[0]`. It looks at it only where the phase has no handler. -/
def handle (b : BlockPhase) (value : Option Bytes) (inp : DirectiveInput) (m : MainConf)
    (l : LocConf) : Option (ConfRv × MainConf × LocConf) :=
  if (l.phase b.phase).handler ≠ none then some (.duplicated, m, l)
  else (b.codeOf value inp).map fun code => setHandler b.phase .inlineHandler code b.store m l

theorem handle_some (b : BlockPhase) (value : Bytes) (inp : DirectiveInput) (m : MainConf)
    (l : LocConf) :
    b.handle (some value) inp m l = some (b.handler { inp with value } m l) := by
  unfold handle
  rw [handler_eq]
  by_cases h : (l.phase b.phase).handler ≠ none
  · rw [if_pos h]
    unfold setHandler
    rw [if_pos h]
  · rw [if_neg h]
    rfl

end BlockPhase

/-- `cf->args->elts` as the handlers of the phases look at it. -/
def ConfArgs.value (a : ConfArgs) : Option Bytes := a.elts.head?.bind (·.data)

/-- `ngx_php_conf_parse` behind the reader; `inFile` tells that the directive is in a file, not an
argument of the command line. -/
def ngxPhpConfParse (inFile : Bool) (b : BlockPhase) (read : TokenRead) (inp : DirectiveInput)
    (m : MainConf) (l : LocConf) : Option (ConfRv × MainConf × LocConf) :=
  let failed :=
    match read.rc with
    | .error => true
    | .blockDone => !inFile
    | .fileDone => inFile
  (b.handle read.conf.args.value inp m l).map fun (rv, m, l) =>
    if rv = .error then (.error, m, l)
    else if failed then (.error, m, l)
    else (.ok, m, l)

/-- The functions of the block directives, such as `ngx_http_php_content_block_phase`. No result is
a reader that does not end, or a pointer that is followed though it is `NULL`. -/
def blockPhase (b : BlockPhase) (io : ConfIo) (conf : ConfFile) (inp : DirectiveInput)
    (m : MainConf) (l : LocConf) : Option (ConfRv × MainConf × LocConf) :=
  (ngxPhpConfReadToken io conf).bind fun read => ngxPhpConfParse true b read inp m l

/-- Where the argument is there the directive does what its definition on complete arguments says.
-/
theorem ngxPhpConfParse_confParse (b : BlockPhase) {read : TokenRead} {value : Bytes}
    (h : read.conf.args.value = some value) (inp : DirectiveInput) (m : MainConf) (l : LocConf) :
    ngxPhpConfParse true b read inp m l =
      some (confParse (read.rc = .blockDone) b.handler { inp with value } m l) := by
  unfold ngxPhpConfParse confParse
  rw [h, BlockPhase.handle_some]
  generalize b.handler { inp with value } m l = r
  obtain ⟨rv, m', l'⟩ := r
  cases read.rc <;> cases rv <;> rfl

/-- The code of a block is its text, as the configuration file has it. -/
theorem blockPhase_code {b : BlockPhase} (hb : b ≠ .log) {content : Bytes} {io : ConfIo}
    {conf : ConfFile} (hio : io.Works content) (hzero : 0 ∉ content) (h : conf.Reads content)
    {t rest : Bytes} (htext : conf.buffer.unread content = t ++ closeBrace :: rest)
    (ht : Balanced t) (hlen : t.length ≤ 4095) {inp : DirectiveInput} (hinp : inp.allocated = true)
    {m : MainConf} {l : LocConf} (hl : (l.phase b.phase).handler = none) :
    ∃ l', blockPhase b io conf inp m l = some (.ok, m.enable b.phase, l') ∧
      (l'.phase b.phase).inlineCode = some ⟨.string, t, inp.codeId⟩ := by
  obtain ⟨r, hread, hr⟩ := ngxPhpConfReadToken_is hio hzero h
  obtain ⟨hrc, -, hargs, -⟩ := (hr.readsBlock h).done t rest htext ht hlen
  have hvalue : r.conf.args.value = some (t ++ [0]) := by
    unfold ConfArgs.value
    rw [hargs]
    rfl
  have hzt : 0 ∉ t := by
    intro hmem
    have hunread : 0 ∈ conf.buffer.unread content := htext ▸ List.mem_append_left _ hmem
    rw [← h.window.drop_position] at hunread
    exact hzero (List.mem_of_mem_drop hunread)
  have hcode : b.code { inp with value := t ++ [0] } = some ⟨.string, t, inp.codeId⟩ := by
    have hstring : (t ++ [0]).takeWhile (· ≠ 0) = t := by
      rw [List.takeWhile_append_of_pos fun c hc => decide_eq_true (ne_of_mem_of_not_mem hc hzt)]
      exact List.append_nil t
    unfold BlockPhase.code codeFromString DirectiveInput.text
    rw [if_neg hb, if_pos hinp, hstring]
  refine ⟨l.setPhase b.phase { b.store (l.phase b.phase) ⟨.string, t, inp.codeId⟩ with
    handler := some .inlineHandler }, ?_, ?_⟩
  · unfold blockPhase
    rw [hread, Option.bind_some, ngxPhpConfParse_confParse b hvalue, hrc]
    unfold confParse
    rw [BlockPhase.handler_eq, hcode]
    unfold setHandler
    rw [if_neg (not_not.mpr hl)]
    rfl
  · unfold LocConf.setPhase BlockPhase.store
    rw [if_neg hb]
    dsimp only
    rw [if_pos rfl]
    rfl

/-! ## What a directive reports -/

/-- A directive returns `NGX_CONF_OK` just if the block was read and its handler returned that;
otherwise it returns an error and the fields of the phase are as they were. -/
def ReportsFailure (b : BlockPhase) (read : TokenRead) (inp : DirectiveInput) (m : MainConf)
    (l : LocConf) : Prop :=
  ∃ handled result, b.handle read.conf.args.value inp m l = some handled ∧
    ngxPhpConfParse true b read inp m l = some result ∧
    (result.1 = .ok ↔ read.rc = .blockDone ∧ handled.1 = .ok) ∧
    (¬ (read.rc = .blockDone ∧ handled.1 = .ok) →
      result.1 = .error ∧ result.2.2.phase b.phase = l.phase b.phase)

/-- A block that is read is for a phase without a handler, and where the reading fails the phase has
one already or nothing can be made of what the array holds. -/
def ReadInPlace (b : BlockPhase) (read : TokenRead) (inp : DirectiveInput) (l : LocConf) : Prop :=
  if read.rc = .blockDone then
    (l.phase b.phase).handler = none ∧ b.codeOf read.conf.args.value inp ≠ none
  else
    (l.phase b.phase).handler ≠ none ∨ b.codeOf read.conf.args.value inp = some none

namespace BlockPhase

variable {b : BlockPhase} {value : Option Bytes} {inp : DirectiveInput} {m : MainConf} {l : LocConf}

theorem handle_duplicated (h : (l.phase b.phase).handler ≠ none) :
    b.handle value inp m l = some (.duplicated, m, l) := if_pos h

theorem handle_error (h : (l.phase b.phase).handler = none) (hc : b.codeOf value inp = some none) :
    b.handle value inp m l = some (.error, m, l) := by
  unfold handle setHandler
  rw [if_neg (not_not.mpr h), hc, Option.map_some, if_neg (not_not.mpr h)]

/-- The handler of the phase is set, which was not there. -/
theorem handle_ok (h : (l.phase b.phase).handler = none) {c : PhpCode}
    (hc : b.codeOf value inp = some (some c)) :
    ∃ m' l', b.handle value inp m l = some (.ok, m', l') ∧
      l'.phase b.phase ≠ l.phase b.phase := by
  refine ⟨m.enable b.phase,
    l.setPhase b.phase { b.store (l.phase b.phase) c with handler := some .inlineHandler }, ?_,
    fun hsame => ?_⟩
  · unfold handle setHandler
    rw [if_neg (not_not.mpr h), hc, Option.map_some, if_neg (not_not.mpr h)]
  · have hhandler := congrArg PhaseConf.handler hsame
    unfold LocConf.setPhase at hhandler
    dsimp only at hhandler
    rw [if_pos rfl, h] at hhandler
    cases hhandler

theorem handle_none (h : (l.phase b.phase).handler = none) (hc : b.codeOf value inp = none) :
    b.handle value inp m l = none := by
  unfold handle
  rw [if_neg (not_not.mpr h), hc]
  rfl

end BlockPhase

/-- The three channels of errors come together. -/
theorem ngxPhpConfParse_eq {b : BlockPhase} {read : TokenRead} {inp : DirectiveInput} {m : MainConf}
    {l : LocConf} {rv : ConfRv} {m' : MainConf} {l' : LocConf}
    (h : b.handle read.conf.args.value inp m l = some (rv, m', l')) :
    ngxPhpConfParse true b read inp m l =
      some (if rv ≠ .error ∧ read.rc = .blockDone then .ok else .error, m', l') := by
  unfold ngxPhpConfParse
  rw [h]
  cases read.rc <;> cases rv <;> rfl

/-- What the directive reports of the answer of its handler. -/
theorem reportsFailure_iff {b : BlockPhase} {read : TokenRead} {inp : DirectiveInput} {m : MainConf}
    {l : LocConf} {rv : ConfRv} {m' : MainConf} {l' : LocConf}
    (h : b.handle read.conf.args.value inp m l = some (rv, m', l')) :
    ReportsFailure b read inp m l ↔
      (rv ≠ .error ∧ read.rc = .blockDone ↔ read.rc = .blockDone ∧ rv = .ok) ∧
        (¬ (read.rc = .blockDone ∧ rv = .ok) → l'.phase b.phase = l.phase b.phase) := by
  have hparse := ngxPhpConfParse_eq h
  have hok {c : Prop} [Decidable c] : (if c then ConfRv.ok else .error) = .ok ↔ c := by
    by_cases hc : c
    · rw [if_pos hc]
      exact iff_of_true rfl hc
    · rw [if_neg hc]
      exact iff_of_false ConfRv.noConfusion hc
  constructor
  · rintro ⟨handled, result, hhandled, hresult, hret, helse⟩
    cases h.symm.trans hhandled
    cases hparse.symm.trans hresult
    exact ⟨hok.symm.trans hret, fun hno => (helse hno).2⟩
  · rintro ⟨hret, hsame⟩
    refine ⟨_, _, h, hparse, hok.trans hret, fun hno => ⟨?_, hsame hno⟩⟩
    exact if_neg fun hc => hno (hret.mp hc)

/-- A directive reports failure just where a failed reading sets nothing and a block that is read is
the first one of its phase. -/
theorem blockDirective_reportsFailure_iff (b : BlockPhase) (read : TokenRead) (inp : DirectiveInput)
    (m : MainConf) (l : LocConf) :
    ReportsFailure b read inp m l ↔ ReadInPlace b read inp l := by
  unfold ReadInPlace
  by_cases hhandler : (l.phase b.phase).handler = none
  · cases hcode : b.codeOf read.conf.args.value inp with
    | none =>
      -- the handler of the phase follows `NULL`
      refine iff_of_false ?_ ?_
      · rintro ⟨handled, -, hhandled, -⟩
        rw [BlockPhase.handle_none hhandler hcode] at hhandled
        cases hhandled
      · split
        · exact fun h => h.2 rfl
        · exact fun h => h.elim (fun h => h hhandler) nofun
    | some code =>
      cases code with
      | none =>
        rw [reportsFailure_iff (BlockPhase.handle_error hhandler hcode)]
        refine iff_of_true ⟨?_, fun _ => rfl⟩ ?_
        · exact iff_of_false (fun h => h.1 rfl) fun h => ConfRv.noConfusion h.2
        · split
          · exact ⟨hhandler, Option.some_ne_none _⟩
          · exact Or.inr rfl
      | some c =>
        obtain ⟨m', l', hok, hset⟩ := BlockPhase.handle_ok (m := m) hhandler hcode
        rw [reportsFailure_iff hok]
        by_cases hdone : read.rc = .blockDone
        · rw [if_pos hdone]
          refine iff_of_true ⟨?_, fun hno => absurd ⟨hdone, rfl⟩ hno⟩
            ⟨hhandler, Option.some_ne_none _⟩
          exact iff_of_true ⟨ConfRv.noConfusion, hdone⟩ ⟨hdone, rfl⟩
        · rw [if_neg hdone]
          refine iff_of_false (fun h => hset (h.2 fun hno => hdone hno.1)) ?_
          exact fun h => h.elim (fun h => h hhandler) nofun
  · rw [reportsFailure_iff (BlockPhase.handle_duplicated hhandler)]
    by_cases hdone : read.rc = .blockDone
    · rw [if_pos hdone]
      refine iff_of_false (fun h => ?_) fun h => hhandler h.1
      exact ConfRv.noConfusion (h.1.mp ⟨ConfRv.noConfusion, hdone⟩).2
    · rw [if_neg hdone]
      refine iff_of_true ⟨?_, fun _ => rfl⟩ (Or.inl hhandler)
      exact iff_of_false (fun h => hdone h.2) fun h => hdone h.1

/-- A location with a content handler. -/
def contentLocation : LocConf :=
  createLocConf.setPhase .content { handler := some .inlineHandler }

/-- The file behind a second block for that handler. -/
def secondBlock : ConfFile where
  fileSize := 0
  buffer := ⟨[], 0, 0⟩
  line := 1
  args := { elts := [⟨8, some (literal "echo 1;" ++ [0])⟩], nelts := 1 }

/-- The second block of a phase is passed over in silence. -/
theorem blockDirective_not_reportsFailure :
    ¬ ∀ (b : BlockPhase) (read : TokenRead) (inp : DirectiveInput) (m : MainConf) (l : LocConf),
      ReportsFailure b read inp m l := by
  intro h
  have hcontent := h .content ⟨.blockDone, secondBlock⟩ { value := [] } {} contentLocation
  have hduplicated : BlockPhase.content.handle secondBlock.args.value { value := [] } {}
      contentLocation = some (.duplicated, {}, contentLocation) :=
    BlockPhase.handle_duplicated (Option.some_ne_none _)
  have hok := ((reportsFailure_iff hduplicated).mp hcontent).1.mp ⟨by decide, rfl⟩
  exact ConfRv.noConfusion hok.2

end NgxPhp
