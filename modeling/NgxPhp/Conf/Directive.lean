import NgxPhp.Nginx.Cycle

/-!
# The directives of a location record

Every phase has a handler and up to two codes, for a file and for an inline
script. The functions that the directives name differ in the phase, in the code
they set and in the handler they install.
-/

namespace NgxPhp

/-- The phases with fields of their own in `ngx_http_php_loc_conf_t`. -/
inductive ConfPhase
  | rewrite
  | access
  | content
  | opcode
  | stack
  | log
  | headerFilter
  | bodyFilter
  deriving DecidableEq, Repr

/-- The phases that have no file form and that are not merged from the parent. -/
def ConfPhase.isOpcode (p : ConfPhase) : Prop := p = .opcode ∨ p = .stack

instance ConfPhase.decidableIsOpcode (p : ConfPhase) : Decidable p.isOpcode :=
  inferInstanceAs (Decidable (_ ∨ _))

inductive CodeType
  | file
  | string
  deriving DecidableEq, Repr

/-- `ngx_http_php_code_t`. -/
structure PhpCode where
  codeType : CodeType
  text : Bytes
  codeId : Nat
  deriving DecidableEq, Repr

/-- The routines that a handler pointer of a phase may name. -/
inductive HandlerForm
  | fileHandler
  | inlineHandler
  deriving DecidableEq, Repr

/-- The fields of one phase; `none` is `NGX_CONF_UNSET_PTR` for a code and `NULL` for a
handler. -/
structure PhaseConf where
  code : Option PhpCode := none
  inlineCode : Option PhpCode := none
  handler : Option HandlerForm := none
  enabledInlineCompile : Bool := false
  deriving DecidableEq, Repr

/-- `ngx_http_php_loc_conf_t`. -/
structure LocConf where
  documentRoot : Bytes := []
  phase : ConfPhase → PhaseConf := fun _ => {}
  bufferSize : Option Nat := none

/-- The flags of `ngx_http_php_main_conf_t` that the directives set. -/
structure MainConf where
  enabled : ConfPhase → Bool := fun _ => false

/-- `ngx_http_php_create_loc_conf`. -/
def createLocConf : LocConf := {}

/-- What a directive is given by nginx and the allocator: its argument, whether memory is
to be had, the random number for the code and the prefix of configuration files. -/
structure DirectiveInput where
  value : Bytes
  allocated : Bool := true
  codeId : Nat := 0
  confPrefix : Bytes := []
  deriving DecidableEq, Repr

/-- What `ngx_strlen` and `ngx_cpystrn` see of the argument. -/
def DirectiveInput.text (inp : DirectiveInput) : Bytes := inp.value.takeWhile (· ≠ 0)

/-- `ngx_http_php_code_from_file`; `/` and `$` begin a path that is taken as it is. -/
def codeFromFile (inp : DirectiveInput) : Option PhpCode :=
  if inp.allocated then
    match inp.text with
    | [] => none
    | b :: path =>
      if b = 47 ∨ b = 36 then some ⟨.file, b :: path, inp.codeId⟩
      else some ⟨.file, inp.confPrefix ++ b :: path, inp.codeId⟩
  else none

/-- `ngx_http_php_code_from_string`. -/
def codeFromString (inp : DirectiveInput) : Option PhpCode :=
  if inp.allocated then some ⟨.string, inp.text, inp.codeId⟩ else none

/-- What a directive returns: `NGX_CONF_OK`, `NGX_CONF_ERROR` or a message. -/
inductive ConfRv
  | ok
  | error
  | duplicated
  deriving DecidableEq, Repr

def LocConf.setPhase (l : LocConf) (p : ConfPhase) (pc : PhaseConf) : LocConf :=
  { l with phase := fun q => if q = p then pc else l.phase q }

def MainConf.enable (m : MainConf) (p : ConfPhase) : MainConf :=
  { m with enabled := fun q => q = p || m.enabled q }

/-- The body of the functions that set a code of the phase and its handler. -/
def setHandler (p : ConfPhase) (form : HandlerForm) (code : Option PhpCode)
    (store : PhaseConf → PhpCode → PhaseConf) (m : MainConf) (l : LocConf) :
    ConfRv × MainConf × LocConf :=
  if (l.phase p).handler ≠ none then (.duplicated, m, l)
  else
    match code with
    | none => (.error, m, l)
    | some c => (.ok, m.enable p, l.setPhase p { store (l.phase p) c with handler := some form })

def PhaseConf.storeCode (pc : PhaseConf) (c : PhpCode) : PhaseConf := { pc with code := some c }

def PhaseConf.storeInline (pc : PhaseConf) (c : PhpCode) : PhaseConf :=
  { pc with inlineCode := some c }

/-- The functions of the file forms; `post` is the handler of the command. -/
def filePhase (p : ConfPhase) (post : Option HandlerForm) (inp : DirectiveInput) (m : MainConf)
    (l : LocConf) : ConfRv × MainConf × LocConf :=
  match post with
  | none => (.error, m, l)
  | some form => setHandler p form (codeFromFile inp) PhaseConf.storeCode m l

/-- The functions of the inline forms. -/
def inlinePhase (p : ConfPhase) (post : Option HandlerForm) (inp : DirectiveInput) (m : MainConf)
    (l : LocConf) : ConfRv × MainConf × LocConf :=
  match post with
  | none => (.error, m, l)
  | some form => setHandler p form (codeFromString inp) PhaseConf.storeInline m l

def rewritePhase := filePhase .rewrite
def accessPhase := filePhase .access
def contentPhase := filePhase .content
def rewriteInlinePhase := inlinePhase .rewrite
def accessInlinePhase := inlinePhase .access
def contentInlinePhase := inlinePhase .content
def opcodeInlinePhase := inlinePhase .opcode
def stackInlinePhase := inlinePhase .stack
def logInlinePhase := inlinePhase .log
def headerFilterInlinePhase := inlinePhase .headerFilter
def bodyFilterInlinePhase := inlinePhase .bodyFilter

/-- The block handlers but the one of the log phase. -/
def blockPhaseHandler (p : ConfPhase) (inp : DirectiveInput) (m : MainConf) (l : LocConf) :
    ConfRv × MainConf × LocConf :=
  setHandler p .inlineHandler (codeFromString inp) PhaseConf.storeInline m l

def rewriteBlockPhaseHandler := blockPhaseHandler .rewrite
def accessBlockPhaseHandler := blockPhaseHandler .access
def contentBlockPhaseHandler := blockPhaseHandler .content
def headerFilterBlockPhaseHandler := blockPhaseHandler .headerFilter
def bodyFilterBlockPhaseHandler := blockPhaseHandler .bodyFilter

/-- `ngx_http_php_log_block_phase_handler` takes the text for the name of a file and stores
the code in `log_code`. -/
def logBlockPhaseHandler (inp : DirectiveInput) (m : MainConf) (l : LocConf) :
    ConfRv × MainConf × LocConf :=
  setHandler .log .inlineHandler (codeFromFile inp) PhaseConf.storeCode m l

/-- `ngx_php_conf_parse` on a block: the handler is called in any case, and of its results
only `NGX_CONF_ERROR` counts; `blockDone` tells that the reader found the end. -/
def confParse (blockDone : Bool)
    (handler : DirectiveInput → MainConf → LocConf → ConfRv × MainConf × LocConf)
    (inp : DirectiveInput) (m : MainConf) (l : LocConf) : ConfRv × MainConf × LocConf :=
  let (rv, m, l) := handler inp m l
  if rv = .error then (.error, m, l)
  else if blockDone = false then (.error, m, l)
  else (.ok, m, l)

/-- The directives that set fields of a location record. -/
inductive Command
  | rewriteByPhpFile
  | rewriteByPhp
  | phpRewrite
  | rewriteByPhpBlock
  | accessByPhpFile
  | accessByPhp
  | phpAccess
  | accessByPhpBlock
  | contentByPhpFile
  | contentByPhp
  | phpContent
  | contentByPhpBlock
  | opcodeByPhp
  | stackByPhp
  | logByPhp
  | phpLog
  | logByPhpBlock
  | headerFilterByPhp
  | phpHeaderFilter
  | headerFilterByPhpBlock
  | bodyFilterByPhp
  | phpBodyFilter
  | bodyFilterByPhpBlock
  | phpSocketBufferSize (size : Nat)
  deriving DecidableEq, Repr

/-- A directive of the configuration; `blockDone` is about block forms only. -/
structure Directive where
  command : Command
  input : DirectiveInput
  blockDone : Bool := true
  deriving DecidableEq, Repr

/-- The levels at which directives may stand. -/
inductive LevelKind
  | main
  | server
  | location
  deriving DecidableEq, Repr

/-- The block forms are for locations (and `if` in locations) only. -/
def Command.allowed : Command → LevelKind → Bool
  | .rewriteByPhpBlock, k | .accessByPhpBlock, k | .contentByPhpBlock, k | .logByPhpBlock, k
  | .headerFilterByPhpBlock, k | .bodyFilterByPhpBlock, k => k = .location
  | _, _ => true

/-- `ngx_conf_set_size_slot` for `buffer_size`. -/
def setBufferSize (size : Nat) (m : MainConf) (l : LocConf) : ConfRv × MainConf × LocConf :=
  if l.bufferSize ≠ none then (.duplicated, m, l)
  else (.ok, m, { l with bufferSize := some size })

/-- The functions and handlers in `ngx_http_php_commands`. -/
def Directive.set (d : Directive) : MainConf → LocConf → ConfRv × MainConf × LocConf :=
  match d.command with
  | .rewriteByPhpFile => rewritePhase (some .fileHandler) d.input
  | .rewriteByPhp | .phpRewrite => rewriteInlinePhase (some .inlineHandler) d.input
  | .rewriteByPhpBlock => confParse d.blockDone rewriteBlockPhaseHandler d.input
  | .accessByPhpFile => accessPhase (some .fileHandler) d.input
  | .accessByPhp | .phpAccess => accessInlinePhase (some .inlineHandler) d.input
  | .accessByPhpBlock => confParse d.blockDone accessBlockPhaseHandler d.input
  | .contentByPhpFile => contentPhase (some .fileHandler) d.input
  | .contentByPhp | .phpContent => contentInlinePhase (some .inlineHandler) d.input
  | .contentByPhpBlock => confParse d.blockDone contentBlockPhaseHandler d.input
  | .opcodeByPhp => opcodeInlinePhase (some .inlineHandler) d.input
  | .stackByPhp => stackInlinePhase (some .inlineHandler) d.input
  | .logByPhp | .phpLog => logInlinePhase (some .inlineHandler) d.input
  | .logByPhpBlock => confParse d.blockDone logBlockPhaseHandler d.input
  | .headerFilterByPhp | .phpHeaderFilter =>
    headerFilterInlinePhase (some .inlineHandler) d.input
  | .headerFilterByPhpBlock => confParse d.blockDone headerFilterBlockPhaseHandler d.input
  | .bodyFilterByPhp | .phpBodyFilter => bodyFilterInlinePhase (some .inlineHandler) d.input
  | .bodyFilterByPhpBlock => confParse d.blockDone bodyFilterBlockPhaseHandler d.input
  | .phpSocketBufferSize size => setBufferSize size

/-- One directive at a level: a directive in the wrong place, an error and a message end
the reading of the configuration. -/
def Directive.apply (k : LevelKind) (d : Directive) (m : MainConf) (l : LocConf) :
    Option (MainConf × LocConf) :=
  if d.command.allowed k then
    match d.set m l with
    | (.ok, m, l) => some (m, l)
    | _ => none
  else none

/-- The directives of a level, on a new record. -/
def applyAll (k : LevelKind) (ds : List Directive) (m : MainConf) (l : LocConf) :
    Option (MainConf × LocConf) :=
  ds.foldlM (fun ml d => d.apply k ml.1 ml.2) (m, l)

/-! ## What a directive is about -/

/-- The three forms of a directive for a phase. -/
inductive Form
  | file
  | inline
  | block
  deriving DecidableEq, Repr

/-- The phase and the form of a directive that sets a handler. -/
def Command.phaseForm : Command → Option (ConfPhase × Form)
  | .rewriteByPhpFile => some (.rewrite, .file)
  | .rewriteByPhp | .phpRewrite => some (.rewrite, .inline)
  | .rewriteByPhpBlock => some (.rewrite, .block)
  | .accessByPhpFile => some (.access, .file)
  | .accessByPhp | .phpAccess => some (.access, .inline)
  | .accessByPhpBlock => some (.access, .block)
  | .contentByPhpFile => some (.content, .file)
  | .contentByPhp | .phpContent => some (.content, .inline)
  | .contentByPhpBlock => some (.content, .block)
  | .opcodeByPhp => some (.opcode, .inline)
  | .stackByPhp => some (.stack, .inline)
  | .logByPhp | .phpLog => some (.log, .inline)
  | .logByPhpBlock => some (.log, .block)
  | .headerFilterByPhp | .phpHeaderFilter => some (.headerFilter, .inline)
  | .headerFilterByPhpBlock => some (.headerFilter, .block)
  | .bodyFilterByPhp | .phpBodyFilter => some (.bodyFilter, .inline)
  | .bodyFilterByPhpBlock => some (.bodyFilter, .block)
  | .phpSocketBufferSize _ => none

end NgxPhp
