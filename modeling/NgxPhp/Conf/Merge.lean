import NgxPhp.Conf.Level

/-!
# Merging the levels of a configuration

nginx merges the record of the `http` level into those of the servers, and each
record into those of the locations inside, before it goes on to the next one
beside. Each merge may change both records.
-/

namespace NgxPhp

/-- A conditional of `ngx_http_php_merge_loc_conf`: an unset code is the one of the parent. -/
def inheritCode (conf prev : Option PhpCode) : Option PhpCode :=
  match conf with
  | none => prev
  | some c => some c

/-- The merge of the fields of a phase into those of the child. The handler goes with the
inline code. -/
def mergePhase (prev conf : PhaseConf) : PhaseConf :=
  { conf with
    code := inheritCode conf.code prev.code
    inlineCode := inheritCode conf.inlineCode prev.inlineCode
    handler := if conf.inlineCode = none then prev.handler else conf.handler }

/-- `ngx_http_php_merge_loc_conf`, with the root of the child's level and `ngx_pagesize`:
the parent and the child. -/
def mergeLocConf (root : Bytes) (pagesize : Nat) (prev conf : LocConf) : LocConf × LocConf :=
  ({ prev with
     phase := fun p =>
       if p.isOpcode then { prev.phase p with inlineCode := (conf.phase p).inlineCode }
       else
         { prev.phase p with enabledInlineCompile := (conf.phase p).enabledInlineCompile } },
   { documentRoot := root
     phase := fun p =>
       if p.isOpcode then conf.phase p else mergePhase (prev.phase p) (conf.phase p)
     bufferSize := some (conf.bufferSize.getD (prev.bufferSize.getD pagesize)) })

/-- Levels beside each other, each with the levels inside it. -/
inductive Levels (α : Type)
  | nil
  | cons (level : α) (inner rest : Levels α)

/-- A level as it stands in the configuration. -/
structure LevelText where
  root : Bytes := []
  directives : List Directive

/-- A level with its record. -/
structure Level where
  text : LevelText
  conf : LocConf

/-- What nginx does with the text: records are made and filled by the directives. -/
def readLevel (k : LevelKind) (m : MainConf) (t : LevelText) : Option (MainConf × Level) :=
  (applyAll k t.directives m createLocConf).map fun ml => (ml.1, ⟨t, ml.2⟩)

/-- The levels inside a level. -/
def LevelKind.inner : LevelKind → LevelKind
  | .main => .server
  | .server | .location => .location

def readLevels (k : LevelKind) (m : MainConf) :
    Levels LevelText → Option (MainConf × Levels Level)
  | .nil => some (m, .nil)
  | .cons t inner rest => do
    let (m, level) ← readLevel k m t
    let (m, inner) ← readLevels k.inner m inner
    let (m, rest) ← readLevels k m rest
    return (m, .cons level inner rest)

/-- `ngx_http_merge_locations`, and `ngx_http_merge_servers` for the outermost levels: the
record around them and the levels after all merges. -/
def mergeLocations (pagesize : Nat) (prev : LocConf) : Levels Level → LocConf × Levels Level
  | .nil => (prev, .nil)
  | .cons level inner rest =>
    let (prev, conf) := mergeLocConf level.text.root pagesize prev level.conf
    let (conf, inner) := mergeLocations pagesize conf inner
    let (prev, rest) := mergeLocations pagesize prev rest
    (prev, .cons ⟨level.text, conf⟩ inner rest)

/-- A configuration: the directives of the `http` level and the servers. -/
structure Configuration where
  main : LevelText
  servers : Levels LevelText
  pagesize : Nat

/-- Read the configuration and merge the records; the result is the `http` level with all
levels inside it. -/
def Configuration.load (c : Configuration) : Option (MainConf × Levels Level) := do
  let (m, main) ← readLevel .main {} c.main
  let (m, servers) ← readLevels .server m c.servers
  let (conf, servers) := mergeLocations c.pagesize main.conf servers
  return (m, .cons ⟨main.text, conf⟩ servers .nil)

/-- A level, the levels around it (the innermost first) and those inside it. -/
inductive Levels.At {α : Type} : List α → Levels α → List α → Levels α → Prop
  | here (above : List α) (level : α) (inner rest : Levels α) :
    At above (.cons level inner rest) (level :: above) inner
  | inner {above : List α} {level : α} {inner rest : Levels α} {path : List α} {ls : Levels α}
      (h : At (level :: above) inner path ls) : At above (.cons level inner rest) path ls
  | rest {above : List α} {level : α} {inner rest : Levels α} {path : List α} {ls : Levels α}
      (h : At above rest path ls) : At above (.cons level inner rest) path ls

/-- The routine a phase uses and the code pointer that this routine dereferences. -/
def PhaseConf.used (pc : PhaseConf) : Option (HandlerForm × Option PhpCode) :=
  match pc.handler with
  | none => none
  | some .fileHandler => some (.fileHandler, pc.code)
  | some .inlineHandler => some (.inlineHandler, pc.inlineCode)

end NgxPhp
