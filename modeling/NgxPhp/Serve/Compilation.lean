import NgxPhp.Lib.Machine
import NgxPhp.Serve.Wrapper

/-!
# Compiling the code of the locations

The functions of a worker are defined once and stay. A location compiles the code of a phase when
the phase first runs there, and keeps a flag that it has; a code that several locations have got
from the level around them is guarded by `function_exists`, since each of them has a flag of its
own. What is called in the end is whatever function has the name. The handlers of opcode and stack
end a request of PHP, which takes the functions away and leaves the flags.
-/

namespace NgxPhp

open StepMachine

/-- The name of the function for a code. -/
def functionName (p : FuncPrefix) (code : InlineCode) : Bytes :=
  p.name.text ++ (literal "_" ++ code.codeId.data)

/-- The text that a routine evaluates. -/
def guardedText (name body : Bytes) : Bytes :=
  literal "if(!function_exists('" ++ (name ++ (literal "'))\x7b function " ++ (name ++
    (literal "()\x7b " ++ (body ++ literal " \x7d \x7d")))))

theorem funcName_written (plcf : FuncPrefix → InlineCode) (p : FuncPrefix) :
    (funcName ngxSprintf plcf p.name).written = functionName p (plcf p) := by
  have hformat : literal "%s_%V" = literal "%s" ++ (literal "_" ++ literal "%V") := by decide
  have hpieces := ngxSprintf_writesPieces
    [.chars p.name, .text (literal "_"), .str (plcf p).codeId.data]
    (by simp [FormatPiece.Plain]; decide)
  rw [funcName_of_name]
  simpa [FormatPiece.format, FormatPiece.args, FormatPiece.output, hformat, functionName]
    using hpieces

/-- A wrapper defines the function whose name `ngx_http_php_zend_uthread_create` writes. -/
theorem inlineWrapper_written {counted format : String} (p : FuncPrefix) (name : String)
    (hformat : format = "if(!function_exists('" ++ name ++ "_%V'))\x7b function " ++ name ++
      "_%V()\x7b %*s \x7d \x7d")
    (hname : literal name = p.name.text) (hplain : 37 ∉ literal name) (code : InlineCode) :
    (inlineWrapper ngxSprintf counted format code).written =
      guardedText (functionName p code) code.string.text := by
  have hsplit : literal "_%V'))\x7b function " =
        literal "_" ++ (literal "%V" ++ literal "'))\x7b function ") ∧
      literal "_%V()\x7b %*s \x7d \x7d" = literal "_" ++
        (literal "%V" ++ (literal "()\x7b " ++ (literal "%*s" ++ literal " \x7d \x7d"))) := by
    decide
  have htexts : 37 ∉ literal "if(!function_exists('" ∧ 37 ∉ literal "_" ∧
      37 ∉ literal "'))\x7b function " ∧ 37 ∉ literal "()\x7b " ∧
      37 ∉ literal " \x7d \x7d" := by
    decide
  have hpieces := ngxSprintf_writesPieces [.text (literal "if(!function_exists('"),
    .text (literal name), .text (literal "_"), .str code.codeId.data,
    .text (literal "'))\x7b function "), .text (literal name), .text (literal "_"),
    .str code.codeId.data, .text (literal "()\x7b "),
    .sized code.string.text.length code.string, .text (literal " \x7d \x7d")]
    (by simp [FormatPiece.Plain, hplain, htexts])
  simpa [FormatPiece.format, FormatPiece.args, FormatPiece.output, inlineWrapper, hformat,
    literal_append, hsplit.1, hsplit.2, guardedText, functionName, hname] using hpieces

theorem wrapper_written (p : FuncPrefix) (code : InlineCode) :
    (wrapper ngxSprintf p code).written =
      guardedText (functionName p code) code.string.text := by
  cases p with
  | ngxRewrite => exact inlineWrapper_written .ngxRewrite "ngx_rewrite" rfl rfl (by decide) code
  | ngxAccess => exact inlineWrapper_written .ngxAccess "ngx_access" rfl rfl (by decide) code
  | ngxContent => exact inlineWrapper_written .ngxContent "ngx_content" rfl rfl (by decide) code
  | ngxLog => exact inlineWrapper_written .ngxLog "ngx_log" rfl rfl (by decide) code
  | ngxHeaderFilter =>
    exact inlineWrapper_written .ngxHeaderFilter "ngx_header_filter" rfl rfl (by decide) code
  | ngxBodyFilter =>
    exact inlineWrapper_written .ngxBodyFilter "ngx_body_filter" rfl rfl (by decide) code

/-! ## The functions of a worker -/

abbrev LocId := Nat

/-- The inline codes of the locations. -/
abbrev LocationCodes := LocId → FuncPrefix → Option InlineCode

/-- What `zend_compile_string` makes of a text. -/
inductive CompileResult
  | compiled
  /-- A syntax error: it is reported, and `ngx_http_php_zend_eval_stringl_ex` returns. -/
  | reported
  /-- Any other error leaves by `zend_bailout`. -/
  | bailedOut
  deriving DecidableEq, Repr

/-- `EG(function_table)` as far as the names of inline codes have bodies, in lower case, the
`enabled_*_inline_compile` flags, and a record of what has been defined and evaluated. -/
structure FunctionTable where
  functions : Bytes → Option Bytes := fun _ => none
  flags : LocId × FuncPrefix → Bool := fun _ => false
  defined : List Bytes := []
  evaluated : List (LocId × FuncPrefix) := []

/-- What becomes of the routine of a phase. -/
inductive Called
  | declined
  /-- The evaluation has left by `zend_bailout`. -/
  | failed
  /-- `ngx_http_php_zend_uthread_create` finds no ctx. -/
  | noCtx
  | undefined
  | body (b : Bytes)
  deriving DecidableEq, Repr

/-- What can happen to the functions of a worker. -/
inductive CompilationStep
  /-- The routine of a phase runs in a location, for a request that has a ctx or has none. -/
  | routine (x : LocId × FuncPrefix) (ctx : Bool)
  /-- A handler of opcode or stack comes to `php_request_shutdown`. -/
  | shutdown

variable (compiles : Bytes → CompileResult) (codes : LocationCodes)

/-- What the evaluation of a guarded text defines. PHP does not tell names apart by case. -/
def FunctionTable.define (t : FunctionTable) (name body : Bytes) : FunctionTable :=
  if compiles body = .compiled ∧ t.functions (ngxStrlow name) = none then
    { t with
      functions := Function.update t.functions (ngxStrlow name) (some body)
      defined := ngxStrlow name :: t.defined }
  else t

/-- The routine of a phase up to `ngx_http_php_zend_uthread_create`, and whether it gets there: a
bailout leaves it before the flag is set. -/
def FunctionTable.compile (t : FunctionTable) (x : LocId × FuncPrefix) (code : InlineCode) :
    Bool × FunctionTable :=
  if t.flags x then (true, t)
  else
    let t := { t.define compiles (functionName x.2 code) code.string.text with
      evaluated := x :: t.evaluated }
    if compiles code.string.text = .bailedOut then (false, t)
    else (true, { t with flags := Function.update t.flags x true })

/-- `ngx_http_php_call_user_function` by the name. -/
def FunctionTable.call (t : FunctionTable) (name : Bytes) : Called :=
  match t.functions (ngxStrlow name) with
  | none => .undefined
  | some b => .body b

/-- The routine of a phase in a location. -/
def FunctionTable.routine (t : FunctionTable) (x : LocId × FuncPrefix) (ctx : Bool) :
    Called × FunctionTable :=
  match codes x.1 x.2 with
  | none => (.declined, t)
  | some code =>
    match t.compile compiles x code with
    | (false, t) => (.failed, t)
    | (true, t) => (if ctx then t.call (functionName x.2 code) else .noCtx, t)

/-- The functions behind a step. -/
def FunctionTable.step (t : FunctionTable) : CompilationStep → FunctionTable
  | .routine x ctx => (t.routine compiles codes x ctx).2
  | .shutdown => { t with functions := fun _ => none }

/-- What the configuration says is to be called. -/
def configured (x : LocId × FuncPrefix) : Called :=
  match codes x.1 x.2 with
  | none => .declined
  | some code =>
    match compiles code.string.text with
    | .compiled => .body code.string.text
    | .reported => .undefined
    | .bailedOut => .failed

/-- A routine calls the code of its location. -/
def FunctionTable.CallsOwn (t : FunctionTable) : CompilationStep → Prop
  | .routine x ctx => (t.routine compiles codes x ctx).1 = configured compiles codes x
  | .shutdown => True

/-- A routine for a request that has a ctx. -/
def CompilationStep.Plain : CompilationStep → Prop
  | .routine _ ctx => ctx = true
  | .shutdown => False

/-- A code that compiles shares its id with its own text only, among the codes of its phase that
get as far as to the call. -/
def Separated : Prop :=
  ∀ (p : FuncPrefix) (l l' : LocId) (code code' : InlineCode), codes l p = some code →
    codes l' p = some code' → compiles code.string.text = .compiled →
    compiles code'.string.text ≠ .bailedOut → SameName code.codeId.data code'.codeId.data →
    code.string.text = code'.string.text

variable {compiles : Bytes → CompileResult} {codes : LocationCodes}

/-! ## Names -/

theorem ngxStrlow_append (s t : Bytes) : ngxStrlow (s ++ t) = ngxStrlow s ++ ngxStrlow t :=
  List.map_append

theorem lower_name (p : FuncPrefix) : ngxStrlow p.name.text = p.name.text := by
  cases p <;> decide

theorem lower_functionName (p : FuncPrefix) (code : InlineCode) :
    ngxStrlow (functionName p code) =
      p.name.text ++ literal "_" ++ ngxStrlow code.codeId.data := by
  rw [functionName, ngxStrlow_append, ngxStrlow_append, lower_name, ← List.append_assoc]
  rfl

/-- A name tells the phase and the id. -/
theorem functionName_inj {p q : FuncPrefix} {code code' : InlineCode}
    (h : ngxStrlow (functionName p code) = ngxStrlow (functionName q code')) :
    p = q ∧ SameName code.codeId.data code'.codeId.data := by
  have hid : ∀ c : InlineCode, (ngxStrlow c.codeId.data).length = 32 := by
    intro c
    exact (length_ngxStrlow _).trans c.codeId.length_data
  rw [lower_functionName, lower_functionName] at h
  obtain ⟨hname, hsame⟩ := List.append_inj' h (by rw [hid, hid])
  constructor
  · cases p <;> cases q <;> first | rfl | exact absurd hname (by decide)
  · exact hsame

/-! ## What holds of the functions -/

/-- The code is that of some location, and its function has this name. -/
def Origin (compiles : Bytes → CompileResult) (codes : LocationCodes) (n b : Bytes) : Prop :=
  ∃ l p code, codes l p = some code ∧ compiles code.string.text = .compiled ∧
    n = ngxStrlow (functionName p code) ∧ b = code.string.text

/-- The code of a location that has its flag. -/
def FunctionTable.Flagged (compiles : Bytes → CompileResult) (codes : LocationCodes)
    (t : FunctionTable) (x : LocId × FuncPrefix) : Prop :=
  ∃ code, codes x.1 x.2 = some code ∧ compiles code.string.text ≠ .bailedOut ∧
    (compiles code.string.text = .compiled →
      t.functions (ngxStrlow (functionName x.2 code)) ≠ none)

/-- The invariant of a worker without opcode and stack: functions are codes of the configuration,
each is defined once, and a location that has its flag has been through its code, which is then
there if it compiles. -/
structure FunctionTable.Inv (compiles : Bytes → CompileResult) (codes : LocationCodes)
    (t : FunctionTable) : Prop where
  origin : ∀ n b, t.functions n = some b → Origin compiles codes n b
  defined : ∀ n, n ∈ t.defined ↔ t.functions n ≠ none
  definedOnce : t.defined.Nodup
  flagged : ∀ x, t.flags x = true → t.Flagged compiles codes x

/-- A code that does not bail out has been evaluated once where it has its flag, and not yet where
it has not. -/
def FunctionTable.EvaluatedOnce (compiles : Bytes → CompileResult) (codes : LocationCodes)
    (t : FunctionTable) : Prop :=
  ∀ (x : LocId × FuncPrefix) (code : InlineCode), codes x.1 x.2 = some code →
    compiles code.string.text ≠ .bailedOut →
      t.evaluated.count x = (t.flags x).toNat

/-- The functions of the one table are in the other. -/
def FunctionTable.Within (t t' : FunctionTable) : Prop :=
  ∀ n b, t.functions n = some b → t'.functions n = some b

/-- A new worker has no functions. -/
theorem FunctionTable.inv_init : Inv compiles codes {} where
  origin _ _ h := nomatch h
  defined _ := ⟨fun h => (nomatch h), fun h => absurd rfl h⟩
  definedOnce := List.nodup_nil
  flagged _ h := nomatch h

/-- A text defines nothing, or a function by its name where there is none. -/
theorem FunctionTable.define_cases (t : FunctionTable) (name body : Bytes) :
    (t.define compiles name body = t ∧
        (compiles body = .compiled → t.functions (ngxStrlow name) ≠ none)) ∨
      compiles body = .compiled ∧ t.functions (ngxStrlow name) = none ∧
        t.define compiles name body = { t with
          functions := Function.update t.functions (ngxStrlow name) (some body)
          defined := ngxStrlow name :: t.defined } := by
  unfold define
  split
  next h => exact Or.inr ⟨h.1, h.2, rfl⟩
  next h => exact Or.inl ⟨rfl, fun hcompiled hnone => h ⟨hcompiled, hnone⟩⟩

/-- No function is taken away or changed by a text. -/
theorem FunctionTable.within_define (t : FunctionTable) (name body : Bytes) :
    t.Within (t.define compiles name body) := by
  intro n b hn
  rcases t.define_cases name body with ⟨h, -⟩ | ⟨-, hnone, h⟩
  · rw [h]
    exact hn
  · have hname : n ≠ ngxStrlow name := by
      rintro rfl
      rw [hn] at hnone
      cases hnone
    rw [h]
    change Function.update t.functions _ _ n = some b
    rw [Function.update_of_ne hname]
    exact hn

/-- Behind its text a code that compiles has a function. -/
theorem FunctionTable.define_there (t : FunctionTable) (name : Bytes) {body : Bytes}
    (hcompiled : compiles body = .compiled) :
    (t.define compiles name body).functions (ngxStrlow name) ≠ none := by
  rcases t.define_cases name body with ⟨h, hthere⟩ | ⟨-, -, h⟩
  · rw [h]
    exact hthere hcompiled
  · rw [h]
    change Function.update t.functions _ _ _ ≠ none
    rw [Function.update_self]
    exact Option.some_ne_none _

/-- A text sets no flag. -/
theorem FunctionTable.flags_define (t : FunctionTable) (name body : Bytes) :
    (t.define compiles name body).flags = t.flags := by
  unfold define
  split <;> rfl

/-- A code with its flag keeps its function. -/
theorem FunctionTable.Flagged.within {t t' : FunctionTable} {x : LocId × FuncPrefix}
    (h : t.Flagged compiles codes x) (hwithin : t.Within t') : t'.Flagged compiles codes x := by
  obtain ⟨code, hcode, hresult, hthere⟩ := h
  refine ⟨code, hcode, hresult, fun hcompiled => ?_⟩
  obtain ⟨b, hb⟩ := Option.ne_none_iff_exists'.mp (hthere hcompiled)
  rw [hwithin _ _ hb]
  exact Option.some_ne_none b

/-- The text of a location's code keeps the invariant. -/
theorem FunctionTable.Inv.define {t : FunctionTable} (ht : t.Inv compiles codes)
    {x : LocId × FuncPrefix} {code : InlineCode} (hcode : codes x.1 x.2 = some code) :
    (t.define compiles (functionName x.2 code) code.string.text).Inv compiles codes := by
  have hwithin : t.Within (t.define compiles (functionName x.2 code) code.string.text) :=
    t.within_define _ _
  have hflags : (t.define compiles (functionName x.2 code) code.string.text).flags = t.flags :=
    t.flags_define _ _
  have hflagged : ∀ y, (t.define compiles (functionName x.2 code) code.string.text).flags y = true →
      (t.define compiles (functionName x.2 code) code.string.text).Flagged compiles codes y :=
    fun y hy => (ht.flagged y (by rwa [hflags] at hy)).within hwithin
  rcases t.define_cases (functionName x.2 code) code.string.text with ⟨h, -⟩ |
    ⟨hcompiled, hnone, h⟩
  · rw [h]
    exact ht
  rw [h] at hflagged ⊢
  refine ⟨fun n b hn => ?_, fun n => ?_, ?_, hflagged⟩
  · change Function.update t.functions _ _ n = some b at hn
    by_cases hname : n = ngxStrlow (functionName x.2 code)
    · subst hname
      rw [Function.update_self] at hn
      exact ⟨x.1, x.2, code, hcode, hcompiled, rfl, (Option.some.inj hn).symm⟩
    · rw [Function.update_of_ne hname] at hn
      exact ht.origin n b hn
  · change n ∈ _ :: t.defined ↔ Function.update t.functions _ _ n ≠ none
    by_cases hname : n = ngxStrlow (functionName x.2 code)
    · subst hname
      rw [Function.update_self]
      exact iff_of_true (List.mem_cons_self ..) (Option.some_ne_none _)
    · rw [Function.update_of_ne hname, List.mem_cons, or_iff_right hname]
      exact ht.defined n
  · exact List.nodup_cons.mpr ⟨fun hmem => (ht.defined _).mp hmem hnone, ht.definedOnce⟩

/-- The flag of a location may be set when its code has been evaluated, and evaluations may be
recorded. -/
theorem FunctionTable.Inv.setFlag {t : FunctionTable} (ht : t.Inv compiles codes)
    {x : LocId × FuncPrefix} (hflagged : t.Flagged compiles codes x)
    (evaluated : List (LocId × FuncPrefix)) :
    ({ t with evaluated, flags := Function.update t.flags x true } : FunctionTable).Inv compiles
      codes := by
  refine ⟨ht.origin, ht.defined, ht.definedOnce, fun y hy => ?_⟩
  change Function.update t.flags x true y = true at hy
  by_cases hyx : y = x
  · exact hyx ▸ hflagged
  · rw [Function.update_of_ne hyx] at hy
    exact ht.flagged y hy

/-- What a compilation comes to: a bailout, or a location with its flag. -/
theorem FunctionTable.compile_spec {t : FunctionTable} (ht : t.Inv compiles codes)
    {x : LocId × FuncPrefix} {code : InlineCode} (hcode : codes x.1 x.2 = some code) :
    (t.compile compiles x code).2.Inv compiles codes ∧ t.Within (t.compile compiles x code).2 ∧
      (compiles code.string.text = .bailedOut ∧ (t.compile compiles x code).1 = false ∨
        compiles code.string.text ≠ .bailedOut ∧ (t.compile compiles x code).1 = true ∧
          (t.compile compiles x code).2.Flagged compiles codes x) := by
  unfold compile
  cases hflag : t.flags x with
  | true =>
    have hflagged := ht.flagged x hflag
    obtain ⟨code', hcode', hresult, -⟩ := id hflagged
    obtain rfl := Option.some.inj (hcode.symm.trans hcode')
    exact ⟨ht, fun _ _ h => h, Or.inr ⟨hresult, rfl, hflagged⟩⟩
  | false =>
    rw [if_neg Bool.false_ne_true]
    have hdefine := ht.define hcode
    have hwithin : t.Within (t.define compiles (functionName x.2 code) code.string.text) :=
      t.within_define _ _
    dsimp only
    split
    next hresult =>
      have hinv : ({ t.define compiles (functionName x.2 code) code.string.text with
          evaluated := x :: t.evaluated } : FunctionTable).Inv compiles codes :=
        ⟨hdefine.origin, hdefine.defined, hdefine.definedOnce, hdefine.flagged⟩
      exact ⟨hinv, hwithin, Or.inl ⟨hresult, rfl⟩⟩
    next hresult =>
      have hflagged : (t.define compiles (functionName x.2 code) code.string.text).Flagged
          compiles codes x :=
        ⟨code, hcode, hresult, fun hcompiled => t.define_there _ hcompiled⟩
      exact ⟨hdefine.setFlag hflagged (x :: t.evaluated), hwithin,
        Or.inr ⟨hresult, rfl, hflagged⟩⟩

/-- What a routine comes to. -/
theorem FunctionTable.routine_cases {t : FunctionTable} (ht : t.Inv compiles codes)
    (x : LocId × FuncPrefix) (ctx : Bool) :
    (codes x.1 x.2 = none ∧ t.routine compiles codes x ctx = (.declined, t)) ∨
      ∃ code t', codes x.1 x.2 = some code ∧ t'.Inv compiles codes ∧ t.Within t' ∧
        (compiles code.string.text = .bailedOut ∧
            t.routine compiles codes x ctx = (.failed, t') ∨
          compiles code.string.text ≠ .bailedOut ∧ t'.Flagged compiles codes x ∧
            t.routine compiles codes x ctx =
              (if ctx then t'.call (functionName x.2 code) else .noCtx, t')) := by
  unfold routine
  cases hcode : codes x.1 x.2 with
  | none => exact Or.inl ⟨rfl, rfl⟩
  | some code =>
    obtain ⟨hinv, hwithin, hcases⟩ := compile_spec ht hcode
    rcases hcompile : t.compile compiles x code with ⟨done, t'⟩
    rw [hcompile] at hinv hwithin hcases
    refine Or.inr ⟨code, t', rfl, hinv, hwithin, ?_⟩
    rcases hcases with ⟨hresult, hdone⟩ | ⟨hresult, hdone, hflagged⟩
    · obtain rfl : done = false := hdone
      exact Or.inl ⟨hresult, by simp only [hcompile]⟩
    · obtain rfl : done = true := hdone
      exact Or.inr ⟨hresult, hflagged, by simp only [hcompile]⟩

/-- A routine keeps the invariant and takes no function away. -/
theorem FunctionTable.routine_keeps {t : FunctionTable} (ht : t.Inv compiles codes)
    (x : LocId × FuncPrefix) (ctx : Bool) :
    (t.routine compiles codes x ctx).2.Inv compiles codes ∧
      t.Within (t.routine compiles codes x ctx).2 := by
  rcases routine_cases ht x ctx with ⟨-, h⟩ | ⟨code, t', -, hinv, hwithin, ⟨-, h⟩ | ⟨-, -, h⟩⟩
  · rw [h]
    exact ⟨ht, fun _ _ hn => hn⟩
  · rw [h]
    exact ⟨hinv, hwithin⟩
  · rw [h]
    exact ⟨hinv, hwithin⟩

/-- A step that takes no functions away keeps the invariant. -/
theorem FunctionTable.step_keeps (t : FunctionTable) (s : CompilationStep)
    (ht : t.Inv compiles codes) (hs : s ≠ .shutdown) :
    (t.step compiles codes s).Inv compiles codes ∧ t.Within (t.step compiles codes s) := by
  cases s with
  | routine x ctx => exact routine_keeps ht x ctx
  | shutdown => exact absurd rfl hs

/-- Where a function has the name, it is called. -/
theorem FunctionTable.call_eq {t : FunctionTable} {name b : Bytes}
    (h : t.functions (ngxStrlow name) = some b) : t.call name = .body b := by
  rw [call, h]

/-- Under its own name a flagged code finds its own text, or no function. -/
theorem FunctionTable.callsOwn_of_separated (hsep : Separated compiles codes) (t : FunctionTable)
    (s : CompilationStep) (ht : t.Inv compiles codes) (hs : s.Plain) :
    t.CallsOwn compiles codes s := by
  cases s with
  | shutdown => trivial
  | routine x ctx =>
    obtain rfl : ctx = true := hs
    change (t.routine compiles codes x true).1 = configured compiles codes x
    unfold configured
    rcases routine_cases ht x true with ⟨hcode, h⟩ | ⟨code, t', hcode, hinv, -, ⟨hresult, h⟩ |
      ⟨hresult, hflagged, h⟩⟩
    · rw [h, hcode]
    · rw [h, hcode]
      dsimp only
      rw [hresult]
    rw [h, hcode, if_pos rfl]
    dsimp only
    obtain ⟨code', hcode', -, hthere⟩ := hflagged
    obtain rfl := Option.some.inj (hcode.symm.trans hcode')
    -- a function under the name is that of a code with the same id
    have hown : ∀ b, t'.functions (ngxStrlow (functionName x.2 code)) = some b →
        compiles b = .compiled ∧ b = code.string.text := by
      intro b hb
      obtain ⟨l', p', code', hcode', hcompiled', hname, rfl⟩ := hinv.origin _ _ hb
      obtain ⟨rfl, hid⟩ := functionName_inj hname
      exact ⟨hcompiled', hsep x.2 l' x.1 code' code hcode' hcode hcompiled' hresult hid.symm⟩
    cases hfunction : t'.functions (ngxStrlow (functionName x.2 code)) with
    | none =>
      cases hcompiled : compiles code.string.text with
      | compiled => exact absurd hfunction (hthere hcompiled)
      | reported => rw [FunctionTable.call, hfunction]
      | bailedOut => exact absurd hcompiled hresult
    | some b =>
      obtain ⟨hcompiled, rfl⟩ := hown b hfunction
      rw [call_eq hfunction, hcompiled]

/-- In a run that takes no functions away a function stays as it is. -/
theorem FunctionTable.within_run {t : FunctionTable} (ht : t.Inv compiles codes)
    {ss : List CompilationStep} (hss : .shutdown ∉ ss) :
    (run (step compiles codes) t ss).Inv compiles codes ∧
      t.Within (run (step compiles codes) t ss) := by
  induction ss generalizing t with
  | nil => exact ⟨ht, fun _ _ hn => hn⟩
  | cons s ss ih =>
    rw [List.mem_cons, not_or] at hss
    obtain ⟨hinv, hwithin⟩ := t.step_keeps s ht (Ne.symm hss.1)
    obtain ⟨hinv', hwithin'⟩ := ih hinv hss.2
    exact ⟨hinv', fun n b hn => hwithin' n b (hwithin n b hn)⟩

/-- A function that is there is what a code by its name calls, if it gets as far. -/
theorem FunctionTable.routine_calls {t : FunctionTable} (ht : t.Inv compiles codes)
    {x : LocId × FuncPrefix} {code : InlineCode} (hcode : codes x.1 x.2 = some code)
    (hresult : compiles code.string.text ≠ .bailedOut) {b : Bytes}
    (hb : t.functions (ngxStrlow (functionName x.2 code)) = some b) :
    (t.routine compiles codes x true).1 = .body b := by
  rcases routine_cases ht x true with ⟨hnone, -⟩ | ⟨code', t', hcode', -, hwithin, hcases⟩
  · rw [hcode] at hnone
    cases hnone
  obtain rfl := Option.some.inj (hcode.symm.trans hcode')
  rcases hcases with ⟨hbailed, -⟩ | ⟨-, -, h⟩
  · exact absurd hbailed hresult
  · rw [h, if_pos rfl]
    exact call_eq (hwithin _ _ hb)

/-- Behind a routine that has called a function the function is there. -/
theorem FunctionTable.routine_leaves {t : FunctionTable} (ht : t.Inv compiles codes)
    {x : LocId × FuncPrefix} {ctx : Bool} {b : Bytes}
    (h : (t.routine compiles codes x ctx).1 = .body b) :
    ∃ code, codes x.1 x.2 = some code ∧ compiles code.string.text ≠ .bailedOut ∧
      (t.routine compiles codes x ctx).2.functions (ngxStrlow (functionName x.2 code)) =
        some b := by
  rcases routine_cases ht x ctx with ⟨-, hr⟩ | ⟨code, t', hcode, -, -, ⟨-, hr⟩ |
    ⟨hresult, -, hr⟩⟩
  · rw [hr] at h
    cases h
  · rw [hr] at h
    cases h
  · rw [hr] at h ⊢
    refine ⟨code, hcode, hresult, ?_⟩
    dsimp only at h
    split at h
    · unfold FunctionTable.call at h
      split at h
      · cases h
      next b' hb' =>
        obtain rfl := Called.body.inj h
        exact hb'
    · cases h

/-! ## The evaluations -/

/-- A step evaluates a code only where it has no flag, and sets the flag unless the code bails
out. -/
theorem FunctionTable.EvaluatedOnce.step {t : FunctionTable}
    (ht : t.EvaluatedOnce compiles codes) (s : CompilationStep) :
    (t.step compiles codes s).EvaluatedOnce compiles codes := by
  cases s with
  | shutdown => exact ht
  | routine x ctx =>
    intro y code hcode hresult
    change (t.routine compiles codes x ctx).2.evaluated.count y =
      ((t.routine compiles codes x ctx).2.flags y).toNat
    have htable : ∀ code', codes x.1 x.2 = some code' →
        (t.routine compiles codes x ctx).2 = (t.compile compiles x code').2 := by
      intro code' hcode'
      rw [routine, hcode']
      dsimp only
      split
      next h => rw [h]
      next h => rw [h]
    cases hx : codes x.1 x.2 with
    | none =>
      have hsame : (t.routine compiles codes x ctx).2 = t := by rw [routine, hx]
      rw [hsame]
      exact ht y code hcode hresult
    | some code' =>
      have hflags : (t.define compiles (functionName x.2 code') code'.string.text).flags =
          t.flags := t.flags_define _ _
      rw [htable code' hx, compile]
      cases hflag : t.flags x with
      | true => exact ht y code hcode hresult
      | false =>
        rw [if_neg Bool.false_ne_true]
        have hbefore := ht y code hcode hresult
        dsimp only
        by_cases hyx : y = x
        · subst hyx
          obtain rfl := Option.some.inj (hcode.symm.trans hx)
          rw [if_neg hresult]
          dsimp only
          rw [List.count_cons_self, hbefore, hflag, Function.update_self]
          rfl
        · split
          · dsimp only
            rw [List.count_cons_of_ne (Ne.symm hyx), hflags]
            exact hbefore
          · dsimp only
            rw [List.count_cons_of_ne (Ne.symm hyx), Function.update_of_ne hyx, hflags]
            exact hbefore

/-! ## The code that is called -/

/-- The first routine of a worker calls its code if that compiles. -/
theorem FunctionTable.routine_first {x : LocId × FuncPrefix} {code : InlineCode}
    (hcode : codes x.1 x.2 = some code) (hcompiled : compiles code.string.text = .compiled) :
    (routine compiles codes {} x true).1 = .body code.string.text := by
  have hdefine : ({} : FunctionTable).define compiles (functionName x.2 code) code.string.text =
      { functions := Function.update (fun _ => none) (ngxStrlow (functionName x.2 code))
          (some code.string.text)
        defined := [ngxStrlow (functionName x.2 code)] } := if_pos ⟨hcompiled, rfl⟩
  have hresult : compiles code.string.text ≠ .bailedOut := by
    rw [hcompiled]
    decide
  rw [routine, hcode]
  dsimp only
  rw [compile, if_neg Bool.false_ne_true, hdefine, if_neg hresult]
  dsimp only
  rw [if_pos rfl]
  apply call_eq
  change Function.update (fun _ => none) _ (some _) _ = some _
  rw [Function.update_self]

/-- In every run of a worker whose requests have a ctx and are not for opcode or stack every routine
calls the code of its location, exactly when codes of a phase that share an id are one text. -/
theorem code_called_iff (compiles : Bytes → CompileResult) (codes : LocationCodes) :
    (∀ ss : List CompilationStep, (∀ s ∈ ss, s.Plain) →
      Along (FunctionTable.step compiles codes) (FunctionTable.CallsOwn compiles codes) {} ss) ↔
      Separated compiles codes := by
  have hinv : FunctionTable.Inv compiles codes {} := FunctionTable.inv_init
  constructor
  · -- the second of two locations calls what the first has defined
    intro hown p l l' code code' hcode hcode' hcompiled hresult hid
    obtain ⟨-, hsecond, -⟩ := hown [.routine (l, p) true, .routine (l', p) true] (by
      simp [CompilationStep.Plain])
    have hfirst : (FunctionTable.routine compiles codes {} (l, p) true).1 =
        .body code.string.text := FunctionTable.routine_first hcode hcompiled
    obtain ⟨code₁, hcode₁, -, hthere⟩ := FunctionTable.routine_leaves hinv hfirst
    obtain rfl := Option.some.inj (hcode.symm.trans hcode₁)
    have hname : ngxStrlow (functionName p code) = ngxStrlow (functionName p code') := by
      rw [lower_functionName, lower_functionName, hid]
    rw [hname] at hthere
    have hcalls := FunctionTable.routine_calls (FunctionTable.routine_keeps hinv (l, p) true).1
      (x := (l', p)) hcode' hresult hthere
    change (FunctionTable.routine compiles codes _ (l', p) true).1 = configured compiles codes
      (l', p) at hsecond
    rw [show FunctionTable.step compiles codes {} (.routine (l, p) true) =
      (FunctionTable.routine compiles codes {} (l, p) true).2 from rfl, hcalls, configured,
      hcode'] at hsecond
    dsimp only at hsecond
    split at hsecond
    · exact Called.body.inj hsecond
    · cases hsecond
    · cases hsecond
  · intro hsep ss hss
    have hplain : Along (FunctionTable.step compiles codes) (fun _ s => s.Plain) {} ss := by
      generalize ({} : FunctionTable) = t
      induction ss generalizing t with
      | nil => trivial
      | cons s ss ih =>
        exact ⟨hss s List.mem_cons_self, ih (fun s' h => hss s' (List.mem_cons_of_mem s h)) _⟩
    refine Along.transfer (I := FunctionTable.Inv compiles codes) (fun t s ht hs => ?_)
      (fun t s ht hs => FunctionTable.callsOwn_of_separated hsep t s ht hs) hinv hplain
    refine (t.step_keeps s ht ?_).1
    rintro rfl
    exact hs

/-- In every run a location evaluates a code once unless it bails out. As long as no handler of
opcode or stack takes the functions away, each name is defined once, and what a location has called
once it calls whenever there is a ctx. -/
theorem code_compiled_once (compiles : Bytes → CompileResult) (codes : LocationCodes)
    (ss us : List CompilationStep) (x : LocId × FuncPrefix) (ctx : Bool) :
    let t := run (FunctionTable.step compiles codes) {} ss
    let u := run (FunctionTable.step compiles codes) {} (ss ++ .routine x ctx :: us)
    (∀ (y : LocId × FuncPrefix) (code : InlineCode), codes y.1 y.2 = some code →
      compiles code.string.text ≠ .bailedOut → u.evaluated.count y ≤ 1) ∧
    (.shutdown ∉ ss ++ us → u.defined.Nodup ∧ (∀ n, n ∈ u.defined ↔ u.functions n ≠ none) ∧
      ∀ b, (t.routine compiles codes x ctx).1 = .body b →
        (u.routine compiles codes x true).1 = .body b) := by
  intro t u
  have hinit : FunctionTable.Inv compiles codes {} := FunctionTable.inv_init
  constructor
  · intro y code hcode hresult
    have honce : u.EvaluatedOnce compiles codes :=
      run_invariant (fun _ s ht => ht.step s) (fun _ _ _ _ => rfl) _
    rw [honce y code hcode hresult]
    exact Bool.toNat_le _
  · intro hno
    obtain ⟨hss, hus⟩ := not_or.mp fun h => hno (List.mem_append.mpr h)
    have hall : .shutdown ∉ ss ++ .routine x ctx :: us := by
      intro h
      rcases List.mem_append.mp h with h | h
      · exact hss h
      · rcases List.mem_cons.mp h with h | h
        · cases h
        · exact hus h
    have ht : t.Inv compiles codes := (FunctionTable.within_run hinit hss).1
    have hu : u.Inv compiles codes := (FunctionTable.within_run hinit hall).1
    refine ⟨hu.definedOnce, hu.defined, fun b hb => ?_⟩
    obtain ⟨code, hcode, hresult, hthere⟩ := FunctionTable.routine_leaves ht hb
    refine FunctionTable.routine_calls hu hcode hresult ?_
    have hrun : u = run (FunctionTable.step compiles codes)
        (t.routine compiles codes x ctx).2 us := by
      rw [show u = run (FunctionTable.step compiles codes) {} (ss ++ .routine x ctx :: us) from rfl,
        run_append, run_cons]
      rfl
    rw [hrun]
    exact (FunctionTable.within_run (FunctionTable.routine_keeps ht x ctx).1 hus).2 _ _ hthere

end NgxPhp
