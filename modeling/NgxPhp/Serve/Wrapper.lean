import NgxPhp.Nginx.Strings
import NgxPhp.Serve.Script

/-!
# The wrappers of scripts

The routines of inline code wrap the code of their directive into the definition of a function,
whose name ends in the id of the code, and `ngx_http_php_zend_uthread_create` writes that name
again to call it. Each of them asks the pool for memory and writes into it with `ngx_sprintf`.
-/

namespace NgxPhp

/-- `code_id`. -/
structure CodeId where
  data : Bytes
  length_data : data.length = 32

/-- The fields of `ngx_http_php_code_t` that the routines use. -/
structure InlineCode where
  string : CString
  codeId : CodeId

/-- `ngx_http_php_code_from_string`, with the random id. -/
def ngxHttpPhpCodeFromString (codeStr : Bytes) (codeId : CodeId) : InlineCode where
  string := ⟨cString codeStr, zero_notMem_cString codeStr⟩
  codeId := codeId

/-- A destination: how many bytes the pool was asked for, and what is written there. -/
structure Destination where
  allocated : Nat
  written : Bytes
  deriving DecidableEq, Repr

/-- No more is written than fits. -/
def Destination.Fits (d : Destination) : Prop := d.written.length ≤ d.allocated

instance Destination.decidableFits (d : Destination) : Decidable d.Fits :=
  inferInstanceAs (Decidable (_ ≤ _))

section Routines

variable (sprintf : Bytes → List SprintfArg → Bytes)

/-- What the routines of inline code write to `inline_code`. The size is counted on a text without
its zero. -/
def inlineWrapper (counted format : String) (code : InlineCode) : Destination where
  allocated := (literal counted).length + code.string.text.length + 64
  written := sprintf (literal format) [.str code.codeId.data, .str code.codeId.data,
    .size code.string.text.length, .chars code.string]

/-- `ngx_http_php_zend_uthread_rewrite_inline_routine`. -/
def rewriteWrapper : InlineCode → Destination :=
  inlineWrapper sprintf
    "if(!function_exists('ngx_rewrite_'))\x7b function ngx_rewrite_()\x7b  \x7d \x7d"
    "if(!function_exists('ngx_rewrite_%V'))\x7b function ngx_rewrite_%V()\x7b %*s \x7d \x7d"

/-- `ngx_http_php_zend_uthread_access_inline_routine`. -/
def accessWrapper : InlineCode → Destination :=
  inlineWrapper sprintf
    "if(!function_exists('ngx_access_'))\x7b function ngx_access_()\x7b  \x7d \x7d"
    "if(!function_exists('ngx_access_%V'))\x7b function ngx_access_%V()\x7b %*s \x7d \x7d"

/-- `ngx_http_php_zend_uthread_content_inline_routine`. -/
def contentWrapper : InlineCode → Destination :=
  inlineWrapper sprintf
    "if(!function_exists('ngx_content_'))\x7b function ngx_content_()\x7b  \x7d \x7d"
    "if(!function_exists('ngx_content_%V'))\x7b function ngx_content_%V()\x7b %*s \x7d \x7d"

/-- `ngx_http_php_zend_uthread_log_inline_routine`. -/
def logWrapper : InlineCode → Destination :=
  inlineWrapper sprintf
    "if(!function_exists('ngx_log_'))\x7b function ngx_log_()\x7b  \x7d \x7d"
    "if(!function_exists('ngx_log_%V'))\x7b function ngx_log_%V()\x7b %*s \x7d \x7d"

/-- `ngx_http_php_zend_uthread_header_filter_inline_routine`. -/
def headerFilterWrapper : InlineCode → Destination :=
  inlineWrapper sprintf
    "if(!function_exists('ngx_header_filter_'))\x7b function ngx_header_filter_()\x7b  \x7d \x7d"
    ("if(!function_exists('ngx_header_filter_%V'))\x7b function ngx_header_filter_%V()\x7b " ++
      "%*s \x7d \x7d")

/-- `ngx_http_php_zend_uthread_body_filter_inline_routine`. -/
def bodyFilterWrapper : InlineCode → Destination :=
  inlineWrapper sprintf
    "if(!function_exists('ngx_body_filter_'))\x7b function ngx_body_filter_()\x7b  \x7d \x7d"
    "if(!function_exists('ngx_body_filter_%V'))\x7b function ngx_body_filter_%V()\x7b %*s \x7d \x7d"

/-- The wrapper of the routine that calls the function with a prefix. -/
def wrapper : FuncPrefix → InlineCode → Destination
  | .ngxRewrite => rewriteWrapper sprintf
  | .ngxAccess => accessWrapper sprintf
  | .ngxContent => contentWrapper sprintf
  | .ngxLog => logWrapper sprintf
  | .ngxHeaderFilter => headerFilterWrapper sprintf
  | .ngxBodyFilter => bodyFilterWrapper sprintf

/-- What `ngx_http_php_zend_uthread_create` writes to `func_name`; `plcf` has the codes of the
location by their prefixes. -/
def funcName (plcf : FuncPrefix → InlineCode) (funcPrefix : CString) : Destination where
  allocated := funcPrefix.text.length + 32
  written :=
    if funcPrefix.text = literal "ngx_rewrite" then
      sprintf (literal "%s_%V") [.chars funcPrefix, .str (plcf .ngxRewrite).codeId.data]
    else if funcPrefix.text = literal "ngx_access" then
      sprintf (literal "%s_%V") [.chars funcPrefix, .str (plcf .ngxAccess).codeId.data]
    else if funcPrefix.text = literal "ngx_content" then
      sprintf (literal "%s_%V") [.chars funcPrefix, .str (plcf .ngxContent).codeId.data]
    else if funcPrefix.text = literal "ngx_log" then
      sprintf (literal "%s_%V") [.chars funcPrefix, .str (plcf .ngxLog).codeId.data]
    else if funcPrefix.text = literal "ngx_header_filter" then
      sprintf (literal "%s_%V") [.chars funcPrefix, .str (plcf .ngxHeaderFilter).codeId.data]
    else if funcPrefix.text = literal "ngx_body_filter" then
      sprintf (literal "%s_%V") [.chars funcPrefix, .str (plcf .ngxBodyFilter).codeId.data]
    else []

end Routines

/-! ## What fits -/

/-- The prefix that a routine passes to `ngx_http_php_zend_uthread_create`. -/
def FuncPrefix.name : FuncPrefix → CString
  | .ngxRewrite => ⟨literal "ngx_rewrite", by decide⟩
  | .ngxAccess => ⟨literal "ngx_access", by decide⟩
  | .ngxContent => ⟨literal "ngx_content", by decide⟩
  | .ngxLog => ⟨literal "ngx_log", by decide⟩
  | .ngxHeaderFilter => ⟨literal "ngx_header_filter", by decide⟩
  | .ngxBodyFilter => ⟨literal "ngx_body_filter", by decide⟩

/-- A place where `ngx_sprintf` writes. -/
inductive Site
  | wrapper (p : FuncPrefix)
  | funcName (funcPrefix : CString)

def Site.destination (sprintf : Bytes → List SprintfArg → Bytes)
    (plcf : FuncPrefix → InlineCode) : Site → Destination
  | .wrapper p => NgxPhp.wrapper sprintf p (plcf p)
  | .funcName funcPrefix => NgxPhp.funcName sprintf plcf funcPrefix

section

variable {sprintf : Bytes → List SprintfArg → Bytes} (hw : WritesPieces sprintf)
include hw

/-- The format is the text that has been counted, with the id behind both names and the code
between the inner braces: no byte is left over. -/
theorem inlineWrapper_length {counted format : String} (name : String)
    (hformat : format = "if(!function_exists('" ++ name ++ "_%V'))\x7b function " ++ name ++
      "_%V()\x7b %*s \x7d \x7d")
    (hcounted : counted = "if(!function_exists('" ++ name ++ "_'))\x7b function " ++ name ++
      "_()\x7b  \x7d \x7d")
    (hname : 37 ∉ literal name) (code : InlineCode) :
    (inlineWrapper sprintf counted format code).written.length =
      (inlineWrapper sprintf counted format code).allocated := by
  have hsplit : literal "_%V'))\x7b function " =
        literal "_" ++ (literal "%V" ++ literal "'))\x7b function ") ∧
      literal "_%V()\x7b %*s \x7d \x7d" = literal "_" ++
        (literal "%V" ++ (literal "()\x7b " ++ (literal "%*s" ++ literal " \x7d \x7d"))) := by
    decide
  have htexts : 37 ∉ literal "if(!function_exists('" ∧ 37 ∉ literal "_" ∧
      37 ∉ literal "'))\x7b function " ∧ 37 ∉ literal "()\x7b " ∧
      37 ∉ literal " \x7d \x7d" := by
    decide
  have hpieces := hw [.text (literal "if(!function_exists('"), .text (literal name),
    .text (literal "_"), .str code.codeId.data, .text (literal "'))\x7b function "),
    .text (literal name), .text (literal "_"), .str code.codeId.data, .text (literal "()\x7b "),
    .sized code.string.text.length code.string, .text (literal " \x7d \x7d")]
    (by simp [FormatPiece.Plain, hname, htexts])
  have hwritten : (inlineWrapper sprintf counted format code).written =
      literal "if(!function_exists('" ++ (literal name ++ (literal "_" ++ (code.codeId.data ++
        (literal "'))\x7b function " ++ (literal name ++ (literal "_" ++ (code.codeId.data ++
          (literal "()\x7b " ++ (code.string.text ++ literal " \x7d \x7d"))))))))) := by
    simpa [FormatPiece.format, FormatPiece.args, FormatPiece.output, inlineWrapper, hformat,
      literal_append, hsplit.1, hsplit.2] using hpieces
  have hlengths : (literal "_'))\x7b function ").length =
        (literal "_").length + (literal "'))\x7b function ").length ∧
      (literal "_()\x7b  \x7d \x7d").length =
        (literal "_").length + (literal "()\x7b ").length + (literal " \x7d \x7d").length := by
    decide
  rw [hwritten]
  simp only [inlineWrapper, hcounted, literal_append, List.length_append, hlengths.1, hlengths.2,
    code.codeId.length_data]
  omega

/-- Every wrapper takes exactly the bytes that its routine asks for. -/
theorem wrapper_length (p : FuncPrefix) (code : InlineCode) :
    (wrapper sprintf p code).written.length = (wrapper sprintf p code).allocated := by
  cases p with
  | ngxRewrite =>
    exact inlineWrapper_length hw "ngx_rewrite" rfl rfl (by decide) code
  | ngxAccess =>
    exact inlineWrapper_length hw "ngx_access" rfl rfl (by decide) code
  | ngxContent =>
    exact inlineWrapper_length hw "ngx_content" rfl rfl (by decide) code
  | ngxLog =>
    exact inlineWrapper_length hw "ngx_log" rfl rfl (by decide) code
  | ngxHeaderFilter =>
    exact inlineWrapper_length hw "ngx_header_filter" rfl rfl (by decide)
      code
  | ngxBodyFilter =>
    exact inlineWrapper_length hw "ngx_body_filter" rfl rfl (by decide)
      code

/-- A name is its prefix, an underscore and the id. -/
theorem sprintf_name_length (funcPrefix : CString) (id : CodeId) :
    (sprintf (literal "%s_%V") [.chars funcPrefix, .str id.data]).length =
      funcPrefix.text.length + 33 := by
  have hformat : literal "%s_%V" = literal "%s" ++ (literal "_" ++ literal "%V") := by decide
  have hpieces := hw [.chars funcPrefix, .text (literal "_"), .str id.data]
    (by simp [FormatPiece.Plain]; decide)
  have hwritten : sprintf (literal "%s_%V") [.chars funcPrefix, .str id.data] =
      funcPrefix.text ++ (literal "_" ++ id.data) := by
    simpa [FormatPiece.format, FormatPiece.args, FormatPiece.output, hformat] using hpieces
  rw [hwritten, List.length_append, List.length_append, id.length_data]
  rfl

omit hw in
theorem funcName_of_name (plcf : FuncPrefix → InlineCode) (p : FuncPrefix) :
    (funcName sprintf plcf p.name).written =
      sprintf (literal "%s_%V") [.chars p.name, .str (plcf p).codeId.data] := by
  cases p <;> rfl

omit hw in
/-- For any other prefix nothing is written. -/
theorem funcName_of_ne (plcf : FuncPrefix → InlineCode) {funcPrefix : CString}
    (h : ∀ p : FuncPrefix, funcPrefix ≠ p.name) :
    (funcName sprintf plcf funcPrefix).written = [] := by
  have hne : ∀ p : FuncPrefix, funcPrefix.text ≠ p.name.text := fun p he => h p (CString.ext he)
  exact (if_neg (hne .ngxRewrite)).trans <| (if_neg (hne .ngxAccess)).trans <|
    (if_neg (hne .ngxContent)).trans <| (if_neg (hne .ngxLog)).trans <|
      (if_neg (hne .ngxHeaderFilter)).trans <| if_neg (hne .ngxBodyFilter)

/-- The wrappers fit, and the name of the function that a wrapper defines never does. -/
theorem site_fits_iff (plcf : FuncPrefix → InlineCode) (site : Site) :
    (site.destination sprintf plcf).Fits ↔ ∀ p : FuncPrefix, site ≠ .funcName p.name := by
  cases site with
  | wrapper p =>
    refine iff_of_true ?_ fun _ => nofun
    exact (wrapper_length hw p (plcf p)).le
  | funcName funcPrefix =>
    by_cases h : ∃ p : FuncPrefix, funcPrefix = p.name
    · obtain ⟨p, rfl⟩ := h
      refine iff_of_false ?_ fun hne => hne p rfl
      unfold Destination.Fits Site.destination
      dsimp only
      rw [funcName_of_name, sprintf_name_length hw]
      exact Nat.not_le.mpr (Nat.lt_succ_self _)
    · have hne : ∀ p : FuncPrefix, funcPrefix ≠ p.name := fun p he => h ⟨p, he⟩
      refine iff_of_true ?_ fun p he => hne p (Site.funcName.inj he)
      unfold Destination.Fits Site.destination
      dsimp only
      rw [funcName_of_ne plcf hne]
      exact Nat.zero_le _

end

/-- A location with the same code in all phases. -/
def testCodes (p : FuncPrefix) : InlineCode :=
  ngxHttpPhpCodeFromString (literal "echo 1;")
    ⟨List.replicate 32 (UInt8.ofNat (48 + p.ctorIdx)), List.length_replicate⟩

theorem site_fits_test :
    (Site.destination ngxSprintf testCodes (.wrapper .ngxLog)).Fits ∧
      ¬ (Site.destination ngxSprintf testCodes (.funcName FuncPrefix.ngxLog.name)).Fits :=
  ⟨(site_fits_iff ngxSprintf_writesPieces testCodes (.wrapper .ngxLog)).mpr fun _ => nofun,
    fun h => (site_fits_iff ngxSprintf_writesPieces testCodes _).mp h .ngxLog rfl⟩

/-- `ngx_content_` and an id are 44 bytes, and the pool was asked for 43. -/
theorem funcName_not_fits :
    ¬ ∀ (plcf : FuncPrefix → InlineCode) (site : Site),
      (site.destination ngxSprintf plcf).Fits := by
  intro h
  exact absurd (h testCodes (.funcName FuncPrefix.ngxContent.name)) (by decide)

end NgxPhp
