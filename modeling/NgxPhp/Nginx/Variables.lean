import Mathlib.Logic.Function.Basic
import NgxPhp.Nginx.Strings

/-!
# Variables of nginx

The variables of a configuration are found by their lower-case names. One with an index has
a record in each request. `ngx_http_get_variable` answers from the record as long as that is
filled and may be cached, and else asks the handler of the variable, which belongs to some
other module: here it is given by what it answers for the request.
-/

namespace NgxPhp

/-- `ngx_http_variable_value_t`, and the bytes of the block at `data`. -/
structure VariableValue where
  len : Nat := 0
  data : Bytes := []
  valid : Bool := false
  noCacheable : Bool := false
  notFound : Bool := false
  deriving DecidableEq, Repr

/-- The value that a record stands for. -/
def VariableValue.text (vv : VariableValue) : Bytes := vv.data.take vv.len

/-- The record is filled. -/
def VariableValue.filled (vv : VariableValue) : Bool := vv.valid || vv.notFound

/-- `r->variables`. -/
abbrev VariableValues := Nat → VariableValue

/-- `ngx_http_variable_t`. -/
structure Variable where
  changeable : Bool := false
  noCacheable : Bool := false
  indexed : Bool := false
  index : Nat := 0
  /-- What `get_handler` puts into the record, unless it fails. -/
  getHandler : Option VariableValue := none
  setHandler : Option (VariableValue → VariableValues → VariableValues) := none

/-- A variable such as those of the directive `set`. -/
structure Variable.Plain (v : Variable) : Prop where
  changeable : v.changeable = true
  indexed : v.indexed = true
  setHandler : v.setHandler = none

/-- The variables of a configuration. -/
structure VariablesConf where
  /-- `ngx_hash_find` in `variables_hash`. -/
  find : Bytes → Option Variable
  /-- What the handler of a prefix such as `arg_` answers for a name that begins with it. -/
  prefixed : Bytes → Option (Option VariableValue) := fun _ => none
  /-- Variables have indices of their own. -/
  distinct : ∀ {a b : Bytes} {v w : Variable}, find a = some v → find b = some w →
    v.indexed = true → w.indexed = true → v.index = w.index → a = b

/-- `ngx_http_get_indexed_variable`. -/
def ngxHttpGetIndexedVariable (v : Variable) (vars : VariableValues) :
    Option VariableValue × VariableValues :=
  if (vars v.index).filled then (some (vars v.index), vars)
  else
    match v.getHandler with
    | some vv =>
      let vv := { vv with noCacheable := vv.noCacheable || v.noCacheable }
      (some vv, Function.update vars v.index vv)
    | none =>
      (none, Function.update vars v.index
        { vars v.index with valid := false, notFound := true })

/-- `ngx_http_get_flushed_variable`. -/
def ngxHttpGetFlushedVariable (v : Variable) (vars : VariableValues) :
    Option VariableValue × VariableValues :=
  if (vars v.index).filled && (vars v.index).noCacheable then
    ngxHttpGetIndexedVariable v
      (Function.update vars v.index { vars v.index with valid := false, notFound := false })
  else ngxHttpGetIndexedVariable v vars

/-- `ngx_http_get_variable`. -/
def ngxHttpGetVariable (conf : VariablesConf) (vars : VariableValues) (name : Bytes) :
    Option VariableValue × VariableValues :=
  match conf.find name with
  | some v => if v.indexed then ngxHttpGetFlushedVariable v vars else (v.getHandler, vars)
  | none => ((conf.prefixed name).getD (some { notFound := true }), vars)

/-- The value of a name, if it has one. -/
def VariablesConf.value (conf : VariablesConf) (vars : VariableValues) (name : Bytes) :
    Option Bytes :=
  ((ngxHttpGetVariable conf vars name).1.filter fun vv => !vv.notFound).map VariableValue.text

variable {conf : VariablesConf} {v : Variable} {vars : VariableValues} {name : Bytes} {i : Nat}

/-! ## A record of another variable -/

theorem ngxHttpGetIndexedVariable_update (hi : v.index ≠ i) (x : VariableValue) :
    ngxHttpGetIndexedVariable v (Function.update vars i x) =
      ((ngxHttpGetIndexedVariable v vars).1,
        Function.update (ngxHttpGetIndexedVariable v vars).2 i x) := by
  unfold ngxHttpGetIndexedVariable
  rw [Function.update_of_ne hi]
  split
  · rfl
  · cases v.getHandler with
    | none => exact congrArg _ (Function.update_comm hi _ _ vars).symm
    | some vv => exact congrArg _ (Function.update_comm hi _ _ vars).symm

theorem ngxHttpGetFlushedVariable_update (hi : v.index ≠ i) (x : VariableValue) :
    ngxHttpGetFlushedVariable v (Function.update vars i x) =
      ((ngxHttpGetFlushedVariable v vars).1,
        Function.update (ngxHttpGetFlushedVariable v vars).2 i x) := by
  unfold ngxHttpGetFlushedVariable
  rw [Function.update_of_ne hi]
  split
  · rw [← Function.update_comm hi]
    exact ngxHttpGetIndexedVariable_update hi x
  · exact ngxHttpGetIndexedVariable_update hi x

/-- A get does not look at the records of other variables, nor does it change them. -/
theorem ngxHttpGetVariable_update
    (hi : ∀ v, conf.find name = some v → v.indexed = true → v.index ≠ i) (x : VariableValue) :
    ngxHttpGetVariable conf (Function.update vars i x) name =
      ((ngxHttpGetVariable conf vars name).1,
        Function.update (ngxHttpGetVariable conf vars name).2 i x) := by
  unfold ngxHttpGetVariable
  cases hfind : conf.find name with
  | none => rfl
  | some v =>
    dsimp only
    split
    next hindexed => exact ngxHttpGetFlushedVariable_update (hi v hfind hindexed) x
    · rfl

theorem value_update (hi : ∀ v, conf.find name = some v → v.indexed = true → v.index ≠ i)
    (x : VariableValue) : conf.value (Function.update vars i x) name = conf.value vars name := by
  unfold VariablesConf.value
  rw [ngxHttpGetVariable_update hi]

/-! ## The record of the variable -/

theorem ngxHttpGetVariable_of_valid (hfind : conf.find name = some v) (hv : v.indexed = true)
    {x : VariableValue} (hx : x.valid = true) (hc : x.noCacheable = false) :
    ngxHttpGetVariable conf (Function.update vars v.index x) name =
      (some x, Function.update vars v.index x) := by
  have hfilled : x.filled = true := by rw [VariableValue.filled, hx, Bool.true_or]
  unfold ngxHttpGetVariable
  rw [hfind]
  dsimp only
  rw [if_pos hv]
  unfold ngxHttpGetFlushedVariable ngxHttpGetIndexedVariable
  rw [Function.update_self, hc, Bool.and_false, if_neg Bool.false_ne_true, hfilled, if_pos rfl]

theorem value_of_valid (hfind : conf.find name = some v) (hv : v.indexed = true)
    {x : VariableValue} (hx : x.valid = true) (hc : x.noCacheable = false)
    (hn : x.notFound = false) :
    conf.value (Function.update vars v.index x) name = some x.text := by
  unfold VariablesConf.value
  rw [ngxHttpGetVariable_of_valid hfind hv hx hc, Option.filter_some, hn]
  rfl

/-- What a get is answered if the handler is asked. -/
def Variable.answer (v : Variable) : Option VariableValue :=
  v.getHandler.map fun vv => { vv with noCacheable := vv.noCacheable || v.noCacheable }

/-- The record that a get leaves behind when the handler has been asked. -/
structure Variable.Left (v : Variable) (x : VariableValue) : Prop where
  some : ∀ y, v.answer = some y → x = y
  none : v.answer = none → x.notFound = true

theorem ngxHttpGetIndexedVariable_unfilled (h : (vars v.index).filled = false) :
    ∃ x, v.Left x ∧ ngxHttpGetIndexedVariable v vars =
      (v.answer, Function.update vars v.index x) := by
  unfold ngxHttpGetIndexedVariable Variable.answer
  rw [if_neg (by rw [h]; exact Bool.false_ne_true)]
  cases hhandler : v.getHandler with
  | none => exact ⟨_, ⟨fun y hy => by simp [Variable.answer, hhandler] at hy, fun _ => rfl⟩, rfl⟩
  | some vv =>
    refine ⟨_, ⟨fun y hy => ?_, fun hno => ?_⟩, rfl⟩
    · rw [Variable.answer, hhandler] at hy
      exact Option.some.inj hy
    · rw [Variable.answer, hhandler] at hno
      cases hno

/-- A get is answered from the record, or the handler is asked. -/
theorem ngxHttpGetFlushedVariable_cases (v : Variable) (vars : VariableValues) :
    ngxHttpGetFlushedVariable v vars = (some (vars v.index), vars) ∨
      ∃ x, v.Left x ∧ ngxHttpGetFlushedVariable v vars =
        (v.answer, Function.update vars v.index x) := by
  unfold ngxHttpGetFlushedVariable
  split
  · have hfilled : (Function.update vars v.index
        { vars v.index with valid := false, notFound := false } v.index).filled = false := by
      rw [Function.update_self]
      rfl
    obtain ⟨x, hleft, hx⟩ := ngxHttpGetIndexedVariable_unfilled hfilled
    exact Or.inr ⟨x, hleft, by rw [hx, Function.update_idem]⟩
  · cases hfilled : (vars v.index).filled with
    | true => exact Or.inl (if_pos hfilled)
    | false => exact Or.inr (ngxHttpGetIndexedVariable_unfilled hfilled)

theorem value_of_indexed (hfind : conf.find name = some v) (hv : v.indexed = true)
    (vars : VariableValues) : conf.value vars name =
      ((ngxHttpGetFlushedVariable v vars).1.filter fun vv => !vv.notFound).map
        VariableValue.text := by
  unfold VariablesConf.value ngxHttpGetVariable
  rw [hfind]
  exact congrArg _ (congrArg _ (congrArg Prod.fst (if_pos hv)))

/-- The record that a get leaves stands for what the handler has answered. -/
theorem value_of_left (hfind : conf.find name = some v) (hv : v.indexed = true)
    {x : VariableValue} (hx : v.Left x) :
    conf.value (Function.update vars v.index x) name =
      (v.answer.filter fun vv => !vv.notFound).map VariableValue.text := by
  rw [value_of_indexed hfind hv]
  rcases ngxHttpGetFlushedVariable_cases v (Function.update vars v.index x) with
    hrecord | ⟨y, -, hasked⟩
  · rw [hrecord, Function.update_self]
    cases hanswer : v.answer with
    | some y => rw [hx.some y hanswer]
    | none => rw [Option.filter_some, hx.none hanswer]; rfl
  · rw [hasked]

/-- A get changes no value. -/
theorem value_ngxHttpGetVariable (conf : VariablesConf) (vars : VariableValues)
    (name other : Bytes) :
    conf.value (ngxHttpGetVariable conf vars name).2 other = conf.value vars other := by
  cases hfind : conf.find name with
  | none =>
    unfold ngxHttpGetVariable
    rw [hfind]
  | some v =>
    cases hv : v.indexed with
    | false =>
      have hvars : (ngxHttpGetVariable conf vars name).2 = vars := by
        unfold ngxHttpGetVariable
        rw [hfind]
        exact congrArg Prod.snd (if_neg (by rw [hv]; exact Bool.false_ne_true))
      rw [hvars]
    | true =>
      have hget : ngxHttpGetVariable conf vars name = ngxHttpGetFlushedVariable v vars := by
        unfold ngxHttpGetVariable
        rw [hfind]
        exact if_pos hv
      rw [hget]
      rcases ngxHttpGetFlushedVariable_cases v vars with hrecord | ⟨x, hx, hasked⟩
      · rw [hrecord]
      · rw [hasked]
        by_cases hsame : other = name
        · rw [hsame, value_of_left hfind hv hx, value_of_indexed hfind hv, hasked]
        · refine value_update (fun w hw hindexed hi => hsame ?_) x
          exact conf.distinct hw hfind hindexed hv hi

end NgxPhp
