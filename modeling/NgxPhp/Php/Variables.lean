import NgxPhp.Nginx.Variables

/-!
# The variables of nginx for PHP

`ngx_var_set` copies its value up to the first NUL byte and records the full length, so what
lies behind is what the memory happens to hold. `ngx_var_get` follows the record that
`ngx_http_php_var_get` returns, which is `NULL` for a name without a value. Both turn the
name that they are given to lower case where it is, in the string of the caller.
-/

namespace NgxPhp

/-- What a get returns; a fault is the end of the worker. -/
inductive VarReturn
  | null
  | string (b : Bytes)
  | fault
  deriving DecidableEq, Repr

/-- What `ngx_http_php_var_get` returns, and the bytes of the name and the records behind it. -/
structure PhpVarGet where
  var : Option VariableValue
  key : Bytes
  vars : VariableValues

/-- `ngx_http_php_var_get`. `ngx_hash_strlow` writes over the name. -/
def ngxHttpPhpVarGet (conf : VariablesConf) (vars : VariableValues) (name : Bytes) : PhpVarGet :=
  let name := ngxStrlow name
  let got := ngxHttpGetVariable conf vars name
  match got.1 with
  | none => ⟨none, name, got.2⟩
  | some var => ⟨if var.notFound then none else some var, name, got.2⟩

/-- A call of `ngx_var_get`. -/
structure VarGet where
  ret : VarReturn
  key : Bytes
  vars : VariableValues

/-- `PHP_FUNCTION(ngx_var_get)`, which reads `var->data` and `var->len` whatever it has got. -/
def ngxVarGet (conf : VariablesConf) (vars : VariableValues) (key : Bytes) : VarGet :=
  let got := ngxHttpPhpVarGet conf vars key
  match got.var with
  | none => ⟨.fault, got.key, got.vars⟩
  | some var => ⟨.string var.text, got.key, got.vars⟩

/-- A call of `ngx_http_php_var_set`. -/
structure VarSet where
  ret : Int
  key : Bytes
  vars : VariableValues

/-- What is in the block of memory behind `ngx_cpystrn`. -/
def copied (v block : Bytes) : Bytes :=
  ngxCpystrn v (v.length + 1) ++ block.drop (ngxCpystrn v (v.length + 1)).length

/-- `ngx_http_php_var_set`, with the block that the pool returns for the value, and whether it has
room for the record of a handler. -/
def ngxHttpPhpVarSet (conf : VariablesConf) (vars : VariableValues) (pool : Option Bytes)
    (room : Bool) (key val : Bytes) : VarSet :=
  match pool with
  | none => ⟨1, key, vars⟩
  | some block =>
    let vv : VariableValue := { len := val.length, data := copied val block, valid := true }
    let key := ngxStrlow key
    match conf.find key with
    | none => ⟨1, key, vars⟩
    | some v =>
      if !v.changeable then ⟨1, key, vars⟩
      else
        match v.setHandler with
        | some handler => if room then ⟨0, key, handler vv vars⟩ else ⟨1, key, vars⟩
        | none =>
          if v.indexed then ⟨0, key, Function.update vars v.index vv⟩ else ⟨1, key, vars⟩

/-- `PHP_FUNCTION(ngx_var_set)` drops what the function returns. -/
def ngxVarSet (conf : VariablesConf) (vars : VariableValues) (pool : Option Bytes) (room : Bool)
    (key val : Bytes) : VarSet :=
  ngxHttpPhpVarSet conf vars pool room key val

/-- `PHP_METHOD(ngx_var, get)` has the body of the function. -/
def NgxVar.get (conf : VariablesConf) (vars : VariableValues) (key : Bytes) : VarGet :=
  ngxVarGet conf vars key

/-- `PHP_METHOD(ngx_var, set)` has the body of the function. -/
def NgxVar.set (conf : VariablesConf) (vars : VariableValues) (pool : Option Bytes) (room : Bool)
    (key val : Bytes) : VarSet :=
  ngxVarSet conf vars pool room key val

/-! ## The copy -/

/-- The bytes behind the first NUL are those that the block holds there already. -/
def Survives (v block : Bytes) : Prop :=
  v.drop ((cString v).length + 1) =
    (block.drop ((cString v).length + 1)).take (v.length - ((cString v).length + 1))

instance decidableSurvives (v block : Bytes) : Decidable (Survives v block) :=
  inferInstanceAs (Decidable (_ = _))

theorem copied_eq (v block : Bytes) :
    copied v block = cString v ++ 0 :: block.drop ((cString v).length + 1) := by
  have hcopy : ngxCpystrn v (v.length + 1) = cString v ++ [0] :=
    congrArg (cString · ++ [0]) List.take_length
  rw [copied, hcopy, List.length_append, List.append_assoc]
  rfl

/-- A string is read up to its first NUL, and that is followed by whatever there is. -/
theorem eq_cString_append (v : Bytes) :
    v = cString v ∨ v = cString v ++ 0 :: v.drop ((cString v).length + 1) := by
  induction v with
  | nil => exact Or.inl rfl
  | cons b v ih =>
    by_cases hb : b = 0
    · subst hb
      exact Or.inr rfl
    · have hcons : cString (b :: v) = b :: cString v :=
        List.takeWhile_cons_of_pos (decide_eq_true hb)
      rw [hcons]
      exact ih.imp (congrArg (b :: ·)) (congrArg (b :: ·))

/-- The copy reads as the value just where the bytes behind the first NUL survive. -/
theorem copied_take_iff (v block : Bytes) :
    (copied v block).take v.length = v ↔ Survives v block := by
  rw [copied_eq, Survives]
  generalize hj : (cString v).length = j
  rcases eq_cString_append v with hv | hv
  · have hlen : v.length = j := by rw [← hj, ← hv]
    rw [← hv, hlen, List.take_left' hlen, List.drop_eq_nil_of_le (by omega),
      Nat.sub_eq_zero_of_le (by omega)]
    exact iff_of_true rfl List.take_zero.symm
  · rw [hj] at hv
    have hlen : v.length = j + (v.length - (j + 1) + 1) := by
      have h := congrArg List.length hv
      rw [List.length_append, List.length_cons, List.length_drop, hj] at h
      omega
    have htake : (cString v ++ 0 :: block.drop (j + 1)).take v.length =
        cString v ++ 0 :: (block.drop (j + 1)).take (v.length - (j + 1)) := by
      conv_lhs => rw [hlen, ← hj, List.take_length_add_append, List.take_succ_cons]
      rw [hj]
    rw [htake]
    constructor
    · intro h
      have hrest := List.append_cancel_left (h.trans hv)
      exact (List.cons.inj hrest).2.symm
    · intro h
      rw [← h]
      exact hv.symm

/-- There is nothing behind the first NUL if no NUL stands before the last byte. -/
theorem length_le_cString_iff (v : Bytes) :
    v.length ≤ (cString v).length + 1 ↔ (0 : UInt8) ∉ v.dropLast := by
  have hno := zero_notMem_cString v
  rcases eq_cString_append v with hv | hv
  · rw [← hv] at hno ⊢
    exact iff_of_true (Nat.le_succ _) fun h => hno (List.dropLast_subset v h)
  · generalize cString v = c at hv hno ⊢
    generalize v.drop (c.length + 1) = rest at hv
    subst hv
    rw [List.dropLast_append_of_ne_nil (List.cons_ne_nil _ _), List.length_append]
    cases rest with
    | nil => exact iff_of_true le_rfl (by simpa using hno)
    | cons b rest =>
      refine iff_of_false (by simp) fun h => h (List.mem_append_right _ ?_)
      exact List.mem_cons_self

/-- Whatever the block holds, a value is read as it is if no NUL stands before its last byte. -/
theorem survives_all_iff (v : Bytes) :
    (∀ block, Survives v block) ↔ (0 : UInt8) ∉ v.dropLast := by
  rw [← length_le_cString_iff]
  constructor
  · intro h
    have hempty : v.drop ((cString v).length + 1) = [] := by
      have hall := h []
      rwa [Survives, List.drop_nil, List.take_nil] at hall
    exact List.drop_eq_nil_iff.mp hempty
  · intro hle block
    rw [Survives, List.drop_eq_nil_of_le hle, Nat.sub_eq_zero_of_le hle, List.take_zero]

/-! ## The law of a store -/

/-- A get returns the value of the name, and follows `NULL` where it has none. -/
theorem ngxVarGet_eq (conf : VariablesConf) (vars : VariableValues) (name : Bytes) :
    ngxVarGet conf vars name =
      ⟨(conf.value vars (ngxStrlow name)).elim .fault .string, ngxStrlow name,
        (ngxHttpGetVariable conf vars (ngxStrlow name)).2⟩ := by
  unfold ngxVarGet ngxHttpPhpVarGet VariablesConf.value
  dsimp only
  cases (ngxHttpGetVariable conf vars (ngxStrlow name)).1 with
  | none => rfl
  | some var =>
    rw [Option.filter_some]
    dsimp only
    cases var.notFound <;> rfl

section Store

variable {conf : VariablesConf} (hconf : ∀ n v, conf.find n = some v → v.Plain)
include hconf

/-- A set with room for the value fills the record. -/
theorem ngxVarSet_some {name : Bytes} {v : Variable} (hfind : conf.find (ngxStrlow name) = some v)
    (vars : VariableValues) (block : Bytes) (room : Bool) (val : Bytes) :
    ngxVarSet conf vars (some block) room name val =
      ⟨0, ngxStrlow name, Function.update vars v.index
        { len := val.length, data := copied val block, valid := true }⟩ := by
  have hplain := hconf _ _ hfind
  unfold ngxVarSet ngxHttpPhpVarSet
  dsimp only
  rw [hfind]
  dsimp only
  rw [hplain.changeable, hplain.setHandler, hplain.indexed]
  rfl

/-- What a set makes of the values. -/
theorem value_ngxVarSet {name : Bytes} {v : Variable}
    (hfind : conf.find (ngxStrlow name) = some v) (vars : VariableValues) (block : Bytes)
    (room : Bool) (val : Bytes) :
    conf.value (ngxVarSet conf vars (some block) room name val).vars =
      Function.update (conf.value vars) (ngxStrlow name)
        (some ((copied val block).take val.length)) := by
  have hplain := hconf _ _ hfind
  rw [ngxVarSet_some hconf hfind]
  funext n
  by_cases hn : n = ngxStrlow name
  · subst hn
    rw [Function.update_self, value_of_valid hfind hplain.indexed rfl rfl rfl]
    rfl
  · rw [Function.update_of_ne hn]
    refine value_update (fun w hw hindexed hi => hn ?_) _
    exact conf.distinct hw hfind hindexed hplain.indexed hi

end Store

section Law

variable {conf : VariablesConf} (hconf : ∀ n v, conf.find n = some v → v.Plain) {name : Bytes}
  {v : Variable} (hfind : conf.find (ngxStrlow name) = some v) {vars : VariableValues}
  {pool : Option Bytes} {room : Bool} {val other : Bytes}
include hconf hfind

end Law

/-- A call of one of the functions. -/
inductive VarCall
  | get (key : Bytes)
  | set (pool : Option Bytes) (room : Bool) (key val : Bytes)
  deriving DecidableEq, Repr

/-- The records behind a call. -/
def VarCall.run (conf : VariablesConf) (vars : VariableValues) : VarCall → VariableValues
  | .get key => (ngxVarGet conf vars key).vars
  | .set pool room key val => (ngxVarSet conf vars pool room key val).vars

/-- What a call means for a store from names to values. -/
def VarCall.store (values : Bytes → Option Bytes) : VarCall → Bytes → Option Bytes
  | .get _ => values
  | .set _ _ key val => Function.update values (ngxStrlow key) (some val)

/-- The call sets a variable, there is room for the value, and it survives the copy. -/
def VarCall.Keeps (conf : VariablesConf) : VarCall → Prop
  | .get _ => True
  | .set pool _ key val =>
    (conf.find (ngxStrlow key)).isSome = true ∧ ∃ block, pool = some block ∧ Survives val block

theorem value_run {conf : VariablesConf} (hconf : ∀ n v, conf.find n = some v → v.Plain)
    (vars : VariableValues) {call : VarCall} (h : call.Keeps conf) :
    conf.value (call.run conf vars) = call.store (conf.value vars) := by
  cases call with
  | get key =>
    funext n
    change conf.value (ngxVarGet conf vars key).vars n = _
    rw [ngxVarGet_eq, value_ngxHttpGetVariable]
    rfl
  | set pool room key val =>
    obtain ⟨hname, block, rfl, hval⟩ := h
    obtain ⟨v, hfind⟩ := Option.isSome_iff_exists.mp hname
    refine (value_ngxVarSet hconf hfind vars block room val).trans ?_
    rw [(copied_take_iff val block).mpr hval]
    rfl

/-- In a run whose sets keep their values, the variables are a store as long as the worker
lives. -/
theorem value_runs {conf : VariablesConf} (hconf : ∀ n v, conf.find n = some v → v.Plain)
    (vars : VariableValues) {calls : List VarCall} (h : ∀ call ∈ calls, call.Keeps conf) :
    conf.value (calls.foldl (VarCall.run conf) vars) =
      calls.foldl VarCall.store (conf.value vars) := by
  induction calls generalizing vars with
  | nil => rfl
  | cons call calls ih =>
    obtain ⟨hcall, hcalls⟩ := List.forall_mem_cons.mp h
    rw [List.foldl_cons, List.foldl_cons, ih _ hcalls, value_run hconf vars hcall]

end NgxPhp
