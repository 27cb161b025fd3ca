import NgxPhp.Conf.Directive
import NgxPhp.Lib.Machine
import NgxPhp.Php.Variables
import NgxPhp.Redis.Reply

/-!
# Variables of `php_set`

The value of a `php_set` variable is made when the configuration is read. Its handler is called
when nginx needs the variable in a request that has no record of it yet, and stores the value with
`ngx_http_php_var_set`: in the request that a handler of the module was called for last, not in
the one that it is given.
-/

namespace NgxPhp

open StepMachine

/-- What `zend_eval_string_ex` leaves in `retval`; a number with a fraction comes as PHP writes
it. -/
inductive PhpResult
  | true
  | false
  | long (n : Int64)
  | double (text : Bytes)
  | string (b : Bytes)
  | other
  deriving DecidableEq

/-- `handler`, after `convert_to_string`. -/
def PhpResult.handler : PhpResult → Bytes
  | .true => [49]
  | .false => []
  | .long n => decimalInt n.toInt
  | .double text => text
  | .string b => b
  | .other => []

/-- `ngx_http_php_variable_t`. -/
structure PhpVariable where
  key : Bytes
  handler : Bytes
  deriving DecidableEq, Repr

/-- `ngx_http_add_variable` and `ngx_http_get_variable_index`: a variable that is there keeps its
index and gets the new handler. -/
def addVariable (pv : PhpVariable) : List PhpVariable → List PhpVariable
  | [] => [pv]
  | w :: ws => if SameName w.key pv.key then pv :: ws else w :: addVariable pv ws

/-- A variable that is added has its own name or one that was there. -/
theorem mem_addVariable {pv : PhpVariable} {n : Bytes} {ws : List PhpVariable}
    (h : n ∈ (addVariable pv ws).map fun w => ngxStrlow w.key) :
    n = ngxStrlow pv.key ∨ n ∈ ws.map fun w => ngxStrlow w.key := by
  induction ws with
  | nil => exact Or.inl (List.mem_singleton.mp h)
  | cons w ws ih =>
    rw [addVariable] at h
    split at h
    · exact (List.mem_cons.mp h).imp id (List.mem_cons_of_mem _)
    · rcases List.mem_cons.mp h with rfl | h
      · exact Or.inr List.mem_cons_self
      · exact (ih h).imp id (List.mem_cons_of_mem _)

/-- Variables that are added have different names. -/
theorem nodup_addVariable {pv : PhpVariable} {ws : List PhpVariable}
    (h : (ws.map fun w => ngxStrlow w.key).Nodup) :
    ((addVariable pv ws).map fun w => ngxStrlow w.key).Nodup := by
  induction ws with
  | nil => exact List.nodup_singleton _
  | cons w ws ih =>
    obtain ⟨hw, hws⟩ := List.nodup_cons.mp h
    rw [addVariable]
    split
    next hsame =>
      rw [List.map_cons, List.nodup_cons]
      exact ⟨by rwa [show ngxStrlow pv.key = ngxStrlow w.key from hsame.symm], hws⟩
    next hsame =>
      rw [List.map_cons, List.nodup_cons]
      exact ⟨fun hmem => (mem_addVariable hmem).elim hsame hw, ih hws⟩

/-- The `php_set` variables of a configuration, by their indices. -/
structure PhpSets where
  vars : List PhpVariable := []
  nodup : (vars.map fun w => ngxStrlow w.key).Nodup := by decide

/-- `ngx_http_php_set_inline2`, with what the evaluation of a code leaves. -/
def ngxHttpPhpSetInline2 (eval : Bytes → PhpResult) (name : Bytes) (code : DirectiveInput)
    (c : PhpSets) : Option PhpSets :=
  match name with
  | 36 :: key =>
    if key = [] then none
    else
      (codeFromString code).map fun code =>
        { vars := addVariable ⟨key, (eval code.text).handler⟩ c.vars
          nodup := nodup_addVariable c.nodup }
  | _ => none

namespace PhpSets

variable (c : PhpSets)

/-- `ngx_hash_find`. -/
def find (name : Bytes) : Option Variable :=
  (c.vars.findIdx? fun w => ngxStrlow w.key = name).map fun i =>
    { changeable := true, indexed := true, index := i }

/-- A variable that is found has the handler of its name. -/
theorem find_some {name : Bytes} {v : Variable} (h : c.find name = some v) :
    v = { changeable := true, indexed := true, index := v.index } ∧
      ∃ w, c.vars[v.index]? = some w ∧ ngxStrlow w.key = name := by
  obtain ⟨i, hi, rfl⟩ := Option.map_eq_some_iff.mp h
  obtain ⟨hlt, hname, -⟩ := List.findIdx?_eq_some_iff_getElem.mp hi
  exact ⟨rfl, c.vars[i], List.getElem?_eq_getElem hlt, of_decide_eq_true hname⟩

/-- The variables for `ngx_http_php_var_set`. -/
def conf : VariablesConf where
  find := c.find
  distinct := by
    intro a b v w ha hb _ _ hindex
    obtain ⟨-, x, hx, rfl⟩ := c.find_some ha
    obtain ⟨-, y, hy, rfl⟩ := c.find_some hb
    rw [hindex, hy] at hx
    rw [Option.some.inj hx]

/-- The variables of the configuration are plain. -/
theorem conf_plain (n : Bytes) (v : Variable) (h : c.conf.find n = some v) : v.Plain := by
  rw [(c.find_some h).1]
  exact ⟨rfl, rfl, rfl⟩

/-- A variable is found by its name. -/
theorem find_key (i : Fin c.vars.length) :
    c.conf.find (ngxStrlow c.vars[i].key) =
      some { changeable := true, indexed := true, index := i } := by
  have hidx : (c.vars.findIdx? fun w => ngxStrlow w.key = ngxStrlow c.vars[i].key) =
      some i.val := by
    refine List.findIdx?_eq_some_iff_getElem.mpr ⟨i.isLt, decide_eq_true rfl, fun j hj => ?_⟩
    intro hsame
    have hsame := of_decide_eq_true hsame
    have hjlt : j < (c.vars.map fun w => ngxStrlow w.key).length := by
      rw [List.length_map]
      exact hj.trans i.isLt
    have hilt : i.val < (c.vars.map fun w => ngxStrlow w.key).length := by
      rw [List.length_map]
      exact i.isLt
    have hij : j = i.val :=
      (@List.Nodup.getElem_inj_iff _ _ c.nodup j hjlt i hilt).mp (by simpa using hsame)
    omega
  show Option.map _ _ = _
  rw [hidx]
  rfl

end PhpSets

/-! ## A worker -/

/-- `ngx_php_request`, and the records of the requests. -/
structure SetWorker where
  request : Option ReqId := none
  vars : ReqId → VariableValues := fun _ _ => {}

variable {c : PhpSets}

/-- `ngx_http_php_variable_handler`; nothing where `ngx_php_request`, which it follows, is
`NULL`. -/
def variableHandler (c : PhpSets) (w : SetWorker) (i : Fin c.vars.length) (pool : Option Bytes) :
    Option SetWorker :=
  w.request.map fun g =>
    { w with
      vars := Function.update w.vars g
        (ngxHttpPhpVarSet c.conf (w.vars g) pool true c.vars[i].key c.vars[i].handler).vars }

/-- `ngx_http_get_indexed_variable` of a `php_set` variable. Its handler always returns
`NGX_OK`, and it has no flag but that it can be changed. -/
def getIndexed (c : PhpSets) (w : SetWorker) (r : ReqId) (i : Fin c.vars.length)
    (pool : Option Bytes) : Option (VariableValue × SetWorker) :=
  if (w.vars r i).filled then some (w.vars r i, w)
  else (variableHandler c w i pool).map fun w => (w.vars r i, w)

/-- The index of a variable that a script names. -/
def PhpSets.index (c : PhpSets) (name : Bytes) : Option (Fin c.vars.length) :=
  match c.find (ngxStrlow name) with
  | none => none
  | some v => if h : v.index < c.vars.length then some ⟨v.index, h⟩ else none

/-- What happens in a worker: a request is made, a handler of the module is called for it, nginx
needs a variable in it, or the script that runs calls `ngx_var_get` or `ngx_var_set`. -/
inductive SetStep (c : PhpSets)
  | create (r : ReqId)
  | enter (r : ReqId)
  | read (r : ReqId) (i : Fin c.vars.length) (pool : Option Bytes)
  | get (name : Bytes) (pool : Option Bytes)
  | set (name val : Bytes) (pool : Option Bytes)

/-- A worker, and what the variables of each request are to be. -/
structure SetRun (c : PhpSets) where
  worker : SetWorker := {}
  values : ReqId → Fin c.vars.length → Bytes := fun _ i => c.vars[i].handler

/-- The worker behind a read; a fault ends it. -/
def SetRun.reading (s : SetRun c) (r : ReqId) (i : Fin c.vars.length) (pool : Option Bytes) :
    SetRun c :=
  match getIndexed c s.worker r i pool with
  | none => s
  | some (_, worker) => { s with worker }

/-- A request begins without records. -/
def SetRun.creating (s : SetRun c) (r : ReqId) : SetRun c where
  worker := { s.worker with vars := Function.update s.worker.vars r fun _ => {} }
  values := Function.update s.values r fun i => c.vars[i].handler

/-- What `ngx_var_set` leaves when it finds the variable and memory. -/
def PhpSets.stored (c : PhpSets) (name : Bytes) (pool : Option Bytes) (val : Bytes)
    (values : Fin c.vars.length → Bytes) : Fin c.vars.length → Bytes :=
  match pool, c.index name with
  | some block, some i => Function.update values i ((copied val block).take val.length)
  | _, _ => values

/-- The script of a request sets a variable. -/
def SetRun.setting (s : SetRun c) (g : ReqId) (name val : Bytes) (pool : Option Bytes) :
    SetRun c where
  worker := { s.worker with
    vars := Function.update s.worker.vars g
      (ngxVarSet c.conf (s.worker.vars g) pool true name val).vars }
  values := Function.update s.values g (c.stored name pool val (s.values g))

/-- The script of a request reads a variable. -/
def SetRun.getting (s : SetRun c) (g : ReqId) (name : Bytes) (pool : Option Bytes) : SetRun c :=
  match c.index name with
  | none => s
  | some i => s.reading g i pool

/-- One step. -/
def SetRun.step (s : SetRun c) : SetStep c → SetRun c
  | .create r => s.creating r
  | .enter r => { s with worker := { s.worker with request := some r } }
  | .read r i pool => s.reading r i pool
  | .get name pool => s.worker.request.elim s fun g => s.getting g name pool
  | .set name val pool => s.worker.request.elim s fun g => s.setting g name val pool

/-- The variable is found with the value that the request is to have, and nothing is changed in
other requests. -/
def SetRun.Answers (s : SetRun c) (r : ReqId) (i : Fin c.vars.length) (pool : Option Bytes) :
    Prop :=
  ∃ x worker, getIndexed c s.worker r i pool = some (x, worker) ∧ x.valid = true ∧
    x.text = s.values r i ∧ ∀ g, g ≠ r → worker.vars g = s.worker.vars g

/-- There is memory for the value, and it survives the copy. -/
def Stores (c : PhpSets) (i : Fin c.vars.length) (pool : Option Bytes) : Prop :=
  ∃ block, pool = some block ∧ Survives c.vars[i].handler block

/-- A variable that has no record yet is read while `ngx_php_request` is its request, which has
room for the value; a script reads only variables that there are. -/
def SetRun.InTurn (s : SetRun c) : SetStep c → Prop
  | .read r i pool =>
    (s.worker.vars r i).filled = true ∨ s.worker.request = some r ∧ Stores c i pool
  | .get name pool => ∃ g i, s.worker.request = some g ∧ c.index name = some i ∧
      ((s.worker.vars g i).filled = true ∨ Stores c i pool)
  | _ => True

/-- A record has the value, or there is no record and the value is the one that the handler would
store. -/
def VariableValue.Holds (x : VariableValue) (value handler : Bytes) : Prop :=
  x.valid = true ∧ x.text = value ∨ x.filled = false ∧ value = handler

/-- All records hold the values of their variables. -/
def SetRun.Inv (s : SetRun c) : Prop :=
  ∀ r (i : Fin c.vars.length), (s.worker.vars r i).Holds (s.values r i) c.vars[i].handler

/-- An index belongs to the variable of its name. -/
theorem PhpSets.index_some {name : Bytes} {i : Fin c.vars.length} (h : c.index name = some i) :
    c.conf.find (ngxStrlow name) = some { changeable := true, indexed := true, index := i } := by
  unfold index at h
  split at h
  · cases h
  next v hfind =>
    split at h
    · obtain rfl := Option.some.inj h
      exact hfind.trans (congrArg some (c.find_some hfind).1)
    · cases h

/-- A set of an unknown name, or without memory, changes nothing. -/
theorem ngxVarSet_none {vars : VariableValues} {pool : Option Bytes} {name val : Bytes}
    (h : pool = none ∨ c.index name = none) :
    (ngxVarSet c.conf vars pool true name val).vars = vars := by
  unfold ngxVarSet ngxHttpPhpVarSet
  cases pool with
  | none => rfl
  | some block =>
    have hindex := h.resolve_left (Option.some_ne_none block)
    have hfind : c.conf.find (ngxStrlow name) = none := by
      by_contra hne
      obtain ⟨v, hv⟩ := Option.ne_none_iff_exists'.mp hne
      obtain ⟨-, w, hw, -⟩ := c.find_some hv
      have hlt := (List.getElem?_eq_some_iff.mp hw).1
      unfold PhpSets.index at hindex
      rw [show c.find (ngxStrlow name) = some v from hv] at hindex
      dsimp only at hindex
      rw [dif_pos hlt] at hindex
      cases hindex
    dsimp only
    rw [hfind]

/-- What the handler leaves in the request that is the current one. -/
theorem variableHandler_some {w : SetWorker} {g : ReqId} (hg : w.request = some g)
    (i : Fin c.vars.length) (block : Bytes) :
    variableHandler c w i (some block) = some { w with
      vars := Function.update w.vars g (Function.update (w.vars g) i
        { len := c.vars[i].handler.length, data := copied c.vars[i].handler block,
          valid := true }) } := by
  have hset := ngxVarSet_some c.conf_plain (c.find_key i) (w.vars g) block true
    c.vars[i].handler
  rw [variableHandler, hg, Option.map_some]
  rw [ngxVarSet] at hset
  rw [hset]

/-- A read that is answered right fills the record with the value. -/
theorem SetRun.inv_reading {s : SetRun c} (hs : s.Inv) {r : ReqId} {i : Fin c.vars.length}
    {pool : Option Bytes}
    (h : (s.worker.vars r i).filled = true ∨ s.worker.request = some r ∧ Stores c i pool) :
    (s.reading r i pool).Inv := by
  unfold reading getIndexed
  by_cases hfilled : (s.worker.vars r i).filled = true
  · rw [if_pos hfilled]
    exact hs
  · obtain ⟨hr, block, rfl, hblock⟩ := h.resolve_left hfilled
    have hvalue : s.values r i = c.vars[i].handler := by
      rcases hs r i with ⟨hvalid, -⟩ | ⟨-, hvalue⟩
      · rw [VariableValue.filled, hvalid, Bool.true_or] at hfilled
        exact absurd rfl hfilled
      · exact hvalue
    rw [if_neg hfilled, variableHandler_some hr]
    intro g j
    change (Function.update s.worker.vars r _ g j).Holds _ _
    by_cases hg : g = r
    · subst hg
      rw [Function.update_self]
      by_cases hj : j = i
      · subst hj
        rw [Function.update_self]
        refine Or.inl ⟨rfl, ?_⟩
        change _ = s.values g j
        rw [hvalue]
        exact (copied_take_iff _ _).mpr hblock
      · rw [Function.update_of_ne fun h => hj (Fin.ext h)]
        exact hs g j
    · rw [Function.update_of_ne hg]
      exact hs g j

/-- A request that is created keeps the invariant. -/
theorem SetRun.inv_creating {s : SetRun c} (hs : s.Inv) (r : ReqId) : (s.creating r).Inv := by
  intro g j
  change (Function.update s.worker.vars r _ g j).Holds (Function.update s.values r _ g j) _
  by_cases hg : g = r
  · subst hg
    rw [Function.update_self, Function.update_self]
    exact Or.inr ⟨rfl, rfl⟩
  · rw [Function.update_of_ne hg, Function.update_of_ne hg]
    exact hs g j

/-- What a script sets is recorded in its request. -/
theorem SetRun.inv_setting {s : SetRun c} (hs : s.Inv) (g : ReqId) (name val : Bytes)
    (pool : Option Bytes) : (s.setting g name val pool).Inv := by
  intro r j
  change (Function.update s.worker.vars g _ r j).Holds (Function.update s.values g _ r j) _
  by_cases hr : r = g
  · subst hr
    rw [Function.update_self, Function.update_self]
    unfold PhpSets.stored
    cases pool with
    | none =>
      rw [ngxVarSet_none (Or.inl rfl)]
      exact hs r j
    | some block =>
      cases hindex : c.index name with
      | none =>
        rw [ngxVarSet_none (Or.inr hindex)]
        exact hs r j
      | some i =>
        rw [ngxVarSet_some c.conf_plain (PhpSets.index_some hindex)]
        dsimp only
        by_cases hj : j = i
        · subst hj
          rw [Function.update_self, Function.update_self]
          exact Or.inl ⟨rfl, rfl⟩
        · rw [Function.update_of_ne hj, Function.update_of_ne fun h => hj (Fin.ext h)]
          exact hs r j
  · rw [Function.update_of_ne hr, Function.update_of_ne hr]
    exact hs r j

/-- Every step in turn keeps the records right. -/
theorem SetRun.inv_step (s : SetRun c) (l : SetStep c) (hs : s.Inv) (h : s.InTurn l) :
    (s.step l).Inv := by
  cases l with
  | create r => exact inv_creating hs r
  | enter r => exact hs
  | read r i pool => exact inv_reading hs h
  | get name pool =>
    obtain ⟨g, i, hg, hi, hready⟩ := h
    have hstep : s.step (.get name pool) = s.reading g i pool := by
      unfold step getting
      rw [hg]
      dsimp only [Option.elim]
      rw [hi]
    rw [hstep]
    exact inv_reading hs (hready.imp id fun hstores => ⟨hg, hstores⟩)
  | set name val pool =>
    unfold step
    cases s.worker.request with
    | none => exact hs
    | some g => exact inv_setting hs g name val pool

/-- A configuration with `php_set $a`, made when it is read. -/
def phpSetA : PhpSets := ⟨[⟨literal "a", literal "hello"⟩], by decide⟩

example : (ngxHttpPhpSetInline2 (fun _ => .string (literal "hello")) (literal "$a")
    { value := literal "'hello'" } {}).map PhpSets.vars = some phpSetA.vars := by decide

end NgxPhp
