import NgxPhp.Nginx.Strings

/-!
# Headers of the response

`ngx_header_set` gives the content type and the content length to fields of their own
and appends every other header to a list. It copies no bytes: the fields point into the
strings of the script. `ngx_header_get` searches the list from its beginning and compares
over the length of the name that was stored, as the memory is by then. Of the value that is
set one payload is read, which one is decided by the name.
-/

namespace NgxPhp

/-- A string of PHP: the address of its `zend_string`, and what it says. -/
structure PhpString where
  addr : Int
  text : Bytes
  deriving DecidableEq, Repr

/-- An `ngx_str_t` that points into a string of PHP. -/
structure BytesAt where
  data : Int := 0
  len : Nat := 0
  deriving DecidableEq, Repr

/-- The bytes of a string, which begin behind the head of its `zend_string`. -/
def PhpString.val (s : PhpString) : BytesAt := { data := s.addr + 24, len := s.text.length }

/-- The memory of the worker at some time. -/
structure Memory where
  byte : Int → UInt8
  /-- The string, if there is one, at the address that is an integer. -/
  stringAt : Int → Option PhpString

/-- The bytes that are there by now. -/
def Memory.read (mem : Memory) (s : BytesAt) : Bytes :=
  (List.range s.len).map fun i => mem.byte (s.data + i)

/-- The string is still where it was. -/
def Memory.Has (mem : Memory) (s : PhpString) : Prop := mem.read s.val = s.text

instance decidableHas (mem : Memory) (s : PhpString) : Decidable (mem.Has s) :=
  inferInstanceAs (Decidable (_ = _))

/-- A PHP value. -/
inductive HeaderValue
  | long (n : Int)
  | string (s : PhpString)
  | other
  deriving DecidableEq, Repr

/-- A member of the union in a value. -/
inductive Payload
  | lval
  | str
  deriving DecidableEq, Repr

/-- The type of a value is that of a member. -/
def Payload.Fits : Payload → HeaderValue → Prop
  | .lval, .long _ => True
  | .str, .string _ => True
  | _, _ => False

/-- `Z_LVAL_P`, which of a string is its address. -/
def HeaderValue.lval : HeaderValue → Int
  | .long n => n
  | .string s => s.addr
  | .other => 0

/-- The string that `Z_STRVAL_P` and `Z_STRLEN_P` read. -/
def Memory.str (mem : Memory) : HeaderValue → Option PhpString
  | .long n => mem.stringAt n
  | .string s => some s
  | .other => none

/-- An element of `r->headers_out.headers`. -/
structure OutHeader where
  key : BytesAt
  value : BytesAt
  deriving DecidableEq, Repr

/-- The fields of `r->headers_out` that the functions use. -/
structure OutHeaders where
  contentType : BytesAt := {}
  contentTypeLen : Nat := 0
  contentLengthN : Int := -1
  headers : NgxList OutHeader := { nalloc := 20 }
  deriving DecidableEq, Repr

/-- How `ngx_header_set` returns; a fault is the end of the worker. -/
inductive SetReturn
  | null
  | false
  | true
  | fault
  deriving DecidableEq, Repr

/-- A call of `ngx_header_set`: what it returns and leaves, and the payloads that it reads. -/
structure HeaderSet where
  ret : SetReturn
  out : OutHeaders
  reads : List Payload := []
  deriving DecidableEq, Repr

/-- The comparison that routes a name to the content type. -/
def IsContentType (key : Bytes) : Prop := ngxStrncasecmp key (literal "content-type") 12 = 0

/-- The comparison that routes a name to the content length. -/
def IsContentLength (key : Bytes) : Prop := ngxStrncasecmp key (literal "content-length") 14 = 0

instance decidableIsContentType : DecidablePred IsContentType :=
  fun _ => inferInstanceAs (Decidable (_ = _))

instance decidableIsContentLength : DecidablePred IsContentLength :=
  fun _ => inferInstanceAs (Decidable (_ = _))

/-- `PHP_FUNCTION(ngx_header_set)`, with what the pool returns. A value of another type makes it
throw `header value type must be long or string.` -/
def ngxHeaderSet (mem : Memory) (allocated : Bool) (out : OutHeaders) (key : PhpString)
    (value : HeaderValue) : HeaderSet :=
  if value = .other then { ret := .null, out }
  else if IsContentType key.text then
    match mem.str value with
    | none => { ret := .fault, out, reads := [.str] }
    | some s =>
      { ret := .true, out := { out with contentType := s.val, contentTypeLen := s.text.length },
        reads := [.str] }
  else if IsContentLength key.text then
    { ret := .true, out := { out with contentLengthN := value.lval }, reads := [.lval] }
  else
    match out.headers.push allocated with
    | none => { ret := .false, out }
    | some place =>
      match mem.str value with
      | none => { ret := .fault, out, reads := [.str] }
      | some s =>
        { ret := .true, out := { out with headers := place ⟨key.val, s.val⟩ }, reads := [.str] }

/-- The comparison of a key with a stored name, over the length of the name. -/
def Begins (name key : Bytes) : Prop := ngxStrncasecmp key name name.length = 0

instance decidableBegins (name key : Bytes) : Decidable (Begins name key) :=
  inferInstanceAs (Decidable (_ = _))

/-- A call of `ngx_header_set` with a string. -/
structure HeaderCall where
  key : PhpString
  value : PhpString
  allocated : Bool := true
  deriving DecidableEq, Repr

/-- What a call stores in the list. -/
def HeaderCall.stored (c : HeaderCall) : OutHeader := ⟨c.key.val, c.value.val⟩

/-- The headers after some calls, and the calls that returned true. -/
structure HeaderRun where
  out : OutHeaders := {}
  made : List HeaderCall := []
  deriving DecidableEq, Repr

/-- One more call. -/
def HeaderRun.call (mem : Memory) (run : HeaderRun) (c : HeaderCall) : HeaderRun :=
  let set := ngxHeaderSet mem c.allocated run.out c.key (.string c.value)
  { out := set.out,
    made :=
      match set.ret with
      | .true => run.made ++ [c]
      | _ => run.made }

/-- The latest call with a name that is routed to the content type. -/
def latestContentType (made : List HeaderCall) : Option HeaderCall :=
  made.reverse.find? fun c => IsContentType c.key.text

/-- The calls whose names are stored in the list. -/
def listed (made : List HeaderCall) : List HeaderCall :=
  made.filter fun c => ¬ IsContentType c.key.text ∧ ¬ IsContentLength c.key.text

/-- What the fields hold of the calls. -/
structure HeaderRun.Holds (run : HeaderRun) : Prop where
  contentType : run.out.contentType =
    ((latestContentType run.made).map fun c => c.value.val).getD {}
  headers : run.out.headers.elements = (listed run.made).map HeaderCall.stored

/-- A string is stored where it is, except under the content length. -/
theorem ngxHeaderSet_string (mem : Memory) (allocated : Bool) (out : OutHeaders)
    (key s : PhpString) :
    ngxHeaderSet mem allocated out key (.string s) =
      if IsContentType key.text then
        ⟨.true, { out with contentType := s.val, contentTypeLen := s.text.length }, [.str]⟩
      else if IsContentLength key.text then
        ⟨.true, { out with contentLengthN := s.addr }, [.lval]⟩
      else
        match out.headers.push allocated with
        | none => ⟨.false, out, []⟩
        | some place => ⟨.true, { out with headers := place ⟨key.val, s.val⟩ }, [.str]⟩ :=
  if_neg HeaderValue.noConfusion

/-- One more call keeps what the fields hold. -/
theorem HeaderRun.Holds.call {run : HeaderRun} (h : run.Holds) (mem : Memory) (c : HeaderCall) :
    (run.call mem c).Holds := by
  obtain ⟨htype, hheaders⟩ := h
  unfold HeaderRun.call
  rw [ngxHeaderSet_string]
  by_cases ht : IsContentType c.key.text
  · rw [if_pos ht]
    exact ⟨by simp [latestContentType, ht], by simp [listed, ht, hheaders]⟩
  have hlatest : latestContentType (run.made ++ [c]) = latestContentType run.made := by
    simp [latestContentType, ht]
  rw [if_neg ht]
  by_cases hl : IsContentLength c.key.text
  · rw [if_pos hl]
    refine ⟨?_, by simp [listed, hl, hheaders]⟩
    rw [hlatest]
    exact htype
  rw [if_neg hl]
  cases hpush : run.out.headers.push c.allocated with
  | none => exact ⟨htype, hheaders⟩
  | some place =>
    refine ⟨?_, ?_⟩
    · rw [hlatest]
      exact htype
    · have hplace := NgxList.elements_push hpush ⟨c.key.val, c.value.val⟩
      rw [hheaders] at hplace
      exact hplace.trans (by simp [listed, ht, hl, HeaderCall.stored])

/-- A memory with these strings. -/
def Memory.of (strings : List PhpString) : Memory where
  byte a :=
    ((strings.find? fun s => s.addr + 24 ≤ a ∧ a < s.addr + 24 + s.text.length).map fun s =>
      s.text.getD (a - s.addr - 24).toNat 0).getD 0
  stringAt _ := none

/-- The number that decimal digits denote. -/
def decimalDigits (s : Bytes) : Option Nat :=
  if s ≠ [] ∧ s.all fun b => 48 ≤ b ∧ b ≤ 57 then
    some (s.foldl (fun n b => n * 10 + (b.toNat - 48)) 0)
  else none

/-- The integer that a decimal text denotes. -/
def decimalValue : Bytes → Option Int
  | [] => none
  | b :: s => if b = 45 then (decimalDigits s).map fun n => -(n : Int)
    else (decimalDigits (b :: s)).map fun n => (n : Int)

/-- Under a name, fields hold an integer as the decimal number that it is. -/
def StoredNumber (mem : Memory) (key : PhpString) (out : OutHeaders) (n : Int) : Prop :=
  if IsContentType key.text then decimalValue (mem.read out.contentType) = some n
  else if IsContentLength key.text then out.contentLengthN = n
  else ∃ h ∈ out.headers.elements, h.key = key.val ∧ decimalValue (mem.read h.value) = some n

/-- The function reads a value as what it is. -/
structure ReadByType (mem : Memory) (key : PhpString) (value : HeaderValue) (set : HeaderSet) :
    Prop where
  reads : ∀ payload ∈ set.reads, payload.Fits value
  /-- An integer that is accepted is stored as its number. -/
  integer : ∀ n, value = .long n → set.ret = .true → StoredNumber mem key set.out n
  /-- So is a numeric string under the content length. -/
  numeric : ∀ s n, value = .string s → IsContentLength key.text → decimalValue s.text = some n →
    set.ret = .true → set.out.contentLengthN = n

/-- A name that is routed to the content length is given an integer, any other one a string. -/
def FitsName (key : Bytes) : HeaderValue → Prop
  | .long _ => IsContentLength key
  | .string _ => ¬ IsContentLength key
  | .other => True

instance decidableFitsName (key : Bytes) (value : HeaderValue) :
    Decidable (FitsName key value) := by
  unfold FitsName
  match value with
  | .long _ | .string _ | .other => dsimp only; infer_instance

/-- The value is not reached: a header of another name finds no room in the list. -/
def NoRoom (allocated : Bool) (out : OutHeaders) (key : Bytes) : Prop :=
  ¬ IsContentType key ∧ ¬ IsContentLength key ∧ out.headers.push allocated = none

theorem IsContentType.not_isContentLength {key : Bytes} (ht : IsContentType key) :
    ¬ IsContentLength key := by
  intro hl
  have htype := (ngxStrncasecmp_eq_zero_iff _ _ _).mp ht
  have hlength := congrArg (List.take 12) ((ngxStrncasecmp_eq_zero_iff _ _ _).mp hl)
  rw [List.take_take, Nat.min_eq_left (by decide), htype] at hlength
  revert hlength
  decide

/-- What a call with an integer does. -/
theorem ngxHeaderSet_long (mem : Memory) (allocated : Bool) (out : OutHeaders) (key : PhpString)
    (n : Int) :
    ReadByType mem key (.long n) (ngxHeaderSet mem allocated out key (.long n)) ↔
      NoRoom allocated out key.text ∨ IsContentLength key.text := by
  have hbad {set : HeaderSet} (h : set.reads = [.str]) : ¬ ReadByType mem key (.long n) set :=
    fun hr => hr.reads .str (h ▸ List.mem_singleton.mpr rfl)
  unfold ngxHeaderSet
  rw [if_neg HeaderValue.noConfusion]
  by_cases ht : IsContentType key.text
  · rw [if_pos ht]
    refine iff_of_false ?_ fun h => h.elim (fun hno => hno.1 ht) ht.not_isContentLength
    cases mem.str (.long n) with
    | none => exact hbad rfl
    | some s => exact hbad rfl
  rw [if_neg ht]
  by_cases hl : IsContentLength key.text
  · rw [if_pos hl]
    refine iff_of_true ⟨fun payload hp => ?_, fun m hm _ => ?_, nofun⟩ (Or.inr hl)
    · rw [List.mem_singleton.mp hp]
      trivial
    · cases hm
      unfold StoredNumber
      rw [if_neg ht, if_pos hl]
      rfl
  rw [if_neg hl]
  cases hpush : out.headers.push allocated with
  | none =>
    exact iff_of_true ⟨nofun, fun _ _ hret => SetReturn.noConfusion hret, nofun⟩
      (Or.inl ⟨ht, hl, hpush⟩)
  | some place =>
    refine iff_of_false ?_ fun h => h.elim (fun hno => ?_) hl
    · cases mem.str (.long n) with
      | none => exact hbad rfl
      | some s => exact hbad rfl
    · exact Option.some_ne_none place (hpush.symm.trans hno.2.2)

/-- What a call with a string does. -/
theorem ngxHeaderSet_string_readByType (mem : Memory) (allocated : Bool) (out : OutHeaders)
    (key s : PhpString) :
    ReadByType mem key (.string s) (ngxHeaderSet mem allocated out key (.string s)) ↔
      NoRoom allocated out key.text ∨ ¬ IsContentLength key.text := by
  have hgood {set : HeaderSet} (h : ∀ payload ∈ set.reads, payload = .str)
      (hl : ¬ IsContentLength key.text) : ReadByType mem key (.string s) set :=
    ⟨fun payload hp => h payload hp ▸ trivial, nofun, fun _ _ _ hlength => absurd hlength hl⟩
  rw [ngxHeaderSet_string]
  by_cases ht : IsContentType key.text
  · rw [if_pos ht]
    refine iff_of_true (hgood ?_ ht.not_isContentLength) (Or.inr ht.not_isContentLength)
    exact fun payload hp => List.mem_singleton.mp hp
  rw [if_neg ht]
  by_cases hl : IsContentLength key.text
  · rw [if_pos hl]
    refine iff_of_false (fun h => ?_) fun h => h.elim (fun hno => hno.2.1 hl) fun h => h hl
    exact h.reads .lval (List.mem_singleton.mpr rfl)
  rw [if_neg hl]
  refine iff_of_true (hgood ?_ hl) (Or.inr hl)
  cases out.headers.push allocated with
  | none => exact nofun
  | some place => exact fun payload hp => List.mem_singleton.mp hp

/-- A value is read as what it is just where its type is the one that the name stands for, or the
value is not reached. -/
theorem ngxHeaderSet_readByType_iff (mem : Memory) (allocated : Bool) (out : OutHeaders)
    (key : PhpString) (value : HeaderValue) (h : value ≠ .other) :
    ReadByType mem key value (ngxHeaderSet mem allocated out key value) ↔
      NoRoom allocated out key.text ∨ FitsName key.text value := by
  cases value with
  | long n => exact ngxHeaderSet_long mem allocated out key n
  | string s => exact ngxHeaderSet_string_readByType mem allocated out key s
  | other => exact absurd rfl h

theorem ngxHeaderSet_readByType_length :
    ReadByType (.of []) ⟨0, literal "Content-Length"⟩ (.long 20)
      (ngxHeaderSet (.of []) true {} ⟨0, literal "Content-Length"⟩ (.long 20)) :=
  (ngxHeaderSet_readByType_iff _ true {} _ (.long 20) HeaderValue.noConfusion).mpr
    (Or.inr (by decide))

/-- An integer under another name is taken for the address of a string. -/
theorem ngxHeaderSet_not_readByType :
    ¬ ∀ (mem : Memory) (allocated : Bool) (out : OutHeaders) (key : PhpString)
      (value : HeaderValue),
      value ≠ .other → ReadByType mem key value (ngxHeaderSet mem allocated out key value) := by
  intro h
  have htype := h (.of []) true {} ⟨0, literal "X-Foo"⟩ (.long 5) HeaderValue.noConfusion
  exact htype.reads .str (by decide)

end NgxPhp
