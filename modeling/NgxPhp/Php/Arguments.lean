import NgxPhp.Nginx.Cycle
import NgxPhp.Lib.OrderedMap

/-!
# Request arguments

`ngx_query_args`, `ngx_post_args` and the methods of the same names parse a text
of the form `key=value&key=value`. The four functions contain the same loop, here
`parseLoop`; they differ in the text they take.
-/

namespace NgxPhp

/-- `r->request_body`: the flag of `temp_file` and what the buffers of `bufs` hold. -/
structure RequestBody where
  tempFile : Bool := false
  bufs : List Bytes
  deriving DecidableEq, Repr

/-- What the argument functions read of the request. -/
structure ArgsRequest where
  args : Bytes
  discardBody : Bool := false
  requestBody : Option RequestBody := none
  deriving DecidableEq, Repr

/-- A byte of the text. -/
def ampersand : UInt8 := 38
/-- A byte of the text. -/
def equalsSign : UInt8 := 61

/-- What `strlen` and with it PHP see of a zero-terminated string. -/
def cString (b : Bytes) : Bytes := b.takeWhile (· ≠ 0)

/-- One call of `add_assoc_stringl`: the key, unless it is `NULL`, and the value. -/
structure Addition where
  key : Option Bytes
  value : Bytes
  deriving DecidableEq, Repr

/-- The variables of the loop: the string in `query_key`, the bytes from `p` to `buf`, the
flag and the calls made so far. The key stays after `ngx_pfree`, which gives back large
blocks only. -/
structure ArgsState where
  key : Option Bytes := none
  text : Bytes := []
  parsingValue : Bool := false
  added : List Addition := []
  deriving DecidableEq, Repr

def ArgsState.endKey (st : ArgsState) : ArgsState :=
  { st with key := some (cString st.text), text := [], parsingValue := true }

def ArgsState.endValue (st : ArgsState) : ArgsState :=
  { st with added := st.added ++ [⟨st.key, st.text⟩], text := [], parsingValue := false }

def ArgsState.push (st : ArgsState) (b : UInt8) : ArgsState := { st with text := st.text ++ [b] }

/-- The first half of a round, on the bytes from `buf` to `last`. -/
def ArgsState.separator (st : ArgsState) : Bytes → ArgsState × Bytes
  | [] => (st, [])
  | b :: rest =>
    if b = equalsSign then (st.endKey, rest)
    else if b = ampersand then (st.endValue, rest)
    else (st, b :: rest)

/-- The second half of a round: step over a byte that is not an ampersand. -/
def ArgsState.advance (st : ArgsState) : Bytes → ArgsState × Bytes
  | [] => (st, [])
  | b :: rest => if b ≠ ampersand then (st.push b, rest) else (st, b :: rest)

/-- `while (buf != last)`, for at most so many rounds. -/
def parseLoop : Nat → ArgsState → Bytes → ArgsState × Bytes
  | 0, st, rest => (st, rest)
  | _ + 1, st, [] => (st, [])
  | n + 1, st, b :: rest =>
    let round := (st.separator (b :: rest)).1.advance (st.separator (b :: rest)).2
    parseLoop n round.1 round.2

/-- What is added behind the loop. -/
def ArgsState.finish (st : ArgsState) : List Addition :=
  if st.parsingValue then st.added ++ [⟨st.key, st.text⟩] else st.added

/-- The part that all four functions share. -/
def parseArgs (text : Bytes) : List Addition := (parseLoop text.length {} text).1.finish

/-- The additions made by `PHP_FUNCTION(ngx_query_args)`. -/
def ngxQueryArgs (r : ArgsRequest) : List Addition :=
  if r.args.length = 0 then [] else parseArgs r.args

/-- The additions made by `PHP_FUNCTION(ngx_post_args)`. -/
def ngxPostArgs (r : ArgsRequest) : List Addition :=
  match r.requestBody with
  | none => []
  | some body =>
    if r.discardBody || body.tempFile || body.bufs.isEmpty then []
    else
      let len := body.bufs.foldl (fun len buf => len + buf.length) 0
      if len = 0 then [] else parseArgs body.bufs.flatten

/-- `PHP_METHOD(ngx, query_args)` has the body of the function. -/
def Ngx.queryArgs (r : ArgsRequest) : List Addition := ngxQueryArgs r

/-- `PHP_METHOD(ngx, post_args)` has the body of the function. -/
def Ngx.postArgs (r : ArgsRequest) : List Addition := ngxPostArgs r

/-- A PHP array with string keys; keys that PHP turns into integers are told apart by
their decimal texts. -/
abbrev PhpArray := OrderedMap Bytes Bytes

/-- `add_assoc_stringl`; with the key `NULL` it does not return. -/
def addAssocStringl (a : PhpArray) (e : Addition) : Option PhpArray :=
  e.key.map fun key => a.set key e.value

/-- The array that the additions leave in `return_value`. -/
def returnValue (es : List Addition) : Option PhpArray := es.foldlM addAssocStringl .empty

/-- The text of the body that the functions for POST arguments parse. -/
def ArgsRequest.bodyText (r : ArgsRequest) : Bytes :=
  match r.requestBody with
  | none => []
  | some body => if r.discardBody || body.tempFile then [] else body.bufs.flatten

theorem parseArgs_nil : parseArgs [] = [] := rfl

theorem ngxQueryArgs_eq (r : ArgsRequest) : ngxQueryArgs r = parseArgs r.args := by
  unfold ngxQueryArgs
  split
  next h => rw [List.eq_nil_of_length_eq_zero h, parseArgs_nil]
  next => rfl

theorem foldl_length (bufs : List Bytes) (n : Nat) :
    bufs.foldl (fun len buf => len + buf.length) n = n + bufs.flatten.length := by
  induction bufs generalizing n with
  | nil => rfl
  | cons buf bufs ih =>
    rw [List.foldl_cons, ih, List.flatten_cons, List.length_append, Nat.add_assoc]

theorem ngxPostArgs_eq (r : ArgsRequest) : ngxPostArgs r = parseArgs r.bodyText := by
  unfold ngxPostArgs ArgsRequest.bodyText
  cases r.requestBody with
  | none => rfl
  | some body =>
    dsimp only
    rw [foldl_length, Nat.zero_add]
    by_cases hd : (r.discardBody || body.tempFile) = true
    · rw [if_pos hd, if_pos (by rw [hd, Bool.true_or]), parseArgs_nil]
    rw [if_neg hd]
    split
    next h =>
      have hb : body.bufs = [] := by simpa [hd] using h
      rw [hb]
      rfl
    next =>
      split
      next h => rw [List.eq_nil_of_length_eq_zero h, parseArgs_nil]
      next => rfl

/-! ## The loop as a pass over the text -/

/-- What one byte does; `skip` tells that it follows a separator, and then only an
ampersand is looked at. -/
def ArgsState.feed (skip : Bool) (st : ArgsState) (b : UInt8) : ArgsState :=
  if b = ampersand then st.endValue
  else if b = equalsSign ∧ skip = false then st.endKey
  else st.push b

/-- Whether the byte after this one is stepped over. -/
def skipAfter (skip : Bool) (b : UInt8) : Bool := b = ampersand || (b = equalsSign && !skip)

/-- A pass over a text. -/
def ArgsState.read (skip : Bool) (st : ArgsState) : Bytes → ArgsState
  | [] => st
  | b :: bs => (st.feed skip b).read (skipAfter skip b) bs

/-- Stepping over the byte behind a separator is reading on with the flag. -/
theorem ArgsState.read_advance (st : ArgsState) (bs : Bytes) :
    (st.advance bs).1.read false (st.advance bs).2 = st.read true bs ∧
      (st.advance bs).2.length ≤ bs.length := by
  cases bs with
  | nil => exact ⟨rfl, Nat.le_refl _⟩
  | cons b bs =>
    by_cases hb : b = ampersand
    · subst hb
      exact ⟨rfl, Nat.le_refl _⟩
    · have hadv : st.advance (b :: bs) = (st.push b, bs) := if_pos hb
      have hfeed : st.feed true b = st.push b := by simp [feed, hb]
      have hskip : skipAfter true b = false := by simp [skipAfter, hb]
      rw [hadv, read, hfeed, hskip]
      exact ⟨rfl, Nat.le_succ _⟩

/-- One round of the loop reads one or two bytes. -/
theorem ArgsState.read_round (st : ArgsState) (b : UInt8) (bs : Bytes) :
    let round := (st.separator (b :: bs)).1.advance (st.separator (b :: bs)).2
    round.1.read false round.2 = st.read false (b :: bs) ∧ round.2.length ≤ bs.length := by
  by_cases he : b = equalsSign
  · subst he
    exact read_advance st.endKey bs
  · by_cases ha : b = ampersand
    · subst ha
      exact read_advance st.endValue bs
    · have hsep : st.separator (b :: bs) = (st, b :: bs) := by simp [separator, he, ha]
      have hadv : st.advance (b :: bs) = (st.push b, bs) := if_pos ha
      have hfeed : st.feed false b = st.push b := by simp [feed, he, ha]
      have hskip : skipAfter false b = false := by simp [skipAfter, he, ha]
      rw [hsep, hadv, read, hfeed, hskip]
      exact ⟨rfl, Nat.le_refl _⟩

/-- The loop ends with nothing left, in the state a pass over the text leads to. -/
theorem parseLoop_eq {n : Nat} {bs : Bytes} (h : bs.length ≤ n) (st : ArgsState) :
    parseLoop n st bs = (st.read false bs, []) := by
  induction n generalizing st bs with
  | zero =>
    obtain rfl := List.eq_nil_of_length_eq_zero (Nat.le_zero.mp h)
    rfl
  | succ n ih =>
    cases bs with
    | nil => rfl
    | cons b bs =>
      obtain ⟨hread, hlen⟩ := st.read_round b bs
      have hbs : bs.length ≤ n := Nat.le_of_succ_le_succ h
      rw [parseLoop, ih (Nat.le_trans hlen hbs), hread]

theorem parseArgs_eq (text : Bytes) : parseArgs text = (ArgsState.read false {} text).finish := by
  rw [parseArgs, parseLoop_eq (Nat.le_refl _)]

/-- An ampersand ends the value in any case. -/
theorem ArgsState.read_append_ampersand (skip : Bool) (st : ArgsState) (w rest : Bytes) :
    st.read skip (w ++ ampersand :: rest) = (st.read skip w).endValue.read true rest := by
  induction w generalizing skip st with
  | nil => rfl
  | cons b w ih => exact ih _ _

end NgxPhp
