import Mathlib.Algebra.Group.Int.Defs
import Mathlib.Algebra.Group.Nat.Defs
import NgxPhp.Lib.Substitution
import NgxPhp.Nginx.Strings

/-!
# Replacement in a string

`occurrences` counts what `str_replace` replaces, and the room for the result is computed from the
count. The pieces of the result are then written one after the other, each by an `snprintf` that
is given what is left of the room and puts a zero behind its piece. What is written is always the
beginning of the result, with zeros up to the end of the room.
-/

namespace NgxPhp

open Substitution

/-- A number as an `int`. -/
def cInt (n : Int) : Int := n.bmod (2 ^ 32)

/-- A number as a `size_t`. -/
def cSize (n : Int) : Nat := (n % 2 ^ 64).toNat

/-- A small number is an `int` as it is. -/
theorem cInt_of_lt {n : Nat} (h : n < 2 ^ 31) : cInt n = n := by
  unfold cInt
  rw [Int.bmod_eq_of_le] <;> omega

/-- A small number is a `size_t` as it is. -/
theorem cSize_of_lt {n : Nat} (h : n < 2 ^ 64) : cSize n = n := by
  unfold cSize
  omega

/-- `strstr`: how far behind the first string the second one is found. -/
def strstr (pos sub : Bytes) : Option Nat := findSub sub pos

/-- The loop of `occurrences`, `none` where the fuel runs out. -/
def occurrencesLoop (needle : Bytes) : Nat → Bytes → Nat → Option Nat
  | 0, _, _ => none
  | fuel + 1, pos, i =>
    match strstr pos needle with
    | none => some i
    | some at' => occurrencesLoop needle fuel (pos.drop (at' + needle.length)) (cSize (i + 1))

/-- `occurrences`. -/
def occurrences (needle haystack : CString) : Option Nat :=
  if needle.text.length = 0 then some 0
  else occurrencesLoop needle.text (haystack.text.length + 1) haystack.text 0

/-- Bytes that are written from a place in an allocated block on. -/
structure BufferWrite where
  start : Int
  bytes : Bytes
  deriving DecidableEq, Repr

/-- A write that touches only so many bytes of its block. -/
def BufferWrite.Within (w : BufferWrite) (size : Int) : Prop :=
  0 ≤ w.start ∧ w.start + w.bytes.length ≤ size

instance decidableWithin (w : BufferWrite) (size : Int) : Decidable (w.Within size) :=
  inferInstanceAs (Decidable (_ ∧ _))

/-- What a block holds after writes; nothing is known of it before them. -/
def written (writes : List BufferWrite) : Bytes :=
  writes.foldl (fun block w =>
    block.take w.start.toNat ++ w.bytes ++ block.drop (w.start.toNat + w.bytes.length)) []

/-- `snprintf` of a text at an offset: at most so many bytes with the zero behind them, and nothing
where there is room for none. -/
def snprintf (offset : Int) (room : Nat) (text : Bytes) : List BufferWrite :=
  if room = 0 then [] else [⟨offset, text.take (room - 1) ++ [0]⟩]

/-- `%.*s`: a precision that is negative is as if there were none. -/
def precision (len : Int) (s : Bytes) : Bytes := if len < 0 then s else s.take len.toNat

/-- What a call has done: the string it returns, unless nothing was allocated, the size it computed
for it, what it wrote there, and how often its loop ran. -/
structure Replaced where
  returned : Option Bytes
  size : Int
  writes : List BufferWrite
  rounds : Nat
  deriving DecidableEq, Repr

/-- `strdup`. -/
def strdup (malloc : Nat → Bool) (s : CString) : Replaced :=
  let size := s.text.length + 1
  if malloc size then
    let writes := [⟨0, s.text ++ [0]⟩]
    { returned := some (cString (written writes)), size, writes, rounds := 0 }
  else { returned := none, size, writes := [], rounds := 0 }

/-- The variables of the loop of `str_replace`, what it has written and how often it has run. -/
structure Replacing where
  pos : Bytes
  offset : Int
  writes : List BufferWrite
  rounds : Nat

/-- The loop of `str_replace`, `none` where the fuel runs out. -/
def replaceLoop (sub replace : Bytes) (size : Int) : Nat → Replacing → Option Replacing
  | 0, _ => none
  | fuel + 1, r =>
    match strstr r.pos sub with
    | none => some r
    | some current =>
      let len := cInt current
      let before := snprintf r.offset (cSize (cInt (size - r.offset))) (precision len r.pos)
      let offset := cInt (r.offset + len)
      let replaced := snprintf offset (cSize (cInt (size - offset))) replace
      replaceLoop sub replace size fuel
        { pos := r.pos.drop (current + sub.length)
          offset := cInt (offset + cInt replace.length)
          writes := r.writes ++ before ++ replaced
          rounds := r.rounds + 1 }

/-- `str_replace`, with a `malloc` that returns a block of some sizes and `NULL` for the others. The
sizes are added up as `size_t`, so it is enough to reduce their sum. -/
def strReplace (malloc : Nat → Bool) (str sub replace : CString) : Option Replaced :=
  (occurrences sub str).bind fun n =>
    let count := cInt n
    if count ≤ 0 then some (strdup malloc str)
    else
      let size := cInt (cSize (str.text.length - sub.text.length * count +
        replace.text.length * count + 1))
      if malloc (cSize size) then
        let cleared : BufferWrite := ⟨0, List.replicate (cSize size) 0⟩
        (replaceLoop sub.text replace.text size (str.text.length + 1)
          ⟨str.text, 0, [cleared], 0⟩).map fun r =>
          let rest := if r.pos = [] then []
            else snprintf r.offset (cSize (cInt (size - r.offset))) r.pos
          let writes := r.writes ++ rest
          { returned := some (cString (written writes)), size, writes, rounds := r.rounds }
      else some { returned := none, size, writes := [], rounds := 0 }

/-! ## Counting -/

/-- The loop counts the occurrences from left to right. -/
theorem occurrencesLoop_eq {needle : Bytes} (hneedle : needle ≠ []) {pos : Bytes} {fuel i : Nat}
    (hfuel : pos.length < fuel) (hi : i + pos.length < 2 ^ 64) :
    occurrencesLoop needle fuel pos i = some (i + count needle pos) := by
  induction pos using occurrence_induction hneedle generalizing fuel i with
  | hnone pos h =>
    obtain ⟨fuel, rfl⟩ := Nat.exists_eq_add_one_of_ne_zero (Nat.ne_of_gt (Nat.zero_lt_of_lt hfuel))
    rw [occurrencesLoop, strstr, h, count_of_none h]
    rfl
  | hsome pos at' h ih =>
    obtain ⟨fuel, rfl⟩ := Nat.exists_eq_add_one_of_ne_zero (Nat.ne_of_gt (Nat.zero_lt_of_lt hfuel))
    have hle := add_le_of_findSub hneedle h
    have hpos := List.length_pos_iff.mpr hneedle
    have hnext : cSize ((i : Int) + 1) = i + 1 := cSize_of_lt (n := i + 1) (by omega)
    rw [occurrencesLoop, strstr, h, count_of_some hneedle h]
    simp only [hnext]
    rw [ih (by rw [List.length_drop]; omega) (by rw [List.length_drop]; omega)]
    congr 1
    omega

/-- The loop counts the occurrences. -/
theorem occurrences_eq {needle haystack : CString} (hneedle : needle.text ≠ [])
    (hlen : haystack.text.length < 2 ^ 64) :
    occurrences needle haystack = some (count needle.text haystack.text) := by
  rw [occurrences, if_neg (mt List.length_eq_zero_iff.mp hneedle),
    occurrencesLoop_eq hneedle (Nat.lt_succ_self _) (by omega), Nat.zero_add]

/-! ## Writing -/

/-- A write at the end covers what it covers. -/
theorem written_append_singleton (writes : List BufferWrite) (w : BufferWrite) :
    written (writes ++ [w]) = (written writes).take w.start.toNat ++ w.bytes ++
      (written writes).drop (w.start.toNat + w.bytes.length) :=
  List.foldl_append

/-- An offset that is moved on behind a piece. -/
theorem cInt_add_length {s t : Bytes} (h : s.length + t.length < 2 ^ 31) :
    cInt ((s.length : Int) + t.length) = (s ++ t).length := by
  rw [← Int.natCast_add, cInt_of_lt h, List.length_append]

/-- A block of so many bytes holds what is done of the result and zeros behind it, and all writes
were within it. -/
structure Filled (size : Nat) (writes : List BufferWrite) (done : Bytes) : Prop where
  lt : done.length < size
  holds : written writes = done ++ List.replicate (size - done.length) 0
  within : ∀ w ∈ writes, w.Within size

/-- A buffer that has been cleared is filled with nothing. -/
theorem filled_cleared {size : Nat} (hsize : 0 < size) :
    Filled size [⟨0, List.replicate size 0⟩] [] := by
  refine ⟨hsize, ?_, ?_⟩
  · simp [written]
  · intro w hw
    rw [List.mem_singleton] at hw
    subst hw
    simp [BufferWrite.Within]

/-- A piece for which there is room is written whole behind what is done. -/
theorem Filled.snprintf {size : Nat} {writes : List BufferWrite} {done : Bytes}
    (h : Filled size writes done) (hsize : size < 2 ^ 31) {t : Bytes}
    (ht : done.length + t.length < size) :
    Filled size
      (writes ++ snprintf done.length (cSize (cInt ((size : Int) - done.length))) t)
      (done ++ t) := by
  have hroom : cSize (cInt ((size : Int) - done.length)) = size - done.length := by
    rw [← Int.ofNat_sub h.lt.le, cInt_of_lt (by omega), cSize_of_lt (by omega)]
  have hne : size - done.length ≠ 0 := Nat.sub_ne_zero_of_lt h.lt
  rw [hroom, NgxPhp.snprintf, if_neg hne, List.take_of_length_le (by omega)]
  refine ⟨?_, ?_, ?_⟩
  · rwa [List.length_append]
  · have hleft : size - (done ++ t).length = 1 + (size - done.length - (t.length + 1)) := by
      rw [List.length_append]
      omega
    rw [written_append_singleton, h.holds, Int.toNat_natCast, List.take_left,
      List.drop_append, List.drop_of_length_le (Nat.le_add_right _ _), List.nil_append,
      Nat.add_sub_cancel_left, List.drop_replicate, List.length_append, List.length_singleton,
      hleft, List.replicate_add]
    simp
  · intro w hw
    rcases List.mem_append.mp hw with hw | hw
    · exact h.within w hw
    · rw [List.mem_singleton] at hw
      subst hw
      have hlt := h.lt
      have hend : (done.length : Int) + (t ++ [(0 : UInt8)]).length ≤ size := by
        rw [List.length_append, List.length_singleton]
        omega
      exact ⟨Int.natCast_nonneg _, hend⟩

/-- What is left behind the last occurrence is written if there is any. -/
theorem Filled.rest {size : Nat} {writes : List BufferWrite} {done : Bytes}
    (h : Filled size writes done) (hsize : size < 2 ^ 31) (pos : Bytes)
    (hpos : done.length + pos.length < size) :
    Filled size
      (writes ++ if pos = [] then []
        else NgxPhp.snprintf done.length (cSize (cInt ((size : Int) - done.length))) pos)
      (done ++ pos) := by
  split
  · next hnil =>
    rwa [hnil, List.append_nil, List.append_nil]
  · exact h.snprintf hsize hpos

section Loop

variable {sub : Bytes} (rep : Bytes) {size : Nat}

/-- One round writes what stands before the occurrence, and the replacement. -/
theorem replaceLoop_some (hsize : size < 2 ^ 31) {pos : Bytes} {i : Nat}
    (hi : findSub sub pos = some i) (hle : i ≤ pos.length) {writes : List BufferWrite}
    {done : Bytes} (h : Filled size writes done)
    (hroom : done.length + i + rep.length < size) (fuel rounds : Nat) :
    ∃ writes', Filled size writes' (done ++ pos.take i ++ rep) ∧
      replaceLoop sub rep size (fuel + 1) ⟨pos, done.length, writes, rounds⟩ =
        replaceLoop sub rep size fuel
          ⟨pos.drop (i + sub.length), (done ++ pos.take i ++ rep).length, writes', rounds + 1⟩ := by
  have hlen : (pos.take i).length = i := List.length_take_of_le hle
  have hi' : cInt (i : Int) = i := cInt_of_lt (by omega)
  have hrep : cInt (rep.length : Int) = rep.length := cInt_of_lt (by omega)
  have hbefore := h.snprintf hsize (t := pos.take i) (by omega)
  have hreplaced := hbefore.snprintf hsize (t := rep) (by rw [List.length_append]; omega)
  have hprecision : precision (i : Int) pos = pos.take i := by
    rw [precision, if_neg (by omega), Int.toNat_natCast]
  have hoffset : cInt ((done.length : Int) + i) = (done ++ pos.take i).length := by
    rw [← hlen, cInt_add_length (by omega), hlen]
  have hoffset' := cInt_add_length (s := done ++ pos.take i) (t := rep)
    (by rw [List.length_append]; omega)
  refine ⟨_, hreplaced, ?_⟩
  rw [replaceLoop, strstr, hi]
  simp only [hi', hprecision, hoffset, hrep, hoffset']

/-- The loop comes to an end with what is left to write, after as many rounds as occurrences. -/
theorem replaceLoop_run (hsub : sub ≠ []) (hsize : size < 2 ^ 31) {pos : Bytes} {fuel : Nat}
    (hfuel : pos.length < fuel) {writes : List BufferWrite} {done : Bytes}
    (h : Filled size writes done)
    (hroom : done.length + (substitute sub rep pos).length < size) (rounds : Nat) :
    ∃ pos' writes' done', Filled size writes' done' ∧
      done' ++ pos' = done ++ substitute sub rep pos ∧
      replaceLoop sub rep size fuel ⟨pos, done.length, writes, rounds⟩ =
        some ⟨pos', done'.length, writes', rounds + count sub pos⟩ := by
  induction pos using occurrence_induction hsub generalizing fuel writes done rounds with
  | hnone pos hnone =>
    obtain ⟨fuel, rfl⟩ := Nat.exists_eq_add_one_of_ne_zero (Nat.ne_of_gt (Nat.zero_lt_of_lt hfuel))
    refine ⟨pos, writes, done, h, by rw [substitute_of_none rep hnone], ?_⟩
    rw [replaceLoop, strstr, hnone, count_of_none hnone]
    rfl
  | hsome pos i hi ih =>
    obtain ⟨fuel, rfl⟩ := Nat.exists_eq_add_one_of_ne_zero (Nat.ne_of_gt (Nat.zero_lt_of_lt hfuel))
    have hle := add_le_of_findSub hsub hi
    have hpos := List.length_pos_iff.mpr hsub
    have htake : (pos.take i).length = i := List.length_take_of_le (by omega)
    rw [substitute_of_some hsub rep hi, List.length_append, List.length_append, htake] at hroom
    obtain ⟨writes₁, h₁, hround⟩ :=
      replaceLoop_some rep hsize hi (by omega) h (by omega) fuel rounds
    obtain ⟨pos', writes', done', h', hdone, hrun⟩ := ih
      (show (pos.drop (i + sub.length)).length < fuel by rw [List.length_drop]; omega) h₁
      (by rw [List.length_append, List.length_append, htake]; omega) (rounds + 1)
    refine ⟨pos', writes', done', h', ?_, ?_⟩
    · rw [hdone, substitute_of_some hsub rep hi]
      simp only [List.append_assoc]
    · rw [hround, hrun, count_of_some hsub hi, Nat.add_right_comm, Nat.add_assoc]

/-- The pieces of the loop and what is left behind it fill a cleared block with the result. -/
theorem filled_substitute (hsub : sub ≠ []) (str : Bytes)
    (hresult : (substitute sub rep str).length + 1 < 2 ^ 31) :
    let size := (substitute sub rep str).length + 1
    ∃ r, replaceLoop sub rep size (str.length + 1) ⟨str, 0, [⟨0, List.replicate size 0⟩], 0⟩ =
        some r ∧ r.rounds = count sub str ∧
      Filled size
        (r.writes ++ if r.pos = [] then []
          else snprintf r.offset (cSize (cInt ((size : Int) - r.offset))) r.pos)
        (substitute sub rep str) := by
  intro size
  have hroom : (substitute sub rep str).length < size := Nat.lt_succ_self _
  obtain ⟨pos', writes, done, hfilled, hdone, hrun⟩ :=
    replaceLoop_run rep hsub hresult (Nat.lt_succ_self _) (filled_cleared (Nat.succ_pos _))
      (by rwa [List.length_nil, Nat.zero_add]) 0
  rw [List.nil_append] at hdone
  refine ⟨_, hrun, Nat.zero_add _, ?_⟩
  have hend := hfilled.rest hresult pos' (by rwa [← List.length_append, hdone])
  rwa [hdone] at hend

end Loop

/-! ## The result -/

/-- The size that is computed from the count is that of the result with its zero. -/
theorem cInt_size {sub : Bytes} (hsub : sub ≠ []) (rep s : Bytes)
    (h : (substitute sub rep s).length + 1 < 2 ^ 31) :
    cInt (cSize (s.length - sub.length * (count sub s : Int) + rep.length * (count sub s : Int) +
      1)) = ((substitute sub rep s).length + 1 : Nat) := by
  have hlength := length_substitute hsub rep s
  have hsum : (s.length : Int) - sub.length * (count sub s : Int) +
      rep.length * (count sub s : Int) + 1 = ((substitute sub rep s).length + 1 : Nat) := by
    rw [← Int.natCast_mul, ← Int.natCast_mul]
    omega
  rw [hsum, cSize_of_lt (by omega), cInt_of_lt h]

/-- The result is a string without a zero again. -/
theorem zero_notMem_substitute {sub : Bytes} (hsub : sub ≠ []) (replace str : CString) :
    (0 : UInt8) ∉ substitute sub replace.text str.text := fun h =>
  (mem_substitute hsub replace.text h).elim str.zero_notMem replace.zero_notMem

/-- A C string ends with its NUL. -/
theorem cString_append_zero {s : Bytes} (h : (0 : UInt8) ∉ s) (t : Bytes) :
    cString (s ++ 0 :: t) = s := by
  unfold cString
  rw [List.takeWhile_append_of_pos]
  · simp
  · intro b hb
    exact decide_eq_true fun hb0 => h (hb0 ▸ hb)

/-- A block that is filled with a string is read as it. -/
theorem Filled.cString_written {size : Nat} {writes : List BufferWrite} {s : Bytes}
    (h : Filled size writes s) (hs : (0 : UInt8) ∉ s) : cString (written writes) = s := by
  obtain ⟨n, hn⟩ := Nat.exists_eq_add_one_of_ne_zero (Nat.sub_ne_zero_of_lt h.lt)
  rw [h.holds, hn, List.replicate_succ, cString_append_zero hs]

/-- A copy is the string itself, written within its buffer. -/
theorem strdup_eq {malloc : Nat → Bool} {s : CString} (h : malloc (s.text.length + 1) = true) :
    (strdup malloc s).returned = some s.text ∧ (strdup malloc s).rounds = 0 ∧
      ∀ w ∈ (strdup malloc s).writes, w.Within (strdup malloc s).size := by
  have hwritten : written [⟨0, s.text ++ [0]⟩] = s.text ++ [0] := by simp [written]
  rw [strdup, if_pos h]
  refine ⟨?_, rfl, ?_⟩
  · change some (cString (written [⟨0, s.text ++ [0]⟩])) = some s.text
    rw [hwritten, cString_append_zero s.zero_notMem]
  · intro w hw
    rw [List.mem_singleton] at hw
    subst hw
    simp [BufferWrite.Within]

/-- The occurrences that are counted are those that are replaced, and the pieces are written within
the room that was computed for them. -/
theorem str_replace_substitutes (malloc : Nat → Bool) {str sub replace : CString}
    (hsub : sub.text ≠ []) (hstr : str.text.length < 2 ^ 31 - 1)
    (hresult : (substitute sub.text replace.text str.text).length < 2 ^ 31 - 1)
    (halloc : malloc ((substitute sub.text replace.text str.text).length + 1) = true) :
    ∃ o, strReplace malloc str sub replace = some o ∧
      o.returned = some (substitute sub.text replace.text str.text) ∧
      occurrences sub str = some o.rounds ∧ ∀ w ∈ o.writes, w.Within o.size := by
  have hcount : occurrences sub str = some (count sub.text str.text) :=
    occurrences_eq hsub (by omega)
  have hle := count_le_length hsub str.text
  have hcint : cInt (count sub.text str.text) = count sub.text str.text := cInt_of_lt (by omega)
  rw [strReplace, hcount, Option.bind_some]
  simp only [hcint]
  by_cases hzero : count sub.text str.text = 0
  · -- without an occurrence the string is copied
    rw [substitute_of_count_eq_zero hsub replace.text hzero] at halloc ⊢
    obtain ⟨hreturned, hrounds, hwithin⟩ := strdup_eq halloc
    rw [if_pos (by omega)]
    exact ⟨_, rfl, hreturned, by rw [hrounds, hzero], hwithin⟩
  · obtain ⟨r, hrun, hrounds, hfilled⟩ :=
      filled_substitute replace.text hsub str.text (by omega)
    have hcomputed := cInt_size hsub replace.text str.text (by omega)
    have hblock := cSize_of_lt (n := (substitute sub.text replace.text str.text).length + 1)
      (by omega)
    rw [if_neg (by omega)]
    simp only [hcomputed, hblock]
    rw [if_pos halloc]
    refine ⟨_, congrArg _ hrun, ?_, ?_, hfilled.within⟩
    · exact congrArg some (hfilled.cString_written (zero_notMem_substitute hsub replace str))
    · exact congrArg some hrounds.symm

/-- A word that overlaps itself is replaced where it occurs first. -/
theorem str_replace_substitutes_overlapping :
    ∃ o, strReplace (fun _ => true) ⟨[97, 97, 97], by decide⟩ ⟨[97, 97], by decide⟩
        ⟨[98, 98, 98], by decide⟩ = some o ∧
      o.returned = some [98, 98, 98, 97] ∧
      occurrences ⟨[97, 97], by decide⟩ ⟨[97, 97, 97], by decide⟩ = some o.rounds ∧
      ∀ w ∈ o.writes, w.Within o.size :=
  str_replace_substitutes (fun _ => true) (by decide) (by decide) (by decide) rfl

end NgxPhp
