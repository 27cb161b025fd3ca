import Mathlib.Algebra.Group.Int.Defs
import Mathlib.Data.List.DropRight
import NgxPhp.Mysql.Packet

/-!
# Numbers and lines in PHP strings

`intval` reads the number at the front of a string and `trim` cuts white space off both ends.
`strtok` with the delimiters CR and LF goes from one line to the next and does not see empty ones;
`strpos` finds the first line end.
-/

namespace NgxPhp

/-- A decimal digit. -/
def isDigit (b : UInt8) : Bool := 48 ≤ b && b ≤ 57

/-- The decimal text of a number. -/
def decimal (n : Nat) : Bytes := (Nat.toDigits 10 n).map fun c => UInt8.ofNat c.toNat

/-- The number that digits denote. -/
def digitsValue (s : Bytes) : Nat := s.foldl (fun n b => 10 * n + (b.toNat - 48)) 0

/-- White space in front of a number. -/
def isNumericSpace (b : UInt8) : Bool := b = 32 || (9 ≤ b && b ≤ 13)

/-- The largest and the smallest integer are taken for those beyond. -/
def saturate (n : Int) : Int := max (-2 ^ 63) (min n (2 ^ 63 - 1))

/-- `intval` of a string that begins with a whole number, or with none. -/
def phpIntval (s : Bytes) : Int :=
  match s.dropWhile isNumericSpace with
  | 45 :: t => saturate (-digitsValue (t.takeWhile isDigit))
  | 43 :: t => saturate (digitsValue (t.takeWhile isDigit))
  | t => saturate (digitsValue (t.takeWhile isDigit))

/-- What `trim` cuts off. -/
def isTrimmed (b : UInt8) : Bool :=
  b = 32 || b = 9 || b = 10 || b = 13 || b = 0 || b = 11

/-- `trim`. -/
def phpTrim (s : Bytes) : Bytes := (s.dropWhile isTrimmed).rdropWhile isTrimmed

/-- CR and LF. -/
def isLineEnd (b : UInt8) : Bool := b = 13 || b = 10

/-- Any other byte. -/
def inLine (b : UInt8) : Bool := !isLineEnd b

/-- `strtok` with the delimiters CR and LF: the next token, false at the end, and what is left
behind the delimiter. -/
def phpStrtok (s : Bytes) : Option Bytes × Bytes :=
  match s.dropWhile isLineEnd with
  | [] => (none, [])
  | t => (some (t.takeWhile inLine), (t.dropWhile inLine).drop 1)

/-- `strpos` of CR LF. -/
def strposLineEnd : Bytes → Option Nat
  | [] => none
  | b :: s =>
    if b = 13 ∧ s.head? = some 10 then some 0 else (strposLineEnd s).map fun n => n + 1

/-! ## Numbers -/

/-- The codes of digits are those from 48 to 57. -/
theorem toNat_of_isDigit {c : Char} (hc : c.isDigit) : 48 ≤ c.toNat ∧ c.toNat ≤ 57 := by
  rw [Char.isDigit, Bool.and_eq_true, decide_eq_true_iff, decide_eq_true_iff] at hc
  exact hc

/-- A digit is one byte. -/
theorem toNat_ofNat_digit {c : Char} (hc : c.isDigit) : (UInt8.ofNat c.toNat).toNat = c.toNat :=
  UInt8.toNat_ofNat_of_lt' (Nat.lt_of_le_of_lt (toNat_of_isDigit hc).2 (by decide))

/-- The value of digits is that of their characters. -/
theorem digitsValue_map (cs : List Char) (hcs : ∀ c ∈ cs, c.isDigit) (n : Nat) :
    (cs.map fun c => UInt8.ofNat c.toNat).foldl (fun n b => 10 * n + (b.toNat - 48)) n =
      Nat.ofDigitChars 10 cs n := by
  induction cs generalizing n with
  | nil => rfl
  | cons c cs ih =>
    rw [List.forall_mem_cons] at hcs
    rw [List.map_cons, List.foldl_cons, toNat_ofNat_digit hcs.1, ih hcs.2]
    rfl

/-- A decimal number is worth itself. -/
theorem digitsValue_decimal (n : Nat) : digitsValue (decimal n) = n := by
  rw [digitsValue, decimal, digitsValue_map _ fun c hc =>
    Nat.isDigit_of_mem_toDigits (by decide) (by decide) hc]
  exact Nat.ofDigitChars_ten_toDigits

/-- A decimal number consists of digits. -/
theorem isDigit_of_mem_decimal {n : Nat} {b : UInt8} (hb : b ∈ decimal n) : isDigit b := by
  obtain ⟨c, hc, rfl⟩ := List.mem_map.mp hb
  have hdigit := Nat.isDigit_of_mem_toDigits (b := 10) (by decide) (by decide) hc
  obtain ⟨hlow, hhigh⟩ := toNat_of_isDigit hdigit
  rw [isDigit, Bool.and_eq_true, decide_eq_true_iff, decide_eq_true_iff, UInt8.le_iff_toNat_le,
    UInt8.le_iff_toNat_le, toNat_ofNat_digit hdigit]
  exact ⟨hlow, hhigh⟩

/-- A decimal number is not empty. -/
theorem decimal_ne_nil (n : Nat) : decimal n ≠ [] := by
  rw [decimal, Ne, List.map_eq_nil_iff]
  exact Nat.toDigits_ne_nil

/-- A byte that is no digit ends a number. -/
theorem takeWhile_decimal (n : Nat) {b : UInt8} (hb : isDigit b = false) (t : Bytes) :
    (decimal n ++ b :: t).takeWhile isDigit = decimal n := by
  rw [List.takeWhile_append_of_pos fun c hc => isDigit_of_mem_decimal hc, List.takeWhile_cons,
    hb]
  exact List.append_nil _

/-- A digit is neither white space nor a sign. -/
theorem isDigit_ne {b : UInt8} (hb : isDigit b) :
    isNumericSpace b = false ∧ b ≠ 45 ∧ b ≠ 43 := by
  grind [isDigit, isNumericSpace]

/-- `intval` reads a decimal number up to the line end, and at most the largest integer. -/
theorem phpIntval_decimal (n : Nat) (t : Bytes) :
    phpIntval (decimal n ++ 13 :: t) = saturate n := by
  obtain ⟨c, cs, hcons⟩ := List.exists_cons_of_ne_nil (decimal_ne_nil n)
  have htake := takeWhile_decimal n (b := 13) rfl t
  have hvalue := digitsValue_decimal n
  obtain ⟨hspace, hminus, hplus⟩ := isDigit_ne (isDigit_of_mem_decimal (hcons ▸ List.mem_cons_self))
  rw [hcons, List.cons_append] at htake ⊢
  rw [phpIntval, List.dropWhile_cons_of_neg (by rw [hspace]; exact Bool.false_ne_true)]
  split
  · next heq =>
    exact absurd (List.cons.inj heq).1 hminus
  · next heq =>
    exact absurd (List.cons.inj heq).1 hplus
  · rw [htake, ← hcons, hvalue]

/-- `intval` reads a negative number up to the line end, and at least the smallest integer. -/
theorem phpIntval_neg_decimal (n : Nat) (t : Bytes) :
    phpIntval (45 :: (decimal n ++ 13 :: t)) = saturate (-n) := by
  rw [phpIntval, List.dropWhile_cons_of_neg (by decide)]
  show saturate (-digitsValue ((decimal n ++ 13 :: t).takeWhile isDigit)) = _
  rw [takeWhile_decimal n rfl, digitsValue_decimal]

/-! ## Lines -/

/-- A line end is found behind a text without carriage returns. -/
theorem strposLineEnd_append {s : Bytes} (hs : 13 ∉ s) (t : Bytes) :
    strposLineEnd (s ++ 13 :: 10 :: t) = some s.length := by
  induction s with
  | nil => rfl
  | cons b s ih =>
    rw [List.mem_cons, not_or] at hs
    rw [List.cons_append, strposLineEnd, if_neg fun h => hs.1 h.1.symm, ih hs.2]
    rfl

/-- A byte of a line is no line end. -/
theorem isLineEnd_of_inLine {b : UInt8} (hb : inLine b) : isLineEnd b = false := by
  rwa [inLine, Bool.not_eq_true'] at hb

/-- The token of a line that is not empty is the line. -/
theorem phpStrtok_line {s t : Bytes} {b : UInt8} (hb : inLine b = false) (hne : s ≠ [])
    (hs : ∀ c ∈ s, inLine c) : phpStrtok (s ++ b :: t) = (some s, t) := by
  obtain ⟨c, cs, rfl⟩ := List.exists_cons_of_ne_nil hne
  have hfirst := isLineEnd_of_inLine (hs c List.mem_cons_self)
  have hskip : (c :: cs ++ b :: t).dropWhile isLineEnd = c :: cs ++ b :: t :=
    List.dropWhile_cons_of_neg (Bool.eq_false_iff.mp hfirst)
  rw [phpStrtok, hskip]
  show (some ((c :: cs ++ b :: t).takeWhile inLine),
    ((c :: cs ++ b :: t).dropWhile inLine).drop 1) = _
  rw [List.takeWhile_append_of_pos hs, List.dropWhile_append_of_pos hs,
    List.takeWhile_cons_of_neg (Bool.eq_false_iff.mp hb),
    List.dropWhile_cons_of_neg (Bool.eq_false_iff.mp hb), List.append_nil]
  rfl

/-- Line ends in front are skipped. -/
theorem phpStrtok_cons {b : UInt8} (hb : isLineEnd b) (s : Bytes) :
    phpStrtok (b :: s) = phpStrtok s := by
  rw [phpStrtok, phpStrtok, List.dropWhile_cons_of_pos hb]

/-- A token is a part of a line, and not empty. -/
theorem phpStrtok_some {s t : Bytes} (h : (phpStrtok s).1 = some t) :
    t ≠ [] ∧ ∀ c ∈ t, inLine c := by
  unfold phpStrtok at h
  have hfirst := List.head?_dropWhile_not isLineEnd s
  cases hskip : s.dropWhile isLineEnd with
  | nil =>
    rw [hskip] at h
    cases h
  | cons b u =>
    rw [hskip] at h hfirst
    cases h
    have hb : inLine b := by
      rw [inLine, show isLineEnd b = false from hfirst]
      rfl
    refine ⟨?_, fun c hc => List.mem_takeWhile_imp hc⟩
    rw [List.takeWhile_cons_of_pos hb]
    exact List.cons_ne_nil _ _

/-! ## White space -/

/-- In front of a byte that stays nothing is cut off from behind. -/
theorem rdropWhile_append_cons {p : UInt8 → Bool} {b : UInt8} (hb : p b = false) (s t : Bytes) :
    (s ++ b :: t).rdropWhile p = s ++ b :: t.rdropWhile p := by
  induction t using List.reverseRecOn with
  | nil => rw [List.rdropWhile_concat_neg _ _ _ (Bool.eq_false_iff.mp hb), List.rdropWhile_nil]
  | append_singleton t x ih =>
    rw [← List.cons_append, ← List.append_assoc]
    by_cases hx : p x
    · rw [List.rdropWhile_concat_pos _ _ _ hx, List.rdropWhile_concat_pos _ _ _ hx, ih]
    · rw [List.rdropWhile_concat_neg _ _ _ hx, List.rdropWhile_concat_neg _ _ _ hx]
      simp

/-- A line end at the end is trimmed. -/
theorem phpTrim_append_lineEnd (s : Bytes) : phpTrim (s ++ [13, 10]) = phpTrim s := by
  have hends : ∀ t : Bytes, (t ++ [13, 10]).rdropWhile isTrimmed = t.rdropWhile isTrimmed := by
    intro t
    rw [show t ++ [13, 10] = (t ++ [13]) ++ [10] by simp,
      List.rdropWhile_concat_pos _ _ _ (by decide), List.rdropWhile_concat_pos _ _ _ (by decide)]
  rw [phpTrim, phpTrim, List.dropWhile_append]
  split
  · next hnil =>
    rw [List.isEmpty_iff.mp hnil]
    rfl
  · exact hends _

/-- A text that goes on behind its first line is not cut to that line. -/
theorem phpTrim_ne_line {s t : Bytes} {b : UInt8} (hs : 13 ∉ s) (hb : isTrimmed b = false) :
    phpTrim (s ++ 13 :: 10 :: b :: t) ≠ s := by
  have hskip : (13 :: 10 :: b :: t).dropWhile isTrimmed = b :: t := by
    rw [List.dropWhile_cons_of_pos (by decide), List.dropWhile_cons_of_pos (by decide),
      List.dropWhile_cons_of_neg (Bool.eq_false_iff.mp hb)]
  rw [phpTrim, List.dropWhile_append]
  split
  · next hnil =>
    -- the first line is cut off
    rw [hskip, ← List.nil_append (b :: t), rdropWhile_append_cons hb]
    intro heq
    have hmem : b ∈ s := heq ▸ List.mem_cons_self
    have htrimmed := List.dropWhile_eq_nil_iff.mp (List.isEmpty_iff.mp hnil) b hmem
    rw [hb] at htrimmed
    cases htrimmed
  · -- its end stays
    intro heq
    have hcr := rdropWhile_append_cons hb (s.dropWhile isTrimmed ++ [13, 10]) t
    rw [List.append_assoc] at hcr
    rw [show s.dropWhile isTrimmed ++ 13 :: 10 :: b :: t =
      s.dropWhile isTrimmed ++ ([13, 10] ++ b :: t) from rfl, hcr] at heq
    exact hs (heq ▸ by simp)

end NgxPhp
