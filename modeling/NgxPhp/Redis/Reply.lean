import NgxPhp.Php.Text

/-!
# Redis replies

A reply is a simple string, an error, an integer, a bulk string or an array of replies. Every part
of its encoding ends with CR LF; strings and arrays can be null.
-/

namespace NgxPhp

/-- A text without CR and LF. -/
structure Line where
  text : Bytes
  inLine : ∀ b ∈ text, inLine b

/-- A reply of the server. -/
inductive Reply
  | simple (s : Line)
  | error (s : Line)
  | int (n : Int64)
  | nullBulk
  | bulk (s : Bytes)
  | nullArray
  | array (elements : List Reply)

def crlf : Bytes := [13, 10]

/-- The decimal text of an integer. -/
def decimalInt (n : Int) : Bytes := if n < 0 then 45 :: decimal n.natAbs else decimal n.natAbs

mutual

/-- The encoding of a reply. -/
def Reply.encode : Reply → Bytes
  | .simple s => 43 :: (s.text ++ crlf)
  | .error s => 45 :: (s.text ++ crlf)
  | .int n => 58 :: (decimalInt n.toInt ++ crlf)
  | .nullBulk => 36 :: (decimalInt (-1) ++ crlf)
  | .bulk s => 36 :: (decimal s.length ++ crlf ++ (s ++ crlf))
  | .nullArray => 42 :: (decimalInt (-1) ++ crlf)
  | .array es => 42 :: (decimal es.length ++ crlf ++ encodeAll es)

def encodeAll : List Reply → Bytes
  | [] => []
  | e :: es => e.encode ++ encodeAll es

end

/-- The values that `data_parse` returns. -/
inductive RedisValue
  | null
  | false
  | int (n : Int)
  | string (s : Bytes)
  | array (vs : List RedisValue)

/-- `empty`. -/
def RedisValue.empty : RedisValue → Bool
  | .null => true
  | .false => true
  | .int n => n = 0
  | .string s => phpEmpty s
  | .array vs => vs.isEmpty

mutual

/-- The value of a reply. -/
def Reply.value : Reply → RedisValue
  | .simple s => .string s.text
  | .error _ => .false
  | .int n => .int n.toInt
  | .nullBulk => .null
  | .bulk s => .string s
  | .nullArray => .null
  | .array es => .array (valueAll es)

def valueAll : List Reply → List RedisValue
  | [] => []
  | e :: es => e.value :: valueAll es

end

theorem length_valueAll (es : List Reply) : (valueAll es).length = es.length := by
  induction es with
  | nil => rfl
  | cons e es ih => rw [valueAll, List.length_cons, List.length_cons, ih]

/-- The byte that a reply begins with. -/
def isType (b : UInt8) : Bool := b = 36 || b = 42 || b = 43 || b = 45 || b = 58

/-- What can be behind a reply: nothing, or further replies. -/
def Behind (rest : Bytes) : Prop := rest = [] ∨ ∃ b t, rest = b :: t ∧ isType b

theorem Reply.encode_eq_cons (v : Reply) : ∃ b t, v.encode = b :: t ∧ isType b := by
  cases v <;> exact ⟨_, _, rfl, rfl⟩

theorem Behind.encodeAll {rest : Bytes} (h : Behind rest) (es : List Reply) :
    Behind (encodeAll es ++ rest) := by
  cases es with
  | nil => exact h
  | cons e es =>
    obtain ⟨b, t, he, hb⟩ := e.encode_eq_cons
    rw [NgxPhp.encodeAll, he]
    exact .inr ⟨b, _, rfl, hb⟩

/-! ## Line ends -/

/-- How many line ends a text has. -/
def lineEnds : Bytes → Nat
  | [] => 0
  | b :: s => lineEnds s + if b = 13 ∧ s.head? = some 10 then 1 else 0

/-- A text that consists of whole lines. -/
def Ended (s : Bytes) : Prop := s = [] ∨ ∃ t, s = t ++ crlf

theorem encodeAll_ended (es : List Reply) (h : ∀ e ∈ es, ∃ t, e.encode = t ++ crlf) :
    Ended (encodeAll es) := by
  induction es with
  | nil => exact .inl rfl
  | cons e es ih =>
    rw [List.forall_mem_cons] at h
    obtain ⟨⟨t, ht⟩, hes⟩ := h
    rw [encodeAll, ht]
    rcases ih hes with hnil | ⟨u, hu⟩
    · exact .inr ⟨t, by rw [hnil, List.append_nil]⟩
    · exact .inr ⟨t ++ crlf ++ u, by simp [hu]⟩

/-- A reply ends with a line end. -/
theorem Reply.encode_ended : ∀ v : Reply, ∃ t, v.encode = t ++ crlf
  | .simple s => ⟨43 :: s.text, rfl⟩
  | .error s => ⟨45 :: s.text, rfl⟩
  | .int n => ⟨58 :: decimalInt n.toInt, rfl⟩
  | .nullBulk => ⟨36 :: decimalInt (-1), rfl⟩
  | .bulk s => ⟨36 :: (decimal s.length ++ crlf ++ s), by simp [encode]⟩
  | .nullArray => ⟨42 :: decimalInt (-1), rfl⟩
  | .array es => by
    rcases encodeAll_ended es fun e _ => e.encode_ended with hnil | ⟨t, ht⟩
    · exact ⟨42 :: decimal es.length, by rw [encode, hnil, List.append_nil]; rfl⟩
    · exact ⟨42 :: (decimal es.length ++ crlf ++ t), by simp [encode, ht]⟩

theorem Ended.tail {b : UInt8} {s : Bytes} (h : Ended (b :: s)) (hne : ¬ (b = 13 ∧ s = [10])) :
    Ended s := by
  rcases h with hnil | ⟨t, ht⟩
  · cases hnil
  · cases t with
    | nil =>
      cases ht
      exact absurd ⟨rfl, rfl⟩ hne
    | cons c t => exact .inr ⟨t, (List.cons.inj ht).2⟩

/-- What is behind the first line end. -/
def afterLine (data : Bytes) : Bytes :=
  phpSubstr data (((strposLineEnd data).getD 0 : Nat) + 2) none

theorem afterLine_of_some {data : Bytes} {k : Nat} (h : strposLineEnd data = some k) :
    afterLine data = data.drop (k + 2) := by
  rw [afterLine, h, Option.getD_some]
  exact phpSubstr_rest data (k + 2)

/-- The first line of a text that consists of whole lines, whatever follows the text. -/
theorem strposLineEnd_of_ended {s : Bytes} {n : Nat} (h : Ended s) (hn : lineEnds s = n + 1)
    (rest : Bytes) :
    ∃ k t, strposLineEnd (s ++ rest) = some k ∧ (s ++ rest).drop (k + 2) = t ++ rest ∧
      Ended t ∧ lineEnds t = n := by
  induction s with
  | nil => cases hn
  | cons b s ih =>
    by_cases hend : b = 13 ∧ s.head? = some 10
    · obtain ⟨rfl, hhead⟩ := hend
      cases s with
      | nil => cases hhead
      | cons c s =>
        cases hhead
        have hcount : lineEnds (13 :: 10 :: s) = lineEnds s + 1 := by simp [lineEnds]
        refine ⟨0, s, by simp [strposLineEnd], rfl, ?_, by omega⟩
        by_cases hs : s = []
        · exact .inl hs
        · exact (h.tail fun hlast => hs (List.cons.inj hlast.2).2).tail fun hlast => by
            cases hlast.1
    · have hcount : lineEnds s = n + 1 := by
        rw [lineEnds, if_neg hend] at hn
        exact hn
      have hs : Ended s := h.tail fun hlast => hend ⟨hlast.1, by rw [hlast.2]; rfl⟩
      obtain ⟨k, t, hpos, hdrop, ht⟩ := ih hs hcount
      have hhead : (s ++ rest).head? = s.head? := by
        cases s with
        | nil => cases hcount
        | cons c s => rfl
      refine ⟨k + 1, t, ?_, hdrop, ht⟩
      rw [List.cons_append, strposLineEnd, hhead, if_neg hend, hpos]
      rfl

theorem lineEnds_pos (t : Bytes) : 0 < lineEnds (t ++ crlf) := by
  induction t with
  | nil => decide
  | cons b t ih => exact Nat.lt_add_right _ ih

/-- Two lines are gone, if the text has two. -/
theorem afterLine_twice {s : Bytes} (h : Ended s) (htwo : lineEnds s = 2) (rest : Bytes) :
    afterLine (afterLine (s ++ rest)) = rest := by
  obtain ⟨k, t, hpos, hdrop, ht, hone⟩ := strposLineEnd_of_ended h htwo rest
  obtain ⟨l, u, hpos', hdrop', hu, hzero⟩ := strposLineEnd_of_ended ht hone rest
  rw [afterLine_of_some hpos, hdrop, afterLine_of_some hpos', hdrop']
  rcases hu with rfl | ⟨v, rfl⟩
  · rfl
  · exact absurd hzero (lineEnds_pos v).ne'

end NgxPhp
