import NgxPhp.Redis.Reply

/-!
# How replies are decoded

`data_parse` does not say how much it has read: behind each element of an array two lines are
skipped. It looks at all that is left where a simple string stands, takes the body of a bulk string
to be the next line that is not empty, and makes null of every element that `empty` says is empty.
-/

namespace NgxPhp

/-- The loop of `data_parse` over the elements of an array. -/
def dataParseLoop (parse : Bytes → RedisValue) : Nat → Bytes → List RedisValue
  | 0, _ => []
  | n + 1, data =>
    let res := parse data
    (if !res.empty then res else .null) :: dataParseLoop parse n (afterLine (afterLine data))

/-- `data_parse`, to this depth of arrays. -/
def parseWith : Nat → Bytes → RedisValue
  | 0, _ => .null
  | fuel + 1, data =>
    let first := phpOrd data
    let size := phpIntval (phpSubstr data 1 none)
    if first = 36 then
      if size < 0 then .null
      else
        match (phpStrtok (phpStrtok data).2).1 with
        | none => .false
        | some token => .string token
    else if first = 43 then .string (phpTrim (phpSubstr data 1 none))
    else if first = 42 then
      if size < 0 then .null
      else .array (dataParseLoop (parseWith fuel) size.toNat (afterLine data))
    else if first = 58 then .int size
    else if first = 45 then .false
    else .null

/-- `data_parse`: every array is shorter than the text that it is in. -/
def dataParse (data : Bytes) : RedisValue := parseWith (data.length + 1) data

/-! ## The depth -/

/-- A line that is taken off makes the text shorter. -/
theorem length_afterLine_lt {data : Bytes} (h : data ≠ []) :
    (afterLine data).length < data.length := by
  have hpos := List.length_pos_iff.mpr h
  have hrest : afterLine data = data.drop ((strposLineEnd data).getD 0 + 2) :=
    phpSubstr_rest data ((strposLineEnd data).getD 0 + 2)
  rw [hrest, List.length_drop]
  omega

/-- A line that is taken off does not make the text longer. -/
theorem length_afterLine_le (data : Bytes) : (afterLine data).length ≤ data.length := by
  by_cases h : data = []
  · subst h
    exact Nat.le_refl _
  · exact Nat.le_of_lt (length_afterLine_lt h)

/-- The loop calls its parser only for texts that are no longer. -/
theorem dataParseLoop_congr {parse parse' : Bytes → RedisValue} {n : Nat} {data : Bytes}
    (h : ∀ d : Bytes, d.length ≤ data.length → parse d = parse' d) :
    dataParseLoop parse n data = dataParseLoop parse' n data := by
  induction n generalizing data with
  | zero => rfl
  | succ n ih =>
    rw [dataParseLoop, dataParseLoop, h data (Nat.le_refl _),
      ih fun d hd => h d (hd.trans ((length_afterLine_le _).trans (length_afterLine_le _)))]

/-- More depth than the text has bytes makes no difference. -/
theorem parseWith_congr {fuel fuel' : Nat} {data : Bytes} (h : data.length < fuel)
    (h' : data.length < fuel') : parseWith fuel data = parseWith fuel' data := by
  induction fuel generalizing fuel' data with
  | zero => omega
  | succ fuel ih =>
    obtain ⟨fuel', rfl⟩ := Nat.exists_eq_add_one_of_ne_zero (Nat.ne_zero_of_lt h')
    rw [parseWith, parseWith]
    by_cases hdata : data = []
    · subst hdata
      rfl
    · have hlt := length_afterLine_lt hdata
      have hloop : ∀ n, dataParseLoop (parseWith fuel) n (afterLine data) =
          dataParseLoop (parseWith fuel') n (afterLine data) := fun n =>
        dataParseLoop_congr fun d hd => ih (by omega) (by omega)
      rw [hloop]

/-- What `data_parse` does with a text. -/
theorem dataParse_eq {data : Bytes} (h : data ≠ []) :
    dataParse data =
      let first := phpOrd data
      let size := phpIntval (phpSubstr data 1 none)
      if first = 36 then
        if size < 0 then .null
        else
          match (phpStrtok (phpStrtok data).2).1 with
          | none => .false
          | some token => .string token
      else if first = 43 then .string (phpTrim (phpSubstr data 1 none))
      else if first = 42 then
        if size < 0 then .null
        else .array (dataParseLoop dataParse size.toNat (afterLine data))
      else if first = 58 then .int size
      else if first = 45 then .false
      else .null := by
  have hlt := length_afterLine_lt h
  have hloop : ∀ n, dataParseLoop (parseWith data.length) n (afterLine data) =
      dataParseLoop dataParse n (afterLine data) := fun n =>
    dataParseLoop_congr fun d hd => parseWith_congr (by omega) (Nat.lt_succ_self _)
  rw [dataParse, parseWith, hloop]

/-! ## One reply -/

theorem phpSubstr_one (b : UInt8) (t : Bytes) : phpSubstr (b :: t) 1 none = t :=
  phpSubstr_rest (b :: t) 1

/-- A bulk string is the second token of its text, unless its length is negative. -/
theorem dataParse_bulk (t : Bytes) :
    dataParse (36 :: t) =
      if phpIntval t < 0 then .null
      else
        match (phpStrtok (phpStrtok (36 :: t)).2).1 with
        | none => .false
        | some token => .string token := by
  rw [dataParse_eq (List.cons_ne_nil _ _), phpSubstr_one]
  rfl

/-- A simple string is trimmed. -/
theorem dataParse_simple (t : Bytes) : dataParse (43 :: t) = .string (phpTrim t) := by
  rw [dataParse_eq (List.cons_ne_nil _ _), phpSubstr_one]
  rfl

/-- An array has as many elements as its number says. -/
theorem dataParse_array (t : Bytes) :
    dataParse (42 :: t) =
      if phpIntval t < 0 then .null
      else .array (dataParseLoop dataParse (phpIntval t).toNat (afterLine (42 :: t))) := by
  rw [dataParse_eq (List.cons_ne_nil _ _), phpSubstr_one]
  rfl

/-- An integer is read behind its mark. -/
theorem dataParse_int (t : Bytes) : dataParse (58 :: t) = .int (phpIntval t) := by
  rw [dataParse_eq (List.cons_ne_nil _ _), phpSubstr_one]
  rfl

/-- An error becomes false. -/
theorem dataParse_error (t : Bytes) : dataParse (45 :: t) = .false := by
  rw [dataParse_eq (List.cons_ne_nil _ _)]
  rfl

/-- A size is read up to the line end, and at most the largest integer. -/
theorem phpIntval_size (n : Nat) (t : Bytes) :
    phpIntval (decimal n ++ crlf ++ t) = min (n : Int) (2 ^ 63 - 1) := by
  rw [List.append_assoc, show crlf ++ t = 13 :: 10 :: t from rfl, phpIntval_decimal, saturate]
  omega

/-- An integer is read up to the line end. -/
theorem phpIntval_decimalInt (n : Int64) (t : Bytes) :
    phpIntval (decimalInt n.toInt ++ crlf ++ t) = n.toInt := by
  have hlow := n.le_toInt
  have hhigh := n.toInt_lt
  rw [List.append_assoc, show crlf ++ t = 13 :: 10 :: t from rfl, decimalInt]
  split
  · rw [List.cons_append, phpIntval_neg_decimal, saturate]
    omega
  · rw [phpIntval_decimal, saturate]
    omega

theorem phpIntval_null (t : Bytes) : phpIntval (decimalInt (-1) ++ crlf ++ t) = -1 := rfl

/-- A digit is no line end. -/
theorem inLine_of_isDigit {b : UInt8} (hb : isDigit b) : inLine b := by
  grind [isDigit, inLine, isLineEnd]

/-- A bulk string is read if its body is a line that is not empty. -/
theorem dataParse_bulk_iff (s rest : Bytes) :
    dataParse ((Reply.bulk s).encode ++ rest) = .string s ↔ s ≠ [] ∧ ∀ b ∈ s, inLine b := by
  have hdata : (Reply.bulk s).encode ++ rest =
      36 :: (decimal s.length ++ crlf ++ (s ++ crlf ++ rest)) := by
    simp [Reply.encode]
  have hsize : ¬ phpIntval (decimal s.length ++ crlf ++ (s ++ crlf ++ rest)) < 0 := by
    rw [phpIntval_size]
    omega
  have hheader : ∀ b ∈ 36 :: decimal s.length, inLine b :=
    List.forall_mem_cons.mpr ⟨rfl, fun _ hb => inLine_of_isDigit (isDigit_of_mem_decimal hb)⟩
  have hfirst : (phpStrtok (36 :: (decimal s.length ++ crlf ++ (s ++ crlf ++ rest)))).2 =
      10 :: (s ++ crlf ++ rest) := by
    rw [show 36 :: (decimal s.length ++ crlf ++ (s ++ crlf ++ rest)) =
      (36 :: decimal s.length) ++ 13 :: (10 :: (s ++ crlf ++ rest)) by simp [crlf],
      phpStrtok_line rfl (List.cons_ne_nil _ _) hheader]
  rw [hdata, dataParse_bulk, if_neg hsize, hfirst, phpStrtok_cons rfl]
  constructor
  · intro h
    split at h
    · cases h
    · next token htoken =>
      cases h
      exact phpStrtok_some htoken
  · rintro ⟨hne, hs⟩
    rw [List.append_assoc, show crlf ++ rest = 13 :: 10 :: rest from rfl,
      phpStrtok_line rfl hne hs]

/-- A simple string is read if it is the last thing and has no white space at its ends. -/
theorem dataParse_simple_iff (s : Line) {rest : Bytes} (hrest : Behind rest) :
    dataParse ((Reply.simple s).encode ++ rest) = .string s.text ↔
      rest = [] ∧ phpTrim s.text = s.text := by
  have hdata : (Reply.simple s).encode ++ rest = 43 :: (s.text ++ crlf ++ rest) := by
    simp [Reply.encode]
  rw [hdata, dataParse_simple, RedisValue.string.injEq]
  rcases hrest with rfl | ⟨b, t, rfl, hb⟩
  · rw [List.append_nil, crlf, phpTrim_append_lineEnd]
    exact (and_iff_right rfl).symm
  · have hcr : 13 ∉ s.text := fun hmem => absurd (s.inLine 13 hmem) (by decide)
    have hstays : isTrimmed b = false := by
      grind [isType, isTrimmed]
    rw [List.append_assoc]
    exact iff_of_false (phpTrim_ne_line hcr hstays) fun h => List.cons_ne_nil _ _ h.1

/-- Behind the line with the size are the elements. -/
theorem afterLine_size (n : Nat) (t : Bytes) :
    afterLine (42 :: (decimal n ++ crlf ++ t)) = t := by
  have hcr : 13 ∉ 42 :: decimal n := by
    intro hmem
    rcases List.mem_cons.mp hmem with h | h
    · cases h
    · exact absurd (isDigit_of_mem_decimal h) (by decide)
  have hdata : 42 :: (decimal n ++ crlf ++ t) = (42 :: decimal n) ++ 13 :: 10 :: t := by
    simp [crlf]
  rw [hdata, afterLine_of_some (strposLineEnd_append hcr t),
    show (42 :: decimal n) ++ 13 :: 10 :: t = ((42 :: decimal n) ++ [13, 10]) ++ t by simp]
  exact List.drop_left' (by simp)

/-! ## All replies -/

mutual

/-- In every array each element has two line ends, apart from the last one. -/
def Reply.Aligned : Reply → Prop
  | .array es => alignedAll es
  | _ => True

def alignedAll : List Reply → Prop
  | [] => True
  | e :: es => (es = [] ∨ lineEnds e.encode = 2) ∧ e.Aligned ∧ alignedAll es

end

mutual

/-- Simple strings have no white space at their ends and nothing behind them, bulk strings are
lines that are not empty, and no element of an array is empty unless it is null. -/
def Reply.Clean (last : Prop) : Reply → Prop
  | .simple s => last ∧ phpTrim s.text = s.text
  | .bulk s => s ≠ [] ∧ ∀ b ∈ s, inLine b
  | .array es => es.length < 2 ^ 63 ∧ cleanAll last es
  | _ => True

def cleanAll (last : Prop) : List Reply → Prop
  | [] => True
  | e :: es =>
    e.Clean (es = [] ∧ last) ∧ (e.value.empty → e.value = .null) ∧ cleanAll last es

end

/-- Nulls need nothing. -/
theorem Reply.clean_of_null {v : Reply} (h : v.value = .null) (last : Prop) : v.Clean last := by
  cases v with
  | nullBulk => trivial
  | nullArray => trivial
  | simple s => cases h
  | error s => cases h
  | int n => cases h
  | bulk s => cases h
  | array es => cases h

/-- The loop has a value for each round. -/
theorem length_dataParseLoop (parse : Bytes → RedisValue) (n : Nat) (data : Bytes) :
    (dataParseLoop parse n data).length = n := by
  induction n generalizing data with
  | zero => rfl
  | succ n ih => rw [dataParseLoop, List.length_cons, ih]

/-- An element is right if it is read, and is null if it is empty. -/
theorem element_iff {res value : RedisValue} {clean : Prop} (h : res = value ↔ clean)
    (hnull : value = .null → clean) :
    (if !res.empty then res else .null) = value ↔
      clean ∧ (value.empty → value = .null) := by
  constructor
  · intro hvalue
    split at hvalue
    · next hres =>
      refine ⟨h.mp hvalue, fun hempty => ?_⟩
      rw [hvalue, hempty] at hres
      cases hres
    · exact ⟨hnull hvalue.symm, fun _ => hvalue.symm⟩
  · rintro ⟨hclean, hempty⟩
    rw [h.mpr hclean]
    split
    · rfl
    · next hvalue =>
      rw [Bool.not_eq_true', Bool.not_eq_false] at hvalue
      exact (hempty hvalue).symm

/-- Nothing is left exactly if there were no elements and nothing behind them. -/
theorem encodeAll_append_eq_nil (es : List Reply) (rest : Bytes) :
    encodeAll es ++ rest = [] ↔ es = [] ∧ rest = [] := by
  rw [List.append_eq_nil_iff]
  refine and_congr_left fun _ => ?_
  cases es with
  | nil => exact iff_of_true rfl rfl
  | cons e es =>
    obtain ⟨b, t, he, -⟩ := e.encode_eq_cons
    rw [encodeAll, he]
    exact iff_of_false (List.cons_ne_nil _ _) (List.cons_ne_nil _ _)

mutual

/-- When a reply is read, with others behind it. -/
theorem Reply.dataParse_iff : ∀ (v : Reply) {rest : Bytes}, Behind rest → v.Aligned →
    (dataParse (v.encode ++ rest) = v.value ↔ v.Clean (rest = []))
  | .simple s, _, hrest, _ => dataParse_simple_iff s hrest
  | .error _, _, _, _ => iff_of_true (dataParse_error _) trivial
  | .int n, rest, _, _ => by
    refine iff_of_true ?_ trivial
    rw [Reply.encode, List.cons_append, dataParse_int, phpIntval_decimalInt]
    rfl
  | .nullBulk, rest, _, _ => by
    refine iff_of_true ?_ trivial
    rw [Reply.encode, List.cons_append, dataParse_bulk, phpIntval_null]
    rfl
  | .bulk s, rest, _, _ => dataParse_bulk_iff s rest
  | .nullArray, rest, _, _ => by
    refine iff_of_true ?_ trivial
    rw [Reply.encode, List.cons_append, dataParse_array, phpIntval_null]
    rfl
  | .array es, rest, hrest, h => by
    have hsize : ¬ min (es.length : Int) (2 ^ 63 - 1) < 0 := by omega
    rw [Reply.encode, List.cons_append, List.append_assoc, dataParse_array, phpIntval_size,
      if_neg hsize, afterLine_size, Reply.value, RedisValue.array.injEq, Reply.Clean]
    by_cases hlen : es.length < 2 ^ 63
    · have hcount : (min (es.length : Int) (2 ^ 63 - 1)).toNat = es.length := by omega
      rw [hcount, dataParseLoop_iff es hrest h]
      exact (and_iff_right hlen).symm
    · -- the loop makes fewer elements
      refine iff_of_false (fun heq => ?_) fun hclean => hlen hclean.1
      have hcount := congrArg List.length heq
      rw [length_dataParseLoop, length_valueAll] at hcount
      omega

/-- The elements of an aligned array are read right just if they are clean. -/
theorem dataParseLoop_iff : ∀ (es : List Reply) {rest : Bytes}, Behind rest → alignedAll es →
    (dataParseLoop dataParse es.length (encodeAll es ++ rest) = valueAll es ↔
      cleanAll (rest = []) es)
  | [], _, _, _ => iff_of_true rfl trivial
  | e :: es, rest, hrest, h => by
    obtain ⟨hends, he, hes⟩ := h
    have hnext : dataParseLoop dataParse es.length
          (afterLine (afterLine (e.encode ++ (encodeAll es ++ rest)))) =
        dataParseLoop dataParse es.length (encodeAll es ++ rest) := by
      rcases hends with rfl | htwo
      · rfl
      · rw [afterLine_twice (.inr e.encode_ended) htwo]
    have hclean := e.dataParse_iff (hrest.encodeAll es) he
    rw [encodeAll_append_eq_nil] at hclean
    rw [encodeAll, List.append_assoc, List.length_cons, dataParseLoop, valueAll, cleanAll,
      List.cons.injEq, hnext, dataParseLoop_iff es hrest hes,
      element_iff hclean fun hnull => e.clean_of_null hnull _, and_assoc]

end

/-- A reply whose arrays have elements of two lines, apart from the last ones, is decoded just
when it is clean. -/
theorem data_parse_decodes_iff {v : Reply} (h : v.Aligned) :
    dataParse v.encode = v.value ↔ v.Clean True := by
  have hiff := v.dataParse_iff (.inl rfl) h
  rwa [List.append_nil, eq_self_iff_true] at hiff

/-- By chance others are read as well: the skipped lines make an empty text of the null. -/
example : dataParse (Reply.array [.int 1, .nullBulk]).encode =
    (Reply.array [.int 1, .nullBulk]).value := rfl

/-- Two bulk strings, an array of one integer, and an integer. -/
def alignedReply : Reply := .array [.bulk [97, 32], .bulk [98], .array [.int 5], .int 7]

/-- An aligned reply with an array inside another is decoded. -/
theorem data_parse_decodes_aligned : dataParse alignedReply.encode = alignedReply.value :=
  (data_parse_decodes_iff (by simp [alignedReply, Reply.Aligned, alignedAll]; decide)).mpr
    (by simp [alignedReply, Reply.Clean, cleanAll, Reply.value, valueAll, RedisValue.empty]; decide)

/-- A key that is missing from the answer to `mget` takes the value behind it along. -/
theorem data_parse_not_decodes :
    dataParse (Reply.array [.nullBulk, .bulk [97]]).encode ≠
      (Reply.array [.nullBulk, .bulk [97]]).value := by
  have hread : dataParse (Reply.array [.nullBulk, .bulk [97]]).encode =
      .array [.null, .null] := rfl
  rw [hread]
  exact nofun

end NgxPhp
