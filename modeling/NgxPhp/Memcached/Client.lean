import NgxPhp.Lib.OrderedMap
import NgxPhp.Memcached.Protocol
import NgxPhp.Mysql.Segments
import NgxPhp.Redis.Client

/-!
# What the memcached client makes of a reply

A method receives once, with room for 1024 bytes, and compares what it gets with the replies it
knows or cuts it into lines. A value is taken for one line, so it comes back as it is if it has no
line end; a count comes back as long as it is an integer of PHP; and what `delete` takes for the
reply of an item that is gone is not what the protocol says.
-/

namespace NgxPhp

open SelfDelimiting

/-- `explode` at CR LF. -/
def explodeLines : Bytes → List Bytes
  | [] => [[]]
  | [b] => [[b]]
  | b :: c :: s =>
    if b = 13 ∧ c = 10 then [] :: explodeLines s
    else (explodeLines (c :: s)).modifyHead (b :: ·)

/-- What a method returns. -/
inductive MemcachedResult
  | null
  | bool (b : Bool)
  | int (n : Int)
  | string (s : Bytes)
  | array (a : OrderedMap Bytes Bytes)

/-- `preg_match` of `/^VERSION (.+)\r\n$/`: a dot is no LF, and the end may have one in front of
it. -/
def versionMatch (data : Bytes) : Option Bytes :=
  let rest := data.drop 8
  let line := rest.takeWhile (· ≠ 10)
  let behind := rest.dropWhile (· ≠ 10)
  if data.take 8 = literal "VERSION " ∧ line.getLast? = some 13 ∧ line.dropLast ≠ [] ∧
      (behind = [10] ∨ behind = [10, 10]) then
    some line.dropLast
  else none

/-- The loop of `stats` over the lines. -/
def statsLoop (lines : List Bytes) : OrderedMap Bytes Bytes :=
  lines.foldl (fun a line =>
    match line.splitOn 32 with
    | _ :: name :: value :: _ => a.set name value
    | _ => a) .empty

/-- What the methods make of `$data`. -/
def storeResult (data : Bytes) : MemcachedResult := .bool (data = literal "STORED\r\n")

def countResult (data : Bytes) : MemcachedResult :=
  if data = literal "NOT_FOUND\r\n" then .int 0
  else .int (phpIntval ((explodeLines data).headD []))

def MemcachedCall.result (data : Bytes) : MemcachedCall → MemcachedResult
  | .add _ _ _ => storeResult data
  | .set _ _ _ => storeResult data
  | .replace _ _ _ => storeResult data
  | .get _ =>
    if data = literal "END\r\n" then .bool false
    else
      match (explodeLines data)[1]? with
      | none => .null
      | some v => .string v
  | .delete _ => .bool (data = literal "DELETE\r\n")
  | .incr _ _ => countResult data
  | .decr _ _ => countResult data
  | .flushAll _ => .int (if data ≠ literal "OK\r\n" then 0 else 1)
  | .version =>
    match versionMatch data with
    | none => .null
    | some v => .string v
  | .stats _ =>
    if data = literal "ERROR\r\n" then .null else .array (statsLoop (explodeLines data))

/-! ## Replies -/

inductive MemcachedReply
  | stored
  | notStored
  | value (key : Bytes) (flags : Nat) (value : Bytes)
  | miss
  | deleted
  | notFound
  | number (n : Nat)
  | ok
  | version (version : Bytes)
  | stats (entries : List (Bytes × Bytes))
  deriving DecidableEq, Repr

/-- A line of statistics. -/
def statsLine (e : Bytes × Bytes) : Bytes := literal "STAT" ++ 32 :: (e.1 ++ 32 :: e.2)

def MemcachedReply.encode : MemcachedReply → Bytes
  | .stored => literal "STORED\r\n"
  | .notStored => literal "NOT_STORED\r\n"
  | .value key flags v =>
    literal "VALUE" ++ 32 :: (key ++ 32 :: (decimal flags ++ 32 :: decimal v.length)) ++
      (crlf ++ (v ++ (crlf ++ literal "END\r\n")))
  | .miss => literal "END\r\n"
  | .deleted => literal "DELETED\r\n"
  | .notFound => literal "NOT_FOUND\r\n"
  | .number n => decimal n ++ crlf
  | .ok => literal "OK\r\n"
  | .version v => literal "VERSION " ++ (v ++ crlf)
  | .stats entries => entries.flatMap (fun e => statsLine e ++ crlf) ++ literal "END\r\n"

/-- The replies that a server gives to a call. -/
def MemcachedCall.Answers : MemcachedCall → MemcachedReply → Prop
  | .add _ _ _, r => r = .stored ∨ r = .notStored
  | .set _ _ _, r => r = .stored ∨ r = .notStored
  | .replace _ _ _, r => r = .stored ∨ r = .notStored
  | .get _, .value key _ _ => IsKey key
  | .get _, r => r = .miss
  | .delete _, r => r = .deleted ∨ r = .notFound
  | .incr _ _, .number _ => True
  | .incr _ _, r => r = .notFound
  | .decr _ _, .number _ => True
  | .decr _ _, r => r = .notFound
  | .flushAll _, r => r = .ok
  | .version, .version v => v ≠ [] ∧ 10 ∉ v
  | .version, _ => False
  | .stats _, .stats entries => ∀ e ∈ entries, IsWord e.1 ∧ IsWord e.2
  | .stats _, _ => False

/-- What a reply means to a call. -/
def MemcachedCall.value : MemcachedCall → MemcachedReply → MemcachedResult
  | _, .stored => .bool true
  | _, .notStored => .bool false
  | _, .value _ _ v => .string v
  | _, .miss => .bool false
  | _, .deleted => .bool true
  | .delete _, .notFound => .bool false
  | _, .notFound => .int 0
  | _, .number n => .int n
  | _, .ok => .int 1
  | _, .version v => .string v
  | _, .stats entries =>
    .array (entries.foldl (fun a e => a.set e.1 e.2) .empty)

/-- The client can tell what a reply means; `delete` waits for another word than the server has. -/
def MemcachedReply.Readable : MemcachedReply → Prop
  | .value _ _ v => strposLineEnd v = none
  | .number n => n < 2 ^ 63
  | .deleted => False
  | _ => True

/-! ## Lines -/

/-- The first line is split off. -/
theorem explodeLines_line {s : Bytes} (hs : strposLineEnd s = none) (t : Bytes) :
    explodeLines (s ++ 13 :: 10 :: t) = s :: explodeLines t := by
  induction s with
  | nil => rfl
  | cons b s ih =>
    rw [strposLineEnd] at hs
    split at hs
    · cases hs
    next hhead =>
      have hbehind := ih (Option.map_eq_none_iff.mp hs)
      cases s with
      | nil =>
        have hnot : ¬ (b = 13 ∧ (13 : UInt8) = 10) := fun h => absurd h.2 (by decide)
        rw [List.cons_append, List.nil_append, explodeLines, if_neg hnot]
        exact congrArg (List.modifyHead (b :: ·)) hbehind
      | cons c s =>
        have hnot : ¬ (b = 13 ∧ c = 10) := fun h => hhead ⟨h.1, congrArg some h.2⟩
        rw [List.cons_append, List.cons_append, explodeLines, if_neg hnot]
        exact congrArg (List.modifyHead (b :: ·)) hbehind

/-- A line end in a string cuts a line off. -/
theorem exists_line_of_strposLineEnd {s : Bytes} (h : strposLineEnd s ≠ none) :
    ∃ a t, s = a ++ 13 :: 10 :: t ∧ strposLineEnd a = none := by
  obtain ⟨n, hn⟩ := Option.ne_none_iff_exists'.mp h
  refine ⟨s.take n, s.drop (n + 2), ?_, strposLineEnd_take hn⟩
  clear h
  induction s generalizing n with
  | nil => cases hn
  | cons b s ih =>
    rw [strposLineEnd] at hn
    split at hn
    next hhead =>
      obtain rfl := Option.some.inj hn
      obtain ⟨rfl, hten⟩ := hhead
      cases s with
      | nil => cases hten
      | cons c s =>
        obtain rfl := Option.some.inj hten
        rfl
    · obtain ⟨m, hm, rfl⟩ := Option.map_eq_some_iff.mp hn
      exact congrArg (b :: ·) (ih m hm)

/-- The first line of a string is the string just if it has no line end. -/
theorem explodeLines_head_iff (s t : Bytes) :
    (explodeLines (s ++ (crlf ++ t)))[0]? = some s ↔ strposLineEnd s = none := by
  by_cases hs : strposLineEnd s = none
  · rw [show crlf ++ t = 13 :: 10 :: t from rfl, explodeLines_line hs]
    exact iff_of_true rfl hs
  · obtain ⟨a, u, rfl, ha⟩ := exists_line_of_strposLineEnd hs
    rw [List.append_assoc, List.cons_append, List.cons_append, explodeLines_line ha]
    refine iff_of_false ?_ hs
    intro h
    have hlen := congrArg List.length (Option.some.inj h)
    rw [List.length_append, List.length_cons, List.length_cons] at hlen
    omega

/-! ## Numbers -/

/-- `intval` reads a decimal number, and at most the largest integer. -/
theorem phpIntval_decimal_end (n : Nat) : phpIntval (decimal n) = saturate n := by
  obtain ⟨c, cs, hcons⟩ := List.exists_cons_of_ne_nil (decimal_ne_nil n)
  have htake : (decimal n).takeWhile isDigit = decimal n :=
    List.takeWhile_eq_self_iff.mpr fun b hb => isDigit_of_mem_decimal hb
  have hvalue := digitsValue_decimal n
  obtain ⟨hspace, hminus, hplus⟩ := isDigit_ne (isDigit_of_mem_decimal (hcons ▸ List.mem_cons_self))
  rw [hcons] at htake ⊢
  rw [phpIntval, List.dropWhile_cons_of_neg (by rw [hspace]; exact Bool.false_ne_true)]
  split
  next heq => exact absurd (List.cons.inj heq).1 hminus
  next heq => exact absurd (List.cons.inj heq).1 hplus
  · rw [htake, ← hcons, hvalue]

/-- The numbers below 2^63 are integers of PHP. -/
theorem saturate_eq_iff (n : Nat) : saturate n = n ↔ n < 2 ^ 63 := by
  unfold saturate
  omega

/-- A decimal number begins with a digit. -/
theorem head_decimal (n : Nat) : ∃ b s, decimal n = b :: s ∧ isDigit b = true := by
  obtain ⟨b, s, hcons⟩ := List.exists_cons_of_ne_nil (decimal_ne_nil n)
  exact ⟨b, s, hcons, isDigit_of_mem_decimal (hcons ▸ List.mem_cons_self)⟩

/-- A count comes back if PHP has an integer for it. -/
theorem countResult_number (n : Nat) :
    countResult (MemcachedReply.number n).encode = .int n ↔ n < 2 ^ 63 := by
  have hdata : (MemcachedReply.number n).encode ≠ literal "NOT_FOUND\r\n" := by
    obtain ⟨b, s, hcons, hb⟩ := head_decimal n
    intro heq
    rw [MemcachedReply.encode, hcons] at heq
    obtain rfl := (List.cons.inj heq).1
    exact absurd hb (by decide)
  have hhead : (explodeLines (MemcachedReply.number n).encode).headD [] = decimal n := by
    have hline := explodeLines_line (isWord_decimal n).2 []
    rw [MemcachedReply.encode, show crlf = 13 :: 10 :: [] from rfl, hline]
    rfl
  rw [countResult, if_neg hdata, hhead, phpIntval_decimal_end, MemcachedResult.int.injEq,
    saturate_eq_iff]

/-! ## Values -/

/-- The first line of a value is one line. -/
theorem strposLineEnd_valueLine {key : Bytes} (hkey : IsKey key) (flags : Nat) (n : Nat) :
    strposLineEnd (literal "VALUE" ++ 32 :: (key ++ 32 :: (decimal flags ++ 32 :: decimal n))) =
      none := by
  have hword : IsWord (literal "VALUE") := ⟨by decide, by decide⟩
  exact strposLineEnd_words hword (strposLineEnd_words hkey.2
    (strposLineEnd_words (isWord_decimal flags) (isWord_decimal n).2))

/-- A value comes back if it has no line end. -/
theorem get_value {key : Bytes} (hkey : IsKey key) (flags : Nat) (v asked : Bytes) :
    (MemcachedCall.get asked).result (MemcachedReply.value key flags v).encode = .string v ↔
      strposLineEnd v = none := by
  have hdata : (MemcachedReply.value key flags v).encode ≠ literal "END\r\n" := by
    intro heq
    exact absurd (List.cons.inj heq).1 (by decide)
  have hlines : (explodeLines (MemcachedReply.value key flags v).encode)[1]? =
      (explodeLines (v ++ (crlf ++ literal "END\r\n")))[0]? := by
    rw [MemcachedReply.encode, show crlf ++ (v ++ (crlf ++ literal "END\r\n")) =
      13 :: 10 :: (v ++ (crlf ++ literal "END\r\n")) from rfl,
      explodeLines_line (strposLineEnd_valueLine hkey flags v.length), List.getElem?_cons_succ]
  rw [← explodeLines_head_iff v (literal "END\r\n"), ← hlines]
  unfold MemcachedCall.result
  dsimp only
  rw [if_neg hdata]
  cases (explodeLines (MemcachedReply.value key flags v).encode)[1]? with
  | none => exact iff_of_false nofun nofun
  | some w => rw [MemcachedResult.string.injEq, Option.some.injEq]

/-- `version` takes what is between the word and the line end. -/
theorem versionMatch_version {v : Bytes} (hne : v ≠ []) (hline : 10 ∉ v) :
    versionMatch (MemcachedReply.version v).encode = some v := by
  have hrest : (MemcachedReply.version v).encode.drop 8 = (v ++ [13]) ++ 10 :: [] := by
    rw [MemcachedReply.encode, show (8 : Nat) = (literal "VERSION ").length from rfl,
      List.drop_left]
    simp [crlf]
  have hfront : (MemcachedReply.version v).encode.take 8 = literal "VERSION " := by
    rw [MemcachedReply.encode, show (8 : Nat) = (literal "VERSION ").length from rfl,
      List.take_left]
  have hall : ∀ b ∈ v ++ [13], decide (b ≠ 10) = true := by
    intro b hb
    apply decide_eq_true
    rintro rfl
    rcases List.mem_append.mp hb with hb | hb
    · exact hline hb
    · exact absurd (List.mem_singleton.mp hb) (by decide)
  have hfirst : ((v ++ [13]) ++ 10 :: []).takeWhile (fun b => decide (b ≠ 10)) = v ++ [13] := by
    rw [List.takeWhile_append_of_pos hall, List.takeWhile_cons_of_neg (by decide),
      List.append_nil]
  have hbehind : ((v ++ [13]) ++ 10 :: []).dropWhile (fun b => decide (b ≠ 10)) = [10] := by
    rw [List.dropWhile_append_of_pos hall, List.dropWhile_cons_of_neg (by decide)]
  unfold versionMatch
  rw [hrest, hfront]
  dsimp only
  rw [hfirst, hbehind]
  simp [hne]

/-! ## Statistics -/

/-- The lines of statistics are those of their entries. -/
theorem explodeLines_stats (entries : List (Bytes × Bytes))
    (h : ∀ e ∈ entries, IsWord e.1 ∧ IsWord e.2) :
    explodeLines (MemcachedReply.stats entries).encode =
      entries.map statsLine ++ [literal "END", []] := by
  have hstat : IsWord (literal "STAT") := ⟨by decide, by decide⟩
  induction entries with
  | nil => decide
  | cons e entries ih =>
    rw [List.forall_mem_cons] at h
    have hline : strposLineEnd (statsLine e) = none :=
      strposLineEnd_words hstat (strposLineEnd_words h.1.1 h.1.2.2)
    have hsplit : (MemcachedReply.stats (e :: entries)).encode =
        statsLine e ++ 13 :: 10 :: (MemcachedReply.stats entries).encode := by
      simp [MemcachedReply.encode, crlf]
    rw [hsplit, explodeLines_line hline, ih h.2]
    rfl

/-- The loop of `stats` sets an entry for each line of statistics. -/
theorem statsLoop_stats (entries : List (Bytes × Bytes))
    (h : ∀ e ∈ entries, IsWord e.1 ∧ IsWord e.2) :
    statsLoop (entries.map statsLine ++ [literal "END", []]) =
      entries.foldl (fun a e => a.set e.1 e.2) .empty := by
  have hstat : IsWord (literal "STAT") := ⟨by decide, by decide⟩
  have hloop : ∀ a : OrderedMap Bytes Bytes, (entries.map statsLine).foldl (fun a line =>
      match line.splitOn 32 with
      | _ :: name :: value :: _ => a.set name value
      | _ => a) a = entries.foldl (fun a e => a.set e.1 e.2) a := by
    induction entries with
    | nil => exact fun _ => rfl
    | cons e entries ih =>
      intro a
      rw [List.forall_mem_cons] at h
      rw [List.map_cons, List.foldl_cons, List.foldl_cons, statsLine, splitOn_words hstat,
        splitOn_words h.1.1, splitOn_word h.1.2]
      exact ih h.2 _
  rw [statsLoop, List.foldl_append, hloop]
  rfl

/-- `stats` returns the entries of its reply. -/
theorem stats_stats (entries : List (Bytes × Bytes)) (arg : Bytes)
    (h : ∀ e ∈ entries, IsWord e.1 ∧ IsWord e.2) :
    (MemcachedCall.stats arg).result (MemcachedReply.stats entries).encode =
      .array (entries.foldl (fun a e => a.set e.1 e.2) .empty) := by
  have hdata : (MemcachedReply.stats entries).encode ≠ literal "ERROR\r\n" := by
    intro heq
    have hlines := congrArg explodeLines heq
    rw [explodeLines_stats entries h] at hlines
    have hend := congrArg List.getLast? (congrArg List.dropLast hlines)
    rw [show entries.map statsLine ++ [literal "END", []] =
      (entries.map statsLine ++ [literal "END"]) ++ [[]] by simp, List.dropLast_concat,
      List.getLast?_concat] at hend
    exact absurd hend (by decide)
  unfold MemcachedCall.result
  dsimp only
  rw [if_neg hdata, explodeLines_stats entries h, statsLoop_stats entries h]

/-! ## Calls -/

theorem storeResult_stored : storeResult MemcachedReply.stored.encode = .bool true := rfl

theorem storeResult_notStored : storeResult MemcachedReply.notStored.encode = .bool false := rfl

/-- A method returns what the reply means, just if the client can tell. -/
theorem MemcachedCall.result_iff {c : MemcachedCall} {r : MemcachedReply} (h : c.Answers r) :
    c.result r.encode = c.value r ↔ r.Readable := by
  have hstore : ∀ {r : MemcachedReply}, r = .stored ∨ r = .notStored →
      (storeResult r.encode = c.value r ↔ r.Readable) := by
    rintro _ (rfl | rfl)
    · exact iff_of_true storeResult_stored trivial
    · exact iff_of_true storeResult_notStored trivial
  cases c with
  | add key value expire => exact hstore h
  | set key value expire => exact hstore h
  | replace key value expire => exact hstore h
  | get asked =>
    cases r with
    | value key flags v => exact get_value h flags v asked
    | miss => exact iff_of_true rfl trivial
    | _ => cases h
  | delete key =>
    rcases h with rfl | rfl
    · refine iff_of_false (fun heq => ?_) not_false
      have hword : decide (literal "DELETED\r\n" = literal "DELETE\r\n") = true :=
        MemcachedResult.bool.inj heq
      exact absurd hword (by decide)
    · exact iff_of_true rfl trivial
  | incr key delta =>
    cases r with
    | number n => exact countResult_number n
    | notFound => exact iff_of_true rfl trivial
    | _ => cases h
  | decr key delta =>
    cases r with
    | number n => exact countResult_number n
    | notFound => exact iff_of_true rfl trivial
    | _ => cases h
  | flushAll time =>
    cases h
    exact iff_of_true rfl trivial
  | version =>
    cases r with
    | version v =>
      refine iff_of_true ?_ trivial
      have hmatch := versionMatch_version h.1 h.2
      unfold result
      dsimp only
      rw [hmatch]
      rfl
    | _ => cases h
  | stats arg =>
    cases r with
    | stats entries => exact iff_of_true (stats_stats entries arg h) trivial
    | _ => cases h

/-! ## Sessions -/

/-- A call and how its receive is answered. -/
structure MemcachedExchange where
  call : MemcachedCall
  answers : List Chunk

/-- `ngx_socket_recv` with its default length: what it returns and what it leaves; none when it
waits for ever. -/
def memcachedReceive (answers : List Chunk) (stream : Bytes) : Option (Bytes × Bytes) :=
  if stream = [] ∧ answers = [] then none
  else
    let (data, w) := Wire.recv { rest := stream, answers } 1024
    some (data, w.rest)

/-- What the method returns. -/
def MemcachedExchange.receive (e : MemcachedExchange) :
    PrefixReader UInt8 MemcachedResult := fun stream =>
  (memcachedReceive e.answers stream).map fun p => (e.call.result p.1, p.2)

/-- The reply comes in one piece. -/
def MemcachedExchange.InOnePiece (e : MemcachedExchange) (r : MemcachedReply) : Prop :=
  r.encode.length ≤ 1024 ∧ Gets e.answers.head? r.encode.length

instance (e : MemcachedExchange) (r : MemcachedReply) : Decidable (e.InOnePiece r) :=
  inferInstanceAs (Decidable (_ ∧ _))

/-- Every reply says something. -/
theorem MemcachedReply.encode_ne_nil (r : MemcachedReply) : r.encode ≠ [] := by
  cases r with
  | number n =>
    obtain ⟨b, s, hcons, -⟩ := head_decimal n
    rw [encode, hcons]
    exact List.cons_ne_nil _ _
  | stats entries =>
    intro h
    exact absurd (List.append_eq_nil_iff.mp h).2 (List.cons_ne_nil _ _)
  | _ => exact List.cons_ne_nil _ _

/-- A reply that comes in one piece is received whole. -/
theorem MemcachedExchange.receive_encode {e : MemcachedExchange} {r : MemcachedReply}
    (h : e.InOnePiece r) : e.receive r.encode = some (e.call.result r.encode, []) := by
  obtain ⟨hlen, hgets⟩ := h
  have hwait : ¬ (r.encode = [] ∧ e.answers = []) := fun h => r.encode_ne_nil h.1
  have hgot := (Wire.recv_iff (w := { rest := r.encode, answers := e.answers }) rfl hwait hlen
    (Nat.min_eq_right hlen).symm).mpr hgets
  have hleft := Wire.recv_length { rest := r.encode, answers := e.answers } 1024
  have hdata : (Wire.recv { rest := r.encode, answers := e.answers } 1024).1 = r.encode :=
    (List.take_prefix _ r.encode).eq_of_length hgot
  have hnil : (Wire.recv { rest := r.encode, answers := e.answers } 1024).2.rest = [] := by
    rw [hgot] at hleft
    apply List.length_eq_zero_iff.mp
    exact Nat.add_left_cancel hleft
  rw [receive, memcachedReceive, if_neg hwait]
  dsimp only
  rw [hdata, hnil]
  rfl

/-- The calls of a session with a server: each sends its request, the server reads a command from
it, and the call returns what it makes of the reply. -/
def memcachedRun {σ : Type} (serve : σ → MemcachedCommand → MemcachedReply × σ) (s : σ)
    (calls : List MemcachedExchange) : Option (List MemcachedResult) :=
  overStream (fun e : MemcachedExchange => e.call.request) readRequest serve MemcachedReply.encode
    MemcachedExchange.receive s [] calls

/-- The replies of a server that is called directly. -/
def memcachedReplies {σ : Type} (serve : σ → MemcachedCommand → MemcachedReply × σ) (s : σ)
    (calls : List MemcachedExchange) : List MemcachedReply :=
  direct serve s (calls.map fun e => e.call.command)

/-- The results of a run are what the replies mean, just if the client can tell each of them. -/
theorem zipWith_eq_zipWith_iff {calls : List MemcachedExchange} {replies : List MemcachedReply}
    (h : List.Forall₂ (fun e r => e.call.Answers r) calls replies) :
    List.zipWith (fun e r => e.call.result r.encode) calls replies =
        List.zipWith (fun e r => e.call.value r) calls replies ↔
      ∀ r ∈ replies, r.Readable := by
  induction h with
  | nil => exact iff_of_true rfl nofun
  | cons hfirst _ ih =>
    rw [List.zipWith_cons_cons, List.zipWith_cons_cons, List.cons.injEq, List.forall_mem_cons, ih,
      MemcachedCall.result_iff hfirst]

/-- A session of calls whose arguments stay in their lines returns what direct calls of the server
mean, exactly when no value has a line end, no count is beyond the integers of PHP and nothing is
deleted. -/
theorem memcached_run_direct_iff {σ : Type} (serve : σ → MemcachedCommand → MemcachedReply × σ)
    (s : σ) (calls : List MemcachedExchange) (hclean : ∀ e ∈ calls, e.call.command.Clean)
    (hreplies : List.Forall₂ (fun e r => e.call.Answers r ∧ e.InOnePiece r) calls
      (memcachedReplies serve s calls)) :
    memcachedRun serve s calls =
        some (List.zipWith (fun e r => e.call.value r) calls (memcachedReplies serve s calls)) ↔
      ∀ r ∈ memcachedReplies serve s calls, r.Readable := by
  have hsent : ∀ e ∈ calls, readRequest e.call.request = some (e.call.command, []) := by
    intro e he
    have hread := readRequest_request e.call (hclean e he) []
    rwa [List.append_nil] at hread
  have hreceive : ∀ (e : MemcachedExchange) (r : MemcachedReply),
      e.call.Answers r ∧ e.InOnePiece r → e.receive r.encode = some (e.call.result r.encode, []) :=
    fun e r h => MemcachedExchange.receive_encode h.2
  have hsession := overStream_eq hreceive s calls hsent hreplies
  rw [memcachedRun, hsession, Option.some.injEq]
  exact zipWith_eq_zipWith_iff (hreplies.imp fun e r h => h.1)

/-- A server with one value, and its count when it is a number. -/
def oneItem (stored : Option Bytes) : MemcachedCommand → MemcachedReply × Option Bytes
  | .store .add _ _ _ value =>
    if stored.isSome then (.notStored, stored) else (.stored, some value)
  | .store .set _ _ _ value => (.stored, some value)
  | .store .replace _ _ _ value =>
    if stored.isSome then (.stored, some value) else (.notStored, stored)
  | .get key =>
    match stored with
    | none => (.miss, none)
    | some v => (.value key 0 v, some v)
  | .delete _ => (if stored.isSome then .deleted else .notFound, none)
  | .incr _ delta =>
    match stored with
    | none => (.notFound, none)
    | some v =>
      let n := digitsValue v + delta.toNat
      (.number n, some (decimal n))
  | .decr _ delta =>
    match stored with
    | none => (.notFound, none)
    | some v =>
      let n := digitsValue v - delta.toNat
      (.number n, some (decimal n))
  | .flushAll _ => (.ok, none)
  | .version => (.version [49], stored)
  | .stats _ => (.stats [], stored)

/-- A value is stored and comes back. -/
theorem memcached_run_direct_set_get :
    memcachedRun oneItem none [
        { call := .set [107] [97, 13, 32, 10] 0, answers := [] },
        { call := .get [107], answers := [some 2000] }] =
      some [.bool true, .string [97, 13, 32, 10]] := by
  refine (memcached_run_direct_iff oneItem none _ ?_ ?_).mpr ?_
  · decide
  · refine .cons ⟨Or.inl rfl, ?_⟩ (.cons ⟨?_, ?_⟩ .nil)
    · decide +kernel
    · exact (by decide : IsKey [107])
    · decide +kernel
  · intro r hr
    rcases List.mem_cons.mp hr with rfl | hr
    · trivial
    · obtain rfl := List.mem_singleton.mp hr
      exact (by decide : strposLineEnd [97, 13, 32, 10] = none)

end NgxPhp
