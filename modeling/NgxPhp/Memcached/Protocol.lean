import NgxPhp.Lib.SelfDelimiting
import NgxPhp.Redis.Command

/-!
# The memcached protocol

A method of the client writes a line of words, and for a value its bytes and another line end. The
words are not escaped: a key that is itself more than a word makes another line, and another
command. The length of a value is announced, so values may be any byte strings.
-/

namespace NgxPhp

open SelfDelimiting

/-! ## What the client writes -/

/-- The calls of the methods. -/
inductive MemcachedCall
  | add (key value : Bytes) (expire : Int)
  | set (key value : Bytes) (expire : Int)
  | replace (key value : Bytes) (expire : Int)
  | get (key : Bytes)
  | delete (key : Bytes)
  | incr (key : Bytes) (value : Int)
  | decr (key : Bytes) (value : Int)
  | flushAll (time : Int)
  | version
  | stats (arg : Bytes)
  deriving DecidableEq, Repr

/-- `$req` of `add`, `set` and `replace`; `$flags` is zero. -/
def storeRequest (word key value : Bytes) (expire : Int) : Bytes :=
  word ++ literal " " ++ key ++ literal " " ++ decimal 0 ++ literal " " ++ decimalInt expire ++
    literal " " ++ decimal value.length ++ crlf ++ value ++ crlf

/-- `$req` of `get` and `delete`. -/
def keyRequest (word key : Bytes) : Bytes := word ++ literal " " ++ key ++ crlf

/-- `$req` of `incr` and `decr`. -/
def countRequest (word key : Bytes) (value : Int) : Bytes :=
  word ++ literal " " ++ key ++ literal " " ++ decimalInt value ++ crlf

/-- The request of a call. -/
def MemcachedCall.request : MemcachedCall → Bytes
  | .add key value expire => storeRequest (literal "add") key value expire
  | .set key value expire => storeRequest (literal "set") key value expire
  | .replace key value expire => storeRequest (literal "replace") key value expire
  | .get key => keyRequest (literal "get") key
  | .delete key => keyRequest (literal "delete") key
  | .incr key value => countRequest (literal "incr") key value
  | .decr key value => countRequest (literal "decr") key value
  | .flushAll time =>
    if time ≠ 0 then literal "flush_all " ++ decimalInt time ++ crlf
    else literal "flush_all" ++ crlf
  | .version => literal "version" ++ crlf
  | .stats arg =>
    if phpEmpty arg then literal "stats" ++ crlf else literal "stats " ++ arg ++ crlf

/-! ## What the server reads -/

inductive StoreMode
  | add
  | set
  | replace
  deriving DecidableEq, Repr

/-- The first words of the lines. -/
inductive MemcachedWord
  | store (mode : StoreMode)
  | get
  | delete
  | incr
  | decr
  | flushAll
  | version
  | stats
  deriving DecidableEq, Repr

def MemcachedWord.text : MemcachedWord → Bytes
  | .store .add => literal "add"
  | .store .set => literal "set"
  | .store .replace => literal "replace"
  | .get => literal "get"
  | .delete => literal "delete"
  | .incr => literal "incr"
  | .decr => literal "decr"
  | .flushAll => literal "flush_all"
  | .version => literal "version"
  | .stats => literal "stats"

def MemcachedWord.all : List MemcachedWord :=
  [.store .add, .store .set, .store .replace, .get, .delete, .incr, .decr, .flushAll, .version,
    .stats]

/-- The commands. -/
inductive MemcachedCommand
  | store (mode : StoreMode) (key : Bytes) (flags : Nat) (expire : Int) (value : Bytes)
  | get (key : Bytes)
  | delete (key : Bytes)
  | incr (key : Bytes) (delta : Int)
  | decr (key : Bytes) (delta : Int)
  | flushAll (delay : Int)
  | version
  | stats (args : List Bytes)
  deriving DecidableEq, Repr

/-- The line up to its end. -/
def readLine : PrefixReader UInt8 Bytes := fun s =>
  (strposLineEnd s).map fun n => (s.take n, s.drop (n + 2))

/-- A word of digits. -/
def readDecimal (s : Bytes) : Option Nat :=
  if s ≠ [] ∧ s.all isDigit then some (digitsValue s) else none

/-- A word that is an integer. -/
def readInteger : Bytes → Option Int
  | 45 :: s => (readDecimal s).map fun n : Nat => -(n : Int)
  | s => (readDecimal s).map fun n : Nat => (n : Int)

/-- A key has from one to 250 bytes. -/
def KeySize (key : Bytes) : Prop := key ≠ [] ∧ key.length ≤ 250

instance (key : Bytes) : Decidable (KeySize key) := inferInstanceAs (Decidable (_ ∧ _))

/-- What a command has behind its line. -/
def readBehind : MemcachedWord → List Bytes → PrefixReader UInt8 MemcachedCommand
  | .store mode, [key, flags, expire, length], s =>
    match readDecimal flags, readInteger expire, readDecimal length with
    | some flags, some expire, some length =>
      if KeySize key then
        (readBlock length s).map fun p => (.store mode key flags expire p.1, p.2)
      else none
    | _, _, _ => none
  | .get, [key], s => if KeySize key then some (.get key, s) else none
  | .delete, [key], s => if KeySize key then some (.delete key, s) else none
  | .incr, [key, delta], s =>
    if KeySize key then (readInteger delta).map fun n => (.incr key n, s) else none
  | .decr, [key, delta], s =>
    if KeySize key then (readInteger delta).map fun n => (.decr key n, s) else none
  | .flushAll, [], s => some (.flushAll 0, s)
  | .flushAll, [delay], s => (readInteger delay).map fun n => (.flushAll n, s)
  | .version, [], s => some (.version, s)
  | .stats, args, s => some (.stats args, s)
  | _, _, _ => none

/-- A command: a line of words, of which the first says what the others are. -/
def readRequest : PrefixReader UInt8 MemcachedCommand :=
  readBind readLine fun line s =>
    match line.splitOn 32 with
    | [] => none
    | w :: args =>
      match MemcachedWord.all.find? (·.text = w) with
      | none => none
      | some word => readBehind word args s

/-- The command that a call is for. -/
def MemcachedCall.command : MemcachedCall → MemcachedCommand
  | .add key value expire => .store .add key 0 expire value
  | .set key value expire => .store .set key 0 expire value
  | .replace key value expire => .store .replace key 0 expire value
  | .get key => .get key
  | .delete key => .delete key
  | .incr key value => .incr key value
  | .decr key value => .decr key value
  | .flushAll time => .flushAll time
  | .version => .version
  | .stats arg => .stats (if phpEmpty arg then [] else arg.splitOn 32)

/-- One word, which can be a key. -/
def IsKey (key : Bytes) : Prop := KeySize key ∧ 32 ∉ key ∧ strposLineEnd key = none

instance (key : Bytes) : Decidable (IsKey key) := inferInstanceAs (Decidable (_ ∧ _))

/-- The arguments stay in their line. -/
def MemcachedCommand.Clean : MemcachedCommand → Prop
  | .store _ key _ _ _ => IsKey key
  | .get key => IsKey key
  | .delete key => IsKey key
  | .incr key _ => IsKey key
  | .decr key _ => IsKey key
  | .stats args => ∀ arg ∈ args, strposLineEnd arg = none
  | _ => True

instance (c : MemcachedCommand) : Decidable c.Clean := by
  unfold MemcachedCommand.Clean
  split <;> infer_instance

/-! ## Numbers and lines -/

/-- A decimal number is read as it was written. -/
theorem readDecimal_decimal (n : Nat) : readDecimal (decimal n) = some n := by
  have hall : (decimal n).all isDigit = true := List.all_eq_true.mpr fun b hb =>
    isDigit_of_mem_decimal hb
  rw [readDecimal, if_pos ⟨decimal_ne_nil n, hall⟩, digitsValue_decimal]

/-- A decimal integer is read as it was written. -/
theorem readInteger_decimalInt (n : Int) : readInteger (decimalInt n) = some n := by
  unfold decimalInt
  split
  next hneg =>
    rw [readInteger, readDecimal_decimal, Option.map_some]
    congr 1
    omega
  next hpos =>
    unfold readInteger
    split
    next s hs =>
      have hminus := isDigit_of_mem_decimal
        (hs ▸ List.mem_cons_self : (45 : UInt8) ∈ decimal n.natAbs)
      exact absurd hminus (by decide)
    · rw [readDecimal_decimal, Option.map_some]
      congr 1
      omega

/-- A line without a line end ends where one stands behind it. -/
theorem strposLineEnd_line {s : Bytes} (hs : strposLineEnd s = none) (t : Bytes) :
    strposLineEnd (s ++ 13 :: 10 :: t) = some s.length := by
  induction s with
  | nil => rfl
  | cons b s ih =>
    rw [strposLineEnd] at hs
    split at hs
    · cases hs
    next hhead =>
      have hbehind : ¬ (b = 13 ∧ (s ++ 13 :: 10 :: t).head? = some 10) := by
        rintro ⟨hb, hten⟩
        cases s with
        | nil => simp at hten
        | cons c s => exact hhead ⟨hb, hten⟩
      rw [List.cons_append, strposLineEnd, if_neg hbehind, ih (Option.map_eq_none_iff.mp hs)]
      rfl

/-- The line in front of a line end has none. -/
theorem strposLineEnd_take {s : Bytes} {n : Nat} (h : strposLineEnd s = some n) :
    strposLineEnd (s.take n) = none := by
  induction s generalizing n with
  | nil => cases h
  | cons b s ih =>
    rw [strposLineEnd] at h
    split at h
    · obtain rfl := Option.some.inj h
      rfl
    next hhead =>
      obtain ⟨m, hm, rfl⟩ := Option.map_eq_some_iff.mp h
      have hshort : ¬ (b = 13 ∧ (s.take m).head? = some 10) := by
        rintro ⟨hb, hten⟩
        refine hhead ⟨hb, ?_⟩
        cases m with
        | zero => cases hten
        | succ m =>
          cases s with
          | nil => cases hten
          | cons c s => exact hten
      rw [List.take_succ_cons, strposLineEnd, if_neg hshort, ih hm]
      rfl

/-- A line end does not go over a space. -/
theorem strposLineEnd_space {s t : Bytes} :
    strposLineEnd (s ++ 32 :: t) = none ↔ strposLineEnd s = none ∧ strposLineEnd t = none := by
  induction s with
  | nil => simp [strposLineEnd]
  | cons b s ih =>
    have hhead : (s ++ 32 :: t).head? = some 10 ↔ s.head? = some 10 := by
      cases s with
      | nil => simp
      | cons c s => exact Iff.rfl
    simp only [List.cons_append, strposLineEnd, hhead]
    split
    · exact iff_of_false (Option.some_ne_none _) fun h => Option.some_ne_none _ h.1
    · rw [Option.map_eq_none_iff, Option.map_eq_none_iff, ih]

/-- Words have no line end if their line has none. -/
theorem strposLineEnd_intercalate (ws : List Bytes) :
    strposLineEnd ([32].intercalate ws) = none ↔ ∀ w ∈ ws, strposLineEnd w = none := by
  induction ws with
  | nil => exact iff_of_true rfl nofun
  | cons w ws ih =>
    cases ws with
    | nil => simp
    | cons v ws =>
      rw [List.forall_mem_cons, ← ih, List.intercalate_cons_cons, List.append_assoc,
        List.singleton_append, strposLineEnd_space]

/-- A line is read up to its end. -/
theorem readLine_append {s : Bytes} (hs : strposLineEnd s = none) (t : Bytes) :
    readLine (s ++ (crlf ++ t)) = some (s, t) := by
  have hpos := strposLineEnd_line hs t
  have hcrlf : crlf ++ t = 13 :: 10 :: t := rfl
  rw [readLine, hcrlf, hpos, Option.map_some, List.take_left, ← List.drop_drop, List.drop_left]
  rfl

/-- A line that is read has no line end in it. -/
theorem strposLineEnd_of_readLine {s line t : Bytes} (h : readLine s = some (line, t)) :
    strposLineEnd line = none := by
  obtain ⟨n, hn, hp⟩ := Option.map_eq_some_iff.mp h
  obtain ⟨rfl, -⟩ := Prod.mk.inj hp
  exact strposLineEnd_take hn

/-! ## Words -/

/-- It stays a word of its line. -/
def IsWord (w : Bytes) : Prop := 32 ∉ w ∧ strposLineEnd w = none

/-- Without a carriage return there is no line end. -/
theorem strposLineEnd_eq_none {s : Bytes} (h : 13 ∉ s) : strposLineEnd s = none := by
  induction s with
  | nil => rfl
  | cons b s ih =>
    rw [List.mem_cons, not_or] at h
    rw [strposLineEnd, if_neg fun hb => h.1 hb.1.symm, ih h.2]
    rfl

/-- A decimal number is one word. -/
theorem isWord_decimal (n : Nat) : IsWord (decimal n) := by
  constructor
  · intro h
    exact absurd (isDigit_of_mem_decimal h) (by decide)
  · apply strposLineEnd_eq_none
    intro h
    exact absurd (isDigit_of_mem_decimal h) (by decide)

/-- A decimal integer is one word. -/
theorem isWord_decimalInt (n : Int) : IsWord (decimalInt n) := by
  obtain ⟨hspace, hline⟩ := isWord_decimal n.natAbs
  unfold decimalInt
  split
  · constructor
    · intro h
      rcases List.mem_cons.mp h with h | h
      · cases h
      · exact hspace h
    · rw [strposLineEnd, if_neg fun h => absurd h.1 (by decide), hline]
      rfl
  · exact ⟨hspace, hline⟩

/-- The first words are words. -/
theorem MemcachedWord.isWord (w : MemcachedWord) : IsWord w.text := by
  rcases w with (_ | _ | _) | _ | _ | _ | _ | _ | _ | _
  all_goals exact ⟨by decide, by decide⟩

/-- A first word is found by its text. -/
theorem MemcachedWord.find_text (w : MemcachedWord) :
    MemcachedWord.all.find? (·.text = w.text) = some w := by
  rcases w with (_ | _ | _) | _ | _ | _ | _ | _ | _ | _
  all_goals decide

/-- What is cut out between two separators has none. -/
theorem notMem_of_mem_splitOn {a : UInt8} {s w : Bytes} (h : w ∈ s.splitOn a) : a ∉ w := by
  induction s generalizing w with
  | nil =>
    obtain rfl := List.mem_singleton.mp h
    exact List.not_mem_nil
  | cons b s ih =>
    rw [List.splitOn_cons_eq_if_modifyHead] at h
    split at h
    · rcases List.mem_cons.mp h with rfl | h
      · exact List.not_mem_nil
      · exact ih h
    next hb =>
      obtain ⟨v, vs, hvs⟩ := List.exists_cons_of_ne_nil (List.splitOn_ne_nil a s)
      rw [hvs, List.modifyHead_cons] at h
      rcases List.mem_cons.mp h with rfl | h
      · intro ha
        rcases List.mem_cons.mp ha with rfl | ha
        · exact hb (beq_self_eq_true a)
        · exact ih (hvs ▸ List.mem_cons_self) ha
      · exact ih (hvs ▸ List.mem_cons_of_mem v h)

/-- What a line is split into are words. -/
theorem isWord_of_mem_splitOn {line w : Bytes} (hline : strposLineEnd line = none)
    (hw : w ∈ line.splitOn 32) : IsWord w := by
  have hjoin : [32].intercalate (line.splitOn 32) = line := List.intercalate_splitOn 32
  rw [← hjoin, strposLineEnd_intercalate] at hline
  exact ⟨notMem_of_mem_splitOn hw, hline w hw⟩

/-! ## The server reads what the client writes -/

/-- The words behind the first. -/
theorem readRequest_line (w : MemcachedWord) {rest : Bytes} (hrest : strposLineEnd rest = none)
    (t : Bytes) :
    readRequest (w.text ++ 32 :: rest ++ (crlf ++ t)) = readBehind w (rest.splitOn 32) t := by
  have hline : strposLineEnd (w.text ++ 32 :: rest) = none :=
    strposLineEnd_space.mpr ⟨w.isWord.2, hrest⟩
  rw [readRequest, readBind_of_some (readLine_append hline t),
    List.splitOn_append_cons_self_of_not_mem w.isWord.1]
  dsimp only
  rw [w.find_text]

/-- A line of one word. -/
theorem readRequest_word (w : MemcachedWord) (t : Bytes) :
    readRequest (w.text ++ (crlf ++ t)) = readBehind w [] t := by
  rw [readRequest, readBind_of_some (readLine_append w.isWord.2 t),
    List.splitOn_eq_singleton w.isWord.1]
  dsimp only
  rw [w.find_text]

/-- The words of two. -/
theorem strposLineEnd_words {v w : Bytes} (hv : IsWord v) (hw : strposLineEnd w = none) :
    strposLineEnd (v ++ 32 :: w) = none := strposLineEnd_space.mpr ⟨hv.2, hw⟩

/-- The first word of a line is split off. -/
theorem splitOn_words {v : Bytes} (hv : IsWord v) (w : Bytes) :
    (v ++ 32 :: w).splitOn 32 = v :: w.splitOn 32 :=
  List.splitOn_append_cons_self_of_not_mem hv.1 w

/-- A single word is not split. -/
theorem splitOn_word {v : Bytes} (hv : IsWord v) : v.splitOn 32 = [v] :=
  List.splitOn_eq_singleton hv.1

/-- A request of `add`, `set` or `replace` is read as its command. -/
theorem readRequest_store (mode : StoreMode) {key : Bytes} (hkey : IsKey key) (value : Bytes)
    (expire : Int) (t : Bytes) :
    readRequest (storeRequest (MemcachedWord.store mode).text key value expire ++ t) =
      some (.store mode key 0 expire value, t) := by
  obtain ⟨hsize, hword⟩ := hkey
  have hzero := isWord_decimal 0
  have hexpire := isWord_decimalInt expire
  have hlength := isWord_decimal value.length
  have hsplit : storeRequest (MemcachedWord.store mode).text key value expire ++ t =
      (MemcachedWord.store mode).text ++ 32 :: (key ++ 32 :: (decimal 0 ++ 32 ::
        (decimalInt expire ++ 32 :: decimal value.length))) ++ (crlf ++ (value ++ crlf ++ t)) := by
    simp [storeRequest, literal]
  rw [hsplit, readRequest_line _ (strposLineEnd_words hword (strposLineEnd_words hzero
      (strposLineEnd_words hexpire hlength.2))),
    splitOn_words hword, splitOn_words hzero, splitOn_words hexpire, splitOn_word hlength]
  simp only [readBehind, readDecimal_decimal, readInteger_decimalInt, if_pos hsize,
    readBlock_append, Option.map_some]

/-- A request of `incr` or `decr` is read as one with a key and a number. -/
theorem readRequest_count (w : MemcachedWord) {key : Bytes} (hkey : IsKey key) (n : Int)
    (t : Bytes) :
    readRequest (countRequest w.text key n ++ t) = readBehind w [key, decimalInt n] t := by
  obtain ⟨-, hword⟩ := hkey
  have hn := isWord_decimalInt n
  have hsplit : countRequest w.text key n ++ t =
      w.text ++ 32 :: (key ++ 32 :: decimalInt n) ++ (crlf ++ t) := by
    simp [countRequest, literal]
  rw [hsplit, readRequest_line _ (strposLineEnd_words hword hn.2), splitOn_words hword,
    splitOn_word hn]

/-- A request of `get` or `delete` is read as one with a key. -/
theorem readRequest_key (w : MemcachedWord) {key : Bytes} (hkey : IsKey key) (t : Bytes) :
    readRequest (keyRequest w.text key ++ t) = readBehind w [key] t := by
  obtain ⟨-, hword⟩ := hkey
  have hsplit : keyRequest w.text key ++ t = w.text ++ 32 :: key ++ (crlf ++ t) := by
    simp [keyRequest, literal]
  rw [hsplit, readRequest_line _ hword.2, splitOn_word hword]

/-- A request of `flush_all` is read as its command. -/
theorem readRequest_flushAll (time : Int) (t : Bytes) :
    readRequest ((MemcachedCall.flushAll time).request ++ t) = some (.flushAll time, t) := by
  have htime := isWord_decimalInt time
  unfold MemcachedCall.request
  dsimp only
  by_cases hzero : time = 0
  · rw [if_neg (not_not.mpr hzero), List.append_assoc, hzero]
    exact readRequest_word .flushAll t
  · have hsplit : literal "flush_all " ++ decimalInt time ++ crlf ++ t =
        MemcachedWord.flushAll.text ++ 32 :: decimalInt time ++ (crlf ++ t) := by
      simp [MemcachedWord.text, literal]
    rw [if_pos hzero, hsplit, readRequest_line _ htime.2, splitOn_word htime, readBehind,
      readInteger_decimalInt]
    rfl

/-- A request of `stats` is read as its command. -/
theorem readRequest_stats {arg : Bytes} (h : (MemcachedCall.stats arg).command.Clean) (t : Bytes) :
    readRequest ((MemcachedCall.stats arg).request ++ t) =
      some ((MemcachedCall.stats arg).command, t) := by
  unfold MemcachedCall.request MemcachedCall.command at *
  dsimp only at *
  by_cases hempty : phpEmpty arg = true
  · rw [if_pos hempty, if_pos hempty, List.append_assoc]
    exact readRequest_word .stats t
  · rw [if_neg hempty] at h
    have hjoin : [32].intercalate (arg.splitOn 32) = arg := List.intercalate_splitOn 32
    have hline : strposLineEnd arg = none := by
      rw [← hjoin, strposLineEnd_intercalate]
      exact h
    have hsplit : literal "stats " ++ arg ++ crlf ++ t =
        MemcachedWord.stats.text ++ 32 :: arg ++ (crlf ++ t) := by
      simp [MemcachedWord.text, literal]
    rw [if_neg hempty, if_neg hempty, hsplit, readRequest_line _ hline]
    rfl

/-- A call whose arguments stay in their line is read as the command it is for. -/
theorem readRequest_request (c : MemcachedCall) (h : c.command.Clean) (t : Bytes) :
    readRequest (c.request ++ t) = some (c.command, t) := by
  cases c with
  | add key value expire => exact readRequest_store .add h value expire t
  | set key value expire => exact readRequest_store .set h value expire t
  | replace key value expire => exact readRequest_store .replace h value expire t
  | get key =>
    refine (readRequest_key .get h t).trans ?_
    exact if_pos h.1
  | delete key =>
    refine (readRequest_key .delete h t).trans ?_
    exact if_pos h.1
  | incr key value =>
    refine (readRequest_count .incr h value t).trans ?_
    rw [readBehind, if_pos h.1, readInteger_decimalInt]
    rfl
  | decr key value =>
    refine (readRequest_count .decr h value t).trans ?_
    rw [readBehind, if_pos h.1, readInteger_decimalInt]
    rfl
  | flushAll time => exact readRequest_flushAll time t
  | version =>
    refine (congrArg readRequest (List.append_assoc ..)).trans ?_
    exact readRequest_word .version t
  | stats arg => exact readRequest_stats h t

/-- What is read behind words is clean. -/
theorem clean_of_readBehind {w : MemcachedWord} {args : List Bytes} {s t : Bytes}
    {c : MemcachedCommand} (hargs : ∀ a ∈ args, IsWord a) (h : readBehind w args s = some (c, t)) :
    c.Clean := by
  have hkey : ∀ key ∈ args, KeySize key → IsKey key := by
    intro key hmem hsize
    exact ⟨hsize, hargs key hmem⟩
  have hfirst : ∀ key rest, args = key :: rest → KeySize key → IsKey key := by
    rintro key rest rfl hsize
    exact hkey key List.mem_cons_self hsize
  unfold readBehind at h
  split at h
  -- a command with a value
  · split at h
    · split at h
      next hsize =>
        obtain ⟨p, -, hp⟩ := Option.map_eq_some_iff.mp h
        obtain ⟨rfl, -⟩ := Prod.mk.inj hp
        exact hfirst _ _ rfl hsize
      · cases h
    · cases h
  -- `get` and `delete`
  · split at h
    next hsize =>
      obtain ⟨rfl, -⟩ := Prod.mk.inj (Option.some.inj h)
      exact hfirst _ _ rfl hsize
    · cases h
  · split at h
    next hsize =>
      obtain ⟨rfl, -⟩ := Prod.mk.inj (Option.some.inj h)
      exact hfirst _ _ rfl hsize
    · cases h
  -- `incr` and `decr`
  · split at h
    next hsize =>
      obtain ⟨n, -, hp⟩ := Option.map_eq_some_iff.mp h
      obtain ⟨rfl, -⟩ := Prod.mk.inj hp
      exact hfirst _ _ rfl hsize
    · cases h
  · split at h
    next hsize =>
      obtain ⟨n, -, hp⟩ := Option.map_eq_some_iff.mp h
      obtain ⟨rfl, -⟩ := Prod.mk.inj hp
      exact hfirst _ _ rfl hsize
    · cases h
  -- commands without a key
  · obtain ⟨rfl, -⟩ := Prod.mk.inj (Option.some.inj h)
    trivial
  · obtain ⟨n, -, hp⟩ := Option.map_eq_some_iff.mp h
    obtain ⟨rfl, -⟩ := Prod.mk.inj hp
    trivial
  · obtain ⟨rfl, -⟩ := Prod.mk.inj (Option.some.inj h)
    trivial
  · obtain ⟨rfl, -⟩ := Prod.mk.inj (Option.some.inj h)
    intro a ha
    exact (hargs a ha).2
  · cases h

/-- What is read as a command has its arguments in their line. -/
theorem clean_of_readRequest (s : Bytes) (c : MemcachedCommand) (t : Bytes)
    (h : readRequest s = some (c, t)) : c.Clean := by
  obtain ⟨line, u, hline, hwords⟩ := readBind_eq_some.mp h
  have hend := strposLineEnd_of_readLine hline
  split at hwords
  · cases hwords
  next w args hsplit =>
    split at hwords
    · cases hwords
    · apply clean_of_readBehind _ hwords
      intro a ha
      exact isWord_of_mem_splitOn hend (hsplit ▸ List.mem_cons_of_mem w ha)

/-- Every call sends something. -/
theorem MemcachedCall.request_ne_nil (c : MemcachedCall) : c.request ≠ [] := by
  cases c with
  | flushAll time =>
    unfold request
    dsimp only
    split <;> exact List.cons_ne_nil _ _
  | stats arg =>
    unfold request
    dsimp only
    split <;> exact List.cons_ne_nil _ _
  | _ => exact List.cons_ne_nil _ _

/-- A run of calls is read as the commands they are for, exactly when the arguments of each stay
in their line. -/
theorem memcached_requests_iff (calls : List MemcachedCall) :
    readAll readRequest (calls.flatMap MemcachedCall.request).length
        (calls.flatMap MemcachedCall.request) = some (calls.map MemcachedCall.command) ↔
      ∀ c ∈ calls, c.command.Clean := by
  constructor
  · intro hread c hc
    exact forall_mem_of_readAll clean_of_readRequest hread _ (List.mem_map_of_mem hc)
  · intro hclean
    apply readAll_flatMap
    · intro c hc
      exact ⟨c.request_ne_nil, readRequest_request c (hclean c hc)⟩
    · exact length_le_of_ne_nil fun c _ => c.request_ne_nil

/-- A key with a line end in it is another command. -/
example : readAll readRequest 40 (MemcachedCall.get (literal "k\r\nflush_all")).request =
    some [.get (literal "k"), .flushAll 0] := by
  decide +kernel

end NgxPhp
