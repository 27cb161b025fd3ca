import NgxPhp.Lib.SelfDelimiting
import NgxPhp.Nginx.Strings
import NgxPhp.Redis.Reply

/-!
# Redis commands

A method of the client that is the name of a command sends the name and its parameters as an
array of bulk strings. The parameters are any byte strings: their lengths are announced, and
nothing in them is taken for the end of a line.
-/

namespace NgxPhp

open SelfDelimiting

/-- The commands that there are methods for. -/
def redisCommands : List Bytes :=
  ["get", "set", "mget", "mset", "del", "incr", "decr", "llen", "lindex", "lpop", "lpush",
    "lrange", "linsert", "hexists", "hget", "hset", "hmget", "hdel", "smembers", "sismember",
    "sadd", "srem", "sdiff", "sinter", "sunion", "zrange", "zrangebyscore", "zrank", "zadd",
    "zrem", "zincrby", "auth", "eval", "expire", "script", "sort"].map literal

/-- An argument in the payload of `write_data`. -/
def argument (arg : Bytes) : Bytes := 36 :: (decimal arg.length ++ crlf) ++ (arg ++ crlf)

/-- The loop of `write_data` over its arguments. -/
def writeArguments (args : List Bytes) : Bytes :=
  args.foldl (fun payload arg => payload ++ argument arg) []

/-- What `write_data` sends. -/
def writeData (args : List Bytes) : Bytes :=
  42 :: (decimal args.length ++ crlf) ++ writeArguments args

/-- A method that is called, and its parameters. -/
structure RedisMethod where
  name : Bytes
  params : List Bytes
  deriving DecidableEq, Repr

/-- `array_unshift` of the name. -/
def RedisMethod.command (m : RedisMethod) : List Bytes := m.name :: m.params

/-- `__call`, up to its receive: what is sent, or nothing for a name that is no command. -/
def redisCall (m : RedisMethod) : Option Bytes :=
  if m.name ∈ redisCommands then some (writeData m.command) else none

/-- The arguments of a command follow each other. -/
theorem writeArguments_eq (args : List Bytes) : writeArguments args = args.flatMap argument := by
  have hloop : ∀ payload : Bytes,
      args.foldl (fun payload arg => payload ++ argument arg) payload =
        payload ++ args.flatMap argument := by
    induction args with
    | nil =>
      intro payload
      exact (List.append_nil payload).symm
    | cons arg args ih =>
      intro payload
      rw [List.foldl_cons, ih, List.flatMap_cons, List.append_assoc]
  exact hloop []

/-! ## How a server reads them -/

/-- A number behind the byte for its type, and the line end. -/
def readSize (type : UInt8) : PrefixReader UInt8 Nat
  | [] => none
  | b :: s =>
    if b ≠ type ∨ s.takeWhile isDigit = [] then none
    else
      (readExact crlf (s.dropWhile isDigit)).map fun p => (digitsValue (s.takeWhile isDigit), p.2)

/-- `n` bytes and a line end. -/
def readBlock (n : Nat) : PrefixReader UInt8 Bytes :=
  readThen (readCount n) (fun _ => readExact crlf) fun s _ => some s

/-- A bulk string. -/
def readBulk : PrefixReader UInt8 Bytes := readThen (readSize 36) readBlock fun _ s => some s

/-- A command: an array of bulk strings. -/
def readCommand : PrefixReader UInt8 (List Bytes) :=
  readThen (readSize 42) (readMany readBulk) fun _ args => some args

/-- The digits of a number are passed over. -/
theorem dropWhile_decimal (n : Nat) {b : UInt8} (hb : isDigit b = false) (t : Bytes) :
    (decimal n ++ b :: t).dropWhile isDigit = b :: t := by
  rw [List.dropWhile_append_of_pos fun c hc => isDigit_of_mem_decimal hc,
    List.dropWhile_cons_of_neg (Bool.eq_false_iff.mp hb)]

/-- A size is read as it was written. -/
theorem readSize_reads (type : UInt8) :
    Reads (readSize type) (fun n => type :: (decimal n ++ crlf)) fun _ => True := by
  intro n _ rest
  have htake := takeWhile_decimal n (b := 13) rfl (10 :: rest)
  have hdrop := dropWhile_decimal n (b := 13) rfl (10 :: rest)
  have hline : decimal n ++ crlf ++ rest = decimal n ++ 13 :: 10 :: rest := by
    rw [List.append_assoc]
    rfl
  have hvalue := digitsValue_decimal n
  rw [List.cons_append, readSize, hline, htake, hdrop,
    if_neg (not_or.mpr ⟨not_not.mpr rfl, decimal_ne_nil n⟩), hvalue]
  rfl

/-- A block is read with its line end. -/
theorem readBlock_append (s rest : Bytes) :
    readBlock s.length (s ++ crlf ++ rest) = some (s, rest) := by
  rw [readBlock, readThen, List.append_assoc, readCount_append]
  dsimp only
  rw [readExact_append]
  rfl

/-- A bulk string is read as it was written. -/
theorem readBulk_reads : Reads readBulk argument fun _ => True :=
  Reads.readThen List.length id (fun s => s ++ crlf) (readSize_reads 36) (fun _ _ => trivial)
    (fun s _ rest => readBlock_append s rest) fun _ _ => rfl

/-- A command is read as it was written. -/
theorem readCommand_reads : Reads readCommand writeData fun _ => True := by
  intro args _ rest
  have hread : Reads readCommand
      (fun args => 42 :: decimal args.length ++ crlf ++ args.flatMap argument) fun _ => True :=
    Reads.readThen List.length id (List.flatMap argument) (readSize_reads 42) (fun _ _ => trivial)
      (fun args _ rest => readBulk_reads.many (fun _ _ => trivial) rest) fun _ _ => rfl
  rw [writeData, writeArguments_eq]
  exact hread args trivial rest

theorem writeData_ne_nil (args : List Bytes) : writeData args ≠ [] := List.cons_ne_nil _ _

/-- The payloads that a run of calls sends. -/
def redisPayloads (calls : List RedisMethod) : List Bytes := calls.filterMap redisCall

/-- The calls that are commands. -/
def redisSent (calls : List RedisMethod) : List (List Bytes) :=
  (calls.filter fun m => m.name ∈ redisCommands).map RedisMethod.command

/-- The payloads of a session are those of the calls that are sent. -/
theorem redisPayloads_eq (calls : List RedisMethod) :
    redisPayloads calls = (redisSent calls).map writeData := by
  induction calls with
  | nil => rfl
  | cons m calls ih =>
    by_cases hname : m.name ∈ redisCommands
    · have hcall : redisCall m = some (writeData m.command) := if_pos hname
      rw [redisPayloads, List.filterMap_cons_some hcall, redisSent,
        List.filter_cons_of_pos (by simpa using hname)]
      exact congrArg _ ih
    · have hcall : redisCall m = none := if_neg hname
      rw [redisPayloads, List.filterMap_cons_none hcall, redisSent,
        List.filter_cons_of_neg (by simpa using hname)]
      exact ih

/-- Whatever methods are called, with any parameters, the bytes that are sent are taken apart
into the calls that are commands, each with its parameters as they are. -/
theorem redis_payloads_read (calls : List RedisMethod) :
    readAll readCommand (redisPayloads calls).flatten.length (redisPayloads calls).flatten =
      some (redisSent calls) := by
  have hstream : (redisPayloads calls).flatten = (redisSent calls).flatMap writeData := by
    rw [redisPayloads_eq, List.flatMap_def]
  rw [hstream]
  exact readCommand_reads.all (fun args _ => ⟨trivial, writeData_ne_nil args⟩)
    (length_le_of_ne_nil fun args _ => writeData_ne_nil args)

end NgxPhp
