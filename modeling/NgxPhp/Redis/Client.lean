import NgxPhp.Mysql.Reading
import NgxPhp.Redis.Command
import NgxPhp.Redis.DataParse

/-!
# A session with a redis server

Every call of a method sends a command and receives pieces of up to 1024 bytes until a piece is
shorter: only then does it take the reply to be complete. What a call leaves on the connection is
what the next one begins with.
-/

namespace NgxPhp

open SelfDelimiting

/-- The loop of `read_data`; none when it waits for ever. A buffer that an earlier receive has
left has the room that this one asks for, since all ask for the same. -/
def redisReadLoop : Nat → Bytes → Wire → Option (Bytes × Bytes)
  | 0, _, _ => none
  | fuel + 1, data, w =>
    if w.rest = [] ∧ w.answers = [] then none
    else
      let (buf, w) := w.recv 1024
      let data := data ++ buf
      if 1024 ≤ buf.length then redisReadLoop fuel data w else some (data, w.rest)

/-- What `read_data` has in `$data`, and what it leaves. Every round but the last takes bytes. -/
def redisReadData (answers : List Chunk) (stream : Bytes) : Option (Bytes × Bytes) :=
  redisReadLoop (stream.length + 1) [] { rest := stream, answers }

/-- A receive that has this answer, or is not among those with an answer, gets the `n` bytes. -/
def Gets : Option Chunk → Nat → Prop
  | none, n => n ≠ 0
  | some none, n => n = 0
  | some (some k), n => n ≤ k + 1

instance (a : Option Chunk) (n : Nat) : Decidable (Gets a n) := by
  unfold Gets
  split <;> infer_instance

/-- The receives get full pieces and then what is left, which is no full piece. -/
def ReceivedWhole (answers : List Chunk) (reply : Bytes) : Prop :=
  (∀ i < reply.length / 1024, Gets answers[i]? 1024) ∧
    Gets answers[reply.length / 1024]? (reply.length % 1024)

instance (answers : List Chunk) (reply : Bytes) : Decidable (ReceivedWhole answers reply) :=
  inferInstanceAs (Decidable (_ ∧ _))

/-! ## One receive -/

theorem Wire.granted_le_piece {w : Wire} (hsize : w.size 1024 = 1024) : w.granted 1024 ≤ 1024 := by
  unfold Wire.granted
  rw [hsize]
  split <;> omega

theorem Wire.size_recv {w : Wire} (hsize : w.size 1024 = 1024) :
    (w.recv 1024).2.size 1024 = 1024 := by
  unfold Wire.recv
  dsimp only
  rw [hsize]
  by_cases hgot : w.rest.take (w.granted 1024) = [] ∧ (1024 : Nat) ≠ 0
  · rw [if_pos hgot]
    rfl
  · rw [if_neg hgot]
    rfl

/-- A receive on which the script does not wait for ever gets the next `n` bytes, or all that is
left if that is `n` bytes, just when its answer says so. -/
theorem Wire.recv_iff {w : Wire} (hsize : w.size 1024 = 1024)
    (hwait : ¬ (w.rest = [] ∧ w.answers = [])) {n : Nat} (hle : n ≤ 1024)
    (hn : n = min 1024 w.rest.length) :
    (w.recv 1024).1.length = n ↔ Gets w.answers.head? n := by
  have hlength : (w.recv 1024).1.length = min (w.granted 1024) w.rest.length := List.length_take
  rw [hlength, Wire.granted, hsize]
  cases hanswers : w.answers with
  | nil =>
    rw [hanswers] at hwait
    have hpos : 0 < w.rest.length := List.length_pos_iff.mpr fun h => hwait ⟨h, rfl⟩
    exact iff_of_true hn.symm (by
      show n ≠ 0
      omega)
  | cons a answers =>
    cases a with
    | none =>
      show min 0 _ = n ↔ n = 0
      omega
    | some k =>
      show min (min (k + 1) 1024) _ = n ↔ n ≤ k + 1
      omega

/-! ## The pieces of a reply -/

theorem receivedWhole_of_lt {answers : List Chunk} {reply : Bytes} (h : reply.length < 1024) :
    ReceivedWhole answers reply ↔ Gets answers.head? reply.length := by
  rw [ReceivedWhole, Nat.div_eq_of_lt h, Nat.mod_eq_of_lt h, List.head?_eq_getElem?]
  exact and_iff_right fun i hi => absurd hi (Nat.not_lt_zero i)

theorem receivedWhole_of_le {answers : List Chunk} {reply : Bytes} (h : 1024 ≤ reply.length) :
    ReceivedWhole answers reply ↔
      Gets answers.head? 1024 ∧ ReceivedWhole answers.tail (reply.drop 1024) := by
  have hdiv : reply.length / 1024 = (reply.drop 1024).length / 1024 + 1 := by
    rw [List.length_drop]
    omega
  have hmod : reply.length % 1024 = (reply.drop 1024).length % 1024 := by
    rw [List.length_drop]
    omega
  rw [ReceivedWhole, ReceivedWhole, hdiv, hmod, List.getElem?_tail, List.head?_eq_getElem?,
    ← and_assoc]
  refine and_congr_left fun _ => ?_
  constructor
  · intro hfull
    refine ⟨hfull 0 (Nat.succ_pos _), fun i hi => ?_⟩
    rw [List.getElem?_tail]
    exact hfull (i + 1) (Nat.succ_lt_succ hi)
  · rintro ⟨hfirst, hfull⟩ i hi
    cases i with
    | zero => exact hfirst
    | succ i =>
      have hnext := hfull i (Nat.lt_of_succ_lt_succ hi)
      rwa [List.getElem?_tail] at hnext

/-! ## The loop -/

/-- No byte is lost. -/
theorem redisReadLoop_append {fuel : Nat} {data d left : Bytes} {w : Wire}
    (h : redisReadLoop fuel data w = some (d, left)) : d ++ left = data ++ w.rest := by
  induction fuel generalizing data w with
  | zero => cases h
  | succ fuel ih =>
    have hsplit : (w.recv 1024).1 ++ (w.recv 1024).2.rest = w.rest := List.take_append_drop _ _
    rw [redisReadLoop] at h
    split at h
    · cases h
    · dsimp only at h
      split at h
      · rw [ih h, List.append_assoc, hsplit]
      · cases h
        rw [List.append_assoc, hsplit]

/-- The loop ends with all bytes just when the receives get them piece by piece. -/
theorem redisReadLoop_iff {fuel : Nat} {data : Bytes} {w : Wire} (hsize : w.size 1024 = 1024)
    (hfuel : w.rest.length < fuel) :
    redisReadLoop fuel data w = some (data ++ w.rest, []) ↔ ReceivedWhole w.answers w.rest := by
  induction fuel generalizing data w with
  | zero => omega
  | succ fuel ih =>
    have hsplit : (w.recv 1024).1 ++ (w.recv 1024).2.rest = w.rest := List.take_append_drop _ _
    have hlength : (w.recv 1024).1.length = min (w.granted 1024) w.rest.length := List.length_take
    have hgranted := Wire.granted_le_piece hsize
    rw [redisReadLoop]
    by_cases hwait : w.rest = [] ∧ w.answers = []
    · rw [if_pos hwait, hwait.1, hwait.2, receivedWhole_of_lt (by decide)]
      exact iff_of_false nofun fun h => h rfl
    rw [if_neg hwait]
    dsimp only
    rcases Nat.lt_or_ge w.rest.length 1024 with hlt | hge
    · -- the last piece
      have hpiece := Wire.recv_iff hsize hwait (Nat.le_of_lt hlt) (by omega)
      rw [if_neg (by omega), receivedWhole_of_lt hlt, ← hpiece, Option.some.injEq, Prod.mk.injEq,
        List.append_cancel_left_eq]
      constructor
      · rintro ⟨hgot, -⟩
        rw [hgot]
      · intro hall
        have hnil : (w.recv 1024).2.rest = [] := by
          have hsum := congrArg List.length hsplit
          rw [List.length_append, hall] at hsum
          exact List.length_eq_zero_iff.mp (by omega)
        refine ⟨?_, hnil⟩
        rw [hnil, List.append_nil] at hsplit
        exact hsplit
    · -- a piece with others behind it
      have hpiece := Wire.recv_iff hsize hwait (n := 1024) (Nat.le_refl _) (by omega)
      rw [receivedWhole_of_le hge, ← hpiece]
      by_cases hfull : (w.recv 1024).1.length = 1024
      · have hdrop : (w.recv 1024).2.rest = w.rest.drop 1024 := by
          have htake := congrArg (List.drop 1024) hsplit
          rwa [List.drop_left' hfull] at htake
        have hshorter : (w.recv 1024).2.rest.length < fuel := by
          rw [hdrop, List.length_drop]
          omega
        have hnext := @ih (data ++ (w.recv 1024).1) _ (Wire.size_recv hsize) hshorter
        rw [List.append_assoc, hsplit, hdrop] at hnext
        rw [if_pos (by omega), hnext]
        exact (and_iff_right hfull).symm
      · rw [if_neg (by omega)]
        refine iff_of_false (fun h => ?_) fun h => hfull h.1
        rw [Option.some.injEq, Prod.mk.injEq, List.append_cancel_left_eq] at h
        have hall := congrArg List.length h.1
        omega

theorem redisReadData_append {answers : List Chunk} {stream data left : Bytes}
    (h : redisReadData answers stream = some (data, left)) : data ++ left = stream :=
  redisReadLoop_append h

theorem redisReadData_iff (answers : List Chunk) (reply : Bytes) :
    redisReadData answers reply = some (reply, []) ↔ ReceivedWhole answers reply :=
  redisReadLoop_iff rfl (Nat.lt_succ_self _)

/-! ## Sessions -/

/-- What the calls of a session have in `$data`: each has its reply on the connection, behind what
the calls before it have left. -/
def redisSession : Bytes → List (Bytes × List Chunk) → Option (List Bytes)
  | _, [] => some []
  | left, (reply, answers) :: calls =>
    match redisReadData answers (left ++ reply) with
    | none => none
    | some (data, left) => (redisSession left calls).map fun ds => data :: ds

/-- The calls of a session get their replies, each its own, just when every call receives its
reply in full pieces and a shorter last one. -/
theorem redis_session_iff (calls : List (Bytes × List Chunk)) :
    redisSession [] calls = some (calls.map Prod.fst) ↔
      ∀ call ∈ calls, ReceivedWhole call.2 call.1 := by
  induction calls with
  | nil => exact iff_of_true rfl nofun
  | cons call calls ih =>
    obtain ⟨reply, answers⟩ := call
    rw [List.forall_mem_cons, ← ih, ← redisReadData_iff, redisSession, List.nil_append,
      List.map_cons]
    cases hread : redisReadData answers reply with
    | none => exact iff_of_false nofun fun h => by cases h.1
    | some p =>
      obtain ⟨data, left⟩ := p
      have hsplit := redisReadData_append hread
      dsimp only
      rw [Option.map_eq_some_iff, Option.some.injEq, Prod.mk.injEq]
      constructor
      · rintro ⟨ds, hds, hcons⟩
        obtain ⟨rfl, rfl⟩ := List.cons.inj hcons
        have hleft : left = [] := List.append_right_eq_self.mp hsplit
        subst hleft
        exact ⟨⟨rfl, rfl⟩, hds⟩
      · rintro ⟨⟨rfl, rfl⟩, hds⟩
        exact ⟨_, hds, rfl⟩

/-- A call of a method that is a command, and how the receives of its reply are answered. -/
structure RedisCall extends RedisMethod where
  isCommand : name ∈ redisCommands
  answers : List Chunk

/-- What a call sends. -/
theorem RedisCall.payload (c : RedisCall) :
    redisCall c.toRedisMethod = some (writeData c.command) := if_pos c.isCommand

/-- What `read_data` returns. -/
def RedisCall.receive (c : RedisCall) : PrefixReader UInt8 RedisValue := fun stream =>
  (redisReadData c.answers stream).map fun p => (dataParse p.1, p.2)

/-- A reply that the call receives whole and that `data_parse` decodes. -/
def RedisCall.Decodes (c : RedisCall) (v : Reply) : Prop :=
  dataParse v.encode = v.value ∧ ReceivedWhole c.answers v.encode

theorem RedisCall.receive_encode (c : RedisCall) (v : Reply) (h : c.Decodes v) :
    c.receive v.encode = some (v.value, []) := by
  obtain ⟨hvalue, hwhole⟩ := h
  rw [receive, (redisReadData_iff _ _).mpr hwhole, Option.map_some, hvalue]

/-- The calls of a session with a server: each sends its payload, the server reads the command
from it, and the call returns what it makes of the reply. -/
def redisRun {σ : Type} (serve : σ → List Bytes → Reply × σ) (s : σ) (calls : List RedisCall) :
    Option (List RedisValue) :=
  overStream (fun c : RedisCall => writeData c.command) readCommand serve Reply.encode
    RedisCall.receive s [] calls

/-- A session returns the values that direct calls of the server give, if every reply is received
whole and can be decoded. -/
theorem redis_run_direct {σ : Type} (serve : σ → List Bytes → Reply × σ) (s : σ)
    (calls : List RedisCall)
    (hreplies : List.Forall₂ RedisCall.Decodes calls
      (direct serve s (calls.map fun c => c.command))) :
    redisRun serve s calls =
      some ((direct serve s (calls.map fun c => c.command)).map Reply.value) := by
  have hsent : ∀ c ∈ calls, readCommand (writeData c.command) = some (c.command, []) := by
    intro c _
    have hread := readCommand_reads c.command trivial []
    rwa [List.append_nil] at hread
  have hsession := overStream_eq RedisCall.receive_encode s calls hsent hreplies
  rwa [zipWith_answers Reply.value (by rw [length_direct, List.length_map])] at hsession

/-- A server with one value: `set` stores its last argument, and `get` returns what is stored. -/
def oneValue (stored : Bytes) (args : List Bytes) : Reply × Bytes :=
  if args.head? = some (literal "set") then
    (.simple ⟨literal "OK", by decide +kernel⟩, args.getLastD [])
  else (.bulk stored, stored)

/-- A value with a zero byte is stored and comes back. -/
theorem redis_run_direct_set_get :
    redisRun oneValue [] [
        { name := literal "set", params := [[107], [7, 0, 32]], isCommand := by decide,
          answers := [] },
        { name := literal "get", params := [[107]], isCommand := by decide,
          answers := [some 2000] }] =
      some [.string (literal "OK"), .string [7, 0, 32]] := by
  refine redis_run_direct oneValue [] _ ?_
  simp only [List.map_cons, List.map_nil, direct, List.forall₂_cons, List.forall₂_nil_right_iff,
    and_true]
  exact ⟨⟨rfl, by decide⟩, ⟨rfl, by decide⟩⟩

end NgxPhp
