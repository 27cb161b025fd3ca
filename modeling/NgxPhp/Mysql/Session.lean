import Mathlib.Data.List.TakeWhile
import NgxPhp.Mysql.Replay

/-!
# Statements over one connection

A session is a run of statements, each sent with `query` or `query2` and answered by a server with
a result set, an OK packet or an error packet. What `query` does not read of a reply it finds in
front of the next one; `query2` takes all that there is.
-/

namespace NgxPhp

open SelfDelimiting

/-! ## The server -/

/-- What a server answers to a statement. -/
inductive StatementReply where
  | rows (rs : ResultSet)
  /-- An OK packet, or an error packet. -/
  | done (ok : Bool) (body : Bytes) (body_ne_nil : body ≠ []) (body_length : body.length < 65535)

namespace StatementReply

def data : StatementReply → List Bytes
  | .rows rs => rs.data
  | .done ok body _ _ => [(if ok then 0x00 else 0xff) :: body]

def encode (v : StatementReply) : Bytes := packets 1 v.data

/-- The rows of the reply, in order. -/
def Means : StatementReply → List Row → Prop
  | .rows rs, rs' => rs.Decoded rs'
  | .done _ _ _ _, rs' => rs' = []

/-- No row looks like an OK packet or has a NULL, and columns with the same name agree. -/
def Readable : StatementReply → Prop
  | .rows rs => ∀ row ∈ rs.rows, ¬ LooksOk row ∧ none ∉ row ∧ rs.NamesAgree row
  | .done _ _ _ _ => True

instance (v : StatementReply) : Decidable v.Readable :=
  match v with
  | .rows rs =>
    inferInstanceAs (Decidable (∀ row ∈ rs.rows, ¬ LooksOk row ∧ none ∉ row ∧ rs.NamesAgree row))
  | .done _ _ _ _ => inferInstanceAs (Decidable True)

theorem data_ne_nil (v : StatementReply) : v.data ≠ [] := by
  cases v with
  | rows rs => exact List.append_ne_nil_of_right_ne_nil _ (List.cons_ne_nil _ _)
  | done => exact List.cons_ne_nil _ _

theorem data_length_lt (v : StatementReply) : ∀ d ∈ v.data, d.length < 2 ^ 16 := by
  cases v with
  | rows rs => exact rs.data_length_lt
  | done ok body hne hlen =>
    intro d hd
    obtain rfl := List.mem_singleton.mp hd
    rw [List.length_cons]
    omega

end StatementReply

/-! ## What the object has of a reply -/

section Replay

variable {php8 : Bool} {r : Reader}

theorem Reader.eof_resultRows (r : Reader) : r.eof.resultRows = r.resultRows := by
  unfold eof
  split <;> rfl

/-- The rows in front of the first one that looks like an OK packet. -/
theorem Reader.replay_rows {rows : List (List (Option Bytes))} {e : Bytes} (he : e.length = 4)
    (hstate : r.resultState = 2 ∨ r.resultState = 201)
    (hrows : ∀ row ∈ rows, row ≠ [] ∧ ∀ v, some v ∈ row → v.length < 251) :
    (r.replay php8 (rows.map encodeValues ++ [0xfe :: e])).resultRows =
      r.resultRows ++ (rows.takeWhile fun row => ¬ LooksOk row).map fun row =>
        rowDataPacket php8 r.resultFields (encodeValues row) := by
  induction rows generalizing r with
  | nil =>
    rw [List.map_nil, List.nil_append, replay_eof he, List.takeWhile_nil, List.map_nil,
      List.append_nil]
    split
    · rw [eof_resultRows]
      rfl
    · exact eof_resultRows r
  | cons row rows ih =>
    obtain ⟨⟨hne, hvalue⟩, hrows⟩ := List.forall_mem_cons.mp hrows
    obtain ⟨hlt, hzero⟩ := fieldCount_row hne hvalue
    rw [List.map_cons, List.cons_append]
    by_cases hok : LooksOk row
    · have hcount := hzero.mpr hok
      rw [replay, (accept_nil php8 _ hcount).1, if_neg Bool.false_ne_true,
        (accept_nil php8 _ hcount).2, List.takeWhile_cons_of_neg (by simpa using hok),
        List.map_nil, List.append_nil]
    · rw [replay_more (accept_row hlt (fun h => hok (hzero.mp h)) hstate) (Nat.ne_of_lt hlt),
        ih (.inr rfl) hrows, List.takeWhile_cons_of_pos (by simpa using hok), List.map_cons,
        List.append_assoc]
      rfl

theorem ResultSet.replay_resultRows (rs : ResultSet) (php8 : Bool) :
    (Reader.replay php8 {} rs.data).resultRows =
      (rs.rows.takeWhile fun row => ¬ LooksOk row).map fun row =>
        rowDataPacket php8 rs.fields (encodeValues row) := by
  rw [rs.replay_data, Reader.eof_resultRows,
    Reader.replay_rows rs.rowsEnd_length (.inl rfl) fun row hrow =>
      ⟨rs.row_ne_nil hrow, rs.value_length row hrow⟩]
  rfl

theorem ResultSet.replay_decoded_iff (rs : ResultSet) (php8 : Bool) :
    rs.Decoded (Reader.replay php8 {} rs.data).resultRows ↔
      ∀ row ∈ rs.rows, ¬ LooksOk row ∧ none ∉ row ∧ rs.NamesAgree row := by
  rw [rs.replay_resultRows php8]
  by_cases hok : ∀ row ∈ rs.rows, ¬ LooksOk row
  · have hall : rs.rows.takeWhile (fun row => ¬ LooksOk row) = rs.rows :=
      List.takeWhile_eq_self_iff.mpr fun row hrow => by simpa using hok row hrow
    rw [hall, rs.decoded_iff php8]
    exact forall₂_congr fun row hrow => (and_iff_right (hok row hrow)).symm
  · -- a row is missing
    refine iff_of_false ?_ fun h => hok fun row hrow => (h row hrow).1
    intro hdecoded
    have hlen := hdecoded.length_eq
    rw [List.length_map] at hlen
    have hall := (List.takeWhile_prefix (fun row => decide ¬ LooksOk row)).eq_of_length hlen.symm
    exact hok fun row hrow => by simpa using List.takeWhile_eq_self_iff.mp hall row hrow

/-- OK and error packets end the reading and leave nothing. -/
theorem Reader.accept_done (r : Reader) (php8 ok : Bool) {body : Bytes} (hne : body ≠ []) :
    r.accept php8 (.whole ((if ok then 0x00 else 0xff) :: body)) = (r, false) ∧
      r.leave (.whole ((if ok then 0x00 else 0xff) :: body)) = r := by
  have hcount : (Packet.whole ((if ok then 0x00 else 0xff) :: body)).fieldCount =
      phpOrd ((if ok then 0x00 else 0xff) :: body) := by
    apply fieldCount_of_length_ne_one
    have hpos := List.length_pos_iff.mpr hne
    rw [List.length_cons]
    omega
  cases ok with
  | true => exact r.accept_nil php8 hcount
  | false =>
    constructor
    · rw [accept, hcount]
      rfl
    · rw [leave, hcount]
      rfl

theorem StatementReply.means_iff (v : StatementReply) (php8 : Bool) :
    v.Means (Reader.replay php8 {} v.data).resultRows ↔ v.Readable := by
  cases v with
  | rows rs => exact rs.replay_decoded_iff php8
  | done ok body hne hlen =>
    obtain ⟨haccept, hleave⟩ := Reader.accept_done {} php8 ok hne
    refine iff_of_true ?_ trivial
    rw [data, Reader.replay, haccept, if_neg Bool.false_ne_true, hleave]
    rfl

end Replay

/-! ## The client -/

/-- How a statement is called: with `query`, of whose receives so many get nothing before the reply
is there, or with `query2`, on pages of `size + 1` bytes. -/
inductive StatementCall where
  | query (sql : Bytes) (waits : Nat)
  | query2 (sql : Bytes) (size : Nat) (pages : List PageChunk)

namespace StatementCall

def sql : StatementCall → Bytes
  | .query sql _ => sql
  | .query2 sql _ _ => sql

/-- What the object has in `resultRows`, and what it leaves. -/
def receive (php8 : Bool) : StatementCall → PrefixReader UInt8 (List Row)
  | .query _ waits, stream =>
    match awaitHeader stream (List.replicate waits none) with
    | none => none
    | some (header, w) =>
      (readFromLeft php8 (stream.length + 2) {} header w).map fun x => (x.1.resultRows, x.2)
  | .query2 _ size pages, stream =>
    (mysqlQuery2 php8 size stream pages).map fun r => (r.resultRows, [])

/-- The page that drains the socket is the last one of the reply. -/
def Pages : StatementCall → StatementReply → Prop
  | .query _ _, _ => True
  | .query2 _ size pages, v => PagesWhole size v.encode pages

instance (e : StatementCall) (v : StatementReply) : Decidable (e.Pages v) :=
  match e with
  | .query _ _ => inferInstanceAs (Decidable True)
  | .query2 _ size pages => inferInstanceAs (Decidable (PagesWhole size v.encode pages))

end StatementCall

/-- A reply that can be read is read to its end. -/
theorem StatementReply.query_left {v : StatementReply} (php8 : Bool) (h : v.Readable) :
    (mysqlQueryLeft php8 v.encode).map Prod.snd = some [] := by
  cases v with
  | rows rs =>
    have hleft := ((rs.queryDecodes_iff php8 1 []).mpr ⟨h, fun _ => rfl⟩).2
    rw [List.append_nil] at hleft
    exact hleft
  | done ok body hne hlen =>
    have hlt : ((if ok then 0x00 else 0xff) :: body : Bytes).length < 2 ^ 16 := by
      rw [List.length_cons]
      omega
    have hread := (receivedRows_reads php8).packet
      ((packets 1 (data (.done ok body hne hlen))).length + 1) {} _ 1 [] (List.cons_ne_nil _ _) hlt
    have hrows := mysqlQueryLeft_rows php8
      (four_le_length_packets 1 (data_ne_nil (.done ok body hne hlen)))
    rw [(Reader.accept_done {} php8 ok hne).1, if_neg Bool.false_ne_true] at hread
    have hsnd := congrArg (Option.map Prod.snd) (hrows.trans hread)
    rw [Option.map_map] at hsnd
    exact hsnd

/-- A call returns the rows in the object, which are those of the reply just when it can be
read. -/
theorem StatementCall.receive_encode (php8 : Bool) {e : StatementCall} {v : StatementReply}
    (h : e.Pages v) : ∃ rows left, e.receive php8 v.encode = some (rows, left) ∧
      (v.Means rows ↔ v.Readable) ∧ (v.Readable → left = []) := by
  cases e with
  | query sql waits =>
    have hread := mysqlQuery_arrived php8 1 v.data_ne_nil v.data_length_lt
    rw [← mysqlQueryLeft_fst, Option.map_eq_some_iff] at hread
    obtain ⟨⟨r, left⟩, hread, rfl⟩ := hread
    refine ⟨_, left, ?_, v.means_iff php8, fun hreadable => ?_⟩
    · have hwaits : (List.replicate waits (none : Chunk)).dropWhile (·.isNone) = [] := by
        apply List.dropWhile_eq_nil_iff.mpr
        intro a ha
        rw [List.eq_of_mem_replicate ha]
        rfl
      have hrows := congrArg (Option.map fun x => (x.1.resultRows, x.2)) hread
      rw [mysqlQueryLeft] at hrows
      rw [receive, awaitHeader_dropWhile, hwaits, StatementReply.encode]
      refine Eq.trans ?_ hrows
      cases awaitHeader (packets 1 v.data) [] with
      | none => rfl
      | some x => rfl
    · have hleft := v.query_left php8 hreadable
      rw [StatementReply.encode, hread] at hleft
      exact Option.some.inj hleft
  | query2 sql size pages =>
    refine ⟨_, [], ?_, v.means_iff php8, fun _ => rfl⟩
    rw [receive, StatementReply.encode, mysqlQuery2_packets php8 1 v.data_length_lt h]
    rfl

end NgxPhp
