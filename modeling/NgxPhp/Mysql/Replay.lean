import NgxPhp.Mysql.Handshake
import NgxPhp.Mysql.ResultSet

/-!
# What a reply does to the object

Whatever packets a server sends, `query` and `query2` do the same with them: they hand one packet
after the other on until one ends the reading, and then close the EOF packets that they passed. So
the object is left as the packets say, and it can log in again only if it is not left among the
packets of a result.
-/

namespace NgxPhp

/-- One packet after the other, up to one that ends the reading. -/
def Reader.replay (php8 : Bool) : Reader → List Bytes → Reader
  | r, [] => r
  | r, d :: ds =>
    if (r.accept php8 (.whole d)).2 then
      ((r.accept php8 (.whole d)).1.replay php8 ds).leave (.whole d)
    else (r.accept php8 (.whole d)).1.leave (.whole d)

/-- A packet without data is an OK packet. -/
theorem Reader.accept_nil (php8 : Bool) (r : Reader) {p : Packet} (h : p.fieldCount = 0) :
    r.accept php8 p = (r, false) ∧ r.leave p = r := by
  constructor
  · rw [accept, if_pos h]
  · rw [leave, h]
    rfl

/-! ## `read_packet` -/

/-- Where nothing has arrived there is an OK packet. -/
theorem readFrom_nothing (php8 : Bool) (fuel : Nat) (r : Reader) :
    readFrom php8 (fuel + 1) r (Wire.recv { rest := [] } 4).1 (Wire.recv { rest := [] } 4).2 =
      some r := rfl

/-- A header comes off in front of its data. -/
theorem recv_header (d : Bytes) (n : Int) (rest : Bytes) :
    Wire.recv { rest := writePacket d d.length n ++ rest } 4 =
      (packLE 3 d.length ++ [phpChr n], { rest := d ++ rest }) := by
  rw [writePacket_append, ← length_header d.length (phpChr n)]
  exact Wire.recv_append (by simp)

/-- Without data the header is read again. -/
theorem readFrom_empty (php8 : Bool) (fuel : Nat) (r : Reader) (n : Int) (rest : Bytes) :
    readFrom php8 (fuel + 1) r (packLE 3 0 ++ [phpChr n]) { rest } = some r := by
  have hheader : headerLength (packLE 3 0 ++ [phpChr n]) = some 0 := headerLength_packLE 0 _
  have hcount : (Packet.mk (some 0) (packLE 3 0 ++ [phpChr n])).fieldCount = 0 := rfl
  rw [readFrom, hheader]
  dsimp only [Option.getD_some, Wire.recv, Wire.granted, Wire.size, List.head?_nil,
    Option.getD_none, List.take_zero, readData]
  rw [if_pos rfl, (r.accept_nil php8 hcount).1, (r.accept_nil php8 hcount).2]
  rfl

/-- `read_packet` replays packets that have all arrived. -/
theorem readFrom_packets (php8 : Bool) {fuel : Nat} (r : Reader) (n : Int) (ds : List Bytes)
    (hds : ∀ d ∈ ds, d.length < 2 ^ 16) (hfuel : ds.length < fuel) :
    readFrom php8 fuel r (Wire.recv { rest := packets n ds } 4).1
        (Wire.recv { rest := packets n ds } 4).2 = some (r.replay php8 ds) := by
  induction ds generalizing fuel r n with
  | nil =>
    obtain ⟨fuel, rfl⟩ := Nat.exists_eq_add_one_of_ne_zero (Nat.pos_iff_ne_zero.mp hfuel)
    exact readFrom_nothing php8 fuel r
  | cons d ds ih =>
    obtain ⟨hd, hds⟩ := List.forall_mem_cons.mp hds
    obtain ⟨fuel, rfl⟩ := Nat.exists_eq_add_one_of_ne_zero (Nat.ne_zero_of_lt hfuel)
    have hfuel' : ds.length < fuel := Nat.lt_of_succ_lt_succ hfuel
    have hheader : headerLength (packLE 3 d.length ++ [phpChr n]) = some d.length := by
      rw [headerLength_packLE, Nat.mod_eq_of_lt hd]
    rw [packets, recv_header, Reader.replay]
    by_cases hnil : d = []
    · subst hnil
      have hcount : (Packet.whole []).fieldCount = 0 := rfl
      rw [(r.accept_nil php8 hcount).1, (r.accept_nil php8 hcount).2]
      exact readFrom_empty php8 fuel r n _
    · have hread := congrArg (Option.map Prod.fst)
        (@readFromLeft_whole php8 fuel r _ d (packets (n + 1) ds) hnil hheader)
      rw [readFromLeft_fst] at hread
      rw [hread]
      split
      · rw [Option.map_map]
        have hrest := ih (r.accept php8 (.whole d)).1 (n + 1) hds hfuel'
        rw [← readFromLeft_fst, Option.map_eq_some_iff] at hrest
        obtain ⟨x, hx, hfirst⟩ := hrest
        rw [hx, Option.map_some]
        dsimp only [Function.comp]
        rw [hfirst]
      · rfl

/-! ## `_parse_read_packet2` -/

/-- `_parse_read_packet2` replays packets that have all arrived. -/
theorem parseReadPacket2_packets (php8 : Bool) {fuel : Nat} (r : Reader) (n : Int)
    (ds : List Bytes) (hds : ∀ d ∈ ds, d.length < 2 ^ 16) (hfuel : ds.length < fuel) :
    parseReadPacket2 php8 fuel r (packets n ds) = some (r.replay php8 ds) := by
  induction ds generalizing fuel r n with
  | nil =>
    obtain ⟨fuel, rfl⟩ := Nat.exists_eq_add_one_of_ne_zero (Nat.pos_iff_ne_zero.mp hfuel)
    rfl
  | cons d ds ih =>
    obtain ⟨hd, hds⟩ := List.forall_mem_cons.mp hds
    obtain ⟨fuel, rfl⟩ := Nat.exists_eq_add_one_of_ne_zero (Nat.ne_zero_of_lt hfuel)
    have hfuel' : ds.length < fuel := Nat.lt_of_succ_lt_succ hfuel
    have hread := congrArg (Option.map Prod.fst)
      (@parseReadPacket2Left_whole php8 fuel r d (packets (n + 1) ds) n hd)
    rw [parseReadPacket2Left_fst] at hread
    rw [packets, Reader.replay, hread]
    split
    · have hrest := ih (r.accept php8 (.whole d)).1 (n + 1) hds hfuel'
      rw [← parseReadPacket2Left_fst, Option.map_eq_some_iff] at hrest
      obtain ⟨x, hx, hfirst⟩ := hrest
      rw [hx, Option.map_some, Option.map_some, hfirst]
    · rfl

/-! ## Queries -/

/-- A reply has at least a header. -/
theorem four_le_length_packets (n : Int) {ds : List Bytes} (hne : ds ≠ []) :
    4 ≤ (packets n ds).length := by
  obtain ⟨d, ds, rfl⟩ := List.exists_cons_of_ne_nil hne
  rw [packets, List.length_append, length_writePacket]
  omega

/-- `query` on packets that have arrived. -/
theorem mysqlQuery_arrived (php8 : Bool) (n : Int) {ds : List Bytes} (hne : ds ≠ [])
    (hds : ∀ d ∈ ds, d.length < 2 ^ 16) :
    mysqlQuery php8 (packets n ds) [] = some (Reader.replay php8 {} ds) := by
  have hfuel := length_packets n ds
  rw [mysqlQuery, readPacket]
  dsimp only
  rw [awaitHeader_of_whole (four_le_length_packets n hne) rfl]
  exact readFrom_packets php8 {} n ds hds (by omega)

/-- `query` on packets that arrive as they are asked for. -/
theorem mysqlQuery_packets (php8 : Bool) (n : Int) {ds : List Bytes} (hne : ds ≠ [])
    (hds : ∀ d ∈ ds, d.length < 2 ^ 16) {answers : List Chunk}
    (h : Uncut php8 (packets n ds) answers) :
    mysqlQuery php8 (packets n ds) answers = some (Reader.replay php8 {} ds) := by
  rw [mysqlQuery_of_uncut (four_le_length_packets n hne) h]
  exact mysqlQuery_arrived php8 n hne hds

/-- `query2` on pages that are the packets. -/
theorem mysqlQuery2_packets (php8 : Bool) {size : Nat} (n : Int) {ds : List Bytes}
    (hds : ∀ d ∈ ds, d.length < 2 ^ 16) {pages : List PageChunk}
    (h : PagesWhole size (packets n ds) pages) :
    mysqlQuery2 php8 size (packets n ds) pages = some (Reader.replay php8 {} ds) := by
  have hfuel := length_packets n ds
  rw [mysqlQuery2, readPacket2, readPages_of_whole h]
  exact parseReadPacket2_packets php8 {} n ds hds (by omega)

section Idle

variable {php8 : Bool} {r : Reader}

/-- A packet that goes on is followed by the replay of the others. -/
theorem Reader.replay_more {d : Bytes} {r' : Reader}
    (h : r.accept php8 (.whole d) = (r', true)) (hcount : (Packet.whole d).fieldCount ≠ 0xfe)
    (ds : List Bytes) : r.replay php8 (d :: ds) = r'.replay php8 ds := by
  rw [replay, h, if_pos rfl, leave, if_neg hcount]

/-- An EOF packet goes on only behind the columns. -/
theorem Reader.replay_eof {e : Bytes} (he : e.length = 4) (ds : List Bytes) :
    r.replay php8 ((0xfe :: e) :: ds) =
      if r.resultState = 2 then (r.replay php8 ds).eof else r.eof := by
  have hcount : (Packet.whole (0xfe :: e)).fieldCount = 0xfe :=
    fieldCount_of_length_ne_one (by rw [List.length_cons]; omega)
  rw [replay, accept_eof he, leave, if_pos hcount, leave, if_pos hcount]
  exact if_congr decide_eq_true_iff rfl rfl

/-- The packets of the columns leave the object waiting for rows. -/
theorem Reader.replay_columns {cs : List Column} (hne : cs ≠ []) (hstate : r.resultState = 1)
    (hnum : r.headerCurr + cs.length = r.headerNum) (ds : List Bytes) :
    r.replay php8 (cs.map Column.encode ++ ds) =
      Reader.replay php8 { r with
        resultFields := r.resultFields ++ cs.map fun c => fieldDataPacket c.encode
        headerCurr := r.headerNum
        resultState := 2 } ds := by
  induction cs generalizing r with
  | nil => exact absurd rfl hne
  | cons c cs ih =>
    have hcount : (Packet.whole c.encode).fieldCount ≠ 0xfe := by
      rw [c.fieldCount_whole]
      decide
    rw [List.length_cons] at hnum
    rw [List.map_cons, List.cons_append, replay_more (accept_column c hstate) hcount]
    cases cs with
    | nil =>
      rw [List.length_nil, Nat.zero_add] at hnum
      rw [hnum, if_neg (Nat.lt_irrefl _)]
      rfl
    | cons c' cs =>
      have hmore : r.headerCurr + 1 < r.headerNum := by
        rw [List.length_cons] at hnum
        omega
      simp only [if_pos hmore]
      rw [ih (List.cons_ne_nil _ _) rfl (by simp only; omega)]
      simp

/-- Among the rows nothing but an EOF packet changes where the object is. -/
theorem Reader.accept_state_rows (hstate : r.resultState = 201) (p : Packet) :
    (r.accept php8 p).1.resultState = 201 := by
  unfold accept
  split
  · exact hstate
  split
  · exact hstate
  split
  · exact hstate
  split
  next h => exact absurd h.2 (by rw [hstate]; decide)
  split
  next h => exact absurd h (by rw [hstate]; decide)
  split
  · rfl
  · exact hstate

/-- Behind the rows an EOF packet resets the state. -/
theorem Reader.eof_state {r : Reader} (h : r.resultState = 201 ∨ r.resultState = 0) :
    r.eof.resultState = 0 := by
  unfold eof
  rcases h with h | h
  · rw [if_pos h]
  · rw [if_neg (by rw [h]; decide), h]

/-- An object that has read an EOF packet behind rows is idle. -/
theorem Reader.idle_of_eof {r : Reader} (h : r.resultState = 201 ∨ r.resultState = 0) :
    r.eof.Idle := by
  unfold Idle
  rw [eof_state h]
  decide

/-- Leaving the reading does not change the state. -/
theorem Reader.leave_state {r : Reader} (h : r.resultState = 201 ∨ r.resultState = 0) (p : Packet) :
    (r.leave p).resultState = 201 ∨ (r.leave p).resultState = 0 := by
  unfold leave
  split
  · exact Or.inr (eof_state h)
  · exact h

/-- Behind a row the state stays that of rows or is reset. -/
theorem Reader.replay_state_rows (hstate : r.resultState = 201) (ds : List Bytes) :
    (r.replay php8 ds).resultState = 201 ∨ (r.replay php8 ds).resultState = 0 := by
  induction ds generalizing r with
  | nil => exact Or.inl hstate
  | cons d ds ih =>
    have haccept : (r.accept php8 (.whole d)).1.resultState = 201 := accept_state_rows hstate _
    rw [replay]
    split
    · exact leave_state (ih haccept) _
    · exact leave_state (Or.inl haccept) _

/-- Behind the columns it is the first row that decides. -/
theorem ResultSet.replay_expectRows (rs : ResultSet) (php8 : Bool) :
    (rs.expectRows.replay php8 (rs.rows.map encodeValues ++ [0xfe :: rs.rowsEnd])).eof.Idle ↔
      ∃ row ∈ rs.rows.head?, ¬ LooksOk row := by
  cases hrows : rs.rows with
  | nil =>
    -- the second EOF packet is taken for the first
    rw [List.map_nil, List.nil_append, Reader.replay_eof rs.rowsEnd_length,
      if_pos (show rs.expectRows.resultState = 2 from rfl)]
    exact iff_of_false (fun h => h.2.1 rfl) nofun
  | cons row rows =>
    have hmem : row ∈ rs.rows := by
      rw [hrows]
      exact List.mem_cons_self
    obtain ⟨hlt, hzero⟩ := fieldCount_row (rs.row_ne_nil hmem) (rs.value_length row hmem)
    rw [List.head?_cons, List.map_cons, List.cons_append]
    by_cases hok : LooksOk row
    · have hcount := hzero.mpr hok
      rw [Reader.replay, (Reader.accept_nil php8 _ hcount).1, if_neg Bool.false_ne_true,
        (Reader.accept_nil php8 _ hcount).2]
      refine iff_of_false ?_ ?_
      · intro h
        exact h.2.1 rfl
      · rintro ⟨row', hrow', hnot⟩
        obtain rfl := Option.some.inj hrow'
        exact hnot hok
    · rw [Reader.replay_more (Reader.accept_row hlt (fun h => hok (hzero.mp h)) (.inl rfl))
        (Nat.ne_of_lt hlt)]
      refine iff_of_true ?_ ⟨row, rfl, hok⟩
      exact Reader.idle_of_eof (Reader.replay_state_rows rfl _)

/-- The packets in front of the rows lead to where the rows are expected. -/
theorem ResultSet.replay_data (rs : ResultSet) (php8 : Bool) :
    Reader.replay php8 {} rs.data =
      (rs.expectRows.replay php8 (rs.rows.map encodeValues ++ [0xfe :: rs.rowsEnd])).eof := by
  have hnum : phpOrd [UInt8.ofNat rs.columns.length] = rs.columns.length :=
    UInt8.toNat_ofNat_of_lt' (Nat.lt_of_le_of_lt rs.columns_le (by decide))
  have hone : (Packet.whole [UInt8.ofNat rs.columns.length]).fieldCount = 1 :=
    fieldCount_of_length_one rfl
  have hcount : Reader.accept php8 {} (.whole [UInt8.ofNat rs.columns.length]) =
      ({ headerNum := rs.columns.length, resultState := 1 }, true) := by
    rw [Reader.accept, hone]
    simp [Packet.whole, hnum]
  have hdata : rs.data = [UInt8.ofNat rs.columns.length] :: (rs.columns.map Column.encode ++
      ((0xfe :: rs.columnsEnd) :: (rs.rows.map encodeValues ++ [0xfe :: rs.rowsEnd]))) := by
    simp [ResultSet.data, ResultSet.front]
  rw [hdata, Reader.replay_more hcount (by rw [hone]; decide),
    Reader.replay_columns rs.columns_ne_nil rfl (Nat.zero_add _),
    Reader.replay_eof rs.columnsEnd_length, if_pos rfl]
  rfl

/-- A query leaves the object ready for a login just if there is a row and the first one does not
look like an OK packet. -/
theorem ResultSet.replay_idle_iff (rs : ResultSet) (php8 : Bool) :
    (Reader.replay php8 {} rs.data).Idle ↔ ∃ row ∈ rs.rows.head?, ¬ LooksOk row := by
  rw [rs.replay_data, rs.replay_expectRows php8]

end Idle

/-- All packets of a result set are below 64 KiB. -/
theorem ResultSet.data_length_lt (rs : ResultSet) : ∀ d ∈ rs.data, d.length < 2 ^ 16 := by
  intro d hd
  simp only [ResultSet.data, ResultSet.front, List.mem_append, List.mem_cons, List.mem_map,
    List.not_mem_nil, or_false] at hd
  rcases hd with (((rfl | ⟨c, -, rfl⟩) | rfl) | ⟨row, hrow, rfl⟩) | rfl
  · exact Nat.one_lt_two_pow (by decide)
  · exact c.length_encode_lt
  · rw [List.length_cons, rs.columnsEnd_length]
    decide
  · exact length_row_lt (rs.row_length_le hrow) (rs.value_length row hrow)
  · rw [List.length_cons, rs.rowsEnd_length]
    decide

section Login

variable {php8 : Bool} {sha1 : Bytes → Bytes}

/-- An object that has read the result of a query can log in with the password of the account just
if the result had a row, the first row did not look like an OK packet, and a new object could. -/
theorem login_after_query_iff (rs : ResultSet) (n : Int) {replies : List Chunk} {r : Reader}
    (hreply : Uncut php8 (rs.reply n) replies)
    (hquery : mysqlQuery php8 (rs.reply n) replies = some r)
    (srv : MysqlServer) (cred : Credentials) (password : Bytes) {answers : List Chunk}
    (hsha1 : ∀ s, (sha1 s).length = 20) (hgreets : srv.Greets answers)
    (haccount : srv.accounts cred.user = some (storedPassword sha1 password)) :
    srv.session sha1 r cred password answers = some cred ↔
      (∃ row ∈ rs.rows.head?, ¬ LooksOk row) ∧ cred.Sendable ∧ password ≠ [] := by
  have hne : rs.data ≠ [] := List.append_ne_nil_of_right_ne_nil _ (List.cons_ne_nil _ _)
  have hread : mysqlQuery php8 (rs.reply n) replies = some (Reader.replay php8 {} rs.data) :=
    mysqlQuery_packets php8 n hne rs.data_length_lt hreply
  obtain rfl := Option.some.inj (hquery.symm.trans hread)
  rw [srv.session_password _ cred password hsha1 hgreets haccount, rs.replay_idle_iff]

/-- Behind a result without rows the right password is of no use. -/
theorem login_after_query_empty :
    let rs := ResultSet.twoColumns [] (by decide)
    let srv := MysqlServer.oneUser phpSha1 [114] [112]
    ∃ r, mysqlQuery true (rs.reply 1) [] = some r ∧
      srv.session phpSha1 r { user := [114] } [112] [] ≠ some { user := [114] } := by
  intro rs srv
  have hreply : Uncut true (rs.reply 1) [] := by decide +kernel
  have hread : mysqlQuery true (rs.reply 1) [] = some (Reader.replay true {} rs.data) :=
    mysqlQuery_packets true 1 (List.cons_ne_nil _ _) rs.data_length_lt hreply
  refine ⟨_, hread, ?_⟩
  intro hsession
  have hgreets : srv.Greets [] := by decide +kernel
  obtain ⟨⟨row, hrow, -⟩, -⟩ := (login_after_query_iff rs 1 hreply hread srv { user := [114] } [112]
    length_phpSha1 hgreets rfl).mp hsession
  cases hrow

end Login

end NgxPhp
