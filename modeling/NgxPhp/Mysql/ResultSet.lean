import NgxPhp.Mysql.LengthEncoded
import NgxPhp.Mysql.PacketStream

/-!
# Result sets

A result set is a packet with the number of columns, a packet for each column, an EOF packet, a
packet for each row and another EOF packet. Every packet is handed on by its first byte and by what
came before: a row that begins with the empty string looks like an OK packet and ends the reading,
and without rows the second EOF packet is taken for the first.
-/

namespace NgxPhp

/-- What is said of a column. No name has more than 256 characters. -/
structure Column where
  db : Bytes
  table : Bytes
  oriTable : Bytes
  name : Bytes
  oriName : Bytes
  charset : Nat
  length : Nat
  type : Nat
  flags : Nat
  decimals : Nat
  length_le : ∀ s ∈ [db, table, oriTable, name, oriName], s.length ≤ 1024

/-- The packet of a column. -/
def Column.encode (c : Column) : Bytes :=
  encodeValues ([[100, 101, 102], c.db, c.table, c.oriTable, c.name, c.oriName].map some) ++
    (12 :: (packLE 2 c.charset ++ packLE 4 c.length ++ packLE 1 c.type ++ packLE 2 c.flags ++
      packLE 1 c.decimals ++ [0, 0]))

/-- A result set of the text protocol with at most 250 columns and values of at most 250 bytes. -/
structure ResultSet where
  columns : List Column
  rows : List (List (Option Bytes))
  /-- The warnings and the status in the EOF packets. -/
  columnsEnd : Bytes
  rowsEnd : Bytes
  columns_ne_nil : columns ≠ []
  columns_le : columns.length ≤ 250
  row_length : ∀ row ∈ rows, row.length = columns.length
  value_length : ∀ row ∈ rows, ∀ v, some v ∈ row → v.length < 251
  columnsEnd_length : columnsEnd.length = 4
  rowsEnd_length : rowsEnd.length = 4

namespace ResultSet

/-- The data of the packets up to the last row. -/
def front (rs : ResultSet) : List Bytes :=
  [UInt8.ofNat rs.columns.length] :: rs.columns.map Column.encode ++
    [0xfe :: rs.columnsEnd] ++ rs.rows.map encodeValues

/-- The data of the packets. -/
def data (rs : ResultSet) : List Bytes := rs.front ++ [0xfe :: rs.rowsEnd]

/-- The reply, whose first packet has the number `n`. -/
def reply (rs : ResultSet) (n : Int) : Bytes := packets n rs.data

end ResultSet

/-- A row has the value of each column under the name of the column, and nothing else. NULL is not
a string. -/
def Row.Decodes (row : Row) (names : List Bytes) (values : List (Option Bytes)) : Prop :=
  (∀ p ∈ names.zip values, (row.get? p.1).map some = some p.2) ∧
    ∀ k, k ∉ names → row.get? k = none

/-- The rows of the object are those of the result set, in order. -/
def ResultSet.Decoded (rs : ResultSet) (rows : List Row) : Prop :=
  List.Forall₂ (fun values row => Row.Decodes row (rs.columns.map Column.name) values) rs.rows rows

/-! ## Columns -/

/-- The name that `field_data_packet` reads for a column. -/
def Column.readName (c : Column) : Bytes := (fieldDataPacket c.encode).column

/-- A value with its length takes four bytes more than the value at most. -/
theorem length_encodeValue_le {v : Bytes} {n : Nat} (h : v.length ≤ n) :
    (encodeValue (some v)).length ≤ n + 4 := by
  have hlength : (encodeLength v.length).length ≤ 4 := by
    unfold encodeLength
    split_ifs <;> simp [length_packLE]
  rw [encodeValue, List.length_append]
  omega

/-- The packet of a column is below 64 KiB. -/
theorem Column.length_encode_lt (c : Column) : c.encode.length < 2 ^ 16 := by
  have hdb := length_encodeValue_le (c.length_le c.db (by simp))
  have htable := length_encodeValue_le (c.length_le c.table (by simp))
  have horiTable := length_encodeValue_le (c.length_le c.oriTable (by simp))
  have hname := length_encodeValue_le (c.length_le c.name (by simp))
  have horiName := length_encodeValue_le (c.length_le c.oriName (by simp))
  have hcatalog : (encodeValue (some [100, 101, 102])).length = 4 := rfl
  simp only [Column.encode, encodeValues, List.map_cons, List.map_nil, List.flatMap_cons,
    List.flatMap_nil, List.length_append, List.length_cons, List.length_nil, length_packLE]
  omega

/-- The packet of a column begins with the length of its catalog. -/
theorem Column.fieldCount_whole (c : Column) : (Packet.whole c.encode).fieldCount = 3 := by
  have hlen : ¬ some c.encode.length = some 1 := by
    rw [Option.some.injEq]
    have : 1 < c.encode.length := by
      simp [Column.encode, encodeValues, encodeValue, encodeLength]
    omega
  exact if_neg hlen

/-! ## Rows -/

section Row

variable {row : List (Option Bytes)}

/-- Each value of a row takes at most 251 bytes. -/
theorem length_encodeValues_le (hrow : ∀ v, some v ∈ row → v.length < 251) :
    (encodeValues row).length ≤ 251 * row.length := by
  induction row with
  | nil => exact Nat.zero_le _
  | cons v row ih =>
    have htail := ih fun u hu => hrow u (List.mem_cons_of_mem _ hu)
    have hhead : (encodeValue v).length ≤ 251 := by
      cases v with
      | none => decide
      | some u =>
        have hu := hrow u List.mem_cons_self
        rw [encodeValue_of_short hu, List.length_cons]
        omega
    rw [encodeValues_cons, List.length_append, List.length_cons]
    omega

/-- A value takes at least the byte of its length. -/
theorem encodeValue_pos (v : Option Bytes) : 1 ≤ (encodeValue v).length := by
  cases v with
  | none => exact Nat.le_refl 1
  | some u =>
    have hlength : 1 ≤ (encodeLength u.length).length := by
      unfold encodeLength
      split_ifs <;> simp
    rw [encodeValue, List.length_append]
    omega

/-- A row has at least a byte for each value. -/
theorem length_le_encodeValues (row : List (Option Bytes)) :
    row.length ≤ (encodeValues row).length := by
  induction row with
  | nil => exact Nat.zero_le _
  | cons v row ih =>
    have hv := encodeValue_pos v
    rw [encodeValues_cons, List.length_append, List.length_cons]
    omega

/-- The packet of a row is not empty. -/
theorem encodeValues_ne_nil (hne : row ≠ []) : encodeValues row ≠ [] := by
  intro hnil
  have hle := length_le_encodeValues row
  rw [hnil, List.length_nil, Nat.le_zero, List.length_eq_zero_iff] at hle
  exact hne hle

/-- The packet of a row is below 64 KiB. -/
theorem length_row_lt (hlen : row.length ≤ 250) (hrow : ∀ v, some v ∈ row → v.length < 251) :
    (encodeValues row).length < 2 ^ 16 := by
  have := length_encodeValues_le hrow
  omega

/-- A row looks like an OK packet. -/
def LooksOk (row : List (Option Bytes)) : Prop := 2 ≤ row.length ∧ row.head? = some (some [])

instance LooksOk.decidable (row : List (Option Bytes)) : Decidable (LooksOk row) :=
  inferInstanceAs (Decidable (_ ∧ _))

/-- A packet of one byte counts as one field. -/
theorem fieldCount_of_length_one {d : Bytes} (h : d.length = 1) :
    (Packet.whole d).fieldCount = 1 := by
  rw [Packet.fieldCount, Packet.whole, h, if_pos rfl]

/-- The field count of any other packet is its first byte. -/
theorem fieldCount_of_length_ne_one {d : Bytes} (h : d.length ≠ 1) :
    (Packet.whole d).fieldCount = phpOrd d := by
  rw [Packet.fieldCount, Packet.whole, if_neg (by rwa [Option.some.injEq])]

/-- A row is told from the packets that end the reading, unless it looks like an OK packet. -/
theorem fieldCount_row (hne : row ≠ []) (hrow : ∀ v, some v ∈ row → v.length < 251) :
    (Packet.whole (encodeValues row)).fieldCount < 0xfe ∧
      ((Packet.whole (encodeValues row)).fieldCount = 0 ↔ LooksOk row) := by
  obtain ⟨v, row, rfl⟩ := List.exists_cons_of_ne_nil hne
  rw [encodeValues_cons, LooksOk]
  have hfirst : phpOrd (encodeValue v ++ encodeValues row) =
      (v.map List.length).getD 251 := by
    cases v with
    | none => rfl
    | some u =>
      have hu := hrow u List.mem_cons_self
      rw [encodeValue_of_short hu]
      exact UInt8.toNat_ofNat_of_lt' (Nat.lt_trans hu (by decide))
  have hfirst_le : (v.map List.length).getD 251 ≤ 251 := by
    cases v with
    | none => exact Nat.le_refl _
    | some u => exact Nat.le_of_lt (hrow u List.mem_cons_self)
  have hv := encodeValue_pos v
  have hrest := length_le_encodeValues row
  by_cases hone : (encodeValue v ++ encodeValues row).length = 1
  · -- a single column, with NULL or the empty string
    rw [fieldCount_of_length_one hone]
    rw [List.length_append] at hone
    refine ⟨by decide, iff_of_false Nat.one_ne_zero fun hok => ?_⟩
    have htwo := hok.1
    rw [List.length_cons] at htwo
    omega
  · rw [fieldCount_of_length_ne_one hone, hfirst]
    refine ⟨by omega, ?_⟩
    cases v with
    | none => simp
    | some u =>
      constructor
      · intro hzero
        obtain rfl : u = [] := List.length_eq_zero_iff.mp hzero
        refine ⟨?_, rfl⟩
        cases row with
        | nil => exact absurd rfl hone
        | cons => simp
      · rintro ⟨-, hhead⟩
        cases hhead
        rfl

/-- A row has a value, since there is a column. -/
theorem ResultSet.row_ne_nil (rs : ResultSet) (hrow : row ∈ rs.rows) : row ≠ [] := by
  have hpos := List.length_pos_iff.mpr rs.columns_ne_nil
  rw [← rs.row_length row hrow] at hpos
  exact List.length_pos_iff.mp hpos

/-- A row has as many values as there are columns. -/
theorem ResultSet.row_length_le (rs : ResultSet) (hrow : row ∈ rs.rows) : row.length ≤ 250 := by
  rw [rs.row_length row hrow]
  exact rs.columns_le

end Row

/-! ## What is made of each packet -/

section Accept

variable {php8 : Bool} {r : Reader}

/-- The packet of a column is added to the fields, and the last of them ends their state. -/
theorem Reader.accept_column (c : Column) (hstate : r.resultState = 1) :
    r.accept php8 (.whole c.encode) =
      ({ r with
        resultFields := r.resultFields ++ [fieldDataPacket c.encode]
        headerCurr := r.headerCurr + 1
        resultState := if r.headerCurr + 1 < r.headerNum then 1 else 2 }, true) := by
  rw [Reader.accept, c.fieldCount_whole]
  simp [hstate, Packet.whole]

/-- An EOF packet of the reply ends the reading unless it stands behind the columns. -/
theorem Reader.accept_eof {e : Bytes} (he : e.length = 4) :
    r.accept php8 (.whole (0xfe :: e)) = (r, decide (r.resultState = 2)) := by
  have hcount : (Packet.whole (0xfe :: e)).fieldCount = 0xfe :=
    fieldCount_of_length_ne_one (by rw [List.length_cons]; omega)
  rw [Reader.accept, hcount]
  rfl

/-- A packet that looks like a row is added to the rows. -/
theorem Reader.accept_row {d : Bytes} (hlt : (Packet.whole d).fieldCount < 0xfe)
    (hpos : (Packet.whole d).fieldCount ≠ 0) (hstate : r.resultState = 2 ∨ r.resultState = 201) :
    r.accept php8 (.whole d) =
      ({ r with
        resultState := 201
        resultRows := r.resultRows ++ [rowDataPacket php8 r.resultFields d] }, true) := by
  have hzero : r.resultState ≠ 0 := by omega
  have hone : r.resultState ≠ 1 := by omega
  rw [Reader.accept, if_neg hpos, if_neg (by omega), if_neg (by omega),
    if_neg (fun h => hzero h.2), if_neg hone, if_pos hstate]
  rfl

/-- A packet that looks like an OK packet ends the reading. -/
theorem Reader.accept_ok {d : Bytes} (hzero : (Packet.whole d).fieldCount = 0) :
    r.accept php8 (.whole d) = (r, false) := by
  rw [Reader.accept, if_pos hzero]

end Accept

/-! ## Reading -/

namespace ReadsPackets

variable {php8 : Bool} {read : Nat → Reader → Bytes → Option (List Row × Bytes)}

/-- The column packets lead to the state in which the rows are expected. -/
theorem columns (h : ReadsPackets php8 read) {cs : List Column} {r : Reader} (fuel : Nat) (n : Int)
    (rest : Bytes) (hne : cs ≠ []) (hstate : r.resultState = 1)
    (hnum : r.headerCurr + cs.length = r.headerNum) :
    read (fuel + cs.length) r (packets n (cs.map Column.encode) ++ rest) =
      read fuel { r with
        resultFields := r.resultFields ++ cs.map fun c => fieldDataPacket c.encode
        headerCurr := r.headerNum
        resultState := 2 } rest := by
  induction cs generalizing r n with
  | nil => exact absurd rfl hne
  | cons c cs ih =>
    have hnil : c.encode ≠ [] := by
      intro hnil
      have hcount := c.fieldCount_whole
      rw [hnil] at hcount
      cases hcount
    rw [List.length_cons] at hnum
    rw [List.map_cons, packets, List.append_assoc, List.length_cons, ← Nat.add_assoc,
      h.packet _ _ _ _ _ hnil c.length_encode_lt, Reader.accept_column c hstate, if_pos rfl]
    cases cs with
    | nil =>
      rw [List.length_nil, Nat.zero_add] at hnum
      rw [hnum, if_neg (Nat.lt_irrefl _)]
      rfl
    | cons c' cs =>
      have hmore : r.headerCurr + 1 < r.headerNum := by
        rw [List.length_cons] at hnum
        omega
      simp only [if_pos hmore]
      rw [ih _ (List.cons_ne_nil _ _) rfl (by simp only; omega)]
      simp

/-- Rows that do not look like OK packets are collected. -/
theorem rows (h : ReadsPackets php8 read) {rows : List (List (Option Bytes))} {r : Reader}
    (fuel : Nat) (n : Int) (rest : Bytes) (hstate : r.resultState = 2 ∨ r.resultState = 201)
    (hrow : ∀ row ∈ rows, row ≠ [] ∧ row.length ≤ 250 ∧ ¬ LooksOk row ∧
      ∀ v, some v ∈ row → v.length < 251) :
    read (fuel + rows.length) r (packets n (rows.map encodeValues) ++ rest) =
      read fuel { r with
        resultState := if rows = [] then r.resultState else 201
        resultRows := r.resultRows ++
          rows.map fun row => rowDataPacket php8 r.resultFields (encodeValues row) } rest := by
  induction rows generalizing r n with
  | nil => simp [packets]
  | cons row rows ih =>
    obtain ⟨⟨hne, hlen, hok, hvalue⟩, hrows⟩ := List.forall_mem_cons.mp hrow
    obtain ⟨hlt, hzero⟩ := fieldCount_row hne hvalue
    rw [List.map_cons, packets, List.append_assoc, List.length_cons, ← Nat.add_assoc,
      h.packet _ _ _ _ _ (encodeValues_ne_nil hne) (length_row_lt hlen hvalue),
      Reader.accept_row hlt (fun h0 => hok (hzero.mp h0)) hstate, if_pos rfl]
    dsimp only
    rw [ih _ (.inr rfl) hrows]
    simp

/-- What begins like an EOF packet is passed over where the rows begin, and ends the reading behind
them. -/
def Ends (read : Nat → Reader → Bytes → Option (List Row × Bytes)) (last after : Bytes) : Prop :=
  after.length < last.length ∧ ∀ fuel r, read (fuel + 1) r last =
    if r.resultState = 2 then read fuel r after else some (r.resultRows, after)

/-- The EOF packet behind the rows ends the reading. -/
theorem eof (h : ReadsPackets php8 read) {e : Bytes} (he : e.length = 4) (n : Int)
    (rest : Bytes) : Ends read (packets n [0xfe :: e] ++ rest) rest := by
  have hlen : (0xfe :: e).length < 2 ^ 16 := by
    rw [List.length_cons, he]
    decide
  refine ⟨?_, fun fuel r => ?_⟩
  · have hpos := length_packets n [0xfe :: e]
    rw [List.length_singleton] at hpos
    rw [List.length_append]
    omega
  · rw [packets, packets, List.append_nil, h.packet _ _ _ _ _ (List.cons_ne_nil _ _) hlen,
      Reader.accept_eof he]
    exact if_congr decide_eq_true_iff rfl rfl

end ReadsPackets

/-! ## The whole reply -/

/-- The fields that are read. -/
def ResultSet.fields (rs : ResultSet) : List Field :=
  rs.columns.map fun c => fieldDataPacket c.encode

/-- The object where the rows are expected. -/
def ResultSet.expectRows (rs : ResultSet) : Reader where
  headerNum := rs.columns.length
  headerCurr := rs.columns.length
  resultState := 2
  resultFields := rs.fields

namespace ReadsPackets

variable {php8 : Bool} {read : Nat → Reader → Bytes → Option (List Row × Bytes)}

/-- The packets up to the last column leave the object waiting for rows. -/
theorem toRows (h : ReadsPackets php8 read) (rs : ResultSet) (fuel : Nat) (n : Int)
    (last : Bytes) :
    ∃ m, read (fuel + 1 + rs.columns.length + 1) {} (packets n rs.front ++ last) =
      read fuel rs.expectRows (packets m (rs.rows.map encodeValues) ++ last) := by
  have hnum : phpOrd [UInt8.ofNat rs.columns.length] = rs.columns.length :=
    UInt8.toNat_ofNat_of_lt' (Nat.lt_of_le_of_lt rs.columns_le (by decide))
  have hcount : Reader.accept php8 {} (.whole [UInt8.ofNat rs.columns.length]) =
      ({ headerNum := rs.columns.length, resultState := 1 }, true) := by
    have hone : (Packet.whole [UInt8.ofNat rs.columns.length]).fieldCount = 1 :=
      fieldCount_of_length_one rfl
    rw [Reader.accept, hone]
    simp [Packet.whole, hnum]
  have hlen : [UInt8.ofNat rs.columns.length].length < 2 ^ 16 := Nat.one_lt_two_pow (by decide)
  have hfront : rs.front = [UInt8.ofNat rs.columns.length] ::
      (rs.columns.map Column.encode ++ ([0xfe :: rs.columnsEnd] ++ rs.rows.map encodeValues)) := by
    simp [ResultSet.front]
  refine ⟨n + 1 + (rs.columns.map Column.encode).length + [0xfe :: rs.columnsEnd].length, ?_⟩
  rw [hfront, packets, List.append_assoc,
    h.packet _ _ _ _ _ (List.cons_ne_nil _ _) hlen, hcount, if_pos rfl, packets_append,
    List.append_assoc, h.columns _ _ _ rs.columns_ne_nil rfl (Nat.zero_add _), packets_append,
    List.append_assoc, (h.eof rs.columnsEnd_length _ _).2, if_pos rfl]
  rfl

/-- Where no row looks like an OK packet all rows are collected. -/
theorem ofRows (h : ReadsPackets php8 read) (rs : ResultSet) (fuel : Nat) (m : Int)
    {last after : Bytes} (hends : Ends read last after) (hok : ∀ row ∈ rs.rows, ¬ LooksOk row) :
    read (fuel + 1 + rs.rows.length) rs.expectRows
        (packets m (rs.rows.map encodeValues) ++ last) =
      if rs.rows = [] then read fuel rs.expectRows after
      else
        some (rs.rows.map fun row => rowDataPacket php8 rs.fields (encodeValues row), after) := by
  rw [h.rows _ _ _ (.inl rfl) fun row hrow =>
      ⟨rs.row_ne_nil hrow, rs.row_length_le hrow, hok row hrow, rs.value_length row hrow⟩,
    hends.2]
  by_cases hrows : rs.rows = []
  · rw [if_pos hrows, if_pos hrows, hrows]
    rfl
  · rw [if_neg hrows, if_neg hrows]
    rfl

/-- A row that looks like an OK packet ends the reading. -/
theorem ofOkRow (h : ReadsPackets php8 read) (rs : ResultSet) {fuel : Nat} (m : Int)
    (last : Bytes) (hfuel : rs.rows.length ≤ fuel) (hok : ∃ row ∈ rs.rows, LooksOk row) :
    ∃ rows left, read fuel rs.expectRows (packets m (rs.rows.map encodeValues) ++ last) =
      some (rows, left) ∧ last.length ≤ left.length := by
  obtain ⟨before, row, behind, hrows, hrow, hbefore⟩ : ∃ before row behind,
      rs.rows = before ++ row :: behind ∧ LooksOk row ∧ ∀ r ∈ before, ¬ LooksOk r := by
    obtain ⟨row, hrow⟩ := Option.isSome_iff_exists.mp
      (List.find?_isSome (p := fun r => decide (LooksOk r)) |>.mpr (by simpa using hok))
    obtain ⟨hlooks, before, behind, hrows, hbefore⟩ := List.find?_eq_some_iff_append.mp hrow
    exact ⟨before, row, behind, hrows, by simpa using hlooks, by simpa using hbefore⟩
  have hmem : ∀ r ∈ before, r ∈ rs.rows := by
    intro r hr
    rw [hrows]
    exact List.mem_append_left _ hr
  have hrowMem : row ∈ rs.rows := by
    rw [hrows]
    exact List.mem_append_right _ List.mem_cons_self
  obtain ⟨k, rfl⟩ : ∃ k, fuel = k + 1 + before.length := by
    rw [hrows, List.length_append, List.length_cons] at hfuel
    exact ⟨fuel - 1 - before.length, by omega⟩
  have hvalue := rs.value_length row hrowMem
  have hsplit : rs.rows.map encodeValues =
      before.map encodeValues ++ encodeValues row :: behind.map encodeValues := by
    rw [hrows, List.map_append, List.map_cons]
  rw [hsplit, packets_append, List.append_assoc,
    h.rows _ _ _ (.inl rfl) fun r hr => ⟨rs.row_ne_nil (hmem r hr), rs.row_length_le (hmem r hr),
      hbefore r hr, rs.value_length r (hmem r hr)⟩,
    packets, List.append_assoc,
    h.packet _ _ _ _ _ (encodeValues_ne_nil (rs.row_ne_nil hrowMem))
      (length_row_lt (rs.row_length_le hrowMem) hvalue),
    Reader.accept_ok ((fieldCount_row (rs.row_ne_nil hrowMem) hvalue).2.mpr hrow)]
  refine ⟨_, _, rfl, ?_⟩
  rw [List.length_append]
  exact Nat.le_add_left ..

end ReadsPackets

/-! ## The values of a row -/

/-- In a row each column has the value of the last column that is read under its name, and no
column is read under a name that is none of theirs. -/
def ResultSet.NamesAgree (rs : ResultSet) (row : List (Option Bytes)) : Prop :=
  (∀ p ∈ (rs.columns.map Column.name).zip row,
      OrderedMap.lastValue ((rs.columns.map Column.readName).zip row) p.1 = some p.2) ∧
    ∀ k ∈ rs.columns.map Column.readName, k ∈ rs.columns.map Column.name

instance (rs : ResultSet) (row : List (Option Bytes)) : Decidable (rs.NamesAgree row) :=
  inferInstanceAs (Decidable (_ ∧ _))

/-- A field of at most 250 bytes is read as it was written. -/
theorem parseFieldData_of_short {data s t : Bytes} {p : Nat} (hs : s.length < 251)
    (hdata : data.drop p = encodeValue (some s) ++ t) :
    parseFieldData data p = (s, ((p + (encodeValue (some s)).length : Nat) : Int)) := by
  rw [encodeValue_of_short hs] at hdata ⊢
  have hlen : phpOrd (phpSubstr data p (some 1)) = s.length := by
    rw [phpOrd_at, hdata]
    exact UInt8.toNat_ofNat_of_lt' (Nat.lt_trans hs (by decide))
  have htail : data.drop (p + 1) = s ++ t := drop_of_append (a := [_]) hdata
  have hfield : phpSubstr data ((p : Int) + 1) (some (s.length : Int)) = s := by
    rw [show (p : Int) + 1 = ((p + 1 : Nat) : Int) from rfl, phpSubstr_natCast, htail,
      List.take_left]
  simp only [parseFieldData, hlen, hfield, List.length_cons]
  exact Prod.ext rfl (by push_cast; omega)

/-- Names of at most 250 bytes are read as they are. -/
theorem Column.readName_of_short {c : Column}
    (hc : ∀ s ∈ [c.db, c.table, c.oriTable, c.name], s.length < 251) : c.readName = c.name := by
  simp only [List.forall_mem_cons] at hc
  obtain ⟨hdb, htable, horiTable, hname, -⟩ := hc
  obtain ⟨t, ht⟩ : ∃ t, c.encode.drop 0 = encodeValue (some [100, 101, 102]) ++
      (encodeValue (some c.db) ++ (encodeValue (some c.table) ++
        (encodeValue (some c.oriTable) ++ (encodeValue (some c.name) ++ t)))) := by
    refine ⟨encodeValue (some c.oriName) ++ (12 :: (packLE 2 c.charset ++ packLE 4 c.length ++
      packLE 1 c.type ++ packLE 2 c.flags ++ packLE 1 c.decimals ++ [0, 0])), ?_⟩
    simp [Column.encode, encodeValues]
  have hcatalog : parseFieldData c.encode 0 = _ := parseFieldData_of_short (by decide) ht
  replace ht := drop_of_append ht
  have hreadDb := parseFieldData_of_short hdb ht
  replace ht := drop_of_append ht
  have hreadTable := parseFieldData_of_short htable ht
  replace ht := drop_of_append ht
  have hreadOriTable := parseFieldData_of_short horiTable ht
  replace ht := drop_of_append ht
  have hreadName := parseFieldData_of_short hname ht
  simp only [Column.readName, fieldDataPacket, hcatalog, hreadDb, hreadTable, hreadOriTable,
    hreadName]

/-- Columns with different names of at most 250 bytes agree in every row. -/
theorem ResultSet.namesAgree_of_nodup (rs : ResultSet)
    (hnames : (rs.columns.map Column.name).Nodup)
    (hshort : ∀ c ∈ rs.columns, ∀ s ∈ [c.db, c.table, c.oriTable, c.name], s.length < 251)
    {row : List (Option Bytes)} (hrow : row ∈ rs.rows) : rs.NamesAgree row := by
  have hread : rs.columns.map Column.readName = rs.columns.map Column.name :=
    List.map_congr_left fun c hc => c.readName_of_short (hshort c hc)
  have hkeys : ((rs.columns.map Column.name).zip row).map Prod.fst = rs.columns.map Column.name :=
    List.map_fst_zip (Nat.le_of_eq (by rw [rs.row_length row hrow, List.length_map]))
  rw [ResultSet.NamesAgree, hread]
  exact ⟨fun p hp => OrderedMap.lastValue_of_nodup (by rwa [hkeys]) hp, fun _ hk => hk⟩

/-- The loop sets the strings under the names of the columns, one after the other. -/
theorem rowLoop_of_short {php8 : Bool} {data : Bytes} {p : Nat} {fields : List Field}
    {us : List Bytes} (row : Row) (hlen : us.length = fields.length)
    (hus : ∀ u ∈ us, u.length < 251) (hdata : data.drop p = encodeValues (us.map some)) :
    rowLoop php8 data fields p row = row.setAll ((fields.map Field.column).zip us) := by
  induction fields generalizing p us row with
  | nil => rfl
  | cons field fields ih =>
    obtain ⟨u, us, rfl⟩ := List.exists_cons_of_length_eq_add_one hlen
    rw [List.forall_mem_cons] at hus
    rw [List.map_cons, encodeValues_cons] at hdata
    rw [rowLoop_cons, readValue_of_short hus.1 hdata,
      ih _ (Nat.succ.inj hlen) hus.2 (drop_of_append hdata)]
    rfl

/-- An entry of a row has the value of the last column that is read under its name. -/
theorem ResultSet.rowDataPacket_get? (rs : ResultSet) (php8 : Bool) {us : List Bytes}
    (hlen : us.length = rs.columns.length) (hus : ∀ u ∈ us, u.length < 251) (k : Bytes) :
    ((rowDataPacket php8 rs.fields (encodeValues (us.map some))).get? k).map some =
      OrderedMap.lastValue ((rs.columns.map Column.readName).zip (us.map some)) k := by
  have hfields : rs.fields.map Field.column = rs.columns.map Column.readName := by
    rw [ResultSet.fields, List.map_map]
    rfl
  have hrow : rowDataPacket php8 rs.fields (encodeValues (us.map some)) =
      OrderedMap.empty.setAll ((rs.columns.map Column.readName).zip us) := by
    rw [← hfields]
    exact rowLoop_of_short .empty (by rw [hlen, ResultSet.fields, List.length_map]) hus rfl
  rw [hrow, OrderedMap.get?_setAll, OrderedMap.get?_empty, Option.or_none, List.zip_map_right,
    ← OrderedMap.lastValue_map]
  rfl

/-- A row is right just when it has no NULL and its names agree. -/
theorem ResultSet.decodes_iff (rs : ResultSet) (php8 : Bool) {row : List (Option Bytes)}
    (hrow : row ∈ rs.rows) :
    (rowDataPacket php8 rs.fields (encodeValues row)).Decodes (rs.columns.map Column.name) row ↔
      none ∉ row ∧ rs.NamesAgree row := by
  have hlen := rs.row_length row hrow
  by_cases hnull : none ∈ row
  · refine iff_of_false (fun h => ?_) fun h => h.1 hnull
    -- no string is NULL
    have hzip : ((rs.columns.map Column.name).zip row).map Prod.snd = row :=
      List.map_snd_zip (Nat.le_of_eq (by rw [hlen, List.length_map]))
    rw [← hzip, List.mem_map] at hnull
    obtain ⟨⟨k, v⟩, hp, rfl⟩ := hnull
    have hget := h.1 _ hp
    rw [Option.map_eq_some_iff] at hget
    obtain ⟨b, -, hb⟩ := hget
    cases hb
  · rw [and_iff_right hnull]
    obtain ⟨us, rfl⟩ := exists_map_some hnull
    rw [List.length_map] at hlen
    have hus : ∀ u ∈ us, u.length < 251 := fun u hu =>
      rs.value_length _ hrow u (List.mem_map_of_mem hu)
    have hget := rs.rowDataPacket_get? php8 hlen hus
    refine and_congr (forall₂_congr fun p _ => by rw [hget]) ?_
    have hkeys : ∀ k, (rowDataPacket php8 rs.fields (encodeValues (us.map some))).get? k = none ↔
        k ∉ rs.columns.map Column.readName := by
      intro k
      rw [← Option.map_eq_none_iff (f := some), hget, OrderedMap.lastValue_eq_none_iff,
        List.map_fst_zip (Nat.le_of_eq (by rw [List.length_map, List.length_map, hlen]))]
    simp only [hkeys]
    exact forall_congr' fun k => not_imp_not

/-- The rows are decoded when there is no NULL and columns with one name agree. -/
theorem ResultSet.decoded_iff (rs : ResultSet) (php8 : Bool) :
    rs.Decoded (rs.rows.map fun row => rowDataPacket php8 rs.fields (encodeValues row)) ↔
      ∀ row ∈ rs.rows, none ∉ row ∧ rs.NamesAgree row := by
  rw [ResultSet.Decoded, List.forall₂_map_right_iff, List.forall₂_same]
  exact forall₂_congr fun row hrow => rs.decodes_iff php8 hrow

/-! ## Queries -/

/-- A reply has three packets besides those of its columns and rows. -/
theorem ResultSet.data_length (rs : ResultSet) :
    rs.data.length = rs.columns.length + rs.rows.length + 3 := by
  simp [ResultSet.data, ResultSet.front]
  omega

/-- `query` returns the rows of the result set and leaves what is behind the reply. -/
def ResultSet.QueryDecodes (php8 : Bool) (rs : ResultSet) (n : Int) (after : Bytes) : Prop :=
  (∃ r, mysqlQuery php8 (rs.reply n ++ after) [] = some r ∧ rs.Decoded r.resultRows) ∧
    (mysqlQueryLeft php8 (rs.reply n ++ after)).map Prod.snd = some after

/-- `query2`, with pages of `size + 1` bytes, returns the rows of the result set and leaves
nothing of the reply. -/
def ResultSet.Query2Decodes (php8 : Bool) (size : Nat) (rs : ResultSet) (n : Int) : Prop :=
  (∃ r, mysqlQuery2 php8 size (rs.reply n) [] = some r ∧ rs.Decoded r.resultRows) ∧
    (mysqlQuery2Left php8 size (rs.reply n)).map Prod.snd = some []

/-- When a reader of packets gets the rows of the result set and leaves what is behind it. -/
theorem ReadsPackets.decodes_iff {php8 : Bool}
    {read : Nat → Reader → Bytes → Option (List Row × Bytes)} (h : ReadsPackets php8 read)
    (rs : ResultSet) (n : Int) {last after : Bytes} (hends : Ends read last after) {fuel : Nat}
    (hfuel : rs.data.length < fuel) :
    (∃ rows, read fuel {} (packets n rs.front ++ last) = some (rows, after) ∧ rs.Decoded rows) ↔
      (∀ row ∈ rs.rows, ¬ LooksOk row ∧ none ∉ row ∧ rs.NamesAgree row) ∧
        (rs.rows = [] → after = []) := by
  rw [rs.data_length] at hfuel
  obtain ⟨k, rfl⟩ : ∃ k, fuel = k + 1 + 1 + rs.rows.length + 1 + rs.columns.length + 1 :=
    ⟨fuel - (rs.columns.length + rs.rows.length + 4), by omega⟩
  obtain ⟨m, hread⟩ := h.toRows rs (k + 1 + 1 + rs.rows.length) n last
  rw [hread]
  by_cases hok : ∃ row ∈ rs.rows, LooksOk row
  · obtain ⟨rows, left, hstop, hle⟩ := h.ofOkRow rs m last (Nat.le_add_left ..) hok
    obtain ⟨row, hrow, hlooks⟩ := hok
    refine iff_of_false ?_ fun hall => (hall.1 row hrow).1 hlooks
    rintro ⟨rows', hrows, -⟩
    rw [hstop] at hrows
    cases hrows
    exact Nat.not_le_of_lt hends.1 hle
  · have hnot : ∀ row ∈ rs.rows, ¬ LooksOk row := fun row hrow hlooks => hok ⟨row, hrow, hlooks⟩
    have hall : (∀ row ∈ rs.rows, ¬ LooksOk row ∧ none ∉ row ∧ rs.NamesAgree row) ↔
        ∀ row ∈ rs.rows, none ∉ row ∧ rs.NamesAgree row :=
      forall₂_congr fun row hrow => and_iff_right (hnot row hrow)
    rw [h.ofRows rs (k + 1) m hends hnot, hall]
    by_cases hrows : rs.rows = []
    · have hnone : ∀ row ∈ rs.rows, none ∉ row ∧ rs.NamesAgree row := by
        rw [hrows]
        exact nofun
      rw [if_pos hrows, and_iff_right hnone, imp_iff_right hrows]
      by_cases hafter : after = []
      · subst hafter
        refine iff_of_true ⟨[], h.nothing .., ?_⟩ rfl
        rw [ResultSet.Decoded, hrows]
        exact .nil
      · -- what is behind the reply is read in place of the rows
        refine iff_of_false ?_ hafter
        rintro ⟨rows, hread', -⟩
        have hlt := h.progress _ _ _ _ hafter hread'
        exact Nat.lt_irrefl _ hlt
    · rw [if_neg hrows, and_iff_left fun hnil => absurd hnil hrows, ← rs.decoded_iff php8]
      constructor
      · rintro ⟨rows, hrows', hdec⟩
        cases hrows'
        exact hdec
      · intro hdec
        exact ⟨_, rfl, hdec⟩

/-- The rows and what is left, without the other fields of the object. -/
theorem ResultSet.decoded_iff_rows (rs : ResultSet) {x : Option (Reader × Bytes)} (left : Bytes) :
    (∃ r, x.map Prod.fst = some r ∧ rs.Decoded r.resultRows) ∧ x.map Prod.snd = some left ↔
      ∃ rows, x.map (fun y => (y.1.resultRows, y.2)) = some (rows, left) ∧ rs.Decoded rows := by
  constructor
  · rintro ⟨⟨r, hr, hdec⟩, hleft⟩
    obtain ⟨⟨r, left'⟩, rfl, rfl⟩ := Option.map_eq_some_iff.mp hr
    cases hleft
    exact ⟨_, rfl, hdec⟩
  · rintro ⟨rows, hmap, hdec⟩
    obtain ⟨⟨r, left⟩, rfl, hr⟩ := Option.map_eq_some_iff.mp hmap
    cases hr
    exact ⟨⟨r, rfl, hdec⟩, rfl⟩

/-- A reply is its front and the EOF packet behind the rows. -/
theorem ResultSet.reply_append (rs : ResultSet) (n : Int) (after : Bytes) :
    rs.reply n ++ after =
      packets n rs.front ++ (packets (n + rs.front.length) [0xfe :: rs.rowsEnd] ++ after) := by
  rw [ResultSet.reply, ResultSet.data, packets_append, List.append_assoc]

/-- `query` decodes a result set when its rows can be told, and without rows nothing follows. -/
theorem ResultSet.queryDecodes_iff (php8 : Bool) (rs : ResultSet) (n : Int) (after : Bytes) :
    rs.QueryDecodes php8 n after ↔
      (∀ row ∈ rs.rows, ¬ LooksOk row ∧ none ∉ row ∧ rs.NamesAgree row) ∧
        (rs.rows = [] → after = []) := by
  have hlen : rs.data.length ≤ (rs.reply n).length := length_packets n rs.data
  have hcolumns := List.length_pos_iff.mpr rs.columns_ne_nil
  have hdata := rs.data_length
  have harrived : (rs.reply n ++ after).length = (rs.reply n).length + after.length :=
    List.length_append
  have hfuel : rs.data.length < (rs.reply n ++ after).length + 2 := by omega
  rw [ResultSet.QueryDecodes, ← mysqlQueryLeft_fst, rs.decoded_iff_rows,
    mysqlQueryLeft_rows php8 (by omega)]
  rw [rs.reply_append] at hfuel ⊢
  exact (receivedRows_reads php8).decodes_iff rs n
    ((receivedRows_reads php8).eof rs.rowsEnd_length _ after) hfuel

/-! ## Pages -/

/-- A reply that ends with a full page is never over. -/
theorem fullPages_of_dvd {size fuel : Nat} {rest : Bytes} (h : size + 1 ∣ rest.length) :
    fullPages size fuel rest = none := by
  induction fuel generalizing rest with
  | zero => rfl
  | succ fuel ih =>
    rw [fullPages]
    split
    · rfl
    · next hrest =>
      have hpos := List.length_pos_iff.mpr hrest
      have hle := Nat.le_of_dvd hpos h
      rw [if_neg (by omega), ih, Option.map_none]
      rw [List.length_drop]
      exact Nat.dvd_sub h (Nat.dvd_refl _)

/-- Of any other reply only the last page can be the text `0`, which is left out. -/
theorem fullPages_of_not_dvd {size fuel : Nat} {rest : Bytes} (h : ¬ size + 1 ∣ rest.length)
    (hfuel : rest.length ≤ fuel) :
    ∃ data, fullPages size fuel rest = some data ∧ (rest = data ∨ rest = data ++ [48]) := by
  induction fuel generalizing rest with
  | zero =>
    rw [Nat.le_zero.mp hfuel] at h
    exact absurd (Nat.dvd_zero _) h
  | succ fuel ih =>
    have hrest : rest ≠ [] := by
      rintro rfl
      exact h (Nat.dvd_zero _)
    have hsize : 0 < size := by
      refine Nat.pos_of_ne_zero fun hzero => h ?_
      rw [hzero]
      exact Nat.one_dvd _
    rw [fullPages, if_neg hrest]
    split
    · next hshort =>
      refine ⟨_, rfl, ?_⟩
      by_cases hzero : rest = [48]
      · subst hzero
        exact .inr rfl
      · exact .inl (pageData_of_ne hzero).symm
    · next hfull =>
      have hpage : rest.take (size + 1) ≠ [48] := by
        intro htake
        have hlen := congrArg List.length htake
        rw [List.length_take, List.length_singleton] at hlen
        omega
      have hnext : ¬ size + 1 ∣ (rest.drop (size + 1)).length := by
        rw [List.length_drop]
        intro hdvd
        have hsplit : rest.length = (rest.length - (size + 1)) + (size + 1) := by omega
        rw [hsplit] at h
        exact h (Nat.dvd_add hdvd (Nat.dvd_refl _))
      have hdrop : (rest.drop (size + 1)).length ≤ fuel := by
        rw [List.length_drop]
        omega
      obtain ⟨data, hdata, hcases⟩ := ih hnext hdrop
      refine ⟨_, by rw [hdata, Option.map_some, pageData_of_ne hpage], ?_⟩
      rcases hcases with hwhole | hcut
      · rw [← hwhole]
        exact .inl (List.take_append_drop _ _).symm
      · refine .inr ?_
        rw [List.append_assoc, ← hcut, List.take_append_drop]

/-- The last EOF packet without its last byte is told by its first one. -/
theorem ReadsPackets.ends_dropLast (php8 : Bool) {e : Bytes} (he : e.length = 4) (n : Int) :
    Ends (parsedRows php8) (packets n [0xfe :: e]).dropLast [] := by
  match e, he with
  | [a, b, c, d], _ =>
    have hcut : (packets n [[0xfe, a, b, c, d]]).dropLast =
        writePacket [0xfe, a, b, c] 5 n ++ [] := rfl
    have hlength : headerLength (((writePacket [0xfe, a, b, c] 5 n ++ []).take 4 ++
        List.replicate 4 0).take 4) = some 5 := parsedLength_writePacket ..
    have haccept : ∀ r : Reader, r.accept php8 { length := some 5, data := [0xfe, a, b, c] } =
        (r, decide (r.resultState = 2)) := fun _ => rfl
    rw [hcut]
    refine ⟨by simp [writePacket], fun fuel r => ?_⟩
    rw [parsedRows, parseReadPacket2Left]
    dsimp only
    rw [hlength, Option.getD_some, drop_writePacket, List.append_nil,
      List.take_of_length_le (by simp), List.drop_eq_nil_of_le (by simp), haccept]
    by_cases hstate : r.resultState = 2
    · rw [if_pos hstate, if_pos (decide_eq_true hstate), Option.map_map]
      exact congrArg₂ Option.map (funext fun x => by simp [Reader.leave_resultRows]) rfl
    · rw [if_neg hstate, if_neg (by simpa using hstate), Option.map_some,
        Reader.leave_resultRows]

/-- What `query2` collects ends the reading where the reply does. -/
theorem ResultSet.readPages_reply (php8 : Bool) {size : Nat} (rs : ResultSet) (n : Int)
    (hpages : ¬ size + 1 ∣ (rs.reply n).length) :
    ∃ last, ReadsPackets.Ends (parsedRows php8) last [] ∧
      readPages size (rs.reply n) [] = some (packets n rs.front ++ last) := by
  have hreply := rs.reply_append n []
  have hends := (parsedRows_reads php8).eof rs.rowsEnd_length (n + rs.front.length) []
  rw [List.append_nil] at hends
  rw [List.append_nil, List.append_nil] at hreply
  obtain ⟨data, hdata, hwhole | hcut⟩ := fullPages_of_not_dvd hpages (Nat.le_refl _)
  · refine ⟨_, hends, hdata.trans ?_⟩
    rw [← hwhole, hreply]
  · -- the last page is the text `0`
    refine ⟨_, ReadsPackets.ends_dropLast php8 rs.rowsEnd_length (n + rs.front.length), ?_⟩
    have hdrop := congrArg List.dropLast hcut
    rw [List.dropLast_concat] at hdrop
    refine hdata.trans ?_
    rw [← hdrop, hreply, List.dropLast_append_of_ne_nil]
    exact nofun

/-- `query2` returns the rows exactly if they can be read and the last page is not full. -/
theorem ResultSet.query2Decodes_iff (php8 : Bool) (size : Nat) (rs : ResultSet) (n : Int) :
    rs.Query2Decodes php8 size n ↔
      (∀ row ∈ rs.rows, ¬ LooksOk row ∧ none ∉ row ∧ rs.NamesAgree row) ∧
        ¬ size + 1 ∣ (rs.reply n).length := by
  have hlen : rs.data.length ≤ (rs.reply n).length := length_packets n rs.data
  have hfuel : rs.data.length < (rs.reply n).length + 2 := by omega
  by_cases hpages : size + 1 ∣ (rs.reply n).length
  · refine iff_of_false ?_ fun h => h.2 hpages
    rintro ⟨⟨r, hr, -⟩, -⟩
    rw [mysqlQuery2, readPacket2, readPages, fullPages_of_dvd hpages] at hr
    cases hr
  · obtain ⟨last, hends, hread⟩ := rs.readPages_reply php8 n hpages
    have hrows : (mysqlQuery2Left php8 size (rs.reply n)).map (fun x => (x.1.resultRows, x.2)) =
        parsedRows php8 ((rs.reply n).length + 2) {} (packets n rs.front ++ last) := by
      rw [mysqlQuery2Left, hread]
      rfl
    rw [ResultSet.Query2Decodes, ← mysqlQuery2Left_fst, rs.decoded_iff_rows, hrows,
      and_iff_left hpages]
    exact ((parsedRows_reads php8).decodes_iff rs n hends hfuel).trans (and_iff_left fun _ => rfl)

/-- Of a result set both functions return the rows, and read it to its end and not beyond, just
when no row looks like an OK packet, there is no NULL, columns with the same name have the same
value, without rows nothing is behind the reply, and the last page of `query2` is not full. -/
theorem result_set_decoded_iff (php8 : Bool) (size : Nat) (rs : ResultSet) (n : Int)
    (after : Bytes) :
    rs.QueryDecodes php8 n after ∧ rs.Query2Decodes php8 size n ↔
      (∀ row ∈ rs.rows, ¬ LooksOk row ∧ none ∉ row ∧ rs.NamesAgree row) ∧
        (rs.rows = [] → after = []) ∧ ¬ size + 1 ∣ (rs.reply n).length := by
  rw [rs.queryDecodes_iff, rs.query2Decodes_iff]
  tauto

/-- The columns `a` and `b` with these rows. -/
def ResultSet.twoColumns (rows : List (Bytes × Bytes))
    (short : ∀ row ∈ rows, row.1.length < 251 ∧ row.2.length < 251) : ResultSet where
  columns := [97, 98].map fun name =>
    { db := [], table := [], oriTable := [], name := [name], oriName := [], charset := 63
      length := 1, type := 8, flags := 129, decimals := 0, length_le := by simp }
  rows := rows.map fun row => [some row.1, some row.2]
  columnsEnd := [0, 0, 2, 0]
  rowsEnd := [0, 0, 2, 0]
  columns_ne_nil := List.cons_ne_nil _ _
  columns_le := by decide
  row_length := List.forall_mem_map.mpr fun _ _ => rfl
  value_length := List.forall_mem_map.mpr fun row hrow v hv => by
    simp only [List.mem_cons, Option.some.injEq, List.not_mem_nil, or_false] at hv
    rcases hv with rfl | rfl
    · exact (short row hrow).1
    · exact (short row hrow).2
  columnsEnd_length := rfl
  rowsEnd_length := rfl

/-- Two rows, with other bytes behind the reply. -/
theorem result_set_decoded_two :
    let rs := ResultSet.twoColumns [([49], []), ([50], [51])] (by decide)
    rs.QueryDecodes true 1 [7] ∧ rs.Query2Decodes true 15 1 :=
  (result_set_decoded_iff true 15 _ 1 [7]).mpr (by decide)

/-- A row that begins with the empty string is taken for an OK packet, and a reply that is one full
page leaves `query2` waiting for the next one. -/
theorem result_set_not_decoded :
    let empty := ResultSet.twoColumns [([], [49])] (by decide)
    let full := ResultSet.twoColumns [([49], [50])] (by decide)
    ¬ (empty.QueryDecodes true 1 [] ∧ empty.Query2Decodes true 15 1) ∧
      ¬ (full.QueryDecodes true 1 [] ∧ full.Query2Decodes true 84 1) := by
  intro empty full
  constructor
  · rintro ⟨h, -⟩
    rw [empty.queryDecodes_iff] at h
    exact absurd h (by decide)
  · rintro ⟨-, h⟩
    rw [full.query2Decodes_iff] at h
    exact absurd h (by decide)

end NgxPhp
