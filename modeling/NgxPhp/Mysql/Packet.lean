import Mathlib.Algebra.Group.Nat.Defs
import Mathlib.Data.Int.DivMod
import NgxPhp.Lib.OrderedMap
import NgxPhp.Mysql.Client

/-!
# What the mysql client makes of a packet

The packets of a reply are told apart by their first byte and by what has come before. Fields and
rows are cut out of their packets with `substr`, `ord` and `unpack`, which on too short a string
give the empty string, zero and null.
-/

namespace NgxPhp

/-- `ord`. -/
def phpOrd (s : Bytes) : Nat := (s.headD 0).toNat

/-- `substr`, without a length up to the end of the string. -/
def phpSubstr (s : Bytes) (start : Int) (len : Option Int) : Bytes :=
  let from_ := if start < 0 then max (s.length + start) 0 else min start s.length
  let rest : Int := s.length - from_
  let count := match len with
    | none => rest
    | some l => if l < 0 then max (rest + l) 0 else min l rest
  (s.drop from_.toNat).take count.toNat

theorem phpSubstr_natCast (s : Bytes) (i n : Nat) :
    phpSubstr s i (some n) = (s.drop i).take n := by
  have hstart : (min (i : Int) s.length).toNat = min i s.length := by omega
  have hcount : (min (n : Int) (s.length - min (i : Int) s.length)).toNat =
      min n (s.length - min i s.length) := by omega
  unfold phpSubstr
  dsimp only
  rw [if_neg (by omega), if_neg (by omega), hstart, hcount]
  rcases Nat.le_total i s.length with hi | hi
  · rw [Nat.min_eq_left hi, ← List.length_drop, List.take_eq_take_min (i := n), Nat.min_comm]
  · simp [Nat.min_eq_right hi, List.drop_eq_nil_of_le hi]

theorem phpSubstr_rest (s : Bytes) (i : Nat) : phpSubstr s i none = s.drop i := by
  have hstart : (min (i : Int) s.length).toNat = min i s.length := by omega
  unfold phpSubstr
  dsimp only
  rw [if_neg (by omega), hstart]
  rcases Nat.le_total i s.length with hi | hi
  · rw [Nat.min_eq_left hi]
    exact List.take_of_length_le (by rw [List.length_drop]; omega)
  · simp [Nat.min_eq_right hi, List.drop_eq_nil_of_le hi]

/-- The number with these bytes, least significant first. -/
def leNat : Bytes → Nat
  | [] => 0
  | b :: s => b.toNat + 256 * leNat s

theorem length_packLE (k n : Nat) : (packLE k n).length = k := by
  induction k generalizing n with
  | zero => rfl
  | succ k ih => rw [packLE, List.length_cons, ih]

theorem leNat_packLE (k n : Nat) : leNat (packLE k n) = n % 256 ^ k := by
  induction k generalizing n with
  | zero => rw [packLE, leNat, Nat.pow_zero, Nat.mod_one]
  | succ k ih =>
    have hbyte : (UInt8.ofNat n).toNat = n % 256 := UInt8.toNat_ofNat'
    rw [packLE, leNat, ih, hbyte, Nat.pow_succ', Nat.mod_mul]

theorem take_packLE (j k n : Nat) : (packLE (j + k) n).take j = packLE j n := by
  induction j generalizing n with
  | zero => rfl
  | succ j ih => rw [Nat.add_right_comm, packLE, packLE, List.take_succ_cons, ih]

/-- `unpack` with one of `v`, `V` and `P`, which read `k` bytes; null for a shorter string. -/
def phpUnpack (k : Nat) (s : Bytes) : Option Nat :=
  if s.length < k then none else some (leNat (s.take k))

/-- `length_encoded_integer`, with `$start` as it leaves it. -/
def lengthEncodedInteger (data : Bytes) (start : Int) : Option Int × Int :=
  let first := phpOrd (phpSubstr data start (some 1))
  if first ≤ 250 then (some first, start + 1)
  else if first = 251 then (none, start + 1)
  else if first = 252 then
    ((phpUnpack 2 (phpSubstr data start (some 2))).map Int.ofNat, start + 2)
  else if first = 253 then
    ((phpUnpack 4 (phpSubstr data start (some 3) ++ [0])).map Int.ofNat, start + 3)
  -- `P` is read as a signed number
  else ((phpUnpack 8 (phpSubstr data start (some 8))).map fun n : Nat => (n : Int).bmod (2 ^ 64),
    start + 8)

/-- One of `$this->resultFields`. -/
structure Field where
  catalog : Bytes
  db : Bytes
  table : Bytes
  oriTable : Bytes
  column : Bytes
  oriColumn : Bytes
  charset : Option Nat
  length : Option Nat
  type : Nat
  flag : Option Nat
  decimals : Option Nat
  deriving DecidableEq, Repr

/-- `parse_field_data`. -/
def parseFieldData (result : Bytes) (start : Int) : Bytes × Int :=
  let len := phpOrd (phpSubstr result start (some 1))
  (phpSubstr result (start + 1) (some len), start + 1 + len)

/-- The field of `field_data_packet`. -/
def fieldDataPacket (result : Bytes) : Field :=
  let (catalog, start) := parseFieldData result 0
  let (db, start) := parseFieldData result start
  let (table, start) := parseFieldData result start
  let (oriTable, start) := parseFieldData result start
  let (column, start) := parseFieldData result start
  let (oriColumn, start) := parseFieldData result start
  let start := start + 1
  { catalog, db, table, oriTable, column, oriColumn
    charset := phpUnpack 2 (phpSubstr result start (some 2))
    length := phpUnpack 4 (phpSubstr result (start + 2) (some 4))
    type := phpOrd (phpSubstr result (start + 6) (some 1))
    flag := phpUnpack 2 (phpSubstr result (start + 7) (some 2))
    decimals := phpUnpack 2 (phpSubstr result (start + 9) (some 2)) }

/-- One of `$this->resultRows`. -/
abbrev Row := OrderedMap Bytes Bytes

/-- The loop of `row_data_packet` over the fields. A null length is the rest of the packet for
`substr` from PHP 8 on, and zero before. -/
def rowLoop (php8 : Bool) (data : Bytes) : List Field → Int → Row → Row
  | [], _, row => row
  | field :: fields, start, row =>
    let (len, start) := lengthEncodedInteger data start
    let value := phpSubstr data start (if php8 then len else some (len.getD 0))
    rowLoop php8 data fields (start + len.getD 0) (row.set field.column value)

/-- The row of `row_data_packet`. -/
def rowDataPacket (php8 : Bool) (fields : List Field) (data : Bytes) : Row :=
  rowLoop php8 data fields 0 .empty

/-- The fields of the mysql object that the reading functions use. -/
structure Reader where
  headerNum : Nat := 0
  headerCurr : Nat := 0
  resultState : Nat := 0
  resultFields : List Field := []
  resultRows : List Row := []

/-- A packet as it was read: the length that its header gives, null for a header that is too
short, and the data. -/
structure Packet where
  length : Option Nat
  data : Bytes
  deriving DecidableEq, Repr

/-- `$field_count` once the data has been read. -/
def Packet.fieldCount (p : Packet) : Nat := if p.length = some 1 then 1 else phpOrd p.data

/-- The end of an EOF packet, after the packets that it lets the client read. -/
def Reader.eof (r : Reader) : Reader :=
  if r.resultState = 201 then { r with resultState := 0 } else r

/-- What `read_packet` and `_parse_read_packet2` do with a packet, and whether they go on to the
next one. OK and error packets leave nothing behind. -/
def Reader.accept (php8 : Bool) (r : Reader) (p : Packet) : Reader × Bool :=
  if p.fieldCount = 0x00 then (r, false)
  else if p.fieldCount = 0xff then (r, false)
  else if p.fieldCount = 0xfe then (r, r.resultState = 2)
  else if p.fieldCount = 1 ∧ r.resultState = 0 then
    ({ r with headerNum := phpOrd p.data, resultState := 1 }, true)
  else if r.resultState = 1 then
    ({ r with
      resultFields := r.resultFields ++ [fieldDataPacket p.data]
      headerCurr := r.headerCurr + 1
      resultState := if r.headerCurr + 1 < r.headerNum then 1 else 2 }, true)
  else if r.resultState = 2 ∨ r.resultState = 201 then
    ({ r with
      resultState := 201
      resultRows := r.resultRows ++ [rowDataPacket php8 r.resultFields p.data] }, true)
  else (r, false)

/-- What they do when the packets after this one have been read. -/
def Reader.leave (r : Reader) (p : Packet) : Reader := if p.fieldCount = 0xfe then r.eof else r

end NgxPhp
