import NgxPhp.Mysql.Framing
import NgxPhp.Mysql.Segments

/-!
# Packets one after the other

Both readers take packets off the front of what has arrived, hand each of them on, and go on or
stop as they are told. What they have collected in the end, and what they leave, depends on the
packets only.
-/

namespace NgxPhp

/-- Packets with consecutive numbers. -/
def packets : Int → List Bytes → Bytes
  | _, [] => []
  | n, d :: ds => writePacket d d.length n ++ packets (n + 1) ds

/-- Packets follow each other with consecutive numbers. -/
theorem packets_append (n : Int) (ds es : List Bytes) :
    packets n (ds ++ es) = packets n ds ++ packets (n + ds.length) es := by
  induction ds generalizing n with
  | nil => rw [List.length_nil, Int.natCast_zero, Int.add_zero]; rfl
  | cons d ds ih =>
    rw [List.cons_append, packets, packets, ih, List.append_assoc, List.length_cons,
      Int.natCast_succ, Int.add_assoc, Int.add_comm 1]

/-- A packet has four bytes besides its data. -/
theorem length_writePacket (data : Bytes) (len : Nat) (chr : Int) :
    (writePacket data len chr).length = data.length + 4 := by
  rw [writePacket, List.length_append, length_packLE, List.length_cons]
  omega

/-- A reply has at least a byte for each packet. -/
theorem length_packets (n : Int) (ds : List Bytes) : ds.length ≤ (packets n ds).length := by
  induction ds generalizing n with
  | nil => exact Nat.zero_le _
  | cons d ds ih =>
    have := ih (n + 1)
    rw [packets, List.length_append, length_writePacket, List.length_cons]
    omega

/-- A packet that has been read whole. -/
def Packet.whole (d : Bytes) : Packet := { length := some d.length, data := d }

/-- A reader of packets: what it gives for fuel, the object and what there is to read are the rows
of the object in the end and what has not been read. -/
structure ReadsPackets (php8 : Bool) (read : Nat → Reader → Bytes → Option (List Row × Bytes)) :
    Prop where
  /-- A packet is accepted, and the reading goes on behind it or stops. -/
  packet : ∀ fuel r d n rest, d ≠ [] → d.length < 2 ^ 16 →
    read (fuel + 1) r (writePacket d d.length n ++ rest) =
      if (r.accept php8 (.whole d)).2 then read fuel (r.accept php8 (.whole d)).1 rest
      else some ((r.accept php8 (.whole d)).1.resultRows, rest)
  /-- Where there is nothing it finds an OK packet that is empty. -/
  nothing : ∀ fuel r, read (fuel + 1) r [] = some (r.resultRows, [])
  /-- Where there is something it reads some of it. -/
  progress : ∀ fuel r rest x, rest ≠ [] → read fuel r rest = some x → x.2.length < rest.length

/-- The rows stay when the reading is left. -/
theorem Reader.leave_resultRows (r : Reader) (p : Packet) :
    (r.leave p).resultRows = r.resultRows := by
  unfold Reader.leave Reader.eof
  split
  · split <;> rfl
  · rfl

/-! ## `read_packet` -/

/-- `readFrom`, with what it leaves. -/
def readFromLeft (php8 : Bool) : Nat → Reader → Bytes → Wire → Option (Reader × Bytes)
  | 0, _, _, _ => none
  | fuel + 1, r, header, w =>
    let length := headerLength header
    let (got, w) := w.recv (length.getD 0)
    let data := readData header got
    let (r, more) := r.accept php8 { length, data }
    if more then
      let (header, w) := w.recv 4
      (readFromLeft php8 fuel r header w).map fun x => (x.1.leave { length, data }, x.2)
    else some (r.leave { length, data }, w.rest)

/-- `readFrom` is what it reads without what it leaves. -/
theorem readFromLeft_fst (php8 : Bool) (fuel : Nat) (r : Reader) (header : Bytes) (w : Wire) :
    (readFromLeft php8 fuel r header w).map Prod.fst = readFrom php8 fuel r header w := by
  induction fuel generalizing r header w with
  | zero => rfl
  | succ fuel ih =>
    unfold readFromLeft readFrom
    dsimp only
    split
    · rw [Option.map_map, ← ih, Option.map_map]
      rfl
    · rfl

/-- What is left is at most what there was. -/
theorem readFromLeft_le {php8 : Bool} {fuel : Nat} {r : Reader} {header : Bytes} {w : Wire}
    {x : Reader × Bytes} (h : readFromLeft php8 fuel r header w = some x) :
    x.2.length ≤ w.rest.length := by
  induction fuel generalizing r header w x with
  | zero => cases h
  | succ fuel ih =>
    have hdata := w.recv_length ((headerLength header).getD 0)
    have hheader := (w.recv ((headerLength header).getD 0)).2.recv_length 4
    unfold readFromLeft at h
    dsimp only at h
    split at h
    · obtain ⟨y, hy, rfl⟩ := Option.map_eq_some_iff.mp h
      have := ih hy
      dsimp only
      omega
    · cases h
      dsimp only
      omega

/-- The rows that `read_packet` has in the end when all there is to read has arrived, and what it
leaves. -/
def receivedRows (php8 : Bool) (fuel : Nat) (r : Reader) (rest : Bytes) :
    Option (List Row × Bytes) :=
  let (header, w) := Wire.recv { rest } 4
  (readFromLeft php8 fuel r header w).map fun x => (x.1.resultRows, x.2)

/-- A receive of what has arrived, and is not empty, gets it. -/
theorem Wire.recv_append {got rest : Bytes} (h : got ≠ []) :
    Wire.recv { rest := got ++ rest } got.length = (got, { rest }) := by
  have hgot : ¬ (got = [] ∧ got.length ≠ 0) := fun hn => h hn.1
  simp only [Wire.recv, Wire.granted, Wire.size, List.head?_nil, Option.getD_none, List.take_left,
    List.drop_left, if_neg hgot, List.tail_nil]

/-- Behind the header of a packet the reading takes its data and the next header. -/
theorem readFromLeft_whole {php8 : Bool} {fuel : Nat} {r : Reader} {header d rest : Bytes}
    (hd : d ≠ []) (hlength : headerLength header = some d.length) :
    readFromLeft php8 (fuel + 1) r header { rest := d ++ rest } =
      if (r.accept php8 (.whole d)).2 then
        (readFromLeft php8 fuel (r.accept php8 (.whole d)).1 (Wire.recv { rest } 4).1
          (Wire.recv { rest } 4).2).map fun x => (x.1.leave (.whole d), x.2)
      else some ((r.accept php8 (.whole d)).1.leave (.whole d), rest) := by
  rw [readFromLeft]
  dsimp only
  rw [hlength, Option.getD_some, Wire.recv_append hd, readData, if_neg hd]
  rfl

/-- `read_packet` reads packets. -/
theorem receivedRows_reads (php8 : Bool) : ReadsPackets php8 (receivedRows php8) where
  packet fuel r d n rest hd hlen := by
    have hheader : headerLength (packLE 3 d.length ++ [phpChr n]) = some d.length := by
      rw [headerLength_packLE, Nat.mod_eq_of_lt hlen]
    have hrecv : Wire.recv { rest := writePacket d d.length n ++ rest } 4 =
        (packLE 3 d.length ++ [phpChr n], { rest := d ++ rest }) := by
      rw [writePacket_append, ← length_header d.length (phpChr n)]
      exact Wire.recv_append (by simp)
    rw [receivedRows, hrecv]
    dsimp only
    rw [readFromLeft_whole hd hheader]
    split
    · rw [Option.map_map]
      exact congrArg₂ Option.map (funext fun x => by simp [Reader.leave_resultRows]) rfl
    · simp [Reader.leave_resultRows]
  nothing fuel r := rfl
  progress fuel r rest x hrest h := by
    obtain ⟨y, hy, rfl⟩ := Option.map_eq_some_iff.mp h
    have hle : y.2.length ≤ (rest.drop 4).length := readFromLeft_le hy
    have hpos := List.length_pos_iff.mpr hrest
    rw [List.length_drop] at hle
    dsimp only
    omega

/-! ## `_parse_read_packet2` -/

/-- `parseReadPacket2`, with what it leaves. -/
def parseReadPacket2Left (php8 : Bool) : Nat → Reader → Bytes → Option (Reader × Bytes)
  | 0, _, _ => none
  | fuel + 1, r, rest =>
    let length := headerLength ((rest.take 4 ++ List.replicate 4 0).take 4)
    let data := (rest.drop 4).take (length.getD 0)
    let (r, more) := r.accept php8 { length, data }
    if more then
      (parseReadPacket2Left php8 fuel r ((rest.drop 4).drop (length.getD 0))).map fun x =>
        (x.1.leave { length, data }, x.2)
    else some (r.leave { length, data }, (rest.drop 4).drop (length.getD 0))

/-- `parseReadPacket2` is what it parses without what it leaves. -/
theorem parseReadPacket2Left_fst (php8 : Bool) (fuel : Nat) (r : Reader) (rest : Bytes) :
    (parseReadPacket2Left php8 fuel r rest).map Prod.fst = parseReadPacket2 php8 fuel r rest := by
  induction fuel generalizing r rest with
  | zero => rfl
  | succ fuel ih =>
    unfold parseReadPacket2Left parseReadPacket2
    dsimp only
    split
    · rw [Option.map_map, ← ih, Option.map_map]
      rfl
    · rfl

/-- What is left is less than what there was by a header. -/
theorem parseReadPacket2Left_le {php8 : Bool} {fuel : Nat} {r : Reader} {rest : Bytes}
    {x : Reader × Bytes} (h : parseReadPacket2Left php8 fuel r rest = some x) :
    x.2.length ≤ rest.length - 4 := by
  induction fuel generalizing r rest x with
  | zero => cases h
  | succ fuel ih =>
    unfold parseReadPacket2Left at h
    dsimp only at h
    split at h
    · obtain ⟨y, hy, rfl⟩ := Option.map_eq_some_iff.mp h
      have := ih hy
      simp only [List.length_drop] at this
      dsimp only
      omega
    · cases h
      simp only [List.length_drop]
      omega

/-- The rows that `_parse_read_packet2` has in the end, and what it leaves. -/
def parsedRows (php8 : Bool) (fuel : Nat) (r : Reader) (rest : Bytes) :
    Option (List Row × Bytes) :=
  (parseReadPacket2Left php8 fuel r rest).map fun x => (x.1.resultRows, x.2)

/-- It takes a packet off the front. -/
theorem parseReadPacket2Left_whole {php8 : Bool} {fuel : Nat} {r : Reader} {d rest : Bytes}
    (n : Int) (hlen : d.length < 2 ^ 16) :
    parseReadPacket2Left php8 (fuel + 1) r (writePacket d d.length n ++ rest) =
      if (r.accept php8 (.whole d)).2 then
        (parseReadPacket2Left php8 fuel (r.accept php8 (.whole d)).1 rest).map fun x =>
          (x.1.leave (.whole d), x.2)
      else some ((r.accept php8 (.whole d)).1.leave (.whole d), rest) := by
  have hlength : headerLength (((writePacket d d.length n ++ rest).take 4 ++
      List.replicate 4 0).take 4) = some d.length := by
    have hparsed := parsedLength_writePacket d d.length n rest
    rwa [Nat.mod_eq_of_lt hlen] at hparsed
  rw [parseReadPacket2Left]
  dsimp only
  rw [hlength, Option.getD_some, drop_writePacket, List.take_left, List.drop_left]
  rfl

/-- `_parse_read_packet2` reads packets. -/
theorem parsedRows_reads (php8 : Bool) : ReadsPackets php8 (parsedRows php8) where
  packet fuel r d n rest _ hlen := by
    rw [parsedRows, parseReadPacket2Left_whole n hlen]
    split
    · rw [Option.map_map]
      exact congrArg₂ Option.map (funext fun x => by simp [Reader.leave_resultRows]) rfl
    · simp [Reader.leave_resultRows]
  nothing fuel r := rfl
  progress fuel r rest x hrest h := by
    obtain ⟨y, hy, rfl⟩ := Option.map_eq_some_iff.mp h
    have hle := parseReadPacket2Left_le hy
    have hpos := List.length_pos_iff.mpr hrest
    dsimp only
    omega

/-! ## Queries -/

/-- `query` on what has arrived: the object, and what is left. -/
def mysqlQueryLeft (php8 : Bool) (arrived : Bytes) : Option (Reader × Bytes) :=
  match awaitHeader arrived [] with
  | none => none
  | some (header, w) => readFromLeft php8 (arrived.length + 2) {} header w

/-- `query` is what it reads without what it leaves. -/
theorem mysqlQueryLeft_fst (php8 : Bool) (arrived : Bytes) :
    (mysqlQueryLeft php8 arrived).map Prod.fst = mysqlQuery php8 arrived [] := by
  unfold mysqlQueryLeft mysqlQuery readPacket
  dsimp only
  cases awaitHeader arrived [] with
  | none => rfl
  | some x => exact readFromLeft_fst ..

/-- What `query` has of a reply are the rows that `read_packet` reads. -/
theorem mysqlQueryLeft_rows (php8 : Bool) {arrived : Bytes} (h : 4 ≤ arrived.length) :
    (mysqlQueryLeft php8 arrived).map (fun x => (x.1.resultRows, x.2)) =
      receivedRows php8 (arrived.length + 2) {} arrived := by
  rw [mysqlQueryLeft, awaitHeader_of_whole h rfl]
  rfl

/-- `query2` on pages of `size + 1` bytes: the object, and what is left of them. -/
def mysqlQuery2Left (php8 : Bool) (size : Nat) (arrived : Bytes) : Option (Reader × Bytes) :=
  (readPages size arrived []).bind (parseReadPacket2Left php8 (arrived.length + 2) {})

/-- `query2` is what it reads without what it leaves. -/
theorem mysqlQuery2Left_fst (php8 : Bool) (size : Nat) (arrived : Bytes) :
    (mysqlQuery2Left php8 size arrived).map Prod.fst = mysqlQuery2 php8 size arrived [] := by
  unfold mysqlQuery2Left mysqlQuery2 readPacket2
  cases readPages size arrived [] with
  | none => rfl
  | some data => exact parseReadPacket2Left_fst ..

end NgxPhp
