import NgxPhp.Mysql.Reading

/-!
# Replies that arrive in pieces

The client takes whatever a receive returns for what it has asked for. So `query` reads a reply as
if it had arrived at once when the first header comes in one piece, however long it takes, and all
that follows is there when it is asked for, up to the data of the last packet, of which one byte
is enough; and `query2` when the page that drains the socket is the end of the reply.
-/

namespace NgxPhp

/-! ## One receive -/

/-- The same receives, each of which returns all that it asks for. -/
def Wire.atOnce (w : Wire) : Wire := { w with answers := [] }

/-- A receive returns all that it asks for. -/
def Wire.Whole (w : Wire) (n : Nat) : Prop := (w.recv n).1 = (w.atOnce.recv n).1

instance Wire.decidableWhole (w : Wire) (n : Nat) : Decidable (w.Whole n) :=
  inferInstanceAs (Decidable (_ = _))

/-- What a whole receive leaves. -/
theorem Wire.Whole.atOnce {w : Wire} {n : Nat} (h : w.Whole n) :
    (w.recv n).2.atOnce = (w.atOnce.recv n).2 := by
  have htake : w.rest.take (w.granted n) = w.rest.take (w.size n) := h
  have hdrop : w.rest.drop (w.granted n) = w.rest.drop (w.size n) := by
    have happend : w.rest.take (w.size n) ++ w.rest.drop (w.granted n) =
        w.rest.take (w.size n) ++ w.rest.drop (w.size n) := by
      rw [← htake, List.take_append_drop, htake, List.take_append_drop]
    exact List.append_cancel_left happend
  have hroom : (if w.rest.take (w.granted n) = [] ∧ w.size n ≠ 0 then some (w.size n) else none) =
      if w.rest.take (w.size n) = [] ∧ w.size n ≠ 0 then some (w.size n) else none := by rw [htake]
  exact congrArg₂ (fun rest room => (Wire.mk rest room [])) hdrop hroom

/-- A receive takes its bytes from the front. -/
theorem Wire.recv_length (w : Wire) (n : Nat) :
    (w.recv n).1.length + (w.recv n).2.rest.length = w.rest.length := by
  simp only [Wire.recv, List.length_take, List.length_drop]
  omega

theorem Wire.granted_le (w : Wire) (n : Nat) : w.granted n ≤ w.size n := by
  unfold Wire.granted
  split
  · exact Nat.le_refl _
  · exact Nat.zero_le _
  · exact Nat.min_le_right ..

/-- A receive returns the front of what it asks for. -/
theorem Wire.recv_atOnce_take (w : Wire) (n : Nat) :
    (w.atOnce.recv n).1.take (w.granted n) = (w.recv n).1 := by
  show (w.rest.take (w.size n)).take (w.granted n) = _
  rw [List.take_take, Nat.min_eq_left (w.granted_le n)]
  rfl

theorem phpOrd_take {s : Bytes} {n : Nat} (h : s.take n ≠ []) : phpOrd (s.take n) = phpOrd s := by
  cases n with
  | zero => exact absurd List.take_zero h
  | succ n => cases s <;> rfl

/-! ## One packet -/

/-- A packet that ends the reading leaves the reader as it is, and so does any with the same first
byte. -/
theorem Reader.accept_of_stop {php8 : Bool} {r : Reader} {p q : Packet}
    (hfc : p.fieldCount = q.fieldCount) (hstop : (r.accept php8 p).2 = false) :
    r.accept php8 p = (r, false) ∧ r.accept php8 q = (r, false) := by
  unfold Reader.accept at hstop ⊢
  rw [hfc] at hstop ⊢
  split_ifs at hstop ⊢
  · exact ⟨rfl, rfl⟩
  · exact ⟨rfl, rfl⟩
  · exact ⟨Prod.ext rfl hstop, Prod.ext rfl hstop⟩
  · exact ⟨rfl, rfl⟩

/-- A packet after which the reading goes on has a length and is not empty. -/
theorem Reader.fieldCount_of_more {php8 : Bool} {r : Reader} {p : Packet}
    (hmore : (r.accept php8 p).2 = true) : p.fieldCount ≠ 0 := by
  intro h0
  rw [Reader.accept, if_pos h0] at hmore
  cases hmore

/-! ## The whole reply -/

/-- Behind a header: the data of a packet arrives whole and so does the next header, until a
packet ends the reading, of whose data something arrives. -/
def Wire.UncutFrom (php8 : Bool) : Nat → Reader → Bytes → Wire → Prop
  | 0, _, _, _ => True
  | fuel + 1, r, header, w =>
    let n := (headerLength header).getD 0
    let p : Packet :=
      { length := headerLength header, data := readData header (w.atOnce.recv n).1 }
    if (r.accept php8 p).2 then
      w.Whole n ∧ (w.recv n).2.Whole 4 ∧
        UncutFrom php8 fuel (r.accept php8 p).1 ((w.recv n).2.recv 4).1 ((w.recv n).2.recv 4).2
    else w.Whole n ∨ (w.recv n).1 ≠ []

instance Wire.decidableUncutFrom (php8 : Bool) :
    ∀ (fuel : Nat) (r : Reader) (header : Bytes) (w : Wire),
      Decidable (w.UncutFrom php8 fuel r header)
  | 0, _, _, _ => isTrue trivial
  | fuel + 1, r, header, w => by
    have := decidableUncutFrom php8 fuel
    unfold Wire.UncutFrom
    infer_instance

theorem readFrom_succ (php8 : Bool) (fuel : Nat) (r : Reader) (header : Bytes) (w : Wire) :
    readFrom php8 (fuel + 1) r header w =
      let n := (headerLength header).getD 0
      let p : Packet := { length := headerLength header, data := readData header (w.recv n).1 }
      if (r.accept php8 p).2 then
        (readFrom php8 fuel (r.accept php8 p).1 ((w.recv n).2.recv 4).1
          ((w.recv n).2.recv 4).2).map fun r => r.leave p
      else some ((r.accept php8 p).1.leave p) := rfl

/-- Something of the data shows its first byte. -/
theorem phpOrd_readData {header : Bytes} {w : Wire} {n : Nat}
    (h : w.Whole n ∨ (w.recv n).1 ≠ []) :
    phpOrd (readData header (w.recv n).1) = phpOrd (readData header (w.atOnce.recv n).1) := by
  rcases h with hwhole | hsome
  · rw [show (w.recv n).1 = (w.atOnce.recv n).1 from hwhole]
  · rw [← w.recv_atOnce_take n] at hsome ⊢
    have hfull : (w.atOnce.recv n).1 ≠ [] := by
      intro hnil
      exact hsome (by rw [hnil, List.take_nil])
    rw [readData, if_neg hsome, readData, if_neg hfull, phpOrd_take hsome]

/-- Behind a header, a reply that is not cut is read as if it had arrived at once. -/
theorem readFrom_of_uncut {php8 : Bool} {fuel : Nat} {r : Reader} {header : Bytes} {w : Wire}
    (h : w.UncutFrom php8 fuel r header) :
    readFrom php8 fuel r header w = readFrom php8 fuel r header w.atOnce := by
  induction fuel generalizing r header w with
  | zero => rfl
  | succ fuel ih =>
    unfold Wire.UncutFrom at h
    rw [readFrom_succ, readFrom_succ]
    generalize (headerLength header).getD 0 = n at h ⊢
    dsimp only at h ⊢
    split at h
    · next hmore =>
      obtain ⟨hdata, hheader, hrest⟩ := h
      have hheader' : ((w.recv n).2.recv 4).1 = ((w.atOnce.recv n).2.recv 4).1 := by
        rw [← hdata.atOnce]
        exact hheader
      have hrest' : ((w.recv n).2.recv 4).2.atOnce = ((w.atOnce.recv n).2.recv 4).2 := by
        rw [hheader.atOnce, hdata.atOnce]
      rw [show (w.recv n).1 = (w.atOnce.recv n).1 from hdata, if_pos hmore, if_pos hmore, ih hrest,
        hheader', hrest']
    · next hmore =>
      -- only the first byte of the last packet is looked at
      have hfc : Packet.fieldCount
            { length := headerLength header, data := readData header (w.atOnce.recv n).1 } =
          Packet.fieldCount
            { length := headerLength header, data := readData header (w.recv n).1 } := by
        unfold Packet.fieldCount
        rw [phpOrd_readData h]
      obtain ⟨hp, hq⟩ := Reader.accept_of_stop hfc (Bool.eq_false_iff.mpr hmore)
      rw [hp, hq, if_neg Bool.false_ne_true, if_neg Bool.false_ne_true]
      simp only [Reader.leave, hfc]

/-! ## The reading ends -/

/-- A packet after which the reading goes on has data, and it is that of the header or of the
receive after it. -/
theorem readData_of_more {php8 : Bool} {r : Reader} {header got : Bytes} {length : Option Nat}
    (hlength : header = [] → length = none)
    (hmore : (r.accept php8 { length, data := readData header got }).2 = true) :
    header ≠ [] ∨ got ≠ [] := by
  by_cases hheader : header = []
  · refine .inr fun hgot => Reader.fieldCount_of_more hmore ?_
    rw [hlength hheader, hheader, hgot]
    rfl
  · exact .inl hheader

/-- With more rounds than bytes, the reading comes to an end. -/
theorem readFrom_isSome (php8 : Bool) {fuel : Nat} (r : Reader) {header : Bytes} {w : Wire}
    (h : w.rest.length + (if header = [] then 0 else 1) < fuel) :
    (readFrom php8 fuel r header w).isSome = true := by
  induction fuel generalizing r header w with
  | zero => omega
  | succ fuel ih =>
    rw [readFrom_succ]
    generalize hn : (headerLength header).getD 0 = n
    dsimp only
    split
    · next hmore =>
      have hsome := readData_of_more (by rintro rfl; rfl) hmore
      rw [Option.isSome_map]
      refine ih _ ?_
      have hrest := w.recv_length n
      have hheader := (w.recv n).2.recv_length 4
      rcases hsome with hsome | hsome
      · rw [if_neg hsome] at h
        split
        · omega
        · next hnil =>
          have := List.length_pos_iff.mpr hnil
          omega
      · have := List.length_pos_iff.mpr hsome
        split
        · split at h <;> omega
        · next hnil =>
          have := List.length_pos_iff.mpr hnil
          split at h <;> omega
    · rfl

theorem parseReadPacket2_isSome (php8 : Bool) {fuel : Nat} (r : Reader) {rest : Bytes}
    (h : rest.length < fuel) : (parseReadPacket2 php8 fuel r rest).isSome = true := by
  induction fuel generalizing r rest with
  | zero => omega
  | succ fuel ih =>
    unfold parseReadPacket2
    dsimp only
    split
    · next hmore =>
      have hrest : rest ≠ [] := by
        rintro rfl
        exact Reader.fieldCount_of_more hmore (by decide)
      have hpos := List.length_pos_iff.mpr hrest
      rw [Option.isSome_map]
      refine ih _ ?_
      rw [List.length_drop, List.length_drop]
      omega
    · rfl

/-! ## Pages -/

/-- The pages that arrive until one drains the socket are the whole reply, and none of them is the
text `0`, which `empty` takes for nothing. When all that is left comes at once, its last page drains
the socket if it is not full. -/
def PagesWhole (size : Nat) : Bytes → List PageChunk → Prop
  | rest, [] => ¬ size + 1 ∣ rest.length ∧
      ∀ i < rest.length, (rest.drop (i * (size + 1))).take (size + 1) ≠ [48]
  | rest, a :: answers =>
    let received := Wire.recv { rest, answers := [a.chunk] } (size + 1)
    received.1 ≠ [48] ∧
      if a.drained && a.chunk.isSome then received.2.rest = []
      else PagesWhole size received.2.rest answers

instance decidablePagesWhole (size : Nat) :
    ∀ (rest : Bytes) (answers : List PageChunk), Decidable (PagesWhole size rest answers)
  | rest, [] => by
    unfold PagesWhole
    infer_instance
  | rest, a :: answers => by
    have := fun rest => decidablePagesWhole size rest answers
    unfold PagesWhole
    infer_instance

theorem pageData_of_ne {page : Bytes} (h : page ≠ [48]) : pageData page = page := by
  unfold pageData phpEmpty
  split
  · next he => simpa [h, eq_comm] using he
  · rfl

/-- The pages of a reply that does not end with a full one are the reply. -/
theorem fullPages_of_whole {size fuel : Nat} {rest : Bytes} (hfuel : rest.length ≤ fuel)
    (h : PagesWhole size rest []) : fullPages size fuel rest = some rest := by
  induction fuel generalizing rest with
  | zero =>
    rw [PagesWhole, Nat.le_zero.mp hfuel] at h
    exact absurd (Nat.dvd_zero _) h.1
  | succ fuel ih =>
    obtain ⟨hlast, hpages⟩ := h
    have hrest : rest ≠ [] := by
      rintro rfl
      exact hlast (Nat.dvd_zero _)
    have hpage : rest.take (size + 1) ≠ [48] := by
      simpa using hpages 0 (List.length_pos_iff.mpr hrest)
    rw [fullPages, if_neg hrest]
    split
    · next hshort =>
      rw [List.take_of_length_le (by omega)] at hpage
      rw [pageData_of_ne hpage]
    · next hfull =>
      have hsplit : rest.length = (rest.length - (size + 1)) + (size + 1) := by omega
      have hnext : PagesWhole size (rest.drop (size + 1)) [] := by
        constructor
        · rw [List.length_drop]
          intro hdvd
          apply hlast
          rw [hsplit]
          exact Nat.dvd_add hdvd (Nat.dvd_refl _)
        · intro i hi
          rw [List.length_drop] at hi
          have hskip : size + 1 + i * (size + 1) = (i + 1) * (size + 1) := by
            rw [Nat.succ_mul, Nat.add_comm]
          rw [List.drop_drop, hskip]
          exact hpages (i + 1) (by omega)
      have hlen : (rest.drop (size + 1)).length ≤ fuel := by
        rw [List.length_drop]
        omega
      rw [ih hlen hnext, Option.map_some, pageData_of_ne hpage, List.take_append_drop]

/-- What `read_packet2` collects is then the reply. -/
theorem readPages_of_whole {size : Nat} {rest : Bytes} {answers : List PageChunk}
    (h : PagesWhole size rest answers) : readPages size rest answers = some rest := by
  induction answers generalizing rest with
  | nil => exact fullPages_of_whole (Nat.le_refl _) h
  | cons a answers ih =>
    obtain ⟨hpage, hrest⟩ := h
    have hsplit : (Wire.recv { rest, answers := [a.chunk] } (size + 1)).1 ++
        (Wire.recv { rest, answers := [a.chunk] } (size + 1)).2.rest = rest :=
      List.take_append_drop ..
    unfold readPages
    dsimp only
    rw [pageData_of_ne hpage]
    split
    · next hdrained =>
      rw [if_pos hdrained] at hrest
      rw [hrest, List.append_nil] at hsplit
      exact congrArg some hsplit
    · next hmore =>
      rw [if_neg hmore] at hrest
      rw [ih hrest, Option.map_some, hsplit]

/-! ## Queries -/

/-- The first header comes in one piece after any number of receives that get nothing, and nothing
is cut behind it. -/
def Uncut (php8 : Bool) (reply : Bytes) (answers : List Chunk) : Prop :=
  let w : Wire := { rest := reply, answers := answers.dropWhile (·.isNone) }
  w.Whole 4 ∧ (w.recv 4).2.UncutFrom php8 (reply.length + 2) {} (w.recv 4).1

instance decidableUncut (php8 : Bool) (reply : Bytes) (answers : List Chunk) :
    Decidable (Uncut php8 reply answers) :=
  inferInstanceAs (Decidable (_ ∧ _))

/-- Receives that get nothing are repeated. -/
theorem awaitHeader_dropWhile (rest : Bytes) (answers : List Chunk) :
    awaitHeader rest answers = awaitHeader rest (answers.dropWhile (·.isNone)) := by
  induction answers with
  | nil => rfl
  | cons a answers ih =>
    cases a with
    | none => exact ih
    | some k => rfl

/-- A header that comes in one piece is taken. -/
theorem awaitHeader_of_whole {rest : Bytes} {answers : List Chunk} (hrest : 4 ≤ rest.length)
    (h : Wire.Whole { rest, answers } 4) :
    awaitHeader rest answers = some (rest.take 4, (Wire.recv { rest, answers } 4).2) := by
  have hsome : phpEmpty (rest.take 4) = false := by
    have hlen : (rest.take 4).length = 4 := by simp [hrest]
    unfold phpEmpty
    rw [Bool.eq_false_iff]
    intro hempty
    rcases (by simpa using hempty : rest.take 4 = [] ∨ rest.take 4 = [48]) with he | he
    · simp [he] at hlen
    · simp [he] at hlen
  cases answers with
  | nil =>
    rw [awaitHeader]
    exact if_neg (Bool.eq_false_iff.mp hsome)
  | cons a answers =>
    rw [awaitHeader]
    dsimp only
    rw [show (Wire.recv { rest, answers := a :: answers } 4).1 = rest.take 4 from h]
    exact if_neg (by simp [hsome])

/-- `query` reads a reply that is not cut as if it had arrived at once. -/
theorem mysqlQuery_of_uncut {php8 : Bool} {reply : Bytes} (hreply : 4 ≤ reply.length)
    {answers : List Chunk} (h : Uncut php8 reply answers) :
    mysqlQuery php8 reply answers = mysqlQuery php8 reply [] := by
  obtain ⟨hheader, hrest⟩ := h
  have hfull : awaitHeader reply [] = some (reply.take 4, (Wire.recv { rest := reply } 4).2) :=
    awaitHeader_of_whole hreply rfl
  rw [show (Wire.recv _ 4).1 = reply.take 4 from hheader] at hrest
  unfold mysqlQuery readPacket
  dsimp only
  rw [awaitHeader_dropWhile, awaitHeader_of_whole hreply hheader, hfull]
  dsimp only
  rw [readFrom_of_uncut hrest, hheader.atOnce]
  rfl

/-- `query` reads a reply that arrives at once to the end. -/
theorem mysqlQuery_isSome (php8 : Bool) {reply : Bytes} (hreply : 4 ≤ reply.length) :
    (mysqlQuery php8 reply []).isSome = true := by
  have hfull : awaitHeader reply [] = some (reply.take 4, (Wire.recv { rest := reply } 4).2) :=
    awaitHeader_of_whole hreply rfl
  have hlen : (reply.take 4).length + (Wire.recv { rest := reply } 4).2.rest.length =
      reply.length := Wire.recv_length { rest := reply } 4
  rw [List.length_take, Nat.min_eq_left hreply] at hlen
  unfold mysqlQuery readPacket
  dsimp only
  rw [hfull]
  refine readFrom_isSome php8 {} ?_
  split <;> omega

/-- A reply that is not cut up is decoded as if it had arrived at once: by `query` when every
receive up to the data of the last packet returns all that it asks for, apart from the first one,
which may have to wait; by `query2` when the page that drains the socket is the last of the
reply. -/
theorem mysql_decoding_of_uncut (php8 : Bool) (size : Nat) {reply : Bytes}
    (hreply : 4 ≤ reply.length) {answers : List Chunk} (hanswers : Uncut php8 reply answers)
    {pages : List PageChunk} (hpages : PagesWhole size reply pages)
    (hfull : PagesWhole size reply []) :
    (∃ r, mysqlQuery php8 reply [] = some r ∧ mysqlQuery php8 reply answers = some r) ∧
      ∃ r, mysqlQuery2 php8 size reply [] = some r ∧
        mysqlQuery2 php8 size reply pages = some r := by
  constructor
  · obtain ⟨r, hr⟩ := Option.isSome_iff_exists.mp (mysqlQuery_isSome php8 hreply)
    exact ⟨r, hr, (mysqlQuery_of_uncut hreply hanswers).trans hr⟩
  · have hparse : (parseReadPacket2 php8 (reply.length + 2) {} reply).isSome = true :=
      parseReadPacket2_isSome php8 {} (by omega)
    obtain ⟨r, hr⟩ := Option.isSome_iff_exists.mp hparse
    unfold mysqlQuery2 readPacket2
    rw [readPages_of_whole hpages, readPages_of_whole hfull]
    exact ⟨r, hr, hr⟩

/-- A reply with the column `a` and one row with the value `1`. -/
def oneRowReply : Bytes :=
  writePacket [1] 1 1 ++
    writePacket ([3, 100, 101, 102, 0, 0, 0, 1, 97, 0, 12, 63, 0, 1, 0, 0, 0, 8, 129, 0, 0, 0, 0])
      23 2 ++
    writePacket [0xfe, 0, 0, 2, 0] 5 3 ++ writePacket [1, 49] 2 4 ++
    writePacket [0xfe, 0, 0, 2, 0] 5 5

/-- The first header comes late and only one byte of the last packet; the pages come one by one. -/
theorem mysql_decoding_oneRow :
    (∃ r, mysqlQuery true oneRowReply [] = some r ∧ mysqlQuery true oneRowReply
        [none, none, some 3, some 0, some 3, some 22, some 3, some 9, some 9, some 9, some 9,
          some 0] = some r) ∧
      ∃ r, mysqlQuery2 true 15 oneRowReply [] = some r ∧ mysqlQuery2 true 15 oneRowReply
        [⟨none, true⟩, ⟨some 15, false⟩, ⟨some 7, false⟩, ⟨some 15, false⟩, ⟨some 15, true⟩] =
          some r :=
  mysql_decoding_of_uncut true 15 (by decide) (by decide +kernel) (by decide +kernel)
    (by decide +kernel)

/-- With a header that comes in two pieces `query` has no rows, and with a page that drains the
socket after the first header `query2` has none. -/
theorem mysql_decoding_cut :
    (mysqlQuery true oneRowReply []).map (·.resultRows.length) = some 1 ∧
      (mysqlQuery true oneRowReply [some 3, some 0, some 1]).map (·.resultRows.length) = some 0 ∧
      (mysqlQuery2 true 15 oneRowReply []).map (·.resultRows.length) = some 1 ∧
      (mysqlQuery2 true 15 oneRowReply [⟨some 4, true⟩]).map (·.resultRows.length) = some 0 := by
  decide +kernel

end NgxPhp
