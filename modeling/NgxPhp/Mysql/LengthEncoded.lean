import NgxPhp.Mysql.Packet

/-!
# Values with their length in front

A length below 251 is one byte. For a longer one `length_encoded_integer` reads the number from the
marker on, which it does not step over; and for a null length `substr` has no null to return. So a
list of values is read back when all of them are strings of at most 250 bytes, and no list with
another value is: once the cursor is behind, it falls behind further with every value.
-/

namespace NgxPhp

/-- The length of a string in front of it. -/
def encodeLength (n : Nat) : Bytes :=
  if n ≤ 250 then [UInt8.ofNat n]
  else if n < 2 ^ 16 then 252 :: packLE 2 n
  else 253 :: packLE 3 n

/-- A value in the length-encoded form. -/
def encodeValue : Option Bytes → Bytes
  | none => [251]
  | some v => encodeLength v.length ++ v

/-- Values one after the other. -/
def encodeValues (vs : List (Option Bytes)) : Bytes := vs.flatMap encodeValue

theorem encodeValues_cons (v : Option Bytes) (vs : List (Option Bytes)) :
    encodeValues (v :: vs) = encodeValue v ++ encodeValues vs := rfl

/-- What the loop of `row_data_packet` does for a field: the value at `$start`, and `$start`
behind it. -/
def readValue (php8 : Bool) (data : Bytes) (start : Int) : Bytes × Int :=
  let (len, start) := lengthEncodedInteger data start
  (phpSubstr data start (if php8 then len else some (len.getD 0)), start + len.getD 0)

theorem rowLoop_cons (php8 : Bool) (data : Bytes) (field : Field) (fields : List Field)
    (start : Int) (row : Row) :
    rowLoop php8 data (field :: fields) start row =
      rowLoop php8 data fields (readValue php8 data start).2
        (row.set field.column (readValue php8 data start).1) := rfl

/-- The values that the loop reads in this many rounds, and `$start` behind them. -/
def readValues (php8 : Bool) (data : Bytes) : Nat → Int → List Bytes × Int
  | 0, start => ([], start)
  | n + 1, start =>
    let (v, start) := readValue php8 data start
    let (vs, start) := readValues php8 data n start
    (v :: vs, start)

/-- The values are read back from their encoding and the cursor is at its end. -/
def ReadBack (php8 : Bool) (vs : List (Option Bytes)) : Prop :=
  (readValues php8 (encodeValues vs) vs.length 0).1.map some = vs ∧
    (readValues php8 (encodeValues vs) vs.length 0).2 = (encodeValues vs).length

instance (php8 : Bool) (vs : List (Option Bytes)) : Decidable (ReadBack php8 vs) :=
  inferInstanceAs (Decidable (_ ∧ _))

/-! ## The length at a position -/

section Position

variable {php8 : Bool} {data : Bytes} {p : Nat}

/-- The byte at the cursor is the first of what is left. -/
theorem phpOrd_at (data : Bytes) (p : Nat) :
    phpOrd (phpSubstr data p (some 1)) = phpOrd (data.drop p) := by
  rw [show (1 : Int) = ((1 : Nat) : Int) from rfl, phpSubstr_natCast]
  cases data.drop p <;> rfl

/-- A length up to 250 is its own byte. -/
theorem lengthEncodedInteger_of_short {n : Nat} {t : Bytes}
    (hdata : data.drop p = UInt8.ofNat n :: t) (hn : n ≤ 250) :
    lengthEncodedInteger data p = (some (n : Int), ((p + 1 : Nat) : Int)) := by
  have hfirst : phpOrd (phpSubstr data p (some 1)) = n := by
    rw [phpOrd_at, hdata]
    exact UInt8.toNat_ofNat_of_lt' (Nat.lt_of_le_of_lt hn (by decide))
  simp only [lengthEncodedInteger, hfirst, if_pos hn]
  rfl

/-- Behind the end every length is zero, and the cursor moves on. -/
theorem lengthEncodedInteger_of_end (hp : data.length ≤ p) :
    lengthEncodedInteger data p = (some 0, ((p + 1 : Nat) : Int)) := by
  have hfirst : phpOrd (phpSubstr data p (some 1)) = 0 := by
    rw [phpOrd_at, List.drop_eq_nil_of_le hp]
    rfl
  simp only [lengthEncodedInteger, hfirst]
  rfl

/-- What is too short cannot be unpacked. -/
theorem phpUnpack_take (k : Nat) (s : Bytes) :
    phpUnpack k (s.take k) = if s.length < k then none else some (leNat (s.take k)) := by
  rw [phpUnpack, List.length_take, List.take_take, Nat.min_self]
  exact if_congr (by omega) rfl rfl

/-- A zero byte on top changes no number. -/
theorem leNat_append_zero (s : Bytes) : leNat (s ++ [0]) = leNat s := by
  induction s with
  | nil => rfl
  | cons b s ih => rw [List.cons_append, leNat, leNat, ih]

/-- A number with a zero byte on top is unpacked alike. -/
theorem phpUnpack_take_zero (k : Nat) (s : Bytes) :
    phpUnpack (k + 1) (s.take k ++ [0]) =
      if s.length < k then none else some (leNat (s.take k)) := by
  have hlen : (s.take k ++ [0]).length = min k s.length + 1 := by
    rw [List.length_append, List.length_take]
    rfl
  have hle : (s.take k ++ [0]).length ≤ k + 1 := by omega
  rw [phpUnpack, hlen, List.take_of_length_le hle, leNat_append_zero]
  exact if_congr (by omega) rfl rfl

/-- The marker in front of a length of `w` bytes. -/
def marker (w : Nat) : UInt8 := UInt8.ofNat (250 + w)

/-- The number behind a marker is read from the marker on. -/
theorem lengthEncodedInteger_of_marker {w : Nat} {t : Bytes} (hw : w = 2 ∨ w = 3)
    (hdata : data.drop p = marker w :: t) :
    lengthEncodedInteger data p =
      (if (data.drop p).length < w then none else some (leNat ((data.drop p).take w) : Int),
        ((p + w : Nat) : Int)) := by
  rcases hw with rfl | rfl
  · have hfirst : phpOrd (phpSubstr data p (some 1)) = 252 := by
      rw [phpOrd_at, hdata]
      rfl
    have hread : lengthEncodedInteger data p =
        ((phpUnpack 2 (phpSubstr data p (some 2))).map Int.ofNat, (p : Int) + 2) := by
      simp [lengthEncodedInteger, hfirst]
    have htwo : phpSubstr data p (some 2) = (data.drop p).take 2 := phpSubstr_natCast data p 2
    rw [hread, htwo, phpUnpack_take]
    split <;> rfl
  · have hfirst : phpOrd (phpSubstr data p (some 1)) = 253 := by
      rw [phpOrd_at, hdata]
      rfl
    have hread : lengthEncodedInteger data p =
        ((phpUnpack 4 (phpSubstr data p (some 3) ++ [0])).map Int.ofNat, (p : Int) + 3) := by
      simp [lengthEncodedInteger, hfirst]
    have hthree : phpSubstr data p (some 3) = (data.drop p).take 3 := phpSubstr_natCast data p 3
    rw [hread, hthree, phpUnpack_take_zero]
    split <;> rfl

/-- Behind a part that has been read is what follows it. -/
theorem drop_of_append {a t : Bytes} (hdata : data.drop p = a ++ t) :
    data.drop (p + a.length) = t := by
  rw [← List.drop_drop, hdata, List.drop_left]

end Position

/-! ## Strings of at most 250 bytes -/

section Short

variable {php8 : Bool} {data : Bytes} {p : Nat}

/-- A value of at most 250 bytes has its length in one byte. -/
theorem encodeValue_of_short {v : Bytes} (hv : v.length < 251) :
    encodeValue (some v) = UInt8.ofNat v.length :: v := by
  rw [encodeValue, encodeLength, if_pos (by omega)]
  rfl

/-- A value of at most 250 bytes is read back. -/
theorem readValue_of_short {v t : Bytes} (hv : v.length < 251)
    (hdata : data.drop p = encodeValue (some v) ++ t) :
    readValue php8 data p = (v, ((p + (encodeValue (some v)).length : Nat) : Int)) := by
  rw [encodeValue_of_short hv] at hdata ⊢
  have hlen := lengthEncodedInteger_of_short hdata (by omega)
  have htail : data.drop (p + 1) = v ++ t := drop_of_append (a := [_]) hdata
  have hvalue : phpSubstr data ((p + 1 : Nat) : Int) (some (v.length : Int)) = v := by
    rw [phpSubstr_natCast, htail, List.take_left]
  rw [List.length_cons]
  simp only [readValue, hlen, Option.getD_some, ite_self, hvalue]
  exact Prod.ext rfl (by push_cast; omega)

/-- Values of at most 250 bytes are read back one after the other. -/
theorem readValues_of_short {us : List Bytes} {t : Bytes} (hus : ∀ u ∈ us, u.length < 251)
    (hdata : data.drop p = encodeValues (us.map some) ++ t) :
    readValues php8 data us.length p =
      (us, ((p + (encodeValues (us.map some)).length : Nat) : Int)) := by
  induction us generalizing p with
  | nil => rfl
  | cons u us ih =>
    rw [List.forall_mem_cons] at hus
    rw [List.map_cons, encodeValues_cons, List.append_assoc] at hdata
    rw [List.length_cons, readValues, readValue_of_short hus.1 hdata]
    dsimp only
    rw [ih hus.2 (drop_of_append hdata), List.map_cons, encodeValues_cons, List.length_append,
      Nat.add_assoc]

end Short

/-! ## Behind by some markers -/

section Behind

variable {php8 : Bool} {data : Bytes} {p : Nat}

/-- A reader at the end never gets back. -/
theorem readValues_of_end (n : Nat) {start : Int} (hstart : data.length ≤ start) :
    start ≤ (readValues php8 data n start).2 := by
  induction n generalizing start with
  | zero => exact Int.le_refl _
  | succ n ih =>
    obtain ⟨p, rfl⟩ := Int.eq_ofNat_of_zero_le (show 0 ≤ start by omega)
    have hnext : (readValue php8 data p).2 = ((p + 1 : Nat) : Int) := by
      simp only [readValue, lengthEncodedInteger_of_end (Int.ofNat_le.mp hstart)]
      exact Int.add_zero _
    have hle : ((p + 1 : Nat) : Int) ≤ (readValues php8 data n ((p + 1 : Nat) : Int)).2 :=
      ih (by omega)
    rw [readValues]
    dsimp only
    rw [hnext]
    omega

/-- So one that ends at the end has not been behind it. -/
theorem le_of_readValues_end {n : Nat} {start : Int}
    (hend : (readValues php8 data n start).2 = data.length) : start ≤ data.length := by
  by_contra hlt
  have hle : start ≤ (readValues php8 data n start).2 :=
    readValues_of_end n (Int.le_of_lt (Int.not_le.mp hlt))
  rw [hend] at hle
  exact hlt hle

/-- The reader takes the length to be the number that starts with the marker. -/
theorem readValue_of_marker {w : Nat} {t : Bytes} (hw : w = 2 ∨ w = 3)
    (hdata : data.drop p = marker w :: t) (hlen : w ≤ (data.drop p).length) :
    readValue php8 data p =
      ((data.drop (p + w)).take (leNat ((data.drop p).take w)),
        ((p + w + leNat ((data.drop p).take w) : Nat) : Int)) := by
  simp only [readValue, lengthEncodedInteger_of_marker hw hdata, if_neg (Nat.not_lt.mpr hlen),
    Option.getD_some, ite_self]
  rw [phpSubstr_natCast]
  exact Prod.ext rfl (by push_cast; omega)

/-- Behind a marker with too few bytes the cursor is at the end. -/
theorem readValue_of_marker_short {w : Nat} {t : Bytes} (hw : w = 2 ∨ w = 3)
    (hdata : data.drop p = marker w :: t) (hlen : (data.drop p).length < w) :
    (readValue php8 data p).2 = ((p + w : Nat) : Int) := by
  simp only [readValue, lengthEncodedInteger_of_marker hw hdata, if_pos hlen]
  exact Int.add_zero _

/-- A length that is read from markers in front of it, or from its own, is all markers. -/
theorem encodeLength_of_behind {w j n : Nat} {s : Bytes} (hw : w = 2 ∨ w = 3)
    (hj : 0 < j ∨ encodeLength n = marker w :: packLE w n)
    (hread : leNat ((List.replicate j (marker w) ++ (encodeLength n ++ s)).take w) = n) :
    encodeLength n = List.replicate (w + 1) (marker w) := by
  have hn : n = leNat (List.replicate w (marker w)) := by
    cases j with
    | zero =>
      rw [hj.resolve_left (Nat.lt_irrefl 0)] at hread
      rcases hw with rfl | rfl <;>
        simp [packLE, leNat, List.replicate_succ, marker] at hread ⊢ <;> omega
    | succ j =>
      unfold encodeLength at hread
      rcases hw with rfl | rfl
      · rcases j with _ | j <;>
          split_ifs at hread <;> simp [packLE, leNat, List.replicate_succ, marker] at hread ⊢ <;>
            omega
      · rcases j with _ | _ | j <;>
          split_ifs at hread <;> simp [packLE, leNat, List.replicate_succ, marker] at hread ⊢ <;>
            omega
  rw [hn]
  rcases hw with rfl | rfl <;> rfl

/-- Runs of a byte join. -/
theorem replicate_append_eq {b : UInt8} {i j k l : Nat} (h : i + j = k + l) (s : Bytes) :
    List.replicate i b ++ (List.replicate j b ++ s) =
      List.replicate k b ++ (List.replicate l b ++ s) := by
  rw [← List.append_assoc, ← List.append_assoc, List.replicate_append_replicate,
    List.replicate_append_replicate, h]

/-- A string that is found one byte or more before its place, behind copies of a byte, consists of
that byte. -/
theorem eq_replicate_of_take {b : UInt8} {k : Nat} {u r : Bytes}
    (h : (List.replicate (k + 1) b ++ (u ++ r)).take u.length = u) :
    u = List.replicate u.length b := by
  have hget : ∀ i, i < u.length → u[i]? = some b := by
    intro i
    induction i using Nat.strongRecOn with
    | _ i ih =>
      intro hi
      have hfound : u[i]? = (List.replicate (k + 1) b ++ (u ++ r))[i]? := by
        conv_lhs => rw [← h]
        rw [List.getElem?_take_of_lt hi]
      rw [hfound]
      by_cases hik : i < k + 1
      · rw [List.getElem?_append_left (by rwa [List.length_replicate]),
          List.getElem?_replicate_of_lt hik]
      · rw [List.getElem?_append_right (by rw [List.length_replicate]; omega),
          List.length_replicate, List.getElem?_append_left (by omega)]
        exact ih (i - (k + 1)) (by omega) (by omega)
  refine List.eq_replicate_iff.mpr ⟨rfl, fun x hx => ?_⟩
  obtain ⟨i, hi, rfl⟩ := List.mem_iff_getElem.mp hx
  exact Option.some.inj ((List.getElem?_eq_getElem hi).symm.trans (hget i hi))

/-- A string that is read behind markers leaves the reader behind by one more. -/
theorem readValue_of_behind {w j : Nat} {u r : Bytes} (hw : w = 2 ∨ w = 3)
    (hj : 0 < j ∨ encodeLength u.length = marker w :: packLE w u.length)
    (hdata : data.drop p = List.replicate j (marker w) ++ (encodeLength u.length ++ (u ++ r)))
    (hvalue : (readValue php8 data p).1 = u)
    (hcursor : (readValue php8 data p).2 ≤ data.length) :
    ∃ q : Nat, (readValue php8 data p).2 = q ∧
      data.drop q = List.replicate (j + 1) (marker w) ++ r := by
  obtain ⟨t, hmark⟩ : ∃ t, data.drop p = marker w :: t := by
    cases j with
    | zero => exact ⟨_, by rw [hdata, hj.resolve_left (Nat.lt_irrefl 0)]; rfl⟩
    | succ j => exact ⟨_, by rw [hdata, List.replicate_succ]; rfl⟩
  rcases Nat.lt_or_ge (data.drop p).length w with hshort | hlen
  · rw [readValue_of_marker_short hw hmark hshort] at hcursor
    rw [List.length_drop] at hshort
    omega
  rw [readValue_of_marker hw hmark hlen] at hvalue hcursor ⊢
  generalize hL : leNat ((data.drop p).take w) = n at hvalue hcursor
  dsimp only at hvalue hcursor
  have hn : n = u.length := by
    rw [← hvalue, List.length_take, List.length_drop]
    omega
  subst hn
  have hmarkers := encodeLength_of_behind hw hj (hdata ▸ hL)
  rw [encodeLength_of_behind hw hj (hdata ▸ hL),
    replicate_append_eq (show j + (w + 1) = w + (j + 1) by omega)] at hdata
  have hbehind := drop_of_append hdata
  rw [List.length_replicate] at hbehind
  rw [hbehind] at hvalue
  have hu := eq_replicate_of_take hvalue
  generalize u.length = n at hu hbehind
  rw [hu, replicate_append_eq (Nat.add_comm (j + 1) n)] at hbehind
  have hrest := drop_of_append hbehind
  rw [List.length_replicate] at hrest
  exact ⟨p + w + n, rfl, hrest⟩

/-- Once behind, no list of values is read back up to the end. -/
theorem not_readValues_of_behind {w j : Nat} {vs : List (Option Bytes)} (hw : w = 2 ∨ w = 3)
    (hj : 0 < j) (hdata : data.drop p = List.replicate j (marker w) ++ encodeValues vs)
    (hread : (readValues php8 data vs.length p).1.map some = vs) :
    (readValues php8 data vs.length p).2 ≠ data.length := by
  induction vs generalizing j p with
  | nil =>
    intro hend
    have hlen := congrArg List.length hdata
    rw [List.length_drop, List.length_append, List.length_replicate] at hlen
    have : (p : Int) = data.length := hend
    omega
  | cons v vs ih =>
    intro hend
    rw [List.length_cons, readValues] at hread hend
    dsimp only at hread hend
    rw [List.map_cons, List.cons.injEq] at hread
    obtain ⟨hvalue, hread⟩ := hread
    cases v with
    | none => cases hvalue
    | some u =>
      rw [encodeValues_cons, encodeValue, List.append_assoc] at hdata
      obtain ⟨q, hcursor, hrest⟩ := readValue_of_behind hw (.inl hj) hdata
        (Option.some.inj hvalue) (le_of_readValues_end hend)
      rw [hcursor] at hread hend
      exact ih (Nat.succ_pos j) hrest hread hend

end Behind

/-! ## Lists of values -/

/-- A length from 251 on has a marker in front of it. -/
theorem encodeLength_of_long {n : Nat} (hn : 251 ≤ n) :
    ∃ w, (w = 2 ∨ w = 3) ∧ encodeLength n = marker w :: packLE w n := by
  unfold encodeLength
  rw [if_neg (by omega)]
  split
  · exact ⟨2, .inl rfl, rfl⟩
  · exact ⟨3, .inr rfl, rfl⟩

/-- What is read back up to the end consists of short strings. -/
theorem short_of_readValues {php8 : Bool} {data : Bytes} {p : Nat} {vs : List (Option Bytes)}
    (hdata : data.drop p = encodeValues vs)
    (hread : (readValues php8 data vs.length p).1.map some = vs)
    (hend : (readValues php8 data vs.length p).2 = data.length) :
    ∀ v ∈ vs, ∃ b, v = some b ∧ b.length < 251 := by
  induction vs generalizing p with
  | nil => exact nofun
  | cons v vs ih =>
    rw [List.length_cons, readValues] at hread hend
    dsimp only at hread hend
    rw [List.map_cons, List.cons.injEq] at hread
    obtain ⟨hvalue, hread⟩ := hread
    cases v with
    | none => cases hvalue
    | some u =>
      rcases Nat.lt_or_ge u.length 251 with hshort | hlong
      · rw [encodeValues_cons] at hdata
        rw [readValue_of_short hshort hdata] at hread hend
        rw [List.forall_mem_cons]
        exact ⟨⟨u, rfl, hshort⟩, ih (drop_of_append hdata) hread hend⟩
      · -- a long string leaves the reader behind by one
        obtain ⟨w, hw, hlength⟩ := encodeLength_of_long hlong
        rw [encodeValues_cons, encodeValue, List.append_assoc] at hdata
        obtain ⟨q, hcursor, hrest⟩ := readValue_of_behind (j := 0) hw (.inr hlength) hdata
          (Option.some.inj hvalue) (le_of_readValues_end hend)
        rw [hcursor] at hread hend
        exact absurd hend (not_readValues_of_behind hw Nat.one_pos hrest hread)

/-- Without NULL all values are strings. -/
theorem exists_map_some {vs : List (Option Bytes)} (h : none ∉ vs) :
    ∃ us : List Bytes, us.map some = vs := by
  induction vs with
  | nil => exact ⟨[], rfl⟩
  | cons v vs ih =>
    rw [List.mem_cons, not_or] at h
    obtain ⟨us, rfl⟩ := ih h.2
    cases v with
    | none => exact absurd rfl h.1
    | some u => exact ⟨u :: us, rfl⟩

/-- A list of values is read back, with the cursor at the end, just when each of them is a string
of at most 250 bytes. -/
theorem read_back_iff (php8 : Bool) (vs : List (Option Bytes)) :
    ReadBack php8 vs ↔ ∀ v ∈ vs, ∃ b, v = some b ∧ b.length < 251 := by
  constructor
  · rintro ⟨hread, hend⟩
    exact short_of_readValues (p := 0) rfl hread hend
  · intro hshort
    obtain ⟨us, rfl⟩ := exists_map_some fun hnull => by
      obtain ⟨b, hb, -⟩ := hshort none hnull
      cases hb
    have hus : ∀ u ∈ us, u.length < 251 := by
      intro u hu
      obtain ⟨b, hb, hlt⟩ := hshort (some u) (List.mem_map_of_mem hu)
      cases hb
      exact hlt
    have hdata : (encodeValues (us.map some)).drop 0 = encodeValues (us.map some) ++ [] := by
      rw [List.drop_zero, List.append_nil]
    have hread : readValues php8 (encodeValues (us.map some)) us.length 0 = (us, _) :=
      readValues_of_short hus hdata
    rw [ReadBack, List.length_map, hread, Nat.zero_add]
    exact ⟨rfl, rfl⟩

/-- A string of 251 bytes is not read back. -/
theorem not_read_back : ¬ ReadBack true [some (List.replicate 251 0)] := by decide +kernel

end NgxPhp
