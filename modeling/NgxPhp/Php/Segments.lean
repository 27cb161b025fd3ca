import Mathlib.Data.List.TakeWhile
import NgxPhp.Php.Arguments

/-!
# What one segment of the text adds

The text is looked at segment by segment, as cut by its ampersands. A segment is
read as its key and its value when it has an equals sign, does not begin with one
behind an ampersand, and has no further one but directly behind the first: the
loop steps over one byte behind each separator.
-/

namespace NgxPhp

/-- A text is its last segment, or a segment, an ampersand and a text. -/
theorem segments_induction {P : Bytes → Prop} (last : ∀ w, ampersand ∉ w → P w)
    (more : ∀ w s, ampersand ∉ w → P s → P (w ++ ampersand :: s)) (s : Bytes) : P s := by
  suffices h : ∀ w, ampersand ∉ w → P (w ++ s) from h [] List.not_mem_nil
  induction s with
  | nil => exact fun w hw => (List.append_nil w).symm ▸ last w hw
  | cons b s ih =>
    intro w hw
    by_cases hb : b = ampersand
    · subst hb
      exact more w s hw (ih [] List.not_mem_nil)
    · have hwb : ampersand ∉ w ++ [b] := by simp [hw, Ne.symm hb]
      simpa using ih (w ++ [b]) hwb

/-- The text before the first equals sign. -/
def keyText (w : Bytes) : Bytes := w.takeWhile (· ≠ equalsSign)

/-- The text after the first equals sign. -/
def valueText (w : Bytes) : Bytes := (w.dropWhile (· ≠ equalsSign)).tail

/-- The addition of the key and the value that a segment consists of. -/
def IsEntry (w : Bytes) (e : Addition) : Prop :=
  equalsSign ∈ w ∧ e = ⟨some (keyText w), valueText w⟩

instance decidableIsEntry (w : Bytes) (e : Addition) : Decidable (IsEntry w e) :=
  inferInstanceAs (Decidable (_ ∧ _))

/-- The bytes of a segment among which the loop looks for the first equals sign; behind an
ampersand one byte is stepped over. -/
def looked (skip : Bool) (w : Bytes) : Bytes := if skip then w.tail else w

/-- The loop reads the segment as its key and its value. -/
def ReadsEntry (skip : Bool) (w : Bytes) : Prop :=
  equalsSign ∈ w ∧ (skip = true → w.head? ≠ some equalsSign) ∧ equalsSign ∉ (valueText w).tail

instance decidableReadsEntry (skip : Bool) (w : Bytes) : Decidable (ReadsEntry skip w) :=
  inferInstanceAs (Decidable (_ ∧ _ ∧ _))

/-- A segment is cut at its first equals sign. -/
theorem keyText_append {k : Bytes} (h : equalsSign ∉ k) (v : Bytes) :
    keyText (k ++ equalsSign :: v) = k ∧ valueText (k ++ equalsSign :: v) = v := by
  have hk : ∀ b ∈ k, decide (b ≠ equalsSign) = true :=
    fun b hb => decide_eq_true fun he => h (he ▸ hb)
  constructor
  · rw [keyText, List.takeWhile_append_of_pos hk, List.takeWhile_cons_of_neg (by simp),
      List.append_nil]
  · rw [valueText, List.dropWhile_append_of_pos hk, List.dropWhile_cons_of_neg (by simp),
      List.tail_cons]

/-- A segment with an equals sign is its key and its value. -/
theorem entry_eq {w : Bytes} (h : equalsSign ∈ w) :
    w = keyText w ++ equalsSign :: valueText w ∧ equalsSign ∉ keyText w := by
  obtain ⟨k, v, rfl, hk⟩ := List.eq_append_cons_of_mem h
  obtain ⟨hkey, hvalue⟩ := keyText_append hk v
  rw [hkey, hvalue]
  exact ⟨rfl, hk⟩

/-! ## Reading a segment -/

theorem cString_eq {b : Bytes} (h : (0 : UInt8) ∉ b) : cString b = b := by
  rw [cString, List.takeWhile_eq_self_iff]
  exact fun x hx => decide_eq_true fun he => h (he ▸ hx)

/-- A byte that is neither `&` nor looked at as `=` is added to the text. -/
theorem ArgsState.feed_push {skip : Bool} {b : UInt8} (ha : b ≠ ampersand)
    (he : b = equalsSign → skip = true) (st : ArgsState) :
    st.feed skip b = st.push b ∧ skipAfter skip b = false := by
  cases skip <;> simp_all [feed, skipAfter]

/-- Without an equals sign to look at, the bytes of a segment are taken as they are. -/
theorem ArgsState.read_plain_append {skip : Bool} {w : Bytes} (ha : ampersand ∉ w)
    (he : equalsSign ∉ looked skip w) (st : ArgsState) (rest : Bytes) :
    st.read skip (w ++ rest) =
      ArgsState.read (skip && w.isEmpty) { st with text := st.text ++ w } rest := by
  induction w generalizing skip st with
  | nil => rw [List.nil_append, List.append_nil, List.isEmpty_nil, Bool.and_true]
  | cons b w ih =>
    have hb : b = equalsSign → skip = true := by
      rintro rfl
      cases skip with
      | true => rfl
      | false => exact absurd List.mem_cons_self he
    have hw : equalsSign ∉ looked false w := by
      intro hm
      cases skip with
      | true => exact he hm
      | false => exact he (List.mem_cons_of_mem _ hm)
    obtain ⟨hfeed, hskip⟩ := st.feed_push (List.ne_of_not_mem_cons ha).symm hb
    rw [List.cons_append, read, hfeed, hskip, ih (List.not_mem_of_not_mem_cons ha) hw, push,
      List.append_assoc, List.isEmpty_cons, Bool.and_false, Bool.false_and]
    rfl

/-- Text without separators is added as it is. -/
theorem ArgsState.read_plain {skip : Bool} {w : Bytes} (ha : ampersand ∉ w)
    (he : equalsSign ∉ looked skip w) (st : ArgsState) :
    st.read skip w = { st with text := st.text ++ w } := by
  have h := st.read_plain_append ha he []
  rwa [List.append_nil] at h

/-- The first equals sign that is looked at ends the key. -/
theorem ArgsState.read_key {skip : Bool} {k : Bytes} (ha : ampersand ∉ k)
    (he : equalsSign ∉ looked skip k) (hk : skip = true → k ≠ []) (st : ArgsState) (v : Bytes) :
    st.read skip (k ++ equalsSign :: v) =
      ArgsState.read true (ArgsState.endKey { st with text := st.text ++ k }) v := by
  have hskip : (skip && k.isEmpty) = false := by
    cases skip with
    | false => rfl
    | true => rw [Bool.true_and, List.isEmpty_eq_false_iff]; exact hk rfl
  rw [st.read_plain_append ha he, hskip]
  rfl

/-- A segment with an equals sign to look at is split at the first of them. -/
theorem exists_looked {skip : Bool} {w : Bytes} (h : equalsSign ∈ looked skip w) :
    ∃ k v, w = k ++ equalsSign :: v ∧ equalsSign ∉ looked skip k ∧ (skip = true → k ≠ []) := by
  cases skip with
  | false =>
    obtain ⟨k, v, rfl, hk⟩ := List.eq_append_cons_of_mem h
    exact ⟨k, v, rfl, hk, fun h => nomatch h⟩
  | true =>
    cases w with
    | nil => exact absurd h List.not_mem_nil
    | cons b w =>
      obtain ⟨k, v, rfl, hk⟩ := List.eq_append_cons_of_mem h
      exact ⟨b :: k, v, rfl, hk, fun _ => List.cons_ne_nil b k⟩

/-! ## What is left of a segment with a further equals sign -/

/-- The key and the value together, with the equals sign, have at most so many bytes. -/
def ArgsState.Within (n : Nat) (st : ArgsState) : Prop :=
  ∃ k, st.key = some k ∧ k.length + 1 + st.text.length ≤ n

/-- One more byte makes the longest text longer by one at most. -/
theorem ArgsState.Within.feed {n : Nat} {st : ArgsState} (h : st.Within n) (skip : Bool)
    {b : UInt8} (hb : b ≠ ampersand) : (st.feed skip b).Within (n + 1) := by
  obtain ⟨k, hk, hn⟩ := h
  unfold ArgsState.feed
  rw [if_neg hb]
  split
  · have hlen : (cString st.text).length ≤ st.text.length := (List.takeWhile_prefix _).length_le
    exact ⟨cString st.text, rfl, by simp only [endKey, List.length_nil]; omega⟩
  · exact ⟨k, hk, by simp only [push, List.length_append, List.length_singleton]; omega⟩

/-- A segment makes the longest text longer by its length at most. -/
theorem ArgsState.Within.read {n : Nat} {st : ArgsState} (h : st.Within n) (skip : Bool)
    {w : Bytes} (hw : ampersand ∉ w) : (st.read skip w).Within (n + w.length) := by
  induction w generalizing n skip st with
  | nil => exact h
  | cons b w ih =>
    have hfeed := h.feed skip (List.ne_of_not_mem_cons hw).symm
    have hread := ih hfeed (skipAfter skip b) (List.not_mem_of_not_mem_cons hw)
    rwa [Nat.add_assoc, Nat.add_comm 1] at hread

/-- Behind an equals sign that was looked at, key and value fit into the segment. -/
theorem ArgsState.read_within {skip : Bool} {w : Bytes} (ha : ampersand ∉ w)
    (he : equalsSign ∈ looked skip w) {st : ArgsState} (ht : st.text = []) :
    (st.read skip w).Within w.length := by
  obtain ⟨k, v, rfl, hk, hne⟩ := exists_looked he
  have hak : ampersand ∉ k := fun h => ha (List.mem_append_left _ h)
  have hav : ampersand ∉ v := fun h => ha (List.mem_append_right _ (List.mem_cons_of_mem _ h))
  have hkey : (ArgsState.endKey { st with text := st.text ++ k }).Within (k.length + 1) := by
    have hlen : (cString k).length ≤ k.length := (List.takeWhile_prefix _).length_le
    rw [ht, List.nil_append]
    exact ⟨cString k, rfl, Nat.succ_le_succ hlen⟩
  rw [st.read_key hak hk hne, List.length_append, List.length_cons, Nat.add_comm v.length,
    ← Nat.add_assoc]
  exact hkey.read true hav

/-! ## The addition made for a segment -/

/-- The key and the value of an entry take up the whole segment. -/
theorem IsEntry.length_eq {w : Bytes} {e : Addition} (h : IsEntry w e) :
    ∃ k, e.key = some k ∧ k.length + 1 + e.value.length = w.length := by
  obtain ⟨hmem, rfl⟩ := h
  refine ⟨keyText w, rfl, ?_⟩
  conv => rhs; rw [(entry_eq hmem).1]
  rw [List.length_append, List.length_cons, Nat.add_assoc, Nat.add_comm 1]

/-- What is shorter than a segment is not its entry. -/
theorem ArgsState.Within.not_isEntry {n : Nat} {st : ArgsState} (h : st.Within n) {w : Bytes}
    (hn : n < w.length) : ¬ IsEntry w ⟨st.key, st.text⟩ := by
  intro he
  obtain ⟨k, hk, hlen⟩ := h
  obtain ⟨k', hk', hlen'⟩ := he.length_eq
  obtain rfl := Option.some.inj (hk.symm.trans hk')
  dsimp only at hlen'
  omega

/-- A segment of a key and a value is read as these. -/
theorem ArgsState.read_key_value {skip : Bool} {k v : Bytes} (hk : ampersand ∉ k)
    (hv : ampersand ∉ v) (h0 : (0 : UInt8) ∉ k) (hek : equalsSign ∉ looked skip k)
    (hne : skip = true → k ≠ []) (hev : equalsSign ∉ looked true v) {st : ArgsState}
    (ht : st.text = []) :
    st.read skip (k ++ equalsSign :: v) =
      { st with key := some k, text := v, parsingValue := true } := by
  rw [st.read_key hk hek hne, ArgsState.read_plain hv hev, ht, List.nil_append, endKey,
    cString_eq h0]
  rfl

/-- A segment of the right form is read as its key and its value. -/
theorem ReadsEntry.read_eq {skip : Bool} {w : Bytes} (h : ReadsEntry skip w)
    (ha : ampersand ∉ w) (h0 : (0 : UInt8) ∉ w) {st : ArgsState} (ht : st.text = []) :
    st.read skip w =
      { st with key := some (keyText w), text := valueText w, parsingValue := true } := by
  obtain ⟨hmem, hhead, htail⟩ := h
  obtain ⟨hw, hnotin⟩ := entry_eq hmem
  have hak : ampersand ∉ keyText w := fun hm => ha (List.takeWhile_prefix _ |>.subset hm)
  have h0k : (0 : UInt8) ∉ keyText w := fun hm => h0 (List.takeWhile_prefix _ |>.subset hm)
  have hav : ampersand ∉ valueText w := by
    intro hm
    rw [hw] at ha
    exact ha (List.mem_append_right _ (List.mem_cons_of_mem _ hm))
  have hek : equalsSign ∉ looked skip (keyText w) := by
    cases skip with
    | false => exact hnotin
    | true => exact fun hm => hnotin (List.mem_of_mem_tail hm)
  have hne : skip = true → keyText w ≠ [] := by
    intro hs hk
    rw [hk] at hw
    exact hhead hs (by rw [hw]; rfl)
  conv => lhs; rw [hw]
  exact ArgsState.read_key_value hak hav h0k hek hne htail ht

/-- What is read of a segment is its key and its value exactly if it has the right form. -/
theorem ArgsState.isEntry_read_iff {skip : Bool} {w : Bytes} (ha : ampersand ∉ w)
    (h0 : (0 : UInt8) ∉ w) {st : ArgsState} (ht : st.text = []) :
    IsEntry w ⟨(st.read skip w).key, (st.read skip w).text⟩ ↔ ReadsEntry skip w := by
  constructor
  · intro he
    by_cases hl : equalsSign ∈ looked skip w
    · obtain ⟨k, v, rfl, hk, hne⟩ := exists_looked hl
      have hak : ampersand ∉ k := fun h => ha (List.mem_append_left _ h)
      have hav : ampersand ∉ v :=
        fun h => ha (List.mem_append_right _ (List.mem_cons_of_mem _ h))
      have h0k : (0 : UInt8) ∉ k := fun h => h0 (List.mem_append_left _ h)
      by_cases hev : equalsSign ∈ looked true v
      · -- The key begins behind the first equals sign, so that key and value are too short.
        rw [st.read_key hak hk hne] at he
        have hlt : v.length < (k ++ equalsSign :: v).length := by
          rw [List.length_append, List.length_cons]
          omega
        exact absurd he ((ArgsState.read_within hav hev rfl).not_isEntry hlt)
      · rw [ArgsState.read_key_value hak hav h0k hk hne hev ht] at he
        obtain ⟨hmem, heq⟩ := he
        have hnotin := (entry_eq hmem).2
        rw [← Option.some.inj (Addition.mk.inj heq).1] at hnotin
        refine ⟨hmem, fun hs => ?_, ?_⟩
        · obtain ⟨b, k, rfl⟩ := List.exists_cons_of_ne_nil (hne hs)
          intro hb
          exact hnotin (List.mem_cons.mpr (Or.inl (Option.some.inj hb).symm))
        · rwa [(keyText_append hnotin v).2]
    · -- Nothing was cut off: the value is the whole segment.
      rw [st.read_plain ha hl, ht, List.nil_append] at he
      obtain ⟨k, -, hlen⟩ := he.length_eq
      dsimp only at hlen
      omega
  · intro h
    rw [h.read_eq ha h0 ht]
    exact ⟨h.1, rfl⟩

/-- A segment by itself adds nothing, and an equals sign that is looked at sets the flag. -/
theorem ArgsState.read_fields {skip : Bool} {w : Bytes} (ha : ampersand ∉ w) (st : ArgsState) :
    (st.read skip w).added = st.added ∧
      (st.parsingValue = true → (st.read skip w).parsingValue = true) := by
  induction w generalizing skip st with
  | nil => exact ⟨rfl, id⟩
  | cons b w ih =>
    have hfeed : (st.feed skip b).added = st.added ∧
        (st.parsingValue = true → (st.feed skip b).parsingValue = true) := by
      unfold feed
      rw [if_neg (List.ne_of_not_mem_cons ha).symm]
      split
      · exact ⟨rfl, fun _ => rfl⟩
      · exact ⟨rfl, id⟩
    obtain ⟨hadded, hflag⟩ := ih (List.not_mem_of_not_mem_cons ha) (st.feed skip b)
    exact ⟨hadded.trans hfeed.1, fun h => hflag (hfeed.2 h)⟩

/-- A value is parsed just if an equals sign has been looked at. -/
theorem ArgsState.read_parsingValue {skip : Bool} {w : Bytes} (ha : ampersand ∉ w)
    {st : ArgsState} (hp : st.parsingValue = false) :
    (st.read skip w).parsingValue = true ↔ equalsSign ∈ looked skip w := by
  constructor
  · intro h
    by_contra hl
    rw [st.read_plain ha hl] at h
    exact Bool.false_ne_true (hp.symm.trans h)
  · intro hl
    obtain ⟨k, v, rfl, hk, hne⟩ := exists_looked hl
    have hak : ampersand ∉ k := fun h => ha (List.mem_append_left _ h)
    have hav : ampersand ∉ v := fun h => ha (List.mem_append_right _ (List.mem_cons_of_mem _ h))
    rw [st.read_key hak hk hne]
    exact (ArgsState.read_fields hav _).2 rfl

end NgxPhp
