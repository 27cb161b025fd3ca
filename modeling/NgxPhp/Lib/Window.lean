import Mathlib.Data.List.Basic

/-!
# A window that moves over a text

A buffer holds the end of what has been read of a text, and a position in it. What lies
between a start and the position is kept when the buffer is filled again: it moves to
the front, and the text behind follows as far as there is room. What is still to come
does not depend on where that happens.
-/

/-- What a buffer holds, the position in it and how much of the text has been read. -/
structure Window (α : Type*) where
  data : List α
  pos : Nat
  offset : Nat
  deriving DecidableEq, Repr

namespace Window

variable {α : Type*} {text : List α} {room : Nat} {w : Window α}

/-- What is still to come of a text. -/
def unread (text : List α) (w : Window α) : List α := w.data.drop w.pos ++ text.drop w.offset

/-- What lies between a start and the position. -/
def kept (start : Nat) (w : Window α) : List α := (w.data.take w.pos).drop start

/-- The position in the text. -/
def position (w : Window α) : Nat := w.offset - (w.data.length - w.pos)

/-- The buffer has room for its data, and they are the end of what has been read of the text. -/
structure Over (text : List α) (room : Nat) (w : Window α) : Prop where
  fits : w.data.length ≤ room
  inside : w.pos ≤ w.data.length
  offset : w.offset ≤ text.length
  suffix : w.data <:+ text.take w.offset

/-- The next one of the text. -/
def next (w : Window α) : Window α := { w with pos := w.pos + 1 }

/-- What is kept moves to the front, and more of the text follows. -/
def refill (start : Nat) (more : List α) (w : Window α) : Window α where
  data := w.kept start ++ more
  pos := (w.kept start).length
  offset := w.offset + more.length

/-- How much can be read behind what is kept. -/
def size (text : List α) (room start : Nat) (w : Window α) : Nat :=
  min (text.length - w.offset) (room - (w.kept start).length)

/-- A window holds no more than has been read. -/
theorem Over.length_le (h : w.Over text room) : w.data.length ≤ w.offset := by
  have hlen := h.suffix.length_le
  rw [List.length_take] at hlen
  omega

/-- What is still to come is the text from the position on. -/
theorem Over.drop_position (h : w.Over text room) : text.drop w.position = w.unread text := by
  obtain ⟨before, hbefore⟩ := h.suffix
  have hlen := h.length_le
  have hinside := h.inside
  have htake : (text.take w.offset).length = w.offset := by
    rw [List.length_take]
    exact Nat.min_eq_left h.offset
  have hbl : before.length = w.offset - w.data.length := by
    rw [← htake, ← hbefore, List.length_append]
    omega
  have hpos : w.position = before.length + w.pos := by
    unfold position
    omega
  have hsplit : text = before ++ w.data ++ text.drop w.offset := by
    rw [hbefore, List.take_append_drop]
  rw [hpos]
  conv_lhs => rw [hsplit]
  unfold unread
  rw [List.append_assoc, ← List.drop_drop, List.drop_left, List.drop_append_of_le_length hinside]

/-- What is kept lies between the start and the cursor. -/
theorem length_kept (h : w.Over text room) {start : Nat} :
    (w.kept start).length = w.pos - start := by
  have hinside := h.inside
  unfold kept
  rw [List.length_drop, List.length_take]
  omega

/-- The next one is in the buffer, or the buffer is used up. -/
theorem unread_of_lt (h : w.pos < w.data.length) :
    w.unread text = w.data[w.pos] :: w.next.unread text := by
  unfold unread next
  rw [List.drop_eq_getElem_cons h]
  rfl

/-- With nothing left in the window the unread text is what the window has not read. -/
theorem unread_of_le (h : w.data.length ≤ w.pos) : w.unread text = text.drop w.offset := by
  unfold unread
  rw [List.drop_eq_nil_of_le h, List.nil_append]

/-- A window moves on over its text. -/
theorem Over.next (h : w.Over text room) (hpos : w.pos < w.data.length) :
    w.next.Over text room := ⟨h.fits, hpos, h.offset, h.suffix⟩

/-- The position moves on with the cursor. -/
theorem Over.position_next (h : w.Over text room) (hpos : w.pos < w.data.length) :
    w.next.position = w.position + 1 := by
  have hlen := h.length_le
  unfold position Window.next
  dsimp only
  omega

/-- What is kept grows by the symbol at the cursor. -/
theorem kept_next (hpos : w.pos < w.data.length) {start : Nat} (hstart : start ≤ w.pos) :
    w.next.kept start = w.kept start ++ [w.data[w.pos]] := by
  unfold kept Window.next
  dsimp only
  rw [List.take_succ_eq_append_getElem hpos, List.drop_append_of_le_length]
  rw [List.length_take]
  omega

/-- A refill keeps what was kept. -/
theorem kept_refill (start : Nat) (more : List α) :
    (w.refill start more).kept 0 = w.kept start := by
  unfold refill
  conv_lhs => unfold kept
  dsimp only
  rw [List.take_left, List.drop_zero]
  rfl

/-- A refill keeps the position. -/
theorem position_refill (hused : w.data.length ≤ w.pos) (start : Nat) (more : List α) :
    (w.refill start more).position = w.position := by
  unfold refill position
  dsimp only
  rw [List.length_append]
  omega

/-- The text is read on at the place where the buffer is used up. -/
theorem Over.refill (h : w.Over text room) (hused : w.data.length ≤ w.pos) {start : Nat}
    (hkept : (w.kept start).length ≤ room) :
    (w.refill start ((text.drop w.offset).take (w.size text room start))).Over text room := by
  have hoff := h.offset
  have hsize : ((text.drop w.offset).take (w.size text room start)).length =
      w.size text room start := by
    rw [List.length_take, List.length_drop]
    unfold size
    omega
  have hroom : w.size text room start ≤ room - (w.kept start).length := Nat.min_le_right ..
  have hrest : w.size text room start ≤ text.length - w.offset := Nat.min_le_left ..
  refine ⟨?_, ?_, ?_, ?_⟩
  · unfold Window.refill
    rw [List.length_append, hsize]
    omega
  · unfold Window.refill
    rw [List.length_append]
    exact Nat.le_add_right ..
  · unfold Window.refill
    dsimp only
    rw [hsize]
    omega
  · unfold Window.refill
    dsimp only
    rw [hsize, List.take_add]
    have hwhole : w.kept start = w.data.drop start := by
      unfold kept
      rw [List.take_of_length_le hused]
    rw [hwhole]
    obtain ⟨before, hbefore⟩ := (List.drop_suffix start w.data).trans h.suffix
    exact ⟨before, by rw [← hbefore, List.append_assoc]⟩

/-- A refill keeps the unread text. -/
theorem unread_refill (text : List α) (room start : Nat) (hused : w.data.length ≤ w.pos) :
    (w.refill start ((text.drop w.offset).take (w.size text room start))).unread text =
      w.unread text := by
  rw [unread_of_le hused]
  unfold Window.refill unread
  dsimp only
  rw [List.drop_left, ← List.drop_drop]
  generalize text.drop w.offset = rest
  generalize w.size text room start = n
  rw [List.length_take]
  by_cases hn : n ≤ rest.length
  · rw [Nat.min_eq_left hn, List.take_append_drop]
  · have hle : rest.length ≤ n := Nat.le_of_not_le hn
    rw [Nat.min_eq_right hle, List.take_of_length_le hle, List.drop_length, List.append_nil]

end Window
