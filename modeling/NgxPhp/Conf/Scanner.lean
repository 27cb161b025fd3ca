import NgxPhp.Lib.Window
import NgxPhp.Nginx.Strings

/-!
# The reader of a block

`ngx_php_conf_read_token` reads the text of a block up to its closing brace. The buffer holds a part
of the file; when it is used up, what has been read of the block moves to the front and the file
follows. Where the buffer ends makes no difference.
-/

namespace NgxPhp

/-- A byte of the file. -/
def lineFeed : UInt8 := 10
/-- A byte of the file. -/
def openBrace : UInt8 := 123
/-- A byte of the file. -/
def closeBrace : UInt8 := 125

/-- `NGX_CONF_BUFFER`. -/
def ngxConfBuffer : Nat := 4096

/-- `ngx_str_t`: a length, and what is at `data`, unless that is `NULL`. -/
structure NgxStr where
  len : Nat
  data : Option Bytes
  deriving DecidableEq, Repr

/-- `cf->args`. The elements stay when their number is set to zero. -/
structure ConfArgs where
  elts : List NgxStr := []
  nelts : Nat := 0
  deriving DecidableEq, Repr

/-- `ngx_array_push` and what is assigned to the element. -/
def ConfArgs.push (a : ConfArgs) (s : NgxStr) : ConfArgs where
  elts := a.elts.take a.nelts ++ s :: a.elts.drop (a.nelts + 1)
  nelts := a.nelts + 1

/-- `cf->conf_file` with `cf->args`; the window is the buffer with the offset in the file. -/
structure ConfFile where
  fileSize : Nat
  buffer : Window UInt8
  line : Nat
  args : ConfArgs := {}
  deriving DecidableEq, Repr

/-- What the system answers: `ngx_read_file` for a size and an offset, and the allocations for the
argument and its text. -/
structure ConfIo where
  read : Nat → Nat → Option Bytes
  pushed : Bool := true
  allocated : Bool := true

/-- The results of the reader. -/
inductive TokenRc
  | error
  | blockDone
  | fileDone
  deriving DecidableEq, Repr

/-- A return of the reader. -/
structure TokenRead where
  rc : TokenRc
  conf : ConfFile
  deriving DecidableEq, Repr

/-- The variables of the loop. -/
structure Scan where
  conf : ConfFile
  start : Nat
  deep : Nat := 0
  deriving DecidableEq, Repr

/-- `if (b->pos >= b->last)`: the reader returns or has a byte to read. -/
def Scan.fill (io : ConfIo) (startLine : Nat) (sc : Scan) : Except TokenRead Scan :=
  let b := sc.conf.buffer
  if b.pos < b.data.length then .ok sc
  else if sc.conf.fileSize ≤ b.offset then
    .error ⟨if sc.conf.args.nelts > 0 then .error else .fileDone, sc.conf⟩
  else
    let len := b.pos - sc.start
    if len = ngxConfBuffer then .error ⟨.error, { sc.conf with line := startLine }⟩
    else
      let size := min (sc.conf.fileSize - b.offset) (ngxConfBuffer - len)
      match io.read size b.offset with
      | none => .error ⟨.error, sc.conf⟩
      | some bytes =>
        if bytes.length ≠ size then .error ⟨.error, sc.conf⟩
        else .ok { sc with
          conf := { sc.conf with buffer := b.refill sc.start bytes }
          start := 0 }

/-- The closing brace of the block has been read. Without room for the text the argument is there,
and its text is `NULL`. -/
def Scan.closeBlock (io : ConfIo) (sc : Scan) : TokenRead :=
  let b := sc.conf.buffer
  let len := b.pos - 1 - sc.start + 1
  if !io.pushed then ⟨.error, sc.conf⟩
  else if !io.allocated then ⟨.error, { sc.conf with args := sc.conf.args.push ⟨0, none⟩ }⟩
  else
    ⟨.blockDone, { sc.conf with
      args := sc.conf.args.push ⟨len, some (ngxCpystrn (b.data.drop sc.start) len)⟩ }⟩

/-- The loop of the reader, for at most so many rounds. -/
def Scan.loop (io : ConfIo) (startLine : Nat) : Nat → Scan → Option TokenRead
  | 0, _ => none
  | n + 1, sc =>
    match sc.fill io startLine with
    | .error read => some read
    | .ok sc =>
      match sc.conf.buffer.data[sc.conf.buffer.pos]? with
      | none => none
      | some ch =>
        let sc := { sc with conf := { sc.conf with buffer := sc.conf.buffer.next } }
        if ch = lineFeed then
          loop io startLine n { sc with conf := { sc.conf with line := sc.conf.line + 1 } }
        else if ch = openBrace then loop io startLine n { sc with deep := sc.deep + 1 }
        else if ch = closeBrace then
          if sc.deep = 0 then some (sc.closeBlock io)
          else loop io startLine n { sc with deep := sc.deep - 1 }
        else loop io startLine n sc

/-- `ngx_php_conf_read_token`. No result is a loop that does not end. -/
def ngxPhpConfReadToken (io : ConfIo) (conf : ConfFile) : Option TokenRead :=
  let conf := { conf with args := { conf.args with nelts := 0 } }
  let unread := (conf.buffer.data.length - conf.buffer.pos) + (conf.fileSize - conf.buffer.offset)
  Scan.loop io conf.line (unread + 1) { conf, start := conf.buffer.pos }

/-! ## The text of a block -/

/-- How deep the braces are behind one more byte; none behind a closing brace too many. -/
def deepen (d : Nat) (c : UInt8) : Option Nat :=
  if c = openBrace then some (d + 1)
  else if c = closeBrace then if d = 0 then none else some (d - 1)
  else some d

/-- How deep the braces are behind a text. -/
def depth : Nat → Bytes → Option Nat
  | d, [] => some d
  | d, c :: t => (deepen d c).bind fun e => depth e t

/-- A text whose closing braces all match an earlier opening one, and whose opening ones are all
matched. -/
def Balanced (t : Bytes) : Prop :=
  (∀ p, p <+: t → p.count closeBrace ≤ p.count openBrace) ∧
    t.count closeBrace = t.count openBrace

/-- Only a closing brace at the depth of the block is one too many. -/
theorem deepen_eq_none {d : Nat} {c : UInt8} (h : deepen d c = none) : c = closeBrace ∧ d = 0 := by
  unfold deepen at h
  split at h
  · cases h
  · split at h
    next hc =>
      split at h
      next hd => exact ⟨hc, hd⟩
      next => cases h
    next => cases h

/-- The beginnings of a text without its first byte. -/
theorem forall_prefix_cons {c : UInt8} {t : Bytes} {d : Nat} :
    (∀ p, p <+: c :: t → p.count closeBrace ≤ d + p.count openBrace) ↔
      ∀ p, p <+: t → (c :: p).count closeBrace ≤ d + (c :: p).count openBrace := by
  constructor
  · intro h p hp
    exact h (c :: p) (List.cons_prefix_cons.mpr ⟨rfl, hp⟩)
  · intro h p hp
    rcases List.prefix_cons_iff.mp hp with rfl | ⟨q, rfl, hq⟩
    · exact Nat.zero_le _
    · exact h q hq

/-- The depth says how the braces of a text balance, if none closes too much. -/
theorem depth_eq_some_iff (t : Bytes) (d e : Nat) :
    depth d t = some e ↔ (∀ p, p <+: t → p.count closeBrace ≤ d + p.count openBrace) ∧
      d + t.count openBrace = e + t.count closeBrace := by
  induction t generalizing d with
  | nil =>
    rw [depth, Option.some_inj]
    constructor
    · intro h
      refine ⟨fun p hp => ?_, h⟩
      rw [List.prefix_nil.mp hp]
      exact Nat.zero_le _
    · exact fun h => h.2
  | cons c t ih =>
    rw [depth, forall_prefix_cons, deepen]
    by_cases ho : c = openBrace
    · have hopen (p : Bytes) : (c :: p).count openBrace = p.count openBrace + 1 :=
        ho ▸ List.count_cons_self
      have hclose (p : Bytes) : (c :: p).count closeBrace = p.count closeBrace :=
        List.count_cons_of_ne (ho ▸ by decide)
      rw [if_pos ho, Option.bind_some, ih (d + 1)]
      simp only [hopen, hclose]
      refine and_congr (forall_congr' fun p => imp_congr_right fun _ => ?_) ?_ <;> omega
    have hopen (p : Bytes) : (c :: p).count openBrace = p.count openBrace :=
      List.count_cons_of_ne ho
    rw [if_neg ho]
    by_cases hc : c = closeBrace
    · have hclose (p : Bytes) : (c :: p).count closeBrace = p.count closeBrace + 1 :=
        hc ▸ List.count_cons_self
      rw [if_pos hc]
      simp only [hopen, hclose]
      by_cases hd : d = 0
      · rw [if_pos hd, Option.bind_none]
        refine iff_of_false (Option.some_ne_none e).symm fun h => ?_
        have hnil := h.1 [] List.nil_prefix
        simp [hd] at hnil
      · rw [if_neg hd, Option.bind_some, ih (d - 1)]
        refine and_congr (forall_congr' fun p => imp_congr_right fun _ => ?_) ?_ <;> omega
    · have hclose (p : Bytes) : (c :: p).count closeBrace = p.count closeBrace :=
        List.count_cons_of_ne hc
      rw [if_neg hc, Option.bind_some, ih d]
      simp only [hopen, hclose]

/-- A text is balanced just if its depth is zero. -/
theorem balanced_iff_depth (t : Bytes) : Balanced t ↔ depth 0 t = some 0 := by
  rw [depth_eq_some_iff]
  unfold Balanced
  refine and_congr (forall_congr' fun p => imp_congr_right fun _ => ?_) ?_ <;> omega

/-! ## The reader as a pass over the text -/

/-- What the reader makes of a text: its result, the text of the block, how far it reads and the
line. -/
structure Scanned where
  rc : TokenRc
  code : Option Bytes := none
  read : Nat
  line : Nat
  deriving DecidableEq, Repr

/-- The pass over what is still to come, with the text of the block so far, the depth and the line.
-/
def scanText (startLine : Nat) : Bytes → Nat → Nat → Bytes → Scanned
  | s, _, line, [] => { rc := .fileDone, read := s.length, line }
  | s, deep, line, c :: u =>
    if s.length = ngxConfBuffer then { rc := .error, read := s.length, line := startLine }
    else
      match deepen deep c with
      | none => { rc := .blockDone, code := some s, read := s.length + 1, line }
      | some deep => scanText startLine (s ++ [c]) deep (line + [c].count lineFeed) u

theorem length_concat (s : Bytes) (c : UInt8) : (s ++ [c]).length = s.length + 1 :=
  List.length_append

/-- The closing brace is found behind a text that fits into the buffer. -/
theorem scanText_blockDone (startLine : Nat) {s t : Bytes} {deep : Nat}
    (ht : depth deep t = some 0) (hlen : s.length + t.length < ngxConfBuffer) (line : Nat)
    (rest : Bytes) :
    scanText startLine s deep line (t ++ closeBrace :: rest) =
      { rc := .blockDone, code := some (s ++ t), read := s.length + t.length + 1,
        line := line + t.count lineFeed } := by
  induction t generalizing s deep line with
  | nil =>
    have hdeep : deep = 0 := Option.some.inj ht
    have hs : s.length ≠ ngxConfBuffer := Nat.ne_of_lt hlen
    rw [List.nil_append, scanText, if_neg hs, hdeep, List.append_nil]
    rfl
  | cons c t ih =>
    rw [List.length_cons] at hlen
    have hs : s.length ≠ ngxConfBuffer := by omega
    obtain ⟨e, hc, ht⟩ := Option.bind_eq_some_iff.mp ht
    rw [List.cons_append, scanText, if_neg hs, hc]
    dsimp only
    rw [ih ht (by rw [length_concat]; omega), length_concat, List.length_cons, List.append_assoc,
      List.singleton_append, Nat.add_assoc line, ← List.count_append, List.singleton_append]
    congr 1
    omega

/-- It is not found where the text is longer than the buffer. -/
theorem scanText_error (startLine : Nat) {s t : Bytes} {deep : Nat} (ht : depth deep t = some 0)
    (hs : s.length ≤ ngxConfBuffer) (hlen : ngxConfBuffer ≤ s.length + t.length) (line : Nat)
    (rest : Bytes) :
    scanText startLine s deep line (t ++ closeBrace :: rest) =
      { rc := .error, read := ngxConfBuffer, line := startLine } := by
  induction t generalizing s deep line with
  | nil =>
    have hfull : s.length = ngxConfBuffer := Nat.le_antisymm hs hlen
    rw [List.nil_append, scanText, if_pos hfull, hfull]
  | cons c t ih =>
    rw [List.length_cons] at hlen
    rw [List.cons_append, scanText]
    by_cases hfull : s.length = ngxConfBuffer
    · rw [if_pos hfull, hfull]
    · obtain ⟨e, hc, ht⟩ := Option.bind_eq_some_iff.mp ht
      rw [if_neg hfull, hc]
      dsimp only
      exact ih ht (by rw [length_concat]; omega) (by rw [length_concat]; omega) _

/-- There is none in the rest of the file, which fits into the buffer. -/
theorem scanText_fileDone (startLine : Nat) {s u : Bytes} {deep : Nat}
    (hu : ∀ t rest, u = t ++ closeBrace :: rest → depth deep t ≠ some 0)
    (hlen : s.length + u.length ≤ ngxConfBuffer) (line : Nat) :
    (scanText startLine s deep line u).rc = .fileDone := by
  induction u generalizing s deep line with
  | nil => rfl
  | cons c u ih =>
    rw [List.length_cons] at hlen
    have hs : s.length ≠ ngxConfBuffer := by omega
    rw [scanText, if_neg hs]
    cases hc : deepen deep c with
    | none =>
      obtain ⟨rfl, rfl⟩ := deepen_eq_none hc
      exact absurd rfl (hu [] u rfl)
    | some e =>
      refine ih (fun t rest hrest ht => ?_) (by rw [length_concat]; omega) _
      refine hu (c :: t) rest (congrArg (c :: ·) hrest) ?_
      rw [depth, hc]
      exact ht

/-! ## The loop makes that pass -/

/-- The file is read as it is, and there is memory. -/
structure ConfIo.Works (io : ConfIo) (content : Bytes) : Prop where
  read : ∀ n offset, offset + n ≤ content.length →
    io.read n offset = some ((content.drop offset).take n)
  pushed : io.pushed = true
  allocated : io.allocated = true

/-- The state of the loop when it has read `s` of the block, which begins at `base`, and `u` is
still to come. -/
structure Scan.At (content : Bytes) (base : Nat) (sc : Scan) (s u : Bytes) : Prop where
  window : sc.conf.buffer.Over content ngxConfBuffer
  fileSize : sc.conf.fileSize = content.length
  start : sc.start ≤ sc.conf.buffer.pos
  kept : sc.conf.buffer.kept sc.start = s
  unread : sc.conf.buffer.unread content = u
  position : sc.conf.buffer.position = base + s.length
  nelts : sc.conf.args.nelts = 0

/-- A return of the reader that does what the pass does. -/
structure TokenRead.Is (content : Bytes) (r : TokenRead) (base : Nat) (x : Scanned) : Prop where
  window : r.conf.buffer.Over content ngxConfBuffer
  rc : r.rc = x.rc
  code : ∀ t, x.code = some t →
    r.conf.args.nelts = 1 ∧ r.conf.args.elts.head? = some ⟨t.length + 1, some (t ++ [0])⟩
  position : r.conf.buffer.position = base + x.read
  line : r.conf.line = x.line

namespace Scan

variable {content s u : Bytes} {base startLine : Nat} {sc : Scan} {io : ConfIo}

/-- What the window keeps are the bytes from the start to the cursor. -/
theorem At.length_eq (h : sc.At content base s u) : s.length = sc.conf.buffer.pos - sc.start := by
  rw [← h.kept, Window.length_kept h.window]

/-- What the window keeps fits into its buffer. -/
theorem At.length_le (h : sc.At content base s u) : s.length ≤ ngxConfBuffer := by
  have hfits := h.window.fits
  have hinside := h.window.inside
  rw [h.length_eq]
  omega

/-- Where nothing is left in the buffer, what is still to come is in the file. -/
theorem At.rest (h : sc.At content base s u)
    (hused : ¬ sc.conf.buffer.pos < sc.conf.buffer.data.length) :
    content.drop sc.conf.buffer.offset = u := by
  rw [← h.unread, Window.unread_of_le (Nat.le_of_not_lt hused)]

/-- At the end of the file no more is read. -/
theorem At.fill_nil (h : sc.At content base s []) :
    sc.fill io startLine = .error ⟨.fileDone, sc.conf⟩ := by
  have hused : ¬ sc.conf.buffer.pos < sc.conf.buffer.data.length := by
    intro hlt
    have hunread := h.unread
    rw [Window.unread_of_lt hlt] at hunread
    cases hunread
  have hend : sc.conf.fileSize ≤ sc.conf.buffer.offset := by
    rw [h.fileSize]
    exact List.drop_eq_nil_iff.mp (h.rest hused)
  unfold fill
  dsimp only
  rw [if_neg hused, if_pos hend, if_neg (by rw [h.nelts]; decide)]

/-- The block has filled the buffer. -/
theorem At.fill_full {c : UInt8} (h : sc.At content base s (c :: u))
    (hfull : s.length = ngxConfBuffer) :
    sc.fill io startLine = .error ⟨.error, { sc.conf with line := startLine }⟩ := by
  have hfits := h.window.fits
  have hlen := h.length_eq
  have hused : ¬ sc.conf.buffer.pos < sc.conf.buffer.data.length := by omega
  have hmore : ¬ sc.conf.fileSize ≤ sc.conf.buffer.offset := by
    intro hle
    have hrest := h.rest hused
    rw [List.drop_eq_nil_of_le (h.fileSize ▸ hle)] at hrest
    cases hrest
  unfold fill
  dsimp only
  rw [if_neg hused, if_neg hmore, if_pos (hlen ▸ hfull)]

/-- Where the block does not fill the buffer there is a byte to read, in the same place. -/
theorem At.fill_cons {c : UInt8} (hio : io.Works content) (h : sc.At content base s (c :: u))
    (hroom : s.length ≠ ngxConfBuffer) :
    ∃ sc', sc.fill io startLine = .ok sc' ∧ sc'.At content base s (c :: u) ∧
      sc'.conf.buffer.pos < sc'.conf.buffer.data.length ∧ sc'.deep = sc.deep ∧
      sc'.conf.line = sc.conf.line := by
  by_cases hlt : sc.conf.buffer.pos < sc.conf.buffer.data.length
  · refine ⟨sc, ?_, h, hlt, rfl, rfl⟩
    unfold fill
    dsimp only
    rw [if_pos hlt]
  · have hused := Nat.le_of_not_lt hlt
    have hrest := h.rest hlt
    have hmore : ¬ sc.conf.fileSize ≤ sc.conf.buffer.offset := by
      intro hle
      rw [List.drop_eq_nil_of_le (h.fileSize ▸ hle)] at hrest
      cases hrest
    have hlen := h.length_eq
    have hsize : min (sc.conf.fileSize - sc.conf.buffer.offset)
        (ngxConfBuffer - (sc.conf.buffer.pos - sc.start)) =
        sc.conf.buffer.size content ngxConfBuffer sc.start := by
      unfold Window.size
      rw [Window.length_kept h.window, h.fileSize]
    have hlimit : sc.conf.buffer.offset + sc.conf.buffer.size content ngxConfBuffer sc.start ≤
        content.length := by
      have hoffset := h.window.offset
      unfold Window.size
      omega
    have hread := hio.read _ _ hlimit
    have hover := h.window.refill hused (h.kept ▸ h.length_le)
    have hunread := Window.unread_refill content ngxConfBuffer sc.start hused
    obtain ⟨more, hdef⟩ : ∃ more, more = (content.drop sc.conf.buffer.offset).take
      (sc.conf.buffer.size content ngxConfBuffer sc.start) := ⟨_, rfl⟩
    have hbytes : more.length = sc.conf.buffer.size content ngxConfBuffer sc.start := by
      rw [hdef, List.length_take, List.length_drop]
      omega
    have hpos : 0 < more.length := by
      have hle := h.length_le
      rw [h.fileSize] at hmore
      rw [hbytes]
      unfold Window.size
      rw [h.kept]
      omega
    rw [← hdef] at hread hover hunread
    refine ⟨{ sc with
      conf := { sc.conf with buffer := Window.refill sc.start more sc.conf.buffer }
      start := 0 }, ?_, ⟨hover, h.fileSize, Nat.zero_le _, ?_, hunread.trans h.unread, ?_,
        h.nelts⟩, ?_, rfl, rfl⟩
    · unfold fill
      dsimp only
      rw [if_neg hlt, if_neg hmore, if_neg (hlen ▸ hroom), hsize, hread]
      dsimp only
      rw [if_neg (not_not.mpr hbytes)]
    · exact (Window.kept_refill sc.start more).trans h.kept
    · exact (Window.position_refill hused sc.start more).trans h.position
    · unfold Window.refill
      dsimp only
      rw [List.length_append]
      omega

/-- What is kept of a file without NUL has none. -/
theorem At.zero_notMem (h : sc.At content base s u) (hzero : 0 ∉ content) : 0 ∉ s := by
  intro hs
  rw [← h.kept] at hs
  have hdata := List.mem_of_mem_take (List.mem_of_mem_drop hs)
  exact hzero (List.mem_of_mem_take (h.window.suffix.subset hdata))

/-- A byte of the block has been read. -/
theorem At.next {c : UInt8} (h : sc.At content base s (c :: u))
    (hlt : sc.conf.buffer.pos < sc.conf.buffer.data.length) (deep line : Nat) :
    At content base { sc with
      conf := { sc.conf with buffer := sc.conf.buffer.next, line }
      deep } (s ++ [c]) u := by
  have hunread := h.unread
  rw [Window.unread_of_lt hlt] at hunread
  obtain ⟨hc, hu⟩ := List.cons.inj hunread
  refine ⟨h.window.next hlt, h.fileSize, h.start.trans (Nat.le_succ _), ?_, hu, ?_, h.nelts⟩
  · rw [Window.kept_next hlt h.start, h.kept, hc]
  · rw [h.window.position_next hlt, h.position, length_concat, Nat.add_assoc]

/-- The closing brace behind the block has been read. -/
theorem At.closeBlock (hio : io.Works content) (hzero : 0 ∉ content)
    (h : sc.At content base s (closeBrace :: u))
    (hlt : sc.conf.buffer.pos < sc.conf.buffer.data.length) :
    (Scan.closeBlock io
      { sc with conf := { sc.conf with buffer := sc.conf.buffer.next } }).Is content base
      { rc := .blockDone, code := some s, read := s.length + 1, line := sc.conf.line } := by
  have hlen : sc.conf.buffer.next.pos - 1 - sc.start + 1 = s.length + 1 := by
    rw [h.length_eq]
    rfl
  have hcode : ngxCpystrn (sc.conf.buffer.next.data.drop sc.start) (s.length + 1) = s ++ [0] := by
    have hkept : (sc.conf.buffer.next.data.drop sc.start).take s.length = s := by
      rw [h.length_eq, ← List.drop_take]
      exact h.kept
    rw [ngxCpystrn, hkept, cString_of_zero_notMem (h.zero_notMem hzero)]
  unfold Scan.closeBlock
  dsimp only
  rw [hio.pushed, hio.allocated, hlen, hcode]
  rw [if_neg (by decide), if_neg (by decide)]
  refine ⟨h.window.next hlt, rfl, fun t ht => ?_, ?_, rfl⟩
  · cases ht
    unfold ConfArgs.push
    dsimp only
    rw [h.nelts]
    exact ⟨rfl, rfl⟩
  · exact (h.window.position_next hlt).trans (by rw [h.position, Nat.add_assoc])

/-- The loop comes to an end and does what the pass over the text does. -/
theorem At.loop (hio : io.Works content) (hzero : 0 ∉ content) {n : Nat}
    (h : sc.At content base s u) (hn : u.length < n) :
    ∃ r, Scan.loop io startLine n sc = some r ∧
      r.Is content base (scanText startLine s sc.deep sc.conf.line u) := by
  induction n generalizing sc s u with
  | zero => exact absurd hn (Nat.not_lt_zero _)
  | succ n ih =>
    rw [Scan.loop]
    cases u with
    | nil =>
      rw [h.fill_nil]
      exact ⟨_, rfl, h.window, rfl, nofun, h.position, rfl⟩
    | cons c u =>
      rw [scanText]
      by_cases hfull : s.length = ngxConfBuffer
      · rw [h.fill_full hfull, if_pos hfull]
        exact ⟨_, rfl, h.window, rfl, nofun, h.position, rfl⟩
      obtain ⟨sc', hfill, h', hlt, hdeep, hline⟩ := h.fill_cons hio hfull
      rw [hfill, if_neg hfull, ← hdeep, ← hline]
      have hget : sc'.conf.buffer.data[sc'.conf.buffer.pos]? = some c := by
        have hunread := h'.unread
        rw [Window.unread_of_lt hlt] at hunread
        rw [List.getElem?_eq_getElem hlt, (List.cons.inj hunread).1]
      have hmore : u.length < n := Nat.lt_of_succ_lt_succ hn
      dsimp only
      rw [hget]
      dsimp only
      by_cases hl : c = lineFeed
      · subst hl
        rw [if_pos rfl]
        exact ih (h'.next hlt _ _) hmore
      have hcount : [c].count lineFeed = 0 := List.count_cons_of_ne hl
      rw [if_neg hl, hcount, Nat.add_zero, deepen]
      by_cases ho : c = openBrace
      · rw [if_pos ho, if_pos ho]
        exact ih (h'.next hlt _ _) hmore
      rw [if_neg ho, if_neg ho]
      by_cases hc : c = closeBrace
      · rw [if_pos hc, if_pos hc]
        by_cases hd : sc'.deep = 0
        · rw [if_pos hd, if_pos hd]
          subst hc
          exact ⟨_, rfl, h'.closeBlock hio hzero hlt⟩
        · rw [if_neg hd, if_neg hd]
          exact ih (h'.next hlt _ _) hmore
      · rw [if_neg hc, if_neg hc]
        exact ih (h'.next hlt _ _) hmore

end Scan

/-- The configuration file is open, and the buffer holds a part of it. -/
structure ConfFile.Reads (content : Bytes) (conf : ConfFile) : Prop where
  window : conf.buffer.Over content ngxConfBuffer
  fileSize : conf.fileSize = content.length

/-- The reader comes to an end and does what the pass over the text does. -/
theorem ngxPhpConfReadToken_is {content : Bytes} {io : ConfIo} {conf : ConfFile}
    (hio : io.Works content) (hzero : 0 ∉ content) (h : conf.Reads content) :
    ∃ r, ngxPhpConfReadToken io conf = some r ∧ r.Is content conf.buffer.position
      (scanText conf.line [] 0 conf.line (conf.buffer.unread content)) := by
  have hat : Scan.At content conf.buffer.position
      { conf := { conf with args := { conf.args with nelts := 0 } }, start := conf.buffer.pos } []
      (conf.buffer.unread content) := by
    refine ⟨h.window, h.fileSize, Nat.le_refl _, ?_, rfl, rfl, rfl⟩
    unfold Window.kept
    dsimp only
    rw [List.drop_eq_nil_iff, List.length_take]
    exact Nat.min_le_left ..
  refine hat.loop hio hzero ?_
  unfold Window.unread
  rw [List.length_append, List.length_drop, List.length_drop, h.fileSize]
  exact Nat.lt_succ_self _

/-- A block that is found has its text. -/
theorem scanText_code {startLine : Nat} {s u : Bytes} {deep line : Nat}
    (h : (scanText startLine s deep line u).rc = .blockDone) :
    ∃ t, (scanText startLine s deep line u).code = some t := by
  induction u generalizing s deep line with
  | nil => cases h
  | cons c u ih =>
    rw [scanText] at h ⊢
    split at h
    · cases h
    next hs =>
      rw [if_neg hs]
      cases hc : deepen deep c with
      | none => exact ⟨s, rfl⟩
      | some e =>
        rw [hc] at h
        exact ih h

/-- What a block's reader returns, and where it leaves the file. -/
structure ReadsBlock (content : Bytes) (conf : ConfFile) (r : TokenRead) : Prop where
  /-- A text that fits is the code, with the zero behind it. -/
  done : ∀ t rest, conf.buffer.unread content = t ++ closeBrace :: rest → Balanced t →
    t.length ≤ 4095 → r.rc = .blockDone ∧ r.conf.args.nelts = 1 ∧
      r.conf.args.elts.head? = some ⟨t.length + 1, some (t ++ [0])⟩ ∧
      r.conf.buffer.position = conf.buffer.position + t.length + 1 ∧
      r.conf.buffer.unread content = rest ∧ r.conf.line = conf.line + t.count lineFeed
  long : ∀ t rest, conf.buffer.unread content = t ++ closeBrace :: rest → Balanced t →
    4095 < t.length → r.rc = .error
  none : (∀ t rest, conf.buffer.unread content = t ++ closeBrace :: rest → ¬ Balanced t) →
    (conf.buffer.unread content).length ≤ 4096 → r.rc = .fileDone

/-- The reading of a token is that of a block where it ends as one does. -/
theorem TokenRead.Is.readsBlock {content : Bytes} {conf : ConfFile} {r : TokenRead}
    (h : conf.Reads content) (hr : r.Is content conf.buffer.position
      (scanText conf.line [] 0 conf.line (conf.buffer.unread content))) :
    ReadsBlock content conf r := by
  constructor
  · intro t rest htext hbalanced hlen
    have hscan := scanText_blockDone conf.line ((balanced_iff_depth t).mp hbalanced)
      (s := []) (by rw [List.length_nil, Nat.zero_add]; exact Nat.lt_succ_of_le hlen) conf.line rest
    rw [htext, hscan, List.length_nil, Nat.zero_add, List.nil_append] at hr
    have hposition : r.conf.buffer.position = conf.buffer.position + (t.length + 1) := hr.position
    refine ⟨hr.rc, (hr.code t rfl).1, (hr.code t rfl).2, hposition, ?_, hr.line⟩
    rw [← hr.window.drop_position, hposition, ← List.drop_drop, h.window.drop_position, htext,
      List.append_cons, ← length_concat t closeBrace, List.drop_left]
  · intro t rest htext hbalanced hlen
    have hscan := scanText_error conf.line ((balanced_iff_depth t).mp hbalanced) (s := [])
      (Nat.zero_le _) (by rw [List.length_nil, Nat.zero_add]; exact hlen) conf.line rest
    rw [htext, hscan] at hr
    exact hr.rc
  · intro hno hlen
    refine hr.rc.trans (scanText_fileDone conf.line (fun t rest ht hd => ?_) ?_ conf.line)
    · exact hno t rest ht ((balanced_iff_depth t).mpr hd)
    · rw [List.length_nil, Nat.zero_add]
      exact hlen

/-- Two returns are the same for those who go on reading. -/
def TokenRead.SameAs (r r' : TokenRead) : Prop :=
  r.rc = r'.rc ∧ r.conf.buffer.position = r'.conf.buffer.position ∧ r.conf.line = r'.conf.line ∧
    (r.rc = .blockDone → r.conf.args.elts.head? = r'.conf.args.elts.head?)

/-- The reader of a block comes to an end and returns the text of the block, wherever the buffer has
to be filled again. -/
theorem ngxPhpConfReadToken_block (content : Bytes) (io : ConfIo) (conf : ConfFile)
    (hio : io.Works content) (hzero : 0 ∉ content) (h : conf.Reads content) :
    ∃ r, ngxPhpConfReadToken io conf = some r ∧ ReadsBlock content conf r ∧
      ∀ conf' : ConfFile, conf'.Reads content →
        conf'.buffer.position = conf.buffer.position → conf'.line = conf.line →
        ∃ r', ngxPhpConfReadToken io conf' = some r' ∧ r'.SameAs r := by
  obtain ⟨r, hread, hr⟩ := ngxPhpConfReadToken_is hio hzero h
  refine ⟨r, hread, hr.readsBlock h, ?_⟩
  intro conf' h' hposition hline
  obtain ⟨r', hread', hr'⟩ := ngxPhpConfReadToken_is hio hzero h'
  have hunread : conf'.buffer.unread content = conf.buffer.unread content := by
    rw [← h'.window.drop_position, ← h.window.drop_position, hposition]
  rw [hposition, hline, hunread] at hr'
  refine ⟨r', hread', hr'.rc.trans hr.rc.symm, hr'.position.trans hr.position.symm,
    hr'.line.trans hr.line.symm, fun hdone => ?_⟩
  obtain ⟨t, ht⟩ := scanText_code (hr'.rc.symm.trans hdone)
  rw [(hr'.code t ht).2, (hr.code t ht).2]

/-- The file of a location with a block. -/
def testConf : Bytes := literal "\x7bcontent_by_php_block\x7bif(1)\x7becho 1;\x7d\n\x7d\x7d"

/-- A block is read from a file that takes several refills. -/
theorem ngxPhpConfReadToken_test :
    let io : ConfIo := { read := fun n offset => some ((testConf.drop offset).take n) }
    -- the buffer ends behind the opening brace of the block
    let conf : ConfFile :=
      { fileSize := testConf.length, buffer := ⟨testConf.take 22, 22, 22⟩, line := 1 }
    ∃ r, ngxPhpConfReadToken io conf = some r ∧ ReadsBlock testConf conf r := by
  intro io conf
  have hover : conf.buffer.Over testConf ngxConfBuffer :=
    ⟨by decide, by decide, by decide, List.suffix_refl _⟩
  obtain ⟨r, hread, hblock, -⟩ := ngxPhpConfReadToken_block testConf io conf
    ⟨fun _ _ _ => rfl, rfl, rfl⟩ (by decide) ⟨hover, rfl⟩
  exact ⟨r, hread, hblock⟩

end NgxPhp
