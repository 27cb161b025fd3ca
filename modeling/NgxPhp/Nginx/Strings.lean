import Mathlib.Data.List.TakeWhile
import NgxPhp.Php.Arguments

/-!
# Names and lists of headers

`ngx_strncasecmp` reads two zero-terminated strings up to a number of bytes, without regard to
case, and stops where both end. So a name that is compared over the length of another one only has
to begin with it. A list of headers is a chain of parts, of which only the first may be empty.
-/

namespace NgxPhp

/-- The bytes of a literal of the source. -/
def literal (s : String) : Bytes := s.toList.map fun c => UInt8.ofNat c.toNat

/-- The bytes of two texts follow each other. -/
theorem literal_append (s t : String) : literal (s ++ t) = literal s ++ literal t := by
  simp [literal]

/-- `ngx_tolower`. -/
def ngxTolower (b : UInt8) : UInt8 := if 65 ≤ b ∧ b ≤ 90 then b ||| 0x20 else b

/-- `ngx_strlow`. -/
def ngxStrlow (s : Bytes) : Bytes := s.map ngxTolower

/-- `ngx_strncasecmp`. Behind its last byte a string has a zero. -/
def ngxStrncasecmp : Bytes → Bytes → Nat → Int
  | _, _, 0 => 0
  | s, t, n + 1 =>
    let c₁ := ngxTolower (s.headD 0)
    let c₂ := ngxTolower (t.headD 0)
    if c₁ = c₂ then
      if c₁ = 0 then 0 else ngxStrncasecmp s.tail t.tail n
    else (c₁.toNat : Int) - c₂.toNat

/-- What `ngx_cpystrn` writes: the string up to its zero or for so many bytes, and a zero behind. -/
def ngxCpystrn (src : Bytes) : Nat → Bytes
  | 0 => []
  | n + 1 => cString (src.take n) ++ [0]

/-- Two names are the same but for case. -/
def SameName (s t : Bytes) : Prop := ngxStrlow s = ngxStrlow t

instance decidableSameName (s t : Bytes) : Decidable (SameName s t) :=
  inferInstanceAs (Decidable (_ = _))

/-- A property of bytes is seen by trying them. -/
theorem forall_byte {p : UInt8 → Prop} (h : ∀ n : Fin 256, p (UInt8.ofFin n)) (b : UInt8) :
    p b := by
  have := h b.toFin
  rwa [UInt8.ofFin_toFin] at this

/-- Only NUL becomes NUL in lower case. -/
theorem ngxTolower_eq_zero (b : UInt8) : ngxTolower b = 0 ↔ b = 0 := by
  revert b
  apply forall_byte
  decide +kernel

@[simp] theorem ngxTolower_zero : ngxTolower 0 = 0 := rfl

/-- What is in lower case stays so. -/
theorem ngxTolower_ngxTolower (b : UInt8) : ngxTolower (ngxTolower b) = ngxTolower b := by
  revert b
  apply forall_byte
  decide +kernel

@[simp] theorem ngxStrlow_nil : ngxStrlow [] = [] := rfl

@[simp] theorem ngxStrlow_cons (b : UInt8) (s : Bytes) :
    ngxStrlow (b :: s) = ngxTolower b :: ngxStrlow s := rfl

@[simp] theorem length_ngxStrlow (s : Bytes) : (ngxStrlow s).length = s.length :=
  List.length_map ..

/-- A text in lower case stays so. -/
theorem ngxStrlow_idem (s : Bytes) : ngxStrlow (ngxStrlow s) = ngxStrlow s := by
  unfold ngxStrlow
  rw [List.map_map]
  exact List.map_congr_left fun b _ => ngxTolower_ngxTolower b

/-- A string without NUL is a C string. -/
theorem cString_of_zero_notMem {s : Bytes} (h : (0 : UInt8) ∉ s) : cString s = s := by
  unfold cString
  rw [List.takeWhile_eq_self_iff]
  intro b hb
  exact decide_eq_true fun hb0 => h (hb0 ▸ hb)

/-- A C string has no NUL. -/
theorem zero_notMem_cString (s : Bytes) : (0 : UInt8) ∉ cString s := by
  intro h
  have := List.mem_takeWhile_imp h
  simp at this

/-- A string is read from its first byte on, unless that is the zero behind it. -/
theorem cString_headD (s : Bytes) :
    cString s = if s.headD 0 = 0 then [] else s.headD 0 :: cString s.tail := by
  unfold cString
  cases s with
  | nil => rfl
  | cons b s => by_cases hb : b = 0 <;> simp [hb]

/-- The comparison sees the strings up to their zeros, and of these so many bytes. -/
theorem ngxStrncasecmp_eq_zero_iff (s t : Bytes) (n : Nat) :
    ngxStrncasecmp s t n = 0 ↔
      (ngxStrlow (cString s)).take n = (ngxStrlow (cString t)).take n := by
  induction n generalizing s t with
  | zero => simp [ngxStrncasecmp]
  | succ n ih =>
    rw [ngxStrncasecmp, cString_headD s, cString_headD t]
    generalize s.headD 0 = b
    generalize t.headD 0 = c
    have hb := ngxTolower_eq_zero b
    have hc := ngxTolower_eq_zero c
    by_cases hlow : ngxTolower b = ngxTolower c
    · rw [if_pos hlow]
      by_cases hb0 : b = 0
      · have hc0 : c = 0 := hc.mp (hlow ▸ hb.mpr hb0)
        rw [if_pos (hb.mpr hb0), if_pos hb0, if_pos hc0]
        exact iff_of_true rfl rfl
      · have hc0 : c ≠ 0 := fun h => hb0 (hb.mp (hlow.trans (hc.mpr h)))
        rw [if_neg fun h => hb0 (hb.mp h), if_neg hb0, if_neg hc0, ih, ngxStrlow_cons,
          ngxStrlow_cons, List.take_succ_cons, List.take_succ_cons, hlow, List.cons_inj_right]
    · rw [if_neg hlow]
      have hne : ((ngxTolower b).toNat : Int) - (ngxTolower c).toNat ≠ 0 := by
        intro h
        exact hlow (UInt8.toNat_inj.mp (by omega))
      refine iff_of_false hne fun h => ?_
      by_cases hb0 : b = 0
      · have hc0 : c ≠ 0 := fun h => hlow (by rw [hb0, h])
        rw [if_pos hb0, if_neg hc0, ngxStrlow_cons, List.take_succ_cons] at h
        cases h
      · by_cases hc0 : c = 0
        · rw [if_neg hb0, if_pos hc0, ngxStrlow_cons, List.take_succ_cons] at h
          cases h
        · rw [if_neg hb0, if_neg hc0, ngxStrlow_cons, ngxStrlow_cons, List.take_succ_cons,
            List.take_succ_cons] at h
          exact hlow (List.cons.inj h).1

/-- A C string is put into lower case up to its NUL. -/
theorem ngxStrlow_cString (s : Bytes) : ngxStrlow (cString s) = cString (ngxStrlow s) := by
  unfold ngxStrlow cString
  rw [List.takeWhile_map]
  have hzero : ((fun b : UInt8 => decide (b ≠ 0)) ∘ ngxTolower) = fun b => decide (b ≠ 0) := by
    funext b
    exact decide_eq_decide.mpr (not_congr (ngxTolower_eq_zero b))
  rw [hzero]

/-- The comparison does not tell names apart that are the same but for case. -/
theorem SameName.ngxStrncasecmp {s s' : Bytes} (h : SameName s s') (t : Bytes) (n : Nat) :
    ngxStrncasecmp s t n = 0 ↔ ngxStrncasecmp s' t n = 0 := by
  rw [ngxStrncasecmp_eq_zero_iff, ngxStrncasecmp_eq_zero_iff, ngxStrlow_cString s,
    ngxStrlow_cString s', h]

/-- A name that is compared over the length of another one has to begin with it. -/
theorem ngxStrncasecmp_length_iff {s t : Bytes} (ht : (0 : UInt8) ∉ t) :
    ngxStrncasecmp s t t.length = 0 ↔ ngxStrlow t <+: ngxStrlow (cString s) := by
  rw [ngxStrncasecmp_eq_zero_iff, cString_of_zero_notMem ht,
    List.take_of_length_le (Nat.le_of_eq (length_ngxStrlow t)), List.prefix_iff_eq_take,
    length_ngxStrlow, eq_comm]

/-- The comparison does not depend on the order. -/
theorem ngxStrncasecmp_comm (s t : Bytes) (n : Nat) :
    ngxStrncasecmp s t n = 0 ↔ ngxStrncasecmp t s n = 0 := by
  rw [ngxStrncasecmp_eq_zero_iff, ngxStrncasecmp_eq_zero_iff, eq_comm]

/-! ## Lists of headers -/

/-- `ngx_table_elt_t`. -/
structure TableElt where
  key : Bytes
  value : Bytes
  deriving DecidableEq, Repr

/-- `h->lowcase_key`. -/
def TableElt.lowcaseKey (h : TableElt) : Bytes := ngxStrlow h.key

/-- The value of the last header of a name. -/
def lastNamed (hs : List TableElt) (name : Bytes) : Option Bytes :=
  ((hs.filter fun h => SameName h.key name).getLast?).map TableElt.value

/-- `ngx_list_t` with its parts. A part behind the first one is made for an element that is pushed,
and is given as that element and those behind it. -/
structure NgxList (α : Type*) where
  nalloc : Nat
  part : List α := []
  next : List (α × List α) := []
  deriving DecidableEq, Repr

/-- The loop over the elements of a list, from part to part. -/
def NgxList.walk {α β : Type*} (l : NgxList α) (f : β → α → β) (init : β) : β :=
  l.next.foldl (fun acc p => p.2.foldl f (f acc p.1)) (l.part.foldl f init)

/-- The elements in the order in which a walk over the parts visits them. -/
def NgxList.elements {α : Type*} (l : NgxList α) : List α :=
  l.part ++ l.next.flatMap fun p => p.1 :: p.2

/-- A walk does not see where the parts end. -/
theorem NgxList.walk_eq_foldl {α β : Type*} (l : NgxList α) (f : β → α → β) (init : β) :
    l.walk f init = l.elements.foldl f init := by
  unfold walk elements
  rw [List.foldl_append]
  generalize l.part.foldl f init = acc
  induction l.next generalizing acc with
  | nil => rfl
  | cons p ps ih =>
    rw [List.foldl_cons, List.flatMap_cons, List.foldl_append, List.foldl_cons, ih]

/-- A part that is made for an element; `allocated` tells what the pool returns. -/
def NgxList.newPart {α : Type*} (l : NgxList α) (allocated : Bool) : Option (α → NgxList α) :=
  if allocated then some fun e => { l with next := l.next ++ [(e, [])] } else none

/-- `ngx_list_push`: what the list becomes when the element that is returned is assigned. -/
def NgxList.push {α : Type*} (l : NgxList α) (allocated : Bool) : Option (α → NgxList α) :=
  match l.next.getLast? with
  | none =>
    if l.part.length = l.nalloc then l.newPart allocated
    else some fun e => { l with part := l.part ++ [e] }
  | some last =>
    if last.2.length + 1 = l.nalloc then l.newPart allocated
    else some fun e => { l with next := l.next.dropLast ++ [(last.1, last.2 ++ [e])] }

/-- An element that is pushed is the last one. -/
theorem NgxList.elements_push {α : Type*} {l : NgxList α} {allocated : Bool} {place : α → NgxList α}
    (h : l.push allocated = some place) (e : α) : (place e).elements = l.elements ++ [e] := by
  have hnew (h : l.newPart allocated = some place) : (place e).elements = l.elements ++ [e] := by
    unfold newPart at h
    split at h
    · cases h
      simp [elements]
    · cases h
  unfold push at h
  split at h
  next hnext =>
    have hnil : l.next = [] := List.getLast?_eq_none_iff.mp hnext
    split at h
    · exact hnew h
    · cases h
      simp [elements, hnil]
  next last hlast =>
    split at h
    · exact hnew h
    · obtain ⟨init, hinit⟩ := List.getLast?_eq_some_iff.mp hlast
      cases h
      simp [elements, hinit]

/-! ## Formats -/

/-- A zero-terminated string, without its zero. -/
@[ext] structure CString where
  text : Bytes
  zero_notMem : (0 : UInt8) ∉ text

/-- What stands behind the format in a call of `ngx_sprintf`: an `ngx_str_t`, a zero-terminated
string, or a length. -/
inductive SprintfArg
  | str (s : Bytes)
  | chars (s : CString)
  | size (n : Nat)

/-- A piece of a format with its arguments: text, `%V`, `%s` or `%*s`. -/
inductive FormatPiece
  | text (s : Bytes)
  | str (s : Bytes)
  | chars (s : CString)
  | sized (n : Nat) (s : CString)

namespace FormatPiece

def format : FormatPiece → Bytes
  | .text s => s
  | .str _ => literal "%V"
  | .chars _ => literal "%s"
  | .sized _ _ => literal "%*s"

def args : FormatPiece → List SprintfArg
  | .text _ => []
  | .str s => [.str s]
  | .chars s => [.chars s]
  | .sized n s => [.size n, .chars s]

def output : FormatPiece → Bytes
  | .text s => s
  | .str s => s
  | .chars s => s.text
  | .sized n s => s.text.take n

/-- The text has no percent sign, and a string that is cut off is as long as that. -/
def Plain : FormatPiece → Prop
  | .text s => 37 ∉ s
  | .sized n s => n ≤ s.text.length
  | _ => True

instance decidablePlain : DecidablePred Plain
  | .text s => inferInstanceAs (Decidable (37 ∉ s))
  | .sized n s => inferInstanceAs (Decidable (n ≤ s.text.length))
  | .str _ => isTrue trivial
  | .chars _ => isTrue trivial

end FormatPiece

/-- What is documented of `ngx_sprintf`: it writes the pieces of the format one after the other,
and no zero behind them. -/
def WritesPieces (sprintf : Bytes → List SprintfArg → Bytes) : Prop :=
  ∀ ps : List FormatPiece, (∀ p ∈ ps, p.Plain) →
    sprintf (ps.flatMap (·.format)) (ps.flatMap (·.args)) = ps.flatMap (·.output)

/-- Such a function, which knows no other conversions. -/
def ngxSprintf : Bytes → List SprintfArg → Bytes
  | 37 :: 86 :: fmt, .str s :: args => s ++ ngxSprintf fmt args
  | 37 :: 115 :: fmt, .chars s :: args => s.text ++ ngxSprintf fmt args
  | 37 :: 42 :: 115 :: fmt, .size n :: .chars s :: args => s.text.take n ++ ngxSprintf fmt args
  | b :: fmt, args => b :: ngxSprintf fmt args
  | [], _ => []

/-- Text in front of the first `%` is copied. -/
theorem ngxSprintf_text {s : Bytes} (hs : 37 ∉ s) (fmt : Bytes) (args : List SprintfArg) :
    ngxSprintf (s ++ fmt) args = s ++ ngxSprintf fmt args := by
  induction s with
  | nil => rfl
  | cons b s ih =>
    rw [List.mem_cons, not_or] at hs
    have hb : b ≠ 37 := fun h => hs.1 h.symm
    rw [List.cons_append, List.cons_append, ← ih hs.2, ngxSprintf]
    · exact fun _ _ _ _ h _ => hb h
    · exact fun _ _ _ _ h _ => hb h
    · exact fun _ _ _ _ _ h _ => hb h

/-- `ngx_sprintf` writes one piece after the other. -/
theorem ngxSprintf_writesPieces : WritesPieces ngxSprintf := by
  intro ps
  induction ps with
  | nil => intro; rfl
  | cons p ps ih =>
    intro h
    have hrest := ih fun q hq => h q (List.mem_cons_of_mem _ hq)
    have hp := h p List.mem_cons_self
    rw [List.flatMap_cons, List.flatMap_cons, List.flatMap_cons, ← hrest]
    cases p with
    | text s => exact ngxSprintf_text hp _ _
    | str s => rfl
    | chars s => rfl
    | sized n s => rfl

end NgxPhp
