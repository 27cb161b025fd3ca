import Mathlib.Data.List.Basic

/-!
# Values written one after another

A reader takes one value from the front of a stream and says what is left behind it. It reads
what a writer writes if it finds every value again, whatever is behind the value. Such readers
can be put one behind another, repeated, and given the rest of a value to read once its first
part is known; and a stream of such values can be taken apart in one way only.
-/

namespace SelfDelimiting

variable {α β γ δ : Type*}

/-- A value from the front of a stream, and what is left. -/
abbrev PrefixReader (α β : Type*) := List α → Option (β × List α)

/-- `read` finds every value with `P` again that `write` has written. -/
def Reads (read : PrefixReader α β) (write : β → List α) (P : β → Prop) : Prop :=
  ∀ x, P x → ∀ rest, read (write x ++ rest) = some (x, rest)

/-- One value, and behind it one that is read as the first says. -/
def readThen (first : PrefixReader α β) (second : β → PrefixReader α γ) (make : β → γ → Option δ) :
    PrefixReader α δ := fun s =>
  match first s with
  | none => none
  | some (x, t) =>
    match second x t with
    | none => none
    | some (y, u) => (make x y).map fun z => (z, u)

/-- `n` values. -/
def readMany (read : PrefixReader α β) : Nat → PrefixReader α (List β)
  | 0, s => some ([], s)
  | n + 1, s =>
    match read s with
    | none => none
    | some (x, t) => (readMany read n t).map fun p => (x :: p.1, p.2)

/-- All the values of a stream, at most `n`. -/
def readAll (read : PrefixReader α β) : Nat → List α → Option (List β)
  | _, [] => some []
  | 0, _ :: _ => none
  | n + 1, a :: s =>
    match read (a :: s) with
    | none => none
    | some (x, t) => (readAll read n t).map fun xs => x :: xs

/-- What is read decides what is read next. -/
def readBind (read : PrefixReader α β) (next : β → PrefixReader α γ) : PrefixReader α γ := fun s =>
  match read s with
  | none => none
  | some (x, t) => next x t

/-- Nothing is read. -/
def readPure (x : β) : PrefixReader α β := fun s => some (x, s)

/-- These symbols. -/
def readExact [DecidableEq α] (expected : List α) : PrefixReader α Unit := fun s =>
  if s.take expected.length = expected then some ((), s.drop expected.length) else none

/-- `n` symbols. -/
def readCount (n : Nat) : PrefixReader α (List α) := fun s =>
  if n ≤ s.length then some (s.take n, s.drop n) else none

section Reads

variable {read : PrefixReader α β} {write : β → List α} {P : β → Prop}

/-- What is expected is read in front of anything. -/
theorem readExact_append [DecidableEq α] (expected rest : List α) :
    readExact expected (expected ++ rest) = some ((), rest) := by
  rw [readExact, List.take_left, if_pos rfl, List.drop_left]

/-- As many symbols as were counted are read. -/
theorem readCount_append (s rest : List α) : readCount s.length (s ++ rest) = some (s, rest) := by
  rw [readCount, if_pos (by rw [List.length_append]; omega), List.take_left, List.drop_left]

/-- A value whose second part is read as its first part says. -/
theorem Reads.readThen {first : PrefixReader α β} {second : β → PrefixReader α γ}
    {make : β → γ → Option δ} {write₁ : β → List α} {P₁ : β → Prop} {Q : δ → Prop} (head : δ → β)
    (tail : δ → γ) (write₂ : γ → List α) (hfirst : Reads first write₁ P₁)
    (hhead : ∀ z, Q z → P₁ (head z))
    (hsecond : ∀ z, Q z → ∀ rest, second (head z) (write₂ (tail z) ++ rest) = some (tail z, rest))
    (hmake : ∀ z, Q z → make (head z) (tail z) = some z) :
    Reads (readThen first second make) (fun z => write₁ (head z) ++ write₂ (tail z)) Q := by
  intro z hz rest
  rw [SelfDelimiting.readThen, List.append_assoc, hfirst _ (hhead z hz)]
  dsimp only
  rw [hsecond z hz]
  dsimp only
  rw [hmake z hz]
  rfl

/-- As many values as were written. -/
theorem Reads.many (h : Reads read write P) {xs : List β} (hxs : ∀ x ∈ xs, P x) (rest : List α) :
    readMany read xs.length (xs.flatMap write ++ rest) = some (xs, rest) := by
  induction xs with
  | nil => rfl
  | cons x xs ih =>
    rw [List.forall_mem_cons] at hxs
    rw [List.flatMap_cons, List.append_assoc, List.length_cons, readMany, h x hxs.1]
    dsimp only
    rw [ih hxs.2]
    rfl

/-- A stream of texts that are not empty, each of which is read as its value, is taken apart into
these values. -/
theorem readAll_flatMap {ι : Type*} {write : ι → List α} {f : ι → β} {is : List ι}
    (h : ∀ i ∈ is, write i ≠ [] ∧ ∀ rest, read (write i ++ rest) = some (f i, rest)) {n : Nat}
    (hn : is.length ≤ n) : readAll read n (is.flatMap write) = some (is.map f) := by
  induction is generalizing n with
  | nil => cases n <;> rfl
  | cons i is ih =>
    rw [List.forall_mem_cons] at h
    obtain ⟨⟨hne, hi⟩, his⟩ := h
    obtain ⟨n, rfl⟩ := Nat.exists_eq_add_one_of_ne_zero (show n ≠ 0 by
      rw [List.length_cons] at hn
      omega)
    obtain ⟨a, s, hcons⟩ := List.exists_cons_of_ne_nil
      (show write i ++ is.flatMap write ≠ [] from
        fun hnil => hne (List.append_eq_nil_iff.mp hnil).1)
    have hread := hi (is.flatMap write)
    rw [List.flatMap_cons, hcons] at *
    rw [readAll, hread]
    dsimp only
    rw [ih his (by rw [List.length_cons] at hn; omega)]
    rfl

/-- A stream of values that are not empty is taken apart into these values. -/
theorem Reads.all (h : Reads read write P) {xs : List β} (hxs : ∀ x ∈ xs, P x ∧ write x ≠ [])
    {n : Nat} (hn : xs.length ≤ n) : readAll read n (xs.flatMap write) = some xs := by
  have hall := readAll_flatMap (f := id) (fun x hx => ⟨(hxs x hx).2, h x (hxs x hx).1⟩) hn
  rwa [List.map_id] at hall

/-- What holds of every value that is read holds of all of them. -/
theorem forall_mem_of_readAll {read : PrefixReader α β} {P : β → Prop}
    (h : ∀ s x t, read s = some (x, t) → P x) {n : Nat} {s : List α} {xs : List β}
    (hread : readAll read n s = some xs) : ∀ x ∈ xs, P x := by
  induction n generalizing s xs with
  | zero =>
    cases s with
    | nil =>
      obtain rfl := Option.some.inj hread
      exact nofun
    | cons a s => cases hread
  | succ n ih =>
    cases s with
    | nil =>
      obtain rfl := Option.some.inj hread
      exact nofun
    | cons a s =>
      rw [readAll] at hread
      split at hread
      · cases hread
      next x t hx =>
        obtain ⟨ys, hys, rfl⟩ := Option.map_eq_some_iff.mp hread
        rw [List.forall_mem_cons]
        exact ⟨h _ _ _ hx, ih hys⟩

/-- The length of a stream bounds the number of its values. -/
theorem length_le_of_ne_nil {xs : List β} (hxs : ∀ x ∈ xs, write x ≠ []) :
    xs.length ≤ (xs.flatMap write).length := by
  induction xs with
  | nil => exact Nat.zero_le _
  | cons x xs ih =>
    rw [List.forall_mem_cons] at hxs
    have hpos := List.length_pos_iff.mpr hxs.1
    have hle := ih hxs.2
    rw [List.flatMap_cons, List.length_append, List.length_cons]
    omega

end Reads

/-! ## Readers that do not look further than they read -/

section Stable

/-- More behind what is read does not change it. -/
def Stable (read : PrefixReader α β) : Prop :=
  ∀ ⦃s x t⦄, read s = some (x, t) → ∀ u, read (s ++ u) = some (x, t ++ u)

/-- A reading in two parts is one part and then the other. -/
theorem readBind_eq_some {read : PrefixReader α β} {next : β → PrefixReader α γ} {s : List α}
    {r : γ × List α} :
    readBind read next s = some r ↔ ∃ x t, read s = some (x, t) ∧ next x t = some r := by
  unfold readBind
  constructor
  · intro h
    split at h
    · cases h
    next x t hread => exact ⟨x, t, hread, h⟩
  · rintro ⟨x, t, hread, hnext⟩
    rw [hread]
    exact hnext

/-- A reading in two parts goes on behind the first. -/
theorem readBind_of_some {read : PrefixReader α β} {next : β → PrefixReader α γ} {s t : List α}
    {x : β} (h : read s = some (x, t)) : readBind read next s = next x t := by
  rw [readBind, h]

theorem stable_readPure (x : β) : Stable (readPure x : PrefixReader α β) := by
  intro s y t h u
  obtain ⟨rfl, rfl⟩ := Prod.mk.inj (Option.some.inj h)
  rfl

/-- What is behind a counted part does not change how it is read. -/
theorem stable_readCount (n : Nat) : Stable (readCount n : PrefixReader α (List α)) := by
  intro s x t h u
  unfold readCount at h ⊢
  split at h
  next hle =>
    obtain ⟨rfl, rfl⟩ := Prod.mk.inj (Option.some.inj h)
    rw [if_pos (by rw [List.length_append]; omega), List.take_append_of_le_length hle,
      List.drop_append_of_le_length hle]
  · cases h

/-- Stable readers one behind the other are stable. -/
theorem Stable.bind {read : PrefixReader α β} {next : β → PrefixReader α γ} (hread : Stable read)
    (hnext : ∀ x, Stable (next x)) : Stable (readBind read next) := by
  intro s y t h u
  obtain ⟨x, v, hx, hy⟩ := readBind_eq_some.mp h
  rw [readBind_of_some (hread hx u)]
  exact hnext x hy u

/-- A stable reader stays so under a function of its value. -/
theorem Stable.map {read : PrefixReader α β} (hread : Stable read) (f : β → γ) :
    Stable fun s => (read s).map fun p => (f p.1, p.2) := by
  intro s y t h u
  obtain ⟨⟨x, v⟩, hx, hy⟩ := Option.map_eq_some_iff.mp h
  obtain ⟨rfl, rfl⟩ := Prod.mk.inj hy
  dsimp only
  rw [hread hx u]
  rfl

end Stable

/-! ## Sessions -/

section Session

variable {σ ι κ ρ ω : Type*}

/-- The answers of a server that is called directly. -/
def direct (serve : σ → κ → ρ × σ) : σ → List κ → List ρ
  | _, [] => []
  | s, c :: cs => (serve s c).1 :: direct serve (serve s c).2 cs

/-- The answers of a server that reads its calls from a stream and writes its answers to another
one: `receive` takes an answer, and what it leaves on the stream is there for the next one. -/
def overStream (send : ι → List α) (read : PrefixReader α κ) (serve : σ → κ → ρ × σ)
    (reply : ρ → List α) (receive : ι → PrefixReader α ω) : σ → List α → List ι → Option (List ω)
  | _, _, [] => some []
  | s, left, i :: is =>
    match read (send i) with
    | none => none
    | some (c, _) =>
      match receive i (left ++ reply (serve s c).1) with
      | none => none
      | some (x, left) =>
        (overStream send read serve reply receive (serve s c).2 left is).map fun xs => x :: xs

/-- If the server finds the calls again and every answer is received whole, the session is that
of direct calls. -/
theorem overStream_eq {call : ι → κ} {send : ι → List α} {read : PrefixReader α κ}
    {serve : σ → κ → ρ × σ} {reply : ρ → List α} {receive : ι → PrefixReader α ω}
    {value : ι → ρ → ω}
    {ok : ι → ρ → Prop}
    (hreceive : ∀ i v, ok i v → receive i (reply v) = some (value i v, []))
    (s : σ) (is : List ι) (his : ∀ i ∈ is, read (send i) = some (call i, []))
    (hok : List.Forall₂ ok is (direct serve s (is.map call))) :
    overStream send read serve reply receive s [] is =
      some (List.zipWith value is (direct serve s (is.map call))) := by
  induction is generalizing s with
  | nil => rfl
  | cons i is ih =>
    rw [List.forall_mem_cons] at his
    rw [List.map_cons, direct] at hok ⊢
    obtain ⟨hfirst, hrest⟩ := List.forall₂_cons.mp hok
    rw [overStream, his.1]
    dsimp only
    rw [List.nil_append, hreceive i _ hfirst]
    dsimp only
    rw [ih _ his.2 hrest]
    rfl

/-- A server gives a reply for each command. -/
theorem length_direct (serve : σ → κ → ρ × σ) (s : σ) (cs : List κ) :
    (direct serve s cs).length = cs.length := by
  induction cs generalizing s with
  | nil => rfl
  | cons c cs ih => rw [direct, List.length_cons, ih, List.length_cons]

/-- Answers of which the calls do not matter. -/
theorem zipWith_answers (f : ρ → ω) {is : List ι} {vs : List ρ} (h : vs.length = is.length) :
    List.zipWith (fun _ v => f v) is vs = vs.map f := by
  induction is generalizing vs with
  | nil =>
    obtain rfl := List.length_eq_zero_iff.mp h
    rfl
  | cons i is ih =>
    cases vs with
    | nil => cases h
    | cons v vs => exact congrArg _ (ih (Nat.succ.inj h))

end Session

end SelfDelimiting
