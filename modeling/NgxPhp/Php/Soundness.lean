import NgxPhp.Php.Segments

/-!
# Where the entries of the arguments come from

Each ampersand adds one entry and the end of the text at most one, so that the
`i`-th entry is the one added for the `i`-th segment. It is the key and the value
of that segment exactly if all segments have the form that the loop can read.
-/

namespace NgxPhp

/-- Each entry is the key and the value of the segment it was added for. -/
def SoundFor (ws : List Bytes) (es : List Addition) : Prop :=
  ∀ (i : Nat) (e : Addition), es[i]? = some e → ∃ w, ws[i]? = some w ∧ IsEntry w e

/-- Each entry comes from its own segment of the text. -/
def Sound (s : Bytes) (es : List Addition) : Prop := SoundFor (s.splitOn ampersand) es

/-- All segments but the last are read as their key and value; so is the last, or it has
no equals sign that is looked at. -/
def CleanSegments (skip : Bool) : List Bytes → Prop
  | [] => True
  | [w] => ReadsEntry skip w ∨ equalsSign ∉ looked skip w
  | w :: ws => ReadsEntry skip w ∧ CleanSegments true ws

instance decidableCleanSegments : ∀ skip ws, Decidable (CleanSegments skip ws)
  | _, [] => inferInstanceAs (Decidable True)
  | _, [_] => inferInstanceAs (Decidable (_ ∨ _))
  | _, _ :: w :: ws =>
    have := decidableCleanSegments true (w :: ws)
    inferInstanceAs (Decidable (_ ∧ _))

/-- The text is one that the loop can read. -/
def Clean (s : Bytes) : Prop := CleanSegments false (s.splitOn ampersand)

instance decidableClean (s : Bytes) : Decidable (Clean s) :=
  decidableCleanSegments false (s.splitOn ampersand)

theorem soundFor_nil (ws : List Bytes) : SoundFor ws [] := fun _ _ h => nomatch h

theorem soundFor_cons {w : Bytes} {ws : List Bytes} {e : Addition} {es : List Addition} :
    SoundFor (w :: ws) (e :: es) ↔ IsEntry w e ∧ SoundFor ws es := by
  constructor
  · intro h
    refine ⟨?_, fun i e' he' => h (i + 1) e' he'⟩
    obtain ⟨w', hw', he⟩ := h 0 e rfl
    obtain rfl := Option.some.inj hw'
    exact he
  · rintro ⟨he, hes⟩ i e' he'
    cases i with
    | zero =>
      obtain rfl := Option.some.inj he'
      exact ⟨w, rfl, he⟩
    | succ i => exact hes i e' he'

theorem cleanSegments_cons {skip : Bool} {w : Bytes} {ws : List Bytes} (h : ws ≠ []) :
    CleanSegments skip (w :: ws) ↔ ReadsEntry skip w ∧ CleanSegments true ws := by
  obtain ⟨w', ws, rfl⟩ := List.exists_cons_of_ne_nil h
  rfl

/-- What the segments of a text add, from the start of a segment on. -/
theorem ArgsState.read_sound_iff (s : Bytes) (skip : Bool) (st : ArgsState)
    (h0 : (0 : UInt8) ∉ s) (ht : st.text = []) (hp : st.parsingValue = false) :
    ∃ es, (st.read skip s).finish = st.added ++ es ∧
      es.length ≤ (s.splitOn ampersand).length ∧
      (s.splitOn ampersand).length ≤ es.length + 1 ∧
      (SoundFor (s.splitOn ampersand) es ↔ CleanSegments skip (s.splitOn ampersand)) := by
  induction s using segments_induction generalizing skip st with
  | last w ha =>
    rw [List.splitOn_eq_singleton ha]
    have hadded : (st.read skip w).added = st.added := (st.read_fields ha).1
    by_cases hl : equalsSign ∈ looked skip w
    · refine ⟨[⟨(st.read skip w).key, (st.read skip w).text⟩], ?_, Nat.le_refl _,
        Nat.le_succ _, ?_⟩
      · rw [finish, if_pos ((ArgsState.read_parsingValue ha hp).mpr hl), hadded]
      · rw [soundFor_cons, ArgsState.isEntry_read_iff ha h0 ht]
        exact ⟨fun h => Or.inl h.1, fun h => ⟨h.resolve_right (not_not_intro hl), soundFor_nil _⟩⟩
    · refine ⟨[], ?_, Nat.zero_le _, Nat.le_refl _, ?_⟩
      · rw [finish, if_neg (mt (ArgsState.read_parsingValue ha hp).mp hl), hadded, List.append_nil]
      · exact ⟨fun _ => Or.inr hl, fun _ => soundFor_nil _⟩
  | more w s ha ih =>
    have h0w : (0 : UInt8) ∉ w := fun h => h0 (List.mem_append_left _ h)
    have h0s : (0 : UInt8) ∉ s := fun h => h0 (List.mem_append_right _ (List.mem_cons_of_mem _ h))
    obtain ⟨es, hfinish, hle, hge, hiff⟩ := ih true (st.read skip w).endValue h0s rfl rfl
    refine ⟨⟨(st.read skip w).key, (st.read skip w).text⟩ :: es, ?_, ?_⟩
    · rw [st.read_append_ampersand, hfinish, endValue, (st.read_fields ha).1, List.append_assoc]
      rfl
    · rw [List.splitOn_append_cons_self_of_not_mem ha, List.length_cons, List.length_cons,
        soundFor_cons, cleanSegments_cons (List.splitOn_ne_nil _ _),
        ArgsState.isEntry_read_iff ha h0w ht, hiff]
      exact ⟨Nat.succ_le_succ hle, Nat.succ_le_succ hge, Iff.rfl⟩

/-- Each ampersand adds one entry, and the end of the text at most one. -/
theorem parseArgs_length {s : Bytes} (h0 : (0 : UInt8) ∉ s) :
    (parseArgs s).length ≤ (s.splitOn ampersand).length ∧
      (s.splitOn ampersand).length ≤ (parseArgs s).length + 1 := by
  obtain ⟨es, hfinish, hle, hge, -⟩ := ArgsState.read_sound_iff s false {} h0 rfl rfl
  rw [parseArgs_eq, hfinish]
  exact ⟨hle, hge⟩

theorem parseArgs_sound_iff {s : Bytes} (h0 : (0 : UInt8) ∉ s) :
    Sound s (parseArgs s) ↔ Clean s := by
  obtain ⟨es, hfinish, -, -, hiff⟩ := ArgsState.read_sound_iff s false {} h0 rfl rfl
  rw [parseArgs_eq, hfinish]
  exact hiff

/-- The entries of all four functions come from their own segments exactly if the text is
one that the loop can read. -/
theorem arguments_sound_iff {r : ArgsRequest} (hargs : (0 : UInt8) ∉ r.args)
    (hbody : (0 : UInt8) ∉ r.bodyText) :
    (Sound r.args (ngxQueryArgs r) ↔ Clean r.args) ∧
      (Sound r.args (Ngx.queryArgs r) ↔ Clean r.args) ∧
      (Sound r.bodyText (ngxPostArgs r) ↔ Clean r.bodyText) ∧
      (Sound r.bodyText (Ngx.postArgs r) ↔ Clean r.bodyText) := by
  rw [Ngx.queryArgs, Ngx.postArgs, ngxQueryArgs_eq, ngxPostArgs_eq]
  exact ⟨parseArgs_sound_iff hargs, parseArgs_sound_iff hargs, parseArgs_sound_iff hbody,
    parseArgs_sound_iff hbody⟩

/-- The body `a=1&b=` in two buffers. -/
theorem arguments_sound_iff_body :
    let r : ArgsRequest := ⟨[], false, some ⟨false, [[97, 61, 49, 38], [98, 61]]⟩⟩
    Sound r.bodyText (ngxPostArgs r) ∧ Sound r.bodyText (Ngx.postArgs r) :=
  have h := arguments_sound_iff
    (r := ⟨[], false, some ⟨false, [[97, 61, 49, 38], [98, 61]]⟩⟩) (by decide) (by decide)
  ⟨h.2.2.1.mpr (by decide), h.2.2.2.mpr (by decide)⟩

/-- In `a=1&b&c=2` the segment `b` is added under the key of the segment before it. -/
theorem arguments_not_sound :
    let s : Bytes := [97, 61, 49, 38, 98, 38, 99, 61, 50]
    let r : ArgsRequest := ⟨s, false, some ⟨false, [s]⟩⟩
    (0 : UInt8) ∉ s ∧ ¬ Sound s (ngxQueryArgs r) ∧ ¬ Sound s (Ngx.queryArgs r) ∧
      ¬ Sound s (ngxPostArgs r) ∧ ¬ Sound s (Ngx.postArgs r) := by
  intro s r
  have hstale : ∀ es, es[1]? = some ⟨some [97], [98]⟩ → ¬ Sound s es := by
    intro es hes h
    obtain ⟨w, hw, he⟩ := h 1 _ hes
    obtain rfl : w = [98] := Option.some.inj (hw.symm.trans (by decide))
    exact absurd he (by decide)
  exact ⟨by decide, hstale _ (by decide), hstale _ (by decide), hstale _ (by decide),
    hstale _ (by decide)⟩

end NgxPhp
