import NgxPhp.Php.Segments

/-!
# Parsing undoes form encoding

The text `k1=v1&k2=v2` of pairs without separators in them has segments of the
form that the loop can read, and so the loop adds the pairs as they are. What
`return_value` holds then is the last value of each key.
-/

namespace NgxPhp

/-- A key and a value as in percent-encoded form data. -/
structure FormPair where
  key : Bytes
  value : Bytes
  key_ne : key ≠ []
  free : ∀ b ∈ key ++ value, b ≠ ampersand ∧ b ≠ equalsSign ∧ b ≠ 0

/-- The segment of a pair. -/
def FormPair.segment (p : FormPair) : Bytes := p.key ++ equalsSign :: p.value

/-- The pairs as a text. -/
def formEncode (ps : List FormPair) : Bytes := [ampersand].intercalate (ps.map FormPair.segment)

/-- The addition that a pair is meant to cause. -/
def FormPair.addition (p : FormPair) : Addition := ⟨some p.key, p.value⟩

theorem FormPair.free_segment (p : FormPair) : ampersand ∉ p.segment ∧ (0 : UInt8) ∉ p.segment := by
  have hsep : ∀ b ∈ p.segment, b ≠ ampersand ∧ b ≠ 0 := by
    intro b hb
    rcases List.mem_append.mp hb with hk | hv
    · obtain ⟨hamp, -, hzero⟩ := p.free b (List.mem_append_left _ hk)
      exact ⟨hamp, hzero⟩
    · rcases List.mem_cons.mp hv with rfl | hv
      · decide
      · obtain ⟨hamp, -, hzero⟩ := p.free b (List.mem_append_right _ hv)
        exact ⟨hamp, hzero⟩
  exact ⟨fun h => (hsep _ h).1 rfl, fun h => (hsep _ h).2 rfl⟩

theorem FormPair.texts (p : FormPair) :
    keyText p.segment = p.key ∧ valueText p.segment = p.value :=
  keyText_append (fun h => (p.free _ (List.mem_append_left _ h)).2.1 rfl) p.value

theorem FormPair.readsEntry (p : FormPair) (skip : Bool) : ReadsEntry skip p.segment := by
  refine ⟨List.mem_append_right _ List.mem_cons_self, fun _ hh => ?_, fun hm => ?_⟩
  · obtain ⟨b, k, hk⟩ := List.exists_cons_of_ne_nil p.key_ne
    rw [segment, hk] at hh
    have hb : b ∈ p.key ++ p.value := by rw [hk]; exact List.mem_cons_self
    exact (p.free b hb).2.1 (Option.some.inj hh)
  · rw [p.texts.2] at hm
    exact (p.free _ (List.mem_append_right _ (List.mem_of_mem_tail hm))).2.1 rfl

/-- From the start of a segment on, the loop adds the pairs as they are. -/
theorem ArgsState.read_formEncode (p : FormPair) (ps : List FormPair) (skip : Bool)
    (st : ArgsState) (ht : st.text = []) :
    (st.read skip (formEncode (p :: ps))).finish =
      st.added ++ (p :: ps).map FormPair.addition := by
  induction ps generalizing p skip st with
  | nil =>
    rw [formEncode, List.map_singleton, List.intercalate_singleton,
      (p.readsEntry skip).read_eq p.free_segment.1 p.free_segment.2 ht, p.texts.1, p.texts.2]
    rfl
  | cons q ps ih =>
    have htext : formEncode (p :: q :: ps) = p.segment ++ ampersand :: formEncode (q :: ps) := by
      simp [formEncode]
    rw [htext, st.read_append_ampersand, ih q true _ rfl,
      (p.readsEntry skip).read_eq p.free_segment.1 p.free_segment.2 ht, p.texts.1, p.texts.2,
      endValue, List.append_assoc]
    rfl

theorem parseArgs_formEncode (ps : List FormPair) :
    parseArgs (formEncode ps) = ps.map FormPair.addition := by
  cases ps with
  | nil => rfl
  | cons p ps => rw [parseArgs_eq, ArgsState.read_formEncode p ps false {} rfl]; rfl

/-- The additions set the pairs one after the other. -/
theorem foldlM_addition (ps : List FormPair) (a : PhpArray) :
    (ps.map FormPair.addition).foldlM addAssocStringl a =
      some (a.setAll (ps.map fun p => (p.key, p.value))) := by
  induction ps generalizing a with
  | nil => rfl
  | cons p ps ih =>
    rw [List.map_cons, List.foldlM_cons]
    exact ih (a.set p.key p.value)

/-- All four functions make of the text of pairs the array that has the last value of each
key; how the buffers split a body makes no difference. -/
theorem arguments_formEncode (ps : List FormPair) :
    ∃ a : PhpArray,
      (∀ k, a.get? k = OrderedMap.lastValue (ps.map fun p => (p.key, p.value)) k) ∧
      (∀ r : ArgsRequest, r.args = formEncode ps →
        returnValue (ngxQueryArgs r) = some a ∧ returnValue (Ngx.queryArgs r) = some a) ∧
      ∀ (r : ArgsRequest) (bufs : List Bytes), r.discardBody = false →
        r.requestBody = some ⟨false, bufs⟩ → bufs.flatten = formEncode ps →
        returnValue (ngxPostArgs r) = some a ∧ returnValue (Ngx.postArgs r) = some a := by
  have hreturn : returnValue (parseArgs (formEncode ps)) =
      some (OrderedMap.empty.setAll (ps.map fun p => (p.key, p.value))) := by
    rw [parseArgs_formEncode, returnValue, foldlM_addition]
  refine ⟨OrderedMap.empty.setAll (ps.map fun p => (p.key, p.value)), fun k => ?_,
    fun r hr => ?_, fun r bufs hd hb hbufs => ?_⟩
  · rw [OrderedMap.get?_setAll, OrderedMap.get?_empty, Option.or_none]
  · rw [Ngx.queryArgs, ngxQueryArgs_eq, hr]
    exact ⟨hreturn, hreturn⟩
  · have hbody : r.bodyText = formEncode ps := by
      rw [ArgsRequest.bodyText, hb, hd, ← hbufs]
      rfl
    rw [Ngx.postArgs, ngxPostArgs_eq, hbody]
    exact ⟨hreturn, hreturn⟩

/-- `a=&b=2&a=3`, split within a pair. -/
theorem arguments_formEncode_split :
    let bufs : List Bytes := [[97, 61, 38, 98], [], [61, 50, 38, 97, 61, 51]]
    ∃ a : PhpArray, a.get? [97] = some [51] ∧ a.get? [98] = some [50] ∧
      returnValue (ngxQueryArgs ⟨bufs.flatten, false, none⟩) = some a ∧
      returnValue (ngxPostArgs ⟨[], false, some ⟨false, bufs⟩⟩) = some a := by
  intro bufs
  obtain ⟨a, hget, hquery, hpost⟩ := arguments_formEncode
    [⟨[97], [], List.cons_ne_nil _ _, by simp [ampersand, equalsSign]⟩,
      ⟨[98], [50], List.cons_ne_nil _ _, by simp [ampersand, equalsSign]⟩,
      ⟨[97], [51], List.cons_ne_nil _ _, by simp [ampersand, equalsSign]⟩]
  exact ⟨a, hget _, hget _, (hquery _ rfl).1, (hpost _ bufs rfl rfl rfl).1⟩

end NgxPhp
