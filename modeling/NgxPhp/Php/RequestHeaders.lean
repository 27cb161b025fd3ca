import NgxPhp.Php.Cookie

/-!
# Headers of the request

`ngx_request_headers` and the method of the class compare every header with each name that they
know, over the length of the header's own name. The two differ in the names only.
-/

namespace NgxPhp

/-- The names that `ngx_request::headers` knows, in the order of the comparisons, with the keys of
the array. -/
def methodHeaders : List (Bytes × Bytes) :=
  [(literal "content-type", literal "content_type"),
    (literal "content-length", literal "content_length"),
    (literal "accept", literal "accept"),
    (literal "host", literal "host"),
    (literal "connection", literal "connection"),
    (literal "user-agent", literal "user_agent"),
    (literal "accept-encoding", literal "accept_encoding"),
    (literal "accept-language", literal "accept_language"),
    (literal "referer", literal "referer"),
    (literal "pragma", literal "pragma"),
    (literal "cache-control", literal "cache_control"),
    (literal "upgrade-insecure-requests", literal "upgrade_insecure_requests"),
    (literal "cookie", literal "cookie")]

/-- The names that `ngx_request_headers` knows. -/
def functionHeaders : List (Bytes × Bytes) :=
  methodHeaders ++
    [(literal "authorization", literal "authorization"),
      (literal "x-csrf-token", literal "x_csrf_token"),
      (literal "x-xsrf-token", literal "x_xsrf_token"),
      (literal "x-http-method-override", literal "x_http_method_override")]

/-- The calls of `add_assoc_stringl` for one header. -/
def headerEntries (table : List (Bytes × Bytes)) (h : TableElt) : List (Bytes × Bytes) :=
  (table.filter fun p => h.TakenFor p.1).map fun p => (p.2, h.value)

/-- The loop that the two functions share. -/
def headersArray (table : List (Bytes × Bytes)) (headers : NgxList TableElt) : PhpArray :=
  headers.walk (fun a h => a.setAll (headerEntries table h)) .empty

/-- `PHP_FUNCTION(ngx_request_headers)`, on `r->headers_in.headers`. -/
def ngxRequestHeaders (headers : NgxList TableElt) : PhpArray :=
  headersArray functionHeaders headers

/-- `PHP_METHOD(ngx_request, headers)`. -/
def NgxRequest.headers (headers : NgxList TableElt) : PhpArray :=
  headersArray methodHeaders headers

/-- A name with its hyphens written as underscores. -/
def underscored (name : Bytes) : Bytes := name.map fun b => if b = 45 then 95 else b

/-! ## The array of the last headers that are taken for a name -/

/-- What the array is made with. -/
structure NameTable (table : List (Bytes × Bytes)) : Prop where
  keys : ∀ p ∈ table, p.2 = underscored p.1
  nodup : (table.map Prod.snd).Nodup
  lower : ∀ p ∈ table, ngxStrlow p.1 = p.1
  zero : ∀ p ∈ table, 0 ∉ p.1

theorem nameTable_functionHeaders : NameTable functionHeaders :=
  ⟨by decide, by decide, by decide, by decide⟩

theorem nameTable_methodHeaders : NameTable methodHeaders :=
  ⟨by decide, by decide, by decide, by decide⟩

theorem headersArray_eq (table : List (Bytes × Bytes)) (headers : NgxList TableElt) :
    headersArray table headers =
      OrderedMap.empty.setAll (headers.elements.flatMap (headerEntries table)) := by
  unfold headersArray
  rw [NgxList.walk_eq_foldl, OrderedMap.foldl_setAll]

theorem mem_headerEntries_iff {table : List (Bytes × Bytes)} (ht : NameTable table) {h : TableElt}
    {p : Bytes × Bytes} (hp : p ∈ table) :
    p.2 ∈ (headerEntries table h).map Prod.fst ↔ h.TakenFor p.1 := by
  unfold headerEntries
  rw [List.map_map, List.mem_map]
  constructor
  · rintro ⟨q, hq, hqp⟩
    obtain ⟨hqt, htaken⟩ := List.mem_filter.mp hq
    have hpq : q = p := List.inj_on_of_nodup_map ht.nodup hqt hp hqp
    exact of_decide_eq_true (hpq ▸ htaken)
  · intro htaken
    exact ⟨p, List.mem_filter.mpr ⟨hp, decide_eq_true htaken⟩, rfl⟩

theorem lastValue_headerEntries {table : List (Bytes × Bytes)} (ht : NameTable table) (h : TableElt)
    {p : Bytes × Bytes} (hp : p ∈ table) :
    OrderedMap.lastValue (headerEntries table h) p.2 =
      if h.TakenFor p.1 then some h.value else none := by
  have hmem := mem_headerEntries_iff ht (h := h) hp
  have hmap : headerEntries table h =
      ((headerEntries table h).map Prod.fst).map fun k => (k, h.value) := by
    unfold headerEntries
    rw [List.map_map, List.map_map]
    rfl
  rw [hmap, OrderedMap.lastValue_map_const]
  by_cases htaken : h.TakenFor p.1
  · rw [if_pos htaken, if_pos (hmem.mpr htaken)]
  · rw [if_neg htaken, if_neg fun h => htaken (hmem.mp h)]

/-- Under the key of a name the array has the value of the last header that is taken for it. -/
theorem get?_headersArray {table : List (Bytes × Bytes)} (ht : NameTable table)
    (headers : NgxList TableElt) {p : Bytes × Bytes} (hp : p ∈ table) :
    (headersArray table headers).get? p.2 =
      ((headers.elements.filter fun h => h.TakenFor p.1).getLast?).map TableElt.value := by
  rw [headersArray_eq, OrderedMap.get?_setAll, OrderedMap.get?_empty, Option.or_none]
  induction headers.elements using List.reverseRecOn with
  | nil => rfl
  | append_singleton hs h ih =>
    rw [List.flatMap_append, List.flatMap_singleton, OrderedMap.lastValue_append, ih,
      lastValue_headerEntries ht h hp,
      List.filter_append, List.filter_singleton]
    by_cases htaken : h.TakenFor p.1
    · simp [htaken]
    · simp [htaken]

/-! ## Lookup by the whole name -/

/-- The headers that nginx has read: a name never has a zero. -/
structure RequestHeaders where
  list : NgxList TableElt
  zero_key : ∀ h ∈ list.elements, 0 ∉ h.key

/-- A header is taken for every name that its own name begins. -/
theorem takenFor_iff {h : TableElt} (hkey : 0 ∉ h.key) {name : Bytes}
    (hlower : ngxStrlow name = name)
    (hzero : 0 ∉ name) : h.TakenFor name ↔ ngxStrlow h.key <+: name := by
  have hlow : (0 : UInt8) ∉ h.lowcaseKey := by
    intro hmem
    obtain ⟨b, hb, hb0⟩ := List.mem_map.mp hmem
    exact hkey ((ngxTolower_eq_zero b).mp hb0 ▸ hb)
  have hlen : h.key.length = h.lowcaseKey.length := (length_ngxStrlow h.key).symm
  unfold TableElt.TakenFor
  rw [ngxStrncasecmp_comm, hlen, ngxStrncasecmp_length_iff hlow, cString_of_zero_notMem hzero,
    hlower]
  unfold TableElt.lowcaseKey
  rw [ngxStrlow_idem]

/-- An array that is filled by looking the names of a table up as whole names. -/
structure ByWholeName (table : List (Bytes × Bytes)) (headers : NgxList TableElt)
    (array : PhpArray) : Prop where
  /-- A name has the value of the last header of that name, and no entry if there is none. -/
  last : ∀ p ∈ table, array.get? (underscored p.1) = lastNamed headers.elements p.1
  /-- Only the headers of a name set its entry. -/
  own : ∀ h ∈ headers.elements, ∀ p ∈ table,
    underscored p.1 ∈ (headerEntries table h).map Prod.fst → SameName h.key p.1

/-- No header has a name that is less than a supported name and the beginning of it. -/
def RequestHeaders.NoBeginning (r : RequestHeaders) : Prop :=
  ∀ h ∈ r.list.elements, ∀ p ∈ functionHeaders, ngxStrlow h.key <+: p.1 → ngxStrlow h.key = p.1

instance RequestHeaders.decidableNoBeginning (r : RequestHeaders) : Decidable r.NoBeginning :=
  inferInstanceAs (Decidable (∀ h ∈ _, ∀ p ∈ _, _ → _))

theorem byWholeName_of_takenFor {table : List (Bytes × Bytes)} (ht : NameTable table)
    {headers : NgxList TableElt}
    (h : ∀ e ∈ headers.elements, ∀ p ∈ table, e.TakenFor p.1 ↔ SameName e.key p.1) :
    ByWholeName table headers (headersArray table headers) := by
  constructor
  · intro p hp
    rw [← ht.keys p hp, get?_headersArray ht headers hp]
    unfold lastNamed
    rw [List.filter_congr fun e he => decide_eq_decide.mpr (h e he p hp)]
  · intro e he p hp hmem
    rw [← ht.keys p hp, mem_headerEntries_iff ht hp] at hmem
    exact (h e he p hp).mp hmem

theorem methodHeaders_subset {p : Bytes × Bytes} (hp : p ∈ methodHeaders) : p ∈ functionHeaders :=
  List.mem_append_left _ hp

/-- The functions look headers up by their whole names just if no header's name begins another
supported name. -/
theorem requestHeaders_byWholeName_iff (r : RequestHeaders) :
    (ByWholeName functionHeaders r.list (ngxRequestHeaders r.list) ∧
      ByWholeName methodHeaders r.list (NgxRequest.headers r.list) ∧
      ∀ h ∈ cookieHeaders r.list, SameName h.key (literal "Cookie")) ↔ r.NoBeginning := by
  have htaken : ∀ h ∈ r.list.elements, ∀ p ∈ functionHeaders,
      h.TakenFor p.1 ↔ ngxStrlow h.key <+: p.1 := fun h hh p hp =>
    takenFor_iff (r.zero_key h hh) (nameTable_functionHeaders.lower p hp)
      (nameTable_functionHeaders.zero p hp)
  constructor
  · rintro ⟨hfunction, -, -⟩ h hh p hp hprefix
    have hmem := (mem_headerEntries_iff nameTable_functionHeaders hp).mpr
      ((htaken h hh p hp).mpr hprefix)
    rw [nameTable_functionHeaders.keys p hp] at hmem
    exact (hfunction.own h hh p hp hmem).trans (nameTable_functionHeaders.lower p hp)
  · intro hno
    have hsame : ∀ h ∈ r.list.elements, ∀ p ∈ functionHeaders,
        h.TakenFor p.1 ↔ SameName h.key p.1 := by
      intro h hh p hp
      have hlower := nameTable_functionHeaders.lower p hp
      rw [htaken h hh p hp]
      unfold SameName
      rw [hlower]
      exact ⟨hno h hh p hp, fun heq => heq ▸ List.prefix_refl _⟩
    refine ⟨byWholeName_of_takenFor nameTable_functionHeaders hsame,
      byWholeName_of_takenFor nameTable_methodHeaders fun h hh p hp =>
        hsame h hh p (methodHeaders_subset hp), fun h hh => ?_⟩
    obtain ⟨hlist, hcookie⟩ := List.mem_filter.mp hh
    exact (hsame h hlist (literal "cookie", literal "cookie") (by decide)).mp
      (of_decide_eq_true hcookie)

/-- The header `Accept: text/html`, and no other one. -/
def acceptHeaders : RequestHeaders where
  list := { nalloc := 20, part := [⟨literal "Accept", literal "text/html"⟩] }
  zero_key := by decide

/-- It sets the entry of `Accept-Encoding`. -/
theorem acceptHeaders_not_byWholeName :
    ¬ (ByWholeName functionHeaders acceptHeaders.list (ngxRequestHeaders acceptHeaders.list) ∧
      ByWholeName methodHeaders acceptHeaders.list (NgxRequest.headers acceptHeaders.list) ∧
      ∀ h ∈ cookieHeaders acceptHeaders.list, SameName h.key (literal "Cookie")) := by
  rintro ⟨hfunction, -, -⟩
  have hlast := hfunction.last (literal "accept-encoding", literal "accept_encoding") (by decide)
  revert hlast
  decide

end NgxPhp
