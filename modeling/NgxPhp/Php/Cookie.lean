import Mathlib.Data.List.Induction
import NgxPhp.Nginx.Strings

/-!
# Cookies of the request

`ngx_cookie_get` reads the text of a cookie header with one cursor. An equals sign ends a name
wherever it stands, except as the first byte that the cursor steps over, and the names are compared
over the length of the key.
-/

namespace NgxPhp

/-- A byte of the text. -/
def semicolon : UInt8 := 59
/-- A byte of the text. -/
def space : UInt8 := 32

/-- The comparison of the name of a header with a literal, over the length of the name. -/
def TableElt.TakenFor (h : TableElt) (name : Bytes) : Prop :=
  ngxStrncasecmp h.lowcaseKey name h.key.length = 0

instance TableElt.decidableTakenFor (h : TableElt) (name : Bytes) : Decidable (h.TakenFor name) :=
  inferInstanceAs (Decidable (_ = _))

/-- `PHP_FUNCTION(ngx_cookie_get_all)`, on `r->headers_in.headers`. -/
def ngxCookieGetAll (headers : NgxList TableElt) : Option Bytes :=
  headers.walk (fun ret h => if h.TakenFor (literal "cookie") then some h.value else ret) none

/-- The variables of the loop of `ngx_cookie_get`: the bytes from `p` to `start`, those from `start`
to `last`, and the flag. -/
structure CookieCursor where
  text : Bytes := []
  rest : Bytes
  found : Bool := false
  deriving DecidableEq, Repr

/-- Whether a name that ends here is taken for the key. -/
def keyMatches (key queryKey : Bytes) : Prop := ngxStrncasecmp key queryKey key.length = 0

instance decidableKeyMatches (key : Bytes) : DecidablePred (keyMatches key) :=
  fun _ => inferInstanceAs (Decidable (_ = _))

/-- Behind an equals sign. -/
def CookieCursor.endName (key : Bytes) (st : CookieCursor) (rest : Bytes) : CookieCursor :=
  { rest, found := st.found || decide (keyMatches key st.text) }

/-- `if ( start != last ) { start++; }` -/
def CookieCursor.advance (st : CookieCursor) : CookieCursor :=
  match st.rest with
  | [] => st
  | b :: rest => { st with text := st.text ++ [b], rest }

/-- `while ( start != last )` and what follows it, for at most so many rounds. -/
def cookieLoop (key : Bytes) : Nat → CookieCursor → Option Bytes
  | 0, _ => none
  | n + 1, st =>
    match st.rest with
    | [] => if st.found then some st.text else none
    | b :: rest =>
      if b = equalsSign then
        if rest.headD 0 = semicolon then cookieLoop key n (st.endName key rest)
        else cookieLoop key n (st.endName key rest).advance
      else if b = semicolon then
        if st.found then some st.text
        else if rest.headD 0 = space then
          cookieLoop key n (CookieCursor.advance { rest := rest.tail, found := false })
        else cookieLoop key n (CookieCursor.advance { rest, found := false })
      else cookieLoop key n st.advance

/-- What the loop finds in the value of a header. -/
def cookieFind (key value : Bytes) : Option Bytes :=
  cookieLoop key (value.length + 1) { rest := value }

/-- `PHP_FUNCTION(ngx_cookie_get)`, on `r->headers_in.headers`. A value that is found replaces that
of an earlier header. -/
def ngxCookieGet (headers : NgxList TableElt) (key : Bytes) : Option Bytes :=
  headers.walk
    (fun ret h => if h.TakenFor (literal "cookie") then (cookieFind key h.value).or ret else ret)
    none

/-! ## What the functions read -/

/-- The headers that the functions take for cookie headers. -/
def cookieHeaders (headers : NgxList TableElt) : List TableElt :=
  headers.elements.filter fun h => h.TakenFor (literal "cookie")

/-- All that the functions read of the headers. -/
def cookieValues (headers : NgxList TableElt) : List Bytes :=
  (cookieHeaders headers).map TableElt.value

/-- The loop over the headers goes through the values of those that are taken for a Cookie header.
-/
theorem walk_cookieValues (headers : NgxList TableElt) (f : Option Bytes → Bytes → Option Bytes)
    (init : Option Bytes) :
    headers.walk (fun ret h => if h.TakenFor (literal "cookie") then f ret h.value else ret) init =
      (cookieValues headers).foldl f init := by
  unfold cookieValues cookieHeaders
  rw [NgxList.walk_eq_foldl]
  induction headers.elements generalizing init with
  | nil => rfl
  | cons h hs ih =>
    rw [List.foldl_cons, ih, List.filter_cons]
    by_cases hh : h.TakenFor (literal "cookie")
    · rw [if_pos hh, if_pos (decide_eq_true hh), List.map_cons, List.foldl_cons]
    · rw [if_neg hh, if_neg (by simpa using hh)]

/-- The second function asks the cookie headers one after the other. -/
theorem ngxCookieGet_eq (headers : NgxList TableElt) (key : Bytes) :
    ngxCookieGet headers key =
      (cookieValues headers).foldl (fun ret value => (cookieFind key value).or ret) none :=
  walk_cookieValues headers (fun ret value => (cookieFind key value).or ret) none

/-! ## The cursor -/

/-- The cursor moves forward. -/
theorem length_advance_le (st : CookieCursor) : st.advance.rest.length ≤ st.rest.length := by
  unfold CookieCursor.advance
  split
  · exact Nat.le_refl _
  next h => rw [h]; exact Nat.le_succ _

/-- The rounds of the loop are enough when there are more than bytes. -/
theorem cookieLoop_fuel {key : Bytes} {n m : Nat} {st : CookieCursor} (hn : st.rest.length < n)
    (hm : st.rest.length < m) : cookieLoop key n st = cookieLoop key m st := by
  induction n generalizing m st with
  | zero => exact absurd hn (Nat.not_lt_zero _)
  | succ n ih =>
    cases m with
    | zero => exact absurd hm (Nat.not_lt_zero _)
    | succ m =>
      have hless (c : CookieCursor) (h : c.rest.length < st.rest.length) :
          cookieLoop key n c = cookieLoop key m c := ih (by omega) (by omega)
      unfold cookieLoop
      split
      · rfl
      next b rest hrest =>
        have htail : rest.length < st.rest.length := by rw [hrest]; exact Nat.lt_succ_self _
        rw [hless (st.endName key rest) htail,
          hless (st.endName key rest).advance ((length_advance_le _).trans_lt htail),
          hless (CookieCursor.advance { rest := rest.tail })
            ((length_advance_le _).trans_lt (by rw [List.length_tail]; omega)),
          hless (CookieCursor.advance { rest }) ((length_advance_le _).trans_lt htail)]
        by_cases he : b = equalsSign
        · rw [if_pos he, if_pos he]
        · have hstep : st.advance.rest.length < st.rest.length := by
            unfold CookieCursor.advance
            rw [hrest]
            exact Nat.lt_succ_self _
          rw [hless _ hstep]

/-- The loop with rounds enough for what is left. -/
def cookieScan (key : Bytes) (st : CookieCursor) : Option Bytes :=
  cookieLoop key (st.rest.length + 1) st

theorem cookieScan_nil (key text : Bytes) (found : Bool) :
    cookieScan key ⟨text, [], found⟩ = if found then some text else none := rfl

/-- The cursor behind the end of a name: the byte there is stepped over, unless it ends the
cookie. -/
def CookieCursor.resume (text rest : Bytes) (found : Bool) : CookieCursor :=
  if text = [] ∧ rest.headD 0 ≠ semicolon then CookieCursor.advance ⟨text, rest, found⟩
  else ⟨text, rest, found⟩

/-- At an equals sign the text is compared with the key and begins anew. -/
theorem cookieScan_equals (key text rest : Bytes) (found : Bool) :
    cookieScan key ⟨text, equalsSign :: rest, found⟩ =
      cookieScan key (.resume [] rest (found || decide (keyMatches key text))) := by
  unfold cookieScan CookieCursor.resume
  rw [List.length_cons, cookieLoop]
  dsimp only
  rw [if_pos rfl]
  by_cases h : rest.headD 0 = semicolon
  · rw [if_pos h, if_neg fun hr => hr.2 h]
    rfl
  · rw [if_neg h, if_pos ⟨rfl, h⟩]
    refine cookieLoop_fuel ?_ (Nat.lt_succ_self _)
    exact Nat.lt_succ_of_le (length_advance_le _)

/-- At a semicolon a text that is taken ends the search, and any other begins anew. -/
theorem cookieScan_semicolon (key text rest : Bytes) (found : Bool) :
    cookieScan key ⟨text, semicolon :: rest, found⟩ =
      if found then some text
      else if rest.headD 0 = space then
        cookieScan key (CookieCursor.advance { rest := rest.tail })
      else cookieScan key (CookieCursor.advance { rest }) := by
  unfold cookieScan
  rw [List.length_cons, cookieLoop]
  dsimp only
  rw [if_neg (by decide), if_pos rfl]
  have hrest := length_advance_le { rest }
  have htail := length_advance_le { rest := rest.tail }
  rw [List.length_tail] at htail
  rw [cookieLoop_fuel (n := rest.length + 1) (Nat.lt_succ_of_le hrest) (Nat.lt_succ_self _),
    cookieLoop_fuel (n := rest.length + 1) (by omega)
      (Nat.lt_succ_self (CookieCursor.advance { rest := rest.tail }).rest.length)]

/-- Any other byte is added to the text. -/
theorem cookieScan_byte {b : UInt8} (he : b ≠ equalsSign) (hs : b ≠ semicolon)
    (key text rest : Bytes) (found : Bool) :
    cookieScan key ⟨text, b :: rest, found⟩ = cookieScan key ⟨text ++ [b], rest, found⟩ := by
  unfold cookieScan
  rw [List.length_cons, cookieLoop]
  dsimp only
  rw [if_neg he, if_neg hs]
  rfl

/-- The texts that the cursor compares as names, and the one that it ends with. An equals sign ends
a text, except as its first byte. -/
def pieces : Bytes → Bytes → List Bytes × Bytes
  | text, [] => ([], text)
  | text, b :: rest =>
    if b = equalsSign ∧ text ≠ [] then (text :: (pieces [] rest).1, (pieces [] rest).2)
    else pieces (text ++ [b]) rest

/-- Up to the end of a cookie the cursor compares the pieces of what it reads. -/
theorem cookieScan_pieces (key : Bytes) {text t : Bytes} (ht : semicolon ∉ t) (found : Bool)
    {tail : Bytes} (htail : tail = [] ∨ tail.headD 0 = semicolon) :
    cookieScan key (.resume text (t ++ tail) found) =
      cookieScan key ⟨(pieces text t).2, tail,
        found || (pieces text t).1.any fun n => keyMatches key n⟩ := by
  induction text, t using pieces.induct generalizing found with
  | case1 text =>
    rw [pieces, List.nil_append, List.any_nil, Bool.or_false]
    unfold CookieCursor.resume
    split
    next h =>
      rcases htail with rfl | htail
      · rfl
      · exact absurd htail h.2
    next => rfl
  | case2 text b rest h ih =>
    obtain ⟨rfl, htext⟩ := h
    have hr : CookieCursor.resume text (equalsSign :: rest ++ tail) found =
        ⟨text, equalsSign :: (rest ++ tail), found⟩ := if_neg fun h => htext h.1
    rw [hr, cookieScan_equals, ih fun h => ht (List.mem_cons_of_mem _ h), pieces,
      if_pos ⟨rfl, htext⟩, List.any_cons, Bool.or_assoc]
  | case3 text b rest h ih =>
    have hb : b ≠ semicolon := fun hb => ht (hb ▸ List.mem_cons_self)
    have hnext : CookieCursor.resume (text ++ [b]) (rest ++ tail) found =
        ⟨text ++ [b], rest ++ tail, found⟩ :=
      if_neg fun h => List.append_ne_nil_of_right_ne_nil _ (List.cons_ne_nil _ _) h.1
    rw [pieces, if_neg h, ← ih (fun h => ht (List.mem_cons_of_mem _ h)) found, hnext]
    unfold CookieCursor.resume
    rw [List.cons_append, List.headD_cons]
    by_cases htext : text = []
    · rw [if_pos ⟨htext, hb⟩]
      rfl
    · rw [if_neg fun h => htext h.1]
      exact cookieScan_byte (fun he => h ⟨he, htext⟩) hb ..

/-! ## Cookies as names and values -/

/-- A cookie as it stands in a header. -/
structure Cookie where
  name : Bytes
  value : Bytes
  equals_name : equalsSign ∉ name
  semicolon_name : semicolon ∉ name
  space_name : space ∉ name
  zero_name : 0 ∉ name
  semicolon_value : semicolon ∉ value
  zero_value : 0 ∉ value
  deriving DecidableEq

/-- The text of a cookie. -/
def Cookie.text (c : Cookie) : Bytes := c.name ++ equalsSign :: c.value

/-- The value of a cookie header. -/
def cookiesText : List Cookie → Bytes
  | [] => []
  | [c] => c.text
  | c :: d :: cs => c.text ++ semicolon :: space :: cookiesText (d :: cs)

/-- Cookies of distinct names. -/
structure Cookies where
  cookies : List Cookie
  distinct : (cookies.map Cookie.name).Nodup

/-- The texts of a cookie that are compared as names, and the one that is taken for its value. Of a
cookie behind another one the first byte is stepped over, also where the name is empty. -/
def Cookie.pieces (first : Bool) (c : Cookie) : List Bytes × Bytes :=
  if c.name = [] ∧ first = false then NgxPhp.pieces [equalsSign] c.value
  else (c.name :: (NgxPhp.pieces [] c.value).1, (NgxPhp.pieces [] c.value).2)

/-- What is taken for the value of the first cookie with a text that is taken for the key. -/
def firstTaken (key : Bytes) : Bool → List Cookie → Option Bytes
  | _, [] => none
  | first, c :: cs =>
    if (c.pieces first).1.any fun n => keyMatches key n then some (c.pieces first).2
    else firstTaken key false cs

/-- The first piece of a cookie is its name. -/
theorem pieces_name {text name : Bytes} (htext : text ≠ []) (hname : equalsSign ∉ name)
    (value : Bytes) :
    pieces text (name ++ equalsSign :: value) =
      ((text ++ name) :: (pieces [] value).1, (pieces [] value).2) := by
  induction name generalizing text with
  | nil =>
    rw [List.nil_append, List.append_nil, pieces, if_pos ⟨rfl, htext⟩]
  | cons b name ih =>
    have hb : b ≠ equalsSign := fun hb => hname (hb ▸ List.mem_cons_self)
    rw [List.cons_append, pieces, if_neg fun h => hb h.1,
      ih (List.append_ne_nil_of_left_ne_nil htext _) fun h => hname (List.mem_cons_of_mem _ h),
      List.append_assoc, List.singleton_append]

/-- Where the cursor stands when it begins to read a cookie. -/
def CookieCursor.start (first : Bool) (rest : Bytes) : CookieCursor :=
  if first then { rest } else CookieCursor.advance { rest }

/-- The cursor passes a cookie. -/
theorem cookieScan_cookie (key : Bytes) (first : Bool) (c : Cookie) {tail : Bytes}
    (htail : tail = [] ∨ tail.headD 0 = semicolon) :
    cookieScan key (.start first (c.text ++ tail)) =
      cookieScan key ⟨(c.pieces first).2, tail,
        (c.pieces first).1.any fun n => keyMatches key n⟩ := by
  have hvalue := c.semicolon_value
  unfold Cookie.text Cookie.pieces
  cases hname : c.name with
  | nil =>
    cases first with
    | true =>
      have hs : CookieCursor.start true ([] ++ equalsSign :: c.value ++ tail) =
          ⟨[], equalsSign :: (c.value ++ tail), false⟩ := rfl
      rw [hs, cookieScan_equals, cookieScan_pieces key hvalue _ htail, Bool.false_or,
        if_neg fun h => Bool.noConfusion h.2, List.any_cons]
    | false =>
      have hs : CookieCursor.start false ([] ++ equalsSign :: c.value ++ tail) =
          .resume [equalsSign] (c.value ++ tail) false :=
        (if_neg fun h => List.cons_ne_nil _ _ h.1).symm
      rw [hs, cookieScan_pieces key hvalue false htail, Bool.false_or, if_pos ⟨rfl, rfl⟩]
  | cons b name =>
    have hb : b ≠ equalsSign := fun hb => c.equals_name (hname ▸ hb ▸ List.mem_cons_self)
    have hb' : b ≠ semicolon := fun hb => c.semicolon_name (hname ▸ hb ▸ List.mem_cons_self)
    have hequals : equalsSign ∉ name :=
      fun h => c.equals_name (hname ▸ List.mem_cons_of_mem _ h)
    have hsemicolon : semicolon ∉ name ++ equalsSign :: c.value := by
      rw [List.mem_append, List.mem_cons, not_or, not_or]
      exact ⟨fun h => c.semicolon_name (hname ▸ List.mem_cons_of_mem _ h), by decide, hvalue⟩
    have hs : cookieScan key (.start first (b :: name ++ equalsSign :: c.value ++ tail)) =
        cookieScan key (.resume [b] (name ++ equalsSign :: c.value ++ tail) false) := by
      have hr : CookieCursor.resume [b] (name ++ equalsSign :: c.value ++ tail) false =
          ⟨[b], name ++ equalsSign :: c.value ++ tail, false⟩ :=
        if_neg fun h => List.cons_ne_nil _ _ h.1
      rw [hr]
      cases first with
      | true => exact cookieScan_byte hb hb' ..
      | false => rfl
    rw [hs, cookieScan_pieces key hsemicolon false htail,
      pieces_name (List.cons_ne_nil _ _) hequals,
      Bool.false_or, if_neg fun h => List.cons_ne_nil _ _ h.1, List.singleton_append]

/-- The loop finds the first cookie that it takes for the key. -/
theorem cookieScan_cookies (key : Bytes) (first : Bool) (cs : List Cookie) :
    cookieScan key (.start first (cookiesText cs)) = firstTaken key first cs := by
  induction cs generalizing first with
  | nil => cases first <;> rfl
  | cons c cs ih =>
    rw [firstTaken]
    cases cs with
    | nil =>
      have h := cookieScan_cookie key first c (Or.inl rfl)
      rw [List.append_nil] at h
      rw [cookiesText, h, cookieScan_nil]
      rfl
    | cons d cs =>
      rw [cookiesText, cookieScan_cookie key first c (Or.inr rfl), cookieScan_semicolon]
      split
      · rfl
      · exact (if_pos rfl).trans (ih false)

/-- `cookieFind` on a text of cookies. -/
theorem cookieFind_cookiesText (key : Bytes) (cs : List Cookie) :
    cookieFind key (cookiesText cs) = firstTaken key true cs := cookieScan_cookies key true cs

/-! ## The value under a key -/

/-- A function finds the values of the cookies under their names, and nothing else. -/
def Cookies.FoundBy (cs : Cookies) (get : Bytes → Option Bytes) (key : Bytes) : Prop :=
  (∀ c ∈ cs.cookies, key = c.name → get key = some c.value) ∧
    ((∀ c ∈ cs.cookies, key ≠ c.name) → get key = none)

/-- The cookie with this index, the first one or one behind another, has a text in front of its last
piece that begins with the key. -/
def TouchedAt (key : Bytes) (first : Bool) (cs : List Cookie) (i : Nat) : Prop :=
  ∃ c ∈ cs[i]?, ∃ n ∈ (c.pieces (first && i == 0)).1, keyMatches key n

instance decidableTouchedAt (key : Bytes) (first : Bool) (cs : List Cookie) (i : Nat) :
    Decidable (TouchedAt key first cs i) :=
  inferInstanceAs (Decidable (∃ c ∈ cs[i]?, ∃ n ∈ (c.pieces (first && i == 0)).1, keyMatches key n))

/-- No cookie has the name, and none has a text that begins with the key; or the cookie of that name
has no equals sign in its value, other than the first byte, and no cookie in front of it has such a
text, or the first one in front of it that has one ends with a piece that is its value. -/
def Cookies.LooksUp (cs : Cookies) (key : Bytes) : Prop :=
  ((∀ c ∈ cs.cookies, key ≠ c.name) ∧ ∀ i < cs.cookies.length, ¬ TouchedAt key true cs.cookies i) ∨
    ∃ i < cs.cookies.length, ∃ c ∈ cs.cookies[i]?, key = c.name ∧
      ((equalsSign ∉ c.value.tail ∧ ∀ j < i, ¬ TouchedAt key true cs.cookies j) ∨
        ∃ j < i, TouchedAt key true cs.cookies j ∧ (∀ l < j, ¬ TouchedAt key true cs.cookies l) ∧
          ∃ d ∈ cs.cookies[j]?, (d.pieces (j == 0)).2 = c.value)

instance Cookies.decidableLooksUp (cs : Cookies) (key : Bytes) : Decidable (cs.LooksUp key) := by
  unfold Cookies.LooksUp
  infer_instance

/-! ### The first cookie that is taken for the key -/

/-- The cookies behind the first one are not the first. -/
theorem touchedAt_succ {key : Bytes} {first : Bool} {c : Cookie} {cs : List Cookie} {i : Nat} :
    TouchedAt key first (c :: cs) (i + 1) ↔ TouchedAt key false cs i := by
  rw [TouchedAt, TouchedAt, List.getElem?_cons_succ]
  simp

/-- The first cookie is touched by its own pieces. -/
theorem touchedAt_zero {key : Bytes} {first : Bool} {c : Cookie} {cs : List Cookie} :
    TouchedAt key first (c :: cs) 0 ↔
      ((c.pieces first).1.any fun n => keyMatches key n) = true := by
  simp [TouchedAt]

/-- Nothing is taken where no cookie has such a text. -/
theorem firstTaken_eq_none_iff {key : Bytes} {first : Bool} {cs : List Cookie} :
    firstTaken key first cs = none ↔ ∀ i < cs.length, ¬ TouchedAt key first cs i := by
  induction cs generalizing first with
  | nil => exact iff_of_true rfl fun i hi => absurd hi (Nat.not_lt_zero i)
  | cons c cs ih =>
    rw [firstTaken]
    split
    · next htouched =>
      refine iff_of_false (Option.some_ne_none _) fun hnone => ?_
      exact hnone 0 (Nat.succ_pos _) (touchedAt_zero.mpr htouched)
    · next hclear =>
      rw [ih]
      constructor
      · intro hnone i hi
        cases i with
        | zero => exact fun h => hclear (touchedAt_zero.mp h)
        | succ i => exact fun h => hnone i (Nat.lt_of_succ_lt_succ hi) (touchedAt_succ.mp h)
      · exact fun hnone i hi h => hnone (i + 1) (Nat.succ_lt_succ hi) (touchedAt_succ.mpr h)

/-- What is taken is the last piece of the first cookie that has such a text. -/
theorem firstTaken_eq_some_iff {key : Bytes} {first : Bool} {cs : List Cookie} {value : Bytes} :
    firstTaken key first cs = some value ↔
      ∃ i, TouchedAt key first cs i ∧ (∀ j < i, ¬ TouchedAt key first cs j) ∧
        ∃ d ∈ cs[i]?, (d.pieces (first && i == 0)).2 = value := by
  induction cs generalizing first with
  | nil =>
    refine iff_of_false nofun ?_
    rintro ⟨i, -, -, d, hd, -⟩
    cases hd
  | cons c cs ih =>
    rw [firstTaken]
    split
    · next htouched =>
      constructor
      · intro h
        refine ⟨0, touchedAt_zero.mpr htouched, fun j hj => absurd hj (Nat.not_lt_zero j), c, rfl,
          ?_⟩
        simpa using h
      · rintro ⟨i, -, hfirst, d, hd, hvalue⟩
        cases i with
        | zero =>
          obtain rfl := Option.some.inj hd
          simpa using hvalue
        | succ i => exact absurd (touchedAt_zero.mpr htouched) (hfirst 0 (Nat.succ_pos _))
    · next hclear =>
      rw [ih]
      constructor
      · rintro ⟨i, htouched, hfirst, d, hd, hvalue⟩
        refine ⟨i + 1, touchedAt_succ.mpr htouched, fun j hj => ?_, d, hd, by simpa using hvalue⟩
        cases j with
        | zero => exact fun h => hclear (touchedAt_zero.mp h)
        | succ j => exact fun h => hfirst j (Nat.lt_of_succ_lt_succ hj) (touchedAt_succ.mp h)
      · rintro ⟨i, htouched, hfirst, d, hd, hvalue⟩
        cases i with
        | zero => exact absurd (touchedAt_zero.mp htouched) hclear
        | succ i =>
          refine ⟨i, touchedAt_succ.mp htouched, fun j hj h => ?_, d, hd, by simpa using hvalue⟩
          exact hfirst (j + 1) (Nat.succ_lt_succ hj) (touchedAt_succ.mpr h)

/-- A key is taken for a name that is the key. -/
theorem keyMatches_self (key : Bytes) : keyMatches key key :=
  (ngxStrncasecmp_eq_zero_iff _ _ _).mpr rfl

/-- The empty key is taken for every name. -/
theorem keyMatches_nil (name : Bytes) : keyMatches [] name := rfl

/-- Up to the cookie of that name some cookie is taken for the key; where the name is empty, it is
the first cookie. -/
theorem Cookies.touchedAt_of_name {cs : Cookies} {key : Bytes} {i : Nat} {c : Cookie}
    (hc : c ∈ cs.cookies[i]?) (hkey : key = c.name) :
    ∃ j ≤ i, TouchedAt key true cs.cookies j ∧ (c.name = [] → j = 0) := by
  by_cases hname : c.name = [] ∧ i ≠ 0
  · -- the first cookie has another name, and the empty key is taken for any
    obtain ⟨hname, hi⟩ := hname
    have hlen : i < cs.cookies.length := (List.getElem?_eq_some_iff.mp hc).1
    obtain ⟨d, ds, hcs⟩ := List.exists_cons_of_length_pos (Nat.lt_of_le_of_lt (Nat.zero_le i) hlen)
    refine ⟨0, Nat.zero_le _, ⟨d, by rw [hcs]; rfl, d.name, ?_, ?_⟩, fun _ => rfl⟩
    · simp [Cookie.pieces]
    · rw [hkey, hname]
      exact keyMatches_nil _
  · refine ⟨i, Nat.le_refl _, ⟨c, hc, c.name, ?_, hkey ▸ keyMatches_self _⟩, fun h => ?_⟩
    · rw [Cookie.pieces, if_neg]
      · exact List.mem_cons_self
      · rintro ⟨h, hi⟩
        exact hname ⟨h, by simpa using hi⟩
    · by_contra hi
      exact hname ⟨h, hi⟩

/-- The last piece is not longer than the cookie. -/
theorem length_pieces_snd_le (text t : Bytes) :
    (pieces text t).2.length ≤ text.length + t.length := by
  induction text, t using pieces.induct with
  | case1 text => exact Nat.le_refl _
  | case2 text b rest h ih =>
    rw [pieces, if_pos h, List.length_cons]
    rw [List.length_nil] at ih
    dsimp only
    omega
  | case3 text b rest h ih =>
    rw [pieces, if_neg h, List.length_cons]
    rw [List.length_append, List.length_singleton] at ih
    omega

/-- Behind a first byte every equals sign cuts. -/
theorem pieces_snd_eq_iff {text : Bytes} (htext : text ≠ []) (t : Bytes) :
    (pieces text t).2 = text ++ t ↔ equalsSign ∉ t := by
  induction text, t using pieces.induct with
  | case1 text => exact iff_of_true (List.append_nil text).symm (List.not_mem_nil)
  | case2 text b rest h ih =>
    rw [pieces, if_pos h]
    refine iff_of_false (fun heq => ?_) fun hno => hno (h.1 ▸ List.mem_cons_self)
    have hlen := congrArg List.length heq
    have hle := length_pieces_snd_le [] rest
    rw [List.length_append, List.length_cons] at hlen
    rw [List.length_nil] at hle
    dsimp only at hlen
    omega
  | case3 text b rest h ih =>
    have hb : equalsSign ≠ b := fun hb => h ⟨hb.symm, htext⟩
    have hnext := ih (List.append_ne_nil_of_left_ne_nil htext _)
    rw [List.append_assoc, List.singleton_append] at hnext
    rw [pieces, if_neg h, hnext, List.mem_cons, not_or, and_iff_right hb]

/-- A value is one piece if it has no equals sign other than its first byte. -/
theorem pieces_value_eq_iff (value : Bytes) :
    (pieces [] value).2 = value ↔ equalsSign ∉ value.tail := by
  cases value with
  | nil => exact iff_of_true rfl List.not_mem_nil
  | cons b rest =>
    rw [pieces, if_neg fun h => h.2 rfl]
    exact pieces_snd_eq_iff (List.cons_ne_nil _ _) rest

/-- Cookies of one name are one. -/
theorem Cookies.eq_of_name {cs : Cookies} {c d : Cookie} (hc : c ∈ cs.cookies)
    (hd : d ∈ cs.cookies) (h : c.name = d.name) : c = d :=
  List.inj_on_of_nodup_map cs.distinct hc hd h

/-- The value of the cookie of that name is taken exactly under the condition. -/
theorem Cookies.lookup_named_iff {cs : Cookies} {key : Bytes} {i : Nat} {c : Cookie}
    (hc : c ∈ cs.cookies[i]?) (hkey : key = c.name) :
    firstTaken key true cs.cookies = some c.value ↔
      (equalsSign ∉ c.value.tail ∧ ∀ j < i, ¬ TouchedAt key true cs.cookies j) ∨
        ∃ j < i, TouchedAt key true cs.cookies j ∧ (∀ l < j, ¬ TouchedAt key true cs.cookies l) ∧
          ∃ d ∈ cs.cookies[j]?, (d.pieces (j == 0)).2 = c.value := by
  obtain ⟨n, hn, htouched, hname⟩ := cs.touchedAt_of_name hc hkey
  have hlast : (∀ j < i, ¬ TouchedAt key true cs.cookies j) →
      ((c.pieces (i == 0)).2 = c.value ↔ equalsSign ∉ c.value.tail) := by
    intro hclear
    have hni : n = i := by
      by_contra hne
      exact hclear n (by omega) htouched
    rw [Cookie.pieces, if_neg, pieces_value_eq_iff]
    rintro ⟨hempty, hi⟩
    rw [← hni, hname hempty] at hi
    cases hi
  rw [firstTaken_eq_some_iff]
  constructor
  · rintro ⟨j, hj, hfirst, d, hd, hvalue⟩
    rcases Nat.lt_trichotomy j i with hlt | rfl | hgt
    · exact .inr ⟨j, hlt, hj, hfirst, d, hd, hvalue⟩
    · obtain rfl := Option.some.inj (hc.symm.trans hd)
      exact .inl ⟨(hlast hfirst).mp hvalue, hfirst⟩
    · exact absurd htouched (hfirst n (by omega))
  · rintro (⟨hequals, hclear⟩ | ⟨j, -, hj, hfirst, d, hd, hvalue⟩)
    · have hni : n = i := by
        by_contra hne
        exact hclear n (by omega) htouched
      exact ⟨i, hni ▸ htouched, hclear, c, hc, (hlast hclear).mpr hequals⟩
    · exact ⟨j, hj, hfirst, d, hd, hvalue⟩

/-- The lookup is exact just where no cookie in front of the one of that name, or of none, has a
text that begins with the key, and the value is not cut, or the text that is taken instead is the
same. -/
theorem ngxCookieGet_exact_iff (headers : NgxList TableElt) (cs : Cookies)
    (h : cookieValues headers = [cookiesText cs.cookies]) (key : Bytes) :
    cs.FoundBy (ngxCookieGet headers) key ↔ cs.LooksUp key := by
  have hget : ngxCookieGet headers key = firstTaken key true cs.cookies := by
    rw [ngxCookieGet_eq, h, List.foldl_cons, List.foldl_nil, Option.or_none,
      cookieFind_cookiesText]
  unfold Cookies.FoundBy Cookies.LooksUp
  rw [hget, ← firstTaken_eq_none_iff]
  constructor
  · rintro ⟨hnamed, hother⟩
    by_cases hnone : ∀ c ∈ cs.cookies, key ≠ c.name
    · exact .inl ⟨hnone, hother hnone⟩
    · obtain ⟨c, hc, hkey⟩ : ∃ c ∈ cs.cookies, key = c.name := by
        by_contra hno
        exact hnone fun c hc hkey => hno ⟨c, hc, hkey⟩
      obtain ⟨i, hi, hget⟩ := List.getElem_of_mem hc
      have hsome : c ∈ cs.cookies[i]? := List.getElem?_eq_some_iff.mpr ⟨hi, hget⟩
      exact .inr ⟨i, hi, c, hsome, hkey, (cs.lookup_named_iff hsome hkey).mp (hnamed c hc hkey)⟩
  · rintro (⟨hnone, hclear⟩ | ⟨i, hi, c, hc, hkey, hcond⟩)
    · exact ⟨fun c hc hkey => absurd hkey (hnone c hc), fun _ => hclear⟩
    · have hvalue := (cs.lookup_named_iff hc hkey).mpr hcond
      have hmem : c ∈ cs.cookies := List.mem_of_getElem? hc
      refine ⟨fun d hd hdkey => ?_, fun hnone => absurd hkey (hnone c hmem)⟩
      rw [hvalue, Cookies.eq_of_name hmem hd (hkey.symm.trans hdkey)]

/-- The header `Cookie: foo=ngx_php; bar=ngx_cookie`. -/
def testCookies : Cookies where
  cookies :=
    [⟨literal "foo", literal "ngx_php", by decide, by decide, by decide,
        by decide, by decide, by decide⟩,
      ⟨literal "bar", literal "ngx_cookie", by decide, by decide,
        by decide, by decide, by decide, by decide⟩]
  distinct := by decide

/-- Both cookies of the header are found. -/
theorem ngxCookieGet_exact_test :
    let headers : NgxList TableElt :=
      { nalloc := 20, part := [⟨literal "Cookie", cookiesText testCookies.cookies⟩] }
    testCookies.FoundBy (ngxCookieGet headers) (literal "bar") :=
  (ngxCookieGet_exact_iff _ testCookies (by decide) (literal "bar")).mpr (by decide)

/-- The header `Cookie: token=YWI=`. -/
def paddedCookies : Cookies where
  cookies :=
    [⟨literal "token", literal "YWI=", by decide, by decide, by decide, by decide,
        by decide, by decide⟩]
  distinct := by decide

/-- The padding of a value ends it, and what is returned is the empty text behind. -/
theorem ngxCookieGet_not_exact :
    ¬ ∀ (headers : NgxList TableElt) (cs : Cookies),
      cookieValues headers = [cookiesText cs.cookies] →
        ∀ key, cs.FoundBy (ngxCookieGet headers) key := by
  intro h
  have htoken := h
    { nalloc := 20,
      part := [⟨literal "Cookie", cookiesText paddedCookies.cookies⟩] }
    paddedCookies (by decide) (literal "token")
  have hvalue := htoken.1 _ (List.mem_singleton.mpr rfl) rfl
  revert hvalue
  decide

end NgxPhp
