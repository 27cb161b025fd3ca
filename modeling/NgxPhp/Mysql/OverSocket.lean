import NgxPhp.Lib.Dialog
import NgxPhp.Mysql.Session
import NgxPhp.Request.Wire

/-!
# A statement over a socket

`query` reads a reply by receives of its socket, and how much it asks for next depends on what it
has got. While it waits the worker goes on with other requests. What the object has in the end is
what the server has sent, as it is over a wire.
-/

namespace NgxPhp

open StepMachine

/-- A receive of what is there gets it. -/
theorem Wire.recv_whole (got rest : Bytes) :
    Wire.recv { rest := got ++ rest } got.length = (got, { rest }) := by
  by_cases h : got = []
  · rw [h]
    rfl
  · exact Wire.recv_append h

/-- A receive of so many bytes into a variable with this text, and what is read from the variable
then. -/
def Wire.ask (w : Wire) (q : Bytes × Nat) : Bytes × Wire :=
  let (got, w) := w.recv q.2
  (readBack q.1 got, w)

/-- An empty variable reads as what was received. -/
theorem Wire.ask_empty (w : Wire) (n : Nat) : w.ask ([], n) = w.recv n := by
  dsimp only [ask]
  rw [readBack_empty]

/-! ## The receives of `query` -/

/-- The receives of `read_packet` behind the header, each with its variable and its length. -/
def readFromDialog (php8 : Bool) :
    Nat → Reader → Bytes → Dialog (Bytes × Nat) Bytes (Option Reader)
  | 0, _, _ => .done none
  | fuel + 1, r, header =>
    .ask (header, (headerLength header).getD 0) fun data =>
      let p : Packet := { length := headerLength header, data }
      if (r.accept php8 p).2 then
        .ask ([], 4) fun header =>
          (readFromDialog php8 fuel (r.accept php8 p).1 header).map fun r => r.map (·.leave p)
      else .done (some ((r.accept php8 p).1.leave p))

/-- The receives of `query`, which asks for the first header again until it is there. -/
def queryDialog (php8 : Bool) (fuel : Nat) :
    Nat → Bytes → Dialog (Bytes × Nat) Bytes (Option Reader)
  | 0, _ => .done none
  | rounds + 1, data => .ask (data, 4) fun data =>
    if phpEmpty data then queryDialog php8 fuel rounds data else readFromDialog php8 fuel {} data

/-- Over a wire they leave the object as `readFrom` does. -/
theorem readFromDialog_run (php8 : Bool) (fuel : Nat) (r : Reader) (header : Bytes) (w : Wire) :
    (readFromDialog php8 fuel r header).run Wire.ask w = readFrom php8 fuel r header w := by
  induction fuel generalizing r header w with
  | zero => rfl
  | succ fuel ih =>
    rw [readFrom_succ, readFromDialog, Dialog.run]
    dsimp only [Wire.ask]
    rw [show readBack header (w.recv ((headerLength header).getD 0)).1 =
      readData header (w.recv ((headerLength header).getD 0)).1 from rfl]
    split
    · rw [Dialog.run, Dialog.run_map, ih, Wire.ask_empty]
    · rfl

/-- More rounds than were needed change nothing. -/
theorem readFrom_mono {php8 : Bool} {fuel fuel' : Nat} {r r' : Reader} {header : Bytes} {w : Wire}
    (h : readFrom php8 fuel r header w = some r') (hle : fuel ≤ fuel') :
    readFrom php8 fuel' r header w = some r' := by
  induction fuel generalizing fuel' r r' header w with
  | zero => cases h
  | succ fuel ih =>
    obtain ⟨fuel', rfl⟩ := Nat.exists_eq_add_one_of_ne_zero (Nat.ne_zero_of_lt hle)
    rw [readFrom_succ] at h ⊢
    dsimp only at h ⊢
    split
    · next hmore =>
      rw [if_pos hmore] at h
      obtain ⟨r₁, hr₁, rfl⟩ := Option.map_eq_some_iff.mp h
      rw [ih hr₁ (Nat.le_of_succ_le_succ hle)]
      rfl
    · next hmore =>
      rw [if_neg hmore] at h
      exact h

/-- A receive that is over, as its script sees it: what it asked and what it read. -/
def Receiving.asked (w : Receiving) : (Bytes × Nat) × Bytes :=
  ((w.text, w.len), readBack w.text w.got)

/-- The receives in front of the first data were of the loop for the header. -/
theorem queryDialog_dropWhile {php8 : Bool} {fuel rounds : Nat} {ws : List Receiving} {rd : Reader}
    (h : (queryDialog php8 fuel rounds []).follow (ws.map Receiving.asked) = some (some rd)) :
    ∃ rounds', (queryDialog php8 fuel rounds' []).follow
      ((ws.dropWhile fun w => w.got = []).map Receiving.asked) = some (some rd) := by
  induction rounds generalizing ws with
  | zero =>
    cases ws with
    | nil => cases h
    | cons w ws => cases h
  | succ rounds ih =>
    cases ws with
    | nil => cases h
    | cons w ws =>
      by_cases hgot : w.got = []
      · obtain ⟨data, ys, hys, hnext⟩ := Dialog.follow_ask_eq_some h
        obtain ⟨hfirst, rfl⟩ := List.cons.inj hys
        obtain ⟨hask, rfl⟩ := Prod.mk.inj hfirst
        have hread : readBack w.text w.got = [] := by
          rw [hgot]
          exact congrArg Prod.fst hask
        rw [List.dropWhile_cons_of_pos (by simpa using hgot)]
        rw [hread] at hnext
        exact ih hnext
      · rw [List.dropWhile_cons_of_neg (by simpa using hgot)]
        exact ⟨rounds + 1, h⟩

/-- Receives that got nothing have taken nothing. -/
theorem flatten_dropWhile_nil (ws : List Receiving) :
    ((ws.dropWhile fun w => w.got = []).map Receiving.got).flatten =
      (ws.map Receiving.got).flatten := by
  induction ws with
  | nil => rfl
  | cons w ws ih =>
    by_cases hw : w.got = []
    · rw [List.dropWhile_cons_of_pos (by simpa using hw), ih, List.map_cons, hw]
      rfl
    · rw [List.dropWhile_cons_of_neg (by simpa using hw)]

/-- Receives that get all that they ask for are those of a wire on which everything is there. -/
theorem answered_of_whole {ws : List Receiving} (h : ∀ w ∈ ws, w.got.length = w.len)
    (rest : Bytes) :
    Dialog.Answered Wire.ask { rest := (ws.map Receiving.got).flatten ++ rest }
      (ws.map Receiving.asked) := by
  induction ws with
  | nil => trivial
  | cons w ws ih =>
    obtain ⟨hw, h⟩ := List.forall_mem_cons.mp h
    rw [List.map_cons, List.map_cons, Dialog.Answered, List.flatten_cons, List.append_assoc,
      Receiving.asked, Wire.ask, ← hw, Wire.recv_whole]
    exact ⟨rfl, ih h⟩

/-! ## The object -/

/-- If the receives get nothing at first and then all that they ask for, the object is left as the
packets say. -/
theorem queryDialog_replay {php8 : Bool} {fuel rounds : Nat} {ws : List Receiving} {rd : Reader}
    (n : Int) {ds : List Bytes} (hne : ds ≠ []) (hds : ∀ d ∈ ds, d.length < 2 ^ 16)
    (hfront : (ws.map Receiving.got).flatten <+: packets n ds)
    (hwhole : ∀ w ∈ ws.dropWhile fun w => w.got = [], w.got.length = w.len)
    (h : (queryDialog php8 fuel rounds []).follow (ws.map Receiving.asked) = some (some rd)) :
    rd = Reader.replay php8 {} ds := by
  obtain ⟨rest, hrest⟩ := hfront
  obtain ⟨rounds', h'⟩ := queryDialog_dropWhile h
  rw [← flatten_dropWhile_nil] at hrest
  have hrun := Dialog.run_of_follow h' (answered_of_whole hwhole rest)
  rw [hrest] at hrun
  cases rounds' with
  | zero => cases hrun
  | succ rounds' =>
    have hheader : ¬ phpEmpty (Wire.recv { rest := packets n ds } 4).1 = true := by
      intro hempty
      have hawait := @awaitHeader_of_whole (packets n ds) [] (four_le_length_packets n hne) rfl
      rw [awaitHeader] at hawait
      dsimp only at hawait
      rw [if_pos hempty] at hawait
      cases hawait
    rw [queryDialog, Dialog.run, Wire.ask_empty, if_neg hheader, readFromDialog_run] at hrun
    have hmore := readFrom_mono hrun (Nat.le_max_left fuel (ds.length + 1))
    rw [readFrom_packets php8 {} n ds hds (by omega)] at hmore
    exact (Option.some.inj hmore).symm

/-- The receives of the script: the variable and the length of each, and what the script has
read. -/
def Reception.asked (s : Reception) : List ((Bytes × Nat) × Bytes) :=
  s.received.map fun x => ((x.text, x.len), x.value)

/-- In every run on a connected socket in which the receives are those of `query` and get nothing
at first, but then all that they ask for, the object has the rows of the reply exactly if the reply
can be read, whatever else the worker has done in between. -/
theorem query_over_socket {k : Session} {c : ConnId} (hk : k.view.u.peer.connection = some c)
    (hr : k.view.u.request = k.r) (hroom : k.view.u.buffer ≠ some 0) {ls : List ReceptionStep}
    (h : Along Reception.step Reception.Undisturbed { session := k, conn := c } ls) (php8 : Bool)
    (v : StatementReply) :
    let s := run Reception.step { session := k, conn := c } ls
    s.taken <+: v.encode →
    (∀ w ∈ s.completed.dropWhile fun w => w.got = [], w.got.length = w.len) →
    ∀ {fuel rounds : Nat} {rd : Reader},
      (queryDialog php8 fuel rounds []).follow s.asked = some (some rd) →
      (v.Means rd.resultRows ↔ v.Readable) := by
  have hs := Reception.onWire_run hk hr hroom h
  generalize run Reception.step { session := k, conn := c } ls = s at hs
  intro s htaken hwhole fuel rounds rd hread
  have hasked : s.asked = s.completed.map Receiving.asked := by
    rw [Reception.asked, Reception.completed, List.map_map]
    refine List.map_congr_left fun x hx => ?_
    rw [hs.values x hx]
    rfl
  have hvalues : (s.completed.map Receiving.got).flatten <+: v.encode :=
    List.IsPrefix.trans ⟨s.current, hs.taken⟩ htaken
  rw [hasked] at hread
  rw [queryDialog_replay 1 v.data_ne_nil v.data_length_lt hvalues hwhole hread]
  exact v.means_iff php8

/-- A row is selected by a script that has to ask twice for the first header. -/
theorem query_over_socket_selected :
    let k := (ngxSocketConnect 0 (some afInet) [] 80
      { parseUrl := .address [], retval := { connect := .established 7 } }
      ((Worker.init (fun _ => 0) fun _ => 0).session 0)).2
    let v := StatementReply.rows (.twoColumns [([49], [50])] (by decide))
    let receive := fun text bytes : Bytes => ReceptionStep.call
      (.recvsync 0 { text } bytes.length
        { recv := .data (bytes.headD 0) bytes.tail, ready := true }) false
    let s := run Reception.step { session := k, conn := 7 }
      ([.call (.recvsync 0 {} 4 { recv := .again }) false,
        .call (.recv 0 {} 4 { recv := .again }) true,
        .event 7 false .ready { recv := { recv := .data 1 [0, 0, 1], ready := true } }] ++
        (v.data.zipIdx 1).flatMap fun x =>
          let header := packLE 3 x.1.length ++ [phpChr x.2]
          (if x.2 = 1 then [] else [receive [] header]) ++ [receive header x.1])
    ∃ rd, (queryDialog true 9 3 []).follow s.asked = some (some rd) ∧ v.Means rd.resultRows := by
  intro k v receive s
  have hdone : ((queryDialog true 9 3 []).follow s.asked).join.isSome := by decide +kernel
  obtain ⟨rd, hread⟩ := Option.isSome_iff_exists.mp hdone
  have hread := Option.join_eq_some_iff.mp hread
  refine ⟨rd, hread, (query_over_socket (k := k) ?_ ?_ ?_ ?_ true v ?_ ?_ hread).mpr ?_⟩
  all_goals decide +kernel

end NgxPhp
