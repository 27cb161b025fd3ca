import NgxPhp.Lib.SelfDelimiting
import NgxPhp.Mysql.Framing
import NgxPhp.Mysql.LengthEncoded
import NgxPhp.Mysql.Segments
import NgxPhp.Php.Sha1

/-!
# Logging in

The server greets, and the greeting has the salt that the login is to be made with. The client
cuts it out of the greeting at places that depend on the server's version, whose length is not
announced, and answers with a packet of which the server reads user, token and database. Both
strings end with a zero byte, so they come through as far as they have none.
-/

namespace NgxPhp

open SelfDelimiting

/-! ## The client -/

/-- `strpos` of a byte from an offset on. -/
def strposByte (b : UInt8) (s : Bytes) (offset : Nat) : Option Nat :=
  if b ∈ s.drop offset then some (offset + (s.drop offset).idxOf b) else none

/-- What `handshake_packet` finds in a greeting. -/
structure Handshake where
  protocolVer : Nat
  threadId : Option Nat
  capabilities : Nat
  serverLang : Nat
  serverStatus : Option Nat
  scramble : Bytes
  deriving DecidableEq, Repr

/-- `handshake_packet` on its data. A version that does not end has its end at the front. -/
def readHandshake (data : Bytes) : Handshake :=
  let pos := (strposByte 0 data 2).getD 0 + 1
  let threadId := phpUnpack 4 (phpSubstr data pos (some 4))
  let pos := pos + 4
  let capabilities := phpUnpack 2 (phpSubstr data (pos + 9 : Nat) (some 2))
  let more := phpUnpack 2 (phpSubstr data (pos + 9 + 2 + 1 + 2 : Nat) (some 2))
  { protocolVer := phpOrd (phpSubstr data 0 (some 1))
    threadId
    capabilities := capabilities.getD 0 ||| more.getD 0 <<< 16
    serverLang := phpOrd (phpSubstr data (pos + 9 + 2 : Nat) (some 1))
    serverStatus := phpUnpack 2 (phpSubstr data (pos + 9 + 2 + 1 : Nat) (some 2))
    scramble := phpSubstr data pos (some 8) ++
      phpSubstr data (pos + 9 + 2 + 1 + 2 + 2 + 1 + 10 : Nat) (some (21 - 8 - 1)) }

/-- `read_packet` returns the data of a packet that is none of those it knows. -/
def Reader.returns (r : Reader) (p : Packet) : Bool :=
  p.fieldCount ≠ 0x00 ∧ p.fieldCount ≠ 0xff ∧ p.fieldCount ≠ 0xfe ∧
    ¬ (p.fieldCount = 1 ∧ r.resultState = 0) ∧ r.resultState ≠ 1 ∧
    ¬ (r.resultState = 2 ∨ r.resultState = 201)

/-- What `read_packet` returns of a packet; null for one that it knows. -/
def readPacketData (r : Reader) (arrived : Bytes) (answers : List Chunk) : Option Bytes :=
  match awaitHeader arrived answers with
  | none => none
  | some (header, w) =>
    let length := headerLength header
    let data := readData header (w.recv (length.getD 0)).1
    if r.returns { length, data } then some data else none

/-- `handshake_packet`. An offset behind the end of the data is an error of `strpos`. -/
def handshakePacket (r : Reader) (arrived : Bytes) (answers : List Chunk) : Option Handshake :=
  match readPacketData r arrived answers with
  | none => none
  | some data => if phpEmpty data ∨ data.length < 2 then none else some (readHandshake data)

/-- `connect` on a connection that is not from the pool: the packet that it sends, or none when it
gives up. -/
def mysqlConnect (sha1 : Bytes → Bytes) (r : Reader) (cred : Credentials) (password arrived : Bytes)
    (answers : List Chunk) : Option Bytes :=
  match handshakePacket r arrived answers with
  | none => none
  | some h => if phpEmpty h.scramble then none else some (authPacket sha1 h.scramble password cred)

/-! ## The greeting -/

/-- A greeting of protocol 10. -/
structure Greeting where
  version : Bytes
  threadId : Nat
  salt : Bytes
  capabilities : Nat
  charset : Nat
  status : Nat
  authLength : UInt8
  /-- The end of the salt and the name of the plugin. -/
  behind : Bytes
  version_ne : version ≠ []
  version_text : 0 ∉ version
  threadId_lt : threadId < 256 ^ 4
  salt_length : salt.length = 20
  capabilities_lt : capabilities < 256 ^ 4
  charset_lt : charset < 256
  status_lt : status < 256 ^ 2
  short : version.length + behind.length < 2 ^ 15

namespace Greeting

variable (g : Greeting)

def encode : Bytes :=
  [10] ++ (g.version ++ ([0] ++ (packLE 4 g.threadId ++ (g.salt.take 8 ++ ([0] ++
    (packLE 2 g.capabilities ++ (packLE 1 g.charset ++ (packLE 2 g.status ++
      (packLE 2 (g.capabilities / 2 ^ 16) ++ (([g.authLength] ++ List.replicate 10 0) ++
        (g.salt.drop 8 ++ g.behind)))))))))))

/-- What there is to find in it. -/
def handshake : Handshake where
  protocolVer := 10
  threadId := some g.threadId
  capabilities := g.capabilities
  serverLang := g.charset
  serverStatus := some g.status
  scramble := g.salt

end Greeting

section Position

variable {data a t : Bytes} {p : Nat}

/-- A part of the text is cut out where it stands. -/
theorem phpSubstr_at (h : data.drop p = a ++ t) : phpSubstr data p (some a.length) = a := by
  rw [phpSubstr_natCast, h, List.take_left]

/-- A number is unpacked where it stands. -/
theorem phpUnpack_at {k n : Nat} (h : data.drop p = packLE k n ++ t) :
    phpUnpack k (phpSubstr data p (some k)) = some (n % 256 ^ k) := by
  have hsub := phpSubstr_at h
  have hlen := length_packLE k n
  rw [hlen] at hsub
  rw [hsub, phpUnpack, if_neg (by omega), List.take_of_length_le (by omega), leNat_packLE]

/-- A byte is read where it stands. -/
theorem phpOrd_packLE {n : Nat} (h : data.drop p = packLE 1 n ++ t) (hn : n < 256) :
    phpOrd (phpSubstr data p (some 1)) = n := by
  rw [phpOrd_at, h]
  exact UInt8.toNat_ofNat_of_lt' hn

end Position

/-- The zero byte behind a text that starts at the second place. -/
theorem strposByte_version {b : UInt8} {s t : Bytes} (hs : s ≠ []) (htext : 0 ∉ s) :
    strposByte 0 (b :: (s ++ 0 :: t)) 2 = some (s.length + 1) := by
  obtain ⟨c, s, rfl⟩ := List.exists_cons_of_ne_nil hs
  have hdrop : (b :: ((c :: s) ++ 0 :: t)).drop 2 = s ++ 0 :: t := rfl
  have hnot : 0 ∉ s := fun h => htext (List.mem_cons_of_mem c h)
  rw [strposByte, hdrop, if_pos (by simp), List.idxOf_append_of_notMem hnot, List.idxOf_cons_self,
    List.length_cons]
  congr 1
  omega

/-- Two halves of a number of four bytes. -/
theorem or_halves {n : Nat} (hn : n < 256 ^ 4) :
    n % 256 ^ 2 ||| (n / 2 ^ 16 % 256 ^ 2) <<< 16 = n := by
  have hlow : n % 256 ^ 2 < 2 ^ 16 := Nat.mod_lt _ (by decide)
  rw [Nat.or_comm, ← Nat.shiftLeft_add_eq_or_of_lt hlow, Nat.shiftLeft_eq]
  omega

namespace Greeting

variable (g : Greeting)

/-- `handshake_packet` finds everything in a greeting. -/
theorem readHandshake_encode : readHandshake g.encode = g.handshake := by
  have hpos : strposByte 0 g.encode 2 = some (g.version.length + 1) :=
    strposByte_version g.version_ne g.version_text
  have htake : (g.salt.take 8).length = 8 := by
    rw [List.length_take, g.salt_length]
    rfl
  have hdrop : (g.salt.drop 8).length = 12 := by rw [List.length_drop, g.salt_length]
  -- one place behind the other
  have hversion : g.encode.drop 1 = g.version ++ _ := rfl
  have hzero := drop_of_append hversion
  rw [Nat.add_comm] at hzero
  have hthread := drop_of_append hzero
  have hsalt := drop_of_append hthread
  have hfiller := drop_of_append hsalt
  have hlower := drop_of_append hfiller
  have hcharset := drop_of_append hlower
  have hstatus := drop_of_append hcharset
  have hupper := drop_of_append hstatus
  have hlength := drop_of_append hupper
  have hsalt₂ := drop_of_append hlength
  simp only [length_packLE, htake, List.length_cons, List.length_nil, List.length_append,
    List.length_replicate, Nat.add_assoc,
    Nat.reduceAdd] at hthread hsalt hlower hcharset hstatus hupper hsalt₂
  have hscramble : phpSubstr g.encode (g.version.length + 6 : Nat) (some 8) = g.salt.take 8 := by
    have hsub := phpSubstr_at hsalt
    rwa [htake] at hsub
  have hscramble₂ : phpSubstr g.encode (g.version.length + 33 : Nat) (some 12) =
      g.salt.drop 8 := by
    have hsub := phpSubstr_at hsalt₂
    rwa [hdrop] at hsub
  have hthreadId : phpUnpack 4 (phpSubstr g.encode (g.version.length + 2 : Nat) (some 4)) =
      some g.threadId := by
    have hunpack := phpUnpack_at hthread
    rwa [Nat.mod_eq_of_lt g.threadId_lt] at hunpack
  have hlow : phpUnpack 2 (phpSubstr g.encode (g.version.length + 15 : Nat) (some 2)) =
      some (g.capabilities % 256 ^ 2) := phpUnpack_at hlower
  have hlang : phpOrd (phpSubstr g.encode (g.version.length + 17 : Nat) (some 1)) = g.charset :=
    phpOrd_packLE hcharset g.charset_lt
  have hserver : phpUnpack 2 (phpSubstr g.encode (g.version.length + 18 : Nat) (some 2)) =
      some g.status := by
    have hunpack := phpUnpack_at hstatus
    rwa [Nat.mod_eq_of_lt g.status_lt] at hunpack
  have hmore : phpUnpack 2 (phpSubstr g.encode (g.version.length + 20 : Nat) (some 2)) =
      some (g.capabilities / 2 ^ 16 % 256 ^ 2) := phpUnpack_at hupper
  have hfirst : phpOrd (phpSubstr g.encode 0 (some 1)) = 10 := phpOrd_at g.encode 0
  unfold readHandshake
  simp only [hpos, Option.getD_some, Nat.add_assoc, Nat.reduceAdd, handshake, hfirst, hthreadId,
    hlow, hmore, hlang, hserver, hscramble, Int.reduceSub, hscramble₂, List.take_append_drop,
    or_halves g.capabilities_lt]

end Greeting

/-! ## The greeting on the wire -/

/-- A greeting has 45 bytes besides its version and what is behind. -/
theorem Greeting.length_encode (g : Greeting) :
    g.encode.length = g.version.length + g.behind.length + 45 := by
  have hsalt := g.salt_length
  simp only [Greeting.encode, List.length_append, length_packLE, List.length_cons,
    List.length_nil, List.length_replicate, List.length_take, List.length_drop]
  omega

/-- The packet that a server sends first. -/
def Greeting.packet (g : Greeting) : Bytes := writePacket g.encode g.encode.length 0

/-- After receives that get nothing the header comes whole, and then `n` bytes of data do. -/
def Arrives (arrived : Bytes) (answers : List Chunk) (n : Nat) : Prop :=
  let w : Wire := { rest := arrived, answers := answers.dropWhile (·.isNone) }
  w.Whole 4 ∧ (w.recv 4).2.Whole n

instance decidableArrives (arrived : Bytes) (answers : List Chunk) (n : Nat) :
    Decidable (Arrives arrived answers n) :=
  inferInstanceAs (Decidable (_ ∧ _))

/-- `read_packet` has the data of a packet that arrives. -/
theorem readPacketData_writePacket {r : Reader} {data : Bytes} (chr : Int) {answers : List Chunk}
    (hne : data ≠ []) (hlt : data.length < 2 ^ 16)
    (h : Arrives (writePacket data data.length chr) answers data.length) :
    readPacketData r (writePacket data data.length chr) answers =
      if r.returns { length := some data.length, data } then some data else none := by
  obtain ⟨hheader, hdata⟩ := h
  have hpacket : writePacket data data.length chr =
      (packLE 3 data.length ++ [phpChr chr]) ++ data := by
    simpa using writePacket_append data data.length chr []
  have htake : (writePacket data data.length chr).take 4 =
      packLE 3 data.length ++ [phpChr chr] := by
    simpa using take_writePacket data data.length chr []
  have hlen : 4 ≤ (writePacket data data.length chr).length := by
    rw [hpacket, List.length_append, length_header]
    omega
  have hawait := awaitHeader_of_whole hlen hheader
  have hgot : (((Wire.mk (writePacket data data.length chr) none
      (answers.dropWhile (·.isNone))).recv 4).2.recv data.length).1 = data := by
    rw [hdata, hheader.atOnce]
    have hroom : (packLE 3 data.length ++ [phpChr chr]) ≠ [] := by
      intro hnil
      exact absurd (congrArg List.length hnil) (by rw [length_header]; decide)
    have hdrop : (writePacket data data.length chr).drop 4 = data := by
      simpa using drop_writePacket data data.length chr []
    simp [Wire.recv, Wire.atOnce, Wire.granted, Wire.size, htake, hroom, hdrop]
  unfold readPacketData
  rw [awaitHeader_dropWhile, hawait]
  dsimp only
  rw [htake, headerLength_packLE, Nat.mod_eq_of_lt hlt, Option.getD_some, hgot, readData,
    if_neg hne]

/-- The object is not in the middle of a result. -/
def Reader.Idle (r : Reader) : Prop :=
  r.resultState ≠ 1 ∧ r.resultState ≠ 2 ∧ r.resultState ≠ 201

instance (r : Reader) : Decidable r.Idle := inferInstanceAs (Decidable (_ ∧ _))

/-- A greeting is taken for a packet of a result by an object that is in the middle of one. -/
theorem Greeting.handshakePacket_packet (g : Greeting) (r : Reader) {answers : List Chunk}
    (h : Arrives g.packet answers g.encode.length) :
    handshakePacket r g.packet answers = if r.Idle then some g.handshake else none := by
  have hlen := g.length_encode
  have hshort := g.short
  have hne : g.encode ≠ [] := List.cons_ne_nil _ _
  have hcount : (Packet.mk (some g.encode.length) g.encode).fieldCount = 10 := by
    rw [Packet.fieldCount, if_neg fun hone => by
      have := Option.some.inj hone
      omega]
    rfl
  have hreturns : r.returns ⟨some g.encode.length, g.encode⟩ = decide r.Idle := by
    unfold Reader.returns
    rw [hcount, decide_eq_decide]
    simp [Reader.Idle]
  have hempty : ¬ (phpEmpty g.encode = true ∨ g.encode.length < 2) := by
    rw [phpEmpty, Bool.or_eq_true, decide_eq_true_iff, decide_eq_true_iff]
    rintro ((hnil | hone) | hlt)
    · exact hne hnil
    · have := congrArg List.length hone
      rw [hlen] at this
      cases this
    · omega
  unfold handshakePacket Greeting.packet
  rw [readPacketData_writePacket 0 hne (by omega) h, hreturns]
  by_cases hidle : r.Idle
  · rw [if_pos (decide_eq_true hidle), if_pos hidle]
    dsimp only
    rw [if_neg hempty, g.readHandshake_encode]
  · rw [if_neg (by simpa using hidle), if_neg hidle]

/-! ## The server -/

/-- A number of `k` bytes. -/
def readNumber (k : Nat) : PrefixReader UInt8 Nat := fun s =>
  (readCount k s).map fun p => (leNat p.1, p.2)

/-- A text with a zero byte behind it. -/
def readText : PrefixReader UInt8 Bytes
  | [] => none
  | b :: s => if b = 0 then some ([], s) else (readText s).map fun p => (b :: p.1, p.2)

/-- A text with its length in front of it. -/
def readSized : PrefixReader UInt8 Bytes := readBind (readNumber 1) readCount

/-- A packet with this number. -/
def readFrame (seq : UInt8) : PrefixReader UInt8 Bytes :=
  readBind (readNumber 3) fun n => readBind (readExact [seq]) fun _ => readCount n

/-- What a client asks for. -/
structure LoginRequest where
  flags : Nat
  maxPacket : Nat
  charset : Nat
  user : Bytes
  token : Bytes
  database : Bytes
  deriving DecidableEq, Repr

/-- The flags say how the token is written, and whether there is a database. -/
def readLogin : PrefixReader UInt8 LoginRequest :=
  readBind (readNumber 4) fun flags =>
  readBind (readNumber 4) fun maxPacket =>
  readBind (readNumber 1) fun charset =>
  readBind (readCount 23) fun _ =>
  readBind readText fun user =>
  readBind (if flags.testBit 15 then readSized else readText) fun token =>
  readBind (if flags.testBit 3 then readText else readPure []) fun database =>
  readPure { flags, maxPacket, charset, user, token, database }

/-- What a server keeps of a password: nothing of the empty one. -/
def storedPassword (sha1 : Bytes → Bytes) (password : Bytes) : Bytes :=
  if password = [] then [] else sha1 (sha1 password)

/-- A token is right if it becomes what hashes to what is stored. -/
def checkToken (sha1 : Bytes → Bytes) (salt stored token : Bytes) : Bool :=
  if stored = [] then token = []
  else sha1 (phpXor token (sha1 (salt ++ stored))) = stored

structure MysqlServer where
  greeting : Greeting
  /-- What is stored for a user. -/
  accounts : Bytes → Option Bytes

/-- The session that a server gives for what it gets behind its greeting. -/
def MysqlServer.login (srv : MysqlServer) (sha1 : Bytes → Bytes) (sent : Bytes) :
    Option Credentials :=
  match readFrame 1 sent with
  | none => none
  | some (payload, _) =>
    match readLogin payload with
    | none => none
    | some (req, _) =>
      match srv.accounts req.user with
      | none => none
      | some stored =>
        if checkToken sha1 srv.greeting.salt stored req.token then
          some { user := req.user, database := req.database, charset := req.charset }
        else none

/-! ### How it reads -/

/-- A number of `k` bytes is read as it was packed. -/
theorem readNumber_packLE (k n : Nat) (t : Bytes) :
    readNumber k (packLE k n ++ t) = some (n % 256 ^ k, t) := by
  have hcount := readCount_append (packLE k n) t
  rw [length_packLE] at hcount
  rw [readNumber, hcount, Option.map_some, leNat_packLE]

/-- A byte is read as a number. -/
theorem readNumber_byte (b : UInt8) (t : Bytes) : readNumber 1 (b :: t) = some (b.toNat, t) := by
  rw [readNumber, show readCount 1 (b :: t) = some ([b], t) from readCount_append [b] t]
  simp [leNat]

/-- A text is read up to its zero byte. -/
theorem readText_append {s : Bytes} (hs : 0 ∉ s) (t : Bytes) :
    readText (s ++ 0 :: t) = some (s, t) := by
  induction s with
  | nil => rfl
  | cons b s ih =>
    obtain ⟨hb, hs⟩ := not_or.mp (fun h => hs (List.mem_cons.mpr h))
    rw [List.cons_append, readText, if_neg (Ne.symm hb), ih hs]
    rfl

/-- A text that was read has no zero byte, and one stands behind it. -/
theorem readText_eq_some {s x t : Bytes} (h : readText s = some (x, t)) :
    0 ∉ x ∧ s = x ++ 0 :: t := by
  induction s generalizing x with
  | nil => cases h
  | cons b s ih =>
    rw [readText] at h
    split at h
    next hb =>
      obtain ⟨rfl, rfl⟩ := Prod.mk.inj (Option.some.inj h)
      exact ⟨List.not_mem_nil, by rw [hb, List.nil_append]⟩
    next hb =>
      obtain ⟨⟨y, u⟩, hread, hp⟩ := Option.map_eq_some_iff.mp h
      obtain ⟨rfl, rfl⟩ := Prod.mk.inj hp
      obtain ⟨hy, rfl⟩ := ih hread
      refine ⟨?_, rfl⟩
      intro hmem
      rcases List.mem_cons.mp hmem with hzero | hmem
      · exact hb hzero.symm
      · exact hy hmem

/-- What is behind a text does not change how it is read. -/
theorem stable_readText : Stable readText := by
  intro s x t h u
  obtain ⟨hx, rfl⟩ := readText_eq_some h
  rw [List.append_assoc, List.cons_append, readText_append hx]

/-- What is behind a number does not change how it is read. -/
theorem stable_readNumber (k : Nat) : Stable (readNumber k) :=
  (stable_readCount k).map leNat

/-- What is behind a login does not change how it is read. -/
theorem stable_readLogin : Stable readLogin := by
  refine (stable_readNumber 4).bind fun flags => ?_
  refine (stable_readNumber 4).bind fun maxPacket => ?_
  refine (stable_readNumber 1).bind fun charset => ?_
  refine (stable_readCount 23).bind fun _ => ?_
  refine stable_readText.bind fun user => ?_
  have htoken : Stable (if flags.testBit 15 then readSized else readText) := by
    split
    · exact (stable_readNumber 1).bind stable_readCount
    · exact stable_readText
  have hdatabase : Stable (if flags.testBit 3 then readText else readPure []) := by
    split
    · exact stable_readText
    · exact stable_readPure []
  refine htoken.bind fun token => ?_
  exact hdatabase.bind fun database => stable_readPure _

/-! ## The login -/

section Login

variable {sha1 : Bytes → Bytes} {salt password : Bytes} {cred : Credentials}

/-- The token of `auth_packet`. -/
def loginToken (sha1 : Bytes → Bytes) (salt password : Bytes) : Bytes :=
  phpXor (sha1 password) (sha1 (salt ++ sha1 (sha1 password)))

/-- A token is as long as a digest. -/
theorem length_loginToken (hsha1 : ∀ s, (sha1 s).length = 20) :
    (loginToken sha1 salt password).length = 20 := by
  rw [loginToken, phpXor, List.length_zipWith, hsha1, hsha1]
  rfl

/-- The request of a client behind its fixed part. -/
theorem readLogin_authRequest (sha1 : Bytes → Bytes) (salt password : Bytes)
    (cred : Credentials) :
    readLogin (authRequest sha1 salt password cred) =
      readBind readText (fun user => readBind readSized fun token =>
        readBind readText fun database => readPure
          { flags := 0x3f7cf, maxPacket := 1048576, charset := (phpChr cred.charset).toNat,
            user, token, database })
        (cred.user ++ 0 :: (phpChr (loginToken sha1 salt password).length ::
          (loginToken sha1 salt password ++ (cred.database ++ [0])))) := by
  have hsplit : authRequest sha1 salt password cred =
      packLE 4 0x3f7cf ++ (packLE 4 1048576 ++ (phpChr cred.charset ::
        (List.replicate 23 0 ++ (cred.user ++ 0 ::
          (phpChr (loginToken sha1 salt password).length ::
            (loginToken sha1 salt password ++ (cred.database ++ [0]))))))) := by
    simp [authRequest, loginToken]
  have hreserved : ∀ t : Bytes, readCount 23 (List.replicate 23 0 ++ t) =
      some (List.replicate 23 0, t) := readCount_append (List.replicate 23 0)
  rw [hsplit, readLogin, readBind_of_some (readNumber_packLE 4 _ _),
    readBind_of_some (readNumber_packLE 4 _ _), readBind_of_some (readNumber_byte _ _),
    readBind_of_some (hreserved _)]
  rfl

/-- A token of 20 bytes has its length in front of it. -/
theorem readSized_append {s : Bytes} (hs : s.length < 256) (t : Bytes) :
    readSized (phpChr s.length :: (s ++ t)) = some (s, t) := by
  have hnumber : readNumber 1 (phpChr s.length :: (s ++ t)) = some (s.length, s ++ t) := by
    have hbyte : (phpChr s.length).toNat = s.length := by
      have hmod : ((s.length : Int) % 256).toNat = s.length := by omega
      rw [phpChr, hmod]
      exact UInt8.toNat_ofNat_of_lt' hs
    rw [readNumber_byte, hbyte]
  rw [readSized, readBind_of_some hnumber, readCount_append]

/-- What a server reads of a request it reads to the end if it is what was asked for. -/
theorem readLogin_eq_some (hsha1 : ∀ s, (sha1 s).length = 20) {req : LoginRequest} {t : Bytes}
    (h : readLogin (authRequest sha1 salt password cred) = some (req, t))
    (huser : req.user = cred.user) (hdatabase : req.database = cred.database) :
    0 ∉ cred.user ∧ 0 ∉ cred.database ∧ req.token = loginToken sha1 salt password ∧
      req.charset = (phpChr cred.charset).toNat ∧ t = [] := by
  rw [readLogin_authRequest] at h
  obtain ⟨user, s, hread, h⟩ := readBind_eq_some.mp h
  obtain ⟨token, s₂, hread₂, h⟩ := readBind_eq_some.mp h
  obtain ⟨database, s₃, hread₃, h⟩ := readBind_eq_some.mp h
  obtain ⟨rfl, rfl⟩ := Prod.mk.inj (Option.some.inj h)
  dsimp only at huser hdatabase
  subst huser hdatabase
  have hzero := (readText_eq_some hread).1
  rw [readText_append hzero] at hread
  obtain ⟨-, rfl⟩ := Prod.mk.inj (Option.some.inj hread)
  rw [readSized_append (by rw [length_loginToken hsha1]; decide)] at hread₂
  obtain ⟨rfl, rfl⟩ := Prod.mk.inj (Option.some.inj hread₂)
  have hzero₃ := (readText_eq_some hread₃).1
  rw [readText_append hzero₃] at hread₃
  obtain ⟨-, rfl⟩ := Prod.mk.inj (Option.some.inj hread₃)
  exact ⟨hzero, hzero₃, rfl, rfl, rfl⟩

/-- A request whose texts have no zero byte is read. -/
theorem readLogin_of_texts (hsha1 : ∀ s, (sha1 s).length = 20) (huser : 0 ∉ cred.user)
    (hdatabase : 0 ∉ cred.database) :
    readLogin (authRequest sha1 salt password cred) =
      some ({ flags := 0x3f7cf, maxPacket := 1048576, charset := (phpChr cred.charset).toNat,
              user := cred.user, token := loginToken sha1 salt password,
              database := cred.database }, []) := by
  rw [readLogin_authRequest, readBind_of_some (readText_append huser _),
    readBind_of_some (readSized_append (by rw [length_loginToken hsha1]; decide) _),
    readBind_of_some (readText_append hdatabase _)]
  rfl

/-- A packet is read as far as three bytes can give its length. -/
theorem readFrame_writePacket (data : Bytes) (n : Int) :
    readFrame (phpChr n) (writePacket data data.length n) =
      some (data.take (data.length % 256 ^ 3), data.drop (data.length % 256 ^ 3)) := by
  have hle := Nat.mod_le data.length (256 ^ 3)
  have hseq : readExact [phpChr n] (phpChr n :: data) = some ((), data) :=
    readExact_append [phpChr n] data
  rw [writePacket, readFrame, readBind_of_some (readNumber_packLE 3 _ _),
    readBind_of_some hseq, readCount, if_pos hle]

/-- The server has the whole request, or does not read it. -/
theorem readLogin_sent (hsha1 : ∀ s, (sha1 s).length = 20) {n : Nat} {req : LoginRequest}
    {t : Bytes} (h : readLogin ((authRequest sha1 salt password cred).take n) = some (req, t))
    (huser : req.user = cred.user) (hdatabase : req.database = cred.database) :
    0 ∉ cred.user ∧ 0 ∉ cred.database ∧ req.token = loginToken sha1 salt password ∧
      req.charset = (phpChr cred.charset).toNat ∧
      (authRequest sha1 salt password cred).length ≤ n := by
  have hwhole := stable_readLogin h ((authRequest sha1 salt password cred).drop n)
  rw [List.take_append_drop] at hwhole
  obtain ⟨hu, hd, htoken, hcharset, hnil⟩ := readLogin_eq_some hsha1 hwhole huser hdatabase
  exact ⟨hu, hd, htoken, hcharset, List.drop_eq_nil_iff.mp (List.append_eq_nil_iff.mp hnil).2⟩

/-- What can be asked for in a login packet. -/
def Credentials.Sendable (cred : Credentials) : Prop :=
  0 ∉ cred.user ∧ 0 ∉ cred.database ∧ 0 ≤ cred.charset ∧ cred.charset < 256 ∧
    cred.user.length + cred.database.length + 55 < 256 ^ 3

instance (cred : Credentials) : Decidable cred.Sendable := inferInstanceAs (Decidable (_ ∧ _))

/-- A login with a token has 55 bytes besides its user and database. -/
theorem length_authRequest_token (hsha1 : ∀ s, (sha1 s).length = 20) :
    (authRequest sha1 salt password cred).length =
      cred.user.length + cred.database.length + 55 := by
  have htoken : (loginToken sha1 salt password).length = 20 := length_loginToken hsha1
  rw [loginToken] at htoken
  rw [length_authRequest, authLength]
  omega

/-- A byte says the integers from 0 to 255. -/
theorem phpChr_eq_iff (n : Int) : ((phpChr n).toNat : Int) = n ↔ 0 ≤ n ∧ n < 256 := by
  have hlt : (n % 256).toNat < 256 := by omega
  have hbyte : (phpChr n).toNat = (n % 256).toNat := UInt8.toNat_ofNat_of_lt' hlt
  rw [hbyte]
  omega

/-- A server lets a user in with just the session that was asked for if it could be asked for and
the token is right for the account. -/
theorem MysqlServer.login_authPacket (srv : MysqlServer) (hsha1 : ∀ s, (sha1 s).length = 20)
    (cred : Credentials) (password : Bytes) :
    srv.login sha1 (authPacket sha1 salt password cred) = some cred ↔
      cred.Sendable ∧ ∃ stored, srv.accounts cred.user = some stored ∧
        checkToken sha1 srv.greeting.salt stored (loginToken sha1 salt password) = true := by
  have hlen : (authRequest sha1 salt password cred).length =
      cred.user.length + cred.database.length + 55 := length_authRequest_token hsha1
  have hframe := readFrame_writePacket (authRequest sha1 salt password cred) 1
  rw [length_authRequest, ← authPacket_eq, ← length_authRequest] at hframe
  unfold login
  rw [show (1 : UInt8) = phpChr 1 by decide, hframe]
  dsimp only
  constructor
  · intro h
    split at h
    · cases h
    next req t hread =>
      split at h
      · cases h
      next stored hstored =>
        split at h
        next hcheck =>
          have heq := Option.some.inj h
          have huser : req.user = cred.user := congrArg Credentials.user heq
          have hdatabase : req.database = cred.database := congrArg Credentials.database heq
          obtain ⟨hu, hd, htoken, hcharset, hle⟩ := readLogin_sent hsha1 hread huser hdatabase
          have hsame : ((phpChr cred.charset).toNat : Int) = cred.charset := by
            rw [← hcharset]
            exact congrArg Credentials.charset heq
          obtain ⟨hpos, hlt⟩ := (phpChr_eq_iff cred.charset).mp hsame
          have hmod := Nat.mod_lt (authRequest sha1 salt password cred).length
            (show 256 ^ 3 > 0 by decide)
          rw [huser] at hstored
          rw [htoken] at hcheck
          exact ⟨⟨hu, hd, hpos, hlt, by omega⟩, stored, hstored, hcheck⟩
        · cases h
  · rintro ⟨⟨hu, hd, hpos, hlt, hshort⟩, stored, hstored, hcheck⟩
    have hcharset := (phpChr_eq_iff cred.charset).mpr ⟨hpos, hlt⟩
    rw [hlen, Nat.mod_eq_of_lt hshort, ← hlen, List.take_length, readLogin_of_texts hsha1 hu hd]
    dsimp only
    rw [hstored]
    dsimp only
    rw [if_pos hcheck, hcharset]

/-- A text is got back by the same pad. -/
theorem phpXor_cancel {s t : Bytes} (h : s.length = t.length) : phpXor (phpXor s t) t = s := by
  induction s generalizing t with
  | nil => rfl
  | cons b s ih =>
    cases t with
    | nil => cases h
    | cons c t =>
      have hbyte : (b ^^^ c) ^^^ c = b := by
        rw [UInt8.xor_assoc, UInt8.xor_self, UInt8.xor_zero]
      have htail : phpXor (phpXor s t) t = s := ih (Nat.succ.inj h)
      change ((b ^^^ c) ^^^ c) :: phpXor (phpXor s t) t = b :: s
      rw [hbyte, htail]

/-- The token of a password is right for an account with this password, unless it has none. -/
theorem checkToken_storedPassword (hsha1 : ∀ s, (sha1 s).length = 20) :
    checkToken sha1 salt (storedPassword sha1 password) (loginToken sha1 salt password) = true ↔
      password ≠ [] := by
  have htoken : loginToken sha1 salt password ≠ [] := by
    intro hnil
    have hlen : (loginToken sha1 salt password).length = 20 := length_loginToken hsha1
    rw [hnil] at hlen
    cases hlen
  have hhash : sha1 (sha1 password) ≠ [] := by
    intro hnil
    have hlen := hsha1 (sha1 password)
    rw [hnil] at hlen
    cases hlen
  unfold checkToken storedPassword
  by_cases hp : password = []
  · rw [if_pos hp, if_pos rfl]
    exact iff_of_false (by simpa using htoken) (not_not.mpr hp)
  · rw [if_neg hp, if_neg hhash, loginToken, phpXor_cancel (by rw [hsha1, hsha1])]
    exact iff_of_true (decide_eq_true rfl) hp

end Login

/-- The session that a server gives to a client that connects to it, if it gives one. -/
def MysqlServer.session (srv : MysqlServer) (sha1 : Bytes → Bytes) (r : Reader)
    (cred : Credentials) (password : Bytes) (answers : List Chunk) : Option Credentials :=
  (mysqlConnect sha1 r cred password srv.greeting.packet answers).bind (srv.login sha1)

/-- The greeting arrives as it is read. -/
def MysqlServer.Greets (srv : MysqlServer) (answers : List Chunk) : Prop :=
  Arrives srv.greeting.packet answers srv.greeting.encode.length

instance (srv : MysqlServer) (answers : List Chunk) : Decidable (srv.Greets answers) :=
  inferInstanceAs (Decidable (Arrives _ _ _))

section Session

variable (srv : MysqlServer) {sha1 : Bytes → Bytes} (r : Reader) (cred : Credentials)
  (password : Bytes) {answers : List Chunk}

/-- What a client that is not in the middle of a result sends is what the server answers. -/
theorem MysqlServer.session_eq (hgreets : srv.Greets answers) :
    srv.session sha1 r cred password answers =
      if r.Idle then srv.login sha1 (authPacket sha1 srv.greeting.salt password cred)
      else none := by
  have hsalt : phpEmpty srv.greeting.handshake.scramble = false := by
    have hlen : srv.greeting.handshake.scramble.length = 20 := srv.greeting.salt_length
    rw [phpEmpty, Bool.or_eq_false_iff, decide_eq_false_iff_not,
      decide_eq_false_iff_not]
    constructor
    · intro hs
      rw [hs] at hlen
      cases hlen
    · intro hs
      rw [hs] at hlen
      cases hlen
  unfold session mysqlConnect
  rw [srv.greeting.handshakePacket_packet r hgreets]
  by_cases hidle : r.Idle
  · rw [if_pos hidle, if_pos hidle]
    dsimp only
    rw [hsalt]
    rfl
  · rw [if_neg hidle, if_neg hidle]
    rfl

/-- A client that connects gets just the session that it asks for, exactly when it is not in the
middle of a result, the session can be asked for, and its token is right for the account. -/
theorem mysql_login_iff (hsha1 : ∀ s, (sha1 s).length = 20) (hgreets : srv.Greets answers) :
    srv.session sha1 r cred password answers = some cred ↔
      r.Idle ∧ cred.Sendable ∧ ∃ stored, srv.accounts cred.user = some stored ∧
        checkToken sha1 srv.greeting.salt stored
          (loginToken sha1 srv.greeting.salt password) = true := by
  rw [srv.session_eq r cred password hgreets]
  by_cases hidle : r.Idle
  · rw [if_pos hidle, and_iff_right hidle]
    exact srv.login_authPacket hsha1 cred password
  · rw [if_neg hidle]
    exact iff_of_false nofun fun h => hidle h.1

/-- The password of the account opens the session, unless it is empty: to an account without a
password nobody gets in. -/
theorem MysqlServer.session_password (hsha1 : ∀ s, (sha1 s).length = 20)
    (hgreets : srv.Greets answers)
    (haccount : srv.accounts cred.user = some (storedPassword sha1 password)) :
    srv.session sha1 r cred password answers = some cred ↔
      r.Idle ∧ cred.Sendable ∧ password ≠ [] := by
  rw [srv.session_eq r cred password hgreets]
  by_cases hidle : r.Idle
  · rw [if_pos hidle, and_iff_right hidle, srv.login_authPacket hsha1, haccount]
    apply and_congr_right
    intro hsend
    constructor
    · rintro ⟨stored, hstored, hcheck⟩
      rw [← Option.some.inj hstored] at hcheck
      exact (checkToken_storedPassword hsha1).mp hcheck
    · intro hpassword
      exact ⟨_, rfl, (checkToken_storedPassword hsha1).mpr hpassword⟩
  · rw [if_neg hidle]
    exact iff_of_false nofun fun h => hidle h.1

end Session

/-- A server of version `8` with one user. -/
def MysqlServer.oneUser (sha1 : Bytes → Bytes) (user password : Bytes) : MysqlServer where
  greeting := {
    version := [56]
    threadId := 7
    salt := List.replicate 20 65
    capabilities := 0x3f7cf
    charset := 33
    status := 2
    authLength := 21
    behind := [0]
    version_ne := by decide
    version_text := by decide
    threadId_lt := by decide
    salt_length := rfl
    capabilities_lt := by decide
    charset_lt := by decide
    status_lt := by decide
    short := by decide }
  accounts := fun u => if u = user then some (storedPassword sha1 password) else none

/-- The user logs in with the password of the account, and not with another one. -/
theorem mysql_login_iff_root :
    let srv := MysqlServer.oneUser phpSha1 [114] [112]
    srv.session phpSha1 {} { user := [114] } [112] [none, none] = some { user := [114] } ∧
      srv.session phpSha1 {} { user := [114] } [113] [none, none] ≠ some { user := [114] } := by
  intro srv
  have hgreets : srv.Greets [none, none] := by decide +kernel
  constructor
  · refine (mysql_login_iff srv _ _ _ length_phpSha1 hgreets).mpr ⟨by decide, by decide, ?_⟩
    exact ⟨storedPassword phpSha1 [112], rfl, by decide +kernel⟩
  · rw [ne_eq, mysql_login_iff srv _ _ _ length_phpSha1 hgreets]
    rintro ⟨-, -, stored, hstored, hcheck⟩
    obtain rfl := Option.some.inj hstored
    exact absurd hcheck (by decide +kernel)

end NgxPhp
