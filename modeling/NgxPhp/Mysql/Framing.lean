import NgxPhp.Mysql.Reading

/-!
# The length of a packet

`write_packet` puts three bytes of length in front of a packet and its number. Both readers take
the length out of two of them, so they agree with it below 65536 bytes. The login packet gives its
length as a sum, which is right for every login.
-/

namespace NgxPhp

/-- The length that `read_packet` computes for what it receives. -/
def receivedLength (packet : Bytes) : Option Nat := headerLength (packet.take 4)

/-- The length that `_parse_read_packet2` computes for what is left of the pages. -/
def parsedLength (rest : Bytes) : Option Nat :=
  headerLength ((rest.take 4 ++ List.replicate 4 0).take 4)

theorem headerLength_packLE (n : Nat) (chr : UInt8) :
    headerLength (packLE 3 n ++ [chr]) = some (n % 2 ^ 16) := by
  have hthree : phpSubstr (packLE 3 n ++ [chr]) 0 (some 3) = packLE 3 n := by
    rw [show (0 : Int) = ((0 : Nat) : Int) from rfl, show (3 : Int) = ((3 : Nat) : Int) from rfl,
      phpSubstr_natCast, List.drop_zero, List.take_left' (length_packLE 3 n)]
  have htwo : ¬ (packLE 3 n).length < 2 := by
    rw [length_packLE]
    omega
  rw [headerLength, hthree, phpUnpack, if_neg htwo, take_packLE 2 1 n, leNat_packLE,
    show 256 ^ 2 = 2 ^ 16 from rfl]

theorem writePacket_append (data : Bytes) (len : Nat) (chr : Int) (after : Bytes) :
    writePacket data len chr ++ after =
      (packLE 3 len ++ [phpChr chr]) ++ (data ++ after) := by
  simp [writePacket]

theorem length_header (len : Nat) (chr : UInt8) : (packLE 3 len ++ [chr]).length = 4 := by
  rw [List.length_append, length_packLE]
  rfl

theorem take_writePacket (data : Bytes) (len : Nat) (chr : Int) (after : Bytes) :
    (writePacket data len chr ++ after).take 4 = packLE 3 len ++ [phpChr chr] := by
  rw [writePacket_append]
  exact List.take_left' (length_header len _)

theorem drop_writePacket (data : Bytes) (len : Nat) (chr : Int) (after : Bytes) :
    (writePacket data len chr ++ after).drop 4 = data ++ after := by
  rw [writePacket_append]
  exact List.drop_left' (length_header len _)

/-- `read_packet` gets two bytes of the length, whatever follows the packet. -/
theorem receivedLength_writePacket (data : Bytes) (len : Nat) (chr : Int) (after : Bytes) :
    receivedLength (writePacket data len chr ++ after) = some (len % 2 ^ 16) := by
  rw [receivedLength, take_writePacket, headerLength_packLE]

/-- `_parse_read_packet2` gets the same: a whole header is not padded. -/
theorem parsedLength_writePacket (data : Bytes) (len : Nat) (chr : Int) (after : Bytes) :
    parsedLength (writePacket data len chr ++ after) = some (len % 2 ^ 16) := by
  rw [parsedLength, take_writePacket, List.take_left' (length_header len _), headerLength_packLE]

/-! ## The login packet -/

/-- The request string of `auth_packet`. -/
def authRequest (sha1 : Bytes → Bytes) (scramble password : Bytes) (cred : Credentials) : Bytes :=
  let stage1 := sha1 password
  let stage2 := sha1 stage1
  let stage3 := sha1 (scramble ++ stage2)
  let token := phpXor stage1 stage3
  packLE 4 0x3f7cf ++ packLE 4 1048576 ++ [phpChr cred.charset] ++
    List.replicate 23 0 ++ cred.user ++ [0] ++ [phpChr token.length] ++ token ++
    cred.database ++ [0]

/-- The length that `auth_packet` passes to `write_packet`. -/
def authLength (sha1 : Bytes → Bytes) (scramble password : Bytes) (cred : Credentials) : Nat :=
  let stage1 := sha1 password
  let stage2 := sha1 stage1
  let stage3 := sha1 (scramble ++ stage2)
  let token := phpXor stage1 stage3
  4 + 4 + 1 + 23 + cred.user.length + 1 + token.length + 1 + cred.database.length + 1

theorem authPacket_eq (sha1 : Bytes → Bytes) (scramble password : Bytes) (cred : Credentials) :
    authPacket sha1 scramble password cred =
      writePacket (authRequest sha1 scramble password cred)
        (authLength sha1 scramble password cred) 1 := rfl

theorem length_authRequest (sha1 : Bytes → Bytes) (scramble password : Bytes)
    (cred : Credentials) :
    (authRequest sha1 scramble password cred).length =
      authLength sha1 scramble password cred := by
  simp only [authRequest, authLength, List.length_append, length_packLE, List.length_replicate,
    List.length_cons, List.length_nil]
  omega

/-! ## Both directions -/

/-- Both readers compute the length that `write_packet` was given for this payload, and
`auth_packet` passes the length of its request. -/
def FramingSymmetric (payload : Bytes) (chr : Int) (sha1 : Bytes → Bytes)
    (scramble password : Bytes) (cred : Credentials) : Prop :=
  (∀ after, receivedLength (writePacket payload payload.length chr ++ after) =
      some payload.length) ∧
    (∀ after, parsedLength (writePacket payload payload.length chr ++ after) =
      some payload.length) ∧
    authLength sha1 scramble password cred = (authRequest sha1 scramble password cred).length

/-- The readers agree with the writer just below 65536 bytes; the login is always right. -/
theorem framing_symmetric_iff (payload : Bytes) (chr : Int) (sha1 : Bytes → Bytes)
    (scramble password : Bytes) (cred : Credentials) :
    FramingSymmetric payload chr sha1 scramble password cred ↔ payload.length < 2 ^ 16 := by
  simp only [FramingSymmetric, receivedLength_writePacket, parsedLength_writePacket,
    Option.some.injEq, length_authRequest, and_true]
  constructor
  · rintro ⟨hlen, -⟩
    have := hlen []
    omega
  · intro hlen
    exact ⟨fun _ => Nat.mod_eq_of_lt hlen, fun _ => Nat.mod_eq_of_lt hlen⟩

/-- A payload of 65536 bytes has no length for the readers. -/
theorem framing_not_symmetric :
    ¬ FramingSymmetric (List.replicate (2 ^ 16) 0) 0 id [] [] {} := by
  intro h
  have hlen := h.1 []
  rw [receivedLength_writePacket, List.length_replicate] at hlen
  cases hlen

end NgxPhp
