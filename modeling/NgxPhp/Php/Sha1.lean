import NgxPhp.Nginx.Cycle

/-!
# The hash of PHP

`sha1` with its second argument set, as the login uses it: the digest of a string of bytes, of
twenty bytes itself. The words of the message schedule are made as the rounds go on, from the
sixteen words before.
-/

namespace NgxPhp

namespace Sha1

/-- A word of the hash. -/
abbrev Word := BitVec 32

/-- What is hashed so far. -/
structure State where
  a : Word
  b : Word
  c : Word
  d : Word
  e : Word

def State.initial : State :=
  ⟨0x67452301, 0xefcdab89, 0x98badcfe, 0x10325476, 0xc3d2e1f0⟩

def State.add (s t : State) : State := ⟨s.a + t.a, s.b + t.b, s.c + t.c, s.d + t.d, s.e + t.e⟩

/-- The function and the constant of a round. -/
def mixed (t : Nat) (s : State) : Word :=
  if t < 20 then ((s.b &&& s.c) ||| (~~~ s.b &&& s.d)) + 0x5a827999
  else if t < 40 then (s.b ^^^ s.c ^^^ s.d) + 0x6ed9eba1
  else if t < 60 then ((s.b &&& s.c) ||| (s.b &&& s.d) ||| (s.c &&& s.d)) + 0x8f1bbcdc
  else (s.b ^^^ s.c ^^^ s.d) + 0xca62c1d6

def round (t : Nat) (w : Word) (s : State) : State where
  a := s.a.rotateLeft 5 + mixed t s + s.e + w
  b := s.a
  c := s.b.rotateLeft 30
  d := s.c
  e := s.d

/-- The word of the schedule behind sixteen others. -/
def nextWord (ws : List Word) : Word :=
  (ws.getD 13 0 ^^^ ws.getD 8 0 ^^^ ws.getD 2 0 ^^^ ws.getD 0 0).rotateLeft 1

/-- Some rounds, the first with this number; the list has the word of the round and the fifteen
behind it. -/
def rounds : Nat → Nat → List Word → State → State
  | 0, _, _, s => s
  | n + 1, t, ws, s => rounds n (t + 1) (ws.tail ++ [nextWord ws]) (round t (ws.headD 0) s)

/-- The number that some bytes are, the highest byte in front. -/
def bigEndian (s : Bytes) : Nat := s.foldl (fun n b => 256 * n + b.toNat) 0

/-- The words of a block of bytes. -/
def words : Nat → Bytes → List Word
  | 0, _ => []
  | n + 1, s => BitVec.ofNat 32 (bigEndian (s.take 4)) :: words n (s.drop 4)

def block (s : State) (bytes : Bytes) : State := s.add (rounds 80 0 (words 16 bytes) s)

/-- Some blocks of 64 bytes. -/
def blocks : Nat → Bytes → State → State
  | 0, _, s => s
  | n + 1, bytes, s => blocks n (bytes.drop 64) (block s (bytes.take 64))

/-- The four bytes of a word. -/
def Word.bytes (w : Word) : Bytes :=
  [24, 16, 8, 0].map fun n => UInt8.ofNat ((w >>> n).toNat % 256)

/-- A bit, zeros, and the number of bits in eight bytes, so that there are whole blocks. -/
def padding (n : Nat) : Bytes :=
  0x80 :: (List.replicate ((119 - n % 64) % 64) (0 : UInt8) ++
    (Word.bytes (BitVec.ofNat 32 ((8 * n) >>> 32)) ++ Word.bytes (BitVec.ofNat 32 (8 * n))))

end Sha1

open Sha1

/-- `sha1($s, true)`. -/
def phpSha1 (s : Bytes) : Bytes :=
  let padded := s ++ padding s.length
  let h := blocks (padded.length / 64) padded .initial
  Word.bytes h.a ++ Word.bytes h.b ++ Word.bytes h.c ++ Word.bytes h.d ++ Word.bytes h.e

/-- A digest has twenty bytes. -/
theorem length_phpSha1 (s : Bytes) : (phpSha1 s).length = 20 := by
  simp [phpSha1, Word.bytes]

example : phpSha1 [97, 98, 99] = [0xa9, 0x99, 0x3e, 0x36, 0x47, 0x06, 0x81, 0x6a, 0xba, 0x3e, 0x25,
    0x71, 0x78, 0x50, 0xc2, 0x6c, 0x9c, 0xd0, 0xd8, 0x9d] := by
  decide +kernel

end NgxPhp
