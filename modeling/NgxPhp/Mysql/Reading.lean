import NgxPhp.Mysql.Packet

/-!
# Reading a reply

The bytes of a reply arrive in pieces. Every receive is answered with the bytes that have arrived,
at most as many as it asks for, or with nothing yet. `read_packet` reads a header and the data it
announces, waiting only for the first header; `read_packet2` collects pages until one of them
drains the socket, and reads the packets out of what it has then.
-/

namespace NgxPhp

/-- The answer to a receive: nothing yet, or as many bytes as asked for up to one more than the
number. -/
abbrev Chunk := Option Nat

/-- The part of a reply that has not been received, the room in the buffer of a receive that got
nothing, and the answers to the next receives. After them every receive returns all that it asks
for. -/
structure Wire where
  rest : Bytes
  room : Option Nat := none
  answers : List Chunk := []
  deriving DecidableEq, Repr

/-- The room there is for a receive of `n` bytes: a buffer that is still there is used again. -/
def Wire.size (w : Wire) (n : Nat) : Nat := w.room.getD n

/-- How many bytes a receive of `n` bytes gets. -/
def Wire.granted (w : Wire) (n : Nat) : Nat :=
  match w.answers.head? with
  | none => w.size n
  | some none => 0
  | some (some k) => min (k + 1) (w.size n)

/-- A receive of `n` bytes. -/
def Wire.recv (w : Wire) (n : Nat) : Bytes × Wire :=
  let got := w.rest.take (w.granted n)
  (got, {
    rest := w.rest.drop (w.granted n)
    room := if got = [] ∧ w.size n ≠ 0 then some (w.size n) else none
    answers := w.answers.tail })

/-- The length in a header, from `unpack('v', substr($data, 0, 3))`. -/
def headerLength (header : Bytes) : Option Nat := phpUnpack 2 (phpSubstr header 0 (some 3))

/-- `$data` after the second receive. One that gets nothing does not assign the header a new value:
its string has been released, and is read as it was. -/
def readData (header got : Bytes) : Bytes := if got = [] then header else got

/-- `read_packet` behind the header. The data is received synchronously; a null length asks for no
bytes. -/
def readFrom (php8 : Bool) : Nat → Reader → Bytes → Wire → Option Reader
  | 0, _, _, _ => none
  | fuel + 1, r, header, w =>
    let length := headerLength header
    let (got, w) := w.recv (length.getD 0)
    let data := readData header got
    let (r, more) := r.accept php8 { length, data }
    if more then
      let (header, w) := w.recv 4
      (readFrom php8 fuel r header w).map fun r => r.leave { length, data }
    else some (r.leave { length, data })

/-- The loop of `read_packet` around `ngx_socket_recv`, over the answers that are left; none when
it waits for ever. -/
def awaitHeader : Bytes → List Chunk → Option (Bytes × Wire)
  | rest, [] =>
    let (data, w) := Wire.recv { rest } 4
    if phpEmpty data then none else some (data, w)
  | rest, a :: answers =>
    let (data, w) := Wire.recv { rest, answers := a :: answers } 4
    if phpEmpty data then awaitHeader w.rest answers else some (data, w)

/-- `read_packet`, called by `query`. -/
def readPacket (php8 : Bool) (fuel : Nat) (r : Reader) (w : Wire) : Option Reader :=
  match awaitHeader w.rest w.answers with
  | none => none
  | some (header, w) => readFrom php8 fuel r header w

/-- `_parse_read_packet2`, on what is left of the pages. The header is padded to four bytes. -/
def parseReadPacket2 (php8 : Bool) : Nat → Reader → Bytes → Option Reader
  | 0, _, _ => none
  | fuel + 1, r, rest =>
    let length := headerLength ((rest.take 4 ++ List.replicate 4 0).take 4)
    let data := (rest.drop 4).take (length.getD 0)
    let (r, more) := r.accept php8 { length, data }
    if more then
      (parseReadPacket2 php8 fuel r ((rest.drop 4).drop (length.getD 0))).map fun r =>
        r.leave { length, data }
    else some (r.leave { length, data })

/-- The answer to a page receive: as above, and whether it has drained the socket, so that the
script's `$rc` is set. -/
structure PageChunk where
  chunk : Chunk
  drained : Bool
  deriving DecidableEq, Repr

/-- What a page adds to `$data`. -/
def pageData (page : Bytes) : Bytes := if phpEmpty page then [] else page

/-- The loop of `read_packet2` when every receive returns all that it asks for: pages of `size + 1`
bytes, of which only one that is not full drains the socket and ends the loop. None when the reply
ends with a full page: the next receive waits for ever. -/
def fullPages (size : Nat) : Nat → Bytes → Option Bytes
  | 0, _ => none
  | fuel + 1, rest =>
    if rest = [] then none
    else if rest.length ≤ size then some (pageData rest)
    else
      (fullPages size fuel (rest.drop (size + 1))).map fun data =>
        pageData (rest.take (size + 1)) ++ data

/-- The loop of `read_packet2`, over the answers that are left: what it has in `$data` when `$rc`
is no longer `-2`. A page without data leaves it there. -/
def readPages (size : Nat) : Bytes → List PageChunk → Option Bytes
  | rest, [] => fullPages size rest.length rest
  | rest, a :: answers =>
    let (page, w) := Wire.recv { rest, answers := [a.chunk] } (size + 1)
    if a.drained && a.chunk.isSome then some (pageData page)
    else (readPages size w.rest answers).map fun data => pageData page ++ data

/-- `read_packet2`, called by `query2`. -/
def readPacket2 (php8 : Bool) (fuel size : Nat) (r : Reader) (rest : Bytes)
    (answers : List PageChunk) : Option Reader :=
  (readPages size rest answers).bind (parseReadPacket2 php8 fuel r)

/-- `query`, after it has sent its packet: the object that has been reset reads the reply. No
reply has more packets than `read_packet` is given rounds. -/
def mysqlQuery (php8 : Bool) (reply : Bytes) (answers : List Chunk) : Option Reader :=
  readPacket php8 (reply.length + 2) {} { rest := reply, answers }

/-- `query2`, with pages of `size + 1` bytes. -/
def mysqlQuery2 (php8 : Bool) (size : Nat) (reply : Bytes) (answers : List PageChunk) :
    Option Reader :=
  readPacket2 php8 (reply.length + 2) size {} reply answers

end NgxPhp
