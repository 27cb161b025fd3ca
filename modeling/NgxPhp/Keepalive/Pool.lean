import NgxPhp.Lib.Queue
import NgxPhp.Nginx.Cycle

/-!
# The keepalive pool

One array of slots is shared by two intrusive queues: `cache` holds the slots
with an idle connection, the most recently freed first, and `free` the others.
A slot keeps its connection pointer and address when it goes back to `free`.
Outcomes of nginx's event registration are arguments of the operations.
-/

namespace NgxPhp

open LinkQueue
open Function (update)

/-- The nodes of the two queues: their heads and the links of the slots. -/
inductive QueueNode
  | cache
  | free
  | slot (i : Nat)
  deriving DecidableEq, Repr

/-- `ngx_http_php_keepalive_cache_t`, apart from its links. -/
structure KeepaliveCache where
  connection : Option ConnId := none
  /-- The first `socklen` bytes of the stored address. -/
  sockaddr : SockAddr := []
  deriving DecidableEq, Repr

/-- `ngx_http_php_keepalive_conf_t` with its slots. -/
structure KeepaliveConf where
  id : SrvId
  maxCached : Nat
  links : Links QueueNode
  cached : Nat → KeepaliveCache

/-- The part of `ngx_peer_connection_t` that the module uses. -/
structure PeerConnection where
  connection : Option ConnId := none
  sockaddr : Option SockAddr := none
  cached : Bool := false
  /-- The pool in `pc->data`; `pc->get` and `pc->free` are set together with it. -/
  data : Option SrvId := none
  deriving DecidableEq, Repr

/-- Both queue heads, with the first `n` slots threaded into the free queue. -/
def initLinks (n : Nat) : Links QueueNode :=
  (List.range n).foldl (fun l i => l.insertHead .free (.slot i))
    ((Links.init ⟨id, id⟩ .cache).init .free)

/-- `ngx_http_php_keepalive_init`: all slots are put into the free queue. -/
def keepaliveInit (p : SrvId) (maxCached : Nat) : KeepaliveConf where
  id := p
  maxCached := maxCached
  links := initLinks maxCached
  cached := fun _ => {}

/-- `ngx_memcmp` as a three-way comparison of equally many bytes. -/
def ngxMemcmp : Bytes → Bytes → Int
  | a :: as, b :: bs => if a < b then -1 else if b < a then 1 else ngxMemcmp as bs
  | _, _ => 0

/-- `ngx_memn2cmp`: compare the common length first, then the lengths. -/
def ngxMemn2cmp (s₁ s₂ : Bytes) : Int :=
  let n := min s₁.length s₂.length
  let z : Int := if s₁.length ≤ s₂.length then -1 else 1
  let m := ngxMemcmp (s₁.take n) (s₂.take n)
  if m ≠ 0 ∨ s₁.length = s₂.length then m else z

/-- The loop of `ngx_http_php_keepalive_get_peer` from queue node `q` on. -/
def KeepaliveConf.find (kc : KeepaliveConf) (addr : SockAddr) : Nat → QueueNode → Option Nat
  | 0, _ => none
  | fuel + 1, .slot i =>
    if ngxMemn2cmp (kc.cached i).sockaddr addr = 0 then some i
    else kc.find addr fuel (kc.links.next (.slot i))
  | _ + 1, _ => none

/-- Take a slot out of its queue and put it first in the free queue. -/
def KeepaliveConf.toFree (kc : KeepaliveConf) (i : Nat) : KeepaliveConf :=
  { kc with links := (kc.links.remove (.slot i)).insertHead .free (.slot i) }

/-- `ngx_http_php_keepalive_get_peer`. The slot leaves the cache before the read
event is registered, so a failing registration still hands the connection over. -/
def keepaliveGetPeer (addEvent : Rc) (pc : PeerConnection) (kc : KeepaliveConf) (cy : Cycle) :
    Rc × PeerConnection × KeepaliveConf × Cycle :=
  match kc.find (pc.sockaddr.getD []) (kc.maxCached + 1) (kc.links.next .cache) with
  | none => (.ok, pc, kc, cy)
  | some i =>
    let kc' := kc.toFree i
    let pc' := { pc with connection := (kc.cached i).connection, cached := true }
    if addEvent = .error then (.error, pc', kc', cy)
    else
      match (kc.cached i).connection with
      | none => (.done, pc', kc', cy)
      | some c => (.done, pc', kc', cy.addReadEvent c)

/-- `ngx_http_php_keepalive_close`. -/
def keepaliveClose (p : SrvId) (c : ConnId) (cy : Cycle) : Cycle :=
  (cy.destroyPool (.pool p) c).closeConnection (.pool p) c

/-- The slot that `ngx_http_php_keepalive_free_peer` fills: the oldest cached one,
whose connection is closed, when no slot is free, else the first free one. -/
def KeepaliveConf.reserve (kc : KeepaliveConf) (cy : Cycle) : QueueNode × Cycle :=
  if QueueNode.free = kc.links.prev .free then
    match kc.links.prev .cache with
    | .slot i =>
      match (kc.cached i).connection with
      | some c => (.slot i, keepaliveClose kc.id c cy)
      | none => (.slot i, cy)
    | q => (q, cy)
  else (kc.links.next .free, cy)

/-- Take a slot out of its queue, put it first in the cache and fill it. -/
def KeepaliveConf.store (kc : KeepaliveConf) (i : Nat) (c : ConnId) (addr : SockAddr) :
    KeepaliveConf :=
  { kc with
    links := (kc.links.remove (.slot i)).insertHead .cache (.slot i)
    cached := update kc.cached i ⟨some c, addr⟩ }

/-- What becomes of a connection that is put into slot `i` of pool `p`. -/
def Connection.idle (k : Connection) (p : SrvId) (i : Nat) : Connection :=
  { k with
    data := .cached p i
    read := { k.read.delTimer with handler := .keepaliveClose }
    write := { k.write.delTimer with handler := .keepaliveDummy } }

/-- `ngx_http_php_keepalive_free_peer`. When the read event cannot be registered the
connection stays with its peer. -/
def keepaliveFreePeer (readEvent : Rc) (r : ReqId) (pc : PeerConnection) (kc : KeepaliveConf)
    (cy : Cycle) : PeerConnection × KeepaliveConf × Cycle :=
  match pc.connection with
  -- `c->read` of no connection would end the worker
  | none => (pc, kc, cy)
  | some c =>
    if readEvent ≠ .ok then (pc, kc, cy)
    else
      match kc.reserve (cy.handleReadEvent c) with
      | (.slot i, cy') =>
        ({ pc with connection := none }, kc.store i c (pc.sockaddr.getD []),
          (cy'.modify c fun k => k.idle kc.id i).record (.keep r kc.id c))
      -- with no slots at all the queue heads would be taken for slots
      | (_, _) => (pc, kc, cy)

/-- `ngx_http_php_keepalive_close_handler`, the read handler of a cached connection.
A connection that only has nothing to read stays; `closing` is `c->close`. -/
def keepaliveCloseHandler (closing peekAgain : Bool) (readEvent : Rc) (c : ConnId)
    (kc : KeepaliveConf) (cy : Cycle) : KeepaliveConf × Cycle :=
  let cy₁ := if !closing && peekAgain then cy.clearReady c else cy
  if !closing && peekAgain && readEvent = .ok then (kc, cy₁.handleReadEvent c)
  else
    match (cy₁.connections c).data with
    | .cached _ i => (kc.toFree i, keepaliveClose kc.id c cy₁)
    | _ => (kc, cy₁)

/-- What `ngx_http_php_socket_resolve_retval_handler` sets on a connection that request
`r` was handed. -/
def Connection.attach (k : Connection) (r : ReqId) : Connection :=
  { k with
    data := .upstream r
    read := { k.read with handler := .phpSocket }
    write := { k.write with handler := .phpSocket } }

/-- The slots met on a walk from a queue head. -/
def KeepaliveConf.slots (kc : KeepaliveConf) (h : QueueNode) : List Nat :=
  (kc.links.walk h (kc.maxCached + 1) h).filterMap fun
    | .slot i => some i
    | _ => none

/-- The slots of the cache queue, most recently freed first. -/
def KeepaliveConf.cacheSlots (kc : KeepaliveConf) : List Nat := kc.slots .cache

/-- The slots of the free queue. -/
def KeepaliveConf.freeSlots (kc : KeepaliveConf) : List Nat := kc.slots .free

/-- The connection and the address of a slot, when it has a connection. -/
def KeepaliveConf.slotEntry (kc : KeepaliveConf) (i : Nat) : Option (ConnId × SockAddr) :=
  (kc.cached i).connection.map fun c => (c, (kc.cached i).sockaddr)

/-- What the pool holds: connections with their addresses, most recently freed first. -/
def KeepaliveConf.entries (kc : KeepaliveConf) : List (ConnId × SockAddr) :=
  kc.cacheSlots.filterMap kc.slotEntry

end NgxPhp
