import Mathlib.Logic.Function.Basic

/-!
# Events, connections and the connection table

What the module sees of nginx: result codes, the two events of a connection with
their handler and timer, and the table of connection structures from which
`ngx_get_connection` hands out free ones. Every call into nginx that obtains,
gives back, reads or writes a connection is recorded, so that ownership can be
read off the record instead of being stored in the structures.
-/

namespace NgxPhp

open Function (update)

/-- The result codes `NGX_OK` to `NGX_DECLINED`. -/
inductive Rc
  | ok
  | error
  | again
  | busy
  | done
  | declined
  deriving DecidableEq, Repr

/-- The numbers PHP scripts and phase checkers see. -/
def Rc.toInt : Rc → Int
  | .ok => 0
  | .error => -1
  | .again => -2
  | .busy => -3
  | .done => -4
  | .declined => -5

abbrev ReqId := Nat

/-- Index of a connection structure in the connection table. -/
abbrev ConnId := Nat

/-- A server block, each with a keepalive pool of its own. -/
abbrev SrvId := Nat

/-- A socket resource made by `ngx_socket_create`. -/
abbrev Resource := Nat

abbrev Bytes := List UInt8

/-- A socket address as the bytes that `sockaddr` and `socklen` delimit. -/
abbrev SockAddr := List UInt8

/-- The functions installed as `ev->handler`. -/
inductive EventHandler
  | unset
  | phpSocket
  | keepaliveDummy
  | keepaliveClose
  | sleep
  | other
  deriving DecidableEq, Repr

/-- The part of `ngx_event_t` that the module reads or sets. -/
structure Event where
  handler : EventHandler := .unset
  active : Bool := false
  ready : Bool := false
  timedout : Bool := false
  /-- The timeout the event was armed with, when `timer_set`. -/
  timer : Option Nat := none
  deriving DecidableEq, Repr

/-- `ngx_add_timer`. -/
def Event.addTimer (ev : Event) (msec : Nat) : Event := { ev with timer := some msec }

/-- `ngx_del_timer`. -/
def Event.delTimer (ev : Event) : Event := { ev with timer := none }

/-- What `c->data` points to. -/
inductive ConnData
  | unset
  | upstream (r : ReqId)
  | cached (p : SrvId) (i : Nat)
  | other
  deriving DecidableEq, Repr

/-- The part of `ngx_connection_t` that the module reads or sets. -/
structure Connection where
  isOpen : Bool := false
  hasPool : Bool := false
  data : ConnData := .unset
  read : Event := {}
  write : Event := {}
  deriving DecidableEq, Repr

/-- On whose behalf a connection is given back. -/
inductive Party
  | request (r : ReqId)
  | pool (p : SrvId)
  | other
  deriving DecidableEq, Repr

/-- The record of what was done with connection structures. -/
inductive Act
  | get (r : ReqId) (s : Resource) (c : ConnId)
  | take (r : ReqId) (s : Resource) (c : ConnId)
  | getOther (c : ConnId)
  | keep (r : ReqId) (p : SrvId) (c : ConnId)
  | destroyPool (who : Party) (c : ConnId)
  | close (who : Party) (c : ConnId)
  | send (c : ConnId) (offered : Bytes) (accepted : Nat)
  | recv (c : ConnId)
  deriving DecidableEq, Repr

/-- Who has obtained a connection structure and not given it back. -/
inductive Owner
  | free
  | request (r : ReqId) (s : Resource)
  | pool (p : SrvId)
  | other
  deriving DecidableEq, Repr

/-- The owner of a structure after the recorded acts, the latest one first. -/
def owner : List Act → ConnId → Owner
  | [], _ => .free
  | .get r s c :: as, d => if c = d then .request r s else owner as d
  | .take r s c :: as, d => if c = d then .request r s else owner as d
  | .getOther c :: as, d => if c = d then .other else owner as d
  | .keep _ p c :: as, d => if c = d then .pool p else owner as d
  | .close _ c :: as, d => if c = d then .free else owner as d
  | .destroyPool _ _ :: as, d => owner as d
  | .send _ _ _ :: as, d => owner as d
  | .recv _ :: as, d => owner as d

/-- The connection that the latest connect for resource `s` of request `r` was handed. -/
def opened : List Act → ReqId → Resource → Option ConnId
  | [], _, _ => none
  | .get r' s' c :: as, r, s => if r' = r ∧ s' = s then some c else opened as r s
  | .take r' s' c :: as, r, s => if r' = r ∧ s' = s then some c else opened as r s
  | _ :: as, r, s => opened as r s

/-- The connection table of the running cycle and the record of its use. -/
structure Cycle where
  connections : ConnId → Connection
  acts : List Act

/-- The table of a worker that has opened no connection yet. -/
def Cycle.init : Cycle where
  connections := fun _ => {}
  acts := []

/-- Change one connection structure. -/
def Cycle.modify (cy : Cycle) (c : ConnId) (f : Connection → Connection) : Cycle :=
  { cy with connections := update cy.connections c (f (cy.connections c)) }

/-- Add to the record. -/
def Cycle.record (cy : Cycle) (a : Act) : Cycle := { cy with acts := a :: cy.acts }

/-- `ngx_get_connection`: a zeroed structure with an open descriptor. -/
def Cycle.getConnection (cy : Cycle) (c : ConnId) : Cycle :=
  cy.modify c fun _ => { isOpen := true }

/-- `ngx_close_connection`: delete the timers, leave the event loop and return the
structure to the free list; an already closed descriptor is only logged. -/
def Cycle.closeConnection (cy : Cycle) (who : Party) (c : ConnId) : Cycle :=
  (if (cy.connections c).isOpen then
    cy.modify c fun k => { k with
      isOpen := false
      data := .unset
      read := { k.read.delTimer with active := false }
      write := { k.write.delTimer with active := false } }
  else cy).record (.close who c)

/-- `ngx_destroy_pool(c->pool)`. -/
def Cycle.destroyPool (cy : Cycle) (who : Party) (c : ConnId) : Cycle :=
  cy.record (.destroyPool who c)

/-- `c->read->ready = 0`. -/
def Cycle.clearReady (cy : Cycle) (c : ConnId) : Cycle :=
  cy.modify c fun k => { k with read := { k.read with ready := false } }

/-- `ngx_handle_read_event` with an edge-triggered event method, when it succeeds. -/
def Cycle.handleReadEvent (cy : Cycle) (c : ConnId) : Cycle :=
  cy.modify c fun k => { k with
    read := { k.read with active := k.read.active || !k.read.ready } }

/-- `ngx_handle_write_event` with an edge-triggered event method, when it succeeds. -/
def Cycle.handleWriteEvent (cy : Cycle) (c : ConnId) : Cycle :=
  cy.modify c fun k => { k with
    write := { k.write with active := k.write.active || !k.write.ready } }

/-- `ngx_add_event(c->read, NGX_READ_EVENT, NGX_CLEAR_EVENT)`, when it succeeds. -/
def Cycle.addReadEvent (cy : Cycle) (c : ConnId) : Cycle :=
  cy.modify c fun k => { k with read := { k.read with active := true } }

/-- `ngx_add_timer(c->write, msec)`. -/
def Cycle.addWriteTimer (cy : Cycle) (c : ConnId) (msec : Nat) : Cycle :=
  cy.modify c fun k => { k with write := k.write.addTimer msec }

/-- `ngx_del_timer(c->write)`, where it is set. -/
def Cycle.delWriteTimer (cy : Cycle) (c : ConnId) : Cycle :=
  cy.modify c fun k => { k with write := k.write.delTimer }

/-- `ngx_add_timer(c->read, msec)`. -/
def Cycle.addReadTimer (cy : Cycle) (c : ConnId) (msec : Nat) : Cycle :=
  cy.modify c fun k => { k with read := k.read.addTimer msec }

/-- `ngx_del_timer(c->read)`, where it is set. -/
def Cycle.delReadTimer (cy : Cycle) (c : ConnId) : Cycle :=
  cy.modify c fun k => { k with read := k.read.delTimer }

/-- `c->pool = ngx_create_pool(..)`. -/
def Cycle.createPool (cy : Cycle) (c : ConnId) : Cycle :=
  cy.modify c fun k => { k with hasPool := true }

/-- `ngx_destroy_pool(c->pool); c->pool = NULL`. -/
def Cycle.dropPool (cy : Cycle) (who : Party) (c : ConnId) : Cycle :=
  (cy.destroyPool who c).modify c fun k => { k with hasPool := false }

/-- What `ngx_event_connect_peer` does with a new structure it keeps: with an
edge-triggered method both events are active, and a completed connect may be written to. -/
def Cycle.connectPeer (cy : Cycle) (c : ConnId) (completed : Bool) : Cycle :=
  (cy.getConnection c).modify c fun k => { k with
    read := { k.read with active := true }
    write := { k.write with active := true, ready := completed } }

@[simp] theorem Cycle.modify_acts (cy : Cycle) (c : ConnId) (f : Connection → Connection) :
    (cy.modify c f).acts = cy.acts := rfl

/-- A change of one structure leaves the others as they are. -/
theorem Cycle.modify_connections (cy : Cycle) (c d : ConnId) (f : Connection → Connection) :
    (cy.modify c f).connections d = if d = c then f (cy.connections c) else cy.connections d := by
  simp only [Cycle.modify, Function.update_apply]

@[simp] theorem Cycle.modify_self (cy : Cycle) (c : ConnId) (f : Connection → Connection) :
    (cy.modify c f).connections c = f (cy.connections c) := by
  rw [modify_connections, if_pos rfl]

/-- The other structures are as they were. -/
theorem Cycle.modify_of_ne (cy : Cycle) {c d : ConnId} (f : Connection → Connection)
    (h : d ≠ c) : (cy.modify c f).connections d = cy.connections d := by
  rw [modify_connections, if_neg h]

@[simp] theorem Cycle.record_connections (cy : Cycle) (a : Act) :
    (cy.record a).connections = cy.connections := rfl

@[simp] theorem Cycle.record_acts (cy : Cycle) (a : Act) :
    (cy.record a).acts = a :: cy.acts := rfl

@[simp] theorem Cycle.destroyPool_connections (cy : Cycle) (who : Party) (c : ConnId) :
    (cy.destroyPool who c).connections = cy.connections := rfl

@[simp] theorem Cycle.destroyPool_acts (cy : Cycle) (who : Party) (c : ConnId) :
    (cy.destroyPool who c).acts = .destroyPool who c :: cy.acts := rfl

@[simp] theorem Cycle.closeConnection_acts (cy : Cycle) (who : Party) (c : ConnId) :
    (cy.closeConnection who c).acts = .close who c :: cy.acts := by
  unfold closeConnection
  split <;> rfl

/-- Closing one structure leaves the others alone. -/
theorem Cycle.closeConnection_of_ne (cy : Cycle) (who : Party) {c d : ConnId} (h : d ≠ c) :
    (cy.closeConnection who c).connections d = cy.connections d := by
  unfold closeConnection
  split
  · rw [record_connections, modify_of_ne _ _ h]
  · rfl

/-- A closed structure has no open descriptor, and no timer runs on it. -/
theorem Cycle.closeConnection_isOpen (cy : Cycle) (who : Party) (c : ConnId) :
    ((cy.closeConnection who c).connections c).isOpen = false := by
  unfold closeConnection
  split
  · rw [record_connections, modify_self]
  · next h => simpa using h

@[simp] theorem Cycle.handleReadEvent_acts (cy : Cycle) (c : ConnId) :
    (cy.handleReadEvent c).acts = cy.acts := rfl

/-- Two structures are used alike: same descriptor state, owner record and handlers.
Registering an event or arming a timer does not change any of these. -/
structure Connection.SameUse (k m : Connection) : Prop where
  isOpen : m.isOpen = k.isOpen
  data : m.data = k.data
  read : m.read.handler = k.read.handler
  write : m.write.handler = k.write.handler

theorem Connection.SameUse.refl (k : Connection) : k.SameUse k := ⟨rfl, rfl, rfl, rfl⟩

/-- Structures used alike are so by way of a third. -/
theorem Connection.SameUse.trans {k m n : Connection} (h : k.SameUse m) (g : m.SameUse n) :
    k.SameUse n :=
  ⟨g.isOpen.trans h.isOpen, g.data.trans h.data, g.read.trans h.read, g.write.trans h.write⟩

/-- Changing one structure in a way that keeps its use keeps the use of all. -/
theorem Cycle.modify_sameUse (cy : Cycle) {c : ConnId} {f : Connection → Connection}
    (hf : ∀ k : Connection, k.SameUse (f k)) (d : ConnId) :
    (cy.connections d).SameUse ((cy.modify c f).connections d) := by
  rw [modify_connections]
  split
  · next hd => exact hd ▸ hf _
  · exact .refl _

/-- `c->read->ready` is no part of the use. -/
theorem Cycle.clearReady_sameUse (cy : Cycle) (c d : ConnId) :
    (cy.connections d).SameUse ((cy.clearReady c).connections d) := by
  refine cy.modify_sameUse ?_ d
  exact fun _ => ⟨rfl, rfl, rfl, rfl⟩

/-- A read event that is registered is no part of the use. -/
theorem Cycle.handleReadEvent_sameUse (cy : Cycle) (c d : ConnId) :
    (cy.connections d).SameUse ((cy.handleReadEvent c).connections d) := by
  refine cy.modify_sameUse ?_ d
  exact fun _ => ⟨rfl, rfl, rfl, rfl⟩

/-- A write event that is registered is no part of the use. -/
theorem Cycle.handleWriteEvent_sameUse (cy : Cycle) (c d : ConnId) :
    (cy.connections d).SameUse ((cy.handleWriteEvent c).connections d) := by
  refine cy.modify_sameUse ?_ d
  exact fun _ => ⟨rfl, rfl, rfl, rfl⟩

/-- A read event that is added is no part of the use. -/
theorem Cycle.addReadEvent_sameUse (cy : Cycle) (c d : ConnId) :
    (cy.connections d).SameUse ((cy.addReadEvent c).connections d) := by
  refine cy.modify_sameUse ?_ d
  exact fun _ => ⟨rfl, rfl, rfl, rfl⟩

/-- A timer for writing is no part of the use. -/
theorem Cycle.addWriteTimer_sameUse (cy : Cycle) (c d : ConnId) (msec : Nat) :
    (cy.connections d).SameUse ((cy.addWriteTimer c msec).connections d) := by
  refine cy.modify_sameUse ?_ d
  exact fun _ => ⟨rfl, rfl, rfl, rfl⟩

/-- The removal of a timer for writing is no part of the use. -/
theorem Cycle.delWriteTimer_sameUse (cy : Cycle) (c d : ConnId) :
    (cy.connections d).SameUse ((cy.delWriteTimer c).connections d) := by
  refine cy.modify_sameUse ?_ d
  exact fun _ => ⟨rfl, rfl, rfl, rfl⟩

/-- A timer for reading is no part of the use. -/
theorem Cycle.addReadTimer_sameUse (cy : Cycle) (c d : ConnId) (msec : Nat) :
    (cy.connections d).SameUse ((cy.addReadTimer c msec).connections d) := by
  refine cy.modify_sameUse ?_ d
  exact fun _ => ⟨rfl, rfl, rfl, rfl⟩

/-- The removal of a timer for reading is no part of the use. -/
theorem Cycle.delReadTimer_sameUse (cy : Cycle) (c d : ConnId) :
    (cy.connections d).SameUse ((cy.delReadTimer c).connections d) := by
  refine cy.modify_sameUse ?_ d
  exact fun _ => ⟨rfl, rfl, rfl, rfl⟩

/-- The memory pool of a connection is no part of its use. -/
theorem Cycle.createPool_sameUse (cy : Cycle) (c d : ConnId) :
    (cy.connections d).SameUse ((cy.createPool c).connections d) := by
  refine cy.modify_sameUse ?_ d
  exact fun _ => ⟨rfl, rfl, rfl, rfl⟩

end NgxPhp
