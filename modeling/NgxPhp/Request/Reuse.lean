import NgxPhp.Request.Ownership
import NgxPhp.Request.Pending
import NgxPhp.Request.Reception
import NgxPhp.Socket.Turnover

/-!
# Connections that are used again

What happens on a connection is followed from its connect through the pool to the next
request that is handed it. The pool takes every connection that a finalize finds, so a
connection is as clean as it was when it was freed.
-/

namespace NgxPhp

open Function (update)
open StepMachine

/-- What the network does to a connection. -/
inductive Arrival
  | established
  | bytes (n : Nat)
  /-- An end of stream or an error, also one of the TCP connect. -/
  | ended
  deriving DecidableEq, Repr

/-- What has become of a connection since it was opened. -/
structure Link where
  /-- The TCP connect has finished without error. -/
  connected : Bool := false
  /-- An end of stream, an error or a timeout has been seen. -/
  ended : Bool := false
  /-- The number of bytes in the receive buffer. -/
  unread : Nat := 0
  /-- The number of bytes that have arrived since the connection was freed. -/
  late : Nat := 0
  endedWhenFreed : Bool := false
  /-- What `u->request_bufs` of its request held when the connection was freed. -/
  unsent : Bytes := []
  deriving DecidableEq, Repr

def Link.arrive (k : Link) : Arrival → Link
  | .established => { k with connected := k.connected || !k.ended }
  | .bytes n => { k with unread := k.unread + n, late := k.late + n }
  | .ended => { k with ended := true }

/-- The result of one `c->recv`. -/
def Link.received (k : Link) : RecvAnswer → Link
  | .data _ rest => { k with unread := k.unread - (rest.length + 1) }
  | .again => k
  | .eof => { k with ended := true }
  | .error => { k with ended := true }

/-- The connection goes to the pool while its request has `unsent` bytes left. -/
def Link.free (k : Link) (unsent : Bytes) : Link :=
  { k with late := 0, endedWhenFreed := k.ended, unsent }

/-- A connection that is fit for another request. -/
def Link.Clean (k : Link) : Prop :=
  k.connected = true ∧ k.endedWhenFreed = false ∧ k.unread = 0 ∧ k.unsent = []

instance Link.decidableClean (k : Link) : Decidable k.Clean :=
  inferInstanceAs (Decidable (_ ∧ _))

/-! ## Steps of the worker -/

/-- The results of `c->send` in a step, in order. -/
def Step.sendAnswers : Step → List SendAnswer
  | .call _ (.send _ _ _ ans) => ans.sends
  | .connectionEvent _ _ _ ans _ => ans.send.sends
  | _ => []

/-- The result of `c->recv` in a step. -/
def Step.recvAnswer : Step → RecvAnswer
  | .call _ c => (c.receive?.map fun x => x.2.2.recv).getD .again
  | .connectionEvent _ _ _ ans _ => ans.recv.recv
  | _ => .again

/-- The result of `ngx_handle_read_event` in the clear of a step. -/
def Step.readEvent : Step → Rc
  | .call _ (.close _ readEvent) => readEvent
  | .call _ (.clear _ readEvent) => readEvent
  | .connectionEvent _ _ _ _ readEvent => readEvent
  | .sleepTimer _ readEvent => readEvent
  | _ => .ok

/-- The request that a step connects and the address it is connected to. -/
def Worker.target (w : Worker) : Step → Option (ReqId × SockAddr)
  | .call r (.connect _ type _ port ans) =>
    if type = some afInet then (ans.address port).map fun addr => (r, addr) else none
  | .resolved r _ ans =>
    (ans.address (w.session r).view.u.resolved).map fun addr => (r, addr)
  | _ => none

/-- The worker at the time that a step clears a socket, if it does. -/
def Worker.reached (w : Worker) : Step → Worker
  | .connectionEvent c write how ans _ =>
    match (w.cy.connections c).data with
    | .upstream r =>
      { w with cy := w.cy.wake c write how }.onSession r fun k =>
        k.onSock fun t => t.handleEvent write ans
    | _ => w
  | _ => w

/-- What was recorded since `cy`, the latest act first. -/
def Cycle.since (cy cy' : Cycle) : List Act :=
  cy'.acts.take (cy'.acts.length - cy.acts.length)

/-- What was recorded since is what has been put in front. -/
theorem Cycle.since_eq {cy cy' : Cycle} {new : List Act} (h : cy'.acts = new ++ cy.acts) :
    cy.since cy' = new := by
  rw [since, h, List.length_append, Nat.add_sub_cancel, List.take_left]

def Act.isSend : Act → Bool
  | .send _ _ _ => true
  | _ => false

/-- What the acts of a step that has brought the worker to `w` make of connection `c`. A
connect that has completed leaves the write event ready; the `n`-th send of the step has
the `n`-th of its answers. -/
def Link.after (k : Link) (l : Step) (w : Worker) (c : ConnId) : List Act → Link
  | [] => k
  | .get _ _ d :: as =>
    if d = c then { connected := (w.cy.connections c).write.ready } else k.after l w c as
  | .send d _ _ :: as =>
    if d = c ∧ l.sendAnswers[as.countP Act.isSend]? = some .error then
      { k.after l w c as with ended := true }
    else k.after l w c as
  | .recv d :: as =>
    if d = c then (k.after l w c as).received l.recvAnswer else k.after l w c as
  | .keep r _ d :: as =>
    if d = c then (k.after l w c as).free ((w.session r).view.u.requestBufs.getD [])
    else k.after l w c as
  | _ :: as => k.after l w c as

/-! ## Connections and what happens on them -/

/-- A worker, and what has become of its connections. -/
structure Reuse where
  worker : Worker
  links : ConnId → Link

def Reuse.init (maxCached : SrvId → Nat) (srv : ReqId → SrvId) : Reuse where
  worker := .init maxCached srv
  links := fun _ => {}

inductive ReuseStep
  | worker (l : Step)
  | network (c : ConnId) (what : Arrival)
  deriving DecidableEq, Repr

/-- A step that reports a timeout. -/
def Reuse.woken (m : Reuse) (l : Step) (c : ConnId) : Link :=
  match l with
  | .connectionEvent d _ .timedOut _ _ =>
    if d = c then { m.links c with ended := true } else m.links c
  | _ => m.links c

/-- What step `l` has made of connection `c` when the worker has come to `w`. -/
def Reuse.linkAt (m : Reuse) (l : Step) (w : Worker) (c : ConnId) : Link :=
  (m.woken l c).after l w c (m.worker.cy.since w.cy)

def Reuse.step (m : Reuse) : ReuseStep → Reuse
  | .worker l =>
    if m.worker.Enabled l then
      { worker := m.worker.perform l, links := m.linkAt l (m.worker.perform l) }
    else m
  | .network c what => { m with links := update m.links c ((m.links c).arrive what) }

/-- Every connection that a step takes out of the pool is clean. -/
def Reuse.HandsOutClean (m : Reuse) (l : ReuseStep) : Prop :=
  ∀ c ∈ (m.worker.cy.since (m.step l).worker.cy).filterMap Act.taken?, (m.links c).Clean

/-- A connection that a step frees is connected, nothing has ended it, and nothing of its
exchange is left unread or unsent. -/
def Reuse.FreesClean (m : Reuse) (l : Step) : Prop :=
  ∀ r ∈ m.worker.clears l, ∀ c ∈ ((m.worker.reached l).session r).view.u.peer.connection,
    ((m.worker.reached l).session r).view.Frees l.readEvent c →
      (m.linkAt l (m.worker.reached l) c).connected = true ∧
      (m.linkAt l (m.worker.reached l) c).ended = false ∧
      (m.linkAt l (m.worker.reached l) c).unread = 0 ∧
      ((m.worker.reached l).session r).view.u.requestBufs.getD [] = []

/-- When a step connects to an address, no bytes have arrived on a pooled connection to that
address; where the event loop has reported some, the pool has closed the connection. -/
def Reuse.NothingLate (m : Reuse) (l : Step) : Prop :=
  ∀ x ∈ m.worker.target l, ∀ e ∈ (m.worker.pools (m.worker.requests x.1).srv).entries,
    e.2 = x.2 → (m.links e.1).late = 0

/-- Requests clear what they own, free it clean, and connect when nothing is late. -/
def Reuse.Orderly (m : Reuse) : ReuseStep → Prop
  | .worker l => m.worker.Tidy l ∧ (m.worker.Enabled l → m.FreesClean l ∧ m.NothingLate l)
  | .network _ _ => True

instance Reuse.decidableHandsOutClean (m : Reuse) (l : ReuseStep) :
    Decidable (m.HandsOutClean l) :=
  inferInstanceAs (Decidable (∀ c ∈ List.filterMap _ _, _))

instance Reuse.decidableFreesClean (m : Reuse) (l : Step) : Decidable (m.FreesClean l) := by
  unfold Reuse.FreesClean
  infer_instance

instance Reuse.decidableNothingLate (m : Reuse) (l : Step) : Decidable (m.NothingLate l) := by
  unfold Reuse.NothingLate
  infer_instance

instance Reuse.decidableOrderly (m : Reuse) (l : ReuseStep) : Decidable (m.Orderly l) :=
  match l with
  | .worker _ => inferInstanceAs (Decidable (_ ∧ _))
  | .network _ _ => inferInstanceAs (Decidable True)

/-- A pooled connection that is clean but for bytes that have come since. -/
structure Link.Kept (k : Link) : Prop where
  connected : k.connected = true
  endedWhenFreed : k.endedWhenFreed = false
  unread : k.unread ≤ k.late
  unsent : k.unsent = []

/-- The requests clear and connect as they should, and the pools hold what is clean. -/
structure Reuse.Inv (m : Reuse) : Prop where
  own : OwnInv m.worker
  pooled : ∀ c p, owner m.worker.cy.acts c = .pool p → (m.links c).Kept

/-! ## What a step records -/

/-- A clear adds to the record of a session what a clear of its socket adds. -/
theorem Session.clear_acts (k : Session) (readEvent : Rc) :
    ∃ new, (k.clear readEvent).cy.acts = new ++ k.cy.acts ∧ k.view.ClearActs readEvent new := by
  unfold clear
  split
  · exact ⟨[], rfl, .idle .nil⟩
  · next u hu =>
    rw [view_of_upstream hu]
    exact socketClear_acts readEvent (k.sock u)

/-- A close adds the acts of its clear. -/
theorem Session.close_acts (k : Session) (readEvent : Rc) :
    ∃ new, (k.close readEvent).cy.acts = new ++ k.cy.acts ∧ k.view.ClearActs readEvent new := by
  rcases k.close_cases readEvent with ⟨hres, _⟩ | hres
  · rw [hres]
    exact ⟨[], rfl, .idle .nil⟩
  · rw [hres]
    exact k.clear_acts readEvent

@[simp] theorem Session.onSock_r (k : Session) (f : Sock → Sock) : (k.onSock f).r = k.r := by
  unfold onSock
  split <;> rfl

@[simp] theorem Session.clear_r (k : Session) (readEvent : Rc) : (k.clear readEvent).r = k.r := by
  unfold clear
  split <;> rfl

@[simp] theorem Session.close_r (k : Session) (readEvent : Rc) : (k.close readEvent).r = k.r := by
  rcases k.close_cases readEvent with ⟨hres, _⟩ | hres
  · rw [hres]
  · rw [hres]
    exact k.clear_r readEvent

@[simp] theorem Session.resumeWithout_r (k : Session) (readEvent : Rc) :
    (k.resumeWithout readEvent).r = k.r := by
  unfold resumeWithout
  split
  · exact clear_r k readEvent
  · rfl

/-- Only a resume that finds no generator clears. -/
theorem Session.resumeWithout_acts (k : Session) (readEvent : Rc) :
    ∃ new, (k.resumeWithout readEvent).cy.acts = new ++ k.cy.acts ∧
      (PoolIdle new ∨ k.ctx.generatorClosure = none ∧ k.view.ClearActs readEvent new) := by
  unfold resumeWithout
  split
  · next hg =>
    obtain ⟨new, hacts, hclear⟩ := clear_acts k readEvent
    exact ⟨new, hacts, Or.inr ⟨hg, hclear⟩⟩
  · exact ⟨[], rfl, Or.inl .nil⟩

/-- Transfers of a session leave the pools alone. -/
theorem Sock.Quiet.acts {k k' : Sock} (h : k.Quiet k') :
    ∃ new c, k'.cy.acts = new ++ k.cy.acts ∧ ∀ a ∈ new, a.IsTransferOn c := by
  have hcy := h.cycle
  cases hc : k.u.peer.connection with
  | none =>
    simp only [hc] at hcy
    exact ⟨[], 0, by rw [hcy]; rfl, by simp⟩
  | some c =>
    simp only [hc] at hcy
    obtain ⟨new, hnew, ht⟩ := hcy.acts
    exact ⟨new, c, hnew, ht⟩

/-- What a step adds to the record: it takes from the pool for the address it connects to
only, and puts the connection into the pool that its clear finds. -/
structure Worker.Records (w : Worker) (l : Step) (new : List Act) : Prop where
  acts : (w.perform l).cy.acts = new ++ w.cy.acts
  taken : ∀ a ∈ new, ∀ c ∈ a.taken?, ∃ r addr, w.target l = some (r, addr) ∧
    (c, addr) ∈ (w.pools (w.requests r).srv).entries
  kept : ∀ r p c, .keep r p c ∈ new → r ∈ w.clears l ∧
    ((w.reached l).session r).view.Frees l.readEvent c ∧
    ((w.perform l).session r).view.u.requestBufs =
      ((w.reached l).session r).view.u.requestBufs ∧
    ∃ out tr, (∃ d, ∀ a ∈ tr, a.IsTransferOn d) ∧ (w.reached l).cy.acts = tr ++ w.cy.acts ∧
      new = .keep r p c :: poolCloseActs p out ++ tr

namespace Worker.Records

variable {w : Worker} {l : Step} {new : List Act}

/-- A step whose acts leave the pools alone may record what it likes. -/
theorem of_idle (hacts : (w.perform l).cy.acts = new ++ w.cy.acts) (h : PoolIdle new) :
    w.Records l new where
  acts := hacts
  taken a ha c hc := by
    rw [(h a ha).1] at hc
    cases hc
  kept r p c hk := absurd (h _ hk).2 (by simp [Act.kept?])

/-- A step that connects a request. -/
theorem of_dials {r : ReqId} {address : Option SockAddr}
    (htarget : w.target l = address.map fun addr => (r, addr))
    (h : (w.pools (w.requests r).srv).DialedTo address w.cy.acts (w.perform l).cy.acts) :
    ∃ new, w.Records l new := by
  obtain ⟨new, hacts, hdials⟩ := h
  cases hdials with
  | idle h => exact ⟨new, of_idle hacts h⟩
  | takes r' s c addr haddr hc hnew =>
    subst hnew
    refine ⟨_, hacts, ?_, ?_⟩
    · intro a ha d hd
      obtain rfl := List.mem_singleton.mp ha
      obtain rfl : c = d := Option.some.inj hd
      exact ⟨r, addr, by rw [htarget, haddr]; rfl, hc⟩
    · intro _ _ _ hk
      simp at hk

/-- A step whose clear works on the session that the step has reached. -/
theorem of_clear {r : ReqId} {cleared : List Act} (hr : r ∈ w.clears l)
    (htr : ∃ tr d, (w.reached l).cy.acts = tr ++ w.cy.acts ∧ ∀ a ∈ tr, a.IsTransferOn d)
    (hid : ((w.reached l).session r).view.r = r)
    (hbufs : ((w.perform l).session r).view.u.requestBufs =
      ((w.reached l).session r).view.u.requestBufs)
    (hacts : (w.perform l).cy.acts = cleared ++ (w.reached l).cy.acts)
    (h : ((w.reached l).session r).view.ClearActs l.readEvent cleared) :
    ∃ new, w.Records l new := by
  obtain ⟨tr, d, hreached, ht⟩ := htr
  rw [hreached, ← List.append_assoc] at hacts
  cases h with
  | idle h => exact ⟨_, of_idle hacts (h.append (.of_transfers ht))⟩
  | keeps c out hf hnew =>
    have hidle : PoolIdle (poolCloseActs ((w.reached l).session r).view.kc.id out ++ tr) := by
      refine PoolIdle.append ?_ (.of_transfers ht)
      cases out <;> simp [poolCloseActs, PoolIdle, Act.taken?, Act.kept?]
    rw [hid] at hnew
    subst hnew
    refine ⟨_, hacts, ?_, ?_⟩
    · intro a ha e he
      rcases List.mem_cons.mp ha with rfl | ha
      · cases he
      · rw [(hidle a ha).1] at he
        cases he
    · intro r' p c' hk
      rcases List.mem_cons.mp hk with heq | hk
      · obtain ⟨rfl, rfl, rfl⟩ : r' = r ∧ p = ((w.reached l).session r).view.kc.id ∧ c' = c := by
          simpa using heq
        exact ⟨hr, hf, hbufs, out, tr, ⟨d, ht⟩, hreached, rfl⟩
      · exact absurd (hidle _ hk).2 (by simp [Act.kept?])

/-- A step that does nothing on its request before it clears. -/
theorem of_cleared {r : ReqId} {k : Session} {cleared : List Act} (hr : r ∈ w.clears l)
    (hreached : w.reached l = w) (hperform : w.perform l = w.withSession r k) (hk : k.r = r)
    (hbufs : (w.session r).view.SamePending k.view) (hacts : k.cy.acts = cleared ++ w.cy.acts)
    (h : (w.session r).view.ClearActs l.readEvent cleared) : ∃ new, w.Records l new := by
  have hacts : (w.perform l).cy.acts = cleared ++ (w.reached l).cy.acts := by
    rw [hreached, hperform]
    exact hacts
  refine of_clear hr ⟨[], 0, by rw [hreached]; rfl, by simp⟩ ?_ ?_ hacts ?_
  · rw [hreached]
    rfl
  · rw [hreached, hperform, Worker.upstream_withSession hk]
    exact hbufs.1
  · rw [hreached]
    exact h

end Worker.Records

/-- A connect takes from the pool for its address only. -/
theorem Session.connect_dials {k : Session} (hrep : k.kc.Represented k.cy) (s : Resource)
    (type : Option Int) (addr : Bytes) (port : Nat) (ans : ConnectAnswers) :
    k.kc.DialedTo (if type = some afInet then ans.address port else none) k.cy.acts
      (ngxSocketConnect s type addr port ans k).2.cy.acts := by
  unfold ngxSocketConnect
  split
  · exact socketConnect_dials (k := k.view) hrep ans s port
  · exact .refl _ _ _

/-- The resolver's answer takes from the pool for its address only. -/
theorem Session.resolved_dials {k : Session} (hrep : k.kc.Represented k.cy) (q : Query)
    (ans : ResolveAnswers) :
    k.kc.DialedTo (ans.address k.view.u.resolved) k.cy.acts
      (k.onSock fun t => t.resolved q ans).cy.acts := by
  unfold onSock
  split
  · exact .refl _ _ _
  · next u hu =>
    rw [view_of_upstream hu]
    exact resolveHandler_dials (k := (k.sock u).onUpstream fun u =>
      { u with queries := u.queries.erase q }) hrep ans q.resource

/-- The request that wrote its session back finds it again. -/
theorem Worker.session_withSession (w : Worker) {r : ReqId} {k : Session} (hr : k.r = r) :
    (w.withSession r k).session r = k := by
  subst hr
  simp only [Worker.session, Worker.withSession_self]
  simp [Worker.withSession]

/-- A pool event closes the connection or does nothing. -/
theorem keepaliveCloseHandler_idle (closing peekAgain : Bool) (readEvent : Rc) (c : ConnId)
    (kc : KeepaliveConf) (cy : Cycle) :
    ∃ new, (keepaliveCloseHandler closing peekAgain readEvent c kc cy).2.acts = new ++ cy.acts ∧
      PoolIdle new := by
  have hcy : ∀ b : Bool, (if b then cy.clearReady c else cy).acts = cy.acts := by
    intro b
    cases b <;> rfl
  unfold keepaliveCloseHandler
  dsimp only
  split
  · exact ⟨[], hcy _, .nil⟩
  · split
    · refine ⟨poolCloseActs kc.id (some c), ?_, by simp [PoolIdle, poolCloseActs, Act.taken?,
        Act.kept?]⟩
      dsimp only
      rw [keepaliveClose_acts, hcy]
      rfl
    · exact ⟨[], hcy _, .nil⟩

namespace Worker

variable {w : Worker}

/-- A call records what it does with connections. -/
theorem call_records (h : OwnInv w) (r : ReqId) (c : Call) : ∃ new, w.Records (.call r c) new := by
  cases hres : (w.session r).call c with
  | none => exact ⟨[], .of_idle (by simp only [perform, hres, List.nil_append]) .nil⟩
  | some res =>
    obtain ⟨v, k⟩ := res
    have hperform : w.perform (.call r c) = w.withSession r k := by
      simp only [perform, hres]
    cases hreplaces : c.replaces with
    | false =>
      obtain ⟨new, d, hacts, ht⟩ := (Session.call_quiet hres hreplaces).acts
      exact ⟨new, .of_idle (hperform ▸ hacts) (.of_transfers ht)⟩
    | true =>
      cases c with
      | connect s type addr port ans =>
        have hd := Session.connect_dials (h.session r).represented s type addr port ans
        refine Records.of_dials (r := r) ?_ hd
        simp only [target]
        split <;> rfl
      | close s readEvent =>
        obtain ⟨new, hacts, hclear⟩ := (w.session r).close_acts readEvent
        have hbufs := Session.call_samePending hres rfl
        obtain ⟨rfl, rfl⟩ := Prod.mk.inj (Option.some.inj hres)
        exact Records.of_cleared (r := r) rfl rfl hperform (Session.close_r _ readEvent) hbufs hacts
          hclear
      | clear s readEvent =>
        obtain ⟨new, hacts, hclear⟩ := (w.session r).clear_acts readEvent
        have hbufs := Session.call_samePending hres rfl
        obtain ⟨rfl, rfl⟩ := Prod.mk.inj (Option.some.inj hres)
        exact Records.of_cleared (r := r) rfl rfl hperform (Session.clear_r _ readEvent) hbufs hacts
          hclear
      | _ => cases hreplaces

/-- The handler of an event transfers, and a resume without a generator clears. -/
theorem connectionEvent_records {c : ConnId} {r : ReqId}
    (hdata : (w.cy.connections c).data = .upstream r) (write : Bool) (how : Wake)
    (ans : HandlerAnswers) (readEvent : Rc) :
    ∃ new, w.Records (.connectionEvent c write how ans readEvent) new := by
  obtain ⟨w₁, hw₁⟩ : ∃ w₁ : Worker, { w with cy := w.cy.wake c write how } = w₁ := ⟨_, rfl⟩
  obtain ⟨k, hk⟩ : ∃ k, (w₁.session r).onSock (fun t => t.handleEvent write ans) = k := ⟨_, rfl⟩
  have hr : k.r = r := by
    rw [← hk]
    exact Session.onSock_r _ _
  have hreached : w.reached (.connectionEvent c write how ans readEvent) =
      w₁.withSession r k := by
    simp only [reached, hdata, hw₁, onSession, hk]
  have hsession : (w.reached (.connectionEvent c write how ans readEvent)).session r = k := by
    rw [hreached, w₁.session_withSession hr]
  have hperform : w.perform (.connectionEvent c write how ans readEvent) =
      w₁.withSession r
        (if (w.requests r).moduleCtx then k.resumeWithout readEvent else k) := by
    simp only [perform, hdata, hw₁, onSession, Session.socketHandler, hk]
  obtain ⟨tr, d, htr, ht⟩ := (Session.handleEvent_quiet (w₁.session r) write ans).acts
  have htr : k.cy.acts = tr ++ w.cy.acts := by
    rw [← hk, ← show w₁.cy.acts = w.cy.acts by rw [← hw₁]; rfl]
    exact htr
  by_cases hctx : (w.requests r).moduleCtx = true
  case neg =>
    rw [if_neg hctx] at hperform
    exact ⟨tr, .of_idle (hperform ▸ htr) (.of_transfers ht)⟩
  rw [if_pos hctx] at hperform
  obtain ⟨new, hacts, hclear⟩ := k.resumeWithout_acts readEvent
  have hacts : (w.perform (.connectionEvent c write how ans readEvent)).cy.acts =
      new ++ k.cy.acts := by
    rw [hperform]
    exact hacts
  rcases hclear with hidle | ⟨hg, hclear⟩
  · refine ⟨new ++ tr, .of_idle ?_ (hidle.append (.of_transfers ht))⟩
    rw [hacts, htr, List.append_assoc]
  · have hcy : (w.reached (.connectionEvent c write how ans readEvent)).cy = k.cy := by
      rw [hreached]
      rfl
    have hg : (w.requests r).ctx.generatorClosure = none := by
      rw [← hk, Session.onSock_generatorClosure, ← hw₁] at hg
      exact hg
    rw [← hcy] at hacts
    rw [← hsession] at hclear
    refine Records.of_clear (r := r) ?_ ⟨tr, d, by rw [hcy, htr], ht⟩ ?_ ?_ hacts hclear
    · simp [clears, hdata, hctx, hg]
    · rw [hsession]
      exact hr
    · rw [hperform, hsession,
        Worker.upstream_withSession ((k.resumeWithout_r readEvent).trans hr)]
      exact (k.resumeWithout_samePending readEvent).1

/-- A sleep timer records the clear of its resume. -/
theorem sleepTimer_records (r : ReqId) (readEvent : Rc) :
    ∃ new, w.Records (.sleepTimer r readEvent) new := by
  by_cases hctx : (w.requests r).moduleCtx = true
  · obtain ⟨k, hk⟩ : ∃ k : Session,
        { w.session r with ctx := (w.session r).ctx.wakeSleep } = k := ⟨_, rfl⟩
    obtain ⟨new, hacts, hclear⟩ := k.resumeWithout_acts readEvent
    have hperform : w.perform (.sleepTimer r readEvent) =
        w.withSession r (k.resumeWithout readEvent) := by
      simp only [perform, hctx, if_true, onSession, Session.sleepTimer, hk]
    have hbufs := k.resumeWithout_samePending readEvent
    have hr := k.resumeWithout_r readEvent
    subst hk
    rcases hclear with hidle | ⟨hg, hclear⟩
    · exact ⟨new, .of_idle (hperform ▸ hacts) hidle⟩
    · exact Records.of_cleared (r := r) (if_pos ⟨hctx, hg⟩) rfl hperform hr hbufs hacts hclear
  · exact ⟨[], .of_idle (by simp only [perform, if_neg hctx]; rfl) .nil⟩

/-- Every step of a worker. -/
theorem perform_records (h : OwnInv w) (l : Step) : ∃ new, w.Records l new := by
  have hsame : (w.perform l).cy.acts = w.cy.acts → ∃ new, w.Records l new :=
    fun ha => ⟨[], .of_idle ha .nil⟩
  cases l with
  | call r c => exact call_records h r c
  | closure r g => exact hsame rfl
  | resolved r q ans =>
    have hd := Session.resolved_dials (h.session r).represented q ans
    refine Records.of_dials (r := r) ?_ hd
    rfl
  | connectionEvent c write how ans readEvent =>
    cases hdata : (w.cy.connections c).data with
    | upstream r => exact connectionEvent_records hdata write how ans readEvent
    | unset => exact hsame (by simp only [perform, hdata])
    | cached p i => exact hsame (by simp only [perform, hdata])
    | other => exact hsame (by simp only [perform, hdata])
  | sleepTimer r readEvent => exact sleepTimer_records r readEvent
  | poolEvent c closing peekAgain readEvent =>
    cases hdata : (w.cy.connections c).data with
    | cached p i =>
      obtain ⟨new, hacts, hidle⟩ :=
        keepaliveCloseHandler_idle closing peekAgain readEvent c (w.pools p) w.cy
      exact ⟨new, .of_idle (by simp only [perform, hdata, hacts]) hidle⟩
    | unset => exact hsame (by simp only [perform, hdata])
    | upstream r => exact hsame (by simp only [perform, hdata])
    | other => exact hsame (by simp only [perform, hdata])
  | setOutput r => exact hsame rfl
  | redirect r next => exact hsame rfl
  | closeRequest r => exact hsame rfl
  | getOther c =>
    exact ⟨[.getOther c], .of_idle rfl (by simp [PoolIdle, Act.taken?, Act.kept?])⟩
  | closeOther c =>
    exact ⟨[.close .other c], .of_idle (by simp [perform])
      (by simp [PoolIdle, Act.taken?, Act.kept?])⟩

end Worker

/-! ## What becomes of pooled connections -/

namespace Link.Kept

variable {k : Link}

/-- What arrives keeps a connection fit, but for the bytes. -/
theorem arrive (h : k.Kept) (what : Arrival) : (k.arrive what).Kept where
  connected := by cases what <;> simp [Link.arrive, h.connected]
  endedWhenFreed := by
    cases what <;> exact h.endedWhenFreed
  unread := by
    have hle := h.unread
    cases what with
    | bytes n => exact Nat.add_le_add_right hle n
    | established => exact hle
    | ended => exact hle
  unsent := by
    cases what <;> exact h.unsent

/-- What is received keeps a connection fit. -/
theorem received (h : k.Kept) (ans : RecvAnswer) : (k.received ans).Kept := by
  cases ans with
  | data first rest =>
    refine ⟨h.connected, h.endedWhenFreed, ?_, h.unsent⟩
    have hle := h.unread
    simp only [Link.received]
    omega
  | again => exact h
  | eof => exact ⟨h.connected, h.endedWhenFreed, h.unread, h.unsent⟩
  | error => exact ⟨h.connected, h.endedWhenFreed, h.unread, h.unsent⟩

/-- A reported end keeps a connection fit. -/
theorem ended (h : k.Kept) (b : Bool) : { k with ended := b : Link }.Kept :=
  ⟨h.connected, h.endedWhenFreed, h.unread, h.unsent⟩

/-- A connection that belongs to a pool after a step was put there by the step, or it was
there before and stays as it was kept. -/
theorem after (l : Step) (w : Worker) {as new : List Act} {c : ConnId} {p : SrvId}
    (hk : owner as c = .pool p → k.Kept) (h : owner (new ++ as) c = .pool p) :
    (∃ r, .keep r p c ∈ new) ∨ (k.after l w c new).Kept := by
  induction new with
  | nil => exact Or.inr (hk h)
  | cons a new ih =>
    have hrest : owner (new ++ as) c = .pool p →
        (∃ r, Act.keep r p c ∈ a :: new) ∨ (k.after l w c new).Kept := fun h =>
      (ih h).imp_left fun ⟨r, hr⟩ => ⟨r, List.mem_cons_of_mem _ hr⟩
    cases a with
    | get r s d =>
      by_cases hd : d = c
      · simp [owner, hd] at h
      · simp only [List.cons_append, owner, if_neg hd] at h
        simpa only [Link.after, if_neg hd] using hrest h
    | take r s d =>
      by_cases hd : d = c
      · simp [owner, hd] at h
      · simp only [List.cons_append, owner, if_neg hd] at h
        exact hrest h
    | getOther d =>
      by_cases hd : d = c
      · simp [owner, hd] at h
      · simp only [List.cons_append, owner, if_neg hd] at h
        exact hrest h
    | keep r q d =>
      by_cases hd : d = c
      · obtain rfl : q = p := by simpa [owner, hd] using h
        exact Or.inl ⟨r, by simp [hd]⟩
      · simp only [List.cons_append, owner, if_neg hd] at h
        simpa only [Link.after, if_neg hd] using hrest h
    | close who d =>
      by_cases hd : d = c
      · simp [owner, hd] at h
      · simp only [List.cons_append, owner, if_neg hd] at h
        exact hrest h
    | destroyPool who d => exact hrest h
    | send d b n =>
      refine (hrest h).imp_right fun hkept => ?_
      simp only [Link.after]
      split
      · exact hkept.ended true
      · exact hkept
    | recv d =>
      refine (hrest h).imp_right fun hkept => ?_
      simp only [Link.after]
      split
      · exact hkept.received _
      · exact hkept

end Link.Kept

/-- Transfers do not look at the worker that the step leads to. -/
theorem Link.after_transfers (k : Link) (l : Step) (w w' : Worker) (c : ConnId) {d : ConnId}
    {tr : List Act} (h : ∀ a ∈ tr, a.IsTransferOn d) : k.after l w c tr = k.after l w' c tr := by
  induction tr with
  | nil => rfl
  | cons a tr ih =>
    have ih := ih fun b hb => h b (List.mem_cons_of_mem _ hb)
    rcases h a (by simp) with ⟨b, n, rfl⟩ | rfl
    · simp only [after, ih]
    · simp only [after, ih]

/-- The pool closes another connection. -/
theorem Link.after_poolCloseActs (k : Link) (l : Step) (w : Worker) (c : ConnId) (p : SrvId)
    (out : Option ConnId) (tr : List Act) :
    k.after l w c (poolCloseActs p out ++ tr) = k.after l w c tr := by
  cases out <;> rfl

namespace Reuse

variable {m : Reuse}

/-- A timeout is not seen on a pooled connection, and it would change nothing there. -/
theorem woken_kept {c : ConnId} (h : (m.links c).Kept) (l : Step) : (m.woken l c).Kept := by
  unfold woken
  split
  · split
    · exact h.ended true
    · exact h
  · exact h

/-- A step that frees clean leaves clean connections in the pools. -/
theorem Inv.perform (h : m.Inv) {l : Step} (hfrees : m.FreesClean l) (c : ConnId) (p : SrvId)
    (hown : owner (m.worker.perform l).cy.acts c = .pool p) :
    (m.linkAt l (m.worker.perform l) c).Kept := by
  obtain ⟨new, hrec⟩ := Worker.perform_records h.own l
  rw [linkAt, Cycle.since_eq hrec.acts]
  rw [hrec.acts] at hown
  rcases Link.Kept.after l (m.worker.perform l)
      (fun hc => woken_kept (h.pooled c p hc) l) hown with ⟨r, hk⟩ | hk
  · obtain ⟨hr, hf, hbufs, out, tr, ⟨d, ht⟩, hreached, hnew⟩ := hrec.kept r p c hk
    obtain ⟨hconn, hended, hunread, hunsent⟩ := hfrees r hr c hf.1 hf
    rw [linkAt, Cycle.since_eq hreached,
      Link.after_transfers _ l _ (m.worker.perform l) c ht] at hconn hended hunread
    subst hnew
    simp only [List.cons_append, Link.after, if_true, Link.after_poolCloseActs]
    refine ⟨hconn, hended, ?_, ?_⟩
    · exact Nat.le_of_eq hunread
    · exact (congrArg (·.getD []) hbufs).trans hunsent
  · exact hk

/-- Each orderly step keeps the invariant. -/
theorem Inv.step (h : m.Inv) {l : ReuseStep} (hord : m.Orderly l) : (m.step l).Inv := by
  cases l with
  | worker l =>
    simp only [Reuse.step]
    split
    · next hen =>
      exact ⟨h.own.perform hen (hord.1 hen), fun c p hown =>
        h.perform (hord.2 hen).1 c p hown⟩
    · exact h
  | network c what =>
    refine ⟨h.own, fun d p hown => ?_⟩
    have hd := h.pooled d p hown
    simp only [Reuse.step]
    by_cases hdc : d = c
    · subst hdc
      rw [Function.update_self]
      exact hd.arrive what
    · rw [Function.update_of_ne hdc]
      exact hd

/-- What is taken out of a pool in time is clean. -/
theorem Inv.handsOutClean (h : m.Inv) {l : ReuseStep} (hord : m.Orderly l) :
    m.HandsOutClean l := by
  intro c hc
  cases l with
  | network d what =>
    simp [Reuse.step, Cycle.since] at hc
  | worker l =>
    simp only [Reuse.step] at hc
    split at hc
    · next hen =>
      obtain ⟨new, hrec⟩ := Worker.perform_records h.own l
      dsimp only at hc
      rw [Cycle.since_eq hrec.acts] at hc
      obtain ⟨a, ha, hac⟩ := List.mem_filterMap.mp hc
      obtain ⟨r, addr, htarget, hentry⟩ := hrec.taken a ha c hac
      have hlate : (m.links c).late = 0 := (hord.2 hen).2 (r, addr) htarget (c, addr) hentry rfl
      have hholds : (m.worker.pools (m.worker.requests r).srv).Holds c := by
        obtain ⟨cache, free, hpool⟩ := h.own.net.represented (m.worker.requests r).srv
        obtain ⟨i, hi, hconn, _⟩ := hpool.mem_entries hentry
        exact (hpool.holds_iff c).mpr ⟨i, hi, hconn⟩
      have hkept := h.pooled c _ (h.own.net.pooled _ c hholds)
      have hunread := hkept.unread
      exact ⟨hkept.connected, hkept.endedWhenFreed, by omega, hkept.unsent⟩
    · simp [Cycle.since] at hc

end Reuse

/-- The worker starts with empty pools. -/
theorem reuse_inv_init (maxCached : SrvId → Nat) (srv : ReqId → SrvId) :
    (Reuse.init maxCached srv).Inv where
  own := ownInv_init maxCached srv
  pooled c p h := by cases h

/-- In every run in which requests clear what they own and free it clean, and connect when
nothing has come late, every connection that is handed out of a pool is clean. -/
theorem reused_connections_clean (maxCached : SrvId → Nat) (srv : ReqId → SrvId)
    {ls : List ReuseStep}
    (h : Along Reuse.step Reuse.Orderly (Reuse.init maxCached srv) ls) :
    Along Reuse.step Reuse.HandsOutClean (Reuse.init maxCached srv) ls :=
  h.transfer (I := Reuse.Inv) (fun _ _ hi hl => hi.step hl) (fun _ _ hi hl => hi.handsOutClean hl)
    (reuse_inv_init maxCached srv)

/-- A request that has read its answer leaves its connection to the next one. -/
theorem reused_connections_clean_in_turn :
    let connect (r : ReqId) (how : ConnectAnswer) : ReuseStep :=
      .worker (.call r (.connect 0 (some afInet) [] 80
        { parseUrl := .address [1], retval := { connect := how } }))
    let m := Reuse.init (fun _ => 1) fun _ => 0
    let ls := [.worker (.closure 0 (some (.generator true))), connect 0 (.inProgress 7),
      .network 7 .established, .worker (.connectionEvent 7 true .ready {} .ok),
      .worker (.call 0 (.recv 0 {} 4 { recv := .again })), .network 7 (.bytes 3),
      .worker (.connectionEvent 7 false .ready { recv := { recv := .data 1 [2, 3] } } .ok),
      .worker (.call 0 (.close 0 .ok)), connect 1 (.refused false)]
    owner (run Reuse.step m ls).worker.cy.acts 7 = .request 1 0 ∧
      Along Reuse.step Reuse.HandsOutClean m ls :=
  ⟨by decide +kernel, reused_connections_clean _ _ (by decide +kernel)⟩

/-- The next request is handed a connection that was refused, that has an unread answer, that
has ended, or on which a buffer was sent in part; and one whose answer has come late, or that
another request has closed in the pool. -/
theorem keepalive_hands_out_unclean :
    let connect (r : ReqId) (addr : UInt8) (how : ConnectAnswer) : ReuseStep :=
      .worker (.call r (.connect 0 (some afInet) [] 80
        { parseUrl := .address [addr], retval := { connect := how } }))
    let close (r : ReqId) (readEvent : Rc) : ReuseStep := .worker (.call r (.close 0 readEvent))
    let script : ReuseStep := .worker (.closure 0 (some (.generator true)))
    let recv : ReuseStep := .worker (.call 0 (.recv 0 {} 4 { recv := .again }))
    let again : ReuseStep := connect 1 1 (.refused false)
    let refused := [script, connect 0 1 (.inProgress 7), .network 7 .ended,
      .worker (.connectionEvent 7 true .ready {} .ok), close 0 .ok, again]
    let unread := [connect 0 1 (.established 7), .network 7 (.bytes 3), close 0 .ok, again]
    let eof := [script, connect 0 1 (.established 7), recv,
      .worker (.connectionEvent 7 false .ready { recv := { recv := .eof } } .ok), close 0 .ok,
      again]
    let unsent := [connect 0 1 (.established 7),
      .worker (.call 0 (.send 0 [1, 2, 3] 3 { sends := [.accepted 1] })), close 0 .ok, again]
    let late := [connect 0 1 (.established 7), close 0 .ok, .network 7 (.bytes 3), again]
    let stale := [connect 0 1 (.established 7), close 0 .error, connect 2 1 (.established 7),
      close 2 .ok, close 0 .ok, connect 3 2 (.inProgress 7), again]
    ∀ ls ∈ [refused, unread, eof, unsent, late, stale],
      ¬ Along Reuse.step Reuse.HandsOutClean (Reuse.init (fun _ => 1) fun _ => 0) ls := by
  decide +kernel

end NgxPhp
