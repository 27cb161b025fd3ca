import NgxPhp.Socket.Outcome

/-!
# What bounds the wait on a socket

A query of the resolver ends by itself, and so does a connection with a timer. For
each operation its answers, and the state it finds, say whether one of these is
pending afterwards.
-/

namespace NgxPhp

/-- The upstream has a connection and was last used by its own request. -/
def Sock.Usable (k : Sock) : Prop := k.u.peer.connection.isSome = true ∧ k.u.request = k.r

instance Sock.decidableUsable (k : Sock) : Decidable k.Usable :=
  inferInstanceAs (Decidable (_ ∧ _))

/-- The read timer of the current connection. -/
def Sock.readTimer (k : Sock) : Option Nat :=
  k.u.peer.connection.bind fun c => (k.cy.connections c).read.timer

/-- The write timer of the current connection. -/
def Sock.writeTimer (k : Sock) : Option Nat :=
  k.u.peer.connection.bind fun c => (k.cy.connections c).write.timer

/-- A query of the resolver or a timer of the current connection is pending. -/
def Sock.Timed (k : Sock) : Prop :=
  k.u.queries ≠ [] ∨ k.readTimer.isSome = true ∨ k.writeTimer.isSome = true

instance Sock.decidableTimed (k : Sock) : Decidable k.Timed :=
  inferInstanceAs (Decidable (_ ∨ _ ∨ _))

/-- How the answers end the sending of `n` bytes. -/
def sendResult : List SendAnswer → Nat → Rc
  | .accepted m :: answers, n => if n ≤ m then .ok else sendResult answers (n - m)
  | .error :: _, _ => .error
  | _, _ => .again

/-- A send of `n` bytes leaves something pending: it blocks, or something else is pending. When
all is sent at once the write timer is deleted. -/
def SendAnswers.Arms (ans : SendAnswers) (n : Nat) (k : Sock) : Prop :=
  match sendResult ans.sends n with
  | .ok => k.u.queries ≠ [] ∨ k.readTimer.isSome = true
  | .error => k.Timed
  | _ => True

/-- A receive comes to call `c->recv`. -/
def Sock.CallsRecv (k : Sock) (c : ConnId) : Prop :=
  k.u.buffer.getD k.u.bufferSize ≠ 0 ∧
    ¬ ((k.cy.connections c).read.active = true ∧ (k.cy.connections c).read.ready = false)

instance Sock.decidableCallsRecv (k : Sock) (c : ConnId) : Decidable (k.CallsRecv c) :=
  inferInstanceAs (Decidable (_ ∧ _))

/-- After `c->recv` the receive goes on to wait for the next read event: there was no data, or
a page receive has drained the socket. -/
def RecvAnswers.goesOn (ans : RecvAnswers) (page : Bool) : Bool :=
  match ans.recv with
  | .error => false
  | .data _ _ => page
  | .again => true
  | .eof => true

/-- A receive that waits for a read event leaves something pending: the event is or gets
registered, or something else is pending. Otherwise the read timer is deleted. -/
def RecvAnswers.ArmsRead (ans : RecvAnswers) (active ready : Bool) (k : Sock) : Prop :=
  if ans.readEvent ≠ .ok then k.Timed
  else active = true ∨ ready = false ∨ k.u.queries ≠ [] ∨ k.writeTimer.isSome = true

instance RecvAnswers.decidableArmsRead (ans : RecvAnswers) (active ready : Bool) (k : Sock) :
    Decidable (ans.ArmsRead active ready k) := by
  unfold RecvAnswers.ArmsRead
  infer_instance

/-- A receive leaves something pending: it waits for a read event, or something else is
pending. -/
def RecvAnswers.Arms (ans : RecvAnswers) (k : Sock) : Prop :=
  match k.u.peer.connection with
  | none => k.Timed
  | some c =>
    let rev := (k.cy.connections c).read
    if k.CallsRecv c then
      if ans.goesOn (k.u.enabledReceivePage && rev.active && !ans.ready) then
        ans.ArmsRead rev.active ans.ready k
      else k.Timed
    else ans.ArmsRead rev.active rev.ready k

/-- A connect to `addr` leaves something pending: it is in progress, or something else is. A
connection that is stored has no timer of its own. -/
def RetvalAnswers.Arms (ans : RetvalAnswers) (k : Sock) (addr : SockAddr) : Prop :=
  match k.kc.lookup addr with
  | some i => k.u.queries ≠ [] ∨ ∃ c ∈ (k.kc.cached i).connection,
      (k.cy.connections c).read.timer.isSome = true ∨
        (k.cy.connections c).write.timer.isSome = true
  | none =>
    match ans.connect with
    | .refused _ => k.Timed
    | .failed _ _ => k.u.queries ≠ []
    | .established _ => k.u.queries ≠ []
    | .inProgress _ => ans.poolCreated = true ∨ k.u.queries ≠ []

/-- The same for `ngx_http_php_socket_resolve_handler`. -/
def ResolveAnswers.Arms (ans : ResolveAnswers) (k : Sock) (ur : Option Resolved) : Prop :=
  match ur with
  | none => k.Timed
  | some ur =>
    if ans.state ≠ 0 ∨ !ans.textAllocated then k.Timed
    else
      let i := if ans.addrs.length = 1 then 0 else ans.random % ans.addrs.length
      ans.retval.Arms k (SockAddr.withPort (ans.addrs.getD i []) ur.port)

/-- The same for `ngx_http_php_socket_connect`. -/
def ConnectAnswers.Arms (ans : ConnectAnswers) (port : Nat) (k : Sock) : Prop :=
  match ans.parseUrl, ans.resolveStart, ans.resolveName with
  | .address addr, _, _ => ans.retval.Arms k addr
  | .name, .started _, .pending => True
  | .name, .started _, .resolved res => res.Arms k (some { port })
  | _, _, _ => k.Timed

instance SendAnswers.decidableArms (ans : SendAnswers) (n : Nat) (k : Sock) :
    Decidable (ans.Arms n k) := by
  unfold SendAnswers.Arms
  split <;> infer_instance

instance RecvAnswers.decidableArms (ans : RecvAnswers) (k : Sock) : Decidable (ans.Arms k) := by
  unfold RecvAnswers.Arms
  dsimp only
  split <;> infer_instance

instance RetvalAnswers.decidableArms (ans : RetvalAnswers) (k : Sock) (addr : SockAddr) :
    Decidable (ans.Arms k addr) := by
  unfold RetvalAnswers.Arms
  cases k.kc.lookup addr with
  | some i => infer_instance
  | none => cases ans.connect <;> infer_instance

instance ResolveAnswers.decidableArms (ans : ResolveAnswers) (k : Sock) (ur : Option Resolved) :
    Decidable (ans.Arms k ur) := by
  unfold ResolveAnswers.Arms
  cases ur <;> infer_instance

instance ConnectAnswers.decidableArms (ans : ConnectAnswers) (port : Nat) (k : Sock) :
    Decidable (ans.Arms port k) := by
  unfold ConnectAnswers.Arms
  split <;> infer_instance

/-- The same queries and timers are pending. -/
structure Sock.SameTimers (k k' : Sock) : Prop where
  queries : k'.u.queries = k.u.queries
  readTimer : k'.readTimer = k.readTimer
  writeTimer : k'.writeTimer = k.writeTimer

namespace Sock

variable {k k' : Sock} {c : ConnId}

theorem SameTimers.refl (k : Sock) : k.SameTimers k := ⟨rfl, rfl, rfl⟩

/-- With the same timers the same is pending. -/
theorem SameTimers.timed_iff (h : k.SameTimers k') : k'.Timed ↔ k.Timed := by
  unfold Timed
  rw [h.queries, h.readTimer, h.writeTimer]

/-- A step that changes no timer of the current connection. -/
theorem SameTimers.of_conn (hq : k'.u.queries = k.u.queries)
    (hp : k'.u.peer.connection = k.u.peer.connection)
    (hc : ∀ c ∈ k.u.peer.connection,
      (k'.cy.connections c).read.timer = (k.cy.connections c).read.timer ∧
        (k'.cy.connections c).write.timer = (k.cy.connections c).write.timer) :
    k.SameTimers k' where
  queries := hq
  readTimer := by
    unfold Sock.readTimer
    rw [hp]
    cases hconn : k.u.peer.connection with
    | none => rfl
    | some c => exact (hc c hconn).1
  writeTimer := by
    unfold Sock.writeTimer
    rw [hp]
    cases hconn : k.u.peer.connection with
    | none => rfl
    | some c => exact (hc c hconn).2

/-- The read timer is that of the connection. -/
theorem readTimer_eq (h : k.u.peer.connection = some c) :
    k.readTimer = (k.cy.connections c).read.timer := by rw [readTimer, h]; rfl

/-- The write timer is that of the connection. -/
theorem writeTimer_eq (h : k.u.peer.connection = some c) :
    k.writeTimer = (k.cy.connections c).write.timer := by rw [writeTimer, h]; rfl

end Sock

/-! ## Sending -/

/-- The loop ends as the answers say and leaves the connections alone. -/
theorem sendLoop_result (c : ConnId) (answers : List SendAnswer) (b : Bytes) (cy : Cycle) :
    (sendLoop c answers b cy).1 = sendResult answers b.length ∧
      (sendLoop c answers b cy).2.2.connections = cy.connections := by
  induction answers generalizing b cy with
  | nil => exact ⟨rfl, rfl⟩
  | cons a answers ih =>
    cases a with
    | again => exact ⟨rfl, rfl⟩
    | error => exact ⟨rfl, rfl⟩
    | accepted n =>
      simp only [sendLoop, sendResult]
      by_cases hdrop : b.drop n = []
      · rw [if_pos hdrop, if_pos (List.drop_eq_nil_iff.mp hdrop)]
        exact ⟨rfl, rfl⟩
      · rw [if_neg hdrop, if_neg fun h => hdrop (List.drop_eq_nil_iff.mpr h)]
        simpa using ih (b.drop n) (cy.record (.send c b (min n b.length)))

/-- A send succeeds, fails or blocks. -/
theorem sendResult_cases (answers : List SendAnswer) (n : Nat) :
    sendResult answers n = .ok ∨ sendResult answers n = .error ∨
      sendResult answers n = .again := by
  induction answers generalizing n with
  | nil => simp [sendResult]
  | cons a answers ih =>
    cases a with
    | again => simp [sendResult]
    | error => simp [sendResult]
    | accepted m =>
      simp only [sendResult]
      split
      · exact Or.inl rfl
      · exact ih (n - m)

/-- A send leaves something pending just if its answers say so. -/
theorem upstreamSend_timed_iff (ans : SendAnswers) {k : Sock} {c : ConnId} {bytes : Bytes}
    (hc : k.u.peer.connection = some c) (hb : k.u.requestBufs = some bytes) :
    (upstreamSend ans k).2.Timed ↔ ans.Arms bytes.length k := by
  obtain ⟨hrc, hcy⟩ := sendLoop_result c ans.sends bytes k.cy
  simp only [upstreamSend, SendAnswers.Arms, hc, hb]
  rw [← hrc]
  have hcases := sendResult_cases ans.sends bytes.length
  rw [← hrc] at hcases
  generalize sendLoop c ans.sends bytes k.cy = res at hcy hcases
  obtain ⟨rc, rest, cy⟩ := res
  dsimp only at hcy hcases ⊢
  rcases hcases with rfl | rfl | rfl
  · -- the write timer goes, the read timer stays
    dsimp only
    split <;> simp [Sock.Timed, Sock.readTimer, Sock.writeTimer, hc, hcy, Sock.onCycle,
      Cycle.delWriteTimer, Cycle.handleWriteEvent, Event.delTimer]
  · exact Sock.SameTimers.timed_iff (.of_conn rfl rfl fun d _ => by dsimp only; rw [hcy]; simp)
  · dsimp only
    split <;> simp [Sock.Timed, Sock.writeTimer, hc, Sock.onCycle, Cycle.addWriteTimer,
      Cycle.handleWriteEvent, Event.addTimer]

/-! ## Receiving -/

/-- The wait for a read event. -/
theorem awaitRead_timed_iff (ans : RecvAnswers) (n : Int) {k : Sock} {c : ConnId}
    (hc : k.u.peer.connection = some c) :
    (awaitRead ans c n k).2.Timed ↔
      ans.ArmsRead (k.cy.connections c).read.active (k.cy.connections c).read.ready k := by
  unfold awaitRead RecvAnswers.ArmsRead
  dsimp only
  split
  · exact Iff.rfl
  · cases hactive : (k.cy.connections c).read.active <;>
      cases hready : (k.cy.connections c).read.ready <;>
      simp [Sock.Timed, Sock.readTimer, Sock.writeTimer, hc, hactive, hready, Sock.onCycle,
        Cycle.handleReadEvent, Cycle.addReadTimer, Cycle.delReadTimer, Event.addTimer,
        Event.delTimer]

/-- With the same timers a receive leaves the same pending. -/
theorem Sock.SameTimers.armsRead_iff {k k' : Sock} (h : k.SameTimers k') (ans : RecvAnswers)
    (active ready : Bool) : ans.ArmsRead active ready k' ↔ ans.ArmsRead active ready k := by
  unfold RecvAnswers.ArmsRead
  rw [h.timed_iff, h.queries, h.writeTimer]

/-- What a receive does with the result of `c->recv`. -/
theorem takeRecv_timed_iff (ans : RecvAnswers) (page : Bool) {k : Sock} {c : ConnId}
    (hc : k.u.peer.connection = some c) :
    (takeRecv ans page c k).2.Timed ↔
      if ans.goesOn page then
        ans.ArmsRead (k.cy.connections c).read.active (k.cy.connections c).read.ready k
      else k.Timed := by
  unfold takeRecv RecvAnswers.goesOn
  have hset : (if page then { k with codeValue := some ans.recv.toInt } else k).u = k.u ∧
      (if page then { k with codeValue := some ans.recv.toInt } else k).cy = k.cy := by
    split <;> exact ⟨rfl, rfl⟩
  generalize (if page then { k with codeValue := some ans.recv.toInt } else k) = k₁ at hset ⊢
  obtain ⟨hu, hcy⟩ := hset
  have hsame : ∀ k₂ : Sock, k₂.u.queries = k₁.u.queries →
      k₂.u.peer.connection = k₁.u.peer.connection → k₂.cy = k₁.cy → k.SameTimers k₂ := by
    intro k₂ hq hp hcy₂
    exact .of_conn (by rw [hq, hu]) (by rw [hp, hu]) fun d _ => by rw [hcy₂, hcy]; simp
  have hwait : ∀ (n : Int) (k₂ : Sock), k₂.u.queries = k₁.u.queries →
      k₂.u.peer.connection = k₁.u.peer.connection → k₂.cy = k₁.cy →
      ((awaitRead ans c n k₂).2.Timed ↔
        ans.ArmsRead (k.cy.connections c).read.active (k.cy.connections c).read.ready k) := by
    intro n k₂ hq hp hcy₂
    have hc₂ : k₂.u.peer.connection = some c := by rw [hp, hu, hc]
    rw [awaitRead_timed_iff ans n hc₂, (hsame k₂ hq hp hcy₂).armsRead_iff, hcy₂, hcy]
  dsimp only
  cases ans.recv with
  | error => exact (hsame k₁ rfl rfl rfl).timed_iff
  | data first rest =>
    cases page with
    | true => exact hwait _ _ rfl rfl rfl
    | false => exact Sock.SameTimers.timed_iff (hsame _ rfl rfl rfl)
  | again => exact hwait _ _ rfl rfl rfl
  | eof => exact hwait _ _ rfl rfl rfl

/-- `ngx_http_php_socket_upstream_recv` leaves something pending just if its answers say so. -/
theorem upstreamRecv_timed_iff (ans : RecvAnswers) (k : Sock) :
    (upstreamRecv ans k).2.Timed ↔ ans.Arms k := by
  unfold upstreamRecv RecvAnswers.Arms
  cases hc : k.u.peer.connection with
  | none => exact Iff.rfl
  | some c =>
    dsimp only
    have hsame : ∀ b, k.SameTimers (k.onUpstream fun u => { u with buffer := b }) := fun b =>
      .of_conn rfl rfl fun d _ => ⟨rfl, rfl⟩
    have hwait : ∀ n b, (awaitRead ans c n (k.onUpstream fun u => { u with buffer := b })).2.Timed ↔
        ans.ArmsRead (k.cy.connections c).read.active (k.cy.connections c).read.ready k := by
      intro n b
      rw [awaitRead_timed_iff (k := k.onUpstream fun u => { u with buffer := b }) ans n hc]
      exact (hsame b).armsRead_iff ans _ _
    by_cases hroom : k.u.buffer.getD k.u.bufferSize = 0
    · rw [if_pos hroom, if_neg fun h => h.1 hroom]
      exact hwait 0 none
    · rw [if_neg hroom]
      by_cases hquiet : (k.cy.connections c).read.active = true ∧
          (k.cy.connections c).read.ready = false
      · rw [if_pos (by simp [hquiet]), if_neg fun h => h.2 hquiet]
        exact hwait _ _
      · have hcalls : k.CallsRecv c := ⟨hroom, hquiet⟩
        rw [if_neg (by simpa using hquiet), if_pos hcalls]
        have hrecv : k.SameTimers ((k.onUpstream fun u =>
            { u with buffer := some (k.u.buffer.getD k.u.bufferSize) }).onCycle
              (·.recv c ans.ready)) := by
          refine .of_conn rfl rfl fun d hd => ?_
          obtain rfl : c = d := Option.some.inj (hc.symm.trans hd)
          simp [Sock.onCycle, Sock.onUpstream, Cycle.recv]
        rw [takeRecv_timed_iff (k := (k.onUpstream fun u =>
          { u with buffer := some (k.u.buffer.getD k.u.bufferSize) }).onCycle
            (·.recv c ans.ready)) ans _ hc, hrecv.timed_iff, hrecv.armsRead_iff]
        simp [Sock.onCycle, Sock.onUpstream, Cycle.recv]

/-- A receive of the script leaves something pending just if it can be used and its answers say so.
-/
theorem recvThenAwait_timed_iff (ans : RecvAnswers) (register : Bool) (k : Sock) :
    (recvThenAwait ans register k).2.Timed ↔
      if k.Usable then ans.Arms k else k.Timed := by
  unfold recvThenAwait
  split
  · next hc => rw [if_neg fun h => by simp [Sock.Usable, hc] at h]
  · next c hc =>
    by_cases hr : k.u.request = k.r
    · rw [if_neg (not_not.mpr hr), if_pos (show k.Usable from ⟨by simp [hc], hr⟩),
        ← upstreamRecv_timed_iff]
      generalize upstreamRecv ans k = res
      obtain ⟨rc, k₁⟩ := res
      have hsame : ∀ k₂ : Sock, k₂.u.queries = k₁.u.queries →
          k₂.u.peer.connection = k₁.u.peer.connection → k₂.cy = k₁.cy →
          (k₂.Timed ↔ k₁.Timed) := fun k₂ hq hp hcy =>
        Sock.SameTimers.timed_iff (.of_conn hq hp fun d _ => by rw [hcy]; simp)
      dsimp only
      split
      · exact hsame _ rfl rfl rfl
      · split
        · split
          · exact Iff.rfl
          · refine Sock.SameTimers.timed_iff (.of_conn rfl rfl fun d _ => ?_)
            by_cases hd : d = c
            · subst hd
              simp [Sock.onCycle, Sock.awaitRecv, Sock.onUpstream, Cycle.addReadEvent]
            · simp [Sock.onCycle, Sock.awaitRecv, Sock.onUpstream, Cycle.addReadEvent,
                Cycle.modify_of_ne _ _ hd]
        · exact hsame _ rfl rfl rfl
    · rw [if_pos hr, if_neg fun h : k.Usable => hr h.2]

/-! ## Connecting -/

/-- A connection that the pool hands over has its timers. -/
theorem Cycle.addReadEvent_timers (cy : Cycle) (c d : ConnId) :
    ((cy.addReadEvent c).connections d).read.timer = (cy.connections d).read.timer ∧
      ((cy.addReadEvent c).connections d).write.timer = (cy.connections d).write.timer := by
  rw [addReadEvent, modify_connections]
  split
  · next hd =>
    subst hd
    exact ⟨rfl, rfl⟩
  · exact ⟨rfl, rfl⟩

/-- The end of a connect arms the write timer of a connection that is in progress, and no
other timer. -/
theorem finishConnect_timed (ans : RetvalAnswers) (rc : Rc) {c : ConnId} {k : Sock}
    (hc : k.u.peer.connection = some c) :
    if rc = .again ∧ ((k.cy.connections c).hasPool = true ∨ ans.poolCreated = true) then
      (finishConnect ans rc c k).2.Timed
    else k.SameTimers (finishConnect ans rc c k).2 := by
  have hsame : ∀ k₂ : Sock, k₂.u.queries = k.u.queries →
      k₂.u.peer.connection = k.u.peer.connection →
      (k₂.cy.connections c).read.timer = (k.cy.connections c).read.timer →
      (k₂.cy.connections c).write.timer = (k.cy.connections c).write.timer →
      k.SameTimers k₂ := by
    intro k₂ hq hp hr hw
    refine .of_conn hq hp fun d hd => ?_
    obtain rfl : c = d := Option.some.inj (hc.symm.trans hd)
    exact ⟨hr, hw⟩
  unfold finishConnect
  dsimp only
  by_cases hpool : (k.cy.connections c).hasPool = true ∨ ans.poolCreated = true
  · have hno : ¬ (!(k.cy.connections c).hasPool && !ans.poolCreated) = true := by
      rcases hpool with h | h <;> simp [h]
    rw [if_neg hno]
    by_cases hok : rc = .ok
    · rw [if_neg (by simp [hok]), if_pos hok]
      split
      · exact hsame _ rfl rfl (by simp [Sock.onCycle, Cycle.createPool])
          (by simp [Sock.onCycle, Cycle.createPool])
      · split
        · exact hsame _ rfl rfl (by simp [Sock.onCycle, Cycle.createPool, Cycle.handleWriteEvent])
            (by simp [Sock.onCycle, Cycle.createPool, Cycle.handleWriteEvent])
        · exact hsame _ rfl rfl
            (by simp [Sock.onCycle, Sock.onUpstream, Cycle.createPool, Cycle.handleWriteEvent,
              Cycle.handleReadEvent])
            (by simp [Sock.onCycle, Sock.onUpstream, Cycle.createPool, Cycle.handleWriteEvent,
              Cycle.handleReadEvent])
    · rw [if_neg hok]
      by_cases hagain : rc = .again
      · rw [if_pos ⟨hagain, hpool⟩, if_pos hagain]
        refine Or.inr (Or.inr ?_)
        simp [Sock.writeTimer, hc, Sock.onCycle, Cycle.addWriteTimer, Event.addTimer]
      · rw [if_neg fun h => hagain h.1, if_neg hagain]
        exact hsame _ rfl rfl (by simp [Sock.onCycle, Cycle.createPool])
          (by simp [Sock.onCycle, Cycle.createPool])
  · have hno : (!(k.cy.connections c).hasPool && !ans.poolCreated) = true := by
      rw [not_or] at hpool
      simp [hpool]
    rw [if_neg fun h => hpool h.2, if_pos hno]
    exact .refl k

/-- A fresh connection has no timers. -/
theorem Cycle.connectPeer_timers (cy : Cycle) (c : ConnId) (completed : Bool) :
    ((cy.connectPeer c completed).connections c).read.timer = none ∧
      ((cy.connectPeer c completed).connections c).write.timer = none ∧
      ((cy.connectPeer c completed).connections c).hasPool = false := by
  simp [connectPeer, getConnection]

/-- What is left of a connect that has stored the connection `c`. -/
theorem finishConnect_stored (ans : RetvalAnswers) (rc : Rc) (s : Resource) (k : Sock)
    {peer : PeerConnection} (kc : KeepaliveConf) (cy : Cycle) {c : ConnId}
    (hpeer : peer.connection = some c) :
    (finishConnect ans rc c ((k.withPeer peer kc cy).adopt s c)).2.Timed ↔
      (rc = .again ∧ ((cy.connections c).hasPool = true ∨ ans.poolCreated = true)) ∨
        k.u.queries ≠ [] ∨ (cy.connections c).read.timer.isSome = true ∨
        (cy.connections c).write.timer.isSome = true := by
  have h := finishConnect_timed ans rc (k := (k.withPeer peer kc cy).adopt s c) hpeer
  have hconn : ((k.withPeer peer kc cy).adopt s c).cy.connections c =
      (cy.connections c).attach k.r := by simp [Sock.adopt, Sock.withPeer]
  have htimed : ((k.withPeer peer kc cy).adopt s c).Timed ↔ k.u.queries ≠ [] ∨
      (cy.connections c).read.timer.isSome = true ∨
      (cy.connections c).write.timer.isSome = true := by
    unfold Sock.Timed
    rw [Sock.readTimer_eq (k := (k.withPeer peer kc cy).adopt s c) hpeer,
      Sock.writeTimer_eq (k := (k.withPeer peer kc cy).adopt s c) hpeer, hconn]
    exact Iff.rfl
  have hpool : (((k.withPeer peer kc cy).adopt s c).cy.connections c).hasPool =
      (cy.connections c).hasPool := by
    rw [hconn]
    rfl
  rw [hpool] at h
  by_cases hagain : rc = .again ∧ ((cy.connections c).hasPool = true ∨ ans.poolCreated = true)
  · rw [if_pos hagain] at h
    exact ⟨fun _ => Or.inl hagain, fun _ => h⟩
  · rw [if_neg hagain] at h
    rw [h.timed_iff, htimed, or_iff_right hagain]

/-- The connect to an address leaves something pending just if its answers say so. -/
theorem resolveRetvalHandler_timed_iff (ans : RetvalAnswers) (s : Resource) {k : Sock}
    (addr : SockAddr) (haddr : k.u.resolved.bind (·.sockaddr) = some addr) :
    (resolveRetvalHandler ans s k).2.Timed ↔ ans.Arms k addr := by
  rw [resolveRetvalHandler, haddr]
  dsimp only
  unfold RetvalAnswers.Arms
  cases hl : k.kc.lookup addr with
  | some i =>
    obtain ⟨pc', kc', cy', hget, hconn, hcy⟩ := socketGetPeer_of_slot ans.addEvent
      { k.u.peer with sockaddr := some addr, data := some k.kc.id } k.cy hl
    have htimers : ∀ d, (cy'.connections d).read.timer = (k.cy.connections d).read.timer ∧
        (cy'.connections d).write.timer = (k.cy.connections d).write.timer := by
      rcases hcy with rfl | ⟨c, rfl⟩
      · exact fun d => ⟨rfl, rfl⟩
      · exact k.cy.addReadEvent_timers c
    cases hc : pc'.connection with
    | none =>
      have hev : eventConnectPeer ans k.r s
          { k.u.peer with sockaddr := some addr, data := some k.kc.id } k.kc k.cy =
          (.done, pc', kc', cy') := by
        rw [eventConnectPeer, hget]
        dsimp only
        rw [hc]
      rw [hev]
      dsimp only
      rw [if_neg (by simp), hc]
      simp [Sock.withPeer, hc, Sock.Timed, Sock.readTimer, Sock.writeTimer, ← hconn]
    | some c =>
      have hev : eventConnectPeer ans k.r s
          { k.u.peer with sockaddr := some addr, data := some k.kc.id } k.kc k.cy =
          (.done, pc', kc', cy'.record (.take k.r s c)) := by
        rw [eventConnectPeer, hget]
        dsimp only
        rw [hc]
      rw [hev]
      dsimp only
      rw [if_neg (by simp), hc]
      dsimp only
      rw [finishConnect_stored _ _ _ _ _ _ hc, Cycle.record_connections, (htimers c).1,
        (htimers c).2]
      simp [← hconn, hc]
  | none =>
    rw [eventConnectPeer, socketGetPeer_of_lookup ans.addEvent k.cy hl]
    dsimp only
    cases ans.connect with
    | refused busy =>
      cases busy <;> exact Sock.SameTimers.timed_iff (.of_conn rfl rfl fun d _ => ⟨rfl, rfl⟩)
    | failed c declined =>
      cases declined <;>
        simp [Sock.withPeer, Sock.Timed, Sock.readTimer, Sock.writeTimer]
    | established c =>
      dsimp only
      rw [if_neg (by simp), finishConnect_stored _ _ _ _ _ _ rfl, Cycle.record_connections]
      obtain ⟨hr, hw, _⟩ := k.cy.connectPeer_timers c true
      simp [hr, hw]
    | inProgress c =>
      dsimp only
      rw [if_neg (by simp), finishConnect_stored _ _ _ _ _ _ rfl, Cycle.record_connections]
      obtain ⟨hr, hw, hp⟩ := k.cy.connectPeer_timers c false
      simp [hr, hw, hp]

/-- What a connect goes by is the same, and so is what is pending. -/
theorem Sock.SameTimers.arms_iff {k k' : Sock} (h : k.SameTimers k') (hkc : k'.kc = k.kc)
    (hcy : k'.cy = k.cy) (ans : RetvalAnswers) (addr : SockAddr) :
    ans.Arms k' addr ↔ ans.Arms k addr := by
  unfold RetvalAnswers.Arms
  rw [hkc, hcy, h.queries, h.timed_iff]

/-- The resolver's answer leaves something pending just if its answers say so. -/
theorem resolveHandler_timed_iff (ans : ResolveAnswers) (s : Resource) (k : Sock) :
    (resolveHandler ans s k).Timed ↔ ans.Arms k k.u.resolved := by
  unfold resolveHandler ResolveAnswers.Arms
  by_cases hstate : ans.state ≠ 0
  · rw [if_pos hstate]
    cases k.u.resolved with
    | none => exact Iff.rfl
    | some ur =>
      dsimp only
      rw [if_pos (Or.inl hstate)]
  · rw [if_neg hstate]
    cases k.u.resolved with
    | none => exact Iff.rfl
    | some ur =>
      dsimp only
      by_cases htext : (!ans.textAllocated) = true
      · rw [if_pos htext, if_pos (Or.inr htext)]
      · have hno : ¬ (ans.state ≠ 0 ∨ (!ans.textAllocated) = true) :=
          fun h => h.elim hstate htext
        rw [if_neg htext, if_neg hno]
        generalize SockAddr.withPort _ _ = addr
        have hset : k.SameTimers
            (k.setResolved { ur with sockaddr := some addr, ctx := none }) :=
          .of_conn rfl rfl fun d _ => ⟨rfl, rfl⟩
        rw [resolveRetvalHandler_timed_iff ans.retval s addr rfl,
          hset.arms_iff rfl rfl]

/-- A connect leaves something pending just if its answers say so. -/
theorem socketConnect_timed_iff (ans : ConnectAnswers) (s : Resource) (port : Nat) (k : Sock) :
    (socketConnect ans s port k).2.Timed ↔ ans.Arms port k := by
  have hset : ∀ ur, k.SameTimers ((k.onUpstream (·.prepare k.r)).setResolved ur) := fun ur =>
    .of_conn rfl rfl fun d _ => ⟨rfl, rfl⟩
  unfold socketConnect ConnectAnswers.Arms
  dsimp only
  cases ans.parseUrl with
  | error => exact Sock.SameTimers.timed_iff (.of_conn rfl rfl fun d _ => ⟨rfl, rfl⟩)
  | address addr =>
    dsimp only
    rw [resolveRetvalHandler_timed_iff ans.retval s addr rfl,
      (hset _).arms_iff rfl rfl]
  | name =>
    cases ans.resolveStart with
    | null => exact (hset _).timed_iff
    | noResolver => exact (hset _).timed_iff
    | started id =>
      cases ans.resolveName with
      | error => exact (hset _).timed_iff
      | pending => simp [Sock.Timed, Sock.addQuery, Sock.onUpstream, Sock.setResolved]
      | resolved res =>
        dsimp only
        rw [resolveHandler_timed_iff]
        unfold ResolveAnswers.Arms
        dsimp only [Sock.setResolved, Sock.onUpstream]
        split
        · exact (hset _).timed_iff
        · exact (hset _).arms_iff rfl rfl _ _

/-! ## Connects that are done at once -/

/-- A connect to `addr` is done at once. -/
def RetvalAnswers.settles (ans : RetvalAnswers) (kc : KeepaliveConf) (addr : SockAddr) : Bool :=
  match kc.lookup addr, ans.connect with
  | none, .established _ => ans.poolCreated
  | _, _ => false

/-- The same for `ngx_http_php_socket_resolve_handler`. -/
def ResolveAnswers.settles (ans : ResolveAnswers) (kc : KeepaliveConf) (ur : Option Resolved) :
    Bool :=
  ur.any fun ur =>
    ans.state = 0 && ans.textAllocated &&
      (let i := if ans.addrs.length = 1 then 0 else ans.random % ans.addrs.length
      ans.retval.settles kc (SockAddr.withPort (ans.addrs.getD i []) ur.port))

/-- A connect that is done at once takes back that the request waits. -/
theorem resolveRetvalHandler_settled (ans : RetvalAnswers) (s : Resource) {k : Sock}
    {addr : SockAddr} (haddr : k.u.resolved.bind (·.sockaddr) = some addr)
    (h : ans.settles k.kc addr = true) : (resolveRetvalHandler ans s k).2.phaseStatus = .ok := by
  unfold RetvalAnswers.settles at h
  split at h
  · next c hl hans =>
    rw [resolveRetvalHandler, haddr]
    dsimp only
    rw [eventConnectPeer, socketGetPeer_of_lookup ans.addEvent k.cy hl, hans]
    dsimp only
    rw [if_neg (by simp)]
    unfold finishConnect
    simp only [h, Bool.not_true, Bool.and_false, Bool.false_eq_true, if_false, if_true]
    split
    · rfl
    · split <;> rfl
  · cases h

/-- A connect that is done at once leaves `NGX_OK` behind. -/
theorem resolveHandler_settled (ans : ResolveAnswers) (s : Resource) {k : Sock}
    (h : ans.settles k.kc k.u.resolved = true) : (resolveHandler ans s k).phaseStatus = .ok := by
  unfold ResolveAnswers.settles at h
  unfold resolveHandler
  cases hur : k.u.resolved with
  | none => simp [hur] at h
  | some ur =>
    simp only [hur, Option.any_some, Bool.and_eq_true, decide_eq_true_eq] at h
    obtain ⟨⟨hstate, htext⟩, h⟩ := h
    rw [if_neg (not_not.mpr hstate)]
    dsimp only
    rw [if_neg (by simp [htext])]
    exact resolveRetvalHandler_settled ans.retval s rfl h

end NgxPhp
