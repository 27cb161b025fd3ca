import NgxPhp.Socket.Outcome

/-!
# When a transfer is over

A send or a receive that cannot go on is left to the handler of its direction,
which drops the result of its next attempt. The answers of the connection decide
whether that attempt is the last one.
-/

namespace NgxPhp

/-- The answers accept `n` more bytes, or refuse one. -/
def drains : List SendAnswer → Nat → Bool
  | .accepted m :: answers, n => n ≤ m || drains answers (n - m)
  | .error :: _, _ => true
  | _, _ => false

/-- The loop blocks exactly when the answers do not take the buffer. -/
theorem sendLoop_again_iff (c : ConnId) (answers : List SendAnswer) (b : Bytes) (cy : Cycle) :
    ((sendLoop c answers b cy).1 = .again ↔ drains answers b.length = false) ∧
      ((sendLoop c answers b cy).1 = .ok ∨ (sendLoop c answers b cy).1 = .error ∨
        (sendLoop c answers b cy).1 = .again) := by
  induction answers generalizing b cy with
  | nil => simp [sendLoop, drains]
  | cons a answers ih =>
    cases a with
    | again => simp [sendLoop, drains]
    | error => simp [sendLoop, drains]
    | accepted n =>
      simp only [sendLoop, drains]
      by_cases hdrop : b.drop n = []
      · have hle : b.length ≤ n := List.drop_eq_nil_iff.mp hdrop
        simp [hdrop, hle]
      · have hle : ¬ b.length ≤ n := fun h => hdrop (List.drop_eq_nil_iff.mpr h)
        rw [if_neg hdrop]
        simpa [hle] using ih (b.drop n) (cy.record (.send c b (min n b.length)))

/-- The attempt is the last one: the buffer is taken or refused, or the event cannot be
registered. -/
def SendAnswers.ends (ans : SendAnswers) (n : Nat) : Bool :=
  drains ans.sends n || ans.writeEvent ≠ .ok

/-- The last attempt of a send empties the buffer or fails, any other one leaves the rest to
the write event. -/
theorem upstreamSend_spec (ans : SendAnswers) {k : Sock} {c : ConnId} {bytes : Bytes}
    (hc : k.u.peer.connection = some c) (hb : k.u.requestBufs = some bytes) :
    (ans.ends bytes.length = true ∧ (upstreamSend ans k).1 ≠ .again ∧
      ((upstreamSend ans k).2.u.requestBufs = none ∨ (upstreamSend ans k).1 = .error)) ∨
    (ans.ends bytes.length = false ∧ (upstreamSend ans k).2.u.requestBufs.isSome = true ∧
      (upstreamSend ans k).2.u.writeEventHandler = .send) := by
  obtain ⟨hagain, hrc⟩ := sendLoop_again_iff c ans.sends bytes k.cy
  simp only [upstreamSend, SendAnswers.ends, hc, hb]
  generalize sendLoop c ans.sends bytes k.cy = res at hagain hrc
  obtain ⟨rc, rest, cy⟩ := res
  rcases hrc with rfl | rfl | rfl
  · have hd : drains ans.sends bytes.length = true := by simpa using hagain
    refine Or.inl ⟨by simp [hd], ?_⟩
    dsimp only
    split <;> exact ⟨by simp, Or.inl rfl⟩
  · have hd : drains ans.sends bytes.length = true := by simpa using hagain
    exact Or.inl ⟨by simp [hd], by simp, Or.inr rfl⟩
  · have hd : drains ans.sends bytes.length = false := hagain.mp rfl
    dsimp only
    split
    · next hev => exact Or.inl ⟨by simp [hev], by simp, Or.inr rfl⟩
    · next hev => exact Or.inr ⟨by simpa [hd] using hev, rfl, rfl⟩

/-- A transfer is left to the handler of its direction. -/
def Upstream.Blocked (u : Upstream) (write : Bool) : Prop :=
  u.peer.connection.isSome = true ∧
    if write then u.requestBufs.isSome = true ∧ u.writeEventHandler = .send
    else u.readEventHandler = .recv

/-- A send that returns `NGX_AGAIN` is blocked. -/
theorem socketSend_blocked {ans : SendAnswers} {k : Sock} (hb : k.u.requestBufs.isSome = true)
    (h : (socketSend ans k).1 = .again) : (socketSend ans k).2.u.Blocked true := by
  obtain ⟨bytes, hb⟩ := Option.isSome_iff_exists.mp hb
  have hpeer := (socketSend_quiet ans k).peer
  revert h hpeer
  unfold socketSend
  split
  · exact fun h => by cases h
  · next c hc =>
    dsimp only
    split
    · exact fun h => by cases h
    · intro h hpeer
      have hsend := upstreamSend_spec ans
        (k := k.onUpstream fun u => { u with enabledReceive := false }) hc hb
      rcases hsend with ⟨_, hne, _⟩ | ⟨_, hsome, hw⟩
      · exact absurd h hne
      · exact ⟨by rw [hpeer, hc]; rfl, hsome, hw⟩

/-- A receive that returns anything but an error is left to the read event. -/
theorem socketRecv_blocked {ans : RecvAnswers} {k : Sock}
    (h : (socketRecv ans k).1 ≠ Rc.error.toInt) : (socketRecv ans k).2.u.Blocked false := by
  have hpeer := (socketRecv_recvLeaves ans k).quiet.peer
  revert h hpeer
  unfold socketRecv recvThenAwait
  split
  · next h =>
    revert h
    split
    · simp
    · next c hc =>
      split
      · simp
      · dsimp only
        intro h _ hpeer
        refine ⟨by rw [hpeer, hc]; rfl, ?_⟩
        revert h
        split
        · rintro ⟨⟩
          rfl
        · split
          · split
            · simp
            · rintro ⟨⟩
              rfl
          · rintro ⟨⟩
            rfl
  · exact fun h => absurd rfl h

/-! ## Events -/

/-- The result that `ngx_http_php_socket_send_handler` drops, if it sends. -/
def sendHandlerRc (ans : SendAnswers) (k : Sock) : Option Rc :=
  match k.u.peer.connection with
  | none => none
  | some c =>
    if (k.cy.connections c).write.timedout then none
    else if k.u.requestBufs.isSome then some (upstreamSend ans k).1
    else none

/-- The result that `ngx_http_php_socket_upstream_recv_handler` drops, if it receives. -/
def recvHandlerRc (ans : RecvAnswers) (k : Sock) : Option Int :=
  match k.u.peer.connection with
  | none => none
  | some c =>
    if (k.cy.connections c).read.timedout then none
    else
      let k := (k.onUpstream fun u => { u with enabledReceive := true }).onCycle (·.delReadTimer c)
      if k.u.buffer.isSome then some (upstreamRecv ans k).1 else none

/-- The last attempt of a blocked send. -/
theorem sendHandler_ends {ans : SendAnswers} {k : Sock} {c : ConnId} {bytes : Bytes}
    (hc : k.u.peer.connection = some c) (hb : k.u.requestBufs = some bytes)
    (ht : (k.cy.connections c).write.timedout = false) (h : ans.ends bytes.length = true) :
    (sendHandler ans k).u.requestBufs = none ∨ sendHandlerRc ans k = some .error := by
  simp only [sendHandler, sendHandlerRc, hc, ht, hb, Bool.false_eq_true, if_false,
    Option.isSome_some, if_true]
  rcases upstreamSend_spec ans hc hb with ⟨_, _, hend⟩ | ⟨hne, _⟩
  · exact hend.imp_right (congrArg some)
  · simp [h] at hne

theorem awaitRead_u (ans : RecvAnswers) (c : ConnId) (n : Int) (k : Sock) :
    (awaitRead ans c n k).2.u = k.u := by
  unfold awaitRead
  dsimp only
  split
  · rfl
  · split <;> rfl

/-- The receive gets something other than `NGX_AGAIN`, or the event cannot be registered. -/
def RecvAnswers.ends (ans : RecvAnswers) : Bool := ans.recv ≠ .again || ans.readEvent ≠ .ok

theorem takeRecv_ends {ans : RecvAnswers} (page : Bool) (c : ConnId) (k : Sock)
    (h : ans.ends = true) :
    (takeRecv ans page c k).2.u.buffer = none ∨
      (takeRecv ans page c k).1 = Rc.error.toInt := by
  unfold takeRecv
  dsimp only
  split
  · exact Or.inr rfl
  · refine Or.inl ?_
    split
    · rw [awaitRead_u]
    · rfl
  · next hrecv =>
    have hev : ans.readEvent ≠ .ok := by simpa [RecvAnswers.ends, hrecv] using h
    refine Or.inr ?_
    rw [awaitRead, if_pos hev]
  · refine Or.inl ?_
    rw [awaitRead_u]
    rfl

/-- A receive on a ready connection. -/
theorem upstreamRecv_ends {ans : RecvAnswers} {k : Sock} {c : ConnId}
    (hc : k.u.peer.connection = some c) (hr : (k.cy.connections c).read.ready = true)
    (h : ans.ends = true) :
    (upstreamRecv ans k).2.u.buffer = none ∨ (upstreamRecv ans k).1 = Rc.error.toInt := by
  simp only [upstreamRecv, hc, hr, Bool.not_true, Bool.and_false, Bool.false_eq_true, if_false]
  split
  · refine Or.inl ?_
    rw [awaitRead_u]
    rfl
  · exact takeRecv_ends _ c _ h

/-- The last attempt of a blocked receive. -/
theorem upstreamRecvHandler_ends {ans : RecvAnswers} {k : Sock} {c : ConnId}
    (hc : k.u.peer.connection = some c) (hb : k.u.buffer.isSome = true)
    (ht : (k.cy.connections c).read.timedout = false)
    (hr : (k.cy.connections c).read.ready = true) (h : ans.ends = true) :
    (upstreamRecvHandler ans k).u.buffer = none ∨
      recvHandlerRc ans k = some Rc.error.toInt := by
  have hr' : (((k.onUpstream fun u => { u with enabledReceive := true }).onCycle
      (·.delReadTimer c)).cy.connections c).read.ready = true := by
    simpa [Sock.onCycle, Sock.onUpstream, Cycle.delReadTimer, Event.delTimer] using hr
  have hb' : ((k.onUpstream fun u => { u with enabledReceive := true }).onCycle
      (·.delReadTimer c)).u.buffer.isSome = true := hb
  have hc' : ((k.onUpstream fun u => { u with enabledReceive := true }).onCycle
      (·.delReadTimer c)).u.peer.connection = some c := hc
  simp only [upstreamRecvHandler, recvHandlerRc, hc, ht, Bool.false_eq_true, if_false]
  generalize (k.onUpstream fun u => { u with enabledReceive := true }).onCycle
    (·.delReadTimer c) = k' at hr' hb' hc'
  rw [if_pos hb', if_pos hb']
  exact (upstreamRecv_ends hc' hr' h).imp_right (congrArg some)

/-! ## Late answers of the resolver -/

/-- A connect that stores nothing leaves blocked transfers blocked. -/
theorem resolveRetvalHandler_blocked (ans : RetvalAnswers) (s : Resource) {k : Sock}
    (h : ∀ addr, k.u.resolved.bind (·.sockaddr) = some addr → ans.stores k.kc addr = none)
    {write : Bool} (hb : k.u.Blocked write) :
    (resolveRetvalHandler ans s k).2.u.Blocked write := by
  unfold resolveRetvalHandler
  cases haddr : k.u.resolved.bind (·.sockaddr) with
  | none => exact hb
  | some addr =>
    have hstores := eventConnectPeer_stores ans k.r s
      { k.u.peer with sockaddr := some addr, data := some k.kc.id } k.kc k.cy
    dsimp only
    generalize eventConnectPeer ans k.r s
      { k.u.peer with sockaddr := some addr, data := some k.kc.id } k.kc k.cy = res at hstores
    obtain ⟨rc, peer, kc, cy⟩ := res
    rcases hstores with ⟨_, hfail, hconn, _⟩ | ⟨conn, hs, _⟩
    · have hfail : rc = .error ∨ rc = .busy ∨ rc = .declined := hfail
      have hconn : peer.connection = k.u.peer.connection := hconn
      dsimp only
      rw [if_pos hfail]
      refine ⟨?_, hb.2⟩
      change peer.connection.isSome = true
      rw [hconn]
      exact hb.1
    · rw [Option.getD_some, h addr haddr] at hs
      cases hs

theorem resolveHandler_blocked (ans : ResolveAnswers) (s : Resource) {k : Sock}
    (h : ans.stores k.kc k.u.resolved = none) {write : Bool} (hb : k.u.Blocked write) :
    (resolveHandler ans s k).u.Blocked write := by
  unfold resolveHandler
  split
  · exact hb
  · next hstate =>
    split
    · exact hb
    · next ur hur =>
      dsimp only
      split
      · exact hb
      · next htext =>
        refine resolveRetvalHandler_blocked ans.retval s (fun addr haddr => ?_) hb
        obtain rfl := Option.some.inj haddr
        change ans.retval.stores k.kc _ = none
        simpa [ResolveAnswers.stores, hur, not_not.mp hstate, by simpa using htext] using h

end NgxPhp
