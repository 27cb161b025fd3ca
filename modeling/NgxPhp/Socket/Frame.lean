import NgxPhp.Lib.Ledger
import NgxPhp.Socket.Transfer

/-!
# What sending and receiving leave alone

Transfers and the handlers of connection events work on timers, flags and
buffers. They keep the peer, the pool and every connection's descriptor,
handlers and owner record, and they record nothing but transfers on the current
connection.
-/

namespace NgxPhp

/-- A send or a receive on connection `c`. -/
def Act.IsTransferOn (a : Act) (c : ConnId) : Prop :=
  (∃ b n, a = .send c b n) ∨ a = .recv c

/-- From `cy` to `cy'` there were only transfers on `c`. -/
structure Cycle.Quiet (cy cy' : Cycle) (c : ConnId) : Prop where
  same : ∀ d, (cy.connections d).SameUse (cy'.connections d)
  acts : ∃ new, cy'.acts = new ++ cy.acts ∧ ∀ a ∈ new, a.IsTransferOn c

/-- Transfers do not change owners. -/
theorem Act.IsTransferOn.owner_cons {a : Act} {c : ConnId} (h : a.IsTransferOn c)
    (as : List Act) (d : ConnId) : owner (a :: as) d = owner as d := by
  rcases h with ⟨b, n, rfl⟩ | rfl <;> rfl

/-- Transfers do not change who owns a connection. -/
theorem owner_append_transfers {new as : List Act} {c : ConnId}
    (h : ∀ a ∈ new, a.IsTransferOn c) (d : ConnId) : owner (new ++ as) d = owner as d :=
  Ledger.apply_append (f := fun as => owner as d) (fun _ ha as => ha.owner_cons as d) h as

/-- Transfers open nothing. -/
theorem opened_append_transfers {new as : List Act} {c : ConnId}
    (h : ∀ a ∈ new, a.IsTransferOn c) (r : ReqId) (s : Resource) :
    opened (new ++ as) r s = opened as r s := by
  refine Ledger.apply_append (f := fun as => opened as r s) (fun a ha as => ?_) h as
  rcases ha with ⟨b, n, rfl⟩ | rfl <;> rfl

namespace Cycle.Quiet

variable {cy cy' cy'' : Cycle} {c : ConnId}

/-- Nothing is a transfer, too. -/
theorem refl (cy : Cycle) (c : ConnId) : cy.Quiet cy c :=
  ⟨fun _ => .refl _, [], rfl, by simp⟩

/-- Transfers that follow each other are transfers. -/
theorem trans (h : cy.Quiet cy' c) (g : cy'.Quiet cy'' c) : cy.Quiet cy'' c where
  same d := (h.same d).trans (g.same d)
  acts := by
    obtain ⟨new, hnew, ht⟩ := h.acts
    obtain ⟨new', hnew', ht'⟩ := g.acts
    refine ⟨new' ++ new, by rw [hnew', hnew, List.append_assoc], ?_⟩
    intro a ha
    rcases List.mem_append.mp ha with ha | ha
    · exact ht' a ha
    · exact ht a ha

/-- Registering an event or arming a timer. -/
theorem of_sameUse (hs : ∀ d, (cy.connections d).SameUse (cy'.connections d))
    (ha : cy'.acts = cy.acts) : cy.Quiet cy' c :=
  ⟨hs, [], by simp [ha], by simp⟩

/-- A cycle with transfers only has the same owners. -/
theorem owner_eq (h : cy.Quiet cy' c) (d : ConnId) : owner cy'.acts d = owner cy.acts d := by
  obtain ⟨new, hnew, ht⟩ := h.acts
  rw [hnew]
  exact owner_append_transfers ht d

/-- A cycle with transfers only has the same connections opened. -/
theorem opened_eq (h : cy.Quiet cy' c) (r : ReqId) (s : Resource) :
    opened cy'.acts r s = opened cy.acts r s := by
  obtain ⟨new, hnew, ht⟩ := h.acts
  rw [hnew]
  exact opened_append_transfers ht r s

end Cycle.Quiet

/-- A transfer is recorded. -/
theorem Cycle.quiet_record (cy : Cycle) {a : Act} {c : ConnId} (h : a.IsTransferOn c) :
    cy.Quiet (cy.record a) c :=
  ⟨fun _ => .refl _, [a], rfl, by simpa using h⟩

/-- A socket function that only transfers on the current connection, if there is one. -/
structure Sock.Quiet (k k' : Sock) : Prop where
  r : k'.r = k.r
  kc : k'.kc = k.kc
  peer : k'.u.peer = k.u.peer
  holds : k'.u.holds = k.u.holds
  cycle : match k.u.peer.connection with
    | some c => k.cy.Quiet k'.cy c
    | none => k'.cy = k.cy

namespace Sock.Quiet

variable {k k' k'' : Sock}

/-- A socket that is left alone is quiet. -/
theorem refl (k : Sock) : k.Quiet k where
  r := rfl
  kc := rfl
  peer := rfl
  holds := rfl
  cycle := by
    split
    · exact .refl _ _
    · rfl

/-- Quiet functions may follow each other. -/
theorem trans (h : k.Quiet k') (g : k'.Quiet k'') : k.Quiet k'' where
  r := g.r.trans h.r
  kc := g.kc.trans h.kc
  peer := g.peer.trans h.peer
  holds := g.holds.trans h.holds
  cycle := by
    have hg := g.cycle
    have hh := h.cycle
    rw [h.peer] at hg
    cases hc : k.u.peer.connection with
    | none =>
      simp only [hc] at hg hh
      exact hg.trans hh
    | some c =>
      simp only [hc] at hg hh
      exact hh.trans hg

/-- A step that changes nothing but fields of the upstream and of the ctx. -/
theorem of_cy (hr : k'.r = k.r) (hkc : k'.kc = k.kc) (hp : k'.u.peer = k.u.peer)
    (hh : k'.u.holds = k.u.holds) (hcy : k'.cy = k.cy) : k.Quiet k' where
  r := hr
  kc := hkc
  peer := hp
  holds := hh
  cycle := by
    split
    · rw [hcy]
      exact .refl _ _
    · exact hcy

/-- A step on the current connection. -/
theorem of_conn {c : ConnId} (hc : k.u.peer.connection = some c) (hr : k'.r = k.r)
    (hkc : k'.kc = k.kc) (hp : k'.u.peer = k.u.peer) (hh : k'.u.holds = k.u.holds)
    (hcy : k.cy.Quiet k'.cy c) : k.Quiet k' where
  r := hr
  kc := hkc
  peer := hp
  holds := hh
  cycle := by
    simp only [hc]
    exact hcy

/-- A change of the upstream that leaves its peer alone is quiet. -/
theorem onUpstream (k : Sock) {f : Upstream → Upstream} (hp : (f k.u).peer = k.u.peer)
    (hh : (f k.u).holds = k.u.holds) : k.Quiet (k.onUpstream f) :=
  .of_cy rfl rfl hp hh rfl

end Sock.Quiet

/-- The loop of `c->send` makes transfers only. -/
theorem sendLoop_quiet (c : ConnId) (answers : List SendAnswer) (b : Bytes) (cy : Cycle) :
    cy.Quiet (sendLoop c answers b cy).2.2 c := by
  have hsend : ∀ (cy : Cycle) b n, cy.Quiet (cy.record (.send c b n)) c :=
    fun cy b n => cy.quiet_record (Or.inl ⟨b, n, rfl⟩)
  induction answers generalizing b cy with
  | nil => exact hsend cy b 0
  | cons a answers ih =>
    cases a with
    | again => exact hsend cy b 0
    | error => exact hsend cy b 0
    | accepted n =>
      simp only [sendLoop]
      split
      · exact hsend _ _ _
      · exact (hsend _ _ _).trans (ih _ _)

/-- `ngx_http_php_socket_upstream_send` makes transfers only. -/
theorem upstreamSend_quiet (ans : SendAnswers) (k : Sock) : k.Quiet (upstreamSend ans k).2 := by
  unfold upstreamSend
  split
  · next c bytes hc hb =>
    have hloop := sendLoop_quiet c ans.sends bytes k.cy
    have hdel : ∀ cy : Cycle, cy.Quiet (cy.delWriteTimer c) c :=
      fun cy => .of_sameUse (cy.delWriteTimer_sameUse c) rfl
    have hadd : ∀ (cy : Cycle) n, cy.Quiet (cy.addWriteTimer c n) c :=
      fun cy n => .of_sameUse (fun d => cy.addWriteTimer_sameUse c d n) rfl
    have hwrite : ∀ cy : Cycle, cy.Quiet (cy.handleWriteEvent c) c :=
      fun cy => .of_sameUse (cy.handleWriteEvent_sameUse c) rfl
    split
    · next he =>
      rw [he] at hloop
      split
      · exact .of_conn hc rfl rfl rfl rfl (hloop.trans (hdel _))
      · exact .of_conn hc rfl rfl rfl rfl ((hloop.trans (hdel _)).trans (hwrite _))
    · next he =>
      rw [he] at hloop
      exact .of_conn hc rfl rfl rfl rfl hloop
    · next he =>
      rw [he] at hloop
      split
      · exact .of_conn hc rfl rfl rfl rfl (hloop.trans (hadd _ _))
      · exact .of_conn hc rfl rfl rfl rfl ((hloop.trans (hadd _ _)).trans (hwrite _))
  · exact .refl k

/-- The handler of a write event makes transfers only. -/
theorem sendHandler_quiet (ans : SendAnswers) (k : Sock) : k.Quiet (sendHandler ans k) := by
  unfold sendHandler
  split
  · exact .refl k
  · split
    · exact .refl k
    · split
      · exact upstreamSend_quiet ans k
      · exact .refl k

/-- A receive that waits makes no transfer. -/
theorem awaitRead_quiet (ans : RecvAnswers) {c : ConnId} (n : Int) {k : Sock}
    (hc : k.u.peer.connection = some c) : k.Quiet (awaitRead ans c n k).2 := by
  have hread : k.cy.Quiet (k.cy.handleReadEvent c) c :=
    .of_sameUse (k.cy.handleReadEvent_sameUse c) rfl
  unfold awaitRead
  split
  · exact .of_cy rfl rfl rfl rfl rfl
  · dsimp only
    split
    · exact .of_conn hc rfl rfl rfl rfl (hread.trans
        (.of_sameUse (fun d => Cycle.addReadTimer_sameUse _ c d _) rfl))
    · exact .of_conn hc rfl rfl rfl rfl (hread.trans
        (.of_sameUse (Cycle.delReadTimer_sameUse _ c) rfl))

/-- `c->recv` is a transfer. -/
theorem Cycle.recv_quiet (cy : Cycle) (c : ConnId) (ready : Bool) :
    cy.Quiet (cy.recv c ready) c := by
  refine Cycle.Quiet.trans (.of_sameUse (cy.modify_sameUse ?_) rfl)
    (Cycle.quiet_record _ (Or.inr rfl))
  exact fun _ => ⟨rfl, rfl, rfl, rfl⟩

/-- A receive that takes what there is makes one transfer. -/
theorem takeRecv_quiet (ans : RecvAnswers) (page : Bool) {c : ConnId} {k : Sock}
    (hc : k.u.peer.connection = some c) : k.Quiet (takeRecv ans page c k).2 := by
  have hset : k.Quiet (if page then { k with codeValue := some ans.recv.toInt } else k) := by
    split
    · exact .of_cy rfl rfl rfl rfl rfl
    · exact .refl k
  unfold takeRecv
  generalize (if page then { k with codeValue := some ans.recv.toInt } else k) = k₁ at hset
  have hc₁ : k₁.u.peer.connection = some c := hset.peer ▸ hc
  dsimp only
  split
  · exact hset
  · split
    · refine (hset.trans ?_).trans (awaitRead_quiet ans _ ?_)
      · exact .of_cy rfl rfl rfl rfl rfl
      · exact hc₁
    · refine hset.trans ?_
      exact .of_cy rfl rfl rfl rfl rfl
  · exact hset.trans (awaitRead_quiet ans _ hc₁)
  · refine (hset.trans ?_).trans (awaitRead_quiet ans _ ?_)
    · exact .onUpstream k₁ rfl rfl
    · exact hc₁

/-- `ngx_http_php_socket_upstream_recv` makes transfers only. -/
theorem upstreamRecv_quiet (ans : RecvAnswers) (k : Sock) : k.Quiet (upstreamRecv ans k).2 := by
  unfold upstreamRecv
  split
  · exact .refl k
  · next c hc =>
    dsimp only
    split
    · refine Sock.Quiet.trans ?_ (awaitRead_quiet ans _ ?_)
      · exact .of_cy rfl rfl rfl rfl rfl
      · exact hc
    · split
      · refine Sock.Quiet.trans ?_ (awaitRead_quiet ans _ ?_)
        · exact .onUpstream k rfl rfl
        · exact hc
      · refine Sock.Quiet.trans ?_ (takeRecv_quiet ans _ ?_)
        · exact .of_conn hc rfl rfl rfl rfl (k.cy.recv_quiet c ans.ready)
        · exact hc

/-- The handler of a read event makes transfers only. -/
theorem upstreamRecvHandler_quiet (ans : RecvAnswers) (k : Sock) :
    k.Quiet (upstreamRecvHandler ans k) := by
  unfold upstreamRecvHandler
  split
  · exact .refl k
  · next c hc =>
    have hdel : k.Quiet ((k.onUpstream fun u => { u with enabledReceive := true }).onCycle
        (·.delReadTimer c)) :=
      .of_conn hc rfl rfl rfl rfl (.of_sameUse (k.cy.delReadTimer_sameUse c) rfl)
    split
    · exact .refl k
    · dsimp only
      split
      · exact hdel.trans (upstreamRecv_quiet ans _)
      · exact hdel

/-- The handler behind a connect makes no transfer. -/
theorem connectedHandler_quiet (k : Sock) : k.Quiet (connectedHandler k) := by
  unfold connectedHandler
  split
  · exact .refl k
  · next c hc =>
    exact .of_conn hc rfl rfl rfl rfl (.of_sameUse (k.cy.delWriteTimer_sameUse c) rfl)

/-- The handlers of connection events only transfer. -/
theorem handleEvent_quiet (k : Sock) (write : Bool) (ans : HandlerAnswers) :
    k.Quiet (k.handleEvent write ans) := by
  unfold Sock.handleEvent Sock.runHandler
  split
  · exact .refl k
  · exact .refl k
  · exact connectedHandler_quiet k
  · exact sendHandler_quiet _ k
  · exact upstreamRecvHandler_quiet _ k

/-- `ngx_http_php_socket_send` makes transfers only. -/
theorem socketSend_quiet (ans : SendAnswers) (k : Sock) : k.Quiet (socketSend ans k).2 := by
  unfold socketSend
  split
  · exact .refl k
  · have hset : k.Quiet (k.onUpstream fun u => { u with enabledReceive := false }) :=
      .of_cy rfl rfl rfl rfl rfl
    dsimp only
    split
    · exact hset
    · exact hset.trans (upstreamSend_quiet ans _)

/-- What a receive does behind `ngx_http_php_socket_upstream_recv` makes no transfer. -/
theorem Sock.AfterRecv.quiet {k k₁ k₂ : Sock} {c : ConnId} (h : k₁.AfterRecv c k₂)
    (hrecv : k.Quiet k₁) (hc : k.u.peer.connection = some c) : k.Quiet k₂ := by
  have hc₁ : k₁.u.peer.connection = some c := hrecv.peer ▸ hc
  cases h with
  | failed => exact hrecv
  | enabled => exact hrecv.trans (.of_cy rfl rfl rfl rfl rfl)
  | registered =>
    have hadd : k₁.cy.Quiet (k₁.cy.addReadEvent c) c :=
      .of_sameUse (k₁.cy.addReadEvent_sameUse c) rfl
    exact hrecv.trans (.of_conn hc₁ rfl rfl rfl rfl hadd)
  | again => exact hrecv.trans (.of_cy rfl rfl rfl rfl rfl)

/-- A receive of the script makes transfers only. -/
theorem Sock.RecvLeaves.quiet {k k' : Sock} {ans : RecvAnswers} (h : k.RecvLeaves ans k') :
    k.Quiet k' := by
  rcases h with rfl | ⟨c, hc, h⟩
  · exact .refl _
  · exact h.quiet (upstreamRecv_quiet ans k) hc

end NgxPhp
