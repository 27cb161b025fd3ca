import NgxPhp.Socket.Outcome

/-!
# What is waiting to be sent

Only the send functions touch `u->request_bufs` or offer bytes to a connection.
Everything else leaves the pending buffer as it is and does not install the
handler that would go on sending it.
-/

namespace NgxPhp

/-- From `k` to `k'` nothing was sent, at most received, and the pending buffer is the same. -/
structure Sock.NoSend (k k' : Sock) : Prop where
  requestBufs : k'.u.requestBufs = k.u.requestBufs
  sender : k'.u.sender = k.u.sender
  handler : ∀ write, k'.u.eventHandler write = k.u.eventHandler write ∨
    k'.u.eventHandler write ≠ .send
  acts : ∃ new, k'.cy.acts = new ++ k.cy.acts ∧ ∀ a ∈ new, ∃ c, a = .recv c

namespace Sock.NoSend

variable {k k' k'' : Sock}

theorem refl (k : Sock) : k.NoSend k := ⟨rfl, rfl, fun _ => Or.inl rfl, [], rfl, by simp⟩

/-- Functions that send nothing may follow each other. -/
theorem trans (h : k.NoSend k') (g : k'.NoSend k'') : k.NoSend k'' where
  requestBufs := g.requestBufs.trans h.requestBufs
  sender := g.sender.trans h.sender
  handler write := by
    rcases g.handler write with hg | hg
    · rw [hg]
      exact h.handler write
    · exact Or.inr hg
  acts := by
    obtain ⟨new, hnew, hs⟩ := h.acts
    obtain ⟨new', hnew', hs'⟩ := g.acts
    refine ⟨new' ++ new, by rw [hnew', hnew, List.append_assoc], ?_⟩
    intro a ha
    rcases List.mem_append.mp ha with ha | ha
    · exact hs' a ha
    · exact hs a ha

/-- A step that records nothing and keeps the handlers. -/
theorem of_acts (hb : k'.u.requestBufs = k.u.requestBufs) (hs : k'.u.sender = k.u.sender)
    (hh : ∀ write, k'.u.eventHandler write = k.u.eventHandler write)
    (ha : k'.cy.acts = k.cy.acts) : k.NoSend k' :=
  ⟨hb, hs, fun write => Or.inl (hh write), [], ha, by simp⟩

/-- A step that records one receive. -/
theorem of_recv {c : ConnId} (hb : k'.u.requestBufs = k.u.requestBufs)
    (hs : k'.u.sender = k.u.sender)
    (hh : ∀ write, k'.u.eventHandler write = k.u.eventHandler write)
    (ha : k'.cy.acts = .recv c :: k.cy.acts) : k.NoSend k' :=
  ⟨hb, hs, fun write => Or.inl (hh write), [.recv c], ha, by simp⟩

/-- A receive that is awaited sends nothing. -/
theorem awaitRecv (k : Sock) : k.NoSend k.awaitRecv := by
  refine ⟨rfl, rfl, fun write => ?_, [], rfl, by simp⟩
  cases write
  · exact Or.inr (by simp [Upstream.eventHandler, Sock.awaitRecv, Sock.onUpstream])
  · exact Or.inl rfl

end Sock.NoSend

/-! ## Receiving -/

/-- A receive that waits sends nothing. -/
theorem awaitRead_noSend (ans : RecvAnswers) (c : ConnId) (n : Int) (k : Sock) :
    k.NoSend (awaitRead ans c n k).2 := by
  unfold awaitRead
  dsimp only
  split
  · exact .of_acts rfl rfl (fun _ => rfl) rfl
  · split <;> exact .of_acts rfl rfl (fun _ => rfl) rfl

/-- A receive that takes what there is sends nothing. -/
theorem takeRecv_noSend (ans : RecvAnswers) (page : Bool) (c : ConnId) (k : Sock) :
    k.NoSend (takeRecv ans page c k).2 := by
  have hset : k.NoSend (if page then { k with codeValue := some ans.recv.toInt } else k) := by
    split
    · exact .of_acts rfl rfl (fun _ => rfl) rfl
    · exact .refl k
  unfold takeRecv
  generalize (if page then { k with codeValue := some ans.recv.toInt } else k) = k₁ at hset
  dsimp only
  split
  · exact hset
  · split
    · refine (hset.trans ?_).trans (awaitRead_noSend ans c _ _)
      exact .of_acts rfl rfl (fun _ => rfl) rfl
    · refine hset.trans ?_
      exact .of_acts rfl rfl (fun _ => rfl) rfl
  · exact hset.trans (awaitRead_noSend ans c _ _)
  · refine (hset.trans ?_).trans (awaitRead_noSend ans c _ _)
    exact .of_acts rfl rfl (fun _ => rfl) rfl

/-- `ngx_http_php_socket_upstream_recv` sends nothing. -/
theorem upstreamRecv_noSend (ans : RecvAnswers) (k : Sock) :
    k.NoSend (upstreamRecv ans k).2 := by
  unfold upstreamRecv
  split
  · exact .refl k
  · dsimp only
    split
    · refine Sock.NoSend.trans ?_ (awaitRead_noSend ans _ _ _)
      exact .of_acts rfl rfl (fun _ => rfl) rfl
    · split
      · refine Sock.NoSend.trans ?_ (awaitRead_noSend ans _ _ _)
        exact .of_acts rfl rfl (fun _ => rfl) rfl
      · refine Sock.NoSend.trans ?_ (takeRecv_noSend ans _ _ _)
        exact .of_recv rfl rfl (fun _ => rfl) rfl

/-- The handler of a read event sends nothing. -/
theorem upstreamRecvHandler_noSend (ans : RecvAnswers) (k : Sock) :
    k.NoSend (upstreamRecvHandler ans k) := by
  unfold upstreamRecvHandler
  split
  · exact .refl k
  · next c _ =>
    have hdel : k.NoSend ((k.onUpstream fun u => { u with enabledReceive := true }).onCycle
        (·.delReadTimer c)) := .of_acts rfl rfl (fun _ => rfl) rfl
    split
    · exact .refl k
    · dsimp only
      split
      · exact hdel.trans (upstreamRecv_noSend ans _)
      · exact hdel

/-- The handler behind a connect sends nothing. -/
theorem connectedHandler_noSend (k : Sock) : k.NoSend (connectedHandler k) := by
  unfold connectedHandler
  split
  · exact .refl k
  · refine ⟨rfl, rfl, fun write => Or.inr ?_, [], rfl, by simp⟩
    cases write <;> simp [Sock.onUpstream, Upstream.dummyHandlers, Upstream.eventHandler]

/-- Only one of the handlers sends. -/
theorem handleEvent_noSend (k : Sock) (write : Bool) (ans : HandlerAnswers)
    (h : k.u.eventHandler write ≠ .send) : k.NoSend (k.handleEvent write ans) := by
  unfold Sock.handleEvent Sock.runHandler
  split
  · exact .refl k
  · exact .refl k
  · exact connectedHandler_noSend k
  · next heq => exact absurd heq h
  · exact upstreamRecvHandler_noSend _ k

/-- What follows a receive sends nothing. -/
theorem Sock.AfterRecv.noSend {k k₁ k₂ : Sock} {c : ConnId} (h : k₁.AfterRecv c k₂)
    (hrecv : k.NoSend k₁) : k.NoSend k₂ := by
  cases h with
  | failed => exact hrecv
  | enabled =>
    refine (hrecv.trans ?_).trans (.awaitRecv _)
    exact .of_acts rfl rfl (fun _ => rfl) rfl
  | registered =>
    refine (hrecv.trans ?_).trans (.awaitRecv _)
    exact .of_acts rfl rfl (fun _ => rfl) rfl
  | again => exact hrecv.trans (.awaitRecv _)

/-- A receive of the script sends nothing. -/
theorem Sock.RecvLeaves.noSend {k k' : Sock} {ans : RecvAnswers} (h : k.RecvLeaves ans k') :
    k.NoSend k' := by
  rcases h with rfl | ⟨c, -, h⟩
  · exact .refl _
  · exact h.noSend (upstreamRecv_noSend ans k)

/-! ## Connecting and clearing -/

/-- The pending buffer is the same. -/
def Sock.SamePending (k k' : Sock) : Prop :=
  k'.u.requestBufs = k.u.requestBufs ∧ k'.u.sender = k.u.sender

/-- The pending buffer is the same by way of a third socket. -/
theorem Sock.SamePending.trans {k k' k'' : Sock} (h : k.SamePending k')
    (g : k'.SamePending k'') : k.SamePending k'' :=
  ⟨g.1.trans h.1, g.2.trans h.2⟩

/-- Where nothing is sent the pending buffer is the same. -/
theorem Sock.NoSend.samePending {k k' : Sock} (h : k.NoSend k') : k.SamePending k' :=
  ⟨h.requestBufs, h.sender⟩

/-- The connect to an address leaves the pending buffer alone. -/
theorem resolveRetvalHandler_samePending (ans : RetvalAnswers) (s : Resource) (k : Sock) :
    k.SamePending (resolveRetvalHandler ans s k).2 := by
  have hfinish : ∀ rc c (k₁ : Sock), k₁.SamePending (finishConnect ans rc c k₁).2 := by
    intro rc c k₁
    unfold finishConnect
    dsimp only
    repeat' split
    all_goals exact ⟨rfl, rfl⟩
  unfold resolveRetvalHandler
  split
  · exact ⟨rfl, rfl⟩
  · dsimp only
    split
    · exact ⟨rfl, rfl⟩
    · split
      · exact ⟨rfl, rfl⟩
      · exact hfinish _ _ _

/-- The resolver's answer leaves the pending buffer alone. -/
theorem resolveHandler_samePending (ans : ResolveAnswers) (s : Resource) (k : Sock) :
    k.SamePending (resolveHandler ans s k) := by
  unfold resolveHandler
  split
  · exact ⟨rfl, rfl⟩
  · split
    · exact ⟨rfl, rfl⟩
    · dsimp only
      split
      · exact ⟨rfl, rfl⟩
      · exact resolveRetvalHandler_samePending ans.retval s _

/-- A connect leaves the pending buffer alone. -/
theorem socketConnect_samePending (ans : ConnectAnswers) (s : Resource) (port : Nat) (k : Sock) :
    k.SamePending (socketConnect ans s port k).2 := by
  unfold socketConnect
  dsimp only
  split
  · exact ⟨rfl, rfl⟩
  · exact resolveRetvalHandler_samePending ans.retval s _
  · split
    · exact ⟨rfl, rfl⟩
    · exact ⟨rfl, rfl⟩
    · split
      · exact ⟨rfl, rfl⟩
      · exact ⟨rfl, rfl⟩
      · exact resolveHandler_samePending _ s _

/-- Finalizing leaves the pending buffer alone. -/
theorem socketFinalize_samePending (readEvent : Rc) (k : Sock) :
    k.SamePending (socketFinalize readEvent k) := by
  have hcancel : k.SamePending (k.onUpstream (·.cancelQuery)) := by
    unfold Sock.onUpstream Upstream.cancelQuery
    dsimp only
    split
    · exact ⟨rfl, rfl⟩
    · split <;> exact ⟨rfl, rfl⟩
  have hfree : ∀ k₁ : Sock, k₁.SamePending (k₁.freePeer readEvent) := by
    intro k₁
    unfold Sock.freePeer
    split <;> exact ⟨rfl, rfl⟩
  have hclose : ∀ k₁ : Sock, k₁.SamePending k₁.closeConnection := by
    intro k₁
    unfold Sock.closeConnection
    split <;> exact ⟨rfl, rfl⟩
  refine (hcancel.trans (hfree _)).trans (Sock.SamePending.trans ?_ (hclose _))
  exact ⟨rfl, rfl⟩

/-- A clear leaves the pending buffer alone. -/
theorem socketClear_samePending (readEvent : Rc) (k : Sock) :
    k.SamePending (socketClear readEvent k) := by
  unfold socketClear
  split
  · exact ⟨rfl, rfl⟩
  · exact socketFinalize_samePending readEvent _

end NgxPhp
