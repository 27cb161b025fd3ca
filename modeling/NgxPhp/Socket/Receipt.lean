import NgxPhp.Socket.Frame

/-!
# What a receive has taken from the connection

Whether `c->recv` was called can be read off the record. The bytes it returned are
then in the variable of the script, and no buffer is kept. A receive that was given
nothing keeps a buffer, if at all, of the room it was called with.
-/

namespace NgxPhp

/-- The bytes that `c->recv` has written. -/
def RecvAnswer.bytes : RecvAnswer → Bytes
  | .data first rest => first :: rest
  | _ => []

/-- How often `c->recv` was called on connection `c`. -/
def recvsOn (as : List Act) (c : ConnId) : Nat := as.count (.recv c)

/-- What was taken from connection `c` between two records: the bytes of the answer, if
`c->recv` was called. -/
def RecvAnswer.taken (ans : RecvAnswer) (c : ConnId) (before after : List Act) : Bytes :=
  if recvsOn after c = recvsOn before c then [] else ans.bytes

/-- The room that the next `c->recv` is given. -/
def Upstream.room (u : Upstream) : Nat := u.buffer.getD u.bufferSize

/-- From `k` to `k'` the answer was at most once received from connection `c`. -/
structure Sock.Receipt (ans : RecvAnswer) (c : ConnId) (k k' : Sock) : Prop where
  recvText : k'.recvText = readBack k.recvText (ans.taken c k.cy.acts k'.cy.acts)
  buffer : ∀ room ∈ k'.u.buffer, room = k.u.room ∧ ans.taken c k.cy.acts k'.cy.acts = []

/-- From `k` to `k'` nothing was received. -/
structure Sock.NoRecv (k k' : Sock) : Prop where
  recvText : k'.recvText = k.recvText
  buffer : k'.u.buffer = k.u.buffer
  recvs : ∀ c, recvsOn k'.cy.acts c = recvsOn k.cy.acts c

/-! ## Records -/

/-- Without a call of `c->recv` nothing was taken. -/
theorem RecvAnswer.taken_of_eq (ans : RecvAnswer) {c : ConnId} {before after : List Act}
    (h : recvsOn after c = recvsOn before c) : ans.taken c before after = [] := if_pos h

/-- Between records with the same receives the same was taken. -/
theorem RecvAnswer.taken_congr (ans : RecvAnswer) {c : ConnId}
    {before before' after after' : List Act} (hb : recvsOn before' c = recvsOn before c)
    (ha : recvsOn after' c = recvsOn after c) :
    ans.taken c before' after' = ans.taken c before after := by
  rw [taken, taken, hb, ha]

/-- One call of `c->recv`. -/
theorem RecvAnswer.taken_recv (ans : RecvAnswer) (c : ConnId) (as : List Act) :
    ans.taken c as (.recv c :: as) = ans.bytes := by
  refine if_neg ?_
  simp [recvsOn]

/-- Other acts are no receives. -/
theorem recvsOn_cons_of_ne {a : Act} {c : ConnId} (h : a ≠ .recv c) (as : List Act) :
    recvsOn (a :: as) c = recvsOn as c := by
  simp [recvsOn, h]

namespace Sock

variable {k k' k'' : Sock} {ans : RecvAnswer} {c : ConnId}

theorem NoRecv.refl (k : Sock) : k.NoRecv k := ⟨rfl, rfl, fun _ => rfl⟩

/-- Functions that receive nothing may follow each other. -/
theorem NoRecv.trans (h : k.NoRecv k') (g : k'.NoRecv k'') : k.NoRecv k'' where
  recvText := g.recvText.trans h.recvText
  buffer := g.buffer.trans h.buffer
  recvs c := (g.recvs c).trans (h.recvs c)

/-- A step that records nothing. -/
theorem NoRecv.of_acts (hr : k'.recvText = k.recvText) (hb : k'.u.buffer = k.u.buffer)
    (ha : k'.cy.acts = k.cy.acts) : k.NoRecv k' := ⟨hr, hb, fun c => by rw [ha]⟩

/-- Where nothing was received the answer was received at most once. -/
theorem NoRecv.receipt (h : k.NoRecv k') (ans : RecvAnswer) (c : ConnId) :
    k.Receipt ans c k' where
  recvText := by
    rw [ans.taken_of_eq (h.recvs c)]
    exact h.recvText
  buffer room hroom := by
    rw [h.buffer, Option.mem_def] at hroom
    exact ⟨by rw [Upstream.room, hroom]; rfl, ans.taken_of_eq (h.recvs c)⟩

/-- Nothing more was received afterwards. -/
theorem Receipt.noRecv (h : k.Receipt ans c k') (g : k'.NoRecv k'') : k.Receipt ans c k'' := by
  have htaken : ans.taken c k.cy.acts k''.cy.acts = ans.taken c k.cy.acts k'.cy.acts :=
    ans.taken_congr rfl (g.recvs c)
  constructor
  · rw [htaken, g.recvText]
    exact h.recvText
  · rw [htaken, g.buffer]
    exact h.buffer

/-- Nothing was received before. -/
theorem NoRecv.receipt_trans (h : k.NoRecv k') (hs : k'.u.bufferSize = k.u.bufferSize)
    (g : k'.Receipt ans c k'') : k.Receipt ans c k'' := by
  have htaken : ans.taken c k'.cy.acts k''.cy.acts = ans.taken c k.cy.acts k''.cy.acts :=
    ans.taken_congr (h.recvs c) rfl
  have hroom : k'.u.room = k.u.room := by rw [Upstream.room, h.buffer, hs, Upstream.room]
  constructor
  · rw [← htaken, ← h.recvText]
    exact g.recvText
  · rw [← htaken, ← hroom]
    exact g.buffer

end Sock

/-! ## Receiving -/

/-- A receive that waits receives nothing. -/
theorem awaitRead_noRecv (ans : RecvAnswers) (c : ConnId) (n : Int) (k : Sock) :
    k.NoRecv (awaitRead ans c n k).2 := by
  unfold awaitRead
  dsimp only
  split
  · exact .of_acts rfl rfl rfl
  · split
    · exact .of_acts rfl rfl rfl
    · exact .of_acts rfl rfl rfl

/-- After the call of `c->recv` its bytes are left in the variable and the buffer is dropped;
without bytes the buffer may stay. -/
theorem takeRecv_result (ans : RecvAnswers) (page : Bool) (c : ConnId) (k : Sock) :
    let res := (takeRecv ans page c k).2
    recvsOn res.cy.acts c = recvsOn k.cy.acts c ∧
    res.recvText = readBack k.recvText ans.recv.bytes ∧
    (res.u.buffer = none ∨ res.u.buffer = k.u.buffer ∧ ans.recv.bytes = []) := by
  unfold takeRecv
  have hset : k.NoRecv (if page then { k with codeValue := some ans.recv.toInt } else k) := by
    split
    · exact .of_acts rfl rfl rfl
    · exact .refl k
  generalize (if page then { k with codeValue := some ans.recv.toInt } else k) = k₁ at hset ⊢
  dsimp only
  cases ans.recv with
  | error => exact ⟨hset.recvs c, hset.recvText, Or.inr ⟨hset.buffer, rfl⟩⟩
  | data first rest =>
    dsimp only
    split
    · have h := awaitRead_noRecv ans c (RecvAnswer.data first rest).toInt
        { k₁ with u := { k₁.u with buffer := none }, recvText := first :: rest }
      exact ⟨(h.recvs c).trans (hset.recvs c), h.recvText, Or.inl h.buffer⟩
    · exact ⟨hset.recvs c, rfl, Or.inl rfl⟩
  | again =>
    have h := hset.trans (awaitRead_noRecv ans c Rc.again.toInt k₁)
    exact ⟨h.recvs c, h.recvText, Or.inr ⟨h.buffer, rfl⟩⟩
  | eof =>
    have h := awaitRead_noRecv ans c 0 (k₁.onUpstream fun u => { u with buffer := none })
    exact ⟨(h.recvs c).trans (hset.recvs c), h.recvText.trans hset.recvText, Or.inl h.buffer⟩

/-- `ngx_http_php_socket_upstream_recv` receives its answer at most once. -/
theorem upstreamRecv_receipt (ans : RecvAnswers) {k : Sock} {c : ConnId}
    (hc : k.u.peer.connection = some c) : k.Receipt ans.recv c (upstreamRecv ans k).2 := by
  rw [upstreamRecv, hc]
  dsimp only
  generalize hroom : k.u.buffer.getD k.u.bufferSize = room
  have hwait : ∀ n b, (∀ m ∈ b, m = k.u.room) →
      k.Receipt ans.recv c
        (awaitRead ans c n (k.onUpstream fun u => { u with buffer := b })).2 := by
    intro n b hb
    have h := awaitRead_noRecv ans c n (k.onUpstream fun u => { u with buffer := b })
    have htaken := ans.recv.taken_of_eq (h.recvs c)
    constructor
    · rw [show ans.recv.taken c k.cy.acts _ = [] from htaken]
      exact h.recvText
    · intro m hm
      rw [h.buffer] at hm
      exact ⟨hb m hm, htaken⟩
  split
  · exact hwait 0 none (by simp)
  · split
    · exact hwait _ (some room) (by simp [Upstream.room, hroom])
    · have htake : ∀ page, k.Receipt ans.recv c (takeRecv ans page c
          ((k.onUpstream fun u => { u with buffer := some room }).onCycle
            (·.recv c ans.ready))).2 := by
        intro page
        obtain ⟨hrecvs, hbuf, hkeep⟩ := takeRecv_result ans page c
          ((k.onUpstream fun u => { u with buffer := some room }).onCycle (·.recv c ans.ready))
        have htaken : ans.recv.taken c k.cy.acts _ = ans.recv.bytes :=
          (ans.recv.taken_congr rfl hrecvs).trans (ans.recv.taken_recv c k.cy.acts)
        constructor
        · rw [htaken]
          exact hbuf
        · intro m hm
          rw [htaken]
          rcases hkeep with hnone | ⟨hsome, hempty⟩
          · rw [hnone] at hm
            cases hm
          · rw [hsome] at hm
            obtain rfl : room = m := Option.some.inj hm
            exact ⟨hroom.symm, hempty⟩
      exact htake _

/-- A receive that is awaited receives nothing. -/
theorem Sock.NoRecv.awaitRecv (k : Sock) : k.NoRecv k.awaitRecv := .of_acts rfl rfl rfl

/-- What follows a receive receives nothing more. -/
theorem Sock.AfterRecv.receipt {k k₁ k₂ : Sock} {recv : RecvAnswer} {c d : ConnId}
    (h : k₁.AfterRecv d k₂) (hrecv : k.Receipt recv c k₁) : k.Receipt recv c k₂ := by
  cases h with
  | failed => exact hrecv
  | enabled => exact hrecv.noRecv (.of_acts rfl rfl rfl)
  | registered => exact hrecv.noRecv (.of_acts rfl rfl rfl)
  | again => exact hrecv.noRecv (.awaitRecv k₁)

/-- A receive of the script receives its answer at most once. -/
theorem Sock.RecvLeaves.receipt {k k' : Sock} {ans : RecvAnswers} {c : ConnId}
    (h : k.RecvLeaves ans k') (hc : k.u.peer.connection = some c) : k.Receipt ans.recv c k' := by
  rcases h with rfl | ⟨d, -, h⟩
  · exact (Sock.NoRecv.refl k').receipt _ c
  · exact h.receipt (upstreamRecv_receipt ans hc)

/-! ## Everything else -/

/-- The loop of `c->send` receives nothing. -/
theorem sendLoop_recvs (c d : ConnId) (answers : List SendAnswer) (b : Bytes) (cy : Cycle) :
    recvsOn (sendLoop c answers b cy).2.2.acts d = recvsOn cy.acts d := by
  have hsend : ∀ b n (cy : Cycle),
      recvsOn (cy.record (.send c b n)).acts d = recvsOn cy.acts d :=
    fun b n cy => recvsOn_cons_of_ne (by simp) cy.acts
  induction answers generalizing b cy with
  | nil => exact hsend b 0 cy
  | cons a answers ih =>
    cases a with
    | again => exact hsend b 0 cy
    | error => exact hsend b 0 cy
    | accepted n =>
      simp only [sendLoop]
      split
      · exact hsend _ _ cy
      · exact (ih _ _).trans (hsend _ _ cy)

/-- `ngx_http_php_socket_upstream_send` receives nothing. -/
theorem upstreamSend_noRecv (ans : SendAnswers) (k : Sock) : k.NoRecv (upstreamSend ans k).2 := by
  unfold upstreamSend
  split
  · next c bytes hc hb =>
    have hloop := fun d => sendLoop_recvs c d ans.sends bytes k.cy
    generalize sendLoop c ans.sends bytes k.cy = res at hloop
    obtain ⟨rc, rest, cy⟩ := res
    cases rc with
    | ok => dsimp only; split <;> exact ⟨rfl, rfl, hloop⟩
    | error => exact ⟨rfl, rfl, hloop⟩
    | _ => dsimp only; split <;> exact ⟨rfl, rfl, hloop⟩
  · exact .refl k

/-- `ngx_http_php_socket_send` receives nothing. -/
theorem socketSend_noRecv (ans : SendAnswers) (k : Sock) : k.NoRecv (socketSend ans k).2 := by
  unfold socketSend
  split
  · exact .refl k
  · have hset : k.NoRecv (k.onUpstream fun u => { u with enabledReceive := false }) :=
      .of_acts rfl rfl rfl
    dsimp only
    split
    · exact hset
    · exact hset.trans (upstreamSend_noRecv ans _)

/-- The event has the receive handler run, its timer has not expired, and a buffer is kept. -/
def Sock.WillRecv (k : Sock) (write : Bool) : Prop :=
  k.u.eventHandler write = .recv ∧ k.u.buffer.isSome = true ∧
    ∀ c ∈ k.u.peer.connection, (k.cy.connections c).read.timedout = false

instance Sock.decidableWillRecv (k : Sock) (write : Bool) : Decidable (k.WillRecv write) :=
  inferInstanceAs (Decidable (_ ∧ _ ∧ _))

/-- An event receives at most once, and only into a buffer that is kept. -/
theorem handleEvent_receipt (write : Bool) (ans : HandlerAnswers) {k : Sock} {c : ConnId}
    (hc : k.u.peer.connection = some c) :
    k.Receipt ans.recv.recv c (k.handleEvent write ans) ∧
      (¬ k.WillRecv write → k.NoRecv (k.handleEvent write ans)) := by
  have hidle : ∀ {k'}, k.NoRecv k' →
      k.Receipt ans.recv.recv c k' ∧ (¬ k.WillRecv write → k.NoRecv k') :=
    fun h => ⟨h.receipt _ c, fun _ => h⟩
  unfold Sock.handleEvent Sock.runHandler
  split
  · exact hidle (.refl k)
  · exact hidle (.refl k)
  · refine hidle ?_
    rw [connectedHandler, hc]
    exact .of_acts rfl rfl rfl
  · refine hidle ?_
    rw [sendHandler, hc]
    dsimp only
    split
    · exact .refl k
    · split
      · exact upstreamSend_noRecv _ k
      · exact .refl k
  · next hrecv =>
    rw [upstreamRecvHandler, hc]
    dsimp only
    split
    · exact hidle (.refl k)
    · next htimer =>
      have hset : k.NoRecv ((k.onUpstream fun u => { u with enabledReceive := true }).onCycle
          (·.delReadTimer c)) := .of_acts rfl rfl rfl
      split
      · next hkept =>
        refine ⟨hset.receipt_trans rfl (upstreamRecv_receipt ans.recv hc), fun hno => ?_⟩
        refine absurd ⟨hrecv, hkept, ?_⟩ hno
        intro d hd
        obtain rfl : c = d := Option.some.inj (hc.symm.trans hd)
        simpa using htimer
      · exact hidle hset

end NgxPhp
