import NgxPhp.Lib.Delivery
import NgxPhp.Lib.Machine
import NgxPhp.Request.Connect
import NgxPhp.Request.Pending

/-!
# The stream of a connected socket

A send that blocks leaves the rest of its buffer in `u->request_bufs` and returns
to the script, which every event of the connection resumes. Buffers go out one
after another as long as no send comes before the pending buffer is empty.
-/

namespace NgxPhp

open StepMachine

/-- What was offered to `c->send` since connection `c` was handed out, the latest first. -/
def offersOn : List Act → ConnId → List (Bytes × Nat)
  | [], _ => []
  | .get _ _ d :: as, c => if d = c then [] else offersOn as c
  | .take _ _ d :: as, c => if d = c then [] else offersOn as c
  | .send d b n :: as, c => if d = c then (b, n) :: offersOn as c else offersOn as c
  | _ :: as, c => offersOn as c

/-- A request with a connected socket, and what its script has given to it. -/
structure Stream where
  session : Session
  conn : ConnId
  submitted : List Bytes := []
  /-- A send has failed or timed out. -/
  ended : Bool := false

inductive StreamStep
  /-- The script calls a library function, but does not close the socket or connect again. -/
  | call (c : Call)
  /-- A connection of the request has an event; what the resumed script does follows. -/
  | event (d : ConnId) (write : Bool) (how : Wake) (ans : HandlerAnswers)
  /-- Other requests have run, none of which has sent on the connection. -/
  | others (kc : KeepaliveConf) (cy : Cycle)

/-- The buffers that a call adds to the stream. -/
def Call.buffers : Call → List Bytes
  | .send _ buf len _ => if len < 0 then [] else [buf]
  | _ => []

/-- An event that runs the send handler finds the write timer expired, or the send fails. -/
def Sock.sendEnds (k : Sock) (write : Bool) (ans : HandlerAnswers) : Bool :=
  k.u.eventHandler write = .send &&
    (k.u.peer.connection.any (fun c => (k.cy.connections c).write.timedout) ||
      (upstreamSend ans.send k).1 = .error)

/-- One step of the request; steps that cannot be taken change nothing. -/
def Stream.step (s : Stream) : StreamStep → Stream
  | .call c =>
    if c.replaces then s
    else
      match s.session.call c with
      | some (v, k) => { s with
          session := k
          submitted := s.submitted ++ c.buffers
          ended := s.ended || (c.sends && v = .int Rc.error.toInt) }
      | none => s
  | .event d write how ans =>
    if s.session.cy.EventOf s.session.r d write how then
      let k := { s.session with cy := s.session.cy.wake d write how }
      { s with
        session := k.onSock fun t => t.handleEvent write ans
        ended := s.ended || k.view.sendEnds write ans }
    else s
  | .others kc cy =>
    if offersOn cy.acts s.conn = offersOn s.session.cy.acts s.conn then
      { s with session := { s.session with kc, cy } }
    else s

/-- Every send finds nothing left of the buffer before it. -/
def Stream.Calm (s : Stream) : StreamStep → Prop
  | .call c => c.sends = true →
      s.ended = true ∨ s.submitted = [] ∨ s.session.view.u.requestBufs.getD [] = []
  | _ => True

instance Stream.decidableCalm (s : Stream) (l : StreamStep) : Decidable (s.Calm l) := by
  cases l <;> unfold Stream.Calm <;> infer_instance

/-- The bytes accepted so far are a prefix of the buffers, and no byte of a buffer was
offered before the buffers ahead of it were accepted. -/
def Stream.Delivers (s : Stream) : Prop :=
  s.ended = true ∨ Delivery.Delivered s.submitted (offersOn s.session.cy.acts s.conn)

/-- Connection `c` is the current one, and nothing was sent on it. -/
structure Sock.Started (k : Sock) (c : ConnId) : Prop where
  connection : k.u.peer.connection = some c
  offers : offersOn k.cy.acts c = []
  handler : ∀ write, k.u.eventHandler write ≠ .send

/-- The pending buffer is what is left of the buffers. -/
structure Sock.InFlight (k : Sock) (c : ConnId) (bs : List Bytes) : Prop where
  connection : k.u.peer.connection = some c
  inOrder : Delivery.InOrder bs (offersOn k.cy.acts c)
  pending : match k.u.requestBufs with
    | some rest => Delivery.Sending bs (offersOn k.cy.acts c) rest
    | none => Delivery.accepted (offersOn k.cy.acts c) = bs.flatten

/-- The invariant of a stream whose sends come one after another. -/
inductive Stream.Inv (s : Stream) : Prop
  | ended (h : s.ended = true)
  | started (hb : s.submitted = []) (h : s.session.view.Started s.conn)
  | inFlight (h : s.session.view.InFlight s.conn s.submitted)

/-! ## Offers -/

/-- Receives offer nothing. -/
theorem offersOn_append_recvs {new as : List Act} (h : ∀ a ∈ new, ∃ d, a = .recv d)
    (c : ConnId) : offersOn (new ++ as) c = offersOn as c := by
  refine Ledger.apply_append (f := fun as => offersOn as c) (fun a ha as => ?_) h as
  obtain ⟨d, rfl⟩ := ha
  rfl

theorem Sock.NoSend.offersOn_eq {k k' : Sock} (h : k.NoSend k') (c : ConnId) :
    offersOn k'.cy.acts c = offersOn k.cy.acts c := by
  obtain ⟨new, hnew, hrecv⟩ := h.acts
  rw [hnew]
  exact offersOn_append_recvs hrecv c

/-- The loop offers the rest of the buffer until nothing is left or the peer blocks. -/
theorem sendLoop_sending {bs : List Bytes} {c : ConnId} (answers : List SendAnswer) {b : Bytes}
    {cy : Cycle} (h : Delivery.Sending bs (offersOn cy.acts c) b)
    (ho : Delivery.InOrder bs (offersOn cy.acts c)) :
    let res := sendLoop c answers b cy
    Delivery.Sending bs (offersOn res.2.2.acts c) res.2.1 ∧
      Delivery.InOrder bs (offersOn res.2.2.acts c) ∧ (res.1 = .ok → res.2.1 = []) := by
  have hoffer : ∀ n (b : Bytes) (cy : Cycle), Delivery.Sending bs (offersOn cy.acts c) b →
      Delivery.InOrder bs (offersOn cy.acts c) →
      Delivery.Sending bs (offersOn (cy.record (.send c b n)).acts c) (b.drop n) ∧
        Delivery.InOrder bs (offersOn (cy.record (.send c b n)).acts c) := by
    intro n b cy h ho
    simpa [offersOn] using h.offer ho n
  induction answers generalizing b cy with
  | nil => exact ⟨(hoffer 0 b cy h ho).1, (hoffer 0 b cy h ho).2, by simp [sendLoop]⟩
  | cons a answers ih =>
    cases a with
    | again => exact ⟨(hoffer 0 b cy h ho).1, (hoffer 0 b cy h ho).2, by simp [sendLoop]⟩
    | error => exact ⟨(hoffer 0 b cy h ho).1, (hoffer 0 b cy h ho).2, by simp [sendLoop]⟩
    | accepted n =>
      have hdrop : b.drop (min n b.length) = b.drop n := by
        rcases Nat.le_total n b.length with hn | hn
        · rw [Nat.min_eq_left hn]
        · rw [Nat.min_eq_right hn, List.drop_length, List.drop_of_length_le hn]
      obtain ⟨hs, hi⟩ := hoffer (min n b.length) b cy h ho
      rw [hdrop] at hs
      simp only [sendLoop]
      split
      · next hempty =>
        rw [hempty] at hs
        exact ⟨hs, hi, fun _ => rfl⟩
      · exact ih hs hi

/-- A send of the pending buffer keeps the rest of it pending. -/
theorem upstreamSend_inFlight {bs : List Bytes} {c : ConnId} {k : Sock} (ans : SendAnswers)
    (h : k.InFlight c bs) : (upstreamSend ans k).2.InFlight c bs := by
  unfold upstreamSend
  split
  · next d bytes hd hb =>
    obtain rfl : d = c := Option.some.inj (hd.symm.trans h.connection)
    have hp := h.pending
    rw [hb] at hp
    obtain ⟨hs, hi, hok⟩ := sendLoop_sending ans.sends hp h.inOrder
    generalize sendLoop d ans.sends bytes k.cy = res at hs hi hok
    obtain ⟨rc, rest, cy⟩ := res
    dsimp only at hs hi hok
    split
    · next heq =>
      obtain ⟨rfl, rfl, rfl⟩ : rc = .ok ∧ _ = rest ∧ _ = cy := by simpa [eq_comm] using heq
      obtain rfl := hok rfl
      split <;> exact ⟨h.connection, hi, hs.done⟩
    · next heq =>
      obtain ⟨rfl, rfl, rfl⟩ : rc = .error ∧ _ = rest ∧ _ = cy := by simpa [eq_comm] using heq
      exact ⟨h.connection, hi, hs⟩
    · next heq =>
      obtain ⟨rfl, rfl, rfl⟩ : _ = rc ∧ _ = rest ∧ _ = cy := by simpa [eq_comm] using heq
      split <;> exact ⟨h.connection, hi, hs⟩
  · exact h

/-! ## Steps -/

/-- What sends nothing leaves a fresh connection fresh. -/
theorem Sock.Started.noSend {k k' : Sock} {c : ConnId} (h : k.Started c) (hq : k.Quiet k')
    (hn : k.NoSend k') : k'.Started c where
  connection := by rw [hq.peer, h.connection]
  offers := by rw [hn.offersOn_eq, h.offers]
  handler write := by
    rcases hn.handler write with hh | hh
    · rw [hh]
      exact h.handler write
    · exact hh

/-- What sends nothing leaves the pending buffer pending. -/
theorem Sock.InFlight.noSend {k k' : Sock} {c : ConnId} {bs : List Bytes} (h : k.InFlight c bs)
    (hq : k.Quiet k') (hn : k.NoSend k') : k'.InFlight c bs where
  connection := by rw [hq.peer, h.connection]
  inOrder := by
    rw [hn.offersOn_eq]
    exact h.inOrder
  pending := by
    rw [hn.offersOn_eq, hn.requestBufs]
    exact h.pending

/-- The sending of buffer `buf` starts when all buffers before it have been accepted. -/
theorem Session.send_inFlight {k k' : Session} {c : ConnId} {bs : List Bytes} {s : Resource}
    {buf : Bytes} {len : Int} {ans : SendAnswers} {v : PhpValue} (hlen : ¬ len < 0)
    (hres : ngxSocketSend s buf len ans k = some (v, k'))
    (hconn : k.view.u.peer.connection = some c)
    (hi : Delivery.InOrder bs (offersOn k.cy.acts c))
    (hacc : Delivery.accepted (offersOn k.cy.acts c) = bs.flatten) :
    k'.view.InFlight c (bs ++ [buf]) := by
  rw [ngxSocketSend, if_neg hlen] at hres
  obtain ⟨u, hu, hres⟩ := Option.map_eq_some_iff.mp hres
  obtain ⟨rfl, rfl⟩ := Prod.mk.inj hres
  rw [view_of_upstream hu] at hconn
  have hset : ∀ b, Sock.InFlight (k.sock { u with
      requestBufs := some buf, sender := some s, enabledReceive := b }) c (bs ++ [buf]) := fun b =>
    ⟨hconn, hi.mono (List.prefix_append _ _), Delivery.Sending.next hacc buf⟩
  have hsend : (socketSend ans (k.sock { u with
      requestBufs := some buf, sender := some s })).2.InFlight c (bs ++ [buf]) := by
    unfold socketSend
    split
    · exact hset u.enabledReceive
    · dsimp only
      split
      · exact hset false
      · exact upstreamSend_inFlight ans (hset false)
  exact ⟨hsend.connection, hsend.inOrder, hsend.pending⟩

/-- An event goes on sending what is pending. -/
theorem Session.event_inFlight {k : Session} {c : ConnId} {bs : List Bytes} (write : Bool)
    (ans : HandlerAnswers) (h : k.view.InFlight c bs) :
    (k.onSock fun t => t.handleEvent write ans).view.InFlight c bs := by
  by_cases hsend : k.view.u.eventHandler write = .send
  · unfold onSock
    split
    · exact h
    · next u hu =>
      rw [view_of_upstream hu] at h hsend
      have hhandled : ((k.sock u).handleEvent write ans).InFlight c bs := by
        rw [Sock.handleEvent, hsend, Sock.runHandler, sendHandler]
        split
        · exact h
        · split
          · exact h
          · split
            · exact upstreamSend_inFlight ans.send h
            · exact h
      exact ⟨hhandled.connection, hhandled.inOrder, hhandled.pending⟩
  · exact h.noSend (k.handleEvent_quiet write ans) (k.handleEvent_noSend write ans hsend)

/-- Nothing is left to be sent. -/
theorem Sock.InFlight.accepted {k : Sock} {c : ConnId} {bs : List Bytes} (h : k.InFlight c bs)
    (hleft : bs = [] ∨ k.u.requestBufs.getD [] = []) :
    Delivery.accepted (offersOn k.cy.acts c) = bs.flatten := by
  have hp := h.pending
  split at hp
  · next rest hb =>
    rcases hleft with rfl | hleft
    · obtain ⟨before, cur, hnil, _⟩ := hp
      exact absurd hnil.symm (by simp)
    · rw [hb] at hleft
      obtain rfl : rest = [] := hleft
      exact hp.done
  · exact hp

namespace Stream

variable {s : Stream}

theorem Inv.call (h : s.Inv) {c : Call} (hcalm : s.Calm (.call c)) : (s.step (.call c)).Inv := by
  simp only [step]
  cases hr : c.replaces with
  | true => exact h
  | false =>
    cases hres : s.session.call c with
    | none => exact h
    | some res =>
      obtain ⟨v, k⟩ := res
      rw [if_neg (by simp)]
      dsimp only
      have hq := Session.call_quiet hres hr
      cases hsends : c.sends with
      | false =>
        have hn := Session.call_noSend hres hr hsends
        have hb : c.buffers = [] := by cases c <;> simp_all [Call.buffers, Call.sends]
        rw [hb, List.append_nil]
        cases h with
        | ended h => exact .ended (by simp [h])
        | started hs h => exact .started hs (h.noSend hq hn)
        | inFlight h => exact .inFlight (h.noSend hq hn)
      | true =>
        obtain ⟨t, buf, len, ans, rfl⟩ : ∃ t buf len ans, c = .send t buf len ans := by
          cases c <;> simp_all [Call.sends]
        have hlen : ¬ len < 0 := by simpa [Call.sends] using hsends
        have hb : (Call.send t buf len ans).buffers = [buf] := by simp [Call.buffers, hlen]
        rw [hb]
        cases h with
        | ended h => exact .ended (by simp [h])
        | started hs h =>
          have hoffers : offersOn s.session.cy.acts s.conn = [] := h.offers
          refine .inFlight (Session.send_inFlight hlen hres h.connection ?_ ?_)
          · rw [hoffers]
            trivial
          · rw [hoffers, hs]
            rfl
        | inFlight h =>
          rcases hcalm hsends with he | hleft
          · exact .ended (by simp [he])
          · exact .inFlight
              (Session.send_inFlight hlen hres h.connection h.inOrder (h.accepted hleft))

theorem Inv.event (h : s.Inv) (d : ConnId) (write : Bool) (how : Wake) (ans : HandlerAnswers) :
    (s.step (.event d write how ans)).Inv := by
  simp only [step]
  split
  · cases h with
    | ended h => exact .ended (by simp [h])
    | started hs h =>
      have hw : Sock.Started (Session.view { s.session with
          cy := s.session.cy.wake d write how }) s.conn := ⟨h.connection, h.offers, h.handler⟩
      exact .started hs (hw.noSend (Session.handleEvent_quiet _ write ans)
        (Session.handleEvent_noSend _ write ans (h.handler write)))
    | inFlight h =>
      exact .inFlight (Session.event_inFlight write ans ⟨h.connection, h.inOrder, h.pending⟩)
  · exact h

theorem Inv.others (h : s.Inv) (kc : KeepaliveConf) (cy : Cycle) :
    (s.step (.others kc cy)).Inv := by
  simp only [step]
  split
  · next heq =>
    cases h with
    | ended h => exact .ended h
    | started hs h => exact .started hs ⟨h.connection, heq.trans h.offers, h.handler⟩
    | inFlight h =>
      refine .inFlight ⟨h.connection, ?_, ?_⟩
      · exact heq.symm ▸ h.inOrder
      · exact heq.symm ▸ h.pending
  · exact h

theorem Inv.step (h : s.Inv) (l : StreamStep) (hcalm : s.Calm l) : (s.step l).Inv := by
  cases l with
  | call c => exact h.call hcalm
  | event d write how ans => exact h.event d write how ans
  | others kc cy => exact h.others kc cy

/-- The invariant says that the stream is delivered. -/
theorem Inv.delivers (h : s.Inv) : s.Delivers := by
  cases h with
  | ended h => exact Or.inl h
  | started hs h =>
    have hoffers : offersOn s.session.cy.acts s.conn = [] := h.offers
    rw [Delivers, hoffers]
    exact Or.inr ⟨List.nil_prefix, trivial⟩
  | inFlight h =>
    refine Or.inr ?_
    have hp := h.pending
    split at hp
    · exact hp.delivered h.inOrder
    · exact ⟨hp ▸ List.prefix_rfl, h.inOrder⟩

end Stream

/-! ## The start of a stream -/

/-- A connection that `ngx_event_connect_peer` stores without failing is a fresh one. -/
theorem eventConnectPeer_offers (ans : RetvalAnswers) (r : ReqId) (s : Resource)
    (pc : PeerConnection) (kc : KeepaliveConf) (cy : Cycle) {c : ConnId} :
    let res := eventConnectPeer ans r s pc kc cy
    ¬ res.1.fails → res.2.1.connection = some c → offersOn res.2.2.2.acts c = [] := by
  unfold eventConnectPeer
  obtain ⟨rc, pc', kc', cy'⟩ := socketGetPeer ans.addEvent pc kc cy
  cases rc with
  | ok =>
    dsimp only
    cases ans.connect with
    | refused busy => cases busy <;> exact fun hok => absurd (by simp [Rc.fails]) hok
    | failed d declined => cases declined <;> exact fun hok => absurd (by simp [Rc.fails]) hok
    | established d =>
      rintro - ⟨⟩
      simp [offersOn]
    | inProgress d =>
      rintro - ⟨⟩
      simp [offersOn]
  | _ =>
    dsimp only
    cases hpc : pc'.connection with
    | none =>
      exact fun _ hc => absurd (hpc.symm.trans hc) (by simp)
    | some d =>
      intro _ hc
      obtain rfl : d = c := Option.some.inj (hpc.symm.trans hc)
      simp [offersOn]

/-- Nothing is sent while a connect is finished, and no handler that sends is installed. -/
theorem finishConnect_started (ans : RetvalAnswers) (rc : Rc) (s : Resource) {c : ConnId}
    {k : Sock} (hc : k.u.peer.connection = some c) (ho : offersOn k.cy.acts c = []) :
    (finishConnect ans rc c (k.adopt s c)).2.Started c := by
  have hconnected : ∀ k' : Sock, k'.u.peer = k.u.peer → k'.cy.acts = k.cy.acts →
      k'.u.readEventHandler ≠ .send → k'.u.writeEventHandler ≠ .send → k'.Started c := by
    intro k' hp ha hr hw
    refine ⟨by rw [hp, hc], by rw [ha, ho], fun write => ?_⟩
    cases write
    · exact hr
    · exact hw
  unfold finishConnect
  dsimp only
  repeat' split
  all_goals exact hconnected _ rfl rfl (by simp [Sock.adopt, Sock.onCycle, Sock.onUpstream,
    Upstream.dummyHandlers]) (by simp [Sock.adopt, Sock.onCycle, Sock.onUpstream,
    Upstream.dummyHandlers])

/-- A connect that stores a connection starts its stream. -/
theorem resolveRetvalHandler_started (ans : RetvalAnswers) (s : Resource) {k : Sock}
    {c : ConnId} (h : (k.u.resolved.bind (·.sockaddr)).bind (ans.stores k.kc) = some (some c)) :
    (resolveRetvalHandler ans s k).2.Started c := by
  obtain ⟨addr, haddr, hs⟩ := Option.bind_eq_some_iff.mp h
  rw [resolveRetvalHandler, haddr]
  dsimp only
  have hoffers := eventConnectPeer_offers (c := c) ans k.r s
    { k.u.peer with sockaddr := some addr, data := some k.kc.id } k.kc k.cy
  have hstores := eventConnectPeer_stores ans k.r s
    { k.u.peer with sockaddr := some addr, data := some k.kc.id } k.kc k.cy
  generalize eventConnectPeer ans k.r s
    { k.u.peer with sockaddr := some addr, data := some k.kc.id } k.kc k.cy = res
    at hoffers hstores ⊢
  obtain ⟨rc, peer, kc, cy⟩ := res
  dsimp only [Option.getD_some] at hoffers hstores ⊢
  rw [hs] at hstores
  obtain ⟨conn, hsome, hpeer, hfail⟩ := hstores.resolve_left (by simp)
  obtain rfl : some c = conn := Option.some.inj hsome
  have hok : ¬ rc.fails := fun hf => absurd (hfail hf) (by simp)
  rw [if_neg (show ¬ (rc = .error ∨ rc = .busy ∨ rc = .declined) from hok), hpeer]
  exact finishConnect_started (k := k.withPeer peer kc cy) ans rc s hpeer (hoffers hok hpeer)

theorem resolveHandler_started (ans : ResolveAnswers) (s : Resource) {k : Sock} {c : ConnId}
    (h : ans.stores k.kc k.u.resolved = some (some c)) : (resolveHandler ans s k).Started c := by
  obtain ⟨ur, hur, h⟩ := Option.bind_eq_some_iff.mp h
  by_cases hstate : ans.state ≠ 0 ∨ !ans.textAllocated
  · rw [if_pos hstate] at h
    cases h
  · rw [if_neg hstate] at h
    rw [not_or] at hstate
    rw [resolveHandler, if_neg hstate.1, hur]
    dsimp only
    rw [if_neg hstate.2]
    exact resolveRetvalHandler_started ans.retval s h

theorem socketConnect_started (ans : ConnectAnswers) (s : Resource) (port : Nat) {k : Sock}
    {c : ConnId} (h : ans.stores k.kc port = some (some c)) :
    (socketConnect ans s port k).2.Started c := by
  unfold ConnectAnswers.stores at h
  unfold socketConnect
  split at h
  · next addr _ _ hurl =>
    rw [hurl]
    exact resolveRetvalHandler_started ans.retval s h
  · next id res hurl hstart hname =>
    rw [hurl, hstart, hname]
    exact resolveHandler_started (k := (k.onUpstream (·.prepare k.r)).setResolved _) res s h
  · cases h

/-- A stream starts with a call of `ngx_socket_connect` that stores a connection. -/
theorem ngxSocketConnect_started {s : Resource} {addr : Bytes} {port : Nat}
    {ans : ConnectAnswers} {k : Session} {c : ConnId}
    (h : ans.stores k.kc port = some (some c)) :
    (ngxSocketConnect s (some afInet) addr port ans k).2.view.Started c := by
  rw [Session.view_ngxSocketConnect]
  exact socketConnect_started (k := k.view) ans s port h

/-- In every run on a connected socket in which each send finds nothing left of the buffer
before it, the buffers are delivered, until a send fails or times out. -/
theorem stream_delivered {k : Session} {c : ConnId} (hk : k.view.Started c)
    {ls : List StreamStep} (h : Along Stream.step Stream.Calm { session := k, conn := c } ls) :
    (run Stream.step { session := k, conn := c } ls).Delivers :=
  (h.invariant (I := Stream.Inv) (fun _ l hi hl => hi.step l hl) (.started rfl hk)).delivers

/-- Two buffers, the first of which blocks halfway. -/
theorem stream_delivered_in_turn :
    let k := (ngxSocketConnect 0 (some afInet) [] 80
      { parseUrl := .address [], retval := { connect := .established 7 } }
      ((Worker.init (fun _ => 0) fun _ => 0).session 0)).2
    (run Stream.step { session := k, conn := 7 }
      [.call (.send 0 [1, 2, 3] 3 { sends := [.accepted 1] }),
        .event 7 true .ready { send := { sends := [.accepted 2] } },
        .call (.send 0 [9] 1 { sends := [.accepted 1] })]).Delivers :=
  stream_delivered (ngxSocketConnect_started rfl) (by decide)

/-- The first write event resumes the script although the buffer is not empty, and the next
send takes its place. -/
theorem ngxSocketSend_skips :
    let k := (ngxSocketConnect 0 (some afInet) [] 80
      { parseUrl := .address [], retval := { connect := .established 7 } }
      ((Worker.init (fun _ => 0) fun _ => 0).session 0)).2
    let s := run Stream.step { session := k, conn := 7 }
      [.call (.send 0 [1, 2, 3] 3 { sends := [.accepted 1] }),
        .event 7 true .ready { send := { sends := [.accepted 1] } },
        .call (.send 0 [9] 1 { sends := [.accepted 1] })]
    s.submitted = [[1, 2, 3], [9]] ∧ Delivery.accepted (offersOn s.session.cy.acts 7) = [1, 2, 9] ∧
      ¬ s.Delivers := by
  refine ⟨by decide, by decide, fun h => ?_⟩
  rcases h with h | ⟨h, _⟩
  · revert h
    decide
  · revert h
    decide

end NgxPhp
