import NgxPhp.Mysql.Reading
import NgxPhp.Request.Reception

/-!
# Sockets and wires

The client libraries are modelled over a wire, which answers each receive with the front of the
bytes that are left, or with nothing, and keeps the room of a receive that got nothing. This is
what a connected socket of a request shows to its script, as long as its peer has not closed the
connection and no data comes for a receive that is over.
-/

namespace NgxPhp

open StepMachine

/-! ## The socket stays the request's -/

/-- A receive that waits leaves the request of the upstream alone. -/
theorem awaitRead_request (ans : RecvAnswers) (c : ConnId) (n : Int) (k : Sock) :
    (awaitRead ans c n k).2.u.request = k.u.request := by
  unfold awaitRead
  dsimp only
  split
  · rfl
  · split <;> rfl

/-- A receive that takes what there is leaves the request of the upstream alone. -/
theorem takeRecv_request (ans : RecvAnswers) (page : Bool) (c : ConnId) (k : Sock) :
    (takeRecv ans page c k).2.u.request = k.u.request := by
  have hset : (if page then { k with codeValue := some ans.recv.toInt } else k).u = k.u := by
    split <;> rfl
  unfold takeRecv
  generalize (if page then { k with codeValue := some ans.recv.toInt } else k) = k₁ at hset ⊢
  rw [← hset]
  dsimp only
  cases ans.recv with
  | error => rfl
  | data first rest =>
    dsimp only
    split
    · exact awaitRead_request ans c _ _
    · rfl
  | again => exact awaitRead_request ans c _ k₁
  | eof => exact awaitRead_request ans c _ _

/-- `ngx_http_php_socket_upstream_recv` leaves the request of the upstream alone. -/
theorem upstreamRecv_request (ans : RecvAnswers) (k : Sock) :
    (upstreamRecv ans k).2.u.request = k.u.request := by
  unfold upstreamRecv
  split
  · rfl
  · next c hc =>
    dsimp only
    split
    · exact awaitRead_request ans c _ _
    · split
      · exact awaitRead_request ans c _ _
      · exact takeRecv_request ans _ c _

/-- What follows a receive leaves the request of the upstream alone. -/
theorem Sock.AfterRecv.request {k k' : Sock} {c : ConnId} (h : k.AfterRecv c k') :
    k'.u.request = k.u.request := by
  cases h <;> rfl

/-- A receive of the script leaves the request of the upstream alone. -/
theorem Sock.RecvLeaves.request {k k' : Sock} {ans : RecvAnswers} (h : k.RecvLeaves ans k') :
    k'.u.request = k.u.request := by
  rcases h with rfl | ⟨c, -, h⟩
  · rfl
  · exact h.request.trans (upstreamRecv_request ans k)

/-- `ngx_http_php_socket_upstream_send` leaves the request of the upstream alone. -/
theorem upstreamSend_request (ans : SendAnswers) (k : Sock) :
    (upstreamSend ans k).2.u.request = k.u.request := by
  unfold upstreamSend
  split
  · next c bytes hc hb =>
    generalize sendLoop c ans.sends bytes k.cy = res
    obtain ⟨rc, rest, cy⟩ := res
    cases rc with
    | error => rfl
    | _ => dsimp only; split <;> rfl
  · rfl

/-- `ngx_http_php_socket_send` leaves the request of the upstream alone. -/
theorem socketSend_request (ans : SendAnswers) (k : Sock) :
    (socketSend ans k).2.u.request = k.u.request := by
  unfold socketSend
  split
  · rfl
  · dsimp only
    split
    · rfl
    · exact upstreamSend_request ans _

/-- The handler of an event leaves the request of the upstream alone. -/
theorem Sock.handleEvent_request (k : Sock) (write : Bool) (ans : HandlerAnswers) :
    (k.handleEvent write ans).u.request = k.u.request := by
  unfold handleEvent runHandler
  split
  · rfl
  · rfl
  · unfold connectedHandler
    split <;> rfl
  · unfold sendHandler
    split
    · rfl
    · split
      · rfl
      · split
        · exact upstreamSend_request ans.send k
        · rfl
  · unfold upstreamRecvHandler
    split
    · rfl
    · split
      · rfl
      · dsimp only
        split
        · exact upstreamRecv_request ans.recv _
        · rfl

namespace Session

variable {k k' : Session}

/-- A call that replaces no connection leaves the upstream to its request. -/
theorem call_request {c : Call} {v : PhpValue} (hres : k.call c = some (v, k'))
    (hc : c.replaces = false) : k'.view.u.request = k.view.u.request := by
  have hrecv : ∀ buf rc len (f : Sock → Int × Sock), (∀ t, (f t).2.u.request = t.u.request) →
      ngxSocketRecvWith buf rc len f k = some (v, k') →
      k'.view.u.request = k.view.u.request := by
    intro buf rc len f hf hres
    obtain ⟨u, hu, hres⟩ := Option.map_eq_some_iff.mp hres
    obtain ⟨rfl, rfl⟩ := Prod.mk.inj hres
    rw [view_of_upstream hu]
    exact hf _
  cases c with
  | sleep time =>
    obtain ⟨rfl, rfl⟩ := Prod.mk.inj (Option.some.inj hres)
    rfl
  | msleep time =>
    obtain ⟨rfl, rfl⟩ := Prod.mk.inj (Option.some.inj hres)
    rfl
  | send s buf len ans =>
    simp only [call, ngxSocketSend] at hres
    split at hres
    · obtain ⟨rfl, rfl⟩ := Prod.mk.inj (Option.some.inj hres)
      rfl
    · obtain ⟨u, hu, hres⟩ := Option.map_eq_some_iff.mp hres
      obtain ⟨rfl, rfl⟩ := Prod.mk.inj hres
      rw [view_of_upstream hu]
      exact socketSend_request ans _
  | recv s buf len ans =>
    exact hrecv buf none len _ (fun t => (socketRecv_recvLeaves ans t).request) hres
  | recvpage s buf rc bufferSize ans =>
    exact hrecv buf (some rc) bufferSize _ (fun t => (socketRecv_recvLeaves ans t).request) hres
  | recvwait s buf len ans =>
    exact hrecv buf none len _ (fun t => (socketRecvWait_recvLeaves ans t).request) hres
  | recvsync s buf len ans =>
    exact hrecv buf none len _ (fun t => (socketRecvSync_recvLeaves ans t).request) hres
  | settimeout timeout =>
    obtain ⟨u, hu, hres⟩ := Option.map_eq_some_iff.mp hres
    obtain ⟨rfl, rfl⟩ := Prod.mk.inj hres
    rw [view_of_upstream hu]
    rfl
  | iskeepalive =>
    obtain ⟨u, hu, hres⟩ := Option.map_eq_some_iff.mp hres
    obtain ⟨rfl, rfl⟩ := Prod.mk.inj hres
    rfl
  | connect => cases hc
  | close => cases hc
  | clear => cases hc

/-- The handler of an event works for the same request. -/
theorem handleEvent_request (k : Session) (write : Bool) (ans : HandlerAnswers) :
    (k.onSock fun t => t.handleEvent write ans).view.u.request = k.view.u.request := by
  unfold onSock
  split
  · rfl
  · next u hu =>
    rw [view_of_upstream hu]
    exact Sock.handleEvent_request _ write ans

end Session

/-! ## A receive that got nothing keeps its buffer -/

/-- From `k` to `k'` the buffer is kept if nothing was taken from connection `c`. -/
def Sock.KeepsBuffer (ans : RecvAnswer) (c : ConnId) (k k' : Sock) : Prop :=
  ans.taken c k.cy.acts k'.cy.acts = [] → k'.u.buffer = some k.u.room

namespace Sock

variable {k k' k'' : Sock} {ans : RecvAnswer} {c : ConnId}

/-- A buffer that is kept is kept where nothing is received behind it. -/
theorem KeepsBuffer.noRecv (h : k.KeepsBuffer ans c k') (g : k'.NoRecv k'') :
    k.KeepsBuffer ans c k'' := by
  intro htaken
  rw [ans.taken_congr rfl (g.recvs c)] at htaken
  rw [g.buffer]
  exact h htaken

/-- What follows a receive receives nothing. -/
theorem AfterRecv.noRecv (h : k.AfterRecv c k') : k.NoRecv k' := by
  cases h with
  | failed => exact .refl k
  | enabled => exact .of_acts rfl rfl rfl
  | registered => exact .of_acts rfl rfl rfl
  | again => exact .awaitRecv k

end Sock

/-- A receive that gets nothing keeps its buffer. -/
theorem takeRecv_keepsBuffer (ans : RecvAnswers) (page : Bool) (c : ConnId) (k : Sock)
    (heof : ans.recv ≠ .eof) (hbytes : ans.recv.bytes = []) :
    (takeRecv ans page c k).2.u.buffer = k.u.buffer := by
  have hset : (if page then { k with codeValue := some ans.recv.toInt } else k).u = k.u := by
    split <;> rfl
  unfold takeRecv
  generalize (if page then { k with codeValue := some ans.recv.toInt } else k) = k₁ at hset ⊢
  rw [← hset]
  dsimp only
  cases hrecv : ans.recv with
  | error => rfl
  | data first rest =>
    rw [hrecv] at hbytes
    cases hbytes
  | again => exact (awaitRead_noRecv ans c _ k₁).buffer
  | eof => exact absurd hrecv heof

/-- A receive with room keeps its buffer unless it gets data or the end of the stream. -/
theorem upstreamRecv_keepsBuffer {ans : RecvAnswers} {k : Sock} {c : ConnId}
    (hc : k.u.peer.connection = some c) (hroom : k.u.room ≠ 0) (heof : ans.recv ≠ .eof) :
    k.KeepsBuffer ans.recv c (upstreamRecv ans k).2 := by
  intro htaken
  rw [upstreamRecv, hc] at htaken ⊢
  dsimp only at htaken ⊢
  rw [if_neg (show k.u.buffer.getD k.u.bufferSize ≠ 0 from hroom)] at htaken ⊢
  by_cases hidle : ((k.cy.connections c).read.active && !(k.cy.connections c).read.ready) = true
  · rw [if_pos hidle]
    exact (awaitRead_noRecv ans c _ _).buffer
  · rw [if_neg hidle] at htaken ⊢
    obtain ⟨hrecvs, -⟩ := takeRecv_result ans
      (k.u.enabledReceivePage && (k.cy.connections c).read.active && !ans.ready) c
      ((k.onUpstream fun u => { u with buffer := some (k.u.buffer.getD k.u.bufferSize) }).onCycle
        (·.recv c ans.ready))
    have hbytes : ans.recv.bytes = [] :=
      ((ans.recv.taken_congr rfl hrecvs).trans (ans.recv.taken_recv c k.cy.acts)).symm.trans htaken
    exact takeRecv_keepsBuffer ans _ c _ heof hbytes

/-- On a socket of the request the receives come as far as `upstreamRecv`. -/
theorem recvThenAwait_afterRecv (ans : RecvAnswers) (register : Bool) {k : Sock} {c : ConnId}
    (hc : k.u.peer.connection = some c) (hr : k.u.request = k.r) :
    (upstreamRecv ans k).2.AfterRecv c (recvThenAwait ans register k).2 := by
  rw [recvThenAwait, hc]
  dsimp only
  rw [if_neg (not_not.mpr hr)]
  generalize upstreamRecv ans k = res
  obtain ⟨rc, k₁⟩ := res
  dsimp only
  split
  · exact .enabled
  · split
    · split
      · exact .failed
      · exact .registered
    · exact .again

/-- `ngx_http_php_socket_recv` receives once and then waits at most. -/
theorem socketRecv_afterRecv (ans : RecvAnswers) {k : Sock} {c : ConnId}
    (hc : k.u.peer.connection = some c) (hr : k.u.request = k.r) :
    (upstreamRecv ans k).2.AfterRecv c (socketRecv ans k).2 := by
  rw [socketRecv_snd]
  exact recvThenAwait_afterRecv ans true hc hr

/-- `ngx_http_php_socket_recv_wait` receives once and then waits at most. -/
theorem socketRecvWait_afterRecv (ans : RecvAnswers) {k : Sock} {c : ConnId}
    (hc : k.u.peer.connection = some c) (hr : k.u.request = k.r) :
    (upstreamRecv ans k).2.AfterRecv c (socketRecvWait ans k).2 := by
  rw [socketRecvWait_snd]
  exact recvThenAwait_afterRecv ans _ hc hr

/-- `ngx_http_php_socket_recv_sync` receives once and then waits at most. -/
theorem socketRecvSync_afterRecv (ans : RecvAnswers) {k : Sock} {c : ConnId}
    (hc : k.u.peer.connection = some c) (hr : k.u.request = k.r) :
    (upstreamRecv ans k).2.AfterRecv c (socketRecvSync ans k).2 := by
  rw [socketRecvSync, hc]
  dsimp only
  rw [if_neg (not_not.mpr hr)]
  generalize upstreamRecv ans k = res
  obtain ⟨rc, k₁⟩ := res
  dsimp only
  split
  · exact .failed
  · exact .again

/-- A receive with room is a receipt that keeps its buffer. -/
theorem upstreamRecv_fills {ans : RecvAnswers} {k k' : Sock} {c : ConnId}
    (h : (upstreamRecv ans k).2.AfterRecv c k') (hc : k.u.peer.connection = some c)
    (hroom : k.u.room ≠ 0) (heof : ans.recv ≠ .eof) :
    k.Receipt ans.recv c k' ∧ k.KeepsBuffer ans.recv c k' :=
  ⟨h.receipt (upstreamRecv_receipt ans hc),
    (upstreamRecv_keepsBuffer hc hroom heof).noRecv h.noRecv⟩

/-- The same of the receive that an event makes. -/
theorem handleEvent_keepsBuffer {write : Bool} {ans : HandlerAnswers} {k : Sock} {c : ConnId}
    (hc : k.u.peer.connection = some c) (hw : k.WillRecv write) (hroom : k.u.room ≠ 0)
    (heof : ans.recv.recv ≠ .eof) : k.KeepsBuffer ans.recv.recv c (k.handleEvent write ans) := by
  obtain ⟨hhandler, hkept, htimer⟩ := hw
  unfold Sock.handleEvent Sock.runHandler
  rw [hhandler]
  dsimp only
  rw [upstreamRecvHandler, hc]
  dsimp only
  rw [if_neg (by simpa using htimer c hc)]
  split
  · exact upstreamRecv_keepsBuffer hc hroom heof
  · next hnone => exact absurd hkept hnone

/-! ## What a receive holds -/

/-- A receive into a buffer of `size` bytes has data from it in its variable, or keeps it. -/
structure Sock.Holds (k : Sock) (w : Receiving) (size : Nat) : Prop where
  recvText : k.recvText = readBack w.text w.got
  length : w.got.length ≤ size
  buffer : k.u.buffer = if w.got = [] then some size else none

namespace Sock

variable {k k' : Sock} {ans : RecvAnswer} {c : ConnId} {w : Receiving} {size : Nat}

/-- A receive that still has its buffer has nothing in its variable. -/
theorem Holds.of_isSome (h : k.Holds w size) (hkept : k.u.buffer.isSome = true) :
    w.got = [] ∧ k.u.room = size := by
  have hbuf := h.buffer
  split at hbuf
  · next hgot =>
    refine ⟨hgot, ?_⟩
    rw [Upstream.room, hbuf]
    rfl
  · rw [hbuf] at hkept
    cases hkept

/-- A receive that has nothing yet gets data into its variable or keeps its buffer. -/
theorem Receipt.holds (h : k.Receipt ans c k') (hkeep : k.KeepsBuffer ans c k')
    (htext : k.recvText = w.text) (hans : ans.bytes.length ≤ k.u.room) :
    k'.Holds { w with got := ans.taken c k.cy.acts k'.cy.acts } k.u.room where
  recvText := htext ▸ h.recvText
  length := Nat.le_trans (ans.length_taken_le c _ _) hans
  buffer := by
    split
    · next hnone => exact hkeep hnone
    · next hsome =>
      refine Option.eq_none_iff_forall_ne_some.mpr fun room hroom => ?_
      exact hsome (h.buffer room hroom).2

/-- Where nothing is received, a receive holds what it held. -/
theorem NoRecv.holds (h : k.NoRecv k') (hk : k.Holds w size) : k'.Holds w size where
  recvText := h.recvText.trans hk.recvText
  length := hk.length
  buffer := h.buffer.trans hk.buffer

/-- What an event receives is for the receive that holds its buffer. -/
theorem Holds.event (hk : k.Holds w size) (hrec : k.Receipt ans c k') {write : Bool}
    (hidle : ¬ k.WillRecv write → k.NoRecv k')
    (hkeep : k.WillRecv write → k.KeepsBuffer ans c k') (hans : ans.bytes.length ≤ k.u.room) :
    k'.Holds { w with got := w.got ++ ans.taken c k.cy.acts k'.cy.acts } size := by
  by_cases hw : k.WillRecv write
  · obtain ⟨hgot, hroom⟩ := hk.of_isSome hw.2.1
    have htext : k.recvText = w.text := by
      rw [hk.recvText, hgot]
      rfl
    rw [hgot, List.nil_append, ← hroom]
    exact hrec.holds (hkeep hw) htext hans
  · have hn := hidle hw
    rw [ans.taken_of_eq (hn.recvs c), List.append_nil]
    exact hn.holds hk

/-- An event that brings nothing leaves a buffer as it is. -/
theorem idle_event {room : Option Nat} (hroom : k.u.buffer = room) (hzero : room ≠ some 0)
    {write : Bool} (hidle : ¬ k.WillRecv write → k.NoRecv k')
    (hkeep : k.WillRecv write → k.u.room ≠ 0 → k.KeepsBuffer ans c k')
    (hempty : k.WillRecv write → ans.bytes = []) :
    ans.taken c k.cy.acts k'.cy.acts = [] ∧ k'.u.buffer = room := by
  by_cases hw : k.WillRecv write
  · have hnone : ans.taken c k.cy.acts k'.cy.acts = [] := by
      rw [RecvAnswer.taken, hempty hw, ite_self]
    obtain ⟨size, hsize⟩ := Option.isSome_iff_exists.mp hw.2.1
    have hsame : k.u.room = size := by
      rw [Upstream.room, hsize]
      rfl
    have hpos : k.u.room ≠ 0 := by
      rw [hsame]
      rintro rfl
      exact hzero (hroom.symm.trans hsize)
    refine ⟨hnone, (hkeep hw hpos hnone).trans ?_⟩
    rw [hsame, ← hsize, hroom]
  · have hn := hidle hw
    exact ⟨ans.taken_of_eq (hn.recvs c), hn.buffer.trans hroom⟩

end Sock

namespace Session

variable {k k' : Session}

/-- A receive of a connected socket works on its variable, with the length it asks for, and fills
its buffer or keeps it. -/
theorem receive_fills {c : Call} {v : PhpValue} {buf : ScriptVar} {len : Nat} {ans : RecvAnswers}
    {d : ConnId} (hres : k.call c = some (v, k')) (hc : c.receive? = some (buf, len, ans))
    (hconn : k.view.u.peer.connection = some d) (hown : k.view.u.request = k.r)
    (hroom : k.view.u.buffer.getD len ≠ 0) (heof : ans.recv ≠ .eof) :
    ∃ t : Sock, t.recvText = buf.text ∧ t.u.room = k.view.u.buffer.getD len ∧ t.cy = k.cy ∧
      t.Receipt ans.recv d k'.view ∧ t.KeepsBuffer ans.recv d k'.view := by
  have hrecv : ∀ rc (f : Sock → Int × Sock),
      (∀ t : Sock, t.u.peer.connection = some d → t.u.request = t.r →
        (upstreamRecv ans t).2.AfterRecv d (f t).2) →
      ngxSocketRecvWith buf rc len f k = some (v, k') →
      ∃ t : Sock, t.recvText = buf.text ∧ t.u.room = k.view.u.buffer.getD len ∧ t.cy = k.cy ∧
        t.Receipt ans.recv d k'.view ∧ t.KeepsBuffer ans.recv d k'.view := by
    intro rc f hf hres
    obtain ⟨u, hu, hres⟩ := Option.map_eq_some_iff.mp hres
    obtain ⟨rfl, rfl⟩ := Prod.mk.inj hres
    rw [view_of_upstream hu] at hconn hown hroom ⊢
    generalize ht : k.recvSock buf rc len u = t
    have hconn : t.u.peer.connection = some d := ht ▸ hconn
    obtain ⟨h, hkeep⟩ := upstreamRecv_fills (hf t hconn (ht ▸ hown)) hconn (ht ▸ hroom) heof
    exact ⟨t, ht ▸ rfl, ht ▸ rfl, ht ▸ rfl, receipt_withSock h, hkeep⟩
  cases c with
  | recv s b n a =>
    cases hc
    exact hrecv none _ (fun t ht hr => socketRecv_afterRecv ans ht hr) hres
  | recvpage s b rc n a =>
    cases hc
    exact hrecv (some rc) _ (fun t ht hr => socketRecv_afterRecv ans ht hr) hres
  | recvwait s b n a =>
    cases hc
    exact hrecv none _ (fun t ht hr => socketRecvWait_afterRecv ans ht hr) hres
  | recvsync s b n a =>
    cases hc
    exact hrecv none _ (fun t ht hr => socketRecvSync_afterRecv ans ht hr) hres
  | _ => cases hc

/-- A receive that an event makes keeps its buffer unless it gets data. -/
theorem handleEvent_keepsBuffer (k : Session) {write : Bool} {ans : HandlerAnswers} {c : ConnId}
    (hc : k.view.u.peer.connection = some c) (hw : k.view.WillRecv write)
    (hroom : k.view.u.room ≠ 0) (heof : ans.recv.recv ≠ .eof) :
    k.view.KeepsBuffer ans.recv.recv c (k.onSock fun t => t.handleEvent write ans).view := by
  unfold onSock
  cases hu : k.ctx.upstream with
  | none =>
    rw [view, hu] at hc
    cases hc
  | some u =>
    rw [view_of_upstream hu] at hc hw hroom ⊢
    exact NgxPhp.handleEvent_keepsBuffer hc hw hroom heof

end Session

/-! ## Receives of a wire -/

/-- Receives of these lengths, one after the other. -/
def Wire.recvs : Wire → List Nat → List Bytes × Wire
  | w, [] => ([], w)
  | w, n :: ns =>
    let (got, w) := w.recv n
    let (gots, w) := w.recvs ns
    (got :: gots, w)

/-- The answer with which a receive gets this value. -/
def Chunk.of (value : Bytes) : Chunk := if value = [] then none else some (value.length - 1)

/-- Receives of a wire follow each other. -/
theorem Wire.recvs_append (w : Wire) (ns ms : List Nat) :
    w.recvs (ns ++ ms) =
      ((w.recvs ns).1 ++ ((w.recvs ns).2.recvs ms).1, ((w.recvs ns).2.recvs ms).2) := by
  induction ns generalizing w with
  | nil => rfl
  | cons n ns ih =>
    simp only [List.cons_append, recvs, ih]

/-- A value that fits is received with its answer, and its room stays if it is empty. -/
theorem Wire.recv_of {value : Bytes} {room : Option Nat} {n : Nat}
    (hfit : value.length ≤ room.getD n) (hroom : room.getD n ≠ 0) (rest : Bytes)
    (answers : List Chunk) :
    Wire.recv { rest := value ++ rest, room, answers := .of value :: answers } n =
      (value, { rest, room := if value = [] then some (room.getD n) else none, answers }) := by
  have hgranted : Wire.granted { rest := value ++ rest, room, answers := .of value :: answers } n =
      value.length := by
    unfold granted Chunk.of
    by_cases hv : value = []
    · rw [hv]
      rfl
    · have hpos : 0 < value.length := List.length_pos_iff.mpr hv
      simp only [if_neg hv, List.head?_cons, size]
      omega
  unfold recv
  rw [hgranted]
  simp [size, hroom]

/-- The receives are those of a wire with `start` bytes of room, which has `room` at the end. -/
def ShownBy (ws : List Receiving) (start room : Option Nat) : Prop :=
  ∃ answers, ∀ rest more,
    Wire.recvs
        { rest := (ws.map Receiving.got).flatten ++ rest
          room := start
          answers := answers ++ more }
        (ws.map Receiving.len) =
      (ws.map Receiving.got, { rest, room, answers := more })

/-- One more receive of what fits into the room. -/
theorem ShownBy.concat {ws : List Receiving} {start room : Option Nat} {w : Receiving}
    (h : ShownBy ws start room) (hfit : w.got.length ≤ room.getD w.len)
    (hroom : room.getD w.len ≠ 0) :
    ShownBy (ws ++ [w]) start (if w.got = [] then some (room.getD w.len) else none) := by
  obtain ⟨answers, h⟩ := h
  refine ⟨answers ++ [.of w.got], fun rest more => ?_⟩
  have hlast := h (w.got ++ rest) (.of w.got :: more)
  simp only [List.map_append, List.map_cons, List.map_nil, List.flatten_append, List.flatten_cons,
    List.flatten_nil, List.append_nil, List.append_assoc, List.singleton_append, Wire.recvs_append]
  rw [hlast]
  simp only [Wire.recvs, Wire.recv_of hfit hroom]

/-! ## Runs -/

namespace Reception

/-- The peer does not close the connection, and an event with which no script waits for a
receive brings no data into a buffer that is kept. -/
def Undisturbed (s : Reception) : ReceptionStep → Prop
  | .call c _ => ∀ x ∈ c.receive?, x.2.2.recv ≠ .eof
  | .event d write how ans => ans.recv.recv ≠ .eof ∧ (s.waiting = none →
      Sock.WillRecv (Session.view { s.session with cy := s.session.cy.wake d write how }) write →
      ans.recv.recv.bytes = [])
  | _ => True

instance decidableUndisturbed (s : Reception) (l : ReceptionStep) :
    Decidable (s.Undisturbed l) :=
  l.casesOn (fun c _ => inferInstanceAs (Decidable (∀ x ∈ c.receive?, x.2.2.recv ≠ .eof)))
    (fun _ _ _ _ => inferInstanceAs (Decidable (_ ∧ (_ → _ → _))))
    instDecidableTrue (fun _ _ => instDecidableTrue)

/-- The receives that are over. -/
def completed (s : Reception) : List Receiving := s.received.map Received.toReceiving

/-- The socket is in the state of a wire that has `room` bytes of room, or in a receive of it. -/
def AtRoom (s : Reception) (room : Option Nat) : Prop :=
  match s.waiting with
  | none => room ≠ some 0 ∧ s.session.view.u.buffer = room
  | some w => room.getD w.len ≠ 0 ∧ s.session.view.Holds w (room.getD w.len)

/-- The invariant of a reception that started with `start` bytes of room. -/
structure OnWire (start : Option Nat) (s : Reception) : Prop where
  connection : s.session.view.u.peer.connection = some s.conn
  request : s.session.view.u.request = s.session.r
  taken : (s.completed.map Receiving.got).flatten ++ s.current = s.taken
  values : ∀ x ∈ s.received, x.value = readBack x.text x.got
  shown : ∃ room, ShownBy s.completed start room ∧ s.AtRoom room

namespace OnWire

variable {s : Reception} {start : Option Nat}

/-- The receive that is over is the next one of the wire. -/
theorem resume (h : s.OnWire start) : s.resume.OnWire start := by
  unfold Reception.resume
  cases hw : s.waiting with
  | none => exact h
  | some w =>
    obtain ⟨room, hshown, hat⟩ := h.shown
    simp only [AtRoom, hw] at hat
    obtain ⟨hroom, hholds⟩ := hat
    have htaken := h.taken
    simp only [current, hw] at htaken
    refine ⟨h.connection, h.request, ?_, ?_,
      if w.got = [] then some (room.getD w.len) else none, ?_, ?_, hholds.buffer⟩
    · simp only [completed, List.map_append, List.map_cons, List.map_nil, List.flatten_append,
        List.flatten_cons, List.flatten_nil, List.append_nil, current]
      exact htaken
    · intro x hx
      rcases List.mem_append.mp hx with hx | hx
      · exact h.values x hx
      · obtain rfl := List.mem_singleton.mp hx
        exact hholds.recvText
    · rw [completed, List.map_append]
      exact hshown.concat hholds.length hroom
    · split
      · intro hzero
        exact hroom (Option.some.inj hzero)
      · simp

/-- A session on which nothing was received and no other connection was stored. -/
theorem idle (h : s.OnWire start) {k : Session} (hn : s.session.view.NoRecv k.view)
    (hp : k.view.u.peer = s.session.view.u.peer) (hr : k.r = s.session.r)
    (hreq : k.view.u.request = s.session.view.u.request) :
    OnWire start { s with session := k } := by
  refine ⟨hp ▸ h.connection, (hreq.trans h.request).trans hr.symm, h.taken, h.values, ?_⟩
  obtain ⟨room, hshown, hat⟩ := h.shown
  refine ⟨room, hshown, ?_⟩
  unfold AtRoom at hat ⊢
  cases hw : s.waiting with
  | none =>
    rw [hw] at hat
    exact ⟨hat.1, hn.buffer.trans hat.2⟩
  | some w =>
    rw [hw] at hat
    exact ⟨hat.1, hn.holds hat.2⟩

/-- A receive that is called works on the room that the wire has. -/
theorem receive (h : s.OnWire start) (hw : s.waiting = none) {c : Call} {v : PhpValue}
    {k : Session} (hres : s.session.call c = some (v, k)) (hr : c.replaces = false)
    {buf : ScriptVar} {len : Nat} {ans : RecvAnswers} (hc : c.receive? = some (buf, len, ans))
    (hlen : len ≠ 0) (heof : ans.recv ≠ .eof)
    (hans : ans.recv.bytes.length ≤ s.session.view.u.buffer.getD len) (yields : Bool) :
    (s.receive buf len ans yields k).OnWire start := by
  obtain ⟨room, hshown, hat⟩ := h.shown
  simp only [AtRoom, hw] at hat
  obtain ⟨hzero, hbuf⟩ := hat
  have hroom : s.session.view.u.buffer.getD len ≠ 0 := by
    rw [hbuf]
    cases room with
    | none => exact hlen
    | some n => exact fun hn => hzero (congrArg some hn)
  obtain ⟨t, htext, ht, hcy, hrec, hkeep⟩ :=
    Session.receive_fills hres hc h.connection h.request hroom heof
  have hholds := hrec.holds (w := { len, text := buf.text, got := [] }) hkeep htext (ht ▸ hans)
  rw [hcy, ht, hbuf] at hholds
  have hwaiting : OnWire start ({ s with
      session := k
      waiting := some { len, text := buf.text, got := [] } : Reception }.take
        (ans.recv.taken s.conn s.session.cy.acts k.cy.acts)) := by
    have hquiet := Session.call_quiet hres hr
    refine ⟨hquiet.peer ▸ h.connection,
      ((Session.call_request hres hr).trans h.request).trans hquiet.r.symm, ?_, h.values,
      room, hshown, hbuf ▸ hroom, hholds⟩
    have htaken := h.taken
    simp only [current, hw, List.append_nil] at htaken
    simp only [take, current, Option.map_some, List.nil_append, ← htaken]
    rfl
  unfold Reception.receive
  dsimp only
  split
  · exact hwaiting
  · exact hwaiting.resume

/-- A call keeps to the wire. -/
theorem call (h : s.OnWire start) {c : Call} {yields : Bool}
    (hl : s.Undisturbed (.call c yields)) : (s.step (.call c yields)).OnWire start := by
  simp only [step]
  split
  · exact h
  · next hno =>
    rw [not_or] at hno
    have hr : c.replaces = false := by simpa using hno.1
    have hw : s.waiting = none := by simpa using hno.2
    split
    · exact h
    · next v k hres hc =>
      have hquiet := Session.call_quiet hres hr
      exact h.idle (Session.call_noRecv hres hr hc) hquiet.peer hquiet.r
        (Session.call_request hres hr)
    · next v k buf len ans hres hc =>
      split
      · exact h
      · next hok =>
        exact h.receive hw hres hr hc (by omega) (hl (buf, len, ans) hc) (by omega) yields

/-- An event keeps to the wire. -/
theorem event (h : s.OnWire start) {d : ConnId} {write : Bool} {how : Wake} {ans : HandlerAnswers}
    (hl : s.Undisturbed (.event d write how ans)) :
    (s.step (.event d write how ans)).OnWire start := by
  simp only [step]
  split
  · next hok =>
    refine resume ?_
    generalize hk : { s.session with cy := s.session.cy.wake d write how : Session } = k
    have hconn : k.view.u.peer.connection = some s.conn := hk ▸ h.connection
    have hview : k.view.u = s.session.view.u := hk ▸ rfl
    have hrun : k.r = s.session.r := hk ▸ rfl
    have hacts : s.session.cy.acts = k.cy.acts := hk ▸ rfl
    have hans : ans.recv.recv.bytes.length ≤ k.view.u.room := hview ▸ hok.2
    have hquiet := k.handleEvent_quiet write ans
    have hreq := k.handleEvent_request write ans
    obtain ⟨hrec, hidle⟩ := k.handleEvent_receipt write ans hconn
    have hkeep : k.view.WillRecv write → k.view.u.room ≠ 0 → k.view.KeepsBuffer ans.recv.recv s.conn
        (k.onSock fun t => t.handleEvent write ans).view :=
      fun hw hroom => k.handleEvent_keepsBuffer hconn hw hroom hl.1
    have hconn' := hquiet.peer ▸ hconn
    have hown : (k.onSock fun t => t.handleEvent write ans).view.u.request =
        (k.onSock fun t => t.handleEvent write ans).r := by
      rw [hreq, hview, h.request, ← hrun]
      exact hquiet.r.symm
    have hwake : s.session.view.NoRecv k.view := hk ▸ .of_acts rfl rfl rfl
    obtain ⟨room, hshown, hat⟩ := h.shown
    have htaken := h.taken
    rw [hacts]
    cases hw : s.waiting with
    | none =>
      -- nobody waits, so the event may bring nothing, and a buffer stays as it is
      simp only [AtRoom, hw, ← hview] at hat
      obtain ⟨hzero, hroom⟩ := hat
      simp only [current, hw, List.append_nil] at htaken
      obtain ⟨hnothing, hbuffer⟩ := Sock.idle_event hroom hzero hidle hkeep
        fun hwill => hl.2 hw (hk ▸ hwill)
      have hnothing : ans.recv.recv.taken s.conn k.cy.acts
          (k.onSock fun t => t.handleEvent write ans).cy.acts = [] := hnothing
      refine ⟨hconn', hown, ?_, h.values, room, hshown, ?_⟩
      · simp only [take, current, Option.map_none, hnothing, ← htaken, List.append_nil]
        rfl
      · simp only [take, AtRoom, Option.map_none]
        exact ⟨hzero, hbuffer⟩
    | some w =>
      simp only [AtRoom, hw] at hat
      obtain ⟨hroom, hholds⟩ := hat
      have hholds : k.view.Holds w (room.getD w.len) := hwake.holds hholds
      have hkeep' := fun hwill : k.view.WillRecv write =>
        hkeep hwill ((hholds.of_isSome hwill.2.1).2 ▸ hroom)
      simp only [current, hw] at htaken
      refine ⟨hconn', hown, ?_, h.values, room, hshown, ?_⟩
      · simp only [take, current, Option.map_some, ← htaken, List.append_assoc]
        rfl
      · simp only [take, AtRoom, Option.map_some]
        exact ⟨hroom, hholds.event hrec hidle hkeep' hans⟩
  · exact h

/-- Each undisturbed step keeps to the wire. -/
theorem step (h : s.OnWire start) (l : ReceptionStep) (hl : s.Undisturbed l) :
    (s.step l).OnWire start := by
  cases l with
  | call c yields => exact h.call hl
  | event d write how ans => exact h.event hl
  | sleepTimer =>
    simp only [Reception.step]
    split
    · exact resume (h.idle (.of_acts rfl rfl rfl) rfl rfl rfl)
    · exact h
  | others kc cy =>
    simp only [Reception.step]
    split
    · obtain ⟨room, hshown, hat⟩ := h.shown
      refine ⟨h.connection, h.request, h.taken, h.values, room, hshown, ?_⟩
      unfold AtRoom at hat ⊢
      cases hw : s.waiting with
      | none =>
        rw [hw] at hat
        exact hat
      | some w =>
        rw [hw] at hat
        exact ⟨hat.1, hat.2.recvText, hat.2.length, hat.2.buffer⟩
    · exact h

end OnWire

/-- Every undisturbed run keeps to the wire. -/
theorem onWire_run {k : Session} {c : ConnId} (hk : k.view.u.peer.connection = some c)
    (hr : k.view.u.request = k.r) (hroom : k.view.u.buffer ≠ some 0) {ls : List ReceptionStep}
    (h : Along Reception.step Undisturbed { session := k, conn := c } ls) :
    (run Reception.step { session := k, conn := c } ls).OnWire k.view.u.buffer :=
  h.invariant (I := OnWire k.view.u.buffer) (fun _ l hi hl => hi.step l hl)
    ⟨hk, hr, rfl, by simp, _, ⟨[], fun _ _ => rfl⟩, hroom, rfl⟩

end Reception

/-- In every run on a connected socket whose peer does not close the connection, and in which no
event brings data for a receive that is over, the receives are those of a wire over the bytes
taken from the connection, whatever follows them; a receive that gets nothing leaves the text of
its variable. -/
theorem reception_wire {k : Session} {c : ConnId} (hk : k.view.u.peer.connection = some c)
    (hr : k.view.u.request = k.r) (hroom : k.view.u.buffer ≠ some 0) {ls : List ReceptionStep}
    (h : Along Reception.step Reception.Undisturbed { session := k, conn := c } ls) :
    let s := run Reception.step { session := k, conn := c } ls
    (∀ x ∈ s.received, x.value = readBack x.text x.got) ∧ ∃ answers, ∀ rest,
      (Wire.recvs { rest := s.taken ++ rest, room := k.view.u.buffer, answers }
        (s.completed.map Receiving.len)).1 = s.completed.map Receiving.got := by
  have hs := Reception.onWire_run hk hr hroom h
  generalize run Reception.step { session := k, conn := c } ls = s at hs
  obtain ⟨room, ⟨answers, hshown⟩, -⟩ := hs.shown
  refine ⟨hs.values, answers, fun rest => ?_⟩
  have hrecvs := hshown (s.current ++ rest) []
  rw [← List.append_assoc, hs.taken, List.append_nil] at hrecvs
  rw [hrecvs]

/-- A receive that keeps its buffer and leaves the text of its variable, the next one, which waits
and gets no more than the buffer has room for, and one with a buffer of its own. -/
theorem reception_wire_kept :
    let k := (ngxSocketConnect 0 (some afInet) [] 80
      { parseUrl := .address [], retval := { connect := .established 7 } }
      ((Worker.init (fun _ => 0) fun _ => 0).session 0)).2
    let s := run Reception.step { session := k, conn := 7 }
      [.call (.recvsync 0 { text := [9] } 2 { recv := .again }) false,
        .call (.recv 0 { text := [9] } 4 { recv := .again }) true,
        .event 7 false .ready { recv := { recv := .data 1 [2], ready := true } },
        .call (.recvsync 0 {} 4 { recv := .data 3 [] }) false]
    s.received.map Received.value = [[9], [1, 2], [3]] ∧
      (∀ x ∈ s.received, x.value = readBack x.text x.got) ∧ ∃ answers, ∀ rest,
        (Wire.recvs { rest := s.taken ++ rest, answers } (s.completed.map Receiving.len)).1 =
          s.completed.map Receiving.got :=
  ⟨by decide, reception_wire (by decide) (by decide) (by decide) (by decide)⟩

end NgxPhp
