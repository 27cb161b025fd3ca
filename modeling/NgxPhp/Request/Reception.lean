import NgxPhp.Lib.Machine
import NgxPhp.Request.Effect
import NgxPhp.Socket.Receipt

/-!
# Receiving from a connected socket

A receive under `yield` is over when the script is resumed, any other one when it
returns. A receive that found no data keeps its buffer, and both the next receive and
the next event use it: the one with a length of its own, the other for a variable
that the script may have read already. Its variable keeps the text that was in it.
-/

namespace NgxPhp

open StepMachine

/-- A receive: the length it was called with, the text that its variable held, and the bytes
that it has taken from the connection. -/
structure Receiving where
  len : Nat
  text : Bytes
  got : Bytes
  deriving DecidableEq, Repr

/-- A receive that is over, and what is read from its variable. -/
structure Received extends Receiving where
  value : Bytes
  deriving DecidableEq, Repr

/-- A request with a connected socket, and what its script has received. -/
structure Reception where
  session : Session
  conn : ConnId
  /-- The bytes that `c->recv` has taken from the connection. -/
  taken : Bytes := []
  received : List Received := []
  /-- The receive that the script waits for at a `yield`. -/
  waiting : Option Receiving := none

inductive ReceptionStep
  /-- The script calls a library function, under `yield` or not, but does not close the
  socket or connect again. -/
  | call (c : Call) (yields : Bool)
  /-- A connection of the request has an event, and the script is resumed. -/
  | event (d : ConnId) (write : Bool) (how : Wake) (ans : HandlerAnswers)
  /-- The sleep timer expires, and the script is resumed. -/
  | sleepTimer
  /-- Other requests have run, none of which has received from the connection. -/
  | others (kc : KeepaliveConf) (cy : Cycle)

/-- The variable, the length and the answers of a receive. -/
def Call.receive? : Call → Option (ScriptVar × Nat × RecvAnswers)
  | .recv _ buf len ans => some (buf, len, ans)
  | .recvpage _ buf _ bufferSize ans => some (buf, bufferSize, ans)
  | .recvwait _ buf len ans => some (buf, len, ans)
  | .recvsync _ buf len ans => some (buf, len, ans)
  | _ => none

/-- The receives that are made for `yield`. -/
def Call.forYield : Call → Bool
  | .recv _ _ _ _ => true
  | .recvpage _ _ _ _ _ => true
  | _ => false

/-- The receive that the script waits for is over. -/
def Reception.resume (s : Reception) : Reception :=
  match s.waiting with
  | none => s
  | some w => { s with
      waiting := none
      received := s.received ++ [{ w with value := s.session.ctx.recvText }] }

/-- These bytes have been taken from the connection; those of an event are for the receive that
is waited for. -/
def Reception.take (s : Reception) (bytes : Bytes) : Reception :=
  { s with
    taken := s.taken ++ bytes
    waiting := s.waiting.map fun w => { w with got := w.got ++ bytes } }

/-- A receive has been called. -/
def Reception.receive (s : Reception) (buf : ScriptVar) (len : Nat) (ans : RecvAnswers)
    (yields : Bool) (k : Session) : Reception :=
  let s := { s with
    session := k
    waiting := some { len, text := buf.text, got := [] } }.take
      (ans.recv.taken s.conn s.session.cy.acts k.cy.acts)
  if yields then s else s.resume

/-- One step of the request; steps that cannot be taken change nothing. A `c->recv` writes
no more bytes than it is given room for. -/
def Reception.step (s : Reception) : ReceptionStep → Reception
  | .call c yields =>
    if c.replaces ∨ s.waiting.isSome then s
    else
      match s.session.call c, c.receive? with
      | none, _ => s
      | some (_, k), none => { s with session := k }
      | some (_, k), some (buf, len, ans) =>
        if len = 0 ∨ (c.forYield ∧ !yields) ∨
            s.session.view.u.buffer.getD len < ans.recv.bytes.length then s
        else s.receive buf len ans yields k
  | .event d write how ans =>
    if s.session.cy.EventOf s.session.r d write how ∧
        ans.recv.recv.bytes.length ≤ s.session.view.u.room then
      let k := { s.session with cy := s.session.cy.wake d write how }.onSock fun t =>
        t.handleEvent write ans
      ({ s with session := k }.take
        (ans.recv.recv.taken s.conn s.session.cy.acts k.cy.acts)).resume
    else s
  | .sleepTimer =>
    if s.session.ctx.sleep.timer.isSome then
      { s with session := { s.session with ctx := s.session.ctx.wakeSleep } }.resume
    else s
  | .others kc cy =>
    if recvsOn cy.acts s.conn = recvsOn s.session.cy.acts s.conn then
      { s with session := { s.session with kc, cy } }
    else s

/-- A receive is called with an empty variable and finds no buffer kept that is longer than it
asks for, and an event with which no script waits for a receive brings no data into a buffer that
is kept. -/
def Reception.Calm (s : Reception) : ReceptionStep → Prop
  | .call c _ => ∀ x ∈ c.receive?, x.1.text = [] ∧ ∀ room ∈ s.session.view.u.buffer, room ≤ x.2.1
  | .event d write how ans => s.waiting = none →
      Sock.WillRecv (Session.view { s.session with cy := s.session.cy.wake d write how }) write →
      ans.recv.recv.bytes = []
  | _ => True

instance Reception.decidableCalm (s : Reception) (l : ReceptionStep) : Decidable (s.Calm l) := by
  cases l <;> unfold Reception.Calm <;> infer_instance

/-- What the receive that is waited for has taken so far. -/
def Reception.current (s : Reception) : Bytes :=
  match s.waiting with
  | none => []
  | some w => w.got

/-- The values of the receives in call order are the bytes taken from the connection, and no
value is longer than its receive asked for. -/
def Reception.Delivers (s : Reception) : Prop :=
  (s.received.map Received.value).flatten ++ s.current = s.taken ∧
    ∀ x ∈ s.received, x.value.length ≤ x.len

instance Reception.decidableDelivers (s : Reception) : Decidable s.Delivers :=
  inferInstanceAs (Decidable (_ ∧ _))

/-- A receive has its data in the variable, or it keeps at most a buffer of its length. -/
structure Sock.Awaits (k : Sock) (w : Receiving) : Prop where
  recvText : k.recvText = readBack w.text w.got
  length : w.got.length ≤ w.len
  buffer : ∀ room ∈ k.u.buffer, room ≤ w.len ∧ w.got = []

/-- The invariant of a reception whose receives do not meet buffers of other receives. -/
structure Reception.Inv (s : Reception) : Prop where
  connection : s.session.view.u.peer.connection = some s.conn
  delivers : s.Delivers
  awaits : ∀ w ∈ s.waiting, w.text = [] ∧ s.session.view.Awaits w

/-! ## Calls and events -/

/-- No more is taken than the answer has. -/
theorem RecvAnswer.length_taken_le (ans : RecvAnswer) (c : ConnId) (before after : List Act) :
    (ans.taken c before after).length ≤ ans.bytes.length := by
  unfold taken
  split
  · exact Nat.zero_le _
  · exact Nat.le_refl _

/-- A receive that has nothing yet gets at most its length into its variable. -/
theorem Sock.Receipt.awaits {k k' : Sock} {ans : RecvAnswer} {c : ConnId} {w : Receiving}
    (h : k.Receipt ans c k') (htext : k.recvText = w.text) (hroom : k.u.room ≤ w.len)
    (hans : ans.bytes.length ≤ k.u.room) :
    k'.Awaits { w with got := ans.taken c k.cy.acts k'.cy.acts } where
  recvText := htext ▸ h.recvText
  length := Nat.le_trans (ans.length_taken_le c _ _) (Nat.le_trans hans hroom)
  buffer room hr := by
    obtain ⟨hsame, hnone⟩ := h.buffer room hr
    exact ⟨hsame ▸ hroom, hnone⟩

/-- Where nothing is received, a receive has what it had. -/
theorem Sock.NoRecv.awaits {k k' : Sock} {w : Receiving} (h : k.NoRecv k') (ha : k.Awaits w) :
    k'.Awaits w where
  recvText := h.recvText.trans ha.recvText
  length := ha.length
  buffer := h.buffer ▸ ha.buffer

/-- What an event receives is for the receive that is waited for. -/
theorem Sock.Awaits.event {k k' : Sock} {ans : RecvAnswer} {c : ConnId} {write : Bool}
    {w : Receiving} (ha : k.Awaits w) (hrec : k.Receipt ans c k')
    (hidle : ¬ k.WillRecv write → k.NoRecv k') (hans : ans.bytes.length ≤ k.u.room) :
    k'.Awaits { w with got := w.got ++ ans.taken c k.cy.acts k'.cy.acts } := by
  by_cases hw : k.WillRecv write
  · obtain ⟨room, hkept⟩ := Option.isSome_iff_exists.mp hw.2.1
    obtain ⟨hle, hgot⟩ := ha.buffer room hkept
    have htext : k.recvText = w.text := by
      rw [ha.recvText, hgot]
      rfl
    have hroom : k.u.room ≤ w.len := by
      rw [Upstream.room, hkept]
      exact hle
    rw [hgot, List.nil_append]
    exact hrec.awaits htext hroom hans
  · have hn := hidle hw
    rw [ans.taken_of_eq (hn.recvs c), List.append_nil]
    exact hn.awaits ha

namespace Session

variable {k k' : Session}

/-- Write back the result of a socket function that receives. -/
theorem receipt_withSock {t t' : Sock} {ans : RecvAnswer} {c : ConnId}
    (h : t.Receipt ans c t') : t.Receipt ans c (k.withSock t').view := ⟨h.recvText, h.buffer⟩

/-- A receive works on its variable with the length it asks for. -/
theorem receive_receipt {c : Call} {v : PhpValue} {buf : ScriptVar} {len : Nat}
    {ans : RecvAnswers} {d : ConnId} (hres : k.call c = some (v, k'))
    (hc : c.receive? = some (buf, len, ans)) (hconn : k.view.u.peer.connection = some d) :
    ∃ t : Sock, t.recvText = buf.text ∧ t.u.buffer = k.view.u.buffer ∧ t.u.bufferSize = len ∧
      t.cy = k.cy ∧ t.Receipt ans.recv d k'.view := by
  have hrecv : ∀ rc (f : Sock → Int × Sock),
      (∀ t : Sock, t.u.peer.connection = some d → t.Receipt ans.recv d (f t).2) →
      ngxSocketRecvWith buf rc len f k = some (v, k') →
      ∃ t : Sock, t.recvText = buf.text ∧ t.u.buffer = k.view.u.buffer ∧
        t.u.bufferSize = len ∧ t.cy = k.cy ∧ t.Receipt ans.recv d k'.view := by
    intro rc f hf hres
    obtain ⟨u, hu, hres⟩ := Option.map_eq_some_iff.mp hres
    obtain ⟨rfl, rfl⟩ := Prod.mk.inj hres
    rw [view_of_upstream hu] at hconn ⊢
    exact ⟨k.recvSock buf rc len u, rfl, rfl, rfl, rfl, receipt_withSock (hf _ hconn)⟩
  cases c with
  | recv s b n a =>
    cases hc
    exact hrecv none _ (fun t ht => (socketRecv_recvLeaves ans t).receipt ht) hres
  | recvpage s b rc n a =>
    cases hc
    exact hrecv (some rc) _ (fun t ht => (socketRecv_recvLeaves ans t).receipt ht) hres
  | recvwait s b n a =>
    cases hc
    exact hrecv none _ (fun t ht => (socketRecvWait_recvLeaves ans t).receipt ht) hres
  | recvsync s b n a =>
    cases hc
    exact hrecv none _ (fun t ht => (socketRecvSync_recvLeaves ans t).receipt ht) hres
  | _ => cases hc

/-- Calls that neither replace the connection nor receive. -/
theorem call_noRecv {c : Call} {v : PhpValue} (hres : k.call c = some (v, k'))
    (hr : c.replaces = false) (hc : c.receive? = none) : k.view.NoRecv k'.view := by
  cases c with
  | sleep time =>
    obtain ⟨rfl, rfl⟩ := Prod.mk.inj (Option.some.inj hres)
    exact .of_acts rfl rfl rfl
  | msleep time =>
    obtain ⟨rfl, rfl⟩ := Prod.mk.inj (Option.some.inj hres)
    exact .of_acts rfl rfl rfl
  | send s buf len ans =>
    by_cases hlen : len < 0
    · obtain ⟨_, rfl⟩ : PhpValue.bool false = v ∧ k = k' := by
        simpa [call, ngxSocketSend, hlen] using hres
      exact .refl _
    · simp only [call, ngxSocketSend, if_neg hlen] at hres
      obtain ⟨u, hu, hres⟩ := Option.map_eq_some_iff.mp hres
      obtain ⟨rfl, rfl⟩ := Prod.mk.inj hres
      rw [view_of_upstream hu]
      have h := socketSend_noRecv ans (k.sock { u with
        requestBufs := some buf, sender := some s })
      exact ⟨h.recvText, h.buffer, h.recvs⟩
  | settimeout timeout =>
    obtain ⟨u, hu, hres⟩ := Option.map_eq_some_iff.mp hres
    obtain ⟨rfl, rfl⟩ := Prod.mk.inj hres
    rw [view_of_upstream hu]
    exact .of_acts rfl rfl rfl
  | iskeepalive =>
    obtain ⟨u, hu, hres⟩ := Option.map_eq_some_iff.mp hres
    obtain ⟨rfl, rfl⟩ := Prod.mk.inj hres
    exact .refl _
  | connect s type addr port ans => cases hr
  | close s readEvent => cases hr
  | clear s readEvent => cases hr
  | _ => cases hc

/-- An event receives at most once, and nothing unless a buffer is kept. -/
theorem handleEvent_receipt (k : Session) (write : Bool) (ans : HandlerAnswers) {c : ConnId}
    (hc : k.view.u.peer.connection = some c) :
    k.view.Receipt ans.recv.recv c (k.onSock fun t => t.handleEvent write ans).view ∧
      (¬ k.view.WillRecv write →
        k.view.NoRecv (k.onSock fun t => t.handleEvent write ans).view) := by
  unfold onSock
  split
  · exact ⟨(Sock.NoRecv.refl _).receipt _ c, fun _ => .refl _⟩
  · next u hu =>
    rw [view_of_upstream hu] at hc ⊢
    obtain ⟨h, hno⟩ := NgxPhp.handleEvent_receipt write ans hc
    refine ⟨⟨h.recvText, h.buffer⟩, fun hw => ?_⟩
    exact ⟨(hno hw).recvText, (hno hw).buffer, (hno hw).recvs⟩

end Session

namespace Reception

variable {s : Reception}

/-- When the script is resumed, the value of its receive follows those before it. -/
theorem Inv.resume (h : s.Inv) : s.resume.Inv := by
  unfold Reception.resume
  cases hw : s.waiting with
  | none => exact h
  | some w =>
    obtain ⟨htext, hawaits⟩ := h.awaits w hw
    have hvalue : s.session.ctx.recvText = w.got := by
      have hread : s.session.ctx.recvText = readBack w.text w.got := hawaits.recvText
      rw [hread, htext, readBack_empty]
    refine ⟨h.connection, ⟨?_, ?_⟩, by simp⟩
    · have hd := h.delivers.1
      simp only [current, hw] at hd
      simp [current, hvalue, ← hd]
    · intro x hx
      rcases List.mem_append.mp hx with hx | hx
      · exact h.delivers.2 x hx
      · obtain rfl := List.mem_singleton.mp hx
        exact hvalue ▸ hawaits.length

/-- A session on which nothing was received and no other connection was stored. -/
theorem Inv.idle (h : s.Inv) {k : Session} (hn : s.session.view.NoRecv k.view)
    (hp : k.view.u.peer = s.session.view.u.peer) : { s with session := k : Reception }.Inv where
  connection := by
    dsimp only
    rw [hp, h.connection]
  delivers := h.delivers
  awaits w hw := ⟨(h.awaits w hw).1, hn.awaits (h.awaits w hw).2⟩

/-- A receive of an empty variable that finds no longer buffer. -/
theorem Inv.receive (h : s.Inv) (hw : s.waiting = none) {c : Call} {v : PhpValue} {k : Session}
    (hres : s.session.call c = some (v, k)) (hr : c.replaces = false) {buf : ScriptVar} {len : Nat}
    {ans : RecvAnswers} (hc : c.receive? = some (buf, len, ans)) (htext : buf.text = [])
    (hroom : ∀ room ∈ s.session.view.u.buffer, room ≤ len)
    (hans : ans.recv.bytes.length ≤ s.session.view.u.buffer.getD len) (yields : Bool) :
    (s.receive buf len ans yields k).Inv := by
  obtain ⟨t, hread, hbuf, hsize, hcy, hrec⟩ := Session.receive_receipt hres hc h.connection
  have ht : t.u.room = s.session.view.u.buffer.getD len := by rw [Upstream.room, hbuf, hsize]
  have hle : t.u.room ≤ len := by
    rw [ht]
    cases hb : s.session.view.u.buffer with
    | none => exact Nat.le_refl _
    | some room => exact hroom room hb
  have hawaits := hrec.awaits (w := { len, text := buf.text, got := [] }) hread hle (ht ▸ hans)
  rw [hcy] at hawaits
  have hwaiting : ({ s with
      session := k
      waiting := some { len, text := buf.text, got := [] } : Reception }.take
        (ans.recv.taken s.conn s.session.cy.acts k.cy.acts)).Inv := by
    refine ⟨(Session.call_quiet hres hr).peer ▸ h.connection, ⟨?_, h.delivers.2⟩, ?_⟩
    · have hd := h.delivers.1
      simp only [current, hw, List.append_nil] at hd
      simp only [take, current, Option.map_some, List.nil_append, hd]
    · intro w hmem
      obtain rfl := Option.some.inj hmem
      exact ⟨htext, hawaits⟩
  unfold Reception.receive
  dsimp only
  split
  · exact hwaiting
  · exact hwaiting.resume

theorem Inv.call (h : s.Inv) {c : Call} {yields : Bool} (hcalm : s.Calm (.call c yields)) :
    (s.step (.call c yields)).Inv := by
  simp only [step]
  split
  · exact h
  · next hno =>
    rw [not_or] at hno
    have hr : c.replaces = false := by simpa using hno.1
    have hw : s.waiting = none := by simpa using hno.2
    split
    · exact h
    · next v k hres hc =>
      exact h.idle (Session.call_noRecv hres hr hc) (Session.call_quiet hres hr).peer
    · next v k buf len ans hres hc =>
      split
      · exact h
      · next hok =>
        obtain ⟨htext, hroom⟩ := hcalm (buf, len, ans) hc
        exact h.receive hw hres hr hc htext hroom (by omega) yields

theorem Inv.event (h : s.Inv) {d : ConnId} {write : Bool} {how : Wake} {ans : HandlerAnswers}
    (hcalm : s.Calm (.event d write how ans)) : (s.step (.event d write how ans)).Inv := by
  simp only [step]
  split
  · next hok =>
    refine Inv.resume ?_
    generalize hk : { s.session with cy := s.session.cy.wake d write how : Session } = k
    have hconn : k.view.u.peer.connection = some s.conn := hk ▸ h.connection
    have hpeer := (k.handleEvent_quiet write ans).peer
    obtain ⟨hrec, hidle⟩ := k.handleEvent_receipt write ans hconn
    have hacts : s.session.cy.acts = k.cy.acts := hk ▸ rfl
    have hwake : s.session.view.NoRecv k.view := hk ▸ .of_acts rfl rfl rfl
    have hroom : ans.recv.recv.bytes.length ≤ k.view.u.room := hk ▸ hok.2
    have hd := h.delivers.1
    rw [hacts]
    refine ⟨by dsimp only [take]; rw [hpeer, hconn], ⟨?_, h.delivers.2⟩, ?_⟩
    · cases hw : s.waiting with
      | none =>
        -- nobody waits, so the event may bring nothing
        have hnothing : ans.recv.recv.taken s.conn k.cy.acts
            (k.onSock fun t => t.handleEvent write ans).cy.acts = [] := by
          by_cases hwill : k.view.WillRecv write
          · have hempty : ans.recv.recv.bytes = [] := hcalm hw (hk ▸ hwill)
            rw [RecvAnswer.taken, hempty, ite_self]
          · exact ans.recv.recv.taken_of_eq ((hidle hwill).recvs s.conn)
        simp only [current, hw] at hd
        simp only [take, current, Option.map_none, hnothing, hd, List.append_nil]
      | some w =>
        simp only [current, hw] at hd
        simp only [take, current, Option.map_some, ← hd, List.append_assoc]
    · intro w hmem
      obtain ⟨w, hw, rfl⟩ := Option.map_eq_some_iff.mp hmem
      obtain ⟨htext, hawaits⟩ := h.awaits w hw
      exact ⟨htext, (hwake.awaits hawaits).event hrec hidle hroom⟩
  · exact h

theorem Inv.step (h : s.Inv) (l : ReceptionStep) (hcalm : s.Calm l) : (s.step l).Inv := by
  cases l with
  | call c yields => exact h.call hcalm
  | event d write how ans => exact h.event hcalm
  | sleepTimer =>
    simp only [Reception.step]
    split
    · exact Inv.resume (h.idle (.of_acts rfl rfl rfl) rfl)
    · exact h
  | others kc cy =>
    simp only [Reception.step]
    split
    · refine ⟨h.connection, h.delivers, fun w hw => ?_⟩
      obtain ⟨htext, hawaits⟩ := h.awaits w hw
      exact ⟨htext, hawaits.recvText, hawaits.length, hawaits.buffer⟩
    · exact h

end Reception

/-- In every run on a connected socket in which receives are called with empty variables and meet
no longer buffer that was kept, and no event brings data for a receive that is over, the values of
the receives are the bytes taken from the connection, in order and none longer than asked for. -/
theorem reception_delivered {k : Session} {c : ConnId}
    (hk : k.view.u.peer.connection = some c) {ls : List ReceptionStep}
    (h : Along Reception.step Reception.Calm { session := k, conn := c } ls) :
    (run Reception.step { session := k, conn := c } ls).Delivers :=
  (h.invariant (I := Reception.Inv) (fun _ l hi hl => hi.step l hl)
    ⟨hk, ⟨rfl, by simp⟩, by simp⟩).delivers

/-- A receive that has to wait for its data, and one that finds the rest. -/
theorem reception_delivered_in_turn :
    let k := (ngxSocketConnect 0 (some afInet) [] 80
      { parseUrl := .address [], retval := { connect := .established 7 } }
      ((Worker.init (fun _ => 0) fun _ => 0).session 0)).2
    (run Reception.step { session := k, conn := 7 }
      [.call (.recv 0 {} 4 { recv := .again }) true,
        .event 7 false .ready { recv := { recv := .data 1 [2, 3, 4], ready := true } },
        .call (.recvsync 0 {} 2 { recv := .data 5 [] }) false]).Delivers :=
  reception_delivered (by decide) (by decide)

/-- A write event resumes the script before its data has come. The next receive gets more
than it asks for, and without one the data goes where nobody looks for it. A receive that gets
nothing leaves in its variable what the one before it has received. -/
theorem ngxSocketRecv_stale :
    let k := (ngxSocketConnect 0 (some afInet) [] 80
      { parseUrl := .address [], retval := { connect := .established 7 } }
      ((Worker.init (fun _ => 0) fun _ => 0).session 0)).2
    let early : List ReceptionStep :=
      [.call (.recv 0 {} 4 { recv := .again }) true, .event 7 true .ready {}]
    let data : ReceptionStep := .event 7 false .ready { recv := { recv := .data 1 [2, 3, 4] } }
    let longer := run Reception.step { session := k, conn := 7 }
      (early ++ [.call (.recv 0 {} 2 { recv := .again }) true, data])
    let lost := run Reception.step { session := k, conn := 7 } (early ++ [data])
    let twice := run Reception.step { session := k, conn := 7 }
      [.call (.recv 0 {} 4 { recv := .again }) true, data,
        .call (.recvsync 0 { text := [1, 2, 3, 4] } 4 { recv := .again }) false]
    (longer.received.map Received.value = [[], [1, 2, 3, 4]] ∧ ¬ longer.Delivers) ∧
      (lost.received.map Received.value = [[]] ∧ lost.taken = [1, 2, 3, 4] ∧ ¬ lost.Delivers) ∧
      (twice.received.map Received.value = [[1, 2, 3, 4], [1, 2, 3, 4]] ∧
        twice.taken = [1, 2, 3, 4] ∧ ¬ twice.Delivers) := by
  decide

end NgxPhp
