import NgxPhp.Request.Ownership
import NgxPhp.Socket.Pointers

/-!
# Socket calls in any order

The entry points set fields of the upstream, and some of them look at its flags, before the
functions behind them look for a connection. Over whole runs: as long as no step works on a
connection that was given up before, a call follows no `NULL` and refuses without a connection,
leaving the socket as it was, exactly when the upstream is there and already has what the call
would set.
-/

namespace NgxPhp

open StepMachine

/-- The calls on the socket of a request. -/
def Call.onSocket : Call → Bool
  | .sleep _ => false
  | .msleep _ => false
  | _ => true

/-- The calls that need a connection. -/
def Call.transfers : Call → Bool
  | .send _ _ _ _ => true
  | .recv _ _ _ _ => true
  | .recvpage _ _ _ _ _ => true
  | .recvwait _ _ _ _ => true
  | .recvsync _ _ _ _ => true
  | _ => false

/-- The receiving entry points follow `ctx->upstream` at once. -/
def Session.recvChecked (k : Session) (buf : ScriptVar) (rc : Option VarId) (bufferSize : Nat)
    (f : Sock → Int × Sock) : Option (PhpValue × Session) := do
  let u ← k.ctx.upstream
  let _ ← socketRecvChecked f (k.recvSock buf rc bufferSize u)
  ngxSocketRecvWith buf rc bufferSize f k

/-- Clearing and closing look at `ctx->upstream` first. -/
def Session.clearChecked (k : Session) (readEvent : Rc) : Option Unit :=
  match k.ctx.upstream with
  | none => some ()
  | some u => (socketClearChecked readEvent (k.sock u)).map fun _ => ()

/-- `Session.call` behind the pointers that it follows: none when one of them is `NULL`. All
entry points but `ngx_socket_iskeepalive` look at the ctx first. -/
def Session.callChecked (k : Session) (moduleCtx : Bool) (c : Call) :
    Option (PhpValue × Session) :=
  match moduleCtx, c with
  | false, .sleep _ => none
  | false, .msleep _ => none
  | false, .iskeepalive => none
  | false, _ => some (.bool false, k)
  | true, .connect s type addr port ans =>
    if type = some afInet then do
      let t := { k with ctx := { k.ctx with host := addr, port } }
      let _ ← socketConnectChecked ans s port (t.sock (k.ctx.upstream.getD { request := k.r }))
      k.call c
    else k.call c
  | true, .close _ readEvent => (k.clearChecked readEvent).bind fun _ => k.call c
  | true, .clear _ readEvent => (k.clearChecked readEvent).bind fun _ => k.call c
  | true, .send s buf len ans =>
    if len < 0 then k.call c
    else do
      let u ← k.ctx.upstream
      let _ ← socketSendChecked ans (k.sock { u with requestBufs := some buf, sender := some s })
      k.call c
  | true, .recv _ buf len ans => k.recvChecked buf none len (socketRecv ans)
  | true, .recvpage _ buf rc bufferSize ans =>
    k.recvChecked buf (some rc) bufferSize (socketRecv ans)
  | true, .recvwait _ buf len ans => k.recvChecked buf none len (socketRecvWait ans)
  | true, .recvsync _ buf len ans => k.recvChecked buf none len (socketRecvSync ans)
  | true, c => k.call c

/-- With a well-formed pool only a `NULL` upstream is followed. -/
theorem Session.callChecked_eq {k : Session} (h : k.kc.Represented k.cy) (c : Call) :
    k.callChecked true c = k.call c := by
  have hrecv : ∀ buf rc bufferSize f,
      k.recvChecked buf rc bufferSize f = ngxSocketRecvWith buf rc bufferSize f k := by
    intro buf rc bufferSize f
    unfold recvChecked
    cases hu : k.ctx.upstream with
    | none => simp [ngxSocketRecvWith, hu]
    | some u =>
      dsimp only [Option.bind_eq_bind, Option.bind_some]
      rw [socketRecvChecked_eq]
      rfl
  have hclear : ∀ readEvent, k.clearChecked readEvent = some () := by
    intro readEvent
    unfold clearChecked
    cases k.ctx.upstream with
    | none => rfl
    | some u =>
      dsimp only
      rw [socketClearChecked_eq]
      rfl
  cases c with
  | connect s type addr port ans =>
    unfold callChecked
    dsimp only
    split
    · rw [socketConnectChecked_eq (by exact h)]
      rfl
    · rfl
  | close s readEvent => simp only [callChecked, hclear, Option.bind_some]
  | clear s readEvent => simp only [callChecked, hclear, Option.bind_some]
  | send s buf len ans =>
    unfold callChecked
    dsimp only
    split
    · rfl
    · next hlen =>
      cases hu : k.ctx.upstream with
      | none => simp [call, ngxSocketSend, hlen, hu]
      | some u =>
        dsimp only [Option.bind_eq_bind, Option.bind_some]
        rw [socketSendChecked_eq ans (b := buf) rfl]
        rfl
  | recv s buf len ans => exact hrecv buf none len _
  | recvpage s buf rc bufferSize ans => exact hrecv buf (some rc) bufferSize _
  | recvwait s buf len ans => exact hrecv buf none len _
  | recvsync s buf len ans => exact hrecv buf none len _
  | _ => rfl

/-! ## Calls without a connection -/

/-- The upstream has a connection that has not been given up. -/
def Session.Connected (k : Session) : Prop :=
  ∃ u, k.ctx.upstream = some u ∧ u.peer.connection ≠ none ∧ u.holds ≠ none

/-- A session without the history variable `sender` and without the text in a variable of the
script. -/
def Session.visible (k : Session) : Session :=
  { k with ctx := { k.ctx with
    upstream := k.ctx.upstream.map fun u => { u with sender := none }
    recvText := [] } }

/-- The values `false` and `NGX_ERROR`. -/
def PhpValue.Refuses (v : PhpValue) : Prop := v = .bool false ∨ v = .int Rc.error.toInt

/-- A call follows no `NULL`; if it needs a connection and there is none, it refuses and leaves
the session as it was. -/
def Session.CallsSafely (k : Session) (moduleCtx : Bool) (c : Call) : Prop :=
  ∃ v k', k.callChecked moduleCtx c = some (v, k') ∧
    (c.transfers = true → ¬ (moduleCtx = true ∧ k.Connected) →
      v.Refuses ∧ k'.visible = k.visible)

/-- There is a connection, or the text to send is already in `u->request_bufs`. -/
def Session.ReadyToSend (k : Session) (buf : Bytes) : Prop :=
  ∃ u, k.ctx.upstream = some u ∧ (u.peer.connection ≠ none ∨ u.requestBufs = some buf)

/-- There is a connection, or what a receive sets first is already there. -/
def Session.ReadyToReceive (k : Session) (buf : ScriptVar) (rc : Option VarId)
    (bufferSize : Nat) : Prop :=
  ∃ u, k.ctx.upstream = some u ∧ (u.peer.connection ≠ none ∨
    (u.bufferSize = bufferSize ∧ k.ctx.recvBuf = some buf.id ∧
      (rc ≠ none → u.enabledReceivePage = true ∧ k.ctx.recvCode = rc)))

/-- The upstream is there where a call follows it, and without a connection it has what the call
would set. -/
def Session.Ready (k : Session) (moduleCtx : Bool) : Call → Prop
  | .iskeepalive => moduleCtx = true ∧ k.ctx.upstream ≠ none
  | .settimeout _ => moduleCtx = true → k.ctx.upstream ≠ none
  | .send _ buf len _ => moduleCtx = true → 0 ≤ len → k.ReadyToSend buf
  | .recv _ buf len _ => moduleCtx = true → k.ReadyToReceive buf none len
  | .recvpage _ buf rc bufferSize _ => moduleCtx = true →
      k.ReadyToReceive buf (some rc) bufferSize
  | .recvwait _ buf len _ => moduleCtx = true → k.ReadyToReceive buf none len
  | .recvsync _ buf len _ => moduleCtx = true → k.ReadyToReceive buf none len
  | _ => True

theorem socketSend_of_none (ans : SendAnswers) {t : Sock} (hc : t.u.peer.connection = none) :
    socketSend ans t = (.error, t) := by
  rw [socketSend, hc]

theorem recvThenAwait_of_none (ans : RecvAnswers) (register : Bool) {t : Sock}
    (hc : t.u.peer.connection = none) : recvThenAwait ans register t = (none, t) := by
  rw [recvThenAwait, hc]

namespace Session

variable {k : Session}

/-- Where no connection has been given up, there is one or the peer has none. -/
theorem OwnsPeer.connected_iff (hown : k.OwnsPeer) {u : Upstream} (hu : k.ctx.upstream = some u) :
    k.Connected ↔ u.peer.connection ≠ none := by
  have hown : u.peer.connection = none ∨ u.holds ≠ none := by
    simpa [OwnsPeer, view, hu, Upstream.OwnsPeer, sock] using hown
  constructor
  · rintro ⟨u', hu', hc, -⟩
    obtain rfl : u' = u := Option.some.inj (hu'.symm.trans hu)
    exact hc
  · exact fun hc => ⟨u, hu, hc, hown.resolve_left hc⟩

/-- With a connection the call has no more to say than its result. -/
theorem callsSafely_of_connected {c : Call} (hconn : k.Connected) {v : PhpValue} {k' : Session}
    (hres : k.callChecked true c = some (v, k')) : k.CallsSafely true c :=
  ⟨v, k', hres, fun _ hnot => absurd ⟨rfl, hconn⟩ hnot⟩

/-- Without a connection a call that refuses has to leave the session as it was. -/
theorem callsSafely_iff_of_not_connected {c : Call} (ht : c.transfers = true)
    (hconn : ¬ k.Connected) {v : PhpValue} {k' : Session} (hv : v.Refuses)
    (hres : k.callChecked true c = some (v, k')) :
    k.CallsSafely true c ↔ k'.visible = k.visible := by
  constructor
  · rintro ⟨v', k'', hres', hsafe⟩
    obtain ⟨rfl, rfl⟩ : v = v' ∧ k' = k'' := by simpa [hres] using hres'
    exact (hsafe ht fun h => hconn h.2).2
  · exact fun hsame => ⟨v, k', hres, fun _ _ => ⟨hv, hsame⟩⟩

/-- Without a connection a send leaves its text behind. -/
theorem send_callsSafely_iff (h : k.kc.Represented k.cy) (hown : k.OwnsPeer) (s : Resource)
    (buf : Bytes) (len : Int) (ans : SendAnswers) :
    k.CallsSafely true (.send s buf len ans) ↔ (0 ≤ len → k.ReadyToSend buf) := by
  by_cases hlen : len < 0
  · refine iff_of_true ⟨.bool false, k, ?_, fun _ _ => ⟨Or.inl rfl, rfl⟩⟩ fun h => by omega
    simp [callChecked, call, ngxSocketSend, hlen]
  · have hcall := callChecked_eq h (.send s buf len ans)
    rw [show k.call (.send s buf len ans) = ngxSocketSend s buf len ans k from rfl,
      ngxSocketSend, if_neg hlen] at hcall
    have hlen : 0 ≤ len := by omega
    cases hu : k.ctx.upstream with
    | none =>
      rw [hu] at hcall
      refine iff_of_false ?_ fun hr => ?_
      · rintro ⟨v, k', hres, -⟩
        rw [hcall] at hres
        cases hres
      · obtain ⟨u, hu', -⟩ := hr hlen
        rw [hu] at hu'
        cases hu'
    | some u =>
      have hconn := hown.connected_iff hu
      rw [hu] at hcall
      by_cases hc : u.peer.connection = none
      · have hsend := socketSend_of_none ans
          (t := k.sock { u with requestBufs := some buf, sender := some s }) hc
        simp only [Option.map_some, hsend] at hcall
        have hsame : (k.withSock (k.sock
            { u with requestBufs := some buf, sender := some s })).visible = k.visible ↔
            u.requestBufs = some buf := by
          simpa [visible, withSock, sock, hu] using eq_comm
        rw [callsSafely_iff_of_not_connected rfl (by simpa [hconn] using hc) (Or.inr rfl) hcall,
          hsame]
        simp [ReadyToSend, hu, hc, hlen]
      · refine iff_of_true ?_ fun _ => ⟨u, hu, Or.inl hc⟩
        exact callsSafely_of_connected (hconn.mpr hc) hcall

/-- Without a connection a receive leaves its buffer size and its variables behind. -/
theorem recv_callsSafely_iff (hown : k.OwnsPeer) {c : Call} {buf : ScriptVar} {rc : Option VarId}
    {bufferSize : Nat} {f : Sock → Int × Sock} (ht : c.transfers = true)
    (hcall : k.callChecked true c = ngxSocketRecvWith buf rc bufferSize f k)
    (hf : ∀ t : Sock, t.u.peer.connection = none → f t = (Rc.error.toInt, t)) :
    k.CallsSafely true c ↔ k.ReadyToReceive buf rc bufferSize := by
  unfold ngxSocketRecvWith at hcall
  cases hu : k.ctx.upstream with
  | none =>
    rw [hu] at hcall
    refine iff_of_false ?_ ?_
    · rintro ⟨v, k', hres, -⟩
      rw [hcall] at hres
      cases hres
    · rintro ⟨u, hu', -⟩
      rw [hu] at hu'
      cases hu'
  | some u =>
    have hconn := hown.connected_iff hu
    rw [hu] at hcall
    by_cases hc : u.peer.connection = none
    · have hrecv := hf (k.recvSock buf rc bufferSize u) hc
      simp only [Option.map_some, hrecv] at hcall
      have hsame : (k.withSock (k.recvSock buf rc bufferSize u)).visible = k.visible ↔
          u.bufferSize = bufferSize ∧ k.ctx.recvBuf = some buf.id ∧
            (rc ≠ none → u.enabledReceivePage = true ∧ k.ctx.recvCode = rc) := by
        simp only [visible, withSock, recvSock, sock, hu]
        simp only [Option.map_some, mk.injEq, Ctx.mk.injEq, Upstream.mk.injEq, Option.some.injEq,
          and_true, true_and]
        cases rc with
        | none =>
          constructor
          · rintro ⟨⟨hsize, -⟩, hvariable, -⟩
            exact ⟨hsize.symm, hvariable.symm, fun hrc => absurd rfl hrc⟩
          · rintro ⟨hsize, hvariable, -⟩
            exact ⟨⟨hsize.symm, rfl⟩, hvariable.symm, rfl⟩
        | some rc =>
          constructor
          · rintro ⟨⟨hsize, hpage⟩, hvariable, hcode⟩
            exact ⟨hsize.symm, hvariable.symm, fun _ => ⟨hpage.symm, hcode.symm⟩⟩
          · rintro ⟨hsize, hvariable, hpage⟩
            obtain ⟨hpage, hcode⟩ := hpage (Option.some_ne_none rc)
            exact ⟨⟨hsize.symm, hpage.symm⟩, hvariable.symm, hcode.symm⟩
      rw [callsSafely_iff_of_not_connected ht (by simpa [hconn] using hc) (Or.inr rfl) hcall,
        hsame]
      simp [ReadyToReceive, hu, hc]
    · refine iff_of_true ?_ ⟨u, hu, Or.inl hc⟩
      exact callsSafely_of_connected (hconn.mpr hc) hcall

/-- A call on a socket whose connection has not been given up is safe exactly when the upstream
is ready for it. -/
theorem callsSafely_iff (h : k.kc.Represented k.cy) (moduleCtx : Bool) {c : Call}
    (hsocket : c.onSocket = true) (hown : moduleCtx = true → c.transfers = true → k.OwnsPeer) :
    k.CallsSafely moduleCtx c ↔ k.Ready moduleCtx c := by
  have hfalse : ∀ c : Call, k.callChecked false c = some (.bool false, k) →
      k.CallsSafely false c :=
    fun c hres => ⟨_, _, hres, fun _ _ => ⟨Or.inl rfl, rfl⟩⟩
  have hsettled : ∀ c : Call, c.transfers = false →
      (k.CallsSafely true c ↔ k.call c ≠ none) := by
    intro c ht
    simp [CallsSafely, callChecked_eq h, ht, Option.ne_none_iff_exists']
  have hrecv : ∀ (c : Call) (f : Sock → Int × Sock) buf rc bufferSize,
      k.OwnsPeer → c.transfers = true → k.call c = ngxSocketRecvWith buf rc bufferSize f k →
      (∀ t : Sock, t.u.peer.connection = none → f t = (Rc.error.toInt, t)) →
      (k.CallsSafely true c ↔ (true = true → k.ReadyToReceive buf rc bufferSize)) := by
    intro c f buf rc bufferSize hown ht hcall hf
    rw [recv_callsSafely_iff hown ht ((callChecked_eq h c).trans hcall) hf]
    exact ⟨fun hready _ => hready, fun hready => hready rfl⟩
  cases moduleCtx with
  | false =>
    cases c with
    | sleep time => cases hsocket
    | msleep time => cases hsocket
    | iskeepalive => simp [CallsSafely, callChecked, Ready]
    | connect s type addr port ans => exact iff_of_true (hfalse _ rfl) trivial
    | close s readEvent => exact iff_of_true (hfalse _ rfl) trivial
    | clear s readEvent => exact iff_of_true (hfalse _ rfl) trivial
    | _ => exact iff_of_true (hfalse _ rfl) nofun
  | true =>
    cases c with
    | sleep time => cases hsocket
    | msleep time => cases hsocket
    | connect s type addr port ans => exact (hsettled _ rfl).trans (iff_of_true nofun trivial)
    | close s readEvent => exact (hsettled _ rfl).trans (iff_of_true nofun trivial)
    | clear s readEvent => exact (hsettled _ rfl).trans (iff_of_true nofun trivial)
    | settimeout timeout =>
      rw [hsettled _ rfl]
      simp [call, Ready, ngxSocketSettimeout]
    | iskeepalive =>
      rw [hsettled _ rfl]
      simp [call, Ready, ngxSocketIskeepalive]
    | send s buf len ans =>
      rw [send_callsSafely_iff h (hown rfl rfl)]
      simp only [Ready, forall_const]
    | recv s buf len ans =>
      refine hrecv _ (socketRecv ans) buf none len (hown rfl rfl) rfl rfl fun t hc => ?_
      rw [socketRecv, recvThenAwait_of_none _ _ hc]
    | recvpage s buf rc bufferSize ans =>
      refine hrecv _ (socketRecv ans) buf (some rc) bufferSize (hown rfl rfl) rfl rfl fun t hc => ?_
      rw [socketRecv, recvThenAwait_of_none _ _ hc]
    | recvwait s buf len ans =>
      refine hrecv _ (socketRecvWait ans) buf none len (hown rfl rfl) rfl rfl fun t hc => ?_
      rw [socketRecvWait, recvThenAwait_of_none _ _ hc]
    | recvsync s buf len ans =>
      refine hrecv _ (socketRecvSync ans) buf none len (hown rfl rfl) rfl rfl fun t hc => ?_
      rw [socketRecvSync, hc]

end Session

/-! ## Runs -/

/-- Property `P` of the socket call that a step makes, if it makes one. -/
def Worker.OnSocketCall (P : Session → Bool → Call → Prop) (w : Worker) : Step → Prop
  | .call r c => c.onSocket = true → (w.requests r).closed = false → w.cy.FreshCall c →
      P (w.session r) (w.requests r).moduleCtx c
  | _ => True

/-- A socket call is safe. -/
def Worker.CallsSafely (w : Worker) (l : Step) : Prop := w.OnSocketCall Session.CallsSafely l

/-- A socket call finds the upstream ready. -/
def Worker.CallsReady (w : Worker) (l : Step) : Prop := w.OnSocketCall Session.Ready l

/-- Neither a clear nor a call that needs a connection finds one that was given up before. -/
def Worker.KeepsToOwn (w : Worker) (l : Step) : Prop :=
  w.Tidy l ∧ w.OnSocketCall
    (fun k moduleCtx c => moduleCtx = true → c.transfers = true → k.OwnsPeer) l

/-- As long as no step works on a connection that was given up, the socket calls of all scripts
are safe exactly when each of them finds its upstream ready. -/
theorem socket_calls_safe_iff_ready (maxCached : SrvId → Nat) (srv : ReqId → SrvId)
    {ls : List Step} (hown : Along Worker.step Worker.KeepsToOwn (Worker.init maxCached srv) ls) :
    Along Worker.step Worker.CallsSafely (Worker.init maxCached srv) ls ↔
      Along Worker.step Worker.CallsReady (Worker.init maxCached srv) ls := by
  refine Along.iff_of_invariant (I := OwnInv) (fun w l h ht => h.step ht.1) ?_
    (ownInv_init maxCached srv) hown
  intro w l h ht
  cases l with
  | call r c =>
    have hiff := fun hsocket hclosed hfresh =>
      Session.callsSafely_iff (h.session r).represented (w.requests r).moduleCtx hsocket
        (ht.2 hsocket hclosed hfresh)
    exact forall_congr' fun hsocket => forall_congr' fun hclosed => forall_congr' fun hfresh =>
      hiff hsocket hclosed hfresh
  | _ => exact Iff.rfl

/-- A connect to an address, which opens connection 7. -/
def Call.dial : Call :=
  .connect 0 (some afInet) [] 80
    { parseUrl := .address [], retval := { connect := .established 7 } }

/-- A send on a connection that is there, and a look at the flag after the connection went to the
pool. -/
theorem socket_calls_safe_after_connect :
    Along Worker.step Worker.CallsSafely (Worker.init (fun _ => 1) fun _ => 0)
      [.call 0 .dial, .call 0 (.send 0 [104] 1 { sends := [.accepted 1] }),
        .call 0 (.clear 0 .ok), .call 0 .iskeepalive] := by
  refine (socket_calls_safe_iff_ready (fun _ => 1) (fun _ => 0) ?_).mpr ?_
  · refine ⟨⟨by decide, ?_⟩, ⟨by decide, ?_⟩, ⟨by decide, ?_⟩, ⟨by decide, ?_⟩, trivial⟩
    · exact fun _ _ _ _ _ => by decide
    · exact fun _ _ _ _ _ => by decide
    · exact fun _ _ _ _ _ => by decide
    · exact fun _ _ _ _ _ => by decide
  · refine ⟨fun _ _ _ => trivial, fun _ _ _ _ _ => ⟨_, rfl, Or.inl ?_⟩, fun _ _ _ => trivial,
      fun _ _ _ => ⟨rfl, ?_⟩, trivial⟩
    · decide
    · decide

/-- A look at the flag before the first connect follows a `NULL` upstream, and a send after the
connection went to the pool leaves its text in the socket. -/
theorem socket_calls_unsafe :
    ¬ Along Worker.step Worker.CallsSafely (Worker.init (fun _ => 1) fun _ => 0)
        [.call 0 .iskeepalive] ∧
      ¬ Along Worker.step Worker.CallsSafely (Worker.init (fun _ => 1) fun _ => 0)
        [.call 0 .dial, .call 0 (.clear 0 .ok), .call 0 (.send 0 [104] 1 { sends := [] })] := by
  constructor
  · rintro ⟨h, -⟩
    obtain ⟨v, k', hres, -⟩ := h rfl rfl trivial
    cases hres
  · rintro ⟨-, -, h, -⟩
    obtain ⟨v, k', hres, hsafe⟩ := h rfl rfl trivial
    have hsame := (hsafe rfl fun hconn => ?_).2
    · cases hres
      have hbufs := congrArg (fun k : Session => k.ctx.upstream.bind (·.requestBufs)) hsame
      revert hbufs
      decide
    · obtain ⟨-, u, hu, hc, -⟩ := hconn
      cases hu
      exact hc rfl

end NgxPhp
