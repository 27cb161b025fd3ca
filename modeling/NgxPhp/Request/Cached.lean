import NgxPhp.Lib.Machine
import NgxPhp.Request.Effect
import NgxPhp.Socket.Cached

/-!
# When `ngx_socket_iskeepalive` is accurate

One request makes calls and gets answers to its resolver queries; before each of these steps the
other requests may have left anything in the pool and among the connections. What the function
says after a connect is then right exactly when the connect found its connection in the pool or
none of the earlier connects of the request did.
-/

namespace NgxPhp

open StepMachine

/-- A step of one request that can matter to its connection. -/
inductive SocketStep
  | call (c : Call)
  | resolved (q : Query) (ans : ResolveAnswers)
  deriving DecidableEq, Repr

/-- A step, with the pool and the connections that the other requests have left for it. -/
structure Turn where
  step : SocketStep
  kc : KeepaliveConf
  cy : Cycle

/-- A request on its socket, with a history variable: a connect has found a connection in the
pool. -/
structure Dialer where
  session : Session
  reused : Bool := false

/-- The query is with the resolver. -/
def Session.awaits (k : Session) (q : Query) : Bool := decide (q ∈ k.view.u.queries)

/-- The address that a step connects to, if it does. -/
def Session.address (k : Session) : SocketStep → Option SockAddr
  | .call (.connect _ type _ port ans) => if type = some afInet then ans.address port else none
  | .call _ => none
  | .resolved q ans => if k.awaits q then ans.address k.view.u.resolved else none

/-- What a step does. -/
def Session.advance (k : Session) : SocketStep → Session
  | .call c =>
    match k.call c with
    | some (_, k') => k'
    -- the worker is gone
    | none => k
  | .resolved q ans => if k.awaits q then k.onSock fun t => t.resolved q ans else k

/-- The session as a turn finds it. -/
def Dialer.at (d : Dialer) (t : Turn) : Session := { d.session with kc := t.kc, cy := t.cy }

/-- The step of a turn finds a connection in the pool. -/
def Dialer.finds (d : Dialer) (t : Turn) : Bool := t.kc.found ((d.at t).address t.step)

def Dialer.turn (d : Dialer) (t : Turn) : Dialer where
  session := (d.at t).advance t.step
  reused := d.reused || d.finds t

/-! ## What a step did -/

/-- From `k` to `k'` connection `c` was taken out of the pool. -/
def Session.Takes (k k' : Session) (c : ConnId) : Prop :=
  ∃ new, k'.cy.acts = new ++ k.cy.acts ∧ some c ∈ new.map Act.taken?

/-- From `k` to `k'` connection `c` was opened. -/
def Session.Dials (k k' : Session) (c : ConnId) : Prop :=
  ∃ new s, k'.cy.acts = new ++ k.cy.acts ∧ .get k.r s c ∈ new

/-- A connect from `k` to `k'` has succeeded: the connection now in the peer is one that it has
opened or taken out of the pool. -/
def Session.Connects (k k' : Session) (c : ConnId) : Prop :=
  k'.view.u.peer.connection = some c ∧ (k.Takes k' c ∨ k.Dials k' c)

/-- After a successful connect `ngx_socket_iskeepalive` says whether it took the connection out of
the pool. -/
def Dialer.Accurate (d : Dialer) (t : Turn) : Prop :=
  ∀ c, (d.at t).address t.step ≠ none → (d.at t).Connects (d.turn t).session c →
    ∃ b, ngxSocketIskeepalive (d.turn t).session = some (.bool b, (d.turn t).session) ∧
      (b = true ↔ (d.at t).Takes (d.turn t).session c)

/-- A connect that succeeds finds its connection in the pool, or no earlier one of the request
did. -/
def Dialer.Distinct (d : Dialer) (t : Turn) : Prop :=
  ∀ c, (d.at t).address t.step ≠ none → (d.at t).Connects (d.turn t).session c →
    d.finds t = true ∨ d.reused = false

/-! ## One turn -/

namespace Session

variable {k : Session}

/-- A connect of the socket is one of the session. -/
theorem withSock_flags {t t' : Sock} {hit : Bool} (h : t.Flags t' hit) (hr : t.r = k.r)
    (hcached : t.u.peer.cached = k.view.u.peer.cached) (hcy : t.cy = k.cy) :
    k.view.Flags (k.withSock t').view hit := by
  rw [view_withSock (h.r.trans hr)]
  refine ⟨h.r.trans hr, by rw [h.cached, hcached], ?_⟩
  obtain ⟨new, hnew, htaken⟩ := h.acts
  exact ⟨new, by rw [hnew, hcy]; rfl, htaken⟩

theorem connect_flags {type : Option Int} (htype : type = some afInet) (s : Resource)
    (addr : Bytes) (port : Nat) (ans : ConnectAnswers) :
    k.view.Flags (k.advance (.call (.connect s type addr port ans))).view
      (k.kc.found (ans.address port)) := by
  have hf := socketConnect_flags ans s port
    (({ k with ctx := { k.ctx with host := addr, port } } : Session).sock
      (k.ctx.upstream.getD { request := k.r }))
  rw [advance, call, ngxSocketConnect, if_pos htype]
  exact withSock_flags (k := { k with ctx := { k.ctx with host := addr, port } }) hf rfl rfl rfl

theorem resolved_flags {q : Query} (hq : k.awaits q = true) (ans : ResolveAnswers) :
    k.view.Flags (k.advance (.resolved q ans)).view
      (k.kc.found (ans.address k.view.u.resolved)) := by
  cases hu : k.ctx.upstream with
  | none => simp [awaits, view, hu, sock] at hq
  | some u =>
    have hf : k.view.Flags (k.view.resolved q ans) (k.kc.found (ans.address k.view.u.resolved)) :=
      (resolveHandler_flags ans q.resource (k.view.onUpstream fun u => { u with
        queries := u.queries.erase q })).of_onUpstream rfl
    have hadvance : k.advance (.resolved q ans) = k.withSock (k.view.resolved q ans) := by
      rw [advance, if_pos hq, onSock, view_of_upstream hu, hu]
    rw [hadvance]
    exact withSock_flags hf rfl rfl rfl

/-- A step that may connect adds to the flag whether the pool has a slot. -/
theorem advance_flags (k : Session) {l : SocketStep} (hl : k.address l ≠ none) :
    k.view.Flags (k.advance l).view (k.kc.found (k.address l)) := by
  cases l with
  | call c =>
    cases c with
    | connect s type addr port ans =>
      by_cases htype : type = some afInet
      · rw [show k.address (.call (.connect s type addr port ans)) = _ from if_pos htype]
        exact connect_flags htype s addr port ans
      · exact absurd (if_neg htype) hl
    | _ => exact absurd rfl hl
  | resolved q ans =>
    by_cases hq : k.awaits q
    · rw [show k.address (.resolved q ans) = _ from if_pos hq]
      exact resolved_flags hq ans
    · exact absurd (if_neg hq) hl

theorem recvWith_cached {f : Sock → Int × Sock} (hf : ∀ t : Sock, t.Quiet (f t).2)
    {buf : ScriptVar} {rc : Option VarId} {bufferSize : Nat} {v : PhpValue} {k' : Session}
    (h : ngxSocketRecvWith buf rc bufferSize f k = some (v, k')) :
    k'.view.u.peer.cached = k.view.u.peer.cached := by
  obtain ⟨u, hu, hres⟩ := Option.map_eq_some_iff.mp h
  cases hres
  rw [view_of_upstream hu]
  exact congrArg PeerConnection.cached (hf _).peer

/-- A call that does not connect keeps the flag. -/
theorem call_cached {c : Call} (hc : ∀ s type addr port ans, c ≠ .connect s type addr port ans)
    {v : PhpValue} {k' : Session} (h : k.call c = some (v, k')) :
    k'.view.u.peer.cached = k.view.u.peer.cached := by
  have hclear : ∀ readEvent, (k.clear readEvent).view.u.peer.cached = k.view.u.peer.cached := by
    intro readEvent
    unfold clear
    cases hu : k.ctx.upstream with
    | none => rfl
    | some u =>
      rw [view_of_upstream hu]
      exact socketClear_cached readEvent _
  cases c with
  | sleep time =>
    cases h
    rfl
  | msleep time =>
    cases h
    rfl
  | connect s type addr port ans => exact absurd rfl (hc s type addr port ans)
  | close s readEvent =>
    cases h
    unfold close
    cases hu : k.ctx.upstream with
    | none => rfl
    | some u =>
      dsimp only
      split
      · rfl
      · rw [view_of_upstream hu]
        exact socketClear_cached readEvent _
  | clear s readEvent =>
    cases h
    exact hclear readEvent
  | send s buf len ans =>
    unfold call ngxSocketSend at h
    dsimp only at h
    split at h
    · cases h
      rfl
    · obtain ⟨u, hu, hres⟩ := Option.map_eq_some_iff.mp h
      cases hres
      rw [view_of_upstream hu]
      exact congrArg PeerConnection.cached (socketSend_quiet ans _).peer
  | recv s buf len ans =>
    exact recvWith_cached (fun t => (socketRecv_recvLeaves ans t).quiet) h
  | recvpage s buf rc bufferSize ans =>
    exact recvWith_cached (fun t => (socketRecv_recvLeaves ans t).quiet) h
  | recvwait s buf len ans =>
    exact recvWith_cached (fun t => (socketRecvWait_recvLeaves ans t).quiet) h
  | recvsync s buf len ans =>
    exact recvWith_cached (fun t => (socketRecvSync_recvLeaves ans t).quiet) h
  | settimeout timeout =>
    obtain ⟨u, hu, hres⟩ := Option.map_eq_some_iff.mp h
    cases hres
    rw [view_of_upstream hu]
    rfl
  | iskeepalive =>
    obtain ⟨u, -, hres⟩ := Option.map_eq_some_iff.mp h
    cases hres
    rfl

/-- Only steps that connect change the flag. -/
theorem advance_cached (k : Session) (l : SocketStep) :
    (k.advance l).view.u.peer.cached =
      (k.view.u.peer.cached || k.kc.found (k.address l)) := by
  by_cases hl : k.address l = none
  · rw [hl, KeepaliveConf.found, Option.any_none, Bool.or_false]
    cases l with
    | call c =>
      by_cases hc : ∀ s type addr port ans, c ≠ .connect s type addr port ans
      · unfold advance
        dsimp only
        split
        · next h => exact call_cached hc h
        · rfl
      · push Not at hc
        obtain ⟨s, type, addr, port, ans, rfl⟩ := hc
        by_cases htype : type = some afInet
        · have haddr : ans.address port = none := (if_pos htype).symm.trans hl
          rw [(connect_flags htype s addr port ans).cached, haddr, KeepaliveConf.found,
            Option.any_none, Bool.or_false]
        · rw [advance, call, ngxSocketConnect, if_neg htype]
    | resolved q ans =>
      by_cases hq : k.awaits q
      · have haddr : ans.address k.view.u.resolved = none := (if_pos hq).symm.trans hl
        rw [(resolved_flags hq ans).cached, haddr, KeepaliveConf.found, Option.any_none,
          Bool.or_false]
      · rw [advance, if_neg hq]
  · exact (k.advance_flags hl).cached

end Session

/-! ## Runs -/

namespace Dialer

/-- The flag says whether an earlier connect found a connection in the pool. -/
theorem turn_cached {d : Dialer} (h : d.session.view.u.peer.cached = d.reused) (t : Turn) :
    (d.turn t).session.view.u.peer.cached = (d.turn t).reused := by
  have hadvance := (d.at t).advance_cached t.step
  rw [show (d.at t).view.u.peer.cached = d.reused from h] at hadvance
  exact hadvance

/-- The function is accurate after a turn exactly when the flag was not set by an earlier one. -/
theorem accurate_iff {d : Dialer} (h : d.session.view.u.peer.cached = d.reused) (t : Turn) :
    d.Accurate t ↔ d.Distinct t := by
  refine forall_congr' fun c => forall_congr' fun hl => forall_congr' fun hconn => ?_
  have hf := (d.at t).advance_flags hl
  have hcached := d.turn_cached h t
  have htakes : (d.at t).Takes (d.turn t).session c ↔ d.finds t = true := by
    obtain ⟨new, hnew, htaken⟩ := hf.acts
    refine Iff.trans ?_ (htaken c hconn.1)
    constructor
    · rintro ⟨new', hnew', hmem⟩
      exact List.append_cancel_right (hnew'.symm.trans hnew) ▸ hmem
    · exact fun hmem => ⟨new, hnew, hmem⟩
  cases hu : (d.turn t).session.ctx.upstream with
  | none => simp [Session.Connects, Session.view, Session.sock, hu] at hconn
  | some u =>
    rw [Session.view_of_upstream hu] at hcached
    have hu' : u.peer.cached = (d.reused || d.finds t) := hcached
    rw [htakes, ngxSocketIskeepalive, hu, Option.map_some, hu']
    cases d.reused <;> cases d.finds t <;> simp

end Dialer

/-- Over every sequence of calls of a request, `ngx_socket_iskeepalive` is accurate after every
successful connect exactly when each of them finds its connection in the pool or comes before any
that does. -/
theorem iskeepalive_accurate_iff (r : ReqId) (kc : KeepaliveConf) (cy : Cycle) (ts : List Turn) :
    Along Dialer.turn Dialer.Accurate { session := { r, ctx := {}, kc, cy } } ts ↔
      Along Dialer.turn Dialer.Distinct { session := { r, ctx := {}, kc, cy } } ts :=
  along_iff_of_invariant (fun _ t h _ => Dialer.turn_cached h t)
    (fun _ t h => Dialer.accurate_iff h t) rfl ts

/-- A connect that is served from the pool, a clear, and a connect to another server that opens
connection 7. -/
def Turn.reuseThenDial : List Turn :=
  [⟨.call (.connect 0 (some afInet) [] 80
      { parseUrl := .address [1], retval := { connect := .refused false } }),
      (keepaliveInit 0 1).store 0 3 [1], .init⟩,
    ⟨.call (.clear 0 .ok), keepaliveInit 0 1, .init⟩,
    ⟨.call (.connect 0 (some afInet) [] 80
      { parseUrl := .address [2], retval := { connect := .established 7 } }),
      keepaliveInit 0 1, .init⟩]

/-- After them `ngx_socket_iskeepalive` returns true on the new connection. -/
theorem iskeepalive_inaccurate :
    ¬ Along Dialer.turn Dialer.Accurate
      { session := { r := 0, ctx := {}, kc := keepaliveInit 0 1, cy := .init } }
      Turn.reuseThenDial := by
  rintro ⟨-, -, h, -⟩
  obtain ⟨b, hb, htakes⟩ := h 7 (by decide) ⟨by decide, Or.inr ⟨[.get 0 0 7], 0, rfl, by decide⟩⟩
  cases hb
  obtain ⟨new, hnew, hmem⟩ := htakes.mp (by decide)
  obtain rfl : [Act.get 0 0 7] = new := List.append_cancel_right hnew
  simp [Act.taken?] at hmem

end NgxPhp
