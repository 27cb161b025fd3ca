import NgxPhp.Request.Worker
import NgxPhp.Socket.Ownership

/-!
# What a step of a request does to its connections

Every library call and every event of a request either transfers on the current
connection, or connects, or clears. Stated once for each kind of step, so that
what a run preserves follows from what these three do.
-/

namespace NgxPhp

/-- The socket of a session; before the first connect it is one that holds nothing. -/
def Session.view (k : Session) : Sock := k.sock (k.ctx.upstream.getD { request := k.r })

/-- A clear of this session finds a connection of its own or none. -/
def Session.OwnsPeer (k : Session) : Prop := k.view.u.OwnsPeer

instance Session.decidableOwnsPeer (k : Session) : Decidable k.OwnsPeer :=
  inferInstanceAs (Decidable (Upstream.OwnsPeer _))

/-- What a call does to the connections, by the kind of the call. -/
def Call.Effect (c : Call) (k k' : Sock) : Prop :=
  match c with
  | .connect s _ _ _ _ => k.Opens s k'
  | .close _ _ => k.Releases k'
  | .clear _ _ => k.Releases k'
  | _ => k.Quiet k'

/-- The calls that clear the socket. -/
def Call.clears : Call → Bool
  | .close _ _ => true
  | .clear _ _ => true
  | _ => false

/-- The calls that give the upstream another connection or none. -/
def Call.replaces : Call → Bool
  | .connect _ _ _ _ _ => true
  | .close _ _ => true
  | .clear _ _ => true
  | _ => false

/-- Fields after a clear that do not matter to ownership. -/
theorem Sock.Releases.trans_keeps {k k' k'' : Sock} (h : k.Releases k') (g : k'.Keeps k'') :
    k.Releases k'' := by
  have hnone : k'.u.holds = none → k''.u.holds = none := by
    intro hn
    rcases g.holds with hg | ⟨_, hg⟩
    · rw [hg, hn]
    · exact hg
  cases h with
  | keeps h => exact .keeps (h.trans g)
  | closes s c hown h hholds =>
    refine .closes s c hown ⟨g.r.trans h.r, g.kc.trans h.kc, g.connection.trans h.connection,
      ?_, ?_, ?_⟩ (hnone hholds)
    · rw [g.cy]
      exact h.acts
    · rw [g.cy]
      exact h.same
    · rw [g.cy]
      exact h.isOpen
  | pools s c out hown h hholds =>
    refine .pools s c out hown ⟨g.r.trans h.r, g.connection.trans h.connection, ?_, ?_, h.held,
      ?_, ?_, ?_, ?_⟩ (hnone hholds)
    · rw [g.kc]
      exact h.id
    · rw [g.kc, g.cy]
      exact h.represented
    · rw [g.kc]
      exact h.pool
    · rw [g.cy]
      exact h.acts
    · rw [g.cy]
      exact h.same
    · rw [g.cy]
      exact h.isOpen

/-- Transfers do not touch what a clear would close. -/
theorem Sock.Quiet.ownsPeer_iff {k k' : Session} (h : k.view.Quiet k'.view) :
    k'.OwnsPeer ↔ k.OwnsPeer := by
  unfold Session.OwnsPeer Upstream.OwnsPeer
  rw [h.peer, h.holds]

/-- Every kind of call keeps the invariant. -/
theorem Sock.Good.call {pools : SrvId → KeepaliveConf} {c : Call} {k k' : Sock}
    (h : k.Good pools) (he : c.Effect k k') : k.Moves pools k' := by
  cases c with
  | connect => exact h.opens he
  | close => exact h.releases he
  | clear => exact h.releases he
  | _ => exact h.quiet he

/-! ## The upstreams of a worker -/

/-- The request that wrote its session back. -/
theorem Worker.upstream_withSession {w : Worker} {r : ReqId} {k : Session} (hr : k.r = r) :
    ((w.withSession r k).session r).view.u = k.view.u := by
  subst hr
  simp only [Worker.session, Worker.withSession_self]
  rfl

/-- What one request does leaves the upstreams of the others alone. -/
theorem Worker.upstream_withSession_of_ne (w : Worker) {r r' : ReqId} (k : Session)
    (hr : r' ≠ r) : ((w.withSession r k).session r').view.u = (w.session r').view.u := by
  simp only [Worker.session, Worker.withSession_of_ne w k hr]
  rfl

/-- A change elsewhere in a request leaves its upstream alone. -/
theorem Worker.upstream_onRequest {w : Worker} {r r' : ReqId} {f : Request → Request}
    (hf : (f (w.requests r)).ctx.upstream = (w.requests r).ctx.upstream) :
    ((w.onRequest r f).session r').view.u = (w.session r').view.u := by
  by_cases hr : r' = r
  · subst hr
    simp only [Worker.session, Session.view, Session.sock, Worker.onRequest_self, hf]
  · simp only [Worker.session, Session.view, Session.sock, Worker.onRequest_of_ne w f hr]

namespace Session

variable {pools : SrvId → KeepaliveConf} {k k' : Session}

/-- The view of a session is its upstream, if it has one. -/
theorem view_of_upstream {u : Upstream} (hu : k.ctx.upstream = some u) : k.view = k.sock u := by
  rw [view, hu]
  rfl

/-- A session has the socket that it was given. -/
theorem view_withSock {t : Sock} (hr : t.r = k.r) : (k.withSock t).view = t := by
  cases t
  cases hr
  rfl

/-- Fields of the ctx other than the upstream. -/
theorem keeps_ctx (k : Session) {ctx : Ctx} {b : Bool} (hu : ctx.upstream = k.ctx.upstream) :
    k.view.Keeps (Session.view { k with ctx, sleepCleanup := b }) := by
  simp only [view, sock, hu]
  exact ⟨rfl, rfl, rfl, rfl, Or.inl rfl⟩

/-- A change of the ctx that leaves its upstream alone is quiet. -/
theorem quiet_ctx (k : Session) {ctx : Ctx} {b : Bool} (hu : ctx.upstream = k.ctx.upstream) :
    k.view.Quiet (Session.view { k with ctx, sleepCleanup := b }) := by
  simp only [view, sock, hu]
  exact .of_cy rfl rfl rfl rfl rfl

/-- A socket function that only transfers, after fields of the upstream were set. -/
theorem quiet_withSock {u : Upstream} (hu : k.ctx.upstream = some u) {t t' : Sock}
    (hq : t.Quiet t') (hr : t.r = k.r) (hkc : t.kc = k.kc) (hcy : t.cy = k.cy)
    (hp : t.u.peer = u.peer) (hh : t.u.holds = u.holds) :
    k.view.Quiet (k.withSock t').view := by
  have hset : (k.sock u).Quiet t := .of_cy hr hkc hp hh hcy
  have h := hset.trans hq
  rw [view_of_upstream hu, view_withSock h.r]
  exact h

/-- A receive of a session makes transfers only. -/
theorem quiet_recvWith {buf : ScriptVar} {rc : Option VarId} {bufferSize : Nat}
    {f : Sock → Int × Sock} (hf : ∀ t : Sock, t.Quiet (f t).2) {v : PhpValue}
    (hres : ngxSocketRecvWith buf rc bufferSize f k = some (v, k')) : k.view.Quiet k'.view := by
  unfold ngxSocketRecvWith at hres
  obtain ⟨u, hu, hres⟩ := Option.map_eq_some_iff.mp hres
  obtain ⟨rfl, rfl⟩ := Prod.mk.inj hres
  exact quiet_withSock hu (hf _) rfl rfl rfl rfl rfl

/-- A clear of its own connection releases it. -/
theorem clear_releases (h : k.view.Good pools) (readEvent : Rc) (hown : k.OwnsPeer) :
    k.view.Releases (k.clear readEvent).view := by
  unfold clear
  split
  · exact .keeps (.refl _)
  · next u hu =>
    rw [OwnsPeer] at hown
    rw [view_of_upstream hu] at h hown ⊢
    have hrel := h.clear_releases readEvent hown
    rw [view_withSock]
    · exact hrel
    · cases hrel with
      | keeps h => exact h.r
      | closes _ _ _ h => exact h.r
      | pools _ _ _ _ h => exact h.r

/-- A close without a connection does nothing, any other one clears and sleeps for no time. -/
theorem close_cases (k : Session) (readEvent : Rc) :
    (k.close readEvent = k ∧ k.view.u.peer.connection = none) ∨
      k.close readEvent = ngxHttpPhpSleep { k.clear readEvent with
        ctx := { (k.clear readEvent).ctx with delayTime := 0 } } := by
  unfold close clear
  cases hu : k.ctx.upstream with
  | none => exact Or.inl ⟨rfl, by simp [view, sock, hu]⟩
  | some u =>
    dsimp only
    cases hc : u.peer.connection with
    | none => exact Or.inl ⟨rfl, by rw [view_of_upstream hu]; exact hc⟩
    | some c => exact Or.inr rfl

/-- A close of its own connection releases it. -/
theorem close_releases (h : k.view.Good pools) (readEvent : Rc) (hown : k.OwnsPeer) :
    k.view.Releases (k.close readEvent).view := by
  rcases k.close_cases readEvent with ⟨hres, _⟩ | hres
  · rw [hres]
    exact .keeps (.refl _)
  · rw [hres]
    exact (clear_releases h readEvent hown).trans_keeps (keeps_ctx (k.clear readEvent) rfl)

/-- A connect of a session opens at most one connection. -/
theorem connect_opens (hrep : k.kc.Represented k.cy) (s : Resource) (type : Option Int)
    (addr : Bytes) (port : Nat) (ans : ConnectAnswers) (hfresh : k.cy.Fresh ans.conn?) :
    k.view.Opens s (ngxSocketConnect s type addr port ans k).2.view := by
  unfold ngxSocketConnect
  split
  · have ho := socketConnect_opens (k := k.view) hrep ans s port hfresh
    dsimp only
    rw [view_withSock]
    · exact ho
    · cases ho with
      | keeps h => exact h.r
      | fails _ h => exact h.r
      | stores _ h => exact h.r
  · exact .keeps (.refl _)

/-- A clear of a connection that has been given up breaks the law. -/
theorem clear_unlawful (h : k.view.Good pools) (readEvent : Rc) (hown : ¬ k.OwnsPeer) :
    ¬ Lawful (k.clear readEvent).cy.acts := by
  unfold clear
  split
  · next hu => exact absurd (Or.inl (by simp [view, sock, hu])) hown
  · next u hu =>
    rw [OwnsPeer] at hown
    rw [view_of_upstream hu] at h hown
    exact h.clear_unlawful readEvent hown

/-- A close of a connection that was given up closes one of somebody else. -/
theorem close_unlawful (h : k.view.Good pools) (readEvent : Rc) (hown : ¬ k.OwnsPeer) :
    ¬ Lawful (k.close readEvent).cy.acts := by
  rcases k.close_cases readEvent with ⟨_, hc⟩ | hres
  · exact absurd (Or.inl hc) hown
  · rw [hres]
    exact clear_unlawful h readEvent hown

/-- Calls that neither connect nor clear only transfer. -/
theorem call_quiet {c : Call} {v : PhpValue} (hres : k.call c = some (v, k'))
    (hc : c.replaces = false) : k.view.Quiet k'.view := by
  cases c with
  | sleep time =>
    obtain ⟨rfl, rfl⟩ := Prod.mk.inj (Option.some.inj hres)
    exact quiet_ctx k rfl
  | msleep time =>
    obtain ⟨rfl, rfl⟩ := Prod.mk.inj (Option.some.inj hres)
    exact quiet_ctx k rfl
  | send s buf len ans =>
    simp only [call, ngxSocketSend] at hres
    split at hres
    · obtain ⟨rfl, rfl⟩ := Prod.mk.inj (Option.some.inj hres)
      exact .refl _
    · obtain ⟨u, hu, hres⟩ := Option.map_eq_some_iff.mp hres
      obtain ⟨rfl, rfl⟩ := Prod.mk.inj hres
      exact quiet_withSock hu (socketSend_quiet ans _) rfl rfl rfl rfl rfl
  | recv s buf len ans =>
    exact quiet_recvWith (fun k => (socketRecv_recvLeaves ans k).quiet) hres
  | recvpage s buf rc bufferSize ans =>
    exact quiet_recvWith (fun k => (socketRecv_recvLeaves ans k).quiet) hres
  | recvwait s buf len ans =>
    exact quiet_recvWith (fun k => (socketRecvWait_recvLeaves ans k).quiet) hres
  | recvsync s buf len ans =>
    exact quiet_recvWith (fun k => (socketRecvSync_recvLeaves ans k).quiet) hres
  | settimeout timeout =>
    obtain ⟨u, hu, hres⟩ := Option.map_eq_some_iff.mp hres
    obtain ⟨rfl, rfl⟩ := Prod.mk.inj hres
    rw [view_of_upstream hu, view_of_upstream rfl]
    exact .of_cy rfl rfl rfl rfl rfl
  | iskeepalive =>
    obtain ⟨u, hu, hres⟩ := Option.map_eq_some_iff.mp hres
    obtain ⟨rfl, rfl⟩ := Prod.mk.inj hres
    exact .refl _
  | connect => cases hc
  | close => cases hc
  | clear => cases hc

/-- What every library call does to the connections. -/
theorem call_effect (h : k.view.Good pools) {c : Call} (hfresh : k.cy.FreshCall c)
    (hown : c.clears = true → k.OwnsPeer) {v : PhpValue} (hres : k.call c = some (v, k')) :
    c.Effect k.view k'.view := by
  cases c with
  | connect s type addr port ans =>
    obtain rfl : (ngxSocketConnect s type addr port ans k).2 = k' :=
      congrArg Prod.snd (Option.some.inj hres)
    exact connect_opens h.represented s type addr port ans hfresh
  | close s readEvent =>
    obtain ⟨rfl, rfl⟩ := Prod.mk.inj (Option.some.inj hres)
    exact close_releases h readEvent (hown rfl)
  | clear s readEvent =>
    obtain ⟨rfl, rfl⟩ := Prod.mk.inj (Option.some.inj hres)
    exact clear_releases h readEvent (hown rfl)
  | _ => exact call_quiet hres rfl

/-- The resolver's answer is a connect for the resource of the query. -/
theorem resolved_opens (hrep : k.kc.Represented k.cy) (q : Query) (ans : ResolveAnswers)
    (hfresh : k.cy.Fresh ans.retval.conn?) :
    k.view.Opens q.resource (k.onSock fun t => t.resolved q ans).view := by
  unfold onSock
  split
  · exact .keeps (.refl _)
  · next u hu =>
    have herase : (k.sock u).Keeps
        ((k.sock u).onUpstream fun u => { u with queries := u.queries.erase q }) :=
      .onUpstream _ rfl rfl
    have ho : (k.sock u).Opens q.resource ((k.sock u).resolved q ans) :=
      herase.trans_opens (resolveHandler_opens hrep ans q.resource hfresh)
    rw [view_of_upstream hu, view_withSock]
    · exact ho
    · cases ho with
      | keeps h => exact h.r
      | fails _ h => exact h.r
      | stores _ h => exact h.r

/-- The handler of a direction transfers. -/
theorem handleEvent_quiet (k : Session) (write : Bool) (ans : HandlerAnswers) :
    k.view.Quiet (k.onSock fun t => t.handleEvent write ans).view := by
  unfold onSock
  split
  · exact .refl _
  · next u hu =>
    exact quiet_withSock hu (NgxPhp.handleEvent_quiet (k.sock u) write ans) rfl rfl rfl rfl rfl

@[simp] theorem onSock_generatorClosure (k : Session) (f : Sock → Sock) :
    (k.onSock f).ctx.generatorClosure = k.ctx.generatorClosure := by
  unfold onSock
  split <;> rfl

/-- A resume that finds a generator leaves the socket to the script. -/
theorem resumeWithout_of_closure (hg : k.ctx.generatorClosure ≠ none) (readEvent : Rc) :
    k.resumeWithout readEvent = k := by
  unfold resumeWithout
  split
  · next hnone => exact absurd hnone hg
  · rfl

/-- A resume that finds no generator clears, any other leaves the socket to the script. -/
theorem resumeWithout_releases (h : k.view.Good pools) (readEvent : Rc)
    (hown : k.ctx.generatorClosure = none → k.OwnsPeer) :
    k.view.Releases (k.resumeWithout readEvent).view := by
  unfold resumeWithout
  split
  · next hg => exact clear_releases h readEvent (hown hg)
  · exact .keeps (.refl _)

/-- Without a resume that clears only the handler runs. -/
theorem socketHandler_of_resumes {moduleCtx : Bool}
    (h : moduleCtx = true → k.ctx.generatorClosure ≠ none) (write : Bool) (ans : HandlerAnswers)
    (readEvent : Rc) :
    k.socketHandler moduleCtx write ans readEvent = k.onSock fun t => t.handleEvent write ans := by
  unfold socketHandler
  dsimp only
  split
  · next hctx => exact resumeWithout_of_closure (by simpa using h hctx) readEvent
  · rfl

/-- A resume without a generator clears, and so gives up what is not its own. -/
theorem resumeWithout_unlawful (h : k.view.Good pools) (readEvent : Rc)
    (hg : k.ctx.generatorClosure = none) (hown : ¬ k.OwnsPeer) :
    ¬ Lawful (k.resumeWithout readEvent).cy.acts := by
  rw [resumeWithout, hg]
  exact clear_unlawful h readEvent hown

/-- The handler of a connection event transfers, then its resume may clear. -/
theorem socketHandler_effect (h : k.view.Good pools) (moduleCtx write : Bool)
    (ans : HandlerAnswers) (readEvent : Rc)
    (hown : moduleCtx = true → k.ctx.generatorClosure = none → k.OwnsPeer) :
    k.view.Moves pools (k.onSock fun t => t.handleEvent write ans).view ∧
      (k.onSock fun t => t.handleEvent write ans).view.Releases
        (k.socketHandler moduleCtx write ans readEvent).view := by
  have hq := handleEvent_quiet k write ans
  have hm := h.quiet hq
  refine ⟨hm, ?_⟩
  unfold socketHandler
  dsimp only
  split
  · next hctx =>
    refine resumeWithout_releases hm.good readEvent fun hg => ?_
    rw [onSock_generatorClosure] at hg
    exact hq.ownsPeer_iff.mpr (hown hctx hg)
  · exact .keeps (.refl _)

/-- The sleep timer releases the connection at most, by a resume without a generator. -/
theorem sleepTimer_releases (h : k.view.Good pools) (readEvent : Rc)
    (hown : k.ctx.generatorClosure = none → k.OwnsPeer) :
    k.view.Releases (k.sleepTimer readEvent).view := by
  have hwake : k.view.Moves pools (Session.view { k with ctx := k.ctx.wakeSleep }) :=
    h.quiet (quiet_ctx k rfl)
  exact resumeWithout_releases (k := { k with ctx := k.ctx.wakeSleep }) hwake.good readEvent hown

end Session

end NgxPhp
