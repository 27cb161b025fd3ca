import NgxPhp.Request.Connect
import NgxPhp.Request.Ownership

/-!
# What outlives a request

The sleep timer lives in the ctx and its cleanup needs the ctx; the sockets have
no cleanup. So a closed request leaves nothing behind if no timer was armed when
its ctx was taken away, and if its connection was finalized and never replaced
by a later connect.
-/

namespace NgxPhp

open StepMachine

/-- Everything that the request owns is the connection of its peer. -/
def Sock.Sole (k : Sock) : Prop := ∀ c s, owner k.cy.acts c = .request k.r s →
  k.u.peer.connection = some c ∧ k.u.holds ≠ none

/-- A connect that records nothing leaves the connection as it was. -/
theorem Sock.Opens.keeps_of_acts {k k' : Sock} {s : Resource} (h : k.Opens s k')
    (hacts : k'.cy.acts = k.cy.acts) : k.Keeps k' := by
  cases h with
  | keeps hk => exact hk
  | fails c hf =>
    have hlen := congrArg List.length (hf.acts.symm.trans hacts)
    simp only [List.length_cons] at hlen
    omega
  | stores c hs =>
    have hlen := congrArg List.length hacts
    obtain ⟨new, _, ha | ha⟩ := hs.acts <;> rw [ha] at hlen <;> simp at hlen <;> omega

/-- What is not held stays so. -/
theorem Sock.Keeps.holds_none {k k' : Sock} (h : k.Keeps k') (hnone : k.u.holds = none) :
    k'.u.holds = none := by
  rcases h.holds with hholds | ⟨_, hholds⟩
  · rw [hholds, hnone]
  · exact hholds

namespace Sock.Sole

variable {k k' : Sock}

/-- Transfers leave the only connection of a request its only one. -/
theorem quiet (h : k.Sole) (hq : k.Quiet k') : k'.Sole := by
  intro c s ho
  have howner : owner k'.cy.acts c = owner k.cy.acts c := by
    have hc := hq.cycle
    cases hcon : k.u.peer.connection with
    | none =>
      simp only [hcon] at hc
      rw [hc]
    | some d =>
      simp only [hcon] at hc
      exact hc.owner_eq c
  rw [howner, hq.r] at ho
  rw [hq.peer, hq.holds]
  exact h c s ho

/-- A connect that stores nothing leaves the only connection of a request its only one. -/
theorem keeps (h : k.Sole) (hk : k.Keeps k') : k'.Sole := by
  intro c s ho
  rw [hk.cy, hk.r] at ho
  obtain ⟨hc, hn⟩ := h c s ho
  refine ⟨hk.connection.trans hc, ?_⟩
  rcases hk.holds with hh | ⟨hnone, _⟩
  · rw [hh]
    exact hn
  · simp [hc] at hnone

/-- A connect, if nothing was held or nothing was recorded. -/
theorem opens (h : k.Sole) {s : Resource} (ho : k.Opens s k')
    (hfree : k.u.holds = none ∨ k'.cy.acts = k.cy.acts) : k'.Sole := by
  rcases hfree with hnone | hacts
  · cases ho with
    | keeps hk => exact h.keeps hk
    | fails c hf =>
      intro d t hd
      rw [hf.acts, hf.r] at hd
      by_cases hdc : c = d
      · simp [owner, hdc] at hd
      · simp only [owner, if_neg hdc] at hd
        exact absurd hnone (h d t hd).2
    | stores c hs =>
      intro d t hd
      rw [hs.owner_eq, hs.r] at hd
      by_cases hdc : c = d
      · exact ⟨hdc ▸ hs.connection, by simp [hs.holds]⟩
      · rw [if_neg hdc] at hd
        exact absurd hnone (h d t hd).2
  · exact h.keeps (ho.keeps_of_acts hacts)

/-- A clear leaves the request with nothing, if it had nothing but that connection. -/
theorem releases (h : k.Sole) (hr : k.Releases k') : k'.Sole := by
  cases hr with
  | keeps hk => exact h.keeps hk
  | closes s c hown hcl hholds =>
    intro d t hd
    rw [hcl.owner_eq, hcl.r] at hd
    by_cases hdc : c = d
    · simp [hdc] at hd
    · rw [if_neg hdc] at hd
      exact absurd (Option.some.inj (hown.connection.symm.trans (h d t hd).1)) hdc
  | pools s c out hown hp hholds =>
    intro d t hd
    rw [hp.owner_eq, hp.r] at hd
    split at hd
    · cases hd
    · next hdc =>
      split at hd
      · cases hd
      · exact absurd (Option.some.inj ((h d t hd).1.symm.trans hown.connection)) hdc

/-- Every kind of call. -/
theorem call (h : k.Sole) {c : Call} (he : c.Effect k k')
    (hfree : ∀ s type addr port ans, c = .connect s type addr port ans →
      k.u.holds = none ∨ k'.cy.acts = k.cy.acts) : k'.Sole := by
  cases c with
  | connect s type addr port ans => exact h.opens he (hfree _ _ _ _ _ rfl)
  | close => exact h.releases he
  | clear => exact h.releases he
  | _ => exact h.quiet he

end Sock.Sole

/-! ## Sleeping -/

/-- A call leaves the sleep timer alone or registers its cleanup. -/
theorem Session.call_sleep {k k' : Session} {c : Call} {v : PhpValue}
    (hres : k.call c = some (v, k')) :
    (k'.ctx.sleep = k.ctx.sleep ∧ k'.sleepCleanup = k.sleepCleanup) ∨ k'.sleepCleanup = true := by
  have hrecv : ∀ buf rc bufferSize f, ngxSocketRecvWith buf rc bufferSize f k = some (v, k') →
      k'.ctx.sleep = k.ctx.sleep ∧ k'.sleepCleanup = k.sleepCleanup := by
    intro buf rc bufferSize f hf
    obtain ⟨u, _, hf⟩ := Option.map_eq_some_iff.mp hf
    obtain ⟨rfl, rfl⟩ := Prod.mk.inj hf
    exact ⟨rfl, rfl⟩
  cases c with
  | sleep time =>
    obtain ⟨rfl, rfl⟩ := Prod.mk.inj (Option.some.inj hres)
    exact Or.inr rfl
  | msleep time =>
    obtain ⟨rfl, rfl⟩ := Prod.mk.inj (Option.some.inj hres)
    exact Or.inr rfl
  | connect s type addr port ans =>
    simp only [call, ngxSocketConnect] at hres
    split at hres
    · obtain ⟨rfl, rfl⟩ := Prod.mk.inj (Option.some.inj hres)
      exact Or.inl ⟨rfl, rfl⟩
    · obtain ⟨rfl, rfl⟩ := Prod.mk.inj (Option.some.inj hres)
      exact Or.inl ⟨rfl, rfl⟩
  | close s readEvent =>
    obtain ⟨rfl, rfl⟩ := Prod.mk.inj (Option.some.inj hres)
    rcases k.close_cases readEvent with ⟨hclose, _⟩ | hclose
    · rw [hclose]
      exact Or.inl ⟨rfl, rfl⟩
    · rw [hclose]
      exact Or.inr rfl
  | clear s readEvent =>
    obtain ⟨rfl, rfl⟩ := Prod.mk.inj (Option.some.inj hres)
    unfold clear
    split <;> exact Or.inl ⟨rfl, rfl⟩
  | send s buf len ans =>
    simp only [call, ngxSocketSend] at hres
    split at hres
    · obtain ⟨rfl, rfl⟩ := Prod.mk.inj (Option.some.inj hres)
      exact Or.inl ⟨rfl, rfl⟩
    · obtain ⟨u, _, hres⟩ := Option.map_eq_some_iff.mp hres
      obtain ⟨rfl, rfl⟩ := Prod.mk.inj hres
      exact Or.inl ⟨rfl, rfl⟩
  | recv s buf len ans => exact Or.inl (hrecv buf none len (socketRecv ans) hres)
  | recvpage s buf rc bufferSize ans =>
    exact Or.inl (hrecv buf (some rc) bufferSize (socketRecv ans) hres)
  | recvwait s buf len ans => exact Or.inl (hrecv buf none len (socketRecvWait ans) hres)
  | recvsync s buf len ans => exact Or.inl (hrecv buf none len (socketRecvSync ans) hres)
  | settimeout timeout =>
    obtain ⟨u, _, hres⟩ := Option.map_eq_some_iff.mp hres
    obtain ⟨rfl, rfl⟩ := Prod.mk.inj hres
    exact Or.inl ⟨rfl, rfl⟩
  | iskeepalive =>
    obtain ⟨u, _, hres⟩ := Option.map_eq_some_iff.mp hres
    obtain ⟨rfl, rfl⟩ := Prod.mk.inj hres
    exact Or.inl ⟨rfl, rfl⟩

/-- A socket function does not touch the sleep timer. -/
theorem Session.onSock_sleep (k : Session) (f : Sock → Sock) :
    (k.onSock f).ctx.sleep = k.ctx.sleep ∧ (k.onSock f).sleepCleanup = k.sleepCleanup := by
  unfold onSock
  split <;> exact ⟨rfl, rfl⟩

/-- A resume without a generator leaves the sleep timer alone. -/
theorem Session.resumeWithout_sleep (k : Session) (readEvent : Rc) :
    (k.resumeWithout readEvent).ctx.sleep = k.ctx.sleep ∧
      (k.resumeWithout readEvent).sleepCleanup = k.sleepCleanup := by
  unfold resumeWithout clear
  split
  · split <;> exact ⟨rfl, rfl⟩
  · exact ⟨rfl, rfl⟩

/-- So the event of a connection does not either. -/
theorem Session.socketHandler_sleep (k : Session) (moduleCtx write : Bool) (ans : HandlerAnswers)
    (readEvent : Rc) :
    (k.socketHandler moduleCtx write ans readEvent).ctx.sleep = k.ctx.sleep ∧
      (k.socketHandler moduleCtx write ans readEvent).sleepCleanup = k.sleepCleanup := by
  obtain ⟨hsleep, hcleanup⟩ := k.onSock_sleep fun t => t.handleEvent write ans
  unfold socketHandler
  dsimp only
  split
  · rw [(resumeWithout_sleep _ _).1, (resumeWithout_sleep _ _).2]
    exact ⟨hsleep, hcleanup⟩
  · exact ⟨hsleep, hcleanup⟩

/-- An armed sleep timer has its cleanup. -/
def Session.Registered (k : Session) : Prop :=
  k.ctx.sleep.timer.isSome = true → k.sleepCleanup = true

/-! ## The worker -/

/-- What a worker keeps while no connect replaces a connection. -/
structure LifeInv (w : Worker) : Prop where
  own : OwnInv w
  sole : ∀ r, (w.session r).view.Sole
  registered : ∀ r, (w.session r).Registered
  done : ∀ r, (w.requests r).closed = true →
    (w.requests r).ctx.sleep.timer = none ∧ (w.session r).view.u.holds = none

/-- The connect of a step finds no connection that it would replace, a clear finds none that was
given up, an answer for a closed request stores nothing, and a request is closed with its
connection finalized and its sleep timer either expired or still within reach of the cleanup. -/
def Worker.Orderly (w : Worker) (l : Step) : Prop :=
  w.Tidy l ∧ (w.Enabled l →
    match l with
    | .call r (.connect _ type _ port ans) => type ≠ some afInet ∨
        (w.session r).view.u.holds = none ∨ ans.stores (w.session r).kc port = none
    | .resolved r _ ans =>
        ((w.requests r).closed = false ∧ (w.session r).view.u.holds = none) ∨
        ans.stores (w.session r).kc (w.session r).view.u.resolved = none
    | .closeRequest r => (w.session r).view.u.holds = none ∧
        ((w.requests r).ctx.sleep.timer = none ∨ (w.requests r).moduleCtx = true)
    | _ => True)

instance Worker.decidableOrderly (w : Worker) (l : Step) : Decidable (w.Orderly l) := by
  unfold Worker.Orderly
  match l with
  | .call _ (.connect _ _ _ _ _) => infer_instance
  | .call _ (.sleep _) | .call _ (.msleep _) | .call _ (.close _ _) | .call _ (.clear _ _)
  | .call _ (.send _ _ _ _) | .call _ (.recv _ _ _ _) | .call _ (.recvpage _ _ _ _ _)
  | .call _ (.recvwait _ _ _ _) | .call _ (.recvsync _ _ _ _) | .call _ (.settimeout _)
  | .call _ .iskeepalive | .closure _ _ | .resolved _ _ _ | .connectionEvent _ _ _ _ _
  | .sleepTimer _ _ | .poolEvent _ _ _ _ | .setOutput _ | .redirect _ _ | .closeRequest _
  | .getOther _ | .closeOther _ => infer_instance

namespace LifeInv

variable {w : Worker}

/-- What a request does, which leaves nothing behind if it has been closed. -/
theorem withSession (h : LifeInv w) {r : ReqId} {k : Session}
    (hdone : (w.requests r).closed = true → k.ctx.sleep.timer = none ∧ k.view.u.holds = none)
    (hm : (w.session r).view.Moves w.pools k.view) (hs : k.view.Sole) (hreg : k.Registered) :
    LifeInv (w.withSession r k) where
  own := h.own.withSession hm
  sole r' c s ho := by
    have hk : k.r = r := hm.r
    by_cases hr : r' = r
    · subst hr
      rw [Worker.upstream_withSession hk]
      have ho : owner k.cy.acts c = .request k.r s := hk.symm ▸ ho
      exact hs c s ho
    · rw [Worker.upstream_withSession_of_ne _ _ hr]
      exact h.sole r' c s (((hm.others r' hr).owner c s).mp ho)
  registered r' := by
    by_cases hr : r' = r
    · subst hr
      simpa only [Session.Registered, Worker.session, Worker.withSession_self] using hreg
    · simpa only [Session.Registered, Worker.session, Worker.withSession_of_ne _ _ hr]
        using h.registered r'
  done r' hc := by
    by_cases hr : r' = r
    · subst hr
      have hk : k.r = r' := hm.r
      rw [Worker.withSession_self] at hc ⊢
      rw [Worker.upstream_withSession hk]
      exact hdone hc
    · rw [Worker.withSession_of_ne _ _ hr] at hc ⊢
      rw [Worker.upstream_withSession_of_ne _ _ hr]
      exact h.done r' hc

/-- Fields of a request other than its upstream. -/
theorem onRequest (h : LifeInv w) {r : ReqId} {f : Request → Request}
    (hf : (f (w.requests r)).ctx.upstream = (w.requests r).ctx.upstream)
    (hreg : (f (w.requests r)).ctx.sleep.timer.isSome = true →
      (f (w.requests r)).sleepCleanup = true)
    (hdone : (f (w.requests r)).closed = true → (f (w.requests r)).ctx.sleep.timer = none ∧
      (w.session r).view.u.holds = none) : LifeInv (w.onRequest r f) where
  own := h.own.onRequest hf
  sole r' c s ho := by
    rw [Worker.upstream_onRequest hf]
    exact h.sole r' c s ho
  registered r' := by
    by_cases hr : r' = r
    · subst hr
      simpa only [Session.Registered, Worker.session, Worker.onRequest_self] using hreg
    · simpa only [Session.Registered, Worker.session, Worker.onRequest_of_ne _ _ hr]
        using h.registered r'
  done r' hc := by
    rw [Worker.upstream_onRequest hf]
    by_cases hr : r' = r
    · subst hr
      rw [Worker.onRequest_self] at hc ⊢
      exact hdone hc
    · rw [Worker.onRequest_of_ne _ _ hr] at hc ⊢
      exact h.done r' hc

/-- What is done to connections that are not the requests'. -/
theorem elsewhere (h : LifeInv w) {w' : Worker} (hown : OwnInv w')
    (hreq : w'.requests = w.requests)
    (ho : ∀ r c s, owner w'.cy.acts c = .request r s → owner w.cy.acts c = .request r s) :
    LifeInv w' where
  own := hown
  sole r c s hc := by
    have hs := h.sole r c s (ho r c s hc)
    simpa only [Worker.session, Session.view, Session.sock, hreq] using hs
  registered r := by
    simpa only [Session.Registered, Worker.session, hreq] using h.registered r
  done r hc := by
    rw [hreq] at hc
    simpa only [Worker.session, Session.view, Session.sock, hreq] using h.done r hc

/-- A connect that is foretold to store nothing records nothing. -/
private theorem connect_acts {k k' : Session} {s : Resource} {type : Option Int} {addr : Bytes}
    {port : Nat} {ans : ConnectAnswers} {v : PhpValue}
    (hres : k.call (.connect s type addr port ans) = some (v, k'))
    (hs : type ≠ some afInet ∨ ans.stores k.kc port = none) : k'.cy.acts = k.cy.acts := by
  obtain rfl : (ngxSocketConnect s type addr port ans k).2 = k' :=
    congrArg Prod.snd (Option.some.inj hres)
  by_cases htype : type = some afInet
  · subst htype
    have h := socketConnect_foretold ans s port k.view
    rw [ngxSocketConnect, if_pos rfl]
    split at h
    · exact congrArg Cycle.acts h.2
    · exact congrArg Cycle.acts (h.cy (hs.resolve_left fun hn => hn rfl))
  · rw [ngxSocketConnect, if_neg htype]

/-- An orderly call leaves nothing behind. -/
theorem call (h : LifeInv w) {r : ReqId} {c : Call} {v : PhpValue} {k : Session}
    (hen : w.Enabled (.call r c)) (ho : w.Orderly (.call r c))
    (hres : (w.session r).call c = some (v, k)) : LifeInv (w.withSession r k) := by
  obtain ⟨htidy, hcond⟩ := ho
  have hclosed : (w.requests r).closed = false := Request.closed_of_live hen.1
  have he := h.own.call_effect hen (htidy hen) hres
  refine h.withSession (fun hc => absurd hc (by simp [hclosed])) ((h.own.session r).call he)
    ((h.sole r).call he ?_) ?_
  · rintro s type addr port ans rfl
    rcases hcond hen with htype | hnone | hs
    · exact Or.inr (connect_acts hres (Or.inl htype))
    · exact Or.inl hnone
    · exact Or.inr (connect_acts hres (Or.inr hs))
  · intro ht
    rcases Session.call_sleep hres with ⟨hsl, hcl⟩ | hcl
    · rw [hcl]
      exact h.registered r (hsl ▸ ht)
    · exact hcl

/-- An orderly event leaves nothing behind. -/
theorem connectionEvent (h : LifeInv w) {c : ConnId} {write : Bool} {how : Wake}
    {ans : HandlerAnswers} {readEvent : Rc}
    (hen : w.Enabled (.connectionEvent c write how ans readEvent))
    (ho : w.Orderly (.connectionEvent c write how ans readEvent)) :
    LifeInv (w.perform (.connectionEvent c write how ans readEvent)) := by
  simp only [Worker.perform]
  split
  · next r hdata =>
    have hw : LifeInv { w with cy := w.cy.wake c write how } :=
      h.elsewhere (h.own.wake c write how) rfl fun _ _ _ hd => hd
    have hfinds : (w.requests r).findsCtx = true := by
      have hf := hen.1.2.2
      rwa [hdata] at hf
    have hclosed := Request.closed_of_findsCtx hfinds
    obtain ⟨hm, hrel⟩ := h.own.socketHandler_effect hdata write how ans readEvent (ho.1 hen)
    have hq := Session.handleEvent_quiet
      (Worker.session { w with cy := w.cy.wake c write how } r) write ans
    refine hw.withSession (fun hc => absurd hc (by simp [hclosed]))
      (hm.trans (hm.good.releases hrel)) (((hw.sole r).quiet hq).releases hrel) fun ht => ?_
    rw [(Session.socketHandler_sleep _ _ _ _ _).1] at ht
    rw [(Session.socketHandler_sleep _ _ _ _ _).2]
    exact h.registered r ht
  · exact h

/-- An orderly sleep timer leaves nothing behind. -/
theorem sleepTimer (h : LifeInv w) {r : ReqId} {readEvent : Rc}
    (hen : w.Enabled (.sleepTimer r readEvent)) (ho : w.Orderly (.sleepTimer r readEvent)) :
    LifeInv (w.perform (.sleepTimer r readEvent)) := by
  simp only [Worker.perform]
  split
  · next hctx =>
    have hrel := Session.sleepTimer_releases (h.own.session r) readEvent
      fun hg => ho.1 hen r (if_pos ⟨hctx, hg⟩)
    refine h.withSession (fun hc => absurd hc (by simp [hen.1]))
      ((h.own.session r).releases hrel) ((h.sole r).releases hrel)
      fun ht => ?_
    have ht : ((w.session r).sleepTimer readEvent).ctx.sleep.timer.isSome = true := ht
    rw [Session.sleepTimer, (Session.resumeWithout_sleep _ _).1] at ht
    simp [Ctx.wakeSleep, Event.wake, Event.delTimer] at ht
  · refine h.onRequest (f := fun q => { q with ctx := q.ctx.wakeSleep }) rfl (fun ht => ?_)
      fun hc => ?_
    · simp [Ctx.wakeSleep, Event.wake, Event.delTimer] at ht
    · rw [hen.1] at hc
      cases hc

/-- A pool closes its own connections. -/
theorem poolEvent (h : LifeInv w) {c : ConnId} {closing peekAgain : Bool} {readEvent : Rc}
    (hen : w.Enabled (.poolEvent c closing peekAgain readEvent))
    (hown : OwnInv (w.perform (.poolEvent c closing peekAgain readEvent))) :
    LifeInv (w.perform (.poolEvent c closing peekAgain readEvent)) := by
  obtain ⟨p, hp⟩ := h.own.net.handled c hen.1 hen.2
  obtain ⟨i, hk⟩ := (h.own.net.represented p).cachedAs hp
  simp only [Worker.perform, hk.data, h.own.net.ident p] at hown ⊢
  refine h.elsewhere hown rfl fun r d s hd => ?_
  obtain ⟨kc', cy', hres, ⟨_, ha, _⟩ | ⟨_, ha, _⟩⟩ :=
    (h.own.net.represented p).closeHandler hp closing peekAgain readEvent
  · simp only [hres, ha] at hd
    exact hd
  · simp only [hres, ha, owner_poolCloseActs] at hd
    split at hd
    · cases hd
    · exact hd

/-- What a request leaves has no timer any more. -/
theorem closeRequest (h : LifeInv w) {r : ReqId} (hen : w.Enabled (.closeRequest r))
    (ho : w.Orderly (.closeRequest r)) : LifeInv (w.perform (.closeRequest r)) := by
  obtain ⟨hnone, ht⟩ := ho.2 hen
  have htimer : (if (w.requests r).sleepCleanup then
      sleepCleanup (w.requests r).moduleCtx (w.requests r).ctx
      else (w.requests r).ctx).sleep.timer = none := by
    split
    · exact sleepCleanup_timer ht
    · next hn =>
      by_contra hs
      exact hn (h.registered r (Option.isSome_iff_ne_none.mpr hs))
  refine h.onRequest (f := fun q => { q with
    ctx := if q.sleepCleanup then NgxPhp.sleepCleanup q.moduleCtx q.ctx else q.ctx
    closed := true }) (cleanup_upstream (w.requests r)) (fun hs => ?_) fun _ => ⟨htimer, hnone⟩
  rw [htimer] at hs
  cases hs

/-- The resolver's answer, also one that comes late. -/
theorem resolved (h : LifeInv w) {r : ReqId} {q : Query} {ans : ResolveAnswers}
    (hen : w.Enabled (.resolved r q ans)) (ho : w.Orderly (.resolved r q ans)) :
    LifeInv (w.perform (.resolved r q ans)) := by
  have hop := Session.resolved_opens (h.own.session r).represented q ans hen.2
  have hacts := ((w.session r).resolved_foretold q ans).cy
  obtain ⟨hsleep, hcleanup⟩ := (w.session r).onSock_sleep fun t => t.resolved q ans
  refine h.withSession (fun hclosed => ?_) ((h.own.session r).opens hop)
    ((h.sole r).opens hop ?_) fun ht => ?_
  · obtain ⟨htimer, hnone⟩ := h.done r hclosed
    rcases ho.2 hen with ⟨hopen, -⟩ | hstores
    · rw [hopen] at hclosed
      cases hclosed
    · exact ⟨hsleep ▸ htimer,
        (hop.keeps_of_acts (congrArg Cycle.acts (hacts hstores))).holds_none hnone⟩
  · exact (ho.2 hen).imp And.right fun hstores => congrArg Cycle.acts (hacts hstores)
  · rw [hcleanup]
    exact h.registered r (hsleep ▸ ht)

/-- The ctx that is made after a redirect has no timer yet. -/
theorem redirect (h : LifeInv w) {r next : ReqId} (hen : w.Enabled (.redirect r next)) :
    LifeInv (w.perform (.redirect r next)) := by
  obtain ⟨hclosed, -, hne, hnext⟩ := hen
  have hw := h.onRequest (r := r)
    (f := fun q => { q with moduleCtx := false, redirected := some next }) rfl (h.registered r)
    fun hc => by simp [hclosed] at hc
  refine hw.onRequest (f := fun q => { q with sleepCleanup := (w.requests r).sleepCleanup }) rfl ?_
    ?_
  · rw [Worker.onRequest_of_ne _ _ hne, hnext]
    exact fun ht => absurd ht Bool.false_ne_true
  · rw [Worker.onRequest_of_ne _ _ hne, hnext]
    exact fun hc => absurd hc Bool.false_ne_true

/-- Every step that can be taken and is orderly keeps the invariant. -/
theorem perform (h : LifeInv w) {l : Step} (hen : w.Enabled l) (ho : w.Orderly l) :
    LifeInv (w.perform l) := by
  have hown := h.own.perform hen (ho.1 hen)
  cases l with
  | call r c =>
    simp only [Worker.perform]
    split
    · next v k hres => exact h.call hen ho hres
    · exact h
  | closure r g =>
    have hclosed : (w.requests r).closed = false := Request.closed_of_live hen
    exact h.onRequest (f := fun q => { q with ctx := { q.ctx with generatorClosure := g } }) rfl
      (h.registered r) fun hc => by simp [hclosed] at hc
  | resolved r q ans => exact h.resolved hen ho
  | connectionEvent c write how ans readEvent => exact h.connectionEvent hen ho
  | sleepTimer r readEvent => exact h.sleepTimer hen ho
  | poolEvent c closing peekAgain readEvent => exact h.poolEvent hen hown
  | setOutput r =>
    have hclosed : (w.requests r).closed = false := Request.closed_of_live hen
    exact h.onRequest (f := fun q => { q with moduleCtx := false }) rfl (h.registered r)
      fun hc => by simp [hclosed] at hc
  | redirect r next => exact h.redirect hen
  | closeRequest r => exact h.closeRequest hen ho
  | getOther c =>
    refine h.elsewhere hown rfl fun r d s hd => ?_
    by_cases hdc : c = d
    · simp [Worker.perform, owner, hdc] at hd
    · simpa [Worker.perform, owner, hdc, Cycle.getConnection] using hd
  | closeOther c =>
    refine h.elsewhere hown rfl fun r d s hd => ?_
    by_cases hdc : c = d
    · simp [Worker.perform, owner, hdc] at hd
    · simpa [Worker.perform, owner, hdc] using hd

/-- Each orderly step keeps the invariant. -/
theorem step (h : LifeInv w) {l : Step} (ho : w.Orderly l) : LifeInv (w.step l) := by
  unfold Worker.step
  split
  · next hen => exact h.perform hen ho
  · exact h

end LifeInv

end NgxPhp
