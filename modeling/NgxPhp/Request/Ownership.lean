import NgxPhp.Lib.Machine
import NgxPhp.Request.Effect

/-!
# Who owns the connections of a worker

Over whole runs: requests close or pool only connections they own exactly when
no clear finds a connection that was closed before and is still in the peer.
-/

namespace NgxPhp

open Function (update)
open StepMachine

/-- The invariant of a worker. -/
structure OwnInv (w : Worker) : Prop where
  net : NetInv w.pools w.cy
  held : ∀ r, HeldInv (w.session r).view.u r w.cy.acts
  lawful : Lawful w.cy.acts

theorem ownInv_init (maxCached : SrvId → Nat) (srv : ReqId → SrvId) :
    OwnInv (Worker.init maxCached srv) where
  net := netInv_init maxCached
  held r := by
    refine ⟨fun s hs => ?_, fun _ c hc => ?_⟩
    · simp [Worker.init, Worker.session, Session.view, Session.sock] at hs
    · simp [Worker.init, Worker.session, Session.view, Session.sock] at hc
  lawful := trivial

namespace OwnInv

variable {w : Worker}

theorem session (h : OwnInv w) (r : ReqId) : (w.session r).view.Good w.pools where
  net := by
    have hid : (w.session r).view.kc.id = (w.requests r).srv := h.net.ident _
    rw [hid]
    exact (Function.update_eq_self (w.requests r).srv w.pools).symm ▸ h.net
  held := h.held r
  lawful := h.lawful

/-- What one request does keeps the invariant of the worker. -/
theorem withSession (h : OwnInv w) {r : ReqId} {k : Session}
    (hm : (w.session r).view.Moves w.pools k.view) : OwnInv (w.withSession r k) where
  net := by
    have hid : k.kc.id = (w.requests r).srv := hm.id.trans (h.net.ident _)
    have hnet : NetInv (update w.pools k.kc.id k.kc) k.cy := hm.good.net
    rwa [hid] at hnet
  held r' := by
    by_cases hr : r' = r
    · subst hr
      have hr' : k.r = r' := hm.r
      have hheld := hm.good.held
      rw [hm.r] at hheld
      rw [Worker.upstream_withSession hr']
      exact hheld
    · rw [Worker.upstream_withSession_of_ne _ _ hr]
      exact (h.held r').congr (hm.others r' hr)
  lawful := hm.good.lawful

/-- Fields of a request other than its upstream. -/
theorem onRequest (h : OwnInv w) {r : ReqId} {f : Request → Request}
    (hf : (f (w.requests r)).ctx.upstream = (w.requests r).ctx.upstream) :
    OwnInv (w.onRequest r f) where
  net := h.net
  held r' := by
    rw [Worker.upstream_onRequest hf]
    exact h.held r'
  lawful := h.lawful

/-- The event loop reports an event. -/
theorem wake (h : OwnInv w) (c : ConnId) (write : Bool) (how : Wake) :
    OwnInv { w with cy := w.cy.wake c write how } where
  net := h.net.quiet (fun d => w.cy.wake_sameUse c d write how) fun _ => rfl
  held := h.held
  lawful := h.lawful

/-- An idle connection has an event. -/
theorem poolEvent (h : OwnInv w) {c : ConnId} {p : SrvId} (hc : (w.pools p).Holds c)
    (closing peekAgain : Bool) (readEvent : Rc) :
    OwnInv { w with
      pools := update w.pools p
        (keepaliveCloseHandler closing peekAgain readEvent c (w.pools p) w.cy).1
      cy := (keepaliveCloseHandler closing peekAgain readEvent c (w.pools p) w.cy).2 } := by
  obtain ⟨kc', cy', hres, ⟨rfl, ha, hs⟩ | ⟨hg, ha, hs, hopen⟩⟩ :=
    (h.net.represented p).closeHandler hc closing peekAgain readEvent
  · rw [hres]
    refine ⟨?_, fun r => ?_, ?_⟩
    · dsimp only
      rw [Function.update_eq_self]
      exact h.net.quiet hs fun _ => by rw [ha]
    · dsimp only
      rw [ha]
      exact h.held r
    · dsimp only
      rw [ha]
      exact h.lawful
  · have hown : owner w.cy.acts c = .pool p := h.net.pooled p c hc
    have howner : ∀ d, owner cy'.acts d = if c = d then .free else owner w.cy.acts d := by
      intro d
      rw [ha, owner_poolCloseActs]
      simp
    rw [hres]
    refine ⟨?_, fun r => (h.held r).congr ⟨fun d s => ?_, fun s => ?_⟩, ?_⟩
    · refine h.net.leave hg hs (fun d hd => ?_) ?_ ?_ ?_
      · rw [howner, if_neg (Ne.symm hd)]
      · simp [hopen, howner]
      · simp [hopen]
      · simp [hopen]
    · rw [howner]
      split
      · next hd =>
        subst hd
        simp [hown]
      · rfl
    · rw [ha]
      exact opened_poolCloseActs _ _ _ _ _
    · dsimp only
      rw [ha]
      exact (lawful_poolCloseActs _ _ _).mpr h.lawful

/-- A connection that is none of the module's is opened or closed. -/
private theorem foreign (h : OwnInv w) {c : ConnId} {cy : Cycle}
    (hfree : ∀ p, owner w.cy.acts c ≠ .pool p) (hreq : ∀ r s, owner w.cy.acts c ≠ .request r s)
    (hl : Lawful cy.acts ↔ Lawful w.cy.acts)
    (ho : ∀ d, d ≠ c → owner cy.acts d = owner w.cy.acts d)
    (hop : ∀ r s, opened cy.acts r s = opened w.cy.acts r s)
    (hreq' : ∀ r s, owner cy.acts c ≠ .request r s)
    (hs : ∀ d, d ≠ c → (w.cy.connections d).SameUse (cy.connections d))
    (hopen : (cy.connections c).isOpen = true ↔ owner cy.acts c ≠ .free)
    (hclose : (cy.connections c).isOpen = true →
      (cy.connections c).read.handler ≠ .keepaliveClose)
    (hdata : ∀ r, (cy.connections c).isOpen = true → (cy.connections c).data ≠ .upstream r) :
    OwnInv { w with cy } where
  net := h.net.change (h.net.not_holds hfree) hs ho hopen hclose
    fun r hc hd => absurd hd (hdata r hc)
  held r := by
    refine (h.held r).congr ⟨fun d s => ?_, hop r⟩
    by_cases hd : d = c
    · subst hd
      exact iff_of_false (hreq' r s) (hreq r s)
    · rw [ho d hd]
  lawful := hl.mpr h.lawful

end OwnInv

/-- The request whose socket a step clears. -/
def Worker.clears (w : Worker) : Step → Option ReqId
  | .call r (.close _ _) => some r
  | .call r (.clear _ _) => some r
  | .connectionEvent c _ _ _ _ =>
    match (w.cy.connections c).data with
    | .upstream r =>
      if (w.requests r).moduleCtx ∧ (w.requests r).ctx.generatorClosure = none then some r
      else none
    | _ => none
  | .sleepTimer r _ =>
    if (w.requests r).moduleCtx ∧ (w.requests r).ctx.generatorClosure = none then some r else none
  | _ => none

/-- A step that clears a socket finds no connection in the peer, or one that was stored
there since the last finalize. -/
def Worker.Tidy (w : Worker) (l : Step) : Prop :=
  w.Enabled l → ∀ r ∈ w.clears l, (w.session r).OwnsPeer

instance Worker.decidableTidy (w : Worker) (l : Step) : Decidable (w.Tidy l) := by
  unfold Worker.Tidy
  infer_instance

namespace OwnInv

variable {w : Worker}

/-- The event of a connection in use clears its request only if nothing can be resumed. -/
theorem ownsPeer_of_tidy {c : ConnId} {r : ReqId} (hdata : (w.cy.connections c).data = .upstream r)
    {write : Bool} {how : Wake} {ans : HandlerAnswers} {readEvent : Rc}
    (htidy : ∀ r ∈ w.clears (.connectionEvent c write how ans readEvent), (w.session r).OwnsPeer)
    (hctx : (w.requests r).moduleCtx = true)
    (hg : (w.session r).ctx.generatorClosure = none) : (w.session r).OwnsPeer :=
  htidy r (by simpa [Worker.clears, hdata, Worker.session, hctx] using hg)

/-- What the event of a connection does to the request that uses it. -/
theorem socketHandler_effect (h : OwnInv w) {c : ConnId} {r : ReqId}
    (hdata : (w.cy.connections c).data = .upstream r) (write : Bool) (how : Wake)
    (ans : HandlerAnswers) (readEvent : Rc)
    (htidy : ∀ r ∈ w.clears (.connectionEvent c write how ans readEvent),
      (w.session r).OwnsPeer) :
    let k := Worker.session { w with cy := w.cy.wake c write how } r
    k.view.Moves w.pools (k.onSock fun t => t.handleEvent write ans).view ∧
      (k.onSock fun t => t.handleEvent write ans).view.Releases
        (k.socketHandler (w.requests r).moduleCtx write ans readEvent).view :=
  Session.socketHandler_effect ((h.wake c write how).session r) _ write ans readEvent
    (ownsPeer_of_tidy (w := w) hdata htidy)

/-- What a call does to the connections, if its clear is of one that has not been given up. -/
theorem call_effect (h : OwnInv w) {r : ReqId} {c : Call} {v : PhpValue} {k : Session}
    (hen : w.Enabled (.call r c))
    (htidy : ∀ r' ∈ w.clears (.call r c), (w.session r').OwnsPeer)
    (hres : (w.session r).call c = some (v, k)) : c.Effect (w.session r).view k.view := by
  refine Session.call_effect (h.session r) hen.2 (fun hc => htidy r ?_) hres
  cases c <;> first | exact rfl | exact absurd hc (by simp [Call.clears])

/-- A connection is opened that is none of the requests'. -/
theorem getOther (h : OwnInv w) {c : ConnId} (hen : w.Enabled (.getOther c)) :
    OwnInv (w.perform (.getOther c)) := by
  have hfree : owner w.cy.acts c = .free := by
    by_contra hne
    have ho := (h.net.inUse c).mpr hne
    simp [show (w.cy.connections c).isOpen = false from hen] at ho
  refine h.foreign (c := c) (by simp [hfree]) (by simp [hfree]) Iff.rfl ?_ (fun _ _ => rfl)
    ?_ ?_ ?_ ?_ ?_
  · intro d hd
    simp [owner, Ne.symm hd, Cycle.getConnection]
  · simp [owner]
  · intro d hd
    rw [Cycle.record_connections, Cycle.getConnection, Cycle.modify_of_ne _ _ hd]
    exact .refl _
  · simp [owner, Cycle.getConnection]
  · simp [Cycle.getConnection]
  · simp [Cycle.getConnection]

/-- A connection is closed that is none of the requests'. -/
theorem closeOther (h : OwnInv w) {c : ConnId} (hen : w.Enabled (.closeOther c)) :
    OwnInv (w.perform (.closeOther c)) := by
  have hother : owner w.cy.acts c = .other := hen
  refine h.foreign (c := c) (by simp [hother]) (by simp [hother]) ?_ ?_ ?_ ?_ ?_ ?_ ?_ ?_
  · simp [Lawful]
  · intro d hd
    simp [owner, Ne.symm hd]
  · intro r s
    simp [opened]
  · simp [owner]
  · intro d hd
    rw [Cycle.closeConnection_of_ne _ _ hd]
    exact .refl _
  · simp [owner, Cycle.closeConnection_isOpen]
  · simp [Cycle.closeConnection_isOpen]
  · simp [Cycle.closeConnection_isOpen]

/-- Every step that can be taken keeps the invariant, if its clear is of a connection that
has not been given up. -/
theorem perform (h : OwnInv w) {l : Step} (hen : w.Enabled l)
    (htidy : ∀ r ∈ w.clears l, (w.session r).OwnsPeer) : OwnInv (w.perform l) := by
  cases l with
  | call r c =>
    simp only [Worker.perform]
    split
    · next v k hres => exact h.withSession ((h.session r).call (h.call_effect hen htidy hres))
    · exact h
  | closure r g =>
    exact h.onRequest (f := fun q => { q with ctx := { q.ctx with generatorClosure := g } }) rfl
  | resolved r q ans =>
    exact h.withSession
      ((h.session r).opens (Session.resolved_opens (h.session r).represented q ans hen.2))
  | connectionEvent c write how ans readEvent =>
    simp only [Worker.perform]
    split
    · next r hdata =>
      obtain ⟨hm, hrel⟩ := h.socketHandler_effect hdata write how ans readEvent htidy
      exact (h.wake c write how).withSession (hm.trans (hm.good.releases hrel))
    · exact h
  | sleepTimer r readEvent =>
    simp only [Worker.perform]
    split
    · next hctx =>
      refine h.withSession ((h.session r).releases
        (Session.sleepTimer_releases (h.session r) readEvent fun hg => htidy r ?_))
      exact if_pos ⟨hctx, hg⟩
    · exact h.onRequest (f := fun q => { q with ctx := q.ctx.wakeSleep }) rfl
  | poolEvent c closing peekAgain readEvent =>
    obtain ⟨p, hp⟩ := h.net.handled c hen.1 hen.2
    obtain ⟨i, hk⟩ := (h.net.represented p).cachedAs hp
    simp only [Worker.perform, hk.data, h.net.ident p]
    exact h.poolEvent hp closing peekAgain readEvent
  | setOutput r => exact h.onRequest (f := fun q => { q with moduleCtx := false }) rfl
  | redirect r next =>
    refine OwnInv.onRequest (f := fun q => { q with
      sleepCleanup := (w.requests r).sleepCleanup }) ?_ rfl
    exact h.onRequest (f := fun q => { q with moduleCtx := false, redirected := some next }) rfl
  | closeRequest r =>
    refine h.onRequest (r := r) (f := fun q => { q with
      ctx := if q.sleepCleanup then sleepCleanup q.moduleCtx q.ctx else q.ctx
      closed := true }) (cleanup_upstream (w.requests r))
  | getOther c => exact h.getOther hen
  | closeOther c => exact h.closeOther hen

/-- A step that clears a connection that has been given up breaks the law. -/
theorem perform_unlawful (h : OwnInv w) {l : Step} {r : ReqId} (hr : r ∈ w.clears l)
    (hown : ¬ (w.session r).OwnsPeer) : ¬ Lawful (w.perform l).cy.acts := by
  cases l with
  | call r' c =>
    cases c with
    | close s readEvent =>
      obtain rfl : r' = r := Option.some.inj hr
      exact Session.close_unlawful (h.session r') readEvent hown
    | clear s readEvent =>
      obtain rfl : r' = r := Option.some.inj hr
      exact Session.clear_unlawful (h.session r') readEvent hown
    | _ => cases hr
  | connectionEvent c write how ans readEvent =>
    simp only [Worker.clears] at hr
    split at hr
    · next r' hdata =>
      obtain ⟨⟨hctx, hg⟩, rfl⟩ : ((w.requests r').moduleCtx = true ∧
          (w.requests r').ctx.generatorClosure = none) ∧ r' = r := by
        simpa using hr
      have hw := h.wake c write how
      have hq := Session.handleEvent_quiet
        (Worker.session { w with cy := w.cy.wake c write how } r') write ans
      simp only [Worker.perform, hdata, Session.socketHandler, hctx, if_true]
      refine Session.resumeWithout_unlawful ((hw.session r').quiet hq).good readEvent ?_ ?_
      · rw [Session.onSock_generatorClosure]
        exact hg
      · rw [hq.ownsPeer_iff]
        exact hown
    · cases hr
  | sleepTimer r' readEvent =>
    obtain ⟨⟨hctx, hg⟩, rfl⟩ : ((w.requests r').moduleCtx = true ∧
        (w.requests r').ctx.generatorClosure = none) ∧ r' = r := by
      simpa [Worker.clears] using hr
    simp only [Worker.perform, hctx, if_true]
    exact Session.resumeWithout_unlawful (k := { w.session r' with
      ctx := (w.session r').ctx.wakeSleep }) ((h.session r').quiet (Session.quiet_ctx _ rfl)).good
      readEvent hg hown
  | _ => cases hr

/-- Under the invariant a step is lawful exactly when it is tidy. -/
theorem step_lawful_iff (h : OwnInv w) (l : Step) :
    Lawful (w.step l).cy.acts ↔ w.Tidy l := by
  unfold Worker.step
  split
  · next hen =>
    constructor
    · intro hl _ r hr
      by_contra hown
      exact h.perform_unlawful hr hown hl
    · exact fun ht => (h.perform hen (ht hen)).lawful
  · next hen => exact iff_of_true h.lawful fun he => absurd he hen

theorem step (h : OwnInv w) {l : Step} (ht : w.Tidy l) : OwnInv (w.step l) := by
  unfold Worker.step
  split
  · next hen => exact h.perform hen (ht hen)
  · exact h

end OwnInv

/-- In a run the requests close and pool only what they own, at every step, exactly when
every clear finds no connection or one that was stored since the last finalize. -/
theorem connections_owned_iff_tidy (maxCached : SrvId → Nat) (srv : ReqId → SrvId)
    (ls : List Step) :
    Along Worker.step (fun w l => Lawful (w.step l).cy.acts) (Worker.init maxCached srv) ls ↔
      Along Worker.step Worker.Tidy (Worker.init maxCached srv) ls :=
  along_iff_of_invariant (fun _ _ h ht => h.step ht) (fun _ l h => h.step_lawful_iff l)
    (ownInv_init maxCached srv) ls

/-- A second close, after another request was handed the closed structure, closes the
connection of that request. -/
theorem socketClose_closes_again :
    let connect (s : Resource) : Call := .connect s (some afInet) [] 80
      { parseUrl := .address [], retval := { connect := .established 7 } }
    let w := run Worker.step (Worker.init (fun _ => 0) fun _ => 0)
      [.call 0 (connect 0), .call 0 (.close 0 .ok), .call 1 (connect 1)]
    owner w.cy.acts 7 = .request 1 1 ∧
      (w.step (.call 0 (.close 0 .ok))).cy.acts =
        .close (.request 0) 7 :: .destroyPool (.request 0) 7 :: w.cy.acts ∧
      ¬ Lawful (w.step (.call 0 (.close 0 .ok))).cy.acts := by
  decide

end NgxPhp
