import NgxPhp.Request.Ownership
import NgxPhp.Request.Pending

/-!
# One upstream for all sockets of a request

The library functions ignore the socket resource they are given: there is one
upstream per request, and they work on its connection. So resources keep out of
each other's way exactly as long as the upstream is the one of the resource.
-/

namespace NgxPhp

open StepMachine

/-- Connection `c` is the one that the latest connect for resource `s` was handed. -/
def Current (as : List Act) (r : ReqId) (s : Resource) (c : ConnId) : Prop :=
  opened as r s = some c ∧ owner as c = .request r s

/-- An act on behalf of resource `s`: it connects for `s`, or works on the current connection
of `s`, or the pool makes room by closing a connection of its own. -/
def Act.IsFor (r : ReqId) (s : Resource) (as : List Act) : Act → Prop
  | .get r' s' _ => r' = r ∧ s' = s
  | .take r' s' _ => r' = r ∧ s' = s
  | .keep r' _ c => r' = r ∧ Current as r s c
  | .send c _ _ => Current as r s c
  | .recv c => Current as r s c
  | .destroyPool (.request r') c => r' = r ∧ Current as r s c
  | .close (.request r') c => r' = r ∧ Current as r s c
  | .destroyPool (.pool p) c => owner as c = .pool p
  | .close (.pool p) c => owner as c = .pool p
  | _ => False

/-- All of the acts `new` that follow `as` are for `s`. -/
def Confined (r : ReqId) (s : Resource) : List Act → List Act → Prop
  | [], _ => True
  | a :: new, as => a.IsFor r s (new ++ as) ∧ Confined r s new as

theorem confined_append {r : ReqId} {s : Resource} {new old as : List Act}
    (h : Confined r s new (old ++ as)) (g : Confined r s old as) :
    Confined r s (new ++ old) as := by
  induction new with
  | nil => exact g
  | cons a new ih =>
    have ha : a.IsFor r s ((new ++ old) ++ as) := by
      rw [List.append_assoc]
      exact h.1
    exact ⟨ha, ih h.2⟩

/-- Transfers on the current connection of `s`. -/
theorem confined_transfers {r : ReqId} {s : Resource} {c : ConnId} {new as : List Act}
    (h : ∀ a ∈ new, a.IsTransferOn c) (hc : Current as r s c) : Confined r s new as := by
  induction new with
  | nil => trivial
  | cons a new ih =>
    have hnew : ∀ b ∈ new, b.IsTransferOn c := fun b hb => h b (List.mem_cons_of_mem _ hb)
    have hcur : Current (new ++ as) r s c :=
      ⟨(opened_append_transfers hnew r s).trans hc.1, (owner_append_transfers hnew c).trans hc.2⟩
    refine ⟨?_, ih hnew⟩
    rcases h a (by simp) with ⟨b, n, rfl⟩ | rfl <;> exact hcur

/-- What a socket function does is for `s` and leaves the connections of all others as they
are. -/
structure Sock.Within (s : Resource) (k k' : Sock) : Prop where
  acts : ∃ new, k'.cy.acts = new ++ k.cy.acts ∧ Confined k.r s new k.cy.acts
  others : ∀ r t d, (r, t) ≠ (k.r, s) → owner k.cy.acts d = .request r t →
    owner k'.cy.acts d = .request r t ∧ (k.cy.connections d).SameUse (k'.cy.connections d)

/-- The upstream has no connection or that of resource `s`. -/
def Upstream.IsOn (u : Upstream) (s : Resource) : Prop :=
  u.peer.connection = none ∨ u.holds = some s

instance Upstream.decidableIsOn (u : Upstream) (s : Resource) : Decidable (u.IsOn s) :=
  inferInstanceAs (Decidable (_ ∨ _))

namespace Sock.Within

variable {pools : SrvId → KeepaliveConf} {s : Resource} {k k' k'' : Sock}

theorem refl (k : Sock) : k.Within s k := ⟨⟨[], rfl, trivial⟩, fun _ _ _ _ h => ⟨h, .refl _⟩⟩

theorem trans (h : k.Within s k') (hr : k'.r = k.r) (g : k'.Within s k'') : k.Within s k'' where
  acts := by
    obtain ⟨new, hnew, hc⟩ := h.acts
    obtain ⟨new', hnew', hc'⟩ := g.acts
    rw [hr, hnew] at hc'
    exact ⟨new' ++ new, by rw [hnew', hnew, List.append_assoc], confined_append hc' hc⟩
  others r t d hne ho := by
    obtain ⟨ho', hs⟩ := h.others r t d hne ho
    obtain ⟨ho'', hs'⟩ := g.others r t d (hr ▸ hne) ho'
    exact ⟨ho'', hs.trans hs'⟩

theorem keeps (hk : k.Keeps k') : k.Within s k' := by
  refine ⟨⟨[], by rw [hk.cy]; rfl, trivial⟩, fun r t d _ ho => ?_⟩
  rw [hk.cy]
  exact ⟨ho, .refl _⟩

/-- A transfer on the upstream of `s`. -/
theorem quiet (hg : k.Good pools) (hon : k.u.IsOn s) (hq : k.Quiet k') : k.Within s k' := by
  have hcy := hq.cycle
  rcases hon with hnone | hs
  · simp only [hnone] at hcy
    exact ⟨⟨[], by rw [hcy]; rfl, trivial⟩, fun r t d _ ho => by rw [hcy]; exact ⟨ho, .refl _⟩⟩
  · obtain ⟨c, hc, hown, hop⟩ := hg.held.held s hs
    simp only [hc] at hcy
    obtain ⟨new, hnew, ht⟩ := hcy.acts
    refine ⟨⟨new, hnew, confined_transfers ht ⟨hop, hown⟩⟩, fun r t d _ ho => ?_⟩
    exact ⟨(hcy.owner_eq d).trans ho, hcy.same d⟩

/-- A step that records nothing. -/
theorem idle (hq : k.Quiet k') (ha : k'.cy.acts = k.cy.acts) : k.Within s k' := by
  refine ⟨⟨[], ha, trivial⟩, fun r t d _ ho => ⟨by rw [ha]; exact ho, ?_⟩⟩
  have hcy := hq.cycle
  cases hc : k.u.peer.connection with
  | none =>
    simp only [hc] at hcy
    rw [hcy]
    exact .refl _
  | some c =>
    simp only [hc] at hcy
    exact hcy.same d

/-- A connect for `s`. -/
theorem opens (hg : k.Good pools) (ho : k.Opens s k') : k.Within s k' := by
  cases ho with
  | keeps hk => exact keeps hk
  | fails c hf =>
    have hfree : ∀ r t, owner k.cy.acts c ≠ .request r t := by
      intro r t he
      have hopen := (hg.net.inUse c).mpr (by simp [he])
      simp [hf.fresh] at hopen
    refine ⟨⟨[.close (.request k.r) c, .get k.r s c], hf.acts, ?_⟩, fun r t d _ hd => ?_⟩
    · simp [Confined, Act.IsFor, Current, owner, opened]
    · have hdc : d ≠ c := fun he => hfree r t (he ▸ hd)
      refine ⟨?_, hf.same d hdc⟩
      rw [hf.acts]
      simp [owner, Ne.symm hdc, hd]
  | stores c hst =>
    obtain ⟨new, ht, hacts⟩ := hst.acts
    have hcur : ∀ a, a = .get k.r s c ∨ a = .take k.r s c →
        Current ([a] ++ k.cy.acts) k.r s c := by
      rintro a (rfl | rfl) <;> simp [Current, owner, opened]
    have hone : ∀ a, a = .get k.r s c ∨ a = .take k.r s c → Confined k.r s [a] k.cy.acts := by
      rintro a (rfl | rfl) <;> exact ⟨⟨rfl, rfl⟩, trivial⟩
    obtain ⟨a, ha, hnew⟩ : ∃ a, (a = .get k.r s c ∨ a = .take k.r s c) ∧
        k'.cy.acts = (new ++ [a]) ++ k.cy.acts := by
      rcases hacts with ha | ha
      · exact ⟨_, Or.inl rfl, by rw [ha]; simp⟩
      · exact ⟨_, Or.inr rfl, by rw [ha]; simp⟩
    refine ⟨⟨new ++ [a], hnew, ?_⟩, fun r t d _ hd => ?_⟩
    · exact confined_append (confined_transfers ht (hcur a ha)) (hone a ha)
    · have hdc : c ≠ d := fun he => hg.not_request_of_stores hst r t (he ▸ hd)
      refine ⟨?_, hst.same d hdc.symm⟩
      rw [hst.owner_eq, if_neg hdc, hd]

/-- A clear of the upstream of `s`. -/
theorem releases (hg : k.Good pools) (hon : k.u.IsOn s) (hr : k.Releases k') :
    k.Within s k' := by
  cases hr with
  | keeps hk => exact keeps hk
  | closes t c hown hcl _ =>
    have hts : k.u.holds = some s := hon.resolve_left (by simp [hown.connection])
    obtain rfl : t = s := Option.some.inj (hown.holds.symm.trans hts)
    obtain ⟨d, hd, _, hop⟩ := hg.held.held t hts
    obtain rfl : d = c := Option.some.inj (hd.symm.trans hown.connection)
    have hcur : Current k.cy.acts k.r t d := ⟨hop, hown.owner⟩
    refine ⟨?_, fun r t' e hne he => ?_⟩
    · rcases hcl.acts with ha | ha
      · exact ⟨[_], ha, ⟨rfl, hcur⟩, trivial⟩
      · exact ⟨[_, _], ha, ⟨rfl, hcur⟩, ⟨rfl, hcur⟩, trivial⟩
    · have hde : d ≠ e := by
        rintro rfl
        have howner := hown.owner.symm.trans he
        simp only [Owner.request.injEq] at howner
        exact hne (by rw [howner.1, howner.2])
      refine ⟨?_, hcl.same e hde.symm⟩
      rw [hcl.owner_eq, if_neg hde, he]
  | pools t c out hown hp _ =>
    have hts : k.u.holds = some s := hon.resolve_left (by simp [hown.connection])
    obtain rfl : t = s := Option.some.inj (hown.holds.symm.trans hts)
    obtain ⟨d, hd, _, hop⟩ := hg.held.held t hts
    obtain rfl : d = c := Option.some.inj (hd.symm.trans hown.connection)
    have hheld : ∀ e ∈ out, owner k.cy.acts e = .pool k.kc.id := fun e => hg.owner_of_pools hp
    have hdout : d ∉ out := fun hm => by
      have howner := hown.owner
      simp [hheld d hm] at howner
    have hconf : Confined k.r t (poolCloseActs k.kc.id out) k.cy.acts := by
      cases out with
      | none => trivial
      | some e =>
        have he := hheld e rfl
        exact ⟨he, he, trivial⟩
    refine ⟨⟨.keep k.r k.kc.id d :: poolCloseActs k.kc.id out, hp.acts, ⟨rfl, ?_⟩, hconf⟩,
      fun r t' e hne he => ?_⟩
    · exact ⟨(opened_poolCloseActs _ _ _ _ _).trans hop,
        (owner_poolCloseActs _ _ _ _).trans ((if_neg hdout).trans hown.owner)⟩
    · have hde : d ≠ e := by
        rintro rfl
        have howner := hown.owner.symm.trans he
        simp only [Owner.request.injEq] at howner
        exact hne (by rw [howner.1, howner.2])
      have heout : e ∉ out := fun hm => by simp [hheld e hm] at he
      refine ⟨?_, hp.same e hde.symm heout⟩
      rw [hp.owner_eq, if_neg hde.symm, if_neg heout, he]

end Sock.Within

/-! ## Calls and events -/

/-- The resource that a call was given. -/
def Call.resource : Call → Option Resource
  | .connect s _ _ _ _ => some s
  | .close s _ => some s
  | .clear s _ => some s
  | .send s _ _ _ => some s
  | .recv s _ _ _ => some s
  | .recvpage s _ _ _ _ => some s
  | .recvwait s _ _ _ => some s
  | .recvsync s _ _ _ => some s
  | _ => none

/-- The request and the resource on whose behalf a step is: that of a call or of a query, or
the one whose connection has an event. -/
def Worker.actsFor (w : Worker) : Step → Option (ReqId × Resource)
  | .call r c => c.resource.map fun s => (r, s)
  | .resolved r q _ => some (r, q.resource)
  | .connectionEvent c _ _ _ _ =>
    match owner w.cy.acts c with
    | .request r s => some (r, s)
    | _ => none
  | _ => none

/-- A step on behalf of resource `s` of request `r` works only on the current connection of
`s`, and leaves the connections and the pending data of every other resource alone. -/
structure Worker.Separate (w w' : Worker) (r : ReqId) (s : Resource) : Prop where
  acts : ∃ new, w'.cy.acts = new ++ w.cy.acts ∧ Confined r s new w.cy.acts
  others : ∀ r' t d, (r', t) ≠ (r, s) → owner w.cy.acts d = .request r' t →
    owner w'.cy.acts d = .request r' t ∧ (w.cy.connections d).SameUse (w'.cy.connections d)
  pending : ∀ r' t, (r', t) ≠ (r, s) → (w.session r').view.u.sender = some t →
    (w.session r').view.SamePending (w'.session r').view

/-- Nothing of another resource is waiting to be sent. -/
def Upstream.SendsFor (u : Upstream) (s : Resource) : Prop := u.sender = none ∨ u.sender = some s

instance Upstream.decidableSendsFor (u : Upstream) (s : Resource) : Decidable (u.SendsFor s) :=
  inferInstanceAs (Decidable (_ ∨ _))

/-- What a call needs of the upstream for its resource. -/
def Call.Suits (c : Call) (u : Upstream) : Prop :=
  match c with
  | .close s _ => u.IsOn s
  | .clear s _ => u.IsOn s
  | .send s _ len _ => len < 0 ∨ (u.IsOn s ∧ u.SendsFor s)
  | .recv s _ _ _ => u.IsOn s
  | .recvpage s _ _ _ _ => u.IsOn s
  | .recvwait s _ _ _ => u.IsOn s
  | .recvsync s _ _ _ => u.IsOn s
  | _ => True

instance Call.decidableSuits (c : Call) (u : Upstream) : Decidable (c.Suits u) := by
  unfold Call.Suits
  match c with
  | .sleep _ | .msleep _ | .connect _ _ _ _ _ | .close _ _ | .clear _ _ | .send _ _ _ _
  | .recv _ _ _ _ | .recvpage _ _ _ _ _ | .recvwait _ _ _ _ | .recvsync _ _ _ _ | .settimeout _
  | .iskeepalive => infer_instance

/-- What an event on a connection of resource `s` needs: its handler does nothing and the
script goes on, or the upstream is that of `s`. -/
def Session.EventSuits (k : Session) (s : Resource) (write : Bool) : Prop :=
  (k.ctx.generatorClosure ≠ none ∧ k.view.u.eventHandler write ≠ .send ∧
    k.view.u.eventHandler write ≠ .recv) ∨
  (k.view.u.IsOn s ∧ (k.view.u.eventHandler write = .send → k.view.u.SendsFor s))

instance Session.decidableEventSuits (k : Session) (s : Resource) (write : Bool) :
    Decidable (k.EventSuits s write) := by
  unfold Session.EventSuits
  infer_instance

/-- Every clear is of a connection that was not given up, and every call and every event that
works on a connection finds the upstream to be that of its resource. -/
def Worker.Matched (w : Worker) (l : Step) : Prop :=
  w.Tidy l ∧ (w.Enabled l →
    match l with
    | .call r c => c.Suits (w.session r).view.u
    | .connectionEvent _ write _ _ _ =>
      ∀ p ∈ w.actsFor l, (w.session p.1).EventSuits p.2 write
    | _ => True)

instance Worker.decidableMatched (w : Worker) (l : Step) : Decidable (w.Matched l) := by
  unfold Worker.Matched
  match l with
  | .call _ _ | .closure _ _ | .resolved _ _ _ | .connectionEvent _ _ _ _ _ | .sleepTimer _ _
  | .poolEvent _ _ _ _ | .setOutput _ | .redirect _ _ | .closeRequest _ | .getOther _
  | .closeOther _ => infer_instance

namespace Session

variable {pools : SrvId → KeepaliveConf} {k k' : Session}

/-- A call for resource `s` that finds the upstream to be that of `s`. -/
theorem call_within (hg : k.view.Good pools) {c : Call} {s : Resource} {v : PhpValue}
    (hs : c.resource = some s) (hsuit : c.Suits k.view.u) (he : c.Effect k.view k'.view)
    (hres : k.call c = some (v, k')) : k.view.Within s k'.view := by
  cases c with
  | connect s' _ _ _ _ =>
    obtain rfl : s' = s := Option.some.inj hs
    exact .opens hg he
  | close s' _ =>
    obtain rfl : s' = s := Option.some.inj hs
    exact .releases hg hsuit he
  | clear s' _ =>
    obtain rfl : s' = s := Option.some.inj hs
    exact .releases hg hsuit he
  | send s' buf len ans =>
    obtain rfl : s' = s := Option.some.inj hs
    rcases hsuit with hlen | ⟨hon, _⟩
    · obtain ⟨_, rfl⟩ : PhpValue.bool false = v ∧ k = k' := by
        simpa [call, ngxSocketSend, hlen] using hres
      exact .refl _
    · exact .quiet hg hon he
  | recv s' _ _ _ =>
    obtain rfl : s' = s := Option.some.inj hs
    exact .quiet hg hsuit he
  | recvpage s' _ _ _ _ =>
    obtain rfl : s' = s := Option.some.inj hs
    exact .quiet hg hsuit he
  | recvwait s' _ _ _ =>
    obtain rfl : s' = s := Option.some.inj hs
    exact .quiet hg hsuit he
  | recvsync s' _ _ _ =>
    obtain rfl : s' = s := Option.some.inj hs
    exact .quiet hg hsuit he
  | _ => cases hs

/-- Handlers that neither send nor receive record nothing. -/
theorem handleEvent_acts (k : Session) (write : Bool) (ans : HandlerAnswers)
    (hsend : k.view.u.eventHandler write ≠ .send) (hrecv : k.view.u.eventHandler write ≠ .recv) :
    (k.onSock fun t => t.handleEvent write ans).view.cy.acts = k.view.cy.acts := by
  unfold onSock
  split
  · rfl
  · next u hu =>
    rw [view_of_upstream hu] at hsend hrecv ⊢
    change ((k.sock u).handleEvent write ans).cy.acts = _
    unfold Sock.handleEvent Sock.runHandler
    split
    · rfl
    · rfl
    · unfold connectedHandler
      split <;> rfl
    · next heq => exact absurd heq hsend
    · next heq => exact absurd heq hrecv

/-- An event on a connection of resource `s`. -/
theorem socketHandler_within (hg : k.view.Good pools) {s : Resource} {write : Bool}
    (hsuit : k.EventSuits s write) (moduleCtx : Bool) (ans : HandlerAnswers) (readEvent : Rc)
    (hown : moduleCtx = true → k.ctx.generatorClosure = none → k.OwnsPeer) :
    k.view.Within s (k.socketHandler moduleCtx write ans readEvent).view ∧
      (∀ t, t ≠ s → k.view.u.sender = some t →
        k.view.SamePending (k.socketHandler moduleCtx write ans readEvent).view) := by
  obtain ⟨hm, hrel⟩ := socketHandler_effect hg moduleCtx write ans readEvent hown
  have hq := handleEvent_quiet k write ans
  have hpend : k.view.u.eventHandler write ≠ .send →
      k.view.SamePending (k.socketHandler moduleCtx write ans readEvent).view := fun h => by
    have hpend := (handleEvent_noSend k write ans h).samePending
    unfold socketHandler
    dsimp only
    split
    · exact hpend.trans (resumeWithout_samePending _ readEvent)
    · exact hpend
  rcases hsuit with ⟨hclosure, hsend, hrecv⟩ | ⟨hon, hpending⟩
  · refine ⟨?_, fun t _ _ => hpend hsend⟩
    have hresume : k.socketHandler moduleCtx write ans readEvent =
        k.onSock fun t => t.handleEvent write ans :=
      socketHandler_of_resumes (fun _ => hclosure) write ans readEvent
    rw [hresume]
    exact .idle hq (handleEvent_acts k write ans hsend hrecv)
  · have hon' : (k.onSock fun t => t.handleEvent write ans).view.u.IsOn s := by
      rw [Upstream.IsOn, hq.peer, hq.holds]
      exact hon
    refine ⟨(Sock.Within.quiet hg hon hq).trans hq.r (.releases hm.good hon' hrel), ?_⟩
    intro t ht hsender
    refine hpend fun hhandler => ?_
    rcases hpending hhandler with hn | hs
    · simp [hsender] at hn
    · exact ht (Option.some.inj (hsender.symm.trans hs))

end Session

/-! ## The worker -/

/-- Every call on a resource, every answer to its queries and every event of its connections
keeps to that resource. -/
def Worker.Isolated (w : Worker) (l : Step) : Prop :=
  w.Enabled l → ∀ p ∈ w.actsFor l, w.Separate (w.step l) p.1 p.2

/-- What a request does within one of its resources. -/
private theorem separate_withSession {w : Worker} {r : ReqId} {s : Resource} {k : Session}
    (hr : k.r = r) (hw : (w.session r).view.Within s k.view)
    (hp : ∀ t, t ≠ s → (w.session r).view.u.sender = some t →
      (w.session r).view.SamePending k.view) : w.Separate (w.withSession r k) r s where
  acts := hw.acts
  others := hw.others
  pending r' t hne hs := by
    unfold Sock.SamePending
    by_cases hrr : r' = r
    · subst hrr
      rw [Worker.upstream_withSession hr]
      exact hp t (fun he => hne (by rw [he])) hs
    · rw [Worker.upstream_withSession_of_ne _ _ hrr]
      exact ⟨rfl, rfl⟩

/-- Nothing happens at all. -/
private theorem separate_refl (w : Worker) (r : ReqId) (s : Resource) : w.Separate w r s :=
  ⟨⟨[], rfl, trivial⟩, fun _ _ _ _ ho => ⟨ho, .refl _⟩, fun _ _ _ _ => ⟨rfl, rfl⟩⟩

namespace OwnInv

variable {w : Worker} {r : ReqId} {s : Resource}

/-- A call keeps to the resource that it is given. -/
theorem call_separate (h : OwnInv w) {c : Call} (hs : c.resource = some s)
    (hen : w.Enabled (.call r c)) (hm : w.Matched (.call r c)) :
    w.Separate (w.perform (.call r c)) r s := by
  have hsuits : c.Suits (w.session r).view.u := hm.2 hen
  simp only [Worker.perform]
  split
  · next v k hres =>
    have he := h.call_effect hen (hm.1 hen) hres
    refine separate_withSession ((h.session r).call he).r
      (Session.call_within (h.session r) hs hsuits he hres) fun t ht hsender => ?_
    refine Session.call_samePending hres ?_
    cases c with
    | send s' buf len ans =>
      obtain rfl : s' = s := Option.some.inj hs
      rcases hsuits with hlen | ⟨_, hnone | hsame⟩
      · simpa [Call.sends] using hlen
      · simp [hsender] at hnone
      · exact absurd (Option.some.inj (hsender.symm.trans hsame)) ht
    | _ => rfl
  · exact separate_refl w r s

/-- The event of a connection keeps to the resource that the connection belongs to. -/
theorem event_separate (h : OwnInv w) {c : ConnId} {write : Bool} {how : Wake}
    {ans : HandlerAnswers} {readEvent : Rc} (howner : owner w.cy.acts c = .request r s)
    (hp : (r, s) ∈ w.actsFor (.connectionEvent c write how ans readEvent))
    (hen : w.Enabled (.connectionEvent c write how ans readEvent))
    (hm : w.Matched (.connectionEvent c write how ans readEvent)) :
    w.Separate (w.perform (.connectionEvent c write how ans readEvent)) r s := by
  simp only [Worker.perform]
  split
  · next r' hdata =>
    obtain ⟨s', ho'⟩ := h.net.attached c r' hen.1.1 hdata
    obtain rfl : r' = r := by
      have he := ho'.symm.trans howner
      simp only [Owner.request.injEq] at he
      exact he.1
    have hw := h.wake c write how
    have hsuit : (w.session r').EventSuits s write := hm.2 hen (r', s) hp
    have hown : (w.requests r').moduleCtx = true →
        (w.session r').ctx.generatorClosure = none → (w.session r').OwnsPeer :=
      ownsPeer_of_tidy hdata (hm.1 hen)
    obtain ⟨hmoves, hrel⟩ := h.socketHandler_effect hdata write how ans readEvent (hm.1 hen)
    obtain ⟨hwithin, hpend⟩ :=
      Session.socketHandler_within (hw.session r') hsuit _ ans readEvent hown
    have hsep := separate_withSession (hmoves.trans (hmoves.good.releases hrel)).r hwithin hpend
    refine ⟨hsep.acts, fun r₁ t d hne ho => ?_, hsep.pending⟩
    obtain ⟨ho', hs'⟩ := hsep.others r₁ t d hne ho
    exact ⟨ho', (w.cy.wake_sameUse c d write how).trans hs'⟩
  · exact separate_refl w r s

/-- Under the invariant a matched step is isolated. -/
theorem isolated (h : OwnInv w) {l : Step} (hm : w.Matched l) : w.Isolated l := by
  rintro hen ⟨r, s⟩ hp
  unfold Worker.step
  rw [if_pos hen]
  cases l with
  | call r' c =>
    obtain ⟨s', hs, he⟩ := Option.map_eq_some_iff.mp hp
    obtain ⟨rfl, rfl⟩ := Prod.mk.inj he
    exact h.call_separate hs hen hm
  | resolved r' q ans =>
    obtain ⟨rfl, rfl⟩ : r' = r ∧ q.resource = s := by simpa [Worker.actsFor] using hp
    have ho := Session.resolved_opens (h.session r').represented q ans hen.2
    exact separate_withSession ((h.session r').opens ho).r (.opens (h.session r') ho)
      fun _ _ _ => Session.resolved_samePending _ q ans
  | connectionEvent c write how ans readEvent =>
    refine h.event_separate ?_ hp hen hm
    simp only [Worker.actsFor] at hp
    split at hp
    · next r' s' ho =>
      obtain ⟨rfl, rfl⟩ := Prod.mk.inj (Option.some.inj hp)
      exact ho
    · cases hp
  | _ => cases hp

end OwnInv

/-- In every run whose steps find the upstream to be that of their resource, the resources
of all requests are independent. -/
theorem sockets_isolated {maxCached : SrvId → Nat} {srv : ReqId → SrvId} {ls : List Step}
    (h : Along Worker.step Worker.Matched (Worker.init maxCached srv) ls) :
    Along Worker.step Worker.Isolated (Worker.init maxCached srv) ls :=
  h.transfer (fun _ _ hi hm => hi.step hm.1) (fun _ _ hi hm => hi.isolated hm)
    (ownInv_init maxCached srv)

/-- A script that finishes with one socket before it connects the next. -/
theorem sockets_isolated_in_turn :
    let connect (s : Resource) (c : ConnId) : Step := .call 0 (.connect s (some afInet) [] 80
      { parseUrl := .address [], retval := { connect := .established c } })
    Along Worker.step Worker.Isolated (Worker.init (fun _ => 0) fun _ => 0)
      [.closure 0 (some (.generator true)), connect 0 7,
        .call 0 (.send 0 [1, 2] 2 { sends := [.accepted 1] }),
        .connectionEvent 7 true .ready { send := { sends := [.accepted 5] } } .ok,
        .call 0 (.close 0 .ok), connect 1 8,
        .call 0 (.recv 1 {} 10 { recv := .data 65 [] }), .call 0 (.close 1 .ok)] :=
  sockets_isolated (by decide)

/-- With two sockets connected, a close of the first closes the second. -/
theorem ngxSocketClose_crosses :
    let connect (s : Resource) (c : ConnId) : Step := .call 0 (.connect s (some afInet) [] 80
      { parseUrl := .address [], retval := { connect := .established c } })
    let w := run Worker.step (Worker.init (fun _ => 0) fun _ => 0) [connect 0 7, connect 1 8]
    owner w.cy.acts 8 = .request 0 1 ∧
      (w.step (.call 0 (.close 0 .ok))).cy.acts =
        .close (.request 0) 8 :: .destroyPool (.request 0) 8 :: w.cy.acts ∧
      ¬ w.Isolated (.call 0 (.close 0 .ok)) := by
  refine ⟨by decide, by decide, fun h => ?_⟩
  have hkept := ((h (by decide) (0, 0) rfl).others 0 1 8 (by decide) (by decide)).1
  revert hkept
  decide

end NgxPhp
