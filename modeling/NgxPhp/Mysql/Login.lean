import NgxPhp.Mysql.Client
import NgxPhp.Php.Sha1

/-!
# Whose session a query runs in

The pool hands a connection over for its address alone, and the client takes the flag of the
connection for a login of its own. Over whole runs: a query runs in a session of the user, the
database and the charset of its connect, accepted by the server, if every connect that skips its
login finds such a session on the connection and every login is accepted before it is used.
-/

namespace NgxPhp

open Function (update)
open StepMachine

/-! ## Connections in use -/

/-- Connection `c` is in the peer and has not been given up. -/
def Sock.Uses (k : Sock) (c : ConnId) : Prop :=
  k.u.peer.connection = some c ∧ k.u.holds ≠ none

/-- Transfers change nothing about it. -/
theorem Sock.Quiet.uses {k k' : Sock} (h : k.Quiet k') {c : ConnId} (hc : k'.Uses c) :
    k.Uses c := by
  unfold Sock.Uses
  rw [← h.peer, ← h.holds]
  exact hc

/-- A clear can only end it. -/
theorem Sock.Releases.uses {k k' : Sock} (h : k.Releases k') {c : ConnId} (hc : k'.Uses c) :
    k.Uses c := by
  cases h with
  | keeps h =>
    refine ⟨h.connection ▸ hc.1, ?_⟩
    rcases h.holds with hh | ⟨-, hn⟩
    · exact hh ▸ hc.2
    · exact absurd hn hc.2
  | closes s d hown h hholds => exact absurd hholds hc.2
  | pools s d out hown h hholds => exact absurd hholds hc.2

/-- Request `r` uses connection `c`. -/
def Worker.Uses (w : Worker) (r : ReqId) (c : ConnId) : Prop := (w.session r).view.Uses c

/-- The request that a step connects. -/
def Step.connects? : Step → Option ReqId
  | .call r (.connect _ _ _ _ _) => some r
  | .resolved r _ _ => some r
  | _ => none

/-- Request `r` has the connection that it had. -/
structure Worker.SameHeld (w w' : Worker) (r : ReqId) : Prop where
  connection : (w'.session r).view.u.peer.connection = (w.session r).view.u.peer.connection
  holds : (w'.session r).view.u.holds = (w.session r).view.u.holds

theorem Worker.SameHeld.uses_iff {w w' : Worker} {r : ReqId} (h : w.SameHeld w' r) (c : ConnId) :
    w'.Uses r c ↔ w.Uses r c := by
  unfold Worker.Uses Sock.Uses
  rw [h.connection, h.holds]

theorem Worker.sameHeld_of_view {w w' : Worker} {r : ReqId}
    (h : (w'.session r).view.u = (w.session r).view.u) : w.SameHeld w' r :=
  ⟨by rw [h], by rw [h]⟩

/-- Transfers of the request itself. -/
theorem Worker.sameHeld_of_quiet {w : Worker} {r : ReqId} {k : Session} (hk : k.r = r)
    (hq : (w.session r).view.Quiet k.view) : w.SameHeld (w.withSession r k) r := by
  constructor
  · rw [Worker.upstream_withSession hk, hq.peer]
  · rw [Worker.upstream_withSession hk, hq.holds]

/-- What a step that does not connect a request leaves it: the connection that it had, or, after
a clear, no other one. -/
def Worker.LeavesHeld (w w' : Worker) (l : Step) (r : ReqId) : Prop :=
  w.SameHeld w' r ∨ r ∈ w.clears l ∧ ∀ c, w'.Uses r c → w.Uses r c

/-- What a clear of the request itself leaves. -/
theorem Worker.leavesHeld_of_releases {w : Worker} {l : Step} {r : ReqId} {k : Session}
    (hk : k.r = r) (hl : r ∈ w.clears l) (hrel : (w.session r).view.Releases k.view) :
    w.LeavesHeld (w.withSession r k) l r := by
  refine .inr ⟨hl, fun c hc => hrel.uses (c := c) ?_⟩
  rw [Uses, Sock.Uses, upstream_withSession hk] at hc
  exact hc

/-- The other requests keep their upstreams. -/
theorem Worker.leavesHeld_of_ne {w : Worker} {l : Step} {r r' : ReqId} (k : Session)
    (hr : r ≠ r') : w.LeavesHeld (w.withSession r' k) l r :=
  .inl (sameHeld_of_view (w.upstream_withSession_of_ne k hr))

namespace OwnInv

variable {w : Worker}

/-- A library call that is no connect of request `r`. -/
theorem call_leavesHeld (h : OwnInv w) {r r' : ReqId} {c : Call} (hen : w.Enabled (.call r' c))
    (htidy : ∀ r ∈ w.clears (.call r' c), (w.session r).OwnsPeer)
    (hl : (Step.call r' c).connects? ≠ some r) :
    w.LeavesHeld (w.perform (.call r' c)) (.call r' c) r := by
  simp only [Worker.perform]
  split
  · next v k hres =>
    have heffect := h.call_effect hen htidy hres
    have hk : k.r = r' := ((h.session r').call heffect).r
    by_cases hr : r = r'
    · subst hr
      cases c with
      | connect s type addr port ans => exact absurd rfl hl
      | close s readEvent => exact Worker.leavesHeld_of_releases hk rfl heffect
      | clear s readEvent => exact Worker.leavesHeld_of_releases hk rfl heffect
      | _ => exact .inl (Worker.sameHeld_of_quiet hk heffect)
    · exact Worker.leavesHeld_of_ne k hr
  · exact .inl ⟨rfl, rfl⟩

/-- The event of a connection. -/
theorem connectionEvent_leavesHeld (h : OwnInv w) {r : ReqId} {c : ConnId} {write : Bool}
    {how : Wake} {ans : HandlerAnswers} {readEvent : Rc}
    (htidy : ∀ r ∈ w.clears (.connectionEvent c write how ans readEvent),
      (w.session r).OwnsPeer) :
    w.LeavesHeld (w.perform (.connectionEvent c write how ans readEvent))
      (.connectionEvent c write how ans readEvent) r := by
  simp only [Worker.perform]
  split
  · next r' hdata =>
    by_cases hr : r = r'
    · subst hr
      obtain ⟨hm, hrel⟩ := h.socketHandler_effect hdata write how ans readEvent htidy
      obtain ⟨w₁, hw₁⟩ : ∃ w₁ : Worker, { w with cy := w.cy.wake c write how } = w₁ := ⟨_, rfl⟩
      have hview : (w₁.session r).view.u = (w.session r).view.u := by
        rw [← hw₁]
        rfl
      rw [hw₁] at hm hrel ⊢
      have hk : ((w₁.session r).socketHandler (w.requests r).moduleCtx write ans readEvent).r = r :=
        (hm.trans (hm.good.releases hrel)).r
      have hq := (w₁.session r).handleEvent_quiet write ans
      by_cases hclears : r ∈ w.clears (.connectionEvent c write how ans readEvent)
      · refine .inr ⟨hclears, fun d hd => ?_⟩
        rw [Worker.Uses, Sock.Uses, Worker.onSession, Worker.upstream_withSession hk] at hd
        have huses := hq.uses (hrel.uses hd)
        rwa [Sock.Uses, hview] at huses
      · have hresumes : (w.requests r).moduleCtx = true →
            (w₁.session r).ctx.generatorClosure ≠ none := fun hctx hg =>
          hclears (by
            rw [← hw₁] at hg
            exact Option.mem_def.mpr (by simpa [Worker.clears, hdata] using ⟨hctx, hg⟩))
        have hhandler := Session.socketHandler_of_resumes hresumes write ans readEvent
        rw [hhandler] at hk
        unfold Worker.onSession
        dsimp only
        rw [hhandler]
        have hsame := Worker.sameHeld_of_quiet hk hq
        exact .inl ⟨hsame.connection.trans (by rw [hview]), hsame.holds.trans (by rw [hview])⟩
    · exact .inl (Worker.sameHeld_of_view
        (Worker.upstream_withSession_of_ne { w with cy := w.cy.wake c write how } _ hr))
  · exact .inl ⟨rfl, rfl⟩

/-- The sleep timer of a request. -/
theorem sleepTimer_leavesHeld (h : OwnInv w) {r r' : ReqId} {readEvent : Rc}
    (htidy : ∀ r ∈ w.clears (.sleepTimer r' readEvent), (w.session r).OwnsPeer) :
    w.LeavesHeld (w.perform (.sleepTimer r' readEvent)) (.sleepTimer r' readEvent) r := by
  simp only [Worker.perform]
  split
  · next hctx =>
    have hrel := Session.sleepTimer_releases (h.session r') readEvent fun hg =>
      htidy r' (if_pos ⟨hctx, hg⟩)
    have hk := ((h.session r').releases hrel).r
    by_cases hr : r = r'
    · subst hr
      by_cases hg : (w.requests r).ctx.generatorClosure = none
      · exact Worker.leavesHeld_of_releases hk (if_pos ⟨hctx, hg⟩) hrel
      · refine .inl (Worker.sameHeld_of_quiet hk ?_)
        have hidle : (w.session r).sleepTimer readEvent =
            { w.session r with ctx := (w.session r).ctx.wakeSleep } :=
          Session.resumeWithout_of_closure hg readEvent
        dsimp only
        rw [hidle]
        exact Session.quiet_ctx _ rfl
    · exact Worker.leavesHeld_of_ne _ hr
  · exact .inl (Worker.sameHeld_of_view
      (Worker.upstream_onRequest (f := fun q => { q with ctx := q.ctx.wakeSleep }) rfl))

/-- Only connects make a request use another connection, and only clears end its use. -/
theorem perform_leavesHeld (h : OwnInv w) {l : Step} (hen : w.Enabled l)
    (htidy : ∀ r ∈ w.clears l, (w.session r).OwnsPeer) {r : ReqId}
    (hl : l.connects? ≠ some r) : w.LeavesHeld (w.perform l) l r := by
  have honRequest : ∀ (w : Worker) (r' : ReqId) (f : Request → Request),
      (f (w.requests r')).ctx.upstream = (w.requests r').ctx.upstream →
      w.LeavesHeld (w.onRequest r' f) l r := fun w r' f hf =>
    .inl (Worker.sameHeld_of_view (Worker.upstream_onRequest hf))
  cases l with
  | call r' c => exact h.call_leavesHeld hen htidy hl
  | closure r' g =>
    exact honRequest w r' (fun q => { q with ctx := { q.ctx with generatorClosure := g } }) rfl
  | resolved r' q ans =>
    exact Worker.leavesHeld_of_ne _ fun hr => hl (congrArg some hr.symm)
  | connectionEvent c write how ans readEvent => exact h.connectionEvent_leavesHeld htidy
  | sleepTimer r' readEvent => exact h.sleepTimer_leavesHeld htidy
  | poolEvent d closing peekAgain readEvent =>
    simp only [Worker.perform]
    split <;> exact .inl ⟨rfl, rfl⟩
  | setOutput r' => exact honRequest w r' (fun q => { q with moduleCtx := false }) rfl
  | redirect r' next =>
    refine .inl (Worker.sameHeld_of_view ?_)
    refine Eq.trans (Worker.upstream_onRequest (f := fun q => { q with
      sleepCleanup := (w.requests r').sleepCleanup }) rfl) ?_
    exact Worker.upstream_onRequest
      (f := fun q => { q with moduleCtx := false, redirected := some next }) rfl
  | closeRequest r' =>
    exact honRequest w r' (fun q => { q with
      ctx := if q.sleepCleanup then sleepCleanup q.moduleCtx q.ctx else q.ctx
      closed := true }) (cleanup_upstream (w.requests r'))
  | getOther d => exact .inl ⟨rfl, rfl⟩
  | closeOther d => exact .inl ⟨rfl, rfl⟩

/-- Only connects make a request use another connection. -/
theorem uses_of_perform (h : OwnInv w) {l : Step} (hen : w.Enabled l)
    (htidy : ∀ r ∈ w.clears l, (w.session r).OwnsPeer) {r : ReqId} {c : ConnId}
    (hl : l.connects? ≠ some r) (hc : (w.perform l).Uses r c) : w.Uses r c := by
  rcases h.perform_leavesHeld hen htidy hl with hsame | ⟨-, huses⟩
  · exact (hsame.uses_iff c).mp hc
  · exact huses c hc

/-- Only connects and clears of a request end the use of its connection. -/
theorem uses_perform (h : OwnInv w) {l : Step} (hen : w.Enabled l)
    (htidy : ∀ r ∈ w.clears l, (w.session r).OwnsPeer) {r : ReqId} {c : ConnId}
    (hl : l.connects? ≠ some r) (hclears : r ∉ w.clears l) (hc : w.Uses r c) :
    (w.perform l).Uses r c := by
  rcases h.perform_leavesHeld hen htidy hl with hsame | ⟨hr, -⟩
  · exact (hsame.uses_iff c).mpr hc
  · exact absurd hr hclears

/-- A connection in use is open. -/
theorem isOpen_of_uses (h : OwnInv w) {r : ReqId} {c : ConnId} (hc : w.Uses r c) :
    (w.cy.connections c).isOpen = true := by
  obtain ⟨s, hs⟩ := Option.ne_none_iff_exists'.mp hc.2
  obtain ⟨d, hd, hown, -⟩ := (h.held r).held s hs
  obtain rfl : d = c := Option.some.inj (hd.symm.trans hc.1)
  refine (h.net.inUse d).mpr ?_
  rw [hown]
  exact nofun

/-- Two requests do not use one connection. -/
theorem uses_unique (h : OwnInv w) {r r' : ReqId} {c : ConnId} (hc : w.Uses r c)
    (hc' : w.Uses r' c) : r = r' := by
  obtain ⟨s, hs⟩ := Option.ne_none_iff_exists'.mp hc.2
  obtain ⟨s', hs'⟩ := Option.ne_none_iff_exists'.mp hc'.2
  obtain ⟨d, hd, hown, -⟩ := (h.held r).held s hs
  obtain ⟨d', hd', hown', -⟩ := (h.held r').held s' hs'
  obtain rfl : d = c := Option.some.inj (hd.symm.trans hc.1)
  obtain rfl : d' = d := Option.some.inj (hd'.symm.trans hc'.1)
  have howner := hown.symm.trans hown'
  simp only [Owner.request.injEq] at howner
  exact howner.1

end OwnInv

/-! ## The sessions of the clients -/

/-- The session on connection `c` is that of the last connect of an object, accepted. -/
def MysqlWorker.LoggedIn (m : MysqlWorker) (k : ClientId) (c : ConnId) : Prop :=
  m.logins c = some { cred := (m.clients k).cred, accepted := true }

/-- A query runs in a session of its own object. -/
def MysqlWorker.QueriesOwn (sha1 : Bytes → Bytes) (m : MysqlWorker) (l : MysqlStep) : Prop :=
  match l with
  | .query k _ _ => m.Enabled sha1 l → ∀ c ∈ m.connection (m.requestOf k), m.LoggedIn k c
  | _ => True

/-- The object that connected last in a request waits for the answer to its login. -/
def MysqlWorker.Waits (m : MysqlWorker) (r : ReqId) : Prop :=
  ∃ k ∈ m.latest r, (m.clients k).phase = .authenticating

/-- The condition on one kind of step. -/
def MysqlStep.Careful (m : MysqlWorker) : MysqlStep → Prop
  -- nothing connects between a login and its answer
  | .connect k _ _ _ _ _ => ¬ m.Waits (m.requestOf k)
  | .event (.call r (.connect _ _ _ _ _)) => ¬ m.Waits r
  -- a connect that skips the login has the connection that it made, and the last login there was
  -- for the same user, database and charset
  | .connected k => m.iskeepalive (m.requestOf k) = true →
      ∀ c ∈ m.connection (m.requestOf k), m.worker.Uses (m.requestOf k) c →
        m.latest (m.requestOf k) = some k ∧ (m.logins c).map Login.cred = some (m.clients k).cred
  | .greeted k scramble _ => phpEmpty scramble = false →
      m.latest (m.requestOf k) = some k ∧ (m.worker.session (m.requestOf k)).OwnsPeer
  -- the server has accepted the login when its answer is read
  | .answered k => ∀ c ∈ m.connection (m.requestOf k), m.worker.Uses (m.requestOf k) c →
      ∀ login ∈ m.logins c, login.accepted = true
  -- after a connect that has gone through and that was the last of the request, or without a
  -- connection
  | .query k _ _ => m.connection (m.requestOf k) ≠ none →
      m.latest (m.requestOf k) = some k ∧ (m.clients k).phase = .ready ∧
        (m.worker.session (m.requestOf k)).OwnsPeer
  -- the resolver does not connect behind the back of a client
  | .event (.resolved r _ _) => ∀ k ∈ m.latest r,
      (m.clients k).phase ≠ .authenticating ∧ (m.clients k).phase ≠ .ready
  | _ => True

/-- A step in which no connection that was given up is used or cleared, none is cleared between a
login and its answer, and nobody takes the login of another one for its own. -/
def MysqlWorker.Careful (sha1 : Bytes → Bytes) (m : MysqlWorker) (l : MysqlStep) : Prop :=
  m.Enabled sha1 l →
    (∀ l' ∈ l.inWorker sha1 m, m.worker.Tidy l' ∧ ∀ r ∈ m.worker.clears l', ¬ m.Waits r) ∧
      l.Careful m

instance MysqlWorker.decidableLoggedIn (m : MysqlWorker) (k : ClientId) (c : ConnId) :
    Decidable (m.LoggedIn k c) :=
  inferInstanceAs (Decidable (_ = _))

instance MysqlWorker.decidableWaits (m : MysqlWorker) (r : ReqId) : Decidable (m.Waits r) := by
  unfold MysqlWorker.Waits
  infer_instance

instance Worker.decidableUses (w : Worker) (r : ReqId) (c : ConnId) : Decidable (w.Uses r c) :=
  inferInstanceAs (Decidable (_ ∧ _))

instance MysqlWorker.decidableQueriesOwn (sha1 : Bytes → Bytes) (m : MysqlWorker)
    (l : MysqlStep) : Decidable (m.QueriesOwn sha1 l) := by
  unfold MysqlWorker.QueriesOwn
  split <;> infer_instance

instance MysqlStep.decidableCareful (m : MysqlWorker) (l : MysqlStep) :
    Decidable (l.Careful m) := by
  unfold MysqlStep.Careful
  split <;> infer_instance

instance MysqlWorker.decidableCareful (sha1 : Bytes → Bytes) (m : MysqlWorker) (l : MysqlStep) :
    Decidable (m.Careful sha1 l) :=
  inferInstanceAs (Decidable (_ → _))

/-- An object that is logging in has sent its login on connection `c`, and one that is ready has
been accepted there. -/
def MysqlWorker.Settled (m : MysqlWorker) (k : ClientId) (c : ConnId) : Prop :=
  match (m.clients k).phase with
  | .authenticating => ∃ login, m.logins c = some login ∧ login.cred = (m.clients k).cred
  | .ready => m.LoggedIn k c
  | _ => True

/-- An object that is ready. -/
theorem MysqlWorker.Settled.of_ready {m : MysqlWorker} {k : ClientId} {c : ConnId}
    (hphase : (m.clients k).phase = .ready) (h : m.LoggedIn k c) : m.Settled k c := by
  unfold Settled
  rw [hphase]
  exact h

/-- An object that waits for the answer to its login. -/
theorem MysqlWorker.Settled.of_authenticating {m : MysqlWorker} {k : ClientId} {c : ConnId}
    (hphase : (m.clients k).phase = .authenticating) {login : Login}
    (h : m.logins c = some login) (hcred : login.cred = (m.clients k).cred) : m.Settled k c := by
  unfold Settled
  rw [hphase]
  exact ⟨login, h, hcred⟩

/-- In the other phases nothing is to be shown. -/
theorem MysqlWorker.Settled.of_phase {m : MysqlWorker} {k : ClientId} {c : ConnId}
    (ha : (m.clients k).phase ≠ .authenticating) (hr : (m.clients k).phase ≠ .ready) :
    m.Settled k c := by
  unfold Settled
  split
  · next hphase => exact absurd hphase ha
  · next hphase => exact absurd hphase hr
  · trivial

/-- The invariant of the worker; the objects that connected last are settled on the connections
that their requests use, and a login that was not accepted is one whose answer is awaited. -/
structure LoginInv (m : MysqlWorker) : Prop where
  own : OwnInv m.worker
  named : ∀ r k, m.latest r = some k → m.requestOf k = r
  settled : ∀ r k c, m.latest r = some k → m.worker.Uses r c → m.Settled k c
  awaited : ∀ c login, m.logins c = some login → login.accepted = false →
    ∃ r, m.Waits r ∧ m.worker.Uses r c

theorem loginInv_init (maxCached : SrvId → Nat) (srv : ReqId → SrvId)
    (request : ClientId → ReqId) (socket : ClientId → Resource) :
    LoginInv (MysqlWorker.init maxCached srv request socket) where
  own := ownInv_init maxCached srv
  named _ _ h := nomatch h
  settled _ _ _ h := nomatch h
  awaited _ _ h := nomatch h

/-- The request that a step connects. -/
def MysqlStep.connects? (m : MysqlWorker) : MysqlStep → Option ReqId
  | .connect k _ _ _ _ _ => some (m.requestOf k)
  | .event l => l.connects?
  | _ => none

/-- The objects that connect decide which one was the last. -/
theorem MysqlStep.onLatest_of_not_connects {m : MysqlWorker} {l : MysqlStep} {r : ReqId}
    (hl : l.connects? m ≠ some r) : l.onLatest m r = m.latest r := by
  cases l with
  | connect k host port cred password ans =>
    exact Function.update_of_ne (fun hr => hl (congrArg some hr.symm)) ..
  | event l =>
    cases l with
    | call r' c =>
      cases c with
      | connect s type addr port ans =>
        exact Function.update_of_ne (fun hr => hl (congrArg some hr.symm)) ..
      | _ => rfl
    | _ => rfl
  | _ => rfl

/-- The step of the worker connects nobody else. -/
theorem MysqlWorker.Enabled.connects {sha1 : Bytes → Bytes} {m : MysqlWorker} {l : MysqlStep}
    (hen : m.Enabled sha1 l) {l' : Step} (hl : l.inWorker sha1 m = some l') {r : ReqId}
    (hr : l'.connects? = some r) : l.connects? m = some r := by
  have hkind := hen.2.2
  cases l with
  | connect k host port cred password ans =>
    cases hl
    exact hr
  | greeted k scramble ans =>
    simp only [MysqlStep.inWorker] at hl
    split at hl
    · cases hl
    · cases hl
      cases hr
  | receive k c =>
    cases hl
    cases c with
    | connect s type addr port ans => cases hkind
    | _ => cases hr
  | event l₀ =>
    cases hl
    exact hr
  | query k sql ans =>
    cases hl
    cases hr
  | close k readEvent =>
    cases hl
    cases hr
  | clear k readEvent =>
    cases hl
    cases hr
  | _ => cases hl

/-- The object that takes a step. -/
theorem MysqlWorker.perform_clients_self {sha1 : Bytes → Bytes} {m : MysqlWorker} {l : MysqlStep}
    {k : ClientId} {phases : List ClientPhase} (hby : l.byClient = some (k, phases)) :
    (m.perform sha1 l).clients k = l.onClient m (m.clients k) := by
  simp only [MysqlWorker.perform, hby]
  exact Function.update_self ..

/-- Another object. -/
theorem MysqlWorker.perform_clients_of_ne {sha1 : Bytes → Bytes} {m : MysqlWorker} {l : MysqlStep}
    {k : ClientId} (hby : ∀ b ∈ l.byClient, b.1 ≠ k) :
    (m.perform sha1 l).clients k = m.clients k := by
  cases hl : l.byClient with
  | none => simp only [MysqlWorker.perform, hl]
  | some b =>
    simp only [MysqlWorker.perform, hl]
    exact Function.update_of_ne (hby b hl).symm ..

/-- An object stays with its request. -/
theorem MysqlWorker.perform_requestOf (sha1 : Bytes → Bytes) (m : MysqlWorker) (l : MysqlStep)
    (k : ClientId) : (m.perform sha1 l).requestOf k = m.requestOf k := by
  unfold MysqlWorker.requestOf
  by_cases hby : ∃ phases, l.byClient = some (k, phases)
  · obtain ⟨phases, hby⟩ := hby
    rw [MysqlWorker.perform_clients_self hby]
    cases l <;> rfl
  · rw [MysqlWorker.perform_clients_of_ne fun b hb hk => hby ⟨b.2, by rw [← hk]; exact hb⟩]

namespace LoginInv

variable {sha1 : Bytes → Bytes} {m : MysqlWorker}

/-- The worker below a step. -/
theorem perform_own (h : LoginInv m) {l : MysqlStep} (hen : m.Enabled sha1 l)
    (hcare : m.Careful sha1 l) : OwnInv (m.perform sha1 l).worker := by
  have hwork := hen.2.1
  have htidy := (hcare hen).1
  unfold MysqlWorker.perform
  dsimp only
  cases hl : l.inWorker sha1 m with
  | none => exact h.own
  | some l' => exact h.own.perform (hwork l' hl) ((htidy l' hl).1 (hwork l' hl))

/-- What a request uses after a step it has used before, unless it was connected. -/
theorem uses_of_perform (h : LoginInv m) {l : MysqlStep} (hen : m.Enabled sha1 l)
    (hcare : m.Careful sha1 l) {r : ReqId} {c : ConnId}
    (hl : l.connects? m ≠ some r) (hc : (m.perform sha1 l).worker.Uses r c) :
    m.worker.Uses r c := by
  have hwork := hen.2.1
  have htidy := (hcare hen).1
  unfold MysqlWorker.perform at hc
  dsimp only at hc
  cases hin : l.inWorker sha1 m with
  | none =>
    rw [hin] at hc
    exact hc
  | some l' =>
    rw [hin] at hc
    exact h.own.uses_of_perform (hwork l' hin) ((htidy l' hin).1 (hwork l' hin))
      (fun hr => hl (hen.connects hin hr)) hc

/-- While an answer is awaited, a careful step leaves the connection in use. -/
theorem uses_perform (h : LoginInv m) {l : MysqlStep} (hen : m.Enabled sha1 l)
    (hcare : m.Careful sha1 l) {r : ReqId} {c : ConnId} (hwaits : m.Waits r)
    (hl : l.connects? m ≠ some r) (hc : m.worker.Uses r c) :
    (m.perform sha1 l).worker.Uses r c := by
  have hwork := hen.2.1
  have htidy := (hcare hen).1
  unfold MysqlWorker.perform
  dsimp only
  cases hin : l.inWorker sha1 m with
  | none => exact hc
  | some l' =>
    exact h.own.uses_perform (hwork l' hin) ((htidy l' hin).1 (hwork l' hin))
      (fun hr => hl (hen.connects hin hr)) (fun hr => (htidy l' hin).2 r hr hwaits) hc

/-- While an answer is awaited, no careful step connects. -/
theorem connects_ne (hen : m.Enabled sha1 l) (hcare : m.Careful sha1 l) {r : ReqId}
    (hwaits : m.Waits r) : l.connects? m ≠ some r := by
  have hguard := (hcare hen).2
  intro hl
  cases l with
  | connect k host port cred password ans =>
    cases hl
    exact hguard hwaits
  | event l' =>
    cases l' with
    | call r' c =>
      cases c with
      | connect s type addr port ans =>
        cases hl
        exact hguard hwaits
      | _ => cases hl
    | resolved r' q ans =>
      cases hl
      obtain ⟨k, hk, hphase⟩ := hwaits
      exact (hguard k hk).1 hphase
    | _ => cases hl
  | _ => cases hl

/-- A login on a connection of a request in which none is awaited has been accepted. -/
theorem accepted_of_uses (h : LoginInv m) {r : ReqId} {c : ConnId} (hc : m.worker.Uses r c)
    (hwaits : ¬ m.Waits r) {login : Login} (hlogin : m.logins c = some login) :
    login.accepted = true := by
  by_contra haccepted
  obtain ⟨r', hwaits', huses⟩ := h.awaited c login hlogin (by simpa using haccepted)
  rw [h.own.uses_unique huses hc] at hwaits'
  exact hwaits hwaits'

/-- The login of a connection that is in use after a step. -/
theorem perform_logins (h : LoginInv m) {l : MysqlStep} (hen : m.Enabled sha1 l)
    (hcare : m.Careful sha1 l) {r : ReqId} {c : ConnId}
    (hc : (m.perform sha1 l).worker.Uses r c) :
    (m.perform sha1 l).logins c = l.onLogins m c :=
  if_pos ((h.perform_own hen hcare).isOpen_of_uses hc)

/-- An object and a login that a step does not touch. -/
theorem settled_frame (h : LoginInv m) {l : MysqlStep} (hen : m.Enabled sha1 l)
    (hcare : m.Careful sha1 l) {r : ReqId} {k : ClientId} {c : ConnId}
    (hlatest : m.latest r = some k) (hl : l.connects? m ≠ some r)
    (hclient : (m.perform sha1 l).clients k = m.clients k)
    (hlogin : l.onLogins m c = m.logins c)
    (hc : (m.perform sha1 l).worker.Uses r c) : (m.perform sha1 l).Settled k c := by
  have hset := h.settled r k c hlatest (h.uses_of_perform hen hcare hl hc)
  unfold MysqlWorker.Settled MysqlWorker.LoggedIn at hset ⊢
  rw [hclient, h.perform_logins hen hcare hc, hlogin]
  exact hset

/-- An object goes on without a login only if the connection has one of its own. -/
theorem connected_settled (h : LoginInv m) {r : ReqId} {k : ClientId}
    (hlatest : m.latest r = some k) (hen : m.Enabled sha1 (.connected k))
    (hcare : m.Careful sha1 (.connected k)) {c : ConnId}
    (hc : (m.perform sha1 (.connected k)).worker.Uses r c) :
    (m.perform sha1 (.connected k)).Settled k c := by
  have hcl : (m.perform sha1 (.connected k)).clients k =
      MysqlStep.onClient m (m.clients k) (.connected k) := MysqlWorker.perform_clients_self rfl
  obtain rfl : m.requestOf k = r := h.named r k hlatest
  by_cases hkeep : m.iskeepalive (m.requestOf k) = true
  · have huses := h.uses_of_perform hen hcare (by exact nofun) hc
    obtain ⟨-, hcred⟩ := (hcare hen).2 hkeep c huses.1 huses
    obtain ⟨login, hlogin, hcred⟩ := Option.map_eq_some_iff.mp hcred
    have hwaits : ¬ m.Waits (m.requestOf k) := by
      rintro ⟨k', hk', hphase'⟩
      obtain rfl : k = k' := Option.some.inj (hlatest.symm.trans hk')
      have hphase := (hen.1 (k, [.connecting]) rfl).2
      simp [hphase'] at hphase
    have haccepted := h.accepted_of_uses huses hwaits hlogin
    refine .of_ready (by rw [hcl]; exact if_pos hkeep) ?_
    rw [MysqlWorker.LoggedIn, hcl, h.perform_logins hen hcare hc]
    refine hlogin.trans (congrArg some ?_)
    rw [← haccepted]
    exact hcred ▸ rfl
  · have hphase : ((m.perform sha1 (.connected k)).clients k).phase = .greeting := by
      rw [hcl]
      exact if_neg hkeep
    exact .of_phase (by rw [hphase]; exact nofun) (by rw [hphase]; exact nofun)

/-- The login is that of the connect. -/
theorem greeted_settled (h : LoginInv m) {r : ReqId} {k : ClientId} (hlatest : m.latest r = some k)
    {scramble : Bytes} {ans : SendAnswers} (hen : m.Enabled sha1 (.greeted k scramble ans))
    (hcare : m.Careful sha1 (.greeted k scramble ans)) {c : ConnId}
    (hc : (m.perform sha1 (.greeted k scramble ans)).worker.Uses r c) :
    (m.perform sha1 (.greeted k scramble ans)).Settled k c := by
  have hcl : (m.perform sha1 (.greeted k scramble ans)).clients k =
      MysqlStep.onClient m (m.clients k) (.greeted k scramble ans) :=
    MysqlWorker.perform_clients_self rfl
  obtain rfl : m.requestOf k = r := h.named r k hlatest
  by_cases hempty : phpEmpty scramble = true
  · have hphase : ((m.perform sha1 (.greeted k scramble ans)).clients k).phase = .refused := by
      rw [hcl]
      exact if_pos hempty
    exact .of_phase (by rw [hphase]; exact nofun) (by rw [hphase]; exact nofun)
  · have hconn : m.connection (m.requestOf k) = some c :=
      (h.uses_of_perform hen hcare (by exact nofun) hc).1
    have hlogin : (m.perform sha1 (.greeted k scramble ans)).logins c =
        some { cred := (m.clients k).cred } := by
      rw [h.perform_logins hen hcare hc]
      simp [MysqlStep.onLogins, hconn, hempty]
    refine .of_authenticating ?_ hlogin ?_
    · rw [hcl]
      exact if_neg hempty
    · rw [hcl]
      rfl

/-- It goes out on a connection that no other request uses. -/
theorem greeted_onLogins (h : LoginInv m) {r : ReqId} {k : ClientId} {scramble : Bytes}
    {ans : SendAnswers}
    (hown : phpEmpty scramble = false → (m.worker.session (m.requestOf k)).OwnsPeer)
    (hr : phpEmpty scramble = false → m.requestOf k ≠ r) {c : ConnId}
    (huses : m.worker.Uses r c) :
    (MysqlStep.greeted k scramble ans).onLogins m c = m.logins c := by
  cases hconn : m.connection (m.requestOf k) with
  | none => simp [MysqlStep.onLogins, hconn]
  | some d =>
    by_cases hempty : phpEmpty scramble = true
    · simp [MysqlStep.onLogins, hconn, hempty]
    · have hpeer : (m.worker.session (m.requestOf k)).view.u.peer.connection ≠ none := by
        intro hn
        exact nomatch hn.symm.trans hconn
      have hd : m.worker.Uses (m.requestOf k) d :=
        ⟨hconn, (hown (by simpa using hempty)).resolve_left hpeer⟩
      have hcd : c ≠ d := by
        rintro rfl
        exact hr (by simpa using hempty) (h.own.uses_unique hd huses)
      simp [MysqlStep.onLogins, hconn, hempty, Function.update_of_ne hcd]

/-- The answer is read when the server has accepted the login. -/
theorem answered_settled (h : LoginInv m) {r : ReqId} {k : ClientId}
    (hlatest : m.latest r = some k) (hen : m.Enabled sha1 (.answered k))
    (hcare : m.Careful sha1 (.answered k)) {c : ConnId}
    (hc : (m.perform sha1 (.answered k)).worker.Uses r c) :
    (m.perform sha1 (.answered k)).Settled k c := by
  have hcl : (m.perform sha1 (.answered k)).clients k =
      MysqlStep.onClient m (m.clients k) (.answered k) := MysqlWorker.perform_clients_self rfl
  obtain rfl : m.requestOf k = r := h.named r k hlatest
  have huses := h.uses_of_perform hen hcare (by exact nofun) hc
  have hphase : (m.clients k).phase = .authenticating := by
    simpa [MysqlStep.byClient] using (hen.1 (k, [.authenticating]) rfl).2
  have hset := h.settled _ k c hlatest huses
  simp only [MysqlWorker.Settled, hphase] at hset
  obtain ⟨login, hlogin, hcred⟩ := hset
  have haccepted : login.accepted = true := (hcare hen).2 c huses.1 huses login hlogin
  refine .of_ready (by rw [hcl]; rfl) ?_
  rw [MysqlWorker.LoggedIn, hcl, h.perform_logins hen hcare hc]
  refine hlogin.trans (congrArg some ?_)
  rw [← haccepted]
  exact hcred ▸ rfl

/-- An accepted login is still that of its object. -/
theorem accepts_settled (h : LoginInv m) {r : ReqId} {k : ClientId} (hlatest : m.latest r = some k)
    {d : ConnId} (hen : m.Enabled sha1 (.accepts d)) (hcare : m.Careful sha1 (.accepts d))
    {c : ConnId} (hc : (m.perform sha1 (.accepts d)).worker.Uses r c) :
    (m.perform sha1 (.accepts d)).Settled k c := by
  have hcl : (m.perform sha1 (.accepts d)).clients k = m.clients k := rfl
  by_cases hcd : c = d
  · subst hcd
    have hset := h.settled r k c hlatest (h.uses_of_perform hen hcare (by exact nofun) hc)
    have hlogin' : (m.perform sha1 (.accepts c)).logins c =
        (m.logins c).map fun login => { login with accepted := true } := by
      rw [h.perform_logins hen hcare hc]
      exact Function.update_self ..
    unfold MysqlWorker.Settled at hset
    split at hset
    · next hphase =>
      obtain ⟨login, hlogin, hcred⟩ := hset
      rw [hlogin, Option.map_some] at hlogin'
      exact .of_authenticating hphase hlogin' hcred
    · next hphase =>
      refine .of_ready hphase ?_
      rw [MysqlWorker.LoggedIn, hlogin', hset, Option.map_some, hcl]
    · next ha hr => exact .of_phase ha hr
  · exact h.settled_frame hen hcare hlatest (by exact nofun) hcl (Function.update_of_ne hcd ..) hc

/-- A careful step leaves the objects that connected last settled. -/
theorem perform_settled (h : LoginInv m) {l : MysqlStep} (hen : m.Enabled sha1 l)
    (hcare : m.Careful sha1 l) {r : ReqId} {k : ClientId} {c : ConnId}
    (hlatest : (m.perform sha1 l).latest r = some k)
    (hc : (m.perform sha1 l).worker.Uses r c) : (m.perform sha1 l).Settled k c := by
  have hlatest : l.onLatest m r = some k := hlatest
  by_cases hby : ∃ phases, l.byClient = some (k, phases)
  -- a step of the object itself
  · obtain ⟨phases, hby⟩ := hby
    have hcl : (m.perform sha1 l).clients k = l.onClient m (m.clients k) :=
      MysqlWorker.perform_clients_self hby
    cases l with
    | connected k₀ =>
      cases hby
      exact h.connected_settled hlatest hen hcare hc
    | greeted k₀ scramble ans =>
      cases hby
      exact h.greeted_settled hlatest hen hcare hc
    | answered k₀ =>
      cases hby
      exact h.answered_settled hlatest hen hcare hc
    | query k₀ sql ans => exact h.settled_frame hen hcare hlatest (by exact nofun) hcl rfl hc
    | receive k₀ c' => exact h.settled_frame hen hcare hlatest (by exact nofun) hcl rfl hc
    | connect k₀ host port cred password ans =>
      exact .of_phase (by rw [hcl]; exact nofun) (by rw [hcl]; exact nofun)
    | close k₀ readEvent =>
      exact .of_phase (by rw [hcl]; exact nofun) (by rw [hcl]; exact nofun)
    | clear k₀ readEvent =>
      exact .of_phase (by rw [hcl]; exact nofun) (by rw [hcl]; exact nofun)
    | accepts d => cases hby
    | event l' => cases hby
  -- a step of another object, or of none
  · have hcl : (m.perform sha1 l).clients k = m.clients k := by
      refine MysqlWorker.perform_clients_of_ne fun b hb hk => hby ⟨b.2, ?_⟩
      rw [← hk]
      exact hb
    cases l with
    | connect k₀ host port cred password ans =>
      have hr : r ≠ m.requestOf k₀ := by
        rintro rfl
        rw [MysqlStep.onLatest, Function.update_self] at hlatest
        obtain rfl : k₀ = k := Option.some.inj hlatest
        exact hby ⟨_, rfl⟩
      rw [MysqlStep.onLatest, Function.update_of_ne hr] at hlatest
      exact h.settled_frame hen hcare hlatest (fun hn => hr (Option.some.inj hn).symm) hcl rfl hc
    | greeted k₀ scramble ans =>
      have hguard := (hcare hen).2
      have huses := h.uses_of_perform hen hcare (by exact nofun) hc
      refine h.settled_frame hen hcare hlatest (by exact nofun) hcl
        (h.greeted_onLogins (fun hs => (hguard hs).2) (fun hs hr => hby ⟨[.greeting], ?_⟩) huses) hc
      have hlatest₀ := (hguard hs).1
      rw [hr] at hlatest₀
      obtain rfl : k₀ = k := Option.some.inj (hlatest₀.symm.trans hlatest)
      rfl
    | accepts d => exact h.accepts_settled hlatest hen hcare hc
    | event l' =>
      by_cases hconn : l'.connects? = some r
      · cases l' with
        | resolved r₀ q ans =>
          obtain rfl : r₀ = r := Option.some.inj hconn
          have hguard := (hcare hen).2 k hlatest
          exact .of_phase (by rw [hcl]; exact hguard.1) (by rw [hcl]; exact hguard.2)
        | call r₀ c₀ =>
          cases c₀ with
          | connect s type addr port ans =>
            cases hconn
            rw [MysqlStep.onLatest, Function.update_self] at hlatest
            cases hlatest
          | _ => cases hconn
        | _ => cases hconn
      · have hsame := MysqlStep.onLatest_of_not_connects (l := .event l') (m := m) hconn
        exact h.settled_frame hen hcare (hsame ▸ hlatest) hconn hcl rfl hc
    | _ => exact h.settled_frame hen hcare hlatest (by exact nofun) hcl rfl hc

/-- While an answer is awaited, it still is after a careful step, unless it has been read. -/
theorem perform_waits (h : LoginInv m) {l : MysqlStep} (hen : m.Enabled sha1 l)
    (hcare : m.Careful sha1 l) {r : ReqId} (hwaits : m.Waits r)
    (hread : ∀ k, l = .answered k → m.requestOf k ≠ r) : (m.perform sha1 l).Waits r := by
  have hl := connects_ne hen hcare hwaits
  obtain ⟨k, hk, hphase⟩ := hwaits
  have hk : m.latest r = some k := hk
  have hlatest : l.onLatest m r = some k :=
    (MysqlStep.onLatest_of_not_connects hl).trans hk
  refine ⟨k, hlatest, ?_⟩
  by_cases hby : ∃ phases, l.byClient = some (k, phases)
  · obtain ⟨phases, hby⟩ := hby
    have hmem := (hen.1 (k, phases) hby).2
    rw [MysqlWorker.perform_clients_self hby]
    rw [hphase] at hmem
    cases l with
    | answered k₀ =>
      cases hby
      exact absurd (h.named r k hk) (hread k rfl)
    | receive k₀ c => exact hphase
    | accepts d => cases hby
    | event l' => cases hby
    | _ =>
      cases hby
      simp at hmem
  · rw [MysqlWorker.perform_clients_of_ne fun b hb hk' => hby ⟨b.2, by rw [← hk']; exact hb⟩]
    exact hphase

/-- A login that is not accepted after a step is one that it has sent, or was not accepted
before. -/
theorem onLogins_cases {l : MysqlStep} {c : ConnId} {login : Login}
    (hlogin : l.onLogins m c = some login) (haccepted : login.accepted = false) :
    m.logins c = some login ∨ ∃ k scramble ans, l = .greeted k scramble ans ∧
      phpEmpty scramble = false ∧ m.connection (m.requestOf k) = some c := by
  cases l with
  | greeted k scramble ans =>
    cases hconn : m.connection (m.requestOf k) with
    | none =>
      simp only [MysqlStep.onLogins, hconn] at hlogin
      exact .inl hlogin
    | some d =>
      cases hempty : phpEmpty scramble with
      | true =>
        simp only [MysqlStep.onLogins, hconn, hempty, if_true] at hlogin
        exact .inl hlogin
      | false =>
        simp only [MysqlStep.onLogins, hconn, hempty, Bool.false_eq_true, if_false] at hlogin
        by_cases hcd : c = d
        · exact .inr ⟨k, scramble, ans, rfl, hempty, hcd ▸ hconn⟩
        · rw [Function.update_of_ne hcd] at hlogin
          exact .inl hlogin
  | accepts d =>
    simp only [MysqlStep.onLogins] at hlogin
    by_cases hcd : c = d
    · subst hcd
      rw [Function.update_self, Option.map_eq_some_iff] at hlogin
      obtain ⟨_, -, rfl⟩ := hlogin
      cases haccepted
    · rw [Function.update_of_ne hcd] at hlogin
      exact .inl hlogin
  | _ => exact .inl hlogin

/-- After a careful step a login that is not accepted is one whose answer is awaited. -/
theorem perform_awaited (h : LoginInv m) {l : MysqlStep} (hen : m.Enabled sha1 l)
    (hcare : m.Careful sha1 l) {c : ConnId} {login : Login}
    (hlogin : (m.perform sha1 l).logins c = some login) (haccepted : login.accepted = false) :
    ∃ r, (m.perform sha1 l).Waits r ∧ (m.perform sha1 l).worker.Uses r c := by
  have hlogin : l.onLogins m c = some login := by
    unfold MysqlWorker.perform at hlogin
    dsimp only at hlogin
    split at hlogin
    · exact hlogin
    · cases hlogin
  rcases onLogins_cases hlogin haccepted with hbefore | ⟨k, scramble, ans, rfl, hempty, hconn⟩
  · obtain ⟨r, hwaits, huses⟩ := h.awaited c login hbefore haccepted
    refine ⟨r, h.perform_waits hen hcare hwaits fun k hk hr => ?_,
      h.uses_perform hen hcare hwaits (connects_ne hen hcare hwaits) huses⟩
    subst hk hr
    have hread := (hcare hen).2 c huses.1 huses login hbefore
    rw [haccepted] at hread
    cases hread
  · obtain ⟨hlatest, hown⟩ := (hcare hen).2 hempty
    have hpeer : (m.worker.session (m.requestOf k)).view.u.peer.connection ≠ none := by
      intro hn
      exact nomatch hn.symm.trans hconn
    refine ⟨m.requestOf k, ⟨k, hlatest, ?_⟩, ?_⟩
    · rw [MysqlWorker.perform_clients_self rfl]
      exact if_neg (by simp [hempty])
    · have hin : (MysqlStep.greeted k scramble ans).inWorker sha1 m = some (m.callBy k fun s =>
          .send s (authPacket sha1 scramble (m.clients k).password (m.clients k).cred)
            (authPacket sha1 scramble (m.clients k).password (m.clients k).cred).length ans) :=
        if_neg (by simp [hempty])
      have hwork := hen.2.1 _ hin
      have huses := h.own.uses_perform hwork (((hcare hen).1 _ hin).1 hwork)
        (by exact nofun) (by exact nofun)
        (show m.worker.Uses (m.requestOf k) c from ⟨hconn, hown.resolve_left hpeer⟩)
      unfold MysqlWorker.perform
      rw [hin]
      exact huses

/-- The objects that connected last are in their requests. -/
theorem perform_named (h : LoginInv m) (l : MysqlStep) {r : ReqId} {k : ClientId}
    (hlatest : (m.perform sha1 l).latest r = some k) : (m.perform sha1 l).requestOf k = r := by
  have hlatest : l.onLatest m r = some k := hlatest
  rw [MysqlWorker.perform_requestOf]
  by_cases hl : l.connects? m = some r
  · cases l with
    | connect k₀ host port cred password ans =>
      cases hl
      rw [MysqlStep.onLatest, Function.update_self] at hlatest
      rw [Option.some.inj hlatest]
    | event l' =>
      cases l' with
      | call r₀ c₀ =>
        cases c₀ with
        | connect s type addr port ans =>
          cases hl
          rw [MysqlStep.onLatest, Function.update_self] at hlatest
          cases hlatest
        | _ => cases hl
      | resolved r₀ q ans => exact h.named r k hlatest
      | _ => cases hl
    | _ => cases hl
  · exact h.named r k ((MysqlStep.onLatest_of_not_connects hl).symm.trans hlatest)

/-- Every careful step keeps the invariant. -/
theorem step (h : LoginInv m) {l : MysqlStep} (hcare : m.Careful sha1 l) :
    LoginInv (m.step sha1 l) := by
  unfold MysqlWorker.step
  split
  · next hen =>
    exact ⟨h.perform_own hen hcare, fun r k hk => h.perform_named l hk,
      fun r k c hk hc => h.perform_settled hen hcare hk hc,
      fun c login hlogin haccepted => h.perform_awaited hen hcare hlogin haccepted⟩
  · exact h

/-- A query that takes care runs in a session of its object. -/
theorem queriesOwn (h : LoginInv m) {l : MysqlStep} (hcare : m.Careful sha1 l) :
    m.QueriesOwn sha1 l := by
  unfold MysqlWorker.QueriesOwn
  split
  · next k sql ans =>
    intro hen c hc
    have hconn : m.connection (m.requestOf k) ≠ none := by
      rw [hc]
      exact nofun
    obtain ⟨hlatest, hphase, hown⟩ := (hcare hen).2 hconn
    have hset := h.settled _ k c hlatest ⟨hc, hown.resolve_left hconn⟩
    simp only [MysqlWorker.Settled, hphase] at hset
    exact hset
  · trivial

end LoginInv

/-- In every run of careful steps, whatever the requests of the worker do and in whatever order, a
query runs only in a session that was opened with the user, the database and the charset of the
connect of its object and was accepted by the server. -/
theorem mysql_queries_own_session (sha1 : Bytes → Bytes) (maxCached : SrvId → Nat)
    (srv : ReqId → SrvId) (request : ClientId → ReqId) (socket : ClientId → Resource)
    {ls : List MysqlStep}
    (hcare : Along (MysqlWorker.step sha1) (MysqlWorker.Careful sha1)
      (MysqlWorker.init maxCached srv request socket) ls) :
    Along (MysqlWorker.step sha1) (MysqlWorker.QueriesOwn sha1)
      (MysqlWorker.init maxCached srv request socket) ls :=
  Along.transfer (fun _ _ h hc => h.step hc) (fun _ _ h hc => h.queriesOwn hc)
    (loginInv_init maxCached srv request socket) hcare

/-- Object `k` logs in on connection `c`, and the server accepts. -/
def MysqlStep.login (k : ClientId) (cred : Credentials) (c : ConnId) : List MysqlStep :=
  [.connect k [104] 3306 cred [] { parseUrl := .address [1], retval :=
      { connect := .established c } },
    .connected k, .greeted k [1] { sends := [.accepted 99] }, .accepts c, .answered k]

/-- A query of object `k`. -/
def MysqlStep.ask (k : ClientId) : MysqlStep := .query k [115] { sends := [.accepted 99] }

/-- One request logs in on connection 7, which the server accepts, queries and puts the connection
into the pool; another one connects with the credentials `cred` and queries. -/
def MysqlStep.twoRequests (cred : Credentials) : List MysqlStep :=
  login 0 { user := [97] } 7 ++ [ask 0, .clear 0 .ok,
    .connect 1 [104] 3306 cred [] { parseUrl := .address [1], retval :=
      { connect := .refused false } },
    .connected 1, ask 1]

/-- The second request uses the session of the first with the same credentials. -/
theorem mysql_shares_session :
    Along (MysqlWorker.step phpSha1) (MysqlWorker.QueriesOwn phpSha1)
      (MysqlWorker.init (fun _ => 1) (fun _ => 0) id id)
      (MysqlStep.twoRequests { user := [97] }) :=
  mysql_queries_own_session phpSha1 (fun _ => 1) (fun _ => 0) id id (by decide +kernel)

/-- With other credentials it uses it as well; and of two objects in one request the first one
queries in the session of the second. -/
theorem mysql_queries_foreign_session :
    (¬ Along (MysqlWorker.step phpSha1) (MysqlWorker.QueriesOwn phpSha1)
      (MysqlWorker.init (fun _ => 1) (fun _ => 0) id id)
      (MysqlStep.twoRequests { user := [98] })) ∧
    ¬ Along (MysqlWorker.step phpSha1) (MysqlWorker.QueriesOwn phpSha1)
      (MysqlWorker.init (fun _ => 1) (fun _ => 0) (fun _ => 0) id)
      (MysqlStep.login 0 { user := [97] } 7 ++ MysqlStep.login 1 { user := [98] } 8 ++
        [MysqlStep.ask 0]) := by
  constructor <;> decide +kernel

end NgxPhp
