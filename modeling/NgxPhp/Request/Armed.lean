import NgxPhp.Request.Connect
import NgxPhp.Socket.Timers

/-!
# What bounds the wait of a script

A request that waits is resumed in bounded time if its sleep timer, a timer of its
connection or a query of the resolver is pending. Each call that a script can wait
for either sees to that or has to find something pending already.
-/

namespace NgxPhp

/-- The wait of the request ends by itself. -/
def Session.HasTimer (k : Session) : Prop :=
  k.ctx.sleep.timer.isSome = true ∨ k.view.Timed

instance Session.decidableHasTimer (k : Session) : Decidable k.HasTimer :=
  inferInstanceAs (Decidable (_ ∨ _))

/-- The calls that a script waits for at a `yield`. -/
def Call.awaited : Call → Bool
  | .sleep _ => true
  | .msleep _ => true
  | .connect _ _ _ _ _ => true
  | .close _ _ => true
  | .send _ _ _ _ => true
  | .recv _ _ _ _ => true
  | .recvwait _ _ _ _ => true
  | _ => false

/-- A receive of `len` bytes leaves something pending. -/
def Sock.ArmsRecv (k : Sock) (len : Nat) (ans : RecvAnswers) : Prop :=
  if k.Usable then ans.Arms (k.onUpstream fun u => { u with bufferSize := len }) else k.Timed

instance Sock.decidableArmsRecv (k : Sock) (len : Nat) (ans : RecvAnswers) :
    Decidable (k.ArmsRecv len ans) := by
  unfold Sock.ArmsRecv
  infer_instance

/-- The call leaves something pending that ends a wait for it. -/
def Call.Arms (c : Call) (k : Session) : Prop :=
  match c with
  | .sleep _ => True
  | .msleep _ => True
  | .close _ _ => k.view.u.peer.connection.isSome = true ∨ k.HasTimer
  | .connect _ type _ port ans => k.ctx.sleep.timer.isSome = true ∨
      if type = some afInet then ans.Arms port k.view else k.view.Timed
  | .send _ buf len ans => k.ctx.sleep.timer.isSome = true ∨
      if 0 ≤ len ∧ k.view.Usable then ans.Arms buf.length k.view else k.view.Timed
  | .recv _ _ len ans => k.ctx.sleep.timer.isSome = true ∨ k.view.ArmsRecv len ans
  | .recvwait _ _ len ans => k.ctx.sleep.timer.isSome = true ∨ k.view.ArmsRecv len ans
  | _ => k.HasTimer

instance Call.decidableArms (c : Call) (k : Session) : Decidable (c.Arms k) :=
  match c with
  | .sleep _ => .isTrue trivial
  | .msleep _ => .isTrue trivial
  | .close _ _ => inferInstanceAs (Decidable (_ ∨ _))
  | .connect _ _ _ _ _ => inferInstanceAs (Decidable (_ ∨ ite _ _ _))
  | .send _ _ _ _ => inferInstanceAs (Decidable (_ ∨ ite _ _ _))
  | .recv _ _ _ _ => inferInstanceAs (Decidable (_ ∨ _))
  | .recvwait _ _ _ _ => inferInstanceAs (Decidable (_ ∨ _))
  | .clear _ _ | .recvpage _ _ _ _ _ | .recvsync _ _ _ _ | .settimeout _ | .iskeepalive =>
    k.decidableHasTimer

/-! ## Socket functions -/

theorem Sock.SameTimers.armsSend_iff {k k' : Sock} (h : k.SameTimers k') (ans : SendAnswers)
    (n : Nat) : ans.Arms n k' ↔ ans.Arms n k := by
  unfold SendAnswers.Arms
  rw [h.timed_iff, h.queries, h.readTimer]

theorem socketSend_timed_iff (ans : SendAnswers) {k : Sock} (bytes : Bytes)
    (hb : k.u.requestBufs = some bytes) :
    (socketSend ans k).2.Timed ↔ if k.Usable then ans.Arms bytes.length k else k.Timed := by
  have hset : k.SameTimers (k.onUpstream fun u => { u with enabledReceive := false }) :=
    .of_conn rfl rfl fun d _ => ⟨rfl, rfl⟩
  unfold socketSend
  split
  · next hc => rw [if_neg fun h => by simp [Sock.Usable, hc] at h]
  · next c hc =>
    dsimp only
    generalize hk : (k.onUpstream fun u => { u with enabledReceive := false }) = k₁ at hset ⊢
    have hr : (k₁.u.request ≠ k₁.r) = (k.u.request ≠ k.r) := hk ▸ rfl
    have hc₁ : k₁.u.peer.connection = some c := hk ▸ hc
    have hb₁ : k₁.u.requestBufs = some bytes := hk ▸ hb
    simp only [hr]
    by_cases hreq : k.u.request = k.r
    · rw [if_neg (not_not.mpr hreq), if_pos (show k.Usable from ⟨by simp [hc], hreq⟩),
        upstreamSend_timed_iff ans hc₁ hb₁, hset.armsSend_iff]
    · rw [if_pos hreq, if_neg fun h : k.Usable => hreq h.2]
      exact hset.timed_iff

theorem socketRecv_timed_iff (ans : RecvAnswers) (k : Sock) :
    (socketRecv ans k).2.Timed ↔ if k.Usable then ans.Arms k else k.Timed := by
  rw [socketRecv_snd, recvThenAwait_timed_iff]

theorem socketRecvWait_timed_iff (ans : RecvAnswers) (k : Sock) :
    (socketRecvWait ans k).2.Timed ↔ if k.Usable then ans.Arms k else k.Timed := by
  rw [socketRecvWait_snd, recvThenAwait_timed_iff]

namespace Session

variable {k k' : Session}

theorem hasTimer_withSock (k : Session) {t : Sock} (hr : t.r = k.r) :
    (k.withSock t).HasTimer ↔ k.ctx.sleep.timer.isSome = true ∨ t.Timed := by
  rw [HasTimer, view_withSock hr]
  exact Iff.rfl

/-- The receiving functions differ in nothing that matters here. -/
theorem recvWith_hasTimer_iff {buf : ScriptVar} {len : Nat} {ans : RecvAnswers} {v : PhpValue}
    {f : Sock → Int × Sock} (hf : ∀ t, (f t).2.Timed ↔ if t.Usable then ans.Arms t else t.Timed)
    (hr : ∀ t, (f t).2.r = t.r) (hres : ngxSocketRecvWith buf none len f k = some (v, k')) :
    k'.HasTimer ↔ k.ctx.sleep.timer.isSome = true ∨ k.view.ArmsRecv len ans := by
  obtain ⟨u, hu, hres⟩ := Option.map_eq_some_iff.mp hres
  obtain ⟨rfl, rfl⟩ := Prod.mk.inj hres
  rw [hasTimer_withSock k (hr _), hf, view_of_upstream hu]
  exact Iff.rfl

/-- After a call that a script can wait for something is pending exactly if the call arms it. -/
theorem call_hasTimer_iff {c : Call} {v : PhpValue} (hres : k.call c = some (v, k'))
    (hc : c.awaited = true) : k'.HasTimer ↔ c.Arms k := by
  have hsleep : ∀ k : Session, (ngxHttpPhpSleep k).HasTimer := fun k => Or.inl rfl
  cases c with
  | sleep time =>
    obtain ⟨rfl, rfl⟩ := Prod.mk.inj (Option.some.inj hres)
    exact iff_of_true (hsleep _) trivial
  | msleep time =>
    obtain ⟨rfl, rfl⟩ := Prod.mk.inj (Option.some.inj hres)
    exact iff_of_true (hsleep _) trivial
  | connect s type addr port ans =>
    have hk : (ngxSocketConnect s type addr port ans k).2 = k' :=
      congrArg Prod.snd (Option.some.inj hres)
    rw [Call.Arms]
    by_cases htype : type = some afInet
    · subst htype
      have hsleep : k'.ctx.sleep = k.ctx.sleep := by
        rw [← hk, ngxSocketConnect, if_pos rfl]
        rfl
      rw [HasTimer, hsleep, ← hk, view_ngxSocketConnect, socketConnect_timed_iff, if_pos rfl]
    · rw [← hk, ngxSocketConnect, if_neg htype, if_neg htype]
      exact Iff.rfl
  | close s readEvent =>
    obtain ⟨rfl, rfl⟩ := Prod.mk.inj (Option.some.inj hres)
    rw [Call.Arms]
    unfold close
    split
    · next hu => simp [view, sock, hu]
    · next u hu =>
      rw [view_of_upstream hu]
      split
      · next hc => simp [sock, hc]
      · next d hc => exact iff_of_true (hsleep _) (Or.inl (by simp [sock, hc]))
  | send s buf len ans =>
    simp only [call, ngxSocketSend] at hres
    rw [Call.Arms]
    by_cases hlen : len < 0
    · obtain ⟨_, rfl⟩ : PhpValue.bool false = v ∧ k = k' := by simpa [hlen] using hres
      rw [if_neg fun h : 0 ≤ len ∧ k.view.Usable => absurd h.1 (by omega)]
      exact Iff.rfl
    · rw [if_neg hlen] at hres
      obtain ⟨u, hu, hres⟩ := Option.map_eq_some_iff.mp hres
      obtain ⟨rfl, rfl⟩ := Prod.mk.inj hres
      have hr := (socketSend_quiet ans (k.sock { u with
        requestBufs := some buf, sender := some s })).r
      rw [hasTimer_withSock k hr, view_of_upstream hu, socketSend_timed_iff ans buf rfl]
      have hset : (k.sock u).SameTimers (k.sock { u with
          requestBufs := some buf, sender := some s }) := .of_conn rfl rfl fun d _ => ⟨rfl, rfl⟩
      have husable : (0 ≤ len ∧ (k.sock u).Usable) ↔ (k.sock u).Usable :=
        and_iff_right (by omega)
      rw [hset.timed_iff, hset.armsSend_iff]
      simp only [husable]
      exact Iff.rfl
  | recv s buf len ans =>
    exact recvWith_hasTimer_iff (socketRecv_timed_iff ans)
      (fun t => (socketRecv_recvLeaves ans t).quiet.r) hres
  | recvwait s buf len ans =>
    exact recvWith_hasTimer_iff (socketRecvWait_timed_iff ans)
      (fun t => (socketRecvWait_recvLeaves ans t).quiet.r) hres
  | _ => cases hc

end Session

end NgxPhp
