import NgxPhp.Request.Effect
import NgxPhp.Socket.Pending

/-!
# What the steps of a request leave pending

Which calls and events of a request can send, and that all others leave the
pending buffer of its upstream as it is.
-/

namespace NgxPhp

/-- The calls that send. -/
def Call.sends : Call → Bool
  | .send _ _ len _ => decide (0 ≤ len)
  | _ => false

namespace Session

variable {k k' : Session}

/-- Write back the result of a socket function that does not send. -/
theorem noSend_withSock {t t' : Sock} (h : t.NoSend t') : t.NoSend (k.withSock t').view :=
  ⟨h.requestBufs, h.sender, h.handler, h.acts⟩

/-- Calls that neither replace the connection nor send. -/
theorem call_noSend {c : Call} {v : PhpValue} (hres : k.call c = some (v, k'))
    (hc : c.replaces = false) (hs : c.sends = false) : k.view.NoSend k'.view := by
  have hrecv : ∀ buf rc bufferSize (f : Sock → Int × Sock), (∀ t : Sock, t.NoSend (f t).2) →
      ngxSocketRecvWith buf rc bufferSize f k = some (v, k') → k.view.NoSend k'.view := by
    intro buf rc bufferSize f hf hres
    obtain ⟨u, hu, hres⟩ := Option.map_eq_some_iff.mp hres
    obtain ⟨rfl, rfl⟩ := Prod.mk.inj hres
    rw [view_of_upstream hu]
    refine Sock.NoSend.trans ?_ (noSend_withSock (hf _))
    exact .of_acts rfl rfl (fun _ => rfl) rfl
  cases c with
  | sleep time =>
    obtain ⟨rfl, rfl⟩ := Prod.mk.inj (Option.some.inj hres)
    exact .of_acts rfl rfl (fun _ => rfl) rfl
  | msleep time =>
    obtain ⟨rfl, rfl⟩ := Prod.mk.inj (Option.some.inj hres)
    exact .of_acts rfl rfl (fun _ => rfl) rfl
  | send s buf len ans =>
    obtain ⟨_, rfl⟩ : PhpValue.bool false = v ∧ k = k' := by
      have hlen : len < 0 := by simpa [Call.sends] using hs
      simpa [call, ngxSocketSend, hlen] using hres
    exact .refl _
  | recv s buf len ans =>
    exact hrecv buf none len _ (fun k => (socketRecv_recvLeaves ans k).noSend) hres
  | recvpage s buf rc bufferSize ans =>
    exact hrecv buf (some rc) bufferSize _ (fun k => (socketRecv_recvLeaves ans k).noSend) hres
  | recvwait s buf len ans =>
    exact hrecv buf none len _ (fun k => (socketRecvWait_recvLeaves ans k).noSend) hres
  | recvsync s buf len ans =>
    exact hrecv buf none len _ (fun k => (socketRecvSync_recvLeaves ans k).noSend) hres
  | settimeout timeout =>
    obtain ⟨u, hu, hres⟩ := Option.map_eq_some_iff.mp hres
    obtain ⟨rfl, rfl⟩ := Prod.mk.inj hres
    rw [view_of_upstream hu]
    exact .of_acts rfl rfl (fun _ => rfl) rfl
  | iskeepalive =>
    obtain ⟨u, hu, hres⟩ := Option.map_eq_some_iff.mp hres
    obtain ⟨rfl, rfl⟩ := Prod.mk.inj hres
    exact .refl _
  | connect => cases hc
  | close => cases hc
  | clear => cases hc

theorem clear_samePending (k : Session) (readEvent : Rc) :
    k.view.SamePending (k.clear readEvent).view := by
  unfold clear
  split
  · exact ⟨rfl, rfl⟩
  · next u hu =>
    rw [view_of_upstream hu]
    exact socketClear_samePending readEvent _

/-- Calls that are no sends leave the pending data alone. -/
theorem call_samePending {c : Call} {v : PhpValue} (hres : k.call c = some (v, k'))
    (hs : c.sends = false) : k.view.SamePending k'.view := by
  cases hc : c.replaces with
  | false => exact (call_noSend hres hc hs).samePending
  | true =>
    cases c with
    | connect s type addr port ans =>
      simp only [call, ngxSocketConnect] at hres
      split at hres
      · obtain ⟨rfl, rfl⟩ := Prod.mk.inj (Option.some.inj hres)
        exact socketConnect_samePending ans s port k.view
      · obtain ⟨rfl, rfl⟩ := Prod.mk.inj (Option.some.inj hres)
        exact ⟨rfl, rfl⟩
    | close s readEvent =>
      obtain ⟨rfl, rfl⟩ := Prod.mk.inj (Option.some.inj hres)
      rcases k.close_cases readEvent with ⟨hres, _⟩ | hres
      · rw [hres]
        exact ⟨rfl, rfl⟩
      · rw [hres]
        exact clear_samePending k readEvent
    | clear s readEvent =>
      obtain ⟨rfl, rfl⟩ := Prod.mk.inj (Option.some.inj hres)
      exact clear_samePending k readEvent
    | _ => cases hc

theorem resolved_samePending (k : Session) (q : Query) (ans : ResolveAnswers) :
    k.view.SamePending (k.onSock fun t => t.resolved q ans).view := by
  unfold onSock
  split
  · exact ⟨rfl, rfl⟩
  · next u hu =>
    rw [view_of_upstream hu]
    exact resolveHandler_samePending ans q.resource _

theorem resumeWithout_samePending (k : Session) (readEvent : Rc) :
    k.view.SamePending (k.resumeWithout readEvent).view := by
  unfold resumeWithout
  split
  · exact clear_samePending k readEvent
  · exact ⟨rfl, rfl⟩

/-- Handlers other than the send handler. -/
theorem handleEvent_noSend (k : Session) (write : Bool) (ans : HandlerAnswers)
    (h : k.view.u.eventHandler write ≠ .send) :
    k.view.NoSend (k.onSock fun t => t.handleEvent write ans).view := by
  unfold onSock
  split
  · exact .refl _
  · next u hu =>
    rw [view_of_upstream hu] at h ⊢
    exact noSend_withSock (NgxPhp.handleEvent_noSend _ write ans h)

end Session

end NgxPhp
