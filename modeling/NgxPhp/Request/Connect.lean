import NgxPhp.Request.Effect
import NgxPhp.Socket.Outcome

/-!
# When a failed connect is noticed

`ngx_socket_connect` does not look at the result of the connect, and nobody looks
at that of the resolver's callback. Neither resumes the script, so after a
failure something else has to: a query of the resolver, or events of a connection.
-/

namespace NgxPhp

/-- Something is left that can resume the script of the request: a query of the resolver
or a connection whose events both go to `ngx_http_php_socket_handler`. -/
def Session.Audible (k : Session) : Prop := k.view.u.queries ≠ [] ∨ k.view.Listens

instance Session.decidableAudible (k : Session) : Decidable k.Audible :=
  inferInstanceAs (Decidable (_ ∨ _))

/-- The connect of the library function. -/
theorem Session.view_ngxSocketConnect (s : Resource) (addr : Bytes) (port : Nat)
    (ans : ConnectAnswers) (k : Session) :
    (ngxSocketConnect s (some afInet) addr port ans k).2.view =
      (socketConnect ans s port k.view).2 := by
  rw [ngxSocketConnect, if_pos rfl]
  dsimp only
  refine Session.view_withSock ?_
  have h := socketConnect_foretold ans s port k.view
  split at h
  · next hp =>
    unfold ConnectAnswers.pending at hp
    unfold socketConnect
    split at hp
    · next hurl hstart hname =>
      dsimp only
      rw [hurl]
      dsimp only
      rw [hstart]
      dsimp only
      rw [hname]
      rfl
    · cases hp
  · exact h.r

/-- The resolver's callback does what was foretold. -/
theorem Session.resolved_foretold (k : Session) (q : Query) (ans : ResolveAnswers) :
    (k.view.onUpstream fun u => { u with queries := u.queries.erase q }).Foretold
      (k.onSock fun t => t.resolved q ans).view (ans.stores k.kc k.view.u.resolved) := by
  unfold Session.onSock
  split
  · next hu =>
    have hnone : k.view.u.resolved = none := by simp [Session.view, Session.sock, hu]
    have hq : k.view.u.queries = [] := by simp [Session.view, Session.sock, hu]
    rw [hnone]
    refine ⟨rfl, ?_, rfl, ?_, fun _ => rfl⟩
    · simp [Sock.onUpstream, hq]
    · simp [ResolveAnswers.stores]
  · next u hu =>
    have h := resolveHandler_foretold ans q.resource
      ((k.sock u).onUpstream fun u => { u with queries := u.queries.erase q })
    rw [Session.view_withSock, Session.view_of_upstream hu]
    · exact h
    · exact h.r

/-- A connect call is never silent exactly if the call is refused for the socket's type, or a
query is or was outstanding, or a connection is stored, or nothing is stored where somebody
was listening; and the same for the resolver's callback. -/
theorem connect_audible_iff (k : Session) :
    (∀ s type addr port ans,
      (ngxSocketConnect s type addr port ans k).1 = .bool false ∨
        (ngxSocketConnect s type addr port ans k).2.Audible ↔
      type ≠ some afInet ∨ ans.pending = true ∨ k.view.u.queries ≠ [] ∨
        (∃ c, ans.stores k.kc port = some (some c)) ∨
        (ans.stores k.kc port = none ∧ k.view.Listens)) ∧
    (∀ q ans,
      (k.onSock fun t => t.resolved q ans).Audible ↔
      k.view.u.queries.erase q ≠ [] ∨
        (∃ c, ans.stores k.kc k.view.u.resolved = some (some c)) ∨
        (ans.stores k.kc k.view.u.resolved = none ∧ k.view.Listens)) := by
  constructor
  · intro s type addr port ans
    by_cases htype : type = some afInet
    · subst htype
      have hv : (ngxSocketConnect s (some afInet) addr port ans k).1 = .bool true := by
        rw [ngxSocketConnect, if_pos rfl]
      have h := socketConnect_foretold ans s port k.view
      rw [Session.Audible, Session.view_ngxSocketConnect, hv]
      by_cases hp : ans.pending = true
      · rw [if_pos hp] at h
        simp [h.1, hp]
      · rw [if_neg hp] at h
        rw [h.queries, h.listens_iff]
        simp [hp]
        rfl
    · have hv : (ngxSocketConnect s type addr port ans k).1 = .bool false := by
        rw [ngxSocketConnect, if_neg htype]
      simp [hv, htype]
  · intro q ans
    have h := k.resolved_foretold q ans
    rw [Session.Audible, h.queries, h.listens_iff]
    rfl

/-- A connect that is refused at once leaves the script waiting for nothing. -/
theorem ngxSocketConnect_silent :
    let k := (Worker.init (fun _ => 0) fun _ => 0).session 0
    let res := ngxSocketConnect 0 (some afInet) [] 80
      { parseUrl := .address [], retval := { connect := .failed 7 true } } k
    res.1 = .bool true ∧ ¬ res.2.Audible := by
  decide

end NgxPhp
