import NgxPhp.Serve.Ending

/-!
# The status that a script asks for

A script asks for a status by `ngx_exit`, which ends it, or by `ngx_redirect`, behind
which it goes on. The response has that status only along some ways: the script must
come back to `set_output`, which returns some statuses to nginx, takes others for
success and sends what `ngx_status` and `ngx_redirect` have left in the headers.
-/

namespace NgxPhp

/-- It sets the status of the request. -/
def Deed.setsStatus : Deed → Bool
  | .status _ => true
  | .redirect _ n allocated => Executor.isRedirect n && allocated
  | _ => false

def Stopped.setsStatus : Stopped → Bool
  | .bailout (.exit _) => true
  | .bailout (.error n) => n.isSome
  | _ => false

/-- What a script does until its end. -/
def scriptDeeds (deeds : List Deed) (result : CallResult) (more : List Segment) : List Deed :=
  deeds ++ result.deeds ++ more.flatMap (·.deeds)

namespace Verdict

/-- The same status, in the executor globals and in the headers. -/
def SameStatus (v w : Verdict) : Prop :=
  v.exitStatus = w.exitStatus ∧ v.statusLine = w.statusLine

variable {v w x : Verdict}

theorem SameStatus.refl (v : Verdict) : v.SameStatus v := ⟨rfl, rfl⟩

/-- Statuses agree by way of a third. -/
theorem SameStatus.trans (h : v.SameStatus w) (g : w.SameStatus x) : v.SameStatus x :=
  ⟨h.1.trans g.1, h.2.trans g.2⟩

/-- A deed keeps two statuses in agreement. -/
theorem SameStatus.act (h : v.SameStatus w) (d : Deed) : (v.act d).SameStatus (w.act d) := by
  refine ⟨?_, act_statusLine h.2 d⟩
  cases d with
  | redirect uri n allocated =>
    dsimp only [Verdict.act]
    split
    · rfl
    · exact h.1
  | status n => rfl
  | _ => exact h.1

/-- The deeds of a segment keep two statuses in agreement. -/
theorem SameStatus.acts (h : v.SameStatus w) (ds : List Deed) :
    (v.acts ds).SameStatus (w.acts ds) := by
  induction ds generalizing v w with
  | nil => exact h
  | cons d ds ih => exact ih (h.act d)

/-- A deed that sets no status keeps it. -/
theorem act_keepsStatus {d : Deed} (hd : d.setsStatus = false) (v : Verdict) :
    (v.act d).SameStatus v := by
  cases d with
  | status n => cases hd
  | redirect uri n allocated =>
    have hno : ¬ (Executor.isRedirect n && allocated) = true := Bool.eq_false_iff.mp hd
    dsimp only [Verdict.act]
    rw [if_neg hno]
    exact .refl v
  | _ => exact ⟨rfl, rfl⟩

/-- Deeds that set no status keep it. -/
theorem acts_keepsStatus {ds : List Deed} (hds : ∀ d ∈ ds, d.setsStatus = false) (v : Verdict) :
    (v.acts ds).SameStatus v :=
  List.foldlRecOn ds Verdict.act (motive := fun w => w.SameStatus v) (.refl v)
    fun w hw d hd => (act_keepsStatus (hds d hd) w).trans hw

/-- A segment that stops without a status has that of its deeds. -/
theorem segment_keepsStatus {seg : Segment} (hs : seg.stop.setsStatus = false) (v : Verdict) :
    (v.segment seg).SameStatus (v.acts seg.deeds) := by
  refine ⟨?_, v.segment_statusLine seg⟩
  unfold segment
  cases hstop : seg.stop with
  | bailout b =>
    rw [hstop] at hs
    cases b with
    | exit n => cases hs
    | error n =>
      cases n with
      | none => rfl
      | some n => cases hs
  | _ => rfl

/-- A redirect that is accepted leaves its status and its header. -/
theorem acts_redirect (uri : Bytes) {n : Int} (hn : Executor.isRedirect n = true)
    (pre post : List Deed) (hpost : ∀ d ∈ post, d.setsStatus = false) (v : Verdict) :
    (v.acts (pre ++ .redirect uri n true :: post)).exitStatus = n ∧
      uri ∈ (v.acts (pre ++ .redirect uri n true :: post)).locations := by
  have hsame := acts_keepsStatus hpost ((v.acts pre).act (.redirect uri n true))
  have hredirect : (v.acts pre).act (.redirect uri n true) =
      { v.acts pre with
        exitStatus := n
        status := n
        locations := uri :: (v.acts pre).locations } :=
    if_pos (by rw [hn]; rfl)
  have hsplit : v.acts (pre ++ .redirect uri n true :: post) =
      ((v.acts pre).act (.redirect uri n true)).acts post := v.acts_append pre _
  have hlocations : (((v.acts pre).act (.redirect uri n true)).acts post).locations =
      ((v.acts pre).act (.redirect uri n true)).locations :=
    congrArg StatusLine.locations hsame.2
  rw [hsplit]
  refine ⟨hsame.1.trans (by rw [hredirect]), ?_⟩
  rw [hlocations, hredirect]
  exact List.mem_cons_self

/-- Headers are never taken away. -/
theorem mem_acts_locations {uri : Bytes} (h : uri ∈ v.locations) (ds : List Deed) :
    uri ∈ (v.acts ds).locations :=
  List.foldlRecOn ds Verdict.act (motive := fun w => uri ∈ w.locations) h fun w hw d _ => by
    cases d with
    | redirect uri' n allocated =>
      dsimp only [Verdict.act]
      split
      · exact List.mem_cons_of_mem _ hw
      · exact hw
    | _ => exact hw

/-- A filter takes no `Location` away. -/
theorem mem_filter_locations {uri : Bytes} (h : uri ∈ v.locations) (filter : Option Code) :
    uri ∈ (v.filter filter).locations := by
  have hsegment : ∀ (w : Verdict) (seg : Segment), uri ∈ w.locations →
      uri ∈ (w.segment seg).locations := fun w seg hw => by
    rw [show (w.segment seg).locations = (w.acts seg.deeds).locations from
      congrArg StatusLine.locations (w.segment_statusLine seg)]
    exact mem_acts_locations hw seg.deeds
  cases filter with
  | none => exact h
  | some c =>
    change uri ∈ (v.code c).locations
    cases c with
    | failed b => exact (v.bail_frame b).2.1 ▸ h
    | compiled f =>
      cases f with
      | missing => exact h
      | run deeds result =>
        have hacts := mem_acts_locations h deeds
        cases result with
        | value => exact hacts
        | bailout b => exact ((v.acts deeds).bail_frame b).2.1 ▸ hacts
        | generator first => exact hsegment _ first hacts
        | object first => exact hsegment _ first hacts

end Verdict

namespace Service

variable {s : Service}

/-- The status that a whole script leaves. -/
theorem spoken_sameStatus (s : Service) (deeds : List Deed) {result : CallResult}
    {more : List Segment} {stop : Stopped} (hends : EndsWith result more stop)
    (hstop : stop.setsStatus = false) :
    (s.spoken (.compiled (.run deeds result)) more).SameStatus
      ({ s.verdict with exitStatus := Rc.declined.toInt, phaseStatus := .ok }.acts
        (scriptDeeds deeds result more)) := by
  have hall : ∀ st ∈ result.stop :: more.map (·.stop), st.setsStatus = false := fun st hm => by
    rw [hends.2, List.mem_append] at hm
    rcases hm with hm | hm
    · rw [List.eq_of_mem_replicate hm]
      rfl
    · rw [List.mem_singleton.mp hm, hstop]
  have hresult : result.stop.setsStatus = false := hall _ List.mem_cons_self
  have hmore : ∀ seg ∈ more, seg.stop.setsStatus = false := fun seg hm =>
    hall _ (List.mem_cons_of_mem _ (List.mem_map_of_mem hm))
  have hfirst : ∀ v : Verdict, (v.code (.compiled (.run deeds result))).SameStatus
      (v.acts (deeds ++ result.deeds)) := fun v => by
    rw [Verdict.acts_append]
    cases result with
    | value => exact .refl _
    | bailout b =>
      cases b with
      | exit n => cases hresult
      | error n =>
        cases n with
        | none => exact .refl _
        | some n => cases hresult
    | generator first => exact Verdict.segment_keepsStatus hresult _
    | object first => exact Verdict.segment_keepsStatus hresult _
  have hrest : ∀ (segs : List Segment) (v w : Verdict), v.SameStatus w →
      (∀ seg ∈ segs, seg.stop.setsStatus = false) →
        (segs.foldl Verdict.segment v).SameStatus (w.acts (segs.flatMap (·.deeds))) := by
    intro segs
    induction segs with
    | nil => exact fun _ _ h _ => h
    | cons seg segs ih =>
      intro v w h hsegs
      rw [List.flatMap_cons, Verdict.acts_append]
      refine ih _ _ ((Verdict.segment_keepsStatus (hsegs _ List.mem_cons_self) v).trans ?_)
        fun x hx => hsegs x (List.mem_cons_of_mem _ hx)
      exact h.acts seg.deeds
  rw [scriptDeeds, Verdict.acts_append]
  exact hrest more _ _ (hfirst _) hmore

/-- The exit status of a script that exits in its first go. -/
theorem started_exit (s : Service) (deeds : List Deed) {result : CallResult} {n : Int}
    (hstop : result.stop = .bailout (.exit n)) :
    (s.started (.compiled (.run deeds result))).exitStatus = n := by
  have hsegment : ∀ (v : Verdict) (seg : Segment), seg.stop = .bailout (.exit n) →
      (v.segment seg).exitStatus = n := fun v seg h => by
    unfold Verdict.segment
    rw [h]
    rfl
  cases result with
  | value => cases hstop
  | bailout b =>
    obtain rfl : b = .exit n := Stopped.bailout.inj hstop
    rfl
  | generator first => exact hsegment _ first hstop
  | object first => exact hsegment _ first hstop

/-- What becomes of a script that exits with `n` in its first go: a status that the handler returns
is left to nginx, and a status that it takes for success is the one of the headers. -/
def ExitDecides (s : Service) (finalize : Int → Option Int) (m : Method) (a : CallAnswers)
    (n : Int) : Phase → Prop
  | .content =>
    if Executor.isRefused n then finalize n = some n
    else ((s.started a.code).sent m a.output).status = n
  | _ =>
    if n = 200 then
      (s.chain ≠ [] ∨ a.code.writes ≠ []) ∧ ((s.started a.code).sent m a.output).status = n
    else finalize n = some n

/-- The same for a script that goes on behind its redirect. -/
def RedirectDecides (s : Service) (finalize : Int → Option Int) (m : Method) (phase : Phase)
    (a : CallAnswers) (more : List Segment) (n : Int) : Prop :=
  if phase = .content ∧ (more ≠ [] ∨ Executor.isRefused n = false) then
    ((s.spoken a.code more).sent m a.output).status = n
  else finalize n = some n

end Service

/-- nginx answers with the status of the result. -/
theorem exists_finalized {finalize : Int → Option Int} {n : Int} {locations : List Bytes}
    {Q : StatusLine → Prop} (hQ : ∀ k, Q ⟨k, locations⟩ ↔ k = n) :
    (∃ line, ((finalize n).map fun k => (⟨k, locations⟩ : StatusLine)) = some line ∧ Q line) ↔
      finalize n = some n := by
  constructor
  · rintro ⟨line, hline, hstatus⟩
    obtain ⟨k, hk, rfl⟩ := Option.map_eq_some_iff.mp hline
    obtain rfl : k = n := (hQ k).mp hstatus
    exact hk
  · exact fun h => ⟨⟨n, locations⟩, by rw [h]; rfl, (hQ n).mpr rfl⟩

/-- A header is sent. -/
theorem exists_sent (line : StatusLine) (Q : StatusLine → Prop) :
    (∃ l, some line = some l ∧ Q l) ↔ Q line := by
  simp

namespace Verdict

/-- The status of a script that has exited with `n`. -/
theorem answer_exit_iff (v : Verdict) (finalize : Int → Option Int) (m : Method)
    (a : OutputAnswers) (printed : Bool) (phase : Phase) (hn : 200 ≤ v.exitStatus) :
    (∃ line, v.answer finalize m a printed phase = some line ∧ line.status = v.exitStatus) ↔
      match phase with
      | .content =>
        if Executor.isRefused v.exitStatus then finalize v.exitStatus = some v.exitStatus
        else (v.sent m a).status = v.exitStatus
      | _ =>
        if v.exitStatus = 200 then printed = true ∧ (v.sent m a).status = v.exitStatus
        else finalize v.exitStatus = some v.exitStatus := by
  have hzero : v.exitStatus ≠ 0 := by omega
  have hphase : ∀ phase' ≠ Phase.content,
      ((∃ line, v.answer finalize m a printed phase' = some line ∧ line.status = v.exitStatus) ↔
        if v.exitStatus = 200 then printed = true ∧ (v.sent m a).status = v.exitStatus
        else finalize v.exitStatus = some v.exitStatus) := fun phase' hp => by
    rw [v.answer_phase finalize m a printed hp]
    by_cases hok : v.exitStatus = 200
    · rw [if_pos (.inr hok), if_pos hok]
      cases printed with
      | false => simp
      | true => exact (exists_sent _ _).trans (and_iff_right rfl).symm
    · rw [if_neg fun h => h.elim hzero hok, if_neg hok]
      exact exists_finalized fun _ => Iff.rfl
  cases phase with
  | content =>
    unfold answer
    dsimp only
    split
    · exact exists_finalized fun _ => Iff.rfl
    · exact exists_sent _ _
  | _ => exact hphase _ nofun

/-- The response to a script that has redirected with `n`, where the status of the content phase
may have been set again. -/
theorem answer_redirect_iff (v : Verdict) (finalize : Int → Option Int) (m : Method)
    (a : OutputAnswers) (printed : Bool) (phase : Phase) {uri : Bytes} {n : Int}
    (hn : Executor.isRedirect n = true) (huri : uri ∈ v.locations)
    (hexit : v.exitStatus = n ∨ phase = .content ∧ v.exitStatus = 0) :
    (∃ line, v.answer finalize m a printed phase = some line ∧ line.status = n ∧
      uri ∈ line.locations) ↔
      if phase = .content ∧ Executor.isRefused v.exitStatus = false then (v.sent m a).status = n
      else finalize n = some n := by
  have hkept : uri ∈ (v.sent m a).locations :=
    mem_filter_locations (v := { v with status := if v.status = 0 then 200 else v.status }) huri _
  have hsent : (v.sent m a).statusLine.status = n ∧ uri ∈ (v.sent m a).statusLine.locations ↔
      (v.sent m a).status = n := and_iff_left hkept
  have hlocations : ∀ k : Int, (k = n ∧ uri ∈ v.locations) ↔ k = n := fun k => and_iff_left huri
  have hne : n ≠ 0 ∧ n ≠ 200 := by
    simp only [Executor.isRedirect, Bool.or_eq_true, decide_eq_true_eq] at hn
    omega
  by_cases hp : phase = .content
  · subst hp
    unfold answer
    dsimp only
    cases href : Executor.isRefused v.exitStatus with
    | false =>
      rw [if_neg Bool.false_ne_true, if_pos ⟨rfl, rfl⟩, exists_sent]
      exact hsent
    | true =>
      have hexit' : v.exitStatus = n := hexit.resolve_right fun h => by
        rw [h.2] at href
        cases href
      rw [if_pos rfl, if_neg fun h => Bool.noConfusion h.2, hexit']
      exact exists_finalized hlocations
  · have hexit' : v.exitStatus = n := hexit.resolve_right fun h => hp h.1
    have hno : ¬ (n = 0 ∨ n = 200) := fun h => h.elim hne.1 hne.2
    rw [v.answer_phase finalize m a printed hp, hexit', if_neg hno,
      if_neg fun h : phase = .content ∧ _ => hp h.1]
    exact exists_finalized hlocations

end Verdict

namespace Service

variable {s : Service} {m : Method} {a : CallAnswers} {deeds : List Deed} {result : CallResult}
  {more : List Segment} {stop : Stopped}

/-- A script that exits. -/
theorem exit_decides_iff (finalize : Int → Option Int) (hs : s.Begins m) (phase : Phase)
    (hcode : a.code = .compiled (.run deeds result)) {n : Int}
    (hends : EndsWith result more (.bailout (.exit n))) (ha : a.output.Accepted) (hn : 200 ≤ n) :
    (∃ line, Responds finalize phase (s.scriptRun m phase a more) line ∧ line.status = n) ↔
      more = [] ∧ (s.started a.code).phaseStatus ≠ .again ∧
        s.ExitDecides finalize m a n phase := by
  by_cases hcomes : s.ComesToOutput a.code more (.bailout (.exit n))
  · have hnil : more = [] := by
      by_contra hne
      rw [ComesToOutput, if_neg hne] at hcomes
      cases hcomes
    subst hnil
    have hexit : (s.started a.code).exitStatus = n := by
      rw [hcode]
      exact s.started_exit deeds (List.head_eq_of_cons_eq hends.2)
    have hfound : s.found phase a.code [] = s.started a.code := if_neg fun h => h.2 rfl
    have hpos : 0 ≤ (s.found phase a.code []).exitStatus := by
      rw [hfound, hexit]
      omega
    obtain ⟨printed, hprinted, hresponds⟩ :=
      scriptRun_responds hs phase hcode hends hcomes ha hpos finalize
    have hoff : printed = true ↔ s.chain ≠ [] ∨ a.code.writes ≠ [] := by
      rw [hprinted rfl]
      cases s.chain <;> cases a.code.writes <;> simp
    rw [ComesToOutput, if_pos rfl] at hcomes
    rw [and_iff_right rfl, and_iff_right hcomes]
    simp only [hresponds, hfound]
    have hanswer := (s.started a.code).answer_exit_iff finalize m a.output printed phase
      (hexit.symm ▸ hn)
    rw [hexit, hoff] at hanswer
    rw [hanswer]
    cases phase <;> exact Iff.rfl
  · refine iff_of_false ?_ ?_
    · rintro ⟨line, hline, -⟩
      exact scriptRun_waits hs phase hcode hends hcomes finalize line hline
    · rintro ⟨rfl, hgo, -⟩
      exact hcomes hgo

/-- A script whose last status is that of a redirect. -/
theorem redirect_decides_iff (finalize : Int → Option Int) (hs : s.Begins m) (phase : Phase)
    (hcode : a.code = .compiled (.run deeds result)) (hends : EndsWith result more stop)
    (ha : a.output.Accepted) {uri : Bytes} {n : Int} (hn : Executor.isRedirect n = true)
    {pre post : List Deed}
    (hdeeds : scriptDeeds deeds result more = pre ++ .redirect uri n true :: post)
    (hpost : ∀ d ∈ post, d.setsStatus = false) (hstop : stop.setsStatus = false) :
    (∃ line, Responds finalize phase (s.scriptRun m phase a more) line ∧ line.status = n ∧
      uri ∈ line.locations) ↔
      s.ComesToOutput a.code more stop ∧ s.RedirectDecides finalize m phase a more n := by
  by_cases hcomes : s.ComesToOutput a.code more stop
  · have hsame := s.spoken_sameStatus deeds hends hstop
    rw [hdeeds, ← hcode] at hsame
    have hredirect := Verdict.acts_redirect uri hn pre post hpost
      { s.verdict with exitStatus := Rc.declined.toInt, phaseStatus := .ok }
    generalize Verdict.acts _ _ = w at hsame hredirect
    have hexit : (s.spoken a.code more).exitStatus = n := hsame.1.trans hredirect.1
    have huri : uri ∈ (s.spoken a.code more).locations := by
      rw [show (s.spoken a.code more).locations = w.locations from
        congrArg StatusLine.locations hsame.2]
      exact hredirect.2
    have hline : (s.found phase a.code more).statusLine = (s.spoken a.code more).statusLine := by
      unfold found
      split <;> rfl
    have hsent := statusLine_sent_congr hline m a.output
    have hfound : (s.found phase a.code more).exitStatus = n ∨
        phase = .content ∧ (s.found phase a.code more).exitStatus = 0 := by
      unfold found
      split
      next h => exact .inr ⟨h.1, rfl⟩
      · exact .inl hexit
    have hpos : 0 ≤ (s.found phase a.code more).exitStatus := by
      rcases hfound with h | ⟨-, h⟩
      · simp only [Executor.isRedirect, Bool.or_eq_true, decide_eq_true_eq] at hn
        omega
      · omega
    obtain ⟨printed, -, hresponds⟩ :=
      scriptRun_responds hs phase hcode hends hcomes ha hpos finalize
    rw [and_iff_right hcomes]
    simp only [hresponds]
    have hmem : uri ∈ (s.found phase a.code more).locations := by
      rw [show (s.found phase a.code more).locations = (s.spoken a.code more).locations from
        congrArg StatusLine.locations hline]
      exact huri
    rw [Verdict.answer_redirect_iff _ finalize m a.output printed phase hn hmem hfound,
      show ((s.found phase a.code more).sent m a.output).status =
        ((s.spoken a.code more).sent m a.output).status from congrArg StatusLine.status hsent]
    have hrefused : (phase = .content ∧
        Executor.isRefused (s.found phase a.code more).exitStatus = false) ↔
          phase = .content ∧ (more ≠ [] ∨ Executor.isRefused n = false) := by
      refine and_congr_right fun hp => ?_
      by_cases hne : more = []
      · rw [found, if_neg fun h => h.2 hne, hexit]
        simp [hne]
      · rw [found, if_pos ⟨hp, hne⟩]
        exact iff_of_true rfl (.inl hne)
    unfold RedirectDecides
    simp only [hrefused]
  · refine iff_of_false ?_ fun h => hcomes h.1
    rintro ⟨line, hline, -⟩
    exact scriptRun_waits hs phase hcode hends hcomes finalize line hline

end Service

/-- A script that exits with a status gets the response of that status, and no later phase begins,
exactly if it does so in its first go without waiting and the handler's way with that status keeps
it. A script whose last status is that of an accepted redirect gets the response of it exactly if
the handler comes to `set_output`, and likewise. -/
theorem status_decides_iff (finalize : Int → Option Int) {s : Service} {m : Method}
    (hs : s.Begins m) (phase : Phase) {a : CallAnswers} {deeds : List Deed} {result : CallResult}
    (hcode : a.code = .compiled (.run deeds result)) {more : List Segment} {stop : Stopped}
    (hends : EndsWith result more stop) (ha : a.output.Accepted) :
    (∀ n, stop = .bailout (.exit n) → 200 ≤ n → n ≤ 599 →
      ((∃ line, Responds finalize phase (s.scriptRun m phase a more) line ∧ line.status = n) ↔
        more = [] ∧ (s.started a.code).phaseStatus ≠ .again ∧
          s.ExitDecides finalize m a n phase)) ∧
    ∀ uri n pre post, Executor.isRedirect n = true →
      scriptDeeds deeds result more = pre ++ .redirect uri n true :: post →
      (∀ d ∈ post, d.setsStatus = false) → stop.setsStatus = false →
      ((∃ line, Responds finalize phase (s.scriptRun m phase a more) line ∧ line.status = n ∧
          uri ∈ line.locations) ↔
        s.ComesToOutput a.code more stop ∧ s.RedirectDecides finalize m phase a more n) := by
  constructor
  · rintro n rfl hlow -
    exact Service.exit_decides_iff finalize hs phase hcode hends ha hlow
  · intro uri n pre post hn hdeeds hpost hstop
    exact Service.redirect_decides_iff finalize hs phase hcode hends ha hn hdeeds hpost hstop

/-- nginx has no page of its own for a status. -/
def specialStatus (n : Int) : Option Int := if isSpecial n then some n else none

/-- A request whose phases have just begun. -/
def beginning : Service := { exitStatus := 0, ctx := some { phaseStatus := .declined } }

/-- A request begins with no status. -/
theorem beginning_begins : beginning.Begins {} := ⟨rfl, nofun, rfl, rfl, rfl⟩

/-- A rewrite script that prints and exits with 403. -/
theorem status_decides_rewrite :
    ∃ line, Responds specialStatus .rewrite (beginning.scriptRun {} .rewrite
      { code := .compiled (.run [.echo [104]] (.bailout (.exit 403))) } []) line ∧
        line.status = 403 := by
  have hends : EndsWith (.bailout (.exit 403)) [] (.bailout (.exit 403)) := by decide
  have hiff := (status_decides_iff specialStatus beginning_begins .rewrite
    (a := { code := .compiled (.run [.echo [104]] (.bailout (.exit 403))) }) rfl hends
    ⟨⟨rfl, by decide⟩, ⟨rfl, by decide⟩⟩).1 403 rfl (by decide) (by decide)
  exact hiff.mpr ⟨rfl, by decide, show specialStatus 403 = some 403 by decide⟩

/-- The content handler sends what a script has printed that exits with 404, with the status 200. -/
theorem content_exit_answers_ok :
    ¬ ∃ line, Responds specialStatus .content (beginning.scriptRun {} .content
      { code := .compiled (.run [.echo [104]] (.bailout (.exit 404))) } []) line ∧
        line.status = 404 := by
  let r := beginning.scriptRun {} .content
    { code := .compiled (.run [.echo [104]] (.bailout (.exit 404))) } []
  have hok : r.1 = some 0 ∧ r.2.response specialStatus 0 = some ⟨200, []⟩ := by decide +kernel
  rintro ⟨line, ⟨rc, hrc, -, hline⟩, hstatus⟩
  obtain rfl : (0 : Int) = rc := Option.some.inj (hok.1.symm.trans hrc)
  obtain rfl := Option.some.inj (hok.2.symm.trans hline)
  exact absurd hstatus (by decide)

end NgxPhp
