import NgxPhp.Serve.Record

/-!
# Where a bailout goes

`zend_try` points `EG(bailout)` at a buffer in the frame of its function, and only
`zend_catch` and `zend_end_try` point it back. A return in between leaves it in a
frame that is gone, where the next bailout of any request goes.
-/

open StepMachine Ledger

namespace NgxPhp

/-- A return of one of the functions around a script leaves `EG(bailout)` as it was. -/
def Occurrence.Balanced : Occurrence → Prop
  | .left _ entry exit => exit = entry
  | _ => True

instance Occurrence.decidableBalanced (o : Occurrence) : Decidable o.Balanced := by
  unfold Balanced
  match o with
  | .left _ _ _ | .called _ | .made _ | .entered _ | .destroyed _ | .overwrote _
  | .sendHeader _ _ _ | .outputFilter _ _ | .ctxCleared _ | .returned _ _ | .finalized _ =>
    dsimp only
    infer_instance

namespace Passage

/-- Every `ngx_http_php_zend_uthread_create` and `ngx_http_php_zend_uthread_resume` that has
returned has left `EG(bailout)` as it was. -/
def Balanced (s : Passage) : Prop := ∀ o ∈ s.service.history, o.Balanced

instance decidableBalanced (s : Passage) : Decidable s.Balanced := by
  unfold Balanced
  infer_instance

/-- The step returns from no `zend_try`: the objects that functions return have a `valid` that can
be called, and a resume finds a closure whose methods can be called, in a request that has not
been answered. -/
def EndsTry (s : Passage) : PassageStep → Prop
  | .call a => ∀ code ∈ a.code :: a.output.filters s.method, code.fails = false
  | .resume seg => s.service.leavesTry seg = false
  | .passHeader _ a => ∀ code ∈ a.filter, code.fails = false
  | .passOutput filter => ∀ code ∈ filter, code.fails = false
  | .log code => code.fails = false
  | _ => True

instance decidableEndsTry (s : Passage) (l : PassageStep) : Decidable (s.EndsTry l) := by
  unfold EndsTry
  match l with
  | .call _ | .pass | .outerReturns | .resumeReturns | .resume _ | .bodyRead _ | .socket _
  | .others _ _ | .redirect _ | .passHeader _ _ | .passOutput _ | .log _ | .free =>
    dsimp only
    infer_instance

theorem Balanced.step {s : Passage} (hb : s.Balanced) (l : PassageStep)
    (hl : s.Enabled l → s.EndsTry l) : (s.step l).Balanced := by
  unfold Passage.step
  split
  next hen =>
    have hend := hl hen
    have hother : ∀ o : Occurrence, o.ofUthread = false → o.Balanced := fun o h => by
      cases o with
      | left => cases h
      | _ => trivial
    refine (perform_adds s l hother (fun _ _ => trivial) (fun _ _ => rfl) ?_ ?_ ?_ ?_).all hb
    · rintro a rfl code hcode hf
      exact absurd (hf.symm.trans (hend code hcode)) Bool.noConfusion
    · rintro seg rfl hf
      exact absurd (hf.symm.trans hend) Bool.noConfusion
    · intro code hcode hf
      have hfails : code.fails = false := by
        cases l with
        | passHeader | passOutput => exact hend code hcode
        | _ => cases hcode
      exact absurd (hf.symm.trans hfails) Bool.noConfusion
    · rintro code rfl
      refine (adds_of_eq rfl).trans (Service.routine_adds
        (fun o h => hother o (o.ofUthread_of_ofGenerator h)) _ .ngxLog code trivial
        (fun _ => rfl) fun hf => ?_)
      exact absurd (hf.symm.trans hend) Bool.noConfusion
  next => exact hb

end Passage

/-- In every run of a request whose steps return from no `zend_try`, however deep they are nested,
`EG(bailout)` is as it was whenever a function around a script returns. -/
theorem bailout_restored (method : Method) (loc : Location) (exitStatus : Int)
    (bailout : Option JmpBuf) {ls : List PassageStep}
    (h : Along Passage.step (fun s l => s.Enabled l → s.EndsTry l)
      (.start method loc exitStatus bailout) ls) :
    (run Passage.step (.start method loc exitStatus bailout) ls).Balanced :=
  h.invariant (I := Passage.Balanced) (fun _ l hb hl => hb.step l hl) nofun

/-- A resume runs the phases, and another script is started from within its `zend_try`. -/
theorem bailout_restored_nested :
    let loc : Location := ⟨(· ≠ .access), fun _ => false, false, false⟩
    let script (stop : Stopped) : Code := .compiled (.run [] (.generator ⟨[], stop⟩))
    let m := Passage.start {} loc 0 (some 41)
    let ls := [.call { code := script .valid }, .others 0 (some 41), .resume ⟨[], .ended⟩,
      .call {}, .call { code := script (.bailout (.exit 200)) }, .resumeReturns]
    (.left .resume (some 41) (some 41) ∈ (run Passage.step m ls).service.history) ∧
      (run Passage.step m ls).Balanced :=
  ⟨by decide +kernel, bailout_restored _ _ _ _ (by decide +kernel)⟩

/-- A function that waits without `yield` is resumed without a closure. -/
theorem resume_leaves_bailout :
    let script : Code := .compiled (.run [.library true] .value)
    let m := Passage.start {} contentOnly 0 none
    ¬ (run Passage.step m [.call { code := script }, .resume ⟨[], .ended⟩]).Balanced := by
  decide +kernel

end NgxPhp
