import MmtCore.Amf.ContextReuse
import MmtCore.Amf.GuardTimers

/-!
# Handlers and the guard timers

The handlers that move the state machine, and what they need to leave it guarded: an abort takes
the timers off, so that the event that follows has to find a row in the table.
-/

namespace MmtCore.Amf

open MmtCore.Lib

variable {V : Env} {X : Ext} {r q : Ref} {s t : AmfState} {L : List Kind}

/-! ## Authentication and security mode -/

variable {ev : GmmEvent} {cause : Nat} {u : Ue} {inner : Bytes}

/-- A state with a row for the event that leads back to the start. -/
theorem fire_fails_watch (hloose : (s.ue r).Loose)
    (hrow : (findTransition (s.ue r).fsm ev).map Transition.target = some .deregistered)
    (hev : ev ∉ unrestEvents ++ expiryEvents) : ((fire X r ev s).ue r).watch = dropped := by
  simp only [List.mem_append, not_or] at hev
  obtain ⟨row, hrow, htarget⟩ := Option.map_eq_some_iff.1 hrow
  have h := fire_atRest (X := X) hev.1 hloose (loose_not_own hloose hev.2) (by simp [hrow])
  have hfsm : ((fire X r ev s).ue r).fsm = .deregistered := by
    rw [fire_fsm, hrow]
    exact htarget
  refine Prod.ext hfsm (funext fun n => ?_)
  cases hn : ((fire X r ev s).ue r).timers n with
  | none => exact hn
  | some ev' =>
    have hallowed := h.1.1 n ev' hn
    rw [hfsm] at hallowed
    simp [allowedTimers, guardTimer] at hallowed

/-- After such an event, giving up the registration changes nothing more. -/
theorem abort_after_drop (h : (s.ue r).watch = dropped) :
    ((abortRegistrationAndReleaseN1 V X r cause s).ue r).AtRest := by
  refine atRest_of_dropped ?_
  rw [abortRegistrationAndReleaseN1_watch]
  unfold releasedWatch
  rw [(Prod.mk.inj h).1]
  simp

theorem startSecurityMode_watch :
    ((startSecurityMode V X r s).ue r).watch = (s.ue r).watch ∨
      ((startSecurityMode V X r s).ue r).watch = releasedWatch X (s.ue r) := by
  unfold startSecurityMode
  split
  · exact .inr (abortRegistrationAndReleaseN1_watch _)
  · rename_i eea eia _
    split
    · exact .inl rfl
    · have h : Acts r [.activate, .dl, .send, .book] s (sendSecurityModeCommand V X r eea eia
          (s.exec (.activate V r (s.ue r).sec.pendingNgksi eea eia))) := by
        refine Acts.andThen (Acts.one ?_ ?_) (sendSecurityModeCommand_acts V X _ _) rfl <;>
          rfl
      exact .inl (h.watch_eq rfl r)

/-- A released context at a state with a row for the event, or dropped. -/
theorem fire_after_release (hev : ev ∉ unrestEvents ++ expiryEvents)
    (hw : (s.ue r).watch = u.watch ∨ (s.ue r).watch = releasedWatch X u) (hloose : u.Loose)
    (hrow : (findTransition u.fsm ev).isSome = true) : ((fire X r ev s).ue r).AtRest := by
  have hev' := hev
  simp only [List.mem_append, not_or] at hev'
  rcases hw with hw | hw
  · have hl := hloose.congr hw
    exact fire_atRest hev'.1 hl (loose_not_own hl hev'.2) (by rw [(Prod.mk.inj hw).1]; exact hrow)
  · unfold releasedWatch at hw
    split at hw
    · have hl := Ue.loose_of_no_timers (Prod.mk.inj hw).2
      exact fire_atRest hev'.1 hl (loose_not_own hl hev'.2)
        (by rw [(Prod.mk.inj hw).1]; exact hrow)
    · exact fire_keeps_atRest hev (atRest_of_dropped hw)

theorem handleAuthenticationResponse_atRest (h : (s.ue r).AtRest) :
    ((handleAuthenticationResponse V X r inner s).ue r).AtRest := by
  unfold handleAuthenticationResponse
  by_cases hst : (s.ue r).fsm = .authentication
  · rw [allowedIn_of_eq hst]
    simp only [Bool.true_eq_false, if_false]
    have hfail : ((fire X r .authResponseInvalid s).ue r).watch = dropped :=
      fire_fails_watch h.1.1 (by rw [hst]; rfl) (by decide)
    split
    · exact h
    split
    · split
      · have hanswer : ((s.exec (.answer r)).ue r).watch = (s.ue r).watch := by
          simp [AmfState.exec, AmfState.updSec, Ue.watch]
        exact fire_after_release (by decide) startSecurityMode_watch (h.1.1.congr hanswer)
          (by rw [(Prod.mk.inj hanswer).1, hst]; rfl)
      · exact atRest_of_dropped (remove_watch r _)
    · exact abort_after_drop hfail
  · rw [allowedIn_of_ne hst, if_pos rfl]
    exact h.congr ((send5GMMStatus_acts V X _).watch_eq rfl r)

theorem retryWithNewNGKSI_atRest (h : (s.ue r).AtRest) :
    ((retryWithNewNGKSI V X r s).ue r).AtRest := by
  unfold retryWithNewNGKSI
  dsimp only
  have hsend : Acts r [.challenge, .dl, .send, .book] s (resendAuthRequestSameChallenge V X r
      (s.exec (.rechallenge r (chooseNewNGKSI (s.ue r).book.nasKSI (s.ue r).sec
        [(s.ue r).sec.pendingNgksi])))).1 := by
    refine Acts.andThen (Acts.one ?_ ?_) (resendAuthRequestSameChallenge_acts V X) rfl <;>
      rfl
  have hrest := h.congr (hsend.watch_eq rfl r)
  split <;> exact fire_keeps_atRest (by decide) hrest

theorem handleAuthenticationFailure_atRest (h : (s.ue r).AtRest) :
    ((handleAuthenticationFailure V X r inner s).ue r).AtRest := by
  unfold handleAuthenticationFailure
  by_cases hst : (s.ue r).fsm = .authentication
  · rw [allowedIn_of_eq hst]
    simp only [Bool.true_eq_false, if_false]
    have hfail : ((fire X r .authenticationFailure s).ue r).AtRest :=
      fire_keeps_atRest (by decide) h
    split
    · exact hfail.congr (endProcedure_acts.watch_eq rfl r)
    · have hcount : ((s.exec (.countAuthRetry r)).ue r).watch = (s.ue r).watch := by
        simp [AmfState.exec, AmfState.updSec, Ue.watch]
      have hrest := h.congr hcount
      split
      · exact atRest_of_dropped (remove_watch r _)
      split
      · exact retryWithNewNGKSI_atRest hrest
      · exact fire_after_startAuthentication (by decide) hrest.1.1
          (by rw [(Prod.mk.inj hcount).1, hst]; rfl)
    · exact hfail.congr ((book_acts _).watch_eq rfl r)
  · rw [allowedIn_of_ne hst, if_pos rfl]
    exact h.congr ((send5GMMStatus_acts V X _).watch_eq rfl r)

theorem handleSecurityModeReject_atRest (h : (s.ue r).AtRest) :
    ((handleSecurityModeReject V X r inner s).ue r).AtRest := by
  unfold handleSecurityModeReject
  by_cases hst : (s.ue r).fsm = .securityMode
  · rw [allowedIn_of_eq hst]
    have hclear : ((s.exec (.clearPending r)).ue r).watch = (s.ue r).watch := by
      simp [AmfState.exec, AmfState.updSec, Ue.watch]
    exact abort_after_drop (fire_fails_watch (h.1.1.congr hclear)
      (by rw [(Prod.mk.inj hclear).1, hst]; rfl) (by decide))
  · rw [allowedIn_of_ne hst, if_pos rfl]
    exact h.congr ((send5GMMStatus_acts V X _).watch_eq rfl r)

/-- An empty answer to a security mode command that asked for the whole request ends the
registration without moving the state machine. -/
def completeFails (V : Env) (X : Ext) (u : Ue) (inner : Bytes) : Bool :=
  match V.decode inner with
  | .ok (.securityModeComplete container) =>
    u.fsm == .securityMode && u.sec.pending && u.book.initialRRCleartextOnly &&
      !hasContainer container && X.gnbUp u.gnbKey
  | _ => false

theorem applyContainer_watch (container : Option Bytes) :
    ((applyContainer V X r container s).ue r).watch = (s.ue r).watch ∨
      ((applyContainer V X r container s).ue r).watch = releasedWatch X (s.ue r) := by
  unfold applyContainer
  split
  · exact .inl rfl
  · exact .inl rfl
  · unfold applyContainerRRToUE
    split
    · exact .inl rfl
    split
    · rename_i rr _
      dsimp only
      have hacts : Acts r [.book] s (runNSSFWithRequested X r rr.requestedNSSAI
          (s.exec (.book r fun b => { b with micoRequested := rr.micoIndication }))) :=
        (book_acts _).andThen (runNSSFWithRequested_acts X _) rfl
      have hw := hacts.watch_eq rfl r
      split
      · refine .inr ?_
        rw [abortRegistrationAndReleaseN1_watch]
        unfold releasedWatch
        rw [gnbKey_eq hacts rfl, (Prod.mk.inj hw).1]
      · exact .inl hw
    · exact .inl rfl

theorem completeSecurityMode_atRest {container : Option Bytes} (hst : (s.ue r).fsm = .securityMode)
    (hloose : (s.ue r).Loose) : ((completeSecurityMode V X r container s).ue r).AtRest := by
  unfold completeSecurityMode
  have hc := applyContainer_watch (V := V) (X := X) (r := r) (s := s) container
  generalize applyContainer V X r container s = s₁ at hc ⊢
  have hsend : Acts r [.tmsi, .dl, .send, .book] s₁ (sendRegistrationAccept V X r
      (if X.gnbUp (s₁.ue r).gnbKey then (initialCtxSetupSend V X r s₁).1 else s₁)) := by
    refine Acts.andThen ?_ (sendRegistrationAccept_acts V X) rfl
    split
    · exact (initialCtxSetupSend_acts V X).mono rfl
    · exact .refl
  have hw := hsend.watch_eq rfl r
  exact fire_after_release (by decide) (hc.imp hw.trans hw.trans) hloose (by rw [hst]; rfl)

theorem handleSecurityModeComplete_atRest (h : (s.ue r).AtRest)
    (hcomplete : completeFails V X (s.ue r) inner = false) :
    ((handleSecurityModeComplete V X r inner s).ue r).AtRest := by
  unfold handleSecurityModeComplete
  by_cases hst : (s.ue r).fsm = .securityMode
  · rw [allowedIn_of_eq hst]
    simp only [Bool.true_eq_false, if_false]
    split
    · exact h
    · split
      · have hpromote : Acts r [.promote, .markActivated, .book] s
            (((s.exec (.promote r)).exec (.markActivated r)).exec
              (.book r fun b => { b with gmmSub := .none })) := by
          refine Acts.exec (Acts.exec (Acts.one ?_ ?_) ?_ ?_) ?_ ?_ <;> rfl
        have hbook : ((((s.exec (.promote r)).exec (.markActivated r)).exec
            (.book r fun b => { b with gmmSub := .none })).ue r).book.initialRRCleartextOnly =
              (s.ue r).book.initialRRCleartextOnly := by
          simp [AmfState.exec, AmfState.updSec]
        have hw := hpromote.watch_eq rfl r
        have hgnb := gnbKey_eq hpromote rfl r
        generalize ((s.exec (.promote r)).exec (.markActivated r)).exec
          (.book r fun b => { b with gmmSub := .none }) = s₁ at hw hgnb hbook ⊢
        split
        · have hdown : X.gnbUp (s.ue r).gnbKey = false := by
            simp_all [completeFails]
          have hwatch := abortRegistrationAndReleaseN1_watch (V := V) (X := X) (r := r)
            (s := s₁.exec (.book r fun b => { b with gmmProc := .registration }))
            causeConditionalIEError
          refine atRest_of_dropped (hwatch.trans ?_)
          have hup : X.gnbUp ((s₁.exec (.book r fun b =>
              { b with gmmProc := .registration })).ue r).gnbKey = false := by
            rw [gnbKey_eq (book_acts _) rfl, hgnb]
            exact hdown
          simp [releasedWatch, hup]
        · exact completeSecurityMode_atRest (by rw [(Prod.mk.inj hw).1, hst]) (h.1.1.congr hw)
      · exact h
  · rw [allowedIn_of_ne hst, if_pos rfl]
    exact h.congr ((send5GMMStatus_acts V X _).watch_eq rfl r)

/-! ## Identification -/

/-- An identity that belongs to nobody the UDM knows ends the registration without moving the
state machine. -/
def identityFails (V : Env) (X : Ext) (r : Ref) (inner : Bytes) (s : AmfState) : Bool :=
  match V.decode inner with
  | .ok (.identityResponse id) =>
    match resolveSUPI X s id (s.ue r).imsi with
    | .ok supi =>
      (s.ue r).fsm == .identification && (s.ue r).book.gmmProc == .registration &&
        !X.authData supi && X.gnbUp (s.ue r).gnbKey
    | .error _ => false
  | _ => false

/-- Whoever makes way is dropped, and the context that takes the place keeps its state. -/
theorem takePlace_watch (existing : Ref) :
    ((takePlace existing r s).ue r).watch = (s.ue r).watch ∧
      ∀ q, q ≠ r → ((takePlace existing r s).ue q).watch = (s.ue q).watch ∨
        ((takePlace existing r s).ue q).watch = dropped := by
  unfold takePlace
  split
  · exact ⟨rfl, fun q _ => .inl rfl⟩
  · rename_i hne
    refine ⟨congrArg Ue.watch (remove_acts.ue_of_ne (Ne.symm hne)), fun q _ => ?_⟩
    by_cases hq : q = existing
    · exact .inr (hq ▸ remove_watch existing s)
    · exact .inl (congrArg Ue.watch (remove_acts.ue_of_ne hq))

/-- Every context is at rest. -/
def AtRest (s : AmfState) : Prop := ∀ q, (s.ue q).AtRest

theorem Acts.atRest (h : Acts r L s t) (hr : (t.ue r).AtRest) (hs : AtRest s) : AtRest t := by
  intro q
  by_cases hq : q = r
  · exact hq ▸ hr
  · rw [h.ue_of_ne hq]
    exact hs q

theorem takePlace_atRest (existing : Ref) (hs : AtRest s) : AtRest (takePlace existing r s) := by
  obtain ⟨hself, hother⟩ := takePlace_watch (r := r) (s := s) existing
  intro q
  by_cases hq : q = r
  · subst hq
    exact (hs q).congr hself
  · rcases hother q hq with h | h
    · exact (hs q).congr h
    · exact atRest_of_dropped h

theorem identityResolved_atRest {supi : Imsi} (hst : (s.ue r).fsm = .identification)
    (hs : AtRest s) (hfails : (s.ue r).book.gmmProc = .registration → X.authData supi = false →
      X.gnbUp (s.ue r).gnbKey = false) :
    AtRest (identityResolved V X r supi s) := by
  have hset : Acts r [.imsi] s (s.exec (.setImsi r supi)) := by
    apply Acts.one <;> rfl
  have hset' : AtRest (s.exec (.setImsi r supi)) :=
    hset.atRest ((hs r).congr (hset.watch_eq rfl r)) hs
  have hself : (s.exec (.setImsi r supi)).ue r = { s.ue r with imsi := supi } := exec_ue_self rfl
  have htake := takePlace_atRest (r := r) (existingContext r supi (s.exec (.setImsi r supi))) hset'
  have hue : (takePlace (existingContext r supi (s.exec (.setImsi r supi))) r
      (s.exec (.setImsi r supi))).ue r = { s.ue r with imsi := supi } := by
    rw [← hself]
    unfold takePlace
    split
    · rfl
    · rename_i hne
      have hrem : (remove (existingContext r supi (s.exec (.setImsi r supi)))
          (s.exec (.setImsi r supi))).ue r = (s.exec (.setImsi r supi)).ue r :=
        remove_acts.ue_of_ne (Ne.symm hne)
      exact hrem
  rw [← takeOverSUPI_eq] at htake hue
  unfold identityResolved
  dsimp only
  generalize takeOverSUPI r supi (s.exec (.setImsi r supi)) = s₁ at htake hue ⊢
  have hw : (s₁.ue r).watch = (s.ue r).watch := by rw [hue]; rfl
  split
  · rename_i hproc
    split
    · refine (abortRegistrationAndReleaseN1_acts V X _).atRest ?_ htake
      refine atRest_of_dropped ((abortRegistrationAndReleaseN1_watch _).trans ?_)
      simp_all [releasedWatch]
    · have hnssf := (runNSSFWithRequested_acts X (r := r) (s := s₁) none).watch_eq rfl r
      have hloose := (htake r).1.1.congr hnssf
      have hacts : Acts r afreshKinds s₁ (fire X r .identityResponse
          (startAuthentication V X r (runNSSFWithRequested X r none s₁))) :=
        (((runNSSFWithRequested_acts X none).mono rfl).andThen
          (startAuthentication_acts V X) rfl).andThen
          (fire_acts X .identityResponse (by decide)) (by decide)
      refine hacts.atRest (fire_after_startAuthentication (by decide) hloose ?_) htake
      rw [(Prod.mk.inj hnssf).1, (Prod.mk.inj hw).1, hst]
      rfl
  · exact (fire_acts X .identityResponse (by decide)).atRest
      (fire_keeps_atRest (by decide) (htake r)) htake

theorem handleIdentityResponse_atRest (hs : AtRest s)
    (hfails : identityFails V X r inner s = false) :
    AtRest (handleIdentityResponse V X r inner s) := by
  unfold handleIdentityResponse
  by_cases hst : (s.ue r).fsm = .identification
  · rw [allowedIn_of_eq hst]
    simp only [Bool.true_eq_false, if_false]
    have hfail : ∀ cause, AtRest
        (abortRegistrationAndReleaseN1 V X r cause (fire X r .identityResponseFail s)) := by
      intro cause
      have hdrop : ((fire X r .identityResponseFail s).ue r).watch = dropped :=
        fire_fails_watch (hs r).1.1 (by rw [hst]; rfl) (by decide)
      have hacts : Acts r (.note :: .take :: abortKinds) s
          (abortRegistrationAndReleaseN1 V X r cause (fire X r .identityResponseFail s)) :=
        ((fire_acts X .identityResponseFail (by decide)).mono (by decide)).andThen
          (abortRegistrationAndReleaseN1_acts V X cause) rfl
      exact hacts.atRest (abort_after_drop hdrop) hs
    split
    · rename_i id hdec
      split
      · rename_i supi hres
        refine identityResolved_atRest hst hs fun hproc hauth => ?_
        simpa [identityFails, hdec, hres, hst, hproc, hauth] using hfails
      · exact hfail _
    · exact hfail _
  · rw [allowedIn_of_ne hst, if_pos rfl]
    exact (send5GMMStatus_acts V X _).atRest
      ((hs r).congr ((send5GMMStatus_acts V X _).watch_eq rfl r)) hs

/-! ## Registration requests -/

/-- An identity request can be sent. -/
def identityRequestSendable (V : Env) (X : Ext) (u : Ue) : Bool :=
  (V.encode (.identityRequest (identityTypeSUCI % 8))).isSome && X.gnbUp u.gnbKey

/-- The path leaves the state machine guarded; `aborted` when the request aborted the running
procedure, so that no timer is armed any more. -/
def RegistrationPath.KeepsGuard (V : Env) (X : Ext) (aborted : Bool) (r : Ref) (s : AmfState) :
    RegistrationPath → Prop
  | .duplicate => aborted = true → (s.ue r).waits = false
  | .malformed _ | .unresolvable _ | .illegal .. | .noSlices .. =>
    X.gnbUp (s.ue r).gnbKey = true → (s.ue r).waits = false
  | .unidentified _ => aborted = true →
      if identityRequestSendable V X (s.ue r) then (s.ue r).fsm = .deregistered
      else (s.ue r).waits = false
  | .reuseOwn rr supi => aborted = true →
      (RegistrationPath.reuseOwn rr supi).reuses X r s ≠ none → (s.ue r).waits = false
  | .reuseOther rr supi existing verified =>
      if (RegistrationPath.reuseOther rr supi existing verified).reuses X r s = none ∧
          vectorMissing X supi = true then
        X.gnbUp (s.ue r).gnbKey = true → (s.ue r).waits = false
      else aborted = true → (s.ue r).waits = false
  | .authenticate .. => True

theorem regRequestContextValid_row (h : u.waits = false) :
    (findTransition u.fsm .regRequestContextValid).isSome = true := by
  rcases not_waits_cases h with h | h <;> rw [h] <;> rfl

/-- Acceptance on cached keys ends in the event, or in nothing but a failed send. -/
theorem sendRegistrationAcceptReusedContext_cases :
    ((sendRegistrationAcceptReusedContext V X r s).2 = false ∧
      Acts r [.tmsi, .send, .book] s (sendRegistrationAcceptReusedContext V X r s).1) ∨
    ((sendRegistrationAcceptReusedContext V X r s).2 = true ∧
      ∃ t, Acts r [.tmsi, .dl, .send, .book] s t ∧
        (sendRegistrationAcceptReusedContext V X r s).1 = fire X r .regRequestContextValid t) := by
  have htmsi : Acts r [.tmsi] s (s.exec (.setTmsi r X.newTmsi)) := by
    apply Acts.one <;> rfl
  have hics := initialCtxSetupSend_acts V X (r := r) (s := s.exec (.setTmsi r X.newTmsi))
  unfold sendRegistrationAcceptReusedContext
  dsimp only
  split
  · split
    · exact .inr ⟨rfl, _, ((htmsi.mono rfl).andThen hics rfl).andThen
        (sendRegistrationAccept_acts V X) rfl, rfl⟩
    · exact .inl ⟨rfl, (htmsi.mono rfl).andThen hics rfl⟩
  · exact .inl ⟨rfl, htmsi.mono rfl⟩

/-- The dropped events in the log. -/
def Obs.note : Obs → Option Unit
  | .noTransition .. => some ()
  | _ => none

/-- From `s` to `t`, every event fired found a row. -/
def NothingDropped (s t : AmfState) : Prop := t.log.filterMap Obs.note = s.log.filterMap Obs.note

theorem Moves.nothingDropped (h : Moves L s t) (hL : L.elem .note = false) : NothingDropped s t := by
  refine h.log_frame Obs.note fun o hk => ?_
  cases o <;> first | rfl | skip
  rw [← List.elem_iff] at hk
  exact absurd (hL.symm.trans hk) (by decide)

theorem fire_nothingDropped (hrow : (findTransition (s.ue r).fsm ev).isSome = true) :
    NothingDropped s (fire X r ev s) := by
  obtain ⟨row, hrow⟩ := Option.isSome_iff_exists.1 hrow
  unfold fire
  rw [hrow]
  exact (runAction_acts X row.action).moves.nothingDropped rfl

theorem Acts.quiet (h : Acts r L s t) (hL : L.elem .note = false) : NothingDropped s t :=
  h.moves.nothingDropped hL

theorem NothingDropped.trans {u : AmfState} (h : NothingDropped s t) (h' : NothingDropped t u) :
    NothingDropped s u := Eq.trans h' h

/-- Every context rests again, and after an abort no event was dropped. -/
def Settles (aborted : Bool) (s t : AmfState) : Prop :=
  AtRest t ∧ (aborted = true → NothingDropped s t)

theorem Settles.after {u : AmfState} {aborted : Bool} (h : Settles aborted t u)
    (hs : NothingDropped s t) : Settles aborted s u := ⟨h.1, fun ha => hs.trans (h.2 ha)⟩

/-- What a registration or deregistration request finds: its context may have lost its timers to
an abort. -/
structure Entry (aborted : Bool) (r : Ref) (s : AmfState) : Prop where
  others : ∀ q, q ≠ r → (s.ue q).AtRest
  loose : (s.ue r).Loose
  rests : (s.ue r).fsm ≠ .deregistrationInitiated ∧ (s.ue r).fsm ≠ .mtDeregPending
  guarded : aborted = false → (s.ue r).Guarded

variable {aborted : Bool}

theorem Entry.congr (h : Entry aborted r s) (hself : (t.ue r).watch = (s.ue r).watch)
    (hother : ∀ q, q ≠ r → (t.ue q).watch = (s.ue q).watch ∨ (t.ue q).watch = dropped) :
    Entry aborted r t where
  others q hq := (hother q hq).elim (h.others q hq).congr atRest_of_dropped
  loose := h.loose.congr hself
  rests := by
    rw [(Prod.mk.inj hself).1]
    exact h.rests
  guarded ha := (h.guarded ha).congr hself

theorem Acts.entry (h : Acts r L s t) (hL : L.all (· ∉ watchKinds) = true)
    (hs : Entry aborted r s) : Entry aborted r t :=
  hs.congr (h.watch_eq hL r) fun q _ => .inl (h.watch_eq hL q)

theorem Entry.atRest (h : Entry aborted r s) (hw : aborted = true → (s.ue r).waits = false) :
    AtRest s := by
  intro q
  by_cases hq : q = r
  · subst hq
    refine ⟨?_, h.rests⟩
    cases aborted with
    | false => exact h.guarded rfl
    | true => exact Ue.guarded_of_not_waits h.loose (hw rfl)
  · exact h.others q hq

theorem Acts.entry_atRest (h : Acts r L s t) (hs : Entry aborted r s) (hr : (t.ue r).AtRest) :
    AtRest t := by
  intro q
  by_cases hq : q = r
  · exact hq ▸ hr
  · rw [h.ue_of_ne hq]
    exact hs.others q hq

/-- An event with a row, or one that leaves a guarded state as it is. -/
theorem Entry.fire (h : Entry aborted r s) (ev : GmmEvent)
    (hev : ev ∉ unrestEvents ++ expiryEvents)
    (hrow : aborted = true → (findTransition (s.ue r).fsm ev).isSome = true) :
    ((fire X r ev s).ue r).AtRest ∧
      (aborted = true → NothingDropped s (Amf.fire X r ev s)) := by
  refine ⟨?_, fun ha => fire_nothingDropped (hrow ha)⟩
  have hev' := hev
  simp only [List.mem_append, not_or] at hev'
  cases aborted with
  | false => exact fire_keeps_atRest hev ⟨h.guarded rfl, h.rests⟩
  | true => exact fire_atRest hev'.1 h.loose (loose_not_own h.loose hev'.2) (hrow rfl)

section

variable (h : Entry aborted r s) (hw : X.gnbUp (s.ue r).gnbKey = true → (s.ue r).waits = false)
include h hw

theorem Entry.release : AtRest (abortRegistrationAndReleaseN1 V X r cause s) :=
  (abortRegistrationAndReleaseN1_acts V X cause).entry_atRest h
    (atRest_of_released (abortRegistrationAndReleaseN1_watch cause) h.rests hw)

theorem Entry.reject : AtRest (rejectRegistration V X r cause s) := by
  refine Entry.release ((book_acts _).entry rfl h) fun hup => ?_
  rw [gnbKey_eq (book_acts _) rfl] at hup
  rw [Ue.waits_congr ((book_acts _).watch_eq rfl r)]
  exact hw hup

end

theorem Entry.afresh (h : Entry aborted r s) : Settles aborted s (authenticateAfresh V X r s) := by
  refine ⟨(authenticateAfresh_acts V X).entry_atRest h (authenticateAfresh_atRest h.loose h.rests),
    fun _ => ?_⟩
  refine ((startAuthentication_acts V X).quiet rfl).trans
    (fire_nothingDropped (registrationRequest_row ?_))
  have hw := startAuthentication_watch (V := V) (X := X) (r := r) (s := s)
  split at hw
  · rw [(Prod.mk.inj hw).1]
    split
    · exact h.rests
    · exact ⟨by decide, by decide⟩
  · rw [(Prod.mk.inj hw).1]
    exact h.rests

/-- The rest of a registration without authentication, once the accept is sent. -/
theorem reuse_settles (h : Entry aborted r s) (src : Ref) (rr : RegistrationRequest)
    (hacts : Acts r [.tmsi, .dl, .send, .book] s t)
    (hw : aborted = true → (s.ue r).waits = false) :
    Settles aborted s (reconcilePDUSessionsOnRegistration X r rr
      ((fire X r .regRequestContextValid t).exec (.emit (.contextReused r src)))) := by
  have hentry := hacts.entry rfl h
  obtain ⟨hrest, hnote⟩ := hentry.fire (X := X) .regRequestContextValid (by decide) fun ha => by
    rw [(Prod.mk.inj (hacts.watch_eq rfl r)).1]
    exact regRequestContextValid_row (hw ha)
  have htail : Acts r [.reuse, .smf, .book] (fire X r .regRequestContextValid t)
      (reconcilePDUSessionsOnRegistration X r rr
        ((fire X r .regRequestContextValid t).exec (.emit (.contextReused r src)))) := by
    refine Acts.andThen (Acts.one ?_ ?_) (reconcilePDUSessionsOnRegistration_acts X rr)
      rfl <;> rfl
  have hfire := (fire_acts X .regRequestContextValid (by decide)).entry_atRest hentry hrest
  exact ⟨htail.atRest (hrest.congr (htail.watch_eq rfl r)) hfire, fun ha =>
    ((hacts.quiet rfl).trans (hnote ha)).trans (htail.quiet rfl)⟩

theorem reuseOwnContext_guard (rr : RegistrationRequest) (h : Entry aborted r s)
    (hallowed : (s.ue r).book.allowedNSSAI ≠ [])
    (hw : aborted = true → setupSendable X (s.ue r) (s.ue r).sec.ueSecCap s.log.length = true →
      (s.ue r).waits = false) :
    Settles aborted s (reuseOwnContext V X r rr s) := by
  have hsent := sendRegistrationAcceptReusedContext_ok (V := V) (X := X) hallowed
  unfold reuseOwnContext
  rcases sendRegistrationAcceptReusedContext_cases (V := V) (X := X) (r := r) (s := s) with
    ⟨hno, hacts⟩ | ⟨hyes, t, hacts, heq⟩
  · rw [if_neg (by simp [hno])]
    have hflag : Acts r [.ngksiFlag] (sendRegistrationAcceptReusedContext V X r s).1
        ((sendRegistrationAcceptReusedContext V X r s).1.exec (.unassignNgksi r)) := by
      apply Acts.one <;> rfl
    have hbefore := (hacts.mono (M := [.ngksiFlag, .tmsi, .send, .book]) rfl).andThen hflag rfl
    exact (hbefore.entry rfl h).afresh.after (hbefore.quiet rfl)
  · rw [if_pos hyes, heq]
    exact reuse_settles h r rr hacts fun ha => hw ha (hsent.symm.trans hyes)

theorem acceptAdopted_guard (existing : Ref) (rr : RegistrationRequest) (h : Entry aborted r s)
    (hallowed : (s.ue r).book.allowedNSSAI ≠ [])
    (hw : if setupSendable X (s.ue r) (s.ue r).sec.ueSecCap s.log.length = false ∧
        vectorMissing X (s.ue r).imsi = true then
      X.gnbUp (s.ue r).gnbKey = true → (s.ue r).waits = false
      else aborted = true → (s.ue r).waits = false) :
    Settles aborted s (acceptAdopted V X r existing rr s) := by
  have hsent := sendRegistrationAcceptReusedContext_ok (V := V) (X := X) hallowed
  unfold acceptAdopted
  rcases sendRegistrationAcceptReusedContext_cases (V := V) (X := X) (r := r) (s := s) with
    ⟨hno, hacts⟩ | ⟨hyes, t, hacts, heq⟩
  · rw [hno] at hsent
    rw [if_neg (by simp [hno])]
    have hflag : Acts r [.ngksiFlag] (sendRegistrationAcceptReusedContext V X r s).1
        ((sendRegistrationAcceptReusedContext V X r s).1.exec (.unassignNgksi r)) := by
      apply Acts.one <;> rfl
    have hbefore := (hacts.mono (M := [.ngksiFlag, .tmsi, .send, .book]) rfl).andThen hflag rfl
    have hentry := hbefore.entry rfl h
    have hwatch := hbefore.watch_eq rfl r
    have hgnb := gnbKey_eq hbefore rfl r
    have himsi := hbefore.imsi_eq rfl r
    generalize (sendRegistrationAcceptReusedContext V X r s).1.exec (.unassignNgksi r) = s₁
      at hbefore hentry hwatch hgnb himsi ⊢
    refine ⟨(startAuthentication_acts V X).entry_atRest hentry ?_, fun _ =>
      (hbefore.quiet rfl).trans
        ((startAuthentication_acts V X).quiet rfl)⟩
    have hstart := startAuthentication_watch (V := V) (X := X) (r := r) (s := s₁)
    rw [himsi] at hstart
    cases hmissing : vectorMissing X (s.ue r).imsi with
    | true =>
      rw [if_pos ⟨hsent.symm, hmissing⟩] at hw
      rw [if_pos hmissing] at hstart
      refine atRest_of_released hstart hentry.rests fun hup => ?_
      rw [Ue.waits_congr hwatch]
      exact hw (hgnb ▸ hup)
    | false =>
      rw [if_neg (by simp [hmissing])] at hw
      rw [if_neg (by simp [hmissing])] at hstart
      refine (hentry.atRest (fun ha => ?_) r).congr hstart
      rw [Ue.waits_congr hwatch]
      exact hw ha
  · rw [if_pos hyes, heq]
    rw [if_neg (by simp [← hsent, hyes])] at hw
    exact reuse_settles h existing rr hacts hw

theorem sendIdentityRequest_guard (idType : Nat) (h : Entry aborted r s)
    (hw : aborted = true →
      if (V.encode (.identityRequest (idType % 8))).isSome && X.gnbUp (s.ue r).gnbKey
      then (s.ue r).fsm = .deregistered else (s.ue r).waits = false) :
    Settles aborted s (sendIdentityRequest V X r idType s) := by
  unfold sendIdentityRequest
  cases hencode : V.encode (.identityRequest (idType % 8)) with
  | none => exact ⟨h.atRest fun ha => by simpa [hencode] using hw ha, fun _ => rfl⟩
  | some encoded =>
    dsimp only
    split
    · rename_i hup
      have hbefore := ((dlnasSend_acts V X (r := r) (s := s) encoded).mono
        (M := [.dl, .send, .book]) rfl).andThen
        (book_acts fun b => { b with retxNASPDU := encoded }) rfl
      have hentry := hbefore.entry rfl h
      obtain ⟨hrest, hnote⟩ := hentry.fire (X := X) .identityRequestSent (by decide)
        fun ha => by
          have hst := hw ha
          rw [hencode, hup] at hst
          rw [(Prod.mk.inj (hbefore.watch_eq rfl r)).1]
          rw [hst]
          rfl
      exact ⟨(fire_acts X .identityRequestSent (by decide)).entry_atRest hentry hrest, fun ha =>
        (hbefore.quiet rfl).trans (hnote ha)⟩
    · rename_i hup
      exact ⟨h.atRest fun ha => by simpa [hup] using hw ha, fun _ => rfl⟩

/-- The context that takes keys over keeps its state, and the other one is dropped. -/
theorem enterAdopted_watch {existing : Ref} (rr : RegistrationRequest) (inner : Bytes)
    (supi : Imsi) (outer : Option Bytes) (verified : Option Nat) (hne : existing ≠ r) :
    let t := enterAdopted X r existing rr inner supi outer verified s
    (t.ue r).watch = (s.ue r).watch ∧ (t.ue r).gnbKey = (s.ue r).gnbKey ∧
      ∀ q, q ≠ r → (t.ue q).watch = (s.ue q).watch ∨ (t.ue q).watch = dropped := by
  have hsub := enterSubscriber_acts X (r := r) (s := s) rr inner supi
  obtain ⟨t, hul, hmigrate⟩ := adoptKeys_acts (s := enterSubscriber X r rr inner supi s) (r := r)
    existing (outer.getD []) verified
  have hkeys : ∀ q, ((adoptKeys r existing (outer.getD []) verified
      (enterSubscriber X r rr inner supi s)).ue q).watch = (s.ue q).watch := fun q =>
    (hmigrate.watch_eq rfl q).trans
      ((hul.watch_eq rfl q).trans (hsub.watch_eq rfl q))
  have hself : (enterAdopted X r existing rr inner supi outer verified s).ue r =
      (adoptKeys r existing (outer.getD []) verified (enterSubscriber X r rr inner supi s)).ue r :=
    remove_acts.ue_of_ne hne.symm
  refine ⟨(congrArg Ue.watch hself).trans (hkeys r), ?_, fun q hq => ?_⟩
  · rw [hself, gnbKey_eq hmigrate rfl, gnbKey_eq hul rfl, gnbKey_eq hsub rfl]
  · by_cases hqe : q = existing
    · exact .inr (hqe ▸ remove_watch existing _)
    · refine .inl (Eq.trans (congrArg Ue.watch ?_) (hkeys q))
      exact remove_acts.ue_of_ne hqe

theorem followPath_guard {outer : Option Bytes} {path : RegistrationPath} (h : Entry aborted r s)
    (hdec : path.Decided V X r inner outer s) (hkeeps : path.KeepsGuard V X aborted r s) :
    Settles aborted s (followPath V X r inner outer s path) := by
  have hcopy : ∀ rr, Acts r [.cap, .book] s (copyRequest r rr s) := copyRequest_acts
  have hsub : ∀ rr supi, Acts r [.cap, .book, .imsi] s (enterSubscriber X r rr inner supi s) :=
    fun rr supi => enterSubscriber_acts X rr inner supi
  have hwaits : ∀ {L t}, Acts r L s t → L.all (· ∉ watchKinds) = true →
      L.all (· ∉ [Kind.create, .rebind]) = true →
      (X.gnbUp (s.ue r).gnbKey = true → (s.ue r).waits = false) →
      X.gnbUp (t.ue r).gnbKey = true → (t.ue r).waits = false := fun hacts hL hL' hw hup => by
    rw [gnbKey_eq hacts hL'] at hup
    rw [Ue.waits_congr (hacts.watch_eq hL r)]
    exact hw hup
  cases path with
  | duplicate =>
    have hacts := resendCachedNAS_acts V X (r := r) (s := s)
    exact ⟨hacts.entry_atRest h ((h.atRest hkeeps r).congr (hacts.watch_eq rfl r)),
      fun _ => hacts.quiet rfl⟩
  | malformed cause =>
    exact ⟨h.reject hkeeps, fun _ =>
      (rejectRegistration_acts V X cause).quiet rfl⟩
  | unidentified rr =>
    have hacts := hcopy rr
    refine (sendIdentityRequest_guard identityTypeSUCI (hacts.entry rfl h)
      fun ha => ?_).after (hacts.quiet rfl)
    have hw := hkeeps ha
    rw [gnbKey_eq hacts rfl, (Prod.mk.inj (hacts.watch_eq rfl r)).1,
      Ue.waits_congr (hacts.watch_eq rfl r)]
    exact hw
  | unresolvable rr =>
    have hacts := hcopy rr
    exact ⟨(hacts.entry rfl h).release (hwaits hacts rfl rfl hkeeps),
      fun _ => (hacts.quiet rfl).trans
        ((abortRegistrationAndReleaseN1_acts V X _).quiet rfl)⟩
  | illegal rr supi =>
    have hacts := enterSUPI_acts (r := r) (s := s) rr inner supi
    exact ⟨(hacts.entry rfl h).reject (hwaits hacts rfl rfl hkeeps),
      fun _ => (hacts.quiet rfl).trans
        ((rejectRegistration_acts V X _).quiet rfl)⟩
  | noSlices rr supi =>
    have hacts := hsub rr supi
    exact ⟨(hacts.entry rfl h).reject (hwaits hacts rfl rfl hkeeps),
      fun _ => (hacts.quiet rfl).trans
        ((rejectRegistration_acts V X _).quiet rfl)⟩
  | reuseOwn rr supi =>
    obtain ⟨-, -, hslices, -⟩ := hdec
    have hacts := hsub rr supi
    refine (reuseOwnContext_guard rr (hacts.entry rfl h)
      (by rw [enterSubscriber_allowed]; exact hslices) fun ha hsend => ?_).after (hacts.quiet rfl)
    rw [enterSubscriber_setupSendable, enterSubscriber_sec, enterSubscriber_log] at hsend
    rw [Ue.waits_congr (hacts.watch_eq rfl r)]
    exact hkeeps ha (by simp only [RegistrationPath.reuses]; rw [if_pos hsend]; simp)
  | reuseOther rr supi existing verified =>
    obtain ⟨hself, hgnb, hother⟩ := enterAdopted_watch (X := X) (s := s) rr inner supi outer verified
      hdec.2.2.1
    obtain ⟨hsend, hallowed⟩ := enterAdopted_setup hdec
    have hentry := h.congr hself hother
    rw [followPath_reuseOther]
    refine (acceptAdopted_guard existing rr hentry hallowed ?_).after
      ((enterAdopted_moves existing rr inner supi outer verified).nothingDropped rfl)
    rw [hsend, enterAdopted_imsi X hdec.2.2.1, hgnb, Ue.waits_congr hself]
    simpa only [RegistrationPath.KeepsGuard, RegistrationPath.reuses, ite_eq_right_iff,
      reduceCtorEq, imp_false, Bool.not_eq_true] using hkeeps
  | authenticate rr supi existing =>
    have hacts := hsub rr supi
    obtain ⟨hself, hother⟩ := takePlace_watch (r := r)
      (s := enterSubscriber X r rr inner supi s) existing
    exact ((hacts.entry rfl h).congr hself hother).afresh.after
      ((hacts.quiet rfl).trans ((takePlace_moves existing).nothingDropped rfl))

/-! ## Deregistration -/

/-- The accept can be encoded, or is not needed. -/
def deregistrationAnswerable (V : Env) (deregistrationType : Nat) : Bool :=
  switchOff deregistrationType || (V.encode .deregistrationAcceptUEOriginating).isSome

theorem AtRest.entry (h : AtRest s) (r : Ref) (aborted : Bool) : Entry aborted r s :=
  ⟨fun q _ => h q, (h r).1.1, (h r).2, fun _ => (h r).1⟩

theorem deregisterUE_guard (ty : Nat) (h : Entry aborted r s)
    (hw : if deregistrationAnswerable V ty then aborted = true → (s.ue r).fsm = .registered
      else (s.ue r).waits = false) :
    Settles aborted s (deregisterUE V X r ty s) := by
  have hacts := deregisterUE_acts V X (r := r) (s := s) ty
  have hbefore : Acts r [.book, .rm, .smf, .sessions] s
      (releaseAllPDUSessions r ((s.exec (.book r fun b =>
        { b with gmmProc := .deregistration, cm := .idle })).exec (.setRm r .deregistered))) := by
    refine Acts.andThen (Acts.exec (Acts.one ?_ ?_) ?_ ?_) releaseAllPDUSessions_acts
      rfl <;> rfl
  suffices hgoal : ((deregisterUE V X r ty s).ue r).AtRest ∧
      (aborted = true → NothingDropped s (deregisterUE V X r ty s)) from
    ⟨hacts.entry_atRest h hgoal.1, hgoal.2⟩
  clear hacts
  unfold deregisterUE
  dsimp only
  generalize releaseAllPDUSessions r _ = s₁ at hbefore ⊢
  have hstart : Acts r [.book, .rm, .smf, .sessions, .cancel] s (s₁.exec (.cancelAll r)) := by
    refine Acts.exec (hbefore.mono rfl) ?_ ?_ <;> rfl
  have hstopped := cancelAll_watch r s₁
  rw [(Prod.mk.inj (hbefore.watch_eq rfl r)).1] at hstopped
  -- the event is fired after the command to the gNB; whatever it does, the context is cleared
  have hfinish : ∀ {t}, Acts r [.dl, .send] (s₁.exec (.cancelAll r)) t →
      (aborted = true → (s.ue r).fsm = .registered) →
      ((finishDeregistration X r .deregistrationRequestMO ((sendCommandIfUp X r t).exec
          (.book r fun b => { b with gmmProc := .none }))).ue r).AtRest ∧
        (aborted = true → NothingDropped s (finishDeregistration X r .deregistrationRequestMO
          ((sendCommandIfUp X r t).exec (.book r fun b => { b with gmmProc := .none })))) := by
    intro t ht hst
    refine ⟨atRest_of_dropped (clearVolatile_watch r _), fun ha => ?_⟩
    have hcmd := ((ht.mono (M := [.dl, .send, .book]) rfl).andThen
      (sendCommandIfUp_acts X) rfl).andThen
      (book_acts fun b => { b with gmmProc := .none }) rfl
    have hfsm := (Prod.mk.inj ((hcmd.watch_eq rfl r).trans hstopped)).1
    refine ((hstart.quiet rfl).trans
      (hcmd.quiet rfl)).trans ?_
    exact (fire_nothingDropped (by rw [hfsm, hst ha]; rfl)).trans
      (clearVolatile_acts.quiet rfl)
  unfold deregistrationAnswerable at hw
  split
  · rename_i hoff
    exact hfinish .refl (by simpa [hoff] using hw)
  · rename_i hoff
    cases hencode : V.encode .deregistrationAcceptUEOriginating with
    | none =>
      have hquiet : (s.ue r).waits = false := by simpa [hoff, hencode] using hw
      refine ⟨⟨?_, ?_⟩, fun _ => hstart.quiet rfl⟩
      · refine Ue.guarded_of_not_waits (Ue.loose_of_no_timers (Prod.mk.inj hstopped).2) ?_
        unfold Ue.waits at hquiet ⊢
        rw [(Prod.mk.inj hstopped).1]
        exact hquiet
      · rw [(Prod.mk.inj hstopped).1]
        exact h.rests
    | some encoded =>
      refine hfinish ?_ (by simpa [hencode] using hw)
      split
      · exact dlnasSend_acts V X encoded
      · exact .refl

theorem retarget_entry (target : Ref) (h : Entry aborted r s) :
    Entry aborted target (retarget r target s) ∧ NothingDropped s (retarget r target s) ∧
      ((retarget r target s).ue target).watch = (s.ue target).watch := by
  unfold retarget
  split
  · rename_i heq
    exact ⟨heq ▸ h, rfl, rfl⟩
  · rename_i hne
    have hbind : Acts target [.rebind] s
        (s.exec (.rebind target (s.ue r).gnbKey (s.ue r).ranUeNgapId)) := by
      apply Acts.one <;> rfl
    have hself : ((remove r (s.exec (.rebind target (s.ue r).gnbKey
        (s.ue r).ranUeNgapId))).ue target).watch = (s.ue target).watch :=
      (congrArg Ue.watch (remove_acts.ue_of_ne hne)).trans (hbind.watch_eq rfl target)
    have hrest : AtRest (remove r (s.exec (.rebind target (s.ue r).gnbKey
        (s.ue r).ranUeNgapId))) := by
      intro q
      by_cases hq : q = r
      · exact atRest_of_dropped (hq ▸ remove_watch r _)
      · rw [remove_acts.ue_of_ne hq]
        exact (h.others q hq).congr (hbind.watch_eq rfl q)
    exact ⟨hrest.entry target aborted, (hbind.quiet rfl).trans
      (remove_acts.quiet rfl), hself⟩

/-- A deregistration request leaves the state machine guarded. -/
def DeregistrationKeepsGuard (V : Env) (X : Ext) (aborted : Bool) (r : Ref) (inner : Bytes)
    (s : AmfState) : Prop :=
  match V.decode inner with
  | .ok (.deregistrationRequestUEOriginating ty id) =>
    if deregistrationAnswerable V ty then
      aborted = true → (s.ue (deregistrationTarget X r id s)).fsm = .registered
    else (s.ue (deregistrationTarget X r id s)).waits = false
  | _ => aborted = true → (s.ue r).waits = false

theorem handleDeregistrationRequestMO_guard (h : Entry aborted r s)
    (hkeeps : DeregistrationKeepsGuard V X aborted r inner s) :
    Settles aborted s (handleDeregistrationRequestMO V X r inner s) := by
  unfold handleDeregistrationRequestMO
  unfold DeregistrationKeepsGuard at hkeeps
  split
  · rename_i ty id hdec
    rw [hdec] at hkeeps
    obtain ⟨hentry, hnote, hwatch⟩ := retarget_entry (deregistrationTarget X r id s) h
    refine (deregisterUE_guard ty hentry ?_).after hnote
    rw [(Prod.mk.inj hwatch).1, Ue.waits_congr hwatch]
    exact hkeeps
  · have hw : aborted = true → (s.ue r).waits = false := by
      simp_all
    exact ⟨h.atRest hw, fun _ => rfl⟩

end MmtCore.Amf
