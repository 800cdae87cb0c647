import MmtCore.Amf.ContextReuse

/-!
# Proof of possession before a security context is taken into use

The pending context is promoted in one place, the handler of SECURITY MODE COMPLETE
(`promoted_iff`).  What the handler relies on, and does not look at itself, is an invariant of the
run: a context that waits for the security mode to complete with keys pending has answered its
latest challenge.
-/

namespace MmtCore.Amf

open MmtCore.Lib List Option Bool Lab SecurityCtx Message Obs AmfState Acts Cmd

variable {V : Env} {X : Ext} {r q : Ref} {s t : AmfState} {L : List Kind}

/-! ## Promotion -/

def Obs.promotedRef : Obs → Option Ref
  | .promoted r => some r
  | _ => none

/-- The context waits for this message with keys pending. -/
def Ue.completesSecurityMode (V : Env) (u : Ue) (inner : Bytes) : Bool :=
  u.fsm == .securityMode && u.sec.pending &&
    match V.decode inner with
    | .ok (.securityModeComplete _) => true
    | _ => false

/-- The message makes its handler promote the pending context. -/
def Message.promotes (V : Env) (m : Message) : Bool :=
  m.msgType == msgSecurityModeComplete && (m.state.ue m.r).completesSecurityMode V m.inner

theorem Moves.promoted_eq (h : Moves L s t) (hL : L.elem .promote = false) :
    t.log.filterMap Obs.promotedRef = s.log.filterMap Obs.promotedRef := by
  refine h.log_frame promotedRef fun o hk => ?_
  cases o <;> first | rfl | skip
  rw [← elem_iff] at hk
  exact absurd (hL.symm.trans hk) (by decide)

theorem Acts.promoted_eq (h : Acts r L s t) (hL : L.elem .promote = false) :
    t.log.filterMap Obs.promotedRef = s.log.filterMap Obs.promotedRef :=
  h.moves.promoted_eq hL

variable {m : Message} {ev : Event} {existing : Ref} {rr : RegistrationRequest} {inner : Bytes}
  {d : Delivery}

/-- Messages that only answer a running procedure find the state as it was received. -/
theorem Message.entry_of_response
    (h : m.msgType ≠ msgRegistrationRequest ∧ m.msgType ≠ msgDeregistrationRequestMO) :
    m.entry = m.state := by
  apply entry_of_not_aborts
  simp [aborts, h.1, h.2]

theorem handleSecurityModeComplete_promoted (inner : Bytes) :
    (handleSecurityModeComplete V X r inner s).log.filterMap Obs.promotedRef =
      (if (s.ue r).completesSecurityMode V inner then [r] else []) ++
        s.log.filterMap Obs.promotedRef := by
  unfold handleSecurityModeComplete Ue.completesSecurityMode
  by_cases hst : (s.ue r).fsm = .securityMode
  · rw [allowedIn_of_eq hst]
    simp only [Bool.true_eq_false, if_false, hst, BEq.rfl, Bool.true_and]
    cases hpend : (s.ue r).sec.pending with
    | false => simp
    | true =>
      simp only [Bool.true_eq_false, if_false, Bool.true_and]
      cases V.decode inner with
      | error e => rfl
      | ok msg =>
        cases msg with
        | securityModeComplete container =>
          dsimp only
          split
          · rw [(abortRegistrationAndReleaseN1_acts V X _).promoted_eq rfl]
            rfl
          · rw [(completeSecurityMode_acts V X container).promoted_eq rfl]
            rfl
        | _ => rfl
  · rw [allowedIn_of_ne hst, if_pos rfl]
    simp only [beq_eq_false_iff_ne.2 hst, Bool.false_and, Bool.false_eq_true, if_false,
      nil_append]
    exact (send5GMMStatus_acts V X _).promoted_eq rfl

theorem handle_promoted (m : Message) :
    (handle V X m.r m.msgType m.inner m.outer m.entry).log.filterMap Obs.promotedRef =
      (if m.promotes V then [m.r] else []) ++ m.entry.log.filterMap Obs.promotedRef := by
  have hother : m.msgType ≠ msgSecurityModeComplete → m.promotes V = false := fun h => by
    simp [promotes, h]
  refine handle_elim V X
    (motive := fun t => t.log.filterMap promotedRef =
      _ ++ m.entry.log.filterMap promotedRef)
    (fun hty => ?_) (fun hty => ?_) (fun hty => ?_) (fun hty => ?_) (fun hty => ?_)
    (fun hty => ?_) (fun hty => ?_) (fun hty => ?_)
  · rw [handleRegistrationRequest_eq, hother (by rw [hty]; decide)]
    exact (followPath_moves m.inner m.outer _).promoted_eq rfl
  · rw [hother (by rw [hty]; decide)]
    exact (handleDeregistrationRequestMO_moves m.inner).promoted_eq rfl
  · rw [hother (by rw [hty]; decide)]
    exact (handleAuthenticationResponse_acts V X m.inner).promoted_eq rfl
  · rw [hother (by rw [hty]; decide)]
    exact (handleAuthenticationFailure_acts V X m.inner).promoted_eq rfl
  · rw [hother (by rw [hty]; decide)]
    exact (handleIdentityResponse_moves m.inner).promoted_eq rfl
  · have hentry : m.entry = m.state :=
      Message.entry_of_response (by rw [hty]; decide)
    rw [handleSecurityModeComplete_promoted, hentry]
    simp only [Message.promotes, hty, BEq.rfl, Bool.true_and]
  · rw [hother (by rw [hty]; decide)]
    exact (handleSecurityModeReject_acts V X m.inner).promoted_eq rfl
  · rw [hother (fun h => hty (by rw [h]; decide))]
    exact (handle_other_acts V X hty m.inner m.outer).promoted_eq rfl

/-- Exactly the messages that promote the pending context. -/
theorem promoted_iff : .promoted r ∈ emitted s (stepEvent V X s ev) ↔
      ∃ m, handed V X s ev = some m ∧ m.r = r ∧ m.promotes V = true := by
  have hemitted := emitted_of_handled (V := V) (X := X) (s := s) (f := promotedRef)
    (fun o ho => by cases o <;> simp [Obs.kind] at ho <;> rfl) handle_promoted
    (fun m hpass => by
      rw [if_neg]
      intro hm
      simp only [promotes, and_eq_true, beq_iff_eq] at hm
      rw [passes, hm.1] at hpass
      cases hpass) ev
  have hmem : .promoted r ∈ emitted s (stepEvent V X s ev) ↔
      r ∈ (emitted s (stepEvent V X s ev)).filterMap promotedRef := by
    simp only [mem_filterMap]
    constructor
    · intro h
      exact ⟨_, h, rfl⟩
    · rintro ⟨o, ho, heq⟩
      cases o <;> simp [promotedRef] at heq
      subst heq
      exact ho
  grind

/-! ## Answered challenges -/

/-- Of a context: challenged, or the challenge answered. -/
def Obs.challengeState (r : Ref) : Obs → Option Bool
  | .challenged q _ _ => if q = r then some false else none
  | .answered q => if q = r then some true else none
  | _ => none

/-- An AUTHENTICATION RESPONSE matched the latest challenge. -/
def Answered (r : Ref) (s : AmfState) : Prop :=
  (s.log.filterMap (Obs.challengeState r)).head? = some true

/-- The context waits for the security mode to complete, with keys pending. -/
def AwaitsComplete (r : Ref) (s : AmfState) : Prop :=
  (s.ue r).fsm = .securityMode ∧ (s.ue r).sec.pending = true

/-- Whoever waits with keys pending has answered. -/
def PendingAnswered (s : AmfState) : Prop := ∀ r, AwaitsComplete r s → Answered r s

/-- No timer stands for a valid authentication response. -/
def TimersExpire (s : AmfState) : Prop :=
  ∀ r t, (s.ue r).timers t ≠ some .authResponseValid

theorem startTimer_expires : ∀ t ∈ gmmTransitions,
    t.startTimer.map Prod.snd ≠ some .authResponseValid := by decide

theorem Moves.timersExpire (h : Moves L s t) (hs : TimersExpire s) : TimersExpire t := by
  refine h.keeps TimersExpire (fun s c r hon hk hs => ?_) hs
  intro q n
  by_cases hq : q = r
  · subst hq
    rw [exec_ue_self hon]
    have hq := hs q n
    cases c <;> try exact hq
    case create => simp [effect, Ue.new]
    case take tr =>
      have hstart := startTimer_expires tr hon.2
      simp only [effect, Ue.take_timers, Transition.setTimers]
      grind
    case resetTo => simpa [effect] using hq
    case cancel =>
      simp only [effect, Function.update_apply]
      split
      · simp
      · exact hq
    case cancelAll => simp [effect]
  · rw [exec_ue_of_ne hon hq]
    exact hs q n

/-- The kinds that can bring a context to wait with keys pending. -/
abbrev awaitKinds : List Kind := [.activate, .enterSecurityMode]

theorem exec_not_awaits {c : Cmd} (hon : c.On r s) (hc : c.kind ∉ awaitKinds)
    (hs : ¬ AwaitsComplete q s) : ¬ AwaitsComplete q (s.exec c) := by
  by_cases hq : q = r
  · subst hq
    rintro ⟨hst, hpend⟩
    rw [exec_ue_self hon] at hst hpend
    refine hs ?_
    cases c <;> try exact ⟨hst, hpend⟩
    case create => cases hst
    case dropFsm => cases hst
    case resetTo =>
      obtain ⟨-, rfl⟩ := hon
      cases hst
    case take tr =>
      simp only [Cmd.effect, Ue.take_fsm] at hst
      simp [Cmd.kind, hst] at hc
    case activate => simp [Cmd.kind] at hc
    case promote =>
      simp only [Cmd.effect, SecurityCtx.promote] at hpend
      split at hpend
      · cases hpend
      · rename_i hp
        exact absurd hpend hp
    case clearPending => cases hpend
    case acceptUl | secureDl =>
      refine ⟨hst, ?_⟩
      grind [effect, setSlot]
  · unfold AwaitsComplete
    rw [exec_ue_of_ne hon hq]
    exact hs

theorem Moves.not_awaits (h : Moves L s t) (hL : L.all (· ∉ awaitKinds) = true)
    (hs : ¬ AwaitsComplete q s) : ¬ AwaitsComplete q t :=
  h.keeps (fun s => ¬ AwaitsComplete q s)
    (fun _ _ _ hon hk hs => exec_not_awaits hon (by simpa using all_eq_true.1 hL _ hk) hs) hs

/-- Only a new challenge makes an answer out of date. -/
theorem Moves.answered (h : Moves L s t) (hL : L.elem .challenge = false) (hs : Answered q s) :
    Answered q t := by
  refine h.keeps (Answered q) (fun s c r hon hk hs => ?_) hs
  have hc : c.kind ≠ .challenge := fun heq => by
    rw [heq, ← elem_iff] at hk
    exact absurd (hL.symm.trans hk) (by decide)
  unfold Answered at hs ⊢
  rw [exec_log, filterMap_append]
  cases hlog : (c.logged s).filterMap (challengeState q) with
  | nil => exact hs
  | cons b bs =>
    have hmem : b ∈ (c.logged s).filterMap (challengeState q) := by
      rw [hlog]
      exact mem_cons_self
    obtain ⟨o, ho, hb⟩ := mem_filterMap.1 hmem
    obtain ⟨-, hkind⟩ := logged_on hon ho
    cases o <;> simp only [challengeState, ite_none_right_eq_some, reduceCtorEq,
      some.injEq] at hb
    · exact absurd hkind.symm hc
    · simp [← hb.2]

theorem Acts.answered_of_ne (h : Acts r L s t) (hq : q ≠ r) (hs : Answered q s) : Answered q t := by
  unfold Answered at hs ⊢
  rw [h.log_frame (challengeState q) fun s o hon _ => ?_]
  · exact hs
  · cases o <;> first | rfl | skip
    all_goals
      simp only [Obs.On] at hon
      subst hon
      simp [challengeState, hq.symm]

theorem Moves.pendingAnswered (h : Moves L s t) (hL : L.all (· ∉ awaitKinds) = true)
    (hL' : L.elem .challenge = false) (hs : PendingAnswered s) : PendingAnswered t := by
  intro q hq
  by_cases hold : AwaitsComplete q s
  · exact h.answered hL' (hs q hold)
  · exact absurd hq (h.not_awaits hL hold)

theorem Acts.pendingAnswered (h : Acts r L s t) (hL : L.all (· ∉ awaitKinds) = true)
    (hL' : L.elem .challenge = false) (hs : PendingAnswered s) : PendingAnswered t :=
  h.moves.pendingAnswered hL hL' hs

/-- A context that does not wait may be challenged. -/
theorem Acts.pendingAnswered_of_not_awaits (h : Acts r L s t) (hr : ¬ AwaitsComplete r t)
    (hs : PendingAnswered s) : PendingAnswered t := by
  intro q hq
  by_cases hqr : q = r
  · exact absurd (hqr ▸ hq) hr
  · refine h.answered_of_ne hqr (hs q ?_)
    unfold AwaitsComplete at hq ⊢
    rwa [h.ue_of_ne hqr] at hq

/-! ## The handlers -/

theorem registrationRequest_leaves {st : GmmState} :
    (match findTransition st .registrationRequest with
      | none => st
      | some t => t.target) ≠ .securityMode := by
  cases st <;> decide

/-- The event of a registration request leaves the security mode. -/
theorem authenticateAfresh_pendingAnswered (hs : PendingAnswered s) :
    PendingAnswered (authenticateAfresh V X r s) := by
  refine (authenticateAfresh_acts V X).pendingAnswered_of_not_awaits ?_ hs
  rintro ⟨hst, -⟩
  unfold authenticateAfresh at hst
  rw [fire_fsm] at hst
  exact registrationRequest_leaves hst

/-- Authentication for this SUPI challenges the UE. -/
def challenges (X : Ext) (supi : Imsi) : Bool :=
  5 ≤ supi.length && (X.generateAV supi).isSome

/-- Without a vector, nothing is challenged. -/
theorem startAuthentication_acts_of_no_vector (h : challenges X (s.ue r).imsi = false) :
    Acts r ([.resetAuthentication] ++ abortKinds) s (startAuthentication V X r s) := by
  have hreset : Acts r ([.resetAuthentication] ++ abortKinds) s
      (s.exec (.resetAuthentication r)) := by
    apply one <;> rfl
  unfold startAuthentication
  dsimp only
  split
  · exact .refl
  split
  · exact hreset
  · rename_i hlen
    have hnone : X.generateAV (s.ue r).imsi = none := by
      simpa [challenges, Nat.not_lt.1 hlen] using h
    rw [hnone]
    exact hreset.andThen (abortRegistrationAndReleaseN1_acts V X _) rfl

/-- A context adopted while keys are pending here either is accepted, or no vector is there to
challenge the UE with. -/
def RegistrationPath.KeepsAnswered (X : Ext) (r : Ref) (s : AmfState) : RegistrationPath → Prop
  | .reuseOther rr supi existing verified =>
    AwaitsComplete r s →
      (RegistrationPath.reuseOther rr supi existing verified).reuses X r s ≠ none ∨
        challenges X supi = false
  | _ => True

theorem acceptAdopted_ok (hallowed : (s.ue r).book.allowedNSSAI ≠ [])
    (hsend : setupSendable X (s.ue r) (s.ue r).sec.ueSecCap s.log.length = true) :
    Acts r ([.reuse, .tmsi, .dl] ++ fireKinds) s (acceptAdopted V X r existing rr s) := by
  have h : Acts r ([.reuse, .tmsi, .dl] ++ fireKinds) s
      (sendRegistrationAcceptReusedContext V X r s).1 :=
    (sendRegistrationAcceptReusedContext_acts V X).mono rfl
  unfold acceptAdopted
  rw [if_pos ((sendRegistrationAcceptReusedContext_ok hallowed).trans hsend)]
  refine andThen (h.exec ?_ ?_) (reconcilePDUSessionsOnRegistration_acts X _)
    rfl <;> rfl

theorem acceptAdopted_acts_of_no_vector (h : challenges X (s.ue r).imsi = false) :
    Acts r ([.reuse, .tmsi, .dl, .ngksiFlag, .resetAuthentication, .unindex] ++ fireKinds) s
      (acceptAdopted V X r existing rr s) := by
  have hsend : Acts r ([.reuse, .tmsi, .dl, .ngksiFlag, .resetAuthentication, .unindex] ++ fireKinds) s
      (sendRegistrationAcceptReusedContext V X r s).1 :=
    (sendRegistrationAcceptReusedContext_acts V X).mono rfl
  have himsi := hsend.imsi_eq rfl r
  unfold acceptAdopted
  dsimp only
  split
  · refine andThen (hsend.exec ?_ ?_) (reconcilePDUSessionsOnRegistration_acts X _)
      rfl <;> rfl
  · have hflag : Acts r [.ngksiFlag] (sendRegistrationAcceptReusedContext V X r s).1
        ((sendRegistrationAcceptReusedContext V X r s).1.exec (.unassignNgksi r)) := by
      apply one <;> rfl
    refine (hsend.andThen hflag rfl).andThen
      (startAuthentication_acts_of_no_vector ?_) rfl
    rw [hflag.imsi_eq rfl, himsi]
    exact h

theorem followPath_pendingAnswered {outer : Option Bytes} {path : RegistrationPath}
    (hdec : path.Decided V X r inner outer s) (hkeeps : path.KeepsAnswered X r s)
    (hs : PendingAnswered s) : PendingAnswered (followPath V X r inner outer s path) := by
  have hsub : ∀ rr supi, PendingAnswered (enterSubscriber X r rr inner supi s) := fun rr supi =>
    (enterSubscriber_acts X rr inner supi).pendingAnswered rfl rfl hs
  cases path with
  | duplicate => exact (resendCachedNAS_acts V X).pendingAnswered rfl rfl hs
  | malformed cause =>
    exact (rejectRegistration_acts V X cause).pendingAnswered rfl rfl hs
  | unidentified rr =>
    exact (sendIdentityRequest_acts V X _).pendingAnswered rfl rfl
      ((copyRequest_acts rr).pendingAnswered rfl rfl hs)
  | unresolvable rr =>
    exact (abortRegistrationAndReleaseN1_acts V X _).pendingAnswered rfl rfl
      ((copyRequest_acts rr).pendingAnswered rfl rfl hs)
  | illegal rr supi =>
    exact (rejectRegistration_acts V X _).pendingAnswered rfl rfl
      ((enterSUPI_acts rr inner supi).pendingAnswered rfl rfl hs)
  | noSlices rr supi =>
    exact (rejectRegistration_acts V X _).pendingAnswered rfl rfl (hsub rr supi)
  | reuseOwn rr supi =>
    have hsend := (sendRegistrationAcceptReusedContext_acts V X (r := r)).pendingAnswered rfl
      rfl (hsub rr supi)
    simp only [followPath, reuseOwnContext]
    split
    · refine (reconcilePDUSessionsOnRegistration_acts X rr).pendingAnswered rfl rfl ?_
      have hone := fun s' => (one rfl rfl : Acts r [.reuse] s'
        (s'.exec (.emit (.contextReused r r))))
      exact (hone _).pendingAnswered rfl rfl hsend
    · refine authenticateAfresh_pendingAnswered ?_
      have hone := fun s' => (one rfl rfl : Acts r [.ngksiFlag] s'
        (s'.exec (.unassignNgksi r)))
      exact (hone _).pendingAnswered rfl rfl hsend
  | reuseOther rr supi existing verified =>
    have hadopt := (enterAdopted_moves (r := r) (X := X) existing rr inner supi outer
      verified).pendingAnswered rfl rfl hs
    rw [followPath_reuseOther]
    by_cases hawaits : AwaitsComplete r s
    · rcases hkeeps hawaits with hsent | hvector
      · obtain ⟨hsend, hallowed⟩ := enterAdopted_setup hdec
        refine (acceptAdopted_ok hallowed ?_).pendingAnswered rfl rfl hadopt
        rw [hsend]
        simpa [RegistrationPath.reuses] using hsent
      · refine (acceptAdopted_acts_of_no_vector ?_).pendingAnswered rfl rfl hadopt
        rw [enterAdopted_imsi X hdec.2.2.1]
        exact hvector
    · refine (acceptAdopted_acts V X existing rr).pendingAnswered_of_not_awaits ?_ hadopt
      exact (acceptAdopted_acts V X existing rr).moves.not_awaits rfl
        ((enterAdopted_moves existing rr inner supi outer verified).not_awaits rfl hawaits)
  | authenticate rr supi existing =>
    exact authenticateAfresh_pendingAnswered
      ((takePlace_moves existing).pendingAnswered rfl rfl (hsub rr supi))

/-- A context that has answered may come to wait. -/
theorem Acts.pendingAnswered_of_answered (h : Acts r L s t) (hr : Answered r t)
    (hs : PendingAnswered s) : PendingAnswered t := by
  intro q hq
  by_cases hqr : q = r
  · exact hqr ▸ hr
  · refine h.answered_of_ne hqr (hs q ?_)
    unfold AwaitsComplete at hq ⊢
    rwa [h.ue_of_ne hqr] at hq

theorem answered_answer (r : Ref) (s : AmfState) : Answered r (s.exec (.answer r)) := by
  simp [Answered, AmfState.exec, Obs.challengeState]

/-- The security mode is only entered with an answer. -/
theorem handleAuthenticationResponse_pendingAnswered (hs : PendingAnswered s) :
    PendingAnswered (handleAuthenticationResponse V X r inner s) := by
  have hguard : PendingAnswered (allowedIn V X r .authentication s).1 :=
    (allowedIn_acts V X _).pendingAnswered rfl rfl hs
  unfold handleAuthenticationResponse
  dsimp only
  generalize allowedIn V X r .authentication s = guard at hguard ⊢
  split
  · exact hguard
  split
  · exact hguard
  split
  · split
    · have hanswer : Acts r responseKinds guard.1 (guard.1.exec (.answer r)) := by
        apply one <;> rfl
      have hrest := ((startSecurityMode_acts V X (r := r) (s := guard.1.exec (.answer r))).mono
        (M := .enterSecurityMode :: .note :: .take :: .activate :: abortKinds) rfl).andThen
        (fire_acts_any X .authResponseValid) rfl
      refine (hanswer.andThen hrest rfl).pendingAnswered_of_answered ?_ hguard
      exact hrest.moves.answered rfl (answered_answer r guard.1)
    · exact (sendAuthenticationReject_acts V X).pendingAnswered rfl rfl
        ((fire_acts X .authResponseInvalid (by decide)).pendingAnswered (by decide) (by decide)
          hguard)
  · exact (abortRegistrationAndReleaseN1_acts V X _).pendingAnswered rfl rfl
      ((fire_acts X .authResponseInvalid (by decide)).pendingAnswered (by decide) (by decide)
        hguard)

theorem handleAuthenticationFailure_pendingAnswered (hs : PendingAnswered s) :
    PendingAnswered (handleAuthenticationFailure V X r inner s) := by
  by_cases hst : (s.ue r).fsm = .authentication
  · refine (handleAuthenticationFailure_acts V X inner).pendingAnswered_of_not_awaits ?_ hs
    refine (handleAuthenticationFailure_acts V X inner).moves.not_awaits rfl ?_
    rintro ⟨h, -⟩
    cases hst.symm.trans h
  · unfold handleAuthenticationFailure
    rw [allowedIn_of_ne hst]
    exact (send5GMMStatus_acts V X _).pendingAnswered rfl rfl hs

theorem handleIdentityResponse_pendingAnswered (hs : PendingAnswered s) :
    PendingAnswered (handleIdentityResponse V X r inner s) := by
  by_cases hst : (s.ue r).fsm = .identification
  · have hcalm : ¬ AwaitsComplete r s := by
      rintro ⟨h, -⟩
      cases hst.symm.trans h
    have hfail : ∀ cause, PendingAnswered
        (abortRegistrationAndReleaseN1 V X r cause (fire X r .identityResponseFail s)) := fun cause =>
      (abortRegistrationAndReleaseN1_acts V X _).pendingAnswered rfl rfl
        ((fire_acts X .identityResponseFail (by decide)).pendingAnswered (by decide) (by decide) hs)
    unfold handleIdentityResponse
    rw [allowedIn_of_eq hst]
    simp only [true_eq_false, if_false]
    split
    · split
      · rename_i supi _
        have hset : Acts r [.imsi] s (s.exec (.setImsi r supi)) := by
          apply one <;> rfl
        have htake := (hset.moves.mono (M := .imsi :: placeKinds) rfl).andThen
          (takePlace_moves (existingContext r supi (s.exec (.setImsi r supi))) (r := r)) rfl
        rw [← takeOverSUPI_eq] at htake
        have hpa := htake.pendingAnswered rfl rfl hs
        have hna := htake.not_awaits rfl hcalm
        have hrest : ∀ {t}, Acts r afreshKinds (takeOverSUPI r supi (s.exec (.setImsi r supi))) t →
            PendingAnswered t := fun h =>
          h.pendingAnswered_of_not_awaits (h.moves.not_awaits rfl hna) hpa
        unfold identityResolved
        dsimp only
        split
        · split
          · exact hrest ((abortRegistrationAndReleaseN1_acts V X _).mono rfl)
          · exact hrest ((((runNSSFWithRequested_acts X _).mono rfl).andThen
              (startAuthentication_acts V X) rfl).andThen
              (fire_acts X .identityResponse (by decide)) (by decide))
        · exact hrest ((fire_acts X .identityResponse (by decide)).mono (by decide))
      · exact hfail _
    · exact hfail _
  · unfold handleIdentityResponse
    rw [allowedIn_of_ne hst]
    exact (send5GMMStatus_acts V X _).pendingAnswered rfl rfl hs

/-! ## Runs -/

/-- A message that promotes comes with security header type 4 to a context with pending keys, and
no context is challenged while it waits with keys pending from before. -/
structure Message.Possesses (V : Env) (X : Ext) (d : Delivery) (m : Message) : Prop where
  promotion : m.promotes V = true →
    securityHeaderType (some d.pdu) = 4 ∧ (d.state.ue d.r).sec.hasPending = true
  adoption : m.msgType = msgRegistrationRequest →
    (registrationPath V X m.r m.inner m.outer m.entry).KeepsAnswered X m.r m.entry

def Possession (V : Env) (X : Ext) (s : AmfState) (ev : Event) : Prop :=
  ∀ d m, delivery X s ev = some d → d.message V = some m → m.Possesses V X d

theorem handle_pendingAnswered (hm : m.Possesses V X d) (hs : PendingAnswered m.entry) :
    PendingAnswered (handle V X m.r m.msgType m.inner m.outer m.entry) := by
  refine handle_elim V X (fun hty => ?_) (fun _ => ?_) (fun _ => ?_) (fun _ => ?_) (fun _ => ?_)
    (fun _ => ?_) (fun _ => ?_) (fun hty => ?_)
  · rw [handleRegistrationRequest_eq]
    exact followPath_pendingAnswered (registrationPath_decided V X m.inner m.outer)
      (hm.adoption hty) hs
  · exact (handleDeregistrationRequestMO_moves m.inner).pendingAnswered rfl rfl hs
  · exact handleAuthenticationResponse_pendingAnswered hs
  · exact handleAuthenticationFailure_pendingAnswered hs
  · exact handleIdentityResponse_pendingAnswered hs
  · exact (handleSecurityModeComplete_acts V X _).pendingAnswered rfl rfl hs
  · exact (handleSecurityModeReject_acts V X _).pendingAnswered rfl rfl hs
  · exact (handle_other_acts V X hty _ _).pendingAnswered rfl rfl hs

/-- Up to the handler, nothing concerns challenges. -/
theorem message_pendingAnswered (hd : delivery X s ev = some d) (hm : d.message V = some m)
    (hs : PendingAnswered s) :
    PendingAnswered m.entry := by
  have hstart := (delivery_moves hd).pendingAnswered rfl rfl hs
  have hstate := (message_acts V hm).2.2.pendingAnswered rfl rfl hstart
  exact (entry_acts m).pendingAnswered rfl rfl hstate

theorem expireTimer_pendingAnswered {n : Timer} (htimers : TimersExpire s)
    (hs : PendingAnswered s) : PendingAnswered (expireTimer X r n s) := by
  unfold expireTimer
  split
  · exact hs
  · rename_i ev hev
    have hne : ev ≠ .authResponseValid := fun h => htimers r n (h ▸ hev)
    have hcancel : Acts r [.cancel] s (s.exec (.cancel r n)) := by
      apply one <;> rfl
    exact (fire_acts X ev hne).pendingAnswered rfl rfl
      (hcancel.pendingAnswered rfl rfl hs)

theorem stepEvent_pendingAnswered (htimers : TimersExpire s) (hposs : Possession V X s ev)
    (hs : PendingAnswered s) :
    PendingAnswered (stepEvent V X s ev) := by
  cases hd : delivery X s ev with
  | some d =>
    rw [stepEvent_of_delivery V X hd]
    cases hm : d.message V with
    | none =>
      rw [dispatch_of_no_message V X hm]
      exact (receive_acts V _ _).pendingAnswered rfl rfl
        ((delivery_moves hd).pendingAnswered rfl rfl hs)
    | some m =>
      have hentry := message_pendingAnswered hd hm hs
      rw [dispatch_of_message V X hm, handleMessage_eq]
      split
      · exact handle_pendingAnswered (hposs d m hd hm) hentry
      · exact hentry
  | none =>
    by_cases hexpire : ∃ q n, ev = .expire q n
    · obtain ⟨q, n, rfl⟩ := hexpire
      exact expireTimer_pendingAnswered htimers hs
    · exact (stepEvent_quiet hd fun q n h => hexpire ⟨q, n, h⟩).pendingAnswered rfl
        rfl hs

/-- The pending context of `r` is promoted only while a PDU of security header type 4 is handled
whose MAC is right under the pending keys, and after its latest challenge was answered. -/
def ProvesPossession (V : Env) (X : Ext) (s : AmfState) (ev : Event) : Prop :=
  ∀ r, .promoted r ∈ emitted s (stepEvent V X s ev) →
    Answered r s ∧ ∃ d, delivery X s ev = some d ∧ d.r = r ∧
      securityHeaderType (some d.pdu) = 4 ∧ (d.state.ue r).sec.pending = true ∧
      MacVerifies V (d.state.ue r).sec.pend d.pdu

/-- What an observer of challenges sees at the handler is what was there before the step. -/
theorem answered_of_message (hd : delivery X s ev = some d) (hm : d.message V = some m)
    (h : Answered q m.state) :
    Answered q s := by
  have hstart : d.state.log = s.log := by
    have hframe := (delivery_moves hd).log_frame (fun o => some o) fun o ho => by
      cases o <;> simp [Obs.kind] at ho
    simpa using hframe
  have hul := (message_acts V hm).2.2.moves.log_frame (Obs.challengeState q) fun o ho => by
    cases o <;> first | rfl | simp [Obs.kind] at ho
  unfold Answered at h ⊢
  rw [hul, hstart] at h
  exact h

theorem stepEvent_provesPossession (hposs : Possession V X s ev) (hs : PendingAnswered s) :
    ProvesPossession V X s ev := by
  intro r hpromoted
  obtain ⟨m, hhanded, rfl, hpromotes⟩ := promoted_iff.1 hpromoted
  obtain ⟨d, hd, hm⟩ := bind_eq_some_iff.1 hhanded
  obtain ⟨hr, -, hacts⟩ := message_acts V hm
  obtain ⟨hsht, hkeys⟩ := (hposs d m hd hm).promotion hpromotes
  have hawaits : AwaitsComplete m.r m.state := by
    simp only [promotes, Ue.completesSecurityMode, and_eq_true, beq_iff_eq]
      at hpromotes
    exact hpromotes.2.1
  have hstate := hacts.pendingAnswered rfl rfl
    ((delivery_moves hd).pendingAnswered rfl rfl hs)
  refine ⟨answered_of_message hd hm (hstate m.r hawaits), d, hd, hr.symm, hsht, ?_⟩
  rw [hr]
  simp only [hasPending, and_eq_true] at hkeys
  refine ⟨hkeys.1, ?_⟩
  obtain ⟨p, hrx⟩ := message_rxNAS hm
  have hmac := rxNAS_macVerifies hrx (by rw [hsht]; decide)
    (by simp [hsht, checksMac, hasPending, hkeys])
  simpa [hsht, slot, rxPending, hkeys.1] using hmac

/-- In a run whose steps all meet `Possession`, every step takes a security context into use on
proof of possession only. -/
theorem promotion_proves_possession
    (h : Reach (step V) (fun s i => Possession V i.ext s i.ev) AmfState.init s) (i : Input)
    (hi : Possession V i.ext s i.ev) : ProvesPossession V i.ext s i.ev := by
  have hinv : TimersExpire s ∧ PendingAnswered s := by
    refine h.invariant (I := fun s => TimersExpire s ∧ PendingAnswered s) ⟨?_, ?_⟩ ?_
    · intro r n
      simp [init, Ue.new]
    · intro r hr
      cases hr.1
    · intro s i hs hposs
      exact ⟨(stepEvent_moves i.ev).timersExpire hs.1,
        stepEvent_pendingAnswered hs.1 hposs hs.2⟩
  exact stepEvent_provesPossession hi hinv.2

/-- A plain SECURITY MODE COMPLETE after the command takes the new keys into use. -/
theorem promotion_without_possession :
    ¬ ∀ (V : Env) (s : AmfState) (i : Input),
      Reach (step V) (fun _ _ => True) AmfState.init s → ProvesPossession V i.ext s i.ev := by
  intro h
  have hreach := reach_run (step env) init commanded
  obtain ⟨-, d, hd, -, hsht, -⟩ := h env _ (uplink 1 1 securityModeCompletePDU) hreach 0
    (by decide)
  have hplain : (delivery ext (run (step env) init commanded)
      (uplink 1 1 securityModeCompletePDU).ev).map
        (fun d => securityHeaderType (some d.pdu)) = some 0 := by
    decide
  simp_all [uplink]

/-- A registration whose command is answered under the new keys. -/
theorem promotion_proves_possession_commanded :
    .promoted 0 ∈ emitted (run (step Lab.env) AmfState.init Lab.commanded)
        (step Lab.env (run (step Lab.env) AmfState.init Lab.commanded)
          (Lab.uplink 1 1 Lab.protectedCompletePDU)) ∧
      ProvesPossession Lab.env Lab.ext (run (step Lab.env) AmfState.init Lab.commanded)
        (Lab.uplink 1 1 Lab.protectedCompletePDU).ev := by
  refine ⟨by decide, ?_⟩
  -- nothing is promoted by the first two messages, and no context is adopted
  have hquiet : ∀ (s : AmfState) (i : Input),
      (handed env i.ext s i.ev).map (fun m => (m.promotes env,
        match registrationPath env i.ext m.r m.inner m.outer m.entry with
        | .reuseOther .. => true
        | _ => false)) = some (false, false) → Possession env i.ext s i.ev := by
    intro s i hi d m hd hm
    have hhanded : handed env i.ext s i.ev = some m := by
      simp [handed, hd, hm]
    rw [hhanded] at hi
    simp only [map_some, some.injEq, Prod.mk.injEq] at hi
    refine ⟨fun hp => ?_, fun _ => ?_⟩
    · rw [hi.1] at hp
      cases hp
    · revert hi
      cases registrationPath env i.ext m.r m.inner m.outer m.entry <;>
        simp [RegistrationPath.KeepsAnswered]
  refine promotion_proves_possession (V := env)
    ((Reach.start.next (initial 1 registrationRequestPDU none) (hquiet _ _ ?_)).next
      (uplink 1 1 authenticationResponsePDU) (hquiet _ _ ?_))
    (uplink 1 1 protectedCompletePDU) ?_
  · decide
  · decide
  · intro d m hd hm
    have hkeys : (delivery ext (run (step env) init commanded)
        (uplink 1 1 protectedCompletePDU).ev).map (fun d =>
          (securityHeaderType (some d.pdu), (d.state.ue d.r).sec.hasPending,
            (d.message env).map msgType)) =
        some (4, true, some msgSecurityModeComplete) := by
      decide
    have heq := congrArg (Option.map fun d : Delivery => (securityHeaderType (some d.pdu),
      (d.state.ue d.r).sec.hasPending, (d.message Lab.env).map Message.msgType)) hd
    change Option.map _ (delivery Lab.ext (run (step Lab.env) AmfState.init Lab.commanded)
      (Lab.uplink 1 1 Lab.protectedCompletePDU).ev) = _ at heq
    rw [hkeys, Option.map_some, hm] at heq
    simp only [map_some, some.injEq, Prod.mk.injEq] at heq
    refine ⟨fun _ => ⟨heq.1.symm, heq.2.1.symm⟩, fun hty => ?_⟩
    rw [← heq.2.2] at hty
    exact absurd hty (by decide)

end MmtCore.Amf
