import MmtCore.Amf.Acts

/-!
# The commands each function uses

One lemma for each function of the model, in the order of the source modules: the kinds of
commands it is made of, all of them about the context it works on.
-/

namespace MmtCore.Amf

open MmtCore.Lib Acts

variable (V : Env) (X : Ext) {r : Ref} {s : AmfState}

/-! ## Sending and releasing -/

theorem removeHooks_acts : Acts r [.dropFsm, .cancel] s (removeHooks r s) := by
  refine exec (one ?_ ?_) ?_ ?_ <;> rfl

theorem remove_acts : Acts r [.unindex, .dropFsm, .cancel] s (remove r s) := by
  refine andThen (one ?_ ?_) (removeHooks_acts) rfl <;> rfl

theorem clearVolatile_acts :
    Acts r [.dropFsm, .cancel, .rm, .sessions, .book] s (clearVolatile r s) := by
  unfold clearVolatile
  refine exec (exec (exec (removeHooks_acts.mono rfl) ?_ ?_) ?_ ?_) ?_ ?_ <;>
    rfl

theorem gnbSendNAS_acts (pdu : Bytes) : Acts r [.send] s (gnbSendNAS X r pdu s).1 := by
  dsimp only [gnbSendNAS]
  apply one <;> rfl

theorem gnbSendNGAP_acts (m : NgapMsg) : Acts r [.send] s (gnbSendNGAP X r m s).1 := by
  dsimp only [gnbSendNGAP]
  apply one <;> rfl

theorem dlnasSend_acts (pdu : Bytes) : Acts r [.dl, .send] s (dlnasSend V X r pdu s).1 := by
  unfold dlnasSend
  split
  · exact .refl
  · exact (gnbSendNAS_acts X _).mono rfl
  · refine andThen (one ?_ ?_) (gnbSendNAS_acts X _) rfl <;> rfl

theorem send5GMMStatus_acts (cause : Nat) :
    Acts r [.dl, .send] s (send5GMMStatus V X r cause s) := by
  unfold send5GMMStatus
  split
  · split
    · exact .refl
    · exact dlnasSend_acts V X _
  · exact .refl

theorem sendCommand_acts : Acts r [.send, .book] s (sendCommand X r s) := by
  have h : Acts r [.send, .book] s (gnbSendNGAP X r .ueContextReleaseCommand s).1 :=
    (gnbSendNGAP_acts X _).mono rfl
  unfold sendCommand
  dsimp only
  split
  · apply h.exec <;> rfl
  · exact h

theorem sendCommandIfUp_acts : Acts r [.send, .book] s (sendCommandIfUp X r s) := by
  unfold sendCommandIfUp
  split
  · exact sendCommand_acts X
  · exact .refl

theorem initialCtxSetupSend_acts : Acts r [.send, .book] s (initialCtxSetupSend V X r s).1 := by
  have h : Acts r [.send, .book] s (gnbSendNGAP X r
      (.initialContextSetupRequest (deriveKgNB V (s.ue r).sec).toOption) s).1 :=
    (gnbSendNGAP_acts X _).mono rfl
  unfold initialCtxSetupSend
  dsimp only
  split
  · exact .refl
  split
  · exact .refl
  split
  · exact .refl
  split
  · dsimp only
    apply h.exec <;> rfl
  · exact h

/-- The NAS PDU of an NGAP message, if it carries one, and then the message. -/
theorem ngapWithNAS_acts (m : NgapMsg) {t : AmfState} (ht : Acts r [.send, .book] s t)
    (f : Book → Book) :
    Acts r [.send, .book] s
      (if (gnbSendNGAP X r m t).2 then (gnbSendNGAP X r m t).1.exec (.book r f)
       else (gnbSendNGAP X r m t).1) := by
  have h := ht.andThen (gnbSendNGAP_acts X m) rfl
  split
  · apply h.exec <;> rfl
  · exact h

theorem pdusetupTransmit_acts (psi : Nat) (dlNas : Option Bytes) :
    Acts r [.send, .book] s (pdusetupTransmit X r psi dlNas s) := by
  unfold pdusetupTransmit
  split
  · refine ngapWithNAS_acts X _ ?_ _
    split
    · exact .refl
    · apply one <;> rfl
  · exact .refl

theorem pdusetupSend_acts (psi : Nat) (acceptNAS : Bytes) :
    Acts r [.dl, .send, .book] s (pdusetupSend V X r psi acceptNAS s) := by
  unfold pdusetupSend
  dsimp only
  split
  · exact .refl
  split
  · exact (pdusetupTransmit_acts X _ _).mono rfl
  split
  · exact .refl
  · exact (pdusetupTransmit_acts X _ _).mono rfl
  · refine andThen (one ?_ ?_) (pdusetupTransmit_acts X _ _) rfl <;> rfl

theorem pdureleaseSendCommand_acts (psi : Nat) (nas : Bytes) :
    Acts r [.send, .book] s (pdureleaseSendCommand X r psi nas s) := by
  unfold pdureleaseSendCommand
  split
  · exact .refl
  · refine ngapWithNAS_acts X _ ?_ _
    split
    · exact .refl
    · apply one <;> rfl

theorem smfCalls_acts (ops : List SmfOp) {imsi : Imsi} (himsi : imsi = (s.ue r).imsi) :
    Acts r [.smf] s (smfCalls imsi ops s) := by
  induction ops generalizing s with
  | nil => exact .refl
  | cons op ops ih =>
    have h : Acts r [.smf] s (s.exec (.emit (.smf imsi op))) := .one himsi rfl
    exact h.andThen (ih himsi) rfl

theorem releaseAllPDUSessions_acts : Acts r [.smf, .sessions] s (releaseAllPDUSessions r s) := by
  unfold releaseAllPDUSessions
  dsimp only
  split
  · exact .refl
  · have h : Acts r [.smf] s
        (smfCalls (s.ue r).imsi ((s.ue r).pduSessions.map fun p => .release p.1) s) :=
      smfCalls_acts _ rfl
    have h' : Acts r [.smf, .sessions] s
        ((smfCalls (s.ue r).imsi ((s.ue r).pduSessions.map fun p => .release p.1) s).exec
          (.setSessions r [])) := by
      refine exec (h.mono rfl) ?_ ?_ <;> rfl
    exact h'.andThen (smfCalls_acts _ (h'.imsi_eq rfl r).symm) rfl

/-! ## The state machine -/

/-- The kinds of a transition with its action. -/
abbrev fireKinds : List Kind :=
  [.note, .take, .send, .book, .smf, .sessions, .dropFsm, .cancel, .rm]

theorem runAction_acts (a : FsmAction) :
    Acts r [.send, .book, .smf, .sessions, .dropFsm, .cancel, .rm] s (runAction X r s a) := by
  have hrel : Acts r [.send, .book, .smf, .sessions, .dropFsm, .cancel, .rm] s
      (releaseAllPDUSessions r s) := releaseAllPDUSessions_acts.mono rfl
  cases a with
  | log => exact .refl
  | identityTimeout | authenticationTimeout | securityModeTimeout =>
    simp only [runAction]
    split
    · exact hrel.andThen (sendCommand_acts X) rfl
    · exact .refl
  | implicitDeregistration =>
    exact (hrel.andThen (sendCommandIfUp_acts X) rfl).andThen clearVolatile_acts rfl
  | finaliseDeregistration =>
    exact ((sendCommandIfUp_acts X).mono rfl).andThen clearVolatile_acts rfl

/-- The security mode is entered on a valid authentication response only. -/
theorem enters_securityMode {st : GmmState} {ev : GmmEvent} {t : Transition}
    (h : findTransition st ev = some t) (htgt : t.target = .securityMode) :
    st = .authentication ∧ ev = .authResponseValid := by
  obtain ⟨hmem, rfl, rfl⟩ := findTransition_some h
  revert htgt
  revert t
  decide

theorem fire_acts (ev : GmmEvent) (hev : ev ≠ .authResponseValid) :
    Acts r fireKinds s (fire X r ev s) := by
  unfold fire
  split
  · apply one <;> rfl
  · rename_i t ht
    obtain ⟨hmem, -⟩ := findTransition_some ht
    have htgt : t.target ≠ .securityMode := fun h => hev (enters_securityMode ht h).2
    have h : Acts r fireKinds s (runAction X r s t.action) := (runAction_acts X _).mono rfl
    refine h.exec ⟨rfl, hmem⟩ ?_
    rw [show (Cmd.take r t).kind = .take from if_neg htgt]
    rfl

/-- Any event, the one that enters the security mode included. -/
theorem fire_acts_any (ev : GmmEvent) :
    Acts r (.enterSecurityMode :: fireKinds) s (fire X r ev s) := by
  unfold fire
  split
  · apply one <;> rfl
  · rename_i t ht
    obtain ⟨hmem, -⟩ := findTransition_some ht
    have h : Acts r (.enterSecurityMode :: fireKinds) s (runAction X r s t.action) :=
      (runAction_acts X _).mono rfl
    refine h.exec ⟨rfl, hmem⟩ ?_
    simp only [Cmd.kind]
    split <;> rfl

theorem fire_fsm (ev : GmmEvent) :
    ((fire X r ev s).ue r).fsm =
      match findTransition (s.ue r).fsm ev with
      | none => (s.ue r).fsm
      | some t => t.target := by
  unfold fire
  cases findTransition (s.ue r).fsm ev with
  | none => rfl
  | some t => simp [AmfState.exec]

/-- A message outside of the state it belongs to is answered, and nothing else. -/
theorem allowedIn_acts (st : GmmState) : Acts r [.dl, .send] s (allowedIn V X r st s).1 := by
  unfold allowedIn
  split
  · exact .refl
  · exact send5GMMStatus_acts V X _

/-! ## Registration responses and aborts -/

theorem dlnasSendCached_acts (pdu : Bytes) :
    Acts r [.dl, .send, .book] s (dlnasSendCached V X r pdu s).1 := by
  have h : Acts r [.dl, .send, .book] s (dlnasSend V X r pdu s).1 :=
    (dlnasSend_acts V X _).mono rfl
  unfold dlnasSendCached
  dsimp only
  split
  · dsimp only
    apply h.exec <;> rfl
  · exact h

theorem buildAssigned5GGUTI_acts : Acts r [.tmsi] s (buildAssigned5GGUTI V X r s).1 := by
  unfold buildAssigned5GGUTI
  split
  · exact .refl
  split
  · dsimp only
    apply one <;> rfl
  · exact .refl

theorem sendRegistrationAccept_acts :
    Acts r [.tmsi, .dl, .send, .book] s (sendRegistrationAccept V X r s) := by
  have h : Acts r [.tmsi, .dl, .send, .book] s (buildAssigned5GGUTI V X r s).1 :=
    (buildAssigned5GGUTI_acts V X).mono rfl
  unfold sendRegistrationAccept
  dsimp only
  split
  · split
    · exact h
    · exact h.andThen (dlnasSendCached_acts V X _) rfl
  · exact .refl

theorem endProcedure_acts : Acts r [.book] s (endProcedure r s) := by
  apply one <;> rfl

theorem sendRegistrationReject_acts (cause : Nat) :
    Acts r [.dl, .send, .book] s (sendRegistrationReject V X r cause s) := by
  unfold sendRegistrationReject
  dsimp only
  split
  · exact .refl
  split
  · rename_i encoded _ _
    have h : Acts r [.dl, .send, .book] s (dlnasSend V X r encoded s).1 :=
      (dlnasSend_acts V X _).mono rfl
    split
    · exact h.andThen (endProcedure_acts) rfl
    · exact h
  · exact .refl

/-- The kinds of giving a registration up. -/
abbrev abortKinds : List Kind :=
  [.dl, .send, .book, .smf, .sessions, .unindex, .dropFsm, .cancel, .rm]

theorem abortRegistrationAndReleaseN1_acts (cause : Nat) :
    Acts r abortKinds s (abortRegistrationAndReleaseN1 V X r cause s) := by
  unfold abortRegistrationAndReleaseN1
  dsimp only
  have hrej : Acts r abortKinds s (if (s.ue r).book.gmmProc = .registration then
      sendRegistrationReject V X r cause s else s) := by
    split
    · exact (sendRegistrationReject_acts V X _).mono rfl
    · exact .refl
  generalize (if (s.ue r).book.gmmProc = .registration then
      sendRegistrationReject V X r cause s else s) = s₁ at hrej ⊢
  have hrel := hrej.andThen releaseAllPDUSessions_acts rfl
  generalize releaseAllPDUSessions r s₁ = s₂ at hrel ⊢
  have hbook : Acts r abortKinds s
      (s₂.exec (.book r fun b => { b with hardRemoveOnComplete := true })) := by
    apply hrel.exec <;> rfl
  generalize s₂.exec (.book r fun b => { b with hardRemoveOnComplete := true }) = s₃ at hbook ⊢
  have hout : Acts r abortKinds s
      (if X.gnbUp (s₃.ue r).gnbKey then sendCommand X r s₃ else remove r s₃) := by
    split
    · exact hbook.andThen (sendCommand_acts X) rfl
    · exact hbook.andThen (remove_acts) rfl
  have hcancel : Acts r abortKinds s
      ((if X.gnbUp (s₃.ue r).gnbKey then sendCommand X r s₃ else remove r s₃).exec
        (.cancelAll r)) := by
    apply hout.exec <;> rfl
  have hend := hcancel.andThen (endProcedure_acts) rfl
  refine exec (exec hend ?_ ?_) ?_ ?_ <;> rfl

theorem abortCurrentProcedure_acts :
    Acts r [.abort, .cancel, .book, .clearPending] s (abortCurrentProcedure r s) := by
  unfold abortCurrentProcedure
  refine exec (exec (exec (one ?_ ?_) ?_ ?_) ?_ ?_) ?_ ?_ <;> rfl

theorem onNASLowerLayerFailure_acts :
    Acts r [.abort, .cancel, .book, .clearPending, .resetTo, .dropFsm] s
      (onNASLowerLayerFailure r s) := by
  have h : Acts r [.abort, .cancel, .book, .clearPending, .resetTo, .dropFsm] s
      (abortCurrentProcedure r s) := abortCurrentProcedure_acts.mono rfl
  unfold onNASLowerLayerFailure
  dsimp only
  split
  · exact h.exec ⟨rfl, rfl⟩ rfl
  · apply h.exec <;> rfl

theorem sendIdentityRequest_acts (idType : Nat) :
    Acts r ([.dl] ++ fireKinds) s (sendIdentityRequest V X r idType s) := by
  unfold sendIdentityRequest
  split
  · exact .refl
  split
  · refine andThen (exec ((dlnasSend_acts V X _).mono rfl) ?_ ?_)
      (fire_acts X .identityRequestSent (by decide)) (by decide) <;> rfl
  · exact .refl

/-! ## Authentication and security mode -/

theorem sendAuthenticationRequest_acts :
    Acts r [.dl, .send, .book] s (sendAuthenticationRequest V X r s).1 := by
  unfold sendAuthenticationRequest
  split
  · exact .refl
  split
  · exact dlnasSendCached_acts V X _
  · exact .refl

/-- The kinds of starting an authentication, an abort among them. -/
abbrev authKinds : List Kind := [.resetAuthentication, .challenge] ++ abortKinds

theorem startAuthentication_acts : Acts r authKinds s (startAuthentication V X r s) := by
  unfold startAuthentication
  dsimp only
  split
  · exact .refl
  have hreset : Acts r authKinds s (s.exec (.resetAuthentication r)) := by
    apply one <;> rfl
  split
  · exact hreset
  split
  · exact hreset.andThen (abortRegistrationAndReleaseN1_acts V X _) rfl
  · refine andThen (exec (exec hreset ?_ ?_) ?_ ?_)
      (sendAuthenticationRequest_acts V X) rfl <;> rfl

theorem resendAuthRequestSameChallenge_acts :
    Acts r [.dl, .send, .book] s (resendAuthRequestSameChallenge V X r s).1 := by
  unfold resendAuthRequestSameChallenge
  split
  · exact .refl
  · exact sendAuthenticationRequest_acts V X

/-- The kinds of rejecting an authentication. -/
abbrev rejectKinds : List Kind :=
  [.dl, .send, .authDone, .clearPending, .book, .unindex, .dropFsm, .cancel]

theorem authenticationReject_acts :
    Acts r rejectKinds s (match V.encode .authenticationReject with
      | none => s
      | some encoded =>
        if X.gnbUp (s.ue r).gnbKey then (dlnasSend V X r encoded s).1 else s) := by
  split
  · exact .refl
  split
  · exact (dlnasSend_acts V X _).mono rfl
  · exact .refl

theorem sendAuthenticationReject_acts :
    Acts r rejectKinds s (sendAuthenticationReject V X r s) := by
  refine andThen (andThen (andThen (exec (exec
    (authenticationReject_acts V X) ?_ ?_) ?_ ?_) (sendCommandIfUp_acts X) rfl)
    endProcedure_acts rfl) remove_acts rfl <;> rfl

theorem sendSecurityModeCommand_acts (eea eia : Nat) :
    Acts r [.dl, .send, .book] s (sendSecurityModeCommand V X r eea eia s) := by
  unfold sendSecurityModeCommand
  split
  · exact .refl
  split
  · exact .refl
  · rename_i _ encoded _ _ wrapped _
    dsimp only
    have hdl : Acts r [.dl, .send, .book] s
        (s.exec (.secureDl r (s.ue r).sec.pending encoded wrapped)) := by
      apply one <;> rfl
    split
    · have hsend := hdl.andThen (dlnasSendCached_acts V X wrapped) rfl
      split
      · apply hsend.exec <;> rfl
      · exact hsend
    · exact hdl

theorem startSecurityMode_acts :
    Acts r ([.activate] ++ abortKinds) s (startSecurityMode V X r s) := by
  unfold startSecurityMode
  split
  · exact (abortRegistrationAndReleaseN1_acts V X _).mono rfl
  split
  · exact .refl
  · refine andThen (one ?_ ?_) (sendSecurityModeCommand_acts V X _ _) rfl <;> rfl

theorem runNSSFWithRequested_acts (requested : Option Bytes) :
    Acts r [.book] s (runNSSFWithRequested X r requested s) := by
  unfold runNSSFWithRequested
  apply one <;> rfl

theorem applyContainerRRToUE_acts (container : Bytes) :
    Acts r abortKinds s (applyContainerRRToUE V X r container s) := by
  unfold applyContainerRRToUE
  split
  · exact .refl
  split
  · rename_i rr _
    dsimp only
    have h : Acts r abortKinds s (runNSSFWithRequested X r rr.requestedNSSAI
        (s.exec (.book r fun b => { b with micoRequested := rr.micoIndication }))) := by
      refine andThen (one ?_ ?_) (runNSSFWithRequested_acts X _) rfl <;> rfl
    split
    · exact h.andThen (abortRegistrationAndReleaseN1_acts V X _) rfl
    · exact h
  · exact .refl

theorem applyContainer_acts (container : Option Bytes) :
    Acts r abortKinds s (applyContainer V X r container s) := by
  unfold applyContainer
  split
  · exact .refl
  · exact .refl
  · exact applyContainerRRToUE_acts V X _

theorem completeSecurityMode_acts (container : Option Bytes) :
    Acts r ([.tmsi, .note, .take] ++ abortKinds) s (completeSecurityMode V X r container s) := by
  have hc : Acts r ([.tmsi, .note, .take] ++ abortKinds) s (applyContainer V X r container s) :=
    (applyContainer_acts V X container).mono rfl
  unfold completeSecurityMode
  generalize applyContainer V X r container s = s₁ at hc ⊢
  have hics : Acts r ([.tmsi, .note, .take] ++ abortKinds) s
      (if X.gnbUp (s₁.ue r).gnbKey then (initialCtxSetupSend V X r s₁).1 else s₁) := by
    split
    · exact hc.andThen (initialCtxSetupSend_acts V X) rfl
    · exact hc
  exact (hics.andThen (sendRegistrationAccept_acts V X) rfl).andThen
    (fire_acts X .securityModeComplete (by decide)) (by decide)

/-! ## Registration -/

theorem reconcilePDUSessionsOnRegistration_acts (rr : RegistrationRequest) :
    Acts r [.smf, .book] s (reconcilePDUSessionsOnRegistration X r rr s) := by
  unfold reconcilePDUSessionsOnRegistration
  dsimp only
  split
  · have h : Acts r [.smf, .book] s (smfCalls (s.ue r).imsi
        ((sessionsToRelease X (s.ue r).imsi rr.pduSessionStatus).map .release) s) :=
      (smfCalls_acts _ rfl).mono rfl
    split
    · exact h
    · apply h.exec <;> rfl
  · exact .refl

theorem sendRegistrationAcceptReusedContext_acts :
    Acts r ([.tmsi, .dl] ++ fireKinds) s (sendRegistrationAcceptReusedContext V X r s).1 := by
  unfold sendRegistrationAcceptReusedContext
  dsimp only
  have ht : Acts r ([.tmsi, .dl] ++ fireKinds) s (s.exec (.setTmsi r X.newTmsi)) := by
    apply one <;> rfl
  split
  · have hics := ht.andThen (initialCtxSetupSend_acts V X) rfl
    split
    · exact (hics.andThen (sendRegistrationAccept_acts V X) rfl).andThen
        (fire_acts X .regRequestContextValid (by decide)) (by decide)
    · exact hics
  · exact ht

/-- The kinds of starting an authentication and waiting for the answer. -/
abbrev afreshKinds : List Kind := [.note, .take] ++ authKinds

theorem authenticateAfresh_acts : Acts r afreshKinds s (authenticateAfresh V X r s) :=
  ((startAuthentication_acts V X).mono rfl).andThen
    (fire_acts X .registrationRequest (by decide)) (by decide)

/-- The kinds of using a cached context again, or else authenticating. -/
abbrev reuseKinds : List Kind := [.tmsi, .reuse, .ngksiFlag] ++ afreshKinds

theorem reuseOwnContext_acts (rr : RegistrationRequest) :
    Acts r reuseKinds s (reuseOwnContext V X r rr s) := by
  have h : Acts r reuseKinds s (sendRegistrationAcceptReusedContext V X r s).1 :=
    (sendRegistrationAcceptReusedContext_acts V X).mono rfl
  unfold reuseOwnContext
  dsimp only
  split
  · refine andThen (h.exec ?_ ?_) (reconcilePDUSessionsOnRegistration_acts X rr)
      rfl <;> rfl
  · refine andThen (h.exec ?_ ?_) (authenticateAfresh_acts V X) rfl <;> rfl

theorem rejectRegistration_acts (cause : Nat) :
    Acts r abortKinds s (rejectRegistration V X r cause s) := by
  refine andThen (one ?_ ?_) (abortRegistrationAndReleaseN1_acts V X _)
    rfl <;> rfl

theorem storeUESecCap_acts (cap : Option Bytes) :
    Acts r [.cap] s (storeUESecCap r cap s) := by
  unfold storeUESecCap
  split
  · exact .refl
  · apply one <;> rfl

theorem resendCachedNAS_acts : Acts r [.dl, .send] s (resendCachedNAS V X r s) := by
  unfold resendCachedNAS
  dsimp only
  split
  · exact dlnasSend_acts V X _
  · exact .refl

theorem handleRegistrationComplete_acts (inner : Bytes) :
    Acts r ([.dl] ++ fireKinds) s (handleRegistrationComplete V X r inner s) := by
  have h : Acts r ([.dl] ++ fireKinds) s (allowedIn V X r .registeredInitiated s).1 :=
    (allowedIn_acts V X _).mono rfl
  unfold handleRegistrationComplete
  dsimp only
  split
  · exact h
  split
  · exact h
  split
  · refine andThen (exec (h.exec ?_ ?_) ?_ ?_)
      (fire_acts X .registrationComplete (by decide)) (by decide) <;> rfl
  · exact h

/-! ## Authentication and security mode handlers -/

theorem retryWithNewNGKSI_acts :
    Acts r afreshKinds s (retryWithNewNGKSI V X r s) := by
  unfold retryWithNewNGKSI
  dsimp only
  generalize chooseNewNGKSI (s.ue r).book.nasKSI (s.ue r).sec [(s.ue r).sec.pendingNgksi] = ngksi
  have h : Acts r afreshKinds s (s.exec (.rechallenge r ngksi)) := by
    apply one <;> rfl
  have hsend := h.andThen (resendAuthRequestSameChallenge_acts V X) rfl
  split
  · exact hsend.andThen (fire_acts X .authRetry (by decide)) (by decide)
  · exact hsend.andThen (fire_acts X .authenticationFailure (by decide)) (by decide)

theorem handleAuthenticationFailure_acts (inner : Bytes) :
    Acts r ([.authRetry, .authDone, .clearPending] ++ afreshKinds) s
      (handleAuthenticationFailure V X r inner s) := by
  have h : Acts r ([.authRetry, .authDone, .clearPending] ++ afreshKinds) s
      (allowedIn V X r .authentication s).1 := (allowedIn_acts V X _).mono rfl
  unfold handleAuthenticationFailure
  dsimp only
  split
  · exact h
  split
  · exact (h.andThen (fire_acts X .authenticationFailure (by decide)) (by decide)).andThen
      endProcedure_acts rfl
  · have hcount : Acts r ([.authRetry, .authDone, .clearPending] ++ afreshKinds) s
        ((allowedIn V X r .authentication s).1.exec (.countAuthRetry r)) := by
      apply h.exec <;> rfl
    split
    · exact (hcount.andThen (fire_acts X .authenticationFailure (by decide)) (by decide)).andThen
        (sendAuthenticationReject_acts V X) rfl
    split
    · exact hcount.andThen (retryWithNewNGKSI_acts V X) rfl
    · exact (hcount.andThen (startAuthentication_acts V X) rfl).andThen
        (fire_acts X .authRetry (by decide)) (by decide)
  · refine exec (h.andThen (fire_acts X .authenticationFailure (by decide)) (by decide))
      ?_ ?_ <;> rfl

theorem handleSecurityModeReject_acts (inner : Bytes) :
    Acts r ([.clearPending, .note, .take] ++ abortKinds) s
      (handleSecurityModeReject V X r inner s) := by
  have h : Acts r ([.clearPending, .note, .take] ++ abortKinds) s
      (allowedIn V X r .securityMode s).1 := (allowedIn_acts V X _).mono rfl
  unfold handleSecurityModeReject
  dsimp only
  split
  · exact h
  · refine andThen (andThen (h.exec ?_ ?_)
      (fire_acts X .securityModeReject (by decide)) (by decide))
      (abortRegistrationAndReleaseN1_acts V X _) rfl <;> rfl

/-- The kinds of an authentication response: the security mode starts, or the UE is rejected. -/
abbrev responseKinds : List Kind :=
  [.answer, .activate, .enterSecurityMode, .note, .take, .authDone, .clearPending] ++ abortKinds

theorem handleAuthenticationResponse_acts (inner : Bytes) :
    Acts r responseKinds s (handleAuthenticationResponse V X r inner s) := by
  have h : Acts r responseKinds s (allowedIn V X r .authentication s).1 :=
    (allowedIn_acts V X _).mono rfl
  unfold handleAuthenticationResponse
  dsimp only
  split
  · exact h
  split
  · exact h
  split
  · split
    · refine andThen (andThen (h.exec ?_ ?_) (startSecurityMode_acts V X) rfl)
        (fire_acts_any X .authResponseValid) rfl <;> rfl
    · exact (h.andThen (fire_acts X .authResponseInvalid (by decide)) (by decide)).andThen
        (sendAuthenticationReject_acts V X) rfl
  · exact (h.andThen (fire_acts X .authResponseInvalid (by decide)) (by decide)).andThen
      (abortRegistrationAndReleaseN1_acts V X _) rfl

/-- The kinds of a security mode complete. -/
abbrev completeKinds : List Kind :=
  [.promote, .markActivated, .tmsi, .note, .take] ++ abortKinds

theorem handleSecurityModeComplete_acts (inner : Bytes) :
    Acts r completeKinds s (handleSecurityModeComplete V X r inner s) := by
  have h : Acts r completeKinds s (allowedIn V X r .securityMode s).1 :=
    (allowedIn_acts V X _).mono rfl
  unfold handleSecurityModeComplete
  dsimp only
  split
  · exact h
  split
  · exact h
  split
  · rename_i container _
    have hp : Acts r completeKinds s ((((allowedIn V X r .securityMode s).1.exec
        (.promote r)).exec (.markActivated r)).exec (.book r fun b => { b with gmmSub := .none })) := by
      refine exec (exec (h.exec ?_ ?_) ?_ ?_) ?_ ?_ <;> rfl
    split
    · refine andThen (hp.exec ?_ ?_) (abortRegistrationAndReleaseN1_acts V X _)
        rfl <;> rfl
    · exact hp.andThen (completeSecurityMode_acts V X container) rfl
  · exact h

/-! ## Deregistration, service request, transport -/

theorem finishDeregistration_acts (ev : GmmEvent) (hev : ev ≠ .authResponseValid) :
    Acts r fireKinds s (finishDeregistration X r ev s) :=
  (fire_acts X ev hev).andThen clearVolatile_acts rfl

theorem deregisterUE_acts (deregistrationType : Nat) :
    Acts r ([.dl] ++ fireKinds) s (deregisterUE V X r deregistrationType s) := by
  unfold deregisterUE
  dsimp only
  have hstart : Acts r ([.dl] ++ fireKinds) s
      (((s.exec (.book r fun b => { b with gmmProc := .deregistration, cm := .idle })).exec
        (.setRm r .deregistered))) := by
    refine exec (one ?_ ?_) ?_ ?_ <;> rfl
  generalize (s.exec (.book r fun b => { b with gmmProc := .deregistration, cm := .idle })).exec
    (.setRm r .deregistered) = s₁ at hstart ⊢
  have hrel : Acts r ([.dl] ++ fireKinds) s
      ((releaseAllPDUSessions r s₁).exec (.cancelAll r)) := by
    refine exec (hstart.andThen releaseAllPDUSessions_acts rfl) ?_ ?_ <;> rfl
  have hfinish : ∀ s₃, Acts r ([.dl] ++ fireKinds) s s₃ → Acts r ([.dl] ++ fireKinds) s
      (finishDeregistration X r .deregistrationRequestMO
        ((sendCommandIfUp X r s₃).exec (.book r fun b => { b with gmmProc := .none }))) := by
    intro s₃ h₃
    refine andThen (exec (h₃.andThen (sendCommandIfUp_acts X) rfl) ?_ ?_)
      (finishDeregistration_acts X .deregistrationRequestMO (by decide)) (by decide) <;> rfl
  split
  · exact hfinish _ hrel
  split
  · exact hrel
  · refine hfinish _ ?_
    split
    · exact hrel.andThen (dlnasSend_acts V X _) rfl
    · exact hrel

theorem handleDeregistrationAcceptFromUE_acts :
    Acts r fireKinds s (handleDeregistrationAcceptFromUE X r s) := by
  refine andThen (andThen (andThen (exec (exec (one ?_ ?_) ?_ ?_)
    ?_ ?_) releaseAllPDUSessions_acts rfl) (sendCommandIfUp_acts X) rfl)
    (finishDeregistration_acts X .deregistrationAcceptMT (by decide)) (by decide) <;> rfl

theorem acceptService_acts (sr : ServiceRequest) :
    Acts r ([.dl] ++ fireKinds) s (acceptService V X r sr s) := by
  unfold acceptService
  dsimp only
  have hics : Acts r ([.dl] ++ fireKinds) s (if (s.ue r).book.ueContextRequest then
      (initialCtxSetupSend V X r s).1 else s) := by
    split
    · exact (initialCtxSetupSend_acts V X).mono rfl
    · exact .refl
  generalize (if (s.ue r).book.ueContextRequest then
      (initialCtxSetupSend V X r s).1 else s) = s₁ at hics ⊢
  have himsi : (s.ue r).imsi = (s₁.ue r).imsi := (hics.imsi_eq rfl r).symm
  have hrel := hics.andThen (smfCalls_acts
    ((sessionsToReleaseInUse X (s.ue r).imsi sr.pduSessionStatus).map .release) himsi) rfl
  split
  · exact hrel
  · refine andThen (exec (hrel.andThen (dlnasSend_acts V X _) rfl) ?_ ?_)
      (fire_acts X .serviceRequest (by decide)) (by decide) <;> rfl

theorem handleServiceRequest_acts (inner : Bytes) :
    Acts r ([.dl] ++ fireKinds) s (handleServiceRequest V X r inner s) := by
  have h : Acts r ([.dl] ++ fireKinds) s (allowedIn V X r .registered s).1 :=
    (allowedIn_acts V X _).mono rfl
  unfold handleServiceRequest
  dsimp only
  split
  · exact h
  split
  · rename_i sr _
    have hbook : Acts r ([.dl] ++ fireKinds) s
        (((allowedIn V X r .registered s).1.exec (.cancel r .t3513)).exec
          (.book r fun b => { b with gmmProc := .serviceRequest, cm := .connected })) := by
      refine exec (h.exec ?_ ?_) ?_ ?_ <;> rfl
    split
    · exact hbook.andThen (acceptService_acts V X sr) rfl
    · exact hbook
  · exact h

theorem drainPendingReactivations_acts :
    Acts r [.dl, .send, .book] s (drainPendingReactivations V X r s) := by
  unfold drainPendingReactivations
  dsimp only
  have hbook : Acts r [.dl, .send, .book] s
      (s.exec (.book r fun b => { b with pendingN1N2Sessions := [] })) := by
    apply one <;> rfl
  generalize s.exec (.book r fun b => { b with pendingN1N2Sessions := [] }) = s₁ at hbook ⊢
  induction (s.ue r).book.pendingN1N2Sessions generalizing s₁ with
  | nil => exact hbook
  | cons psi psis ih =>
    refine ih _ ?_
    dsimp only
    split
    · exact hbook.andThen (pdusetupSend_acts V X psi []) rfl
    · exact hbook

theorem sendSmReject_acts (psi pti : Nat) :
    Acts r [.dl, .send] s (sendSmReject V X r psi pti s) := by
  unfold sendSmReject
  split
  · exact .refl
  split
  · exact dlnasSend_acts V X _
  · exact .refl

/-- The kinds of handling a 5GSM message. -/
abbrev smKinds : List Kind := [.dl, .send, .book, .smf, .sessions]

theorem establishSession_acts (psi pti : Nat) :
    Acts r smKinds s (establishSession V X r psi pti s) := by
  unfold establishSession
  dsimp only
  split
  · exact (sendSmReject_acts V X psi pti).mono rfl
  · exact (sendSmReject_acts V X psi pti).mono rfl
  · exact .refl
  · rename_i acceptNAS _
    have h : Acts r smKinds s ((s.exec (.emit (.smf (s.ue r).imsi (.establish psi)))).exec
        (.setSessions r (insertSession psi
          ((s.exec (.emit (.smf (s.ue r).imsi (.establish psi)))).ue r).pduSessions))) := by
      refine exec (one ?_ ?_) ?_ ?_ <;> rfl
    split
    · exact h.andThen (pdusetupSend_acts V X psi acceptNAS) rfl
    · exact h

theorem pduSessionEstablishmentRequest_acts (psi pti : Nat) (ty ssc : Option Nat) :
    Acts r smKinds s (pduSessionEstablishmentRequest V X r psi pti ty ssc s) := by
  have hrej : Acts r smKinds s (sendSmReject V X r psi pti s) :=
    (sendSmReject_acts V X psi pti).mono rfl
  unfold pduSessionEstablishmentRequest
  dsimp only
  split
  · exact hrej
  split
  · exact hrej
  · exact .refl
  · split
    · exact (pdusetupSend_acts V X psi _).mono rfl
    · exact .refl
  · split
    · exact establishSession_acts V X psi pti
    · exact .refl
  · split
    · exact establishSession_acts V X psi pti
    · exact .refl

theorem releaseCommand_acts (psi : Nat) :
    Acts r smKinds s (match X.releaseWithCause (s.ue r).imsi psi with
      | none => (smfCalls (s.ue r).imsi [.release psi] s).exec
          (.setSessions r ((s.ue r).pduSessions.filter fun p => p.1 != psi))
      | some cmd => if X.gnbUp (s.ue r).gnbKey then pdureleaseSendCommand X r psi cmd
            ((smfCalls (s.ue r).imsi [.release psi] s).exec
              (.setSessions r ((s.ue r).pduSessions.filter fun p => p.1 != psi)))
          else (smfCalls (s.ue r).imsi [.release psi] s).exec
            (.setSessions r ((s.ue r).pduSessions.filter fun p => p.1 != psi))) := by
  have hrel : Acts r smKinds s ((smfCalls (s.ue r).imsi [.release psi] s).exec
      (.setSessions r ((s.ue r).pduSessions.filter fun p => p.1 != psi))) := by
    refine exec ((smfCalls_acts _ rfl).mono rfl) ?_ ?_ <;> rfl
  split
  · exact hrel
  split
  · exact hrel.andThen (pdureleaseSendCommand_acts X psi _) rfl
  · exact hrel

theorem pduSessionReleaseRequest_acts (psi pti : Nat) :
    Acts r smKinds s (pduSessionReleaseRequest V X r psi pti s) := by
  unfold pduSessionReleaseRequest
  dsimp only
  split
  · exact (sendSmReject_acts V X psi pti).mono rfl
  · exact .refl
  · split
    · exact (pdureleaseSendCommand_acts X psi _).mono rfl
    · exact .refl
  · exact releaseCommand_acts X psi
  · exact releaseCommand_acts X psi

theorem modificationCommand_acts (psi : Nat) :
    Acts r smKinds s (match X.modify (s.ue r).imsi psi with
      | none => s
      | some cmd =>
        match cmd with
        | none => s.exec (.emit (.smf (s.ue r).imsi (.modify psi)))
        | some cmd => if X.gnbUp (s.ue r).gnbKey then
            (dlnasSend V X r cmd (s.exec (.emit (.smf (s.ue r).imsi (.modify psi))))).1
          else s.exec (.emit (.smf (s.ue r).imsi (.modify psi)))) := by
  have h : Acts r smKinds s (s.exec (.emit (.smf (s.ue r).imsi (.modify psi)))) := by
    apply one <;> rfl
  split
  · exact .refl
  split
  · exact h
  split
  · exact h.andThen (dlnasSend_acts V X _) rfl
  · exact h

theorem pduSessionModificationRequest_acts (psi pti : Nat) :
    Acts r smKinds s (pduSessionModificationRequest V X r psi pti s) := by
  unfold pduSessionModificationRequest
  dsimp only
  split
  · exact (sendSmReject_acts V X psi pti).mono rfl
  · exact .refl
  · split
    · exact (dlnasSend_acts V X _).mono rfl
    · exact .refl
  · exact modificationCommand_acts V X psi
  · exact modificationCommand_acts V X psi

theorem handleN1SMPayload_acts (ul : ULNASTransport) :
    Acts r smKinds s (handleN1SMPayload V X r ul s) := by
  unfold handleN1SMPayload
  split
  · exact pduSessionEstablishmentRequest_acts V X _ _ _ _
  · exact pduSessionReleaseRequest_acts V X _ _
  · exact pduSessionModificationRequest_acts V X _ _
  · exact (smfCalls_acts _ rfl).mono rfl
  · exact .refl

theorem sendSMS_acts (payload : Bytes) : Acts r [.dl, .send] s (sendSMS V X r payload s) := by
  unfold sendSMS
  split
  · exact .refl
  · exact dlnasSend_acts V X _

theorem handleSMSPayload_acts (payload : Bytes) :
    Acts r [.dl, .send] s (handleSMSPayload V X r payload s) := by
  unfold handleSMSPayload
  split
  · exact .refl
  split
  · exact (sendSMS_acts V X _).andThen (sendSMS_acts V X _) rfl
  · exact .refl

theorem handleULNASTransport_acts (inner : Bytes) :
    Acts r ([.dl] ++ fireKinds) s (handleULNASTransport V X r inner s) := by
  unfold handleULNASTransport
  split
  · rename_i ul _
    have h : Acts r ([.dl] ++ fireKinds) s
        (if ul.payloadContainerType = payloadTypeN1SMInfo then handleN1SMPayload V X r ul s
        else if ul.payloadContainerType = payloadTypeSMS then
          handleSMSPayload V X r ul.payloadContainer s
        else s) := by
      split
      · exact (handleN1SMPayload_acts V X ul).mono rfl
      split
      · exact (handleSMSPayload_acts V X _).mono rfl
      · exact .refl
    exact h.andThen (fire_acts X .ulNASTransport (by decide)) (by decide)
  · exact .refl

theorem handleConfigUpdateComplete_acts (inner : Bytes) :
    Acts r fireKinds s (handleConfigUpdateComplete V X r inner s) := by
  unfold handleConfigUpdateComplete
  split
  · refine andThen (one ?_ ?_) (fire_acts X .configUpdateComplete (by decide))
      rfl <;> rfl
  · exact .refl

theorem handle5GMMStatus_acts (inner : Bytes) :
    Acts r fireKinds s (handle5GMMStatus V X r inner s) := by
  unfold handle5GMMStatus
  split
  · exact fire_acts X .status5GMM (by decide)
  · exact .refl

end MmtCore.Amf
