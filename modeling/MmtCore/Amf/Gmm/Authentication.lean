import MmtCore.Amf.Gmm.Response

/-!
# Primary authentication and security mode control

`auth.go` and `smc.go`: the challenge, the response, the failures, and the security mode command
that follows a response that matched.
-/

namespace MmtCore.Amf

variable (V : Env) (X : Ext)

/-! ## Authentication -/

/-- The AUTHENTICATION REQUEST for the vector in the context. -/
def authenticationRequest (sec : SecurityCtx) : DlMsg :=
  .authenticationRequest sec.pendingNgksi sec.abba sec.rand sec.autn

/-- The sending half of `startAuthentication` and `resendAuthRequestSameChallenge`. -/
def sendAuthenticationRequest (r : Ref) (s : AmfState) : Outcome :=
  match V.encode (authenticationRequest (s.ue r).sec) with
  | none => (s, false)
  | some encoded =>
    if X.gnbUp (s.ue r).gnbKey then dlnasSendCached V X r encoded s else (s, false)

/-- `startAuthentication`: the vector in use is given up first, and stored keys derived from it
stay.  A SUPI too short to name a network ends the attempt silently. -/
def startAuthentication (r : Ref) (s : AmfState) : AmfState :=
  let u := s.ue r
  if u.imsi = [] then s
  else
    let s := s.exec (.resetAuthentication r)
    if u.imsi.length < 5 then s
    else
      match X.generateAV u.imsi with
      | none => abortRegistrationAndReleaseN1 V X r causeIllegalUE s
      | some av =>
        let s := s.exec (.book r fun b =>
          { b with gmmProc := .registration, gmmSub := .authentication })
        let s := s.exec (.challenge r av (chooseNewNGKSI u.book.nasKSI u.sec []))
        (sendAuthenticationRequest V X r s).1

/-- `resendAuthRequestSameChallenge`. -/
def resendAuthRequestSameChallenge (r : Ref) (s : AmfState) : Outcome :=
  if (s.ue r).sec.rand = [] ∨ (s.ue r).sec.autn = [] then (s, false)
  else sendAuthenticationRequest V X r s

/-- `sendAuthenticationReject`, with `abortAuthAndReleaseN1`: the context leaves the registry. -/
def sendAuthenticationReject (r : Ref) (s : AmfState) : AmfState :=
  let s := match V.encode .authenticationReject with
    | none => s
    | some encoded =>
      if X.gnbUp (s.ue r).gnbKey then (dlnasSend V X r encoded s).1 else s
  let s := (s.exec (.setAuthDone r false)).exec (.clearPending r)
  remove r (endProcedure r (sendCommandIfUp X r s))

/-! ## Security mode -/

/-- The SECURITY MODE COMMAND for the algorithms selected. -/
def securityModeCommand (u : Ue) (eea eia : Nat) : DlMsg :=
  .securityModeCommand eea eia u.sec.pendingNgksi
    (if u.sec.ueSecCap.length < 2 then [0x80, 0x80] else u.sec.ueSecCap)
    (if u.book.initialRRCleartextOnly then 0x02 else 0x00)

/-- `startSecurityMode` once the context is activated: `TxSMC` protects under the pending keys,
and what was protected is sent and kept. -/
def sendSecurityModeCommand (r : Ref) (eea eia : Nat) (s : AmfState) : AmfState :=
  match V.encode (securityModeCommand (s.ue r) eea eia) with
  | none => s
  | some encoded =>
    match txSMC V (s.ue r).sec encoded with
    | .error _ => s
    | .ok wrapped =>
      let s := s.exec (.secureDl r (s.ue r).sec.pending encoded wrapped)
      if X.gnbUp (s.ue r).gnbKey then
        let out := dlnasSendCached V X r wrapped s
        if out.2 then out.1.exec (.book r fun b => { b with gmmSub := .securityMode })
        else out.1
      else s

def startSecurityMode (r : Ref) (s : AmfState) : AmfState :=
  match negotiateAlgorithms V (s.ue r).sec.ueSecCap with
  | none => abortRegistrationAndReleaseN1 V X r causeInvalidMandatoryInfo s
  | some (eea, eia) =>
    if (s.ue r).sec.kamf.length ≠ 32 then s
    else
      sendSecurityModeCommand V X r eea eia
        (s.exec (.activate V r (s.ue r).sec.pendingNgksi eea eia))

/-! ## Handlers -/

def handleAuthenticationResponse (r : Ref) (inner : Bytes) (s : AmfState) : AmfState :=
  let guard := allowedIn V X r .authentication s
  let s := guard.1
  if guard.2 = false then s
  else if (s.ue r).sec.authDone then s
  else
    match V.decode inner with
    | .ok (.authenticationResponse parameter) =>
      if parameter = some (s.ue r).sec.xresStar then
        fire X r .authResponseValid (startSecurityMode V X r (s.exec (.answer r)))
      else sendAuthenticationReject V X r (fire X r .authResponseInvalid s)
    | _ =>
      abortRegistrationAndReleaseN1 V X r causeProtocolError (fire X r .authResponseInvalid s)

abbrev maxAuthRetries : Nat := 3

abbrev causeNgKSIAlreadyInUse : Nat := 71

/-- Cause #71: the same challenge once more, under another ngKSI. -/
def retryWithNewNGKSI (r : Ref) (s : AmfState) : AmfState :=
  let u := s.ue r
  let s := s.exec (.rechallenge r (chooseNewNGKSI u.book.nasKSI u.sec [u.sec.pendingNgksi]))
  let out := resendAuthRequestSameChallenge V X r s
  if out.2 then fire X r .authRetry out.1 else fire X r .authenticationFailure out.1

def handleAuthenticationFailure (r : Ref) (inner : Bytes) (s : AmfState) : AmfState :=
  let guard := allowedIn V X r .authentication s
  let s := guard.1
  if guard.2 = false then s
  else
    match V.decode inner with
    | .error _ => endProcedure r (fire X r .authenticationFailure s)
    | .ok (.authenticationFailure cause _) =>
      let s := s.exec (.countAuthRetry r)
      if maxAuthRetries ≤ (s.ue r).sec.authRetryCount then
        sendAuthenticationReject V X r (fire X r .authenticationFailure s)
      else if cause = causeNgKSIAlreadyInUse then retryWithNewNGKSI V X r s
      else fire X r .authRetry (startAuthentication V X r s)
    | .ok _ =>
      (fire X r .authenticationFailure s).exec (.book r fun b => { b with gmmProc := .none })

/-! ## Selection of slices -/

/-- `runNSSFWithRequested`. -/
def runNSSFWithRequested (r : Ref) (requested : Option Bytes) (s : AmfState) : AmfState :=
  let allowed := X.selectAllowedNSSAI (s.ue r).imsi requested
  s.exec (.book r fun b => { b with allowedNSSAI := allowed })

/-- The key with which a NAS message container is deciphered, if it is: `EEA ≠ 0` and a 16-byte
`KNASEnc`. -/
def SecurityCtx.ciphersContainers (sec : SecurityCtx) : Bool :=
  sec.op.eea != 0 && sec.op.knasEnc.length == nasKeyLen

/-- A container in the clear: deciphered with the stored uplink count if there is a key. -/
def containerBytes (sec : SecurityCtx) (container : Bytes) : Except SecError Bytes :=
  if sec.ciphersContainers then decipherContainer V sec sec.op.ul container else .ok container

/-- `applyContainerRRToUE`. -/
def applyContainerRRToUE (r : Ref) (container : Bytes) (s : AmfState) : AmfState :=
  match containerBytes V (s.ue r).sec container with
  | .error _ => s
  | .ok bytes =>
    match V.decode bytes with
    | .ok (.registrationRequest rr) =>
      let s := s.exec (.book r fun b => { b with micoRequested := rr.micoIndication })
      let s := runNSSFWithRequested X r rr.requestedNSSAI s
      if (s.ue r).book.allowedNSSAI = [] then
        abortRegistrationAndReleaseN1 V X r causeNoNetworkSlicesAvailable s
      else s
    | _ => s

/-- A container is there and holds something. -/
def hasContainer (container : Option Bytes) : Bool :=
  match container with
  | none => false
  | some c => !c.isEmpty

/-- The container of a SECURITY MODE COMPLETE, if it holds something. -/
def applyContainer (r : Ref) (container : Option Bytes) (s : AmfState) : AmfState :=
  match container with
  | none | some [] => s
  | some (c :: cs) => applyContainerRRToUE V X r (c :: cs) s

/-- `handleSecurityModeComplete` after the promotion: the container, the initial context setup,
the accept. -/
def completeSecurityMode (r : Ref) (container : Option Bytes) (s : AmfState) : AmfState :=
  let s := applyContainer V X r container s
  let s := if X.gnbUp (s.ue r).gnbKey then (initialCtxSetupSend V X r s).1 else s
  fire X r .securityModeComplete (sendRegistrationAccept V X r s)

def handleSecurityModeComplete (r : Ref) (inner : Bytes) (s : AmfState) : AmfState :=
  let guard := allowedIn V X r .securityMode s
  let s := guard.1
  if guard.2 = false then s
  else if (s.ue r).sec.pending = false then s
  else
    match V.decode inner with
    | .ok (.securityModeComplete container) =>
      let s := (s.exec (.promote r)).exec (.markActivated r)
      let s := s.exec (.book r fun b => { b with gmmSub := .none })
      if (s.ue r).book.initialRRCleartextOnly ∧ hasContainer container = false then
        let s := s.exec (.book r fun b => { b with gmmProc := .registration })
        abortRegistrationAndReleaseN1 V X r causeConditionalIEError s
      else completeSecurityMode V X r container s
    | _ => s

abbrev causeSecurityModeRejected : Nat := 0x18

def handleSecurityModeReject (r : Ref) (inner : Bytes) (s : AmfState) : AmfState :=
  let guard := allowedIn V X r .securityMode s
  let s := guard.1
  if guard.2 = false then s
  else
    let cause := match V.decode inner with
      | .ok (.securityModeReject cause) => cause
      | _ => causeSecurityModeRejected
    let s := fire X r .securityModeReject (s.exec (.clearPending r))
    abortRegistrationAndReleaseN1 V X r cause s

end MmtCore.Amf
