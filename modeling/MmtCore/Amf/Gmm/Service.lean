import MmtCore.Amf.Gmm.Registration

/-!
# Deregistration, service request, and NAS transport

`dereg.go`, `service.go`, `ulnas.go`, `configupdate.go` and `status.go`.
-/

namespace MmtCore.Amf

variable (V : Env) (X : Ext)

/-! ## Deregistration -/

/-- The context a deregistration is about: a request on a connection without a SUPI is moved to
the holder of the 5G-TMSI it names. -/
def deregistrationTarget (r : Ref) (id : MobileIdentity) (s : AmfState) : Ref :=
  match id with
  | .guti5G tmsi =>
    if (s.ue r).imsi = [] then (s.lookupByTMSI X.mapOrder tmsi).getD r else r
  | _ => r

/-- The holder takes the connection over, and the fresh context leaves the registry. -/
def retarget (r existing : Ref) (s : AmfState) : AmfState :=
  if existing = r then s
  else remove r (s.exec (.rebind existing (s.ue r).gnbKey (s.ue r).ranUeNgapId))

/-- The switch-off bit of the deregistration type. -/
def switchOff (deregistrationType : Nat) : Bool := deregistrationType / 8 % 2 == 1

/-- The end of both deregistrations: release the connection, move the state machine, and keep
the security context only. -/
def finishDeregistration (r : Ref) (ev : GmmEvent) (s : AmfState) : AmfState :=
  clearVolatile r (fire X r ev s)

/-- The part of `handleDeregistrationRequestMO` after the target is known. -/
def deregisterUE (r : Ref) (deregistrationType : Nat) (s : AmfState) : AmfState :=
  let s := s.exec (.book r fun b => { b with gmmProc := .deregistration, cm := .idle })
  let s := s.exec (.setRm r .deregistered)
  let s := (releaseAllPDUSessions r s).exec (.cancelAll r)
  let finish (s : AmfState) : AmfState :=
    let s := sendCommandIfUp X r s
    finishDeregistration X r .deregistrationRequestMO
      (s.exec (.book r fun b => { b with gmmProc := .none }))
  if switchOff deregistrationType then finish s
  else
    match V.encode .deregistrationAcceptUEOriginating with
    | none => s
    | some encoded =>
      finish (if X.gnbUp (s.ue r).gnbKey then (dlnasSend V X r encoded s).1 else s)

def handleDeregistrationRequestMO (r : Ref) (inner : Bytes) (s : AmfState) : AmfState :=
  match V.decode inner with
  | .ok (.deregistrationRequestUEOriginating deregistrationType id) =>
    let target := deregistrationTarget X r id s
    deregisterUE V X target deregistrationType (retarget r target s)
  | _ => s

def handleDeregistrationAcceptFromUE (r : Ref) (s : AmfState) : AmfState :=
  let s := (s.exec (.cancel r .t3522)).exec (.setRm r .deregistered)
  let s := s.exec (.book r fun b => { b with cm := .idle, gmmProc := .none })
  let s := sendCommandIfUp X r (releaseAllPDUSessions r s)
  finishDeregistration X r .deregistrationAcceptMT s

/-! ## Service request -/

/-- Neither inactive nor released. -/
def SmfSessionState.inUse : SmfSessionState → Bool
  | .inactive | .released => false
  | .active | .suspended | .other => true

/-- `buildAMFPDUSessionStatus`, over the sessions the SMF has. -/
def buildAMFPDUSessionStatus (sessions : List (Nat × SmfSessionState)) : Option (List Nat) :=
  match (sessions.filter fun p => 1 ≤ p.1 && p.1 ≤ 15 && p.2.inUse).map Prod.fst with
  | [] => none
  | psis => some psis

/-- The sessions a service request releases: reported inactive by the UE, in use for the SMF. -/
def sessionsToReleaseInUse (imsi : Imsi) (status : Option (List Nat)) : List Nat :=
  (sessionsToRelease X imsi status).filter fun psi =>
    match X.smfSession imsi psi with
    | some st => st.inUse
    | none => false

/-- `serviceTypeIsSignallingOnly`. -/
def serviceTypeIsSignallingOnly (v : Nat) : Bool := v == 0 || v == 6 || v == 7 || v == 8

/-- `ForUE`, once some sessions have been released. -/
def sessionsAfter (imsi : Imsi) (released : List Nat) : List (Nat × SmfSessionState) :=
  (X.smfSessions imsi).filter fun p => !released.contains p.1

/-- The sessions queued for re-activation by a service request. -/
def queuedByServiceRequest (imsi : Imsi) (sr : ServiceRequest) (released pending : List Nat) :
    List Nat :=
  if serviceTypeIsSignallingOnly sr.serviceType then pending
  else
    match sr.uplinkDataStatus with
    | some psis => queueReactivations (sessionAfter X imsi released) psis pending
    | none =>
      -- `queueAllSuspendedSessions`, when nothing is queued yet
      if pending = [] then
        let suspended := (sessionsAfter X imsi released).filter fun p => p.2 == .suspended
        queueReactivations (fun _ => some .suspended) (suspended.map Prod.fst) pending
      else pending

/-- `handleServiceRequest` with the gNB there. -/
def acceptService (r : Ref) (sr : ServiceRequest) (s : AmfState) : AmfState :=
  let imsi := (s.ue r).imsi
  let s := if (s.ue r).book.ueContextRequest then (initialCtxSetupSend V X r s).1 else s
  let released := sessionsToReleaseInUse X imsi sr.pduSessionStatus
  let s := smfCalls imsi (released.map .release) s
  let status := if sr.pduSessionStatus.isSome
    then buildAMFPDUSessionStatus (sessionsAfter X imsi released) else none
  match V.encode (.serviceAccept status) with
  | none => s
  | some encoded =>
    let s := (dlnasSend V X r encoded s).1
    let s := s.exec (.book r fun b =>
      { b with
        pendingN1N2Sessions := queuedByServiceRequest X imsi sr released b.pendingN1N2Sessions
        gmmProc := .none })
    fire X r .serviceRequest s

def handleServiceRequest (r : Ref) (inner : Bytes) (s : AmfState) : AmfState :=
  let guard := allowedIn V X r .registered s
  let s := guard.1
  if guard.2 = false then s
  else
    match V.decode inner with
    | .ok (.serviceRequest sr) =>
      let s := s.exec (.cancel r .t3513)
      let s := s.exec (.book r fun b => { b with gmmProc := .serviceRequest, cm := .connected })
      if X.gnbUp (s.ue r).gnbKey then acceptService V X r sr s else s
    | _ => s

/-- `drainPendingReactivations`. -/
def drainPendingReactivations (r : Ref) (s : AmfState) : AmfState :=
  let u := s.ue r
  let s := s.exec (.book r fun b => { b with pendingN1N2Sessions := [] })
  u.book.pendingN1N2Sessions.foldl (fun s psi =>
    if X.smfSession u.imsi psi = some .suspended then pdusetupSend V X r psi [] s else s) s

/-! ## UL NAS transport -/

/-- A 5GSM reject, sent if it can be built and the gNB is there. -/
def sendSmReject (r : Ref) (psi pti : Nat) (s : AmfState) : AmfState :=
  match X.buildSmReject psi pti with
  | none => s
  | some rej => if X.gnbUp (s.ue r).gnbKey then (dlnasSend V X r rej s).1 else s

/-- A value outside of an optional range. -/
def outOfRange (v : Option Nat) (lo hi : Nat) : Bool :=
  match v with
  | none => false
  | some v => v < lo || hi < v

/-- The session a 5GSM message is about. -/
def pduSessionOf (ul : ULNASTransport) (own : Nat) : Nat :=
  if ul.pduSessionID.getD 0 = 0 then own else ul.pduSessionID.getD 0

/-- The session is entered, replacing one of the same id. -/
def insertSession (psi : Nat) (l : List (Nat × PduState)) : List (Nat × PduState) :=
  (psi, .active) :: l.filter fun p => p.1 != psi

/-- `session.Establish` and what follows. -/
def establishSession (r : Ref) (psi pti : Nat) (s : AmfState) : AmfState :=
  let imsi := (s.ue r).imsi
  match X.establish imsi psi with
  | .idInUse | .doesNotExist => sendSmReject V X r psi pti s
  | .error => s
  | .established acceptNAS =>
    let s := s.exec (.emit (.smf imsi (.establish psi)))
    let s := s.exec (.setSessions r (insertSession psi (s.ue r).pduSessions))
    if X.gnbUp (s.ue r).gnbKey then pdusetupSend V X r psi acceptNAS s else s

def pduSessionEstablishmentRequest (r : Ref) (psi pti : Nat) (pduSessionType sscMode : Option Nat)
    (s : AmfState) : AmfState :=
  let u := s.ue r
  if outOfRange pduSessionType 1 5 || outOfRange sscMode 1 3 then sendSmReject V X r psi pti s
  else
    match X.ptiStart u.imsi pti with
    | .collision => sendSmReject V X r psi pti s
    | .error => s
    | .retransmission (b :: response) =>
      if X.gnbUp u.gnbKey ∧ (X.smfSession u.imsi psi).isSome then
        pdusetupSend V X r psi (b :: response) s
      else s
    | .retransmission [] | .fresh =>
      if X.gnbUp u.gnbKey ∧ X.gnbConnected u.gnbKey then establishSession V X r psi pti s else s

def pduSessionReleaseRequest (r : Ref) (psi pti : Nat) (s : AmfState) : AmfState :=
  let u := s.ue r
  match X.ptiStart u.imsi pti with
  | .collision => sendSmReject V X r psi pti s
  | .error => s
  | .retransmission (b :: response) =>
    if X.gnbUp u.gnbKey then pdureleaseSendCommand X r psi (b :: response) s else s
  | .retransmission [] | .fresh =>
    let s := smfCalls u.imsi [.release psi] s
    let s := s.exec (.setSessions r (u.pduSessions.filter fun p => p.1 != psi))
    match X.releaseWithCause u.imsi psi with
    | none => s
    | some cmd => if X.gnbUp u.gnbKey then pdureleaseSendCommand X r psi cmd s else s

def pduSessionModificationRequest (r : Ref) (psi pti : Nat) (s : AmfState) : AmfState :=
  let u := s.ue r
  match X.ptiStart u.imsi pti with
  | .collision => sendSmReject V X r psi pti s
  | .error => s
  | .retransmission (b :: response) =>
    if X.gnbUp u.gnbKey then (dlnasSend V X r (b :: response) s).1 else s
  | .retransmission [] | .fresh =>
    match X.modify u.imsi psi with
    | none => s
    | some cmd =>
      let s := s.exec (.emit (.smf u.imsi (.modify psi)))
      match cmd with
      | none => s
      | some cmd => if X.gnbUp u.gnbKey then (dlnasSend V X r cmd s).1 else s

/-- `handleN1SMPayload`. -/
def handleN1SMPayload (r : Ref) (ul : ULNASTransport) (s : AmfState) : AmfState :=
  match V.decode ul.payloadContainer with
  | .ok (.pduSessionEstablishmentRequest psi pti pduSessionType sscMode) =>
    pduSessionEstablishmentRequest V X r (pduSessionOf ul psi) pti pduSessionType sscMode s
  | .ok (.pduSessionReleaseRequest psi pti) =>
    pduSessionReleaseRequest V X r (pduSessionOf ul psi) pti s
  | .ok (.pduSessionModificationRequest psi pti) =>
    pduSessionModificationRequest V X r (pduSessionOf ul psi) pti s
  | .ok (.pduSessionModificationComplete psi _) =>
    smfCalls (s.ue r).imsi [.modificationComplete (pduSessionOf ul psi)] s
  | _ => s

/-- `wrapInDLNASTransportSMS`. -/
def wrapInDLNASTransportSMS (payload : Bytes) : Bytes :=
  [0x7E, 0x00, 0x68, 0x02, UInt8.ofNat (payload.length / 256), UInt8.ofNat payload.length] ++
    payload

/-- One downlink SMS message; an empty one is not sent. -/
def sendSMS (r : Ref) (payload : Bytes) (s : AmfState) : AmfState :=
  if payload = [] then s else (dlnasSend V X r (wrapInDLNASTransportSMS payload) s).1

/-- `handleSMSPayload`. -/
def handleSMSPayload (r : Ref) (payload : Bytes) (s : AmfState) : AmfState :=
  match X.processMOSMS (s.ue r).imsi payload with
  | none => s
  | some (cpAck, followup) =>
    if X.gnbUp (s.ue r).gnbKey then sendSMS V X r followup (sendSMS V X r cpAck s) else s

/-- The payload container types that are looked into. -/
abbrev payloadTypeN1SMInfo : Nat := 1

abbrev payloadTypeSMS : Nat := 2

/-- `handleULNASTransport`: in every state. -/
def handleULNASTransport (r : Ref) (inner : Bytes) (s : AmfState) : AmfState :=
  match V.decode inner with
  | .ok (.ulNASTransport ul) =>
    let s :=
      if ul.payloadContainerType = payloadTypeN1SMInfo then handleN1SMPayload V X r ul s
      else if ul.payloadContainerType = payloadTypeSMS then
        handleSMSPayload V X r ul.payloadContainer s
      else s
    fire X r .ulNASTransport s
  | _ => s

/-! ## Configuration update and status -/

def handleConfigUpdateComplete (r : Ref) (inner : Bytes) (s : AmfState) : AmfState :=
  match V.decode inner with
  | .ok .configurationUpdateComplete =>
    fire X r .configUpdateComplete (s.exec (.book r fun b => { b with gmmProc := .none }))
  | _ => s

def handle5GMMStatus (r : Ref) (inner : Bytes) (s : AmfState) : AmfState :=
  match V.decode inner with
  | .ok (.fivegmmStatus _) => fire X r .status5GMM s
  | _ => s

end MmtCore.Amf
