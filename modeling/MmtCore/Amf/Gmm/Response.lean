import MmtCore.Amf.Ngap

/-!
# Answers to a registration, and aborts

What the registration, authentication and security mode handlers share: the accept, the reject,
the identity request, and the two ways a procedure is given up.
-/

namespace MmtCore.Amf

variable (V : Env) (X : Ext)

/-- `dlnas.Send`, and on success the PDU is kept for retransmission. -/
def dlnasSendCached (r : Ref) (encoded : Bytes) (s : AmfState) : Outcome :=
  let out := dlnasSend V X r encoded s
  if out.2 then (out.1.exec (.book r fun b => { b with retxNASPDU := encoded }), true)
  else (out.1, false)

/-! ## Registration accept -/

/-- `buildRegistrationResult`: 3GPP access, with SMS allowed or the emergency bit. -/
def buildRegistrationResult (registrationType : Nat) : Nat :=
  if registrationType = 4 then 0x21 else 0x09

/-- `buildAssigned5GGUTI`: a context without a 5G-TMSI gets one. -/
def buildAssigned5GGUTI (r : Ref) (s : AmfState) : AmfState × Option Nat :=
  if V.guamiConfigured = false then (s, none)
  else if (s.ue r).tmsi5g = 0 then (s.exec (.setTmsi r X.newTmsi), some X.newTmsi)
  else (s, some (s.ue r).tmsi5g)

/-- The message of `sendRegistrationAccept`, for the 5G-GUTI built. -/
def registrationAccept (b : Book) (guti5G : Option Nat) : DlMsg :=
  .registrationAccept (buildRegistrationResult b.registrationType) guti5G
    (b.allowedNSSAI.take 8) b.micoRequested

def sendRegistrationAccept (r : Ref) (s : AmfState) : AmfState :=
  if X.gnbUp (s.ue r).gnbKey then
    let built := buildAssigned5GGUTI V X r s
    match V.encode (registrationAccept (built.1.ue r).book built.2) with
    | none => built.1
    | some encoded => (dlnasSendCached V X r encoded built.1).1
  else s

/-! ## Giving up -/

/-- No procedure is running. -/
def endProcedure (r : Ref) (s : AmfState) : AmfState :=
  s.exec (.book r fun b => { b with gmmProc := .none, gmmSub := .none })

/-- `sendRegistrationReject`: the procedure ends if the message went out. -/
def sendRegistrationReject (r : Ref) (cause : Nat) (s : AmfState) : AmfState :=
  match V.encode (.registrationReject cause) with
  | none => s
  | some encoded =>
    if X.gnbUp (s.ue r).gnbKey then
      let out := dlnasSend V X r encoded s
      if out.2 then endProcedure r out.1 else out.1
    else s

/-- `abortRegistrationAndReleaseN1`.  The state machine is not moved. -/
def abortRegistrationAndReleaseN1 (r : Ref) (cause : Nat) (s : AmfState) : AmfState :=
  let s := if (s.ue r).book.gmmProc = .registration then sendRegistrationReject V X r cause s
    else s
  let s := releaseAllPDUSessions r s
  let s := s.exec (.book r fun b => { b with hardRemoveOnComplete := true })
  let s := if X.gnbUp (s.ue r).gnbKey then sendCommand X r s else remove r s
  let s := endProcedure r (s.exec (.cancelAll r))
  (s.exec (.setRm r .deregistered)).exec (.book r fun b => { b with cm := .idle })

/-- `abortCurrentProcedure`.  The state machine is not moved. -/
def abortCurrentProcedure (r : Ref) (s : AmfState) : AmfState :=
  let s := (s.exec (.emit (.aborted r))).exec (.cancelAll r)
  let s := s.exec (.book r fun b =>
    { b with gmmProc := .none, gmmSub := .none, retxNASPDU := [] })
  s.exec (.clearPending r)

/-- `OnNASLowerLayerFailure`. -/
def onNASLowerLayerFailure (r : Ref) (s : AmfState) : AmfState :=
  let s := abortCurrentProcedure r s
  if (s.ue r).rm = .registered then s.exec (.resetTo r .registered) else s.exec (.dropFsm r)

/-! ## Identification -/

abbrev identityTypeSUCI : Nat := 0x01

/-- `sendIdentityRequest`; whether the send succeeds makes no difference. -/
def sendIdentityRequest (r : Ref) (idType : Nat) (s : AmfState) : AmfState :=
  match V.encode (.identityRequest (idType % 8)) with
  | none => s
  | some encoded =>
    if X.gnbUp (s.ue r).gnbKey then
      let s := (dlnasSend V X r encoded s).1
      let s := s.exec (.book r fun b => { b with retxNASPDU := encoded })
      fire X r .identityRequestSent s
    else s

end MmtCore.Amf
