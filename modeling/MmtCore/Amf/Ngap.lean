import MmtCore.Amf.State

/-!
# Sending, releasing and firing

What the handlers of the AMF call: the downlink NAS transport, the NGAP procedures that concern
one UE, the registry operations with their remove hooks, and `Fire` with the actions of the
transition table.

The answers of the surroundings during one event are an `Ext`: which gNBs are there, which sends
succeed, what the UDM, AUSF, NSSF, SMF and SMSF say, and what is drawn at random.
-/

namespace MmtCore.Amf

inductive SupiError
  | noSUPI | other
deriving DecidableEq

inductive SmfSessionState
  | active | suspended | inactive | released | other
deriving DecidableEq

/-- `pti.Default.Start`. -/
inductive PtiStart
  | fresh
  | retransmission (response : Bytes)
  | collision
  | error
deriving DecidableEq

/-- `session.Establish`. -/
inductive Establish
  | established (acceptNAS : Bytes)
  | idInUse
  | doesNotExist
  | error
deriving DecidableEq

structure Ext where
  /-- `gnbctx.Default.GetByIP(key) != nil`. -/
  gnbUp : GnbKey → Bool
  gnbConnected : GnbKey → Bool
  /-- Whether the send made when the log has this length succeeds. -/
  sendOk : Nat → Bool
  /-- `udm.GetAuthData` knows the subscriber. -/
  authData : Imsi → Bool
  /-- `nssf.SelectAllowedNSSAI` for a requested NSSAI. -/
  selectAllowedNSSAI : Imsi → Option Bytes → List Nat
  /-- `ausf.GenerateAV`. -/
  generateAV : Imsi → Option Av
  /-- The home network key and ECIES of `decryptSUCI`, by PLMN, scheme and scheme output. -/
  unprotectSUCI : Imsi → Nat → Bytes → Option Bytes
  /-- The 5G-TMSI `allocate5GTMSI` draws. -/
  newTmsi : Nat
  newTmsi_ne_zero : newTmsi ≠ 0
  /-- Go's map order, for `LookupByTMSI`. -/
  mapOrder : Nat
  /-- `session.Default.Get` and `ForUE`. -/
  smfSession : Imsi → Nat → Option SmfSessionState
  smfSessions : Imsi → List (Nat × SmfSessionState)
  ptiStart : Imsi → Nat → PtiStart
  /-- `session.Build…Reject`, by PDU session and PTI. -/
  buildSmReject : Nat → Nat → Option Bytes
  establish : Imsi → Nat → Establish
  /-- `session.ReleaseWithCause`. -/
  releaseWithCause : Imsi → Nat → Option Bytes
  /-- `session.Modify`: an error, or the command if there is one to send. -/
  modify : Imsi → Nat → Option (Option Bytes)
  /-- `buildTransfer` and the encodings of `pdusetup.Send` succeed. -/
  setupEncodes : Nat → Bool
  /-- `smsf.ProcessMOSMSFromNAS`: the CP-ACK and the follow-up, empty if there is none. -/
  processMOSMS : Imsi → Bytes → Option (Bytes × Bytes)

variable (V : Env) (X : Ext)

/-- A state and whether the call that led to it succeeded. -/
abbrev Outcome := AmfState × Bool

/-! ## Registry with its remove hooks -/

/-- The remove hooks: the state machine is dropped and the UE's timers are cancelled. -/
def removeHooks (r : Ref) (s : AmfState) : AmfState :=
  (s.exec (.dropFsm r)).exec (.cancelAll r)

/-- `Registry.Remove`. -/
def remove (r : Ref) (s : AmfState) : AmfState :=
  removeHooks r (s.exec (.unindex r))

/-- `Registry.ClearVolatile`: the context stays in the registry with its keys. -/
def clearVolatile (r : Ref) (s : AmfState) : AmfState :=
  let s := removeHooks r s
  let s := s.exec (.setRm r .deregistered)
  let s := s.exec (.setSessions r [])
  s.exec (.book r fun b =>
    { b with
      cm := .idle, gmmProc := .none, gmmSub := .none, ngapProc := .none,
      gnbContextEstablished := false, ueContextRequest := false, retxNASPDU := [],
      lastRegRequestPDU := [], initialRRCleartextOnly := false })

/-! ## Downlink NAS -/

/-- `gnb.Send` of a message that carries this NAS PDU. -/
def gnbSendNAS (r : Ref) (pdu : Bytes) (s : AmfState) : Outcome :=
  let ok := X.sendOk s.log.length
  (s.exec (.emit (.nasSent r pdu ok)), ok)

/-- `gnb.Send` of an NGAP message without a NAS PDU. -/
def gnbSendNGAP (r : Ref) (m : NgapMsg) (s : AmfState) : Outcome :=
  let ok := X.sendOk s.log.length
  (s.exec (.emit (.ngapSent r m ok)), ok)

/-- `dlnas.Send`: protect if there is a context in use, then send.  The count is used up even if
the send fails. -/
def dlnasSend (r : Ref) (nasPDU : Bytes) (s : AmfState) : Outcome :=
  match txDL V (s.ue r).sec nasPDU with
  | .error _ => (s, false)
  | .ok (.asIs pdu) => gnbSendNAS X r pdu s
  | .ok (.secured pdu) => gnbSendNAS X r pdu (s.exec (.secureDl r false nasPDU pdu))

/-- `Send5GMMStatus`. -/
def send5GMMStatus (r : Ref) (cause : Nat) (s : AmfState) : AmfState :=
  if X.gnbUp (s.ue r).gnbKey then
    match V.encode (.fivegmmStatus cause) with
    | none => s
    | some pdu => (dlnasSend V X r pdu s).1
  else s

/-! ## NGAP procedures -/

/-- `uectxrelease.SendCommand`. -/
def sendCommand (r : Ref) (s : AmfState) : AmfState :=
  let out := gnbSendNGAP X r .ueContextReleaseCommand s
  if out.2 then out.1.exec (.book r fun b => { b with ngapProc := .ueContextRelease }) else out.1

/-- `SendCommand` to the gNB of the context, where that is still there. -/
def sendCommandIfUp (r : Ref) (s : AmfState) : AmfState :=
  if X.gnbUp (s.ue r).gnbKey then sendCommand X r s else s

/-- `initialctxsetup.Send`; K_gNB is left out when it cannot be derived. -/
def initialCtxSetupSend (r : Ref) (s : AmfState) : Outcome :=
  let u := s.ue r
  if canStartNGAPProcedure u.book.ngapProc .initialContextSetup = false then (s, false)
  else if u.sec.ueSecCap.length < 2 then (s, false)
  else if u.book.allowedNSSAI = [] then (s, false)
  else
    let kgnb := (deriveKgNB V u.sec).toOption
    let out := gnbSendNGAP X r (.initialContextSetupRequest kgnb) s
    if out.2 then (out.1.exec (.book r fun b => { b with ngapProc := .initialContextSetup }), true)
    else (out.1, false)

/-- `wrapInDLNASTransport` of the PDU session setup. -/
def wrapInDLNASTransport (gsmNAS : Bytes) (psi : Nat) : Bytes :=
  [0x7E, 0x00, 0x68, 0x01, UInt8.ofNat (gsmNAS.length / 256), UInt8.ofNat gsmNAS.length] ++
    gsmNAS ++ [0x12, UInt8.ofNat psi]

/-- `gnb.Send` of the PDU session resource setup, with its NAS PDU if there is one. -/
def pdusetupTransmit (r : Ref) (psi : Nat) (dlNas : Option Bytes) (s : AmfState) : AmfState :=
  if X.setupEncodes psi then
    let s := match dlNas with
      | none => s
      | some pdu => s.exec (.emit (.nasSent r pdu (X.sendOk (s.log.length + 1))))
    let out := gnbSendNGAP X r (.pduSessionResourceSetupRequest psi) s
    if out.2 then out.1.exec (.book r fun b => { b with ngapProc := .pduSessionResourceSetup })
    else out.1
  else s

/-- `pdusetup.Send`: without NAS bytes it only re-activates the user plane.  The NAS PDU is
protected before the message is built. -/
def pdusetupSend (r : Ref) (psi : Nat) (acceptNAS : Bytes) (s : AmfState) : AmfState :=
  if canStartNGAPProcedure (s.ue r).book.ngapProc .pduSessionResourceSetup = false then s
  else if acceptNAS = [] then pdusetupTransmit X r psi none s
  else
    let dlNas := wrapInDLNASTransport acceptNAS psi
    match txDL V (s.ue r).sec dlNas with
    | .error _ => s
    | .ok (.asIs pdu) => pdusetupTransmit X r psi (some pdu) s
    | .ok (.secured pdu) =>
      pdusetupTransmit X r psi (some pdu) (s.exec (.secureDl r false dlNas pdu))

/-- `pdurelease.SendCommand`: the NAS bytes go out as they are. -/
def pdureleaseSendCommand (r : Ref) (psi : Nat) (nas : Bytes) (s : AmfState) : AmfState :=
  if canStartNGAPProcedure (s.ue r).book.ngapProc .pduSessionResourceRelease = false then s
  else
    let s := if nas = [] then s
      else s.exec (.emit (.nasSent r nas (X.sendOk (s.log.length + 1))))
    let out := gnbSendNGAP X r (.pduSessionResourceReleaseCommand psi) s
    if out.2 then out.1.exec (.book r fun b => { b with ngapProc := .pduSessionResourceRelease })
    else out.1

/-! ## PDU sessions -/

/-- Calls into the SMF, one after another. -/
def smfCalls (imsi : Imsi) (ops : List SmfOp) (s : AmfState) : AmfState :=
  ops.foldl (fun s op => s.exec (.emit (.smf imsi op))) s

/-- `releaseAllPDUSessions`. -/
def releaseAllPDUSessions (r : Ref) (s : AmfState) : AmfState :=
  let u := s.ue r
  if u.pduSessions = [] then s
  else
    let s := smfCalls u.imsi (u.pduSessions.map fun p => .release p.1) s
    let s := s.exec (.setSessions r [])
    smfCalls u.imsi [.releaseAll] s

/-! ## The state machine -/

/-- The actions of the transition table that do more than log. -/
def runAction (r : Ref) (s : AmfState) : FsmAction → AmfState
  | .log => s
  | .identityTimeout | .authenticationTimeout | .securityModeTimeout =>
    if X.gnbUp (s.ue r).gnbKey then sendCommand X r (releaseAllPDUSessions r s) else s
  | .implicitDeregistration =>
    clearVolatile r (sendCommandIfUp X r (releaseAllPDUSessions r s))
  | .finaliseDeregistration => clearVolatile r (sendCommandIfUp X r s)

/-- `Fire`; without a row for the state the event is dropped. -/
def fire (r : Ref) (ev : GmmEvent) (s : AmfState) : AmfState :=
  match findTransition (s.ue r).fsm ev with
  | none => s.exec (.emit (.noTransition r (s.ue r).fsm ev))
  | some t => (runAction X r s t.action).exec (.take r t)

/-- `allowedIn`: in any other state the message is answered with 5GMM STATUS #98. -/
def allowedIn (r : Ref) (allowed : GmmState) (s : AmfState) : Outcome :=
  if (s.ue r).fsm = allowed then (s, true)
  else (send5GMMStatus V X r cause5GMMNotCompatibleWithState s, false)

variable {V X} in
theorem allowedIn_of_eq {r : Ref} {st : GmmState} {s : AmfState} (h : (s.ue r).fsm = st) :
    allowedIn V X r st s = (s, true) := if_pos h

variable {V X} in
theorem allowedIn_of_ne {r : Ref} {st : GmmState} {s : AmfState} (h : (s.ue r).fsm ≠ st) :
    allowedIn V X r st s = (send5GMMStatus V X r cause5GMMNotCompatibleWithState s, false) :=
  if_neg h

end MmtCore.Amf
