import Mathlib.Algebra.Group.Nat.Defs
import Mathlib.Logic.Function.Basic

/-!
# Data of the access and mobility function

The AMF keeps one context per UE (`Ue`, the Go `AmfUeCtx`), grouped here by what the fields are
for: identities, security context, bookkeeping of procedures, state machine and timers, PDU
sessions.  Message bytes are lists of bytes; NAS COUNTs are 32-bit and kept as naturals below
`2 ^ 32`, with the wrap written out where the code adds to them.

The GMM state machine is stored with the context: the Go registry of machines is keyed by the
context's pointer, and a context without a machine is in the state a fresh machine starts in.
Timers likewise: they are keyed by AMF-UE-NGAP-ID, which a context keeps for life.
-/

namespace MmtCore.Amf

abbrev Bytes := List UInt8

/-- A SUPI, as its characters; the empty string is "not known". -/
abbrev Imsi := List UInt8

/-- The name a gNB association is registered under; the empty string is "none". -/
abbrev GnbKey := List UInt8

/-- A context object. -/
abbrev Ref := Nat

/-- Bytes of a NAS key. -/
abbrev nasKeyLen : Nat := 16

/-- COUNTs are `uint32`. -/
abbrev countMod : Nat := 2 ^ 32

/-! ## States -/

inductive RmState
  | deregistered | registered
deriving DecidableEq

inductive CmState
  | idle | connected
deriving DecidableEq

inductive GmmProcedure
  | none | registration | deregistration | serviceRequest | configUpdate | paging
deriving DecidableEq

inductive GmmSubStep
  | none | identification | authentication | securityMode
deriving DecidableEq

inductive NgapProcedure
  | none | initialContextSetup | pduSessionResourceSetup | pduSessionResourceRelease
  | pduSessionResourceModify | ueContextRelease
deriving DecidableEq

/-- `CanStartNGAPProcedure`. -/
def canStartNGAPProcedure (current desired : NgapProcedure) : Bool :=
  if current = .none then true
  else if current = .ueContextRelease then false
  else if desired = .initialContextSetup ∧ current = .initialContextSetup then false
  else true

/-- The states of the GMM state machine. -/
inductive GmmState
  | deregistered | identification | authentication | securityMode | registeredInitiated
  | registered | deregistrationInitiated | mtDeregPending
deriving DecidableEq

/-- The events of the GMM state machine. -/
inductive GmmEvent
  | registrationRequest | regRequestContextValid | identityResponse | identityResponseFail
  | authResponseValid | authResponseInvalid | authRetry | authenticationFailure
  | securityModeComplete | securityModeReject | registrationComplete
  | deregistrationRequestMO | deregistrationAcceptMT | serviceRequest | ulNASTransport
  | identityRequestSent | configUpdateCommandSent | configUpdateComplete
  | deregistrationRequestSentMT | status5GMM | initialContextSetupResponse
  | ueContextReleaseComplete | t3550Expired | t3512Expired | t3513Expired | t3560AuthExpired
  | t3560SMCExpired | t3570Expired | t3522Expired | t3555Expired | twaitDeregReleaseExpired
deriving DecidableEq

/-- The NAS timers, by name. -/
inductive Timer
  | t3512 | t3513 | t3522 | t3550 | t3555 | t3560 | t3570 | twaitUECtxRelease
deriving DecidableEq

/-! ## Security context -/

/-- One slot of NAS keys: keys, selected algorithms and the two counts. -/
structure NasSlot where
  knasEnc : Bytes
  knasInt : Bytes
  eea : Nat
  eia : Nat
  ul : Nat
  dl : Nat
deriving DecidableEq

def NasSlot.empty : NasSlot := ⟨[], [], 0, 0, 0, 0⟩

/-- `SecurityCtx`: the authentication vector in use, the operative slot and the pending one. -/
structure SecurityCtx where
  rand : Bytes
  xresStar : Bytes
  autn : Bytes
  kausf : Bytes
  kseaf : Bytes
  kamf : Bytes
  abba : Bytes
  ueSecCap : Bytes
  /-- `KNASEnc`, `KNASInt`, `EEA`, `EIA`, `ULNasCount`, `DLNasCount`. -/
  op : NasSlot
  ngksi : Nat
  ngksiAssigned : Bool
  authDone : Bool
  authRetryCount : Nat
  activated : Bool
  pending : Bool
  /-- The `Pending…` counterparts of `op`. -/
  pend : NasSlot
  pendingNgksi : Nat
deriving DecidableEq

/-- `NewSecurityCtx`. -/
def SecurityCtx.new : SecurityCtx where
  rand := []
  xresStar := []
  autn := []
  kausf := []
  kseaf := []
  kamf := []
  abba := [0, 0]
  ueSecCap := []
  op := .empty
  ngksi := 0
  ngksiAssigned := false
  authDone := false
  authRetryCount := 0
  activated := false
  pending := false
  pend := .empty
  pendingNgksi := 0

/-! ## UE context -/

inductive PduState
  | active | suspended
deriving DecidableEq

/-- Fields that only steer procedures: no key, identity or index depends on them. -/
structure Book where
  cm : CmState
  gmmProc : GmmProcedure
  gmmSub : GmmSubStep
  ngapProc : NgapProcedure
  registrationType : Nat
  followOnRequest : Bool
  nasKSI : Nat
  micoRequested : Bool
  lastRegRequestPDU : Bytes
  initialRRCleartextOnly : Bool
  retxNASPDU : Bytes
  hardRemoveOnComplete : Bool
  gnbContextEstablished : Bool
  ueContextRequest : Bool
  /-- S-NSSAIs, each as one number. -/
  allowedNSSAI : List Nat
  pendingN1N2Sessions : List Nat
  pendingReleasePDUList : List Nat
deriving DecidableEq

/-- `AmfUeCtx`. -/
structure Ue where
  amfUeNgapId : Nat
  ranUeNgapId : Nat
  gnbKey : GnbKey
  imsi : Imsi
  tmsi5g : Nat
  sec : SecurityCtx
  book : Book
  rm : RmState
  fsm : GmmState
  /-- The armed timers, each with the event its expiry fires. -/
  timers : Timer → Option GmmEvent
  /-- `PDUSessions`, by PDU session id. -/
  pduSessions : List (Nat × PduState)

/-- `uectx.New`. -/
def Ue.new (amfUeNgapId ranUeNgapId : Nat) (gnbKey : GnbKey) (imsi : Imsi) : Ue where
  amfUeNgapId := amfUeNgapId
  ranUeNgapId := ranUeNgapId
  gnbKey := gnbKey
  imsi := imsi
  tmsi5g := 0
  sec := .new
  book :=
    { cm := .idle, gmmProc := .none, gmmSub := .none, ngapProc := .none, registrationType := 0,
      followOnRequest := false, nasKSI := 0, micoRequested := false, lastRegRequestPDU := [],
      initialRRCleartextOnly := false, retxNASPDU := [], hardRemoveOnComplete := false,
      gnbContextEstablished := false, ueContextRequest := false, allowedNSSAI := [],
      pendingN1N2Sessions := [], pendingReleasePDUList := [] }
  rm := .deregistered
  fsm := .deregistered
  timers := fun _ => none
  pduSessions := []

/-! ## Uplink NAS messages -/

/-- The mobile identities the handlers tell apart. -/
inductive MobileIdentity
  | suci (plmn : Imsi) (protectionSchemeId : Nat) (schemeOutput : Bytes)
  | guti5G (tmsi5g : Nat)
  | noIdentity
  | other
deriving DecidableEq

structure RegistrationRequest where
  registrationType : Nat
  followOn : Bool
  ngKSI : Nat
  mobileIdentity : MobileIdentity
  ueSecurityCapability : Option Bytes
  micoIndication : Bool
  requestedNSSAI : Option Bytes
  pduSessionStatus : Option (List Nat)
  uplinkDataStatus : Option (List Nat)
  ueStatus : Bool
  nasMessageContainer : Option Bytes
deriving DecidableEq

structure ServiceRequest where
  serviceType : Nat
  pduSessionStatus : Option (List Nat)
  uplinkDataStatus : Option (List Nat)
  nasMessageContainer : Option Bytes
deriving DecidableEq

structure ULNASTransport where
  payloadContainerType : Nat
  payloadContainer : Bytes
  pduSessionID : Option Nat
deriving DecidableEq

/-- What `DecodeNASMessage` yields for the messages the AMF's handlers look into. -/
inductive NasMsg
  | registrationRequest (m : RegistrationRequest)
  | registrationComplete
  | deregistrationRequestUEOriginating (deregistrationType : Nat) (mobileIdentity : MobileIdentity)
  | serviceRequest (m : ServiceRequest)
  | configurationUpdateComplete
  | authenticationResponse (parameter : Option Bytes)
  | authenticationFailure (cause : Nat) (parameter : Option Bytes)
  | identityResponse (mobileIdentity : MobileIdentity)
  | securityModeComplete (nasMessageContainer : Option Bytes)
  | securityModeReject (cause : Nat)
  | fivegmmStatus (cause : Nat)
  | ulNASTransport (m : ULNASTransport)
  | pduSessionEstablishmentRequest (pduSessionID pti : Nat) (pduSessionType sscMode : Option Nat)
  | pduSessionReleaseRequest (pduSessionID pti : Nat)
  | pduSessionModificationRequest (pduSessionID pti : Nat)
  | pduSessionReleaseComplete (pduSessionID pti : Nat)
  | pduSessionModificationComplete (pduSessionID pti : Nat)
  | other
deriving DecidableEq

/-- The NAS message container of a message that may carry one. -/
def nasMessageContainer : NasMsg → Option Bytes
  | .registrationRequest m => m.nasMessageContainer
  | .serviceRequest m => m.nasMessageContainer
  | _ => none

/-- The decode errors that are told apart. -/
inductive DecodeError
  | mandatoryIEMissing | unknownIEI | invalidLength | lengthExceeded | invalidIEI | other
deriving DecidableEq

/-! ## Downlink NAS messages -/

inductive DlMsg
  | fivegmmStatus (cause : Nat)
  | authenticationRequest (ngKSI : Nat) (abba rand autn : Bytes)
  | authenticationReject
  | securityModeCommand (ciphering integrity ngKSI : Nat) (replayedUESecCap : Bytes)
      (additional5GSecurityInformation : Nat)
  | registrationAccept (registrationResult : Nat) (guti5G : Option Nat) (allowedNSSAI : List Nat)
      (micoIndication : Bool)
  | registrationReject (cause : Nat)
  | identityRequest (identityType : Nat)
  | deregistrationAcceptUEOriginating
  | serviceAccept (pduSessionStatus : Option (List Nat))
deriving DecidableEq

/-! ## Message types -/

abbrev msgRegistrationRequest : UInt8 := 0x41
abbrev msgRegistrationComplete : UInt8 := 0x43
abbrev msgDeregistrationRequestMO : UInt8 := 0x45
abbrev msgDeregistrationAcceptMT : UInt8 := 0x48
abbrev msgServiceRequest : UInt8 := 0x4C
abbrev msgConfigUpdateComplete : UInt8 := 0x55
abbrev msgAuthenticationResponse : UInt8 := 0x57
abbrev msgAuthenticationFailure : UInt8 := 0x59
abbrev msgIdentityResponse : UInt8 := 0x5C
abbrev msgSecurityModeComplete : UInt8 := 0x5E
abbrev msgSecurityModeReject : UInt8 := 0x5F
abbrev msg5GMMStatus : UInt8 := 0x64
abbrev msgULNASTransport : UInt8 := 0x67

/-- `ResponseTypes`: message types the collision check lets through. -/
def responseTypes : List UInt8 :=
  [msgRegistrationComplete, msgDeregistrationAcceptMT, msgConfigUpdateComplete,
    msgAuthenticationResponse, msgAuthenticationFailure, msgIdentityResponse,
    msgSecurityModeComplete, msgSecurityModeReject, msgULNASTransport]

/-! ## 5GMM causes -/

abbrev causeIllegalUE : Nat := 3
abbrev causeUEIdentityCannotBeDerived : Nat := 9
abbrev causeNoNetworkSlicesAvailable : Nat := 62
abbrev causeInvalidMandatoryInfo : Nat := 96
abbrev cause5GMMUnknownOrNotImpl : Nat := 97
abbrev cause5GMMNotCompatibleWithState : Nat := 98
abbrev causeIENonExistentOrNotImpl : Nat := 99
abbrev causeConditionalIEError : Nat := 100
abbrev causeProtocolError : Nat := 111

/-- `causeForNASDecodeError`. -/
def causeForNASDecodeError : DecodeError → Nat
  | .mandatoryIEMissing => causeInvalidMandatoryInfo
  | .unknownIEI => causeIENonExistentOrNotImpl
  | .invalidLength | .lengthExceeded | .invalidIEI => causeConditionalIEError
  | .other => causeProtocolError

end MmtCore.Amf
