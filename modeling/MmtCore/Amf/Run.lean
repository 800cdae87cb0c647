import Mathlib
import MmtCore.Amf.Gmm.Dispatch

/-!
# Runs of the AMF

One step of the AMF is one input: an NGAP message from a gNB, a timer, a gNB association going
down, or a request of another network function to send a NAS message.  Every input comes with the
answers of the surroundings while it is handled.
-/

namespace MmtCore.Amf

variable (V : Env) (X : Ext)

inductive Event
  | initialUE (gnb : GnbKey) (ran : Nat) (nas : Bytes) (fiveGSTMSI : Option Nat)
      (ueContextRequest : Bool)
  | uplinkNAS (gnb : GnbKey) (amfId ran : Nat) (nas : Bytes)
  | ueContextReleaseRequest (gnb : GnbKey) (amfId ran : Nat) (userInactivity : Bool)
      (psis : List Nat)
  | ueContextReleaseComplete (gnb : GnbKey) (amfId ran : Nat) (psis : List Nat)
  | initialContextSetupResponse (gnb : GnbKey) (amfId ran : Nat)
  | initialContextSetupFailure (gnb : GnbKey) (amfId ran : Nat)
  | gnbDown (gnb : GnbKey)
  /-- A timer with retransmission runs out, and tries are left. -/
  | retransmit (r : Ref) (t : Timer)
  | expire (r : Ref) (t : Timer)
  /-- `sendDLNASByIMSI`. -/
  | sendDLNAS (imsi : Imsi) (nasPDU : Bytes)

structure Input where
  ext : Ext
  ev : Event

/-! ## Finding the context -/

/-- `locateUE`: by AMF-UE-NGAP-ID, else by RAN key. -/
def locateUE (gnb : GnbKey) (amfId ran : Nat) (s : AmfState) : Option Ref :=
  let byId := if amfId = 0 then none else s.lookupByAmfID amfId
  byId.or (if ran = 0 then none else s.lookupByRanKey gnb ran)

/-! ## Initial UE message -/

/-- A context found by its 5G-S-TMSI moves to the new connection, in place. -/
def rebindByTMSI (r : Ref) (gnb : GnbKey) (ran : Nat) (s : AmfState) : AmfState :=
  (s.exec (.rebind r gnb ran)).exec (.book r fun b =>
    { b with ngapProc := .none, gmmProc := .none, gmmSub := .none, retxNASPDU := [] })

/-- A new context for the connection. -/
def newContext (gnb : GnbKey) (ran id : Nat) (s : AmfState) : AmfState :=
  (s.exec (.create id ran gnb)).exec (.insert s.nref)

/-- The context of an initial UE message; `none` only when no id is free. -/
def contextForInitialUE (gnb : GnbKey) (ran : Nat) (fiveGSTMSI : Option Nat) (s : AmfState) :
    Option (Ref × AmfState) :=
  match s.lookupByRanKey gnb ran with
  | some r => some (r, s)
  | none =>
    match fiveGSTMSI.bind (s.lookupByTMSI X.mapOrder) with
    | some r => some (r, rebindByTMSI r gnb ran s)
    | none => s.allocateAmfID.map fun id => (s.nref, newContext gnb ran id s)

/-- `initialue.Handle`. -/
def initialUEHandle (gnb : GnbKey) (ran : Nat) (nas : Bytes) (fiveGSTMSI : Option Nat)
    (ueContextRequest : Bool) (s : AmfState) : AmfState :=
  if ran = 0 ∨ nas = [] then s
  else
    match contextForInitialUE X gnb ran fiveGSTMSI s with
    | none => s
    | some (r, s) =>
      dispatch V X r nas (s.exec (.book r fun b =>
        { b with cm := .connected, ueContextRequest := ueContextRequest }))

/-! ## Other NGAP messages -/

/-- `ulnas.Handle`. -/
def uplinkNASHandle (gnb : GnbKey) (amfId ran : Nat) (nas : Bytes) (s : AmfState) : AmfState :=
  match locateUE gnb amfId ran s with
  | none => s
  | some r => dispatch V X r nas (s.exec (.cancel r .t3513))

/-- `handleRequest` of the UE context release, once the context is found. -/
def releaseRequest (r : Ref) (userInactivity : Bool) (psis : List Nat) (s : AmfState) :
    AmfState :=
  if userInactivity ∧ (s.ue r).book.retxNASPDU ≠ [] then s
  else
    let s := if psis = [] then s
      else s.exec (.book r fun b => { b with pendingReleasePDUList := psis })
    let s := s.exec (.cancelAll r)
    let s := s.exec (.book r fun b =>
      { b with cm := .idle, gnbContextEstablished := false, ngapProc := .none })
    let s := if (s.ue r).book.gmmProc = .none then s
      else endProcedure r (onNASLowerLayerFailure r s)
    sendCommand X r s

/-- The sessions of `ids` become suspended. -/
def markSuspended (ids : List Nat) (l : List (Nat × PduState)) : List (Nat × PduState) :=
  l.map fun p => if ids.contains p.1 then (p.1, .suspended) else p

/-- `suspendPDUSessions`, with the list of the message or else the one kept from the request. -/
def suspendPDUSessions (r : Ref) (psis : List Nat) (s : AmfState) : AmfState :=
  let u := s.ue r
  let ids := if psis = [] then u.book.pendingReleasePDUList else psis
  if u.pduSessions = [] ∨ ids = [] then s
  else
    let known := ids.filter fun id => (u.pduSessions.map Prod.fst).contains id
    let s := s.exec (.setSessions r (markSuspended ids u.pduSessions))
    let s := smfCalls u.imsi (known.map .deactivateUserPlane) s
    s.exec (.book r fun b => { b with pendingReleasePDUList := [] })

/-- `handleComplete` of the UE context release, once the context is found. -/
def releaseComplete (r : Ref) (ran : Nat) (psis : List Nat) (s : AmfState) : AmfState :=
  if ran ≠ 0 ∧ ran ≠ (s.ue r).ranUeNgapId then s
  else
    let s := s.exec (.book r fun b =>
      { b with ngapProc := .none, gnbContextEstablished := false, cm := .idle })
    let s := suspendPDUSessions r psis s
    if (s.ue r).rm = .registered then s
    else if (s.ue r).book.hardRemoveOnComplete then
      remove r (s.exec (.book r fun b => { b with hardRemoveOnComplete := false }))
    else clearVolatile r s

/-- The initial context setup is answered: what waited for it is sent. -/
def icsResponse (r : Ref) (s : AmfState) : AmfState :=
  drainPendingReactivations V X r (s.exec (.book r fun b =>
    { b with gnbContextEstablished := true, ngapProc := .none }))

def icsFailure (r : Ref) (s : AmfState) : AmfState :=
  s.exec (.book r fun b => { b with gnbContextEstablished := false, ngapProc := .none })

/-- The contexts of a gNB. -/
def contextsOfGnb (gnb : GnbKey) (s : AmfState) : List Ref :=
  (List.range s.nref).filter fun r => decide (s.Live r) && (s.ue r).gnbKey == gnb

/-- `RemoveAllForGnb`: first the indexes, then the hooks. -/
def removeAllForGnb (gnb : GnbKey) (s : AmfState) : AmfState :=
  let victims := contextsOfGnb gnb s
  let s := victims.foldl (fun s r => s.exec (.unindex r)) s
  victims.foldl (fun s r => removeHooks r s) s

/-! ## Timers and other network functions -/

/-- The timers whose expiries first retransmit. -/
def Timer.retransmits : Timer → Bool
  | .t3560 | .t3550 | .t3570 | .t3522 | .t3555 => true
  | .t3512 | .t3513 | .twaitUECtxRelease => false

/-- `retransmitLastNAS`. -/
def retransmitLastNAS (r : Ref) (s : AmfState) : AmfState := resendCachedNAS V X r s

/-- A retransmission, while the timer is armed. -/
def retransmitTimer (r : Ref) (t : Timer) (s : AmfState) : AmfState :=
  if t.retransmits ∧ ((s.ue r).timers t).isSome then retransmitLastNAS V X r s else s

/-- The timer is taken off and its event fired. -/
def expireTimer (r : Ref) (t : Timer) (s : AmfState) : AmfState :=
  match (s.ue r).timers t with
  | none => s
  | some ev => fire X r ev (s.exec (.cancel r t))

/-- `sendDLNASByIMSI`. -/
def sendDLNASByIMSI (imsi : Imsi) (nasPDU : Bytes) (s : AmfState) : AmfState :=
  match s.lookupByIMSI imsi with
  | none => s
  | some r => if X.gnbUp (s.ue r).gnbKey then (dlnasSend V X r nasPDU s).1 else s

/-! ## Steps -/

/-- Applies `f` to the context a message is about, if there is one. -/
def withUE (gnb : GnbKey) (amfId ran : Nat) (f : Ref → AmfState → AmfState) (s : AmfState) :
    AmfState :=
  match locateUE gnb amfId ran s with
  | none => s
  | some r => f r s

def stepEvent (s : AmfState) : Event → AmfState
  | .initialUE gnb ran nas tmsi req => initialUEHandle V X gnb ran nas tmsi req s
  | .uplinkNAS gnb amfId ran nas => uplinkNASHandle V X gnb amfId ran nas s
  | .ueContextReleaseRequest gnb amfId ran inactive psis =>
    withUE gnb amfId ran (fun r => releaseRequest X r inactive psis) s
  | .ueContextReleaseComplete gnb amfId ran psis =>
    withUE gnb amfId ran (fun r => releaseComplete r ran psis) s
  | .initialContextSetupResponse gnb amfId ran => withUE gnb amfId ran (icsResponse V X) s
  | .initialContextSetupFailure gnb amfId ran => withUE gnb amfId ran icsFailure s
  | .gnbDown gnb => removeAllForGnb gnb s
  | .retransmit r t => retransmitTimer V X r t s
  | .expire r t => expireTimer X r t s
  | .sendDLNAS imsi nasPDU => sendDLNASByIMSI V X imsi nasPDU s

def step (s : AmfState) (i : Input) : AmfState := stepEvent V i.ext s i.ev

/-! ## A laboratory network

One gNB, one subscriber and a UE without ciphering, to evaluate the model on.  The codec and the
cryptographic functions are tables: they agree with the real ones where the runs below and in the
later files look them up. -/

namespace Lab

def gnb : GnbKey := [0x67, 0x31]

/-- K_AMF of the subscriber's vectors. -/
def kamf : Bytes := (List.range 32).map UInt8.ofNat

def av : Av where
  rand := List.replicate 16 0x11
  autn := List.replicate 16 0x22
  xresStar := List.replicate 16 0x33
  kausf := List.replicate 32 0x44
  kseaf := List.replicate 32 0x55
  kamf := kamf

/-- The keys that NEA0 and 128-NIA2 derive from `kamf`, as halves of 32 bytes. -/
def knasEnc : Bytes :=
  [0x89, 0x49, 0x41, 0xF6, 0x36, 0x89, 0x9F, 0x00, 0xCC, 0x79, 0xCC, 0xE1,
   0x35, 0x77, 0xC5, 0xC6]

def knasInt : Bytes :=
  [0x67, 0x06, 0x1E, 0x8E, 0xAB, 0x07, 0xC4, 0x0F, 0x4A, 0xAC, 0x97, 0x7D,
   0xD4, 0xA1, 0xE5, 0xFC]

/-- The subscriber of the MSIN 0000000001. -/
def supi : Imsi := [0x30, 0x30, 0x31, 0x30, 0x31] ++ List.replicate 9 0x30 ++ [0x31]

/-- The 5G-TMSI given out. -/
def tmsi : Nat := 0xC0000001

def securityCapability : Bytes := [0xA0, 0x20]

/-- SUCI with the null scheme, UE security capability, requested NSSAI; no key set identifier. -/
def registrationRequestPDU : Bytes :=
  [0x7E, 0x00, 0x41, 0x71, 0x00, 0x0D, 0x01, 0x00, 0xF1, 0x10, 0xF0, 0xFF, 0x00, 0x00, 0x00, 0x00,
    0x00, 0x00, 0x10, 0x2E, 0x02, 0xA0, 0x20, 0x2F, 0x02, 0x01, 0x01]

/-- The 5G-GUTI, and key set identifier 0. -/
def gutiRequestPDU : Bytes :=
  [0x7E, 0x00, 0x41, 0x01, 0x00, 0x0B, 0xF2, 0x00, 0xF1, 0x10, 0x01, 0x00, 0x40, 0xC0, 0x00, 0x00,
    0x01, 0x2F, 0x02, 0x01, 0x01]

def authenticationResponsePDU : Bytes := [0x7E, 0x00, 0x57, 0x2D, 0x10] ++ av.xresStar

def securityModeCompletePDU : Bytes := [0x7E, 0x00, 0x5E]

def registrationCompletePDU : Bytes := [0x7E, 0x00, 0x43]

def registrationRequest (ngKSI : Nat) (id : MobileIdentity) (cap : Option Bytes) :
    RegistrationRequest where
  registrationType := 1
  followOn := false
  ngKSI := ngKSI
  mobileIdentity := id
  ueSecurityCapability := cap
  micoIndication := false
  requestedNSSAI := some [0x01, 0x01]
  pduSessionStatus := none
  uplinkDataStatus := none
  ueStatus := false
  nasMessageContainer := none

def decode (b : Bytes) : Except DecodeError NasMsg :=
  if b = registrationRequestPDU then
    .ok (.registrationRequest (registrationRequest 7
      (.suci [0x30, 0x30, 0x31, 0x30, 0x31] 0 [0x00, 0x00, 0x00, 0x00, 0x10])
      (some securityCapability)))
  else if b = gutiRequestPDU then
    .ok (.registrationRequest (registrationRequest 0 (.guti5G tmsi) none))
  else if b = authenticationResponsePDU then .ok (.authenticationResponse (some av.xresStar))
  else if b = securityModeCompletePDU then .ok (.securityModeComplete none)
  else if b = registrationCompletePDU then .ok .registrationComplete
  else .error .other

def be16 (n : Nat) : Bytes := [UInt8.ofNat (n / 256), UInt8.ofNat n]

def be32 (n : Nat) : Bytes := be16 (n / 65536) ++ be16 (n % 65536)

/-- The IEs the model knows, in the order of the codec; PLMN 001/01. -/
def encode : DlMsg → Bytes
  | .fivegmmStatus cause => [0x7E, 0x00, 0x64, UInt8.ofNat cause]
  | .authenticationRequest ngKSI abba rand autn =>
    [0x7E, 0x00, 0x56, UInt8.ofNat ngKSI, UInt8.ofNat abba.length] ++ abba ++ 0x21 :: rand ++
      [0x20, UInt8.ofNat autn.length] ++ autn
  | .authenticationReject => [0x7E, 0x00, 0x58]
  | .securityModeCommand ciphering integrity ngKSI cap additional =>
    [0x7E, 0x00, 0x5D, UInt8.ofNat (ciphering * 16 + integrity), UInt8.ofNat ngKSI,
      UInt8.ofNat cap.length] ++ cap ++ [0x36, 0x01, UInt8.ofNat additional]
  | .registrationAccept result guti5G allowedNSSAI mico =>
    [0x7E, 0x00, 0x42, 0x01, UInt8.ofNat result] ++
      (match guti5G with
        | none => []
        | some t => [0x77, 0x00, 0x0B, 0xF2, 0x00, 0xF1, 0x10, 0x01, 0x00, 0x40] ++ be32 t) ++
      [0x15, UInt8.ofNat (2 * allowedNSSAI.length)] ++
      allowedNSSAI.flatMap (fun sst => [0x01, UInt8.ofNat sst]) ++ if mico then [0xB0] else []
  | .registrationReject cause => [0x7E, 0x00, 0x44, UInt8.ofNat cause]
  | .identityRequest idType => [0x7E, 0x00, 0x5B, UInt8.ofNat idType]
  | .deregistrationAcceptUEOriginating => [0x7E, 0x00, 0x46]
  | .serviceAccept none => [0x7E, 0x00, 0x4E]
  | .serviceAccept (some psis) =>
    [0x7E, 0x00, 0x4E, 0x50, 0x02] ++
      be16 ((psis.map fun psi => 2 ^ ((psi + 8) % 16)).sum)

/-- SECURITY MODE COMPLETE under the new keys, with count 0. -/
def protectedCompletePDU : Bytes := [0x7E, 0x04] ++ [0x00, 0xB5, 0x4A, 0x17] ++ 0x00 :: securityModeCompletePDU

/-- The command and the accept of the runs below, as encoded. -/
def securityModeCommandPDU : Bytes := encode (.securityModeCommand 0 2 0 securityCapability 0)

def registrationAcceptPDU : Bytes := encode (.registrationAccept 0x09 (some tmsi) [1] false)

/-- 128-NIA2 where the runs need it. -/
def macs : List ((Bytes × Nat × Direction × Bytes) × Bytes) :=
  [ ((knasInt, 0, .downlink, 0x00 :: securityModeCommandPDU), [0x55, 0xF8, 0xBA, 0xEF]),
    ((knasInt, 1, .downlink, 0x01 :: registrationAcceptPDU), [0x08, 0xDC, 0xAC, 0xD4]),
    ((knasInt, 2, .downlink, 0x02 :: registrationAcceptPDU), [0x90, 0xD7, 0x07, 0x5B]),
    ((knasInt, 0, .uplink, 0x00 :: securityModeCompletePDU), [0x00, 0xB5, 0x4A, 0x17]) ]

theorem macs_length : ∀ p ∈ macs, p.2.length = 4 := by decide

def nia2 (key : Bytes) (count : Nat) (dir : Direction) (msg : Bytes) : Bytes :=
  match macs.find? fun p => p.1 == (key, count, dir, msg) with
  | some p => p.2
  | none => [0, 0, 0, 0]

def convA8 (k : Bytes) (t : AlgType) (alg : Nat) : Bytes :=
  List.replicate 16 0 ++
    if k = kamf ∧ t = .nasEnc ∧ alg = 0 then knasEnc
    else if k = kamf ∧ t = .nasInt ∧ alg = 2 then knasInt
    else List.replicate 16 0

/-- K_gNB for the counts of the runs. -/
def convA9 (k : Bytes) (count : Nat) : Bytes :=
  if k = kamf ∧ count = 0 then
    [0xAA, 0x46, 0x10, 0x31, 0x35, 0xA4, 0xC5, 0x02, 0x8C, 0x57, 0x99, 0xFF, 0x45, 0xE0,
     0x72, 0xB2, 0x17, 0xAD, 0x1D, 0x2A, 0x25, 0xFA, 0xA1, 0xF4, 0xBA, 0x89, 0x81, 0x05,
     0xE9, 0x6C, 0xE6, 0x64]
  else if k = kamf ∧ count = countMod - 1 then
    [0xAD, 0x82, 0x4B, 0xF3, 0x30, 0xFD, 0x0A, 0xC9, 0x1C, 0x5B, 0xCF, 0xFE, 0x66, 0xAC,
     0x49, 0x7D, 0x54, 0x97, 0x11, 0xF5, 0x55, 0x84, 0x9C, 0x11, 0x14, 0xB0, 0x6D, 0x96,
     0x91, 0x91, 0xD2, 0xDF]
  else List.replicate 32 0

def env : Env where
  decode := decode
  encode m := some (encode m)
  nia2 := nia2
  nea2 := fun _ _ _ m => m
  convA8 := convA8
  convA9 := convA9
  cipheringAlgos := [⟨.nea0, 0⟩]
  integrityAlgos := [⟨.nia2, 2⟩]
  guamiConfigured := true
  encode_plain := by
    rintro m b h
    cases h
    cases m with
    | serviceAccept status => cases status <;> exact ⟨_, rfl⟩
    | _ => exact ⟨_, rfl⟩
  container_length := by
    intro b m c hdec hc
    unfold decode at hdec
    split at hdec
    · cases hdec; cases hc
    split at hdec
    · cases hdec; cases hc
    split at hdec
    · cases hdec; cases hc
    split at hdec
    · cases hdec; cases hc
    split at hdec
    · cases hdec; cases hc
    · cases hdec
  convA8_length := by
    intro k t a
    unfold convA8
    split
    · rfl
    split <;> rfl
  nia2_length := by
    intro k c d m
    unfold nia2
    split
    · rename_i hfind
      exact macs_length _ (List.mem_of_find?_eq_some hfind)
    · rfl
  nea2_length := by simp

/-- Everything succeeds; the UDM and the AUSF know the one subscriber. -/
def ext : Ext where
  gnbUp := fun _ => true
  gnbConnected := fun _ => true
  sendOk := fun _ => true
  authData := fun imsi => imsi == supi
  selectAllowedNSSAI := fun _ _ => [1]
  generateAV := fun imsi => if imsi = supi then some av else none
  unprotectSUCI := fun _ _ _ => none
  newTmsi := tmsi
  newTmsi_ne_zero := by decide
  mapOrder := 0
  smfSession := fun _ _ => none
  smfSessions := fun _ => []
  ptiStart := fun _ _ => .fresh
  buildSmReject := fun _ _ => none
  establish := fun _ _ => .error
  releaseWithCause := fun _ _ => none
  modify := fun _ _ => none
  setupEncodes := fun _ => true
  processMOSMS := fun _ _ => none

/-- A first message on the connection `ran` of the gNB. -/
def initial (ran : Nat) (pdu : Bytes) (fiveGSTMSI : Option Nat) : Input :=
  ⟨ext, .initialUE gnb ran pdu fiveGSTMSI true⟩

/-- A further message of the context with this AMF-UE-NGAP-ID. -/
def uplink (amfId ran : Nat) (pdu : Bytes) : Input := ⟨ext, .uplinkNAS gnb amfId ran pdu⟩

/-- The registration up to the security mode command. -/
def commanded : List Input :=
  [initial 1 registrationRequestPDU none, uplink 1 1 authenticationResponsePDU]

/-- The whole registration. -/
def registered : List Input :=
  commanded ++ [uplink 1 1 protectedCompletePDU, uplink 1 1 registrationCompletePDU]

end Lab

end MmtCore.Amf
