import MmtCore.Amf.Run
import MmtCore.Lib.AssocMap

/-!
# N2 handover and Xn path switch

The AMF relays between source and target gNB.  It keeps one `handoverSession` for each channel of a
source gNB, that is its address and an SCTP stream, and finds the session of a message from a
target gNB by that gNB and the stream, else by that gNB alone.

Next to the sessions the state has what a handover is meant to move: the UE contexts, and the
tunnel each downlink FAR forwards to.
-/

namespace MmtCore.Amf.Handover

open MmtCore.Lib

/-- A `*gnbctx.GnbCtx`: the object of one association, with the address of the gNB. -/
structure GnbCtx where
  obj : Nat
  gnbIP : GnbKey
deriving DecidableEq

/-- `wire.Envelope.Type`. -/
inductive MsgType
  | initiatingMessage | successfulOutcome | unsuccessfulOutcome
deriving DecidableEq

/-- The `ProcCode…` of the handover handlers and of what they send. -/
inductive Procedure
  | handoverCancel | handoverNotification | handoverPreparation | handoverResourceAllocation
  | handoverSuccess | ngReset | pathSwitchRequest | ueContextRelease
  | uplinkRANStatusTransfer | downlinkRANStatusTransfer
  | uplinkRANEarlyStatusTransfer | downlinkRANEarlyStatusTransfer
deriving DecidableEq

/-- AMF-UE-NGAP-ID and RAN-UE-NGAP-ID. -/
structure UeIds where
  amfUEID : Nat
  ranUEID : Nat
deriving DecidableEq

/-- The Cause IEs the handlers build or pass on. -/
inductive Cause
  | protocolUnspecified | radioNetworkUnknownTargetID
  | other (choice code : Nat)
deriving DecidableEq

/-- `genngap.TargetID`, as far as it is looked at. -/
inductive TargetID
  | globalGNBID (plmnIdentity : Bytes) (gnbIDPresent : Bool)
  | other
deriving DecidableEq

/-- An AN tunnel: TEID and address. -/
structure Tunnel where
  teid : Nat
  addr : Nat
deriving DecidableEq

structure ParsedHandoverRequired where
  ids : UeIds
  target : Option TargetID
deriving DecidableEq

structure Envelope where
  type : MsgType
  procedureCode : Procedure
  value : Bytes
deriving DecidableEq

/-- The generated NGAP codec. -/
structure Codec where
  /-- What is parsed, and whether the value decodes; nothing is read from one that does not. -/
  handoverRequired : Bytes → Option ParsedHandoverRequired
  /-- `ParseHandoverNotify`: the Notify Source IE. -/
  notifySource : Bytes → Option Bool
  handoverFailureCause : Bytes → Option Cause
  /-- `parsePathSwitchRequest`. -/
  pathSwitchRequest : Bytes → Option UeIds
  handoverPreparationFailureValue : UeIds → Cause → Option Bytes
  handoverCancelAcknowledgeValue : UeIds → Option Bytes
  pathSwitchRequestFailureValue : UeIds → Option Bytes
  /-- The ids in the messages the AMF does not read them from. -/
  ids : Procedure → MsgType → Bytes → UeIds
  /-- The downlink tunnels in a Handover Request Acknowledge or Path Switch Request, by PDU
  session. -/
  tunnels : Procedure → Bytes → List (Nat × Tunnel)

/-- `PathSwitchAcceptor`: the value of the acknowledgement, if there is one, and the decision. -/
abbrev PathSwitchAcceptor := GnbCtx → Bytes → Option Bytes × Bool

/-- The answers of the surroundings while one message is handled. -/
structure Surroundings where
  /-- `gnbctx.Default.All()`, in the order of this call. -/
  all : List GnbCtx
  isConnected : GnbCtx → Bool
  allPLMNs : GnbCtx → List Bytes
  /-- `BuildHandoverRequestValue`, by subscriber. -/
  handoverRequestValue : Imsi → Option ParsedHandoverRequired → Bytes → Option Bytes
  /-- Whether the send made when this many have been made succeeds. -/
  sendOk : Nat → Bool
  /-- Go's map order in the two loops of `lookupSessionByTarget`. -/
  mapOrder : Nat
  acceptor : Option PathSwitchAcceptor

/-! ## Sessions -/

structure HandoverSession where
  sourceGnb : GnbCtx
  targetGnb : GnbCtx
  sourceStream : Nat
  targetStream : Nat
  ids : UeIds
deriving DecidableEq

structure HoSessionKey where
  gnbIP : GnbKey
  stream : Nat
deriving DecidableEq

/-- The key a session is remembered under. -/
def HandoverSession.key (h : HandoverSession) : HoSessionKey :=
  ⟨h.sourceGnb.gnbIP, h.sourceStream⟩

/-- One call of `sendEnvelope`. -/
structure Sent where
  gnb : GnbCtx
  env : Envelope
  stream : Nat
  ok : Bool
deriving DecidableEq

structure State where
  amf : AmfState
  /-- The tunnel the downlink FAR of a PDU session forwards to. -/
  downlink : Imsi → Nat → Option Tunnel
  hoSessions : AssocMap HoSessionKey HandoverSession
  /-- Newest first. -/
  sent : List Sent

def State.init : State := ⟨.init, fun _ _ => none, ∅, []⟩

variable (V : Env) (C : Codec) (X : Surroundings)

def rememberSession (k : HoSessionKey) (h : HandoverSession) (s : State) : State :=
  { s with hoSessions := s.hoSessions.assign k h }

def lookupSession (k : HoSessionKey) (s : State) : Option HandoverSession :=
  s.hoSessions.lookup k

def forgetSession (k : HoSessionKey) (s : State) : State :=
  { s with hoSessions := s.hoSessions.erase k }

/-- The sessions of the map. -/
def sessions (s : State) : List HandoverSession := s.hoSessions.entries.map Sigma.snd

/-- The first session of a loop over the map that meets the test. -/
def pickSession (p : HandoverSession → Bool) (s : State) : Option HandoverSession :=
  let l := (sessions s).filter p
  l[X.mapOrder % l.length]?

/-- The sessions towards this target on this stream. -/
def onStream (target : GnbCtx) (stream : Nat) (h : HandoverSession) : Bool :=
  h.targetGnb == target && h.targetStream == stream

/-- The sessions towards this target. -/
def towards (target : GnbCtx) (h : HandoverSession) : Bool := h.targetGnb == target

def lookupSessionByTarget (target : GnbCtx) (stream : Nat) (s : State) :
    Option HandoverSession :=
  (pickSession X (onStream target stream) s).or (pickSession X (towards target) s)

/-! ## Sending and routing -/

/-- `sendEnvelope`. -/
def sendEnvelope (g : GnbCtx) (env : Envelope) (stream : Nat) (s : State) : State × Bool :=
  let ok := X.sendOk s.sent.length
  ({ s with sent := ⟨g, env, stream, ok⟩ :: s.sent }, ok)

/-- The value that carries nothing. -/
def emptyValue : Bytes := [0x00, 0x00]

def sendHandoverPreparationFailure (source : GnbCtx) (stream : Nat) (ids : UeIds)
    (cause : Cause) (s : State) : State :=
  (sendEnvelope X source
    ⟨.unsuccessfulOutcome, .handoverPreparation,
      (C.handoverPreparationFailureValue ids cause).getD emptyValue⟩ stream s).1

/-- `matchesGlobalGNB`; `gnbIDEquals` is constantly true. -/
def matchesGlobalGNB (g : GnbCtx) (plmnIdentity : Bytes) (gnbIDPresent : Bool) : Bool :=
  plmnIdentity.length == 3 && (X.allPLMNs g).contains plmnIdentity && gnbIDPresent

def matchGnbByTargetID : TargetID → Option GnbCtx
  | .globalGNBID plmn present =>
    X.all.find? fun g => X.isConnected g && matchesGlobalGNB X g plmn present
  | .other => none

/-- `DefaultHandoverRouter`. -/
def targetFor (source : GnbCtx) (value : Bytes) : Option GnbCtx :=
  let byId := ((C.handoverRequired value).bind (·.target)).bind (matchGnbByTargetID X)
  (byId.filter (· ≠ source)).or (X.all.find? fun g => g ≠ source && X.isConnected g)

/-- The ids of a Handover Required, zero where it does not decode. -/
def requiredIds (value : Bytes) : UeIds := ((C.handoverRequired value).map (·.ids)).getD ⟨0, 0⟩

/-! ## Handlers -/

/-- The value of the HANDOVER REQUEST: built for a known UE, else the one received. -/
def handoverRequestValue (value : Bytes) (s : State) : Bytes :=
  let built := (s.amf.lookupByAmfID (requiredIds C value).amfUEID).bind fun r =>
    X.handoverRequestValue (s.amf.ue r).imsi (C.handoverRequired value) value
  built.getD value

def handleHandoverPreparation (source : GnbCtx) (env : Envelope) (stream : Nat) (s : State) :
    State :=
  if env.type ≠ .initiatingMessage then s
  else
    let ids := requiredIds C env.value
    match targetFor C X source env.value with
    | none =>
      sendHandoverPreparationFailure C X source stream ids .radioNetworkUnknownTargetID s
    | some target =>
      let out := sendEnvelope X target
        ⟨.initiatingMessage, .handoverResourceAllocation, handoverRequestValue C X env.value s⟩
        stream s
      if out.2 then
        rememberSession ⟨source.gnbIP, stream⟩ ⟨source, target, stream, stream, ids⟩ out.1
      else sendHandoverPreparationFailure C X source stream ids .protocolUnspecified out.1

def handleHandoverResourceAllocation (target : GnbCtx) (env : Envelope) (stream : Nat)
    (s : State) : State :=
  match lookupSessionByTarget X target stream s with
  | none => s
  | some h =>
    match env.type with
    | .successfulOutcome =>
      let out := sendEnvelope X h.sourceGnb
        ⟨.successfulOutcome, .handoverPreparation, env.value⟩ h.sourceStream s
      if out.2 then rememberSession h.key { h with targetStream := stream } out.1
      else forgetSession h.key out.1
    | .unsuccessfulOutcome =>
      let cause := (C.handoverFailureCause env.value).getD .protocolUnspecified
      forgetSession h.key
        (sendHandoverPreparationFailure C X h.sourceGnb h.sourceStream h.ids cause s)
    | .initiatingMessage => s

/-- The relay of a RAN status transfer, as the procedure `down`. -/
def relayToTarget (down : Procedure) (source : GnbCtx) (value : Bytes) (stream : Nat) (s : State) :
    State :=
  match lookupSession ⟨source.gnbIP, stream⟩ s with
  | none => s
  | some h => (sendEnvelope X h.targetGnb ⟨.initiatingMessage, down, value⟩ h.targetStream s).1

/-- Messages of every type are relayed. -/
def handleUplinkRANStatusTransfer (source : GnbCtx) (env : Envelope) (stream : Nat) (s : State) :
    State :=
  relayToTarget X .downlinkRANStatusTransfer source env.value stream s

def handleUplinkRANEarlyStatus (source : GnbCtx) (env : Envelope) (stream : Nat) (s : State) :
    State :=
  if env.type ≠ .initiatingMessage then s
  else relayToTarget X .downlinkRANEarlyStatusTransfer source env.value stream s

/-- `HandoverSuccessRequired`. -/
def handoverSuccessRequired (notifyValue : Bytes) : Bool :=
  (C.notifySource notifyValue).getD false

/-- UE CONTEXT RELEASE COMMAND; it carries no ids. -/
def releaseUE (g : GnbCtx) (stream : Nat) (s : State) : State :=
  (sendEnvelope X g ⟨.initiatingMessage, .ueContextRelease, emptyValue⟩ stream s).1

def handleHandoverNotification (target : GnbCtx) (env : Envelope) (stream : Nat) (s : State) :
    State :=
  match lookupSessionByTarget X target stream s with
  | none => s
  | some h =>
    if env.type ≠ .initiatingMessage then s
    else
      let s := if handoverSuccessRequired C env.value then
          (sendEnvelope X h.sourceGnb
            ⟨.initiatingMessage, .handoverSuccess, emptyValue⟩ h.sourceStream s).1
        else s
      forgetSession h.key (releaseUE X h.sourceGnb h.sourceStream s)

/-- Messages of every type cancel. -/
def handleHandoverCancel (source : GnbCtx) (_env : Envelope) (stream : Nat) (s : State) : State :=
  match lookupSession ⟨source.gnbIP, stream⟩ s with
  | none => s
  | some h =>
    let s := (sendEnvelope X source
      ⟨.successfulOutcome, .handoverCancel,
        (C.handoverCancelAcknowledgeValue h.ids).getD emptyValue⟩ stream s).1
    forgetSession ⟨source.gnbIP, stream⟩ (releaseUE X h.targetGnb h.targetStream s)

/-- What the acceptor says; without one every path switch is accepted. -/
def pathSwitchDecision (source : GnbCtx) (value : Bytes) : Option Bytes × Bool :=
  match X.acceptor with
  | none => (none, true)
  | some acceptor => acceptor source value

def handlePathSwitchRequest (source : GnbCtx) (env : Envelope) (stream : Nat) (s : State) :
    State :=
  if env.type ≠ .initiatingMessage then s
  else
    let decision := pathSwitchDecision X source env.value
    if decision.2 then
      (sendEnvelope X source
        ⟨.successfulOutcome, .pathSwitchRequest, decision.1.getD emptyValue⟩ stream s).1
    else
      let ids := (C.pathSwitchRequest env.value).getD ⟨0, 0⟩
      (sendEnvelope X source
        ⟨.unsuccessfulOutcome, .pathSwitchRequest,
          (C.pathSwitchRequestFailureValue ids).getD emptyValue⟩ stream s).1

/-- `handleNGReset`, with `releaseAllUEsOnGnb` and `sendNGResetAck`. -/
def handleNGReset (gnb : GnbCtx) (env : Envelope) (s : State) : State :=
  if env.type = .initiatingMessage then
    (sendEnvelope X gnb ⟨.successfulOutcome, .ngReset, emptyValue⟩ 0
      { s with amf := removeAllForGnb gnb.gnbIP s.amf }).1
  else s

/-! ## Steps -/

/-- A message from a gNB. -/
structure Message where
  gnb : GnbCtx
  env : Envelope
  stream : Nat
deriving DecidableEq

/-- The registered handler of the message; the procedures that only go down have none. -/
def handle (m : Message) (s : State) : State :=
  match m.env.procedureCode with
  | .handoverPreparation => handleHandoverPreparation C X m.gnb m.env m.stream s
  | .handoverResourceAllocation => handleHandoverResourceAllocation C X m.gnb m.env m.stream s
  | .handoverNotification => handleHandoverNotification C X m.gnb m.env m.stream s
  | .handoverCancel => handleHandoverCancel C X m.gnb m.env m.stream s
  | .uplinkRANStatusTransfer => handleUplinkRANStatusTransfer X m.gnb m.env m.stream s
  | .pathSwitchRequest => handlePathSwitchRequest C X m.gnb m.env m.stream s
  | .uplinkRANEarlyStatusTransfer => handleUplinkRANEarlyStatus X m.gnb m.env m.stream s
  | .ngReset => handleNGReset X m.gnb m.env s
  | .handoverSuccess | .ueContextRelease | .downlinkRANStatusTransfer
  | .downlinkRANEarlyStatusTransfer => s

inductive Event
  | ngap (X : Surroundings) (m : Message)
  /-- Any other input of the AMF. -/
  | amf (i : Input)
  /-- The SMF has the UPF forward the downlink of a PDU session to a tunnel, or to none. -/
  | userPlane (imsi : Imsi) (pduSessionID : Nat) (tunnel : Option Tunnel)

def step (s : State) : Event → State
  | .ngap X m => handle C X m s
  | .amf i => { s with amf := Amf.step V s.amf i }
  | .userPlane imsi psi tunnel =>
    { s with
      downlink := fun i p => if i = imsi ∧ p = psi then tunnel else s.downlink i p }

end MmtCore.Amf.Handover
