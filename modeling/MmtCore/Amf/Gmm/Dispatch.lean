import MmtCore.Amf.Gmm.Service

/-!
# Dispatch of an uplink 5GMM PDU

`dispatch.go`: receive, unpack the NAS message container if there is one, resolve collisions with
the running procedure, and hand the message to its handler.  A container is dispatched again as
a PDU of its own; the recursion is on a bound for the length of what is left.
-/

namespace MmtCore.Amf

variable (V : Env) (X : Ext)

/-- `expandNASMessageContainer`: the message inside, in the clear. -/
def expandNASMessageContainer (sec : SecurityCtx) (msgType : UInt8) (inner : Bytes) :
    Option Bytes :=
  if msgType = msgRegistrationRequest ∨ msgType = msgDeregistrationRequestMO ∨
      msgType = msgServiceRequest then
    match V.decode inner with
    | .error _ => none
    | .ok m =>
      match nasMessageContainer m with
      | none | some [] => none
      | some (c :: cs) =>
        match containerBytes V sec (c :: cs) with
        | .error _ => none
        | .ok bytes => if isFivegmm bytes then some bytes else none
  else none

/-- `checkCollision`: whether the message goes on to its handler. -/
def checkCollision (r : Ref) (msgType : UInt8) (s : AmfState) : Outcome :=
  if msgType ∈ responseTypes then (s, true)
  else if (s.ue r).book.gmmProc = .none then (s, true)
  else if msgType = msgRegistrationRequest ∨ msgType = msgDeregistrationRequestMO then
    (abortCurrentProcedure r s, true)
  else if msgType = msgServiceRequest then (s, false)
  else (s, true)

/-- The handler registered for the message type. -/
def handle (r : Ref) (msgType : UInt8) (inner : Bytes) (outer : Option Bytes) (s : AmfState) :
    AmfState :=
  if msgType = msgRegistrationRequest then handleRegistrationRequest V X r inner outer s
  else if msgType = msgRegistrationComplete then handleRegistrationComplete V X r inner s
  else if msgType = msgDeregistrationRequestMO then handleDeregistrationRequestMO V X r inner s
  else if msgType = msgDeregistrationAcceptMT then handleDeregistrationAcceptFromUE X r s
  else if msgType = msgServiceRequest then handleServiceRequest V X r inner s
  else if msgType = msgConfigUpdateComplete then handleConfigUpdateComplete V X r inner s
  else if msgType = msgAuthenticationResponse then handleAuthenticationResponse V X r inner s
  else if msgType = msgAuthenticationFailure then handleAuthenticationFailure V X r inner s
  else if msgType = msgIdentityResponse then handleIdentityResponse V X r inner s
  else if msgType = msgSecurityModeComplete then handleSecurityModeComplete V X r inner s
  else if msgType = msgSecurityModeReject then handleSecurityModeReject V X r inner s
  else if msgType = msg5GMMStatus then handle5GMMStatus V X r inner s
  else if msgType = msgULNASTransport then handleULNASTransport V X r inner s
  else send5GMMStatus V X r cause5GMMUnknownOrNotImpl s

/-- The message type octet. -/
def msgTypeOf : Bytes → UInt8
  | _ :: _ :: t :: _ => t
  | _ => 0

/-- The message without a container goes through the collision check to its handler. -/
def handleMessage (r : Ref) (inner : Bytes) (outer : Option Bytes) (s : AmfState) : AmfState :=
  let out := checkCollision r (msgTypeOf inner) s
  if out.2 then handle V X r (msgTypeOf inner) inner outer out.1 else out.1

/-- The count of a verified PDU is stored. -/
def storeUl (r : Ref) (pdu : Bytes) (m : RxMeta) (s : AmfState) : AmfState :=
  if m.verified then s.exec (.acceptUl r ((s.ue r).sec.rxPending m.sht) m.ulCount pdu) else s

/-- `dispatchWithOuter`. -/
def dispatchWithOuter : Nat → Ref → Bytes → Option Bytes → AmfState → AmfState
  | 0, _, _, _, s => s
  | fuel + 1, r, pdu, outer, s =>
    match rxNAS V (s.ue r).sec pdu with
    | .error _ => s
    | .ok (inner, m) =>
      let s := storeUl r pdu m s
      if inner.length < 3 then s
      else
        match expandNASMessageContainer V (s.ue r).sec (msgTypeOf inner) inner with
        | some expanded => dispatchWithOuter fuel r expanded outer s
        | none => handleMessage V X r inner outer s

/-- The PDU as the handlers see it: only one with a security header. -/
def outerPDU (pdu : Bytes) : Option Bytes :=
  match pdu with
  | _ :: sht :: _ => if sht = 0 then none else some pdu
  | _ => none

/-- `Dispatch`. -/
def dispatch (r : Ref) (pdu : Bytes) (s : AmfState) : AmfState :=
  dispatchWithOuter V X (pdu.length + 1) r pdu (outerPDU pdu) s

end MmtCore.Amf
