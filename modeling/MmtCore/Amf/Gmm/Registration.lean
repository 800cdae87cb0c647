import MmtCore.Amf.Gmm.Authentication

/-!
# Registration

`registration.go`, `security_context_reuse.go`, `identity.go` and `pdu_reconcile.go`: who the UE
says it is, whether a cached security context is used again, and the registration that follows.
-/

namespace MmtCore.Amf

variable (V : Env) (X : Ext)

/-! ## Identity -/

/-- `DecodeTBCD`: low digit first, up to the first filler. -/
def decodeTBCD : Bytes → Imsi
  | [] => []
  | x :: xs =>
    let lo := x &&& 0x0F
    let hi := x >>> 4
    if lo = 0x0F then []
    else if hi = 0x0F then [0x30 + lo]
    else (0x30 + lo) :: (0x30 + hi) :: decodeTBCD xs

/-- The SUPI of a subscription number; an empty one is no SUPI. -/
def supiOfMSIN (plmn msin : Imsi) : Except SupiError Imsi :=
  if msin = [] then .error .noSUPI else .ok (plmn ++ msin)

/-- `decryptSUCI`. -/
def decryptSUCI (plmn : Imsi) (scheme : Nat) (output : Bytes) : Except SupiError Imsi :=
  match X.unprotectSUCI plmn scheme output with
  | none => .error .other
  | some msin => supiOfMSIN plmn (decodeTBCD msin)

/-- `ResolveSUPI`. -/
def resolveSUPI (s : AmfState) (id : MobileIdentity) (current : Imsi) : Except SupiError Imsi :=
  match id with
  | .suci plmn scheme output =>
    if scheme = 0 then supiOfMSIN plmn (decodeTBCD output)
    else if scheme = 1 ∨ scheme = 2 then decryptSUCI X plmn scheme output
    else .error .other
  | .guti5G tmsi =>
    if current ≠ [] then .ok current
    else
      match s.lookupByTMSI X.mapOrder tmsi with
      | none => .error .noSUPI
      | some cached =>
        if (s.ue cached).imsi = [] then .error .noSUPI else .ok (s.ue cached).imsi
  | .noIdentity => .error .noSUPI
  | .other => .error .other

/-! ## PDU sessions -/

/-- `inactivePSIsFromStatus`. -/
def inactivePSIsFromStatus (psis : List Nat) : List Nat :=
  (List.range' 1 15).filter fun psi => !psis.contains psi

/-- The sessions the UE reports inactive and the SMF still has. -/
def sessionsToRelease (imsi : Imsi) (status : Option (List Nat)) : List Nat :=
  match status with
  | none => []
  | some psis =>
    (inactivePSIsFromStatus psis).filter fun psi => (X.smfSession imsi psi).isSome

/-- Sessions queued for re-activation: the suspended ones of `psis`, each once. -/
def queueReactivations (session : Nat → Option SmfSessionState) (psis pending : List Nat) :
    List Nat :=
  psis.foldl (fun queue psi =>
    if session psi = some .suspended ∧ psi ∉ queue then queue ++ [psi] else queue) pending

/-- The sessions of the SMF once some have been released. -/
def sessionAfter (imsi : Imsi) (released : List Nat) (psi : Nat) : Option SmfSessionState :=
  if psi ∈ released then none else X.smfSession imsi psi

/-- `reconcilePDUSessionsOnRegistration`. -/
def reconcilePDUSessionsOnRegistration (r : Ref) (rr : RegistrationRequest) (s : AmfState) :
    AmfState :=
  let u := s.ue r
  if X.gnbUp u.gnbKey then
    let released := sessionsToRelease X u.imsi rr.pduSessionStatus
    let s := smfCalls u.imsi (released.map .release) s
    match rr.uplinkDataStatus with
    | none => s
    | some psis =>
      s.exec (.book r fun b =>
        { b with
          pendingN1N2Sessions :=
            queueReactivations (sessionAfter X u.imsi released) psis b.pendingN1N2Sessions })
  else s

/-! ## Security context reuse -/

/-- `securityHeaderType` of the outer PDU, which is absent if that was plain. -/
def securityHeaderType : Option Bytes → UInt8
  | some (_ :: sht :: _) => sht
  | _ => 0

/-- `sendRegistrationAcceptReusedContext`. -/
def sendRegistrationAcceptReusedContext (r : Ref) (s : AmfState) : Outcome :=
  let s := s.exec (.setTmsi r X.newTmsi)
  if X.gnbUp (s.ue r).gnbKey then
    let out := initialCtxSetupSend V X r s
    if out.2 then (fire X r .regRequestContextValid (sendRegistrationAccept V X r out.1), true)
    else (out.1, false)
  else (s, false)

/-- Authentication, and the state machine moves to wait for the answer. -/
def authenticateAfresh (r : Ref) (s : AmfState) : AmfState :=
  fire X r .registrationRequest (startAuthentication V X r s)

/-- The request comes from the context that is cached itself. -/
def reuseOwnContext (r : Ref) (rr : RegistrationRequest) (s : AmfState) : AmfState :=
  let out := sendRegistrationAcceptReusedContext V X r s
  if out.2 then
    reconcilePDUSessionsOnRegistration X r rr (out.1.exec (.emit (.contextReused r r)))
  else authenticateAfresh V X r (out.1.exec (.unassignNgksi r))

/-- The existing context gives way to `r`. -/
def replaceContext (existing r : Ref) (s : AmfState) : AmfState :=
  (remove existing s).exec (.insert r)

/-- The keys of a verified cached context move to `r`, whose registration is accepted with them;
where that fails, authentication follows, but no event. -/
def adoptContext (r existing : Ref) (rr : RegistrationRequest) (outer : Bytes)
    (verified : Option Nat) (s : AmfState) : AmfState :=
  let s := match verified with
    | none => s
    | some count =>
      s.exec (.acceptUl existing
        ((s.ue existing).sec.rxPending (securityHeaderType (some outer))) count outer)
  let s := replaceContext existing r (s.exec (.migrate existing r))
  let out := sendRegistrationAcceptReusedContext V X r s
  if out.2 then
    reconcilePDUSessionsOnRegistration X r rr (out.1.exec (.emit (.contextReused r existing)))
  else startAuthentication V X r (out.1.exec (.unassignNgksi r))

/-- The cached context is another one: it is used if the outer PDU verifies under it. -/
def reuseOtherContext (r existing : Ref) (rr : RegistrationRequest) (outer : Bytes)
    (s : AmfState) : AmfState :=
  match reuseNAS V (s.ue existing).sec outer with
  | .error _ => authenticateAfresh V X r (replaceContext existing r s)
  | .ok verified => adoptContext V X r existing rr outer verified s

/-! ## Registration request -/

/-- `InitialRRCleartextOnly`. -/
def RegistrationRequest.cleartextOnly (rr : RegistrationRequest) : Bool :=
  rr.requestedNSSAI.isNone && !rr.micoIndication && rr.pduSessionStatus.isNone &&
    rr.uplinkDataStatus.isNone && !rr.ueStatus

/-- What the handler copies out of the request. -/
def Book.ofRequest (b : Book) (rr : RegistrationRequest) : Book :=
  { b with
    registrationType := rr.registrationType % 8, nasKSI := rr.ngKSI, gmmProc := .registration,
    followOnRequest := rr.followOn, micoRequested := rr.micoIndication,
    initialRRCleartextOnly := rr.cleartextOnly }

/-- The registration is given up: the procedure is marked as running, so that it is rejected. -/
def rejectRegistration (r : Ref) (cause : Nat) (s : AmfState) : AmfState :=
  abortRegistrationAndReleaseN1 V X r cause
    (s.exec (.book r fun b => { b with gmmProc := .registration }))

/-- The subscriber is known and has slices: reuse a context, or authenticate. -/
def registerSubscriber (r : Ref) (rr : RegistrationRequest) (outer : Option Bytes) (supi : Imsi)
    (s : AmfState) : AmfState :=
  let existing := (s.lookupByIMSI supi).getD r
  if canReuseCachedContext (s.ue existing).sec (s.ue r).book.nasKSI then
    if existing = r then reuseOwnContext V X r rr s
    else if securityHeaderType outer ≠ 0 then
      reuseOtherContext V X r existing rr (outer.getD []) s
    else
      -- the plain branch removes the context, and so does the fall-through
      authenticateAfresh V X r (replaceContext existing r (remove existing s))
  else if existing = r then authenticateAfresh V X r (s.exec (.insert r))
  else authenticateAfresh V X r (replaceContext existing r s)

/-- The SUPI is resolved and stored. -/
def registerSUPI (r : Ref) (rr : RegistrationRequest) (inner : Bytes) (outer : Option Bytes)
    (supi : Imsi) (s : AmfState) : AmfState :=
  let s := s.exec (.book r fun b => { b with lastRegRequestPDU := inner })
  if X.authData supi = false then rejectRegistration V X r causeIllegalUE s
  else
    let s := runNSSFWithRequested X r rr.requestedNSSAI s
    if (s.ue r).book.allowedNSSAI = [] then
      rejectRegistration V X r causeNoNetworkSlicesAvailable s
    else registerSubscriber V X r rr outer supi s

/-- The capability is stored if the request carries one. -/
def storeUESecCap (r : Ref) (cap : Option Bytes) (s : AmfState) : AmfState :=
  match cap with
  | none => s
  | some c => s.exec (.setUESecCap r c)

/-- `handleRegistrationRequest` on a request that decodes. -/
def registrationRequest (r : Ref) (rr : RegistrationRequest) (inner : Bytes)
    (outer : Option Bytes) (s : AmfState) : AmfState :=
  let s := s.exec (.book r fun b => b.ofRequest rr)
  let s := storeUESecCap r rr.ueSecurityCapability s
  match resolveSUPI X s rr.mobileIdentity (s.ue r).imsi with
  | .ok supi => registerSUPI V X r rr inner outer supi (s.exec (.setImsi r supi))
  | .error .noSUPI => sendIdentityRequest V X r identityTypeSUCI s
  | .error .other => abortRegistrationAndReleaseN1 V X r causeUEIdentityCannotBeDerived s

/-- The answer to a duplicate: the cached PDU once more, if there is one. -/
def resendCachedNAS (r : Ref) (s : AmfState) : AmfState :=
  let pdu := (s.ue r).book.retxNASPDU
  if pdu ≠ [] ∧ X.gnbUp (s.ue r).gnbKey then (dlnasSend V X r pdu s).1 else s

/-- The request repeats the last one, from a UE that is not registered. -/
def Ue.isDuplicateRequest (u : Ue) (inner : Bytes) : Bool :=
  !u.book.lastRegRequestPDU.isEmpty && inner == u.book.lastRegRequestPDU && u.rm != .registered

def handleRegistrationRequest (r : Ref) (inner : Bytes) (outer : Option Bytes) (s : AmfState) :
    AmfState :=
  if (s.ue r).isDuplicateRequest inner then resendCachedNAS V X r s
  else
    match V.decode inner with
    | .error e => rejectRegistration V X r (causeForNASDecodeError e) s
    | .ok (.registrationRequest rr) => registrationRequest V X r rr inner outer s
    | .ok _ => rejectRegistration V X r causeProtocolError s

def handleRegistrationComplete (r : Ref) (inner : Bytes) (s : AmfState) : AmfState :=
  let guard := allowedIn V X r .registeredInitiated s
  let s := guard.1
  if guard.2 = false then s
  else if (s.ue r).rm = .registered then s
  else
    match V.decode inner with
    | .ok .registrationComplete =>
      let s := s.exec (.setRm r .registered)
      let s := s.exec (.book r fun b =>
        { b with cm := .connected, gmmProc := .none, gmmSub := .none })
      fire X r .registrationComplete s
    | _ => s

/-! ## Identity response -/

/-- The prior holder of the SUPI leaves the registry, and `r` is entered under it. -/
def takeOverSUPI (r : Ref) (supi : Imsi) (s : AmfState) : AmfState :=
  let s := match s.lookupByIMSI supi with
    | none => s
    | some prior => if prior = r then s else remove prior s
  s.exec (.insert r)

/-- `handleIdentityResponse` once the SUPI is resolved. -/
def identityResolved (r : Ref) (supi : Imsi) (s : AmfState) : AmfState :=
  let s := takeOverSUPI r supi (s.exec (.setImsi r supi))
  if (s.ue r).book.gmmProc = .registration then
    if X.authData supi = false then abortRegistrationAndReleaseN1 V X r causeIllegalUE s
    else
      fire X r .identityResponse (startAuthentication V X r (runNSSFWithRequested X r none s))
  else fire X r .identityResponse s

def handleIdentityResponse (r : Ref) (inner : Bytes) (s : AmfState) : AmfState :=
  let guard := allowedIn V X r .identification s
  let s := guard.1
  if guard.2 = false then s
  else
    match V.decode inner with
    | .ok (.identityResponse id) =>
      match resolveSUPI X s id (s.ue r).imsi with
      | .ok supi => identityResolved V X r supi s
      | .error _ =>
        abortRegistrationAndReleaseN1 V X r causeUEIdentityCannotBeDerived
          (fire X r .identityResponseFail s)
    | _ =>
      abortRegistrationAndReleaseN1 V X r causeProtocolError (fire X r .identityResponseFail s)

end MmtCore.Amf
