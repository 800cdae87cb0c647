import MmtCore.Ims.Register

/-!
# Registrations

The per-IMPI state machine of `registration.go` and the handler that drives it.  The machine takes
one event at a time; the handler of a protected REGISTER asks it for the challenge, verifies the
response, and sends the outcome as a later event.  A timer that has run out has put its event in
the queue, and to stop it then is too late.
-/

namespace MmtCore.Ims

open MmtCore.Lib

inductive RegState
  | notRegistered | challenged | registered
deriving DecidableEq

/-- The events of the two timers; a registration timer knows the registration it was armed for. -/
inductive Timeout
  | challenge
  | regExpires (number : Nat)
deriving DecidableEq

structure RegResult where
  code : Nat
  reason : String
  challenge : Option AuthVec
deriving DecidableEq

structure Registration where
  impu : Text
  contact : Text
  expires : Int
  av : Option AuthVec
  state : RegState
  challengeTimer : Bool
  regExpiresTimer : Option Nat
  /-- The timeouts in the queue. -/
  fired : List Timeout
  /-- How many times the machine has registered. -/
  number : Nat

namespace Registration

def new : Registration := ⟨[], [], 0, none, .notRegistered, false, none, [], 0⟩

variable (r : Registration)

def onUnprotected (av : Option AuthVec) : Registration × RegResult :=
  match av with
  | none => (r, ⟨500, "no_av_supplied", none⟩)
  | some av =>
    if r.state ≠ .notRegistered ∧ r.state ≠ .registered then (r, ⟨500, "bad_state", none⟩)
    else
      ({ r with av := some av, state := .challenged, challengeTimer := true },
        ⟨401, "Unauthorized", some av⟩)

def onProtected (impu contact : Text) (expires : Int) (authOK : Bool) : Registration × RegResult :=
  if r.state ≠ .challenged then (r, ⟨403, "not_challenged", none⟩)
  else if ¬ authOK then
    ({ r with av := none, state := .notRegistered, challengeTimer := false },
      ⟨403, "auth_failed", none⟩)
  else
    let expires := if expires ≤ 0 then 600 else expires
    ({ r with
        impu := impu
        contact := contact
        expires := expires
        av := none
        state := .registered
        challengeTimer := false
        regExpiresTimer := some (r.number + 1)
        number := r.number + 1 },
      ⟨200, "OK", none⟩)

/-- `onDeregister` and `onNetworkDeregister`. -/
def wiped : Registration :=
  { r with
    impu := []
    contact := []
    expires := 0
    av := none
    state := .notRegistered
    challengeTimer := false
    regExpiresTimer := none }

def onDeregister : Registration × RegResult := (r.wiped, ⟨200, "OK", none⟩)

def onChallengeTimeout : Registration :=
  if r.state ≠ .challenged then r else { r with av := none, state := .notRegistered }

def onRegExpireTimeout : Registration :=
  if r.state ≠ .registered then r
  else { r with impu := [], contact := [], expires := 0, state := .notRegistered }

def onTimeout : Timeout → Registration
  | .challenge => r.onChallengeTimeout
  | .regExpires _ => r.onRegExpireTimeout

/-- A timer runs out: its event joins the queue. -/
def fireChallenge : Registration :=
  if r.challengeTimer then
    { r with challengeTimer := false, fired := r.fired ++ [.challenge] }
  else r

def fireRegExpires : Registration :=
  match r.regExpiresTimer with
  | none => r
  | some n => { r with regExpiresTimer := none, fired := r.fired ++ [.regExpires n] }

/-- What the registrar has bound: the registration, the IMPU and the contact. -/
def binding : Option (Nat × Text × Text) :=
  if r.state = .registered then some (r.number, r.impu, r.contact) else none

end Registration

/-! ## The container -/

/-- A protected REGISTER whose response has been verified. -/
structure Verified where
  impi : Text
  req : SipRequest
  authOK : Bool
deriving DecidableEq

structure CSCF where
  registrations : Text → Option Registration
  /-- The protected requests between verification and transition. -/
  inFlight : List Verified

/-- What the handler is configured with. -/
structure RegisterHandlerConfig where
  byMSISDN : String → Option Udm.Imsi
  imsDomain : Text

/-- The IMPI that a request is handled under. -/
def RegisterHandlerConfig.impiOf (cfg : RegisterHandlerConfig) (req : SipRequest) : Text :=
  let impi := (parseRegister req).impi
  let canon := canonicalIMPI cfg.byMSISDN cfg.imsDomain impi
  if canon ≠ [] then canon else impi

namespace CSCF

variable (c : CSCF)

def getOrCreateRegistration (impi : Text) : Registration :=
  (c.registrations impi).getD .new

def setRegistration (impi : Text) (r : Registration) : CSCF :=
  { c with registrations := Function.update c.registrations impi (some r) }

/-- `HandleRegister`, for a protected request up to the verification; `av` is the vector that
`GenerateAV` supplies. -/
def handleRegister (cfg : RegisterHandlerConfig) (req : SipRequest) (av : Option AuthVec) :
    CSCF × Option RegResult :=
  let f := parseRegister req
  if f.impi = [] then (c, some ⟨400, "Bad Request", none⟩)
  else
    let impi := cfg.impiOf req
    let reg := c.getOrCreateRegistration impi
    if f.expires = 0 then
      let (reg, res) := reg.onDeregister
      (c.setRegistration impi reg, some res)
    else if isIntegrityProtected req then
      ({ c.setRegistration impi reg with
          inFlight := ⟨impi, req, realVerifyAuth req reg.av⟩ :: c.inFlight }, none)
    else
      let (reg, res) := reg.onUnprotected av
      (c.setRegistration impi reg, some res)

/-- The end of `HandleRegister` for a protected request. -/
def onVerified (v : Verified) : CSCF × Option RegResult :=
  let f := parseRegister v.req
  let (reg, res) :=
    (c.getOrCreateRegistration v.impi).onProtected f.impu f.contact f.expires v.authOK
  ({ c.setRegistration v.impi reg with inFlight := c.inFlight.erase v }, some res)

/-- Something happens to a registration that is there. -/
def update (impi : Text) (f : Registration → Registration) : CSCF :=
  match c.registrations impi with
  | none => c
  | some r => c.setRegistration impi (f r)

/-- What is bound for an IMPI. -/
def bindingOf (impi : Text) : Option (Nat × Text × Text) :=
  (c.registrations impi).bind Registration.binding

/-- `LookupRegistrationByIMPU` can return the registration of this IMPI. -/
def Finds (impu impi : Text) : Prop := ∃ b ∈ c.bindingOf impi, b.2.1 = impu

end CSCF

/-! ## Events -/

inductive CscfEvent
  | register (req : SipRequest) (av : Option AuthVec)
  | verified (v : Verified)
  | challengeTimer (impi : Text)
  | regExpiresTimer (impi : Text)
  | timeout (impi : Text) (t : Timeout)
  | networkDeregister (impi : Text)

def CSCF.step (cfg : RegisterHandlerConfig) (c : CSCF) : CscfEvent → CSCF
  | .register req av => (c.handleRegister cfg req av).1
  | .verified v => if v ∈ c.inFlight then (c.onVerified v).1 else c
  | .challengeTimer impi => c.update impi Registration.fireChallenge
  | .regExpiresTimer impi => c.update impi Registration.fireRegExpires
  | .timeout impi t =>
    c.update impi fun r =>
      if t ∈ r.fired then { r.onTimeout t with fired := r.fired.erase t } else r
  | .networkDeregister impi => c.update impi Registration.wiped

end MmtCore.Ims
