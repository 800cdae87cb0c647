import MmtCore.Amf.Types
import MmtCore.Smf.Pti

/-!
# 5GSM requests

What the AMF does with a PDU session establishment, modification or release request that an UL NAS
TRANSPORT carries (`ulnas.go`): the transaction of its PTI first, then the procedure at the SMF.
What the procedure comes to, and whether the gNB is there, is given with each request.
-/

namespace MmtCore.Amf.Gmm

open Smf

inductive RequestKind where
  | establishment (pduSessionType sscMode : Option UInt8)
  | modification
  | release
deriving DecidableEq

def RequestKind.procedure : RequestKind → ProcedureKind
  | .establishment _ _ => .establishment
  | .modification => .modification
  | .release => .release

/-- A request of a UE: its PTI, PDU session ID and message. -/
structure SmRequest where
  imsi : Bytes
  pti : UInt8
  pduSessionID : UInt8
  kind : RequestKind
deriving DecidableEq

/-- What `session.Establish` comes to; after an error a session of that ID may be gone. -/
inductive EstablishResult where
  | accepted (acceptNAS : Bytes)
  | idInUse
  | doesNotExist
  | failed (released : Bool)
deriving DecidableEq

/-- The gNB of the UE before and after the procedure, whether a message can be sent, and what the
procedure comes to; `none` is an error, or no message. -/
structure SmEnv where
  gnb : Bool
  connected : Bool
  gnbAfter : Bool
  sendOK : Bool
  establish : EstablishResult
  modify : Option Bytes
  release : Option Bytes
deriving DecidableEq

inductive Verdict where
  | malformed
  | invalidPTI
  | collision
  | replayed
  | skipped
  | ran
deriving DecidableEq

/-- What became of a request, the reply that there is to it, and whether it was sent. -/
structure Handled where
  verdict : Verdict
  reply : Option Bytes
  sent : Bool
deriving DecidableEq

/-- The tracker, and the sessions in the store of the SMF. -/
structure SmState where
  tracker : Tracker
  sessions : Bytes → UInt8 → Bool

/-- A 5GSM reject: discriminator, session, PTI, message type and cause. -/
def reject (messageType pduSessionID cause pti : UInt8) : Bytes :=
  [0x2E, pduSessionID, pti, messageType, cause]

abbrev causeUnknownPDUSessionType : UInt8 := 28
abbrev causeRequestRejectedUnspecified : UInt8 := 31
abbrev causePTIAlreadyInUse : UInt8 := 35
abbrev causeInvalidPDUSessionIdentity : UInt8 := 43
abbrev causePDUSessionDoesNotExist : UInt8 := 54

def RequestKind.rejectType : RequestKind → UInt8
  | .establishment _ _ => 195
  | .modification => 202
  | .release => 210

namespace SmState

variable (s : SmState) (req : SmRequest) (env : SmEnv)

def setSession (up : Bool) : SmState :=
  { s with
    sessions := fun i psi =>
      if i = req.imsi ∧ psi = req.pduSessionID then up else s.sessions i psi }

def complete (response : Bytes) : SmState :=
  { s with tracker := s.tracker.complete req.imsi req.pti response }

/-- A retransmission that has a response gets it again, another transaction under the PTI is a
collision, and anything else is the procedure's. -/
def dedup (canReplay : Bool) (procedure : SmState → SmState × Handled) : SmState × Handled :=
  match s.tracker.start req.imsi req.pti req.kind.procedure req.pduSessionID with
  | .error (.collision ..) =>
    let rej := reject req.kind.rejectType req.pduSessionID causePTIAlreadyInUse req.pti
    (s, ⟨.collision, some rej, env.gnb && env.sendOK⟩)
  | .error (.invalid _) => (s, ⟨.invalidPTI, none, false⟩)
  | .ok (tracker, txn, retx) =>
    let s := { s with tracker }
    if retx ∧ txn.response ≠ [] then
      (s, ⟨.replayed, some txn.response, env.gnb && canReplay && env.sendOK⟩)
    else procedure s

/-! ## Establishment -/

/-- The cause for an IE that is out of range. -/
def establishmentError (pduSessionType sscMode : Option UInt8) : Option UInt8 :=
  if pduSessionType.any fun v => v < 1 || 5 < v then some causeUnknownPDUSessionType
  else if sscMode.any fun v => v < 1 || 3 < v then some causeRequestRejectedUnspecified
  else none

/-- A session is only asked for while the gNB is connected, and the reply to an establishment is
cached only if the gNB is still there. -/
def establishmentProcedure (s : SmState) : SmState × Handled :=
  if ¬ env.gnb ∨ ¬ env.connected then (s, ⟨.skipped, none, false⟩)
  else
    match env.establish with
    | .idInUse =>
      let rej := reject req.kind.rejectType req.pduSessionID causeInvalidPDUSessionIdentity req.pti
      (s.complete req rej, ⟨.ran, some rej, env.gnbAfter && env.sendOK⟩)
    | .doesNotExist =>
      let rej := reject req.kind.rejectType req.pduSessionID causePDUSessionDoesNotExist req.pti
      (s.complete req rej, ⟨.ran, some rej, env.gnbAfter && env.sendOK⟩)
    | .failed released => (if released then s.setSession req false else s, ⟨.ran, none, false⟩)
    | .accepted acceptNAS =>
      let s := s.setSession req true
      if env.gnbAfter then (s.complete req acceptNAS, ⟨.ran, some acceptNAS, env.sendOK⟩)
      else (s, ⟨.ran, none, false⟩)

def handleEstablishment (pduSessionType sscMode : Option UInt8) : SmState × Handled :=
  match establishmentError pduSessionType sscMode with
  | some cause =>
    (s, ⟨.malformed, some (reject req.kind.rejectType req.pduSessionID cause req.pti),
      env.gnb && env.sendOK⟩)
  | none =>
    s.dedup req env (s.sessions req.imsi req.pduSessionID) (establishmentProcedure req env)

/-! ## Release and modification -/

/-- `session.ReleaseWithCause` has no command where there is no session. -/
def releaseProcedure (s : SmState) : SmState × Handled :=
  let cmd := if s.sessions req.imsi req.pduSessionID then env.release else none
  let s := s.setSession req false
  match cmd with
  | none => (s, ⟨.ran, none, false⟩)
  | some cmd => (s.complete req cmd, ⟨.ran, some cmd, env.gnb && env.sendOK⟩)

def handleRelease : SmState × Handled :=
  s.dedup req env true (releaseProcedure req env)

/-- `session.Modify` fails where there is no session. -/
def modificationProcedure (s : SmState) : SmState × Handled :=
  match if s.sessions req.imsi req.pduSessionID then env.modify else none with
  | none => (s, ⟨.ran, none, false⟩)
  | some cmd => (s.complete req cmd, ⟨.ran, some cmd, env.gnb && env.sendOK⟩)

def handleModification : SmState × Handled :=
  s.dedup req env true (modificationProcedure req env)

/-- `handleN1SMPayload` on a request. -/
def handleN1SMPayload : SmState × Handled :=
  match req.kind with
  | .establishment pduSessionType sscMode => s.handleEstablishment req env pduSessionType sscMode
  | .modification => s.handleModification req env
  | .release => s.handleRelease req env

/-- The UE completes a modification or a release. -/
def onComplete (imsi : Bytes) (pti : UInt8) : SmState :=
  { s with tracker := s.tracker.release imsi pti }

/-- The UE has deregistered, or its context is removed. -/
def forgetUE (imsi : Bytes) : SmState :=
  { s with tracker := s.tracker.releaseAllForUE imsi }

/-- A session is released by the network, or with the UE. -/
def releaseSession (imsi : Bytes) (psi : UInt8) : SmState :=
  { s with sessions := fun i p => if i = imsi ∧ p = psi then false else s.sessions i p }

end SmState

end MmtCore.Amf.Gmm
