import MmtCore.Smf.Rules

/-!
# The PFCP bridge and the UPF behind it

`pfcp_bridge.go`, one bridge for each UPF.  The UPF is what it derives from the messages it accepts:
sessions by their UP-SEID, each with its rules (`Peer`), the IEs read as its handler reads them.
Every exchange has a `Fate`: it may not reach the UPF, be refused, be executed without an
answer, or succeed.
-/

namespace MmtCore.Smf

open MmtCore.Lib MmtCore.Upf MmtCore.Pfcp Function

/-! ## The UPF -/

structure PeerSession where
  key : ImsiPduKey
  cpSEID : UInt64
  pdrs : RuleTable UInt16 PeerPDR
  fars : RuleTable UInt32 FarRule
  qers : RuleTable UInt32 QerRule
  urrs : RuleTable UInt32 UrrRule
deriving DecidableEq

/-- The session a Session Establishment Request describes. -/
def PeerSession.established (req : SessionEstablishmentRequest) : PeerSession where
  key := req.key
  cpSEID := req.cpSEID
  pdrs := RuleTable.putAll [] (req.createPDR.map createdPDR)
  fars := RuleTable.putAll [] (req.createFAR.map createdFAR)
  qers := RuleTable.putAll [] (req.createQER.map createdQER)
  urrs := RuleTable.putAll [] (req.createURR.map createdURR)

/-- An Update FAR. -/
def PeerSession.updateFAR (fars : RuleTable UInt32 FarRule) (uf : UpdateFAR) :
    RuleTable UInt32 FarRule :=
  fars.alter uf.farID
    (if uf.deactivates then FarRule.deactivate
      else FarRule.update uf.tunnel.1 uf.tunnel.2 uf.peerPort)

/-- An Update PDR. -/
def PeerSession.updatePDR (pdrs : RuleTable UInt16 PeerPDR) (up : UpdatePDR) :
    RuleTable UInt16 PeerPDR :=
  pdrs.alter up.pdrID fun old =>
    { rule := up.rule
      teid := (up.pdi.map (·.teid)).getD old.teid
      ueIPv4 := (up.pdi.map (·.ueIPv4)).getD old.ueIPv4 }

/-- The session after a Session Modification Request: what is created, updated and removed. -/
def PeerSession.modified (req : SessionModificationRequest) (s : PeerSession) : PeerSession where
  key := s.key
  cpSEID := s.cpSEID
  pdrs := req.removePDR.foldl RuleTable.drop
    (req.updatePDR.foldl updatePDR (s.pdrs.putAll (req.createPDR.map createdPDR)))
  fars := req.removeFAR.foldl RuleTable.drop
    (req.updateFAR.foldl updateFAR (s.fars.putAll (req.createFAR.map createdFAR)))
  qers := req.removeQER.foldl RuleTable.drop
    (req.updateQER.foldl (fun qers uq => qers.alter uq.qerID fun _ => uq.rule)
      (s.qers.putAll (req.createQER.map createdQER)))
  urrs := req.removeURR.foldl RuleTable.drop
    (req.updateURR.foldl (fun urrs uu => urrs.alter uu.urrID fun _ => uu.rule)
      (s.urrs.putAll (req.createURR.map createdURR)))

/-- The sessions of a UPF. -/
structure Peer where
  sessions : UInt64 → Option PeerSession
  nextSEID : UInt64

namespace Peer

def empty : Peer := ⟨fun _ => none, 0x20000001⟩

def establish (p : Peer) (req : SessionEstablishmentRequest) : Peer where
  sessions := update p.sessions (p.nextSEID + 1) (some (.established req))
  nextSEID := p.nextSEID + 1

def modify (p : Peer) (seid : UInt64) (req : SessionModificationRequest) : Peer :=
  { p with
    sessions := update p.sessions seid ((p.sessions seid).map (PeerSession.modified req)) }

def delete (p : Peer) (seid : UInt64) : Peer :=
  { p with sessions := update p.sessions seid none }

end Peer

/-! ## Exchanges -/

/-- What becomes of a request. -/
inductive Fate
  /-- It is not sent, or never arrives. -/
  | lost
  /-- The UPF refuses it. -/
  | refused
  /-- The UPF executes it, and the answer does not come. -/
  | unanswered
  | answered
deriving DecidableEq

/-- The errors of the bridge and the router. -/
inductive BridgeError
  | noBridge
  | noSession
  | noSessionCreate
  | send
  | rejected
deriving DecidableEq

def Fate.result : Fate → Except BridgeError Unit
  | .lost => .error .send
  | .refused => .error .rejected
  | .unanswered => .error .send
  | .answered => .ok ()

/-- The UPF after an exchange. -/
def Fate.peer (fate : Fate) (p p' : Peer) : Peer :=
  match fate with
  | .lost | .refused => p
  | .unanswered | .answered => p'

/-! ## The bridge -/

/-- `sessionState`. -/
structure SessionState where
  cpSEID : UInt64
  upSEID : UInt64
deriving DecidableEq

/-- `pendingRules`. -/
structure PendingRules where
  pdrs : List PDR
  fars : List FAR
  qers : List QER
  urrs : List URR
  sessAMBRUL : UInt64
  sessAMBRDL : UInt64
  hasCreate : Bool
  cpSEID : UInt64
  dnn : List UInt8
  sst : UInt8
  sd : UInt32
  ueAddr : UInt32
  pdnType : UInt8
deriving DecidableEq

def PendingRules.empty : PendingRules :=
  { pdrs := [], fars := [], qers := [], urrs := [], sessAMBRUL := 0, sessAMBRDL := 0
    hasCreate := false, cpSEID := 0, dnn := [], sst := 0, sd := 0, ueAddr := 0, pdnType := 0 }

structure PfcpBridge where
  cpSeid : UInt64
  sessions : ImsiPduKey → Option SessionState
  pending : ImsiPduKey → Option PendingRules
  cpSEIDIndex : UInt64 → Option ImsiPduKey

/-- A bridge that has just been dialled. -/
def PfcpBridge.empty : PfcpBridge := ⟨0x10000000, fun _ => none, fun _ => none, fun _ => none⟩

/-- `AMBRSpec`, and its use. -/
structure AMBRSpec where
  ul : UInt64
  dl : UInt64
deriving DecidableEq

/-- The QER that the Session-AMBR rides. -/
def ambrQerID : UInt32 := 0xFFFFFFFE

def ambrQER (a : AMBRSpec) : QER :=
  { qerID := ambrQerID, qfi := 0, gateUL := 0, gateDL := 0, mbrUL := a.ul, mbrDL := a.dl
    gbrUL := 0, gbrDL := 0 }

structure UpdateFARSpec where
  farID : UInt32
  teid : UInt32
  peerAddr : UInt32
  peerPort : UInt16
deriving DecidableEq

structure ModifyBatch where
  createPDRs : List PDR
  createFARs : List FAR
  createQERs : List QER
  createURRs : List URR
  updateFARs : List UpdateFARSpec
  removePDRs : List UInt16
  removeFARs : List UInt32
  removeQERs : List UInt32
  removeURRs : List UInt32
  sessionAMBR : Option AMBRSpec
deriving DecidableEq

def ModifyBatch.empty : ModifyBatch :=
  { createPDRs := [], createFARs := [], createQERs := [], createURRs := [], updateFARs := []
    removePDRs := [], removeFARs := [], removeQERs := [], removeURRs := [], sessionAMBR := none }

/-- `IsEmpty`. -/
def ModifyBatch.isEmpty (b : ModifyBatch) : Bool := b == .empty

/-- `%d` of a PDU session id. -/
def decimal (n : UInt8) : List UInt8 :=
  let digit (d : Nat) : UInt8 := UInt8.ofNat (48 + d % 10)
  let n := n.toNat
  if n < 10 then [digit n]
  else if n < 100 then [digit (n / 10), digit n]
  else [digit (n / 100), digit (n / 10), digit n]

/-- The request that `CommitSession` builds. -/
def establishmentRequest (k : ImsiPduKey) (p : PendingRules) : SessionEstablishmentRequest where
  cpSEID := p.cpSEID
  userID := some ⟨k.imsi, decimal k.pduSessionID⟩
  snssai :=
    if p.sst != 0 then
      let sd := if p.sd == 0 then 0xFFFFFF else p.sd
      some [p.sst, (sd >>> 16).toUInt8, (sd >>> 8).toUInt8, sd.toUInt8]
    else none
  apnDNN := if p.dnn != [] then some p.dnn else none
  createPDR := p.pdrs.map buildCreatePDR
  createFAR := p.fars.map buildCreateFAR
  createURR := p.urrs.map buildCreateURR
  createQER := p.qers.map buildCreateQER ++
    if p.sessAMBRUL != 0 || p.sessAMBRDL != 0 then
      [buildCreateQER (ambrQER ⟨p.sessAMBRUL, p.sessAMBRDL⟩)]
    else []

/-- The Update FAR of a batch. -/
def UpdateFARSpec.ie (u : UpdateFARSpec) : UpdateFAR where
  farID := u.farID
  applyAction := some
    (if u.peerAddr != 0 then { buff := 0, forw := 1, drop := 0 }
      else { buff := 1, forw := 0, drop := 0 })
  updateForwardingParameters := some
    (if u.peerAddr != 0 then some (ohcGTPUv4 u.teid u.peerAddr) else none)

/-- The request of `ApplyModifyBatch`. -/
def ModifyBatch.request (b : ModifyBatch) : SessionModificationRequest :=
  { SessionModificationRequest.empty with
    createPDR := b.createPDRs.map buildCreatePDR
    createFAR := b.createFARs.map buildCreateFAR
    createQER := (b.createQERs ++ (b.sessionAMBR.map ambrQER).toList).map buildCreateQER
    createURR := b.createURRs.map buildCreateURR
    updateFAR := b.updateFARs.map UpdateFARSpec.ie
    removePDR := b.removePDRs
    removeFAR := b.removeFARs
    removeQER := b.removeQERs
    removeURR := b.removeURRs }

/-- The Update FAR of `UpdateFAR`. -/
def forwardIE (farID teid peerAddr : UInt32) : UpdateFAR where
  farID := farID
  applyAction := some { buff := 0, forw := 1, drop := 0 }
  updateForwardingParameters := some (outerHeader teid peerAddr)

/-- And of `DeactivateDLFAR`. -/
def bufferIE (farID : UInt32) : UpdateFAR where
  farID := farID
  applyAction := some { buff := 1, forw := 0, drop := 0 }
  updateForwardingParameters := none

def updateFARRequest (uf : UpdateFAR) : SessionModificationRequest :=
  { SessionModificationRequest.empty with updateFAR := [uf] }

/-- What a batch adds to the rules that wait for the commit; the rest of it is dropped. -/
def ModifyBatch.pend (b : ModifyBatch) (p : PendingRules) : PendingRules :=
  { p with
    pdrs := p.pdrs ++ b.createPDRs
    fars := p.fars ++ b.createFARs
    qers := p.qers ++ b.createQERs
    urrs := p.urrs ++ b.createURRs
    sessAMBRUL := (b.sessionAMBR.map (·.ul)).getD p.sessAMBRUL
    sessAMBRDL := (b.sessionAMBR.map (·.dl)).getD p.sessAMBRDL }

/-- A bridge and its UPF. -/
structure Link where
  bridge : PfcpBridge
  peer : Peer

namespace Link

variable (l : Link) (k : ImsiPduKey) (fate : Fate)

/-- The rules that wait for the commit are changed; there may be none yet. -/
def stash (f : PendingRules → PendingRules) : Link :=
  { l with
    bridge := { l.bridge with
      pending := update l.bridge.pending k
        (some (f ((l.bridge.pending k).getD .empty))) } }

/-- `SessionCreate`. -/
def sessionCreate (dnn : List UInt8) (sst : UInt8) (sd ueAddr : UInt32) (pdnType : UInt8) : Link :=
  let cpSEID := l.bridge.cpSeid + 1
  let l := { l with bridge := { l.bridge with cpSeid := cpSEID } }
  l.stash k fun p => { p with hasCreate := true, cpSEID, dnn, sst, sd, ueAddr, pdnType }

/-- A Session Modification Request to the session of this SEID. -/
def modify (seid : UInt64) (req : SessionModificationRequest) : Link × Except BridgeError Unit :=
  ({ l with peer := fate.peer l.peer (l.peer.modify seid req) }, fate.result)

/-- `addOrModify`. -/
def addOrModify (batch : PendingRules → PendingRules) (req : SessionModificationRequest) :
    Link × Except BridgeError Unit :=
  match l.bridge.sessions k with
  | none => (l.stash k batch, .ok ())
  | some s => l.modify fate s.upSEID req

def addPDR (p : PDR) : Link × Except BridgeError Unit :=
  l.addOrModify k fate (fun r => { r with pdrs := r.pdrs ++ [p] })
    { SessionModificationRequest.empty with createPDR := [buildCreatePDR p] }

def addFAR (f : FAR) : Link × Except BridgeError Unit :=
  l.addOrModify k fate (fun r => { r with fars := r.fars ++ [f] })
    { SessionModificationRequest.empty with createFAR := [buildCreateFAR f] }

def addQER (q : QER) : Link × Except BridgeError Unit :=
  l.addOrModify k fate (fun r => { r with qers := r.qers ++ [q] })
    { SessionModificationRequest.empty with createQER := [buildCreateQER q] }

def addURR (u : URR) : Link × Except BridgeError Unit :=
  l.addOrModify k fate (fun r => { r with urrs := r.urrs ++ [u] })
    { SessionModificationRequest.empty with createURR := [buildCreateURR u] }

def setSessionAMBR (a : AMBRSpec) : Link × Except BridgeError Unit :=
  l.addOrModify k fate (fun r => { r with sessAMBRUL := a.ul, sessAMBRDL := a.dl })
    { SessionModificationRequest.empty with createQER := [buildCreateQER (ambrQER a)] }

/-- A modification that needs an established session. -/
def modifyEstablished (req : SessionModificationRequest) : Link × Except BridgeError Unit :=
  match l.bridge.sessions k with
  | none => (l, .error .noSession)
  | some s => l.modify fate s.upSEID req

def updateFAR (farID teid peerAddr : UInt32) : Link × Except BridgeError Unit :=
  l.modifyEstablished k fate (updateFARRequest (forwardIE farID teid peerAddr))

def deactivateDLFAR (farID : UInt32) : Link × Except BridgeError Unit :=
  l.modifyEstablished k fate (updateFARRequest (bufferIE farID))

/-- `RemoveFAR` sends nothing, and reports nothing. -/
def removeFAR (_farID : UInt32) : Link × Except BridgeError Unit := (l, .ok ())

/-- Nor does `RemoveQER`. -/
def removeQER (_qerID : UInt32) : Link × Except BridgeError Unit := (l, .ok ())

def applyModifyBatch (b : ModifyBatch) : Link × Except BridgeError Unit :=
  if b.isEmpty then (l, .ok ())
  else
    match l.bridge.sessions k with
    | none => (l.stash k b.pend, .ok ())
    | some s => l.modify fate s.upSEID b.request

/-- The rules no longer wait. -/
def unstash : Link :=
  { l with bridge := { l.bridge with pending := update l.bridge.pending k none } }

/-- The SEIDs of an established session are remembered. -/
def remember (s : SessionState) : Link :=
  { l with
    bridge := { l.bridge with
      sessions := update l.bridge.sessions k (some s)
      cpSEIDIndex := update l.bridge.cpSEIDIndex s.cpSEID (some k) } }

/-- And forgotten. -/
def forget (s : SessionState) : Link :=
  { l with
    bridge := { l.bridge with
      sessions := update l.bridge.sessions k none
      cpSEIDIndex := update l.bridge.cpSEIDIndex s.cpSEID none } }

/-- `CommitSession`. -/
def commitSession : Link × Except BridgeError Unit :=
  match l.bridge.pending k with
  | none => (l.unstash k, .error .noSessionCreate)
  | some p =>
    if p.hasCreate then
      let peer := fate.peer l.peer (l.peer.establish (establishmentRequest k p))
      let l := { l.unstash k with peer }
      match fate with
      | .answered => (l.remember k ⟨p.cpSEID, peer.nextSEID⟩, .ok ())
      | _ => (l, fate.result)
    else (l.unstash k, .error .noSessionCreate)

/-- `SessionDelete`. -/
def sessionDelete : Link × Except BridgeError Unit :=
  match l.bridge.sessions k with
  | none => (l, .error .noSession)
  | some s =>
    ({ l.forget k s with peer := fate.peer l.peer (l.peer.delete s.upSEID) }, fate.result)

end Link

end MmtCore.Smf
