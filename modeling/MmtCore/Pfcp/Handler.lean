import MmtCore.Lib.AssocMap
import MmtCore.Pfcp.Dataplane
import MmtCore.Pfcp.Header
import MmtCore.Upf.SdfFilter

/-!
# The PFCP handler of the UPF

`handler.go` and the files beside it: Session Establishment, Modification and Deletion, and
Association Release.  Requests are read as the generated codec hands them over; the codec itself is
a parameter, `Codec`, and an IE is the fields of it that the handler reads.
-/

namespace MmtCore.Pfcp

open MmtCore.Lib MmtCore.Upf

/-! ## Requests -/

/-- `net.UDPAddr`; the address in its 16-byte form. -/
structure UDPAddr where
  ip : List UInt8
  port : UInt16
deriving DecidableEq

structure OuterHeaderCreation where
  description : UInt16
  teid : UInt32
  ipv4 : Option UInt32
deriving DecidableEq

structure FTEID where
  ch : Bool
  teid : UInt32
deriving DecidableEq

structure PDI where
  sourceInterface : UInt8
  qfi : List UInt8
  sdfFilter : List (List UInt8)
  /-- `IPv4.To4()` of each UE IP address. -/
  ueIPAddress : List (Option UInt32)
  fteid : Option FTEID
deriving DecidableEq

structure CreatePDR where
  pdrID : UInt16
  precedence : UInt32
  pdi : PDI
  farID : Option UInt32
  qerID : List UInt32
  urrID : List UInt32
deriving DecidableEq

structure UpdatePDR where
  pdrID : UInt16
  precedence : Option UInt32
  pdi : Option PDI
  farID : Option UInt32
  qerID : List UInt32
  urrID : List UInt32
deriving DecidableEq

structure ApplyAction where
  buff : UInt8
  forw : UInt8
  drop : UInt8
deriving DecidableEq

structure ForwardingParameters where
  destinationInterface : UInt8
  outerHeaderCreation : Option OuterHeaderCreation
deriving DecidableEq

structure CreateFAR where
  farID : UInt32
  applyAction : ApplyAction
  forwardingParameters : Option ForwardingParameters
deriving DecidableEq

/-- The Update FAR IE; of its forwarding parameters the outer header is read. -/
structure UpdateFAR where
  farID : UInt32
  applyAction : Option ApplyAction
  updateForwardingParameters : Option (Option OuterHeaderCreation)
deriving DecidableEq

/-- A pair of rates or gates. -/
structure UlDl (α : Type) where
  ul : α
  dl : α
deriving DecidableEq

structure CreateQER where
  qerID : UInt32
  qfi : Option UInt8
  gateStatus : UlDl UInt8
  mbr : Option (UlDl UInt64)
  gbr : Option (UlDl UInt64)
deriving DecidableEq

structure UpdateQER where
  qerID : UInt32
  qfi : Option UInt8
  gateStatus : Option (UlDl UInt8)
  mbr : Option (UlDl UInt64)
  gbr : Option (UlDl UInt64)
deriving DecidableEq

structure MeasurementMethod where
  event : UInt8
  volum : UInt8
  durat : UInt8
deriving DecidableEq

structure CreateURR where
  urrID : UInt32
  measurementMethod : MeasurementMethod
  reportingTriggers : UInt16
  volumeThreshold : Option (UlDl (Option UInt64))
  timeThreshold : Option UInt32
deriving DecidableEq

structure UpdateURR where
  urrID : UInt32
  measurementMethod : Option MeasurementMethod
  reportingTriggers : Option UInt16
  volumeThreshold : Option (UlDl (Option UInt64))
  timeThreshold : Option UInt32
deriving DecidableEq

structure UserID where
  supi : List UInt8
  nai : List UInt8
deriving DecidableEq

structure SessionEstablishmentRequest where
  cpSEID : UInt64
  userID : Option UserID
  snssai : Option (List UInt8)
  apnDNN : Option (List UInt8)
  createPDR : List CreatePDR
  createFAR : List CreateFAR
  createURR : List CreateURR
  createQER : List CreateQER
deriving DecidableEq

structure SessionModificationRequest where
  createPDR : List CreatePDR
  createFAR : List CreateFAR
  createURR : List CreateURR
  createQER : List CreateQER
  updatePDR : List UpdatePDR
  updateFAR : List UpdateFAR
  updateURR : List UpdateURR
  updateQER : List UpdateQER
  removePDR : List UInt16
  removeFAR : List UInt32
  removeURR : List UInt32
  removeQER : List UInt32
deriving DecidableEq

/-- A modification that carries nothing. -/
def SessionModificationRequest.empty : SessionModificationRequest :=
  { createPDR := [], createFAR := [], createURR := [], createQER := []
    updatePDR := [], updateFAR := [], updateURR := [], updateQER := []
    removePDR := [], removeFAR := [], removeURR := [], removeQER := [] }

/-- The `Decode` of each request the handler reads; `none` is an error. -/
structure Codec where
  establishment : List UInt8 → Option SessionEstablishmentRequest
  modification : List UInt8 → Option SessionModificationRequest
  associationRelease : List UInt8 → Option Unit

/-! ## Reading the IEs -/

/-- `parseDecUint8`. -/
def parseDecUint8 (s : List UInt8) : UInt8 :=
  let n : Option Nat := s.foldlM
    (fun n c =>
      if c < 48 || c > 57 then none
      else
        let n := n * 10 + (c - 48).toNat
        if n > 255 then none else some n) 0
  (n.map UInt8.ofNat).getD 0

/-- The (IMSI, PDU session id) a request names. -/
def SessionEstablishmentRequest.key (req : SessionEstablishmentRequest) : ImsiPduKey :=
  match req.userID with
  | none => ⟨[], 0⟩
  | some u => ⟨u.supi, parseDecUint8 u.nai⟩

/-- The slice, `sst` and `sd`. -/
def SessionEstablishmentRequest.slice (req : SessionEstablishmentRequest) : UInt8 × UInt32 :=
  match req.snssai with
  | some (sst :: d₁ :: d₂ :: d₃ :: _) =>
    (sst, d₁.toUInt32 <<< 16 ||| d₂.toUInt32 <<< 8 ||| d₃.toUInt32)
  | _ => (0, 0)

def SessionEstablishmentRequest.sst (req : SessionEstablishmentRequest) : UInt8 :=
  if req.slice.1 == 0 then 1 else req.slice.1

def SessionEstablishmentRequest.dnn (req : SessionEstablishmentRequest) : List UInt8 :=
  match req.apnDNN with
  | some (c :: cs) => c :: cs
  | _ => ascii "pfcp-stub"

/-- The first UE IPv4 address, or 0. -/
def PDI.ueIPv4 (pdi : PDI) : UInt32 := (pdi.ueIPAddress.findSome? id).getD 0

/-- The TEID the control plane chose, or 0. -/
def PDI.teid (pdi : PDI) : UInt32 :=
  match pdi.fteid with
  | some f => if f.ch then 0 else f.teid
  | none => 0

def CreatePDR.rule (pdr : CreatePDR) : PdrRule where
  precedence := pdr.precedence
  pdiSource := pdr.pdi.sourceInterface
  qfi := pdr.pdi.qfi.headD 0
  farID := pdr.farID.getD 0
  qerID := pdr.qerID.headD 0
  urrID := pdr.urrID.headD 0
  sdfRules := pdr.pdi.sdfFilter.headD []

def UpdatePDR.rule (up : UpdatePDR) : PdrRule where
  precedence := up.precedence.getD 0
  pdiSource := (up.pdi.map (·.sourceInterface)).getD 0
  qfi := (up.pdi.map (·.qfi.headD 0)).getD 0
  farID := up.farID.getD 0
  qerID := up.qerID.headD 0
  urrID := up.urrID.headD 0
  sdfRules := (up.pdi.map (·.sdfFilter.headD [])).getD []

/-- `readOHCGTPUv4`. -/
def readOHCGTPUv4 (o : Option OuterHeaderCreation) : UInt32 × UInt32 :=
  match o with
  | none => (0, 0)
  | some o => if o.description &&& 1 == 0 then (0, 0) else (o.teid, o.ipv4.getD 0)

def ApplyAction.action (a : ApplyAction) : UInt8 :=
  if a.forw == 1 then 1 else if a.buff == 1 then 2 else if a.drop == 1 then 3 else 1

def CreateFAR.rule (far : CreateFAR) : FarRule :=
  let (teid, peerAddr) := readOHCGTPUv4 (far.forwardingParameters.bind (·.outerHeaderCreation))
  let tunnel := teid != 0 || peerAddr != 0
  { action := far.applyAction.action
    dstIface := (far.forwardingParameters.map (·.destinationInterface)).getD 0
    teid
    peerAddr
    peerPort := if tunnel then 2152 else 0
    ohcType := if tunnel then 1 else 0 }

/-- The update stops the forwarding, `BUFF` without new parameters. -/
def UpdateFAR.deactivates (uf : UpdateFAR) : Bool :=
  (uf.applyAction.map (·.buff)) == some 1 && uf.updateForwardingParameters.isNone

/-- The TEID and the address of the new tunnel. -/
def UpdateFAR.tunnel (uf : UpdateFAR) : UInt32 × UInt32 :=
  readOHCGTPUv4 (uf.updateForwardingParameters.bind id)

def UpdateFAR.peerPort (uf : UpdateFAR) : UInt16 :=
  if uf.tunnel.1 != 0 || uf.tunnel.2 != 0 then 2152 else 0

def qerRule (qfi : Option UInt8) (gate : UlDl UInt8) (mbr gbr : Option (UlDl UInt64)) : QerRule :=
  { qfi := qfi.getD 0
    gateUL := gate.ul
    gateDL := gate.dl
    mbrUL := (mbr.getD ⟨0, 0⟩).ul
    mbrDL := (mbr.getD ⟨0, 0⟩).dl
    gbrUL := (gbr.getD ⟨0, 0⟩).ul
    gbrDL := (gbr.getD ⟨0, 0⟩).dl }

def CreateQER.rule (qer : CreateQER) : QerRule := qerRule qer.qfi qer.gateStatus qer.mbr qer.gbr

def UpdateQER.rule (uq : UpdateQER) : QerRule :=
  qerRule uq.qfi (uq.gateStatus.getD ⟨0, 0⟩) uq.mbr uq.gbr

def MeasurementMethod.bits (m : MeasurementMethod) : UInt8 :=
  (m.event &&& 1) <<< 2 ||| (m.volum &&& 1) <<< 1 ||| (m.durat &&& 1)

def urrRule (measMethod : UInt8) (triggers : UInt16) (volume : Option (UlDl (Option UInt64)))
    (time : Option UInt32) : UrrRule :=
  { measMethod
    reportTrigger := triggers.toUInt8
    volThreshUL := ((volume.bind (·.ul)).getD 0)
    volThreshDL := ((volume.bind (·.dl)).getD 0)
    timeThresh := time.getD 0 }

def CreateURR.rule (urr : CreateURR) : UrrRule :=
  urrRule urr.measurementMethod.bits urr.reportingTriggers urr.volumeThreshold urr.timeThreshold

def UpdateURR.rule (uu : UpdateURR) : UrrRule :=
  urrRule ((uu.measurementMethod.map (·.bits)).getD 0) (uu.reportingTriggers.getD 0)
    uu.volumeThreshold uu.timeThreshold

/-! ## Sessions -/

/-- `PDRReverseKey`. -/
structure PDRReverseKey where
  teid : UInt32
  ueip : UInt32
deriving DecidableEq

/-- `HandlerSession`. -/
structure HandlerSession where
  upSEID : UInt64
  cpSEID : UInt64
  key : ImsiPduKey
  peer : UDPAddr
  pdrKeys : AssocMap UInt16 PDRReverseKey
  urrIDs : List UInt32
deriving DecidableEq

/-- `Handler`; the index holds the UP-SEID of the session it points to. -/
structure Handler where
  sessions : AssocMap UInt64 HandlerSession
  byIMSI : ImsiPduKey → Option UInt64
  nextSEID : UInt64
  dp : Dataplane

/-- `NewHandler`. -/
def newHandler : Handler where
  sessions := ∅
  byIMSI := fun _ => none
  nextSEID := 0x20000001
  dp := Dataplane.empty

/-- What `SendResponse` is given: the cause, and the UP-SEID of an Establishment Response. -/
structure Response where
  peer : UDPAddr
  msgType : UInt8
  seid : UInt64
  sequenceNumber : UInt32
  cause : UInt8
  upSEID : Option UInt64
deriving DecidableEq

/-! ## The rules of a request -/

/-- What the rules of a request are applied to: the session, when it is known, and the
dataplane. -/
structure Work where
  sess : Option HandlerSession
  dp : Dataplane

namespace Work

variable (env : DpEnv) (k : ImsiPduKey) (w : Work)

/-- The outcome of a hook call; a failed one is logged. -/
def hook (dp : Option Dataplane) : Work := { w with dp := dp.getD w.dp }

def applyCreateFARToHook (far : CreateFAR) : Work := w.hook (w.dp.addFAR k far.farID far.rule)

def applyCreateQERToHook (qer : CreateQER) : Work := w.hook (w.dp.addQER k qer.qerID qer.rule)

def applyCreateURRToHook (urr : CreateURR) : Work :=
  match w.dp.addURR k urr.urrID urr.rule with
  | none => w
  | some dp =>
    { sess := w.sess.map fun sess => { sess with urrIDs := sess.urrIDs ++ [urr.urrID] }, dp }

/-- A key of a PDR is registered, unless it is 0: the key to remember. -/
def registerKey (registered : Option Dataplane) (dp : Dataplane) (key : UInt32) :
    Dataplane × UInt32 :=
  if key == 0 then (dp, 0)
  else
    match registered with
    | none => (dp, 0)
    | some dp => (dp, key)

def applyCreatePDRToHook (pdr : CreatePDR) : Work :=
  match w.dp.addPDR k pdr.pdrID pdr.rule with
  | none => w
  | some dp =>
    let (dp, ueip) := registerKey (dp.registerUEIP env k pdr.pdi.ueIPv4) dp pdr.pdi.ueIPv4
    let (dp, teid) := registerKey (dp.registerTEID env k pdr.pdi.teid) dp pdr.pdi.teid
    { sess := w.sess.map fun sess =>
        { sess with pdrKeys := sess.pdrKeys.assign pdr.pdrID ⟨teid, ueip⟩ }
      dp }

def applyUpdateFARToHook (uf : UpdateFAR) : Work :=
  if uf.deactivates then w.hook (w.dp.upfDpDeactivateDl k uf.farID)
  else w.hook (w.dp.upfDpUpdateFar k uf.farID uf.tunnel.1 uf.tunnel.2 uf.peerPort)

/-- The rebinding of the TEID of a PDR. -/
def rebindTEID (dp : Dataplane) (old teid : UInt32) : Dataplane × UInt32 :=
  if old == teid then (dp, old)
  else
    let dp := if old == 0 then dp else dp.unregisterTEID old
    registerKey (dp.registerTEID env k teid) dp teid

def rebindUEIP (dp : Dataplane) (old ueip : UInt32) : Dataplane × UInt32 :=
  if old == ueip then (dp, old)
  else
    let dp := if old == 0 then dp else dp.unregisterUEIP old
    registerKey (dp.registerUEIP env k ueip) dp ueip

def applyUpdatePDRToHook (up : UpdatePDR) : Work :=
  match w.dp.upfDpUpdatePdr k up.pdrID up.rule with
  | none => w
  | some dp =>
    match w.sess with
    | none => { w with dp }
    | some sess =>
      let old := (sess.pdrKeys.lookup up.pdrID).getD ⟨0, 0⟩
      match up.pdi with
      | none => ⟨some { sess with pdrKeys := sess.pdrKeys.assign up.pdrID old }, dp⟩
      | some pdi =>
        let (dp, teid) := rebindTEID env k dp old.teid pdi.teid
        let (dp, ueip) := rebindUEIP env k dp old.ueip pdi.ueIPv4
        ⟨some { sess with pdrKeys := sess.pdrKeys.assign up.pdrID ⟨teid, ueip⟩ }, dp⟩

def applyUpdateURRToHook (uu : UpdateURR) : Work :=
  w.hook (w.dp.upfDpUpdateUrr k uu.urrID uu.rule)

def applyUpdateQERToHook (uq : UpdateQER) : Work :=
  w.hook (w.dp.upfDpUpdateQer k uq.qerID uq.rule)

def applyRemovePDRToHook (pdrID : UInt16) : Work :=
  let w : Work :=
    match w.sess with
    | none => w
    | some sess =>
      match sess.pdrKeys.lookup pdrID with
      | none => w
      | some key =>
        let dp := if key.teid == 0 then w.dp else w.dp.unregisterTEID key.teid
        let dp := if key.ueip == 0 then dp else dp.unregisterUEIP key.ueip
        ⟨some { sess with pdrKeys := sess.pdrKeys.erase pdrID }, dp⟩
  { w with dp := w.dp.removePDR k pdrID }

def applyRemoveFARToHook (farID : UInt32) : Work := { w with dp := w.dp.removeFAR k farID }

def applyRemoveQERToHook (qerID : UInt32) : Work := { w with dp := w.dp.removeQER k qerID }

/-- The first mention of the URR is dropped. -/
def applyRemoveURRToHook (urrID : UInt32) : Work where
  sess := w.sess.map fun sess => { sess with urrIDs := sess.urrIDs.erase urrID }
  dp := w.dp.removeURR k urrID

/-- The Create IEs of a request, in the order of the handler. -/
def applyCreates (fars : List CreateFAR) (urrs : List CreateURR) (qers : List CreateQER)
    (pdrs : List CreatePDR) : Work :=
  let w := fars.foldl (applyCreateFARToHook k) w
  let w := urrs.foldl (applyCreateURRToHook k) w
  let w := qers.foldl (applyCreateQERToHook k) w
  pdrs.foldl (applyCreatePDRToHook env k) w

/-- All the IEs of a modification, in the order of the handler. -/
def applyModification (req : SessionModificationRequest) : Work :=
  let w := w.applyCreates env k req.createFAR req.createURR req.createQER req.createPDR
  let w := req.updateFAR.foldl (applyUpdateFARToHook k) w
  let w := req.updatePDR.foldl (applyUpdatePDRToHook env k) w
  let w := req.updateURR.foldl (applyUpdateURRToHook k) w
  let w := req.updateQER.foldl (applyUpdateQERToHook k) w
  let w := req.removePDR.foldl (applyRemovePDRToHook k) w
  let w := req.removeFAR.foldl (applyRemoveFARToHook k) w
  let w := req.removeURR.foldl (applyRemoveURRToHook k) w
  req.removeQER.foldl (applyRemoveQERToHook k) w

end Work

/-! ## The handlers -/

/-- The nonzero TEIDs that a session registered. -/
def HandlerSession.teids (sess : HandlerSession) : List UInt32 :=
  (sess.pdrKeys.entries.map (·.2.teid)).filter (· != 0)

def HandlerSession.ueips (sess : HandlerSession) : List UInt32 :=
  (sess.pdrKeys.entries.map (·.2.ueip)).filter (· != 0)

/-- `tearDownSession`. -/
def tearDownSession (dp : Dataplane) (sess : HandlerSession) : Dataplane :=
  (dp.unregisterSessionKeys sess.teids sess.ueips).deleteSession sess.key

namespace Handler

variable (codec : Codec) (env : DpEnv) (h : Handler) (hdr : Header) (payload : List UInt8)
  (peer : UDPAddr)

/-- A session leaves the map and the index. -/
def dropSession (h : Handler) (seid : UInt64) (sess : HandlerSession) : Handler :=
  { h with
    sessions := h.sessions.erase seid
    byIMSI := if sess.key.imsi == [] then h.byIMSI else Function.update h.byIMSI sess.key none }

/-- `sendSessionReject`. -/
def reject (msgType cause : UInt8) : Response :=
  ⟨peer, msgType, hdr.seid, hdr.sequenceNumber, cause, none⟩

def handleSessionEstablishment : Handler × List Response :=
  match codec.establishment payload with
  | none => (h, [reject hdr peer messageTypeSessionEstablishmentResponse 68])
  | some req =>
    let upSEID := h.nextSEID + 1
    let sess : HandlerSession :=
      { upSEID, cpSEID := req.cpSEID, key := req.key, peer, pdrKeys := ∅, urrIDs := [] }
    let dp := h.dp.createSession req.key req.dnn req.sst req.slice.2 0
    let w := (Work.mk (some sess) dp).applyCreates env req.key
      req.createFAR req.createURR req.createQER req.createPDR
    ({ sessions := h.sessions.assign upSEID (w.sess.getD sess)
       byIMSI :=
        if req.key.imsi == [] then h.byIMSI else Function.update h.byIMSI req.key (some upSEID)
       nextSEID := upSEID
       dp := w.dp.commitSession env req.key },
      [⟨peer, messageTypeSessionEstablishmentResponse, req.cpSEID, hdr.sequenceNumber, 1,
        some upSEID⟩])

def handleSessionModification : Handler × List Response :=
  match codec.modification payload with
  | none => (h, [reject hdr peer messageTypeSessionModificationResponse 68])
  | some req =>
    match h.sessions.lookup hdr.seid with
    | none =>
      ({ h with dp := ((Work.mk none h.dp).applyModification env ⟨[], 0⟩ req).dp },
        [⟨peer, messageTypeSessionModificationResponse, hdr.seid, hdr.sequenceNumber, 1, none⟩])
    | some sess =>
      let w := (Work.mk (some sess) h.dp).applyModification env sess.key req
      ({ h with
          sessions := h.sessions.assign hdr.seid (w.sess.getD sess)
          dp := w.dp },
        [⟨peer, messageTypeSessionModificationResponse, sess.cpSEID, hdr.sequenceNumber, 1, none⟩])

/-- The session leaves the tables, then the dataplane. -/
def removeSession (h : Handler) (seid : UInt64) (sess : HandlerSession) : Handler :=
  { h.dropSession seid sess with dp := tearDownSession h.dp sess }

def handleSessionDeletion : Handler × List Response :=
  match h.sessions.lookup hdr.seid with
  | none => (h, [reject hdr peer messageTypeSessionDeletionResponse 65])
  | some sess =>
    (h.removeSession hdr.seid sess,
      [⟨peer, messageTypeSessionDeletionResponse, sess.cpSEID, hdr.sequenceNumber, 1, none⟩])

/-- The sessions of a peer, by their UP-SEID. -/
def victims : List ((_ : UInt64) × HandlerSession) :=
  h.sessions.entries.filter fun e => e.2.peer.ip == peer.ip

def handleAssociationRelease : Handler × List Response :=
  match codec.associationRelease payload with
  | none => (h, [])
  | some () =>
    let vs := h.victims peer
    ({ vs.foldl (fun h v => h.dropSession v.1 v.2) h with
        dp := vs.foldl (fun dp v => tearDownSession dp v.2) h.dp },
      [⟨peer, messageTypeAssociationReleaseResponse, 0, hdr.sequenceNumber, 1, none⟩])

/-- `dispatch`, for the requests modelled here. -/
def dispatch : Handler × List Response :=
  if hdr.messageType = messageTypeAssociationReleaseRequest then
    h.handleAssociationRelease codec hdr payload peer
  else if hdr.messageType = messageTypeSessionEstablishmentRequest then
    h.handleSessionEstablishment codec env hdr payload peer
  else if hdr.messageType = messageTypeSessionModificationRequest then
    h.handleSessionModification codec env hdr payload peer
  else if hdr.messageType = messageTypeSessionDeletionRequest then
    h.handleSessionDeletion hdr peer
  else (h, [])

end Handler

end MmtCore.Pfcp
