import MmtCore.Pfcp.SessionIndex

/-!
# The network-side translator of a TSC bridge

`NWTT`: the DS-TT port of each session and the parameters of each port.  A port management message
names a port; what it sets there is programmed for the session that the port belongs to.
-/

namespace MmtCore.Pfcp

open MmtCore.Lib Function

/-! ## Port management messages -/

def msgManagePortCommand : UInt8 := 0x01
def msgManagePortComplete : UInt8 := 0x02

def opGetCapabilities : UInt8 := 0x01
def opReadParameter : UInt8 := 0x02
def opSetParameter : UInt8 := 0x03
def opSubscribeNotify : UInt8 := 0x04
def opUnsubscribe : UInt8 := 0x05
def opDeleteParameterEntry : UInt8 := 0x09

def portParamTxPropagationDelay : UInt16 := 0x0001
def portParamTrafficClassTable : UInt16 := 0x0002
def portParamGateEnabled : UInt16 := 0x0003
def portParamAdminBaseTime : UInt16 := 0x0004
def portParamAdminControlListLength : UInt16 := 0x0005
def portParamAdminControlList : UInt16 := 0x0006
def portParamAdminCycleTime : UInt16 := 0x0007
def portParamTickGranularity : UInt16 := 0x0008
def portParamTxPropagationDelayDeltaThreshold : UInt16 := 0x0009
def portParamTSNTimeDomainNumber : UInt16 := 0x00D4
def portParamPTPInstanceList : UInt16 := 0x00E9

def causeParamValueUnavailable : UInt8 := 0x03
def causeProtocolError : UInt8 := 0x6F

/-- `ttmgmt.Operation`. -/
structure PortOperation where
  code : UInt8
  param : UInt16
  value : List UInt8
deriving DecidableEq

/-- `ttmgmt.Message`. -/
structure PortMessage where
  type : UInt8
  ops : List PortOperation := []
  capabilities : List UInt16 := []
  status : List (UInt16 × List UInt8) := []
  statusErrors : List (UInt16 × UInt8) := []
  updates : List (UInt16 × List UInt8) := []
  updateErrors : List (UInt16 × UInt8) := []
deriving DecidableEq

/-- The entries of an `AdminControlList`: gate states and interval; the operation name is not
read. -/
def decodeAdminControlList : List UInt8 → Option (List (UInt8 × Nat))
  | [] => some []
  | _ :: g :: t₁ :: t₂ :: t₃ :: t₄ :: rest =>
    (decodeAdminControlList rest).map ((g, beNat [t₁, t₂, t₃, t₄]) :: ·)
  | _ => none

/-! ## Ports -/

/-- `nwttPortState`. -/
structure PortState where
  params : AssocMap UInt16 (List UInt8)
  subs : AssocMap UInt16 Unit

def newPortState : PortState where
  params := ((AList.insert portParamTxPropagationDelay [0, 0, 0, 0, 0x03, 0xE8, 0, 0] ∅).insert
    portParamGateEnabled [0x00]).insert portParamTickGranularity [0, 0, 0, 1]
  subs := ∅

def supportedPortParams : List UInt16 :=
  [portParamTxPropagationDelay, portParamTrafficClassTable, portParamGateEnabled,
    portParamAdminBaseTime, portParamAdminControlListLength, portParamAdminControlList,
    portParamAdminCycleTime, portParamTickGranularity, portParamTxPropagationDelayDeltaThreshold,
    portParamTSNTimeDomainNumber, portParamPTPInstanceList]

/-- A call of one of the hooks into the dataplane. -/
inductive TscCall
  | gate (k : ImsiPduKey) (trafficClass : UInt8) (baseTimeNS cycleTimeNS : UInt64)
      (gates : List (UInt8 × Nat))
  | ptp (k : ImsiPduKey) (enable : Bool)
deriving DecidableEq

structure NWTT where
  nodeID : UInt64
  nwttPorts : List UInt16
  nextDSTT : UInt16
  dsttBySession : AssocMap ImsiPduKey UInt16
  ports : UInt16 → Option PortState
  detectedMACs : ImsiPduKey → List (List UInt8)
  ptpEnabled : Bool

namespace NWTT

def new (nodeID : UInt64) : NWTT where
  nodeID := if nodeID = 0 then 0x0A0B0C000001 else nodeID
  nwttPorts := [1]
  nextDSTT := 2
  dsttBySession := ∅
  ports := update (fun _ => none) 1 (some newPortState)
  detectedMACs := fun _ => []
  ptpEnabled := false

variable (n : NWTT)

/-- The port, the NW-TT ports and the node ID that the session is told, and the calls made. -/
def allocateDSTTPort (k : ImsiPduKey) : NWTT × (UInt16 × List UInt16 × UInt64) × List TscCall :=
  match n.dsttBySession.lookup k with
  | some port => (n, (port, n.nwttPorts, n.nodeID), [])
  | none =>
    let port := n.nextDSTT
    ({ n with
        nextDSTT := n.nextDSTT + 1
        dsttBySession := n.dsttBySession.insert k port
        ports := update n.ports port (some newPortState) },
      (port, n.nwttPorts, n.nodeID), if n.ptpEnabled then [.ptp k true] else [])

def releaseDSTTPort (k : ImsiPduKey) : NWTT :=
  match n.dsttBySession.lookup k with
  | none => n
  | some port =>
    { n with
      dsttBySession := n.dsttBySession.erase k
      ports := update n.ports port none
      detectedMACs := update n.detectedMACs k [] }

/-- The session a port is allocated to; when there are several, one of them. -/
def sessionOf (portNum : UInt16) : Option ImsiPduKey :=
  (n.dsttBySession.entries.find? fun e => e.2 == portNum).map (·.1)

def param (portNum : UInt16) (p : UInt16) : List UInt8 :=
  match n.ports portNum with
  | none => []
  | some port => (port.params.lookup p).getD []

def gateBaseTime (v : List UInt8) : UInt64 :=
  if v.length = 10 then
    UInt64.ofNat (beNat (v.take 6)) * 1000000000 + UInt64.ofNat (beNat (v.drop 6))
  else 0

def gateCycleTime (v : List UInt8) : UInt64 := if v.length = 8 then UInt64.ofNat (beNat v) else 0

def pushGateToDataplane (portNum : UInt16) : List TscCall :=
  match n.ports portNum, n.sessionOf portNum with
  | some _, some k =>
    let acl := n.param portNum portParamAdminControlList
    let cycle := gateCycleTime (n.param portNum portParamAdminCycleTime)
    if k.imsi = [] then []
    else if (n.param portNum portParamGateEnabled).head? ≠ some 0x01 ∨ acl = [] ∨ cycle = 0 then []
    else
      match decodeAdminControlList acl with
      | none | some [] => []
      | some entries =>
        [.gate k 0 (gateBaseTime (n.param portNum portParamAdminBaseTime)) cycle entries]
  | _, _ => []

/-- The locals of the loop of `HandlePMIC`. -/
structure PmicLoop where
  port : PortState
  reply : PortMessage
  gateTouched : Bool := false
  ptpTouched : Bool := false

def pmicOp (l : PmicLoop) (op : PortOperation) : PmicLoop :=
  if op.code = opGetCapabilities then
    { l with reply := { l.reply with capabilities := supportedPortParams } }
  else if op.code = opReadParameter then
    match l.port.params.lookup op.param with
    | some v => { l with reply := { l.reply with status := l.reply.status ++ [(op.param, v)] } }
    | none =>
      { l with reply := { l.reply with
          statusErrors := l.reply.statusErrors ++ [(op.param, causeParamValueUnavailable)] } }
  else if op.code = opSetParameter then
    { port := { l.port with params := l.port.params.insert op.param op.value }
      reply := { l.reply with updates := l.reply.updates ++ [(op.param, op.value)] }
      gateTouched := l.gateTouched ||
        op.param ∈ [portParamGateEnabled, portParamAdminBaseTime, portParamAdminControlList,
          portParamAdminCycleTime]
      ptpTouched := l.ptpTouched || op.param = portParamPTPInstanceList }
  else if op.code = opSubscribeNotify then
    { l with
      port := { l.port with subs := l.port.subs.insert op.param () }
      reply := { l.reply with
        status := l.reply.status ++ [(op.param, (l.port.params.lookup op.param).getD [])] } }
  else if op.code = opUnsubscribe then
    { l with port := { l.port with subs := l.port.subs.erase op.param } }
  else if op.code = opDeleteParameterEntry then
    { l with
      port := { l.port with params := l.port.params.erase op.param }
      reply := { l.reply with updates := l.reply.updates ++ [(op.param, [])] } }
  else
    { l with reply := { l.reply with
        updateErrors := l.reply.updateErrors ++ [(op.param, causeProtocolError)] } }

/-- The port a message is about: 0 stands for the first NW-TT port. -/
def pmicTarget (portNum : UInt16) : UInt16 :=
  if portNum = 0 then n.nwttPorts.head?.getD 0 else portNum

/-- A message after `DecodePMS`, `none` if that fails; the reply is encoded by the caller. -/
def handlePMIC (portNum : UInt16) (msg : Option PortMessage) :
    NWTT × Option PortMessage × List TscCall :=
  match msg with
  | none => (n, none, [])
  | some msg =>
    if msg.type ≠ msgManagePortCommand then (n, none, [])
    else
      let target := n.pmicTarget portNum
      let l := msg.ops.foldl pmicOp
        { port := (n.ports target).getD newPortState, reply := { type := msgManagePortComplete } }
      let n' := { n with ports := update n.ports target (some l.port) }
      let gates := if l.gateTouched then n'.pushGateToDataplane target else []
      if l.ptpTouched then
        ({ n' with ptpEnabled := true }, some l.reply,
          gates ++ n.dsttBySession.entries.map fun e => .ptp e.1 true)
      else (n', some l.reply, gates)

inductive PortEvent
  | allocate (k : ImsiPduKey)
  | release (k : ImsiPduKey)
  | manage (portNum : UInt16) (msg : Option PortMessage)

/-- The state after an event and the calls into the dataplane. -/
def handle : PortEvent → NWTT × List TscCall
  | .allocate k => let (n', _, calls) := n.allocateDSTTPort k; (n', calls)
  | .release k => (n.releaseDSTTPort k, [])
  | .manage portNum msg => let (n', _, calls) := n.handlePMIC portNum msg; (n', calls)

def step (ev : PortEvent) : NWTT := (n.handle ev).1

end NWTT

end MmtCore.Pfcp
