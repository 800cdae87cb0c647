import Mathlib.Data.Fin.VecNotation
import MmtCore.Lib.AssocMap
import MmtCore.Pcf.TscRules

/-!
# TSN streams

The TSN AF turns each stream that the CNC configures into PCC rules of one or two PDU sessions, has
the PCF push them to the SMF, and programs the gate of the egress port (`cnc.go`).  How the policy
associations answer is an input, as are the ports of the bridges.
-/

namespace MmtCore.Tsnaf

open MmtCore.Lib
open MmtCore.Pcf

/-! ## What the CNC asks for -/

structure GateWindow where
  gateStates : UInt8
  durationNS : UInt32
deriving DecidableEq

structure StreamConfig where
  streamID : String
  bridgeID : UInt64
  ingressPort : UInt16
  egressPort : UInt16
  trafficClass : Int
  maxFrameSizeOctets : Int
  framesPerInterval : Int
  intervalUS : Int
  burstArrivalTimeNS : Int
  timeDomain : UInt64
  destMAC : String
  vlanID : Int
  gateSchedule : List GateWindow
deriving DecidableEq

def StreamConfig.withDefaults (cfg : StreamConfig) : StreamConfig :=
  { cfg with
    intervalUS := if cfg.intervalUS ≤ 0 then 1000 else cfg.intervalUS
    maxFrameSizeOctets := if cfg.maxFrameSizeOctets ≤ 0 then 1522 else cfg.maxFrameSizeOctets
    framesPerInterval := if cfg.framesPerInterval ≤ 0 then 1 else cfg.framesPerInterval }

/-- A session of the SMF. -/
structure Key where
  imsi : String
  pduSessionID : UInt8
deriving DecidableEq

structure Port where
  num : UInt16
  dstt : Bool
  mac : String
  imsi : String
  pduSessionID : UInt8
  dnn : String

def Port.key (p : Port) : Key := ⟨p.imsi, p.pduSessionID⟩

/-- The ports of the bridges that are there. -/
abbrev Bridges := UInt64 → Option (UInt16 → Option Port)

structure TrafficClassQoS where
  delayMS : Rat
  priority : Int

/-- The preconfigured mapping of the traffic classes. -/
abbrev Config := Fin 8 → TrafficClassQoS

def defaultConfig : Config :=
  ![⟨30, 8⟩, ⟨30, 7⟩, ⟨10, 6⟩, ⟨10, 5⟩, ⟨5, 4⟩, ⟨5, 3⟩, ⟨5, 2⟩, ⟨5, 1⟩]

inductive Direction where
  | ul
  | dl
  | ueUe
deriving DecidableEq

/-- The record of a configured stream; only a UE-UE stream has a peer. -/
structure Stream where
  config : StreamConfig
  imsi : String
  pduSessionID : UInt8
  dnn : String
  direction : Direction
  peerIMSI : String
  peerPDUSessionID : UInt8
  peerDNN : String
  apart : peerIMSI ≠ "" → (⟨peerIMSI, peerPDUSessionID⟩ : Key) ≠ ⟨imsi, pduSessionID⟩
deriving DecidableEq

/-! ## The QoS of a stream -/

/-- The values of a 64-bit word. -/
def word : Nat := 18446744073709551616

namespace StreamConfig

variable (cfg : StreamConfig)

/-- Octets in an interval, as a signed word. -/
def burst : Int := (cfg.maxFrameSizeOctets * cfg.framesPerInterval).bmod word

def kbps : Nat :=
  ((cfg.burst % word).toNat * 8 * 1000000 % word / cfg.intervalUS.toNat + 999) % word / 1000

def tscai : TscaiInput := ⟨cfg.intervalUS.toNat, cfg.burstArrivalTimeNS⟩

def qos (c : Config) : TrafficClassQoS := c (Fin.ofNat 8 (cfg.trafficClass % 8).toNat)

end StreamConfig

namespace Stream

variable (c : Config) (st : Stream)

def ruleName : String := "tsn_" ++ st.config.streamID

def peerRuleName : String := "tsn_" ++ st.config.streamID ++ "_dl"

/-- The request for the session of the talker, or of the listener of a downlink stream. -/
def req : TscQosRequirement :=
  { req5GSDelayMS := (st.config.qos c).delayMS
    maxTscBurstSizeOctets := st.config.burst
    priority := (st.config.qos c).priority
    reqGbrUlKbps := if st.direction = .dl then 0 else st.config.kbps
    reqGbrDlKbps := if st.direction = .dl then st.config.kbps else 0
    reqMbrUlKbps := 0
    reqMbrDlKbps := 0
    tscaiInputUl := if st.direction = .dl then none else some st.config.tscai
    tscaiInputDl := if st.direction = .dl then some st.config.tscai else none
    tscaiTimeDom := st.config.timeDomain
    ethDestMAC := st.config.destMAC
    ethVLANID := st.config.vlanID }

/-- The request for the listener of a UE-UE stream. -/
def reqDL : TscQosRequirement :=
  { st.req c with
    reqGbrUlKbps := 0
    tscaiInputUl := none
    reqGbrDlKbps := st.config.kbps
    tscaiInputDl := some st.config.tscai }

def fiveQI : Nat := (tscPccRule st.ruleName (st.req c)).fiveQI

end Stream

/-- What a stream has on one session. -/
structure Half where
  imsi : String
  pduSessionID : UInt8
  dnn : String
  rule : TscPccRule
deriving DecidableEq

namespace Half

variable (h : Half)

def key : Key := ⟨h.imsi, h.pduSessionID⟩

def ruleKey : TscRuleKey := ⟨h.imsi, h.dnn⟩

def name : String := h.rule.serviceName

end Half

namespace Stream

variable (c : Config) (st : Stream)

def main : Half := ⟨st.imsi, st.pduSessionID, st.dnn, tscPccRule st.ruleName (st.req c)⟩

def peer : Half :=
  ⟨st.peerIMSI, st.peerPDUSessionID, st.peerDNN, tscPccRule st.peerRuleName (st.reqDL c)⟩

def halves : List Half :=
  if st.peerIMSI = "" then [st.main c] else [st.main c, st.peer c]

end Stream

/-! ## From the request to the stream -/

/-- A stream with one end outside the bridge's UEs. -/
def oneSession (cfg : StreamConfig) (sess : Port) (direction : Direction) :
    Except String Stream :=
  if sess.imsi = "" then
    .error ("tsnaf: DS-TT port " ++ toString sess.num ++ " has no PDU session binding")
  else
    .ok
      { config := cfg, imsi := sess.imsi, pduSessionID := sess.pduSessionID, dnn := sess.dnn
        direction := direction, peerIMSI := "", peerPDUSessionID := 0, peerDNN := ""
        apart := fun h => absurd rfl h }

/-- A stream from one UE to another. -/
def twoSessions (cfg : StreamConfig) (talker listener : Port) : Except String Stream :=
  if hsame : talker.key = listener.key then
    .error ("tsnaf: UE-UE stream " ++ cfg.streamID ++ " has both ports on the same PDU session")
  else if talker.imsi = "" then
    .error ("tsnaf: DS-TT port " ++ toString talker.num ++ " has no PDU session binding")
  else if listener.imsi = "" then
    .error ("tsnaf: egress DS-TT port " ++ toString listener.num ++ " has no PDU session binding")
  else
    .ok
      { config := cfg, imsi := talker.imsi, pduSessionID := talker.pduSessionID, dnn := talker.dnn
        direction := .ueUe, peerIMSI := listener.imsi, peerPDUSessionID := listener.pduSessionID
        peerDNN := listener.dnn
        apart := fun _ heq => hsame heq.symm }

/-- The stream of a request and its egress port, before any rule is installed. -/
def plan (bridges : Bridges) (cfg : StreamConfig) : Except String (Stream × Port) :=
  if cfg.streamID = "" then .error "tsnaf: stream_id required"
  else
    let cfg := cfg.withDefaults
    match bridges cfg.bridgeID with
    | none => .error ("tsnaf: unknown bridge " ++ toString cfg.bridgeID)
    | some ports =>
      match ports cfg.ingressPort, ports cfg.egressPort with
      | some ingress, some egress =>
        let stream :=
          if ingress.dstt ∧ egress.dstt then twoSessions cfg ingress egress
          else if ingress.dstt then oneSession cfg ingress .ul
          else if egress.dstt then oneSession cfg egress .dl
          else .error ("tsnaf: neither port of stream " ++ cfg.streamID ++ " is a DS-TT port")
        stream.map fun st => (st, egress)
      | _, _ =>
        .error ("tsnaf: bridge " ++ toString cfg.bridgeID ++ " missing port(s) " ++
          toString cfg.ingressPort ++ "/" ++ toString cfg.egressPort)

/-! ## The state -/

/-- Where a gate schedule is sent: a DS-TT port has a MAC address, an NW-TT port its bridge. -/
inductive GatePort where
  | dstt (mac : String)
  | nwtt (bridgeID : UInt64) (num : UInt16)
deriving DecidableEq

def Stream.gatePort (st : Stream) (egress : Port) : GatePort :=
  if egress.dstt then .dstt egress.mac else .nwtt st.config.bridgeID egress.num

structure Service where
  bridges : Bridges
  streams : AssocMap String Stream
  /-- The store of the PCF. -/
  rules : TscRuleStore
  /-- The TSC rules in the last decision that reached the SMF. -/
  pushed : Key → List TscPccRule
  /-- The gates that are enabled, and the stream whose schedule each has. -/
  gates : AssocMap GatePort String
  keyed : ∀ id st, streams.lookup id = some st → st.config.streamID = id

namespace Service

def init : Service := ⟨fun _ => none, ∅, fun _ => [], fun _ => [], ∅, by simp⟩

variable (s : Service)

def install (h : Half) : Service :=
  { s with rules := installTscPccRule s.rules h.ruleKey h.rule }

def uninstall (h : Half) : Service :=
  { s with rules := (removeTscPccRule s.rules h.ruleKey h.name).1 }

/-- `PushNotify` with a decision for the DNN; one that fails leaves the SMF as it is. -/
def push (k : Key) (dnn : String) (delivered : Bool) : Service :=
  if delivered then
    { s with pushed := Function.update s.pushed k (s.rules ⟨k.imsi, dnn⟩) }
  else s

/-- `programGate` with a schedule that is not empty. -/
def programGate (st : Stream) (egress : Port) (sent : Bool) : Service :=
  if st.config.gateSchedule ≠ [] ∧ sent then
    { s with gates := s.gates.assign (st.gatePort egress) st.config.streamID }
  else s

def record (st : Stream) : Service :=
  { s with
    streams := s.streams.assign st.config.streamID st
    keyed := by
      intro id st' h
      rw [AssocMap.lookup_assign_eq] at h
      split at h
      · case isTrue heq => rw [← Option.some.inj h, heq]
      · exact s.keyed id st' h }

def forget (id : String) : Service :=
  { s with
    streams := s.streams.erase id
    keyed := by
      intro id' st h
      rw [AssocMap.lookup_erase_eq] at h
      split at h
      · cases h
      · exact s.keyed id' st h }

end Service

/-- How the policy association of a session takes an update: the DNN that it is for, or none where
`Update` fails, and whether the notification reaches the SMF. -/
structure Answer where
  dnn : Option String
  delivered : Bool
deriving DecidableEq

/-! ## The two operations -/

variable (c : Config)

def configureStream (s : Service) (cfg : StreamConfig) (main peer : Answer) (gateSent : Bool) :
    Service × Except String Stream :=
  match plan s.bridges cfg with
  | .error e => (s, .error e)
  | .ok (st, egress) =>
    let s₁ := s.install (st.main c)
    match main.dnn with
    | none => (s₁.uninstall (st.main c), .error "tsnaf: N7 update")
    | some dnn =>
      let s₂ := s₁.push (st.main c).key dnn main.delivered
      if st.peerIMSI = "" then ((s₂.programGate st egress gateSent).record st, .ok st)
      else
        let s₃ := s₂.install (st.peer c)
        match peer.dnn with
        | none =>
          ((s₃.uninstall (st.peer c)).uninstall (st.main c),
            .error "tsnaf: N7 update (UE-UE DL half)")
        | some dnn =>
          let s₄ := s₃.push (st.peer c).key dnn peer.delivered
          ((s₄.programGate st egress gateSent).record st, .ok st)

/-- An update that fails, or a rule that was not there, is passed over. -/
def revokePeer (s : Service) (st : Stream) (peer : Answer) : Service :=
  if st.peerIMSI = "" then s
  else
    let s₁ := s.uninstall (st.peer c)
    if (removeTscPccRule s.rules (st.peer c).ruleKey (st.peer c).name).2 then
      match peer.dnn with
      | none => s₁
      | some dnn => s₁.push (st.peer c).key dnn peer.delivered
    else s₁

/-- False for a stream that is not known. -/
def removeStream (s : Service) (id : String) (main peer : Answer) : Service × Bool :=
  match s.streams.lookup id with
  | none => (s, false)
  | some st =>
    let s₁ := (s.forget id).uninstall (st.main c)
    let s₂ := revokePeer c s₁ st peer
    match main.dnn with
    | none => (s₂, true)
    | some dnn => (s₂.push (st.main c).key dnn main.delivered, true)

inductive Event where
  /-- The bridges report their ports. -/
  | report (bridges : Bridges)
  | configure (cfg : StreamConfig) (main peer : Answer) (gateSent : Bool)
  | remove (id : String) (main peer : Answer)

def Service.step (s : Service) : Event → Service
  | .report bridges => { s with bridges := bridges }
  | .configure cfg main peer gateSent => (configureStream c s cfg main peer gateSent).1
  | .remove id main peer => (removeStream c s id main peer).1

end MmtCore.Tsnaf
