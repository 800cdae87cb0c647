import MmtCore.Pfcp.Header
import MmtCore.Upf.Classify
import MmtCore.Upf.QosMeter

/-!
# The downlink path of a session

`upf_pkt_io.c` and the calls of `upf_dp_api.c` that meet it: a packet from the core network is
classified, checked against the gates and the meters, and then dropped, forwarded in a G-PDU to the
access network, or kept in the buffer of the session.  The buffer has 32 slots of 1600 bytes; it
takes the packets of a FAR that buffers and those that the TSC gate holds.  All of it is sent
through one FAR, when that FAR gets its tunnel or when a packet of it finds the TSC gate open.
-/

namespace MmtCore.Upf

open MmtCore.Lib

/-! ## The TSC gate -/

/-- `upf_tsc_gate_t`; a window is its gate states and its duration. -/
structure TscGate where
  baseTimeNs : UInt64
  cycleTimeNs : UInt64
  windows : List (UInt8 × UInt32)
  qfi : UInt8
  trafficClass : UInt8
  active : Bool

/-- As a session is created. -/
def TscGate.zero : TscGate := ⟨0, 0, [], 0, 0, false⟩

/-- The walk over the windows: the states of the one that covers the phase, else of the last. -/
def gateStatesAt (phase : UInt64) : UInt64 → UInt8 → List (UInt8 × UInt32) → UInt8
  | _, last, [] => last
  | acc, _, (states, duration) :: windows =>
    let acc := acc + duration.toUInt64
    if phase < acc then states else gateStatesAt phase acc states windows

/-- `upf_tsc_gate_is_open`. -/
def TscGate.isOpen (g : TscGate) (nowNs : UInt64) : Bool :=
  if !g.active || g.cycleTimeNs == 0 || g.windows.isEmpty then true
  else
    let back := (g.baseTimeNs - nowNs) % g.cycleTimeNs
    let phase :=
      if g.baseTimeNs ≤ nowNs then (nowNs - g.baseTimeNs) % g.cycleTimeNs
      else if back = 0 then 0 else g.cycleTimeNs - back
    let states := gateStatesAt phase 0 0 (g.windows.take 16)
    (states >>> (g.trafficClass &&& 7)) &&& 1 != 0

/-- The gate is closed for the flow: its QFI is that of the packet, or of the PDR if that is 0. -/
def TscGate.holds (g : TscGate) (qfi : UInt8) (pdr : Pdr) (nowNs : UInt64) : Bool :=
  let flowQfi := if qfi = 0 then pdr.qfi else qfi
  g.active && (g.qfi == 0 || g.qfi == flowQfi) && !g.isOpen nowNs

/-! ## The checks on a packet -/

/-- The two clocks: `CLOCK_REALTIME` in nanoseconds, and the cycle counter of the meters. -/
structure Clock where
  realtimeNs : UInt64
  tsc : UInt64

/-- What `upf_process_packet` finds. -/
inductive Verdict
  /-- No PDR matches. -/
  | noMatch
  | gateClosed
  | rateExceeded
  | passed (r : ClassifyResult) (tscHold : Bool)

/-- A packet that the QER drops is counted there. -/
def Qer.countDrop (direction : UInt8) (len : UInt64) (q : Qer) : Qer :=
  if direction = 0 then
    { q with droppedPktsUl := q.droppedPktsUl + 1, droppedBytesUl := q.droppedBytesUl + len }
  else { q with droppedPktsDl := q.droppedPktsDl + 1, droppedBytesDl := q.droppedBytesDl + len }

def Urr.count (direction : UInt8) (len : UInt64) (u : Urr) : Urr :=
  if direction = 0 then { u with volUl := u.volUl + len, pktUl := u.pktUl + 1 }
  else { u with volDl := u.volDl + len, pktDl := u.pktDl + 1 }

/-- The QER that was found counts a drop. -/
def MeteredSession.countDrop (s : MeteredSession) (qer : Option Qer) (direction : UInt8)
    (len : UInt64) : MeteredSession :=
  match qer with
  | none => s
  | some q =>
    let qers := SlotView.change (fun x => x.qerId == q.qerId && x.active)
      (Qer.countDrop direction len) s.rules.qers
    { s with rules := { s.rules with qers := qers.getD s.rules.qers } }

/-- The URR that was found counts the packet. -/
def MeteredSession.countUrr (s : MeteredSession) (urr : Option Urr) (direction : UInt8)
    (len : UInt64) : MeteredSession :=
  match urr with
  | none => s
  | some u =>
    let urrs := SlotView.change (fun x => x.urrId == u.urrId && x.active)
      (Urr.count direction len) s.rules.urrs
    { s with rules := { s.rules with urrs := urrs.getD s.rules.urrs } }

/-- The gate of the QER for the direction is not open. -/
def Qer.gated (direction : UInt8) (q : Qer) : Bool :=
  (if direction = 0 then q.gateStatusUl else q.gateStatusDl) != 0

/-- `upf_process_packet`; `none` is the division by zero of a meter. -/
def upfProcessPacket (s : MeteredSession) (gate : TscGate) (direction qfi : UInt8) (clock : Clock)
    (ipPkt : List UInt8) : Option (MeteredSession × Verdict) :=
  match upfClassify s.rules direction qfi ipPkt with
  | none => some (s, .noMatch)
  | some r =>
    let len := UInt16.ofNat ipPkt.length
    if r.qer.any (Qer.gated direction) then
      some (s.countDrop r.qer direction len.toUInt64, .gateClosed)
    else
      let tscHold := gate.holds qfi r.matchedPdr clock.realtimeNs
      (s.checkMbr r.qer direction clock.tsc len.toUInt32).bind fun (pass, s) =>
        if !pass then some (s.countDrop r.qer direction len.toUInt64, .rateExceeded)
        else
          (s.checkAmbr r.qer direction clock.tsc len.toUInt32).bind fun (pass, s) =>
            if !pass then some (s, .rateExceeded)
            else some (s.countUrr r.urr direction len.toUInt64, .passed r tscHold)

/-! ## What is done to a packet that is forwarded -/

/-- The bytes from an index on are replaced. -/
def patch (pkt : List UInt8) (i : Nat) (bytes : List UInt8) : List UInt8 :=
  pkt.take i ++ bytes ++ pkt.drop (i + bytes.length)

/-- `csum_add`: the sum of the 16-bit words as a little-endian machine reads them. -/
def csumAdd : List UInt8 → Nat
  | [] => 0
  | [b] => b.toNat
  | b :: b' :: rest => b.toNat + 256 * b'.toNat + csumAdd rest

/-- One turn of the loop of `csum_finish`, which leaves a sum of 16 bits as it is. -/
def csumFold (sum : Nat) : Nat := sum % 65536 + sum / 65536

/-- `csum_finish`: three turns fold a sum of 32 bits. -/
def csumFinish (sum : Nat) : Nat := 65535 - csumFold (csumFold (csumFold sum))

/-- No turn is left after three. -/
theorem csumFold_lt {sum : Nat} (h : sum < 4294967296) :
    csumFold (csumFold (csumFold sum)) < 65536 := by
  unfold csumFold
  omega

/-- A 16-bit number in native order. -/
def native16 (v : Nat) : List UInt8 := [UInt8.ofNat v, UInt8.ofNat (v / 256)]

/-- The IP half of `fixup_checksums`. -/
def fixupIpChecksum (ipPkt : List UInt8) (ihl : Nat) : List UInt8 :=
  let zeroed := patch ipPkt 10 [0, 0]
  patch ipPkt 10 (native16 (csumFinish (csumAdd (zeroed.take ihl))))

/-- The TCP or UDP half, where the checksum lies `csumOff` bytes into the segment. -/
def fixupL4Checksum (ipPkt : List UInt8) (ihl csumOff : Nat) : List UInt8 :=
  let proto := byteAt ipPkt 9
  let zeroed := patch ipPkt (ihl + csumOff) [0, 0]
  let sum := csumAdd ((zeroed.drop 12).take 8) + 256 * proto.toNat +
    csumAdd (Pfcp.beBytes 2 (ipPkt.length - ihl)) + csumAdd (zeroed.drop ihl)
  let csum := csumFinish sum
  patch ipPkt (ihl + csumOff) (native16 (if proto = 17 ∧ csum = 0 then 0xFFFF else csum))

/-- `fixup_checksums`. -/
def fixupChecksums (ipPkt : List UInt8) : List UInt8 :=
  let ihl := headerLength ipPkt
  if ipPkt.length < 20 ∨ ihl < 20 ∨ ipPkt.length < ihl then ipPkt
  else
    let ipPkt := fixupIpChecksum ipPkt ihl
    let proto := byteAt ipPkt 9
    let csumOff := if proto = 6 then 16 else 6
    if (proto = 6 ∨ proto = 17) ∧ 8 ≤ ipPkt.length - ihl ∧ csumOff + 2 ≤ ipPkt.length - ihl then
      fixupL4Checksum ipPkt ihl csumOff
    else ipPkt

/-- The sum of the 16-bit words in network order. -/
def csumAddBe : List UInt8 → Nat
  | b :: b' :: rest => 256 * b.toNat + b'.toNat + csumAddBe rest
  | _ => 0

/-- `ip_checksum`, which computes in network order. -/
def ipChecksum (ipPkt : List UInt8) (ihl : Nat) : List UInt8 :=
  let zeroed := patch ipPkt 10 [0, 0]
  patch ipPkt 10 (Pfcp.beBytes 2 (csumFinish (csumAddBe (zeroed.take ihl))))

/-- The prefix of the 5GS suffix, before the time. -/
def suffixPrefix : List UInt8 := [0x00, 0x03, 0x00, 0x0E, 0x00, 0x00, 0x5A, 0x00, 0x53, 0x01]

/-- `ptp_body_len`; `none` is 0xFF. -/
def ptpBodyLen (msgType : UInt8) : Option Nat :=
  match msgType.toNat % 16 with
  | 0 | 1 | 8 => some 10
  | 9 | 2 | 3 | 10 => some 20
  | 11 => some 30
  | _ => none

/-- The length of the PTP message in the packet, when `upf_ptp_process` takes it for one: a UDP
packet to port 319 or 320 with a PTP header, version 2, and a body. -/
def ptpMessage (ipPkt : List UInt8) : Option Nat :=
  let ihl := headerLength ipPkt
  let dport := port16 ipPkt (ihl + 2)
  let udpLen := (port16 ipPkt (ihl + 4)).toNat
  let msgLen := (port16 ipPkt (ihl + 10)).toNat
  if ipPkt.length < 20 ∨ (byteAt ipPkt 0).toNat / 16 ≠ 4 ∨ ihl < 20 ∨ byteAt ipPkt 9 ≠ 17 ∨
      ipPkt.length < ihl + 8 then none
  else if dport ≠ 319 ∧ dport ≠ 320 then none
  else if udpLen < 8 + 34 ∨ ipPkt.length < (ihl + udpLen) % 65536 then none
  else if (byteAt ipPkt (ihl + 9)).toNat % 16 ≠ 2 then none
  else if msgLen < 34 ∨ udpLen - 8 < msgLen then none
  else
    match ptpBodyLen (byteAt ipPkt (ihl + 8)) with
    | none => none
    | some body => if msgLen < 34 + body then none else some msgLen

/-- `upf_ptp_process` at the ingress: the time is stamped behind the PTP message.  `none` is a move
of bytes from beyond the packet. -/
def upfPtpIngress (ipPkt : List UInt8) (nowNs : UInt64) : Option (List UInt8) :=
  match ptpMessage ipPkt with
  | none => some ipPkt
  | some msgLen =>
    let ihl := headerLength ipPkt
    let msgEnd := ihl + 8 + msgLen
    if 65536 < ipPkt.length + 18 then some ipPkt
    else if ipPkt.length < msgEnd then none
    else
      let udpLen := (port16 ipPkt (ihl + 4)).toNat
      let stamp := suffixPrefix ++ Pfcp.beBytes 8 nowNs.toNat
      let stamped := ipPkt.take msgEnd ++ stamp ++ ipPkt.drop msgEnd
      let stamped := patch stamped (ihl + 10) (Pfcp.beBytes 2 (msgLen + 18))
      let stamped := patch stamped (ihl + 4) (Pfcp.beBytes 2 (udpLen + 18) ++ [0, 0])
      let stamped := patch stamped 2 (Pfcp.beBytes 2 (ipPkt.length + 18))
      some (ipChecksum stamped ihl)

/-- A UDP datagram to the access network. -/
structure Datagram where
  peerAddr : UInt32
  peerPort : UInt16
  bytes : List UInt8
deriving DecidableEq

/-- The header of a G-PDU, with a PDU Session Container when there is a QFI. -/
def gtpuHeader (teid : UInt32) (qfi : UInt8) (innerLen : Nat) : List UInt8 :=
  if 0 < qfi then
    [0x34, 0xFF] ++ Pfcp.beBytes 2 (innerLen + 8) ++ Pfcp.beBytes 4 teid.toNat ++
      [0, 0, 0, 0x85, 1, 0, qfi &&& 0x3F, 0]
  else [0x30, 0xFF] ++ Pfcp.beBytes 2 innerLen ++ Pfcp.beBytes 4 teid.toNat

/-- `gtpu_encode`; its length has 16 bits.  `none` is a write beyond the buffer. -/
def gtpuEncode (teid : UInt32) (qfi : UInt8) (innerPkt : List UInt8) : Option (List UInt8) :=
  let out := gtpuHeader teid qfi innerPkt.length ++ innerPkt
  if 65536 < out.length then none else some (out.take (out.length % 65536))

def Far.datagram (far : Far) (qfi : UInt8) (ipPkt : List UInt8) : Option Datagram :=
  (gtpuEncode far.ohcTeid qfi ipPkt).map fun bytes => ⟨far.ohcPeerAddr, far.ohcPeerPort, bytes⟩

/-- The forwarding of a packet: the PTP steering, the checksums, the tunnel. -/
def forwardDl (ptpSteering : Bool) (far : Far) (qfi : UInt8) (nowNs : UInt64)
    (ipPkt : List UInt8) : Option Datagram :=
  (if ptpSteering then upfPtpIngress ipPkt nowNs else some ipPkt).bind fun ipPkt =>
    far.datagram qfi (fixupChecksums ipPkt)

/-! ## The session -/

/-- A slot of `upf_dl_buf_t`. -/
structure BufferedPacket where
  pkt : List UInt8
  qfi : UInt8
deriving DecidableEq

/-- `upf_session_t`, as the downlink path uses it; the buffer in the order of arrival. -/
structure DlSession where
  metered : MeteredSession
  tscGate : TscGate
  ptpSteering : Bool
  dlBuf : List BufferedPacket

/-- A session as it is created. -/
def DlSession.start (ueAddr : UInt32) : DlSession where
  metered := ⟨.start ueAddr, 0, 0, fun _ => .zero, .zero⟩
  tscGate := .zero
  ptpSteering := false
  dlBuf := []

/-- The downlink data report: QFI and TOS byte. -/
structure Dldr where
  qfi : UInt8
  dscp : UInt8
deriving DecidableEq

/-- What leaves the session at a step. -/
structure DlOutput where
  reports : List Dldr
  sent : List Datagram
deriving DecidableEq

def DlOutput.none : DlOutput := ⟨[], []⟩

/-- `UPF_DL_BUF_SLOTS`. -/
abbrev upfDlBufSlots : Nat := 32

/-- `UPF_DL_BUF_PKT_SZ`. -/
abbrev upfDlBufPktSz : Nat := 1600

/-- A packet takes the next slot, with at most its first 1600 bytes. -/
def DlSession.keep (s : DlSession) (qfi : UInt8) (ipPkt : List UInt8) : DlSession :=
  { s with dlBuf := s.dlBuf ++ [⟨ipPkt.take upfDlBufPktSz, qfi⟩] }

/-- `upf_pkt_io_flush_dl_buf`: the datagrams; the buffer is freed. -/
def flushDlBuf (far : Far) (dlBuf : List BufferedPacket) : List Datagram :=
  dlBuf.filterMap fun b => far.datagram b.qfi b.pkt

/-- What a packet meets: the clocks, and whether the report ring has room. -/
structure DlEnv where
  clock : Clock
  ringRoom : Bool

/-- The TSC gate is open again: what it held goes first. -/
def DlSession.reopens (s : DlSession) (r : ClassifyResult) (tscHold : Bool) : Bool :=
  !tscHold && s.tscGate.active && !s.dlBuf.isEmpty && r.action == 1

/-- `process_dl_packet`, on the session its destination address finds, once the checks have been
passed. -/
def DlSession.deliver (s : DlSession) (env : DlEnv) (ipPkt : List UInt8) (r : ClassifyResult)
    (tscHold : Bool) : Option (DlSession × DlOutput) :=
  let qfi := r.matchedPdr.qfi
  if tscHold && r.action == 1 then
    some (if s.dlBuf.length < upfDlBufSlots then s.keep qfi ipPkt else s, .none)
  else if r.action == 2 then
    if s.dlBuf.length < upfDlBufSlots then
      let reports := if s.dlBuf.isEmpty && env.ringRoom then [⟨qfi, byteAt ipPkt 1⟩] else []
      some (s.keep qfi ipPkt, ⟨reports, []⟩)
    else some (s, .none)
  else
    match r.far with
    | none => some (s, .none)
    | some far =>
      let flushed := if s.reopens r tscHold then flushDlBuf far s.dlBuf else []
      let s := if s.reopens r tscHold then { s with dlBuf := [] } else s
      if r.action == 1 && far.ohcType == 1 then
        (forwardDl s.ptpSteering far qfi env.clock.realtimeNs ipPkt).map fun d =>
          (s, ⟨[], flushed ++ [d]⟩)
      else some (s, ⟨[], flushed⟩)

/-- `process_dl_packet`, on the session its destination address finds. -/
def DlSession.processDlPacket (s : DlSession) (env : DlEnv) (ipPkt : List UInt8) :
    Option (DlSession × DlOutput) :=
  if ipPkt.length < 20 ∨ (byteAt ipPkt 0).toNat / 16 ≠ 4 then some (s, .none)
  else
    (upfProcessPacket s.metered s.tscGate 1 0 env.clock ipPkt).bind fun (metered, verdict) =>
      let s := { s with metered }
      match verdict with
      | .passed r tscHold => s.deliver env ipPkt r tscHold
      | _ => some (s, .none)

/-! ## Calls -/

/-- The calls and the packets of a session. -/
inductive DlEvent
  | packet (env : DlEnv) (ipPkt : List UInt8)
  /-- A call on the rules, at a cycle count. -/
  | call (c : RuleCall) (tsc : UInt64)
  | setSessionAmbr (ul dl tsc : UInt64)
  | setTscGate (qfi trafficClass : UInt8) (baseTimeNs cycleTimeNs : UInt64)
    (windows : List (UInt8 × UInt32))
  | clearTscGate
  | setPtpSteering (enable : Bool)

variable (tb : TbParams)

/-- A call on the rules with what it does to the meters; `none` is a read of a buffer that no longer
exists. -/
def MeteredSession.call (s : MeteredSession) (tsc : UInt64) : RuleCall → Option MeteredSession
  | .addQer a => some ((s.addQer tb a tsc).getD s)
  | .updateQer a =>
    if s.rules.qers.any fun q => q.qerId == a.qerId then some ((s.addQer tb a tsc).getD s)
    else some s
  | c =>
    match s.rules.call c with
    | .rejected => some s
    | .undefined => none
    | .done rules => some { s with rules }

/-- The FAR that an update starts to forward with, and so flushes. -/
def RuleSession.flushedBy (s : RuleSession) : RuleCall → Option Far
  | .updateFar farId t =>
    (s.fars.find? fun far => far.farId == farId).bind fun far =>
      if far.action == 2 then some (far.updated t) else none
  | _ => none

/-- A call on the rules, and the flush of `upf_dp_update_far`. -/
def DlSession.call (s : DlSession) (c : RuleCall) (tsc : UInt64) :
    Option (DlSession × DlOutput) :=
  (s.metered.call tb tsc c).map fun metered =>
    match s.metered.rules.flushedBy c with
    | none => ({ s with metered }, .none)
    | some far => ({ s with metered, dlBuf := [] }, ⟨[], flushDlBuf far s.dlBuf⟩)

/-- `upf_dp_set_tsc_gate`. -/
def DlSession.setTscGate (s : DlSession) (qfi trafficClass : UInt8)
    (baseTimeNs cycleTimeNs : UInt64) (windows : List (UInt8 × UInt32)) : DlSession :=
  if windows.length = 0 ∨ 16 < windows.length ∨ cycleTimeNs = 0 then s
  else { s with tscGate := ⟨baseTimeNs, cycleTimeNs, windows, qfi, trafficClass &&& 7, true⟩ }

def DlSession.step (s : DlSession) : DlEvent → Option (DlSession × DlOutput)
  | .packet env ipPkt => s.processDlPacket env ipPkt
  | .call c tsc => s.call tb c tsc
  | .setSessionAmbr ul dl tsc =>
    some ({ s with metered := s.metered.setSessionAmbr tb ul dl tsc }, .none)
  | .setTscGate qfi trafficClass baseTimeNs cycleTimeNs windows =>
    some (s.setTscGate qfi trafficClass baseTimeNs cycleTimeNs windows, .none)
  | .clearTscGate => some ({ s with tscGate := { s.tscGate with active := false } }, .none)
  | .setPtpSteering enable => some ({ s with ptpSteering := enable }, .none)

end MmtCore.Upf
