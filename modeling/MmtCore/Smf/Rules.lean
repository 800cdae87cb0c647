import Mathlib.Tactic.IntervalCases
import MmtCore.Lib.RuleTable
import MmtCore.Pfcp.Handler

/-!
# Rules on their way to the UPF

`upf.go` keeps PDRs, FARs, QERs and URRs of each session; `pfcp_bridge.go` turns them into Create
IEs, and the UPF reads these back (`handler_session_establish.go`).  What the UPF has then is what
the manager has as long as the values fit the IEs: the `Fits` of each rule.
-/

namespace MmtCore.Smf

open MmtCore.Lib MmtCore.Upf MmtCore.Pfcp

/-! ## The manager's rules -/

structure PDR where
  pdrID : UInt16
  precedence : UInt32
  pdiSource : UInt8
  qfi : UInt8
  farID : UInt32
  qerID : UInt32
  urrID : UInt32
  sdfRules : List UInt8
  ueIPv4 : UInt32
  teid : UInt32
  n3IPv4 : UInt32
deriving DecidableEq

structure FAR where
  farID : UInt32
  action : UInt8
  dstIface : UInt8
  teid : UInt32
  peerAddr : UInt32
  peerPort : UInt16
deriving DecidableEq

structure QER where
  qerID : UInt32
  qfi : UInt8
  gateUL : UInt8
  gateDL : UInt8
  mbrUL : UInt64
  mbrDL : UInt64
  gbrUL : UInt64
  gbrDL : UInt64
deriving DecidableEq

structure URR where
  urrID : UInt32
  measMethod : UInt8
  reportTrigger : UInt8
  volThreshUL : UInt64
  volThreshDL : UInt64
  timeThresh : UInt32
deriving DecidableEq

/-! ## Create IEs -/

/-- `encU40BE`: a rate saturates at 40 bits. -/
def saturate40 (v : UInt64) : UInt64 := if v > 0xFFFFFFFFFF then 0xFFFFFFFFFF else v

/-- A pair of rates on the wire, when one of them is set. -/
def rates (ul dl : UInt64) : Option (UlDl UInt64) :=
  if ul != 0 || dl != 0 then some ⟨saturate40 ul, saturate40 dl⟩ else none

def ohcGTPUv4 (teid peerAddr : UInt32) : OuterHeaderCreation := ⟨1, teid, some peerAddr⟩

/-- The outer header of a tunnel, when there is one. -/
def outerHeader (teid peerAddr : UInt32) : Option OuterHeaderCreation :=
  if teid != 0 || peerAddr != 0 then some (ohcGTPUv4 teid peerAddr) else none

def buildCreatePDR (p : PDR) : CreatePDR where
  pdrID := p.pdrID
  precedence := p.precedence
  pdi :=
    { sourceInterface := p.pdiSource &&& 0x0F
      qfi := if p.qfi != 0 then [p.qfi &&& 0x3F] else []
      sdfFilter := if p.sdfRules != [] then [p.sdfRules] else []
      ueIPAddress := if p.ueIPv4 != 0 then [some p.ueIPv4] else []
      fteid := if p.teid != 0 then some ⟨false, p.teid⟩ else none }
  farID := if p.farID != 0 then some p.farID else none
  qerID := if p.qerID != 0 then [p.qerID] else []
  urrID := if p.urrID != 0 then [p.urrID] else []

def buildCreateFAR (f : FAR) : CreateFAR where
  farID := f.farID
  applyAction :=
    if f.action == 2 then { buff := 1, forw := 0, drop := 0 }
    else if f.action == 3 then { buff := 0, forw := 0, drop := 1 }
    else { buff := 0, forw := 1, drop := 0 }
  forwardingParameters := some
    { destinationInterface := f.dstIface &&& 0x0F
      outerHeaderCreation := outerHeader f.teid f.peerAddr }

def buildCreateQER (q : QER) : CreateQER where
  qerID := q.qerID
  qfi := if q.qfi != 0 then some (q.qfi &&& 0x3F) else none
  gateStatus := ⟨q.gateUL &&& 0x03, q.gateDL &&& 0x03⟩
  mbr := rates q.mbrUL q.mbrDL
  gbr := rates q.gbrUL q.gbrDL

def buildCreateURR (u : URR) : CreateURR where
  urrID := u.urrID
  measurementMethod :=
    { event := (u.measMethod >>> 2) &&& 1
      volum := (u.measMethod >>> 1) &&& 1
      durat := u.measMethod &&& 1 }
  reportingTriggers := u.reportTrigger.toUInt16
  volumeThreshold :=
    if u.volThreshUL != 0 || u.volThreshDL != 0 then
      some ⟨some u.volThreshUL, some u.volThreshDL⟩
    else none
  timeThreshold := if u.timeThresh != 0 then some u.timeThresh else none

/-! ## What the UPF makes of them -/

/-- What the UPF keeps of a PDR: the rule, and the keys it registers for it. -/
structure PeerPDR where
  rule : PdrRule
  teid : UInt32
  ueIPv4 : UInt32
deriving DecidableEq

/-- What a FAR does, the same on both sides. -/
structure Forwarding where
  action : UInt8
  dstIface : UInt8
  teid : UInt32
  peerAddr : UInt32
  peerPort : UInt16
deriving DecidableEq

/-- The rules of a session, as both sides can state them. -/
structure Rules where
  pdrs : RuleTable UInt16 PeerPDR
  fars : RuleTable UInt32 Forwarding
  qers : RuleTable UInt32 QerRule
  urrs : RuleTable UInt32 UrrRule
deriving DecidableEq

def Rules.empty : Rules := ⟨[], [], [], []⟩

def Forwarding.ofRule (r : FarRule) : Forwarding :=
  ⟨r.action, r.dstIface, r.teid, r.peerAddr, r.peerPort⟩

/-- What the UPF reads in a Create PDR. -/
def createdPDR (pdr : CreatePDR) : UInt16 × PeerPDR :=
  (pdr.pdrID, ⟨pdr.rule, pdr.pdi.teid, pdr.pdi.ueIPv4⟩)

def createdFAR (far : CreateFAR) : UInt32 × FarRule := (far.farID, far.rule)

def createdQER (qer : CreateQER) : UInt32 × QerRule := (qer.qerID, qer.rule)

def createdURR (urr : CreateURR) : UInt32 × UrrRule := (urr.urrID, urr.rule)

/-! ## What the manager means -/

def PDR.entry (p : PDR) : UInt16 × PeerPDR :=
  (p.pdrID,
    { rule :=
        { precedence := p.precedence
          pdiSource := p.pdiSource
          qfi := p.qfi
          farID := p.farID
          qerID := p.qerID
          urrID := p.urrID
          sdfRules := p.sdfRules }
      teid := p.teid
      ueIPv4 := p.ueIPv4 })

def FAR.entry (f : FAR) : UInt32 × Forwarding :=
  (f.farID, ⟨f.action, f.dstIface, f.teid, f.peerAddr, f.peerPort⟩)

def QER.entry (q : QER) : UInt32 × QerRule :=
  (q.qerID, ⟨q.qfi, q.gateUL, q.gateDL, q.mbrUL, q.mbrDL, q.gbrUL, q.gbrDL⟩)

def URR.entry (u : URR) : UInt32 × UrrRule :=
  (u.urrID, ⟨u.measMethod, u.reportTrigger, u.volThreshUL, u.volThreshDL, u.timeThresh⟩)

/-! ## Values that fit the IEs -/

/-- The port that goes with a tunnel. -/
def tunnelPort (teid peerAddr : UInt32) : UInt16 :=
  if teid != 0 || peerAddr != 0 then 2152 else 0

structure PDR.Fits (p : PDR) : Prop where
  pdiSource : p.pdiSource < 16
  qfi : p.qfi < 64

structure FAR.Fits (f : FAR) : Prop where
  action : f.action = 1 ∨ f.action = 2 ∨ f.action = 3
  dstIface : f.dstIface < 16
  peerPort : f.peerPort = tunnelPort f.teid f.peerAddr

structure QER.Fits (q : QER) : Prop where
  qfi : q.qfi < 64
  gateUL : q.gateUL < 4
  gateDL : q.gateDL < 4
  mbrUL : q.mbrUL ≤ 0xFFFFFFFFFF
  mbrDL : q.mbrDL ≤ 0xFFFFFFFFFF
  gbrUL : q.gbrUL ≤ 0xFFFFFFFFFF
  gbrDL : q.gbrDL ≤ 0xFFFFFFFFFF

def URR.Fits (u : URR) : Prop := u.measMethod < 8

/-! ## What fits arrives -/

/-- Masking the low bits of a small number. -/
theorem mask_eq {x m : UInt8} {n : Nat} (hm : m.toNat = 2 ^ n - 1) (hx : x.toNat < 2 ^ n) :
    x &&& m = x := by
  apply UInt8.toNat_inj.1
  rw [UInt8.toNat_and, hm, Nat.and_two_pow_sub_one_eq_mod, Nat.mod_eq_of_lt hx]

/-- A field that is left out when it is 0 reads 0 then. -/
theorem headD_opt {α : Type} [BEq α] [LawfulBEq α] (x d : α) :
    (if x != d then [x] else []).headD d = x := by
  by_cases h : x = d <;> simp [h]

theorem getD_opt {α : Type} [BEq α] [LawfulBEq α] (x d : α) :
    (if x != d then some x else none).getD d = x := by
  by_cases h : x = d <;> simp [h]

theorem qfi_read {x : UInt8} (hx : x < 64) :
    (if x != 0 then [x &&& 0x3F] else []).headD 0 = x := by
  rw [mask_eq (m := 0x3F) (n := 6) rfl hx, headD_opt]

theorem createdPDR_build {p : PDR} (h : p.Fits) : createdPDR (buildCreatePDR p) = p.entry := by
  have hsrc : p.pdiSource &&& 0x0F = p.pdiSource := mask_eq (m := 0x0F) (n := 4) rfl h.pdiSource
  have hteid : (buildCreatePDR p).pdi.teid = p.teid := by
    grind [buildCreatePDR, PDI.teid]
  have hip : (buildCreatePDR p).pdi.ueIPv4 = p.ueIPv4 := by
    grind [buildCreatePDR, PDI.ueIPv4]
  unfold createdPDR PDR.entry
  rw [hteid, hip]
  unfold CreatePDR.rule buildCreatePDR
  rw [hsrc, qfi_read h.qfi, headD_opt, headD_opt, headD_opt, getD_opt]

theorem readOHC_ohcGTPUv4 (teid peerAddr : UInt32) :
    readOHCGTPUv4 (some (ohcGTPUv4 teid peerAddr)) = (teid, peerAddr) := by
  unfold readOHCGTPUv4 ohcGTPUv4
  dsimp only
  rw [if_neg (by decide), Option.getD_some]

theorem readOHC_outerHeader (teid peerAddr : UInt32) :
    readOHCGTPUv4 (outerHeader teid peerAddr) = (teid, peerAddr) := by
  unfold outerHeader
  split
  case isTrue => exact readOHC_ohcGTPUv4 teid peerAddr
  case isFalse h =>
    simp only [Bool.or_eq_true, bne_iff_ne, ne_eq, not_or, not_not] at h
    rw [h.1, h.2]
    rfl

theorem createdFAR_build {f : FAR} (h : f.Fits) :
    (f.farID, Forwarding.ofRule (createdFAR (buildCreateFAR f)).2) = f.entry := by
  have hdst : f.dstIface &&& 0x0F = f.dstIface := mask_eq (m := 0x0F) (n := 4) rfl h.dstIface
  have hact : (buildCreateFAR f).applyAction.action = f.action := by
    unfold buildCreateFAR
    obtain hf | hf | hf := h.action <;> rw [hf] <;> rfl
  have hohc : readOHCGTPUv4
      ((buildCreateFAR f).forwardingParameters.bind (·.outerHeaderCreation)) =
        (f.teid, f.peerAddr) := readOHC_outerHeader f.teid f.peerAddr
  unfold createdFAR FAR.entry CreateFAR.rule Forwarding.ofRule
  rw [hohc, hact, h.peerPort]
  refine Prod.ext rfl ?_
  change Forwarding.mk _ (f.dstIface &&& 0x0F) _ _ _ = _
  rw [hdst]
  rfl

theorem rates_read {ul dl : UInt64} (hul : ul ≤ 0xFFFFFFFFFF) (hdl : dl ≤ 0xFFFFFFFFFF) :
    (rates ul dl).getD ⟨0, 0⟩ = ⟨ul, dl⟩ := by
  have hsul : saturate40 ul = ul := if_neg (by simpa using hul)
  have hsdl : saturate40 dl = dl := if_neg (by simpa using hdl)
  unfold rates
  rw [hsul, hsdl]
  split
  case isTrue => rfl
  case isFalse h =>
    simp only [Bool.or_eq_true, bne_iff_ne, ne_eq, not_or, not_not] at h
    rw [h.1, h.2]
    rfl

theorem createdQER_build {q : QER} (h : q.Fits) : createdQER (buildCreateQER q) = q.entry := by
  have hul : q.gateUL &&& 0x03 = q.gateUL := mask_eq (m := 0x03) (n := 2) rfl h.gateUL
  have hdl : q.gateDL &&& 0x03 = q.gateDL := mask_eq (m := 0x03) (n := 2) rfl h.gateDL
  have hqfi : q.qfi &&& 0x3F = q.qfi := mask_eq (m := 0x3F) (n := 6) rfl h.qfi
  unfold createdQER QER.entry CreateQER.rule buildCreateQER qerRule
  rw [hul, hdl, hqfi, getD_opt, rates_read h.mbrUL h.mbrDL, rates_read h.gbrUL h.gbrDL]

theorem measMethod_bits {m : UInt8} (h : m < 8) :
    ((m >>> 2 &&& 1) &&& 1) <<< 2 ||| ((m >>> 1 &&& 1) &&& 1) <<< 1 ||| ((m &&& 1) &&& 1) = m := by
  have hlt : m.toNat < 8 := h
  obtain ⟨n, hn, rfl⟩ : ∃ n, n < 8 ∧ m = UInt8.ofNat n := ⟨m.toNat, hlt, by simp⟩
  interval_cases n <;> rfl

theorem createdURR_build {u : URR} (h : u.Fits) : createdURR (buildCreateURR u) = u.entry := by
  have hbits : (buildCreateURR u).measurementMethod.bits = u.measMethod := measMethod_bits h
  have htrig : u.reportTrigger.toUInt16.toUInt8 = u.reportTrigger := UInt8.toUInt8_toUInt16 _
  unfold createdURR URR.entry CreateURR.rule
  rw [hbits]
  unfold buildCreateURR urrRule
  rw [htrig, getD_opt]
  by_cases hz : u.volThreshUL = 0 ∧ u.volThreshDL = 0
  · simp [hz.1, hz.2]
  · grind

end MmtCore.Smf
