import Mathlib.Algebra.Order.Ring.Unbundled.Rat
import MmtCore.Lib.KeyedRows

/-!
# Dynamic TSC rules

The rules that the PCF derives from the requests of a TSN AF, stored for each subscriber and DNN
(`tsc.go`).
-/

namespace MmtCore.Pcf

open MmtCore.Lib

structure TscaiInput where
  periodicityUS : Nat
  burstArrivalTimeNS : Int
deriving DecidableEq

structure TscQosRequirement where
  req5GSDelayMS : Rat
  maxTscBurstSizeOctets : Int
  priority : Int
  reqGbrUlKbps : Nat
  reqGbrDlKbps : Nat
  reqMbrUlKbps : Nat
  reqMbrDlKbps : Nat
  tscaiInputUl : Option TscaiInput
  tscaiInputDl : Option TscaiInput
  tscaiTimeDom : UInt64
  ethDestMAC : String
  ethVLANID : Int

/-- A PCC rule of a TSC flow; its resource type is GBR and it is never the default one. -/
structure TscPccRule where
  serviceName : String
  fiveQI : Nat
  arpPriority : Int
  gbrUlKbps : Nat
  gbrDlKbps : Nat
  mbrUlKbps : Nat
  mbrDlKbps : Nat
  tscaiInputUl : Option TscaiInput
  tscaiInputDl : Option TscaiInput
  tscaiTimeDom : UInt64
  maxDataBurstVol : Int
  ethDestMAC : String
  ethVLANID : Int
  packetDelayBudgetMS : Rat
deriving DecidableEq

/-! ## The 5QI of a flow -/

structure DelayCritical where
  fiveQI : Nat
  pdbMS : Rat
  mdbvOctets : Int

def delayCriticalGBR : List DelayCritical :=
  [⟨85, 5, 255⟩, ⟨86, 5, 1354⟩, ⟨82, 10, 255⟩, ⟨83, 10, 1354⟩, ⟨84, 30, 1354⟩]

/-- The row serves bursts of that size within that delay; what is not positive asks for nothing. -/
def DelayCritical.Serves (c : DelayCritical) (delayMS : Rat) (burstOctets : Int) : Prop :=
  ¬ (burstOctets > 0 ∧ c.mdbvOctets < burstOctets) ∧ ¬ (delayMS > 0 ∧ c.pdbMS > delayMS)
  deriving Decidable

/-- The first of the rows with the largest delay among those that serve the request. -/
def select5QIForTSC (req5GSDelayMS : Rat) (burstOctets : Int) : Nat :=
  let best := delayCriticalGBR.foldl (fun best c =>
    if ¬ c.Serves req5GSDelayMS burstOctets then best
    else
      match best with
      | none => some c
      | some b => if c.pdbMS > b.pdbMS then some c else some b) none
  (best.map (·.fiveQI)).getD 82

def fiveQICharacteristics (fiveQI : Nat) : Option (Rat × Int) :=
  (delayCriticalGBR.find? (·.fiveQI = fiveQI)).map fun c => (c.pdbMS, c.mdbvOctets)

/-! ## The rule and its store -/

/-- A bit rate of 0 asks for the guaranteed one. -/
def mbr (req gbr : Nat) : Nat := if req = 0 then gbr else req

def tscPccRule (ruleName : String) (req : TscQosRequirement) : TscPccRule :=
  let fiveQI := select5QIForTSC req.req5GSDelayMS req.maxTscBurstSizeOctets
  { serviceName := ruleName
    fiveQI := fiveQI
    arpPriority := if req.priority ≤ 0 ∨ req.priority > 15 then 2 else req.priority
    gbrUlKbps := req.reqGbrUlKbps
    gbrDlKbps := req.reqGbrDlKbps
    mbrUlKbps := mbr req.reqMbrUlKbps req.reqGbrUlKbps
    mbrDlKbps := mbr req.reqMbrDlKbps req.reqGbrDlKbps
    tscaiInputUl := req.tscaiInputUl
    tscaiInputDl := req.tscaiInputDl
    tscaiTimeDom := req.tscaiTimeDom
    maxDataBurstVol := req.maxTscBurstSizeOctets
    ethDestMAC := req.ethDestMAC
    ethVLANID := req.ethVLANID
    packetDelayBudgetMS := ((fiveQICharacteristics fiveQI).map (·.1)).getD 0 }

@[simp] theorem serviceName_tscPccRule (ruleName : String) (req : TscQosRequirement) :
    (tscPccRule ruleName req).serviceName = ruleName := rfl

/-- Subscriber and DNN. -/
structure TscRuleKey where
  imsi : String
  dnn : String
deriving DecidableEq

/-- The rules of each key; one without rules is as good as absent. -/
abbrev TscRuleStore := TscRuleKey → List TscPccRule

/-- The store after the call; the rule installed is `tscPccRule ruleName req`. -/
def installTscPccRule (store : TscRuleStore) (k : TscRuleKey) (rule : TscPccRule) :
    TscRuleStore :=
  fun k' => if k' = k then putRow TscPccRule.serviceName rule (store k) else store k'

/-- The store after the call, and whether the rule existed. -/
def removeTscPccRule (store : TscRuleStore) (k : TscRuleKey) (ruleName : String) :
    TscRuleStore × Bool :=
  (fun k' => if k' = k then dropRow TscPccRule.serviceName ruleName (store k) else store k',
    (store k).any (·.serviceName = ruleName))

/-! ## What is in the store -/

section

variable {store : TscRuleStore} {k k' : TscRuleKey} {rule x : TscPccRule} {ruleName : String}

/-- The names of the rules at the key. -/
def ruleNames (store : TscRuleStore) (k : TscRuleKey) : List String :=
  (store k).map TscPccRule.serviceName

theorem nodup_install (h : (ruleNames store k').Nodup) :
    (ruleNames (installTscPccRule store k rule) k').Nodup := by
  grind [ruleNames, installTscPccRule, nodup_putRow]

theorem nodup_remove (h : (ruleNames store k').Nodup) :
    (ruleNames (removeTscPccRule store k ruleName).1 k').Nodup := by
  grind [ruleNames, removeTscPccRule, nodup_dropRow]

/-- The rule takes the place of the one with its name. -/
theorem mem_install (h : (ruleNames store k).Nodup) :
    x ∈ installTscPccRule store k rule k' ↔
      (k' = k ∧ x = rule) ∨ x ∈ store k' ∧ ¬ (k' = k ∧ x.serviceName = rule.serviceName) := by
  unfold installTscPccRule
  split
  case isTrue heq =>
    rw [mem_putRow h, heq]
    simp
  case isFalse hne => simp [hne]

theorem mem_remove (h : (ruleNames store k).Nodup) :
    x ∈ (removeTscPccRule store k ruleName).1 k' ↔
      x ∈ store k' ∧ ¬ (k' = k ∧ x.serviceName = ruleName) := by
  unfold removeTscPccRule
  dsimp only
  split
  case isTrue heq =>
    rw [mem_dropRow h, heq]
    simp
  case isFalse hne => simp [hne]

/-- Taking out what was just put where no rule had its name gives the store back. -/
theorem mem_remove_install (h : (ruleNames store k).Nodup)
    (hnew : rule.serviceName ∉ ruleNames store k) :
    x ∈ (removeTscPccRule (installTscPccRule store k rule) k rule.serviceName).1 k' ↔
      x ∈ store k' := by
  rw [mem_remove (nodup_install h), mem_install h]
  constructor
  · grind
  · intro hx
    have hother : ¬ (k' = k ∧ x.serviceName = rule.serviceName) := by
      rintro ⟨rfl, hname⟩
      exact hnew (List.mem_map.2 ⟨x, hx, hname⟩)
    exact ⟨.inr ⟨hx, hother⟩, hother⟩

theorem removed_iff :
    (removeTscPccRule store k ruleName).2 = true ↔ ruleName ∈ ruleNames store k := by
  unfold removeTscPccRule ruleNames
  simp

end

end MmtCore.Pcf
