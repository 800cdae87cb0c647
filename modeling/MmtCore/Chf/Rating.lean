import MmtCore.Lib.AssocMap
import MmtCore.Chf.Balance

/-!
# Rating

`rating.go`: what a charging data record costs under a tariff.  Amounts are exact rationals; they
are rounded to four decimals as the source rounds them.
-/

namespace MmtCore.Chf

open MmtCore.Lib

inductive CdrType
  | data | voice | video | sms | event
deriving DecidableEq

inductive ChargingMethod
  | online | offline
deriving DecidableEq

inductive RatingStatus
  | pending | rated | invoiced | exported
deriving DecidableEq

/-- A row of `cdrs`, known by its `cdr_id`. -/
structure CDR where
  cdrID : String
  imsi : Imsi
  cdrType : CdrType
  pduSessionID : Option Int
  dnn : Option String
  fiveQI : Option Int
  startTime : Int
  endTime : Int
  durationSec : ℚ
  totalBytes : Int
  chargingMethod : ChargingMethod
  tariffPlanID : Option Nat
  ratingStatus : RatingStatus
  createdAt : Int
deriving DecidableEq

inductive ChargeType
  | volume | time | event | flat | other
deriving DecidableEq

/-- A tariff as `RateCDR` reads it; a table of rates that does not parse is absent. -/
structure Tariff where
  chargeType : ChargeType
  unitCost : ℚ
  unitSize : ℚ
  freeBytes : ℚ
  freeSecs : ℚ
  currency : String
  per5qiRates : Option (AssocMap String ℚ)
  perDNNRates : Option (AssocMap String ℚ)

/-- A row of `tariff_plans`. -/
structure TariffPlan where
  id : Nat
  name : String
  tariff : Tariff

def loadTariff (plans : List TariffPlan) (tariffID : Option Nat) : Option Tariff :=
  tariffID.bind fun id => (plans.find? (·.id = id)).map (·.tariff)

/-- The plan of this name without free tiers and overrides; the values are those of the plan that
is created when there is none. -/
def getDefaultTariff (plans : List TariffPlan) : Tariff :=
  match plans.find? (·.name = "default") with
  | some p =>
    { p.tariff with freeBytes := 0, freeSecs := 0, per5qiRates := none, perDNNRates := none }
  | none => ⟨.volume, 1 / 100, 1048576, 0, 0, "USD", none, none⟩

/-- A row of `rated_cdrs`. -/
structure RatedCDR where
  cdrID : String
  imsi : Imsi
  chargeAmount : ℚ
  currency : String
  unitCount : ℚ
  unitType : String
  discountApplied : ℚ
  taxAmount : ℚ
  taxRate : ℚ
  totalAmount : ℚ
deriving DecidableEq

/-- `math.Round`: halves away from zero. -/
def mathRound (x : ℚ) : ℚ := if 0 ≤ x then ⌊x + 1 / 2⌋ else ⌈x - 1 / 2⌉

def round4 (x : ℚ) : ℚ := mathRound (x * 10000) / 10000

/-- The cost of a unit after the overrides for 5QI and DNN. -/
def unitCostFor (t : Tariff) (cdr : CDR) : ℚ :=
  let per5qi := t.per5qiRates.bind fun rates => rates.lookup (toString (cdr.fiveQI.getD 0))
  let perDNN := t.perDNNRates.bind fun rates => rates.lookup (cdr.dnn.getD "")
  perDNN.getD (per5qi.getD t.unitCost)

def unitCountFor (t : Tariff) (cdr : CDR) : ℚ × String :=
  let unitSize := if t.unitSize < 1 then 1 else t.unitSize
  match t.chargeType with
  | .volume => (max 0 ((cdr.totalBytes : ℚ) - t.freeBytes) / unitSize,
      if unitSize ≥ 1048576 then "MB" else if unitSize ≥ 1024 then "KB" else "B")
  | .time => (max 0 (cdr.durationSec - t.freeSecs) / unitSize,
      if unitSize ≥ 60 then "min" else "sec")
  | .event => (1, "event")
  | .flat => (1, "flat")
  | .other => (0, "MB")

/-- `RateCDR` without a given tariff. -/
def rateCDR (plans : List TariffPlan) (cdr : CDR) (taxRate : ℚ) : RatedCDR :=
  let t := (loadTariff plans cdr.tariffPlanID).getD (getDefaultTariff plans)
  let (unitCount, unitType) := unitCountFor t cdr
  let charge := round4 (unitCount * unitCostFor t cdr)
  let tax := round4 (charge * taxRate)
  { cdrID := cdr.cdrID
    imsi := cdr.imsi
    chargeAmount := charge
    currency := t.currency
    unitCount := round4 unitCount
    unitType := unitType
    discountApplied := 0
    taxAmount := tax
    taxRate := taxRate
    totalAmount := round4 (charge + tax) }

end MmtCore.Chf
