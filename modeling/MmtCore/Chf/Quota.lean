import Mathlib.Data.List.Sort
import MmtCore.Lib.Reach
import MmtCore.Chf.Rating

/-!
# Quotas of online charging

`quota_manager.go`, and the balance operations of `balance_manager.go` as the statements the
database executes.  A call reads first; each statement it issues afterwards is kept, with the
values bound to it, until its turn comes.  Amounts are exact rationals.
-/

namespace MmtCore.Chf

inductive GrantStatus
  | active | exhausted | expired | revoked
deriving DecidableEq

/-- A row of `quota_grants`. -/
structure QuotaGrant where
  id : Nat
  imsi : Imsi
  serviceName : String
  grantedUnits : Int
  usedUnits : Int
  validityTime : Int
  grantedAt : Int
  expiresAt : Option Int
  status : GrantStatus
deriving DecidableEq

def QuotaGrant.pastExpiry (g : QuotaGrant) (now : Int) : Bool := g.expiresAt.any (· < now)

/-- A row of `services`. -/
structure Service where
  name : String
  chargingProfile : Option String

/-- A row of `charging_profiles`; an absent quota is 0. -/
structure ChargingProfile where
  name : String
  volQuotaUL : Int
  volQuotaDL : Int
  timeQuotaSec : Int

/-- The tables that the calls only read. -/
structure QuotaConfig where
  services : List Service
  profiles : List ChargingProfile
  plans : List TariffPlan

namespace QuotaConfig

variable (config : QuotaConfig)

def getChargingProfile (serviceName : String) : Option ChargingProfile :=
  (config.services.find? (·.name = serviceName)).bind fun s =>
    s.chargingProfile.bind fun name => config.profiles.find? (·.name = name)

/-- The cost of a unit of the plan, if its unit size is one. -/
def perUnit (p : TariffPlan) : Option ℚ :=
  if p.tariff.unitSize > 0 then some (p.tariff.unitCost / p.tariff.unitSize) else none

def estimateUnitCost (service : String) : ℚ :=
  let bound := (config.getChargingProfile service).bind fun cp =>
    config.plans.find? (·.name = cp.name)
  match bound.bind perUnit with
  | some cost => cost
  | none =>
    match (config.plans.find? (·.name = "default")).bind perUnit with
    | some cost => cost
    | none => 1 / 100 / 1048576

/-- What the charging profile leaves of a request. -/
def maxFromProfile (service : String) (requestedUnits : Int) : Int :=
  match config.getChargingProfile service with
  | none => requestedUnits
  | some profile =>
    let max := if profile.volQuotaUL > 0 ∧ profile.volQuotaUL < requestedUnits
      then profile.volQuotaUL else requestedUnits
    if profile.volQuotaDL > 0 ∧ profile.volQuotaDL < max then profile.volQuotaDL else max

def validityTime (service : String) : Int :=
  match config.getChargingProfile service with
  | none => 3600
  | some profile => if profile.timeQuotaSec > 0 then profile.timeQuotaSec else 3600

end QuotaConfig

/-- `int64` of a number: its fraction is dropped. -/
def int64Of (x : ℚ) : Int := if 0 ≤ x then ⌊x⌋ else ⌈x⌉

def Balance.availableFunds (b : Balance) : ℚ := b.balanceAmount + b.creditLimit

namespace QuotaConfig

variable (config : QuotaConfig)

def maxFromBalance (service : String) (requestedUnits : Int) (b : Balance) : Int :=
  let unitCost := config.estimateUnitCost service
  let max := if unitCost > 0 then int64Of (b.availableFunds / unitCost) else requestedUnits
  if max < 0 then 0 else max

/-- The units of a grant: the least of the request and the two bounds. -/
def granted (service : String) (requestedUnits : Int) (b : Balance) : Int :=
  let granted := requestedUnits
  let granted := if config.maxFromProfile service requestedUnits < granted
    then config.maxFromProfile service requestedUnits else granted
  if config.maxFromBalance service requestedUnits b < granted
    then config.maxFromBalance service requestedUnits b else granted

end QuotaConfig

/-- The statements that follow the reads of a call. -/
inductive Statement
  | updateDebit (imsi : Imsi) (balanceType : String) (b : Balance) (amount : ℚ)
    (reference : String)
  | updateRecharge (imsi : Imsi) (balanceType : String) (balanceBefore amount : ℚ)
    (reference : String)
  | insertBalance (imsi : Imsi) (balanceType : String) (amount : ℚ) (reference : String)
  | insertTxn (t : PaymentTransaction)
  | insertGrant (imsi : Imsi) (service : String) (requestedUnits : Int) (b : Balance)
  | updateUsage (grantID : Nat) (newUsed : Int) (exhausted : Bool)
  | expireGrant (grantID : Nat)
  | expireGrants (imsi : Imsi) (service : String)
deriving DecidableEq

structure QuotaDb where
  config : QuotaConfig
  ledger : Ledger
  grants : List QuotaGrant
  nextID : Nat
  /-- What the calls under way have still to issue. -/
  inFlight : List Statement

/-- Why no units are granted. -/
inductive GrantRefusal
  | noBalance | balanceExhausted | insufficientFunds
deriving DecidableEq

namespace QuotaDb

variable (db : QuotaDb)

/-! ## What the calls read -/

/-- The reads of `GrantQuota`: the balance that the grant is measured by. -/
def grantQuota (imsi : Imsi) (service : String) (requestedUnits : Int) :
    Except GrantRefusal Balance :=
  match db.ledger.balances (imsi, "main") with
  | none => .error .noBalance
  | some b =>
    if b.status = .exhausted then .error .balanceExhausted
    else if db.config.granted service requestedUnits b ≤ 0 then .error .insufficientFunds
    else .ok b

/-- The active grant that was made last; ties in the order of the table. -/
def activeGrant (imsi : Imsi) (service : String) : Option QuotaGrant :=
  ((db.grants.filter fun g => g.imsi = imsi ∧ g.serviceName = service ∧ g.status = .active
    ).insertionSort fun a b => b.grantedAt ≤ a.grantedAt).head?

def issue (s : Statement) : QuotaDb := { db with inFlight := s :: db.inFlight }

def orMain (balanceType : String) : String := if balanceType = "" then "main" else balanceType

def debit (imsi : Imsi) (amount : ℚ) (balanceType reference : String) : QuotaDb :=
  match db.ledger.balances (imsi, orMain balanceType) with
  | none => db
  | some b =>
    match b.debited amount with
    | none => db
    | some _ => db.issue (.updateDebit imsi (orMain balanceType) b amount reference)

/-- The handler of the recharge request and `Recharge`. -/
def recharge (imsi : Imsi) (amount : ℚ) (balanceType reference : String) : QuotaDb :=
  if imsi = "" ∨ amount ≤ 0 then db
  else
    match db.ledger.balances (imsi, orMain balanceType) with
    | none => db.issue (.insertBalance imsi (orMain balanceType) amount reference)
    | some b =>
      db.issue (.updateRecharge imsi (orMain balanceType) b.balanceAmount amount reference)

def reportUsage (imsi : Imsi) (service : String) (usedUnits now : Int) : QuotaDb :=
  match db.activeGrant imsi service with
  | none => db
  | some g =>
    if g.pastExpiry now then db.issue (.expireGrant g.id)
    else
      let newUsed := g.usedUnits + usedUnits
      db.issue (.updateUsage g.id newUsed (g.grantedUnits - newUsed ≤ 0))

def checkQuota (imsi : Imsi) (service : String) (now : Int) : QuotaDb :=
  match db.activeGrant imsi service with
  | none => db
  | some g => if g.pastExpiry now then db.issue (.expireGrants imsi service) else db

/-! ## What they write -/

/-- An `UPDATE quota_grants` of the rows that match. -/
def updateGrants (p : QuotaGrant → Bool) (f : QuotaGrant → QuotaGrant) : QuotaDb :=
  { db with grants := db.grants.map fun g => if p g then f g else g }

/-- `RevokeQuota` is one statement. -/
def revokeQuota (imsi : Imsi) (service : String) : QuotaDb :=
  db.updateGrants (fun g => g.imsi = imsi ∧ g.serviceName = service ∧ g.status = .active)
    fun g => { g with status := .revoked }

/-- One statement at the time `now`, and the one the call issues next. -/
def execute (now : Int) : Statement → QuotaDb
  | .updateDebit imsi balanceType b amount reference =>
    let balanceAfter := b.balanceAmount - amount
    { db with
      ledger := db.ledger.updateBalance (imsi, balanceType) fun row =>
        { row with balanceAmount := balanceAfter, status := debitStatus balanceAfter }
    }.issue (.insertTxn
      ⟨imsi, balanceType, .debit, amount, b.balanceAmount, balanceAfter, reference⟩)
  | .updateRecharge imsi balanceType balanceBefore amount reference =>
    let balanceAfter := balanceBefore + amount
    { db with
      ledger := db.ledger.updateBalance (imsi, balanceType) fun row =>
        { row with balanceAmount := balanceAfter, status := .active }
    }.issue (.insertTxn
      ⟨imsi, balanceType, .recharge, amount, balanceBefore, balanceAfter, reference⟩)
  | .insertBalance imsi balanceType amount reference =>
    { db with ledger := db.ledger.createBalance (imsi, balanceType) amount "USD" 0 1 }.issue
      (.insertTxn ⟨imsi, balanceType, .recharge, amount, 0, amount, reference⟩)
  | .insertTxn t => { db with ledger := db.ledger.recordTxn t }
  | .insertGrant imsi service requestedUnits b =>
    let validityTime := db.config.validityTime service
    { db with
      grants := db.grants ++
        [⟨db.nextID, imsi, service, db.config.granted service requestedUnits b, 0, validityTime,
          now, some (now + validityTime), .active⟩]
      nextID := db.nextID + 1 }
  | .updateUsage grantID newUsed exhausted =>
    db.updateGrants (fun g => g.id = grantID) fun g =>
      { g with usedUnits := newUsed, status := if exhausted then .exhausted else g.status }
  | .expireGrant grantID =>
    db.updateGrants (fun g => g.id = grantID) fun g => { g with status := .expired }
  | .expireGrants imsi service =>
    db.updateGrants (fun g => g.imsi = imsi ∧ g.serviceName = service ∧ g.status = .active)
      fun g => { g with status := .expired }

/-- The next statement of a call under way is executed. -/
def proceed (s : Statement) (now : Int) : QuotaDb :=
  if s ∈ db.inFlight then { db with inFlight := db.inFlight.erase s }.execute now s else db

end QuotaDb

/-! ## Events -/

/-- A call arrives and makes its reads, or one under way goes on with a statement. -/
inductive QuotaEvent
  | debit (imsi : Imsi) (amount : ℚ) (balanceType reference : String)
  | recharge (imsi : Imsi) (amount : ℚ) (balanceType reference : String)
  | checkBalance (imsi : Imsi) (requiredAmount : ℚ)
  | grantQuota (imsi : Imsi) (service : String) (requestedUnits : Int)
  | reportUsage (imsi : Imsi) (service : String) (usedUnits now : Int)
  | checkQuota (imsi : Imsi) (service : String) (now : Int)
  | revokeQuota (imsi : Imsi) (service : String)
  | proceed (s : Statement) (now : Int)

def QuotaDb.step (db : QuotaDb) : QuotaEvent → QuotaDb
  | .debit imsi amount balanceType reference => db.debit imsi amount balanceType reference
  | .recharge imsi amount balanceType reference => db.recharge imsi amount balanceType reference
  | .checkBalance _ _ => db
  | .grantQuota imsi service requestedUnits =>
    match db.grantQuota imsi service requestedUnits with
    | .error _ => db
    | .ok b => db.issue (.insertGrant imsi service requestedUnits b)
  | .reportUsage imsi service usedUnits now => db.reportUsage imsi service usedUnits now
  | .checkQuota imsi service now => db.checkQuota imsi service now
  | .revokeQuota imsi service => db.revokeQuota imsi service
  | .proceed s now => db.proceed s now

end MmtCore.Chf
