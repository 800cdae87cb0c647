import Mathlib.Data.List.Sort
import MmtCore.Lib.Reach
import MmtCore.Chf.Rating

/-!
# Charging data records, rating and invoices

`cdr.go` and the batch of `rating.go` over the tables of the charging function.  A released session
leaves a record; an online one is debited at once, the others are rated and invoiced later.
-/

namespace MmtCore.Chf

/-- A row of `charging_sessions`. -/
structure ChargingSession where
  sessionID : String
  serviceName : String
  chargingMethod : ChargingMethod
  /-- The status is `active` or `interim`. -/
  live : Bool
deriving DecidableEq

/-- A billing period; its end is not part of it. -/
structure Period where
  start : Int
  stop : Int
deriving DecidableEq

def Period.covers (p : Period) (t : Int) : Bool := p.start ≤ t ∧ t < p.stop

/-- A row of `invoices`. -/
structure Invoice where
  invoiceNumber : String
  imsi : Imsi
  period : Period
  dataCharges : ℚ
  voiceCharges : ℚ
  videoCharges : ℚ
  tax : ℚ
  total : ℚ
  /-- The records that were added up; the table does not keep them. -/
  lines : List String
deriving DecidableEq

structure ChfDb where
  ledger : Ledger
  plans : List TariffPlan
  sessions : List ChargingSession
  cdrs : List CDR
  ratedCdrs : List RatedCDR
  invoices : List Invoice

def sessionIDOf (imsi : Imsi) (pduSessionID : Int) : String := imsi ++ "-" ++ toString pduSessionID

namespace ChfDb

variable (db : ChfDb)

/-! ## Records -/

/-- An insert into `cdrs`; a `cdr_id` that is there is an error. -/
def insertCDR (c : CDR) : Option ChfDb :=
  if db.cdrs.any (·.cdrID = c.cdrID) then none else some { db with cdrs := db.cdrs ++ [c] }

/-- The row `GenerateDataCDR` inserts. -/
def dataCDR (imsi : Imsi) (pduSessionID : Int) (dnn : String) (startTime endTime totalBytes : Int)
    (fiveqi : Int) (chargingMethod : ChargingMethod) (tariffPlanID : Option Nat) (now : Int) :
    CDR :=
  let startTime := if startTime = 0 then now else startTime
  let endTime := if endTime = 0 then now else endTime
  { cdrID := "CDR-" ++ imsi ++ "-" ++ toString pduSessionID ++ "-" ++ toString endTime
    imsi := imsi
    cdrType := .data
    pduSessionID := some pduSessionID
    dnn := some dnn
    fiveQI := some fiveqi
    startTime := startTime
    endTime := endTime
    durationSec := endTime - startTime
    totalBytes := totalBytes
    chargingMethod := chargingMethod
    tariffPlanID := tariffPlanID
    ratingStatus := .pending
    createdAt := now }

/-- The row `GenerateVoiceCDR` inserts for a call that `OnIMSCallEnded` reports. -/
def voiceCDR (imsi : Imsi) (callID : String) (startTime endTime : Int) (video : Bool) (now : Int) :
    CDR :=
  let startTime := if startTime = 0 then now else startTime
  let endTime := if endTime = 0 then now else endTime
  { cdrID := "CDR-" ++ imsi ++ "-" ++ callID ++ "-" ++ toString endTime
    imsi := imsi
    cdrType := if video then .video else .voice
    pduSessionID := none
    dnn := none
    fiveQI := none
    startTime := startTime
    endTime := endTime
    durationSec := endTime - startTime
    totalBytes := 0
    chargingMethod := .offline
    tariffPlanID := none
    ratingStatus := .pending
    createdAt := now }

/-- `GetCDRs` of a subscriber without other filters: the latest first, ties in the order of the
table. -/
def getCDRs (imsi : Imsi) (limit : Nat) : List CDR :=
  ((db.cdrs.filter fun c => imsi = "" ∨ c.imsi = imsi).insertionSort
    fun a b => b.createdAt ≤ a.createdAt).take limit

/-! ## Sessions -/

/-- `OnPDUSessionCreated`; the row stays when the balance refuses the session. -/
def onPDUSessionCreated (imsi : Imsi) (pduSessionID : Int) (chargingMethod : ChargingMethod) :
    ChfDb × Bool :=
  let sessionID := sessionIDOf imsi pduSessionID
  ({ db with
      sessions := db.sessions.filter (·.sessionID ≠ sessionID) ++
        [⟨sessionID, "default", chargingMethod, true⟩] },
    chargingMethod = .offline || (db.ledger.checkBalance imsi 0).1)

/-- The debit at the end of an online session. -/
def debitRelease (imsi : Imsi) (cdrID : String) : ChfDb :=
  match db.getCDRs imsi 1 with
  | [] => db
  | c :: _ =>
    let rated := rateCDR db.plans c 0
    if rated.totalAmount > 0 then
      { db with ledger := (db.ledger.debit imsi rated.totalAmount "main" cdrID).1 }
    else db

/-- The live charging session: its method and service. -/
def liveSession (imsi : Imsi) (pduSessionID : Int) : Option ChargingSession :=
  db.sessions.find? fun s => s.sessionID = sessionIDOf imsi pduSessionID ∧ s.live

/-- How the session is charged: offline if there is no live charging session. -/
def methodOf (imsi : Imsi) (pduSessionID : Int) : ChargingMethod :=
  ((db.liveSession imsi pduSessionID).map (·.chargingMethod)).getD .offline

/-- The record of a release. -/
def releaseCDR (imsi : Imsi) (pduSessionID ts now : Int) : CDR :=
  dataCDR imsi pduSessionID
    (((db.liveSession imsi pduSessionID).map (·.serviceName)).getD "internet") (ts - 1) ts 0 9
    (db.methodOf imsi pduSessionID) none now

def closeSession (imsi : Imsi) (pduSessionID : Int) : ChfDb :=
  { db with
    sessions := db.sessions.map fun s =>
      if s.sessionID = sessionIDOf imsi pduSessionID ∧ s.live then { s with live := false } else s }

/-- `OnPDUSessionReleased` at the time `ts`; the record is created at `now`. -/
def onPDUSessionReleased (imsi : Imsi) (pduSessionID ts now : Int) : ChfDb :=
  let cdr := db.releaseCDR imsi pduSessionID ts now
  match (db.closeSession imsi pduSessionID).insertCDR cdr with
  | none => db.closeSession imsi pduSessionID
  | some db' =>
    if db.methodOf imsi pduSessionID = .online then db'.debitRelease imsi cdr.cdrID else db'

/-! ## Rating -/

/-- The pending records of a run, the oldest first. -/
def pendingCDRs (limit : Nat) : List CDR :=
  ((db.cdrs.filter (·.ratingStatus = .pending)).insertionSort
    fun a b => a.createdAt ≤ b.createdAt).take limit

def setStatus (p : CDR → Bool) (st : RatingStatus) : List CDR :=
  db.cdrs.map fun c => if p c then { c with ratingStatus := st } else c

/-- One record of the run. -/
def ratePending (taxRate : ℚ) (c : CDR) : ChfDb :=
  { db with
    ratedCdrs := db.ratedCdrs ++ [rateCDR db.plans c taxRate]
    cdrs := db.setStatus (·.cdrID = c.cdrID) .rated }

def ratePendingCDRsWithTax (taxRate : ℚ) (limit : Int) : ChfDb :=
  let limit := if limit ≤ 0 then 500 else limit.toNat
  (db.pendingCDRs limit).foldl (fun db c => db.ratePending taxRate c) db

/-! ## Invoices -/

/-- The join of `rated_cdrs` and `cdrs` over a period. -/
def ratedIn (p : Period) : List (RatedCDR × CDR) :=
  db.ratedCdrs.filterMap fun r =>
    (db.cdrs.find? (·.cdrID = r.cdrID)).bind fun c =>
      if p.covers c.createdAt then some (r, c) else none

/-- The rows of one subscriber. -/
def ratedOf (imsi : Imsi) (p : Period) : List (RatedCDR × CDR) :=
  (db.ratedIn p).filter (·.1.imsi = imsi)

def chargesOf (rows : List (RatedCDR × CDR)) (t : CdrType) : ℚ :=
  ((rows.filter (·.2.cdrType = t)).map (·.1.totalAmount)).sum

/-- `generateSingleInvoice`; an invoice number that is there is an error. -/
def generateSingleInvoice (p : Period) (imsi : Imsi) (invoiceNumber : String) : ChfDb :=
  let rows := db.ratedOf imsi p
  if rows = [] then db
  else
    let data := chargesOf rows .data
    let voice := chargesOf rows .voice
    let video := chargesOf rows .video
    let tax := (rows.map (·.1.taxAmount)).sum
    if db.invoices.any (·.invoiceNumber = invoiceNumber) then db
    else
      { db with
        invoices := db.invoices ++
          [{ invoiceNumber := invoiceNumber
             imsi := imsi
             period := p
             dataCharges := data
             voiceCharges := voice
             videoCharges := video
             tax := tax
             total := data + voice + video + tax
             lines := rows.map (·.1.cdrID) }]
        cdrs := db.setStatus
          (fun c => c.imsi = imsi ∧ p.covers c.createdAt ∧ c.ratingStatus = .rated) .invoiced }

/-- The subscribers with a rated record in the period. -/
def billedImsis (p : Period) : List Imsi :=
  (((db.ratedIn p).filter (·.2.ratingStatus = .rated)).map (·.1.imsi)).dedup

/-- `GenerateInvoices`; the clock gives each invoice its number. -/
def generateInvoices (p : Period) (number : Imsi → String) : ChfDb :=
  (db.billedImsis p).foldl (fun db imsi => db.generateSingleInvoice p imsi (number imsi)) db

end ChfDb

/-! ## Events -/

inductive ChfEvent
  | sessionCreated (imsi : Imsi) (pduSessionID : Int) (chargingMethod : ChargingMethod)
  | sessionReleased (imsi : Imsi) (pduSessionID ts now : Int)
  | callEnded (imsi : Imsi) (callID : String) (startTime endTime : Int) (video : Bool) (now : Int)
  | ratePending (taxRate : ℚ) (limit : Int)
  | generateInvoices (p : Period) (number : Imsi → String)

def ChfDb.step (db : ChfDb) : ChfEvent → ChfDb
  | .sessionCreated imsi pduSessionID chargingMethod =>
    (db.onPDUSessionCreated imsi pduSessionID chargingMethod).1
  | .sessionReleased imsi pduSessionID ts now => db.onPDUSessionReleased imsi pduSessionID ts now
  | .callEnded imsi callID startTime endTime video now =>
    (db.insertCDR (voiceCDR imsi callID startTime endTime video now)).getD db
  | .ratePending taxRate limit => db.ratePendingCDRsWithTax taxRate limit
  | .generateInvoices p number => db.generateInvoices p number

end MmtCore.Chf
