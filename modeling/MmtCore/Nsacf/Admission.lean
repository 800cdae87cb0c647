import Mathlib.Data.Finset.Card

/-!
# Admission to a slice

The admission control of one slice (`nsacf.go`): the admitted UEs in memory, their rows in the
database, the goroutines that write the rows, and the evaluations in progress.  An evaluation reads
the status, looks the UE up, asks the database for a victim, evicts it and admits the UE in steps of
its own; what holds the lock is one step.
-/

namespace MmtCore.Nsacf

abbrev Imsi := String

structure SliceLimit where
  maxUEs : Int
  reservedUEs : Int
  priorityThreshold : Int
  preemptionEnabled : Bool
deriving DecidableEq

/-- A row of `nsacf_admissions`. -/
structure Admission where
  imsi : Imsi
  priority : Int
deriving DecidableEq

/-- What a goroutine has yet to write. -/
inductive Write where
  | insert (imsi : Imsi) (priority : Int)
  | delete (imsi : Imsi)
deriving DecidableEq

def Write.imsi : Write → Imsi
  | .insert imsi _ => imsi
  | .delete imsi => imsi

def Write.stores : Write → Bool
  | .insert .. => true
  | .delete _ => false

/-- What `EvaluateAdmission` reads of the status of the slice. -/
structure SliceStatus where
  currentUEs : Int
  maxUEs : Int
  reservedUEs : Int
  priorityThreshold : Int
  preemptionEnabled : Bool
deriving DecidableEq

structure Decision where
  admitted : Bool
  reason : String
  preemptedIMSI : Option Imsi
  priority : Int
deriving DecidableEq

/-- Where an evaluation is. -/
inductive Stage where
  | begun
  /-- The status is read; the UE is to be looked up. -/
  | statusRead (st : SliceStatus)
  /-- The UE is not admitted yet. -/
  | checked (st : SliceStatus)
  | preempting (st : SliceStatus) (victim : Admission)
  | admitting (st : SliceStatus) (reason : String) (preempted : Option Imsi)
  | finished (d : Decision)
deriving DecidableEq

structure Evaluation where
  imsi : Imsi
  priority : Int
  stage : Stage
deriving DecidableEq

structure Slice where
  admissions : Finset Imsi
  limit : Option SliceLimit
  rows : List Admission
  writes : List Write
  evals : Nat → Option Evaluation
  /-- The maximum that was in force at the last admission. -/
  maxAtLast : Option Int
  /-- The priority each admitted UE has been admitted with. -/
  priorityOf : Imsi → Int

inductive Event where
  /-- `EvaluateAdmission` is called and has looked up the priority of the UE. -/
  | evaluate (k : Nat) (imsi : Imsi) (priority : Int)
  /-- An evaluation takes its next step; the database, where it is asked, answers with one of the
  rows of lowest priority, or not at all. -/
  | advance (k : Nat) (row : Option Nat)
  /-- `RequestAdmission`, for a UE of the priority. -/
  | request (imsi : Imsi) (priority : Int)
  | release (imsi : Imsi)
  | preempt (imsi : Imsi)
  | setSliceLimit (limit : SliceLimit)
  /-- A goroutine writes to the database, which may fail. -/
  | persist (i : Nat) (ok : Bool)
deriving DecidableEq

namespace Slice

variable (s : Slice)

/-- `loadFromDB`. -/
def load (limit : Option SliceLimit) (rows : List Admission) : Slice where
  admissions := (rows.map (·.imsi)).toFinset
  limit
  rows
  writes := []
  evals := fun _ => none
  maxAtLast := none
  priorityOf := fun imsi => ((rows.find? (·.imsi = imsi)).map (·.priority)).getD 0

/-- The UE is in the set, and a goroutine is to write so. -/
def admitUE (imsi : Imsi) (priority recorded : Int) : Slice :=
  { s with
    admissions := insert imsi s.admissions
    writes := s.writes ++ [.insert imsi recorded]
    maxAtLast := s.limit.map (·.maxUEs)
    priorityOf := Function.update s.priorityOf imsi priority }

def removeUE (imsi : Imsi) : Slice :=
  { s with
    admissions := s.admissions.erase imsi
    writes := s.writes ++ [.delete imsi] }

structure Answer where
  allowed : Bool
  reason : String
deriving DecidableEq

/-- The UE is recorded with priority 0, whatever its priority is. -/
def requestAdmission (imsi : Imsi) (priority : Int) : Slice × Answer :=
  if imsi ∈ s.admissions then (s, ⟨true, "already_admitted"⟩)
  else
    match s.limit with
    | none => (s.admitUE imsi priority 0, ⟨true, "no_limit_configured"⟩)
    | some lim =>
      if (s.admissions.card : Int) < lim.maxUEs then
        (s.admitUE imsi priority 0, ⟨true, "capacity_available"⟩)
      else (s, ⟨false, "slice_full"⟩)

def releaseAdmission (imsi : Imsi) : Slice × Bool :=
  if imsi ∈ s.admissions then (s.removeUE imsi, true) else (s, false)

def getSliceStatus : SliceStatus :=
  match s.limit with
  | none => ⟨s.admissions.card, 0, 0, 0, false⟩
  | some lim =>
    ⟨s.admissions.card, lim.maxUEs, lim.reservedUEs, lim.priorityThreshold, lim.preemptionEnabled⟩

/-- `GetLowestPriorityAdmission`: the database may pick any of the rows of lowest priority. -/
def lowestPriorityAdmission (row : Option Nat) : Option Admission :=
  let lowest := s.rows.filter fun r => s.rows.all fun r' => r.priority ≤ r'.priority
  row.bind fun i => lowest[i]?

/-! ## Evaluations -/

/-- What comes after the look-up: `none` is the query for a victim. -/
def evaluateStatus (st : SliceStatus) (priority : Int) : Option Stage :=
  if st.currentUEs < st.maxUEs then
    let unreservedAvail := max (st.maxUEs - st.reservedUEs - st.currentUEs) 0
    let reservedAvail := max (st.maxUEs - st.currentUEs) 0
    let threshold := st.priorityThreshold
    if 0 < unreservedAvail then some (.admitting st "capacity_available" none)
    else if 0 < reservedAvail ∧ threshold ≤ priority then
      some (.admitting st "admitted_from_reserved_pool" none)
    else if 0 < reservedAvail then
      some (.finished ⟨false,
        s!"only_reserved_slots_available (priority={priority} < threshold={threshold})", none,
        priority⟩)
    else none
  else none

def sliceFull (priority : Int) : Stage :=
  .finished ⟨false, "slice_full", none, priority⟩

/-- The next stage of an evaluation whose step leaves the slice alone. -/
def nextStage (e : Evaluation) (row : Option Nat) : Stage :=
  match e.stage with
  | .begun =>
    let st := s.getSliceStatus
    if st.maxUEs = 0 then .admitting st "no_limit_configured" none else .statusRead st
  | .statusRead st =>
    if e.imsi ∈ s.admissions then .finished ⟨true, "already_admitted", none, e.priority⟩
    else .checked st
  | .checked st =>
    match evaluateStatus st e.priority with
    | some stage => stage
    | none =>
      if st.preemptionEnabled = true ∧ st.priorityThreshold ≤ e.priority then
        match s.lowestPriorityAdmission row with
        | some victim =>
          if victim.priority < e.priority then .preempting st victim else sliceFull e.priority
        | none => sliceFull e.priority
      else sliceFull e.priority
  | .preempting st victim => .admitting st "preempted_lower_priority_ue" (some victim.imsi)
  | .admitting _ reason preempted => .finished ⟨true, reason, preempted, e.priority⟩
  | .finished d => .finished d

def setStage (k : Nat) (e : Evaluation) (stage : Stage) : Slice :=
  { s with evals := Function.update s.evals k (some { e with stage }) }

/-- One step of `EvaluateAdmission`. -/
def advance (k : Nat) (row : Option Nat) : Slice :=
  match s.evals k with
  | none => s
  | some e =>
    let stage := s.nextStage e row
    match e.stage with
    | .preempting _ victim => (s.removeUE victim.imsi).setStage k e stage
    | .admitting .. => (s.admitUE e.imsi e.priority e.priority).setStage k e stage
    | .begun | .statusRead _ | .checked _ | .finished _ => s.setStage k e stage

/-- `INSERT OR IGNORE` and `DELETE`. -/
def exec (rows : List Admission) : Write → List Admission
  | .insert imsi priority =>
    if rows.any (·.imsi = imsi) then rows else rows ++ [⟨imsi, priority⟩]
  | .delete imsi => rows.filter (·.imsi ≠ imsi)

def persist (i : Nat) (ok : Bool) : Slice :=
  match s.writes[i]? with
  | none => s
  | some w =>
    { s with
      writes := s.writes.eraseIdx i
      rows := if ok then exec s.rows w else s.rows }

def evaluate (k : Nat) (imsi : Imsi) (priority : Int) : Slice :=
  match s.evals k with
  | some _ => s
  | none => { s with evals := Function.update s.evals k (some ⟨imsi, priority, .begun⟩) }

def step : Event → Slice
  | .evaluate k imsi priority => s.evaluate k imsi priority
  | .advance k row => s.advance k row
  | .request imsi priority => (s.requestAdmission imsi priority).1
  | .release imsi => (s.releaseAdmission imsi).1
  | .preempt imsi => s.removeUE imsi
  | .setSliceLimit limit => { s with limit := some limit }
  | .persist i ok => s.persist i ok

end Slice

end MmtCore.Nsacf
