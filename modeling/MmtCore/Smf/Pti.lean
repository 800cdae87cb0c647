import Mathlib.Logic.Function.Basic

/-!
# Procedure transaction identities

The tracker of the 5GSM procedures that a UE has started (`pti.go`): one transaction for each PTI
of a UE, with the reply that was sent, from the start of the procedure to its release.
-/

namespace MmtCore.Smf

abbrev Bytes := List UInt8

inductive ProcedureKind where
  | establishment
  | modification
  | release
deriving DecidableEq

/-- An empty response is none yet. -/
structure Transaction where
  pduSessionID : UInt8
  kind : ProcedureKind
  response : Bytes
deriving DecidableEq

inductive PtiError where
  | invalid (pti : UInt8)
  | collision (pti : UInt8) (existing incoming : ProcedureKind)
deriving DecidableEq

/-- The transactions by IMSI and PTI. -/
structure Tracker where
  byUE : Bytes → UInt8 → Option Transaction

namespace Tracker

variable (t : Tracker) (imsi : Bytes) (pti : UInt8)

def set (txn : Option Transaction) : Tracker :=
  ⟨fun i p => if i = imsi ∧ p = pti then txn else t.byUE i p⟩

/-- The transaction, and whether the request is a retransmission; also one whose first run has no
response. -/
def start (kind : ProcedureKind) (pduSessID : UInt8) :
    Except PtiError (Tracker × Transaction × Bool) :=
  if pti = 0 ∨ pti = 255 then .error (.invalid pti)
  else
    match t.byUE imsi pti with
    | some existing =>
      if existing.kind = kind ∧ existing.pduSessionID = pduSessID then .ok (t, existing, true)
      else .error (.collision pti existing.kind kind)
    | none =>
      let txn : Transaction := { pduSessionID := pduSessID, kind, response := [] }
      .ok (t.set imsi pti (some txn), txn, false)

def complete (response : Bytes) : Tracker :=
  t.set imsi pti ((t.byUE imsi pti).map fun txn => { txn with response })

def release : Tracker := t.set imsi pti none

def releaseAllForUE : Tracker :=
  ⟨fun i p => if i = imsi then none else t.byUE i p⟩

@[simp] theorem set_byUE (txn : Option Transaction) (i : Bytes) (p : UInt8) :
    (t.set imsi pti txn).byUE i p = if i = imsi ∧ p = pti then txn else t.byUE i p := rfl

end Tracker

end MmtCore.Smf
