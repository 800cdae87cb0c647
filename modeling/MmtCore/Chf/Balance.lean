import Mathlib.Data.Rat.Floor

/-!
# Prepaid balances

`balance_manager.go`: the table of balances and the log of payments.  Amounts are exact rationals.
-/

namespace MmtCore.Chf

abbrev Imsi := String

inductive BalanceStatus
  | active | suspended | exhausted
deriving DecidableEq

/-- A row of `balances`; its key is the subscriber and the type of the balance. -/
structure Balance where
  balanceAmount : ℚ
  currency : String
  creditLimit : ℚ
  lowBalanceThreshold : ℚ
  status : BalanceStatus
deriving DecidableEq

inductive TxnType
  | recharge | debit
deriving DecidableEq

/-- A row of `payment_transactions`.  The type of the balance is not a column: it says which
balance the row is about. -/
structure PaymentTransaction where
  imsi : Imsi
  balanceType : String
  txnType : TxnType
  amount : ℚ
  balanceBefore : ℚ
  balanceAfter : ℚ
  reference : String
deriving DecidableEq

/-- The types of balance that the table accepts. -/
def balanceTypes : List String := ["main", "data", "voice", "bonus"]

structure Ledger where
  balances : Imsi × String → Option Balance
  transactions : List PaymentTransaction

/-- The status a debit leaves, from the balance after it. -/
def debitStatus (balanceAfter : ℚ) : BalanceStatus :=
  if balanceAfter ≤ 0 then .exhausted else .active

/-- The new balance, if the credit limit allows the debit. -/
def Balance.debited (b : Balance) (amount : ℚ) : Option ℚ :=
  if b.balanceAmount - amount < -b.creditLimit then none else some (b.balanceAmount - amount)

namespace Ledger

variable (l : Ledger)

/-- An `UPDATE balances`: without the row it changes nothing. -/
def updateBalance (key : Imsi × String) (f : Balance → Balance) : Ledger :=
  { l with balances := Function.update l.balances key ((l.balances key).map f) }

def recordTxn (t : PaymentTransaction) : Ledger :=
  { l with transactions := l.transactions ++ [t] }

/-- `INSERT OR IGNORE`: a row that is there stays, and the check on the type leaves others out. -/
def createBalance (key : Imsi × String) (amount : ℚ) (currency : String)
    (creditLimit lowThreshold : ℚ) : Ledger :=
  match l.balances key with
  | some _ => l
  | none =>
    if key.2 ∈ balanceTypes then
      { l with
        balances := Function.update l.balances key
          (some ⟨amount, currency, creditLimit, lowThreshold, .active⟩) }
    else l

def debit (imsi : Imsi) (amount : ℚ) (balanceType reference : String) : Ledger × Bool × ℚ :=
  let balanceType := if balanceType = "" then "main" else balanceType
  match l.balances (imsi, balanceType) with
  | none => (l, false, 0)
  | some b =>
    match b.debited amount with
    | none => (l, false, b.balanceAmount)
    | some balanceAfter =>
      ((l.updateBalance (imsi, balanceType) fun b =>
          { b with balanceAmount := balanceAfter, status := debitStatus balanceAfter }).recordTxn
        ⟨imsi, balanceType, .debit, amount, b.balanceAmount, balanceAfter, reference⟩, true, balanceAfter)

def checkBalance (imsi : Imsi) (requiredAmount : ℚ) : Bool × ℚ :=
  match l.balances (imsi, "main") with
  | none => (true, 0)
  | some b =>
    if b.status = .exhausted then (false, b.balanceAmount)
    else if b.balanceAmount + b.creditLimit < requiredAmount then (false, b.balanceAmount)
    else (true, b.balanceAmount)

end Ledger

end MmtCore.Chf
