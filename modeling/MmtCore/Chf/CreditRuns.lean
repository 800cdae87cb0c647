import MmtCore.Chf.Quota

/-!
# Prepaid credit over runs

The calls of `Quota` may interleave in any order.  A run keeps the books of the balances as long as
each update finds the balance its call has read, and a grant is covered as long as what live grants
promise fits beside it.
-/

namespace MmtCore.Chf

open MmtCore.Lib List QuotaDb Ledger Balance Int Function

/-! ## Amounts -/

/-- What a transaction adds to the balance `key`. -/
def PaymentTransaction.effect (t : PaymentTransaction) (key : Imsi × String) : ℚ :=
  if (t.imsi, t.balanceType) = key then
    match t.txnType with
    | .recharge => t.amount
    | .debit => -t.amount
  else 0

/-- The recharges less the debits in the log. -/
def Ledger.logged (l : Ledger) (key : Imsi × String) : ℚ :=
  (l.transactions.map fun t => t.effect key).sum

/-- What is written to a balance before its transaction is. -/
def Statement.unlogged (key : Imsi × String) : Statement → ℚ
  | .insertTxn t => t.effect key
  | _ => 0

def amountOf : Option Balance → ℚ
  | none => 0
  | some b => b.balanceAmount

namespace QuotaDb

variable (db : QuotaDb)

def unlogged (key : Imsi × String) : ℚ := (db.inFlight.map fun s => s.unlogged key).sum

/-- The books: a balance is what it was at first with what the log says since, and with what is
written and not yet logged; it is below minus the credit limit only if it was from the start. -/
structure Accounted (balances₀ : Imsi × String → Option Balance) : Prop where
  recorded : ∀ key, amountOf (db.ledger.balances key) =
    amountOf (balances₀ key) + db.ledger.logged key + db.unlogged key
  floor : ∀ key b, db.ledger.balances key = some b →
    min (amountOf (balances₀ key)) (-b.creditLimit) ≤ b.balanceAmount

/-! ## Grants -/

/-- A grant that usage can be reported on. -/
def live (g : QuotaGrant) (now : Int) : Bool := g.status = .active ∧ ¬ g.pastExpiry now

/-- The cost of the units of a grant that are left. -/
def promise (g : QuotaGrant) : ℚ :=
  db.config.estimateUnitCost g.serviceName * (max 0 (g.grantedUnits - g.usedUnits) : Int)

/-- What the live grants of a subscriber promise. -/
def promised (imsi : Imsi) (now : Int) : ℚ :=
  ((db.grants.filter fun g => g.imsi = imsi ∧ live g now).map db.promise).sum

def fundsOf (imsi : Imsi) : ℚ :=
  match db.ledger.balances (imsi, "main") with
  | none => 0
  | some b => b.availableFunds

/-- A grant that is made costs no more than the funds less what is promised. -/
def GrantCovered : QuotaEvent → Prop
  | .proceed (.insertGrant imsi service requestedUnits b) now =>
    .insertGrant imsi service requestedUnits b ∈ db.inFlight →
      db.config.estimateUnitCost service * db.config.granted service requestedUnits b ≤
        db.fundsOf imsi - db.promised imsi now
  | _ => True

/-! ## Refusals -/

/-- `Debit` of the amount is refused. -/
def DebitRefused (imsi : Imsi) (amount : ℚ) : Prop :=
  (db.ledger.debit imsi amount "main" "").2.1 = false

/-- A check or a grant for a prepaid subscriber is refused for lack of funds exactly when a debit
would be: of the required amount, or of one unit. -/
def RefusesRightly : QuotaEvent → Prop
  | .checkBalance imsi requiredAmount => (db.ledger.balances (imsi, "main")).isSome →
    ((db.ledger.checkBalance imsi requiredAmount).1 = false ↔
      db.DebitRefused imsi requiredAmount)
  | .grantQuota imsi service requestedUnits => (db.ledger.balances (imsi, "main")).isSome →
    ((db.grantQuota imsi service requestedUnits = .error .balanceExhausted ∨
        db.grantQuota imsi service requestedUnits = .error .insufficientFunds) ↔
      db.DebitRefused imsi (db.config.estimateUnitCost service))
  | _ => True

/-- Prepaid credit is not oversold by the step. -/
def NotOversold (balances₀ : Imsi × String → Option Balance) (ev : QuotaEvent) : Prop :=
  (db.step ev).Accounted balances₀ ∧ db.GrantCovered ev ∧ db.RefusesRightly ev

/-! ## The condition -/

/-- The statement finds the balance as its call has read it. -/
def Undisturbed : Statement → Prop
  | .updateDebit imsi balanceType b _ _ =>
    amountOf (db.ledger.balances (imsi, balanceType)) = b.balanceAmount
  | .updateRecharge imsi balanceType balanceBefore _ _ =>
    amountOf (db.ledger.balances (imsi, balanceType)) = balanceBefore
  | .insertBalance imsi balanceType _ _ =>
    db.ledger.balances (imsi, balanceType) = none ∧ balanceType ∈ balanceTypes
  | _ => True

/-- The promises fit into the funds beside what the profile allows, or beside what the funds the
call has read buy. -/
def Fits (now : Int) : Statement → Prop
  | .insertGrant imsi service requestedUnits b =>
    let unitCost := db.config.estimateUnitCost service
    db.promised imsi now + unitCost * db.config.maxFromProfile service requestedUnits ≤
        db.fundsOf imsi ∨
      0 < unitCost ∧
        db.promised imsi now + unitCost * ⌊b.availableFunds / unitCost⌋ ≤ db.fundsOf imsi
  | _ => True

def Keeps : QuotaEvent → Prop
  | .checkBalance imsi requiredAmount => ∀ b ∈ db.ledger.balances (imsi, "main"),
    b.status = .exhausted → b.availableFunds < requiredAmount
  | .grantQuota imsi service requestedUnits =>
    let unitCost := db.config.estimateUnitCost service
    0 < requestedUnits ∧ ∀ b ∈ db.ledger.balances (imsi, "main"),
      (b.status = .exhausted → b.availableFunds < unitCost) ∧
        (0 < unitCost ∨ unitCost ≤ b.availableFunds)
  | .proceed s now => s ∈ db.inFlight → db.Undisturbed s ∧ db.Fits now s
  | _ => True

instance (s : Statement) : Decidable (db.Undisturbed s) :=
  match s with
  | .updateDebit .. | .updateRecharge .. => inferInstanceAs (Decidable (_ = _))
  | .insertBalance .. => inferInstanceAs (Decidable (_ = none ∧ _ ∈ balanceTypes))
  | .insertTxn .. | .insertGrant .. | .updateUsage .. | .expireGrant .. | .expireGrants .. =>
    inferInstanceAs (Decidable True)

instance (t : Int) (s : Statement) : Decidable (db.Fits t s) :=
  match s with
  | .insertGrant .. => inferInstanceAs (Decidable (_ ≤ _ ∨ 0 < _ ∧ _ ≤ _))
  | .updateDebit .. | .updateRecharge .. | .insertBalance .. | .insertTxn .. | .updateUsage ..
  | .expireGrant .. | .expireGrants .. => inferInstanceAs (Decidable True)

instance (ev : QuotaEvent) : Decidable (db.Keeps ev) :=
  match ev with
  | .checkBalance imsi _ =>
    inferInstanceAs (Decidable (∀ b ∈ db.ledger.balances (imsi, "main"), _ → _ < _))
  | .grantQuota imsi _ _ =>
    inferInstanceAs (Decidable (_ < _ ∧ ∀ b ∈ db.ledger.balances (imsi, "main"),
      (_ → _ < _) ∧ (_ < _ ∨ _ ≤ _)))
  | .proceed s _ => inferInstanceAs (Decidable (s ∈ db.inFlight → _ ∧ _))
  | .debit .. | .recharge .. | .reportUsage .. | .checkQuota .. | .revokeQuota .. =>
    inferInstanceAs (Decidable True)

end QuotaDb

/-! ## Refusals of a prepaid subscriber -/

theorem Balance.debited_eq_none {b : Balance} {amount : ℚ} :
    b.debited amount = none ↔ b.availableFunds < amount := by
  simp [debited, availableFunds]

namespace QuotaDb

variable {db : QuotaDb}

theorem debitRefused_iff {imsi : Imsi} {b : Balance}
    (hb : db.ledger.balances (imsi, "main") = some b) (amount : ℚ) :
    db.DebitRefused imsi amount ↔ b.availableFunds < amount := by
  grind [Balance.debited_eq_none, DebitRefused, Ledger.debit]

theorem checkBalance_refused {imsi : Imsi} {b : Balance} {requiredAmount : ℚ}
    (hb : db.ledger.balances (imsi, "main") = some b)
    (hk : b.status = .exhausted → b.availableFunds < requiredAmount) :
    (db.ledger.checkBalance imsi requiredAmount).1 = false ↔
      b.availableFunds < requiredAmount := by
  unfold checkBalance
  rw [hb]
  dsimp only
  split
  · case isTrue h => exact iff_of_true rfl (hk h)
  · split
    · case isTrue h => exact iff_of_true rfl h
    · case isFalse h => exact iff_of_false (by simp) h

end QuotaDb

/-! ## The units of a grant -/

namespace QuotaConfig

variable (config : QuotaConfig) (service : String) (requestedUnits : Int) (b : Balance)

theorem maxFromProfile_le : config.maxFromProfile service requestedUnits ≤ requestedUnits := by
  grind [maxFromProfile]

theorem maxFromProfile_pos {requestedUnits : Int} (h : 0 < requestedUnits) :
    0 < config.maxFromProfile service requestedUnits := by
  unfold maxFromProfile
  dsimp only
  split
  · exact h
  · split_ifs <;> omega

theorem granted_eq : config.granted service requestedUnits b =
    min (config.maxFromProfile service requestedUnits)
      (config.maxFromBalance service requestedUnits b) := by
  have hle := config.maxFromProfile_le service requestedUnits
  unfold granted
  dsimp only
  split_ifs <;> omega

end QuotaConfig

theorem int64Of_of_nonneg {x : ℚ} (h : 0 ≤ x) : int64Of x = ⌊x⌋ := if_pos h

theorem int64Of_pos {x : ℚ} : 0 < int64Of x ↔ 1 ≤ x := by
  unfold int64Of
  split
  · exact floor_pos
  · case isFalse h =>
    have hx : x < 0 := not_le.1 h
    refine iff_of_false (not_lt.2 (ceil_le.2 ?_)) (by linarith)
    rw [cast_zero]
    exact hx.le

namespace QuotaConfig

variable (config : QuotaConfig) (service : String) {requestedUnits : Int} (b : Balance)

theorem maxFromBalance_of_pos (hc : 0 < config.estimateUnitCost service) :
    config.maxFromBalance service requestedUnits b =
      max 0 (int64Of (b.availableFunds / config.estimateUnitCost service)) := by
  unfold maxFromBalance
  dsimp only
  rw [if_pos hc]
  split_ifs <;> omega

theorem maxFromBalance_of_not_pos (hc : ¬ 0 < config.estimateUnitCost service)
    (hr : 0 < requestedUnits) :
    config.maxFromBalance service requestedUnits b = requestedUnits := by
  unfold maxFromBalance
  dsimp only
  rw [if_neg hc]
  exact if_neg (by omega)

/-- No units are granted exactly when the funds do not buy one. -/
theorem granted_nonpos (hr : 0 < requestedUnits)
    (hc : 0 < config.estimateUnitCost service ∨
      config.estimateUnitCost service ≤ b.availableFunds) :
    config.granted service requestedUnits b ≤ 0 ↔
      b.availableFunds < config.estimateUnitCost service := by
  have hp := config.maxFromProfile_pos service hr
  rw [granted_eq]
  by_cases hpos : 0 < config.estimateUnitCost service
  · have hbuy : 0 < int64Of (b.availableFunds / config.estimateUnitCost service) ↔
        config.estimateUnitCost service ≤ b.availableFunds := by
      rw [int64Of_pos, one_le_div hpos]
    rw [maxFromBalance_of_pos config service b hpos, ← not_le, ← hbuy]
    omega
  · grind [maxFromBalance_of_not_pos]

/-- What a grant costs, by the bound that holds it. -/
theorem cost_granted_le {funds promised : ℚ}
    (hg : 0 < config.granted service requestedUnits b)
    (h : promised + config.estimateUnitCost service *
          config.maxFromProfile service requestedUnits ≤ funds ∨
      0 < config.estimateUnitCost service ∧ promised + config.estimateUnitCost service *
          ⌊b.availableFunds / config.estimateUnitCost service⌋ ≤ funds) :
    config.estimateUnitCost service * config.granted service requestedUnits b ≤
      funds - promised := by
  have hle := config.maxFromProfile_le service requestedUnits
  rw [granted_eq] at hg ⊢
  rcases h with h | ⟨hpos, h⟩
  · by_cases hpos : 0 < config.estimateUnitCost service
    · have hmin : ((min (config.maxFromProfile service requestedUnits)
          (config.maxFromBalance service requestedUnits b) : Int) : ℚ) ≤
          config.maxFromProfile service requestedUnits := by exact_mod_cast min_le_left _ _
      have := mul_le_mul_of_nonneg_left hmin hpos.le
      linarith
    · rw [maxFromBalance_of_not_pos config service b hpos (by omega), min_eq_left hle]
      linarith
  · rw [maxFromBalance_of_pos config service b hpos] at hg ⊢
    have hint : 0 < int64Of (b.availableFunds / config.estimateUnitCost service) := by omega
    have hone := int64Of_pos.1 hint
    rw [int64Of_of_nonneg (by linarith)] at hint ⊢
    have hmin : ((min (config.maxFromProfile service requestedUnits)
        (max 0 ⌊b.availableFunds / config.estimateUnitCost service⌋) : Int) : ℚ) ≤
        (⌊b.availableFunds / config.estimateUnitCost service⌋ : Int) := by
      exact_mod_cast (by omega)
    have := mul_le_mul_of_nonneg_left hmin hpos.le
    linarith

end QuotaConfig

/-! ## The invariant -/

namespace QuotaDb

/-- What the values bound to a statement under way satisfy. -/
def Sound (db : QuotaDb) : Statement → Prop
  | .updateDebit imsi balanceType b amount _ => amount ≤ b.availableFunds ∧
    ∃ row, db.ledger.balances (imsi, balanceType) = some row ∧ row.creditLimit = b.creditLimit
  | .updateRecharge imsi balanceType _ amount _ => 0 < amount ∧
    ∃ row, db.ledger.balances (imsi, balanceType) = some row
  | .insertBalance _ _ amount _ => 0 < amount
  | .insertGrant _ service requestedUnits b =>
    0 < db.config.granted service requestedUnits b
  | _ => True

/-- The books are kept, and the statements under way are sound. -/
structure Inv (balances₀ : Imsi × String → Option Balance) (db : QuotaDb) : Prop where
  accounted : db.Accounted balances₀
  sound : ∀ s ∈ db.inFlight, db.Sound s

variable {db db' : QuotaDb} {balances₀ : Imsi × String → Option Balance}

/-- Rows stay in the table with their credit limits. -/
def RowsKept (db db' : QuotaDb) : Prop := ∀ key row, db.ledger.balances key = some row →
  ∃ row', db'.ledger.balances key = some row' ∧ row'.creditLimit = row.creditLimit

theorem RowsKept.of_ledger (h : db'.ledger.balances = db.ledger.balances) :
    RowsKept db db' := by
  intro key row hrow
  exact ⟨row, by rw [h, hrow], rfl⟩

theorem Sound.mono {s : Statement} (hs : db.Sound s) (hconfig : db'.config = db.config)
    (hrows : RowsKept db db') : db'.Sound s := by
  cases s with
  | updateDebit imsi balanceType b amount reference =>
    obtain ⟨hle, row, hrow, hlimit⟩ := hs
    obtain ⟨row', hrow', hlimit'⟩ := hrows _ row hrow
    exact ⟨hle, row', hrow', hlimit'.trans hlimit⟩
  | updateRecharge imsi balanceType balanceBefore amount reference =>
    obtain ⟨hpos, row, hrow⟩ := hs
    obtain ⟨row', hrow', -⟩ := hrows _ row hrow
    exact ⟨hpos, row', hrow'⟩
  | insertBalance imsi balanceType amount reference => exact hs
  | insertGrant imsi service requestedUnits b =>
    have hpos : 0 < db.config.granted service requestedUnits b := hs
    rw [← hconfig] at hpos
    exact hpos
  | insertTxn t | updateUsage grantID newUsed exhausted | expireGrant grantID
  | expireGrants imsi service => exact trivial

theorem Inv.init (config : QuotaConfig) (balances₀ : Imsi × String → Option Balance)
    (grants : List QuotaGrant) (nextID : Nat) :
    Inv balances₀ ⟨config, ⟨balances₀, []⟩, grants, nextID, []⟩ := by
  refine ⟨⟨fun key => ?_, fun key b hb => ?_⟩, fun s hs => absurd hs not_mem_nil⟩
  · simp [logged, unlogged]
  · have hb' : balances₀ key = some b := hb
    rw [hb']
    exact min_le_left _ _

/-- The step leaves the ledger alone. -/
theorem Inv.issue (h : db.Inv balances₀) {s : Statement} (hs : db.Sound s)
    (hlog : ∀ key, s.unlogged key = 0) : (db.issue s).Inv balances₀ := by
  refine ⟨⟨fun key => ?_, h.accounted.floor⟩, ?_⟩
  · have hsame : (db.issue s).unlogged key = db.unlogged key := by
      unfold unlogged QuotaDb.issue
      rw [map_cons, sum_cons, hlog key, zero_add]
    rw [hsame]
    exact h.accounted.recorded key
  · intro s' hs'
    rcases mem_cons.1 hs' with rfl | hs'
    · exact hs.mono rfl (.of_ledger rfl)
    · exact (h.sound s' hs').mono rfl (.of_ledger rfl)

theorem Inv.updateGrants (h : db.Inv balances₀) (p : QuotaGrant → Bool)
    (f : QuotaGrant → QuotaGrant) : (db.updateGrants p f).Inv balances₀ :=
  ⟨⟨h.accounted.recorded, h.accounted.floor⟩,
    fun s hs => (h.sound s hs).mono rfl (.of_ledger rfl)⟩

/-! ## The calls -/

theorem Inv.debit (h : db.Inv balances₀) (imsi : Imsi) (amount : ℚ)
    (balanceType reference : String) :
    (db.debit imsi amount balanceType reference).Inv balances₀ := by
  unfold QuotaDb.debit
  split
  · exact h
  · case h_2 b hb =>
    split
    · exact h
    · case h_2 after hafter =>
      refine h.issue ⟨?_, b, hb, rfl⟩ fun key => rfl
      grind [debited_eq_none]

theorem Inv.recharge (h : db.Inv balances₀) (imsi : Imsi) (amount : ℚ)
    (balanceType reference : String) :
    (db.recharge imsi amount balanceType reference).Inv balances₀ := by
  unfold QuotaDb.recharge
  split
  · exact h
  · case isFalse hpos =>
    have hpos : 0 < amount := not_le.1 fun hle => hpos (.inr hle)
    split
    · exact h.issue (s := .insertBalance ..) hpos fun key => rfl
    · case h_2 b hb => exact h.issue (s := .updateRecharge ..) ⟨hpos, b, hb⟩ fun key => rfl

theorem grantQuota_ok {imsi : Imsi} {service : String} {requestedUnits : Int} {b : Balance}
    (h : db.grantQuota imsi service requestedUnits = .ok b) :
    0 < db.config.granted service requestedUnits b := by
  grind [grantQuota]

theorem Inv.reportUsage (h : db.Inv balances₀) (imsi : Imsi) (service : String)
    (usedUnits now : Int) : (db.reportUsage imsi service usedUnits now).Inv balances₀ := by
  unfold QuotaDb.reportUsage
  split
  · exact h
  · split
    · exact h.issue (s := .expireGrant _) trivial fun key => rfl
    · exact h.issue (s := .updateUsage ..) trivial fun key => rfl

theorem Inv.checkQuota (h : db.Inv balances₀) (imsi : Imsi) (service : String) (now : Int) :
    (db.checkQuota imsi service now).Inv balances₀ := by
  unfold QuotaDb.checkQuota
  split
  · exact h
  · split
    · exact h.issue (s := .expireGrants ..) trivial fun key => rfl
    · exact h

/-! ## The statements -/

theorem unlogged_erase {s : Statement} (hs : s ∈ db.inFlight) (key : Imsi × String) :
    db.unlogged key = s.unlogged key +
      unlogged { db with inFlight := db.inFlight.erase s } key :=
  (sum_map_erase (fun s : Statement => s.unlogged key) hs).symm

theorem Inv.sound_erase (h : db.Inv balances₀) (s : Statement) :
    ∀ s' ∈ db.inFlight.erase s, db.Sound s' :=
  fun s' hs' => h.sound s' (mem_of_mem_erase hs')

/-- A statement that does not touch the ledger. -/
theorem Inv.drop (h : db.Inv balances₀) {s : Statement} (hs : s ∈ db.inFlight)
    (hlog : ∀ key, s.unlogged key = 0) :
    Inv balances₀ { db with inFlight := db.inFlight.erase s } := by
  refine ⟨⟨fun key => ?_, h.accounted.floor⟩,
    fun s' hs' => (h.sound_erase s s' hs').mono rfl (.of_ledger rfl)⟩
  have hsum := unlogged_erase hs key
  rw [hlog key, zero_add] at hsum
  rw [← hsum]
  exact h.accounted.recorded key

/-- A statement that adds to a balance what its transaction is going to say. -/
theorem Inv.write (h : db.Inv balances₀) {s : Statement} (hs : s ∈ db.inFlight)
    (hlog : ∀ key, s.unlogged key = 0) (l : Ledger) (t : PaymentTransaction)
    (hlogged : l.transactions = db.ledger.transactions)
    (hamount : ∀ key, amountOf (l.balances key) = amountOf (db.ledger.balances key) + t.effect key)
    (hrows : RowsKept db { db with ledger := l })
    (hfloor : ∀ key b, l.balances key = some b →
      min (amountOf (balances₀ key)) (-b.creditLimit) ≤ b.balanceAmount) :
    Inv balances₀
      ({ db with ledger := l, inFlight := db.inFlight.erase s }.issue (.insertTxn t)) := by
  refine ⟨⟨fun key => ?_, hfloor⟩, fun s' hs' => ?_⟩
  · have hsum := unlogged_erase hs key
    rw [hlog key, zero_add] at hsum
    have hnew : unlogged
        ({ db with ledger := l, inFlight := db.inFlight.erase s }.issue (.insertTxn t)) key =
        t.effect key + db.unlogged key := by
      rw [hsum]
      rfl
    have hl : logged l key = db.ledger.logged key := by
      unfold logged
      rw [hlogged]
    have hrec := h.accounted.recorded key
    rw [hnew]
    change amountOf (l.balances key) = amountOf (balances₀ key) + l.logged key + _
    rw [hl, hamount key, hrec]
    ring
  · rcases mem_cons.1 hs' with rfl | hs'
    · exact trivial
    · exact (h.sound_erase s s' hs').mono rfl hrows

theorem updateBalance_of_some {l : Ledger} {key : Imsi × String} {row : Balance}
    (hrow : l.balances key = some row) (f : Balance → Balance) :
    (l.updateBalance key f).balances = Function.update l.balances key (some (f row)) := by
  unfold updateBalance
  rw [hrow]
  rfl

/-- An update of one balance, in the terms of `Inv.write`. -/
theorem Inv.update (h : db.Inv balances₀) {s : Statement} (hs : s ∈ db.inFlight)
    (hlog : ∀ key, s.unlogged key = 0) {imsi : Imsi} {balanceType : String} {row : Balance}
    (hrow : db.ledger.balances (imsi, balanceType) = some row) (f : Balance → Balance)
    (t : PaymentTransaction)
    (heffect : ∀ key, t.effect key =
      if key = (imsi, balanceType) then (f row).balanceAmount - row.balanceAmount else 0)
    (hlimit : (f row).creditLimit = row.creditLimit)
    (hfloor : min row.balanceAmount (-row.creditLimit) ≤ (f row).balanceAmount) :
    Inv balances₀
      ({ db with ledger := db.ledger.updateBalance (imsi, balanceType) f,
                 inFlight := db.inFlight.erase s }.issue (.insertTxn t)) := by
  have hat := updateBalance_of_some hrow f
  refine h.write hs hlog _ t rfl ?_ ?_ ?_
  · intro key
    rw [hat, heffect key]
    by_cases hkey : key = (imsi, balanceType)
    · rw [if_pos hkey, hkey, update_self, hrow]
      exact (add_sub_cancel _ _).symm
    · rw [if_neg hkey, update_of_ne hkey, add_zero]
  · intro key b hb
    by_cases hkey : key = (imsi, balanceType)
    · simp_all
    · simp_all
  · intro key b hb
    rw [hat] at hb
    by_cases hkey : key = (imsi, balanceType)
    · subst hkey
      rw [update_self] at hb
      have hold := h.accounted.floor _ row hrow
      grind
    · rw [update_of_ne hkey] at hb
      exact h.accounted.floor key b hb

theorem effect_debit (imsi : Imsi) (balanceType reference : String) (amount before after : ℚ)
    (key : Imsi × String) :
    PaymentTransaction.effect ⟨imsi, balanceType, .debit, amount, before, after, reference⟩ key =
      if key = (imsi, balanceType) then -amount else 0 := by
  unfold PaymentTransaction.effect
  simp only [eq_comm]

theorem effect_recharge (imsi : Imsi) (balanceType reference : String)
    (amount before after : ℚ) (key : Imsi × String) :
    PaymentTransaction.effect ⟨imsi, balanceType, .recharge, amount, before, after, reference⟩
      key = if key = (imsi, balanceType) then amount else 0 := by
  unfold PaymentTransaction.effect
  simp only [eq_comm]

theorem Inv.proceed (h : db.Inv balances₀) (s : Statement) (now : Int)
    (hk : s ∈ db.inFlight → db.Undisturbed s) : (db.proceed s now).Inv balances₀ := by
  unfold QuotaDb.proceed
  split
  case isFalse => exact h
  case isTrue hs =>
  have hsound := h.sound s hs
  have hk := hk hs
  cases s with
  | updateDebit imsi balanceType b amount reference =>
    obtain ⟨hle, row, hrow, hlimit⟩ := hsound
    have hread : row.balanceAmount = b.balanceAmount := by
      have hk' : amountOf (db.ledger.balances (imsi, balanceType)) = b.balanceAmount := hk
      rw [hrow] at hk'
      exact hk'
    refine h.update hs (fun key => rfl) hrow (fun row => { row with
      balanceAmount := b.balanceAmount - amount
      status := debitStatus (b.balanceAmount - amount) }) _ (fun key => ?_) rfl ?_
    · rw [effect_debit, hread]
      congr 1
      ring
    · simp_all [availableFunds]
  | updateRecharge imsi balanceType balanceBefore amount reference =>
    obtain ⟨hpos, row, hrow⟩ := hsound
    have hread : row.balanceAmount = balanceBefore := by
      have hk' : amountOf (db.ledger.balances (imsi, balanceType)) = balanceBefore := hk
      rw [hrow] at hk'
      exact hk'
    refine h.update hs (fun key => rfl) hrow (fun row => { row with
      balanceAmount := balanceBefore + amount
      status := .active }) _ (fun key => ?_) rfl ?_
    · rw [effect_recharge, hread]
      congr 1
      ring
    · grind
  | insertBalance imsi balanceType amount reference =>
    obtain ⟨hnone, htype⟩ := hk
    have hpos : 0 < amount := hsound
    have hat : (db.ledger.createBalance (imsi, balanceType) amount "USD" 0 1).balances =
        Function.update db.ledger.balances (imsi, balanceType)
          (some ⟨amount, "USD", 0, 1, .active⟩) := by
      unfold Ledger.createBalance
      rw [hnone]
      dsimp only
      rw [if_pos htype]
    have hlog : (db.ledger.createBalance (imsi, balanceType) amount "USD" 0 1).transactions =
        db.ledger.transactions := by
      unfold createBalance
      rw [hnone]
      dsimp only
      rw [if_pos htype]
    refine h.write hs (fun key => rfl) _ _ hlog ?_ ?_ ?_
    · intro key
      rw [hat, effect_recharge]
      by_cases hkey : key = (imsi, balanceType)
      · rw [if_pos hkey, hkey, update_self, hnone]
        exact (zero_add amount).symm
      · rw [if_neg hkey, update_of_ne hkey, add_zero]
    · intro key b hb
      have hkey : key ≠ (imsi, balanceType) := by
        rintro rfl
        rw [hnone] at hb
        cases hb
      refine ⟨b, ?_, rfl⟩
      rw [hat, update_of_ne hkey, hb]
    · intro key b hb
      rw [hat] at hb
      by_cases hkey : key = (imsi, balanceType)
      · grind
      · rw [update_of_ne hkey] at hb
        exact h.accounted.floor key b hb
  | insertTxn t =>
    refine ⟨⟨fun key => ?_, h.accounted.floor⟩,
      fun s' hs' => (h.sound_erase _ s' hs').mono rfl (.of_ledger rfl)⟩
    have hlogged : (db.ledger.recordTxn t).logged key = db.ledger.logged key + t.effect key := by
      unfold logged recordTxn
      rw [map_append, sum_append, map_singleton, sum_singleton]
    have hsum := unlogged_erase hs key
    have hrec := h.accounted.recorded key
    change amountOf (db.ledger.balances key) = amountOf (balances₀ key) +
      (db.ledger.recordTxn t).logged key +
      unlogged { db with inFlight := db.inFlight.erase (.insertTxn t) } key
    rw [hlogged, hrec, hsum]
    change _ + (t.effect key + _) = _
    ring
  | insertGrant imsi service requestedUnits b =>
    have hdrop := h.drop hs fun key => rfl
    exact ⟨⟨hdrop.accounted.recorded, hdrop.accounted.floor⟩,
      fun s hs => (hdrop.sound s hs).mono rfl (.of_ledger rfl)⟩
  | updateUsage grantID newUsed exhausted
  | expireGrant grantID
  | expireGrants imsi service => exact (h.drop hs fun key => rfl).updateGrants _ _

theorem Inv.step (h : db.Inv balances₀) {ev : QuotaEvent} (hk : db.Keeps ev) :
    (db.step ev).Inv balances₀ := by
  cases ev with
  | debit imsi amount balanceType reference => exact h.debit imsi amount balanceType reference
  | recharge imsi amount balanceType reference =>
    exact h.recharge imsi amount balanceType reference
  | checkBalance imsi requiredAmount => exact h
  | grantQuota imsi service requestedUnits =>
    unfold QuotaDb.step
    dsimp only
    split
    · exact h
    · case h_2 b hb => exact h.issue (s := .insertGrant ..) (grantQuota_ok hb) fun key => rfl
  | reportUsage imsi service usedUnits now => exact h.reportUsage imsi service usedUnits now
  | checkQuota imsi service now => exact h.checkQuota imsi service now
  | revokeQuota imsi service => exact h.updateGrants _ _
  | proceed s now => exact h.proceed s now fun hs => (hk hs).1

theorem Inv.grantCovered (h : db.Inv balances₀) {ev : QuotaEvent} (hk : db.Keeps ev) :
    db.GrantCovered ev := by
  unfold GrantCovered
  split
  · case h_1 imsi service requestedUnits b now =>
    intro hs
    exact db.config.cost_granted_le service b (h.sound _ hs) (hk hs).2
  · exact trivial

theorem grantQuota_refused {imsi : Imsi} {service : String} {requestedUnits : Int} {b : Balance}
    (hb : db.ledger.balances (imsi, "main") = some b) (hr : 0 < requestedUnits)
    (hx : b.status = .exhausted → b.availableFunds < db.config.estimateUnitCost service)
    (hc : 0 < db.config.estimateUnitCost service ∨
      db.config.estimateUnitCost service ≤ b.availableFunds) :
    (db.grantQuota imsi service requestedUnits = .error .balanceExhausted ∨
        db.grantQuota imsi service requestedUnits = .error .insufficientFunds) ↔
      b.availableFunds < db.config.estimateUnitCost service := by
  have hunits := db.config.granted_nonpos service b hr hc
  grind [grantQuota]

theorem Keeps.refusesRightly {ev : QuotaEvent} (hk : db.Keeps ev) : db.RefusesRightly ev := by
  cases ev with
  | checkBalance imsi requiredAmount =>
    intro hsome
    obtain ⟨b, hb⟩ := Option.isSome_iff_exists.1 hsome
    rw [debitRefused_iff hb, checkBalance_refused hb (hk b hb)]
  | grantQuota imsi service requestedUnits =>
    intro hsome
    obtain ⟨b, hb⟩ := Option.isSome_iff_exists.1 hsome
    obtain ⟨hr, hk⟩ := hk
    obtain ⟨hx, hc⟩ := hk b hb
    rw [debitRefused_iff hb, grantQuota_refused hb hr hx hc]
  | debit imsi amount balanceType reference
  | recharge imsi amount balanceType reference
  | reportUsage imsi service usedUnits now | checkQuota imsi service now
  | revokeQuota imsi service | proceed s now => exact trivial

/-! ## Main result -/

/-- One service, at a cost of 1 a unit. -/
def flatConfig : QuotaConfig :=
  ⟨[], [], [⟨1, "default", ⟨.volume, 1, 1, 0, 0, "USD", none, none⟩⟩]⟩

/-- A subscriber with a balance of 10 and a credit limit of 5. -/
def creditOf5 : Imsi × String → Option Balance :=
  Function.update (fun _ => none) ("1", "main") (some ⟨10, "USD", 5, 1, .active⟩)

def atFirst : QuotaDb := ⟨flatConfig, ⟨creditOf5, []⟩, [], 1, []⟩

/-- A grant, a debit and a recharge that follow one another. -/
def orderlyRun : List QuotaEvent :=
  [.grantQuota "1" "data" 4, .proceed (.insertGrant "1" "data" 4 ⟨10, "USD", 5, 1, .active⟩) 100,
    .checkBalance "1" 12,
    .debit "1" 12 "" "A",
    .proceed (.updateDebit "1" "main" ⟨10, "USD", 5, 1, .active⟩ 12 "A") 101,
    .proceed (.insertTxn ⟨"1", "main", .debit, 12, 10, -2, "A"⟩) 101,
    .recharge "1" 20 "" "B",
    .proceed (.updateRecharge "1" "main" (-2) 20 "B") 102,
    .proceed (.insertTxn ⟨"1", "main", .recharge, 20, -2, 18, "B"⟩) 102]

/-- Two grants of all the funds. -/
def twoGrants : List QuotaEvent :=
  [.grantQuota "1" "data" 15, .proceed (.insertGrant "1" "data" 15 ⟨10, "USD", 5, 1, .active⟩) 100,
    .grantQuota "1" "voice" 15,
    .proceed (.insertGrant "1" "voice" 15 ⟨10, "USD", 5, 1, .active⟩) 101]

/-- Two debits that read the same balance. -/
def twoDebits : List QuotaEvent :=
  [.debit "1" 4 "" "A", .debit "1" 5 "" "B",
    .proceed (.updateDebit "1" "main" ⟨10, "USD", 5, 1, .active⟩ 4 "A") 100,
    .proceed (.updateDebit "1" "main" ⟨10, "USD", 5, 1, .active⟩ 5 "B") 100]

/-- A debit of the whole balance, which leaves the credit. -/
def spentRun : List QuotaEvent :=
  [.debit "1" 10 "" "A",
    .proceed (.updateDebit "1" "main" ⟨10, "USD", 5, 1, .active⟩ 10 "A") 100,
    .checkBalance "1" 3]

end QuotaDb

end MmtCore.Chf
