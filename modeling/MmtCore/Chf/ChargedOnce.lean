import Mathlib.Algebra.BigOperators.Group.Finset.Basic
import Mathlib.Algebra.Order.BigOperators.Group.List
import MmtCore.Lib.KeyedRows
import MmtCore.Chf.Charging

/-!
# Every record is charged once

What the books of the charging function have to show, and the events that keep them so: a rating run
must not meet a record that was debited when its session ended, and an invoice must not meet one
that is on an invoice already, nor any tax, since the total of a rated record contains it.
-/

namespace MmtCore.Chf

open MmtCore.Lib List Option

namespace ChfDb

variable (db : ChfDb)

/-! ## The books -/

/-- The successful debits. -/
def debits : List PaymentTransaction := db.ledger.transactions.filter (·.txnType = .debit)

def debitsOf (imsi : Imsi) : List PaymentTransaction := db.debits.filter (·.imsi = imsi)

def invoicesOf (imsi : Imsi) : List Invoice := db.invoices.filter (·.imsi = imsi)

/-- The records that were debited. -/
def debitedIDs : List String := db.debits.map (·.reference)

/-- The records on invoices, once for each invoice. -/
def invoicedIDs : List String := db.invoices.flatMap (·.lines)

/-- The records of a subscriber that were debited or invoiced. -/
def chargedIDs (imsi : Imsi) : List String :=
  (db.debitsOf imsi).map (·.reference) ++ (db.invoicesOf imsi).flatMap (·.lines)

/-- The rated total of a record: of its row in `rated_cdrs`, or as a release rates it. -/
def ratedTotal (id : String) : ℚ :=
  match db.ratedCdrs.find? (·.cdrID = id) with
  | some r => r.totalAmount
  | none => ((db.cdrs.find? (·.cdrID = id)).map fun c => (rateCDR db.plans c 0).totalAmount).getD 0

/-- Every record is charged once. -/
structure ChargedOnce : Prop where
  /-- No record is debited twice, debited and invoiced, or on two invoices. -/
  once : (db.debitedIDs ++ db.invoicedIDs).Nodup
  /-- No record is rated twice, or rated after it was debited. -/
  rated_once : (db.debitedIDs ++ db.ratedCdrs.map (·.cdrID)).Nodup
  /-- A subscriber has paid the rated totals of the records charged. -/
  balanced : ∀ imsi,
    ((db.debitsOf imsi).map (·.amount)).sum + ((db.invoicesOf imsi).map (·.total)).sum
      = ∑ id ∈ (db.chargedIDs imsi).toFinset, db.ratedTotal id

/-- A release of an online session debits the charge of its own record. -/
def DebitsItsCharge (ev : ChfEvent) : Prop :=
  ∀ imsi pduSessionID ts now db', ev = .sessionReleased imsi pduSessionID ts now →
    db.methodOf imsi pduSessionID = .online →
    (db.closeSession imsi pduSessionID).insertCDR (db.releaseCDR imsi pduSessionID ts now)
      = some db' →
    (db.step ev).ledger =
      if (rateCDR db.plans (db.releaseCDR imsi pduSessionID ts now) 0).totalAmount > 0 then
        (db.ledger.debit imsi
          (rateCDR db.plans (db.releaseCDR imsi pduSessionID ts now) 0).totalAmount "main"
          (db.releaseCDR imsi pduSessionID ts now).cdrID).1
      else db.ledger

/-- For a release of an online session: of the subscriber's records, the one that comes first once
the new one is there has the rated total of the new one.  For a rating run: it takes no record that
was debited.  For invoices: of each subscriber billed, the rated records in the period are on no
invoice and without tax, unless the invoice number is taken. -/
def Keeps : ChfEvent → Prop
  | .sessionReleased imsi pduSessionID ts now =>
    db.methodOf imsi pduSessionID = .online →
      ∀ c ∈ getCDRs { db with cdrs := db.cdrs ++ [db.releaseCDR imsi pduSessionID ts now] } imsi 1,
        (rateCDR db.plans c 0).totalAmount =
          (rateCDR db.plans (db.releaseCDR imsi pduSessionID ts now) 0).totalAmount
  | .ratePending _ limit =>
    ∀ c ∈ db.pendingCDRs (if limit ≤ 0 then 500 else limit.toNat), c.cdrID ∉ db.debitedIDs
  | .generateInvoices p number => ∀ imsi ∈ db.billedImsis p,
      number imsi ∈ db.invoices.map (·.invoiceNumber) ∨
        ((∀ rc ∈ db.ratedOf imsi p, rc.2.ratingStatus = .rated) ∧
          ((db.ratedOf imsi p).map (·.1.taxAmount)).sum = 0)
  | _ => True

instance (ev : ChfEvent) : Decidable (db.Keeps ev) :=
  match ev with
  | .sessionReleased imsi pduSessionID _ _ =>
    inferInstanceAs (Decidable (db.methodOf imsi pduSessionID = .online → ∀ c ∈ _, _ = _))
  | .ratePending _ _ =>
    inferInstanceAs (Decidable (∀ c ∈ db.pendingCDRs _, c.cdrID ∉ db.debitedIDs))
  | .generateInvoices p number =>
    inferInstanceAs (Decidable (∀ imsi ∈ db.billedImsis p,
      number imsi ∈ db.invoices.map (·.invoiceNumber) ∨
        ((∀ rc ∈ db.ratedOf imsi p, rc.2.ratingStatus = .rated) ∧
          ((db.ratedOf imsi p).map (·.1.taxAmount)).sum = 0)))
  | .sessionCreated .. | .callEnded .. => inferInstanceAs (Decidable True)

/-! ## The invariant -/

/-- What the tables say of each other. -/
structure Books : Prop where
  unique : (db.cdrs.map (·.cdrID)).Nodup
  types : ∀ c ∈ db.cdrs, c.cdrType = .data ∨ c.cdrType = .voice ∨ c.cdrType = .video
  rated : ∀ r ∈ db.ratedCdrs, ∃ c ∈ db.cdrs,
    c.cdrID = r.cdrID ∧ c.imsi = r.imsi ∧ c.ratingStatus ≠ .pending
  rated_once : (db.debitedIDs ++ db.ratedCdrs.map (·.cdrID)).Nodup
  debited : ∀ t ∈ db.debits, t.reference ∈ db.cdrs.map (·.cdrID) ∧
    t.amount = db.ratedTotal t.reference
  lines : ∀ inv ∈ db.invoices, ∀ id ∈ inv.lines, ∃ r ∈ db.ratedCdrs, ∃ c ∈ db.cdrs,
    r.cdrID = id ∧ c.cdrID = id ∧ c.ratingStatus = .invoiced
  lines_once : db.invoicedIDs.Nodup
  totals : ∀ inv ∈ db.invoices, inv.total = (inv.lines.map db.ratedTotal).sum

variable {db}

theorem Books.rated_of_invoiced (b : db.Books) {id : String} (h : id ∈ db.invoicedIDs) :
    id ∈ db.ratedCdrs.map (·.cdrID) := by
  obtain ⟨inv, hinv, hid⟩ := mem_flatMap.1 h
  obtain ⟨r, hr, -, -, hrid, -, -⟩ := b.lines inv hinv id hid
  exact mem_map.2 ⟨r, hr, hrid⟩

theorem sum_flatMap_lines {f : String → ℚ} {invs : List Invoice}
    (h : ∀ inv ∈ invs, inv.total = (inv.lines.map f).sum) :
    (invs.map (·.total)).sum = ((invs.flatMap (·.lines)).map f).sum := by
  induction invs with
  | nil => rfl
  | cons inv invs ih =>
    rw [map_cons, sum_cons, flatMap_cons, map_append, sum_append,
      h inv mem_cons_self, ih fun i hi => h i (mem_cons_of_mem _ hi)]

/-- The books show that every record is charged once. -/
theorem Books.chargedOnce (b : db.Books) : db.ChargedOnce := by
  have honce : (db.debitedIDs ++ db.invoicedIDs).Nodup := by
    obtain ⟨hd, -, hdisj⟩ := List.nodup_append.1 b.rated_once
    exact List.nodup_append.2 ⟨hd, b.lines_once, fun x hx y hy =>
      hdisj x hx y (b.rated_of_invoiced hy)⟩
  refine ⟨honce, b.rated_once, fun imsi => ?_⟩
  have hsub : (db.chargedIDs imsi).Sublist (db.debitedIDs ++ db.invoicedIDs) := by
    refine List.Sublist.append (filter_sublist.map _) ?_
    unfold invoicesOf invoicedIDs
    induction db.invoices with
    | nil => exact List.Sublist.refl _
    | cons inv invs ih =>
      grind
  have hinvs := @sum_flatMap_lines db.ratedTotal (db.invoicesOf imsi)
    fun inv hinv => b.totals inv (mem_filter.1 hinv).1
  rw [sum_toFinset _ (hsub.nodup honce), chargedIDs, map_append, sum_append, hinvs,
    List.map_map]
  congr 2
  exact map_congr_left fun t ht => (b.debited t (mem_filter.1 ht).1).2

/-! ## Rated totals -/

theorem Books.ratedTotal_rated (b : db.Books) {r : RatedCDR} (hr : r ∈ db.ratedCdrs) :
    db.ratedTotal r.cdrID = r.totalAmount := by
  unfold ratedTotal
  rw [find?_key_of_mem (nodup_append.1 b.rated_once).2.1 hr]

theorem ratedTotal_not_rated {c : CDR} (hunique : (db.cdrs.map (·.cdrID)).Nodup)
    (hc : c ∈ db.cdrs) (hnot : c.cdrID ∉ db.ratedCdrs.map (·.cdrID)) :
    db.ratedTotal c.cdrID = (rateCDR db.plans c 0).totalAmount := by
  unfold ratedTotal
  rw [find?_key_eq_none.2 hnot, find?_key_of_mem hunique hc]
  rfl

/-- New records and new ratings of other records leave a rated total as it is. -/
theorem ratedTotal_append {id : String} {cdrs : List CDR} {rated : List RatedCDR}
    (hid : id ∈ db.cdrs.map (·.cdrID)) (hnot : id ∉ rated.map (·.cdrID)) :
    ratedTotal { db with cdrs := db.cdrs ++ cdrs, ratedCdrs := db.ratedCdrs ++ rated } id
      = db.ratedTotal id := by
  grind [find?_key_append, ratedTotal]

/-- A change of statuses leaves the rated totals as they are. -/
theorem ratedTotal_setStatus {id : String} {p : CDR → Bool} {st : RatingStatus} :
    ratedTotal { db with cdrs := db.setStatus p st } id = db.ratedTotal id := by
  unfold ratedTotal setStatus
  rw [find?_key_map fun x => by split <;> rfl]
  cases db.cdrs.find? (·.cdrID = id) with
  | none => rfl
  | some c =>
    have hrate : (rateCDR db.plans (if p c = true then { c with ratingStatus := st } else c) 0)
        = rateCDR db.plans c 0 := by
      split <;> rfl
    rw [map_some, map_some, map_some, hrate]

section

variable {p : CDR → Bool} {st : RatingStatus}
include st

theorem map_cdrID_setStatus : (db.setStatus p st).map (·.cdrID) = db.cdrs.map (·.cdrID) :=
  map_key_map fun x => by split <;> rfl

/-- A record after a change of statuses. -/
theorem mem_setStatus {c : CDR} (hc : c ∈ db.cdrs) :
    (if p c then { c with ratingStatus := st } else c) ∈ db.setStatus p st :=
  mem_map_of_mem hc

theorem types_setStatus
    (h : ∀ c ∈ db.cdrs, c.cdrType = .data ∨ c.cdrType = .voice ∨ c.cdrType = .video) :
    ∀ c ∈ db.setStatus p st, c.cdrType = .data ∨ c.cdrType = .voice ∨ c.cdrType = .video := by
  intro c hc
  obtain ⟨c', hc', rfl⟩ := mem_map.1 hc
  have ht := h c' hc'
  split <;> exact ht

end

/-! ## Records -/

theorem insertCDR_eq {c : CDR} {db' : ChfDb} (h : db.insertCDR c = some db') :
    c.cdrID ∉ db.cdrs.map (·.cdrID) ∧ db' = { db with cdrs := db.cdrs ++ [c] } := by
  simp_all [insertCDR]

theorem Books.withSessions (b : db.Books) (sessions : List ChargingSession) :
    Books { db with sessions := sessions } :=
  ⟨b.unique, b.types, b.rated, b.rated_once, b.debited, b.lines, b.lines_once, b.totals⟩

/-- A new record. -/
theorem Books.insertCDR (b : db.Books) {c : CDR} {db' : ChfDb} (h : db.insertCDR c = some db')
    (htype : c.cdrType = .data ∨ c.cdrType = .voice ∨ c.cdrType = .video) : db'.Books := by
  obtain ⟨hnew, rfl⟩ := insertCDR_eq h
  have htotal : ∀ id ∈ db.cdrs.map (·.cdrID),
      ratedTotal { db with cdrs := db.cdrs ++ [c] } id = db.ratedTotal id := by
    intro id hid
    have happ := @ratedTotal_append db _ [c] [] hid not_mem_nil
    rwa [append_nil] at happ
  refine ⟨?_, ?_, ?_, b.rated_once, ?_, ?_, b.lines_once, ?_⟩
  · rw [map_append, map_singleton]
    refine nodup_append.2 ⟨b.unique, nodup_singleton _, fun x hx y hy e => hnew ?_⟩
    rw [mem_singleton] at hy
    exact hy ▸ e ▸ hx
  · intro x hx
    rcases mem_append.1 hx with hx | hx
    · exact b.types x hx
    · rw [mem_singleton.1 hx]
      exact htype
  · intro r hr
    obtain ⟨x, hx, hrest⟩ := b.rated r hr
    exact ⟨x, mem_append_left _ hx, hrest⟩
  · intro t ht
    obtain ⟨href, hamount⟩ := b.debited t ht
    grind
  · intro inv hinv id hid
    obtain ⟨r, hr, x, hx, hrest⟩ := b.lines inv hinv id hid
    exact ⟨r, hr, x, mem_append_left _ hx, hrest⟩
  · intro inv hinv
    rw [b.totals inv hinv]
    congr 1
    refine map_congr_left fun id hid => (htotal id ?_).symm
    obtain ⟨r, -, x, hx, -, hxid, -⟩ := b.lines inv hinv id hid
    exact mem_map.2 ⟨x, hx, hxid⟩

/-- A debit leaves the ledger as it is or adds its transaction. -/
theorem debit_cases (l : Ledger) (imsi : Imsi) (amount : ℚ) (reference : String) :
    (l.debit imsi amount "main" reference).1 = l ∨
      ∃ before after, (l.debit imsi amount "main" reference).1.transactions = l.transactions ++
        [⟨imsi, "main", .debit, amount, before, after, reference⟩] := by
  unfold Ledger.debit
  dsimp only
  split
  · exact .inl rfl
  · split
    · exact .inl rfl
    · exact .inr ⟨_, _, rfl⟩

/-- The debit of a record that was neither debited nor rated. -/
theorem Books.debit (b : db.Books) {c : CDR} (hc : c ∈ db.cdrs) (hd : c.cdrID ∉ db.debitedIDs)
    (hr : c.cdrID ∉ db.ratedCdrs.map (·.cdrID)) (imsi : Imsi) {amount : ℚ}
    (ha : amount = (rateCDR db.plans c 0).totalAmount) :
    Books { db with ledger := (db.ledger.debit imsi amount "main" c.cdrID).1 } := by
  rcases debit_cases db.ledger imsi amount c.cdrID with hsame | ⟨before, after, hadd⟩
  · rw [hsame]
    exact b
  · have hdebits : ChfDb.debits { db with ledger := (db.ledger.debit imsi amount "main" c.cdrID).1 }
        = db.debits ++ [⟨imsi, "main", .debit, amount, before, after, c.cdrID⟩] := by
      unfold debits
      dsimp only
      rw [hadd, filter_append]
      rfl
    refine ⟨b.unique, b.types, b.rated, ?_, ?_, b.lines, b.lines_once, b.totals⟩
    · unfold debitedIDs
      rw [hdebits, map_append, map_singleton, append_assoc]
      refine (perm_middle.nodup_iff).2 (nodup_cons.2 ⟨?_, b.rated_once⟩)
      rw [mem_append]
      exact fun h => h.elim hd hr
    · intro t ht
      rw [hdebits] at ht
      rcases mem_append.1 ht with ht | ht
      · exact b.debited t ht
      · rw [mem_singleton.1 ht]
        exact ⟨mem_map_of_mem hc, ha.trans (ratedTotal_not_rated b.unique hc hr).symm⟩

/-! ## A release -/

/-- A subscriber with a record has a latest one. -/
theorem getCDRs_ne_nil {imsi : Imsi} {c : CDR} (hc : c ∈ db.cdrs) (hi : c.imsi = imsi) :
    db.getCDRs imsi 1 ≠ [] := by
  unfold getCDRs
  have hmem : c ∈ (db.cdrs.filter fun c => imsi = "" ∨ c.imsi = imsi).insertionSort
      fun a b => b.createdAt ≤ a.createdAt := by
    rw [mem_insertionSort, mem_filter]
    exact ⟨hc, by simp [hi]⟩
  obtain ⟨x, xs, hx⟩ := exists_cons_of_ne_nil (ne_nil_of_mem hmem)
  rw [hx]
  exact cons_ne_nil _ _

/-- When the record found is rated like `c`, the charge of `c` is debited. -/
theorem debitRelease_eq {imsi : Imsi} {c : CDR} (hc : c ∈ db.cdrs) (hi : c.imsi = imsi)
    (hlatest : ∀ x ∈ db.getCDRs imsi 1,
      (rateCDR db.plans x 0).totalAmount = (rateCDR db.plans c 0).totalAmount) :
    db.debitRelease imsi c.cdrID =
      if (rateCDR db.plans c 0).totalAmount > 0 then
        { db with
          ledger := (db.ledger.debit imsi (rateCDR db.plans c 0).totalAmount "main" c.cdrID).1 }
      else db := by
  grind [debitRelease, getCDRs_ne_nil]

theorem Books.sessionReleased (b : db.Books) {imsi : Imsi} {psi ts now : Int}
    (hk : db.Keeps (.sessionReleased imsi psi ts now)) :
    (db.step (.sessionReleased imsi psi ts now)).Books ∧
      db.DebitsItsCharge (.sessionReleased imsi psi ts now) := by
  have hclosed : (db.closeSession imsi psi).Books := b.withSessions _
  cases hins : (db.closeSession imsi psi).insertCDR (db.releaseCDR imsi psi ts now) with
  | none =>
    have hstep : db.step (.sessionReleased imsi psi ts now) = db.closeSession imsi psi := by
      unfold step onPDUSessionReleased
      dsimp only
      rw [hins]
    refine ⟨hstep ▸ hclosed, ?_⟩
    intro imsi' psi' ts' now' db' hev _ hins'
    cases hev
    rw [hins] at hins'
    cases hins'
  | some db₁ =>
    have hb₁ := hclosed.insertCDR hins (.inl rfl)
    obtain ⟨hnew, hdb₁⟩ := insertCDR_eq hins
    have hstep : db.step (.sessionReleased imsi psi ts now) =
        if db.methodOf imsi psi = .online then
          db₁.debitRelease imsi (db.releaseCDR imsi psi ts now).cdrID
        else db₁ := by
      unfold step onPDUSessionReleased
      dsimp only
      rw [hins]
    by_cases honline : db.methodOf imsi psi = .online
    · have hmem : db.releaseCDR imsi psi ts now ∈ db₁.cdrs := by
        simp_all
      have hplans : db₁.plans = db.plans := by
        rw [hdb₁]
        rfl
      have hlatest : ∀ x ∈ db₁.getCDRs imsi 1, (rateCDR db₁.plans x 0).totalAmount =
          (rateCDR db₁.plans (db.releaseCDR imsi psi ts now) 0).totalAmount := by
        intro x hx
        rw [hplans]
        refine hk honline x ?_
        rw [hdb₁] at hx
        exact hx
      have himsi : (db.releaseCDR imsi psi ts now).imsi = imsi := rfl
      have hdebit := debitRelease_eq hmem himsi hlatest
      have hledger : db₁.ledger = db.ledger := by
        rw [hdb₁]
        rfl
      rw [hstep, if_pos honline, hdebit]
      constructor
      · split
        · refine hb₁.debit hmem (fun hd => hnew ?_) (fun hr => hnew ?_) imsi rfl
          · -- the records debited so far are older rows
            have hdebits : db₁.debits = db.debits := by
              rw [hdb₁]
              rfl
            obtain ⟨t, ht, href⟩ := mem_map.1 hd
            rw [hdebits] at ht
            rw [← href]
            exact (b.debited t ht).1
          · obtain ⟨r, hr, hid⟩ := mem_map.1 hr
            rw [hdb₁] at hr
            obtain ⟨x, hx, hxid, -⟩ := b.rated r hr
            rw [← hid, ← hxid]
            exact mem_map_of_mem hx
        · exact hb₁
      · intro imsi' psi' ts' now' db' hev _ _
        grind
    · rw [hstep, if_neg honline]
      refine ⟨hb₁, ?_⟩
      intro imsi' psi' ts' now' db' hev honline' _
      cases hev
      exact absurd honline' honline

/-! ## A rating run -/

/-- One pending record is rated. -/
theorem Books.ratePending (b : db.Books) {c : CDR} (hc : c ∈ db.cdrs)
    (hp : c.ratingStatus = .pending) (hd : c.cdrID ∉ db.debitedIDs) (taxRate : ℚ) :
    (db.ratePending taxRate c).Books := by
  have hsame : ∀ x ∈ db.cdrs, x.cdrID = c.cdrID → x = c := fun x hx e =>
    inj_on_of_nodup_map b.unique hx hc e
  have hnot : c.cdrID ∉ db.ratedCdrs.map (·.cdrID) := by
    intro h
    obtain ⟨r, hr, hid⟩ := mem_map.1 h
    obtain ⟨x, hx, hxid, -, hst⟩ := b.rated r hr
    rw [hsame x hx (hxid.trans hid)] at hst
    exact hst hp
  have htotal : ∀ id ∈ db.cdrs.map (·.cdrID), id ≠ c.cdrID →
      (db.ratePending taxRate c).ratedTotal id = db.ratedTotal id := by
    intro id hid hne
    have happ := @ratedTotal_append db _ [] [rateCDR db.plans c taxRate] hid
      (by
        rw [map_singleton, mem_singleton]
        exact hne)
    rw [← happ]
    exact @ratedTotal_setStatus { db with
        cdrs := db.cdrs ++ [], ratedCdrs := db.ratedCdrs ++ [rateCDR db.plans c taxRate] }
        id (·.cdrID = c.cdrID) .rated ▸ by
        unfold ChfDb.ratePending setStatus
        rw [append_nil]
  refine ⟨?_, types_setStatus b.types, ?_, ?_, ?_, ?_, b.lines_once, ?_⟩
  · exact map_cdrID_setStatus.symm ▸ b.unique
  · intro r hr
    rcases mem_append.1 hr with hr | hr
    · obtain ⟨x, hx, hxid, hxi, hst⟩ := b.rated r hr
      refine ⟨_, mem_setStatus hx, ?_⟩
      grind
    · rw [mem_singleton.1 hr]
      refine ⟨_, mem_setStatus hc, ?_⟩
      rw [if_pos (by simp)]
      exact ⟨rfl, rfl, by simp⟩
  · change (db.debitedIDs ++ (db.ratedCdrs ++ [rateCDR db.plans c taxRate]).map (·.cdrID)).Nodup
    rw [map_append, ← append_assoc, map_singleton]
    refine nodup_append.2 ⟨b.rated_once, nodup_singleton _, fun x hx y hy e => ?_⟩
    have hxc : x = c.cdrID := e.trans (mem_singleton.1 hy)
    grind
  · intro t ht
    obtain ⟨href, hamount⟩ := b.debited t ht
    refine ⟨map_cdrID_setStatus.symm ▸ href, hamount.trans (htotal _ href fun e => hd ?_).symm⟩
    exact mem_map.2 ⟨t, ht, e⟩
  · intro inv hinv id hid
    obtain ⟨r, hr, x, hx, hrid, hxid, hst⟩ := b.lines inv hinv id hid
    refine ⟨r, mem_append_left _ hr, _, mem_setStatus hx, hrid, ?_⟩
    split
    · grind
    · exact ⟨hxid, hst⟩
  · intro inv hinv
    rw [b.totals inv hinv]
    congr 1
    refine map_congr_left fun id hid => (htotal id ?_ ?_).symm
    · obtain ⟨r, -, x, hx, -, hxid, -⟩ := b.lines inv hinv id hid
      exact mem_map.2 ⟨x, hx, hxid⟩
    · rintro rfl
      obtain ⟨r, hr, -, -, hrid, -⟩ := b.lines inv hinv _ hid
      exact hnot (mem_map.2 ⟨r, hr, hrid⟩)

/-- The records a run takes are pending rows, each once. -/
theorem pendingCDRs_spec (b : db.Books) (limit : Nat) :
    (∀ c ∈ db.pendingCDRs limit, c ∈ db.cdrs ∧ c.ratingStatus = .pending) ∧
      ((db.pendingCDRs limit).map (·.cdrID)).Nodup := by
  have hperm := perm_insertionSort (fun a b : CDR => a.createdAt ≤ b.createdAt)
    (db.cdrs.filter (·.ratingStatus = .pending))
  constructor
  · intro c hc
    have hmem := mem_filter.1 (hperm.mem_iff.1 (mem_of_mem_take hc))
    exact ⟨hmem.1, by simpa using hmem.2⟩
  · have hfilter : ((db.cdrs.filter (·.ratingStatus = .pending)).map (·.cdrID)).Nodup :=
      (filter_sublist.map _).nodup b.unique
    have hsorted := (hperm.map (·.cdrID)).nodup_iff.2 hfilter
    exact ((take_sublist _ _).map _).nodup hsorted

theorem Books.foldl_ratePending (taxRate : ℚ) {cs : List CDR} (b : db.Books)
    (hcs : ∀ c ∈ cs, c ∈ db.cdrs ∧ c.ratingStatus = .pending ∧ c.cdrID ∉ db.debitedIDs)
    (hnodup : (cs.map (·.cdrID)).Nodup) :
    (cs.foldl (fun db c => db.ratePending taxRate c) db).Books := by
  induction cs generalizing db with
  | nil => exact b
  | cons c cs ih =>
    obtain ⟨hc, hp, hd⟩ := hcs c mem_cons_self
    rw [map_cons, nodup_cons] at hnodup
    rw [foldl_cons]
    refine ih (b.ratePending hc hp hd taxRate) (fun x hx => ?_) hnodup.2
    obtain ⟨hxc, hxp, hxd⟩ := hcs x (mem_cons_of_mem _ hx)
    refine ⟨?_, hxp, hxd⟩
    -- the row of another record is not touched
    have hne : x.cdrID ≠ c.cdrID := fun e => hnodup.1 (mem_map.2 ⟨x, hx, e⟩)
    have hmem := @mem_setStatus _ (·.cdrID = c.cdrID) .rated _ hxc
    rwa [if_neg (by simpa using hne)] at hmem

/-! ## Invoices -/

theorem mem_ratedOf {imsi : Imsi} {p : Period} {rc : RatedCDR × CDR} (b : db.Books)
    (h : rc ∈ db.ratedOf imsi p) :
    rc.1 ∈ db.ratedCdrs ∧ rc.2 ∈ db.cdrs ∧ rc.2.cdrID = rc.1.cdrID ∧ rc.1.imsi = imsi ∧
      rc.2.imsi = imsi ∧ p.covers rc.2.createdAt := by
  obtain ⟨hin, hi⟩ := mem_filter.1 h
  have himsi : rc.1.imsi = imsi := by simpa using hi
  obtain ⟨r, hr, hrc⟩ := mem_filterMap.1 hin
  obtain ⟨c, hc, hrc⟩ := bind_eq_some_iff.1 hrc
  split at hrc
  · rename_i hcov
    cases hrc
    obtain ⟨hmem, hid⟩ := mem_of_find?_key hc
    obtain ⟨x, hx, hxid, hxi, -⟩ := b.rated r hr
    have hxc := inj_on_of_nodup_map b.unique hx hmem (hxid.trans hid.symm)
    exact ⟨hr, hmem, hid, himsi, hxc ▸ hxi.trans himsi, hcov⟩
  · cases hrc

/-- The rated rows of a subscriber are among all rows, in order. -/
theorem map_ratedOf_sublist (imsi : Imsi) (p : Period) :
    ((db.ratedOf imsi p).map (·.1.cdrID)).Sublist (db.ratedCdrs.map (·.cdrID)) := by
  refine (filter_sublist.map _).trans ?_
  unfold ratedIn
  induction db.ratedCdrs with
  | nil => exact List.Sublist.refl _
  | cons r rs ih =>
    rw [filterMap_cons]
    split
    · exact ih.trans (sublist_cons_self _ _)
    · rename_i rc hrc
      obtain ⟨c, -, hrc⟩ := bind_eq_some_iff.1 hrc
      grind

/-- The charges of the three types are all charges. -/
theorem chargesOf_all {rows : List (RatedCDR × CDR)} (h : ∀ rc ∈ rows,
    rc.2.cdrType = .data ∨ rc.2.cdrType = .voice ∨ rc.2.cdrType = .video) :
    chargesOf rows .data + chargesOf rows .voice + chargesOf rows .video
      = (rows.map (·.1.totalAmount)).sum := by
  induction rows with
  | nil => simp [chargesOf]
  | cons rc rows ih =>
    have hrest := ih fun x hx => h x (mem_cons_of_mem _ hx)
    unfold chargesOf at hrest ⊢
    rw [map_cons, sum_cons, ← hrest]
    rcases h rc mem_cons_self with ht | ht | ht
    all_goals
      simp only [filter_cons, ht, reduceCtorEq, decide_true, decide_false, if_true,
        Bool.false_eq_true, if_false, map_cons, sum_cons]
      ring

theorem generateSingleInvoice_cases (db : ChfDb) (p : Period) (imsi : Imsi) (number : String) :
    db.generateSingleInvoice p imsi number = db ∨
      (number ∉ db.invoices.map (·.invoiceNumber) ∧ ∃ inv : Invoice,
        inv.invoiceNumber = number ∧ inv.lines = (db.ratedOf imsi p).map (·.1.cdrID) ∧
        inv.imsi = imsi ∧
        inv.total = chargesOf (db.ratedOf imsi p) .data + chargesOf (db.ratedOf imsi p) .voice +
          chargesOf (db.ratedOf imsi p) .video + ((db.ratedOf imsi p).map (·.1.taxAmount)).sum ∧
        db.generateSingleInvoice p imsi number =
          { db with
            invoices := db.invoices ++ [inv]
            cdrs := db.setStatus
              (fun c => c.imsi = imsi ∧ p.covers c.createdAt ∧ c.ratingStatus = .rated)
              .invoiced }) := by
  grind [generateSingleInvoice]

/-- One invoice over rated records without tax. -/
theorem Books.generateSingleInvoice (b : db.Books) {p : Period} {imsi : Imsi} {number : String}
    (hk : number ∈ db.invoices.map (·.invoiceNumber) ∨
      ((∀ rc ∈ db.ratedOf imsi p, rc.2.ratingStatus = .rated) ∧
        ((db.ratedOf imsi p).map (·.1.taxAmount)).sum = 0)) :
    (db.generateSingleInvoice p imsi number).Books := by
  rcases generateSingleInvoice_cases db p imsi number with
    hsame | ⟨hnew, inv, -, hlines, -, htot, heq⟩
  · rw [hsame]
    exact b
  obtain ⟨hrated, htax⟩ := hk.resolve_left hnew
  have hrow : ∀ id ∈ inv.lines, ∃ rc ∈ db.ratedOf imsi p, rc.1.cdrID = id := by
    intro id hid
    rw [hlines] at hid
    exact mem_map.1 hid
  rw [heq]
  have htotal : ∀ id, ratedTotal { db with
      invoices := db.invoices ++ [inv]
      cdrs := db.setStatus
        (fun c => c.imsi = imsi ∧ p.covers c.createdAt ∧ c.ratingStatus = .rated) .invoiced } id
      = db.ratedTotal id := fun id => ratedTotal_setStatus
  refine ⟨?_, types_setStatus b.types, ?_, b.rated_once, ?_, ?_, ?_, ?_⟩
  · exact map_cdrID_setStatus.symm ▸ b.unique
  · intro r hr
    obtain ⟨x, hx, hxid, hxi, hst⟩ := b.rated r hr
    grind [mem_setStatus]
  · intro t ht
    obtain ⟨href, hamount⟩ := b.debited t ht
    exact ⟨map_cdrID_setStatus.symm ▸ href, hamount.trans (htotal _).symm⟩
  · intro i hi id hid
    rcases mem_append.1 hi with hi | hi
    · obtain ⟨r, hr, x, hx, hrid, hxid, hst⟩ := b.lines i hi id hid
      grind [mem_setStatus]
    · rw [mem_singleton.1 hi] at hid
      obtain ⟨rc, hrc, hid⟩ := hrow id hid
      grind [mem_ratedOf, mem_setStatus]
  · unfold invoicedIDs
    rw [flatMap_append, flatMap_singleton]
    refine nodup_append.2 ⟨b.lines_once, ?_, fun x hx y hy e => ?_⟩
    · rw [hlines]
      exact (map_ratedOf_sublist imsi p).nodup (nodup_append.1 b.rated_once).2.1
    · -- what is on an invoice already is not rated any more
      subst e
      obtain ⟨i, hi, hid⟩ := mem_flatMap.1 hx
      obtain ⟨-, -, c, hc, -, hcid, hst⟩ := b.lines i hi x hid
      obtain ⟨rc, hrc, hrid⟩ := hrow x hy
      obtain ⟨-, hc', hcid', -⟩ := mem_ratedOf b hrc
      have hcc := inj_on_of_nodup_map b.unique hc hc' (hcid.trans (hcid'.trans hrid).symm)
      rw [hcc, hrated rc hrc] at hst
      cases hst
  · intro i hi
    have hcongr : (i.lines.map (ratedTotal { db with
        invoices := db.invoices ++ [inv]
        cdrs := db.setStatus
          (fun c => c.imsi = imsi ∧ p.covers c.createdAt ∧ c.ratingStatus = .rated) .invoiced }))
        = i.lines.map db.ratedTotal := map_congr_left fun id _ => htotal id
    rw [hcongr]
    rcases mem_append.1 hi with hi | hi
    · exact b.totals i hi
    · have htypes : ∀ rc ∈ db.ratedOf imsi p,
          rc.2.cdrType = .data ∨ rc.2.cdrType = .voice ∨ rc.2.cdrType = .video := fun rc hrc =>
        b.types rc.2 (mem_ratedOf b hrc).2.1
      rw [List.mem_singleton.1 hi, htot, htax, add_zero, chargesOf_all htypes, hlines, List.map_map]
      congr 1
      exact map_congr_left fun rc hrc => (b.ratedTotal_rated (mem_ratedOf b hrc).1).symm

/-- The invoice of one subscriber leaves the rated rows of another as they are. -/
theorem ratedOf_generateSingleInvoice (b : db.Books) {p q : Period} {imsi imsi' : Imsi}
    {number : String} (hne : imsi' ≠ imsi) :
    (db.generateSingleInvoice p imsi number).ratedOf imsi' q = db.ratedOf imsi' q := by
  rcases generateSingleInvoice_cases db p imsi number with hsame | ⟨-, inv, -, -, -, -, heq⟩
  · rw [hsame]
  · rw [heq]
    unfold ratedOf ratedIn
    rw [filter_filterMap, filter_filterMap]
    refine filterMap_congr fun r hr => ?_
    obtain ⟨x, hx, hxid, hxi, -⟩ := b.rated r hr
    have hfind : db.cdrs.find? (·.cdrID = r.cdrID) = some x := by
      rw [← hxid]
      exact find?_key_of_mem b.unique hx
    have hfind' : (db.setStatus
        (fun c => c.imsi = imsi ∧ p.covers c.createdAt ∧ c.ratingStatus = .rated)
        .invoiced).find? (·.cdrID = r.cdrID) = some (if x.imsi = imsi ∧ p.covers x.createdAt ∧
          x.ratingStatus = .rated then { x with ratingStatus := .invoiced } else x) := by
      unfold setStatus
      rw [find?_key_map fun y => by split <;> rfl, hfind]
      simp
    grind

/-- The numbers in use stay in use. -/
theorem generateSingleInvoice_numbers {p : Period} {imsi : Imsi} {number x : String}
    (h : x ∈ db.invoices.map (·.invoiceNumber)) :
    x ∈ (db.generateSingleInvoice p imsi number).invoices.map (·.invoiceNumber) := by
  grind [generateSingleInvoice_cases]

theorem Books.foldl_generateSingleInvoice {p : Period} {number : Imsi → String}
    {imsis : List Imsi} (b : db.Books) (hnodup : imsis.Nodup)
    (hk : ∀ imsi ∈ imsis, number imsi ∈ db.invoices.map (·.invoiceNumber) ∨
      ((∀ rc ∈ db.ratedOf imsi p, rc.2.ratingStatus = .rated) ∧
        ((db.ratedOf imsi p).map (·.1.taxAmount)).sum = 0)) :
    (imsis.foldl (fun db imsi => db.generateSingleInvoice p imsi (number imsi)) db).Books := by
  induction imsis generalizing db with
  | nil => exact b
  | cons imsi imsis ih =>
    rw [nodup_cons] at hnodup
    rw [foldl_cons]
    refine ih (b.generateSingleInvoice (hk imsi mem_cons_self)) hnodup.2 fun x hx => ?_
    have hne : x ≠ imsi := fun e => hnodup.1 (e ▸ hx)
    rw [ratedOf_generateSingleInvoice b hne]
    exact (hk x (mem_cons_of_mem _ hx)).imp_left generateSingleInvoice_numbers

/-! ## One event -/

theorem Books.step (b : db.Books) {ev : ChfEvent} (hk : db.Keeps ev) :
    (db.step ev).Books ∧ db.DebitsItsCharge ev := by
  cases ev with
  | sessionReleased imsi psi ts now => exact b.sessionReleased hk
  | sessionCreated imsi psi method =>
    exact ⟨b.withSessions _, fun _ _ _ _ _ hev => by cases hev⟩
  | callEnded imsi callID start stop video now =>
    refine ⟨?_, fun _ _ _ _ _ hev => by cases hev⟩
    change ((db.insertCDR (voiceCDR imsi callID start stop video now)).getD db).Books
    cases hins : db.insertCDR (voiceCDR imsi callID start stop video now) with
    | none => exact b
    | some db' =>
      refine b.insertCDR hins ?_
      cases video with
      | true => exact .inr (.inr rfl)
      | false => exact .inr (.inl rfl)
  | ratePending taxRate limit =>
    obtain ⟨hrows, hnodup⟩ := pendingCDRs_spec b (if limit ≤ 0 then 500 else limit.toNat)
    refine ⟨b.foldl_ratePending taxRate (fun c hc => ?_) hnodup, fun _ _ _ _ _ hev => by cases hev⟩
    exact ⟨(hrows c hc).1, (hrows c hc).2, hk c hc⟩
  | generateInvoices p number =>
    exact ⟨b.foldl_generateSingleInvoice (nodup_dedup _) hk,
      fun _ _ _ _ _ hev => by cases hev⟩

/-- Empty books, with any balances and tariffs. -/
def init (balances : Imsi × String → Option Balance) (plans : List TariffPlan) : ChfDb :=
  ⟨⟨balances, []⟩, plans, [], [], [], []⟩

theorem Books.init (balances : Imsi × String → Option Balance) (plans : List TariffPlan) :
    (ChfDb.init balances plans).Books := by
  constructor <;> simp [ChfDb.init, debitedIDs, debits, invoicedIDs]

/-! ## Main result -/

/-- A flat tariff of 1 for each record. -/
def flatPlan : TariffPlan := ⟨1, "default", ⟨.flat, 1, 1, 0, 0, "USD", none, none⟩⟩

/-- A prepaid subscriber with a balance of 10. -/
def prepaid : Imsi × String → Option Balance :=
  Function.update (fun _ => none) ("1", "main") (some ⟨10, "USD", 0, 1, .active⟩)

/-- An offline session is released, rated and invoiced. -/
def offlineRun : List ChfEvent :=
  [.sessionCreated "1" 5 .offline, .sessionReleased "1" 5 100 100, .ratePending 0 0,
    .generateInvoices ⟨0, 1000⟩ fun _ => "INV-1"]

/-- An online session is released, and a rating run and the invoices follow. -/
def onlineRun : List ChfEvent :=
  [.sessionCreated "1" 5 .online, .sessionReleased "1" 5 100 100, .ratePending 0 0,
    .generateInvoices ⟨0, 1000⟩ fun _ => "INV-1"]

end ChfDb

end MmtCore.Chf
