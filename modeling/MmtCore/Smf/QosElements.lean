import MmtCore.Lib.Reader
import MmtCore.Smf.Establish

/-!
# The QoS elements of a session

`qos_ie_encoder.go` and `qos.go`: the octets in which the UE is told of QoS rules and QoS flows, a
reader of them after their layout, and the default flow of a session as the UE, the UPF and the gNB
are told of it.
-/

namespace MmtCore.Smf

open MmtCore.Lib List Option

structure QoSRuleSpec where
  ruleID : UInt8
  qfi : UInt8
  dqr : Bool
  precedence : UInt8
  delete : Bool
deriving DecidableEq

structure QoSFlowSpec where
  qfi : UInt8
  fiveQI : UInt8
  delete : Bool
deriving DecidableEq

/-- A rule; deleting the default rule is forbidden. -/
def QoSRuleSpec.octets (r : QoSRuleSpec) : List UInt8 :=
  let op : UInt8 := if r.delete then 0b010 else 0b001
  let dqr : UInt8 := if r.delete then 0 else if r.dqr then 1 else 0
  [r.ruleID, 0x00, 0x03, (op <<< 5) ||| (dqr <<< 4), r.precedence, r.qfi &&& 0x3F]

def buildAuthorizedQoSRules (rules : List QoSRuleSpec) : List UInt8 :=
  rules.flatMap QoSRuleSpec.octets

def QoSFlowSpec.octets (f : QoSFlowSpec) : List UInt8 :=
  if f.delete then [f.qfi &&& 0x3F, (0b010 : UInt8) <<< 5, 0x00]
  else [f.qfi &&& 0x3F, (0b001 : UInt8) <<< 5, 0x40 ||| 0x01, 0x01, 0x01, f.fiveQI]

def buildAuthorizedQoSFlowDescriptions (flows : List QoSFlowSpec) : List UInt8 :=
  flows.flatMap QoSFlowSpec.octets

/-- One match-all filter. -/
def buildDefaultQoSRule (ruleID qfi precedence : UInt8) : List UInt8 :=
  [ruleID, 0x00, 0x06, 0x31, 0x31, 0x01, 0x01, precedence, qfi &&& 0x3F]

/-- `packAuthorizedQoSFlowDescriptions`; without a 5QI there is no element. -/
def packAuthorizedQoSFlowDescriptions (fiveQI : UInt8) : Option (List UInt8) :=
  if fiveQI = 0 then none else some [1 &&& 0x3F, 0x20, 0x40 ||| 0x01, 0x01, 0x01, fiveQI]

/-! ## Reading the elements -/

/-- So many units of an identifier, a length and contents: packet filters or parameters. -/
def readUnits : Nat → List UInt8 → Option (List (UInt8 × List UInt8) × List UInt8)
  | 0, v => some ([], v)
  | n + 1, id :: len :: v => do
    let (contents, v) ← takeBytes len.toNat v
    let (units, v) ← readUnits n v
    pure ((id, contents) :: units, v)
  | _ + 1, _ => none

structure QosRule where
  id : UInt8
  op : UInt8
  dqr : Bool
  filters : List (UInt8 × List UInt8)
  precedence : UInt8
  qfi : UInt8
deriving DecidableEq

def readRule : List UInt8 → Option (QosRule × List UInt8)
  | id :: hi :: lo :: v => do
    let (body, rest) ← takeBytes (hi.toNat * 256 + lo.toNat) v
    match body with
    | [] => none
    | o :: body =>
      match ← readUnits (o &&& 0x0F).toNat body with
      | (filters, [precedence, qfi]) =>
        pure (⟨id, o >>> 5, (o >>> 4) &&& 1 == 1, filters, precedence, qfi &&& 0x3F⟩, rest)
      | _ => none
  | _ => none

structure QosFlow where
  qfi : UInt8
  op : UInt8
  params : List (UInt8 × List UInt8)
deriving DecidableEq

/-- The parameters are there where the E bit says so. -/
def readFlow : List UInt8 → Option (QosFlow × List UInt8)
  | qfi :: o :: p :: v => do
    let (params, v) ← if p &&& 0x40 = 0 then some ([], v) else readUnits (p &&& 0x3F).toNat v
    pure (⟨qfi &&& 0x3F, o >>> 5, params⟩, v)
  | _ => none

/-- One after the other until no octet is left; the fuel is the number of octets. -/
def readAll {α : Type} (read : List UInt8 → Option (α × List UInt8)) :
    Nat → List UInt8 → Option (List α)
  | _, [] => some []
  | 0, _ :: _ => none
  | fuel + 1, v => do
    let (a, v) ← read v
    (readAll read fuel v).map (a :: ·)

/-- What an element asks for; only created and deleted ones are specified here. -/
def QosRule.spec (e : QosRule) : Option QoSRuleSpec :=
  if e.op = 0b001 ∧ e.filters = [] then some ⟨e.id, e.qfi, e.dqr, e.precedence, false⟩
  else if e.op = 0b010 then some ⟨e.id, e.qfi, e.dqr, e.precedence, true⟩
  else none

def QosFlow.spec (e : QosFlow) : Option QoSFlowSpec :=
  match e.params with
  | [(0x01, [fiveQI])] => if e.op = 0b001 then some ⟨e.qfi, fiveQI, false⟩ else none
  | [] => if e.op = 0b010 then some ⟨e.qfi, 0, true⟩ else none
  | _ => none

def parseRules (v : List UInt8) : Option (List QoSRuleSpec) :=
  (readAll readRule v.length v).bind (List.mapM QosRule.spec)

def parseFlows (v : List UInt8) : Option (List QoSFlowSpec) :=
  (readAll readFlow v.length v).bind (List.mapM QosFlow.spec)

section

variable {α β : Type} {read : List UInt8 → Option (α × List UInt8)}

/-- Elements that are written one after the other are read back. -/
theorem readAll_flatMap {write : β → List UInt8} {elem : β → α} (hne : ∀ b, write b ≠ [])
    (h : ∀ b rest, read (write b ++ rest) = some (elem b, rest)) (bs : List β) {fuel : Nat}
    (hfuel : (bs.flatMap write).length ≤ fuel) :
    readAll read fuel (bs.flatMap write) = some (bs.map elem) := by
  induction bs generalizing fuel with
  | nil => cases fuel <;> rfl
  | cons b bs ih =>
    obtain ⟨x, w, hw⟩ := exists_cons_of_ne_nil (hne b)
    have hread := h b (bs.flatMap write)
    rw [flatMap_cons] at hfuel ⊢
    rw [hw, cons_append] at hread hfuel ⊢
    cases fuel with
    | zero => cases hfuel
    | succ fuel =>
      rw [length_cons, length_append] at hfuel
      simp [readAll, hread, @ih fuel (by omega)]

/-- What a reader of the octets is told. -/
def QoSRuleSpec.told (r : QoSRuleSpec) : QoSRuleSpec :=
  { r with qfi := r.qfi &&& 0x3F, dqr := r.dqr && !r.delete }

def QoSFlowSpec.told (f : QoSFlowSpec) : QoSFlowSpec :=
  { f with qfi := f.qfi &&& 0x3F, fiveQI := if f.delete then 0 else f.fiveQI }

theorem parse_eq {spec : α → Option β}
    {write : β → List UInt8} {told : β → β} (hne : ∀ b, write b ≠ [])
    (h : ∀ b, ∃ a, (∀ rest, read (write b ++ rest) = some (a, rest)) ∧ spec a = some (told b))
    (bs : List β) :
    (readAll read (bs.flatMap write).length (bs.flatMap write)).bind (List.mapM spec) =
      some (bs.map told) := by
  choose elem hread hspec using h
  rw [readAll_flatMap hne hread bs (Nat.le_refl _), bind_some]
  induction bs with
  | nil => rfl
  | cons b bs ih => simp [hspec, ih]

end

theorem mask_mask (b : UInt8) : b &&& 0x3F &&& 0x3F = b &&& 0x3F := by
  rw [UInt8.and_assoc]
  rfl

theorem parseRules_build (rules : List QoSRuleSpec) :
    parseRules (buildAuthorizedQoSRules rules) = some (rules.map QoSRuleSpec.told) := by
  refine parse_eq (fun r => cons_ne_nil _ _) (fun r => ?_) rules
  obtain ⟨id, qfi, dqr, precedence, delete⟩ := r
  refine ⟨⟨id, if delete then 0b010 else 0b001, dqr && !delete, [], precedence,
    qfi &&& 0x3F &&& 0x3F⟩, fun _ => ?_, ?_⟩
  · cases dqr <;> cases delete <;>
      simp +decide [readRule, readUnits, takeBytes]
  · cases delete <;> simp [QosRule.spec, QoSRuleSpec.told, mask_mask]

theorem parseFlows_build (flows : List QoSFlowSpec) :
    parseFlows (buildAuthorizedQoSFlowDescriptions flows) = some (flows.map QoSFlowSpec.told) := by
  refine parse_eq (fun f => ?_) (fun f => ?_) flows
  · cases f with
    | mk qfi fiveQI delete => cases delete <;> exact cons_ne_nil _ _
  · obtain ⟨qfi, fiveQI, delete⟩ := f
    cases delete
    · exact ⟨⟨qfi &&& 0x3F &&& 0x3F, 0b001, [(0x01, [fiveQI])]⟩,
        fun _ => by simp +decide [QoSFlowSpec.octets, readFlow, readUnits, takeBytes], by rw [mask_mask]; rfl⟩
    · exact ⟨⟨qfi &&& 0x3F &&& 0x3F, 0b010, []⟩,
        fun _ => by simp +decide [QoSFlowSpec.octets, readFlow], by rw [mask_mask]; rfl⟩

/-! ## The default flow -/

/-- `fiveQI` of `Establish`. -/
def defaultFiveQI (authorized : AuthorizedQos) (subscribed : UInt8) : UInt8 :=
  if 0 < authorized.default5QI then UInt8.ofInt authorized.default5QI else subscribed

/-- `AuthorizedQoSRules` of the session. -/
def authorizedQoSRules (decision : Pcf.SmPolicy.SmPolicyDecision) : List UInt8 :=
  buildDefaultQoSRule 1 (if decision.defaultQFI ≠ 0 then decision.defaultQFI else 1) 255

/-- The first item of the `QosFlowSetupRequestList`: QFI and 5QI. -/
def qosFlowSetupRequest (fiveQI : UInt8) : UInt8 × UInt8 := (1, if fiveQI = 0 then 9 else fiveQI)

/-- The default flow has one QFI and one 5QI wherever it is described: in the rule and in the flow
description that the UE gets, in the rules of the UPF, and in the request to the gNB. -/
def OneDefaultFlow (decision : Pcf.SmPolicy.SmPolicyDecision) (fiveQI : UInt8) (id : UInt8)
    (sess : PduSession) (service : Option ServiceRates) : Prop :=
  ∃ qfi q, ((readAll readRule 9 (authorizedQoSRules decision)).map (·.map QosRule.qfi)) = some [qfi] ∧
    (packAuthorizedQoSFlowDescriptions fiveQI).bind parseFlows = some [⟨qfi, q, false⟩] ∧
    (defaultULPDR id sess).qfi = qfi ∧ (defaultDLPDR sess).qfi = qfi ∧
    (defaultQER service).qfi = qfi ∧ qosFlowSetupRequest fiveQI = (qfi, q)

theorem oneDefaultFlow_iff (decision : Pcf.SmPolicy.SmPolicyDecision) (fiveQI id : UInt8)
    (sess : PduSession) (service : Option ServiceRates) :
    OneDefaultFlow decision fiveQI id sess service ↔
      (decision.defaultQFI = 0 ∨ decision.defaultQFI &&& 0x3F = 1) ∧ fiveQI ≠ 0 := by
  have hrule : (readAll readRule 9 (authorizedQoSRules decision)).map (·.map QosRule.qfi) =
      some [(if decision.defaultQFI ≠ 0 then decision.defaultQFI else 1) &&& 0x3F &&& 0x3F] := by
    simp +decide [authorizedQoSRules, buildDefaultQoSRule, readAll, readRule, readUnits, takeBytes]
  unfold OneDefaultFlow
  rw [hrule, mask_mask]
  by_cases hq : fiveQI = 0
  · refine iff_of_false ?_ fun h => h.2 hq
    rintro ⟨qfi, q, -, hdesc, -⟩
    rw [packAuthorizedQoSFlowDescriptions, if_pos hq] at hdesc
    cases hdesc
  · have hdesc : (packAuthorizedQoSFlowDescriptions fiveQI).bind parseFlows =
        some [⟨1, fiveQI, false⟩] := by
      have hone := parseFlows_build [⟨1, fiveQI, false⟩]
      rw [packAuthorizedQoSFlowDescriptions, if_neg hq]
      have hmask : (1 : UInt8) &&& 0x3F = 1 := by decide
      have hop : (0b001 : UInt8) <<< 5 = 0x20 := by decide
      simpa [buildAuthorizedQoSFlowDescriptions, QoSFlowSpec.octets, QoSFlowSpec.told, hmask, hop]
        using hone
    rw [hdesc, qosFlowSetupRequest, if_neg hq]
    have hone : (if decision.defaultQFI ≠ 0 then decision.defaultQFI else 1) &&& 0x3F = 1 ↔
        decision.defaultQFI = 0 ∨ decision.defaultQFI &&& 0x3F = 1 := by
      split
      · case isTrue h => exact (or_iff_right h).symm
      · case isFalse h => exact iff_of_true rfl (.inl (not_not.1 h))
    rw [← hone]
    constructor
    · grind
    · rintro ⟨hqfi, -⟩
      exact ⟨1, fiveQI, by rw [hqfi], rfl, rfl, rfl, rfl, rfl⟩

theorem map_eq_iff {α : Type} {f : α → α} {l : List α} : l.map f = l ↔ ∀ a ∈ l, f a = a := by
  simpa using @List.map_inj_left _ _ l f id

/-- The octets tell just the rules whose QFI has six bits and that do not delete the default rule,
and just the flows whose QFI has six bits and that give no 5QI where they are deleted.  The default
flow is described alike everywhere just where its QFI is 1 and it has a 5QI. -/
theorem qos_told_iff (rules : List QoSRuleSpec) (flows : List QoSFlowSpec)
    (decision : Pcf.SmPolicy.SmPolicyDecision) (authorized : AuthorizedQos) (subscribed id : UInt8)
    (sess : PduSession) (service : Option ServiceRates) :
    (parseRules (buildAuthorizedQoSRules rules) = some rules ↔
      ∀ r ∈ rules, r.qfi < 64 ∧ ¬(r.dqr ∧ r.delete)) ∧
    (parseFlows (buildAuthorizedQoSFlowDescriptions flows) = some flows ↔
      ∀ f ∈ flows, f.qfi < 64 ∧ (f.delete → f.fiveQI = 0)) ∧
    (OneDefaultFlow decision (defaultFiveQI authorized subscribed) id sess service ↔
      (decision.defaultQFI = 0 ∨ decision.defaultQFI &&& 0x3F = 1) ∧
        defaultFiveQI authorized subscribed ≠ 0) := by
  have hmask : ∀ b : UInt8, b &&& 0x3F = b ↔ b < 64 := fun b => by
    rw [← UInt8.toNat_inj, UInt8.toNat_and, UInt8.lt_iff_toNat_lt]
    exact (Nat.and_two_pow_sub_one_eq_mod b.toNat 6).symm ▸ Nat.mod_eq_iff_lt (by decide)
  refine ⟨?_, ?_, oneDefaultFlow_iff decision _ id sess service⟩
  · rw [parseRules_build, some.injEq, map_eq_iff]
    refine forall₂_congr fun r _ => ?_
    obtain ⟨rid, qfi, dqr, precedence, delete⟩ := r
    cases dqr <;> cases delete <;> simp [QoSRuleSpec.told, hmask]
  · rw [parseFlows_build, some.injEq, map_eq_iff]
    refine forall₂_congr fun f _ => ?_
    obtain ⟨qfi, fiveQI, delete⟩ := f
    cases delete <;> simp [QoSFlowSpec.told, hmask, @eq_comm _ 0 fiveQI]

/-- The PCF makes the second binding the default one, and the UE is told of a flow that neither the
UPF nor the gNB knows. -/
theorem default_flow_differs :
    ∃ decision : Pcf.SmPolicy.SmPolicyDecision, decision.defaultQFI = 2 ∧
      ∀ id sess service, ¬OneDefaultFlow decision 9 id sess service :=
  ⟨⟨[], 2, none⟩, rfl, fun id sess service h =>
    absurd ((oneDefaultFlow_iff _ 9 id sess service).1 h) (by decide)⟩

end MmtCore.Smf
