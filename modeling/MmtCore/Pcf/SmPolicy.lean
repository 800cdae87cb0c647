import Mathlib.Data.List.Sort
import MmtCore.Lib.AssocMap
import MmtCore.Pcf.PccRules
import MmtCore.Pcf.TscRules

/-!
# SM policy associations by session

The associations of all PDU sessions and their state machines (`smpolicy.go`, `smpolicy/fsm`), and
the decision that `CreatePolicy` makes for a subscriber and DNN from the bindings, the active rules
and the TSC rules (`pcf.go`).  One call runs after the other.
-/

namespace MmtCore.Pcf.SmPolicy

open MmtCore.Lib

structure Key where
  imsi : String
  pduSessionID : UInt8
deriving DecidableEq

/-! ## The state machine of an association -/

inductive State where
  | none
  | createPending
  | active
  | updatePending
  | terminating
  | terminated
deriving DecidableEq

inductive Ev where
  | createRequest
  | createResponse
  | createReject
  | updateRequest
  | updateResponse
  | updateReject
  | updateNotifySent
  | updateNotifyAck
  | updateNotifyFailure
  | deleteRequest
  | deleteResponse
  | revalidationTimerExpired
deriving DecidableEq

/-- The transition table. -/
def State.next : State → Ev → Option State
  | .none, .createRequest => some .createPending
  | .createPending, .createResponse => some .active
  | .createPending, .createReject => some .none
  | .active, .updateRequest => some .active
  | .active, .updateResponse => some .active
  | .active, .updateReject => some .active
  | .active, .updateNotifySent => some .updatePending
  | .updatePending, .updateNotifyAck => some .active
  | .updatePending, .updateNotifyFailure => some .active
  | .active, .revalidationTimerExpired => some .active
  | .active, .deleteRequest => some .terminating
  | .updatePending, .deleteRequest => some .terminating
  | .terminating, .deleteResponse => some .terminated
  | .createPending, .deleteRequest => some .terminating
  | _, _ => Option.none

/-! ## Bindings -/

structure BindingRow where
  imsi : String
  dnn : String
  serviceName : String
  isDefault : Bool
deriving DecidableEq

/-- The rows of `service_bindings`, and the names in the catalogue of services. -/
structure Provisioning where
  rows : List BindingRow
  services : List String

/-- `BindingsList`: an empty text is no filter; ordered by `is_default DESC, service_name ASC`. -/
def bindingsList (db : Provisioning) (imsi dnn : String) : List Binding :=
  let rows := db.rows.filter fun r =>
    (imsi = "" ∨ r.imsi = imsi) ∧ (dnn = "" ∨ r.dnn = dnn)
  (rows.insertionSort fun a b =>
    (a.isDefault ∧ ¬ b.isDefault) ∨ (a.isDefault = b.isDefault ∧ a.serviceName ≤ b.serviceName)).map
      fun r => ⟨r.serviceName, r.isDefault⟩

/-! ## Decisions -/

/-- A rule of a decision: one that a binding provides, or one of a TSC flow. -/
inductive PolicyRule where
  | bound (r : PCCRule)
  | tsc (r : TscPccRule)
deriving DecidableEq

namespace PolicyRule

def serviceName : PolicyRule → String
  | bound r => r.serviceName
  | tsc r => r.serviceName

def isDefault : PolicyRule → Bool
  | bound r => r.isDefault
  | tsc _ => false

end PolicyRule

structure PCCRuleSet where
  rules : List PolicyRule
  defaultQFI : UInt8
deriving DecidableEq

/-- The binding gives a rule: its service is there, and is active unless it is a default one. -/
def Emits (db : Provisioning) (active : List String) (b : Binding) : Prop :=
  b.serviceName ∈ db.services ∧ (b.isDefault ∨ b.serviceName ∈ active)
  deriving Decidable

/-- The bindings that give a rule, with their places in the whole list. -/
def emitted (db : Provisioning) (active : List String) (bindings : List Binding) :
    List (Binding × Nat) :=
  bindings.zipIdx.filter fun p => Emits db active p.1

/-- The last default binding counts. -/
def defaultQFI (l : List (Binding × Nat)) : UInt8 :=
  l.foldl (fun qfi p => if p.1.isDefault then UInt8.ofNat (p.2 + 1) else qfi) 1

/-- The rule manager keeps the digits of the IMSI. -/
def activeNames (mgr : PccRuleManager) (imsi dnn : String) : List String :=
  mgr.getActiveServiceNames imsi.toList dnn

/-- `CreatePolicy`; the slice of the session has no part in it. -/
def createPolicy (db : Provisioning) (mgr : PccRuleManager) (store : TscRuleStore)
    (imsi dnn : String) : PCCRuleSet :=
  let l := emitted db (activeNames mgr imsi dnn) (bindingsList db imsi dnn)
  let rules := l.map fun p => PolicyRule.bound ⟨p.1.serviceName, p.1.isDefault⟩
  let dynamic := (store ⟨imsi, dnn⟩).map PolicyRule.tsc
  if rules = [] then ⟨.bound ⟨"default_data", true⟩ :: dynamic, 1⟩
  else ⟨rules ++ dynamic, defaultQFI l⟩

structure PortManCont where
  container : List UInt8
  portNum : UInt16
deriving DecidableEq

structure TscManagement where
  portManContDstt : Option PortManCont
  portManContNwtts : List PortManCont
  bridgeManCont : List UInt8
deriving DecidableEq

/-- A decision, and the containers that ride on a copy of it. -/
structure SmPolicyDecision where
  pccRules : List PolicyRule
  defaultQFI : UInt8
  tsc : Option TscManagement
deriving DecidableEq

def PCCRuleSet.decision (set : PCCRuleSet) : SmPolicyDecision :=
  ⟨set.rules, set.defaultQFI, none⟩

structure SmPolicyContextData where
  supi : String
  pduSessionID : UInt8
  dnn : String
  sst : UInt8
deriving DecidableEq

/-- The prefix goes only where something follows it. -/
def stripSupiPrefix (supi : String) : String :=
  if supi.toList.length > 5 ∧ supi.toList.take 5 = "imsi-".toList then
    String.ofList (supi.toList.drop 5)
  else supi

def SmPolicyContextData.key (ctx : SmPolicyContextData) : Key :=
  ⟨stripSupiPrefix ctx.supi, ctx.pduSessionID⟩

structure Association where
  ctxData : SmPolicyContextData
  decision : SmPolicyDecision
deriving DecidableEq

/-! ## The operations -/

structure PCF where
  fsms : AssocMap Key State
  assocs : AssocMap Key Association
  mgr : PccRuleManager
  store : TscRuleStore
  /-- The keys whose association has been deleted at some time. -/
  deleted : List Key

namespace PCF

def init : PCF := ⟨∅, ∅, ⟨fun _ _ => []⟩, fun _ => [], []⟩

variable (db : Provisioning) (p : PCF) (k : Key)

/-- `fsm.Of`: an unknown key gets a machine. -/
def of : PCF := { p with fsms := p.fsms.assign k ((p.fsms.lookup k).getD .none) }

def state : State := (p.fsms.lookup k).getD .none

/-- `Fire` on the machine of the key; nothing where there is no transition. -/
def fire (ev : Ev) : Option PCF :=
  (State.next (p.state k) ev).map fun st => { p with fsms := p.fsms.assign k st }

def drop : PCF := { p with fsms := p.fsms.erase k }

def record (a : Association) : PCF := { p with assocs := p.assocs.assign k a }

def forget : PCF := { p with assocs := p.assocs.erase k }

/-- What the policy of a subscriber and DNN is now. -/
def policy (imsi dnn : String) : PCCRuleSet := createPolicy db p.mgr p.store imsi dnn

/-- There is always a rule, so that the decision is never refused for want of one. -/
def create (ctx : SmPolicyContextData) : PCF × Option SmPolicyDecision :=
  if ctx.supi = "" ∨ ctx.pduSessionID = 0 then (p, none)
  else
    match (p.of ctx.key).fire ctx.key .createRequest with
    | none => (p.of ctx.key, none)
    | some p₁ =>
      let decision := (p₁.policy db ctx.key.imsi ctx.dnn).decision
      let p₂ := p₁.record ctx.key ⟨ctx, decision⟩
      match p₂.fire ctx.key .createResponse with
      | none => ((p₂.forget ctx.key).drop ctx.key, none)
      | some p₃ => (p₃, some decision)

def update : PCF × Option SmPolicyDecision :=
  match p.assocs.lookup k with
  | none => (p, none)
  | some a =>
    match (p.of k).fire k .updateRequest with
    | none => (p.of k, none)
    | some p₁ =>
      let set := p₁.policy db k.imsi a.ctxData.dnn
      let decision := { a.decision with pccRules := set.rules, defaultQFI := set.defaultQFI }
      let p₂ := p₁.record k { a with decision := decision }
      ((p₂.fire k .updateResponse).getD p₂, some decision)

/-- The decision that the SMF is given. -/
def pushNotify (decision : SmPolicyDecision) : PCF × Option SmPolicyDecision :=
  match (p.of k).fire k .updateNotifySent with
  | none => (p.of k, none)
  | some p₁ => ((p₁.fire k .updateNotifyAck).getD p₁, some decision)

def pushTscManagement (m : TscManagement) : PCF × Option SmPolicyDecision :=
  match p.assocs.lookup k with
  | none => (p, none)
  | some a => p.pushNotify k { a.decision with tsc := some m }

def delete : PCF :=
  match p.assocs.lookup k with
  | none => p
  | some a =>
    match (p.of k).fire k .deleteRequest with
    | none => p.of k
    | some p₁ =>
      let p₂ := p₁.forget k
      let p₃ := { p₂ with
        mgr := p₂.mgr.removeRules k.imsi.toList a.ctxData.dnn
        deleted := k :: p₂.deleted }
      ((p₃.fire k .deleteResponse).getD p₃).drop k

end PCF

/-- An operation on a session; an AF acts for the session that it has found. -/
inductive Event where
  | create (ctx : SmPolicyContextData)
  | update (k : Key)
  | pushNotify (k : Key) (decision : SmPolicyDecision)
  | pushTscManagement (k : Key) (m : TscManagement)
  | delete (k : Key)
  | handleAARequest (k : Key) (mediaTypes : List (List Char))
  | handleSessionTermination (k : Key)
  | installTscPccRule (k : Key) (dnn : String) (rule : TscPccRule)
  | removeTscPccRule (k : Key) (dnn : String) (ruleName : String)

def Event.key : Event → Key
  | .create ctx => ctx.key
  | .update k => k
  | .pushNotify k _ => k
  | .pushTscManagement k _ => k
  | .delete k => k
  | .handleAARequest k _ => k
  | .handleSessionTermination k => k
  | .installTscPccRule k _ _ => k
  | .removeTscPccRule k _ _ => k

namespace PCF

variable (db : Provisioning) (p : PCF)

/-- The state after the call, and the decision that it returns or pushes. -/
def call : Event → PCF × Option SmPolicyDecision
  | .create ctx => p.create db ctx
  | .update k => p.update db k
  | .pushNotify k decision => p.pushNotify k decision
  | .pushTscManagement k m => p.pushTscManagement k m
  | .delete k => (p.delete k, none)
  | .handleAARequest k types =>
    ({ p with mgr := (Pcf.handleAARequest p.mgr k.imsi.toList types).1 }, none)
  | .handleSessionTermination k =>
    ({ p with mgr := Pcf.handleSessionTermination p.mgr k.imsi.toList }, none)
  | .installTscPccRule k dnn rule =>
    ({ p with store := Pcf.installTscPccRule p.store ⟨k.imsi, dnn⟩ rule }, none)
  | .removeTscPccRule k dnn name =>
    ({ p with store := (Pcf.removeTscPccRule p.store ⟨k.imsi, dnn⟩ name).1 }, none)

def step (e : Event) : PCF := (p.call db e).1

end PCF

end MmtCore.Pcf.SmPolicy
