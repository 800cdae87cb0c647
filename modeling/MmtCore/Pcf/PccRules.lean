import Mathlib.Data.List.Basic

/-!
# PCC rules and SM policy associations

The rule manager of the PCF (`pcf.go`), the decisions that it gives for a session, and the
associations through which the SMF is told of them (`smpolicy.go`).  The associations are those of
the IMS PDU session, one for each subscriber.
-/

namespace MmtCore.Pcf

open List Option Function

/-- The digits of an IMSI. -/
abbrev Supi := List Char

inductive PccRuleState where
  | active
  | inactive
  | pending
  | inactiveGated
  | removed
deriving DecidableEq

structure PccRuleEntry where
  serviceName : String
  status : PccRuleState
deriving DecidableEq

/-- The rules of each subscriber and DNN. -/
structure PccRuleManager where
  rules : Supi → String → List PccRuleEntry

namespace PccRuleManager

variable (m : PccRuleManager) (imsi : Supi) (dnn : String)

def set (rules : List PccRuleEntry) : PccRuleManager :=
  ⟨fun i d => if i = imsi ∧ d = dnn then rules else m.rules i d⟩

def addRule (serviceName : String) (status : PccRuleState) : PccRuleManager :=
  if (m.rules imsi dnn).any (·.serviceName = serviceName) then m
  else m.set imsi dnn (m.rules imsi dnn ++ [⟨serviceName, status⟩])

/-- `ActivateRules` turns these on. -/
def activates (serviceNames : List String) (r : PccRuleEntry) : Bool :=
  r.serviceName ∈ serviceNames && (r.status = .inactive || r.status = .inactiveGated)

/-- The rules after the activation, and those activated. -/
def activateRules (serviceNames : List String) : PccRuleManager × List PccRuleEntry :=
  (m.set imsi dnn ((m.rules imsi dnn).map fun r =>
      if activates serviceNames r then { r with status := .active } else r),
    (m.rules imsi dnn).filter (activates serviceNames))

def getActiveServiceNames : List String :=
  ((m.rules imsi dnn).filter fun r => r.status = .active && r.serviceName ≠ "").map (·.serviceName)

def deactivateRules : PccRuleManager :=
  m.set imsi dnn ((m.rules imsi dnn).map fun r =>
    if r.status = .active then { r with status := .inactiveGated } else r)

def removeRules : PccRuleManager := m.set imsi dnn []

end PccRuleManager

/-! ## AF requests -/

def mapMediaToServices (mediaTypes : List (List Char)) : List String :=
  mediaTypes.filterMap fun mt =>
    let mt := mt.map Char.toLower
    if mt = "audio".toList then some "conv_voice"
    else if mt = "video".toList then some "conv_video"
    else none

/-- True if a rule was activated. -/
def handleAARequest (m : PccRuleManager) (imsi : Supi) (mediaTypes : List (List Char)) :
    PccRuleManager × Bool :=
  let services := mapMediaToServices mediaTypes
  if services = [] then (m, false)
  else
    let m := services.foldl (fun m svc => m.addRule imsi "ims" svc .inactiveGated) m
    let (m, activated) := m.activateRules imsi "ims" services
    (m, activated ≠ [])

def handleSessionTermination (m : PccRuleManager) (imsi : Supi) : PccRuleManager :=
  m.deactivateRules imsi "ims"

/-! ## Decisions -/

structure Binding where
  serviceName : String
  isDefault : Bool
deriving DecidableEq

/-- The service bindings of the subscribers on each DNN, and the catalogue of services. -/
structure PolicyData where
  bindings : Supi → String → List Binding
  services : List String

structure PCCRule where
  serviceName : String
  isDefault : Bool
deriving DecidableEq

/-- The rules of the bindings: a default one always, the others while they are active. -/
def createPolicy (db : PolicyData) (m : PccRuleManager) (imsi : Supi) (dnn : String) :
    List PCCRule :=
  let rules := (db.bindings imsi dnn).filterMap fun b =>
    if b.serviceName ∈ db.services ∧
        (b.isDefault ∨ b.serviceName ∈ m.getActiveServiceNames imsi dnn) then
      some ⟨b.serviceName, b.isDefault⟩
    else none
  if rules = [] then [⟨"default_data", true⟩] else rules

/-- The PCF, and what the SMF was told last about each service of the IMS session. -/
structure Policy where
  mgr : PccRuleManager
  /-- The DNN of the association, if there is one. -/
  assocs : Supi → Option String
  told : Supi → String → Bool

namespace Policy

variable (db : PolicyData) (p : Policy) (imsi : Supi)

def names (rules : List PCCRule) : List String := rules.map (·.serviceName)

/-- A second `Create` for the session is refused. -/
def create (dnn : String) : Policy :=
  if imsi = [] ∨ (p.assocs imsi).isSome then p
  else
    { p with
      assocs := Function.update p.assocs imsi (some dnn)
      told := Function.update p.told imsi fun svc => svc ∈ names (createPolicy db p.mgr imsi dnn) }

/-- `Update`: the rules as they are now. -/
def update : Option (List PCCRule) :=
  (p.assocs imsi).map fun dnn => createPolicy db p.mgr imsi dnn

/-- `PushNotify`: the SMF is given the rules and the services whose rules are gone. -/
def pushNotify (pccRules : List PCCRule) (removed : List String) : Policy :=
  { p with
    told := Function.update p.told imsi fun svc =>
      if svc ∈ removed then false
      else if svc ∈ names pccRules then true
      else p.told imsi svc }

def delete : Policy :=
  match p.assocs imsi with
  | none => p
  | some dnn =>
    { mgr := p.mgr.removeRules imsi dnn
      assocs := Function.update p.assocs imsi none
      told := Function.update p.told imsi fun _ => false }

end Policy

/-! ## Informed associations -/

/-- The service is bound to the subscriber on the IMS DNN, and not by default. -/
def PolicyData.Gated (db : PolicyData) (imsi : Supi) (svc : String) : Prop :=
  svc ≠ "default_data" ∧ svc ∈ db.services ∧ ⟨svc, false⟩ ∈ db.bindings imsi "ims" ∧
    ⟨svc, true⟩ ∉ db.bindings imsi "ims"

namespace Policy

/-- The rule of the service is active for the IMS session of the subscriber. -/
def Active (p : Policy) (imsi : Supi) (svc : String) : Prop :=
  svc ∈ p.mgr.getActiveServiceNames imsi "ims"
  deriving Decidable

/-- The SMF of an IMS session knows of each gated service whether its rule is active. -/
def Informed (db : PolicyData) (p : Policy) : Prop :=
  ∀ imsi svc, db.Gated imsi svc → p.assocs imsi = some "ims" →
    (p.told imsi svc = true ↔ p.Active imsi svc)

end Policy

/-! ## Which rules are active -/

namespace PccRuleManager

variable {m : PccRuleManager} {imsi : Supi} {dnn : String}

/-- No rule is in one of the states that no request leaves. -/
def Settled (m : PccRuleManager) : Prop :=
  ∀ i d, ∀ r ∈ m.rules i d, r.status = .active ∨ r.status = .inactiveGated

theorem rules_set (rules : List PccRuleEntry) (i : Supi) (d : String) :
    (m.set imsi dnn rules).rules i d = if i = imsi ∧ d = dnn then rules else m.rules i d := rfl

variable {svc : String} {i : Supi} {d : String}

theorem mem_getActiveServiceNames :
    svc ∈ m.getActiveServiceNames imsi dnn ↔ svc ≠ "" ∧ ⟨svc, .active⟩ ∈ m.rules imsi dnn := by
  unfold getActiveServiceNames
  simp only [List.mem_map, List.mem_filter, Bool.and_eq_true, decide_eq_true_eq]
  constructor
  · rintro ⟨⟨name, status⟩, ⟨hmem, rfl, hne⟩, rfl⟩
    exact ⟨hne, hmem⟩
  · rintro ⟨hne, hmem⟩
    exact ⟨_, ⟨hmem, rfl, hne⟩, rfl⟩

theorem Settled.set {rules : List PccRuleEntry} (hs : m.Settled)
    (hrules : ∀ r ∈ rules, r.status = .active ∨ r.status = .inactiveGated) :
    (m.set imsi dnn rules).Settled := by
  intro i d r hr
  rw [rules_set] at hr
  split at hr
  · exact hrules r hr
  · exact hs i d r hr

theorem Settled.addRule (hs : m.Settled) (svc : String) :
    (m.addRule imsi dnn svc .inactiveGated).Settled := by
  unfold PccRuleManager.addRule
  split
  · exact hs
  · refine hs.set fun r hr => ?_
    rcases mem_append.1 hr with hr | hr
    · exact hs _ _ r hr
    · exact .inr (by rw [mem_singleton.1 hr])

theorem Settled.activateRules (hs : m.Settled) (names : List String) :
    (m.activateRules imsi dnn names).1.Settled := by
  refine hs.set fun r hr => ?_
  obtain ⟨r₀, hr₀, rfl⟩ := mem_map.1 hr
  split
  · exact .inl rfl
  · exact hs _ _ r₀ hr₀

theorem Settled.deactivateRules (hs : m.Settled) : (m.deactivateRules imsi dnn).Settled := by
  refine hs.set fun r hr => ?_
  obtain ⟨r₀, hr₀, rfl⟩ := mem_map.1 hr
  split
  · exact .inr rfl
  · exact hs _ _ r₀ hr₀

theorem Settled.removeRules (hs : m.Settled) : (m.removeRules imsi dnn).Settled :=
  hs.set (by simp)

theorem active_addRule (name : String) :
    svc ∈ (m.addRule imsi dnn name .inactiveGated).getActiveServiceNames i d ↔
      svc ∈ m.getActiveServiceNames i d := by
  grind [mem_getActiveServiceNames, rules_set, addRule]

/-- After the request for a rule there is one of that name. -/
theorem exists_addRule (name : String) :
    ∃ r ∈ (m.addRule imsi dnn name .inactiveGated).rules imsi dnn, r.serviceName = name := by
  unfold addRule
  split
  · case isTrue h => simpa using h
  · exact ⟨⟨name, .inactiveGated⟩, by simp [rules_set], rfl⟩

theorem mem_addRule (name : String) {r : PccRuleEntry} (hr : r ∈ m.rules i d) :
    r ∈ (m.addRule imsi dnn name .inactiveGated).rules i d := by
  grind [rules_set, addRule]

theorem active_activateRules (hs : m.Settled) (names : List String) :
    svc ∈ (m.activateRules imsi dnn names).1.getActiveServiceNames i d ↔
      svc ∈ m.getActiveServiceNames i d ∨
        (i = imsi ∧ d = dnn) ∧ svc ∈ names ∧ svc ≠ "" ∧
          ∃ r ∈ m.rules imsi dnn, r.serviceName = svc := by
  unfold activateRules
  rw [mem_getActiveServiceNames, mem_getActiveServiceNames]
  rw [rules_set]
  split
  case isFalse h => exact ⟨.inl, fun h' => h'.resolve_right fun h'' => h h''.1⟩
  case isTrue h =>
  rw [h.1, h.2]
  constructor
  · rintro ⟨hne, hmem⟩
    obtain ⟨r, hr, heq⟩ := mem_map.1 hmem
    split at heq
    · case isTrue hact =>
      have hname : r.serviceName = svc := congrArg (·.serviceName) heq
      unfold activates at hact
      rw [Bool.and_eq_true, decide_eq_true_eq, hname] at hact
      exact .inr ⟨⟨rfl, rfl⟩, hact.1, hne, r, hr, hname⟩
    · exact .inl ⟨hne, heq ▸ hr⟩
  · rintro (⟨hne, hmem⟩ | ⟨-, hin, hne, r, hr, rfl⟩)
    · grind
    · refine ⟨hne, mem_map.2 ⟨r, hr, ?_⟩⟩
      rcases hs _ _ r hr with hst | hst
      · rw [if_neg (by simp [activates, hst]), ← hst]
      · rw [if_pos (by simp [activates, hst, hin])]

theorem activateRules_nil {names : List String} (h : (m.activateRules imsi dnn names).2 = []) :
    (m.activateRules imsi dnn names).1 = m := by
  have hmap : ((m.rules imsi dnn).map fun r =>
      if activates names r then { r with status := .active } else r) = m.rules imsi dnn := by
    refine map_congr_left (g := id) (fun r hr => ?_) |>.trans (map_id _)
    rw [if_neg (filter_eq_nil_iff.1 h r hr)]
    rfl
  unfold activateRules
  dsimp only
  rw [hmap]
  cases m with
  | mk rules =>
    unfold set
    congr 1
    funext i d
    split
    · case isTrue h => rw [h.1, h.2]
    · rfl

theorem active_deactivateRules : svc ∈ (m.deactivateRules imsi dnn).getActiveServiceNames i d ↔
      svc ∈ m.getActiveServiceNames i d ∧ ¬ (i = imsi ∧ d = dnn) := by
  unfold deactivateRules
  grind [mem_getActiveServiceNames, rules_set]

theorem active_removeRules : svc ∈ (m.removeRules imsi dnn).getActiveServiceNames i d ↔
      svc ∈ m.getActiveServiceNames i d ∧ ¬ (i = imsi ∧ d = dnn) := by
  grind [mem_getActiveServiceNames, rules_set, removeRules]

end PccRuleManager

/-! ### AF requests -/

section

open PccRuleManager

variable {m : PccRuleManager} {imsi : Supi} {types : List (List Char)}
variable {svc : String} {i : Supi}

theorem ne_empty_of_mem_services (h : svc ∈ mapMediaToServices types) : svc ≠ "" := by
  obtain ⟨mt, -, hmt⟩ := mem_filterMap.1 h
  dsimp only at hmt
  split at hmt
  · rw [← some.inj hmt]; decide
  · split at hmt
    · rw [← some.inj hmt]; decide
    · cases hmt

/-- The rules that a request adds: all are there, none is active, and the states stay settled. -/
theorem addRules_spec (hs : m.Settled) (services : List String) :
    let m' := services.foldl (fun m svc => m.addRule imsi "ims" svc .inactiveGated) m
    m'.Settled ∧
      (∀ i d svc, svc ∈ m'.getActiveServiceNames i d ↔ svc ∈ m.getActiveServiceNames i d) ∧
      (∀ r ∈ m.rules imsi "ims", r ∈ m'.rules imsi "ims") ∧
      ∀ svc ∈ services, ∃ r ∈ m'.rules imsi "ims", r.serviceName = svc := by
  induction services generalizing m with
  | nil => exact ⟨hs, fun _ _ _ => Iff.rfl, fun _ hr => hr, by simp⟩
  | cons name names ih =>
    obtain ⟨hset, hact, hkept, hnew⟩ := ih (@Settled.addRule m imsi "ims" hs name)
    rw [foldl_cons]
    refine ⟨hset, fun i d svc => (hact i d svc).trans (active_addRule name),
      fun r hr => hkept r (mem_addRule name hr), fun svc hsvc => ?_⟩
    rcases mem_cons.1 hsvc with rfl | hsvc
    · obtain ⟨r, hr, hname⟩ := @exists_addRule m imsi "ims" svc
      exact ⟨r, hkept r hr, hname⟩
    · exact hnew svc hsvc

theorem Settled.handleAARequest (hs : m.Settled) : (handleAARequest m imsi types).1.Settled := by
  unfold Pcf.handleAARequest
  dsimp only
  split
  · exact hs
  · exact (addRules_spec hs _).1.activateRules _

theorem active_handleAARequest (hs : m.Settled) :
    svc ∈ (handleAARequest m imsi types).1.getActiveServiceNames i "ims" ↔
      svc ∈ m.getActiveServiceNames i "ims" ∨ i = imsi ∧ svc ∈ mapMediaToServices types := by
  unfold handleAARequest
  dsimp only
  split
  · case isTrue hnil => simp [hnil]
  · obtain ⟨hset, hact, -, hnew⟩ := @addRules_spec m imsi hs (mapMediaToServices types)
    rw [active_activateRules hset, hact]
    refine or_congr_right ⟨fun h => ⟨h.1.1, h.2.1⟩, fun h => ⟨⟨h.1, rfl⟩, h.2, ?_, ?_⟩⟩
    · exact ne_empty_of_mem_services h.2
    · exact hnew svc h.2

/-- A request that is turned down changes nothing that is active. -/
theorem active_of_handleAARequest_false (hs : m.Settled)
    (h : (handleAARequest m imsi types).2 = false) :
    svc ∈ (handleAARequest m imsi types).1.getActiveServiceNames i "ims" ↔
      svc ∈ m.getActiveServiceNames i "ims" := by
  unfold handleAARequest at h ⊢
  dsimp only at h ⊢
  split at h
  · case isTrue hnil => rw [if_pos hnil]
  · case isFalse hnil =>
    rw [if_neg hnil]
    have hnone := activateRules_nil (by simpa using h)
    rw [hnone]
    exact (addRules_spec hs _).2.1 i "ims" svc

end

/-! ### Decisions -/

namespace Policy

variable {db : PolicyData} {p : Policy} {imsi : Supi}
variable {m : PccRuleManager} {svc : String}

theorem mem_createPolicy (hg : db.Gated imsi svc) :
    svc ∈ names (createPolicy db m imsi "ims") ↔ svc ∈ m.getActiveServiceNames imsi "ims" := by
  obtain ⟨hlast, hsvc, hbound, hgated⟩ := hg
  have hrules : svc ∈ names ((db.bindings imsi "ims").filterMap fun b =>
      if b.serviceName ∈ db.services ∧
          (b.isDefault ∨ b.serviceName ∈ m.getActiveServiceNames imsi "ims") then
        some (⟨b.serviceName, b.isDefault⟩ : PCCRule)
      else none) ↔ svc ∈ m.getActiveServiceNames imsi "ims" := by
    unfold names
    simp only [List.mem_map, List.mem_filterMap]
    constructor
    · rintro ⟨r, ⟨b, hb, hr⟩, rfl⟩
      split at hr
      · case isTrue h =>
        cases hr
        rcases h.2 with hdef | hact
        · exact absurd (show (⟨b.serviceName, true⟩ : Binding) ∈ _ from hdef ▸ hb) hgated
        · exact hact
      · cases hr
    · intro hact
      exact ⟨⟨svc, false⟩, ⟨⟨svc, false⟩, hbound, if_pos ⟨hsvc, .inr hact⟩⟩, rfl⟩
  grind [names, createPolicy]

/-- After a change of the rules of one subscriber, the push of the decision informs the SMF, if the
rules that are gone are named. -/
theorem Informed.push {removed : List String} (h : p.Informed db) (hother : ∀ i svc, i ≠ imsi →
      (svc ∈ m.getActiveServiceNames i "ims" ↔ svc ∈ p.mgr.getActiveServiceNames i "ims"))
    (hremoved : ∀ svc, svc ∈ removed → svc ∉ m.getActiveServiceNames imsi "ims")
    (hkept : ∀ svc, p.Active imsi svc → svc ∉ removed →
      svc ∈ m.getActiveServiceNames imsi "ims") :
    Informed db (match Policy.update db { p with mgr := m } imsi with
      | none => { p with mgr := m }
      | some decision => Policy.pushNotify { p with mgr := m } imsi decision removed) := by
  unfold Policy.update
  intro i svc hg hassoc
  by_cases hi : i = imsi
  · subst hi
    cases ha : p.assocs i with
    | none =>
      rw [ha] at hassoc
      exact absurd (ha ▸ hassoc) (by simp)
    | some dnn =>
      rw [ha] at hassoc
      have hdnn : dnn = "ims" := some.inj (ha ▸ hassoc)
      subst hdnn
      unfold pushNotify
      dsimp only [map_some]
      rw [update_self]
      have hbefore := h i svc hg ha
      split
      · case isTrue hrem => exact iff_of_false (by simp) (hremoved svc hrem)
      · case isFalse hrem =>
        split
        · case isTrue hin => exact iff_of_true rfl ((mem_createPolicy hg).1 hin)
        · case isFalse hin =>
          have hact := fun hact => hin ((mem_createPolicy hg).2 hact)
          rw [hbefore]
          exact iff_of_false (fun hb => hact (hkept svc hb hrem)) hact
  · have key : p.assocs i = some "ims" → (p.told i svc = true ↔
        svc ∈ m.getActiveServiceNames i "ims") := fun ha =>
      (h i svc hg ha).trans (hother i svc hi).symm
    cases ha : p.assocs imsi with
    | none =>
      rw [ha] at hassoc
      exact key hassoc
    | some dnn =>
      rw [ha] at hassoc
      unfold pushNotify
      dsimp only [map_some]
      rw [update_of_ne hi]
      exact key hassoc

/-- A change after which the same rules are active. -/
theorem Informed.of_same (h : p.Informed db)
    (hsame : ∀ i svc, svc ∈ m.getActiveServiceNames i "ims" ↔
      svc ∈ p.mgr.getActiveServiceNames i "ims") :
    Informed db { p with mgr := m } :=
  fun i svc hg ha => (h i svc hg ha).trans (hsame i svc).symm

theorem create_mgr (dnn : String) : (p.create db imsi dnn).mgr = p.mgr := by
  unfold create
  split <;> rfl

theorem Informed.create (h : p.Informed db) (dnn : String) : (p.create db imsi dnn).Informed db := by
  unfold Policy.create
  split
  · exact h
  · intro i svc hg ha
    dsimp only at ha
    by_cases hi : i = imsi
    · subst hi
      rw [update_self] at ha
      obtain rfl := some.inj ha
      dsimp only
      rw [update_self, decide_eq_true_eq]
      exact mem_createPolicy hg
    · rw [update_of_ne hi] at ha
      dsimp only
      rw [update_of_ne hi]
      exact h i svc hg ha

theorem active_delete {i : Supi} : (p.delete imsi).Active i svc ↔
      p.Active i svc ∧ ¬ (i = imsi ∧ p.assocs imsi = some "ims") := by
  unfold delete
  split
  · case h_1 ha => simp [ha]
  · case h_2 dnn ha =>
    unfold Active
    rw [PccRuleManager.active_removeRules, ha, some.injEq, eq_comm (a := dnn)]

theorem settled_delete (hs : p.mgr.Settled) : (p.delete imsi).mgr.Settled := by
  unfold delete
  split
  · exact hs
  · exact hs.removeRules

theorem Informed.delete (h : p.Informed db) : (p.delete imsi).Informed db := by
  intro i svc hg
  rw [active_delete]
  unfold Policy.delete
  split
  · case h_1 ha =>
    intro hassoc
    rw [h i svc hg hassoc, ha]
    simp
  · case h_2 dnn _ =>
    dsimp only
    by_cases hi : i = imsi
    · rw [hi, update_self]
      exact fun hassoc => absurd hassoc (by simp)
    · rw [update_of_ne hi, update_of_ne hi]
      intro hassoc
      rw [h i svc hg hassoc]
      simp [hi]

end Policy

end MmtCore.Pcf
