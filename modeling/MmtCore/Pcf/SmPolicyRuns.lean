import MmtCore.Lib.Reach
import MmtCore.Pcf.SmPolicy

/-!
# Independence of SM policy associations

An association is there when its machine is active, whatever is called.  That a session obtains the
decision of its own bindings and rules, whatever is done for the others, holds of runs whose calls
meet the condition `Keeps`.
-/

namespace MmtCore.Pcf.SmPolicy

open MmtCore.Lib List Option Prod PCF AssocMap PccRuleManager

variable {db : Provisioning} {p q : PCF} {k k' : Key}

/-! ## What is to hold -/

/-- An association is stored just when its machine is active. -/
def Tracked (p : PCF) : Prop := ∀ k, (p.assocs.lookup k).isSome ↔ p.state k = .active

/-- What the session would get from `Update`, and which rules of its DNN are active. -/
def obtains (db : Provisioning) (p : PCF) (k : Key) : Option SmPolicyDecision × List String :=
  ((p.update db k).2,
    ((p.assocs.lookup k).map fun a => activeNames p.mgr k.imsi a.ctxData.dnn).getD [])

/-- The QFIs of the rules that are marked default are `DefaultQFI` alone, and no rule is there
twice. -/
def Sane (d : SmPolicyDecision) : Prop :=
  ((d.pccRules.zipIdx.filter (·.1.isDefault)).map fun r => r.2 + 1) = [d.defaultQFI.toNat] ∧
    (d.pccRules.map PolicyRule.serviceName).Nodup
  deriving Decidable

/-- The decision of the provisioned bindings alone. -/
def provisioned (db : Provisioning) (imsi dnn : String) : SmPolicyDecision :=
  (createPolicy db ⟨fun _ _ => []⟩ (fun _ => []) imsi dnn).decision

/-- A key that has been deleted starts afresh. -/
def Event.Afresh (db : Provisioning) (p : PCF) : Event → Prop
  | .create ctx =>
    ctx.key ∈ p.deleted → ∀ d, (p.create db ctx).2 = some d →
      d = provisioned db ctx.key.imsi ctx.dnn
  | _ => True

structure StepSound (db : Provisioning) (p : PCF) (e : Event) : Prop where
  tracked : Tracked (p.step db e)
  others : ∀ k, k ≠ e.key → obtains db (p.step db e) k = obtains db p k
  afresh : e.Afresh db p
  sane : ∀ d, (p.call db e).2 = some d → Sane d

/-! ## The condition -/

/-- The first binding is the only default one and its service is there, or no binding gives a
rule. -/
def OneDefault (db : Provisioning) (active : List String) : List Binding → Prop
  | [] => True
  | b :: rest =>
    (b.isDefault = true ∧ b.serviceName ∈ db.services ∧ ∀ x ∈ rest, x.isDefault = false) ∨
      ∀ x ∈ b :: rest, ¬ Emits db active x

instance (active : List String) : ∀ l, Decidable (OneDefault db active l)
  | [] => inferInstanceAs (Decidable True)
  | b :: rest =>
    inferInstanceAs (Decidable ((b.isDefault = true ∧ b.serviceName ∈ db.services ∧
      ∀ x ∈ rest, x.isDefault = false) ∨ ∀ x ∈ b :: rest, ¬ Emits db active x))

/-- One default, no service twice, and no TSC rule with the name of another rule. -/
def Sensible (db : Provisioning) (p : PCF) (imsi dnn : String) : Prop :=
  OneDefault db (activeNames p.mgr imsi dnn) (bindingsList db imsi dnn) ∧
    ((bindingsList db imsi dnn).map (·.serviceName)).Nodup ∧
      ∀ name ∈ ruleNames p.store ⟨imsi, dnn⟩,
        name ≠ "default_data" ∧ name ∉ (bindingsList db imsi dnn).map (·.serviceName)
  deriving Decidable

/-- No rule but those of the bindings is there. -/
def Clean (p : PCF) (imsi dnn : String) : Prop :=
  p.store ⟨imsi, dnn⟩ = [] ∧ activeNames p.mgr imsi dnn = []
  deriving Decidable

/-- No other session of the subscriber has an association for the DNN. -/
def Alone (p : PCF) (k : Key) (dnn : String) : Prop :=
  ∀ e ∈ p.assocs.entries, e.1 ≠ k → ¬ (e.1.imsi = k.imsi ∧ e.2.ctxData.dnn = dnn)
  deriving Decidable

/-- The request is well formed, and the key is free. -/
def Accepts (p : PCF) (ctx : SmPolicyContextData) : Prop :=
  ctx.supi ≠ "" ∧ ctx.pduSessionID ≠ 0 ∧ p.state ctx.key = .none
  deriving Decidable

/-- An update needs bindings with one default. -/
def KeepsUpdate (db : Provisioning) (p : PCF) (k : Key) : Option Association → Prop
  | none => True
  | some a => Sensible db p k.imsi a.ctxData.dnn

/-- A deletion takes the active rules of the DNN with it. -/
def KeepsDelete (p : PCF) (k : Key) : Option Association → Prop
  | none => True
  | some a => Alone p k a.ctxData.dnn ∨ activeNames p.mgr k.imsi a.ctxData.dnn = []

/-- Which calls keep the sessions apart and the decisions sane. -/
def Keeps (db : Provisioning) (p : PCF) : Event → Prop
  | .create ctx =>
    Accepts p ctx → Sensible db p ctx.key.imsi ctx.dnn ∧
      (ctx.key ∈ p.deleted → Clean p ctx.key.imsi ctx.dnn)
  | .update k => KeepsUpdate db p k (p.assocs.lookup k)
  | .pushNotify k decision => p.state k = .active → Sane decision
  | .pushTscManagement _ _ => True
  | .delete k => KeepsDelete p k (p.assocs.lookup k)
  | .handleAARequest k _ => Alone p k "ims"
  | .handleSessionTermination k => Alone p k "ims"
  | .installTscPccRule k dnn _ => Alone p k dnn
  | .removeTscPccRule k dnn _ => Alone p k dnn

instance : ∀ a, Decidable (KeepsUpdate db p k a)
  | none => inferInstanceAs (Decidable True)
  | some a => inferInstanceAs (Decidable (Sensible db p k.imsi a.ctxData.dnn))

instance : ∀ a, Decidable (KeepsDelete p k a)
  | none => inferInstanceAs (Decidable True)
  | some a =>
    inferInstanceAs (Decidable (Alone p k a.ctxData.dnn ∨
      activeNames p.mgr k.imsi a.ctxData.dnn = []))

instance : ∀ (p : PCF) (e : Event), Decidable (Keeps db p e)
  | p, .create ctx =>
    inferInstanceAs (Decidable (Accepts p ctx → Sensible db p ctx.key.imsi ctx.dnn ∧
      (ctx.key ∈ p.deleted → Clean p ctx.key.imsi ctx.dnn)))
  | p, .update k => inferInstanceAs (Decidable (KeepsUpdate db p k (p.assocs.lookup k)))
  | p, .pushNotify k decision => inferInstanceAs (Decidable (p.state k = .active → Sane decision))
  | _, .pushTscManagement _ _ => inferInstanceAs (Decidable True)
  | p, .delete k => inferInstanceAs (Decidable (KeepsDelete p k (p.assocs.lookup k)))
  | p, .handleAARequest k _ => inferInstanceAs (Decidable (Alone p k "ims"))
  | p, .handleSessionTermination k => inferInstanceAs (Decidable (Alone p k "ims"))
  | p, .installTscPccRule k dnn _ => inferInstanceAs (Decidable (Alone p k dnn))
  | p, .removeTscPccRule k dnn _ => inferInstanceAs (Decidable (Alone p k dnn))

/-- What is carried along a run. -/
structure Inv (p : PCF) : Prop where
  tracked : Tracked p
  stored : ∀ k, (ruleNames p.store k).Nodup
  sane : ∀ k a, p.assocs.lookup k = some a → Sane a.decision

theorem inv_init : Inv PCF.init := by
  refine ⟨fun k => ?_, fun _ => nodup_nil, fun k a h => by cases h⟩
  exact iff_of_false (by simp [init]) (by simp [init, state])

/-! ## What the calls do to the machines -/

/-- Nothing but the table of machines has changed, and no machine's state. -/
structure Quiet (p q : PCF) : Prop where
  assocs : q.assocs = p.assocs
  state : ∀ k, q.state k = p.state k
  mgr : q.mgr = p.mgr
  store : q.store = p.store
  deleted : q.deleted = p.deleted

theorem Quiet.refl (p : PCF) : Quiet p p := ⟨rfl, fun _ => rfl, rfl, rfl, rfl⟩

theorem state_assign (st : State) :
    PCF.state { p with fsms := p.fsms.assign k st } k' = if k' = k then st else p.state k' := by
  unfold state
  dsimp only
  rw [lookup_assign_eq]
  split <;> rfl

theorem quiet_of (p : PCF) (k : Key) : Quiet p (p.of k) := by
  refine ⟨rfl, fun k' => ?_, rfl, rfl, rfl⟩
  unfold of
  rw [state_assign]
  split
  · case isTrue h => rw [h]; rfl
  · rfl

theorem fire_eq {ev : Ev} {st : State} (h : State.next (p.state k) ev = some st) :
    p.fire k ev = some { p with fsms := p.fsms.assign k st } := by
  unfold fire
  rw [h]
  rfl

theorem fire_none {ev : Ev} (h : State.next (p.state k) ev = none) : p.fire k ev = none := by
  unfold PCF.fire
  rw [h]
  rfl

/-- The machines have no part in a policy. -/
theorem policy_machines (fsms : AssocMap Key State) :
    PCF.policy db { p.of k with fsms := fsms } = p.policy db := rfl

/-- The association of the key is this one now, and its machine is active. -/
structure Recorded (p q : PCF) (k : Key) (a : Association) : Prop where
  assocs : q.assocs = p.assocs.assign k a
  state : ∀ k', q.state k' = if k' = k then .active else p.state k'
  mgr : q.mgr = p.mgr
  store : q.store = p.store
  deleted : q.deleted = p.deleted

/-- The association of the key and its machine are gone, with the rules of the DNN. -/
structure Released (p q : PCF) (k : Key) (dnn : String) : Prop where
  assocs : q.assocs = p.assocs.erase k
  state : ∀ k', q.state k' = if k' = k then .none else p.state k'
  mgr : q.mgr = p.mgr.removeRules k.imsi.toList dnn
  store : q.store = p.store

section

variable {ctx : SmPolicyContextData} {a : Association} {d : SmPolicyDecision}

theorem create_accepts (db : Provisioning) (h : Accepts p ctx) :
    ∃ q, p.create db ctx = (q, some (p.policy db ctx.key.imsi ctx.dnn).decision) ∧
      Recorded p q ctx.key ⟨ctx, (p.policy db ctx.key.imsi ctx.dnn).decision⟩ := by
  obtain ⟨hsupi, hid, hnone⟩ := h
  have hstate : (p.of ctx.key).state ctx.key = .none := by rw [(quiet_of p _).state, hnone]
  have hask : State.next ((p.of ctx.key).state ctx.key) .createRequest = some .createPending := by
    rw [hstate]
    rfl
  -- the machine after the request, with the association stored
  let p₂ : PCF := (record
    { p.of ctx.key with fsms := (p.of ctx.key).fsms.assign ctx.key .createPending } ctx.key
    ⟨ctx, (p.policy db ctx.key.imsi ctx.dnn).decision⟩)
  have hpending : ∀ k', p₂.state k' =
      if k' = ctx.key then .createPending else (p.of ctx.key).state k' := fun k' =>
    state_assign (p := p.of ctx.key) .createPending
  have hanswer : State.next (p₂.state ctx.key) .createResponse = some .active := by
    rw [hpending, if_pos rfl]
    rfl
  refine ⟨{ p₂ with fsms := p₂.fsms.assign ctx.key .active }, ?_, rfl, fun k' => ?_, rfl, rfl,
    rfl⟩
  · unfold create
    rw [if_neg (not_or.2 ⟨hsupi, hid⟩), fire_eq hask]
    dsimp only
    rw [policy_machines, show fire _ ctx.key .createResponse =
      some { p₂ with fsms := p₂.fsms.assign ctx.key .active } from fire_eq hanswer]
  · rw [state_assign, hpending]
    split
    · rfl
    · exact (quiet_of p _).state k'

theorem next_createRequest {st : State} (h : st ≠ .none) : State.next st .createRequest = none := by
  cases st <;> first | rfl | exact absurd rfl h

theorem create_refuses (db : Provisioning) (h : ¬ Accepts p ctx) :
    ∃ q, p.create db ctx = (q, none) ∧ Quiet p q := by
  unfold PCF.create
  split
  · exact ⟨p, rfl, .refl p⟩
  · case isFalse hform =>
    obtain ⟨hsupi, hid⟩ := not_or.1 hform
    have hstate : (p.of ctx.key).state ctx.key ≠ .none := by
      rw [(quiet_of p _).state]
      exact fun heq => h ⟨hsupi, hid, heq⟩
    rw [fire_none (next_createRequest hstate)]
    exact ⟨_, rfl, quiet_of p _⟩

/-- The decision that an update makes. -/
def refreshed (db : Provisioning) (p : PCF) (k : Key) (a : Association) : SmPolicyDecision :=
  { a.decision with
    pccRules := (p.policy db k.imsi a.ctxData.dnn).rules
    defaultQFI := (p.policy db k.imsi a.ctxData.dnn).defaultQFI }

theorem update_none (db : Provisioning) (h : p.assocs.lookup k = none) : p.update db k = (p, none) := by
  unfold PCF.update
  rw [h]

theorem update_some (db : Provisioning) (ht : Tracked p) (h : p.assocs.lookup k = some a) :
    ∃ q, p.update db k = (q, some (refreshed db p k a)) ∧
      Recorded p q k { a with decision := refreshed db p k a } := by
  have hactive : p.state k = .active := (ht k).1 (by rw [h]; rfl)
  have hask : State.next ((p.of k).state k) .updateRequest = some .active := by
    rw [(quiet_of p k).state, hactive]
    rfl
  let p₂ : PCF := record { p.of k with fsms := (p.of k).fsms.assign k .active } k
    { a with decision := refreshed db p k a }
  have hstate : ∀ k', p₂.state k' = if k' = k then .active else (p.of k).state k' := fun k' =>
    state_assign (p := p.of k) .active
  have hanswer : State.next (p₂.state k) .updateResponse = some .active := by
    rw [hstate, if_pos rfl]
    rfl
  refine ⟨{ p₂ with fsms := p₂.fsms.assign k .active }, ?_, rfl, fun k' => ?_, rfl, rfl, rfl⟩
  · unfold update
    rw [h]
    dsimp only
    rw [fire_eq hask]
    dsimp only
    change ((p₂.fire k .updateResponse).getD p₂, some (refreshed db p k a)) = _
    rw [fire_eq hanswer]
    rfl
  · rw [state_assign, hstate]
    split
    · rfl
    · exact (quiet_of p k).state k'

theorem pushNotify_active (h : p.state k = .active) :
    ∃ q, p.pushNotify k d = (q, some d) ∧ Quiet p q := by
  have hask : State.next ((p.of k).state k) .updateNotifySent = some .updatePending := by
    rw [(quiet_of p k).state, h]
    rfl
  let p₁ : PCF := { p.of k with fsms := (p.of k).fsms.assign k .updatePending }
  have hstate : ∀ k', p₁.state k' = if k' = k then .updatePending else (p.of k).state k' :=
    fun k' => state_assign (p := p.of k) .updatePending
  have hanswer : State.next (p₁.state k) .updateNotifyAck = some .active := by
    rw [hstate, if_pos rfl]
    rfl
  refine ⟨{ p₁ with fsms := p₁.fsms.assign k .active }, ?_, rfl, fun k' => ?_, rfl, rfl, rfl⟩
  · unfold pushNotify
    rw [fire_eq hask]
    dsimp only
    rw [show fire _ k .updateNotifyAck =
      some { p₁ with fsms := p₁.fsms.assign k .active } from fire_eq hanswer]
    rfl
  · rw [state_assign, hstate]
    split
    · case isTrue heq => rw [heq, h]
    · exact (quiet_of p k).state k'

theorem next_updateNotifySent {st : State} (h : st ≠ .active) :
    State.next st .updateNotifySent = none := by
  cases st <;> first | rfl | exact absurd rfl h

theorem pushNotify_inactive (h : p.state k ≠ .active) :
    ∃ q, p.pushNotify k d = (q, none) ∧ Quiet p q := by
  have hnone : State.next ((p.of k).state k) .updateNotifySent = none := by
    rw [(quiet_of p k).state]
    exact next_updateNotifySent h
  unfold PCF.pushNotify
  rw [fire_none hnone]
  exact ⟨_, rfl, quiet_of p k⟩

theorem delete_none (h : p.assocs.lookup k = none) : p.delete k = p := by
  unfold PCF.delete
  rw [h]

theorem delete_some (ht : Tracked p) (h : p.assocs.lookup k = some a) :
    Released p (p.delete k) k a.ctxData.dnn := by
  have hactive : p.state k = .active := (ht k).1 (by rw [h]; rfl)
  have hask : State.next ((p.of k).state k) .deleteRequest = some .terminating := by
    rw [(quiet_of p k).state, hactive]
    rfl
  have hdelete : ∃ q : PCF, p.delete k = q.drop k ∧ q.assocs = p.assocs.erase k ∧
      (∀ k', k' ≠ k → q.state k' = p.state k') ∧
      q.mgr = p.mgr.removeRules k.imsi.toList a.ctxData.dnn ∧ q.store = p.store := by
    unfold delete
    rw [h]
    dsimp only
    rw [fire_eq hask]
    dsimp only
    -- whether or not the last transition is there, only the machine of the key is concerned
    unfold fire
    cases hnext : State.next _ .deleteResponse with
    | none =>
      refine ⟨_, rfl, rfl, fun k' hne => ?_, rfl, rfl⟩
      exact (state_assign (p := p.of k) _).trans ((if_neg hne).trans ((quiet_of p k).state k'))
    | some st =>
      refine ⟨_, rfl, rfl, fun k' hne => ?_, rfl, rfl⟩
      refine (state_assign _).trans ((if_neg hne).trans ?_)
      exact (state_assign (p := p.of k) _).trans ((if_neg hne).trans ((quiet_of p k).state k'))
  obtain ⟨q, heq, hassocs, hstate, hmgr, hstore⟩ := hdelete
  rw [heq]
  refine ⟨hassocs, fun k' => ?_, hmgr, hstore⟩
  unfold PCF.drop PCF.state
  dsimp only
  rw [lookup_erase_eq]
  split
  · rfl
  · case isFalse hne => exact hstate k' hne

end

/-! ## Decisions -/

section

variable {imsi dnn : String} {active : List String}

theorem createPolicy_congr {m m' : PccRuleManager} {store store' : TscRuleStore}
    (hactive : activeNames m' imsi dnn = activeNames m imsi dnn)
    (hstore : store' ⟨imsi, dnn⟩ = store ⟨imsi, dnn⟩) :
    createPolicy db m' store' imsi dnn = createPolicy db m store imsi dnn := by
  unfold createPolicy
  rw [hactive, hstore]

/-- Where only the first rule is marked default, its QFI is 1. -/
theorem marks_cons {x : PolicyRule} {xs : List PolicyRule} (hx : x.isDefault = true)
    (hxs : ∀ y ∈ xs, y.isDefault = false) :
    (((x :: xs).zipIdx.filter (·.1.isDefault)).map fun r => r.2 + 1) = [1] := by
  have hrest : (xs.zipIdx 1).filter (·.1.isDefault) = [] := by
    refine filter_eq_nil_iff.2 fun y hy => ?_
    rw [hxs y.1 (fst_mem_of_mem_zipIdx hy)]
    exact Bool.false_ne_true
  rw [zipIdx_cons, filter_cons, if_pos hx, hrest]
  rfl

theorem isDefault_tsc {r : PolicyRule} {l : List TscPccRule} (h : r ∈ l.map PolicyRule.tsc) :
    r.isDefault = false := by
  obtain ⟨t, -, rfl⟩ := mem_map.1 h
  rfl

variable {b : Binding} {rest : List Binding}

/-- Rules that are not default do not move the default QFI. -/
theorem defaultQFI_cons {l : List (Binding × Nat)} (hb : b.isDefault = true)
    (hl : ∀ x ∈ l, x.1.isDefault = false) : defaultQFI ((b, 0) :: l) = 1 := by
  unfold defaultQFI
  rw [foldl_cons, if_pos hb]
  change l.foldl _ (1 : UInt8) = 1
  induction l with
  | nil => rfl
  | cons x l ih =>
    have hx : ¬ x.1.isDefault = true := by simp [hl x (mem_cons_self ..)]
    rw [foldl_cons, if_neg hx]
    exact ih fun y hy => hl y (mem_cons_of_mem _ hy)

theorem emitted_names (l : List Binding) :
    List.Sublist ((emitted db active l).map (·.1.serviceName)) (l.map (·.serviceName)) := by
  have hall : l.zipIdx.map (·.1.serviceName) = l.map (·.serviceName) := by
    conv_rhs => rw [← List.zipIdx_map_fst 0 l, List.map_map]
    rfl
  rw [← hall]
  exact filter_sublist.map _

theorem emitted_nil {l : List Binding} (h : ∀ x ∈ l, ¬ Emits db active x) :
    emitted db active l = [] := by
  refine filter_eq_nil_iff.2 fun y hy => ?_
  rw [decide_eq_true_eq]
  exact h y.1 (fst_mem_of_mem_zipIdx hy)

theorem emitted_cons (hb : Emits db active b) (hrest : ∀ x ∈ rest, x.isDefault = false) :
    ∃ l, emitted db active (b :: rest) = (b, 0) :: l ∧ ∀ x ∈ l, x.1.isDefault = false := by
  refine ⟨(rest.zipIdx 1).filter fun p => Emits db active p.1, ?_, fun x hx => ?_⟩
  · unfold emitted
    rw [zipIdx_cons, filter_cons_of_pos (by exact decide_eq_true hb)]
  · exact hrest x.1 (fst_mem_of_mem_zipIdx (mem_filter.1 hx).1)

/-- What a decision is made of: the rule of the one default binding or the last resort, then others
that are not default. -/
def Shaped (db : Provisioning) (p : PCF) (imsi dnn : String) : Prop :=
  ∃ x xs names, x.isDefault = true ∧ (∀ y ∈ xs, y.isDefault = false) ∧
    p.policy db imsi dnn = ⟨x :: xs, 1⟩ ∧
    (x :: xs).map PolicyRule.serviceName = names ++ ruleNames p.store ⟨imsi, dnn⟩ ∧
    (names = ["default_data"] ∨
      List.Sublist names ((bindingsList db imsi dnn).map (·.serviceName)))

theorem names_dynamic (p : PCF) (imsi dnn : String) :
    ((p.store ⟨imsi, dnn⟩).map PolicyRule.tsc).map PolicyRule.serviceName =
      ruleNames p.store ⟨imsi, dnn⟩ := by
  rw [List.map_map]
  rfl

theorem shaped_last
    (h : emitted db (activeNames p.mgr imsi dnn) (bindingsList db imsi dnn) = []) :
    Shaped db p imsi dnn := by
  refine ⟨.bound ⟨"default_data", true⟩, (p.store ⟨imsi, dnn⟩).map PolicyRule.tsc,
    ["default_data"], rfl, fun _ hy => isDefault_tsc hy, ?_,
    congrArg ("default_data" :: ·) (names_dynamic p imsi dnn), .inl rfl⟩
  unfold policy createPolicy
  rw [h]
  exact if_pos rfl

theorem shaped_one (hl : bindingsList db imsi dnn = b :: rest) (hb : b.isDefault = true)
    (hsvc : b.serviceName ∈ db.services) (hrest : ∀ x ∈ rest, x.isDefault = false) :
    Shaped db p imsi dnn := by
  have hemits : Emits db (activeNames p.mgr imsi dnn) b := ⟨hsvc, .inl hb⟩
  obtain ⟨l, hem, hlno⟩ := emitted_cons hemits hrest
  refine ⟨.bound ⟨b.serviceName, b.isDefault⟩,
    l.map (fun p => PolicyRule.bound ⟨p.1.serviceName, p.1.isDefault⟩) ++
      (p.store ⟨imsi, dnn⟩).map PolicyRule.tsc,
    b.serviceName :: l.map (·.1.serviceName), hb, fun y hy => ?_, ?_, ?_, .inr ?_⟩
  · obtain hy | hy := mem_append.1 hy
    · obtain ⟨x, hx, rfl⟩ := mem_map.1 hy
      exact hlno x hx
    · exact isDefault_tsc hy
  · unfold policy createPolicy
    rw [hl, hem]
    dsimp only
    rw [defaultQFI_cons hb hlno]
    exact if_neg (by simp)
  · rw [List.map_cons, List.map_append, names_dynamic, List.map_map]
    rfl
  · have hsub := @emitted_names db (activeNames p.mgr imsi dnn) (b :: rest)
    rw [hem] at hsub
    rw [hl]
    exact hsub

theorem policy_shape (h : OneDefault db (activeNames p.mgr imsi dnn) (bindingsList db imsi dnn)) :
    Shaped db p imsi dnn := by
  cases hl : bindingsList db imsi dnn with
  | nil =>
    refine shaped_last ?_
    rw [hl]
    rfl
  | cons b rest =>
    rw [hl] at h
    obtain ⟨hb, hsvc, hrest⟩ | hno := h
    · exact shaped_one hl hb hsvc hrest
    · refine shaped_last ?_
      rw [hl]
      exact emitted_nil hno

theorem sane_policy (hstore : (ruleNames p.store ⟨imsi, dnn⟩).Nodup)
    (h : Sensible db p imsi dnn) (m : Option TscManagement) :
    Sane ⟨(p.policy db imsi dnn).rules, (p.policy db imsi dnn).defaultQFI, m⟩ := by
  obtain ⟨hone, hnodup, hapart⟩ := h
  obtain ⟨x, xs, names, hx, hxs, heq, hnames, hsub⟩ := policy_shape hone
  rw [heq]
  refine ⟨marks_cons hx hxs, ?_⟩
  change (map PolicyRule.serviceName (x :: xs)).Nodup
  rw [hnames]
  obtain rfl | hsub := hsub
  · exact nodup_cons.2 ⟨fun hmem => (hapart _ hmem).1 rfl, hstore⟩
  · refine nodup_append.2 ⟨hnodup.sublist hsub, hstore, fun n hn n' hn' hne => ?_⟩
    exact (hapart n' hn').2 (hne ▸ hsub.subset hn)

/-- With no other rules the decision is that of the bindings alone. -/
theorem policy_clean (h : Clean p imsi dnn) :
    (p.policy db imsi dnn).decision = provisioned db imsi dnn := by
  have hnone : activeNames ⟨fun _ _ => []⟩ imsi dnn = [] := rfl
  have hsame := @createPolicy_congr db imsi dnn ⟨fun _ _ => []⟩ p.mgr (fun _ => []) p.store
    (h.2.trans hnone.symm) h.1
  exact congrArg PCCRuleSet.decision hsame

end

/-! ## What the other sessions obtain -/

theorem obtains_eq (ht : Tracked p) :
    obtains db p k = ((p.assocs.lookup k).map (refreshed db p k),
      ((p.assocs.lookup k).map fun a => activeNames p.mgr k.imsi a.ctxData.dnn).getD []) := by
  refine Prod.ext ?_ rfl
  unfold obtains
  dsimp only
  cases h : p.assocs.lookup k with
  | none => rw [update_none db h]; rfl
  | some a =>
    obtain ⟨q, hq, -⟩ := update_some db ht h
    rw [hq]
    rfl

/-- A session obtains what its association, the active rules and the TSC rules of its DNN give. -/
theorem obtains_congr (hp : Tracked p) (hq : Tracked q)
    (hassoc : q.assocs.lookup k = p.assocs.lookup k)
    (hrules : ∀ a, p.assocs.lookup k = some a →
      activeNames q.mgr k.imsi a.ctxData.dnn = activeNames p.mgr k.imsi a.ctxData.dnn ∧
        q.store ⟨k.imsi, a.ctxData.dnn⟩ = p.store ⟨k.imsi, a.ctxData.dnn⟩) :
    obtains db q k = obtains db p k := by
  rw [obtains_eq hp, obtains_eq hq, hassoc]
  cases h : p.assocs.lookup k with
  | none => rfl
  | some a =>
    obtain ⟨hactive, hstore⟩ := hrules a h
    have hpolicy : q.policy db k.imsi a.ctxData.dnn = p.policy db k.imsi a.ctxData.dnn :=
      createPolicy_congr hactive hstore
    unfold refreshed
    rw [map_some, map_some, map_some, map_some, hpolicy, hactive]

theorem Quiet.tracked (h : Quiet p q) (ht : Tracked p) : Tracked q := by
  intro k
  rw [h.assocs, h.state]
  exact ht k

theorem Quiet.others (h : Quiet p q) (ht : Tracked p) : obtains db q k = obtains db p k :=
  obtains_congr ht (h.tracked ht) (by rw [h.assocs]) fun _ _ => ⟨by rw [h.mgr], by rw [h.store]⟩

theorem Quiet.inv (h : Quiet p q) (hi : Inv p) : Inv q := by
  refine ⟨h.tracked hi.tracked, fun k => ?_, fun k a ha => ?_⟩
  · rw [h.store]
    exact hi.stored k
  · rw [h.assocs] at ha
    exact hi.sane k a ha

section

variable {a : Association}

theorem Recorded.tracked (h : Recorded p q k a) (ht : Tracked p) : Tracked q := by
  intro k'
  rw [h.assocs, h.state, lookup_assign_eq]
  split
  · exact iff_of_true rfl rfl
  · exact ht k'

theorem Recorded.others (h : Recorded p q k a) (ht : Tracked p) (hne : k' ≠ k) :
    obtains db q k' = obtains db p k' := by
  refine obtains_congr ht (h.tracked ht) ?_ fun a' _ => ?_
  · rw [h.assocs, lookup_assign_ne hne]
  · rw [h.mgr, h.store]
    exact ⟨rfl, rfl⟩

theorem Recorded.inv (h : Recorded p q k a) (hi : Inv p) (hsane : Sane a.decision) : Inv q := by
  refine ⟨h.tracked hi.tracked, fun k' => ?_, fun k' a' ha => ?_⟩
  · rw [h.store]
    exact hi.stored k'
  · rw [h.assocs, lookup_assign_eq] at ha
    split at ha
    · rw [← some.inj ha]
      exact hsane
    · exact hi.sane k' a' ha

/-- Two sessions that are not alone on a DNN are what the condition leaves out. -/
theorem Alone.apart {dnn : String} (h : Alone p k dnn) (hne : k' ≠ k)
    (ha : p.assocs.lookup k' = some a) : ¬ (k'.imsi = k.imsi ∧ a.ctxData.dnn = dnn) :=
  h ⟨k', a⟩ (mem_entries_iff.2 ha) hne

end

/-- The rule manager has changed at most the rules of one subscriber and DNN. -/
def Confined (m m' : PccRuleManager) (imsi : Supi) (dnn : String) : Prop :=
  ∀ i d, ¬ (i = imsi ∧ d = dnn) → m'.rules i d = m.rules i d

section

variable {m m' : PccRuleManager} {imsi : Supi} {dnn : String}

theorem confined_set (rules : List PccRuleEntry) : Confined m (m.set imsi dnn rules) imsi dnn :=
  fun _ _ hne => if_neg hne

theorem Confined.trans {m'' : PccRuleManager} (h : Confined m m' imsi dnn)
    (h' : Confined m' m'' imsi dnn) : Confined m m'' imsi dnn :=
  fun i d hne => (h' i d hne).trans (h i d hne)

theorem confined_addRules (services : List String) :
    Confined m (services.foldl (fun m svc => m.addRule imsi dnn svc .inactiveGated) m) imsi
      dnn := by
  induction services generalizing m with
  | nil => exact fun _ _ _ => rfl
  | cons name names ih =>
    have hone : Confined m (m.addRule imsi dnn name .inactiveGated) imsi dnn := by
      unfold addRule
      split
      · exact fun _ _ _ => rfl
      · exact confined_set _
    exact hone.trans ih

theorem confined_handleAARequest (types : List (List Char)) :
    Confined m (Pcf.handleAARequest m imsi types).1 imsi "ims" := by
  unfold Pcf.handleAARequest
  dsimp only
  split
  · exact fun _ _ _ => rfl
  · exact (confined_addRules _).trans (confined_set _)

theorem Confined.activeNames {i : String} {d : String} (h : Confined m m' k.imsi.toList dnn)
    (hne : ¬ (i = k.imsi ∧ d = dnn)) :
    SmPolicy.activeNames m' i d = SmPolicy.activeNames m i d := by
  have hne' : ¬ (i.toList = k.imsi.toList ∧ d = dnn) := fun heq =>
    hne ⟨String.toList_inj.1 heq.1, heq.2⟩
  unfold SmPolicy.activeNames getActiveServiceNames
  rw [h _ _ hne']

/-- A change of the rules of a DNN that a session has for itself. -/
theorem others_mgr (ht : Tracked p) (halone : Alone p k dnn)
    (h : Confined p.mgr m k.imsi.toList dnn) (hne : k' ≠ k) :
    obtains db { p with mgr := m } k' = obtains db p k' :=
  obtains_congr (q := { p with mgr := m }) ht ht rfl fun _ ha =>
    ⟨h.activeNames (halone.apart hne ha), rfl⟩

theorem others_store {store : TscRuleStore} (ht : Tracked p) (halone : Alone p k dnn)
    (h : ∀ key, key ≠ ⟨k.imsi, dnn⟩ → store key = p.store key) (hne : k' ≠ k) :
    obtains db { p with store := store } k' = obtains db p k' := by
  refine obtains_congr (q := { p with store := store }) ht ht rfl fun _ ha => ⟨rfl, h _ ?_⟩
  intro heq
  exact halone.apart hne ha ⟨congrArg TscRuleKey.imsi heq, congrArg TscRuleKey.dnn heq⟩

end

/-! ## Every call of a run -/

variable {e : Event}

/-- A call without a decision. -/
theorem stepSound_silent (ht : Tracked (p.step db e))
    (hothers : ∀ k, k ≠ e.key → obtains db (p.step db e) k = obtains db p k)
    (hafresh : e.Afresh db p) (hnone : (p.call db e).2 = none) : StepSound db p e := by
  refine ⟨ht, hothers, hafresh, fun d hd => ?_⟩
  rw [hnone] at hd
  cases hd

theorem sound_create {ctx : SmPolicyContextData} (hi : Inv p) (hk : Keeps db p (.create ctx)) :
    StepSound db p (.create ctx) ∧ Inv (p.step db (.create ctx)) := by
  by_cases hacc : Accepts p ctx
  · obtain ⟨q, hq, hrec⟩ := create_accepts db hacc
    obtain ⟨hsensible, hclean⟩ := hk hacc
    have hstep : p.step db (.create ctx) = q := congrArg fst hq
    have hsane := sane_policy (hi.stored _) hsensible none
    rw [hstep]
    refine ⟨⟨hstep ▸ hrec.tracked hi.tracked, fun k hne => ?_, fun hdel d hd => ?_,
      fun d hd => ?_⟩, hrec.inv hi hsane⟩
    · rw [hstep]
      exact hrec.others hi.tracked hne
    · rw [hq] at hd
      rw [← some.inj hd]
      exact policy_clean (hclean hdel)
    · rw [show p.call db (.create ctx) = _ from hq] at hd
      rw [← some.inj hd]
      exact hsane
  · obtain ⟨q, hq, hquiet⟩ := create_refuses db hacc
    have hstep : p.step db (.create ctx) = q := congrArg fst hq
    rw [hstep]
    refine ⟨stepSound_silent ?_ (fun k _ => ?_) (fun _ d hd => ?_) (congrArg snd hq),
      hquiet.inv hi⟩
    · rw [hstep]
      exact hquiet.tracked hi.tracked
    · rw [hstep]
      exact hquiet.others hi.tracked
    · rw [hq] at hd
      cases hd

theorem sound_update (hi : Inv p) (hk : Keeps db p (.update k)) :
    StepSound db p (.update k) ∧ Inv (p.step db (.update k)) := by
  cases ha : p.assocs.lookup k with
  | none =>
    have hstep : p.step db (.update k) = p := congrArg Prod.fst (update_none db ha)
    rw [hstep]
    refine ⟨stepSound_silent ?_ (fun k' _ => ?_) trivial
      (congrArg Prod.snd (update_none db ha)), hi⟩
    · rw [hstep]
      exact hi.tracked
    · rw [hstep]
  | some a =>
    have hsensible : Sensible db p k.imsi a.ctxData.dnn := by
      have hk' : KeepsUpdate db p k (p.assocs.lookup k) := hk
      rw [ha] at hk'
      exact hk'
    obtain ⟨q, hq, hrec⟩ := update_some db hi.tracked ha
    have hstep : p.step db (.update k) = q := congrArg Prod.fst hq
    have hsane : Sane (refreshed db p k a) := sane_policy (hi.stored _) hsensible a.decision.tsc
    rw [hstep]
    refine ⟨⟨hstep ▸ hrec.tracked hi.tracked, fun k' hne => ?_, trivial, fun d hd => ?_⟩,
      hrec.inv hi hsane⟩
    · rw [hstep]
      exact hrec.others hi.tracked hne
    · rw [show p.call db (.update k) = _ from hq] at hd
      rw [← Option.some.inj hd]
      exact hsane

/-- A notification leaves the associations alone. -/
theorem sound_notify {d : SmPolicyDecision} (hi : Inv p) (he : e.Afresh db p)
    (hcall : p.call db e = p.pushNotify k d) (hsane : p.state k = .active → Sane d) :
    StepSound db p e ∧ Inv (p.step db e) := by
  by_cases hactive : p.state k = .active
  · obtain ⟨q, hq, hquiet⟩ := pushNotify_active (d := d) hactive
    have hstep : p.step db e = q := congrArg fst (hcall.trans hq)
    rw [hstep]
    refine ⟨⟨hstep ▸ hquiet.tracked hi.tracked, fun k' _ => ?_, he, fun d' hd => ?_⟩,
      hquiet.inv hi⟩
    · rw [hstep]
      exact hquiet.others hi.tracked
    · rw [hcall, hq] at hd
      rw [← some.inj hd]
      exact hsane hactive
  · obtain ⟨q, hq, hquiet⟩ := pushNotify_inactive (d := d) hactive
    have hstep : p.step db e = q := congrArg fst (hcall.trans hq)
    rw [hstep]
    refine ⟨stepSound_silent ?_ (fun k' _ => ?_) he (congrArg snd (hcall.trans hq)),
      hquiet.inv hi⟩
    · rw [hstep]
      exact hquiet.tracked hi.tracked
    · rw [hstep]
      exact hquiet.others hi.tracked

theorem sound_pushTscManagement {m : TscManagement} (hi : Inv p) :
    StepSound db p (.pushTscManagement k m) ∧ Inv (p.step db (.pushTscManagement k m)) := by
  cases ha : p.assocs.lookup k with
  | none =>
    have hcall : p.call db (.pushTscManagement k m) = (p, none) := by
      change p.pushTscManagement k m = _
      unfold PCF.pushTscManagement
      rw [ha]
    have hstep : p.step db (.pushTscManagement k m) = p := congrArg Prod.fst hcall
    rw [hstep]
    refine ⟨stepSound_silent ?_ (fun k' _ => ?_) trivial (congrArg Prod.snd hcall), hi⟩
    · rw [hstep]
      exact hi.tracked
    · rw [hstep]
  | some a =>
    have hcall : p.call db (.pushTscManagement k m) =
        p.pushNotify k { a.decision with tsc := some m } := by
      change p.pushTscManagement k m = _
      unfold PCF.pushTscManagement
      rw [ha]
    exact sound_notify hi trivial hcall fun _ => hi.sane k a ha

theorem sound_delete (hi : Inv p) (hk : Keeps db p (.delete k)) :
    StepSound db p (.delete k) ∧ Inv (p.step db (.delete k)) := by
  have hstep : p.step db (.delete k) = p.delete k := rfl
  rw [hstep]
  cases ha : p.assocs.lookup k with
  | none =>
    rw [delete_none ha]
    refine ⟨stepSound_silent ?_ (fun k' _ => ?_) trivial rfl, hi⟩
    · rw [hstep, delete_none ha]
      exact hi.tracked
    · rw [hstep, delete_none ha]
  | some a =>
    have hkept : Alone p k a.ctxData.dnn ∨ activeNames p.mgr k.imsi a.ctxData.dnn = [] := by
      have hk' : KeepsDelete p k (p.assocs.lookup k) := hk
      rw [ha] at hk'
      exact hk'
    have hrel := delete_some hi.tracked ha
    have ht : Tracked (p.delete k) := by
      intro k'
      rw [hrel.assocs, hrel.state, AssocMap.lookup_erase_eq]
      split
      · exact iff_of_false Bool.false_ne_true (by simp)
      · exact hi.tracked k'
    have hconf : Confined p.mgr (p.delete k).mgr k.imsi.toList a.ctxData.dnn := by
      rw [hrel.mgr]
      exact confined_set _
    refine ⟨stepSound_silent ht (fun k' hne => ?_) trivial rfl, ht, fun key => ?_,
      fun k' a' ha' => ?_⟩
    · have hne' : k' ≠ k := hne
      refine obtains_congr hi.tracked ht ?_ fun a' ha' => ⟨?_, ?_⟩
      · rw [hstep, hrel.assocs, AssocMap.lookup_erase_eq, if_neg hne']
      · by_cases hsame : k'.imsi = k.imsi ∧ a'.ctxData.dnn = a.ctxData.dnn
        · obtain halone | hnone := hkept
          · exact absurd hsame (halone.apart hne' ha')
          · -- the rules that go with the session were not active
            rw [hsame.1, hsame.2, hnone, hstep, hrel.mgr]
            unfold activeNames PccRuleManager.getActiveServiceNames PccRuleManager.removeRules
            rw [PccRuleManager.rules_set, if_pos ⟨rfl, rfl⟩]
            rfl
        · exact hconf.activeNames hsame
      · rw [hstep, hrel.store]
    · rw [hrel.store]
      exact hi.stored key
    · rw [hrel.assocs, AssocMap.lookup_erase_eq] at ha'
      split at ha'
      · cases ha'
      · exact hi.sane k' a' ha'

/-- Every call keeps the associations with their machines; one that meets the condition changes what
its own session obtains only, and makes a sane decision. -/
theorem stepSound_of_keeps (hi : Inv p) (hk : Keeps db p e) :
    StepSound db p e ∧ Inv (p.step db e) := by
  cases e with
  | create ctx => exact sound_create hi hk
  | update k => exact sound_update hi hk
  | pushNotify k decision => exact sound_notify hi trivial rfl hk
  | pushTscManagement k m => exact sound_pushTscManagement hi
  | delete k => exact sound_delete hi hk
  | handleAARequest k types =>
    exact ⟨stepSound_silent hi.tracked
      (fun k' hne => others_mgr hi.tracked hk (confined_handleAARequest types) hne) trivial rfl,
      hi.tracked, hi.stored, hi.sane⟩
  | handleSessionTermination k =>
    exact ⟨stepSound_silent hi.tracked
      (fun k' hne => others_mgr hi.tracked hk (confined_set _) hne) trivial rfl,
      hi.tracked, hi.stored, hi.sane⟩
  | installTscPccRule k dnn rule =>
    exact ⟨stepSound_silent hi.tracked
      (fun k' hne => others_store hi.tracked hk (fun _ hkey => if_neg hkey) hne) trivial rfl,
      hi.tracked, fun key => nodup_install (hi.stored key), hi.sane⟩
  | removeTscPccRule k dnn name =>
    exact ⟨stepSound_silent hi.tracked
      (fun k' hne => others_store hi.tracked hk (fun _ hkey => if_neg hkey) hne) trivial rfl,
      hi.tracked, fun key => nodup_remove (hi.stored key), hi.sane⟩

/-- From an empty PCF, each call of a run leaves the other sessions what they had. -/
theorem associations_independent (db : Provisioning) (es : List Event)
    (hm : Meets (PCF.step db) (Keeps db) PCF.init es) :
    Meets (PCF.step db) (StepSound db) PCF.init es :=
  Meets.imp (I := Inv) (fun _ _ hi hk => stepSound_of_keeps hi hk) hm inv_init

/-! ## Runs -/

/-- A subscriber with a default service and voice on the IMS DNN, and one service elsewhere. -/
def sampleDb : Provisioning where
  rows :=
    [⟨"001010000000001", "ims", "conv_voice", false⟩,
      ⟨"001010000000001", "ims", "ims_signalling", true⟩,
      ⟨"001010000000001", "internet", "default_internet", true⟩]
  services := ["conv_voice", "ims_signalling", "default_internet"]

def sampleCtx (pduSessionID : UInt8) (dnn : String) : SmPolicyContextData :=
  ⟨"imsi-001010000000001", pduSessionID, dnn, 1⟩

def sampleKey (pduSessionID : UInt8) : Key := ⟨"001010000000001", pduSessionID⟩

theorem associations_independent_sample :
    Meets (PCF.step sampleDb) (StepSound sampleDb) PCF.init
      [.create (sampleCtx 1 "internet"), .create (sampleCtx 2 "ims"),
        .handleAARequest (sampleKey 2) ["audio".toList], .update (sampleKey 2),
        .pushNotify (sampleKey 2) (provisioned sampleDb "001010000000001" "ims"),
        .pushTscManagement (sampleKey 1) ⟨none, [], [1]⟩, .delete (sampleKey 2),
        .create (sampleCtx 2 "ims")] :=
  associations_independent sampleDb _ (by decide)

/-- Two IMS sessions of one subscriber, with a call. -/
def twoSessions : List Event :=
  [.create (sampleCtx 1 "ims"), .create (sampleCtx 2 "ims"),
    .handleAARequest (sampleKey 2) ["audio".toList]]

/-- The deletion of one session takes the rule of the call from the other. -/
theorem not_associations_independent :
    ¬ ∀ (db : Provisioning) (es : List Event), Meets (PCF.step db) (StepSound db) PCF.init es := by
  intro hall
  have hlast := Meets.of_append (hall sampleDb (twoSessions ++ [.delete (sampleKey 1)]))
  have hsame := hlast.1.others (sampleKey 2) (by decide)
  have hdiff : obtains sampleDb
      ((run (step sampleDb) init twoSessions).step sampleDb (.delete (sampleKey 1)))
        (sampleKey 2) ≠
      obtains sampleDb (run (step sampleDb) init twoSessions) (sampleKey 2) := by
    decide
  exact hdiff hsame

end MmtCore.Pcf.SmPolicy
