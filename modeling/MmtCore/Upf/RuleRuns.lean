import MmtCore.Upf.RuleTables

/-!
# Runs of calls on the rule tables

For any calls on the rules of a session, each table stays within its capacity and has at most one
active entry for an id; an addition fails only in a table full of active entries, and no call
touches an active entry it does not name (`rule_tables_sound`).  An id finds the entry last stored
under it, with what updates and a deactivation have made of it since.  Only the update of a FAR that
has been removed succeeds and finds nothing: nothing is said about its id until the next addition.
-/

namespace MmtCore.Upf

open MmtCore.Lib MmtCore.Lib.SlotView Function Option Bool CallResult RuleSession

/-! ## What the calls promise -/

/-- What each id is to find. -/
structure Expectations where
  pdr : UInt16 → Expected Pdr
  far : UInt32 → Expected Far
  qer : UInt32 → Expected Qer
  urr : UInt32 → Expected Urr

def Expectations.start : Expectations :=
  ⟨fun _ => .absent, fun _ => .absent, fun _ => .absent, fun _ => .absent⟩

/-- An update of a FAR changes what is there; of one that is not there it says nothing. -/
def Expected.farUpdated (t : Tunnel) : Expected Far → Expected Far
  | .value far => .value (far.updated t)
  | _ => .unsaid

def Expected.farDeactivated : Expected Far → Expected Far
  | .value far => .value far.deactivated
  | e => e

/-- What the ids are to find after a call that returned 0. -/
def Expectations.after (e : Expectations) (ueAddr : UInt32) : RuleCall → Expectations
  | .addPdr a | .updatePdr a =>
    let pdr := a.pdr ueAddr ((sdfFilters a.sdfRules).getD [])
    { e with pdr := update e.pdr a.pdrId (.value pdr) }
  | .removePdr pdrId => { e with pdr := update e.pdr pdrId .absent }
  | .addFar a => { e with far := update e.far a.farId (.value a.far) }
  | .updateFar farId t =>
    { e with far := update e.far farId (Expected.farUpdated t (e.far farId)) }
  | .deactivateDl farId =>
    { e with far := update e.far farId (Expected.farDeactivated (e.far farId)) }
  | .removeFar farId => { e with far := update e.far farId .absent }
  | .addQer a | .updateQer a =>
    { e with qer := update e.qer a.qerId (.value a.qer) }
  | .removeQer qerId => { e with qer := update e.qer qerId .absent }
  | .addUrr a | .updateUrr a =>
    { e with urr := update e.urr a.urrId (.value a.urr) }
  | .removeUrr urrId => { e with urr := update e.urr urrId .absent }

/-- A session, with what its ids are to find. -/
structure TrackedRules where
  session : RuleSession
  expected : Expectations

def TrackedRules.start (ueAddr : UInt32) : TrackedRules := ⟨.start ueAddr, .start⟩

/-- After a call, if its behaviour is defined. -/
def TrackedRules.step (t : TrackedRules) (c : RuleCall) : Option TrackedRules :=
  match t.session.call c with
  | .rejected => some t
  | .undefined => none
  | .done s => some ⟨s, t.expected.after t.session.ueAddr c⟩

def TrackedRules.run (t : TrackedRules) : List RuleCall → Option TrackedRules
  | [] => some t
  | c :: cs => (t.step c).bind fun t' => t'.run cs

/-! ## The rules a call names -/

def RuleCall.pdrId : RuleCall → Option UInt16
  | .addPdr a | .updatePdr a => some a.pdrId
  | .removePdr pdrId => some pdrId
  | _ => none

def RuleCall.farId : RuleCall → Option UInt32
  | .addFar a => some a.farId
  | .updateFar farId _ | .deactivateDl farId | .removeFar farId => some farId
  | _ => none

def RuleCall.qerId : RuleCall → Option UInt32
  | .addQer a | .updateQer a => some a.qerId
  | .removeQer qerId => some qerId
  | _ => none

def RuleCall.urrId : RuleCall → Option UInt32
  | .addUrr a | .updateUrr a => some a.urrId
  | .removeUrr urrId => some urrId
  | _ => none

/-! ## What one call does -/

/-- Each table is within its capacity, its ids all different. -/
structure RuleSession.Sound (r : RuleSession) : Prop where
  pdrs : Pdr.view.Sound upfMaxPdrPerSession r.pdrs
  fars : Far.view.Sound upfMaxFarPerSession r.fars
  qers : Qer.view.Sound upfMaxQerPerSession r.qers
  urrs : Urr.view.Sound upfMaxUrrPerSession r.urrs

/-- The effect of a call on the four tables. -/
structure CallEffect (t : TrackedRules) (c : RuleCall) (s : RuleSession) (e : Expectations) :
    Prop where
  pdrs : Effect Pdr.view upfMaxPdrPerSession t.session.pdrs t.expected.pdr c.pdrId s.pdrs e.pdr
  fars : Effect Far.view upfMaxFarPerSession t.session.fars t.expected.far c.farId s.fars e.far
  qers : Effect Qer.view upfMaxQerPerSession t.session.qers t.expected.qer c.qerId s.qers e.qer
  urrs : Effect Urr.view upfMaxUrrPerSession t.session.urrs t.expected.urr c.urrId s.urrs e.urr

variable {a : PdrArgs} {far : Far} {e : Expected Far}

theorem upfDpAddPdr_installed {t t' : PdrTable} (h : upfDpAddPdr t a = .installed t') :
    ∃ slot, Slot Pdr.view upfMaxPdrPerSession t.pdrs a.pdrId slot ∧
      t' = { t with
        pdrs := store t.pdrs slot (a.pdr t.ueAddr ((sdfFilters a.sdfRules).getD [])) } := by
  unfold upfDpAddPdr at h
  cases hslot : findOrAllocPdrSlot t.pdrs a.pdrId with
  | none =>
    rw [hslot] at h
    cases h
  | some slot =>
    rw [hslot] at h
    cases hsdf : sdfFilters a.sdfRules with
    | none =>
      simp only [hsdf] at h
      cases h
    | some sdf =>
      simp only [hsdf] at h
      cases h
      exact ⟨_, slot_of_findOrAlloc hslot, rfl⟩

theorem upfDpUpdatePdr_installed {t t' : PdrTable} (h : upfDpUpdatePdr t a = .installed t') :
    upfDpAddPdr t a = .installed t' := by
  unfold upfDpUpdatePdr at h
  split at h
  · exact h
  · cases h

theorem upfDpUpdateQer_some {s s' : RuleSession} {a : QerArgs}
    (h : upfDpUpdateQer s a = some s') : upfDpAddQer s a = some s' := by
  unfold upfDpUpdateQer at h
  split at h
  · exact h
  · cases h

theorem upfDpUpdateUrr_some {s s' : RuleSession} {a : UrrArgs}
    (h : upfDpUpdateUrr s a = some s') : upfDpAddUrr s a = some s' := by
  unfold upfDpUpdateUrr at h
  split at h
  · exact h
  · cases h

variable {t t' : TrackedRules} {c : RuleCall} {s : RuleSession}

theorem CallResult.ofOption_done {o : Option RuleSession}
    (h : CallResult.ofOption o = .done s) : o = some s := by
  cases o with
  | none => cases h
  | some s' =>
    cases h
    rfl

/-- A PDR is stored. -/
theorem pdr_stored (hc : c.pdrId = some a.pdrId)
    (h : CallResult.ofPdr t.session (upfDpAddPdr ⟨t.session.ueAddr, t.session.pdrs⟩ a) = .done s) :
    CallEffect t c s (t.expected.after t.session.ueAddr (.addPdr a)) := by
  cases hadd : upfDpAddPdr ⟨t.session.ueAddr, t.session.pdrs⟩ a with
  | rejected | undefined =>
    rw [hadd] at h
    cases h
  | installed tbl =>
    rw [hadd] at h
    cases h
    obtain ⟨slot, hslot, rfl⟩ := upfDpAddPdr_installed hadd
    refine ⟨?_, .none _, .none _, .none _⟩
    rw [hc]
    exact .stored (a := a.pdr t.session.ueAddr ((sdfFilters a.sdfRules).getD [])) hslot rfl

theorem qer_stored {a : QerArgs} (hc : c.qerId = some a.qerId)
    (h : upfDpAddQer t.session a = some s) :
    CallEffect t c s (t.expected.after t.session.ueAddr (.addQer a)) := by
  obtain ⟨slot, hslot, rfl⟩ := map_eq_some_iff.1 h
  refine ⟨.none _, .none _, ?_, .none _⟩
  rw [hc]
  exact .stored (a := a.qer) (slot_of_findOrAlloc hslot) rfl

theorem urr_stored {a : UrrArgs} (hc : c.urrId = some a.urrId)
    (h : upfDpAddUrr t.session a = some s) :
    CallEffect t c s (t.expected.after t.session.ueAddr (.addUrr a)) := by
  obtain ⟨slot, hslot, rfl⟩ := map_eq_some_iff.1 h
  refine ⟨.none _, .none _, .none _, ?_⟩
  rw [hc]
  exact .stored (a := a.urr) (slot_of_findOrAlloc hslot) rfl

theorem Far.found_updated (tun : Tunnel) (h : e.Allows (Far.view.found far)) :
    (Expected.farUpdated tun e).Allows (Far.view.found (far.updated tun)) := by
  cases e with
  | absent | unsaid => trivial
  | value v =>
    cases hact : Far.view.active far with
    | true =>
      rw [found_of_active hact] at h
      cases h
      exact found_of_active hact
    | false =>
      rw [found_of_inactive hact] at h
      cases h

theorem Far.active_deactivated (far : Far) :
    Far.view.active far.deactivated = Far.view.active far := by
  unfold Far.deactivated
  split <;> rfl

theorem Far.farId_deactivated (far : Far) : Far.view.id far.deactivated = Far.view.id far := by
  unfold Far.deactivated
  split <;> rfl

theorem Far.found_deactivated (h : e.Allows (Far.view.found far)) :
    (Expected.farDeactivated e).Allows (Far.view.found far.deactivated) := by
  have hsame := Far.active_deactivated far
  cases hact : Far.view.active far with
  | true =>
    rw [found_of_active hact] at h
    rw [found_of_active (hsame.trans hact)]
    cases e with
    | unsaid => trivial
    | absent => cases h
    | value v =>
      cases h
      rfl
  | false =>
    rw [found_of_inactive hact] at h
    rw [found_of_inactive (hsame.trans hact)]
    cases e with
    | unsaid => trivial
    | absent => rfl
    | value v => cases h

/-- A call that returns 0 stores or changes the rule it names. -/
theorem call_effect (h : t.session.call c = .done s) :
    CallEffect t c s (t.expected.after t.session.ueAddr c) := by
  cases c with
  | addPdr a => exact pdr_stored rfl h
  | updatePdr a =>
    simp only [call] at h
    cases hupd : upfDpUpdatePdr ⟨t.session.ueAddr, t.session.pdrs⟩ a with
    | rejected | undefined =>
      rw [hupd] at h
      cases h
    | installed tbl =>
      rw [hupd, ← upfDpUpdatePdr_installed hupd] at h
      exact pdr_stored rfl h
  | removePdr pdrId =>
    obtain ⟨pdrs, hc, rfl⟩ := map_eq_some_iff.1 (ofOption_done h)
    refine ⟨.changed hc (fun _ => rfl) (fun pdr hp => ?_) fun _ _ _ => rfl, .none _, .none _,
      .none _⟩
    simp only [and_eq_true, beq_iff_eq] at hp
    exact hp.1
  | addFar a =>
    obtain ⟨slot, hslot, rfl⟩ := map_eq_some_iff.1 (ofOption_done h)
    exact ⟨.none _, .stored (a := a.far) (slot_of_findOrAlloc hslot) rfl, .none _, .none _⟩
  | updateFar farId tun =>
    obtain ⟨fars, hc, rfl⟩ := map_eq_some_iff.1 (ofOption_done h)
    refine ⟨.none _, .changed hc (fun _ => rfl) (fun far hp => ?_)
      fun _ _ hfound => Far.found_updated tun hfound, .none _, .none _⟩
    exact beq_iff_eq.1 hp
  | deactivateDl farId =>
    obtain ⟨fars, hc, rfl⟩ := map_eq_some_iff.1 (ofOption_done h)
    refine ⟨.none _, .changed hc Far.farId_deactivated (fun far hp => ?_)
      fun _ _ hfound => Far.found_deactivated hfound, .none _, .none _⟩
    exact beq_iff_eq.1 hp
  | removeFar farId =>
    obtain ⟨fars, hc, rfl⟩ := map_eq_some_iff.1 (ofOption_done h)
    refine ⟨.none _, .changed hc (fun _ => rfl) (fun far hp => ?_) fun _ _ _ => rfl, .none _,
      .none _⟩
    simp only [and_eq_true, beq_iff_eq] at hp
    exact hp.1
  | addQer a => exact qer_stored rfl (ofOption_done h)
  | updateQer a => exact qer_stored rfl (upfDpUpdateQer_some (ofOption_done h))
  | removeQer qerId =>
    obtain ⟨qers, hc, rfl⟩ := map_eq_some_iff.1 (ofOption_done h)
    refine ⟨.none _, .none _, .changed hc (fun _ => rfl) (fun qer hp => ?_) fun _ _ _ => rfl,
      .none _⟩
    simp only [and_eq_true, beq_iff_eq] at hp
    exact hp.1
  | addUrr a => exact urr_stored rfl (ofOption_done h)
  | updateUrr a => exact urr_stored rfl (upfDpUpdateUrr_some (ofOption_done h))
  | removeUrr urrId =>
    obtain ⟨urrs, hc, rfl⟩ := map_eq_some_iff.1 (ofOption_done h)
    refine ⟨.none _, .none _, .none _, .changed hc (fun _ => rfl) (fun urr hp => ?_)
      fun _ _ _ => rfl⟩
    simp only [and_eq_true, beq_iff_eq] at hp
    exact hp.1

/-! ## The invariant -/

structure TrackedRules.Inv (t : TrackedRules) : Prop where
  pdrs : Pdr.view.Sound upfMaxPdrPerSession t.session.pdrs
  fars : Far.view.Sound upfMaxFarPerSession t.session.fars
  qers : Qer.view.Sound upfMaxQerPerSession t.session.qers
  urrs : Urr.view.Sound upfMaxUrrPerSession t.session.urrs
  pdrFound : Pdr.view.Keeps t.session.pdrs t.expected.pdr
  farFound : Far.view.Keeps t.session.fars t.expected.far
  qerFound : Qer.view.Keeps t.session.qers t.expected.qer
  urrFound : Urr.view.Keeps t.session.urrs t.expected.urr

theorem TrackedRules.inv_start (ueAddr : UInt32) : (TrackedRules.start ueAddr).Inv where
  pdrs := sound_nil _
  fars := sound_nil _
  qers := sound_nil _
  urrs := sound_nil _
  pdrFound := fun _ => rfl
  farFound := fun _ => rfl
  qerFound := fun _ => rfl
  urrFound := fun _ => rfl

theorem TrackedRules.Inv.step (hi : t.Inv) (h : t.step c = some t') : t'.Inv := by
  unfold TrackedRules.step at h
  cases hcall : t.session.call c with
  | rejected =>
    rw [hcall] at h
    cases h
    exact hi
  | undefined =>
    rw [hcall] at h
    cases h
  | done s =>
    rw [hcall] at h
    cases h
    have he := call_effect hcall
    exact
      { pdrs := he.pdrs.sound hi.pdrs
        fars := he.fars.sound hi.fars
        qers := he.qers.sound hi.qers
        urrs := he.urrs.sound hi.urrs
        pdrFound := he.pdrs.keeps hi.pdrs hi.pdrFound
        farFound := he.fars.keeps hi.fars hi.farFound
        qerFound := he.qers.keeps hi.qers hi.qerFound
        urrFound := he.urrs.keeps hi.urrs hi.urrFound }

theorem TrackedRules.Inv.run (hi : t.Inv) {calls : List RuleCall} (h : t.run calls = some t') :
    t'.Inv := by
  induction calls generalizing t with
  | nil =>
    cases h
    exact hi
  | cons c calls ih =>
    obtain ⟨t₁, hstep, hrun⟩ := bind_eq_some_iff.1 h
    exact ih (hi.step hstep) hrun

/-! ## The tables after any calls -/

/-- Within the capacity, and with one active entry at most for an id. -/
structure TableBounded {α ι : Type} (v : SlotView α ι) (cap : Nat) (l : List α) : Prop where
  count : l.length ≤ cap
  single : ∀ (i j : Nat) a b, l[i]? = some a → l[j]? = some b → v.active a = true → v.active b = true →
    v.id a = v.id b → i = j

/-- The table holds as many active entries as it can. -/
def TableFull {α ι : Type} (v : SlotView α ι) (cap : Nat) (l : List α) : Prop :=
  l.length = cap ∧ ∀ a ∈ l, v.active a = true

/-- The active entries the call does not name lie where they lay, unaltered. -/
def TableKept {α ι : Type} (v : SlotView α ι) (named : Option ι) (l l' : List α) : Prop :=
  ∀ (i : Nat) a, l[i]? = some a → v.active a = true → named ≠ some (v.id a) → l'[i]? = some a

/-- What is claimed of the four tables. -/
structure RulesSound (t : TrackedRules) : Prop where
  pdrs : TableBounded Pdr.view upfMaxPdrPerSession t.session.pdrs
  fars : TableBounded Far.view upfMaxFarPerSession t.session.fars
  qers : TableBounded Qer.view upfMaxQerPerSession t.session.qers
  urrs : TableBounded Urr.view upfMaxUrrPerSession t.session.urrs
  pdrFound : ∀ pdrId, (t.expected.pdr pdrId).Allows (findPdr t.session pdrId)
  farFound : ∀ farId, (t.expected.far farId).Allows (findFar t.session farId)
  qerFound : ∀ qerId, (t.expected.qer qerId).Allows (findQer t.session qerId)
  urrFound : ∀ urrId, (t.expected.urr urrId).Allows (findUrr t.session urrId)
  pdrAdded : ∀ a, t.session.call (.addPdr a) = .rejected →
    TableFull Pdr.view upfMaxPdrPerSession t.session.pdrs
  farAdded : ∀ a, t.session.call (.addFar a) = .rejected →
    TableFull Far.view upfMaxFarPerSession t.session.fars
  qerAdded : ∀ a, t.session.call (.addQer a) = .rejected →
    TableFull Qer.view upfMaxQerPerSession t.session.qers
  urrAdded : ∀ a, t.session.call (.addUrr a) = .rejected →
    TableFull Urr.view upfMaxUrrPerSession t.session.urrs
  kept : ∀ c s, t.session.call c = .done s →
    TableKept Pdr.view c.pdrId t.session.pdrs s.pdrs ∧
      TableKept Far.view c.farId t.session.fars s.fars ∧
      TableKept Qer.view c.qerId t.session.qers s.qers ∧
      TableKept Urr.view c.urrId t.session.urrs s.urrs

section Tables

variable {α ι : Type} [DecidableEq ι] {v : SlotView α ι} {cap : Nat} {l l' : List α}

omit [DecidableEq ι] in
theorem bounded_of_sound (h : v.Sound cap l) : TableBounded v cap l :=
  ⟨h.count, fun _ _ _ _ hi hj _ _ hid => h.index hi hj hid⟩

theorem tableFull_of_none (h : v.Sound cap l) {k : ι} (hslot : v.findOrAlloc cap l k = none) :
    TableFull v cap l := by
  obtain ⟨hlen, hact⟩ := full_of_findOrAlloc hslot
  exact ⟨Nat.le_antisymm h.count hlen, hact⟩

theorem tableKept_of_effect {e e' : ι → Expected α} {named : Option ι}
    (h : Effect v cap l e named l' e') : TableKept v named l l' :=
  fun _ _ hi hact hnamed => h.frame hi hact hnamed

end Tables

theorem CallResult.ofOption_rejected {o : Option RuleSession}
    (h : CallResult.ofOption o = .rejected) : o = none := by
  cases o with
  | none => rfl
  | some s => cases h

variable {a : PdrArgs}

theorem addPdr_rejected (h : s.call (.addPdr a) = .rejected) :
    Pdr.view.findOrAlloc upfMaxPdrPerSession s.pdrs a.pdrId = none := by
  rw [← findOrAllocPdrSlot_eq]
  simp only [call, upfDpAddPdr] at h
  cases hslot : findOrAllocPdrSlot s.pdrs a.pdrId with
  | none => rfl
  | some slot =>
    simp only [hslot] at h
    cases hsdf : sdfFilters a.sdfRules with
    | none | some sdf =>
      simp only [hsdf] at h
      cases h

theorem CallResult.ofOption_ne_undefined (o : Option RuleSession) :
    CallResult.ofOption o ≠ .undefined := by
  cases o with
  | none | some => exact CallResult.noConfusion

theorem addPdr_ne_undefined (h : (sdfFilters a.sdfRules).isSome) (r : RuleSession) :
    r.call (.addPdr a) ≠ .undefined := by
  obtain ⟨sdf, hsdf⟩ := isSome_iff_exists.1 h
  rw [call, upfDpAddPdr]
  cases findOrAllocPdrSlot r.pdrs a.pdrId with
  | none => exact CallResult.noConfusion
  | some slot =>
    rw [hsdf]
    exact CallResult.noConfusion

theorem updatePdr_ne_undefined (h : (sdfFilters a.sdfRules).isSome) (r : RuleSession) :
    r.call (.updatePdr a) ≠ .undefined := by
  rw [call, upfDpUpdatePdr]
  split
  · exact addPdr_ne_undefined h r
  · exact CallResult.noConfusion

/-- Only a PDR has a text that is parsed. -/
theorem call_ne_undefined {c : RuleCall} (h : c.pdrId = none) (r : RuleSession) :
    r.call c ≠ .undefined := by
  cases c with
  | addPdr | updatePdr => cases h
  | _ => exact ofOption_ne_undefined _

theorem TrackedRules.Inv.sound (hi : t.Inv) : RulesSound t where
  pdrs := bounded_of_sound hi.pdrs
  fars := bounded_of_sound hi.fars
  qers := bounded_of_sound hi.qers
  urrs := bounded_of_sound hi.urrs
  pdrFound := hi.pdrFound
  farFound := hi.farFound
  qerFound := hi.qerFound
  urrFound := hi.urrFound
  pdrAdded := fun _ h => tableFull_of_none hi.pdrs (addPdr_rejected h)
  farAdded := fun _ h => tableFull_of_none hi.fars
    (map_eq_none_iff.1 (ofOption_rejected h))
  qerAdded := fun _ h => tableFull_of_none hi.qers
    (map_eq_none_iff.1 (ofOption_rejected h))
  urrAdded := fun _ h => tableFull_of_none hi.urrs
    (map_eq_none_iff.1 (ofOption_rejected h))
  kept := by
    intro c s h
    have he := call_effect h
    exact ⟨tableKept_of_effect he.pdrs, tableKept_of_effect he.fars, tableKept_of_effect he.qers,
      tableKept_of_effect he.urrs⟩

/-- The rule tables after any calls. -/
theorem rule_tables_sound (ueAddr : UInt32) (calls : List RuleCall) (t : TrackedRules)
    (hrun : (TrackedRules.start ueAddr).run calls = some t) : RulesSound t :=
  ((TrackedRules.inv_start ueAddr).run hrun).sound

/-- A FAR that forwards, its deactivation, its removal, and one more with the id. -/
def labRuleCalls : List RuleCall :=
  [.addFar ⟨2, 1, 0, 7, 0x0A000001, 2152, 1⟩, .deactivateDl 2, .removeFar 2,
   .addFar ⟨2, 2, 0, 0, 0, 0, 0⟩, .updateFar 2 ⟨9, 0x0A000002, 2152⟩]

theorem rule_tables_sound_lab :
    ∃ t, (TrackedRules.start 0x0A2D0002).run labRuleCalls = some t ∧ RulesSound t ∧
      findFar t.session 2 = some ⟨2, 1, 0, 9, 0x0A000002, 2152, 1, true⟩ := by
  refine ⟨((TrackedRules.start 0x0A2D0002).run labRuleCalls).get (by decide), ?_, ?_, ?_⟩
  · exact (some_get _).symm
  · exact rule_tables_sound 0x0A2D0002 labRuleCalls _ (some_get _).symm
  · decide

/-- The call stores or removes the FAR, or updates it. -/
def RuleCall.setsFar (farId : UInt32) : RuleCall → Bool
  | .addFar a => a.farId == farId
  | .updateFar named _ | .removeFar named => named == farId
  | _ => false

/-- A deactivation after the last addition leaves other values than that has stored. -/
theorem deactivated_far_differs :
    ¬ ∀ (ueAddr : UInt32) (a : FarArgs) (later : List RuleCall) (t : TrackedRules),
      (later.all fun c => !c.setsFar a.farId) = true →
        (TrackedRules.start ueAddr).run (.addFar a :: later) = some t →
          findFar t.session a.farId = some a.far := by
  intro h
  have hfound := h 0x0A2D0002 ⟨2, 1, 0, 7, 0x0A000001, 2152, 1⟩ [.deactivateDl 2]
    (((TrackedRules.start 0x0A2D0002).run
      [.addFar ⟨2, 1, 0, 7, 0x0A000001, 2152, 1⟩, .deactivateDl 2]).get (by decide))
    rfl (some_get _).symm
  revert hfound
  decide

end MmtCore.Upf
