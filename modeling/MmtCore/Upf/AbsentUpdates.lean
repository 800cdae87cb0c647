import Mathlib.Data.Finset.Insert
import MmtCore.Upf.RuleRuns

/-!
# Updates of rules that are not there

The update functions of `upf_dp_api.c` and `upf_dp_deactivate_dl` look for a slot with the id they
are given.  They do not ask whether the rule in it is active, and a removal leaves the id in the
slot.  So the update of a rule that was removed is refused only when the slot has since been taken
by another rule (`absent_updates`); otherwise that of a PDR, a QER or a URR brings the rule back.
-/

namespace MmtCore.Upf

open MmtCore.Lib MmtCore.Lib.SlotView Function List Option Bool Expected CallResult Finset

/-! ## Rules that were added -/

/-- The rules of a session have four kinds of ids. -/
inductive RuleKey
  | pdr (pdrId : UInt16)
  | far (farId : UInt32)
  | qer (qerId : UInt32)
  | urr (urrId : UInt32)
deriving DecidableEq

/-- What a call is to do with the rule it names. -/
inductive RuleVerb
  | add
  | update
  | remove
deriving DecidableEq

def RuleCall.verb : RuleCall → RuleVerb
  | .addPdr _ | .addFar _ | .addQer _ | .addUrr _ => .add
  | .updatePdr _ | .updateFar .. | .deactivateDl _ | .updateQer _ | .updateUrr _ => .update
  | .removePdr _ | .removeFar _ | .removeQer _ | .removeUrr _ => .remove

def RuleCall.key : RuleCall → RuleKey
  | .addPdr a | .updatePdr a => .pdr a.pdrId
  | .removePdr pdrId => .pdr pdrId
  | .addFar a => .far a.farId
  | .updateFar farId _ | .deactivateDl farId | .removeFar farId => .far farId
  | .addQer a | .updateQer a => .qer a.qerId
  | .removeQer qerId => .qer qerId
  | .addUrr a | .updateUrr a => .urr a.urrId
  | .removeUrr urrId => .urr urrId

/-- The rule is active. -/
def RuleSession.Active (s : RuleSession) : RuleKey → Prop
  | .pdr pdrId => (findPdr s pdrId).isSome
  | .far farId => (findFar s farId).isSome
  | .qer qerId => (findQer s qerId).isSome
  | .urr urrId => (findUrr s urrId).isSome

/-- A slot bears the id, whether the rule in it is active or not. -/
def RuleSession.Listed (s : RuleSession) : RuleKey → Prop
  | .pdr pdrId => s.pdrs.any fun p => p.pdrId == pdrId
  | .far farId => s.fars.any fun f => f.farId == farId
  | .qer qerId => s.qers.any fun q => q.qerId == qerId
  | .urr urrId => s.urrs.any fun u => u.urrId == urrId

instance (s : RuleSession) (k : RuleKey) : Decidable (s.Active k) := by
  cases k <;> exact inferInstanceAs (Decidable (_ = true))

instance (s : RuleSession) (k : RuleKey) : Decidable (s.Listed k) := by
  cases k <;> exact inferInstanceAs (Decidable (_ = true))

/-- A session, and the rules that were added and have not been removed since. -/
structure NamedRules where
  session : RuleSession
  added : Finset RuleKey

def NamedRules.start (ueAddr : UInt32) : NamedRules := ⟨.start ueAddr, ∅⟩

/-- The rules that are there after a call that returned 0. -/
def RuleCall.addedAfter (c : RuleCall) (added : Finset RuleKey) : Finset RuleKey :=
  match c.verb with
  | .add => insert c.key added
  | .update => added
  | .remove => added.erase c.key

/-- After a call, if its behaviour is defined. -/
def NamedRules.step (t : NamedRules) (c : RuleCall) : Option NamedRules :=
  match t.session.call c with
  | .rejected => some t
  | .undefined => none
  | .done s => some ⟨s, c.addedAfter t.added⟩

/-- What is claimed of a call: an update of a rule that is not there returns -1 and changes nothing,
and a rule that becomes active is one that is added. -/
structure NamedRules.RefusesAbsent (t : NamedRules) (c : RuleCall) : Prop where
  refused : c.verb = .update → c.key ∉ t.added → t.session.call c = .rejected
  activated : ∀ t', t.step c = some t' → ∀ k, t'.session.Active k → ¬t.session.Active k →
    c.verb = .add ∧ c.key = k

/-- A rule that is updated and is not there has left no slot behind. -/
def NamedRules.LeftNoSlot (t : NamedRules) (c : RuleCall) : Prop :=
  c.verb = .update → c.key ∉ t.added → ¬t.session.Listed c.key

/-! ## What is expected of an id -/

/-- Whether an id is expected to be active, where something is said about it. -/
def Expected.tells {α : Type} : Expected α → Option Bool
  | .absent => some false
  | .value _ => some true
  | .unsaid => none

def Expectations.tells (e : Expectations) : RuleKey → Option Bool
  | .pdr pdrId => Expected.tells (e.pdr pdrId)
  | .far farId => Expected.tells (e.far farId)
  | .qer qerId => Expected.tells (e.qer qerId)
  | .urr urrId => Expected.tells (e.urr urrId)

variable {α : Type} {b : Bool} {k : RuleKey}

theorem Expected.tells_allows {e : Expected α} {found : Option α} (h : e.Allows found)
    (hb : Expected.tells e = some b) : found.isSome = b := by
  cases e with
  | absent | value a =>
    cases hb
    cases h
    rfl
  | unsaid => cases hb

/-- What is found is what is expected. -/
theorem TrackedRules.Inv.active_iff {t : TrackedRules} (hi : t.Inv)
    (h : t.expected.tells k = some b) : t.session.Active k ↔ b = true := by
  cases k with
  | pdr id => exact eq_iff_iff.mp (tells_allows (hi.pdrFound id) h)
  | far id => exact eq_iff_iff.mp (tells_allows (hi.farFound id) h)
  | qer id => exact eq_iff_iff.mp (tells_allows (hi.qerFound id) h)
  | urr id => exact eq_iff_iff.mp (tells_allows (hi.urrFound id) h)

variable {e : Expectations} {ueAddr : UInt32} {c : RuleCall}

theorem Expected.tells_self {ι : Type} [DecidableEq ι] (e : ι → Expected α) (i : ι)
    (x : Expected α) : Expected.tells (update e i x i) = Expected.tells x :=
  congrArg tells (update_self i x e)

/-- The other ids are told apart by any function on ids. -/
theorem Expected.tells_of_ne {ι κ : Type} [DecidableEq ι] (f : ι → κ) (e : ι → Expected α) (i j : ι)
    (x : Expected α) (h : f j ≠ f i) :
    Expected.tells (update e i x j) = Expected.tells (e j) :=
  congrArg tells (update_of_ne (fun heq => h (congrArg f heq)) x e)

/-- A rule that was added is expected to be there. -/
theorem tells_added (h : c.verb = .add) : (e.after ueAddr c).tells c.key = some true := by
  cases c <;> first
    | exact tells_self ..
    | cases h

theorem tells_removed (h : c.verb = .remove) : (e.after ueAddr c).tells c.key = some false := by
  cases c <;> first
    | exact tells_self ..
    | cases h

theorem Expected.tells_farUpdated {e : Expected Far} (tun : Tunnel)
    (h : Expected.tells e = some true) :
    Expected.tells (Expected.farUpdated tun e) = some true := by
  cases e with
  | value => rfl
  | absent | unsaid => cases h

theorem Expected.tells_farDeactivated (e : Expected Far) :
    Expected.tells (Expected.farDeactivated e) = Expected.tells e := by
  cases e <;> rfl

/-- The update of a rule that is there leaves it there. -/
theorem tells_updated (h : c.verb = .update) (hk : e.tells c.key = some true) :
    (e.after ueAddr c).tells c.key = some true := by
  cases c with
  | updateFar farId tun =>
    refine (tells_self ..).trans ?_
    exact tells_farUpdated tun hk
  | deactivateDl farId =>
    refine (tells_self ..).trans ?_
    exact (tells_farDeactivated _).trans hk
  | updatePdr a | updateQer a | updateUrr a => exact tells_self ..
  | _ => cases h

/-- Nothing else is said about the other ids. -/
theorem tells_other (h : k ≠ c.key) : (e.after ueAddr c).tells k = e.tells k := by
  cases k with
  | pdr id =>
    cases c <;> first
      | rfl
      | exact tells_of_ne RuleKey.pdr _ _ _ _ h
  | far id =>
    cases c <;> first
      | rfl
      | exact tells_of_ne RuleKey.far _ _ _ _ h
  | qer id =>
    cases c <;> first
      | rfl
      | exact tells_of_ne RuleKey.qer _ _ _ _ h
  | urr id =>
    cases c <;> first
      | rfl
      | exact tells_of_ne RuleKey.urr _ _ _ _ h

/-! ## What a call does to what is active -/

/-- What the ids of a session find. -/
def RuleSession.finds (s : RuleSession) : Expectations where
  pdr := fun id => (findPdr s id).elim .absent .value
  far := fun id => (findFar s id).elim .absent .value
  qer := fun id => (findQer s id).elim .absent .value
  urr := fun id => (findUrr s id).elim .absent .value

theorem Expected.allows_elim (o : Option α) : (o.elim Expected.absent Expected.value).Allows o := by
  cases o <;> rfl

theorem Expected.tells_elim (o : Option α) :
    Expected.tells (o.elim Expected.absent Expected.value) = some o.isSome := by
  cases o <;> rfl

/-- A session keeps the promise of what it finds. -/
theorem RuleSession.Sound.inv {s : RuleSession} (h : s.Sound) : TrackedRules.Inv ⟨s, s.finds⟩ where
  pdrs := h.pdrs
  fars := h.fars
  qers := h.qers
  urrs := h.urrs
  pdrFound := fun _ => allows_elim _
  farFound := fun _ => allows_elim _
  qerFound := fun _ => allows_elim _
  urrFound := fun _ => allows_elim _

theorem RuleSession.finds_tells (s : RuleSession) (k : RuleKey) :
    ∃ b, s.finds.tells k = some b ∧ (s.Active k ↔ b = true) := by
  cases k with
  | pdr id | far id | qer id | urr id => exact ⟨_, tells_elim _, Iff.rfl⟩

section Calls

variable {s s' : RuleSession} (hs : s.Sound) (h : s.call c = .done s')

include hs h

/-- The invariant of the tables, with what a call makes of it. -/
theorem inv_done : TrackedRules.Inv ⟨s', s.finds.after s.ueAddr c⟩ := by
  refine hs.inv.step (c := c) ?_
  rw [TrackedRules.step, h]

theorem RuleSession.Sound.call : s'.Sound :=
  have hi := inv_done hs h
  ⟨hi.pdrs, hi.fars, hi.qers, hi.urrs⟩

theorem active_added (hv : c.verb = .add) : s'.Active c.key :=
  ((inv_done hs h).active_iff (tells_added hv)).mpr rfl

theorem not_active_removed (hv : c.verb = .remove) : ¬s'.Active c.key := fun hact =>
  Bool.noConfusion (((inv_done hs h).active_iff (tells_removed hv)).mp hact)

theorem active_updated (hv : c.verb = .update) (hact : s.Active c.key) : s'.Active c.key := by
  obtain ⟨b, hb, hiff⟩ := s.finds_tells c.key
  rw [hiff.mp hact] at hb
  exact ((inv_done hs h).active_iff (tells_updated hv hb)).mpr rfl

theorem active_other {k : RuleKey} (hk : k ≠ c.key) : s'.Active k ↔ s.Active k := by
  obtain ⟨b, hb, hiff⟩ := s.finds_tells k
  exact ((inv_done hs h).active_iff ((tells_other hk).trans hb)).trans hiff.symm

end Calls

/-! ## What is refused -/

theorem CallResult.ofOption_rejected_iff {o : Option RuleSession} :
    CallResult.ofOption o = .rejected ↔ o = none := by
  refine ⟨ofOption_rejected, ?_⟩
  rintro rfl
  rfl

/-- A slot with the id is found. -/
theorem findOrAlloc_of_listed {α ι : Type} [DecidableEq ι] {v : SlotView α ι} {cap : Nat}
    {l : List α} {k : ι} (h : (l.any fun a => v.id a == k) = true) :
    v.findOrAlloc cap l k ≠ none := by
  grind [findOrAlloc]

/-- The first slot with the id is changed, if there is one. -/
theorem change_eq_none_iff {α : Type} {p : α → Bool} {f : α → α} {l : List α} :
    SlotView.change p f l = none ↔ ¬(l.any p = true) := by
  simp [SlotView.change]

variable {s : RuleSession}

/-- An update is refused exactly where no slot has the id. -/
theorem update_rejected_iff (h : c.verb = .update) : s.call c = .rejected ↔ ¬s.Listed c.key := by
  cases c with
  | updatePdr a =>
    rw [RuleSession.call, upfDpUpdatePdr]
    by_cases hany : (s.pdrs.any fun p => p.pdrId == a.pdrId) = true
    · rw [if_pos hany]
      exact ⟨fun h => absurd (addPdr_rejected h) (findOrAlloc_of_listed hany),
        fun hno => absurd hany hno⟩
    · rw [if_neg hany]
      exact ⟨fun _ => hany, fun _ => rfl⟩
  | updateFar farId tun | deactivateDl farId =>
    exact ofOption_rejected_iff.trans (map_eq_none_iff.trans change_eq_none_iff)
  | updateQer a =>
    refine ofOption_rejected_iff.trans ?_
    rw [upfDpUpdateQer]
    by_cases hany : (s.qers.any fun q => q.qerId == a.qerId) = true
    · rw [if_pos hany, upfDpAddQer, map_eq_none_iff]
      exact ⟨fun hnone => absurd hnone (findOrAlloc_of_listed hany), fun hno => absurd hany hno⟩
    · rw [if_neg hany]
      exact ⟨fun _ => hany, fun _ => rfl⟩
  | updateUrr a =>
    refine ofOption_rejected_iff.trans ?_
    rw [upfDpUpdateUrr]
    by_cases hany : (s.urrs.any fun u => u.urrId == a.urrId) = true
    · rw [if_pos hany, upfDpAddUrr, map_eq_none_iff]
      exact ⟨fun hnone => absurd hnone (findOrAlloc_of_listed hany), fun hno => absurd hany hno⟩
    · rw [if_neg hany]
      exact ⟨fun _ => hany, fun _ => rfl⟩
  | _ => cases h

/-- What an id finds lies in a slot with it. -/
theorem any_of_lookup {α ι : Type} [DecidableEq ι] {v : SlotView α ι} {l : List α} {k : ι}
    (h : (v.lookup l k).isSome = true) : (l.any fun a => v.id a == k) = true := by
  obtain ⟨a, ha⟩ := isSome_iff_exists.mp h
  have hp := find?_some ha
  rw [and_eq_true] at hp
  exact any_eq_true.mpr ⟨a, mem_of_find?_eq_some ha, hp.1⟩

theorem RuleSession.Active.listed {k : RuleKey} (h : s.Active k) : s.Listed k := by
  cases k with
  | pdr | far | qer | urr => exact any_of_lookup h

/-! ## Runs -/

namespace NamedRules

variable {t t' : NamedRules}

/-- Every rule that was added and not removed is active. -/
structure Inv (t : NamedRules) : Prop where
  sound : t.session.Sound
  active : ∀ k ∈ t.added, t.session.Active k

theorem inv_start (ueAddr : UInt32) : (start ueAddr).Inv where
  sound := ⟨sound_nil _, sound_nil _, sound_nil _, sound_nil _⟩
  active := fun _ hk => absurd hk (notMem_empty _)

/-- A call that is carried out. -/
theorem step_cases (h : t.step c = some t') :
    t.session.call c = .rejected ∧ t' = t ∨
      ∃ s, t.session.call c = .done s ∧ t' = ⟨s, c.addedAfter t.added⟩ := by
  grind [step]

theorem mem_addedAfter {k : RuleKey} (h : k ∈ c.addedAfter t.added) :
    c.verb = .add ∧ k = c.key ∨ k ∈ t.added ∧ (c.verb = .remove → k ≠ c.key) := by
  unfold RuleCall.addedAfter at h
  grind

theorem Inv.step (hi : t.Inv) (h : t.step c = some t') : t'.Inv := by
  rcases step_cases h with ⟨-, rfl⟩ | ⟨s, hcall, rfl⟩
  · exact hi
  · refine ⟨hi.sound.call hcall, fun k hk => ?_⟩
    rcases mem_addedAfter hk with ⟨hv, rfl⟩ | ⟨hold, hnot⟩
    · exact active_added hi.sound hcall hv
    · by_cases hkey : k = c.key
      · subst hkey
        cases hv : c.verb with
        | add => exact active_added hi.sound hcall hv
        | update => exact active_updated hi.sound hcall hv (hi.active _ hold)
        | remove => exact absurd rfl (hnot hv)
      · exact (active_other hi.sound hcall hkey).mpr (hi.active k hold)

/-- What is active was added and has not been removed since. -/
def OnlyAdded (t : NamedRules) : Prop := ∀ k, t.session.Active k → k ∈ t.added

/-- What becomes active at a call that meets the condition is what it adds. -/
theorem Inv.activated (hi : t.Inv) (hleft : t.LeftNoSlot c) (h : t.step c = some t') {k : RuleKey}
    (hact : t'.session.Active k) (hnot : ¬t.session.Active k) : c.verb = .add ∧ c.key = k := by
  rcases step_cases h with ⟨-, rfl⟩ | ⟨s, hcall, rfl⟩
  · exact absurd hact hnot
  · by_cases hkey : k = c.key
    · subst hkey
      cases hv : c.verb with
      | add => exact ⟨rfl, rfl⟩
      | remove => exact absurd hact (not_active_removed hi.sound hcall hv)
      | update =>
        by_cases hin : c.key ∈ t.added
        · exact absurd (hi.active _ hin) hnot
        · rw [(update_rejected_iff hv).mpr (hleft hv hin)] at hcall
          cases hcall
    · exact absurd ((active_other hi.sound hcall hkey).mp hact) hnot

/-- The claim is met at a call exactly under the condition. -/
theorem Inv.refusesAbsent_iff (hi : t.Inv) (c : RuleCall) : t.RefusesAbsent c ↔ t.LeftNoSlot c := by
  constructor
  · intro hr hv hin
    exact (update_rejected_iff hv).mp (hr.refused hv hin)
  · intro hleft
    exact ⟨fun hv hin => (update_rejected_iff hv).mpr (hleft hv hin),
      fun t' h k hact hnot => hi.activated hleft h hact hnot⟩

/-- A call that meets the condition leaves nothing active but what was added. -/
theorem Inv.onlyAdded_step (hi : t.Inv) (ho : t.OnlyAdded) (hleft : t.LeftNoSlot c)
    (h : t.step c = some t') : t'.OnlyAdded := by
  intro k hact
  have hnew := hi.activated hleft h hact
  rcases step_cases h with ⟨-, rfl⟩ | ⟨s, hcall, rfl⟩
  · exact ho k hact
  · rw [RuleCall.addedAfter]
    cases hv : c.verb with
    | add =>
      by_cases hold : t.session.Active k
      · exact mem_insert_of_mem (ho k hold)
      · exact mem_insert.mpr (Or.inl (hnew hold).2.symm)
    | update =>
      refine ho k (Decidable.byContradiction fun hnot => ?_)
      rw [hv] at hnew
      cases (hnew hnot).1
    | remove =>
      have hkey : k ≠ c.key := fun heq => not_active_removed hi.sound hcall hv (heq ▸ hact)
      exact mem_erase.mpr ⟨hkey, ho k ((active_other hi.sound hcall hkey).mp hact)⟩

theorem inv_run {calls : List RuleCall} (hi : t.Inv) (h : runOk step t calls = some t') :
    t'.Inv := by
  induction calls generalizing t with
  | nil =>
    cases h
    exact hi
  | cons c calls ih =>
    obtain ⟨t₁, hstep, hrun⟩ := bind_eq_some_iff.1 h
    exact ih (hi.step hstep) hrun

/-- In every state that calls lead to, an update of a rule that is not there is refused, and brings
nothing back, exactly where the rule has left no slot behind.  In a run of such calls, what is
active is what was added and has not been removed. -/
theorem absent_updates {ueAddr : UInt32} {calls : List RuleCall}
    (h : runOk step (start ueAddr) calls = some t) :
    (∀ c, t.RefusesAbsent c ↔ t.LeftNoSlot c) ∧
      (MeetsOk step LeftNoSlot (start ueAddr) calls →
        ∀ k, t.session.Active k ↔ k ∈ t.added) := by
  have hi := inv_run (inv_start ueAddr) h
  refine ⟨hi.refusesAbsent_iff, fun hmeets k => ⟨fun hact => ?_, hi.active k⟩⟩
  have hall : t.Inv ∧ t.OnlyAdded := by
    refine (hmeets.reach h).invariant (I := fun t => t.Inv ∧ t.OnlyAdded)
      ⟨inv_start ueAddr, fun k hk => ?_⟩ ?_
    · cases k <;> cases hk
    · rintro s c s' ⟨hs, ho⟩ hleft hstep
      exact ⟨hs.step hstep, hs.onlyAdded_step ho hleft hstep⟩
  exact hall.2 k hact

/-- QER 1 is added and removed. -/
def removedQer : List RuleCall := [.addQer ⟨1, 9, 0, 0, 0, 0, 0, 0⟩, .removeQer 1]

/-- The id as another call gives it. -/
def updatedQer : RuleCall := .updateQer ⟨1, 9, 0, 0, 0, 0, 0, 0⟩

theorem absent_updates_removedQer :
    ∃ t, runOk step (start 0) removedQer = some t ∧ t.session.Listed (.qer 1) ∧
      ¬t.session.Active (.qer 1) ∧ (t.RefusesAbsent updatedQer ↔ t.LeftNoSlot updatedQer) := by
  have h : runOk step (start 0) removedQer = some _ := rfl
  exact ⟨_, h, by decide, by decide, (absent_updates h).1 _⟩

/-- Its update returns 0, and it is active again. -/
theorem removedQer_updated :
    ¬∀ (ueAddr : UInt32) (calls : List RuleCall) (t : NamedRules),
        runOk step (start ueAddr) calls = some t → ∀ c, t.RefusesAbsent c := by
  intro hall
  have hr := hall 0 removedQer _ rfl updatedQer
  exact absurd (hr.refused rfl (by decide)) CallResult.noConfusion

end NamedRules

end MmtCore.Upf
