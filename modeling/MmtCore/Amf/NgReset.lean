import MmtCore.Amf.GuardTimers
import MmtCore.Amf.Handover
import MmtCore.Amf.RegistryIndex

/-!
# NG Reset

What a reset by a gNB leaves in the registry.  `releaseAllUEsOnGnb` removes the contexts of the gNB
from every index before a hook runs, so the indexes are followed through the one loop and the
contexts through the other.
-/

namespace MmtCore.Amf

open MmtCore.Lib List
open Function (update update_self update_of_ne)

variable {X : Handover.Surroundings} {s t : AmfState} {g : GnbKey} {r q : Ref}

/-- The keys that the removal of a context takes out of `byRanKey` and `byIMSI`. -/
def Ue.ranKeys (u : Ue) : List (GnbKey × Nat) :=
  if u.gnbKey = [] then [] else [(u.gnbKey, u.ranUeNgapId)]

def Ue.imsiKeys (u : Ue) : List Imsi := if u.imsi = [] then [] else [u.imsi]

/-! ## The loop over the indexes -/

theorem foldl_update_none {κ ν : Type} [DecidableEq κ] (keys : List κ) (m : κ → Option ν) (k : κ) :
    keys.foldl (fun m k => update m k none) m k = if k ∈ keys then none else m k := by
  induction keys generalizing m with
  | nil => simp
  | cons k' keys ih =>
    rw [foldl_cons, ih]
    by_cases hk : k = k'
    · simp [hk]
    · simp [hk, update_of_ne]

theorem foldl_unindex (victims : List Ref) (s : AmfState) :
    victims.foldl (fun s r => s.exec (.unindex r)) s =
      { s with
        byAmfID := (victims.map fun r => (s.ue r).amfUeNgapId).foldl (update · · none) s.byAmfID
        byRanKey := (victims.flatMap fun r => (s.ue r).ranKeys).foldl (update · · none) s.byRanKey
        byIMSI :=
          (victims.flatMap fun r => (s.ue r).imsiKeys).foldl (update · · none) s.byIMSI } := by
  induction victims generalizing s with
  | nil => rfl
  | cons r victims ih =>
    rw [foldl_cons, ih]
    simp only [AmfState.exec, AmfState.unindex, map_cons, foldl_cons, flatMap_cons,
      foldl_append, Ue.ranKeys, Ue.imsiKeys]
    split <;> split <;> rfl

/-! ## The loop over the hooks -/

theorem foldl_removeHooks (victims : List Ref) (s : AmfState) :
    (victims.foldl (fun s r => removeHooks r s) s).registry = s.registry ∧
      ∀ q, ((victims.foldl (fun s r => removeHooks r s) s).ue q).keys = (s.ue q).keys ∧
        (q ∉ victims → (victims.foldl (fun s r => removeHooks r s) s).ue q = s.ue q) ∧
        ((s.ue q).watch = dropped ∨ q ∈ victims →
          ((victims.foldl (fun s r => removeHooks r s) s).ue q).watch = dropped) := by
  induction victims generalizing s with
  | nil => simp
  | cons r victims ih =>
    have hacts : Acts r [.dropFsm, .cancel] s (removeHooks r s) := removeHooks_acts
    obtain ⟨hreg, hue⟩ := ih (removeHooks r s)
    rw [foldl_cons]
    refine ⟨hreg.trans (hacts.registry_eq' rfl), fun q => ?_⟩
    obtain ⟨hkeys, hkept, hdropped⟩ := hue q
    refine ⟨hkeys.trans (hacts.keys_eq rfl q), fun hq => ?_, fun hq => hdropped ?_⟩
    · rw [mem_cons, not_or] at hq
      rw [hkept hq.2, hacts.ue_of_ne hq.1]
    · by_cases hr : q = r
      · exact .inl (hr ▸ removeHooks_watch r s)
      · rw [hacts.ue_of_ne hr]
        exact hq.imp_right fun hmem => (mem_cons.1 hmem).resolve_left hr

/-! ## What is left -/

/-- The context is in the registry and belongs to the gNB. -/
def OfGnb (g : GnbKey) (s : AmfState) (r : Ref) : Prop := s.Live r ∧ (s.ue r).gnbKey = g

/-- From `s` to `t` exactly the contexts of the gNB have left the registry, with their entries in
the indexes; their state machines and timers are gone. -/
structure GnbRemoved (g : GnbKey) (s t : AmfState) : Prop where
  gone : ∀ r, OfGnb g s r → ¬t.Live r ∧ (t.ue r).watch = dropped
  kept : ∀ r, ¬OfGnb g s r → t.ue r = s.ue r ∧ (t.Live r ↔ s.Live r)
  ranGone : ∀ r, OfGnb g s r → ∀ key ∈ (s.ue r).ranKeys, t.byRanKey key = none
  imsiGone : ∀ r, OfGnb g s r → ∀ imsi ∈ (s.ue r).imsiKeys, t.byIMSI imsi = none
  ranKept : ∀ key, (∀ r, OfGnb g s r → key ∉ (s.ue r).ranKeys) → t.byRanKey key = s.byRanKey key
  imsiKept : ∀ imsi, (∀ r, OfGnb g s r → imsi ∉ (s.ue r).imsiKeys) → t.byIMSI imsi = s.byIMSI imsi

theorem mem_contextsOfGnb : r ∈ contextsOfGnb g s ↔ OfGnb g s r := by
  simp [contextsOfGnb, OfGnb, AmfState.Live]
  grind

theorem removeAllForGnb_removed (g : GnbKey) (s : AmfState) :
    GnbRemoved g s (removeAllForGnb g s) := by
  obtain ⟨hreg, hue⟩ := foldl_removeHooks (contextsOfGnb g s)
    ((contextsOfGnb g s).foldl (fun s r => s.exec (.unindex r)) s)
  rw [foldl_unindex] at hreg hue
  rw [removeAllForGnb, foldl_unindex]
  generalize (contextsOfGnb g s).foldl (fun s r => removeHooks r s) _ = t at hreg hue ⊢
  simp only [AmfState.registry, Prod.mk.injEq] at hreg
  obtain ⟨hnref, hid, hran, himsi⟩ := hreg
  have hids : ∀ q, (t.ue q).amfUeNgapId = (s.ue q).amfUeNgapId := fun q => by
    simpa [Ue.keys] using congrArg Prod.fst (hue q).1
  have hlive : ∀ q, t.Live q ↔ s.Live q ∧ ¬OfGnb g s q := by
    intro q
    unfold AmfState.Live
    rw [hids, hid, hnref, foldl_update_none]
    split
    · case isTrue hmem =>
      obtain ⟨r, hr, heq⟩ := mem_map.1 hmem
      have hr := mem_contextsOfGnb.1 hr
      refine iff_of_false (fun h => by simp at h) fun h => h.2 ?_
      have hqr : q = r := Option.some.inj (h.1.2.symm.trans (heq ▸ hr.1.2))
      exact hqr ▸ hr
    · case isFalse hmem =>
      refine (and_iff_left fun h => hmem ?_).symm
      exact mem_map.2 ⟨q, mem_contextsOfGnb.2 h, rfl⟩
  refine ⟨fun r hr => ⟨fun h => ((hlive r).1 h).2 hr, (hue r).2.2 (.inr (mem_contextsOfGnb.2 hr))⟩,
    fun r hr => ⟨(hue r).2.1 fun h => hr (mem_contextsOfGnb.1 h), ?_⟩, ?_, ?_, ?_, ?_⟩
  · rw [hlive]
    exact and_iff_left hr
  · intro r hr key hkey
    rw [hran, foldl_update_none, if_pos (mem_flatMap.2 ⟨r, mem_contextsOfGnb.2 hr, hkey⟩)]
  · intro r hr imsi hkey
    rw [himsi, foldl_update_none, if_pos (mem_flatMap.2 ⟨r, mem_contextsOfGnb.2 hr, hkey⟩)]
  · intro key hkey
    rw [hran, foldl_update_none, if_neg]
    rintro hmem
    obtain ⟨r, hr, hin⟩ := mem_flatMap.1 hmem
    exact hkey r (mem_contextsOfGnb.1 hr) hin
  · intro imsi hkey
    rw [himsi, foldl_update_none, if_neg]
    rintro hmem
    obtain ⟨r, hr, hin⟩ := mem_flatMap.1 hmem
    exact hkey r (mem_contextsOfGnb.1 hr) hin

namespace Handover

/-- A registered UE of a gNB. -/
theorem exists_ofGnb : ∃ s, OfGnb Amf.Lab.gnb s 0 :=
  ⟨run (Amf.step Amf.Lab.env) .init Amf.Lab.registered, by unfold OfGnb; decide +kernel⟩

def resetSurroundings : Surroundings :=
  ⟨[], fun _ => true, fun _ => [], fun _ _ _ => none, fun _ => true, 0, none⟩

/-- The connections an NG RESET is about; of the two ids in a part of the interface either may be
missing. -/
inductive ResetType
  | ngInterface
  | partOfNGInterface (connections : List (Option Nat × Option Nat))

def ResetType.Names : ResetType → Ue → Prop
  | .ngInterface, _ => True
  | .partOfNGInterface l, u => ∃ c ∈ l, c ≠ (none, none) ∧ (∀ id ∈ c.1, u.amfUeNgapId = id) ∧
    ∀ ran ∈ c.2, u.ranUeNgapId = ran

/-- The named UEs are idle and otherwise as they were, registered as before; the rest is as it
was. -/
structure ResetLaw (reset : ResetType) (g : GnbKey) (s t : AmfState) : Prop where
  idle : ∀ r, OfGnb g s r → reset.Names (s.ue r) → t.Live r ∧ (t.ue r).book.cm = .idle ∧
    (t.ue r).rm = (s.ue r).rm ∧ (t.ue r).imsi = (s.ue r).imsi ∧ (t.ue r).sec = (s.ue r).sec
  kept : ∀ r, ¬(OfGnb g s r ∧ reset.Names (s.ue r)) → t.ue r = s.ue r ∧ (t.Live r ↔ s.Live r)

end Handover

end MmtCore.Amf
