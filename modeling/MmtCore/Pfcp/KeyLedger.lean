import MmtCore.Pfcp.HandlerSteps

/-!
# Who holds a reverse key

The ledger of a session: its two reverse maps list for it exactly the keys its PDRs hold, the
handler remembers the key of every PDR, and the entries of other sessions are those of before.  Each
way of changing a PDR keeps the ledger under a condition on the keys it gives up and takes.
-/

namespace MmtCore.Pfcp

open MmtCore.Lib MmtCore.Upf Function

/-- A key that is not 0. -/
def nonzero (key : UInt32) : Option UInt32 := if key = 0 then none else some key

@[simp] theorem nonzero_eq_some_iff {key t : UInt32} : nonzero key = some t ↔ key = t ∧ t ≠ 0 := by
  grind [nonzero]

/-- One side, TEID or UE IP, of what the PDRs hold. -/
def heldIn (keys : UInt16 → Option PDRReverseKey) (side : PDRReverseKey → UInt32) (id : UInt16) :
    Option UInt32 :=
  (keys id).bind fun key => nonzero (side key)

theorem heldIn_update (keys : UInt16 → Option PDRReverseKey) (side : PDRReverseKey → UInt32)
    (id : UInt16) (key : Option PDRReverseKey) :
    heldIn (update keys id key) side =
      update (heldIn keys side) id (key.bind fun key => nonzero (side key)) := by
  grind [heldIn]

theorem heldIn_eq_some_iff {keys : UInt16 → Option PDRReverseKey} {side : PDRReverseKey → UInt32}
    {id : UInt16} {t : UInt32} :
    heldIn keys side id = some t ↔ ∃ key, keys id = some key ∧ side key = t ∧ t ≠ 0 := by
  unfold heldIn
  rw [Option.bind_eq_some_iff]
  simp only [nonzero_eq_some_iff]

namespace HandlerSession

/-- The keys the handler remembers. -/
def keys (sess : HandlerSession) (id : UInt16) : Option PDRReverseKey := sess.pdrKeys.lookup id

def heldTEID (sess : HandlerSession) : UInt16 → Option UInt32 := heldIn sess.keys (·.teid)

def heldUEIP (sess : HandlerSession) : UInt16 → Option UInt32 := heldIn sess.keys (·.ueip)

section

variable (sess : HandlerSession)

theorem keys_assign (id : UInt16) (key : PDRReverseKey) :
    keys { sess with pdrKeys := sess.pdrKeys.assign id key } =
      update sess.keys id (some key) := by
  funext j
  unfold keys
  rw [AssocMap.lookup_assign_eq, update_apply]

theorem keys_erase (id : UInt16) :
    keys { sess with pdrKeys := sess.pdrKeys.erase id } = update sess.keys id none := by
  funext j
  unfold keys
  rw [AssocMap.lookup_erase_eq, update_apply]

theorem mem_held_iff (side : PDRReverseKey → UInt32) (t : UInt32) :
    t ∈ (sess.pdrKeys.entries.map fun e => side e.2).filter (· != 0) ↔
      ∃ id, heldIn sess.keys side id = some t := by
  simp only [heldIn_eq_some_iff, List.mem_filter, List.mem_map, bne_iff_ne, keys]
  constructor
  · grind [AssocMap.mem_entries_iff]
  · rintro ⟨id, key, hkey, rfl, h0⟩
    exact ⟨⟨⟨id, key⟩, AssocMap.mem_entries_iff.2 hkey, rfl⟩, h0⟩

theorem mem_teids_iff (t : UInt32) :
    t ∈ sess.teids ↔ ∃ id, sess.heldTEID id = some t := mem_held_iff sess (·.teid) t

theorem mem_ueips_iff (t : UInt32) :
    t ∈ sess.ueips ↔ ∃ id, sess.heldUEIP id = some t := mem_held_iff sess (·.ueip) t

end

end HandlerSession

/-! ## Conditions on a key -/

/-- A reverse map of the dataplane. -/
abbrev ReverseIndex := UInt32 → Option SessionKey

/-- The key is the session's already, or nobody's and there is room for it. -/
def KeyFree (idx : ReverseIndex) (room : UInt32 → Bool) (k : SessionKey) (key : UInt32) : Prop :=
  ∀ t, nonzero key = some t → idx t = some k ∨ (idx t = none ∧ room t = true)

/-- The PDR held no other key before, or one that another PDR of the session holds as well. -/
def KeyReplaceable (held : UInt16 → Option UInt32) (id : UInt16) (key : UInt32) : Prop :=
  ∀ t, held id = some t → nonzero key = some t ∨ ∃ j, j ≠ id ∧ held j = some t

/-- No other PDR of the session holds the key of this one. -/
def KeyOwn (held : UInt16 → Option UInt32) (id : UInt16) : Prop :=
  ∀ t j, held id = some t → j ≠ id → held j ≠ some t

/-! ## The ledger of one map -/

/-- One reverse map and what the PDRs of a session hold in it. -/
structure KeyLedger (idx₀ idx : ReverseIndex) (k : SessionKey) (held : UInt16 → Option UInt32) :
    Prop where
  owns : Owns idx k held
  others : ∀ t k', k' ≠ k → (idx t = some k' ↔ idx₀ t = some k')

namespace KeyLedger

variable {idx₀ idx : ReverseIndex} {k : SessionKey} {held : UInt16 → Option UInt32} {id : UInt16}
  {key : UInt32}

section

variable (h : KeyLedger idx₀ idx k held)
include h

theorem others_register
    (hfree : ∀ t, nonzero key = some t → idx t = some k ∨ idx t = none) (t : UInt32)
    (k' : SessionKey) (hk' : k' ≠ k) :
    register idx (nonzero key) k t = some k' ↔ idx₀ t = some k' := by
  rw [register_eq_some_iff, ← h.others t k' hk']
  constructor <;> grind

/-- A key that was free at the start is free, or the session's by now. -/
theorem free_of_start {t : UInt32}
    (hfree : idx₀ t = some k ∨ idx₀ t = none) : idx t = some k ∨ idx t = none := by
  cases ht : idx t with
  | none => exact Or.inr rfl
  | some k' =>
    by_cases hk' : k' = k
    · exact Or.inl (congrArg some hk')
    · have hstart := (h.others t k' hk').1 ht
      simp_all

/-- A PDR is created. -/
theorem create (hfree : ∀ t, nonzero key = some t → idx t = some k ∨ idx t = none)
    (hrep : KeyReplaceable held id key) :
    KeyLedger idx₀ (register idx (nonzero key) k) k (update held id (nonzero key)) where
  owns := h.owns.register hrep
  others := h.others_register hfree

/-- The key of a PDR is given up. -/
theorem giveUp (hown : KeyOwn held id) :
    KeyLedger idx₀ (unregister idx (held id)) k (update held id none) where
  owns := h.owns.unregister hown
  others := by
    intro t k' hk'
    rw [unregister_eq_some_iff, ← h.others t k' hk']
    constructor
    · exact fun ht => ht.2
    · intro ht
      refine ⟨fun hheld => ?_, ht⟩
      exact hk' (Option.some.inj (ht.symm.trans ((h.owns t).2 ⟨id, hheld⟩)))

/-- A PDR gets another key. -/
theorem rebind (hown : KeyOwn held id)
    (hfree : ∀ t, nonzero key = some t → idx t = some k ∨ idx t = none)
    (hne : ∀ t, held id = some t → nonzero key ≠ some t) :
    KeyLedger idx₀ (register (unregister idx (held id)) (nonzero key) k) k
      (update held id (nonzero key)) := by
  have hfree' : ∀ t, nonzero key = some t →
      unregister idx (held id) t = some k ∨ unregister idx (held id) t = none := by
    intro t ht
    have hother : held id ≠ some t := fun hheld => hne t hheld ht
    obtain hk | hnone := hfree t ht
    · exact Or.inl (unregister_eq_some_iff.2 ⟨hother, hk⟩)
    · right
      cases hu : unregister idx (held id) t with
      | none => rfl
      | some k' =>
        rw [(unregister_eq_some_iff.1 hu).2] at hnone
        cases hnone
  have hrep : KeyReplaceable (update held id none) id key := by
    intro t ht
    rw [update_self] at ht
    cases ht
  have hcreated := (h.giveUp hown).create hfree' hrep
  rwa [update_idem] at hcreated

end

end KeyLedger

end MmtCore.Pfcp
