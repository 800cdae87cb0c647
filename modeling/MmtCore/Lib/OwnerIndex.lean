import Mathlib.Logic.Function.Basic

/-!
# Reverse indexes

An index `idx : κ → Option ω` says who owns a key; an owner holds keys through its items,
`held : ι → Option κ`, and several items may hold one key.  `Owns idx o held` says that the index
lists for `o` exactly the keys its items hold.  Each change of one item has a rule, with the
condition under which the obvious update of the index keeps it exact.
-/

namespace MmtCore.Lib

open Function

universe u v w

variable {κ : Type u} {ω : Type v} {ι : Type w} [DecidableEq κ] [DecidableEq ι]

/-- The index lists for the owner exactly the keys that its items hold. -/
def Owns (idx : κ → Option ω) (o : ω) (held : ι → Option κ) : Prop :=
  ∀ k, idx k = some o ↔ ∃ i, held i = some k

/-- A key is entered for an owner. -/
def register (idx : κ → Option ω) (k : Option κ) (o : ω) : κ → Option ω :=
  match k with
  | none => idx
  | some k => update idx k (some o)

/-- A key is taken out. -/
def unregister (idx : κ → Option ω) (k : Option κ) : κ → Option ω :=
  match k with
  | none => idx
  | some k => update idx k none

variable {idx : κ → Option ω} {o : ω} {held held' : ι → Option κ} {i : ι} {k : Option κ}

omit [DecidableEq ι] in
theorem register_eq_some_iff {t : κ} {o' : ω} :
    register idx k o t = some o' ↔ (k = some t ∧ o = o') ∨ (k ≠ some t ∧ idx t = some o') := by
  cases k with
  | none => simp [register]
  | some k =>
    by_cases htk : t = k
    · subst htk
      simp [register]
    · simp [register, update_of_ne htk, Ne.symm htk]

omit [DecidableEq ι] in
theorem unregister_eq_some_iff {t : κ} {o' : ω} :
    unregister idx k t = some o' ↔ k ≠ some t ∧ idx t = some o' := by
  cases k with
  | none => simp [unregister]
  | some k =>
    by_cases htk : t = k
    · subst htk
      simp [unregister]
    · simp [unregister, update_of_ne htk, Ne.symm htk]

omit [DecidableEq κ] [DecidableEq ι] in
theorem Owns.empty (hidx : ∀ k, idx k ≠ some o) (hheld : ∀ i, held i = none) :
    Owns idx o held := by
  intro k
  simp_all

/-- An item gets a key, when what it held before is held by another item as well. -/
theorem Owns.register (h : Owns idx o held)
    (hold : ∀ t, held i = some t → k = some t ∨ ∃ j, j ≠ i ∧ held j = some t) :
    Owns (Lib.register idx k o) o (update held i k) := by
  intro t
  rw [register_eq_some_iff]
  constructor
  · rintro (⟨hk, -⟩ | ⟨hk, ht⟩)
    · exact ⟨i, by rw [update_self, hk]⟩
    · obtain ⟨j, hj⟩ := (h t).1 ht
      by_cases hji : j = i
      · subst hji
        obtain hkt | ⟨j', hj', hheld⟩ := hold t hj
        · exact absurd hkt hk
        · exact ⟨j', by rw [update_of_ne hj', hheld]⟩
      · exact ⟨j, by rw [update_of_ne hji, hj]⟩
  · rintro ⟨j, hj⟩
    by_cases hk : k = some t
    · exact Or.inl ⟨hk, rfl⟩
    · refine Or.inr ⟨hk, (h t).2 ⟨j, ?_⟩⟩
      grind

/-- An item gives up its key, which no other item holds. -/
theorem Owns.unregister (h : Owns idx o held)
    (hother : ∀ t j, held i = some t → j ≠ i → held j ≠ some t) :
    Owns (Lib.unregister idx (held i)) o (update held i none) := by
  intro t
  rw [unregister_eq_some_iff]
  constructor
  · rintro ⟨hne, ht⟩
    obtain ⟨j, hj⟩ := (h t).1 ht
    have hji : j ≠ i := by
      rintro rfl
      exact hne hj
    exact ⟨j, by rw [update_of_ne hji, hj]⟩
  · rintro ⟨j, hj⟩
    have hji : j ≠ i := by
      rintro rfl
      rw [update_self] at hj
      cases hj
    rw [update_of_ne hji] at hj
    refine ⟨fun hi => hother t j hi hji hj, (h t).2 ⟨j, hj⟩⟩

end MmtCore.Lib
