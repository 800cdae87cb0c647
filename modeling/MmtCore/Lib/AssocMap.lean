import Mathlib.Data.List.AList

/-!
# Maps with assignment

A finite map is an `AList` whose values do not depend on the key.  `assign` is the `m[k] = v` of an
imperative language; an assignment that changes nothing leaves the list as it is, so that two maps
with the same history of changes are equal.
-/

namespace MmtCore.Lib

universe u v

/-- A finite map. -/
abbrev AssocMap (κ : Type u) (ν : Type v) := AList fun _ : κ => ν

namespace AssocMap

/-- Equality of the entries; unlike the instance of `AList` it evaluates. -/
instance {κ : Type u} {ν : Type v} [DecidableEq κ] [DecidableEq ν] : DecidableEq (AssocMap κ ν) :=
  fun m m' => decidable_of_iff (m.entries = m'.entries) AList.ext_iff.symm

variable {κ : Type u} {ν : Type v} [DecidableEq κ] [DecidableEq ν]

/-- `m[k] = v`. -/
def assign (m : AssocMap κ ν) (k : κ) (v : ν) : AssocMap κ ν :=
  if m.lookup k = some v then m else m.insert k v

variable {m : AssocMap κ ν} {k k' : κ} {v w : ν}

@[simp] theorem lookup_assign : (m.assign k v).lookup k = some v := by
  unfold assign
  grind [AList.lookup_insert]

@[simp] theorem lookup_assign_ne (h : k' ≠ k) : (m.assign k v).lookup k' = m.lookup k' := by
  unfold assign
  split
  case isTrue => rfl
  case isFalse => exact AList.lookup_insert_ne h

theorem lookup_assign_eq :
    (m.assign k v).lookup k' = if k' = k then some v else m.lookup k' := by
  grind [lookup_assign, lookup_assign_ne]

/-- Assigning the value that is there changes nothing. -/
theorem assign_self (h : m.lookup k = some v) : m.assign k v = m := if_pos h

omit [DecidableEq ν] in
theorem lookup_erase_eq : (m.erase k).lookup k' = if k' = k then none else m.lookup k' := by
  grind [AList.lookup_erase, AList.lookup_erase_ne]

omit [DecidableEq ν] in
theorem mem_entries_iff : ⟨k, v⟩ ∈ m.entries ↔ m.lookup k = some v :=
  AList.mem_lookup_iff.symm

end AssocMap

end MmtCore.Lib
