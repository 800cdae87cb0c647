import Mathlib.Data.List.Nodup
import Mathlib.Data.List.Perm.Basic
import Mathlib.Data.List.Range

/-!
# Tables that hand out slots

A table gives each key it knows one of `n` slots.  A slot is free, or belongs to a key, or is held
by somebody who will free it later.  `SlotTable.Owns` says that this is so for every slot, once:
the three lists together are a rearrangement of all slots.  Distinctness of slots, and the count
of those left, both come from that one statement.
-/

namespace MmtCore.Lib

open List Prod

universe u

/-- Free slots, in the order they will be handed out, and the slots of the keys. -/
structure SlotTable (κ : Type u) where
  free : List Nat
  used : List (κ × Nat)

namespace SlotTable

variable {κ : Type u} [DecidableEq κ]

/-- All of `n` slots are free. -/
def empty (n : Nat) : SlotTable κ := ⟨List.range n, []⟩

/-- The slot of a key. -/
def slotOf (t : SlotTable κ) (k : κ) : Option Nat := t.used.lookup k

/-- The slot goes to the end of the free ones. -/
def give (t : SlotTable κ) (slot : Nat) : SlotTable κ := { t with free := t.free ++ [slot] }

/-- The key is forgotten, and its slot with it. -/
def drop (t : SlotTable κ) (k : κ) : SlotTable κ :=
  { t with used := t.used.filter fun p => decide (p.1 ≠ k) }

/-- Every slot below `n` is free, or some key's, or held, and no key has two. -/
structure Owns (t : SlotTable κ) (n : Nat) (held : List Nat) : Prop where
  slots : (t.free ++ (t.used.map Prod.snd ++ held)).Perm (List.range n)
  keys : (t.used.map Prod.fst).Nodup

variable {t : SlotTable κ} {n : Nat} {held : List Nat} {k : κ} {slot : Nat}

omit [DecidableEq κ] in
theorem owns_empty (n : Nat) : (empty n : SlotTable κ).Owns n [] := by
  constructor <;> simp [empty]

omit [DecidableEq κ] in
/-- No slot is lost. -/
theorem Owns.count (h : t.Owns n held) : t.free.length + t.used.length + held.length = n := by
  have hlen := h.slots.length_eq
  simp only [length_append, length_map, length_range] at hlen
  omega

omit [DecidableEq κ] in
theorem Owns.nodup (h : t.Owns n held) :
    (t.free ++ (t.used.map Prod.snd ++ held)).Nodup :=
  h.slots.nodup_iff.2 (nodup_range)

theorem lookup_eq_some_iff {l : List (κ × Nat)} (hl : (l.map Prod.fst).Nodup) :
    l.lookup k = some slot ↔ (k, slot) ∈ l := by
  induction l with
  | nil => simp
  | cons p l ih =>
    obtain ⟨k', slot'⟩ := p
    rw [lookup_cons]
    by_cases hk : k = k'
    · simp_all [eq_comm]
    · simp_all [beq_false_of_ne]

theorem Owns.slotOf_iff (h : t.Owns n held) : t.slotOf k = some slot ↔ (k, slot) ∈ t.used :=
  lookup_eq_some_iff h.keys

theorem Owns.slotOf_none (h : t.Owns n held) (hk : t.slotOf k = none) : k ∉ t.used.map Prod.fst := by
  intro hmem
  obtain ⟨⟨k', slot⟩, hp, rfl⟩ := mem_map.1 hmem
  rw [h.slotOf_iff.2 hp] at hk
  cases hk

/-- Keys with one slot are one key. -/
theorem Owns.slotOf_inj (h : t.Owns n held) {k' : κ} (hk : t.slotOf k = some slot)
    (hk' : t.slotOf k' = some slot) : k = k' := by
  have hused : (t.used.map snd).Nodup :=
    ((nodup_append.1 (nodup_append.1 h.nodup).2.1).1)
  have hmem := h.slotOf_iff.1 hk
  have hmem' := h.slotOf_iff.1 hk'
  exact congrArg fst (inj_on_of_nodup_map hused hmem hmem' rfl)

/-! ## What the operations keep -/

/-- The first free slot goes to a new key. -/
theorem Owns.take (h : t.Owns n held) (hk : t.slotOf k = none) {rest : List Nat}
    (hfree : t.free = slot :: rest) :
    (⟨rest, (k, slot) :: t.used⟩ : SlotTable κ).Owns n held := by
  constructor
  · have hperm : (rest ++ (((k, slot) :: t.used).map snd ++ held)).Perm
        (t.free ++ (t.used.map snd ++ held)) := by
      rw [hfree]
      simp only [map_cons, cons_append]
      exact perm_middle
    exact hperm.trans h.slots
  · simp only [map_cons, nodup_cons]
    exact ⟨h.slotOf_none hk, h.keys⟩

omit [DecidableEq κ] in
/-- The first free slot becomes the last. -/
theorem Owns.rotate (h : t.Owns n held) {rest : List Nat} (hfree : t.free = slot :: rest) :
    (⟨rest ++ [slot], t.used⟩ : SlotTable κ).Owns n held := by
  constructor
  · have hperm : (rest ++ [slot]).Perm t.free := by
      rw [hfree]
      exact perm_append_singleton slot rest
    exact (hperm.append_right _).trans h.slots
  · exact h.keys

/-- What is left of the slots when one key's is taken out. -/
theorem used_perm (hkeys : (t.used.map Prod.fst).Nodup) (hmem : (k, slot) ∈ t.used) :
    t.used.Perm ((k, slot) :: (t.drop k).used) := by
  have hdrop : (t.drop k).used = t.used.erase (k, slot) := by
    rw [(List.Nodup.of_map _ hkeys).erase_eq_filter]
    refine filter_congr fun p hp => ?_
    by_cases hpk : p.1 = k
    · have heq : p = (k, slot) := inj_on_of_nodup_map hkeys hp hmem hpk
      simp [heq]
    · grind
  rw [hdrop]
  exact perm_cons_erase hmem

/-- A key that is dropped leaves its slot to be held. -/
theorem Owns.drop (h : t.Owns n held) (hk : t.slotOf k = some slot) :
    (t.drop k).Owns n (slot :: held) := by
  have hmem := h.slotOf_iff.1 hk
  have hperm := used_perm h.keys hmem
  constructor
  · refine List.Perm.trans ?_ h.slots
    refine List.Perm.append_left _ ?_
    grind
  · exact h.keys.sublist (filter_sublist.map fst)

omit [DecidableEq κ] in
/-- A held slot that is given back is free. -/
theorem Owns.give (h : t.Owns n (slot :: held)) : (t.give slot).Owns n held := by
  constructor
  · refine List.Perm.trans ?_ h.slots
    grind [SlotTable.give]
  · exact h.keys

omit [DecidableEq κ] in
theorem Owns.perm (h : t.Owns n held) {held' : List Nat} (hp : held'.Perm held) :
    t.Owns n held' :=
  ⟨((hp.append_left _).append_left _).trans h.slots, h.keys⟩

/-! ## Lookups afterwards -/

end SlotTable

end MmtCore.Lib
