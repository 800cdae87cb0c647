import Mathlib.Data.List.Nodup

/-!
# Tables of rules

Rules by their ids, in the order in which they came.  A rule that is put again keeps its place.
Where ids are fresh a table is just a list that grows at its end.
-/

namespace MmtCore.Lib

open List

universe u v w

variable {ι : Type u} {α : Type v} {β : Type w}

/-- A table of rules. -/
abbrev RuleTable (ι : Type u) (α : Type v) := List (ι × α)

namespace RuleTable

/-- The ids in the table. -/
def ids (t : RuleTable ι α) : List ι := t.map Prod.fst

/-- Every rule is translated. -/
def each (t : RuleTable ι α) (φ : α → β) : RuleTable ι β := t.map fun p => (p.1, φ p.2)

section

variable [DecidableEq ι]

/-- The rule of an id is replaced, or comes last. -/
def put (t : RuleTable ι α) (id : ι) (a : α) : RuleTable ι α :=
  if id ∈ t.ids then t.map fun p => if p.1 = id then (id, a) else p else t ++ [(id, a)]

/-- The rule of an id is changed, when there is one. -/
def alter (t : RuleTable ι α) (id : ι) (f : α → α) : RuleTable ι α :=
  t.map fun p => if p.1 = id then (p.1, f p.2) else p

/-- The rule of an id is removed. -/
def drop (t : RuleTable ι α) (id : ι) : RuleTable ι α := t.filter fun p => p.1 ≠ id

/-- All of these are put, in order. -/
def putAll (t : RuleTable ι α) (l : List (ι × α)) : RuleTable ι α :=
  l.foldl (fun t p => t.put p.1 p.2) t

end

@[simp] theorem ids_nil : ids ([] : RuleTable ι α) = [] := rfl

@[simp] theorem ids_append (t t' : RuleTable ι α) : ids (t ++ t') = ids t ++ ids t' :=
  map_append

@[simp] theorem ids_each (t : RuleTable ι α) (φ : α → β) : (t.each φ).ids = t.ids := by
  unfold ids each
  rw [map_map]
  rfl

theorem each_append (t t' : RuleTable ι α) (φ : α → β) :
    each (t ++ t') φ = t.each φ ++ t'.each φ :=
  map_append

variable [DecidableEq ι] {t : RuleTable ι α} {id : ι}

theorem put_fresh (a : α) (h : id ∉ t.ids) : t.put id a = t ++ [(id, a)] := if_neg h

/-- Rules with ids of their own come after what is there. -/
theorem putAll_fresh (l : List (ι × α)) (hnodup : (ids l).Nodup)
    (hfresh : ∀ i ∈ ids l, i ∉ t.ids) : t.putAll l = t ++ l := by
  induction l generalizing t with
  | nil => exact (append_nil t).symm
  | cons p l ih =>
    have hp : p.1 ∉ t.ids := hfresh p.1 (mem_cons_self ..)
    obtain ⟨hpl, hl⟩ := nodup_cons.1 hnodup
    have hrest : ∀ i ∈ ids l, i ∉ ids (t ++ [p]) := by
      intro i hi hmem
      rw [ids_append] at hmem
      obtain hold | hnew := mem_append.1 hmem
      · exact hfresh i (mem_cons_of_mem _ hi) hold
      · rw [mem_singleton.1 hnew] at hi
        exact hpl hi
    change (t.put p.1 p.2).putAll l = _
    rw [put_fresh p.2 hp, ih hl hrest, append_assoc]
    rfl

theorem ids_alter (f : α → α) : (t.alter id f).ids = t.ids := by
  unfold alter ids
  rw [map_map]
  refine map_congr_left fun p _ => ?_
  dsimp only [Function.comp_apply]
  split <;> rfl

theorem putAll_nodup {l : List (ι × α)} (h : (ids (t ++ l)).Nodup) : t.putAll l = t ++ l := by
  grind [ids_append, putAll_fresh]

/-! ## Removals -/

theorem foldl_drop (l : List ι) : l.foldl drop t = t.filter fun p => p.1 ∉ l := by
  induction l generalizing t with
  | nil => exact (filter_eq_self.2 fun _ _ => by simp).symm
  | cons i l ih =>
    rw [foldl_cons, ih, drop, filter_filter]
    refine filter_congr fun p _ => ?_
    simp [Bool.and_comm]

theorem drop_append (t' : RuleTable ι α) : drop (t ++ t') id = t.drop id ++ t'.drop id :=
  filter_append ..

theorem drop_eq_self (h : id ∉ t.ids) : t.drop id = t := by
  refine filter_eq_self.2 fun p hp => ?_
  have hne : p.1 ≠ id := fun heq => h (heq ▸ mem_map_of_mem hp)
  simpa using hne

theorem mem_ids_drop {i : ι} : i ∈ (t.drop id).ids ↔ i ∈ t.ids ∧ i ≠ id := by
  simp [drop, ids]

theorem drop_each (φ : α → β) : (t.each φ).drop id = (t.drop id).each φ :=
  filter_map ..

theorem drop_drop (i : ι) : (t.drop id).drop i = (t.drop i).drop id := by
  unfold drop
  rw [filter_comm]

theorem foldl_drop_each (φ : α → β) (l : List ι) :
    l.foldl drop (t.each φ) = (l.foldl drop t).each φ := by
  induction l generalizing t with
  | nil => rfl
  | cons i l ih => rw [foldl_cons, foldl_cons, drop_each, ih]

theorem foldl_drop_drop (l : List ι) : (l.foldl drop t).drop id = l.foldl drop (t.drop id) := by
  induction l generalizing t with
  | nil => rfl
  | cons i l ih => rw [foldl_cons, foldl_cons, ih, drop_drop]

theorem ids_foldl_drop_sublist (l : List ι) : (l.foldl drop t).ids.Sublist t.ids := by
  rw [foldl_drop]
  exact filter_sublist.map Prod.fst

/-- Whatever is put under an id goes when the id is dropped. -/
theorem drop_put (a : α) : (t.put id a).drop id = t.drop id := by
  unfold put
  split
  case isTrue h =>
    clear h
    induction t with
    | nil => rfl
    | cons p t ih =>
      grind [drop]
  case isFalse =>
    rw [drop_append]
    simp [drop]

theorem drop_putAll (l : List (ι × α)) (h : ∀ p ∈ l, p.1 = id) :
    (t.putAll l).drop id = t.drop id := by
  induction l generalizing t with
  | nil => rfl
  | cons p l ih =>
    obtain ⟨rfl, hl⟩ := forall_mem_cons.1 h
    exact (ih hl).trans (drop_put p.2)

/-! ## Changes -/

/-- A change on one side of a correspondence is a change on the other. -/
theorem each_alter {f : α → α} {g : β → β} {φ : α → β}
    (h : ∀ p ∈ t, p.1 = id → φ (f p.2) = g (φ p.2)) :
    (t.alter id f).each φ = (t.each φ).alter id g := by
  unfold each alter
  rw [map_map, map_map]
  refine map_congr_left fun p hp => ?_
  grind

/-- Each of these ids once. -/
theorem foldl_alter (f : α → α) {l : List ι} (hl : l.Nodup) :
    l.foldl (fun t i => t.alter i f) t = t.map fun p => if p.1 ∈ l then (p.1, f p.2) else p := by
  induction l generalizing t with
  | nil => simp
  | cons i l ih =>
    obtain ⟨hi, hl⟩ := nodup_cons.1 hl
    rw [foldl_cons, ih hl, alter, map_map]
    refine map_congr_left fun p _ => ?_
    grind

end RuleTable

end MmtCore.Lib
