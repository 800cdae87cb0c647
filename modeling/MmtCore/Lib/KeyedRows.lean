import Mathlib.Data.List.Nodup

/-!
# Tables whose rows have a key

A table is the list of its rows; a query by key takes the first row that has it.
-/

namespace MmtCore.Lib

open List

universe u v

variable {α : Type u} {κ : Type v} [DecidableEq κ] {key : α → κ} {l l' : List α} {a : α} {k : κ}

theorem find?_key_of_mem (h : (l.map key).Nodup) (ha : a ∈ l) :
    l.find? (fun x => key x = key a) = some a := by
  cases hf : l.find? fun x => key x = key a with
  | none =>
    grind
  | some b =>
    grind [inj_on_of_nodup_map]

theorem mem_of_find?_key (h : l.find? (fun x => key x = k) = some a) : a ∈ l ∧ key a = k :=
  ⟨mem_of_find?_eq_some h, by simpa using find?_some h⟩

theorem find?_key_eq_none : l.find? (fun x => key x = k) = none ↔ k ∉ l.map key := by
  simp

theorem find?_key_isSome : (l.find? fun x => key x = k).isSome ↔ k ∈ l.map key := by
  rw [← not_iff_not, ← find?_key_eq_none, Option.not_isSome_iff_eq_none]

/-- Rows added at the end do not hide a row that is there. -/
theorem find?_key_append (h : k ∈ l.map key) :
    (l ++ l').find? (fun x => key x = k) = l.find? fun x => key x = k := by
  obtain ⟨b, hb⟩ := Option.isSome_iff_exists.1 (find?_key_isSome.2 h)
  rw [find?_append, hb]
  rfl

/-- An update that keeps the keys updates the row found. -/
theorem find?_key_map {f : α → α} (hf : ∀ x, key (f x) = key x) :
    (l.map f).find? (fun x => key x = k) = (l.find? fun x => key x = k).map f := by
  rw [find?_map]
  congr 2
  funext x
  rw [Function.comp_apply, hf]

omit [DecidableEq κ] in
theorem map_key_map {f : α → α} (hf : ∀ x, key (f x) = key x) :
    (l.map f).map key = l.map key := by
  rw [map_map]
  exact map_congr_left fun x _ => hf x

/-! ## Putting and dropping a row -/

/-- The first row with the key of `a` is replaced by it; where there is none it comes last. -/
def putRow (key : α → κ) (a : α) : List α → List α
  | [] => [a]
  | x :: l => if key x = key a then a :: l else x :: putRow key a l

theorem keys_putRow :
    (putRow key a l).map key = if key a ∈ l.map key then l.map key else l.map key ++ [key a] := by
  induction l with
  | nil => rfl
  | cons x l ih =>
    unfold putRow
    split
    case isTrue h => simp [h]
    case isFalse h =>
      rw [map_cons, ih, map_cons]
      by_cases hmem : key a ∈ l.map key
      · rw [if_pos hmem, if_pos (mem_cons_of_mem _ hmem)]
      · have hnot : key a ∉ key x :: l.map key := by
          rw [mem_cons, not_or]
          exact ⟨fun heq => h heq.symm, hmem⟩
        rw [if_neg hmem, if_neg hnot, cons_append]

theorem nodup_putRow (h : (l.map key).Nodup) : ((putRow key a l).map key).Nodup := by
  grind [keys_putRow]

theorem mem_putRow (h : (l.map key).Nodup) {x : α} :
    x ∈ putRow key a l ↔ x = a ∨ x ∈ l ∧ key x ≠ key a := by
  induction l with
  | nil => simp [putRow]
  | cons y l ih =>
    grind [putRow]

/-- The first row with the key goes. -/
def dropRow (key : α → κ) (k : κ) (l : List α) : List α := l.eraseP fun x => key x = k

theorem nodup_dropRow (h : (l.map key).Nodup) : ((dropRow key k l).map key).Nodup :=
  h.sublist (eraseP_sublist.map key)

theorem mem_dropRow (h : (l.map key).Nodup) {x : α} :
    x ∈ dropRow key k l ↔ x ∈ l ∧ key x ≠ k := by
  induction l with
  | nil => simp [dropRow]
  | cons y l ih =>
    by_cases heq : key y = k <;> grind [dropRow]

/-! ## Tables that list what holds -/

/-- The rows are those of the things that are there, one for each. -/
structure Lists {η : Type*} (key : α → κ) (row : η → α) (l : List α) (P : η → Prop) : Prop where
  nodup : (l.map key).Nodup
  mem : ∀ a, a ∈ l ↔ ∃ h, P h ∧ row h = a
  once : ∀ h h', P h → P h' → key (row h) = key (row h') → h = h'

section

variable {η : Type*} {row : η → α} {P P' : η → Prop}

omit [DecidableEq κ] in
theorem Lists.congr (h : Lists key row l P) (hP : ∀ x, P' x ↔ P x) : Lists key row l P' := by
  obtain rfl : P' = P := funext fun x => propext (hP x)
  exact h

omit [DecidableEq κ] in
theorem Lists.of_mem_iff (h : Lists key row l P) (hnodup : (l'.map key).Nodup)
    (hmem : ∀ a, a ∈ l' ↔ a ∈ l) : Lists key row l' P :=
  ⟨hnodup, fun a => (hmem a).trans (h.mem a), h.once⟩

/-- A new row takes the place of the one with its key. -/
theorem Lists.put {n : η} (h : Lists key row l P)
    (hP : ∀ x, P' x ↔ x = n ∨ P x ∧ key (row x) ≠ key (row n)) :
    Lists key row (putRow key (row n) l) P' := by
  refine ⟨nodup_putRow h.nodup, fun a => ?_, fun x x' hx hx' heq => ?_⟩
  · rw [mem_putRow h.nodup, h.mem]
    constructor <;> grind
  · obtain rfl | ⟨hx, hne⟩ := (hP x).1 hx
    · simp_all
    · obtain rfl | ⟨hx', -⟩ := (hP x').1 hx'
      · exact absurd heq hne
      · exact h.once x x' hx hx' heq

theorem Lists.drop (h : Lists key row l P) (hP : ∀ x, P' x ↔ P x ∧ key (row x) ≠ k) :
    Lists key row (dropRow key k l) P' := by
  refine ⟨nodup_dropRow h.nodup, fun a => ?_, fun x x' hx hx' heq => ?_⟩
  · rw [mem_dropRow h.nodup, h.mem]
    constructor <;> grind
  · exact h.once x x' ((hP x).1 hx).1 ((hP x').1 hx').1 heq

end

end MmtCore.Lib
