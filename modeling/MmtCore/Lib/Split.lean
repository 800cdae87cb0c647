import Mathlib.Data.List.Infix

/-!
# Cutting a list at a separator

`cut` finds the first occurrence of a separator, `splitN` cuts a bounded number of times and `split`
as often as it can.  `Clear sep pre` says that a separator written after `pre` is the first one to
be found, whatever follows; from it joined pieces split into what they were.
-/

namespace MmtCore.Lib

open List Nat

universe u

variable {α : Type u} [DecidableEq α]

/-- What is before and after the first occurrence of `sep`. -/
def cut (sep : List α) : List α → Option (List α × List α)
  | [] => if sep = [] then some ([], []) else none
  | c :: s =>
    if sep <+: c :: s then some ([], (c :: s).drop sep.length)
    else (cut sep s).map fun p => (c :: p.1, p.2)

/-- The pieces after at most `n` cuts. -/
def splitN (sep : List α) : Nat → List α → List (List α)
  | 0, s => [s]
  | n + 1, s =>
    match cut sep s with
    | none => [s]
    | some (a, b) => a :: splitN sep n b

def split (sep s : List α) : List (List α) :=
  splitN sep s.length s

variable {sep s a b : List α}

/-! ## One cut -/

theorem cut_eq_some (h : cut sep s = some (a, b)) : s = a ++ sep ++ b := by
  induction s generalizing a with
  | nil =>
    simp_all [cut]
  | cons c s ih =>
    unfold cut at h
    split at h
    · case isTrue hpre =>
      cases h
      obtain ⟨t, ht⟩ := hpre
      rw [← ht]
      simp
    · grind [Option.map_eq_some_iff]

/-- The separator is not found inside what is before its first occurrence. -/
theorem cut_not_infix (hsep : sep ≠ []) (h : cut sep s = some (a, b)) : ¬ sep <:+: a := by
  induction s generalizing a with
  | nil =>
    unfold cut at h
    rw [if_neg hsep] at h
    cases h
  | cons c s ih =>
    unfold cut at h
    split at h
    · cases h
      rw [infix_nil]
      exact hsep
    · case isFalse hpre =>
      rw [Option.map_eq_some_iff] at h
      obtain ⟨p, hp, hab⟩ := h
      cases hab
      rw [infix_cons_iff]
      rintro (hhead | htail)
      · refine hpre (hhead.trans ?_)
        rw [cut_eq_some hp]
        exact ⟨sep ++ p.2, by simp⟩
      · exact ih hp htail

theorem cut_eq_none_iff : cut sep s = none ↔ ¬ sep <:+: s := by
  induction s with
  | nil =>
    unfold cut
    rw [infix_nil]
    split <;> simp_all
  | cons c s ih =>
    unfold cut
    rw [infix_cons_iff]
    split
    · case isTrue hpre => simp [hpre]
    · case isFalse hpre => simp [hpre, ih]

/-- A separator after `pre` is the first one. -/
def Clear (sep pre : List α) : Prop :=
  ∀ i < pre.length, ∀ rest, ¬ sep <+: pre.drop i ++ sep ++ rest

omit [DecidableEq α] in
theorem Clear.tail {c : α} {pre : List α} (h : Clear sep (c :: pre)) : Clear sep pre := by
  intro i hi rest
  exact h (i + 1) (succ_lt_succ hi) rest

theorem cut_append {pre : List α} (h : Clear sep pre) (rest : List α) :
    cut sep (pre ++ sep ++ rest) = some (pre, rest) := by
  induction pre with
  | nil =>
    cases hs : sep ++ rest with
    | nil =>
      obtain ⟨rfl, rfl⟩ := append_eq_nil_iff.mp hs
      rfl
    | cons c s =>
      grind [cut]
  | cons c pre ih =>
    have hno : ¬ sep <+: c :: (pre ++ sep ++ rest) := h 0 (succ_pos _) rest
    rw [cons_append, cons_append, cut, if_neg hno, ih h.tail]
    rfl

omit [DecidableEq α] in
theorem clear_singleton {x : α} {pre : List α} (h : x ∉ pre) : Clear [x] pre := by
  intro i hi rest hpre
  grind [drop_eq_getElem_cons]

omit [DecidableEq α] in
/-- A separator of two different elements is first if it does not occur before. -/
theorem clear_pair {x y : α} {pre : List α} (hxy : x ≠ y) (h : ¬ [x, y] <:+: pre) :
    Clear [x, y] pre := by
  intro i hi rest hpre
  rw [drop_eq_getElem_cons hi, append_assoc, cons_append,
    cons_prefix_cons] at hpre
  obtain ⟨hx, hpre⟩ := hpre
  by_cases hi' : i + 1 < pre.length
  · rw [drop_eq_getElem_cons hi', cons_append, cons_prefix_cons] at hpre
    refine h ?_
    have hdrop : pre.drop i = x :: y :: pre.drop (i + 1 + 1) := by
      rw [drop_eq_getElem_cons hi, drop_eq_getElem_cons hi', ← hx, ← hpre.1]
    have hinfix : [x, y] <+: pre.drop i := by
      rw [hdrop]
      exact ⟨pre.drop (i + 1 + 1), rfl⟩
    exact hinfix.isInfix.trans (drop_suffix i pre).isInfix
  · rw [List.drop_eq_nil_of_le (Nat.le_of_not_lt hi'), List.nil_append, List.cons_append,
      cons_prefix_cons] at hpre
    exact hxy hpre.1.symm

/-! ## Splitting -/

theorem splitN_ne_nil (n : Nat) : splitN sep n s ≠ [] := by
  cases n with
  | zero => exact cons_ne_nil _ _
  | succ n =>
    unfold splitN
    split <;> exact cons_ne_nil _ _

variable {n : Nat} {l : List α} {ls : List (List α)}

theorem infix_of_mem_splitN (h : l ∈ splitN sep n s) : l <:+: s := by
  induction n generalizing s with
  | zero =>
    rw [mem_singleton.mp h]
  | succ n ih =>
    unfold splitN at h
    split at h
    · rw [mem_singleton.mp h]
    · case h_2 a b hcut =>
      have hs := cut_eq_some hcut
      rcases mem_cons.mp h with rfl | h
      · exact ⟨[], sep ++ b, by simp [hs]⟩
      · exact (ih h).trans ⟨a ++ sep, [], by simp [hs]⟩

/-- With a cut for each element no piece has the separator in it. -/
theorem not_infix_of_mem_splitN (hsep : sep ≠ []) (hn : s.length ≤ n) (h : l ∈ splitN sep n s) :
    ¬ sep <:+: l := by
  induction n generalizing s with
  | zero =>
    obtain rfl := eq_nil_of_length_eq_zero (le_zero.mp hn)
    rw [mem_singleton.mp h, infix_nil]
    exact hsep
  | succ n ih =>
    unfold splitN at h
    split at h
    · case h_1 hcut =>
      rw [mem_singleton.mp h]
      exact cut_eq_none_iff.mp hcut
    · case h_2 a b hcut =>
      rcases mem_cons.mp h with rfl | h
      · exact cut_not_infix hsep hcut
      · refine ih ?_ h
        have hlen := congrArg length (cut_eq_some hcut)
        grind [length_pos_of_ne_nil]

theorem not_infix_of_mem_split (hsep : sep ≠ []) (h : l ∈ split sep s) : ¬ sep <:+: l :=
  not_infix_of_mem_splitN hsep (le_refl _) h

theorem split_of_not_infix (h : ¬ sep <:+: s) : split sep s = [s] := by
  unfold split
  cases hs : s.length with
  | zero => rfl
  | succ n =>
    unfold splitN
    rw [cut_eq_none_iff.mpr h]

section

variable (hsep : sep ≠ []) (hclear : ∀ l' ∈ l :: ls, Clear sep l' ∧ ¬ sep <:+: l')
include hclear hsep

/-- The pieces of a separated list are what was joined. -/
theorem splitN_intercalate (hn : (sep.intercalate (l :: ls)).length ≤ n) :
    splitN sep n (sep.intercalate (l :: ls)) = l :: ls := by
  induction ls generalizing l n with
  | nil =>
    have hl := (hclear l (mem_cons_self ..)).2
    rw [intercalate_singleton]
    cases n with
    | zero => rfl
    | succ n =>
      unfold splitN
      rw [cut_eq_none_iff.mpr hl]
  | cons l' ls ih =>
    have hrest : ∀ l'' ∈ l' :: ls, Clear sep l'' ∧ ¬ sep <:+: l'' :=
      fun l'' h => hclear l'' (mem_cons_of_mem _ h)
    have hpos := length_pos_of_ne_nil hsep
    rw [intercalate_cons_cons] at hn ⊢
    simp only [length_append] at hn
    cases n with
    | zero => omega
    | succ n =>
      grind [cut_append, splitN]

theorem split_intercalate : split sep (sep.intercalate (l :: ls)) = l :: ls :=
  splitN_intercalate hsep hclear (le_refl _)

end

omit [DecidableEq α] in
/-- An empty piece, that is two separators in a row, is first found after joined pieces of which
none but perhaps the first is empty. -/
theorem clear_twice {x y : α} (hxy : x ≠ y) {l : List α} {ls : List (List α)}
    (hclear : ∀ l' ∈ l :: ls, ¬ [x, y] <:+: l') (hne : ∀ l' ∈ ls, l' ≠ []) :
    Clear [x, y, x, y] ([x, y].intercalate (l :: ls)) := by
  induction ls generalizing l with
  | nil =>
    have hl := clear_pair hxy (hclear l (mem_cons_self ..))
    intro i hi rest hpre
    rw [intercalate_singleton] at hi hpre
    refine hl i hi ([x, y] ++ rest) (List.IsPrefix.trans ⟨[x, y], rfl⟩ (hpre.trans ?_))
    simp
  | cons l' ls ih =>
    have hl := clear_pair hxy (hclear l (mem_cons_self ..))
    have hrest : ∀ l'' ∈ l' :: ls, ¬ [x, y] <:+: l'' :=
      fun l'' h => hclear l'' (mem_cons_of_mem _ h)
    have hl' := clear_pair hxy (hrest l' (mem_cons_self ..))
    have ih := ih hrest fun l'' h => hne l'' (mem_cons_of_mem _ h)
    have hpos := length_pos_of_ne_nil (hne l' (mem_cons_self ..))
    rw [intercalate_cons_cons, append_assoc]
    intro i hi rest hpre
    rcases lt_trichotomy i l.length with hlt | rfl | hgt
    · -- inside the first piece
      rw [drop_append_of_le_length (le_of_lt hlt)] at hpre
      refine hl i hlt ([x, y].intercalate (l' :: ls) ++ [x, y, x, y] ++ rest)
        (List.IsPrefix.trans ⟨[x, y], rfl⟩ (hpre.trans ?_))
      simp
    · -- at the separator: the next piece would begin with one
      rw [drop_left] at hpre
      simp only [append_assoc, cons_append, nil_append, cons_prefix_cons,
        true_and] at hpre
      cases ls with
      | nil =>
        refine hl' 0 hpos ([x, y] ++ rest) (hpre.trans ?_)
        simp
      | cons l'' ls =>
        refine hl' 0 hpos ([x, y].intercalate (l'' :: ls) ++ [x, y, x, y] ++ rest) (hpre.trans ?_)
        simp
    · obtain ⟨k, rfl⟩ := Nat.exists_eq_add_of_lt hgt
      have hdrop : drop (l.length + k + 1) (l ++ ([x, y] ++ [x, y].intercalate (l' :: ls))) =
          drop k (y :: [x, y].intercalate (l' :: ls)) := by
        rw [Nat.add_assoc, List.drop_length_add_append]
        rfl
      rw [hdrop] at hpre
      cases k with
      | zero =>
        rw [drop_zero, append_assoc, cons_append, cons_prefix_cons] at hpre
        exact hxy hpre.1
      | succ k =>
        refine ih k ?_ rest hpre
        simp only [length_append, length_cons, length_nil] at hi
        omega

end MmtCore.Lib
