import Mathlib.Data.List.GetD

/-!
# The internet checksum

Ones' complement sums of bytes taken two at a time, an odd last byte being padded with a zero.
Reading the pairs with the low byte first gives the sum of the pairs with the high byte first times
`2 ^ 8`, modulo `2 ^ 16 - 1` (`beSum_mod`), so that a checksum can be computed in either order.
Replacing a pair of a list by the complement of the sum of the rest makes the sum all ones.
-/

namespace MmtCore.Lib

open List UInt8

/-- The sum of the pairs, high byte first. -/
def beSum : List UInt8 → Nat
  | [] => 0
  | [a] => a.toNat * 256
  | a :: b :: l => a.toNat * 256 + b.toNat + beSum l

/-- The sum of the pairs, low byte first. -/
def leSum : List UInt8 → Nat
  | [] => 0
  | [a] => a.toNat
  | a :: b :: l => a.toNat + 256 * b.toNat + leSum l

/-- A sum with its carries added back until it has 16 bits. -/
def onesFold (n : Nat) : Nat := if n = 0 then 0 else (n - 1) % 65535 + 1

/-! ## Folding -/

theorem onesFold_lt (n : Nat) : onesFold n < 65536 := by
  unfold onesFold
  split <;> omega

theorem onesFold_mod (n : Nat) : onesFold n % 65535 = n % 65535 := by
  unfold onesFold
  split <;> omega

@[simp] theorem onesFold_eq_zero {n : Nat} : onesFold n = 0 ↔ n = 0 := by
  unfold onesFold
  split <;> omega

/-- All ones is the fold of a multiple of `2 ^ 16 - 1` other than 0. -/
theorem onesFold_eq_ones {n : Nat} : onesFold n = 65535 ↔ n ≠ 0 ∧ n % 65535 = 0 := by
  unfold onesFold
  split <;> omega

/-- One addition of the carries. -/
def foldCarry (n : Nat) : Nat := n % 65536 + n / 65536

theorem onesFold_foldCarry (n : Nat) : onesFold (foldCarry n) = onesFold n := by
  unfold onesFold foldCarry
  split <;> split <;> omega

theorem onesFold_of_lt {n : Nat} (h : n < 65536) : onesFold n = n := by
  unfold onesFold
  split <;> omega

/-! ## Sums -/

theorem leSum_append {l : List UInt8} (h : l.length % 2 = 0) (m : List UInt8) :
    leSum (l ++ m) = leSum l + leSum m := by
  induction l using leSum.induct with
  | case1 => simp [leSum]
  | case2 a => simp at h
  | case3 a b l ih =>
    grind [length_cons, cons_append, leSum]

/-- A sum of `k` pairs is below `65536 * k`. -/
theorem leSum_le (l : List UInt8) : leSum l ≤ 65535 * ((l.length + 1) / 2) := by
  induction l using leSum.induct with
  | case1 => simp [leSum]
  | case2 a =>
    have ha := a.toNat_lt
    simp only [leSum, length_singleton]
    omega
  | case3 a b l ih =>
    have ha := a.toNat_lt
    have hb := b.toNat_lt
    simp only [leSum, length_cons]
    omega

/-- The order of the bytes in a pair does not matter for a sum that is to be all ones. -/
theorem beSum_mod (l : List UInt8) : beSum l % 65535 = 256 * leSum l % 65535 := by
  induction l using leSum.induct with
  | case1 => rfl
  | case2 a | case3 a b l ih =>
    simp only [beSum, leSum]
    omega

theorem beSum_eq_zero {l : List UInt8} : beSum l = 0 ↔ leSum l = 0 := by
  induction l using leSum.induct with
  | case1 => exact Iff.rfl
  | case2 a | case3 a b l ih =>
    simp only [beSum, leSum]
    omega

theorem beSum_append {l : List UInt8} (h : l.length % 2 = 0) (m : List UInt8) :
    beSum (l ++ m) = beSum l + beSum m := by
  induction l using leSum.induct with
  | case1 => simp [beSum]
  | case2 a => simp at h
  | case3 a b l ih =>
    grind [length_cons, cons_append, beSum]

/-- The first byte is part of the sum. -/
theorem getD_zero_le_leSum (l : List UInt8) : (l.getD 0 0).toNat ≤ leSum l := by
  cases l using leSum.induct with
  | case1 | case2 a => exact Nat.le_refl _
  | case3 a b l ih =>
    simp only [getD_cons_zero, leSum]
    omega

/-- The receiver's check: the ones' complement sum is all ones. -/
def SumsToOnes (l : List UInt8) : Prop := onesFold (beSum l) = 65535

/-- The check can be made with the low bytes first. -/
theorem sumsToOnes_iff {l : List UInt8} :
    SumsToOnes l ↔ leSum l ≠ 0 ∧ leSum l % 65535 = 0 := by
  unfold SumsToOnes
  rw [onesFold_eq_ones, beSum_mod, Ne, beSum_eq_zero]
  omega

/-! ## The field of the checksum -/

/-- A list with the pair at `i` replaced, low byte first. -/
def storePair (l : List UInt8) (i w : Nat) : List UInt8 :=
  (l.set i (UInt8.ofNat w)).set (i + 1) (UInt8.ofNat (w / 256))

/-- The pair at `i`. -/
def pairAt (l : List UInt8) (i : Nat) : Nat := (l.getD i 0).toNat + 256 * (l.getD (i + 1) 0).toNat

variable {l : List UInt8} {i w : Nat}

@[simp] theorem length_storePair : (storePair l i w).length = l.length := by
  simp [storePair]

theorem pairAt_lt (l : List UInt8) (i : Nat) : pairAt l i < 65536 := by
  have ha := (l.getD i 0).toNat_lt
  have hb := (l.getD (i + 1) 0).toNat_lt
  unfold pairAt
  omega

/-- A list around the pair at `i`. -/
theorem eq_around (hi : i + 1 < l.length) :
    l = l.take i ++ l.getD i 0 :: l.getD (i + 1) 0 :: l.drop (i + 2) := by
  grind [getD_eq_getElem, drop_eq_getElem_cons, take_append_drop]

theorem storePair_around (hi : i + 1 < l.length) :
    storePair l i w =
      l.take i ++ UInt8.ofNat w :: UInt8.ofNat (w / 256) :: l.drop (i + 2) := by
  have hlen : (l.take i).length = i := List.length_take_of_le (by omega)
  conv => lhs; rw [eq_around hi]
  rw [storePair, List.set_append_right _ _ (by omega), hlen, Nat.sub_self, List.set_cons_zero,
    set_append_right _ _ (by omega), hlen, Nat.add_sub_cancel_left, set_cons_succ,
    set_cons_zero]

/-- The sum by the pair at an even place and the rest. -/
theorem leSum_storePair (heven : i % 2 = 0) (hi : i + 1 < l.length) (hw : w < 65536) :
    leSum (storePair l i w) = leSum (storePair l i 0) + w := by
  grind [toNat_ofNat', storePair_around, leSum_append, leSum]

/-- Storing the pair that is there changes nothing. -/
theorem storePair_pairAt (hi : i + 1 < l.length) : storePair l i (pairAt l i) = l := by
  have ha := (l.getD i 0).toNat_lt
  have hb := (l.getD (i + 1) 0).toNat_lt
  have hlow : ofNat (pairAt l i) = l.getD i 0 := by
    apply UInt8.toNat_inj.mp
    rw [UInt8.toNat_ofNat', pairAt]
    omega
  grind [UInt8.toNat_ofNat', pairAt, storePair_around, UInt8.toNat_inj, eq_around]

/-- A pair is stored where it was there before. -/
theorem storePair_eq_self (hi : i + 1 < l.length) (hw : w < 65536) :
    storePair l i w = l ↔ pairAt l i = w := by
  constructor
  · intro h
    have hlen : (l.take i).length = i := length_take_of_le (by omega)
    have hget : pairAt (storePair l i w) i = w := by
      rw [storePair_around hi, pairAt, getD_append_right _ _ _ _ (by omega),
        List.getD_append_right _ _ _ _ (by omega), hlen, Nat.sub_self, Nat.add_sub_cancel_left,
        getD_cons_zero, getD_cons_succ, getD_cons_zero, toNat_ofNat',
        toNat_ofNat']
      omega
    rw [h] at hget
    exact hget
  · rintro rfl
    exact storePair_pairAt hi

/-- The bytes away from the pair stay. -/
theorem getElem?_storePair {j : Nat} (h : j ≠ i) (h' : j ≠ i + 1) :
    (storePair l i w)[j]? = l[j]? := by
  rw [storePair, getElem?_set_ne (Ne.symm h'), getElem?_set_ne (Ne.symm h)]

/-- A pair in the first of two lists. -/
theorem storePair_append_left (hi : i + 1 < l.length) (m : List UInt8) :
    storePair (l ++ m) i w = storePair l i w ++ m := by
  grind [storePair, set_append_left, length_set]

/-- A pair in the second of two lists. -/
theorem storePair_append_right (m : List UInt8) :
    storePair (l ++ m) (l.length + i) w = l ++ storePair m i w := by
  simp [storePair, List.set_append_right, Nat.le_add_right, Nat.add_sub_cancel_left, Nat.add_assoc]

/-- Storing twice is storing the second pair. -/
theorem storePair_storePair (hi : i + 1 < l.length) (v : Nat) :
    storePair (storePair l i v) i w = storePair l i w := by
  have hlen : (l.take i).length = i := length_take_of_le (by omega)
  have hdrop : (storePair l i v).drop (i + 2) = l.drop (i + 2) := by
    rw [storePair_around hi, drop_append, hlen, drop_of_length_le (by omega),
      Nat.add_sub_cancel_left]
    rfl
  simp_all [length_storePair, storePair_around]

/-- The complement of the sum without the pair at `i`. -/
def complementAt (base : Nat) (l : List UInt8) (i : Nat) : Nat :=
  65535 - onesFold (base + leSum (storePair l i 0))

theorem complementAt_lt (base : Nat) (l : List UInt8) (i : Nat) :
    complementAt base l i < 65536 := by
  unfold complementAt
  omega

/-- A sum that is not zero without the pair has a complement other than all ones. -/
theorem complementAt_ne_ones (base : Nat) (h : base + leSum (storePair l i 0) ≠ 0) :
    complementAt base l i ≠ 65535 := by
  grind [complementAt, onesFold_lt, onesFold_eq_zero]

/-- The pairs that make the sum a multiple of `2 ^ 16 - 1`. -/
theorem storePair_sum_mod (base : Nat) (heven : i % 2 = 0) (hi : i + 1 < l.length)
    (hw : w < 65536) :
    (base + leSum (storePair l i w)) % 65535 = 0 ↔
      w % 65535 = complementAt base l i % 65535 := by
  grind [leSum_storePair, complementAt, onesFold_mod, onesFold_lt]

/-- Where the sum is right already, the complement is what is stored, but for the all ones. -/
theorem complementAt_eq_iff {base : Nat} (heven : i % 2 = 0) (hi : i + 1 < l.length)
    (hsum : (base + leSum l) % 65535 = 0) (hne : base + leSum (storePair l i 0) ≠ 0) :
    pairAt l i = complementAt base l i ↔ pairAt l i ≠ 65535 := by
  grind [storePair_sum_mod, pairAt_lt, storePair_pairAt, complementAt_lt, complementAt_ne_ones]

end MmtCore.Lib
